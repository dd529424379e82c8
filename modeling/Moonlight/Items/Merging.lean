import Moonlight.Creatures.Inventory
import Moonlight.Items.ItemReload

/-!
# Items that merge

Where stacks are joined, in `Game::internalMoveItem` and `Game::internalAddItem`, one of the items is destroyed and its
count is added to the other. `Item::equals` (items/item.cpp) decides whether they may be: it compares the words of bits,
and then the values of the integer and of the string attributes. `equals_iff` says what that comes to. It is an
equivalence, but nothing in it looks into the map of custom attributes, of which only the presence counts. So nothing is
lost precisely if the maps happen to agree as well (`sameAttributes_iff`).
-/

namespace Moonlight

open ItemAttrTypes

namespace ItemAttributes

variable {a b : ItemAttributes}

theorem bits_eq_iff : a.attributeBits = b.attributeBits ↔ ∀ type, (a.lookup type).isSome = (b.lookup type).isSome := by
  refine ⟨fun h type => ?_, fun h => BitVec.eq_of_getLsbD_eq fun i _ => ?_⟩
  · rw [← hasAttribute_eq, ← hasAttribute_eq, hasAttribute, hasAttribute, h]
  · have hkeys (type : ItemAttrTypes) : type ∈ Assoc.keys a.attributes ↔ type ∈ Assoc.keys b.attributes := by
      rw [← a.hasAttribute_iff, ← b.hasAttribute_iff, hasAttribute_eq, hasAttribute_eq, h type]
    rw [Bool.eq_iff_iff, a.bits, b.bits]
    simp only [hkeys]

theorem agrees_iff : a.agrees b = true ↔ ∀ type v w, a.lookup type = some v → b.lookup type = some w →
    (type.isStrAttrType = true → v.getString = w.getString) ∧
      (type.isIntAttrType = true → v.getInteger = w.getInteger) := by
  have hmem (c : ItemAttributes) (type : ItemAttrTypes) (v : AttrValue) :
      c.lookup type = some v ↔ (type, v) ∈ c.attributes := Assoc.lookup_eq_some_iff_mem c.nodup type v
  simp only [hmem]
  rw [agrees, List.all_eq_true]
  refine ⟨fun h type v w hv hw => ?_, fun h attr hattr => ?_⟩
  · have hpair := List.all_eq_true.mp (h _ hv) _ hw
    simp only [bne_self_eq_false, Bool.false_or, Bool.and_eq_true, Bool.not_eq_true', Bool.and_eq_false_imp,
      bne_eq_false_iff_eq] at hpair
    exact hpair
  · refine List.all_eq_true.mpr fun otherAttr hother => ?_
    by_cases htype : attr.1 = otherAttr.1
    · have hpair := h attr.1 attr.2 otherAttr.2 hattr (htype ▸ hother)
      simp only [htype, bne_self_eq_false, Bool.false_or, Bool.and_eq_true, Bool.not_eq_true',
        Bool.and_eq_false_imp, bne_eq_false_iff_eq]
      exact htype ▸ hpair
    · rw [bne_iff_ne.mpr htype, Bool.true_or]

theorem compared_iff {type : ItemAttrTypes} {v w : AttrValue} (hv : v.Fits type) (hw : w.Fits type)
    (htype : type ≠ .CUSTOM) : ((type.isStrAttrType = true → v.getString = w.getString) ∧
      (type.isIntAttrType = true → v.getInteger = w.getInteger)) ↔ v = w := by
  have hcustom : type.isCustomAttrType = false := by
    cases type <;> first | rfl | exact absurd rfl htype
  refine ⟨fun h => ?_, fun h => ⟨fun _ => h ▸ rfl, fun _ => h ▸ rfl⟩⟩
  cases v with
  | integer n =>
    -- a type has values of one class
    cases w with
    | integer m => exact congrArg AttrValue.integer (h.2 hv)
    | string s => exact absurd hw.1 (by rw [((class_disjoint type).1 hv).1]; exact Bool.false_ne_true)
    | custom m => exact absurd hw.1 (by rw [hcustom]; exact Bool.false_ne_true)
  | string s =>
    cases w with
    | integer m => exact absurd hv.1 (by rw [((class_disjoint type).1 hw).1]; exact Bool.false_ne_true)
    | string t => exact congrArg AttrValue.string (h.1 hv.1)
    | custom m => exact absurd hw.1 (by rw [hcustom]; exact Bool.false_ne_true)
  | custom m => exact absurd hv.1 (by rw [hcustom]; exact Bool.false_ne_true)

/-- The two stores are the same but for the contents of the custom map. -/
def Alike (a b : ItemAttributes) : Prop :=
  (∀ type, type ≠ .CUSTOM → a.lookup type = b.lookup type) ∧ (a.lookup .CUSTOM).isSome = (b.lookup .CUSTOM).isSome

theorem compare_iff : a.attributeBits = b.attributeBits ∧ a.agrees b = true ↔ a.Alike b := by
  rw [bits_eq_iff, agrees_iff]
  refine ⟨fun ⟨hbits, hagrees⟩ => ⟨fun type htype => ?_, hbits .CUSTOM⟩, fun ⟨hsame, hcustom⟩ =>
    ⟨fun type => ?_, fun type v w hv hw => ?_⟩⟩
  · cases hv : a.lookup type with
    | none =>
      have hnone := hbits type
      rw [hv, Option.isSome_none, eq_comm, Option.isSome_eq_false_iff, Option.isNone_iff_eq_none] at hnone
      exact hnone.symm
    | some v =>
      have hsome := hbits type
      rw [hv, Option.isSome_some, eq_comm] at hsome
      obtain ⟨w, hw⟩ := Option.isSome_iff_exists.mp hsome
      rw [hw, (compared_iff (lookup_fits hv) (lookup_fits hw) htype).mp (hagrees type v w hv hw)]
  · by_cases htype : type = .CUSTOM
    · rw [htype, hcustom]
    · rw [hsame type htype]
  · by_cases htype : type = .CUSTOM
    · -- the custom type is of neither class
      subst htype
      exact ⟨nofun, nofun⟩
    · rw [hsame type htype, hw] at hv
      rw [Option.some.inj hv]
      exact ⟨fun _ => rfl, fun _ => rfl⟩

end ItemAttributes

namespace Item

/-- What `equals` compares: the ids, whether there are attributes, and these, but for the contents of the custom map. -/
def Alike (item otherItem : Item) : Prop :=
  item.id = otherItem.id ∧ item.attributes.isSome = otherItem.attributes.isSome ∧
    (∀ type, type ≠ .CUSTOM → item.lookup type = otherItem.lookup type) ∧
      (item.lookup .CUSTOM).isSome = (otherItem.lookup .CUSTOM).isSome

theorem equals_iff (item otherItem : Item) : item.equals otherItem = true ↔ item.Alike otherItem := by
  obtain ⟨id, count, attributes⟩ := item
  obtain ⟨otherId, otherCount, otherAttributes⟩ := otherItem
  rw [equals, Alike]
  by_cases hid : id = otherId
  · rw [if_neg (by simp [hid])]
    cases attributes with
    | none =>
      cases otherAttributes with
      | none => simp [hid, lookup]
      | some b => simp
    | some a =>
      cases otherAttributes with
      | none => simp
      | some b =>
        have hcompare := @ItemAttributes.compare_iff a b
        rw [ItemAttributes.Alike] at hcompare
        show (if a.attributeBits != b.attributeBits then false else a.agrees b) = true ↔ _
        simp only [hid, lookup, Option.bind_some, Option.isSome_some, true_and]
        rw [← hcompare]
        by_cases hbits : a.attributeBits = b.attributeBits
        · simp [hbits]
        · simp [hbits]
  · rw [if_pos (by simpa using hid)]
    exact ⟨nofun, fun h => absurd h.1 hid⟩

/-- **`equals` is an equivalence.** -/
theorem equals_equivalence : Equivalence fun item otherItem : Item => item.equals otherItem = true := by
  simp only [equals_iff]
  exact {
    refl := fun _ => ⟨rfl, rfl, fun _ _ => rfl, rfl⟩
    symm := fun ⟨hid, hsome, hsame, hcustom⟩ =>
      ⟨hid.symm, hsome.symm, fun type htype => (hsame type htype).symm, hcustom.symm⟩
    trans := fun ⟨hid, hsome, hsame, hcustom⟩ ⟨hid', hsome', hsame', hcustom'⟩ =>
      ⟨hid.trans hid', hsome.trans hsome', fun type htype => (hsame type htype).trans (hsame' type htype),
        hcustom.trans hcustom'⟩ }

/-! ### What is lost -/

/-- Every attribute of one item has the same value in the other. -/
structure SameAttributes (item otherItem : Item) : Prop where
  has : ∀ type, item.hasAttribute type = otherItem.hasAttribute type
  int : ∀ type, item.getIntAttr type = otherItem.getIntAttr type
  str : ∀ type, item.getStrAttr type = otherItem.getStrAttr type
  custom : ∀ key, item.getCustomAttribute key = otherItem.getCustomAttribute key

theorem sameAttributes_iff (item otherItem : Item) :
    (item.equals otherItem = true → item.SameAttributes otherItem) ↔
      (item.Alike otherItem → ∀ key, item.getCustomAttribute key = otherItem.getCustomAttribute key) := by
  rw [equals_iff]
  refine ⟨fun h halike => (h halike).custom, fun h halike => ?_⟩
  have hcompared := halike
  obtain ⟨-, -, hsame, hcustom⟩ := hcompared
  refine ⟨fun type => ?_, fun type => ?_, fun type => ?_, h halike⟩
  · rw [hasAttribute_eq, hasAttribute_eq]
    by_cases htype : type = .CUSTOM
    · rw [htype, hcustom]
    · rw [hsame type htype]
  · rw [getIntAttr_eq, getIntAttr_eq]
    by_cases htype : type = .CUSTOM
    · rw [htype]
      rfl
    · rw [hsame type htype]
  · rw [getStrAttr_eq, getStrAttr_eq]
    by_cases htype : type = .CUSTOM
    · rw [htype]
      rfl
    · rw [hsame type htype]

/-- **When merging loses nothing.** The comparison is an equivalence, and items that it takes for equal have the same
attributes, unless they differ in custom attributes only. -/
theorem lossless_iff (item otherItem : Item) :
    (Equivalence fun item otherItem : Item => item.equals otherItem = true) ∧
      ((item.equals otherItem = true → item.SameAttributes otherItem) ↔
        (item.Alike otherItem → ∀ key, item.getCustomAttribute key = otherItem.getCustomAttribute key)) :=
  ⟨equals_equivalence, sameAttributes_iff item otherItem⟩

/-- Some arrows, of a quality that a script has given them. -/
def arrows (quality : Int) : Item where
  id := 3447
  count := 50
  attributes := some (ItemAttributes.empty.setCustomAttribute [113] (.int64 quality))

/-- Arrows of two qualities are equal. -/
theorem arrows_not_lossless : ¬ ∀ item otherItem : Item, item.equals otherItem = true → item.SameAttributes otherItem := by
  intro h
  have hequals : (arrows 1).equals (arrows 2) = true := by decide
  have hone : (arrows 1).getCustomAttribute [113] = some (.int64 1) := by decide
  have htwo : (arrows 2).getCustomAttribute [113] = some (.int64 2) := by decide
  have hsame := (h _ _ hequals).custom [113]
  rw [hone, htwo] at hsame
  cases hsame

end Item

end Moonlight
