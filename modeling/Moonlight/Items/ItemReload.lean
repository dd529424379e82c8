import Moonlight.Items.ItemSerialize

/-!
# What comes back

Reading the records of an item into a fresh one is a fold of setters (`Item.loadAttr`). This module says
what the getters then return. Every field touches one attribute and no two fields the same one, so a field
can be looked at alone (`Item.lookup_loadAttr`); what a field holds comes back precisely if it survives the
width of its record and the checks of its setter (`Field.same_iff`). The sub type is written in a different
place than it is read: `Item.getSubType_loadSubType` says which of the values read is the one that stays.
-/

namespace Moonlight

open Words PropStream

/-! ### Frames -/

namespace Item

theorem lookup_setCustomAttribute_of_ne (item : Item) (key : Bytes) (value : CustomAttribute)
    {t : ItemAttrTypes} (h : t ≠ .CUSTOM) : (item.setCustomAttribute key value).lookup t = item.lookup t := by
  rw [← lookup_getAttributes item]
  exact ItemAttributes.lookup_setCustomAttribute_of_ne _ _ _ h

theorem lookup_foldl_custom_of_ne (m : CustomAttributeMap) (item : Item) {t : ItemAttrTypes}
    (h : t ≠ .CUSTOM) :
    (m.foldl (fun item e => item.setCustomAttribute e.1 e.2) item).lookup t = item.lookup t := by
  induction m generalizing item with
  | nil => rfl
  | cons e m ih =>
    rw [List.foldl_cons, ih]
    exact lookup_setCustomAttribute_of_ne item e.1 e.2 h

theorem foldl_custom_frame (m : CustomAttributeMap) (item : Item) :
    (m.foldl (fun item e => item.setCustomAttribute e.1 e.2) item).id = item.id ∧
    (m.foldl (fun item e => item.setCustomAttribute e.1 e.2) item).count = item.count := by
  induction m generalizing item with
  | nil => exact ⟨rfl, rfl⟩
  | cons e m ih => exact ih (item.setCustomAttribute e.1 e.2)

theorem lookup_setDecaying_pending_of_ne (item : Item) {t : ItemAttrTypes} (h : t ≠ .DECAYSTATE) :
    (item.setDecaying .DECAYING_PENDING).lookup t = item.lookup t :=
  lookup_setIntAttr_of_ne item _ h

end Item

namespace Field

theorem lookup_load_of_ne (f : Field) (p : Payload) (item : Item) {t : ItemAttrTypes} (h : t ≠ f.type) :
    (f.load p item).lookup t = item.lookup t := by
  unfold load
  split
  · exact Item.lookup_setStrAttr_of_ne item _ h
  · exact Item.lookup_setStrAttr_of_ne item _ h
  · exact Item.lookup_setIntAttr_of_ne item _ h
  · exact Item.lookup_setIntAttr_of_ne item _ h
  · exact Item.lookup_setIntAttr_of_ne item _ h
  · exact Item.lookup_setIntAttr_of_ne item _ h
  · exact Item.lookup_setDecaying_pending_of_ne item h
  · exact Item.lookup_foldl_custom_of_ne _ item h
  · rfl

theorem load_frame (f : Field) (p : Payload) (item : Item) :
    (f.load p item).id = item.id ∧ (f.load p item).count = item.count := by
  unfold load
  split <;> first | exact ⟨rfl, rfl⟩ | exact Item.foldl_custom_frame _ item

theorem types_nodup : (Field.all.map Field.type).Nodup := by decide

end Field

namespace Item

variable (items : Items) (now : Int) (src : Item)

theorem lookup_loadField_of_ne (item : Item) (f : Field) {t : ItemAttrTypes} (h : t ≠ f.type) :
    (src.loadField items now item f).lookup t = item.lookup t := by
  unfold loadField
  split
  · rfl
  · exact f.lookup_load_of_ne _ item h

theorem lookup_foldl_of_not_mem (fs : List Field) (item : Item) {t : ItemAttrTypes}
    (h : t ∉ fs.map Field.type) : (fs.foldl (src.loadField items now) item).lookup t = item.lookup t := by
  induction fs generalizing item with
  | nil => rfl
  | cons f fs ih =>
    rw [List.map_cons, List.mem_cons, not_or] at h
    rw [List.foldl_cons, ih _ h.2, lookup_loadField_of_ne items now src item f h.1]

theorem foldl_frame (fs : List Field) (item : Item) :
    (fs.foldl (src.loadField items now) item).id = item.id ∧
    (fs.foldl (src.loadField items now) item).count = item.count := by
  induction fs generalizing item with
  | nil => exact ⟨rfl, rfl⟩
  | cons f fs ih =>
    have hstep : (src.loadField items now item f).id = item.id ∧
        (src.loadField items now item f).count = item.count := by
      unfold loadField
      split
      · exact ⟨rfl, rfl⟩
      · exact f.load_frame _ item
    obtain ⟨hid, hcount⟩ := ih (src.loadField items now item f)
    exact ⟨hid.trans hstep.1, hcount.trans hstep.2⟩

/-- **Each field alone.** After all fields were read, an attribute holds what its own field made of what
it held before. -/
theorem lookup_foldl_of_mem {fs : List Field} (hnd : (fs.map Field.type).Nodup) {f : Field} (hf : f ∈ fs)
    (item : Item) : ∃ item₁, item₁.lookup f.type = item.lookup f.type ∧
      (fs.foldl (src.loadField items now) item).lookup f.type
        = (src.loadField items now item₁ f).lookup f.type := by
  obtain ⟨pre, post, rfl⟩ := List.append_of_mem hf
  rw [List.map_append, List.map_cons] at hnd
  obtain ⟨-, hpost, hdisj⟩ := List.nodup_append.mp hnd
  have hpre : f.type ∉ pre.map Field.type := fun h => hdisj _ h _ (List.mem_cons_self ..) rfl
  have hpost' : f.type ∉ post.map Field.type := (List.nodup_cons.mp hpost).1
  refine ⟨pre.foldl (src.loadField items now) item, lookup_foldl_of_not_mem items now src pre item hpre, ?_⟩
  rw [List.foldl_append, List.foldl_cons, lookup_foldl_of_not_mem items now src post _ hpost']

end Item

/-! ### Getters read the attribute they name -/

namespace Item

theorem getIntAttr_congr {item item' : Item} {type : ItemAttrTypes} (h : item'.lookup type = item.lookup type) :
    item'.getIntAttr type = item.getIntAttr type := by
  rw [getIntAttr_eq, getIntAttr_eq, h]

theorem getStrAttr_congr {item item' : Item} {type : ItemAttrTypes} (h : item'.lookup type = item.lookup type) :
    item'.getStrAttr type = item.getStrAttr type := by
  rw [getStrAttr_eq, getStrAttr_eq, h]

theorem getDecaying_congr {item item' : Item} (h : item'.lookup .DECAYSTATE = item.lookup .DECAYSTATE) :
    item'.getDecaying = item.getDecaying := by
  rw [getDecaying_eq, getDecaying_eq, getIntAttr_congr h]

theorem getStrAttr_setStrAttr_self (item : Item) {type : ItemAttrTypes} (h : type.isStrAttrType = true)
    {value : Bytes} (hv : value ≠ []) : (item.setStrAttr type value).getStrAttr type = value := by
  rw [getStrAttr_eq, lookup_setStrAttr item h hv]
  simp [h, AttrValue.getString]

def getCustomAttribute (item : Item) (key : Bytes) : Option CustomAttribute :=
  item.attributes.bind (·.getCustomAttribute key)

theorem getCustomAttribute_eq (item : Item) (key : Bytes) :
    item.getCustomAttribute key = ((item.lookup .CUSTOM).map AttrValue.getCustom).bind
      (·.lookup (ItemAttributes.toLowerCaseString key)) := by
  unfold getCustomAttribute lookup
  cases item.attributes with
  | none => rfl
  | some a => exact a.getCustomAttribute_eq key

theorem getCustomAttributeMap_eq (item : Item) :
    item.getCustomAttributeMap = (item.lookup .CUSTOM).map AttrValue.getCustom := by
  unfold getCustomAttributeMap lookup
  cases item.attributes with
  | none => rfl
  | some a =>
    show a.getCustomAttributeMap = _
    rw [ItemAttributes.getCustomAttributeMap, ItemAttributes.getExistingAttr_eq]
    rfl

theorem getCustomAttribute_setCustomAttribute (item : Item) (key key' : Bytes) (value : CustomAttribute) :
    (item.setCustomAttribute key value).getCustomAttribute key' =
      if ItemAttributes.toLowerCaseString key' = ItemAttributes.toLowerCaseString key then some value
      else item.getCustomAttribute key' := by
  have hset := item.getAttributes.getCustomAttribute_setCustomAttribute key key' value
  have hold : item.getAttributes.getCustomAttribute key' = item.getCustomAttribute key' := by
    rw [getCustomAttribute_eq, ItemAttributes.getCustomAttribute_eq, lookup_getAttributes]
  rw [hold] at hset
  exact hset

theorem keys_getCustomAttributeMap {item : Item} {m : CustomAttributeMap}
    (h : item.getCustomAttributeMap = some m) : (Assoc.keys m).Nodup := by
  rw [getCustomAttributeMap_eq] at h
  obtain ⟨v, hv, rfl⟩ := Option.map_eq_some_iff.mp h
  unfold lookup at hv
  obtain ⟨a, -, ha⟩ := Option.bind_eq_some_iff.mp hv
  exact ItemAttributes.keys_getCustom_nodup (.inr (ItemAttributes.lookup_fits ha))

theorem getCustomAttribute_foldl {m : CustomAttributeMap} (hnd : (Assoc.keys m).Nodup)
    (hlow : ∀ e ∈ m, ItemAttributes.toLowerCaseString e.1 = e.1) (item : Item) (key : Bytes) :
    (m.foldl (fun item e => item.setCustomAttribute e.1 e.2) item).getCustomAttribute key =
      (m.lookup (ItemAttributes.toLowerCaseString key)).or (item.getCustomAttribute key) := by
  induction m generalizing item with
  | nil => rfl
  | cons e m ih =>
    rw [Assoc.keys_cons, List.nodup_cons] at hnd
    have hset := item.getCustomAttribute_setCustomAttribute e.1 key e.2
    rw [hlow e (List.mem_cons_self ..)] at hset
    rw [List.foldl_cons, ih hnd.2 fun e' he' => hlow e' (List.mem_cons_of_mem _ he'), hset,
      ItemAttributes.lookup_decide, ItemAttributes.lookup_decide, Assoc.lookup_cons_eq]
    by_cases hk : ItemAttributes.toLowerCaseString key = e.1
    · -- the keys that follow are others, so the entry stays
      have hnone : @List.lookup _ _ instBEqOfDecidableEq (ItemAttributes.toLowerCaseString key) m = none := by
        have := mt (Assoc.lookup_isSome_iff_mem_keys m e.1).mp hnd.1
        rw [hk]
        exact Option.not_isSome_iff_eq_none.mp this
      rw [if_pos hk, if_pos hk, hnone]
      rfl
    · rw [if_neg hk, if_neg hk]

end Item

/-! ### What survives -/

namespace Field

/-- What is written of a field is what the getter returns afterwards; a decay state other than
`DECAYING_FALSE` is pending. -/
def Same (items : Items) (now : Int) (src item : Item) : Field → Prop
  | .nonempty _ type => src.getStrAttr type ≠ [] → item.getStrAttr type = src.getStrAttr type
  | .text _ type => src.hasAttribute type = true → item.getStrAttr type = src.getStrAttr type
  | .word _ type _ => src.hasAttribute type = true → item.getIntAttr type = src.getIntAttr type
  | .actionId =>
    (items src.id).moveable = true ∧ src.getActionId ≠ 0 → item.getActionId = src.getActionId
  | .date => src.getIntAttr .DATE ≠ 0 → item.getIntAttr .DATE = src.getIntAttr .DATE
  | .duration => src.hasAttribute .DURATION = true → ∀ later, item.getDuration later = src.getDuration now
  | .decayState => src.getDecaying ≠ .DECAYING_FALSE → item.getDecaying = .DECAYING_PENDING
  | .custom => ∀ key, (src.getCustomAttribute key).isSome = true →
      item.getCustomAttribute key = src.getCustomAttribute key

/-- The values that come through: they fit the word of their record and pass the setter unchanged. -/
def Fits (items : Items) (now : Int) (src : Item) : Field → Prop
  | .word _ type t => src.hasAttribute type = true → t.Fits (src.getIntAttr type)
  | .actionId => (items src.id).moveable = true ∧ src.getActionId ≠ 0 → 100 ≤ src.getActionId
  | .date => int32.Fits (src.getIntAttr .DATE)
  | .duration => src.hasAttribute .DURATION = true → 0 ≤ src.getDuration now
  | .decayState => src.getDecaying = .DECAYING_FALSE ∨ src.getDecaying = .DECAYING_TRUE ∨
      src.getDecaying = .DECAYING_PENDING
  | _ => True

end Field

section

variable {items : Items} {now : Int} {src fresh : Item}

theorem Item.lookup_setSubType_of_ne (item : Item) (n : UInt16) {t : ItemAttrTypes} (hf : t ≠ .FLUIDTYPE)
    (hc : t ≠ .CHARGES) : (item.setSubType items n).lookup t = item.lookup t := by
  unfold Item.setSubType
  dsimp only
  split
  · exact Item.lookup_setIntAttr_of_ne item _ hf
  split
  · rfl
  split
  · exact Item.lookup_setIntAttr_of_ne item _ hc
  · rfl

theorem Item.lookup_loadSubType_of_ne (item : Item) {t : ItemAttrTypes} (hf : t ≠ .FLUIDTYPE)
    (hc : t ≠ .CHARGES) : (src.loadSubType items item).lookup t = item.lookup t := by
  have hcount : ∀ c : Bool, ∀ n, (if c = true then item.setSubType items n else item).lookup t
      = item.lookup t := by
    intro c n
    cases c with
    | false => rfl
    | true => exact Item.lookup_setSubType_of_ne item n hf hc
  unfold Item.loadSubType
  dsimp only
  split
  · rw [Item.lookup_setSubType_of_ne _ _ hf hc, hcount]
  · exact hcount _ _

theorem Field.type_not_subType {f : Field} (hf : f ∈ Field.all) :
    f.type ≠ .FLUIDTYPE ∧ f.type ≠ .CHARGES := by
  revert f
  decide

variable (items now src fresh) in
theorem Item.lookup_loadAttr {f : Field} (hf : f ∈ Field.all) :
    ∃ item₁ : Item, item₁.lookup f.type = fresh.lookup f.type ∧
      (src.loadAttr items now fresh).lookup f.type = (src.loadField items now item₁ f).lookup f.type := by
  obtain ⟨item₁, h₁, h⟩ := Item.lookup_foldl_of_mem items now src Field.types_nodup hf
    (src.loadSubType items fresh)
  obtain ⟨hfl, hch⟩ := Field.type_not_subType hf
  exact ⟨item₁, h₁.trans (Item.lookup_loadSubType_of_ne fresh hfl hch), h⟩

variable (items now src) in
theorem Item.getDecaying_loadAttr (hbare : fresh.lookup .DECAYSTATE = none) :
    (src.loadAttr items now fresh).getDecaying =
      if src.getDecaying = .DECAYING_TRUE ∨ src.getDecaying = .DECAYING_PENDING then .DECAYING_PENDING
      else .DECAYING_FALSE := by
  obtain ⟨item₁, h₁, h⟩ := Item.lookup_loadAttr items now src fresh
    (show Field.decayState ∈ Field.all by decide)
  rw [Item.getDecaying_congr h]
  by_cases hst : src.getDecaying = .DECAYING_TRUE ∨ src.getDecaying = .DECAYING_PENDING
  · simp only [Item.loadField, Field.payload, if_pos hst, Field.load]
    exact Item.getDecaying_setDecaying item₁ (by simp)
  · have hnone : item₁.lookup .DECAYSTATE = none := h₁.trans hbare
    simp only [Item.loadField, Field.payload, if_neg hst]
    rw [Item.getDecaying_eq, Item.getIntAttr_eq, hnone]
    rfl

/-- An item as `CreateItem` leaves it: of the attributes on the list at most a duration is set. -/
def Item.Bare (item : Item) : Prop := ∀ f ∈ Field.all, f ≠ .duration → item.lookup f.type = none

theorem Field.nonempty_class {attr : AttrTypes} {type : ItemAttrTypes}
    (hf : .nonempty attr type ∈ Field.all) : type.isStrAttrType = true := by
  rcases nonempty_row hf with ⟨-, rfl⟩ | ⟨-, rfl⟩ | ⟨-, rfl⟩ <;> decide

theorem Field.text_class {attr : AttrTypes} {type : ItemAttrTypes} (hf : .text attr type ∈ Field.all) :
    type.isStrAttrType = true ∨ type = .IMBUEMENT_TYPE := by
  rcases text_row hf with ⟨-, rfl⟩ | ⟨-, rfl⟩ | ⟨-, rfl⟩ | ⟨-, rfl⟩ | ⟨-, rfl⟩ <;> decide

theorem Field.word_class {attr : AttrTypes} {type : ItemAttrTypes} {t : Word}
    (hf : .word attr type t ∈ Field.all) : type.isIntAttrType = true := by
  rcases word_row hf with ⟨-, rfl, -⟩ | ⟨-, rfl, -⟩ | ⟨-, rfl, -⟩ | ⟨-, rfl, -⟩ | ⟨-, rfl, -⟩ |
    ⟨-, rfl, -⟩ | ⟨-, rfl, -⟩ | ⟨-, rfl, -⟩ | ⟨-, rfl, -⟩ | ⟨-, rfl, -⟩ <;> decide

theorem int32_fits_max_zero {x : Int} (h : int32.Fits x) : int32.Fits (max 0 x) := by
  rcases Int.le_total 0 x with hx | hx
  · rwa [Int.max_eq_right hx]
  · rw [Int.max_eq_left hx]
    decide

theorem Item.getDuration_fits (item : Item) : int32.Fits (item.getDuration now) := by
  have hwrap : ∀ x, int32.Fits (toInt32 x) := by
    intro x
    rw [← Word.wrap_eq_iff, int32_wrap]
    exact Int.bmod_bmod
  unfold Item.getDuration
  split
  · exact int32_fits_max_zero (hwrap _)
  · exact hwrap _

theorem Item.hasAttribute_imbuementType (item : Item) : item.hasAttribute .IMBUEMENT_TYPE = false := by
  rw [Item.hasAttribute_eq]
  unfold Item.lookup
  cases item.attributes with
  | none => rfl
  | some a =>
    show (a.lookup .IMBUEMENT_TYPE).isSome = false
    rw [a.lookup_of_no_class (by decide) (by decide) (by decide)]
    rfl

theorem Item.getIntAttr_loadAttr_duration (hhas : src.hasAttribute .DURATION = true) :
    (src.loadAttr items now fresh).getIntAttr .DURATION = max 0 (src.getDuration now) := by
  obtain ⟨item₁, -, h⟩ := Item.lookup_loadAttr items now src fresh (show Field.duration ∈ Field.all by decide)
  simp only [Field.type] at h
  rw [Item.getIntAttr_congr h]
  simp only [Item.loadField, Field.payload, if_pos hhas, Field.load, Item.setDuration]
  rw [Item.getIntAttr_setIntAttr_self item₁ (by decide), (Word.wrap_eq_iff _ _).mpr src.getDuration_fits]

variable (items now) in
theorem Item.getDuration_loadAttr (hhas : src.hasAttribute .DURATION = true)
    (hbare : fresh.lookup .DECAYSTATE = none) (later : Int) :
    (src.loadAttr items now fresh).getDuration later = max 0 (src.getDuration now) := by
  have hidle : ¬ ((src.loadAttr items now fresh).getDecaying = .DECAYING_TRUE ∨
      (src.loadAttr items now fresh).getDecaying = .DECAYING_STOPPING) := by
    rw [Item.getDecaying_loadAttr items now src hbare]
    split <;> simp
  have hfits : int32.Fits (max 0 (src.getDuration now)) := int32_fits_max_zero src.getDuration_fits
  rw [Item.getDuration, if_neg hidle, Item.getIntAttr_loadAttr_duration hhas, ← int32_wrap]
  exact (Word.wrap_eq_iff _ _).mpr hfits

theorem Field.same_actionId_iff :
    Field.actionId.Same items now src (src.loadAttr items now fresh) ↔ Field.actionId.Fits items now src := by
  obtain ⟨item₁, -, h⟩ := Item.lookup_loadAttr items now src fresh (show Field.actionId ∈ Field.all by decide)
  simp only [Field.type] at h
  refine forall_congr' fun hc => ?_
  have hset : (src.loadAttr items now fresh).getIntAttr .ACTIONID
      = if src.getActionId < 100 then 100 else (src.getActionId.toNat : Int) := by
    rw [Item.getIntAttr_congr h]
    simp only [Item.loadField, payload, if_pos hc, load, Item.setActionId, uint16_wrap, uint16_ofInt]
    rw [Item.getIntAttr_setIntAttr_self item₁ (by decide)]
  have hget : (src.loadAttr items now fresh).getActionId
      = if src.getActionId < 100 then 100 else src.getActionId := by
    rw [Item.getActionId, hset]
    split
    · rfl
    · exact uint16_ofInt _
  rw [hget]
  split
  next hlt =>
    refine ⟨fun he => ?_, fun hle => absurd hlt (UInt16.not_lt.mpr hle)⟩
    rw [← he]
    exact UInt16.le_refl _
  next hlt => exact ⟨fun _ => UInt16.not_lt.mp hlt, fun _ => rfl⟩

theorem Field.same_custom (hs : src.Sized) : Field.custom.Same items now src (src.loadAttr items now fresh) := by
  obtain ⟨item₁, -, h⟩ := Item.lookup_loadAttr items now src fresh (show Field.custom ∈ Field.all by decide)
  intro key hkey
  obtain ⟨m, hm⟩ : ∃ m, src.getCustomAttributeMap = some m := by
    rw [Item.getCustomAttributeMap_eq]
    rw [Item.getCustomAttribute_eq] at hkey
    cases hl : src.lookup .CUSTOM with
    | none => simp [hl] at hkey
    | some v => exact ⟨_, rfl⟩
  have hsrc : src.getCustomAttribute key = m.lookup (ItemAttributes.toLowerCaseString key) := by
    rw [Item.getCustomAttribute_eq, ← Item.getCustomAttributeMap_eq, hm]
    rfl
  have hload : (src.loadAttr items now fresh).getCustomAttribute key
      = (src.loadField items now item₁ .custom).getCustomAttribute key := by
    simp only [Field.type] at h
    rw [Item.getCustomAttribute_eq, Item.getCustomAttribute_eq, h]
  have hp : Field.custom.payload items now src = some (.custom m) := by
    rw [payload, hm]
    rfl
  rw [hload, hsrc]
  simp only [Item.loadField, hp, load]
  rw [Item.getCustomAttribute_foldl (Item.keys_getCustomAttributeMap hm)
    (fun e he => ((hs.custom m hm).2 e he).2.2), ← hsrc]
  obtain ⟨v, hv⟩ := Option.isSome_iff_exists.mp hkey
  rw [hv]
  rfl

/-- **Field by field.** A field comes back as it was precisely if its value survives its record. -/
theorem Field.same_iff (hs : src.Sized) (hbare : fresh.Bare) {f : Field} (hf : f ∈ Field.all) :
    f.Same items now src (src.loadAttr items now fresh) ↔ f.Fits items now src := by
  obtain ⟨item₁, h₁, h⟩ := Item.lookup_loadAttr items now src fresh hf
  have hstate : fresh.lookup .DECAYSTATE = none := hbare .decayState (by decide) (by decide)
  cases f with
  | nonempty attr type =>
    simp only [Field.type] at h
    refine ⟨fun _ => trivial, fun _ hne => ?_⟩
    rw [Item.getStrAttr_congr h]
    simp only [Item.loadField, payload, if_pos hne, load]
    exact Item.getStrAttr_setStrAttr_self item₁ (nonempty_class hf) hne
  | text attr type =>
    simp only [Field.type] at h
    refine ⟨fun _ => trivial, fun _ hhas => ?_⟩
    rcases text_class hf with hstr | rfl
    · rw [Item.getStrAttr_congr h]
      simp only [Item.loadField, payload, if_pos hhas, load]
      exact Item.getStrAttr_setStrAttr_self item₁ hstr (Item.getStrAttr_ne_nil hstr hhas)
    · -- an attribute that no setter stores
      rw [Item.hasAttribute_imbuementType] at hhas
      cases hhas
  | word attr type t =>
    simp only [Field.type] at h
    refine forall_congr' fun hhas => ?_
    rw [Item.getIntAttr_congr h, ← Word.wrap_eq_iff]
    simp only [Item.loadField, payload, if_pos hhas, load]
    rw [Item.getIntAttr_setIntAttr_self item₁ (word_class hf)]
  | actionId => exact same_actionId_iff
  | date =>
    simp only [Field.type] at h
    by_cases hz : src.getIntAttr .DATE = 0
    · refine ⟨fun _ => ?_, fun _ hne => absurd hz hne⟩
      show int32.Fits (src.getIntAttr .DATE)
      rw [hz]
      decide
    · -- written in 32 bits without a sign, taken as 32 bits with one
      have hdate : (src.loadAttr items now fresh).getIntAttr .DATE = int32.wrap (src.getIntAttr .DATE) := by
        rw [Item.getIntAttr_congr h]
        simp only [Item.loadField, payload, if_pos hz, load, Item.setDate]
        rw [Item.getIntAttr_setIntAttr_self item₁ (by decide)]
        exact int32.wrap_emod _
      show (_ → _ = _) ↔ int32.Fits _
      rw [hdate, ← Word.wrap_eq_iff]
      exact ⟨fun hs => hs hz, fun hs _ => hs⟩
  | duration =>
    refine forall_congr' fun hhas => ?_
    have hback := Item.getDuration_loadAttr items now hhas hstate
    constructor
    · intro hs
      rw [← hs 0, hback]
      exact Int.le_max_left _ _
    · intro hle later
      rw [hback, Int.max_eq_right hle]
  | decayState =>
    rw [Field.Same, Item.getDecaying_loadAttr items now src hstate]
    constructor
    · intro hs
      by_cases hf : src.getDecaying = .DECAYING_FALSE
      · exact .inl hf
      · right
        by_contra hno
        have := hs hf
        rw [if_neg hno] at this
        cases this
    · rintro (hfalse | hst) hne
      · exact absurd hfalse hne
      · rw [if_pos hst]
  | custom => exact ⟨fun _ => trivial, fun _ => same_custom hs⟩

end

/-! ### Sub types -/

namespace ItemType

/-- A sub type as the item's type keeps it: counts are bytes. -/
def castSubType (it : ItemType) (n : UInt16) : UInt16 :=
  if it.isFluidContainer || it.isSplash then n
  else if it.stackable then n.toUInt8.toUInt16
  else if it.charges != 0 then n
  else n.toUInt8.toUInt16

/-- The sub type of the item is its charges. -/
def countsCharges (it : ItemType) : Bool :=
  !(it.isFluidContainer || it.isSplash) && !it.stackable && it.charges != 0

/-- The sub type is written. -/
def countWritten (it : ItemType) : Bool := it.stackable || it.isFluidContainer || it.isSplash

end ItemType

namespace Item

variable {items : Items} {now : Int} {src fresh : Item}

variable (items) in
theorem getSubType_congr {item item' : Item} (hid : item'.id = item.id) (hcount : item'.count = item.count)
    (hfl : item'.lookup .FLUIDTYPE = item.lookup .FLUIDTYPE)
    (hch : item'.lookup .CHARGES = item.lookup .CHARGES) :
    item'.getSubType items = item.getSubType items ∧ item'.getCharges = item.getCharges := by
  have hc : item'.getCharges = item.getCharges := by rw [getCharges, getCharges, getIntAttr_congr hch]
  have hf : item'.getFluidType = item.getFluidType := by
    rw [getFluidType, getFluidType, getIntAttr_congr hfl]
  refine ⟨?_, hc⟩
  rw [getSubType, getSubType, hid, hcount, hc, hf]

theorem getFluidType_setFluidType (item : Item) (n : UInt16) : (item.setFluidType n).getFluidType = n := by
  rw [getFluidType, setFluidType, getIntAttr_setIntAttr_self item (by decide), uint16_ofInt]

theorem getCharges_setCharges (item : Item) (n : UInt16) : (item.setCharges n).getCharges = n := by
  rw [getCharges, setCharges, getIntAttr_setIntAttr_self item (by decide), uint16_ofInt]

theorem setSubType_id (item : Item) (n : UInt16) : (item.setSubType items n).id = item.id := by
  unfold setSubType
  dsimp only
  split
  · rfl
  split
  · rfl
  split <;> rfl

theorem getSubType_setSubType (item : Item) (n : UInt16) :
    (item.setSubType items n).getSubType items = (items item.id).castSubType n := by
  rw [getSubType, setSubType_id]
  unfold setSubType ItemType.castSubType
  dsimp only
  split
  · exact getFluidType_setFluidType item n
  split
  · rfl
  split
  · exact getCharges_setCharges item n
  · rfl

theorem getCharges_setSubType (item : Item) (n : UInt16) :
    (item.setSubType items n).getCharges = if (items item.id).countsCharges then n else item.getCharges := by
  unfold setSubType ItemType.countsCharges
  dsimp only
  split
  next h =>
    -- a fluid: the charges are another attribute
    have hne : (item.setFluidType n).getCharges = item.getCharges := by
      rw [getCharges, getCharges, setFluidType, getIntAttr_setIntAttr_of_ne item (by decide) _ (by decide)]
    simp [h, hne]
  next h =>
  split
  next hst => simp [hst, getCharges, setItemCount, getIntAttr]
  next hst =>
  split
  next hc => simp [h, hst, hc, getCharges_setCharges]
  next hc => simp [hc, getCharges, setItemCount, getIntAttr]

variable (items src fresh) in
/-- The sub type read last: the charges if there are any, else the count if one is written, else the sub
type the item was created with. -/
def lastSubType : UInt16 :=
  if src.getCharges ≠ 0 then (items fresh.id).castSubType src.getCharges
  else if (items src.id).countWritten then
    (items fresh.id).castSubType (UInt16.ofInt (uint8.wrap (src.getSubType items).toNat))
  else fresh.getSubType items

theorem loadSubType_id : (src.loadSubType items fresh).id = fresh.id := by
  unfold loadSubType
  dsimp only
  split <;> split <;> simp only [setSubType_id]

theorem getSubType_loadSubType :
    (src.loadSubType items fresh).getSubType items = lastSubType items src fresh := by
  unfold loadSubType lastSubType ItemType.countWritten
  dsimp only
  split <;> split <;> simp only [getSubType_setSubType, setSubType_id]

variable (src) in
theorem getCharges_loadSubType_iff (hfresh : (items fresh.id).countsCharges = false → fresh.getCharges = 0) :
    (src.getCharges ≠ 0 → (src.loadSubType items fresh).getCharges = src.getCharges) ↔
      (src.getCharges ≠ 0 → (items fresh.id).countsCharges = true) := by
  refine forall_congr' fun hne => ?_
  have hload : (src.loadSubType items fresh).getCharges =
      if (items fresh.id).countsCharges then src.getCharges else fresh.getCharges := by
    unfold loadSubType
    dsimp only
    rw [if_pos hne]
    split
    · rw [getCharges_setSubType, setSubType_id, getCharges_setSubType]
      split <;> rfl
    · rw [getCharges_setSubType]
  rw [hload]
  cases hc : (items fresh.id).countsCharges with
  | true => simp
  | false =>
    rw [hfresh hc]
    simpa using hne.symm

variable (items now src fresh) in
theorem subType_loadAttr : (src.loadAttr items now fresh).id = fresh.id ∧
    (src.loadAttr items now fresh).getSubType items = lastSubType items src fresh ∧
    (src.loadAttr items now fresh).getCharges = (src.loadSubType items fresh).getCharges := by
  obtain ⟨hid, hcount⟩ := foldl_frame items now src Field.all (src.loadSubType items fresh)
  have hfl := lookup_foldl_of_not_mem items now src Field.all (src.loadSubType items fresh)
    (show ItemAttrTypes.FLUIDTYPE ∉ Field.all.map Field.type by decide)
  have hch := lookup_foldl_of_not_mem items now src Field.all (src.loadSubType items fresh)
    (show ItemAttrTypes.CHARGES ∉ Field.all.map Field.type by decide)
  obtain ⟨hsub, hc⟩ := getSubType_congr items hid hcount hfl hch
  exact ⟨hid.trans loadSubType_id, hsub.trans getSubType_loadSubType, hc⟩

/-! ### Fresh items -/

theorem setDefaultDuration_id (item : Item) : (item.setDefaultDuration items).id = item.id := by
  unfold setDefaultDuration
  dsimp only
  split <;> rfl

theorem lookup_setDefaultDuration_of_ne (item : Item) {t : ItemAttrTypes} (h : t ≠ .DURATION) :
    (item.setDefaultDuration items).lookup t = item.lookup t := by
  unfold setDefaultDuration
  dsimp only
  split
  · exact lookup_setIntAttr_of_ne item _ h
  · rfl

theorem new_id (id count : UInt16) : (new items id count).id = id := by
  unfold new
  dsimp only
  rw [setDefaultDuration_id]
  split
  · rfl
  split
  · split
    · rfl
    split <;> rfl
  split
  · split <;> rfl
  · rfl

theorem lookup_new_of_ne (id count : UInt16) {t : ItemAttrTypes} (hf : t ≠ .FLUIDTYPE)
    (hc : t ≠ .CHARGES ∨ (items id).countsCharges = false) (hd : t ≠ .DURATION) :
    (new items id count).lookup t = none := by
  unfold new
  dsimp only
  rw [lookup_setDefaultDuration_of_ne _ hd]
  split
  · exact lookup_setIntAttr_of_ne _ _ hf
  next hfluid =>
  split
  · split
    · rfl
    split <;> rfl
  next hstack =>
  split
  next hcharges =>
    have hne : t ≠ .CHARGES := by
      refine hc.resolve_right fun h => ?_
      simp [ItemType.countsCharges, hfluid, hstack, hcharges] at h
    split <;> exact lookup_setIntAttr_of_ne _ _ hne
  · rfl

theorem getCharges_new (id count : UInt16) (h : (items id).countsCharges = false) :
    (new items id count).getCharges = 0 := by
  rw [getCharges, getIntAttr_eq, lookup_new_of_ne id count (by decide) (.inr h) (by decide)]
  rfl

theorem new_bare (id count : UInt16) : (new items id count).Bare := by
  intro f hf hd
  obtain ⟨hfl, hch⟩ := Field.type_not_subType hf
  refine lookup_new_of_ne id count hfl (.inl hch) ?_
  revert f
  decide

end Item

end Moonlight
