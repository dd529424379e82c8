import Moonlight.Items.ContainerWeight
import Moonlight.Lib.Subtrees

/-!
# Free slots

`Container::getFreeSlots` adds up what is free in the containers of a tree. Each summand is a difference of unsigned
numbers, and the `std::max` around it is that of a `uint16_t` and 0, so a container with more items than its capacity
takes away from the sum.

Containers get so full where nobody looks at the capacity: `Container::queryAdd` does not for a container with pages,
`addThing` compares the index that it is given, and `internalAddThing` and `addItemBack` compare nothing.
`getFreeSlots_eq` is the result for any tree, `getFreeSlots_reached` says when it is right, in every heap that the
operations reach.
-/

namespace Moonlight

namespace Containers

open RoseTree

namespace Heap

/-- `std::max<uint16_t>(0, capacity() - size())`. -/
def slots (h : Heap) (r : ThingRef) : UInt16 :=
  max 0 (UInt64.ofNat (h.maxSize r).toNat - UInt64.ofNat (h.itemlist r).length).toUInt16

def getFreeSlots (h : Heap) (r : ThingRef) : Option UInt16 :=
  (h.itemlist r).foldlM (fun (counter : UInt16) item =>
    if h.isContainer item then do
      let n ← h |>.getFreeSlots item
      some (counter + max 0 n)
    else some counter) (h.slots r)
partial_fixpoint

/-- The tree is that of its root, in the heap. -/
def Stands (h : Heap) (t : RoseTree ThingRef) : Prop := t.All fun r ts => h.itemlist r = ts.map label

/-- The sum of the slots that are free. What is no container has no capacity. -/
def free (h : Heap) (l : List ThingRef) : Nat :=
  (l.map fun r => (h.maxSize r).toNat - (h.itemlist r).length).sum

/-- The items that are beyond the capacity of their container. -/
def excess (h : Heap) (l : List ThingRef) : Nat :=
  (l.map fun r => (h.itemlist r).length - (h.maxSize r).toNat).sum

/-! ### The sum -/

theorem max_zero (n : UInt16) : max 0 n = n := by
  show (if 0 ≤ n then n else 0) = n
  exact if_pos (UInt16.zero_le)

theorem slots_eq (h : Heap) (r : ThingRef) :
    h.slots r = UInt16.ofNat ((h.maxSize r).toNat - (h.itemlist r).length) -
      UInt16.ofNat ((h.itemlist r).length - (h.maxSize r).toNat) := by
  have hnarrow (n : Nat) : (UInt64.ofNat n).toUInt16 = UInt16.ofNat n := UInt64.toUInt16_ofNat' n
  rw [slots, max_zero, UInt64.toUInt16_sub, hnarrow, hnarrow]
  generalize (h.maxSize r).toNat = capacity
  generalize (h.itemlist r).length = size
  rcases Nat.le_total size capacity with hle | hle
  · rw [Nat.sub_eq_zero_of_le hle]
    obtain ⟨d, rfl⟩ := Nat.exists_eq_add_of_le hle
    rw [Nat.add_sub_cancel_left, UInt16.ofNat_add]
    grind
  · rw [Nat.sub_eq_zero_of_le hle]
    obtain ⟨d, rfl⟩ := Nat.exists_eq_add_of_le hle
    rw [Nat.add_sub_cancel_left, UInt16.ofNat_add]
    grind

theorem free_append (h : Heap) (l l' : List ThingRef) : h.free (l ++ l') = h.free l + h.free l' := by
  rw [free, List.map_append, List.sum_append]
  rfl

theorem excess_append (h : Heap) (l l' : List ThingRef) : h.excess (l ++ l') = h.excess l + h.excess l' := by
  rw [excess, List.map_append, List.sum_append]
  rfl

/-- What the loop adds for trees. -/
def sum (h : Heap) (l : List ThingRef) : UInt16 := UInt16.ofNat (h.free l) - UInt16.ofNat (h.excess l)

theorem sum_append (h : Heap) (l l' : List ThingRef) : h.sum (l ++ l') = h.sum l + h.sum l' := by
  rw [sum, free_append, excess_append, UInt16.ofNat_add, UInt16.ofNat_add, sum, sum]
  grind

theorem sum_singleton (h : Heap) (r : ThingRef) : h.sum [r] = h.slots r := by
  rw [slots_eq]
  rfl

theorem empty_of_not_isContainer {h : Heap} {r : ThingRef} (hr : h.isContainer r = false) :
    h.itemlist r = [] ∧ h.maxSize r = 0 := by
  have hnone : (h r).container = none := by
    rw [isContainer, Thing.isContainer] at hr
    exact Option.isSome_eq_false_iff.mp hr |> Option.isNone_iff_eq_none.mp
  refine ⟨?_, ?_⟩
  · rw [itemlist, Thing.itemlist, hnone]
    rfl
  · rw [maxSize, Thing.maxSize, hnone]
    rfl

mutual

theorem getFreeSlots_tree {h : Heap} (t : RoseTree ThingRef) (ht : h.Stands t) :
    h.getFreeSlots t.label = some (h.sum t.labels) := by
  obtain ⟨r, ts⟩ := t
  have hall := all_iff.mp ht
  have hchildren := getFreeSlots_trees ts hall.2 (h.slots r)
  have hitemlist : h.itemlist r = ts.map label := hall.1
  rw [label, getFreeSlots, hitemlist, hchildren, labels, ← List.singleton_append, sum_append, sum_singleton]

theorem getFreeSlots_trees {h : Heap} (ts : List (RoseTree ThingRef)) (hts : ∀ t ∈ ts, h.Stands t) (counter : UInt16) :
    (ts.map label).foldlM (fun (counter : UInt16) item =>
      if h.isContainer item then do
        let n ← h |>.getFreeSlots item
        some (counter + max 0 n)
      else some counter) counter = some (counter + h.sum (labelsOf ts)) := by
  cases ts with
  | nil =>
    have hnone : h.sum (labelsOf []) = 0 := by
      rw [labelsOf, sum]
      exact UInt16.sub_self _
    rw [hnone, UInt16.add_zero]
    rfl
  | cons t ts =>
    have ht := hts t List.mem_cons_self
    have hrest := getFreeSlots_trees ts fun u hu => hts u (List.mem_cons_of_mem _ hu)
    rw [List.map_cons, List.foldlM_cons, labelsOf_cons, sum_append]
    by_cases hcontainer : h.isContainer t.label = true
    · rw [if_pos hcontainer, getFreeSlots_tree t ht]
      show List.foldlM _ (counter + max 0 (h.sum t.labels)) _ = _
      rw [max_zero, hrest, UInt16.add_assoc]
    · -- an item that is no container adds nothing
      obtain ⟨hempty, hmaxSize⟩ := empty_of_not_isContainer (Bool.eq_false_of_not_eq_true hcontainer)
      have hleaf : t.children = [] := by
        have hchildren : h.itemlist t.label = t.children.map label := (all_iff.mp ht).1
        rw [hempty] at hchildren
        exact List.map_eq_nil_iff.mp hchildren.symm
      have hnone : h.sum t.labels = 0 := by
        rw [labels_eq, hleaf, labelsOf, sum_singleton, slots, hempty, hmaxSize]
        rfl
      rw [if_neg hcontainer, hnone, UInt16.zero_add]
      exact hrest counter

end

/-- **What is counted.** -/
theorem getFreeSlots_eq {h : Heap} {t : RoseTree ThingRef} (ht : h.Stands t) :
    h.getFreeSlots t.label = some (UInt16.ofNat (h.free t.labels) - UInt16.ofNat (h.excess t.labels)) :=
  getFreeSlots_tree t ht

/-- The free slots are counted. -/
def CountsFree (h : Heap) (t : RoseTree ThingRef) : Prop :=
  ∃ n : UInt16, h.getFreeSlots t.label = some n ∧ n.toNat = h.free t.labels

theorem countsFree_iff {h : Heap} {t : RoseTree ThingRef} (ht : h.Stands t) (hfree : h.free t.labels < 65536) :
    h.CountsFree t ↔ 65536 ∣ h.excess t.labels := by
  have hlt : (UInt16.ofNat (h.excess t.labels)).toNat < 65536 := UInt16.toNat_lt _
  rw [CountsFree, getFreeSlots_eq ht]
  simp only [Option.some.injEq, exists_eq_left']
  rw [UInt16.toNat_sub, UInt16.toNat_ofNat', UInt16.toNat_ofNat', Nat.dvd_iff_mod_eq_zero]
  omega

/-! ### Containers that are not too full -/

/-- No container has more items than its capacity. -/
def WithinCapacity (h : Heap) : Prop := ∀ r, (h.itemlist r).length ≤ (h.maxSize r).toNat

theorem WithinCapacity.excess_eq {h : Heap} (hw : h.WithinCapacity) (l : List ThingRef) : h.excess l = 0 := by
  refine List.sum_eq_zero fun n hn => ?_
  obtain ⟨r, -, rfl⟩ := List.mem_map.mp hn
  exact Nat.sub_eq_zero_of_le (hw r)

/-- Every thing lists as many things as before, or fewer, and has the capacity it had. -/
structure NoFuller (h h' : Heap) : Prop where
  itemlist : ∀ r, (h'.itemlist r).length ≤ (h.itemlist r).length
  maxSize : h'.maxSize = h.maxSize

theorem NoFuller.trans {h h' h'' : Heap} (a : NoFuller h h') (b : NoFuller h' h'') : NoFuller h h'' :=
  ⟨fun r => (b.itemlist r).trans (a.itemlist r), b.maxSize.trans a.maxSize⟩

theorem NoFuller.withinCapacity {h h' : Heap} (a : NoFuller h h') (hw : h.WithinCapacity) : h'.WithinCapacity := by
  intro r
  rw [a.maxSize]
  exact (a.itemlist r).trans (hw r)

theorem noFuller_update {h : Heap} {r : ThingRef} {t : Thing} (hl : t.itemlist.length ≤ (h r).itemlist.length)
    (hm : t.maxSize = (h r).maxSize) : NoFuller h (Function.update h r t) := by
  refine ⟨fun x => ?_, funext (field_update Thing.maxSize hm)⟩
  by_cases hx : x = r
  · subst hx
    rw [itemlist, Function.update_self]
    exact hl
  · rw [itemlist, Function.update_of_ne hx]
    exact Nat.le_refl _

theorem noFuller_setParent (h : Heap) (r : ThingRef) (p : Option ThingRef) : NoFuller h (h.setParent r p) :=
  noFuller_update (Nat.le_refl _) rfl

theorem noFuller_setItem (h : Heap) (r : ThingRef) (item : Item) : NoFuller h (h.setItem r item) :=
  noFuller_update (Nat.le_refl _) rfl

theorem noFuller_addWeight (h : Heap) (r : ThingRef) (d : Weight) : NoFuller h (h.addWeight r d) :=
  noFuller_update (by simp [Thing.itemlist, Function.comp_def]) (by simp [Thing.maxSize, Function.comp_def])

theorem maxSize_setItemlist (h : Heap) (r : ThingRef) (l : List ThingRef) :
    (h.setItemlist r l).maxSize = h.maxSize :=
  funext (field_update Thing.maxSize (by simp [Thing.maxSize, Function.comp_def]))

theorem noFuller_setItemlist {h : Heap} {r : ThingRef} {l : List ThingRef} (hl : l.length ≤ (h.itemlist r).length) :
    NoFuller h (h.setItemlist r l) := by
  refine noFuller_update ?_ (by simp [Thing.maxSize, Function.comp_def])
  cases hc : (h r).container with
  | none => simp [Thing.itemlist, hc]
  | some c => simpa [Thing.itemlist, itemlist, hc] using hl

theorem noFuller_updateItemWeight {h h' : Heap} {r : ThingRef} {d : Weight} (hh : h.updateItemWeight r d = some h') :
    NoFuller h h' := by
  refine updateItemWeight.partial_correctness d (fun h _ h' => NoFuller h h') ?_ h r h' hh
  intro climb ih h r h' hh
  have hadd := noFuller_addWeight h r d
  obtain ⟨above, -, hh⟩ := Option.bind_eq_some_iff.mp hh
  cases above with
  | none =>
    rw [← Option.some.inj hh]
    exact hadd
  | some p => exact hadd.trans (ih _ p h' hh)

variable {items : Items} {weight : UInt16 → Weight} {h : Heap} (hw : h.WithinCapacity)

include hw

theorem WithinCapacity.push {c : ThingRef} {l : List ThingRef} (hl : l.length = (h.itemlist c).length + 1)
    (hroom : (h.itemlist c).length < (h.maxSize c).toNat) : (h.setItemlist c l).WithinCapacity := by
  intro r
  rw [maxSize_setItemlist]
  by_cases hr : r = c
  · subst hr
    cases hc : (h r).container with
    | none => simp [itemlist, Thing.itemlist, setItemlist, hc]
    | some container =>
      have hset : ((h.setItemlist r l).itemlist r) = l := by simp [itemlist, Thing.itemlist, setItemlist, hc]
      rw [hset, hl]
      exact hroom
  · have hother : (h.setItemlist c l).itemlist r = h.itemlist r := by simp [itemlist, setItemlist, hr]
    rw [hother]
    exact hw r

end Heap

/-- The call finds room for what it adds. -/
def HasRoom (h : Heap) : Label → Prop
  | .addThing c index _ => index.toInt < (h.maxSize c).toInt → (h.itemlist c).length < (h.maxSize c).toNat
  | .internalAddThing c _ | .addItemBack c _ => (h.itemlist c).length < (h.maxSize c).toNat
  | .updateThing _ _ _ _ | .replaceThing _ _ _ | .removeThing _ _ _ => True

open Heap

variable {items : Items} {weight : UInt16 → Weight}

theorem add_withinCapacity {h h' : Heap} (hw : h.WithinCapacity) {c thing : ThingRef} {d : Weight}
    (hroom : (h.itemlist c).length < (h.maxSize c).toNat)
    (hh : ((h.setParent thing (some c)).setItemlist c
      (thing :: (h.setParent thing (some c)).itemlist c)).updateItemWeight c d = some h') : h'.WithinCapacity := by
  have hparent := noFuller_setParent h thing (some c)
  have hroom₁ : ((h.setParent thing (some c)).itemlist c).length < ((h.setParent thing (some c)).maxSize c).toNat := by
    rw [hparent.maxSize]
    exact Nat.lt_of_le_of_lt (hparent.itemlist c) hroom
  exact (noFuller_updateItemWeight hh).withinCapacity ((hparent.withinCapacity hw).push rfl hroom₁)

/-- **One call.** -/
theorem call_withinCapacity {h h' : Heap} (hw : h.WithinCapacity) {l : Label} (hl : HasRoom h l)
    (hh : call items weight h l = some h') : h'.WithinCapacity := by
  by_cases hc : h.isContainer l.container = true
  · unfold call at hh
    rw [if_pos hc] at hh
    cases l with
    | addThing c index thing =>
      change h.addThing items weight c index thing = some h' at hh
      by_cases hindex : index.toInt ≥ (h.maxSize c).toInt
      · rw [addThing, if_pos hindex] at hh
        rw [← Option.some.inj hh]
        exact hw
      · rw [addThing, if_neg hindex] at hh
        exact add_withinCapacity hw (hl (Int.not_le.mp hindex)) hh
    | internalAddThing c thing => exact add_withinCapacity hw hl hh
    | addItemBack c item =>
      have hadded : (h.addItem c item).WithinCapacity :=
        (noFuller_setParent _ item (some c)).withinCapacity (hw.push List.length_append hl)
      exact (noFuller_updateItemWeight hh).withinCapacity hadded
    | updateThing c thing itemId count =>
      change h.updateThing items weight c thing itemId count = some h' at hh
      cases hindex : h.getThingIndex c thing with
      | none =>
        rw [updateThing, hindex] at hh
        rw [← Option.some.inj hh]
        exact hw
      | some index =>
        rw [updateThing, hindex] at hh
        have hclimb := noFuller_updateItemWeight hh
        exact ((noFuller_setItem _ _ _).trans ((noFuller_setItem _ _ _).trans hclimb)).withinCapacity hw
    | replaceThing c index thing =>
      change h.replaceThing items weight c index thing = some h' at hh
      cases hreplaced : h.getItemByIndex c index.toNat with
      | none =>
        rw [replaceThing, hreplaced] at hh
        rw [← Option.some.inj hh]
        exact hw
      | some replacedItem =>
        rw [replaceThing, hreplaced] at hh
        obtain ⟨h₁, hclimb, hh⟩ := Option.bind_eq_some_iff.mp hh
        rw [← Option.some.inj hh]
        have hset : NoFuller h (h.setItemlist c ((h.itemlist c).set index.toNat thing)) :=
          noFuller_setItemlist (Nat.le_of_eq List.length_set)
        refine NoFuller.withinCapacity ?_ hw
        exact hset.trans ((noFuller_setParent _ _ _).trans
          ((noFuller_updateItemWeight hclimb).trans (noFuller_setParent _ _ _)))
    | removeThing c thing count =>
      change h.removeThing items weight c thing count = some h' at hh
      cases hindex : h.getThingIndex c thing with
      | none =>
        rw [removeThing, hindex] at hh
        rw [← Option.some.inj hh]
        exact hw
      | some index =>
        rw [removeThing, hindex] at hh
        dsimp only at hh
        split at hh
        · exact ((noFuller_setItem _ _ _).trans (noFuller_updateItemWeight hh)).withinCapacity hw
        · obtain ⟨h₁, hclimb, hh⟩ := Option.bind_eq_some_iff.mp hh
          rw [← Option.some.inj hh]
          refine NoFuller.withinCapacity ?_ hw
          refine (noFuller_updateItemWeight hclimb).trans ((noFuller_setParent h₁ thing none).trans ?_)
          exact noFuller_setItemlist (List.length_eraseIdx_le ..)
  · unfold call at hh
    rw [if_neg hc] at hh
    rw [← Option.some.inj hh]
    exact hw

/-- **Where the free slots are counted.** In every heap that the operations reach they are counted precisely if what
there is too much comes to a multiple of 65536, and so in every run whose calls find room for what they add. -/
theorem getFreeSlots_reached (h₀ : Heap) (ls : List Label) :
    (∀ h, Runs.run (step items weight) (some h₀) ls = some h → ∀ t, h.Stands t → h.free t.labels < 65536 →
      (h.CountsFree t ↔ 65536 ∣ h.excess t.labels)) ∧
    (h₀.WithinCapacity → Runs.Meets (step items weight) (fun s l => ∀ h, s = some h → HasRoom h l) (some h₀) ls →
      ∀ h, Runs.run (step items weight) (some h₀) ls = some h → ∀ t, h.Stands t → h.free t.labels < 65536 →
        h.CountsFree t) := by
  refine ⟨fun h _ t ht hfree => countsFree_iff ht hfree, fun hw hmeets h hrun t ht hfree => ?_⟩
  have hinv := @Runs.run_invariant _ _ (step items weight) _ (fun s => ∀ h, s = some h → h.WithinCapacity)
    (fun s l hs hl h' hh' => by
      obtain ⟨h, hs', hcall⟩ := Option.bind_eq_some_iff.mp hh'
      exact call_withinCapacity (hs h hs') (hl h hs') hcall)
    (some h₀) ls (fun h hs => Option.some.inj hs ▸ hw) hmeets
  rw [countsFree_iff ht hfree, (hinv h hrun).excess_eq]
  exact Nat.dvd_zero 65536

/-- A depot chest, 0, for 32 items, and loose items. -/
def depot : Heap := fun r =>
  if r = 0 then { item := { id := 3502 }, container := some { cls := .depotChest, maxSize := 32 } }
  else { item := { id := 2 } }

/-- The chest after so many calls of `addThing` with index 0. -/
structure Filled (n : Nat) (h : Heap) : Prop where
  itemlist : h.itemlist 0 = ((List.range n).map (· + 1)).reverse
  maxSize : h.maxSize 0 = 32
  parent : h.parent 0 = none
  isContainer : ∀ r, h.isContainer r = true ↔ r = 0

theorem depot_filled : Filled 0 depot :=
  ⟨rfl, rfl, rfl, fun r => by
    by_cases hr : r = 0
    · subst hr
      exact iff_of_true rfl rfl
    · simp [isContainer, depot, hr, Thing.isContainer]⟩

theorem Filled.add {n : Nat} {h : Heap} (hf : Filled n h) :
    ∃ h', call items weight h (.addThing 0 0 (n + 1)) = some h' ∧ Filled (n + 1) h' := by
  set h₁ := h.setParent (n + 1) (some 0) with hh₁
  set h₂ := h₁.setItemlist 0 ((n + 1) :: h₁.itemlist 0) with hh₂
  have hlists := sameLists_setParent (h := h) (n + 1) (some 0)
  have hcontainer : h₁.isContainer 0 = true := by
    rw [hh₁, hlists.isContainer]
    exact (hf.isContainer 0).mpr rfl
  have hparent : h₂.parent 0 = none := by
    rw [hh₂, parent_setItemlist, hh₁, parent_setParent, Function.update_of_ne (Nat.succ_ne_zero n).symm, hf.parent]
  have hadd := sameLists_addWeight (h := h₂) 0 (h₂.getWeight items weight (n + 1))
  refine ⟨h₂.addWeight 0 (h₂.getWeight items weight (n + 1)), ?_, ?_⟩
  · have hindex : ¬ (0 : BitVec 32).toInt ≥ (h.maxSize 0).toInt := by
      rw [hf.maxSize]
      decide
    unfold call
    rw [if_pos (show h.isContainer (Label.container (.addThing 0 0 (n + 1))) = true from (hf.isContainer 0).mpr rfl)]
    show h.addThing items weight 0 0 (n + 1) = _
    rw [addThing, if_neg hindex]
    exact updateItemWeight_top hparent _
  · constructor
    · rw [hadd.itemlist, hh₂, itemlist_setItemlist hcontainer, Function.update_self, hh₁, hlists.itemlist, hf.itemlist,
        List.range_succ, List.map_append, List.reverse_append]
      rfl
    · rw [(noFuller_addWeight h₂ 0 _).maxSize, hh₂, maxSize_setItemlist, hh₁, (noFuller_setParent h _ _).maxSize]
      exact hf.maxSize
    · rw [parent_addWeight]
      exact hparent
    · rw [hadd.isContainer, hh₂, isContainer_setItemlist, hh₁, hlists.isContainer]
      exact hf.isContainer

/-- So many calls, each with the next item. -/
def fill (n : Nat) : List Label := (List.range n).map fun i => .addThing 0 0 (i + 1)

theorem run_fill (n : Nat) : ∃ h, Runs.run (step items weight) (some depot) (fill n) = some h ∧ Filled n h := by
  induction n with
  | zero => exact ⟨depot, rfl, depot_filled⟩
  | succ n ih =>
    obtain ⟨h, hrun, hf⟩ := ih
    obtain ⟨h', hcall, hf'⟩ := @Filled.add items weight n h hf
    refine ⟨h', ?_, hf'⟩
    rw [fill, List.range_succ, List.map_append, Runs.run_append]
    rw [fill] at hrun
    rw [hrun]
    exact hcall

/-- The chest with its items. -/
def chest (n : Nat) : RoseTree ThingRef := .node 0 (((List.range n).map (· + 1)).reverse.map fun r => .node r [])

theorem Filled.spec {n : Nat} {h : Heap} (hf : Filled n h) :
    h.Stands (chest n) ∧ h.free (chest n).labels = 32 - n ∧ h.excess (chest n).labels = n - 32 := by
  have hloose {r : ThingRef} (hr : r ∈ ((List.range n).map (· + 1)).reverse) : h.itemlist r = [] ∧ h.maxSize r = 0 := by
    obtain ⟨i, -, rfl⟩ := List.mem_map.mp (List.mem_reverse.mp hr)
    exact empty_of_not_isContainer (Bool.eq_false_iff.mpr fun h => Nat.succ_ne_zero i ((hf.isContainer _).mp h))
  have hlabels (l : List ThingRef) : labelsOf (l.map fun r => RoseTree.node r []) = l := by
    induction l with
    | nil => rfl
    | cons r l ih =>
      rw [List.map_cons, labelsOf_cons, ih, labels_eq]
      rfl
  have hlength : (h.itemlist 0).length = n := by
    rw [hf.itemlist, List.length_reverse, List.length_map, List.length_range]
  have htree : (chest n).labels = [0] ++ ((List.range n).map (· + 1)).reverse := by
    rw [labels_eq]
    exact congrArg (0 :: ·) (hlabels _)
  refine ⟨?_, ?_, ?_⟩
  · refine all_iff.mpr ⟨?_, fun t ht => ?_⟩
    · show h.itemlist 0 = (List.map (fun r => RoseTree.node r []) ((List.range n).map (· + 1)).reverse).map label
      rw [List.map_map, hf.itemlist]
      exact (List.map_id _).symm
    · obtain ⟨r, hr, rfl⟩ := List.mem_map.mp ht
      exact all_iff.mpr ⟨(hloose hr).1, nofun⟩
  · have hnone : h.free ((List.range n).map (· + 1)).reverse = 0 := by
      refine List.sum_eq_zero fun m hm => ?_
      obtain ⟨r, hr, rfl⟩ := List.mem_map.mp hm
      rw [(hloose hr).2]
      exact Nat.zero_sub _
    rw [htree, free_append, hnone]
    show (h.maxSize 0).toNat - (h.itemlist 0).length + 0 + 0 = 32 - n
    rw [hf.maxSize, hlength]
    rfl
  · have hnone : h.excess ((List.range n).map (· + 1)).reverse = 0 := by
      refine List.sum_eq_zero fun m hm => ?_
      obtain ⟨r, hr, rfl⟩ := List.mem_map.mp hm
      rw [(hloose hr).1]
      exact Nat.zero_sub _
    rw [htree, excess_append, hnone]
    show (h.itemlist 0).length - (h.maxSize 0).toNat + 0 + 0 = n - 32
    rw [hf.maxSize, hlength]
    rfl

/-- A depot chest with one item more than its capacity has 65535 free slots. -/
theorem chest_overfull : ∃ h, Runs.run (step goldItems goldWeight) (some depot) (fill 33) = some h ∧
    h.Stands (chest 33) ∧ h.free (chest 33).labels = 0 ∧ h.getFreeSlots 0 = some 65535 ∧ ¬ h.CountsFree (chest 33) := by
  obtain ⟨h, hrun, hf⟩ := @run_fill goldItems goldWeight 33
  obtain ⟨hstands, hfree, hexcess⟩ := hf.spec
  have hslots : h.getFreeSlots 0 = some 65535 := by
    have heq := getFreeSlots_eq hstands
    rw [hfree, hexcess] at heq
    exact heq
  refine ⟨h, hrun, hstands, hfree, hslots, ?_⟩
  rintro ⟨n, hn, hcount⟩
  rw [show (chest 33).label = 0 from rfl, hslots] at hn
  rw [hfree, ← Option.some.inj hn] at hcount
  exact absurd hcount (by decide)

/-- A full one has none. -/
theorem getFreeSlots_reached_full : ∃ h, Runs.run (step goldItems goldWeight) (some depot) (fill 32) = some h ∧
    h.CountsFree (chest 32) := by
  obtain ⟨h, hrun, hf⟩ := @run_fill goldItems goldWeight 32
  obtain ⟨hstands, hfree, hexcess⟩ := hf.spec
  have hsmall : h.free (chest 32).labels < 65536 := by
    rw [hfree]
    decide
  refine ⟨h, hrun, ((getFreeSlots_reached depot (fill 32)).1 h hrun (chest 32) hstands hsmall).mpr ?_⟩
  rw [hexcess]
  exact Nat.dvd_zero 65536

end Containers

end Moonlight
