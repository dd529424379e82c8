import Moonlight.Items.Cylinders
import Moonlight.Lib.Collect
import Moonlight.Lib.Pruning

/-!
# Counting and removing items of a type

`Player::getItemTypeCount` counts the pieces of a type that a player carries, and `Player::removeItemOfType` removes as
many as asked for (creatures/players/player.cpp). Both go through the slots and, with an iterator, through containers in
them. The count looks into every container that is worn; the removal does not look into one that is of the type itself.

The removal collects items until there are enough pieces, and `Game::internalRemoveItems` takes these: stacks piece by
piece, anything else as a whole. A container goes with what is in it, and an item whose `canRemove` says no stays.

`Agrees` is what the two should have to do with each other, for 32-bit counters. `removeItemOfType_agrees_iff` says when
they do: what the removal reaches is enough whenever the count is, and the shortest front of it that is enough takes
with it as many pieces as asked for.
-/

namespace Moonlight.ItemTypeCount

open RoseTree LevelOrder Collect
open Cylinders (ReturnValue)

/-- An item that a player carries. -/
structure Carried where
  ref : Nat
  item : Item
  isContainer : Bool := false
  /-- `getImbuementInfo` finds an imbuement in one of its slots. -/
  imbued : Bool := false
  canRemove : Bool := true

namespace Carried

def getItemCount (a : Carried) : Nat := a.item.count.toNat

def setItemCount (a : Carried) (n : UInt8) : Carried := { a with item := { a.item with count := n } }

/-- Only containers hold items. -/
def OnlyContainersHold (a : Carried) (held : List (RoseTree Carried)) : Prop := a.isContainer = false → held = []

end Carried

/-- The items in the slots that are not empty, in order. -/
structure Inventory where
  slots : List (RoseTree Carried)
  refs : ((labelsOf slots).map Carried.ref).Nodup
  sound : ∀ t ∈ slots, t.All Carried.OnlyContainersHold

variable (types : Items)

/-- `Item::countByType`. -/
def countByType (a : Carried) (subType : Int) : UInt32 :=
  if subType = -1 ∨ subType = (a.item.getSubType types).toNat then a.item.count.toUInt32 else 0

/-! ### Removing items -/

/-- What `removeThing` leaves of an item. -/
def left (a : Carried) (count : Nat) : Option Carried :=
  if (types a.item.id).stackable ∧ count ≠ a.getItemCount then
    some (a.setItemCount (UInt8.ofNat (a.getItemCount - count)))
  else none

/-- What `queryRemove` says of an item in a slot or a container, unmoveable or not. -/
def queryRemove (item : Carried) (count : Nat) : ReturnValue :=
  if count = 0 ∨ (types item.item.id).stackable ∧ item.getItemCount < count then .NOTPOSSIBLE else .NOERROR

/-- Whether `internalRemoveItem` gets as far as `removeThing`. -/
def removes (item : Carried) (count : Nat) : Bool := queryRemove types item count = .NOERROR && item.canRemove

/-- What removing some pieces of an item makes of every item. -/
def change (item : Carried) (count : Nat) (a : Carried) : Option Carried :=
  if a.ref = item.ref ∧ removes types item count = true then left types a count else some a

theorem change_frame {item a b : Carried} {count : Nat} (h : change types item count a = some b) :
    b.ref = a.ref ∧ b.isContainer = a.isContainer := by
  rw [change] at h
  split at h
  · rw [left] at h
    obtain ⟨-, h⟩ := Option.mem_ite_none_right.mp h
    rw [← Option.some.inj h]
    exact ⟨rfl, rfl⟩
  · rw [← Option.some.inj h]
    exact ⟨rfl, rfl⟩

namespace Inventory

theorem prunes_sound {f : Carried → Option Carried} (h : ∀ a b, f a = some b → b.isContainer = a.isContainer)
    {slots : List (RoseTree Carried)} (hsound : ∀ t ∈ slots, t.All Carried.OnlyContainersHold) :
    ∀ t ∈ prunes f slots, t.All Carried.OnlyContainersHold := by
  refine all_prunes (fun a b us hb hus hplain => ?_) slots hsound
  rw [hus ((h a b hb).symm.trans hplain), prunes]

/-- `Game::internalRemoveItem`. -/
def internalRemoveItem (inv : Inventory) (item : Carried) (count : Nat) : ReturnValue × Inventory :=
  (if removes types item count then .NOERROR else .NOTPOSSIBLE,
    { slots := prunes (change types item count) inv.slots
      refs := nodup_keys Carried.ref (fun _ _ h => (change_frame types h).1) inv.refs
      sound := prunes_sound (fun _ _ h => (change_frame types h).2) inv.sound })

/-- The loop of `Game::internalRemoveItems` over stacks. -/
def removeStacks : List Carried → (amount : Nat) → Inventory → Inventory
  | [], _, inv => inv
  | item :: itemList, amount, inv =>
    if item.getItemCount > amount then (inv.internalRemoveItem types item amount).2
    else removeStacks itemList (amount - item.getItemCount) (inv.internalRemoveItem types item item.getItemCount).2

/-- `Game::internalRemoveItems`. -/
def internalRemoveItems (inv : Inventory) (itemList : List Carried) (amount : Nat) (stackable : Bool) : Inventory :=
  if stackable then removeStacks types itemList amount inv
  else itemList.foldl (fun inv item => (inv.internalRemoveItem types item item.getItemCount).2) inv

/-! ### The two walks -/

variable (inv : Inventory) (itemId : UInt16) (amount : UInt32) (subType : Int)

/-- What an item adds to the count of `getItemTypeCount`. -/
def tick (count : UInt32) (a : Carried) : UInt32 :=
  if a.item.id = itemId then count + countByType types a subType else count

/-- `Player::getItemTypeCount`. -/
def getItemTypeCount : UInt32 :=
  inv.slots.foldl (fun count slot =>
    let count := tick types itemId subType count slot.label
    if slot.label.isContainer then
      Id.run ((Container.iterator Carried.isContainer slot).forEach
        (fun count it => pure (tick types itemId subType count it.label)) count)
    else count) 0

def canSellImbuedItem (item : Carried) (ignoreImbued : Bool) : Bool := ignoreImbued || !item.imbued

/-- The pieces that an item is collected for. -/
def worth (a : Carried) : Nat := (countByType types a subType).toNat

variable (ignoreEquipped ignoreImbued : Bool)

/-- What is done about an item of the type: `count` and `itemList` are the state. -/
def visit (s : Nat × List Carried) (item : Carried) : Except (List Carried) (Nat × List Carried) :=
  if countByType types item subType = 0 then .ok s
  else if !canSellImbuedItem item ignoreImbued then .ok s
  else gather (worth types subType) (2 ^ 32) amount.toNat s item

/-- A round of the loop over the slots. -/
def visitSlot (s : Nat × List Carried) (slot : RoseTree Carried) : Except (List Carried) (Nat × List Carried) :=
  if !ignoreEquipped && slot.label.item.id = itemId then visit types amount subType ignoreImbued s slot.label
  else if slot.label.isContainer then
    (Container.iterator Carried.isContainer slot).forEach (fun s it =>
      if it.label.item.id = itemId then visit types amount subType ignoreImbued s it.label else .ok s) s
  else .ok s

/-- `Player::removeItemOfType`. -/
def removeItemOfType : Bool × Inventory :=
  if amount = 0 then (true, inv)
  else
    match inv.slots.foldlM (visitSlot types itemId amount subType ignoreEquipped ignoreImbued) (0, []) with
    | .error itemList => (true, inv.internalRemoveItems types itemList amount.toNat (types itemId).stackable)
    | .ok _ => (false, inv)

end Inventory

/-! ### What is counted -/

section

variable {types} (itemId : UInt16) (subType : Int)

open Inventory (worth tick)

variable (types) in
/-- The pieces that an item is counted for. -/
def share (a : Carried) : Nat := if a.item.id = itemId then worth types subType a else 0

variable (types) in
/-- The pieces that are counted for some items. -/
def tally (l : List Carried) : Nat := (l.map (share types itemId subType)).sum

variable {itemId subType}

theorem tally_perm {l l' : List Carried} (h : l.Perm l') :
    tally types itemId subType l = tally types itemId subType l' := (h.map _).sum_eq

theorem tally_append (l l' : List Carried) :
    tally types itemId subType (l ++ l') = tally types itemId subType l + tally types itemId subType l' := by
  rw [tally, List.map_append, List.sum_append, tally, tally]

theorem tick_eq (count : UInt32) (a : Carried) :
    tick types itemId subType count a = count + UInt32.ofNat (share types itemId subType a) := by
  rw [tick, share]
  by_cases hid : a.item.id = itemId
  · rw [if_pos hid, if_pos hid, worth, UInt32.ofNat_toNat]
  · rw [if_neg hid, if_neg hid]
    exact (UInt32.add_zero count).symm

theorem foldl_tick (l : List Carried) (count : UInt32) :
    l.foldl (tick types itemId subType) count = count + UInt32.ofNat (tally types itemId subType l) := by
  induction l generalizing count with
  | nil => exact (UInt32.add_zero count).symm
  | cons a l ih =>
    rw [List.foldl_cons, ih, tick_eq, UInt32.add_assoc, ← UInt32.ofNat_add, tally, tally, List.map_cons, List.sum_cons]

/-- What the iterator of a slot goes through. -/
def walk (slot : RoseTree Carried) : List Carried :=
  if slot.label.isContainer then
    (levelOrder (ContainerIterator.opens Carried.isContainer) [slot.children]).map label
  else []

theorem walk_perm {slot : RoseTree Carried} (h : slot.All Carried.OnlyContainersHold) :
    (walk slot).Perm (labelsOf slot.children) := by
  obtain ⟨hroot, hbelow⟩ := all_iff.mp h
  rw [walk]
  by_cases hcontainer : slot.label.isContainer = true
  · rw [if_pos hcontainer]
    exact levelOrder_perm (fun _ ht => ContainerTree.children_eq_nil ht) hbelow
  · rw [if_neg hcontainer, hroot (Bool.eq_false_of_not_eq_true hcontainer), labelsOf]

namespace Inventory

variable (types itemId subType) in
/-- The pieces of the type that there are. -/
def pieces (inv : Inventory) : Nat := tally types itemId subType (labelsOf inv.slots)

theorem countSlot_eq (slot : RoseTree Carried) (count : UInt32) :
    (if slot.label.isContainer then
      Id.run ((Container.iterator Carried.isContainer slot).forEach
        (fun count it => pure (tick types itemId subType count it.label)) count)
    else count) = (walk slot).foldl (tick types itemId subType) count := by
  rw [walk]
  by_cases hcontainer : slot.label.isContainer = true
  · rw [if_pos hcontainer, if_pos hcontainer, Container.forEach_pure Carried.isContainer slot
      (fun count it => tick types itemId subType count it.label), List.foldl_map]
  · rw [if_neg hcontainer, if_neg hcontainer, List.foldl_nil]

theorem getItemTypeCount_eq (inv : Inventory) :
    inv.getItemTypeCount types itemId subType = UInt32.ofNat (inv.pieces types itemId subType) := by
  have hloop (slots : List (RoseTree Carried)) (hsound : ∀ t ∈ slots, t.All Carried.OnlyContainersHold)
      (count : UInt32) :
      slots.foldl (fun count slot =>
        (walk slot).foldl (tick types itemId subType) (tick types itemId subType count slot.label)) count =
        count + UInt32.ofNat (tally types itemId subType (labelsOf slots)) := by
    induction slots generalizing count with
    | nil => exact (UInt32.add_zero count).symm
    | cons slot slots ih =>
      obtain ⟨hslot, hslots⟩ := List.forall_mem_cons.mp hsound
      have hwalk : tally types itemId subType (slot.label :: walk slot) = tally types itemId subType slot.labels := by
        rw [labels_eq]
        exact tally_perm ((walk_perm hslot).cons _)
      rw [List.foldl_cons, ih hslots, ← List.foldl_cons, foldl_tick, hwalk, UInt32.add_assoc, ← UInt32.ofNat_add,
        labelsOf_cons, tally_append]
  have hslots := hloop inv.slots inv.sound 0
  rw [UInt32.zero_add] at hslots
  rw [getItemTypeCount, pieces, ← hslots]
  dsimp only
  simp only [countSlot_eq]

theorem toNat_getItemTypeCount (inv : Inventory) :
    (inv.getItemTypeCount types itemId subType).toNat = inv.pieces types itemId subType % 2 ^ 32 := by
  rw [getItemTypeCount_eq, UInt32.toNat_ofNat']

end Inventory

end

/-! ### What is reached -/

namespace Inventory

variable {types} {itemId : UInt16} {amount : UInt32} {subType : Int} {ignoreEquipped ignoreImbued : Bool}

variable (itemId ignoreEquipped) in
/-- The items of the type that the removal comes to in a slot, in order. -/
def found (slot : RoseTree Carried) : List Carried :=
  if !ignoreEquipped && slot.label.item.id = itemId then [slot.label]
  else (walk slot).filter fun a => a.item.id = itemId

variable (types itemId subType ignoreEquipped ignoreImbued) in
/-- The items that may be collected, in order. -/
def reached (inv : Inventory) : List Carried :=
  (inv.slots.flatMap (found itemId ignoreEquipped)).filter fun a =>
    countByType types a subType ≠ 0 && canSellImbuedItem a ignoreImbued

theorem visit_eq (s : Nat × List Carried) (a : Carried) :
    visit types amount subType ignoreImbued s a =
      if (countByType types a subType ≠ 0 && canSellImbuedItem a ignoreImbued) = true then
        gather (worth types subType) (2 ^ 32) amount.toNat s a
      else .ok s := by
  rw [visit]
  by_cases hcount : countByType types a subType = 0
  · simp [hcount]
  · cases hsell : canSellImbuedItem a ignoreImbued with
    | true => simp [hcount]
    | false => simp

theorem visitSlot_eq (s : Nat × List Carried) (slot : RoseTree Carried) :
    visitSlot types itemId amount subType ignoreEquipped ignoreImbued s slot =
      (found itemId ignoreEquipped slot).foldlM (visit types amount subType ignoreImbued) s := by
  rw [visitSlot, found]
  by_cases hworn : (!ignoreEquipped && decide (slot.label.item.id = itemId)) = true
  · rw [if_pos hworn, if_pos hworn, List.foldlM_cons]
    exact (bind_pure _).symm
  rw [if_neg hworn, if_neg hworn, walk]
  by_cases hcontainer : slot.label.isContainer = true
  · rw [if_pos hcontainer, if_pos hcontainer, ContainerIterator.forEach_eq, Container.upcoming_iterator,
      List.foldlM_filter, List.foldlM_map]
    simp only [decide_eq_true_eq]
    rfl
  · rw [if_neg hcontainer, if_neg hcontainer]
    rfl

theorem foldlM_visitSlot (slots : List (RoseTree Carried)) (s : Nat × List Carried) :
    slots.foldlM (visitSlot types itemId amount subType ignoreEquipped ignoreImbued) s =
      ((slots.flatMap (found itemId ignoreEquipped)).filter fun a =>
        countByType types a subType ≠ 0 && canSellImbuedItem a ignoreImbued).foldlM
          (gather (worth types subType) (2 ^ 32) amount.toNat) s := by
  have hvisit : visit types amount subType ignoreImbued = fun s a =>
      if (countByType types a subType ≠ 0 && canSellImbuedItem a ignoreImbued) = true then
        gather (worth types subType) (2 ^ 32) amount.toNat s a
      else pure s := funext fun s => funext fun a => visit_eq s a
  induction slots generalizing s with
  | nil => rfl
  | cons slot slots ih =>
    rw [List.foldlM_cons, List.flatMap_cons, List.filter_append, List.foldlM_append, visitSlot_eq, List.foldlM_filter,
      hvisit]
    exact bind_congr ih

theorem removeItemOfType_eq (inv : Inventory) (hamount : 0 < amount) :
    inv.removeItemOfType types itemId amount subType ignoreEquipped ignoreImbued =
      match collect (worth types subType) (2 ^ 32) amount.toNat 0
          (inv.reached types itemId subType ignoreEquipped ignoreImbued) with
      | some itemList => (true, inv.internalRemoveItems types itemList amount.toNat (types itemId).stackable)
      | none => (false, inv) := by
  have hfound := foldlM_round (worth types subType) (2 ^ 32) amount.toNat 0 []
    (inv.reached types itemId subType ignoreEquipped ignoreImbued)
  have hnil : (fun l : List Carried => [] ++ l) = id := rfl
  rw [hnil, Option.map_id, id_eq] at hfound
  rw [removeItemOfType, if_neg (UInt32.ne_of_lt hamount).symm, foldlM_visitSlot, ← hfound, ← reached]
  cases (inv.reached types itemId subType ignoreEquipped ignoreImbued).foldlM
    (gather (worth types subType) (2 ^ 32) amount.toNat) (0, []) with
  | error itemList => rfl
  | ok s => rfl

theorem found_perm {slot : RoseTree Carried} (h : slot.All Carried.OnlyContainersHold) :
    ∃ others, slot.labels.Perm (found itemId ignoreEquipped slot ++ others) := by
  rw [found, labels_eq]
  split
  · exact ⟨labelsOf slot.children, List.Perm.refl _⟩
  · refine ⟨slot.label :: (walk slot).filter fun a => !decide (a.item.id = itemId), ?_⟩
    refine List.Perm.trans (List.Perm.cons _ ?_) List.perm_middle.symm
    exact (walk_perm h).symm.trans (List.filter_append_perm _ _).symm

theorem reached_perm (inv : Inventory) :
    ∃ others, (labelsOf inv.slots).Perm (inv.reached types itemId subType ignoreEquipped ignoreImbued ++ others) := by
  have hslots (slots : List (RoseTree Carried)) (h : ∀ t ∈ slots, t.All Carried.OnlyContainersHold) :
      ∃ others, (labelsOf slots).Perm (slots.flatMap (found itemId ignoreEquipped) ++ others) := by
    induction slots with
    | nil => exact ⟨[], List.Perm.of_eq (by rw [labelsOf]; rfl)⟩
    | cons slot slots ih =>
      obtain ⟨hslot, hrest⟩ := List.forall_mem_cons.mp h
      obtain ⟨others, hothers⟩ := @found_perm itemId ignoreEquipped slot hslot
      obtain ⟨others', hothers'⟩ := ih hrest
      refine ⟨others ++ others', ?_⟩
      rw [labelsOf_cons, List.flatMap_cons]
      refine (hothers.append hothers').trans ?_
      rw [List.append_assoc, List.append_assoc]
      exact (List.perm_append_comm_assoc _ _ _).append_left _
  obtain ⟨others, hothers⟩ := hslots inv.slots inv.sound
  rw [reached]
  generalize inv.slots.flatMap (found itemId ignoreEquipped) = all at hothers ⊢
  generalize (fun a => countByType types a subType ≠ 0 && canSellImbuedItem a ignoreImbued : Carried → Bool) = p
  refine ⟨all.filter (fun a => !p a) ++ others, hothers.trans ?_⟩
  rw [← List.append_assoc]
  exact (List.filter_append_perm p all).symm.append_right others

theorem mem_reached {inv : Inventory} {a : Carried}
    (h : a ∈ inv.reached types itemId subType ignoreEquipped ignoreImbued) :
    a ∈ labelsOf inv.slots ∧ a.item.id = itemId ∧ countByType types a subType ≠ 0 := by
  obtain ⟨others, hothers⟩ :=
    @reached_perm types itemId subType ignoreEquipped ignoreImbued inv
  refine ⟨hothers.symm.subset (List.mem_append_left _ h), ?_⟩
  obtain ⟨hfound, hcount⟩ := List.mem_filter.mp h
  refine ⟨?_, by simpa using (Bool.and_eq_true_iff.mp hcount).1⟩
  obtain ⟨slot, -, hslot⟩ := List.mem_flatMap.mp hfound
  rw [found] at hslot
  split at hslot
  · rename_i hworn
    rw [List.mem_singleton.mp hslot]
    exact of_decide_eq_true (Bool.and_eq_true_iff.mp hworn).2
  · exact of_decide_eq_true (List.mem_filter.mp hslot).2

theorem reached_nodup (inv : Inventory) :
    ((inv.reached types itemId subType ignoreEquipped ignoreImbued).map Carried.ref).Nodup := by
  obtain ⟨others, hothers⟩ :=
    @reached_perm types itemId subType ignoreEquipped ignoreImbued inv
  have hrefs := (hothers.map Carried.ref).nodup_iff.mp inv.refs
  rw [List.map_append] at hrefs
  exact hrefs.of_append_left

/-! ### What is taken -/

/-- How many pieces `internalRemoveItems` asks for, of each item in turn. -/
def taken (itemList : List Carried) (amount : Nat) (stackable : Bool) : List (Carried × Nat) :=
  if stackable then drain Carried.getItemCount amount itemList else itemList.map fun a => (a, a.getItemCount)

variable (types) in
def removeAll (taken : List (Carried × Nat)) (inv : Inventory) : Inventory :=
  taken.foldl (fun inv r => (inv.internalRemoveItem types r.1 r.2).2) inv

theorem internalRemoveItems_eq (inv : Inventory) (itemList : List Carried) (amount : Nat) (stackable : Bool) :
    inv.internalRemoveItems types itemList amount stackable =
      removeAll types (taken itemList amount stackable) inv := by
  rw [internalRemoveItems, taken]
  cases stackable with
  | false =>
    rw [if_neg Bool.false_ne_true, if_neg Bool.false_ne_true, removeAll, List.foldl_map]
  | true =>
    rw [if_pos rfl, if_pos rfl]
    induction itemList generalizing amount inv with
    | nil => rfl
    | cons a itemList ih =>
      rw [removeStacks, drain]
      by_cases hsplit : a.getItemCount > amount
      · rw [if_pos hsplit, if_pos hsplit]
        rfl
      · rw [if_neg hsplit, if_neg hsplit, ih]
        rfl

variable (types) in
/-- What becomes of an item itself when pieces of some items are taken. -/
def remains : List (Carried × Nat) → Carried → Option Carried
  | [], a => some a
  | r :: taken, a => (change types r.1 r.2 a).bind (remains taken)

theorem slots_removeAll (taken : List (Carried × Nat)) (inv : Inventory) :
    (removeAll types taken inv).slots = prunes (remains types taken) inv.slots := by
  induction taken generalizing inv with
  | nil => exact (prunes_some inv.slots).symm
  | cons r taken ih =>
    have hrest := ih (inv.internalRemoveItem types r.1 r.2).2
    have hfirst : (inv.internalRemoveItem types r.1 r.2).2.slots = prunes (change types r.1 r.2) inv.slots := rfl
    rw [hfirst, prunes_prunes] at hrest
    exact hrest

theorem change_of_ne {a : Carried} {r : Carried × Nat} (h : a.ref ≠ r.1.ref) : change types r.1 r.2 a = some a :=
  if_neg fun hsame => h hsame.1

theorem remains_frame {taken : List (Carried × Nat)} {a b : Carried} (h : remains types taken a = some b) :
    b.ref = a.ref := by
  induction taken generalizing a with
  | nil => rw [Option.some.inj h]
  | cons r taken ih =>
    obtain ⟨c, hc, hb⟩ := Option.bind_eq_some_iff.mp h
    exact (ih hb).trans (change_frame types hc).1

theorem remains_of_notMem {taken : List (Carried × Nat)} {a : Carried}
    (h : a.ref ∉ taken.map fun r => r.1.ref) : remains types taken a = some a := by
  induction taken with
  | nil => rfl
  | cons r taken ih =>
    rw [List.map_cons, List.mem_cons, not_or] at h
    rw [remains, change_of_ne h.1]
    exact ih h.2

theorem remains_of_mem {taken : List (Carried × Nat)} (hrefs : (taken.map fun r => r.1.ref).Nodup) {r : Carried × Nat}
    (h : r ∈ taken) : remains types taken r.1 = change types r.1 r.2 r.1 := by
  induction taken with
  | nil => cases h
  | cons s taken ih =>
    obtain ⟨hfirst, hrest⟩ := List.nodup_cons.mp hrefs
    rw [remains]
    rcases List.mem_cons.mp h with rfl | h
    · cases hc : change types r.1 r.2 r.1 with
      | none => rfl
      | some b =>
        refine remains_of_notMem ?_
        rwa [(change_frame types hc).1]
    · have hne : r.1.ref ≠ s.1.ref := fun heq => hfirst (List.mem_map.mpr ⟨r, h, heq⟩)
      rw [change_of_ne hne]
      exact ih hrest h

theorem mem_taken {itemList : List Carried} {amount : Nat} {stackable : Bool} {r : Carried × Nat}
    (h : r ∈ taken itemList amount stackable) : r.1 ∈ itemList := by
  rw [taken] at h
  split at h
  · exact (drain_front _ amount itemList).subset (List.mem_map_of_mem h)
  · obtain ⟨a, ha, rfl⟩ := List.mem_map.mp h
    exact ha

theorem taken_nodup {itemList : List Carried} (hrefs : (itemList.map Carried.ref).Nodup) (amount : Nat)
    (stackable : Bool) : ((taken itemList amount stackable).map fun r => r.1.ref).Nodup := by
  rw [taken]
  split
  · have hfront := (drain_front Carried.getItemCount amount itemList).sublist.map Carried.ref
    rw [List.map_map] at hfront
    exact hfront.nodup hrefs
  · rw [List.map_map]
    exact hrefs

/-! ### What goes -/

theorem worth_of_ne_zero {a : Carried} (h : countByType types a subType ≠ 0) :
    worth types subType a = a.getItemCount := by
  rw [worth]
  rw [countByType] at h ⊢
  split
  · exact UInt8.toNat_toUInt32 _
  · rename_i hother
    exact absurd (if_neg hother) h

theorem share_le (a : Carried) : share types itemId subType a ≤ a.getItemCount := by
  rw [share]
  split
  · by_cases hzero : countByType types a subType = 0
    · rw [worth, hzero]
      exact Nat.zero_le _
    · rw [worth_of_ne_zero hzero]
  · exact Nat.zero_le _

theorem share_left_le {a b : Carried} (hid : a.item.id = itemId) (hcount : countByType types a subType ≠ 0) {n : Nat}
    (h : left types a n = some b) : share types itemId subType b ≤ share types itemId subType a := by
  have ha : share types itemId subType a = a.getItemCount := by
    rw [share, if_pos hid, worth_of_ne_zero hcount]
  rw [left] at h
  obtain ⟨-, h⟩ := Option.mem_ite_none_right.mp h
  rw [← Option.some.inj h, ha]
  refine (share_le _).trans ?_
  show (UInt8.ofNat (a.getItemCount - n)).toNat ≤ a.getItemCount
  rw [UInt8.toNat_ofNat']
  exact (Nat.mod_le _ _).trans (Nat.sub_le _ _)

theorem eq_of_ref {inv : Inventory} {a b : Carried} (ha : a ∈ labelsOf inv.slots) (hb : b ∈ labelsOf inv.slots)
    (h : a.ref = b.ref) : a = b := List.inj_on_of_nodup_map inv.refs ha hb h

section

variable (types itemId subType)

/-- The pieces that go with what is taken: those in and below the items that go, and those that are taken of others. -/
def lost (inv : Inventory) (taken : List (Carried × Nat)) : Nat :=
  ((outsideOf (fun a => (remains types taken a).isNone) inv.slots).map fun a =>
    share types itemId subType a - ((remains types taken a).map (share types itemId subType)).getD 0).sum +
  tally types itemId subType (withinOf (fun a => (remains types taken a).isNone) inv.slots)

end

theorem pieces_removeAll {inv : Inventory} {taken : List (Carried × Nat)}
    (hrefs : (taken.map fun r => r.1.ref).Nodup)
    (hmem : ∀ r ∈ taken, r.1 ∈ inv.reached types itemId subType ignoreEquipped ignoreImbued) :
    (removeAll types taken inv).pieces types itemId subType + inv.lost types itemId subType taken =
      inv.pieces types itemId subType := by
  rw [pieces, slots_removeAll]
  refine sum_prunes (share types itemId subType) (remains types taken) fun a ha b hb => ?_
  by_cases htaken : a.ref ∈ taken.map fun r => r.1.ref
  · obtain ⟨r, hr, hsame⟩ := List.mem_map.mp htaken
    obtain ⟨hlabel, hid, hcount⟩ := mem_reached (hmem r hr)
    obtain rfl := eq_of_ref hlabel ha hsame
    rw [remains_of_mem hrefs hr, change] at hb
    split at hb
    · exact share_left_le hid hcount hb
    · rw [Option.some.inj hb]
  · rw [remains_of_notMem htaken] at hb
    rw [Option.some.inj hb]

theorem others_removeAll {inv : Inventory} {taken : List (Carried × Nat)}
    (hmem : ∀ r ∈ taken, r.1 ∈ inv.reached types itemId subType ignoreEquipped ignoreImbued) {a : Carried}
    (ha : a ∈ labelsOf inv.slots) (hother : a.item.id ≠ itemId) :
    a ∈ labelsOf (removeAll types taken inv).slots ∨
      ∃ t ∈ subtreesOf inv.slots, t.label.item.id = itemId ∧ t.label.isContainer = true ∧
        t.label ∉ labelsOf (removeAll types taken inv).slots ∧ a ∈ labelsOf t.children := by
  have hid {b : Carried} (hb : b ∈ labelsOf inv.slots) (h : b.ref ∈ taken.map fun r => r.1.ref) :
      b.item.id = itemId := by
    obtain ⟨r, hr, hsame⟩ := List.mem_map.mp h
    obtain ⟨hlabel, hid, -⟩ := mem_reached (hmem r hr)
    rwa [eq_of_ref hlabel hb hsame] at hid
  rw [slots_removeAll]
  rcases exists_of_mem_labelsOf (remains types taken) ha with ⟨b, hb, hab⟩ | ⟨t, ht, hnone, hat⟩
  · left
    rw [remains_of_notMem fun h => hother (hid ha h)] at hab
    rwa [Option.some.inj hab]
  · right
    have hlabel := label_mem_of_subtreesOf ht
    have hgone : t.label.item.id = itemId := by
      refine hid hlabel ?_
      by_contra hnot
      rw [remains_of_notMem hnot] at hnone
      cases hnone
    have hbelow : a ∈ labelsOf t.children := by
      rw [labels_eq, List.mem_cons] at hat
      exact hat.resolve_left fun heq => hother (heq ▸ hgone)
    refine ⟨t, ht, hgone, ?_, fun hstays => ?_, hbelow⟩
    · by_contra hplain
      rw [subtreesOf_of_all inv.sound t ht (Bool.eq_false_of_not_eq_true hplain), labelsOf] at hbelow
      cases hbelow
    · obtain ⟨c, hc, hct⟩ := mem_labelsOf_prunes hstays
      rw [eq_of_ref hc hlabel (remains_frame hct).symm, hnone] at hct
      cases hct

end Inventory

/-! ### Counting and removing -/

open Inventory

variable (inv : Inventory) (itemId : UInt16) (amount : UInt32) (subType : Int)

/-- What counting and removing should have to do with each other. -/
structure Agrees : Prop where
  returns : (inv.removeItemOfType types itemId amount subType false true).1 = true ↔
    amount ≤ inv.getItemTypeCount types itemId subType
  decreases : (inv.removeItemOfType types itemId amount subType false true).1 = true →
    ((inv.removeItemOfType types itemId amount subType false true).2.getItemTypeCount types itemId subType).toNat +
      amount.toNat = (inv.getItemTypeCount types itemId subType).toNat
  unchanged : (inv.removeItemOfType types itemId amount subType false true).1 = false →
    (inv.removeItemOfType types itemId amount subType false true).2 = inv
  others : ∀ a ∈ labelsOf inv.slots, a.item.id ≠ itemId →
    a ∈ labelsOf (inv.removeItemOfType types itemId amount subType false true).2.slots ∨
      ∃ t ∈ subtreesOf inv.slots, t.label.item.id = itemId ∧ t.label.isContainer = true ∧
        t.label ∉ labelsOf (inv.removeItemOfType types itemId amount subType false true).2.slots ∧
        a ∈ labelsOf t.children

/-- What the removal reaches is enough. -/
def Suffices : Prop :=
  Enough (worth types subType) (2 ^ 32) amount.toNat (inv.reached types itemId subType false true)

/-- The items that are needed: no more of what the removal reaches than is enough. -/
def Needed (needed : List Carried) : Prop :=
  Shortest (worth types subType) (2 ^ 32) amount.toNat (inv.reached types itemId subType false true) needed

/-- What the removal reaches is enough whenever there is enough. -/
def Reaches : Prop :=
  Suffices types inv itemId amount subType ↔ amount.toNat ≤ inv.pieces types itemId subType % 2 ^ 32

/-- With the items that are needed as many pieces go as are asked for. -/
def Exact : Prop :=
  ∀ needed, Needed types inv itemId amount subType needed →
    inv.lost types itemId subType (taken needed amount.toNat (types itemId).stackable) ≡ amount.toNat [MOD 2 ^ 32]

variable {types inv itemId amount subType}

theorem removeItemOfType_of_needed (hamount : 0 < amount) {needed : List Carried}
    (h : Needed types inv itemId amount subType needed) :
    inv.removeItemOfType types itemId amount subType false true =
      (true, removeAll types (taken needed amount.toNat (types itemId).stackable) inv) := by
  rw [removeItemOfType_eq inv hamount, (collect_eq_some_iff (UInt32.lt_iff_toNat_lt.mp hamount)).mpr h]
  dsimp only
  rw [internalRemoveItems_eq]

theorem removeItemOfType_of_not_enough (hamount : 0 < amount)
    (h : ¬ Suffices types inv itemId amount subType) :
    inv.removeItemOfType types itemId amount subType false true = (false, inv) := by
  have hnone : collect (worth types subType) (2 ^ 32) amount.toNat 0
      (inv.reached types itemId subType false true) = none := by
    rw [← Option.not_isSome_iff_eq_none, enough_iff (UInt32.lt_iff_toNat_lt.mp hamount)]
    exact h
  rw [removeItemOfType_eq inv hamount, hnone]

theorem exists_needed (hamount : 0 < amount) (h : Suffices types inv itemId amount subType) :
    ∃ needed, Needed types inv itemId amount subType needed := by
  have hpos := UInt32.lt_iff_toNat_lt.mp hamount
  obtain ⟨needed, hneeded⟩ := Option.isSome_iff_exists.mp ((enough_iff hpos _).mpr h)
  exact ⟨needed, (collect_eq_some_iff hpos).mp hneeded⟩

theorem returns_iff (hamount : 0 < amount) : (inv.removeItemOfType types itemId amount subType false true).1 = true ↔
    Suffices types inv itemId amount subType := by
  by_cases henough : Suffices types inv itemId amount subType
  · obtain ⟨needed, hneeded⟩ := exists_needed hamount henough
    rw [removeItemOfType_of_needed hamount hneeded]
    exact iff_of_true rfl henough
  · rw [removeItemOfType_of_not_enough hamount henough]
    exact iff_of_false Bool.false_ne_true henough

theorem counter_iff {before after gone amount : Nat} (h : after + gone = before) (hle : amount ≤ before % 2 ^ 32) :
    after % 2 ^ 32 + amount = before % 2 ^ 32 ↔ gone ≡ amount [MOD 2 ^ 32] := by
  rw [Nat.ModEq]
  omega

/-- **When counting and removing agree.** -/
theorem removeItemOfType_agrees_iff (types : Items) (inv : Inventory) (itemId : UInt16) (amount : UInt32) (subType : Int)
    (hamount : 0 < amount) : Agrees types inv itemId amount subType ↔
      Reaches types inv itemId amount subType ∧ Exact types inv itemId amount subType := by
  have hle : amount ≤ inv.getItemTypeCount types itemId subType ↔
      amount.toNat ≤ inv.pieces types itemId subType % 2 ^ 32 := by
    rw [UInt32.le_iff_toNat_le, toNat_getItemTypeCount]
  have hreaches : Reaches types inv itemId amount subType ↔
      ((inv.removeItemOfType types itemId amount subType false true).1 = true ↔
        amount ≤ inv.getItemTypeCount types itemId subType) := by
    rw [Reaches, returns_iff hamount, hle]
  have hmem {needed : List Carried} (h : Needed types inv itemId amount subType needed) :
      ∀ r ∈ taken needed amount.toNat (types itemId).stackable, r.1 ∈ inv.reached types itemId subType false true :=
    fun r hr => h.front.subset (mem_taken hr)
  have hrefs {needed : List Carried} (h : Needed types inv itemId amount subType needed) :
      ((taken needed amount.toNat (types itemId).stackable).map fun r => r.1.ref).Nodup :=
    taken_nodup ((h.front.sublist.map Carried.ref).nodup (reached_nodup inv)) _ _
  have hcounts {needed : List Carried} (h : Needed types inv itemId amount subType needed)
      (hthere : amount.toNat ≤ inv.pieces types itemId subType % 2 ^ 32) :
      ((inv.removeItemOfType types itemId amount subType false true).2.getItemTypeCount types itemId subType).toNat +
          amount.toNat = (inv.getItemTypeCount types itemId subType).toNat ↔
        inv.lost types itemId subType (taken needed amount.toNat (types itemId).stackable) ≡
          amount.toNat [MOD 2 ^ 32] := by
    rw [removeItemOfType_of_needed hamount h, toNat_getItemTypeCount, toNat_getItemTypeCount]
    exact counter_iff (pieces_removeAll (hrefs h) (hmem h)) hthere
  constructor
  · intro h
    refine ⟨hreaches.mpr h.returns, fun needed hneeded => ?_⟩
    have htrue : (inv.removeItemOfType types itemId amount subType false true).1 = true :=
      (returns_iff hamount).mpr ⟨needed, hneeded.front, hneeded.enough⟩
    exact (hcounts hneeded (hle.mp (h.returns.mp htrue))).mp (h.decreases htrue)
  · rintro ⟨hreach, hexact⟩
    by_cases henough : Suffices types inv itemId amount subType
    · obtain ⟨needed, hneeded⟩ := exists_needed hamount henough
      refine ⟨hreaches.mp hreach, fun _ => ?_, ?_, fun a ha hother => ?_⟩
      · exact (hcounts hneeded (hreach.mp henough)).mpr (hexact needed hneeded)
      · rw [removeItemOfType_of_needed hamount hneeded]
        exact nofun
      · rw [removeItemOfType_of_needed hamount hneeded]
        exact others_removeAll (hmem hneeded) ha hother
    · have hsame := removeItemOfType_of_not_enough hamount henough
      refine ⟨hreaches.mp hreach, ?_, fun _ => ?_, fun a ha _ => Or.inl ?_⟩
      · rw [hsame]
        exact nofun
      · rw [hsame]
      · rwa [hsame]

/-- A bag. -/
def bag (ref : Nat) : Carried where
  ref := ref
  item := { id := 2853 }
  isContainer := true

/-- A bag that is worn, with another one in it. -/
def bagInBag : Inventory where
  slots := [.node (bag 1) [.node (bag 2) []]]
  refs := by decide
  sound := by
    have hbag (ref : Nat) (held : List (RoseTree Carried)) : (bag ref).OnlyContainersHold held := nofun
    rw [List.forall_mem_singleton, all_iff]
    exact ⟨hbag 1 _, List.forall_mem_singleton.mpr (all_iff.mpr ⟨hbag 2 _, nofun⟩)⟩

theorem removeItemOfType_agrees_iff_bag : Agrees (fun _ => {}) bagInBag 2853 2 (-1) ↔
    Reaches (fun _ => {}) bagInBag 2853 2 (-1) ∧ Exact (fun _ => {}) bagInBag 2853 2 (-1) :=
  removeItemOfType_agrees_iff _ _ _ _ _ (by decide)

/-- Two bags are counted, and one is found. -/
theorem bagInBag_not_agrees :
    ¬ ∀ (types : Items) (inv : Inventory) (itemId : UInt16) (amount : UInt32) (subType : Int), 0 < amount →
      Agrees types inv itemId amount subType := by
  intro h
  have hagrees := h (fun _ => {}) bagInBag 2853 2 (-1) (by decide)
  have hpieces : bagInBag.pieces (fun _ => {}) 2853 (-1) = 2 := by decide
  have hcount : 2 ≤ bagInBag.getItemTypeCount (fun _ => {}) 2853 (-1) := by
    rw [UInt32.le_iff_toNat_le, toNat_getItemTypeCount, hpieces]
    decide
  obtain ⟨front, ⟨rest, hrest⟩, henough⟩ := (returns_iff (by decide)).mp (hagrees.returns.mpr hcount)
  have hreached : bagInBag.reached (fun _ => {}) 2853 (-1) false true = [bag 1] := rfl
  rw [hreached] at hrest
  -- the bag alone is not enough
  have hone : ((front ++ rest).map (worth (fun _ => {}) (-1))).sum = 1 := by
    rw [hrest]
    rfl
  rw [List.map_append, List.sum_append] at hone
  have htwo : 2 ≤ (front.map (worth (fun _ => {}) (-1))).sum := henough.trans (Nat.mod_le _ _)
  omega

end Moonlight.ItemTypeCount
