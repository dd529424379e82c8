import Moonlight.Game.Custody
import Moonlight.Items.Merging

/-!
# Adding an item

`Game::internalAddItem` (game/game.cpp) asks a cylinder of the player where an item goes and whether it may. Pieces that
fit on a stack join that, and the rest is added as an item of its own by another call. If that is turned down, the
caller learns how many pieces were left over, but the call does not learn what was left over in the calls that it makes.

The questions are asked first and change nothing, so a call is its `plan` and what is done about that. `Whole` says that
all pieces of an item end up in the inventory: a stack in a slot is joined whatever room there is (`Player` is no item),
and the pieces for which there is none are gone. `internalAddItem_spec` says that this is when nothing gets lost.
-/

namespace Moonlight

namespace Cylinders

open RoseTree

namespace Player

/-! ### Cylinders of the player -/

/-- A cylinder, by the pointer to it. -/
inductive Target where
  | player
  | container (ref : Nat)
  deriving DecidableEq

variable (s : Setting) (p : Player)

/-- The places of all containers in the inventory. -/
def containerSpots : List Spot :=
  (subContainers fun _ => true).order
    (((everySlot.filterMap p.inventory).filter (·.label.isContainer)).map (⟨·, [], .player⟩))

/-- The place of a container. -/
def placeOf (ref : Nat) : Option Spot := p.containerSpots.find? (·.here.label.ref == ref)

def cylinderAt : Target → Option Place
  | .player => some .player
  | .container ref => (p.placeOf ref).map .container

/-- The virtual `queryDestination` of a cylinder of the player. -/
def queryDestinationAt (item : Arrival) (cylinder : Place) (index : Int) (flags : UInt32) : Destination :=
  match cylinder with
  | .player => (p.queryDestination s item flags index none).1
  | .container c =>
    let turn := c.queryDestination item flags index none
    ⟨.container (turn.next.getD c), turn.index, turn.destItem⟩

/-- `toCylinder->getItem() && toCylinder->getItem()->getID() != ITEM_REWARD_CONTAINER`. -/
def isOrdinary : Place → Bool
  | .player => false
  | .container c => c.here.label.item.id != ITEM_REWARD_CONTAINER

/-! ### The call -/

/-- The questions have turned an item down, or it goes to a place, or `m` of its pieces do, and `n` of these join a
stack. -/
inductive Plan where
  | refuse (ret : ReturnValue)
  | put (found : Destination)
  | join (found : Destination) (toItem : Thing) (m n : UInt32)

/-- An item that is in no cylinder. -/
def arrival (item : Thing) : Arrival := { thing := .node item [] }

/-- What `internalAddItem` asks before it changes anything. -/
def plan (target : Target) (item : Thing) (index : Int) : Plan :=
  match p.cylinderAt target with
  | none => .refuse .NOTPOSSIBLE
  | some destCylinder =>
    let count := item.getItemCount
    let found := p.queryDestinationAt s (arrival item) destCylinder index 0
    match p.queryAddAt s (arrival item) found.cylinder found.index count 0 with
    | .NOERROR =>
      let (ret, maxQueryCount) := p.queryMaxCountAt s (arrival item) destCylinder INDEX_WHEREEVER count 0
      if ret ≠ .NOERROR ∧ isOrdinary found.cylinder = true then .refuse ret
      else
        match found.destItem.filter fun toItem => item.type.stackable && item.item.equals toItem.item with
        | some toItem =>
          let m := min count maxQueryCount
          .join found toItem m (min (100 - toItem.getItemCount) m)
        | none => .put found
    | ret => .refuse ret

/-- Whether `addThing` puts an item in, and does not return at once. -/
def Takes (cylinder : Place) (index : Int) : Prop :=
  match cylinder with
  | .player => CONST_SLOT_FIRST ≤ index ∧ index ≤ CONST_SLOT_LAST
  | .container c => index < toIndex c.capacity

theorem addThing_snd (cylinder : Place) (index : Int) (item : RoseTree Thing) :
    (p.addThing cylinder index item).2 = true ↔ Takes cylinder index := by
  cases cylinder with
  | player =>
    rw [addThing, Takes]
    split
    · exact iff_of_false Bool.false_ne_true (by omega)
    · exact iff_of_true rfl (by omega)
  | container c =>
    rw [addThing, Takes]
    split
    · exact iff_of_false Bool.false_ne_true (by omega)
    · exact iff_of_true rfl (by omega)

/-- What the call says. -/
def Plan.ret : Plan → ReturnValue
  | .refuse ret => ret
  | .put _ => .NOERROR
  | .join _ _ _ _ => .NOERROR

/-- `updateThing`, of a stack that pieces join. -/
def joined (toItem : Thing) (n : UInt32) : Player :=
  p.changeItem toItem.ref fun t => some (t.setItemCount (t.getItemCount + n))

/-- `remainderItem`, with a pointer that is free. -/
def remainderItem (item : Thing) (count : UInt32) (fresh : Nat) : Thing :=
  { item with ref := fresh }.setItemCount count

/-- What a call leaves; pointers from `fresh` on are free. -/
structure Added where
  ret : ReturnValue
  player : Player
  fresh : Nat
  remainderCount : UInt32 := 0

theorem join_le_count {target : Target} {item : Thing} {index : Int} {found : Destination} {toItem : Thing}
    {m n : UInt32} (h : plan s p target item index = .join found toItem m n) :
    m ≤ item.getItemCount ∧ n = min (100 - toItem.getItemCount) m := by
  rw [plan] at h
  split at h
  · cases h
  dsimp only at h
  split at h
  · split at h
    · cases h
    split at h
    · obtain ⟨-, rfl, rfl, rfl⟩ := Plan.join.inj h
      exact ⟨min_le_count _ _, rfl⟩
    · cases h
  · cases h

theorem remainder_lt {item : Thing} {m n : UInt32} (hm : m ≤ item.getItemCount) (hn : n ≤ m)
    (hne : m - n ≠ item.getItemCount) : (m - n).toUInt8.toNat < item.item.count.toNat := by
  have hle := UInt32.le_iff_toNat_le.mp hm
  have hsub := UInt32.toNat_sub_of_le m n hn
  have hne' : (m - n).toNat ≠ item.getItemCount.toNat := fun heq => hne (UInt32.toNat_inj.mp heq)
  rw [toNat_getItemCount] at hle hne'
  rw [UInt32.toNat_toUInt8]
  exact Nat.lt_of_le_of_lt (Nat.mod_le _ _) (by omega)

theorem min_le_right (a m : UInt32) : min a m ≤ m := by
  show (if a ≤ m then a else m) ≤ m
  split
  · assumption
  · exact UInt32.le_refl _

/-- `Game::internalAddItem`. -/
def internalAddItem (p : Player) (target : Target) (item : Thing) (index : Int) (fresh : Nat) : Added :=
  match hplan : plan s p target item index with
  | .refuse ret => ⟨ret, p, fresh, 0⟩
  | .put found => ⟨.NOERROR, (p.addThing found.cylinder found.index (.node item [])).1, fresh, 0⟩
  | .join found toItem m n =>
    let updated := p.joined toItem n
    let count := m - n
    if count = 0 then ⟨.NOERROR, updated, fresh, 0⟩
    else if _h : count = item.getItemCount then
      ⟨.NOERROR, (updated.addThing found.cylinder found.index (.node item [])).1, fresh, 0⟩
    else
      let added := internalAddItem updated target (remainderItem item count fresh) INDEX_WHEREEVER (fresh + 1)
      ⟨.NOERROR, added.player, added.fresh, if added.ret ≠ .NOERROR then count else 0⟩
termination_by item.item.count.toNat
decreasing_by
  obtain ⟨hm, hn⟩ := join_le_count s p hplan
  exact remainder_lt hm (hn ▸ min_le_right _ _) _h

/-- All pieces of an item end up in the inventory: it is put somewhere, or there is room for all of it, and what does
not join the stack ends up there in turn. -/
def Whole (p : Player) (target : Target) (item : Thing) (index : Int) (fresh : Nat) : Prop :=
  match hplan : plan s p target item index with
  | .refuse _ => False
  | .put found => Takes found.cylinder found.index
  | .join _ toItem m n =>
    m = item.getItemCount ∧
      (m - n = 0 ∨ if _h : m - n = item.getItemCount then False
        else Whole (p.joined toItem n) target (remainderItem item (m - n) fresh) INDEX_WHEREEVER (fresh + 1))
termination_by item.item.count.toNat
decreasing_by
  obtain ⟨hm, hn⟩ := join_le_count s p hplan
  exact remainder_lt hm (hn ▸ min_le_right _ _) _h

/-- The first questions turn an item down, so that the caller is told. -/
def Refused (p : Player) (target : Target) (item : Thing) (index : Int) : Prop :=
  ∃ ret, plan s p target item index = .refuse ret

/-- An item that is added to the player, and dropped if it is turned down, is not lost: where pieces of it join a stack
there is room for all of it, and what is left over is turned down at once or ends up in the inventory. -/
def Kept (p : Player) (item : Thing) (fresh : Nat) : Prop :=
  match plan s p .player item 0 with
  | .refuse _ => True
  | .put found => Takes found.cylinder found.index
  | .join _ toItem m n =>
    let rest := remainderItem item (m - n) fresh
    m = item.getItemCount ∧
      (m - n = 0 ∨ Refused s (p.joined toItem n) .player rest INDEX_WHEREEVER ∨
        Whole s (p.joined toItem n) .player rest INDEX_WHEREEVER (fresh + 1))

/-! ### What is found -/

section

variable {s : Setting} {p : Player} {item : Thing}

/-- Pieces of an item may join a stack. -/
structure Stacks (item t : Thing) : Prop where
  stackable : item.type.stackable = true
  equals : item.item.equals t.item = true
  count_lt : t.getItemCount < 100

theorem stacks_of {item t : Thing} (hstackable : item.type.stackable = true)
    (h : (t.item.equals item.item && decide (t.getItemCount < 100)) = true) : Stacks item t := by
  obtain ⟨hequals, hcount⟩ := Bool.and_eq_true_iff.mp h
  exact ⟨hstackable, Item.equals_equivalence.symm hequals, of_decide_eq_true hcount⟩

theorem none_stacks (t : Thing) (h : none = some t) : Stacks item t := by
  cases h

/-- What a search for an item finds: something that it stacks with, and a slot only if that is empty. -/
structure Suits (p : Player) (item : Thing) (found : Destination) : Prop where
  destItem : ∀ t, found.destItem = some t → Stacks item t
  slot : found.cylinder = .player → found.destItem = none →
    found.index = 0 ∨ found.index = INDEX_WHEREEVER ∨ ∃ slot : Nat, found.index = slot ∧ p.inventory slot = none

@[simp] theorem label_arrival (item : Thing) : (arrival item).thing.label = item := rfl

theorem stacking_eq (item : Thing) : stacking (arrival item) 0 = item.type.stackable := by
  rw [stacking, autoStack]
  exact Bool.true_and _

theorem visitSlot_suits {containers : List Spot} {slotIndex : Nat} {found : Destination}
    (h : p.visitSlot s (arrival item) 0 containers slotIndex = .error found) : p.Suits item found := by
  rw [visitSlot] at h
  split at h
  · rename_i inventoryItem _
    split at h
    · cases h
    split at h
    · -- what is worn is a stack with room
      rename_i hjoin
      rw [stacking_eq, Bool.and_eq_true, Bool.and_eq_true] at hjoin
      rw [← Except.error.inj h]
      refine ⟨fun t ht => ?_, fun _ hnone => absurd hnone (Option.some_ne_none _)⟩
      rw [← Option.some.inj ht]
      exact stacks_of hjoin.1.1 hjoin.2
    split at h
    · cases h
    · cases h
  · rename_i hempty
    split at h
    · rw [← Except.error.inj h]
      exact ⟨none_stacks, fun _ _ => Or.inr (Or.inr ⟨slotIndex, rfl, hempty⟩)⟩
    · cases h

theorem stackLoop_stacks {skips : Thing → Bool} (hstackable : item.type.stackable = true) {n m : UInt32}
    {items : List Thing} {t : Thing} (h : stackLoop skips item n items = .error (m, t)) : Stacks item t := by
  induction items generalizing n with
  | nil => cases h
  | cons u items ih =>
    rw [stackLoop] at h
    split at h
    · exact ih h
    split at h
    · rename_i hjoin
      rw [← (Prod.mk.inj (Except.error.inj h)).2]
      exact stacks_of hstackable hjoin
    · exact ih h

theorem visit_suits {probes : Probes} {c : Spot} {found : Destination × Probes}
    (h : p.visit s (arrival item) 0 probes c = .error found) : p.Suits item found.1 := by
  have hcontainer : found.1.cylinder ≠ .player := by
    rw [visit_container h]
    exact nofun
  refine ⟨?_, fun hplayer => absurd hplayer hcontainer⟩
  rw [visit] at h
  dsimp only at h
  split at h
  · split at h
    · rw [← Except.error.inj h]
      exact none_stacks
    · cases h
  rename_i hstacking
  rw [stacking_eq, Bool.not_eq_true', Bool.not_eq_false] at hstacking
  split at h
  · rename_i n t hstack
    rw [label_arrival] at hstack
    have ht : Stacks item t := stackLoop_stacks hstacking hstack
    rw [← Except.error.inj h]
    intro u hu
    rwa [← Option.some.inj hu]
  split at h
  · rw [← Except.error.inj h]
    exact none_stacks
  · cases h

theorem queryDestination_suits {index : Int} (hindex : index = 0 ∨ index = INDEX_WHEREEVER) :
    p.Suits item (p.queryDestination s (arrival item) 0 index none).1 := by
  have hslots := @Loops.foldlM_of_inv _ _ _ (p.visitSlot s (arrival item) 0) (fun _ => True) (p.Suits item) slots
    (fun _ _ _ _ => ⟨fun _ _ => trivial, fun _ h => visitSlot_suits h⟩) [] trivial
  rw [queryDestination, if_pos hindex]
  split
  · rename_i found hfound
    exact hslots.2 found hfound
  · rename_i containers _
    have hwalk := @Loops.foldlM_of_inv _ _ _ (p.visit s (arrival item) 0) (fun _ => True)
      (fun found => p.Suits item found.1) ((p.searched (arrival item) 0).order containers)
      (fun _ _ _ _ => ⟨fun _ _ => trivial, fun _ h => visit_suits h⟩) [] trivial
    rw [BreadthFirst.search_eq]
    split
    · rename_i found hfound
      exact hwalk.2 found hfound
    · exact ⟨none_stacks, fun _ _ => hindex.imp id Or.inl⟩

theorem findStack_stacks (hstackable : item.type.stackable = true) {n m : Nat} {items : List Thing} {t : Thing}
    (h : Spot.findStack item n items = some (m, t)) : Stacks item t ∧ t.ref ≠ item.ref := by
  induction items generalizing n with
  | nil => cases h
  | cons u items ih =>
    rw [Spot.findStack] at h
    split at h
    · rename_i hjoin
      rw [← (Prod.mk.inj (Option.some.inj h)).2]
      exact ⟨⟨hstackable, Item.equals_equivalence.symm hjoin.2.1, hjoin.2.2⟩, hjoin.1⟩
    · exact ih h

theorem queryDestination_here (c : Spot) (item : Arrival) :
    (c.queryDestination item 0 INDEX_WHEREEVER none).next = none ∧
      ∀ t, (c.queryDestination item 0 INDEX_WHEREEVER none).destItem = some t →
        Stacks item.thing.label t ∧ t.ref ≠ item.thing.label.ref := by
  have hnone (t : Thing) (h : none = some t) : Stacks item.thing.label t ∧ t.ref ≠ item.thing.label.ref := by
    cases h
  rw [Spot.queryDestination]
  split
  · exact ⟨rfl, hnone⟩
  rw [if_neg (by decide)]
  dsimp only
  generalize (decide (INDEX_WHEREEVER = 255) ||
    (decide (INDEX_WHEREEVER ≥ toIndex c.capacity) && !c.here.label.info.pagination)) = leaves
  have hindex : (if leaves = true then INDEX_WHEREEVER else INDEX_WHEREEVER) = INDEX_WHEREEVER := ite_self _
  have hdest : (if leaves = true then none else (none : Option Thing)) = none := ite_self _
  rw [hindex, hdest, if_pos rfl]
  rw [Option.filter_none]
  dsimp only
  split
  · rename_i hstackable
    rw [Bool.and_eq_true, Bool.and_eq_true] at hstackable
    rw [Option.map_none, Option.or_none, Option.any_none, if_neg Bool.false_ne_true]
    split
    · rename_i n t hstack
      have ht := findStack_stacks hstackable.1.2 hstack
      refine ⟨rfl, fun u hu => ?_⟩
      rwa [← Option.some.inj hu]
    · exact ⟨rfl, hnone⟩
  · exact ⟨rfl, hnone⟩

theorem queryAdd_nowhere {index : Int} (hindex : index = 0 ∨ index = INDEX_WHEREEVER) (count : UInt32) :
    p.queryAdd s index (arrival item) count 0 ≠ .NOERROR := by
  have hslot : p.querySlot s index item count = .NOTENOUGHROOM := by
    rcases hindex with rfl | rfl
    · rfl
    · rfl
  have hlabel : (arrival item).thing.label = item := rfl
  have hflag : hasBitSet FLAG_CHILDISOWNER 0 = false := by decide
  rw [queryAdd]
  dsimp only
  rw [hlabel, hslot, hflag, if_neg Bool.false_ne_true]
  split
  · decide
  rw [if_pos (Or.inr rfl)]
  split
  · decide
  split
  · decide
  split
  · decide
  · decide

theorem holds_containerSpots : ∀ c ∈ p.containerSpots, p.Holds c := by
  refine (subContainers fun _ => true).forall_order (fun c hc => ?_)
    fun c hc d hd => hc.of_mem_itemlist (List.mem_filter.mp hd).1
  obtain ⟨t, ht, rfl⟩ := List.mem_map.mp hc
  obtain ⟨slot, hslot, hinventory⟩ := List.mem_filterMap.mp (List.mem_filter.mp ht).1
  obtain ⟨hfirst, hlast⟩ : 1 ≤ slot ∧ slot < 12 := List.mem_range'_1.mp hslot
  exact ⟨slot, hfirst, Nat.le_of_lt_succ hlast, hinventory⟩

theorem holds_placeOf {ref : Nat} {c : Spot} (h : p.placeOf ref = some c) : p.Holds c :=
  holds_containerSpots c (List.mem_of_find?_eq_some h)

/-- An index that a call comes with. -/
def Open (target : Target) (index : Int) : Prop := index = INDEX_WHEREEVER ∨ target = .player ∧ index = 0

theorem queryDestinationAt_spec {target : Target} {index : Int} (hindex : Open target index) {destCylinder : Place}
    (h : p.cylinderAt target = some destCylinder) :
    p.Found (p.queryDestinationAt s (arrival item) destCylinder index 0) ∧
      p.Suits item (p.queryDestinationAt s (arrival item) destCylinder index 0) := by
  cases target with
  | player =>
    rw [← Option.some.inj h]
    exact ⟨queryDestination_found _ _ _, queryDestination_suits (hindex.symm.imp And.right id)⟩
  | container ref =>
    obtain ⟨c, hc, rfl⟩ := Option.map_eq_some_iff.mp h
    obtain rfl : index = INDEX_WHEREEVER := by
      rcases hindex with hindex | ⟨hplayer, -⟩
      · exact hindex
      · cases hplayer
    obtain ⟨hnext, hstacks⟩ := queryDestination_here c (arrival item)
    have hstays := queryDestination_stays (holds_placeOf hc) (arrival item) 0 INDEX_WHEREEVER not_some_mem_held
    rw [queryDestinationAt, hnext, Option.getD_none]
    exact ⟨found_container (holds_placeOf hc) _ hstays.destItem, fun t ht => (hstacks t ht).1, nofun⟩

theorem plan_join {target : Target} {index : Int} (hindex : Open target index) {found : Destination} {toItem : Thing}
    {m n : UInt32} (h : plan s p target item index = .join found toItem m n) :
    toItem ∈ p.held ∧ Stacks item toItem := by
  rw [plan] at h
  split at h
  · cases h
  rename_i destCylinder hcylinder
  obtain ⟨hfound, hsuits⟩ := @queryDestinationAt_spec s p item _ _ hindex _ hcylinder
  dsimp only at h
  split at h
  · split at h
    · cases h
    split at h
    · rename_i t hfilter
      obtain ⟨-, rfl, -, -⟩ := Plan.join.inj h
      have ht := (Option.filter_eq_some_iff.mp hfilter).1
      exact ⟨hfound.destItem t ht, hsuits.destItem t ht⟩
    · cases h
  · cases h

theorem plan_put {target : Target} {index : Int} (hindex : Open target index) {found : Destination}
    (h : plan s p target item index = .put found) :
    (∀ c, found.cylinder = .container c → p.Holds c) ∧
      (found.cylinder = .player → ∀ slot : Nat, (slot : Int) = found.index → p.inventory slot = none) := by
  rw [plan] at h
  split at h
  · cases h
  rename_i destCylinder hcylinder
  obtain ⟨hfound, hsuits⟩ := @queryDestinationAt_spec s p item _ _ hindex _ hcylinder
  dsimp only at h
  split at h
  · rename_i hadd
    split at h
    · cases h
    split at h
    · cases h
    · rename_i hfilter
      obtain rfl := Plan.put.inj h
      refine ⟨hfound.cylinder, fun hplayer slot hslot => ?_⟩
      have hnone : (p.queryDestinationAt s (arrival item) destCylinder index 0).destItem = none := by
        -- a stack that was found would have been joined
        by_contra hsome
        obtain ⟨t, ht⟩ := Option.ne_none_iff_exists'.mp hsome
        obtain ⟨hstackable, hequals, -⟩ := hsuits.destItem t ht
        rw [ht, Option.filter_some_pos (by rw [hstackable, hequals]; rfl)] at hfilter
        cases hfilter
      rw [hplayer] at hadd
      rcases hsuits.slot hplayer hnone with hzero | hnowhere | ⟨slot', hslot', hempty⟩
      · exact absurd hadd (queryAdd_nowhere (Or.inl hzero) _)
      · exact absurd hadd (queryAdd_nowhere (Or.inr hnowhere) _)
      · obtain rfl : slot = slot' := Int.ofNat.inj (hslot.trans hslot')
        exact hempty
  · cases h

end

/-! ### The cases of a call -/

section

variable {s : Setting} {p : Player} {target : Target} {item : Thing} {index : Int}

theorem plan_refuse {ret : ReturnValue} (h : plan s p target item index = .refuse ret) : ret ≠ .NOERROR := by
  rw [plan] at h
  split at h
  · rw [← Plan.refuse.inj h]
    exact nofun
  dsimp only at h
  split at h
  · split at h
    · rename_i hrefused
      rw [← Plan.refuse.inj h]
      exact hrefused.1
    split at h
    · cases h
    · cases h
  · rename_i hadd
    rw [← Plan.refuse.inj h]
    exact hadd

theorem internalAddItem_ret (fresh : Nat) :
    (internalAddItem s p target item index fresh).ret = (plan s p target item index).ret := by
  rw [internalAddItem]
  split
  · rename_i hplan
    rw [hplan]
    rfl
  · rename_i hplan
    rw [hplan]
    rfl
  · rename_i hplan
    rw [hplan]
    dsimp only
    split
    · rfl
    · split
      · rfl
      · rfl

theorem ret_ne_iff (fresh : Nat) :
    (internalAddItem s p target item index fresh).ret ≠ .NOERROR ↔ Refused s p target item index := by
  rw [internalAddItem_ret]
  constructor
  · intro hne
    cases hplan : plan s p target item index with
    | refuse ret => exact ⟨ret, hplan⟩
    | put found =>
      rw [hplan] at hne
      exact absurd rfl hne
    | join found toItem m n =>
      rw [hplan] at hne
      exact absurd rfl hne
  · rintro ⟨ret, hret⟩
    rw [hret]
    exact plan_refuse hret

theorem internalAddItem_refuse {ret : ReturnValue} (h : plan s p target item index = .refuse ret) (fresh : Nat) :
    internalAddItem s p target item index fresh = ⟨ret, p, fresh, 0⟩ := by
  rw [internalAddItem]
  split
  · rename_i hplan
    rw [Plan.refuse.inj (hplan.symm.trans h)]
  · rename_i hplan
    cases hplan.symm.trans h
  · rename_i hplan
    cases hplan.symm.trans h

theorem internalAddItem_put {found : Destination} (h : plan s p target item index = .put found) (fresh : Nat) :
    internalAddItem s p target item index fresh =
      ⟨.NOERROR, (p.addThing found.cylinder found.index (.node item [])).1, fresh, 0⟩ := by
  rw [internalAddItem]
  split
  · rename_i hplan
    cases hplan.symm.trans h
  · rename_i hplan
    rw [Plan.put.inj (hplan.symm.trans h)]
  · rename_i hplan
    cases hplan.symm.trans h

theorem internalAddItem_join {found : Destination} {toItem : Thing} {m n : UInt32}
    (h : plan s p target item index = .join found toItem m n) (hne : m - n ≠ item.getItemCount) (fresh : Nat) :
    internalAddItem s p target item index fresh =
      if m - n = 0 then ⟨.NOERROR, p.joined toItem n, fresh, 0⟩
      else
        let added := internalAddItem s (p.joined toItem n) target (remainderItem item (m - n) fresh) INDEX_WHEREEVER
          (fresh + 1)
        ⟨.NOERROR, added.player, added.fresh, if added.ret ≠ .NOERROR then m - n else 0⟩ := by
  rw [internalAddItem]
  split
  · rename_i hplan
    cases hplan.symm.trans h
  · rename_i hplan
    cases hplan.symm.trans h
  · rename_i hplan
    obtain ⟨rfl, rfl, rfl, rfl⟩ := Plan.join.inj (hplan.symm.trans h)
    dsimp only
    rw [dif_neg hne]

theorem whole_refuse {ret : ReturnValue} (h : plan s p target item index = .refuse ret) (fresh : Nat) :
    ¬ Whole s p target item index fresh := by
  rw [Whole]
  split
  · exact id
  · rename_i hplan
    cases hplan.symm.trans h
  · rename_i hplan
    cases hplan.symm.trans h

theorem whole_put {found : Destination} (h : plan s p target item index = .put found) (fresh : Nat) :
    Whole s p target item index fresh ↔ Takes found.cylinder found.index := by
  rw [Whole]
  split
  · rename_i hplan
    cases hplan.symm.trans h
  · rename_i hplan
    rw [Plan.put.inj (hplan.symm.trans h)]
  · rename_i hplan
    cases hplan.symm.trans h

theorem whole_join {found : Destination} {toItem : Thing} {m n : UInt32}
    (h : plan s p target item index = .join found toItem m n) (hne : m - n ≠ item.getItemCount) (fresh : Nat) :
    Whole s p target item index fresh ↔ m = item.getItemCount ∧ (m - n = 0 ∨
      Whole s (p.joined toItem n) target (remainderItem item (m - n) fresh) INDEX_WHEREEVER (fresh + 1)) := by
  rw [Whole]
  split
  · rename_i hplan
    cases hplan.symm.trans h
  · rename_i hplan
    cases hplan.symm.trans h
  · rename_i hplan
    obtain ⟨rfl, rfl, rfl, rfl⟩ := Plan.join.inj (hplan.symm.trans h)
    rw [dif_neg hne]

end

/-! ### What is added -/

/-- Pointers tell the items apart, and those from `fresh` on are free; the types are those of the ids. -/
structure Distinct (types : UInt16 → ThingType) (p : Player) (fresh : Nat) : Prop where
  refs : (p.held.map Thing.ref).Nodup
  typed : ∀ a ∈ p.held, a.type = types a.item.id
  below : ∀ a ∈ p.held, a.ref < fresh

/-- An item that is not in the inventory. -/
structure Comes (types : UInt16 → ThingType) (p : Player) (fresh : Nat) (item : Thing) : Prop where
  typed : item.type = types item.item.id
  apart : ∀ a ∈ p.held, a.ref ≠ item.ref
  below : item.ref < fresh
  pos : item.type.stackable = true → 0 < item.item.count.toNat

section

variable {types : UInt16 → ThingType} {s : Setting} {p : Player} {fresh : Nat} {item : Thing}

theorem Distinct.mono (h : p.Distinct types fresh) {fresh' : Nat} (hle : fresh ≤ fresh') : p.Distinct types fresh' :=
  ⟨h.refs, h.typed, fun a ha => Nat.lt_of_lt_of_le (h.below a ha) hle⟩

theorem Comes.piecesOf_pos (h : Comes types p fresh item) : 0 < piecesOf item := by
  rw [piecesOf]
  split
  · rename_i hstackable
    exact h.pos hstackable
  · exact Nat.one_pos

theorem put_spec (hp : p.Distinct types fresh) (hitem : Comes types p fresh item) {cylinder : Place} {index : Int}
    (hplace : ∀ c, cylinder = .container c → p.Holds c)
    (hempty : cylinder = .player → ∀ slot : Nat, (slot : Int) = index → p.inventory slot = none) :
    (p.addThing cylinder index (.node item [])).1.Distinct types fresh ∧ ∀ id,
      tally id (p.addThing cylinder index (.node item [])).1.held = tally id p.held +
        if (p.addThing cylinder index (.node item [])).2 = true then share id item else 0 := by
  have hheld := @addThing_held p hp.refs cylinder index (.node item [])
    (fun c hc => ⟨c.here.label, label_mem_held (hplace c hc), rfl⟩)
    (fun slot _ hplayer hindex => hempty hplayer slot hindex)
  generalize p.addThing cylinder index (.node item []) = added at hheld ⊢
  obtain ⟨q, put⟩ := added
  dsimp only at hheld ⊢
  cases put with
  | false =>
    -- `addThing` has returned at once
    rw [if_neg Bool.false_ne_true, List.nil_append] at hheld
    refine ⟨⟨(hheld.map _).nodup_iff.mpr hp.refs, fun a ha => hp.typed a (hheld.subset ha),
      fun a ha => hp.below a (hheld.subset ha)⟩, fun id => ?_⟩
    rw [tally_perm hheld, if_neg Bool.false_ne_true, Nat.add_zero]
  | true =>
    rw [if_pos rfl, labels, labelsOf, List.singleton_append] at hheld
    refine ⟨⟨?_, fun a ha => ?_, fun a ha => ?_⟩, fun id => ?_⟩
    · rw [(hheld.map _).nodup_iff, List.map_cons, List.nodup_cons]
      refine ⟨fun hmem => ?_, hp.refs⟩
      obtain ⟨a, ha, hsame⟩ := List.mem_map.mp hmem
      exact hitem.apart a ha hsame
    · rcases List.mem_cons.mp (hheld.subset ha) with rfl | ha
      · exact hitem.typed
      · exact hp.typed a ha
    · rcases List.mem_cons.mp (hheld.subset ha) with rfl | ha
      · exact hitem.below
      · exact hp.below a ha
    · rw [tally_perm hheld, tally_cons, if_pos rfl, Nat.add_comm]

theorem changed_spec (hp : p.Distinct types fresh) {t : Thing} (hmem : t ∈ p.held) {change : Thing → Thing}
    (href : (change t).ref = t.ref) (htype : (change t).type = t.type) (hid : (change t).item.id = t.item.id) :
    (p.changeItem t.ref fun t => some (change t)).Distinct types fresh ∧ ∀ id,
      tally id (p.changeItem t.ref fun t => some (change t)).held + share id t =
        tally id p.held + share id (change t) := by
  obtain ⟨c, hc, rfl⟩ := exists_holds hmem
  refine ⟨?_, fun id => hc.changeItem_tally hp.refs rfl⟩
  obtain ⟨rest, hheld, hchanged⟩ := hc.changeItem hp.refs
  have hleft := hchanged fun t => some (change t)
  rw [remains, Option.map_some, Option.toList_some, labelsOf_cons, labelsOf, List.append_nil, labels] at hleft
  rw [labels_eq] at hheld
  -- the item changes where it is, and so do the lists of the pointers and of the types
  refine ⟨?_, fun a ha => ?_, fun a ha => ?_⟩
  · have hrefs := (hheld.map Thing.ref).nodup_iff.mp hp.refs
    rw [List.cons_append, List.map_cons] at hrefs
    refine (hleft.map Thing.ref).nodup_iff.mpr ?_
    rw [List.cons_append, List.map_cons, href]
    exact hrefs
  · rcases List.mem_cons.mp (hleft.subset ha) with rfl | ha
    · rw [htype, hid]
      exact hp.typed c.here.label hmem
    · exact hp.typed a (hheld.symm.subset (List.mem_cons_of_mem _ ha))
  · rcases List.mem_cons.mp (hleft.subset ha) with rfl | ha
    · rw [href]
      exact hp.below c.here.label hmem
    · exact hp.below a (hheld.symm.subset (List.mem_cons_of_mem _ ha))

theorem joined_spec (hp : p.Distinct types fresh) (hitem : Comes types p fresh item) {toItem : Thing}
    (hmem : toItem ∈ p.held) (hstacks : Stacks item toItem) {n : UInt32}
    (hn : n.toNat ≤ 100 - toItem.item.count.toNat) :
    (p.joined toItem n).Distinct types fresh ∧ ∀ id,
      tally id (p.joined toItem n).held = tally id p.held + if item.item.id = id then n.toNat else 0 := by
  have hid : item.item.id = toItem.item.id := id_of_equals hstacks.equals
  have hstackable : toItem.type.stackable = true := by
    rw [hp.typed toItem hmem, ← hid, ← hitem.typed]
    exact hstacks.stackable
  have hlt := UInt32.lt_iff_toNat_lt.mp hstacks.count_lt
  rw [toNat_getItemCount] at hlt
  have hcap : (100 : UInt32).toNat = 100 := rfl
  have hsum : (toItem.getItemCount + n).toNat = toItem.item.count.toNat + n.toNat := by
    rw [UInt32.toNat_add, toNat_getItemCount]
    omega
  obtain ⟨hdistinct, htally⟩ := @changed_spec types p fresh hp toItem hmem
    (fun t => t.setItemCount (t.getItemCount + n)) rfl rfl rfl
  refine ⟨hdistinct, fun id => ?_⟩
  have hleft := htally id
  rw [share_of_stackable hstackable, share_setItemCount hstackable (by omega), hsum, ← hid] at hleft
  show tally id (p.changeItem _ _).held = _
  by_cases hsame : item.item.id = id
  · rw [if_pos hsame, if_pos hsame] at hleft
    rw [if_pos hsame]
    omega
  · rw [if_neg hsame, if_neg hsame] at hleft
    rw [if_neg hsame]
    omega

theorem join_pos (hitem : Comes types p fresh item) {toItem : Thing} (hstacks : Stacks item toItem) {m n : UInt32}
    (hm : m ≤ item.getItemCount) (hn : n = min (100 - toItem.getItemCount) m) :
    n.toNat ≤ 100 - toItem.item.count.toNat ∧ n ≤ m ∧ m - n ≠ item.getItemCount := by
  have hlt := UInt32.lt_iff_toNat_lt.mp hstacks.count_lt
  rw [toNat_getItemCount] at hlt
  have hcap : (100 : UInt32).toNat = 100 := rfl
  have hle : n ≤ m := hn ▸ min_le_right _ _
  refine ⟨hn ▸ toNat_min_sub_le toItem (by omega) m, hle, fun heq => ?_⟩
  have hpos := hitem.pos hstacks.stackable
  have hsub := UInt32.toNat_sub_of_le m n hle
  have hm' := UInt32.le_iff_toNat_le.mp hm
  rw [heq] at hsub
  rw [toNat_getItemCount] at hsub hm'
  -- all of the item would be left, so that nothing would have joined
  have hzero : n.toNat = 0 := by omega
  have hroom : (100 - toItem.getItemCount).toNat = 100 - toItem.item.count.toNat := by
    rw [UInt32.toNat_sub_of_le _ _ (UInt32.le_of_lt hstacks.count_lt), toNat_getItemCount]
    rfl
  rw [hn] at hzero
  change (if 100 - toItem.getItemCount ≤ m then 100 - toItem.getItemCount else m).toNat = 0 at hzero
  split at hzero
  · omega
  · omega

theorem comes_remainder (hp : p.Distinct types fresh) (htyped : item.type = types item.item.id)
    (hstackable : item.type.stackable = true) {count : UInt32} (hpos : count ≠ 0) (hlt : count.toNat < 256) :
    Comes types p (fresh + 1) (remainderItem item count fresh) ∧
      piecesOf (remainderItem item count fresh) = count.toNat := by
  have hcount : (remainderItem item count fresh).item.count.toNat = count.toNat := toNat_setItemCount _ hlt
  refine ⟨⟨htyped, fun a ha => Nat.ne_of_lt (hp.below a ha), Nat.lt_succ_self fresh, fun _ => ?_⟩, ?_⟩
  · rw [hcount]
    exact Nat.pos_of_ne_zero fun hzero => hpos (UInt32.toNat_inj.mp hzero)
  · rw [piecesOf, if_pos (show (remainderItem item count fresh).type.stackable = true from hstackable), hcount]

/-- What holds where `n` pieces of an item join a stack, of the `m` that go to a place. -/
structure Joins (types : UInt16 → ThingType) (p : Player) (fresh : Nat) (item toItem : Thing) (m n : UInt32) :
    Prop where
  stackable : item.type.stackable = true
  ne : m - n ≠ item.getItemCount
  lt : (m - n).toUInt8.toNat < item.item.count.toNat
  le : n.toNat ≤ m.toNat
  le_pieces : m.toNat ≤ piecesOf item
  lt_byte : m.toNat < 256
  sub : (m - n).toNat = m.toNat - n.toNat
  all_iff : m = item.getItemCount ↔ m.toNat = piecesOf item
  distinct : (p.joined toItem n).Distinct types fresh
  self : tally item.item.id (p.joined toItem n).held = tally item.item.id p.held + n.toNat
  others : ∀ id ≠ item.item.id, tally id (p.joined toItem n).held = tally id p.held
  rest : m - n ≠ 0 → Comes types (p.joined toItem n) (fresh + 1) (remainderItem item (m - n) fresh) ∧
    piecesOf (remainderItem item (m - n) fresh) = (m - n).toNat

theorem plan_joins (hp : p.Distinct types fresh) (hitem : Comes types p fresh item) {target : Target} {index : Int}
    (hindex : Open target index) {found : Destination} {toItem : Thing} {m n : UInt32}
    (h : plan s p target item index = .join found toItem m n) : Joins types p fresh item toItem m n := by
  obtain ⟨hm, hn⟩ := join_le_count s p h
  obtain ⟨hmem, hstacks⟩ := plan_join hindex h
  obtain ⟨hroom, hle, hne⟩ := join_pos hitem hstacks hm hn
  obtain ⟨hdistinct, htally⟩ := joined_spec hp hitem hmem hstacks hroom
  have hpieces : piecesOf item = item.item.count.toNat := if_pos hstacks.stackable
  have hsub := UInt32.toNat_sub_of_le m n hle
  have hle' := UInt32.le_iff_toNat_le.mp hle
  have hm' := UInt32.le_iff_toNat_le.mp hm
  rw [toNat_getItemCount] at hm'
  have hbyte := item.item.count.toNat_lt
  exact {
    stackable := hstacks.stackable
    ne := hne
    lt := remainder_lt hm hle hne
    le := hle'
    le_pieces := hpieces ▸ hm'
    lt_byte := Nat.lt_of_le_of_lt hm' hbyte
    sub := hsub
    all_iff := by rw [← UInt32.toNat_inj, toNat_getItemCount, hpieces]
    distinct := hdistinct
    self := by rw [htally, if_pos rfl]
    others := fun id hid => by rw [htally, if_neg hid.symm, Nat.add_zero]
    rest := fun hzero => comes_remainder hdistinct hitem.typed hstacks.stackable hzero (by omega) }

/-- What a call leaves of an item that is added. -/
structure Adds (types : UInt16 → ThingType) (p : Player) (fresh : Nat) (item : Thing) (added : Added) : Prop where
  fresh_le : fresh ≤ added.fresh
  distinct : added.player.Distinct types added.fresh
  refused : added.ret ≠ .NOERROR → added.player = p ∧ added.remainderCount = 0
  remainder : added.remainderCount ≠ 0 → item.type.stackable = true ∧ added.remainderCount.toNat < 256
  le : tally item.item.id added.player.held + added.remainderCount.toNat ≤ tally item.item.id p.held + piecesOf item
  others : ∀ id ≠ item.item.id, tally id added.player.held = tally id p.held

theorem share_self (a : Thing) : share a.item.id a = piecesOf a := if_pos rfl

theorem share_of_ne {a : Thing} {id : UInt16} (h : id ≠ a.item.id) : share id a = 0 := if_neg h.symm

theorem adds_put (hp : p.Distinct types fresh) (hitem : Comes types p fresh item) {target : Target} {index : Int}
    (hindex : Open target index) {found : Destination} (hplan : plan s p target item index = .put found) :
    Adds types p fresh item (internalAddItem s p target item index fresh) ∧
      (Whole s p target item index fresh ↔
        tally item.item.id (internalAddItem s p target item index fresh).player.held =
          tally item.item.id p.held + piecesOf item) := by
  have hpos := hitem.piecesOf_pos
  obtain ⟨hplace, hempty⟩ := plan_put hindex hplan
  obtain ⟨hdistinct, htally⟩ := @put_spec types p fresh item hp hitem _ found.index hplace hempty
  have hself := htally item.item.id
  rw [share_self] at hself
  rw [internalAddItem_put hplan, whole_put hplan, ← p.addThing_snd found.cylinder found.index (.node item [])]
  refine ⟨⟨Nat.le_refl _, hdistinct, fun hne => absurd rfl hne, fun hne => absurd rfl hne, ?_, fun id hid => ?_⟩, ?_⟩
  · show tally item.item.id _ + 0 ≤ _
    rw [hself]
    split
    · exact Nat.le_refl _
    · omega
  · rw [htally id, share_of_ne hid, ite_self, Nat.add_zero]
  · dsimp only
    rw [hself]
    split
    · rename_i hput
      exact iff_of_true hput rfl
    · rename_i hlost
      exact iff_of_false hlost (by omega)

/-- **Nothing is doubled, and nothing is lost where all of an item ends up in the inventory.** -/
theorem internalAddItem_spec (hp : p.Distinct types fresh) (hitem : Comes types p fresh item) {target : Target}
    {index : Int} (hindex : Open target index) :
    Adds types p fresh item (internalAddItem s p target item index fresh) ∧
      (Whole s p target item index fresh ↔
        tally item.item.id (internalAddItem s p target item index fresh).player.held =
          tally item.item.id p.held + piecesOf item) := by
  -- a call that adds what is left over has less to add
  induction hcount : item.item.count.toNat using Nat.strong_induction_on generalizing p fresh item index with
  | _ k ih =>
    have hpos := hitem.piecesOf_pos
    cases hplan : plan s p target item index with
    | refuse ret =>
      rw [internalAddItem_refuse hplan]
      refine ⟨⟨Nat.le_refl _, hp, fun _ => ⟨rfl, rfl⟩, fun hne => absurd rfl hne, Nat.le_add_right _ _,
        fun _ _ => rfl⟩, ?_⟩
      exact iff_of_false (whole_refuse hplan fresh) (by dsimp only; omega)
    | put found => exact adds_put hp hitem hindex hplan
    | join found toItem m n =>
      obtain ⟨hstackable, hne, hlt, hle, hle', hbyte, hsub, hall, hdistinct, hself, hothers, hrest⟩ :=
        plan_joins hp hitem hindex hplan
      rw [internalAddItem_join hplan hne, whole_join hplan hne, hall]
      by_cases hzero : m - n = 0
      · -- everything that counts has joined the stack
        rw [if_pos hzero]
        rw [hzero, UInt32.toNat_zero] at hsub
        refine ⟨⟨Nat.le_refl _, hdistinct, fun hne => absurd rfl hne, fun hne => absurd rfl hne, ?_, hothers⟩, ?_⟩
        · show tally item.item.id (p.joined toItem n).held + 0 ≤ _
          omega
        · change _ ↔ tally item.item.id (p.joined toItem n).held = _
          rw [and_iff_left (Or.inl hzero)]
          omega
      · -- what is left over is an item of its own, with fewer pieces
        rw [if_neg hzero]
        obtain ⟨hcomes, hpieces⟩ := hrest hzero
        obtain ⟨⟨hfresh, hdistinct', hrefused, -, hatMost, hothers'⟩, hwhole⟩ :=
          ih _ (hcount ▸ hlt) (hdistinct.mono (Nat.le_succ fresh)) hcomes (Or.inl rfl) rfl
        have hid : (remainderItem item (m - n) fresh).item.id = item.item.id := rfl
        rw [hid, hpieces] at hwhole hatMost
        rw [hid] at hothers'
        rw [or_iff_right hzero, hwhole]
        generalize internalAddItem s (p.joined toItem n) target (remainderItem item (m - n) fresh) INDEX_WHEREEVER
          (fresh + 1) = added at hfresh hdistinct' hrefused hatMost hothers' ⊢
        refine ⟨⟨Nat.le_trans (Nat.le_succ fresh) hfresh, hdistinct', fun hne => absurd rfl hne,
          fun _ => ⟨hstackable, ?_⟩, ?_, fun id hid => (hothers' id hid).trans (hothers id hid)⟩, ?_⟩
        · show (if added.ret ≠ .NOERROR then m - n else 0).toNat < 256
          split
          · omega
          · exact Nat.succ_pos 255
        · -- what the call could not add is told, and it has added nothing then
          show tally item.item.id added.player.held + (if added.ret ≠ .NOERROR then m - n else 0).toNat ≤ _
          split
          · rename_i hret
            rw [(hrefused hret).1]
            omega
          · rw [UInt32.toNat_zero]
            omega
        · show _ ↔ tally item.item.id added.player.held = _
          omega

/-- **An item is kept when the pieces in the inventory, those that the call leaves over and the item that it turns down
are as many as there were.** -/
theorem kept_iff (hp : p.Distinct types fresh) (hitem : Comes types p fresh item) {added : Added}
    (hadded : internalAddItem s p .player item 0 fresh = added) :
    Kept s p item fresh ↔ tally item.item.id added.player.held + added.remainderCount.toNat +
      (if added.ret ≠ .NOERROR then piecesOf item else 0) = tally item.item.id p.held + piecesOf item := by
  have hindex : Open .player 0 := Or.inr ⟨rfl, rfl⟩
  cases hplan : plan s p .player item 0 with
  | refuse ret =>
    rw [Kept, hplan, ← hadded, internalAddItem_refuse hplan]
    exact iff_of_true trivial (by rw [if_pos (plan_refuse hplan)]; rfl)
  | put found =>
    obtain ⟨-, hwhole⟩ := @internalAddItem_spec types s p fresh item hp hitem .player 0 hindex
    rw [whole_put hplan, hadded] at hwhole
    rw [Kept, hplan]
    refine hwhole.trans ?_
    rw [← hadded, internalAddItem_put hplan, if_neg fun hne => hne rfl]
    rfl
  | join found toItem m n =>
    obtain ⟨-, hne, -, hle, hle', -, hsub, hall, hdistinct, hself, -, hrest⟩ := plan_joins hp hitem hindex hplan
    rw [Kept, hplan]
    rw [internalAddItem_join hplan hne] at hadded
    dsimp only at hadded ⊢
    rw [hall]
    by_cases hzero : m - n = 0
    · rw [if_pos hzero] at hadded
      rw [hzero, UInt32.toNat_zero] at hsub
      rw [← hadded, and_iff_left (Or.inl hzero)]
      show _ ↔ tally item.item.id (p.joined toItem n).held + 0 + 0 = _
      omega
    · rw [if_neg hzero] at hadded
      obtain ⟨hcomes, hpieces⟩ := hrest hzero
      have hlater := hdistinct.mono (Nat.le_succ fresh)
      obtain ⟨⟨-, -, hrefused, -, hatMost, -⟩, hwhole⟩ :=
        @internalAddItem_spec types s _ _ _ hlater hcomes .player _ (Or.inl rfl)
      have hid : (remainderItem item (m - n) fresh).item.id = item.item.id := rfl
      rw [hid, hpieces] at hwhole hatMost
      rw [or_iff_right hzero, hwhole, ← ret_ne_iff (fresh + 1), ← hadded]
      generalize internalAddItem s (p.joined toItem n) .player (remainderItem item (m - n) fresh) INDEX_WHEREEVER
        (fresh + 1) = later at hrefused hatMost ⊢
      show _ ↔ tally item.item.id later.player.held + (if later.ret ≠ .NOERROR then m - n else 0).toNat + 0 = _
      by_cases hret : later.ret ≠ .NOERROR
      · rw [if_pos hret, (hrefused hret).1, and_iff_left (Or.inl hret)]
        omega
      · rw [if_neg hret, or_iff_right hret, UInt32.toNat_zero]
        omega

end

end Player

end Cylinders

end Moonlight
