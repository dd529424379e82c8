import Moonlight.Creatures.QueryMaxCount

/-!
# The transfer of a trade

Once both players have accepted, `Game::playerAcceptTrade` (game/game.cpp) tries out whether each would take what the
other offers, with `internalAddItem` and `internalRemoveItem` in test mode, and then moves the two items, one after the
other, with `internalMoveItem`. The tests let an item join stacks that are there, and the moves do not
(`FLAG_IGNOREAUTOSTACK`). A move takes along no more than fits in the one place that it finds, and nobody looks at the
result of the second.

Whether an item can leave where it is depends on nothing but itself, since all cylinders have the same `queryRemove`. So
a move is decided by the player who receives (`Player.verdict`), and `allOrNothing_iff` says when both moves together
leave nothing halfway: where nothing of the first item moves, or where the players take all of both, the second
player with the first item gone.
-/

namespace Moonlight

namespace Cylinders

open RoseTree

/-! ### Moving an item -/

abbrev ITEM_REWARD_CONTAINER : UInt16 := 19202

/-- `queryRemove`, of the cylinder that the item is in. -/
def queryRemove (item : Thing) (count flags : UInt32) : ReturnValue :=
  if count = 0 ∨ (item.type.stackable = true ∧ count > item.getItemCount) then .NOTPOSSIBLE
  else if !item.type.moveable && !hasBitSet FLAG_IGNORENOTMOVEABLE flags then .NOTMOVEABLE
  else .NOERROR

/-- The tests of `internalMoveItem` end it, or so many pieces move. -/
inductive Verdict where
  | stops (ret : ReturnValue)
  | moves (dest : Player.Resolved) (m : UInt32) (ret : ReturnValue)

/-- The cylinder is the item on the other side, or in it. -/
def isIn (tradeItem : Nat) : Place → Bool
  | .player => false
  | .container c => c.here.label.ref == tradeItem || c.chain.any (·.isThing tradeItem)

/-- The pieces of an item. -/
def pieces (item : RoseTree Thing) : Nat := if item.label.type.stackable then item.label.item.count.toNat else 1

namespace Thing

def setItemCount (t : Thing) (n : UInt32) : Thing := { t with item := { t.item with count := n.toUInt8 } }

end Thing

mutual

/-- A tree in which an item below the root is changed, or removed. -/
def changeBelow (ref : Nat) (change : Thing → Option Thing) : RoseTree Thing → RoseTree Thing
  | .node a ts => .node a (changeIn ref change ts)

def changeIn (ref : Nat) (change : Thing → Option Thing) : List (RoseTree Thing) → List (RoseTree Thing)
  | [] => []
  | t :: ts =>
    if t.label.ref = ref then ((change t.label).map (.node · t.children)).toList ++ changeIn ref change ts
    else changeBelow ref change t :: changeIn ref change ts

end

mutual

/-- A tree in which something is put in a container, at the front. -/
def insertAt (ref : Nat) (item : RoseTree Thing) : RoseTree Thing → RoseTree Thing
  | .node a ts => if a.ref = ref then .node a (item :: ts) else .node a (insertIn ref item ts)

def insertIn (ref : Nat) (item : RoseTree Thing) : List (RoseTree Thing) → List (RoseTree Thing)
  | [] => []
  | t :: ts => insertAt ref item t :: insertIn ref item ts

end

namespace Player

variable (s : Setting) (p : Player)

/-- Everything in the inventory. -/
def held : List Thing :=
  (List.range' CONST_SLOT_FIRST (CONST_SLOT_LAST + 1 - CONST_SLOT_FIRST)).flatMap fun slot =>
    ((p.inventory slot).map labels).getD []

/-- The inventory with an item changed, or removed. -/
def changeItem (ref : Nat) (change : Thing → Option Thing) : Player :=
  { p with inventory := fun slot =>
      (p.inventory slot).bind fun t =>
        if t.label.ref = ref then (change t.label).map (.node · t.children) else some (changeBelow ref change t) }

/-- `removeThing`. -/
def removeThing (item : Thing) (count : UInt32) : Player :=
  p.changeItem item.ref fun t =>
    if item.type.stackable ∧ count ≠ item.getItemCount then some (t.setItemCount (item.getItemCount - count)) else none

/-- `addThing` of a cylinder of the player, and whether the item is put in. -/
def addThing (cylinder : Place) (index : Int) (item : RoseTree Thing) : Player × Bool :=
  match cylinder with
  | .player =>
    if index < CONST_SLOT_FIRST ∨ index > CONST_SLOT_LAST then (p, false)
    else ({ p with inventory := fun slot => if (slot : Int) = index then some item else p.inventory slot }, true)
  | .container c =>
    if index ≥ toIndex c.capacity then (p, false)
    else ({ p with inventory := fun slot => (p.inventory slot).map (insertAt c.here.label.ref item) }, true)

/-- What decides a move: where the item goes, and how many pieces of it. -/
def verdict (item : Arrival) (count flags : UInt32) (tradeItem : Option Nat) : Verdict :=
  let thing := item.thing.label
  let dest := p.resolve s item flags INDEX_WHEREEVER
  if dest.toItem.any (·.ref == thing.ref) then .stops .NOERROR
  else
    match p.queryAddAt s item dest.toCylinder dest.index count dest.flags with
    | .NOERROR =>
      let (retMaxCount, maxQueryCount) := p.queryMaxCountAt s item dest.toCylinder dest.index count dest.flags
      if retMaxCount ≠ .NOERROR ∧ maxQueryCount = 0 then .stops retMaxCount
      else
        let m := if thing.type.stackable then min count maxQueryCount else maxQueryCount
        match queryRemove thing m dest.flags with
        | .NOERROR =>
          if tradeItem.any fun tradeItem => isIn tradeItem dest.toCylinder then .stops .NOTENOUGHROOM
          else .moves dest m (if thing.type.stackable ∧ maxQueryCount < count then retMaxCount else .NOERROR)
        | ret => .stops ret
    | ret => .stops ret

/-- The pieces that fit on the stack at the destination join it. -/
def join (item : Thing) (dest : Resolved) (m : UInt32) : Player × UInt32 :=
  match dest.toItem.filter fun toItem => item.item.equals toItem.item with
  | some toItem =>
    let n := min (100 - toItem.getItemCount) m
    (p.changeItem toItem.ref fun t => some (t.setItemCount (t.getItemCount + n)), n)
  | none => (p, 0)

/-- The item is put in, of a stack what did not join another; `clone` points to that. The number is that of the pieces
that the player then has. -/
def receive (item : RoseTree Thing) (dest : Resolved) (m : UInt32) (clone : Nat) : Player × Nat :=
  if item.label.type.stackable then
    let (updated, n) := p.join item.label dest m
    let newCount := m - n
    if newCount = 0 then (updated, n.toNat)
    else
      let moveItem := { item.label with ref := clone }.setItemCount newCount
      let (added, put) := updated.addThing dest.toCylinder dest.index (.node moveItem [])
      (added, n.toNat + if put then newCount.toNat else 0)
  else
    let (added, put) := p.addThing dest.toCylinder dest.index item
    (added, if put then 1 else 0)

end Player

/-- The pieces of an offered item that are where they were, and those that the other player has. -/
structure Custody where
  stays : Nat
  comes : Nat
  deriving DecidableEq, Repr

/-- What `internalMoveItem` leaves behind. -/
structure Moved where
  ret : ReturnValue
  receiver : Player
  giver : Player
  custody : Custody

section

variable (s : Setting)

/-- `Game::internalMoveItem`, from wherever an item of the giver is to the receiver. `NEEDEXCHANGE` does not come up
where items are not stacked (`queryAddAt_ne_needexchange`). -/
def internalMoveItem (receiver giver : Player) (item : RoseTree Thing) (count flags : UInt32) (tradeItem : Option Nat)
    (clone : Nat) : Moved :=
  match receiver.verdict s { thing := item } count flags tradeItem with
  | .stops ret => ⟨ret, receiver, giver, ⟨if item.label.type.stackable then count.toNat else 1, 0⟩⟩
  | .moves dest m ret =>
    let (received, comes) := receiver.receive item dest m clone
    ⟨ret, received, giver.removeThing item.label m,
      ⟨if item.label.type.stackable then count.toNat - m.toNat else 0, comes⟩⟩

/-- `Game::internalAddItem`, in test mode. -/
def internalAddItem (p : Player) (item : RoseTree Thing) : ReturnValue :=
  let arrival : Arrival := { thing := item }
  let count := item.label.getItemCount
  let found := (p.queryDestination s arrival 0 INDEX_WHEREEVER none).1
  match p.queryAddAt s arrival found.cylinder found.index count 0 with
  | .NOERROR =>
    let ret := (p.queryMaxCount s arrival 0 INDEX_WHEREEVER count).1
    match found.cylinder with
    | .player => .NOERROR
    | .container c => if c.here.label.item.id ≠ ITEM_REWARD_CONTAINER then ret else .NOERROR
  | ret => ret

/-- `Game::internalRemoveItem`, in test mode. -/
def internalRemoveItem (item : Thing) : ReturnValue :=
  match queryRemove item item.getItemCount FLAG_IGNORENOTMOVEABLE with
  | .NOERROR => if item.canRemove then .NOERROR else .NOTPOSSIBLE
  | ret => ret

end

/-! ### The transfer -/

/-- A trade that both players have accepted. The items on offer may be anywhere but with the other player. The clones
are what a stack is split into. -/
structure Deal where
  player : Player
  tradePartner : Player
  tradeItem1 : RoseTree Thing
  tradeItem2 : RoseTree Thing
  clone1 : Nat
  clone2 : Nat
  offers1 : player.tradeItem = some tradeItem1.label.ref
  offers2 : tradePartner.tradeItem = some tradeItem2.label.ref
  apart1 : ∀ t ∈ tradePartner.held, t.ref ≠ tradeItem1.label.ref
  apart2 : ∀ t ∈ player.held, t.ref ≠ tradeItem2.label.ref

structure Outcome where
  player : Player
  tradePartner : Player
  first : Custody
  second : Custody

namespace Deal

variable (s : Setting) (d : Deal)

/-- The second item, with the count that it has where it is with the player. -/
def secondItem (p : Player) : RoseTree Thing :=
  match p.held.find? (·.ref == d.tradeItem2.label.ref) with
  | some t => .node (d.tradeItem2.label.setItemCount t.getItemCount) d.tradeItem2.children
  | none => d.tradeItem2

/-- The script lets the trade go on, and nothing stands against it in the tests. -/
def Tested (onTradeAccept : Bool) : Prop :=
  onTradeAccept = true ∧
    (internalAddItem s d.tradePartner d.tradeItem1 = .NOERROR ∧ internalAddItem s d.player d.tradeItem2 = .NOERROR) ∧
    internalRemoveItem d.tradeItem1.label = .NOERROR ∧ internalRemoveItem d.tradeItem2.label = .NOERROR

instance (onTradeAccept : Bool) : Decidable (d.Tested s onTradeAccept) := inferInstanceAs (Decidable (_ ∧ _))

/-- The transfer of `Game::playerAcceptTrade`. -/
def playerAcceptTrade (onTradeAccept : Bool) : Outcome :=
  let stays2 : Custody := ⟨pieces d.tradeItem2, 0⟩
  if d.Tested s onTradeAccept then
    let count1 := d.tradeItem1.label.getItemCount
    let count2 := d.tradeItem2.label.getItemCount
    let first := internalMoveItem s d.tradePartner d.player d.tradeItem1 count1 FLAG_IGNOREAUTOSTACK
      (some d.tradeItem2.label.ref) d.clone1
    if first.ret = .NOERROR then
      -- the result of the second move is dropped
      let second := internalMoveItem s first.giver first.receiver (d.secondItem first.receiver) count2
        FLAG_IGNOREAUTOSTACK none d.clone2
      ⟨second.receiver, second.giver, first.custody, second.custody⟩
    else ⟨first.giver, first.receiver, first.custody, stays2⟩
  else ⟨d.player, d.tradePartner, ⟨pieces d.tradeItem1, 0⟩, stays2⟩

/-- Each has all of what the other offered, or everything is where it was. -/
def AllOrNothing (o : Outcome) : Prop :=
  (o.first = ⟨0, pieces d.tradeItem1⟩ ∧ o.second = ⟨0, pieces d.tradeItem2⟩) ∨
    (o.first = ⟨pieces d.tradeItem1, 0⟩ ∧ o.second = ⟨pieces d.tradeItem2, 0⟩)

end Deal

/-! ### Where a player finds things -/

namespace Player

variable {s : Setting} {p : Player}

/-- The place is in the inventory. -/
def Holds (p : Player) (c : Spot) : Prop :=
  ∃ slot, CONST_SLOT_FIRST ≤ slot ∧ slot ≤ CONST_SLOT_LAST ∧ p.inventory slot = some (plug c.here c.above)

theorem label_mem_held {c : Spot} (h : p.Holds c) : c.here.label ∈ p.held := by
  obtain ⟨slot, hfirst, hlast, hslot⟩ := h
  refine List.mem_flatMap.mpr ⟨slot, List.mem_range'_1.mpr ⟨hfirst, by omega⟩, ?_⟩
  rw [hslot]
  exact (plug_perm c.here c.above).mem_iff.mpr (List.mem_append_left _ (label_mem_labels c.here))

theorem Holds.of_mem_itemlist {c t : Spot} (h : p.Holds c) (ht : t ∈ c.itemlist) : p.Holds t := by
  have hplaces (before after : List (RoseTree Thing)) (ht : t ∈ c.places before after) :
      plug t.here t.above = plug (.node c.here.label (before ++ after)) c.above := by
    induction after generalizing before with
    | nil => cases ht
    | cons u after ih =>
      rcases List.mem_cons.mp ht with rfl | ht
      · rfl
      · rw [ih _ ht, List.append_assoc, List.singleton_append]
  obtain ⟨slot, hfirst, hlast, hslot⟩ := h
  have hnode : RoseTree.node c.here.label ([] ++ c.here.children) = c.here := by
    cases c.here
    rfl
  exact ⟨slot, hfirst, hlast, by rw [hslot, hplaces _ _ ht, hnode]⟩

theorem Holds.up {c : Spot} (h : p.Holds c) (level : Nat) : p.Holds (c.up level) := by
  obtain ⟨slot, hfirst, hlast, hslot⟩ := h
  refine ⟨slot, hfirst, hlast, ?_⟩
  rw [hslot, Spot.up, Spot.tree, ← plug_append, List.take_append_drop]

theorem Holds.children {c : Spot} (h : p.Holds c) {t : Thing} (ht : t ∈ c.here.children.map label) : t ∈ p.held := by
  rw [← c.map_here_itemlist, List.map_map] at ht
  obtain ⟨d, hd, rfl⟩ := List.mem_map.mp ht
  exact label_mem_held (h.of_mem_itemlist hd)

theorem holds_slot {slot : Nat} {t : RoseTree Thing} (hslot : slot ∈ slots) (h : p.inventory slot = some t) :
    p.Holds ⟨t, [], .player⟩ := by
  obtain ⟨hfirst, hlast⟩ := List.mem_range'_1.mp hslot
  exact ⟨slot, hfirst, Nat.le_of_lt hlast, h⟩

/-- A destination is in the inventory, with the item that is there. -/
structure Found (p : Player) (found : Destination) : Prop where
  cylinder : ∀ c, found.cylinder = .container c → p.Holds c
  destItem : ∀ t, found.destItem = some t → t ∈ p.held

theorem found_player (index : Int) {destItem : Option Thing} (h : ∀ t, destItem = some t → t ∈ p.held) :
    p.Found { cylinder := .player, index := index, destItem := destItem } := by
  refine ⟨fun c hc => ?_, h⟩
  cases hc

theorem found_container {c : Spot} (h : p.Holds c) (index : Int) {destItem : Option Thing}
    (hdest : ∀ t, destItem = some t → t ∈ p.held) :
    p.Found { cylinder := .container c, index := index, destItem := destItem } := by
  refine ⟨fun d hd => ?_, hdest⟩
  rw [← Place.container.inj hd]
  exact h

theorem not_some_mem_held (t : Thing) (h : none = some t) : t ∈ p.held := by
  cases h

theorem visitSlot_holds (item : Arrival) (flags : UInt32) {containers : List Spot} {slotIndex : Nat}
    (hslot : slotIndex ∈ slots) (h : ∀ c ∈ containers, p.Holds c) :
    (∀ containers', p.visitSlot s item flags containers slotIndex = .ok containers' → ∀ c ∈ containers', p.Holds c) ∧
      ∀ found, p.visitSlot s item flags containers slotIndex = .error found → p.Found found := by
  have hok {containers' : List Spot} (h' : ∀ c ∈ containers', p.Holds c) (visited : Except Destination (List Spot))
      (heq : visited = .ok containers') : (∀ l, visited = .ok l → ∀ c ∈ l, p.Holds c) ∧
        ∀ found, visited = .error found → p.Found found := by
    subst heq
    refine ⟨fun l hl => ?_, fun found hfound => ?_⟩
    · rw [← Except.ok.inj hl]
      exact h'
    · cases hfound
  have herror {d : Destination} (h' : p.Found d) (visited : Except Destination (List Spot)) (heq : visited = .error d) :
      (∀ l, visited = .ok l → ∀ c ∈ l, p.Holds c) ∧ ∀ found, visited = .error found → p.Found found := by
    subst heq
    refine ⟨fun l hl => ?_, fun found hfound => ?_⟩
    · cases hl
    · rw [← Except.error.inj hfound]
      exact h'
  cases hinventory : p.inventory slotIndex with
  | none =>
    simp only [visitSlot, hinventory]
    split
    · exact herror (found_player _ not_some_mem_held) _ rfl
    · exact hok h _ rfl
  | some t =>
    have hheld := holds_slot hslot hinventory
    simp only [visitSlot, hinventory]
    split
    · exact hok h _ rfl
    split
    · refine herror (found_player _ fun u hu => ?_) _ rfl
      rw [← Option.some.inj hu]
      exact label_mem_held hheld
    split
    · refine hok (fun c hc => ?_) _ rfl
      rcases List.mem_append.mp hc with hc | hc
      · exact h c hc
      · rw [List.mem_singleton.mp hc]
        exact hheld
    · exact hok h _ rfl

theorem stackLoop_mem (skips : Thing → Bool) (item : Thing) {n m : UInt32} {items : List Thing} {t : Thing}
    (h : stackLoop skips item n items = .error (m, t)) : t ∈ items := by
  induction items generalizing n with
  | nil => cases h
  | cons u items ih =>
    rw [stackLoop] at h
    split at h
    · exact List.mem_cons_of_mem _ (ih h)
    split at h
    · rw [← (Prod.mk.inj (Except.error.inj h)).2]
      exact List.mem_cons_self
    · exact List.mem_cons_of_mem _ (ih h)

theorem visit_found {item : Arrival} {flags : UInt32} {probes : Probes} {c : Spot} (h : p.Holds c)
    {found : Destination × Probes} (hfound : p.visit s item flags probes c = .error found) : p.Found found.1 := by
  simp only [visit] at hfound
  split at hfound
  · split at hfound
    · rw [← Except.error.inj hfound]
      exact found_container h _ not_some_mem_held
    · cases hfound
  split at hfound
  · rename_i n t hstack
    rw [← Except.error.inj hfound]
    refine found_container h _ fun u hu => ?_
    rw [← Option.some.inj hu]
    exact h.children (stackLoop_mem _ _ hstack)
  split at hfound
  · rw [← Except.error.inj hfound]
    exact found_container h _ not_some_mem_held
  · cases hfound

theorem queryDestination_found (item : Arrival) (flags : UInt32) (index : Int) :
    p.Found (p.queryDestination s item flags index none).1 := by
  have hslots := @Loops.foldlM_of_inv _ _ _ (p.visitSlot s item flags) (fun containers => ∀ c ∈ containers, p.Holds c)
    p.Found slots (fun _ _ hslot h => visitSlot_holds item flags hslot h) [] (fun c hc => absurd hc List.not_mem_nil)
  simp only [queryDestination]
  split
  · split
    · rename_i found hfound
      exact hslots.2 found hfound
    · rename_i containers hok
      have horder := (p.searched item flags).forall_order (hslots.1 containers hok)
        fun c hc d hd => hc.of_mem_itemlist (List.mem_filter.mp hd).1
      have hwalk := @Loops.foldlM_of_inv _ _ _ (p.visit s item flags) (fun _ => True) (fun found => p.Found found.1)
        ((p.searched item flags).order containers) (fun _ c hc _ => ⟨fun _ _ => trivial, fun _ h => visit_found (horder c hc) h⟩)
        [] trivial
      rw [BreadthFirst.search_eq]
      split
      · rename_i found hfound
        exact hwalk.2 found hfound
      · exact found_player index not_some_mem_held
  · split
    · exact found_player index not_some_mem_held
    · rename_i t ht
      have hheld : p.Holds ⟨t, [], .player⟩ := by
        split at ht
        · simp only [getInventoryItem] at ht
          split at ht
          · cases ht
          · rename_i hslot
            rw [not_or, Nat.not_lt, Nat.not_lt] at hslot
            exact ⟨_, hslot.1, hslot.2, ht⟩
        · cases ht
      split
      · exact found_container hheld _ not_some_mem_held
      · refine found_player _ fun u hu => ?_
        rw [← Option.some.inj hu]
        exact label_mem_held hheld

theorem findStack_mem {item : Thing} {n m : Nat} {items : List Thing} {t : Thing}
    (h : Spot.findStack item n items = some (m, t)) : t ∈ items := by
  induction items generalizing n with
  | nil => cases h
  | cons u items ih =>
    rw [Spot.findStack] at h
    split at h
    · rw [← (Prod.mk.inj (Option.some.inj h)).2]
      exact List.mem_cons_self
    · exact List.mem_cons_of_mem _ (ih h)

/-- A turn stays in the inventory. -/
structure Stays (p : Player) (turn : Spot.Turn) : Prop where
  next : ∀ c, turn.next = some c → p.Holds c
  destItem : ∀ t, turn.destItem = some t → t ∈ p.held

theorem stays_here {index : Int} {destItem : Option Thing} (h : ∀ t, destItem = some t → t ∈ p.held) :
    p.Stays { index := index, destItem := destItem } := by
  refine ⟨fun c hc => ?_, h⟩
  cases hc

theorem holds_parentContainer {c d : Spot} (h : p.Holds c) (hd : c.parentContainer = some d) : p.Holds d := by
  rw [Spot.parentContainer] at hd
  split at hd
  · rw [← Option.some.inj hd]
    exact h.up _
  · cases hd

theorem holds_getItemByIndex {c d : Spot} (h : p.Holds c) {index : Int} (hd : c.getItemByIndex index = some d) :
    p.Holds d := by
  rw [Spot.getItemByIndex] at hd
  split at hd
  · cases hd
  · exact h.of_mem_itemlist (List.mem_of_getElem? hd)

theorem queryDestination_stays {c : Spot} (h : p.Holds c) (item : Arrival) (flags : UInt32) (index : Int)
    {destItem : Option Thing} (hdest : ∀ t, destItem = some t → t ∈ p.held) :
    p.Stays (c.queryDestination item flags index destItem) := by
  simp only [Spot.queryDestination]
  split
  · exact stays_here not_some_mem_held
  split
  · exact ⟨fun d hd => holds_parentContainer h hd, not_some_mem_held⟩
  generalize hleaves : (decide (index = 255) || (decide (index ≥ toIndex c.capacity) && !c.here.label.info.pagination))
    = leaves
  have hdest' : ∀ t, (if leaves = true then none else destItem) = some t → t ∈ p.held := by
    intro t ht
    split at ht
    · exact not_some_mem_held t ht
    · exact hdest t ht
  generalize (if leaves = true then none else destItem) = destItem' at hdest'
  generalize (if leaves = true then INDEX_WHEREEVER else index) = index'
  have hitem : ∀ d, (if index' = INDEX_WHEREEVER then none else c.getItemByIndex index') = some d → p.Holds d := by
    intro d hd
    split at hd
    · cases hd
    · exact holds_getItemByIndex h hd
  generalize (if index' = INDEX_WHEREEVER then none else c.getItemByIndex index') = itemFromIndex at hitem
  split
  · rename_i d hd
    refine ⟨fun e he => ?_, not_some_mem_held⟩
    rw [← Option.some.inj he]
    exact hitem d (Option.mem_filter_iff.mp hd).1
  · have hor : ∀ t, (itemFromIndex.map (·.here.label)).or destItem' = some t → t ∈ p.held := by
      intro t ht
      cases itemFromIndex with
      | none => exact hdest' t ht
      | some d =>
        rw [← Option.some.inj ht]
        exact label_mem_held (hitem d rfl)
    split
    · split
      · exact stays_here hor
      split
      · rename_i n t hstack
        refine stays_here fun u hu => ?_
        rw [← Option.some.inj hu]
        exact h.children (findStack_mem hstack)
      · exact stays_here hor
    · exact stays_here hor

theorem descend_toItem (item : Arrival) (rounds : Nat) {c : Spot} (h : p.Holds c) {turn : Spot.Turn}
    (hdest : ∀ t, turn.destItem = some t → t ∈ p.held) (flags : UInt32) :
    ∀ t, (descend item rounds c turn flags).toItem = some t → t ∈ p.held := by
  induction rounds generalizing c turn flags with
  | zero => exact hdest
  | succ rounds ih =>
    have hstays := queryDestination_stays h item flags turn.index hdest
    simp only [descend]
    split
    · rename_i d hd
      exact ih (hstays.next d hd) hstays.destItem 0
    · exact hstays.destItem

theorem resolve_toItem (item : Arrival) (flags : UInt32) (index : Int) :
    ∀ t, (p.resolve s item flags index).toItem = some t → t ∈ p.held := by
  have hfound := @queryDestination_found s p item flags index
  rw [resolve]
  split
  · exact hfound.destItem
  · rename_i c hc
    exact descend_toItem item _ (hfound.cylinder c hc) hfound.destItem 0

end Player

/-! ### What a move does -/

theorem queryRemove_eq_noerror {item : Thing} {count flags : UInt32} (h : queryRemove item count flags = .NOERROR) :
    count ≠ 0 := by
  rintro rfl
  rw [queryRemove, if_pos (.inl rfl)] at h
  cases h

theorem min_le_count (count n : UInt32) : min count n ≤ count := by
  show (if count ≤ n then count else n) ≤ count
  split
  · exact UInt32.le_refl _
  · rename_i hle
    exact UInt32.le_of_lt (UInt32.not_le.mp hle)

theorem not_lt_of_min_eq {count n : UInt32} (h : min count n = count) : ¬ n < count := by
  intro hlt
  have hmin : min count n = n := if_neg (UInt32.not_le.mpr hlt)
  rw [hmin] at h
  rw [h] at hlt
  exact UInt32.lt_irrefl _ hlt

namespace Player

variable {s : Setting} {p : Player} {item : Arrival} {count flags : UInt32} {tradeItem : Option Nat}

theorem verdict_stops (hapart : ∀ t ∈ p.held, t.ref ≠ item.thing.label.ref) {ret : ReturnValue}
    (h : p.verdict s item count flags tradeItem = .stops ret) : ret ≠ .NOERROR := by
  have htoItem := @resolve_toItem s p item flags INDEX_WHEREEVER
  simp only [verdict] at h
  generalize p.resolve s item flags INDEX_WHEREEVER = dest at h htoItem
  split at h
  · rename_i hself
    cases hto : dest.toItem with
    | none =>
      rw [hto] at hself
      cases hself
    | some t =>
      rw [hto] at hself
      exact absurd (beq_iff_eq.mp hself) (hapart t (htoItem t hto))
  split at h
  · split at h
    · rename_i hmax
      rw [← Verdict.stops.inj h]
      exact hmax.1
    split at h
    · split at h
      · rw [← Verdict.stops.inj h]
        exact nofun
      · cases h
    · rename_i hremove
      rw [← Verdict.stops.inj h]
      exact hremove
  · rename_i hadd
    rw [← Verdict.stops.inj h]
    exact hadd

theorem verdict_moves {dest : Resolved} {m : UInt32} {ret : ReturnValue}
    (h : p.verdict s item count flags tradeItem = .moves dest m ret) :
    m ≠ 0 ∧ (item.thing.label.type.stackable = true → m ≤ count ∧ (m = count → ret = .NOERROR)) ∧
      (item.thing.label.type.stackable = false → ret = .NOERROR) := by
  simp only [verdict] at h
  split at h
  · cases h
  split at h
  · split at h
    · cases h
    split at h
    · rename_i hremove
      split at h
      · cases h
      obtain ⟨-, rfl, rfl⟩ := Verdict.moves.inj h
      refine ⟨queryRemove_eq_noerror hremove, fun hstack => ?_, fun hstack => ?_⟩
      · simp only [hstack, if_true, true_and]
        exact ⟨min_le_count _ _, fun heq => if_neg (not_lt_of_min_eq heq)⟩
      · rw [if_neg (by simp [hstack])]
    · cases h
  · cases h

theorem join_le (p : Player) (thing : Thing) (dest : Resolved) (m : UInt32) : (p.join thing dest m).2 ≤ m := by
  rw [join]
  split
  · rename_i toItem _
    show (if 100 - toItem.getItemCount ≤ m then 100 - toItem.getItemCount else m) ≤ m
    split
    · assumption
    · exact UInt32.le_refl _
  · exact UInt32.zero_le

theorem receive_le (p : Player) (thing : RoseTree Thing) (dest : Resolved) (m : UInt32) (clone : Nat) :
    (p.receive thing dest m clone).2 ≤ if thing.label.type.stackable then m.toNat else 1 := by
  have hjoin := UInt32.le_iff_toNat_le.mp (join_le p thing.label dest m)
  have hrest := UInt32.toNat_sub_of_le m _ (join_le p thing.label dest m)
  simp only [receive]
  split
  · split
    · exact hjoin
    · simp only [hrest]
      split
      · omega
      · omega
  · split
    · exact Nat.le_refl _
    · exact Nat.zero_le _

end Player

/-- How many pieces a player takes of an item, in the one place that is found for it; `none` where there is none. -/
def Player.accepts (s : Setting) (p : Player) (item : RoseTree Thing) (count : UInt32) (tradeItem : Option Nat)
    (clone : Nat) : Option Nat :=
  match p.verdict s { thing := item } count FLAG_IGNOREAUTOSTACK tradeItem with
  | .stops _ => none
  | .moves dest m _ => some (p.receive item dest m clone).2

section

variable {s : Setting} {receiver giver : Player} {item : RoseTree Thing} {count : UInt32} {tradeItem : Option Nat}
  {clone : Nat}

/-- The pieces that are to move. -/
def asked (item : RoseTree Thing) (count : UInt32) : Nat := if item.label.type.stackable then count.toNat else 1

theorem internalMoveItem_none (h : receiver.accepts s item count tradeItem clone = none) :
    ∃ ret, internalMoveItem s receiver giver item count FLAG_IGNOREAUTOSTACK tradeItem clone =
        ⟨ret, receiver, giver, ⟨asked item count, 0⟩⟩ ∧
      ((∀ t ∈ receiver.held, t.ref ≠ item.label.ref) → ret ≠ .NOERROR) := by
  rw [Player.accepts] at h
  split at h
  · rename_i ret hverdict
    refine ⟨ret, ?_, fun hapart => Player.verdict_stops hapart hverdict⟩
    rw [internalMoveItem, hverdict]
    rfl
  · cases h

/-- **What a move does.** Something leaves its place. If all of it comes, nothing stays and the move is a success. -/
theorem internalMoveItem_some {comes : Nat} (h : receiver.accepts s item count tradeItem clone = some comes)
    (hasked : 0 < asked item count) :
    (internalMoveItem s receiver giver item count FLAG_IGNOREAUTOSTACK tradeItem clone).custody.comes = comes ∧
      (internalMoveItem s receiver giver item count FLAG_IGNOREAUTOSTACK tradeItem clone).custody.stays <
        asked item count ∧
      (comes = asked item count →
        (internalMoveItem s receiver giver item count FLAG_IGNOREAUTOSTACK tradeItem clone).custody.stays = 0 ∧
          (internalMoveItem s receiver giver item count FLAG_IGNOREAUTOSTACK tradeItem clone).ret = .NOERROR ∧
          (internalMoveItem s receiver giver item count FLAG_IGNOREAUTOSTACK tradeItem clone).giver =
            giver.removeThing item.label count) := by
  rw [Player.accepts] at h
  split at h
  · cases h
  rename_i dest m ret hverdict
  obtain ⟨hm, hstackable, hsingle⟩ := Player.verdict_moves hverdict
  have hle := receiver.receive_le item dest m clone
  rw [Option.some.inj h] at hle
  rw [internalMoveItem, hverdict]
  refine ⟨Option.some.inj h, ?_, fun hall => ?_⟩
  · cases hstack : item.label.type.stackable with
    | true =>
      have hpos : 0 < m.toNat := Nat.pos_iff_ne_zero.mpr fun hzero => hm (UInt32.toNat_inj.mp hzero)
      rw [asked, hstack] at hasked ⊢
      simp only [if_true] at hasked ⊢
      omega
    | false =>
      rw [asked, hstack]
      exact Nat.one_pos
  · cases hstack : item.label.type.stackable with
    | true =>
      obtain ⟨hmle, hret⟩ := hstackable hstack
      rw [hall, asked, hstack] at hle
      have heq : m = count := UInt32.toNat_inj.mp (Nat.le_antisymm (UInt32.le_iff_toNat_le.mp hmle) hle)
      rw [heq]
      exact ⟨by simp, hret heq, rfl⟩
    | false =>
      have hwhole (n : UInt32) : ¬ (item.label.type.stackable = true ∧ n ≠ item.label.getItemCount) :=
        fun hcon => by simp [hstack] at hcon
      refine ⟨by simp, hsingle hstack, ?_⟩
      simp only [Player.removeThing, if_neg (hwhole _)]

end

/-! ### Both moves -/

namespace Deal

variable (s : Setting) (d : Deal)

theorem asked_eq (item : RoseTree Thing) : asked item item.label.getItemCount = pieces item := by
  rw [asked, pieces, Thing.getItemCount, UInt8.toNat_toUInt32]

theorem pieces_pos {item : RoseTree Thing} (h : internalRemoveItem item.label = .NOERROR) : 0 < pieces item := by
  rw [internalRemoveItem] at h
  split at h
  · rename_i hremove
    have hcount := queryRemove_eq_noerror hremove
    rw [pieces]
    split
    · refine Nat.pos_iff_ne_zero.mpr fun hzero => hcount ?_
      rw [Thing.getItemCount, UInt8.toNat_inj.mp (hzero.trans UInt8.toNat_zero.symm)]
      rfl
    · exact Nat.one_pos
  · rename_i hnot
    exact absurd h hnot

theorem asked_secondItem (p : Player) :
    asked (d.secondItem p) d.tradeItem2.label.getItemCount = pieces d.tradeItem2 := by
  have htype : (d.secondItem p).label.type = d.tradeItem2.label.type := by
    rw [secondItem]
    split
    · rfl
    · rfl
  rw [asked, htype, ← asked, asked_eq]

/-- The first move. -/
def first : Moved :=
  internalMoveItem s d.tradePartner d.player d.tradeItem1 d.tradeItem1.label.getItemCount FLAG_IGNOREAUTOSTACK
    (some d.tradeItem2.label.ref) d.clone1

/-- The second one. -/
def second : Moved :=
  internalMoveItem s (d.first s).giver (d.first s).receiver (d.secondItem (d.first s).receiver)
    d.tradeItem2.label.getItemCount FLAG_IGNOREAUTOSTACK none d.clone2

theorem playerAcceptTrade_eq {onTradeAccept : Bool} (h : d.Tested s onTradeAccept) :
    d.playerAcceptTrade s onTradeAccept =
      if (d.first s).ret = .NOERROR then
        ⟨(d.second s).receiver, (d.second s).giver, (d.first s).custody, (d.second s).custody⟩
      else ⟨(d.first s).giver, (d.first s).receiver, (d.first s).custody, ⟨pieces d.tradeItem2, 0⟩⟩ := by
  rw [playerAcceptTrade, if_pos h]
  rfl

/-- How much the partner takes of the first item. -/
def partnerAccepts : Option Nat :=
  d.tradePartner.accepts s d.tradeItem1 d.tradeItem1.label.getItemCount (some d.tradeItem2.label.ref) d.clone1

/-- How much the player takes of the second item, once the first one is gone. -/
def playerAccepts : Option Nat :=
  (d.player.removeThing d.tradeItem1.label d.tradeItem1.label.getItemCount).accepts s (d.secondItem (d.first s).receiver)
    d.tradeItem2.label.getItemCount none d.clone2

theorem first_none (h : d.partnerAccepts s = none) :
    (d.first s).ret ≠ .NOERROR ∧ (d.first s).custody = ⟨pieces d.tradeItem1, 0⟩ := by
  obtain ⟨ret, hfirst, hret⟩ := @internalMoveItem_none s d.tradePartner d.player d.tradeItem1 _ _ _ h
  rw [first, hfirst, asked_eq]
  exact ⟨hret d.apart1, rfl⟩

theorem first_some {comes : Nat} (h : d.partnerAccepts s = some comes) (hpos : 0 < pieces d.tradeItem1) :
    (d.first s).custody.comes = comes ∧ (d.first s).custody.stays < pieces d.tradeItem1 ∧
      (comes = pieces d.tradeItem1 → (d.first s).custody.stays = 0 ∧ (d.first s).ret = .NOERROR ∧
        (d.first s).giver = d.player.removeThing d.tradeItem1.label d.tradeItem1.label.getItemCount) := by
  rw [← asked_eq] at hpos ⊢
  exact internalMoveItem_some h hpos

theorem second_custody (hgiver : (d.first s).giver = d.player.removeThing d.tradeItem1.label d.tradeItem1.label.getItemCount)
    (hpos : 0 < pieces d.tradeItem2) :
    (d.second s).custody = ⟨0, pieces d.tradeItem2⟩ ↔ d.playerAccepts s = some (pieces d.tradeItem2) := by
  rw [second, hgiver]
  rw [← d.asked_secondItem (d.first s).receiver] at hpos ⊢
  cases haccepts : d.playerAccepts s with
  | none =>
    obtain ⟨ret, hsecond, -⟩ := @internalMoveItem_none s _ (d.first s).receiver _ _ _ _ haccepts
    rw [hsecond]
    refine ⟨fun heq => ?_, nofun⟩
    rw [← (Custody.mk.inj heq).2] at hpos
    exact absurd hpos (Nat.lt_irrefl 0)
  | some comes =>
    obtain ⟨hcomes, -, hall⟩ := @internalMoveItem_some s _ (d.first s).receiver _ _ _ _ _ haccepts hpos
    refine ⟨fun heq => ?_, fun heq => ?_⟩
    · rw [← hcomes, heq]
    · have hmoved := hall (Option.some.inj heq)
      rw [← Option.some.inj heq, ← hcomes, ← hmoved.1]

/-- **When a trade is all or nothing.** A test fails, or the partner has no place for the first item, or the partner
takes all of the first item and the player, without it, all of the second. -/
theorem allOrNothing_iff (onTradeAccept : Bool) :
    d.AllOrNothing (d.playerAcceptTrade s onTradeAccept) ↔
      ¬ d.Tested s onTradeAccept ∨ d.partnerAccepts s = none ∨
        (d.partnerAccepts s = some (pieces d.tradeItem1) ∧ d.playerAccepts s = some (pieces d.tradeItem2)) := by
  by_cases htested : d.Tested s onTradeAccept
  · have hpos1 := pieces_pos htested.2.2.1
    have hpos2 := pieces_pos htested.2.2.2
    rw [playerAcceptTrade_eq s d htested]
    cases haccepts : d.partnerAccepts s with
    | none =>
      -- the first move stops, and the second is not made
      obtain ⟨hret, hcustody⟩ := d.first_none s haccepts
      rw [if_neg hret, hcustody]
      exact ⟨fun _ => .inr (.inl rfl), fun _ => .inr ⟨rfl, rfl⟩⟩
    | some comes =>
      obtain ⟨hcomes, hstays, hall⟩ := d.first_some s haccepts hpos1
      have hkeeps : (d.first s).custody ≠ ⟨pieces d.tradeItem1, 0⟩ := by
        intro heq
        rw [heq] at hstays
        exact Nat.lt_irrefl _ hstays
      by_cases hcomes1 : comes = pieces d.tradeItem1
      · -- all of the first item has moved, and it is up to the second
        obtain ⟨hzero, hret, hgiver⟩ := hall hcomes1
        have hfirst : (d.first s).custody = ⟨0, pieces d.tradeItem1⟩ := by
          rw [← hcomes1, ← hcomes, ← hzero]
        rw [if_pos hret]
        refine ⟨fun hor => ?_, fun hor => ?_⟩
        · rcases hor with ⟨-, hsecond⟩ | ⟨hnothing, -⟩
          · exact .inr (.inr ⟨congrArg some hcomes1, (d.second_custody s hgiver hpos2).mp hsecond⟩)
          · exact absurd hnothing hkeeps
        · rcases hor with hnot | hnone | ⟨-, hplayer⟩
          · exact absurd htested hnot
          · cases hnone
          · exact .inl ⟨hfirst, (d.second_custody s hgiver hpos2).mpr hplayer⟩
      · -- what has moved of the first item is not all of it
        refine ⟨fun hor => ?_, fun hor => ?_⟩
        · have hpart : (d.first s).custody = ⟨0, pieces d.tradeItem1⟩ ∨
              (d.first s).custody = ⟨pieces d.tradeItem1, 0⟩ := by
            split at hor
            · exact hor.imp And.left And.left
            · exact hor.imp And.left And.left
          rcases hpart with hwhole | hnothing
          · rw [hwhole] at hcomes
            exact absurd hcomes.symm hcomes1
          · exact absurd hnothing hkeeps
        · rcases hor with hnot | hnone | ⟨hpartner, -⟩
          · exact absurd htested hnot
          · cases hnone
          · exact absurd (Option.some.inj hpartner) hcomes1
  · rw [playerAcceptTrade, if_neg htested]
    exact ⟨fun _ => .inl htested, fun _ => .inr ⟨rfl, rfl⟩⟩

end Deal

/-- Arrows, for the quiver slot. -/
def arrows (ref : Nat) (count : UInt8) : RoseTree Thing :=
  .node { ref, item := { id := 3447, count }, type := { stackable := true, weaponType := .AMMO, slotPosition := 560 } } []

/-- The player has some arrows already, and both offer something that lies beside them. -/
def joining : Deal where
  player := { inventory := fun slot => if slot = CONST_SLOT_AMMO then some (arrows 1 50) else none, tradeItem := some 0 }
  tradePartner := { inventory := fun _ => none, tradeItem := some 2 }
  tradeItem1 := helmet.thing
  tradeItem2 := arrows 2 30
  clone1 := 3
  clone2 := 4
  offers1 := rfl
  offers2 := rfl
  apart1 := by decide
  apart2 := by decide

/-- The test lets the arrows join those that are there, and the move does not: one item is handed over, and the other
stays. -/
theorem joining_not_allOrNothing : ¬ joining.AllOrNothing (joining.playerAcceptTrade usual true) := by
  have htested : joining.Tested usual true := by decide
  have hfirst : (joining.first usual).ret = .NOERROR ∧ (joining.first usual).custody = ⟨0, 1⟩ := by decide
  have hslots : Player.slots.foldlM ((joining.first usual).giver.visitSlot usual
      { thing := joining.secondItem (joining.first usual).receiver } FLAG_IGNOREAUTOSTACK) [] = .ok [] := by
    rfl
  have hfound : ((joining.first usual).giver.queryDestination usual
      { thing := joining.secondItem (joining.first usual).receiver } FLAG_IGNOREAUTOSTACK INDEX_WHEREEVER none).1 =
        { cylinder := .player, index := INDEX_WHEREEVER } := by
    rw [Player.queryDestination, if_pos (.inr rfl), hslots]
    simp only [BreadthFirst.search_eq, BreadthFirst.order]
    rfl
  have hverdict : (joining.first usual).giver.verdict usual
      { thing := joining.secondItem (joining.first usual).receiver } joining.tradeItem2.label.getItemCount
      FLAG_IGNOREAUTOSTACK none = .stops .NOTENOUGHROOM := by
    rw [Player.verdict, Player.resolve, hfound]
    rfl
  have hsecond : (joining.second usual).custody = ⟨30, 0⟩ := by
    rw [Deal.second, internalMoveItem, hverdict]
    rfl
  rw [Deal.playerAcceptTrade_eq usual joining htested, if_pos hfirst.1, Deal.AllOrNothing, hfirst.2, hsecond]
  decide

end Cylinders

end Moonlight
