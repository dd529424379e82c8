import Mathlib.Data.UInt
import Moonlight.Creatures.Inventory
import Moonlight.Lib.Loops

/-!
# How much of an item a player takes

`queryMaxCount` of a container and of a player (items/containers/container.cpp, creatures/players/player.cpp) count the
pieces of an item for which there is room: in free slots, and on stacks that the item equals. Without an index, a player
adds up all containers in the inventory.

`Container::queryDestination` passes an item on, to a container at its index or, where the index stands for moving up,
to its parent; it looks for a stack that the item equals. `Player.resolve` is the loop of `Game::internalMoveItem`, by
which cylinders are asked until one keeps the item.
-/

namespace Moonlight

namespace Cylinders

open RoseTree

abbrev FLAG_IGNORENOTMOVEABLE : UInt32 := 64

/-! ### Containers -/

namespace Spot

variable (c : Spot)

/-- The container at a level above. -/
def up (level : Nat) : Spot := ⟨c.tree level, c.above.drop level, c.owner⟩

/-- `dynamic_cast<Container*>(getParent())`. -/
def parentContainer : Option Spot :=
  match getParent c.here.label.cls (cylindersAbove c.owner 0 c.above) with
  | .container level _ :: _ => some (c.up level)
  | _ => none

/-- `getItemByIndex`. -/
def getItemByIndex (index : Int) : Option Spot := if index < 0 then none else c.itemlist[index.toNat]?

/-- The loop for an item to stack with. -/
def findStack (item : Thing) : (n : Nat) → List Thing → Option (Nat × Thing)
  | _, [] => none
  | n, listItem :: items =>
    if listItem.ref ≠ item.ref ∧ listItem.item.equals item.item ∧ listItem.getItemCount < 100 then some (n, listItem)
    else findStack item (n + 1) items

/-- What `Container::queryDestination` comes to: another container, or none where it stays with this one. -/
structure Turn where
  next : Option Spot := none
  index : Int
  destItem : Option Thing := none

/-- `Container::queryDestination`. A `destItem` that comes with the call is no container. -/
def queryDestination (item : Arrival) (flags : UInt32) (index : Int) (destItem : Option Thing) : Turn :=
  if !c.here.label.info.unlocked then { index := index }
  else if index = 254 then { next := c.parentContainer, index := INDEX_WHEREEVER }
  else
    let leaves : Bool := index = 255 || (index ≥ toIndex c.capacity && !c.here.label.info.pagination)
    let destItem := if leaves then none else destItem
    let index := if leaves then INDEX_WHEREEVER else index
    let itemFromIndex := if index = INDEX_WHEREEVER then none else c.getItemByIndex index
    match itemFromIndex.filter (·.here.label.isContainer) with
    | some subCylinder => { next := some subCylinder, index := INDEX_WHEREEVER }
    | none =>
      let destItem := (itemFromIndex.map (·.here.label)).or destItem
      let autoStack := !hasBitSet FLAG_IGNOREAUTOSTACK flags
      if autoStack && item.thing.label.type.stackable && item.parent ≠ some c.here.label.ref then
        let thing := item.thing.label
        if destItem.any fun destItem => destItem.item.equals thing.item && destItem.getItemCount < 100 then
          { index := index, destItem := destItem }
        else
          match findStack thing 0 (c.here.children.map label) with
          | some (n, listItem) => { index := n, destItem := some listItem }
          | none => { index := index, destItem := destItem }
      else { index := index, destItem := destItem }

end Spot

/-- The room on the items that an item stacks with. -/
def stackRoom (ask : Int → UInt32 → ReturnValue) (item : Thing) : (slotIndex : UInt32) → List Thing → UInt32
  | _, [] => 0
  | slotIndex, containerItem :: items =>
    if containerItem.ref ≠ item.ref ∧ containerItem.item.equals item.item ∧ containerItem.getItemCount < 100 then
      let remainder := 100 - containerItem.getItemCount
      let room := if ask (toIndex slotIndex) remainder = .NOERROR then remainder else 0
      room + stackRoom ask item (slotIndex + 1) items
    else stackRoom ask item slotIndex items

namespace Player

variable (s : Setting) (p : Player) (item : Arrival) (flags : UInt32)

/-- `Container::queryMaxCount`, of a container in the inventory. -/
def queryMaxCountIn (c : Spot) (index : Int) (count : UInt32) : ReturnValue × UInt32 :=
  let thing := item.thing.label
  if hasBitSet FLAG_NOLIMIT flags || c.here.label.info.pagination then (.NOERROR, max 1 count)
  else
    let freeSlots := UInt32.ofNat (max 0 (toIndex c.rounds)).toNat
    if thing.type.stackable then
      let n :=
        if index = INDEX_WHEREEVER then
          stackRoom (fun slotIndex remainder => p.queryContainer s item flags c slotIndex remainder) thing 0
            (c.here.children.map label)
        else
          match c.getItemByIndex index with
          | some destItem =>
            if thing.item.equals destItem.here.label.item ∧ destItem.here.label.getItemCount < 100 then
              100 - destItem.here.label.getItemCount
            else 0
          | none => 0
      let maxQueryCount := freeSlots * 100 + n
      (if maxQueryCount < count then .CONTAINERNOTENOUGHROOM else .NOERROR, maxQueryCount)
    else (if freeSlots = 0 then .CONTAINERNOTENOUGHROOM else .NOERROR, freeSlots)

/-- What a slot adds, of everything that is in it. -/
def maxCountIn (slotIndex : Nat) : UInt32 :=
  let thing := item.thing.label
  match p.inventory slotIndex with
  | some inventoryItem =>
    if inventoryItem.label.isContainer then
      -- the container, and what the iterator comes to
      (((subContainers fun _ => true).order [⟨inventoryItem, [], .player⟩]).map fun tmpContainer =>
        (p.queryMaxCountIn s item flags tmpContainer INDEX_WHEREEVER thing.getItemCount).2).sum
    else if inventoryItem.label.type.stackable ∧ thing.item.equals inventoryItem.label.item ∧
        inventoryItem.label.getItemCount < 100 then
      let remainder := 100 - inventoryItem.label.getItemCount
      if p.queryAdd s slotIndex item remainder flags = .NOERROR then remainder else 0
    else 0
  | none =>
    if p.queryAdd s slotIndex item thing.getItemCount flags = .NOERROR then
      if thing.type.stackable then 100 else 1
    else 0

/-- `Player::queryMaxCount`. -/
def queryMaxCount (index : Int) (count : UInt32) : ReturnValue × UInt32 :=
  let thing := item.thing.label
  let answer (maxQueryCount : UInt32) :=
    (if maxQueryCount < count then ReturnValue.NOTENOUGHROOM else .NOERROR, maxQueryCount)
  if index = INDEX_WHEREEVER then
    answer ((List.range' CONST_SLOT_FIRST (CONST_SLOT_LAST + 1 - CONST_SLOT_FIRST)).map (p.maxCountIn s item flags)).sum
  else
    match (if 0 ≤ index then p.getInventoryItem index.toNat else none) with
    | some destItem =>
      if destItem.label.type.stackable ∧ thing.item.equals destItem.label.item ∧ destItem.label.getItemCount < 100 then
        answer (100 - destItem.label.getItemCount)
      else answer 0
    | none =>
      if p.queryAdd s index item count flags = .NOERROR then (.NOERROR, if thing.type.stackable then 100 else 1)
      else answer 0

/-! ### The way to a cylinder -/

/-- Where an item goes, with the flags that are left. -/
structure Resolved where
  toCylinder : Place
  index : Int
  toItem : Option Thing
  flags : UInt32

/-- The rounds of the loop that ask containers. -/
def descend (item : Arrival) : (rounds : Nat) → Spot → Spot.Turn → UInt32 → Resolved
  | 0, c, turn, flags => ⟨.container c, turn.index, turn.destItem, flags⟩
  | rounds + 1, c, turn, flags =>
    let turn := c.queryDestination item flags turn.index turn.destItem
    match turn.next with
    | some subCylinder => descend item rounds subCylinder turn 0
    | none => ⟨.container c, turn.index, turn.destItem, flags⟩

abbrev MAP_MAX_LAYERS : Nat := 16

/-- The loop of `Game::internalMoveItem`, from the player. The flags are dropped after the first round. -/
def resolve (index : Int) : Resolved :=
  let found := (p.queryDestination s item flags index none).1
  match found.cylinder with
  | .player => ⟨.player, found.index, found.destItem, flags⟩
  | .container c => descend item (MAP_MAX_LAYERS - 1) c { index := found.index, destItem := found.destItem } 0

/-- The virtual `queryAdd` of a cylinder of the player. -/
def queryAddAt (cylinder : Place) (index : Int) (count flags : UInt32) : ReturnValue :=
  match cylinder with
  | .player => p.queryAdd s index item count flags
  | .container c => p.queryContainer s item flags c index count

/-- The virtual `queryMaxCount` of a cylinder of the player. -/
def queryMaxCountAt (cylinder : Place) (index : Int) (count flags : UInt32) : ReturnValue × UInt32 :=
  match cylinder with
  | .player => p.queryMaxCount s item flags index count
  | .container c => p.queryMaxCountIn s item flags c index count

end Player

/-! ### No exchange

The source asks for an exchange where an item would go to a slot with another item. -/

theorem queryAdd_ne_needexchange {limits : Limits} {queryTop : Cylinder → ReturnValue} {c : Spot} {addIndex : Int}
    {addThing : RoseTree Thing} {flags : UInt32} (htop : ∀ x, queryTop x ≠ .NEEDEXCHANGE) :
    queryAdd limits queryTop c addIndex addThing flags ≠ .NEEDEXCHANGE := by
  simp only [queryAdd]
  split
  · decide
  split
  · decide
  split
  · decide
  split
  · decide
  split
  · rename_i ret hret
    rcases checkParents_eq_some hret with rfl | rfl
    · decide
    · decide
  split
  · decide
  split
  · rename_i ret hret
    obtain ⟨top, -, hlimits⟩ := Option.bind_eq_some_iff.mp hret
    rw [checkLimits_eq_some hlimits]
    decide
  split
  · decide
  split
  · decide
  · exact htop _

namespace Player

variable {s : Setting} {p : Player}

theorem misfit_ne_needexchange (thing : Thing) : misfit s thing ≠ .NEEDEXCHANGE := by
  rw [misfit]
  split
  · exact nofun
  split
  · exact nofun
  split
  · split
    · exact nofun
    · exact nofun
  · exact nofun

theorem rightHand_ne_needexchange (thing : Thing) (leftItem : Option Thing) :
    rightHand thing leftItem ≠ .NEEDEXCHANGE := by
  simp only [rightHand]
  split
  · exact nofun
  split
  · exact nofun
  split
  · split
    · exact nofun
    · exact nofun
  · exact nofun

theorem leftHand_ne_needexchange (thing : Thing) (rightItem : Option Thing) :
    leftHand thing rightItem ≠ .NEEDEXCHANGE := by
  simp only [leftHand]
  split
  · exact nofun
  split
  · exact nofun
  split
  · split
    · exact nofun
    · exact nofun
  · exact nofun

theorem classicHand_ne_needexchange (thing : Thing) (other : Option Thing) (count : UInt32) :
    classicHand thing other count ≠ .NEEDEXCHANGE := by
  have hbesides (otherItem : Thing) : besides thing otherItem count ≠ .NEEDEXCHANGE := by
    simp only [besides]
    split
    · exact nofun
    split
    · exact nofun
    split
    · exact nofun
    split
    · exact nofun
    · exact nofun
  cases other with
  | none => exact nofun
  | some otherItem =>
    rw [classicHand]
    split
    · split
      · exact nofun
      · exact nofun
    · exact hbesides otherItem

theorem querySlot_ne_needexchange (index : Int) (thing : Thing) (count : UInt32) :
    p.querySlot s index thing count ≠ .NEEDEXCHANGE := by
  have hgoes {bits : UInt32} {answer : ReturnValue} (h : answer ≠ .NEEDEXCHANGE) :
      (if thing.fits bits then answer else misfit s thing) ≠ .NEEDEXCHANGE := by
    split
    · exact h
    · exact misfit_ne_needexchange thing
  have hhand {classic : Bool} {hand classicHand : ReturnValue} (h : hand ≠ .NEEDEXCHANGE)
      (h' : classicHand ≠ .NEEDEXCHANGE) : (if classic then hand else classicHand) ≠ .NEEDEXCHANGE := by
    split
    · exact h
    · exact h'
  simp only [querySlot]
  split
  · exact hgoes nofun
  · exact hgoes nofun
  · exact hgoes nofun
  · exact hgoes nofun
  · exact hgoes (hhand (rightHand_ne_needexchange _ _) (classicHand_ne_needexchange _ _ _))
  · exact hgoes (hhand (leftHand_ne_needexchange _ _) (classicHand_ne_needexchange _ _ _))
  · exact hgoes nofun
  · exact hgoes nofun
  · exact hgoes nofun
  · split
    · exact nofun
    · exact misfit_ne_needexchange thing
  · exact nofun
  · exact nofun
  · exact nofun

theorem queryAdd_ne_needexchange {item : Arrival} {index : Int} {count flags : UInt32}
    (hempty : p.getInventoryItem (index % 256).toNat = none) : p.queryAdd s index item count flags ≠ .NEEDEXCHANGE := by
  simp only [queryAdd, hempty, Option.any_none, Bool.false_eq_true, if_false]
  split
  · split
    · exact nofun
    · exact nofun
  split
  · exact nofun
  split
  · split
    · exact nofun
    split
    · exact nofun
    · exact querySlot_ne_needexchange _ _ _
  · exact querySlot_ne_needexchange _ _ _

theorem visitSlot_empty {item : Arrival} {flags : UInt32} (hstacking : stacking item flags = false)
    {containers : List Spot} {slotIndex : Nat} (hslot : slotIndex ∈ slots) {found : Destination}
    (h : p.visitSlot s item flags containers slotIndex = .error found) :
    p.getInventoryItem (found.index % 256).toNat = none := by
  cases hinventory : p.inventory slotIndex with
  | none =>
    simp only [visitSlot, hinventory] at h
    split at h
    · have hlt : slotIndex < 11 := (List.mem_range'_1.mp hslot).2
      have hindex : (((slotIndex : Nat) : Int) % 256).toNat = slotIndex := by omega
      rw [← Except.error.inj h, hindex, getInventoryItem, hinventory, ite_self]
    · cases h
  | some t =>
    simp only [visitSlot, hinventory, hstacking, Bool.false_and, Bool.false_eq_true, if_false] at h
    split at h
    · cases h
    split at h
    · cases h
    · cases h

theorem visit_container {item : Arrival} {flags : UInt32} {probes : Probes} {c : Spot} {found : Destination × Probes}
    (h : p.visit s item flags probes c = .error found) : found.1.cylinder = .container c := by
  simp only [visit] at h
  split at h
  · split at h
    · rw [← Except.error.inj h]
    · cases h
  split at h
  · rw [← Except.error.inj h]
  split at h
  · rw [← Except.error.inj h]
  · cases h

theorem queryDestination_player {item : Arrival} {flags : UInt32} (hstacking : stacking item flags = false)
    (h : (p.queryDestination s item flags INDEX_WHEREEVER none).1.cylinder = .player) :
    p.getInventoryItem ((p.queryDestination s item flags INDEX_WHEREEVER none).1.index % 256).toNat = none := by
  have hslots := @Loops.foldlM_of_inv _ _ _ (p.visitSlot s item flags) (fun _ => True)
    (fun found => p.getInventoryItem (found.index % 256).toNat = none) slots
    (fun _ _ hslot _ => ⟨fun _ _ => trivial, fun _ herror => visitSlot_empty hstacking hslot herror⟩) [] trivial
  have hsearch (containers : List Spot) := @Loops.foldlM_of_inv _ _ _ (p.visit s item flags) (fun _ => True)
    (fun found => ∃ c, found.1.cylinder = .container c) ((p.searched item flags).order containers)
    (fun _ c _ _ => ⟨fun _ _ => trivial, fun _ herror => ⟨c, visit_container herror⟩⟩) [] trivial
  simp only [queryDestination, or_true, if_true, BreadthFirst.search_eq] at h ⊢
  split at h
  · rename_i found herror
    exact hslots.2 found herror
  · rename_i containers _
    split at h
    · rename_i found herror
      obtain ⟨c, hc⟩ := (hsearch containers).2 found herror
      rw [hc] at h
      cases h
    · rfl

theorem descend_container (item : Arrival) (rounds : Nat) (c : Spot) (turn : Spot.Turn) (flags : UInt32) :
    ∃ d, (descend item rounds c turn flags).toCylinder = .container d := by
  induction rounds generalizing c turn flags with
  | zero => exact ⟨c, rfl⟩
  | succ rounds ih =>
    simp only [descend]
    split
    · exact ih _ _ _
    · exact ⟨c, rfl⟩

/-- **An item with nowhere to stack is never exchanged.** -/
theorem queryAddAt_ne_needexchange {item : Arrival} {flags : UInt32} (hstacking : stacking item flags = false)
    (count : UInt32) :
    p.queryAddAt s item (p.resolve s item flags INDEX_WHEREEVER).toCylinder (p.resolve s item flags INDEX_WHEREEVER).index
      count (p.resolve s item flags INDEX_WHEREEVER).flags ≠ .NEEDEXCHANGE := by
  rw [resolve]
  split
  · rename_i hplayer
    exact queryAdd_ne_needexchange (queryDestination_player hstacking hplayer)
  · rename_i c hc
    obtain ⟨d, hd⟩ := descend_container item (MAP_MAX_LAYERS - 1) c _ 0
    rw [hd]
    exact Cylinders.queryAdd_ne_needexchange fun _ => queryAdd_ne_needexchange rfl

theorem queryAddAt_ne_needexchange_helmet :
    bare.queryAddAt usual helmet (bare.resolve usual helmet 0 INDEX_WHEREEVER).toCylinder
      (bare.resolve usual helmet 0 INDEX_WHEREEVER).index 1 (bare.resolve usual helmet 0 INDEX_WHEREEVER).flags ≠
        .NEEDEXCHANGE :=
  queryAddAt_ne_needexchange rfl 1

end Player

end Cylinders

end Moonlight
