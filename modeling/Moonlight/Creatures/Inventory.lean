import Mathlib.Algebra.Order.Group.Nat
import Mathlib.Algebra.Order.BigOperators.Group.List
import Moonlight.Items.Cylinders
import Moonlight.Lib.BreadthFirst

/-!
# The inventory of a player

`Player::queryAdd` (creatures/players/player.cpp) says whether an item may be put in a slot, and
`Player::queryDestination` finds a place for an item that may go anywhere: an empty slot that takes it, a stack that it
equals, or a place in one of the containers in the inventory, level by level.

The weight of a container is that of everything in it, as in all that its operations lead to
(`Containers.run_weighed`). Where nothing is stacked, the search asks a container once for every free slot, with indices
from its size up to its capacity. The number of them is an unsigned difference: where a container holds more than its
capacity, the search starts beyond it, and with an index that `Container::addThing` turns down without a word.
`queryDestination_sound_iff` says when the search comes upon no such container.
-/

namespace Moonlight

/-! ### Items that are equal -/

namespace ItemAttributes

/-- The loops over both vectors. -/
def agrees (a other : ItemAttributes) : Bool :=
  a.attributes.all fun attr => other.attributes.all fun otherAttr =>
    attr.1 != otherAttr.1 ||
      (!(attr.1.isStrAttrType && attr.2.getString != otherAttr.2.getString) &&
        !(attr.1.isIntAttrType && attr.2.getInteger != otherAttr.2.getInteger))

end ItemAttributes

/-- `Item::equals`. -/
def Item.equals (item otherItem : Item) : Bool :=
  if item.id != otherItem.id then false
  else
    match item.attributes, otherItem.attributes with
    | none, otherAttributes => otherAttributes.isNone
    | some _, none => false
    | some a, some other => if a.attributeBits != other.attributeBits then false else a.agrees other

namespace Cylinders

open RoseTree

abbrev FLAG_IGNOREAUTOSTACK : UInt32 := 128

/-! ### Slots -/

abbrev CONST_SLOT_FIRST : Nat := 1

abbrev CONST_SLOT_RIGHT : Nat := 5

abbrev CONST_SLOT_LEFT : Nat := 6

abbrev CONST_SLOT_AMMO : Nat := 10

abbrev CONST_SLOT_LAST : Nat := 11

abbrev SLOTP_HEAD : UInt32 := 1

abbrev SLOTP_NECKLACE : UInt32 := 2

abbrev SLOTP_BACKPACK : UInt32 := 4

abbrev SLOTP_ARMOR : UInt32 := 8

abbrev SLOTP_RIGHT : UInt32 := 16

abbrev SLOTP_LEFT : UInt32 := 32

abbrev SLOTP_LEGS : UInt32 := 64

abbrev SLOTP_FEET : UInt32 := 128

abbrev SLOTP_RING : UInt32 := 256

abbrev SLOTP_AMMO : UInt32 := 512

abbrev SLOTP_TWO_HAND : UInt32 := 2048

namespace Thing

def getBaseWeight (t : Thing) : Weight := t.item.getBaseWeight fun _ => t.type.weight

/-- `Item::getWeight`: that of the item itself. -/
def getWeight (t : Thing) : Weight :=
  let w := t.getBaseWeight
  if t.type.stackable then w * BitVec.ofNat 32 (max 1 t.item.count.toNat) else w

def getItemCount (t : Thing) : UInt32 := t.item.count.toUInt32

/-- Some of the bits are among the slots where an item goes. -/
def fits (t : Thing) (bits : UInt32) : Bool := hasBitSet bits t.type.slotPosition

end Thing

/-- `getWeight` of a container: its own, and that of everything in it. -/
def weight (t : RoseTree Thing) : Weight := (t.labels.map Thing.getWeight).sum

/-- A player, by what the questions about the inventory read. `onPlayerEquip` is what the registered events answer when
an item is put in a slot. -/
structure Player where
  inventory : Nat → Option (RoseTree Thing)
  tradeItem : Option Nat := none
  cannotPickupItem : Bool := false
  hasInfiniteCapacity : Bool := false
  capacity : Weight := 40000
  onPlayerEquip : Thing → Nat → Bool := fun _ _ => true

/-- An item that is to be moved. `home` says that its top parent is the player who is asked, `parent` is the container
that it is in. -/
structure Arrival where
  thing : RoseTree Thing
  home : Bool := false
  parent : Option Nat := none

/-- The configuration. -/
structure Setting where
  classicEquipmentSlots : Bool := false
  limits : Limits

namespace Player

variable (s : Setting) (p : Player)

/-- What `updateInventoryWeight` adds up. -/
def inventoryWeight : Weight :=
  ((List.range' CONST_SLOT_FIRST (CONST_SLOT_LAST + 1 - CONST_SLOT_FIRST)).map fun slot =>
    ((p.inventory slot).map weight).getD 0).sum

/-- `std::max<int32_t>(0, getCapacity() - inventoryWeight)`; the bonus is in the capacity. -/
def getFreeCapacity : Weight :=
  if p.cannotPickupItem then 0
  else if p.hasInfiniteCapacity then BitVec.allOnes 32
  else
    let free := p.capacity - p.inventoryWeight
    if free.toInt < 0 then 0 else free

def hasCapacity (item : Arrival) (count : UInt32) : Bool :=
  let thing := item.thing.label
  if p.cannotPickupItem then false
  else if p.hasInfiniteCapacity || item.home then true
  else
    let itemWeight := if thing.isContainer then weight item.thing else thing.getBaseWeight
    let itemWeight := if thing.type.stackable then itemWeight * count.toBitVec else itemWeight
    itemWeight ≤ p.getFreeCapacity

/-- `getInventoryItem`. -/
def getInventoryItem (slot : Nat) : Option (RoseTree Thing) :=
  if slot < CONST_SLOT_FIRST ∨ slot > CONST_SLOT_LAST then none else p.inventory slot

/-! ### A slot -/

/-- The answer for a slot where the item does not go. -/
def misfit (item : Thing) : ReturnValue :=
  if item.fits SLOTP_HEAD || item.fits SLOTP_NECKLACE || item.fits SLOTP_BACKPACK || item.fits SLOTP_ARMOR ||
      item.fits SLOTP_LEGS || item.fits SLOTP_FEET || item.fits SLOTP_RING then
    .CANNOTBEDRESSED
  else if item.fits SLOTP_TWO_HAND then .PUTTHISOBJECTINBOTHHANDS
  else if item.fits SLOTP_RIGHT || item.fits SLOTP_LEFT then
    if !s.classicEquipmentSlots then .CANNOTBEDRESSED else .PUTTHISOBJECTINYOURHAND
  else .NOERROR

/-- A hand, with classic slots and something in the other hand. -/
def besides (item otherItem : Thing) (count : UInt32) : ReturnValue :=
  let type := item.type.weaponType
  let otherType := otherItem.type.weaponType
  if otherItem.fits SLOTP_TWO_HAND then .DROPTWOHANDEDITEM
  else if item.ref = otherItem.ref ∧ count = item.getItemCount then .NOERROR
  else if otherType = .SHIELD ∧ type = .SHIELD then .CANONLYUSEONESHIELD
  else if otherType = .NONE ∨ type = .NONE ∨ otherType = .SHIELD ∨ otherType = .AMMO ∨ type = .SHIELD ∨
      type = .AMMO then
    .NOERROR
  else .CANONLYUSEONEWEAPON

/-- A hand, with classic slots. -/
def classicHand (item : Thing) (other : Option Thing) (count : UInt32) : ReturnValue :=
  match other with
  | none => .NOERROR
  | some otherItem =>
    if item.fits SLOTP_TWO_HAND then
      if otherItem.ref ≠ item.ref then .BOTHHANDSNEEDTOBEFREE else .NOERROR
    else besides item otherItem count

def rightHand (item : Thing) (leftItem : Option Thing) : ReturnValue :=
  let type := item.type.weaponType
  if type ≠ .SHIELD ∧ type ≠ .QUIVER then .CANNOTBEDRESSED
  else
    match leftItem with
    | none => .NOERROR
    | some leftItem =>
      if hasBitSet SLOTP_TWO_HAND (leftItem.type.slotPosition ||| item.type.slotPosition) then
        if type = .QUIVER ∧ leftItem.type.weaponType = .DISTANCE then .NOERROR else .BOTHHANDSNEEDTOBEFREE
      else .NOERROR

def leftHand (item : Thing) (rightItem : Option Thing) : ReturnValue :=
  let type := item.type.weaponType
  if type = .NONE ∨ type = .SHIELD ∨ type = .AMMO then .CANNOTBEDRESSED
  else
    match rightItem with
    | none => .NOERROR
    | some rightItem =>
      if item.fits SLOTP_TWO_HAND then
        if type = .DISTANCE ∧ rightItem.type.weaponType = .QUIVER then .NOERROR else .BOTHHANDSNEEDTOBEFREE
      else .NOERROR

/-- The `switch` over the slots. -/
def querySlot (index : Int) (item : Thing) (count : UInt32) : ReturnValue :=
  let ret := misfit s item
  let goesTo (bits : UInt32) (answer : ReturnValue) := if item.fits bits then answer else ret
  match index with
  | 1 => goesTo SLOTP_HEAD .NOERROR
  | 2 => goesTo SLOTP_NECKLACE .NOERROR
  | 3 => goesTo SLOTP_BACKPACK .NOERROR
  | 4 => goesTo SLOTP_ARMOR .NOERROR
  | 5 =>
    let leftItem := (p.inventory CONST_SLOT_LEFT).map label
    goesTo SLOTP_RIGHT (if !s.classicEquipmentSlots then rightHand item leftItem else classicHand item leftItem count)
  | 6 =>
    let rightItem := (p.inventory CONST_SLOT_RIGHT).map label
    goesTo SLOTP_LEFT (if !s.classicEquipmentSlots then leftHand item rightItem else classicHand item rightItem count)
  | 7 => goesTo SLOTP_LEGS .NOERROR
  | 8 => goesTo SLOTP_FEET .NOERROR
  | 9 => goesTo SLOTP_RING .NOERROR
  | 10 => if item.fits SLOTP_AMMO || s.classicEquipmentSlots then .NOERROR else ret
  | 0 => .NOTENOUGHROOM
  | -1 => .NOTENOUGHROOM
  | _ => .NOTPOSSIBLE

def queryAdd (index : Int) (item : Arrival) (count flags : UInt32) : ReturnValue :=
  let thing := item.thing.label
  if hasBitSet FLAG_CHILDISOWNER flags then
    if hasBitSet FLAG_NOLIMIT flags || p.hasCapacity item count then .NOERROR else .NOTENOUGHCAPACITY
  else if !thing.type.pickupable then .CANNOTPICKUP
  else
    let ret := p.querySlot s index thing count
    if ret = .NOERROR ∨ ret = .NOTENOUGHROOM then
      -- `static_cast<Slots_t>(index)`
      let slot := (index % 256).toNat
      let exchange := (p.getInventoryItem slot).any fun inventoryItem =>
        !inventoryItem.label.type.stackable || inventoryItem.label.item.id != thing.item.id
      if exchange then .NEEDEXCHANGE
      else if !p.hasCapacity item count then .NOTENOUGHCAPACITY
      else if !p.onPlayerEquip thing slot then .CANNOTBEDRESSED
      else ret
    else ret

end Player

/-! ### The items of a container -/

namespace Spot

variable (c : Spot)

/-- The places of some of the items, with those before them. -/
def places : (before : List (RoseTree Thing)) → List (RoseTree Thing) → List Spot
  | _, [] => []
  | before, t :: after => ⟨t, ⟨c.here.label, before, after⟩ :: c.above, c.owner⟩ :: places (before ++ [t]) after

/-- `getItemList`. -/
def itemlist : List Spot := c.places [] c.here.children

def capacity : UInt32 := c.here.label.info.maxSize.toUInt32

/-- `size()`. -/
def length : Nat := c.here.children.length

theorem map_here_itemlist : c.itemlist.map (·.here) = c.here.children := by
  have hplaces (before after : List (RoseTree Thing)) : (c.places before after).map (·.here) = after := by
    induction after generalizing before with
    | nil => rfl
    | cons t after ih => rw [places, List.map_cons, ih]
  exact hplaces [] c.here.children

/-- `Container::addThing`. -/
def addThing (index : Int) (item : RoseTree Thing) : Spot := if index ≥ c.capacity.toBitVec.toInt then c else c.add item

end Spot

/-- The containers in the containers, of the items that are not left out. -/
def subContainers (keep : Thing → Bool) : BreadthFirst Spot where
  next c := c.itemlist.filter fun t => t.here.label.isContainer && keep t.here.label
  size c := c.here.size
  sum_next_lt c := by
    have hsizes (ts : List (RoseTree Thing)) : sizes ts = (ts.map size).sum := by
      induction ts with
      | nil => rfl
      | cons t ts ih => rw [sizes, ih, List.map_cons, List.sum_cons]
    have hle := (List.filter_sublist (p := fun t => t.here.label.isContainer && keep t.here.label) (l := c.itemlist)).map
      fun t => t.here.size
    have hall : (c.itemlist.map fun t => t.here.size).sum = sizes c.here.children := by
      rw [hsizes, ← c.map_here_itemlist, List.map_map]
      rfl
    rw [size_eq, ← hall]
    exact Nat.lt_succ_of_le (hle.sum_le_sum fun _ _ => Nat.zero_le _)

/-! ### The search -/

/-- A cylinder that is found. -/
inductive Place where
  | player
  | container (c : Spot)

structure Destination where
  cylinder : Place
  index : Int
  destItem : Option Thing := none

/-- Every container that was probed, with the number of probes. -/
abbrev Probes := List (Spot × Nat)

/-- As an `int32_t`. -/
def toIndex (n : UInt32) : Int := n.toBitVec.toInt

/-- `while (n)`: the number of rounds, and the index that was taken. -/
def probeLoop (ask : Int → ReturnValue) (capacity : UInt32) : (n : Nat) → Nat × Option Int
  | 0 => (0, none)
  | n + 1 =>
    let index := toIndex (capacity - UInt32.ofNat (n + 1))
    if ask index = .NOERROR then (1, some index)
    else
      let rest := probeLoop ask capacity n
      (rest.1 + 1, rest.2)

/-- The loop over the items for one to stack with: its index, or the number of items that count. -/
def stackLoop (skips : Thing → Bool) (item : Thing) : (n : UInt32) → List Thing → Except (UInt32 × Thing) UInt32
  | n, [] => .ok n
  | n, tmpItem :: items =>
    if skips tmpItem then stackLoop skips item n items
    else if tmpItem.item.equals item.item && tmpItem.getItemCount < 100 then .error (n, tmpItem)
    else stackLoop skips item (n + 1) items

namespace Player

variable (s : Setting) (p : Player) (item : Arrival) (flags : UInt32)

/-- `Container::queryAdd`, of a container in the inventory. -/
def queryContainer (c : Spot) (addIndex : Int) (count : UInt32) : ReturnValue :=
  Cylinders.queryAdd s.limits
    (fun _ => p.queryAdd s INDEX_WHEREEVER item count (flags ||| FLAG_CHILDISOWNER)) c addIndex item.thing flags

/-- What is on offer in a trade, and the item itself, are passed over. -/
def skips (t : Thing) : Bool := p.tradeItem = some t.ref || t.ref == item.thing.label.ref

def autoStack : Bool := !(flags &&& FLAG_IGNOREAUTOSTACK = FLAG_IGNOREAUTOSTACK)

/-- Whether a stack is looked for. -/
def stacking : Bool := autoStack flags && item.thing.label.type.stackable

/-- The slots that are gone through. -/
def slots : List Nat := List.range' CONST_SLOT_FIRST (CONST_SLOT_AMMO + 1 - CONST_SLOT_FIRST)

/-- What a slot has to do with it. -/
def visitSlot (containers : List Spot) (slotIndex : Nat) : Except Destination (List Spot) :=
  let count := item.thing.label.getItemCount
  match p.inventory slotIndex with
  | some inventoryItem =>
    if p.skips item inventoryItem.label then .ok containers
    else if stacking item flags && p.queryAdd s slotIndex item count 0 = .NOERROR &&
        (inventoryItem.label.item.equals item.thing.label.item && inventoryItem.label.getItemCount < 100) then
      .error { cylinder := .player, index := slotIndex, destItem := some inventoryItem.label }
    else if inventoryItem.label.isContainer then .ok (containers ++ [⟨inventoryItem, [], .player⟩])
    else .ok containers
  | none =>
    if p.queryAdd s slotIndex item count flags = .NOERROR then .error { cylinder := .player, index := slotIndex }
    else .ok containers

/-- A container of the search. -/
def visit (probes : Probes) (tmpContainer : Spot) : Except (Destination × Probes) Probes :=
  let capacity := tmpContainer.capacity
  let queryAdd (index : Int) := p.queryContainer s item flags tmpContainer index item.thing.label.getItemCount
  if !stacking item flags then
    let n := (capacity.toUInt64 - UInt64.ofNat tmpContainer.length).toUInt32
    let found := probeLoop queryAdd capacity n.toNat
    let probes := probes ++ [(tmpContainer, found.1)]
    match found.2 with
    | some index => .error ({ cylinder := .container tmpContainer, index := index }, probes)
    | none => .ok probes
  else
    match stackLoop (p.skips item) item.thing.label 0 (tmpContainer.here.children.map label) with
    | .error (n, tmpItem) =>
      .error ({ cylinder := .container tmpContainer, index := toIndex n, destItem := some tmpItem }, probes)
    | .ok n =>
      if n < capacity ∧ queryAdd (toIndex n) = .NOERROR then
        .error ({ cylinder := .container tmpContainer, index := toIndex n }, probes)
      else .ok probes

/-- The containers of the search, in order: where a stack is looked for, what is passed over is not opened. -/
def searched : BreadthFirst Spot := subContainers fun t => !(stacking item flags && p.skips item t)

/-- `Player::queryDestination`, with the number of probes. -/
def queryDestination (index : Int) (destItem : Option Thing) : Destination × Probes :=
  if index = 0 ∨ index = INDEX_WHEREEVER then
    match slots.foldlM (p.visitSlot s item flags) [] with
    | .error found => (found, [])
    | .ok containers =>
      match (p.searched item flags).search (p.visit s item flags) containers [] with
      | .error found => found
      | .ok probes => ({ cylinder := .player, index := index }, probes)
  else
    match (if 0 ≤ index then p.getInventoryItem index.toNat else none) with
    | none => ({ cylinder := .player, index := index, destItem := destItem }, [])
    | some destThing =>
      if destThing.label.isContainer then
        ({ cylinder := .container ⟨destThing, [], .player⟩, index := INDEX_WHEREEVER }, [])
      else ({ cylinder := .player, index := index, destItem := some destThing.label }, [])

end Player

/-! ### Probing a container -/

namespace Spot

variable (c : Spot)

/-- How often the loop over the free slots goes round, where nothing is taken. -/
def rounds : UInt32 := (c.capacity.toUInt64 - UInt64.ofNat c.length).toUInt32

/-- More is in the container than its capacity, and not by a multiple of 2³². -/
def Overfull : Prop := c.capacity.toNat < c.length ∧ UInt32.ofNat c.length ≠ c.capacity

theorem capacity_lt : c.capacity.toNat < 2 ^ 16 := by
  rw [capacity, UInt16.toNat_toUInt32]
  exact c.here.label.info.maxSize.toNat_lt

theorem rounds_eq : c.rounds = c.capacity - UInt32.ofNat c.length := by
  rw [rounds, UInt64.toUInt32_sub, UInt64.toUInt32_ofNat', UInt32.toUInt32_toUInt64]

theorem toNat_rounds (h : ¬ c.Overfull) : c.rounds.toNat = c.capacity.toNat - c.length := by
  have hcapacity := c.capacity_lt
  rw [rounds_eq]
  by_cases hle : c.length ≤ c.capacity.toNat
  · rw [UInt32.toNat_sub, UInt32.toNat_ofNat']
    omega
  · have heq : UInt32.ofNat c.length = c.capacity := by_contra fun hne => h ⟨Nat.lt_of_not_le hle, hne⟩
    rw [heq, UInt32.sub_self]
    exact (Nat.sub_eq_zero_of_le (Nat.le_of_not_le hle)).symm

theorem rounds_pos (h : c.Overfull) : 0 < c.rounds.toNat := by
  rw [rounds_eq, Nat.pos_iff_ne_zero, UInt32.toNat_sub]
  intro hzero
  have hlength := (UInt32.ofNat c.length).toNat_lt
  have hcapacity := c.capacity.toNat_lt
  exact h.2 (UInt32.toNat_inj.mp (by omega))

end Spot

theorem probeLoop_le (ask : Int → ReturnValue) (capacity : UInt32) (n : Nat) : (probeLoop ask capacity n).1 ≤ n := by
  induction n with
  | zero => exact Nat.le_refl _
  | succ n ih =>
    simp only [probeLoop]
    split
    · exact Nat.succ_le_succ (Nat.zero_le n)
    · exact Nat.succ_le_succ ih

theorem probeLoop_pos (ask : Int → ReturnValue) (capacity : UInt32) {n : Nat} (h : 0 < n) :
    0 < (probeLoop ask capacity n).1 := by
  cases n with
  | zero => exact absurd h (Nat.lt_irrefl 0)
  | succ n =>
    simp only [probeLoop]
    split
    · exact Nat.one_pos
    · exact Nat.succ_pos _

theorem probeLoop_eq {ask : Int → ReturnValue} {capacity : UInt32} (hask : ∀ index, 0 ≤ index → ask index = ask 0)
    {n : Nat} (hle : n ≤ capacity.toNat) (hcapacity : capacity.toNat < 2 ^ 16) :
    (probeLoop ask capacity n).2 =
      if 0 < n ∧ ask 0 = .NOERROR then some ((capacity.toNat - n : Nat) : Int) else none := by
  induction n with
  | zero => rfl
  | succ n ih =>
    have hindex : toIndex (capacity - UInt32.ofNat (n + 1)) = ((capacity.toNat - (n + 1) : Nat) : Int) := by
      have hnat : (capacity - UInt32.ofNat (n + 1)).toNat = capacity.toNat - (n + 1) := by
        rw [UInt32.toNat_sub, UInt32.toNat_ofNat']
        omega
      rw [toIndex, BitVec.toInt_eq_toNat_of_lt, UInt32.toNat_toBitVec, hnat]
      rw [UInt32.toNat_toBitVec, hnat]
      omega
    simp only [probeLoop, hindex]
    rw [hask _ (Int.natCast_nonneg _)]
    by_cases hzero : ask 0 = .NOERROR
    · rw [if_pos hzero, if_pos ⟨Nat.succ_pos n, hzero⟩]
    · rw [if_neg hzero, if_neg fun h => hzero h.2, ih (by omega), if_neg fun h => hzero h.2]

namespace Player

variable (s : Setting) (p : Player) (item : Arrival) (flags : UInt32)

theorem queryContainer_index (c : Spot) (count : UInt32) {index : Int} (h : 0 ≤ index) :
    p.queryContainer s item flags c index count = p.queryContainer s item flags c 0 count := by
  have hindex : decide (index = INDEX_WHEREEVER) = false := decide_eq_false (Int.ne_of_gt (Int.lt_of_lt_of_le (by decide) h))
  have hzero : decide ((0 : Int) = INDEX_WHEREEVER) = false := rfl
  simp only [queryContainer, Cylinders.queryAdd, hindex, hzero]

/-- A container has a free slot, and takes the item. -/
def takes (c : Spot) : Bool :=
  c.length < c.capacity.toNat && p.queryContainer s item flags c 0 item.thing.label.getItemCount = .NOERROR

theorem visit_eq {c : Spot} (hstacking : stacking item flags = false) (h : ¬ c.Overfull) (probes : Probes) :
    ∃ n ≤ c.capacity.toNat - c.length, p.visit s item flags probes c =
      if p.takes s item flags c then
        .error ({ cylinder := .container c, index := (c.length : Int) }, probes ++ [(c, n)])
      else .ok (probes ++ [(c, n)]) := by
  have hrounds := c.toNat_rounds h
  have hcapacity := c.capacity_lt
  have heq := @probeLoop_eq
    (fun index => p.queryContainer s item flags c index item.thing.label.getItemCount) c.capacity
    (fun index hindex => p.queryContainer_index s item flags c _ hindex) c.rounds.toNat (by omega) hcapacity
  have hle := probeLoop_le (fun index => p.queryContainer s item flags c index item.thing.label.getItemCount)
    c.capacity c.rounds.toNat
  rw [hrounds] at heq hle
  refine ⟨_, hle, ?_⟩
  simp only [visit, hstacking, Bool.not_false, if_true]
  rw [← Spot.rounds, hrounds, heq, takes]
  by_cases htakes : c.length < c.capacity.toNat ∧
      p.queryContainer s item flags c 0 item.thing.label.getItemCount = .NOERROR
  · have hindex : ((c.capacity.toNat - (c.capacity.toNat - c.length) : Nat) : Int) = c.length := by omega
    simp only [Nat.sub_pos_iff_lt, if_pos htakes, hindex]
    rw [if_pos (by simpa using htakes)]
  · simp only [Nat.sub_pos_iff_lt, if_neg htakes]
    rw [if_neg (by simpa using htakes)]

theorem visit_overfull {c : Spot} (hstacking : stacking item flags = false) (h : c.Overfull) (probes : Probes) :
    ∃ n, 0 < n ∧ ((∃ found, p.visit s item flags probes c = .error (found, probes ++ [(c, n)])) ∨
      p.visit s item flags probes c = .ok (probes ++ [(c, n)])) := by
  refine ⟨_, probeLoop_pos (fun index => p.queryContainer s item flags c index item.thing.label.getItemCount)
    c.capacity (c.rounds_pos h), ?_⟩
  simp only [visit, hstacking, Bool.not_false, if_true]
  rw [← Spot.rounds]
  split
  · exact .inl ⟨_, rfl⟩
  · exact .inr rfl

end Player

/-! ### What is found -/

/-- A container that is found with a free slot takes the item there, and no container was probed more often than it has
free slots. -/
def Sound (item : Arrival) (found : Destination × Probes) : Prop :=
  (∀ c, found.1.cylinder = .container c → found.1.destItem = none →
    found.1.index < c.capacity.toNat ∧ c.addThing found.1.index item.thing = c.add item.thing) ∧
  ∀ r ∈ found.2, r.2 ≤ r.1.capacity.toNat - r.1.length

theorem Spot.addThing_of_lt (c : Spot) {index : Int} (h : index < c.capacity.toNat) (item : RoseTree Thing) :
    c.addThing index item = c.add item := by
  have hcapacity := c.capacity_lt
  rw [addThing, BitVec.toInt_eq_toNat_of_lt, UInt32.toNat_toBitVec, if_neg (Int.not_le.mpr h)]
  rw [UInt32.toNat_toBitVec]
  omega

/-- What a search comes to. -/
def outcome (index : Int) : Except (Destination × Probes) Probes → Destination × Probes
  | .error found => found
  | .ok probes => ({ cylinder := .player, index := index }, probes)

namespace Player

variable (s : Setting) (p : Player) (item : Arrival) (flags : UInt32)

theorem subset_outcome (index : Int) (containers : List Spot) (probes : Probes) :
    probes ⊆ (outcome index (containers.foldlM (p.visit s item flags) probes)).2 := by
  have hvisit (probes : Probes) (c : Spot) :
      (∃ found more, p.visit s item flags probes c = .error (found, probes ++ more)) ∨
        ∃ more, p.visit s item flags probes c = .ok (probes ++ more) := by
    simp only [visit]
    split
    · split
      · exact .inl ⟨_, _, rfl⟩
      · exact .inr ⟨_, rfl⟩
    split
    · exact .inl ⟨_, [], by rw [List.append_nil]⟩
    split
    · exact .inl ⟨_, [], by rw [List.append_nil]⟩
    · exact .inr ⟨[], by rw [List.append_nil]⟩
  induction containers generalizing probes with
  | nil => exact List.Subset.refl _
  | cons c containers ih =>
    rw [List.foldlM_cons]
    rcases hvisit probes c with ⟨found, more, heq⟩ | ⟨more, heq⟩
    · rw [heq]
      exact List.subset_append_left _ _
    · rw [heq]
      exact fun r hr => ih _ (List.mem_append_left _ hr)

/-- **The search where nothing is stacked.** It must not come upon a container that is too full. -/
theorem sound_walk_iff (hstacking : stacking item flags = false) (index : Int) (containers : List Spot)
    {probes : Probes} (h : ∀ r ∈ probes, r.2 ≤ r.1.capacity.toNat - r.1.length) :
    Sound item (outcome index (containers.foldlM (p.visit s item flags) probes)) ↔
      ∀ c ∈ containers.takeWhile fun c => !p.takes s item flags c, ¬ c.Overfull := by
  induction containers generalizing probes with
  | nil => exact ⟨fun _ c hc => absurd hc List.not_mem_nil, fun _ => ⟨nofun, h⟩⟩
  | cons c containers ih =>
    rw [List.foldlM_cons]
    by_cases hfull : c.Overfull
    · -- the container was probed, and has no free slot
      have htakes : p.takes s item flags c = false := by
        simp [takes, Nat.le_of_lt hfull.1]
      obtain ⟨n, hn, hvisit⟩ := p.visit_overfull s item flags hstacking hfull probes
      rw [List.takeWhile_cons_of_pos (by simp [htakes])]
      refine ⟨fun hsound => ?_, fun hall => absurd hfull (hall c List.mem_cons_self)⟩
      have hprobed : (c, n) ∈ (outcome index (do
          let probes ← p.visit s item flags probes c
          containers.foldlM (p.visit s item flags) probes)).2 := by
        rcases hvisit with ⟨found, hvisit⟩ | hvisit
        · rw [hvisit]
          exact List.mem_append_right _ List.mem_cons_self
        · rw [hvisit]
          exact p.subset_outcome s item flags index containers _ (List.mem_append_right _ List.mem_cons_self)
      have hle : n ≤ c.capacity.toNat - c.length := hsound.2 _ hprobed
      have hlt := hfull.1
      omega
    · obtain ⟨n, hn, hvisit⟩ := p.visit_eq s item flags hstacking hfull probes
      have hprobes : ∀ r ∈ probes ++ [(c, n)], r.2 ≤ r.1.capacity.toNat - r.1.length := by
        intro r hr
        rcases List.mem_append.mp hr with hr | hr
        · exact h r hr
        · rw [List.mem_singleton.mp hr]
          exact hn
      rw [hvisit]
      cases htakes : p.takes s item flags c with
      | true =>
        rw [List.takeWhile_cons_of_neg (by simp [htakes])]
        have hlt : c.length < c.capacity.toNat := by
          simp only [takes, Bool.and_eq_true, decide_eq_true_eq] at htakes
          exact htakes.1
        refine ⟨fun _ c hc => absurd hc List.not_mem_nil, fun _ => ⟨fun d hd _ => ?_, hprobes⟩⟩
        rw [← Place.container.inj hd]
        have hindex : (c.length : Int) < c.capacity.toNat := Int.ofNat_lt.mpr hlt
        exact ⟨hindex, c.addThing_of_lt hindex item.thing⟩
      | false =>
        rw [List.takeWhile_cons_of_pos (by simp [htakes]), List.forall_mem_cons]
        exact (ih hprobes).trans ⟨fun hall => ⟨hfull, hall⟩, And.right⟩

theorem sound_walk_of_stacking (hstacking : stacking item flags = true) (index : Int) (containers : List Spot) :
    Sound item (outcome index (containers.foldlM (p.visit s item flags) [])) := by
  induction containers with
  | nil => exact ⟨nofun, fun r hr => absurd hr List.not_mem_nil⟩
  | cons c containers ih =>
    have hnone (found : Destination) (h : ∀ c, found.cylinder = .container c → found.destItem = none →
        found.index < c.capacity.toNat ∧ c.addThing found.index item.thing = c.add item.thing) :
        Sound item (found, []) := ⟨h, fun r hr => absurd hr List.not_mem_nil⟩
    rw [List.foldlM_cons]
    simp only [visit, hstacking, Bool.not_true, Bool.false_eq_true, if_false]
    split
    · exact hnone _ fun d _ hitem => nomatch hitem
    split
    · rename_i n _ hroom
      refine hnone _ fun d hd _ => ?_
      rw [← Place.container.inj hd]
      have hcapacity := c.capacity_lt
      have hlt : n.toNat < c.capacity.toNat := UInt32.lt_iff_toNat_lt.mp hroom.1
      have hindex : toIndex n < c.capacity.toNat := by
        rw [toIndex, BitVec.toInt_eq_toNat_of_lt (by rw [UInt32.toNat_toBitVec]; omega), UInt32.toNat_toBitVec]
        exact Int.ofNat_lt.mpr hlt
      exact ⟨hindex, c.addThing_of_lt hindex item.thing⟩
    · exact ih

/-! ### The slots -/

/-- An empty slot takes the item. -/
def SlotTakes (slotIndex : Nat) : Prop :=
  p.inventory slotIndex = none ∧ p.queryAdd s slotIndex item item.thing.label.getItemCount flags = .NOERROR

/-- The container that is in a slot, if it is not passed over. -/
def containerIn (slotIndex : Nat) : Option Spot :=
  ((p.inventory slotIndex).filter fun t => !p.skips item t.label && t.label.isContainer).map (⟨·, [], .player⟩)

theorem visitSlot_error {containers : List Spot} {slotIndex : Nat} {found : Destination}
    (h : p.visitSlot s item flags containers slotIndex = .error found) : found.cylinder = .player := by
  simp only [visitSlot] at h
  split at h
  · split at h
    · cases h
    split at h
    · rw [← Except.error.inj h]
    split at h
    · cases h
    · cases h
  split at h
  · rw [← Except.error.inj h]
  · cases h

theorem visitSlots_error {l : List Nat} {containers : List Spot} {found : Destination}
    (h : l.foldlM (p.visitSlot s item flags) containers = .error found) : found.cylinder = .player := by
  induction l generalizing containers with
  | nil => cases h
  | cons slotIndex l ih =>
    rw [List.foldlM_cons] at h
    cases hvisit : p.visitSlot s item flags containers slotIndex with
    | error d =>
      rw [hvisit] at h
      rw [← Except.error.inj h]
      exact p.visitSlot_error s item flags hvisit
    | ok containers =>
      rw [hvisit] at h
      exact ih h

theorem visitSlots_eq (hstacking : stacking item flags = false) (l : List Nat) (containers : List Spot) :
    ((∃ slotIndex ∈ l, p.SlotTakes s item flags slotIndex) ∧
      ∃ found, l.foldlM (p.visitSlot s item flags) containers = .error found) ∨
    (¬ (∃ slotIndex ∈ l, p.SlotTakes s item flags slotIndex) ∧
      l.foldlM (p.visitSlot s item flags) containers = .ok (containers ++ l.filterMap (p.containerIn item))) := by
  induction l generalizing containers with
  | nil =>
    refine .inr ⟨fun h => ?_, ?_⟩
    · obtain ⟨slotIndex, hslot, -⟩ := h
      cases hslot
    · rw [List.filterMap_nil, List.append_nil]
      rfl
  | cons slotIndex l ih =>
    rw [List.foldlM_cons]
    by_cases htakes : p.SlotTakes s item flags slotIndex
    · refine .inl ⟨⟨slotIndex, List.mem_cons_self, htakes⟩, ?_⟩
      simp only [visitSlot, htakes.1, htakes.2, if_true]
      exact ⟨_, rfl⟩
    have hvisit : p.visitSlot s item flags containers slotIndex =
        .ok (containers ++ (p.containerIn item slotIndex).toList) := by
      cases hslot : p.inventory slotIndex with
      | none =>
        have hrefuses : ¬ p.queryAdd s slotIndex item item.thing.label.getItemCount flags = .NOERROR :=
          fun h => htakes ⟨hslot, h⟩
        simp [visitSlot, containerIn, hslot, hrefuses]
      | some inventoryItem =>
        by_cases hskips : p.skips item inventoryItem.label = true
        · simp [visitSlot, containerIn, hslot, hskips]
        by_cases hcontainer : inventoryItem.label.isContainer = true
        · simp [visitSlot, containerIn, hslot, hskips, hstacking, hcontainer, Option.filter]
        · simp [visitSlot, containerIn, hslot, hskips, hstacking, hcontainer]
    have hfilter : (slotIndex :: l).filterMap (p.containerIn item) =
        (p.containerIn item slotIndex).toList ++ l.filterMap (p.containerIn item) := by
      cases hin : p.containerIn item slotIndex with
      | none => rw [List.filterMap_cons_none hin, Option.toList_none, List.nil_append]
      | some c => rw [List.filterMap_cons_some hin, Option.toList_some, List.singleton_append]
    rw [hvisit, hfilter, ← List.append_assoc]
    rcases ih (containers ++ (p.containerIn item slotIndex).toList) with ⟨⟨other, hother, hother'⟩, hfound⟩ | ⟨hnot, hok⟩
    · exact .inl ⟨⟨other, List.mem_cons_of_mem _ hother, hother'⟩, hfound⟩
    · refine .inr ⟨fun h => ?_, hok⟩
      obtain ⟨other, hother, hother'⟩ := h
      rcases List.mem_cons.mp hother with rfl | hother
      · exact htakes hother'
      · exact hnot ⟨other, hother, hother'⟩

/-- **When a search is sound.** A stack is looked for, or an empty slot takes the item, or no container that is too full
comes before the first one that has a free slot and takes the item. -/
theorem queryDestination_sound_iff {index : Int} (h : index = 0 ∨ index = INDEX_WHEREEVER) (destItem : Option Thing) :
    Sound item (p.queryDestination s item flags index destItem) ↔
      stacking item flags = true ∨ (∃ slotIndex ∈ slots, p.SlotTakes s item flags slotIndex) ∨
        ∀ c ∈ ((p.searched item flags).order (slots.filterMap (p.containerIn item))).takeWhile
          fun c => !p.takes s item flags c, ¬ c.Overfull := by
  have hplayer (found : Destination) (hfound : found.cylinder = .player) : Sound item (found, []) := by
    refine ⟨fun c hc => ?_, fun r hr => absurd hr List.not_mem_nil⟩
    rw [hfound] at hc
    cases hc
  have hsearch (containers : List Spot) :
      (match (p.searched item flags).search (p.visit s item flags) containers [] with
      | .error found => found
      | .ok probes => ({ cylinder := .player, index := index }, probes)) =
        outcome index (((p.searched item flags).order containers).foldlM (p.visit s item flags) []) := by
    rw [BreadthFirst.search_eq]
    rfl
  rw [queryDestination, if_pos h]
  cases hstacking : stacking item flags with
  | true =>
    refine ⟨fun _ => .inl rfl, fun _ => ?_⟩
    split
    · rename_i found hfound
      exact hplayer found (p.visitSlots_error s item flags hfound)
    · rw [hsearch]
      exact p.sound_walk_of_stacking s item flags hstacking index _
  | false =>
    rcases p.visitSlots_eq s item flags hstacking slots [] with ⟨htakes, found, hfound⟩ | ⟨hnot, hok⟩
    · rw [hfound]
      exact ⟨fun _ => .inr (.inl htakes), fun _ => hplayer found (p.visitSlots_error s item flags hfound)⟩
    · rw [hok]
      simp only [List.nil_append, hsearch]
      rw [p.sound_walk_iff s item flags hstacking index _ (fun r hr => absurd hr List.not_mem_nil)]
      exact ⟨fun hall => .inr (.inr hall), fun hor => (hor.resolve_left Bool.false_ne_true).resolve_left hnot⟩

end Player

/-- A player with nothing. -/
def bare : Player := { inventory := fun _ => none }

def usual : Setting := { limits := ⟨1000, 1000⟩ }

/-- A helmet, for the head. -/
def helmet : Arrival := { thing := .node { ref := 0, item := { id := 3351 }, type := { slotPosition := 49 } } [] }

theorem queryDestination_sound_helmet : Sound helmet (Player.queryDestination usual bare helmet 0 INDEX_WHEREEVER none) :=
  (Player.queryDestination_sound_iff usual bare helmet 0 (.inr rfl) none).mpr
    (.inr (.inl ⟨1, by decide, rfl, by decide⟩))

/-- A book, which goes in no slot. -/
def book : Arrival := { thing := .node { ref := 0, item := { id := 2815 }, type := { slotPosition := 48 } } [] }

/-- A gold pouch with pages, and more stacks of coins than its capacity. -/
def pouch : RoseTree Thing :=
  .node { ref := 2, item := { id := 23721 }, container := some { pagination := true } }
    ((List.range 9).map fun n => .node (coin (n + 3)) [])

/-- A small bag that the pouch fills. -/
def smallBag : Thing := { ref := 1, item := { id := 2853 }, container := some { maxSize := 1 } }

/-- A player with no more than that. -/
def hoarder : Player where
  inventory slot := if slot = 3 then some (.node smallBag [pouch]) else none

/-- The search goes on to the pouch, and begins there past its capacity. -/
theorem pouch_not_sound : ¬ Sound book (Player.queryDestination usual hoarder book 0 INDEX_WHEREEVER none) := by
  have hslots : Player.slots.foldlM (hoarder.visitSlot usual book 0) [] =
      .ok [⟨.node smallBag [pouch], [], .player⟩] := rfl
  obtain ⟨rest, horder⟩ : ∃ rest, (hoarder.searched book 0).order [⟨.node smallBag [pouch], [], .player⟩] =
      ⟨.node smallBag [pouch], [], .player⟩ :: ⟨pouch, [⟨smallBag, [], []⟩], .player⟩ :: rest := by
    have hnext : (hoarder.searched book 0).next ⟨.node smallBag [pouch], [], .player⟩ =
        [⟨pouch, [⟨smallBag, [], []⟩], .player⟩] := rfl
    rw [BreadthFirst.order, hnext, List.nil_append, BreadthFirst.order]
    exact ⟨_, rfl⟩
  intro hsound
  rw [Player.queryDestination, if_pos (.inr rfl), hslots] at hsound
  simp only [BreadthFirst.search_eq, horder] at hsound
  have hall := (hoarder.sound_walk_iff usual book 0 rfl INDEX_WHEREEVER _ fun r hr => absurd hr List.not_mem_nil).mp hsound
  refine hall ⟨pouch, [⟨smallBag, [], []⟩], .player⟩ ?_ ⟨by decide, by decide⟩
  rw [List.takeWhile_cons_of_pos rfl, List.takeWhile_cons_of_pos rfl]
  exact List.mem_cons_of_mem _ List.mem_cons_self

end Cylinders

end Moonlight
