import Moonlight.Creatures.Imbuements
import Moonlight.Creatures.TypeRemoval
import Moonlight.Game.Payment
import Moonlight.Game.StashItems

/-!
# Applying an imbuement

`Player::onApplyImbuement` asks for every item that an imbuement needs whether there are enough pieces in the inventory
and the stash together, takes the price, takes the items, and rolls for success (creatures/players/player.cpp).

The items are taken in one of two ways. With too few in the inventory, all of these are removed, and the rest is
withdrawn from the stash. With enough of them, so many are removed, but those worn themselves do not count here, though
they did before; what `removeItemOfType` answers is not looked at. A player who wears one of the items that are needed
pays and keeps it.

`useItem_paid` and `useItem_unpaid` say what is taken for one item, `useItems_used` what is taken for all of them, and
`onApplyImbuement_iff` when what is charged is right.
-/

namespace Moonlight.ApplyImbuement

open RoseTree
open Game (HeldItem Purse CoinAdder COINS)
open Stash (StashItemList)
open ItemTypeCount (Carried Inventory)

/-- `BaseImbuement`: the price by the size of an imbuement. -/
structure BaseImbuement where
  price : UInt32
  protectionPrice : UInt32
  duration : Int32
  percent : UInt8

/-- An imbuement with the items it needs. The loader passes over an item that is there already. -/
structure Imbuement where
  id : UInt16
  baseid : UInt16
  items : List (UInt16 × UInt16)
  stats : Modifiers.Imbuement := {}
  distinct : (items.map Prod.fst).Nodup

/-- What the server has loaded. -/
structure Registry where
  table : CoinTable
  clientIdOf : UInt16 → UInt16
  nameOf : UInt16 → String
  getImbuement : UInt16 → Option Imbuement
  getBaseByID : UInt16 → Option BaseImbuement

/-- What the client is sent. -/
inductive Message where
  | imbuementResult (text : String)
  | status (text : String)
  | imbuementWindow (item : Nat)

/-- A player, with the custom attributes that items have for their imbuement slots. -/
structure Player where
  purse : Purse
  refs : purse.Distinct
  stashItems : StashItemList := []
  customAttribute : Nat → UInt8 → Option Int64 := fun _ _ => none
  canRemove : Nat → Bool := fun _ => true
  creature : Modifiers.Creature := {}
  messages : List Message := []

namespace Player

variable (r : Registry) (s : Player)

/-! ### The inventory -/

def carried (i : HeldItem) : Carried where
  ref := i.ref
  item := { id := i.id, count := i.count }
  isContainer := i.isContainer
  canRemove := s.canRemove i.ref

def heldItem (a : Carried) : HeldItem := ⟨a.ref, a.item.id, a.item.count, a.isContainer⟩

/-- What the player carries. -/
def inventory : Inventory where
  slots := maps s.carried s.purse.things
  refs := by
    rw [labelsOf_maps, List.map_map]
    exact s.refs
  sound := by
    refine all_maps (fun i ts hts hplain => ?_) s.purse.things s.purse.sound
    rw [hts hplain, maps]

def setInventory (inv : Inventory) : Player :=
  { s with
    purse := { s.purse with
      things := maps heldItem inv.slots
      sound := by
        refine all_maps (fun a ts hts hplain => ?_) inv.slots inv.sound
        rw [hts hplain, maps] }
    refs := by
      rw [Purse.Distinct, labelsOf_maps, List.map_map]
      exact inv.refs }

/-- `Player::getItemTypeCount`. -/
def getItemTypeCount (itemId : UInt16) : UInt32 := s.inventory.getItemTypeCount r.table.items itemId (-1)

/-- `Player::removeItemOfType`, which does not spare imbued items here. -/
def removeItemOfType (itemId : UInt16) (amount : UInt32) (ignoreEquipped : Bool) : Bool × Player :=
  let (removed, inv) := s.inventory.removeItemOfType r.table.items itemId amount (-1) ignoreEquipped true
  (removed, s.setInventory inv)

/-- `Player::withdrawItem`. -/
def withdrawItem (clientId : UInt16) (amount : UInt32) : Player :=
  { s with stashItems := (StashItemList.withdrawItem s.stashItems clientId amount).getD s.stashItems }

/-! ### The imbuement of an item -/

/-- `Item::getImbuementInfo`, of an item and a slot: whether there is an imbuement. -/
def getImbuementInfo (item : Nat) (slot : UInt8) : Bool :=
  let info := ((s.customAttribute item slot).getD 0).toUInt64.toUInt32
  let imbuement := r.getImbuement (info &&& 0xFF).toUInt16
  let duration := info >>> 8
  duration ≠ 0 && imbuement.isSome

/-- What `Item::setImbuement` writes. -/
def slotValue (id : UInt16) (duration : Int32) : Int64 :=
  if 0 < duration then (duration <<< 8 ||| id.toUInt32.toInt32).toInt64 else 0

/-- `Item::setImbuement`. -/
def setImbuement (item : Nat) (slot : UInt8) (id : UInt16) (duration : Int32) : Player :=
  { s with
    customAttribute := Function.update s.customAttribute item
      (Function.update (s.customAttribute item) slot (some (slotValue id duration))) }

def send (message : Message) : Player := { s with messages := s.messages ++ [message] }

/-! ### Applying -/

/-- Whether there is enough of an item. -/
def hasItem (item : UInt16 × UInt16) : Bool :=
  let (key, value) := item
  !(s.getItemTypeCount r key + (StashItemList.getStashItemCount s.stashItems (r.clientIdOf key)).toUInt32 <
    value.toUInt32)

/-- A round of the loop that takes the items, with what is put into the message. -/
def useItem (item : UInt16 × UInt16) : Player × String :=
  let (key, value) := item
  let inventoryItemCount := s.getItemTypeCount r key
  if inventoryItemCount ≥ value.toUInt32 then ((s.removeItemOfType r key value.toUInt32 true).2, "")
  else
    let (removed, s) :=
      if inventoryItemCount > 0 then s.removeItemOfType r key inventoryItemCount false else (false, s)
    let mathItemCount := if removed then value.toUInt32 - inventoryItemCount else value.toUInt32
    (s.withdrawItem (r.clientIdOf key) mathItemCount,
      "Using " ++ toString mathItemCount ++ "x " ++ r.nameOf key ++ " from your supply stash. ")

def useItems (items : List (UInt16 × UInt16)) : Player × String :=
  items.foldl (fun s item =>
    let (player, text) := s.1.useItem r item
    (player, s.2 ++ text)) (s, "")

end Player

/-- The price, in 32 bits. -/
def BaseImbuement.priceOf (baseImbuement : BaseImbuement) (protectionCharm : Bool) : UInt32 :=
  baseImbuement.price + if protectionCharm then baseImbuement.protectionPrice else 0

namespace Player

variable (r : Registry) (adder : CoinAdder) (s : Player)

def failedText : String :=
  "Oh no!\n\nThe imbuement has failed. You have lost the astral sources and gold you needed for the imbuement.\n\n" ++
    "Next time use a protection charm to better your chances."

/-- What comes after the items: `roll` is the random number. -/
def finish (imbuement : Imbuement) (baseImbuement : BaseImbuement) (item : Nat) (slot : UInt8) (protectionCharm : Bool)
    (roll : Int) : Player :=
  if !protectionCharm && roll > baseImbuement.percent.toNat then
    ((s.send (.imbuementWindow item)).send (.imbuementResult failedText)).send (.imbuementWindow item)
  else
    let s := if item ∈ s.purse.things.map fun t => t.label.ref then
        { s with creature := s.creature.addItemImbuementStats imbuement.stats }
      else s
    (s.setImbuement item slot imbuement.id baseImbuement.duration).send (.imbuementWindow item)

/-- `Player::onApplyImbuement`, for an imbuement and an item that are there. -/
def onApplyImbuement (imbuement : Imbuement) (item : Nat) (slot : UInt8) (protectionCharm : Bool) (roll : Int) :
    Player :=
  if imbuement.items.any fun item => !s.hasItem r item then
    s.send (.imbuementResult "You don't have all necessary items.")
  else if s.getImbuementInfo r item slot then
    s.send (.imbuementResult "An error ocurred, please reopen imbuement window.")
  else
    match r.getBaseByID imbuement.baseid with
    | none => s
    | some baseImbuement =>
      let price := baseImbuement.priceOf protectionCharm
      let purse := Purse.removeMoney r.table adder.internalAddItem s.purse price.toUInt64 true
      let s := { s with
        purse := purse.2
        refs := (Purse.removeMoney_moved r.table adder s.purse price.toUInt64 true).distinct s.refs }
      if !purse.1 then s.send (.imbuementResult ("You don't have " ++ toString price ++ " gold coins."))
      else
        let (s, withdrawItemMessage) := s.useItems r imbuement.items
        (s.send (.status withdrawItemMessage)).finish imbuement baseImbuement item slot protectionCharm roll

end Player

/-! ### Counting -/

/-- The pieces of a type. -/
def piecesOf (l : List HeldItem) (id : UInt16) : Nat := ((l.filter fun i => i.id = id).map fun i => i.count.toNat).sum

theorem piecesOf_eq {ids : List UInt16} {l l' : List HeldItem}
    (h : (l'.filter fun i => i.id ∉ ids).Perm (l.filter fun i => i.id ∉ ids)) {id : UInt16} (hid : id ∉ ids) :
    piecesOf l' id = piecesOf l id := by
  have hfilter (l : List HeldItem) :
      l.filter (fun i => i.id = id) = (l.filter fun i => i.id ∉ ids).filter fun i => i.id = id := by
    rw [List.filter_filter]
    refine List.filter_congr fun i _ => ?_
    by_cases hi : i.id = id
    · simp [hi, hid]
    · simp [hi]
  rw [piecesOf, piecesOf, hfilter l', hfilter l]
  exact ((h.filter _).map _).sum_eq

namespace Player

variable (s : Player)

/-- The pieces of a type that the player carries. -/
def pieces (id : UInt16) : Nat := piecesOf (labelsOf s.purse.things) id

/-- Those that are worn themselves. -/
def worn (id : UInt16) : Nat := piecesOf (s.purse.things.map label) id

/-- What is in the stash for a type. -/
def stored (r : Registry) (id : UInt16) : Nat := StashItemList.held s.stashItems (r.clientIdOf id)

theorem setInventory_inventory : s.setInventory s.inventory = s := by
  have hthings : maps heldItem (maps s.carried s.purse.things) = s.purse.things :=
    maps_leftInverse (fun _ => rfl) s.purse.things
  rw [setInventory]
  simp only [inventory, hthings]

variable {s} {r : Registry} {id : UInt16}

theorem tally_carried (l : List HeldItem) :
    ItemTypeCount.tally r.table.items id (-1) (l.map s.carried) = piecesOf l id := by
  rw [ItemTypeCount.tally_eq, piecesOf, List.filter_map, List.map_map]
  rfl

theorem tally_heldItem (l : List Carried) :
    piecesOf (l.map heldItem) id = ItemTypeCount.tally r.table.items id (-1) l := by
  rw [ItemTypeCount.tally_eq, piecesOf, List.filter_map, List.map_map]
  rfl

theorem pieces_inventory : s.inventory.pieces r.table.items id (-1) = s.pieces id := by
  rw [Inventory.pieces, inventory, labelsOf_maps, tally_carried, pieces]

theorem worn_inventory : ItemTypeCount.tally r.table.items id (-1) (s.inventory.slots.map label) = s.worn id := by
  rw [inventory, roots_maps, tally_carried, worn]

theorem pieces_setInventory (inv : Inventory) : (s.setInventory inv).pieces id = inv.pieces r.table.items id (-1) := by
  rw [pieces, setInventory, labelsOf_maps, tally_heldItem (r := r), Inventory.pieces]

theorem toNat_getItemTypeCount : (s.getItemTypeCount r id).toNat = s.pieces id % 2 ^ 32 := by
  rw [getItemTypeCount, Inventory.toNat_getItemTypeCount, pieces_inventory]

theorem toNat_getStashItemCount (stashItems : StashItemList) (clientId : UInt16) :
    (StashItemList.getStashItemCount stashItems clientId).toNat = StashItemList.held stashItems clientId % 2 ^ 16 := by
  rw [StashItemList.getStashItemCount, StashItemList.held]
  cases stashItems.lookup clientId with
  | none => rfl
  | some count => exact UInt32.toNat_toUInt16 count

/-- If the pieces carried are not enough, the stash has the rest. -/
def Covered (s : Player) (r : Registry) (item : UInt16 × UInt16) : Prop :=
  s.pieces item.1 % 2 ^ 32 < item.2.toNat → item.2.toNat ≤ s.pieces item.1 % 2 ^ 32 + s.stored r item.1

theorem hasItem_iff {item : UInt16 × UInt16} : s.hasItem r item = true ↔
    item.2.toNat ≤ (s.pieces item.1 % 2 ^ 32 + s.stored r item.1 % 2 ^ 16) % 2 ^ 32 := by
  rw [hasItem, Bool.not_eq_true', decide_eq_false_iff_not, UInt32.lt_iff_toNat_lt, UInt32.toNat_add,
    toNat_getItemTypeCount, UInt16.toNat_toUInt32, UInt16.toNat_toUInt32, toNat_getStashItemCount, Nat.not_lt, stored]

theorem covered_of_hasItem {item : UInt16 × UInt16} (h : s.hasItem r item = true) : s.Covered r item := by
  intro hless
  have hvalue := item.2.toNat_lt
  have hstash := Nat.mod_le (s.stored r item.1) (2 ^ 16)
  have hmod := Nat.mod_lt (s.stored r item.1) (show 0 < 2 ^ 16 by decide)
  rw [hasItem_iff] at h
  omega

/-! ### One item -/

/-- The pieces of a type hold nothing and can be removed, and one that is no stack is one piece. -/
def PlainItem (s : Player) (r : Registry) (id : UInt16) : Prop :=
  ∀ i ∈ labelsOf s.purse.things, i.id = id →
    i.isContainer = false ∧ s.canRemove i.ref = true ∧ ((r.table.items id).stackable = false → i.count = 1)

theorem PlainItem.plainType (h : s.PlainItem r id) : ItemTypeCount.PlainType r.table.items s.inventory id := by
  intro a ha hid
  rw [inventory, labelsOf_maps] at ha
  obtain ⟨i, hi, rfl⟩ := List.mem_map.mp ha
  obtain ⟨hleaf, hremove, hsingle⟩ := h i hi hid
  refine ⟨hleaf, hremove, fun hstackable => ?_⟩
  have hcount : i.count = 1 := hsingle (by rwa [← hid])
  show i.count.toNat = 1
  rw [hcount]
  rfl

/-- The pieces that are not worn are as many as needed, if all pieces carried are. -/
def Loose (s : Player) (item : UInt16 × UInt16) : Prop :=
  item.2.toNat ≤ s.pieces item.1 % 2 ^ 32 → item.2.toNat + s.worn item.1 ≤ s.pieces item.1

/-- What is not in the slots is as it was. -/
structure Beside (s s' : Player) : Prop where
  tile : s'.purse.tile = s.purse.tile
  bankBalance : s'.purse.bankBalance = s.purse.bankBalance
  customAttribute : s'.customAttribute = s.customAttribute
  canRemove : s'.canRemove = s.canRemove

theorem Beside.trans {s s' s'' : Player} (h : Beside s s') (h' : Beside s' s'') : Beside s s'' :=
  ⟨h'.tile.trans h.tile, h'.bankBalance.trans h.bankBalance, h'.customAttribute.trans h.customAttribute,
    h'.canRemove.trans h.canRemove⟩

theorem others_setInventory {l : List HeldItem} {l' : List Carried}
    (h : l'.filter (fun a => a.item.id ≠ id) = (l.map s.carried).filter fun a => a.item.id ≠ id) :
    (l'.map heldItem).filter (fun i => i.id ∉ [id]) = l.filter fun i => i.id ∉ [id] := by
  have hothers (l : List HeldItem) : l.filter (fun i => i.id ∉ [id]) = l.filter fun i => i.id ≠ id :=
    List.filter_congr fun i _ => decide_eq_decide.mpr (not_congr List.mem_singleton)
  have hback (l : List HeldItem) : (l.map s.carried).map heldItem = l := (List.map_map ..).trans (List.map_id l)
  have hheld := congrArg (List.map heldItem) h
  rw [List.filter_map, hback] at hheld
  rw [hothers, hothers, List.filter_map]
  exact hheld

/-- So many pieces of a type are taken from what the player carries. -/
structure Takes (s s' : Player) (id : UInt16) (n : Nat) : Prop where
  pieces : s'.pieces id + n = s.pieces id
  spares : Purse.Spares [id] s.purse s'.purse
  beside : Beside s s'
  stashItems : s'.stashItems = s.stashItems

theorem takes_setInventory {inv : Inventory} {n : Nat}
    (h : ItemTypeCount.Takes r.table.items id n s.inventory inv) : Takes s (s.setInventory inv) id n where
  pieces := by
    rw [pieces_setInventory (r := r), h.pieces, pieces_inventory]
  spares := by
    have hothers := h.others
    have hworn := h.worn
    rw [inventory, labelsOf_maps] at hothers
    rw [inventory, roots_maps] at hworn
    refine ⟨List.Perm.of_eq ?_, List.Perm.of_eq ?_⟩
    · rw [setInventory, labelsOf_maps]
      exact others_setInventory hothers
    · rw [setInventory, roots_maps]
      exact others_setInventory hworn
  beside := ⟨rfl, rfl, rfl, rfl⟩
  stashItems := rfl

theorem removeItemOfType_loose (h : s.PlainItem r id) {amount : UInt32} (hamount : 0 < amount)
    (hsmall : amount.toNat + 255 ≤ 2 ^ 32) :
    (s.pieces id < amount.toNat + s.worn id → s.removeItemOfType r id amount true = (false, s)) ∧
      (amount.toNat + s.worn id ≤ s.pieces id →
        ∃ s', s.removeItemOfType r id amount true = (true, s') ∧ Takes s s' id amount.toNat) := by
  obtain ⟨hshort, henough⟩ :=
    @ItemTypeCount.removeItemOfType_plain r.table.items id s.inventory amount true h.plainType hamount hsmall
  have hsum := @ItemTypeCount.sum_reached_loose r.table.items id s.inventory
  rw [pieces_inventory, worn_inventory] at hsum
  refine ⟨fun hless => ?_, fun hle => ?_⟩
  · rw [removeItemOfType, hshort (by omega)]
    exact congrArg (Prod.mk false) s.setInventory_inventory
  · obtain ⟨inv, hinv, htakes⟩ := henough (by omega)
    rw [removeItemOfType, hinv]
    exact ⟨_, rfl, takes_setInventory htakes⟩

theorem removeItemOfType_all (h : s.PlainItem r id) {amount : UInt32} (hamount : 0 < amount)
    (hsmall : amount.toNat + 255 ≤ 2 ^ 32) (hle : amount.toNat ≤ s.pieces id) :
    ∃ s', s.removeItemOfType r id amount false = (true, s') ∧ Takes s s' id amount.toNat := by
  obtain ⟨-, henough⟩ :=
    @ItemTypeCount.removeItemOfType_plain r.table.items id s.inventory amount false h.plainType hamount hsmall
  rw [ItemTypeCount.sum_reached_all h.plainType, pieces_inventory] at henough
  obtain ⟨inv, hinv, htakes⟩ := henough hle
  rw [removeItemOfType, hinv]
  exact ⟨_, rfl, takes_setInventory htakes⟩

/-- Some items that are needed have been taken, so much of each from the inventory and the stash together. -/
structure Used (r : Registry) (paid : UInt16 × UInt16 → Nat) (needed : List (UInt16 × UInt16)) (s s' : Player) :
    Prop where
  items : ∀ item ∈ needed,
    s'.pieces item.1 + s'.stored r item.1 + paid item = s.pieces item.1 + s.stored r item.1
  spares : Purse.Spares (needed.map Prod.fst) s.purse s'.purse
  stash : ∀ clientId ∉ needed.map fun item => r.clientIdOf item.1,
    StashItemList.held s'.stashItems clientId = StashItemList.held s.stashItems clientId
  beside : Beside s s'

instance (s : Player) (item : UInt16 × UInt16) : Decidable (s.Loose item) := inferInstanceAs (Decidable (_ → _))

/-- What is paid of an item. -/
def paid (s : Player) (item : UInt16 × UInt16) : Nat := if s.Loose item then item.2.toNat else 0

theorem useItem_unpaid {item : UInt16 × UInt16} (h : s.PlainItem r item.1) (hpaid : s.paid item = 0) :
    s.useItem r item = (s, "") := by
  obtain ⟨key, value⟩ := item
  have hvalue := value.toNat_lt
  have htoNat : value.toUInt32.toNat = value.toNat := UInt16.toNat_toUInt32 value
  have hsame (hremoved : (s.removeItemOfType r key value.toUInt32 true).2 = s)
      (hle : value.toNat ≤ s.pieces key % 2 ^ 32) : s.useItem r (key, value) = (s, "") := by
    have hge : s.getItemTypeCount r key ≥ value.toUInt32 := by
      rw [ge_iff_le, UInt32.le_iff_toNat_le, toNat_getItemTypeCount, htoNat]
      exact hle
    rw [useItem]
    dsimp only
    rw [if_pos hge, hremoved]
  by_cases hzero : value = 0
  · subst hzero
    refine hsame ?_ (Nat.zero_le _)
    exact s.setInventory_inventory
  have hpos : 0 < value.toNat := Nat.pos_of_ne_zero fun hz => hzero (UInt16.toNat_inj.mp hz)
  have hnot : ¬ s.Loose (key, value) := by
    intro hloose
    rw [paid, if_pos hloose] at hpaid
    exact Nat.ne_of_gt hpos hpaid
  obtain ⟨hle, hworn⟩ := Classical.not_imp.mp hnot
  have hamount : 0 < value.toUInt32 := by
    rw [UInt32.lt_iff_toNat_lt, htoNat]
    exact hpos
  dsimp only at h hle hworn
  refine hsame ?_ hle
  rw [((removeItemOfType_loose h hamount (by omega)).1 (by omega))]

theorem withdrawItem_held {clientId : UInt16} {amount : UInt32}
    (hle : amount.toNat ≤ StashItemList.held s.stashItems clientId) :
    StashItemList.held (s.withdrawItem clientId amount).stashItems clientId + amount.toNat =
        StashItemList.held s.stashItems clientId ∧
      ∀ other ≠ clientId, StashItemList.held (s.withdrawItem clientId amount).stashItems other =
        StashItemList.held s.stashItems other := by
  rw [withdrawItem]
  dsimp only
  rcases StashItemList.withdrawItem_spec s.stashItems clientId amount with
    ⟨rest, hrest, hheld, hothers⟩ | ⟨hnone, hlittle⟩
  · rw [hrest, Option.getD_some]
    exact ⟨hheld.symm, hothers⟩
  · -- nothing was to be withdrawn
    have hzero : amount.toNat = 0 := by
      rcases hlittle with hlookup | hless
      · rw [StashItemList.held, hlookup] at hle
        exact Nat.le_zero.mp hle
      · omega
    rw [hnone, Option.getD_none, hzero]
    exact ⟨rfl, fun _ _ => rfl⟩

theorem Takes.refl (s : Player) (id : UInt16) : Takes s s id 0 :=
  ⟨rfl, Purse.Spares.refl [id] s.purse, ⟨rfl, rfl, rfl, rfl⟩, rfl⟩

theorem Takes.used {s₁ : Player} {item : UInt16 × UInt16} {n : Nat} (h : Takes s s₁ item.1 n) {amount : UInt32}
    (hsum : n + amount.toNat = s.paid item) (hle : amount.toNat ≤ s.stored r item.1) :
    Used r s.paid [item] s (s₁.withdrawItem (r.clientIdOf item.1) amount) := by
  rw [stored, ← h.stashItems] at hle
  obtain ⟨hheld, hothers⟩ := withdrawItem_held hle
  refine ⟨?_, h.spares, fun clientId hother => ?_, h.beside.trans ⟨rfl, rfl, rfl, rfl⟩⟩
  · have hpieces := h.pieces
    have hsame : (s₁.withdrawItem (r.clientIdOf item.1) amount).pieces item.1 = s₁.pieces item.1 := rfl
    rw [h.stashItems] at hheld
    rw [List.forall_mem_singleton, hsame, stored, stored]
    omega
  · rw [List.map_singleton, List.mem_singleton] at hother
    rw [hothers clientId hother, h.stashItems]

/-- **One item.** So many pieces are taken as are needed, if those that are not worn are enough. -/
theorem useItem_paid {item : UInt16 × UInt16} (h : s.PlainItem r item.1) (hcovered : s.Covered r item)
    (hpos : 0 < item.2.toNat) (hloose : s.Loose item) : Used r s.paid [item] s (s.useItem r item).1 := by
  obtain ⟨key, value⟩ := item
  have hvalue := value.toNat_lt
  have htoNat : value.toUInt32.toNat = value.toNat := UInt16.toNat_toUInt32 value
  have hcount : (s.getItemTypeCount r key).toNat = s.pieces key % 2 ^ 32 := toNat_getItemTypeCount
  have hpaid : s.paid (key, value) = value.toNat := if_pos hloose
  rw [Covered] at hcovered
  rw [Loose] at hloose
  dsimp only at h hpos hcovered hloose
  rw [useItem]
  dsimp only
  by_cases hge : s.getItemTypeCount r key ≥ value.toUInt32
  · have hle : value.toNat ≤ s.pieces key % 2 ^ 32 := by
      rwa [ge_iff_le, UInt32.le_iff_toNat_le, hcount, htoNat] at hge
    have hamount : 0 < value.toUInt32 := by
      rw [UInt32.lt_iff_toNat_lt, htoNat]
      exact hpos
    have hfree : value.toUInt32.toNat + s.worn key ≤ s.pieces key := by
      rw [htoNat]
      exact hloose hle
    obtain ⟨s', hremoved, htakes⟩ := (removeItemOfType_loose h hamount (by omega)).2 hfree
    have hpieces := htakes.pieces
    rw [if_pos hge, hremoved]
    refine ⟨?_, htakes.spares, fun clientId _ => congrArg (StashItemList.held · clientId) htakes.stashItems,
      htakes.beside⟩
    rw [List.forall_mem_singleton, hpaid, stored, stored, htakes.stashItems]
    dsimp only
    omega
  · have hless : s.pieces key % 2 ^ 32 < value.toNat := by
      rwa [ge_iff_le, UInt32.le_iff_toNat_le, hcount, htoNat, Nat.not_le] at hge
    have hrest := hcovered hless
    rw [if_neg hge]
    by_cases hsome : s.getItemTypeCount r key > 0
    · have hle := Nat.mod_le (s.pieces key) (2 ^ 32)
      obtain ⟨s₁, hremoved, htakes⟩ := removeItemOfType_all h hsome (by omega) (hcount ▸ hle)
      have hmath : (value.toUInt32 - s.getItemTypeCount r key).toNat = value.toNat - s.pieces key % 2 ^ 32 := by
        rw [UInt32.toNat_sub_of_le _ _ (UInt32.le_of_lt (UInt32.not_le.mp hge)), htoNat, hcount]
      rw [if_pos hsome, hremoved]
      refine @Takes.used s r s₁ (key, value) _ htakes _ ?_ ?_
      · rw [if_pos rfl, hmath, hcount, hpaid]
        omega
      · rw [if_pos rfl, hmath]
        exact Nat.sub_le_of_le_add (Nat.add_comm _ _ ▸ hrest)
    · have hnone : s.pieces key % 2 ^ 32 = 0 := by
        rw [gt_iff_lt, UInt32.lt_iff_toNat_lt, hcount] at hsome
        exact Nat.eq_zero_of_not_pos hsome
      rw [if_neg hsome]
      refine @Takes.used s r s (key, value) _ (Takes.refl s key) _ ?_ ?_
      · rw [if_neg Bool.false_ne_true, htoNat, hpaid, Nat.zero_add]
      · rw [if_neg Bool.false_ne_true, htoNat]
        rwa [hnone, Nat.zero_add] at hrest

theorem useItem_used {item : UInt16 × UInt16} (h : s.PlainItem r item.1) (hcovered : s.Covered r item) :
    Used r s.paid [item] s (s.useItem r item).1 := by
  by_cases hpaid : s.paid item = 0
  · rw [useItem_unpaid h hpaid]
    refine ⟨?_, Purse.Spares.refl _ _, fun _ _ => rfl, ⟨rfl, rfl, rfl, rfl⟩⟩
    rw [List.forall_mem_singleton, hpaid]
    rfl
  · have hloose : s.Loose item := by
      by_contra hnot
      exact hpaid (if_neg hnot)
    rw [paid, if_pos hloose] at hpaid
    exact useItem_paid h hcovered (Nat.pos_of_ne_zero hpaid) hloose

/-! ### All items -/

theorem paid_of_spares {s s' : Player} {ids : List UInt16} (h : Purse.Spares ids s.purse s'.purse)
    {item : UInt16 × UInt16} (hid : item.1 ∉ ids) : s'.paid item = s.paid item := by
  have hpieces : s'.pieces item.1 = s.pieces item.1 := piecesOf_eq h.things hid
  have hworn : s'.worn item.1 = s.worn item.1 := piecesOf_eq h.roots hid
  rw [paid, paid]
  refine if_congr ?_ rfl rfl
  rw [Loose, Loose, hpieces, hworn]

theorem PlainItem.of_spares {s s' : Player} {ids : List UInt16} (hplain : s.PlainItem r id)
    (h : Purse.Spares ids s.purse s'.purse) (hremove : s'.canRemove = s.canRemove) (hid : id ∉ ids) :
    s'.PlainItem r id := by
  intro i hi hof
  have hmem : i ∈ (labelsOf s'.purse.things).filter fun i => i.id ∉ ids :=
    List.mem_filter.mpr ⟨hi, decide_eq_true (hof ▸ hid)⟩
  rw [hremove]
  exact hplain i (List.mem_filter.mp (h.things.subset hmem)).1 hof

theorem Covered.of_spares {s s' : Player} {ids : List UInt16} {item : UInt16 × UInt16} (hcovered : s.Covered r item)
    (h : Purse.Spares ids s.purse s'.purse) (hid : item.1 ∉ ids) (hstored : s'.stored r item.1 = s.stored r item.1) :
    s'.Covered r item := by
  have hpieces : s'.pieces item.1 = s.pieces item.1 := piecesOf_eq h.things hid
  rw [Covered, hpieces, hstored]
  exact hcovered

theorem Used.congr {paid paid' : UInt16 × UInt16 → Nat} {needed : List (UInt16 × UInt16)} {s s' : Player}
    (h : Used r paid needed s s') (hpaid : ∀ item ∈ needed, paid' item = paid item) : Used r paid' needed s s' :=
  ⟨fun item hitem => hpaid item hitem ▸ h.items item hitem, h.spares, h.stash, h.beside⟩

theorem Used.cons {paid : UInt16 × UInt16 → Nat} {a : UInt16 × UInt16} {needed : List (UInt16 × UInt16)}
    {s s₁ s' : Player} (h : Used r paid [a] s s₁) (h' : Used r paid needed s₁ s')
    (hid : a.1 ∉ needed.map Prod.fst) (hclient : r.clientIdOf a.1 ∉ needed.map fun item => r.clientIdOf item.1) :
    Used r paid (a :: needed) s s' := by
  refine ⟨List.forall_mem_cons.mpr ⟨?_, fun item hitem => ?_⟩, ?_, fun clientId hother => ?_,
    h.beside.trans h'.beside⟩
  · have hpieces : s'.pieces a.1 = s₁.pieces a.1 := piecesOf_eq h'.spares.things hid
    have hstored : s'.stored r a.1 = s₁.stored r a.1 := h'.stash _ hclient
    rw [hpieces, hstored]
    exact h.items a List.mem_cons_self
  · have hother : item.1 ∉ [a].map Prod.fst := by
      rw [List.map_singleton, List.mem_singleton]
      exact fun heq => hid (heq ▸ List.mem_map_of_mem hitem)
    have hclient' : r.clientIdOf item.1 ∉ [a].map fun item => r.clientIdOf item.1 := by
      rw [List.map_singleton, List.mem_singleton]
      exact fun heq => hclient (heq ▸ List.mem_map.mpr ⟨item, hitem, rfl⟩)
    have hpieces : s₁.pieces item.1 = s.pieces item.1 := piecesOf_eq h.spares.things hother
    have hstored : s₁.stored r item.1 = s.stored r item.1 := h.stash _ hclient'
    rw [← hpieces, ← hstored]
    exact h'.items item hitem
  · refine (h.spares.mono ?_).trans (h'.spares.mono ?_)
    · rw [List.map_singleton, List.map_cons]
      exact List.cons_subset_cons _ (List.nil_subset _)
    · exact List.subset_cons_self _ _
  · rw [List.map_cons, List.mem_cons, not_or] at hother
    rw [h'.stash clientId hother.2]
    refine h.stash clientId ?_
    rw [List.map_singleton, List.mem_singleton]
    exact hother.1

theorem useItems_eq (needed : List (UInt16 × UInt16)) (s : Player) :
    (s.useItems r needed).1 = needed.foldl (fun s item => (s.useItem r item).1) s := by
  have hloop (needed : List (UInt16 × UInt16)) (s : Player) (text : String) :
      (needed.foldl (fun (s : Player × String) item =>
        let (player, more) := s.1.useItem r item
        (player, s.2 ++ more)) (s, text)).1 = needed.foldl (fun s item => (s.useItem r item).1) s := by
    induction needed generalizing s text with
    | nil => rfl
    | cons item needed ih => exact ih _ _
  exact hloop needed s ""

/-- **All items.** Of each as much is taken as what is paid of it to begin with. -/
theorem useItems_used {needed : List (UInt16 × UInt16)} (hids : (needed.map Prod.fst).Nodup)
    (hclients : (needed.map fun item => r.clientIdOf item.1).Nodup) (s : Player)
    (hplain : ∀ item ∈ needed, s.PlainItem r item.1) (hcovered : ∀ item ∈ needed, s.Covered r item) :
    Used r s.paid needed s (s.useItems r needed).1 := by
  rw [useItems_eq]
  induction needed generalizing s with
  | nil => exact ⟨List.forall_mem_nil _, Purse.Spares.refl _ _, fun _ _ => rfl, ⟨rfl, rfl, rfl, rfl⟩⟩
  | cons a needed ih =>
    rw [List.map_cons, List.nodup_cons] at hids hclients
    obtain ⟨hplain, hplains⟩ := List.forall_mem_cons.mp hplain
    obtain ⟨hcovered, hcovereds⟩ := List.forall_mem_cons.mp hcovered
    have hfirst := useItem_used hplain hcovered
    have hother : ∀ item ∈ needed, item.1 ∉ [a].map Prod.fst := by
      intro item hitem heq
      rw [List.map_singleton, List.mem_singleton] at heq
      exact hids.1 (heq ▸ List.mem_map_of_mem hitem)
    have hstored : ∀ item ∈ needed, (s.useItem r a).1.stored r item.1 = s.stored r item.1 := by
      intro item hitem
      refine hfirst.stash _ fun heq => ?_
      rw [List.map_singleton, List.mem_singleton] at heq
      exact hclients.1 (heq ▸ List.mem_map.mpr ⟨item, hitem, rfl⟩)
    have hrest := ih hids.2 hclients.2 (s.useItem r a).1
      (fun item hitem => (hplains item hitem).of_spares hfirst.spares hfirst.beside.canRemove (hother item hitem))
      fun item hitem => (hcovereds item hitem).of_spares hfirst.spares (hother item hitem) (hstored item hitem)
    exact hfirst.cons
      (hrest.congr fun item hitem => (paid_of_spares hfirst.spares (hother item hitem)).symm) hids.1 hclients.1

theorem useItems_unpaid {needed : List (UInt16 × UInt16)} (hplain : ∀ item ∈ needed, s.PlainItem r item.1)
    (hpaid : ∀ item ∈ needed, s.paid item = 0) : (s.useItems r needed).1 = s := by
  rw [useItems_eq]
  induction needed with
  | nil => rfl
  | cons a needed ih =>
    obtain ⟨hplain, hplains⟩ := List.forall_mem_cons.mp hplain
    obtain ⟨hpaid, hpaids⟩ := List.forall_mem_cons.mp hpaid
    rw [List.foldl_cons, useItem_unpaid hplain hpaid]
    exact ih hplains hpaids

/-! ### Money -/

theorem coins_of_spares {ids : List UInt16} {p p' : Purse} (h : Purse.Spares ids p p')
    (hcoins : ∀ id ∈ ids, id ∉ COINS) : p'.coins = p.coins := by
  have hothers (l : List HeldItem) :
      (l.map HeldItem.value).sum = ((l.filter fun i => i.id ∉ ids).map HeldItem.value).sum := by
    have hnone : ((l.filter fun i => !decide (i.id ∉ ids)).map HeldItem.value).sum = 0 := by
      refine List.sum_eq_zero fun n hn => ?_
      obtain ⟨i, hi, rfl⟩ := List.mem_map.mp hn
      have hid : i.id ∈ ids := by simpa using (List.mem_filter.mp hi).2
      rw [HeldItem.value]
      split
      · rfl
      · by_contra hworth
        exact hcoins i.id hid (HeldItem.mem_coins_of_getWorth hworth)
    rw [Purse.sum_filter_add (fun i => decide (i.id ∉ ids)) HeldItem.value l, hnone, Nat.add_zero]
  rw [Purse.coins, Purse.coins, hothers, hothers (labelsOf p.things)]
  exact (h.things.map HeldItem.value).sum_eq

theorem Used.total {paid : UInt16 × UInt16 → Nat} {needed : List (UInt16 × UInt16)} {s s' : Player}
    (h : Used r paid needed s s') (hcoins : ∀ item ∈ needed, item.1 ∉ COINS) : s'.purse.total = s.purse.total := by
  have hsame : s'.purse.coins = s.purse.coins := by
    refine coins_of_spares h.spares fun id hid => ?_
    obtain ⟨item, hitem, rfl⟩ := List.mem_map.mp hid
    exact hcoins item hitem
  rw [Purse.total, Purse.total, Purse.money, Purse.money, hsame, h.beside.tile, h.beside.bankBalance]

end Player

/-! ### The charge -/

/-- The price, without wrapping. -/
def BaseImbuement.fullPrice (baseImbuement : BaseImbuement) (protectionCharm : Bool) : Nat :=
  baseImbuement.price.toNat + if protectionCharm then baseImbuement.protectionPrice.toNat else 0

/-- The items that are needed: no coins, with stacks of their own in the stash, and plain where the player has them. -/
structure Materials (r : Registry) (s : Player) (imbuement : Imbuement) : Prop where
  noCoin : ∀ needed ∈ imbuement.items, needed.1 ∉ COINS
  clientIds : (imbuement.items.map fun needed => r.clientIdOf needed.1).Nodup
  plain : ∀ needed ∈ imbuement.items, s.PlainItem r needed.1

/-- Nothing is charged. -/
structure Unchanged (s s' : Player) : Prop where
  purse : s'.purse = s.purse
  stashItems : s'.stashItems = s.stashItems
  customAttribute : s'.customAttribute = s.customAttribute

/-- A price is charged and so much of each item, from the inventory and the stash together, and nothing else. -/
structure Charged (r : Registry) (imbuement : Imbuement) (price : Nat) (amount : UInt16 × UInt16 → Nat)
    (s s' : Player) : Prop where
  money : s'.purse.total + price = s.purse.total
  items : ∀ needed ∈ imbuement.items,
    s'.pieces needed.1 + s'.stored r needed.1 + amount needed = s.pieces needed.1 + s.stored r needed.1
  others : ∀ id ∉ COINS, id ∉ imbuement.items.map Prod.fst → s'.pieces id = s.pieces id
  stash : ∀ clientId ∉ imbuement.items.map fun needed => r.clientIdOf needed.1,
    StashItemList.held s'.stashItems clientId = StashItemList.held s.stashItems clientId

/-- Nothing is charged, or exactly the price and the items. -/
def Settles (r : Registry) (imbuement : Imbuement) (protectionCharm : Bool) (s s' : Player) : Prop :=
  Unchanged s s' ∨ ∃ baseImbuement, r.getBaseByID imbuement.baseid = some baseImbuement ∧
    Charged r imbuement (baseImbuement.fullPrice protectionCharm) (fun needed => needed.2.toNat) s s'

/-- The player has what is asked for, and the slot is free. -/
structure Accepts (r : Registry) (s : Player) (imbuement : Imbuement) (baseImbuement : BaseImbuement) (item : Nat)
    (slot : UInt8) (protectionCharm : Bool) : Prop where
  items : ∀ needed ∈ imbuement.items, s.hasItem r needed = true
  free : s.getImbuementInfo r item slot = false
  base : r.getBaseByID imbuement.baseid = some baseImbuement
  affords : s.purse.Affords (baseImbuement.priceOf protectionCharm).toUInt64 true

/-- The price does not wrap, and of every item the pieces that are not worn are enough if all are. -/
def Fair (s : Player) (imbuement : Imbuement) (baseImbuement : BaseImbuement) (protectionCharm : Bool) : Prop :=
  baseImbuement.fullPrice protectionCharm < 2 ^ 32 ∧ ∀ needed ∈ imbuement.items, s.Loose needed

/-- Nothing comes of it: it is free, all that is needed is worn, and it fails or has been there before. -/
structure Idle (s : Player) (imbuement : Imbuement) (baseImbuement : BaseImbuement) (item : Nat) (slot : UInt8)
    (protectionCharm : Bool) (roll : Int) : Prop where
  price : baseImbuement.priceOf protectionCharm = 0
  items : ∀ needed ∈ imbuement.items, needed.2 = 0 ∨ ¬ s.Loose needed
  slot : protectionCharm = false ∧ roll > baseImbuement.percent.toNat ∨
    s.customAttribute item slot = some (Player.slotValue imbuement.id baseImbuement.duration)

section

variable {r : Registry} {adder : CoinAdder} {s : Player} {imbuement : Imbuement} {baseImbuement : BaseImbuement}
  {item : Nat} {slot : UInt8} {protectionCharm : Bool} {roll : Int}

theorem finish_frame (s : Player) :
    (s.finish imbuement baseImbuement item slot protectionCharm roll).purse = s.purse ∧
      (s.finish imbuement baseImbuement item slot protectionCharm roll).stashItems = s.stashItems := by
  rw [Player.finish]
  split
  · exact ⟨rfl, rfl⟩
  · split
    · exact ⟨rfl, rfl⟩
    · exact ⟨rfl, rfl⟩

theorem finish_customAttribute (s : Player) :
    (s.finish imbuement baseImbuement item slot protectionCharm roll).customAttribute = s.customAttribute ↔
      protectionCharm = false ∧ roll > baseImbuement.percent.toNat ∨
        s.customAttribute item slot = some (Player.slotValue imbuement.id baseImbuement.duration) := by
  rw [Player.finish]
  by_cases hfails : (!protectionCharm && roll > baseImbuement.percent.toNat) = true
  · rw [if_pos hfails]
    rw [Bool.and_eq_true, Bool.not_eq_true', decide_eq_true_iff] at hfails
    exact iff_of_true rfl (Or.inl hfails)
  · rw [if_neg hfails]
    rw [Bool.and_eq_true, Bool.not_eq_true', decide_eq_true_iff] at hfails
    rw [or_iff_right hfails]
    have hupdate (s : Player) : (s.setImbuement item slot imbuement.id baseImbuement.duration).customAttribute =
        s.customAttribute ↔
          s.customAttribute item slot = some (Player.slotValue imbuement.id baseImbuement.duration) := by
      rw [Player.setImbuement]
      dsimp only
      rw [Function.update_eq_self_iff, Function.update_eq_self_iff]
      exact eq_comm
    split
    · exact hupdate _
    · exact hupdate _

theorem unchanged_of_not_accepts
    (h : ∀ baseImbuement, ¬ Accepts r s imbuement baseImbuement item slot protectionCharm) :
    Unchanged s (s.onApplyImbuement r adder imbuement item slot protectionCharm roll) := by
  rw [Player.onApplyImbuement]
  by_cases hmissing : (imbuement.items.any fun item => !s.hasItem r item) = true
  · rw [if_pos hmissing]
    exact ⟨rfl, rfl, rfl⟩
  rw [if_neg hmissing]
  by_cases hoccupied : s.getImbuementInfo r item slot = true
  · rw [if_pos hoccupied]
    exact ⟨rfl, rfl, rfl⟩
  rw [if_neg hoccupied]
  cases hbase : r.getBaseByID imbuement.baseid with
  | none => exact ⟨rfl, rfl, rfl⟩
  | some baseImbuement =>
    have hpays : ¬ s.purse.Affords (baseImbuement.priceOf protectionCharm).toUInt64 true := by
      intro haffords
      refine h baseImbuement ⟨fun needed hneeded => ?_, Bool.eq_false_of_not_eq_true hoccupied, hbase, haffords⟩
      by_contra hlacks
      exact hmissing (List.any_eq_true.mpr ⟨needed, hneeded, by simpa using hlacks⟩)
    have hrefused : Purse.removeMoney r.table adder.internalAddItem s.purse
        (baseImbuement.priceOf protectionCharm).toUInt64 true = (false, s.purse) := Purse.removeMoney_refused hpays
    dsimp only
    rw [if_pos (by rw [hrefused]; rfl)]
    exact ⟨congrArg Prod.snd hrefused, rfl, rfl⟩

theorem toNat_priceOf (baseImbuement : BaseImbuement) (protectionCharm : Bool) :
    (baseImbuement.priceOf protectionCharm).toNat = baseImbuement.fullPrice protectionCharm % 2 ^ 32 := by
  rw [BaseImbuement.priceOf, BaseImbuement.fullPrice, UInt32.toNat_add, apply_ite UInt32.toNat]
  rfl

/-- The price is taken from a player, and the items are still to be taken. -/
structure Paid (price : UInt32) (s s₁ : Player) : Prop where
  money : s₁.purse.total + price.toNat = s.purse.total
  spares : Purse.Spares COINS s.purse s₁.purse
  same : price = 0 → s₁ = s
  stashItems : s₁.stashItems = s.stashItems
  customAttribute : s₁.customAttribute = s.customAttribute
  canRemove : s₁.canRemove = s.canRemove

theorem onApplyImbuement_of_accepts (h : Accepts r s imbuement baseImbuement item slot protectionCharm) :
    ∃ s₁, Paid (baseImbuement.priceOf protectionCharm) s s₁ ∧
      s.onApplyImbuement r adder imbuement item slot protectionCharm roll =
        ((s₁.useItems r imbuement.items).1.send (.status (s₁.useItems r imbuement.items).2)).finish imbuement
          baseImbuement item slot protectionCharm roll := by
  have hmoved := Purse.removeMoney_moved r.table adder s.purse (baseImbuement.priceOf protectionCharm).toUInt64 true
  obtain ⟨p, hp, hmoney⟩ := @Purse.removeMoney_paid r.table _ adder.ends _ _ _ h.affords
  have hnone : ¬ (imbuement.items.any fun item => !s.hasItem r item) = true := by
    intro hany
    obtain ⟨needed, hneeded, hlacks⟩ := List.any_eq_true.mp hany
    rw [h.items needed hneeded] at hlacks
    cases hlacks
  refine ⟨{ s with
    purse := (Purse.removeMoney r.table adder.internalAddItem s.purse
      (baseImbuement.priceOf protectionCharm).toUInt64 true).2
    refs := hmoved.distinct s.refs }, ⟨?_, hmoved.spares, fun hzero => ?_, rfl, rfl, rfl⟩, ?_⟩
  · rw [UInt32.toNat_toUInt64] at hmoney
    dsimp only
    rw [hp]
    exact hmoney
  · have hnothing : Purse.removeMoney r.table adder.internalAddItem s.purse
        (baseImbuement.priceOf protectionCharm).toUInt64 true = (true, s.purse) := by
      rw [hzero]
      rfl
    simp only [hnothing]
  · rw [Player.onApplyImbuement, if_neg hnone, if_neg (by rw [h.free]; exact Bool.false_ne_true), h.base]
    dsimp only
    rw [if_neg (by rw [hp]; exact Bool.false_ne_true)]

/-- **The charge of a request that is accepted.** -/
theorem charged_of_accepts (hmaterials : Materials r s imbuement)
    (h : Accepts r s imbuement baseImbuement item slot protectionCharm) :
    let s' := s.onApplyImbuement r adder imbuement item slot protectionCharm roll
    Charged r imbuement (baseImbuement.priceOf protectionCharm).toNat s.paid s s' ∧
      (s'.customAttribute = s.customAttribute ↔
        protectionCharm = false ∧ roll > baseImbuement.percent.toNat ∨
          s.customAttribute item slot = some (Player.slotValue imbuement.id baseImbuement.duration)) := by
  obtain ⟨s₁, hpaid, heq⟩ :=
    @onApplyImbuement_of_accepts r adder s imbuement baseImbuement item slot protectionCharm roll h
  intro s'
  have hs' : s' = _ := heq
  have hstored (id : UInt16) : s₁.stored r id = s.stored r id := by
    rw [Player.stored, Player.stored, hpaid.stashItems]
  have hused := Player.useItems_used imbuement.distinct hmaterials.clientIds s₁
    (fun needed hneeded => (hmaterials.plain needed hneeded).of_spares hpaid.spares hpaid.canRemove
      (hmaterials.noCoin needed hneeded))
    fun needed hneeded => (Player.covered_of_hasItem (h.items needed hneeded)).of_spares hpaid.spares
      (hmaterials.noCoin needed hneeded) (hstored needed.1)
  generalize (s₁.useItems r imbuement.items).2 = text at hs'
  generalize (s₁.useItems r imbuement.items).1 = s₂ at hs' hused
  have hpurse : s'.purse = s₂.purse := hs' ▸ (finish_frame _).1
  have hstash : s'.stashItems = s₂.stashItems := hs' ▸ (finish_frame _).2
  refine ⟨⟨?_, fun needed hneeded => ?_, fun id hcoin hid => ?_, fun clientId hother => ?_⟩, ?_⟩
  · rw [hpurse, hused.total hmaterials.noCoin]
    exact hpaid.money
  · have hpieces : s₁.pieces needed.1 = s.pieces needed.1 :=
      piecesOf_eq hpaid.spares.things (hmaterials.noCoin needed hneeded)
    have hsum := hused.items needed hneeded
    rw [Player.paid_of_spares hpaid.spares (hmaterials.noCoin needed hneeded), hpieces, hstored] at hsum
    rw [Player.pieces, Player.stored, hpurse, hstash]
    exact hsum
  · rw [Player.pieces, hpurse]
    exact (piecesOf_eq hused.spares.things hid).trans (piecesOf_eq hpaid.spares.things hcoin)
  · rw [hstash, hused.stash clientId hother, hpaid.stashItems]
  · have hattributes : s₂.customAttribute = s.customAttribute :=
      hused.beside.customAttribute.trans hpaid.customAttribute
    rw [hs', ← hattributes]
    exact finish_customAttribute _

theorem unchanged_of_idle (hmaterials : Materials r s imbuement)
    (h : Accepts r s imbuement baseImbuement item slot protectionCharm)
    (hidle : Idle s imbuement baseImbuement item slot protectionCharm roll) :
    Unchanged s (s.onApplyImbuement r adder imbuement item slot protectionCharm roll) := by
  obtain ⟨s₁, hpaid, heq⟩ :=
    @onApplyImbuement_of_accepts r adder s imbuement baseImbuement item slot protectionCharm roll h
  have hnothing : ∀ needed ∈ imbuement.items, s.paid needed = 0 := by
    intro needed hneeded
    rw [Player.paid]
    rcases hidle.items needed hneeded with hzero | hworn
    · rw [hzero]
      exact ite_self 0
    · exact if_neg hworn
  rw [hpaid.same hidle.price, Player.useItems_unpaid hmaterials.plain hnothing] at heq
  rw [heq]
  exact ⟨(finish_frame _).1, (finish_frame _).2, (finish_customAttribute _).mpr hidle.slot⟩

theorem worn_le_pieces (r : Registry) (s : Player) (id : UInt16) : s.worn id ≤ s.pieces id := by
  have hsum := @ItemTypeCount.sum_reached_loose r.table.items id s.inventory
  rw [Player.pieces_inventory, Player.worn_inventory] at hsum
  omega

end

/-- **When what is charged is right.** A request that is accepted charges exactly the price and the items precisely if
the price does not wrap and, of every item, the pieces that are not worn are enough if all that are carried are; and
nothing at all if it is free, all that is needed is worn, and the item stays as it is. -/
theorem onApplyImbuement_iff (r : Registry) (adder : CoinAdder) (s : Player) (imbuement : Imbuement)
    (hmaterials : Materials r s imbuement) (item : Nat) (slot : UInt8) (protectionCharm : Bool) (roll : Int) :
    Settles r imbuement protectionCharm s (s.onApplyImbuement r adder imbuement item slot protectionCharm roll) ↔
      ∀ baseImbuement, Accepts r s imbuement baseImbuement item slot protectionCharm →
        Fair s imbuement baseImbuement protectionCharm ∨
          Idle s imbuement baseImbuement item slot protectionCharm roll := by
  by_cases haccepts : ∃ baseImbuement, Accepts r s imbuement baseImbuement item slot protectionCharm
  swap
  · rw [not_exists] at haccepts
    exact iff_of_true (Or.inl (unchanged_of_not_accepts haccepts)) fun b hb => absurd hb (haccepts b)
  obtain ⟨baseImbuement, h⟩ := haccepts
  obtain ⟨hcharged, hslot⟩ := @charged_of_accepts r adder s imbuement baseImbuement item slot protectionCharm roll
    hmaterials h
  constructor
  · intro hsettles b hb
    obtain rfl : b = baseImbuement := Option.some.inj (hb.base.symm.trans h.base)
    rcases hsettles with hunchanged | ⟨b', hb', hfull⟩
    · refine Or.inr ⟨?_, fun needed hneeded => ?_, hslot.mp hunchanged.customAttribute⟩
      · have hmoney := hcharged.money
        rw [hunchanged.purse] at hmoney
        exact UInt32.toNat_inj.mp (Nat.add_eq_left.mp hmoney)
      · have hsum := hcharged.items needed hneeded
        rw [Player.pieces, Player.stored, hunchanged.purse, hunchanged.stashItems] at hsum
        have hpaid : s.paid needed = 0 := Nat.add_eq_left.mp hsum
        by_cases hloose : s.Loose needed
        · rw [Player.paid, if_pos hloose] at hpaid
          exact Or.inl (UInt16.toNat_inj.mp hpaid)
        · exact Or.inr hloose
    · obtain rfl : b = b' := Option.some.inj (hb.base.symm.trans hb')
      refine Or.inl ⟨?_, fun needed hneeded => ?_⟩
      · have hmoney := hcharged.money
        have hmoney' := hfull.money
        have hlt := (b.priceOf protectionCharm).toNat_lt
        omega
      · by_contra hworn
        have hsum := hcharged.items needed hneeded
        have hsum' := hfull.items needed hneeded
        rw [Player.paid, if_neg hworn] at hsum
        refine hworn fun _ => ?_
        have hle := worn_le_pieces r s needed.1
        omega
  · intro hright
    rcases hright baseImbuement h with ⟨hprice, hloose⟩ | hidle
    · refine Or.inr ⟨baseImbuement, h.base, ⟨?_, fun needed hneeded => ?_, hcharged.others, hcharged.stash⟩⟩
      · rw [← Nat.mod_eq_of_lt hprice, ← toNat_priceOf]
        exact hcharged.money
      · have hsum := hcharged.items needed hneeded
        rwa [Player.paid, if_pos (hloose needed hneeded)] at hsum
    · exact Or.inl (unchanged_of_idle hmaterials h hidle)

/-- Scorch, which needs 25 fiery hearts. -/
def scorch : Imbuement where
  id := 1
  baseid := 1
  items := [(9636, 25)]
  distinct := by decide

def basic : BaseImbuement where
  price := 5000
  protectionPrice := 10000
  duration := 720000
  percent := 90

def registry : Registry where
  table := Game.coins
  clientIdOf id := id
  nameOf _ := "fiery heart"
  getImbuement id := if id = 1 then some scorch else none
  getBaseByID id := if id = 1 then some basic else none

/-- A player with 20000 gold in the bank and these things. -/
def customer (things : List (RoseTree HeldItem)) (sound : ∀ t ∈ things, t.All Game.OnlyContainersHold)
    (refs : ((labelsOf things).map HeldItem.ref).Nodup) : Player where
  purse := { things, bankBalance := 20000, sound }
  refs := refs

/-- A weapon, and 25 fiery hearts in a backpack. -/
def packed : Player := customer
  [.node ⟨1, 3264, 1, false⟩ [], .node ⟨2, 2854, 1, true⟩ [.node ⟨3, 9636, 25, false⟩ []]]
  (by simp [All, AllOf, Game.OnlyContainersHold]) (by decide)

/-- A weapon, and 25 fiery hearts in a slot. -/
def wearer : Player := customer [.node ⟨1, 3264, 1, false⟩ [], .node ⟨3, 9636, 25, false⟩ []]
  (by simp [All, AllOf, Game.OnlyContainersHold]) (by decide)

theorem packed_materials : Materials registry packed scorch := by
  refine ⟨List.forall_mem_singleton.mpr (by decide), by decide, List.forall_mem_singleton.mpr fun i hi hid => ?_⟩
  revert i
  decide

theorem onApplyImbuement_iff_packed :
    Settles registry scorch true packed (packed.onApplyImbuement registry Game.carrier scorch 1 0 true 100) :=
  (onApplyImbuement_iff registry Game.carrier packed scorch packed_materials 1 0 true 100).mpr fun b hb => by
    obtain rfl : basic = b := Option.some.inj hb.base
    exact Or.inl ⟨by decide, List.forall_mem_singleton.mpr (by decide)⟩

theorem wearer_materials : Materials registry wearer scorch := by
  refine ⟨List.forall_mem_singleton.mpr (by decide), by decide, List.forall_mem_singleton.mpr fun i hi hid => ?_⟩
  revert i
  decide

theorem wearer_accepted : Accepts registry wearer scorch basic 1 0 false := by
  refine ⟨List.forall_mem_singleton.mpr (Player.hasItem_iff.mpr (by decide)), by decide, rfl, ?_⟩
  rw [Purse.Affords]
  decide

/-- The price is paid, and the hearts are still worn. -/
theorem wearer_not_charged :
    ¬ ∀ (r : Registry) (adder : CoinAdder) (s : Player) (imbuement : Imbuement), Materials r s imbuement →
      ∀ (item : Nat) (slot : UInt8) (protectionCharm : Bool) (roll : Int),
        Settles r imbuement protectionCharm s
          (s.onApplyImbuement r adder imbuement item slot protectionCharm roll) := by
  intro h
  have hsettles := h registry Game.carrier wearer scorch wearer_materials 1 0 false 1
  obtain ⟨⟨hmoney, hitems, -, -⟩, -⟩ :=
    @charged_of_accepts registry Game.carrier wearer scorch basic 1 0 false 1 wearer_materials wearer_accepted
  have hprice : (basic.priceOf false).toNat = 5000 := by decide
  have hpaid : wearer.paid (9636, 25) = 0 := by decide
  rw [hprice] at hmoney
  rcases hsettles with hunchanged | ⟨b, -, hfull⟩
  · rw [hunchanged.purse] at hmoney
    omega
  · have hsum := hitems (9636, 25) List.mem_cons_self
    have hsum' := hfull.items (9636, 25) List.mem_cons_self
    have hvalue : ((9636, 25) : UInt16 × UInt16).2.toNat = 25 := rfl
    rw [hpaid] at hsum
    rw [hvalue] at hsum'
    omega

end Moonlight.ApplyImbuement
