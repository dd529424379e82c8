import Moonlight.Items.Container
import Moonlight.Items.ItemUnserialize
import Moonlight.Lib.Halves

/-!
# The items of a tile

Model of the items on a `Tile` (items/tile.h and .cpp) and of `Game::transformItem` (game/game.cpp). The vector
of items has two halves: the first `downItemCount` items are those that lie on the ground, and the later ones
are always on top, in the order of their types (`Ordered`). Adding, removing and counting keep this.

An item that changes its id is taken out and added again if the new type belongs to the other half. Otherwise
it stays where it is, or another item is put in its place, and there nothing looks at the order of the new type,
nor, when an item that is used up becomes what it decays to, at the half. `run_ordered_iff` says that this is all
that goes wrong.

An item is on one tile, and there once; so it is known by its place.
-/

namespace Moonlight

/-- `TileStatesMap`: where an item of a type leads, if it does. -/
inductive FloorChange where
  | NONE
  | DOWN
  | NORTH
  | SOUTH
  | EAST
  | WEST
  | SOUTH_ALT
  | EAST_ALT
  deriving DecidableEq, Repr

/-- An item type with the fields that decide about its place on a tile and about the flags of the tile. -/
structure TileItemType extends ItemType where
  alwaysOnTop : Bool := false
  alwaysOnTopOrder : UInt8 := 0
  replaceable : Bool := true
  blockSolid : Bool := false
  blockProjectile : Bool := false
  blockPathFind : Bool := false
  hasHeight : Bool := false
  isVertical : Bool := false
  isHorizontal : Bool := false
  floorChange : FloorChange := .NONE

namespace ItemType

def isGroundTile (it : ItemType) : Bool := it.group == .GROUND

def isMagicField (it : ItemType) : Bool := it.type == .MAGICFIELD

end ItemType

/-- `Item::items`. -/
abbrev TileItemTypes := UInt16 → TileItemType

def TileItemTypes.items (types : TileItemTypes) : Items := fun id => (types id).toItemType

/-- An item, with what the functions below ask of its class. -/
structure TileItem where
  item : Item
  isTeleport : Bool := false
  isMagicField : Bool := false
  isMailbox : Bool := false
  isTrashHolder : Bool := false
  isBed : Bool := false
  isDepotLocker : Bool := false
  canTransform : Bool := true
  canRemove : Bool := true

def Item.setDefaultSubtype (items : Items) (item : Item) : Item :=
  let it := items item.id
  let item := item.setItemCount 1
  if it.charges ≠ 0 then
    if it.stackable then item.setItemCount (UInt8.ofNat it.charges)
    else item.setCharges (UInt16.ofNat it.charges)
  else item

/-- `Item::CreateItem`. Depot lockers and reward chests are never removed. -/
def TileItem.create (types : TileItemTypes) (type count : UInt16) : Option TileItem :=
  let it := (types type).toItemType
  (createItem types.items type count).map fun node =>
    { item := node.item
      isTeleport := it.itemClass == .teleport
      isMagicField := it.isMagicField && !it.isContainer
      isMailbox := it.type == .MAILBOX && !it.isContainer
      isTrashHolder := it.type == .TRASHHOLDER && !it.isContainer
      isBed := it.itemClass == .bed
      isDepotLocker := it.itemClass == .depotLocker
      canRemove := it.type != .DEPOT && it.type != .REWARDCHEST }

theorem Item.setID_id (items : Items) (item : Item) (newid : UInt16) : (item.setID items newid).id = newid := by
  -- what `setID` does besides concerns the attributes only
  have hdecaying : ∀ (item : Item) (state : ItemDecayState), (item.setDecaying state).id = item.id := by
    intro item state
    unfold Item.setDecaying
    dsimp only
    split <;> rfl
  have hremove : ∀ (item : Item) (type : ItemAttrTypes), (item.removeAttribute type).id = item.id :=
    fun _ _ => rfl
  have hstop : ∀ (item : Item) (it : ItemType) (n : Nat), (item.stopForType it n).id = item.id := by
    intro item it n
    unfold Item.stopForType
    split
    · rw [hremove]
      split
      · exact hdecaying _ _
      · rfl
    · rfl
  have hdrop : ∀ item : Item, item.dropCorpseOwner.id = item.id := by
    intro item
    unfold Item.dropCorpseOwner
    split <;> rfl
  unfold Item.setID
  dsimp only
  split
  · show (Item.setDecaying _ _).id = newid
    rw [hdecaying, hdrop, hstop]
  · rw [hdrop, hstop]

/-- The id of what `TileItem.create` creates, if it creates anything. -/
def createdId (types : TileItemTypes) (type : UInt16) : Option UInt16 :=
  let it := (types type).toItemType
  if it.group = .DEPRECATED then none else if it.id ≠ 0 then some (it.createdId type) else none

theorem TileItem.create_id (types : TileItemTypes) (type count : UInt16) :
    (TileItem.create types type count).map (·.item.id) = createdId types type := by
  have hit : types.items type = (types type).toItemType := rfl
  have hnode := (Node.newNode_idle types.items type count).id_eq
  unfold TileItem.create createdId createItem
  dsimp only
  rw [Option.map_map, hit]
  by_cases hgroup : (types type).group = .DEPRECATED
  · rw [if_pos hgroup, if_pos hgroup]
    rfl
  · rw [if_neg hgroup, if_neg hgroup]
    by_cases hid : (types type).id ≠ 0
    · rw [if_pos hid, if_pos hid]
      exact congrArg some hnode
    · rw [if_neg hid, if_neg hid]
      rfl

/-- The creatures stand between the halves for a client, so the index of an item depends on their number. -/
structure Tile where
  ground : Option TileItem := none
  items : List TileItem := []
  downItemCount : Nat := 0
  creatures : Nat := 0

/-- Where an item is: it is the ground, or it has an index in the vector. -/
inductive Place where
  | ground
  | item (i : Nat)

namespace Tile

variable (types : TileItemTypes)

def thingAt (tile : Tile) : Place → Option TileItem
  | .ground => tile.ground
  | .item i => tile.items[i]?

/-- The item at a place changes, or another one takes its place. -/
def put (tile : Tile) (x : TileItem) : Place → Tile
  | .ground => { tile with ground := some x }
  | .item i => { tile with items := tile.items.set i x }

def getTopItemCount (tile : Tile) : Nat := tile.items.length - tile.downItemCount

/-- None is the index -1: an item is looked for in the half that its type belongs to. -/
def getThingIndex (tile : Tile) (place : Place) : Option Nat :=
  let n := if tile.ground.isSome then 1 else 0
  match place with
  | .ground => if tile.ground.isSome then some 0 else none
  | .item i =>
    match tile.items[i]? with
    | none => none
    | some x =>
      if (types x.item.id).alwaysOnTop then
        if tile.downItemCount ≤ i then some (n + (i - tile.downItemCount)) else none
      else if i < tile.downItemCount then some (n + tile.getTopItemCount + tile.creatures + i)
      else none

def removeThing (tile : Tile) (place : Place) (count : BitVec 32) : Tile :=
  match place, tile.thingAt place with
  | _, none => tile
  | .ground, some _ => { tile with ground := none }
  | .item i, some x =>
    if (tile.getThingIndex types (.item i)).isNone then tile
    else if (types x.item.id).alwaysOnTop then { tile with items := tile.items.eraseIdx i }
    else if (types x.item.id).stackable ∧ count ≠ BitVec.ofNat 32 x.item.count.toNat then
      tile.put { x with item := x.item.setItemCount (Containers.Heap.newCount x.item.count count) } (.item i)
    else { tile with items := tile.items.eraseIdx i, downItemCount := tile.downItemCount - 1 }

/-- Among the items on top, before the first one that `before` finds. -/
def insertTop (tile : Tile) (before : TileItem → Bool) (x : TileItem) : Tile :=
  { tile with
    items := tile.items.take tile.downItemCount ++
      Halves.insertBefore before x (tile.items.drop tile.downItemCount) }

def insertDown (tile : Tile) (x : TileItem) : Tile :=
  { tile with items := x :: tile.items, downItemCount := tile.downItemCount + 1 }

/-- Only one splash lies on a tile. -/
def removeOldSplash (tile : Tile) : Tile :=
  match (tile.items.drop tile.downItemCount).findIdx? fun y => (types y.item.id).isSplash with
  | none => tile
  | some i => tile.removeThing types (.item (tile.downItemCount + i)) 1

/-- A field takes the place of another one; if that one is to stay, there is no new field. -/
def addField (tile : Tile) (x : TileItem) : Tile :=
  match (tile.items.take tile.downItemCount).findIdx? (·.isMagicField) with
  | none => tile.insertDown x
  | some i =>
    match tile.items[i]? with
    | none => tile.insertDown x
    | some oldField =>
      if (types oldField.item.id).replaceable then (tile.removeThing types (.item i) 1).insertDown x
      else tile

def addThing (tile : Tile) (x : TileItem) : Tile :=
  let itemType := types x.item.id
  if tile.items.length ≥ 0xFFFF then tile
  else if itemType.isGroundTile then { tile with ground := some x }
  else if itemType.alwaysOnTop then
    let tile := if itemType.isSplash then tile.removeOldSplash types else tile
    tile.insertTop (fun y => itemType.alwaysOnTopOrder ≤ (types y.item.id).alwaysOnTopOrder) x
  else if itemType.isMagicField then tile.addField types x
  else tile.insertDown x

/-- As when the map is loaded: nothing makes room, and an item on top comes after those of the same order. -/
def internalAddThing (tile : Tile) (x : TileItem) : Tile :=
  let itemType := types x.item.id
  if itemType.isGroundTile then
    if tile.ground.isNone then { tile with ground := some x } else tile
  else if tile.items.length ≥ 0xFFFF then tile
  else if itemType.alwaysOnTop then
    tile.insertTop (fun y => (types y.item.id).alwaysOnTopOrder > itemType.alwaysOnTopOrder) x
  else tile.insertDown x

def updateThing (tile : Tile) (place : Place) (itemId count : UInt16) : Tile :=
  match tile.getThingIndex types place, tile.thingAt place with
  | some _, some x =>
    tile.put { x with item := (x.item.setID types.items itemId).setSubType types.items count } place
  | _, _ => tile

/-- The place of an index that counts the items on top, the creatures and the other items, in this order. -/
def placeBehindGround (tile : Tile) (pos : Nat) : Option Place :=
  if pos < tile.getTopItemCount then some (.item (tile.downItemCount + pos))
  else
    let pos := pos - tile.getTopItemCount
    if pos < tile.creatures then none
    else
      let pos := pos - tile.creatures
      if pos < tile.downItemCount then some (.item pos) else none

/-- The ground, if there is one, has the index 0. -/
def placeOf (tile : Tile) (index : Nat) : Option Place :=
  if tile.ground.isSome then
    if index = 0 then some .ground else tile.placeBehindGround (index - 1)
  else tile.placeBehindGround index

def replaceThing (tile : Tile) (index : Nat) (x : TileItem) : Tile :=
  match tile.placeOf index with
  | none => tile
  | some place => tile.put x place

/-- `Game::internalRemoveItem`, for the whole item. -/
def internalRemoveItem (tile : Tile) (place : Place) : Tile :=
  match tile.getThingIndex types place, tile.thingAt place with
  | some _, some x =>
    if x.item.count = 0 ∨ ¬ x.canRemove then tile
    else tile.removeThing types place (BitVec.ofNat 32 x.item.count.toNat)
  | _, _ => tile

/-- `Game::transformItem`; what the call of itself gives is the argument `again`. -/
def transformOnce (again : Tile) (tile : Tile) (place : Place) (newId : UInt16) (newCount : Int) : Tile :=
  match tile.thingAt place, tile.getThingIndex types place with
  | some x, some itemIndex =>
    if x.item.id = newId ∧
        (newCount = -1 ∨ newCount = (x.item.getSubType types.items).toNat ∧ newCount ≠ 0) then tile
    else if !x.canTransform then tile
    else
      let newType := types newId
      let curType := types x.item.id
      if newType.id = 0 then tile
      else if curType.alwaysOnTop ≠ newType.alwaysOnTop then
        let tile := tile.removeThing types place (BitVec.ofNat 32 x.item.count.toNat)
        let item := x.item.setID types.items newId
        let item := if newCount ≠ -1 then item.setSubType types.items (UInt16.ofInt newCount) else item
        tile.addThing types { x with item := item }
      else if curType.type = newType.type then
        if newCount = 0 ∧ (curType.stackable ∨ x.item.hasAttribute .CHARGES) then
          if curType.stackable then tile.internalRemoveItem types place
          else
            let newItemId := if curType.id = newType.id then curType.decayTo else newId.toNat
            if newItemId < 0 then tile.internalRemoveItem types place
            else if newItemId ≠ newId.toNat then
              match TileItem.create types (UInt16.ofInt newItemId) 1 with
              | none => tile
              | some newItem => tile.replaceThing itemIndex newItem
            else again
        else
          let count := x.item.getSubType types.items
          let tile :=
            if curType.id ≠ newType.id ∧ newType.group ≠ curType.group then
              tile.put { x with item := x.item.setDefaultSubtype types.items } place
            else tile
          let itemId := if curType.id ≠ newType.id then newId else x.item.id
          let count := if newCount ≠ -1 ∧ newType.hasSubType then UInt16.ofInt newCount else count
          tile.updateThing types place itemId count
      else
        match TileItem.create types newId (if newCount = -1 then 0 else UInt16.ofInt newCount) with
        | none => tile
        | some newItem => tile.replaceThing itemIndex newItem
  | _, _ => tile

def transformItem (tile : Tile) (place : Place) (newId : UInt16) (newCount : Int) : Tile :=
  transformOnce types (transformOnce types tile tile place newId (-1)) tile place newId newCount

/-! ### The order of the items -/

/-- The type of the item belongs to the half on top. -/
def IsTop (x : TileItem) : Prop := (types x.item.id).alwaysOnTop = true

def OrderLe (x y : TileItem) : Prop :=
  (types x.item.id).alwaysOnTopOrder ≤ (types y.item.id).alwaysOnTopOrder

/-- The first `downItemCount` items are those that are not always on top, the later ones are in order. -/
def Ordered (tile : Tile) : Prop :=
  Halves.IsHalved (IsTop types) (OrderLe types) tile.items tile.downItemCount

/-- An item of this type may stand at a place of the vector, in what half and between what items this is. -/
def FitsAt (tile : Tile) (i : Nat) (id : UInt16) : Prop :=
  ((types id).alwaysOnTop = true ↔ tile.downItemCount ≤ i) ∧
    (tile.downItemCount ≤ i →
      (∀ y ∈ (tile.items.take i).drop tile.downItemCount,
        (types y.item.id).alwaysOnTopOrder ≤ (types id).alwaysOnTopOrder) ∧
      ∀ y ∈ tile.items.drop (i + 1), (types id).alwaysOnTopOrder ≤ (types y.item.id).alwaysOnTopOrder)

/-- The ground is no item of the vector. -/
def Fits (tile : Tile) (id : UInt16) : Place → Prop
  | .ground => True
  | .item i => tile.FitsAt types i id

variable {types} {tile : Tile} {i : Nat} {x y : TileItem}

theorem ordered_empty : Ordered types {} := Halves.isHalved_nil

/-- **Replacement.** An item in the place of another one keeps the order precisely if its type fits there. -/
theorem Ordered.put_iff {place : Place} (h : Ordered types tile) (hy : tile.thingAt place = some y) :
    Ordered types (tile.put x place) ↔ tile.Fits types x.item.id place := by
  cases place with
  | ground => exact iff_of_true h trivial
  | item i => exact Halves.IsHalved.set_iff h (List.getElem?_eq_some_iff.mp hy).1

theorem Ordered.fitsAt_self (h : Ordered types tile) (hx : tile.items[i]? = some x) :
    FitsAt types tile i x.item.id := by
  obtain ⟨hi, hget⟩ := List.getElem?_eq_some_iff.mp hx
  exact Halves.IsHalved.fitsAt_self h hi hget

theorem Ordered.put_same (h : Ordered types tile) (hx : tile.items[i]? = some x)
    (hid : y.item.id = x.item.id) : Ordered types (tile.put y (.item i)) := by
  have hthing : tile.thingAt (.item i) = some x := hx
  refine (h.put_iff hthing).mpr ?_
  rw [hid]
  exact h.fitsAt_self hx

theorem Ordered.isTop_iff (h : Ordered types tile) (hx : tile.items[i]? = some x) :
    (types x.item.id).alwaysOnTop = true ↔ tile.downItemCount ≤ i := (h.fitsAt_self hx).1

theorem Ordered.insertDown (h : Ordered types tile) (hx : ¬ IsTop types x) :
    Ordered types (tile.insertDown x) := Halves.IsHalved.cons h hx

theorem Ordered.insertTop {before : TileItem → Bool} (h : Ordered types tile) (hx : IsTop types x)
    (hbefore : ∀ y, before y = true → OrderLe types x y) (hafter : ∀ y, before y = false → OrderLe types y x) :
    Ordered types (tile.insertTop before x) :=
  Halves.IsHalved.insert h hx (fun hab hbc => UInt8.le_trans hab hbc) hbefore hafter

/-! ### The index of an item -/

theorem placeOf_add (tile : Tile) (k : Nat) :
    tile.placeOf ((if tile.ground.isSome then 1 else 0) + k) = tile.placeBehindGround k := by
  unfold placeOf
  split
  · rw [if_neg (Nat.ne_of_gt (Nat.lt_add_right k Nat.one_pos)), Nat.add_sub_cancel_left]
  · rw [Nat.zero_add]

theorem Ordered.getThingIndex_isSome (h : Ordered types tile) (hx : tile.items[i]? = some x) :
    ∃ index, tile.getThingIndex types (.item i) = some index ∧ tile.placeOf index = some (.item i) := by
  have hi : i < tile.items.length := (List.getElem?_eq_some_iff.mp hx).1
  have htop := h.isTop_iff hx
  unfold getThingIndex
  dsimp only
  rw [hx]
  dsimp only
  by_cases hdown : tile.downItemCount ≤ i
  -- on top: the items on top come right behind the ground
  · rw [if_pos (htop.mpr hdown), if_pos hdown]
    refine ⟨_, rfl, ?_⟩
    have hlt : i - tile.downItemCount < tile.getTopItemCount := Nat.sub_lt_sub_right hdown hi
    rw [placeOf_add, placeBehindGround, if_pos hlt, Nat.add_sub_cancel' hdown]
  -- below: behind the items on top and the creatures
  · have hlt : i < tile.downItemCount := Nat.not_le.mp hdown
    rw [if_neg (mt htop.mp hdown), if_pos hlt]
    refine ⟨_, rfl, ?_⟩
    rw [Nat.add_assoc, Nat.add_assoc, placeOf_add, placeBehindGround, if_neg (by omega)]
    dsimp only
    rw [Nat.add_sub_cancel_left, if_neg (by omega), Nat.add_sub_cancel_left, if_pos hlt]

/-! ### Items that come and go -/

theorem thingAt_item (tile : Tile) (i : Nat) : tile.thingAt (.item i) = tile.items[i]? := rfl

theorem Ordered.removeThing (h : Ordered types tile) (place : Place) (count : BitVec 32) :
    Ordered types (tile.removeThing types place count) := by
  cases place with
  | ground =>
    unfold Tile.removeThing thingAt
    cases tile.ground with
    | none => exact h
    | some x => exact h
  | item i =>
    unfold Tile.removeThing
    rw [thingAt_item]
    cases hx : tile.items[i]? with
    | none => exact h
    | some x =>
      -- the item has an index, so the function does not return early
      obtain ⟨index, hindex, -⟩ := h.getThingIndex_isSome hx
      have htop := h.isTop_iff hx
      dsimp only
      rw [hindex, if_neg (by simp)]
      split
      next hx' => exact Halves.IsHalved.eraseIdx_top h (htop.mp hx')
      next hx' =>
        split
        · -- a part of the stack is left
          exact h.put_same hx rfl
        · exact Halves.IsHalved.eraseIdx_down h (Nat.not_le.mp (mt htop.mpr hx'))

theorem Ordered.addField (h : Ordered types tile) (hx : ¬ IsTop types x) :
    Ordered types (tile.addField types x) := by
  unfold Tile.addField
  split
  · exact h.insertDown hx
  · split
    · exact h.insertDown hx
    · split
      · exact (h.removeThing _ _).insertDown hx
      · exact h

theorem Ordered.removeOldSplash (h : Ordered types tile) : Ordered types (tile.removeOldSplash types) := by
  unfold Tile.removeOldSplash
  split
  · exact h
  · exact h.removeThing _ _

theorem Ordered.addThing (h : Ordered types tile) (x : TileItem) : Ordered types (tile.addThing types x) := by
  -- the loop stops where the order of the new item does not exceed that of the next
  have hbefore : ∀ y, decide ((types x.item.id).alwaysOnTopOrder ≤ (types y.item.id).alwaysOnTopOrder) = true →
      OrderLe types x y := by
    intro y hy
    exact of_decide_eq_true (p := (types x.item.id).alwaysOnTopOrder ≤ (types y.item.id).alwaysOnTopOrder) hy
  have hafter : ∀ y, decide ((types x.item.id).alwaysOnTopOrder ≤ (types y.item.id).alwaysOnTopOrder) = false →
      OrderLe types y x := fun y hy => UInt8.le_of_lt (UInt8.not_le.mp (of_decide_eq_false hy))
  unfold Tile.addThing
  dsimp only
  split
  · exact h
  · split
    · exact h
    · split
      next hx =>
        split
        · exact h.removeOldSplash.insertTop hx hbefore hafter
        · exact h.insertTop hx hbefore hafter
      next hx =>
        split
        · exact h.addField hx
        · exact h.insertDown hx

theorem Ordered.internalAddThing (h : Ordered types tile) (x : TileItem) :
    Ordered types (tile.internalAddThing types x) := by
  unfold Tile.internalAddThing
  dsimp only
  split
  · split
    · exact h
    · exact h
  · split
    · exact h
    · split
      next hx =>
        refine h.insertTop hx (fun y hy => ?_) (fun y hy => ?_)
        · exact UInt8.le_of_lt (of_decide_eq_true hy)
        · exact UInt8.not_lt.mp (of_decide_eq_false hy)
      next hx => exact h.insertDown hx

/-! ### Items that change -/

theorem Ordered.thing_index {place : Place} (h : Ordered types tile) (hx : tile.thingAt place = some x) :
    ∃ index, tile.getThingIndex types place = some index ∧ tile.placeOf index = some place := by
  cases place with
  | ground =>
    have hground : tile.ground.isSome = true := Option.isSome_of_eq_some hx
    refine ⟨0, if_pos hground, ?_⟩
    rw [placeOf, if_pos hground, if_pos rfl]
  | item i => exact h.getThingIndex_isSome hx

theorem Ordered.internalRemoveItem (h : Ordered types tile) (place : Place) :
    Ordered types (tile.internalRemoveItem types place) := by
  unfold Tile.internalRemoveItem
  split
  · split
    · exact h
    · exact h.removeThing _ _
  · exact h

theorem put_put (tile : Tile) (x y : TileItem) (place : Place) :
    (tile.put x place).put y place = tile.put y place := by
  cases place with
  | ground => rfl
  | item i => simp [put]

theorem thingAt_put {place : Place} (hx : tile.thingAt place = some x) :
    (tile.put y place).thingAt place = some y := by
  cases place with
  | ground => rfl
  | item i => exact List.getElem?_set_self (List.getElem?_eq_some_iff.mp hx).1

theorem updateThing_eq {place : Place} (h : Ordered types tile) (hx : tile.thingAt place = some x)
    (itemId count : UInt16) : tile.updateThing types place itemId count =
      tile.put { x with item := (x.item.setID types.items itemId).setSubType types.items count } place := by
  obtain ⟨index, hindex, -⟩ := h.thing_index hx
  unfold updateThing
  rw [hindex, hx]

theorem Ordered.updateThing_iff {place : Place} (h : Ordered types tile) (hx : tile.thingAt place = some x)
    (itemId count : UInt16) :
    Ordered types (tile.updateThing types place itemId count) ↔ tile.Fits types itemId place := by
  rw [updateThing_eq h hx, h.put_iff hx, Item.setSubType_id, Item.setID_id]

theorem Ordered.replaceThing_iff {place : Place} (h : Ordered types tile) (hx : tile.thingAt place = some x)
    {index : Nat} (hindex : tile.placeOf index = some place) :
    Ordered types (tile.replaceThing index y) ↔ tile.Fits types y.item.id place := by
  unfold replaceThing
  rw [hindex]
  exact h.put_iff hx

section InPlace

variable (types)

/-- What type of item is at the place of an item after `transformItem`, if it changes there: the wanted type
if the item itself is changed; what it decays to if it is used up; what is created in its stead if the type is
of another kind. There is none if the item is taken out, or if nothing happens. -/
def idInPlaceOnce (again : Option UInt16) (x : TileItem) (newId : UInt16) (newCount : Int) : Option UInt16 :=
  let newType := types newId
  let curType := types x.item.id
  if x.item.id = newId ∧
      (newCount = -1 ∨ newCount = (x.item.getSubType types.items).toNat ∧ newCount ≠ 0) then none
  else if !x.canTransform then none
  else if newType.id = 0 then none
  else if curType.alwaysOnTop ≠ newType.alwaysOnTop then none
  else if curType.type = newType.type then
    if newCount = 0 ∧ (curType.stackable ∨ x.item.hasAttribute .CHARGES) then
      if curType.stackable then none
      else
        let newItemId := if curType.id = newType.id then curType.decayTo else newId.toNat
        if newItemId < 0 then none
        else if newItemId ≠ newId.toNat then createdId types (UInt16.ofInt newItemId)
        else again
    else some (if curType.id ≠ newType.id then newId else x.item.id)
  else createdId types newId

def idInPlace (x : TileItem) (newId : UInt16) (newCount : Int) : Option UInt16 :=
  idInPlaceOnce types (idInPlaceOnce types none x newId (-1)) x newId newCount

/-- The tile that results is in order precisely if the type that has come to the place, if any, fits there. -/
def OrderedIffFits (tile : Tile) (place : Place) (result : Tile) (id : Option UInt16) : Prop :=
  Ordered types result ↔ ∀ i, id = some i → tile.Fits types i place

end InPlace

namespace OrderedIffFits

variable {place : Place} {result result' : Tile} {id id' : Option UInt16}

theorem none (h : Ordered types result) : OrderedIffFits types tile place result none := iff_of_true h nofun

theorem some {i : UInt16} (h : Ordered types result ↔ tile.Fits types i place) :
    OrderedIffFits types tile place result (some i) :=
  h.trans ⟨fun hfits _ hi => Option.some.inj hi ▸ hfits, fun hfits => hfits i rfl⟩

theorem ite {c : Prop} [Decidable c] (h : c → OrderedIffFits types tile place result id)
    (h' : ¬ c → OrderedIffFits types tile place result' id') :
    OrderedIffFits types tile place (if c then result else result') (if c then id else id') := by
  split
  next hc => exact h hc
  next hc => exact h' hc

theorem created (h : Ordered types tile) (hx : tile.thingAt place = .some x) {index : Nat}
    (hindex : tile.placeOf index = .some place) (type count : UInt16) :
    OrderedIffFits types tile place (match TileItem.create types type count with
      | .none => tile
      | .some newItem => tile.replaceThing index newItem) (createdId types type) := by
  rw [← TileItem.create_id types type count]
  cases TileItem.create types type count with
  | none => exact .none h
  | some newItem => exact .some (h.replaceThing_iff hx hindex)

theorem updated (h : Ordered types tile) (hx : tile.thingAt place = .some x) (c : Prop) [Decidable c]
    (itemId count : UInt16) (hid : y.item.id = x.item.id) :
    OrderedIffFits types tile place
      ((if c then tile.put y place else tile).updateThing types place itemId count) (.some itemId) := by
  refine .some ?_
  split
  · have hput : Ordered types (tile.put y place) := by
      cases place with
      | ground => exact h
      | item i => exact h.put_same hx hid
    rw [updateThing_eq hput (thingAt_put hx), put_put, h.put_iff hx, Item.setSubType_id, Item.setID_id]
  · exact h.updateThing_iff hx itemId count

end OrderedIffFits

theorem setDefaultSubtype_id (items : Items) (item : Item) : (item.setDefaultSubtype items).id = item.id := by
  unfold Item.setDefaultSubtype
  dsimp only
  split
  · split <;> rfl
  · rfl

theorem Ordered.transformOnce {place : Place} {again : Tile} {againId : Option UInt16}
    (h : Ordered types tile) (hx : tile.thingAt place = some x) (newId : UInt16) (newCount : Int)
    (hagain : OrderedIffFits types tile place again againId) :
    OrderedIffFits types tile place (transformOnce types again tile place newId newCount)
      (idInPlaceOnce types againId x newId newCount) := by
  obtain ⟨index, hindex, hplace⟩ := h.thing_index hx
  unfold Tile.transformOnce idInPlaceOnce
  rw [hx, hindex]
  -- nothing is to be done, the item cannot be transformed, or there is no such type
  refine .ite (fun _ => .none h) fun _ => .ite (fun _ => .none h) fun _ => .ite (fun _ => .none h) fun _ => ?_
  refine .ite (fun _ => ?_) fun _ => .ite (fun _ => .ite (fun _ => .ite (fun _ => ?_) fun _ => ?_) fun _ => ?_)
    fun _ => ?_
  · -- the types belong to different halves
    exact .none ((h.removeThing _ _).addThing _)
  · -- a stack is used up
    exact .none (h.internalRemoveItem _)
  · -- the charges of an item are used up
    exact .ite (fun _ => .none (h.internalRemoveItem _)) fun _ =>
      .ite (fun _ => .created h hx hplace _ _) fun _ => hagain
  · -- the types are of one kind
    exact .updated h hx _ _ _ (setDefaultSubtype_id _ _)
  · exact .created h hx hplace _ _

theorem Ordered.transformItem {place : Place} (h : Ordered types tile) (hx : tile.thingAt place = some x)
    (newId : UInt16) (newCount : Int) :
    OrderedIffFits types tile place (tile.transformItem types place newId newCount)
      (idInPlace types x newId newCount) :=
  h.transformOnce hx newId newCount (h.transformOnce hx newId (-1) (.none h))

theorem transformItem_none {place : Place} (hx : tile.thingAt place = none) (newId : UInt16) (newCount : Int) :
    tile.transformItem types place newId newCount = tile := by
  unfold Tile.transformItem Tile.transformOnce
  rw [hx]

theorem Ordered.thingAt_of_placeOf {index : Nat} {place : Place} (h : Ordered types tile)
    (hindex : tile.placeOf index = some place) : ∃ x, tile.thingAt place = some x := by
  have hcount : tile.downItemCount ≤ tile.items.length := h.count
  -- behind the ground there are items on top and below, in the bounds of the vector
  have hbehind : ∀ pos, tile.placeBehindGround pos = some place → ∃ x, tile.thingAt place = some x := by
    intro pos hpos
    unfold placeBehindGround at hpos
    split at hpos
    next htop =>
      cases hpos
      have hlt : tile.downItemCount + pos < tile.items.length := Nat.add_lt_of_lt_sub' htop
      exact ⟨_, List.getElem?_eq_getElem hlt⟩
    next =>
      dsimp only at hpos
      split at hpos
      · cases hpos
      · split at hpos
        next hdown =>
          cases hpos
          exact ⟨_, List.getElem?_eq_getElem (Nat.lt_of_lt_of_le hdown hcount)⟩
        · cases hpos
  unfold placeOf at hindex
  split at hindex
  next hground =>
    split at hindex
    · cases hindex
      exact Option.isSome_iff_exists.mp hground
    · exact hbehind _ hindex
  · exact hbehind _ hindex

end Tile

/-! ### Runs -/

/-- A call that concerns the items of a tile; creatures come and go between the calls. -/
inductive TileCall where
  | addThing (x : TileItem)
  | internalAddThing (x : TileItem)
  | updateThing (place : Place) (itemId count : UInt16)
  | replaceThing (index : Nat) (x : TileItem)
  | removeThing (place : Place) (count : BitVec 32)
  | transformItem (place : Place) (newId : UInt16) (newCount : Int)
  | creatures (n : Nat)

namespace Tile

variable (types : TileItemTypes)

def step (tile : Tile) : TileCall → Tile
  | .addThing x => tile.addThing types x
  | .internalAddThing x => tile.internalAddThing types x
  | .updateThing place itemId count => tile.updateThing types place itemId count
  | .replaceThing index x => tile.replaceThing index x
  | .removeThing place count => tile.removeThing types place count
  | .transformItem place newId newCount => tile.transformItem types place newId newCount
  | .creatures n => { tile with creatures := n }

/-- Where the call changes an item without moving it, or puts another one there, the type fits the place. -/
def CallFits (tile : Tile) : TileCall → Prop
  | .updateThing place itemId _ => ∀ x, tile.thingAt place = some x → tile.Fits types itemId place
  | .replaceThing index x => ∀ place, tile.placeOf index = some place → tile.Fits types x.item.id place
  | .transformItem place newId newCount => ∀ x, tile.thingAt place = some x →
      ∀ id, idInPlace types x newId newCount = some id → tile.Fits types id place
  | .addThing _ | .internalAddThing _ | .removeThing _ _ | .creatures _ => True

variable {types}

theorem Ordered.step_iff {tile : Tile} (h : Ordered types tile) (call : TileCall) :
    Ordered types (tile.step types call) ↔ tile.CallFits types call := by
  cases call with
  | addThing x => exact iff_of_true (h.addThing x) trivial
  | internalAddThing x => exact iff_of_true (h.internalAddThing x) trivial
  | removeThing place count => exact iff_of_true (h.removeThing place count) trivial
  | creatures n => exact iff_of_true h trivial
  | updateThing place itemId count =>
    change _ ↔ ∀ x, tile.thingAt place = some x → tile.Fits types itemId place
    cases hx : tile.thingAt place with
    | none =>
      -- there is no thing to update
      have hnothing : tile.updateThing types place itemId count = tile := by
        unfold Tile.updateThing
        rw [hx]
        split
        · contradiction
        · rfl
      change Ordered types (tile.updateThing types place itemId count) ↔ _
      rw [hnothing]
      refine iff_of_true h fun _ hsome => ?_
      cases hsome
    | some x =>
      refine (h.updateThing_iff hx itemId count).trans ⟨fun hfits _ _ => hfits, fun hfits => hfits x rfl⟩
  | replaceThing index x =>
    change _ ↔ ∀ place, tile.placeOf index = some place → tile.Fits types x.item.id place
    cases hindex : tile.placeOf index with
    | none =>
      -- the index means no place
      have hnothing : tile.replaceThing index x = tile := by
        unfold Tile.replaceThing
        rw [hindex]
      change Ordered types (tile.replaceThing index x) ↔ _
      rw [hnothing]
      refine iff_of_true h fun _ hsome => ?_
      cases hsome
    | some place =>
      obtain ⟨y, hy⟩ := h.thingAt_of_placeOf hindex
      refine (h.replaceThing_iff hy hindex).trans ⟨fun hfits _ heq => ?_, fun hfits => hfits place rfl⟩
      exact Option.some.inj heq ▸ hfits
  | transformItem place newId newCount =>
    change Ordered types (tile.transformItem types place newId newCount) ↔ ∀ x, tile.thingAt place = some x →
      ∀ id, idInPlace types x newId newCount = some id → tile.Fits types id place
    cases hx : tile.thingAt place with
    | none =>
      rw [transformItem_none hx]
      refine iff_of_true h fun _ hsome => ?_
      cases hsome
    | some x =>
      refine (h.transformItem hx newId newCount).trans ⟨fun hfits _ heq => ?_, fun hfits => hfits x rfl⟩
      exact Option.some.inj heq ▸ hfits

/-- **The order of the items.** From an empty tile, whatever the types of items are: the items are in order
after every call precisely if every type that comes to a place of the vector, by a change of the item there or
with another item, fits the place. -/
theorem run_ordered_iff (types : TileItemTypes) (calls : List TileCall) :
    (∀ pre, pre <+: calls → Ordered types (Runs.run (step types) {} pre)) ↔
      Runs.Meets (step types) (CallFits types) {} calls :=
  Runs.forall_prefix_iff_meets (fun _ call h => h.step_iff call) ordered_empty

/-- A closed door, the door when it is open, and a sign. -/
def doorTypes : TileItemTypes := fun id =>
  if id = 1 then { id := 1, type := .DOOR, alwaysOnTop := true, alwaysOnTopOrder := 2 }
  else if id = 2 then { id := 2, type := .DOOR, alwaysOnTop := true, alwaysOnTopOrder := 3 }
  else if id = 3 then { id := 3, alwaysOnTop := true, alwaysOnTopOrder := 2 }
  else {}

/-- The map has a door and a sign, and the door is opened. -/
def openedDoor : List TileCall :=
  [.internalAddThing { item := { id := 1 } }, .internalAddThing { item := { id := 3 } },
    .transformItem (.item 0) 2 (-1)]

/-- The open door belongs behind the sign, but stays before it. -/
theorem openedDoor_not_ordered : ¬ Ordered doorTypes (Runs.run (step doorTypes) {} openedDoor) := by
  intro h
  have horders : ((Runs.run (step doorTypes) {} openedDoor).items.map fun y =>
      (doorTypes y.item.id).alwaysOnTopOrder) = [3, 2] := by decide
  have hcount : (Runs.run (step doorTypes) {} openedDoor).downItemCount = 0 := by decide
  have hsorted := h.sorted
  rw [hcount, List.drop_zero] at hsorted
  have hpairwise : ((Runs.run (step doorTypes) {} openedDoor).items.map fun y =>
      (doorTypes y.item.id).alwaysOnTopOrder).Pairwise (· ≤ ·) := List.pairwise_map.mpr hsorted
  rw [horders] at hpairwise
  exact absurd hpairwise (by decide)

end Tile

end Moonlight
