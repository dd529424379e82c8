import Moonlight.Lib.Flags
import Moonlight.Map.TileItems

/-!
# The flags of a tile

A `Tile` (items/tile.cpp) keeps a word of flags that says what is on it, so that nobody has to go through its
items for that. `setTileFlags` adds the flags of a thing that comes onto the tile, and `resetTileFlags` takes
away those of a thing that goes. The functions here are those of the items of a tile, each with what it does to
the flags, and `toTile_step` says that this is all they add.

A flag that blocks is taken away only if no other thing on the tile needs it, and is exact (`run_blocking`). The
other flags are taken away without a look at the other things, and one is never set, so they are exact
precisely as long as no such thing is among the others (`run_present_iff`).
-/

namespace Moonlight

open Flags

inductive ItemProperty where
  | BLOCKSOLID
  | HASHEIGHT
  | BLOCKPROJECTILE
  | BLOCKPATH
  | ISVERTICAL
  | ISHORIZONTAL
  | MOVEABLE
  | IMMOVABLEBLOCKSOLID
  | IMMOVABLEBLOCKPATH
  | IMMOVABLENOFIELDBLOCKPATH
  | NOFIELDBLOCKPATH
  | SUPPORTHANGABLE
  deriving DecidableEq, Repr

def TileItem.hasProperty (types : TileItemTypes) (x : TileItem) (prop : ItemProperty) : Bool :=
  let it := types x.item.id
  -- an item with a unique id counts as not moveable
  let unique := x.item.hasAttribute .UNIQUEID
  match prop with
  | .BLOCKSOLID => it.blockSolid
  | .MOVEABLE => it.moveable && !unique
  | .HASHEIGHT => it.hasHeight
  | .BLOCKPROJECTILE => it.blockProjectile
  | .BLOCKPATH => it.blockPathFind
  | .ISVERTICAL => it.isVertical
  | .ISHORIZONTAL => it.isHorizontal
  | .IMMOVABLEBLOCKSOLID => it.blockSolid && (!it.moveable || unique)
  | .IMMOVABLEBLOCKPATH => it.blockPathFind && (!it.moveable || unique)
  | .IMMOVABLENOFIELDBLOCKPATH => !it.isMagicField && it.blockPathFind && (!it.moveable || unique)
  | .NOFIELDBLOCKPATH => !it.isMagicField && it.blockPathFind
  | .SUPPORTHANGABLE => it.isHorizontal || it.isVertical

/-- The flags of `TileFlags_t` that say what is on the tile. The seven for a change of floor count as one. -/
inductive TileState where
  | FLOORCHANGE
  | TELEPORT
  | MAGICFIELD
  | MAILBOX
  | TRASHHOLDER
  | BED
  | DEPOT
  | BLOCKSOLID
  | BLOCKPATH
  | IMMOVABLEBLOCKSOLID
  | IMMOVABLEBLOCKPATH
  | IMMOVABLENOFIELDBLOCKPATH
  | NOFIELDBLOCKPATH
  | SUPPORTS_HANGABLE
  deriving DecidableEq, Repr

def FloorChange.bits : FloorChange → BitVec 32
  | .NONE => 0
  | .DOWN => 1 <<< 0
  | .NORTH => 1 <<< 1
  | .SOUTH => 1 <<< 2
  | .EAST => 1 <<< 3
  | .WEST => 1 <<< 4
  | .SOUTH_ALT => 1 <<< 5
  | .EAST_ALT => 1 <<< 6

namespace TileState

def bits : TileState → BitVec 32
  | FLOORCHANGE => FloorChange.DOWN.bits ||| FloorChange.NORTH.bits ||| FloorChange.SOUTH.bits |||
      FloorChange.EAST.bits ||| FloorChange.WEST.bits ||| FloorChange.SOUTH_ALT.bits ||| FloorChange.EAST_ALT.bits
  | TELEPORT => 1 <<< 11
  | MAGICFIELD => 1 <<< 12
  | MAILBOX => 1 <<< 13
  | TRASHHOLDER => 1 <<< 14
  | BED => 1 <<< 15
  | DEPOT => 1 <<< 16
  | BLOCKSOLID => 1 <<< 17
  | BLOCKPATH => 1 <<< 18
  | IMMOVABLEBLOCKSOLID => 1 <<< 19
  | IMMOVABLEBLOCKPATH => 1 <<< 20
  | IMMOVABLENOFIELDBLOCKPATH => 1 <<< 21
  | NOFIELDBLOCKPATH => 1 <<< 22
  | SUPPORTS_HANGABLE => 1 <<< 23

/-- The flags for the zones of the map, which have nothing to do with what is on the tile: `PROTECTIONZONE`,
`NOPVPZONE`, `NOLOGOUT` and `PVPZONE`. -/
def zones : BitVec 32 := 1 <<< 7 ||| 1 <<< 8 ||| 1 <<< 9 ||| 1 <<< 10

theorem has_bits (s k : TileState) : has s.bits k.bits = decide (s = k) := by
  cases s <;> cases k <;> rfl

theorem has_floorChange (change : FloorChange) (k : TileState) :
    has change.bits k.bits = (change.bits != 0 && decide (k = FLOORCHANGE)) := by
  cases change <;> cases k <;> rfl

theorem has_zones (zone : BitVec 32) (k : TileState) : has (zone &&& zones) k.bits = false := by
  have hzones : zones &&& k.bits = 0 := by cases k <;> rfl
  rw [has, BitVec.and_assoc, hzones]
  exact bne_eq_false_iff_eq.mpr BitVec.and_zero

/-- Some thing of this kind is to be on the tile if the flag is set. -/
def isKind (types : TileItemTypes) (x : TileItem) : TileState → Bool
  | FLOORCHANGE => (types x.item.id).floorChange.bits != 0
  | TELEPORT => x.isTeleport
  | MAGICFIELD => x.isMagicField
  | MAILBOX => x.isMailbox
  | TRASHHOLDER => x.isTrashHolder
  | BED => x.isBed
  | DEPOT => x.isDepotLocker
  | BLOCKSOLID => x.hasProperty types .BLOCKSOLID
  | BLOCKPATH => x.hasProperty types .BLOCKPATH
  | IMMOVABLEBLOCKSOLID => x.hasProperty types .IMMOVABLEBLOCKSOLID
  | IMMOVABLEBLOCKPATH => x.hasProperty types .IMMOVABLEBLOCKPATH
  | IMMOVABLENOFIELDBLOCKPATH => x.hasProperty types .IMMOVABLENOFIELDBLOCKPATH
  | NOFIELDBLOCKPATH => x.hasProperty types .NOFIELDBLOCKPATH
  | SUPPORTS_HANGABLE => x.hasProperty types .SUPPORTHANGABLE

end TileState

/-! ### Setting and resetting -/

section Words

variable (types : TileItemTypes)

/-- `Tile::setTileFlags`. -/
def setTileFlags (item : TileItem) (flags : BitVec 32) : BitVec 32 :=
  let it := types item.item.id
  let flags :=
    if !has flags TileState.FLOORCHANGE.bits then setIf (it.floorChange.bits != 0) it.floorChange.bits flags
    else flags
  -- the first change of floor stays as long as its flag does
  let flags := setIf (item.hasProperty types .IMMOVABLEBLOCKSOLID) TileState.IMMOVABLEBLOCKSOLID.bits flags
  let flags := setIf (item.hasProperty types .BLOCKPATH) TileState.BLOCKPATH.bits flags
  let flags := setIf (item.hasProperty types .NOFIELDBLOCKPATH) TileState.NOFIELDBLOCKPATH.bits flags
  let flags := setIf (item.hasProperty types .IMMOVABLENOFIELDBLOCKPATH)
    TileState.IMMOVABLENOFIELDBLOCKPATH.bits flags
  let flags := setIf item.isTeleport TileState.TELEPORT.bits flags
  let flags := setIf item.isMagicField TileState.MAGICFIELD.bits flags
  let flags := setIf item.isMailbox TileState.MAILBOX.bits flags
  let flags := setIf item.isTrashHolder TileState.TRASHHOLDER.bits flags
  let flags := setIf (item.hasProperty types .BLOCKSOLID) TileState.BLOCKSOLID.bits flags
  let flags := setIf item.isBed TileState.BED.bits flags
  let flags := setIf item.isDepotLocker TileState.DEPOT.bits flags
  -- nothing sets `IMMOVABLEBLOCKPATH`
  setIf (item.hasProperty types .SUPPORTHANGABLE) TileState.SUPPORTS_HANGABLE.bits flags

/-- `Tile::resetTileFlags`; `other` says whether another thing on the tile has a property. -/
def resetTileFlags (other : ItemProperty → Bool) (item : TileItem) (flags : BitVec 32) : BitVec 32 :=
  let it := types item.item.id
  let last prop := item.hasProperty types prop && !other prop
  let flags := resetIf (it.floorChange.bits != 0) TileState.FLOORCHANGE.bits flags
  -- only the next six look at the other things
  let flags := resetIf (last .BLOCKSOLID) TileState.BLOCKSOLID.bits flags
  let flags := resetIf (last .IMMOVABLEBLOCKSOLID) TileState.IMMOVABLEBLOCKSOLID.bits flags
  let flags := resetIf (last .BLOCKPATH) TileState.BLOCKPATH.bits flags
  let flags := resetIf (last .NOFIELDBLOCKPATH) TileState.NOFIELDBLOCKPATH.bits flags
  let flags := resetIf (last .IMMOVABLEBLOCKPATH) TileState.IMMOVABLEBLOCKPATH.bits flags
  let flags := resetIf (last .IMMOVABLENOFIELDBLOCKPATH) TileState.IMMOVABLENOFIELDBLOCKPATH.bits flags
  let flags := resetIf item.isTeleport TileState.TELEPORT.bits flags
  let flags := resetIf item.isMagicField TileState.MAGICFIELD.bits flags
  let flags := resetIf item.isMailbox TileState.MAILBOX.bits flags
  let flags := resetIf item.isTrashHolder TileState.TRASHHOLDER.bits flags
  let flags := resetIf item.isBed TileState.BED.bits flags
  let flags := resetIf item.isDepotLocker TileState.DEPOT.bits flags
  resetIf (item.hasProperty types .SUPPORTHANGABLE) TileState.SUPPORTS_HANGABLE.bits flags

namespace TileState

/-- The property of the things that a flag is for, if the flag is reset only when no other thing has it. -/
def checked : TileState → Option ItemProperty
  | BLOCKSOLID => some .BLOCKSOLID
  | BLOCKPATH => some .BLOCKPATH
  | NOFIELDBLOCKPATH => some .NOFIELDBLOCKPATH
  | IMMOVABLEBLOCKSOLID => some .IMMOVABLEBLOCKSOLID
  | IMMOVABLEBLOCKPATH => some .IMMOVABLEBLOCKPATH
  | IMMOVABLENOFIELDBLOCKPATH => some .IMMOVABLENOFIELDBLOCKPATH
  | _ => none

variable {types}

theorem isKind_of_checked {k : TileState} {prop : ItemProperty} (h : k.checked = some prop) (x : TileItem) :
    k.isKind types x = x.hasProperty types prop := by
  cases k <;> cases h <;> rfl

/-- **Setting.** One flag is never set. -/
theorem has_setTileFlags (x : TileItem) (flags : BitVec 32) (k : TileState) :
    has (setTileFlags types x flags) k.bits =
      (has flags k.bits || (decide (k ≠ IMMOVABLEBLOCKPATH) && k.isKind types x)) := by
  -- all changes of floor count as one flag, so it does not matter that only the first is set
  have hfloor : has (if !has flags FLOORCHANGE.bits then
        setIf ((types x.item.id).floorChange.bits != 0) (types x.item.id).floorChange.bits flags
      else flags) k.bits =
      (has flags k.bits || (decide (k = FLOORCHANGE) && (types x.item.id).floorChange.bits != 0)) := by
    by_cases hk : k = FLOORCHANGE
    · subst hk
      cases hset : has flags FLOORCHANGE.bits <;> simp [has_setIf, has_floorChange, hset]
    · split <;> simp [has_setIf, has_floorChange, hk]
  unfold setTileFlags
  simp only [has_setIf, has_bits, hfloor]
  cases k <;> simp [isKind]

theorem reset_disjoint (s k : TileState) (h : has s.bits k.bits = true) : k.bits &&& ~~~s.bits = 0#32 := by
  rw [has_bits] at h
  rw [of_decide_eq_true h]
  exact BitVec.and_not_self _

/-- **Resetting.** -/
theorem has_resetTileFlags (other : ItemProperty → Bool) (x : TileItem) (flags : BitVec 32) (k : TileState) :
    has (resetTileFlags types other x flags) k.bits =
      (has flags k.bits && !(k.isKind types x && !(k.checked.any other))) := by
  have hreset : ∀ (c : Bool) (s : TileState) (flags : BitVec 32),
      has (resetIf c s.bits flags) k.bits = (has flags k.bits && !(c && decide (s = k))) := by
    intro c s flags
    rw [has_resetIf c (reset_disjoint s k), has_bits]
  unfold resetTileFlags
  simp only [hreset]
  cases k <;> simp [isKind, checked]

end TileState

end Words

/-! ### The tile with its flags -/

structure FlaggedTile extends Tile where
  flags : BitVec 32 := 0

namespace Tile

/-- The things on the tile but the one at a place, if there is a place. -/
def without (tile : Tile) : Option Place → List TileItem
  | none => tile.ground.toList ++ tile.items
  | some .ground => tile.items
  | some (.item i) => tile.ground.toList ++ tile.items.eraseIdx i

/-- The ground and the items. -/
def things (tile : Tile) : List TileItem := tile.without none

/-- `Tile::hasProperty`; what is not on the tile need not be excluded. -/
def hasProperty (types : TileItemTypes) (tile : Tile) (exclude : Option Place) (prop : ItemProperty) : Bool :=
  (tile.without exclude).any fun x => x.hasProperty types prop

end Tile

namespace FlaggedTile

variable (types : TileItemTypes)

def hasFlag (tile : FlaggedTile) (k : TileState) : Bool := has tile.flags k.bits

def setTileFlags (tile : FlaggedTile) (item : TileItem) : FlaggedTile :=
  { tile with flags := Moonlight.setTileFlags types item tile.flags }

def resetTileFlags (tile : FlaggedTile) (item : TileItem) (exclude : Option Place) : FlaggedTile :=
  { tile with flags := Moonlight.resetTileFlags types (tile.hasProperty types exclude) item tile.flags }

/-- What `onAddTileItem` does to the tile itself. -/
def onAddTileItem (tile : FlaggedTile) (item : TileItem) : FlaggedTile := tile.setTileFlags types item

def onRemoveTileItem (tile : FlaggedTile) (item : TileItem) : FlaggedTile :=
  tile.resetTileFlags types item none

def removeThing (tile : FlaggedTile) (place : Place) (count : BitVec 32) : FlaggedTile :=
  match place, tile.thingAt place with
  | _, none => tile
  | .ground, some x => onRemoveTileItem types { tile with ground := none } x
  | .item i, some x =>
    if (tile.getThingIndex types (.item i)).isNone then tile
    else if (types x.item.id).alwaysOnTop then
      onRemoveTileItem types { tile with items := tile.items.eraseIdx i } x
    else if (types x.item.id).stackable ∧ count ≠ BitVec.ofNat 32 x.item.count.toNat then
      let newCount := Containers.Heap.newCount x.item.count count
      { tile with toTile := tile.put { x with item := x.item.setItemCount newCount } (.item i) }
    else
      onRemoveTileItem types
        { tile with items := tile.items.eraseIdx i, downItemCount := tile.downItemCount - 1 } x

def insertTop (tile : FlaggedTile) (before : TileItem → Bool) (x : TileItem) : FlaggedTile :=
  { tile with toTile := tile.toTile.insertTop before x }

def insertDown (tile : FlaggedTile) (x : TileItem) : FlaggedTile :=
  { tile with toTile := tile.toTile.insertDown x }

def removeOldSplash (tile : FlaggedTile) : FlaggedTile :=
  match (tile.items.drop tile.downItemCount).findIdx? fun y => (types y.item.id).isSplash with
  | none => tile
  | some i => tile.removeThing types (.item (tile.downItemCount + i)) 1

def addField (tile : FlaggedTile) (x : TileItem) : FlaggedTile :=
  match (tile.items.take tile.downItemCount).findIdx? (·.isMagicField) with
  | none => onAddTileItem types (tile.insertDown x) x
  | some i =>
    match tile.items[i]? with
    | none => onAddTileItem types (tile.insertDown x) x
    | some oldField =>
      if (types oldField.item.id).replaceable then
        onAddTileItem types ((tile.removeThing types (.item i) 1).insertDown x) x
      else tile

def addThing (tile : FlaggedTile) (x : TileItem) : FlaggedTile :=
  let itemType := types x.item.id
  if tile.items.length ≥ 0xFFFF then tile
  else if itemType.isGroundTile then
    match tile.ground with
    | none => onAddTileItem types { tile with ground := some x } x
    -- a ground takes the place of the old one
    | some oldGround =>
      setTileFlags types (resetTileFlags types { tile with ground := some x } oldGround none) x
  else if itemType.alwaysOnTop then
    -- a splash takes the place of an old splash, too
    let tile := if itemType.isSplash then tile.removeOldSplash types else tile
    onAddTileItem types
      (tile.insertTop (fun y => itemType.alwaysOnTopOrder ≤ (types y.item.id).alwaysOnTopOrder) x) x
  else if itemType.isMagicField then tile.addField types x
  else onAddTileItem types (tile.insertDown x) x

def internalAddThing (tile : FlaggedTile) (x : TileItem) : FlaggedTile :=
  let itemType := types x.item.id
  if itemType.isGroundTile then
    if tile.ground.isNone then setTileFlags types { tile with ground := some x } x else tile
  else if tile.items.length ≥ 0xFFFF then tile
  else if itemType.alwaysOnTop then
    setTileFlags types
      (tile.insertTop (fun y => (types y.item.id).alwaysOnTopOrder > itemType.alwaysOnTopOrder) x) x
  else setTileFlags types (tile.insertDown x) x

/-- The item that `updateThing` makes of one. -/
def updated (x : TileItem) (itemId count : UInt16) : TileItem :=
  { x with item := (x.item.setID types.items itemId).setSubType types.items count }

/-- The item is still among those on the tile when the flags are reset. -/
def updateThing (tile : FlaggedTile) (place : Place) (itemId count : UInt16) : FlaggedTile :=
  match tile.getThingIndex types place, tile.thingAt place with
  | some _, some x =>
    let tile := tile.resetTileFlags types x (some place)
    let item := updated types x itemId count
    setTileFlags types { tile with toTile := tile.put item place } item
  | _, _ => tile

/-- The new item is already on the tile when the flags are reset. -/
def replaceThing (tile : FlaggedTile) (index : Nat) (x : TileItem) : FlaggedTile :=
  match tile.placeOf index with
  | none => tile
  | some place =>
    match tile.thingAt place with
    | none => tile
    | some oldItem =>
      setTileFlags types (resetTileFlags types { tile with toTile := tile.put x place } oldItem none) x

/-- `Tile::setFlag`, for the zones. -/
def setZones (tile : FlaggedTile) (zone : BitVec 32) : FlaggedTile :=
  { tile with flags := tile.flags ||| (zone &&& TileState.zones) }

end FlaggedTile

/-- A call that concerns the things on a tile or its zones; creatures come and go between the calls. -/
inductive TileFlagCall where
  | addThing (x : TileItem)
  | internalAddThing (x : TileItem)
  | updateThing (place : Place) (itemId count : UInt16)
  | replaceThing (index : Nat) (x : TileItem)
  | removeThing (place : Place) (count : BitVec 32)
  | creatures (n : Nat)
  | setZones (zone : BitVec 32)

namespace TileFlagCall

/-- What the call is for the items of the tile, if it is anything. -/
def toTileCall : TileFlagCall → Option TileCall
  | addThing x => some (.addThing x)
  | internalAddThing x => some (.internalAddThing x)
  | updateThing place itemId count => some (.updateThing place itemId count)
  | replaceThing index x => some (.replaceThing index x)
  | removeThing place count => some (.removeThing place count)
  | creatures n => some (.creatures n)
  | setZones _ => none

end TileFlagCall

namespace FlaggedTile

variable (types : TileItemTypes)

def step (tile : FlaggedTile) : TileFlagCall → FlaggedTile
  | .addThing x => tile.addThing types x
  | .internalAddThing x => tile.internalAddThing types x
  | .updateThing place itemId count => tile.updateThing types place itemId count
  | .replaceThing index x => tile.replaceThing types index x
  | .removeThing place count => tile.removeThing types place count
  | .creatures n => { tile with creatures := n }
  | .setZones zone => tile.setZones zone

variable {types}

/-! ### The items are those of the tile without flags -/

theorem toTile_removeThing (tile : FlaggedTile) (place : Place) (count : BitVec 32) :
    (tile.removeThing types place count).toTile = tile.toTile.removeThing types place count := by
  unfold removeThing Tile.removeThing
  cases hx : tile.thingAt place with
  | none => cases place <;> rfl
  | some x =>
    cases place with
    | ground => rfl
    | item i =>
      simp only [apply_ite FlaggedTile.toTile]
      rfl

theorem toTile_removeOldSplash (tile : FlaggedTile) :
    (tile.removeOldSplash types).toTile = tile.toTile.removeOldSplash types := by
  unfold removeOldSplash Tile.removeOldSplash
  cases (tile.items.drop tile.downItemCount).findIdx? fun y => (types y.item.id).isSplash with
  | none => rfl
  | some i => exact tile.toTile_removeThing _ 1

theorem toTile_addField (tile : FlaggedTile) (x : TileItem) :
    (tile.addField types x).toTile = tile.toTile.addField types x := by
  unfold addField Tile.addField
  cases (tile.items.take tile.downItemCount).findIdx? (·.isMagicField) with
  | none => rfl
  | some i =>
    dsimp only
    cases tile.items[i]? with
    | none => rfl
    | some oldField =>
      dsimp only
      rw [apply_ite FlaggedTile.toTile, ← toTile_removeThing]
      rfl

theorem toTile_addThing (tile : FlaggedTile) (x : TileItem) :
    (tile.addThing types x).toTile = tile.toTile.addThing types x := by
  unfold addThing Tile.addThing
  dsimp only
  rw [apply_ite FlaggedTile.toTile, apply_ite FlaggedTile.toTile, apply_ite FlaggedTile.toTile,
    apply_ite FlaggedTile.toTile, toTile_addField, ← toTile_removeOldSplash, ← apply_ite FlaggedTile.toTile]
  cases tile.ground <;> rfl

theorem toTile_internalAddThing (tile : FlaggedTile) (x : TileItem) :
    (tile.internalAddThing types x).toTile = tile.toTile.internalAddThing types x := by
  unfold internalAddThing Tile.internalAddThing
  simp only [apply_ite FlaggedTile.toTile]
  rfl

theorem toTile_updateThing (tile : FlaggedTile) (place : Place) (itemId count : UInt16) :
    (tile.updateThing types place itemId count).toTile = tile.toTile.updateThing types place itemId count := by
  unfold updateThing Tile.updateThing
  cases tile.getThingIndex types place with
  | none => rfl
  | some index =>
    cases tile.thingAt place with
    | none => rfl
    | some x => rfl

theorem put_of_thingAt_none {tile : Tile} {index : Nat} {place : Place} (hplace : tile.placeOf index = some place)
    (hx : tile.thingAt place = none) (x : TileItem) : tile.put x place = tile := by
  cases place with
  -- an index never means a ground that is not there
  | ground =>
    have hground : tile.ground = none := hx
    unfold Tile.placeOf Tile.placeBehindGround at hplace
    rw [hground] at hplace
    dsimp only at hplace
    split at hplace
    · contradiction
    · split at hplace <;> try cases hplace
      split at hplace <;> try cases hplace
      split at hplace <;> cases hplace
  | item i =>
    have hlen : tile.items.length ≤ i := List.getElem?_eq_none_iff.mp hx
    change { tile with items := tile.items.set i x } = tile
    rw [List.set_eq_of_length_le hlen]

theorem toTile_replaceThing (tile : FlaggedTile) (index : Nat) (x : TileItem) :
    (tile.replaceThing types index x).toTile = tile.toTile.replaceThing index x := by
  unfold replaceThing Tile.replaceThing
  cases hplace : tile.placeOf index with
  | none => rfl
  | some place =>
    dsimp only
    cases hx : tile.thingAt place with
    -- the tile without flags is written to, but nothing is there
    | none => exact (put_of_thingAt_none hplace hx x).symm
    | some oldItem => rfl

/-- **Refinement.** The flags apart, a call does to the tile what it does to a tile without flags. -/
theorem toTile_step (tile : FlaggedTile) (call : TileFlagCall) :
    (tile.step types call).toTile = (call.toTileCall.elim tile.toTile (tile.toTile.step types)) := by
  cases call with
  | addThing x => exact tile.toTile_addThing x
  | internalAddThing x => exact tile.toTile_internalAddThing x
  | updateThing place itemId count => exact tile.toTile_updateThing place itemId count
  | replaceThing index x => exact tile.toTile_replaceThing index x
  | removeThing place count => exact tile.toTile_removeThing place count
  | creatures n => rfl
  | setZones zone => rfl

/-- The items after a run are those of a tile without flags after the calls that concern them. -/
theorem toTile_run (tile : FlaggedTile) (calls : List TileFlagCall) :
    (Runs.run (step types) tile calls).toTile =
      Runs.run (Tile.step types) tile.toTile (calls.filterMap TileFlagCall.toTileCall) := by
  induction calls generalizing tile with
  | nil => rfl
  | cons call calls ih =>
    rw [Runs.run_cons, ih, toTile_step, List.filterMap_cons]
    cases call.toTileCall with
    | none => rfl
    | some _ => rfl

end FlaggedTile

/-! ### What comes and what leaves -/

namespace Tile

variable (types : TileItemTypes)

/-- The place that `removeThing` makes free. It does not if only a part of a stack is taken. -/
def freed (tile : Tile) (place : Place) (count : BitVec 32) : Option Place :=
  match place, tile.thingAt place with
  | _, none => none
  | .ground, some _ => some .ground
  | .item i, some x =>
    if (tile.getThingIndex types (.item i)).isNone then none
    else if (types x.item.id).alwaysOnTop then some (.item i)
    else if (types x.item.id).stackable ∧ count ≠ BitVec.ofNat 32 x.item.count.toNat then none
    else some (.item i)

/-- The place of the thing that leaves with the call, is changed by it, or makes room for another one. -/
def leaving (tile : Tile) : TileFlagCall → Option Place
  | .addThing x =>
    let itemType := types x.item.id
    if tile.items.length ≥ 0xFFFF then none
    else if itemType.isGroundTile then tile.ground.map fun _ => .ground
    else if itemType.alwaysOnTop then
      if itemType.isSplash then
        match (tile.items.drop tile.downItemCount).findIdx? fun y => (types y.item.id).isSplash with
        | none => none
        | some i => tile.freed types (.item (tile.downItemCount + i)) 1
      else none
    else if itemType.isMagicField then
      match (tile.items.take tile.downItemCount).findIdx? (·.isMagicField) with
      | none => none
      | some i =>
        match tile.items[i]? with
        | none => none
        | some oldField => if (types oldField.item.id).replaceable then tile.freed types (.item i) 1 else none
    else none
  | .updateThing place _ _ =>
    match tile.getThingIndex types place, tile.thingAt place with
    | some _, some _ => some place
    | _, _ => none
  | .replaceThing index _ => (tile.placeOf index).filter fun place => (tile.thingAt place).isSome
  | .removeThing place count => tile.freed types place count
  | .internalAddThing _ | .creatures _ | .setZones _ => none

/-- The thing that comes with the call, or that another one becomes. -/
def coming (tile : Tile) : TileFlagCall → Option TileItem
  | .addThing x =>
    let itemType := types x.item.id
    if tile.items.length ≥ 0xFFFF then none
    else if itemType.isGroundTile then some x
    else if itemType.alwaysOnTop then some x
    else if itemType.isMagicField then
      match (tile.items.take tile.downItemCount).findIdx? (·.isMagicField) with
      | none => some x
      | some i =>
        match tile.items[i]? with
        | none => some x
        | some oldField => if (types oldField.item.id).replaceable then some x else none
    else some x
  | .internalAddThing x =>
    if (types x.item.id).isGroundTile then if tile.ground.isNone then some x else none
    else if tile.items.length ≥ 0xFFFF then none
    else some x
  | .updateThing place itemId count =>
    match tile.getThingIndex types place, tile.thingAt place with
    | some _, some x => some (FlaggedTile.updated types x itemId count)
    | _, _ => none
  | .replaceThing index x =>
    ((tile.placeOf index).filter fun place => (tile.thingAt place).isSome).map fun _ => x
  | .removeThing _ _ | .creatures _ | .setZones _ => none

variable {types} {tile : Tile} {x y : TileItem} {place : Place}

theorem things_perm (hx : tile.thingAt place = some x) :
    tile.things.Perm (x :: tile.without (some place)) := by
  cases place with
  | ground =>
    have hground : tile.ground = some x := hx
    rw [things, without, hground]
    exact List.Perm.refl _
  | item i =>
    obtain ⟨hi, hget⟩ := List.getElem?_eq_some_iff.mp hx
    have hperm : tile.items.Perm (x :: tile.items.eraseIdx i) := hget ▸ (List.getElem_cons_eraseIdx_perm hi).symm
    exact (hperm.append_left _).trans List.perm_middle

theorem things_put (hx : tile.thingAt place = some x) (y : TileItem) :
    (tile.put y place).things.Perm (y :: tile.without (some place)) := by
  have hwithout : (tile.put y place).without (some place) = tile.without (some place) := by
    cases place with
    | ground => rfl
    | item i =>
      change tile.ground.toList ++ (tile.items.set i y).eraseIdx i = tile.ground.toList ++ tile.items.eraseIdx i
      rw [List.eraseIdx_set_eq]
  -- the thing that was put is on the tile with the same other things
  have hperm := things_perm (thingAt_put (y := y) hx)
  rwa [hwithout] at hperm

theorem things_insertTop (tile : Tile) (before : TileItem → Bool) (x : TileItem) :
    (tile.insertTop before x).things.Perm (x :: tile.things) := by
  have hitems : (tile.insertTop before x).items.Perm (x :: tile.items) := by
    calc (tile.insertTop before x).items
      _ = tile.items.take tile.downItemCount ++
          Halves.insertBefore before x (tile.items.drop tile.downItemCount) := rfl
      _ |>.Perm (tile.items.take tile.downItemCount ++ x :: tile.items.drop tile.downItemCount) :=
        (Halves.insertBefore_perm before x _).append_left _
      _ |>.Perm (x :: (tile.items.take tile.downItemCount ++ tile.items.drop tile.downItemCount)) :=
        List.perm_middle
      _ = x :: tile.items := by rw [List.take_append_drop]
  exact (hitems.append_left _).trans List.perm_middle

theorem things_insertDown (tile : Tile) (x : TileItem) : (tile.insertDown x).things.Perm (x :: tile.things) :=
  List.perm_middle

end Tile

namespace FlaggedTile

variable (types : TileItemTypes)

/-- Some thing on the tile is of the kind. -/
def has (tile : FlaggedTile) (k : TileState) : Bool := tile.things.any fun x => k.isKind types x

/-- From one tile to another, the thing `old` leaves and the thing `new` comes, where there are such, and the
flags are reset for the one and set for the other. When a flag is reset, the new thing may be seen already. -/
structure Edit (tile : FlaggedTile) (old new : Option TileItem) (others : List TileItem) (tile' : FlaggedTile) :
    Prop where
  before : ∀ k : TileState, tile.has types k =
    (old.any (fun x => k.isKind types x) || others.any fun x => k.isKind types x)
  after : ∀ k : TileState, tile'.has types k =
    (new.any (fun x => k.isKind types x) || others.any fun x => k.isKind types x)
  flag : ∀ k : TileState, ∃ seen,
    (seen = (others.any fun x => k.isKind types x) ∨
      seen = (new.any (fun x => k.isKind types x) || others.any fun x => k.isKind types x)) ∧
    tile'.hasFlag k =
      ((tile.hasFlag k && !(old.any (fun x => k.isKind types x) && !(k.checked.isSome && seen))) ||
        (decide (k ≠ .IMMOVABLEBLOCKPATH) && new.any fun x => k.isKind types x))

variable {types} {tile tile' tile'' : FlaggedTile} {others : List TileItem} {x y : TileItem}

theorem has_of_perm (tile : FlaggedTile) {l : List TileItem} (h : tile.things.Perm l) (k : TileState) :
    tile.has types k = l.any fun x => k.isKind types x := h.any_eq

theorem checked_any (tile : FlaggedTile) (exclude : Option Place) (k : TileState) :
    k.checked.any (tile.hasProperty types exclude) =
      (k.checked.isSome && (tile.without exclude).any fun x => k.isKind types x) := by
  cases hk : k.checked with
  | none => rfl
  | some prop =>
    change tile.hasProperty types exclude prop = _
    rw [Option.isSome_some, Bool.true_and, Tile.hasProperty]
    exact congrArg (tile.without exclude).any (funext fun x => (TileState.isKind_of_checked hk x).symm)

namespace Edit

theorem same (hhas : ∀ k, tile'.has types k = tile.has types k) (hflag : ∀ k, tile'.hasFlag k = tile.hasFlag k) :
    Edit types tile none none tile.things tile' where
  before _ := rfl
  after k := hhas k
  flag k := by
    refine ⟨_, .inl rfl, ?_⟩
    rw [hflag]
    simp

theorem refl (types : TileItemTypes) (tile : FlaggedTile) : Edit types tile none none tile.things tile :=
  same (fun _ => rfl) fun _ => rfl

theorem add (tile' : FlaggedTile) (hthings : tile'.things.Perm (x :: tile.things))
    (hflags : tile'.flags = tile.flags) :
    Edit types tile none (some x) tile.things (setTileFlags types tile' x) where
  before _ := rfl
  after k := has_of_perm (setTileFlags types tile' x) hthings k
  flag k := by
    refine ⟨_, .inl rfl, ?_⟩
    change Flags.has (Moonlight.setTileFlags types x tile'.flags) k.bits = _
    rw [TileState.has_setTileFlags, hflags]
    simp [hasFlag]

theorem remove (tile' : FlaggedTile) (hthings : tile.things.Perm (y :: tile'.things))
    (hflags : tile'.flags = tile.flags) :
    Edit types tile (some y) none tile'.things (onRemoveTileItem types tile' y) where
  before k := has_of_perm tile hthings k
  after _ := rfl
  flag k := by
    refine ⟨_, .inl rfl, ?_⟩
    change Flags.has (Moonlight.resetTileFlags types (tile'.hasProperty types none) y tile'.flags) k.bits = _
    rw [TileState.has_resetTileFlags, hflags, checked_any]
    simp [hasFlag, Tile.things]

theorem exchange (tile' : FlaggedTile) (hold : tile.things.Perm (y :: others))
    (hnew : tile'.things.Perm (x :: others)) (hflags : tile'.flags = tile.flags) :
    Edit types tile (some y) (some x) others
      (setTileFlags types (resetTileFlags types tile' y none) x) where
  before k := has_of_perm tile hold k
  after k := has_of_perm (setTileFlags types (resetTileFlags types tile' y none) x) hnew k
  flag k := by
    refine ⟨_, .inr rfl, ?_⟩
    change Flags.has (Moonlight.setTileFlags types x
      (Moonlight.resetTileFlags types (tile'.hasProperty types none) y tile'.flags)) k.bits = _
    -- the new thing is seen along with the others
    have hseen : ((tile'.without none).any fun z => k.isKind types z) =
        (x :: others).any fun z => k.isKind types z := hnew.any_eq
    rw [TileState.has_setTileFlags, TileState.has_resetTileFlags, hflags, checked_any, hseen]
    simp [hasFlag]

theorem change {place : Place} (hold : tile.things.Perm (y :: tile.without (some place)))
    (hnew : tile'.things.Perm (x :: tile.without (some place)))
    (hflags : tile'.flags = (resetTileFlags types tile y (some place)).flags) :
    Edit types tile (some y) (some x) (tile.without (some place)) (setTileFlags types tile' x) where
  before k := has_of_perm tile hold k
  after k := has_of_perm (setTileFlags types tile' x) hnew k
  flag k := by
    refine ⟨_, .inl rfl, ?_⟩
    change Flags.has (Moonlight.setTileFlags types x tile'.flags) k.bits = _
    rw [TileState.has_setTileFlags, hflags]
    change (Flags.has (Moonlight.resetTileFlags types (tile.hasProperty types (some place)) y tile.flags) k.bits
      || _) = _
    rw [TileState.has_resetTileFlags, checked_any]
    simp [hasFlag]

theorem trans {old new : Option TileItem} (h : Edit types tile old none others tile')
    (h' : Edit types tile' none new tile'.things tile'') : Edit types tile old new others tile'' where
  before := h.before
  after k := by
    have hothers := h.after k
    rw [Option.any_none, Bool.false_or] at hothers
    rw [h'.after k, ← hothers]
    rfl
  flag k := by
    obtain ⟨seen, hseen, hflag⟩ := h.flag k
    obtain ⟨seen', -, hflag'⟩ := h'.flag k
    refine ⟨seen, ?_, ?_⟩
    · rcases hseen with hseen | hseen
      · exact .inl hseen
      · rw [Option.any_none, Bool.false_or] at hseen
        exact .inl hseen
    · rw [hflag', hflag]
      simp

end Edit

theorem isKind_setItemCount (x : TileItem) (n : UInt8) (k : TileState) :
    k.isKind types { x with item := x.item.setItemCount n } = k.isKind types x := by
  cases k <;> rfl

theorem removeThing_edit (tile : FlaggedTile) (place : Place) (count : BitVec 32) :
    Edit types tile ((tile.freed types place count).bind tile.thingAt) none
      (tile.without (tile.freed types place count)) (tile.removeThing types place count) := by
  unfold removeThing Tile.freed
  split
  next hx => exact .refl types tile
  next x hx =>
    rw [Option.bind_some, hx]
    exact .remove { tile with ground := none } (Tile.things_perm hx) rfl
  next i x hx =>
    by_cases hindex : (tile.getThingIndex types (.item i)).isNone = true
    · rw [if_pos hindex, if_pos hindex]
      exact .refl types tile
    rw [if_neg hindex, if_neg hindex]
    by_cases htop : (types x.item.id).alwaysOnTop = true
    · rw [if_pos htop, if_pos htop, Option.bind_some, hx]
      exact .remove { tile with items := tile.items.eraseIdx i } (Tile.things_perm hx) rfl
    rw [if_neg htop, if_neg htop]
    by_cases hpart : (types x.item.id).stackable = true ∧ count ≠ BitVec.ofNat 32 x.item.count.toNat
    · -- the thing stays, with another count
      rw [if_pos hpart, if_pos hpart]
      refine .same (fun k => ?_) fun _ => rfl
      rw [has_of_perm tile (Tile.things_perm hx) k]
      have hput := Tile.things_put hx
        { x with item := x.item.setItemCount (Containers.Heap.newCount x.item.count count) }
      refine (hput.any_eq).trans ?_
      rw [List.any_cons, List.any_cons, isKind_setItemCount]
    · rw [if_neg hpart, if_neg hpart, Option.bind_some, hx]
      exact .remove
        { tile with items := tile.items.eraseIdx i, downItemCount := tile.downItemCount - 1 }
        (Tile.things_perm hx) rfl

theorem onAddTileItem_edit {old : Option TileItem} (h : Edit types tile old none others tile')
    (hthings : tile''.things.Perm (x :: tile'.things)) (hflags : tile''.flags = tile'.flags) :
    Edit types tile old (some x) others (onAddTileItem types tile'' x) := h.trans (.add tile'' hthings hflags)

theorem addThing_edit (tile : FlaggedTile) (x : TileItem) :
    Edit types tile ((tile.leaving types (.addThing x)).bind tile.thingAt) (tile.coming types (.addThing x))
      (tile.without (tile.leaving types (.addThing x))) (tile.addThing types x) := by
  unfold addThing Tile.leaving Tile.coming
  dsimp only
  by_cases hfull : tile.items.length ≥ 0xFFFF
  · rw [if_pos hfull, if_pos hfull, if_pos hfull]
    exact .refl types tile
  rw [if_neg hfull, if_neg hfull, if_neg hfull]
  by_cases hground : (types x.item.id).isGroundTile = true
  · rw [if_pos hground, if_pos hground, if_pos hground]
    cases hold : tile.ground with
    | none =>
      refine onAddTileItem_edit (.refl types tile) ?_ rfl
      change (x :: tile.items).Perm (x :: (tile.ground.toList ++ tile.items))
      rw [hold]
      exact List.Perm.refl _
    | some oldGround =>
      have hthing : tile.thingAt .ground = some oldGround := hold
      rw [Option.map_some, Option.bind_some, hthing]
      exact .exchange { tile with ground := some x } (Tile.things_perm hthing) (List.Perm.refl _) rfl
  rw [if_neg hground, if_neg hground, if_neg hground]
  by_cases htop : (types x.item.id).alwaysOnTop = true
  · rw [if_pos htop, if_pos htop, if_pos htop]
    refine onAddTileItem_edit ?_ (Tile.things_insertTop _ _ _) rfl
    split
    · -- an old splash goes before
      unfold removeOldSplash
      split
      next hi => exact .refl types tile
      next i hi => exact removeThing_edit tile _ 1
    · exact .refl types tile
  rw [if_neg htop, if_neg htop, if_neg htop]
  by_cases hfield : (types x.item.id).isMagicField = true
  · rw [if_pos hfield, if_pos hfield, if_pos hfield]
    unfold addField
    split
    next hi => exact onAddTileItem_edit (.refl types tile) (Tile.things_insertDown _ _) rfl
    next i hi =>
      split
      next hold => exact onAddTileItem_edit (.refl types tile) (Tile.things_insertDown _ _) rfl
      next oldField hold =>
        by_cases hreplaceable : (types oldField.item.id).replaceable = true
        · rw [if_pos hreplaceable, if_pos hreplaceable, if_pos hreplaceable]
          exact onAddTileItem_edit (removeThing_edit tile _ 1) (Tile.things_insertDown _ _) rfl
        · rw [if_neg hreplaceable, if_neg hreplaceable, if_neg hreplaceable]
          exact .refl types tile
  · rw [if_neg hfield, if_neg hfield, if_neg hfield]
    exact onAddTileItem_edit (.refl types tile) (Tile.things_insertDown _ _) rfl

theorem internalAddThing_edit (tile : FlaggedTile) (x : TileItem) :
    Edit types tile none (tile.coming types (.internalAddThing x)) tile.things
      (tile.internalAddThing types x) := by
  unfold internalAddThing Tile.coming
  dsimp only
  by_cases hground : (types x.item.id).isGroundTile = true
  · rw [if_pos hground, if_pos hground]
    by_cases hnone : tile.ground.isNone = true
    · rw [if_pos hnone, if_pos hnone]
      refine .add { tile with ground := some x } ?_ rfl
      change (x :: tile.items).Perm (x :: (tile.ground.toList ++ tile.items))
      rw [Option.isNone_iff_eq_none.mp hnone]
      exact List.Perm.refl _
    · rw [if_neg hnone, if_neg hnone]
      exact .refl types tile
  rw [if_neg hground, if_neg hground]
  -- not a ground: on top, or below
  by_cases hfull : tile.items.length ≥ 0xFFFF
  · rw [if_pos hfull, if_pos hfull]
    exact .refl types tile
  rw [if_neg hfull, if_neg hfull]
  split
  · exact .add _ (Tile.things_insertTop _ _ _) rfl
  · exact .add _ (Tile.things_insertDown _ _) rfl

theorem updateThing_edit (tile : FlaggedTile) (place : Place) (itemId count : UInt16) :
    Edit types tile ((tile.leaving types (.updateThing place itemId count)).bind tile.thingAt)
      (tile.coming types (.updateThing place itemId count))
      (tile.without (tile.leaving types (.updateThing place itemId count)))
      (tile.updateThing types place itemId count) := by
  unfold updateThing Tile.leaving Tile.coming
  dsimp only
  split
  next hindex hx =>
    rw [Option.bind_some, hx]
    -- the flags are reset before the item is changed
    exact .change (Tile.things_perm hx) (Tile.things_put hx _) rfl
  next => exact .refl types tile

theorem replaceThing_edit (tile : FlaggedTile) (index : Nat) (x : TileItem) :
    Edit types tile ((tile.leaving types (.replaceThing index x)).bind tile.thingAt)
      (tile.coming types (.replaceThing index x)) (tile.without (tile.leaving types (.replaceThing index x)))
      (tile.replaceThing types index x) := by
  unfold replaceThing Tile.leaving Tile.coming
  dsimp only
  cases hplace : tile.placeOf index with
  | none => exact .refl types tile
  | some place =>
    dsimp only
    cases hx : tile.thingAt place with
    | none =>
      rw [Option.filter_some, hx]
      exact .refl types tile
    | some oldItem =>
      rw [Option.filter_some, hx, Option.isSome_some, if_pos rfl, Option.bind_some, hx]
      -- the flags are reset after the item is replaced
      exact .exchange _ (Tile.things_perm hx) (Tile.things_put hx x) rfl

theorem setZones_edit (tile : FlaggedTile) (zone : BitVec 32) :
    Edit types tile none none tile.things (tile.setZones zone) := by
  refine .same (fun _ => rfl) fun k => ?_
  change Flags.has (tile.flags ||| (zone &&& TileState.zones)) k.bits = _
  rw [has_or, TileState.has_zones, Bool.or_false]
  rfl

/-- **One call.** -/
theorem step_edit (types : TileItemTypes) (tile : FlaggedTile) (call : TileFlagCall) :
    Edit types tile ((tile.leaving types call).bind tile.thingAt) (tile.coming types call)
      (tile.without (tile.leaving types call)) (tile.step types call) := by
  cases call with
  | addThing x => exact addThing_edit tile x
  | internalAddThing x => exact internalAddThing_edit tile x
  | updateThing place itemId count => exact updateThing_edit tile place itemId count
  | replaceThing index x => exact replaceThing_edit tile index x
  | removeThing place count => exact removeThing_edit tile place count
  | creatures n => exact .same (fun _ => rfl) fun _ => rfl
  | setZones zone => exact setZones_edit tile zone

/-! ### The flags that block -/

/-- A flag is set if some thing is of its kind, and only then. -/
def Exact (types : TileItemTypes) (tile : FlaggedTile) (k : TileState) : Prop :=
  tile.hasFlag k = tile.has types k

theorem exact_iff {k : TileState} :
    Exact types tile k ↔ (tile.hasFlag k = true ↔ ∃ x ∈ tile.things, k.isKind types x = true) := by
  rw [Exact, Bool.eq_iff_iff, has, List.any_eq_true]

theorem empty_exact (types : TileItemTypes) (k : TileState) : Exact types {} k := Flags.has_zero k.bits

theorem Exact.step_of_checked {k : TileState} (h : Exact types tile k) (hchecked : k.checked.isSome = true)
    (hset : k ≠ .IMMOVABLEBLOCKPATH) (call : TileFlagCall) : Exact types (tile.step types call) k := by
  have hedit := step_edit types tile call
  obtain ⟨seen, hseen, hflag⟩ := hedit.flag k
  rw [Exact, hflag, hedit.after, hchecked, decide_eq_true hset, Bool.true_and, Bool.true_and]
  -- the flag is reset if no other thing needs it, and set if the new one does
  exact exchange_exact (h.trans (hedit.before k)) hseen

/-- The five flags that block, each with the property of a thing it is for. -/
def blocking : List (TileState × ItemProperty) :=
  [(.BLOCKSOLID, .BLOCKSOLID), (.BLOCKPATH, .BLOCKPATH), (.NOFIELDBLOCKPATH, .NOFIELDBLOCKPATH),
    (.IMMOVABLEBLOCKSOLID, .IMMOVABLEBLOCKSOLID),
    (.IMMOVABLENOFIELDBLOCKPATH, .IMMOVABLENOFIELDBLOCKPATH)]

/-- Each of them is set precisely if some thing on the tile has the property. -/
def BlockingExact (types : TileItemTypes) (tile : FlaggedTile) : Prop :=
  ∀ p ∈ blocking, tile.hasFlag p.1 = true ↔ ∃ x ∈ tile.things, x.hasProperty types p.2 = true

/-- **The flags that block** are exact after every run of calls. -/
theorem run_blocking (types : TileItemTypes) (calls : List TileFlagCall) :
    BlockingExact types (Runs.run (step types) {} calls) := by
  intro p hp
  have hkind : p.1.checked = some p.2 ∧ p.1 ≠ .IMMOVABLEBLOCKPATH := by
    revert p
    decide
  obtain ⟨hchecked, hset⟩ := hkind
  have hstep : ∀ tile call, Exact types tile p.1 → Exact types (tile.step types call) p.1 :=
    fun _ call h => h.step_of_checked (Option.isSome_of_eq_some hchecked) hset call
  have hexact := Runs.run_invariant_of_forall hstep (empty_exact types p.1) calls
  rw [exact_iff.mp hexact]
  simp only [TileState.isKind_of_checked hchecked]

/-! ### The other flags -/

/-- The flags for the kinds of things that can be on a tile but do not block it for good, and the one flag for
things that block which is never set. -/
def presence : List TileState :=
  [.FLOORCHANGE, .TELEPORT, .MAGICFIELD, .MAILBOX, .TRASHHOLDER, .BED, .DEPOT, .SUPPORTS_HANGABLE,
    .IMMOVABLEBLOCKPATH]

def PresenceExact (types : TileItemTypes) (tile : FlaggedTile) : Prop :=
  ∀ k ∈ presence, tile.hasFlag k = true ↔ ∃ x ∈ tile.things, k.isKind types x = true

/-- With the call comes no thing whose flag is never set, and the thing that leaves is, of each of its kinds
whose flag is cleared without looking, the only one on the tile, unless the thing that comes is of it, too. -/
def CallKeeps (types : TileItemTypes) (tile : FlaggedTile) (call : TileFlagCall) : Prop :=
  (∀ x, tile.coming types call = some x → TileState.IMMOVABLEBLOCKPATH.isKind types x = false) ∧
    ∀ k : TileState, k.checked = none →
      ∀ y, (tile.leaving types call).bind tile.thingAt = some y → k.isKind types y = true →
        (∃ x, tile.coming types call = some x ∧ k.isKind types x = true) ∨
          ∀ z ∈ tile.without (tile.leaving types call), k.isKind types z = false

/-- Exact, and the flag that is never set is not set. -/
structure Present (types : TileItemTypes) (tile : FlaggedTile) : Prop where
  unchecked : ∀ k : TileState, k.checked = none → Exact types tile k
  never : tile.hasFlag .IMMOVABLEBLOCKPATH = false
  none : tile.has types .IMMOVABLEBLOCKPATH = false

theorem mem_presence {k : TileState} : k ∈ presence ↔ k.checked = none ∨ k = .IMMOVABLEBLOCKPATH := by
  cases k <;> decide

theorem Present.exact (h : Present types tile) : PresenceExact types tile := by
  intro k hk
  refine exact_iff.mp ?_
  rcases mem_presence.mp hk with hchecked | rfl
  · exact h.unchecked k hchecked
  · exact h.never.trans h.none.symm

/-- If the flag of a kind is cleared without looking, it is exact after the call precisely if the thing that
leaves was the only one of its kind, or the one that comes is of it. -/
theorem Exact.step_iff {k : TileState} (h : Exact types tile k) (hchecked : k.checked = none)
    (call : TileFlagCall) : Exact types (tile.step types call) k ↔
      ∀ y, (tile.leaving types call).bind tile.thingAt = some y → k.isKind types y = true →
        (∃ x, tile.coming types call = some x ∧ k.isKind types x = true) ∨
          ∀ z ∈ tile.without (tile.leaving types call), k.isKind types z = false := by
  have hedit := step_edit types tile call
  obtain ⟨seen, -, hflag⟩ := hedit.flag k
  have hset : k ≠ .IMMOVABLEBLOCKPATH := by
    rintro rfl
    contradiction
  rw [Exact, hflag, hedit.after, hchecked, decide_eq_true hset, Option.isSome_none, Bool.false_and,
    Bool.not_false, Bool.and_true, Bool.true_and, exchange_unchecked_iff (h.trans (hedit.before k)),
    Option.any_eq_true, Option.any_eq_true, List.any_eq_false]
  simp only [Bool.not_eq_true]
  constructor
  · exact fun hkeeps y hy hkind => hkeeps ⟨y, hy, hkind⟩
  · rintro hkeeps ⟨y, hy, hkind⟩
    exact hkeeps y hy hkind

theorem never_step (h : tile.hasFlag .IMMOVABLEBLOCKPATH = false) (call : TileFlagCall) :
    (tile.step types call).hasFlag .IMMOVABLEBLOCKPATH = false := by
  obtain ⟨seen, -, hflag⟩ := (step_edit types tile call).flag .IMMOVABLEBLOCKPATH
  rw [hflag, h]
  rfl

theorem none_step_iff (h : tile.has types .IMMOVABLEBLOCKPATH = false) (call : TileFlagCall) :
    (tile.step types call).has types .IMMOVABLEBLOCKPATH = false ↔
      ∀ x, tile.coming types call = some x → TileState.IMMOVABLEBLOCKPATH.isKind types x = false := by
  have hedit := step_edit types tile call
  -- none of the things that stay is of the kind
  have hothers := (Bool.or_eq_false_iff.mp ((hedit.before _).symm.trans h)).2
  rw [hedit.after, hothers, Bool.or_false]
  cases tile.coming types call with
  | none =>
    refine iff_of_true rfl fun _ hx => ?_
    cases hx
  | some x => exact ⟨fun hx _ hy => Option.some.inj hy ▸ hx, fun hx => hx x rfl⟩

theorem run_present_iff (types : TileItemTypes) (calls : List TileFlagCall) :
    (∀ pre, pre <+: calls → PresenceExact types (Runs.run (step types) {} pre)) ↔
      Runs.Meets (step types) (CallKeeps types) {} calls := by
  have hobs : ∀ tile, Present types tile → PresenceExact types tile := fun _ h => h.exact
  -- a call that keeps the flags exact, a call that shows, and the empty tile
  refine Runs.forall_prefix_iff_meets_of hobs ?_ ?_ ?_
  · rintro tile call h ⟨hcoming, hleaving⟩
    exact ⟨fun k hk => ((h.unchecked k hk).step_iff hk call).mpr (hleaving k hk), never_step h.never call,
      (none_step_iff h.none call).mpr hcoming⟩
  · intro tile call h hexact
    refine ⟨(none_step_iff h.none call).mp ?_, fun k hk => ((h.unchecked k hk).step_iff hk call).mp ?_⟩
    -- the flag that is never set is exact only if there is no such thing
    · have hflag : Exact types (tile.step types call) .IMMOVABLEBLOCKPATH :=
        exact_iff.mpr (hexact _ (mem_presence.mpr (.inr rfl)))
      exact hflag.symm.trans (never_step h.never call)
    · exact exact_iff.mpr (hexact k (mem_presence.mpr (.inl hk)))
  · exact ⟨fun k _ => empty_exact types k, Flags.has_zero _, rfl⟩

/-- A teleport. -/
def teleportTypes : TileItemTypes := fun id => if id = 1 then { id := 1, type := .TELEPORT } else {}

/-- Two teleports come onto a tile, and one of them is removed. -/
def twoTeleports : List TileFlagCall :=
  [.addThing { item := { id := 1 }, isTeleport := true }, .addThing { item := { id := 1 }, isTeleport := true },
    .removeThing (.item 0) 1]

/-- The other one is still there, but its flag is not. -/
theorem twoTeleports_not_exact : ¬ PresenceExact teleportTypes (Runs.run (step teleportTypes) {} twoTeleports) := by
  intro h
  have hthing : ∃ x ∈ (Runs.run (step teleportTypes) {} twoTeleports).things,
      TileState.TELEPORT.isKind teleportTypes x = true := by
    have hany : ((Runs.run (step teleportTypes) {} twoTeleports).things.any fun x =>
        TileState.TELEPORT.isKind teleportTypes x) = true := by decide
    exact List.any_eq_true.mp hany
  have hflag : (Runs.run (step teleportTypes) {} twoTeleports).hasFlag .TELEPORT = false := by decide
  rw [(h .TELEPORT (by decide)).mpr hthing] at hflag
  contradiction

end FlaggedTile

end Moonlight
