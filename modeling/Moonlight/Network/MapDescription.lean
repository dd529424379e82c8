import Moonlight.Lib.SkipRuns
import Moonlight.Network.NetworkMessage
import Moonlight.Network.TileDescription

/-!
# The description of the map

`ProtocolGame::GetMapDescription` (protocolgame.cpp) describes the tiles in a viewport to a client, on all floors it
can see, floor by floor and column by column. Where there is no tile, nothing is written but a counter, which goes
over from one column and one floor to the next.

What is written is `SkipRuns.encode` of the descriptions of the tiles (`GetMapDescription_bytes`). So a client that
can read each description gets all of them back, cell by cell, if the message has room for the bytes
(`GetMapDescription_decodes`). A message that is full leaves out the rest without a word.

Of the description of a thing, only the first two bytes are modelled: they tell it from a marker.
-/

namespace Moonlight.ProtocolGame

open Maps (Position MAP_MAX_LAYERS)
open NetworkMessage (Write bytesOf Holds)
open SkipRuns (Readable)
open Words

/-- The id that a client knows the items of a type by, and what `AddItem` and `AddCreature` write behind the first
two bytes. -/
structure Appearance where
  clientId : UInt16 → UInt16
  itemDetails : Position → Place → List Write
  creatureDetails : CreatureId → Check → List Write

/-- The set of known creatures, and the orders in which it is going to be iterated. -/
structure KnownCreatures where
  knownCreatureSet : Finset CreatureId
  orders : Nat → HashOrder

namespace KnownCreatures

def check (known : KnownCreatures) (world : World) (id : CreatureId) : Check × KnownCreatures :=
  let (check, knownCreatureSet) := checkCreatureAsKnown world (known.orders 0) known.knownCreatureSet id
  (check, { knownCreatureSet := knownCreatureSet, orders := fun n => known.orders (n + 1) })

end KnownCreatures

/-- `Map::getTile`. -/
abbrev GetTile (types : TileItemTypes) (world : World) : Type :=
  UInt16 → UInt16 → UInt8 → Option (TileView types world.player)

section Writing

variable {types : TileItemTypes} {world : World} (look : Appearance)

/-! ### A tile -/

def AddItem (view : TileView types world.player) (place : Place) : List Write :=
  match view.tile.thingAt place with
  | none => []
  | some item => .add uint16 (look.clientId item.item.id).toNat :: look.itemDetails view.position place

def AddCreature (id : CreatureId) (check : Check) : List Write :=
  .add uint16 (if check.known then 0x62 else 0x61) :: look.creatureDetails id check

def addThing (view : TileView types world.player) (known : KnownCreatures) :
    Described → List Write × KnownCreatures
  | .item place => (AddItem look view place, known)
  | .creature id =>
    let (check, known) := known.check world id
    (AddCreature look id check, known)

/-- What is written for each of the things. -/
def addThings (view : TileView types world.player) (known : KnownCreatures) :
    List Described → List (List Write) × KnownCreatures
  | [] => ([], known)
  | thing :: things =>
    let (writes, known) := addThing look view known thing
    let (rest, known) := addThings view known things
    (writes :: rest, known)

/-! ### The map -/

/-- The counter `skip` of the tiles that are not there, the known creatures, and the writes so far. -/
structure Sender where
  skip : Int := -1
  known : KnownCreatures
  writes : List Write := []

def writeMarker (skip : Int) : List Write := [.addByte (UInt8.ofInt skip), .addByte 0xFF]

def writePending (skip : Int) : List Write := if skip ≥ 0 then writeMarker skip else []

namespace Sender

/-- The body of the loops of `GetFloorDescription`. -/
def describeCell (s : Sender) : Option (TileView types world.player) → Sender
  | some tile =>
    let (things, known) := addThings look tile s.known tile.GetTileDescription
    -- the first tile of all comes without a counter before it
    { skip := 0, known := known,
      writes := s.writes ++ writePending s.skip ++ things.flatten }
  | none =>
    -- the counter is full, and starts anew
    if s.skip = 0xFE then { s with skip := -1, writes := s.writes ++ writeMarker 0xFF }
    else { s with skip := s.skip + 1 }

variable (getTile : GetTile types world)

def GetFloorDescription (x y z width height offset : Int) (s : Sender) : Sender :=
  (List.range width.toNat).foldl (fun s (nx : Nat) =>
    (List.range height.toNat).foldl (fun s (ny : Nat) =>
      s.describeCell look
        (getTile (UInt16.ofInt (x + nx + offset)) (UInt16.ofInt (y + ny + offset)) (UInt8.ofInt z))) s) s

end Sender

/-- A floor of the map. -/
abbrev Layer := Fin MAP_MAX_LAYERS.toNat

/-- The floors from `startz` to `endz`. -/
def floors (z : Layer) : List Nat :=
  -- below the ground two floors up and down, above it all from the ground up
  if z.val > 7 then
    let startz := z.val - 2
    let endz := min (MAP_MAX_LAYERS.toNat - 1) (z.val + 2)
    (List.range (endz + 1 - startz)).map fun n => startz + n
  else (List.range 8).map fun n => 7 - n

variable (getTile : GetTile types world)

/-- All calls that write to the message, and the known creatures then. -/
def GetMapDescription (x y : Int) (z : Layer) (width height : Int) (known : KnownCreatures) :
    List Write × KnownCreatures :=
  let s := (floors z).foldl (fun s (nz : Nat) =>
    Sender.GetFloorDescription look getTile x y nz width height (z.val - nz) s) { known := known }
  (s.writes ++ writePending s.skip, s.known)

/-! ### The cells -/

/-- The cells of the described floors, in the order of the server. -/
def viewport (x y : Int) (z : Layer) (width height : Int) :
    List (Option (TileView types world.player)) :=
  (floors z).flatMap fun (nz : Nat) =>
    (List.range width.toNat).flatMap fun (nx : Nat) =>
      (List.range height.toNat).map fun (ny : Nat) =>
        getTile (UInt16.ofInt (x + nx + (z.val - nz))) (UInt16.ofInt (y + ny + (z.val - nz))) (UInt8.ofInt nz)

/-- What is written for each of the cells: nothing if there is no tile, else the bytes of its things. -/
def descriptions : KnownCreatures → List (Option (TileView types world.player)) → List (Option (List Bytes))
  | _, [] => []
  | known, none :: cells => none :: descriptions known cells
  | known, some tile :: cells =>
    let (things, known) := addThings look tile known tile.GetTileDescription
    some (things.map bytesOf) :: descriptions known cells

/-! ### What is written -/

theorem bytesOf_writePending (skip : Int) :
    bytesOf (writePending skip) = if skip ≥ 0 then SkipRuns.marker (UInt8.ofInt skip) else [] := by
  unfold writePending
  split
  · rfl
  · rfl

theorem foldl_describeCell (cells : List (Option (TileView types world.player))) (s : Sender) :
    bytesOf ((cells.foldl (Sender.describeCell look) s).writes ++
        writePending (cells.foldl (Sender.describeCell look) s).skip) =
      bytesOf s.writes ++ SkipRuns.encode s.skip (descriptions look s.known cells) := by
  induction cells generalizing s with
  | nil => rw [List.foldl_nil, NetworkMessage.bytesOf_append, bytesOf_writePending, descriptions, SkipRuns.encode]
  | cons cell cells ih =>
    rw [List.foldl_cons, ih]
    cases cell with
    | none =>
      rw [descriptions, SkipRuns.encode, SkipRuns.encodeCell, Sender.describeCell]
      -- server and encoder have the same two cases
      by_cases hfull : s.skip = 0xFE
      · rw [if_pos hfull, if_pos hfull, NetworkMessage.bytesOf_append, List.append_assoc]
        rfl
      · rw [if_neg hfull, if_neg hfull]
        rfl
    | some tile =>
      rw [descriptions, SkipRuns.encode, SkipRuns.encodeCell, Sender.describeCell]
      dsimp only
      rw [NetworkMessage.bytesOf_append, NetworkMessage.bytesOf_append, bytesOf_writePending,
        NetworkMessage.bytesOf_flatten, List.append_assoc, List.append_assoc, List.append_assoc]

/-- **What is written.** -/
theorem GetMapDescription_bytes (x y : Int) (z : Layer) (width height : Int) (known : KnownCreatures) :
    bytesOf (GetMapDescription look getTile x y z width height known).1 =
      SkipRuns.encode (-1) (descriptions look known (viewport getTile x y z width height)) := by
  have hloops := foldl_describeCell look (viewport getTile x y z width height) { known := known }
  unfold viewport at hloops ⊢
  -- the three loops are one loop over the cells
  simp only [List.foldl_flatMap, List.foldl_map] at hloops
  exact hloops

/-! ### Descriptions and markers -/

theorem not_marker_add {value : Nat} (h : value < 0xFF00) (writes : List Write) :
    ∃ first second rest, bytesOf (.add uint16 value :: writes) = first :: second :: rest ∧ second ≠ 0xFF := by
  refine ⟨UInt8.ofNat value, UInt8.ofNat (value / 256), bytesOf writes, ?_, ?_⟩
  · have hvalue : ((value : Int) % uint16.card).toNat = value := by
      change ((value : Int) % 65536).toNat = value
      omega
    change PropStream.toBytes 2 ((value : Int) % uint16.card).toNat ++ bytesOf writes = _
    rw [hvalue]
    rfl
  · intro heq
    -- the second byte is the upper half of the id
    have hnat := congrArg UInt8.toNat heq
    rw [UInt8.toNat_ofNat'] at hnat
    change value / 256 % 256 = 255 at hnat
    omega

theorem addThing_not_marker (hclient : ∀ id, look.clientId id < 0xFF00) {view : TileView types world.player}
    {known : KnownCreatures} {thing : Described} (h : thing ∈ view.GetTileDescription) :
    ∃ first second rest,
      bytesOf (addThing look view known thing).1 = first :: second :: rest ∧ second ≠ 0xFF := by
  cases thing with
  | item place =>
    obtain ⟨item, hitem⟩ := Option.isSome_iff_exists.mp (view.thingAt_isSome h)
    have hadd : (addThing look view known (.item place)).1 =
        .add uint16 (look.clientId item.item.id).toNat :: look.itemDetails view.position place := by
      change AddItem look view place = _
      rw [AddItem, hitem]
    -- items have their client id first, creatures 0x61 or 0x62
    rw [hadd]
    exact not_marker_add (UInt16.lt_iff_toNat_lt.mp (hclient item.item.id)) _
  | creature id =>
    change ∃ _ _ _, bytesOf (AddCreature look id (known.check world id).1) = _ ∧ _
    unfold AddCreature
    split
    · exact not_marker_add (show 0x62 < 0xFF00 by decide) _
    · exact not_marker_add (show 0x61 < 0xFF00 by decide) _

theorem addThings_not_marker (hclient : ∀ id, look.clientId id < 0xFF00) {view : TileView types world.player}
    {known : KnownCreatures} {things : List Described} (h : ∀ thing ∈ things, thing ∈ view.GetTileDescription)
    {writes : List Write} (hwrites : writes ∈ (addThings look view known things).1) :
    ∃ first second rest, bytesOf writes = first :: second :: rest ∧ second ≠ 0xFF := by
  induction things generalizing known with
  | nil => exact absurd hwrites List.not_mem_nil
  | cons thing things ih =>
    change writes ∈ (addThing look view known thing).1 :: (addThings look view _ things).1 at hwrites
    obtain rfl | hrest := List.mem_cons.mp hwrites
    · exact addThing_not_marker look hclient (h thing List.mem_cons_self)
    · exact ih (fun thing hthing => h thing (List.mem_cons_of_mem _ hthing)) hrest

theorem descriptions_not_marker (hclient : ∀ id, look.clientId id < 0xFF00) {known : KnownCreatures}
    {cells : List (Option (TileView types world.player))} {things : List Bytes}
    (hthings : some things ∈ descriptions look known cells) {thing : Bytes} (h : thing ∈ things) :
    ∃ first second rest, thing = first :: second :: rest ∧ second ≠ 0xFF := by
  induction cells generalizing known with
  | nil => exact absurd hthings List.not_mem_nil
  | cons cell cells ih =>
    cases cell with
    | none =>
      obtain heq | hrest := List.mem_cons.mp hthings
      · cases heq
      · exact ih hrest
    | some tile =>
      obtain heq | hrest := List.mem_cons.mp hthings
      · cases heq
        obtain ⟨writes, hwrites, rfl⟩ := List.mem_map.mp h
        exact addThings_not_marker look hclient (fun _ => id) hwrites
      · exact ih hrest

/-! ### The codec -/

theorem length_descriptions (known : KnownCreatures) (cells : List (Option (TileView types world.player))) :
    (descriptions look known cells).length = cells.length := by
  induction cells generalizing known with
  | nil => rfl
  | cons cell cells ih =>
    cases cell with
    | none => exact congrArg (· + 1) (ih known)
    | some tile => exact congrArg (· + 1) (ih _)

/-- The number of cells of the described floors. -/
def cellCount (z : Layer) (width height : Int) : Nat := (floors z).length * (width.toNat * height.toNat)

theorem length_viewport (x y : Int) (z : Layer) (width height : Int) :
    (viewport getTile x y z width height).length = cellCount z width height := by
  unfold viewport cellCount
  simp only [List.length_flatMap, List.length_map, List.length_range, List.map_const', List.sum_replicate_nat]

/-- The bytes that a message gets behind its payload are received as the descriptions of so many cells, and none
is left. `read` splits the description of a thing off. -/
def Conveys (msg : NetworkMessage) (payload : Bytes) (read : Bytes → Option (Bytes × Bytes)) (count : Nat)
    (cells : List (Option (List Bytes))) : Prop :=
  ∃ bytes, Holds msg (payload ++ bytes) ∧ SkipRuns.decode read count 0 bytes = (cells.map SkipRuns.received, [])

variable {look getTile}

/-- **The codec of the map.** It asks for a client that can read each description and for room. -/
theorem GetMapDescription_decodes {x y : Int} {z : Layer} {width height : Int} {known : KnownCreatures}
    {read : Bytes → Option (Bytes × Bytes)} {msg : NetworkMessage} {payload : Bytes}
    (hclient : ∀ id, look.clientId id < 0xFF00)
    (hread : ∀ things, some things ∈ descriptions look known (viewport getTile x y z width height) →
      ∀ thing ∈ things, ∀ rest, read (thing ++ rest) = some (thing, rest))
    (hmsg : Holds msg payload)
    (hroom : payload.length +
      (bytesOf (GetMapDescription look getTile x y z width height known).1).length ≤ 24567) :
    Conveys ((GetMapDescription look getTile x y z width height known).1.foldl NetworkMessage.write msg) payload
      read (cellCount z width height) (descriptions look known (viewport getTile x y z width height)) := by
  refine ⟨bytesOf (GetMapDescription look getTile x y z width height known).1, hmsg.writes hroom, ?_⟩
  have hcount : cellCount z width height =
      (descriptions look known (viewport getTile x y z width height)).length := by
    rw [length_descriptions, length_viewport]
  rw [GetMapDescription_bytes, hcount]
  refine SkipRuns.decode_encode fun things hthings thing hthing => ⟨hread things hthings thing hthing, ?_⟩
  exact descriptions_not_marker look hclient hthings hthing

end Writing

/-! ### A map full of coins -/

/-- All items are stackable. -/
def coinTypes : TileItemTypes := fun _ => { stackable := true }

/-- A player in the corner of the map. -/
def lonely : World where
  player := { id := 1, position := ⟨0, 0, 7⟩ }
  creatures := fun _ => none

/-- What is written of a stack: the id and the count. -/
def coinLook : Appearance where
  clientId := fun _ => 100
  itemDetails := fun _ _ => [.addByte 1]
  creatureDetails := fun _ _ => []

/-- Ten stacks lie on the tile. -/
def coins (position : Position) (h : position ≠ lonely.player.position) : TileView coinTypes lonely.player where
  tile := { items := List.replicate 10 { item := { id := 100 } }, downItemCount := 10 }
  position := position
  creatures := []
  ordered := ⟨Nat.le_refl 10, fun _ _ => Bool.noConfusion, fun _ hmem => absurd hmem List.not_mem_nil, .nil⟩
  nodup := List.nodup_nil
  player_mem heq := absurd heq h

def coinMap : GetTile coinTypes lonely := fun x y z =>
  if h : (⟨x, y, z⟩ : Position) ≠ lonely.player.position then some (coins ⟨x, y, z⟩ h) else none

def noneKnown : KnownCreatures := ⟨∅, fun _ => newestFirst 0⟩

def surface : Layer := ⟨7, by decide⟩

/-- A client that reads three bytes for a thing. -/
def readCoin (bytes : Bytes) : Option (Bytes × Bytes) :=
  match bytes with
  | a :: b :: c :: rest => some ([a, b, c], rest)
  | _ => none

theorem addThings_coins {position : Position} (h : position ≠ lonely.player.position) (known : KnownCreatures) :
    addThings coinLook (coins position h) known (coins position h).GetTileDescription =
      (List.replicate 10 [.add uint16 100, .addByte 1], known) := rfl

theorem descriptions_coinMap {cells : List (Option (TileView coinTypes lonely.player))}
    (h : ∀ cell ∈ cells, ∃ position hposition, cell = some (coins position hposition)) :
    descriptions coinLook noneKnown cells = List.replicate cells.length (some (List.replicate 10 [100, 0, 1])) := by
  induction cells with
  | nil => rfl
  | cons cell cells ih =>
    obtain ⟨position, hposition, rfl⟩ := h cell List.mem_cons_self
    have hrest := ih fun cell hcell => h cell (List.mem_cons_of_mem _ hcell)
    rw [descriptions, addThings_coins, List.length_cons, List.replicate_succ]
    dsimp only
    rw [hrest]
    rfl

theorem viewport_coinMap {width height : Int} (hwidth : width ≤ 18)
    {cell : Option (TileView coinTypes lonely.player)} (h : cell ∈ viewport coinMap 100 100 surface width height) :
    ∃ position hposition, cell = some (coins position hposition) := by
  obtain ⟨nz, hnz, hfloor⟩ := List.mem_flatMap.mp h
  obtain ⟨nx, hnx, hcolumn⟩ := List.mem_flatMap.mp hfloor
  obtain ⟨ny, -, rfl⟩ := List.mem_map.mp hcolumn
  have hlayer : nz ≤ 7 := (by decide : ∀ nz ∈ floors surface, nz ≤ 7) nz hnz
  have hlt := List.mem_range.mp hnx
  -- the player stands at x = 0, out of the viewport
  have hx : UInt16.ofInt (100 + nx + (7 - nz)) ≠ 0 := by
    intro heq
    have hnat := congrArg UInt16.toNat heq
    unfold UInt16.ofInt at hnat
    rw [UInt16.toNat_ofNat'] at hnat
    change _ = 0 at hnat
    omega
  have hne : (⟨UInt16.ofInt (100 + nx + (7 - nz)), UInt16.ofInt (100 + ny + (7 - nz)), UInt8.ofInt nz⟩ :
      Position) ≠ lonely.player.position := fun heq => hx (congrArg Position.x heq)
  exact ⟨_, hne, dif_pos hne⟩

theorem descriptions_viewport_coinMap {width height : Int} (hwidth : width ≤ 18) :
    descriptions coinLook noneKnown (viewport coinMap 100 100 surface width height) =
      List.replicate (cellCount surface width height) (some (List.replicate 10 [100, 0, 1])) := by
  rw [descriptions_coinMap fun cell hcell => viewport_coinMap hwidth hcell, length_viewport]

theorem readCoin_coins {width height : Int} (hwidth : width ≤ 18) {things : List Bytes}
    (hthings : some things ∈ descriptions coinLook noneKnown (viewport coinMap 100 100 surface width height))
    {thing : Bytes} (hthing : thing ∈ things) (rest : Bytes) : readCoin (thing ++ rest) = some (thing, rest) := by
  rw [descriptions_viewport_coinMap hwidth] at hthings
  cases List.eq_of_mem_replicate hthings
  rw [List.eq_of_mem_replicate hthing]
  rfl

theorem readCoin_eq_some {bytes thing rest : Bytes} (h : readCoin bytes = some (thing, rest)) :
    bytes = thing ++ rest := by
  unfold readCoin at h
  split at h
  · cases h
    rfl
  · cases h

/-- Eight floors of one cell. -/
theorem coinMap_decodes :
    Conveys ((GetMapDescription coinLook coinMap 100 100 surface 1 1 noneKnown).1.foldl NetworkMessage.write
        { buffer := fun _ => 0 }) [] readCoin (cellCount surface 1 1)
      (descriptions coinLook noneKnown (viewport coinMap 100 100 surface 1 1)) := by
  refine GetMapDescription_decodes (fun _ => show (100 : UInt16) < 0xFF00 by decide)
    (fun things hthings thing hthing => readCoin_coins (by decide) hthings hthing) (Holds.new _) ?_
  -- with the markers
  have hlength : (SkipRuns.encode (-1) (List.replicate 8 (some (List.replicate 10 [100, 0, 1])))).length = 256 := by
    decide +kernel
  have hcount : cellCount surface 1 1 = 8 := rfl
  rw [GetMapDescription_bytes, descriptions_viewport_coinMap (by decide), hcount, hlength]
  decide

/-- The viewport of a client, with 60480 bytes of coins: the client can read them, but they do not all arrive. -/
theorem coinMap_not_conveyed :
    (∀ id, coinLook.clientId id < 0xFF00) ∧
      (∀ things, some things ∈ descriptions coinLook noneKnown (viewport coinMap 100 100 surface 18 14) →
        ∀ thing ∈ things, ∀ rest, readCoin (thing ++ rest) = some (thing, rest)) ∧
      Holds { buffer := fun _ => 0 } [] ∧
      ¬ Conveys ((GetMapDescription coinLook coinMap 100 100 surface 18 14 noneKnown).1.foldl NetworkMessage.write
          { buffer := fun _ => 0 }) [] readCoin (cellCount surface 18 14)
        (descriptions coinLook noneKnown (viewport coinMap 100 100 surface 18 14)) := by
  refine ⟨fun _ => show (100 : UInt16) < 0xFF00 by decide,
    fun things hthings thing hthing => readCoin_coins (by decide) hthings hthing, Holds.new _, ?_⟩
  rintro ⟨bytes, hholds, hdecode⟩
  -- what is read is no longer than the bytes, and these fit the message
  have hle := SkipRuns.length_decode (fun _ _ _ => readCoin_eq_some) (cellCount surface 18 14) 0 bytes
  rw [hdecode, descriptions_viewport_coinMap (by decide), List.map_replicate] at hle
  -- 2016 tiles of ten stacks
  have hcoins : (List.replicate (cellCount surface 18 14)
      (SkipRuns.received (some (List.replicate 10 [100, 0, 1])))).flatten.flatten.length = 60480 := by
    change (List.replicate 2016 (List.replicate 10 [100, 0, 1])).flatten.flatten.length = 60480
    rw [List.flatten_replicate_replicate, List.length_flatten, List.map_replicate, List.sum_replicate_nat]
    rfl
  have hbound := hholds.bound
  rw [List.nil_append] at hbound
  dsimp only at hle
  omega

end Moonlight.ProtocolGame
