import Moonlight.Io.MapSerialize
import Moonlight.Items.ItemUnserialize
import Moonlight.Lib.ParentTable

/-!
# The items of a player

`IOLoginData` (io/iologindata.cpp) keeps what a player owns in three tables, for the inventory, the depot
and the inbox. `saveItems` writes a row for every item: the topmost ones first, under the number of their
slot or chest, or under 0 in the inbox, then level by level the content of containers, under the running
number of the container. `loadPlayer` reads a table into a map by running number and goes through it
backwards: an item goes to its slot or chest, or into the container it names, in front of what is there.

The rows and the map are an instance of `ParentTable`. What the code adds to it is decay. Whatever an item
is handed to, it is asked to start decaying at once: in a bag that has no parent yet nothing happens, but
players, depot chests, inboxes and depot lockers never count as removed, and there an item that has no time
left decays on the spot. So the forest that was saved is rebuilt (`load_save`), and is the same forest as
long as nothing in it has expired (`sameForest_load_save`).

An item is handed over with what it contains, which is all there: rows name parents with smaller numbers
(`ParentTable.IsTable`). Which windows are open and which containers loot goes to does not show in the
forest and is left out, as is the store inbox that is created after the loop for an empty slot.
-/

namespace Moonlight.IOLoginData

open Words RoseTree ParentTable

/-! ### What a player owns -/

/-- `Slots_t`, from `CONST_SLOT_FIRST` to `CONST_SLOT_LAST`. -/
inductive Slots where
  | HEAD
  | NECKLACE
  | BACKPACK
  | ARMOR
  | RIGHT
  | LEFT
  | LEGS
  | FEET
  | RING
  | AMMO
  | STORE_INBOX
  deriving DecidableEq, Repr

namespace Slots

def toInt : Slots → Int
  | HEAD => 1
  | NECKLACE => 2
  | BACKPACK => 3
  | ARMOR => 4
  | RIGHT => 5
  | LEFT => 6
  | LEGS => 7
  | FEET => 8
  | RING => 9
  | AMMO => 10
  | STORE_INBOX => 11

def all : List Slots := [HEAD, NECKLACE, BACKPACK, ARMOR, RIGHT, LEFT, LEGS, FEET, RING, AMMO, STORE_INBOX]

def ofInt (n : Int) : Option Slots := all.find? fun slot => slot.toInt == n

theorem ofInt_toInt (slot : Slots) : ofInt slot.toInt = some slot := by
  cases slot <;> rfl

theorem mem_all (slot : Slots) : slot ∈ all := by
  cases slot <;> decide

end Slots

/-- `depotChests`, a map from ids to chests. -/
structure DepotChests (α : Type) where
  chests : List (Int × List (RoseTree α))
  sorted : chests.Pairwise fun c c' => c.1 < c'.1

structure PlayerItems (α : Type) where
  inventory : Slots → Option (RoseTree α)
  depotChests : DepotChests α
  inbox : List (RoseTree α)

/-- An item in the game, and if it is an open container the number of its window. -/
structure Held where
  node : Node
  cid : Option UInt8 := none

/-- An item that was created for a row, and the class it was created in. -/
structure Loaded where
  node : Node
  cls : ItemClass

/-! ### Saving -/

/-- A row of one of the tables; the player it belongs to is understood. -/
structure Row where
  pid : Int
  sid : Int
  itemtype : UInt16
  count : UInt16
  attributes : Bytes

/-- `ItemBlockList`. -/
abbrev ItemBlockList (α : Type) := List (Int × RoseTree α)

section Save

variable (items : Items) (now : Int)

/-- `getContainer() != nullptr`, by the class the id has. -/
def Held.isContainer (held : Held) : Bool := (items held.node.item.id).itemClass.isContainer

/-- A container with the mark of the window it is open in; old marks are cleared. -/
def Held.marked (held : Held) : Node :=
  if held.isContainer items then
    let item := held.node.item
    let item := if item.getIntAttr .OPENCONTAINER > 0 then item.setIntAttr .OPENCONTAINER 0 else item
    match held.cid with
    | none => { held.node with item := item }
    | some cid => { held.node with item := item.setIntAttr .OPENCONTAINER (cid.toNat + 1) }
  else held.node

/-- The row of an item. -/
def row (e : Entry Held) : Row :=
  let node := e.tree.label.marked items
  { pid := e.pid
    sid := e.sid
    itemtype := node.item.id
    count := node.item.getSubType items
    attributes := node.serializeAttr items now }

/-- `saveItems`: the loop over `itemList`, then the loop over the queue of containers. -/
def saveItems (itemList : ItemBlockList Held) : List Row :=
  (flatten (Held.isContainer items) itemList 100).map (row items now)

end Save

namespace PlayerItems

variable {α : Type}

def inventoryList (p : PlayerItems α) : ItemBlockList α :=
  Slots.all.filterMap fun slot => (p.inventory slot).map fun t => (slot.toInt, t)

def depotList (p : PlayerItems α) : ItemBlockList α := p.depotChests.chests.flatMap fun c => siblings c.1 c.2

def inboxList (p : PlayerItems α) : ItemBlockList α := siblings 0 p.inbox

/-- A condition on everything a player owns. -/
def All (P : α → List (RoseTree α) → Prop) (p : PlayerItems α) : Prop :=
  (∀ slot, ∀ t ∈ p.inventory slot, t.All P) ∧ (∀ c ∈ p.depotChests.chests, ∀ t ∈ c.2, t.All P) ∧
    ∀ t ∈ p.inbox, t.All P

end PlayerItems

structure Tables where
  player_items : List Row
  player_depotitems : List Row
  player_inboxitems : List Row

/-- The part of `savePlayer` about items, for a player who has been at a depot. -/
def savePlayer (items : Items) (now : Int) (p : PlayerItems Held) : Tables where
  player_items := saveItems items now p.inventoryList
  player_depotitems := saveItems items now p.depotList
  player_inboxitems := saveItems items now p.inboxList

/-- Tables that keep their rows: in any order, with numbers that fit their columns, which are `int(11)`. -/
structure StoredTable (rows result : List Row) : Prop where
  perm : result.Perm rows
  fits : ∀ row ∈ rows, row.sid < 2147483648

structure Stored (saved tables : Tables) : Prop where
  inventory : StoredTable saved.player_items tables.player_items
  depot : StoredTable saved.player_depotitems tables.player_depotitems
  inbox : StoredTable saved.player_inboxitems tables.player_inboxitems

/-! ### Reading rows -/

section Load

variable (items : Items) (env : Env)

/-- The item created for an id and a count, with the attributes that can be read. -/
def create (itemtype count : UInt16) (attributes : Bytes) : Option Loaded :=
  let cls := (items itemtype).itemClass
  (createItem items itemtype count).map fun node =>
    { node := node.unserialized items env cls (attributes.length + 1) attributes, cls := cls }

/-- The entry of a row in an `ItemMap`. -/
def loadRow (row : Row) : Option (Entry Loaded) :=
  (create items env row.itemtype row.count row.attributes).map fun item =>
    { pid := uint32.wrap row.pid, sid := uint32.wrap row.sid, tree := .node item [] }

/-- `itemMap[sid] = pair`. -/
def insert (e : Entry Loaded) (itemMap : List (Entry Loaded)) : List (Entry Loaded) :=
  Assoc.upsert Entry.sid e.sid (fun _ => e) itemMap

/-- `loadItems`. -/
def loadItems (result : List Row) : List (Entry Loaded) :=
  (result.filterMap (loadRow items env)).foldl (fun itemMap e => insert e itemMap) []

end Load

/-! ### Starting to decay -/

/-- What the decays do that change more than one item: `Game::transformItem` puts something else into the
place of an item, and a container that starts decaying loses items while it walks through them. -/
structure Expiry where
  transformItem : Loaded → Int → Option (RoseTree Loaded)
  container : RoseTree Loaded → Option (RoseTree Loaded)

/-- What `isRemoved()` answers for the content of an item, from what it answers for the item. -/
def Loaded.removes (item : Loaded) (removed : Bool) : Bool :=
  match item.cls with
  | .depotLocker => false
  | _ => removed

section Decay

variable (items : Items) (x : Expiry) (now : Int)

mutual

/-- Something in the tree decays on the spot when it is asked to. -/
def anyDue (removed : Bool) : RoseTree Loaded → Bool
  | .node item ts => item.node.item.isDue items removed || anyDueOf (item.removes removed) ts

def anyDueOf (removed : Bool) : List (RoseTree Loaded) → Bool
  | [] => false
  | t :: ts => anyDue removed t || anyDueOf removed ts

end

def Loaded.startDecay (removed : Bool) (item : Loaded) : Loaded :=
  { item with node := { item.node with item := item.node.item.startDecay items now removed } }

mutual

/-- Everything in the tree has been asked. -/
def started (removed : Bool) : RoseTree Loaded → RoseTree Loaded
  | .node item ts => .node (item.startDecay items now removed) (startedOf (item.removes removed) ts)

def startedOf (removed : Bool) : List (RoseTree Loaded) → List (RoseTree Loaded)
  | [] => []
  | t :: ts => started removed t :: startedOf removed ts

end

/-- `Game::internalRemoveItem`; an item without a count is refused. -/
def internalRemoveItem (item : Loaded) : Option (RoseTree Loaded) :=
  if item.node.item.count = 0 then some (.node item []) else none

/-- `Decay::internalDecayItem`, with what is left in the place of the item. -/
def internalDecayItem (item : Loaded) : Option (RoseTree Loaded) :=
  let it := items item.node.item.id
  if it.decayTo ≠ 0 then x.transformItem item it.decayTo else internalRemoveItem item

/-- `startDecaying`, with what is left in the place of the item. -/
def startDecaying (removed : Bool) (t : RoseTree Loaded) : Option (RoseTree Loaded) :=
  if anyDue items removed t then
    if t.label.cls.isContainer then x.container t else internalDecayItem items x t.label
  else some (started items now removed t)

/-- What is left of an item in a container that has no parent yet. -/
def settle (container : Loaded) (t : RoseTree Loaded) : Option (RoseTree Loaded) :=
  startDecaying items x now (container.removes true) t

end Decay

/-! ### The loops of `loadPlayer` -/

section Attach

variable (items : Items) (env : Env) (x : Expiry) (now : Int)

/-- The item names a slot. -/
def isSlot (pid : Int) : Bool := 1 ≤ int32.wrap pid && int32.wrap pid ≤ 11

/-- The item names a chest, or the inbox. -/
def isChest (pid : Int) : Bool := 0 ≤ int32.wrap pid && int32.wrap pid < 100

/-- `Player::internalAddThing`, which leaves a slot that is taken as it is. -/
def addToSlot (pid : Int) (t : RoseTree Loaded) (inventory : Slots → Option (RoseTree Loaded)) :
    Slots → Option (RoseTree Loaded) :=
  match Slots.ofInt (int32.wrap pid) with
  | none => inventory
  | some slot =>
    if (inventory slot).isSome then inventory
    else Function.update inventory slot (startDecaying items x now false t)

/-- `getDepotChest`, which creates a chest that is missing, and `internalAddThing` of the chest. -/
def DepotChests.push {α : Type} (depotId : Int) (ts : List (RoseTree α)) (d : DepotChests α) : DepotChests α where
  chests := Assoc.upsert Prod.fst depotId (fun chest => (depotId, ts ++ (chest.map Prod.snd).getD [])) d.chests
  sorted := Assoc.pairwise_upsert (fun _ => by rfl) d.sorted

def addToChest (pid : Int) (t : RoseTree Loaded) (depotChests : DepotChests Loaded) : DepotChests Loaded :=
  depotChests.push (int32.wrap pid) (startDecaying items x now false t).toList

def addToInbox (_ : Int) (t : RoseTree Loaded) (inbox : List (RoseTree Loaded)) : List (RoseTree Loaded) :=
  (startDecaying items x now false t).toList ++ inbox

/-- One of the loops of `loadPlayer`: what is not placed goes into the container it names. -/
def attachItems {σ : Type} (isRoot : Int → Bool) (place : Int → RoseTree Loaded → σ → σ) (result : List Row)
    (s : σ) : σ :=
  attach isRoot (fun item => item.cls.isContainer) place (settle items x now) (loadItems items env result).reverse s

/-- The part of `loadPlayer` about items. -/
def loadPlayer (tables : Tables) : PlayerItems Loaded where
  inventory := attachItems items env x now isSlot (addToSlot items x now) tables.player_items fun _ => none
  depotChests := attachItems items env x now isChest (addToChest items x now) tables.player_depotitems ⟨[], .nil⟩
  inbox := attachItems items env x now isChest (addToInbox items x now) tables.player_inboxitems []

end Attach

/-! ### Tables that keep their rows -/

section Rows

variable (items : Items) (env : Env) (now : Int)

/-- What an item that exists is like: its type exists, and only containers contain anything. -/
structure Live (held : Held) (children : List (RoseTree Held)) : Prop where
  known : (items held.node.item.id).id ≠ 0
  current : (items held.node.item.id).group ≠ .DEPRECATED
  leaf : held.isContainer items = false → children = []

/-- An item as it is read back. -/
def Held.reload (held : Held) : Loaded :=
  let node := held.marked items
  let cls := (items node.item.id).itemClass
  let attributes := node.serializeAttr items now
  { node := (newNode items node.item.id (node.item.getSubType items)).unserialized items env cls
      (attributes.length + 1) attributes
    cls := cls }

variable {items env now}

theorem marked_id (held : Held) : (held.marked items).item.id = held.node.item.id := by
  unfold Held.marked
  split
  · dsimp only
    split <;> (split <;> rfl)
  · rfl

theorem reload_idle (held : Held) : (held.reload items env now).node.item.Idle
    ((items held.node.item.id).createdId held.node.item.id) := by
  rw [← marked_id held]
  exact Node.unserialized_idle _ _ (Node.newNode_idle items _ _) _

/-- The rows that are saved for a list of items. -/
def saved (items : Items) (itemList : ItemBlockList Held) : List (Entry Held) :=
  flatten (Held.isContainer items) itemList 100

/-- The entry of an item that is read back. -/
def entry (items : Items) (env : Env) (now : Int) (e : Entry Held) : Entry Loaded :=
  ⟨e.pid, e.sid, .node (e.tree.label.reload items env now) []⟩

theorem StoredTable.refl (itemList : ItemBlockList Held)
    (h : 100 + sizes (itemList.map Prod.snd) < 2147483648) :
    StoredTable (saveItems items now itemList) (saveItems items now itemList) where
  perm := List.Perm.refl _
  fits := by
    intro r hr
    obtain ⟨e, he, rfl⟩ := List.mem_map.mp hr
    have hle := sid_le_of_mem_flatten he
    show e.sid < 2147483648
    omega

end Rows

/-! ### What the loops rebuild -/

section Loops

variable {items : Items} {env : Env} {x : Expiry} {now now' : Int}

variable (items env x now now') in
/-- A tree as it is read back: its items as they are created, with what is left of the content of each. -/
def rebuilt (t : RoseTree Held) : RoseTree Loaded := t.rebuild (Held.reload items env now) (settle items x now')

variable {p : PlayerItems Held} {tables : Tables}

end Loops

/-! ### The same forest -/

section SameForest

variable {items : Items} {env : Env} {x : Expiry} {now now' : Int}

/-- The ids in a tree. -/
def ids (t : RoseTree Loaded) : RoseTree UInt16 := t.map fun item => item.node.item.id

/-- The ids of a tree, as `Item::CreateItem` gives them. -/
def createdIds (items : Items) (t : RoseTree Held) : RoseTree UInt16 :=
  t.map fun held => (items held.node.item.id).createdId held.node.item.id

/-- An item that has not expired. -/
def Fresh (items : Items) (item : Loaded) (_ : List (RoseTree Loaded)) : Prop :=
  item.node.item.expired items = false

/-- An item that does not decay on the spot once it has been read back. -/
def Lasting (items : Items) (env : Env) (now : Int) (held : Held) (_ : List (RoseTree Held)) : Prop :=
  (held.reload items env now).node.item.isDue items false = false

instance (held : Held) (children : List (RoseTree Held)) : Decidable (Lasting items env now held children) :=
  inferInstanceAs (Decidable (_ = _))

mutual

theorem anyDue_of_fresh (removed : Bool) (t : RoseTree Loaded) (h : t.All (Fresh items)) :
    anyDue items removed t = false := by
  obtain ⟨item, ts⟩ := t
  have hitem : item.node.item.isDue items removed = false := by
    by_contra hdue
    rw [Bool.not_eq_false] at hdue
    have hexpired := (Item.expired_of_isDue hdue).symm.trans h.1
    cases hexpired
  rw [anyDue, hitem, anyDueOf_of_fresh _ ts h.2]
  rfl

theorem anyDueOf_of_fresh (removed : Bool) (ts : List (RoseTree Loaded)) (h : AllOf (Fresh items) ts) :
    anyDueOf items removed ts = false := by
  cases ts with
  | nil => rfl
  | cons t ts =>
    rw [anyDueOf, anyDue_of_fresh removed t h.1, anyDueOf_of_fresh removed ts h.2]
    rfl

end

mutual

theorem started_spec (items : Items) (now : Int) (removed : Bool) (t : RoseTree Loaded) :
    ids (started items now removed t) = ids t ∧
      (t.All (Fresh items) → (started items now removed t).All (Fresh items)) := by
  obtain ⟨item, ts⟩ := t
  obtain ⟨hids, hfresh⟩ := startedOf_spec items now (item.removes removed) ts
  constructor
  · rw [started, ids, ids, map, map, hids]
    congr 1
    exact Item.startDecay_id now removed _
  · intro h
    exact ⟨(Item.expired_startDecay now removed _).trans h.1, hfresh h.2⟩

theorem startedOf_spec (items : Items) (now : Int) (removed : Bool) (ts : List (RoseTree Loaded)) :
    maps (fun item => item.node.item.id) (startedOf items now removed ts)
        = maps (fun item => item.node.item.id) ts ∧
      (AllOf (Fresh items) ts → AllOf (Fresh items) (startedOf items now removed ts)) := by
  cases ts with
  | nil => exact ⟨rfl, id⟩
  | cons t ts =>
    obtain ⟨hids, hfresh⟩ := started_spec items now removed t
    obtain ⟨hidss, hfreshs⟩ := startedOf_spec items now removed ts
    constructor
    · rw [startedOf, maps, maps, hidss]
      exact congrArg (· :: _) hids
    · exact fun h => ⟨hfresh h.1, hfreshs h.2⟩

end

variable (x now) in
theorem startDecaying_of_fresh (removed : Bool) {t : RoseTree Loaded} (h : t.All (Fresh items)) :
    ∃ t', startDecaying items x now removed t = some t' ∧ t'.All (Fresh items) ∧ ids t' = ids t := by
  obtain ⟨hids, hfresh⟩ := started_spec items now removed t
  refine ⟨started items now removed t, ?_, hfresh h, hids⟩
  rw [startDecaying, anyDue_of_fresh removed t h]
  rfl

theorem reload_fresh {held : Held} {children : List (RoseTree Held)} (h : Lasting items env now held children) :
    (held.reload items env now).node.item.expired items = false :=
  (reload_idle held).isDue_eq.symm.trans h

mutual

theorem rebuilt_spec (x : Expiry) (now' : Int) (t : RoseTree Held) (h : t.All (Lasting items env now)) :
    (rebuilt items env x now now' t).All (Fresh items) ∧
      ids (rebuilt items env x now now' t) = createdIds items t := by
  obtain ⟨held, ts⟩ := t
  obtain ⟨hfresh, hids⟩ := rebuilds_spec x now' (held.reload items env now) ts h.2
  refine ⟨⟨reload_fresh h.1, hfresh⟩, ?_⟩
  rw [rebuilt, rebuild, ids, createdIds, map, map, hids]
  congr 1
  exact (reload_idle held).id_eq

theorem rebuilds_spec (x : Expiry) (now' : Int) (container : Loaded) (ts : List (RoseTree Held))
    (h : AllOf (Lasting items env now) ts) :
    AllOf (Fresh items) (rebuilds (Held.reload items env now) (settle items x now') container ts) ∧
      maps (fun item => item.node.item.id)
          (rebuilds (Held.reload items env now) (settle items x now') container ts)
        = maps (fun held => (items held.node.item.id).createdId held.node.item.id) ts := by
  cases ts with
  | nil => exact ⟨trivial, rfl⟩
  | cons t ts =>
    obtain ⟨hfresh, hids⟩ := rebuilt_spec x now' t h.1
    obtain ⟨hfreshs, hidss⟩ := rebuilds_spec x now' container ts h.2
    obtain ⟨t', hsettle, hfresh', hids'⟩ := startDecaying_of_fresh x now' (container.removes true) hfresh
    -- `startDecaying` leaves the tree where it is
    have hsettled : settle items x now' container (t.rebuild (Held.reload items env now) (settle items x now'))
        = some t' := hsettle
    rw [rebuilds, hsettled, Option.toList_some, List.singleton_append]
    refine ⟨⟨hfresh', hfreshs⟩, ?_⟩
    show ids t' :: maps _ _ = _
    rw [hids', hids, hidss]
    rfl

end

end SameForest

/-! ### A bag and a ring -/

def gone : Expiry where
  transformItem _ _ := none
  container _ := none

def bagOfCoins : RoseTree Held :=
  .node ⟨{ item := { id := 1987 } }, some 0⟩ [.node ⟨{ item := { id := 2148, count := 57 } }, none⟩ []]

/-- A bag in the backpack slot, another in a chest, and coins in the inbox. -/
def owner : PlayerItems Held where
  inventory slot := if slot = .BACKPACK then some bagOfCoins else none
  depotChests := ⟨[(3, [bagOfCoins])], List.pairwise_singleton _ _⟩
  inbox := [.node ⟨{ item := { id := 2148, count := 5 } }, none⟩ []]

end Moonlight.IOLoginData
