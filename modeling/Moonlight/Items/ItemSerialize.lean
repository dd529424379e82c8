import Moonlight.Io.PropStream
import Moonlight.Items.Item

/-!
# Attributes on a stream

`Item::serializeAttr` writes the optional properties of an item as tagged records, and
`Item::unserializeAttr` reads records until a zero byte, handing each to `readAttr` (items/item.cpp).
Containers, depot lockers, teleports, doors and beds override one side or the other; the class of an item
is the one `Item::CreateItem` picks for its id.

Writing and reading are asymmetric by record. A record is written from one getter and read back into one
setter; widths, defaults and the meaning of a sub type come in between. `Field` lists what is written
after the sub type, in the order of the source, and for each field `Field.load` is what reading its record
does to an item. `Item.unserialize_serializeAttr` composes them: reading back what was written is one fold
over the fields, whatever the values are, as long as no custom attribute is blank.
-/

namespace Moonlight

open Words PropStream

/-! ### Tags and classes -/

/-- `AttrTypes_t`, without the prefix `ATTR_`. -/
inductive AttrTypes where
  | TILE_FLAGS
  | ACTION_ID
  | UNIQUE_ID
  | TEXT
  | DESC
  | TELE_DEST
  | ITEM
  | DEPOT_ID
  | RUNE_CHARGES
  | HOUSEDOORID
  | COUNT
  | DURATION
  | DECAYING_STATE
  | WRITTENDATE
  | WRITTENBY
  | SLEEPERGUID
  | SLEEPSTART
  | CHARGES
  | CONTAINER_ITEMS
  | NAME
  | ARTICLE
  | PLURALNAME
  | WEIGHT
  | ATTACK
  | DEFENSE
  | EXTRADEFENSE
  | ARMOR
  | HITCHANCE
  | SHOOTRANGE
  | SPECIAL
  | IMBUEMENT_SLOT
  | OPENCONTAINER
  | CUSTOM_ATTRIBUTES
  | QUICKLOOTCONTAINER
  | IMBUEMENT_TYPE
  deriving DecidableEq, Repr

namespace AttrTypes

def toInt : AttrTypes → Int
  | TILE_FLAGS => 3
  | ACTION_ID => 4
  | UNIQUE_ID => 5
  | TEXT => 6
  | DESC => 7
  | TELE_DEST => 8
  | ITEM => 9
  | DEPOT_ID => 10
  | RUNE_CHARGES => 12
  | HOUSEDOORID => 14
  | COUNT => 15
  | DURATION => 16
  | DECAYING_STATE => 17
  | WRITTENDATE => 18
  | WRITTENBY => 19
  | SLEEPERGUID => 20
  | SLEEPSTART => 21
  | CHARGES => 22
  | CONTAINER_ITEMS => 23
  | NAME => 24
  | ARTICLE => 25
  | PLURALNAME => 26
  | WEIGHT => 27
  | ATTACK => 28
  | DEFENSE => 29
  | EXTRADEFENSE => 30
  | ARMOR => 31
  | HITCHANCE => 32
  | SHOOTRANGE => 33
  | SPECIAL => 34
  | IMBUEMENT_SLOT => 35
  | OPENCONTAINER => 36
  | CUSTOM_ATTRIBUTES => 37
  | QUICKLOOTCONTAINER => 38
  | IMBUEMENT_TYPE => 39

def all : List AttrTypes :=
  [TILE_FLAGS, ACTION_ID, UNIQUE_ID, TEXT, DESC, TELE_DEST, ITEM, DEPOT_ID, RUNE_CHARGES, HOUSEDOORID,
    COUNT, DURATION, DECAYING_STATE, WRITTENDATE, WRITTENBY, SLEEPERGUID, SLEEPSTART, CHARGES,
    CONTAINER_ITEMS, NAME, ARTICLE, PLURALNAME, WEIGHT, ATTACK, DEFENSE, EXTRADEFENSE, ARMOR, HITCHANCE,
    SHOOTRANGE, SPECIAL, IMBUEMENT_SLOT, OPENCONTAINER, CUSTOM_ATTRIBUTES, QUICKLOOTCONTAINER,
    IMBUEMENT_TYPE]

/-- The enumerator with a value, if there is one. -/
def ofInt (n : Int) : Option AttrTypes := all.find? fun attr => attr.toInt == n

/-- The tag of a record. -/
def tag (attr : AttrTypes) : Bytes := write uint8 attr.toInt

theorem ofInt_toInt (attr : AttrTypes) : ofInt attr.toInt = some attr := by
  cases attr <;> rfl

theorem toInt_fits (attr : AttrTypes) : uint8.wrap attr.toInt = attr.toInt ∧ attr.toInt ≠ 0 := by
  cases attr <;> decide

end AttrTypes

/-- The classes that read or write attributes in their own way. Reward chests read as containers do; magic
fields, trash holders and mailboxes as plain items. -/
inductive ItemClass where
  | plain
  | container
  | depotLocker
  | teleport
  | door
  | bed
  deriving DecidableEq, Repr

namespace ItemType

/-- The class `CreateItem` picks. -/
def itemClass (it : ItemType) : ItemClass :=
  if it.type = .DEPOT then .depotLocker
  else if it.type = .REWARDCHEST then .container
  else if it.isContainer then .container
  else if it.type = .TELEPORT then .teleport
  else if it.type = .MAGICFIELD then .plain
  else if it.type = .DOOR then .door
  else if it.type = .TRASHHOLDER then .plain
  else if it.type = .MAILBOX then .plain
  else if it.type = .BED then .bed
  else .plain

/-- The types `CreateItem` has a class of its own for. -/
def hasOwnClass (it : ItemType) : Bool :=
  it.type == .DEPOT || it.type == .REWARDCHEST || it.isContainer || it.type == .TELEPORT ||
    it.type == .MAGICFIELD || it.type == .DOOR || it.type == .TRASHHOLDER || it.type == .MAILBOX ||
    it.type == .BED

/-- The id of a created item: an activated ring or pair of boots is created as the one not activated. -/
def createdId (it : ItemType) (type : UInt16) : UInt16 :=
  if it.hasOwnClass then type
  else if 2210 ≤ it.id ∧ it.id ≤ 2212 then type - 3
  else if it.id = 2215 ∨ it.id = 2216 then type - 2
  else if 2202 ≤ it.id ∧ it.id ≤ 2206 then type - 37
  else if it.id = 2640 then 6132
  else if it.id = 6301 then 6300
  else if it.id = 18408 then 18528
  else type

end ItemType

/-- An item with the fields its class adds. -/
structure Node where
  item : Item
  destPos : UInt16 × UInt16 × UInt8 := (0, 0, 0)
  sleeperGUID : UInt32 := 0
  sleepStart : UInt64 := 0

/-- What the rest of the server answers while attributes are read. -/
structure Env where
  getNameByGuid : UInt32 → Bytes
  addUniqueItem : UInt16 → Bool

def nobodySleeping : Bytes := "Nobody is sleeping there.".toUTF8.data.toList

def isSleeping : Bytes := " is sleeping there.".toUTF8.data.toList

/-- The object `Item::CreateItem` creates for a type that exists; only items without a class of their own
are given the count. -/
def newNode (items : Items) (type : UInt16) (count : UInt16) : Node :=
  let it := items type
  let count := if it.stackable ∧ count = 0 then 1 else count
  let item := Item.new items (it.createdId type) (if it.hasOwnClass then 0 else count)
  match it.itemClass with
  | .bed => { item := item.setStrAttr .DESCRIPTION nobodySleeping }
  | _ => { item := item }

/-- `Item::CreateItem`. -/
def createItem (items : Items) (type : UInt16) (count : UInt16) : Option Node :=
  let it := items type
  if it.group = .DEPRECATED then none
  else if it.id ≠ 0 then some (newNode items type count)
  else none

/-! ### Custom attributes -/

namespace CustomAttribute

def serialize : CustomAttribute → Bytes
  | .blank => write uint8 0
  | .string v => write uint8 1 ++ writeString v
  | .int64 v => write uint8 2 ++ write Words.int64 v
  | .double v => write uint8 3 ++ write uint64 v.toNat
  | .bool v => write uint8 4 ++ write uint8 v.toNat

/-- `CustomAttribute::unserialize`: no position stands for a blank one. -/
def unserialize (s : Bytes) : Option (CustomAttribute × Bytes) :=
  match read uint8 s with
  | none => none
  | some (pos, s) =>
    if pos = 1 then (readString s).map fun r => (.string r.1, r.2)
    else if pos = 2 then (read Words.int64 s).map fun r => (.int64 r.1, r.2)
    else if pos = 3 then (read uint64 s).map fun r => (.double (UInt64.ofInt r.1), r.2)
    else if pos = 4 then (read uint8 s).map fun r => (.bool (r.1 != 0), r.2)
    else none

end CustomAttribute

/-! ### Reading -/

/-- `Attr_ReadValue`, with what was read. The end of the attributes carries `serializationCount`. -/
inductive ReadValue (α : Type) where
  | ATTR_READ_CONTINUE (a : α) (s : Bytes)
  | ATTR_READ_ERROR
  | ATTR_READ_END (a : α) (serializationCount : Nat) (s : Bytes)

open ReadValue

def ReadValue.map {α β : Type} (f : α → β) : ReadValue α → ReadValue β
  | ATTR_READ_CONTINUE a s => ATTR_READ_CONTINUE (f a) s
  | ATTR_READ_ERROR => ATTR_READ_ERROR
  | ATTR_READ_END a n s => ATTR_READ_END (f a) n s

/-- A record that is one word, and what is done with it. -/
def readWord {α : Type} (t : Word) (s : Bytes) (set : Int → α) : ReadValue α :=
  match read t s with
  | none => ATTR_READ_ERROR
  | some (v, s) => ATTR_READ_CONTINUE (set v) s

/-- A record that is one string. -/
def readText {α : Type} (s : Bytes) (set : Bytes → α) : ReadValue α :=
  match readString s with
  | none => ATTR_READ_ERROR
  | some (v, s) => ATTR_READ_CONTINUE (set v) s

/-- A record of another class, which is stepped over. -/
def skipRecord {α : Type} (n : Nat) (s : Bytes) (a : α) : ReadValue α :=
  match skip n s with
  | none => ATTR_READ_ERROR
  | some s => ATTR_READ_CONTINUE a s

namespace Item

variable (items : Items) (env : Env)

def setActionId (item : Item) (n : UInt16) : Item :=
  item.setIntAttr .ACTIONID (if n < 100 then 100 else n.toNat)

def getActionId (item : Item) : UInt16 := UInt16.ofInt (item.getIntAttr .ACTIONID)

def setUniqueId (item : Item) (n : UInt16) : Item :=
  if item.hasAttribute .UNIQUEID then item
  else if env.addUniqueItem n then item.setIntAttr .UNIQUEID n.toNat
  else item

def setDate (item : Item) (n : Int) : Item := item.setIntAttr .DATE (toInt32 n)

def setCustomAttribute (item : Item) (key : Bytes) (value : CustomAttribute) : Item :=
  { item with attributes := some (item.getAttributes.setCustomAttribute key value) }

def getCustomAttributeMap (item : Item) : Option CustomAttributeMap :=
  item.attributes.bind (·.getCustomAttributeMap)

/-- The loop over the entries of `ATTR_CUSTOM_ATTRIBUTES`. -/
def readCustom : (size : Nat) → Item → Bytes → ReadValue Item
  | 0, item, s => ATTR_READ_CONTINUE item s
  | size + 1, item, s =>
    match readString s with
    | none => ATTR_READ_ERROR
    | some (key, s) =>
      match CustomAttribute.unserialize s with
      | none => ATTR_READ_ERROR
      | some (val, s) => readCustom size (item.setCustomAttribute key val) s

/-- `Item::readAttr`. -/
def readAttr (item : Item) (attr : AttrTypes) (s : Bytes) : ReadValue Item :=
  match attr with
  | .COUNT | .RUNE_CHARGES => readWord uint8 s fun v => item.setSubType items (UInt16.ofInt v)
  | .ACTION_ID => readWord uint16 s fun v => item.setActionId (UInt16.ofInt v)
  | .UNIQUE_ID => readWord uint16 s fun v => item.setUniqueId env (UInt16.ofInt v)
  | .TEXT => readText s (item.setStrAttr .TEXT)
  | .WRITTENDATE => readWord uint32 s item.setDate
  | .WRITTENBY => readText s (item.setStrAttr .WRITER)
  | .DESC => readText s (item.setStrAttr .DESCRIPTION)
  -- the sub type again, not the charges
  | .CHARGES => readWord uint16 s fun v => item.setSubType items (UInt16.ofInt v)
  | .DURATION => readWord int32 s item.setDuration
  | .DECAYING_STATE => readWord uint8 s fun v => if v ≠ 0 then item.setDecaying .DECAYING_PENDING else item
  | .NAME => readText s (item.setStrAttr .NAME)
  | .ARTICLE => readText s (item.setStrAttr .ARTICLE)
  | .PLURALNAME => readText s (item.setStrAttr .PLURALNAME)
  | .WEIGHT => readWord uint32 s (item.setIntAttr .WEIGHT)
  | .ATTACK => readWord int32 s (item.setIntAttr .ATTACK)
  | .DEFENSE => readWord int32 s (item.setIntAttr .DEFENSE)
  | .EXTRADEFENSE => readWord int32 s (item.setIntAttr .EXTRADEFENSE)
  | .IMBUEMENT_SLOT => readWord int32 s (item.setIntAttr .IMBUEMENT_SLOT)
  | .OPENCONTAINER => readWord uint8 s (item.setIntAttr .OPENCONTAINER)
  | .ARMOR => readWord int32 s (item.setIntAttr .ARMOR)
  | .HITCHANCE => readWord int8 s (item.setIntAttr .HITCHANCE)
  | .SHOOTRANGE => readWord uint8 s (item.setIntAttr .SHOOTRANGE)
  | .SPECIAL => readText s (item.setStrAttr .SPECIAL)
  | .QUICKLOOTCONTAINER => readWord uint32 s (item.setIntAttr .QUICKLOOTCONTAINER)
  | .DEPOT_ID => skipRecord 2 s item
  | .HOUSEDOORID => skipRecord 1 s item
  | .SLEEPERGUID => skipRecord 4 s item
  | .SLEEPSTART => skipRecord 4 s item
  | .TELE_DEST => skipRecord 5 s item
  | .CONTAINER_ITEMS => ATTR_READ_ERROR
  | .CUSTOM_ATTRIBUTES =>
    match read uint64 s with
    | none => ATTR_READ_ERROR
    | some (size, s) => readCustom size.toNat item s
  | .IMBUEMENT_TYPE => readText s (item.setStrAttr .IMBUEMENT_TYPE)
  | .TILE_FLAGS | .ITEM => ATTR_READ_ERROR

end Item

namespace Node

variable (items : Items) (env : Env)

/-- `readAttr` of the class; all but containers fall back on `Item::readAttr`, depot lockers included. -/
def readAttr (cls : ItemClass) (node : Node) (attr : AttrTypes) (s : Bytes) : ReadValue Node :=
  match cls, attr with
  | .teleport, .TELE_DEST =>
    match read uint16 s with
    | none => ATTR_READ_ERROR
    | some (x, s) =>
      match read uint16 s with
      | none => ATTR_READ_ERROR
      | some (y, s) =>
        readWord uint8 s fun z =>
          { node with destPos := (UInt16.ofInt x, UInt16.ofInt y, UInt8.ofInt z) }
  | .bed, .SLEEPERGUID =>
    readWord uint32 s fun v =>
      let guid := UInt32.ofInt v
      let name := env.getNameByGuid guid
      if guid ≠ 0 ∧ name ≠ [] then
        { node with item := node.item.setStrAttr .DESCRIPTION (name ++ isSleeping), sleeperGUID := guid }
      else node
  | .bed, .SLEEPSTART => readWord uint32 s fun v => { node with sleepStart := UInt64.ofInt v }
  | .door, .HOUSEDOORID => readWord uint8 s fun v => { node with item := node.item.setIntAttr .DOORID v }
  | .container, .CONTAINER_ITEMS =>
    match read uint32 s with
    | none => ATTR_READ_ERROR
    | some (n, s) => ATTR_READ_END node n.toNat s
  | .depotLocker, .DEPOT_ID => readWord uint16 s fun _ => node
  | _, _ => (node.item.readAttr items env attr s).map fun item => { node with item := item }

/-- `Item::unserializeAttr`: records up to a zero byte or the end of the stream, or `ATTR_READ_END`. Every
round reads a byte, so the length of the stream bounds their number. -/
def unserializeAttr (cls : ItemClass) : (rounds : Nat) → Node → Bytes → Option (Node × Nat × Bytes)
  | 0, _, _ => none
  | rounds + 1, node, s =>
    match read uint8 s with
    | none => some (node, 0, s)
    | some (attr_type, s) =>
      if attr_type = 0 then some (node, 0, s)
      else
        match AttrTypes.ofInt attr_type with
        | none => none
        | some attr =>
          match node.readAttr items env cls attr s with
          | ATTR_READ_ERROR => none
          | ATTR_READ_END node n s => some (node, n, s)
          | ATTR_READ_CONTINUE node s => unserializeAttr cls rounds node s

end Node

/-! ### Writing -/

/-- A record, without its tag. -/
inductive Payload where
  | word (t : Word) (v : Int)
  | text (v : Bytes)
  | custom (m : CustomAttributeMap)

namespace Payload

def entry (e : Bytes × CustomAttribute) : Bytes := writeString e.1 ++ e.2.serialize

def bytes : Payload → Bytes
  | .word t v => write t v
  | .text v => writeString v
  | .custom m => write uint64 m.length ++ m.flatMap entry

end Payload

/-- What `Item::serializeAttr` writes after the sub type: a string if it is not empty, a string or a word
if the attribute is present, and the fields with a rule of their own. -/
inductive Field where
  | nonempty (attr : AttrTypes) (type : ItemAttrTypes)
  | text (attr : AttrTypes) (type : ItemAttrTypes)
  | word (attr : AttrTypes) (type : ItemAttrTypes) (t : Word)
  | actionId
  | date
  | duration
  | decayState
  | custom
  deriving DecidableEq

namespace Field

/-- The fields in the order they are written. -/
def all : List Field :=
  [.actionId, .nonempty .TEXT .TEXT, .date, .nonempty .WRITTENBY .WRITER, .nonempty .DESC .DESCRIPTION,
    .duration, .decayState, .text .NAME .NAME, .text .ARTICLE .ARTICLE, .text .PLURALNAME .PLURALNAME,
    .word .WEIGHT .WEIGHT uint32, .word .ATTACK .ATTACK int32, .word .DEFENSE .DEFENSE int32,
    .word .EXTRADEFENSE .EXTRADEFENSE int32, .word .IMBUEMENT_SLOT .IMBUEMENT_SLOT int32,
    .word .OPENCONTAINER .OPENCONTAINER uint8, .word .ARMOR .ARMOR int32, .word .HITCHANCE .HITCHANCE int8,
    .word .SHOOTRANGE .SHOOTRANGE uint8, .text .SPECIAL .SPECIAL, .custom,
    .word .QUICKLOOTCONTAINER .QUICKLOOTCONTAINER uint32, .text .IMBUEMENT_TYPE .IMBUEMENT_TYPE]

def attr : Field → AttrTypes
  | .nonempty attr _ => attr
  | .text attr _ => attr
  | .word attr _ _ => attr
  | .actionId => .ACTION_ID
  | .date => .WRITTENDATE
  | .duration => .DURATION
  | .decayState => .DECAYING_STATE
  | .custom => .CUSTOM_ATTRIBUTES

/-- The attribute a field holds. -/
def type : Field → ItemAttrTypes
  | .nonempty _ type => type
  | .text _ type => type
  | .word _ type _ => type
  | .actionId => .ACTIONID
  | .date => .DATE
  | .duration => .DURATION
  | .decayState => .DECAYSTATE
  | .custom => .CUSTOM

/-- What is written for an item, at time `now`. -/
def payload (items : Items) (now : Int) (item : Item) : Field → Option Payload
  | .nonempty _ type => if item.getStrAttr type ≠ [] then some (.text (item.getStrAttr type)) else none
  | .text _ type => if item.hasAttribute type then some (.text (item.getStrAttr type)) else none
  | .word _ type t => if item.hasAttribute type then some (.word t (item.getIntAttr type)) else none
  | .actionId =>
    if (items item.id).moveable ∧ item.getActionId ≠ 0 then some (.word uint16 item.getActionId.toNat)
    else none
  | .date => if item.getIntAttr .DATE ≠ 0 then some (.word uint32 (item.getIntAttr .DATE)) else none
  | .duration => if item.hasAttribute .DURATION then some (.word int32 (item.getDuration now)) else none
  | .decayState =>
    if item.getDecaying = .DECAYING_TRUE ∨ item.getDecaying = .DECAYING_PENDING then
      some (.word uint8 item.getDecaying.toInt)
    else none
  | .custom => item.getCustomAttributeMap.map .custom

/-- The record of a field, or nothing. -/
def record (items : Items) (now : Int) (item : Item) (f : Field) : Bytes :=
  match f.payload items now item with
  | none => []
  | some p => f.attr.tag ++ p.bytes

end Field

namespace Item

variable (items : Items) (now : Int)

/-- The first two records, both about the sub type. -/
def serializeSubType (item : Item) : Bytes :=
  let it := items item.id
  (if it.stackable || it.isFluidContainer || it.isSplash then
    AttrTypes.COUNT.tag ++ write uint8 (item.getSubType items).toNat else []) ++
  (if item.getCharges ≠ 0 then AttrTypes.CHARGES.tag ++ write uint16 item.getCharges.toNat else [])

/-- `Item::serializeAttr`. -/
def serializeAttr (item : Item) : Bytes :=
  item.serializeSubType items ++ Field.all.flatMap (Field.record items now item)

end Item

/-- `serializeAttr` of the class: a teleport adds its destination, a bed writes only its sleeper, a door
nothing. -/
def Node.serializeAttr (items : Items) (now : Int) (node : Node) : Bytes :=
  match (items node.item.id).itemClass with
  | .teleport =>
    node.item.serializeAttr items now ++ (AttrTypes.TELE_DEST.tag ++ write uint16 node.destPos.1.toNat
      ++ write uint16 node.destPos.2.1.toNat ++ write uint8 node.destPos.2.2.toNat)
  | .door => []
  | .bed =>
    (if node.sleeperGUID ≠ 0 then AttrTypes.SLEEPERGUID.tag ++ write uint32 node.sleeperGUID.toNat else [])
    ++ (if node.sleepStart ≠ 0 then AttrTypes.SLEEPSTART.tag ++ write uint32 node.sleepStart.toNat else [])
  | _ => node.item.serializeAttr items now

/-! ### Reading one record back -/

/-- The values of custom attributes that the setters take and the stream can hold. -/
def CustomAttribute.Sized : CustomAttribute → Prop
  | .string v => v.length ≤ 65535
  | .int64 v => Words.int64.Fits v
  | _ => True

theorem CustomAttribute.unserialize_serialize {v : CustomAttribute} (hv : v.Sized) (hb : v ≠ .blank)
    (rest : Bytes) : unserialize (v.serialize ++ rest) = some (v, rest) := by
  cases v with
  | blank => exact absurd rfl hb
  | string v =>
    have hpos : uint8.wrap 1 = 1 := by decide
    simp only [serialize, unserialize, List.append_assoc, read_write, hpos, if_true,
      readString_writeString hv, Option.map_some]
  | int64 v =>
    have hpos : uint8.wrap 2 = 2 := by decide
    have hval : Words.int64.wrap v = v := (Word.wrap_eq_iff _ _).mpr hv
    simp [serialize, unserialize, read_write, hpos, hval]
  | double v =>
    have hpos : uint8.wrap 3 = 3 := by decide
    simp [serialize, unserialize, read_write, hpos, uint64_wrap, uint64_ofInt]
  | bool v =>
    have hpos : uint8.wrap 4 = 4 := by decide
    have hval : uint8.wrap v.toNat = v.toNat := by cases v <;> decide
    have hback : ((v.toNat : Int) != 0) = v := by cases v <;> decide
    simp only [serialize, unserialize, List.append_assoc, read_write, hpos, hval, hback, Option.map_some]
    rfl

theorem CustomAttribute.unserialize_blank (rest : Bytes) : unserialize (serialize .blank ++ rest) = none := by
  have hpos : uint8.wrap 0 = 0 := by decide
  simp [serialize, unserialize, read_write, hpos]

namespace Item

theorem readCustom_entries {m : CustomAttributeMap} (hm : ∀ e ∈ m, e.1.length ≤ 65535 ∧ e.2.Sized)
    (item : Item) (rest : Bytes) :
    readCustom m.length item (m.flatMap Payload.entry ++ rest) =
      if m.any (fun e => decide (e.2 = .blank)) then ATTR_READ_ERROR
      else ATTR_READ_CONTINUE (m.foldl (fun item e => item.setCustomAttribute e.1 e.2) item) rest := by
  induction m generalizing item with
  | nil => rfl
  | cons e m ih =>
    have he := hm e (List.mem_cons_self ..)
    have hread : readString (((e :: m).flatMap Payload.entry) ++ rest)
        = some (e.1, e.2.serialize ++ (m.flatMap Payload.entry ++ rest)) := by
      rw [List.flatMap_cons, Payload.entry, List.append_assoc, List.append_assoc]
      exact readString_writeString he.1 _
    rw [List.length_cons, readCustom, hread]
    dsimp only
    by_cases hb : e.2 = .blank
    · rw [hb, CustomAttribute.unserialize_blank]
      simp [hb]
    · rw [CustomAttribute.unserialize_serialize he.2 hb]
      dsimp only
      rw [ih fun e' he' => hm e' (List.mem_cons_of_mem _ he'), List.any_cons, decide_eq_false hb,
        Bool.false_or]
      rfl

end Item

namespace Field

/-- What reading a field's record does to an item. -/
def load (f : Field) (p : Payload) (item : Item) : Item :=
  match f, p with
  | .nonempty _ type, .text v => item.setStrAttr type v
  | .text _ type, .text v => item.setStrAttr type v
  | .word _ type t, .word _ v => item.setIntAttr type (t.wrap v)
  | .actionId, .word t v => item.setActionId (UInt16.ofInt (t.wrap v))
  | .date, .word t v => item.setDate (t.wrap v)
  | .duration, .word t v => item.setDuration (t.wrap v)
  | .decayState, .word _ _ => item.setDecaying .DECAYING_PENDING
  | .custom, .custom m => m.foldl (fun item e => item.setCustomAttribute e.1 e.2) item
  | _, _ => item

end Field

/-- What the setters keep of strings: they fit the stream, and keys are in lower case. -/
structure Item.Sized (item : Item) : Prop where
  strings : ∀ type, (item.getStrAttr type).length ≤ 65535
  custom : ∀ m, item.getCustomAttributeMap = some m →
    m.length < 2 ^ 64 ∧ ∀ e ∈ m, e.1.length ≤ 65535 ∧ e.2.Sized ∧ ItemAttributes.toLowerCaseString e.1 = e.1

/-- Some custom attribute has no value. -/
def Item.hasBlank (item : Item) : Bool :=
  (item.getCustomAttributeMap.getD []).any fun e => decide (e.2 = .blank)

section

variable {items : Items} {env : Env} {now : Int} {src : Item}

theorem Field.payload_nonempty {attr : AttrTypes} {type : ItemAttrTypes} {p : Payload}
    (hp : (Field.nonempty attr type).payload items now src = some p) :
    src.getStrAttr type ≠ [] ∧ p = .text (src.getStrAttr type) := by
  simp only [payload] at hp
  split at hp
  next h =>
    cases hp
    exact ⟨h, rfl⟩
  · cases hp

theorem Field.payload_text {attr : AttrTypes} {type : ItemAttrTypes} {p : Payload}
    (hp : (Field.text attr type).payload items now src = some p) :
    src.hasAttribute type = true ∧ p = .text (src.getStrAttr type) := by
  simp only [payload] at hp
  split at hp
  next h =>
    cases hp
    exact ⟨h, rfl⟩
  · cases hp

theorem Field.payload_word {attr : AttrTypes} {type : ItemAttrTypes} {t : Word} {p : Payload}
    (hp : (Field.word attr type t).payload items now src = some p) :
    src.hasAttribute type = true ∧ p = .word t (src.getIntAttr type) := by
  simp only [payload] at hp
  split at hp
  next h =>
    cases hp
    exact ⟨h, rfl⟩
  · cases hp

/-! The rows of the table, by kind. -/

theorem Field.nonempty_row {attr : AttrTypes} {type : ItemAttrTypes} (hf : .nonempty attr type ∈ Field.all) :
    (attr = .TEXT ∧ type = .TEXT) ∨ (attr = .WRITTENBY ∧ type = .WRITER) ∨
      (attr = .DESC ∧ type = .DESCRIPTION) := by
  simpa [Field.all] using hf

theorem Field.text_row {attr : AttrTypes} {type : ItemAttrTypes} (hf : .text attr type ∈ Field.all) :
    (attr = .NAME ∧ type = .NAME) ∨ (attr = .ARTICLE ∧ type = .ARTICLE) ∨
      (attr = .PLURALNAME ∧ type = .PLURALNAME) ∨ (attr = .SPECIAL ∧ type = .SPECIAL) ∨
      (attr = .IMBUEMENT_TYPE ∧ type = .IMBUEMENT_TYPE) := by
  simpa [Field.all] using hf

theorem Field.word_row {attr : AttrTypes} {type : ItemAttrTypes} {t : Word}
    (hf : .word attr type t ∈ Field.all) :
    (attr = .WEIGHT ∧ type = .WEIGHT ∧ t = uint32) ∨ (attr = .ATTACK ∧ type = .ATTACK ∧ t = int32) ∨
      (attr = .DEFENSE ∧ type = .DEFENSE ∧ t = int32) ∨
      (attr = .EXTRADEFENSE ∧ type = .EXTRADEFENSE ∧ t = int32) ∨
      (attr = .IMBUEMENT_SLOT ∧ type = .IMBUEMENT_SLOT ∧ t = int32) ∨
      (attr = .OPENCONTAINER ∧ type = .OPENCONTAINER ∧ t = uint8) ∨
      (attr = .ARMOR ∧ type = .ARMOR ∧ t = int32) ∨ (attr = .HITCHANCE ∧ type = .HITCHANCE ∧ t = int8) ∨
      (attr = .SHOOTRANGE ∧ type = .SHOOTRANGE ∧ t = uint8) ∨
      (attr = .QUICKLOOTCONTAINER ∧ type = .QUICKLOOTCONTAINER ∧ t = uint32) := by
  simpa [Field.all] using hf

theorem Field.readAttr_payload (hs : src.Sized) {f : Field} (hf : f ∈ Field.all) (hne : f ≠ .custom)
    {p : Payload} (hp : f.payload items now src = some p) (item : Item) (rest : Bytes) :
    item.readAttr items env f.attr (p.bytes ++ rest) = ATTR_READ_CONTINUE (f.load p item) rest := by
  have htext : ∀ {α : Type} (type : ItemAttrTypes) (set : Bytes → α),
      readText (writeString (src.getStrAttr type) ++ rest) set
        = ATTR_READ_CONTINUE (set (src.getStrAttr type)) rest := by
    intro α type set
    rw [readText, readString_writeString (hs.strings type)]
  have hword : ∀ {α : Type} (t : Word) (v : Int) (set : Int → α),
      readWord t (write t v ++ rest) set = ATTR_READ_CONTINUE (set (t.wrap v)) rest := by
    intro α t v set
    rw [readWord, read_write]
  cases f with
  | nonempty attr type =>
    obtain ⟨-, rfl⟩ := payload_nonempty hp
    rcases nonempty_row hf with ⟨rfl, rfl⟩ | ⟨rfl, rfl⟩ | ⟨rfl, rfl⟩ <;> exact htext _ _
  | text attr type =>
    obtain ⟨-, rfl⟩ := payload_text hp
    rcases text_row hf with ⟨rfl, rfl⟩ | ⟨rfl, rfl⟩ | ⟨rfl, rfl⟩ | ⟨rfl, rfl⟩ | ⟨rfl, rfl⟩ <;>
      exact htext _ _
  | word attr type t =>
    obtain ⟨-, rfl⟩ := payload_word hp
    rcases word_row hf with ⟨rfl, rfl, rfl⟩ | ⟨rfl, rfl, rfl⟩ | ⟨rfl, rfl, rfl⟩ | ⟨rfl, rfl, rfl⟩ |
      ⟨rfl, rfl, rfl⟩ | ⟨rfl, rfl, rfl⟩ | ⟨rfl, rfl, rfl⟩ | ⟨rfl, rfl, rfl⟩ | ⟨rfl, rfl, rfl⟩ |
      ⟨rfl, rfl, rfl⟩ <;> simp only [Field.attr, Item.readAttr, Payload.bytes, hword, Field.load]
  | actionId =>
    simp only [payload] at hp
    split at hp
    · cases hp
      simp only [Field.attr, Item.readAttr, Payload.bytes, hword, Field.load]
    · cases hp
  | date =>
    simp only [payload] at hp
    split at hp
    · cases hp
      simp only [Field.attr, Item.readAttr, Payload.bytes, hword, Field.load]
    · cases hp
  | duration =>
    simp only [payload] at hp
    split at hp
    · cases hp
      simp only [Field.attr, Item.readAttr, Payload.bytes, hword, Field.load]
    · cases hp
  | decayState =>
    simp only [payload] at hp
    split at hp
    next hstate =>
      cases hp
      -- neither state that is written is the zero byte
      have hnz : uint8.wrap src.getDecaying.toInt ≠ 0 := by
        rcases hstate with h | h <;> rw [h] <;> decide
      simp only [Field.attr, Item.readAttr, Payload.bytes, hword, Field.load]
      rw [if_pos hnz]
    · cases hp
  | custom => exact absurd rfl hne

theorem Field.readAttr_custom (hs : src.Sized) {m : CustomAttributeMap}
    (hm : src.getCustomAttributeMap = some m) (item : Item) (rest : Bytes) :
    item.readAttr items env .CUSTOM_ATTRIBUTES ((Payload.custom m).bytes ++ rest) =
      if src.hasBlank then ATTR_READ_ERROR
      else ATTR_READ_CONTINUE (Field.custom.load (.custom m) item) rest := by
  obtain ⟨hlen, hent⟩ := hs.custom m hm
  have hsize : uint64.wrap m.length = m.length := by
    refine (Word.wrap_eq_iff _ _).mpr ⟨Int.natCast_nonneg _, ?_⟩
    exact Int.ofNat_lt.mpr hlen
  have hblank : src.hasBlank = m.any fun e => decide (e.2 = .blank) := by
    rw [Item.hasBlank, hm]
    rfl
  simp only [Item.readAttr, Payload.bytes, List.append_assoc, read_write, hsize, Int.toNat_natCast]
  rw [Item.readCustom_entries (fun e he => ⟨(hent e he).1, (hent e he).2.1⟩), hblank]
  rfl

end

/-! ### Reading records in sequence -/

namespace Node

variable (items : Items) (env : Env) (cls : ItemClass)

/-- A part of a stream that is read as whole records, with the effect `g`. -/
def Reads (r : Bytes) (g : Node → Node) : Prop :=
  ∀ rounds node rest, (r ++ rest).length < rounds → ∃ rounds', rest.length < rounds' ∧
    unserializeAttr items env cls rounds node (r ++ rest)
      = unserializeAttr items env cls rounds' (g node) rest

/-- A part of a stream that is not accepted. -/
def Fails (r : Bytes) : Prop :=
  ∀ rounds node rest, (r ++ rest).length < rounds →
    unserializeAttr items env cls rounds node (r ++ rest) = none

variable {items env cls}

theorem Reads.nil : Reads items env cls [] id := fun rounds _ _ h => ⟨rounds, h, rfl⟩

theorem Reads.append {r r' : Bytes} {g g' : Node → Node} (h : Reads items env cls r g)
    (h' : Reads items env cls r' g') : Reads items env cls (r ++ r') (fun node => g' (g node)) := by
  intro rounds node rest hlen
  rw [List.append_assoc] at hlen ⊢
  obtain ⟨rounds₁, hlen₁, e₁⟩ := h rounds node (r' ++ rest) hlen
  obtain ⟨rounds₂, hlen₂, e₂⟩ := h' rounds₁ (g node) rest hlen₁
  exact ⟨rounds₂, hlen₂, e₁.trans e₂⟩

theorem Reads.append_fails {r r' : Bytes} {g : Node → Node} (h : Reads items env cls r g)
    (h' : Fails items env cls r') : Fails items env cls (r ++ r') := by
  intro rounds node rest hlen
  rw [List.append_assoc] at hlen ⊢
  obtain ⟨rounds₁, hlen₁, e₁⟩ := h rounds node (r' ++ rest) hlen
  rw [e₁, h' rounds₁ (g node) rest hlen₁]

theorem Fails.append {r : Bytes} (h : Fails items env cls r) (r' : Bytes) :
    Fails items env cls (r ++ r') := by
  intro rounds node rest hlen
  rw [List.append_assoc] at hlen ⊢
  exact h rounds node (r' ++ rest) hlen

theorem unserializeAttr_tag (attr : AttrTypes) (rounds : Nat) (node : Node) (s : Bytes) :
    unserializeAttr items env cls (rounds + 1) node (attr.tag ++ s) =
      match node.readAttr items env cls attr s with
      | ATTR_READ_ERROR => none
      | ATTR_READ_END node n s => some (node, n, s)
      | ATTR_READ_CONTINUE node s => unserializeAttr items env cls rounds node s := by
  obtain ⟨hfits, hne⟩ := attr.toInt_fits
  rw [unserializeAttr, AttrTypes.tag, read_write, hfits]
  simp only [if_neg hne, AttrTypes.ofInt_toInt]

theorem Reads.record {attr : AttrTypes} {body : Bytes} {g : Node → Node}
    (h : ∀ node rest, node.readAttr items env cls attr (body ++ rest) = ATTR_READ_CONTINUE (g node) rest) :
    Reads items env cls (attr.tag ++ body) g := by
  intro rounds node rest hlen
  have htag : attr.tag.length = 1 := length_write _ _
  rw [List.append_assoc] at hlen ⊢
  simp only [List.length_append, htag] at hlen
  obtain ⟨rounds', rfl⟩ : ∃ k, rounds = k + 1 := ⟨rounds - 1, by omega⟩
  refine ⟨rounds', by omega, ?_⟩
  rw [unserializeAttr_tag, h]

theorem Fails.record {attr : AttrTypes} {body : Bytes}
    (h : ∀ (node : Node) rest, node.readAttr items env cls attr (body ++ rest) = ATTR_READ_ERROR) :
    Fails items env cls (attr.tag ++ body) := by
  intro rounds node rest hlen
  rw [List.append_assoc] at hlen ⊢
  obtain ⟨rounds', rfl⟩ : ∃ k, rounds = k + 1 := ⟨rounds - 1, by omega⟩
  rw [unserializeAttr_tag, h]

theorem Reads.ite {c : Prop} [Decidable c] {r : Bytes} {g : Node → Node}
    (h : c → Reads items env cls r g) :
    Reads items env cls (if c then r else []) (fun node => if c then g node else node) := by
  by_cases hc : c
  · simpa only [if_pos hc] using h hc
  · simp only [if_neg hc]
    exact Reads.nil

/-- Effects on the item of a node. -/
def onItem (g : Item → Item) (node : Node) : Node := { node with item := g node.item }

theorem Reads.flatMap {α : Type} {l : List α} {r : α → Bytes} {g : α → Node → Node}
    (h : ∀ a ∈ l, Reads items env cls (r a) (g a)) :
    Reads items env cls (l.flatMap r) (fun node => l.foldl (fun node a => g a node) node) := by
  induction l with
  | nil => exact Reads.nil
  | cons a l ih =>
    rw [List.flatMap_cons]
    exact (h a (List.mem_cons_self ..)).append (ih fun a' ha' => h a' (List.mem_cons_of_mem _ ha'))

theorem readAttr_of_item {attr : AttrTypes} (hattr : attr ∉ [AttrTypes.TELE_DEST, .SLEEPERGUID, .SLEEPSTART,
    .HOUSEDOORID, .CONTAINER_ITEMS, .DEPOT_ID]) (node : Node) (s : Bytes) :
    node.readAttr items env cls attr s
      = (node.item.readAttr items env attr s).map fun item => { node with item := item } := by
  unfold readAttr
  split <;> first | rfl | exact absurd (by decide) hattr

end Node

namespace Item

variable (items : Items) (now : Int)

/-- What reading the sub type records of `src` does to an item. -/
def loadSubType (src item : Item) : Item :=
  let it := items src.id
  let item :=
    if it.stackable || it.isFluidContainer || it.isSplash then
      item.setSubType items (UInt16.ofInt (uint8.wrap (src.getSubType items).toNat))
    else item
  if src.getCharges ≠ 0 then item.setSubType items src.getCharges else item

/-- What reading the record of a field of `src`, if there is one, does to an item. -/
def loadField (src item : Item) (f : Field) : Item :=
  match f.payload items now src with
  | none => item
  | some p => f.load p item

/-- What reading all that `serializeAttr` wrote for `src` does to an item. -/
def loadAttr (src item : Item) : Item :=
  Field.all.foldl (src.loadField items now) (src.loadSubType items item)

end Item

namespace Node

variable {items : Items} {env : Env} {cls : ItemClass} {now : Int} {src : Item}

theorem Reads.serializeSubType : Reads items env cls (src.serializeSubType items)
    (onItem (src.loadSubType items)) := by
  have hcount : Reads items env cls (AttrTypes.COUNT.tag ++ write uint8 (src.getSubType items).toNat)
      (onItem fun item => item.setSubType items (UInt16.ofInt (uint8.wrap (src.getSubType items).toNat))) := by
    refine Reads.record fun node rest => ?_
    rw [readAttr_of_item (by decide)]
    simp only [Item.readAttr, readWord, read_write, ReadValue.map, onItem]
  have hcharges : Reads items env cls (AttrTypes.CHARGES.tag ++ write uint16 src.getCharges.toNat)
      (onItem fun item => item.setSubType items src.getCharges) := by
    refine Reads.record fun node rest => ?_
    rw [readAttr_of_item (by decide)]
    simp only [Item.readAttr, readWord, read_write, ReadValue.map, onItem, uint16_wrap, uint16_ofInt]
  intro rounds node rest hlen
  obtain ⟨rounds', hlen', e⟩ := Reads.append (Reads.ite fun _ => hcount) (Reads.ite fun _ => hcharges)
    rounds node rest hlen
  refine ⟨rounds', hlen', e.trans ?_⟩
  congr 1
  simp only [onItem, Item.loadSubType]
  split <;> split <;> rfl

theorem Field.attr_not_overridden {f : Field} (hf : f ∈ Field.all) :
    f.attr ∉ [AttrTypes.TELE_DEST, .SLEEPERGUID, .SLEEPSTART, .HOUSEDOORID, .CONTAINER_ITEMS, .DEPOT_ID] := by
  revert f
  decide

theorem Reads.field (hs : src.Sized) {f : Field} (hf : f ∈ Field.all)
    (hb : f = .custom → src.hasBlank = false) :
    Reads items env cls (f.record items now src) (onItem fun item => src.loadField items now item f) := by
  unfold Field.record Item.loadField
  cases hp : f.payload items now src with
  | none => exact Reads.nil
  | some p =>
    refine Reads.record fun node rest => ?_
    rw [readAttr_of_item (Field.attr_not_overridden hf)]
    by_cases hc : f = .custom
    · subst hc
      obtain ⟨m, hm, rfl⟩ := Option.map_eq_some_iff.mp hp
      show (Item.readAttr items env node.item .CUSTOM_ATTRIBUTES _).map _ = _
      rw [Field.readAttr_custom hs hm, hb rfl]
      rfl
    · rw [Field.readAttr_payload hs hf hc hp]
      rfl

theorem Fails.custom (hs : src.Sized) (hb : src.hasBlank = true) :
    Fails items env cls (Field.custom.record items now src) := by
  obtain ⟨m, hm⟩ : ∃ m, src.getCustomAttributeMap = some m := by
    cases hm : src.getCustomAttributeMap with
    | none => simp [Item.hasBlank, hm] at hb
    | some m => exact ⟨m, rfl⟩
  have hp : Field.custom.payload items now src = some (.custom m) := by
    simp only [Field.payload, hm, Option.map_some]
  rw [Field.record, hp]
  refine Fails.record fun node rest => ?_
  rw [readAttr_of_item (by decide)]
  show (Item.readAttr items env node.item .CUSTOM_ATTRIBUTES _).map _ = _
  rw [Field.readAttr_custom hs hm, hb]
  rfl

theorem onItem_foldl {α : Type} (l : List α) (g : Item → α → Item) (node : Node) :
    l.foldl (fun node a => onItem (fun item => g item a) node) node
      = onItem (fun item => l.foldl g item) node := by
  induction l generalizing node with
  | nil => rfl
  | cons a l ih => exact ih _

/-- **Reading back, whatever the values are.** -/
theorem Reads.serializeAttr (hs : src.Sized) (hb : src.hasBlank = false) :
    Reads items env cls (src.serializeAttr items now) (onItem (src.loadAttr items now)) := by
  have hfields : Reads items env cls (Field.all.flatMap (Field.record items now src)) _ :=
    Reads.flatMap fun f hf => Reads.field hs hf fun _ => hb
  intro rounds node rest hlen
  obtain ⟨rounds', hlen', e⟩ := Reads.serializeSubType.append hfields rounds node rest hlen
  refine ⟨rounds', hlen', e.trans ?_⟩
  dsimp only
  rw [onItem_foldl]
  rfl

theorem Fails.serializeAttr (hs : src.Sized) (hb : src.hasBlank = true) :
    Fails items env cls (src.serializeAttr items now) := by
  obtain ⟨pre, post, hall, hnot⟩ := List.eq_append_cons_of_mem (show Field.custom ∈ Field.all by decide)
  -- the fields before the custom attributes read well
  have hbefore : ∀ f ∈ pre, Reads items env cls (f.record items now src)
      (onItem fun item => src.loadField items now item f) := by
    intro f hf
    have hmem : f ∈ Field.all := by
      rw [hall]
      exact List.mem_append_left _ hf
    exact Reads.field hs hmem fun hc => absurd (hc ▸ hf) hnot
  have hrest : Fails items env cls ((Field.custom :: post).flatMap (Field.record items now src)) := by
    rw [List.flatMap_cons]
    exact (Fails.custom hs hb).append _
  rw [Item.serializeAttr, hall, List.flatMap_append]
  exact Reads.serializeSubType.append_fails ((Reads.flatMap hbefore).append_fails hrest)

end Node

end Moonlight
