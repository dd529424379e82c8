import Moonlight.Items.ItemAttributes
import Moonlight.Lib.Words

/-!
# Items

An `Item` (items/item.h) is an id into the table of item types, a count and an optional attribute
store. Its setters go through the store, so their effect depends on the class of the attribute they
name: `setDurationTimestamp` writes a type that belongs to no class and therefore does nothing
(`setDurationTimestamp_eq`), and every read of that attribute gives 0 (`getIntAttr_timestamp`).

Machine integers appear as `Int` or `Nat` with the conversions of the source written out.
-/

namespace Moonlight

/-- `ItemGroup_t`. -/
inductive ItemGroup where
  | NONE
  | GROUND
  | CONTAINER
  | WEAPON
  | AMMUNITION
  | ARMOR
  | CHARGES
  | TELEPORT
  | MAGICFIELD
  | WRITEABLE
  | KEY
  | SPLASH
  | FLUID
  | DOOR
  | DEPRECATED
  deriving DecidableEq, Repr

/-- `ItemTypes_t`, as far as the class of a created item or a cylinder depends on it. -/
inductive ItemTypes where
  | NONE
  | DEPOT
  | MAILBOX
  | TRASHHOLDER
  | CONTAINER
  | DOOR
  | MAGICFIELD
  | TELEPORT
  | BED
  | KEY
  | RUNE
  | REWARDCHEST
  | CARPET
  | other (n : Nat)
  deriving DecidableEq, Repr

/-- The fields of `ItemType` that the modelled functions read, with the defaults of the source. -/
structure ItemType where
  group : ItemGroup := .NONE
  type : ItemTypes := .NONE
  id : UInt16 := 0
  stackable : Bool := false
  decayTime : Nat := 0
  charges : Nat := 0
  decayTo : Int := -1
  wareId : UInt16 := 0
  moveable : Bool := false
  stopTime : Bool := false
  deriving Repr

namespace ItemType

def isContainer (it : ItemType) : Bool := it.group == .CONTAINER

def isSplash (it : ItemType) : Bool := it.group == .SPLASH

def isFluidContainer (it : ItemType) : Bool := it.group == .FLUID

def hasSubType (it : ItemType) : Bool :=
  it.isFluidContainer || it.isSplash || it.stackable || it.charges != 0

end ItemType

/-- `Item::items`. -/
abbrev Items := UInt16 → ItemType

/-- `ItemDecayState_t`; the attribute holding it may be any byte. -/
inductive ItemDecayState where
  | DECAYING_FALSE
  | DECAYING_TRUE
  | DECAYING_PENDING
  | DECAYING_STOPPING
  | unnamed (n : Int)
  deriving DecidableEq, Repr

namespace ItemDecayState

def toInt : ItemDecayState → Int
  | DECAYING_FALSE => 0
  | DECAYING_TRUE => 1
  | DECAYING_PENDING => 2
  | DECAYING_STOPPING => 3
  | unnamed n => n

/-- `static_cast<ItemDecayState_t>`, a `uint8_t` enumeration. -/
def ofInt (n : Int) : ItemDecayState :=
  if n % 256 = 0 then DECAYING_FALSE
  else if n % 256 = 1 then DECAYING_TRUE
  else if n % 256 = 2 then DECAYING_PENDING
  else if n % 256 = 3 then DECAYING_STOPPING
  else unnamed (n % 256)

end ItemDecayState

structure Item where
  id : UInt16
  count : UInt8 := 1
  attributes : Option ItemAttributes := none

namespace Item

open ItemDecayState

variable (items : Items)

/-! ### Attributes of an item -/

/-- `getAttributes`: the store, created when there is none. -/
def getAttributes (item : Item) : ItemAttributes := item.attributes.getD .empty

def hasAttribute (item : Item) (type : ItemAttrTypes) : Bool :=
  match item.attributes with
  | none => false
  | some a => a.hasAttribute type

def getIntAttr (item : Item) (type : ItemAttrTypes) : Int :=
  match item.attributes with
  | none => 0
  | some a => a.getIntAttr type

def getStrAttr (item : Item) (type : ItemAttrTypes) : Bytes :=
  match item.attributes with
  | none => []
  | some a => a.getStrAttr type

def setIntAttr (item : Item) (type : ItemAttrTypes) (value : Int) : Item :=
  { item with attributes := some (item.getAttributes.setIntAttr type value) }

def setStrAttr (item : Item) (type : ItemAttrTypes) (value : Bytes) : Item :=
  { item with attributes := some (item.getAttributes.setStrAttr type value) }

def removeAttribute (item : Item) (type : ItemAttrTypes) : Item :=
  { item with attributes := item.attributes.map (·.removeAttribute type) }

/-- What an item's store holds for a type. -/
def lookup (item : Item) (type : ItemAttrTypes) : Option AttrValue :=
  item.attributes.bind (·.lookup type)

theorem hasAttribute_eq (item : Item) (type : ItemAttrTypes) :
    item.hasAttribute type = (item.lookup type).isSome := by
  unfold hasAttribute lookup
  cases item.attributes with
  | none => rfl
  | some a => exact a.hasAttribute_eq type

theorem getIntAttr_eq (item : Item) (type : ItemAttrTypes) :
    item.getIntAttr type =
      if type.isIntAttrType then ((item.lookup type).map AttrValue.getInteger).getD 0 else 0 := by
  unfold getIntAttr lookup
  cases item.attributes with
  | none => simp
  | some a =>
    show a.getIntAttr type = _
    unfold ItemAttributes.getIntAttr
    rw [ItemAttributes.getExistingAttr_eq]
    rfl

theorem lookup_getAttributes (item : Item) (type : ItemAttrTypes) :
    item.getAttributes.lookup type = item.lookup type := by
  unfold getAttributes lookup
  cases item.attributes with
  | none => rfl
  | some a => rfl

theorem lookup_setIntAttr (item : Item) {type : ItemAttrTypes} (h : type.isIntAttrType = true)
    (value : Int) (t : ItemAttrTypes) :
    (item.setIntAttr type value).lookup t =
      if t = type then some (.integer value) else item.lookup t := by
  rw [← lookup_getAttributes item]
  exact ItemAttributes.lookup_setIntAttr _ h _ _

theorem lookup_setIntAttr_of_ne (item : Item) {type t : ItemAttrTypes} (value : Int) (h : t ≠ type) :
    (item.setIntAttr type value).lookup t = item.lookup t := by
  rw [← lookup_getAttributes item]
  exact ItemAttributes.lookup_setIntAttr_of_ne _ _ h

theorem lookup_setStrAttr (item : Item) {type : ItemAttrTypes} (h : type.isStrAttrType = true)
    {value : Bytes} (hv : value ≠ []) (t : ItemAttrTypes) :
    (item.setStrAttr type value).lookup t =
      if t = type then some (.string value) else item.lookup t := by
  rw [← lookup_getAttributes item]
  exact ItemAttributes.lookup_setStrAttr _ h hv _

theorem lookup_setStrAttr_of_ne (item : Item) {type t : ItemAttrTypes} (value : Bytes) (h : t ≠ type) :
    (item.setStrAttr type value).lookup t = item.lookup t := by
  rw [← lookup_getAttributes item]
  exact ItemAttributes.lookup_setStrAttr_of_ne _ _ h

theorem getStrAttr_eq (item : Item) (type : ItemAttrTypes) :
    item.getStrAttr type =
      if type.isStrAttrType then ((item.lookup type).map AttrValue.getString).getD [] else [] := by
  unfold getStrAttr lookup
  cases item.attributes with
  | none => simp
  | some a =>
    show a.getStrAttr type = _
    unfold ItemAttributes.getStrAttr
    rw [ItemAttributes.getExistingAttr_eq]
    rfl

theorem getStrAttr_ne_nil {item : Item} {type : ItemAttrTypes} (h : type.isStrAttrType = true)
    (ha : item.hasAttribute type = true) : item.getStrAttr type ≠ [] := by
  rw [hasAttribute_eq] at ha
  unfold lookup at ha
  unfold getStrAttr
  cases hattr : item.attributes with
  | none => simp [hattr] at ha
  | some a => exact ItemAttributes.getStrAttr_ne_nil h (by simpa [hattr] using ha)

theorem lookup_removeAttribute (item : Item) (type t : ItemAttrTypes) :
    (item.removeAttribute type).lookup t = if t = type then none else item.lookup t := by
  unfold removeAttribute lookup
  cases item.attributes with
  | none => simp
  | some a => exact a.lookup_removeAttribute type t

theorem getIntAttr_setIntAttr_self (item : Item) {type : ItemAttrTypes}
    (h : type.isIntAttrType = true) (value : Int) :
    (item.setIntAttr type value).getIntAttr type = value := by
  rw [getIntAttr_eq, lookup_setIntAttr item h]
  simp [h, AttrValue.getInteger]

theorem getIntAttr_setIntAttr_of_ne (item : Item) {type t : ItemAttrTypes}
    (h : type.isIntAttrType = true) (value : Int) (hne : t ≠ type) :
    (item.setIntAttr type value).getIntAttr t = item.getIntAttr t := by
  rw [getIntAttr_eq, getIntAttr_eq, lookup_setIntAttr item h, if_neg hne]

theorem getIntAttr_removeAttribute_self (item : Item) (type : ItemAttrTypes) :
    (item.removeAttribute type).getIntAttr type = 0 := by
  rw [getIntAttr_eq, lookup_removeAttribute]
  simp

theorem getIntAttr_removeAttribute_of_ne (item : Item) {type t : ItemAttrTypes} (hne : t ≠ type) :
    (item.removeAttribute type).getIntAttr t = item.getIntAttr t := by
  rw [getIntAttr_eq, getIntAttr_eq, lookup_removeAttribute, if_neg hne]

/-! ### The duration timestamp is never stored -/

theorem lookup_timestamp (item : Item) : item.lookup .DURATION_TIMESTAMP = none := by
  unfold lookup
  cases item.attributes with
  | none => rfl
  | some a => exact a.lookup_of_no_class (by decide) (by decide) (by decide)

theorem hasAttribute_timestamp (item : Item) : item.hasAttribute .DURATION_TIMESTAMP = false := by
  rw [hasAttribute_eq, lookup_timestamp]
  rfl

theorem getIntAttr_timestamp (item : Item) : item.getIntAttr .DURATION_TIMESTAMP = 0 := by
  rw [getIntAttr_eq, lookup_timestamp]
  rfl

/-! ### Sub types -/

def setItemCount (item : Item) (n : UInt8) : Item := { item with count := n }

def setCharges (item : Item) (n : UInt16) : Item := item.setIntAttr .CHARGES n.toNat

def setFluidType (item : Item) (n : UInt16) : Item := item.setIntAttr .FLUIDTYPE n.toNat

def getCharges (item : Item) : UInt16 := UInt16.ofInt (item.getIntAttr .CHARGES)

def getFluidType (item : Item) : UInt16 := UInt16.ofInt (item.getIntAttr .FLUIDTYPE)

def getSubType (item : Item) : UInt16 :=
  let it := items item.id
  if it.isFluidContainer || it.isSplash then item.getFluidType
  else if it.stackable then item.count.toUInt16
  else if it.charges != 0 then item.getCharges
  else item.count.toUInt16

def setSubType (item : Item) (n : UInt16) : Item :=
  let it := items item.id
  if it.isFluidContainer || it.isSplash then item.setFluidType n
  else if it.stackable then item.setItemCount n.toUInt8
  else if it.charges != 0 then item.setCharges n
  else item.setItemCount n.toUInt8

/-! ### Decay state and duration -/

def setDuration (item : Item) (time : Int) : Item := item.setIntAttr .DURATION (max 0 time)

def setDurationTimestamp (item : Item) (timestamp : Int) : Item :=
  item.setIntAttr .DURATION_TIMESTAMP timestamp

def getDecaying (item : Item) : ItemDecayState :=
  match item.attributes with
  | none => DECAYING_FALSE
  | some _ => ofInt (item.getIntAttr .DECAYSTATE)

def setDecaying (item : Item) (decayState : ItemDecayState) : Item :=
  let item := item.setIntAttr .DECAYSTATE decayState.toInt
  if decayState = DECAYING_FALSE then item.removeAttribute .DURATION_TIMESTAMP else item

/-- `getDuration`, at the time `now` of the call. -/
def getDuration (item : Item) (now : Int) : Int :=
  if item.getDecaying = DECAYING_TRUE ∨ item.getDecaying = DECAYING_STOPPING then
    max 0 (Words.toInt32 (item.getIntAttr .DURATION_TIMESTAMP - now))
  else Words.toInt32 (item.getIntAttr .DURATION)

/-- `getDefaultDuration`, a `uint32_t`. -/
def getDefaultDuration (item : Item) : Nat := (items item.id).decayTime * 1000 % 2 ^ 32

def setDefaultDuration (item : Item) : Item :=
  let duration := item.getDefaultDuration items
  if duration ≠ 0 then item.setDuration (Words.toInt32 duration) else item

/-- The constructor `Item::Item(itemId, itemCount)`. -/
def new (itemId itemCount : UInt16) : Item :=
  let item : Item := { id := itemId }
  let it := items itemId
  let item :=
    if it.isFluidContainer || it.isSplash then item.setFluidType itemCount
    else if it.stackable then
      if itemCount ≠ 0 then item.setItemCount itemCount.toUInt8
      else if it.charges ≠ 0 then item.setItemCount (UInt8.ofNat it.charges)
      else item
    else if it.charges ≠ 0 then
      if itemCount ≠ 0 then item.setCharges itemCount else item.setCharges (UInt16.ofNat it.charges)
    else item
  item.setDefaultDuration items

def getCorpseOwner (item : Item) : Int := item.getIntAttr .CORPSEOWNER % 2 ^ 32

def isRewardCorpse (item : Item) : Bool := item.getCorpseOwner == 2147483647

/-- First part of `setID`: a type that does not decay stops the decay of the old one. -/
def stopForType (item : Item) (it : ItemType) (newDuration : Nat) : Item :=
  if newDuration = 0 ∧ ¬ it.stopTime ∧ it.decayTo < 0 then
    (if item.hasAttribute .DECAYSTATE then item.setDecaying DECAYING_STOPPING else item).removeAttribute
      .DURATION
  else item

/-- Second part of `setID`: only a reward corpse keeps its owner. -/
def dropCorpseOwner (item : Item) : Item :=
  if item.isRewardCorpse then item else item.removeAttribute .CORPSEOWNER

def setID (item : Item) (newid : UInt16) : Item :=
  let prevIt := items item.id
  let it := items newid
  let newDuration : Nat := it.decayTime * 1000 % 2 ^ 32
  let item := ({ item with id := newid }.stopForType it newDuration).dropCorpseOwner
  if newDuration > 0 ∧ (¬ prevIt.stopTime ∨ ¬ item.hasAttribute .DURATION) then
    (item.setDecaying DECAYING_PENDING).setDuration (Words.toInt32 newDuration)
  else item

/-- `canDecay`; `removed` is the answer of `isRemoved()`. -/
def canDecay (item : Item) (removed : Bool) : Bool :=
  let it := items item.id
  if removed then false
  else if it.decayTo < 0 ∨ it.decayTime = 0 then false
  else if item.hasAttribute .UNIQUEID then false
  else true

theorem getDecaying_eq (item : Item) : item.getDecaying = ofInt (item.getIntAttr .DECAYSTATE) := by
  unfold getDecaying
  cases h : item.attributes with
  | none => simp [getIntAttr, h, ofInt]
  | some a => rfl

theorem lookup_setDurationTimestamp (item : Item) (timestamp : Int) (t : ItemAttrTypes) :
    (item.setDurationTimestamp timestamp).lookup t = item.lookup t := by
  rw [← lookup_getAttributes item]
  unfold setDurationTimestamp setIntAttr
  rw [ItemAttributes.setIntAttr_of_not_int _ (by decide)]
  rfl

theorem ofInt_toInt {state : ItemDecayState} (h : ∀ n, state ≠ unnamed n) :
    ofInt state.toInt = state := by
  cases state with
  | unnamed n => exact absurd rfl (h n)
  | _ => rfl

theorem getDecaying_setDecaying (item : Item) {state : ItemDecayState} (h : ∀ n, state ≠ unnamed n) :
    (item.setDecaying state).getDecaying = state := by
  have hset : (item.setIntAttr .DECAYSTATE state.toInt).getDecaying = state := by
    rw [getDecaying_eq, getIntAttr_setIntAttr_self item (by decide), ofInt_toInt h]
  unfold setDecaying
  dsimp only
  split
  · rw [getDecaying_eq, getIntAttr_removeAttribute_of_ne _ (by decide), ← getDecaying_eq, hset]
  · exact hset

end Item

end Moonlight
