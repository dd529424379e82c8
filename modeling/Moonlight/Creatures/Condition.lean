import Moonlight.Io.PropFormat

/-!
# Conditions

A `Condition` (creatures/combat/condition.cpp) is an object of one of twelve classes, which
`createCondition` picks by the type of the condition. `IOLoginData::savePlayer` writes the persistent
ones as tagged fields with a closing tag, and `IOLoginData::loadPlayer` creates one object after another
from a header of five fields and hands each of the following tags to it until the closing one.

The members are those that are serialized, and the running indices that reading an array goes by. What a
condition does to its creature, its end time and its other members play no part. A float is its bits,
which are copied as they are. The two loops that read are bounded by nothing but the stream, so they are
partial: `none` is a loop that does not end.
-/

namespace Moonlight

namespace Conditions

open PropStream

/-! ### Enumerations -/

/-- `ConditionAttr_t`, without the prefix `CONDITIONATTR_`. -/
inductive ConditionAttr where
  | TYPE
  | ID
  | TICKS
  | HEALTHTICKS
  | HEALTHGAIN
  | MANATICKS
  | MANAGAIN
  | DELAYED
  | OWNER
  | INTERVALDATA
  | SPEEDDELTA
  | FORMULA_MINA
  | FORMULA_MINB
  | FORMULA_MAXA
  | FORMULA_MAXB
  | LIGHTCOLOR
  | LIGHTLEVEL
  | LIGHTTICKS
  | LIGHTINTERVAL
  | SOULTICKS
  | SOULGAIN
  | SKILLS
  | STATS
  | BUFFS
  | OUTFIT
  | PERIODDAMAGE
  | ISBUFF
  | SUBID
  | MANASHIELD
  | END
  | unnamed (n : UInt8)
  deriving DecidableEq, Repr

namespace ConditionAttr

def toByte : ConditionAttr → UInt8
  | TYPE => 1
  | ID => 2
  | TICKS => 3
  | HEALTHTICKS => 4
  | HEALTHGAIN => 5
  | MANATICKS => 6
  | MANAGAIN => 7
  | DELAYED => 8
  | OWNER => 9
  | INTERVALDATA => 10
  | SPEEDDELTA => 11
  | FORMULA_MINA => 12
  | FORMULA_MINB => 13
  | FORMULA_MAXA => 14
  | FORMULA_MAXB => 15
  | LIGHTCOLOR => 16
  | LIGHTLEVEL => 17
  | LIGHTTICKS => 18
  | LIGHTINTERVAL => 19
  | SOULTICKS => 20
  | SOULGAIN => 21
  | SKILLS => 22
  | STATS => 23
  | BUFFS => 24
  | OUTFIT => 25
  | PERIODDAMAGE => 26
  | ISBUFF => 27
  | SUBID => 28
  | MANASHIELD => 29
  | END => 254
  | unnamed n => n

/-- The enumerators, in order. -/
def all : List ConditionAttr :=
  [TYPE, ID, TICKS, HEALTHTICKS, HEALTHGAIN, MANATICKS, MANAGAIN, DELAYED, OWNER, INTERVALDATA,
    SPEEDDELTA, FORMULA_MINA, FORMULA_MINB, FORMULA_MAXA, FORMULA_MAXB, LIGHTCOLOR, LIGHTLEVEL,
    LIGHTTICKS, LIGHTINTERVAL, SOULTICKS, SOULGAIN, SKILLS, STATS, BUFFS, OUTFIT, PERIODDAMAGE, ISBUFF,
    SUBID, MANASHIELD, END]

/-- `static_cast<ConditionAttr_t>`. -/
def ofByte (n : UInt8) : ConditionAttr := (all.find? (·.toByte == n)).getD (unnamed n)

/-- Writing a tag. -/
def write (attr : ConditionAttr) : Bytes := u8.write attr.toByte

end ConditionAttr

/-- `ConditionType_t`, without the prefix `CONDITION_`. -/
inductive ConditionType where
  | NONE
  | POISON
  | FIRE
  | ENERGY
  | BLEEDING
  | HASTE
  | PARALYZE
  | OUTFIT
  | INVISIBLE
  | LIGHT
  | MANASHIELD
  | INFIGHT
  | DRUNK
  | EXHAUST
  | REGENERATION
  | SOUL
  | DROWN
  | MUTED
  | CHANNELMUTEDTICKS
  | YELLTICKS
  | ATTRIBUTES
  | FREEZING
  | DAZZLED
  | CURSED
  | EXHAUST_COMBAT
  | EXHAUST_HEAL
  | PACIFIED
  | SPELLCOOLDOWN
  | SPELLGROUPCOOLDOWN
  | ROOTED
  | unnamed (n : UInt32)
  deriving DecidableEq, Repr

namespace ConditionType

def toNat : ConditionType → Nat
  | NONE => 0
  | POISON => 1 <<< 0
  | FIRE => 1 <<< 1
  | ENERGY => 1 <<< 2
  | BLEEDING => 1 <<< 3
  | HASTE => 1 <<< 4
  | PARALYZE => 1 <<< 5
  | OUTFIT => 1 <<< 6
  | INVISIBLE => 1 <<< 7
  | LIGHT => 1 <<< 8
  | MANASHIELD => 1 <<< 9
  | INFIGHT => 1 <<< 10
  | DRUNK => 1 <<< 11
  | EXHAUST => 1 <<< 12
  | REGENERATION => 1 <<< 13
  | SOUL => 1 <<< 14
  | DROWN => 1 <<< 15
  | MUTED => 1 <<< 16
  | CHANNELMUTEDTICKS => 1 <<< 17
  | YELLTICKS => 1 <<< 18
  | ATTRIBUTES => 1 <<< 19
  | FREEZING => 1 <<< 20
  | DAZZLED => 1 <<< 21
  | CURSED => 1 <<< 22
  | EXHAUST_COMBAT => 1 <<< 23
  | EXHAUST_HEAL => 1 <<< 24
  | PACIFIED => 1 <<< 25
  | SPELLCOOLDOWN => 1 <<< 26
  | SPELLGROUPCOOLDOWN => 1 <<< 27
  | ROOTED => 1 <<< 28
  | unnamed n => n.toNat

def toUInt32 (type : ConditionType) : UInt32 := UInt32.ofNat type.toNat

/-- The enumerators, in order. -/
def all : List ConditionType :=
  [NONE, POISON, FIRE, ENERGY, BLEEDING, HASTE, PARALYZE, OUTFIT, INVISIBLE, LIGHT, MANASHIELD, INFIGHT,
    DRUNK, EXHAUST, REGENERATION, SOUL, DROWN, MUTED, CHANNELMUTEDTICKS, YELLTICKS, ATTRIBUTES, FREEZING,
    DAZZLED, CURSED, EXHAUST_COMBAT, EXHAUST_HEAL, PACIFIED, SPELLCOOLDOWN, SPELLGROUPCOOLDOWN, ROOTED]

/-- `static_cast<ConditionType_t>`. -/
def ofUInt32 (n : UInt32) : ConditionType := (all.find? (·.toUInt32 == n)).getD (unnamed n)

end ConditionType

def CONDITIONID_COMBAT : Int8 := 0

/-! ### Classes -/

structure IntervalInfo where
  timeLeft : Int32
  value : Int32
  interval : Int32
  deriving DecidableEq, Repr

namespace IntervalInfo

def format : Format UInt8 IntervalInfo :=
  (i32.prod (i32.prod i32)).iso (fun a => (a.timeLeft, a.value, a.interval)) (fun r => ⟨r.1, r.2.1, r.2.2⟩)
    fun _ => rfl

end IntervalInfo

/-- `Outfit_t`, with the byte that pads it before its last member. -/
structure Outfit where
  lookType : UInt16 := 0
  lookTypeEx : UInt16 := 0
  lookMount : UInt16 := 0
  lookHead : UInt8 := 0
  lookBody : UInt8 := 0
  lookLegs : UInt8 := 0
  lookFeet : UInt8 := 0
  lookAddons : UInt8 := 0
  lookMountHead : UInt8 := 0
  lookMountBody : UInt8 := 0
  lookMountLegs : UInt8 := 0
  lookMountFeet : UInt8 := 0
  padding : UInt8 := 0
  lookFamiliarsType : UInt16 := 0
  deriving DecidableEq, Repr

namespace Outfit

def format : Format UInt8 Outfit :=
  (u16.prod <| u16.prod <| u16.prod <| u8.prod <| u8.prod <| u8.prod <| u8.prod <| u8.prod <| u8.prod <|
    u8.prod <| u8.prod <| u8.prod <| u8.prod u16).iso
    (fun a => (a.lookType, a.lookTypeEx, a.lookMount, a.lookHead, a.lookBody, a.lookLegs, a.lookFeet,
      a.lookAddons, a.lookMountHead, a.lookMountBody, a.lookMountLegs, a.lookMountFeet, a.padding,
      a.lookFamiliarsType))
    (fun (a, b, c, d, e, f, g, h, i, j, k, l, m, n) => ⟨a, b, c, d, e, f, g, h, i, j, k, l, m, n⟩)
    fun _ => rfl

end Outfit

/-- `ConditionAttributes`; the arrays have one entry for each skill, stat and buff. -/
structure ConditionAttributes where
  skills : Vector Int32 13 := .replicate 13 0
  stats : Vector Int32 5 := .replicate 5 0
  buffs : Vector Int32 2 := .replicate 2 0
  currentSkill : Nat := 0
  currentStat : Nat := 0
  currentBuff : Nat := 0

structure ConditionRegeneration where
  healthTicks : UInt32 := 1000
  healthGain : UInt32 := 0
  manaTicks : UInt32 := 1000
  manaGain : UInt32 := 0

structure ConditionManaShield where
  manaShield : UInt16 := 0

structure ConditionSoul where
  soulGain : UInt32 := 0
  soulTicks : UInt32 := 0

structure ConditionDamage where
  delayed : Bool := false
  periodDamage : Int32 := 0
  damageList : List IntervalInfo := []

structure ConditionSpeed where
  speedDelta : Int32
  mina : UInt32 := 0
  minb : UInt32 := 0
  maxa : UInt32 := 0
  maxb : UInt32 := 0

structure ConditionOutfit where
  outfit : Outfit := {}

structure ConditionLight where
  color : UInt8
  level : UInt8
  internalLightTicks : UInt32 := 0
  lightChangeInterval : UInt32 := 0

/-- The class of a condition, with the members it adds to `Condition`. -/
inductive ConditionClass where
  | generic
  | attributes (m : ConditionAttributes)
  | regeneration (m : ConditionRegeneration)
  | manaShield (m : ConditionManaShield)
  | soul (m : ConditionSoul)
  | invisible
  | damage (m : ConditionDamage)
  | speed (m : ConditionSpeed)
  | outfit (m : ConditionOutfit)
  | light (m : ConditionLight)
  | spellCooldown
  | spellGroupCooldown

structure Condition where
  cls : ConditionClass
  conditionType : ConditionType
  id : Int8
  ticks : Int32
  isBuff : Bool
  subId : UInt32

/-! ### Writing -/

/-- A tag and its value. -/
def writeField {α : Type} (attr : ConditionAttr) (f : Format UInt8 α) (a : α) : Bytes :=
  attr.write ++ f.write a

namespace ConditionClass

/-- What the `serialize` of a class writes after that of `Condition`. -/
def serialize : ConditionClass → Bytes
  | generic | invisible | spellCooldown | spellGroupCooldown => []
  | attributes m =>
    m.skills.toList.flatMap (writeField .SKILLS i32) ++ m.stats.toList.flatMap (writeField .STATS i32) ++
      m.buffs.toList.flatMap (writeField .BUFFS i32)
  | regeneration m =>
    writeField .HEALTHTICKS u32 m.healthTicks ++ writeField .HEALTHGAIN u32 m.healthGain ++
      writeField .MANATICKS u32 m.manaTicks ++ writeField .MANAGAIN u32 m.manaGain
  | manaShield m => writeField .MANASHIELD u16 m.manaShield
  | soul m => writeField .SOULGAIN u32 m.soulGain ++ writeField .SOULTICKS u32 m.soulTicks
  | damage m =>
    writeField .DELAYED bool m.delayed ++ writeField .PERIODDAMAGE i32 m.periodDamage ++
      m.damageList.flatMap (writeField .INTERVALDATA IntervalInfo.format)
  | speed m =>
    writeField .SPEEDDELTA i32 m.speedDelta ++ writeField .FORMULA_MINA u32 m.mina ++
      writeField .FORMULA_MINB u32 m.minb ++ writeField .FORMULA_MAXA u32 m.maxa ++
      writeField .FORMULA_MAXB u32 m.maxb
  | outfit m => writeField .OUTFIT Outfit.format m.outfit
  | light m =>
    writeField .LIGHTCOLOR u8u m.color ++ writeField .LIGHTLEVEL u8u m.level ++
      writeField .LIGHTTICKS u32 m.internalLightTicks ++ writeField .LIGHTINTERVAL u32 m.lightChangeInterval

end ConditionClass

namespace Condition

def serialize (c : Condition) : Bytes :=
  writeField .TYPE u32 c.conditionType.toUInt32 ++ writeField .ID i8u c.id ++
    writeField .TICKS i32u c.ticks ++ writeField .ISBUFF bool c.isBuff ++ writeField .SUBID u32 c.subId ++
    c.cls.serialize

/-- Read a value into a member. -/
def readInto {α : Type} (f : Format UInt8 α) (s : Bytes) (set : α → Condition) :
    Option (Condition × Bytes) :=
  (f.read s).map fun r => (set r.1, r.2)

/-- `Condition::unserializeProp`. -/
def unserializePropBase (c : Condition) (attr : ConditionAttr) (s : Bytes) : Option (Condition × Bytes) :=
  match attr with
  | .TYPE => readInto i32 s fun value =>
      { c with conditionType := ConditionType.ofUInt32 value.toUInt32 }
  | .ID => readInto i32 s fun value => { c with id := value.toInt8 }
  | .TICKS => readInto i32 s fun value => { c with ticks := value }
  | .ISBUFF => readInto bool s fun value => { c with isBuff := value }
  | .SUBID => readInto u32 s fun value => { c with subId := value }
  | .END => some (c, s)
  | _ => none

/-- An entry of the damage list, whose interval is added to the ticks unless they are endless. -/
def addInterval (c : Condition) (m : ConditionDamage) (damageInfo : IntervalInfo) : Condition :=
  { c with
    cls := .damage { m with damageList := m.damageList ++ [damageInfo] }
    ticks := if c.ticks ≠ -1 then c.ticks + damageInfo.interval else c.ticks }

/-- The virtual `unserializeProp`. An entry behind the end of an array is not stored. -/
def unserializeProp (c : Condition) (attr : ConditionAttr) (s : Bytes) : Option (Condition × Bytes) :=
  match c.cls with
  | .attributes m =>
    if attr = .SKILLS then
      readInto i32 s fun value => { c with cls := .attributes { m with
        skills := m.skills.setIfInBounds m.currentSkill value, currentSkill := m.currentSkill + 1 } }
    else if attr = .STATS then
      readInto i32 s fun value => { c with cls := .attributes { m with
        stats := m.stats.setIfInBounds m.currentStat value, currentStat := m.currentStat + 1 } }
    else if attr = .BUFFS then
      readInto i32 s fun value => { c with cls := .attributes { m with
        buffs := m.buffs.setIfInBounds m.currentBuff value, currentBuff := m.currentBuff + 1 } }
    else c.unserializePropBase attr s
  | .regeneration m =>
    if attr = .HEALTHTICKS then
      readInto u32 s fun value => { c with cls := .regeneration { m with healthTicks := value } }
    else if attr = .HEALTHGAIN then
      readInto u32 s fun value => { c with cls := .regeneration { m with healthGain := value } }
    else if attr = .MANATICKS then
      readInto u32 s fun value => { c with cls := .regeneration { m with manaTicks := value } }
    else if attr = .MANAGAIN then
      readInto u32 s fun value => { c with cls := .regeneration { m with manaGain := value } }
    else c.unserializePropBase attr s
  | .manaShield m =>
    if attr = .MANASHIELD then
      readInto u16 s fun value => { c with cls := .manaShield { m with manaShield := value } }
    else c.unserializePropBase attr s
  | .soul m =>
    if attr = .SOULGAIN then
      readInto u32 s fun value => { c with cls := .soul { m with soulGain := value } }
    else if attr = .SOULTICKS then
      readInto u32 s fun value => { c with cls := .soul { m with soulTicks := value } }
    else c.unserializePropBase attr s
  | .damage m =>
    if attr = .DELAYED then
      readInto bool s fun value => { c with cls := .damage { m with delayed := value } }
    else if attr = .PERIODDAMAGE then
      readInto i32 s fun value => { c with cls := .damage { m with periodDamage := value } }
    else if attr = .OWNER then (PropStream.skip 4 s).map fun s => (c, s)
    else if attr = .INTERVALDATA then readInto IntervalInfo.format s (c.addInterval m)
    else c.unserializePropBase attr s
  | .speed m =>
    if attr = .SPEEDDELTA then
      readInto i32 s fun value => { c with cls := .speed { m with speedDelta := value } }
    else if attr = .FORMULA_MINA then
      readInto u32 s fun value => { c with cls := .speed { m with mina := value } }
    else if attr = .FORMULA_MINB then
      readInto u32 s fun value => { c with cls := .speed { m with minb := value } }
    else if attr = .FORMULA_MAXA then
      readInto u32 s fun value => { c with cls := .speed { m with maxa := value } }
    else if attr = .FORMULA_MAXB then
      readInto u32 s fun value => { c with cls := .speed { m with maxb := value } }
    else c.unserializePropBase attr s
  | .outfit m =>
    if attr = .OUTFIT then
      readInto Outfit.format s fun value => { c with cls := .outfit { m with outfit := value } }
    else c.unserializePropBase attr s
  | .light m =>
    if attr = .LIGHTCOLOR then
      readInto u8u s fun value => { c with cls := .light { m with color := value } }
    else if attr = .LIGHTLEVEL then
      readInto u8u s fun value => { c with cls := .light { m with level := value } }
    else if attr = .LIGHTTICKS then
      readInto u32 s fun value => { c with cls := .light { m with internalLightTicks := value } }
    else if attr = .LIGHTINTERVAL then
      readInto u32 s fun value => { c with cls := .light { m with lightChangeInterval := value } }
    else c.unserializePropBase attr s
  | .generic | .invisible | .spellCooldown | .spellGroupCooldown => c.unserializePropBase attr s

/-- `Condition::unserialize`: the condition, if it was read to its end, and the rest of the stream. -/
def unserialize (c : Condition) (s : Bytes) : Option (Option Condition × Bytes) :=
  match u8.read s with
  | none => some (some c, s)
  | some (attr_type, s) =>
    if ConditionAttr.ofByte attr_type = .END then some (some c, s)
    else
      match c.unserializeProp (ConditionAttr.ofByte attr_type) s with
      | none => some (none, s)
      | some (c, s) => c |>.unserialize s
partial_fixpoint

/-! ### Creating -/

/-- `Condition::createCondition(id, type, ticks, param, buff, subId)`. -/
def createCondition (id : Int8) (type : ConditionType) (ticks param : Int32) (buff : Bool)
    (subId : UInt32) : Option Condition :=
  let new (cls : ConditionClass) (ticks : Int32) : Condition :=
    { cls, conditionType := type, id, ticks, isBuff := buff, subId }
  match type with
  | .POISON | .FIRE | .ENERGY | .DROWN | .FREEZING | .DAZZLED | .CURSED | .BLEEDING =>
    some (new (.damage {}) 0)
  | .HASTE | .PARALYZE => some (new (.speed { speedDelta := param }) ticks)
  | .INVISIBLE => some (new .invisible ticks)
  | .OUTFIT => some (new (.outfit {}) ticks)
  | .LIGHT =>
    some (new (.light {
      level := (param &&& 0xFF).toUInt32.toUInt8, color := ((param &&& 0xFF00) >>> 8).toUInt32.toUInt8 }) ticks)
  | .REGENERATION => some (new (.regeneration {}) ticks)
  | .SOUL => some (new (.soul {}) ticks)
  | .ATTRIBUTES => some (new (.attributes {}) ticks)
  | .SPELLCOOLDOWN => some (new .spellCooldown ticks)
  | .SPELLGROUPCOOLDOWN => some (new .spellGroupCooldown ticks)
  | .MANASHIELD => some (new (.manaShield {}) ticks)
  | .ROOTED | .INFIGHT | .DRUNK | .EXHAUST | .EXHAUST_COMBAT | .EXHAUST_HEAL | .MUTED
  | .CHANNELMUTEDTICKS | .YELLTICKS | .PACIFIED => some (new .generic ticks)
  | .NONE | .unnamed _ => none

/-- A field of the header: the tag must be the one that comes next. -/
def readField {α : Type} (attr : ConditionAttr) (f : Format UInt8 α) (s : Bytes) : Option (α × Bytes) :=
  match u8.read s with
  | none => none
  | some (b, s) => if ConditionAttr.ofByte b ≠ attr then none else f.read s

/-- `Condition::createCondition(propStream)`. -/
def createConditionFrom (s : Bytes) : Option (Condition × Bytes) := do
  let (type, s) ← readField .TYPE u32 s
  let (id, s) ← readField .ID i8u s
  let (ticks, s) ← readField .TICKS i32u s
  let (buff, s) ← readField .ISBUFF bool s
  let (subId, s) ← readField .SUBID u32 s
  let c ← createCondition id (ConditionType.ofUInt32 type) ticks 0 buff subId
  some (c, s)

end Condition

/-! ### Saving and loading a player -/

/-- The loop of `IOLoginData::loadPlayer` that fills `storedConditionList`, entered with a condition
created: the list and what was left of the stream when no further condition could be created. -/
def Condition.store (condition : Condition) (storedConditionList : List Condition) (s : Bytes) :
    Option (List Condition × Bytes) := do
  let (unserialized, s) ← condition.unserialize s
  let storedConditionList := unserialized.toList ++ storedConditionList
  match Condition.createConditionFrom s with
  | none => some (storedConditionList, s)
  | some (condition, s) => condition |>.store storedConditionList s
partial_fixpoint

end Conditions

end Moonlight
