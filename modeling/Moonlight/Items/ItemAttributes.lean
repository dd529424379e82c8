import Moonlight.Lib.Assoc

/-!
# Item attributes

`ItemAttributes` (items/item.h, items/item.cpp) is the store behind every optional property of an
item: a vector of tagged values and `attributeBits`, a word with one bit per attribute type that is
consulted before the vector is searched. Three classes of types exist, integer, string and custom,
each decided by a mask; the setters of a class ignore a type outside of it without a word.

The structure below carries what the setters keep: the bits are the types present, a type is present
at most once, and every value is of its type's class. Behind that, the store is a partial function
from types to values (`ItemAttributes.lookup`), and each operation is described by one equation on
it. Everything outside this module reads the store through these equations.

`ITEM_ATTRIBUTE_DURATION_TIMESTAMP` and `ITEM_ATTRIBUTE_IMBUEMENT_TYPE` belong to no class, so no
setter ever stores them (`hasAttribute_of_no_class`).
-/

namespace Moonlight

/-- A `std::string`, as its bytes. -/
abbrev Bytes := List UInt8

/-! ### Attribute types -/

/-- `ItemAttrTypes`, without the prefix `ITEM_ATTRIBUTE_`. -/
inductive ItemAttrTypes where
  | ACTIONID
  | UNIQUEID
  | DESCRIPTION
  | TEXT
  | DATE
  | WRITER
  | NAME
  | ARTICLE
  | PLURALNAME
  | WEIGHT
  | ATTACK
  | DEFENSE
  | EXTRADEFENSE
  | ARMOR
  | HITCHANCE
  | SHOOTRANGE
  | OWNER
  | DURATION
  | DECAYSTATE
  | CORPSEOWNER
  | CHARGES
  | FLUIDTYPE
  | DOORID
  | SPECIAL
  | IMBUEMENT_SLOT
  | OPENCONTAINER
  | QUICKLOOTCONTAINER
  | DURATION_TIMESTAMP
  | IMBUEMENT_TYPE
  | CUSTOM
  deriving DecidableEq, Repr

namespace ItemAttrTypes

/-- The exponent in `ITEM_ATTRIBUTE_… = 1 << n`. -/
def shift : ItemAttrTypes → Nat
  | ACTIONID => 0
  | UNIQUEID => 1
  | DESCRIPTION => 2
  | TEXT => 3
  | DATE => 4
  | WRITER => 5
  | NAME => 6
  | ARTICLE => 7
  | PLURALNAME => 8
  | WEIGHT => 9
  | ATTACK => 10
  | DEFENSE => 11
  | EXTRADEFENSE => 12
  | ARMOR => 13
  | HITCHANCE => 14
  | SHOOTRANGE => 15
  | OWNER => 16
  | DURATION => 17
  | DECAYSTATE => 18
  | CORPSEOWNER => 19
  | CHARGES => 20
  | FLUIDTYPE => 21
  | DOORID => 22
  | SPECIAL => 23
  | IMBUEMENT_SLOT => 24
  | OPENCONTAINER => 25
  | QUICKLOOTCONTAINER => 26
  | DURATION_TIMESTAMP => 27
  | IMBUEMENT_TYPE => 28
  | CUSTOM => 31

def bit (type : ItemAttrTypes) : BitVec 32 := BitVec.twoPow 32 type.shift

/-- `checkTypes` after its sequence of `|=`. -/
def mask (types : List ItemAttrTypes) : BitVec 32 :=
  types.foldl (fun checkTypes type => checkTypes ||| type.bit) 0

def isIntAttrType (type : ItemAttrTypes) : Bool :=
  (type.bit &&& mask [ACTIONID, UNIQUEID, DATE, WEIGHT, ATTACK, DEFENSE, EXTRADEFENSE, ARMOR,
    HITCHANCE, SHOOTRANGE, OWNER, DURATION, DECAYSTATE, CORPSEOWNER, CHARGES, FLUIDTYPE, DOORID,
    IMBUEMENT_SLOT, OPENCONTAINER, QUICKLOOTCONTAINER]) != 0

def isStrAttrType (type : ItemAttrTypes) : Bool :=
  (type.bit &&& mask [DESCRIPTION, TEXT, WRITER, NAME, ARTICLE, PLURALNAME, SPECIAL]) != 0

def isCustomAttrType (type : ItemAttrTypes) : Bool :=
  (type.bit &&& CUSTOM.bit) != 0

theorem shift_lt (type : ItemAttrTypes) : type.shift < 32 := by
  cases type <;> decide

theorem shift_injective {t t' : ItemAttrTypes} (h : t.shift = t'.shift) : t = t' := by
  cases t <;> cases t' <;> first | rfl | exact absurd h (by decide)

theorem getLsbD_bit (type : ItemAttrTypes) (i : Nat) :
    type.bit.getLsbD i = decide (type.shift = i) := by
  rw [bit, BitVec.getLsbD_twoPow]
  simp [shift_lt]

theorem bit_and_ne_zero (type : ItemAttrTypes) (bits : BitVec 32) :
    (type.bit &&& bits != 0) = bits.getLsbD type.shift := by
  have hne : type.bit ≠ 0#32 := by
    intro h
    have hbit := getLsbD_bit type type.shift
    rw [h] at hbit
    simp at hbit
  rw [bit, BitVec.twoPow_and]
  cases hb : bits.getLsbD type.shift with
  | false => simp
  | true => simpa [bit] using hne

theorem class_disjoint (type : ItemAttrTypes) :
    (type.isIntAttrType = true → type.isStrAttrType = false ∧ type.isCustomAttrType = false) ∧
    (type.isStrAttrType = true → type.isCustomAttrType = false) := by
  cases type <;> decide

end ItemAttrTypes

open ItemAttrTypes

/-! ### Values -/

/-- `ItemAttributes::CustomAttribute`: a `boost::variant`, in the order of its alternatives. A
`double` is kept as its 64 bits. -/
inductive CustomAttribute where
  | blank
  | string (v : Bytes)
  | int64 (v : Int)
  | double (v : UInt64)
  | bool (v : Bool)
  deriving DecidableEq, Repr

/-- `CustomAttributeMap`; the list order stands for the iteration order of the hash map. -/
abbrev CustomAttributeMap := List (Bytes × CustomAttribute)

/-- The union `Attribute::value`. -/
inductive AttrValue where
  | integer (n : Int)
  | string (s : Bytes)
  | custom (m : CustomAttributeMap)
  deriving DecidableEq, Repr

namespace AttrValue

/-- What `memset` leaves in a new attribute. -/
def zero : AttrValue := .integer 0

/-- Reading the union as `value.integer`. -/
def getInteger : AttrValue → Int
  | .integer n => n
  | _ => 0

def getString : AttrValue → Bytes
  | .string s => s
  | _ => []

def getCustom : AttrValue → CustomAttributeMap
  | .custom m => m
  | _ => []

/-- The value is one that the setters of the type's class store. -/
def Fits (type : ItemAttrTypes) : AttrValue → Prop
  | .integer _ => type.isIntAttrType = true
  | .string s => type.isStrAttrType = true ∧ s ≠ []
  | .custom m => type.isCustomAttrType = true ∧ (Assoc.keys m).Nodup

end AttrValue

/-- `ItemAttributes`: the attributes present and the bits of their types. -/
structure ItemAttributes where
  attributes : List (ItemAttrTypes × AttrValue)
  attributeBits : BitVec 32
  nodup : (Assoc.keys attributes).Nodup
  bits : ∀ i, attributeBits.getLsbD i = true ↔ ∃ type ∈ Assoc.keys attributes, type.shift = i
  fits : ∀ a ∈ attributes, a.2.Fits a.1

namespace ItemAttributes

/-- A store without attributes, as `getAttributes` creates it. -/
def empty : ItemAttributes where
  attributes := []
  attributeBits := 0
  nodup := List.nodup_nil
  bits := by simp
  fits := by simp

def hasAttribute (a : ItemAttributes) (type : ItemAttrTypes) : Bool :=
  (type.bit &&& a.attributeBits) != 0

def getExistingAttr (a : ItemAttributes) (type : ItemAttrTypes) : Option AttrValue :=
  if a.hasAttribute type then a.attributes.lookup type else none

theorem hasAttribute_iff (a : ItemAttributes) (type : ItemAttrTypes) :
    a.hasAttribute type = true ↔ type ∈ Assoc.keys a.attributes := by
  rw [hasAttribute, bit_and_ne_zero, a.bits]
  constructor
  · rintro ⟨t, ht, hs⟩
    rwa [← shift_injective hs]
  · intro h
    exact ⟨type, h, rfl⟩

theorem bits_insert (a : ItemAttributes) {type : ItemAttrTypes} {l : List (ItemAttrTypes × AttrValue)}
    (hl : ∀ t, t ∈ Assoc.keys l ↔ t = type ∨ t ∈ Assoc.keys a.attributes) (i : Nat) :
    (a.attributeBits ||| type.bit).getLsbD i = true ↔ ∃ t ∈ Assoc.keys l, t.shift = i := by
  rw [BitVec.getLsbD_or, Bool.or_eq_true, getLsbD_bit, decide_eq_true_iff, a.bits]
  simp only [hl]
  constructor
  · rintro (⟨t, ht, hi⟩ | hi)
    · exact ⟨t, .inr ht, hi⟩
    · exact ⟨type, .inl rfl, hi⟩
  · rintro ⟨t, rfl | ht, hi⟩
    · exact .inr hi
    · exact .inl ⟨t, ht, hi⟩

theorem bits_erase (a : ItemAttributes) {type : ItemAttrTypes} {l : List (ItemAttrTypes × AttrValue)}
    (hl : ∀ t, t ∈ Assoc.keys l ↔ t ∈ Assoc.keys a.attributes ∧ t ≠ type) (i : Nat) :
    (a.attributeBits &&& ~~~ type.bit).getLsbD i = true ↔ ∃ t ∈ Assoc.keys l, t.shift = i := by
  rw [BitVec.getLsbD_and, Bool.and_eq_true, a.bits, BitVec.getLsbD_not, getLsbD_bit]
  simp only [hl, Bool.and_eq_true, decide_eq_true_iff, Bool.not_eq_true', decide_eq_false_iff_not]
  constructor
  · rintro ⟨⟨t, ht, hi⟩, -, hne⟩
    exact ⟨t, ⟨ht, fun h => hne (h ▸ hi)⟩, hi⟩
  · rintro ⟨t, ⟨ht, hne⟩, rfl⟩
    exact ⟨⟨t, ht, rfl⟩, shift_lt t, fun h => hne (shift_injective h).symm⟩

/-- A write through the reference that `getAttr` returns: the attribute found, or the zeroed one it
appends, gets the value `f` computes from what it held. -/
def getAttr (a : ItemAttributes) (type : ItemAttrTypes) (f : AttrValue → AttrValue)
    (hf : ∀ v, v = .zero ∨ v.Fits type → (f v).Fits type) : ItemAttributes where
  -- the bit of a type that is present is set already, so both ways through `getAttr` meet here
  attributes := Assoc.write type (fun o => f (o.getD .zero)) a.attributes
  attributeBits := a.attributeBits ||| type.bit
  nodup := Assoc.nodup_keys_write _ _ a.nodup
  bits := a.bits_insert (Assoc.mem_keys_write _ _ _)
  fits := Assoc.forall_mem_write _ _ (hf _ (.inl rfl)) (fun v hv => hf v (.inr hv)) a.fits

def setIntAttr (a : ItemAttributes) (type : ItemAttrTypes) (value : Int) : ItemAttributes :=
  if h : type.isIntAttrType = true then
    a.getAttr type (fun _ => .integer value) (fun _ _ => h)
  else a

def increaseIntAttr (a : ItemAttributes) (type : ItemAttrTypes) (value : Int) : ItemAttributes :=
  if h : type.isIntAttrType = true then
    a.getAttr type (fun v => .integer (v.getInteger + value)) (fun _ _ => h)
  else a

def setStrAttr (a : ItemAttributes) (type : ItemAttrTypes) (value : Bytes) : ItemAttributes :=
  if h : type.isStrAttrType = true ∧ value ≠ [] then
    a.getAttr type (fun _ => .string value) (fun _ _ => h)
  else a

def getIntAttr (a : ItemAttributes) (type : ItemAttrTypes) : Int :=
  if type.isIntAttrType then ((a.getExistingAttr type).map AttrValue.getInteger).getD 0 else 0

def getStrAttr (a : ItemAttributes) (type : ItemAttrTypes) : Bytes :=
  if type.isStrAttrType then ((a.getExistingAttr type).map AttrValue.getString).getD [] else []

def removeAttribute (a : ItemAttributes) (type : ItemAttrTypes) : ItemAttributes :=
  if a.hasAttribute type then
    { attributes := Assoc.swapErase type a.attributes
      attributeBits := a.attributeBits &&& ~~~ type.bit
      nodup := Assoc.nodup_keys_swapErase _ a.nodup
      bits := a.bits_erase (Assoc.mem_keys_swapErase _ a.nodup)
      fits := fun e he => a.fits e ((Assoc.mem_swapErase _ a.nodup e).mp he).1 }
  else a

/-! ### Custom attributes -/

/-- `tolower` in the C locale. -/
def toLower (c : UInt8) : UInt8 := if 65 ≤ c ∧ c ≤ 90 then c + 32 else c

def toLowerCaseString (s : Bytes) : Bytes := s.map toLower

theorem keys_getCustom_nodup {v : AttrValue} (h : v = .zero ∨ v.Fits .CUSTOM) :
    (Assoc.keys v.getCustom).Nodup := by
  cases v with
  | integer n => exact List.nodup_nil
  | string s => exact List.nodup_nil
  | custom m =>
    rcases h with h | h
    · cases h
    · exact h.2

def getCustomAttributeMap (a : ItemAttributes) : Option CustomAttributeMap :=
  (a.getExistingAttr .CUSTOM).map AttrValue.getCustom

def getCustomAttribute (a : ItemAttributes) (key : Bytes) : Option CustomAttribute :=
  a.getCustomAttributeMap.bind (·.lookup (toLowerCaseString key))

def removeCustomAttribute (a : ItemAttributes) (key : Bytes) : ItemAttributes :=
  if (a.getCustomAttribute key).isSome then
    a.getAttr .CUSTOM (fun v => .custom (Assoc.swapErase (toLowerCaseString key) v.getCustom))
      (fun _ hv => ⟨rfl, Assoc.nodup_keys_swapErase _ (keys_getCustom_nodup hv)⟩)
  else a

/-- The old value of the key is erased, then the new one is emplaced; a first custom attribute
creates the map. -/
def setCustomAttribute (a : ItemAttributes) (key : Bytes) (value : CustomAttribute) : ItemAttributes :=
  (a.removeCustomAttribute key).getAttr .CUSTOM
    (fun v => .custom (Assoc.write (toLowerCaseString key) (fun _ => value) v.getCustom))
    (fun _ hv => ⟨rfl, Assoc.nodup_keys_write _ _ (keys_getCustom_nodup hv)⟩)

/-! ### The store as a partial function -/

/-- What the store holds for a type. -/
def lookup (a : ItemAttributes) (type : ItemAttrTypes) : Option AttrValue := a.attributes.lookup type

theorem hasAttribute_eq (a : ItemAttributes) (type : ItemAttrTypes) :
    a.hasAttribute type = (a.lookup type).isSome := by
  rw [Bool.eq_iff_iff, hasAttribute_iff, lookup, Assoc.lookup_isSome_iff_mem_keys]

theorem getExistingAttr_eq (a : ItemAttributes) (type : ItemAttrTypes) :
    a.getExistingAttr type = a.lookup type := by
  unfold getExistingAttr
  split
  · rfl
  · next h =>
    rw [hasAttribute_eq, Bool.not_eq_true, Option.isSome_eq_false_iff, Option.isNone_iff_eq_none] at h
    exact h.symm

theorem lookup_fits {a : ItemAttributes} {type : ItemAttrTypes} {v : AttrValue}
    (h : a.lookup type = some v) : v.Fits type :=
  a.fits _ ((Assoc.lookup_eq_some_iff_mem a.nodup _ _).mp h)

@[simp] theorem lookup_empty (type : ItemAttrTypes) : empty.lookup type = none := rfl

theorem lookup_getAttr (a : ItemAttributes) (type : ItemAttrTypes) (f : AttrValue → AttrValue)
    (hf : ∀ v, v = .zero ∨ v.Fits type → (f v).Fits type) (t : ItemAttrTypes) :
    (a.getAttr type f hf).lookup t =
      if t = type then some (f ((a.lookup type).getD .zero)) else a.lookup t :=
  Assoc.lookup_write _ _ _ _

theorem lookup_setIntAttr (a : ItemAttributes) {type : ItemAttrTypes} (h : type.isIntAttrType = true)
    (value : Int) (t : ItemAttrTypes) :
    (a.setIntAttr type value).lookup t = if t = type then some (.integer value) else a.lookup t := by
  rw [setIntAttr, dif_pos h]
  exact lookup_getAttr _ _ _ _ _

theorem setIntAttr_of_not_int (a : ItemAttributes) {type : ItemAttrTypes}
    (h : type.isIntAttrType = false) (value : Int) : a.setIntAttr type value = a := by
  simp [setIntAttr, h]

theorem lookup_setStrAttr (a : ItemAttributes) {type : ItemAttrTypes} (h : type.isStrAttrType = true)
    {value : Bytes} (hv : value ≠ []) (t : ItemAttrTypes) :
    (a.setStrAttr type value).lookup t = if t = type then some (.string value) else a.lookup t := by
  rw [setStrAttr, dif_pos ⟨h, hv⟩]
  exact lookup_getAttr _ _ _ _ _

theorem lookup_removeAttribute (a : ItemAttributes) (type t : ItemAttrTypes) :
    (a.removeAttribute type).lookup t = if t = type then none else a.lookup t := by
  unfold removeAttribute
  split
  · exact Assoc.lookup_swapErase _ a.nodup _
  · next h =>
    -- the type is absent: there is nothing to remove
    rw [hasAttribute_eq, Bool.not_eq_true, Option.isSome_eq_false_iff, Option.isNone_iff_eq_none] at h
    by_cases ht : t = type
    · rw [if_pos ht, ht, h]
    · rw [if_neg ht]

theorem lookup_of_no_class (a : ItemAttributes) {type : ItemAttrTypes} (hi : type.isIntAttrType = false)
    (hs : type.isStrAttrType = false) (hc : type.isCustomAttrType = false) : a.lookup type = none := by
  by_contra h
  obtain ⟨v, hv⟩ := Option.ne_none_iff_exists'.mp h
  have hfits := lookup_fits hv
  cases v with
  | integer n => exact absurd hfits (by simp [AttrValue.Fits, hi])
  | string s => exact absurd hfits.1 (by simp [hs])
  | custom m => exact absurd hfits.1 (by simp [hc])

theorem lookup_setIntAttr_of_ne (a : ItemAttributes) {type t : ItemAttrTypes} (value : Int)
    (h : t ≠ type) : (a.setIntAttr type value).lookup t = a.lookup t := by
  cases hi : type.isIntAttrType with
  | false => rw [setIntAttr_of_not_int a hi]
  | true => rw [lookup_setIntAttr a hi, if_neg h]

theorem lookup_setStrAttr_of_ne (a : ItemAttributes) {type t : ItemAttrTypes} (value : Bytes)
    (h : t ≠ type) : (a.setStrAttr type value).lookup t = a.lookup t := by
  unfold setStrAttr
  split
  · exact (lookup_getAttr _ _ _ _ _).trans (if_neg h)
  · rfl

theorem getStrAttr_ne_nil {a : ItemAttributes} {type : ItemAttrTypes} (h : type.isStrAttrType = true)
    (ha : (a.lookup type).isSome = true) : a.getStrAttr type ≠ [] := by
  obtain ⟨v, hv⟩ := Option.isSome_iff_exists.mp ha
  have hget : a.getStrAttr type = v.getString := by
    simp [getStrAttr, h, getExistingAttr_eq, hv]
  have hfits := lookup_fits hv
  cases v with
  | integer n => exact absurd ((class_disjoint type).1 hfits).1 (by simp [h])
  | string s =>
    rw [hget]
    exact hfits.2
  | custom m => exact absurd ((class_disjoint type).2 h) (by simp [hfits.1])

/-! ### Custom attributes, key by key -/

theorem lookup_decide (m : CustomAttributeMap) (key : Bytes) :
    m.lookup key = @List.lookup _ _ instBEqOfDecidableEq key m :=
  congrArg (fun i : BEq Bytes => @List.lookup _ _ i key m) (lawful_beq_subsingleton _ _)

theorem getCustomAttribute_eq (a : ItemAttributes) (key : Bytes) :
    a.getCustomAttribute key
      = ((a.lookup .CUSTOM).map AttrValue.getCustom).bind (·.lookup (toLowerCaseString key)) := by
  unfold getCustomAttribute getCustomAttributeMap
  rw [getExistingAttr_eq]

theorem lookup_removeCustomAttribute_of_ne (a : ItemAttributes) (key : Bytes) {t : ItemAttrTypes}
    (h : t ≠ .CUSTOM) : (a.removeCustomAttribute key).lookup t = a.lookup t := by
  unfold removeCustomAttribute
  split
  · exact (lookup_getAttr _ _ _ _ _).trans (if_neg h)
  · rfl

theorem lookup_removeCustomAttribute_self {a : ItemAttributes} {key : Bytes}
    (h : (a.getCustomAttribute key).isSome = true) :
    (a.removeCustomAttribute key).lookup .CUSTOM = some (.custom
      (Assoc.swapErase (toLowerCaseString key) ((a.lookup .CUSTOM).getD .zero).getCustom)) := by
  unfold removeCustomAttribute
  rw [if_pos h]
  exact (lookup_getAttr _ _ _ _ _).trans (if_pos rfl)

theorem lookup_setCustomAttribute_of_ne (a : ItemAttributes) (key : Bytes) (value : CustomAttribute)
    {t : ItemAttrTypes} (h : t ≠ .CUSTOM) : (a.setCustomAttribute key value).lookup t = a.lookup t := by
  have hset : (a.setCustomAttribute key value).lookup t = (a.removeCustomAttribute key).lookup t :=
    (lookup_getAttr _ _ _ _ _).trans (if_neg h)
  rw [hset, lookup_removeCustomAttribute_of_ne a key h]

theorem lookup_setCustomAttribute_self (a : ItemAttributes) (key : Bytes) (value : CustomAttribute) :
    (a.setCustomAttribute key value).lookup .CUSTOM = some (.custom (Assoc.write (toLowerCaseString key)
      (fun _ => value) (((a.removeCustomAttribute key).lookup .CUSTOM).getD .zero).getCustom)) :=
  (lookup_getAttr _ _ _ _ _).trans (if_pos rfl)

theorem lookup_getCustom_remove (a : ItemAttributes) {key key' : Bytes}
    (h : toLowerCaseString key' ≠ toLowerCaseString key) :
    (((a.removeCustomAttribute key).lookup .CUSTOM).getD .zero).getCustom.lookup (toLowerCaseString key')
      = ((a.lookup .CUSTOM).getD .zero).getCustom.lookup (toLowerCaseString key') := by
  by_cases hk : (a.getCustomAttribute key).isSome = true
  · have hnd : (Assoc.keys ((a.lookup .CUSTOM).getD .zero).getCustom).Nodup := by
      cases hl : a.lookup .CUSTOM with
      | none => exact List.nodup_nil
      | some v => exact keys_getCustom_nodup (.inr (lookup_fits hl))
    rw [lookup_removeCustomAttribute_self hk, Option.getD_some]
    show (Assoc.swapErase _ _).lookup _ = _
    rw [lookup_decide, lookup_decide, Assoc.lookup_swapErase _ hnd, if_neg h]
  · rw [removeCustomAttribute, if_neg hk]

theorem getCustomAttribute_eq_getD (a : ItemAttributes) (key : Bytes) :
    a.getCustomAttribute key
      = ((a.lookup .CUSTOM).getD .zero).getCustom.lookup (toLowerCaseString key) := by
  rw [getCustomAttribute_eq]
  cases a.lookup .CUSTOM with
  | none => rfl
  | some v => rfl

theorem getCustomAttribute_setCustomAttribute (a : ItemAttributes) (key key' : Bytes)
    (value : CustomAttribute) :
    (a.setCustomAttribute key value).getCustomAttribute key' =
      if toLowerCaseString key' = toLowerCaseString key then some value
      else a.getCustomAttribute key' := by
  rw [getCustomAttribute_eq_getD, getCustomAttribute_eq_getD, lookup_setCustomAttribute_self,
    Option.getD_some]
  show (Assoc.write _ _ _).lookup _ = _
  rw [lookup_decide, Assoc.lookup_write]
  by_cases h : toLowerCaseString key' = toLowerCaseString key
  · rw [if_pos h, if_pos h]
  · rw [if_neg h, if_neg h, ← lookup_decide, lookup_getCustom_remove a h]

end ItemAttributes

end Moonlight
