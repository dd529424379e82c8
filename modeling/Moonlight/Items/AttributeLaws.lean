import Moonlight.Items.ItemAttributes
import Moonlight.Lib.Runs

/-!
# The laws of the attribute store

What an item relies on when it keeps a property in its `ItemAttributes` (items/item.h, items/item.cpp), whatever
was called before: the word of bits and the vector agree, a value that was set is read back, and setting or
removing one attribute leaves the others alone (`run_laws`).

A setter stores only values of the types of its class, and no empty string (`setStrAttr_nil`): a text is taken
away with `removeAttribute`. Of the types the setters of `Item` use, two belong to no class
(`unlisted_not_stored`).
-/

namespace Moonlight

/-- A call of a function of the store that changes it. -/
inductive AttributeCall where
  | setIntAttr (type : ItemAttrTypes) (value : Int)
  | setStrAttr (type : ItemAttrTypes) (value : Bytes)
  | increaseIntAttr (type : ItemAttrTypes) (value : Int)
  | setCustomAttribute (key : Bytes) (value : CustomAttribute)
  | removeCustomAttribute (key : Bytes)
  | removeAttribute (type : ItemAttrTypes)

namespace ItemAttributes

def step (a : ItemAttributes) : AttributeCall → ItemAttributes
  | .setIntAttr type value => a.setIntAttr type value
  | .setStrAttr type value => a.setStrAttr type value
  | .increaseIntAttr type value => a.increaseIntAttr type value
  | .setCustomAttribute key value => a.setCustomAttribute key value
  | .removeCustomAttribute key => a.removeCustomAttribute key
  | .removeAttribute type => a.removeAttribute type

/-- The attributes of all types but one are what they were. -/
def OnlyChanges (a a' : ItemAttributes) (type : ItemAttrTypes) : Prop :=
  ∀ t, t ≠ type → a'.getExistingAttr t = a.getExistingAttr t

structure Laws (a : ItemAttributes) : Prop where
  /-- The bits are those of the types in the vector. -/
  bits : ∀ i, a.attributeBits.getLsbD i = true ↔ ∃ attr ∈ a.attributes, attr.1.shift = i
  /-- No type is in the vector twice. -/
  once : (a.attributes.map Prod.fst).Nodup
  setInt : ∀ type value, type.isIntAttrType = true →
    (a.setIntAttr type value).getIntAttr type = value ∧ a.OnlyChanges (a.setIntAttr type value) type
  setStr : ∀ type value, type.isStrAttrType = true → value ≠ [] →
    (a.setStrAttr type value).getStrAttr type = value ∧ a.OnlyChanges (a.setStrAttr type value) type
  setStr_nil : ∀ type, a.setStrAttr type [] = a
  remove : ∀ type, (a.removeAttribute type).getExistingAttr type = none ∧
    (a.removeAttribute type).getIntAttr type = 0 ∧ (a.removeAttribute type).getStrAttr type = [] ∧
    a.OnlyChanges (a.removeAttribute type) type

variable (a : ItemAttributes)

theorem getIntAttr_eq {type : ItemAttrTypes} (h : type.isIntAttrType = true) :
    a.getIntAttr type = ((a.lookup type).map AttrValue.getInteger).getD 0 := by
  rw [getIntAttr, if_pos h, getExistingAttr_eq]

theorem getStrAttr_eq {type : ItemAttrTypes} (h : type.isStrAttrType = true) :
    a.getStrAttr type = ((a.lookup type).map AttrValue.getString).getD [] := by
  rw [getStrAttr, if_pos h, getExistingAttr_eq]

theorem default_of_lookup_none {type : ItemAttrTypes} (h : a.lookup type = none) :
    a.getExistingAttr type = none ∧ a.getIntAttr type = 0 ∧ a.getStrAttr type = [] := by
  have hexisting : a.getExistingAttr type = none := (a.getExistingAttr_eq type).trans h
  refine ⟨hexisting, ?_, ?_⟩
  -- a type of another class reads as the default, too
  · unfold getIntAttr
    rw [hexisting]
    split <;> rfl
  · unfold getStrAttr
    rw [hexisting]
    split <;> rfl

theorem onlyChanges_of_lookup {a a' : ItemAttributes} {type : ItemAttrTypes}
    (h : ∀ t, t ≠ type → a'.lookup t = a.lookup t) : a.OnlyChanges a' type := by
  intro t ht
  rw [getExistingAttr_eq, getExistingAttr_eq, h t ht]

theorem getIntAttr_setIntAttr {type : ItemAttrTypes} (h : type.isIntAttrType = true) (value : Int) :
    (a.setIntAttr type value).getIntAttr type = value := by
  rw [getIntAttr_eq _ h, lookup_setIntAttr a h, if_pos rfl]
  rfl

theorem getStrAttr_setStrAttr {type : ItemAttrTypes} (h : type.isStrAttrType = true) {value : Bytes}
    (hvalue : value ≠ []) : (a.setStrAttr type value).getStrAttr type = value := by
  rw [getStrAttr_eq _ h, lookup_setStrAttr a h hvalue, if_pos rfl]
  rfl

theorem setStrAttr_nil (type : ItemAttrTypes) : a.setStrAttr type [] = a :=
  dif_neg fun h => h.2 rfl

theorem removeAttribute_default (type : ItemAttrTypes) :
    (a.removeAttribute type).getExistingAttr type = none ∧ (a.removeAttribute type).getIntAttr type = 0 ∧
      (a.removeAttribute type).getStrAttr type = [] :=
  default_of_lookup_none _ ((lookup_removeAttribute a type type).trans (if_pos rfl))

theorem laws : Laws a where
  bits i := by
    rw [a.bits]
    constructor
    · rintro ⟨type, htype, hi⟩
      obtain ⟨attr, hattr, rfl⟩ := List.mem_map.mp htype
      exact ⟨attr, hattr, hi⟩
    · rintro ⟨attr, hattr, hi⟩
      exact ⟨attr.1, List.mem_map_of_mem hattr, hi⟩
  once := a.nodup
  -- a setter of the class of the type reads back; the others are not touched
  setInt type value h :=
    ⟨a.getIntAttr_setIntAttr h value, onlyChanges_of_lookup fun _ => a.lookup_setIntAttr_of_ne value⟩
  setStr type value h hvalue :=
    ⟨a.getStrAttr_setStrAttr h hvalue, onlyChanges_of_lookup fun _ => a.lookup_setStrAttr_of_ne value⟩
  setStr_nil := a.setStrAttr_nil
  remove type := by
    obtain ⟨hexisting, hint, hstr⟩ := a.removeAttribute_default type
    refine ⟨hexisting, hint, hstr, onlyChanges_of_lookup fun t ht => ?_⟩
    rw [lookup_removeAttribute, if_neg ht]

/-- **The laws**, after any calls on a new store. -/
theorem run_laws (calls : List AttributeCall) : Laws (Runs.run step empty calls) := laws _

theorem unlisted_not_stored (calls : List AttributeCall) :
    (Runs.run step empty calls).lookup .DURATION_TIMESTAMP = none ∧
      (Runs.run step empty calls).lookup .IMBUEMENT_TYPE = none :=
  ⟨lookup_of_no_class _ rfl rfl rfl, lookup_of_no_class _ rfl rfl rfl⟩

/-- An empty text is set after the text `A`, and a timestamp is set. -/
theorem emptyText_timestamp_not_read :
    ((Runs.run step empty [.setStrAttr .TEXT [65]]).setStrAttr .TEXT []).getStrAttr .TEXT ≠ [] ∧
      ((Runs.run step empty []).setIntAttr .DURATION_TIMESTAMP 1000).getIntAttr .DURATION_TIMESTAMP ≠ 1000 := by
  refine ⟨?_, by decide⟩
  -- the text `A` is still there
  rw [setStrAttr_nil]
  exact fun h => absurd ((getStrAttr_setStrAttr empty rfl (List.cons_ne_nil 65 [])).symm.trans h)
    (List.cons_ne_nil _ _)

end ItemAttributes

end Moonlight
