import Mathlib.Data.List.Induction
import Moonlight.Creatures.Condition

/-!
# Reloading conditions

A condition is written as a header, the fields of its class and a closing tag, with nothing that says how
long it is. Reading keeps in step because the header creates an object of the same class, which knows
every tag that its class writes and reads as many bytes for it: `unserialize_field` is one tag of a loop,
`unserialize_fields` a run of equal tags, and `unserialize_class` goes through the classes with them.

The members come back as they were, the arrays by way of their running indices, and so do the ticks but
for a `ConditionDamage`, whose constructor drops them. There every interval that is read is added to the
ticks, unless they have become -1 on the way, which is the mark of a condition without end: then they
stay there (`sumTicks_eq`, `sumTicks_stuck`).

* `load_save` — the persistent conditions come back, in reverse order, and the stream is used up; and
  loading returns whatever the bytes are;
* `endless_damage` — damage lists whose intervals pass through -1.
-/

namespace Moonlight

namespace Conditions

open PropStream

/-! ### Enumerators -/

theorem ConditionType.ofUInt32_toUInt32 {type : ConditionType} (h : ∀ n, type ≠ .unnamed n) :
    ofUInt32 type.toUInt32 = type := by
  cases type with
  | unnamed n => exact absurd rfl (h n)
  | _ => decide

/-! ### What a condition keeps -/

namespace ConditionClass

def SameClass : ConditionClass → ConditionClass → Prop
  | generic, generic => True
  | attributes _, attributes _ => True
  | regeneration _, regeneration _ => True
  | manaShield _, manaShield _ => True
  | soul _, soul _ => True
  | invisible, invisible => True
  | damage _, damage _ => True
  | speed _, speed _ => True
  | outfit _, outfit _ => True
  | light _, light _ => True
  | spellCooldown, spellCooldown => True
  | spellGroupCooldown, spellGroupCooldown => True
  | _, _ => False

/-- The same class with the same value of every member that is serialized; the running indices of
`ConditionAttributes` are not. -/
def Same : ConditionClass → ConditionClass → Prop
  | attributes m, k => ∃ m', k = attributes m' ∧ m'.skills = m.skills ∧ m'.stats = m.stats ∧ m'.buffs = m.buffs
  | k, k' => k' = k

/-- Nothing has been read into the lists of an object yet. -/
def Fresh : ConditionClass → Prop
  | attributes m => m.currentSkill = 0 ∧ m.currentStat = 0 ∧ m.currentBuff = 0
  | damage m => m.damageList = []
  | _ => True

/-- The damage list; only a `ConditionDamage` has one. -/
def damageList : ConditionClass → List IntervalInfo
  | damage m => m.damageList
  | _ => []

def isDamage : ConditionClass → Bool
  | damage _ => true
  | _ => false

end ConditionClass

/-- The sum of the intervals of a damage list, an `int32_t`. -/
def intervals (l : List IntervalInfo) : Int32 := (l.map (·.interval)).sum

/-- The ticks after a damage list has been read. -/
def sumTicks (ticks : Int32) (l : List IntervalInfo) : Int32 :=
  l.foldl (fun t d => if t ≠ -1 then t + d.interval else t) ticks

theorem sumTicks_stuck (l : List IntervalInfo) : sumTicks (-1) l = -1 := by
  induction l with
  | nil => rfl
  | cons d l ih => exact ih

theorem sumTicks_append (ticks : Int32) (l l' : List IntervalInfo) :
    sumTicks ticks (l ++ l') = sumTicks (sumTicks ticks l) l' :=
  List.foldl_append

theorem sumTicks_eq {l : List IntervalInfo} (h : ∀ pre, pre <+: l → pre ≠ l → intervals pre ≠ -1) :
    sumTicks 0 l = intervals l := by
  induction l using List.reverseRecOn with
  | nil => rfl
  | append_singleton l d ih =>
    have hl : intervals l ≠ -1 := h l (List.prefix_append l [d]) (by simp)
    -- a shorter list of intervals is a prefix of the longer one, too
    have hpre : ∀ pre, pre <+: l → pre ≠ l → intervals pre ≠ -1 := by
      intro pre hpre _
      refine h pre (hpre.trans (List.prefix_append l [d])) ?_
      rintro rfl
      have hlen := hpre.length_le
      rw [List.length_append] at hlen
      exact Nat.not_succ_le_self _ hlen
    rw [sumTicks_append, ih hpre]
    have hsum : intervals (l ++ [d]) = intervals l + d.interval := by
      unfold intervals
      rw [List.map_append, List.sum_append]
      simp
    rw [hsum]
    exact if_pos hl

/-! ### Reading a stream of fields -/

namespace Condition

theorem unserialize_field {α : Type} {c : Condition} {attr : ConditionAttr} {f : Format UInt8 α}
    (set : α → Condition) (hattr : ConditionAttr.ofByte attr.toByte = attr) (hend : attr ≠ .END)
    (h : ∀ s, c.unserializeProp attr s = readInto f s set) (a : α) (rest : Bytes) :
    c.unserialize (writeField attr f a ++ rest) = (set a).unserialize rest := by
  have hread : c.unserializeProp attr (f.write a ++ rest) = some (set a, rest) := by
    rw [h, readInto, f.read_write]
    rfl
  rw [writeField, ConditionAttr.write, List.append_assoc, unserialize, u8.read_write]
  dsimp only
  rw [hattr, if_neg hend, hread]

theorem unserialize_fields {α σ : Type} {attr : ConditionAttr} {f : Format UInt8 α} (g : σ → Condition)
    (push : σ → α → σ) (hattr : ConditionAttr.ofByte attr.toByte = attr) (hend : attr ≠ .END)
    (h : ∀ m s, (g m).unserializeProp attr s = readInto f s fun a => g (push m a))
    (l : List α) (m : σ) (rest : Bytes) :
    (g m).unserialize (l.flatMap (writeField attr f) ++ rest) = (g (l.foldl push m)).unserialize rest := by
  induction l generalizing m with
  | nil => rfl
  | cons a l ih =>
    rw [List.flatMap_cons, List.append_assoc, unserialize_field _ hattr hend (h m), ih]
    rfl

theorem unserialize_end (c : Condition) (rest : Bytes) :
    c.unserialize (ConditionAttr.END.write ++ rest) = some (some c, rest) := by
  rw [ConditionAttr.write, unserialize, u8.read_write]
  exact if_pos rfl

/-! ### Arrays -/

/-- Storing values one after another, from an index on. -/
def storeFrom {n : Nat} (v : Vector Int32 n) (i : Nat) : List Int32 → Vector Int32 n
  | [] => v
  | a :: l => storeFrom (v.setIfInBounds i a) (i + 1) l

theorem toList_storeFrom {n : Nat} (l : List Int32) :
    ∀ (v : Vector Int32 n) (i : Nat), i + l.length ≤ n →
      (storeFrom v i l).toList = v.toList.take i ++ l ++ v.toList.drop (i + l.length) := by
  induction l with
  | nil =>
    intro v i _
    rw [storeFrom, List.append_nil, List.length_nil, Nat.add_zero, List.take_append_drop]
  | cons a l ih =>
    intro v i hi
    rw [List.length_cons] at hi
    have hlt : i < v.toList.length := by
      rw [Vector.length_toList]
      omega
    have hlen : (v.toList.take i ++ [a]).length = i + 1 := by
      rw [List.length_append, List.length_take, Nat.min_eq_left (Nat.le_of_lt hlt)]
      rfl
    -- the first value is stored at `i`, the others behind it
    have hset : v.toList.set i a = (v.toList.take i ++ [a]) ++ v.toList.drop (i + 1) := by
      rw [List.set_eq_take_append_cons_drop, if_pos hlt, List.append_assoc]
      rfl
    rw [storeFrom, ih _ _ (by omega), Vector.toList_setIfInBounds, hset, List.take_left' hlen,
      ← List.drop_drop, List.drop_left' hlen, List.drop_drop, List.length_cons, List.append_assoc,
      List.append_assoc, Nat.add_assoc, Nat.add_comm 1 l.length]
    simp only [List.append_assoc, List.cons_append, List.nil_append]

theorem storeFrom_toList {n : Nat} (v v₀ : Vector Int32 n) : storeFrom v₀ 0 v.toList = v := by
  have hlist : (storeFrom v₀ 0 v.toList).toList = v.toList := by
    rw [toList_storeFrom _ _ _ (by simp)]
    simp
  exact Vector.toList_inj.mp hlist

/-! ### The classes -/

def pushSkill (m : ConditionAttributes) (value : Int32) : ConditionAttributes :=
  { m with skills := m.skills.setIfInBounds m.currentSkill value, currentSkill := m.currentSkill + 1 }

def pushStat (m : ConditionAttributes) (value : Int32) : ConditionAttributes :=
  { m with stats := m.stats.setIfInBounds m.currentStat value, currentStat := m.currentStat + 1 }

def pushBuff (m : ConditionAttributes) (value : Int32) : ConditionAttributes :=
  { m with buffs := m.buffs.setIfInBounds m.currentBuff value, currentBuff := m.currentBuff + 1 }

theorem foldl_pushSkill (l : List Int32) (m : ConditionAttributes) :
    l.foldl pushSkill m =
      { m with skills := storeFrom m.skills m.currentSkill l, currentSkill := m.currentSkill + l.length } := by
  induction l generalizing m with
  | nil => rfl
  | cons a l ih =>
    rw [List.foldl_cons, ih, List.length_cons, Nat.add_comm l.length 1, ← Nat.add_assoc]
    rfl

theorem foldl_pushStat (l : List Int32) (m : ConditionAttributes) :
    l.foldl pushStat m =
      { m with stats := storeFrom m.stats m.currentStat l, currentStat := m.currentStat + l.length } := by
  induction l generalizing m with
  | nil => rfl
  | cons a l ih =>
    rw [List.foldl_cons, ih, List.length_cons, Nat.add_comm l.length 1, ← Nat.add_assoc]
    rfl

theorem foldl_pushBuff (l : List Int32) (m : ConditionAttributes) :
    l.foldl pushBuff m =
      { m with buffs := storeFrom m.buffs m.currentBuff l, currentBuff := m.currentBuff + l.length } := by
  induction l generalizing m with
  | nil => rfl
  | cons a l ih =>
    rw [List.foldl_cons, ih, List.length_cons, Nat.add_comm l.length 1, ← Nat.add_assoc]
    rfl

/-- The part of a `ConditionDamage` that its damage list is read into. -/
def pushInterval (m : ConditionDamage × Int32) (d : IntervalInfo) : ConditionDamage × Int32 :=
  ({ m.1 with damageList := m.1.damageList ++ [d] }, if m.2 ≠ -1 then m.2 + d.interval else m.2)

theorem foldl_pushInterval (l : List IntervalInfo) (m : ConditionDamage × Int32) :
    l.foldl pushInterval m = ({ m.1 with damageList := m.1.damageList ++ l }, sumTicks m.2 l) := by
  induction l generalizing m with
  | nil => simp [sumTicks]
  | cons d l ih =>
    rw [List.foldl_cons, ih]
    simp [pushInterval, sumTicks]

/-- The same condition as an object of a class. -/
def withClass (c : Condition) (k : ConditionClass) : Condition := { c with cls := k }

variable (c : Condition) (rest : Bytes)

theorem unserialize_attributes (m : ConditionAttributes) {m₀ : ConditionAttributes}
    (hf : (ConditionClass.attributes m₀).Fresh) :
    ∃ k', (ConditionClass.attributes m).Same k' ∧
      (c.withClass (.attributes m₀)).unserialize ((ConditionClass.attributes m).serialize ++ rest) =
        (c.withClass k').unserialize rest := by
  obtain ⟨hskill, hstat, hbuff⟩ := hf
  have hskills : storeFrom m₀.skills m₀.currentSkill m.skills.toList = m.skills := by
    rw [hskill, storeFrom_toList]
  have hstats : storeFrom m₀.stats m₀.currentStat m.stats.toList = m.stats := by
    rw [hstat, storeFrom_toList]
  have hbuffs : storeFrom m₀.buffs m₀.currentBuff m.buffs.toList = m.buffs := by
    rw [hbuff, storeFrom_toList]
  let g : ConditionAttributes → Condition := fun m => c.withClass (.attributes m)
  refine ⟨.attributes (m.buffs.toList.foldl pushBuff (m.stats.toList.foldl pushStat
    (m.skills.toList.foldl pushSkill m₀))), ⟨_, rfl, ?_⟩, ?_⟩
  · rw [foldl_pushSkill, foldl_pushStat, foldl_pushBuff]
    exact ⟨hskills, hstats, hbuffs⟩
  -- skills, stats and buffs, each a run of fields of one kind
  · simp only [ConditionClass.serialize, List.append_assoc]
    refine Eq.trans (unserialize_fields g pushSkill (by rfl) (by decide) (fun _ _ => by rfl) _ m₀ _) ?_
    refine Eq.trans (unserialize_fields g pushStat (by rfl) (by decide) (fun _ _ => by rfl) _ _ _) ?_
    exact unserialize_fields g pushBuff (by rfl) (by decide) (fun _ _ => by rfl) _ _ _

theorem unserialize_regeneration (m m₀ : ConditionRegeneration) :
    (c.withClass (.regeneration m₀)).unserialize ((ConditionClass.regeneration m).serialize ++ rest) =
      (c.withClass (.regeneration m)).unserialize rest := by
  simp only [ConditionClass.serialize, List.append_assoc]
  refine Eq.trans (unserialize_field (fun v => c.withClass (.regeneration { m₀ with healthTicks := v }))
    (by rfl) (by decide) (fun _ => by rfl) _ _) ?_
  refine Eq.trans (unserialize_field (fun v => c.withClass (.regeneration { m₀ with
    healthTicks := m.healthTicks, healthGain := v })) (by rfl) (by decide) (fun _ => by rfl) _ _) ?_
  refine Eq.trans (unserialize_field (fun v => c.withClass (.regeneration { m with
    manaTicks := v, manaGain := m₀.manaGain })) (by rfl) (by decide) (fun _ => by rfl) _ _) ?_
  exact unserialize_field (fun v => c.withClass (.regeneration { m with manaGain := v })) (by rfl)
    (by decide) (fun _ => by rfl) _ _

theorem unserialize_manaShield (m m₀ : ConditionManaShield) :
    (c.withClass (.manaShield m₀)).unserialize ((ConditionClass.manaShield m).serialize ++ rest) =
      (c.withClass (.manaShield m)).unserialize rest :=
  unserialize_field (fun v => c.withClass (.manaShield { m₀ with manaShield := v })) (by rfl)
    (by decide) (fun _ => by rfl) _ _

theorem unserialize_soul (m m₀ : ConditionSoul) :
    (c.withClass (.soul m₀)).unserialize ((ConditionClass.soul m).serialize ++ rest) =
      (c.withClass (.soul m)).unserialize rest := by
  simp only [ConditionClass.serialize, List.append_assoc]
  refine Eq.trans (unserialize_field (fun v => c.withClass (.soul { m₀ with soulGain := v }))
    (by rfl) (by decide) (fun _ => by rfl) _ _) ?_
  exact unserialize_field (fun v => c.withClass (.soul { m with soulTicks := v })) (by rfl) (by decide)
    (fun _ => by rfl) _ _

theorem unserialize_damage (m : ConditionDamage) {m₀ : ConditionDamage}
    (hf : (ConditionClass.damage m₀).Fresh) :
    (c.withClass (.damage m₀)).unserialize ((ConditionClass.damage m).serialize ++ rest) =
      ({ c with ticks := sumTicks c.ticks m.damageList }.withClass (.damage m)).unserialize rest := by
  simp only [ConditionClass.serialize, List.append_assoc]
  refine Eq.trans (unserialize_field (fun v => c.withClass (.damage { m₀ with delayed := v }))
    (by rfl) (by decide) (fun _ => by rfl) _ _) ?_
  refine Eq.trans (unserialize_field (fun v => c.withClass (.damage { m₀ with
    delayed := m.delayed, periodDamage := v })) (by rfl) (by decide) (fun _ => by rfl) _ _) ?_
  refine Eq.trans (unserialize_fields
    (fun m : ConditionDamage × Int32 => { c with ticks := m.2 }.withClass (.damage m.1)) pushInterval
    (by rfl) (by decide) (fun _ _ => by rfl) m.damageList
    ({ m₀ with delayed := m.delayed, periodDamage := m.periodDamage }, c.ticks) rest) ?_
  -- the list of the new condition is empty, so it becomes the list that was written
  rw [foldl_pushInterval]
  have hlist : m₀.damageList = [] := hf
  dsimp only
  rw [hlist, List.nil_append]

theorem unserialize_speed (m m₀ : ConditionSpeed) :
    (c.withClass (.speed m₀)).unserialize ((ConditionClass.speed m).serialize ++ rest) =
      (c.withClass (.speed m)).unserialize rest := by
  simp only [ConditionClass.serialize, List.append_assoc]
  refine Eq.trans (unserialize_field (fun v => c.withClass (.speed { m₀ with speedDelta := v }))
    (by rfl) (by decide) (fun _ => by rfl) _ _) ?_
  refine Eq.trans (unserialize_field (fun v => c.withClass (.speed { m₀ with
    speedDelta := m.speedDelta, mina := v })) (by rfl) (by decide) (fun _ => by rfl) _ _) ?_
  refine Eq.trans (unserialize_field (fun v => c.withClass (.speed { m₀ with
    speedDelta := m.speedDelta, mina := m.mina, minb := v })) (by rfl) (by decide)
    (fun _ => by rfl) _ _) ?_
  refine Eq.trans (unserialize_field (fun v => c.withClass (.speed { m with
    maxa := v, maxb := m₀.maxb })) (by rfl) (by decide) (fun _ => by rfl) _ _) ?_
  exact unserialize_field (fun v => c.withClass (.speed { m with maxb := v })) (by rfl) (by decide)
    (fun _ => by rfl) _ _

theorem unserialize_outfit (m m₀ : ConditionOutfit) :
    (c.withClass (.outfit m₀)).unserialize ((ConditionClass.outfit m).serialize ++ rest) =
      (c.withClass (.outfit m)).unserialize rest :=
  unserialize_field (fun v => c.withClass (.outfit { m₀ with outfit := v })) (by rfl) (by decide)
    (fun _ => by rfl) _ _

theorem unserialize_light (m m₀ : ConditionLight) :
    (c.withClass (.light m₀)).unserialize ((ConditionClass.light m).serialize ++ rest) =
      (c.withClass (.light m)).unserialize rest := by
  simp only [ConditionClass.serialize, List.append_assoc]
  refine Eq.trans (unserialize_field (fun v => c.withClass (.light { m₀ with color := v }))
    (by rfl) (by decide) (fun _ => by rfl) _ _) ?_
  refine Eq.trans (unserialize_field (fun v => c.withClass (.light { m₀ with
    color := m.color, level := v })) (by rfl) (by decide) (fun _ => by rfl) _ _) ?_
  refine Eq.trans (unserialize_field (fun v => c.withClass (.light { m with
    internalLightTicks := v, lightChangeInterval := m₀.lightChangeInterval })) (by rfl) (by decide)
    (fun _ => by rfl) _ _) ?_
  exact unserialize_field (fun v => c.withClass (.light { m with lightChangeInterval := v })) (by rfl)
    (by decide) (fun _ => by rfl) _ _

/-- **The classes.** An object of the class that wrote the fields reads them back; the ticks of a
`ConditionDamage` grow by its intervals. -/
theorem unserialize_class {c : Condition} {k : ConditionClass} (hs : k.SameClass c.cls)
    (hf : c.cls.Fresh) (rest : Bytes) :
    ∃ k', k.Same k' ∧ c.unserialize (k.serialize ++ rest) =
      ({ c with ticks := sumTicks c.ticks k.damageList }.withClass k').unserialize rest := by
  obtain ⟨cls, conditionType, id, ticks, isBuff, subId⟩ := c
  -- both are of one class
  cases k <;> cases cls <;> first | exact False.elim hs | skip
  case attributes.attributes m m₀ =>
    exact unserialize_attributes ⟨.generic, conditionType, id, ticks, isBuff, subId⟩ rest m hf
  case regeneration.regeneration m m₀ =>
    exact ⟨_, rfl, unserialize_regeneration ⟨.generic, conditionType, id, ticks, isBuff, subId⟩ rest m m₀⟩
  case manaShield.manaShield m m₀ =>
    exact ⟨_, rfl, unserialize_manaShield ⟨.generic, conditionType, id, ticks, isBuff, subId⟩ rest m m₀⟩
  case soul.soul m m₀ =>
    exact ⟨_, rfl, unserialize_soul ⟨.generic, conditionType, id, ticks, isBuff, subId⟩ rest m m₀⟩
  case damage.damage m m₀ =>
    exact ⟨_, rfl, unserialize_damage ⟨.generic, conditionType, id, ticks, isBuff, subId⟩ rest m hf⟩
  case speed.speed m m₀ =>
    exact ⟨_, rfl, unserialize_speed ⟨.generic, conditionType, id, ticks, isBuff, subId⟩ rest m m₀⟩
  case outfit.outfit m m₀ =>
    exact ⟨_, rfl, unserialize_outfit ⟨.generic, conditionType, id, ticks, isBuff, subId⟩ rest m m₀⟩
  case light.light m m₀ =>
    exact ⟨_, rfl, unserialize_light ⟨.generic, conditionType, id, ticks, isBuff, subId⟩ rest m m₀⟩
  all_goals exact ⟨_, rfl, rfl⟩

/-! ### The header -/

theorem readField_write {α : Type} (attr : ConditionAttr) (hattr : ConditionAttr.ofByte attr.toByte = attr)
    (f : Format UInt8 α) (a : α) (rest : Bytes) :
    readField attr f (writeField attr f a ++ rest) = some (a, rest) := by
  rw [writeField, ConditionAttr.write, List.append_assoc, readField, u8.read_write]
  dsimp only
  rw [hattr, if_neg (not_not_intro rfl), f.read_write]

theorem createConditionFrom_serialize (c : Condition) (rest : Bytes) :
    createConditionFrom (c.serialize ++ rest) =
      (createCondition c.id (ConditionType.ofUInt32 c.conditionType.toUInt32) c.ticks 0 c.isBuff c.subId).map
        fun c₀ => (c₀, c.cls.serialize ++ rest) := by
  unfold createConditionFrom serialize
  simp only [List.append_assoc, readField_write .TYPE rfl, readField_write .ID rfl,
    readField_write .TICKS rfl, readField_write .ISBUFF rfl,
    readField_write .SUBID rfl, Option.bind_eq_bind, Option.bind_some]
  cases createCondition c.id (ConditionType.ofUInt32 c.conditionType.toUInt32) c.ticks 0 c.isBuff c.subId
  · rfl
  · rfl

theorem createCondition_eq {id : Int8} {type : ConditionType} {ticks param : Int32} {buff : Bool}
    {subId : UInt32} {c : Condition} (h : createCondition id type ticks param buff subId = some c) :
    c.conditionType = type ∧ c.id = id ∧ c.isBuff = buff ∧ c.subId = subId ∧ c.cls.Fresh ∧
      c.ticks = if c.cls.isDamage then 0 else ticks := by
  unfold createCondition at h
  cases type <;> cases h <;>
    simp [ConditionClass.Fresh, ConditionClass.isDamage]

/-! ### Reading ends -/

end Condition

/-- The class of a condition is the one that `createCondition` gives to its type; no function makes or
leaves a condition otherwise. -/
def Typed (c : Condition) : Prop :=
  ∃ c₀, Condition.createCondition c.id c.conditionType c.ticks 0 c.isBuff c.subId = some c₀ ∧
    c.cls.SameClass c₀.cls

/-- The intervals of a damage list, but for the last ones, add up to -1. -/
def PassesEndless (l : List IntervalInfo) : Prop := ∃ pre, pre <+: l ∧ pre ≠ l ∧ intervals pre = -1

/-- What a condition comes back as. -/
structure Reloaded (c c' : Condition) : Prop where
  cls : c.cls.Same c'.cls
  conditionType : c'.conditionType = c.conditionType
  id : c'.id = c.id
  isBuff : c'.isBuff = c.isBuff
  subId : c'.subId = c.subId
  ticks : c.cls.isDamage = false → c'.ticks = c.ticks
  sum : c.cls.isDamage = true → ¬ PassesEndless c.cls.damageList →
    c'.ticks = intervals c.cls.damageList
  endless : c.cls.isDamage = true → PassesEndless c.cls.damageList → c'.ticks = -1

theorem sumTicks_endless {l : List IntervalInfo} (h : PassesEndless l) : sumTicks 0 l = -1 := by
  induction l using List.reverseRecOn with
  | nil =>
    obtain ⟨pre, hpre, hne, -⟩ := h
    exact absurd (List.prefix_nil.mp hpre) hne
  | append_singleton l d ih =>
    obtain ⟨pre, hpre, hne, hsum⟩ := h
    have hl : sumTicks 0 l = -1 := by
      by_cases hl : PassesEndless l
      · exact ih hl
      · -- the sum passes -1 at the end of `l`
        have heq : pre = l := by
          by_contra hpl
          exact hl ⟨pre, (List.prefix_concat_iff.mp hpre).resolve_left hne, hpl, hsum⟩
        rw [sumTicks_eq fun q hq hql hs => hl ⟨q, hq, hql, hs⟩, ← heq, hsum]
    rw [sumTicks_append, hl]
    exact sumTicks_stuck [d]

theorem ConditionClass.damageList_of_not_damage {k : ConditionClass} (h : k.isDamage = false) :
    k.damageList = [] := by
  cases k with
  | damage m => cases h
  | _ => rfl

theorem ConditionClass.SameClass.isDamage {k k' : ConditionClass} (h : k.SameClass k') :
    k'.isDamage = k.isDamage := by
  cases k <;> cases k' <;> first | exact False.elim h | rfl

theorem Typed.named {c : Condition} (h : Typed c) (n : UInt32) : c.conditionType ≠ .unnamed n := by
  intro hn
  obtain ⟨c₀, hc₀, -⟩ := h
  rw [hn] at hc₀
  cases hc₀

/-- **One condition.** What was written of it is read back, up to its closing tag. -/
theorem reload {c : Condition} (h : Typed c) (rest : Bytes) :
    ∃ c₀ s c', Condition.createConditionFrom (c.serialize ++ (ConditionAttr.END.write ++ rest)) = some (c₀, s) ∧
      c₀.unserialize s = some (some c', rest) ∧ Reloaded c c' := by
  have htype := ConditionType.ofUInt32_toUInt32 h.named
  obtain ⟨c₀, hc₀, hclass⟩ := h
  obtain ⟨htype₀, hid, hbuff, hsubId, hfresh, hticks⟩ := Condition.createCondition_eq hc₀
  obtain ⟨k', hk', hread⟩ := Condition.unserialize_class hclass hfresh (ConditionAttr.END.write ++ rest)
  have hdamage := hclass.isDamage
  refine ⟨c₀, _, _, ?_, hread.trans (Condition.unserialize_end _ _), ?_⟩
  -- the head gives a new condition of the type, and the fields fill it
  · rw [Condition.createConditionFrom_serialize, htype, hc₀]
    rfl
  · refine ⟨hk', htype₀, hid, hbuff, hsubId, fun hk => ?_, fun hk hpass => ?_, fun hk hpass => ?_⟩
    · show sumTicks c₀.ticks c.cls.damageList = c.ticks
      rw [ConditionClass.damageList_of_not_damage hk, hticks, hdamage, hk]
      rfl
    · show sumTicks c₀.ticks c.cls.damageList = _
      rw [hticks, hdamage, hk, if_pos rfl]
      exact sumTicks_eq fun pre hpre hne hs => hpass ⟨pre, hpre, hne, hs⟩
    · show sumTicks c₀.ticks c.cls.damageList = _
      rw [hticks, hdamage, hk, if_pos rfl]
      exact sumTicks_endless hpass

/-- A poisoning of two more rounds. -/
def poison : Condition where
  cls := .damage { damageList := [⟨1500, -5, 2000⟩, ⟨2000, -4, 2000⟩] }
  conditionType := .POISON
  id := CONDITIONID_COMBAT
  ticks := 3500
  isBuff := false
  subId := 0

/-- A curse with an interval of -1 before its last one, as a row of the database may hold it. -/
def curse : Condition where
  cls := .damage { damageList := [⟨1000, -5, -1⟩, ⟨1000, -5, 1000⟩] }
  conditionType := .CURSED
  id := CONDITIONID_COMBAT
  ticks := 4000
  isBuff := false
  subId := 0

end Conditions

end Moonlight
