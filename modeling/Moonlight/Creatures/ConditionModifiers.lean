import Moonlight.Creatures.Modifiers
import Moonlight.Lib.Runs

/-!
# Conditions that modify a creature

`ConditionSpeed` and `ConditionAttributes` (creatures/combat/condition.cpp) change the modifiers of a
creature when they start, change them back when they end, and do both at once when another condition of
their type, id and sub id is added over them. What they changed they remember in their own members,
percentages being turned into amounts on the way, so that ending takes back exactly what is remembered.

Two results about every run of `addCondition`, `removeCondition` and `executeConditions`:

* `run_amounts` — the modifiers less those of the active conditions never change. The argument is one
  quantity, `Creature.base`, that each start, refresh and end leaves as it is.
* `run_defence_iff` — `canUseDefense` is shared by all conditions that disable it and follows the active
  ones precisely as long as no start, refresh or end happens beside another condition in its way.
-/

namespace Moonlight

namespace Modifiers

open scoped Tally
open Conditions (ConditionType)

/-- What a call is told by its surroundings: the time, a random number between two bounds, which types of
conditions the creature suppresses, and how long it has yet to walk. -/
structure Env where
  now : Int64
  uniform_random : Int32 → Int32 → Int32
  isSuppress : ConditionType → Bool
  getWalkDelay : Creature → Int32

/-! ### `ConditionSpeed` -/

namespace ConditionSpeed

def getType (m : ConditionSpeed) : ConditionType :=
  match m.conditionType with
  | .HASTE => .HASTE
  | .PARALYZE => .PARALYZE

def getFormulaValues (m : ConditionSpeed) (var : Int32) : Int32 × Int32 :=
  ((var.toFloat32 * m.mina + m.minb).toInt32, (var.toFloat32 * m.maxa + m.maxb).toInt32)

/-- `speedDelta` is drawn when it is zero. -/
def drawSpeedDelta (env : Env) (m : ConditionSpeed) (c : Creature) : ConditionSpeed :=
  if m.speedDelta = 0 then
    let (min, max) := m.getFormulaValues c.getBaseSpeed.toInt32
    { m with speedDelta := env.uniform_random min max }
  else m

end ConditionSpeed

/-! ### `ConditionAttributes` -/

namespace ConditionAttributes

/-- `static_cast<int32_t>(value * ((percent - 100) / 100.f))`. -/
def percentOf (value : Float32) (percent : Int32) : Int32 :=
  (value * ((percent - 100).toFloat32 / 100)).toInt32

def updatePercentBuffs (m : ConditionAttributes) (c : Creature) : ConditionAttributes :=
  { m with
    buffs := fun i =>
      if m.buffsPercent i = 0 then m.buffs i else percentOf (c.getBuff i).toFloat32 (m.buffsPercent i) }

def updateBuffs (m : ConditionAttributes) (c : Creature) : Creature :=
  Creature.setEach .setBuff (fun i => m.buffs i ≠ 0) m.buffs Buff.all c

def updatePercentSkills (m : ConditionAttributes) (p : Player) : ConditionAttributes :=
  { m with
    skills := fun i =>
      if m.skillsPercent i = 0 then m.skills i
      else percentOf (p.getBaseSkill i).toUInt32.toInt32.toFloat32 (m.skillsPercent i) }

def updateSkills (m : ConditionAttributes) (c : Creature) : Creature :=
  Creature.setEach .setVarSkill (fun i => m.skills i ≠ 0) m.skills Skill.all c

/-- The maximum of the health is the virtual one of the creature. -/
def updatePercentStats (m : ConditionAttributes) (c : Creature) (p : Player) : ConditionAttributes :=
  { m with
    stats := fun i =>
      if m.statsPercent i = 0 then m.stats i
      else
        match i with
        | .MAXHITPOINTS => percentOf c.getMaxHealth.toFloat32 (m.statsPercent i)
        | .MAXMANAPOINTS => percentOf p.getMaxMana.toFloat32 (m.statsPercent i)
        | .SOULPOINTS => m.stats i
        | .MAGICPOINTS => percentOf p.getBaseMagicLevel.toFloat32 (m.statsPercent i)
        | .CAPACITY => (p.getCapacity.toFloat32 * ((m.statsPercent i).toFloat32 / 100)).toInt32 }

def updateStats (m : ConditionAttributes) (c : Creature) : Creature :=
  Creature.setEach .setVarStats (fun i => m.stats i ≠ 0) m.stats Stat.all c

/-- The part that `startCondition` and `addCondition` have in common. -/
def apply (m : ConditionAttributes) (c : Creature) : Creature × ConditionAttributes :=
  let m := m.updatePercentBuffs c
  let c := m.updateBuffs c
  match c.getPlayer with
  | none => (c, m)
  | some player =>
    let m := m.updatePercentSkills player
    let c := m.updateSkills c
    match c.getPlayer with
    | none => (c, m)
    | some player =>
      let m := m.updatePercentStats c player
      (m.updateStats c, m)

def endSkills (m : ConditionAttributes) (c : Creature) : Creature :=
  Creature.setEach .setVarSkill (fun i => m.skills i ≠ 0 ∨ m.skillsPercent i ≠ 0) (fun i => -m.skills i)
    Skill.all c

def endStats (m : ConditionAttributes) (c : Creature) : Creature :=
  Creature.setEach .setVarStats (fun i => m.stats i ≠ 0) (fun i => -m.stats i) Stat.all c

def endBuffs (m : ConditionAttributes) (c : Creature) : Creature :=
  Creature.setEach .setBuff (fun i => m.buffs i ≠ 0) (fun i => -m.buffs i) Buff.all c

def endCondition (m : ConditionAttributes) (c : Creature) : Creature :=
  let c :=
    match c.getPlayer with
    | some _ => m.endStats (m.endSkills c)
    | none => c
  let c := m.endBuffs c
  if m.disableDefense then c.setUseDefense true else c

end ConditionAttributes

/-! ### `Condition` -/

namespace Condition

def getType (cond : Condition) : ConditionType :=
  match cond.cls with
  | .speed m => m.getType
  | .attributes _ => .ATTRIBUTES

def setTicks (env : Env) (cond : Condition) (newTicks : Int32) : Condition :=
  { cond with ticks := newTicks, endTime := newTicks.toInt64 + env.now }

/-- `Condition::executeCondition`: whether the condition goes on. -/
def executeCondition (env : Env) (cond : Condition) (interval : Int32) : Bool × Condition :=
  if cond.ticks = -1 then (true, cond)
  else
    let cond := { cond with ticks := max 0 (cond.ticks - interval) }
    (cond.endTime ≥ env.now, cond)

def updateCondition (env : Env) (cond addCondition : Condition) : Bool :=
  if cond.getType ≠ addCondition.getType then false
  else if cond.ticks = -1 ∧ addCondition.ticks > 0 then false
  else if addCondition.ticks ≥ 0 ∧ cond.endTime > env.now + addCondition.ticks.toInt64 then false
  else true

/-- The virtual `startCondition`, which does not fail for these classes. -/
def startCondition (env : Env) (cond : Condition) (c : Creature) : Creature × Condition :=
  let cond := if cond.ticks > 0 then { cond with endTime := cond.ticks.toInt64 + env.now } else cond
  match cond.cls with
  | .speed m =>
    let m := m.drawSpeedDelta env c
    (c.changeSpeed m.speedDelta, { cond with cls := .speed m })
  | .attributes m =>
    let c := c.setUseDefense (!m.disableDefense)
    let (c, m) := m.apply c
    (c, { cond with cls := .attributes m })

/-- The virtual `addCondition`. Conditions of one type are of one class. -/
def addCondition (env : Env) (cond : Condition) (c : Creature) (addCondition : Condition) :
    Creature × Condition :=
  match cond.cls, addCondition.cls with
  | .speed m, .speed conditionSpeed =>
    if m.getType ≠ conditionSpeed.getType then (c, cond)
    else if cond.ticks = -1 ∧ addCondition.ticks > 0 then (c, cond)
    else
      let cond := cond.setTicks env addCondition.ticks
      let oldSpeedDelta := m.speedDelta
      let m := { conditionSpeed with conditionType := m.conditionType }
      let m := m.drawSpeedDelta env c
      let newSpeedChange := m.speedDelta - oldSpeedDelta
      let c := if newSpeedChange ≠ 0 then c.changeSpeed newSpeedChange else c
      (c, { cond with cls := .speed m })
  | .attributes m, .attributes conditionAttrs =>
    if cond.updateCondition env addCondition then
      let cond := cond.setTicks env addCondition.ticks
      let c := m.endCondition c
      let (c, m) := conditionAttrs.apply c
      (c, { cond with cls := .attributes m })
    else (c, cond)
  | _, _ => (c, cond)

/-- The virtual `endCondition`. -/
def endCondition (cond : Condition) (c : Creature) : Creature :=
  match cond.cls with
  | .speed m => c.changeSpeed (-m.speedDelta)
  | .attributes m => m.endCondition c

end Condition

/-! ### `Creature` -/

/-- What a loop over the conditions does with one of them: it goes on to the next, it erases the condition
from the list and ends it, or it returns. -/
inductive Verdict where
  | next (cond : Condition)
  | erase (cond : Condition)
  | stop

/-- The loops over the conditions of a creature, and the conditions that they leave. -/
def sweep (body : Creature → Condition → Verdict) : Creature → List Condition → Creature × List Condition
  | c, [] => (c, [])
  | c, cond :: rest =>
    match body c cond with
    | .next cond =>
      let (c, kept) := sweep body c rest
      (c, cond :: kept)
    | .erase cond => sweep body (cond.endCondition c) rest
    | .stop => (c, cond :: rest)

namespace Creature

def sweepConditions (c : Creature) (body : Creature → Condition → Verdict) : Creature :=
  let (c, conditions) := sweep body c c.conditions
  { c with conditions }

/-- `getCondition(type, conditionId, subId)`, as a place in the list. -/
def findCondition (c : Creature) (type : ConditionType) (conditionId : Int8) (subId : UInt32) : Option Nat :=
  c.conditions.findIdx? fun cond => cond.getType = type ∧ cond.id = conditionId ∧ cond.subId = subId

/-- `hasCondition(type)`. -/
def hasCondition (env : Env) (c : Creature) (type : ConditionType) : Bool :=
  if env.isSuppress type then false
  else
    c.conditions.any fun cond =>
      (cond.getType = type ∧ cond.subId = 0) && (cond.endTime ≥ env.now || cond.ticks = -1)

/-- `removeCondition(type)`. -/
def removeConditionType (c : Creature) (type : ConditionType) : Creature :=
  c.sweepConditions fun _ cond => if cond.getType ≠ type then .next cond else .erase cond

/-- `removeCondition(conditionType, conditionId, force)`. What it leaves for the scheduler is another call. -/
def removeConditionId (env : Env) (c : Creature) (conditionType : ConditionType) (conditionId : Int8)
    (force : Bool) : Creature :=
  c.sweepConditions fun c cond =>
    if cond.getType ≠ conditionType ∨ cond.id ≠ conditionId then .next cond
    else if ¬ force ∧ conditionType = .PARALYZE ∧ env.getWalkDelay c > 0 then .stop
    else .erase cond

/-- `removeCondition(condition)` of the condition at a place of the list; a place behind the list stands for
a condition that is not in it. -/
def removeConditionAt (c : Creature) (i : Nat) : Creature :=
  match c.conditions[i]? with
  | none => c
  | some cond => cond.endCondition { c with conditions := c.conditions.eraseIdx i }

def onAddCondition (env : Env) (c : Creature) (type : ConditionType) : Creature :=
  if type = .PARALYZE ∧ c.hasCondition env .HASTE then c.removeConditionType .HASTE
  else if type = .HASTE ∧ c.hasCondition env .PARALYZE then c.removeConditionType .PARALYZE
  else c

def addCondition (env : Env) (c : Creature) (cond : Condition) : Creature :=
  match c.findCondition cond.getType cond.id cond.subId with
  | some i =>
    match c.conditions[i]? with
    | some prevCond =>
      let (c, prevCond) := prevCond.addCondition env c cond
      { c with conditions := c.conditions.set i prevCond }
    | none => c
  | none =>
    let type := cond.getType
    let (c, cond) := cond.startCondition env c
    { c with conditions := c.conditions ++ [cond] }.onAddCondition env type

def executeConditions (env : Env) (c : Creature) (interval : UInt32) : Creature :=
  c.sweepConditions fun _ cond =>
    let (goesOn, cond) := cond.executeCondition env interval.toInt32
    if ¬ goesOn then .erase cond else .next cond

end Creature

/-! ### What the conditions amount to -/

open Creature Modifier

/-- What the attributes change, of which a creature that is no player takes the buffs only. -/
def ConditionAttributes.amounts (player : Bool) (m : ConditionAttributes) : Modifier → Int32 :=
  ofBuffs m.buffs + if player then ofSkills m.skills + ofStats m.stats else 0

def Condition.amounts (player : Bool) (cond : Condition) : Modifier → Int32 :=
  match cond.cls with
  | .speed m => ofSpeed m.speedDelta
  | .attributes m => m.amounts player

namespace ConditionAttributes

theorem updateBuffs_modifier (m : ConditionAttributes) (c : Creature) :
    (m.updateBuffs c).modifier = c.modifier + ofBuffs m.buffs :=
  setEach_setBuff _ _ (fun i hi => by simpa using hi) c

theorem updateSkills_modifier (m : ConditionAttributes) {c : Creature} (hc : c.IsPlayer) :
    (m.updateSkills c).modifier = c.modifier + ofSkills m.skills :=
  setEach_setVarSkill _ _ (fun i hi => by simpa using hi) hc

theorem updateStats_modifier (m : ConditionAttributes) {c : Creature} (hc : c.IsPlayer) :
    (m.updateStats c).modifier = c.modifier + ofStats m.stats :=
  setEach_setVarStats _ _ (fun i hi => by simpa using hi) hc

theorem frame_updateBuffs (m : ConditionAttributes) (c : Creature) : Frame c (m.updateBuffs c) :=
  frame_setEach frame_setBuff _ c

theorem frame_updateSkills (m : ConditionAttributes) (c : Creature) : Frame c (m.updateSkills c) :=
  frame_setEach frame_setVarSkill _ c

theorem frame_updateStats (m : ConditionAttributes) (c : Creature) : Frame c (m.updateStats c) :=
  frame_setEach frame_setVarStats _ c

theorem apply_spec (m : ConditionAttributes) (c : Creature) :
    Frame c (m.apply c).1 ∧ (m.apply c).2.disableDefense = m.disableDefense ∧
      (m.apply c).1.modifier = c.modifier + (m.apply c).2.amounts c.player.isSome := by
  set m₁ := m.updatePercentBuffs c with hm₁
  set c₁ := m₁.updateBuffs c with hc₁
  have hbuffs : c₁.modifier = c.modifier + ofBuffs m₁.buffs := updateBuffs_modifier m₁ c
  have hframe₁ : Frame c c₁ := frame_updateBuffs m₁ c
  have happly : m.apply c =
      match c₁.getPlayer with
      | none => (c₁, m₁)
      | some player =>
        match ((m₁.updatePercentSkills player).updateSkills c₁).getPlayer with
        | none => ((m₁.updatePercentSkills player).updateSkills c₁, m₁.updatePercentSkills player)
        | some player' =>
          let m₃ := (m₁.updatePercentSkills player).updatePercentStats
            ((m₁.updatePercentSkills player).updateSkills c₁) player'
          (m₃.updateStats ((m₁.updatePercentSkills player).updateSkills c₁), m₃) := rfl
  rw [happly]
  cases hp : c₁.getPlayer with
  | none =>
    have hnone : c.player.isSome = false := by
      rw [← hframe₁.isPlayer]
      exact Option.isSome_eq_false_iff.mpr (Option.isNone_iff_eq_none.mpr hp)
    refine ⟨hframe₁, rfl, ?_⟩
    rw [hbuffs, amounts, hnone, if_neg Bool.false_ne_true, add_zero]
  | some player =>
    have hsome : c₁.IsPlayer := Option.isSome_iff_exists.mpr ⟨player, hp⟩
    set m₂ := m₁.updatePercentSkills player with hm₂
    set c₂ := m₂.updateSkills c₁ with hc₂
    have hskills : c₂.modifier = c₁.modifier + ofSkills m₂.skills := updateSkills_modifier m₂ hsome
    have hframe₂ : Frame c₁ c₂ := frame_updateSkills m₂ c₁
    have hsome₂ : c₂.IsPlayer := hframe₂.isPlayer.trans hsome
    obtain ⟨player', hp'⟩ := Option.isSome_iff_exists.mp hsome₂
    have hget : c₂.getPlayer = some player' := hp'
    dsimp only
    rw [hget]
    have hstats := updateStats_modifier (m₂.updatePercentStats c₂ player') hsome₂
    refine ⟨(hframe₁.trans hframe₂).trans (frame_updateStats _ c₂), rfl, ?_⟩
    rw [hstats, hskills, hbuffs, amounts, ← hframe₁.isPlayer, hsome, if_pos rfl, add_assoc, add_assoc]
    rfl

theorem endSkills_modifier (m : ConditionAttributes) {c : Creature} (hc : c.IsPlayer) :
    (m.endSkills c).modifier = c.modifier - ofSkills m.skills := by
  have h := setEach_setVarSkill (fun i => m.skills i ≠ 0 ∨ m.skillsPercent i ≠ 0) (-m.skills)
    (fun i hi => by simp only [decide_eq_false_iff_not, not_or, not_not] at hi; simp [hi.1]) hc
  rw [ofSkills_neg, ← sub_eq_add_neg] at h
  exact h

theorem endStats_modifier (m : ConditionAttributes) {c : Creature} (hc : c.IsPlayer) :
    (m.endStats c).modifier = c.modifier - ofStats m.stats := by
  have h := setEach_setVarStats (fun i => m.stats i ≠ 0) (-m.stats)
    (fun i hi => by simp only [decide_eq_false_iff_not, not_not] at hi; simp [hi]) hc
  rw [ofStats_neg, ← sub_eq_add_neg] at h
  exact h

theorem endBuffs_modifier (m : ConditionAttributes) (c : Creature) :
    (m.endBuffs c).modifier = c.modifier - ofBuffs m.buffs := by
  have h := setEach_setBuff (fun i => m.buffs i ≠ 0) (-m.buffs)
    (fun i hi => by simp only [decide_eq_false_iff_not, not_not] at hi; simp [hi]) c
  rw [ofBuffs_neg, ← sub_eq_add_neg] at h
  exact h

theorem frame_endSkills (m : ConditionAttributes) (c : Creature) : Frame c (m.endSkills c) :=
  frame_setEach frame_setVarSkill _ c

theorem frame_endStats (m : ConditionAttributes) (c : Creature) : Frame c (m.endStats c) :=
  frame_setEach frame_setVarStats _ c

theorem frame_endBuffs (m : ConditionAttributes) (c : Creature) : Frame c (m.endBuffs c) :=
  frame_setEach frame_setBuff _ c

theorem endAmounts_spec (m : ConditionAttributes) (c : Creature) :
    let c' := m.endBuffs (match c.getPlayer with | some _ => m.endStats (m.endSkills c) | none => c)
    Frame c c' ∧ c'.modifier = c.modifier - m.amounts c.player.isSome := by
  dsimp only
  cases hp : c.getPlayer with
  | none =>
    have hnone : c.player.isSome = false := Option.isSome_eq_false_iff.mpr (Option.isNone_iff_eq_none.mpr hp)
    refine ⟨frame_endBuffs m c, ?_⟩
    rw [endBuffs_modifier, amounts, hnone, if_neg Bool.false_ne_true, add_zero]
  | some player =>
    have hsome : c.IsPlayer := Option.isSome_iff_exists.mpr ⟨player, hp⟩
    have hsome' : (m.endSkills c).IsPlayer := (frame_endSkills m c).isPlayer.trans hsome
    refine ⟨((frame_endSkills m c).trans (frame_endStats m _)).trans (frame_endBuffs m _), ?_⟩
    rw [endBuffs_modifier, endStats_modifier m hsome', endSkills_modifier m hsome, amounts,
      show c.player.isSome = true from hsome, if_pos rfl]
    abel

theorem endCondition_spec (m : ConditionAttributes) (c : Creature) :
    (m.endCondition c).conditions = c.conditions ∧ (m.endCondition c).player.isSome = c.player.isSome ∧
      (m.endCondition c).canUseDefense = (m.disableDefense || c.canUseDefense) ∧
      (m.endCondition c).modifier = c.modifier - m.amounts c.player.isSome := by
  obtain ⟨hframe, hmod⟩ := endAmounts_spec m c
  unfold endCondition
  cases hd : m.disableDefense with
  | true => exact ⟨hframe.conditions, hframe.isPlayer, rfl, hmod⟩
  | false => exact ⟨hframe.conditions, hframe.isPlayer, hframe.canUseDefense, hmod⟩

end ConditionAttributes

/-! ### One condition -/

/-- Whether the condition disables the defence. -/
def Condition.disables (cond : Condition) : Bool :=
  match cond.cls with
  | .speed _ => false
  | .attributes m => m.disableDefense

theorem Condition.disables_type {cond : Condition} (h : cond.disables = true) : cond.getType = .ATTRIBUTES := by
  unfold disables at h
  unfold getType
  cases hm : cond.cls with
  | speed m =>
    rw [hm] at h
    exact absurd h Bool.false_ne_true
  | attributes m => rfl

theorem ConditionSpeed.getType_ne (m : ConditionSpeed) : m.getType ≠ .ATTRIBUTES := by
  unfold getType
  cases m.conditionType
  · exact nofun
  · exact nofun

theorem Condition.type_attributes {cond : Condition} (h : cond.getType = .ATTRIBUTES) :
    ∃ m, cond.cls = .attributes m := by
  unfold getType at h
  cases hm : cond.cls with
  | speed m =>
    rw [hm] at h
    exact absurd h m.getType_ne
  | attributes m => exact ⟨m, rfl⟩

/-- What a start, a refresh and an end of a condition have in common: the conditions stay where they are, and
the modifiers change from the amounts `a` to the amounts `a'`. -/
structure Shift (c c' : Creature) (a a' : Modifier → Int32) : Prop where
  conditions : c'.conditions = c.conditions
  isPlayer : c'.player.isSome = c.player.isSome
  modifier : c'.modifier = c.modifier - a + a'

namespace Condition

theorem startCondition_speed (env : Env) {cond : Condition} {m : ConditionSpeed} (h : cond.cls = .speed m)
    (c : Creature) :
    ∃ cond', cond.startCondition env c = (c.changeSpeed (m.drawSpeedDelta env c).speedDelta, cond') ∧
      cond'.cls = .speed (m.drawSpeedDelta env c) := by
  unfold startCondition
  by_cases ht : cond.ticks > 0
  · simp only [if_pos ht, h]
    exact ⟨_, rfl, rfl⟩
  · simp only [if_neg ht, h]
    exact ⟨_, rfl, rfl⟩

theorem startCondition_attributes (env : Env) {cond : Condition} {m : ConditionAttributes}
    (h : cond.cls = .attributes m) (c : Creature) :
    ∃ cond', cond.startCondition env c = ((m.apply (c.setUseDefense (!m.disableDefense))).1, cond') ∧
      cond'.cls = .attributes (m.apply (c.setUseDefense (!m.disableDefense))).2 := by
  unfold startCondition
  by_cases ht : cond.ticks > 0
  · simp only [if_pos ht, h]
    exact ⟨_, rfl, rfl⟩
  · simp only [if_neg ht, h]
    exact ⟨_, rfl, rfl⟩

theorem startCondition_spec (env : Env) (cond : Condition) (c : Creature) :
    Shift c (cond.startCondition env c).1 0 ((cond.startCondition env c).2.amounts c.player.isSome) ∧
      (cond.startCondition env c).2.disables = cond.disables ∧
      (cond.startCondition env c).1.canUseDefense =
        match cond.cls with
        | .speed _ => c.canUseDefense
        | .attributes m => !m.disableDefense := by
  unfold amounts disables
  cases h : cond.cls with
  | speed m =>
    obtain ⟨cond', heq, hcls⟩ := startCondition_speed env h c
    have hframe := frame_changeSpeed c (m.drawSpeedDelta env c).speedDelta
    rw [heq, hcls]
    refine ⟨⟨hframe.conditions, hframe.isPlayer, ?_⟩, rfl, hframe.canUseDefense⟩
    rw [sub_zero]
    exact changeSpeed_modifier c _
  | attributes m =>
    obtain ⟨cond', heq, hcls⟩ := startCondition_attributes env h c
    obtain ⟨hframe, hdisable, hmod⟩ := m.apply_spec (c.setUseDefense (!m.disableDefense))
    rw [heq, hcls]
    refine ⟨⟨hframe.conditions, hframe.isPlayer, ?_⟩, hdisable, hframe.canUseDefense⟩
    rw [sub_zero]
    exact hmod

theorem addCondition_cases (env : Env) (cond : Condition) (c : Creature) (add : Condition) :
    (cond.addCondition env c add = (c, cond) ∧
        (cond.getType = .ATTRIBUTES → cond.updateCondition env add = false)) ∨
      (∃ m m' cond', cond.cls = .speed m ∧ cond'.cls = .speed m' ∧
        cond.addCondition env c add = (c.changeSpeed (m'.speedDelta - m.speedDelta), cond')) ∨
      ∃ m m' cond', cond.cls = .attributes m ∧ add.cls = .attributes m' ∧
        cond.updateCondition env add = true ∧ cond'.cls = .attributes (m'.apply (m.endCondition c)).2 ∧
        cond.addCondition env c add = ((m'.apply (m.endCondition c)).1, cond') := by
  unfold addCondition
  split
  case h_1 m conditionSpeed hm _ =>
    have hne : cond.getType ≠ .ATTRIBUTES := by
      unfold getType
      rw [hm]
      exact m.getType_ne
    split_ifs with htype hticks
    · exact .inl ⟨rfl, fun h => absurd h hne⟩
    · exact .inl ⟨rfl, fun h => absurd h hne⟩
    · let m' := ConditionSpeed.drawSpeedDelta env { conditionSpeed with conditionType := m.conditionType } c
      refine .inr (.inl ⟨m, m', { cond.setTicks env add.ticks with cls := .speed m' }, hm, rfl,
        Prod.ext ?_ rfl⟩)
      change (if m'.speedDelta - m.speedDelta ≠ 0 then _ else c) = _
      split_ifs with hchange
      · rfl
      · -- changing the speed by nothing
        rw [not_not.mp hchange, changeSpeed_eq, add_zero]
  case h_2 m conditionAttrs hm hadd =>
    split_ifs with hupdate
    · exact .inr (.inr ⟨m, _, _, hm, hadd, hupdate, rfl, rfl⟩)
    · exact .inl ⟨rfl, fun _ => Bool.not_eq_true _ ▸ hupdate⟩
  case h_3 _ hattributes =>
    -- the classes differ, and so do the types
    refine .inl ⟨rfl, fun htype => ?_⟩
    obtain ⟨m, hm⟩ := type_attributes htype
    unfold updateCondition
    rw [if_pos]
    intro hsame
    obtain ⟨m', hm'⟩ := type_attributes (hsame.symm.trans htype)
    exact hattributes m m' hm hm'

theorem addCondition_spec (env : Env) (cond : Condition) (c : Creature) (add : Condition) :
    Shift c (cond.addCondition env c add).1 (cond.amounts c.player.isSome)
      ((cond.addCondition env c add).2.amounts c.player.isSome) := by
  rcases cond.addCondition_cases env c add with ⟨heq, -⟩ | ⟨m, m', cond', hm, hm', heq⟩ |
    ⟨m, m', cond', hm, -, -, hm', heq⟩
  · rw [heq]
    exact ⟨rfl, rfl, (sub_add_cancel _ _).symm⟩
  · have hframe := frame_changeSpeed c (m'.speedDelta - m.speedDelta)
    rw [heq]
    refine ⟨hframe.conditions, hframe.isPlayer, ?_⟩
    unfold amounts
    rw [hm, hm', changeSpeed_modifier]
    dsimp only
    rw [ofSpeed_sub]
    abel
  · obtain ⟨hconds, hplayer, -, hend⟩ := m.endCondition_spec c
    obtain ⟨hframe, -, hmod⟩ := m'.apply_spec (m.endCondition c)
    rw [heq]
    refine ⟨hframe.conditions.trans hconds, hframe.isPlayer.trans hplayer, ?_⟩
    unfold amounts
    rw [hm, hm', hmod, hend, hplayer]

theorem endCondition_spec (cond : Condition) (c : Creature) :
    Shift c (cond.endCondition c) (cond.amounts c.player.isSome) 0 ∧
      (cond.endCondition c).canUseDefense = (cond.disables || c.canUseDefense) := by
  unfold endCondition amounts disables
  cases cond.cls with
  | speed m =>
    have hframe := frame_changeSpeed c (-m.speedDelta)
    refine ⟨⟨hframe.conditions, hframe.isPlayer, ?_⟩, hframe.canUseDefense⟩
    rw [changeSpeed_modifier, ofSpeed_neg, add_zero, sub_eq_add_neg]
  | attributes m =>
    obtain ⟨hconds, hplayer, hdefense, hmod⟩ := m.endCondition_spec c
    refine ⟨⟨hconds, hplayer, ?_⟩, hdefense⟩
    rw [hmod, add_zero]

end Condition

/-! ### The modifiers less those of the conditions -/

/-- What the modifiers of the creature would be without its conditions. -/
def Creature.base (c : Creature) : Modifier → Int32 :=
  c.modifier - Tally.total (Condition.amounts c.player.isSome) c.conditions

/-- The condition is handed on as it was, but for its ticks. -/
def Verdict.Keeps (cond : Condition) : Verdict → Prop
  | .next cond' => cond'.cls = cond.cls
  | .erase cond' => cond'.cls = cond.cls
  | .stop => True

/-- A loop over the conditions that looks at them, or counts them down, but does not touch what they do. -/
def Harmless (body : Creature → Condition → Verdict) : Prop := ∀ c cond, (body c cond).Keeps cond

theorem Condition.amounts_congr {cond cond' : Condition} (h : cond'.cls = cond.cls) (player : Bool) :
    cond'.amounts player = cond.amounts player := by
  unfold amounts
  rw [h]

theorem sweep_spec {body : Creature → Condition → Verdict} (hbody : Harmless body) (c : Creature)
    (l : List Condition) :
    Shift c (sweep body c l).1 (Tally.total (Condition.amounts c.player.isSome) l)
      (Tally.total (Condition.amounts c.player.isSome) (sweep body c l).2) := by
  induction l generalizing c with
  | nil => exact ⟨rfl, rfl, (sub_add_cancel _ _).symm⟩
  | cons cond rest ih =>
    have hcond := hbody c cond
    rw [sweep]
    cases hv : body c cond with
    | next cond' =>
      rw [hv] at hcond
      obtain ⟨hconds, hplayer, hmod⟩ := ih c
      refine ⟨hconds, hplayer, ?_⟩
      dsimp only
      rw [hmod, Tally.total_cons, Tally.total_cons, Condition.amounts_congr hcond]
      abel
    | erase cond' =>
      rw [hv] at hcond
      obtain ⟨⟨hconds, hplayer, hmod⟩, -⟩ := cond'.endCondition_spec c
      obtain ⟨hconds', hplayer', hmod'⟩ := ih (cond'.endCondition c)
      refine ⟨hconds'.trans hconds, hplayer'.trans hplayer, ?_⟩
      dsimp only
      rw [hplayer] at hmod'
      rw [hmod', hmod, Tally.total_cons, Condition.amounts_congr hcond]
      abel
    | stop => exact ⟨rfl, rfl, (sub_add_cancel _ _).symm⟩

namespace Creature

theorem base_of_shift {c c' : Creature} {l : List Condition}
    (h : Shift c c' (Tally.total (Condition.amounts c.player.isSome) c.conditions)
      (Tally.total (Condition.amounts c.player.isSome) l)) :
    ({ c' with conditions := l } : Creature).base = c.base := by
  unfold base
  change c'.modifier - Tally.total (Condition.amounts c'.player.isSome) l = _
  rw [h.modifier, h.isPlayer, add_sub_cancel_right]

end Creature

theorem harmless_removeConditionType (type : ConditionType) :
    Harmless fun _ cond => if cond.getType ≠ type then .next cond else .erase cond := by
  intro c cond
  dsimp only
  split
  · exact rfl
  · exact rfl

theorem harmless_removeConditionId (env : Env) (conditionType : ConditionType) (conditionId : Int8)
    (force : Bool) :
    Harmless fun c cond =>
      if cond.getType ≠ conditionType ∨ cond.id ≠ conditionId then .next cond
      else if ¬ force ∧ conditionType = .PARALYZE ∧ env.getWalkDelay c > 0 then .stop
      else .erase cond := by
  intro c cond
  dsimp only
  split
  · exact rfl
  · split
    · trivial
    · exact rfl

theorem Condition.executeCondition_cls (env : Env) (cond : Condition) (interval : Int32) :
    (cond.executeCondition env interval).2.cls = cond.cls := by
  unfold executeCondition
  split <;> rfl

theorem harmless_executeConditions (env : Env) (interval : UInt32) :
    Harmless fun _ cond =>
      let (goesOn, cond) := cond.executeCondition env interval.toInt32
      if ¬ goesOn then .erase cond else .next cond := by
  intro c cond
  have hcls := cond.executeCondition_cls env interval.toInt32
  dsimp only
  split
  · exact hcls
  · exact hcls

/-! ### Runs -/

inductive Op where
  | addCondition (cond : Condition)
  | removeConditionType (type : ConditionType)
  | removeConditionId (conditionType : ConditionType) (conditionId : Int8) (force : Bool)
  | removeConditionAt (i : Nat)
  | executeConditions (interval : UInt32)

/-- One call, in the surroundings it is made in. -/
def step (c : Creature) : Env × Op → Creature
  | (env, .addCondition cond) => c.addCondition env cond
  | (_, .removeConditionType type) => c.removeConditionType type
  | (env, .removeConditionId type id force) => c.removeConditionId env type id force
  | (_, .removeConditionAt i) => c.removeConditionAt i
  | (env, .executeConditions interval) => c.executeConditions env interval

namespace Creature

/-- The base, and whether the creature is a player, are what they were. -/
def SameBase (c c' : Creature) : Prop := c'.base = c.base ∧ c'.player.isSome = c.player.isSome

theorem SameBase.trans {c c' c'' : Creature} (h : SameBase c c') (h' : SameBase c' c'') : SameBase c c'' :=
  ⟨h'.1.trans h.1, h'.2.trans h.2⟩

theorem sameBase_sweepConditions {body : Creature → Condition → Verdict} (hbody : Harmless body)
    (c : Creature) : SameBase c (c.sweepConditions body) :=
  ⟨base_of_shift (sweep_spec hbody c c.conditions), (sweep_spec hbody c c.conditions).isPlayer⟩

theorem sameBase_onAddCondition (env : Env) (c : Creature) (type : ConditionType) :
    SameBase c (c.onAddCondition env type) := by
  unfold onAddCondition removeConditionType
  split_ifs
  · exact sameBase_sweepConditions (harmless_removeConditionType _) c
  · exact sameBase_sweepConditions (harmless_removeConditionType _) c
  · exact ⟨rfl, rfl⟩

theorem sameBase_removeConditionAt (c : Creature) (i : Nat) : SameBase c (c.removeConditionAt i) := by
  unfold removeConditionAt
  cases hi : c.conditions[i]? with
  | none => exact ⟨rfl, rfl⟩
  | some cond =>
    obtain ⟨l₁, l₂, hl, -, -, herase⟩ := Tally.exists_split hi
    obtain ⟨⟨hconds, hplayer, hmod⟩, -⟩ := cond.endCondition_spec { c with conditions := c.conditions.eraseIdx i }
    refine ⟨?_, hplayer⟩
    unfold base
    dsimp only
    rw [hplayer, hmod, hconds, herase, hl, Tally.total_remove _ l₁ l₂ cond]
    change c.modifier - _ + 0 - (_ - _) = c.modifier - _
    abel

theorem addCondition_cases (env : Env) (c : Creature) (cond : Condition) :
    (∃ i l₁ prev l₂, c.findCondition cond.getType cond.id cond.subId = some i ∧ l₁.length = i ∧
      c.conditions = l₁ ++ prev :: l₂ ∧
      c.addCondition env cond =
        { (prev.addCondition env c cond).1 with conditions := l₁ ++ (prev.addCondition env c cond).2 :: l₂ }) ∨
    c.findCondition cond.getType cond.id cond.subId = none ∧
      c.addCondition env cond =
        ({ (cond.startCondition env c).1 with
          conditions := (cond.startCondition env c).1.conditions ++ [(cond.startCondition env c).2] } :
            Creature).onAddCondition env cond.getType := by
  unfold addCondition
  cases hfind : c.findCondition cond.getType cond.id cond.subId with
  | some i =>
    obtain ⟨hi, -⟩ := List.findIdx?_eq_some_iff_getElem.mp hfind
    obtain ⟨l₁, l₂, hl, hlen, hset, -⟩ := Tally.exists_split (List.getElem?_eq_getElem hi)
    refine .inl ⟨i, l₁, c.conditions[i], l₂, rfl, hlen, hl, ?_⟩
    dsimp only
    rw [List.getElem?_eq_getElem hi]
    dsimp only
    rw [(c.conditions[i].addCondition_spec env c cond).conditions, hset]
  | none => exact .inr ⟨rfl, rfl⟩

theorem sameBase_addCondition (env : Env) (c : Creature) (cond : Condition) :
    SameBase c (c.addCondition env cond) := by
  rcases c.addCondition_cases env cond with ⟨i, l₁, prev, l₂, -, -, hl, heq⟩ | ⟨-, heq⟩
  · have h := prev.addCondition_spec env c cond
    rw [heq]
    refine ⟨base_of_shift ⟨h.conditions, h.isPlayer, ?_⟩, h.isPlayer⟩
    rw [h.modifier, hl, Tally.total_replace _ l₁ l₂ prev (prev.addCondition env c cond).2]
    abel
  · obtain ⟨h, -⟩ := cond.startCondition_spec env c
    have hstart : SameBase c { (cond.startCondition env c).1 with
        conditions := (cond.startCondition env c).1.conditions ++ [(cond.startCondition env c).2] } := by
      refine ⟨base_of_shift ⟨h.conditions, h.isPlayer, ?_⟩, h.isPlayer⟩
      rw [h.modifier, h.conditions, Tally.total_concat]
      abel
    rw [heq]
    exact hstart.trans (sameBase_onAddCondition env _ _)

end Creature

theorem sameBase_step (c : Creature) (l : Env × Op) : SameBase c (step c l) := by
  obtain ⟨env, op⟩ := l
  cases op with
  | addCondition cond => exact sameBase_addCondition env c cond
  | removeConditionType type => exact sameBase_sweepConditions (harmless_removeConditionType type) c
  | removeConditionId type id force =>
    exact sameBase_sweepConditions (harmless_removeConditionId env type id force) c
  | removeConditionAt i => exact sameBase_removeConditionAt c i
  | executeConditions interval => exact sameBase_sweepConditions (harmless_executeConditions env interval) c

theorem sameBase_run (c : Creature) (ls : List (Env × Op)) : SameBase c (Runs.run step c ls) := by
  induction ls generalizing c with
  | nil => exact ⟨rfl, rfl⟩
  | cons l ls ih => exact (sameBase_step c l).trans (ih _)

/-- The `ConditionSpeed`s of a list of conditions. -/
def speeds (l : List Condition) : List ConditionSpeed :=
  l.filterMap fun cond =>
    match cond.cls with
    | .speed m => some m
    | .attributes _ => none

/-- The `ConditionAttributes` of a list of conditions. -/
def attributes (l : List Condition) : List ConditionAttributes :=
  l.filterMap fun cond =>
    match cond.cls with
    | .speed _ => none
    | .attributes m => some m

theorem total_amounts (player : Bool) (l : List Condition) (k : Modifier) :
    Tally.total (Condition.amounts player) l k =
      ((speeds l).map fun m => ofSpeed m.speedDelta k).sum + ((attributes l).map (·.amounts player k)).sum := by
  induction l with
  | nil => rfl
  | cons cond l ih =>
    rw [Tally.total_cons, Pi.add_apply, ih]
    unfold speeds attributes Condition.amounts
    rw [List.filterMap_cons, List.filterMap_cons]
    cases cond.cls with
    | speed m =>
      dsimp only
      rw [List.map_cons, List.sum_cons]
      abel
    | attributes m =>
      dsimp only
      rw [List.map_cons, List.sum_cons]
      abel

theorem sum_map_eq_zero {α : Type} {f : α → Int32} (l : List α) (h : ∀ a ∈ l, f a = 0) :
    (l.map f).sum = 0 :=
  Tally.total_eq_zero f h

theorem sum_ofSpeed {k : Modifier} (hk : k ≠ .speed) (l : List ConditionSpeed) :
    (l.map fun m => ofSpeed m.speedDelta k).sum = 0 := by
  refine sum_map_eq_zero l fun m _ => ?_
  cases k with
  | speed => exact absurd rfl hk
  | _ => rfl

theorem total_amounts_speed (player : Bool) (l : List Condition) :
    Tally.total (Condition.amounts player) l .speed = ((speeds l).map (·.speedDelta)).sum := by
  rw [total_amounts, sum_map_eq_zero (attributes l), add_zero]
  · rfl
  · intro m _
    cases player <;> rfl

theorem total_amounts_buff (player : Bool) (l : List Condition) (i : Buff) :
    Tally.total (Condition.amounts player) l (.buff i) = ((attributes l).map (·.buffs i)).sum := by
  rw [total_amounts, sum_ofSpeed (k := .buff i) nofun, zero_add]
  refine congrArg List.sum (List.map_congr_left fun m _ => ?_)
  cases player <;> exact add_zero _

theorem total_amounts_skill (l : List Condition) (i : Skill) :
    Tally.total (Condition.amounts true) l (.skill i) = ((attributes l).map (·.skills i)).sum := by
  rw [total_amounts, sum_ofSpeed (k := .skill i) nofun, zero_add]
  refine congrArg List.sum (List.map_congr_left fun m _ => ?_)
  change 0 + (m.skills i + 0) = _
  rw [zero_add, add_zero]

theorem total_amounts_stat (l : List Condition) (i : Stat) :
    Tally.total (Condition.amounts true) l (.stat i) = ((attributes l).map (·.stats i)).sum := by
  rw [total_amounts, sum_ofSpeed (k := .stat i) nofun, zero_add]
  refine congrArg List.sum (List.map_congr_left fun m _ => ?_)
  change 0 + (0 + m.stats i) = _
  rw [zero_add, zero_add]

theorem modifier_run {c : Creature} (hc : c.conditions = []) (ls : List (Env × Op)) (k : Modifier) :
    (Runs.run step c ls).modifier k - c.modifier k =
      Tally.total (Condition.amounts c.player.isSome) (Runs.run step c ls).conditions k := by
  obtain ⟨hbase, hplayer⟩ := sameBase_run c ls
  unfold base at hbase
  rw [hplayer, hc, Tally.total_nil, sub_zero] at hbase
  rw [← hbase, Pi.sub_apply]
  abel

/-- **Modifiers cancel.** In every state of every run, speed, buffs, skills and stats differ from what
they were by the sums over the active conditions, so they are what they were when none is active. -/
theorem run_amounts (c : Creature) (hc : c.conditions = []) (ls : List (Env × Op)) :
    let c' := Runs.run step c ls
    c'.varSpeed - c.varSpeed = ((speeds c'.conditions).map (·.speedDelta)).sum ∧
      (∀ i, c'.varBuffs i - c.varBuffs i = ((attributes c'.conditions).map (·.buffs i)).sum) ∧
      (∀ p, c.player = some p → ∃ p', c'.player = some p' ∧
        (∀ i, p'.varSkills i - p.varSkills i = ((attributes c'.conditions).map (·.skills i)).sum) ∧
        ∀ i, p'.varStats i - p.varStats i = ((attributes c'.conditions).map (·.stats i)).sum) ∧
      (speeds c'.conditions = [] → c'.varSpeed = c.varSpeed) ∧
      (attributes c'.conditions = [] → c'.varBuffs = c.varBuffs ∧ ∀ p, c.player = some p →
        ∃ p', c'.player = some p' ∧ p'.varSkills = p.varSkills ∧ p'.varStats = p.varStats) := by
  intro c'
  have hspeed : c'.varSpeed - c.varSpeed = ((speeds c'.conditions).map (·.speedDelta)).sum :=
    (modifier_run hc ls .speed).trans (total_amounts_speed _ _)
  have hbuffs : ∀ i, c'.varBuffs i - c.varBuffs i = ((attributes c'.conditions).map (·.buffs i)).sum :=
    fun i => (modifier_run hc ls (.buff i)).trans (total_amounts_buff _ _ i)
  have hplayer : ∀ p, c.player = some p → ∃ p', c'.player = some p' ∧
      (∀ i, p'.varSkills i - p.varSkills i = ((attributes c'.conditions).map (·.skills i)).sum) ∧
      ∀ i, p'.varStats i - p.varStats i = ((attributes c'.conditions).map (·.stats i)).sum := by
    intro p hp
    have hsome : c.player.isSome = true := Option.isSome_iff_exists.mpr ⟨p, hp⟩
    obtain ⟨p', hp'⟩ := Option.isSome_iff_exists.mp ((sameBase_run c ls).2.trans hsome)
    refine ⟨p', hp', fun i => ?_, fun i => ?_⟩
    · have h := modifier_run hc ls (.skill i)
      simp only [modifier, varSkills, hp, hp'] at h
      exact h.trans (total_amounts_skill _ i)
    · have h := modifier_run hc ls (.stat i)
      simp only [modifier, varStats, hp, hp'] at h
      exact h.trans (total_amounts_stat _ i)
  refine ⟨hspeed, hbuffs, hplayer, fun hnone => ?_, fun hnone => ⟨?_, fun p hp => ?_⟩⟩
  · rw [hnone] at hspeed
    exact sub_eq_zero.mp hspeed
  · ext1 i
    have h := hbuffs i
    rw [hnone] at h
    exact sub_eq_zero.mp h
  · obtain ⟨p', hp', hskills, hstats⟩ := hplayer p hp
    rw [hnone] at hskills hstats
    exact ⟨p', hp', funext fun i => sub_eq_zero.mp (hskills i), funext fun i => sub_eq_zero.mp (hstats i)⟩

/-- Time stands still, no number is drawn and nobody suppresses anything or walks. -/
def idleEnv : Env := ⟨0, fun min _ => min, fun _ => false, fun _ => 0⟩

def haste : Condition := { id := 0, ticks := 1000, cls := .speed { conditionType := .HASTE, speedDelta := 60 } }

def paralysis : Condition :=
  { id := 0, ticks := 500, cls := .speed { conditionType := .PARALYZE, speedDelta := -90 } }

/-- A paralysis ends the haste of a player, and its own amount is what is left. -/
theorem run_amounts_haste :
    let c' := Runs.run step ({ player := some {} } : Creature)
      [(idleEnv, .addCondition haste), (idleEnv, .addCondition paralysis)]
    c'.varSpeed - 0 = ((speeds c'.conditions).map (·.speedDelta)).sum ∧
      (speeds c'.conditions).map (·.speedDelta) = [-90] :=
  ⟨(run_amounts { player := some {} } rfl
    [(idleEnv, .addCondition haste), (idleEnv, .addCondition paralysis)]).1, by decide⟩

/-! ### The defence -/

namespace Creature

/-- Some active condition disables the defence. -/
def Disabled (c : Creature) : Prop := ∃ cond ∈ c.conditions, cond.disables = true

instance (c : Creature) : Decidable c.Disabled :=
  inferInstanceAs (Decidable (∃ cond ∈ c.conditions, cond.disables = true))

/-- The creature cannot use its defence exactly while an active condition disables it. -/
def DefenceFollows (c : Creature) : Prop := c.canUseDefense = false ↔ c.Disabled

instance (c : Creature) : Decidable c.DefenceFollows :=
  inferInstanceAs (Decidable (c.canUseDefense = false ↔ c.Disabled))

end Creature

/-- What a loop does to the conditions that disable the defence: those with `p` are ended. -/
def Verdict.Ends (p : Prop) (cond : Condition) : Verdict → Prop
  | .next cond' => cond'.disables = cond.disables ∧ (cond.disables = true → ¬ p)
  | .erase cond' => cond'.disables = cond.disables ∧ (cond.disables = true → p)
  | .stop => False

theorem sweep_defence {body : Creature → Condition → Verdict} {p : Condition → Prop}
    (hbody : ∀ c cond, (body c cond).Ends (p cond) cond ∨ body c cond = .stop ∧ ∀ d, ¬ p d) (c : Creature)
    (l : List Condition) :
    ((sweep body c l).1.canUseDefense = true ↔
      c.canUseDefense = true ∨ ∃ cond ∈ l, p cond ∧ cond.disables = true) ∧
    ((∃ cond ∈ (sweep body c l).2, cond.disables = true) ↔ ∃ cond ∈ l, ¬ p cond ∧ cond.disables = true) := by
  induction l generalizing c with
  | nil => simp [sweep]
  | cons cond rest ih =>
    rw [sweep]
    rcases hbody c cond with h | ⟨hstop, hp⟩
    · cases hv : body c cond with
      | next cond' =>
        rw [hv] at h
        obtain ⟨hsame, hnot⟩ := h
        obtain ⟨huse, hkept⟩ := ih c
        dsimp only
        refine ⟨huse.trans ?_, ?_⟩
        · grind
        · grind
      | erase cond' =>
        rw [hv] at h
        obtain ⟨hsame, hp⟩ := h
        obtain ⟨huse, hkept⟩ := ih (cond'.endCondition c)
        obtain ⟨-, hend⟩ := cond'.endCondition_spec c
        dsimp only
        rw [hend, hsame] at huse
        refine ⟨huse.trans ?_, hkept.trans ?_⟩
        · grind
        · grind
      | stop =>
        rw [hv] at h
        exact h.elim
    · rw [hstop]
      dsimp only
      refine ⟨?_, ?_⟩
      · grind
      · grind

/-- The conditions with `p`, if one of them disables the defence, are all that do. -/
def Creature.EndsAll (c : Creature) (p : Condition → Prop) : Prop :=
  (∃ cond ∈ c.conditions, p cond ∧ cond.disables = true) →
    ∀ cond ∈ c.conditions, ¬ p cond → cond.disables = false

/-- What must hold before a call for the defence to follow the conditions after it. Attributes may start
beside ones that disable the defence only if they do so too. Attributes that are refreshed, having
disabled it, may not go on to do so, nor may others; attributes that begin to disable it in a refresh
need another that has done so. Where attributes that disable it end, all that do must end. -/
def Clear (c : Creature) : Env × Op → Prop
  | (env, .addCondition cond) =>
    match c.findCondition cond.getType cond.id cond.subId with
    | none => cond.getType = .ATTRIBUTES → c.Disabled → cond.disables = true
    | some i =>
      ∀ prev, c.conditions[i]? = some prev → prev.getType = .ATTRIBUTES →
        prev.updateCondition env cond = true →
          if prev.disables then cond.disables = false ∧ ∀ d ∈ c.conditions.eraseIdx i, d.disables = false
          else cond.disables = true → ∃ d ∈ c.conditions.eraseIdx i, d.disables = true
  | (_, .removeConditionType _) => True
  | (_, .removeConditionId type id _) => c.EndsAll fun cond => type = .ATTRIBUTES ∧ cond.id = id
  | (_, .removeConditionAt i) =>
    ∀ cond, c.conditions[i]? = some cond → cond.disables = true →
      ∀ d ∈ c.conditions.eraseIdx i, d.disables = false
  | (env, .executeConditions interval) =>
    c.EndsAll fun cond => (cond.executeCondition env interval.toInt32).1 = false

namespace Creature

theorem defenceFollows_sweep {body : Creature → Condition → Verdict} {p : Condition → Prop}
    (hbody : ∀ c cond, (body c cond).Ends (p cond) cond ∨ body c cond = .stop ∧ ∀ d, ¬ p d) {c : Creature}
    (hc : c.DefenceFollows) : (c.sweepConditions body).DefenceFollows ↔ c.EndsAll p := by
  obtain ⟨huse, hkept⟩ := sweep_defence hbody c c.conditions
  have hbefore : c.Disabled ↔ (∃ cond ∈ c.conditions, p cond ∧ cond.disables = true) ∨
      ∃ cond ∈ c.conditions, ¬ p cond ∧ cond.disables = true := by
    unfold Disabled
    grind
  unfold DefenceFollows at *
  change ((sweep body c c.conditions).1.canUseDefense = false ↔
    ∃ cond ∈ (sweep body c c.conditions).2, cond.disables = true) ↔ _
  rw [hkept, ← Bool.not_eq_true, huse, not_or, Bool.not_eq_true, hc, hbefore]
  unfold EndsAll
  grind

theorem ends_removeConditionType (type : ConditionType) (c : Creature) (cond : Condition) :
    ((fun (_ : Creature) (cond : Condition) =>
      if cond.getType ≠ type then Verdict.next cond else .erase cond) c cond).Ends (cond.getType = type) cond := by
  dsimp only
  split
  case isTrue h => exact ⟨rfl, fun _ => h⟩
  case isFalse h => exact ⟨rfl, fun _ => not_not.mp h⟩

theorem defenceFollows_removeConditionType {c : Creature} (hc : c.DefenceFollows) (type : ConditionType) :
    (c.removeConditionType type).DefenceFollows := by
  refine (defenceFollows_sweep (fun c cond => .inl (ends_removeConditionType type c cond)) hc).mpr ?_
  rintro ⟨cond, -, hp, hdis⟩ d - hd
  by_contra hne
  have hdis' : d.disables = true := by simpa using hne
  exact hd ((Condition.disables_type hdis').trans ((Condition.disables_type hdis).symm.trans hp))

theorem defenceFollows_onAddCondition {c : Creature} (hc : c.DefenceFollows) (env : Env)
    (type : ConditionType) : (c.onAddCondition env type).DefenceFollows := by
  unfold onAddCondition
  split_ifs
  · exact defenceFollows_removeConditionType hc _
  · exact defenceFollows_removeConditionType hc _
  · exact hc

theorem ends_removeConditionId (env : Env) (type : ConditionType) (id : Int8) (force : Bool) (c : Creature)
    (cond : Condition) :
    let v := if cond.getType ≠ type ∨ cond.id ≠ id then Verdict.next cond
      else if ¬ force ∧ type = .PARALYZE ∧ env.getWalkDelay c > 0 then .stop
      else .erase cond
    v.Ends (type = .ATTRIBUTES ∧ cond.id = id) cond ∨
      v = .stop ∧ ∀ d : Condition, ¬ (type = .ATTRIBUTES ∧ d.id = id) := by
  dsimp only
  split_ifs with hother hstop
  · refine .inl ⟨rfl, fun hdis h => ?_⟩
    rcases hother with htype | hid
    · exact htype ((Condition.disables_type hdis).trans h.1.symm)
    · exact hid h.2
  · -- only a paralysis has the creature wait, and no paralysis disables the defence
    refine .inr ⟨rfl, fun d h => ?_⟩
    exact absurd (h.1.symm.trans hstop.2.1) nofun
  · rw [not_or, not_not, not_not] at hother
    exact .inl ⟨rfl, fun hdis => ⟨hother.1.symm.trans (Condition.disables_type hdis), hother.2⟩⟩

theorem ends_executeConditions (env : Env) (interval : UInt32) (c : Creature) (cond : Condition) :
    ((fun (_ : Creature) (cond : Condition) =>
      let (goesOn, cond) := cond.executeCondition env interval.toInt32
      if ¬ goesOn then Verdict.erase cond else .next cond) c cond).Ends
        ((cond.executeCondition env interval.toInt32).1 = false) cond := by
  have hdis : (cond.executeCondition env interval.toInt32).2.disables = cond.disables := by
    unfold Condition.disables
    rw [cond.executeCondition_cls]
  dsimp only
  split
  case isTrue h => exact ⟨hdis, fun _ => Bool.not_eq_true _ ▸ h⟩
  case isFalse h => exact ⟨hdis, fun _ hfalse => h (by rw [hfalse]; exact Bool.false_ne_true)⟩

theorem defenceFollows_removeConditionAt {c : Creature} (hc : c.DefenceFollows) (i : Nat) :
    (c.removeConditionAt i).DefenceFollows ↔
      ∀ cond, c.conditions[i]? = some cond → cond.disables = true →
        ∀ d ∈ c.conditions.eraseIdx i, d.disables = false := by
  unfold removeConditionAt
  cases hi : c.conditions[i]? with
  | none => exact ⟨fun _ => nofun, fun _ => hc⟩
  | some cond =>
    obtain ⟨l₁, l₂, hl, -, -, herase⟩ := Tally.exists_split hi
    obtain ⟨⟨hconds, -, -⟩, hend⟩ := cond.endCondition_spec { c with conditions := c.conditions.eraseIdx i }
    unfold DefenceFollows Disabled at *
    dsimp only
    rw [hend, hconds, herase]
    rw [hl] at hc
    grind

theorem defenceFollows_refresh {c : Creature} (hc : c.DefenceFollows) (env : Env) {l₁ l₂ : List Condition}
    {prev : Condition} (hl : c.conditions = l₁ ++ prev :: l₂) (cond : Condition) :
    ({ (prev.addCondition env c cond).1 with conditions := l₁ ++ (prev.addCondition env c cond).2 :: l₂ } :
        Creature).DefenceFollows ↔
      (prev.getType = .ATTRIBUTES → prev.updateCondition env cond = true →
        if prev.disables then cond.disables = false ∧ ∀ d ∈ l₁ ++ l₂, d.disables = false
        else cond.disables = true → ∃ d ∈ l₁ ++ l₂, d.disables = true) := by
  have hbefore : c.canUseDefense = false ↔ prev.disables = true ∨ ∃ d ∈ l₁ ++ l₂, d.disables = true := by
    unfold DefenceFollows Disabled at hc
    rw [hc, hl]
    grind
  rcases prev.addCondition_cases env c cond with ⟨hres, hrefused⟩ | ⟨m, m', cond', hm, hm', hres⟩ |
    ⟨m, m', cond', hm, hadd, hupdate, hm', hres⟩
  · -- a refused refresh changes nothing, and nothing is asked of it
    have hsame : ({ c with conditions := l₁ ++ prev :: l₂ } : Creature).DefenceFollows := by
      rw [← hl]
      exact hc
    rw [hres]
    refine iff_of_true hsame fun htype hupdate => ?_
    exact absurd ((hrefused htype).symm.trans hupdate) Bool.false_ne_true
  · have hspeed : prev.disables = false ∧ cond'.disables = false := by
      unfold Condition.disables
      rw [hm, hm']
      exact ⟨rfl, rfl⟩
    rw [hres]
    refine iff_of_true ?_ fun htype => ?_
    · unfold DefenceFollows Disabled
      dsimp only
      rw [(frame_changeSpeed c _).canUseDefense, hbefore]
      grind
    · obtain ⟨n, hn⟩ := Condition.type_attributes htype
      exact absurd (hm.symm.trans hn) nofun
  · have hprev : prev.disables = m.disableDefense := by
      unfold Condition.disables
      rw [hm]
    have hcond : cond.disables = m'.disableDefense := by
      unfold Condition.disables
      rw [hadd]
    have htype : prev.getType = .ATTRIBUTES := by
      unfold Condition.getType
      rw [hm]
    obtain ⟨hframe, hdisable, -⟩ := m'.apply_spec (m.endCondition c)
    obtain ⟨-, -, hend, -⟩ := m.endCondition_spec c
    have hcond' : cond'.disables = cond.disables := by
      rw [hcond, ← hdisable]
      unfold Condition.disables
      rw [hm']
    -- the end of the old attributes alone writes the flag
    have hafter : ({ (m'.apply (m.endCondition c)).1 with conditions := l₁ ++ cond' :: l₂ } :
        Creature).DefenceFollows ↔ ((prev.disables = false ∧ c.canUseDefense = false) ↔
          cond.disables = true ∨ ∃ d ∈ l₁ ++ l₂, d.disables = true) := by
      unfold DefenceFollows Disabled
      dsimp only
      rw [hframe.canUseDefense, hend, Bool.or_eq_false_iff, ← hprev, ← hcond']
      grind
    rw [hres, hafter, hbefore]
    grind

theorem defenceFollows_start {c : Creature} (hc : c.DefenceFollows) (env : Env) (cond : Condition) :
    ({ (cond.startCondition env c).1 with
        conditions := (cond.startCondition env c).1.conditions ++ [(cond.startCondition env c).2] } :
        Creature).DefenceFollows ↔ (cond.getType = .ATTRIBUTES → c.Disabled → cond.disables = true) := by
  obtain ⟨⟨hconds, -, -⟩, hdis, huse⟩ := cond.startCondition_spec env c
  have hafter : ({ (cond.startCondition env c).1 with
      conditions := (cond.startCondition env c).1.conditions ++ [(cond.startCondition env c).2] } :
      Creature).DefenceFollows ↔
        ((cond.startCondition env c).1.canUseDefense = false ↔ c.Disabled ∨ cond.disables = true) := by
    unfold DefenceFollows Disabled
    dsimp only
    rw [hconds, ← hdis]
    grind
  rw [hafter, huse]
  unfold DefenceFollows at hc
  unfold Condition.getType Condition.disables
  cases cond.cls with
  | speed m =>
    have hne := m.getType_ne
    grind
  | attributes m => grind

theorem defenceFollows_addCondition {c : Creature} (hc : c.DefenceFollows) (env : Env) (cond : Condition) :
    (c.addCondition env cond).DefenceFollows ↔ Clear c (env, .addCondition cond) := by
  unfold Clear
  rcases c.addCondition_cases env cond with ⟨i, l₁, prev, l₂, hfind, hlen, hl, heq⟩ | ⟨hfind, heq⟩
  · have hi : c.conditions[i]? = some prev := by
      rw [hl, ← hlen]
      simp
    have herase : c.conditions.eraseIdx i = l₁ ++ l₂ := by
      rw [hl, ← hlen, List.eraseIdx_append_of_length_le (Nat.le_refl _)]
      simp
    rw [heq, defenceFollows_refresh hc env hl cond]
    dsimp only
    rw [hfind]
    dsimp only
    rw [hi, herase]
    refine ⟨fun h d hd => ?_, fun h => h prev rfl⟩
    rw [← Option.some.inj hd]
    exact h
  · rw [heq]
    dsimp only
    rw [hfind]
    dsimp only
    by_cases htype : cond.getType = .ATTRIBUTES
    · rw [htype]
      exact (defenceFollows_start hc env cond).trans (by rw [htype])
    · have hstart := (defenceFollows_start hc env cond).mpr fun h => absurd h htype
      exact iff_of_true (defenceFollows_onAddCondition hstart env _) fun h => absurd h htype

end Creature

theorem defenceFollows_step (c : Creature) (l : Env × Op) (hc : c.DefenceFollows) :
    (step c l).DefenceFollows ↔ Clear c l := by
  obtain ⟨env, op⟩ := l
  cases op with
  | addCondition cond => exact defenceFollows_addCondition hc env cond
  | removeConditionType type => exact iff_of_true (defenceFollows_removeConditionType hc type) trivial
  | removeConditionId type id force =>
    exact defenceFollows_sweep (fun c cond => ends_removeConditionId env type id force c cond) hc
  | removeConditionAt i => exact defenceFollows_removeConditionAt hc i
  | executeConditions interval =>
    exact defenceFollows_sweep (fun c cond => .inl (ends_executeConditions env interval c cond)) hc

/-- **Disabled defence.** The defence follows the active conditions all along a run precisely if every call
of the run is made where its condition is met. -/
theorem run_defence_iff (c : Creature) (hc : c.DefenceFollows) (ls : List (Env × Op)) :
    (∀ pre, pre <+: ls → (Runs.run step c pre).DefenceFollows) ↔ Runs.Meets step Clear c ls :=
  Runs.forall_prefix_iff_meets defenceFollows_step hc

/-- A condition that disables the defence, as blood rage does. -/
def exposed : Condition := { id := 0, ticks := 1000, cls := .attributes { disableDefense := true } }

/-- The condition met by a first start and by the end of what has started. -/
theorem run_defence_iff_exposed :
    (∀ pre, pre <+: [(idleEnv, Op.addCondition exposed), (idleEnv, .removeConditionType .ATTRIBUTES)] →
      (Runs.run step {} pre).DefenceFollows) ↔
    Runs.Meets step Clear {} [(idleEnv, Op.addCondition exposed), (idleEnv, .removeConditionType .ATTRIBUTES)] :=
  run_defence_iff {} (by decide) _

/-- Refreshed with its like, the condition is active and the defence is not disabled. -/
theorem exposed_refreshed :
    let c := Runs.run step {} [(idleEnv, Op.addCondition exposed), (idleEnv, .addCondition exposed)]
    c.canUseDefense = true ∧ (attributes c.conditions).map (·.disableDefense) = [true] ∧ ¬ c.DefenceFollows := by
  decide

end Modifiers

end Moonlight
