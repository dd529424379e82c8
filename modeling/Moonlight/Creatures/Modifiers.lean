import Moonlight.Creatures.Condition
import Moonlight.Lib.Tally

/-!
# The modifiers of a creature

What conditions, items and imbuements change about a creature for a while is kept apart from its base
values: `varSpeed` and `varBuffs` of any creature (creatures/creature.h), and `varSkills`, `varStats` and
`bonusCapacity` of a player (creatures/players/player.h). Each is changed by its own setter, which despite
its name adds.

The four accumulators that all of these share are one value of a group, `Creature.modifiers`, and
every setter, and every loop over the skills, the stats or the buffs, adds to it. Integers are machine words.
What a change makes known to the clients, and the walking events that `setSpeed` starts and stops,
are left out.
-/

namespace Moonlight

namespace Modifiers

open scoped Tally

/-! ### Indices -/

/-- `skills_t`, from `SKILL_FIRST` to `SKILL_LAST`. -/
inductive Skill where
  | FIST
  | CLUB
  | SWORD
  | AXE
  | DISTANCE
  | SHIELD
  | FISHING
  | CRITICAL_HIT_CHANCE
  | CRITICAL_HIT_DAMAGE
  | LIFE_LEECH_CHANCE
  | LIFE_LEECH_AMOUNT
  | MANA_LEECH_CHANCE
  | MANA_LEECH_AMOUNT
  deriving DecidableEq, Repr

def Skill.all : List Skill :=
  [FIST, CLUB, SWORD, AXE, DISTANCE, SHIELD, FISHING, CRITICAL_HIT_CHANCE, CRITICAL_HIT_DAMAGE,
    LIFE_LEECH_CHANCE, LIFE_LEECH_AMOUNT, MANA_LEECH_CHANCE, MANA_LEECH_AMOUNT]

theorem Skill.nodup_all : Skill.all.Nodup := by decide

theorem Skill.mem_all (i : Skill) : i ∈ Skill.all := by
  cases i <;> decide

/-- `stats_t`, from `STAT_FIRST` to `STAT_LAST`. -/
inductive Stat where
  | MAXHITPOINTS
  | MAXMANAPOINTS
  | SOULPOINTS
  | MAGICPOINTS
  | CAPACITY
  deriving DecidableEq, Repr

def Stat.all : List Stat := [MAXHITPOINTS, MAXMANAPOINTS, SOULPOINTS, MAGICPOINTS, CAPACITY]

theorem Stat.nodup_all : Stat.all.Nodup := by decide

theorem Stat.mem_all (i : Stat) : i ∈ Stat.all := by
  cases i <;> decide

/-- `buffs_t`, from `BUFF_FIRST` to `BUFF_LAST`. -/
inductive Buff where
  | DAMAGEDEALT
  | DAMAGERECEIVED
  deriving DecidableEq, Repr

def Buff.all : List Buff := [DAMAGEDEALT, DAMAGERECEIVED]

theorem Buff.nodup_all : Buff.all.Nodup := by decide

theorem Buff.mem_all (i : Buff) : i ∈ Buff.all := by
  cases i <;> decide

/-! ### Conditions -/

/-- The types that a `ConditionSpeed` is created with. -/
inductive SpeedType where
  | HASTE
  | PARALYZE
  deriving DecidableEq, Repr

/-- The members of `ConditionSpeed`. -/
structure ConditionSpeed where
  conditionType : SpeedType
  speedDelta : Int32
  mina : Float32 := 0
  minb : Float32 := 0
  maxa : Float32 := 0
  maxb : Float32 := 0

/-- The members of `ConditionAttributes`. -/
structure ConditionAttributes where
  skills : Skill → Int32 := fun _ => 0
  skillsPercent : Skill → Int32 := fun _ => 0
  stats : Stat → Int32 := fun _ => 0
  statsPercent : Stat → Int32 := fun _ => 0
  buffs : Buff → Int32 := fun _ => 0
  buffsPercent : Buff → Int32 := fun _ => 0
  disableDefense : Bool := false

inductive ConditionClass where
  | speed (m : ConditionSpeed)
  | attributes (m : ConditionAttributes)

structure Condition where
  id : Int8
  subId : UInt32 := 0
  ticks : Int32
  endTime : Int64 := 0
  cls : ConditionClass

/-! ### Creatures -/

/-- The part of a creature that only a player has. -/
structure Player where
  skills : Skill → UInt16 := fun _ => 10
  varSkills : Skill → Int32 := fun _ => 0
  varStats : Stat → Int32 := fun _ => 0
  manaMax : UInt32 := 0
  magLevel : UInt32 := 0
  capacity : UInt32 := 40000
  bonusCapacity : UInt32 := 0
  cannotPickupItem : Bool := false
  hasInfiniteCapacity : Bool := false

structure Creature where
  baseSpeed : UInt32 := 220
  varSpeed : Int32 := 0
  health : Int32 := 1000
  healthMax : Int32 := 1000
  mana : UInt32 := 0
  varBuffs : Buff → Int32 := fun _ => 100
  canUseDefense : Bool := true
  conditions : List Condition := []
  player : Option Player := none

namespace Player

def getBaseSkill (p : Player) (skill : Skill) : UInt16 := p.skills skill

def getBaseMagicLevel (p : Player) : UInt32 := p.magLevel

def getCapacity (p : Player) : UInt32 :=
  if p.cannotPickupItem then 0
  else if p.hasInfiniteCapacity then 0xFFFFFFFF
  else p.capacity + p.bonusCapacity

def getMaxMana (p : Player) : UInt32 := (max 0 (p.manaMax.toInt32 + p.varStats .MAXMANAPOINTS)).toUInt32

def setVarSkill (p : Player) (skill : Skill) (modifier : Int32) : Player :=
  { p with varSkills := Function.update p.varSkills skill (p.varSkills skill + modifier) }

end Player

namespace Creature

/-! ### Speed and buffs -/

def getSpeed (c : Creature) : Int32 := (c.baseSpeed + c.varSpeed.toUInt32).toInt32

def getBaseSpeed (c : Creature) : UInt32 := c.baseSpeed

def setSpeed (c : Creature) (varSpeedDelta : Int32) : Creature := { c with varSpeed := varSpeedDelta }

/-- `Game::changeSpeed`. -/
def changeSpeed (c : Creature) (varSpeedDelta : Int32) : Creature :=
  let varSpeed := (c.getSpeed.toUInt32 - c.getBaseSpeed).toInt32
  let varSpeed := varSpeed + varSpeedDelta
  c.setSpeed varSpeed

def getBuff (c : Creature) (buff : Buff) : Int32 := c.varBuffs buff

def setBuff (c : Creature) (buff : Buff) (modifier : Int32) : Creature :=
  { c with varBuffs := Function.update c.varBuffs buff (c.varBuffs buff + modifier) }

def setUseDefense (c : Creature) (useDefense : Bool) : Creature := { c with canUseDefense := useDefense }

/-! ### Skills and stats -/

def getPlayer (c : Creature) : Option Player := c.player

/-- The virtual `getMaxHealth`. -/
def getMaxHealth (c : Creature) : Int32 :=
  match c.player with
  | some p => max 1 (c.healthMax + p.varStats .MAXHITPOINTS)
  | none => c.healthMax

/-- `Creature::changeHealth`, as far as it goes when some health is left. -/
def changeHealth (c : Creature) (healthChange : Int32) : Creature :=
  if healthChange > 0 then { c with health := c.health + min healthChange (c.getMaxHealth - c.health) }
  else { c with health := max 0 (c.health + healthChange) }

/-- `Creature::changeMana`, with the virtual `getMaxMana` of a player. -/
def changeMana (c : Creature) (maxMana : UInt32) (manaChange : Int32) : Creature :=
  if manaChange > 0 then { c with mana := c.mana + (min manaChange (maxMana - c.mana).toInt32).toUInt32 }
  else { c with mana := (max 0 (c.mana + manaChange.toUInt32).toInt32).toUInt32 }

/-- `Player::setVarSkill`. -/
def setVarSkill (c : Creature) (skill : Skill) (modifier : Int32) : Creature :=
  { c with player := c.player.map (·.setVarSkill skill modifier) }

/-- `varStats[stat] += modifier`. -/
def addVarStat (c : Creature) (stat : Stat) (modifier : Int32) : Creature :=
  { c with
    player := c.player.map fun p =>
      { p with varStats := Function.update p.varStats stat (p.varStats stat + modifier) } }

/-- `Player::setVarStats`. -/
def setVarStats (c : Creature) (stat : Stat) (modifier : Int32) : Creature :=
  let c := c.addVarStat stat modifier
  match stat with
  | .MAXHITPOINTS =>
    if c.health > c.getMaxHealth then c.changeHealth (c.getMaxHealth - c.health) else c
  | .MAXMANAPOINTS =>
    match c.player with
    | some p => if c.mana > p.getMaxMana then c.changeMana p.getMaxMana (p.getMaxMana - c.mana).toInt32 else c
    | none => c
  | _ => c

/-- A loop over indices that hands the entries of an array, where `needed` says so, to a setter. -/
def setEach {ι : Type} (set : Creature → ι → Int32 → Creature) (needed : ι → Bool) (d : ι → Int32)
    (l : List ι) (c : Creature) : Creature :=
  l.foldl (fun c i => if needed i then set c i (d i) else c) c

end Creature

/-! ### The accumulators as one -/

/-- The names of what is modified. -/
inductive Modifier where
  | speed
  | buff (i : Buff)
  | skill (i : Skill)
  | stat (i : Stat)
  deriving DecidableEq, Repr

namespace Modifier

/-! Amounts of one kind of modifier. -/

def ofSpeed (d : Int32) : Modifier → Int32
  | .speed => d
  | _ => 0

def ofBuffs (d : Buff → Int32) : Modifier → Int32
  | .buff i => d i
  | _ => 0

def ofSkills (d : Skill → Int32) : Modifier → Int32
  | .skill i => d i
  | _ => 0

def ofStats (d : Stat → Int32) : Modifier → Int32
  | .stat i => d i
  | _ => 0

theorem ofSpeed_sub (d d' : Int32) : ofSpeed (d - d') = ofSpeed d - ofSpeed d' := by
  ext k
  cases k with
  | speed => rfl
  | _ => exact (sub_zero _).symm

theorem ofSpeed_neg (d : Int32) : ofSpeed (-d) = -ofSpeed d := by
  ext k
  cases k with
  | speed => rfl
  | _ => exact neg_zero.symm

theorem ofBuffs_neg (d : Buff → Int32) : ofBuffs (-d) = -ofBuffs d := by
  ext k
  cases k with
  | buff i => rfl
  | _ => exact neg_zero.symm

theorem ofSkills_neg (d : Skill → Int32) : ofSkills (-d) = -ofSkills d := by
  ext k
  cases k with
  | skill i => rfl
  | _ => exact neg_zero.symm

theorem ofStats_neg (d : Stat → Int32) : ofStats (-d) = -ofStats d := by
  ext k
  cases k with
  | stat i => rfl
  | _ => exact neg_zero.symm

end Modifier

namespace Creature

open Modifier

def varSkills (c : Creature) (i : Skill) : Int32 :=
  match c.player with
  | some p => p.varSkills i
  | none => 0

def varStats (c : Creature) (i : Stat) : Int32 :=
  match c.player with
  | some p => p.varStats i
  | none => 0

def modifier (c : Creature) : Modifier → Int32
  | .speed => c.varSpeed
  | .buff i => c.varBuffs i
  | .skill i => c.varSkills i
  | .stat i => c.varStats i

def IsPlayer (c : Creature) : Prop := c.player.isSome = true

/-- What the setters leave as it is. -/
structure Frame (c c' : Creature) : Prop where
  conditions : c'.conditions = c.conditions
  canUseDefense : c'.canUseDefense = c.canUseDefense
  isPlayer : c'.player.isSome = c.player.isSome

theorem Frame.refl (c : Creature) : Frame c c := ⟨rfl, rfl, rfl⟩

theorem Frame.trans {c c' c'' : Creature} (h : Frame c c') (h' : Frame c' c'') : Frame c c'' :=
  ⟨h'.1.trans h.1, h'.2.trans h.2, h'.3.trans h.3⟩

/-! ### The setters -/

theorem changeSpeed_eq (c : Creature) (d : Int32) : c.changeSpeed d = { c with varSpeed := c.varSpeed + d } := by
  have h : (c.getSpeed.toUInt32 - c.getBaseSpeed).toInt32 = c.varSpeed := by
    apply Int32.toBitVec_inj.mp
    change c.baseSpeed.toBitVec + c.varSpeed.toBitVec - c.baseSpeed.toBitVec = c.varSpeed.toBitVec
    rw [BitVec.add_comm, BitVec.add_sub_cancel]
  unfold changeSpeed setSpeed
  rw [h]

theorem changeSpeed_modifier (c : Creature) (d : Int32) :
    (c.changeSpeed d).modifier = c.modifier + ofSpeed d := by
  rw [changeSpeed_eq]
  funext k
  cases k with
  | speed => rfl
  | _ => exact (add_zero _).symm

theorem frame_changeSpeed (c : Creature) (d : Int32) : Frame c (c.changeSpeed d) := by
  rw [changeSpeed_eq]
  exact ⟨rfl, rfl, rfl⟩

theorem setBuff_modifier (c : Creature) (i : Buff) (m : Int32) :
    (c.setBuff i m).modifier = Function.update c.modifier (.buff i) (c.modifier (.buff i) + m) := by
  funext k
  cases k with
  | buff j =>
    by_cases h : j = i
    · subst h
      rw [Function.update_self]
      exact Function.update_self ..
    · rw [Function.update_of_ne fun h' => h (Modifier.buff.inj h')]
      exact Function.update_of_ne h ..
  | _ => rfl

theorem frame_setBuff (c : Creature) (i : Buff) (m : Int32) : Frame c (c.setBuff i m) := ⟨rfl, rfl, rfl⟩

theorem setVarSkill_modifier {c : Creature} (hc : c.IsPlayer) (i : Skill) (m : Int32) :
    (c.setVarSkill i m).modifier = Function.update c.modifier (.skill i) (c.modifier (.skill i) + m) := by
  obtain ⟨p, hp⟩ := Option.isSome_iff_exists.mp hc
  funext k
  unfold setVarSkill
  cases k with
  | skill j =>
    by_cases h : j = i
    · subst h
      rw [Function.update_self]
      simp [modifier, varSkills, hp, Player.setVarSkill]
    · rw [Function.update_of_ne fun h' => h (Modifier.skill.inj h')]
      simp [modifier, varSkills, hp, Player.setVarSkill, h]
  | stat j => simp [modifier, varStats, hp, Player.setVarSkill]
  | _ => rfl

theorem frame_setVarSkill (c : Creature) (i : Skill) (m : Int32) : Frame c (c.setVarSkill i m) :=
  ⟨rfl, rfl, Option.isSome_map⟩

theorem changeHealth_spec (c : Creature) (d : Int32) : ∃ health, c.changeHealth d = { c with health := health } := by
  unfold changeHealth
  split
  · exact ⟨_, rfl⟩
  · exact ⟨_, rfl⟩

theorem changeMana_spec (c : Creature) (m : UInt32) (d : Int32) :
    ∃ mana, c.changeMana m d = { c with mana := mana } := by
  unfold changeMana
  split
  · exact ⟨_, rfl⟩
  · exact ⟨_, rfl⟩

theorem setVarStats_spec (c : Creature) (i : Stat) (m : Int32) :
    ∃ health mana, c.setVarStats i m = { c.addVarStat i m with health := health, mana := mana } := by
  -- only the maxima of health and mana have something follow from them
  unfold setVarStats
  cases i with
  | MAXHITPOINTS =>
    dsimp only
    split
    · obtain ⟨health, h⟩ := (c.addVarStat .MAXHITPOINTS m).changeHealth_spec
        ((c.addVarStat .MAXHITPOINTS m).getMaxHealth - (c.addVarStat .MAXHITPOINTS m).health)
      exact ⟨health, _, h⟩
    · exact ⟨_, _, rfl⟩
  | MAXMANAPOINTS =>
    dsimp only
    split
    · split
      · obtain ⟨mana, h⟩ := changeMana_spec (c.addVarStat .MAXMANAPOINTS m) _ _
        exact ⟨_, mana, h⟩
      · exact ⟨_, _, rfl⟩
    · exact ⟨_, _, rfl⟩
  | SOULPOINTS => exact ⟨_, _, rfl⟩
  | MAGICPOINTS => exact ⟨_, _, rfl⟩
  | CAPACITY => exact ⟨_, _, rfl⟩

theorem setVarStats_modifier {c : Creature} (hc : c.IsPlayer) (i : Stat) (m : Int32) :
    (c.setVarStats i m).modifier = Function.update c.modifier (.stat i) (c.modifier (.stat i) + m) := by
  obtain ⟨p, hp⟩ := Option.isSome_iff_exists.mp hc
  obtain ⟨health, mana, h⟩ := c.setVarStats_spec i m
  rw [h]
  funext k
  unfold addVarStat
  cases k with
  | stat j =>
    by_cases h : j = i
    · subst h
      rw [Function.update_self]
      simp [modifier, varStats, hp]
    · rw [Function.update_of_ne fun h' => h (Modifier.stat.inj h')]
      simp [modifier, varStats, hp, h]
  | skill j => simp [modifier, varSkills, hp]
  | _ => rfl

theorem frame_setVarStats (c : Creature) (i : Stat) (m : Int32) : Frame c (c.setVarStats i m) := by
  obtain ⟨health, mana, h⟩ := c.setVarStats_spec i m
  rw [h]
  exact ⟨rfl, rfl, Option.isSome_map⟩

/-! ### Loops over the setters -/

section SetEach

variable {ι : Type} {set : Creature → ι → Int32 → Creature} {needed : ι → Bool} {d : ι → Int32}

theorem frame_setEach (h : ∀ c i m, Frame c (set c i m)) (l : List ι) (c : Creature) :
    Frame c (setEach set needed d l c) := by
  induction l generalizing c with
  | nil => exact .refl c
  | cons i l ih =>
    refine Frame.trans (?_ : Frame c (if needed i then set c i (d i) else c)) (ih _)
    by_cases hn : needed i = true
    · rw [if_pos hn]
      exact h c i (d i)
    · rw [if_neg hn]
      exact .refl c

theorem setEach_modifier [DecidableEq ι] {idx : ι → Modifier} (hidx : Function.Injective idx) {P : Creature → Prop}
    (hP : ∀ c i m, P c → P (set c i m))
    (h : ∀ c i m, P c → (set c i m).modifier = Function.update c.modifier (idx i) (c.modifier (idx i) + m))
    (hd : ∀ i, needed i = false → d i = 0) {l : List ι} (hl : l.Nodup) (hall : ∀ i, i ∈ l) {c : Creature}
    (hc : P c) :
    (∀ i, (setEach set needed d l c).modifier (idx i) = c.modifier (idx i) + d i) ∧
      ∀ k, (∀ i, idx i ≠ k) → (setEach set needed d l c).modifier k = c.modifier k := by
  have hkeep : ∀ c i, P c → P (if needed i then set c i (d i) else c) := by
    intro c i hc
    split
    · exact hP c i (d i) hc
    · exact hc
  -- a round that is skipped would add 0
  have hround : ∀ c i, P c → (if needed i then set c i (d i) else c).modifier =
      Function.update c.modifier (idx i) (c.modifier (idx i) + d i) := by
    intro c i hc
    cases hn : needed i with
    | true => exact h c i (d i) hc
    | false => simp [hd i hn]
  constructor
  · intro i
    have hloop := Tally.foldl_accumulate modifier hidx hkeep hround hl hc i
    rw [if_pos (hall i)] at hloop
    exact hloop
  · intro k hk
    exact Tally.foldl_of_forall_ne modifier hkeep hround hk l hc

end SetEach

theorem setEach_setBuff (needed : Buff → Bool) (d : Buff → Int32) (hd : ∀ i, needed i = false → d i = 0)
    (c : Creature) : (setEach setBuff needed d Buff.all c).modifier = c.modifier + ofBuffs d := by
  obtain ⟨hbuff, hother⟩ := setEach_modifier (fun i j => Modifier.buff.inj) (P := fun _ => True)
    (fun _ _ _ h => h) (fun c i m _ => setBuff_modifier c i m) hd Buff.nodup_all Buff.mem_all
    (c := c) trivial
  ext k
  cases k with
  | buff i => exact hbuff i
  | _ => exact (hother _ (by simp)).trans (add_zero _).symm

theorem setEach_setVarSkill (needed : Skill → Bool) (d : Skill → Int32)
    (hd : ∀ i, needed i = false → d i = 0) {c : Creature} (hc : c.IsPlayer) :
    (setEach setVarSkill needed d Skill.all c).modifier = c.modifier + ofSkills d := by
  obtain ⟨hskill, hother⟩ := setEach_modifier (fun i j => Modifier.skill.inj) (P := IsPlayer)
    (fun c i m h => (frame_setVarSkill c i m).isPlayer.trans h) (fun c i m h => setVarSkill_modifier h i m)
    hd Skill.nodup_all Skill.mem_all hc
  ext k
  cases k with
  | skill i => exact hskill i
  | _ => exact (hother _ (by simp)).trans (add_zero _).symm

theorem setEach_setVarStats (needed : Stat → Bool) (d : Stat → Int32)
    (hd : ∀ i, needed i = false → d i = 0) {c : Creature} (hc : c.IsPlayer) :
    (setEach setVarStats needed d Stat.all c).modifier = c.modifier + ofStats d := by
  obtain ⟨hstat, hother⟩ := setEach_modifier (fun i j => Modifier.stat.inj) (P := IsPlayer)
    (fun c i m h => (frame_setVarStats c i m).isPlayer.trans h) (fun c i m h => setVarStats_modifier h i m)
    hd Stat.nodup_all Stat.mem_all hc
  ext k
  cases k with
  | stat i => exact hstat i
  | _ => exact (hother _ (by simp)).trans (add_zero _).symm

end Creature

end Modifiers

end Moonlight
