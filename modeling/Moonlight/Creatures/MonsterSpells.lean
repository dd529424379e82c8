import Moonlight.Lib.Runs
import Mathlib.Data.Rat.Cast.Defs

/-!
# Spells of monsters

`Monster::doAttacking` and `Monster::onThinkDefense` (creatures/monsters/monster.cpp) leave the values of a spell block
in the monster before they cast the spell, and `Combat::getCombatDamage` asks `Monster::getCombatValues` for them, which
multiplies them by a rate of the configuration. `doAttacking` has multiplied them already, by a rate that it chooses by
what the spell cast before has left. `casts_scaled_once` says that a cast obtains the values of its block, multiplied
once, where the first multiplication does not change them.

The rates are read as exact rational numbers. What the world answers for a spell (where the target is, the time, the
random number) is given with each call, and turning to the target is left out.
-/

namespace Moonlight

namespace MonsterSpells

/-- A rational number, cut off towards zero. -/
def truncate (x : ℚ) : Int := x.num.tdiv x.den

theorem truncate_intCast (n : Int) : truncate n = n := by
  rw [truncate, Rat.num_intCast, Rat.den_intCast]
  exact Int.tdiv_one n

structure Config where
  RATE_MONSTER_ATTACK : ℚ
  RATE_MONSTER_DEFENSE : ℚ

/-- `spellBlock_t`. -/
structure SpellBlock where
  chance : UInt32 := 100
  speed : UInt32 := 2000
  range : UInt32 := 0
  minCombatValue : Int32 := 0
  maxCombatValue : Int32 := 0
  isMelee : Bool := false
  deriving DecidableEq

/-- The spells of a `MonsterType`, and the `speed` of its `summonBlock_t`. -/
structure MonsterInfo where
  attackSpells : List SpellBlock
  defenseSpells : List SpellBlock
  summonSpeeds : List UInt32

/-- A cast in `doAttacking`: the block, the greater value that was left in the monster, and what `getCombatDamage` is
given. -/
structure Cast where
  spellBlock : SpellBlock
  left : Int32
  obtained : Option (Int32 × Int32)
  deriving DecidableEq

structure Monster where
  attackTicks : UInt32 := 0
  defenseTicks : UInt32 := 0
  minCombatValue : Int32 := 0
  maxCombatValue : Int32 := 0
  lastMeleeAttack : Int := 0
  extraMeleeAttack : Bool := false
  casts : List Cast := []

/-- What the world answers for a spell of `doAttacking`. -/
structure Turn where
  attackedCreature : Bool
  isFleeing : Bool
  distance : UInt32
  now : Int
  roll : UInt32

section

variable (config : Config) (info : MonsterInfo)

/-- The rate that goes with a greater value. -/
def multiplier (maxCombatValue : Int32) : ℚ :=
  if maxCombatValue > 0 then config.RATE_MONSTER_DEFENSE else config.RATE_MONSTER_ATTACK

/-- A value in 32 bits multiplied by a rate. -/
def scale (value : Int32) (rate : ℚ) : Int32 := Int32.ofInt (truncate (value.toInt * rate))

def getCombatValues (monster : Monster) : Option (Int32 × Int32) :=
  if monster.minCombatValue = 0 ∧ monster.maxCombatValue = 0 then none
  else
    let rate := multiplier config monster.maxCombatValue
    some (scale monster.minCombatValue rate, scale monster.maxCombatValue rate)

/-! ### Attacking -/

/-- A melee attack that is due is made now. -/
def takeExtra (monster : Monster) (now : Int) : Monster :=
  if monster.extraMeleeAttack then { monster with lastMeleeAttack := now } else monster

/-- `canUseSpell`: the answer, `inRange` and `resetTicks`. -/
def canUseSpell (monster : Monster) (turn : Turn) (sb : SpellBlock) (interval : UInt32) (resetTicks : Bool) :
    Bool × Bool × Bool × Monster :=
  if sb.isMelee ∧ turn.isFleeing then (false, true, resetTicks, monster)
  else
    let late := sb.isMelee ∧ turn.now - monster.lastMeleeAttack < 1500
    let extra := monster.extraMeleeAttack
    let monster := takeExtra monster turn.now
    if ¬ extra ∧ late then (false, true, resetTicks, monster)
    else if (¬ sb.isMelee ∨ ¬ extra) ∧ sb.speed > monster.attackTicks then (false, true, false, monster)
    else if (¬ sb.isMelee ∨ ¬ extra) ∧ monster.attackTicks % sb.speed ≥ interval then
      (false, true, resetTicks, monster)
    else if sb.range ≠ 0 ∧ turn.distance > sb.range then (false, false, resetTicks, monster)
    else (true, true, resetTicks, monster)

/-- The values of a block are left in the monster, multiplied, and the spell is cast. -/
def castSpell (monster : Monster) (spellBlock : SpellBlock) : Monster :=
  let rate := multiplier config monster.maxCombatValue
  let cast := { monster with
    minCombatValue := scale spellBlock.minCombatValue rate
    maxCombatValue := scale spellBlock.maxCombatValue rate }
  { cast with casts := monster.casts ++ [⟨spellBlock, monster.maxCombatValue, getCombatValues config cast⟩] }

/-- One turn of the loop in `doAttacking`, for a spell that is not passed over. -/
def attackTurn (interval : UInt32) (turn : Turn) (spellBlock : SpellBlock) (monster : Monster) (resetTicks : Bool) :
    Monster × Bool :=
  let (usable, inRange, resetTicks, monster) := canUseSpell monster turn spellBlock interval resetTicks
  let monster :=
    if usable ∧ spellBlock.chance ≥ turn.roll then
      let monster := castSpell config monster spellBlock
      if spellBlock.isMelee then { monster with extraMeleeAttack := false } else monster
    else monster
  (if ¬ inRange ∧ spellBlock.isMelee then { monster with extraMeleeAttack := true } else monster, resetTicks)

def attackLoop (interval : UInt32) (turns : ℕ → Turn) :
    ℕ → List SpellBlock → Monster → Bool → Monster × Bool
  | _, [], monster, resetTicks => (monster, resetTicks)
  | i, spellBlock :: spellBlocks, monster, resetTicks =>
    if ¬ (turns i).attackedCreature then (monster, resetTicks)
    else if spellBlock.isMelee ∧ (turns i).isFleeing then
      attackLoop interval turns (i + 1) spellBlocks monster resetTicks
    else
      let (monster, resetTicks) := attackTurn config interval (turns i) spellBlock monster resetTicks
      attackLoop interval turns (i + 1) spellBlocks monster resetTicks

def doAttacking (monster : Monster) (interval : UInt32) (attacks : Bool) (turns : ℕ → Turn) : Monster :=
  if ¬ attacks then monster
  else
    let monster := { monster with attackTicks := monster.attackTicks + interval }
    let (monster, resetTicks) := attackLoop config interval turns 0 info.attackSpells monster (interval != 0)
    if resetTicks then { monster with attackTicks := 0 } else monster

/-! ### Defending -/

/-- One turn of the loop over the spells in `onThinkDefense`. -/
def defenseTurn (interval roll : UInt32) (s : Monster × Bool) (spellBlock : SpellBlock) : Monster × Bool :=
  let (monster, resetTicks) := s
  if spellBlock.speed > monster.defenseTicks then (monster, false)
  else if monster.defenseTicks % spellBlock.speed ≥ interval then (monster, resetTicks)
  else if spellBlock.chance ≥ roll then
    ({ monster with minCombatValue := spellBlock.minCombatValue, maxCombatValue := spellBlock.maxCombatValue },
      resetTicks)
  else (monster, resetTicks)

def defenseLoop (interval : UInt32) (rolls : ℕ → UInt32) (monster : Monster) : Monster × Bool :=
  info.defenseSpells.zipIdx.foldl (fun s e => defenseTurn interval (rolls e.2) s e.1) (monster, true)

/-- `onThinkDefense`, without the summons that are placed. -/
def onThinkDefense (monster : Monster) (interval : UInt32) (rolls : ℕ → UInt32) (summoning : Bool) : Monster :=
  let s := defenseLoop info interval rolls { monster with defenseTicks := monster.defenseTicks + interval }
  let resetTicks := s.2 && !(summoning && info.summonSpeeds.any (· > s.1.defenseTicks))
  if resetTicks then { s.1 with defenseTicks := 0 } else s.1

/-! ### Runs -/

inductive Call where
  | doAttacking (interval : UInt32) (attacks : Bool) (turns : ℕ → Turn)
  | onThinkDefense (interval : UInt32) (rolls : ℕ → UInt32) (summoning : Bool)

def step (monster : Monster) : Call → Monster
  | .doAttacking interval attacks turns => doAttacking config info monster interval attacks turns
  | .onThinkDefense interval rolls summoning => onThinkDefense info monster interval rolls summoning

/-- The first multiplication leaves the values of the block as they are, as it does if its rate is one. -/
def Kept (cast : Cast) : Prop :=
  scale cast.spellBlock.minCombatValue (multiplier config cast.left) = cast.spellBlock.minCombatValue ∧
    scale cast.spellBlock.maxCombatValue (multiplier config cast.left) = cast.spellBlock.maxCombatValue

/-- The values of the block are obtained, multiplied once. -/
def ScaledOnce (cast : Cast) : Prop :=
  let rate := multiplier config cast.spellBlock.maxCombatValue
  cast.obtained = some (scale cast.spellBlock.minCombatValue rate, scale cast.spellBlock.maxCombatValue rate)

/-- What is obtained is what `getCombatValues` makes of the values that `doAttacking` has left. -/
def Made (cast : Cast) : Prop :=
  let rate := multiplier config cast.left
  cast.obtained = getCombatValues config
    { minCombatValue := scale cast.spellBlock.minCombatValue rate
      maxCombatValue := scale cast.spellBlock.maxCombatValue rate }

end

theorem scale_one (value : Int32) : scale value 1 = value := by
  rw [scale, mul_one, truncate_intCast, Int32.ofInt_toInt]

section

variable {config : Config} {info : MonsterInfo}

theorem kept_of_one {cast : Cast} (h : multiplier config cast.left = 1) : Kept config cast := by
  rw [Kept, h, scale_one, scale_one]
  exact ⟨rfl, rfl⟩

theorem Made.scaledOnce {cast : Cast} (h : Made config cast)
    (hvalues : ¬ (cast.spellBlock.minCombatValue = 0 ∧ cast.spellBlock.maxCombatValue = 0))
    (hkept : Kept config cast) : ScaledOnce config cast := by
  rw [Made] at h
  rw [hkept.1, hkept.2, getCombatValues, if_neg hvalues] at h
  exact h

/-! ### What the calls do -/

theorem takeExtra_casts (monster : Monster) (now : Int) : (takeExtra monster now).casts = monster.casts := by
  rw [takeExtra]
  split
  · rfl
  · rfl

theorem canUseSpell_casts (monster : Monster) (turn : Turn) (sb : SpellBlock) (interval : UInt32)
    (resetTicks : Bool) : (canUseSpell monster turn sb interval resetTicks).2.2.2.casts = monster.casts := by
  have htaken := takeExtra_casts monster turn.now
  rw [canUseSpell]
  split
  · rfl
  · dsimp only
    split
    · exact htaken
    · split
      · exact htaken
      · split
        · exact htaken
        · split
          · exact htaken
          · exact htaken

/-- Every cast was made as the loop makes it. -/
def AllMade (config : Config) (monster : Monster) : Prop := ∀ cast ∈ monster.casts, Made config cast

theorem allMade_congr {monster monster' : Monster} (h : monster'.casts = monster.casts) :
    AllMade config monster' ↔ AllMade config monster := by
  rw [AllMade, AllMade, h]

theorem allMade_castSpell {monster : Monster} (h : AllMade config monster) (spellBlock : SpellBlock) :
    AllMade config (castSpell config monster spellBlock) := by
  intro cast hcast
  rcases List.mem_append.mp hcast with hbefore | hnew
  · exact h cast hbefore
  · rw [List.mem_singleton.mp hnew]
    rfl

theorem allMade_attackTurn {monster : Monster} (h : AllMade config monster) (interval : UInt32) (turn : Turn)
    (spellBlock : SpellBlock) (resetTicks : Bool) :
    AllMade config (attackTurn config interval turn spellBlock monster resetTicks).1 := by
  have hasked : AllMade config (canUseSpell monster turn spellBlock interval resetTicks).2.2.2 :=
    (allMade_congr (canUseSpell_casts monster turn spellBlock interval resetTicks)).mpr h
  have hcast := allMade_castSpell hasked spellBlock
  -- beyond the cast only `extraMeleeAttack` is written
  have hmade : AllMade config
      (if (canUseSpell monster turn spellBlock interval resetTicks).1 ∧ spellBlock.chance ≥ turn.roll then
        if spellBlock.isMelee then
          { castSpell config (canUseSpell monster turn spellBlock interval resetTicks).2.2.2 spellBlock with
            extraMeleeAttack := false }
        else castSpell config (canUseSpell monster turn spellBlock interval resetTicks).2.2.2 spellBlock
      else (canUseSpell monster turn spellBlock interval resetTicks).2.2.2) := by
    split
    · split
      · exact hcast
      · exact hcast
    · exact hasked
  rw [attackTurn]
  dsimp only
  split
  · exact hmade
  · exact hmade

theorem allMade_attackLoop (interval : UInt32) (turns : ℕ → Turn) (spellBlocks : List SpellBlock)
    {monster : Monster} (h : AllMade config monster) (i : ℕ) (resetTicks : Bool) :
    AllMade config (attackLoop config interval turns i spellBlocks monster resetTicks).1 := by
  induction spellBlocks generalizing i monster resetTicks with
  | nil => exact h
  | cons spellBlock spellBlocks ih =>
    rw [attackLoop]
    split
    · exact h
    · split
      · exact ih h (i + 1) resetTicks
      · exact ih (allMade_attackTurn h interval (turns i) spellBlock resetTicks) (i + 1) _

theorem defenseTurn_casts (interval roll : UInt32) (s : Monster × Bool) (spellBlock : SpellBlock) :
    (defenseTurn interval roll s spellBlock).1.casts = s.1.casts := by
  rw [defenseTurn]
  split
  · rfl
  · split
    · rfl
    · split
      · rfl
      · rfl

theorem defenseLoop_casts (info : MonsterInfo) (interval : UInt32) (rolls : ℕ → UInt32) (monster : Monster) :
    (defenseLoop info interval rolls monster).1.casts = monster.casts := by
  have hfold (l : List (SpellBlock × ℕ)) (s : Monster × Bool) :
      (l.foldl (fun s e => defenseTurn interval (rolls e.2) s e.1) s).1.casts = s.1.casts := by
    induction l generalizing s with
    | nil => rfl
    | cons e l ih => rw [List.foldl_cons, ih, defenseTurn_casts]
  exact hfold _ _

theorem onThinkDefense_casts (monster : Monster) (interval : UInt32) (rolls : ℕ → UInt32) (summoning : Bool) :
    (onThinkDefense info monster interval rolls summoning).casts = monster.casts := by
  have hloop := defenseLoop_casts info interval rolls
    { monster with defenseTicks := monster.defenseTicks + interval }
  rw [onThinkDefense]
  dsimp only
  split
  · exact hloop
  · exact hloop

theorem allMade_step {monster : Monster} (h : AllMade config monster) (call : Call) :
    AllMade config (step config info monster call) := by
  cases call with
  | doAttacking interval attacks turns =>
    rw [step, doAttacking]
    split
    · exact h
    · have hmonster : AllMade config { monster with attackTicks := monster.attackTicks + interval } := h
      have hloop := allMade_attackLoop interval turns info.attackSpells hmonster 0 (interval != 0)
      dsimp only
      split
      · exact hloop
      · exact hloop
  | onThinkDefense interval rolls summoning =>
    exact (allMade_congr (onThinkDefense_casts monster interval rolls summoning)).mpr h

end

/-- **Spells are scaled once where the first scaling does nothing.** -/
theorem casts_scaled_once (config : Config) (info : MonsterInfo) (calls : List Call) :
    ∀ cast ∈ (Runs.run (step config info) {} calls).casts,
      ¬ (cast.spellBlock.minCombatValue = 0 ∧ cast.spellBlock.maxCombatValue = 0) → Kept config cast →
        ScaledOnce config cast := by
  have hstep (monster : Monster) (call : Call) (h : AllMade config monster) :
      AllMade config (step config info monster call) := allMade_step h call
  have hnone : AllMade config {} := fun cast hcast => absurd hcast List.not_mem_nil
  have hall := Runs.run_invariant_of_forall hstep hnone calls
  intro cast hcast hvalues hkept
  exact (hall cast hcast).scaledOnce hvalues hkept

/-- A bite for ten to twenty. -/
def bite : SpellBlock := { minCombatValue := -10, maxCombatValue := -20 }

def rat : MonsterInfo := ⟨[bite], [], []⟩

/-- The target is near, and the spell is cast. -/
def biting : Call := .doAttacking 2000 true fun _ => ⟨true, false, 1, 0, 1⟩

theorem casts_scaled_once_rat : ScaledOnce ⟨1, 2⟩ ⟨bite, 0, some (-10, -20)⟩ :=
  casts_scaled_once ⟨1, 2⟩ rat [biting] _ (by decide +kernel) (by decide) (kept_of_one rfl)

/-- With attacks at double rate the first bite is for forty to eighty. -/
theorem rat_not_scaled_once : ¬ ∀ (config : Config) (info : MonsterInfo) (calls : List Call),
    ∀ cast ∈ (Runs.run (step config info) {} calls).casts,
      ¬ (cast.spellBlock.minCombatValue = 0 ∧ cast.spellBlock.maxCombatValue = 0) → ScaledOnce config cast := by
  intro h
  have hbite := h ⟨2, 1⟩ rat [biting] ⟨bite, 0, some (-40, -80)⟩ (by decide +kernel) (by decide)
  revert hbite
  rw [ScaledOnce]
  decide +kernel

end MonsterSpells

end Moonlight
