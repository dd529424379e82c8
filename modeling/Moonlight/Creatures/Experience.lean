import Mathlib.Tactic.Linarith
import Mathlib.Tactic.Ring
import Moonlight.Lib.Runs

/-!
# Levels and experience

`addExperience`, `removeExperience` and the level loss in `Player::death` (creatures/players/player.cpp)
each have a loop of their own that moves the level to where the experience says, and health, mana and
capacity with it. Up to level 8 every vocation gains what `VOCATION_NONE` gains.

The gain loop looks the table up after it has raised the level, so it takes the table of the level that is
reached. The loss loop of `removeExperience` looks it up after it has lowered the level, and therefore
takes the table of the level below the one that is lost; the loop of `death` takes the table of the vocation
throughout. Both are right as long as they stay on one side of level 8: `run_inStep` is the agreement of
level, experience and the three values in every run that does, and `gained_and_lost` is a level that is
gained and lost again.

`getExpForLevel` computes with 64-bit words. The proofs use the sum behind the formula, `expBefore`.
-/

namespace Moonlight.Experience

/-- What a level adds to health, mana and capacity. -/
@[ext] structure Gains where
  hp : BitVec 32
  mana : BitVec 32
  cap : BitVec 32
  deriving DecidableEq, Repr

instance : Add Gains := ⟨fun a b => ⟨a.hp + b.hp, a.mana + b.mana, a.cap + b.cap⟩⟩

structure Vocation where
  id : Nat
  gains : Gains
  deriving DecidableEq, Repr

def VOCATION_NONE : Nat := 0

structure Player where
  vocation : Vocation
  level : Nat
  experience : Nat
  health : BitVec 32
  healthMax : BitVec 32
  mana : BitVec 32
  manaMax : BitVec 32
  capacity : BitVec 32
  /-- Not in the source: a loss was cut off at zero. -/
  clamped : Bool := false
  deriving DecidableEq, Repr

/-- The parameter is an `int32_t`, the arithmetic is that of `uint64_t`. -/
def getExpForLevel (lv : Nat) : Nat :=
  let lv : Int := (lv : Int).bmod (2 ^ 32) - 1
  ((50 * lv * lv * lv - 150 * lv * lv + 400 * lv) % 2 ^ 64).toNat / 3

section

variable (noneVocation : Vocation)

/-- The table that the loops look up at a level. -/
def table (vocation : Vocation) (level : Nat) : Gains :=
  if vocation.id ≠ VOCATION_NONE ∧ level ≤ 8 then noneVocation.gains else vocation.gains

def gainLevel (p : Player) : Player :=
  let level := p.level + 1
  let gains := table noneVocation p.vocation level
  { p with
    level := level
    healthMax := p.healthMax + gains.hp
    health := p.health + gains.hp
    manaMax := p.manaMax + gains.mana
    mana := p.mana + gains.mana
    capacity := p.capacity + gains.cap }

/-- The loop of `addExperience`. -/
def gainLevels (p : Player) (nextLevelExp : Nat) : Player :=
  if nextLevelExp ≤ p.experience then
    let q := gainLevel noneVocation p
    let next := getExpForLevel (q.level + 1)
    -- the last level
    if _h : next ≤ nextLevelExp then q else gainLevels q next
  else p
termination_by p.experience + 1 - nextLevelExp
decreasing_by
  have hsame : (gainLevel noneVocation p).experience = p.experience := rfl
  have hnext : nextLevelExp < getExpForLevel ((gainLevel noneVocation p).level + 1) := Nat.lt_of_not_le _h
  omega

def addExperience (p : Player) (exp : Nat) : Player :=
  if getExpForLevel (p.level + 1) ≤ getExpForLevel p.level then p
  else if exp = 0 then p
  else
    let q := gainLevels noneVocation { p with experience := (p.experience + exp) % 2 ^ 64 }
      (getExpForLevel (p.level + 1))
    if p.level ≠ q.level then { q with health := q.healthMax, mana := q.manaMax } else q

/-- `std::max<int32_t>(0, value - gain)`. -/
def lose (value gain : BitVec 32) : BitVec 32 := if (value - gain).toInt < 0 then 0 else value - gain

def loseLevel (p : Player) (gains : Gains) : Player :=
  { p with
    level := p.level - 1
    healthMax := lose p.healthMax gains.hp
    manaMax := lose p.manaMax gains.mana
    capacity := lose p.capacity gains.cap
    clamped := p.clamped || (p.healthMax - gains.hp).toInt < 0 || (p.manaMax - gains.mana).toInt < 0 ||
      (p.capacity - gains.cap).toInt < 0 }

/-- The loops of `removeExperience` and `death`; `tables` is looked up at the level after it is lowered. -/
def loseLevels (tables : Nat → Gains) (p : Player) : Player :=
  if 1 < p.level ∧ p.experience < getExpForLevel p.level then
    loseLevels tables (loseLevel p (tables (p.level - 1)))
  else p
termination_by p.level
decreasing_by
  show p.level - 1 < p.level
  omega

def removeExperience (p : Player) (exp : Nat) : Player :=
  if p.experience = 0 ∨ exp = 0 then p
  else
    -- `std::max<int64_t>(0, experience - exp)`
    let experience := (max 0 (((p.experience : Int) - exp).bmod (2 ^ 64))).toNat
    let q := loseLevels (table noneVocation p.vocation) { p with experience }
    if p.level ≠ q.level then { q with health := q.healthMax, mana := q.manaMax } else q

/-- The level loss of `death`. -/
def death (p : Player) (expLoss : Nat) : Player :=
  if expLoss = 0 then p
  else
    let experience := if p.vocation.id = VOCATION_NONE ∨ 7 < p.level
      then (((p.experience : Int) - expLoss) % 2 ^ 64).toNat else p.experience
    loseLevels (fun _ => p.vocation.gains) { p with experience }

inductive Op where
  | addExperience (exp : Nat)
  | removeExperience (exp : Nat)
  | death (expLoss : Nat)

def step (p : Player) : Op → Player
  | .addExperience exp => addExperience noneVocation p exp
  | .removeExperience exp => removeExperience noneVocation p exp
  | .death expLoss => death p expLoss

/-- What the levels up to `level` have added. -/
def gainsBefore (vocation : Vocation) : Nat → Gains
  | 0 => ⟨0, 0, 0⟩
  | n + 1 => gainsBefore vocation n + table noneVocation vocation (n + 2)

def Player.stats (p : Player) : Gains := ⟨p.healthMax, p.manaMax, p.capacity⟩

/-- The largest level whose experience `getExpForLevel` can compute. -/
def maxLevel : Nat := 717217

/-- **Level, experience and the three values are in step**: the values are those of the start `p₀`, plus or
minus what the levels between add. -/
structure InStep (p₀ p : Player) : Prop where
  lower : getExpForLevel p.level ≤ p.experience
  upper : p.experience < getExpForLevel (p.level + 1)
  stats : p.clamped = false → p.stats + gainsBefore noneVocation p₀.vocation (p₀.level - 1) =
    p₀.stats + gainsBefore noneVocation p₀.vocation (p.level - 1)

/-- The gain and the loss tables are the same at all levels. -/
def SameTables (vocation : Vocation) : Prop :=
  vocation.id = VOCATION_NONE ∨ vocation.gains = noneVocation.gains

/-- The experience stays where levels can be computed, and no loss crosses level 8: `removeExperience` does
not lower the level from 9 to 8, nor `death` from 8 to 7. An amount to remove that is above the
experience by more than `2 ^ 63` is a negative number of the scripts. -/
def Tracks (p : Player) : Op → Prop
  | .addExperience exp => p.experience + exp < getExpForLevel maxLevel
  | .removeExperience exp => exp ≤ p.experience + 2 ^ 63 ∧
    (SameTables noneVocation p.vocation ∨ p.level ≤ 8 ∨ getExpForLevel 9 + exp ≤ p.experience)
  | .death expLoss => expLoss ≤ p.experience ∧
    (SameTables noneVocation p.vocation ∨ p.level ≤ 7 ∨ getExpForLevel 8 + expLoss ≤ p.experience)

end

/-! ### The sum behind the formula -/

/-- The experience that `n` levels need. -/
def expBefore : Nat → Nat
  | 0 => 0
  | n + 1 => expBefore n + (50 * (n * (n - 1)) + 100)

theorem expBefore_strictMono : StrictMono expBefore :=
  strictMono_nat_of_lt_succ fun n => by
    show expBefore n < expBefore n + (50 * (n * (n - 1)) + 100)
    omega

theorem three_mul_expBefore (n : Nat) :
    (3 * expBefore n : Int) = 50 * n * n * n - 150 * n * n + 400 * n := by
  induction n with
  | zero => rfl
  | succ n ih =>
    have hcast : ((n * (n - 1) : Nat) : Int) = n * n - n := by
      cases n with
      | zero => rfl
      | succ n =>
        push_cast
        ring
    show (3 * ((expBefore n + (50 * (n * (n - 1)) + 100) : Nat) : Int)) = _
    push_cast [← hcast]
    have hsum := ih
    push_cast at hcast hsum
    rw [hcast]
    linarith

theorem expBefore_maxLevel : 3 * expBefore (maxLevel - 1) < 2 ^ 64 ∧ 2 ^ 64 ≤ 3 * expBefore maxLevel := by
  have hbelow := three_mul_expBefore 717216
  have habove := three_mul_expBefore 717217
  norm_num at hbelow habove
  have hlevel : maxLevel = 717217 := rfl
  have hlast : maxLevel - 1 = 717216 := rfl
  rw [hlast, hlevel]
  omega

theorem getExpForLevel_eq {n : Nat} (hn : n < maxLevel) : getExpForLevel (n + 1) = expBefore n := by
  have hle : expBefore n ≤ expBefore (maxLevel - 1) := expBefore_strictMono.monotone (by omega)
  have hmax := expBefore_maxLevel.1
  have hsmall : n < 717217 := hn
  have hself : (((n + 1 : Nat) : Int)).bmod (2 ^ 32) - 1 = n := by
    rw [Int.bmod_eq_of_le (by omega) (by omega)]
    push_cast
    ring
  have hpoly : (50 * (n : Int) * n * n - 150 * n * n + 400 * n) % 2 ^ 64 = 3 * expBefore n := by
    rw [← three_mul_expBefore]
    exact Int.emod_eq_of_lt (by omega) (by omega)
  unfold getExpForLevel
  dsimp only
  rw [hself, hpoly]
  omega

theorem getExpForLevel_one : getExpForLevel 1 = 0 := by decide

/-! ### The tables -/

theorem add_gains (a b : Gains) : a + b = ⟨a.hp + b.hp, a.mana + b.mana, a.cap + b.cap⟩ := rfl

theorem gains_add_comm (a b : Gains) : a + b = b + a := by
  rw [add_gains, add_gains, BitVec.add_comm a.hp, BitVec.add_comm a.mana, BitVec.add_comm a.cap]

theorem gains_add_assoc (a b c : Gains) : a + b + c = a + (b + c) := by
  simp only [add_gains, BitVec.add_assoc]

theorem gains_add_right_comm (a b c : Gains) : a + b + c = a + c + b := by
  rw [gains_add_assoc, gains_add_comm b, gains_add_assoc]

theorem gains_add_right_cancel {a b c : Gains} (h : a + c = b + c) : a = b := by
  rw [add_gains, add_gains, Gains.mk.injEq] at h
  apply Gains.ext
  · exact (BitVec.add_left_inj _).mp h.1
  · exact (BitVec.add_left_inj _).mp h.2.1
  · exact (BitVec.add_left_inj _).mp h.2.2

section

variable {noneVocation : Vocation}

theorem table_of_sameTables {vocation : Vocation} (h : SameTables noneVocation vocation) (level : Nat) :
    table noneVocation vocation level = vocation.gains := by
  unfold table
  split
  next hc => exact (h.resolve_left hc.1).symm
  next => rfl

theorem table_of_gt {vocation : Vocation} {level : Nat} (h : 8 < level) :
    table noneVocation vocation level = vocation.gains :=
  if_neg fun hc => Nat.not_lt.mpr hc.2 h

theorem table_of_le {vocation : Vocation} {level level' : Nat} (h : level ≤ 8) (h' : level' ≤ 8) :
    table noneVocation vocation level = table noneVocation vocation level' := by
  unfold table
  simp only [h, h']

/-! ### The loops -/

theorem gainLevel_stats (p : Player) :
    (gainLevel noneVocation p).stats = p.stats + table noneVocation p.vocation (p.level + 1) := rfl

/-- What the loops keep: the values belong to the level, counted from the start `p₀`. -/
def Balanced (noneVocation : Vocation) (p₀ p : Player) : Prop :=
  p.clamped = false → p.stats + gainsBefore noneVocation p₀.vocation (p₀.level - 1) =
    p₀.stats + gainsBefore noneVocation p₀.vocation (p.level - 1)

theorem gainLevels_stop {p : Player} {next : Nat} (h : p.experience < next) :
    gainLevels noneVocation p next = p := by
  unfold gainLevels
  exact if_neg (Nat.not_le.mpr h)

theorem gainLevels_step {p : Player} {next next' : Nat} (h : next ≤ p.experience)
    (hnext : getExpForLevel (p.level + 1 + 1) = next') (hlt : next < next') :
    gainLevels noneVocation p next = gainLevels noneVocation (gainLevel noneVocation p) next' := by
  conv_lhs => unfold gainLevels
  rw [if_pos h]
  have hlevel : (gainLevel noneVocation p).level = p.level + 1 := rfl
  dsimp only
  rw [hlevel, hnext]
  exact dif_neg (Nat.not_le.mpr hlt)

/-- Level and experience agree, and the values belong to the level; `m` bounds the level. -/
structure Settled (noneVocation : Vocation) (m : Nat) (p₀ p : Player) : Prop where
  pos : 1 ≤ p.level
  le : p.level ≤ m
  vocation : p.vocation = p₀.vocation
  lower : expBefore (p.level - 1) ≤ p.experience
  upper : p.experience < expBefore p.level
  balanced : Balanced noneVocation p₀ p

/-- **The gain loop** stops at the level of the experience, and adds the tables of the levels it passes. -/
theorem gainLevels_spec {m : Nat} (hm : m < maxLevel) {p₀ p : Player} (hlevel : 1 ≤ p.level)
    (hmax : p.level ≤ m) (hlow : expBefore (p.level - 1) ≤ p.experience) (hexp : p.experience < expBefore m)
    (hvoc : p.vocation = p₀.vocation) (hbal : Balanced noneVocation p₀ p) :
    Settled noneVocation m p₀ (gainLevels noneVocation p (expBefore p.level)) := by
  -- the induction is on the levels that are left
  induction hn : m - p.level generalizing p with
  | zero =>
    have hlast : p.level = m := by omega
    have hstop : p.experience < expBefore p.level := hlast ▸ hexp
    rw [gainLevels_stop hstop]
    exact ⟨hlevel, hmax, hvoc, hlow, hstop, hbal⟩
  | succ n ih =>
    have hnext : p.level + 1 ≤ m := by omega
    by_cases hstop : p.experience < expBefore p.level
    · rw [gainLevels_stop hstop]
      exact ⟨hlevel, hmax, hvoc, hlow, hstop, hbal⟩
    have hreach : expBefore p.level ≤ p.experience := Nat.not_lt.mp hstop
    rw [gainLevels_step hreach (getExpForLevel_eq (Nat.lt_of_le_of_lt hnext hm))
      (expBefore_strictMono (Nat.lt_succ_self _))]
    have hup : (gainLevel noneVocation p).level = p.level + 1 := rfl
    have hbal' : Balanced noneVocation p₀ (gainLevel noneVocation p) := by
      intro hclamped
      have hold := hbal hclamped
      obtain ⟨k, hk⟩ := Nat.exists_eq_add_of_le' hlevel
      rw [hup, gainLevel_stats, gains_add_right_comm, hold, gains_add_assoc, hvoc, hk, Nat.add_sub_cancel,
        Nat.add_sub_cancel]
      rfl
    rw [← hup]
    refine ih ?_ ?_ ?_ hexp hvoc hbal' ?_
    · omega
    · omega
    · rw [hup, Nat.add_sub_cancel]
      exact hreach
    · omega

theorem lose_eq {value gain : BitVec 32} (h : ¬ (value - gain).toInt < 0) : lose value gain = value - gain :=
  if_neg h

theorem loseLevel_stats {p : Player} {gains : Gains} (h : (loseLevel p gains).clamped = false) :
    p.clamped = false ∧ (loseLevel p gains).stats + gains = p.stats := by
  simp only [loseLevel, Bool.or_eq_false_iff, decide_eq_false_iff_not] at h
  obtain ⟨⟨⟨hp, hhp⟩, hmana⟩, hcap⟩ := h
  refine ⟨hp, ?_⟩
  unfold Player.stats loseLevel
  dsimp only
  rw [lose_eq hhp, lose_eq hmana, lose_eq hcap, add_gains]
  simp only [BitVec.sub_add_cancel]

/-- **The loss loop** stops at the level of the experience. The values follow if the table of every level
that is lost is the one of its gain. -/
theorem loseLevels_spec {m : Nat} (hm : m < maxLevel) {tables : Nat → Gains} {p₀ p : Player}
    (hlevel : 1 ≤ p.level) (hmax : p.level ≤ m) (hexp : p.experience < expBefore p.level)
    (hvoc : p.vocation = p₀.vocation)
    (htables : ∀ l, 1 ≤ l → l < p.level → p.experience < expBefore l →
      tables l = table noneVocation p.vocation (l + 1)) (hbal : Balanced noneVocation p₀ p) :
    Settled noneVocation m p₀ (loseLevels tables p) := by
  obtain ⟨n, hn⟩ := Nat.exists_eq_add_of_le' hlevel
  induction n generalizing p with
  | zero =>
    -- level 1 needs nothing
    have hone : p.level = 1 := by omega
    unfold loseLevels
    rw [if_neg (fun hc => by omega)]
    refine ⟨hlevel, hmax, hvoc, ?_, hexp, hbal⟩
    rw [hone]
    exact Nat.zero_le _
  | succ n ih =>
    have hlast : p.level - 1 = n + 1 := by omega
    have hhere : getExpForLevel p.level = expBefore (n + 1) := by
      rw [hn]
      exact getExpForLevel_eq (by omega)
    unfold loseLevels
    rw [hhere, hlast]
    by_cases hlost : p.experience < expBefore (n + 1)
    · rw [if_pos ⟨by omega, hlost⟩, htables (n + 1) (Nat.le_add_left _ _) (by omega) hlost]
      have hdown : (loseLevel p (table noneVocation p.vocation (n + 1 + 1))).level = n + 1 := hlast
      refine ih ?_ ?_ ?_ hvoc ?_ ?_ hdown
      · omega
      · omega
      · rw [hdown]
        exact hlost
      · intro l hl hlt hexp'
        exact htables l hl (by omega) hexp'
      · intro hclamped
        obtain ⟨hp, hstats⟩ := loseLevel_stats hclamped
        have hold := hbal hp
        rw [hlast, ← hstats, hvoc] at hold
        rw [hdown, Nat.add_sub_cancel, hvoc]
        refine gains_add_right_cancel (c := table noneVocation p₀.vocation (n + 1 + 1)) ?_
        rw [gains_add_right_comm, hold, gains_add_assoc]
        rfl
    · rw [if_neg (fun hc => hlost hc.2)]
      refine ⟨hlevel, hmax, hvoc, ?_, hexp, hbal⟩
      rw [hlast]
      exact Nat.not_lt.mp hlost

/-! ### Runs -/

variable {m : Nat} {p₀ p : Player}

theorem Settled.heal (h : Settled noneVocation m p₀ p) (health mana : BitVec 32) :
    Settled noneVocation m p₀ { p with health, mana } :=
  ⟨h.pos, h.le, h.vocation, h.lower, h.upper, h.balanced⟩

theorem Settled.experience_lt (h : Settled noneVocation m p₀ p) : p.experience < expBefore m :=
  Nat.lt_of_lt_of_le h.upper (expBefore_strictMono.monotone h.le)

theorem three_mul_expBefore_lt (hm : m + 1 = maxLevel) : 3 * expBefore m < 2 ^ 64 := by
  have hlast : m = maxLevel - 1 := by rw [← hm, Nat.add_sub_cancel]
  rw [hlast]
  exact expBefore_maxLevel.1

theorem Settled.addExperience (hm : m + 1 = maxLevel) (h : Settled noneVocation m p₀ p) {exp : Nat}
    (hexp : p.experience + exp < getExpForLevel maxLevel) :
    Settled noneVocation m p₀ (addExperience noneVocation p exp) := by
  have hlt : m < maxLevel := hm ▸ Nat.lt_succ_self m
  have hbound : p.experience + exp < expBefore m := by
    rw [← getExpForLevel_eq hlt, hm]
    exact hexp
  have hword := three_mul_expBefore_lt hm
  have hsum : (p.experience + exp) % 2 ^ 64 = p.experience + exp := Nat.mod_eq_of_lt (by omega)
  unfold Experience.addExperience
  split
  · exact h
  split
  · exact h
  rw [getExpForLevel_eq (Nat.lt_of_le_of_lt h.le hlt), hsum]
  have hspec := gainLevels_spec (p := { p with experience := p.experience + exp }) hlt h.pos h.le
    (Nat.le_add_right_of_le h.lower) hbound h.vocation h.balanced
  dsimp only
  split
  · exact hspec.heal _ _
  · exact hspec

theorem Settled.removeExperience (hm : m + 1 = maxLevel) (h : Settled noneVocation m p₀ p) {exp : Nat}
    (hexp : exp ≤ p.experience + 2 ^ 63)
    (hcross : SameTables noneVocation p.vocation ∨ p.level ≤ 8 ∨ getExpForLevel 9 + exp ≤ p.experience) :
    Settled noneVocation m p₀ (removeExperience noneVocation p exp) := by
  have hlt : m < maxLevel := hm ▸ Nat.lt_succ_self m
  have hword := three_mul_expBefore_lt hm
  have hbelow := h.experience_lt
  have hdiff : (max 0 (((p.experience : Int) - exp).bmod (2 ^ 64))).toNat = p.experience - exp := by
    rw [Int.bmod_eq_of_le (by omega) (by omega)]
    omega
  unfold Experience.removeExperience
  split
  · exact h
  rw [hdiff]
  have htables : ∀ l, 1 ≤ l → l < p.level → p.experience - exp < expBefore l →
      table noneVocation p.vocation l = table noneVocation p.vocation (l + 1) := by
    intro l _ hl hlost
    rcases hcross with hsame | hlow | hhigh
    · rw [table_of_sameTables hsame, table_of_sameTables hsame]
    · exact table_of_le (by omega) (by omega)
    · -- level 9 is not lost
      rw [getExpForLevel_eq (n := 8) (by decide)] at hhigh
      have hl9 : 8 < l := expBefore_strictMono.lt_iff_lt.mp (by omega)
      rw [table_of_gt hl9, table_of_gt (Nat.lt_succ_of_lt hl9)]
  have hspec := loseLevels_spec (p := { p with experience := p.experience - exp }) hlt h.pos h.le
    (Nat.lt_of_le_of_lt (Nat.sub_le _ _) h.upper) h.vocation htables h.balanced
  dsimp only
  split
  · exact hspec.heal _ _
  · exact hspec

theorem Settled.death (hm : m + 1 = maxLevel) (h : Settled noneVocation m p₀ p) {expLoss : Nat}
    (hexp : expLoss ≤ p.experience)
    (hcross : SameTables noneVocation p.vocation ∨ p.level ≤ 7 ∨ getExpForLevel 8 + expLoss ≤ p.experience) :
    Settled noneVocation m p₀ (death p expLoss) := by
  have hlt : m < maxLevel := hm ▸ Nat.lt_succ_self m
  have hword := three_mul_expBefore_lt hm
  have hbelow := h.experience_lt
  have hdiff : (((p.experience : Int) - expLoss) % 2 ^ 64).toNat = p.experience - expLoss := by
    rw [Int.emod_eq_of_lt (by omega) (by omega)]
    omega
  unfold Experience.death
  split
  · exact h
  rw [hdiff]
  have hle : (if p.vocation.id = VOCATION_NONE ∨ 7 < p.level then p.experience - expLoss else p.experience) ≤
      p.experience := by
    split
    · exact Nat.sub_le _ _
    · exact Nat.le_refl _
  refine loseLevels_spec (p := { p with experience := _ }) hlt h.pos h.le (Nat.lt_of_le_of_lt hle h.upper)
    h.vocation ?_ h.balanced
  intro l _ hl hlost
  dsimp only at hl hlost ⊢
  rcases hcross with hsame | hlow | hhigh
  · rw [table_of_sameTables hsame]
  · split at hlost
    next hpays =>
      -- only a player without a vocation pays below level 8
      have hnone : p.vocation.id = VOCATION_NONE := hpays.resolve_right (by omega)
      rw [table_of_sameTables (.inl hnone)]
    next =>
      have hmono := expBefore_strictMono.monotone (show l ≤ p.level - 1 by omega)
      have hlow' := h.lower
      omega
  · -- level 8 is not lost
    rw [getExpForLevel_eq (n := 7) (by decide)] at hhigh
    have hl8 : 7 < l := expBefore_strictMono.lt_iff_lt.mp (by split at hlost <;> omega)
    rw [table_of_gt (Nat.succ_lt_succ hl8)]

theorem Settled.inStep (hm : m + 1 = maxLevel) (h : Settled noneVocation m p₀ p) :
    InStep noneVocation p₀ p := by
  have hlt : p.level < maxLevel := Nat.lt_of_le_of_lt h.le (hm ▸ Nat.lt_succ_self m)
  refine ⟨?_, ?_, h.balanced⟩
  · obtain ⟨n, hn⟩ := Nat.exists_eq_add_of_le' h.pos
    have hlow := h.lower
    rw [hn, Nat.add_sub_cancel] at hlow
    rw [hn, getExpForLevel_eq (by omega)]
    exact hlow
  · rw [getExpForLevel_eq hlt]
    exact h.upper

/-- **Level, experience and values are in step in every state of a run** in which the experience stays
where levels can be computed, no loss crosses level 8, and no negative amount is removed. -/
theorem run_inStep (noneVocation : Vocation) (p₀ : Player) (hlevel : p₀.level < maxLevel)
    (hlower : getExpForLevel p₀.level ≤ p₀.experience)
    (hupper : p₀.experience < getExpForLevel (p₀.level + 1)) (ops : List Op)
    (hops : Runs.Meets (step noneVocation) (Tracks noneVocation) p₀ ops) :
    ∀ pre, pre <+: ops → InStep noneVocation p₀ (Runs.run (step noneVocation) p₀ pre) := by
  obtain ⟨m, hm⟩ : ∃ m, m + 1 = maxLevel := ⟨maxLevel - 1, rfl⟩
  have hstart : Settled noneVocation m p₀ p₀ := by
    have hpos : 1 ≤ p₀.level := by
      by_contra hzero
      have hlevel0 : p₀.level = 0 := by omega
      rw [hlevel0, Nat.zero_add, getExpForLevel_one] at hupper
      exact Nat.not_lt_zero _ hupper
    obtain ⟨n, hn⟩ := Nat.exists_eq_add_of_le' hpos
    rw [getExpForLevel_eq hlevel] at hupper
    rw [hn, getExpForLevel_eq (by omega)] at hlower
    refine ⟨hpos, by omega, rfl, ?_, hupper, fun _ => rfl⟩
    rw [hn, Nat.add_sub_cancel]
    exact hlower
  have hstep : ∀ p op, Settled noneVocation m p₀ p → Tracks noneVocation p op →
      Settled noneVocation m p₀ (step noneVocation p op) := by
    intro p op h hop
    cases op with
    | addExperience exp => exact h.addExperience hm hop
    | removeExperience exp => exact h.removeExperience hm hop.1 hop.2
    | death expLoss => exact h.death hm hop.1 hop.2
  rintro pre ⟨post, rfl⟩
  exact (Runs.run_invariant hstep hstart (Runs.meets_append.mp hops).1).inStep hm

end

/-- No vocation: 5 health, 5 mana and 10 capacity (in hundredths) a level. -/
def citizen : Vocation := ⟨VOCATION_NONE, ⟨5, 5, 1000⟩⟩

def knight : Vocation := ⟨4, ⟨30, 0, 3000⟩⟩

/-- A knight who has just reached level 8. -/
def knightOfLevel8 : Player := ⟨knight, 8, 4200, 185, 185, 90, 90, 47000, false⟩

theorem two_levels_gained_inStep :
    InStep citizen knightOfLevel8
      (Runs.run (step citizen) knightOfLevel8 [.addExperience 5100, .removeExperience 500]) := by
  refine run_inStep citizen knightOfLevel8 (by decide) (by decide +kernel) (by decide +kernel)
    [.addExperience 5100, .removeExperience 500] ?_ _ List.prefix_rfl
  refine ⟨?_, ⟨?_, .inr (.inr ?_)⟩, trivial⟩
  · show knightOfLevel8.experience + 5100 < getExpForLevel maxLevel
    decide +kernel
  · show 500 ≤ (addExperience citizen knightOfLevel8 5100).experience + 2 ^ 63
    decide +kernel
  · show getExpForLevel 9 + 500 ≤ (addExperience citizen knightOfLevel8 5100).experience
    decide +kernel

/-- Level 9 is gained with the table of the knight and lost with the table of no vocation. -/
theorem gained_and_lost :
    let p := Runs.run (step citizen) knightOfLevel8 [.addExperience 2200, .removeExperience 2200]
    p.level = 8 ∧ p.experience = 4200 ∧ p.clamped = false ∧ p.stats = ⟨210, 85, 49000⟩ ∧
      ¬ InStep citizen knightOfLevel8 p := by
  refine ⟨by decide +kernel, by decide +kernel, by decide +kernel, by decide +kernel, fun h => ?_⟩
  have hstats := h.stats (by decide +kernel)
  revert hstats
  decide +kernel

end Moonlight.Experience
