import Moonlight.Creatures.SpawnMonster
import Mathlib.Algebra.Order.Ring.Nat

/-!
# The intervals of monster spawns

`SpawnsMonster::loadFromXML` (creatures/monsters/spawns/spawn_monster.cpp) computes the interval of an entry from its
spawn time, the rate and the boosts, and registers the entry if the interval is between a second and a day.

The product of the spawn time and 100000 has 32 bits, which is too few from 42950 s on. What is left of such a product
gives a smaller quotient (`wrapped_lt`), so that the interval is never the right one; `loadMonster_exact_iff` says when
the entry is treated right all the same.
-/

namespace Moonlight.SpawnMonster

def MONSTER_MINSPAWN_INTERVAL : UInt32 := 1000

def MONSTER_MAXSPAWN_INTERVAL : UInt32 := 86400000

/-- What `loadFromXML` reads of an entry. -/
structure Entry where
  name : String
  pos : String
  spawntime : UInt32
  /-- `monsterType->info.isBlockable`, of the monster type of this name. -/
  isBlockable : Bool

variable (rate : Int32) (boosted : Bool) (eventschedule : UInt32)

/-- `boostedrate`. -/
def boostedRate : Int32 := if boosted then 2 else 1

/-- The divisor: two factors with a sign, and one without. -/
def divisor : UInt32 := (rate * boostedRate boosted).toUInt32 * eventschedule

def spawnInterval (spawntime : UInt32) : UInt32 := spawntime * 100000 / divisor rate boosted eventschedule

/-- What `loadFromXML` does about an entry, and its warning. -/
def loadMonster (s : State) (entry : Entry) : State × Option String :=
  let interval := spawnInterval rate boosted eventschedule entry.spawntime
  if interval ≥ MONSTER_MINSPAWN_INTERVAL ∧ interval ≤ MONSTER_MAXSPAWN_INTERVAL then
    (s.addMonster entry.isBlockable interval.toNat, none)
  else if interval ≤ MONSTER_MINSPAWN_INTERVAL then
    (s, some s!"[SpawnsMonster::loadFromXml] - {entry.name} {entry.pos} spawntime can not be less than {1} seconds")
  else
    (s, some s!"[SpawnsMonster::loadFromXml] - {entry.name} {entry.pos} spawntime can not be more than {86400} seconds")

/-! ### In exact integers -/

/-- The divisor, if its factors are not negative and their product is small. -/
def factors : Nat := rate.toNatClampNeg * (boostedRate boosted).toNatClampNeg * eventschedule.toNat

/-- The interval of a spawn time. -/
def exactInterval (spawntime : UInt32) : Nat := spawntime.toNat * 100000 / factors rate boosted eventschedule

/-- A quotient is between a second and a day, by its numerator and denominator. -/
def InRange (n d : Nat) : Prop := 1000 * d ≤ n ∧ n < 86400001 * d

instance (n d : Nat) : Decidable (InRange n d) := inferInstanceAs (Decidable (_ ∧ _))

theorem inRange_iff {n d : Nat} (hd : 0 < d) : InRange n d ↔ 1000 ≤ n / d ∧ n / d ≤ 86400000 := by
  have hupper : n / d ≤ 86400000 ↔ n < 86400001 * d := by rw [← Nat.lt_succ_iff, Nat.div_lt_iff_lt_mul hd]
  rw [InRange, Nat.le_div_iff_mul_le hd, hupper]

/-- The entry is registered with its interval if that is in range, and not otherwise. -/
def LoadsExactly (s : State) (entry : Entry) : Prop :=
  (loadMonster rate boosted eventschedule s entry).1 =
    if 1000 ≤ exactInterval rate boosted eventschedule entry.spawntime ∧
        exactInterval rate boosted eventschedule entry.spawntime ≤ 86400000 then
      s.addMonster entry.isBlockable (exactInterval rate boosted eventschedule entry.spawntime)
    else s

/-- The spawn times for which it comes to that. -/
def Unwrapped (spawntime : UInt32) : Prop :=
  spawntime.toNat < 42950 ∨
    ¬ InRange (spawntime.toNat * 100000) (factors rate boosted eventschedule) ∧
      ¬ InRange (spawntime.toNat * 100000 % 2 ^ 32) (factors rate boosted eventschedule)

variable {rate boosted eventschedule}

/-- What the rate, the boost and the schedule may be. -/
structure Usual (rate : Int32) (boosted : Bool) (eventschedule : UInt32) : Prop where
  one_le_rate : 1 ≤ rate.toInt
  one_le_eventschedule : 1 ≤ eventschedule.toNat
  bound : factors rate boosted eventschedule < 2 ^ 31

theorem boostedRate_cases (boosted : Bool) :
    (boostedRate boosted).toUInt32.toNat = (boostedRate boosted).toNatClampNeg ∧
      0 < (boostedRate boosted).toNatClampNeg := by
  cases boosted
  · decide
  · decide

theorem Usual.factors_pos (h : Usual rate boosted eventschedule) : 0 < factors rate boosted eventschedule := by
  have hrate : 0 < rate.toNatClampNeg := Int.pos_iff_toNat_pos.mp h.one_le_rate
  exact Nat.mul_pos (Nat.mul_pos hrate (boostedRate_cases boosted).2) h.one_le_eventschedule

theorem Usual.toNat_divisor (h : Usual rate boosted eventschedule) :
    (divisor rate boosted eventschedule).toNat = factors rate boosted eventschedule := by
  have hnonneg : 0 ≤ rate := by
    rw [Int32.le_iff_toInt_le]
    exact Int.le_of_lt h.one_le_rate
  have hlt : factors rate boosted eventschedule < 2 ^ 32 := Nat.lt_trans h.bound (by decide)
  rw [divisor, Int32.toUInt32_mul, UInt32.toNat_mul, UInt32.toNat_mul, Int32.toNat_toUInt32_of_le hnonneg,
    (boostedRate_cases boosted).1, Nat.mod_mul_mod]
  exact Nat.mod_eq_of_lt hlt

theorem Usual.toNat_spawnInterval (h : Usual rate boosted eventschedule) (spawntime : UInt32) :
    (spawnInterval rate boosted eventschedule spawntime).toNat =
      spawntime.toNat * 100000 % 2 ^ 32 / factors rate boosted eventschedule := by
  rw [spawnInterval, UInt32.toNat_div, h.toNat_divisor, UInt32.toNat_mul]
  rfl

theorem Usual.loadMonster_eq (h : Usual rate boosted eventschedule) (s : State) (entry : Entry) :
    (loadMonster rate boosted eventschedule s entry).1 =
      if InRange (entry.spawntime.toNat * 100000 % 2 ^ 32) (factors rate boosted eventschedule) then
        s.addMonster entry.isBlockable
          (entry.spawntime.toNat * 100000 % 2 ^ 32 / factors rate boosted eventschedule)
      else s := by
  have hrange : InRange (entry.spawntime.toNat * 100000 % 2 ^ 32) (factors rate boosted eventschedule) ↔
      spawnInterval rate boosted eventschedule entry.spawntime ≥ MONSTER_MINSPAWN_INTERVAL ∧
        spawnInterval rate boosted eventschedule entry.spawntime ≤ MONSTER_MAXSPAWN_INTERVAL := by
    rw [inRange_iff h.factors_pos, ← h.toNat_spawnInterval, ge_iff_le, UInt32.le_iff_toNat_le, UInt32.le_iff_toNat_le]
    rfl
  rw [loadMonster]
  by_cases hin : InRange (entry.spawntime.toNat * 100000 % 2 ^ 32) (factors rate boosted eventschedule)
  · rw [if_pos hin, if_pos (hrange.mp hin), h.toNat_spawnInterval]
  · rw [if_neg hin, if_neg (mt hrange.mpr hin)]
    split
    · rfl
    · rfl

theorem addMonster_ne (s : State) (isBlockable : Bool) (interval : Nat) : s.addMonster isBlockable interval ≠ s :=
  fun heq => Nat.succ_ne_self s.size (congrArg State.size heq)

theorem addMonster_injective (s : State) (isBlockable : Bool) : Function.Injective (s.addMonster isBlockable) := by
  intro interval interval' heq
  have hentry := congrFun (congrArg State.spawnMonsterMap heq) (s.size + 1)
  simp only [State.addMonster, Function.update_self] at hentry
  exact congrArg SpawnBlock.interval hentry

theorem wrapped_lt {n d : Nat} (hd : 0 < d) (hd' : d < 2 ^ 31) (hn : 2 ^ 32 ≤ n) : n % 2 ^ 32 / d < n / d := by
  have hwrapped : n % 2 ^ 32 + d ≤ n := by
    have hle : n % 2 ^ 32 + 2 ^ 32 ≤ n := by omega
    omega
  calc n % 2 ^ 32 / d < n % 2 ^ 32 / d + 1 := Nat.lt_succ_self _
    _ = (n % 2 ^ 32 + d) / d := (Nat.add_div_right _ hd).symm
    _ ≤ n / d := Nat.div_le_div_right hwrapped

/-- **When an entry is registered exactly.** -/
theorem loadMonster_exact_iff (rate : Int32) (boosted : Bool) (eventschedule : UInt32) (s : State) (entry : Entry)
    (h : Usual rate boosted eventschedule) :
    LoadsExactly rate boosted eventschedule s entry ↔ Unwrapped rate boosted eventschedule entry.spawntime := by
  rw [LoadsExactly, h.loadMonster_eq, Unwrapped, exactInterval]
  simp only [← inRange_iff h.factors_pos]
  have hquotient := @wrapped_lt (entry.spawntime.toNat * 100000) _ h.factors_pos h.bound
  generalize factors rate boosted eventschedule = d at hquotient
  by_cases hsmall : entry.spawntime.toNat < 42950
  · have hfits : entry.spawntime.toNat * 100000 < 2 ^ 32 := by omega
    rw [Nat.mod_eq_of_lt hfits]
    exact iff_of_true rfl (Or.inl hsmall)
  have hless := hquotient (by omega)
  generalize entry.spawntime.toNat * 100000 % 2 ^ 32 = wrapped at hless
  rw [or_iff_right hsmall]
  by_cases hexact : InRange (entry.spawntime.toNat * 100000) d
  · rw [if_pos hexact]
    refine iff_of_false ?_ fun hout => hout.1 hexact
    split
    · exact fun heq => Nat.ne_of_lt hless (addMonster_injective _ _ heq)
    · exact (addMonster_ne _ _ _).symm
  · rw [if_neg hexact]
    by_cases hwrapped : InRange wrapped d
    · rw [if_pos hwrapped]
      exact iff_of_false (addMonster_ne _ _ _) fun hout => hout.2 hwrapped
    · rw [if_neg hwrapped]
      exact iff_of_true rfl ⟨hexact, hwrapped⟩

/-- A monster that comes once a minute. -/
def everyMinute : Entry where
  name := "Rat"
  pos := "( 100, 100, 7 )"
  spawntime := 60
  isBlockable := true

theorem loadMonster_exact_iff_everyMinute :
    LoadsExactly 1 false 100 { now := 0 } everyMinute ↔ Unwrapped 1 false 100 60 :=
  loadMonster_exact_iff 1 false 100 { now := 0 } everyMinute ⟨by decide, by decide, by decide⟩

/-- A spawn time of 42950 s becomes an interval that is not even long enough. -/
theorem halfDay_not_exact :
    ¬ ∀ (rate : Int32) (boosted : Bool) (eventschedule : UInt32) (s : State) (entry : Entry),
      Usual rate boosted eventschedule → LoadsExactly rate boosted eventschedule s entry := by
  intro h
  have hexact := h 1 false 100 { now := 0 } { everyMinute with spawntime := 42950 } ⟨by decide, by decide, by decide⟩
  have hsize := congrArg State.size hexact
  exact absurd hsize (by decide)

end Moonlight.SpawnMonster
