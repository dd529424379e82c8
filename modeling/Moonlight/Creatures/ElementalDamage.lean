import Mathlib.Data.Rat.Floor
import Moonlight.Lib.Words

/-!
# Elemental damage

Damage has a primary part and a secondary one. `ValueCallback::getMinMaxValues` splits what was rolled for a weapon with
an element in proportion to its attack, and `Combat::applyImbuementElementalDamage` moves a percentage to the element of
an imbuement (both creatures/combat/combat.cpp).

The first rounds both parts, and what is rounded up in one is rounded down in the other. The second assigns the primary
part before it computes the secondary one from it, and assigns that too, whatever there was. `elementalDamage_iff` says
when both keep the sum: the second, where what is lost this way is no more than the rounding may cost.

Floating-point products are read as exact rational numbers.
-/

namespace Moonlight

namespace ElementalDamage

open Words

abbrev CombatType := UInt16

def COMBAT_NONE : CombatType := 0

structure Part where
  type : CombatType := COMBAT_NONE
  value : ℤ := 0

/-- `CombatDamage`, its two parts. -/
structure CombatDamage where
  primary : Part := {}
  secondary : Part := {}

def CombatDamage.sum (damage : CombatDamage) : ℤ := damage.primary.value + damage.secondary.value

/-- A conversion to a whole number, which is towards zero. -/
def truncate (x : ℚ) : ℤ := if 0 ≤ x then ⌊x⌋ else ⌈x⌉

/-- `std::round`: halves are away from zero. -/
def round (x : ℚ) : ℤ := if 0 ≤ x then ⌊x + 1 / 2⌋ else ⌈x - 1 / 2⌉

/-! ### The split -/

/-- What a callback is for: `COMBAT_FORMULA_LEVELMAGIC`, `COMBAT_FORMULA_SKILL`, or anything else. -/
inductive CallbackType where
  | levelMagic
  | skill
  | unknown
  deriving DecidableEq

/-- What is asked of the weapon of the player, and of its ammunition. -/
structure Weapon where
  attack : ℤ
  ammunition : ℤ := 0
  elementType : CombatType
  elementDamageValue : ℤ

/-- `attackValue`, of a weapon with an element. -/
def Weapon.attackValue (weapon : Weapon) : ℤ := weapon.attack + weapon.ammunition + weapon.elementDamageValue

/-- `factor`. -/
def Weapon.factor (weapon : Weapon) : ℚ := weapon.elementDamageValue / weapon.attackValue

/-- A conversion to 32 bits with a sign; there is no number where it is not defined. -/
def int32 (n : ℤ) : Option ℤ := if -2147483648 ≤ n ∧ n < 2147483648 then some n else none

/-- The two parts, of a rolled value. -/
def split (weapon : Weapon) (defaultDmg : ℤ) : Option (ℤ × ℤ) :=
  if weapon.attackValue = 0 then none
  else
    (int32 (round (defaultDmg * weapon.factor))).bind fun elementDamage =>
      (int32 (round (defaultDmg * (1 - weapon.factor)))).map fun physDmg => (physDmg, elementDamage)

/-- `ValueCallback::getMinMaxValues`; `defaultDmg` is rolled between the results of the script, if it has any. -/
def getMinMaxValues (type : CallbackType) (weapon : Option Weapon) (defaultDmg : Option ℤ) (damage : CombatDamage) :
    Option CombatDamage :=
  let plain (defaultDmg : ℤ) : CombatDamage :=
    { primary := { damage.primary with value := defaultDmg }, secondary := ⟨COMBAT_NONE, 0⟩ }
  match type, weapon, defaultDmg with
  | .unknown, _, _ => some damage
  | .skill, some weapon, none => some { damage with secondary := { damage.secondary with type := weapon.elementType } }
  | .skill, some weapon, some defaultDmg =>
    if weapon.elementType ≠ COMBAT_NONE then
      (split weapon defaultDmg).map fun (physDmg, elementDamage) =>
        { primary := { damage.primary with value := physDmg }, secondary := ⟨weapon.elementType, elementDamage⟩ }
    else some (plain defaultDmg)
  | _, _, none => some damage
  | _, _, some defaultDmg => some (plain defaultDmg)

/-! ### The imbuement -/

/-- `imbuementInfo.imbuement`; `loadFromXml` takes no more than a hundred percent. -/
structure Imbuement where
  combatType : CombatType
  elementDamage : ℤ
  bounds : 0 ≤ elementDamage ∧ elementDamage ≤ 100

/-- `damagePercent`. -/
def Imbuement.damagePercent (imbuement : Imbuement) : ℚ := imbuement.elementDamage / 100

def Imbuement.apply (imbuement : Imbuement) (damage : CombatDamage) : CombatDamage :=
  let damage := { damage with secondary := { damage.secondary with type := imbuement.combatType } }
  let damage := { damage with
    primary := { damage.primary with value := truncate (damage.primary.value * (1 - imbuement.damagePercent)) } }
  { damage with
    secondary := { damage.secondary with value := truncate (damage.primary.value * imbuement.damagePercent) } }

/-- The loop over the slots of the item, where there is an imbuement or none. -/
def applySlots : List (Option Imbuement) → CombatDamage → CombatDamage
  | [], damage => damage
  | none :: slots, damage => applySlots slots damage
  | some imbuement :: slots, damage =>
    if imbuement.combatType = COMBAT_NONE then applySlots slots damage else imbuement.apply damage

/-- `Combat::applyImbuementElementalDamage`. -/
def applyImbuementElementalDamage (item : Option (List (Option Imbuement))) (damage : CombatDamage) : CombatDamage :=
  match item with
  | none => damage
  | some slots => applySlots slots damage

/-! ### Keeping the sum -/

/-- The parts of a rolled value come to it again, but for 1. -/
def SplitKeeps (type : CallbackType) (weapon : Option Weapon) (defaultDmg : ℤ) (damage : CombatDamage) : Prop :=
  type ≠ .unknown →
    ∃ damage', getMinMaxValues type weapon (some defaultDmg) damage = some damage' ∧ |damage'.sum - defaultDmg| ≤ 1

/-- The percentage of the primary part is moved to the secondary one. -/
structure Moves (percent : ℚ) (damage damage' : CombatDamage) : Prop where
  primary : |(damage'.primary.value : ℚ) - (damage.primary.value - percent * damage.primary.value)| ≤ 1
  secondary : |(damage'.secondary.value : ℚ) - (damage.secondary.value + percent * damage.primary.value)| ≤ 1
  sum : |damage'.sum - damage.sum| ≤ 2

/-- The imbuement whose element is used. -/
def elemental (item : Option (List (Option Imbuement))) : Option Imbuement :=
  ((item.getD []).filterMap id).find? fun imbuement => imbuement.combatType ≠ COMBAT_NONE

/-- The sum is kept, and the percentage of the imbuement is moved if there is one with an element. -/
def ImbuementKeeps (item : Option (List (Option Imbuement))) (damage : CombatDamage) : Prop :=
  match elemental item with
  | none => applyImbuementElementalDamage item damage = damage
  | some imbuement => Moves imbuement.damagePercent damage (applyImbuementElementalDamage item damage)

/-- The secondary part, beside the sign of the primary one. -/
def CombatDamage.beside (damage : CombatDamage) : ℤ :=
  if 0 ≤ damage.primary.value then damage.secondary.value else -damage.secondary.value

/-- A share of the damage has room in 32 bits. -/
def HasRoom (x : ℚ) : Prop := -2147483648 - 1 / 2 < x ∧ x < 2147483648 - 1 / 2

/-- A weapon that can be split by: its attack is not zero, and what is asked of it has room. -/
def Splits (weapon : Weapon) (defaultDmg : ℤ) : Prop :=
  weapon.attackValue ≠ 0 ∧ HasRoom (defaultDmg * weapon.factor) ∧ HasRoom (defaultDmg * (1 - weapon.factor))

/-- What is lost of `n` points when the secondary part was `t`: `t` itself, and the percentage of what is moved. -/
def loss (percent : ℚ) (n t : ℤ) : ℚ := t + percent * ⌈percent * n⌉

/-- The loss is no more than the rounding leaves of 1. -/
def LittleLost (percent : ℚ) (n t : ℤ) : Prop :=
  Int.fract (percent * n) - 2 < loss percent n t ∧ loss percent n t ≤ 1 - (⌈percent * n⌉ - percent * n)

/-! ### Rounding -/

theorem abs_round_sub_le (x : ℚ) : |(round x : ℚ) - x| ≤ 1 / 2 := by
  rw [round]
  split
  · have hle := Int.floor_le (x + 1 / 2)
    have hlt := Int.lt_floor_add_one (x + 1 / 2)
    rw [abs_le]
    constructor <;> linarith
  · have hle := Int.le_ceil (x - 1 / 2)
    have hlt := Int.ceil_lt_add_one (x - 1 / 2)
    rw [abs_le]
    constructor <;> linarith

theorem int32_round (x : ℚ) : int32 (round x) = some (round x) ∧ HasRoom x ∨ int32 (round x) = none ∧ ¬ HasRoom x := by
  have hroom : HasRoom x ↔ -2147483648 ≤ round x ∧ round x < 2147483648 := by
    rw [HasRoom, round]
    split
    · rename_i hpos
      have hfloor : (0 : ℤ) ≤ ⌊x + 1 / 2⌋ := Int.floor_nonneg.mpr (by linarith)
      have hlt : ⌊x + 1 / 2⌋ < 2147483648 ↔ x + 1 / 2 < 2147483648 := by
        rw [Int.floor_lt]
        norm_num
      rw [hlt]
      constructor
      · rintro ⟨-, h⟩
        exact ⟨by omega, by linarith⟩
      · rintro ⟨-, h⟩
        exact ⟨by linarith, by linarith⟩
    · rename_i hneg
      have hceil : ⌈x - 1 / 2⌉ ≤ (0 : ℤ) := Int.ceil_le.mpr (by push_cast; linarith)
      have hle : -2147483648 ≤ ⌈x - 1 / 2⌉ ↔ (-2147483649 : ℚ) < x - 1 / 2 := by
        rw [← Int.sub_one_lt_iff, Int.lt_ceil]
        norm_num
      rw [hle]
      constructor
      · rintro ⟨h, -⟩
        exact ⟨by linarith, by omega⟩
      · rintro ⟨h, -⟩
        exact ⟨by linarith, by linarith⟩
  rw [int32]
  by_cases h : HasRoom x
  · exact Or.inl ⟨if_pos (hroom.mp h), h⟩
  · exact Or.inr ⟨if_neg (mt hroom.mpr h), h⟩

theorem round_add_round (d : ℤ) (factor : ℚ) : |round (d * (1 - factor)) + round (d * factor) - d| ≤ 1 := by
  have hphys := abs_le.mp (abs_round_sub_le (d * (1 - factor)))
  have helement := abs_le.mp (abs_round_sub_le (d * factor))
  have hsum : (|round (d * (1 - factor)) + round (d * factor) - d| : ℤ) ≤ (1 : ℚ) := by
    push_cast
    rw [abs_le]
    constructor
    · linarith [hphys.1, helement.1]
    · linarith [hphys.2, helement.2]
  exact_mod_cast hsum

theorem split_eq {weapon : Weapon} {d : ℤ} (h : Splits weapon d) :
    split weapon d = some (round (d * (1 - weapon.factor)), round (d * weapon.factor)) := by
  obtain ⟨hattack, helement, hphys⟩ := h
  have helement' := (int32_round (d * weapon.factor)).resolve_right fun hnone => hnone.2 helement
  have hphys' := (int32_round (d * (1 - weapon.factor))).resolve_right fun hnone => hnone.2 hphys
  rw [split, if_neg hattack, helement'.1, hphys'.1]
  rfl

theorem split_eq_none {weapon : Weapon} {d : ℤ} (h : ¬ Splits weapon d) : split weapon d = none := by
  rw [split]
  split
  · rfl
  rename_i hattack
  rcases int32_round (d * weapon.factor) with ⟨helement, hroom⟩ | ⟨helement, -⟩
  · rcases int32_round (d * (1 - weapon.factor)) with ⟨-, hroom'⟩ | ⟨hphys, -⟩
    · exact absurd ⟨hattack, hroom, hroom'⟩ h
    · rw [helement, hphys]
      rfl
  · rw [helement]
    rfl

theorem splitKeeps_iff (type : CallbackType) (weapon : Option Weapon) (d : ℤ) (damage : CombatDamage) :
    SplitKeeps type weapon d damage ↔
      (type = .skill → ∀ w ∈ weapon, w.elementType ≠ COMBAT_NONE → Splits w d) := by
  have hplain {damage' : CombatDamage} (hdamage : damage'.sum = d) : |damage'.sum - d| ≤ 1 := by
    rw [hdamage, sub_self, abs_zero]
    exact zero_le_one
  cases type with
  | unknown => simp [SplitKeeps]
  | levelMagic =>
    refine iff_of_true (fun _ => ⟨_, rfl, hplain ?_⟩) (fun h => by simp at h)
    simp [CombatDamage.sum]
  | skill =>
    cases weapon with
    | none =>
      refine iff_of_true (fun _ => ⟨_, rfl, hplain ?_⟩) (fun _ w hw => by simp at hw)
      simp [CombatDamage.sum]
    | some weapon =>
      by_cases helement : weapon.elementType = COMBAT_NONE
      · refine iff_of_true (fun _ => ⟨_, if_neg (not_not_intro helement), hplain ?_⟩) ?_
        · simp [CombatDamage.sum]
        · rintro - w hw hne
          obtain rfl := Option.mem_some.mp hw
          exact absurd helement hne
      · have hvalues : getMinMaxValues .skill (some weapon) (some d) damage = (split weapon d).map _ :=
          if_pos helement
        constructor
        · rintro hkeeps - w hw -
          obtain rfl := Option.mem_some.mp hw
          obtain ⟨damage', hdamage, -⟩ := hkeeps (by simp)
          by_contra hsplits
          rw [hvalues, split_eq_none hsplits] at hdamage
          cases hdamage
        · intro h _
          rw [hvalues, split_eq (h rfl weapon rfl helement)]
          exact ⟨_, rfl, round_add_round d weapon.factor⟩

/-! ### What is lost -/

theorem truncate_neg (x : ℚ) : truncate (-x) = -truncate x := by
  rw [truncate, truncate]
  split <;> split
  · obtain rfl : x = 0 := by linarith
    simp
  · rw [Int.floor_neg]
  · rw [Int.ceil_neg]
  · linarith

theorem abs_truncate_sub_le (x : ℚ) : |(truncate x : ℚ) - x| ≤ 1 := by
  rw [truncate]
  split
  · have hle := Int.floor_le x
    have hlt := Int.lt_floor_add_one x
    rw [abs_le]
    constructor <;> linarith
  · have hle := Int.le_ceil x
    have hlt := Int.ceil_lt_add_one x
    rw [abs_le]
    constructor <;> linarith

theorem truncate_moved {percent : ℚ} {n : ℤ} (hle : 0 ≤ percent ∧ percent ≤ 1) (hn : 0 ≤ n) :
    truncate (n * (1 - percent)) = n - ⌈percent * n⌉ ∧
      truncate ((n - ⌈percent * n⌉ : ℤ) * percent) = ⌊percent * (n - ⌈percent * n⌉ : ℤ)⌋ := by
  have hn' : (0 : ℚ) ≤ n := by exact_mod_cast hn
  have hceil : ⌈percent * n⌉ ≤ n := by
    rw [Int.ceil_le]
    nlinarith [hle.2]
  have hleft : (0 : ℚ) ≤ (n - ⌈percent * n⌉ : ℤ) := by exact_mod_cast sub_nonneg.mpr hceil
  constructor
  · have hnonneg : 0 ≤ n * (1 - percent) := mul_nonneg hn' (by linarith [hle.2])
    rw [truncate, if_pos hnonneg]
    have heq : n * (1 - percent) = n + -(percent * n) := by ring
    rw [heq, Int.floor_intCast_add, Int.floor_neg, sub_eq_add_neg]
  · rw [truncate, if_pos (mul_nonneg hleft hle.1), mul_comm]

theorem abs_secondary_le_iff {percent : ℚ} {n : ℤ} (t : ℤ) (hle : 0 ≤ percent ∧ percent ≤ 1) (hn : 0 ≤ n) :
    |(truncate (truncate (n * (1 - percent)) * percent) : ℚ) - (t + percent * n)| ≤ 1 ↔ LittleLost percent n t := by
  obtain ⟨hprimary, hsecondary⟩ := truncate_moved hle hn
  rw [hprimary, hsecondary]
  generalize hy : percent * (n - ⌈percent * n⌉ : ℤ) = y
  have hlost : LittleLost percent n t ↔ t + ⌈percent * n⌉ - 1 ≤ y ∧ y < t + ⌊percent * n⌋ + 2 := by
    rw [LittleLost, loss, Int.fract, ← hy]
    push_cast
    constructor
    · rintro ⟨hlow, hhigh⟩
      constructor <;> linarith
    · rintro ⟨hlow, hhigh⟩
      constructor <;> linarith
  rw [hlost]
  have hlow : t + ⌈percent * n⌉ - 1 ≤ y ↔ percent * n ≤ ⌊y⌋ - t + 1 := by
    have hfloor : ((t + ⌈percent * n⌉ - 1 : ℤ) : ℚ) ≤ y ↔ t + ⌈percent * n⌉ - 1 ≤ ⌊y⌋ := Int.le_floor.symm
    have hceil : ⌈percent * n⌉ ≤ ⌊y⌋ - t + 1 ↔ percent * n ≤ (⌊y⌋ - t + 1 : ℤ) := Int.ceil_le
    push_cast at hfloor hceil
    rw [hfloor, ← hceil]
    constructor <;> intro h <;> omega
  have hhigh : y < t + ⌊percent * n⌋ + 2 ↔ ⌊y⌋ - t - 1 ≤ percent * n := by
    have hfloor : ⌊y⌋ < t + ⌊percent * n⌋ + 2 ↔ y < (t + ⌊percent * n⌋ + 2 : ℤ) := Int.floor_lt
    have hfloor' : ⌊y⌋ - t - 1 ≤ ⌊percent * n⌋ ↔ ((⌊y⌋ - t - 1 : ℤ) : ℚ) ≤ percent * n := Int.le_floor
    push_cast at hfloor hfloor'
    rw [← hfloor, ← hfloor']
    constructor <;> intro h <;> omega
  rw [hlow, hhigh, abs_le]
  constructor
  · rintro ⟨h, h'⟩
    constructor <;> linarith
  · rintro ⟨h, h'⟩
    constructor <;> linarith

theorem Imbuement.damagePercent_le (imbuement : Imbuement) :
    0 ≤ imbuement.damagePercent ∧ imbuement.damagePercent ≤ 1 := by
  obtain ⟨hnonneg, hle⟩ := imbuement.bounds
  have hnonneg' : (0 : ℚ) ≤ imbuement.elementDamage := by exact_mod_cast hnonneg
  have hle' : (imbuement.elementDamage : ℚ) ≤ 100 := by exact_mod_cast hle
  rw [damagePercent]
  constructor <;> linarith

theorem moves_apply_iff (imbuement : Imbuement) (damage : CombatDamage) :
    Moves imbuement.damagePercent damage (imbuement.apply damage) ↔
      |((imbuement.apply damage).secondary.value : ℚ) -
        (damage.secondary.value + imbuement.damagePercent * damage.primary.value)| ≤ 1 := by
  refine ⟨Moves.secondary, fun hsecondary => ?_⟩
  have hprimary : |((imbuement.apply damage).primary.value : ℚ) -
      (damage.primary.value - imbuement.damagePercent * damage.primary.value)| ≤ 1 := by
    have hleft : (damage.primary.value : ℚ) * (1 - imbuement.damagePercent) =
        damage.primary.value - imbuement.damagePercent * damage.primary.value := by ring
    rw [← hleft]
    exact abs_truncate_sub_le _
  refine ⟨hprimary, hsecondary, ?_⟩
  have hsum : (|(imbuement.apply damage).sum - damage.sum| : ℤ) ≤ (2 : ℚ) := by
    rw [abs_le] at hprimary hsecondary
    rw [CombatDamage.sum, CombatDamage.sum]
    push_cast
    rw [abs_le]
    constructor
    · linarith [hprimary.1, hsecondary.1]
    · linarith [hprimary.2, hsecondary.2]
  exact_mod_cast hsum

theorem moves_iff (imbuement : Imbuement) (damage : CombatDamage) :
    Moves imbuement.damagePercent damage (imbuement.apply damage) ↔
      LittleLost imbuement.damagePercent |damage.primary.value| damage.beside := by
  rw [moves_apply_iff, CombatDamage.beside]
  have hpercent := imbuement.damagePercent_le
  split
  · rename_i hpos
    rw [abs_of_nonneg hpos, ← abs_secondary_le_iff _ hpercent hpos]
    rfl
  · rename_i hneg
    have hpos : 0 ≤ -damage.primary.value := by omega
    rw [abs_of_neg (not_le.mp hneg), ← abs_secondary_le_iff _ hpercent hpos]
    push_cast
    rw [neg_mul, truncate_neg]
    push_cast
    rw [neg_mul, truncate_neg]
    push_cast
    rw [← abs_neg]
    have hdist : ∀ a s x : ℚ, -(a - (s + x)) = -a - (-s + -x) := fun a s x => by ring
    rw [hdist, mul_neg]
    rfl

theorem applySlots_eq (slots : List (Option Imbuement)) (damage : CombatDamage) :
    applySlots slots damage = match elemental (some slots) with
      | none => damage
      | some imbuement => imbuement.apply damage := by
  induction slots with
  | nil => rfl
  | cons slot slots ih =>
    cases slot with
    | none => exact ih
    | some imbuement =>
      rw [applySlots]
      split
      · rename_i hnone
        rw [ih]
        simp [elemental, hnone]
      · rename_i hsome
        simp [elemental, hsome]

theorem applyImbuementElementalDamage_eq (item : Option (List (Option Imbuement))) (damage : CombatDamage) :
    applyImbuementElementalDamage item damage = match elemental item with
      | none => damage
      | some imbuement => imbuement.apply damage := by
  cases item with
  | none => rfl
  | some slots => exact applySlots_eq slots damage

theorem imbuementKeeps_iff (item : Option (List (Option Imbuement))) (damage : CombatDamage) :
    ImbuementKeeps item damage ↔
      ∀ imbuement ∈ elemental item, LittleLost imbuement.damagePercent |damage.primary.value| damage.beside := by
  rw [ImbuementKeeps, applyImbuementElementalDamage_eq]
  cases elemental item with
  | none => simp
  | some imbuement => simp [moves_iff]

/-! ### Results -/

/-- The split keeps what is rolled where the weapon splits it, and the imbuement keeps the sum where little is lost. -/
theorem elementalDamage_iff (type : CallbackType) (weapon : Option Weapon) (defaultDmg : ℤ)
    (item : Option (List (Option Imbuement))) (damage : CombatDamage) :
    (SplitKeeps type weapon defaultDmg damage ↔
      (type = .skill → ∀ w ∈ weapon, w.elementType ≠ COMBAT_NONE → Splits w defaultDmg)) ∧
    (ImbuementKeeps item damage ↔
      ∀ imbuement ∈ elemental item, LittleLost imbuement.damagePercent |damage.primary.value| damage.beside) :=
  ⟨splitKeeps_iff type weapon defaultDmg damage, imbuementKeeps_iff item damage⟩

/-- Of a hundred points of which half are moved, half of the fifty left come. -/
theorem elementalDamage_not_kept :
    ¬ ∀ (type : CallbackType) (weapon : Option Weapon) (defaultDmg : ℤ) (item : Option (List (Option Imbuement)))
      (damage : CombatDamage), SplitKeeps type weapon defaultDmg damage ∧ ImbuementKeeps item damage := by
  intro h
  have hkeeps := (h .unknown none 0 (some [some ⟨8, 50, by decide⟩]) { primary := ⟨1, -100⟩ }).2
  have hsum := hkeeps.sum
  revert hsum
  decide +kernel

end ElementalDamage

end Moonlight
