import Moonlight.Lib.Words

/-!
# Damage to mana and health

`Game::combatChangeHealth` (game/game.cpp): damage goes to the mana first, if the target has a mana shield, as far as
the mana and the shield last, and the rest to the health. The shield is a condition with a value of its own, and its end
(`ConditionManaShield::endCondition`) sets the value to zero, also where there is something left of it because the mana
has run out. Players may have infinite mana, and there are players whom `Creature::changeHealth` gives all their health
back instead of letting them die.

`combatChangeHealth_split` says what is left of mana, shield and health. Events, charms and hooks are left out, the
buffs are a hundred percent, and words of 32 bits with a sign are integers.
-/

namespace Moonlight

namespace CombatHealth

open Words

/-- A condition of the type `CONDITION_MANASHIELD`. -/
structure ManaShieldCondition where
  subId : UInt32
  endTime : Int64
  ticks : Int32

/-- The target of a combat. `respawns` is the answer of `getStorageValue`, and `dies` says whether `Game::executeDeath`
is to come. -/
structure Target where
  health : Int32
  healthMax : Int32
  mana : UInt32
  manaMax : UInt32
  manaShield : UInt16 := 0
  maxManaShield : UInt16 := 0
  conditions : List ManaShieldCondition := []
  isSuppress : Bool := false
  isAttackable : Bool := true
  hasInfiniteMana : Bool := false
  respawns : Bool := false
  dies : Bool := false

structure CombatDamage where
  primary : Int32
  secondary : Int32
  /-- the type of the primary damage is `COMBAT_UNDEFINEDDAMAGE` -/
  undefined : Bool := false

namespace Target

/-- `hasCondition`, of the mana shield. -/
def hasCondition (target : Target) (timeNow : Int64) : Bool :=
  !target.isSuppress && target.conditions.any fun condition =>
    condition.subId == 0 && (decide (condition.endTime ≥ timeNow) || condition.ticks == -1)

/-- `ConditionManaShield::endCondition`. -/
def endCondition (target : Target) : Target := { target with manaShield := 0, maxManaShield := 0 }

/-- `removeCondition`, of the mana shield. -/
def removeCondition (target : Target) : Target :=
  target.conditions.foldl (fun target _ => target.endCondition) { target with conditions := [] }

/-- `changeMana`; nothing is taken from infinite mana. -/
def changeMana (target : Target) (manaChange : Int) : Target :=
  if target.hasInfiniteMana then target
  else if manaChange > 0 then
    let room := toInt32 ((target.manaMax - target.mana).toNat)
    { target with mana := target.mana + UInt32.ofInt (min manaChange room) }
  else { target with mana := UInt32.ofInt (max 0 (toInt32 ((target.mana + UInt32.ofInt manaChange).toNat))) }

def changeHealth (target : Target) (healthChange : Int) : Target :=
  let health :=
    if healthChange > 0 then target.health.toInt + min healthChange (target.healthMax.toInt - target.health.toInt)
    else max 0 (target.health.toInt + healthChange)
  if health ≤ 0 then
    if target.respawns then { target with health := target.healthMax }
    else { target with health := Int32.ofInt health, dies := true }
  else { target with health := Int32.ofInt health }

end Target

/-- The primary and the secondary damage that are left after mana has taken some. -/
def absorb (primary secondary manaDamage : Int) : Int × Int :=
  if primary - manaDamage < 0 then (0, max 0 (secondary + (primary - manaDamage)))
  else (primary - manaDamage, secondary)

/-- What the shield does about damage to the mana: the target, the damage to the mana, and what is left of the
shield. -/
def damageShield (target : Target) (manaDamage : Int) : Target × Int × Int :=
  let manaShield : Int := target.manaShield.toNat
  if manaShield > 0 then
    if manaShield > manaDamage then
      let left := UInt16.ofInt (manaShield - manaDamage)
      ({ target with manaShield := left }, manaDamage, left.toNat)
    else (target.removeCondition, manaShield, 0)
  else (target, manaDamage, manaShield)

/-- The mana is drained: the target, and the damage that is left. -/
def drain (target : Target) (primary secondary manaDamage manaShield : Int) : Target × Int × Int :=
  if manaDamage ≠ 0 then
    let target := target.changeMana (-manaDamage)
    let target := if target.mana = 0 ∧ manaShield > 0 then target.removeCondition else target
    (target, absorb primary secondary manaDamage)
  else (target, primary, secondary)

/-- The part about the mana shield. -/
def damageMana (target : Target) (primary secondary : Int) : Target × Int × Int :=
  let (target, manaDamage, manaShield) :=
    damageShield target (min (toInt32 target.mana.toNat) (toInt32 (primary + secondary)))
  drain target primary secondary manaDamage manaShield

/-- The part about the health. -/
def damageHealth (target : Target) (primary secondary : Int) : Target :=
  if toInt32 (primary + secondary) = 0 then target
  else
    let targetHealth := target.health.toInt
    let (primary, secondary) :=
      if primary ≥ targetHealth then (targetHealth, 0)
      else if secondary ≠ 0 then (primary, min secondary (targetHealth - primary))
      else (primary, secondary)
    let realDamage := toInt32 (primary + secondary)
    if realDamage = 0 then target else target.changeHealth (-realDamage)

/-- Damage that is not zero goes to the mana, if it is shielded with mana, and to the health. -/
def damageTarget (target : Target) (shielded : Bool) (primary secondary : Int) : Target :=
  if toInt32 (primary + secondary) = 0 then target
  else
    let (target, primary, secondary) :=
      if shielded then damageMana target primary secondary else (target, primary, secondary)
    damageHealth target primary secondary

/-- `Game::combatChangeHealth`. `blackSkull` says that the attacker is a player with a black skull, and the target an
innocent one. -/
def combatChangeHealth (target : Target) (timeNow : Int64) (blackSkull : Bool) (damage : CombatDamage) :
    Bool × Target :=
  if damage.primary > 0 then
    if target.health ≤ 0 then (false, target)
    else if blackSkull then (false, target)
    else (true, target.changeHealth damage.primary.toInt)
  else if !target.isAttackable then (true, target)
  else if blackSkull then (false, target)
  else
    (true, damageTarget target (target.hasCondition timeNow && !damage.undefined) damage.primary.toInt.natAbs
      damage.secondary.toInt.natAbs)

/-! ### What the steps do -/

theorem toNat_ofInt32 {n : ℕ} (h : n < 2 ^ 32) : (UInt32.ofInt n).toNat = n := by
  rw [UInt32.ofInt, UInt32.toNat_ofNat']
  omega

theorem toNat_ofInt16 {n : ℕ} (h : n < 2 ^ 16) : (UInt16.ofInt n).toNat = n := by
  rw [UInt16.ofInt, UInt16.toNat_ofNat']
  omega

theorem mana_changeMana {target : Target} {n : ℕ} (hn : n ≤ target.mana.toNat)
    (hmana : target.mana.toNat < 2 ^ 31) : (target.changeMana (-n)).mana.toNat =
      if target.hasInfiniteMana then target.mana.toNat else target.mana.toNat - n := by
  rw [Target.changeMana]
  split
  · rfl
  · rw [if_neg (by omega)]
    have hsum : (target.mana + UInt32.ofInt (-n)).toNat = target.mana.toNat - n := by
      rw [UInt32.toNat_add, UInt32.ofInt, UInt32.toNat_ofNat']
      omega
    have hfits : FitsInt32 ((target.mana.toNat - n : ℕ) : Int) := by
      rw [FitsInt32]
      omega
    dsimp only
    rw [hsum, toInt32_of_fits hfits, max_eq_right (by omega), toNat_ofInt32 (by omega)]

theorem changeMana_eq (target : Target) (n : Int) :
    target.changeMana n = { target with mana := (target.changeMana n).mana } := by
  rw [Target.changeMana]
  split
  · rfl
  · split
    · rfl
    · rfl

theorem removeCondition_eq {target : Target} (h : target.conditions ≠ []) :
    target.removeCondition = { target with manaShield := 0, maxManaShield := 0, conditions := [] } := by
  have hfold (l : List ManaShieldCondition) (t : Target) (ht : t = t.endCondition) :
      l.foldl (fun t _ => t.endCondition) t = t := by
    induction l with
    | nil => rfl
    | cons c l ih => rw [List.foldl_cons, ← ht, ih]
  rw [Target.removeCondition]
  cases hconditions : target.conditions with
  | nil => exact absurd hconditions h
  | cons c l =>
    rw [List.foldl_cons, hfold l _ rfl]
    rfl

theorem conditions_of_hasCondition {target : Target} {timeNow : Int64} (h : target.hasCondition timeNow = true) :
    target.conditions ≠ [] := by
  intro hnil
  rw [Target.hasCondition, hnil] at h
  simp at h

theorem absorb_sum {primary secondary manaDamage : ℕ} (h : manaDamage ≤ primary + secondary) :
    ∃ p s : ℕ, absorb primary secondary manaDamage = (↑p, ↑s) ∧ p + s = primary + secondary - manaDamage := by
  rw [absorb]
  split
  · refine ⟨0, primary + secondary - manaDamage, ?_, by omega⟩
    rw [max_eq_right (by omega)]
    congr 1
    omega
  · refine ⟨primary - manaDamage, secondary, ?_, by omega⟩
    congr 1
    omega

/-! ### What is left -/

/-- The mana that is taken from a target with a mana shield. -/
def taken (target : Target) (damage : ℕ) : ℕ :=
  if target.manaShield = 0 then min target.mana.toNat damage
  else min (min target.mana.toNat damage) target.manaShield.toNat

/-- A shield ends when it is used up, or when the mana has been taken and none is left. -/
def Ends (target : Target) (damage mana : ℕ) : Prop :=
  0 < target.manaShield.toNat ∧
    (taken target damage = target.manaShield.toNat ∨ 0 < taken target damage ∧ mana = 0)

def manaLeft (target : Target) (n : ℕ) : ℕ :=
  if target.hasInfiniteMana then target.mana.toNat else target.mana.toNat - n

/-- What a target has left of mana and shield, and the damage that is left for the health. -/
structure Left (target : Target) (primary secondary : ℕ) (after : Target × Int × Int) : Prop where
  damage : ∃ p s : ℕ, after.2 = (↑p, ↑s) ∧ p + s = primary + secondary - taken target (primary + secondary)
  frame : after.1 = { target with
    mana := after.1.mana
    manaShield := after.1.manaShield
    maxManaShield := after.1.maxManaShield
    conditions := after.1.conditions }
  mana : after.1.mana.toNat = manaLeft target (taken target (primary + secondary))
  ended : Ends target (primary + secondary) after.1.mana.toNat → after.1.conditions = [] ∧ after.1.manaShield = 0
  kept : ¬ Ends target (primary + secondary) after.1.mana.toNat → after.1.conditions = target.conditions ∧
    after.1.manaShield.toNat = target.manaShield.toNat - taken target (primary + secondary)

section

variable {target : Target} {primary secondary : ℕ}

theorem drain_eq {n : ℕ} (hn : n ≤ target.mana.toNat) (hmana : target.mana.toNat < 2 ^ 31)
    (hdamage : n ≤ primary + secondary) (manaShield : Int) :
    ∃ (mana : UInt32) (p s : ℕ), mana.toNat = manaLeft target n ∧ p + s = primary + secondary - n ∧
      drain target primary secondary n manaShield =
        (if 0 < n ∧ mana = 0 ∧ manaShield > 0 then { target with mana := mana }.removeCondition
          else { target with mana := mana }, ↑p, ↑s) := by
  rw [drain]
  rcases Nat.eq_zero_or_pos n with rfl | hpos
  · have hleft : target.mana.toNat = manaLeft target 0 := by
      rw [manaLeft, Nat.sub_zero, ite_self]
    refine ⟨target.mana, primary, secondary, hleft, rfl, ?_⟩
    have hnothing : ¬ ((0 : ℕ) : Int) ≠ 0 := not_not.mpr rfl
    rw [if_neg hnothing, if_neg fun h => absurd h.1 (Nat.lt_irrefl 0)]
  · obtain ⟨p, s, habsorb, hsum⟩ := absorb_sum hdamage
    refine ⟨(target.changeMana (-n)).mana, p, s, mana_changeMana hn hmana, hsum, ?_⟩
    rw [if_pos (by omega), habsorb, ← changeMana_eq]
    simp only [hpos, true_and]

theorem left_of_zero (hshield : target.manaShield = 0) (hmana : target.mana.toNat < 2 ^ 31) :
    Left target primary secondary
      (drain target primary secondary (min target.mana.toNat (primary + secondary) : ℕ) 0) := by
  have htaken : taken target (primary + secondary) = min target.mana.toNat (primary + secondary) := if_pos hshield
  have hends (mana : ℕ) : ¬ Ends target (primary + secondary) mana := by
    rw [Ends, hshield]
    exact fun h => absurd h.1 (by decide)
  have hnone : target.manaShield.toNat = 0 := by
    rw [hshield]
    rfl
  obtain ⟨mana, p, s, hleft, hsum, heq⟩ :=
    @drain_eq target primary secondary _ (Nat.min_le_left _ _) hmana (Nat.min_le_right _ _) 0
  rw [if_neg fun h => absurd h.2.2 (lt_irrefl 0)] at heq
  rw [heq]
  exact {
    damage := ⟨p, s, rfl, htaken ▸ hsum⟩
    frame := rfl
    mana := htaken ▸ hleft
    ended := fun h => absurd h (hends _)
    kept := fun _ => ⟨rfl, by rw [hnone, Nat.zero_sub]⟩ }

theorem left_of_lt (hconditions : target.conditions ≠ []) (hmana : target.mana.toNat < 2 ^ 31)
    (hlt : min target.mana.toNat (primary + secondary) < target.manaShield.toNat) {left : UInt16}
    (hshield : left.toNat = target.manaShield.toNat - min target.mana.toNat (primary + secondary)) :
    Left target primary secondary (drain { target with manaShield := left } primary secondary
      (min target.mana.toNat (primary + secondary) : ℕ) left.toNat) := by
  have hpos : 0 < target.manaShield.toNat := Nat.lt_of_le_of_lt (Nat.zero_le _) hlt
  have htaken : taken target (primary + secondary) = min target.mana.toNat (primary + secondary) := by
    rw [taken, if_neg, min_eq_left hlt.le]
    intro hzero
    rw [hzero] at hpos
    exact absurd hpos (by decide)
  have hends (mana : ℕ) : Ends target (primary + secondary) mana ↔
      0 < min target.mana.toNat (primary + secondary) ∧ mana = 0 := by
    rw [Ends, htaken]
    constructor
    · rintro ⟨-, hall | hdrained⟩
      · omega
      · exact hdrained
    · intro hdrained
      exact ⟨hpos, .inr hdrained⟩
  obtain ⟨mana, p, s, hleft, hsum, heq⟩ := @drain_eq { target with manaShield := left } primary secondary _
    (Nat.min_le_left _ _) hmana (Nat.min_le_right _ _) left.toNat
  have hzero : mana = 0 ↔ mana.toNat = 0 := by
    rw [← UInt32.toNat_inj]
    rfl
  rw [heq]
  by_cases hdrained : 0 < min target.mana.toNat (primary + secondary) ∧ mana = 0
  · have hremoved := @removeCondition_eq { target with manaShield := left, mana := mana } hconditions
    rw [if_pos ⟨hdrained.1, hdrained.2, by omega⟩, hremoved]
    exact {
      damage := ⟨p, s, rfl, htaken ▸ hsum⟩
      frame := rfl
      mana := htaken ▸ hleft
      ended := fun _ => ⟨rfl, rfl⟩
      kept := fun h => absurd ((hends _).mpr ⟨hdrained.1, hzero.mp hdrained.2⟩) h }
  · rw [if_neg fun h => hdrained ⟨h.1, h.2.1⟩]
    exact {
      damage := ⟨p, s, rfl, htaken ▸ hsum⟩
      frame := rfl
      mana := htaken ▸ hleft
      ended := fun h => absurd ⟨((hends _).mp h).1, hzero.mpr ((hends _).mp h).2⟩ hdrained
      kept := fun _ => ⟨rfl, htaken.symm ▸ hshield⟩ }

theorem left_of_le (hconditions : target.conditions ≠ []) (hmana : target.mana.toNat < 2 ^ 31)
    (hpos : 0 < target.manaShield.toNat)
    (hle : target.manaShield.toNat ≤ min target.mana.toNat (primary + secondary)) :
    Left target primary secondary
      (drain target.removeCondition primary secondary target.manaShield.toNat 0) := by
  have htaken : taken target (primary + secondary) = target.manaShield.toNat := by
    rw [taken, if_neg, min_eq_right hle]
    intro hzero
    rw [hzero] at hpos
    exact absurd hpos (by decide)
  have hends (mana : ℕ) : Ends target (primary + secondary) mana := ⟨hpos, .inl htaken⟩
  rw [removeCondition_eq hconditions]
  obtain ⟨mana, p, s, hleft, hsum, heq⟩ :=
    @drain_eq { target with manaShield := 0, maxManaShield := 0, conditions := [] } primary secondary _
      (le_trans hle (Nat.min_le_left _ _)) hmana (le_trans hle (Nat.min_le_right _ _)) 0
  rw [if_neg fun h => absurd h.2.2 (lt_irrefl 0)] at heq
  rw [heq]
  exact {
    damage := ⟨p, s, rfl, htaken ▸ hsum⟩
    frame := rfl
    mana := htaken ▸ hleft
    ended := fun _ => ⟨rfl, rfl⟩
    kept := fun h => absurd (hends _) h }

end

theorem damageMana_left {target : Target} (hconditions : target.conditions ≠ []) (hmana : target.mana.toNat < 2 ^ 31)
    {primary secondary : ℕ} (hdamage : primary + secondary < 2 ^ 31) :
    Left target primary secondary (damageMana target primary secondary) := by
  have hm : FitsInt32 target.mana.toNat := by
    rw [FitsInt32]
    omega
  have hd : FitsInt32 ((primary : Int) + secondary) := by
    rw [FitsInt32]
    omega
  have hmin : min (target.mana.toNat : Int) ((primary : Int) + secondary) =
      (min target.mana.toNat (primary + secondary) : ℕ) := by omega
  rw [damageMana, toInt32_of_fits hm, toInt32_of_fits hd, hmin, damageShield]
  rcases Nat.eq_zero_or_pos target.manaShield.toNat with hzero | hpos
  · have hshield : target.manaShield = 0 := UInt16.toNat_inj.mp hzero
    rw [if_neg (by omega), hzero]
    exact left_of_zero hshield hmana
  · rw [if_pos (by omega)]
    rcases Nat.lt_or_ge (min target.mana.toNat (primary + secondary)) target.manaShield.toNat with hlt | hle
    · have hleft : ((target.manaShield.toNat : Int) - (min target.mana.toNat (primary + secondary) : ℕ)) =
          (target.manaShield.toNat - min target.mana.toNat (primary + secondary) : ℕ) := by omega
      have hword := target.manaShield.toNat_lt
      rw [if_pos (by omega), hleft]
      exact left_of_lt hconditions hmana hlt (toNat_ofInt16 (by omega))
    · rw [if_neg (by omega)]
      exact left_of_le hconditions hmana hpos hle

/-- The health that damage leaves; who does not die has all health again. -/
def healthLeft (target : Target) (damage : ℕ) : Int :=
  if target.health.toInt ≤ damage ∧ target.respawns then target.healthMax.toInt
  else target.health.toInt - min target.health.toInt damage

theorem changeHealth_eq {target : Target} {n : ℕ} (hpos : 0 < n) (hn : n ≤ target.health.toInt) :
    ∃ (health : Int32) (dies : Bool), target.changeHealth (-n) = { target with health := health, dies := dies } ∧
      health.toInt = if target.health.toInt ≤ n ∧ target.respawns then target.healthMax.toInt
        else target.health.toInt - n := by
  have hhigh := target.health.toInt_lt
  have hleft : max 0 (target.health.toInt + -n) = target.health.toInt - n := by omega
  have hloss : ¬ -(n : Int) > 0 := by omega
  rw [Target.changeHealth, if_neg hloss, hleft]
  by_cases hdead : target.health.toInt - n ≤ 0
  · rw [if_pos hdead]
    cases hrespawns : target.respawns with
    | true =>
      refine ⟨target.healthMax, target.dies, by simp, ?_⟩
      rw [if_pos ⟨by omega, rfl⟩]
    | false =>
      refine ⟨Int32.ofInt (target.health.toInt - n), true, by simp, ?_⟩
      rw [if_neg fun h => Bool.noConfusion h.2, Int32.toInt_ofInt_of_le (by omega) (by omega)]
  · rw [if_neg hdead]
    refine ⟨Int32.ofInt (target.health.toInt - n), target.dies, rfl, ?_⟩
    rw [if_neg fun h => hdead (by omega), Int32.toInt_ofInt_of_le (by omega) (by omega)]

theorem damageHealth_eq {target : Target} (hhealth : 0 < target.health.toInt) {primary secondary : ℕ}
    (hdamage : primary + secondary < 2 ^ 31) : ∃ (health : Int32) (dies : Bool),
      damageHealth target primary secondary = { target with health := health, dies := dies } ∧
        health.toInt = healthLeft target (primary + secondary) := by
  have hhigh := target.health.toInt_lt
  have hsum : FitsInt32 ((primary : Int) + secondary) := by
    rw [FitsInt32]
    omega
  rw [damageHealth, toInt32_of_fits hsum]
  by_cases hnone : (primary : Int) + secondary = 0
  · rw [if_pos hnone]
    refine ⟨target.health, target.dies, rfl, ?_⟩
    rw [healthLeft, if_neg fun h => by omega]
    omega
  · rw [if_neg hnone]
    obtain ⟨h, hh⟩ : ∃ h : ℕ, target.health.toInt = h := ⟨target.health.toInt.toNat, by omega⟩
    -- the two parts that are left make up the smaller one of the health and the damage
    have hparts : ∃ p s : Int, p + s = (min h (primary + secondary) : ℕ) ∧
        (if (primary : Int) ≥ target.health.toInt then (target.health.toInt, 0)
          else if (secondary : Int) ≠ 0 then ((primary : Int), min (secondary : Int) (target.health.toInt - primary))
          else ((primary : Int), (secondary : Int))) = (p, s) := by
      split
      · exact ⟨_, _, by omega, rfl⟩
      · split
        · exact ⟨_, _, by omega, rfl⟩
        · exact ⟨_, _, by omega, rfl⟩
    obtain ⟨p, s, hsum', heq⟩ := hparts
    have hfits : FitsInt32 ((min h (primary + secondary) : ℕ) : Int) := by
      rw [FitsInt32]
      omega
    have hpos : ¬ ((min h (primary + secondary) : ℕ) : Int) = 0 := by omega
    obtain ⟨health, dies, hchange, hleft⟩ :=
      @changeHealth_eq target (min h (primary + secondary)) (by omega) (by omega)
    dsimp only
    rw [heq]
    dsimp only
    rw [hsum', toInt32_of_fits hfits, if_neg hpos]
    refine ⟨health, dies, hchange, hleft.trans ?_⟩
    have hdead : target.health.toInt ≤ (min h (primary + secondary) : ℕ) ↔
        target.health.toInt ≤ (primary + secondary : ℕ) := by omega
    have hmin : ((min h (primary + secondary) : ℕ) : Int) = min target.health.toInt (primary + secondary : ℕ) := by
      omega
    simp only [healthLeft, hdead]
    rw [hmin]

/-- The mana that damage takes. -/
def manaDamage (target : Target) (shielded : Bool) (damage : ℕ) : ℕ := if shielded then taken target damage else 0

/-- **The split.** Mana takes what it can, health the rest; a shield loses what mana takes, and everything with its
end. -/
structure Split (target : Target) (shielded : Bool) (damage : ℕ) (after : Target) : Prop where
  mana : after.mana.toNat = manaLeft target (manaDamage target shielded damage)
  health : after.health.toInt = healthLeft target (damage - manaDamage target shielded damage)
  ended : shielded = true → Ends target damage after.mana.toNat → after.conditions = [] ∧ after.manaShield = 0
  kept : ¬ (shielded = true ∧ Ends target damage after.mana.toNat) → after.conditions = target.conditions ∧
    after.manaShield.toNat = target.manaShield.toNat - manaDamage target shielded damage

theorem damageTarget_split {target : Target} {shielded : Bool}
    (hshielded : shielded = true → target.conditions ≠ []) (hhealth : 0 < target.health.toInt)
    (hmana : target.mana.toNat < 2 ^ 31) {primary secondary : ℕ} (hdamage : primary + secondary < 2 ^ 31) :
    Split target shielded (primary + secondary) (damageTarget target shielded primary secondary) := by
  have hsum : FitsInt32 ((primary : Int) + secondary) := by
    rw [FitsInt32]
    omega
  rw [damageTarget, toInt32_of_fits hsum]
  by_cases hnone : (primary : Int) + secondary = 0
  · rw [if_pos hnone]
    have hzero : primary + secondary = 0 := by omega
    have hnothing : manaDamage target shielded 0 = 0 := by
      rw [manaDamage, taken, Nat.min_zero, Nat.zero_min, ite_self, ite_self]
    have hends (mana : ℕ) : ¬ Ends target 0 mana := by
      rw [Ends, taken, Nat.min_zero, Nat.zero_min, ite_self]
      rintro ⟨hpos, hall | hdrained⟩
      · omega
      · omega
    rw [hzero]
    exact {
      mana := by rw [hnothing, manaLeft, Nat.sub_zero, ite_self]
      health := by
        rw [hnothing, healthLeft, if_neg fun h => by omega]
        omega
      ended := fun _ h => absurd h (hends _)
      kept := fun _ => ⟨rfl, by rw [hnothing, Nat.sub_zero]⟩ }
  · rw [if_neg hnone]
    cases shielded with
    | false =>
      obtain ⟨health, dies, heq, hleft⟩ := damageHealth_eq hhealth hdamage
      dsimp only
      rw [if_neg nofun]
      dsimp only
      rw [heq]
      exact {
        mana := by rw [manaDamage, if_neg nofun, manaLeft, Nat.sub_zero, ite_self]
        health := hleft
        ended := nofun
        kept := fun _ => ⟨rfl, rfl⟩ }
    | true =>
      have hleft := damageMana_left (hshielded rfl) hmana hdamage
      obtain ⟨p, s, hrest, hps⟩ := hleft.damage
      have hframe := hleft.frame
      generalize hafter : damageMana target primary secondary = after at *
      obtain ⟨after, rest⟩ := after
      have hsame : after.health = target.health ∧ after.healthMax = target.healthMax ∧
          after.respawns = target.respawns := by
        dsimp only at hframe
        rw [hframe]
        exact ⟨rfl, rfl, rfl⟩
      obtain ⟨health, dies, heq, hhealthLeft⟩ :=
        @damageHealth_eq after (hsame.1 ▸ hhealth) p s (by omega)
      rw [if_pos rfl]
      dsimp only at hrest
      rw [hrest]
      dsimp only
      rw [heq]
      exact {
        mana := hleft.mana
        health := by
          have hdamage' : manaDamage target true (primary + secondary) = taken target (primary + secondary) :=
            if_pos rfl
          rw [hdamage', ← hps, hhealthLeft, healthLeft, healthLeft, hsame.1, hsame.2.1, hsame.2.2]
        ended := fun _ => hleft.ended
        kept := fun h => hleft.kept fun hends => h ⟨rfl, hends⟩ }

/-- **Damage is split between mana and health.** -/
theorem combatChangeHealth_split (target : Target) (timeNow : Int64) (blackSkull : Bool) (damage : CombatDamage)
    (hdamage : damage.primary ≤ 0) (hhealth : 0 < target.health) (hmana : target.mana.toNat < 2 ^ 31)
    (hsum : damage.primary.toInt.natAbs + damage.secondary.toInt.natAbs < 2 ^ 31) :
    (target.isAttackable = true → blackSkull = false → Split target
        (target.hasCondition timeNow && !damage.undefined)
        (damage.primary.toInt.natAbs + damage.secondary.toInt.natAbs)
        (combatChangeHealth target timeNow blackSkull damage).2) ∧
      (target.isAttackable = false ∨ blackSkull = true →
        (combatChangeHealth target timeNow blackSkull damage).2 = target) := by
  have hnot : ¬ damage.primary > 0 := Int32.not_lt.mpr hdamage
  have hshielded : (target.hasCondition timeNow && !damage.undefined) = true → target.conditions ≠ [] := fun h =>
    conditions_of_hasCondition (Bool.and_eq_true_iff.mp h).1
  have hsplit := damageTarget_split hshielded (Int32.lt_iff_toInt_lt.mp hhealth) hmana hsum
  rw [combatChangeHealth, if_neg hnot]
  constructor
  · intro hattackable hskull
    have hopen : ¬ (!target.isAttackable) = true := by
      rw [hattackable]
      exact nofun
    have hfair : ¬ blackSkull = true := by
      rw [hskull]
      exact nofun
    rw [if_neg hopen, if_neg hfair]
    dsimp only
    exact hsplit
  · rintro (hattackable | hskull)
    · rw [hattackable]
      rfl
    · rw [hskull]
      split
      · rfl
      · rfl

/-- A target with little mana behind a strong shield. -/
def apprentice : Target where
  health := 150
  healthMax := 150
  mana := 10
  manaMax := 90
  manaShield := 100
  maxManaShield := 100
  conditions := [⟨0, 0, -1⟩]

def blow : CombatDamage := { primary := -50, secondary := 0 }

theorem combatChangeHealth_split_apprentice : Split apprentice (apprentice.hasCondition 0 && !blow.undefined)
    (blow.primary.toInt.natAbs + blow.secondary.toInt.natAbs) (combatChangeHealth apprentice 0 false blow).2 :=
  (combatChangeHealth_split apprentice 0 false blow (by decide) (by decide) (by decide) (by decide)).1 rfl rfl

/-- The shield has 90 points left when the mana runs out, and they are lost with it. -/
theorem apprentice_shield_lost : ¬ ∀ (target : Target) (timeNow : Int64) (damage : CombatDamage),
    target.isAttackable = true → damage.primary ≤ 0 → 0 < target.health →
      damage.primary.toInt.natAbs + damage.secondary.toInt.natAbs < 2 ^ 31 → target.hasCondition timeNow = true →
        damage.undefined = false → 0 < target.manaShield →
          (combatChangeHealth target timeNow false damage).2.manaShield.toNat = target.manaShield.toNat -
            taken target (damage.primary.toInt.natAbs + damage.secondary.toInt.natAbs) := by
  intro h
  have hshield := h apprentice 0 blow rfl (by decide) (by decide) (by decide) (by decide) rfl (by decide)
  revert hshield
  decide

end CombatHealth

end Moonlight
