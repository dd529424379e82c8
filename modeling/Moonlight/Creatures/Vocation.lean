import Mathlib.Tactic.Linarith
import Moonlight.Lib.Ladder

/-!
# What a level requires

`Vocation::getReqSkillTries` and `Vocation::getReqMana` (creatures/players/vocations/vocation.cpp) compute a
requirement once and look it up after that. The computation is one with doubles; here it is the function `formula` of
the level, whatever that gives.

The mana is kept as it is. The tries are 64-bit words, and `cacheSkill` is a map to `uint32_t`: the first answer is the
whole number, and every later one is what is left of it in 32 bits. `Steady` are the levels for which that makes no
difference.
-/

namespace Moonlight

open Ladder

/-- The requirements of the levels above `base`, with answers that are kept in `k` bits. -/
structure Requirements (base w k : Nat) where
  formula : BitVec w → BitVec 64
  cache : BitVec w → Option (BitVec k)

namespace Requirements

variable {base w k : Nat}

/-- What the level requires, and the table that has been asked. -/
def get (t : Requirements base w k) (level : BitVec w) : BitVec 64 × Requirements base w k :=
  if level.toNat ≤ base then (0, t)
  else
    match t.cache level with
    | some req => (req.setWidth 64, t)
    | none =>
      let req := t.formula level
      (req, { t with cache := fun l => if l = level then some (req.setWidth k) else t.cache l })

/-- The answers, for levels as numbers. -/
def req (t : Requirements base w k) (level : Nat) : Nat := (t.get (BitVec.ofNat w level)).1.toNat

/-- Asked again, the table answers the same. -/
def Steady (t : Requirements base w k) (level : BitVec w) : Prop := ((t.get level).2.get level).1 = (t.get level).1

instance (t : Requirements base w k) (level : BitVec w) : Decidable (t.Steady level) :=
  inferInstanceAs (Decidable (_ = _))

variable (t : Requirements base w k)

theorem req_toNat (level : BitVec w) : t.req level.toNat = (t.get level).1.toNat := by
  rw [req, BitVec.ofNat_toNat, BitVec.setWidth_eq]

theorem get_of_le {level : BitVec w} (h : level.toNat ≤ base) : t.get level = (0, t) := if_pos h

theorem get_of_cached {level : BitVec w} (h : ¬ level.toNat ≤ base) {r : BitVec k} (hr : t.cache level = some r) :
    t.get level = (r.setWidth 64, t) := by
  rw [get, if_neg h, hr]

theorem get_of_new {level : BitVec w} (h : ¬ level.toNat ≤ base) (hr : t.cache level = none) :
    t.get level = (t.formula level,
      { t with cache := fun l => if l = level then some ((t.formula level).setWidth k) else t.cache l }) := by
  rw [get, if_neg h, hr]

theorem get_table (level : BitVec w) :
    (t.get level).2.formula = t.formula ∧ (∀ l, l ≠ level → (t.get level).2.cache l = t.cache l) ∧
      (¬ level.toNat ≤ base →
        (t.get level).2.cache level = some ((t.cache level).getD ((t.formula level).setWidth k))) := by
  by_cases hbase : level.toNat ≤ base
  · rw [t.get_of_le hbase]
    exact ⟨rfl, fun _ _ => rfl, fun hnot => absurd hbase hnot⟩
  · cases hcache : t.cache level with
    | some r =>
      rw [t.get_of_cached hbase hcache]
      exact ⟨rfl, fun _ _ => rfl, fun _ => hcache⟩
    | none =>
      rw [t.get_of_new hbase hcache]
      exact ⟨rfl, fun _ hne => if_neg hne, fun _ => if_pos rfl⟩

theorem get_congr {t t' : Requirements base w k} {level : BitVec w} (hformula : t'.formula = t.formula)
    (hcache : t'.cache level = t.cache level) : (t'.get level).1 = (t.get level).1 := by
  unfold get
  rw [hformula, hcache]
  split
  · rfl
  · cases t.cache level with
    | some r => rfl
    | none => rfl

theorem get_get_of_ne {level l : BitVec w} (hne : l ≠ level) : ((t.get level).2.get l).1 = (t.get l).1 :=
  get_congr (t.get_table level).1 ((t.get_table level).2.1 l hne)

theorem get_get_self {level : BitVec w} (hbase : ¬ level.toNat ≤ base) :
    ((t.get level).2.get level).1 = ((t.cache level).getD ((t.formula level).setWidth k)).setWidth 64 := by
  rw [get_of_cached _ hbase ((t.get_table level).2.2 hbase)]

theorem steady_iff {level : BitVec w} : t.Steady level ↔
    level.toNat ≤ base ∨ (t.cache level).isSome ∨ ((t.formula level).setWidth k).setWidth 64 = t.formula level := by
  by_cases hbase : level.toNat ≤ base
  · rw [Steady, t.get_of_le hbase, t.get_of_le hbase]
    exact ⟨fun _ => .inl hbase, fun _ => rfl⟩
  · rw [Steady, t.get_get_self hbase]
    cases hcache : t.cache level with
    | some r =>
      rw [t.get_of_cached hbase hcache]
      exact ⟨fun _ => .inr (.inl rfl), fun _ => rfl⟩
    | none =>
      rw [t.get_of_new hbase hcache]
      exact ⟨fun h => .inr (.inr h), fun h => h.elim (absurd · hbase) fun h => h.elim nofun id⟩

theorem get_get_le (level : BitVec w) : ((t.get level).2.get level).1.toNat ≤ (t.get level).1.toNat := by
  by_cases hbase : level.toNat ≤ base
  · rw [t.get_of_le hbase, t.get_of_le hbase]
  · rw [t.get_get_self hbase]
    cases hcache : t.cache level with
    | some r => rw [t.get_of_cached hbase hcache, Option.getD_some]
    | none =>
      rw [t.get_of_new hbase hcache, Option.getD_none, BitVec.toNat_setWidth, BitVec.toNat_setWidth]
      exact Nat.le_trans (Nat.mod_le _ _) (Nat.mod_le _ _)

theorem le_of_not_steady {level : BitVec w} (h : ¬ t.Steady level) : 2 ^ k ≤ (t.get level).1.toNat := by
  rw [steady_iff, not_or, not_or, Option.not_isSome_iff_eq_none] at h
  obtain ⟨hbase, hcache, hformula⟩ := h
  rw [t.get_of_new hbase hcache]
  by_contra hlt
  refine hformula (BitVec.eq_of_toNat_eq ?_)
  rw [BitVec.toNat_setWidth, BitVec.toNat_setWidth, Nat.mod_eq_of_lt (Nat.lt_of_not_le hlt)]
  exact Nat.mod_eq_of_lt (t.formula level).isLt

theorem pos_of_not_steady {level : BitVec w} (h : ¬ t.Steady level) : 0 < level.toNat := by
  by_contra hzero
  exact h (t.steady_iff.mpr (.inl (Nat.le_trans (Nat.le_of_not_lt hzero) (Nat.zero_le base))))

theorem steady_of_wide (hk : 64 ≤ k) (level : BitVec w) : t.Steady level := by
  by_contra h
  have hwide : 2 ^ 64 ≤ 2 ^ k := Nat.pow_le_pow_right (by decide) hk
  exact Nat.not_lt.mpr (Nat.le_trans hwide (t.le_of_not_steady h)) (t.get level).1.isLt

theorem req_of_le {level : Nat} (h : level ≤ base) : t.req level = 0 := by
  rw [req, t.get_of_le (Nat.le_trans (Nat.mod_le _ _) h)]
  rfl

theorem req_two_pow : t.req (2 ^ w) = 0 := by
  have hzero : (BitVec.ofNat w (2 ^ w)).toNat = 0 := Nat.mod_self _
  rw [req, t.get_of_le (by rw [hzero]; exact Nat.zero_le _)]
  rfl

theorem toNat_add_one_of_lt {level : BitVec w} (h : level.toNat + 1 < 2 ^ w) : (level + 1).toNat = level.toNat + 1 := by
  show (level.toNat + (BitVec.ofNat w 1).toNat) % 2 ^ w = level.toNat + 1
  rw [BitVec.toNat_ofNat, Nat.add_mod_mod, Nat.mod_eq_of_lt h]

theorem toNat_add_one {level : BitVec w} (h : 0 < (t.get (level + 1)).1.toNat) :
    (level + 1).toNat = level.toNat + 1 := by
  refine toNat_add_one_of_lt ?_
  by_contra hnot
  have heq : level.toNat + 1 = 2 ^ w := Nat.le_antisymm level.isLt (Nat.le_of_not_lt hnot)
  have hwrap : level + 1 = BitVec.ofNat w (level.toNat + 1) := by
    rw [BitVec.ofNat_add, BitVec.ofNat_toNat, BitVec.setWidth_eq]
    rfl
  rw [hwrap, heq] at h
  exact Nat.ne_of_gt h t.req_two_pow

theorem get_lt_iff {level : BitVec w} :
    (t.get level).1 < (t.get (level + 1)).1 ↔ t.req level.toNat < t.req (level.toNat + 1) := by
  constructor
  · intro h
    rw [← t.toNat_add_one (Nat.lt_of_le_of_lt (Nat.zero_le _) h), t.req_toNat, t.req_toNat]
    exact h
  · intro h
    have hlt : level.toNat + 1 < 2 ^ w := by
      by_contra hnot
      have heq : level.toNat + 1 = 2 ^ w := Nat.le_antisymm level.isLt (Nat.le_of_not_lt hnot)
      rw [heq, t.req_two_pow] at h
      exact Nat.not_lt_zero _ h
    rw [← toNat_add_one_of_lt hlt, t.req_toNat, t.req_toNat] at h
    exact h

/-- The steps up to a place on the table's ladder. -/
def total (level : BitVec w) (tries : BitVec 64) : Nat := Ladder.total t.req level.toNat tries.toNat

/-- A table that answers as another does, now and when asked again. -/
structure Like (t t' : Requirements base w k) : Prop where
  get_eq : ∀ level, (t'.get level).1 = (t.get level).1
  steady : ∀ level, t.Steady level → t'.Steady level

variable {t}

theorem Like.refl (t : Requirements base w k) : t.Like t := ⟨fun _ => rfl, fun _ h => h⟩

theorem Like.trans {t' t'' : Requirements base w k} (h : t.Like t') (h' : t'.Like t'') : t.Like t'' :=
  ⟨fun level => (h'.get_eq level).trans (h.get_eq level), fun level hl => h'.steady level (h.steady level hl)⟩

theorem Like.req_eq {t' : Requirements base w k} (h : t.Like t') : t'.req = t.req :=
  funext fun level => congrArg BitVec.toNat (h.get_eq (BitVec.ofNat w level))

theorem Like.total_eq {t' : Requirements base w k} (h : t.Like t') (level : BitVec w) (tries : BitVec 64) :
    t'.total level tries = t.total level tries := by
  rw [total, total, h.req_eq]

theorem like_get {level : BitVec w} (h : t.Steady level) : t.Like (t.get level).2 where
  get_eq l := by
    by_cases hl : l = level
    · rw [hl]
      exact h
    · exact t.get_get_of_ne hl
  steady l hl := by
    obtain ⟨hformula, hother, hself⟩ := t.get_table level
    rw [steady_iff] at hl ⊢
    rw [hformula]
    by_cases hbase : l.toNat ≤ base
    · exact .inl hbase
    · by_cases heq : l = level
      · rw [heq] at hbase ⊢
        rw [hself hbase]
        exact .inr (.inl rfl)
      · rwa [hother l heq]

/-! ### Asking for all levels -/

variable (t)

/-- The table that has been asked for the levels up to so many. -/
def upTo : Nat → Requirements base w k
  | 0 => t
  | n + 1 => ((upTo n).get (BitVec.ofNat w (n + 1))).2

theorem upTo_of_le {n : Nat} (h : n ≤ base) : t.upTo n = t := by
  induction n with
  | zero => rfl
  | succ n ih =>
    rw [upTo, ih (Nat.le_of_succ_le h), t.get_of_le (Nat.le_trans (Nat.mod_le _ _) h)]

theorem upTo_table {n : Nat} (hn : n < 2 ^ w) :
    (t.upTo n).formula = t.formula ∧ (∀ l, n < l.toNat → (t.upTo n).cache l = t.cache l) ∧
      (∀ l, l.toNat ≤ n → ¬ l.toNat ≤ base →
        (t.upTo n).cache l = some ((t.cache l).getD ((t.formula l).setWidth k))) := by
  induction n with
  | zero =>
    exact ⟨rfl, fun _ _ => rfl, fun l hl hbase => absurd (Nat.le_trans hl (Nat.zero_le _)) hbase⟩
  | succ n ih =>
    obtain ⟨hformula, hafter, hbefore⟩ := ih (Nat.lt_of_succ_lt hn)
    obtain ⟨hformula', hother, hself⟩ := (t.upTo n).get_table (BitVec.ofNat w (n + 1))
    have htoNat : (BitVec.ofNat w (n + 1)).toNat = n + 1 := Nat.mod_eq_of_lt hn
    have hne {l : BitVec w} (h : l.toNat ≠ n + 1) : l ≠ BitVec.ofNat w (n + 1) := fun heq => h (heq ▸ htoNat)
    refine ⟨hformula'.trans hformula, fun l hl => ?_, fun l hl hbase => ?_⟩
    · exact (hother l (hne (Nat.ne_of_gt hl))).trans (hafter l (Nat.lt_of_succ_lt hl))
    · rcases Nat.eq_or_lt_of_le hl with heq | hlt
      · have hlevel : l = BitVec.ofNat w (n + 1) := BitVec.eq_of_toNat_eq (heq.trans htoNat.symm)
        rw [← hlevel] at hself
        have hnew : (t.upTo n).cache l = t.cache l := hafter l (heq ▸ Nat.lt_succ_self n)
        rw [upTo, ← hlevel, hself hbase, hnew, hformula]
      · exact (hother l (hne (Nat.ne_of_lt hlt))).trans (hbefore l (Nat.le_of_lt_succ hlt) hbase)

theorem upTo_get_of_lt {n : Nat} (hn : n < 2 ^ w) {l : BitVec w} (hl : n < l.toNat) :
    ((t.upTo n).get l).1 = (t.get l).1 :=
  get_congr (t.upTo_table hn).1 ((t.upTo_table hn).2.1 l hl)

theorem upTo_get_of_le {n : Nat} (hn : n < 2 ^ w) {l : BitVec w} (hl : l.toNat ≤ n) :
    ((t.upTo n).get l).1 = ((t.get l).2.get l).1 := by
  by_cases hbase : l.toNat ≤ base
  · rw [get_of_le _ hbase, get_of_le _ hbase]
  · rw [t.get_get_self hbase, get_of_cached _ hbase ((t.upTo_table hn).2.2 l hl hbase)]

theorem steady_upTo {n : Nat} (hn : n < 2 ^ w) {l : BitVec w} (hl : l.toNat ≤ n) : (t.upTo n).Steady l := by
  rw [steady_iff]
  by_cases hbase : l.toNat ≤ base
  · exact .inl hbase
  · rw [(t.upTo_table hn).2.2 l hl hbase]
    exact .inr (.inl rfl)

variable {t}

theorem like_upTo {n : Nat} (hn : n < 2 ^ w) (h : ∀ l : BitVec w, l.toNat ≤ n → t.Steady l) : t.Like (t.upTo n) := by
  induction n with
  | zero => exact Like.refl t
  | succ n ih =>
    have hlike := ih (Nat.lt_of_succ_lt hn) fun l hl => h l (Nat.le_succ_of_le hl)
    have htoNat : (BitVec.ofNat w (n + 1)).toNat ≤ n + 1 := Nat.mod_le _ _
    exact hlike.trans (like_get (hlike.steady _ (h _ htoNat)))

end Requirements

/-! ### Vocations -/

/-- `SKILL_LAST` -/
abbrev SKILL_LAST : Nat := 12

/-- The skills from `SKILL_FIRST` to `SKILL_LAST`. -/
abbrev SkillId := Fin (SKILL_LAST + 1)

abbrev SkillTries := Requirements 10 16 32

abbrev ManaTable := Requirements 0 32 64

structure Vocation where
  skillTries : SkillId → SkillTries
  mana : ManaTable

namespace Vocation

/-- The vocation with another table for a skill. -/
def setSkillTries (v : Vocation) (skill : SkillId) (t : SkillTries) : Vocation :=
  { v with skillTries := fun s => if s = skill then t else v.skillTries s }

def getReqSkillTries (v : Vocation) (skill : SkillId) (level : BitVec 16) : BitVec 64 × Vocation :=
  (((v.skillTries skill).get level).1, v.setSkillTries skill ((v.skillTries skill).get level).2)

def getReqMana (v : Vocation) (magLevel : BitVec 32) : BitVec 64 × Vocation :=
  ((v.mana.get magLevel).1, { v with mana := (v.mana.get magLevel).2 })

@[simp] theorem setSkillTries_self (v : Vocation) (skill : SkillId) (t : SkillTries) :
    (v.setSkillTries skill t).skillTries skill = t := if_pos rfl

@[simp] theorem setSkillTries_of_ne (v : Vocation) {skill s : SkillId} (h : s ≠ skill) (t : SkillTries) :
    (v.setSkillTries skill t).skillTries s = v.skillTries s := if_neg h

end Vocation

/-! ### Percentages -/

/-- `Player::getPercentLevel`, in hundredths of a percent; `hundredths` is what the doubles make of
`round(((count * 100.) / nextLevelCount) * 100.)`. -/
def getPercentLevel (hundredths : BitVec 64 → BitVec 64 → Nat) (count nextLevelCount : BitVec 64) : Nat :=
  if nextLevelCount = 0 then 0
  else
    let result := hundredths count nextLevelCount
    if result > 10000 then 0 else result

end Moonlight
