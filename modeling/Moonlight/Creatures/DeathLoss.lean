import Mathlib.Data.BitVec
import Moonlight.Creatures.Vocation

/-!
# What a death takes

`Player::death` (creatures/players/player.cpp) sums up what a player has put into the magic level and into each skill,
and takes a part of it. Both loops go down a level as long as more is to be lost than there is above it
(`loseMagLevels_fall`, `loseSkillLevels_fall`): the player ends where the ladder says, `Ladder.fall`.

For the mana all words are 64 bits wide and the loss is exact (`loseMagLevels_exact`). For a skill the loss is cast to
`uint32_t`, the tries that stay go through an `int32_t`, the sum is taken over a 16-bit counter, and the requirements
that the sum has seen may be cut off in the cache by the time the loop asks for them. `deathSkill_exact_iff` says when
none of that changes anything.
-/

namespace Moonlight

open Ladder

/-- The loops that sum up the requirements of the levels from `c` on; `none` if the counter never gets past `level`. -/
def Requirements.sumFrom {base w k : Nat} (level c : BitVec w) (sum : BitVec 64) (t : Requirements base w k) :
    Option (BitVec 64 × Requirements base w k) :=
  if c ≤ level then
    let (req, t) := t.get c
    t |>.sumFrom level (c + 1) (sum + req)
  else some (sum, t)
partial_fixpoint

namespace DeathLoss

open Requirements (sumFrom)

section

variable {base w k : Nat}

/-- Where a loop ends: what is there, and what of the loss is left. -/
structure Descent (base w k : Nat) where
  table : Requirements base w k
  level : BitVec w
  amount : BitVec 64
  lost : BitVec 64

end

/-! ### Magic level -/

/-- The loop of the magic level loss. -/
def loseMagLevels (t : ManaTable) (magLevel : BitVec 32) (manaSpent lostMana : BitVec 64) : Descent 0 32 64 :=
  if manaSpent < lostMana ∧ 0 < magLevel then
    let (req, t') := t.get magLevel
    loseMagLevels t' (magLevel - 1) req (lostMana - manaSpent)
  else ⟨t, magLevel, manaSpent, lostMana⟩
termination_by magLevel.toNat
decreasing_by
  bv_omega

structure Magic where
  magLevel : BitVec 32
  manaSpent : BitVec 64
  magLevelPercent : Nat

/-- The magic level loss of `death`; `share` is the part of a sum that is lost, as the doubles have it. -/
def deathMagic (hundredths : BitVec 64 → BitVec 64 → Nat) (share : BitVec 64 → BitVec 64) (t : ManaTable) (m : Magic) :
    Option (Magic × ManaTable) :=
  match sumFrom m.magLevel 1 0 t with
  | none => none
  | some (sumMana, t) =>
    let o := loseMagLevels t m.magLevel m.manaSpent (share (sumMana + m.manaSpent))
    let manaSpent := o.amount - o.lost
    let (nextReqMana, t) := o.table.get (o.level + 1)
    let (reqMana, t) := t.get o.level
    let magLevelPercent := if nextReqMana > reqMana then getPercentLevel hundredths manaSpent nextReqMana else 0
    some (⟨o.level, manaSpent, magLevelPercent⟩, t)

/-! ### Skills -/

structure Skill where
  tries : BitVec 64 := 0
  level : BitVec 16 := 10
  percent : Nat := 0
  deriving DecidableEq, Repr

/-- The loop of the skill loss. What is lost is a `uint32_t`. -/
def loseSkillLevels (t : SkillTries) (level : BitVec 16) (tries : BitVec 64) (lostSkillTries : BitVec 32) :
    Descent 10 16 32 :=
  if tries < lostSkillTries.setWidth 64 then
    let lost := (lostSkillTries.setWidth 64 - tries).setWidth 32
    if level ≤ 10 then ⟨t, 10, 0, 0⟩
    else
      let (req, t') := t.get level
      loseSkillLevels t' (level - 1) req lost
  else ⟨t, level, tries, lostSkillTries.setWidth 64⟩
termination_by level.toNat
decreasing_by
  bv_omega

/-- `std::max<int32_t>(0, x)` -/
def maxInt32 (x : BitVec 64) : BitVec 64 := if (x.setWidth 32).toInt < 0 then 0 else (x.setWidth 32).setWidth 64

/-- The loss of one skill; `share` is the part of a sum that is lost, a double, rounded down. From `2 ^ 32` on its cast
to `uint32_t` is not defined, and the result is `none`. -/
def deathSkill (hundredths : BitVec 64 → BitVec 64 → Nat) (share : BitVec 64 → Nat) (t : SkillTries) (s : Skill) :
    Option (Skill × SkillTries) :=
  match sumFrom s.level 11 0 t with
  | none => none
  | some (sumSkillTries, t) =>
    let lostSkillTries := share (sumSkillTries + s.tries)
    if lostSkillTries < 2 ^ 32 then
      let o := loseSkillLevels t s.level s.tries (BitVec.ofNat 32 lostSkillTries)
      let tries := maxInt32 (o.amount - o.lost)
      let (req, t) := o.table.get o.level
      some ({ tries, level := o.level, percent := getPercentLevel hundredths tries req }, t)
    else none

/-! ### The sums -/

section

variable {base w k : Nat} (t : Requirements base w k)

theorem sumFrom_eq {level : BitVec w} (hlevel : level.toNat + 1 < 2 ^ w) {n : Nat} (hn : n ≤ level.toNat) :
    sumFrom level (BitVec.ofNat w (n + 1)) (BitVec.ofNat 64 (Ladder.sum t.req n)) (t.upTo n) =
      some (BitVec.ofNat 64 (Ladder.sum t.req level.toNat), t.upTo level.toNat) := by
  induction hleft : level.toNat - n generalizing n with
  | zero =>
    obtain rfl : n = level.toNat := by omega
    have hend : ¬ BitVec.ofNat w (level.toNat + 1) ≤ level := by
      rw [BitVec.le_def, BitVec.toNat_ofNat, Nat.mod_eq_of_lt hlevel]
      exact Nat.not_succ_le_self _
    rw [sumFrom, if_neg hend]
  | succ m ih =>
    have hlt : n + 1 < 2 ^ w := by omega
    have hgoes : BitVec.ofNat w (n + 1) ≤ level := by
      rw [BitVec.le_def, BitVec.toNat_ofNat, Nat.mod_eq_of_lt hlt]
      omega
    have hget : ((t.upTo n).get (BitVec.ofNat w (n + 1))).1 = BitVec.ofNat 64 (t.req (n + 1)) := by
      rw [t.upTo_get_of_lt (Nat.lt_of_succ_lt hlt)
          (by rw [BitVec.toNat_ofNat, Nat.mod_eq_of_lt hlt]; exact Nat.lt_succ_self n),
        Requirements.req, BitVec.ofNat_toNat, BitVec.setWidth_eq]
    rw [sumFrom, if_pos hgoes]
    dsimp only
    rw [hget, ← BitVec.ofNat_add, ← Ladder.sum_succ, show BitVec.ofNat w (n + 1) + 1 = BitVec.ofNat w (n + 1 + 1) from
      (BitVec.ofNat_add (n + 1) 1).symm]
    exact ih (n := n + 1) (by omega) (by omega)

theorem sumFrom_base {level : BitVec w} (hlevel : level.toNat + 1 < 2 ^ w) (hbase : base ≤ level.toNat) :
    sumFrom level (BitVec.ofNat w (base + 1)) 0 t =
      some (BitVec.ofNat 64 (Ladder.sum t.req level.toNat), t.upTo level.toNat) := by
  have h := sumFrom_eq t hlevel hbase
  rwa [t.upTo_of_le (Nat.le_refl base), Ladder.sum_eq_zero fun l hl => t.req_of_le hl] at h

theorem sumFrom_of_le {level : BitVec w} (hbase : base + 1 < 2 ^ w) (hle : level.toNat ≤ base) :
    sumFrom level (BitVec.ofNat w (base + 1)) 0 t =
      some (BitVec.ofNat 64 (Ladder.sum t.req level.toNat), t.upTo level.toNat) := by
  have hend : ¬ BitVec.ofNat w (base + 1) ≤ level := by
    rw [BitVec.le_def, BitVec.toNat_ofNat, Nat.mod_eq_of_lt hbase]
    exact Nat.not_le.mpr (Nat.lt_succ_of_le hle)
  rw [sumFrom, if_neg hend, t.upTo_of_le hle, Ladder.sum_eq_zero fun l hl => t.req_of_le (Nat.le_trans hl hle)]
  rfl

theorem sumFrom_eq_none {level : BitVec w} (hlevel : ¬ level.toNat + 1 < 2 ^ w) (c : BitVec w) (sum : BitVec 64) :
    sumFrom level c sum t = none := by
  have hnever : ∀ (c : BitVec w) (sum : BitVec 64) (t : Requirements base w k) (r : BitVec 64 × Requirements base w k),
      sumFrom level c sum t = some r → False := by
    apply Requirements.sumFrom.partial_correctness
    intro next ih c sum t r h
    have hle : c ≤ level := by
      rw [BitVec.le_def]
      have := c.isLt
      omega
    rw [if_pos hle] at h
    exact ih _ _ _ _ h
  cases hsum : sumFrom level c sum t with
  | none => rfl
  | some r => exact (hnever c sum t r hsum).elim

end

/-! ### The descent -/

section

variable {base w k : Nat} {t : Requirements base w k}

theorem toNat_sub_one {level : BitVec w} (hpos : 0 < level.toNat) : (level - 1).toNat + 1 = level.toNat := by
  rw [BitVec.toNat_sub_of_le (by rw [BitVec.le_def]; exact Nat.le_trans (Nat.mod_le _ _) hpos)]
  show level.toNat - 1 % 2 ^ w + 1 = level.toNat
  rw [Nat.mod_eq_of_lt (Nat.lt_of_le_of_lt hpos level.isLt), Nat.sub_add_cancel hpos]

theorem total_get {level : BitVec w} (hpos : 0 < level.toNat) (hsteady : t.Steady level) :
    (t.get level).2.total (level - 1) (t.get level).1 = Ladder.sum t.req level.toNat := by
  have hsum := @Ladder.sum_succ t.req (level - 1).toNat
  rw [toNat_sub_one hpos, t.req_toNat] at hsum
  rw [(Requirements.like_get hsteady).total_eq, hsum]
  rfl

theorem fall_get {level : BitVec w} (hpos : 0 < level.toNat) (hsteady : t.Steady level) {tries lost : BitVec 64}
    (hlt : tries < lost) :
    fall (t.get level).2.req base (level - 1).toNat ((t.get level).2.total (level - 1) (t.get level).1)
        (lost - tries).toNat = fall t.req base level.toNat (t.total level tries) lost.toNat := by
  have hlost : (lost - tries).toNat = lost.toNat - tries.toNat := BitVec.toNat_sub_of_le (Nat.le_of_lt hlt)
  rw [(Requirements.like_get hsteady).req_eq, (Requirements.like_get hsteady).total_eq, hlost, Requirements.total,
    Requirements.total, ← toNat_sub_one hpos, fall_succ hlt, toNat_sub_one hpos, t.req_toNat]

theorem fall_stay (t : Requirements base w k) (level : BitVec w) {tries lost : BitVec 64} (hle : lost ≤ tries) :
    (level.toNat, (tries - lost).toNat) = fall t.req base level.toNat (t.total level tries) lost.toNat := by
  rw [BitVec.toNat_sub_of_le hle]
  refine (fall_eq (Nat.le_refl _) ?_ (.inl rfl)).symm
  rw [← Ladder.total_add, Nat.sub_add_cancel hle]
  rfl

end

/-- **The magic level falls as far as the ladder says**, if no more is lost than there is. -/
theorem loseMagLevels_fall (t : ManaTable) (magLevel : BitVec 32) (manaSpent lostMana : BitVec 64)
    (h : lostMana.toNat ≤ t.total magLevel manaSpent) :
    t.Like (loseMagLevels t magLevel manaSpent lostMana).table ∧
      (loseMagLevels t magLevel manaSpent lostMana).lost ≤ (loseMagLevels t magLevel manaSpent lostMana).amount ∧
      ((loseMagLevels t magLevel manaSpent lostMana).level.toNat,
        ((loseMagLevels t magLevel manaSpent lostMana).amount -
          (loseMagLevels t magLevel manaSpent lostMana).lost).toNat) =
        fall t.req 0 magLevel.toNat (t.total magLevel manaSpent) lostMana.toNat := by
  induction t, magLevel, manaSpent, lostMana using loseMagLevels.induct with
  | case1 t magLevel manaSpent lostMana hgoes req t' hget ih =>
    have hpos : 0 < magLevel.toNat := hgoes.2
    have hsteady : t.Steady magLevel := t.steady_of_wide (Nat.le_refl 64) magLevel
    have hfall := fall_get hpos hsteady hgoes.1
    have hless : (lostMana - manaSpent).toNat ≤ (t.get magLevel).2.total (magLevel - 1) (t.get magLevel).1 := by
      rw [total_get hpos hsteady, BitVec.toNat_sub_of_le (Nat.le_of_lt hgoes.1)]
      exact Nat.sub_le_iff_le_add.mpr h
    rw [hget] at hfall hless
    rw [loseMagLevels, if_pos hgoes, hget]
    dsimp only at hfall hless ⊢
    obtain ⟨hlike, hle, hend⟩ := ih hless
    have hsame : t.Like t' := by
      have := Requirements.like_get hsteady
      rwa [hget] at this
    exact ⟨hsame.trans hlike, hle, hend.trans hfall⟩
  | case2 t magLevel manaSpent lostMana hstops =>
    -- on level 0 the whole total is what has been spent there
    have hle : lostMana ≤ manaSpent := by
      by_contra hlost
      have hground : magLevel.toNat = 0 := by
        by_contra hpos
        exact hstops ⟨BitVec.not_le.mp hlost, Nat.pos_of_ne_zero hpos⟩
      rw [Requirements.total, hground, Ladder.total, Ladder.sum_zero, Nat.zero_add] at h
      exact hlost h
    rw [loseMagLevels, if_neg hstops]
    exact ⟨Requirements.Like.refl t, hle, fall_stay t magLevel hle⟩

/-- **Magic level loss is exact.** The loop ends with enough to take the rest of the loss from, and what is left is
what there was, without the loss. -/
theorem loseMagLevels_exact (t : ManaTable) (magLevel : BitVec 32) (manaSpent lostMana : BitVec 64)
    (h : lostMana.toNat ≤ t.total magLevel manaSpent) :
    (loseMagLevels t magLevel manaSpent lostMana).lost ≤ (loseMagLevels t magLevel manaSpent lostMana).amount ∧
      (loseMagLevels t magLevel manaSpent lostMana).table.total (loseMagLevels t magLevel manaSpent lostMana).level
          ((loseMagLevels t magLevel manaSpent lostMana).amount -
            (loseMagLevels t magLevel manaSpent lostMana).lost) =
        t.total magLevel manaSpent - lostMana.toNat := by
  obtain ⟨hlike, hle, hend⟩ := loseMagLevels_fall t magLevel manaSpent lostMana h
  have htotal := @fall_total t.req 0 magLevel.toNat _ _ h
  refine ⟨hle, ?_⟩
  rw [hlike.total_eq, Requirements.total]
  rw [← hend] at htotal
  exact Nat.eq_sub_of_add_eq htotal

/-- A table of round numbers: level `n` requires `100 * n` mana. -/
def hundreds : ManaTable where
  formula l := 100 * l.setWidth 64
  cache _ := none

theorem loseMagLevels_exact_twoLevels : (500 : BitVec 64).toNat ≤ hundreds.total 3 5 ∧
    (loseMagLevels hundreds 3 5 500).lost ≤ (loseMagLevels hundreds 3 5 500).amount ∧
      (loseMagLevels hundreds 3 5 500).table.total (loseMagLevels hundreds 3 5 500).level
          ((loseMagLevels hundreds 3 5 500).amount - (loseMagLevels hundreds 3 5 500).lost) =
        hundreds.total 3 5 - (500 : BitVec 64).toNat :=
  ⟨by decide, loseMagLevels_exact hundreds 3 5 500 (by decide)⟩

/-- The magic level loss as a whole, where the counter of the sum has room for the level. -/
theorem deathMagic_spec (hundredths : BitVec 64 → BitVec 64 → Nat) (share : BitVec 64 → BitVec 64) (t : ManaTable)
    (m : Magic) (hlevel : m.magLevel.toNat + 1 < 2 ^ 32)
    (hless : (share (BitVec.ofNat 64 (t.total m.magLevel m.manaSpent))).toNat ≤ t.total m.magLevel m.manaSpent) :
    ∃ m' t', deathMagic hundredths share t m = some (m', t') ∧
      t'.total m'.magLevel m'.manaSpent + (share (BitVec.ofNat 64 (t.total m.magLevel m.manaSpent))).toNat =
        t.total m.magLevel m.manaSpent := by
  have hsum := sumFrom_base t hlevel (Nat.zero_le _)
  have hword : BitVec.ofNat 64 (Ladder.sum t.req m.magLevel.toNat) + m.manaSpent =
      BitVec.ofNat 64 (t.total m.magLevel m.manaSpent) := by
    rw [Requirements.total, Ladder.total, BitVec.ofNat_add, BitVec.ofNat_toNat, BitVec.setWidth_eq]
  have hall : t.Like (t.upTo m.magLevel.toNat) :=
    Requirements.like_upTo m.magLevel.isLt fun l _ => t.steady_of_wide (Nat.le_refl 64) l
  rw [← hall.total_eq] at hless
  obtain ⟨hlike, -, hend⟩ := loseMagLevels_fall (t.upTo m.magLevel.toNat) m.magLevel m.manaSpent _ hless
  have hreturn := @fall_total (t.upTo m.magLevel.toNat).req 0 m.magLevel.toNat _ _ hless
  rw [← hend] at hreturn
  rw [deathMagic, show (1 : BitVec 32) = BitVec.ofNat 32 (0 + 1) from rfl, hsum]
  dsimp only
  rw [hword, ← hall.total_eq]
  refine ⟨_, _, rfl, ?_⟩
  have hasked (t : ManaTable) (l : BitVec 32) : t.Like (t.get l).2 :=
    Requirements.like_get (t.steady_of_wide (Nat.le_refl 64) l)
  rw [((hlike.trans (hasked _ _)).trans (hasked _ _)).total_eq]
  exact hreturn

theorem deathMagic_spec_twoLevels : ∃ m' t', deathMagic (fun _ _ => 0) (· / 2) hundreds ⟨3, 5, 0⟩ = some (m', t') ∧
    t'.total m'.magLevel m'.manaSpent + (BitVec.ofNat 64 (hundreds.total 3 5) / 2).toNat = hundreds.total 3 5 :=
  deathMagic_spec (fun _ _ => 0) (· / 2) hundreds ⟨3, 5, 0⟩ (by decide) (by decide)

/-- **A skill falls as far as the ladder says.** -/
theorem loseSkillLevels_fall (t : SkillTries) (level : BitVec 16) (tries : BitVec 64) (lost : BitVec 32)
    (hsteady : ∀ l : BitVec 16, l.toNat ≤ level.toNat → t.Steady l) :
    t.Like (loseSkillLevels t level tries lost).table ∧
      (loseSkillLevels t level tries lost).lost ≤ (loseSkillLevels t level tries lost).amount ∧
      ((loseSkillLevels t level tries lost).level.toNat,
        ((loseSkillLevels t level tries lost).amount - (loseSkillLevels t level tries lost).lost).toNat) =
        fall t.req 10 level.toNat (t.total level tries) lost.toNat := by
  have hwiden (lost : BitVec 32) : (lost.setWidth 64).toNat = lost.toNat := by
    rw [BitVec.toNat_setWidth]
    exact Nat.mod_eq_of_lt (Nat.lt_trans lost.isLt (by decide))
  induction t, level, tries, lost using loseSkillLevels.induct with
  | case1 t level tries lost hless hground =>
    -- all levels that require something are gone
    have hlow : level.toNat ≤ 10 := hground
    have hsum : Ladder.sum t.req level.toNat = 0 :=
      Ladder.sum_eq_zero fun l hl => t.req_of_le (Nat.le_trans hl hlow)
    have hall : t.total level tries < lost.toNat := by
      rw [Requirements.total, Ladder.total, hsum, Nat.zero_add, ← hwiden]
      exact hless
    rw [loseSkillLevels, if_pos hless, if_pos hground, fall_all hall]
    refine ⟨Requirements.Like.refl t, Nat.le_refl _, ?_⟩
    show ((10 : BitVec 16).toNat, (0 - 0 : BitVec 64).toNat) = (10, 0)
    decide
  | case2 t level tries lost hless lost' hground req t' hget ih =>
    have hlevel : ¬ level.toNat ≤ 10 := hground
    have hpos : 0 < level.toNat := by omega
    have hself := hsteady level (Nat.le_refl _)
    have hfall := fall_get hpos hself hless
    have hsame := Requirements.like_get hself
    have hlost : lost'.toNat = (lost.setWidth 64 - tries).toNat := by
      show ((lost.setWidth 64 - tries).setWidth 32).toNat = _
      rw [BitVec.toNat_setWidth]
      refine Nat.mod_eq_of_lt (Nat.lt_of_le_of_lt ?_ lost.isLt)
      rw [BitVec.toNat_sub_of_le (Nat.le_of_lt hless), hwiden]
      exact Nat.sub_le _ _
    rw [hget] at hfall hsame
    rw [loseSkillLevels, if_pos hless, if_neg hground, hget]
    dsimp only at hfall hsame ⊢
    rw [← hlost, hwiden] at hfall
    have hbelow : ∀ l : BitVec 16, l.toNat ≤ (level - 1).toNat → t'.Steady l := fun l hl =>
      hsame.steady l (hsteady l (Nat.le_trans hl (by have := toNat_sub_one hpos; omega)))
    obtain ⟨hlike, hle, hend⟩ := ih hbelow
    exact ⟨hsame.trans hlike, hle, hend.trans hfall⟩
  | case3 t level tries lost hstops =>
    have hle : lost.setWidth 64 ≤ tries := BitVec.not_lt.mp hstops
    rw [loseSkillLevels, if_neg hstops, ← hwiden]
    exact ⟨Requirements.Like.refl t, hle, fall_stay t level hle⟩

/-! ### When the loss of a skill is exact -/

theorem toNat_maxInt32 (x : BitVec 64) :
    (maxInt32 x).toNat = if x.toNat % 2 ^ 32 < 2 ^ 31 then x.toNat % 2 ^ 32 else 0 := by
  have hword : (x.setWidth 32).toNat = x.toNat % 2 ^ 32 := BitVec.toNat_setWidth 32 x
  have hlt : x.toNat % 2 ^ 32 < 2 ^ 32 := Nat.mod_lt _ (by decide)
  have hint := BitVec.toInt_eq_toNat_cond (x.setWidth 32)
  rw [hword] at hint
  rw [maxInt32]
  by_cases hsmall : x.toNat % 2 ^ 32 < 2 ^ 31
  · rw [if_pos (by omega)] at hint
    rw [if_pos hsmall, if_neg (by omega), BitVec.toNat_setWidth, hword]
    exact Nat.mod_eq_of_lt (Nat.lt_trans hlt (by decide))
  · rw [if_neg (by omega)] at hint
    rw [if_neg hsmall, if_pos (by omega)]
    rfl

theorem maxInt32_eq_iff (x : BitVec 64) : (maxInt32 x).toNat = x.toNat ↔ x.toNat < 2 ^ 31 := by
  rw [toNat_maxInt32]
  split
  · omega
  · omega

theorem maxInt32_le (x : BitVec 64) : (maxInt32 x).toNat ≤ x.toNat := by
  rw [toNat_maxInt32]
  split
  · exact Nat.mod_le _ _
  · exact Nat.zero_le _

section

variable {base w k : Nat} (t : Requirements base w k)

theorem req_upTo_le {level : BitVec w} {l : Nat} (hl : l ≤ level.toNat) : (t.upTo level.toNat).req l ≤ t.req l := by
  have htoNat : (BitVec.ofNat w l).toNat ≤ level.toNat := Nat.le_trans (Nat.mod_le _ _) hl
  rw [Requirements.req, t.upTo_get_of_le level.isLt htoNat]
  exact t.get_get_le _

theorem total_upTo (level : BitVec w) (tries : BitVec 64) : (t.upTo level.toNat).total level tries ≤ t.total level tries :=
  Nat.add_le_add_right (Ladder.sum_le_sum fun _ => req_upTo_le t) _

theorem total_upTo_lt {level l : BitVec w} (hl : l.toNat ≤ level.toNat) (hsteady : ¬ t.Steady l) (tries : BitVec 64) :
    (t.upTo level.toNat).total level tries < t.total level tries := by
  have hpos := t.pos_of_not_steady hsteady
  refine Nat.add_lt_add_right (Ladder.sum_lt_sum (fun _ => req_upTo_le t) hl hpos ?_) _
  rw [Requirements.req_toNat, t.req_toNat, t.upTo_get_of_le level.isLt hl]
  exact Nat.lt_of_le_of_ne (t.get_get_le l) fun heq => hsteady (BitVec.eq_of_toNat_eq heq)

theorem two_pow_le_total {level l : BitVec w} (hl : l.toNat ≤ level.toNat) (hsteady : ¬ t.Steady l) (tries : BitVec 64) :
    2 ^ k ≤ t.total level tries := by
  have hreq := t.le_of_not_steady hsteady
  rw [← t.req_toNat] at hreq
  have hpos := t.pos_of_not_steady hsteady
  have hsum : Ladder.sum t.req l.toNat ≤ Ladder.sum t.req level.toNat := Ladder.sum_mono hl
  have hlast := @Ladder.sum_succ t.req (l.toNat - 1)
  rw [Nat.sub_add_cancel hpos] at hlast
  rw [Requirements.total, Ladder.total]
  omega

end

section

variable (hundredths : BitVec 64 → BitVec 64 → Nat) (share : BitVec 64 → Nat) (t : SkillTries) (s : Skill)

/-- What is lost, of all that there is. -/
def lossOf : Nat := share (BitVec.ofNat 64 (t.total s.level s.tries))

/-- A skill ends with a level that a skill may have, and with what there was, without the loss. -/
def Exact : Prop :=
  ∃ s' t', deathSkill hundredths share t s = some (s', t') ∧ 10 ≤ s'.level ∧
    t'.total s'.level s'.tries + lossOf share t s = t.total s.level s.tries

theorem share_sum :
    share (BitVec.ofNat 64 (Ladder.sum t.req s.level.toNat) + s.tries) = lossOf share t s := by
  rw [lossOf, Requirements.total, Ladder.total, BitVec.ofNat_add, BitVec.ofNat_toNat, BitVec.setWidth_eq]

theorem sumFrom_skill (hlevel : s.level.toNat + 1 < 2 ^ 16) :
    sumFrom s.level 11 0 t = some (BitVec.ofNat 64 (Ladder.sum t.req s.level.toNat), t.upTo s.level.toNat) := by
  rcases Nat.le_total 10 s.level.toNat with hground | hlow
  · exact sumFrom_base t hlevel hground
  · exact sumFrom_of_le t (by decide) hlow

theorem deathSkill_spec (hlevel : s.level.toNat + 1 < 2 ^ 16) (hlost : lossOf share t s < 2 ^ 32) :
    ∃ s' t' left, deathSkill hundredths share t s = some (s', t') ∧ (t.upTo s.level.toNat).Like t' ∧
      s'.tries = maxInt32 left ∧
      s'.percent = getPercentLevel hundredths s'.tries ((t.upTo s.level.toNat).get s'.level).1 ∧
      (s'.level.toNat, left.toNat) =
        fall (t.upTo s.level.toNat).req 10 s.level.toNat ((t.upTo s.level.toNat).total s.level s.tries)
          (lossOf share t s) := by
  have hloop := loseSkillLevels_fall (t.upTo s.level.toNat) s.level s.tries (BitVec.ofNat 32 (lossOf share t s))
    fun l hl => t.steady_upTo s.level.isLt hl
  have hrun : deathSkill hundredths share t s =
      let o := loseSkillLevels (t.upTo s.level.toNat) s.level s.tries (BitVec.ofNat 32 (lossOf share t s))
      some (⟨maxInt32 (o.amount - o.lost), o.level,
        getPercentLevel hundredths (maxInt32 (o.amount - o.lost)) (o.table.get o.level).1⟩, (o.table.get o.level).2) := by
    rw [deathSkill, sumFrom_skill t s hlevel]
    dsimp only
    rw [share_sum share t s, if_pos hlost]
  rw [BitVec.toNat_ofNat, Nat.mod_eq_of_lt hlost] at hloop
  rw [hrun]
  generalize loseSkillLevels (t.upTo s.level.toNat) s.level s.tries (BitVec.ofNat 32 (lossOf share t s)) = o at hloop ⊢
  obtain ⟨hlike, -, hend⟩ := hloop
  -- the sum has looked up all levels to the old one, so the new one is in the table
  have hsteady : (t.upTo s.level.toNat).Steady o.level := by
    obtain hground | hbelow := @fall_ground_or_le (t.upTo s.level.toNat).req 10 s.level.toNat
      ((t.upTo s.level.toNat).total s.level s.tries) (lossOf share t s)
    · rw [← hend] at hground
      exact ((t.upTo s.level.toNat).steady_iff).mpr (.inl (Nat.le_of_eq hground))
    · rw [← hend] at hbelow
      exact t.steady_upTo s.level.isLt hbelow
  refine ⟨_, _, o.amount - o.lost, rfl, hlike.trans (Requirements.like_get (hlike.steady _ hsteady)), rfl, ?_, hend⟩
  rw [hlike.get_eq]

theorem deathSkill_some {r : Skill × SkillTries} (hrun : deathSkill hundredths share t s = some r) :
    s.level.toNat + 1 < 2 ^ 16 ∧ lossOf share t s < 2 ^ 32 := by
  have hlevel : s.level.toNat + 1 < 2 ^ 16 := by
    by_contra hlast
    rw [deathSkill, sumFrom_eq_none t hlast] at hrun
    cases hrun
  refine ⟨hlevel, ?_⟩
  by_contra hwide
  rw [deathSkill, sumFrom_skill t s hlevel] at hrun
  dsimp only at hrun
  rw [share_sum share t s, if_neg hwide] at hrun
  cases hrun

/-- **When skill loss is exact.** The sum comes to an end, the loss fits its word, so do the tries that are left, and
the cache has cut off nothing that was summed up. -/
theorem deathSkill_exact_iff (hground : 10 ≤ s.level) (htotal : t.total s.level s.tries < 2 ^ 63)
    (hless : lossOf share t s ≤ t.total s.level s.tries) :
    Exact hundredths share t s ↔
      s.level.toNat + 1 < 2 ^ 16 ∧ lossOf share t s < 2 ^ 32 ∧ (∀ l, l ≤ s.level → t.Steady l) ∧
        (fall t.req 10 s.level.toNat (t.total s.level s.tries) (lossOf share t s)).2 < 2 ^ 31 := by
  constructor
  · rintro ⟨s', t', hrun, -, hexact⟩
    obtain ⟨hlevel, hlost⟩ := deathSkill_some hundredths share t s hrun
    obtain ⟨s'', t'', left, hrun', hlike, htries, -, hend⟩ := deathSkill_spec hundredths share t s hlevel hlost
    obtain ⟨rfl, rfl⟩ := Prod.mk.inj (Option.some.inj (hrun.symm.trans hrun'))
    have hle := total_upTo t s.level s.tries
    have hcut := maxInt32_le left
    rw [hlike.total_eq, Requirements.total, htries] at hexact
    unfold Ladder.total at hexact
    have hwhole : lossOf share t s ≤ (t.upTo s.level.toNat).total s.level s.tries := by
      -- otherwise the loss is all that there was, and more than the cache has kept of it
      by_contra hall
      rw [fall_all (Nat.lt_of_not_le hall)] at hend
      obtain ⟨hten, hnone⟩ := Prod.mk.inj hend
      have hsum : Ladder.sum (t.upTo s.level.toNat).req 10 = 0 :=
        Ladder.sum_eq_zero fun l hl => (t.upTo s.level.toNat).req_of_le hl
      rw [hten, hsum] at hexact
      have hcutOff : ¬ ∀ l, l ≤ s.level → t.Steady l := by
        intro hsteady
        have hlike' : t.Like (t.upTo s.level.toNat) := Requirements.like_upTo s.level.isLt hsteady
        rw [hlike'.total_eq] at hall
        exact hall hless
      push Not at hcutOff
      obtain ⟨l, hl, hnot⟩ := hcutOff
      have hbig := two_pow_le_total t hl hnot s.tries
      omega
    have hreturn := @fall_total (t.upTo s.level.toNat).req 10 s.level.toNat _ _ hwhole
    rw [← hend] at hreturn
    unfold Ladder.total at hreturn
    dsimp only at hreturn
    have hsame : (t.upTo s.level.toNat).total s.level s.tries = t.total s.level s.tries := by omega
    have hsteady : ∀ l, l ≤ s.level → t.Steady l := by
      intro l hl
      by_contra hnot
      exact Nat.ne_of_lt (total_upTo_lt t hl hnot s.tries) hsame
    have hlike' : t.Like (t.upTo s.level.toNat) := Requirements.like_upTo s.level.isLt hsteady
    rw [hlike'.req_eq, hlike'.total_eq] at hend
    refine ⟨hlevel, hlost, hsteady, ?_⟩
    rw [← hend]
    exact (maxInt32_eq_iff left).mp (by omega)
  · rintro ⟨hlevel, hlost, hsteady, hfits⟩
    obtain ⟨s', t', left, hrun, hlike, htries, -, hend⟩ := deathSkill_spec hundredths share t s hlevel hlost
    have hsame : t.Like (t.upTo s.level.toNat) := Requirements.like_upTo s.level.isLt hsteady
    rw [hsame.req_eq, hsame.total_eq] at hend
    have hreturn := @fall_total t.req 10 s.level.toNat _ _ hless
    rw [← hend] at hfits hreturn
    refine ⟨s', t', hrun, ?_, ?_⟩
    · rw [BitVec.le_def, show s'.level.toNat = _ from congrArg Prod.fst hend]
      exact le_fall (fun l hl => t.req_of_le hl) hground
    · rw [(hsame.trans hlike).total_eq, Requirements.total, htries, (maxInt32_eq_iff left).mpr hfits]
      exact hreturn

end

/-- Distance fighting, with the requirement of level 11 at each level. -/
def thirties : SkillTries where
  formula _ := 30
  cache _ := none

theorem deathSkill_exact_iff_tenth : 10 ≤ (12 : BitVec 16) ∧ thirties.total 12 7 < 2 ^ 63 ∧
    lossOf (fun _ => 40) thirties { tries := 7, level := 12 } ≤ thirties.total 12 7 ∧
    (Exact (fun _ _ => 0) (fun _ => 40) thirties { tries := 7, level := 12 } ↔
      (12 : BitVec 16).toNat + 1 < 2 ^ 16 ∧ lossOf (fun _ => 40) thirties { tries := 7, level := 12 } < 2 ^ 32 ∧
        (∀ l, l ≤ 12 → thirties.Steady l) ∧
        (fall thirties.req 10 (12 : BitVec 16).toNat (thirties.total 12 7)
          (lossOf (fun _ => 40) thirties { tries := 7, level := 12 })).2 < 2 ^ 31) :=
  ⟨by decide, by decide, by decide, deathSkill_exact_iff (fun _ _ => 0) (fun _ => 40) thirties
    { tries := 7, level := 12 } (by decide) (by decide) (by decide)⟩

/-- `2 ^ 31` tries at level 10 are gone after a death that takes nothing. -/
theorem manyTries_not_exact : lossOf (fun _ => 0) thirties { tries := 2 ^ 31, level := 10 } = 0 ∧
    thirties.total 10 (2 ^ 31) = 2 ^ 31 ∧
    ¬ Exact (fun _ _ => 0) (fun _ => 0) thirties { tries := 2 ^ 31, level := 10 } := by
  refine ⟨rfl, by decide, ?_⟩
  rintro ⟨s', t', hrun, -, hexact⟩
  obtain ⟨s'', t'', left, hrun', hlike, htries, -, hend⟩ := deathSkill_spec (fun _ _ => 0) (fun _ => 0) thirties
    { tries := 2 ^ 31, level := 10 } (by decide) (by decide)
  obtain ⟨rfl, rfl⟩ := Prod.mk.inj (Option.some.inj (hrun.symm.trans hrun'))
  have hfall : fall (thirties.upTo 10).req 10 10 ((thirties.upTo 10).total 10 (2 ^ 31)) 0 = (10, 2 ^ 31) := by
    decide
  obtain ⟨hten, hleft⟩ := Prod.mk.inj (hend.trans hfall)
  have hnone : (maxInt32 left).toNat = 0 := by
    rw [toNat_maxInt32, hleft]
    rfl
  have hsum : Ladder.sum t'.req 10 = 0 := Ladder.sum_eq_zero fun l hl => t'.req_of_le hl
  rw [Requirements.total, Ladder.total, hten, hsum, htries, hnone] at hexact
  revert hexact
  decide

end DeathLoss

end Moonlight
