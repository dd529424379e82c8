import Moonlight.Creatures.DeathLoss

/-!
# Training

`Player::addSkillAdvance`, `Player::addManaSpent` and `Player::addOfflineTrainingTries` (creatures/players/player.cpp)
have four loops that raise a level as long as the amount reaches the next one. `climb` is what they share, and
`climb_spec` says where it ends: below the next level, at the place on the ladder that the total says. So how the
amount is split makes no difference (`training_additive`).

The loops stop in different ways at the last level, and round differently: `addSkillAdvance` and
`addOfflineTrainingTries` keep the whole part of a percentage, `addManaSpent` keeps it as it is. `addManaSpent` alone
does nothing for players who do not gain mana.
-/

namespace Moonlight

open Ladder

namespace Training

open DeathLoss (Skill)

structure Player where
  vocation : Vocation
  skills : SkillId → Skill
  magLevel : BitVec 32
  manaSpent : BitVec 64
  /-- In hundredths of a percent, as all percentages. -/
  magLevelPercent : Nat
  /-- `hasFlag(PlayerFlag_NotGainMana)` -/
  notGainMana : Bool

/-- `skills_t` -/
inductive skills_t where
  | skill (i : SkillId)
  | SKILL_MAGLEVEL
  | SKILL_LEVEL
  deriving DecidableEq

/-! ### The loops -/

/-- Where a loop ends: the requirements it has last looked at, and what of the amount is left. -/
structure Climb (base w k : Nat) where
  table : Requirements base w k
  level : BitVec w
  tries : BitVec 64
  count : BitVec 64
  currReq : BitVec 64
  nextReq : BitVec 64

section

variable {base w k : Nat}

/-- The loop of `addSkillAdvance`, `addManaSpent` and both branches of `addOfflineTrainingTries`. -/
def climb (t : Requirements base w k) (level : BitVec w) (tries count currReq nextReq : BitVec 64)
    (_h : currReq < nextReq) : Climb base w k :=
  if nextReq ≤ tries + count then
    let asked := t.get (level + 1 + 1)
    if h' : nextReq < asked.1 then climb asked.2 (level + 1) 0 (count - (nextReq - tries)) nextReq asked.1 h'
    -- the last level
    else ⟨asked.2, level + 1, 0, 0, nextReq, asked.1⟩
  else ⟨t, level, tries, count, currReq, nextReq⟩
termination_by (if tries = 0 then 0 else 1, count.toNat)
decreasing_by
  rename_i hle
  rw [if_pos trivial]
  by_cases hzero : tries = 0
  · rw [if_pos hzero, hzero]
    rw [hzero] at hle
    refine Prod.Lex.right 0 ?_
    have hpos : 0 < nextReq.toNat := Nat.lt_of_le_of_lt (Nat.zero_le _) _h
    bv_omega
  · rw [if_neg hzero]
    exact Prod.Lex.left _ _ (Nat.zero_lt_one)

end

/-! ### The functions -/

section

variable (hundredths : BitVec 64 → BitVec 64 → Nat) (onGainSkillTries : skills_t → BitVec 64 → BitVec 64)

/-- A percentage that has been through an integer. -/
def wholePercent (percent : Nat) : Nat := percent / 100 * 100

def addSkillAdvance (p : Player) (skill : SkillId) (count : BitVec 64) : Player :=
  let s := p.skills skill
  let (currReqTries, v) := p.vocation.getReqSkillTries skill s.level
  let (nextReqTries, v) := v.getReqSkillTries skill (s.level + 1)
  if h : currReqTries < nextReqTries then
    let count := onGainSkillTries (.skill skill) count
    if count = 0 then { p with vocation := v }
    else
      let o := climb (v.skillTries skill) s.level s.tries count currReqTries nextReqTries h
      let tries := o.tries + o.count
      let percent := if o.nextReq > o.currReq then wholePercent (getPercentLevel hundredths tries o.nextReq) else 0
      { p with
        vocation := v.setSkillTries skill o.table
        skills := fun i => if i = skill then { tries, level := o.level, percent } else p.skills i }
  else { p with vocation := v }

def addManaSpent (p : Player) (amount : BitVec 64) : Player :=
  if p.notGainMana then p
  else
    let (currReqMana, v) := p.vocation.getReqMana p.magLevel
    let (nextReqMana, v) := v.getReqMana (p.magLevel + 1)
    if h : currReqMana < nextReqMana then
      let amount := onGainSkillTries .SKILL_MAGLEVEL amount
      if amount = 0 then { p with vocation := v }
      else
        let o := climb v.mana p.magLevel p.manaSpent amount currReqMana nextReqMana h
        let manaSpent := o.tries + o.count
        -- at the last level it returns from the loop, with the percentage as it was
        let magLevelPercent :=
          if o.nextReq > o.currReq then getPercentLevel hundredths manaSpent o.nextReq else p.magLevelPercent
        { p with vocation := { v with mana := o.table }, magLevel := o.level, manaSpent, magLevelPercent }
    else { p with vocation := v }

/-- The result says whether the client is told of a change. -/
def addOfflineTrainingTries (p : Player) (skill : skills_t) (tries : BitVec 64) : Player × Bool :=
  if tries = 0 then (p, false)
  else
    match skill with
    | .SKILL_LEVEL => (p, false)
    | .SKILL_MAGLEVEL =>
      let (currReqMana, v) := p.vocation.getReqMana p.magLevel
      let (nextReqMana, v) := v.getReqMana (p.magLevel + 1)
      if h : currReqMana < nextReqMana then
        let tries := onGainSkillTries .SKILL_MAGLEVEL tries
        let o := climb v.mana p.magLevel p.manaSpent tries currReqMana nextReqMana h
        let manaSpent := o.tries + o.count
        let magLevelPercent :=
          if o.nextReq > o.currReq then wholePercent (getPercentLevel hundredths manaSpent o.nextReq) else 0
        ({ p with vocation := { v with mana := o.table }, magLevel := o.level, manaSpent, magLevelPercent },
          nextReqMana ≤ p.manaSpent + tries || magLevelPercent != p.magLevelPercent)
      else ({ p with vocation := v }, false)
    | .skill i =>
      let s := p.skills i
      let (currReqTries, v) := p.vocation.getReqSkillTries i s.level
      let (nextReqTries, v) := v.getReqSkillTries i (s.level + 1)
      if h : currReqTries < nextReqTries then
        let tries := onGainSkillTries (.skill i) tries
        let o := climb (v.skillTries i) s.level s.tries tries currReqTries nextReqTries h
        let triesLeft := o.tries + o.count
        let percent := if o.nextReq > o.currReq then wholePercent (getPercentLevel hundredths triesLeft o.nextReq) else 0
        ({ p with
          vocation := v.setSkillTries i o.table
          skills := fun j => if j = i then { tries := triesLeft, level := o.level, percent } else p.skills j },
          nextReqTries ≤ s.tries + tries || percent != s.percent)
      else ({ p with vocation := v }, false)

end

/-! ### Where a climb ends -/

section

variable {base w k : Nat}

/-- Where one stands with `m` tries above a level: below the next level, with all of them, or at the last level, with
nothing. -/
structure Landing (t : Requirements base w k) (level : BitVec w) (m : Nat) (level' : BitVec w) (tries' : BitVec 64) :
    Prop where
  reaches : Reaches t.req level.toNat (Ladder.sum t.req level.toNat + m) level'.toNat
  below : (t.get level').1 < (t.get (level' + 1)).1 →
    t.total level' tries' = Ladder.sum t.req level.toNat + m ∧ tries' < (t.get (level' + 1)).1
  top : ¬ (t.get level').1 < (t.get (level' + 1)).1 → tries' = 0

/-- All levels that are looked at with `m` tries above a level are steady. -/
def Asks (t : Requirements base w k) (level : BitVec w) (m : Nat) : Prop :=
  ∀ l : BitVec w, Reaches t.req level.toNat (Ladder.sum t.req level.toNat + m) l.toNat → t.Steady l ∧ t.Steady (l + 1)

theorem Landing.of_like {t t' : Requirements base w k} (h : t.Like t') {level level' : BitVec w} {m : Nat}
    {tries' : BitVec 64} (hland : Landing t' level m level' tries') : Landing t level m level' tries' := by
  obtain ⟨hreaches, hbelow, htop⟩ := hland
  rw [h.req_eq] at hreaches
  rw [h.get_eq, h.get_eq, h.total_eq, h.req_eq] at hbelow
  rw [h.get_eq, h.get_eq] at htop
  exact ⟨hreaches, hbelow, htop⟩

theorem Asks.like {t t' : Requirements base w k} (h : t.Like t') {level : BitVec w} {m : Nat} (hasks : Asks t level m) :
    Asks t' level m := by
  intro l hl
  rw [h.req_eq] at hl
  exact ⟨h.steady _ (hasks l hl).1, h.steady _ (hasks l hl).2⟩

theorem sum_add_one {t : Requirements base w k} {level : BitVec w} {tries count : BitVec 64}
    (hpos : 0 < (t.get (level + 1)).1.toNat) (hle : (t.get (level + 1)).1 ≤ tries + count) :
    Ladder.sum t.req (level + 1).toNat + (0 + (count - ((t.get (level + 1)).1 - tries))).toNat =
      Ladder.sum t.req level.toNat + (tries + count).toNat := by
  have hrest : 0 + (count - ((t.get (level + 1)).1 - tries)) = tries + count - (t.get (level + 1)).1 := by
    bv_omega
  have hreq := t.req_toNat (level + 1)
  rw [t.toNat_add_one hpos] at hreq
  rw [hrest, BitVec.toNat_sub_of_le hle, t.toNat_add_one hpos, Ladder.sum_succ, hreq, Nat.add_assoc,
    Nat.add_sub_of_le hle]

/-- **What the loop does.** -/
theorem climb_spec (t : Requirements base w k) (level : BitVec w) (tries count currReq nextReq : BitVec 64)
    (h : currReq < nextReq) (hcurr : (t.get level).1 = currReq) (hnext : (t.get (level + 1)).1 = nextReq)
    (hasks : Asks t level (tries + count).toNat) {o : Climb base w k}
    (ho : climb t level tries count currReq nextReq h = o) :
    t.Like o.table ∧ (t.get o.level).1 = o.currReq ∧ (t.get (o.level + 1)).1 = o.nextReq ∧
      Landing t level (tries + count).toNat o.level (o.tries + o.count) := by
  induction t, level, tries, count, currReq, nextReq, h using climb.induct with
  | case1 t level tries count currReq nextReq h hle asked h' ih =>
    have hpos : 0 < (t.get (level + 1)).1.toNat := by
      rw [hnext]
      exact Nat.lt_of_le_of_lt (Nat.zero_le _) h
    have hnumber := t.toNat_add_one hpos
    have hup : t.req level.toNat < t.req (level.toNat + 1) := by
      rw [← t.get_lt_iff, hcurr, hnext]
      exact h
    rw [← hnext] at hle
    have hsum := sum_add_one hpos hle
    rw [hnext] at hsum
    -- the next level is reached, and what is reached from there
    have hreached : ∀ {l : Nat}, Reaches t.req (level + 1).toNat
        (Ladder.sum t.req (level + 1).toNat + (0 + (count - (nextReq - tries))).toNat) l →
          Reaches t.req level.toNat (Ladder.sum t.req level.toNat + (tries + count).toNat) l := by
      intro l hl
      rw [hsum, hnumber] at hl
      exact hl.of_succ hup
    have hsteady : t.Steady (level + 1 + 1) := (hasks (level + 1) (hreached (Reaches.refl (Nat.le_add_right _ _)))).2
    have hlike : t.Like asked.2 := Requirements.like_get hsteady
    have hrest : Asks t (level + 1) (0 + (count - (nextReq - tries))).toNat := fun l hl => hasks l (hreached hl)
    rw [climb, if_pos (hnext ▸ hle), dif_pos h'] at ho
    obtain ⟨hlike', hcurr', hnext', hland⟩ := ih ((hlike.get_eq _).trans hnext) (hlike.get_eq _) (hrest.like hlike) ho
    rw [hlike.get_eq] at hcurr' hnext'
    obtain ⟨hreaches, hbelow, htop⟩ := hland.of_like hlike
    rw [hsum] at hbelow
    exact ⟨hlike.trans hlike', hcurr', hnext', hreached hreaches, hbelow, htop⟩
  | case2 t level tries count currReq nextReq h hle asked h' =>
    have hpos : 0 < (t.get (level + 1)).1.toNat := by
      rw [hnext]
      exact Nat.lt_of_le_of_lt (Nat.zero_le _) h
    have hnumber := t.toNat_add_one hpos
    have hup : t.req level.toNat < t.req (level.toNat + 1) := by
      rw [← t.get_lt_iff, hcurr, hnext]
      exact h
    rw [← hnext] at hle
    have hsum := sum_add_one hpos hle
    have hreached :
        Reaches t.req level.toNat (Ladder.sum t.req level.toNat + (tries + count).toNat) (level + 1).toNat := by
      rw [← hsum, hnumber]
      exact (Reaches.refl (Nat.le_add_right _ _)).of_succ hup
    rw [climb, if_pos (hnext ▸ hle), dif_neg h'] at ho
    subst ho
    have hlast : ¬ (t.get (level + 1)).1 < (t.get (level + 1 + 1)).1 := by
      rw [hnext]
      exact h'
    exact ⟨Requirements.like_get (hasks _ hreached).2, hnext, rfl, hreached, fun hless => absurd hless hlast,
      fun _ => rfl⟩
  | case3 t level tries count currReq nextReq h hle =>
    rw [climb, if_neg hle] at ho
    subst ho
    refine ⟨Requirements.Like.refl t, hcurr, hnext, Reaches.refl (Nat.le_add_right _ _), fun _ => ⟨rfl, ?_⟩,
      fun hlast => ?_⟩
    · rw [hnext]
      exact BitVec.not_le.mp hle
    · rw [hcurr, hnext] at hlast
      exact absurd h hlast

/-- Levels that get longer, as far as one comes with `m` tries above a level. -/
def Increasing (t : Requirements base w k) (level : BitVec w) (m : Nat) : Prop :=
  ∀ l : BitVec w, Reaches t.req level.toNat (Ladder.sum t.req level.toNat + m) l.toNat → (t.get l).1 < (t.get (l + 1)).1

variable {t : Requirements base w k} {level level' level'' : BitVec w} {tries' tries'' : BitVec 64} {m n : Nat}

theorem Increasing.self (h : Increasing t level m) : (t.get level).1 < (t.get (level + 1)).1 :=
  h level (Reaches.refl (Nat.le_add_right _ _))

theorem Landing.refl {tries : BitVec 64} (hless : (t.get level).1 < (t.get (level + 1)).1)
    (hlt : tries < (t.get (level + 1)).1) : Landing t level tries.toNat level tries where
  reaches := Reaches.refl (Nat.le_add_right _ _)
  below _ := ⟨rfl, hlt⟩
  top hlast := absurd hless hlast

theorem Landing.not_lt (h : Landing t level m level' tries') (h' : Landing t level m level'' tries'') :
    ¬ level'.toNat < level''.toNat := by
  intro hlt
  have hup := t.get_lt_iff.mpr (h'.reaches.increasing level'.toNat h.reaches.le hlt)
  have hnumber := t.toNat_add_one (Nat.lt_of_le_of_lt (Nat.zero_le _) hup)
  obtain ⟨htotal, hbelow⟩ := h.below hup
  have hsum : Ladder.sum t.req (level'.toNat + 1) ≤ Ladder.sum t.req level''.toNat := Ladder.sum_mono hlt
  have hle := Nat.le_trans hsum h'.reaches.sum_le
  have hreq := t.req_toNat (level' + 1)
  rw [hnumber] at hreq
  rw [Ladder.sum_succ, ← htotal, Requirements.total, Ladder.total, hreq] at hle
  exact Nat.not_lt.mpr (Nat.le_of_add_le_add_left hle) hbelow

theorem Landing.tries_le (h : Landing t level m level' tries') : tries'.toNat ≤ m := by
  by_cases hless : (t.get level').1 < (t.get (level' + 1)).1
  · have htotal := (h.below hless).1
    have hle : Ladder.sum t.req level.toNat ≤ Ladder.sum t.req level'.toNat := Ladder.sum_mono h.reaches.le
    rw [Requirements.total, Ladder.total] at htotal
    omega
  · rw [h.top hless]
    exact Nat.zero_le m

theorem Landing.unique (h : Landing t level m level' tries') (h' : Landing t level m level'' tries'') :
    level' = level'' ∧ tries' = tries'' := by
  have hlevel : level' = level'' :=
    BitVec.eq_of_toNat_eq (Nat.le_antisymm (Nat.le_of_not_lt (h'.not_lt h)) (Nat.le_of_not_lt (h.not_lt h')))
  subst hlevel
  refine ⟨rfl, ?_⟩
  by_cases hless : (t.get level').1 < (t.get (level' + 1)).1
  · exact BitVec.eq_of_toNat_eq (Nat.add_left_cancel ((h.below hless).1.trans (h'.below hless).1.symm))
  · exact (h.top hless).trans (h'.top hless).symm

theorem Landing.reaches_trans (h : Landing t level m level' tries') (hless : (t.get level').1 < (t.get (level' + 1)).1)
    {l : Nat} (hl : Reaches t.req level'.toNat (Ladder.sum t.req level'.toNat + (tries'.toNat + n)) l) :
    Reaches t.req level.toNat (Ladder.sum t.req level.toNat + (m + n)) l := by
  have htotal := (h.below hless).1
  have hsame : Ladder.sum t.req level'.toNat + (tries'.toNat + n) = Ladder.sum t.req level.toNat + (m + n) := by
    rw [Requirements.total, Ladder.total] at htotal
    omega
  rw [hsame] at hl
  exact h.reaches.trans hl

/-- **To land twice is to land once with both.** -/
theorem Landing.trans (h : Landing t level m level' tries') (hless : (t.get level').1 < (t.get (level' + 1)).1)
    (h' : Landing t level' (tries'.toNat + n) level'' tries'') : Landing t level (m + n) level'' tries'' where
  reaches := h.reaches_trans hless h'.reaches
  below hless' := by
    obtain ⟨htotal, hbelow⟩ := h'.below hless'
    have hfirst := (h.below hless).1
    refine ⟨?_, hbelow⟩
    rw [htotal]
    rw [Requirements.total, Ladder.total] at hfirst
    omega
  top := h'.top

theorem Landing.stay (h : Landing t level m level' tries') (hlast : ¬ (t.get level').1 < (t.get (level' + 1)).1)
    (n : Nat) :
    Landing t level (m + n) level' tries' where
  reaches := h.reaches.mono (Nat.add_le_add_left (Nat.le_add_right m n) _)
  below hless := absurd hless hlast
  top := h.top

theorem get_next (hasks : Asks t level m) :
    ((t.get level).2.get (level + 1)).1 = (t.get (level + 1)).1 ∧ t.Like ((t.get level).2.get (level + 1)).2 := by
  have hsteady := hasks level (Reaches.refl (Nat.le_add_right _ _))
  have hlike : t.Like (t.get level).2 := Requirements.like_get hsteady.1
  exact ⟨hlike.get_eq _, hlike.trans (Requirements.like_get (hlike.steady _ hsteady.2))⟩

theorem climb_get (t : Requirements base w k) (level : BitVec w) (tries count : BitVec 64)
    (hasks : Asks t level (tries + count).toNat) (h : (t.get level).1 < ((t.get level).2.get (level + 1)).1)
    {o : Climb base w k}
    (ho : climb ((t.get level).2.get (level + 1)).2 level tries count (t.get level).1
      ((t.get level).2.get (level + 1)).1 h = o) :
    t.Like o.table ∧ (t.get o.level).1 = o.currReq ∧ (t.get (o.level + 1)).1 = o.nextReq ∧
      Landing t level (tries + count).toNat o.level (o.tries + o.count) := by
  obtain ⟨hnext, hlike⟩ := get_next hasks
  obtain ⟨hlike', hcurr', hnext', hland⟩ := climb_spec _ level tries count _ _ h (hlike.get_eq _)
    ((hlike.get_eq _).trans hnext.symm) (hasks.like hlike) ho
  rw [hlike.get_eq] at hcurr' hnext'
  exact ⟨hlike.trans hlike', hcurr', hnext', hland.of_like hlike⟩

end

/-! ### What the functions do -/

/-- A level, the tries above it and the percentage shown. -/
structure Standing (w : Nat) where
  level : BitVec w
  tries : BitVec 64
  percent : Nat

/-- What the player has of a skill. -/
def Player.skill (p : Player) (i : SkillId) : Standing 16 :=
  ⟨(p.skills i).level, (p.skills i).tries, (p.skills i).percent⟩

/-- What the player has of magic. -/
def Player.magic (p : Player) : Standing 32 := ⟨p.magLevel, p.manaSpent, p.magLevelPercent⟩

section

variable (hundredths : BitVec 64 → BitVec 64 → Nat) {base w k : Nat}

/-- One has come to `s'` with `m` tries above a level. The percentage shown is the one that `round` makes of the exact
one, and `atTop` at the last level. -/
structure Landed (t : Requirements base w k) (round : Nat → Nat) (atTop : Nat) (level : BitVec w) (m : Nat)
    (s' : Standing w) : Prop where
  landing : Landing t level m s'.level s'.tries
  percent : s'.percent =
    if (t.get s'.level).1 < (t.get (s'.level + 1)).1 then
      round (getPercentLevel hundredths s'.tries (t.get (s'.level + 1)).1)
    else atTop

/-- Below the last level one is trained by the amount; else nothing happens. -/
def Trained (t : Requirements base w k) (round : Nat → Nat) (atTop : Nat) (s : Standing w) (amount : BitVec 64)
    (s' : Standing w) : Prop :=
  if (t.get s.level).1 < (t.get (s.level + 1)).1 ∧ amount ≠ 0 then
    Landed hundredths t round atTop s.level (s.tries + amount).toNat s'
  else s' = s

variable {hundredths} {t t' : Requirements base w k} {round : Nat → Nat} {atTop atTop' : Nat} {level : BitVec w}
  {m : Nat}
  {s s' s'' sBoth : Standing w} {a b amount : BitVec 64}

theorem Trained.landed (h : Trained hundredths t round atTop s amount s')
    (hless : (t.get s.level).1 < (t.get (s.level + 1)).1) (hamount : amount ≠ 0) :
    Landed hundredths t round atTop s.level (s.tries + amount).toNat s' := by
  rwa [Trained, if_pos ⟨hless, hamount⟩] at h

theorem Trained.same (h : Trained hundredths t round atTop s amount s')
    (hnot : ¬ ((t.get s.level).1 < (t.get (s.level + 1)).1 ∧ amount ≠ 0)) : s' = s := by
  rwa [Trained, if_neg hnot] at h

theorem Trained.of_landed (hless : (t.get s.level).1 < (t.get (s.level + 1)).1) (hamount : amount ≠ 0)
    (h : Landed hundredths t round atTop s.level (s.tries + amount).toNat s') :
    Trained hundredths t round atTop s amount s' := by
  rwa [Trained, if_pos ⟨hless, hamount⟩]

theorem Trained.of_same (hnot : ¬ ((t.get s.level).1 < (t.get (s.level + 1)).1 ∧ amount ≠ 0)) :
    Trained hundredths t round atTop s amount s := by
  rw [Trained, if_neg hnot]

theorem Trained.of_like (hlike : t.Like t') (h : Trained hundredths t' round atTop s amount s') :
    Trained hundredths t round atTop s amount s' := by
  rw [Trained, hlike.get_eq, hlike.get_eq] at h
  rw [Trained]
  split at h
  · rename_i hless
    rw [if_pos hless]
    have hpercent := h.percent
    rw [hlike.get_eq, hlike.get_eq] at hpercent
    exact ⟨h.landing.of_like hlike, hpercent⟩
  · rename_i hnot
    rwa [if_neg hnot]

theorem Landed.unique (h : Landed hundredths t round atTop level m s')
    (h' : Landed hundredths t round atTop' level m s'') :
    s'.level = s''.level ∧ s'.tries = s''.tries ∧
      (atTop = atTop' ∨ (t.get s'.level).1 < (t.get (s'.level + 1)).1 → s'.percent = s''.percent) := by
  obtain ⟨hlevel, htries⟩ := h.landing.unique h'.landing
  refine ⟨hlevel, htries, fun hor => ?_⟩
  rw [h.percent, h'.percent, ← hlevel, ← htries]
  by_cases hless : (t.get s'.level).1 < (t.get (s'.level + 1)).1
  · rw [if_pos hless, if_pos hless]
  · rw [if_neg hless, if_neg hless]
    exact hor.resolve_right hless

theorem add_add_toNat {tries a b : BitVec 64} (h : tries.toNat + a.toNat + b.toNat < 2 ^ 64) :
    (tries + (a + b)).toNat = (tries + a).toNat + b.toNat := by
  bv_omega

theorem add_toNat {tries tries' a b : BitVec 64} (hle : tries'.toNat ≤ (tries + a).toNat)
    (h : tries.toNat + a.toNat + b.toNat < 2 ^ 64) : (tries' + b).toNat = tries'.toNat + b.toNat := by
  bv_omega

/-- **To train twice is to train once with both.** -/
theorem Trained.split (h : Trained hundredths t round atTop s a s') (hlike : t.Like t')
    (h' : Trained hundredths t' round atTop' s' b s'') (hboth : Trained hundredths t round atTop s (a + b) sBoth)
    (hoverflow : s.tries.toNat + a.toNat + b.toNat < 2 ^ 64) :
    s''.level = sBoth.level ∧ s''.tries = sBoth.tries ∧
      (atTop' = atTop ∨ (t.get s''.level).1 < (t.get (s''.level + 1)).1 → s''.percent = sBoth.percent) := by
  replace h' := h'.of_like hlike
  by_cases hless : (t.get s.level).1 < (t.get (s.level + 1)).1
  swap
  · -- nobody gets beyond the last level
    have hs' : s' = s := h.same fun hand => hless hand.1
    subst hs'
    have hs'' : s'' = s' := h'.same fun hand => hless hand.1
    have hsBoth : sBoth = s' := hboth.same fun hand => hless hand.1
    rw [hs'', hsBoth]
    exact ⟨rfl, rfl, fun _ => rfl⟩
  by_cases ha : a = 0
  · have hs' : s' = s := h.same fun hand => hand.2 ha
    subst hs' ha
    rw [show 0 + b = b from BitVec.zero_add b] at hboth
    by_cases hb : b = 0
    · rw [h'.same fun hand => hand.2 hb, hboth.same fun hand => hand.2 hb]
      exact ⟨rfl, rfl, fun _ => rfl⟩
    · exact (h'.landed hless hb).unique (hboth.landed hless hb)
  -- the first amount has landed, and the second goes on from there
  have hland := h.landed hless ha
  by_cases hb : b = 0
  · have hs'' : s'' = s' := h'.same fun hand => hand.2 hb
    subst hs'' hb
    rw [show a + 0 = a from BitVec.add_zero a] at hboth
    obtain ⟨hlevel, htries, hpercent⟩ := hland.unique (hboth.landed hless ha)
    exact ⟨hlevel, htries, fun _ => hpercent (.inl rfl)⟩
  have hab : a + b ≠ 0 := by bv_omega
  have hland' := hboth.landed hless hab
  rw [add_add_toNat hoverflow] at hland'
  by_cases hless' : (t.get s'.level).1 < (t.get (s'.level + 1)).1
  · have hnext := h'.landed hless' hb
    have hadd := add_toNat hland.landing.tries_le hoverflow
    rw [hadd] at hnext
    exact Landed.unique ⟨hland.landing.trans hless' hnext.landing, hnext.percent⟩ hland'
  · -- the first amount comes to the last level, and what is beyond that is dropped in both
    have hs'' : s'' = s' := h'.same fun hand => hless' hand.1
    subst hs''
    have hsame : Landed hundredths t round atTop s.level ((s.tries + a).toNat + b.toNat) s'' :=
      ⟨hland.landing.stay hless' b.toNat, hland.percent⟩
    obtain ⟨hlevel, htries, hpercent⟩ := hsame.unique hland'
    exact ⟨hlevel, htries, fun _ => hpercent (.inl rfl)⟩

theorem Trained.below (h : Trained hundredths t round atTop s amount s')
    (hup : Increasing t s.level (s.tries + amount).toNat) : (t.get s'.level).1 < (t.get (s'.level + 1)).1 := by
  by_cases hamount : amount = 0
  · rw [h.same fun hand => hand.2 hamount]
    exact hup.self
  · exact hup _ (h.landed hup.self hamount).landing.reaches

theorem Trained.total (h : Trained hundredths t round atTop s amount s')
    (hup : Increasing t s.level (s.tries + amount).toNat) (hoverflow : s.tries.toNat + amount.toNat < 2 ^ 64) :
    t.total s'.level s'.tries = t.total s.level s.tries + amount.toNat := by
  by_cases hamount : amount = 0
  · rw [h.same fun hand => hand.2 hamount, hamount]
    rfl
  · have hland := h.landed hup.self hamount
    have hsum : (s.tries + amount).toNat = s.tries.toNat + amount.toNat := by bv_omega
    calc t.total s'.level s'.tries
        = Ladder.sum t.req s.level.toNat + (s.tries + amount).toNat :=
          (hland.landing.below (h.below hup)).1
      _ = Ladder.sum t.req s.level.toNat + s.tries.toNat + amount.toNat := by rw [hsum, Nat.add_assoc]
      _ = t.total s.level s.tries + amount.toNat := rfl

end

section

variable (hundredths : BitVec 64 → BitVec 64 → Nat)

/-- Only the table of the skill and the skill itself are touched; the table answers as before. -/
structure OnlySkill (p p' : Player) (i : SkillId) : Prop where
  like : (p.vocation.skillTries i).Like (p'.vocation.skillTries i)
  tables : ∀ j, j ≠ i → p'.vocation.skillTries j = p.vocation.skillTries j
  skills : ∀ j, j ≠ i → p'.skills j = p.skills j

variable (onGainSkillTries : skills_t → BitVec 64 → BitVec 64) (p : Player) (i : SkillId)

theorem onlySkill_asked {m : Nat} (hasks : Asks (p.vocation.skillTries i) (p.skills i).level m) :
    OnlySkill p { p with vocation :=
      ((p.vocation.getReqSkillTries i (p.skills i).level).2.getReqSkillTries i ((p.skills i).level + 1)).2 } i where
  like := by
    simp only [Vocation.getReqSkillTries, Vocation.setSkillTries_self]
    exact (get_next hasks).2
  tables j hj := by
    simp only [Vocation.getReqSkillTries, Vocation.setSkillTries_of_ne _ hj]
  skills _ _ := rfl

variable {p i} in
theorem landed_climb {count : BitVec 64}
    (hasks : Asks (p.vocation.skillTries i) (p.skills i).level ((p.skills i).tries + count).toNat)
    (hbelow : ((p.vocation.skillTries i).get (p.skills i).level).1 <
      (((p.vocation.skillTries i).get (p.skills i).level).2.get ((p.skills i).level + 1)).1)
    {o : Climb 10 16 32}
    (ho : climb (((p.vocation.skillTries i).get (p.skills i).level).2.get ((p.skills i).level + 1)).2 (p.skills i).level
      (p.skills i).tries count ((p.vocation.skillTries i).get (p.skills i).level).1
      (((p.vocation.skillTries i).get (p.skills i).level).2.get ((p.skills i).level + 1)).1 hbelow = o)
    {p' : Player} (hself : p'.vocation.skillTries i = o.table)
    (hother : ∀ j, j ≠ i → p'.vocation.skillTries j = p.vocation.skillTries j)
    (hskills : p'.skills = fun j =>
      if j = i then
        { tries := o.tries + o.count, level := o.level,
          percent := if o.nextReq > o.currReq then
            wholePercent (getPercentLevel hundredths (o.tries + o.count) o.nextReq) else 0 }
      else p.skills j) :
    OnlySkill p p' i ∧
      Landed hundredths (p.vocation.skillTries i) wholePercent 0 (p.skills i).level ((p.skills i).tries + count).toNat
        (p'.skill i) := by
  obtain ⟨hlike, hcurr', hnext', hland⟩ := climb_get _ _ _ _ hasks hbelow ho
  refine ⟨⟨hself ▸ hlike, hother, fun j hj => ?_⟩, ?_⟩
  · rw [hskills]
    exact if_neg hj
  · rw [Player.skill, hskills]
    simp only [if_true]
    refine ⟨hland, ?_⟩
    rw [hcurr', hnext']

theorem addSkillAdvance_spec (count : BitVec 64)
    (hasks : Asks (p.vocation.skillTries i) (p.skills i).level
      ((p.skills i).tries + onGainSkillTries (.skill i) count).toNat) :
    OnlySkill p (addSkillAdvance hundredths onGainSkillTries p i count) i ∧
      Trained hundredths (p.vocation.skillTries i) wholePercent 0 (p.skill i) (onGainSkillTries (.skill i) count)
        ((addSkillAdvance hundredths onGainSkillTries p i count).skill i) := by
  have hasked := onlySkill_asked p i hasks
  have hnext := (get_next hasks).1
  simp only [Vocation.getReqSkillTries, Vocation.setSkillTries_self] at hasked
  simp only [addSkillAdvance, Vocation.getReqSkillTries, Vocation.setSkillTries_self]
  split
  · rename_i hbelow
    by_cases hcount : onGainSkillTries (.skill i) count = 0
    · rw [if_pos hcount]
      exact ⟨hasked, Trained.of_same fun hand => hand.2 hcount⟩
    · rw [if_neg hcount]
      refine And.imp_right (Trained.of_landed (hnext ▸ hbelow) hcount) (landed_climb hundredths hasks hbelow rfl
        (Vocation.setSkillTries_self _ _ _) (fun j hj => ?_) rfl)
      simp only [Vocation.setSkillTries_of_ne _ hj]
  · rename_i hbelow
    exact ⟨hasked, Trained.of_same fun hand => hbelow (hnext ▸ hand.1)⟩

theorem addOfflineTrainingTries_spec {tries : BitVec 64} (htries : tries ≠ 0)
    (hasks : Asks (p.vocation.skillTries i) (p.skills i).level
      ((p.skills i).tries + onGainSkillTries (.skill i) tries).toNat) :
    OnlySkill p (addOfflineTrainingTries hundredths onGainSkillTries p (.skill i) tries).1 i ∧
      (((p.vocation.skillTries i).get (p.skills i).level).1 <
          ((p.vocation.skillTries i).get ((p.skills i).level + 1)).1 →
        Landed hundredths (p.vocation.skillTries i) wholePercent 0 (p.skills i).level
          ((p.skills i).tries + onGainSkillTries (.skill i) tries).toNat
          ((addOfflineTrainingTries hundredths onGainSkillTries p (.skill i) tries).1.skill i)) ∧
      (¬ ((p.vocation.skillTries i).get (p.skills i).level).1 <
          ((p.vocation.skillTries i).get ((p.skills i).level + 1)).1 →
        (addOfflineTrainingTries hundredths onGainSkillTries p (.skill i) tries).1.skill i = p.skill i) := by
  have hasked := onlySkill_asked p i hasks
  have hnext := (get_next hasks).1
  simp only [Vocation.getReqSkillTries, Vocation.setSkillTries_self] at hasked
  simp only [addOfflineTrainingTries, if_neg htries, Vocation.getReqSkillTries, Vocation.setSkillTries_self]
  split
  · rename_i hbelow
    refine And.imp_right (fun hland => ⟨fun _ => hland, fun hnot => absurd (hnext ▸ hbelow) hnot⟩)
      (landed_climb hundredths hasks hbelow rfl (Vocation.setSkillTries_self _ _ _) (fun j hj => ?_) rfl)
    simp only [Vocation.setSkillTries_of_ne _ hj]
  · rename_i hbelow
    exact ⟨hasked, fun hless => absurd (hnext ▸ hless) hbelow, fun _ => rfl⟩

theorem addOfflineTrainingTries_skill {tries : BitVec 64} (htries : tries ≠ 0)
    (hhook : onGainSkillTries (.skill i) tries ≠ 0) :
    (addOfflineTrainingTries hundredths onGainSkillTries p (.skill i) tries).1 =
      addSkillAdvance hundredths onGainSkillTries p i tries := by
  simp only [addOfflineTrainingTries, if_neg htries, addSkillAdvance, if_neg hhook]
  split
  · rfl
  · rfl

/-! ### Mana -/

theorem asks_mana (t : ManaTable) (level : BitVec 32) (m : Nat) : Asks t level m := fun l _ =>
  ⟨t.steady_of_wide (Nat.le_refl 64) l, t.steady_of_wide (Nat.le_refl 64) (l + 1)⟩

/-- What `addManaSpent` and the offline training of the magic level make of the player. -/
structure TrainedMagic (round : Nat → Nat) (atTop : Nat) (amount : BitVec 64) (p' : Player) : Prop where
  like : p.vocation.mana.Like p'.vocation.mana
  notGainMana : p'.notGainMana = p.notGainMana
  trained : Trained hundredths p.vocation.mana round atTop p.magic amount p'.magic

variable {p} in
theorem get_next_mana : ((p.vocation.mana.get p.magLevel).2.get (p.magLevel + 1)).1 =
    (p.vocation.mana.get (p.magLevel + 1)).1 :=
  (get_next (asks_mana p.vocation.mana p.magLevel 0)).1

variable {p} in
theorem trainedMagic_climb {round : Nat → Nat} {atTop : Nat} {amount : BitVec 64} (hamount : amount ≠ 0)
    (hbelow : (p.vocation.mana.get p.magLevel).1 < ((p.vocation.mana.get p.magLevel).2.get (p.magLevel + 1)).1)
    {o : Climb 0 32 64}
    (ho : climb ((p.vocation.mana.get p.magLevel).2.get (p.magLevel + 1)).2 p.magLevel p.manaSpent amount
      (p.vocation.mana.get p.magLevel).1 ((p.vocation.mana.get p.magLevel).2.get (p.magLevel + 1)).1 hbelow = o)
    {p' : Player} (htable : p'.vocation.mana = o.table) (hflag : p'.notGainMana = p.notGainMana)
    (hmagic : p'.magic = ⟨o.level, o.tries + o.count,
      if o.nextReq > o.currReq then round (getPercentLevel hundredths (o.tries + o.count) o.nextReq) else atTop⟩) :
    TrainedMagic hundredths p round atTop amount p' := by
  obtain ⟨hlike, hcurr, hnext, hland⟩ := climb_get _ _ _ _ (asks_mana _ _ _) hbelow ho
  refine ⟨htable ▸ hlike, hflag, Trained.of_landed (get_next_mana ▸ hbelow) hamount ?_⟩
  rw [hmagic]
  refine ⟨hland, ?_⟩
  rw [hcurr, hnext]

theorem addManaSpent_spec (hgains : p.notGainMana = false) (amount : BitVec 64) :
    TrainedMagic hundredths p id p.magLevelPercent (onGainSkillTries .SKILL_MAGLEVEL amount)
      (addManaSpent hundredths onGainSkillTries p amount) := by
  have hlike := (get_next (asks_mana p.vocation.mana p.magLevel 0)).2
  have hflag : ¬ p.notGainMana = true := by
    rw [hgains]
    exact nofun
  generalize hp : addManaSpent hundredths onGainSkillTries p amount = p'
  simp only [addManaSpent, if_neg hflag] at hp
  split at hp
  · rename_i hbelow
    split at hp
    · rename_i hamount
      subst hp
      exact ⟨hlike, rfl, Trained.of_same fun hand => hand.2 hamount⟩
    · rename_i hamount
      subst hp
      exact trainedMagic_climb hundredths hamount hbelow rfl rfl rfl rfl
  · rename_i hbelow
    subst hp
    exact ⟨hlike, rfl, Trained.of_same fun hand => hbelow (get_next_mana.symm ▸ hand.1)⟩

theorem addOfflineTrainingTries_magic {tries : BitVec 64} (htries : tries ≠ 0)
    (hhook : onGainSkillTries .SKILL_MAGLEVEL tries ≠ 0) :
    TrainedMagic hundredths p wholePercent 0 (onGainSkillTries .SKILL_MAGLEVEL tries)
      (addOfflineTrainingTries hundredths onGainSkillTries p .SKILL_MAGLEVEL tries).1 := by
  have hlike := (get_next (asks_mana p.vocation.mana p.magLevel 0)).2
  generalize hp : addOfflineTrainingTries hundredths onGainSkillTries p .SKILL_MAGLEVEL tries = result
  simp only [addOfflineTrainingTries, if_neg htries] at hp
  split at hp
  · rename_i hbelow
    subst hp
    exact trainedMagic_climb hundredths hhook hbelow rfl rfl rfl rfl
  · rename_i hbelow
    subst hp
    exact ⟨hlike, rfl, Trained.of_same fun hand => hbelow (get_next_mana.symm ▸ hand.1)⟩

/-! ### Training twice -/

/-- The hook that leaves the amount as it is. -/
def unchanged : skills_t → BitVec 64 → BitVec 64 := fun _ n => n

/-- A skill trained with `a` and then with `b`. -/
structure SkillAdditive (a b : BitVec 64) : Prop where
  split : (addSkillAdvance hundredths unchanged (addSkillAdvance hundredths unchanged p i a) i b).skill i =
    (addSkillAdvance hundredths unchanged p i (a + b)).skill i
  offline : (addOfflineTrainingTries hundredths unchanged p (.skill i) a).1.skill i =
    (addSkillAdvance hundredths unchanged p i a).skill i
  total : Increasing (p.vocation.skillTries i) (p.skills i).level ((p.skills i).tries + a).toNat →
    let p' := addSkillAdvance hundredths unchanged p i a
    (p'.vocation.skillTries i).total (p'.skills i).level (p'.skills i).tries =
      (p.vocation.skillTries i).total (p.skills i).level (p.skills i).tries + a.toNat

/-- The magic level trained with `a` and then with `b`. -/
structure MagicAdditive (a b : BitVec 64) : Prop where
  split_level : (addManaSpent hundredths unchanged (addManaSpent hundredths unchanged p a) b).magLevel =
    (addManaSpent hundredths unchanged p (a + b)).magLevel
  split_manaSpent : (addManaSpent hundredths unchanged (addManaSpent hundredths unchanged p a) b).manaSpent =
    (addManaSpent hundredths unchanged p (a + b)).manaSpent
  split_percent : Increasing p.vocation.mana p.magLevel (p.manaSpent + (a + b)).toNat →
    (addManaSpent hundredths unchanged (addManaSpent hundredths unchanged p a) b).magLevelPercent =
      (addManaSpent hundredths unchanged p (a + b)).magLevelPercent
  offline_level : (addOfflineTrainingTries hundredths unchanged p .SKILL_MAGLEVEL a).1.magLevel =
    (addManaSpent hundredths unchanged p a).magLevel
  offline_manaSpent : (addOfflineTrainingTries hundredths unchanged p .SKILL_MAGLEVEL a).1.manaSpent =
    (addManaSpent hundredths unchanged p a).manaSpent
  total : Increasing p.vocation.mana p.magLevel (p.manaSpent + a).toNat →
    let p' := addManaSpent hundredths unchanged p a
    p'.vocation.mana.total p'.magLevel p'.manaSpent = p.vocation.mana.total p.magLevel p.manaSpent + a.toNat

variable {p i}

theorem Asks.mono {base w k : Nat} {t : Requirements base w k} {level : BitVec w} {m n : Nat} (h : Asks t level n)
    (hle : m ≤ n) : Asks t level m :=
  fun l hl => h l (hl.mono (Nat.add_le_add_left hle _))

variable {hundredths} in
theorem Trained.asks {base w k : Nat} {t t' : Requirements base w k} {round : Nat → Nat} {atTop : Nat}
    {s s' : Standing w} {a b : BitVec 64} (h : Trained hundredths t round atTop s a s') (hlike : t.Like t')
    (hoverflow : s.tries.toNat + a.toNat + b.toNat < 2 ^ 64) (hasks : Asks t s.level (s.tries + (a + b)).toNat) :
    Asks t' s'.level (s'.tries + b).toNat := by
  refine Asks.like hlike fun l hl => hasks l ?_
  by_cases hless : (t.get s.level).1 < (t.get (s.level + 1)).1
  swap
  · rw [h.same fun hand => hless hand.1] at hl
    rw [hl.eq_of_last (t.get_lt_iff.not.mp hless)]
    exact Reaches.refl (Nat.le_add_right _ _)
  by_cases ha : a = 0
  · rw [h.same fun hand => hand.2 ha] at hl
    rwa [ha, show 0 + b = b from BitVec.zero_add b]
  have hland := (h.landed hless ha).landing
  rw [add_add_toNat hoverflow]
  by_cases hless' : (t.get s'.level).1 < (t.get (s'.level + 1)).1
  · rw [add_toNat hland.tries_le hoverflow] at hl
    exact hland.reaches_trans hless' hl
  · rw [hl.eq_of_last (t.get_lt_iff.not.mp hless')]
    exact (hland.stay hless' b.toNat).reaches

theorem Player.skill_eq {p p' : Player} {i : SkillId} (hlevel : (p.skills i).level = (p'.skills i).level)
    (htries : (p.skills i).tries = (p'.skills i).tries) (hpercent : (p.skills i).percent = (p'.skills i).percent) :
    p.skill i = p'.skill i := by
  rw [skill, skill, hlevel, htries, hpercent]

theorem skill_additive {a b : BitVec 64}
    (hoverflow : (p.skills i).tries.toNat + a.toNat + b.toNat < 2 ^ 64)
    (hasks : Asks (p.vocation.skillTries i) (p.skills i).level ((p.skills i).tries + (a + b)).toNat) :
    SkillAdditive hundredths p i a b := by
  have hasks' : Asks (p.vocation.skillTries i) (p.skills i).level ((p.skills i).tries + a).toNat := by
    rw [add_add_toNat hoverflow] at hasks
    exact hasks.mono (Nat.le_add_right _ _)
  have hnone : a = 0 → (addOfflineTrainingTries hundredths unchanged p (.skill i) a).1 = p := by
    intro hzero
    rw [addOfflineTrainingTries, if_pos hzero]
  have hoffline : a ≠ 0 → (addOfflineTrainingTries hundredths unchanged p (.skill i) a).1 =
      addSkillAdvance hundredths unchanged p i a := fun hne => addOfflineTrainingTries_skill hundredths unchanged p i hne hne
  obtain ⟨honly, ha⟩ := addSkillAdvance_spec hundredths unchanged p i a hasks'
  obtain ⟨-, hboth⟩ := addSkillAdvance_spec hundredths unchanged p i (a + b) hasks
  generalize hp' : addSkillAdvance hundredths unchanged p i a = p' at honly ha hoffline
  obtain ⟨-, hb⟩ := addSkillAdvance_spec hundredths unchanged p' i b (ha.asks honly.like hoverflow hasks)
  obtain ⟨hlevel, htries, hpercent⟩ := ha.split honly.like hb hboth hoverflow
  constructor
  · rw [hp']
    exact Player.skill_eq hlevel htries (hpercent (.inl rfl))
  · rw [hp']
    by_cases hzero : a = 0
    · rw [hnone hzero, ha.same fun hand => hand.2 hzero]
    · rw [hoffline hzero]
  · intro hup
    rw [hp']
    show (p'.vocation.skillTries i).total (p'.skills i).level (p'.skills i).tries = _
    rw [honly.like.total_eq]
    exact ha.total hup (Nat.lt_of_le_of_lt (Nat.le_add_right _ _) hoverflow)

theorem magic_additive {a b : BitVec 64} (hgains : p.notGainMana = false)
    (hoverflow : p.manaSpent.toNat + a.toNat + b.toNat < 2 ^ 64) : MagicAdditive hundredths p a b := by
  have ha := addManaSpent_spec hundredths unchanged p hgains a
  have hb := addManaSpent_spec hundredths unchanged _ (ha.notGainMana.trans hgains) b
  have hboth := addManaSpent_spec hundredths unchanged p hgains (a + b)
  obtain ⟨hlevel, hspent, hpercent⟩ := ha.trained.split ha.like hb.trained hboth.trained hoverflow
  have hoffline : (addOfflineTrainingTries hundredths unchanged p .SKILL_MAGLEVEL a).1.magLevel =
        (addManaSpent hundredths unchanged p a).magLevel ∧
      (addOfflineTrainingTries hundredths unchanged p .SKILL_MAGLEVEL a).1.manaSpent =
        (addManaSpent hundredths unchanged p a).manaSpent := by
    by_cases hzero : a = 0
    · have hnone : addOfflineTrainingTries hundredths unchanged p .SKILL_MAGLEVEL a = (p, false) := if_pos hzero
      have hsame := ha.trained.same fun hand => hand.2 hzero
      rw [hnone]
      exact ⟨(congrArg Standing.level hsame).symm, (congrArg Standing.tries hsame).symm⟩
    · have hmagic := addOfflineTrainingTries_magic hundredths unchanged p hzero hzero
      by_cases hless : (p.vocation.mana.get p.magLevel).1 < (p.vocation.mana.get (p.magLevel + 1)).1
      · exact (hmagic.trained.landed hless hzero).landing.unique (ha.trained.landed hless hzero).landing
      · have hsame := ha.trained.same fun hand => hless hand.1
        have hsame' := hmagic.trained.same fun hand => hless hand.1
        exact ⟨congrArg Standing.level (hsame'.trans hsame.symm), congrArg Standing.tries (hsame'.trans hsame.symm)⟩
  refine ⟨hlevel, hspent, fun hup => hpercent (.inr ?_), hoffline.1, hoffline.2, fun hup => ?_⟩
  · rw [hlevel]
    exact hboth.trained.below hup
  · dsimp only
    rw [ha.like.total_eq]
    exact ha.trained.total hup (Nat.lt_of_le_of_lt (Nat.le_add_right _ _) hoverflow)

/-- **Training is additive.** Whether an amount comes at once or in parts, online or offline, one stands where the total
says. -/
theorem training_additive (p : Player) (i : SkillId) (a b : BitVec 64) (hgains : p.notGainMana = false)
    (hasks : Asks (p.vocation.skillTries i) (p.skills i).level ((p.skills i).tries + (a + b)).toNat)
    (htries : (p.skills i).tries.toNat + a.toNat + b.toNat < 2 ^ 64)
    (hmana : p.manaSpent.toNat + a.toNat + b.toNat < 2 ^ 64) :
    SkillAdditive hundredths p i a b ∧ MagicAdditive hundredths p a b :=
  ⟨skill_additive hundredths htries hasks, magic_additive hundredths hgains hmana⟩

end

/-- Level `n` requires `20 * n` tries. -/
def twenties : SkillTries where
  formula l := 20 * l.setWidth 64
  cache _ := none

theorem twenties_steady (l : BitVec 16) : twenties.Steady l := by
  refine twenties.steady_iff.mpr (.inr (.inr ?_))
  show ((20 * l.setWidth 64).setWidth 32).setWidth 64 = 20 * l.setWidth 64
  refine BitVec.eq_of_toNat_eq ?_
  have htwenty : (20 : BitVec 64).toNat = 20 := rfl
  simp only [BitVec.toNat_setWidth, BitVec.toNat_mul, htwenty]
  have hlt := l.isLt
  simp (disch := omega) only [Nat.mod_eq_of_lt]

/-- A player without experience; `notGainMana` is the flag. -/
def beginner (notGainMana : Bool) : Player where
  vocation := ⟨fun _ => twenties, DeathLoss.hundreds⟩
  skills _ := { level := 10 }
  magLevel := 0
  manaSpent := 0
  magLevelPercent := 0
  notGainMana := notGainMana

theorem training_additive_beginner : SkillAdditive (fun _ _ => 0) (beginner false) 3 300 500 ∧
    MagicAdditive (fun _ _ => 0) (beginner false) 300 500 :=
  training_additive (fun _ _ => 0) (beginner false) 3 300 500 rfl
    (fun l _ => ⟨twenties_steady l, twenties_steady (l + 1)⟩) (by decide) (by decide)

/-- The offline training does not look at the flag. -/
theorem flagged_not_same :
    Increasing (beginner true).vocation.mana (beginner true).magLevel (0 + 50 : BitVec 64).toNat ∧
      (addManaSpent (fun _ _ => 0) unchanged (beginner true) 50).manaSpent = 0 ∧
      (addOfflineTrainingTries (fun _ _ => 0) unchanged (beginner true) .SKILL_MAGLEVEL 50).1.manaSpent = 50 := by
  have hbelow : ((beginner true).vocation.mana.get 0).1 < ((beginner true).vocation.mana.get (0 + 1)).1 := by decide
  have hup : Increasing (beginner true).vocation.mana (beginner true).magLevel (0 + 50 : BitVec 64).toNat := by
    intro l hl
    have hzero : l.toNat = 0 := by
      by_contra hne
      have hsum : Ladder.sum DeathLoss.hundreds.req 1 ≤ Ladder.sum DeathLoss.hundreds.req l.toNat :=
        Ladder.sum_mono (Nat.pos_of_ne_zero hne)
      exact absurd (Nat.le_trans hsum hl.sum_le) (by decide)
    have hl : l = 0 := BitVec.eq_of_toNat_eq hzero
    rw [hl]
    exact hbelow
  have hfifty : (50 : BitVec 64) ≠ 0 := by decide
  have hmagic := addOfflineTrainingTries_magic (fun _ _ => 0) unchanged (beginner true) hfifty hfifty
  have hland : Landing (beginner true).vocation.mana 0 (0 + 50 : BitVec 64).toNat 0 50 :=
    Landing.refl hbelow (by decide)
  exact ⟨hup, rfl, ((hmagic.trained.landed hbelow hfifty).landing.unique hland).2⟩

end Training

end Moonlight
