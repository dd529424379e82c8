import Moonlight.Creatures.Training
import Moonlight.Lib.Runs

/-!
# The percentages of skills

The percentage of a skill is kept beside its tries, and computed anew by `IOLoginData::loadPlayer` (io/iologindata.cpp),
by both kinds of training and by `Player::death` (creatures/players/player.cpp). `loadPlayer` takes the exact percentage
of the next level. Training takes the whole part of it, and `death` the percentage of the level that one has. Where
neither makes a difference (`Unnoticed`), all states reached from a loaded player are `Consistent`.
-/

namespace Moonlight

open Ladder Training
open DeathLoss (Skill deathSkill deathSkill_some deathSkill_spec lossOf maxInt32)

namespace SkillPercent

/-- A loop over the skills; each sees its own requirements and what the player has of it. -/
def eachSkill (f : SkillId → SkillTries → Skill → Option (Skill × SkillTries)) (p : Player) : Option Player :=
  (List.finRange (SKILL_LAST + 1)).foldlM (fun p i => (f i (p.vocation.skillTries i) (p.skills i)).map fun (s, t) =>
    { p with
      vocation := p.vocation.setSkillTries i t
      skills := fun j => if j = i then s else p.skills j }) p

section

variable (hundredths : BitVec 64 → BitVec 64 → Nat)

/-- What `loadPlayer` makes of the columns of a skill. -/
def loadSkill (skillLevel : BitVec 16) (skillTries : BitVec 64) (t : SkillTries) : Skill × SkillTries :=
  let (nextSkillTries, t) := t.get (skillLevel + 1)
  let skillTries := if skillTries > nextSkillTries then 0 else skillTries
  ({ tries := skillTries, level := skillLevel, percent := getPercentLevel hundredths skillTries nextSkillTries }, t)

/-- The skills of `loadPlayer`. -/
def loadPlayer (skillLevel : SkillId → BitVec 16) (skillTries : SkillId → BitVec 64) (p : Player) : Option Player :=
  eachSkill (fun i t _ => some (loadSkill hundredths (skillLevel i) (skillTries i) t)) p

/-- The skill loss of `death`. -/
def death (share : BitVec 64 → Nat) (p : Player) : Option Player :=
  eachSkill (fun _ t s => deathSkill hundredths share t s) p

inductive Action where
  | addSkillAdvance (skill : SkillId) (count : BitVec 64)
  | addOfflineTrainingTries (skill : skills_t) (tries : BitVec 64)
  | death (share : BitVec 64 → Nat)

variable (onGainSkillTries : skills_t → BitVec 64 → BitVec 64)

/-- There is no state after a loop that does not end or a cast that is not defined. -/
def step (p : Option Player) (action : Action) : Option Player :=
  p.bind fun p =>
    match action with
    | .addSkillAdvance skill count => some (addSkillAdvance hundredths onGainSkillTries p skill count)
    | .addOfflineTrainingTries skill tries => some (addOfflineTrainingTries hundredths onGainSkillTries p skill tries).1
    | .death share => death hundredths share p

/-- A skill below its last level shows the percentage that `loadPlayer` would compute. -/
def ConsistentSkill (t : SkillTries) (s : Standing 16) : Prop :=
  (t.get s.level).1 < (t.get (s.level + 1)).1 → s.percent = getPercentLevel hundredths s.tries (t.get (s.level + 1)).1

def Consistent (p : Player) : Prop := ∀ i, ConsistentSkill hundredths (p.vocation.skillTries i) (p.skill i)

/-- Where one comes to with `m` tries above a level, the exact percentage is a whole one. -/
def Whole (t : SkillTries) (level : BitVec 16) (m : Nat) : Prop :=
  ∀ l r, Landing t level m l r → (t.get l).1 < (t.get (l + 1)).1 →
    wholePercent (getPercentLevel hundredths r (t.get (l + 1)).1) = getPercentLevel hundredths r (t.get (l + 1)).1

/-- Where one falls to, the percentage of the level is that of the next. The sum has asked for the levels before. -/
def SameNext (share : BitVec 64 → Nat) (t : SkillTries) (s : Skill) : Prop :=
  let t' := t.upTo s.level.toNat
  ∀ (l : BitVec 16) (left : BitVec 64),
    (l.toNat, left.toNat) = fall t'.req 10 s.level.toNat (t'.total s.level s.tries) (lossOf share t s) →
      (t'.get l).1 < (t'.get (l + 1)).1 →
        getPercentLevel hundredths (maxInt32 left) (t'.get l).1 =
          getPercentLevel hundredths (maxInt32 left) (t'.get (l + 1)).1

/-- An action that is not noticed in the percentages: the requirements that it asks for are answered alike each time, a
training ends with a whole percentage, and a death where the next level makes no difference. -/
def Unnoticed : Option Player → Action → Prop
  | none, _ => True
  | some p, .addSkillAdvance i count =>
    let tries := (p.skills i).tries + onGainSkillTries (.skill i) count
    Asks (p.vocation.skillTries i) (p.skills i).level tries.toNat ∧
      (onGainSkillTries (.skill i) count ≠ 0 →
        Whole hundredths (p.vocation.skillTries i) (p.skills i).level tries.toNat)
  | some p, .addOfflineTrainingTries (.skill i) count =>
    let tries := (p.skills i).tries + onGainSkillTries (.skill i) count
    count ≠ 0 →
      Asks (p.vocation.skillTries i) (p.skills i).level tries.toNat ∧
        Whole hundredths (p.vocation.skillTries i) (p.skills i).level tries.toNat
  | some _, .addOfflineTrainingTries _ _ => True
  | some p, .death share => ∀ i, SameNext hundredths share (p.vocation.skillTries i) (p.skills i)

end

/-! ### Each skill for itself -/

theorem foldlM_skills {f : SkillId → SkillTries → Skill → Option (Skill × SkillTries)} {l : List SkillId}
    (hnodup : l.Nodup) {p p' : Player}
    (h : l.foldlM (fun p i => (f i (p.vocation.skillTries i) (p.skills i)).map fun (s, t) =>
      ({ p with
        vocation := p.vocation.setSkillTries i t
        skills := fun j => if j = i then s else p.skills j } : Player)) p = some p') (j : SkillId) :
    if j ∈ l then f j (p.vocation.skillTries j) (p.skills j) = some (p'.skills j, p'.vocation.skillTries j)
    else p'.skills j = p.skills j ∧ p'.vocation.skillTries j = p.vocation.skillTries j := by
  induction l generalizing p with
  | nil =>
    obtain rfl := Option.some.inj h
    rw [if_neg List.not_mem_nil]
    exact ⟨rfl, rfl⟩
  | cons i l ih =>
    obtain ⟨hi, hnodup⟩ := List.nodup_cons.mp hnodup
    rw [List.foldlM_cons] at h
    obtain ⟨q, hq, hrest⟩ := Option.bind_eq_some_iff.mp h
    obtain ⟨⟨s, t⟩, hf, rfl⟩ := Option.map_eq_some_iff.mp hq
    have hj := ih hnodup hrest
    by_cases heq : j = i
    · -- the skill is written now, and not again
      subst heq
      rw [if_neg hi] at hj
      simp only [if_true, Vocation.setSkillTries_self] at hj
      rw [if_pos List.mem_cons_self, hj.1, hj.2]
      exact hf
    · simp only [if_neg heq, Vocation.setSkillTries_of_ne _ heq] at hj
      simp only [List.mem_cons, heq, false_or]
      exact hj

theorem eachSkill_spec {f : SkillId → SkillTries → Skill → Option (Skill × SkillTries)} {p p' : Player}
    (h : eachSkill f p = some p') (i : SkillId) :
    f i (p.vocation.skillTries i) (p.skills i) = some (p'.skills i, p'.vocation.skillTries i) := by
  have hi := foldlM_skills (List.nodup_finRange _) h i
  rwa [if_pos (List.mem_finRange i)] at hi

/-! ### What each action keeps -/

section

variable {hundredths : BitVec 64 → BitVec 64 → Nat} {onGainSkillTries : skills_t → BitVec 64 → BitVec 64}
  {t t' : SkillTries} {s : Standing 16} {level : BitVec 16} {m : Nat} {p p' : Player} {i : SkillId}

theorem ConsistentSkill.of_like (hlike : t.Like t') (h : ConsistentSkill hundredths t s) :
    ConsistentSkill hundredths t' s := by
  unfold ConsistentSkill
  rw [hlike.get_eq, hlike.get_eq]
  exact h

theorem consistent_of_landed (h : Landed hundredths t wholePercent 0 level m s) (hwhole : Whole hundredths t level m) :
    ConsistentSkill hundredths t s := by
  intro hless
  rw [h.percent, if_pos hless]
  exact hwhole _ _ h.landing hless

theorem consistent_of_onlySkill (h : Consistent hundredths p) (honly : OnlySkill p p' i)
    (hi : ConsistentSkill hundredths (p.vocation.skillTries i) (p'.skill i)) : Consistent hundredths p' := by
  intro j
  by_cases hj : j = i
  · subst hj
    exact hi.of_like honly.like
  · rw [Player.skill, honly.tables j hj, honly.skills j hj]
    exact h j

theorem addSkillAdvance_consistent (h : Consistent hundredths p) {count : BitVec 64}
    (hunnoticed : Unnoticed hundredths onGainSkillTries (some p) (.addSkillAdvance i count)) :
    Consistent hundredths (addSkillAdvance hundredths onGainSkillTries p i count) := by
  obtain ⟨hasks, hwhole⟩ := hunnoticed
  obtain ⟨honly, htrained⟩ := addSkillAdvance_spec hundredths onGainSkillTries p i count hasks
  refine consistent_of_onlySkill h honly ?_
  by_cases hboth : ((p.vocation.skillTries i).get (p.skills i).level).1 <
      ((p.vocation.skillTries i).get ((p.skills i).level + 1)).1 ∧ onGainSkillTries (.skill i) count ≠ 0
  · exact consistent_of_landed (htrained.landed hboth.1 hboth.2) (hwhole hboth.2)
  · rw [htrained.same hboth]
    exact h i

theorem addOfflineTrainingTries_consistent (h : Consistent hundredths p) {tries : BitVec 64}
    (hunnoticed : Unnoticed hundredths onGainSkillTries (some p) (.addOfflineTrainingTries (.skill i) tries)) :
    Consistent hundredths (addOfflineTrainingTries hundredths onGainSkillTries p (.skill i) tries).1 := by
  by_cases htries : tries = 0
  · rw [addOfflineTrainingTries, if_pos htries]
    exact h
  obtain ⟨hasks, hwhole⟩ := hunnoticed htries
  obtain ⟨honly, hlanded, hsame⟩ := addOfflineTrainingTries_spec hundredths onGainSkillTries p i htries hasks
  refine consistent_of_onlySkill h honly ?_
  by_cases hless : ((p.vocation.skillTries i).get (p.skills i).level).1 <
      ((p.vocation.skillTries i).get ((p.skills i).level + 1)).1
  · exact consistent_of_landed (hlanded hless) hwhole
  · rw [hsame hless]
    exact h i

theorem addOfflineTrainingTries_skills (hundredths : BitVec 64 → BitVec 64 → Nat)
    (onGainSkillTries : skills_t → BitVec 64 → BitVec 64) (p : Player) {skill : skills_t}
    (hskill : ∀ i, skill ≠ .skill i)
    (tries : BitVec 64) :
    (addOfflineTrainingTries hundredths onGainSkillTries p skill tries).1.skills = p.skills ∧
      (addOfflineTrainingTries hundredths onGainSkillTries p skill tries).1.vocation.skillTries = p.vocation.skillTries := by
  rw [addOfflineTrainingTries.eq_def]
  split
  · exact ⟨rfl, rfl⟩
  · cases skill with
    | skill i => exact absurd rfl (hskill i)
    | SKILL_LEVEL => exact ⟨rfl, rfl⟩
    | SKILL_MAGLEVEL =>
      dsimp only
      split
      · exact ⟨rfl, rfl⟩
      · exact ⟨rfl, rfl⟩

theorem death_consistent {share : BitVec 64 → Nat}
    (hunnoticed : Unnoticed hundredths onGainSkillTries (some p) (.death share))
    (hdeath : death hundredths share p = some p') : Consistent hundredths p' := by
  intro i
  have hrun := eachSkill_spec hdeath i
  obtain ⟨hlevel, hlost⟩ := deathSkill_some hundredths share _ _ hrun
  obtain ⟨s', t', left, hrun', hlike, htries, hpercent, hend⟩ := deathSkill_spec hundredths share _ _ hlevel hlost
  obtain ⟨rfl, rfl⟩ := Prod.mk.inj (Option.some.inj (hrun.symm.trans hrun'))
  refine ConsistentSkill.of_like hlike fun hless => ?_
  show (p'.skills i).percent = getPercentLevel hundredths (p'.skills i).tries _
  rw [hpercent, htries]
  exact hunnoticed i _ left hend hless

theorem loadSkill_consistent (skillLevel : BitVec 16) (skillTries : BitVec 64) (hsteady : t.Steady (skillLevel + 1)) :
    ConsistentSkill hundredths (loadSkill hundredths skillLevel skillTries t).2
      ⟨(loadSkill hundredths skillLevel skillTries t).1.level, (loadSkill hundredths skillLevel skillTries t).1.tries,
        (loadSkill hundredths skillLevel skillTries t).1.percent⟩ := by
  intro _
  have hagain : ((t.get (skillLevel + 1)).2.get (skillLevel + 1)).1 = (t.get (skillLevel + 1)).1 := hsteady
  simp only [loadSkill, hagain]

theorem loadPlayer_consistent {skillLevel : SkillId → BitVec 16} {skillTries : SkillId → BitVec 64}
    (hsteady : ∀ i, (p.vocation.skillTries i).Steady (skillLevel i + 1))
    (hload : loadPlayer hundredths skillLevel skillTries p = some p') : Consistent hundredths p' := by
  intro i
  obtain ⟨hskill, htable⟩ := Prod.mk.inj (Option.some.inj (eachSkill_spec hload i))
  rw [Player.skill, ← hskill, ← htable]
  exact loadSkill_consistent _ _ (hsteady i)

/-- **One unnoticed action.** -/
theorem step_consistent (p : Option Player) (action : Action) (h : ∀ q, p = some q → Consistent hundredths q)
    (hunnoticed : Unnoticed hundredths onGainSkillTries p action) :
    ∀ q, step hundredths onGainSkillTries p action = some q → Consistent hundredths q := by
  intro q hq
  cases p with
  | none => exact absurd hq nofun
  | some p =>
    have hp := h p rfl
    cases action with
    | addSkillAdvance i count =>
      obtain rfl := Option.some.inj hq
      exact addSkillAdvance_consistent hp hunnoticed
    | addOfflineTrainingTries skill tries =>
      obtain rfl := Option.some.inj hq
      by_cases hskill : ∃ i, skill = .skill i
      · obtain ⟨i, rfl⟩ := hskill
        exact addOfflineTrainingTries_consistent hp hunnoticed
      · obtain ⟨hskills, htables⟩ := addOfflineTrainingTries_skills hundredths onGainSkillTries p
          (not_exists.mp hskill) tries
        intro i
        rw [Player.skill, hskills, htables]
        exact hp i
    | death share => exact death_consistent hunnoticed hq

end

/-- **Percentages are those of a relog, as long as nothing is noticed.** -/
theorem run_percents (hundredths : BitVec 64 → BitVec 64 → Nat) (onGainSkillTries : skills_t → BitVec 64 → BitVec 64)
    (skillLevel : SkillId → BitVec 16) (skillTries : SkillId → BitVec 64) (p : Player)
    (hsteady : ∀ i, (p.vocation.skillTries i).Steady (skillLevel i + 1)) (actions : List Action)
    (hmeets : Runs.Meets (step hundredths onGainSkillTries) (Unnoticed hundredths onGainSkillTries)
      (loadPlayer hundredths skillLevel skillTries p) actions) :
    ∀ q, Runs.run (step hundredths onGainSkillTries) (loadPlayer hundredths skillLevel skillTries p) actions = some q →
      Consistent hundredths q :=
  Runs.run_invariant (fun p action => step_consistent p action) (fun _ hload => loadPlayer_consistent hsteady hload)
    hmeets

/-- The hundredths, rounded as real numbers are. -/
def rounded (count nextLevelCount : BitVec 64) : Nat :=
  (20000 * count.toNat + nextLevelCount.toNat) / (2 * nextLevelCount.toNat)

theorem loaded_beginner : ∃ p, loadPlayer rounded (fun _ => 10) (fun _ => 0) (beginner false) = some p ∧
    p.skills 3 = { tries := 0, level := 10 } ∧ twenties.Like (p.vocation.skillTries 3) := by
  obtain ⟨p, hload⟩ : ∃ p, loadPlayer rounded (fun _ => 10) (fun _ => 0) (beginner false) = some p := ⟨_, rfl⟩
  obtain ⟨hskill, htable⟩ := Prod.mk.inj (Option.some.inj (eachSkill_spec hload 3))
  have htable' : p.vocation.skillTries 3 = (twenties.get 11).2 := htable.symm
  refine ⟨p, hload, ?_, ?_⟩
  · rw [← hskill]
    decide
  · rw [htable']
    exact Requirements.like_get (twenties_steady 11)

theorem landing_beginner {t : SkillTries} (hlike : twenties.Like t) {count : BitVec 64} (hcount : count < 220) :
    (t.get 10).1 < (t.get (10 + 1)).1 ∧ Landing t 10 (0 + count).toNat 10 count := by
  have hless : (t.get 10).1 < (t.get (10 + 1)).1 := by
    rw [hlike.get_eq, hlike.get_eq]
    decide
  have hbelow : count < (t.get (10 + 1)).1 := by
    rw [hlike.get_eq]
    exact hcount
  rw [show 0 + count = count from BitVec.zero_add count]
  exact ⟨hless, Landing.refl hless hbelow⟩

theorem asks_beginner {t : SkillTries} (hlike : twenties.Like t) (level : BitVec 16) (m : Nat) : Asks t level m :=
  fun l _ => ⟨hlike.steady _ (twenties_steady l), hlike.steady _ (twenties_steady (l + 1))⟩

theorem run_percents_half : ∃ q, Runs.run (step rounded unchanged)
    (loadPlayer rounded (fun _ => 10) (fun _ => 0) (beginner false)) [.addSkillAdvance 3 110] = some q ∧
      Consistent rounded q := by
  obtain ⟨p, hload, hskill, hlike⟩ := loaded_beginner
  have hmeets : Runs.Meets (step rounded unchanged) (Unnoticed rounded unchanged)
      (loadPlayer rounded (fun _ => 10) (fun _ => 0) (beginner false)) [.addSkillAdvance 3 110] := by
    rw [hload]
    refine ⟨⟨asks_beginner hlike _ _, fun _ l r h _ => ?_⟩, trivial⟩
    rw [hskill] at h
    obtain ⟨rfl, rfl⟩ := (landing_beginner hlike (by decide : (110 : BitVec 64) < 220)).2.unique h
    rw [hlike.get_eq]
    decide
  obtain ⟨q, hrun⟩ : ∃ q, Runs.run (step rounded unchanged)
      (loadPlayer rounded (fun _ => 10) (fun _ => 0) (beginner false)) [.addSkillAdvance 3 110] = some q := by
    rw [hload]
    exact ⟨_, rfl⟩
  exact ⟨q, hrun, run_percents rounded unchanged (fun _ => 10) (fun _ => 0) (beginner false)
    (fun _ => twenties_steady _) [.addSkillAdvance 3 110] hmeets q hrun⟩

/-- One try is 0.45 percent, and shown as 0. -/
theorem oneTry_not_consistent : ∃ q, Runs.run (step rounded unchanged)
    (loadPlayer rounded (fun _ => 10) (fun _ => 0) (beginner false)) [.addSkillAdvance 3 1] = some q ∧
      ¬ Consistent rounded q := by
  obtain ⟨p, hload, hskill, hlike⟩ := loaded_beginner
  rw [hload]
  refine ⟨_, rfl, fun h => ?_⟩
  obtain ⟨honly, htrained⟩ := addSkillAdvance_spec rounded unchanged p 3 1 (asks_beginner hlike _ _)
  obtain ⟨hless, hland⟩ := landing_beginner hlike (by decide : (1 : BitVec 64) < 220)
  have hlanded := htrained.landed (by rw [Player.skill, hskill]; exact hless) (by decide)
  rw [Player.skill, hskill] at hlanded
  have hlike' := hlike.trans honly.like
  have hshown := h 3
  generalize (addSkillAdvance rounded unchanged p 3 1).skill 3 = s at hlanded hshown
  obtain ⟨hlevel, htries⟩ := hlanded.landing.unique hland
  have hpercent := hlanded.percent
  unfold ConsistentSkill at hshown
  rw [hlevel, htries, if_pos hless, hlike.get_eq] at hpercent
  rw [hlevel, htries, hlike'.get_eq, hlike'.get_eq, hpercent] at hshown
  revert hshown
  decide

end SkillPercent

end Moonlight
