import Mathlib.Data.List.Basic

/-!
# Runs of a deterministic labelled system

A component whose next state is a function of its state and of the label of the step (a request with
its arguments, a timer firing, a choice of the environment) runs by folding that function over a list
of labels. The labels carry all nondeterminism, so "every interleaving" is "every list".

* `run` — the state after a list of labels, and how it composes;
* `Meets` — every step of a run satisfies a condition on its pre-state and its label;
* `run_invariant` — the induction rule: what every guarded step preserves, every guarded run does;
* `meets_congr`, `meets_congr_of_keep` — two conditions that agree wherever an invariant holds;
* `forall_prefix_iff_meets` — the exact form: if each step preserves the invariant *precisely* when
  its condition holds, then the invariant holds all along a run precisely when the run meets the
  condition; `forall_prefix_iff_meets_of` observes a weaker property than the invariant, and
  `forall_prefix_iff_meets_within` looks at legal runs only, `forall_prefix_iff_meets_beside` with an
  invariant that they keep in any case;
* `transduce` — a run whose steps give results, and `transduce_simulates` — two systems that agree step
  by step give the same results.
-/

namespace Runs

variable {State Label : Type} (step : State → Label → State)

/-- The state reached from `s` by the steps `ls`, in order. -/
def run (s : State) (ls : List Label) : State := ls.foldl step s

@[simp] theorem run_nil (s : State) : run step s [] = s := rfl

@[simp] theorem run_cons (s : State) (l : Label) (ls : List Label) :
    run step s (l :: ls) = run step (step s l) ls := rfl

theorem run_append (s : State) (ls ls' : List Label) :
    run step s (ls ++ ls') = run step (run step s ls) ls' :=
  List.foldl_append

theorem run_reverse {back : State → Label → State} (h : ∀ s l, back (step s l) l = s) (s : State)
    (ls : List Label) : run back (run step s ls) ls.reverse = s := by
  induction ls generalizing s with
  | nil => rfl
  | cons l ls ih => rw [List.reverse_cons, run_append, run_cons step, ih, run_cons, run_nil, h]

/-- Every step of the run satisfies `guard` at the state it starts from. -/
def Meets (guard : State → Label → Prop) : State → List Label → Prop
  | _, [] => True
  | s, l :: ls => guard s l ∧ Meets guard (step s l) ls

variable {step} {guard : State → Label → Prop} {Inv : State → Prop}

theorem meets_of_forall {allowed : Label → Prop} {s : State} {ls : List Label} (h : ∀ l, l ∈ ls → allowed l) :
    Meets step (fun _ => allowed) s ls := by
  induction ls generalizing s with
  | nil => trivial
  | cons l ls ih => exact ⟨h l List.mem_cons_self, ih fun l' hl' => h l' (List.mem_cons_of_mem l hl')⟩

theorem meets_append {s : State} {ls ls' : List Label} :
    Meets step guard s (ls ++ ls') ↔ Meets step guard s ls ∧ Meets step guard (run step s ls) ls' := by
  induction ls generalizing s with
  | nil => simp [Meets]
  | cons l ls ih => simp [Meets, ih, and_assoc]

/-- **The invariant rule.** What every guarded step preserves holds after every guarded run. -/
theorem run_invariant (hstep : ∀ s l, Inv s → guard s l → Inv (step s l)) {s : State}
    {ls : List Label} (hs : Inv s) (hm : Meets step guard s ls) : Inv (run step s ls) := by
  induction ls generalizing s with
  | nil => exact hs
  | cons l ls ih => exact ih (hstep s l hs hm.1) hm.2

theorem run_invariant_of_forall (hstep : ∀ s l, Inv s → Inv (step s l)) {s : State} (hs : Inv s)
    (ls : List Label) : Inv (run step s ls) := by
  induction ls generalizing s with
  | nil => exact hs
  | cons l ls ih => exact ih (hstep s l hs)

theorem meets_congr {guard' : State → Label → Prop} (hstep : ∀ s l, Inv s → Inv (step s l))
    (hiff : ∀ s l, Inv s → (guard s l ↔ guard' s l)) {s : State} (hs : Inv s) (ls : List Label) :
    Meets step guard s ls ↔ Meets step guard' s ls := by
  induction ls generalizing s with
  | nil => exact Iff.rfl
  | cons l ls ih => exact and_congr (hiff s l hs) (ih (hstep s l hs))

theorem meets_congr_of_keep {guard' : State → Label → Prop}
    (hkeep : ∀ s l, Inv s → guard s l → Inv (step s l)) (hiff : ∀ s l, Inv s → (guard s l ↔ guard' s l))
    {s : State} (hs : Inv s) (ls : List Label) : Meets step guard s ls ↔ Meets step guard' s ls := by
  induction ls generalizing s with
  | nil => exact Iff.rfl
  | cons l ls ih =>
    constructor
    · rintro ⟨hg, hm⟩
      exact ⟨(hiff s l hs).mp hg, (ih (hkeep s l hs hg)).mp hm⟩
    · rintro ⟨hg', hm⟩
      have hg : guard s l := (hiff s l hs).mpr hg'
      exact ⟨hg, (ih (hkeep s l hs hg)).mpr hm⟩

/-- **The exact rule.** Let `Inv` be kept by guarded steps and imply the observed property `P`, and
let a step that breaks its guard show it in `P`. Then `P` holds at every state of a run precisely when
the run meets the guard. -/
theorem forall_prefix_iff_meets_of {P : State → Prop} (hobs : ∀ s, Inv s → P s)
    (hkeep : ∀ s l, Inv s → guard s l → Inv (step s l))
    (hshow : ∀ s l, Inv s → P (step s l) → guard s l) {s : State} {ls : List Label} (hs : Inv s) :
    (∀ pre, pre <+: ls → P (run step s pre)) ↔ Meets step guard s ls := by
  induction ls generalizing s with
  | nil =>
    refine ⟨fun _ => trivial, fun _ pre hpre => ?_⟩
    rw [List.prefix_nil.mp hpre]
    exact hobs s hs
  | cons l ls ih =>
    constructor
    · intro h
      have hg : guard s l := hshow s l hs (h [l] ⟨ls, rfl⟩)
      refine ⟨hg, (ih (hkeep s l hs hg)).mp fun pre hpre => ?_⟩
      exact h (l :: pre) (List.cons_prefix_cons.mpr ⟨rfl, hpre⟩)
    · rintro ⟨hg, hm⟩ pre hpre
      cases pre with
      | nil => exact hobs s hs
      | cons l' pre =>
        obtain ⟨rfl, hpre'⟩ := List.cons_prefix_cons.mp hpre
        exact (ih (hkeep s _ hs hg)).mpr hm pre hpre'

theorem forall_prefix_iff_meets (hstep : ∀ s l, Inv s → (Inv (step s l) ↔ guard s l)) {s : State}
    {ls : List Label} (hs : Inv s) :
    (∀ pre, pre <+: ls → Inv (run step s pre)) ↔ Meets step guard s ls :=
  forall_prefix_iff_meets_of (fun _ h => h) (fun s l h => (hstep s l h).mpr)
    (fun s l h => (hstep s l h).mp) hs

theorem forall_prefix_iff_meets_within {legal : State → Label → Prop}
    (hstep : ∀ s l, Inv s → legal s l → (Inv (step s l) ↔ guard s l)) {s : State} {ls : List Label}
    (hlegal : Meets step legal s ls) (hs : Inv s) :
    (∀ pre, pre <+: ls → Inv (run step s pre)) ↔ Meets step guard s ls := by
  induction ls generalizing s with
  | nil =>
    refine ⟨fun _ => trivial, fun _ pre hpre => ?_⟩
    rw [List.prefix_nil.mp hpre]
    exact hs
  | cons l ls ih =>
    constructor
    · intro h
      have hnext : Inv (step s l) := h [l] ⟨ls, rfl⟩
      refine ⟨(hstep s l hs hlegal.1).mp hnext, (ih hlegal.2 hnext).mp fun pre hpre => ?_⟩
      exact h (l :: pre) (List.cons_prefix_cons.mpr ⟨rfl, hpre⟩)
    · rintro ⟨hg, hm⟩ pre hpre
      cases pre with
      | nil => exact hs
      | cons l' pre =>
        obtain ⟨rfl, hpre'⟩ := List.cons_prefix_cons.mp hpre
        exact (ih hlegal.2 ((hstep s _ hs hlegal.1).mpr hg)).mpr hm pre hpre'

theorem forall_prefix_iff_meets_beside {legal : State → Label → Prop} {P : State → Prop}
    (hkeep : ∀ s l, Inv s → legal s l → Inv (step s l))
    (hstep : ∀ s l, Inv s → legal s l → P s → (P (step s l) ↔ guard s l)) {s : State} {ls : List Label}
    (hlegal : Meets step legal s ls) (hs : Inv s) (hp : P s) :
    (∀ pre, pre <+: ls → P (run step s pre)) ↔ Meets step guard s ls := by
  refine Iff.trans ?_ (@forall_prefix_iff_meets_within _ _ _ _ (fun s => Inv s ∧ P s) _ ?_ _ _ hlegal ⟨hs, hp⟩)
  · refine forall_congr' fun pre => forall_congr' fun hpre => (and_iff_right ?_).symm
    -- a prefix of a legal run is legal
    obtain ⟨rest, rfl⟩ := hpre
    exact run_invariant hkeep hs (meets_append.mp hlegal).1
  · intro s l h hl
    rw [and_iff_right (hkeep s l h.1 hl)]
    exact hstep s l h.1 hl h.2

/-! ### Runs with results -/

section Results

variable {State' Out : Type}

/-- The results of the steps `ls` from `s`, and the state after them. -/
def transduce (step : State → Label → Out × State) (s : State) : List Label → List Out × State
  | [] => ([], s)
  | l :: ls =>
    let (out, s) := step s l
    let (outs, s) := transduce step s ls
    (out :: outs, s)

/-- **The simulation rule.** If related states take each step to the same result and to related states, then
they take a run to the same results and to related states. -/
theorem transduce_simulates {step : State → Label → Out × State} {step' : State' → Label → Out × State'}
    {R : State → State' → Prop}
    (hstep : ∀ s s' l, R s s' → (step s l).1 = (step' s' l).1 ∧ R (step s l).2 (step' s' l).2) {s : State}
    {s' : State'} (h : R s s') (ls : List Label) :
    (transduce step s ls).1 = (transduce step' s' ls).1 ∧
      R (transduce step s ls).2 (transduce step' s' ls).2 := by
  induction ls generalizing s s' with
  | nil => exact ⟨rfl, h⟩
  | cons l ls ih =>
    obtain ⟨hout, hnext⟩ := hstep s s' l h
    obtain ⟨houts, hend⟩ := ih hnext
    exact ⟨congrArg₂ List.cons hout houts, hend⟩

end Results

end Runs
