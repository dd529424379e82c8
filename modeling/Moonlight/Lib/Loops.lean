import Mathlib.Logic.Function.Iterate
import Mathlib.Order.Basic

/-!
# Loops

A loop goes from state to state until a round ends it with a result. `run step n s` is the result if it comes after at
most `n` rounds that do not end the loop; a loop that never ends has none for any `n`. `run_isSome_of_measure` and
`run_of_inv` are the rules for loops that end and for what they end with, `run_eq_none` the rule for those that do not.

`count` is the loop over a counter modulo `m`. It does what is expected of it as long as the counter reaches a number
at which the condition fails; a condition that holds of all numbers below `m`, such as `i ≤ m - 1`, keeps it going.
-/

namespace Loops

variable {σ ρ : Type*}

def run (step : σ → Except ρ σ) : (rounds : Nat) → σ → Option ρ
  | 0, s =>
    match step s with
    | .error r => some r
    | .ok _ => none
  | n + 1, s =>
    match step s with
    | .error r => some r
    | .ok s' => run step n s'

variable {step : σ → Except ρ σ}

theorem run_error {s : σ} {r : ρ} (h : step s = .error r) (n : Nat) : run step n s = some r := by
  cases n <;> rw [run, h]

theorem run_succ {s s' : σ} (h : step s = .ok s') (n : Nat) : run step (n + 1) s = run step n s' := by
  rw [run, h]

theorem run_zero {s s' : σ} (h : step s = .ok s') : run step 0 s = none := by
  rw [run, h]

theorem run_mono {m n : Nat} (hle : m ≤ n) {s : σ} {r : ρ} (h : run step m s = some r) : run step n s = some r := by
  induction m generalizing s n with
  | zero =>
    cases hstep : step s with
    | error r' =>
      rw [run_error hstep] at h ⊢
      exact h
    | ok s' =>
      rw [run_zero hstep] at h
      cases h
  | succ m ih =>
    cases hstep : step s with
    | error r' =>
      rw [run_error hstep] at h ⊢
      exact h
    | ok s' =>
      obtain ⟨k, rfl⟩ := Nat.exists_eq_succ_of_ne_zero (Nat.ne_of_gt (Nat.lt_of_lt_of_le m.succ_pos hle))
      rw [run_succ hstep] at h ⊢
      exact ih (Nat.le_of_succ_le_succ hle) h

theorem run_of_inv {I : σ → Prop} (hstep : ∀ s s', I s → step s = .ok s' → I s') {n : Nat} {s : σ} {r : ρ}
    (hs : I s) (h : run step n s = some r) : ∃ s', I s' ∧ step s' = .error r := by
  induction n generalizing s with
  | zero =>
    cases hround : step s with
    | error r' =>
      rw [run_error hround] at h
      exact ⟨s, hs, hround.trans (congrArg _ (Option.some.inj h))⟩
    | ok s' =>
      rw [run_zero hround] at h
      cases h
  | succ n ih =>
    cases hround : step s with
    | error r' =>
      rw [run_error hround] at h
      exact ⟨s, hs, hround.trans (congrArg _ (Option.some.inj h))⟩
    | ok s' =>
      rw [run_succ hround] at h
      exact ih (hstep s s' hs hround) h

theorem run_isSome_of_measure {I : σ → Prop} {f : σ → Nat}
    (hstep : ∀ s s', I s → step s = .ok s' → I s' ∧ f s' < f s) {n : Nat} {s : σ} (hs : I s) (hn : f s ≤ n) :
    (run step n s).isSome = true := by
  induction n generalizing s with
  | zero =>
    cases hround : step s with
    | error r =>
      rw [run_error hround]
      rfl
    | ok s' => exact absurd (Nat.lt_of_lt_of_le (hstep s s' hs hround).2 hn) (Nat.not_lt_zero _)
  | succ n ih =>
    cases hround : step s with
    | error r =>
      rw [run_error hround]
      rfl
    | ok s' =>
      obtain ⟨hs', hlt⟩ := hstep s s' hs hround
      rw [run_succ hround]
      exact ih hs' (Nat.le_of_lt_succ (Nat.lt_of_lt_of_le hlt hn))

theorem run_eq_none {I : σ → Prop} (hstep : ∀ s, I s → ∃ s', step s = .ok s' ∧ I s') {s : σ} (hs : I s)
    (n : Nat) : run step n s = none := by
  induction n generalizing s with
  | zero =>
    obtain ⟨s', hround, -⟩ := hstep s hs
    exact run_zero hround
  | succ n ih =>
    obtain ⟨s', hround, hs'⟩ := hstep s hs
    rw [run_succ hround]
    exact ih hs'

theorem foldlM_of_inv {α : Type*} {f : σ → α → Except ρ σ} {I : σ → Prop} {E : ρ → Prop} {l : List α}
    (hstep : ∀ s, ∀ a ∈ l, I s → (∀ s', f s a = .ok s' → I s') ∧ ∀ r, f s a = .error r → E r) {s : σ} (hs : I s) :
    (∀ s', l.foldlM f s = .ok s' → I s') ∧ ∀ r, l.foldlM f s = .error r → E r := by
  induction l generalizing s with
  | nil =>
    refine ⟨fun s' h => ?_, fun r h => ?_⟩
    · obtain rfl : s = s' := Except.ok.inj h
      exact hs
    · cases h
  | cons a l ih =>
    obtain ⟨hok, herror⟩ := hstep s a List.mem_cons_self hs
    rw [List.foldlM_cons]
    cases hround : f s a with
    | error r =>
      refine ⟨fun s' h => ?_, fun r' h => ?_⟩
      · cases h
      · obtain rfl : r = r' := Except.error.inj h
        exact herror r hround
    | ok s' => exact ih (fun s a ha => hstep s a (List.mem_cons_of_mem _ ha)) (hok s' hround)

/-! ### Counters -/

variable (m : Nat) (cond : Nat → Bool) (body : σ → σ)

/-- A round of `for (...; cond(i); i++)`, with a counter modulo `m`. -/
def count (s : Nat × σ) : Except σ (Nat × σ) :=
  if cond s.1 then .ok ((s.1 + 1) % m, body s.2) else .error s.2

variable {m}

theorem run_count_lt {bound : Nat} (hm : bound < m) {i : Nat} (hi : i ≤ bound) (s : σ) :
    run (count m (fun i => i < bound) body) (bound - i) (i, s) = some (body^[bound - i] s) := by
  obtain ⟨k, rfl⟩ := Nat.exists_eq_add_of_le hi
  rw [Nat.add_sub_cancel_left]
  induction k generalizing i s with
  | zero =>
    refine run_error ?_ 0
    unfold count
    exact if_neg (by rw [Nat.add_zero, decide_eq_true_eq]; exact Nat.lt_irrefl i)
  | succ k ih =>
    have hround : count m (fun j => j < i + (k + 1)) body (i, s) = .ok (i + 1, body s) := by
      unfold count
      rw [if_pos (decide_eq_true (Nat.lt_add_of_pos_right k.succ_pos)), Nat.mod_eq_of_lt (by omega)]
    have hbound : i + (k + 1) = i + 1 + k := by omega
    rw [run_succ hround, hbound, ih (body s) (by omega) (by omega), Function.iterate_succ_apply]

theorem count_le_eq (bound : Nat) :
    count m (fun i => i ≤ bound) body = count m (fun i => i < bound + 1) body := by
  unfold count
  simp only [Nat.lt_succ_iff]

theorem run_count_le {bound : Nat} (hm : bound + 1 < m) {i : Nat} (hi : i ≤ bound + 1) (s : σ) :
    run (count m (fun i => i ≤ bound) body) (bound + 1 - i) (i, s) = some (body^[bound + 1 - i] s) := by
  rw [count_le_eq]
  exact run_count_lt body hm hi s

theorem run_count_eq_none (hm : 0 < m) (hcond : ∀ i, i < m → cond i = true) {i : Nat} (hi : i < m) (s : σ)
    (n : Nat) : run (count m cond body) n (i, s) = none := by
  refine run_eq_none (I := fun s => s.1 < m) (fun s hs => ⟨_, if_pos (hcond s.1 hs), ?_⟩) hi n
  exact Nat.mod_lt _ hm

end Loops
