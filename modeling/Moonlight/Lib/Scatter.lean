import Mathlib.Logic.Function.Basic

/-!
# Copies

A copy goes through a list of moves, each from a place of one grid to a place of another. If no place is written from
two different ones, each place that is written ends with the value of the place that it is written from
(`writes_of_mem`), in whatever order the moves are made, and every other place stays (`writes_of_not_mem`). A grid of
marks that starts empty ends with the marks that are carried over (`writes_iff`).
-/

namespace Scatter

variable {ι κ β : Type*}

/-- From a place of the one grid to a place of the other. -/
abbrev Move (ι κ : Type*) := ι × κ

/-- No place is written from two different ones. -/
def Clean (moves : List (Move ι κ)) : Prop := ∀ m ∈ moves, ∀ m' ∈ moves, m.2 = m'.2 → m.1 = m'.1

theorem Clean.of_cons {m : Move ι κ} {moves : List (Move ι κ)} (h : Clean (m :: moves)) : Clean moves :=
  fun m₁ h₁ m₂ h₂ => h m₁ (List.mem_cons_of_mem m h₁) m₂ (List.mem_cons_of_mem m h₂)

variable [DecidableEq κ]

def write (input : ι → β) (output : κ → β) (move : Move ι κ) : κ → β :=
  Function.update output move.2 (input move.1)

def writes (input : ι → β) (moves : List (Move ι κ)) (output : κ → β) : κ → β := moves.foldl (write input) output

variable {input : ι → β} {moves : List (Move ι κ)} {output : κ → β}

theorem writes_of_not_mem {p : κ} (h : ∀ m ∈ moves, m.2 ≠ p) : writes input moves output p = output p := by
  induction moves generalizing output with
  | nil => rfl
  | cons m moves ih =>
    obtain ⟨hm, hmoves⟩ := List.forall_mem_cons.mp h
    rw [writes, List.foldl_cons]
    exact (ih hmoves).trans (Function.update_of_ne hm.symm _ _)

theorem writes_of_mem (hclean : Clean moves) {q : ι} {p : κ} (h : (q, p) ∈ moves) :
    writes input moves output p = input q := by
  induction moves generalizing output with
  | nil => cases h
  | cons m moves ih =>
    rw [writes, List.foldl_cons]
    by_cases hlater : ∃ m' ∈ moves, m'.2 = p
    · -- the last write counts, and it is from the same place
      obtain ⟨⟨q', p'⟩, hmem, hp⟩ := hlater
      obtain rfl : p' = p := hp
      obtain rfl : q' = q := hclean _ (List.mem_cons_of_mem m hmem) _ h rfl
      exact ih hclean.of_cons hmem
    · have hlast : m = (q, p) := ((List.mem_cons.mp h).resolve_right fun hmem => hlater ⟨_, hmem, rfl⟩).symm
      have hstays : writes input moves (write input output m) p = write input output m p :=
        writes_of_not_mem fun m' hm' hp => hlater ⟨m', hm', hp⟩
      rw [writes] at hstays
      rw [hstays, hlast, write, Function.update_self]

/-- **The marks of a copy are those that are carried over.** -/
theorem writes_iff {input : ι → Bool} (hclean : Clean moves) (p : κ) :
    writes input moves (fun _ => false) p = true ↔ ∃ q, (q, p) ∈ moves ∧ input q = true := by
  constructor
  · intro h
    by_cases hmem : ∃ m ∈ moves, m.2 = p
    · obtain ⟨⟨q, p'⟩, hm, hp⟩ := hmem
      obtain rfl : p' = p := hp
      rw [writes_of_mem hclean hm] at h
      exact ⟨q, hm, h⟩
    · rw [writes_of_not_mem fun m hm hp => hmem ⟨m, hm, hp⟩] at h
      cases h
  · rintro ⟨q, hm, hq⟩
    rw [writes_of_mem hclean hm]
    exact hq

end Scatter
