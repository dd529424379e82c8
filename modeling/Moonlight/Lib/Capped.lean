import Mathlib.Data.List.Basic

/-!
# Lists walked up to a limit

A loop over a list that counts what it passes and stops when the counter, which need not start at 0, reaches a
limit: once to collect what it passes (`walk`), once to find at what count an element is (`search`).
`search_eq_some_iff` and `walk_eq_take` bring both down to positions in the list.
-/

namespace Capped

variable {α : Type} (limit : Nat)

/-- The elements that are passed before the counter has reached the limit. -/
def walk : List α → Nat → List α
  | [], _ => []
  | x :: l, count => if count + 1 = limit then [x] else x :: walk l (count + 1)

variable {limit}

theorem walk_eq_take {l : List α} {count : Nat} (h : count < limit) :
    walk limit l count = l.take (limit - count) := by
  induction l generalizing count with
  | nil => rw [walk, List.take_nil]
  | cons x l ih =>
    unfold walk
    split
    next heq =>
      have hone : limit - count = 1 := by omega
      rw [hone]
      rfl
    next hne =>
      have hlt : count + 1 < limit := Nat.lt_of_le_of_ne h hne
      have hsub : limit - count = limit - (count + 1) + 1 := by omega
      rw [ih hlt, hsub, List.take_succ_cons]

theorem mem_of_mem_walk {x : α} {l : List α} {count : Nat} (h : x ∈ walk limit l count) : x ∈ l := by
  induction l generalizing count with
  | nil => exact h
  | cons y l ih =>
    unfold walk at h
    split at h
    · rw [List.mem_singleton.mp h]
      exact List.mem_cons_self
    · obtain rfl | hrest := List.mem_cons.mp h
      · exact List.mem_cons_self
      · exact List.mem_cons_of_mem _ (ih hrest)

section Search

variable (limit) [DecidableEq α]

/-- The count at which the element is found, unless the limit is reached before. -/
def search (t : α) : List α → Nat → Option Nat
  | [], _ => none
  | x :: l, count =>
    if x = t then some count else if count + 1 ≥ limit then none else search t l (count + 1)

variable {limit} {t : α} {l l' : List α} {count k : Nat}

theorem search_eq_some_iff (hl : l.Nodup) (h : count < limit) :
    search limit t l count = some k ↔ count ≤ k ∧ k < limit ∧ l[k - count]? = some t := by
  induction l generalizing count with
  | nil =>
    refine iff_of_false nofun ?_
    rintro ⟨-, -, hget⟩
    rw [List.getElem?_nil] at hget
    cases hget
  | cons x l ih =>
    obtain ⟨hx, hl⟩ := List.nodup_cons.mp hl
    unfold search
    split
    next heq =>
      subst heq
      constructor
      · intro hk
        cases hk
        rw [Nat.sub_self]
        exact ⟨Nat.le_refl _, h, rfl⟩
      · rintro ⟨hle, -, hget⟩
        -- the element is nowhere else in the list
        cases hsub : k - count with
        | zero => rw [Nat.le_antisymm hle (Nat.le_of_sub_eq_zero hsub)]
        | succ j =>
          rw [hsub, List.getElem?_cons_succ] at hget
          exact absurd (List.mem_of_getElem? hget) hx
    next hne =>
      have hnext : ∀ k, count ≤ k → (x :: l)[k - count]? = some t →
          count + 1 ≤ k ∧ l[k - (count + 1)]? = some t := by
        intro k hle hget
        cases hsub : k - count with
        | zero =>
          rw [hsub] at hget
          exact absurd (Option.some.inj hget) hne
        | succ j =>
          rw [hsub, List.getElem?_cons_succ] at hget
          have hj : k - (count + 1) = j := by omega
          exact ⟨by omega, hj ▸ hget⟩
      split
      next hfull =>
        refine iff_of_false nofun ?_
        rintro ⟨hle, hlt, hget⟩
        exact absurd (Nat.lt_of_le_of_lt (hnext k hle hget).1 hlt) (Nat.not_lt.mpr hfull)
      next hroom =>
        rw [ih hl (Nat.not_le.mp hroom)]
        constructor
        · rintro ⟨hle, hlt, hget⟩
          have hsub : k - count = k - (count + 1) + 1 := by omega
          refine ⟨Nat.le_of_succ_le hle, hlt, ?_⟩
          rwa [hsub, List.getElem?_cons_succ]
        · rintro ⟨hle, hlt, hget⟩
          obtain ⟨hle', hget'⟩ := hnext k hle hget
          exact ⟨hle', hlt, hget'⟩

end Search

end Capped
