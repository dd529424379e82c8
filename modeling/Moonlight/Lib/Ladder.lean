import Mathlib.Algebra.Order.BigOperators.Group.Finset

/-!
# Ladders

A place on a ladder is a level and a number of steps above it; `req l` steps lead up to level `l`. The steps below a
place (`total`) say where it is, as long as it lies below the next level (`unique`). A climb that ends there has ended
at the right place, however it was made.

`Reaches` are the levels that a climb passes, on a ladder whose levels get longer. `fall` is where one stands after
losing steps, and `fall_eq` reads it off from the total.
-/

namespace Ladder

variable (req : Nat → Nat)

/-- The steps up to a level. -/
def sum (level : Nat) : Nat := ∑ l ∈ Finset.range level, req (l + 1)

/-- The steps up to a place. -/
def total (level steps : Nat) : Nat := sum req level + steps

/-- With so many steps, one comes from one level to the other, past levels that get longer. -/
structure Reaches (level total l : Nat) : Prop where
  le : level ≤ l
  increasing : ∀ c, level ≤ c → c < l → req c < req (c + 1)
  sum_le : sum req l ≤ total

/-- Where one stands with so many steps left, coming from above: the level and the steps above it. Who has lost more
than everything stands on the ground. -/
def fall (ground level total lost : Nat) : Nat × Nat :=
  if total < lost then (ground, 0)
  else
    let l := Nat.findGreatest (fun l => sum req l ≤ total - lost) level
    (l, total - lost - sum req l)

variable {req}

theorem sum_zero : sum req 0 = 0 := rfl

theorem sum_succ (level : Nat) : sum req (level + 1) = sum req level + req (level + 1) :=
  Finset.sum_range_succ (fun l => req (l + 1)) level

theorem total_add (level steps n : Nat) : total req level (steps + n) = total req level steps + n :=
  (Nat.add_assoc _ _ _).symm

theorem sum_mono : Monotone (sum req) :=
  monotone_nat_of_le_succ fun level => by
    rw [sum_succ]
    exact Nat.le_add_right _ _

theorem sum_eq_zero {level : Nat} (h : ∀ l, l ≤ level → req l = 0) : sum req level = 0 :=
  Finset.sum_eq_zero fun l hl => h (l + 1) (Finset.mem_range.mp hl)

theorem sum_le_sum {req' : Nat → Nat} {level : Nat} (h : ∀ l, l ≤ level → req l ≤ req' l) :
    sum req level ≤ sum req' level :=
  Finset.sum_le_sum fun l hl => h (l + 1) (Finset.mem_range.mp hl)

theorem sum_lt_sum {req' : Nat → Nat} {level l : Nat} (h : ∀ l, l ≤ level → req l ≤ req' l) (hl : l ≤ level)
    (hpos : 0 < l) (hlt : req l < req' l) : sum req level < sum req' level := by
  refine Finset.sum_lt_sum (fun c hc => h (c + 1) (Finset.mem_range.mp hc)) ⟨l - 1, ?_, ?_⟩
  · exact Finset.mem_range.mpr (Nat.lt_of_lt_of_le (Nat.sub_one_lt (Nat.ne_of_gt hpos)) hl)
  · rwa [Nat.sub_add_cancel hpos]

theorem Reaches.refl {level n : Nat} (h : sum req level ≤ n) : Reaches req level n level where
  le := Nat.le_refl level
  increasing _ hle hlt := absurd hlt (Nat.not_lt.mpr hle)
  sum_le := h

theorem Reaches.of_succ {level n l : Nat} (h : Reaches req (level + 1) n l) (hlt : req level < req (level + 1)) :
    Reaches req level n l where
  le := Nat.le_of_succ_le h.le
  increasing c hle hc := by
    rcases Nat.eq_or_lt_of_le hle with rfl | hgt
    · exact hlt
    · exact h.increasing c hgt hc
  sum_le := h.sum_le

theorem Reaches.trans {level n n' l l' : Nat} (h : Reaches req level n l) (h' : Reaches req l n' l') :
    Reaches req level n' l' where
  le := Nat.le_trans h.le h'.le
  increasing c hle hc := by
    by_cases hcl : c < l
    · exact h.increasing c hle hcl
    · exact h'.increasing c (Nat.le_of_not_lt hcl) hc
  sum_le := h'.sum_le

theorem Reaches.eq_of_last {level n l : Nat} (h : Reaches req level n l) (hlast : ¬ req level < req (level + 1)) :
    l = level := by
  by_contra hne
  exact hlast (h.increasing level (Nat.le_refl level) (Nat.lt_of_le_of_ne h.le (Ne.symm hne)))

theorem Reaches.mono {level n n' l : Nat} (h : Reaches req level n l) (hle : n ≤ n') : Reaches req level n' l :=
  { h with sum_le := Nat.le_trans h.sum_le hle }

theorem fall_eq {ground level n lost l steps : Nat} (hl : l ≤ level) (htotal : total req l steps + lost = n)
    (hbelow : l = level ∨ steps < req (l + 1)) : fall req ground level n lost = (l, steps) := by
  have hlost : ¬ n < lost := Nat.not_lt.mpr (htotal ▸ Nat.le_add_left _ _)
  have hleft : n - lost = total req l steps := by omega
  have hgreatest : Nat.findGreatest (fun l => sum req l ≤ n - lost) level = l := by
    refine (Nat.findGreatest_eq_iff).mpr ⟨hl, fun _ => ?_, fun c hlc hc hsum => ?_⟩
    · rw [hleft]
      exact Nat.le_add_right _ _
    · rcases hbelow with rfl | hsteps
      · exact absurd hc (Nat.not_le.mpr hlc)
      · have hnext : sum req (l + 1) ≤ sum req c := sum_mono hlc
        rw [sum_succ] at hnext
        rw [hleft, total] at hsum
        omega
  rw [fall, if_neg hlost]
  dsimp only
  rw [hgreatest, hleft, total, Nat.add_sub_cancel_left]

theorem fall_total {ground level n lost : Nat} (h : lost ≤ n) :
    total req (fall req ground level n lost).1 (fall req ground level n lost).2 + lost = n := by
  have hgreatest : sum req (Nat.findGreatest (fun l => sum req l ≤ n - lost) level) ≤ n - lost :=
    Nat.findGreatest_spec (P := fun l => sum req l ≤ n - lost) (Nat.zero_le level) (Nat.zero_le _)
  rw [fall, if_neg (Nat.not_lt.mpr h)]
  dsimp only [total]
  omega

theorem fall_all {ground level n lost : Nat} (h : n < lost) : fall req ground level n lost = (ground, 0) := if_pos h

theorem fall_ground_or_le (ground level n lost : Nat) :
    (fall req ground level n lost).1 = ground ∨ (fall req ground level n lost).1 ≤ level := by
  rw [fall]
  split
  · exact .inl rfl
  · exact .inr (Nat.findGreatest_le level)

theorem le_fall {ground level n lost : Nat} (hreq : ∀ l, l ≤ ground → req l = 0) (h : ground ≤ level) :
    ground ≤ (fall req ground level n lost).1 := by
  rw [fall]
  split
  · exact Nat.le_refl ground
  · refine Nat.le_findGreatest h ?_
    rw [sum_eq_zero hreq]
    exact Nat.zero_le _

theorem fall_succ {ground level steps lost : Nat} (h : steps < lost) :
    fall req ground (level + 1) (total req (level + 1) steps) lost =
      fall req ground level (total req level (req (level + 1))) (lost - steps) := by
  have htotal : total req level (req (level + 1)) = sum req (level + 1) := (sum_succ level).symm
  have hleft : total req (level + 1) steps - lost = sum req (level + 1) - (lost - steps) := by
    unfold total
    omega
  rw [htotal, fall, fall, hleft]
  by_cases hall : sum req (level + 1) < lost - steps
  · rw [if_pos hall, if_pos (by unfold total; omega)]
  · rw [if_neg hall, if_neg (by unfold total; omega), Nat.findGreatest_of_not (by omega)]

end Ladder
