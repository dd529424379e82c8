import Mathlib.Algebra.Order.Ring.Abs

/-!
# Digital straight lines

Somebody who has `a` to go one way and `b` the other walks on the points of a grid and stays as close to the straight
line as they can. A step is decided by how far three of the neighbors are from the line: a step up is taken if the
neighbor ahead is further from it than the one above or the one across, and then a step ahead if the neighbor above is
further from it than one of the other two, or if nothing is left to go up.

`Near` says that a point is at most half a step away from the line. It is kept by every step, and each step goes on in
the direction with more to go (`step_near`), so that the walk is over after as many steps as there are to go in that
direction (`walk_near`).
-/

namespace DigitalLine

/-- What is left to go, ahead and up. -/
@[ext] structure Togo where
  ahead : ℤ
  up : ℤ

/-- How far a point is from the line through the first and the last one, up to a factor. -/
def deviation (a b : ℤ) (t : Togo) : ℤ := a * t.up - b * t.ahead

/-- What three neighbors deviate by. -/
structure Choice where
  hor : ℤ
  ver : ℤ
  cross : ℤ

def choice (a b : ℤ) (t : Togo) : Choice where
  hor := |deviation a b ⟨t.ahead - 1, t.up⟩|
  ver := |deviation a b ⟨t.ahead, t.up - 1⟩|
  cross := |deviation a b ⟨t.ahead - 1, t.up - 1⟩|

/-- The way ahead is not the best. -/
def Choice.Rises (c : Choice) : Prop := c.ver < c.hor ∨ c.cross < c.hor

/-- The way up is not the best. -/
def Choice.Advances (c : Choice) : Prop := c.hor < c.ver ∨ c.cross < c.ver

instance (c : Choice) : Decidable c.Rises := inferInstanceAs (Decidable (_ ∨ _))

instance (c : Choice) : Decidable c.Advances := inferInstanceAs (Decidable (_ ∨ _))

/-- What is left to go up after a step, where `c` is the choice. -/
def Togo.rise (t : Togo) (c : Choice) : ℤ := if t.up ≠ 0 ∧ (t.ahead = 0 ∨ c.Rises) then t.up - 1 else t.up

/-- A step: up first, and then ahead. -/
def Togo.move (t : Togo) (c : Choice) : Togo where
  ahead := if t.ahead ≠ 0 ∧ (t.rise c = 0 ∨ c.Advances) then t.ahead - 1 else t.ahead
  up := t.rise c

def step (a b : ℤ) (t : Togo) : Togo := t.move (choice a b t)

theorem Togo.move_congr (t : Togo) {c c' : Choice} (h : t.ahead ≠ 0 → t.up ≠ 0 → c = c') : t.move c = t.move c' := by
  by_cases hahead : t.ahead = 0
  · have hrise : t.rise c = t.rise c' := by
      rw [rise, rise, hahead]
      simp only [true_or, and_true]
    have hstays (c : Choice) : (t.move c).ahead = t.ahead := if_neg fun hboth => hboth.1 hahead
    exact Togo.ext ((hstays c).trans (hstays c').symm) hrise
  by_cases hup : t.up = 0
  · have hrise (c : Choice) : t.rise c = 0 := (if_neg fun hboth => hboth.1 hup).trans hup
    have hgoes (c : Choice) : (t.move c).ahead = t.ahead - 1 := if_pos ⟨hahead, Or.inl (hrise c)⟩
    exact Togo.ext ((hgoes c).trans (hgoes c').symm) ((hrise c).trans (hrise c').symm)
  · rw [h hahead hup]

/-- At most half a step away from the line, and neither beyond the first nor beyond the last point. -/
structure Near (a b : ℤ) (t : Togo) : Prop where
  ahead_nonneg : 0 ≤ t.ahead
  ahead_le : t.ahead ≤ a
  up_nonneg : 0 ≤ t.up
  up_le : t.up ≤ b
  half : 2 * |deviation a b t| ≤ max a b

theorem near_start {a b : ℤ} (ha : 0 ≤ a) (hb : 0 ≤ b) : Near a b ⟨a, b⟩ := by
  refine ⟨ha, le_refl a, hb, le_refl b, ?_⟩
  have hzero : deviation a b ⟨a, b⟩ = 0 := by
    show a * b - b * a = 0
    rw [mul_comm, sub_self]
  rw [hzero, abs_zero, mul_zero]
  exact le_max_of_le_left ha

/-- A step goes on by one or not at all, in both directions. -/
structure Goes (t t' : Togo) : Prop where
  ahead : t'.ahead = t.ahead ∨ t.ahead ≠ 0 ∧ t'.ahead = t.ahead - 1
  up : t'.up = t.up ∨ t.up ≠ 0 ∧ t'.up = t.up - 1

theorem Togo.move_goes (t : Togo) (c : Choice) : Goes t (t.move c) := by
  constructor
  · rw [move]
    dsimp only
    split
    · rename_i h
      exact Or.inr ⟨h.1, rfl⟩
    · exact Or.inl rfl
  · rw [move, rise]
    dsimp only
    split
    · rename_i h
      exact Or.inr ⟨h.1, rfl⟩
    · exact Or.inl rfl

section

variable {a b : ℤ} {t : Togo}

theorem Near.of_goes (h : Near a b t) {t' : Togo} (hgoes : Goes t t') (hhalf : 2 * |deviation a b t'| ≤ max a b) :
    Near a b t' := by
  obtain ⟨ha0, hal, hu0, hul, -⟩ := h
  obtain ⟨hahead, hup⟩ := hgoes
  exact ⟨by omega, by omega, by omega, by omega, hhalf⟩

/-- What is known of a point before a step, with the two products as numbers of their own. -/
structure Facts (a b u v p q : ℤ) : Prop where
  u_nonneg : 0 ≤ u
  u_le : u ≤ a
  v_nonneg : 0 ≤ v
  v_le : v ≤ b
  half : 2 * |p - q| ≤ max a b
  p_zero : v = 0 → p = 0
  q_zero : u = 0 → q = 0
  p_one : v = 1 → p = a
  q_one : u = 1 → q = b
  p_ge : 1 ≤ v → a ≤ p
  q_ge : 1 ≤ u → b ≤ q
  q_two : 2 ≤ u → 2 * b ≤ q
  level : a = b → p = q ∨ a ≤ |p - q|

theorem Near.facts (h : Near a b t) : Facts a b t.ahead t.up (a * t.up) (b * t.ahead) where
  u_nonneg := h.ahead_nonneg
  u_le := h.ahead_le
  v_nonneg := h.up_nonneg
  v_le := h.up_le
  half := h.half
  p_zero hv := by rw [hv, mul_zero]
  q_zero hu := by rw [hu, mul_zero]
  p_one hv := by rw [hv, mul_one]
  q_one hu := by rw [hu, mul_one]
  p_ge hv := le_mul_of_one_le_right (h.ahead_nonneg.trans h.ahead_le) hv
  q_ge hu := le_mul_of_one_le_right (h.up_nonneg.trans h.up_le) hu
  q_two hu := by
    rw [mul_comm]
    exact mul_le_mul_of_nonneg_left hu (h.up_nonneg.trans h.up_le)
  level hab := by
    subst hab
    rw [← mul_sub, abs_mul, abs_of_nonneg (h.ahead_nonneg.trans h.ahead_le)]
    rcases eq_or_ne t.up t.ahead with heq | hne
    · rw [heq]
      exact Or.inl rfl
    · exact Or.inr (le_mul_of_one_le_right (h.ahead_nonneg.trans h.ahead_le)
        (Int.one_le_abs (sub_ne_zero.mpr hne)))

theorem deviation_hor (a b u v : ℤ) : deviation a b ⟨u - 1, v⟩ = a * v - b * u + b := by
  show a * v - b * (u - 1) = _
  rw [mul_sub_one]
  omega

theorem deviation_ver (a b u v : ℤ) : deviation a b ⟨u, v - 1⟩ = a * v - b * u - a := by
  show a * (v - 1) - b * u = _
  rw [mul_sub_one]
  omega

theorem deviation_cross (a b u v : ℤ) : deviation a b ⟨u - 1, v - 1⟩ = a * v - b * u + b - a := by
  show a * (v - 1) - b * (u - 1) = _
  rw [mul_sub_one, mul_sub_one]
  omega

theorem rises_iff (a b : ℤ) (t : Togo) : (choice a b t).Rises ↔
    |a * t.up - b * t.ahead - a| < |a * t.up - b * t.ahead + b| ∨
      |a * t.up - b * t.ahead + b - a| < |a * t.up - b * t.ahead + b| := by
  rw [Choice.Rises, choice, deviation_hor, deviation_ver, deviation_cross]

theorem advances_iff (a b : ℤ) (t : Togo) : (choice a b t).Advances ↔
    |a * t.up - b * t.ahead + b| < |a * t.up - b * t.ahead - a| ∨
      |a * t.up - b * t.ahead + b - a| < |a * t.up - b * t.ahead - a| := by
  rw [Choice.Advances, choice, deviation_hor, deviation_ver, deviation_cross]

/-! ### The decisions -/

namespace Facts

variable {u v p q : ℤ}

theorem advances (h : Facts a b u v p q) (hle : b ≤ a) (hv : v ≠ 0) :
    |p - q + b| < |p - q - a| ∨ |p - q + b - a| < |p - q - a| := by
  obtain ⟨hu0, hua, hv0, hvb, hhalf, -, -, -, -, -, -, -, hlevel⟩ := h
  rw [max_eq_left hle] at hhalf
  simp only [abs_eq_max_neg] at *
  omega

theorem rises (h : Facts a b u v p q) (hlt : a < b) (hu : u ≠ 0) :
    |p - q - a| < |p - q + b| ∨ |p - q + b - a| < |p - q + b| := by
  obtain ⟨hu0, hua, hv0, hvb, hhalf, -, -, -, -, -, -, -, -⟩ := h
  rw [max_eq_right hlt.le] at hhalf
  simp only [abs_eq_max_neg] at *
  omega

theorem half_hor (h : Facts a b u v p q) (hle : b ≤ a) (hu : u ≠ 0)
    (hbest : v = 0 ∨ ¬ (|p - q - a| < |p - q + b| ∨ |p - q + b - a| < |p - q + b|)) : 2 * |p - q + b| ≤ a := by
  obtain ⟨hu0, hua, hv0, hvb, hhalf, hpzero, -, -, -, -, hqge, -, -⟩ := h
  have hq := hqge (lt_of_le_of_ne hu0 hu.symm)
  rw [max_eq_left hle] at hhalf
  rcases hbest with hv | hbest
  · have hp := hpzero hv
    simp only [abs_eq_max_neg] at *
    omega
  · rw [not_or, not_lt, not_lt] at hbest
    simp only [abs_eq_max_neg] at *
    omega

theorem half_ver (h : Facts a b u v p q) (hlt : a < b) (hv : v ≠ 0)
    (hbest : u = 0 ∨ ¬ (|p - q + b| < |p - q - a| ∨ |p - q + b - a| < |p - q - a|)) : 2 * |p - q - a| ≤ b := by
  obtain ⟨hu0, hua, hv0, hvb, hhalf, -, hqzero, -, -, hpge, -, -, -⟩ := h
  have hp := hpge (lt_of_le_of_ne hv0 hv.symm)
  rw [max_eq_right hlt.le] at hhalf
  rcases hbest with hu | hbest
  · have hq := hqzero hu
    simp only [abs_eq_max_neg] at *
    omega
  · rw [not_or, not_lt, not_lt] at hbest
    simp only [abs_eq_max_neg] at *
    omega

theorem half_cross (h : Facts a b u v p q) (hle : b ≤ a)
    (hrises : |p - q - a| < |p - q + b| ∨ |p - q + b - a| < |p - q + b|) : 2 * |p - q + b - a| ≤ a := by
  obtain ⟨hu0, hua, hv0, hvb, hhalf, -, -, -, -, -, -, -, -⟩ := h
  rw [max_eq_left hle] at hhalf
  simp only [abs_eq_max_neg] at *
  omega

theorem half_across (h : Facts a b u v p q) (hlt : a < b) (hu : u ≠ 0)
    (hadvances : v = 1 ∨ |p - q + b| < |p - q - a| ∨ |p - q + b - a| < |p - q - a|) : 2 * |p - q + b - a| ≤ b := by
  obtain ⟨hu0, hua, hv0, hvb, hhalf, -, -, hpone, hqone, -, hqge, hqtwo, -⟩ := h
  rw [max_eq_right hlt.le] at hhalf
  simp only [abs_eq_max_neg] at *
  omega

end Facts

theorem step_ahead (h : Near a b t) (hle : b ≤ a) (hne : t.ahead ≠ 0 ∨ t.up ≠ 0) :
    Near a b (step a b t) ∧ (step a b t).ahead = t.ahead - 1 := by
  have hfacts := h.facts
  have hu : t.ahead ≠ 0 := by
    -- a point above the last one is too far away
    intro hzero
    have hv : 1 ≤ t.up := lt_of_le_of_ne h.up_nonneg (hne.resolve_left fun hu => hu hzero).symm
    have hp := hfacts.p_ge hv
    have hhalf := hfacts.half
    rw [hfacts.q_zero hzero, sub_zero, max_eq_left hle] at hhalf
    have habs := le_abs_self (a * t.up)
    have hup := h.up_le
    omega
  have hahead : (step a b t).ahead = t.ahead - 1 := by
    refine if_pos ⟨hu, ?_⟩
    by_cases hv : t.up = 0
    · refine Or.inl ?_
      rw [Togo.rise, if_neg fun hboth => hboth.1 hv]
      exact hv
    · exact Or.inr ((advances_iff a b t).mpr (hfacts.advances hle hv))
  have hhalf : 2 * |deviation a b (step a b t)| ≤ a := by
    show 2 * |deviation a b ⟨(step a b t).ahead, t.rise (choice a b t)⟩| ≤ a
    rw [hahead, Togo.rise]
    split
    · rename_i hrises
      rw [deviation_cross]
      exact hfacts.half_cross hle ((rises_iff a b t).mp (hrises.2.resolve_left hu))
    · rename_i hstays
      rw [deviation_hor]
      refine hfacts.half_hor hle hu ?_
      by_cases hv : t.up = 0
      · exact Or.inl hv
      · exact Or.inr fun hrises => hstays ⟨hv, Or.inr ((rises_iff a b t).mpr hrises)⟩
  exact ⟨h.of_goes (t.move_goes _) (hhalf.trans (le_max_left a b)), hahead⟩

theorem step_up (h : Near a b t) (hlt : a < b) (hne : t.ahead ≠ 0 ∨ t.up ≠ 0) :
    Near a b (step a b t) ∧ (step a b t).up = t.up - 1 := by
  have hfacts := h.facts
  have hv : t.up ≠ 0 := by
    -- a point beside the last one is too far away
    intro hzero
    have hu : 1 ≤ t.ahead := lt_of_le_of_ne h.ahead_nonneg (hne.resolve_right fun hv => hv hzero).symm
    have hq := hfacts.q_ge hu
    have hhalf := hfacts.half
    rw [hfacts.p_zero hzero, zero_sub, abs_neg, max_eq_right hlt.le] at hhalf
    have habs := le_abs_self (b * t.ahead)
    have hahead := h.ahead_le
    omega
  have hup : (step a b t).up = t.up - 1 := by
    refine if_pos ⟨hv, ?_⟩
    by_cases hu : t.ahead = 0
    · exact Or.inl hu
    · exact Or.inr ((rises_iff a b t).mpr (hfacts.rises hlt hu))
  have hhalf : 2 * |deviation a b (step a b t)| ≤ b := by
    have hrise : t.rise (choice a b t) = t.up - 1 := hup
    rw [step, Togo.move, hrise]
    split
    · rename_i hadvances
      rw [deviation_cross]
      refine hfacts.half_across hlt hadvances.1 ?_
      rcases hadvances.2 with hlast | hbest
      · exact Or.inl (sub_eq_zero.mp hlast)
      · exact Or.inr ((advances_iff a b t).mp hbest)
    · rename_i hstays
      rw [deviation_ver]
      refine hfacts.half_ver hlt hv ?_
      by_cases hu : t.ahead = 0
      · exact Or.inl hu
      · exact Or.inr fun hadvances => hstays ⟨hu, Or.inr ((advances_iff a b t).mpr hadvances)⟩
  exact ⟨h.of_goes (t.move_goes _) (hhalf.trans (le_max_right a b)), hup⟩

end

/-! ### The walk -/

/-- The longer of the two ways. -/
def Togo.rest (a b : ℤ) (t : Togo) : ℤ := if b ≤ a then t.ahead else t.up

/-- **A step stays near the line, and goes on in the direction with more to go.** -/
theorem step_near {a b : ℤ} {t : Togo} (h : Near a b t) (hne : t.ahead ≠ 0 ∨ t.up ≠ 0) :
    Near a b (step a b t) ∧ (step a b t).rest a b = t.rest a b - 1 := by
  by_cases hle : b ≤ a
  · obtain ⟨hnear, hahead⟩ := step_ahead h hle hne
    rw [Togo.rest, Togo.rest, if_pos hle, if_pos hle]
    exact ⟨hnear, hahead⟩
  · obtain ⟨hnear, hup⟩ := step_up h (not_le.mp hle) hne
    rw [Togo.rest, Togo.rest, if_neg hle, if_neg hle]
    exact ⟨hnear, hup⟩

theorem Near.done_iff {a b : ℤ} {t : Togo} (h : Near a b t) : t.ahead = 0 ∧ t.up = 0 ↔ t.rest a b = 0 := by
  constructor
  · rintro ⟨hahead, hup⟩
    rw [Togo.rest, hahead, hup, ite_self]
  · intro hrest
    by_contra hne
    rw [not_and_or] at hne
    obtain ⟨hnear, hless⟩ := step_near h hne
    rw [hrest] at hless
    have hahead := hnear.ahead_nonneg
    have hup := hnear.up_nonneg
    rw [Togo.rest] at hless
    split at hless
    · omega
    · omega

/-- **The walk is over after as many steps as there are to go the longer way, and not before.** -/
theorem walk_near {a b : ℤ} (ha : 0 ≤ a) (hb : 0 ≤ b) {k : ℕ} (hk : (k : ℤ) ≤ max a b) :
    Near a b ((step a b)^[k] ⟨a, b⟩) ∧ ((step a b)^[k] ⟨a, b⟩).rest a b = max a b - k := by
  induction k with
  | zero =>
    refine ⟨near_start ha hb, ?_⟩
    rw [Function.iterate_zero, id, Nat.cast_zero, sub_zero, Togo.rest]
    split
    · rename_i hle
      exact (max_eq_left hle).symm
    · rename_i hlt
      exact (max_eq_right (not_le.mp hlt).le).symm
  | succ k ih =>
    rw [Nat.cast_succ] at hk ⊢
    obtain ⟨hnear, hrest⟩ := ih (by omega)
    rw [Function.iterate_succ_apply']
    have hne : ¬ _ := fun hdone => by
      have hzero := hnear.done_iff.mp hdone
      omega
    obtain ⟨hnear', hrest'⟩ := step_near hnear (not_and_or.mp hne)
    exact ⟨hnear', by omega⟩

end DigitalLine
