import Mathlib.Data.List.Basic

/-!
# Lists in two halves

A list and a number that divides it: before it stand the elements of one kind, from it on those of the other
kind, and these are in order (`IsHalved`).

* `IsHalved.cons`, `IsHalved.insert` — a new element in either half;
* `IsHalved.eraseIdx_down`, `IsHalved.eraseIdx_top` — an element of either half is taken out;
* `IsHalved.set_iff` — an element is replaced where it stands, which works precisely if the new one fits there
  (`FitsAt`).
-/

namespace Halves

variable {α : Type}

/-- The element comes before the first one that satisfies `before`, or to the end. -/
def insertBefore (before : α → Bool) (x : α) : List α → List α
  | [] => [x]
  | y :: l => if before y then x :: y :: l else y :: insertBefore before x l

structure IsHalved (top : α → Prop) (le : α → α → Prop) (l : List α) (n : Nat) : Prop where
  count : n ≤ l.length
  down : ∀ x ∈ l.take n, ¬ top x
  tops : ∀ x ∈ l.drop n, top x
  sorted : (l.drop n).Pairwise le

/-- The element may stand at a place of the list: it is of the kind of this half, and in the half that is in
order it comes after those before it and before those after it. -/
def FitsAt (top : α → Prop) (le : α → α → Prop) (l : List α) (n i : Nat) (x : α) : Prop :=
  (top x ↔ n ≤ i) ∧ (n ≤ i → (∀ y ∈ (l.take i).drop n, le y x) ∧ ∀ y ∈ l.drop (i + 1), le x y)

variable {top : α → Prop} {le : α → α → Prop} {l d t : List α} {n i : Nat} {x : α}

theorem isHalved_nil : IsHalved top le [] 0 := ⟨Nat.le_refl 0, nofun, nofun, List.Pairwise.nil⟩

theorem isHalved_append : IsHalved top le (d ++ t) d.length ↔
    (∀ x ∈ d, ¬ top x) ∧ (∀ x ∈ t, top x) ∧ t.Pairwise le := by
  constructor
  · rintro ⟨-, hdown, htops, hsorted⟩
    rw [List.take_left] at hdown
    rw [List.drop_left] at htops hsorted
    exact ⟨hdown, htops, hsorted⟩
  · rintro ⟨hdown, htops, hsorted⟩
    refine ⟨?_, ?_, ?_, ?_⟩
    · rw [List.length_append]
      exact Nat.le_add_right _ _
    · rwa [List.take_left]
    · rwa [List.drop_left]
    · rwa [List.drop_left]

theorem IsHalved.split (h : IsHalved top le l n) : ∃ d t, l = d ++ t ∧ n = d.length :=
  ⟨l.take n, l.drop n, (List.take_append_drop n l).symm, (List.length_take_of_le h.count).symm⟩

theorem IsHalved.cons (h : IsHalved top le l n) (hx : ¬ top x) : IsHalved top le (x :: l) (n + 1) := by
  refine ⟨Nat.succ_le_succ h.count, ?_, h.tops, h.sorted⟩
  intro y hy
  rw [List.take_succ_cons, List.mem_cons] at hy
  rcases hy with rfl | hy
  · exact hx
  · exact h.down y hy

/-! ### A new element in the half that is in order -/

theorem mem_insertBefore {before : α → Bool} {y : α} : y ∈ insertBefore before x l ↔ y = x ∨ y ∈ l := by
  induction l with
  | nil =>
    rw [insertBefore, List.mem_singleton]
    exact (or_iff_left List.not_mem_nil).symm
  | cons z l ih =>
    unfold insertBefore
    split
    · exact List.mem_cons
    · rw [List.mem_cons, ih, List.mem_cons, or_left_comm]

theorem insertBefore_perm (before : α → Bool) (x : α) (l : List α) : (insertBefore before x l).Perm (x :: l) := by
  induction l with
  | nil => exact List.Perm.refl _
  | cons y l ih =>
    unfold insertBefore
    split
    · exact List.Perm.refl _
    · exact (ih.cons y).trans (List.Perm.swap x y l)

theorem insertBefore_pairwise {before : α → Bool} (htrans : ∀ {a b c}, le a b → le b c → le a c)
    (hbefore : ∀ y, before y = true → le x y) (hafter : ∀ y, before y = false → le y x)
    (h : l.Pairwise le) : (insertBefore before x l).Pairwise le := by
  induction l with
  | nil => exact List.pairwise_singleton _ _
  | cons y l ih =>
    obtain ⟨hy, hl⟩ := List.pairwise_cons.mp h
    unfold insertBefore
    split
    next hxy =>
      -- what is behind `y` is behind `x`, too
      have hle := hbefore y hxy
      refine List.pairwise_cons.mpr ⟨fun z hz => ?_, h⟩
      rcases List.mem_cons.mp hz with rfl | hz
      · exact hle
      · exact htrans hle (hy z hz)
    next hxy =>
      refine List.pairwise_cons.mpr ⟨fun z hz => ?_, ih hl⟩
      rcases mem_insertBefore.mp hz with rfl | hz
      · exact hafter y (Bool.not_eq_true _ ▸ hxy)
      · exact hy z hz

theorem IsHalved.insert {before : α → Bool} (h : IsHalved top le l n) (hx : top x)
    (htrans : ∀ {a b c}, le a b → le b c → le a c) (hbefore : ∀ y, before y = true → le x y)
    (hafter : ∀ y, before y = false → le y x) :
    IsHalved top le (l.take n ++ insertBefore before x (l.drop n)) n := by
  obtain ⟨d, t, rfl, rfl⟩ := h.split
  obtain ⟨hdown, htops, hsorted⟩ := isHalved_append.mp h
  rw [List.take_left, List.drop_left]
  refine isHalved_append.mpr ⟨hdown, fun y hy => ?_, insertBefore_pairwise htrans hbefore hafter hsorted⟩
  rcases mem_insertBefore.mp hy with rfl | hy
  · exact hx
  · exact htops y hy

/-! ### An element taken out -/

theorem IsHalved.eraseIdx_down (h : IsHalved top le l n) (hi : i < n) :
    IsHalved top le (l.eraseIdx i) (n - 1) := by
  obtain ⟨d, t, rfl, rfl⟩ := h.split
  obtain ⟨hdown, htops, hsorted⟩ := isHalved_append.mp h
  rw [List.eraseIdx_append_of_lt_length hi, ← List.length_eraseIdx_of_lt hi]
  exact isHalved_append.mpr ⟨fun y hy => hdown y (List.mem_of_mem_eraseIdx hy), htops, hsorted⟩

theorem IsHalved.eraseIdx_top (h : IsHalved top le l n) (hi : n ≤ i) : IsHalved top le (l.eraseIdx i) n := by
  obtain ⟨d, t, rfl, rfl⟩ := h.split
  obtain ⟨hdown, htops, hsorted⟩ := isHalved_append.mp h
  rw [List.eraseIdx_append_of_length_le hi]
  exact isHalved_append.mpr
    ⟨hdown, fun y hy => htops y (List.mem_of_mem_eraseIdx hy), hsorted.sublist (List.eraseIdx_sublist _ _)⟩

/-! ### An element replaced where it stands -/

theorem exists_of_lt (hi : i < l.length) : ∃ a y b, l = a ++ y :: b ∧ i = a.length := by
  refine ⟨l.take i, l[i], l.drop (i + 1), ?_, (List.length_take_of_le (Nat.le_of_lt hi)).symm⟩
  rw [← List.drop_eq_getElem_cons hi, List.take_append_drop]

theorem pairwise_replaced {a b : List α} {y : α} (h : (a ++ y :: b).Pairwise le) :
    (a ++ x :: b).Pairwise le ↔ (∀ z ∈ a, le z x) ∧ ∀ z ∈ b, le x z := by
  obtain ⟨ha, hyb, hab⟩ := List.pairwise_append.mp h
  rw [List.pairwise_append, List.pairwise_cons]
  constructor
  · rintro ⟨-, ⟨hx, -⟩, hax⟩
    exact ⟨fun z hz => hax z hz x List.mem_cons_self, hx⟩
  · rintro ⟨hax, hxb⟩
    refine ⟨ha, ⟨hxb, (List.pairwise_cons.mp hyb).2⟩, fun z hz w hw => ?_⟩
    rcases List.mem_cons.mp hw with rfl | hw
    · exact hax z hz
    · exact hab z hz w (List.mem_cons_of_mem _ hw)

/-- **Replacement.** The list stays halved precisely if the new element fits. -/
theorem IsHalved.set_iff (h : IsHalved top le l n) (hi : i < l.length) :
    IsHalved top le (l.set i x) n ↔ FitsAt top le l n i x := by
  obtain ⟨d, t, rfl, rfl⟩ := h.split
  obtain ⟨hdown, htops, hsorted⟩ := isHalved_append.mp h
  unfold FitsAt
  by_cases hlt : i < d.length
  · -- among the elements of the first kind, only the kind matters
    obtain ⟨a, y, b, rfl, rfl⟩ := exists_of_lt hlt
    have hset : (a ++ y :: b ++ t).set a.length x = (a ++ x :: b) ++ t := by
      rw [List.append_assoc, List.set_append_right _ _ (Nat.le_refl _), Nat.sub_self]
      simp
    have hlen : (a ++ y :: b).length = (a ++ x :: b).length := by simp
    rw [hset, hlen, isHalved_append]
    rw [hlen] at hlt
    constructor
    · rintro ⟨hnew, -, -⟩
      refine ⟨iff_of_false (hnew x (by simp)) (Nat.not_le.mpr hlt), fun hle => ?_⟩
      exact absurd hlt (Nat.not_lt.mpr hle)
    · rintro ⟨hkind, -⟩
      refine ⟨fun z hz => ?_, htops, hsorted⟩
      rcases List.mem_append.mp hz with hz | hz
      · exact hdown z (List.mem_append_left _ hz)
      · rcases List.mem_cons.mp hz with rfl | hz
        · exact fun htop => absurd hlt (Nat.not_lt.mpr (hkind.mp htop))
        · exact hdown z (List.mem_append_right _ (List.mem_cons_of_mem _ hz))
  · -- among those of the second kind, also the order
    have hle : d.length ≤ i := Nat.not_lt.mp hlt
    obtain ⟨k, rfl⟩ := Nat.exists_eq_add_of_le hle
    have hk : k < t.length := by
      rw [List.length_append] at hi
      exact Nat.lt_of_add_lt_add_left hi
    obtain ⟨a, y, b, rfl, rfl⟩ := exists_of_lt hk
    have hset : (d ++ (a ++ y :: b)).set (d.length + a.length) x = d ++ (a ++ x :: b) := by
      rw [List.set_append_right _ _ hle, Nat.add_sub_cancel_left, List.set_append_right _ _ (Nat.le_refl _),
        Nat.sub_self]
      rfl
    have htake : ((d ++ (a ++ y :: b)).take (d.length + a.length)).drop d.length = a := by
      rw [List.take_append, List.drop_append]
      simp
    have hdrop : (d ++ (a ++ y :: b)).drop (d.length + a.length + 1) = b := by
      rw [Nat.add_assoc, List.drop_append]
      simp
    rw [hset, htake, hdrop, isHalved_append, pairwise_replaced hsorted]
    constructor
    · rintro ⟨-, hnew, horder⟩
      exact ⟨iff_of_true (hnew x (by simp)) hle, fun _ => horder⟩
    · rintro ⟨hkind, horder⟩
      refine ⟨hdown, fun z hz => ?_, horder hle⟩
      rcases List.mem_append.mp hz with hz | hz
      · exact htops z (List.mem_append_left _ hz)
      · rcases List.mem_cons.mp hz with rfl | hz
        · exact hkind.mpr hle
        · exact htops z (List.mem_append_right _ (List.mem_cons_of_mem _ hz))

theorem IsHalved.fitsAt_self (h : IsHalved top le l n) (hi : i < l.length) (hx : l[i] = x) :
    FitsAt top le l n i x := by
  subst hx
  have hset := h.set_iff (x := l[i]) hi
  rw [List.set_getElem_self] at hset
  exact hset.mp h

end Halves
