import Mathlib.Data.Fintype.Card
import Moonlight.Lib.Flags

/-!
# Assignments

Finitely many keys, each of which is assigned to one holder or to none. A holder has a load, the number of keys
assigned to it, and may carry a word with one bit for each of these.

* `load_release`, `load_take` — the load after one key was released or taken;
* `Marks` — the word of a holder says which keys are assigned to it.
-/

namespace Assignment

variable {ι κ : Type*}

/-! ### Loads -/

section Load

variable [DecidableEq ι] [Fintype ι] [DecidableEq κ] {m : ι → Option κ} {i : ι}

/-- How many keys are assigned to the holder. -/
def load (m : ι → Option κ) (k : κ) : Nat := (Finset.univ.filter fun i => m i = some k).card

theorem load_release {k : κ} (h : m i = some k) (k' : κ) :
    load (Function.update m i none) k' + (if k' = k then 1 else 0) = load m k' := by
  have hkeys : (Finset.univ.filter fun j => Function.update m i none j = some k')
      = (Finset.univ.filter fun j => m j = some k').erase i := by
    ext j
    by_cases hj : j = i
    · simp [hj]
    · simp [hj]
  unfold load
  rw [hkeys]
  by_cases hk : k' = k
  · subst hk
    rw [if_pos rfl]
    exact Finset.card_erase_add_one (by simp [h])
  · rw [if_neg hk, Nat.add_zero, Finset.erase_eq_of_notMem]
    simp [h, Ne.symm hk]

theorem load_take (h : m i = none) (k k' : κ) :
    load (Function.update m i (some k)) k' = load m k' + if k' = k then 1 else 0 := by
  have hself : Function.update (Function.update m i (some k)) i none = m := by
    rw [Function.update_idem, ← h, Function.update_eq_self]
  have hrelease := load_release (m := Function.update m i (some k)) (Function.update_self i (some k) m) k'
  rw [hself] at hrelease
  exact hrelease.symm

omit [DecidableEq ι] in
theorem load_eq_zero {k : κ} (h : ∀ i, m i ≠ some k) : load m k = 0 := by
  rw [load, Finset.card_eq_zero, Finset.filter_eq_empty_iff]
  exact fun i _ => h i

end Load

/-! ### Marks -/

section Marks

variable {n : Nat} {pos : ι → Nat} {m : ι → Option κ} {k : κ} {w : BitVec n} {i : ι}

/-- The bits of the word are those of the keys that are assigned to the holder. -/
def Marks (pos : ι → Nat) (m : ι → Option κ) (k : κ) (w : BitVec n) : Prop :=
  ∀ b, w.getLsbD b = true ↔ ∃ i, pos i = b ∧ m i = some k

theorem Marks.iff (hpos : Function.Injective pos) (h : Marks pos m k w) (i : ι) :
    w.getLsbD (pos i) = true ↔ m i = some k := by
  rw [h (pos i)]
  constructor
  · rintro ⟨j, hj, hm⟩
    rwa [← hpos hj]
  · exact fun hm => ⟨i, rfl, hm⟩

theorem Marks.eq_zero_iff (hpos : Function.Injective pos) (h : Marks pos m k w) :
    w = 0#n ↔ ∀ i, m i ≠ some k := by
  constructor
  · rintro rfl i hi
    have hbit := (h.iff hpos i).mpr hi
    rw [BitVec.getLsbD_zero] at hbit
    cases hbit
  · intro hnone
    refine BitVec.eq_of_getLsbD_eq fun b _ => ?_
    rw [BitVec.getLsbD_zero, Bool.eq_false_iff, Ne, h b]
    rintro ⟨i, -, hi⟩
    exact hnone i hi

theorem marks_zero (h : ∀ i, m i ≠ some k) : Marks pos m k (0#n) := by
  intro b
  rw [BitVec.getLsbD_zero]
  exact ⟨nofun, fun ⟨i, _, hi⟩ => absurd hi (h i)⟩

variable [DecidableEq ι]

theorem Marks.of_update (hi : m i ≠ some k) {o : Option κ} (ho : o ≠ some k) (h : Marks pos m k w) :
    Marks pos (Function.update m i o) k w := by
  refine fun b => (h b).trans (exists_congr fun j => and_congr_right fun _ => ?_)
  by_cases hj : j = i
  · rw [hj, Function.update_self]
    exact iff_of_false hi ho
  · rw [Function.update_of_ne hj]

theorem Marks.release (hpos : Function.Injective pos) {w' : BitVec n}
    (hw : ∀ b, w'.getLsbD b = true ↔ w.getLsbD b = true ∧ b ≠ pos i) (h : Marks pos m k w) :
    Marks pos (Function.update m i none) k w' := by
  intro b
  rw [hw, h b]
  constructor
  · rintro ⟨⟨j, rfl, hm⟩, hb⟩
    exact ⟨j, rfl, by rwa [Function.update_of_ne fun hj => hb (congrArg pos hj)]⟩
  · rintro ⟨j, rfl, hm⟩
    have hj : j ≠ i := by
      rintro rfl
      rw [Function.update_self] at hm
      cases hm
    rw [Function.update_of_ne hj] at hm
    exact ⟨⟨j, rfl, hm⟩, fun hb => hj (hpos hb)⟩

theorem Marks.take {w' : BitVec n}
    (hw : ∀ b, w'.getLsbD b = true ↔ w.getLsbD b = true ∨ b = pos i) (h : Marks pos m k w) :
    Marks pos (Function.update m i (some k)) k w' := by
  intro b
  rw [hw, h b]
  constructor
  · rintro (⟨j, rfl, hm⟩ | rfl)
    · refine ⟨j, rfl, ?_⟩
      by_cases hj : j = i
      · rw [hj, Function.update_self]
      · rwa [Function.update_of_ne hj]
    · exact ⟨i, rfl, Function.update_self i (some k) m⟩
  · rintro ⟨j, rfl, hm⟩
    by_cases hj : j = i
    · exact .inr (congrArg pos hj)
    · rw [Function.update_of_ne hj] at hm
      exact .inl ⟨j, rfl, hm⟩

end Marks

end Assignment
