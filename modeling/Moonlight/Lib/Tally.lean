import Mathlib.Algebra.BigOperators.Group.List.Basic
import Mathlib.Algebra.Order.Ring.Int
import Mathlib.Tactic.Abel

/-!
# Tallies

A tally is a value that is changed when something starts, is replaced or ends, and that ought to differ
from where it began by the sum over what is active. Values are in a commutative group, which machine
words are, so a tally may wrap around as often as it likes.

* `total` — the sum over what is active, and what one change of the list does to it;
* `foldl_frame`, `foldl_accumulate` — a loop over indices that adds to one accumulator per index, whatever
  else its body does to the state.
-/

namespace Tally

scoped instance instAddCommGroupInt32 : AddCommGroup Int32 where
  add_assoc := Int32.add_assoc
  zero_add := Int32.zero_add
  add_zero := Int32.add_zero
  add_comm := Int32.add_comm
  nsmul := nsmulRec
  zsmul := zsmulRec
  neg_add_cancel := Int32.add_left_neg
  sub_eq_add_neg := Int32.sub_eq_add_neg

/-! ### The sum over what is active -/

section Total

variable {α M : Type} [AddCommGroup M] (w : α → M)

def total (l : List α) : M := (l.map w).sum

@[simp] theorem total_nil : total w [] = 0 := rfl

@[simp] theorem total_cons (a : α) (l : List α) : total w (a :: l) = w a + total w l :=
  List.sum_cons

theorem total_append (l l' : List α) : total w (l ++ l') = total w l + total w l' := by
  unfold total
  rw [List.map_append, List.sum_append]

theorem total_concat (l : List α) (a : α) : total w (l ++ [a]) = total w l + w a := by
  rw [total_append, total_cons, total_nil, add_zero]

theorem total_replace (l₁ l₂ : List α) (a a' : α) :
    total w (l₁ ++ a' :: l₂) = total w (l₁ ++ a :: l₂) - w a + w a' := by
  rw [total_append, total_append, total_cons, total_cons]
  abel

theorem total_remove (l₁ l₂ : List α) (a : α) : total w (l₁ ++ l₂) = total w (l₁ ++ a :: l₂) - w a := by
  rw [total_append, total_append, total_cons]
  abel

theorem total_erase [DecidableEq α] {l : List α} {a : α} (h : a ∈ l) :
    total w (l.erase a) = total w l - w a := by
  have hperm := ((List.perm_cons_erase h).map w).sum_eq
  rw [List.map_cons, List.sum_cons] at hperm
  unfold total
  rw [hperm]
  abel

theorem total_filter_insert {l : List α} {a : α} {p q : α → Bool} (hl : l.Nodup) (ha : a ∈ l) (hp : p a = false)
    (hq : q a = true) (hsame : ∀ b, b ∈ l → b ≠ a → q b = p b) :
    total w (l.filter q) = total w (l.filter p) + w a := by
  obtain ⟨l₁, l₂, rfl⟩ := List.append_of_mem ha
  have hperm : (l₁ ++ a :: l₂).Perm (a :: (l₁ ++ l₂)) := List.perm_middle
  have hnotMem : a ∉ l₁ ++ l₂ := (List.nodup_cons.mp (hperm.nodup hl)).1
  have hothers : (l₁ ++ l₂).filter q = (l₁ ++ l₂).filter p := by
    refine List.filter_congr fun b hb => hsame b (hperm.symm.subset (List.mem_cons_of_mem a hb)) ?_
    rintro rfl
    exact hnotMem hb
  rw [List.filter_append, List.filter_append, List.filter_cons_of_pos hq,
    List.filter_cons_of_neg (Bool.not_eq_true _ ▸ hp), total_append, total_append, total_cons]
  rw [List.filter_append, List.filter_append] at hothers
  have htotal := congrArg (total w) hothers
  rw [total_append, total_append] at htotal
  rw [add_left_comm, htotal, add_comm]

theorem total_eq_zero {l : List α} (h : ∀ a ∈ l, w a = 0) : total w l = 0 := by
  induction l with
  | nil => rfl
  | cons a l ih =>
    rw [total_cons, h a List.mem_cons_self, ih fun b hb => h b (List.mem_cons_of_mem a hb), add_zero]

theorem total_apply {κ : Type} (w : α → κ → M) (l : List α) (k : κ) :
    total w l k = (l.map fun a => w a k).sum := by
  induction l with
  | nil => rfl
  | cons a l ih => rw [total_cons, Pi.add_apply, ih, List.map_cons, List.sum_cons]

theorem exists_split {l : List α} {i : Nat} {a : α} (h : l[i]? = some a) :
    ∃ l₁ l₂, l = l₁ ++ a :: l₂ ∧ l₁.length = i ∧ (∀ a', l.set i a' = l₁ ++ a' :: l₂) ∧
      l.eraseIdx i = l₁ ++ l₂ := by
  obtain ⟨hi, rfl⟩ := List.getElem?_eq_some_iff.mp h
  refine ⟨l.take i, l.drop (i + 1), ?_, List.length_take_of_le hi.le, fun a' => ?_,
    List.eraseIdx_eq_take_drop_succ l i⟩
  · rw [← List.drop_eq_getElem_cons hi, List.take_append_drop]
  · rw [List.set_eq_take_append_cons_drop, if_pos hi]

end Total

/-! ### Loops over indices -/

section Loops

variable {σ ι κ M : Type} [DecidableEq κ] [AddCommGroup M] (acc : σ → κ → M) {body : σ → ι → σ}
  {idx : ι → κ} {d : ι → M} {P : σ → Prop}

theorem foldl_of_forall_ne (hP : ∀ s i, P s → P (body s i))
    (h : ∀ s i, P s → acc (body s i) = Function.update (acc s) (idx i) (acc s (idx i) + d i))
    {k : κ} (hk : ∀ i, idx i ≠ k) (l : List ι) {s : σ} (hs : P s) : acc (l.foldl body s) k = acc s k := by
  induction l generalizing s with
  | nil => rfl
  | cons i l ih => rw [List.foldl_cons, ih (hP s i hs), h s i hs, Function.update_of_ne (hk i).symm]

theorem foldl_accumulate [DecidableEq ι] (hidx : Function.Injective idx) (hP : ∀ s i, P s → P (body s i))
    (h : ∀ s i, P s → acc (body s i) = Function.update (acc s) (idx i) (acc s (idx i) + d i))
    {l : List ι} (hl : l.Nodup) {s : σ} (hs : P s) (j : ι) :
    acc (l.foldl body s) (idx j) = if j ∈ l then acc s (idx j) + d j else acc s (idx j) := by
  induction l generalizing s with
  | nil => rw [List.foldl_nil, if_neg List.not_mem_nil]
  | cons i l ih =>
    have hi : i ∉ l := (List.nodup_cons.mp hl).1
    rw [List.foldl_cons, ih (List.nodup_cons.mp hl).2 (hP s i hs), h s i hs]
    by_cases hj : j = i
    · -- the index of this round is not met again
      subst hj
      rw [if_neg hi, if_pos List.mem_cons_self, Function.update_self]
    · rw [Function.update_of_ne fun h' => hj (hidx h')]
      by_cases hmem : j ∈ l
      · rw [if_pos hmem, if_pos (List.mem_cons_of_mem i hmem)]
      · rw [if_neg hmem, if_neg fun h' => (List.mem_cons.mp h').elim hj hmem]

end Loops

end Tally
