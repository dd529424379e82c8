import Mathlib.Data.List.Basic

/-!
# Streams in blocks

A list is cut into blocks of `n` elements (`blocks`), and a state goes through them one after the other. A program does
not have the list at once: it gathers elements in a buffer and processes it when it is full (`feed`). The two come to
the same: what has been fed is a number of whole blocks, which have been processed, and less than one in the buffer
(`foldl_feed`).
-/

namespace Moonlight

namespace BlockStream

variable {α σ : Type*} {n : Nat}

/-- The blocks of a list. What is left at the end, if it is no whole block, is dropped. -/
def blocks (n : Nat) (l : List α) : List (List α) := (List.range (l.length / n)).map fun i => (l.drop (n * i)).take n

theorem blocks_of_lt {l : List α} (h : l.length < n) : blocks n l = [] := by
  rw [blocks, Nat.div_eq_of_lt h]
  rfl

theorem blocks_append {block rest : List α} (hn : 0 < n) (h : block.length = n) :
    blocks n (block ++ rest) = block :: blocks n rest := by
  have hcount : (block ++ rest).length / n = rest.length / n + 1 := by
    rw [List.length_append, h, Nat.add_comm, Nat.add_div_right _ hn]
  rw [blocks, hcount, List.range_succ_eq_map, List.map_cons, List.map_map, Nat.mul_zero, List.drop_zero,
    List.take_left' h]
  refine congrArg (block :: ·) (List.map_congr_left fun i _ => ?_)
  rw [Function.comp_apply, Nat.mul_succ, Nat.add_comm, ← List.drop_drop, List.drop_left' h]

theorem blocks_self {block : List α} (hn : 0 < n) (h : block.length = n) : blocks n block = [block] := by
  have happend := @blocks_append _ n block [] hn h
  rw [List.append_nil, blocks_of_lt (l := []) hn] at happend
  exact happend

theorem blocks_append_of_dvd {l rest : List α} (hn : 0 < n) (h : n ∣ l.length) :
    blocks n (l ++ rest) = blocks n l ++ blocks n rest := by
  obtain ⟨k, hk⟩ := h
  induction k generalizing l with
  | zero =>
    obtain rfl := List.length_eq_zero_iff.mp hk
    rw [List.nil_append, blocks_of_lt (l := []) hn, List.nil_append]
  | succ k ih =>
    have hfirst : (l.take n).length = n := by
      rw [List.length_take, hk, Nat.mul_succ]
      exact Nat.min_eq_left (Nat.le_add_left _ _)
    have hlater : (l.drop n).length = n * k := by
      rw [List.length_drop, hk, Nat.mul_succ, Nat.add_sub_cancel]
    have hsplit := ih hlater
    rw [← List.take_append_drop n l, List.append_assoc, blocks_append hn hfirst, hsplit, blocks_append hn hfirst,
      List.cons_append]

/-! ### Feeding -/

variable (process : σ → List α → σ)

/-- An element goes into the buffer, which is processed when it is full. -/
def feed (n : Nat) (s : σ × List α) (x : α) : σ × List α :=
  if s.2.length + 1 = n then (process s.1 (s.2 ++ [x]), []) else (s.1, s.2 ++ [x])

/-- What comes of feeding a list: the whole blocks of it are processed, and the rest is in the buffer. -/
structure Fed (n : Nat) (s₀ : σ) (fed : List α) (s : σ × List α) : Prop where
  whole : ∃ full, fed = full ++ s.2 ∧ n ∣ full.length ∧ s.1 = (blocks n full).foldl process s₀
  rest : s.2.length < n

variable {process}

theorem Fed.nil (hn : 0 < n) (s₀ : σ) : Fed process n s₀ [] (s₀, []) where
  whole := ⟨[], rfl, Nat.dvd_zero n, by rw [blocks_of_lt (l := []) hn, List.foldl_nil]⟩
  rest := hn

theorem Fed.feed {s₀ : σ} {fed : List α} {s : σ × List α} (h : Fed process n s₀ fed s) (x : α) :
    Fed process n s₀ (fed ++ [x]) (feed process n s x) := by
  obtain ⟨⟨full, rfl, hdvd, hstate⟩, hrest⟩ := h
  have hn : 0 < n := Nat.zero_lt_of_lt hrest
  rw [BlockStream.feed]
  by_cases hfull : s.2.length + 1 = n
  · -- the buffer becomes one more whole block
    have hblock : (s.2 ++ [x]).length = n := by rw [List.length_append, List.length_singleton, hfull]
    rw [if_pos hfull]
    refine ⟨⟨full ++ (s.2 ++ [x]), ?_, ?_, ?_⟩, hn⟩
    · rw [List.append_nil, List.append_assoc]
    · rw [List.length_append, hblock]
      exact (Nat.dvd_add_right hdvd).mpr (Nat.dvd_refl n)
    · rw [blocks_append_of_dvd hn hdvd, blocks_self hn hblock, List.foldl_append, ← hstate]
      rfl
  · rw [if_neg hfull]
    refine ⟨⟨full, ?_, hdvd, hstate⟩, ?_⟩
    · rw [List.append_assoc]
    · rw [List.length_append, List.length_singleton]
      omega

theorem Fed.length_eq {s₀ : σ} {fed : List α} {s : σ × List α} (h : Fed process n s₀ fed s) :
    s.2.length = fed.length % n := by
  obtain ⟨⟨full, rfl, ⟨k, hk⟩, -⟩, hrest⟩ := h
  rw [List.length_append, hk, Nat.mul_add_mod, Nat.mod_eq_of_lt hrest]

theorem Fed.complete {s₀ : σ} {fed : List α} {s : σ × List α} (h : Fed process n s₀ fed s) (tail : List α) :
    (blocks n (fed ++ tail)).foldl process s₀ = (blocks n (s.2 ++ tail)).foldl process s.1 := by
  obtain ⟨⟨full, rfl, hdvd, hstate⟩, hrest⟩ := h
  rw [List.append_assoc, blocks_append_of_dvd (Nat.zero_lt_of_lt hrest) hdvd, List.foldl_append, ← hstate]

end BlockStream

end Moonlight
