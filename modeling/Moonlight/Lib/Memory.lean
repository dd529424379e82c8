import Mathlib.Data.List.Basic

/-!
# Memory

A memory is a function from addresses to what is stored there; it has no end, so that bounds are a matter of
the program that uses it.

* `write` — copies a list into the memory (`memcpy`, `memset`);
* `read` — the list of what is stored from an address on.

What has been written is read back (`read_write`), what is written elsewhere is not seen
(`read_write_of_disjoint`), and a longer region is read in two parts (`read_add`).
-/

namespace Memory

variable {β : Type}

def write (m : Nat → β) (start : Nat) (bytes : List β) : Nat → β := fun a =>
  if start ≤ a then bytes[a - start]?.getD (m a) else m a

def read (m : Nat → β) (start n : Nat) : List β := (List.range n).map fun i => m (start + i)

@[simp] theorem length_read (m : Nat → β) (start n : Nat) : (read m start n).length = n := by
  rw [read, List.length_map, List.length_range]

theorem getElem?_read (m : Nat → β) (start : Nat) {n i : Nat} (h : i < n) :
    (read m start n)[i]? = some (m (start + i)) := by
  rw [read, List.getElem?_map, List.getElem?_range h, Option.map_some]

theorem read_add (m : Nat → β) (start n k : Nat) :
    read m start (n + k) = read m start n ++ read m (start + n) k := by
  unfold read
  rw [List.range_add, List.map_append, List.map_map]
  refine congrArg (_ ++ ·) (List.map_congr_left fun i _ => ?_)
  rw [Function.comp_apply, Nat.add_assoc]

theorem read_congr {m m' : Nat → β} {start n : Nat} (h : ∀ a, start ≤ a → a < start + n → m a = m' a) :
    read m start n = read m' start n := by
  refine List.map_congr_left fun i hi => h _ (Nat.le_add_right _ _) ?_
  exact Nat.add_lt_add_left (List.mem_range.mp hi) start

theorem write_apply_of_lt (m : Nat → β) {start a : Nat} (bytes : List β) (h : a < start) :
    write m start bytes a = m a := if_neg (Nat.not_le.mpr h)

theorem write_apply_of_le (m : Nat → β) {start a : Nat} {bytes : List β} (h : start + bytes.length ≤ a) :
    write m start bytes a = m a := by
  unfold write
  rw [if_pos (Nat.le_trans (Nat.le_add_right _ _) h), List.getElem?_eq_none (Nat.le_sub_of_add_le' h)]
  rfl

theorem read_write (m : Nat → β) (start : Nat) (bytes : List β) :
    read (write m start bytes) start bytes.length = bytes := by
  refine List.ext_getElem? fun i => ?_
  by_cases h : i < bytes.length
  · rw [getElem?_read _ _ h]
    unfold write
    rw [if_pos (Nat.le_add_right _ _), Nat.add_sub_cancel_left, List.getElem?_eq_getElem h, Option.getD_some]
  · rw [List.getElem?_eq_none (by rw [length_read]; exact Nat.not_lt.mp h),
      List.getElem?_eq_none (Nat.not_lt.mp h)]

theorem read_write_of_disjoint (m : Nat → β) {start start' n : Nat} {bytes : List β}
    (h : start' + n ≤ start ∨ start + bytes.length ≤ start') :
    read (write m start bytes) start' n = read m start' n := by
  refine read_congr fun a hlo hhi => ?_
  rcases h with h | h
  · exact write_apply_of_lt m bytes (Nat.lt_of_lt_of_le hhi h)
  · exact write_apply_of_le m (Nat.le_trans h hlo)

theorem read_write_append (m : Nat → β) (start n : Nat) (bytes : List β) :
    read (write m (start + n) bytes) start (n + bytes.length) = read m start n ++ bytes := by
  rw [read_add, read_write, read_write_of_disjoint m (.inl (Nat.le_refl _))]

theorem read_write_prepend (m : Nat → β) (start n : Nat) (bytes : List β) :
    read (write m start bytes) start (bytes.length + n) = bytes ++ read m (start + bytes.length) n := by
  rw [read_add, read_write, read_write_of_disjoint m (.inr (Nat.le_refl _))]

end Memory
