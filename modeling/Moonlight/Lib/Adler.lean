import Mathlib.Data.List.Basic
import Mathlib.Tactic.Ring

/-!
# Adler-32

The checksum keeps two sums: one of the bytes, and one of the first sum after every byte, both modulo 65521. An
implementation may leave out the reductions for a while (`reduce_absorb`). What it must know is how large the sums can
be by then: the first grows linearly and the second quadratically (`absorb_le`). From reduced sums, 5552 bytes are the
most after which both still fit into 32 bits (`absorb_lt`).
-/

namespace Moonlight

namespace Adler

def base : Nat := 65521

abbrev Sums := Nat × Nat

/-- A byte is added to the first sum, and that to the second. -/
def add (s : Sums) (x : UInt8) : Sums := (s.1 + x.toNat, s.2 + (s.1 + x.toNat))

def reduce (s : Sums) : Sums := (s.1 % base, s.2 % base)

def Reduced (s : Sums) : Prop := s.1 < base ∧ s.2 < base

/-- Some bytes, without reductions. -/
def absorb (s : Sums) (data : List UInt8) : Sums := data.foldl add s

/-- Some bytes, with a reduction after every one. -/
def absorbReduced (s : Sums) (data : List UInt8) : Sums := data.foldl (fun s x => reduce (add s x)) s

/-- The checksum: the second sum in the upper half. -/
def adler32 (data : List UInt8) : Nat :=
  let s := absorbReduced (1, 0) data
  s.2 * 65536 + s.1

/-! ### Leaving reductions out -/

theorem reduced_reduce (s : Sums) : Reduced (reduce s) :=
  ⟨Nat.mod_lt _ (by decide), Nat.mod_lt _ (by decide)⟩

theorem reduce_of_reduced {s : Sums} (h : Reduced s) : reduce s = s :=
  Prod.ext (Nat.mod_eq_of_lt h.1) (Nat.mod_eq_of_lt h.2)

theorem reduce_add_reduce (s : Sums) (x : UInt8) : reduce (add (reduce s) x) = reduce (add s x) := by
  refine Prod.ext ?_ ?_
  · exact Nat.mod_add_mod _ _ _
  · show (s.2 % base + (s.1 % base + x.toNat)) % base = (s.2 + (s.1 + x.toNat)) % base
    rw [Nat.mod_add_mod, Nat.add_left_comm, Nat.mod_add_mod, Nat.add_left_comm]

theorem reduce_absorb (s : Sums) (data : List UInt8) : reduce (absorb s data) = absorbReduced (reduce s) data := by
  induction data generalizing s with
  | nil => rfl
  | cons x data ih =>
    have hstep := ih (add s x)
    rw [← reduce_add_reduce] at hstep
    exact hstep

theorem foldl_blocks {s : Sums} (hs : Reduced s) (blocks : List (List UInt8)) :
    blocks.foldl (fun s block => reduce (absorb s block)) s = absorbReduced s blocks.flatten := by
  induction blocks generalizing s with
  | nil => rfl
  | cons block blocks ih =>
    rw [List.foldl_cons, ih (reduced_reduce _), reduce_absorb, reduce_of_reduced hs, List.flatten_cons, absorbReduced,
      absorbReduced, absorbReduced, List.foldl_append]

theorem absorbReduced_reduced {s : Sums} (hs : Reduced s) (data : List UInt8) : Reduced (absorbReduced s data) := by
  rw [← reduce_of_reduced hs, ← reduce_absorb]
  exact reduced_reduce _

/-! ### How large the sums get -/

theorem absorb_le (s : Sums) (data : List UInt8) :
    (absorb s data).1 ≤ s.1 + 255 * data.length ∧
      2 * (absorb s data).2 ≤ 2 * s.2 + 2 * data.length * s.1 + 255 * data.length * (data.length + 1) := by
  induction data generalizing s with
  | nil =>
    refine ⟨Nat.le_refl _, ?_⟩
    simp [absorb]
  | cons x data ih =>
    obtain ⟨hfirst, hsecond⟩ := ih (add s x)
    have hx : x.toNat ≤ 255 := Nat.lt_succ_iff.mp x.toNat_lt
    have hadd₁ : (add s x).1 ≤ s.1 + 255 := Nat.add_le_add_left hx _
    have hadd₂ : (add s x).2 ≤ s.2 + (s.1 + 255) := Nat.add_le_add_left hadd₁ _
    have hstep : absorb s (x :: data) = absorb (add s x) data := rfl
    rw [hstep, List.length_cons]
    refine ⟨by omega, hsecond.trans ?_⟩
    calc 2 * (add s x).2 + 2 * data.length * (add s x).1 + 255 * data.length * (data.length + 1)
        ≤ 2 * (s.2 + (s.1 + 255)) + 2 * data.length * (s.1 + 255) + 255 * data.length * (data.length + 1) := by gcongr
      _ = 2 * s.2 + 2 * (data.length + 1) * s.1 + 255 * (data.length + 1) * (data.length + 1 + 1) := by ring

theorem absorb_lt {s : Sums} (hs : Reduced s) {data : List UInt8} (hlength : data.length ≤ 5552) :
    (absorb s data).1 < 2 ^ 32 ∧ (absorb s data).2 < 2 ^ 32 := by
  obtain ⟨hfirst, hsecond⟩ := absorb_le s data
  obtain ⟨h₁, h₂⟩ := hs
  rw [base] at h₁ h₂
  have hlinear : 2 * data.length * s.1 ≤ 2 * 5552 * 65520 := by gcongr; omega
  have hsquare : 255 * data.length * (data.length + 1) ≤ 255 * 5552 * 5553 := by gcongr; omega
  exact ⟨by omega, by omega⟩

/-! ### Blocks -/

section

variable {α : Type*} {n : Nat}

theorem flatten_go (xs : List α) (block : Array α) (blocks : Array (List α)) :
    (List.toChunks.go n xs block blocks).flatten = blocks.toList.flatten ++ block.toList ++ xs := by
  induction xs generalizing block blocks with
  | nil => simp [List.toChunks.go]
  | cons x xs ih =>
    rw [List.toChunks.go]
    split
    · rw [ih]
      simp
    · rw [ih]
      simp

theorem length_go (hn : 0 < n) (xs : List α) (block : Array α) (blocks : Array (List α)) (hblock : block.size ≤ n)
    (hblocks : ∀ b ∈ blocks.toList, b.length ≤ n) : ∀ b ∈ List.toChunks.go n xs block blocks, b.length ≤ n := by
  have hpush {block : Array α} {blocks : Array (List α)} (hblock : block.size ≤ n)
      (hblocks : ∀ b ∈ blocks.toList, b.length ≤ n) : ∀ b ∈ (blocks.push block.toList).toList, b.length ≤ n := by
    intro b hb
    rw [Array.toList_push, List.mem_append, List.mem_singleton] at hb
    rcases hb with hb | rfl
    · exact hblocks b hb
    · exact hblock
  induction xs generalizing block blocks with
  | nil => exact hpush hblock hblocks
  | cons x xs ih =>
    rw [List.toChunks.go]
    split
    · exact ih _ _ hn (hpush hblock hblocks)
    · rename_i hfull
      refine ih _ _ ?_ hblocks
      rw [beq_iff_eq] at hfull
      rw [Array.size_push]
      omega

theorem flatten_toChunks (hn : 0 < n) (xs : List α) : (xs.toChunks n).flatten = xs := by
  obtain ⟨n, rfl⟩ := Nat.exists_eq_add_of_lt hn
  cases xs with
  | nil => rfl
  | cons x xs => exact flatten_go xs #[x] #[]

theorem length_of_mem_toChunks (hn : 0 < n) {xs b : List α} (hb : b ∈ xs.toChunks n) : b.length ≤ n := by
  obtain ⟨m, rfl⟩ := Nat.exists_eq_add_of_lt hn
  cases xs with
  | nil => cases hb
  | cons x xs => exact length_go hn xs #[x] #[] hn nofun b hb

end

end Adler

end Moonlight
