import Mathlib.Data.List.Basic

/-!
# Formats

A `Format` writes a value as a list of symbols and reads one back from the front of a stream, with the
rest of the stream; it carries the proof that reading undoes writing whatever follows. Records of fields
are built with `prod` and `iso`, and what runs along a stream uses two facts only: `read_write`, and that
a read never makes a stream longer.
-/

structure Format (β α : Type) where
  write : α → List β
  read : List β → Option (α × List β)
  read_write : ∀ a rest, read (write a ++ rest) = some (a, rest)
  read_length : ∀ {s r}, read s = some r → r.2.length ≤ s.length

namespace Format

variable {β α α' : Type}

attribute [simp] read_write

/-- One value after another. -/
def prod (f : Format β α) (g : Format β α') : Format β (α × α') where
  write a := f.write a.1 ++ g.write a.2
  read s :=
    match f.read s with
    | none => none
    | some (a, s) => (g.read s).map fun r => ((a, r.1), r.2)
  read_write a rest := by
    rw [List.append_assoc, f.read_write]
    dsimp only
    rw [g.read_write]
    rfl
  read_length {s r} h := by
    cases hf : f.read s with
    | none => simp [hf] at h
    | some p =>
      simp only [hf] at h
      obtain ⟨q, hq, rfl⟩ := Option.map_eq_some_iff.mp h
      exact Nat.le_trans (g.read_length hq) (f.read_length hf)

/-- The format of a type whose values another one represents. -/
def iso (f : Format β α) (rep : α' → α) (ofRep : α → α') (hof : ∀ a, ofRep (rep a) = a) :
    Format β α' where
  write a := f.write (rep a)
  read s := (f.read s).map fun r => (ofRep r.1, r.2)
  read_write a rest := by
    rw [f.read_write, Option.map_some, hof]
  read_length {s r} h := by
    obtain ⟨q, hq, rfl⟩ := Option.map_eq_some_iff.mp h
    exact f.read_length hq

end Format
