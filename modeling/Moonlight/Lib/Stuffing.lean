import Mathlib.Data.List.Basic

/-!
# Byte stuffing

A payload is sent over an alphabet in which some symbols are *controls*: every control symbol of the
payload is preceded by the escape symbol `esc`, itself a control. The receiver walks the stuffed
text with one bit of memory, "the previous symbol was an unconsumed escape", and drops exactly the
symbols that set it.

* `stuff` / `unstuff` — the two directions, and `unstuff_stuff`, that the second undoes the first;
* `Inert` — texts in which every control is consumed by an escape, which is what a scanner that
  skips escaped symbols may step over without seeing a control.
-/

namespace Stuffing

variable {α : Type} (esc : α) (ctl : α → Bool)

/-- Precede every control symbol by the escape. -/
def stuff : List α → List α
  | [] => []
  | a :: as => if ctl a then esc :: a :: stuff as else a :: stuff as

/-- The receiving filter, with its memory bit: `escaped` says that the previous symbol was an escape
that is still to be consumed. A symbol is dropped when it sets the bit. -/
def unstuff [DecidableEq α] (escaped : Bool) : List α → List α
  | [] => []
  | a :: as =>
    let escaped' := decide (a = esc) && !escaped
    if escaped' then unstuff escaped' as else a :: unstuff escaped' as

@[simp] theorem stuff_nil : stuff esc ctl [] = [] := rfl

@[simp] theorem unstuff_nil [DecidableEq α] (b : Bool) : unstuff esc b [] = [] := rfl

theorem stuff_cons_ctl {a : α} (h : ctl a = true) (as : List α) :
    stuff esc ctl (a :: as) = esc :: a :: stuff esc ctl as := by
  simp [stuff, h]

theorem stuff_cons_plain {a : α} (h : ctl a = false) (as : List α) :
    stuff esc ctl (a :: as) = a :: stuff esc ctl as := by
  simp [stuff, h]

theorem stuff_eq_nil_iff (as : List α) : stuff esc ctl as = [] ↔ as = [] := by
  cases as with
  | nil => simp
  | cons a as => by_cases h : ctl a <;> simp [stuff, h]

/-- **The receiver undoes the sender**, provided the escape is itself a control: an unescaped
occurrence of it never reaches the channel. -/
theorem unstuff_stuff [DecidableEq α] (hesc : ctl esc = true) (as : List α) :
    unstuff esc false (stuff esc ctl as) = as := by
  induction as with
  | nil => rfl
  | cons a as ih =>
    cases h : ctl a with
    | true =>
      -- the escape sets the bit and is dropped; `a` clears it, whatever `a` is
      rw [stuff_cons_ctl esc ctl h]
      simp [unstuff, ih]
    | false =>
      have hne : a ≠ esc := fun he => by rw [he, hesc] at h; exact absurd h (by simp)
      rw [stuff_cons_plain esc ctl h]
      simp [unstuff, hne, ih]

/-- Texts in which no control stands unescaped: a scanner that skips the symbol after each escape
meets no control in them. -/
inductive Inert : List α → Prop
  | nil : Inert []
  | plain {a : α} {as : List α} (h : ctl a = false) (hs : Inert as) : Inert (a :: as)
  | escaped (a : α) {as : List α} (hs : Inert as) : Inert (esc :: a :: as)

theorem inert_stuff (as : List α) : Inert esc ctl (stuff esc ctl as) := by
  induction as with
  | nil => exact .nil
  | cons a as ih =>
    cases h : ctl a with
    | true => rw [stuff_cons_ctl esc ctl h]; exact .escaped a ih
    | false => rw [stuff_cons_plain esc ctl h]; exact .plain h ih

end Stuffing
