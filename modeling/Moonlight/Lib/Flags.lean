import Mathlib.Data.List.Basic

/-!
# Words of flags

A word whose bits are flags, and the operations on it that depend on a condition. A flag may stand for several
bits; it is set if one of them is.

* `has_setIf`, `has_resetIf` — what is set after an operation, flag by flag;
* `has_bit_bit`, `bit_and_not` — flags of one bit each, which have nothing in common;
* `exchange_exact` — a flag that says whether some element of a collection is of a kind, when an element is
  taken out and another one is put in, and the flag of the one is cleared only if no other element needs it;
* `exchange_unchecked_iff` — the same if the flag is cleared without a look at the other elements, which is right
  only sometimes.
-/

namespace Flags

variable {w : Nat}

def has (flags f : BitVec w) : Bool := flags &&& f != 0#w

def setIf (c : Bool) (f flags : BitVec w) : BitVec w := if c then flags ||| f else flags

def resetIf (c : Bool) (f flags : BitVec w) : BitVec w := if c then flags &&& ~~~f else flags

variable {flags f g : BitVec w}

theorem has_eq_true : has flags f = true ↔ flags &&& f ≠ 0#w := bne_iff_ne

theorem has_zero (f : BitVec w) : has 0#w f = false := by
  rw [has, BitVec.zero_and]
  exact bne_self_eq_false _

theorem has_or (flags f g : BitVec w) : has (flags ||| f) g = (has flags g || has f g) := by
  rw [Bool.eq_iff_iff, Bool.or_eq_true, has_eq_true, has_eq_true, has_eq_true, BitVec.and_or_distrib_right, Ne,
    BitVec.or_eq_zero_iff, not_and_or]

theorem has_setIf (c : Bool) (f flags g : BitVec w) :
    has (setIf c f flags) g = (has flags g || (c && has f g)) := by
  cases c with
  | false => rw [Bool.false_and, Bool.or_false]; rfl
  | true => rw [Bool.true_and]; exact has_or flags f g

theorem has_and_not (hdisjoint : has f g = true → g &&& ~~~f = 0#w) :
    has (flags &&& ~~~f) g = (has flags g && !has f g) := by
  cases hfg : has f g with
  | true =>
    have hzero : flags &&& ~~~f &&& g = 0#w := by
      rw [BitVec.and_assoc, BitVec.and_comm _ g, hdisjoint hfg, BitVec.and_zero]
    rw [has, hzero, Bool.not_true, Bool.and_false]
    exact bne_self_eq_false _
  | false =>
    have hg : ~~~f &&& g = g := by
      have hfg : f &&& g = 0#w := by simpa [has] using hfg
      calc ~~~f &&& g = (f &&& g) ||| (~~~f &&& g) := by rw [hfg, BitVec.zero_or]
        _ = (f ||| ~~~f) &&& g := BitVec.and_or_distrib_right.symm
        _ = g := by rw [BitVec.or_not_self, BitVec.allOnes_and]
    rw [has, BitVec.and_assoc, hg, Bool.not_false, Bool.and_true]
    rfl

theorem has_resetIf (c : Bool) (hdisjoint : has f g = true → g &&& ~~~f = 0#w) :
    has (resetIf c f flags) g = (has flags g && !(c && has f g)) := by
  cases c with
  | false => rw [Bool.false_and, Bool.not_false, Bool.and_true]; rfl
  | true => rw [Bool.true_and]; exact has_and_not hdisjoint

/-! ### Flags of one bit -/

theorem has_bit_bit {i : Nat} (hi : i < w) (j : Nat) : has (1#w <<< i) (1#w <<< j) = decide (i = j) := by
  rw [← BitVec.twoPow_eq, ← BitVec.twoPow_eq, has, BitVec.and_twoPow, BitVec.getLsbD_twoPow]
  by_cases h : i = j
  · subst h
    have hne : BitVec.twoPow w i ≠ 0#w := by
      intro hzero
      have hbit := BitVec.getLsbD_twoPow (w := w) i i
      rw [hzero, BitVec.getLsbD_zero, decide_eq_true hi, decide_eq_true rfl] at hbit
      cases hbit
    rw [decide_eq_true hi, decide_eq_true rfl, Bool.and_self, if_pos rfl]
    exact bne_iff_ne.mpr hne
  · rw [decide_eq_false h, Bool.and_false, if_neg Bool.false_ne_true]
    exact bne_self_eq_false _

theorem bit_and_not {i j : Nat} (hi : i < w) (h : has (1#w <<< i) (1#w <<< j) = true) :
    (1#w <<< j) &&& ~~~(1#w <<< i) = 0#w := by
  rw [has_bit_bit hi, decide_eq_true_iff] at h
  rw [h]
  exact BitVec.and_not_self _

/-! ### A flag for a collection

The collection has the elements `others` and, before, the element `old` and, after, the element `new`; here
these say whether one of them is of the kind. -/

theorem exchange_exact {flag old new others seen : Bool} (hflag : flag = (old || others))
    (hseen : seen = others ∨ seen = (new || others)) :
    ((flag && !(old && !seen)) || new) = (new || others) := by
  subst hflag
  rcases hseen with hseen | hseen
  · subst hseen
    cases old <;> cases new <;> cases seen <;> rfl
  · subst hseen
    cases old <;> cases new <;> cases others <;> rfl

theorem exchange_unchecked_iff {flag old new others : Bool} (hflag : flag = (old || others)) :
    ((flag && !old) || new) = (new || others) ↔ (old = true → new = true ∨ others = false) := by
  subst hflag
  cases old <;> cases new <;> cases others <;> decide

end Flags
