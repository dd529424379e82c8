import Mathlib.Algebra.Group.Nat.Defs
import Mathlib.Data.List.Basic

/-!
# One-time passwords

HMAC (RFC 2104) over a hash function with blocks of 64 bytes, and the HOTP value (RFC 4226) with it: four bytes of the
code, which its last byte chooses, make a number of 31 bits, whose last decimal digits are the password.

`numberOf` is the number that bytes are, the most significant one first, and `decimal` the last digits of a number.
-/

namespace Moonlight

namespace Hotp

/-! ### The standards -/

section

variable (H : List UInt8 → List UInt8)

/-- The key as a block; one that is longer is hashed first. -/
def keyBlock (K : List UInt8) : List UInt8 :=
  let K := if 64 < K.length then H K else K
  K ++ List.replicate (64 - K.length) 0

def hmac (K text : List UInt8) : List UInt8 :=
  H ((keyBlock H K).map (· ^^^ 0x5c) ++ H ((keyBlock H K).map (· ^^^ 0x36) ++ text))

end

def numberOf (bytes : List UInt8) : Nat := bytes.foldl (fun n b => 256 * n + b.toNat) 0

/-- Dynamic truncation, of a code of 20 bytes: `String[19]` chooses four bytes, without their first bit. -/
def truncate (code : List UInt8) : Nat :=
  let offset := (code.getD 19 0).toNat % 16
  numberOf ((code.drop offset).take 4) % 2 ^ 31

/-- The last decimal digits of a number. -/
def decimal : (digits : Nat) → Nat → List Char
  | 0, _ => []
  | digits + 1, n => decimal digits (n / 10) ++ [Nat.digitChar (n % 10)]

/-- The HOTP value for a counter, which is the 8 bytes of `text`. -/
def hotp (H : List UInt8 → List UInt8) (digits : Nat) (K text : List UInt8) : List Char :=
  decimal digits (truncate (hmac H K text) % 10 ^ digits)

/-! ### Decimal digits -/

theorem decimal_zero (digits : Nat) : decimal digits 0 = List.replicate digits '0' := by
  induction digits with
  | zero => rfl
  | succ digits ih =>
    rw [decimal, Nat.zero_div, ih, List.replicate_succ']
    rfl

theorem decimal_mod (digits n : Nat) : decimal digits (n % 10 ^ digits) = decimal digits n := by
  induction digits generalizing n with
  | zero => rfl
  | succ digits ih =>
    have hquotient : n % 10 ^ (digits + 1) / 10 = n / 10 % 10 ^ digits := by
      rw [Nat.pow_succ, Nat.mul_comm, Nat.mod_mul_right_div_self]
    have hlast : n % 10 ^ (digits + 1) % 10 = n % 10 :=
      Nat.mod_mod_of_dvd _ ⟨10 ^ digits, Nat.pow_succ'⟩
    rw [decimal, decimal, hquotient, ih, hlast]

theorem decimal_eq (digits n : Nat) : List.replicate (digits - (Nat.toDigits 10 n).length) '0' ++
    (Nat.toDigits 10 n).drop ((Nat.toDigits 10 n).length - digits) = decimal digits n := by
  induction digits generalizing n with
  | zero =>
    rw [Nat.zero_sub, Nat.sub_zero, List.drop_length]
    rfl
  | succ digits ih =>
    rw [decimal]
    by_cases hsmall : n < 10
    · rw [Nat.toDigits_of_lt_base hsmall, Nat.div_eq_of_lt hsmall, decimal_zero, Nat.mod_eq_of_lt hsmall,
        List.length_singleton, Nat.add_sub_cancel, Nat.sub_eq_zero_of_le (Nat.le_add_left 1 digits), List.drop_zero]
    · rw [Nat.toDigits_of_base_le (by decide) (Nat.le_of_not_lt hsmall), List.length_append, List.length_singleton,
        Nat.add_sub_add_right, Nat.add_sub_add_right, List.drop_append_of_le_length (Nat.sub_le _ _),
        ← List.append_assoc, ih]

end Hotp

end Moonlight
