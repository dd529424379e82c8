import Mathlib.Algebra.BigOperators.Group.List.Basic
import Mathlib.Algebra.Order.Ring.Int

/-!
# Machine words as integers

Words are integers here, and a conversion to a word is written out where a program performs one:
`Word.wrap` wraps around, and is the identity on precisely the numbers a word can hold (`Word.Fits`,
`Word.wrap_eq_iff`). `toInt32` is the conversion that programs use most.
-/

namespace Words

/-- Conversion to a signed word of 32 bits. -/
def toInt32 (x : Int) : Int := Int.bmod x (2 ^ 32)

/-- The numbers a signed word of 32 bits holds. -/
def FitsInt32 (x : Int) : Prop := -2147483648 ≤ x ∧ x < 2147483648

theorem toInt32_def (x : Int) :
    toInt32 x = if x % 4294967296 < 2147483648 then x % 4294967296
      else x % 4294967296 - 4294967296 := by
  have hword : ((2 ^ 32 : Nat) : Int) = 4294967296 := rfl
  unfold toInt32
  rw [Int.bmod_def, hword]
  rfl

theorem toInt32_of_fits {x : Int} (h : FitsInt32 x) : toInt32 x = x := by
  obtain ⟨hlo, hhi⟩ := h
  rw [toInt32_def]
  split <;> omega

theorem toInt32_le {x : Int} (h : 0 ≤ x) : toInt32 x ≤ x := by
  rw [toInt32_def]
  split <;> omega

/-! ### Words of any width -/

/-- A machine word type: its bytes, at least one, and whether it is signed. -/
structure Word where
  last : Nat
  signed : Bool
  deriving DecidableEq, Repr

namespace Word

def size (t : Word) : Nat := t.last + 1

/-- How many values there are. -/
def card (t : Word) : Nat := 256 ^ t.size

def wrap (t : Word) (x : Int) : Int := if t.signed then Int.bmod x t.card else x % t.card

/-- The numbers the word holds. -/
def Fits (t : Word) (x : Int) : Prop :=
  if t.signed then -(t.card : Int) ≤ 2 * x ∧ 2 * x < t.card else 0 ≤ x ∧ x < t.card

instance (t : Word) (x : Int) : Decidable (t.Fits x) := by
  unfold Fits
  infer_instance

theorem card_pos (t : Word) : 0 < t.card := Nat.pow_pos (by decide)

theorem two_dvd_card (t : Word) : 2 ∣ t.card := by
  unfold card size
  rw [Nat.pow_succ]
  exact Nat.dvd_mul_left_of_dvd (by decide) _

theorem wrap_eq_iff (t : Word) (x : Int) : t.wrap x = x ↔ t.Fits x := by
  have hpos := t.card_pos
  unfold wrap Fits
  cases t.signed with
  | true =>
    obtain ⟨k, hk⟩ := t.two_dvd_card
    have hhalf : (((t.card : Int) + 1) / 2) = k := by omega
    simp only [if_true]
    rw [Int.bmod_def, hhalf]
    constructor
    · intro h
      have h0 := Int.emod_nonneg x (show (t.card : Int) ≠ 0 by omega)
      have h1 := Int.emod_lt_of_pos x (show (0 : Int) < t.card by omega)
      split at h <;> omega
    · rintro ⟨hlo, hhi⟩
      by_cases hx : 0 ≤ x
      · rw [Int.emod_eq_of_lt hx (by omega), if_pos (by omega)]
      · have hmod : x % (t.card : Int) = x + t.card := by
          rw [← Int.add_emod_right, Int.emod_eq_of_lt (by omega) (by omega)]
        rw [hmod, if_neg (by omega)]
        omega
  | false =>
    simp only [Bool.false_eq_true, if_false]
    constructor
    · intro h
      rw [← h]
      exact ⟨Int.emod_nonneg x (by omega), Int.emod_lt_of_pos x (by omega)⟩
    · rintro ⟨hlo, hhi⟩
      exact Int.emod_eq_of_lt hlo hhi

theorem wrap_emod (t : Word) (x : Int) : t.wrap (x % t.card) = t.wrap x := by
  unfold wrap
  split
  · exact Int.emod_bmod x t.card
  · exact Int.emod_emod_of_dvd x (Int.dvd_refl _)

end Word

/-- The words programs name. -/
def uint8 : Word := ⟨0, false⟩
def int8 : Word := ⟨0, true⟩
def uint16 : Word := ⟨1, false⟩
def uint32 : Word := ⟨3, false⟩
def int32 : Word := ⟨3, true⟩
def uint64 : Word := ⟨7, false⟩
def int64 : Word := ⟨7, true⟩

/-! ### Fixed-width types as words -/

theorem uint8_wrap (x : UInt8) : uint8.wrap x.toNat = x.toNat := by
  refine (Word.wrap_eq_iff _ _).mpr ⟨Int.natCast_nonneg _, ?_⟩
  exact Int.ofNat_lt.mpr x.toNat_lt

theorem uint16_wrap (x : UInt16) : uint16.wrap x.toNat = x.toNat := by
  refine (Word.wrap_eq_iff _ _).mpr ⟨Int.natCast_nonneg _, ?_⟩
  exact Int.ofNat_lt.mpr x.toNat_lt

theorem uint32_wrap (x : UInt32) : uint32.wrap x.toNat = x.toNat := by
  refine (Word.wrap_eq_iff _ _).mpr ⟨Int.natCast_nonneg _, ?_⟩
  exact Int.ofNat_lt.mpr x.toNat_lt

theorem uint64_wrap (x : UInt64) : uint64.wrap x.toNat = x.toNat := by
  refine (Word.wrap_eq_iff _ _).mpr ⟨Int.natCast_nonneg _, ?_⟩
  exact Int.ofNat_lt.mpr x.toNat_lt

theorem uint8_ofInt (x : UInt8) : UInt8.ofInt x.toNat = x := by
  have h : ((x.toNat : Int) % 2 ^ 8).toNat = x.toNat := by
    have := x.toNat_lt
    omega
  rw [UInt8.ofInt, h, UInt8.ofNat_toNat]

theorem uint16_ofInt (x : UInt16) : UInt16.ofInt x.toNat = x := by
  have h : ((x.toNat : Int) % 2 ^ 16).toNat = x.toNat := by
    have := x.toNat_lt
    omega
  rw [UInt16.ofInt, h, UInt16.ofNat_toNat]

theorem uint32_ofInt (x : UInt32) : UInt32.ofInt x.toNat = x := by
  have h : ((x.toNat : Int) % 2 ^ 32).toNat = x.toNat := by
    have := x.toNat_lt
    omega
  rw [UInt32.ofInt, h, UInt32.ofNat_toNat]

theorem uint64_ofInt (x : UInt64) : UInt64.ofInt x.toNat = x := by
  have h : ((x.toNat : Int) % 2 ^ 64).toNat = x.toNat := by
    have := x.toNat_lt
    omega
  rw [UInt64.ofInt, h, UInt64.ofNat_toNat]

theorem int32_wrap (x : Int) : int32.wrap x = toInt32 x := rfl

theorem uint16_toNat_ofInt {z : Int} (hz : 0 ≤ z) (hlt : z < 2 ^ 16) : ((UInt16.ofInt z).toNat : Int) = z := by
  have hmod : (z % 2 ^ 16).toNat < 2 ^ 16 := by omega
  rw [UInt16.ofInt, UInt16.toNat_ofNat_of_lt' hmod]
  omega

theorem uint32_toNat_ofInt {z : Int} (hz : 0 ≤ z) (hlt : z < 2 ^ 32) : ((UInt32.ofInt z).toNat : Int) = z := by
  have hmod : (z % 2 ^ 32).toNat < 2 ^ 32 := by omega
  rw [UInt32.ofInt, UInt32.toNat_ofNat_of_lt' hmod]
  omega

/-! ### Unsigned words that are read as signed ones -/

theorem uint32_toInt32 (n : UInt32) : n.toInt32.toInt = toInt32 n.toNat := BitVec.toInt_eq_toNat_bmod _

theorem uint32_toInt32_of_lt {n : UInt32} (h : n.toNat < 2 ^ 31) : n.toInt32.toInt = n.toNat := by
  rw [uint32_toInt32]
  exact toInt32_of_fits ⟨by omega, by omega⟩

theorem uint32_toInt32_of_ge {n : UInt32} (h : 2 ^ 31 ≤ n.toNat) : n.toInt32.toInt < 0 := by
  have hlt := n.toNat_lt
  rw [uint32_toInt32, toInt32_def]
  omega

theorem uint32_toInt32_sub {a b : UInt32} (ha : a.toNat < 2 ^ 31) (hb : b.toNat < 2 ^ 31) :
    (a - b).toInt32.toInt = a.toNat - b.toNat := by
  rw [uint32_toInt32, UInt32.toNat_sub, toInt32_def]
  omega

end Words
