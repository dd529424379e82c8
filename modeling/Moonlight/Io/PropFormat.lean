import Moonlight.Io.PropStream
import Moonlight.Lib.Format

/-!
# Formats of a property stream

`PropWriteStream::write<T>` and `PropStream::read<T>` copy the bytes of a value. For the scalar types
that is one word; a `struct` is its members in the order of their offsets.
-/

namespace Moonlight

open Words

namespace PropStream

/-- A type whose values go through a word: `toInt` converts to it and `ofInt` from it. -/
def wordFormat {α : Type} (t : Word) (toInt : α → Int) (ofInt : Int → α)
    (h : ∀ a, ofInt (t.wrap (toInt a)) = a) : Format UInt8 α where
  write a := write t (toInt a)
  read s := (read t s).map fun r => (ofInt r.1, r.2)
  read_write a rest := by
    rw [PropStream.read_write, Option.map_some, h]
  read_length {s r} hr := by
    obtain ⟨q, hq, rfl⟩ := Option.map_eq_some_iff.mp hr
    have hlen := PropStream.read_length hq
    exact Nat.le.intro hlen

theorem int32_ofInt_emod (x : Int32) : Int32.ofInt (x.toInt % (2 ^ 32 : Nat)) = x := by
  rw [Int32.ofInt_eq_iff_bmod_eq_toInt, Int.emod_bmod]
  exact Int32.toInt_bmod_size x

theorem int8_ofInt_emod (x : Int8) : Int8.ofInt (x.toInt % (2 ^ 32 : Nat)) = x := by
  have hlo : -2 ^ 7 ≤ x.toInt := x.le_toInt
  have hhi : x.toInt < 2 ^ 7 := x.toInt_lt
  rw [Int8.ofInt_eq_iff_bmod_eq_toInt, Int.bmod_def]
  split <;> omega

def u8 : Format UInt8 UInt8 := wordFormat uint8 (fun x => x.toNat) UInt8.ofInt fun x => by
  rw [uint8_wrap, uint8_ofInt]

def u16 : Format UInt8 UInt16 := wordFormat uint16 (fun x => x.toNat) UInt16.ofInt fun x => by
  rw [uint16_wrap, uint16_ofInt]

def u32 : Format UInt8 UInt32 := wordFormat uint32 (fun x => x.toNat) UInt32.ofInt fun x => by
  rw [uint32_wrap, uint32_ofInt]

def i32 : Format UInt8 Int32 := wordFormat int32 Int32.toInt Int32.ofInt fun x => by
  have h : int32.wrap x.toInt = Int.bmod x.toInt (2 ^ 32) := rfl
  rw [h]
  simp

/-- An `int32_t` that is written and read as a `uint32_t`. -/
def i32u : Format UInt8 Int32 := wordFormat uint32 Int32.toInt Int32.ofInt int32_ofInt_emod

/-- A byte-sized enumeration that is written and read as a `uint32_t`. -/
def i8u : Format UInt8 Int8 := wordFormat uint32 Int8.toInt Int8.ofInt int8_ofInt_emod

/-- A byte that is written and read as a `uint32_t`. -/
def u8u : Format UInt8 UInt8 := wordFormat uint32 (fun x => x.toNat) UInt8.ofInt fun x => by
  have hwrap : uint32.wrap x.toNat = x.toNat := by
    refine (Word.wrap_eq_iff _ _).mpr ⟨Int.natCast_nonneg _, ?_⟩
    exact Int.ofNat_lt.mpr (Nat.lt_trans x.toNat_lt (by decide))
  rw [hwrap, uint8_ofInt]

/-- A `bool`, written as a byte and read as one that is not 0. -/
def bool : Format UInt8 Bool := wordFormat uint8 (fun b => b.toNat) (· != 0) fun b => by
  cases b <;> rfl

end PropStream

end Moonlight
