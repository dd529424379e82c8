import Moonlight.Items.ItemAttributes
import Moonlight.Lib.Words

/-!
# Property streams

`PropWriteStream` and `PropStream` (io/fileloader.h) write and read the fields of a record: words in the
byte order of the machine, which is little endian, and strings behind a length of 16 bits. A string that
is longer is written as an empty one.

A stream to read is the bytes that are left; a read returns its value and the rest, or fails.
-/

namespace Moonlight

open Words

namespace PropStream

/-! ### Words -/

/-- The `n` low bytes of a number, the lowest first. -/
def toBytes : Nat → Nat → Bytes
  | 0, _ => []
  | n + 1, x => UInt8.ofNat x :: toBytes n (x / 256)

def fromBytes : Nat → Bytes → Option (Nat × Bytes)
  | 0, s => some (0, s)
  | _ + 1, [] => none
  | n + 1, b :: s => (fromBytes n s).map fun r => (b.toNat + 256 * r.1, r.2)

/-- `write<T>`. -/
def write (t : Word) (x : Int) : Bytes := toBytes t.size (x % t.card).toNat

/-- `read<T>`. -/
def read (t : Word) (s : Bytes) : Option (Int × Bytes) :=
  (fromBytes t.size s).map fun r => (t.wrap r.1, r.2)

theorem length_toBytes (n x : Nat) : (toBytes n x).length = n := by
  induction n generalizing x with
  | zero => rfl
  | succ n ih => rw [toBytes, List.length_cons, ih]

@[simp] theorem length_write (t : Word) (x : Int) : (write t x).length = t.size := length_toBytes _ _

theorem fromBytes_toBytes (n x : Nat) (rest : Bytes) :
    fromBytes n (toBytes n x ++ rest) = some (x % 256 ^ n, rest) := by
  induction n generalizing x with
  | zero => simp [toBytes, fromBytes, Nat.mod_one]
  | succ n ih =>
    have hlow : (UInt8.ofNat x).toNat = x % 256 := UInt8.toNat_ofNat'
    have hsplit : x % 256 ^ (n + 1) = x % 256 + 256 * (x / 256 % 256 ^ n) := by
      rw [Nat.pow_succ', Nat.mod_mul]
    simp only [toBytes, List.cons_append, fromBytes, ih, Option.map_some, hlow, hsplit]

@[simp] theorem read_write (t : Word) (x : Int) (rest : Bytes) :
    read t (write t x ++ rest) = some (t.wrap x, rest) := by
  have hpos : (0 : Int) < t.card := Int.natCast_pos.mpr t.card_pos
  have h0 : 0 ≤ x % (t.card : Int) := Int.emod_nonneg x (Int.ne_of_gt hpos)
  have hlt : (x % (t.card : Int)).toNat < 256 ^ t.size := by
    have := Int.emod_lt_of_pos x hpos
    exact (Int.toNat_lt h0).mpr this
  rw [read, write, fromBytes_toBytes, Nat.mod_eq_of_lt hlt, Option.map_some, Int.toNat_of_nonneg h0,
    t.wrap_emod]

theorem fromBytes_length {n : Nat} {s : Bytes} {r : Nat × Bytes} (h : fromBytes n s = some r) :
    r.2.length + n = s.length := by
  induction n generalizing s r with
  | zero =>
    cases h
    rfl
  | succ n ih =>
    cases s with
    | nil => cases h
    | cons b s =>
      obtain ⟨r', hr', rfl⟩ := Option.map_eq_some_iff.mp h
      rw [List.length_cons, ← ih hr']
      rfl

theorem read_length {t : Word} {s : Bytes} {r : Int × Bytes} (h : read t s = some r) :
    r.2.length + t.size = s.length := by
  obtain ⟨r', hr', rfl⟩ := Option.map_eq_some_iff.mp h
  exact fromBytes_length hr'

/-! ### Strings -/

def writeString (str : Bytes) : Bytes :=
  if str.length > 65535 then write uint16 0 else write uint16 str.length ++ str

def readString (s : Bytes) : Option (Bytes × Bytes) :=
  match read uint16 s with
  | none => none
  | some (strLen, s) =>
    if s.length < strLen.toNat then none else some (s.take strLen.toNat, s.drop strLen.toNat)

def skip (n : Nat) (s : Bytes) : Option Bytes := if s.length < n then none else some (s.drop n)

theorem readString_writeString {str : Bytes} (h : str.length ≤ 65535) (rest : Bytes) :
    readString (writeString str ++ rest) = some (str, rest) := by
  have hfits : uint16.wrap str.length = str.length := by
    refine (Word.wrap_eq_iff _ _).mpr ⟨Int.natCast_nonneg _, ?_⟩
    show (str.length : Int) < 65536
    omega
  rw [writeString, if_neg (Nat.not_lt.mpr h), List.append_assoc, readString, read_write, hfits]
  have henough : ¬ (str ++ rest).length < str.length := by simp
  simp only [Int.toNat_natCast, if_neg henough, List.take_left, List.drop_left]

end PropStream

end Moonlight
