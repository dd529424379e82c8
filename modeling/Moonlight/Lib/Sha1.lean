import Mathlib.Algebra.Group.Nat.Defs
import Moonlight.Lib.BlockStream

/-!
# SHA-1

The digest of FIPS 180, for messages of whole bytes. The message is padded to a whole number of blocks of 512 bits
(`pad`). The words of a block are extended to a schedule of 80 (`schedule`), and each of these goes into one round on
five words (`round`). The names are those of the standard.

`toHex` is the lower-case hexadecimal form of bytes.
-/

namespace Moonlight

namespace Sha1

/-- Five words: a hash value, or the working variables. -/
structure Words where
  a : UInt32
  b : UInt32
  c : UInt32
  d : UInt32
  e : UInt32
  deriving DecidableEq, Repr

namespace Words

def toList (s : Words) : List UInt32 := [s.a, s.b, s.c, s.d, s.e]

def add (s t : Words) : Words := ⟨s.a + t.a, s.b + t.b, s.c + t.c, s.d + t.d, s.e + t.e⟩

theorem add_comm (s t : Words) : s.add t = t.add s := by
  rw [add, add, UInt32.add_comm t.a, UInt32.add_comm t.b, UInt32.add_comm t.c, UInt32.add_comm t.d, UInt32.add_comm t.e]

end Words

/-- The circular left shift. -/
def ROTL (n x : UInt32) : UInt32 := (x <<< n) ||| (x >>> (32 - n))

def Ch (x y z : UInt32) : UInt32 := (x &&& y) ^^^ (~~~x &&& z)

def Parity (x y z : UInt32) : UInt32 := x ^^^ y ^^^ z

def Maj (x y z : UInt32) : UInt32 := (x &&& y) ^^^ (x &&& z) ^^^ (y &&& z)

/-- The function of a round. -/
def f (t : Nat) : UInt32 → UInt32 → UInt32 → UInt32 :=
  if t < 20 then Ch else if t < 40 then Parity else if t < 60 then Maj else Parity

/-- The constant of a round. -/
def K (t : Nat) : UInt32 :=
  if t < 20 then 0x5a827999 else if t < 40 then 0x6ed9eba1 else if t < 60 then 0x8f1bbcdc else 0xca62c1d6

def initial : Words := ⟨0x67452301, 0xefcdab89, 0x98badcfe, 0x10325476, 0xc3d2e1f0⟩

/-! ### Padding -/

/-- The bytes of a word, the most significant one first. -/
def wordBytes (x : UInt32) : List UInt8 := [(x >>> 24).toUInt8, (x >>> 16).toUInt8, (x >>> 8).toUInt8, x.toUInt8]

/-- A number as 64 bits, the most significant one first. -/
def lengthBytes (n : Nat) : List UInt8 := wordBytes (UInt32.ofNat (n / 2 ^ 32)) ++ wordBytes (UInt32.ofNat n)

/-- The number of zero bytes behind the byte of the one bit, which has seven more zeros. -/
def zeros (n : Nat) : Nat := (119 - n % 64) % 64

/-- What is put behind a message. -/
def padding (n : Nat) : List UInt8 := 0x80 :: (List.replicate (zeros n) 0 ++ lengthBytes (8 * n))

def pad (m : List UInt8) : List UInt8 := m ++ padding m.length

/-! ### Blocks -/

/-- The words of a block, the most significant byte first. -/
def wordOf (block : List UInt8) (t : Nat) : UInt32 :=
  (block.getD (4 * t) 0).toUInt32 <<< 24 ||| (block.getD (4 * t + 1) 0).toUInt32 <<< 16 |||
    (block.getD (4 * t + 2) 0).toUInt32 <<< 8 ||| (block.getD (4 * t + 3) 0).toUInt32

/-- The words of the rounds. -/
def schedule (M : Nat → UInt32) (t : Nat) : UInt32 :=
  if t < 16 then M t
  else ROTL 1 (schedule M (t - 3) ^^^ schedule M (t - 8) ^^^ schedule M (t - 14) ^^^ schedule M (t - 16))

theorem schedule_of_lt (M : Nat → UInt32) {t : Nat} (h : t < 16) : schedule M t = M t := by
  rw [schedule, if_pos h]

theorem schedule_of_le (M : Nat → UInt32) {t : Nat} (h : 16 ≤ t) : schedule M t =
    ROTL 1 (schedule M (t - 3) ^^^ schedule M (t - 8) ^^^ schedule M (t - 14) ^^^ schedule M (t - 16)) := by
  rw [schedule, if_neg (Nat.not_lt_of_le h)]

def round (W : Nat → UInt32) (s : Words) (t : Nat) : Words :=
  let T := ROTL 5 s.a + f t s.b s.c s.d + s.e + K t + W t
  ⟨T, s.a, ROTL 30 s.b, s.c, s.d⟩

/-- The next hash value. -/
def compress (H : Words) (block : List UInt8) : Words :=
  ((List.range 80).foldl (round (schedule (wordOf block))) H).add H

/-- The last hash value. -/
def hash (m : List UInt8) : Words := (BlockStream.blocks 64 (pad m)).foldl compress initial

def sha1 (m : List UInt8) : List UInt8 := (hash m).toList.flatMap wordBytes

theorem length_sha1 (m : List UInt8) : (sha1 m).length = 20 := by
  rw [sha1]
  generalize hash m = H
  rfl

/-! ### Hexadecimal form -/

def hexDigit (n : Nat) : Char := "0123456789abcdef".toList.getD n '0'

def hexByte (b : UInt8) : List Char := [hexDigit (b.toNat / 16), hexDigit (b.toNat % 16)]

def toHex (bytes : List UInt8) : List Char := bytes.flatMap hexByte

end Sha1

end Moonlight
