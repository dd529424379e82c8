import Moonlight.Lib.Memory
import Moonlight.Lib.Sha1

/-!
# SHA-1 of texts

`transformToSHA1` (utils/tools.cpp) gathers the bytes of a text in a block of 64 and processes it when it is full. At
the end it pads the last block; where the length has no more room in it, the padding goes on in another one. The length
is counted in two halves of 32 bits.

* `processSHA1MessageBlock_eq` — a block is processed as the standard says.
* `Gathered.push` — what a byte does to the state, by the stream of blocks it stands for.
* `hashed_eq` — the hash value is that of the padded text, in both cases of the padding.
* `hexstring_eq` — the digits, which are written from the last byte to the first.
-/

namespace Moonlight

namespace Tools

open Sha1 Memory
open BlockStream (Fed)

def circularShift (bits value : UInt32) : UInt32 := (value <<< bits) ||| (value >>> (32 - bits))

/-- A word of `W` that comes from the block. -/
def blockWord (messageBlock : Nat → UInt8) (i : Nat) : UInt32 :=
  let offset := i <<< 2
  (messageBlock offset).toUInt32 <<< 24 ||| (messageBlock (offset + 1)).toUInt32 <<< 16 |||
    (messageBlock (offset + 2)).toUInt32 <<< 8 ||| (messageBlock (offset + 3)).toUInt32

/-- A word of `W` that comes from those before. -/
def nextWord (W : Array UInt32) (i : Nat) : UInt32 :=
  circularShift 1 (W.getD (i - 3) 0 ^^^ W.getD (i - 8) 0 ^^^ W.getD (i - 14) 0 ^^^ W.getD (i - 16) 0)

/-- `W`, whose words are written in order. -/
def scheduleWords (messageBlock : Nat → UInt8) : Array UInt32 :=
  let W := (List.range' 0 16).foldl (fun W i => W.push (blockWord messageBlock i)) #[]
  (List.range' 16 64).foldl (fun W i => W.push (nextWord W i)) W

/-- One of the four loops over the variables `A` to `E`. -/
def rounds (mix : UInt32 → UInt32 → UInt32 → UInt32) (constant : UInt32) (W : Array UInt32) (start : Nat)
    (s : Words) : Words :=
  (List.range' start 20).foldl (fun s i =>
    let tmp := circularShift 5 s.a + mix s.b s.c s.d + s.e + W.getD i 0 + constant
    ⟨tmp, s.a, circularShift 30 s.b, s.c, s.d⟩) s

def processSHA1MessageBlock (messageBlock : Nat → UInt8) (H : Words) : Words :=
  let W := scheduleWords messageBlock
  let s := rounds (fun B C D => (B &&& C) ||| (~~~B &&& D)) 0x5A827999 W 0 H
  let s := rounds (fun B C D => B ^^^ C ^^^ D) 0x6ED9EBA1 W 20 s
  let s := rounds (fun B C D => (B &&& C) ||| (B &&& D) ||| (C &&& D)) 0x8F1BBCDC W 40 s
  let s := rounds (fun B C D => B ^^^ C ^^^ D) 0xCA62C1D6 W 60 s
  ⟨H.a + s.a, H.b + s.b, H.c + s.c, H.d + s.d, H.e + s.e⟩

/-- The variables of `transformToSHA1`. -/
structure Hasher where
  H : Words := ⟨0x67452301, 0xEFCDAB89, 0x98BADCFE, 0x10325476, 0xC3D2E1F0⟩
  /-- 64 bytes, which are not initialised. -/
  messageBlock : Nat → UInt8 := fun _ => 0
  index : Nat := 0
  length_low : UInt32 := 0
  length_high : UInt32 := 0

namespace Hasher

/-- The loop over the characters. -/
def push (s : Hasher) (ch : UInt8) : Hasher :=
  let s := { s with messageBlock := write s.messageBlock s.index [ch], index := s.index + 1 }
  let s := { s with length_low := s.length_low + 8 }
  let s := if s.length_low = 0 then { s with length_high := s.length_high + 1 } else s
  if s.index = 64 then { s with H := processSHA1MessageBlock s.messageBlock s.H, index := 0 } else s

/-- `while (index < stop) messageBlock[index++] = 0`. -/
def fill (s : Hasher) (stop : Nat) : Hasher :=
  { s with
    messageBlock := write s.messageBlock s.index (List.replicate (stop - s.index) 0)
    index := max s.index stop }

/-- The four bytes that are written of half of the length. -/
def bigEndian (length : UInt32) : List UInt8 :=
  [(length >>> 24).toUInt8, (length >>> 16).toUInt8, (length >>> 8).toUInt8, length.toUInt8]

/-- The end of the padding, in a block that has room for the length. -/
def putLength (s : Hasher) : Words :=
  let s := s.fill 56
  let messageBlock := write s.messageBlock 56 (bigEndian s.length_high)
  let messageBlock := write messageBlock 60 (bigEndian s.length_low)
  processSHA1MessageBlock messageBlock s.H

/-- The padding. -/
def finish (s : Hasher) : Words :=
  let s := { s with messageBlock := write s.messageBlock s.index [0x80], index := s.index + 1 }
  if s.index > 56 then
    let s := s.fill 64
    putLength { s with H := processSHA1MessageBlock s.messageBlock s.H, index := 0 }
  else putLength s

end Hasher

/-- `H` at the end of `transformToSHA1`. -/
def hashed (input : List UInt8) : Words := (input.foldl Hasher.push {}).finish

def hexDigits : List Char := "0123456789abcdef".toList

/-- A byte of the hash value. The mask of the source is a remainder, also of a number below zero. -/
def hashByteOf (H : Words) (hashByte : Nat) : UInt8 :=
  (H.toList.getD (hashByte >>> 2) 0 >>> UInt32.ofNat ((((3 : Int) - hashByte) % 4).toNat <<< 3)).toUInt8

/-- The loop over `hashByte`, which counts down. -/
def hexstring (H : Words) : Nat → Char :=
  (List.range' 0 20).reverse.foldl (fun hexstring hashByte =>
    let byte := hashByteOf H hashByte
    let index := hashByte <<< 1
    write (write hexstring index [hexDigits.getD (byte >>> 4).toNat '0']) (index + 1)
      [hexDigits.getD (byte &&& 15).toNat '0']) fun _ => '0'

def transformToSHA1 (input : List UInt8) : List Char := read (hexstring (hashed input)) 0 40

/-! ### A block -/

theorem choose_eq (B C D : UInt32) : (B &&& C) ||| (~~~B &&& D) = Ch B C D := by
  rw [Ch]
  apply UInt32.eq_of_toBitVec_eq
  ext i hi
  simp only [UInt32.toBitVec_or, UInt32.toBitVec_and, UInt32.toBitVec_not, UInt32.toBitVec_xor, BitVec.getElem_or,
    BitVec.getElem_and, BitVec.getElem_not, BitVec.getElem_xor]
  cases B.toBitVec[i] <;> simp

theorem majority_eq (B C D : UInt32) : (B &&& C) ||| (B &&& D) ||| (C &&& D) = Maj B C D := by
  rw [Maj]
  apply UInt32.eq_of_toBitVec_eq
  ext i hi
  simp only [UInt32.toBitVec_or, UInt32.toBitVec_and, UInt32.toBitVec_xor, BitVec.getElem_or, BitVec.getElem_and,
    BitVec.getElem_xor]
  cases B.toBitVec[i] <;> cases C.toBitVec[i] <;> cases D.toBitVec[i] <;> rfl

/-- The words of an array, from the first on. -/
structure Fills (F : Nat → UInt32) (n : Nat) (W : Array UInt32) : Prop where
  size : W.size = n
  get : ∀ t < n, W.getD t 0 = F t

theorem Fills.foldl_push {F : Nat → UInt32} {start : Nat} {W : Array UInt32} (h : Fills F start W)
    {g : Array UInt32 → Nat → UInt32} (n : Nat) (hg : ∀ V t, start ≤ t → t < start + n → Fills F t V → g V t = F t) :
    Fills F (start + n) ((List.range' start n).foldl (fun W i => W.push (g W i)) W) := by
  induction n generalizing start W with
  | zero => exact h
  | succ n ih =>
    have hpush : Fills F (start + 1) (W.push (g W start)) := by
      refine ⟨by rw [Array.size_push, h.size], fun t ht => ?_⟩
      rw [Array.getD_eq_getD_getElem?, Array.getElem?_push, h.size]
      split
      · rename_i heq
        subst heq
        exact hg W _ (Nat.le_refl _) (by omega) h
      · rw [← Array.getD_eq_getD_getElem?]
        exact h.get t (by omega)
    have hrest := ih hpush fun V t hle hlt hV => hg V t (by omega) (by omega) hV
    rw [List.range'_succ, List.foldl_cons]
    rwa [Nat.add_right_comm] at hrest

theorem blockWord_eq (messageBlock : Nat → UInt8) {t : Nat} (h : t < 16) :
    blockWord messageBlock t = wordOf (read messageBlock 0 64) t := by
  have hbyte {k : Nat} (hk : k < 64) : (read messageBlock 0 64).getD k 0 = messageBlock k := by
    rw [List.getD_eq_getElem?_getD, getElem?_read _ _ hk, Nat.zero_add, Option.getD_some]
  have hoffset : t <<< 2 = 4 * t := by rw [Nat.shiftLeft_eq, Nat.mul_comm]
  rw [blockWord, wordOf, hbyte (by omega), hbyte (by omega), hbyte (by omega), hbyte (by omega), hoffset]

theorem nextWord_eq {M : Nat → UInt32} {t : Nat} {W : Array UInt32} (h : 16 ≤ t) (hW : Fills (schedule M) t W) :
    nextWord W t = schedule M t := by
  rw [nextWord, schedule_of_le M h, hW.get _ (by omega), hW.get _ (by omega), hW.get _ (by omega), hW.get _ (by omega)]
  rfl

theorem scheduleWords_fills (messageBlock : Nat → UInt8) :
    Fills (schedule (wordOf (read messageBlock 0 64))) 80 (scheduleWords messageBlock) := by
  generalize hM : wordOf (read messageBlock 0 64) = M
  have hempty : Fills (schedule M) 0 #[] := ⟨rfl, nofun⟩
  have hblock := @Fills.foldl_push _ _ _ hempty (fun _ i => blockWord messageBlock i) 16 fun V t _ hlt _ => by
    rw [schedule_of_lt M hlt, ← hM]
    exact blockWord_eq messageBlock hlt
  rw [Nat.zero_add] at hblock
  have hlater := @Fills.foldl_push _ _ _ hblock nextWord 64 fun V t hle _ hV => nextWord_eq hle hV
  rw [scheduleWords]
  exact hlater

theorem rounds_eq {mix : UInt32 → UInt32 → UInt32 → UInt32} {constant : UInt32} {W : Array UInt32} {F : Nat → UInt32}
    (hW : Fills F 80 W) {start : Nat} (hstart : start + 20 ≤ 80)
    (h : ∀ t, start ≤ t → t < start + 20 → mix = f t ∧ constant = K t) (s : Words) :
    rounds mix constant W start s = (List.range' start 20).foldl (round F) s := by
  refine List.foldl_ext _ _ _ fun s t ht => ?_
  obtain ⟨hle, hlt⟩ := List.mem_range'_1.mp ht
  obtain ⟨hmix, hconstant⟩ := h t hle hlt
  have hsum (x : UInt32) : x + F t + K t = x + K t + F t := by
    rw [UInt32.add_assoc, UInt32.add_comm (F t), ← UInt32.add_assoc]
  rw [hW.get t (by omega), hmix, hconstant, hsum]
  rfl

/-- **A block is processed as the standard says.** -/
theorem processSHA1MessageBlock_eq (messageBlock : Nat → UInt8) (H : Words) :
    processSHA1MessageBlock messageBlock H = compress H (read messageBlock 0 64) := by
  rw [compress, Words.add_comm]
  have hW := scheduleWords_fills messageBlock
  generalize schedule (wordOf (read messageBlock 0 64)) = F at hW ⊢
  have hrange : List.range 80 = List.range' 0 20 ++ List.range' 20 20 ++ List.range' 40 20 ++ List.range' 60 20 := by
    decide
  have hchoose (s : Words) : rounds (fun B C D => (B &&& C) ||| (~~~B &&& D)) 0x5A827999
      (scheduleWords messageBlock) 0 s = (List.range' 0 20).foldl (round F) s := by
    refine rounds_eq hW (by decide) (fun t _ hlt => ⟨?_, ?_⟩) s
    · rw [f, if_pos (by omega)]
      funext B C D
      exact choose_eq B C D
    · rw [K, if_pos (by omega)]
  have hparity (s : Words) : rounds (fun B C D => B ^^^ C ^^^ D) 0x6ED9EBA1
      (scheduleWords messageBlock) 20 s = (List.range' 20 20).foldl (round F) s := by
    refine rounds_eq hW (by decide) (fun t hle hlt => ⟨?_, ?_⟩) s
    · rw [f, if_neg (by omega), if_pos (by omega)]
      rfl
    · rw [K, if_neg (by omega), if_pos (by omega)]
  have hmajority (s : Words) : rounds (fun B C D => (B &&& C) ||| (B &&& D) ||| (C &&& D)) 0x8F1BBCDC
      (scheduleWords messageBlock) 40 s = (List.range' 40 20).foldl (round F) s := by
    refine rounds_eq hW (by decide) (fun t hle hlt => ⟨?_, ?_⟩) s
    · rw [f, if_neg (by omega), if_neg (by omega), if_pos (by omega)]
      funext B C D
      exact majority_eq B C D
    · rw [K, if_neg (by omega), if_neg (by omega), if_pos (by omega)]
  have hlast (s : Words) : rounds (fun B C D => B ^^^ C ^^^ D) 0xCA62C1D6
      (scheduleWords messageBlock) 60 s = (List.range' 60 20).foldl (round F) s := by
    refine rounds_eq hW (by decide) (fun t hle hlt => ⟨?_, ?_⟩) s
    · rw [f, if_neg (by omega), if_neg (by omega), if_neg (by omega)]
      rfl
    · rw [K, if_neg (by omega), if_neg (by omega), if_neg (by omega)]
  rw [processSHA1MessageBlock, hchoose, hparity, hmajority, hlast, hrange, List.foldl_append, List.foldl_append,
    List.foldl_append]
  rfl

/-! ### The blocks of a text -/

theorem Hasher.read_write_index (s : Hasher) (ch : UInt8) :
    read (write s.messageBlock s.index [ch]) 0 (s.index + 1) = read s.messageBlock 0 s.index ++ [ch] := by
  have happend := read_write_append s.messageBlock 0 s.index [ch]
  rwa [Nat.zero_add] at happend

theorem Hasher.push_eq (s : Hasher) (ch : UInt8) : s.push ch =
    { H := if s.index + 1 = 64 then processSHA1MessageBlock (write s.messageBlock s.index [ch]) s.H else s.H
      messageBlock := write s.messageBlock s.index [ch]
      index := if s.index + 1 = 64 then 0 else s.index + 1
      length_low := s.length_low + 8
      length_high := if s.length_low + 8 = 0 then s.length_high + 1 else s.length_high } := by
  rw [push]
  by_cases hcarry : s.length_low + 8 = 0
  · by_cases hfull : s.index + 1 = 64
    · simp [hcarry, hfull]
    · simp [hcarry, hfull]
  · by_cases hfull : s.index + 1 = 64
    · simp [hcarry, hfull]
    · simp [hcarry, hfull]

/-- What the state stands for, behind some bytes: the stream of blocks, and their length in bits. -/
structure Gathered (fed : List UInt8) (s : Hasher) : Prop where
  blocks : Fed compress 64 initial fed (s.H, read s.messageBlock 0 s.index)
  length : s.length_high.toNat * 2 ^ 32 + s.length_low.toNat = 8 * fed.length

namespace Gathered

variable {fed : List UInt8} {s : Hasher}

theorem index_lt (h : Gathered fed s) : s.index < 64 := by
  have hrest := h.blocks.rest
  rwa [length_read] at hrest

theorem push (h : Gathered fed s) (ch : UInt8) (hbound : fed.length + 1 < 2 ^ 61) :
    Gathered (fed ++ [ch]) (s.push ch) := by
  refine ⟨?_, ?_⟩
  · have hfeed := h.blocks.feed ch
    rw [BlockStream.feed, length_read, ← Hasher.read_write_index] at hfeed
    rw [Hasher.push_eq]
    by_cases hfull : s.index + 1 = 64
    · rw [if_pos hfull, hfull] at hfeed
      rw [if_pos hfull, if_pos hfull, processSHA1MessageBlock_eq]
      exact hfeed
    · rw [if_neg hfull] at hfeed
      rw [if_neg hfull, if_neg hfull]
      exact hfeed
  · -- the lower half is a multiple of eight, and carries when it is zero again
    have hlength := h.length
    have hhigh := s.length_high.toNat_lt
    have hlow := s.length_low.toNat_lt
    have hnext : (s.length_low + 8).toNat = (s.length_low.toNat + 8) % 2 ^ 32 := UInt32.toNat_add _ _
    rw [Hasher.push_eq, List.length_append, List.length_singleton]
    dsimp only
    by_cases hcarry : s.length_low + 8 = 0
    · have hzero : (s.length_low + 8).toNat = 0 := congrArg UInt32.toNat hcarry
      have hup : (s.length_high + 1).toNat = (s.length_high.toNat + 1) % 2 ^ 32 := UInt32.toNat_add _ _
      have hwrapped : s.length_low.toNat + 8 = 2 ^ 32 := by
        rw [hzero] at hnext
        omega
      have hroom : s.length_high.toNat + 1 < 2 ^ 32 := by omega
      rw [if_pos hcarry, hup, hzero, Nat.mod_eq_of_lt hroom, Nat.add_zero, Nat.succ_mul]
      omega
    · have hnonzero : (s.length_low + 8).toNat ≠ 0 := fun hzero => hcarry (UInt32.toNat_inj.mp hzero)
      rw [if_neg hcarry]
      generalize (s.length_low + 8).toNat = low at hnext hnonzero ⊢
      omega

theorem foldl (h : Gathered fed s) (input : List UInt8) (hbound : fed.length + input.length < 2 ^ 61) :
    Gathered (fed ++ input) (input.foldl Hasher.push s) := by
  induction input generalizing fed s with
  | nil => rwa [List.append_nil]
  | cons ch input ih =>
    rw [List.length_cons] at hbound
    have hpush := h.push ch (by omega)
    have hrest := ih hpush (by rw [List.length_append, List.length_singleton]; omega)
    rwa [List.append_assoc] at hrest

end Gathered

/-! ### The padding -/

theorem Hasher.read_fill (s : Hasher) {stop : Nat} (h : s.index ≤ stop) :
    read (s.fill stop).messageBlock 0 stop = read s.messageBlock 0 s.index ++ List.replicate (stop - s.index) 0 := by
  have happend := read_write_append s.messageBlock 0 s.index (List.replicate (stop - s.index) 0)
  rwa [Nat.zero_add, List.length_replicate, Nat.add_sub_cancel' h] at happend

theorem Hasher.putLength_eq (s : Hasher) (h : s.index ≤ 56) : s.putLength =
    compress s.H (read s.messageBlock 0 s.index ++ List.replicate (56 - s.index) 0 ++
      (bigEndian s.length_high ++ bigEndian s.length_low)) := by
  have hhigh := read_write_append (s.fill 56).messageBlock 0 56 (bigEndian s.length_high)
  have hlow := read_write_append (write (s.fill 56).messageBlock 56 (bigEndian s.length_high)) 0 60
    (bigEndian s.length_low)
  have hfour (length : UInt32) : (bigEndian length).length = 4 := rfl
  rw [Nat.zero_add, hfour] at hhigh hlow
  rw [hhigh, s.read_fill h, List.append_assoc] at hlow
  rw [putLength, processSHA1MessageBlock_eq, ← hlow]
  rfl

theorem Hasher.finish_of_room {s : Hasher} (h : s.index + 1 ≤ 56) : s.finish =
    compress s.H (read s.messageBlock 0 s.index ++ [0x80] ++ List.replicate (56 - (s.index + 1)) 0 ++
      (bigEndian s.length_high ++ bigEndian s.length_low)) := by
  rw [← read_write_index]
  exact (if_neg (Nat.not_lt_of_le h)).trans (putLength_eq _ h)

theorem Hasher.finish_of_full {s : Hasher} (h : 56 < s.index + 1) (hle : s.index + 1 ≤ 64) : s.finish =
    compress (compress s.H (read s.messageBlock 0 s.index ++ [0x80] ++ List.replicate (64 - (s.index + 1)) 0))
      (List.replicate 56 0 ++ (bigEndian s.length_high ++ bigEndian s.length_low)) := by
  have hfill := read_fill { s with messageBlock := write s.messageBlock s.index [0x80], index := s.index + 1 } hle
  dsimp only at hfill
  rw [read_write_index] at hfill
  rw [← hfill, ← processSHA1MessageBlock_eq]
  exact (if_pos h).trans (putLength_eq _ (Nat.zero_le 56))

namespace Gathered

variable {input : List UInt8} {s : Hasher}

theorem lengthBytes_eq (h : Gathered input s) :
    Hasher.bigEndian s.length_high ++ Hasher.bigEndian s.length_low = lengthBytes (8 * input.length) := by
  have hlow := s.length_low.toNat_lt
  have hquotient : 8 * input.length / 2 ^ 32 = s.length_high.toNat := by
    rw [← h.length]
    omega
  have hrest : UInt32.ofNat (8 * input.length) = s.length_low := by
    rw [← UInt32.toNat_inj, UInt32.toNat_ofNat', ← h.length]
    omega
  rw [lengthBytes, hquotient, UInt32.ofNat_toNat, hrest]
  rfl

theorem finish_eq (h : Gathered input s) : s.finish = Sha1.hash input := by
  have hindex := h.index_lt
  have hmod := h.blocks.length_eq
  have hrest : (read s.messageBlock 0 s.index).length = s.index := length_read _ _ _
  rw [hrest] at hmod
  rw [Sha1.hash, pad, h.blocks.complete, padding, ← h.lengthBytes_eq]
  dsimp only
  by_cases hroom : s.index + 1 ≤ 56
  · have hzeros : zeros input.length = 56 - (s.index + 1) := by
      rw [zeros]
      omega
    rw [Hasher.finish_of_room hroom]
    generalize read s.messageBlock 0 s.index = rest at hrest
    have hblock : rest ++ 0x80 :: (List.replicate (zeros input.length) 0 ++
        (Hasher.bigEndian s.length_high ++ Hasher.bigEndian s.length_low)) =
      rest ++ [0x80] ++ List.replicate (56 - (s.index + 1)) 0 ++
        (Hasher.bigEndian s.length_high ++ Hasher.bigEndian s.length_low) := by
      rw [hzeros]
      simp
    have hlength : (rest ++ [0x80] ++ List.replicate (56 - (s.index + 1)) 0 ++
        (Hasher.bigEndian s.length_high ++ Hasher.bigEndian s.length_low)).length = 64 := by
      simp [Hasher.bigEndian, hrest]
      omega
    rw [hblock, BlockStream.blocks_self (by decide) hlength]
    rfl
  · have hzeros : zeros input.length = 64 - (s.index + 1) + 56 := by
      rw [zeros]
      omega
    rw [Hasher.finish_of_full (by omega) hindex]
    generalize read s.messageBlock 0 s.index = rest at hrest
    -- the zeros go on in the second block
    have hblocks : rest ++ 0x80 :: (List.replicate (zeros input.length) 0 ++
        (Hasher.bigEndian s.length_high ++ Hasher.bigEndian s.length_low)) =
      (rest ++ [0x80] ++ List.replicate (64 - (s.index + 1)) 0) ++
        (List.replicate 56 0 ++ (Hasher.bigEndian s.length_high ++ Hasher.bigEndian s.length_low)) := by
      rw [hzeros, List.replicate_add]
      simp
    have hfirst : (rest ++ [0x80] ++ List.replicate (64 - (s.index + 1)) 0).length = 64 := by
      simp [hrest]
      omega
    have hsecond : (List.replicate 56 0 ++
        (Hasher.bigEndian s.length_high ++ Hasher.bigEndian s.length_low)).length = 64 := by
      simp [Hasher.bigEndian]
    rw [hblocks, BlockStream.blocks_append (by decide) hfirst, BlockStream.blocks_self (by decide) hsecond]
    rfl

end Gathered

theorem gathered_nil : Gathered [] {} := ⟨BlockStream.Fed.nil (by decide) initial, rfl⟩

theorem hashed_eq {input : List UInt8} (h : input.length < 2 ^ 61) : hashed input = Sha1.hash input := by
  have hbound : ([] : List UInt8).length + input.length < 2 ^ 61 := by rwa [List.length_nil, Nat.zero_add]
  exact (gathered_nil.foldl input hbound).finish_eq

/-! ### The digits -/

theorem write_pair (m : Nat → Char) (i : Nat) (x y : Char) : write (write m i [x]) (i + 1) [y] = write m i [x, y] := by
  funext a
  by_cases hbelow : a < i
  · rw [write_apply_of_lt _ _ (by omega), write_apply_of_lt _ _ hbelow, write_apply_of_lt _ _ hbelow]
  obtain ⟨k, rfl⟩ := Nat.exists_eq_add_of_le (Nat.le_of_not_lt hbelow)
  match k with
  | 0 =>
    have hfirst : i + 0 < i + 1 := Nat.lt_succ_self i
    rw [write_apply_of_lt _ _ hfirst]
    simp [write]
  | 1 => simp [write]
  | k + 2 =>
    have hbeyond : i + 2 ≤ i + (k + 2) := Nat.add_le_add_left (Nat.le_add_left 2 k) i
    rw [write_apply_of_le _ hbeyond, write_apply_of_le _ (Nat.le_of_succ_le hbeyond), write_apply_of_le _ hbeyond]

theorem read_pairs (pair : Nat → List Char) (hpair : ∀ i, (pair i).length = 2) (m : Nat → Char) (start n : Nat) :
    read ((List.range' start n).reverse.foldl (fun m i => write m (2 * i) (pair i)) m) (2 * start) (2 * n) =
      (List.range' start n).flatMap pair := by
  induction n generalizing start with
  | zero => rfl
  | succ n ih =>
    have hcount : 2 * (n + 1) = (pair start).length + 2 * n := by
      rw [hpair]
      omega
    have hnext : 2 * start + (pair start).length = 2 * (start + 1) := by
      rw [hpair]
      rfl
    rw [List.range'_succ, List.reverse_cons, List.foldl_append, List.flatMap_cons, hcount, List.foldl_cons,
      List.foldl_nil, read_write_prepend, hnext, ih]

theorem hexDigits_byte (byte : UInt8) :
    [hexDigits.getD (byte >>> 4).toNat '0', hexDigits.getD (byte &&& 15).toNat '0'] = hexByte byte := by
  have hupper : (byte >>> 4).toNat = byte.toNat / 16 := by
    rw [UInt8.toNat_shiftRight, Nat.shiftRight_eq_div_pow]
    rfl
  have hlower : (byte &&& 15).toNat = byte.toNat % 16 := by
    rw [UInt8.toNat_and]
    exact Nat.and_two_pow_sub_one_eq_mod byte.toNat 4
  rw [hupper, hlower]
  rfl

theorem hashByteOf_eq (H : Words) : (List.range' 0 20).map (hashByteOf H) = H.toList.flatMap wordBytes := by
  simp [List.range', hashByteOf, Words.toList, wordBytes]

theorem hexstring_eq (H : Words) : read (hexstring H) 0 40 = toHex (H.toList.flatMap wordBytes) := by
  have hstep : (fun (hexstring : Nat → Char) hashByte =>
      let byte := hashByteOf H hashByte
      let index := hashByte <<< 1
      write (write hexstring index [hexDigits.getD (byte >>> 4).toNat '0']) (index + 1)
        [hexDigits.getD (byte &&& 15).toNat '0']) =
      fun m i => write m (2 * i) (hexByte (hashByteOf H i)) := by
    funext m i
    dsimp only
    rw [write_pair, hexDigits_byte, Nat.shiftLeft_eq, Nat.mul_comm]
  rw [hexstring, hstep, ← hashByteOf_eq, toHex, List.flatMap_map]
  exact read_pairs (fun i => hexByte (hashByteOf H i)) (fun _ => rfl) _ 0 20

/-- **SHA-1 to specification.** -/
theorem transformToSHA1_eq (input : List UInt8) (hlength : input.length < 2 ^ 61) :
    transformToSHA1 input = toHex (sha1 input) := by
  rw [transformToSHA1, hashed_eq hlength, hexstring_eq, sha1]

theorem transformToSHA1_eq_abc : transformToSHA1 [97, 98, 99] = toHex (sha1 [97, 98, 99]) :=
  transformToSHA1_eq [97, 98, 99] (by decide)

end Tools

end Moonlight
