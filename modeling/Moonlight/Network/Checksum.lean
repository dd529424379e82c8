import Moonlight.Lib.Adler
import Moonlight.Network.OutputMessage

/-!
# The checksum of output messages

`adlerChecksum` (utils/tools.cpp) takes the remainders of its two sums after every 5552 bytes only. The sums have 32
bits; as long as they do not wrap around, they are those of `Adler.absorb` (`checksumBlock_eq`), and from reduced sums
they do not (`Adler.absorb_lt`). So the checksum is Adler-32, with a remainder after every byte.
-/

namespace Moonlight.Checksum

open Adler

/-- The two sums of the source, after a byte. -/
def addByte (s : UInt32 × UInt32) (x : UInt8) : UInt32 × UInt32 := (s.1 + x.toUInt32, s.2 + (s.1 + x.toUInt32))

/-- The two sums of the source, after a block. -/
def checksumBlock (s : UInt32 × UInt32) (block : Bytes) : UInt32 × UInt32 :=
  ((block.foldl addByte s).1 % 65521, (block.foldl addByte s).2 % 65521)

theorem adlerChecksum_eq {data : Bytes} (h : data.length ≤ NETWORKMESSAGE_MAXSIZE) :
    adlerChecksum data = ((data.toChunks 5552).foldl checksumBlock (1, 0)).2 <<< 16 |||
      ((data.toChunks 5552).foldl checksumBlock (1, 0)).1 := by
  rw [adlerChecksum, if_neg (Nat.not_lt_of_le h)]
  rfl

/-- The sums are these. -/
def Sees (s : UInt32 × UInt32) (sums : Sums) : Prop := s.1.toNat = sums.1 ∧ s.2.toNat = sums.2

theorem Sees.addByte {s : UInt32 × UInt32} {sums : Sums} (h : Sees s sums) {x : UInt8} (h₁ : (add sums x).1 < 2 ^ 32)
    (h₂ : (add sums x).2 < 2 ^ 32) : Sees (addByte s x) (add sums x) := by
  have hfirst : (s.1 + x.toUInt32).toNat = sums.1 + x.toNat := by
    rw [UInt32.toNat_add, UInt8.toNat_toUInt32, h.1]
    exact Nat.mod_eq_of_lt h₁
  refine ⟨hfirst, ?_⟩
  show (s.2 + (s.1 + x.toUInt32)).toNat = _
  rw [UInt32.toNat_add, hfirst, h.2]
  exact Nat.mod_eq_of_lt h₂

theorem Sees.foldl {s : UInt32 × UInt32} {sums : Sums} (h : Sees s sums) {block : Bytes}
    (hfits : ∀ front, front <+: block → (absorb sums front).1 < 2 ^ 32 ∧ (absorb sums front).2 < 2 ^ 32) :
    Sees (block.foldl Checksum.addByte s) (absorb sums block) := by
  induction block generalizing s sums with
  | nil => exact h
  | cons x block ih =>
    obtain ⟨h₁, h₂⟩ := hfits [x] ⟨block, rfl⟩
    refine ih (h.addByte h₁ h₂) fun front hfront => ?_
    exact hfits (x :: front) (List.prefix_cons_inj x |>.mpr hfront)

theorem Sees.checksumBlock {s : UInt32 × UInt32} {sums : Sums} (h : Sees s sums) (hsums : Reduced sums) {block : Bytes}
    (hlength : block.length ≤ 5552) : Sees (checksumBlock s block) (reduce (absorb sums block)) := by
  obtain ⟨h₁, h₂⟩ := h.foldl fun front hfront => absorb_lt hsums (hfront.length_le.trans hlength)
  refine ⟨?_, ?_⟩
  · exact (UInt32.toNat_mod _ _).trans (congrArg (· % 65521) h₁)
  · exact (UInt32.toNat_mod _ _).trans (congrArg (· % 65521) h₂)

theorem Sees.foldl_checksumBlock {s : UInt32 × UInt32} {sums : Sums} (h : Sees s sums) (hsums : Reduced sums)
    {blocks : List Bytes} (hlengths : ∀ block ∈ blocks, block.length ≤ 5552) :
    Sees (blocks.foldl Checksum.checksumBlock s) (blocks.foldl (fun s block => reduce (absorb s block)) sums) := by
  induction blocks generalizing s sums with
  | nil => exact h
  | cons block blocks ih =>
    obtain ⟨hblock, hblocks⟩ := List.forall_mem_cons.mp hlengths
    exact ih (h.checksumBlock hsums hblock) (reduced_reduce _) hblocks

theorem toNat_halves {a b : UInt32} (ha : a.toNat < 2 ^ 16) (hb : b.toNat < 2 ^ 16) :
    (b <<< 16 ||| a).toNat = b.toNat * 65536 + a.toNat := by
  have hlt : b.toNat <<< 16 < 2 ^ 32 := by
    rw [Nat.shiftLeft_eq]
    omega
  have hshift : (b <<< 16).toNat = b.toNat <<< 16 := (UInt32.toNat_shiftLeft b 16).trans (Nat.mod_eq_of_lt hlt)
  rw [UInt32.toNat_or, hshift, ← Nat.shiftLeft_add_eq_or_of_lt ha, Nat.shiftLeft_eq]

/-- **The checksum is Adler-32.** Within a block, both sums are the exact ones: neither wraps around. -/
theorem adlerChecksum_adler32 (data : Bytes) (hlength : data.length ≤ NETWORKMESSAGE_MAXSIZE) :
    (adlerChecksum data).toNat = adler32 data ∧
      ∀ (s : UInt32 × UInt32) (block : Bytes), s.1.toNat < base → s.2.toNat < base → block.length ≤ 5552 →
        (block.foldl addByte s).1.toNat = (absorb (s.1.toNat, s.2.toNat) block).1 ∧
          (block.foldl addByte s).2.toNat = (absorb (s.1.toNat, s.2.toNat) block).2 := by
  constructor
  · have hstart : Sees (1, 0) (1, 0) := ⟨rfl, rfl⟩
    have hreduced : Reduced (1, 0) := ⟨by decide, by decide⟩
    have hlengths : ∀ block ∈ data.toChunks 5552, block.length ≤ 5552 :=
      fun block hblock => length_of_mem_toChunks (by decide) hblock
    have hsees := hstart.foldl_checksumBlock hreduced hlengths
    -- one reduction after a block is one after every byte
    rw [foldl_blocks hreduced, flatten_toChunks (by decide)] at hsees
    obtain ⟨h₁, h₂⟩ := hsees
    obtain ⟨hlt₁, hlt₂⟩ := absorbReduced_reduced hreduced data
    rw [base] at hlt₁ hlt₂
    rw [adlerChecksum_eq hlength, toNat_halves (by omega) (by omega), h₁, h₂, adler32]
  · intro s block h₁ h₂ hblock
    have hsees : Sees s (s.1.toNat, s.2.toNat) := ⟨rfl, rfl⟩
    exact hsees.foldl fun front hfront => absorb_lt ⟨h₁, h₂⟩ (hfront.length_le.trans hblock)

theorem adlerChecksum_adler32_abc :
    [97, 98, 99].length ≤ NETWORKMESSAGE_MAXSIZE ∧ (adlerChecksum [97, 98, 99]).toNat = 0x024D0127 := by
  refine ⟨by decide, ?_⟩
  rw [(adlerChecksum_adler32 [97, 98, 99] (by decide)).1]
  decide

end Moonlight.Checksum
