import Moonlight.Lib.Runs

/-!
# XTEA

Model of `xtea::encrypt` and `xtea::decrypt` (security/xtea.cpp). Each of the 32 rounds goes over the whole of
the data, block by block. A round of the decryption undoes the round of the encryption with the same sums
(`decryptRound_encryptRound`), and the sums of the decryption are those of the encryption, the other way
round (`decryptSums_eq`); so decryption undoes encryption, for every key (`decrypt_encrypt`).
-/

namespace Moonlight

namespace Xtea

/-- `std::array<uint32_t, 4>` -/
abbrev Key := Fin 4 → UInt32

def delta : UInt32 := 0x9E3779B9

/-! ### Words of four bytes -/

def word (b₀ b₁ b₂ b₃ : UInt8) : UInt32 :=
  b₀.toUInt32 ||| b₁.toUInt32 <<< 8 ||| b₂.toUInt32 <<< 16 ||| b₃.toUInt32 <<< 24

def bytes (x : UInt32) : List UInt8 := [x.toUInt8, (x >>> 8).toUInt8, (x >>> 16).toUInt8, (x >>> 24).toUInt8]

theorem word_bytes (x : UInt32) :
    word x.toUInt8 (x >>> 8).toUInt8 (x >>> 16).toUInt8 (x >>> 24).toUInt8 = x := by
  unfold word
  apply UInt32.eq_of_toBitVec_eq
  simp only [UInt32.toBitVec_or, UInt32.toBitVec_shiftLeft, UInt32.toBitVec_shiftRight,
    UInt8.toBitVec_toUInt32, UInt32.toBitVec_toUInt8]
  ext i hi
  simp
  grind

theorem bytes_word (b₀ b₁ b₂ b₃ : UInt8) : bytes (word b₀ b₁ b₂ b₃) = [b₀, b₁, b₂, b₃] := by
  have h₀ : (word b₀ b₁ b₂ b₃).toUInt8 = b₀ := by
    unfold word
    apply UInt8.eq_of_toBitVec_eq
    ext i hi
    simp
  have h₁ : (word b₀ b₁ b₂ b₃ >>> 8).toUInt8 = b₁ := by
    unfold word
    apply UInt8.eq_of_toBitVec_eq
    ext i hi
    simp
    grind
  have h₂ : (word b₀ b₁ b₂ b₃ >>> 16).toUInt8 = b₂ := by
    unfold word
    apply UInt8.eq_of_toBitVec_eq
    ext i hi
    simp
    grind
  have h₃ : (word b₀ b₁ b₂ b₃ >>> 24).toUInt8 = b₃ := by
    unfold word
    apply UInt8.eq_of_toBitVec_eq
    ext i hi
    simp
    grind
  unfold bytes
  rw [h₀, h₁, h₂, h₃]

/-! ### The cipher -/

/-- One round over all blocks. What is left at the end, if it is no whole block, stays. -/
def apply_rounds (round : UInt32 × UInt32 → UInt32 × UInt32) : List UInt8 → List UInt8
  | b₀ :: b₁ :: b₂ :: b₃ :: b₄ :: b₅ :: b₆ :: b₇ :: data =>
    let block := round (word b₀ b₁ b₂ b₃, word b₄ b₅ b₆ b₇)
    bytes block.1 ++ bytes block.2 ++ apply_rounds round data
  | data => data

/-- The word of the key that a sum chooses. -/
def keyAt (k : Key) (i : UInt32) : UInt32 := k ⟨(i &&& 3).toNat % 4, Nat.mod_lt _ (by decide)⟩

def encryptRound (k : Key) (sum next_sum : UInt32) (block : UInt32 × UInt32) : UInt32 × UInt32 :=
  let (left, right) := block
  let left := left + ((((right <<< 4) ^^^ (right >>> 5)) + right) ^^^ (sum + keyAt k sum))
  let right := right + ((((left <<< 4) ^^^ (left >>> 5)) + left) ^^^ (next_sum + keyAt k (next_sum >>> 11)))
  (left, right)

def decryptRound (k : Key) (sum next_sum : UInt32) (block : UInt32 × UInt32) : UInt32 × UInt32 :=
  let (left, right) := block
  let right := right - ((((left <<< 4) ^^^ (left >>> 5)) + left) ^^^ (sum + keyAt k (sum >>> 11)))
  let left := left - ((((right <<< 4) ^^^ (right >>> 5)) + right) ^^^ (next_sum + keyAt k next_sum))
  (left, right)

/-- The values of `sum` and `next_sum` in so many rounds of the encryption. -/
def encryptSums : Nat → UInt32 → UInt32 → List (UInt32 × UInt32)
  | 0, _, _ => []
  | n + 1, sum, next_sum => (sum, next_sum) :: encryptSums n next_sum (next_sum + delta)

/-- The values of `sum` and `next_sum` in so many rounds of the decryption. -/
def decryptSums : Nat → UInt32 → UInt32 → List (UInt32 × UInt32)
  | 0, _, _ => []
  | n + 1, sum, next_sum => (sum, next_sum) :: decryptSums n next_sum (next_sum - delta)

def encrypt (data : List UInt8) (k : Key) : List UInt8 :=
  Runs.run (fun data (sum, next_sum) => apply_rounds (encryptRound k sum next_sum) data) data
    (encryptSums 32 0 (0 + delta))

def decrypt (data : List UInt8) (k : Key) : List UInt8 :=
  Runs.run (fun data (sum, next_sum) => apply_rounds (decryptRound k sum next_sum) data) data
    (decryptSums 32 (delta <<< 5) ((delta <<< 5) - delta))

/-! ### Decryption undoes encryption -/

theorem decryptRound_encryptRound (k : Key) (sum next_sum : UInt32) (block : UInt32 × UInt32) :
    decryptRound k next_sum sum (encryptRound k sum next_sum block) = block := by
  obtain ⟨left, right⟩ := block
  unfold decryptRound encryptRound
  dsimp only
  rw [UInt32.add_sub_cancel, UInt32.add_sub_cancel]

@[simp] theorem length_apply_rounds (round : UInt32 × UInt32 → UInt32 × UInt32) (data : List UInt8) :
    (apply_rounds round data).length = data.length := by
  induction data using apply_rounds.induct round with
  | case1 b₀ b₁ b₂ b₃ b₄ b₅ b₆ b₇ data ih =>
    rw [apply_rounds]
    simp [bytes, ih]
  | case2 data h => rw [apply_rounds.eq_2 round data h]

theorem apply_rounds_apply_rounds {round back : UInt32 × UInt32 → UInt32 × UInt32}
    (h : ∀ block, back (round block) = block) (data : List UInt8) :
    apply_rounds back (apply_rounds round data) = data := by
  induction data using apply_rounds.induct round with
  | case1 b₀ b₁ b₂ b₃ b₄ b₅ b₆ b₇ data ih =>
    have hback : ∀ block : UInt32 × UInt32,
        apply_rounds back (bytes block.1 ++ bytes block.2 ++ apply_rounds round data) =
          bytes (back block).1 ++ bytes (back block).2 ++ data := by
      intro block
      change apply_rounds back (_ :: _ :: _ :: _ :: _ :: _ :: _ :: _ :: apply_rounds round data) = _
      rw [apply_rounds, word_bytes, word_bytes, ih]
    rw [apply_rounds, hback, h, bytes_word, bytes_word]
    rfl
  | case2 data hshort => rw [apply_rounds.eq_2 round data hshort, apply_rounds.eq_2 back data hshort]

theorem foldl_apply_rounds_undo {round back : UInt32 × UInt32 → UInt32 × UInt32 → UInt32 × UInt32}
    (h : ∀ sum block, back sum.swap (round sum block) = block) (sums : List (UInt32 × UInt32)) (data : List UInt8) :
    ((sums.map Prod.swap).reverse).foldl (fun data sum => apply_rounds (back sum) data)
      (sums.foldl (fun data sum => apply_rounds (round sum) data) data) = data := by
  have hundo : Runs.run (fun data (sum : UInt32 × UInt32) => apply_rounds (back sum.swap) data)
      (Runs.run (fun data (sum : UInt32 × UInt32) => apply_rounds (round sum) data) data sums) sums.reverse = data :=
    Runs.run_reverse (fun data (sum : UInt32 × UInt32) => apply_rounds (round sum) data)
      (fun data sum => apply_rounds_apply_rounds (h sum) data) data sums
  unfold Runs.run at hundo
  rw [← List.map_reverse, List.foldl_map]
  exact hundo

theorem decryptSums_eq : decryptSums 32 (delta <<< 5) ((delta <<< 5) - delta) =
    ((encryptSums 32 0 (0 + delta)).map Prod.swap).reverse := by
  decide

/-- **XTEA.** Decryption undoes encryption, for every key. -/
theorem decrypt_encrypt (data : List UInt8) (k : Key) : decrypt (encrypt data k) k = data := by
  unfold decrypt encrypt
  rw [decryptSums_eq]
  exact foldl_apply_rounds_undo (fun sum block => decryptRound_encryptRound k sum.1 sum.2 block) _ data

theorem encryptRound_decryptRound (k : Key) (sum next_sum : UInt32) (block : UInt32 × UInt32) :
    encryptRound k next_sum sum (decryptRound k sum next_sum block) = block := by
  obtain ⟨left, right⟩ := block
  unfold encryptRound decryptRound
  dsimp only
  rw [UInt32.sub_add_cancel, UInt32.sub_add_cancel]

theorem encryptSums_eq :
    encryptSums 32 0 (0 + delta) = ((decryptSums 32 (delta <<< 5) ((delta <<< 5) - delta)).map Prod.swap).reverse := by
  rw [decryptSums_eq, List.map_reverse, List.reverse_reverse, List.map_map, Prod.swap_swap_eq, List.map_id]

theorem encrypt_decrypt (data : List UInt8) (k : Key) : encrypt (decrypt data k) k = data := by
  unfold decrypt encrypt
  rw [encryptSums_eq]
  exact foldl_apply_rounds_undo (fun sum block => encryptRound_decryptRound k sum.1 sum.2 block) _ data

@[simp] theorem length_encrypt (data : List UInt8) (k : Key) : (encrypt data k).length = data.length := by
  have hstep : ∀ (data' : List UInt8) (sum : UInt32 × UInt32), data'.length = data.length →
      (apply_rounds (encryptRound k sum.1 sum.2) data').length = data.length :=
    fun data' _ h => (length_apply_rounds _ data').trans h
  exact Runs.run_invariant_of_forall hstep rfl _

@[simp] theorem length_decrypt (data : List UInt8) (k : Key) : (decrypt data k).length = data.length := by
  have hstep : ∀ (data' : List UInt8) (sum : UInt32 × UInt32), data'.length = data.length →
      (apply_rounds (decryptRound k sum.1 sum.2) data').length = data.length :=
    fun data' _ h => (length_apply_rounds _ data').trans h
  exact Runs.run_invariant_of_forall hstep rfl _

end Xtea

end Moonlight
