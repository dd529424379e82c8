import Mathlib.Algebra.Group.Nat.Defs
import Moonlight.Security.Xtea

/-!
# XTEA in place

`xtea::apply_rounds` (security/xtea.cpp) works on the bytes of a message where they are. Its index `j` is an
`unsigned int`, while the length is a `size_t`. Below `2 ^ 32` bytes the loop goes over every block once and stops
(`apply_rounds_eq`), so that `encrypt` and `decrypt` are those of `Moonlight.Xtea`. From `2 ^ 32` bytes on every value
of `j` is below the length, and the loop never ends (`apply_rounds_eq_none`).
-/

namespace Moonlight

namespace Xtea.InPlace

/-! ### The loop over the blocks -/

/-- The bytes of a message. -/
abbrev Buffer := List UInt8

/-- `data[j]` -/
def byteAt (data : Buffer) (j : UInt32) : UInt8 := data.getD j.toNat 0

def load (data : Buffer) (j : UInt32) : UInt32 :=
  word (byteAt data (j + 0)) (byteAt data (j + 1)) (byteAt data (j + 2)) (byteAt data (j + 3))

def store (data : Buffer) (j : UInt32) (x : UInt32) : Buffer :=
  (((data.set j.toNat x.toUInt8).set (j + 1).toNat (x >>> 8).toUInt8).set (j + 2).toNat (x >>> 16).toUInt8).set
    (j + 3).toNat (x >>> 24).toUInt8

/-- The loop of `apply_rounds` from an index on; `none` if it never ends. -/
def Buffer.applyFrom (round : UInt32 × UInt32 → UInt32 × UInt32) (j : UInt32) (data : Buffer) : Option Buffer :=
  if j.toNat < data.length then
    let block := round (load data j, load data (j + 4))
    store (store data j block.1) (j + 4) block.2 |>.applyFrom round (j + 8)
  else some data
partial_fixpoint

open Buffer (applyFrom)

def apply_rounds (round : UInt32 × UInt32 → UInt32 × UInt32) (data : List UInt8) : Option (List UInt8) :=
  applyFrom round 0 data

def encrypt (data : List UInt8) (k : Key) : Option (List UInt8) :=
  (encryptSums 32 0 (0 + delta)).foldlM (fun data (sum, next_sum) => apply_rounds (encryptRound k sum next_sum) data)
    data

def decrypt (data : List UInt8) (k : Key) : Option (List UInt8) :=
  (decryptSums 32 (delta <<< 5) ((delta <<< 5) - delta)).foldlM
    (fun data (sum, next_sum) => apply_rounds (decryptRound k sum next_sum) data) data

/-! ### Fewer than `2 ^ 32` bytes -/

theorem byteAt_append {done rest : List UInt8} {j : UInt32} {i : Nat} (h : j.toNat = done.length + i) :
    byteAt (done ++ rest) j = rest.getD i 0 := by
  rw [byteAt, h, List.getD_eq_getElem?_getD, List.getElem?_append_right (Nat.le_add_right _ _), Nat.add_sub_cancel_left,
    List.getD_eq_getElem?_getD]

theorem set_append {done rest : List UInt8} {n i : Nat} (h : n = done.length + i) (b : UInt8) :
    (done ++ rest).set n b = done ++ rest.set i b := by
  rw [h, List.set_append_right _ _ (Nat.le_add_right _ _), Nat.add_sub_cancel_left]

@[simp] theorem length_store (data : List UInt8) (j x : UInt32) : (store data j x).length = data.length := by
  simp only [store, List.length_set]

theorem toNat_index {j i : UInt32} {n : Nat} (hj : j.toNat = n) (h : n + i.toNat < 2 ^ 32) :
    (j + i).toNat = n + i.toNat := by
  rw [UInt32.toNat_add, hj, Nat.mod_eq_of_lt h]

section

variable {done rest : List UInt8} {j : UInt32} {b₀ b₁ b₂ b₃ : UInt8}

theorem load_append (hj : j.toNat = done.length) (h : done.length + 4 ≤ 2 ^ 32) :
    load (done ++ b₀ :: b₁ :: b₂ :: b₃ :: rest) j = word b₀ b₁ b₂ b₃ := by
  have hindex (i : UInt32) (hi : i.toNat < 4) : (j + i).toNat = done.length + i.toNat :=
    toNat_index hj (by omega)
  rw [load, byteAt_append (hindex 0 (by decide)), byteAt_append (hindex 1 (by decide)),
    byteAt_append (hindex 2 (by decide)), byteAt_append (hindex 3 (by decide))]
  rfl

theorem store_append (hj : j.toNat = done.length) (h : done.length + 4 ≤ 2 ^ 32) (x : UInt32) :
    store (done ++ b₀ :: b₁ :: b₂ :: b₃ :: rest) j x = done ++ (bytes x ++ rest) := by
  have hindex (i : UInt32) (hi : i.toNat < 4) : (j + i).toNat = done.length + i.toNat :=
    toNat_index hj (by omega)
  rw [store, set_append (i := 0) hj, set_append (hindex 1 (by decide)), set_append (hindex 2 (by decide)),
    set_append (hindex 3 (by decide))]
  rfl

end

theorem applyFrom_append (round : UInt32 × UInt32 → UInt32 × UInt32) (rest : List UInt8) {done : List UInt8}
    {j : UInt32} (hj : j.toNat = done.length) (hblocks : 8 ∣ rest.length) (hlt : done.length + rest.length < 2 ^ 32) :
    applyFrom round j (done ++ rest) = some (done ++ Xtea.apply_rounds round rest) := by
  induction rest using Xtea.apply_rounds.induct round generalizing done j with
  | case1 b₀ b₁ b₂ b₃ b₄ b₅ b₆ b₇ rest ih =>
    simp only [List.length_cons] at hblocks hlt
    have hindex (i : UInt32) (hi : i.toNat ≤ 8) : (j + i).toNat = done.length + i.toNat :=
      toNat_index hj (by omega)
    have hlength (x : UInt32) : (done ++ bytes x).length = done.length + 4 := List.length_append
    have hj4 (x : UInt32) : (j + 4).toNat = (done ++ bytes x).length := (hindex 4 (by decide)).trans (hlength x).symm
    have hshort (x : UInt32) : (done ++ bytes x).length + 4 ≤ 2 ^ 32 := by
      rw [hlength]
      omega
    -- the second word lies behind the first, whatever that is by now
    have hright : load (done ++ b₀ :: b₁ :: b₂ :: b₃ :: b₄ :: b₅ :: b₆ :: b₇ :: rest) (j + 4) = word b₄ b₅ b₆ b₇ := by
      have hload := @load_append (done ++ bytes (word b₀ b₁ b₂ b₃)) rest (j + 4) b₄ b₅ b₆ b₇ (hj4 _) (hshort _)
      rwa [bytes_word, List.append_assoc] at hload
    have hstore (x y : UInt32) :
        store (store (done ++ b₀ :: b₁ :: b₂ :: b₃ :: b₄ :: b₅ :: b₆ :: b₇ :: rest) j x) (j + 4) y =
          done ++ (bytes x ++ bytes y) ++ rest := by
      rw [store_append hj (by omega), ← List.append_assoc, store_append (hj4 x) (hshort x)]
      simp only [List.append_assoc]
    have hnext (x y : UInt32) : (j + 8).toNat = (done ++ (bytes x ++ bytes y)).length := by
      rw [hindex 8 (by decide), List.length_append]
      rfl
    rw [applyFrom, if_pos (by rw [hj, List.length_append]; exact Nat.lt_add_of_pos_right (Nat.succ_pos _))]
    dsimp only
    rw [load_append hj (by omega), hright, hstore, Xtea.apply_rounds,
      ih (hnext _ _) (by omega) (by rw [← hnext, hindex 8 (by decide)]; exact Nat.lt_of_le_of_lt (by simp; omega) hlt)]
    simp only [List.append_assoc]
  | case2 rest hrest =>
    -- what is no whole block is nothing
    have hnil : rest = [] := by
      rcases rest with _ | ⟨b₀, _ | ⟨b₁, _ | ⟨b₂, _ | ⟨b₃, _ | ⟨b₄, _ | ⟨b₅, _ | ⟨b₆, _ | ⟨b₇, rest⟩⟩⟩⟩⟩⟩⟩⟩
      · rfl
      iterate 7 simp at hblocks
      · exact (hrest _ _ _ _ _ _ _ _ _ rfl).elim
    subst hnil
    rw [applyFrom, if_neg (by rw [hj, List.append_nil]; exact Nat.lt_irrefl _), Xtea.apply_rounds.eq_2 round [] hrest]

theorem apply_rounds_eq (round : UInt32 × UInt32 → UInt32 × UInt32) {data : List UInt8} (hblocks : 8 ∣ data.length)
    (hlt : data.length < 2 ^ 32) : apply_rounds round data = some (Xtea.apply_rounds round data) := by
  have h := @applyFrom_append round data [] 0 rfl hblocks (by rwa [List.length_nil, Nat.zero_add])
  rwa [List.nil_append, List.nil_append] at h

theorem foldlM_rounds (round : UInt32 × UInt32 → UInt32 × UInt32 → UInt32 × UInt32) (sums : List (UInt32 × UInt32))
    {data : List UInt8} (hblocks : 8 ∣ data.length) (hlt : data.length < 2 ^ 32) :
    sums.foldlM (fun data sum => apply_rounds (round sum) data) data =
      some (Runs.run (fun data sum => Xtea.apply_rounds (round sum) data) data sums) := by
  induction sums generalizing data with
  | nil => rfl
  | cons sum sums ih =>
    have hlength := length_apply_rounds (round sum) data
    rw [List.foldlM_cons, apply_rounds_eq (round sum) hblocks hlt, Runs.run_cons]
    exact ih (by rwa [hlength]) (by rwa [hlength])

theorem encrypt_eq {data : List UInt8} (hblocks : 8 ∣ data.length) (hlt : data.length < 2 ^ 32) (k : Key) :
    encrypt data k = some (Xtea.encrypt data k) :=
  foldlM_rounds (fun sum => encryptRound k sum.1 sum.2) _ hblocks hlt

theorem decrypt_eq {data : List UInt8} (hblocks : 8 ∣ data.length) (hlt : data.length < 2 ^ 32) (k : Key) :
    decrypt data k = some (Xtea.decrypt data k) :=
  foldlM_rounds (fun sum => decryptRound k sum.1 sum.2) _ hblocks hlt

/-! ### From `2 ^ 32` bytes on -/

theorem applyFrom_eq_none (round : UInt32 × UInt32 → UInt32 × UInt32) (j : UInt32) {data : List UInt8}
    (hle : 2 ^ 32 ≤ data.length) : applyFrom round j data = none := by
  have hnever : ∀ (j : UInt32) (data result : List UInt8), applyFrom round j data = some result →
      2 ^ 32 ≤ data.length → False := by
    apply Buffer.applyFrom.partial_correctness
    intro next ih j data result h hle
    rw [if_pos (Nat.lt_of_lt_of_le j.toNat_lt hle)] at h
    refine ih _ _ _ h ?_
    rwa [length_store, length_store]
  cases happly : applyFrom round j data with
  | none => rfl
  | some result => exact (hnever j data result happly hle).elim

theorem encrypt_eq_none {data : List UInt8} (hle : 2 ^ 32 ≤ data.length) (k : Key) : encrypt data k = none := by
  show (apply_rounds _ data).bind _ = none
  rw [apply_rounds, applyFrom_eq_none _ _ hle]
  rfl

/-- **When each undoes the other.** For every key, on whole blocks: as long as the length fits the index. -/
theorem inverse_iff (data : List UInt8) (k : Key) (hblocks : 8 ∣ data.length) :
    ((encrypt data k).bind (decrypt · k) = some data ∧ (decrypt data k).bind (encrypt · k) = some data) ↔
      data.length < 2 ^ 32 := by
  constructor
  · rintro ⟨hdecrypt, -⟩
    by_contra hlong
    rw [encrypt_eq_none (Nat.le_of_not_lt hlong)] at hdecrypt
    cases hdecrypt
  · intro hlt
    constructor
    · rw [encrypt_eq hblocks hlt, Option.bind_some, decrypt_eq (by rwa [length_encrypt]) (by rwa [length_encrypt]),
        decrypt_encrypt]
    · rw [decrypt_eq hblocks hlt, Option.bind_some, encrypt_eq (by rwa [length_decrypt]) (by rwa [length_decrypt]),
        encrypt_decrypt]

def zeroKey : Key := fun _ => 0

theorem inverse_iff_oneBlock : 8 ∣ (List.replicate 8 (0 : UInt8)).length ∧
    (((encrypt (List.replicate 8 0) zeroKey).bind (decrypt · zeroKey) = some (List.replicate 8 0) ∧
      (decrypt (List.replicate 8 0) zeroKey).bind (encrypt · zeroKey) = some (List.replicate 8 0)) ↔
        (List.replicate 8 (0 : UInt8)).length < 2 ^ 32) :=
  ⟨by decide, inverse_iff (List.replicate 8 0) zeroKey (by decide)⟩

/-- Four gigabytes of zeros are never done. -/
theorem fourGigabytes_not_inverse : 8 ∣ (List.replicate (2 ^ 32) (0 : UInt8)).length ∧
    encrypt (List.replicate (2 ^ 32) 0) zeroKey = none ∧
      ¬ ((encrypt (List.replicate (2 ^ 32) 0) zeroKey).bind (decrypt · zeroKey) = some (List.replicate (2 ^ 32) 0)) := by
  have hlength : (List.replicate (2 ^ 32) (0 : UInt8)).length = 2 ^ 32 := List.length_replicate
  have hnone : encrypt (List.replicate (2 ^ 32) 0) zeroKey = none := encrypt_eq_none (Nat.le_of_eq hlength.symm) zeroKey
  refine ⟨by rw [hlength]; decide, hnone, ?_⟩
  rw [hnone]
  exact nofun

end Xtea.InPlace

end Moonlight
