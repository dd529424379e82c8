import Mathlib.Data.List.GetD
import Mathlib.Data.List.TakeWhile
import Moonlight.Lib.Hotp
import Moonlight.Lib.Words
import Moonlight.Utils.Sha1

/-!
# Authenticator tokens

`generateToken` (utils/tools.cpp) computes an HMAC of the ticks, through two hash values in hexadecimal form, and reads
the number of the token from the digits of the second. There is no token where an index leaves a text, or where
`std::stol` or `substr` throw; a `long` has 64 bits.

* `messageOf_eq` — the ticks are a counter of 8 bytes.
* `padOf_eq` — the key in a block, for a key that is no longer than one.
* `stol_map` — the number that a text of hexadecimal digits is read as.
* `nibbles_drop`, `nibbles_take` — two digits for a byte, so that offsets in the text are twice those in the bytes.
-/

namespace Moonlight

namespace Tools

open Sha1 Hotp

def AUTHENTICATOR_DIGITS : Nat := 6

def LONG_MAX : Nat := 2 ^ 63 - 1

/-! ### Texts -/

/-- `text[index] = f(text[index])`. -/
def modifyAt {α : Type} (text : List α) (index : Nat) (f : α → α) : Option (List α) :=
  if index < text.length then some (text.modify index f) else none

/-- `std::string::substr`. -/
def substr {α : Type} (text : List α) (pos count : Nat) : Option (List α) :=
  if pos ≤ text.length then some ((text.drop pos).take count) else none

def isspace (c : Char) : Bool := c = ' ' || ('\t' ≤ c && c ≤ '\r')

def hexDigitValue (c : Char) : Option Nat :=
  if '0' ≤ c ∧ c ≤ '9' then some (c.toNat - '0'.toNat)
  else if 'a' ≤ c ∧ c ≤ 'f' then some (c.toNat - 'a'.toNat + 10)
  else if 'A' ≤ c ∧ c ≤ 'F' then some (c.toNat - 'A'.toNat + 10)
  else none

/-- The digits in front of a text, as a number; no digit is no number. -/
def hexPrefix (text : List Char) : Option Nat :=
  match (text.map hexDigitValue).takeWhile Option.isSome with
  | [] => none
  | digits => some (digits.foldl (fun n digit => 16 * n + digit.getD 0) 0)

/-- Behind the mark of a hexadecimal number, if there is one. -/
def dropMark : List Char → List Char
  | '0' :: x :: c :: text => if (x = 'x' ∨ x = 'X') ∧ (hexDigitValue c).isSome then c :: text else '0' :: x :: c :: text
  | text => text

/-- `std::stol(text, nullptr, 16)`. -/
def stol (text : List Char) : Option Int :=
  let text := text.dropWhile isspace
  let (negative, text) :=
    match text with
    | '-' :: text => (true, text)
    | '+' :: text => (false, text)
    | text => (false, text)
  match hexPrefix (dropMark text) with
  | none => none
  | some n =>
    let value : Int := if negative then -n else n
    if -(LONG_MAX : Int) - 1 ≤ value ∧ value ≤ LONG_MAX then some value else none

/-! ### The token -/

/-- The loop over the ticks, which leaves the first character as it is. -/
def messageOf (ticks : UInt32) : Option (List UInt8) :=
  (([7, 6, 5, 4, 3, 2, 1].foldlM (fun (s : List UInt8 × UInt32) i =>
    (modifyAt s.1 i fun _ => (s.2 &&& 0xFF).toUInt8).map fun message => (message, s.2 >>> 8))
    (List.replicate 8 0, ticks))).map Prod.fst

/-- The loop over the key, for one of the pads. Its counter has 8 bits, but leaves the pad long before it wraps around.
-/
def padOf (padding : UInt8) (key : List UInt8) : Option (List UInt8) :=
  (List.range key.length).foldlM (fun pad i => modifyAt pad i (· ^^^ key.getD i 0)) (List.replicate 64 padding)

/-- The loop that appends the bytes of a text of hexadecimal digits. -/
def appendHex (message : List Char) (pad : List UInt8) : Option (List UInt8) :=
  (List.range ((message.length + 1) / 2)).foldlM (fun pad k =>
    (substr message (2 * k) 2).bind fun digits => (stol digits).map fun n => pad ++ [UInt8.ofInt n]) pad

/-- The token of the second hash value. -/
def tokenOf (message : List Char) : Option (List Char) := do
  let offset ← (substr message 39 1).bind stol
  let offset := (offset % 16).toNat
  let truncHash ← (substr message (2 * offset) 8).bind stol
  let truncHash := (truncHash % 2 ^ 31).toNat
  let message := Nat.toDigits 10 truncHash
  let hashLen := message.length
  let message ← substr message (hashLen - min hashLen AUTHENTICATOR_DIGITS) hashLen
  some (List.replicate (AUTHENTICATOR_DIGITS - min hashLen AUTHENTICATOR_DIGITS) '0' ++ message)

def generateToken (key : List UInt8) (ticks : UInt32) : Option (List Char) := do
  let message ← messageOf ticks
  let iKeyPad ← padOf 0x36 key
  let oKeyPad ← padOf 0x5C key
  let iKeyPad := iKeyPad ++ message
  let message := transformToSHA1 iKeyPad
  let oKeyPad ← appendHex message oKeyPad
  let message := transformToSHA1 oKeyPad
  tokenOf message

/-! ### The message and the pads -/

/-- The ticks after some rounds of the loop. -/
def shifted (ticks : UInt32) : Nat → UInt32
  | 0 => ticks
  | n + 1 => shifted ticks n >>> 8

theorem toNat_shifted (ticks : UInt32) (n : Nat) : (shifted ticks n).toNat = ticks.toNat / 256 ^ n := by
  induction n with
  | zero => rw [shifted, Nat.pow_zero, Nat.div_one]
  | succ n ih =>
    rw [shifted, UInt32.toNat_shiftRight, ih, Nat.shiftRight_eq_div_pow, Nat.pow_succ, ← Nat.div_div_eq_div_mul]
    rfl

theorem byte_shifted (ticks : UInt32) (n : Nat) :
    (shifted ticks n &&& 0xFF).toUInt8 = UInt8.ofNat (ticks.toNat / 256 ^ n) := by
  have hmask : (shifted ticks n &&& 0xFF).toNat = ticks.toNat / 256 ^ n % 256 := by
    rw [UInt32.toNat_and, toNat_shifted]
    exact Nat.and_two_pow_sub_one_eq_mod _ 8
  rw [← UInt8.toNat_inj, UInt32.toNat_toUInt8, hmask, UInt8.toNat_ofNat', Nat.mod_mod]

theorem wordBytes_ofNat (n : Nat) : wordBytes (UInt32.ofNat n) =
    [UInt8.ofNat (n / 256 ^ 3), UInt8.ofNat (n / 256 ^ 2), UInt8.ofNat (n / 256 ^ 1), UInt8.ofNat (n / 256 ^ 0)] := by
  have hbyte {k : UInt32} {m : Nat} (hk : (UInt32.ofNat n >>> k).toNat = n % 2 ^ 32 / m)
      (hm : n % 2 ^ 32 / m % 256 = n / m % 256) : (UInt32.ofNat n >>> k).toUInt8 = UInt8.ofNat (n / m) := by
    rw [← UInt8.toNat_inj, UInt32.toNat_toUInt8, hk, hm, UInt8.toNat_ofNat']
  have hshift (k : UInt32) : (UInt32.ofNat n >>> k).toNat = n % 2 ^ 32 / 2 ^ (k.toNat % 32) := by
    rw [UInt32.toNat_shiftRight, UInt32.toNat_ofNat', Nat.shiftRight_eq_div_pow]
  have hlast : (UInt32.ofNat n).toUInt8 = UInt8.ofNat (n / 256 ^ 0) := by
    rw [← UInt8.toNat_inj, UInt32.toNat_toUInt8, UInt32.toNat_ofNat', UInt8.toNat_ofNat']
    omega
  have hthird : (UInt32.ofNat n >>> 24).toNat = n % 2 ^ 32 / 256 ^ 3 := hshift 24
  have hsecond : (UInt32.ofNat n >>> 16).toNat = n % 2 ^ 32 / 256 ^ 2 := hshift 16
  have hfirst : (UInt32.ofNat n >>> 8).toNat = n % 2 ^ 32 / 256 ^ 1 := hshift 8
  rw [wordBytes, hbyte hthird (by omega), hbyte hsecond (by omega), hbyte hfirst (by omega), hlast]

theorem messageOf_eq (ticks : UInt32) : messageOf ticks = some (lengthBytes ticks.toNat) := by
  have hsteps : messageOf ticks = some (0 :: [6, 5, 4, 3, 2, 1, 0].map fun n =>
      (shifted ticks n &&& 0xFF).toUInt8) := rfl
  have hlt := ticks.toNat_lt
  have hzero {m : Nat} (hm : 2 ^ 32 ≤ m) : ticks.toNat / m = 0 := Nat.div_eq_of_lt (Nat.lt_of_lt_of_le hlt hm)
  rw [hsteps, lengthBytes, wordBytes_ofNat, wordBytes_ofNat]
  simp only [byte_shifted, List.map_cons, List.map_nil]
  rw [hzero (by decide : 2 ^ 32 ≤ 256 ^ 6), hzero (by decide : 2 ^ 32 ≤ 256 ^ 5), hzero (by decide : 2 ^ 32 ≤ 256 ^ 4),
    hzero (by decide : 2 ^ 32 ≤ 2 ^ 32)]
  rfl

theorem modifyAt_append {α : Type} (front : List α) (x : α) (rest : List α) {index : Nat} (h : index = front.length)
    (f : α → α) : modifyAt (front ++ x :: rest) index f = some (front ++ f x :: rest) := by
  subst h
  have hlt : front.length < (front ++ x :: rest).length := by
    rw [List.length_append]
    exact Nat.lt_add_of_pos_right (Nat.succ_pos _)
  rw [modifyAt, if_pos hlt, List.modify_eq_take_drop]
  simp

theorem padOf_eq (padding : UInt8) {key : List UInt8} (h : key.length ≤ 64) :
    padOf padding key = some ((key ++ List.replicate (64 - key.length) 0).map (· ^^^ padding)) := by
  have hloop (n : Nat) (hn : n ≤ key.length) :
      (List.range n).foldlM (fun pad i => modifyAt pad i (· ^^^ key.getD i 0)) (List.replicate 64 padding) =
        some ((key.take n).map (· ^^^ padding) ++ List.replicate (64 - n) padding) := by
    induction n with
    | zero => rfl
    | succ n ih =>
      have hcount : 64 - n = 64 - (n + 1) + 1 := by omega
      have hlength : n = ((key.take n).map (· ^^^ padding)).length := by
        rw [List.length_map, List.length_take, Nat.min_eq_left (by omega)]
      rw [List.range_succ, List.foldlM_append, ih (by omega), hcount, List.replicate_succ]
      show (modifyAt _ n _).bind _ = _
      rw [modifyAt_append _ _ _ hlength, List.take_succ_eq_append_getElem (by omega), List.map_append,
        List.append_assoc, List.getD_eq_getElem _ _ (by omega), UInt8.xor_comm]
      rfl
  have hall := hloop key.length (Nat.le_refl _)
  rw [List.take_length] at hall
  rw [padOf, hall, List.map_append, List.map_replicate, UInt8.zero_xor]

/-! ### Numbers in texts -/

/-- The digits of bytes. -/
def nibbles (bytes : List UInt8) : List Nat := bytes.flatMap fun b => [b.toNat / 16, b.toNat % 16]

theorem toHex_eq (bytes : List UInt8) : toHex bytes = (nibbles bytes).map hexDigit := by
  rw [toHex, nibbles, List.map_flatMap]
  rfl

theorem nibble_lt {bytes : List UInt8} {n : Nat} (h : n ∈ nibbles bytes) : n < 16 := by
  obtain ⟨b, -, hb⟩ := List.mem_flatMap.mp h
  have hlt := b.toNat_lt
  rw [List.mem_pair] at hb
  omega

theorem length_nibbles (bytes : List UInt8) : (nibbles bytes).length = 2 * bytes.length := by
  induction bytes with
  | nil => rfl
  | cons b bytes ih =>
    rw [nibbles, List.flatMap_cons, List.length_append, ← nibbles, ih, List.length_cons]
    exact (Nat.add_comm _ _)

theorem nibbles_drop (n : Nat) (bytes : List UInt8) : (nibbles bytes).drop (2 * n) = nibbles (bytes.drop n) := by
  induction n generalizing bytes with
  | zero => rfl
  | succ n ih =>
    cases bytes with
    | nil => rfl
    | cons b bytes => exact ih bytes

theorem nibbles_take (n : Nat) (bytes : List UInt8) : (nibbles bytes).take (2 * n) = nibbles (bytes.take n) := by
  induction n generalizing bytes with
  | zero => rfl
  | succ n ih =>
    cases bytes with
    | nil => rfl
    | cons b bytes =>
      have hrest := congrArg (fun l => b.toNat / 16 :: b.toNat % 16 :: l) (ih bytes)
      exact hrest

theorem foldl_nibbles (bytes : List UInt8) (n : Nat) :
    (nibbles bytes).foldl (fun n digit => 16 * n + digit) n = bytes.foldl (fun n b => 256 * n + b.toNat) n := by
  induction bytes generalizing n with
  | nil => rfl
  | cons b bytes ih =>
    have hbyte : 16 * (16 * n + b.toNat / 16) + b.toNat % 16 = 256 * n + b.toNat := by omega
    rw [List.foldl_cons, ← ih, ← hbyte]
    rfl

theorem hexDigit_spec {n : Nat} (h : n < 16) : isspace (hexDigit n) = false ∧ hexDigit n ≠ '-' ∧ hexDigit n ≠ '+' ∧
    hexDigit n ≠ 'x' ∧ hexDigit n ≠ 'X' ∧ hexDigitValue (hexDigit n) = some n := by
  have hall : ∀ n : Fin 16, isspace (hexDigit n) = false ∧ hexDigit n ≠ '-' ∧ hexDigit n ≠ '+' ∧
      hexDigit n ≠ 'x' ∧ hexDigit n ≠ 'X' ∧ hexDigitValue (hexDigit n) = some n.val := by decide
  exact hall ⟨n, h⟩

theorem hexPrefix_map {digits : List Nat} (hne : digits ≠ []) (h : ∀ d ∈ digits, d < 16) :
    hexPrefix (digits.map hexDigit) = some (digits.foldl (fun n digit => 16 * n + digit) 0) := by
  have hvalues : (digits.map hexDigit).map hexDigitValue = digits.map some := by
    rw [List.map_map]
    exact List.map_congr_left fun d hd => (hexDigit_spec (h d hd)).2.2.2.2.2
  have hall : (digits.map some).takeWhile Option.isSome = digits.map some := by
    rw [List.takeWhile_eq_self_iff]
    intro x hx
    obtain ⟨d, -, rfl⟩ := List.mem_map.mp hx
    rfl
  rw [hexPrefix, hvalues, hall]
  split
  · rename_i hnil
    exact absurd (List.map_eq_nil_iff.mp hnil) hne
  · rw [List.foldl_map]
    rfl

theorem dropMark_map {digits : List Nat} (h : ∀ d ∈ digits, d < 16) :
    dropMark (digits.map hexDigit) = digits.map hexDigit := by
  generalize htext : digits.map hexDigit = text
  unfold dropMark
  split
  · rename_i x c text
    have hx : x ≠ 'x' ∧ x ≠ 'X' := by
      have hmem : x ∈ digits.map hexDigit := by
        rw [htext]
        simp
      obtain ⟨d, hd, rfl⟩ := List.mem_map.mp hmem
      obtain ⟨-, -, -, hlower, hupper, -⟩ := hexDigit_spec (h d hd)
      exact ⟨hlower, hupper⟩
    rw [if_neg fun hmark => hmark.1.elim hx.1 hx.2]
  · rfl

theorem stol_map {digits : List Nat} (hne : digits ≠ []) (h : ∀ d ∈ digits, d < 16)
    (hle : digits.foldl (fun n digit => 16 * n + digit) 0 ≤ LONG_MAX) :
    stol (digits.map hexDigit) = some ((digits.foldl (fun n digit => 16 * n + digit) 0 : Nat) : Int) := by
  have hnumber := hexPrefix_map hne h
  have hmark := dropMark_map h
  obtain ⟨first, rest, rfl⟩ := List.exists_cons_of_ne_nil hne
  obtain ⟨hspace, hminus, hplus, -⟩ := hexDigit_spec (h first List.mem_cons_self)
  have hfront : ((first :: rest).map hexDigit).dropWhile isspace = (first :: rest).map hexDigit := by
    rw [List.map_cons, List.dropWhile_cons_of_neg (by rw [hspace]; exact Bool.false_ne_true)]
  have hsign : (match (first :: rest).map hexDigit with
    | '-' :: text => (true, text)
    | '+' :: text => (false, text)
    | text => (false, text)) = (false, (first :: rest).map hexDigit) := by
    rw [List.map_cons]
    split
    · rename_i heq
      exact absurd (List.cons.inj heq).1 hminus
    · rename_i heq
      exact absurd (List.cons.inj heq).1 hplus
    · rfl
  rw [stol, hfront]
  dsimp only
  rw [hsign]
  dsimp only
  rw [hmark, hnumber]
  dsimp only
  generalize (first :: rest).foldl (fun n digit => 16 * n + digit) 0 = n at hle
  have hrange : -(LONG_MAX : Int) - 1 ≤ n ∧ (n : Int) ≤ LONG_MAX := ⟨by omega, Int.ofNat_le.mpr hle⟩
  exact if_pos hrange

theorem numberOf_lt (bytes : List UInt8) : numberOf bytes < 256 ^ bytes.length := by
  have hloop (bytes : List UInt8) (n m : Nat) (h : n < m) :
      bytes.foldl (fun n b => 256 * n + b.toNat) n < m * 256 ^ bytes.length := by
    induction bytes generalizing n m with
    | nil => simpa using h
    | cons b bytes ih =>
      have hb := b.toNat_lt
      have hnext := ih (256 * n + b.toNat) (256 * m) (by omega)
      rwa [Nat.mul_comm 256 m, Nat.mul_assoc, ← Nat.pow_succ'] at hnext
  have hall := hloop bytes 0 1 Nat.one_pos
  rwa [Nat.one_mul] at hall

theorem stol_nibbles {bytes : List UInt8} (hne : bytes ≠ []) (hlength : bytes.length ≤ 7) :
    stol ((nibbles bytes).map hexDigit) = some (numberOf bytes : Int) := by
  have hnibbles : nibbles bytes ≠ [] := by
    have hpos := List.length_pos_iff.mpr hne
    rw [← List.length_pos_iff, length_nibbles]
    omega
  have hle : numberOf bytes ≤ LONG_MAX := by
    have hlt := numberOf_lt bytes
    have hpow : 256 ^ bytes.length ≤ 256 ^ 7 := Nat.pow_le_pow_right (by decide) hlength
    rw [LONG_MAX]
    omega
  have hnumber := foldl_nibbles bytes 0
  rw [← numberOf] at hnumber
  rw [← hnumber] at hle ⊢
  exact stol_map hnibbles (fun _ => nibble_lt) hle

theorem substr_of_le {α : Type} {text : List α} {pos count : Nat} (h : pos ≤ text.length) :
    substr text pos count = some ((text.drop pos).take count) := if_pos h

theorem substr_toHex {bytes : List UInt8} {n : Nat} (h : n ≤ bytes.length) (count : Nat) :
    substr (toHex bytes) (2 * n) (2 * count) = some ((nibbles ((bytes.drop n).take count)).map hexDigit) := by
  have hle : 2 * n ≤ (toHex bytes).length := by
    rw [toHex_eq, List.length_map, length_nibbles]
    exact Nat.mul_le_mul_left 2 h
  rw [substr_of_le hle, toHex_eq, ← List.map_drop, ← List.map_take, nibbles_drop, nibbles_take]

/-! ### The two hash values -/

theorem appendHex_eq (bytes pad : List UInt8) : appendHex (toHex bytes) pad = some (pad ++ bytes) := by
  have hloop (n : Nat) (hn : n ≤ bytes.length) : (List.range n).foldlM (fun pad k =>
      (substr (toHex bytes) (2 * k) 2).bind fun digits => (stol digits).map fun n => pad ++ [UInt8.ofInt n]) pad =
        some (pad ++ bytes.take n) := by
    induction n with
    | zero => rw [List.take_zero, List.append_nil]; rfl
    | succ n ih =>
      have hone : (bytes.drop n).take 1 = [bytes[n]] := by
        rw [List.drop_eq_getElem_cons (by omega), List.take_succ_cons, List.take_zero]
      have hbyte : stol ((nibbles [bytes[n]]).map hexDigit) = some ((numberOf [bytes[n]] : Nat) : Int) :=
        stol_nibbles (List.cons_ne_nil _ _) (Nat.le_of_ble_eq_true rfl)
      have hnumber : UInt8.ofInt ((numberOf [bytes[n]] : Nat) : Int) = bytes[n] := by
        rw [numberOf, List.foldl_cons, List.foldl_nil, Nat.mul_zero, Nat.zero_add]
        exact Words.uint8_ofInt _
      rw [List.range_succ, List.foldlM_append, ih (by omega)]
      show ((substr (toHex bytes) (2 * n) (2 * 1)).bind _).bind _ = _
      rw [substr_toHex (by omega), hone]
      show ((stol _).map _).bind _ = _
      rw [hbyte, Option.map_some, hnumber, List.take_succ_eq_append_getElem (by omega), ← List.append_assoc]
      rfl
  have hcount : ((toHex bytes).length + 1) / 2 = bytes.length := by
    rw [toHex_eq, List.length_map, length_nibbles]
    omega
  have hall := hloop bytes.length (Nat.le_refl _)
  rw [List.take_length] at hall
  rw [appendHex, hcount, hall]

theorem stol_last {code : List UInt8} (hlength : code.length = 20) :
    (substr (toHex code) 39 1).bind stol = some (((code.getD 19 0).toNat % 16 : Nat) : Int) := by
  have hlast : code.drop 19 = [code.getD 19 0] := by
    rw [List.drop_eq_getElem_cons (by omega), List.drop_eq_nil_of_le (by omega), List.getD_eq_getElem _ _ (by omega)]
  have hdigit : (nibbles code).drop 39 = [(code.getD 19 0).toNat % 16] := by
    have hbyte := nibbles_drop 19 code
    rw [hlast] at hbyte
    rw [← List.drop_drop (i := 1) (j := 2 * 19), hbyte]
    rfl
  have hsubstr : substr (toHex code) 39 1 = some ([(code.getD 19 0).toNat % 16].map hexDigit) := by
    rw [substr_of_le (by rw [toHex_eq, List.length_map, length_nibbles]; omega), toHex_eq, ← List.map_drop, hdigit]
    rfl
  have hlt : ∀ d ∈ [(code.getD 19 0).toNat % 16], d < 16 := by
    intro d hd
    rw [List.mem_singleton.mp hd]
    exact Nat.mod_lt _ (by decide)
  generalize (code.getD 19 0).toNat % 16 = last at hsubstr hlt ⊢
  have hle : [last].foldl (fun n digit => 16 * n + digit) 0 ≤ LONG_MAX := by
    have := hlt last List.mem_cons_self
    rw [List.foldl_cons, List.foldl_nil, LONG_MAX]
    omega
  rw [hsubstr, Option.bind_some, stol_map (List.cons_ne_nil _ _) hlt hle, List.foldl_cons, List.foldl_nil, Nat.mul_zero,
    Nat.zero_add]

theorem tokenOf_eq {code : List UInt8} (hlength : code.length = 20) :
    tokenOf (toHex code) = some (decimal AUTHENTICATOR_DIGITS (truncate code)) := by
  have hoffset : (((code.getD 19 0).toNat % 16 : Nat) : Int) % 16 = ((code.getD 19 0).toNat % 16 : Nat) := by omega
  have hlt : (code.getD 19 0).toNat % 16 < 16 := Nat.mod_lt _ (by decide)
  rw [tokenOf, stol_last hlength, truncate]
  dsimp only [bind, Option.bind_some]
  rw [hoffset, Int.toNat_natCast]
  generalize (code.getD 19 0).toNat % 16 = offset at hlt
  -- four bytes are eight digits
  have hbytes : (code.drop offset).take 4 ≠ [] := by
    rw [← List.length_pos_iff, List.length_take, List.length_drop]
    omega
  have hread : (substr (toHex code) (2 * offset) 8).bind stol = some (numberOf ((code.drop offset).take 4) : Int) := by
    have hsubstr := @substr_toHex code offset (by omega) 4
    rw [hsubstr, Option.bind_some, stol_nibbles hbytes ((List.length_take_le _ _).trans (by decide))]
  rw [hread]
  dsimp only [Option.bind_some]
  have hmask : ((numberOf ((code.drop offset).take 4) : Int) % 2 ^ 31).toNat =
      numberOf ((code.drop offset).take 4) % 2 ^ 31 := by omega
  rw [hmask]
  generalize numberOf ((code.drop offset).take 4) % 2 ^ 31 = truncHash
  have hdigits := decimal_eq AUTHENTICATOR_DIGITS truncHash
  generalize Nat.toDigits 10 truncHash = message at hdigits ⊢
  have hfront : message.length - min message.length AUTHENTICATOR_DIGITS = message.length - AUTHENTICATOR_DIGITS := by
    omega
  have hzeros : AUTHENTICATOR_DIGITS - min message.length AUTHENTICATOR_DIGITS =
      AUTHENTICATOR_DIGITS - message.length := by omega
  have hall : (message.drop (message.length - AUTHENTICATOR_DIGITS)).take message.length =
      message.drop (message.length - AUTHENTICATOR_DIGITS) := by
    refine List.take_of_length_le ?_
    rw [List.length_drop]
    exact Nat.sub_le _ _
  rw [hfront, hzeros, substr_of_le (Nat.sub_le _ _), hall, Option.bind_some, hdigits]

theorem length_pad {K : List UInt8} (h : K.length ≤ 64) : (K ++ List.replicate (64 - K.length) 0).length = 64 := by
  rw [List.length_append, List.length_replicate]
  exact Nat.add_sub_cancel' h

/-- **Tokens are HOTP values.** -/
theorem generateToken_eq (key : List UInt8) (ticks : UInt32) (hkey : key.length ≤ 64) :
    generateToken key ticks = some (hotp sha1 AUTHENTICATOR_DIGITS key (lengthBytes ticks.toNat)) := by
  have hsha1 {input : List UInt8} (h : input.length ≤ 100) : transformToSHA1 input = toHex (sha1 input) := by
    rw [transformToSHA1, hashed_eq (Nat.lt_of_le_of_lt h (by decide)), hexstring_eq, sha1]
  have hblock : keyBlock sha1 key = key ++ List.replicate (64 - key.length) 0 := by
    rw [keyBlock, if_neg (Nat.not_lt_of_le hkey)]
  have hlength := length_pad hkey
  rw [generateToken, messageOf_eq, padOf_eq 0x36 hkey, padOf_eq 0x5C hkey, hotp, decimal_mod, hmac, hblock]
  generalize key ++ List.replicate (64 - key.length) 0 = block at hlength
  have hinner : (block.map (· ^^^ 0x36) ++ lengthBytes ticks.toNat).length ≤ 100 := by
    rw [List.length_append, List.length_map, hlength]
    show 64 + 8 ≤ 100
    decide
  dsimp only [bind, Option.bind_some]
  rw [hsha1 hinner, appendHex_eq]
  generalize block.map (· ^^^ 0x36) ++ lengthBytes ticks.toNat = inner
  have houter : (block.map (· ^^^ 0x5C) ++ sha1 inner).length ≤ 100 := by
    rw [List.length_append, List.length_map, hlength, length_sha1]
    decide
  rw [Option.bind_some, hsha1 houter]
  exact tokenOf_eq (length_sha1 _)

theorem generateToken_eq_ones : generateToken [49, 49, 49] 7 =
    some (hotp sha1 AUTHENTICATOR_DIGITS [49, 49, 49] (lengthBytes 7)) :=
  generateToken_eq [49, 49, 49] 7 (by decide)

end Tools

end Moonlight
