import Moonlight.Io.PropStream
import Moonlight.Lib.Memory

/-!
# Network messages

Model of `NetworkMessage` (server/network/message/networkmessage.h and .cpp), for both directions. The buffer
begins with 8 bytes for headers. What is written goes to the position, which moves behind it, and the length
counts it; a write that does not fit is left out without a word. What is read comes from the position and has
to lie before the end that the length gives; a read that does not fit sets `overrun`.

`NetworkMessage.Holds` says what writing is for: a message holds the bytes written to it. It does so after any
writes to a new one (`Holds.write`), and none gets longer than 24567 bytes.
-/

namespace Moonlight

open Words

def NETWORKMESSAGE_MAXSIZE : Nat := 24590

/-- Without 2 bytes for the length, 4 for the checksum and 8 for the last block of the encryption. -/
def MAX_BODY_LENGTH : Nat := NETWORKMESSAGE_MAXSIZE - 2 - 4 - 8

def MAX_PROTOCOL_BODY_LENGTH : Nat := MAX_BODY_LENGTH - 10

def INITIAL_BUFFER_POSITION : Nat := 8

/-- Conversion to `MsgSize_t`, a word of 16 bits. -/
def msgSize (n : Nat) : Nat := n % 65536

theorem msgSize_of_lt {n : Nat} (h : n < 65536) : msgSize n = n := Nat.mod_eq_of_lt h

structure NetworkMessage where
  length : Nat := 0
  position : Nat := INITIAL_BUFFER_POSITION
  overrun : Bool := false
  buffer : Nat → UInt8

namespace NetworkMessage

structure Position where
  x : UInt16
  y : UInt16
  z : UInt8
  deriving DecidableEq, Repr

/-! ### Reading -/

def canRead (msg : NetworkMessage) (size : Nat) : Bool × NetworkMessage :=
  if msg.position + size > msg.length + 8 ∨ size ≥ NETWORKMESSAGE_MAXSIZE - msg.position then
    (false, { msg with overrun := true })
  else (true, msg)

def getByte (msg : NetworkMessage) : UInt8 × NetworkMessage :=
  let (ok, msg) := msg.canRead 1
  if ok then (msg.buffer msg.position, { msg with position := msgSize (msg.position + 1) }) else (0, msg)

/-- The value that `memcpy` puts together from bytes. -/
def valueOf (t : Word) (bytes : Bytes) : Int := ((PropStream.read t bytes).map Prod.fst).getD 0

/-- `get<T>`. -/
def get (t : Word) (msg : NetworkMessage) : Int × NetworkMessage :=
  let (ok, msg) := msg.canRead t.size
  if ok then
    (valueOf t (Memory.read msg.buffer msg.position t.size),
      { msg with position := msgSize (msg.position + t.size) })
  else (0, msg)

theorem canRead_of_le {msg : NetworkMessage} {size : Nat} (hend : msg.position + size ≤ msg.length + 8)
    (hmax : msg.position + size < 24590) : msg.canRead size = (true, msg) := by
  unfold canRead NETWORKMESSAGE_MAXSIZE
  rw [if_neg]
  omega

theorem get_of_le {t : Word} {msg : NetworkMessage} (hend : msg.position + t.size ≤ msg.length + 8)
    (hmax : msg.position + t.size < 24590) : msg.get t =
      (valueOf t (Memory.read msg.buffer msg.position t.size),
        { msg with position := msg.position + t.size }) := by
  have hposition : msgSize (msg.position + t.size) = msg.position + t.size := msgSize_of_lt (by omega)
  unfold get
  rw [canRead_of_le hend hmax]
  dsimp only
  rw [hposition]
  rfl

/-- The characters that `getString` reads. -/
def getChars (stringLen : Nat) (msg : NetworkMessage) : Bytes × NetworkMessage :=
  let (ok, msg) := msg.canRead stringLen
  if ok then
    (Memory.read msg.buffer msg.position stringLen, { msg with position := msgSize (msg.position + stringLen) })
  else ([], msg)

/-- With length 0, the length is read first. -/
def getString (stringLen : Nat) (msg : NetworkMessage) : Bytes × NetworkMessage :=
  if stringLen = 0 then
    let (len, msg) := msg.get uint16
    msg.getChars len.toNat
  else msg.getChars stringLen

def getPosition (msg : NetworkMessage) : Position × NetworkMessage :=
  let (x, msg) := msg.get uint16
  let (y, msg) := msg.get uint16
  let (z, msg) := msg.getByte
  (⟨UInt16.ofInt x, UInt16.ofInt y, z⟩, msg)

def getLengthHeader (msg : NetworkMessage) : Nat := (msg.buffer 0).toNat ||| (msg.buffer 1).toNat <<< 8

/-! ### Writing -/

def canAdd (msg : NetworkMessage) (size : Nat) : Bool := size + msg.position < MAX_BODY_LENGTH

/-- Bytes go to the position; all the functions below end with this. -/
def put (msg : NetworkMessage) (bytes : Bytes) : NetworkMessage :=
  { msg with
    buffer := Memory.write msg.buffer msg.position bytes
    position := msgSize (msg.position + bytes.length)
    length := msgSize (msg.length + bytes.length) }

def addByte (msg : NetworkMessage) (value : UInt8) : NetworkMessage :=
  if !msg.canAdd 1 then msg else msg.put [value]

/-- `add<T>`. -/
def add (t : Word) (msg : NetworkMessage) (value : Int) : NetworkMessage :=
  if !msg.canAdd t.size then msg else msg.put (PropStream.write t value)

def addString (msg : NetworkMessage) (value : Bytes) : NetworkMessage :=
  let stringLen := value.length
  if !msg.canAdd (stringLen + 2) || stringLen > 8192 then msg
  else (add uint16 msg stringLen).put value

def addBytes (msg : NetworkMessage) (bytes : Bytes) : NetworkMessage :=
  let size := bytes.length
  if !msg.canAdd size || size > 8192 then msg else msg.put bytes

/-- The position stays before the padding. -/
def addPaddingBytes (msg : NetworkMessage) (n : Nat) : NetworkMessage :=
  if !msg.canAdd n then msg
  else { msg with
    buffer := Memory.write msg.buffer msg.position (List.replicate n 0x33)
    length := msgSize (msg.length + n) }

/-! ### What is written to a message -/

/-- One call of a function that writes to a message. -/
inductive Write where
  | addByte (value : UInt8)
  | add (t : Word) (value : Int)
  | addString (value : Bytes)
  | addBytes (bytes : Bytes)

def write (msg : NetworkMessage) : Write → NetworkMessage
  | .addByte value => msg.addByte value
  | .add t value => add t msg value
  | .addString value => msg.addString value
  | .addBytes bytes => msg.addBytes bytes

/-- What the call puts into the payload: the bytes of its argument, or nothing if it is left out. -/
def written (msg : NetworkMessage) : Write → Bytes
  | .addByte value => if msg.canAdd 1 then [value] else []
  | .add t value => if msg.canAdd t.size then PropStream.write t value else []
  | .addString value =>
    if msg.canAdd (value.length + 2) ∧ value.length ≤ 8192 then PropStream.write uint16 value.length ++ value
    else []
  | .addBytes bytes => if msg.canAdd bytes.length ∧ bytes.length ≤ 8192 then bytes else []

/-- The message holds these bytes, and they are all that was written. -/
structure Holds (msg : NetworkMessage) (payload : Bytes) : Prop where
  length : msg.length = payload.length
  position : msg.position = INITIAL_BUFFER_POSITION + payload.length
  buffer : Memory.read msg.buffer INITIAL_BUFFER_POSITION payload.length = payload
  bound : payload.length ≤ 24567

theorem Holds.new (buffer : Nat → UInt8) : Holds { buffer := buffer } [] := ⟨rfl, rfl, rfl, Nat.zero_le _⟩

theorem Holds.canAdd_iff {msg : NetworkMessage} {payload : Bytes} (h : Holds msg payload) {size : Nat} :
    msg.canAdd size = true ↔ payload.length + size ≤ 24567 := by
  unfold canAdd
  rw [decide_eq_true_iff, h.position]
  unfold INITIAL_BUFFER_POSITION MAX_BODY_LENGTH NETWORKMESSAGE_MAXSIZE
  omega

theorem Holds.put {msg : NetworkMessage} {payload bytes : Bytes} (h : Holds msg payload)
    (hfits : payload.length + bytes.length ≤ 24567) : Holds (msg.put bytes) (payload ++ bytes) where
  length := by
    rw [List.length_append, NetworkMessage.put, h.length]
    exact msgSize_of_lt (by omega)
  position := by
    have hend : msg.position + bytes.length = INITIAL_BUFFER_POSITION + (payload ++ bytes).length := by
      rw [h.position, List.length_append, Nat.add_assoc]
    show msgSize (msg.position + bytes.length) = _
    rw [hend]
    refine msgSize_of_lt ?_
    rw [List.length_append]
    exact Nat.lt_of_le_of_lt (Nat.add_le_add_left hfits 8) (by decide)
  buffer := by
    show Memory.read (Memory.write msg.buffer msg.position bytes) _ _ = _
    rw [h.position, List.length_append, Memory.read_write_append, h.buffer]
  bound := by
    rw [List.length_append]
    exact hfits

theorem Holds.skip {msg : NetworkMessage} {payload : Bytes} (h : Holds msg payload) :
    Holds msg (payload ++ []) := by
  rw [List.append_nil]
  exact h

theorem Holds.skip_or {msg msg' : NetworkMessage} {payload bytes : Bytes} (h : Holds msg payload) {skips : Bool}
    {c : Prop} [Decidable c] (hskips : skips = true ↔ ¬ c) (hwrites : c → Holds msg' (payload ++ bytes)) :
    Holds (if skips then msg else msg') (payload ++ if c then bytes else []) := by
  by_cases hc : c
  · rw [if_neg fun hskip => hskips.mp hskip hc, if_pos hc]
    exact hwrites hc
  · rw [if_pos (hskips.mpr hc), if_neg hc]
    exact h.skip

theorem Holds.add {msg : NetworkMessage} {payload : Bytes} (h : Holds msg payload) (t : Word) (value : Int) :
    Holds (NetworkMessage.add t msg value)
      (payload ++ if msg.canAdd t.size = true then PropStream.write t value else []) := by
  refine h.skip_or (by simp) fun hadd => h.put ?_
  rw [PropStream.length_write]
  exact h.canAdd_iff.mp hadd

theorem Holds.write {msg : NetworkMessage} {payload : Bytes} (h : Holds msg payload) (w : Write) :
    Holds (msg.write w) (payload ++ msg.written w) := by
  cases w with
  | addByte value => exact h.skip_or (by simp) fun hadd => h.put (h.canAdd_iff.mp hadd)
  | add t value => exact h.add t value
  | addString value =>
    refine h.skip_or (by simp [imp_iff_not_or]) fun hadd => ?_
    have hroom := h.canAdd_iff.mp hadd.1
    -- the length fits because the whole string does, so `add` does not leave it out
    have hlen := h.add uint16 value.length
    have hadd2 : msg.canAdd uint16.size = true := h.canAdd_iff.mpr (by
      show payload.length + 2 ≤ 24567
      omega)
    rw [if_pos hadd2] at hlen
    rw [← List.append_assoc]
    refine hlen.put ?_
    rw [List.length_append, PropStream.length_write]
    show payload.length + 2 + value.length ≤ 24567
    omega
  | addBytes bytes =>
    exact h.skip_or (by simp [imp_iff_not_or]) fun hadd => h.put (h.canAdd_iff.mp hadd.1)

/-! ### Several calls -/

/-- What a call puts into a message that has room for it. -/
def Write.bytes : Write → Bytes
  | .addByte value => [value]
  | .add t value => PropStream.write t value
  | .addString value => if value.length ≤ 8192 then PropStream.write uint16 value.length ++ value else []
  | .addBytes bytes => if bytes.length ≤ 8192 then bytes else []

def bytesOf (writes : List Write) : Bytes := writes.flatMap Write.bytes

theorem bytesOf_append (writes writes' : List Write) :
    bytesOf (writes ++ writes') = bytesOf writes ++ bytesOf writes' := List.flatMap_append

theorem bytesOf_flatten (writes : List (List Write)) :
    bytesOf writes.flatten = (writes.map bytesOf).flatten := by
  induction writes with
  | nil => rfl
  | cons first writes ih => rw [List.flatten_cons, bytesOf_append, ih, List.map_cons, List.flatten_cons]

theorem Holds.written_eq {msg : NetworkMessage} {payload : Bytes} (h : Holds msg payload) {w : Write}
    (hroom : payload.length + w.bytes.length ≤ 24567) : msg.written w = w.bytes := by
  cases w with
  | addByte value => exact if_pos (h.canAdd_iff.mpr hroom)
  | add t value =>
    refine if_pos (h.canAdd_iff.mpr ?_)
    rwa [Write.bytes, PropStream.length_write] at hroom
  | addString value =>
    by_cases hlen : value.length ≤ 8192
    · have hbytes : (Write.addString value).bytes = PropStream.write uint16 value.length ++ value := if_pos hlen
      rw [hbytes, List.length_append, PropStream.length_write, Nat.add_comm _ value.length] at hroom
      rw [hbytes]
      exact if_pos ⟨h.canAdd_iff.mpr hroom, hlen⟩
    · have hbytes : (Write.addString value).bytes = [] := if_neg hlen
      rw [hbytes]
      exact if_neg fun hall => hlen hall.2
  | addBytes bytes =>
    by_cases hlen : bytes.length ≤ 8192
    · have hbytes : (Write.addBytes bytes).bytes = bytes := if_pos hlen
      rw [hbytes] at hroom ⊢
      exact if_pos ⟨h.canAdd_iff.mpr hroom, hlen⟩
    · have hbytes : (Write.addBytes bytes).bytes = [] := if_neg hlen
      rw [hbytes]
      exact if_neg fun hall => hlen hall.2

theorem Holds.writes {msg : NetworkMessage} {payload : Bytes} {writes : List Write} (h : Holds msg payload)
    (hroom : payload.length + (bytesOf writes).length ≤ 24567) :
    Holds (writes.foldl NetworkMessage.write msg) (payload ++ bytesOf writes) := by
  induction writes generalizing msg payload with
  | nil => exact h.skip
  | cons w writes ih =>
    have hbytes : bytesOf (w :: writes) = w.bytes ++ bytesOf writes := rfl
    rw [hbytes, List.length_append, ← Nat.add_assoc] at hroom
    have hwritten := h.written_eq (Nat.le_trans (Nat.le_add_right _ _) hroom)
    have hfirst := h.write w
    rw [hwritten] at hfirst
    rw [hbytes, ← List.append_assoc]
    refine ih hfirst ?_
    rwa [List.length_append]

end NetworkMessage

end Moonlight
