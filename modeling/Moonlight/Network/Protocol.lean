import Moonlight.Network.OutputMessage
import Moonlight.Security.Xtea

/-!
# Framing

Model of how `Protocol` sends a message (server/network/protocol/protocol.cpp): `getOutputBuffer` chooses the
output message that a payload goes to, and `onSendMessage` puts the length before the payload, fills up to
whole blocks, encrypts, and adds the checksum or the sequence number and the outer length.

`Protocol.decode` is the inverse, in terms of bytes only. The padding is left out without a word where
`canAdd` refuses it. Of the lengths a payload can have, this happens for the longest one, 24567 bytes, and
for no other (`onSendMessage_framed_iff`).
-/

namespace Moonlight

open Words

/-- A message that is handed to `send`, if any, and the one to write to. -/
def getOutputBuffer (outputBuffer : Option OutputMessage) (buffer : Nat → UInt8) (size : Nat) :
    Option OutputMessage × OutputMessage :=
  match outputBuffer with
  | none => (none, getOutputMessage buffer)
  | some msg =>
    if msg.length + size > MAX_PROTOCOL_BODY_LENGTH then (some msg, getOutputMessage buffer) else (none, msg)

/-- `ProtocolGame::writeToOutputBuffer` -/
def writeToOutputBuffer (outputBuffer : Option OutputMessage) (buffer : Nat → UInt8) (msg : NetworkMessage) :
    Option OutputMessage × OutputMessage :=
  let (sent, out) := getOutputBuffer outputBuffer buffer msg.length
  (sent, out.append msg)

structure Protocol where
  key : Xtea.Key
  sequenceNumber : UInt32 := 0
  encryptionEnabled : Bool := false
  checksumEnabled : Bool := true
  compactCrypt : Bool := false
  rawMessages : Bool := false

namespace Protocol

/-- The cipher works on whole blocks, also on the last one if the length ends inside it. -/
def XTEA_encrypt (protocol : Protocol) (msg : OutputMessage) : OutputMessage :=
  let paddingBytes := msg.length % 8
  let msg := if paddingBytes ≠ 0 then
      { msg with toNetworkMessage := msg.addPaddingBytes (8 - paddingBytes) }
    else msg
  let start := msg.outputBufferStart
  let data := Memory.read msg.buffer start (8 * ((msg.length + 7) / 8))
  { msg with buffer := Memory.write msg.buffer start (Xtea.encrypt data protocol.key) }

/-- The length that is given to `xtea::decrypt`, before its conversion to `size_t`. -/
def decryptLength (msg : NetworkMessage) : Int := msg.length - 6

def XTEA_decrypt (protocol : Protocol) (msg : NetworkMessage) : Bool × NetworkMessage :=
  -- also of a negative number, `& 7` is the remainder
  if decryptLength msg % 8 ≠ 0 then (false, msg)
  else
    let length := (decryptLength msg % 2 ^ 64).toNat
    let data := Memory.read msg.buffer msg.position (8 * ((length + 7) / 8))
    let msg := { msg with buffer := Memory.write msg.buffer msg.position (Xtea.decrypt data protocol.key) }
    let (innerLength, msg) := msg.get uint16
    if innerLength + 8 > msg.length then (false, msg)
    else (true, { msg with length := msgSize innerLength.toNat })

def onSendMessage (protocol : Protocol) (msg : OutputMessage) : OutputMessage × Protocol :=
  if !protocol.rawMessages then
    let msg := msg.writeMessageLength
    if protocol.encryptionEnabled then
      let msg := protocol.XTEA_encrypt msg
      let (msg, sequenceNumber) :=
        if !protocol.compactCrypt then
          msg.addCryptoHeader (if protocol.checksumEnabled then 1 else 0) protocol.sequenceNumber
        else msg.addCryptoHeader 2 protocol.sequenceNumber
      (msg, { protocol with sequenceNumber := sequenceNumber })
    else (msg, protocol)
  else (msg, protocol)

/-! ### What the other side reads -/

/-- 1 for a checksum, 2 for a sequence number, 0 for neither. -/
def checksumMode (protocol : Protocol) : UInt8 :=
  if protocol.compactCrypt then 2 else if protocol.checksumEnabled then 1 else 0

/-- The payload of an output, with everything checked on the way: the outer length, the checksum or the
sequence number, that the encrypted bytes are whole blocks, the inner length. -/
def decode (protocol : Protocol) (wire : Bytes) : Option Bytes := do
  let (outerLength, rest) ← PropStream.read uint16 wire
  guard (rest.length = outerLength)
  let header := if protocol.checksumMode = 0 then 0 else 4
  let body := rest.drop header
  guard (rest.take header = OutputMessage.cryptoHeader protocol.checksumMode protocol.sequenceNumber body)
  guard (8 ∣ body.length)
  let (innerLength, plain) ← PropStream.read uint16 (Xtea.decrypt body protocol.key)
  guard (innerLength ≤ plain.length)
  return plain.take innerLength.toNat

/-- The bytes that are reserved for headers and the headers that are written: the two lengths, and the
checksum or the sequence number. -/
def headersLength (protocol : Protocol) : Nat := 2 + (if protocol.checksumMode = 0 then 0 else 4) + 2

/-- The message is framed as it is meant to be. -/
structure Framed (protocol : Protocol) (msg : OutputMessage) (payload : Bytes) : Prop where
  /-- The encrypted part is a number of whole blocks. -/
  blocks : 8 ∣ (protocol.XTEA_encrypt msg.writeMessageLength).length
  /-- The headers take up place before the payload, and there is enough of it. -/
  headers : (protocol.onSendMessage msg).1.outputBufferStart + protocol.headersLength =
    INITIAL_BUFFER_POSITION
  decoded : protocol.decode (protocol.onSendMessage msg).1.output = some payload

end Protocol

/-! ### The messages that are sent -/

/-- A message made by calls that write to it, with the payload that these calls wrote. -/
inductive NetworkMessage.Built : NetworkMessage → Bytes → Prop where
  | new (buffer : Nat → UInt8) : Built { buffer := buffer } []
  | write {msg : NetworkMessage} {payload : Bytes} (w : NetworkMessage.Write) :
      Built msg payload → Built (msg.write w) (payload ++ msg.written w)

/-- An output message with the payload it was given: by calls that write to it, or by appending a message to
what `getOutputBuffer` chooses. -/
inductive OutputMessage.Written : OutputMessage → Bytes → Prop where
  | new (buffer : Nat → UInt8) : Written (getOutputMessage buffer) []
  | write {msg : OutputMessage} {payload : Bytes} (w : NetworkMessage.Write) : Written msg payload →
      Written { msg with toNetworkMessage := msg.write w } (payload ++ msg.written w)
  | appendFirst {other : NetworkMessage} {body : Bytes} (buffer : Nat → UInt8) : other.Built body →
      Written (writeToOutputBuffer none buffer other).2 body
  | append {held : OutputMessage} {payload : Bytes} {other : NetworkMessage} {body : Bytes}
      (buffer : Nat → UInt8) : Written held payload → other.Built body →
      Written (writeToOutputBuffer (some held) buffer other).2
        (if (getOutputBuffer (some held) buffer other.length).1.isSome then body else payload ++ body)

theorem NetworkMessage.Built.holds {msg : NetworkMessage} {payload : Bytes} (h : msg.Built payload) :
    msg.Holds payload := by
  induction h with
  | new buffer => exact Holds.new buffer
  | write w _ ih => exact ih.write w

namespace OutputMessage

theorem holds_append {msg : OutputMessage} {payload body : Bytes} {other : NetworkMessage}
    (h : msg.Holds payload) (hother : other.Holds body) (hfits : payload.length + body.length ≤ 24567) :
    (msg.append other).Holds (payload ++ body) := by
  show (msg.put (Memory.read other.buffer INITIAL_BUFFER_POSITION other.length)).Holds _
  rw [hother.length, hother.buffer]
  exact h.put hfits

theorem holds_append_new {body : Bytes} {other : NetworkMessage} (hother : other.Holds body)
    (buffer : Nat → UInt8) : ((getOutputMessage buffer).append other).Holds body := by
  have hnew : (getOutputMessage buffer).Holds [] := NetworkMessage.Holds.new buffer
  have hfits : ([] : Bytes).length + body.length ≤ 24567 := by
    rw [List.length_nil, Nat.zero_add]
    exact hother.bound
  exact holds_append hnew hother hfits

theorem Written.holds {msg : OutputMessage} {payload : Bytes} (h : Written msg payload) :
    msg.Holds payload ∧ msg.outputBufferStart = INITIAL_BUFFER_POSITION := by
  induction h with
  | new buffer => exact ⟨NetworkMessage.Holds.new buffer, rfl⟩
  | write w _ ih => exact ⟨ih.1.write w, ih.2⟩
  | appendFirst buffer hother => exact ⟨holds_append_new hother.holds buffer, rfl⟩
  | @append held payload other body buffer _ hother ih =>
    unfold writeToOutputBuffer getOutputBuffer
    by_cases hfull : held.length + other.length > MAX_PROTOCOL_BODY_LENGTH
    · simp only [if_pos hfull]
      exact ⟨holds_append_new hother.holds buffer, rfl⟩
    · simp only [if_neg hfull]
      refine ⟨holds_append ih.1 hother.holds ?_, ih.2⟩
      rw [ih.1.length, hother.holds.length] at hfull
      exact Nat.le_trans (Nat.not_lt.mp hfull) (by decide)

end OutputMessage

namespace Protocol

/-- The inner length and the payload. -/
def inner (payload : Bytes) : Bytes := PropStream.write uint16 payload.length ++ payload

theorem length_inner (payload : Bytes) : (inner payload).length = 2 + payload.length := by
  rw [inner, List.length_append, PropStream.length_write]
  rfl

theorem occupies_inner {msg : OutputMessage} {payload : Bytes} (h : msg.Holds payload)
    (hstart : msg.outputBufferStart = INITIAL_BUFFER_POSITION) :
    msg.writeMessageLength.Occupies 6 (inner payload) := by
  have hpayload : msg.Occupies 8 payload := ⟨hstart, h.length, h.buffer⟩
  have hbound := h.bound
  exact hpayload.writeMessageLength (by decide) (by omega)

/-- The bytes that fill up to whole blocks. -/
def padding (payload : Bytes) : Bytes := List.replicate ((8 - (inner payload).length % 8) % 8) 0x33

theorem eight_dvd_padded (payload : Bytes) : 8 ∣ (inner payload ++ padding payload).length := by
  rw [List.length_append, padding, List.length_replicate]
  omega

theorem length_padding_lt (payload : Bytes) : (padding payload).length < 8 := by
  rw [padding, List.length_replicate]
  exact Nat.mod_lt _ (by decide)

theorem occupies_padded {msg : OutputMessage} {payload : Bytes} (h : msg.Holds payload)
    (hstart : msg.outputBufferStart = INITIAL_BUFFER_POSITION) (hlength : payload.length ≠ 24567) :
    OutputMessage.Occupies (if msg.writeMessageLength.length % 8 ≠ 0 then
        { msg.writeMessageLength with
          toNetworkMessage := msg.writeMessageLength.addPaddingBytes (8 - msg.writeMessageLength.length % 8) }
      else msg.writeMessageLength) 6 (inner payload ++ padding payload) := by
  have hinner := occupies_inner h hstart
  have hlen := length_inner payload
  have hbound := h.bound
  rw [hinner.length]
  by_cases hpad : (inner payload).length % 8 = 0
  · have hnone : padding payload = [] := by
      rw [padding, hpad]
      rfl
    rw [if_neg (not_not_intro hpad), hnone, List.append_nil]
    exact hinner
  · have hpadding : padding payload = List.replicate (8 - (inner payload).length % 8) 0x33 := by
      rw [padding, Nat.mod_eq_of_lt]
      omega
    have hposition : msg.writeMessageLength.position = 6 + (inner payload).length := by
      show msg.position = _
      rw [h.position, hlen, INITIAL_BUFFER_POSITION]
      omega
    -- 24567 + 2 leaves 1 over, and the position is then too far for 7 more; a shorter payload that leaves 1
    -- over has at most 24559 bytes
    have hadd : msg.writeMessageLength.canAdd (8 - (inner payload).length % 8) = true := by
      unfold NetworkMessage.canAdd
      rw [decide_eq_true_iff, hposition, hlen, MAX_BODY_LENGTH, NETWORKMESSAGE_MAXSIZE]
      omega
    rw [if_pos hpad, hpadding]
    unfold NetworkMessage.addPaddingBytes
    rw [hadd]
    refine ⟨hinner.place, ?_, ?_⟩
    · show msgSize (msg.writeMessageLength.length + _) = _
      rw [hinner.length, List.length_append, List.length_replicate]
      exact msgSize_of_lt (by omega)
    · show Memory.read (Memory.write msg.writeMessageLength.buffer msg.writeMessageLength.position _) _ _ = _
      rw [hposition, List.length_append, Memory.read_write_append, hinner.buffer]

theorem occupies_encrypted {msg : OutputMessage} {payload : Bytes} (protocol : Protocol)
    (h : msg.Holds payload) (hstart : msg.outputBufferStart = INITIAL_BUFFER_POSITION)
    (hlength : payload.length ≠ 24567) :
    (protocol.XTEA_encrypt msg.writeMessageLength).Occupies 6
      (Xtea.encrypt (inner payload ++ padding payload) protocol.key) := by
  have hpadded := occupies_padded h hstart hlength
  have hwhole : 8 * (((inner payload ++ padding payload).length + 7) / 8) =
      (inner payload ++ padding payload).length := by
    have := eight_dvd_padded payload
    omega
  unfold XTEA_encrypt
  refine ⟨hpadded.place, hpadded.length.trans (Xtea.length_encrypt _ _).symm, ?_⟩
  dsimp only
  rw [hpadded.length, hpadded.place, hwhole, hpadded.buffer, Memory.read_write]

theorem checksumMode_cases (protocol : Protocol) :
    protocol.checksumMode = 0 ∨ protocol.checksumMode = 1 ∨ protocol.checksumMode = 2 := by
  unfold checksumMode
  cases protocol.compactCrypt <;> cases protocol.checksumEnabled <;> simp

theorem length_cryptoHeader (protocol : Protocol) (body : Bytes) :
    (OutputMessage.cryptoHeader protocol.checksumMode protocol.sequenceNumber body).length =
      if protocol.checksumMode = 0 then 0 else 4 := by
  rw [OutputMessage.length_cryptoHeader]
  obtain h | h | h := protocol.checksumMode_cases <;> rw [h] <;> rfl

theorem onSendMessage_eq {protocol : Protocol} (hraw : protocol.rawMessages = false)
    (henc : protocol.encryptionEnabled = true) (msg : OutputMessage) :
    (protocol.onSendMessage msg).1 = ((protocol.XTEA_encrypt msg.writeMessageLength).addCryptoHeader
      protocol.checksumMode protocol.sequenceNumber).1 := by
  unfold onSendMessage checksumMode
  rw [hraw, henc]
  cases protocol.compactCrypt <;> rfl

theorem uint16_wrap_length {bytes : Bytes} (h : bytes.length < 65536) :
    uint16.wrap bytes.length = bytes.length := by
  refine (Word.wrap_eq_iff _ _).mpr ⟨Int.natCast_nonneg _, ?_⟩
  exact Int.ofNat_lt.mpr h

theorem decode_of_decrypt {protocol : Protocol} {payload pad body : Bytes}
    (hbody : Xtea.decrypt body protocol.key = inner payload ++ pad) (hblocks : 8 ∣ body.length)
    (hlength : body.length < 65532) :
    let rest := OutputMessage.cryptoHeader protocol.checksumMode protocol.sequenceNumber body ++ body
    protocol.decode (PropStream.write uint16 rest.length ++ rest) = some payload := by
  intro rest
  have hheader := protocol.length_cryptoHeader body
  have hrest : uint16.wrap rest.length = rest.length := by
    refine uint16_wrap_length ?_
    rw [List.length_append, hheader]
    split <;> omega
  have hplain : (inner payload ++ pad).length = body.length := by
    rw [← hbody, Xtea.length_decrypt]
  have hpayload : uint16.wrap payload.length = payload.length := by
    refine uint16_wrap_length ?_
    rw [List.length_append, length_inner] at hplain
    omega
  have htake : rest.take (if protocol.checksumMode = 0 then 0 else 4) =
      OutputMessage.cryptoHeader protocol.checksumMode protocol.sequenceNumber body :=
    List.take_left' hheader
  have hdrop : rest.drop (if protocol.checksumMode = 0 then 0 else 4) = body := List.drop_left' hheader
  have hread : PropStream.read uint16 (inner payload ++ pad) = some (↑payload.length, payload ++ pad) := by
    rw [inner, List.append_assoc, PropStream.read_write, hpayload]
  have hinner : (payload.length : Int) ≤ (payload ++ pad).length := by
    rw [List.length_append]
    omega
  unfold decode
  rw [PropStream.read_write, hrest]
  simp only [Option.bind_eq_bind, Option.bind_some, guard_true, htake, hdrop, hblocks, hbody, hread, hinner,
    Int.toNat_natCast, List.take_left]
  rfl

theorem not_blocks_of_length {msg : OutputMessage} {payload : Bytes} (protocol : Protocol)
    (h : msg.Holds payload) (hstart : msg.outputBufferStart = INITIAL_BUFFER_POSITION)
    (hlength : payload.length = 24567) : ¬ 8 ∣ (protocol.XTEA_encrypt msg.writeMessageLength).length := by
  have hinner := occupies_inner h hstart
  have hlen : msg.writeMessageLength.length = 24569 := by
    rw [hinner.length, length_inner, hlength]
  have hfull : msg.writeMessageLength.canAdd (8 - 24569 % 8) = false := by
    unfold NetworkMessage.canAdd
    show decide (_ + msg.position < _) = false
    rw [h.position, hlength]
    rfl
  have hskip : msg.writeMessageLength.addPaddingBytes (8 - 24569 % 8) =
      msg.writeMessageLength.toNetworkMessage := by
    unfold NetworkMessage.addPaddingBytes
    rw [hfull]
    rfl
  unfold XTEA_encrypt
  dsimp only
  rw [hlen, if_pos (by decide), hskip]
  show ¬ 8 ∣ msg.writeMessageLength.length
  rw [hlen]
  decide

/-- **Framing.** With encryption, whatever the key and whether with a checksum, a sequence number or neither:
a message with any payload that can be written is framed so that decoding returns the payload, unless the
payload has the greatest length there is. -/
theorem onSendMessage_framed_iff {msg : OutputMessage} {payload : Bytes} (hwritten : msg.Written payload)
    {protocol : Protocol} (hraw : protocol.rawMessages = false) (henc : protocol.encryptionEnabled = true) :
    protocol.Framed msg payload ↔ payload.length ≠ 24567 := by
  obtain ⟨hholds, hstart⟩ := hwritten.holds
  constructor
  · intro hframed hlength
    exact not_blocks_of_length protocol hholds hstart hlength hframed.blocks
  · intro hlength
    let body := Xtea.encrypt (inner payload ++ padding payload) protocol.key
    have hbody : (protocol.XTEA_encrypt msg.writeMessageLength).Occupies 6 body :=
      occupies_encrypted protocol hholds hstart hlength
    have hblocks : 8 ∣ body.length := by
      rw [Xtea.length_encrypt]
      exact eight_dvd_padded payload
    have hshort : body.length + 6 < 65536 := by
      have hbound := hholds.bound
      have hpad := length_padding_lt payload
      rw [Xtea.length_encrypt, List.length_append, length_inner]
      omega
    have hsent := hbody.addCryptoHeader hshort protocol.checksumMode protocol.sequenceNumber
    rw [← onSendMessage_eq hraw henc] at hsent
    refine ⟨?_, ?_, ?_⟩
    · rw [hbody.length]
      exact hblocks
    · rw [hsent.place, length_cryptoHeader, headersLength]
      split <;> rfl
    · rw [hsent.output]
      exact decode_of_decrypt (Xtea.decrypt_encrypt _ _) hblocks (by omega)

theorem onSendMessage_framed_oneByte :
    Framed { key := fun i => UInt32.ofNat i, encryptionEnabled := true }
      { toNetworkMessage := (getOutputMessage fun _ => 0).write (.addByte 7) } [7] :=
  (onSendMessage_framed_iff (.write (.addByte 7) (.new fun _ => 0)) rfl rfl).mpr (by decide)

end Protocol

/-! ### The longest payload -/

theorem NetworkMessage.Built.addReplicate {msg : NetworkMessage} {n k : Nat} {b : UInt8}
    (h : msg.Built (List.replicate n b)) (hfits : n + k ≤ 24567) (hsize : k ≤ 8192) :
    (msg.addBytes (List.replicate k b)).Built (List.replicate (n + k) b) := by
  have hadd : msg.canAdd (List.replicate k b).length = true := by
    refine h.holds.canAdd_iff.mpr ?_
    rw [List.length_replicate, List.length_replicate]
    exact hfits
  have hall : msg.written (.addBytes (List.replicate k b)) = List.replicate k b :=
    if_pos ⟨hadd, List.length_replicate.trans_le hsize⟩
  have hbuilt := h.write (.addBytes (List.replicate k b))
  rw [hall, List.replicate_append_replicate] at hbuilt
  exact hbuilt

/-- A message filled up to the limit of `canAdd`. -/
def fullMessage : NetworkMessage :=
  let msg : NetworkMessage := { buffer := fun _ => 0 }
  ((msg.addBytes (List.replicate 8192 1)).addBytes (List.replicate 8192 1)).addBytes (List.replicate 8183 1)

theorem fullMessage_built : fullMessage.Built (List.replicate 24567 1) := by
  have hnew : NetworkMessage.Built { buffer := fun _ => 0 } (List.replicate 0 1) := .new _
  have hfirst := hnew.addReplicate (k := 8192) (by decide) (by decide)
  have hsecond := hfirst.addReplicate (k := 8192) (by decide) (by decide)
  exact hsecond.addReplicate (k := 8183) (by decide) (by decide)

/-- Sent as it is, its encrypted part is 24569 bytes long. -/
theorem fullMessage_not_framed :
    (writeToOutputBuffer none (fun _ => 0) fullMessage).2.Written (List.replicate 24567 1) ∧
      ¬ Protocol.Framed { key := fun _ => 0, encryptionEnabled := true }
        (writeToOutputBuffer none (fun _ => 0) fullMessage).2 (List.replicate 24567 1) := by
  have hwritten := OutputMessage.Written.appendFirst (fun _ => 0) fullMessage_built
  obtain ⟨hholds, hstart⟩ := hwritten.holds
  refine ⟨hwritten, fun hframed => ?_⟩
  exact Protocol.not_blocks_of_length _ hholds hstart List.length_replicate hframed.blocks

end Moonlight
