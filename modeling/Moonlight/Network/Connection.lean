import Moonlight.Network.Protocol

/-!
# Inbound packets

Model of how a connection reads a packet of an established game (server/network/connection/connection.cpp):
two bytes of header give the size of the content; the content is read behind them, into the message that the
packets before were read into; its first four bytes are skipped, the rest is decrypted, and the parser reads
from what the inner length leaves of it.

`Cursor` says what reading is for: it goes through a payload, piece by piece. The message refines it
(`Reading`): after decryption, whatever the parser calls, it gets what the cursor gives on the payload of this
packet, so nothing of another one (`received_inbound`). A piece that does not fit sets `overrun` and leaves
the position; but `getString` and `getPosition` read more than one piece, and the pieces that fit are gone.
-/

namespace Moonlight

open Words

/-! ### Reading a payload -/

/-- What is left of a payload, and whether a read went beyond it. -/
structure Cursor where
  rest : Bytes
  overrun : Bool

namespace Cursor

/-- The next piece, if there is enough left for it. -/
def take (n : Nat) (cursor : Cursor) : Option Bytes × Cursor :=
  if n ≤ cursor.rest.length then (some (cursor.rest.take n), { cursor with rest := cursor.rest.drop n })
  else (none, { cursor with overrun := true })

def getByte (cursor : Cursor) : UInt8 × Cursor :=
  let (piece, cursor) := cursor.take 1
  ((piece.bind List.head?).getD 0, cursor)

def get (t : Word) (cursor : Cursor) : Int × Cursor :=
  let (piece, cursor) := cursor.take t.size
  ((piece.map (NetworkMessage.valueOf t)).getD 0, cursor)

def getChars (stringLen : Nat) (cursor : Cursor) : Bytes × Cursor :=
  let (piece, cursor) := cursor.take stringLen
  (piece.getD [], cursor)

def getString (stringLen : Nat) (cursor : Cursor) : Bytes × Cursor :=
  if stringLen = 0 then
    let (len, cursor) := cursor.get uint16
    cursor.getChars len.toNat
  else cursor.getChars stringLen

def getPosition (cursor : Cursor) : NetworkMessage.Position × Cursor :=
  let (x, cursor) := cursor.get uint16
  let (y, cursor) := cursor.get uint16
  let (z, cursor) := cursor.getByte
  (⟨UInt16.ofInt x, UInt16.ofInt y, z⟩, cursor)

end Cursor

/-- A call that the parser makes. -/
inductive Call where
  | getByte
  | get (t : Word)
  | getString (stringLen : Nat)
  | getPosition

/-- What a call returns. -/
inductive Value where
  | byte (value : UInt8)
  | word (value : Int)
  | string (value : Bytes)
  | position (value : NetworkMessage.Position)

def NetworkMessage.call (msg : NetworkMessage) : Call → Value × NetworkMessage
  | .getByte => (.byte msg.getByte.1, msg.getByte.2)
  | .get t => (.word (msg.get t).1, (msg.get t).2)
  | .getString stringLen => (.string (msg.getString stringLen).1, (msg.getString stringLen).2)
  | .getPosition => (.position msg.getPosition.1, msg.getPosition.2)

def Cursor.call (cursor : Cursor) : Call → Value × Cursor
  | .getByte => (.byte cursor.getByte.1, cursor.getByte.2)
  | .get t => (.word (cursor.get t).1, (cursor.get t).2)
  | .getString stringLen => (.string (cursor.getString stringLen).1, (cursor.getString stringLen).2)
  | .getPosition => (.position cursor.getPosition.1, cursor.getPosition.2)

theorem Cursor.getPosition_of_lt {cursor : Cursor} (h : cursor.rest.length < 5) :
    cursor.getPosition.2 = ⟨[], true⟩ := by
  obtain ⟨rest, overrun⟩ := cursor
  match rest, h with
  | [], _ => rfl
  | [_], _ => rfl
  | [_, _], _ => rfl
  | [_, _, _], _ => rfl
  | [_, _, _, _], _ => rfl

/-! ### The message refines the cursor -/

/-- The message has as much left to read as the cursor, and it is the same. -/
structure Reading (innerLength : Nat) (msg : NetworkMessage) (cursor : Cursor) : Prop where
  length : msg.length = innerLength
  bound : innerLength ≤ 24567
  start : INITIAL_BUFFER_POSITION ≤ msg.position
  place : msg.position + cursor.rest.length = innerLength + 8
  rest : Memory.read msg.buffer msg.position cursor.rest.length = cursor.rest
  overrun : msg.overrun = cursor.overrun

namespace Reading

variable {innerLength n : Nat} {msg : NetworkMessage} {cursor : Cursor}

theorem canRead_of_le (h : Reading innerLength msg cursor) (hn : n ≤ cursor.rest.length) :
    msg.canRead n = (true, msg) := by
  have hplace := h.place
  have hbound := h.bound
  have hlength := h.length
  exact NetworkMessage.canRead_of_le (by omega) (by omega)

theorem canRead_of_lt (h : Reading innerLength msg cursor) (hn : cursor.rest.length < n) :
    msg.canRead n = (false, { msg with overrun := true }) := by
  have hplace := h.place
  unfold NetworkMessage.canRead
  rw [if_pos]
  rw [h.length]
  omega

theorem refuse (h : Reading innerLength msg cursor) :
    Reading innerLength { msg with overrun := true } { cursor with overrun := true } :=
  ⟨h.length, h.bound, h.start, h.place, h.rest, rfl⟩

theorem read_take (h : Reading innerLength msg cursor) (hn : n ≤ cursor.rest.length) :
    Memory.read msg.buffer msg.position n = cursor.rest.take n ∧
      Memory.read msg.buffer (msg.position + n) (cursor.rest.length - n) = cursor.rest.drop n := by
  have hsplit : Memory.read msg.buffer msg.position n ++
      Memory.read msg.buffer (msg.position + n) (cursor.rest.length - n) =
        cursor.rest.take n ++ cursor.rest.drop n := by
    rw [← Memory.read_add, Nat.add_sub_cancel' hn, h.rest, List.take_append_drop]
  refine List.append_inj hsplit ?_
  rw [Memory.length_read, List.length_take, Nat.min_eq_left hn]

theorem advance (h : Reading innerLength msg cursor) (hn : n ≤ cursor.rest.length) :
    Reading innerLength { msg with position := msgSize (msg.position + n) }
      { cursor with rest := cursor.rest.drop n } := by
  have hplace := h.place
  have hbound := h.bound
  have hposition : msgSize (msg.position + n) = msg.position + n := msgSize_of_lt (by omega)
  refine ⟨h.length, h.bound, ?_, ?_, ?_, h.overrun⟩
  · show _ ≤ msgSize (msg.position + n)
    rw [hposition]
    exact Nat.le_trans h.start (Nat.le_add_right _ _)
  · show msgSize (msg.position + n) + (cursor.rest.drop n).length = _
    rw [hposition, List.length_drop]
    omega
  · show Memory.read msg.buffer (msgSize (msg.position + n)) (cursor.rest.drop n).length = _
    rw [hposition, List.length_drop]
    exact (h.read_take hn).2

theorem getByte (h : Reading innerLength msg cursor) :
    msg.getByte.1 = cursor.getByte.1 ∧ Reading innerLength msg.getByte.2 cursor.getByte.2 := by
  unfold NetworkMessage.getByte Cursor.getByte Cursor.take
  by_cases hn : 1 ≤ cursor.rest.length
  · rw [h.canRead_of_le hn, if_pos hn]
    refine ⟨?_, h.advance hn⟩
    have hbyte : [msg.buffer msg.position] = cursor.rest.take 1 := (h.read_take hn).1
    show msg.buffer msg.position = ((cursor.rest.take 1).head?).getD 0
    rw [← hbyte]
    rfl
  · rw [h.canRead_of_lt (Nat.not_le.mp hn), if_neg hn]
    exact ⟨rfl, h.refuse⟩

theorem get (h : Reading innerLength msg cursor) (t : Word) :
    (msg.get t).1 = (cursor.get t).1 ∧ Reading innerLength (msg.get t).2 (cursor.get t).2 := by
  unfold NetworkMessage.get Cursor.get Cursor.take
  by_cases hn : t.size ≤ cursor.rest.length
  · rw [h.canRead_of_le hn, if_pos hn]
    exact ⟨congrArg (NetworkMessage.valueOf t) (h.read_take hn).1, h.advance hn⟩
  · rw [h.canRead_of_lt (Nat.not_le.mp hn), if_neg hn]
    exact ⟨rfl, h.refuse⟩

theorem getChars (h : Reading innerLength msg cursor) (stringLen : Nat) :
    (msg.getChars stringLen).1 = (cursor.getChars stringLen).1 ∧
      Reading innerLength (msg.getChars stringLen).2 (cursor.getChars stringLen).2 := by
  unfold NetworkMessage.getChars Cursor.getChars Cursor.take
  by_cases hn : stringLen ≤ cursor.rest.length
  · rw [h.canRead_of_le hn, if_pos hn]
    exact ⟨(h.read_take hn).1, h.advance hn⟩
  · rw [h.canRead_of_lt (Nat.not_le.mp hn), if_neg hn]
    exact ⟨rfl, h.refuse⟩

theorem getString (h : Reading innerLength msg cursor) (stringLen : Nat) :
    (msg.getString stringLen).1 = (cursor.getString stringLen).1 ∧
      Reading innerLength (msg.getString stringLen).2 (cursor.getString stringLen).2 := by
  unfold NetworkMessage.getString Cursor.getString
  by_cases hlen : stringLen = 0
  · rw [if_pos hlen, if_pos hlen]
    obtain ⟨hread, h⟩ := h.get uint16
    dsimp only
    rw [hread]
    exact h.getChars _
  · rw [if_neg hlen, if_neg hlen]
    exact h.getChars _

theorem getPosition (h : Reading innerLength msg cursor) :
    msg.getPosition.1 = cursor.getPosition.1 ∧
      Reading innerLength msg.getPosition.2 cursor.getPosition.2 := by
  unfold NetworkMessage.getPosition Cursor.getPosition
  obtain ⟨hx, h⟩ := h.get uint16
  obtain ⟨hy, h⟩ := h.get uint16
  obtain ⟨hz, h⟩ := h.getByte
  dsimp only
  rw [hx, hy, hz]
  exact ⟨rfl, h⟩

theorem call (h : Reading innerLength msg cursor) (c : Call) :
    (msg.call c).1 = (cursor.call c).1 ∧ Reading innerLength (msg.call c).2 (cursor.call c).2 := by
  cases c with
  | getByte => exact ⟨congrArg Value.byte h.getByte.1, h.getByte.2⟩
  | get t => exact ⟨congrArg Value.word (h.get t).1, (h.get t).2⟩
  | getString stringLen => exact ⟨congrArg Value.string (h.getString _).1, (h.getString _).2⟩
  | getPosition => exact ⟨congrArg Value.position h.getPosition.1, h.getPosition.2⟩

end Reading

/-! ### Reads that do not fit -/

/-- What happens to a call that goes beyond the end of the message. What is read in one piece leaves the
position; of what is read in several pieces, those that fit are read. -/
structure Refuses (msg : NetworkMessage) : Prop where
  getByte : msg.length + 8 < msg.position + 1 → msg.getByte = (0, { msg with overrun := true })
  get : ∀ t, msg.length + 8 < msg.position + t.size → msg.get t = (0, { msg with overrun := true })
  getString : ∀ stringLen, stringLen ≠ 0 → msg.length + 8 < msg.position + stringLen →
    msg.getString stringLen = ([], { msg with overrun := true })
  getString_length : msg.length + 8 < msg.position + 2 →
    msg.getString 0 = ([], { msg with overrun := true })
  getString_chars : msg.position + 2 ≤ msg.length + 8 →
    msg.length + 8 < msg.position + 2 + (msg.get uint16).1.toNat →
    msg.getString 0 = ([], { msg with overrun := true, position := msg.position + 2 })
  getPosition : msg.length + 8 < msg.position + 5 →
    msg.getPosition.2.overrun = true ∧ msg.getPosition.2.position = msg.length + 8

namespace Reading

variable {innerLength n : Nat} {msg : NetworkMessage} {cursor : Cursor}

theorem lt_of_end_lt (h : Reading innerLength msg cursor) (hn : msg.length + 8 < msg.position + n) :
    cursor.rest.length < n := by
  have hplace := h.place
  rw [h.length] at hn
  omega

theorem get_of_lt (h : Reading innerLength msg cursor) {t : Word}
    (ht : msg.length + 8 < msg.position + t.size) : msg.get t = (0, { msg with overrun := true }) := by
  unfold NetworkMessage.get
  rw [h.canRead_of_lt (h.lt_of_end_lt ht)]
  rfl

theorem get_snd_of_le (h : Reading innerLength msg cursor) {t : Word}
    (ht : msg.position + t.size ≤ msg.length + 8) :
    (msg.get t).2 = { msg with position := msg.position + t.size } := by
  have hbound := h.bound
  have hlength := h.length
  rw [NetworkMessage.get_of_le ht (by omega)]

theorem getChars_of_lt (h : Reading innerLength msg cursor) (hn : msg.length + 8 < msg.position + n) :
    msg.getChars n = ([], { msg with overrun := true }) := by
  unfold NetworkMessage.getChars
  rw [h.canRead_of_lt (h.lt_of_end_lt hn)]
  rfl

theorem getChars_zero (h : Reading innerLength msg cursor) : msg.getChars 0 = ([], msg) := by
  have hplace := h.place
  have hbound := h.bound
  have hposition : msgSize (msg.position + 0) = msg.position := msgSize_of_lt (by omega)
  unfold NetworkMessage.getChars
  rw [h.canRead_of_le (Nat.zero_le _)]
  dsimp only
  rw [hposition]
  rfl

theorem refuses (h : Reading innerLength msg cursor) : Refuses msg where
  getByte hn := by
    unfold NetworkMessage.getByte
    rw [h.canRead_of_lt (h.lt_of_end_lt hn)]
    rfl
  get t ht := h.get_of_lt ht
  getString stringLen hlen hn := by
    unfold NetworkMessage.getString
    rw [if_neg hlen]
    exact h.getChars_of_lt hn
  getString_length hn := by
    -- the length counts as 0
    unfold NetworkMessage.getString
    rw [if_pos rfl, h.get_of_lt (t := uint16) hn]
    exact h.refuse.getChars_zero
  getString_chars hfits hn := by
    have hnext := h.get_snd_of_le (t := uint16) hfits
    have hrest := (h.get uint16).2.getChars_of_lt (n := (msg.get uint16).1.toNat) (by
      rw [hnext]
      exact hn)
    unfold NetworkMessage.getString
    rw [if_pos rfl]
    dsimp only
    rw [hrest, hnext]
    rfl
  getPosition hn := by
    have hcursor : cursor.getPosition.2 = ⟨[], true⟩ := Cursor.getPosition_of_lt (h.lt_of_end_lt hn)
    have hend := h.getPosition.2
    rw [hcursor] at hend
    refine ⟨hend.overrun, ?_⟩
    rw [h.length]
    exact hend.place

end Reading

/-! ### Packets -/

/-- What a client sends at one go: two bytes of header, and as many of content as they say. -/
structure Packet where
  low : UInt8
  high : UInt8
  content : Bytes
  complete : content.length = low.toNat ||| high.toNat <<< 8

/-- How many bytes are received for the packet. -/
def Packet.received (packet : Packet) : Nat := 2 + packet.content.length

/-- The parser, which makes these calls whatever they return; it only runs on what could be decrypted. -/
def Protocol.onRecvMessage (protocol : Protocol) (msg : NetworkMessage) (calls : List Call) :
    List Value × NetworkMessage :=
  if protocol.encryptionEnabled then
    let (ok, msg) := protocol.XTEA_decrypt msg
    if !ok then ([], msg) else Runs.transduce NetworkMessage.call msg calls
  else Runs.transduce NetworkMessage.call msg calls

/-- The message is used for all packets, one after the other. -/
structure Connection where
  msg : NetworkMessage
  closed : Bool := false

namespace Connection

/-- Whether the content is to be read, and if so with which length and to which position. -/
def parseHeader (msg : NetworkMessage) : Option NetworkMessage :=
  let size := msg.getLengthHeader
  if size = 0 ∨ size ≥ NETWORKMESSAGE_MAXSIZE - 16 then none
  else some { msg with length := msgSize (size + 2), position := 2 }

/-- The message as it is given to `onRecvMessage`; none if the connection is closed. -/
def receive (conn : Connection) (packet : Packet) : Option NetworkMessage :=
  let msg := { conn.msg with buffer := Memory.write conn.msg.buffer 0 [packet.low, packet.high] }
  (parseHeader msg).map fun msg =>
    let msg := { msg with buffer := Memory.write msg.buffer 2 packet.content }
    (msg.get uint32).2

/-- One packet, with the calls that the parser makes on it. -/
def step (protocol : Protocol) (conn : Connection) (packet : Packet × List Call) : Connection :=
  if conn.closed then conn
  else
    match conn.receive packet.1 with
    | none => { conn with closed := true }
    | some msg => { conn with msg := (protocol.onRecvMessage msg packet.2).2 }

theorem receive_spec {conn : Connection} {packet : Packet} {msg : NetworkMessage}
    (h : conn.receive packet = some msg) :
    msg.length = packet.received ∧ msg.position = 6 ∧ packet.received < 24576 := by
  obtain ⟨msg', hparse, rfl⟩ := Option.map_eq_some_iff.mp h
  have hheader : NetworkMessage.getLengthHeader { conn.msg with
      buffer := Memory.write conn.msg.buffer 0 [packet.low, packet.high] } = packet.content.length :=
    packet.complete.symm
  unfold parseHeader at hparse
  dsimp only at hparse
  rw [hheader] at hparse
  split at hparse
  · cases hparse
  next hsize =>
    cases hparse
    have hlt : packet.content.length < 24574 := by
      have := (not_or.mp hsize).2
      unfold NETWORKMESSAGE_MAXSIZE at this
      omega
    have hlength : msgSize (packet.content.length + 2) = packet.content.length + 2 :=
      msgSize_of_lt (by omega)
    dsimp only
    -- four bytes fit, even in a packet that is shorter: the end is 8 behind the length
    rw [hlength, NetworkMessage.get_of_le]
    · exact ⟨Nat.add_comm _ _, rfl, by rw [Packet.received]; omega⟩
    · show 2 + 4 ≤ packet.content.length + 2 + 8
      omega
    · show 2 + 4 < 24590
      decide

end Connection

theorem valueOf_uint16_nonneg (bytes : Bytes) : 0 ≤ NetworkMessage.valueOf uint16 bytes := by
  unfold NetworkMessage.valueOf PropStream.read
  cases PropStream.fromBytes uint16.size bytes with
  | none => exact Int.le_refl 0
  | some r => exact Int.emod_nonneg _ (by decide)

theorem Protocol.XTEA_decrypt_spec {protocol : Protocol} {msg m : NetworkMessage} (hposition : msg.position = 6)
    (hlength : msg.length < 24576) (h : protocol.XTEA_decrypt msg = (true, m)) :
    m.position = 8 ∧ 8 + m.length ≤ msg.length := by
  have htwo : msg.position + uint16.size = 8 := by
    rw [hposition]
    rfl
  unfold XTEA_decrypt at h
  split at h
  · cases h
  · dsimp only at h
    rw [NetworkMessage.get_of_le] at h
    · split at h
      · cases h
      next hinner =>
        cases h
        refine ⟨htwo, ?_⟩
        generalize hvalue : NetworkMessage.valueOf uint16 _ = inner at hinner ⊢
        have hnonneg : 0 ≤ inner := hvalue ▸ valueOf_uint16_nonneg _
        have hfits : inner + 8 ≤ msg.length := Int.not_lt.mp hinner
        show 8 + msgSize inner.toNat ≤ msg.length
        rw [msgSize_of_lt (by omega)]
        omega
    · show msg.position + uint16.size ≤ msg.length + 8
      omega
    · show msg.position + uint16.size < 24590
      omega

/-- What holds of a message, with so many bytes received for it, when `onRecvMessage` gets it. -/
structure Inbound (protocol : Protocol) (msg : NetworkMessage) (received : Nat) : Prop where
  /-- If anything is decrypted, then whole blocks, and no other bytes than those of the content. -/
  blocks : Protocol.decryptLength msg % 8 = 0 → 0 ≤ Protocol.decryptLength msg ∧
    2 ≤ msg.position ∧ msg.position + Protocol.decryptLength msg ≤ received
  /-- If there is anything to parse, it lies in what was received. -/
  inside : ∀ m, protocol.XTEA_decrypt msg = (true, m) → m.position = 8 ∧ 8 + m.length ≤ received
  /-- Whatever the parser calls, it stays in the payload. -/
  position : ∀ m, protocol.XTEA_decrypt msg = (true, m) → ∀ calls,
    let m' := (Runs.transduce NetworkMessage.call m calls).2
    m'.length = m.length ∧ 8 ≤ m'.position ∧ m'.position ≤ 8 + m.length
  /-- It gets what is read from the bytes of the payload alone. -/
  values : ∀ m, protocol.XTEA_decrypt msg = (true, m) → ∀ calls,
    (Runs.transduce NetworkMessage.call m calls).1 =
      (Runs.transduce Cursor.call ⟨Memory.read m.buffer 8 m.length, m.overrun⟩ calls).1
  /-- The next call is refused if it does not fit. -/
  refuses : ∀ m, protocol.XTEA_decrypt msg = (true, m) → ∀ calls,
    Refuses (Runs.transduce NetworkMessage.call m calls).2

/-- **Inbound packets** are read inside their payload, whatever packets were received before them on the
connection and whatever the parser called on these. -/
theorem received_inbound (protocol : Protocol) {conn : Connection} (earlier : List (Packet × List Call))
    {packet : Packet} {msg : NetworkMessage}
    (h : (Runs.run (Connection.step protocol) conn earlier).receive packet = some msg) :
    Inbound protocol msg packet.received := by
  obtain ⟨hlength, hposition, hmax⟩ := Connection.receive_spec h
  have hspec : ∀ m, protocol.XTEA_decrypt msg = (true, m) → m.position = 8 ∧ 8 + m.length ≤ packet.received := by
    intro m hm
    rw [← hlength]
    exact Protocol.XTEA_decrypt_spec hposition (by rw [hlength]; exact hmax) hm
  have hreading : ∀ m, protocol.XTEA_decrypt msg = (true, m) → ∀ calls,
      (Runs.transduce NetworkMessage.call m calls).1 =
          (Runs.transduce Cursor.call ⟨Memory.read m.buffer 8 m.length, m.overrun⟩ calls).1 ∧
        Reading m.length (Runs.transduce NetworkMessage.call m calls).2
          (Runs.transduce Cursor.call ⟨Memory.read m.buffer 8 m.length, m.overrun⟩ calls).2 := by
    intro m hm calls
    obtain ⟨hstart, hinside⟩ := hspec m hm
    refine Runs.transduce_simulates (R := Reading m.length) (fun _ _ c hr => hr.call c) ?_ calls
    refine ⟨rfl, by omega, Nat.le_of_eq hstart.symm, ?_, ?_, rfl⟩
    · rw [hstart, Memory.length_read, Nat.add_comm]
    · rw [hstart, Memory.length_read]
  refine ⟨fun hblocks => ?_, hspec, fun m hm calls => ?_, fun m hm calls => (hreading m hm calls).1,
    fun m hm calls => (hreading m hm calls).2.refuses⟩
  · -- a content of one, two or three bytes leaves a remainder
    unfold Protocol.decryptLength at hblocks ⊢
    unfold Packet.received at hlength ⊢
    omega
  · have hr := (hreading m hm calls).2
    have hplace := hr.place
    exact ⟨hr.length, hr.start, by omega⟩

/-! ### A string that is cut off -/

/-- The payload says that a string of five characters follows, and ends. -/
def cutOff : Packet where
  low := 12
  high := 0
  content := [0, 0, 0, 0] ++ Xtea.encrypt [2, 0, 5, 0, 0, 0, 0, 0] fun _ => 0
  complete := by rw [List.length_append, Xtea.length_encrypt]; rfl

def newConnection : Connection where
  msg := { buffer := fun _ => 0 }

/-- The message when the packet is received. -/
def cutOffReceived : NetworkMessage where
  length := 14
  position := 6
  buffer := Memory.write (Memory.write (fun _ => 0) 0 [cutOff.low, cutOff.high]) 2 cutOff.content

theorem receive_cutOff : newConnection.receive cutOff = some cutOffReceived := rfl

theorem received_inbound_cutOff :
    Inbound { key := fun _ => 0, encryptionEnabled := true } cutOffReceived 14 :=
  received_inbound _ [] receive_cutOff

/-- The message when the parser gets it. -/
def cutOffDecrypted : Bool × NetworkMessage :=
  Protocol.XTEA_decrypt { key := fun _ => 0, encryptionEnabled := true } cutOffReceived

/-- Of a string that does not fit, the length is read all the same. -/
theorem cutOff_getString : newConnection.receive cutOff = some cutOffReceived ∧
    cutOffDecrypted.1 = true ∧ cutOffDecrypted.2.position = 8 ∧
    cutOffDecrypted.2.length + 8 < 8 + 2 + (cutOffDecrypted.2.get uint16).1.toNat ∧
    (cutOffDecrypted.2.getString 0).2.overrun = true ∧ (cutOffDecrypted.2.getString 0).2.position = 10 := by
  refine ⟨receive_cutOff, ?_⟩
  decide +kernel

end Moonlight
