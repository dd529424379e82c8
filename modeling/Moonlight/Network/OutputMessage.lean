import Moonlight.Network.NetworkMessage

/-!
# Output messages

Model of `OutputMessage` (server/network/message/outputmessage.h) and of `adlerChecksum` (utils/tools.cpp). An
output message has a place where its output starts: after the bytes that are reserved for headers, at first.
A header is put before that place, which moves back, and the length counts it.

`OutputMessage.Occupies` says which bytes the output consists of. `Occupies.add_header` is what a header does
to it.
-/

namespace Moonlight

open Words

/-- The remainders are taken after each stretch of 5552 bytes, before a sum can overflow. -/
def adlerChecksum (data : Bytes) : UInt32 :=
  if data.length > NETWORKMESSAGE_MAXSIZE then 0
  else
    let (a, b) := (data.toChunks 5552).foldl (fun (a, b) chunk =>
      let (a, b) := chunk.foldl (fun (a, b) (x : UInt8) =>
        let a := a + x.toUInt32
        (a, b + a)) (a, b)
      (a % 65521, b % 65521)) ((1 : UInt32), (0 : UInt32))
    (b <<< 16) ||| a

structure OutputMessage extends NetworkMessage where
  outputBufferStart : Nat := INITIAL_BUFFER_POSITION

/-- A message that `OutputMessagePool::getOutputMessage` makes. Its memory is not cleared. -/
def getOutputMessage (buffer : Nat → UInt8) : OutputMessage := { buffer := buffer }

namespace OutputMessage

/-- `add_header<T>`. The assertion that there is room is left out: the place wraps around, as it does where
assertions are not compiled. -/
def add_header (t : Word) (msg : OutputMessage) (addHeader : Int) : OutputMessage :=
  let start := msgSize (msg.outputBufferStart + 65536 - t.size)
  { msg with
    outputBufferStart := start
    buffer := Memory.write msg.buffer start (PropStream.write t addHeader)
    length := msgSize (msg.length + t.size) }

def writeMessageLength (msg : OutputMessage) : OutputMessage := add_header uint16 msg msg.length

/-- The output of the message, as it is sent. -/
def output (msg : OutputMessage) : Bytes := Memory.read msg.buffer msg.outputBufferStart msg.length

def addCryptoHeader (msg : OutputMessage) (addChecksum : UInt8) (sequence : UInt32) :
    OutputMessage × UInt32 :=
  let (msg, sequence) :=
    if addChecksum = 1 then (add_header uint32 msg (adlerChecksum msg.output).toNat, sequence)
    else if addChecksum = 2 then (add_header uint32 msg sequence.toNat, sequence + 1)
    else (msg, sequence)
  (msg.writeMessageLength, sequence)

/-- There is no check whether the other message fits. -/
def append (msg : OutputMessage) (other : NetworkMessage) : OutputMessage :=
  { msg with
    toNetworkMessage := msg.put (Memory.read other.buffer INITIAL_BUFFER_POSITION other.length) }

/-- The output is at this place and consists of these bytes. -/
structure Occupies (msg : OutputMessage) (start : Nat) (bytes : Bytes) : Prop where
  place : msg.outputBufferStart = start
  length : msg.length = bytes.length
  buffer : Memory.read msg.buffer start bytes.length = bytes

theorem Occupies.output {msg : OutputMessage} {start : Nat} {bytes : Bytes} (h : Occupies msg start bytes) :
    msg.output = bytes := by
  unfold OutputMessage.output
  rw [h.place, h.length, h.buffer]

theorem Occupies.add_header {msg : OutputMessage} {start : Nat} {bytes : Bytes} {t : Word}
    (h : Occupies msg (start + t.size) bytes) (hstart : start < 65536)
    (hlength : bytes.length + t.size < 65536) (value : Int) :
    Occupies (msg.add_header t value) start (PropStream.write t value ++ bytes) := by
  have hplace : msgSize (msg.outputBufferStart + 65536 - t.size) = start := by
    rw [h.place]
    unfold msgSize
    omega
  refine ⟨hplace, ?_, ?_⟩
  · show msgSize (msg.length + t.size) = _
    rw [h.length, msgSize_of_lt hlength, List.length_append, PropStream.length_write, Nat.add_comm]
  · show Memory.read (Memory.write msg.buffer (msgSize _) (PropStream.write t value)) start _ = _
    rw [hplace, List.length_append, Memory.read_write_prepend, PropStream.length_write, h.buffer]

theorem Occupies.writeMessageLength {msg : OutputMessage} {start : Nat} {bytes : Bytes}
    (h : Occupies msg (start + 2) bytes) (hstart : start < 65536) (hlength : bytes.length + 2 < 65536) :
    Occupies msg.writeMessageLength start (PropStream.write uint16 bytes.length ++ bytes) := by
  unfold OutputMessage.writeMessageLength
  rw [h.length]
  exact Occupies.add_header h hstart hlength _

/-- What the message says of the bytes between the outer length and the encrypted ones. -/
def cryptoHeader (addChecksum : UInt8) (sequence : UInt32) (bytes : Bytes) : Bytes :=
  if addChecksum = 1 then PropStream.write uint32 (adlerChecksum bytes).toNat
  else if addChecksum = 2 then PropStream.write uint32 sequence.toNat
  else []

theorem length_cryptoHeader (addChecksum : UInt8) (sequence : UInt32) (bytes : Bytes) :
    (cryptoHeader addChecksum sequence bytes).length = if addChecksum = 1 ∨ addChecksum = 2 then 4 else 0 := by
  unfold cryptoHeader
  split
  · rw [if_pos (.inl ‹_›)]
    exact PropStream.length_write _ _
  · split
    · rw [if_pos (.inr ‹_›)]
      exact PropStream.length_write _ _
    · rw [if_neg (by simp [*])]
      rfl

theorem Occupies.addCryptoHeader {msg : OutputMessage} {bytes : Bytes} (h : Occupies msg 6 bytes)
    (hlength : bytes.length + 6 < 65536) (addChecksum : UInt8) (sequence : UInt32) :
    let header := cryptoHeader addChecksum sequence bytes
    Occupies (msg.addCryptoHeader addChecksum sequence).1 (4 - header.length)
      (PropStream.write uint16 (header ++ bytes).length ++ (header ++ bytes)) := by
  have hword : ∀ value : Int, Occupies (OutputMessage.add_header uint32 msg value) 2
      (PropStream.write uint32 value ++ bytes) := by
    intro value
    refine Occupies.add_header h (by decide) ?_ value
    show bytes.length + 4 < 65536
    omega
  have hlen : ∀ value : Int, (PropStream.write uint32 value ++ bytes).length + 2 < 65536 := by
    intro value
    rw [List.length_append, PropStream.length_write]
    show 4 + bytes.length + 2 < 65536
    omega
  intro header
  unfold OutputMessage.addCryptoHeader
  by_cases h1 : addChecksum = 1
  · have hheader : header = PropStream.write uint32 (adlerChecksum bytes).toNat := if_pos h1
    rw [if_pos h1, hheader, PropStream.length_write, h.output]
    exact (hword _).writeMessageLength (by decide) (hlen _)
  · by_cases h2 : addChecksum = 2
    · have hheader : header = PropStream.write uint32 sequence.toNat := (if_neg h1).trans (if_pos h2)
      rw [if_neg h1, if_pos h2, hheader, PropStream.length_write]
      exact (hword _).writeMessageLength (by decide) (hlen _)
    · have hheader : header = [] := (if_neg h1).trans (if_neg h2)
      rw [if_neg h1, if_neg h2, hheader]
      refine h.writeMessageLength (by decide) ?_
      omega

end OutputMessage

end Moonlight
