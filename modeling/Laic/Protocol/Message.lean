import Laic.Protocol.Header

/-! # Complete messages: header and payload

`Message` has private fields in the source; what the public API can build is
`Message.Built`, and `Message.Built.valid` is the invariant the API maintains: the
header would pass its own decoder and `payload_len` is the payload's length. -/

namespace Laic

structure Message where
  header : MessageHeader
  payload : List UInt8
  deriving DecidableEq, Repr

namespace Message

/-- `Message::new`; `none` is the panic on a payload of more than `u32::MAX` bytes. -/
def new (msgType : MsgType) (msgId : UInt64) (payloadFormat : PayloadFormat) (qos : Qos)
    (payload : List UInt8) : Option Message :=
  if payload.length ≤ UInt32.size - 1 then
    some {
      header := {
        magic := Laic.magic
        version := Laic.version
        msgType := msgType.asU16
        msgId := msgId
        correlationId := 0
        payloadLen := UInt32.ofNat payload.length
        payloadFormat := payloadFormat.asU8
        qos := qos.asU8
        creditGrant := 0
        flags := 0
        reserved := #v[0, 0, 0, 0] }
      payload := payload }
  else
    none

/-- Reconstruct a message from a decoded header and payload bytes. -/
def fromParts (header : MessageHeader) (payload : List UInt8) : Except LaicError Message := do
  header.checkInvariants
  Except.ensure (header.payloadLen.toNat = payload.length)
    (.protocol (.payloadLengthMismatch header.payloadLen payload.length))
  return ⟨header, payload⟩

def setCreditGrant (message : Message) (credits : UInt16) : Message :=
  { message with header :=
    { message.header with
      creditGrant := credits
      flags :=
        if credits > 0 then message.header.flags ||| flagHasCreditGrant
        else message.header.flags &&& ~~~flagHasCreditGrant } }

def msgType (message : Message) : MsgType := ⟨message.header.msgType⟩

def setCorrelationId (message : Message) (id : UInt64) : Message :=
  { message with header := { message.header with correlationId := id } }

def setEndOfStream (message : Message) : Message :=
  { message with header := { message.header with flags := message.header.flags ||| flagEndOfStream } }

def clearEndOfStream (message : Message) : Message :=
  { message with header :=
    { message.header with flags := message.header.flags &&& ~~~flagEndOfStream } }

def isEndOfStream (message : Message) : Bool := message.header.flags &&& flagEndOfStream ≠ 0

def intoParts (message : Message) : MessageHeader × List UInt8 := (message.header, message.payload)

/-- A message that some sequence of public constructors and setters returns.  The
pattern constructors are compositions of these, and every receive path of the
transports ends in `fromParts`. -/
inductive Built : Message → Prop where
  | new {msgType msgId payloadFormat qos payload message} :
      new msgType msgId payloadFormat qos payload = some message → Built message
  | fromParts {header payload message} : fromParts header payload = .ok message → Built message
  | setCreditGrant {message} (credits : UInt16) : Built message → Built (message.setCreditGrant credits)
  | setCorrelationId {message} (id : UInt64) : Built message → Built (message.setCorrelationId id)
  | setEndOfStream {message} : Built message → Built message.setEndOfStream
  | clearEndOfStream {message} : Built message → Built message.clearEndOfStream

/-- The representation invariant. -/
structure Valid (message : Message) : Prop where
  header : message.header.Valid
  payloadLen : message.header.payloadLen.toNat = message.payload.length

theorem new_eq_some {msgType : MsgType} {msgId : UInt64} {payloadFormat : PayloadFormat} {qos : Qos}
    {payload : List UInt8} {message : Message}
    (made : new msgType msgId payloadFormat qos payload = some message) :
    message.Valid ∧ message.header.msgType = msgType.asU16 ∧
      message.header.payloadFormat = payloadFormat.asU8 ∧ message.payload = payload := by
  unfold new at made
  split at made
  · rename_i fits
    cases made
    refine ⟨⟨⟨rfl, rfl, ⟨_, rfl⟩, ⟨_, rfl⟩⟩, ?_⟩, rfl, rfl, rfl⟩
    exact UInt32.toNat_ofNat_of_lt' (Nat.lt_of_le_sub_one (by decide) fits)
  · cases made

/-- Every payload whose length a `u32` holds is the payload of some message. -/
theorem exists_built {payload : List UInt8} (fits : payload.length ≤ UInt32.size - 1) :
    ∃ message : Message, message.Built ∧ message.payload = payload := by
  have made : (new .data 0 .raw .normal payload).isSome := by simpa [new] using fits
  obtain ⟨message, made⟩ := Option.isSome_iff_exists.mp made
  exact ⟨message, .new made, (new_eq_some made).2.2.2⟩

theorem fromParts_eq_ok {header : MessageHeader} {payload : List UInt8} {message : Message} :
    fromParts header payload = .ok message ↔ message = ⟨header, payload⟩ ∧ message.Valid := by
  simp only [fromParts, Except.bind_eq_ok, MessageHeader.checkInvariants_eq_ok,
    Except.ensure_eq_ok]
  constructor
  · rintro ⟨_, headerOk, _, lengthOk, equal⟩
    cases equal
    exact ⟨rfl, headerOk, lengthOk⟩
  · rintro ⟨rfl, headerOk, lengthOk⟩
    exact ⟨(), headerOk, (), lengthOk, rfl⟩

/-- Every message of the public API satisfies the invariant: constructors establish it
and no setter touches a field it reads. -/
theorem Built.valid {message : Message} (built : message.Built) : message.Valid := by
  induction built with
  | new made => exact (new_eq_some made).1
  | fromParts made => exact (fromParts_eq_ok.mp made).2
  | setCreditGrant credits _ ih => exact ⟨⟨ih.header.1, ih.header.2, ih.header.3, ih.header.4⟩, ih.payloadLen⟩
  | setCorrelationId id _ ih => exact ⟨⟨ih.header.1, ih.header.2, ih.header.3, ih.header.4⟩, ih.payloadLen⟩
  | setEndOfStream _ ih => exact ⟨⟨ih.header.1, ih.header.2, ih.header.3, ih.header.4⟩, ih.payloadLen⟩
  | clearEndOfStream _ ih => exact ⟨⟨ih.header.1, ih.header.2, ih.header.3, ih.header.4⟩, ih.payloadLen⟩

/-- A valid message can be rebuilt from its parts, so the invariant is exactly what
the public API can reach. -/
theorem Valid.built {message : Message} (valid : message.Valid) : message.Built :=
  .fromParts (fromParts_eq_ok.mpr ⟨rfl, valid⟩)

end Message

end Laic
