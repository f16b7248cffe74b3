import Laic.Protocol.HeaderCodec
import Laic.Transport.Ipc

/-! # The emergency channel and untrusted shared memory

The emergency channel moves raw payloads of at most 168 bytes in frames of its own, with a length
word in front.  The second half is about frames of either kind whose bytes the peer chose: reading
one stays inside its buffers and says exactly what the frame holds. -/

namespace Laic

open Bytes

/-- `MAX_EMERGENCY_PAYLOAD_LEN`. -/
def maxEmergencyPayloadLen : Nat := 168

/-- `EMERGENCY_BUFFER_SIZE`. -/
def emergencyBufferSize : Nat := 8

/-- A frame of the emergency channel; only `len` bytes of `data` are valid. -/
structure EmergencyFrame where
  len : UInt32
  data : List UInt8
  data_length : data.length = maxEmergencyPayloadLen

namespace EmergencyFrame

/-- The frame that `send` builds. -/
def ofPayload (payload : List UInt8) : Except LaicError EmergencyFrame :=
  if fits : payload.length ≤ maxEmergencyPayloadLen then
    .ok {
      len := UInt32.ofNat payload.length
      data := splice (List.replicate maxEmergencyPayloadLen 0) 0 payload
      data_length := by rw [splice_length (by simpa using fits), List.length_replicate] }
  else
    .error (.transport (.framingError
      s!"emergency payload length {payload.length} exceeds maximum {maxEmergencyPayloadLen}"))

/-- What `receive` makes of a frame. -/
def toPayload (frame : EmergencyFrame) : Except LaicError (List UInt8) := do
  Except.ensure (frame.len.toNat ≤ maxEmergencyPayloadLen)
    (.transport (.framingError
      s!"emergency frame len {frame.len} exceeds capacity {maxEmergencyPayloadLen}"))
  .ok (frame.data.take frame.len.toNat)

/-- A payload that fits makes a frame that is read back as the payload. -/
theorem ofPayload_eq_ok {payload : List UInt8} (fits : payload.length ≤ maxEmergencyPayloadLen) :
    ∃ frame, ofPayload payload = .ok frame ∧ frame.toPayload = .ok payload := by
  have word : (UInt32.ofNat payload.length).toNat = payload.length :=
    UInt32.toNat_ofNat_of_lt' (Nat.lt_of_le_of_lt fits (by decide))
  refine ⟨_, dif_pos fits, ?_⟩
  simp only [toPayload, word, Except.ensure_pos fits, Except.ok_bind]
  simp [splice]

/-- A frame is refused exactly when its length word exceeds its data. -/
theorem toPayload_eq_framingError (frame : EmergencyFrame) :
    (∃ detail, frame.toPayload = .error (.transport (.framingError detail))) ↔
      maxEmergencyPayloadLen < frame.len.toNat := by
  unfold toPayload
  by_cases inside : frame.len.toNat ≤ maxEmergencyPayloadLen
  · simp only [Except.ensure_pos inside, Except.ok_bind, reduceCtorEq, exists_false, false_iff]
    exact Nat.not_lt.mpr inside
  · simp only [Except.ensure_neg inside]
    exact ⟨fun _ => Nat.lt_of_not_le inside, fun _ => ⟨_, rfl⟩⟩

theorem ofPayload_oversized {payload : List UInt8}
    (long : maxEmergencyPayloadLen < payload.length) :
    ofPayload payload = .error (.transport (.framingError
      s!"emergency payload length {payload.length} exceeds maximum {maxEmergencyPayloadLen}")) :=
  dif_neg (Nat.not_le.mpr long)

end EmergencyFrame

/-- How the channel reports that the middleware did not publish a frame. -/
def PublishFault.emergencyError : PublishFault → TransportError
  | .exceedsMaxLoans => .backpressureFull
  | .loan detail => .sendFailed s!"emergency loan failed: {detail}"
  | .send detail => .sendFailed s!"emergency send failed: {detail}"

/-- One end of an emergency channel. -/
structure EmergencyChannel where
  subscriber : SlotBuffer emergencyBufferSize EmergencyFrame
  closed : Bool

namespace EmergencyChannel

def opened : EmergencyChannel := ⟨.empty, false⟩

/-- The frame that a `send` publishes, unless `fault` keeps it from being published. -/
def send (fault : Option PublishFault) (payload : List UInt8) (channel : EmergencyChannel) :
    Except LaicError EmergencyFrame := do
  Except.ensure (¬ channel.closed) (.transport .shuttingDown)
  let frame ← EmergencyFrame.ofPayload payload
  match fault with
  | none => .ok frame
  | some fault => .error (.transport fault.emergencyError)

/-- A frame of the peer arrives. -/
def deliver (frame : EmergencyFrame) (channel : EmergencyChannel) : EmergencyChannel :=
  { channel with subscriber := channel.subscriber.push frame }

/-- `receive`, where `fault` is an error of the subscriber; `none` while it waits. -/
def receive (fault : Option String) (channel : EmergencyChannel) :
    Option (Except LaicError (List UInt8) × EmergencyChannel) :=
  if channel.closed then
    some (.error (.transport .shuttingDown), channel)
  else match fault with
    | some detail =>
      some (.error (.transport (.receiveFailed s!"emergency receive failed: {detail}")), channel)
    | none =>
      channel.subscriber.pop.map fun (frame, rest) =>
        (frame.toPayload, { channel with subscriber := rest })

def close (channel : EmergencyChannel) : Except LaicError Unit × EmergencyChannel :=
  (.ok (), { channel with closed := true })

end EmergencyChannel

/-! ## Reading frames within their bounds -/

namespace IpcFrame

/-- `receive` on a frame, where a slice outside the payload buffer is a panic. -/
def readMessage (frame : IpcFrame) : Option (Except LaicError Message) :=
  match BufferProgram.result MessageHeader.decodeBuffer frame.header with
  | none => none
  | some (.error error) => some (.error error)
  | some (.ok header) =>
    let payloadLen := header.payloadLen.toNat
    if maxIpcPayloadLen.toNat < payloadLen then
      some (.error (.transport (.framingError
        s!"received payload_len {header.payloadLen} exceeds IPC frame capacity {maxIpcPayloadLen}")))
    else
      BufferProgram.result (do
        let payload ← BufferProgram.read 0 payloadLen
        .lift (Message.fromParts header payload)) frame.payload

/-- Whatever the frame holds, its slice lies inside the payload buffer. -/
theorem readMessage_eq (frame : IpcFrame) : frame.readMessage = some frame.toMessage := by
  unfold readMessage toMessage
  rw [BufferProgram.result, MessageHeader.decodeBuffer_run]
  cases MessageHeader.decode frame.header with
  | error error => rfl
  | ok header =>
    show (if maxIpcPayloadLen.toNat < header.payloadLen.toNat then _ else _) = _
    by_cases inside : header.payloadLen.toNat ≤ maxIpcPayloadLen.toNat
    · have within : 0 + header.payloadLen.toNat ≤ frame.payload.length := by
        rw [frame.payload_length]
        omega
      rw [if_neg (Nat.not_lt.mpr inside), BufferProgram.result, BufferProgram.read_bind within]
      simp only [Except.ok_bind, Except.ensure_pos inside]
      rfl
    · rw [if_pos (Nat.lt_of_not_le inside)]
      simp only [Except.ok_bind, Except.ensure_neg inside]
      rfl

/-- A message that a frame holds makes a frame with the same header and the same payload, up to
the length in the header. -/
theorem ofMessage_toMessage {frame : IpcFrame} {message : Message}
    (received : frame.toMessage = .ok message) :
    ∃ resent, ofMessage message = .ok resent ∧ resent.header = frame.header ∧
      resent.payload.take message.header.payloadLen.toNat =
        frame.payload.take message.header.payloadLen.toNat := by
  have valid := toMessage_valid received
  simp only [toMessage, Except.bind_eq_ok, Except.ensure_eq_ok] at received
  obtain ⟨header, decoded, _, inside, made⟩ := received
  obtain ⟨rfl, -⟩ := Message.fromParts_eq_ok.mp made
  have fits : (frame.payload.take header.payloadLen.toNat).length ≤ maxIpcPayloadLen.toNat := by
    rw [List.length_take]
    omega
  obtain ⟨resent, built, read⟩ := ofMessage_eq_ok valid fits
  refine ⟨resent, built, ?_, ?_⟩
  · -- both headers are the wire image of the one header that was decoded
    simp only [toMessage, Except.bind_eq_ok] at read
    obtain ⟨header', decoded', _, _, made'⟩ := read
    obtain ⟨same, -⟩ := Message.fromParts_eq_ok.mp made'
    have equal : header = header' := congrArg Message.header same
    have first := (MessageHeader.decode_inv decoded).2.2
    have second := (MessageHeader.decode_inv decoded').2.2
    rw [List.take_of_length_le (Nat.le_of_eq frame.header_length)] at first
    rw [List.take_of_length_le (Nat.le_of_eq resent.header_length)] at second
    rw [first, second, equal]
  · simp only [toMessage, Except.bind_eq_ok] at read
    obtain ⟨header', _, _, _, made'⟩ := read
    obtain ⟨same, -⟩ := Message.fromParts_eq_ok.mp made'
    have equal : header = header' := congrArg Message.header same
    subst equal
    exact (congrArg Message.payload same).symm

end IpcFrame

namespace EmergencyFrame

/-- `receive` on a frame, where a slice outside the data is a panic. -/
def readPayload (frame : EmergencyFrame) : Option (Except LaicError (List UInt8)) :=
  let len := frame.len.toNat
  if maxEmergencyPayloadLen < len then
    some (.error (.transport (.framingError
      s!"emergency frame len {frame.len} exceeds capacity {maxEmergencyPayloadLen}")))
  else
    BufferProgram.result (.read 0 len) frame.data

theorem readPayload_eq (frame : EmergencyFrame) : frame.readPayload = some frame.toPayload := by
  unfold readPayload toPayload
  by_cases inside : frame.len.toNat ≤ maxEmergencyPayloadLen
  · have within : 0 + frame.len.toNat ≤ frame.data.length := by
      rw [frame.data_length]
      omega
    simp only [if_neg (Nat.not_lt.mpr inside), BufferProgram.result, BufferProgram.read,
      if_pos within, Except.ensure_pos inside]
    rfl
  · simp only [if_pos (Nat.lt_of_not_le inside), Except.ensure_neg inside]
    rfl

end EmergencyFrame

/-- Shared-memory frames are faithful and safe, whatever they hold.  What is sent is read as what it
was; an arbitrary frame is read within its bounds, as an error or as exactly what it holds. -/
theorem sharedMemory_faithful :
    (∀ (message : Message) (connection : IpcConnection), message.Built →
      message.payload.length ≤ maxIpcPayloadLen.toNat → connection.closed = false →
        ∃ frame, connection.send none message = .ok frame ∧
          frame.readMessage = some (.ok message)) ∧
    (∀ (frame : IpcFrame) (connection : IpcConnection) (rest : SlotBuffer subscriberBufferSize IpcFrame),
      connection.closed = false → connection.subscriber.pop = some (frame, rest) →
        ∃ result, frame.readMessage = some result ∧
          connection.receive none = some (result, { connection with subscriber := rest }) ∧
          ((∃ error, result = .error error) ∨
            ∃ message resent, result = .ok message ∧ message.Valid ∧
              connection.send none message = .ok resent ∧ resent.header = frame.header ∧
              resent.payload.take message.header.payloadLen.toNat =
                frame.payload.take message.header.payloadLen.toNat)) ∧
    (∀ (payload : List UInt8) (channel : EmergencyChannel),
      payload.length ≤ maxEmergencyPayloadLen → channel.closed = false →
        ∃ frame, channel.send none payload = .ok frame ∧
          frame.readPayload = some (.ok payload)) ∧
    ∀ (frame : EmergencyFrame) (channel : EmergencyChannel)
      (rest : SlotBuffer emergencyBufferSize EmergencyFrame),
      channel.closed = false → channel.subscriber.pop = some (frame, rest) →
        ∃ result, frame.readPayload = some result ∧
          channel.receive none = some (result, { channel with subscriber := rest }) ∧
          ((∃ detail, result = .error (.transport (.framingError detail))) ↔
            maxEmergencyPayloadLen < frame.len.toNat) ∧
          (frame.len.toNat ≤ maxEmergencyPayloadLen →
            result = .ok (frame.data.take frame.len.toNat)) := by
  refine ⟨?_, ?_, ?_, ?_⟩
  · intro message connection built fits isOpen
    obtain ⟨frame, made, read⟩ := IpcFrame.ofMessage_eq_ok built.valid fits
    refine ⟨frame, IpcConnection.send_eq_ok.mpr ⟨isOpen, made, rfl⟩, ?_⟩
    rw [frame.readMessage_eq, read]
  · intro frame connection rest isOpen oldest
    refine ⟨frame.toMessage, frame.readMessage_eq, ?_, ?_⟩
    · simp [IpcConnection.receive, isOpen, oldest]
    · cases received : frame.toMessage with
      | error error => exact .inl ⟨error, rfl⟩
      | ok message =>
        obtain ⟨resent, made, header, payload⟩ := IpcFrame.ofMessage_toMessage received
        exact .inr ⟨message, resent, rfl, IpcFrame.toMessage_valid received,
          IpcConnection.send_eq_ok.mpr ⟨isOpen, made, rfl⟩, header, payload⟩
  · intro payload channel fits isOpen
    obtain ⟨frame, made, read⟩ := EmergencyFrame.ofPayload_eq_ok fits
    refine ⟨frame, ?_, ?_⟩
    · simp [EmergencyChannel.send, isOpen, made]
    · rw [frame.readPayload_eq, read]
  · intro frame channel rest isOpen oldest
    refine ⟨frame.toPayload, frame.readPayload_eq, ?_, ?_, ?_⟩
    · simp [EmergencyChannel.receive, isOpen, oldest]
    · exact frame.toPayload_eq_framingError
    · intro inside
      simp only [EmergencyFrame.toPayload, Except.ensure_pos inside, Except.ok_bind]

end Laic
