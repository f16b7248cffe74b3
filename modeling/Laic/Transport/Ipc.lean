import Laic.Lib.SlotBuffer
import Laic.Protocol.Message
import Mathlib.Data.List.Forall2

/-! # IPC frames and connections

A message travels through shared memory as a frame of fixed size: its encoded header and
a payload buffer of 64 KiB.  A connection is the buffer of its subscriber and a `closed`
bit; what it publishes goes to the buffer of the peer's subscriber, where it replaces
the oldest unread frame if there is no room.  The messages of the middleware's own
errors are parameters. -/

namespace Laic

open Bytes

/-- `MAX_IPC_PAYLOAD_LEN`: 64 KiB. -/
def maxIpcPayloadLen : UInt32 := 65536

/-- `SUBSCRIBER_BUFFER_SIZE`. -/
def subscriberBufferSize : Nat := 16

/-- A shared-memory frame; the `payload_len` in its header bytes says how much of the
payload buffer is valid. -/
structure IpcFrame where
  header : List UInt8
  payload : List UInt8
  header_length : header.length = headerSize
  payload_length : payload.length = maxIpcPayloadLen.toNat

namespace IpcFrame

/-- The frame that `send` builds. -/
def ofMessage (message : Message) : Except LaicError IpcFrame :=
  if fits : message.payload.length ≤ maxIpcPayloadLen.toNat then
    match encoded : message.header.encode (List.replicate headerSize 0) with
    | .error error => .error error
    | .ok header =>
      .ok {
        header := header
        payload := splice (List.replicate maxIpcPayloadLen.toNat 0) 0 message.payload
        header_length := by simpa using MessageHeader.encode_length encoded
        payload_length := by
          rw [splice_length (by simpa using fits), List.length_replicate] }
  else
    .error (.transport (.framingError
      s!"payload length {message.payload.length} exceeds IPC maximum {maxIpcPayloadLen}"))

/-- What `receive` makes of a frame. -/
def toMessage (frame : IpcFrame) : Except LaicError Message := do
  let header ← MessageHeader.decode frame.header
  Except.ensure (header.payloadLen.toNat ≤ maxIpcPayloadLen.toNat)
    (.transport (.framingError
      s!"received payload_len {header.payloadLen} exceeds IPC frame capacity {maxIpcPayloadLen}"))
  Message.fromParts header (frame.payload.take header.payloadLen.toNat)

/-- A valid message that fits makes a frame that is read back as the message. -/
theorem ofMessage_eq_ok {message : Message} (valid : message.Valid)
    (fits : message.payload.length ≤ maxIpcPayloadLen.toNat) :
    ∃ frame, ofMessage message = .ok frame ∧ frame.toMessage = .ok message := by
  have encoded : message.header.encode (List.replicate headerSize 0) = .ok message.header.wire := by
    rw [MessageHeader.encode_ok valid.header (by simp)]
    simp
  have decoded : MessageHeader.decode message.header.wire = .ok message.header := by
    have spec := MessageHeader.decode_wire valid.header []
    rwa [List.append_nil] at spec
  have inside : message.header.payloadLen.toNat ≤ maxIpcPayloadLen.toNat := by
    rw [valid.payloadLen]
    exact fits
  have payload : (splice (List.replicate maxIpcPayloadLen.toNat 0) 0 message.payload).take
      message.header.payloadLen.toNat = message.payload := by
    rw [valid.payloadLen]
    simp [splice]
  refine ⟨⟨message.header.wire, splice (List.replicate maxIpcPayloadLen.toNat 0) 0 message.payload,
    MessageHeader.wire_length _, ?_⟩, ?_, ?_⟩
  · rw [splice_length (by simpa using fits), List.length_replicate]
  · rw [ofMessage, dif_pos fits]
    split
    · rename_i error failed
      rw [encoded] at failed
      cases failed
    · rename_i header succeeded
      rw [encoded] at succeeded
      cases succeeded
      rfl
  · simp only [toMessage, decoded, Except.ok_bind, Except.ensure_pos inside, payload]
    exact Message.fromParts_eq_ok.mpr ⟨rfl, valid⟩

/-- A message that does not fit makes no frame. -/
theorem ofMessage_oversized {message : Message}
    (long : maxIpcPayloadLen.toNat < message.payload.length) :
    ofMessage message = .error (.transport (.framingError
      s!"payload length {message.payload.length} exceeds IPC maximum {maxIpcPayloadLen}")) :=
  dif_neg (Nat.not_le.mpr long)

/-- A frame that was made of a message is read back as it. -/
theorem toMessage_ofMessage {message : Message} {frame : IpcFrame} (valid : message.Valid)
    (made : ofMessage message = .ok frame) :
    frame.toMessage = .ok message ∧ message.payload.length ≤ maxIpcPayloadLen.toNat := by
  by_cases fits : message.payload.length ≤ maxIpcPayloadLen.toNat
  · obtain ⟨frame', made', read⟩ := ofMessage_eq_ok valid fits
    rw [made] at made'
    cases made'
    exact ⟨read, fits⟩
  · rw [ofMessage_oversized (Nat.lt_of_not_le fits)] at made
    cases made

/-- A frame that is read is read as a valid message. -/
theorem toMessage_valid {frame : IpcFrame} {message : Message}
    (received : frame.toMessage = .ok message) : message.Valid := by
  simp only [toMessage, Except.bind_eq_ok] at received
  obtain ⟨_, _, _, _, made⟩ := received
  exact (Message.fromParts_eq_ok.mp made).2

end IpcFrame

/-- What the middleware reports when it does not publish a frame. -/
inductive PublishFault where
  | exceedsMaxLoans
  | loan (detail : String)
  | send (detail : String)

def PublishFault.error : PublishFault → TransportError
  | .exceedsMaxLoans => .backpressureFull
  | .loan detail => .sendFailed s!"loan failed: {detail}"
  | .send detail => .sendFailed s!"send failed: {detail}"

/-- One end of an IPC channel. -/
structure IpcConnection where
  subscriber : SlotBuffer subscriberBufferSize IpcFrame
  closed : Bool

namespace IpcConnection

/-- A new connection. -/
def opened : IpcConnection := ⟨.empty, false⟩

/-- The frame that a `send` publishes, unless `fault` keeps it from being published. -/
def send (fault : Option PublishFault) (message : Message) (connection : IpcConnection) :
    Except LaicError IpcFrame := do
  Except.ensure (¬ connection.closed) (.transport .shuttingDown)
  let frame ← IpcFrame.ofMessage message
  match fault with
  | none => .ok frame
  | some fault => .error (.transport fault.error)

/-- A frame of the peer arrives. -/
def deliver (frame : IpcFrame) (connection : IpcConnection) : IpcConnection :=
  { connection with subscriber := connection.subscriber.push frame }

/-- `receive`, where `fault` is an error of the subscriber; `none` while it waits. -/
def receive (fault : Option String) (connection : IpcConnection) :
    Option (Except LaicError Message × IpcConnection) :=
  if connection.closed then
    some (.error (.transport .shuttingDown), connection)
  else match fault with
    | some detail =>
      some (.error (.transport (.receiveFailed s!"receive failed: {detail}")), connection)
    | none =>
      connection.subscriber.pop.map fun (frame, rest) =>
        (frame.toMessage, { connection with subscriber := rest })

def close (connection : IpcConnection) : Except LaicError Unit × IpcConnection :=
  (.ok (), { connection with closed := true })

theorem send_eq_ok {fault : Option PublishFault} {message : Message} {connection : IpcConnection}
    {frame : IpcFrame} :
    connection.send fault message = .ok frame ↔
      connection.closed = false ∧ IpcFrame.ofMessage message = .ok frame ∧ fault = none := by
  cases fault with
  | none => simp [send]
  | some fault => simp [send]

/-- A receive that returns a message took the oldest frame. -/
theorem receive_eq_some_ok {fault : Option String} {connection connection' : IpcConnection}
    {message : Message} :
    connection.receive fault = some (.ok message, connection') ↔
      connection.closed = false ∧ fault = none ∧ ∃ frame rest,
        connection.subscriber.pop = some (frame, rest) ∧ frame.toMessage = .ok message ∧
          connection' = { connection with subscriber := rest } := by
  cases closed : connection.closed with
  | true => simp [receive, closed]
  | false =>
    cases fault with
    | some detail => simp [receive, closed]
    | none =>
      cases popped : connection.subscriber.pop with
      | none => simp [receive, closed, popped]
      | some next =>
        obtain ⟨frame, rest⟩ := next
        simp only [receive, closed, popped, Bool.false_eq_true, if_false, Option.map_some,
          Option.some.injEq, Prod.mk.injEq, true_and]
        constructor
        · intro result
          exact ⟨frame, rest, ⟨rfl, rfl⟩, result.1, result.2.symm⟩
        · intro result
          obtain ⟨frame', rest', ⟨rfl, rfl⟩, received, after⟩ := result
          exact ⟨received, after.symm⟩

/-! ## Unread messages -/

/-- The unread frames are those of the messages. -/
def Unread (connection : IpcConnection) (messages : List Message) : Prop :=
  List.Forall₂ (fun frame message => frame.toMessage = .ok message) connection.subscriber.items
    messages

theorem unread_opened : opened.Unread [] := .nil

/-- With room left a frame joins the unread ones. -/
theorem Unread.deliver {connection : IpcConnection} {messages : List Message} {frame : IpcFrame}
    {message : Message} (unread : connection.Unread messages)
    (read : frame.toMessage = .ok message)
    (room : connection.subscriber.items.length < subscriberBufferSize) :
    (connection.deliver frame).Unread (messages ++ [message]) := by
  show List.Forall₂ _ (connection.subscriber.push frame).items _
  rw [SlotBuffer.items_push room]
  exact List.rel_append unread (.cons read .nil)

/-- What a receive does to a connection whose unread frames are those of messages. -/
theorem Unread.receive {connection : IpcConnection} {messages : List Message}
    (unread : connection.Unread messages) (fault : Option String) :
    connection.receive fault = none ∨
      (∃ error, connection.receive fault = some (.error error, connection)) ∨
      ∃ message rest connection', connection.receive fault = some (.ok message, connection') ∧
        messages = message :: rest ∧ connection'.Unread rest ∧
          connection'.closed = connection.closed := by
  unfold IpcConnection.receive
  cases isClosed : connection.closed with
  | true => exact .inr (.inl ⟨_, rfl⟩)
  | false =>
    cases fault with
    | some detail => exact .inr (.inl ⟨_, rfl⟩)
    | none =>
      cases popped : connection.subscriber.pop with
      | none => exact .inl (by simp)
      | some oldest =>
        obtain ⟨frame, rest⟩ := oldest
        rw [Unread, SlotBuffer.pop_eq_some.mp popped] at unread
        cases unread with
        | @cons _ message _ messages read unread =>
          refine .inr (.inr ⟨message, messages, { connection with subscriber := rest }, ?_, rfl,
            unread, ?_⟩)
          · simp [read, isClosed]
          · exact isClosed

theorem Unread.items_nil {connection : IpcConnection} (unread : connection.Unread []) :
    connection.subscriber.items = [] := by
  unfold Unread at unread
  cases items : connection.subscriber.items with
  | nil => rfl
  | cons frame frames =>
    rw [items] at unread
    cases unread

theorem Unread.eq_nil {connection : IpcConnection} {messages : List Message}
    (unread : connection.Unread messages) (empty : connection.subscriber.items = []) :
    messages = [] := by
  rw [Unread, empty] at unread
  cases unread
  rfl

/-- On an open connection without unread messages a receive waits. -/
theorem Unread.receive_nil {connection : IpcConnection} (unread : connection.Unread [])
    (isOpen : connection.closed = false) : connection.receive none = none := by
  simp [IpcConnection.receive, isOpen, SlotBuffer.pop_eq_none.mpr unread.items_nil]

/-- On an open connection with an unread message a receive returns it. -/
theorem Unread.receive_cons {connection : IpcConnection} {message : Message}
    {messages : List Message} (unread : connection.Unread (message :: messages))
    (isOpen : connection.closed = false) :
    ∃ connection', connection.receive none = some (.ok message, connection') ∧
      connection'.Unread messages ∧ connection'.closed = false := by
  obtain ⟨⟨items, bounded⟩, closed⟩ := connection
  cases isOpen
  cases unread with
  | @cons frame _ frames _ read unread =>
    refine ⟨⟨⟨frames, Nat.le_of_succ_le bounded⟩, false⟩, ?_, unread, rfl⟩
    simp [IpcConnection.receive, SlotBuffer.pop, read]

end IpcConnection

end Laic
