import Laic.Gateway
import Laic.Transport.SharedMemory

/-! # The gateway on a bad day

The gateway promises "network wire" semantics: a message that was received on one side and cannot
be sent on the other is lost.  Here everything that can go wrong does, in any order: IPC buffers
overflow, the middleware refuses frames and fails to read them, streams break off after any byte
and take unread bytes with them, writes fail, and any party closes.  Still nothing is duplicated,
reordered, changed or invented, and each message is lost at one known place. -/

namespace Laic

/-! ## Connections that break off -/

namespace QuicConnection

/-- `send`; with a fault the stream does not take any more bytes. -/
def sendOn (fault : Option IoFault) (message : Message) (connection : QuicConnection) :
    Except LaicError Unit × QuicConnection :=
  match fault with
  | none => connection.send message
  | some fault =>
    if connection.closed then
      (.error (.transport .shuttingDown), connection)
    else
      (((writeFrame message).execBroken fault connection.recv).1, connection)

/-- `receive`; once the stream has ended it no longer waits for the rest of a frame. -/
def receiveOn (ended : Bool) (connection : QuicConnection) :
    Option (Except LaicError Message × QuicConnection) :=
  if ended then some connection.receive else connection.receiveArrived

/-- The messages are written but not read: their frames have arrived, up to where the stream
ended. -/
def Behind (ended : Bool) (connection : QuicConnection) (onStream : List Message) : Prop :=
  (∀ message ∈ onStream, Sendable message) ∧
    ∃ missing, connection.recv.bytes ++ missing = onStream.flatMap Message.frame ∧
      (ended = false → missing = [])

variable {ended : Bool} {connection : QuicConnection} {onStream : List Message}

theorem behind_opened (ended : Bool) : (opened (.ofBytes [])).Behind ended [] :=
  ⟨nofun, [], by simp [opened], fun _ => rfl⟩

/-- Only the bytes that have arrived matter. -/
theorem Behind.congr (behind : connection.Behind ended onStream) {connection' : QuicConnection}
    (same : connection'.recv.bytes = connection.recv.bytes) : connection'.Behind ended onStream := by
  obtain ⟨sendable, missing, split, complete⟩ := behind
  exact ⟨sendable, missing, by rw [same, split], complete⟩

/-- What a receive may do: wait, fail and leave all messages unread, or take the first one. -/
theorem Behind.receive (behind : connection.Behind ended onStream) :
    connection.receiveOn ended = none ∨
      (∃ error next, connection.receiveOn ended = some (.error error, next) ∧
        next.Behind ended onStream) ∨
      ∃ message rest next, connection.receiveOn ended = some (.ok message, next) ∧
        onStream = message :: rest ∧ next.Behind ended rest := by
  obtain ⟨sendable, missing, split, complete⟩ := behind
  cases isClosed : connection.closed with
  | true =>
    right
    left
    refine ⟨.transport .shuttingDown, connection, ?_, sendable, missing, split, complete⟩
    cases ended <;> simp [receiveOn, receiveArrived, QuicConnection.receive, isClosed, receiveFailed]
  | false =>
    -- a read that meets the end of the stream uses up what is there
    have ends : parseFrame connection.recv.bytes = (.error (receiveFailed .earlyEof), []) →
        connection.receiveOn ended = none ∨
          ∃ error next, connection.receiveOn ended = some (.error error, next) ∧
            next.Behind ended onStream := by
      intro parsed
      obtain ⟨result, rest⟩ := readFrame_result parsed
      cases ended with
      | false =>
        left
        simp [receiveOn, receiveArrived, QuicConnection.receive, isClosed, result]
      | true =>
        right
        refine ⟨receiveFailed .earlyEof, { connection with recv := (readFrame.exec connection.recv).rest },
          ?_, sendable, onStream.flatMap Message.frame, ?_, Bool.noConfusion⟩
        · simp [receiveOn, QuicConnection.receive, isClosed, result]
        · simp [rest]
    cases onStream with
    | nil =>
      have none : connection.recv.bytes = [] := (List.append_eq_nil_iff.mp split).1
      obtain waits | fails := ends (by rw [none]; rfl)
      · exact .inl waits
      · exact .inr (.inl fails)
    | cons message rest =>
      simp only [List.forall_mem_cons] at sendable
      rw [List.flatMap_cons] at split
      by_cases whole : message.frame.length ≤ connection.recv.bytes.length
      · -- the frame is complete
        obtain ⟨others, bytes⟩ : ∃ others, connection.recv.bytes = message.frame ++ others := by
          have front := congrArg (List.take message.frame.length) split
          rw [List.take_append_of_le_length whole, List.take_left] at front
          refine ⟨connection.recv.bytes.drop message.frame.length, ?_⟩
          conv_lhs => rw [← List.take_append_drop message.frame.length connection.recv.bytes, front]
        have parsed : parseFrame connection.recv.bytes = (.ok message, others) := by
          rw [bytes, parseFrame_frame sendable.1.1 sendable.1.2]
        obtain ⟨result, left⟩ := readFrame_result parsed
        right
        right
        refine ⟨message, rest, { connection with recv := (readFrame.exec connection.recv).rest }, ?_, rfl,
          sendable.2, missing, ?_, complete⟩
        · cases ended <;> simp [receiveOn, receiveArrived, QuicConnection.receive, isClosed, result]
        · rw [bytes, List.append_assoc] at split
          rw [left]
          exact List.append_cancel_left split
      · -- the stream breaks off inside the frame
        have short : connection.recv.bytes = message.frame.take connection.recv.bytes.length := by
          have front := congrArg (List.take connection.recv.bytes.length) split
          rwa [List.take_left, List.take_append_of_le_length (by omega)] at front
        have part : connection.recv.bytes ++ message.frame.drop connection.recv.bytes.length =
            message.frame := by
          conv => lhs; lhs; rw [short]
          exact List.take_append_drop _ _
        have proper : message.frame.drop connection.recv.bytes.length ≠ [] := by
          intro none
          have count := congrArg List.length none
          rw [List.length_drop, List.length_nil] at count
          omega
        obtain waits | fails := ends (parseFrame_truncated sendable.1.1 sendable.1.2 part proper)
        · exact .inl waits
        · exact .inr (.inl fails)

/-! ## What arrives -/

/-- Of what is written, a beginning arrives; all of it unless the stream ends, and nothing once it
has ended. -/
structure Reaches (ended ended' : Bool) (written arrived : List UInt8) : Prop where
  beginning : arrived <+: written
  complete : ended' = false → ended = false ∧ arrived = written
  nothing : ended = true → ended' = true ∧ arrived = []

/-- A message written behind the others joins them. -/
theorem Behind.written (behind : connection.Behind ended onStream) {ended' : Bool} {message : Message}
    (sendable : Sendable message) {arrived : List UInt8}
    (reaches : Reaches ended ended' message.frame arrived) {connection' : QuicConnection}
    (arrives : connection'.recv.bytes = connection.recv.bytes ++ arrived) :
    connection'.Behind ended' (onStream ++ [message]) := by
  obtain ⟨all, missing, split, complete⟩ := behind
  refine ⟨?_, ?_⟩
  · intro other member
    obtain earlier | last := List.mem_append.mp member
    · exact all other earlier
    · rw [List.mem_singleton.mp last]
      exact sendable
  · cases wasEnded : ended with
    | true =>
      obtain ⟨stillEnded, none⟩ := reaches.nothing wasEnded
      refine ⟨missing ++ message.frame, ?_, fun open' => by rw [stillEnded] at open'; cases open'⟩
      rw [arrives, none, List.append_nil, ← List.append_assoc, split]
      simp
    | false =>
      obtain rfl := complete wasEnded
      obtain ⟨lost, frame⟩ := reaches.beginning
      refine ⟨lost, ?_, ?_⟩
      · rw [arrives, List.append_assoc, frame, ← List.append_nil connection.recv.bytes, split]
        simp
      · intro open'
        have all' := (reaches.complete open').2
        rw [all'] at frame
        simpa using frame

/-- What a write of nothing leaves. -/
theorem Behind.unwritten (behind : connection.Behind ended onStream) {ended' : Bool}
    {arrived : List UInt8} (reaches : Reaches ended ended' [] arrived) {connection' : QuicConnection}
    (arrives : connection'.recv.bytes = connection.recv.bytes ++ arrived) :
    connection'.Behind ended' onStream := by
  obtain ⟨all, missing, split, complete⟩ := behind
  have none : arrived = [] := List.prefix_nil.mp reaches.beginning
  refine ⟨all, missing, by rw [arrives, none, List.append_nil, split], ?_⟩
  intro open'
  exact complete (reaches.complete open').1

/-- The stream breaks off and takes unread bytes with it. -/
theorem Behind.cut (behind : connection.Behind ended onStream) {recv : ByteReader}
    (left : recv.bytes <+: connection.recv.bytes) :
    ({ connection with recv := recv } : QuicConnection).Behind true onStream := by
  obtain ⟨all, missing, split, _⟩ := behind
  obtain ⟨gone, bytes⟩ := left
  refine ⟨all, gone ++ missing, ?_, nofun⟩
  show recv.bytes ++ (gone ++ missing) = _
  rw [← List.append_assoc, bytes, split]

end QuicConnection

namespace Gateway

/-! ## Forwarding with failures -/

/-- Forward one message from IPC to QUIC, where the subscriber or the stream may fail. -/
def forwardOut (receiveFault : Option String) (writeFault : Option IoFault) (gateway : Gateway) :
    Option (Except LaicError Unit × Gateway) :=
  match gateway.ipc.receive receiveFault with
  | none => none
  | some (.error error, ipc) => some (.error error, { gateway with ipc := ipc })
  | some (.ok message, ipc) =>
    let (result, quic) := gateway.quic.sendOn writeFault message
    some (result, ⟨ipc, quic⟩)

/-- Forward one message from QUIC to IPC, with the frame it publishes. -/
def forwardIn (ended : Bool) (publishFault : Option PublishFault) (gateway : Gateway) :
    Option (Except LaicError IpcFrame × Gateway) :=
  match gateway.quic.receiveOn ended with
  | none => none
  | some (.error error, quic) => some (.error error, { gateway with quic := quic })
  | some (.ok message, quic) =>
    some (gateway.ipc.send publishFault message, { gateway with quic := quic })

/-- Close both transports, IPC first, and return the first error. -/
def close (finish : Except String Unit) (gateway : Gateway) : Except LaicError Unit × Gateway :=
  let (ipcResult, ipc) := gateway.ipc.close
  let (quicResult, quic) := gateway.quic.close finish
  (match ipcResult with
    | .ok _ => quicResult
    | .error error => .error error,
    ⟨ipc, quic⟩)

/-- Without failures these are the forwards of a gateway on a good day. -/
theorem forwardOut_none (gateway : Gateway) : gateway.forwardOut none none = gateway.forwardIpcToQuic := rfl

theorem forwardIn_none (gateway : Gateway) : gateway.forwardIn false none = gateway.forwardQuicToIpc := rfl

/-! ## Runs -/

/-- Two peers and the gateway between them.  `outEnded` and `inEnded` say whether the stream from
and to the gateway has ended; the lists record what the peers sent, what the gateway took with the
result of sending it on, and what the peers received. -/
structure Relay where
  localPeer : IpcConnection
  gateway : Gateway
  remotePeer : QuicConnection
  outEnded : Bool
  inEnded : Bool
  localSent : List Message
  takenOut : List (Message × Except LaicError Unit)
  remoteReceived : List Message
  remoteSent : List Message
  takenIn : List (Message × Except LaicError Unit)
  localReceived : List Message

def Relay.start : Relay where
  localPeer := .opened
  gateway := ⟨.opened, .opened (.ofBytes [])⟩
  remotePeer := .opened (.ofBytes [])
  outEnded := false
  inEnded := false
  localSent := []
  takenOut := []
  remoteReceived := []
  remoteSent := []
  takenIn := []
  localReceived := []

/-- The message that a receive takes, if any. -/
def taken {Connection : Type} (received : Option (Except LaicError Message × Connection)) :
    List Message :=
  match received with
  | some (.ok message, _) => [message]
  | _ => []

/-- The subscriber that a publication reaches, if there is one. -/
def reached (result : Except LaicError IpcFrame) (connection : IpcConnection) : IpcConnection :=
  match result with
  | .ok frame => connection.deliver frame
  | .error _ => connection

open QuicConnection (Reaches)

/-- One call of one party, or one event of a stream. -/
inductive Relay.Step : Relay → Relay → Prop where
  | localSend {relay : Relay} {message : Message} {fault : Option PublishFault} {frame : IpcFrame}
      (produced : message.Produced) (published : relay.localPeer.send fault message = .ok frame) :
      Step relay { relay with
        gateway := { relay.gateway with ipc := relay.gateway.ipc.deliver frame }
        localSent := relay.localSent ++ [message] }
  | forwardOut {relay : Relay} {receiveFault : Option String} {writeFault : Option IoFault}
      {result : Except LaicError Unit} {gateway : Gateway} {written arrived : List UInt8}
      {recv : ByteReader} {ended : Bool}
      (forwarded : relay.gateway.forwardOut receiveFault writeFault = some (result, gateway))
      (wrote : gateway.quic.sent = relay.gateway.quic.sent ++ written)
      (reaches : Reaches relay.outEnded ended written arrived)
      (arrives : recv.bytes = relay.remotePeer.recv.bytes ++ arrived) :
      Step relay { relay with
        gateway := gateway
        remotePeer := { relay.remotePeer with recv := recv }
        outEnded := ended
        takenOut := relay.takenOut ++
          (taken (relay.gateway.ipc.receive receiveFault)).map fun message => (message, result) }
  | remoteReceive {relay : Relay} {result : Except LaicError Message} {remotePeer : QuicConnection}
      (received : relay.remotePeer.receiveOn relay.outEnded = some (result, remotePeer)) :
      Step relay { relay with
        remotePeer := remotePeer
        remoteReceived := relay.remoteReceived ++
          taken (relay.remotePeer.receiveOn relay.outEnded) }
  | remoteSend {relay : Relay} {message : Message} {result : Except LaicError Unit}
      {remotePeer : QuicConnection} {written arrived : List UInt8} {recv : ByteReader} {ended : Bool}
      (produced : message.Produced)
      (sends : relay.remotePeer.send message = (result, remotePeer))
      (wrote : remotePeer.sent = relay.remotePeer.sent ++ written)
      (reaches : Reaches relay.inEnded ended written arrived)
      (arrives : recv.bytes = relay.gateway.quic.recv.bytes ++ arrived) :
      Step relay { relay with
        remotePeer := remotePeer
        gateway := { relay.gateway with quic := { relay.gateway.quic with recv := recv } }
        inEnded := ended
        remoteSent := relay.remoteSent ++ if result.isOk then [message] else [] }
  | forwardIn {relay : Relay} {publishFault : Option PublishFault} {result : Except LaicError IpcFrame}
      {gateway : Gateway}
      (forwarded : relay.gateway.forwardIn relay.inEnded publishFault = some (result, gateway)) :
      Step relay { relay with
        gateway := gateway
        localPeer := reached result relay.localPeer
        takenIn := relay.takenIn ++
          (taken (relay.gateway.quic.receiveOn relay.inEnded)).map fun message =>
            (message, result.map fun _ => ()) }
  | localReceive {relay : Relay} {fault : Option String} {result : Except LaicError Message}
      {localPeer : IpcConnection}
      (received : relay.localPeer.receive fault = some (result, localPeer)) :
      Step relay { relay with
        localPeer := localPeer
        localReceived := relay.localReceived ++ taken (relay.localPeer.receive fault) }
  | cutOut {relay : Relay} {recv : ByteReader} (left : recv.bytes <+: relay.remotePeer.recv.bytes) :
      Step relay { relay with
        remotePeer := { relay.remotePeer with recv := recv }
        outEnded := true }
  | cutIn {relay : Relay} {recv : ByteReader} (left : recv.bytes <+: relay.gateway.quic.recv.bytes) :
      Step relay { relay with
        gateway := { relay.gateway with quic := { relay.gateway.quic with recv := recv } }
        inEnded := true }
  | closeLocal {relay : Relay} : Step relay { relay with localPeer := relay.localPeer.close.2 }
  | closeGateway {relay : Relay} {finish : Except String Unit} :
      Step relay { relay with gateway := (relay.gateway.close finish).2 }
  | closeRemote {relay : Relay} {finish : Except String Unit} :
      Step relay { relay with remotePeer := (relay.remotePeer.close finish).2 }

inductive Relay.Reachable : Relay → Prop where
  | start : Reachable .start
  | next {relay relay' : Relay} : Reachable relay → Step relay relay' → Reachable relay'

/-! ## What every run keeps -/

/-- The messages that were sent on. -/
def sentOn (entries : List (Message × Except LaicError Unit)) : List Message :=
  (entries.filter fun entry => entry.2.isOk).map Prod.fst

namespace Relay

/-- Outbound: what the local peer sent was taken, overwritten or is unread; what was taken and sent
on was received, in this order, or is still on the stream. -/
structure Outbound (relay : Relay) (onStream : List Message) : Prop where
  ipc : relay.gateway.ipc.port.Balanced relay.localSent (relay.takenOut.map Prod.fst)
  split : sentOn relay.takenOut = relay.remoteReceived ++ onStream
  stream : relay.remotePeer.Behind relay.outEnded onStream
  fits : ∀ message ∈ relay.localSent, message.Valid ∧ FitsIpc message

/-- Inbound: what the remote peer sent was taken, in this order, or is still on the stream; what
was taken and sent on was received, overwritten or is unread. -/
structure Inbound (relay : Relay) (onStream : List Message) : Prop where
  split : relay.remoteSent = relay.takenIn.map Prod.fst ++ onStream
  stream : relay.gateway.quic.Behind relay.inEnded onStream
  ipc : relay.localPeer.port.Balanced (sentOn relay.takenIn) relay.localReceived

structure Kept (relay : Relay) : Prop where
  outbound : ∃ onStream, Outbound relay onStream
  inbound : ∃ onStream, Inbound relay onStream

end Relay

/-! ## What the calls do -/

/-- A receive on IPC waits, fails and changes nothing, or takes a message that was sent. -/
theorem ipc_receive {connection : IpcConnection} {sent received : List Message}
    (balanced : connection.port.Balanced sent received) (fault : Option String) :
    connection.receive fault = none ∨
      (∃ error connection', connection.receive fault = some (.error error, connection') ∧
        connection'.port.Balanced sent received) ∨
      ∃ message connection', connection.receive fault = some (.ok message, connection') ∧
        message ∈ sent ∧ connection'.port.Balanced sent (received ++ [message]) := by
  have same := IpcConnection.receive_port fault connection
  obtain waits | ⟨error, fails⟩ | ⟨message, port, takes, balanced'⟩ := balanced.receive fault
  · rw [waits, Option.map_eq_none_iff] at same
    exact .inl same
  · rw [fails, Option.map_eq_some_iff] at same
    obtain ⟨⟨result, connection'⟩, returned, equal⟩ := same
    obtain ⟨rfl, unchanged⟩ := Prod.mk.inj equal
    refine .inr (.inl ⟨error, connection', returned, ?_⟩)
    rw [show connection'.port = connection.port from unchanged]
    exact balanced
  · rw [takes, Option.map_eq_some_iff] at same
    obtain ⟨⟨result, connection'⟩, returned, equal⟩ := same
    obtain ⟨rfl, after⟩ := Prod.mk.inj equal
    obtain ⟨unread, frames, account⟩ := balanced'
    have member : message ∈ sent := account.sublist.subset (by simp)
    refine .inr (.inr ⟨message, connection', returned, member, ?_⟩)
    rw [show connection'.port = port from after]
    exact ⟨unread, frames, account⟩

/-- A send on QUIC writes the whole frame and succeeds, or fails and writes nothing. -/
theorem quic_sendOn {message : Message} (valid : message.Valid) (fault : Option IoFault)
    (connection : QuicConnection) :
    (QuicConnection.Sendable message ∧ connection.sendOn fault message =
      (.ok (), { connection with sent := connection.sent ++ message.frame })) ∨
      ∃ error, connection.sendOn fault message = (.error error, connection) := by
  obtain ⟨recv, sent, closed⟩ := connection
  cases closed with
  | true => exact .inr ⟨.transport .shuttingDown, by cases fault <;> rfl⟩
  | false =>
    by_cases bounded : message.payload.length ≤ maxPayloadLen.toNat
    · cases fault with
      | none => exact .inl ⟨⟨valid, bounded⟩, QuicConnection.send_sendable ⟨valid, bounded⟩ rfl⟩
      | some fault =>
        right
        refine ⟨sendFailed fault, ?_⟩
        simp [QuicConnection.sendOn, writeFrame_eq valid bounded, Async.write, Async.mapError,
          Async.execBroken, Except.mapError_error]
    · have long := writeFrame_oversized valid (Nat.lt_of_not_le bounded)
      cases fault with
      | none => exact .inr (QuicConnection.send_oversized valid (Nat.lt_of_not_le bounded) rfl)
      | some fault =>
        right
        refine ⟨.transport (.framingError
          s!"payload length {message.header.payloadLen} exceeds maximum {maxPayloadLen}"), ?_⟩
        simp only [QuicConnection.sendOn, long, Async.execBroken]
        rfl

@[simp] theorem sentOn_append (entries entries' : List (Message × Except LaicError Unit)) :
    sentOn (entries ++ entries') = sentOn entries ++ sentOn entries' := by
  simp [sentOn]

theorem close_recv (finish : Except String Unit) (connection : QuicConnection) :
    (connection.close finish).2.recv = connection.recv := by
  unfold QuicConnection.close
  split <;> rfl

/-! ## One step -/

namespace Relay

variable {relay : Relay} {onStream : List Message}

theorem Outbound.localSend (outbound : Outbound relay onStream) {message : Message}
    {fault : Option PublishFault} {frame : IpcFrame} (produced : message.Produced)
    (published : relay.localPeer.send fault message = .ok frame) :
    Outbound { relay with
      gateway := { relay.gateway with ipc := relay.gateway.ipc.deliver frame }
      localSent := relay.localSent ++ [message] } onStream := by
  obtain ⟨ipc, split, stream, fits⟩ := outbound
  obtain ⟨_, made, _⟩ := IpcConnection.send_eq_ok.mp published
  obtain ⟨read, small⟩ := IpcFrame.toMessage_ofMessage produced.valid made
  refine ⟨ipc.deliver read, split, stream, ?_⟩
  intro other member
  obtain earlier | last := List.mem_append.mp member
  · exact fits other earlier
  · rw [List.mem_singleton.mp last]
    exact ⟨produced.valid, small⟩

theorem Outbound.forward (outbound : Outbound relay onStream) {receiveFault : Option String}
    {writeFault : Option IoFault} {result : Except LaicError Unit} {gateway : Gateway}
    {written arrived : List UInt8} {recv : ByteReader} {ended : Bool}
    (forwarded : relay.gateway.forwardOut receiveFault writeFault = some (result, gateway))
    (wrote : gateway.quic.sent = relay.gateway.quic.sent ++ written)
    (reaches : Reaches relay.outEnded ended written arrived)
    (arrives : recv.bytes = relay.remotePeer.recv.bytes ++ arrived) :
    gateway.quic.recv = relay.gateway.quic.recv ∧
      ∃ onStream', Outbound { relay with
        gateway := gateway
        remotePeer := { relay.remotePeer with recv := recv }
        outEnded := ended
        takenOut := relay.takenOut ++
          (taken (relay.gateway.ipc.receive receiveFault)).map fun message => (message, result) }
        onStream' := by
  obtain ⟨ipc, split, stream, fits⟩ := outbound
  unfold forwardOut at forwarded
  obtain waits | ⟨error, ipc', fails, balanced⟩ | ⟨message, ipc', takes, member, balanced⟩ :=
    ipc_receive ipc receiveFault
  · rw [waits] at forwarded
    cases forwarded
  · -- nothing was taken, nothing is written
    rw [fails] at forwarded
    cases forwarded
    have nothing : written = [] := by simpa using wrote
    subst nothing
    refine ⟨rfl, onStream, ?_, ?_, stream.unwritten reaches arrives, fits⟩
    · simpa [fails, taken] using balanced
    · simpa [fails, taken] using split
  · rw [takes] at forwarded
    obtain ⟨valid, small⟩ := fits message member
    obtain ⟨sendable, sends⟩ | ⟨error, refuses⟩ := quic_sendOn valid writeFault relay.gateway.quic
    · -- taken and sent on: it joins the stream
      simp only [sends] at forwarded
      cases forwarded
      have frame : message.frame = written := List.append_cancel_left wrote
      subst frame
      refine ⟨rfl, onStream ++ [message], ?_, ?_, stream.written sendable reaches arrives, fits⟩
      · simpa [takes, taken] using balanced
      · simp only [takes, taken, sentOn_append, split, List.append_assoc, List.map_cons, List.map_nil]
        rfl
    · -- taken and lost
      simp only [refuses] at forwarded
      cases forwarded
      have nothing : written = [] := by simpa using wrote
      subst nothing
      refine ⟨rfl, onStream, ?_, ?_, stream.unwritten reaches arrives, fits⟩
      · simpa [takes, taken] using balanced
      · simp only [takes, taken, sentOn_append, split, List.map_cons, List.map_nil]
        exact List.append_nil _

theorem Outbound.remoteReceive (outbound : Outbound relay onStream) {result : Except LaicError Message}
    {remotePeer : QuicConnection}
    (received : relay.remotePeer.receiveOn relay.outEnded = some (result, remotePeer)) :
    ∃ onStream', Outbound { relay with
      remotePeer := remotePeer
      remoteReceived := relay.remoteReceived ++
        taken (relay.remotePeer.receiveOn relay.outEnded) } onStream' := by
  obtain ⟨ipc, split, stream, fits⟩ := outbound
  obtain waits | ⟨error, next, fails, behind⟩ | ⟨message, rest, next, takes, rfl, behind⟩ :=
    stream.receive
  · rw [waits] at received
    cases received
  · rw [fails] at received
    cases received
    exact ⟨onStream, ipc, by simpa [fails, taken] using split, behind, fits⟩
  · rw [takes] at received
    cases received
    exact ⟨rest, ipc, by simpa [takes, taken] using split, behind, fits⟩

theorem Inbound.remoteSend (inbound : Inbound relay onStream) {message : Message}
    {result : Except LaicError Unit} {remotePeer : QuicConnection} {written arrived : List UInt8}
    {recv : ByteReader} {ended : Bool} (produced : message.Produced)
    (sends : relay.remotePeer.send message = (result, remotePeer))
    (wrote : remotePeer.sent = relay.remotePeer.sent ++ written)
    (reaches : Reaches relay.inEnded ended written arrived)
    (arrives : recv.bytes = relay.gateway.quic.recv.bytes ++ arrived) :
    remotePeer.recv = relay.remotePeer.recv ∧
      ∃ onStream', Inbound { relay with
        remotePeer := remotePeer
        gateway := { relay.gateway with quic := { relay.gateway.quic with recv := recv } }
        inEnded := ended
        remoteSent := relay.remoteSent ++ if result.isOk then [message] else [] } onStream' := by
  obtain ⟨split, stream, ipc⟩ := inbound
  obtain ⟨sendable, succeeds⟩ | ⟨error, refuses⟩ := quic_sendOn produced.valid none relay.remotePeer
  · obtain ⟨rfl, rfl⟩ := Prod.mk.inj (sends.symm.trans succeeds)
    have frame : message.frame = written := List.append_cancel_left wrote
    subst frame
    refine ⟨rfl, onStream ++ [message], ?_, stream.written sendable reaches arrives, ipc⟩
    simp [split, Except.isOk, Except.toBool]
  · obtain ⟨rfl, rfl⟩ := Prod.mk.inj (sends.symm.trans refuses)
    have nothing : written = [] := by simpa using wrote
    subst nothing
    refine ⟨rfl, onStream, ?_, stream.unwritten reaches arrives, ipc⟩
    simp [split, Except.isOk, Except.toBool]

theorem Inbound.forward (inbound : Inbound relay onStream) {publishFault : Option PublishFault}
    {result : Except LaicError IpcFrame} {gateway : Gateway}
    (forwarded : relay.gateway.forwardIn relay.inEnded publishFault = some (result, gateway)) :
    gateway.ipc = relay.gateway.ipc ∧
      ∃ onStream', Inbound { relay with
        gateway := gateway
        localPeer := reached result relay.localPeer
        takenIn := relay.takenIn ++
          (taken (relay.gateway.quic.receiveOn relay.inEnded)).map fun message =>
            (message, result.map fun _ => ()) } onStream' := by
  obtain ⟨split, stream, ipc⟩ := inbound
  unfold forwardIn at forwarded
  obtain waits | ⟨error, next, fails, behind⟩ | ⟨message, rest, next, takes, rfl, behind⟩ :=
    stream.receive
  · rw [waits] at forwarded
    cases forwarded
  · rw [fails] at forwarded
    cases forwarded
    exact ⟨rfl, onStream, by simpa [fails, taken] using split, behind,
      by simpa [fails, taken, reached] using ipc⟩
  · rw [takes] at forwarded
    cases forwarded
    have valid := (stream.1 message List.mem_cons_self).1
    refine ⟨rfl, rest, by simpa [takes, taken] using split, behind, ?_⟩
    cases published : relay.gateway.ipc.send publishFault message with
    | error error =>
      -- taken and lost
      simpa [takes, taken, reached, sentOn, Except.map, Except.isOk, Except.toBool] using ipc
    | ok frame =>
      obtain ⟨_, made, _⟩ := IpcConnection.send_eq_ok.mp published
      obtain ⟨read, _⟩ := IpcFrame.toMessage_ofMessage valid made
      have joined : (relay.localPeer.deliver frame).port.Balanced _ _ := ipc.deliver read
      simpa [takes, taken, reached, sentOn, Except.map, Except.isOk, Except.toBool] using joined

theorem Inbound.localReceive (inbound : Inbound relay onStream) {fault : Option String}
    {result : Except LaicError Message} {localPeer : IpcConnection}
    (received : relay.localPeer.receive fault = some (result, localPeer)) :
    Inbound { relay with
      localPeer := localPeer
      localReceived := relay.localReceived ++ taken (relay.localPeer.receive fault) } onStream := by
  obtain ⟨split, stream, ipc⟩ := inbound
  obtain waits | ⟨error, ipc', fails, balanced⟩ | ⟨message, ipc', takes, _, balanced⟩ :=
    ipc_receive ipc fault
  · rw [waits] at received
    cases received
  · rw [fails] at received
    cases received
    exact ⟨split, stream, by simpa [fails, taken] using balanced⟩
  · rw [takes] at received
    cases received
    exact ⟨split, stream, by simpa [takes, taken] using balanced⟩

theorem kept_start : Kept .start where
  outbound := ⟨[], SlotPort.balanced_opened, rfl, QuicConnection.behind_opened false, nofun⟩
  inbound := ⟨[], rfl, QuicConnection.behind_opened false, SlotPort.balanced_opened⟩

/-- Each step is one party's, and the other direction does not see it. -/
theorem Kept.next {relay relay' : Relay} (kept : Kept relay) (step : Step relay relay') :
    Kept relay' := by
  obtain ⟨⟨onStreamOut, outbound⟩, ⟨onStreamIn, inbound⟩⟩ := kept
  cases step with
  | localSend produced published =>
    exact ⟨⟨_, outbound.localSend produced published⟩,
      ⟨_, inbound.split, inbound.stream, inbound.ipc⟩⟩
  | forwardOut forwarded wrote reaches arrives =>
    obtain ⟨unread, outbound'⟩ := outbound.forward forwarded wrote reaches arrives
    exact ⟨outbound', ⟨_, inbound.split, inbound.stream.congr (by rw [unread]), inbound.ipc⟩⟩
  | remoteReceive received =>
    exact ⟨outbound.remoteReceive received, ⟨_, inbound.split, inbound.stream, inbound.ipc⟩⟩
  | remoteSend produced sends wrote reaches arrives =>
    obtain ⟨unread, inbound'⟩ := inbound.remoteSend produced sends wrote reaches arrives
    exact ⟨⟨_, outbound.ipc, outbound.split, outbound.stream.congr (by rw [unread]), outbound.fits⟩,
      inbound'⟩
  | forwardIn forwarded =>
    obtain ⟨unread, inbound'⟩ := inbound.forward forwarded
    refine ⟨⟨_, ?_, outbound.split, outbound.stream, outbound.fits⟩, inbound'⟩
    rw [unread]
    exact outbound.ipc
  | localReceive received =>
    exact ⟨⟨_, outbound.ipc, outbound.split, outbound.stream, outbound.fits⟩,
      ⟨_, inbound.localReceive received⟩⟩
  | cutOut left =>
    exact ⟨⟨_, outbound.ipc, outbound.split, outbound.stream.cut left, outbound.fits⟩,
      ⟨_, inbound.split, inbound.stream, inbound.ipc⟩⟩
  | cutIn left =>
    exact ⟨⟨_, outbound.ipc, outbound.split, outbound.stream, outbound.fits⟩,
      ⟨_, inbound.split, inbound.stream.cut left, inbound.ipc⟩⟩
  | closeLocal =>
    exact ⟨⟨_, outbound.ipc, outbound.split, outbound.stream, outbound.fits⟩,
      ⟨_, inbound.split, inbound.stream, inbound.ipc.close⟩⟩
  | @closeGateway finish =>
    refine ⟨⟨_, outbound.ipc.close, outbound.split, outbound.stream, outbound.fits⟩,
      ⟨_, inbound.split, ?_, inbound.ipc⟩⟩
    apply inbound.stream.congr
    show (relay.gateway.quic.close finish).2.recv.bytes = _
    rw [close_recv]
  | @closeRemote finish =>
    refine ⟨⟨_, outbound.ipc, outbound.split, ?_, outbound.fits⟩,
      ⟨_, inbound.split, inbound.stream, inbound.ipc⟩⟩
    apply outbound.stream.congr
    show (relay.remotePeer.close finish).2.recv.bytes = _
    rw [close_recv]

theorem Reachable.kept {relay : Relay} (reachable : Reachable relay) : Kept relay := by
  induction reachable with
  | start => exact kept_start
  | next _ step ih => exact ih.next step

theorem sentOn_sublist (entries : List (Message × Except LaicError Unit)) :
    List.Sublist (sentOn entries) (entries.map Prod.fst) :=
  List.filter_sublist.map _

/-- Whatever goes wrong, either peer receives a subsequence of what the other one sent: in order,
each at most once, unchanged.  Of the messages that are missing, each was overwritten unread when
as many later ones as there are slots had been published, or the forward that took it returned an
error, or it is on its way, or the stream ended behind it. -/
theorem bestEffort {relay : Relay} (reachable : Reachable relay) :
    List.Sublist relay.remoteReceived relay.localSent ∧
      List.Sublist relay.localReceived relay.remoteSent ∧
      (∃ unread, SlotAccount subscriberBufferSize relay.localSent (relay.takenOut.map Prod.fst) unread ∧
        relay.gateway.ipc.Unread unread) ∧
      (∃ onStream, sentOn relay.takenOut = relay.remoteReceived ++ onStream ∧
        (relay.outEnded = false → relay.remotePeer.Arrived onStream)) ∧
      (∃ onStream, relay.remoteSent = relay.takenIn.map Prod.fst ++ onStream ∧
        (relay.inEnded = false → relay.gateway.quic.Arrived onStream)) ∧
      ∃ unread, SlotAccount subscriberBufferSize (sentOn relay.takenIn) relay.localReceived unread ∧
        relay.localPeer.Unread unread := by
  obtain ⟨⟨onStreamOut, ipcOut, splitOut, streamOut, _⟩, ⟨onStreamIn, splitIn, streamIn, ipcIn⟩⟩ :=
    reachable.kept
  obtain ⟨unreadOut, framesOut, accountOut⟩ := ipcOut
  obtain ⟨unreadIn, framesIn, accountIn⟩ := ipcIn
  have arrived : ∀ {ended : Bool} {connection : QuicConnection} {onStream : List Message},
      connection.Behind ended onStream → ended = false → connection.Arrived onStream := by
    intro ended connection onStream behind open'
    obtain ⟨_, missing, split, complete⟩ := behind
    rw [complete open', List.append_nil] at split
    exact split
  refine ⟨?_, ?_, ⟨unreadOut, accountOut, framesOut⟩, ⟨onStreamOut, splitOut, arrived streamOut⟩,
    ⟨onStreamIn, splitIn, arrived streamIn⟩, ⟨unreadIn, accountIn, framesIn⟩⟩
  · -- received, so sent on, so taken, so sent
    have received : List.Sublist relay.remoteReceived (sentOn relay.takenOut) := by
      rw [splitOut]
      exact List.sublist_append_left _ _
    have sent : List.Sublist (relay.takenOut.map Prod.fst) relay.localSent :=
      (List.sublist_append_left _ _).trans accountOut.sublist
    exact received.trans ((sentOn_sublist _).trans sent)
  · have received : List.Sublist relay.localReceived (sentOn relay.takenIn) :=
      (List.sublist_append_left _ _).trans accountIn.sublist
    have taken : List.Sublist (relay.takenIn.map Prod.fst) relay.remoteSent := by
      rw [splitIn]
      exact List.sublist_append_left _ _
    exact received.trans ((sentOn_sublist _).trans taken)

/-- A message goes from peer to peer; a second one is sent, and the gateway closes before it
forwards that. -/
theorem bestEffort_closed : ∃ (relay : Relay) (message : Message),
    relay.localSent = [message, message] ∧ relay.remoteReceived = [message] ∧
      List.Sublist relay.remoteReceived relay.localSent := by
  obtain ⟨request, made⟩ :=
    Option.isSome_iff_exists.mp (show (skillRequest 7 .raw .normal [1, 2]).isSome by decide)
  have produced : request.Produced := ⟨request, [], .skillRequest made, rfl⟩
  have fits : FitsIpc request := by
    show request.payload.length ≤ _
    rw [(Message.new_eq_some made).2.2.2]
    decide
  have sendable := sendable_of_fits produced.valid fits
  obtain ⟨frame, encoded, read⟩ := IpcFrame.ofMessage_eq_ok produced.valid fits
  have publishes : IpcConnection.opened.send none request = .ok frame :=
    IpcConnection.send_eq_ok.mpr ⟨rfl, encoded, rfl⟩
  have pending : (IpcConnection.opened.deliver frame).Unread [request] :=
    IpcConnection.unread_opened.deliver read (show 0 < 16 by decide)
  let before : Gateway := ⟨IpcConnection.opened.deliver frame, .opened (.ofBytes [])⟩
  let sent : Relay := { Relay.start with gateway := before, localSent := [request] }
  have reachesSent : Reachable sent := Reachable.start.next (.localSend produced publishes)
  have forwarding : ∃ ipc, before.forwardIpcToQuic = some (.ok (),
      ⟨ipc, { before.quic with sent := before.quic.sent ++ request.frame }⟩) ∧
        ipc.Unread [] ∧ ipc.closed = false :=
    forwardIpcToQuic_cons pending rfl rfl sendable
  obtain ⟨ipc, forwarded, -, -⟩ := forwarding
  let after : Gateway := ⟨ipc, { before.quic with sent := before.quic.sent ++ request.frame }⟩
  let onTheWay : QuicConnection := .opened (.ofBytes request.frame)
  let passed : Relay :=
    { sent with gateway := after, remotePeer := onTheWay, takenOut := [(request, .ok ())] }
  have takes : taken (before.ipc.receive none) = [request] := by
    obtain ⟨_, received, -⟩ := pending.receive_cons rfl
    simp only [before, received]
    rfl
  have reachesPassed : Reachable passed := by
    have whole : Reaches false false request.frame request.frame :=
      ⟨List.prefix_rfl, fun _ => ⟨rfl, rfl⟩, nofun⟩
    have step := @Step.forwardOut sent none none _ after _ _ (.ofBytes request.frame) false
      forwarded rfl whole (ByteReader.bytes_ofBytes request.frame)
    rw [show taken (sent.gateway.ipc.receive none) = [request] from takes] at step
    exact reachesSent.next step
  have arrived : onTheWay.Arrived [request] := by
    simp [QuicConnection.Arrived, QuicConnection.opened, onTheWay]
  obtain ⟨peer, received, -, -, -⟩ := arrived.receive_cons sendable rfl
  let delivered : Relay := { passed with remotePeer := peer, remoteReceived := [request] }
  have reachesDelivered : Reachable delivered := by
    have waiting : onTheWay.receiveOn false = some (.ok request, peer) := by
      rw [QuicConnection.receiveOn, if_neg (by decide)]
      exact received
    have step := @Step.remoteReceive passed _ peer waiting
    rw [show passed.remotePeer.receiveOn passed.outEnded = _ from waiting] at step
    exact reachesPassed.next step
  let closed : Relay := { delivered with
    gateway := (Gateway.close (.ok ()) { after with ipc := ipc.deliver frame }).2
    localSent := [request, request] }
  have reachesClosed : Reachable closed :=
    (reachesDelivered.next (@Step.localSend delivered request none frame produced publishes)).next
      (@Step.closeGateway _ (.ok ()))
  exact ⟨closed, request, rfl, rfl, (bestEffort reachesClosed).1⟩

end Relay

end Gateway

end Laic
