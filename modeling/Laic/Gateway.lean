import Laic.Transport.Produced
import Laic.Transport.Quic

/-! # The gateway between IPC and QUIC

Each forward moves one message: a receive on one side and a send on the other.  A run
has a local peer on the IPC channel, a remote peer on the QUIC stream and the gateway
between them; their calls interleave in any order, and the bytes of a send arrive in
any chunks.  A receive completes when its whole frame has arrived. -/

namespace Laic

/-! ## Whole frames on a stream -/

namespace QuicConnection

/-- `receive` on what has arrived so far; `none` while it waits for the rest. -/
def receiveArrived (connection : QuicConnection) :
    Option (Except LaicError Message × QuicConnection) :=
  match connection.receive with
  | (.ok message, next) => some (.ok message, next)
  | (.error error, next) =>
    if error = receiveFailed .earlyEof then none else some (.error error, next)

/-- The bytes that have arrived and are unread are the frames of the messages. -/
def Arrived (connection : QuicConnection) (messages : List Message) : Prop :=
  connection.recv.bytes = messages.flatMap Message.frame

/-- A message a sender may put on a stream. -/
def Sendable (message : Message) : Prop :=
  message.Valid ∧ message.payload.length ≤ maxPayloadLen.toNat

theorem frame_ne_nil (message : Message) : message.frame ≠ [] := by
  intro empty
  have length := message.frame_length
  rw [empty, List.length_nil, headerSize] at length
  omega

theorem Arrived.eq_nil {connection : QuicConnection} {messages : List Message}
    (arrived : connection.Arrived messages) (empty : connection.recv.bytes = []) :
    messages = [] := by
  cases messages with
  | nil => rfl
  | cons message messages =>
    rw [Arrived, empty, List.flatMap_cons] at arrived
    exact absurd (List.append_eq_nil_iff.mp arrived.symm).1 (frame_ne_nil message)

/-- The oldest message is received in full, and the others stay. -/
theorem Arrived.receive_cons {connection : QuicConnection} {message : Message}
    {messages : List Message} (arrived : connection.Arrived (message :: messages))
    (sendable : Sendable message) (isOpen : connection.closed = false) :
    ∃ next, connection.receiveArrived = some (.ok message, next) ∧ next.Arrived messages ∧
      next.closed = false ∧ next.sent = connection.sent := by
  have parsed : parseFrame connection.recv.bytes =
      (.ok message, messages.flatMap Message.frame) := by
    rw [arrived, List.flatMap_cons]
    exact parseFrame_frame sendable.1 sendable.2 _
  obtain ⟨result, rest⟩ := readFrame_result parsed
  refine ⟨{ connection with recv := (readFrame.exec connection.recv).rest }, ?_, rest, isOpen, rfl⟩
  simp [receiveArrived, receive, isOpen, result]

/-- Before a frame arrives a receive waits. -/
theorem Arrived.receive_nil {connection : QuicConnection} (arrived : connection.Arrived [])
    (isOpen : connection.closed = false) : connection.receiveArrived = none := by
  have parsed : parseFrame connection.recv.bytes = (.error (receiveFailed .earlyEof), []) := by
    rw [show connection.recv.bytes = [] from arrived]
    rfl
  obtain ⟨result, _⟩ := readFrame_result parsed
  simp [receiveArrived, receive, isOpen, result]

theorem send_sendable {connection : QuicConnection} {message : Message}
    (sendable : Sendable message) (isOpen : connection.closed = false) :
    connection.send message = (.ok (), { connection with sent := connection.sent ++ message.frame }) := by
  simp [send, isOpen, writeFrame_exec sendable.1 sendable.2]

/-- A message over the stream's limit is refused and writes nothing. -/
theorem send_oversized {connection : QuicConnection} {message : Message} (valid : message.Valid)
    (long : maxPayloadLen.toNat < message.payload.length) (isOpen : connection.closed = false) :
    ∃ error, connection.send message = (.error error, connection) := by
  obtain ⟨recv, sent, closed⟩ := connection
  cases isOpen
  simp [send, writeFrame_oversized valid long]

end QuicConnection

/-! ## Forwarding -/

structure Gateway where
  ipc : IpcConnection
  quic : QuicConnection

namespace Gateway

/-- Forward one message from IPC to QUIC; `none` while it waits for one. -/
def forwardIpcToQuic (gateway : Gateway) : Option (Except LaicError Unit × Gateway) :=
  match gateway.ipc.receive none with
  | none => none
  | some (.error error, ipc) => some (.error error, { gateway with ipc := ipc })
  | some (.ok message, ipc) =>
    let (result, quic) := gateway.quic.send message
    some (result, ⟨ipc, quic⟩)

/-- Forward one message from QUIC to IPC, with the frame it publishes; `none` while it
waits for a message. -/
def forwardQuicToIpc (gateway : Gateway) : Option (Except LaicError IpcFrame × Gateway) :=
  match gateway.quic.receiveArrived with
  | none => none
  | some (.error error, quic) => some (.error error, { gateway with quic := quic })
  | some (.ok message, quic) =>
    some (gateway.ipc.send none message, { gateway with quic := quic })

/-! ## Runs of two peers and a gateway -/

/-- The three parties.  The lists record what the peers sent, the results of the
forwards in either direction and the results of the peers' receives. -/
structure State where
  localPeer : IpcConnection
  gateway : Gateway
  remotePeer : QuicConnection
  localSent : List Message
  forwardedOut : List (Except LaicError Unit)
  remoteReceived : List (Except LaicError Message)
  remoteSent : List Message
  forwardedIn : List (Except LaicError Unit)
  localReceived : List (Except LaicError Message)

/-- Open connections on which nothing has been sent. -/
def State.start : State where
  localPeer := .opened
  gateway := ⟨.opened, .opened (.ofBytes [])⟩
  remotePeer := .opened (.ofBytes [])
  localSent := []
  forwardedOut := []
  remoteReceived := []
  remoteSent := []
  forwardedIn := []
  localReceived := []

/-- A publication finds a free slot. -/
def HasRoom (connection : IpcConnection) : Prop :=
  connection.subscriber.items.length < subscriberBufferSize

/-- One call of one party.  What a send writes arrives at the peer, in any chunks, and a frame is
published only into a free slot; a forward that publishes none needs no slot. -/
inductive Step : State → State → Prop where
  | localSend {state : State} {message : Message} {fault : Option PublishFault} {frame : IpcFrame}
      (produced : message.Produced) (published : state.localPeer.send fault message = .ok frame)
      (room : HasRoom state.gateway.ipc) :
      Step state { state with
        gateway := { state.gateway with ipc := state.gateway.ipc.deliver frame }
        localSent := state.localSent ++ [message] }
  | localSendFails {state : State} {message : Message} {fault : Option PublishFault}
      {error : LaicError} (refused : state.localPeer.send fault message = .error error) :
      Step state state
  | forwardIpcToQuic {state : State} {result : Except LaicError Unit} {gateway : Gateway}
      {written : List UInt8} {recv : ByteReader}
      (forwarded : state.gateway.forwardIpcToQuic = some (result, gateway))
      (wrote : gateway.quic.sent = state.gateway.quic.sent ++ written)
      (arrives : recv.bytes = state.remotePeer.recv.bytes ++ written) :
      Step state { state with
        gateway := gateway
        remotePeer := { state.remotePeer with recv := recv }
        forwardedOut := state.forwardedOut ++ [result] }
  | remoteReceive {state : State} {result : Except LaicError Message} {remotePeer : QuicConnection}
      (received : state.remotePeer.receiveArrived = some (result, remotePeer)) :
      Step state { state with
        remotePeer := remotePeer
        remoteReceived := state.remoteReceived ++ [result] }
  | remoteSend {state : State} {message : Message} {result : Except LaicError Unit}
      {remotePeer : QuicConnection} {written : List UInt8} {recv : ByteReader}
      (produced : message.Produced)
      (sends : state.remotePeer.send message = (result, remotePeer))
      (wrote : remotePeer.sent = state.remotePeer.sent ++ written)
      (arrives : recv.bytes = state.gateway.quic.recv.bytes ++ written) :
      Step state { state with
        remotePeer := remotePeer
        gateway := { state.gateway with quic := { state.gateway.quic with recv := recv } }
        remoteSent := match result with
          | .ok _ => state.remoteSent ++ [message]
          | .error _ => state.remoteSent }
  | forwardQuicToIpc {state : State} {result : Except LaicError IpcFrame} {gateway : Gateway}
      (forwarded : state.gateway.forwardQuicToIpc = some (result, gateway))
      (room : ∀ frame, result = .ok frame → HasRoom state.localPeer) :
      Step state { state with
        gateway := gateway
        localPeer := match result with
          | .ok frame => state.localPeer.deliver frame
          | .error _ => state.localPeer
        forwardedIn := state.forwardedIn ++ [result.map fun _ => ()] }
  | localReceive {state : State} {result : Except LaicError Message} {localPeer : IpcConnection}
      (received : state.localPeer.receive none = some (result, localPeer)) :
      Step state { state with
        localPeer := localPeer
        localReceived := state.localReceived ++ [result] }

inductive Reachable : State → Prop where
  | start : Reachable .start
  | next {state state' : State} : Reachable state → Step state state' → Reachable state'

/-! ## What every run keeps -/

/-- The message fits an IPC frame. -/
def FitsIpc (message : Message) : Prop := message.payload.length ≤ maxIpcPayloadLen.toNat

instance (message : Message) : Decidable (FitsIpc message) := Nat.decLe _ _

/-- What forwarding a message to IPC returns. -/
def forwardResult (message : Message) : Except LaicError Unit :=
  if FitsIpc message then .ok ()
  else .error (.transport (.framingError
    s!"payload length {message.payload.length} exceeds IPC maximum {maxIpcPayloadLen}"))

/-- Outbound, the remote peer's receives are the first of the local sends, the others are
in flight in order, and every forward succeeded. -/
structure Outbound (state : State) : Prop where
  inFlight : ∃ received onStream unread,
    state.localSent = received ++ onStream ++ unread ∧
    state.remoteReceived = received.map .ok ∧
    state.remotePeer.Arrived onStream ∧
    state.gateway.ipc.Unread unread ∧
    state.forwardedOut = (received ++ onStream).map fun _ => .ok ()
  fits : ∀ message ∈ state.localSent, message.Valid ∧ FitsIpc message

/-- Inbound, the forwards took the first of the remote sends and returned what their
size says, the local peer receives those that fit, and the others left nothing. -/
structure Inbound (state : State) : Prop where
  inFlight : ∃ forwarded onStream received unread,
    state.remoteSent = forwarded ++ onStream ∧
    state.gateway.quic.Arrived onStream ∧
    state.forwardedIn = forwarded.map forwardResult ∧
    forwarded.filter FitsIpc = received ++ unread ∧
    state.localReceived = received.map .ok ∧
    state.localPeer.Unread unread
  sendable : ∀ message ∈ state.remoteSent, QuicConnection.Sendable message

/-- No party has closed its connection. -/
structure Open (state : State) : Prop where
  localPeer : state.localPeer.closed = false
  ipc : state.gateway.ipc.closed = false
  quic : state.gateway.quic.closed = false
  remotePeer : state.remotePeer.closed = false

structure Invariant (state : State) : Prop where
  isOpen : Open state
  outbound : Outbound state
  inbound : Inbound state

theorem sendable_of_fits {message : Message} (valid : message.Valid) (fits : FitsIpc message) :
    QuicConnection.Sendable message :=
  ⟨valid, Nat.le_trans fits (by decide)⟩

theorem invariant_start : Invariant .start where
  isOpen := ⟨rfl, rfl, rfl, rfl⟩
  outbound := ⟨⟨[], [], [], rfl, rfl, ByteReader.bytes_ofBytes [], .nil, rfl⟩, nofun⟩
  inbound := ⟨⟨[], [], [], [], rfl, ByteReader.bytes_ofBytes [], rfl, rfl, rfl, .nil⟩, nofun⟩

/-- With a message unread on IPC, forwarding it writes its frame and succeeds. -/
theorem forwardIpcToQuic_cons {gateway : Gateway} {message : Message} {unread : List Message}
    (pending : gateway.ipc.Unread (message :: unread)) (ipcOpen : gateway.ipc.closed = false)
    (quicOpen : gateway.quic.closed = false) (sendable : QuicConnection.Sendable message) :
    ∃ ipc, gateway.forwardIpcToQuic = some (.ok (),
        ⟨ipc, { gateway.quic with sent := gateway.quic.sent ++ message.frame }⟩) ∧
      ipc.Unread unread ∧ ipc.closed = false := by
  obtain ⟨ipc, received, rest, stillOpen⟩ := pending.receive_cons ipcOpen
  refine ⟨ipc, ?_, rest, stillOpen⟩
  simp [forwardIpcToQuic, received, QuicConnection.send_sendable sendable quicOpen]

/-- With a message arrived on QUIC, forwarding it returns what its size says, and a
message that fits is published. -/
theorem forwardQuicToIpc_cons {gateway : Gateway} {message : Message} {onStream : List Message}
    (arrived : gateway.quic.Arrived (message :: onStream)) (ipcOpen : gateway.ipc.closed = false)
    (quicOpen : gateway.quic.closed = false) (sendable : QuicConnection.Sendable message) :
    ∃ result quic, gateway.forwardQuicToIpc = some (result, ⟨gateway.ipc, quic⟩) ∧
      result.map (fun _ => ()) = forwardResult message ∧ quic.Arrived onStream ∧
      quic.closed = false ∧ quic.sent = gateway.quic.sent ∧
      (∀ frame, result = .ok frame → FitsIpc message ∧ frame.toMessage = .ok message) := by
  obtain ⟨quic, received, rest, stillOpen, sent⟩ := arrived.receive_cons sendable quicOpen
  have forwarded : gateway.forwardQuicToIpc =
      some (gateway.ipc.send none message, ⟨gateway.ipc, quic⟩) := by
    simp [forwardQuicToIpc, received]
  refine ⟨_, quic, forwarded, ?_, rest, stillOpen, sent, ?_⟩
  · by_cases fits : FitsIpc message
    · obtain ⟨frame, made, _⟩ := IpcFrame.ofMessage_eq_ok sendable.1 fits
      have published := IpcConnection.send_eq_ok.mpr ⟨ipcOpen, made, rfl⟩
      rw [published, forwardResult, if_pos fits]
      rfl
    · have refused := IpcFrame.ofMessage_oversized (Nat.lt_of_not_le fits)
      rw [forwardResult, if_neg fits]
      simp [IpcConnection.send, ipcOpen, refused, Except.ensure_pos, Except.map]
  · intro frame published
    obtain ⟨_, made, _⟩ := IpcConnection.send_eq_ok.mp published
    obtain ⟨read, fits⟩ := IpcFrame.toMessage_ofMessage sendable.1 made
    exact ⟨fits, read⟩

theorem invariant_localSend {state : State} (invariant : Invariant state) {message : Message}
    {fault : Option PublishFault} {frame : IpcFrame} (produced : message.Produced)
    (published : state.localPeer.send fault message = .ok frame)
    (room : HasRoom state.gateway.ipc) :
    Invariant { state with
      gateway := { state.gateway with ipc := state.gateway.ipc.deliver frame }
      localSent := state.localSent ++ [message] } := by
  obtain ⟨isOpen, ⟨⟨received, onStream, unread, split, got, arrived, pending, results⟩, fits⟩,
    inbound⟩ := invariant
  obtain ⟨_, made, _⟩ := IpcConnection.send_eq_ok.mp published
  obtain ⟨read, fitsIpc⟩ := IpcFrame.toMessage_ofMessage produced.valid made
  refine ⟨⟨isOpen.1, isOpen.2, isOpen.3, isOpen.4⟩, ⟨?_, ?_⟩, ⟨inbound.inFlight, inbound.sendable⟩⟩
  · refine ⟨received, onStream, unread ++ [message], ?_, got, arrived, pending.deliver read room,
      results⟩
    simp [split]
  · intro other member
    obtain earlier | last := List.mem_append.mp member
    · exact fits other earlier
    · rw [List.mem_singleton.mp last]
      exact ⟨produced.valid, fitsIpc⟩

theorem invariant_forwardIpcToQuic {state : State} (invariant : Invariant state)
    {result : Except LaicError Unit} {gateway : Gateway} {written : List UInt8} {recv : ByteReader}
    (forwarded : state.gateway.forwardIpcToQuic = some (result, gateway))
    (wrote : gateway.quic.sent = state.gateway.quic.sent ++ written)
    (arrives : recv.bytes = state.remotePeer.recv.bytes ++ written) :
    Invariant { state with
      gateway := gateway
      remotePeer := { state.remotePeer with recv := recv }
      forwardedOut := state.forwardedOut ++ [result] } := by
  obtain ⟨isOpen, ⟨⟨received, onStream, unread, split, got, arrived, pending, results⟩, fits⟩,
    inbound⟩ := invariant
  cases unread with
  | nil =>
    rw [Gateway.forwardIpcToQuic, pending.receive_nil isOpen.ipc] at forwarded
    cases forwarded
  | cons message unread =>
    obtain ⟨valid, fitsIpc⟩ := fits message (by simp [split])
    obtain ⟨ipc, does, rest, ipcOpen⟩ :=
      forwardIpcToQuic_cons pending isOpen.ipc isOpen.quic (sendable_of_fits valid fitsIpc)
    rw [does] at forwarded
    cases forwarded
    have frame : message.frame = written := List.append_cancel_left wrote
    refine ⟨⟨isOpen.1, ipcOpen, isOpen.3, isOpen.4⟩, ⟨?_, fits⟩, ⟨inbound.inFlight, inbound.sendable⟩⟩
    refine ⟨received, onStream ++ [message], unread, ?_, got, ?_, rest, ?_⟩
    · simp [split]
    · show recv.bytes = _
      rw [arrives, arrived, ← frame]
      simp
    · simp only [results, List.map_append, List.append_assoc]
      rfl

theorem invariant_remoteReceive {state : State} (invariant : Invariant state)
    {result : Except LaicError Message} {remotePeer : QuicConnection}
    (received : state.remotePeer.receiveArrived = some (result, remotePeer)) :
    Invariant { state with
      remotePeer := remotePeer
      remoteReceived := state.remoteReceived ++ [result] } := by
  obtain ⟨isOpen, ⟨⟨before, onStream, unread, split, got, arrived, pending, results⟩, fits⟩,
    inbound⟩ := invariant
  cases onStream with
  | nil =>
    rw [arrived.receive_nil isOpen.remotePeer] at received
    cases received
  | cons message onStream =>
    obtain ⟨valid, fitsIpc⟩ := fits message (by simp [split])
    obtain ⟨next, does, rest, stillOpen, _⟩ :=
      arrived.receive_cons (sendable_of_fits valid fitsIpc) isOpen.remotePeer
    rw [does] at received
    cases received
    refine ⟨⟨isOpen.1, isOpen.2, isOpen.3, stillOpen⟩, ⟨?_, fits⟩,
      ⟨inbound.inFlight, inbound.sendable⟩⟩
    refine ⟨before ++ [message], onStream, unread, ?_, ?_, rest, pending, ?_⟩
    · simp [split]
    · simp [got]
    · simpa using results

theorem invariant_remoteSend {state : State} (invariant : Invariant state) {message : Message}
    {result : Except LaicError Unit} {remotePeer : QuicConnection} {written : List UInt8}
    {recv : ByteReader} (produced : message.Produced)
    (sends : state.remotePeer.send message = (result, remotePeer))
    (wrote : remotePeer.sent = state.remotePeer.sent ++ written)
    (arrives : recv.bytes = state.gateway.quic.recv.bytes ++ written) :
    Invariant { state with
      remotePeer := remotePeer
      gateway := { state.gateway with quic := { state.gateway.quic with recv := recv } }
      remoteSent := match result with
        | .ok _ => state.remoteSent ++ [message]
        | .error _ => state.remoteSent } := by
  obtain ⟨isOpen, outbound, ⟨⟨forwarded, onStream, received, unread, split, arrived, results,
    delivered, got, pending⟩, sendable⟩⟩ := invariant
  by_cases bounded : message.payload.length ≤ maxPayloadLen.toNat
  · have fits : QuicConnection.Sendable message := ⟨produced.valid, bounded⟩
    rw [QuicConnection.send_sendable fits isOpen.remotePeer] at sends
    cases sends
    have frame : message.frame = written := List.append_cancel_left wrote
    refine ⟨⟨isOpen.1, isOpen.2, isOpen.3, isOpen.4⟩, ⟨outbound.inFlight, outbound.fits⟩, ⟨?_, ?_⟩⟩
    · refine ⟨forwarded, onStream ++ [message], received, unread, ?_, ?_, results, delivered, got,
        pending⟩
      · simp [split]
      · show recv.bytes = _
        rw [arrives, arrived, ← frame]
        simp
    · intro other member
      obtain earlier | last := List.mem_append.mp member
      · exact sendable other earlier
      · rw [List.mem_singleton.mp last]
        exact fits
  · obtain ⟨error, refused⟩ :=
      QuicConnection.send_oversized produced.valid (Nat.lt_of_not_le bounded) isOpen.remotePeer
    rw [refused] at sends
    cases sends
    have nothing : written = [] := by simpa using wrote
    refine ⟨⟨isOpen.1, isOpen.2, isOpen.3, isOpen.4⟩, ⟨outbound.inFlight, outbound.fits⟩,
      ⟨⟨forwarded, onStream, received, unread, split, ?_, results, delivered, got, pending⟩, sendable⟩⟩
    show recv.bytes = _
    rw [arrives, nothing, List.append_nil, arrived]

theorem invariant_forwardQuicToIpc {state : State} (invariant : Invariant state)
    {result : Except LaicError IpcFrame} {gateway : Gateway}
    (does : state.gateway.forwardQuicToIpc = some (result, gateway))
    (room : ∀ frame, result = .ok frame → HasRoom state.localPeer) :
    Invariant { state with
      gateway := gateway
      localPeer := match result with
        | .ok frame => state.localPeer.deliver frame
        | .error _ => state.localPeer
      forwardedIn := state.forwardedIn ++ [result.map fun _ => ()] } := by
  obtain ⟨isOpen, outbound, ⟨⟨forwarded, onStream, received, unread, split, arrived, results,
    delivered, got, pending⟩, sendable⟩⟩ := invariant
  cases onStream with
  | nil =>
    rw [Gateway.forwardQuicToIpc, arrived.receive_nil isOpen.quic] at does
    cases does
  | cons message onStream =>
    have sendableMessage := sendable message (by simp [split])
    obtain ⟨result', quic, does', outcome, rest, quicOpen, _, published⟩ :=
      forwardQuicToIpc_cons arrived isOpen.ipc isOpen.quic sendableMessage
    rw [does'] at does
    cases does
    have results' : state.forwardedIn ++ [result.map fun _ => ()] =
        (forwarded ++ [message]).map forwardResult := by
      rw [results, outcome, List.map_append]
      rfl
    have outbound' := outbound.inFlight
    cases result with
    | ok frame =>
      obtain ⟨fits, read⟩ := published frame rfl
      refine ⟨⟨isOpen.1, isOpen.2, quicOpen, isOpen.4⟩, ⟨outbound', outbound.fits⟩, ⟨?_, sendable⟩⟩
      refine ⟨forwarded ++ [message], onStream, received, unread ++ [message], ?_, rest, results', ?_,
        got, pending.deliver read (room frame rfl)⟩
      · simp [split]
      · simp [List.filter_append, delivered, fits]
    | error error =>
      have large : ¬ FitsIpc message := by
        intro fits
        rw [forwardResult, if_pos fits] at outcome
        cases outcome
      refine ⟨⟨isOpen.1, isOpen.2, quicOpen, isOpen.4⟩, ⟨outbound', outbound.fits⟩, ⟨?_, sendable⟩⟩
      refine ⟨forwarded ++ [message], onStream, received, unread, ?_, rest, results', ?_, got, pending⟩
      · simp [split]
      · simp [List.filter_append, delivered, large]

theorem invariant_localReceive {state : State} (invariant : Invariant state)
    {result : Except LaicError Message} {localPeer : IpcConnection}
    (does : state.localPeer.receive none = some (result, localPeer)) :
    Invariant { state with
      localPeer := localPeer
      localReceived := state.localReceived ++ [result] } := by
  obtain ⟨isOpen, outbound, ⟨⟨forwarded, onStream, received, unread, split, arrived, results,
    delivered, got, pending⟩, sendable⟩⟩ := invariant
  cases unread with
  | nil =>
    rw [pending.receive_nil isOpen.localPeer] at does
    cases does
  | cons message unread =>
    obtain ⟨connection', does', rest, stillOpen⟩ := pending.receive_cons isOpen.localPeer
    rw [does'] at does
    cases does
    refine ⟨⟨stillOpen, isOpen.2, isOpen.3, isOpen.4⟩, ⟨outbound.inFlight, outbound.fits⟩,
      ⟨?_, sendable⟩⟩
    refine ⟨forwarded, onStream, received ++ [message], unread, split, arrived, results, ?_, ?_, rest⟩
    · simp [delivered]
    · simp [got]

theorem invariant_step {state state' : State} (invariant : Invariant state)
    (step : Step state state') : Invariant state' := by
  cases step with
  | localSend produced published room => exact invariant_localSend invariant produced published room
  | localSendFails => exact invariant
  | forwardIpcToQuic forwarded wrote arrives =>
    exact invariant_forwardIpcToQuic invariant forwarded wrote arrives
  | remoteReceive received => exact invariant_remoteReceive invariant received
  | remoteSend produced sends wrote arrives =>
    exact invariant_remoteSend invariant produced sends wrote arrives
  | forwardQuicToIpc forwarded room => exact invariant_forwardQuicToIpc invariant forwarded room
  | localReceive received => exact invariant_localReceive invariant received

theorem Reachable.invariant {state : State} (reachable : Reachable state) : Invariant state := by
  induction reachable with
  | start => exact invariant_start
  | next _ step ih => exact invariant_step ih step

/-- Whatever is in flight can move on: the call that takes it completes. -/
structure Progress (state : State) : Prop where
  forwardOut : state.gateway.ipc.subscriber.items ≠ [] →
    ∃ gateway, state.gateway.forwardIpcToQuic = some (.ok (), gateway)
  remoteReceive : state.remotePeer.recv.bytes ≠ [] →
    ∃ message next, state.remotePeer.receiveArrived = some (.ok message, next)
  forwardIn : state.gateway.quic.recv.bytes ≠ [] →
    ∃ result gateway, state.gateway.forwardQuicToIpc = some (result, gateway)
  localReceive : state.localPeer.subscriber.items ≠ [] →
    ∃ message next, state.localPeer.receive none = some (.ok message, next)

theorem Invariant.progress {state : State} (invariant : Invariant state) : Progress state := by
  obtain ⟨isOpen, ⟨⟨received, onStream, unread, split, _, arrived, pending, _⟩, fits⟩,
    ⟨⟨forwarded, onStreamIn, _, unreadIn, splitIn, arrivedIn, _, _, _, pendingIn⟩, sendable⟩⟩ :=
    invariant
  refine ⟨?_, ?_, ?_, ?_⟩
  · intro nonempty
    cases unread with
    | nil => exact absurd pending.items_nil nonempty
    | cons message unread =>
      obtain ⟨valid, fitsIpc⟩ := fits message (by simp [split])
      obtain ⟨ipc, does, _⟩ :=
        forwardIpcToQuic_cons pending isOpen.ipc isOpen.quic (sendable_of_fits valid fitsIpc)
      exact ⟨_, does⟩
  · intro nonempty
    cases onStream with
    | nil => exact absurd arrived nonempty
    | cons message onStream =>
      obtain ⟨valid, fitsIpc⟩ := fits message (by simp [split])
      obtain ⟨next, does, _⟩ :=
        arrived.receive_cons (sendable_of_fits valid fitsIpc) isOpen.remotePeer
      exact ⟨message, next, does⟩
  · intro nonempty
    cases onStreamIn with
    | nil => exact absurd arrivedIn nonempty
    | cons message onStreamIn =>
      have sendableMessage := sendable message (by simp [splitIn])
      obtain ⟨result, quic, does, _⟩ :=
        forwardQuicToIpc_cons arrivedIn isOpen.ipc isOpen.quic sendableMessage
      exact ⟨result, _, does⟩
  · intro nonempty
    cases unreadIn with
    | nil => exact absurd pendingIn.items_nil nonempty
    | cons message unreadIn =>
      obtain ⟨next, does, _⟩ := pendingIn.receive_cons isOpen.localPeer
      exact ⟨message, next, does⟩

/-- Once nothing is in flight outbound, everything sent was received. -/
theorem Outbound.drained {state : State} (outbound : Outbound state)
    (ipc : state.gateway.ipc.subscriber.items = []) (quic : state.remotePeer.recv.bytes = []) :
    state.remoteReceived = state.localSent.map .ok ∧
      state.forwardedOut = state.localSent.map fun _ => .ok () := by
  obtain ⟨⟨received, onStream, unread, split, got, arrived, pending, results⟩, _⟩ := outbound
  obtain rfl := arrived.eq_nil quic
  obtain rfl := pending.eq_nil ipc
  rw [List.append_nil, List.append_nil] at split
  rw [split]
  exact ⟨got, by simpa using results⟩

/-- Once nothing is in flight inbound, everything sent that fits was received. -/
theorem Inbound.drained {state : State} (inbound : Inbound state)
    (quic : state.gateway.quic.recv.bytes = []) (ipc : state.localPeer.subscriber.items = []) :
    state.localReceived = (state.remoteSent.filter FitsIpc).map .ok ∧
      state.forwardedIn = state.remoteSent.map forwardResult := by
  obtain ⟨⟨forwarded, onStream, received, unread, split, arrived, results, delivered, got, pending⟩,
    _⟩ := inbound
  obtain rfl := arrived.eq_nil quic
  obtain rfl := pending.eq_nil ipc
  rw [List.append_nil] at split delivered
  rw [split, delivered]
  exact ⟨got, results⟩

/-- In every run the gateway is transparent: outbound nothing is lost, changed, reordered
or refused; inbound exactly the messages that do not fit an IPC frame are refused and
leave nothing behind; and what is in flight can always move on. -/
theorem transparent {state : State} (reachable : Reachable state) :
    Outbound state ∧ Inbound state ∧ Progress state ∧
      (state.gateway.ipc.subscriber.items = [] → state.remotePeer.recv.bytes = [] →
        state.remoteReceived = state.localSent.map .ok ∧
          state.forwardedOut = state.localSent.map fun _ => .ok ()) ∧
      (state.gateway.quic.recv.bytes = [] → state.localPeer.subscriber.items = [] →
        state.localReceived = (state.remoteSent.filter FitsIpc).map .ok ∧
          state.forwardedIn = state.remoteSent.map forwardResult) := by
  have invariant := reachable.invariant
  exact ⟨invariant.outbound, invariant.inbound, invariant.progress, invariant.outbound.drained,
    invariant.inbound.drained⟩

/-- After one local send the message is on its way. -/
theorem transparent_one_send :
    ∃ state : State, state.localSent ≠ [] ∧ Outbound state ∧ Progress state := by
  obtain ⟨request, made⟩ :=
    Option.isSome_iff_exists.mp (show (skillRequest 7 .raw .normal [1, 2]).isSome by decide)
  have produced : request.Produced := ⟨request, [], .skillRequest made, rfl⟩
  obtain ⟨valid, _, _, payload⟩ := Message.new_eq_some made
  have fits : request.payload.length ≤ maxIpcPayloadLen.toNat := by
    rw [payload]
    decide
  obtain ⟨frame, encoded, _⟩ := IpcFrame.ofMessage_eq_ok valid fits
  have published : State.start.localPeer.send none request = .ok frame :=
    IpcConnection.send_eq_ok.mpr ⟨rfl, encoded, rfl⟩
  have room : HasRoom State.start.gateway.ipc := show 0 < 16 by decide
  have reachable := Reachable.start.next (.localSend produced published room)
  obtain ⟨outbound, _, progress, _⟩ := transparent reachable
  exact ⟨_, by simp [State.start], outbound, progress⟩

end Gateway

end Laic
