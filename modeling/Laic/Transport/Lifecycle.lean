import Laic.Flow
import Laic.GatewayLoss
import Laic.Transport.Facade

/-! # Closing, failing and trying again

A transport, an emergency channel and a credit controller under any calls, arrivals and failures.
Closing is final and is all that makes calls return `ShuttingDown`.  Of the errors of a send,
`is_retryable` separates those the environment is to blame for from those that the same call meets
again forever. -/

namespace Laic

/-! ## Error classes -/

namespace MessageHeader

theorem checkInvariants_error {header : MessageHeader} {error : LaicError}
    (failed : header.checkInvariants = .error error) : ∃ reason, error = .protocol reason := by
  simp only [checkInvariants, Except.bind_eq_error, Except.ensure_eq_error, Except.ensure_eq_ok] at failed
  obtain ⟨_, rfl⟩ | ⟨_, _, ⟨_, rfl⟩ | ⟨_, _, failed | ⟨_, _, failed | ⟨_, _, impossible⟩⟩⟩⟩ := failed
  · exact ⟨_, rfl⟩
  · exact ⟨_, rfl⟩
  · cases read : PayloadFormat.fromU8 header.payloadFormat with
    | error reason =>
      rw [read] at failed
      exact ⟨reason, (Except.error.inj failed).symm⟩
    | ok format =>
      rw [read] at failed
      cases failed
  · cases read : Qos.fromU8 header.qos with
    | error reason =>
      rw [read] at failed
      exact ⟨reason, (Except.error.inj failed).symm⟩
    | ok qos =>
      rw [read] at failed
      cases failed
  · cases impossible

theorem encode_error {header : MessageHeader} {buffer : List UInt8} {error : LaicError}
    (failed : header.encode buffer = .error error) : ∃ reason, error = .protocol reason := by
  simp only [encode, Except.bind_eq_error, Except.ensure_eq_error, Except.ensure_eq_ok] at failed
  obtain ⟨_, rfl⟩ | ⟨_, _, failed | ⟨_, _, impossible⟩⟩ := failed
  · exact ⟨_, rfl⟩
  · exact checkInvariants_error failed
  · cases impossible

end MessageHeader

/-- An error of the content itself: not retryable, and not the one of a closed port. -/
def LaicError.Permanent (error : LaicError) : Prop :=
  error.isRetryable = false ∧ error ≠ .transport .shuttingDown

theorem permanent_protocol (reason : ProtocolError) : (LaicError.protocol reason).Permanent :=
  ⟨rfl, nofun⟩

theorem permanent_framing (detail : String) :
    (LaicError.transport (.framingError detail)).Permanent := by
  constructor
  · rfl
  · simp

theorem ipcFormat_classified : SlotPort.Classified ipcFormat LaicError.isRetryable where
  shuttingDown := rfl
  publish fault := by cases fault <;> rfl
  encode message error failed := by
    show LaicError.Permanent error
    have failed : IpcFrame.ofMessage message = .error error := failed
    unfold IpcFrame.ofMessage at failed
    split at failed
    · split at failed
      · rename_i encoded
        cases failed
        obtain ⟨reason, rfl⟩ := MessageHeader.encode_error encoded
        exact permanent_protocol reason
      · cases failed
    · cases failed
      exact permanent_framing _

/-- A write either fails before it touches the stream, or is two writes. -/
theorem writeFrame_cases (message : Message) :
    (∃ error : LaicError, error.Permanent ∧ writeFrame message = .ret (.error error)) ∨
      ∃ header, writeFrame message = (do
        (Async.write header).mapError sendFailed
        (Async.write message.payload).mapError sendFailed) := by
  unfold writeFrame
  cases checked : checkPayloadLen message.header with
  | error error =>
    left
    refine ⟨error, ?_, rfl⟩
    rw [checkPayloadLen, Except.ensure_eq_error] at checked
    rw [← checked.2]
    exact permanent_framing _
  | ok _ =>
    cases encoded : message.header.encode (List.replicate headerSize 0) with
    | error error =>
      left
      refine ⟨error, ?_, rfl⟩
      obtain ⟨reason, rfl⟩ := MessageHeader.encode_error encoded
      exact permanent_protocol reason
    | ok header => exact .inr ⟨header, rfl⟩

/-! ## Transports under failures -/

/-- What may go wrong with a send, for either backend. -/
structure SendFaults where
  publish : Option PublishFault
  write : Option IoFault

def SendFaults.none : SendFaults := ⟨.none, .none⟩

namespace Transport

/-- `send` with the failures of its environment. -/
def sendWith (faults : SendFaults) (message : Message) :
    Transport → Except LaicError Unit × Option Emission × Transport
  | .ipc connection =>
    match connection.send faults.publish message with
    | .ok frame => (.ok (), some (.frame frame), .ipc connection)
    | .error error => (.error error, none, .ipc connection)
  | .quic connection =>
    let (result, next) := connection.sendOn faults.write message
    (result, some (.bytes (next.sent.drop connection.sent.length)), .quic next)

theorem sendWith_none (message : Message) (transport : Transport) :
    transport.sendWith .none message = transport.send message := by
  cases transport <;> rfl

/-- `receive` with the failures of its environment. -/
def receiveWith (fault : Option String) (ended : Bool) :
    Transport → Option (Except LaicError Message × Transport)
  | .ipc connection => (connection.receive fault).map fun (result, next) => (result, .ipc next)
  | .quic connection => (connection.receiveOn ended).map fun (result, next) => (result, .quic next)

def closed : Transport → Bool
  | .ipc connection => connection.closed
  | .quic connection => connection.closed

/-- Anything that happens to a transport: calls, and arrivals in whatever form the peer and the
network give them. -/
inductive Event where
  | send (message : Message) (faults : SendFaults)
  | receive (fault : Option String) (ended : Bool)
  | close (finish : Except String Unit)
  | frame (frame : IpcFrame)
  | stream (recv : ByteReader)

def Event.isClose : Event → Bool
  | .close _ => true
  | _ => false

def next (transport : Transport) : Event → Transport
  | .send message faults => (transport.sendWith faults message).2.2
  | .receive fault ended => ((transport.receiveWith fault ended).map Prod.snd).getD transport
  | .close finish => (transport.close finish).2
  | .frame frame =>
    match transport with
    | .ipc connection => .ipc (connection.deliver frame)
    | .quic connection => .quic connection
  | .stream recv =>
    match transport with
    | .ipc connection => .ipc connection
    | .quic connection => .quic { connection with recv := recv }

def after (transport : Transport) (events : List Event) : Transport := events.foldl next transport

/-! ## Closing -/

theorem ipc_receive_closed {fault : Option String} {connection connection' : IpcConnection}
    {result : Except LaicError Message}
    (received : connection.receive fault = some (result, connection')) :
    connection'.closed = connection.closed := by
  unfold IpcConnection.receive at received
  cases isClosed : connection.closed with
  | true =>
    simp only [isClosed, if_true, Option.some.injEq, Prod.mk.injEq] at received
    rw [← received.2, isClosed]
  | false =>
    cases fault with
    | some detail =>
      simp only [isClosed, Bool.false_eq_true, if_false, Option.some.injEq, Prod.mk.injEq] at received
      rw [← received.2, isClosed]
    | none =>
      simp only [isClosed, Bool.false_eq_true, if_false, Option.map_eq_some_iff, Prod.mk.injEq] at received
      obtain ⟨_, _, _, rfl⟩ := received
      rfl

theorem quic_receive_closed (connection : QuicConnection) :
    connection.receive.2.closed = connection.closed := by
  unfold QuicConnection.receive
  split <;> rfl

theorem quic_receiveOn_closed {ended : Bool} {connection connection' : QuicConnection}
    {result : Except LaicError Message}
    (received : connection.receiveOn ended = some (result, connection')) :
    connection'.closed = connection.closed := by
  have same := quic_receive_closed connection
  cases ended with
  | true =>
    simp only [QuicConnection.receiveOn, if_true, Option.some.injEq] at received
    rwa [received] at same
  | false =>
    simp only [QuicConnection.receiveOn, Bool.false_eq_true, if_false,
      QuicConnection.receiveArrived] at received
    split at received
    · rename_i next returned
      cases received
      rwa [returned] at same
    · rename_i error next returned
      split at received
      · cases received
      · cases received
        rwa [returned] at same

theorem quic_sendOn_closed (fault : Option IoFault) (message : Message) (connection : QuicConnection) :
    (connection.sendOn fault message).2.closed = connection.closed := by
  cases fault with
  | none =>
    show (connection.send message).2.closed = _
    unfold QuicConnection.send
    split <;> rfl
  | some fault =>
    simp only [QuicConnection.sendOn]
    split <;> rfl

/-- Nothing but `close` changes whether a transport is closed, and nothing opens it again. -/
theorem closed_next (transport : Transport) (event : Event) :
    (transport.next event).closed = (transport.closed || event.isClose) := by
  cases event with
  | send message faults =>
    show _ = (transport.closed || false)
    rw [Bool.or_false]
    cases transport with
    | ipc connection =>
      simp only [next, sendWith]
      split <;> rfl
    | quic connection => exact quic_sendOn_closed faults.write message connection
  | receive fault ended =>
    show _ = (transport.closed || false)
    rw [Bool.or_false]
    cases transport with
    | ipc connection =>
      cases received : connection.receive fault with
      | none => simp [next, receiveWith, received]
      | some outcome =>
        obtain ⟨result, connection'⟩ := outcome
        simpa [next, receiveWith, received, closed] using ipc_receive_closed received
    | quic connection =>
      cases received : connection.receiveOn ended with
      | none => simp [next, receiveWith, received]
      | some outcome =>
        obtain ⟨result, connection'⟩ := outcome
        simpa [next, receiveWith, received, closed] using quic_receiveOn_closed received
  | close finish =>
    show _ = (transport.closed || true)
    rw [Bool.or_true]
    cases transport with
    | ipc connection => rfl
    | quic connection =>
      show (connection.close finish).2.closed = true
      unfold QuicConnection.close
      split
      · assumption
      · rfl
  | frame frame => cases transport <;> simp [next, closed, Event.isClose, IpcConnection.deliver]
  | stream recv => cases transport <;> simp [next, closed, Event.isClose]

theorem closed_after (transport : Transport) (events : List Event) :
    (transport.after events).closed = (transport.closed || events.any Event.isClose) := by
  induction events generalizing transport with
  | nil => simp [after]
  | cons event events ih =>
    show ((transport.next event).after events).closed = _
    rw [ih, closed_next, List.any_cons, Bool.or_assoc]

/-! ## Trying again -/

/-- The error that the backend has for the message itself, if any. -/
def unsendable (message : Message) : Transport → Option LaicError
  | .ipc _ =>
    match IpcFrame.ofMessage message with
    | .error error => some error
    | .ok _ => none
  | .quic _ =>
    match writeFrame message with
    | .ret (.error error) => some error
    | _ => none

theorem unsendable_next (message : Message) (transport : Transport) (event : Event) :
    (transport.next event).unsendable message = transport.unsendable message := by
  cases transport with
  | ipc connection =>
    cases event with
    | send other faults =>
      simp only [next, sendWith]
      split <;> rfl
    | receive fault ended =>
      cases received : connection.receive fault <;> simp [next, receiveWith, received, unsendable]
    | close finish => rfl
    | frame frame => rfl
    | stream recv => rfl
  | quic connection =>
    cases event with
    | send other faults => rfl
    | receive fault ended =>
      cases received : connection.receiveOn ended <;> simp [next, receiveWith, received, unsendable]
    | close finish => rfl
    | frame frame => rfl
    | stream recv => rfl

theorem unsendable_after (message : Message) (transport : Transport) (events : List Event) :
    (transport.after events).unsendable message = transport.unsendable message := by
  induction events generalizing transport with
  | nil => rfl
  | cons event events ih =>
    show ((transport.next event).after events).unsendable message = _
    rw [ih, unsendable_next]

theorem unsendable_permanent {message : Message} {transport : Transport} {error : LaicError}
    (refused : transport.unsendable message = some error) : error.Permanent := by
  cases transport with
  | ipc connection =>
    cases made : IpcFrame.ofMessage message with
    | ok frame => simp [unsendable, made] at refused
    | error error' =>
      simp only [unsendable, made, Option.some.injEq] at refused
      rw [← refused]
      exact ipcFormat_classified.encode message error' made
  | quic connection =>
    obtain ⟨error', permanent, fails⟩ | ⟨header, writes⟩ := writeFrame_cases message
    · simp only [unsendable, fails, Option.some.injEq] at refused
      rw [← refused]
      exact permanent
    · simp [unsendable, writes, Async.write, Async.mapError] at refused

theorem sendWith_closed (transport : Transport) (isClosed : transport.closed = true)
    (faults : SendFaults) (message : Message) :
    (transport.sendWith faults message).1 = .error (.transport .shuttingDown) := by
  cases transport with
  | ipc connection =>
    have fails := SlotPort.send_closed connection.port isClosed faults.publish message
    rw [← IpcConnection.send_port] at fails
    simp only [sendWith, fails]
    rfl
  | quic connection =>
    have isClosed : connection.closed = true := isClosed
    simp only [sendWith]
    cases faults.write <;> simp [QuicConnection.sendOn, QuicConnection.send, isClosed]

/-- On an open transport a message that the backend refuses is always refused, and any other one is
sent unless the environment fails. -/
theorem sendWith_open {transport : Transport} (isOpen : transport.closed = false)
    (faults : SendFaults) (message : Message) :
    (∃ error, transport.unsendable message = some error ∧
      (transport.sendWith faults message).1 = .error error) ∨
      transport.unsendable message = none ∧ (transport.send message).1 = .ok () ∧
        ((transport.sendWith faults message).1 = .ok () ∨
          ∃ error, error.isRetryable = true ∧ error ≠ .transport .shuttingDown ∧
            (transport.sendWith faults message).1 = .error error) := by
  cases transport with
  | ipc connection =>
    have isOpen : connection.closed = false := isOpen
    cases made : IpcFrame.ofMessage message with
    | error error =>
      left
      refine ⟨error, by simp [unsendable, made], ?_⟩
      have fails : connection.send faults.publish message = .error error := by
        rw [IpcConnection.send_port]
        exact SlotPort.send_eq_error.mpr (.inr (.inl ⟨isOpen, made⟩))
      simp only [sendWith, fails]
    | ok frame =>
      right
      have sends : connection.send none message = .ok frame :=
        IpcConnection.send_eq_ok.mpr ⟨isOpen, made, rfl⟩
      refine ⟨by simp [unsendable, made], by simp only [send, sends], ?_⟩
      cases fault : faults.publish with
      | none =>
        left
        simp only [sendWith, fault, sends]
      | some reason =>
        right
        have fails : connection.send (some reason) message = .error (.transport reason.error) := by
          rw [IpcConnection.send_port]
          exact SlotPort.send_eq_error.mpr (.inr (.inr ⟨isOpen, ⟨frame, made⟩, reason, rfl, rfl⟩))
        refine ⟨.transport reason.error, ipcFormat_classified.publish reason, ?_, ?_⟩
        · cases reason <;> simp [PublishFault.error]
        · simp only [sendWith, fault, fails]
  | quic connection =>
    have isOpen : connection.closed = false := isOpen
    obtain ⟨error, _, fails⟩ | ⟨header, writes⟩ := writeFrame_cases message
    · left
      refine ⟨error, by simp [unsendable, fails], ?_⟩
      cases fault : faults.write <;>
        simp [sendWith, fault, QuicConnection.sendOn, QuicConnection.send, isOpen, fails, Async.execBroken]
    · right
      have sends : (connection.send message).1 = .ok () := by
        simp [QuicConnection.send, isOpen, writes, Async.write, Async.mapError, Except.mapError_ok]
      refine ⟨by simp [unsendable, writes, Async.write, Async.mapError], sends, ?_⟩
      cases fault : faults.write with
      | none =>
        left
        simp only [sendWith, fault]
        exact sends
      | some reason =>
        right
        refine ⟨sendFailed reason, rfl, by simp [sendFailed], ?_⟩
        simp [sendWith, fault, QuicConnection.sendOn, isOpen, writes, Async.write, Async.mapError,
          Async.execBroken, Except.mapError_error]

/-- Whatever has happened to a transport, a failing send says whether to try again.  `ShuttingDown`
means that it was closed, which nothing undoes; a retryable error that the environment failed and
the same call would now succeed without that; any other error that this message fails in every
later state, with an error that is not retryable either. -/
theorem retry {transport : Transport} {events : List Event} {message : Message} {faults : SendFaults}
    {error : LaicError}
    (failed : ((transport.after events).sendWith faults message).1 = .error error) :
    (error = .transport .shuttingDown ↔
      (transport.closed || events.any Event.isClose) = true) ∧
      (error.isRetryable = true → ((transport.after events).send message).1 = .ok ()) ∧
      (error.isRetryable = false → ∀ later faults', ∃ error',
        (((transport.after events).after later).sendWith faults' message).1 = .error error' ∧
          error'.isRetryable = false) := by
  rw [← closed_after]
  generalize transport.after events = now at failed ⊢
  cases isClosed : now.closed with
  | true =>
    obtain rfl := Except.error.inj ((sendWith_closed now isClosed faults message).symm.trans failed)
    refine ⟨by simp, by simp [LaicError.isRetryable, TransportError.isRetryable], ?_⟩
    intro _ later faults'
    have still : (now.after later).closed = true := by rw [closed_after, isClosed, Bool.true_or]
    exact ⟨_, sendWith_closed _ still faults' message, rfl⟩
  | false =>
    obtain ⟨error', refused, fails⟩ | ⟨_, sends, succeeds | ⟨error', retryable, other, fails⟩⟩ :=
      sendWith_open isClosed faults message
    · obtain rfl := Except.error.inj (fails.symm.trans failed)
      have permanent := unsendable_permanent refused
      refine ⟨by simpa using permanent.2, ?_, ?_⟩
      · intro retryable
        rw [permanent.1] at retryable
        cases retryable
      · intro _ later faults'
        cases stillOpen : (now.after later).closed with
        | true => exact ⟨_, sendWith_closed _ stillOpen faults' message, rfl⟩
        | false =>
          have still : (now.after later).unsendable message = some error' := by
            rw [unsendable_after, refused]
          obtain ⟨error'', refused', fails'⟩ | ⟨none, _⟩ := sendWith_open stillOpen faults' message
          · exact ⟨error'', fails', (unsendable_permanent refused').1⟩
          · rw [still] at none
            cases none
    · rw [succeeds] at failed
      cases failed
    · obtain rfl := Except.error.inj (fails.symm.trans failed)
      refine ⟨by simpa using other, fun _ => sends, ?_⟩
      intro permanent
      rw [retryable] at permanent
      cases permanent

/-- A send on a transport that has been closed. -/
theorem retry_closed :
    ∃ message : Message, ∃ error : LaicError,
      (((Transport.ipc .opened).after [.close (.ok ())]).sendWith .none message).1 = .error error ∧
        error = .transport .shuttingDown := by
  obtain ⟨request, made⟩ :=
    Option.isSome_iff_exists.mp (show (skillRequest 7 .raw .normal [1, 2]).isSome by decide)
  have failed := sendWith_closed ((Transport.ipc .opened).after [.close (.ok ())]) rfl .none request
  exact ⟨request, _, failed, (retry failed).1.mpr rfl⟩

end Transport

end Laic
