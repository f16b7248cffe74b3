import Laic.Gateway

/-! # The transport facade

`Transport` is one of two backends under one interface.  Two connected transports of the same
backend are a link between two parties.  As long as messages fit an IPC frame, no more are unread
than the subscriber has slots and nobody closes, the parties cannot tell which backend they have:
both do what a pair of plain queues does (`backends_agree`). -/

namespace Laic

/-- What leaves a transport by a send. -/
inductive Emission where
  | frame (frame : IpcFrame)
  | bytes (bytes : List UInt8)

/-- Unified transport. -/
inductive Transport where
  | ipc (connection : IpcConnection)
  | quic (connection : QuicConnection)

namespace Transport

/-- `send`, with what it emits. -/
def send (message : Message) : Transport → Except LaicError Unit × Option Emission × Transport
  | .ipc connection =>
    match connection.send none message with
    | .ok frame => (.ok (), some (.frame frame), .ipc connection)
    | .error error => (.error error, none, .ipc connection)
  | .quic connection =>
    let (result, next) := connection.send message
    (result, some (.bytes (next.sent.drop connection.sent.length)), .quic next)

/-- `receive` on what has arrived so far; `none` while it waits. -/
def receive : Transport → Option (Except LaicError Message × Transport)
  | .ipc connection => (connection.receive none).map fun (result, next) => (result, .ipc next)
  | .quic connection => connection.receiveArrived.map fun (result, next) => (result, .quic next)

/-- `close`; `finish` is what finishing a stream returns. -/
def close (finish : Except String Unit) : Transport → Except LaicError Unit × Transport
  | .ipc connection => (connection.close.1, .ipc connection.close.2)
  | .quic connection => ((connection.close finish).1, .quic (connection.close finish).2)

/-- An emission of the peer arrives: a frame at once, bytes in any chunks. -/
inductive Arrives : Option Emission → Transport → Transport → Prop where
  | nothing {transport : Transport} : Arrives none transport transport
  | frame {frame : IpcFrame} {connection : IpcConnection} :
      Arrives (some (.frame frame)) (.ipc connection) (.ipc (connection.deliver frame))
  | bytes {bytes : List UInt8} {connection : QuicConnection} {recv : ByteReader}
      (arrives : recv.bytes = connection.recv.bytes ++ bytes) :
      Arrives (some (.bytes bytes)) (.quic connection) (.quic { connection with recv := recv })

end Transport

/-! ## Links -/

inductive End where
  | left
  | right
  deriving DecidableEq, Repr

def End.other : End → End
  | .left => .right
  | .right => .left

/-- Something at each end. -/
structure Ends (α : Type) where
  left : α
  right : α

namespace Ends

variable {α : Type}

def get (ends : Ends α) : End → α
  | .left => ends.left
  | .right => ends.right

def set (ends : Ends α) : End → α → Ends α
  | .left, value => { ends with left := value }
  | .right, value => { ends with right := value }

@[simp] theorem get_set_self (ends : Ends α) (at' : End) (value : α) :
    (ends.set at' value).get at' = value := by
  cases at' <;> rfl

@[simp] theorem get_set_other (ends : Ends α) (at' : End) (value : α) :
    (ends.set at' value).get at'.other = ends.get at'.other := by
  cases at' <;> rfl

@[simp] theorem get_other_set (ends : Ends α) (at' : End) (value : α) :
    (ends.set at'.other value).get at' = ends.get at' := by
  cases at' <;> rfl

end Ends

/-- A call of a party. -/
inductive Call where
  | send (message : {message : Message // message.Produced})
  | receive

inductive Reply where
  | sent (result : Except LaicError Unit)
  | received (result : Option (Except LaicError Message))

namespace Link

/-- One call of one party on a link. -/
inductive Step : Ends Transport → End × Call → Reply → Ends Transport → Prop where
  | send {link : Ends Transport} {caller : End} {message : {message : Message // message.Produced}}
      {result : Except LaicError Unit} {emission : Option Emission} {sender receiver : Transport}
      (sends : (link.get caller).send message.1 = (result, emission, sender))
      (arrives : Transport.Arrives emission (link.get caller.other) receiver) :
      Step link (caller, .send message) (.sent result) ((link.set caller sender).set caller.other receiver)
  | receive {link : Ends Transport} {caller : End} {result : Except LaicError Message}
      {receiver : Transport} (received : (link.get caller).receive = some (result, receiver)) :
      Step link (caller, .receive) (.received (some result)) (link.set caller receiver)
  | waits {link : Ends Transport} {caller : End} (waits : (link.get caller).receive = none) :
      Step link (caller, .receive) (.received none) link

/-- The replies to a sequence of calls. -/
inductive Run : Ends Transport → List (End × Call) → List Reply → Ends Transport → Prop where
  | nil {link : Ends Transport} : Run link [] [] link
  | cons {link next last : Ends Transport} {call : End × Call} {calls : List (End × Call)}
      {reply : Reply} {replies : List Reply} :
      Step link call reply next → Run next calls replies last →
        Run link (call :: calls) (reply :: replies) last

/-! ## Two queues -/

/-- The messages under way to each end. -/
abbrev Queues : Type := Ends (List Message)

def Queues.empty : Queues := ⟨[], []⟩

/-- A call on two queues that lose nothing. -/
def Queues.step (queues : Queues) : End × Call → Reply × Queues
  | (caller, .send message) =>
    (.sent (.ok ()), queues.set caller.other (queues.get caller.other ++ [message.1]))
  | (caller, .receive) =>
    match queues.get caller with
    | [] => (.received none, queues)
    | message :: rest => (.received (some (.ok message)), queues.set caller rest)

def Queues.replies (queues : Queues) : List (End × Call) → List Reply
  | [] => []
  | call :: calls => (queues.step call).1 :: (queues.step call).2.replies calls

/-- Every message fits an IPC frame, and when one is sent a slot is free. -/
def Queues.Within (queues : Queues) : List (End × Call) → Prop
  | [] => True
  | call :: calls =>
    (match call with
      | (caller, .send message) =>
        Gateway.FitsIpc message.1 ∧ (queues.get caller.other).length < subscriberBufferSize
      | (_, .receive) => True) ∧
      Queues.Within (queues.step call).2 calls

/-! ## Both backends are such queues -/

/-- The two implementations. -/
inductive Backend where
  | ipc
  | quic
  deriving DecidableEq, Repr

/-- A link on which nothing has been sent. -/
def Backend.start : Backend → Ends Transport
  | .ipc => ⟨.ipc .opened, .ipc .opened⟩
  | .quic => ⟨.quic (.opened (.ofBytes [])), .quic (.opened (.ofBytes []))⟩

/-- The open transport of the backend has the messages still to be received. -/
def Backend.Holds : Backend → Transport → List Message → Prop
  | .ipc, .ipc connection, queue => connection.closed = false ∧ connection.Unread queue
  | .quic, .quic connection, queue =>
    connection.closed = false ∧ connection.Arrived queue ∧
      ∀ message ∈ queue, QuicConnection.Sendable message
  | _, _, _ => False

section Simulation

variable {backend : Backend} {transport : Transport} {queue : List Message}

/-- A message that fits is sent, and joins what the peer has still to receive. -/
theorem Backend.Holds.send (holds : backend.Holds transport queue) {message : Message}
    (produced : message.Produced) (fits : Gateway.FitsIpc message) :
    ∃ emission sender, transport.send message = (.ok (), emission, sender) ∧
      backend.Holds sender queue ∧
      ∀ peer unread, backend.Holds peer unread → unread.length < subscriberBufferSize →
        (∃ receiver, Transport.Arrives emission peer receiver) ∧
        ∀ receiver, Transport.Arrives emission peer receiver →
          backend.Holds receiver (unread ++ [message]) := by
  cases backend with
  | ipc =>
    cases transport with
    | quic connection => exact holds.elim
    | ipc connection =>
      obtain ⟨isOpen, frames⟩ := holds
      obtain ⟨frame, made, read⟩ := IpcFrame.ofMessage_eq_ok produced.valid fits
      have published := IpcConnection.send_eq_ok.mpr ⟨isOpen, made, rfl⟩
      refine ⟨some (.frame frame), .ipc connection, ?_, ⟨isOpen, frames⟩, ?_⟩
      · simp only [Transport.send, published]
      · intro peer unread holdsPeer room
        cases peer with
        | quic connection => exact holdsPeer.elim
        | ipc peer =>
          obtain ⟨peerOpen, peerFrames⟩ := holdsPeer
          refine ⟨⟨_, .frame⟩, ?_⟩
          intro receiver arrives
          cases arrives with
          | frame =>
            have count := List.Forall₂.length_eq peerFrames
            exact ⟨peerOpen, peerFrames.deliver read (by omega)⟩
  | quic =>
    cases transport with
    | ipc connection => exact holds.elim
    | quic connection =>
      obtain ⟨isOpen, arrived, all⟩ := holds
      have sendable := Gateway.sendable_of_fits produced.valid fits
      have sends : connection.send message =
          (.ok (), { connection with sent := connection.sent ++ message.frame }) :=
        QuicConnection.send_sendable sendable isOpen
      refine ⟨some (.bytes message.frame), .quic { connection with sent := connection.sent ++ message.frame },
        ?_, ⟨isOpen, arrived, all⟩, ?_⟩
      · simp [Transport.send, sends]
      · intro peer unread holdsPeer _
        cases peer with
        | ipc connection => exact holdsPeer.elim
        | quic peer =>
          obtain ⟨peerOpen, peerArrived, peerAll⟩ := holdsPeer
          refine ⟨⟨_, .bytes (ByteReader.bytes_ofBytes _)⟩, ?_⟩
          intro receiver arrives
          cases arrives with
          | bytes arrives =>
            refine ⟨peerOpen, ?_, ?_⟩
            · rw [QuicConnection.Arrived] at peerArrived ⊢
              simp [arrives, peerArrived]
            · intro other member
              obtain earlier | last := List.mem_append.mp member
              · exact peerAll other earlier
              · rw [List.mem_singleton.mp last]
                exact sendable

theorem Backend.Holds.receive_nil (holds : backend.Holds transport []) : transport.receive = none := by
  cases backend with
  | ipc =>
    cases transport with
    | quic connection => exact holds.elim
    | ipc connection => simp [Transport.receive, holds.2.receive_nil holds.1]
  | quic =>
    cases transport with
    | ipc connection => exact holds.elim
    | quic connection => simp [Transport.receive, holds.2.1.receive_nil holds.1]

theorem Backend.Holds.receive_cons {message : Message} {rest : List Message}
    (holds : backend.Holds transport (message :: rest)) :
    ∃ receiver, transport.receive = some (.ok message, receiver) ∧ backend.Holds receiver rest := by
  cases backend with
  | ipc =>
    cases transport with
    | quic connection => exact holds.elim
    | ipc connection =>
      obtain ⟨connection', received, frames, stillOpen⟩ := holds.2.receive_cons holds.1
      exact ⟨.ipc connection', by simp [Transport.receive, received], stillOpen, frames⟩
  | quic =>
    cases transport with
    | ipc connection => exact holds.elim
    | quic connection =>
      obtain ⟨isOpen, arrived, all⟩ := holds
      simp only [List.forall_mem_cons] at all
      obtain ⟨next, received, arrived', stillOpen, _⟩ := arrived.receive_cons all.1 isOpen
      exact ⟨.quic next, by simp [Transport.receive, received], stillOpen, arrived', all.2⟩

/-- The link and the queues hold the same messages at both ends. -/
def Related (backend : Backend) (link : Ends Transport) (queues : Queues) : Prop :=
  ∀ at', backend.Holds (link.get at') (queues.get at')

variable {link : Ends Transport} {queues : Queues}

theorem End.cases_of (caller at' : End) : at' = caller ∨ at' = caller.other := by
  cases caller <;> cases at' <;> simp [End.other]

theorem related_start (backend : Backend) : Related backend backend.start .empty := by
  have empty : (QuicConnection.opened (.ofBytes [])).Arrived [] := ByteReader.bytes_ofBytes []
  intro at'
  cases backend <;> cases at'
  · exact ⟨rfl, .nil⟩
  · exact ⟨rfl, .nil⟩
  · exact ⟨rfl, empty, nofun⟩
  · exact ⟨rfl, empty, nofun⟩

/-- One call: the link can do what the queues do, and nothing else. -/
theorem Related.send (related : Related backend link queues) (caller : End)
    {message : {message : Message // message.Produced}} (fits : Gateway.FitsIpc message.1)
    (room : (queues.get caller.other).length < subscriberBufferSize) :
    (∃ next, Step link (caller, .send message) (.sent (.ok ())) next) ∧
      ∀ reply next, Step link (caller, .send message) reply next → reply = .sent (.ok ()) ∧
        Related backend next (queues.set caller.other (queues.get caller.other ++ [message.1])) := by
  obtain ⟨emission, sender, sends, sender', reaches⟩ := (related caller).send message.2 fits
  obtain ⟨⟨receiver, arrives⟩, joins⟩ := reaches _ _ (related caller.other) room
  refine ⟨⟨_, .send sends arrives⟩, ?_⟩
  intro reply next step
  cases step with
  | send sends' arrives' =>
    rw [sends] at sends'
    cases sends'
    refine ⟨rfl, ?_⟩
    intro at'
    obtain rfl | rfl := End.cases_of caller at'
    · simpa using sender'
    · simpa using joins _ arrives'

theorem Related.receive (related : Related backend link queues) (caller : End) :
    (∃ next, Step link (caller, .receive) (queues.step (caller, .receive)).1 next) ∧
      ∀ reply next, Step link (caller, .receive) reply next →
        reply = (queues.step (caller, .receive)).1 ∧
          Related backend next (queues.step (caller, .receive)).2 := by
  have holds := related caller
  cases unread : queues.get caller with
  | nil =>
    rw [unread] at holds
    have waits := holds.receive_nil
    simp only [Queues.step, unread]
    refine ⟨⟨_, .waits waits⟩, ?_⟩
    intro reply next step
    cases step with
    | receive received =>
      rw [waits] at received
      cases received
    | waits _ => exact ⟨rfl, related⟩
  | cons message rest =>
    rw [unread] at holds
    obtain ⟨receiver, received, holds'⟩ := holds.receive_cons
    simp only [Queues.step, unread]
    refine ⟨⟨_, .receive received⟩, ?_⟩
    intro reply next step
    cases step with
    | waits waits =>
      rw [received] at waits
      cases waits
    | receive received' =>
      rw [received] at received'
      cases received'
      refine ⟨rfl, ?_⟩
      intro at'
      obtain rfl | rfl := End.cases_of caller at'
      · simpa using holds'
      · simpa using related caller.other

/-- Whole runs: the replies are those of the queues. -/
theorem Related.run (related : Related backend link queues) {calls : List (End × Call)}
    (within : queues.Within calls) :
    (∃ last, Run link calls (queues.replies calls) last) ∧
      ∀ replies last, Run link calls replies last → replies = queues.replies calls := by
  induction calls generalizing link queues with
  | nil =>
    refine ⟨⟨link, .nil⟩, ?_⟩
    intro replies last run
    cases run with
    | nil => rfl
  | cons call calls ih =>
    have stepped : (∃ next, Step link call (queues.step call).1 next) ∧
        ∀ reply next, Step link call reply next → reply = (queues.step call).1 ∧
          Related backend next (queues.step call).2 := by
      obtain ⟨caller, call⟩ := call
      cases call with
      | send message => exact related.send caller within.1.1 within.1.2
      | receive => exact related.receive caller
    obtain ⟨⟨next, step⟩, only⟩ := stepped
    obtain ⟨⟨last, run⟩, _⟩ := ih (only _ _ step).2 within.2
    refine ⟨⟨last, .cons step run⟩, ?_⟩
    intro replies last' run'
    cases run' with
    | cons step' rest =>
      obtain ⟨rfl, related'⟩ := only _ _ step'
      rw [(ih related' within.2).2 _ _ rest]
      rfl

end Simulation

/-- Two parties that stay within what an IPC frame and a subscriber hold cannot tell which backend
they talk over: on either one every run of their calls returns what two plain queues return, and
such a run exists. -/
theorem backends_agree {calls : List (End × Call)} (within : Queues.empty.Within calls)
    (backend : Backend) :
    (∃ last, Run backend.start calls (Queues.empty.replies calls) last) ∧
      ∀ replies last, Run backend.start calls replies last →
        replies = Queues.empty.replies calls :=
  (related_start backend).run within

/-- One message, and the receive that returns it. -/
theorem backends_agree_one :
    ∃ message : {message : Message // message.Produced}, ∀ backend : Backend, ∀ replies last,
      Run backend.start [(.left, .send message), (.right, .receive)] replies last →
        replies = [.sent (.ok ()), .received (some (.ok message.1))] := by
  obtain ⟨request, made⟩ :=
    Option.isSome_iff_exists.mp (show (skillRequest 7 .raw .normal [1, 2]).isSome by decide)
  have fits : Gateway.FitsIpc request := by
    rw [Gateway.FitsIpc, (Message.new_eq_some made).2.2.2]
    decide
  have produced : request.Produced := ⟨request, [], .skillRequest made, rfl⟩
  have within : Queues.empty.Within [(.left, .send ⟨request, produced⟩), (.right, .receive)] :=
    ⟨⟨fits, by decide⟩, trivial, trivial⟩
  refine ⟨⟨request, produced⟩, ?_⟩
  intro backend replies last run
  exact (backends_agree within backend).2 replies last run

end Link

end Laic
