import Laic.Gateway
import Laic.Lib.Polling

/-! # Abandoned sends and receives

A `select!` or a timeout drops the future of a `send` or `receive` at one of its awaits
and uses the connection again.  What the future had moved by then is lost: a dropped
`read_exact` keeps no bytes and a dropped `write_all` takes none back.

A `Session` is two connected ends.  At each end one call at a time is in progress; polls
of either end move one byte, in any interleaving, and a call may be dropped between any
two of them.  Every byte carries the call that wrote it and its place in what that call
writes, so that a run records what each receive took. -/

namespace Laic

namespace QuicConnection

/-- The future of `send`. -/
def sendFuture (closed : Bool) (message : Message) : Async LaicError Unit :=
  if closed then .ret (.error (.transport .shuttingDown)) else writeFrame message

/-- The future of `receive`. -/
def receiveFuture (closed : Bool) : Async LaicError Message :=
  if closed then .ret (.error (.transport .shuttingDown)) else readFrame

theorem send_eq_exec (message : Message) (connection : QuicConnection) :
    (connection.send message).1 =
      ((sendFuture connection.closed message).exec connection.recv).result := by
  unfold send sendFuture
  split <;> rfl

theorem receive_eq_exec (connection : QuicConnection) :
    connection.receive.1 = ((receiveFuture connection.closed).exec connection.recv).result := by
  unfold receive receiveFuture
  split <;> rfl

end QuicConnection

/-! ## One direction of a connection -/

/-- The place of a byte: the number of the send that wrote it, and its index there. -/
structure Origin where
  send : Nat
  index : Nat
  deriving DecidableEq, Repr

/-- A `send` that waits at one of its awaits, having written `moved` bytes. -/
structure PendingSend where
  message : Message
  future : Async LaicError Unit
  moved : Nat

/-- A `receive` that waits at one of its awaits, with the bytes in its buffers. -/
structure PendingReceive where
  future : Async LaicError Message
  moved : List (UInt8 × Origin)

/-- The send stream of one end and the receive stream of the other.  `finished` is the
`closed` bit of the sending end.  `sends` counts the sends that have ended, `passed` and
`returned` record the messages of the calls that succeeded, and `taken` what each ended
receive took off the stream. -/
structure Channel where
  inFlight : List (UInt8 × Origin)
  finished : Bool
  sending : Option PendingSend
  receiving : Option PendingReceive
  sends : Nat
  passed : List Message
  returned : List Message
  taken : List (List Origin)
  sendCut : Bool
  receiveCut : Bool

namespace Channel

open QuicConnection (sendFuture receiveFuture Sendable)

def opened : Channel := ⟨[], false, none, none, 0, [], [], [], false, false⟩

/-- The bytes of one send from its byte `index` on. -/
def mark (send index : Nat) (bytes : List UInt8) : List (UInt8 × Origin) :=
  (bytes.zipIdx index).map fun (byte, index) => (byte, ⟨send, index⟩)

/-- Run a send up to its next await; if it returns, record that it has. -/
def resumeSend (message : Message) (moved : Nat) (future : Async LaicError Unit)
    (channel : Channel) : Channel :=
  match future.settle with
  | .ret (.ok ()) =>
    { channel with sending := none, sends := channel.sends + 1, passed := channel.passed ++ [message] }
  | .ret (.error _) => { channel with sending := none, sends := channel.sends + 1 }
  | waiting => { channel with sending := some ⟨message, waiting, moved⟩ }

def beginSend (message : Message) (channel : Channel) : Channel :=
  channel.resumeSend message 0 (sendFuture channel.finished message)

def pollSend (channel : Channel) : Channel :=
  match channel.sending with
  | none => channel
  | some call =>
    match call.future.step false [] with
    | none => channel
    | some (_, future, _, bytes) =>
      let written := channel.inFlight ++ mark channel.sends call.moved bytes
      { channel with inFlight := written }.resumeSend call.message (call.moved + bytes.length) future

/-- Drop the send in progress; it is cut if it had written something. -/
def dropSend (channel : Channel) : Channel :=
  match channel.sending with
  | none => channel
  | some call =>
    { channel with
      sending := none
      sends := channel.sends + 1
      sendCut := channel.sendCut || decide (0 < call.moved) }

/-- Run a receive up to its next await; if it returns, record what it took. -/
def resumeReceive (moved : List (UInt8 × Origin)) (future : Async LaicError Message)
    (channel : Channel) : Channel :=
  let taken := channel.taken ++ [moved.map (·.2)]
  match future.settle with
  | .ret (.ok message) =>
    { channel with receiving := none, taken := taken, returned := channel.returned ++ [message] }
  | .ret (.error _) => { channel with receiving := none, taken := taken }
  | waiting => { channel with receiving := some ⟨waiting, moved⟩ }

/-- `closed` is the bit of the receiving end. -/
def beginReceive (closed : Bool) (channel : Channel) : Channel :=
  channel.resumeReceive [] (receiveFuture closed)

def pollReceive (channel : Channel) : Channel :=
  match channel.receiving with
  | none => channel
  | some call =>
    match call.future.step channel.finished (channel.inFlight.map (·.1)) with
    | none => channel
    | some (_, future, input, _) =>
      let count := channel.inFlight.length - input.length
      { channel with inFlight := channel.inFlight.drop count }.resumeReceive
        (call.moved ++ channel.inFlight.take count) future

/-- Drop the receive in progress; it is cut if it had taken something. -/
def dropReceive (channel : Channel) : Channel :=
  match channel.receiving with
  | none => channel
  | some call =>
    { channel with
      receiving := none
      taken := channel.taken ++ [call.moved.map (·.2)]
      receiveCut := channel.receiveCut || !call.moved.isEmpty }

def finish (channel : Channel) : Channel := { channel with finished := true }

/-- A receive took the first bytes of one send, or none. -/
def FromOneSend (origins : List Origin) : Prop :=
  ∃ send, origins = (List.range origins.length).map (Origin.mk send)

/-- The messages returned were passed in full, in the same order; and no receive takes
bytes of two sends or starts inside one, so no message is split between two receives and
none is read as part of another. -/
structure Uncorrupted (channel : Channel) : Prop where
  inOrder : channel.returned.Sublist channel.passed
  unmixed : ∀ origins ∈ channel.taken, FromOneSend origins

end Channel

/-! ## Two connected ends -/

/-- Two ends as one of them sees them: `outgoing` is from this end to its peer. -/
structure Session where
  outgoing : Channel
  incoming : Channel

inductive Party where
  | here
  | there
  deriving DecidableEq, Repr

/-- What the caller at one end does. -/
inductive Event where
  | send (message : { message : Message // message.Built })
  | receive
  | poll
  | drop
  | close

namespace Session

def opened : Session := ⟨.opened, .opened⟩

def swap (session : Session) : Session := ⟨session.incoming, session.outgoing⟩

/-- This end has no call in progress. -/
def Idle (session : Session) : Prop :=
  session.outgoing.sending.isNone ∧ session.incoming.receiving.isNone

instance (session : Session) : Decidable session.Idle :=
  inferInstanceAs (Decidable (_ ∧ _))

/-- What an event at this end does.  A call borrows the connection, so none begins while
another is in progress. -/
def call (session : Session) : Event → Session
  | .send message =>
    if session.Idle then { session with outgoing := session.outgoing.beginSend message } else session
  | .receive =>
    if session.Idle then
      { session with incoming := session.incoming.beginReceive session.outgoing.finished }
    else session
  | .poll => ⟨session.outgoing.pollSend, session.incoming.pollReceive⟩
  | .drop => ⟨session.outgoing.dropSend, session.incoming.dropReceive⟩
  | .close => if session.Idle then { session with outgoing := session.outgoing.finish } else session

/-- The session as a party sees it, and back. -/
def seenBy (session : Session) : Party → Session
  | .here => session
  | .there => session.swap

def step (session : Session) : Party × Event → Session
  | (party, event) => ((session.seenBy party).call event).seenBy party

def run (session : Session) (events : List (Party × Event)) : Session := events.foldl step session

/-- Neither direction is corrupted. -/
def Uncorrupted (session : Session) : Prop :=
  session.outgoing.Uncorrupted ∧ session.incoming.Uncorrupted

/-- This end, while it is open, sends nothing after a send was dropped part-way and
receives nothing after a receive was; a message over the limit writes nothing. -/
def Careful (session : Session) : Event → Prop
  | .send message => session.Idle → session.outgoing.sendCut = true →
      session.outgoing.finished = true ∨ maxPayloadLen.toNat < message.1.payload.length
  | .receive => session.Idle → session.incoming.receiveCut = true → session.outgoing.finished = true
  | .poll | .drop | .close => True

/-- Every event of a run is careful at its end. -/
def CarefulRun (session : Session) : List (Party × Event) → Prop
  | [] => True
  | (party, event) :: events =>
    (session.seenBy party).Careful event ∧ (session.step (party, event)).CarefulRun events

instance (session : Session) : (event : Event) → Decidable (session.Careful event)
  | .send _ => inferInstanceAs (Decidable (_ → _ → _))
  | .receive => inferInstanceAs (Decidable (_ → _ → _))
  | .poll | .drop | .close => .isTrue trivial

def decideCarefulRun : (session : Session) → (events : List (Party × Event)) →
    Decidable (session.CarefulRun events)
  | _, [] => .isTrue trivial
  | session, (party, event) :: events =>
    have := decideCarefulRun (session.step (party, event)) events
    inferInstanceAs (Decidable (_ ∧ _))

instance (session : Session) (events : List (Party × Event)) :
    Decidable (session.CarefulRun events) := decideCarefulRun session events

end Session

/-! ## Futures of whole messages -/

namespace Channel

open Async (Writes Reads)
open QuicConnection (sendFuture receiveFuture Sendable innerFrame)

theorem writeFrame_writes {message : Message} (sendable : Sendable message) :
    Writes (writeFrame message) message.frame (.ok ()) := by
  rw [writeFrame_eq sendable.1 sendable.2]
  have header := (Writes.write message.header.wire).mapError sendFailed
  have payload := (Writes.write message.payload).mapError sendFailed
  exact header.bind rfl payload

theorem readFrame_reads {message : Message} (sendable : Sendable message) :
    Reads (receiveFailed .earlyEof) readFrame message.frame (.ok message) := by
  have accepted := acceptHeader_eq_ok.mp (acceptHeader_wire sendable.1 sendable.2)
  have parts : Message.fromParts message.header message.payload = .ok message :=
    Message.fromParts_eq_ok.mpr ⟨rfl, sendable.1⟩
  have header := Reads.read message.header.wire receiveFailed rfl
  have payload := Reads.read message.payload receiveFailed rfl
  rw [MessageHeader.wire_length] at header
  refine header.bind rfl ?_
  simp only [Async.lift_eq, accepted.1, Async.ret_ok_bind, checkPayloadLen,
    Except.ensure_pos accepted.2, sendable.1.payloadLen]
  split
  · exact payload.bind_ret (congrArg Async.ret parts)
  · rename_i empty
    obtain none : message.payload = [] := List.eq_nil_of_length_eq_zero (by omega)
    rw [none] at parts ⊢
    simp only [Async.pure_eq, Async.ret_ok_bind, parts]
    exact .ret

theorem sendable_innerFrame : Sendable innerFrame :=
  ⟨⟨⟨rfl, rfl, ⟨.raw, rfl⟩, ⟨.normal, rfl⟩⟩, rfl⟩, by decide⟩

/-! ## Marked bytes -/

@[simp] theorem length_mark (send index : Nat) (bytes : List UInt8) :
    (mark send index bytes).length = bytes.length := by
  simp [mark]

theorem mark_nil (send index : Nat) : mark send index [] = [] := rfl

theorem mark_append (send index : Nat) (bytes bytes' : List UInt8) :
    mark send index (bytes ++ bytes') =
      mark send index bytes ++ mark send (index + bytes.length) bytes' := by
  simp [mark, List.zipIdx_append]

@[simp] theorem mark_bytes (send index : Nat) (bytes : List UInt8) :
    (mark send index bytes).map (·.1) = bytes := by
  simp [mark, Function.comp_def]

theorem mark_origins (send : Nat) (bytes : List UInt8) :
    (mark send 0 bytes).map (·.2) = (List.range bytes.length).map (Origin.mk send) := by
  rw [List.range_eq_range', ← List.zipIdx_map_snd 0 bytes, List.map_map, mark, List.map_map]
  rfl

theorem fromOneSend_mark (send : Nat) (bytes : List UInt8) :
    FromOneSend ((mark send 0 bytes).map (·.2)) := by
  refine ⟨send, ?_⟩
  rw [List.length_map, length_mark]
  exact mark_origins send bytes

/-- The frame of a numbered send. -/
def block (entry : Nat × Message) : List (UInt8 × Origin) := mark entry.1 0 entry.2.frame

theorem prefix_block {moved : List (UInt8 × Origin)} {entry : Nat × Message}
    (isPrefix : moved <+: block entry) :
    ∃ part missing, part ++ missing = entry.2.frame ∧ moved = mark entry.1 0 part := by
  obtain ⟨rest, split⟩ := isPrefix
  refine ⟨entry.2.frame.take moved.length, entry.2.frame.drop moved.length,
    List.take_append_drop _ _, ?_⟩
  have whole := mark_append entry.1 0 (entry.2.frame.take moved.length) (entry.2.frame.drop moved.length)
  rw [List.take_append_drop] at whole
  have length : moved.length ≤ entry.2.frame.length := by
    have total := congrArg List.length split
    simp only [List.length_append, block, length_mark] at total
    omega
  refine (List.append_inj (split.trans whole) ?_).1
  rw [length_mark, List.length_take, Nat.min_eq_left length]

/-! ## The invariant -/

/-- The bytes that the receive in progress has taken. -/
def buffered (channel : Channel) : List (UInt8 × Origin) :=
  match channel.receiving with
  | none => []
  | some call => call.moved

/-- A receive that, on any frame that starts with what it has taken, reads the rest of
the frame and returns its message. -/
def Awaits (call : PendingReceive) : Prop :=
  ∀ (message : Message) (missing : List UInt8), Sendable message →
    call.moved.map (·.1) ++ missing = message.frame →
    missing ≠ [] ∧ Reads (receiveFailed .earlyEof) call.future missing (.ok message)

/-- `Writer channel unfinished missing`: the send that is in progress or was cut, if
there is one, and the bytes of it that are not written. -/
inductive Writer (channel : Channel) : List (Nat × Message) → List (UInt8 × Origin) → Prop
  | idle (idle : channel.sending = none) : Writer channel [] []
  | busy {call : PendingSend} {written rest : List UInt8} (busy : channel.sending = some call)
      (sendable : Sendable call.message) (moved : call.moved = written.length)
      (split : written ++ rest = call.message.frame) (unwritten : rest ≠ [])
      (writes : Writes call.future rest (.ok ())) :
      Writer channel [(channel.sends, call.message)] (mark channel.sends written.length rest)
  | cut {entry : Nat × Message} {written rest : List UInt8} (idle : channel.sending = none)
      (cut : channel.sendCut = true) (sendable : Sendable entry.2)
      (split : written ++ rest = entry.2.frame) (unwritten : rest ≠ []) :
      Writer channel [entry] (mark entry.1 written.length rest)

/-- The bytes from the last frame boundary on are the frames of `queue`, the messages
passed and not yet returned, and then what is written of an unfinished one. -/
def Flowing (channel : Channel) : Prop :=
  ∃ (queue unfinished : List (Nat × Message)) (missing : List (UInt8 × Origin)),
    Writer channel unfinished missing ∧
    channel.buffered ++ channel.inFlight ++ missing = (queue ++ unfinished).flatMap block ∧
    channel.passed = channel.returned ++ queue.map (·.2) ∧
    (∀ entry ∈ queue, Sendable entry.2) ∧
    ∀ call, channel.receiving = some call → Awaits call ∧
      ∀ entry rest, queue ++ unfinished = entry :: rest → call.moved <+: block entry

/-- A receive has met the end of the stream. -/
def Drained (channel : Channel) : Prop :=
  channel.finished = true ∧ channel.inFlight = [] ∧
    ∀ call, channel.receiving = some call → call.moved = [] ∧ Awaits call

structure Intact (channel : Channel) : Prop where
  returned : channel.returned <+: channel.passed
  unmixed : ∀ origins ∈ channel.taken, FromOneSend origins
  finished : channel.finished = true → channel.sending = none
  cut : channel.receiveCut = true → channel.receiving = none
  stream : channel.receiveCut = false → channel.Flowing ∨ channel.Drained

theorem Intact.uncorrupted {channel : Channel} (intact : channel.Intact) : channel.Uncorrupted :=
  ⟨intact.returned.sublist, intact.unmixed⟩

theorem Writer.unfinished_cases {channel : Channel} {unfinished : List (Nat × Message)}
    {missing : List (UInt8 × Origin)} (writer : Writer channel unfinished missing) :
    (unfinished = [] ∧ missing = []) ∨
      ∃ entry, unfinished = [entry] ∧ Sendable entry.2 ∧ missing ≠ [] := by
  have marked (send index : Nat) {rest : List UInt8} (unwritten : rest ≠ []) :
      mark send index rest ≠ [] := by
    intro empty
    have length := length_mark send index rest
    rw [empty] at length
    exact unwritten (List.length_eq_zero_iff.mp length.symm)
  cases writer with
  | idle _ => exact .inl ⟨rfl, rfl⟩
  | busy _ sendable _ _ unwritten _ => exact .inr ⟨_, rfl, sendable, marked _ _ unwritten⟩
  | cut _ _ sendable _ unwritten => exact .inr ⟨_, rfl, sendable, marked _ _ unwritten⟩

theorem Writer.sendable {channel : Channel} {unfinished : List (Nat × Message)}
    {missing : List (UInt8 × Origin)} (writer : Writer channel unfinished missing) :
    ∀ entry ∈ unfinished, Sendable entry.2 := by
  obtain ⟨rfl, _⟩ | ⟨_, rfl, sendable, _⟩ := writer.unfinished_cases
  · exact nofun
  · intro entry member
    rw [List.mem_singleton.mp member]
    exact sendable

/-- The message of which a receive in progress has a proper part. -/
theorem Intact.front {channel : Channel} {call : PendingReceive} (intact : channel.Intact)
    (busy : channel.receiving = some call) :
    ∃ (entry : Nat × Message) (part missing : List UInt8), part ++ missing = entry.2.frame ∧
      call.moved = mark entry.1 0 part ∧ missing ≠ [] ∧ Sendable entry.2 ∧
      Reads (receiveFailed .earlyEof) call.future missing (.ok entry.2) := by
  have uncut : channel.receiveCut = false := by
    cases cut : channel.receiveCut with
    | false => rfl
    | true => rw [intact.cut cut] at busy; cases busy
  -- it is enough to have a sendable message whose frame starts with what was taken
  suffices front : ∃ entry : Nat × Message, Sendable entry.2 ∧ call.moved <+: block entry ∧
      Awaits call by
    obtain ⟨entry, sendable, isPrefix, awaits⟩ := front
    obtain ⟨part, missing, split, marked⟩ := prefix_block isPrefix
    have bytes : call.moved.map (·.1) = part := by rw [marked, mark_bytes]
    obtain ⟨waiting, reads⟩ := awaits entry.2 missing sendable (by rw [bytes]; exact split)
    exact ⟨entry, part, missing, split, marked, waiting, sendable, reads⟩
  obtain ⟨queue, unfinished, missing, writer, stream, _, sendable, reader⟩ | ⟨_, _, reader⟩ :=
    intact.stream uncut
  · obtain ⟨awaits, isPrefix⟩ := reader call busy
    cases entries : queue ++ unfinished with
    | nil =>
      rw [entries, buffered, busy] at stream
      have empty : call.moved = [] :=
        (List.append_eq_nil_iff.mp (List.append_eq_nil_iff.mp stream).1).1
      exact ⟨(0, innerFrame), sendable_innerFrame, by rw [empty]; exact List.nil_prefix, awaits⟩
    | cons entry rest =>
      have member : entry ∈ queue ++ unfinished := by rw [entries]; exact List.mem_cons_self
      have sends : Sendable entry.2 := by
        obtain inQueue | inUnfinished := List.mem_append.mp member
        · exact sendable entry inQueue
        · exact writer.sendable entry inUnfinished
      exact ⟨entry, sends, isPrefix entry rest entries, awaits⟩
  · obtain ⟨empty, awaits⟩ := reader call busy
    exact ⟨(0, innerFrame), sendable_innerFrame, by rw [empty]; exact List.nil_prefix, awaits⟩

theorem Intact.moved_fromOneSend {channel : Channel} {call : PendingReceive}
    (intact : channel.Intact) (busy : channel.receiving = some call) :
    FromOneSend (call.moved.map (·.2)) := by
  obtain ⟨entry, part, _, _, marked, _⟩ := intact.front busy
  rw [marked]
  exact fromOneSend_mark entry.1 part

/-! ## Sends keep it -/

/-- What a send changes for the reader: nothing but what is in flight. -/
structure SendOnly (channel next : Channel) : Prop where
  passed : channel.passed <+: next.passed
  returned : next.returned = channel.returned
  taken : next.taken = channel.taken
  receiving : next.receiving = channel.receiving
  receiveCut : next.receiveCut = channel.receiveCut
  finished : next.finished = channel.finished

theorem Intact.sendOnly {channel next : Channel} (intact : channel.Intact)
    (same : SendOnly channel next) (idle : next.finished = true → next.sending = none)
    (stream : next.receiveCut = false → channel.Flowing ∨ channel.Drained → next.Flowing ∨ next.Drained) :
    next.Intact where
  returned := by
    rw [same.returned]
    exact intact.returned.trans same.passed
  unmixed := by
    rw [same.taken]
    exact intact.unmixed
  finished := idle
  cut := by
    rw [same.receiveCut, same.receiving]
    exact intact.cut
  stream := fun uncut => stream uncut (intact.stream (same.receiveCut ▸ uncut))

theorem sendOnly_resumeSend (message : Message) (moved : Nat) (future : Async LaicError Unit)
    (channel : Channel) : SendOnly channel (channel.resumeSend message moved future) := by
  unfold resumeSend
  split
  · exact ⟨List.prefix_append _ _, rfl, rfl, rfl, rfl, rfl⟩
  · exact ⟨List.prefix_rfl, rfl, rfl, rfl, rfl, rfl⟩
  · exact ⟨List.prefix_rfl, rfl, rfl, rfl, rfl, rfl⟩

theorem resumeSend_waits {message : Message} {moved : Nat} {future : Async LaicError Unit}
    {channel : Channel} (waits : future.settle.isDone = false) :
    channel.resumeSend message moved future =
      { channel with sending := some ⟨message, future.settle, moved⟩ } := by
  unfold resumeSend
  split
  · rename_i returned
    rw [returned] at waits
    cases waits
  · rename_i returned
    rw [returned] at waits
    cases waits
  · rfl

theorem resumeSend_returns {message : Message} {moved : Nat} {future : Async LaicError Unit}
    {channel : Channel} (returns : future.settle = .ret (.ok ())) :
    channel.resumeSend message moved future =
      { channel with
        sending := none, sends := channel.sends + 1, passed := channel.passed ++ [message] } := by
  simp only [resumeSend, returns]

/-- A send that ends without writing leaves the stream as it was. -/
theorem Flowing.refused {channel : Channel} (flowing : channel.Flowing)
    (idle : channel.sending = none) (sends : Nat) :
    Flowing { channel with sending := none, sends := sends } := by
  obtain ⟨queue, unfinished, missing, writer, stream, passed, sendable, reader⟩ := flowing
  refine ⟨queue, unfinished, missing, ?_, stream, passed, sendable, reader⟩
  cases writer with
  | idle _ => exact .idle rfl
  | busy busy _ _ _ _ _ =>
    rw [idle] at busy
    cases busy
  | cut _ cut sendable' split unwritten => exact .cut rfl cut sendable' split unwritten

/-- The message that a new send is writing joins the end of the stream. -/
theorem Flowing.begins {channel : Channel} {message : Message} {future : Async LaicError Unit}
    (flowing : channel.Flowing) (idle : channel.sending = none) (uncut : ¬ channel.sendCut = true)
    (sendable : Sendable message) (writes : Writes future message.frame (.ok ())) :
    Flowing { channel with sending := some ⟨message, future, 0⟩ } := by
  obtain ⟨queue, unfinished, missing, writer, stream, passed, sendable', reader⟩ := flowing
  cases writer with
  | busy busy _ _ _ _ _ =>
    rw [idle] at busy
    cases busy
  | cut _ cut _ _ _ => exact absurd cut uncut
  | idle _ =>
    rw [List.append_nil, List.append_nil] at stream
    have writer := @Writer.busy { channel with sending := some ⟨message, future, 0⟩ }
      ⟨message, future, 0⟩ [] message.frame rfl sendable rfl rfl
      (QuicConnection.frame_ne_nil message) writes
    refine ⟨queue, _, _, writer, ?_, passed, sendable', fun call busy => ⟨(reader call busy).1, ?_⟩⟩
    · show channel.buffered ++ channel.inFlight ++ block (channel.sends, message) = _
      rw [stream, List.flatMap_append, List.flatMap_singleton]
    · intro entry rest entries
      cases queue with
      | cons first queue =>
        rw [List.cons_append, List.cons.injEq] at entries
        refine (reader call busy).2 entry queue ?_
        rw [List.append_nil, entries.1]
      | nil =>
        -- everything written has been received, so nothing of the new frame is taken yet
        have empty := (List.append_eq_nil_iff.mp stream).1
        rw [buffered, show channel.receiving = some call from busy] at empty
        rw [show call.moved = [] from empty]
        exact List.nil_prefix

theorem beginSend_cases (channel : Channel) (message : { message : Message // message.Built })
    (careful : channel.sendCut = true →
      channel.finished = true ∨ maxPayloadLen.toNat < message.1.payload.length) :
    (channel.beginSend message =
        { channel with sending := none, sends := channel.sends + 1 }) ∨
      (¬ channel.finished = true ∧ ¬ channel.sendCut = true ∧ ∃ future, Sendable message.1 ∧
        Writes future message.1.frame (.ok ()) ∧
        channel.beginSend message = { channel with sending := some ⟨message, future, 0⟩ }) := by
  unfold beginSend sendFuture
  by_cases finished : channel.finished = true
  · rw [if_pos finished]
    exact .inl rfl
  · rw [if_neg finished]
    have valid := message.2.valid
    by_cases long : maxPayloadLen.toNat < message.1.payload.length
    · rw [writeFrame_oversized valid long]
      exact .inl rfl
    · have sendable : Sendable message.1 := ⟨valid, Nat.le_of_not_lt long⟩
      have writes := writeFrame_writes sendable
      obtain ⟨empty, _⟩ | ⟨_, waits⟩ := writes.settle_cases
      · exact absurd empty (QuicConnection.frame_ne_nil message.1)
      · refine .inr ⟨finished, fun cut => ?_, (writeFrame message.1).settle, sendable, writes.settle,
          resumeSend_waits waits⟩
        exact (careful cut).elim finished long

theorem Intact.beginSend {channel : Channel} (intact : channel.Intact)
    (idle : channel.sending = none) (message : { message : Message // message.Built })
    (careful : channel.sendCut = true →
      channel.finished = true ∨ maxPayloadLen.toNat < message.1.payload.length) :
    (channel.beginSend message).Intact := by
  have same : SendOnly channel (channel.beginSend message) := sendOnly_resumeSend _ _ _ _
  obtain refused | ⟨isOpen, uncut, future, sendable, writes, begins⟩ :=
    beginSend_cases channel message careful
  · rw [refused] at same ⊢
    refine intact.sendOnly same (fun _ => rfl) fun _ stream => ?_
    exact stream.imp (fun flowing => flowing.refused idle _) fun drained => drained
  · rw [begins] at same ⊢
    refine intact.sendOnly same (fun finished => absurd finished isOpen) fun _ stream => ?_
    obtain flowing | drained := stream
    · exact .inl (flowing.begins idle uncut sendable writes)
    · exact absurd drained.1 isOpen

/-- One byte is written; with the last one the message is passed. -/
theorem Flowing.writes {channel : Channel} {call : PendingSend} {future : Async LaicError Unit}
    {action : IoEvent} {input bytes : List UInt8} (flowing : channel.Flowing)
    (busy : channel.sending = some call)
    (moved : call.future.step false [] = some (action, future, input, bytes)) :
    Flowing (resumeSend call.message (call.moved + bytes.length) future
      { channel with inFlight := channel.inFlight ++ mark channel.sends call.moved bytes }) := by
  obtain ⟨queue, unfinished, missing, writer, stream, passed, sendable, reader⟩ := flowing
  cases writer with
  | idle idle =>
    rw [busy] at idle
    cases idle
  | cut idle _ _ _ _ =>
    rw [busy] at idle
    cases idle
  | @busy call' written rest busy' sends start split _ writes =>
    obtain rfl : call' = call := Option.some.inj (busy'.symm.trans busy)
    obtain ⟨byte, rest, rfl, rfl, writes'⟩ := writes.step moved
    have stream' : channel.buffered ++ (channel.inFlight ++ mark channel.sends call'.moved [byte]) ++
        mark channel.sends (written ++ [byte]).length rest =
        (queue ++ [(channel.sends, call'.message)]).flatMap block := by
      rw [← stream, List.append_assoc, List.append_assoc, List.append_assoc, start,
        List.length_append, ← mark_append]
      rfl
    have split' : (written ++ [byte]) ++ rest = call'.message.frame := by
      rw [List.append_assoc]
      exact split
    obtain ⟨rfl, returns⟩ | ⟨unwritten, waits⟩ := writes'.settle_cases
    · rw [resumeSend_returns returns]
      refine ⟨queue ++ [(channel.sends, call'.message)], [], [], .idle rfl, ?_, ?_, ?_, ?_⟩
      · rw [mark_nil, List.append_nil] at stream'
        rw [List.append_nil, List.append_nil]
        exact stream'
      · show channel.passed ++ [call'.message] = _
        rw [passed, List.map_append, List.append_assoc]
        rfl
      · intro entry member
        obtain earlier | last := List.mem_append.mp member
        · exact sendable entry earlier
        · rw [List.mem_singleton.mp last]
          exact sends
      · rw [List.append_nil]
        exact reader
    · rw [resumeSend_waits waits]
      exact ⟨queue, _, _, @Writer.busy { channel with
          inFlight := channel.inFlight ++ mark channel.sends call'.moved [byte]
          sending := some ⟨call'.message, future.settle, call'.moved + [byte].length⟩ }
        ⟨call'.message, future.settle, call'.moved + [byte].length⟩ (written ++ [byte]) rest rfl sends
        (by rw [start, List.length_append]) split' unwritten writes'.settle,
        stream', passed, sendable, reader⟩

theorem pollSend_cases (channel : Channel) :
    channel.pollSend = channel ∨
      ∃ (call : PendingSend) (action : IoEvent) (future : Async LaicError Unit)
        (input bytes : List UInt8), channel.sending = some call ∧
        call.future.step false [] = some (action, future, input, bytes) ∧
        channel.pollSend = resumeSend call.message (call.moved + bytes.length) future
          { channel with inFlight := channel.inFlight ++ mark channel.sends call.moved bytes } := by
  unfold pollSend
  split
  · exact .inl rfl
  · rename_i call busy
    split
    · exact .inl rfl
    · rename_i moved
      exact .inr ⟨call, _, _, _, _, busy, moved, rfl⟩

theorem Intact.pollSend {channel : Channel} (intact : channel.Intact) : channel.pollSend.Intact := by
  obtain same | ⟨call, action, future, input, bytes, busy, moved, written⟩ := channel.pollSend_cases
  · rw [same]
    exact intact
  · have isOpen : ¬ channel.finished = true := by
      intro finished
      rw [intact.finished finished] at busy
      cases busy
    have same := sendOnly_resumeSend call.message (call.moved + bytes.length) future
      { channel with inFlight := channel.inFlight ++ mark channel.sends call.moved bytes }
    rw [written]
    refine intact.sendOnly ⟨same.1, same.2, same.3, same.4, same.5, same.6⟩ ?_ fun _ stream => ?_
    · rw [same.finished]
      exact fun finished => absurd finished isOpen
    · obtain flowing | drained := stream
      · exact .inl (flowing.writes busy moved)
      · exact absurd drained.1 isOpen

/-- A dropped send that wrote nothing leaves no trace; any other stays unfinished. -/
theorem Flowing.sendDropped {channel : Channel} {call : PendingSend} (flowing : channel.Flowing)
    (busy : channel.sending = some call) :
    Flowing { channel with
      sending := none
      sends := channel.sends + 1
      sendCut := channel.sendCut || decide (0 < call.moved) } := by
  obtain ⟨queue, unfinished, missing, writer, stream, passed, sendable, reader⟩ := flowing
  cases writer with
  | idle idle =>
    rw [busy] at idle
    cases idle
  | cut idle _ _ _ _ =>
    rw [busy] at idle
    cases idle
  | @busy call' written rest busy' sends start split unwritten _ =>
    obtain rfl : call' = call := Option.some.inj (busy'.symm.trans busy)
    by_cases nothing : written = []
    · subst nothing
      obtain rfl : rest = call'.message.frame := split
      have stream' : channel.buffered ++ channel.inFlight = queue.flatMap block := by
        rw [List.flatMap_append, List.flatMap_singleton] at stream
        exact List.append_cancel_right stream
      refine ⟨queue, [], [], .idle rfl, ?_, passed, sendable, fun call busy => ?_⟩
      · rw [List.append_nil, List.append_nil]
        exact stream'
      · refine ⟨(reader call busy).1, fun entry rest entries => ?_⟩
        refine (reader call busy).2 entry (rest ++ [(channel.sends, call'.message)]) ?_
        rw [List.append_nil] at entries
        rw [entries]
        rfl
    · have cut : (channel.sendCut || decide (0 < call'.moved)) = true := by
        rw [start, Bool.or_eq_true, decide_eq_true_iff]
        exact .inr (List.length_pos_iff.mpr nothing)
      have writer := @Writer.cut { channel with
          sending := none
          sends := channel.sends + 1
          sendCut := channel.sendCut || decide (0 < call'.moved) }
        (channel.sends, call'.message) written rest rfl cut sends split unwritten
      exact ⟨queue, _, _, writer, stream, passed, sendable, reader⟩

theorem Intact.dropSend {channel : Channel} (intact : channel.Intact) : channel.dropSend.Intact := by
  unfold Channel.dropSend
  split
  · exact intact
  · rename_i call busy
    refine intact.sendOnly ⟨List.prefix_rfl, rfl, rfl, rfl, rfl, rfl⟩ (fun _ => rfl) fun _ stream => ?_
    exact stream.imp (fun flowing => flowing.sendDropped busy) fun drained => drained

theorem Intact.finish {channel : Channel} (intact : channel.Intact) (idle : channel.sending = none) :
    channel.finish.Intact where
  returned := intact.returned
  unmixed := intact.unmixed
  finished := fun _ => idle
  cut := intact.cut
  stream := fun uncut => by
    obtain ⟨queue, unfinished, missing, writer, rest⟩ | drained := intact.stream uncut
    · refine .inl ⟨queue, unfinished, missing, ?_, rest⟩
      cases writer with
      | idle _ => exact .idle idle
      | busy busy _ _ _ _ _ =>
        rw [idle] at busy
        cases busy
      | cut _ cut sendable split unwritten => exact .cut idle cut sendable split unwritten
    · exact .inr ⟨rfl, drained.2⟩

/-! ## Receives keep it -/

theorem resumeReceive_waits {moved : List (UInt8 × Origin)} {future : Async LaicError Message}
    {channel : Channel} (waits : future.settle.isDone = false) :
    channel.resumeReceive moved future =
      { channel with receiving := some ⟨future.settle, moved⟩ } := by
  unfold resumeReceive
  split
  · rename_i returned
    rw [returned] at waits
    cases waits
  · rename_i returned
    rw [returned] at waits
    cases waits
  · rfl

theorem resumeReceive_returns {moved : List (UInt8 × Origin)} {future : Async LaicError Message}
    {channel : Channel} {message : Message} (returns : future.settle = .ret (.ok message)) :
    channel.resumeReceive moved future =
      { channel with
        receiving := none
        taken := channel.taken ++ [moved.map (·.2)]
        returned := channel.returned ++ [message] } := by
  simp only [resumeReceive, returns]

theorem unmixed_append {channel : Channel} (intact : channel.Intact) {origins : List Origin}
    (one : FromOneSend origins) : ∀ taken ∈ channel.taken ++ [origins], FromOneSend taken := by
  intro taken member
  obtain earlier | last := List.mem_append.mp member
  · exact intact.unmixed taken earlier
  · rw [List.mem_singleton.mp last]
    exact one

/-- The writer's side does not depend on what is received. -/
theorem Writer.same {channel next : Channel} {unfinished : List (Nat × Message)}
    {missing : List (UInt8 × Origin)} (writer : Writer channel unfinished missing)
    (sending : next.sending = channel.sending) (sends : next.sends = channel.sends)
    (sendCut : next.sendCut = channel.sendCut) : Writer next unfinished missing := by
  cases writer with
  | idle idle => exact .idle (sending.trans idle)
  | busy busy sendable moved split unwritten writes =>
    rw [← sends]
    exact .busy (sending.trans busy) sendable moved split unwritten writes
  | cut idle cut sendable split unwritten =>
    exact .cut (sending.trans idle) (sendCut.trans cut) sendable split unwritten

/-- A receive that ends with nothing taken leaves the stream as it was. -/
theorem Flowing.nothingTaken {channel : Channel} (flowing : channel.Flowing)
    (nothing : channel.buffered = []) (taken : List (List Origin)) (receiveCut : Bool) :
    Flowing { channel with receiving := none, taken := taken, receiveCut := receiveCut } := by
  obtain ⟨queue, unfinished, missing, writer, stream, passed, sendable, _⟩ := flowing
  rw [nothing] at stream
  exact ⟨queue, unfinished, missing, writer.same rfl rfl rfl, stream, passed, sendable, nofun⟩

theorem Drained.ended {channel : Channel} (drained : channel.Drained)
    (taken : List (List Origin)) (receiveCut : Bool) :
    Drained { channel with receiving := none, taken := taken, receiveCut := receiveCut } :=
  ⟨drained.1, drained.2.1, nofun⟩

theorem awaits_readFrame : Awaits ⟨readFrame.settle, []⟩ := by
  intro message missing sendable split
  obtain rfl : missing = message.frame := split
  exact ⟨QuicConnection.frame_ne_nil message, (readFrame_reads sendable).settle⟩

theorem Intact.beginReceive {channel : Channel} (intact : channel.Intact)
    (idle : channel.receiving = none) (closed : Bool)
    (careful : channel.receiveCut = true → closed = true) : (channel.beginReceive closed).Intact := by
  have nothing : channel.buffered = [] := by rw [buffered, idle]
  unfold Channel.beginReceive receiveFuture
  split
  · have same : channel.resumeReceive [] (.ret (.error (.transport .shuttingDown))) =
        { channel with
          receiving := none, taken := channel.taken ++ [[]], receiveCut := channel.receiveCut } := rfl
    rw [same]
    refine ⟨intact.returned, unmixed_append intact ⟨0, rfl⟩, intact.finished, fun _ => rfl, fun uncut => ?_⟩
    exact (intact.stream uncut).imp (fun flowing => flowing.nothingTaken nothing _ _)
      fun drained => drained.ended _ _
  · rename_i isOpen
    have waits : readFrame.settle.isDone = false := by
      obtain ⟨empty, _⟩ | ⟨_, waits⟩ := (readFrame_reads sendable_innerFrame).settle_cases
      · exact absurd empty (QuicConnection.frame_ne_nil innerFrame)
      · exact waits
    rw [resumeReceive_waits waits]
    refine ⟨intact.returned, intact.unmixed, intact.finished, fun cut => absurd (careful cut) isOpen,
      fun uncut => ?_⟩
    obtain ⟨queue, unfinished, missing, writer, stream, passed, sendable, _⟩ | drained :=
      intact.stream uncut
    · rw [nothing] at stream
      refine .inl ⟨queue, unfinished, missing, writer.same rfl rfl rfl, stream, passed, sendable, ?_⟩
      rintro _ ⟨⟩
      exact ⟨awaits_readFrame, fun _ _ _ => List.nil_prefix⟩
    · refine .inr ⟨drained.1, drained.2.1, ?_⟩
      rintro _ ⟨⟩
      exact ⟨rfl, awaits_readFrame⟩

theorem Intact.dropReceive {channel : Channel} (intact : channel.Intact) :
    channel.dropReceive.Intact := by
  unfold Channel.dropReceive
  split
  · exact intact
  · rename_i call busy
    refine ⟨intact.returned, unmixed_append intact (intact.moved_fromOneSend busy), intact.finished,
      fun _ => rfl, fun uncut => ?_⟩
    -- nothing was taken, or the connection counts as cut from here on
    obtain ⟨before, nothing⟩ := Bool.or_eq_false_iff.mp uncut
    have nothing : channel.buffered = [] := by
      rw [buffered, busy]
      simpa using nothing
    exact (intact.stream before).imp (fun flowing => flowing.nothingTaken nothing _ _)
      fun drained => drained.ended _ _

/-- After one more byte a receive still accepts every frame that starts with what it took. -/
theorem Awaits.takes {call : PendingReceive} {future : Async LaicError Message} {action : IoEvent}
    {finished : Bool} {origin : Origin} {byte : UInt8} {input input' output : List UInt8}
    (awaits : Awaits call)
    (moved : call.future.step finished (byte :: input) = some (action, future, input', output))
    {message : Message} {missing : List UInt8} (sendable : Sendable message)
    (split : (call.moved ++ [(byte, origin)]).map (·.1) ++ missing = message.frame) :
    input' = input ∧ Reads (receiveFailed .earlyEof) future missing (.ok message) := by
  rw [List.map_append, List.append_assoc] at split
  obtain ⟨_, reads⟩ := awaits message (byte :: missing) sendable split
  obtain ⟨_, same, next⟩ | ⟨_, empty, _⟩ := reads.step moved
  · obtain ⟨rfl, rfl⟩ := List.cons.inj same
    exact ⟨rfl, next missing rfl⟩
  · cases empty

/-- A receive that takes a byte takes it from the frame at the front; with the last byte
of the frame it returns the message. -/
theorem Flowing.takes {channel : Channel} {call : PendingReceive}
    {future : Async LaicError Message} {action : IoEvent} {byte : UInt8} {origin : Origin}
    {rest : List (UInt8 × Origin)} {input output : List UInt8} (flowing : channel.Flowing)
    (busy : channel.receiving = some call) (arrived : channel.inFlight = (byte, origin) :: rest)
    (moved : call.future.step channel.finished (byte :: rest.map (·.1)) =
      some (action, future, input, output)) :
    input = rest.map (·.1) ∧
    ((∃ waiting, resumeReceive (call.moved ++ [(byte, origin)]) future { channel with inFlight := rest } =
        { channel with inFlight := rest, receiving := some ⟨waiting, call.moved ++ [(byte, origin)]⟩ } ∧
      Flowing { channel with
        inFlight := rest, receiving := some ⟨waiting, call.moved ++ [(byte, origin)]⟩ }) ∨
    ∃ (entry : Nat × Message) (queue : List (Nat × Message)),
      call.moved ++ [(byte, origin)] = block entry ∧
      channel.passed = channel.returned ++ entry.2 :: queue.map (·.2) ∧
      resumeReceive (call.moved ++ [(byte, origin)]) future { channel with inFlight := rest } =
        { channel with
          inFlight := rest
          receiving := none
          taken := channel.taken ++ [(block entry).map (·.2)]
          returned := channel.returned ++ [entry.2] } ∧
      Flowing { channel with
        inFlight := rest
        receiving := none
        taken := channel.taken ++ [(block entry).map (·.2)]
        returned := channel.returned ++ [entry.2] }) := by
  obtain ⟨queue, unfinished, missing, writer, stream, passed, sendable, reader⟩ := flowing
  obtain ⟨awaits, isPrefix⟩ := reader call busy
  have stream : (call.moved ++ [(byte, origin)]) ++ (rest ++ missing) =
      (queue ++ unfinished).flatMap block := by
    rw [← stream, buffered, busy, arrived, List.append_assoc, List.append_assoc]
    rfl
  cases entries : queue ++ unfinished with
  | nil =>
    rw [entries] at stream
    simp at stream
  | cons entry others =>
    have sends : Sendable entry.2 := by
      have member : entry ∈ queue ++ unfinished := by rw [entries]; exact List.mem_cons_self
      obtain inQueue | inUnfinished := List.mem_append.mp member
      · exact sendable entry inQueue
      · exact writer.sendable entry inUnfinished
    rw [entries, List.flatMap_cons] at stream
    -- the frame is longer than what was taken of it, so the new byte is from it too
    have longer : call.moved ++ [(byte, origin)] <+: block entry := by
      obtain ⟨part, unread, split, marked⟩ := prefix_block (isPrefix entry others entries)
      have bytes : call.moved.map (·.1) = part := by rw [marked, mark_bytes]
      obtain ⟨waiting, _⟩ := awaits entry.2 unread sends (by rw [bytes]; exact split)
      have positive := List.length_pos_iff.mpr waiting
      have total := congrArg List.length split
      have same := congrArg List.length marked
      refine List.prefix_of_prefix_length_le ⟨_, stream⟩ (List.prefix_append _ _) ?_
      simp only [List.length_append, length_mark, block, List.length_cons, List.length_nil] at *
      omega
    obtain ⟨part, unread, split, marked⟩ := prefix_block longer
    have bytes : (call.moved ++ [(byte, origin)]).map (·.1) = part := by rw [marked, mark_bytes]
    obtain ⟨input', reads⟩ := awaits.takes moved sends (by rw [bytes]; exact split)
    refine ⟨input', ?_⟩
    obtain ⟨rfl, returns⟩ | ⟨unread', waits⟩ := reads.settle_cases
    case inr =>
      refine .inl ⟨future.settle, resumeReceive_waits waits, queue, unfinished, missing,
        writer.same rfl rfl rfl, ?_, passed, sendable, ?_⟩
      · rw [entries, List.flatMap_cons, ← stream, List.append_assoc]
        rfl
      · rintro _ ⟨⟩
        refine ⟨fun message unread sendable split => ?_, fun entry' rest' same => ?_⟩
        · have reads' := (awaits.takes moved sendable split).2
          obtain ⟨_, returns⟩ | ⟨more, _⟩ := reads'.settle_cases
          · rw [returns] at waits
            cases waits
          · exact ⟨more, reads'.settle⟩
        · obtain ⟨rfl, _⟩ := List.cons.inj (entries.symm.trans same)
          exact longer
    case inl =>
      have whole : call.moved ++ [(byte, origin)] = block entry := by
        rw [List.append_nil] at split
        rw [marked, split]
        rfl
      rw [whole] at stream
      have remaining := List.append_cancel_left stream
      -- a message that was received to its end is no longer being written
      cases queue with
      | nil =>
        rw [List.nil_append] at entries
        obtain ⟨none, _⟩ | ⟨only, one, _, unwritten⟩ := writer.unfinished_cases
        · rw [none] at entries
          cases entries
        · obtain ⟨_, rfl⟩ := List.cons.inj (entries.symm.trans one)
          exact absurd (List.append_eq_nil_iff.mp remaining).2 unwritten
      | cons first queue =>
        rw [List.cons_append] at entries
        obtain ⟨rfl, rfl⟩ := List.cons.inj entries
        refine .inr ⟨first, queue, whole, passed, ?_, queue, unfinished, missing,
          writer.same rfl rfl rfl, remaining, ?_, fun entry member => sendable entry (.tail _ member), nofun⟩
        · rw [resumeReceive_returns returns, whole]
        · show channel.passed = _
          rw [passed, List.append_assoc]
          rfl

theorem pollReceive_cases (channel : Channel) :
    channel.pollReceive = channel ∨
      ∃ (call : PendingReceive) (action : IoEvent) (future : Async LaicError Message)
        (input output : List UInt8), channel.receiving = some call ∧
        call.future.step channel.finished (channel.inFlight.map (·.1)) =
          some (action, future, input, output) ∧
        channel.pollReceive = resumeReceive
          (call.moved ++ channel.inFlight.take (channel.inFlight.length - input.length)) future
          { channel with
            inFlight := channel.inFlight.drop (channel.inFlight.length - input.length) } := by
  unfold pollReceive
  split
  · exact .inl rfl
  · rename_i call busy
    split
    · exact .inl rfl
    · rename_i moved
      exact .inr ⟨call, _, _, _, _, busy, moved, rfl⟩

theorem Intact.pollReceive {channel : Channel} (intact : channel.Intact) :
    channel.pollReceive.Intact := by
  obtain same | ⟨call, action, future, input, output, busy, moved, polled⟩ :=
    channel.pollReceive_cases
  · rw [same]
    exact intact
  have uncut : ¬ channel.receiveCut = true := by
    intro cut
    rw [intact.cut cut] at busy
    cases busy
  rw [polled]
  cases arrived : channel.inFlight with
  | nil =>
    -- the stream is at its end, which the receive has met
    obtain ⟨_, _, _, _, _, _, _, reads⟩ := intact.front busy
    rw [arrived, List.map_nil] at moved
    obtain ⟨_, none, _⟩ | ⟨finished, _, rfl, rfl⟩ := reads.step moved
    · cases none
    · have one := intact.moved_fromOneSend busy
      rw [← List.append_nil call.moved] at one
      exact ⟨intact.returned, unmixed_append intact one, intact.finished, fun _ => rfl,
        fun _ => .inr ⟨finished, rfl, nofun⟩⟩
  | cons head rest =>
    obtain ⟨byte, origin⟩ := head
    rw [arrived, List.map_cons] at moved
    obtain flowing | ⟨_, none, _⟩ := intact.stream (by simpa using uncut)
    · obtain ⟨rfl, takes⟩ := flowing.takes busy arrived moved
      have count : ((byte, origin) :: rest).length - (rest.map (·.1)).length = 1 := by
        rw [List.length_map, List.length_cons, Nat.add_sub_cancel_left]
      rw [count, List.take_succ_cons, List.take_zero, List.drop_succ_cons, List.drop_zero]
      obtain ⟨waiting, waits, flowing⟩ | ⟨entry, queue, _, passed, returns, flowing⟩ := takes
      · rw [waits]
        exact ⟨intact.returned, intact.unmixed, intact.finished, fun cut => absurd cut uncut,
          fun _ => .inl flowing⟩
      · rw [returns]
        refine ⟨?_, unmixed_append intact (fromOneSend_mark _ _), intact.finished, fun _ => rfl,
          fun _ => .inl flowing⟩
        exact ⟨queue.map (·.2), by rw [passed, List.append_assoc]; rfl⟩
    · rw [arrived] at none
      cases none

theorem intact_opened : opened.Intact :=
  ⟨List.prefix_rfl, nofun, nofun, nofun, fun _ => .inl ⟨[], [], [], .idle rfl, rfl, rfl, nofun, nofun⟩⟩

end Channel

/-! ## Runs -/

namespace Session

structure Intact (session : Session) : Prop where
  outgoing : session.outgoing.Intact
  incoming : session.incoming.Intact

theorem Intact.seenBy {session : Session} (intact : session.Intact) (party : Party) :
    (session.seenBy party).Intact := by
  cases party with
  | here => exact intact
  | there => exact ⟨intact.incoming, intact.outgoing⟩

theorem Intact.call {session : Session} (intact : session.Intact) (event : Event)
    (careful : session.Careful event) : (session.call event).Intact := by
  have sendIdle (idle : session.Idle) : session.outgoing.sending = none :=
    Option.isNone_iff_eq_none.mp idle.1
  have receiveIdle (idle : session.Idle) : session.incoming.receiving = none :=
    Option.isNone_iff_eq_none.mp idle.2
  cases event with
  | send message =>
    simp only [Session.call]
    split
    · rename_i idle
      exact ⟨intact.outgoing.beginSend (sendIdle idle) message (careful idle), intact.incoming⟩
    · exact intact
  | receive =>
    simp only [Session.call]
    split
    · rename_i idle
      exact ⟨intact.outgoing, intact.incoming.beginReceive (receiveIdle idle) _ (careful idle)⟩
    · exact intact
  | poll => exact ⟨intact.outgoing.pollSend, intact.incoming.pollReceive⟩
  | drop => exact ⟨intact.outgoing.dropSend, intact.incoming.dropReceive⟩
  | close =>
    simp only [Session.call]
    split
    · rename_i idle
      exact ⟨intact.outgoing.finish (sendIdle idle), intact.incoming⟩
    · exact intact

theorem Intact.run {session : Session} (intact : session.Intact) {events : List (Party × Event)}
    (careful : session.CarefulRun events) : (session.run events).Intact := by
  induction events generalizing session with
  | nil => exact intact
  | cons first events ih =>
    obtain ⟨party, event⟩ := first
    have stepped := ((intact.seenBy party).call event careful.1).seenBy party
    exact ih stepped careful.2

/-- Whatever is dropped and at whichever await, neither direction is corrupted in any run
in which each end, while open, sends nothing after a send was dropped part-way and
receives nothing after a receive was. -/
theorem abandonment_uncorrupted (events : List (Party × Event))
    (careful : opened.CarefulRun events) : (opened.run events).Uncorrupted := by
  have start : opened.Intact := ⟨Channel.intact_opened, Channel.intact_opened⟩
  exact ⟨(start.run careful).outgoing.uncorrupted, (start.run careful).incoming.uncorrupted⟩

/-! ## A message inside another -/

/-- `innerFrame` as a message that may be sent. -/
def inner : { message : Message // message.Built } :=
  ⟨QuicConnection.innerFrame, Channel.sendable_innerFrame.1.built⟩

/-- A message whose payload is the bytes of `inner`. -/
def carrier : { message : Message // message.Built } :=
  ⟨⟨⟨magic, version, 1, 8, 0, 40, 2, 0, 0, 0, Vector.replicate 4 0⟩, inner.1.frame⟩,
    Message.Valid.built ⟨⟨rfl, rfl, ⟨.raw, rfl⟩, ⟨.normal, rfl⟩⟩, rfl⟩⟩

/-- The theorem on a run with two drops part-way: the sender of the cut message closes,
and is refused; the receiver drops a call that has taken nothing and one that has. -/
theorem abandonment_uncorrupted_closed :
    (opened.run [(.here, .receive), (.here, .drop), (.there, .send inner), (.there, .poll),
      (.there, .drop), (.there, .close), (.there, .send carrier), (.here, .receive), (.here, .poll),
      (.here, .drop)]).Uncorrupted :=
  abandonment_uncorrupted _ (by decide)

/-- The peer passes `carrier`; a receive is dropped when it has read the header. -/
def droppedReceive : List (Party × Event) :=
  (.there, .send carrier) :: List.replicate 80 (.there, .poll) ++
    (.here, .receive) :: List.replicate 40 (.here, .poll) ++
    (.here, .drop) :: (.here, .receive) :: List.replicate 40 (.here, .poll)

/-- The next receive reads the payload as a message, which was never passed to a send. -/
theorem abandonment_counterexample :
    ¬ ∀ events : List (Party × Event), (opened.run events).Uncorrupted := by
  intro always
  have smuggled : ¬ (opened.run droppedReceive).incoming.returned.Sublist
      (opened.run droppedReceive).incoming.passed := by decide +kernel
  exact smuggled (always droppedReceive).2.inOrder

/-- A send dropped behind its header: the next message is received as its payload. -/
example :
    let dropped : List (Party × Event) :=
      (.there, .send carrier) :: List.replicate 40 (.there, .poll) ++ (.there, .drop) ::
        (.there, .send inner) :: List.replicate 40 (.there, .poll) ++
        (.here, .receive) :: List.replicate 80 (.here, .poll)
    (opened.run dropped).incoming.passed = [inner.1] ∧
      (opened.run dropped).incoming.returned = [carrier.1] := by
  decide +kernel

end Session

end Laic
