import Laic.Lib.Medium
import Laic.Lib.SlotPort
import Laic.Transport.Emergency
import Laic.Transport.Produced

/-! # All channels of one machine

IPC connections and emergency channels meet in one shared memory, where a service is known by its
name only: whatever is published on a service reaches every subscriber of that name.  Either end of
a channel takes its two service names from the name of the channel.  Here any number of ports of
either kind is opened, used, closed and dropped in any order; `isolated` says that channels do not
see each other, `oneToOne` what a channel with one port on its publishing side delivers. -/

namespace Laic

/-! ## Service names -/

/-- The services of a port: the one it subscribes to and the one it publishes on. -/
structure Services where
  subName : String
  pubName : String

/-- The names that `IpcConnection::open` builds. -/
def IpcConnection.services (name subDir pubDir : String) : Services where
  subName := s!"laic/ipc/{name}/{subDir}"
  pubName := s!"laic/ipc/{name}/{pubDir}"

def IpcConnection.openServer (name : String) : Services := services name "c2s" "s2c"

def IpcConnection.openClient (name : String) : Services := services name "s2c" "c2s"

/-- The names that `EmergencyChannel::open` builds. -/
def EmergencyChannel.services (name subDir pubDir : String) : Services where
  subName := s!"laic/emergency/{name}/{subDir}"
  pubName := s!"laic/emergency/{name}/{pubDir}"

def EmergencyChannel.openServer (name : String) : Services := services name "c2s" "s2c"

def EmergencyChannel.openClient (name : String) : Services := services name "s2c" "c2s"

namespace SharedMemory

inductive Kind where
  | ipc
  | emergency
  deriving DecidableEq, Repr

inductive Side where
  | server
  | client
  deriving DecidableEq, Repr

def Side.other : Side → Side
  | .server => .client
  | .client => .server

/-- A port: an end of a channel, and which of the objects opened there it is. -/
structure PortId where
  kind : Kind
  name : String
  side : Side
  serial : Nat
  deriving DecidableEq, Repr

theorem PortId.ext {port port' : PortId} (kinds : port.kind = port'.kind)
    (names : port.name = port'.name) (sides : port.side = port'.side)
    (serials : port.serial = port'.serial) : port = port' := by
  cases port
  cases port'
  simp_all

def PortId.services (port : PortId) : Services :=
  match port.kind, port.side with
  | .ipc, .server => IpcConnection.openServer port.name
  | .ipc, .client => IpcConnection.openClient port.name
  | .emergency, .server => EmergencyChannel.openServer port.name
  | .emergency, .client => EmergencyChannel.openClient port.name

/-- A service name of one kind determines its parts: directions have the same length, so the last
slash is where it is expected even if the channel's name has slashes of its own. -/
theorem parts_of_service {lead name name' dir dir' : String}
    (same : lead ++ name ++ "/" ++ dir = lead ++ name' ++ "/" ++ dir')
    (lengths : dir.toList.length = dir'.toList.length) : name = name' ∧ dir = dir' := by
  have letters := congrArg String.toList same
  simp only [String.toList_append, List.append_assoc, List.append_cancel_left_eq] at letters
  have counts := congrArg List.length letters
  simp only [List.length_append] at counts
  obtain ⟨names, rest⟩ := List.append_inj letters (by omega)
  exact ⟨String.toList_inj.mp names, String.toList_inj.mp (List.append_cancel_left rest)⟩

/-- The kinds differ in the sixth letter. -/
theorem ipc_ne_emergency (rest rest' : String) :
    "laic/ipc/" ++ rest ≠ "laic/emergency/" ++ rest' := by
  intro same
  have letters := congrArg (fun text => text.toList[5]?) same
  simp at letters

/-- The direction of the side that a port subscribes to. -/
def Side.subDir : Side → String
  | .server => "c2s"
  | .client => "s2c"

theorem Side.subDir_length (side : Side) : side.subDir.toList.length = 3 := by
  cases side <;> rfl

theorem Side.subDir_inj {side side' : Side} (same : side.subDir = side'.subDir) : side = side' := by
  cases side <;> cases side' <;> simp [Side.subDir] at same <;> rfl

def Kind.lead : Kind → String
  | .ipc => "laic/ipc/"
  | .emergency => "laic/emergency/"

theorem PortId.subName_eq (port : PortId) :
    port.services.subName = port.kind.lead ++ port.name ++ "/" ++ port.side.subDir := by
  obtain ⟨kind, name, side, serial⟩ := port
  cases kind <;> cases side <;> rfl

/-- A port publishes where the other side of its channel subscribes. -/
theorem PortId.pubName_eq (port : PortId) :
    port.services.pubName = port.kind.lead ++ port.name ++ "/" ++ port.side.other.subDir := by
  obtain ⟨kind, name, side, serial⟩ := port
  cases kind <;> cases side <;> rfl

/-- Only the other end of the same channel publishes where a port subscribes. -/
theorem services_meet {subscriber publisher : PortId} :
    subscriber.services.subName = publisher.services.pubName ↔
      publisher.kind = subscriber.kind ∧ publisher.name = subscriber.name ∧
        publisher.side.other = subscriber.side := by
  obtain ⟨kind, name, side, serial⟩ := subscriber
  obtain ⟨kind', name', side', serial'⟩ := publisher
  rw [PortId.subName_eq, PortId.pubName_eq]
  constructor
  · intro meet
    have kinds : kind' = kind := by
      cases kind <;> cases kind'
      · rfl
      · exact absurd (by simpa [Kind.lead, String.append_assoc] using meet) (ipc_ne_emergency _ _)
      · exact absurd (by simpa [Kind.lead, String.append_assoc] using meet.symm) (ipc_ne_emergency _ _)
      · rfl
    subst kinds
    obtain ⟨names, dirs⟩ := parts_of_service meet (by rw [side.subDir_length, side'.other.subDir_length])
    exact ⟨rfl, names.symm, (Side.subDir_inj dirs).symm⟩
  · intro same
    obtain ⟨rfl, rfl, rfl⟩ := same
    rfl

/-! ## The ports as slot ports -/

end SharedMemory

/-- IPC frames. -/
def ipcFormat : SlotFormat LaicError PublishFault Message IpcFrame where
  capacity := subscriberBufferSize
  encode := IpcFrame.ofMessage
  decode := IpcFrame.toMessage
  shuttingDown := .transport .shuttingDown
  publishError := fun fault => .transport fault.error
  receiveError := fun detail => .transport (.receiveFailed s!"receive failed: {detail}")

/-- Emergency frames. -/
def emergencyFormat : SlotFormat LaicError PublishFault (List UInt8) EmergencyFrame where
  capacity := emergencyBufferSize
  encode := EmergencyFrame.ofPayload
  decode := EmergencyFrame.toPayload
  shuttingDown := .transport .shuttingDown
  publishError := fun fault => .transport fault.emergencyError
  receiveError := fun detail => .transport (.receiveFailed s!"emergency receive failed: {detail}")

theorem ipcFormat_lawful : ipcFormat.Lawful Message.Produced :=
  fun _ _ produced made => (IpcFrame.toMessage_ofMessage produced.valid made).1

theorem emergencyFormat_lawful : emergencyFormat.Lawful fun _ => True := by
  intro payload frame _ made
  by_cases fits : payload.length ≤ maxEmergencyPayloadLen
  · obtain ⟨frame', made', read⟩ := EmergencyFrame.ofPayload_eq_ok fits
    cases made.symm.trans made'
    exact read
  · cases made.symm.trans (EmergencyFrame.ofPayload_oversized (Nat.lt_of_not_le fits))

def IpcConnection.port (connection : IpcConnection) : SlotPort ipcFormat :=
  ⟨connection.subscriber, connection.closed⟩

def EmergencyChannel.port (channel : EmergencyChannel) : SlotPort emergencyFormat :=
  ⟨channel.subscriber, channel.closed⟩

theorem IpcConnection.send_port (fault : Option PublishFault) (message : Message)
    (connection : IpcConnection) :
    connection.send fault message = connection.port.send fault message := by
  cases fault <;> rfl

theorem IpcConnection.receive_port (fault : Option String) (connection : IpcConnection) :
    (connection.receive fault).map (fun (result, connection) => (result, connection.port)) =
      connection.port.receive fault := by
  obtain ⟨subscriber, closed⟩ := connection
  cases closed with
  | true => rfl
  | false =>
    cases fault with
    | some detail => rfl
    | none =>
      show Option.map _ (Option.map _ subscriber.pop) = Option.map _ subscriber.pop
      rw [Option.map_map]
      rfl

theorem EmergencyChannel.send_port (fault : Option PublishFault) (payload : List UInt8)
    (channel : EmergencyChannel) :
    channel.send fault payload = channel.port.send fault payload := by
  cases fault <;> rfl

theorem EmergencyChannel.receive_port (fault : Option String) (channel : EmergencyChannel) :
    (channel.receive fault).map (fun (result, channel) => (result, channel.port)) =
      channel.port.receive fault := by
  obtain ⟨subscriber, closed⟩ := channel
  cases closed with
  | true => rfl
  | false =>
    cases fault with
    | some detail => rfl
    | none =>
      show Option.map _ (Option.map _ subscriber.pop) = Option.map _ subscriber.pop
      rw [Option.map_map]
      rfl

namespace SharedMemory

/-! ## The medium -/

namespace Kind

def Content : Kind → Type
  | .ipc => Message
  | .emergency => List UInt8

def Frame : Kind → Type
  | .ipc => IpcFrame
  | .emergency => EmergencyFrame

/-- What programs can pass to `send`. -/
def Held : (kind : Kind) → kind.Content → Prop
  | .ipc => Message.Produced
  | .emergency => fun _ => True

def format : (kind : Kind) → SlotFormat LaicError PublishFault kind.Content kind.Frame
  | .ipc => ipcFormat
  | .emergency => emergencyFormat

theorem format_lawful (kind : Kind) : kind.format.Lawful kind.Held := by
  cases kind with
  | ipc => exact ipcFormat_lawful
  | emergency => exact emergencyFormat_lawful

def State : Kind → Type
  | .ipc => IpcConnection
  | .emergency => EmergencyChannel

def opened : (kind : Kind) → kind.State
  | .ipc => IpcConnection.opened
  | .emergency => EmergencyChannel.opened

def send : (kind : Kind) → Option PublishFault → kind.Content → kind.State → Except LaicError kind.Frame
  | .ipc => IpcConnection.send
  | .emergency => EmergencyChannel.send

def receive : (kind : Kind) → Option String → kind.State →
    Option (Except LaicError kind.Content × kind.State)
  | .ipc => IpcConnection.receive
  | .emergency => EmergencyChannel.receive

def close : (kind : Kind) → kind.State → Except LaicError Unit × kind.State
  | .ipc => IpcConnection.close
  | .emergency => EmergencyChannel.close

def deliver : (kind : Kind) → kind.Frame → kind.State → kind.State
  | .ipc => IpcConnection.deliver
  | .emergency => EmergencyChannel.deliver

def port : (kind : Kind) → kind.State → SlotPort kind.format
  | .ipc => IpcConnection.port
  | .emergency => EmergencyChannel.port

theorem send_port (kind : Kind) (fault : Option PublishFault) (content : kind.Content)
    (state : kind.State) : kind.send fault content state = (kind.port state).send fault content := by
  cases kind with
  | ipc => exact IpcConnection.send_port fault content state
  | emergency => exact EmergencyChannel.send_port fault content state

theorem receive_port (kind : Kind) (fault : Option String) (state : kind.State) :
    (kind.receive fault state).map (fun (result, state) => (result, kind.port state)) =
      (kind.port state).receive fault := by
  cases kind with
  | ipc => exact IpcConnection.receive_port fault state
  | emergency => exact EmergencyChannel.receive_port fault state

theorem deliver_port (kind : Kind) (frame : kind.Frame) (state : kind.State) :
    kind.port (kind.deliver frame state) = (kind.port state).deliver frame := by
  cases kind <;> rfl

theorem close_port (kind : Kind) (state : kind.State) :
    kind.port (kind.close state).2 = (kind.port state).close := by
  cases kind <;> rfl

theorem opened_port (kind : Kind) : kind.port kind.opened = .opened := by
  cases kind <;> rfl

end Kind

/-- A call of a port, with the failure the middleware reports for it. -/
inductive Call (kind : Kind) where
  | send (content : {content : kind.Content // kind.Held content}) (fault : Option PublishFault)
  | receive (fault : Option String)
  | close

/-- What a call returns; a receive may still be waiting. -/
inductive Reply (kind : Kind) where
  | sent (result : Except LaicError Unit)
  | received (result : Option (Except LaicError kind.Content))
  | closed (result : Except LaicError Unit)

def act (kind : Kind) (call : Call kind) (state : kind.State) :
    Reply kind × kind.State × Option ((kind : Kind) × kind.Frame) :=
  match call with
  | .send content fault =>
    match kind.send fault content.1 state with
    | .ok frame => (.sent (.ok ()), state, some ⟨kind, frame⟩)
    | .error error => (.sent (.error error), state, none)
  | .receive fault =>
    match kind.receive fault state with
    | some (result, state) => (.received (some result), state, none)
    | none => (.received none, state, none)
  | .close => (.closed (kind.close state).1, (kind.close state).2, none)

section ActEquations

variable {kind : Kind} {state state' : kind.State}

theorem act_send_ok {content : {content : kind.Content // kind.Held content}}
    {fault : Option PublishFault} {frame : kind.Frame}
    (published : kind.send fault content.1 state = .ok frame) :
    act kind (.send content fault) state = (.sent (.ok ()), state, some ⟨kind, frame⟩) := by
  simp [act, published]

theorem act_send_error {content : {content : kind.Content // kind.Held content}}
    {fault : Option PublishFault} {error : LaicError}
    (failed : kind.send fault content.1 state = .error error) :
    act kind (.send content fault) state = (.sent (.error error), state, none) := by
  simp [act, failed]

theorem act_receive_none {fault : Option String} (waits : kind.receive fault state = none) :
    act kind (.receive fault) state = (.received none, state, none) := by
  simp [act, waits]

theorem act_receive_some {fault : Option String} {result : Except LaicError kind.Content}
    (received : kind.receive fault state = some (result, state')) :
    act kind (.receive fault) state = (.received (some result), state', none) := by
  simp [act, received]

end ActEquations

/-- A subscriber takes frames of the type of its service. -/
def accept (kind : Kind) (frame : (kind : Kind) × kind.Frame) (state : kind.State) : kind.State :=
  if same : frame.1 = kind then kind.deliver (same ▸ frame.2) state else state

/-- The shared memory of one machine. -/
def medium : Medium PortId String ((kind : Kind) × kind.Frame) where
  State port := port.kind.State
  Call port := Call port.kind
  Reply port := Reply port.kind
  fresh port := port.kind.opened
  act port := act port.kind
  accept port := accept port.kind
  subscribes port := port.services.subName
  publishes port := port.services.pubName

/-! ## Isolation -/

/-- Channels are isolated: for any set of channels, whatever happens on all others (opening,
traffic, overflow, faults, closing, dropping, other ends of the same name on the other kind), the
ports of the set go through the same states and their calls return the same. -/
theorem isolated (within : Kind → String → Prop) [DecidablePred fun port : PortId => within port.kind port.name]
    (events : List medium.Event) :
    Medium.Agree (fun port : PortId => within port.kind port.name) (Medium.World.nobody.run events).1
        (Medium.World.nobody.run (events.filter fun event => within event.port.kind event.port.name)).1 ∧
      (Medium.World.nobody.run events).2.filter (fun note => within note.1.kind note.1.name) =
        (Medium.World.nobody.run
          (events.filter fun event => within event.port.kind event.port.name)).2 := by
  have enclosed : Medium.Enclosed medium fun port : PortId => within port.kind port.name := by
    intro publisher subscriber member meet
    obtain ⟨kinds, names, _⟩ := services_meet.mp meet
    rw [kinds, names]
    exact member
  exact Medium.run_agree (fun _ _ => rfl) enclosed events

/-! ## One publisher -/

/-- What was sent to a port since it was opened, and what it has received. -/
structure Traffic (kind : Kind) where
  sent : List kind.Content
  received : List kind.Content

/-- The note, if it is one about `port`. -/
def noteAt (port : PortId) (note : (port : PortId) × medium.Note port) : Option (medium.Note port) :=
  if same : note.1 = port then some (same ▸ note.2) else none

@[simp] theorem noteAt_self (port : PortId) (note : medium.Note port) :
    noteAt port ⟨port, note⟩ = some note := by
  simp [noteAt]

@[simp] theorem noteAt_other {port other : PortId} (different : other ≠ port) (note : medium.Note other) :
    noteAt port ⟨other, note⟩ = none := by
  simp [noteAt, different]

namespace Traffic

variable {kind : Kind}

/-- A call of the publisher: what it sent counts from its return. -/
def afterPublisher (traffic : Traffic kind) : Call kind → Reply kind → Traffic kind
  | .send content _, .sent (.ok _) => { traffic with sent := traffic.sent ++ [content.1] }
  | _, _ => traffic

/-- A call of the subscriber. -/
def afterSubscriber (traffic : Traffic kind) : Reply kind → Traffic kind
  | .received (some (.ok content)) => { traffic with received := traffic.received ++ [content] }
  | _ => traffic

end Traffic

section OneToOne

variable (kind : Kind) (name : String) (side : Side) (subscriber publisher : Nat)

/-- The traffic from the port `publisher` of one side to the port `subscriber` of the other after
one more note; `none` while the subscriber is not open. -/
def follow (soFar : Option (Traffic kind)) (note : (port : PortId) × medium.Note port) :
    Option (Traffic kind) :=
  match noteAt ⟨kind, name, side, subscriber⟩ note with
  | some .opened => some ⟨[], []⟩
  | some .dropped => none
  | some (.replied _ reply) => soFar.map (·.afterSubscriber reply)
  | none =>
    match noteAt ⟨kind, name, side.other, publisher⟩ note with
    | some (.replied call reply) => soFar.map (·.afterPublisher call reply)
    | _ => soFar

/-- The port, if it is open, has the traffic so far on its books. -/
def Kept (world : medium.World) (soFar : Option (Traffic kind)) : Prop :=
  (world.state ⟨kind, name, side, subscriber⟩ = none ∧ soFar = none) ∨
    ∃ state traffic, world.state ⟨kind, name, side, subscriber⟩ = some state ∧ soFar = some traffic ∧
      (kind.port state).Balanced traffic.sent traffic.received

variable {kind name side subscriber publisher}

/-- A call of a port changes its own balance by what its reply says. -/
theorem act_balanced {state : kind.State} {traffic : Traffic kind}
    (balanced : (kind.port state).Balanced traffic.sent traffic.received) (call : Call kind) :
    (kind.port (act kind call state).2.1).Balanced
      (traffic.afterSubscriber (act kind call state).1).sent
      (traffic.afterSubscriber (act kind call state).1).received := by
  cases call with
  | send content fault =>
    cases published : kind.send fault content.1 state with
    | ok frame =>
      rw [act_send_ok published]
      exact balanced
    | error error =>
      rw [act_send_error published]
      exact balanced
  | close =>
    show (kind.port (kind.close state).2).Balanced _ _
    rw [kind.close_port]
    exact balanced.close
  | receive fault =>
    have same := kind.receive_port fault state
    obtain waits | ⟨error, fails⟩ | ⟨content, port', takes, balanced'⟩ := balanced.receive fault
    · rw [waits, Option.map_eq_none_iff] at same
      rw [act_receive_none same]
      exact balanced
    · rw [fails, Option.map_eq_some_iff] at same
      obtain ⟨⟨result, state'⟩, received, equal⟩ := same
      obtain ⟨rfl, unchanged⟩ := Prod.mk.inj equal
      rw [act_receive_some received]
      show (kind.port state').Balanced _ _
      rw [unchanged]
      exact balanced
    · rw [takes, Option.map_eq_some_iff] at same
      obtain ⟨⟨result, state'⟩, received, equal⟩ := same
      obtain ⟨rfl, after⟩ := Prod.mk.inj equal
      rw [act_receive_some received]
      show (kind.port state').Balanced _ _
      rw [after]
      exact balanced'

theorem deliver_balanced {state : kind.State} {sent received : List kind.Content}
    (balanced : (kind.port state).Balanced sent received) {frame : kind.Frame} {content : kind.Content}
    (read : kind.format.decode frame = .ok content) :
    (kind.port (kind.deliver frame state)).Balanced (sent ++ [content]) received := by
  rw [kind.deliver_port]
  exact balanced.deliver read

/-- What a call publishes is what it sent, and its reply says so. -/
theorem act_publishes (state : kind.State) (call : Call kind) (traffic : Traffic kind) :
    ((act kind call state).2.2 = none ∧ traffic.afterPublisher call (act kind call state).1 = traffic) ∨
      ∃ frame content, (act kind call state).2.2 = some ⟨kind, frame⟩ ∧
        kind.format.decode frame = .ok content ∧
        traffic.afterPublisher call (act kind call state).1 =
          { traffic with sent := traffic.sent ++ [content] } := by
  cases call with
  | close => exact .inl ⟨rfl, rfl⟩
  | receive fault =>
    left
    cases received : kind.receive fault state with
    | none =>
      rw [act_receive_none received]
      exact ⟨rfl, rfl⟩
    | some outcome =>
      rw [act_receive_some received]
      exact ⟨rfl, rfl⟩
  | send content fault =>
    cases published : kind.send fault content.1 state with
    | error error =>
      rw [act_send_error published]
      exact .inl ⟨rfl, rfl⟩
    | ok frame =>
      rw [act_send_ok published]
      rw [kind.send_port] at published
      obtain ⟨_, made, _⟩ := SlotPort.send_eq_ok.mp published
      exact .inr ⟨frame, content.1, rfl, kind.format_lawful content.1 frame content.2 made, rfl⟩

theorem accept_own (kind : Kind) (frame : kind.Frame) (state : kind.State) :
    accept kind ⟨kind, frame⟩ state = kind.deliver frame state := by
  simp [accept]

/-- A port does not publish to itself. -/
theorem not_own_service (port : PortId) : medium.subscribes port ≠ medium.publishes port := by
  intro meet
  obtain ⟨_, _, sides⟩ := services_meet.mp meet
  cases side : port.side <;> simp [side, Side.other] at sides

theorem Side.eq_other {side side' : Side} (opposite : side'.other = side) : side' = side.other := by
  cases side <;> cases side' <;> first | rfl | cases opposite

theorem sides_differ : (⟨kind, name, side.other, publisher⟩ : PortId) ≠ ⟨kind, name, side, subscriber⟩ := by
  cases side <;> simp [Side.other]

/-- Notes of other ports, and the opening and dropping of the publisher, do not count. -/
theorem follow_other {soFar : Option (Traffic kind)} {note : (port : PortId) × medium.Note port}
    (notSubscriber : note.1 ≠ ⟨kind, name, side, subscriber⟩)
    (noReply : ∀ call reply,
      noteAt ⟨kind, name, side.other, publisher⟩ note ≠ some (.replied call reply)) :
    follow kind name side subscriber publisher soFar note = soFar := by
  obtain ⟨port, note⟩ := note
  unfold follow
  rw [noteAt_other notSubscriber]
  cases found : noteAt ⟨kind, name, side.other, publisher⟩ ⟨port, note⟩ with
  | none => rfl
  | some note' =>
    cases note' with
    | opened => rfl
    | dropped => rfl
    | replied call reply => exact absurd found (noReply call reply)

theorem follow_publisher (soFar : Option (Traffic kind))
    (call : medium.Call ⟨kind, name, side.other, publisher⟩)
    (reply : medium.Reply ⟨kind, name, side.other, publisher⟩) :
    follow kind name side subscriber publisher soFar
        ⟨⟨kind, name, side.other, publisher⟩, .replied call reply⟩ =
      soFar.map (·.afterPublisher call reply) := by
  unfold follow
  rw [noteAt_other sides_differ, noteAt_self]

theorem follow_subscriber (soFar : Option (Traffic kind))
    (call : medium.Call ⟨kind, name, side, subscriber⟩)
    (reply : medium.Reply ⟨kind, name, side, subscriber⟩) :
    follow kind name side subscriber publisher soFar
        ⟨⟨kind, name, side, subscriber⟩, .replied call reply⟩ =
      soFar.map (·.afterSubscriber reply) := by
  unfold follow
  rw [noteAt_self]

variable {world world' : medium.World} {soFar : Option (Traffic kind)}

theorem Kept.congr (kept : Kept kind name side subscriber world soFar)
    (same : world'.state ⟨kind, name, side, subscriber⟩ = world.state ⟨kind, name, side, subscriber⟩) :
    Kept kind name side subscriber world' soFar := by
  rw [Kept, same]
  exact kept

theorem emit_elsewhere {port subscriber : PortId}
    (elsewhere : medium.subscribes subscriber ≠ medium.publishes port)
    (published : Option ((kind : Kind) × kind.Frame)) (world : medium.World) :
    (world.emit port published).state subscriber = world.state subscriber := by
  cases published with
  | none => rfl
  | some item => exact Medium.World.publish_misses elsewhere item world

/-- A call of the subscriber. -/
theorem Kept.subscriber_call (kept : Kept kind name side subscriber world soFar)
    (call : medium.Call ⟨kind, name, side, subscriber⟩) :
    Kept kind name side subscriber (world.next (.call ⟨kind, name, side, subscriber⟩ call)).1
      ((world.next (.call ⟨kind, name, side, subscriber⟩ call)).2.foldl
        (follow kind name side subscriber publisher) soFar) := by
  obtain ⟨absent, rfl⟩ | ⟨state, traffic, present, rfl, balanced⟩ := kept
  · rw [Medium.World.next_call_nobody absent]
    exact .inl ⟨absent, rfl⟩
  · rw [Medium.World.next_call present, List.foldl_cons, List.foldl_nil, follow_subscriber]
    refine .inr ⟨(act kind call state).2.1, traffic.afterSubscriber (act kind call state).1, ?_, rfl,
      act_balanced balanced call⟩
    rw [emit_elsewhere (not_own_service _)]
    exact Medium.World.set_self _ _ _

/-- A call of the publisher: what it publishes reaches the subscriber, if that is open. -/
theorem Kept.publisher_call (kept : Kept kind name side subscriber world soFar)
    (call : medium.Call ⟨kind, name, side.other, publisher⟩) :
    Kept kind name side subscriber (world.next (.call ⟨kind, name, side.other, publisher⟩ call)).1
      ((world.next (.call ⟨kind, name, side.other, publisher⟩ call)).2.foldl
        (follow kind name side subscriber publisher) soFar) := by
  cases present : world.state ⟨kind, name, side.other, publisher⟩ with
  | none =>
    rw [Medium.World.next_call_nobody present]
    exact kept
  | some state =>
    rw [Medium.World.next_call present, List.foldl_cons, List.foldl_nil, follow_publisher]
    have meet : medium.subscribes ⟨kind, name, side, subscriber⟩ =
        medium.publishes ⟨kind, name, side.other, publisher⟩ :=
      services_meet.mpr ⟨rfl, rfl, by cases side <;> rfl⟩
    -- the publisher's own new state does not matter to the subscriber
    let world' := world.set ⟨kind, name, side.other, publisher⟩ (some (act kind call state).2.1)
    have unchanged : world'.state ⟨kind, name, side, subscriber⟩ =
        world.state ⟨kind, name, side, subscriber⟩ :=
      Medium.World.set_other sides_differ.symm _
    obtain ⟨absent, rfl⟩ | ⟨state', traffic, open', rfl, balanced⟩ := kept
    · refine .inl ⟨?_, rfl⟩
      show (world'.emit _ (act kind call state).2.2).state _ = none
      cases (act kind call state).2.2 with
      | none => exact unchanged.trans absent
      | some item =>
        show (world'.publish _ item).state _ = none
        rw [Medium.World.publish_reaches meet, unchanged, absent]
        rfl
    · obtain ⟨silent, counted⟩ | ⟨frame, content, published, read, counted⟩ :=
        act_publishes state call traffic
      · refine .inr ⟨state', traffic, ?_, ?_, balanced⟩
        · show (world'.emit _ (act kind call state).2.2).state _ = _
          rw [silent]
          exact unchanged.trans open'
        · exact congrArg some counted
      · refine .inr ⟨kind.deliver frame state', { traffic with sent := traffic.sent ++ [content] }, ?_,
          congrArg some counted, ?_⟩
        · show (world'.emit _ (act kind call state).2.2).state _ = _
          rw [published]
          show (world'.publish _ _).state _ = _
          rw [Medium.World.publish_reaches meet, unchanged, open', Option.map_some]
          exact congrArg some (accept_own kind frame state')
        · exact deliver_balanced balanced read

/-- After each event the books are right again, if nobody else publishes to the subscriber. -/
theorem Kept.next (kept : Kept kind name side subscriber world soFar) (event : medium.Event)
    (unique : event.port.kind = kind → event.port.name = name → event.port.side = side.other →
      event.port.serial = publisher) :
    Kept kind name side subscriber (world.next event).1
      ((world.next event).2.foldl (follow kind name side subscriber publisher) soFar) := by
  by_cases isSubscriber : event.port = ⟨kind, name, side, subscriber⟩
  · cases event with
    | opens port =>
      cases isSubscriber
      refine .inr ⟨kind.opened, ⟨[], []⟩, Medium.World.set_self _ _ _, ?_, ?_⟩
      · simp [Medium.World.next, follow]
      · rw [kind.opened_port]
        exact SlotPort.balanced_opened
    | drops port =>
      cases isSubscriber
      refine .inl ⟨Medium.World.set_self _ _ _, ?_⟩
      simp [Medium.World.next, follow]
    | call port call =>
      cases isSubscriber
      exact kept.subscriber_call call
  · by_cases isPublisher : event.port = ⟨kind, name, side.other, publisher⟩
    · cases event with
      | opens port =>
        cases isPublisher
        have ignored : follow kind name side subscriber publisher soFar
            ⟨⟨kind, name, side.other, publisher⟩, .opened⟩ = soFar :=
          follow_other isSubscriber (by simp)
        simp only [Medium.World.next, List.foldl_cons, List.foldl_nil, ignored]
        exact kept.congr (Medium.World.set_other (Ne.symm isSubscriber) _)
      | drops port =>
        cases isPublisher
        have ignored : follow kind name side subscriber publisher soFar
            ⟨⟨kind, name, side.other, publisher⟩, .dropped⟩ = soFar :=
          follow_other isSubscriber (by simp)
        simp only [Medium.World.next, List.foldl_cons, List.foldl_nil, ignored]
        exact kept.congr (Medium.World.set_other (Ne.symm isSubscriber) _)
      | call port call =>
        cases isPublisher
        exact kept.publisher_call call
    · -- somebody else: its notes do not count, and what it publishes goes elsewhere
      have elsewhere : medium.subscribes ⟨kind, name, side, subscriber⟩ ≠ medium.publishes event.port := by
        intro meet
        obtain ⟨kinds, names, opposite⟩ := services_meet.mp meet
        have sides := Side.eq_other opposite
        exact isPublisher (PortId.ext kinds names sides (unique kinds names sides))
      have ignored : (world.next event).2.foldl (follow kind name side subscriber publisher) soFar = soFar := by
        have ports := Medium.next_notes_port world event
        generalize (world.next event).2 = notes at ports
        induction notes with
        | nil => rfl
        | cons note notes ih =>
          have here := ports note List.mem_cons_self
          rw [List.foldl_cons, follow_other (here ▸ isSubscriber)]
          · exact ih fun note' member => ports note' (List.mem_cons_of_mem _ member)
          · intro call reply
            rw [noteAt_other (here ▸ isPublisher)]
            simp
      rw [ignored]
      apply kept.congr
      cases event with
      | opens port => exact Medium.World.set_other (Ne.symm isSubscriber) _
      | drops port => exact Medium.World.set_other (Ne.symm isSubscriber) _
      | call port call =>
        cases present : world.state port with
        | none => rw [Medium.World.next_call_nobody present]
        | some state =>
          have away : medium.subscribes ⟨kind, name, side, subscriber⟩ ≠ medium.publishes port := elsewhere
          rw [Medium.World.next_call present, emit_elsewhere away]
          exact Medium.World.set_other (Ne.symm isSubscriber) _

theorem Kept.run (kept : Kept kind name side subscriber world soFar) (events : List medium.Event)
    (unique : ∀ event ∈ events, event.port.kind = kind → event.port.name = name →
      event.port.side = side.other → event.port.serial = publisher) :
    Kept kind name side subscriber (world.run events).1
      ((world.run events).2.foldl (follow kind name side subscriber publisher) soFar) := by
  induction events generalizing world soFar with
  | nil => exact kept
  | cons event events ih =>
    rw [Medium.World.run_cons, List.foldl_append]
    apply ih
    · exact kept.next event (unique event List.mem_cons_self)
    · exact fun later member => unique later (List.mem_cons_of_mem _ member)

/-- What a port guarantees for the traffic since it was opened, with `unread` still to be received:
every content that was sent has been received, lies unread, or was overwritten when as many later ones
as there are slots had been sent. -/
structure Delivers (state : kind.State) (traffic : Traffic kind) (unread : List kind.Content) :
    Prop where
  account : SlotAccount kind.format.capacity traffic.sent traffic.received unread
  inOrder : List.Sublist (traffic.received ++ unread) traffic.sent
  withinSlots : traffic.sent.length ≤ kind.format.capacity → traffic.sent = traffic.received ++ unread
  newest : List.Sublist (traffic.sent.drop (traffic.sent.length - kind.format.capacity))
    (traffic.received ++ unread)
  receivable : (kind.port state).closed = false → ∀ content rest, unread = content :: rest →
    ∃ state', kind.receive none state = some (.ok content, state')

theorem delivers_of_balanced {state : kind.State} {traffic : Traffic kind}
    (balanced : (kind.port state).Balanced traffic.sent traffic.received) :
    ∃ unread, Delivers state traffic unread := by
  obtain ⟨unread, frames, account⟩ := balanced
  refine ⟨unread, account, account.sublist, account.without_loss, account.newest, ?_⟩
  intro isOpen content rest split
  subst split
  have same := kind.receive_port none state
  obtain ⟨port', takes⟩ := frames.receive_cons isOpen
  rw [takes, Option.map_eq_some_iff] at same
  obtain ⟨⟨result, state'⟩, received, equal⟩ := same
  obtain ⟨rfl, _⟩ := Prod.mk.inj equal
  exact ⟨state', received⟩

/-- The guarantee for one end of a channel over a whole run of the machine. -/
def Guaranteed (kind : Kind) (name : String) (side : Side) (subscriber publisher : Nat)
    (events : List medium.Event) : Prop :=
  let outcome := Medium.World.nobody.run events
  let traffic := outcome.2.foldl (follow kind name side subscriber publisher) none
  (outcome.1.state ⟨kind, name, side, subscriber⟩ = none ∧ traffic = none) ∨
    ∃ state soFar unread, outcome.1.state ⟨kind, name, side, subscriber⟩ = some state ∧
      traffic = some soFar ∧ Delivers state soFar unread

/-- On a machine with any number of channels, opened, used, closed and dropped in any order: a port
whose name only one port of the other side uses receives what that port sends, in order, at most
once and unchanged, and loses a content only to as many later ones as it has slots. -/
theorem oneToOne (kind : Kind) (name : String) (side : Side) (subscriber publisher : Nat)
    (events : List medium.Event)
    (unique : ∀ event ∈ events, event.port.kind = kind → event.port.name = name →
      event.port.side = side.other → event.port.serial = publisher) :
    Guaranteed kind name side subscriber publisher events := by
  have start : Kept kind name side subscriber Medium.World.nobody none := .inl ⟨rfl, rfl⟩
  obtain absent | ⟨state, soFar, present, counted, balanced⟩ := start.run events unique
  · exact .inl absent
  · obtain ⟨unread, delivers⟩ := delivers_of_balanced balanced
    exact .inr ⟨state, soFar, unread, present, counted, delivers⟩

/-- Two alarms over an emergency channel, the first of them received. -/
def twoAlarms : List medium.Event :=
  [.opens ⟨.emergency, "lp7", .server, 0⟩, .opens ⟨.emergency, "lp7", .client, 0⟩,
    .call ⟨.emergency, "lp7", .client, 0⟩ (.send ⟨[1, 2], trivial⟩ none : Call .emergency),
    .call ⟨.emergency, "lp7", .server, 0⟩ (.receive none : Call .emergency),
    .call ⟨.emergency, "lp7", .client, 0⟩ (.send ⟨[3], trivial⟩ none : Call .emergency)]

theorem oneToOne_alarm :
    Guaranteed .emergency "lp7" .server 0 0 twoAlarms ∧
      (Medium.World.nobody.run twoAlarms).2.foldl (follow .emergency "lp7" .server 0 0) none =
        some ⟨[[1, 2], [3]], [[1, 2]]⟩ :=
  ⟨oneToOne _ _ _ _ _ _ (by simp [twoAlarms, Medium.Event.port]), rfl⟩

end OneToOne

end SharedMemory

end Laic
