import Laic.Lib.Except
import Laic.Lib.SlotAccount
import Mathlib.Data.List.Forall2

/-! # Ports over slot buffers

A port publishes content as frames and reads the frames of its peers out of a slot buffer of its
own.  A `SlotFormat` says how content and frames correspond and which errors the port reports;
what the port does with them is the same for every format. -/

/-- How content travels in frames. -/
structure SlotFormat (ε Fault Content Frame : Type) where
  capacity : Nat
  encode : Content → Except ε Frame
  decode : Frame → Except ε Content
  shuttingDown : ε
  publishError : Fault → ε
  receiveError : String → ε

variable {ε Fault Content Frame : Type}

/-- A frame made of content that programs hold is read back as the content. -/
def SlotFormat.Lawful (format : SlotFormat ε Fault Content Frame) (Held : Content → Prop) : Prop :=
  ∀ content frame, Held content → format.encode content = .ok frame →
    format.decode frame = .ok content

structure SlotPort (format : SlotFormat ε Fault Content Frame) where
  subscriber : SlotBuffer format.capacity Frame
  closed : Bool

namespace SlotPort

variable {format : SlotFormat ε Fault Content Frame}

def opened : SlotPort format := ⟨.empty, false⟩

/-- The frame that is published, unless `fault` keeps it from being so. -/
def send (fault : Option Fault) (content : Content) (port : SlotPort format) : Except ε Frame := do
  Except.ensure (¬ port.closed) format.shuttingDown
  let frame ← format.encode content
  match fault with
  | none => .ok frame
  | some fault => .error (format.publishError fault)

def deliver (frame : Frame) (port : SlotPort format) : SlotPort format :=
  { port with subscriber := port.subscriber.push frame }

/-- The oldest frame, decoded; `none` while there is none. -/
def receive (fault : Option String) (port : SlotPort format) :
    Option (Except ε Content × SlotPort format) :=
  if port.closed then
    some (.error format.shuttingDown, port)
  else match fault with
    | some detail => some (.error (format.receiveError detail), port)
    | none =>
      port.subscriber.pop.map fun (frame, rest) =>
        (format.decode frame, { port with subscriber := rest })

def close (port : SlotPort format) : SlotPort format := { port with closed := true }

theorem send_eq_ok {fault : Option Fault} {content : Content} {port : SlotPort format}
    {frame : Frame} :
    port.send fault content = .ok frame ↔
      port.closed = false ∧ format.encode content = .ok frame ∧ fault = none := by
  cases fault with
  | none => simp [send]
  | some fault => simp [send]

theorem send_closed (port : SlotPort format) (closed : port.closed = true) (fault : Option Fault)
    (content : Content) : port.send fault content = .error format.shuttingDown := by
  rw [send, Except.ensure_neg (by simp [closed])]
  rfl

/-- What a receive may do: wait, fail without a change, or take the oldest frame. -/
theorem receive_cases (fault : Option String) (port : SlotPort format) :
    port.receive fault = none ∨
      (∃ error, port.receive fault = some (.error error, port)) ∨
      ∃ frame rest, port.closed = false ∧ port.subscriber.items = frame :: rest.items ∧
        port.receive fault = some (format.decode frame, { port with subscriber := rest }) := by
  unfold receive
  cases isClosed : port.closed with
  | true => exact .inr (.inl ⟨_, rfl⟩)
  | false =>
    cases fault with
    | some detail => exact .inr (.inl ⟨_, rfl⟩)
    | none =>
      cases popped : port.subscriber.pop with
      | none => exact .inl (by simp)
      | some oldest =>
        obtain ⟨frame, rest⟩ := oldest
        exact .inr (.inr ⟨frame, rest, rfl, SlotBuffer.pop_eq_some.mp popped, by simp⟩)

/-! ## Errors of a send -/

/-- The error classes of a format: only publishing may be worth another try. -/
structure Classified (format : SlotFormat ε Fault Content Frame) (retryable : ε → Bool) : Prop where
  shuttingDown : retryable format.shuttingDown = false
  publish : ∀ fault, retryable (format.publishError fault) = true
  encode : ∀ content error, format.encode content = .error error →
    retryable error = false ∧ error ≠ format.shuttingDown

/-- Why a send fails: the port is closed, the content has no frame, or publishing failed. -/
theorem send_eq_error {fault : Option Fault} {content : Content} {port : SlotPort format} {error : ε} :
    port.send fault content = .error error ↔
      port.closed = true ∧ error = format.shuttingDown ∨
      port.closed = false ∧ format.encode content = .error error ∨
      port.closed = false ∧ (∃ frame, format.encode content = .ok frame) ∧
        ∃ reason, fault = some reason ∧ error = format.publishError reason := by
  unfold send
  cases closed : port.closed with
  | true =>
    rw [Except.ensure_neg (by simp)]
    simp [bind, Except.bind, eq_comm]
  | false =>
    rw [Except.ensure_pos (by simp), Except.ok_bind]
    cases encoded : format.encode content with
    | error error' => simp [bind, Except.bind]
    | ok frame =>
      cases fault with
      | none => simp
      | some reason => simp [eq_comm]

/-! ## The traffic of a port -/

/-- The unread frames are those of the contents. -/
def Unread (port : SlotPort format) (contents : List Content) : Prop :=
  List.Forall₂ (fun frame content => format.decode frame = .ok content) port.subscriber.items contents

/-- Everything that was sent to the port has been received, overwritten or is unread. -/
def Balanced (port : SlotPort format) (sent received : List Content) : Prop :=
  ∃ unread, port.Unread unread ∧ SlotAccount format.capacity sent received unread

theorem balanced_opened : (opened : SlotPort format).Balanced [] [] := ⟨[], .nil, .empty⟩

variable {port : SlotPort format} {sent received : List Content}

theorem Balanced.deliver (balanced : port.Balanced sent received) {frame : Frame} {content : Content}
    (read : format.decode frame = .ok content) :
    (port.deliver frame).Balanced (sent ++ [content]) received := by
  obtain ⟨unread, frames, account⟩ := balanced
  have count := List.Forall₂.length_eq frames
  refine ⟨_, ?_, account.push content⟩
  rw [← count]
  exact List.forall₂_drop _ (List.rel_append frames (.cons read .nil))

/-- A receive that returns content took the oldest unread one; any other leaves the balance. -/
theorem Balanced.receive (balanced : port.Balanced sent received) (fault : Option String) :
    port.receive fault = none ∨
      (∃ error, port.receive fault = some (.error error, port)) ∨
      ∃ content port', port.receive fault = some (.ok content, port') ∧
        port'.Balanced sent (received ++ [content]) := by
  obtain ⟨unread, frames, account⟩ := balanced
  obtain waits | fails | ⟨frame, rest, _, oldest, takes⟩ := port.receive_cases fault
  · exact .inl waits
  · exact .inr (.inl fails)
  · rw [Unread, oldest] at frames
    cases frames with
    | @cons _ content _ unread read frames =>
      rw [read] at takes
      exact .inr (.inr ⟨content, _, takes, unread, frames, account.pop⟩)

/-- On an open port with an unread content a receive returns it. -/
theorem Unread.receive_cons {content : Content} {contents : List Content}
    (unread : port.Unread (content :: contents)) (isOpen : port.closed = false) :
    ∃ port', port.receive none = some (.ok content, port') := by
  obtain ⟨⟨items, bounded⟩, closed⟩ := port
  cases isOpen
  cases unread with
  | @cons frame _ frames _ read unread =>
    exact ⟨⟨⟨frames, Nat.le_of_succ_le bounded⟩, false⟩, by simp [receive, SlotBuffer.pop, read]⟩

theorem Balanced.close (balanced : port.Balanced sent received) : port.close.Balanced sent received :=
  balanced

end SlotPort
