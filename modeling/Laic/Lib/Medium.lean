import Mathlib.Logic.Function.Basic

/-! # Ports that meet on topics

A medium connects ports that share nothing but topics.  A port is opened, called and dropped on
its own; a call changes the state of its port only and may publish one item, which reaches every
port that is open at that moment and subscribes to the topic the caller publishes on.

The rule of this library is isolation (`Medium.run_agree`): a set of ports that nobody outside
publishes to behaves the same whatever the others do, or if they do not exist. -/

structure Medium (Port Topic Item : Type) where
  State : Port → Type
  Call : Port → Type
  Reply : Port → Type
  fresh : (port : Port) → State port
  act : (port : Port) → Call port → State port → Reply port × State port × Option Item
  accept : (port : Port) → Item → State port → State port
  subscribes : Port → Topic
  publishes : Port → Topic

namespace Medium

variable {Port Topic Item : Type} (medium : Medium Port Topic Item)

inductive Event where
  | opens (port : Port)
  | drops (port : Port)
  | call (port : Port) (call : medium.Call port)

variable {medium}

def Event.port : medium.Event → Port
  | .opens port | .drops port | .call port _ => port

/-- What happened at a port. -/
inductive Note (medium : Medium Port Topic Item) (port : Port) where
  | opened
  | dropped
  | replied (call : medium.Call port) (reply : medium.Reply port)

/-- The open ports with their states. -/
structure World (medium : Medium Port Topic Item) where
  state : (port : Port) → Option (medium.State port)

namespace World

/-- No port is open. -/
def nobody : medium.World := ⟨fun _ => none⟩

section Set

variable [DecidableEq Port]

def set (world : medium.World) (port : Port) (state : Option (medium.State port)) : medium.World :=
  ⟨Function.update world.state port state⟩

@[simp] theorem set_self (world : medium.World) (port : Port) (state : Option (medium.State port)) :
    (world.set port state).state port = state := by simp [set]

@[simp] theorem set_other {world : medium.World} {port other : Port} (different : other ≠ port)
    (state : Option (medium.State port)) :
    (world.set port state).state other = world.state other := by
  simp [set, different]

end Set

section Publish

variable [DecidableEq Topic]

def publish (topic : Topic) (item : Item) (world : medium.World) : medium.World :=
  ⟨fun port =>
    if medium.subscribes port = topic then (world.state port).map (medium.accept port item)
    else world.state port⟩

theorem publish_reaches {port : Port} {topic : Topic} (subscribed : medium.subscribes port = topic)
    (item : Item) (world : medium.World) :
    (world.publish topic item).state port = (world.state port).map (medium.accept port item) :=
  if_pos subscribed

theorem publish_misses {port : Port} {topic : Topic} (elsewhere : medium.subscribes port ≠ topic)
    (item : Item) (world : medium.World) :
    (world.publish topic item).state port = world.state port :=
  if_neg elsewhere

/-- What a call of the port publishes, if anything. -/
def emit (publisher : Port) : Option Item → medium.World → medium.World
  | none, world => world
  | some item, world => world.publish (medium.publishes publisher) item

end Publish

variable [DecidableEq Port] [DecidableEq Topic]

/-- One event; a call of a port that is not open does not exist. -/
def next (world : medium.World) : medium.Event → medium.World × List ((port : Port) × medium.Note port)
  | .opens port => (world.set port (some (medium.fresh port)), [⟨port, .opened⟩])
  | .drops port => (world.set port none, [⟨port, .dropped⟩])
  | .call port call =>
    match world.state port with
    | none => (world, [])
    | some state =>
      let (reply, state, published) := medium.act port call state
      ((world.set port (some state)).emit port published, [⟨port, .replied call reply⟩])

theorem next_call_nobody {world : medium.World} {port : Port} (absent : world.state port = none)
    (call : medium.Call port) : world.next (.call port call) = (world, []) := by
  simp only [next, absent]

theorem next_call {world : medium.World} {port : Port} {state : medium.State port}
    (present : world.state port = some state) (call : medium.Call port) :
    world.next (.call port call) =
      ((world.set port (some (medium.act port call state).2.1)).emit port
        (medium.act port call state).2.2,
        [⟨port, .replied call (medium.act port call state).1⟩]) := by
  simp only [next, present]

/-- The events in order, with the notes they leave. -/
def run (world : medium.World) :
    List medium.Event → medium.World × List ((port : Port) × medium.Note port)
  | [] => (world, [])
  | event :: events =>
    let (next, notes) := world.next event
    let (last, rest) := next.run events
    (last, notes ++ rest)

theorem run_cons (world : medium.World) (event : medium.Event) (events : List medium.Event) :
    world.run (event :: events) =
      (((world.next event).1.run events).1,
        (world.next event).2 ++ ((world.next event).1.run events).2) := rfl

end World

/-! ## Isolation -/

/-- Whoever publishes to a port of the set is in the set. -/
def Enclosed (medium : Medium Port Topic Item) (within : Port → Prop) : Prop :=
  ∀ publisher subscriber, within subscriber →
    medium.subscribes subscriber = medium.publishes publisher → within publisher

/-- The worlds have the same ports of the set open, in the same states. -/
def Agree (within : Port → Prop) (world world' : medium.World) : Prop :=
  ∀ port, within port → world.state port = world'.state port

variable {within : Port → Prop} {world world' : medium.World}

section Set

variable [DecidableEq Port]

theorem Agree.set (agree : Agree within world world') (port : Port)
    (state : Option (medium.State port)) : Agree within (world.set port state) (world'.set port state) := by
  intro other member
  by_cases same : other = port
  · subst same
    simp
  · simp [same, agree other member]

theorem Agree.set_outside (agree : Agree within world world') {port : Port}
    (outside : ¬ within port) (state : Option (medium.State port)) :
    Agree within (world.set port state) world' := by
  intro other member
  have different : other ≠ port := fun same => outside (same ▸ member)
  simp [different, agree other member]

end Set

section Publish

variable [DecidableEq Topic]

theorem Agree.publish (agree : Agree within world world') (topic : Topic) (item : Item) :
    Agree within (world.publish topic item) (world'.publish topic item) := by
  intro port member
  simp [World.publish, agree port member]

/-- What is published from outside an enclosed set does not reach it. -/
theorem Agree.publish_outside (agree : Agree within world world')
    (enclosed : Enclosed medium within) {publisher : Port} (outside : ¬ within publisher) (item : Item) :
    Agree within (world.publish (medium.publishes publisher) item) world' := by
  intro port member
  have elsewhere : medium.subscribes port ≠ medium.publishes publisher :=
    fun same => outside (enclosed publisher port member same)
  rw [World.publish_misses elsewhere, agree port member]

theorem Agree.emit (agree : Agree within world world') (publisher : Port) (published : Option Item) :
    Agree within (world.emit publisher published) (world'.emit publisher published) := by
  cases published with
  | none => exact agree
  | some item => exact agree.publish _ item

theorem Agree.emit_outside (agree : Agree within world world') (enclosed : Enclosed medium within)
    {publisher : Port} (outside : ¬ within publisher) (published : Option Item) :
    Agree within (world.emit publisher published) world' := by
  cases published with
  | none => exact agree
  | some item => exact agree.publish_outside enclosed outside item

end Publish

variable [DecidableEq Port] [DecidableEq Topic]

/-- An event of the set does the same in both worlds. -/
theorem Agree.next (agree : Agree within world world') {event : medium.Event}
    (member : within event.port) :
    Agree within (world.next event).1 (world'.next event).1 ∧
      (world.next event).2 = (world'.next event).2 := by
  cases event with
  | opens port => exact ⟨agree.set port _, rfl⟩
  | drops port => exact ⟨agree.set port _, rfl⟩
  | call port call =>
    have same : world.state port = world'.state port := agree port member
    cases present : world.state port with
    | none =>
      rw [present] at same
      rw [World.next_call_nobody present, World.next_call_nobody same.symm]
      exact ⟨agree, rfl⟩
    | some state =>
      rw [present] at same
      rw [World.next_call present, World.next_call same.symm]
      exact ⟨(agree.set port _).emit port _, rfl⟩

/-- An event outside an enclosed set leaves it alone. -/
theorem Agree.next_outside (agree : Agree within world world') (enclosed : Enclosed medium within)
    {event : medium.Event} (outside : ¬ within event.port) :
    Agree within (world.next event).1 world' := by
  cases event with
  | opens port => exact agree.set_outside outside _
  | drops port => exact agree.set_outside outside _
  | call port call =>
    cases present : world.state port with
    | none =>
      rw [World.next_call_nobody present]
      exact agree
    | some state =>
      rw [World.next_call present]
      exact (agree.set_outside outside _).emit_outside enclosed outside _

theorem next_notes_port (world : medium.World) (event : medium.Event) :
    ∀ note ∈ (world.next event).2, note.1 = event.port := by
  cases event with
  | opens port => simp [World.next, Event.port]
  | drops port => simp [World.next, Event.port]
  | call port call =>
    cases present : world.state port with
    | none => simp [World.next_call_nobody present]
    | some state => simp [World.next_call present, Event.port]

/-- An enclosed set of ports lives in the run as it would without the others. -/
theorem run_agree [DecidablePred within] (agree : Agree within world world')
    (enclosed : Enclosed medium within) (events : List medium.Event) :
    Agree within (world.run events).1 (world'.run (events.filter fun event => within event.port)).1 ∧
      (world.run events).2.filter (fun note => within note.1) =
        (world'.run (events.filter fun event => within event.port)).2 := by
  induction events generalizing world world' with
  | nil => exact ⟨agree, rfl⟩
  | cons event events ih =>
    have ports := next_notes_port world event
    by_cases member : within event.port
    · obtain ⟨agree', notes⟩ := agree.next member
      obtain ⟨last, rest⟩ := ih agree'
      rw [List.filter_cons_of_pos (by simpa using member), World.run_cons, World.run_cons]
      refine ⟨last, ?_⟩
      have inside : (world.next event).2.filter (fun note => within note.1) = (world.next event).2 := by
        apply List.filter_eq_self.mpr
        intro note found
        simpa [ports note found] using member
      rw [List.filter_append, inside, notes, rest]
    · obtain ⟨last, rest⟩ := ih (agree.next_outside enclosed member)
      rw [List.filter_cons_of_neg (by simpa using member), World.run_cons]
      refine ⟨last, ?_⟩
      have nothing : (world.next event).2.filter (fun note => within note.1) = [] := by
        apply List.filter_eq_nil_iff.mpr
        intro note found
        simpa [ports note found] using member
      rw [List.filter_append, nothing, List.nil_append, rest]

end Medium
