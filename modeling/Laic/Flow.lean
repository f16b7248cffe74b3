import Laic.Transport.Produced

/-! # Credit-based flow control

The sender's credit counter, and what it buys on the lossy IPC transport: a sender that
acquires a credit before each data message and a receiver that grants no more credits
than it has received messages.  The events are the calls of either side, in any order,
with the failures the middleware may report. -/

namespace Laic

/-! ## The controller -/

/-- Sender-side credit tracker. -/
structure CreditController where
  available : UInt16
  deriving DecidableEq, Repr

namespace CreditController

def new (initialCredits : UInt16) : CreditController := ⟨initialCredits⟩

/-- Consume one credit. -/
def acquire (controller : CreditController) : Except FlowError CreditController :=
  if controller.available = 0 then .error .creditExhausted
  else .ok ⟨controller.available - 1⟩

/-- Add credits granted by the peer, up to `u16::MAX`. -/
def replenish (credits : UInt16) (controller : CreditController) : CreditController :=
  ⟨UInt16.ofNat (min (controller.available.toNat + credits.toNat) (UInt16.size - 1))⟩

theorem acquire_eq_ok {controller controller' : CreditController}
    (acquired : controller.acquire = .ok controller') :
    controller.available.toNat = controller'.available.toNat + 1 := by
  unfold acquire at acquired
  split at acquired
  · cases acquired
  · rename_i positive
    cases acquired
    have nonzero : controller.available.toNat ≠ 0 := by
      intro zero
      exact positive (UInt16.toNat_inj.mp zero)
    have one : (1 : UInt16) ≤ controller.available := by
      rw [UInt16.le_iff_toNat_le]
      show 1 ≤ controller.available.toNat
      omega
    show _ = (controller.available - 1).toNat + 1
    rw [UInt16.toNat_sub_of_le _ _ one]
    show controller.available.toNat = controller.available.toNat - 1 + 1
    omega

theorem replenish_le (controller : CreditController) (credits : UInt16) :
    (controller.replenish credits).available.toNat ≤
      controller.available.toNat + credits.toNat := by
  have small : min (controller.available.toNat + credits.toNat) (UInt16.size - 1) < 2 ^ 16 :=
    Nat.lt_of_le_of_lt (Nat.min_le_right _ _) (by decide)
  show (UInt16.ofNat _).toNat ≤ _
  rw [UInt16.toNat_ofNat_of_lt' small]
  exact Nat.min_le_left _ _

end CreditController

/-! ## A sender and a receiver on one IPC channel -/

namespace CreditWindow

/-- Both ends of the channel and the sender's controller.  The lists record the data
messages whose send returned, those whose receive returned and the data frames that
were overwritten unread; `acquired` and `granted` count credits. -/
structure State where
  credit : CreditController
  sender : IpcConnection
  receiver : IpcConnection
  sent : List Message
  received : List Message
  overwritten : List IpcFrame
  acquired : Nat
  granted : Nat

def State.start (initialCredits : UInt16) : State where
  credit := .new initialCredits
  sender := .opened
  receiver := .opened
  sent := []
  received := []
  overwritten := []
  acquired := 0
  granted := 0

/-- A call of either side, with the failure the middleware reports for it. -/
inductive Event where
  | send (message : {message : Message // message.Produced}) (fault : Option PublishFault)
  | receive (fault : Option String)
  | reply (message : {message : Message // message.Produced}) (credits : UInt16)
      (fault : Option PublishFault)
  | receiveReply (fault : Option String)
  | closeSender
  | closeReceiver

namespace State

/-- Acquire, then send. -/
def send (message : Message) (fault : Option PublishFault) (state : State) : State :=
  match state.credit.acquire with
  | .error _ => state
  | .ok controller =>
    let state := { state with credit := controller, acquired := state.acquired + 1 }
    match state.sender.send fault message with
    | .error _ => state
    | .ok frame =>
      { state with
        receiver := state.receiver.deliver frame
        sent := state.sent ++ [message]
        overwritten := state.overwritten ++ state.receiver.subscriber.evicted frame }

def receive (fault : Option String) (state : State) : State :=
  match state.receiver.receive fault with
  | none => state
  | some (.error _, receiver) => { state with receiver := receiver }
  | some (.ok message, receiver) =>
    { state with receiver := receiver, received := state.received ++ [message] }

/-- Send a message with a grant back. -/
def reply (message : Message) (credits : UInt16) (fault : Option PublishFault) (state : State) :
    State :=
  match state.receiver.send fault (message.setCreditGrant credits) with
  | .error _ => state
  | .ok frame =>
    { state with
      sender := state.sender.deliver frame
      granted := state.granted + credits.toNat }

/-- Receive a reply and replenish by its grant. -/
def receiveReply (fault : Option String) (state : State) : State :=
  match state.sender.receive fault with
  | none => state
  | some (.error _, sender) => { state with sender := sender }
  | some (.ok message, sender) =>
    let state := { state with sender := sender }
    if message.header.creditGrant > 0 then
      { state with credit := state.credit.replenish message.header.creditGrant }
    else state

def next (state : State) : Event → State
  | .send message fault => state.send message.1 fault
  | .receive fault => state.receive fault
  | .reply message credits fault => state.reply message.1 credits fault
  | .receiveReply fault => state.receiveReply fault
  | .closeSender => { state with sender := state.sender.close.2 }
  | .closeReceiver => { state with receiver := state.receiver.close.2 }

def run (state : State) (events : List Event) : State := events.foldl next state

/-- Never along the events has the receiver granted more credits than it has received
data messages. -/
def GrantsWithin (state : State) : List Event → Prop
  | [] => state.granted ≤ state.received.length
  | event :: events => state.granted ≤ state.received.length ∧ (state.next event).GrantsWithin events

end State

/-! ## The window -/

/-- The credits that the messages grant. -/
def grants : List Message → Nat
  | [] => 0
  | message :: messages => message.header.creditGrant.toNat + grants messages

/-- Every credit is available, spent or on its way back. -/
structure Balanced (initial : Nat) (state : State) : Prop where
  inFlight : ∃ unread replies, state.receiver.Unread unread ∧
    state.sender.Unread replies ∧ state.sent = state.received ++ unread ∧
    state.credit.available.toNat + grants replies + state.acquired ≤ initial + state.granted
  sent_le : state.sent.length ≤ state.acquired
  overwritten : state.overwritten = []

variable {initial : Nat} {state : State}

/-- While grants stay within receptions, an available credit means a free slot. -/
theorem Balanced.unread_le {unread replies : List Message}
    (sentLe : state.sent.length ≤ state.acquired) (small : initial ≤ subscriberBufferSize)
    (within : state.granted ≤ state.received.length)
    (split : state.sent = state.received ++ unread)
    (balance : state.credit.available.toNat + grants replies + state.acquired ≤
      initial + state.granted) :
    unread.length + state.credit.available.toNat ≤ subscriberBufferSize := by
  have total := congrArg List.length split
  rw [List.length_append] at total
  omega

theorem balanced_send (balanced : Balanced initial state) (small : initial ≤ subscriberBufferSize)
    (within : state.granted ≤ state.received.length) {message : Message}
    (produced : message.Produced) (fault : Option PublishFault) :
    Balanced initial (state.send message fault) := by
  obtain ⟨⟨unread, replies, frames, replyFrames, split, balance⟩, sentLe, overwritten⟩ := balanced
  unfold State.send
  cases acquired : state.credit.acquire with
  | error error => exact ⟨⟨unread, replies, frames, replyFrames, split, balance⟩, sentLe, overwritten⟩
  | ok controller =>
    have spent := CreditController.acquire_eq_ok acquired
    have balance' : controller.available.toNat + grants replies + (state.acquired + 1) ≤
        initial + state.granted := by omega
    cases published : state.sender.send fault message with
    | error error =>
      simp only [published]
      exact ⟨⟨unread, replies, frames, replyFrames, split, balance'⟩, by simp; omega, overwritten⟩
    | ok frame =>
      obtain ⟨_, made, _⟩ := IpcConnection.send_eq_ok.mp published
      obtain ⟨read, _⟩ := IpcFrame.toMessage_ofMessage produced.valid made
      -- the credit that was acquired stands for a free slot
      have room : state.receiver.subscriber.items.length < subscriberBufferSize := by
        have bound := Balanced.unread_le sentLe small within split balance
        have count := List.Forall₂.length_eq frames
        omega
      simp only [published]
      refine ⟨⟨unread ++ [message], replies, ?_, replyFrames, ?_, balance'⟩, ?_, ?_⟩
      · exact frames.deliver read room
      · rw [split, List.append_assoc]
      · simp only [List.length_append, List.length_singleton]
        omega
      · rw [overwritten, SlotBuffer.evicted_eq_nil room, List.append_nil]

theorem balanced_receive (balanced : Balanced initial state) (fault : Option String) :
    Balanced initial (state.receive fault) := by
  obtain ⟨⟨unread, replies, frames, replyFrames, split, balance⟩, sentLe, overwritten⟩ := balanced
  unfold State.receive
  obtain waits | ⟨error, fails⟩ | ⟨message, rest, receiver, received, rfl, frames', _⟩ :=
    frames.receive fault
  · rw [waits]
    exact ⟨⟨unread, replies, frames, replyFrames, split, balance⟩, sentLe, overwritten⟩
  · rw [fails]
    exact ⟨⟨unread, replies, frames, replyFrames, split, balance⟩, sentLe, overwritten⟩
  · rw [received]
    refine ⟨⟨rest, replies, frames', replyFrames, ?_, balance⟩, sentLe, overwritten⟩
    rw [split, List.append_assoc]
    rfl

theorem grants_append (messages messages' : List Message) :
    grants (messages ++ messages') = grants messages + grants messages' := by
  induction messages with
  | nil => simp [grants]
  | cons message messages ih =>
    rw [List.cons_append, grants, grants, ih]
    omega

theorem grants_drop_le (messages : List Message) (count : Nat) :
    grants (messages.drop count) ≤ grants messages := by
  have split := grants_append (messages.take count) (messages.drop count)
  rw [List.take_append_drop] at split
  omega

theorem balanced_reply (balanced : Balanced initial state) {message : Message}
    (produced : message.Produced) (credits : UInt16) (fault : Option PublishFault) :
    Balanced initial (state.reply message credits fault) := by
  obtain ⟨⟨unread, replies, frames, replyFrames, split, balance⟩, sentLe, overwritten⟩ := balanced
  unfold State.reply
  cases published : state.receiver.send fault (message.setCreditGrant credits) with
  | error error => exact ⟨⟨unread, replies, frames, replyFrames, split, balance⟩, sentLe, overwritten⟩
  | ok frame =>
    obtain ⟨_, made, _⟩ := IpcConnection.send_eq_ok.mp published
    have valid : (message.setCreditGrant credits).Valid := produced.valid.set (.creditGrant credits)
    obtain ⟨read, _⟩ := IpcFrame.toMessage_ofMessage valid made
    -- the reply joins the ones in flight; an overflow only loses credits
    have joined := List.rel_append replyFrames (.cons read .nil)
    have total : grants (replies ++ [message.setCreditGrant credits]) =
        grants replies + credits.toNat := by
      rw [grants_append]
      rfl
    refine ⟨⟨unread, _, frames, List.forall₂_drop _ joined, split, ?_⟩, sentLe, overwritten⟩
    have kept := grants_drop_le (replies ++ [message.setCreditGrant credits])
      (state.sender.subscriber.items.length + 1 - subscriberBufferSize)
    simp only at balance ⊢
    omega

theorem balanced_receiveReply (balanced : Balanced initial state) (fault : Option String) :
    Balanced initial (state.receiveReply fault) := by
  obtain ⟨⟨unread, replies, frames, replyFrames, split, balance⟩, sentLe, overwritten⟩ := balanced
  unfold State.receiveReply
  obtain waits | ⟨error, fails⟩ | ⟨message, rest, sender, received, rfl, replyFrames', _⟩ :=
    replyFrames.receive fault
  · rw [waits]
    exact ⟨⟨unread, replies, frames, replyFrames, split, balance⟩, sentLe, overwritten⟩
  · rw [fails]
    exact ⟨⟨unread, replies, frames, replyFrames, split, balance⟩, sentLe, overwritten⟩
  · rw [received]
    have total : grants (message :: rest) = message.header.creditGrant.toNat + grants rest := rfl
    have added := state.credit.replenish_le message.header.creditGrant
    simp only
    split
    · refine ⟨⟨unread, rest, frames, replyFrames', split, ?_⟩, sentLe, overwritten⟩
      simp only
      omega
    · refine ⟨⟨unread, rest, frames, replyFrames', split, ?_⟩, sentLe, overwritten⟩
      simp only
      omega

theorem balanced_next (balanced : Balanced initial state) (small : initial ≤ subscriberBufferSize)
    (within : state.granted ≤ state.received.length) (event : Event) :
    Balanced initial (state.next event) := by
  cases event with
  | send message fault => exact balanced_send balanced small within message.2 fault
  | receive fault => exact balanced_receive balanced fault
  | reply message credits fault => exact balanced_reply balanced message.2 credits fault
  | receiveReply fault => exact balanced_receiveReply balanced fault
  | closeSender => exact ⟨balanced.inFlight, balanced.sent_le, balanced.overwritten⟩
  | closeReceiver => exact ⟨balanced.inFlight, balanced.sent_le, balanced.overwritten⟩

theorem balanced_start (initialCredits : UInt16) :
    Balanced initialCredits.toNat (.start initialCredits) :=
  ⟨⟨[], [], IpcConnection.unread_opened, IpcConnection.unread_opened, rfl,
    by simp [State.start, CreditController.new, grants]⟩, Nat.le_refl _, rfl⟩

/-- Along events that keep grants within receptions every credit stays accounted for. -/
theorem balanced_run (balanced : Balanced initial state) (small : initial ≤ subscriberBufferSize)
    {events : List Event} (within : state.GrantsWithin events) :
    Balanced initial (state.run events) ∧
      (state.run events).granted ≤ (state.run events).received.length := by
  induction events generalizing state with
  | nil => exact ⟨balanced, within⟩
  | cons event events ih => exact ih (balanced_next balanced small within.1 event) within.2

/-- A sender that starts with at most one credit for each slot and a receiver that grants
no more than it receives lose nothing, however their calls interleave and fail. -/
theorem lossless {initialCredits : UInt16} (small : initialCredits.toNat ≤ subscriberBufferSize)
    {events : List Event} (within : (State.start initialCredits).GrantsWithin events) :
    ∃ unread : List Message,
      ((State.start initialCredits).run events).receiver.Unread unread ∧
      ((State.start initialCredits).run events).sent =
        ((State.start initialCredits).run events).received ++ unread ∧
      unread.length ≤ subscriberBufferSize ∧
      ((State.start initialCredits).run events).overwritten = [] ∧
      ((State.start initialCredits).run events).acquired ≤
        initialCredits.toNat + ((State.start initialCredits).run events).granted := by
  obtain ⟨⟨⟨unread, replies, frames, _, split, balance⟩, sentLe, overwritten⟩, withinEnd⟩ :=
    balanced_run (balanced_start initialCredits) small within
  have bound := Balanced.unread_le sentLe small withinEnd split balance
  exact ⟨unread, frames, split, by omega, overwritten, by omega⟩

/-- What an acquired credit and an open sender make of a send. -/
theorem next_send {controller : CreditController} {frame : IpcFrame}
    {message : {message : Message // message.Produced}} (acquired : state.credit.acquire = .ok controller)
    (isOpen : state.sender.closed = false) (published : IpcFrame.ofMessage message.1 = .ok frame) :
    state.next (.send message none) =
      { state with
        credit := controller
        receiver := state.receiver.deliver frame
        sent := state.sent ++ [message.1]
        overwritten := state.overwritten ++ state.receiver.subscriber.evicted frame
        acquired := state.acquired + 1 } := by
  have sends : state.sender.send none message.1 = .ok frame :=
    IpcConnection.send_eq_ok.mpr ⟨isOpen, published, rfl⟩
  simp only [State.next, State.send, acquired, sends]

/-- A send, its receive, a reply that grants one credit, its receive, and another send. -/
def creditRound (message : {message : Message // message.Produced}) : List Event :=
  [.send message none, .receive none, .reply message 1 none, .receiveReply none, .send message none]

/-- With one credit, the second send spends the one that the reply brought back. -/
theorem lossless_two_sends : ∃ message : {message : Message // message.Produced},
    let state := (State.start 1).run (creditRound message)
    (∃ unread : List Message, state.receiver.Unread unread ∧
      state.sent = state.received ++ unread ∧ unread.length ≤ subscriberBufferSize ∧
      state.overwritten = [] ∧ state.acquired ≤ 1 + state.granted) ∧
    state.sent = [message.1, message.1] ∧ state.received = [message.1] ∧ state.granted = 1 := by
  obtain ⟨request, made, short⟩ : ∃ request, skillRequest 7 .raw .normal [1, 2] = some request ∧
      request.payload.length ≤ maxIpcPayloadLen.toNat :=
    ⟨(skillRequest 7 .raw .normal [1, 2]).get (by decide), by simp, by decide⟩
  have produced : request.Produced := ⟨request, [], .skillRequest made, rfl⟩
  obtain ⟨frame, published, read⟩ := IpcFrame.ofMessage_eq_ok produced.valid short
  have valid : (request.setCreditGrant 1).Valid := produced.valid.set (.creditGrant 1)
  obtain ⟨grant, granted, readGrant⟩ := IpcFrame.ofMessage_eq_ok valid short
  let sent : State := { State.start 1 with
    credit := ⟨0⟩, receiver := IpcConnection.opened.deliver frame, sent := [request], acquired := 1 }
  have first : (State.start 1).next (.send ⟨request, produced⟩ none) = sent :=
    next_send (show (CreditController.new 1).acquire = .ok ⟨0⟩ by decide) rfl published
  let received : State := { sent with receiver := .opened, received := [request] }
  have second : sent.next (.receive none) = received := by
    have receives : (IpcConnection.opened.deliver frame).receive none = some (.ok request, .opened) := by
      rw [← read]
      rfl
    simp only [State.next, State.receive, sent, received, receives]
    rfl
  let replied : State :=
    { received with sender := IpcConnection.opened.deliver grant, granted := 1 }
  have third : received.next (.reply ⟨request, produced⟩ 1 none) = replied := by
    have sends : IpcConnection.opened.send none (request.setCreditGrant 1) = .ok grant :=
      IpcConnection.send_eq_ok.mpr ⟨rfl, granted, rfl⟩
    simp only [State.next, State.reply, received, sends]
    rfl
  let credited : State := { replied with sender := .opened, credit := ⟨1⟩ }
  have fourth : replied.next (.receiveReply none) = credited := by
    have receives : (IpcConnection.opened.deliver grant).receive none =
        some (.ok (request.setCreditGrant 1), .opened) := by
      rw [← readGrant]
      rfl
    simp only [State.next, State.receiveReply, replied, credited, receives]
    rfl
  let last : State := { credited with
    credit := ⟨0⟩, receiver := IpcConnection.opened.deliver frame, sent := [request, request]
    acquired := 2 }
  have fifth : credited.next (.send ⟨request, produced⟩ none) = last :=
    next_send (show (CreditController.mk 1).acquire = .ok ⟨0⟩ by decide) rfl published
  have ran : (State.start 1).run (creditRound ⟨request, produced⟩) = last := by
    simp only [State.run, creditRound, List.foldl, first, second, third, fourth, fifth]
  have within : (State.start 1).GrantsWithin (creditRound ⟨request, produced⟩) := by
    simp only [State.GrantsWithin, creditRound, first, second, third, fourth, fifth]
    exact ⟨Nat.le_refl 0, Nat.le_refl 0, Nat.zero_le 1, Nat.le_refl 1, Nat.le_refl 1, Nat.le_refl 1⟩
  refine ⟨⟨request, produced⟩, lossless (by decide) within, ?_⟩
  rw [ran]
  exact ⟨rfl, rfl, rfl⟩

end CreditWindow

end Laic
