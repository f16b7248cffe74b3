import Laic.Flow
import Laic.Transport.SharedMemory
import Mathlib.Order.Bounds.Defs

/-! # How much a credit window can lose

A window of more credits than the subscriber has slots can lose messages.  A lost message is never
received, so its credit never comes back: each loss makes the window smaller until it fits.  Over a
whole run, however long, no more is lost than the credits that exceed the slots, and some run loses
that much. -/

namespace Laic

namespace CreditWindow

namespace State

/-- Never along the events has the receiver granted more than `excess` credits beyond the data
messages it has received. -/
def GrantsBeyond (excess : Nat) (state : State) : List Event → Prop
  | [] => state.granted ≤ state.received.length + excess
  | event :: events =>
    state.granted ≤ state.received.length + excess ∧ (state.next event).GrantsBeyond excess events

end State

variable {initial excess : Nat} {state : State}

/-- The credits that are available, on their way back or spent were granted. -/
def Credited (initial : Nat) (state : State) : Prop :=
  ∃ replies, state.sender.Unread replies ∧
    state.credit.available.toNat + grants replies + state.acquired ≤ initial + state.granted

/-- Every data message is received, unread or lost, and losses are covered by credits that exceed
the slots. -/
structure Covered (initial excess : Nat) (state : State) : Prop where
  balanced : state.receiver.port.Balanced state.sent state.received
  count : state.sent.length =
    state.received.length + state.receiver.subscriber.items.length + state.overwritten.length
  spent : state.sent.length ≤ state.acquired
  credited : Credited initial state
  lost : state.overwritten = [] ∨
    state.overwritten.length + subscriberBufferSize ≤ initial + excess

/-! ## One step -/

/-- A push loses at most one frame, and that only when no slot is free. -/
theorem evicted_length (buffer : SlotBuffer subscriberBufferSize IpcFrame) (frame : IpcFrame) :
    (buffer.evicted frame).length + (buffer.push frame).items.length = buffer.items.length + 1 ∧
      ((buffer.evicted frame).length = 0 ∨
        (buffer.evicted frame).length = 1 ∧ buffer.items.length = subscriberBufferSize) := by
  have bounded := buffer.bounded
  simp only [SlotBuffer.evicted, SlotBuffer.push, List.length_take, List.length_drop,
    List.length_append, List.length_singleton]
  omega

theorem covered_send (covered : Covered initial excess state)
    (within : state.granted ≤ state.received.length + excess) {message : Message}
    (produced : message.Produced) (fault : Option PublishFault) :
    Covered initial excess (state.send message fault) := by
  obtain ⟨balanced, count, spent, ⟨replies, replyFrames, balance⟩, lost⟩ := covered
  unfold State.send
  cases acquired : state.credit.acquire with
  | error error => exact ⟨balanced, count, spent, ⟨replies, replyFrames, balance⟩, lost⟩
  | ok controller =>
    have taken := CreditController.acquire_eq_ok acquired
    have credited : controller.available.toNat + grants replies + (state.acquired + 1) ≤
        initial + state.granted := by omega
    cases published : state.sender.send fault message with
    | error error =>
      simp only [published]
      exact ⟨balanced, count, Nat.le_succ_of_le spent, ⟨replies, replyFrames, credited⟩, lost⟩
    | ok frame =>
      obtain ⟨_, made, _⟩ := IpcConnection.send_eq_ok.mp published
      have read := ipcFormat_lawful message frame produced made
      obtain ⟨total, evicted⟩ := evicted_length state.receiver.subscriber frame
      simp only [published]
      refine ⟨balanced.deliver read, ?_, ?_, ⟨replies, replyFrames, credited⟩, ?_⟩
      · show (state.sent ++ [message]).length = state.received.length +
          (state.receiver.subscriber.push frame).items.length +
            (state.overwritten ++ state.receiver.subscriber.evicted frame).length
        simp only [List.length_append, List.length_singleton]
        omega
      · simp only [List.length_append, List.length_singleton]
        omega
      · show state.overwritten ++ state.receiver.subscriber.evicted frame = [] ∨
          (state.overwritten ++ state.receiver.subscriber.evicted frame).length +
            subscriberBufferSize ≤ initial + excess
        obtain nothing | ⟨one, full⟩ := evicted
        · rw [List.length_eq_zero_iff.mp nothing, List.append_nil]
          exact lost
        · -- all slots are taken: this message's credit is one beyond them
          right
          rw [List.length_append, one]
          omega

theorem covered_receive (covered : Covered initial excess state) (fault : Option String) :
    Covered initial excess (state.receive fault) := by
  obtain ⟨balanced, count, spent, credited, lost⟩ := covered
  have same := IpcConnection.receive_port fault state.receiver
  unfold State.receive
  cases received : state.receiver.receive fault with
  | none => exact ⟨balanced, count, spent, credited, lost⟩
  | some outcome =>
    obtain ⟨result, receiver⟩ := outcome
    rw [received, Option.map_some] at same
    cases result with
    | error error =>
      obtain waits | ⟨error', fails⟩ | ⟨message, port, takes, _⟩ := balanced.receive fault
      · cases same.trans waits
      · -- a receive that fails leaves the port as it was
        have after := (Prod.mk.inj (Option.some.inj (same.trans fails))).2
        have items : receiver.subscriber.items = state.receiver.subscriber.items :=
          congrArg (fun port : SlotPort ipcFormat => port.subscriber.items) after
        refine ⟨?_, ?_, spent, credited, lost⟩
        · show receiver.port.Balanced _ _
          rw [after]
          exact balanced
        · show state.sent.length = state.received.length + receiver.subscriber.items.length + _
          rw [items]
          exact count
      · cases same.trans takes
    | ok message =>
      obtain ⟨_, _, frame, rest, popped, _, after⟩ := IpcConnection.receive_eq_some_ok.mp received
      obtain waits | ⟨error', fails⟩ | ⟨message', port, takes, balanced'⟩ := balanced.receive fault
      · cases same.trans waits
      · cases same.trans fails
      · obtain ⟨equal, port'⟩ := Prod.mk.inj (Option.some.inj (same.trans takes))
        cases equal
        have items := SlotBuffer.pop_eq_some.mp popped
        refine ⟨?_, ?_, spent, credited, lost⟩
        · show receiver.port.Balanced _ _
          rw [port']
          exact balanced'
        · subst after
          simp only [items, List.length_append, List.length_cons, List.length_nil] at count ⊢
          omega

theorem covered_reply (covered : Covered initial excess state) {message : Message}
    (produced : message.Produced) (credits : UInt16) (fault : Option PublishFault) :
    Covered initial excess (state.reply message credits fault) := by
  obtain ⟨balanced, count, spent, ⟨replies, replyFrames, balance⟩, lost⟩ := covered
  unfold State.reply
  cases published : state.receiver.send fault (message.setCreditGrant credits) with
  | error error => exact ⟨balanced, count, spent, ⟨replies, replyFrames, balance⟩, lost⟩
  | ok frame =>
    obtain ⟨_, made, _⟩ := IpcConnection.send_eq_ok.mp published
    have valid : (message.setCreditGrant credits).Valid := produced.valid.set (.creditGrant credits)
    obtain ⟨read, _⟩ := IpcFrame.toMessage_ofMessage valid made
    -- the reply joins the ones in flight; an overflow only loses credits
    have joined := List.rel_append replyFrames (.cons read .nil)
    have total : grants (replies ++ [message.setCreditGrant credits]) =
        grants replies + credits.toNat := by
      rw [grants_append]
      rfl
    have kept := grants_drop_le (replies ++ [message.setCreditGrant credits])
      (state.sender.subscriber.items.length + 1 - subscriberBufferSize)
    refine ⟨balanced, count, spent, ⟨_, List.forall₂_drop _ joined, ?_⟩, lost⟩
    simp only at balance ⊢
    omega

theorem covered_receiveReply (covered : Covered initial excess state) (fault : Option String) :
    Covered initial excess (state.receiveReply fault) := by
  obtain ⟨balanced, count, spent, ⟨replies, replyFrames, balance⟩, lost⟩ := covered
  unfold State.receiveReply
  obtain waits | ⟨error, fails⟩ | ⟨message, rest, sender, received, rfl, replyFrames', _⟩ :=
    replyFrames.receive fault
  · rw [waits]
    exact ⟨balanced, count, spent, ⟨replies, replyFrames, balance⟩, lost⟩
  · rw [fails]
    exact ⟨balanced, count, spent, ⟨replies, replyFrames, balance⟩, lost⟩
  · rw [received]
    have total : grants (message :: rest) = message.header.creditGrant.toNat + grants rest := rfl
    have added := state.credit.replenish_le message.header.creditGrant
    simp only
    split
    · refine ⟨balanced, count, spent, ⟨rest, replyFrames', ?_⟩, lost⟩
      simp only
      omega
    · refine ⟨balanced, count, spent, ⟨rest, replyFrames', ?_⟩, lost⟩
      simp only
      omega

theorem covered_next (covered : Covered initial excess state)
    (within : state.granted ≤ state.received.length + excess) (event : Event) :
    Covered initial excess (state.next event) := by
  cases event with
  | send message fault => exact covered_send covered within message.2 fault
  | receive fault => exact covered_receive covered fault
  | reply message credits fault => exact covered_reply covered message.2 credits fault
  | receiveReply fault => exact covered_receiveReply covered fault
  | closeSender =>
    obtain ⟨balanced, count, spent, credited, lost⟩ := covered
    exact ⟨balanced, count, spent, credited, lost⟩
  | closeReceiver =>
    obtain ⟨balanced, count, spent, credited, lost⟩ := covered
    exact ⟨balanced.close, count, spent, credited, lost⟩

/-! ## Whole runs -/

theorem covered_start (initialCredits : UInt16) :
    Covered initialCredits.toNat excess (.start initialCredits) where
  balanced := SlotPort.balanced_opened
  count := rfl
  spent := Nat.le_refl _
  credited := ⟨[], IpcConnection.unread_opened, by simp [State.start, CreditController.new, grants]⟩
  lost := .inl rfl

theorem covered_run (covered : Covered initial excess state) {events : List Event}
    (within : state.GrantsBeyond excess events) :
    Covered initial excess (state.run events) ∧
      (state.run events).granted ≤ (state.run events).received.length + excess := by
  induction events generalizing state with
  | nil => exact ⟨covered, within⟩
  | cons event events ih => exact ih (covered_next covered within.1 event) within.2

theorem grantsBeyond_zero (events : List Event) : state.GrantsBeyond 0 events ↔ state.GrantsWithin events := by
  induction events generalizing state with
  | nil => simp [State.GrantsBeyond, State.GrantsWithin]
  | cons event events ih => simp [State.GrantsBeyond, State.GrantsWithin, ih]

/-! ## The worst run -/

section Worst

variable {message : {message : Message // message.Produced}} {frame : IpcFrame}

/-- A send that is published: one credit less, one frame more, the oldest lost if all slots are
taken. -/
theorem send_published (made : IpcFrame.ofMessage message.1 = .ok frame)
    (isOpen : state.sender.closed = false) (credit : 0 < state.credit.available.toNat) :
    (state.next (.send message none)).sender = state.sender ∧
      (state.next (.send message none)).credit.available.toNat + 1 = state.credit.available.toNat ∧
      (state.next (.send message none)).receiver = state.receiver.deliver frame ∧
      (state.next (.send message none)).granted = state.granted ∧
      (state.next (.send message none)).received = state.received ∧
      (state.next (.send message none)).overwritten =
        state.overwritten ++ state.receiver.subscriber.evicted frame := by
  have published : state.sender.send none message.1 = .ok frame :=
    IpcConnection.send_eq_ok.mpr ⟨isOpen, made, rfl⟩
  show (state.send message.1 none).sender = _ ∧ _
  cases acquired : state.credit.acquire with
  | error error =>
    have some : state.credit.available ≠ 0 := by
      intro zero
      rw [zero] at credit
      exact absurd credit (by decide)
    simp [CreditController.acquire, some] at acquired
  | ok controller =>
    have taken := CreditController.acquire_eq_ok acquired
    simp [State.next, State.send, acquired, published, taken]

/-- Sending without a receive: what does not fit the slots is lost, one message for each send. -/
theorem sends_lose (made : IpcFrame.ofMessage message.1 = .ok frame) (count : Nat)
    (isOpen : state.sender.closed = false) (credits : count ≤ state.credit.available.toNat)
    (within : state.granted ≤ state.received.length) :
    state.GrantsWithin (List.replicate count (.send message none)) ∧
      (state.run (List.replicate count (.send message none))).overwritten.length =
        state.overwritten.length +
          (state.receiver.subscriber.items.length + count - subscriberBufferSize) := by
  induction count generalizing state with
  | zero =>
    have bounded := state.receiver.subscriber.bounded
    refine ⟨within, ?_⟩
    show state.overwritten.length = _
    omega
  | succ count ih =>
    obtain ⟨sender, credit, receiver, granted, received, overwritten⟩ :=
      @send_published state message frame made isOpen (by omega)
    obtain ⟨total, evicted⟩ := evicted_length state.receiver.subscriber frame
    have bounded := state.receiver.subscriber.bounded
    have after := (state.receiver.subscriber.push frame).bounded
    have items : (state.next (.send message none)).receiver.subscriber.items =
        (state.receiver.subscriber.push frame).items := by
      rw [receiver]
      rfl
    obtain ⟨rest, losses⟩ := @ih (state.next (.send message none)) (by rw [sender]; exact isOpen)
      (by omega) (by rw [granted, received]; exact within)
    refine ⟨⟨within, rest⟩, ?_⟩
    show ((state.next (.send message none)).run _).overwritten.length = _
    rw [losses, overwritten, items, List.length_append]
    omega

end Worst

/-- What is lost over runs of a window of `initialCredits`: with a receiver that never grants more
than `excess` credits beyond its receptions, credits, unread messages and losses together stay
within the window; nothing else is lost, reordered or invented; and without an excess the
worst run loses exactly the credits that exceed the slots. -/
theorem loss (initialCredits : UInt16) :
    (∀ excess events, (State.start initialCredits).GrantsBeyond excess events →
      let state := (State.start initialCredits).run events
      state.receiver.port.Balanced state.sent state.received ∧
        state.sent.length =
          state.received.length + state.receiver.subscriber.items.length + state.overwritten.length ∧
        state.credit.available.toNat + state.receiver.subscriber.items.length +
          state.overwritten.length ≤ initialCredits.toNat + excess ∧
        state.overwritten.length ≤ initialCredits.toNat + excess - subscriberBufferSize) ∧
    IsGreatest
      {lost | ∃ events, (State.start initialCredits).GrantsWithin events ∧
        ((State.start initialCredits).run events).overwritten.length = lost}
      (initialCredits.toNat - subscriberBufferSize) := by
  have bound : ∀ excess events, (State.start initialCredits).GrantsBeyond excess events →
      Covered initialCredits.toNat excess ((State.start initialCredits).run events) ∧
        ((State.start initialCredits).run events).granted ≤
          ((State.start initialCredits).run events).received.length + excess :=
    fun excess events within => covered_run (covered_start initialCredits) within
  have lostLe : ∀ {excess state}, Covered initialCredits.toNat excess state →
      state.overwritten.length ≤ initialCredits.toNat + excess - subscriberBufferSize := by
    intro excess state covered
    obtain none | some := covered.lost
    · simp [none]
    · omega
  refine ⟨?_, ?_, ?_⟩
  · intro excess events within
    obtain ⟨covered, granted⟩ := bound excess events within
    obtain ⟨replies, _, balance⟩ := covered.credited
    have spent := covered.spent
    have count := covered.count
    exact ⟨covered.balanced, count, by omega, lostLe covered⟩
  · -- some run loses as much: all credits are spent before the first receive
    obtain ⟨request, made⟩ :=
      Option.isSome_iff_exists.mp (show (skillRequest 7 .raw .normal [1, 2]).isSome by decide)
    have produced : request.Produced := ⟨request, [], .skillRequest made, rfl⟩
    have fits : request.payload.length ≤ maxIpcPayloadLen.toNat := by
      rw [(Message.new_eq_some made).2.2.2]
      decide
    obtain ⟨frame, encoded, _⟩ := IpcFrame.ofMessage_eq_ok produced.valid fits
    obtain ⟨within, losses⟩ := @sends_lose (.start initialCredits) ⟨request, produced⟩ _
      encoded initialCredits.toNat rfl (Nat.le_refl _) (Nat.le_refl _)
    refine ⟨_, within, ?_⟩
    rw [losses]
    show [].length + ([].length + initialCredits.toNat - subscriberBufferSize) = _
    simp
  · intro lost found
    obtain ⟨events, within, rfl⟩ := found
    have limit := lostLe (bound 0 events ((grantsBeyond_zero events).mpr within)).1
    omega

end CreditWindow

end Laic
