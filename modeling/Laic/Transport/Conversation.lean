import Laic.Transport.Framing

/-! # Two parties that send and receive

A party's program is a list of sends and receives over one connection.  The two programs run byte by
byte and in any interleaving, so that a party may read the header of a frame whose payload is not yet
written, and both may write at once.  What they make of it is decided by the lists alone
(`conversation_end`): whole messages move between two queues. -/

namespace Laic

open Async (Advances)
open Duplex (Run Final)

/-- A call on an open connection. -/
inductive DataCall where
  | send (message : Message)
  | receive

/-- The messages that the calls send. -/
def DataCall.sent : List DataCall → List Message
  | [] => []
  | .send message :: calls => message :: sent calls
  | .receive :: calls => sent calls

/-- The number of messages that the calls receive. -/
def DataCall.receives : List DataCall → Nat
  | [] => 0
  | .send _ :: calls => receives calls
  | .receive :: calls => receives calls + 1

/-- The messages are valid, and each fits a frame. -/
def FitFrame (messages : List Message) : Prop :=
  ∀ message ∈ messages, message.Valid ∧ message.payload.length ≤ maxPayloadLen.toNat

/-- One call after the other, up to the first that fails; the messages that were received. -/
def converse {ε : Type} (translate : LaicError → ε) : List DataCall → Async ε (List Message)
  | [] => pure []
  | .send message :: calls => do
    (writeFrame message).mapError translate
    converse translate calls
  | .receive :: calls => do
    let message ← readFrame.mapError translate
    let messages ← converse translate calls
    return message :: messages

/-- Whether two lists of calls can be carried out against each other, with so many messages already on
their way to either party. -/
def completes : List DataCall → List DataCall → Nat → Nat → Bool
  | .send _ :: calls, calls', toRight, toLeft => completes calls calls' (toRight + 1) toLeft
  | calls, .send _ :: calls', toRight, toLeft => completes calls calls' toRight (toLeft + 1)
  | .receive :: calls, calls', toRight, toLeft + 1 => completes calls calls' toRight toLeft
  | calls, .receive :: calls', toRight + 1, toLeft => completes calls calls' toRight toLeft
  | [], [], _, _ => true
  | .receive :: _, [], _, 0 | [], .receive :: _, 0, _ | .receive :: _, .receive :: _, 0, 0 => false
termination_by calls calls' => calls.length + calls'.length

section Conversation

variable {ε : Type} (translate : LaicError → ε)

/-! ## One party -/

/-- A party in the middle of its calls, with the messages it has received. -/
def resume (translate : LaicError → ε) (received : List Message) (calls : List DataCall) :
    Async ε (List Message) :=
  converse translate calls >>= fun rest => .ret (.ok (received ++ rest))

/-- Before the first call nothing has been received. -/
theorem resume_nil (calls : List DataCall) : resume translate [] calls = converse translate calls :=
  Async.bind_pure _

theorem resume_send {message : Message} (valid : message.Valid)
    (bounded : message.payload.length ≤ maxPayloadLen.toNat) (received : List Message)
    (calls : List DataCall) :
    Advances (resume translate received (.send message :: calls))
      (List.replicate message.frame.length .write) [] message.frame (resume translate received calls) :=
  (((writeFrame_advances valid bounded).mapError translate).bind _).bind _

theorem resume_receive {message : Message} (valid : message.Valid)
    (bounded : message.payload.length ≤ maxPayloadLen.toNat) (received : List Message)
    (calls : List DataCall) :
    Advances (resume translate received (.receive :: calls))
      (List.replicate message.frame.length .read) message.frame []
      (resume translate (received ++ [message]) calls) := by
  have reads := (((readFrame_advances valid bounded).mapError translate).bind fun message => do
    let messages ← converse translate calls
    return message :: messages).bind fun rest => Async.ret (.ok (received ++ rest))
  have same : ((Async.ret (.ok message)).mapError translate >>= fun message => do
      let messages ← converse translate calls
      return message :: messages) >>= (fun rest => Async.ret (.ok (received ++ rest))) =
      resume translate (received ++ [message]) calls := by
    show (converse translate calls >>= fun messages => pure (message :: messages)) >>= _ = _
    rw [Async.bind_assoc, resume]
    simp
  rw [same] at reads
  exact reads

/-- A party that waits for the first byte of a header. -/
theorem resume_waits (received : List Message) (calls : List DataCall) :
    ∃ count next, resume translate received (.receive :: calls) = .readExact (count + 1) next ∧
      ∃ error, (next (.error .earlyEof)).settle = .ret (.error error) :=
  ⟨39, _, rfl, translate (receiveFailed .earlyEof), rfl⟩

/-! ## Both parties -/

/-- The two parties in the middle of their calls, with whole frames on their way. -/
def conversation (translate : LaicError → ε) (received received' : List Message)
    (calls calls' : List DataCall) (toRight toLeft : List Message) :
    Duplex ε (List Message) (List Message) :=
  ⟨(resume translate received calls).settle, (resume translate received' calls').settle,
    toRight.flatMap Message.frame, toLeft.flatMap Message.frame⟩

/-- How they end: whoever has carried out all its calls has received the other's messages from the
first on, and both have exactly if `allDone`. -/
structure Concluded (received received' : List Message) (calls calls' : List DataCall)
    (toRight toLeft : List Message) (allDone : Bool) (last : Duplex ε (List Message) (List Message)) :
    Prop where
  final : last.Final
  left : ∀ got, last.left = .ret (.ok got) →
    got = received ++ (toLeft ++ DataCall.sent calls').take (DataCall.receives calls)
  right : ∀ got, last.right = .ret (.ok got) →
    got = received' ++ (toRight ++ DataCall.sent calls).take (DataCall.receives calls')
  both : (∃ got got', last.left = .ret (.ok got) ∧ last.right = .ret (.ok got')) ↔ allDone = true

section Steps

variable {received received' toRight toLeft : List Message} {calls calls' : List DataCall}
  {allDone : Bool} {last : Duplex ε (List Message) (List Message)} {message : Message}

theorem Concluded.swap
    (concluded : Concluded received received' calls calls' toRight toLeft allDone last) :
    Concluded received' received calls' calls toLeft toRight allDone last.swap where
  final := concluded.final.swap
  left := concluded.right
  right := concluded.left
  both := by
    rw [← concluded.both]
    exact ⟨fun ⟨got, got', left, right⟩ => ⟨got', got, right, left⟩,
      fun ⟨got, got', left, right⟩ => ⟨got', got, right, left⟩⟩

theorem Concluded.of_send
    (concluded : Concluded received received' calls calls' (toRight ++ [message]) toLeft allDone last) :
    Concluded received received' (.send message :: calls) calls' toRight toLeft allDone last := by
  refine ⟨concluded.final, concluded.left, fun got done => ?_, concluded.both⟩
  simpa [DataCall.sent] using concluded.right got done

theorem Concluded.of_receive
    (concluded : Concluded (received ++ [message]) received' calls calls' toRight toLeft allDone last) :
    Concluded received received' (.receive :: calls) calls' toRight (message :: toLeft) allDone last := by
  refine ⟨concluded.final, fun got done => ?_, concluded.right, concluded.both⟩
  simpa [DataCall.receives] using concluded.left got done

/-- The left party's send puts one frame on the way. -/
theorem conversation_sends (valid : message.Valid)
    (bounded : message.payload.length ≤ maxPayloadLen.toNat) :
    Run (List.replicate message.frame.length .write) []
      (conversation translate received received' (.send message :: calls) calls' toRight toLeft)
      (conversation translate received received' calls calls' (toRight ++ [message]) toLeft) := by
  have sends := Run.left_advances (resume_send translate valid bounded received calls)
    (resume translate received' calls').settle (toRight.flatMap Message.frame)
    (toLeft.flatMap Message.frame)
  simpa [conversation] using sends

theorem conversation_receives (valid : message.Valid)
    (bounded : message.payload.length ≤ maxPayloadLen.toNat) :
    Run (List.replicate message.frame.length .read) []
      (conversation translate received received' (.receive :: calls) calls' toRight (message :: toLeft))
      (conversation translate (received ++ [message]) received' calls calls' toRight toLeft) := by
  have reads := Run.left_advances (resume_receive translate valid bounded received calls)
    (resume translate received' calls').settle (toRight.flatMap Message.frame)
    (toLeft.flatMap Message.frame)
  simpa [conversation] using reads

/-- A party that waits for another that is done ends with an error. -/
theorem conversation_ends (calls : List DataCall) (received received' toRight : List Message) :
    ∃ lefts rights last,
      Run lefts rights (conversation translate received received' (.receive :: calls) [] toRight []) last ∧
        Concluded received received' (.receive :: calls) [] toRight [] false last := by
  obtain ⟨count, next, waits, error, fails⟩ := resume_waits translate received calls
  have ends := Run.left_eof count next (Except.ok (received' ++ []) : Except ε (List Message))
    (toRight.flatMap Message.frame)
  rw [fails] at ends
  refine ⟨[.eof], [], ⟨.ret (.error error), .ret (.ok (received' ++ [])), toRight.flatMap Message.frame, []⟩,
    ?_, .of_done rfl rfl, nofun, ?_, ?_⟩
  · rw [conversation, waits]
    exact ends
  · intro got done
    cases done
    simp [DataCall.receives]
  · simp

/-- Two parties that both wait wait forever. -/
theorem conversation_waits (calls calls' : List DataCall) (received received' : List Message) :
    ∃ lefts rights last,
      Run lefts rights
        (conversation translate received received' (.receive :: calls) (.receive :: calls') [] []) last ∧
        Concluded received received' (.receive :: calls) (.receive :: calls') [] [] false last := by
  obtain ⟨count, next, waits, -⟩ := resume_waits translate received calls
  obtain ⟨count', next', waits', -⟩ := resume_waits translate received' calls'
  refine ⟨[], [], _, .refl, ?_⟩
  rw [conversation, waits, waits']
  exact ⟨⟨rfl, rfl⟩, nofun, nofun, by simp [Async.settle]⟩

end Steps

/-- One schedule that is carried on until neither party can move: by induction on what is left of the
two lists, a send first wherever there is one. -/
theorem conversation_end (calls calls' : List DataCall) (toRight toLeft received received' : List Message)
    (fit : FitFrame (DataCall.sent calls)) (fit' : FitFrame (DataCall.sent calls'))
    (fitRight : FitFrame toRight) (fitLeft : FitFrame toLeft) :
    ∃ lefts rights last,
      Run lefts rights (conversation translate received received' calls calls' toRight toLeft) last ∧
        Concluded received received' calls calls' toRight toLeft
          (completes calls calls' toRight.length toLeft.length) last := by
  generalize isRight : toRight.length = countRight
  generalize isLeft : toLeft.length = countLeft
  fun_induction completes calls calls' countRight countLeft generalizing toRight toLeft received received' with
  | case1 message calls calls' countRight countLeft ih =>
    obtain ⟨⟨valid, bounded⟩, fit⟩ := List.forall_mem_cons.mp fit
    obtain ⟨lefts, rights, last, run, concluded⟩ := ih (toRight ++ [message]) toLeft received received'
      fit fit' (List.forall_mem_append.mpr ⟨fitRight, by simpa using ⟨valid, bounded⟩⟩) fitLeft
      (by simp [isRight]) isLeft
    exact ⟨_, _, last, (conversation_sends translate valid bounded).trans run, concluded.of_send⟩
  | case2 calls message calls' countRight countLeft _ ih =>
    obtain ⟨⟨valid, bounded⟩, fit'⟩ := List.forall_mem_cons.mp fit'
    obtain ⟨lefts, rights, last, run, concluded⟩ := ih toRight (toLeft ++ [message]) received received'
      fit fit' fitRight (List.forall_mem_append.mpr ⟨fitLeft, by simpa using ⟨valid, bounded⟩⟩)
      isRight (by simp [isLeft])
    exact ⟨_, _, last, (conversation_sends translate valid bounded).swap.trans run, concluded.swap.of_send.swap⟩
  | case3 calls calls' countRight countLeft _ ih =>
    cases toLeft with
    | nil => cases isLeft
    | cons message toLeft =>
      obtain ⟨⟨valid, bounded⟩, fitLeft⟩ := List.forall_mem_cons.mp fitLeft
      obtain ⟨lefts, rights, last, run, concluded⟩ := ih toRight toLeft (received ++ [message]) received'
        fit fit' fitRight fitLeft isRight (by simpa using isLeft)
      exact ⟨_, _, last, (conversation_receives translate valid bounded).trans run, concluded.of_receive⟩
  | case4 calls calls' countRight countLeft _ _ ih =>
    cases toRight with
    | nil => cases isRight
    | cons message toRight =>
      obtain ⟨⟨valid, bounded⟩, fitRight⟩ := List.forall_mem_cons.mp fitRight
      obtain ⟨lefts, rights, last, run, concluded⟩ := ih toRight toLeft received (received' ++ [message])
        fit fit' fitRight fitLeft (by simpa using isRight) isLeft
      exact ⟨_, _, last, (conversation_receives translate valid bounded).swap.trans run,
        concluded.swap.of_receive.swap⟩
  | case5 countRight countLeft =>
    refine ⟨[], [], _, .refl, .of_done rfl rfl, ?_, ?_, ?_⟩
    · intro got done
      cases done
      simp [DataCall.receives]
    · intro got done
      cases done
      simp [DataCall.receives]
    · exact ⟨fun _ => rfl, fun _ => ⟨_, _, rfl, rfl⟩⟩
  | case6 calls countRight =>
    obtain rfl := List.length_eq_zero_iff.mp isLeft
    exact conversation_ends translate calls received received' toRight
  | case7 calls' countLeft =>
    obtain rfl := List.length_eq_zero_iff.mp isRight
    obtain ⟨lefts, rights, last, run, concluded⟩ :=
      conversation_ends translate calls' received' received toLeft
    exact ⟨rights, lefts, last.swap, run.swap, concluded.swap⟩
  | case8 calls calls' =>
    obtain rfl := List.length_eq_zero_iff.mp isRight
    obtain rfl := List.length_eq_zero_iff.mp isLeft
    exact conversation_waits translate calls calls' received received'

end Conversation

end Laic
