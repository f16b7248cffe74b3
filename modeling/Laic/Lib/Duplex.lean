import Laic.Lib.Async

/-! # Two programs over one reliable connection

A `Duplex` is two programs joined by two first-in first-out pipes that lose, add and
reorder nothing.  Either party moves one byte at a time, in any interleaving; a party
that reads from an empty pipe waits, and meets the end of the stream once its peer has
returned.

Steps of different parties commute (`diamond`), so a connection has at most one final
state and every run is a prefix of one that reaches it (`Run.extends`).  A result about
all interleavings is therefore proved on the one schedule that is easiest to follow,
which `Run.left_advances` and `Run.right_advances` assemble from facts about each
program alone. -/

/-- What a party does in a step. -/
inductive IoEvent where
  | write
  | read
  | eof
  deriving DecidableEq, Repr

namespace Async

variable {ε ε' α β : Type}

/-- Pass the writes and reads of no bytes: they complete without waiting. -/
def settle : Async ε α → Async ε α
  | .writeAll [] next => (next (.ok ())).settle
  | .readExact 0 next => (next (.ok [])).settle
  | program => program

def isDone : Async ε α → Bool
  | .ret _ => true
  | _ => false

/-- One byte moved by a settled program: the action, what remains of the program and of
its input, and the bytes written. -/
def step (peerDone : Bool) (program : Async ε α) (input : List UInt8) :
    Option (IoEvent × Async ε α × List UInt8 × List UInt8) :=
  match program, input with
  | .writeAll (byte :: bytes) next, input =>
    some (.write, (Async.writeAll bytes next).settle, input, [byte])
  | .readExact (count + 1) next, byte :: input =>
    some (.read, (Async.readExact count fun outcome => next (outcome.map (byte :: ·))).settle,
      input, [])
  | .readExact (_ + 1) next, [] =>
    if peerDone then some (.eof, (next (.error .earlyEof)).settle, [], []) else none
  | _, _ => none

theorem step_done (peerDone : Bool) (result : Except ε α) (input : List UInt8) :
    (Async.ret result).step peerDone input = none := by
  simp [step]

theorem isDone_of_step {peerDone : Bool} {program : Async ε α} {input : List UInt8}
    {outcome : IoEvent × Async ε α × List UInt8 × List UInt8}
    (moved : program.step peerDone input = some outcome) : program.isDone = false := by
  cases program with
  | ret result => simp [step] at moved
  | writeAll bytes next => rfl
  | readExact count next => rfl

/-- What a party can do before its peer is done it can do whatever else arrives. -/
theorem step_mono {program next : Async ε α} {input input' output : List UInt8} {action : IoEvent}
    (moved : program.step false input = some (action, next, input', output))
    (peerDone : Bool) (more : List UInt8) :
    program.step peerDone (input ++ more) = some (action, next, input' ++ more, output) := by
  cases program with
  | ret result => simp [step] at moved
  | writeAll bytes _ =>
    cases bytes with
    | nil => simp [step] at moved
    | cons byte bytes =>
      simp only [step, Option.some.injEq, Prod.mk.injEq] at moved ⊢
      obtain ⟨rfl, rfl, rfl, rfl⟩ := moved
      exact ⟨rfl, rfl, rfl, rfl⟩
  | readExact count _ =>
    cases count with
    | zero => simp [step] at moved
    | succ count =>
      cases input with
      | nil => simp [step] at moved
      | cons byte input =>
        simp only [step, Option.some.injEq, Prod.mk.injEq, List.cons_append] at moved ⊢
        obtain ⟨rfl, rfl, rfl, rfl⟩ := moved
        exact ⟨rfl, rfl, rfl, rfl⟩

theorem step_input_length {peerDone : Bool} {program next : Async ε α}
    {input input' output : List UInt8} {action : IoEvent}
    (moved : program.step peerDone input = some (action, next, input', output)) :
    input.length = input'.length + if action = .read then 1 else 0 := by
  unfold step at moved
  split at moved
  · cases moved; rfl
  · cases moved; rfl
  · split at moved <;> cases moved
    rfl
  · cases moved

theorem step_written_length {peerDone : Bool} {program next : Async ε α}
    {input input' output : List UInt8} {action : IoEvent}
    (moved : program.step peerDone input = some (action, next, input', output)) :
    output.length = if action = .write then 1 else 0 := by
  unfold step at moved
  split at moved
  · cases moved; rfl
  · cases moved; rfl
  · split at moved <;> cases moved
    rfl
  · cases moved

/-! ## One program alone -/

/-- `Advances program trace input output program'`: given `input`, `program` gets to
`program'` having consumed all of it and written `output`. -/
inductive Advances : Async ε α → List IoEvent → List UInt8 → List UInt8 → Async ε α → Prop
  | refl {program} : Advances program [] [] [] program
  | writeAll {bytes next trace input output program} :
      Advances (next (.ok ())) trace input output program →
      Advances (.writeAll bytes next) (List.replicate bytes.length .write ++ trace) input
        (bytes ++ output) program
  | readExact {bytes next trace input output program} :
      Advances (next (.ok bytes)) trace input output program →
      Advances (.readExact bytes.length next) (List.replicate bytes.length .read ++ trace)
        (bytes ++ input) output program

theorem Advances.trans {first second third : Async ε α} {trace trace' : List IoEvent}
    {input input' output output' : List UInt8}
    (head : Advances first trace input output second)
    (tail : Advances second trace' input' output' third) :
    Advances first (trace ++ trace') (input ++ input') (output ++ output') third := by
  induction head with
  | refl => exact tail
  | writeAll _ ih => simpa using Advances.writeAll (ih tail)
  | readExact _ ih => simpa using Advances.readExact (ih tail)

/-- First all the input, then all the output. -/
theorem Advances.request_response {first second third : Async ε α} {trace trace' : List IoEvent}
    {input output : List UInt8} (request : Advances first trace input [] second)
    (response : Advances second trace' [] output third) :
    Advances first (trace ++ trace') input output third := by
  simpa using request.trans response

theorem Advances.bind {first last : Async ε α} {trace : List IoEvent} {input output : List UInt8}
    (advances : Advances first trace input output last) (next : α → Async ε β) :
    Advances (first >>= next) trace input output (last >>= next) := by
  induction advances with
  | refl => exact .refl
  | writeAll _ ih => exact .writeAll ih
  | readExact _ ih => exact .readExact ih

theorem Advances.mapError {first last : Async ε α} {trace : List IoEvent}
    {input output : List UInt8} (advances : Advances first trace input output last)
    (translate : ε → ε') :
    Advances (first.mapError translate) trace input output (last.mapError translate) := by
  induction advances with
  | refl => exact .refl
  | writeAll _ ih => exact .writeAll ih
  | readExact _ ih => exact .readExact ih

theorem Advances.write (bytes : List UInt8) :
    Advances (Async.write bytes) (List.replicate bytes.length .write) [] bytes (.ret (.ok ())) := by
  have writes : Advances (.writeAll bytes .ret) _ [] _ (Async.ret (.ok ())) := .writeAll .refl
  simpa [Async.write] using writes

theorem Advances.read (bytes : List UInt8) :
    Advances (Async.read bytes.length) (List.replicate bytes.length .read) bytes []
      (.ret (.ok bytes)) := by
  have reads : Advances (.readExact bytes.length .ret) _ _ [] (Async.ret (.ok bytes)) :=
    .readExact .refl
  simpa [Async.read] using reads

end Async

/-- Two programs and the bytes in flight between them. -/
structure Duplex (ε α β : Type) where
  left : Async ε α
  right : Async ε β
  toRight : List UInt8
  toLeft : List UInt8

namespace Duplex

variable {ε α β : Type}

/-- A connection on which nothing has been written yet. -/
def connect (left : Async ε α) (right : Async ε β) : Duplex ε α β :=
  ⟨left.settle, right.settle, [], []⟩

def swap (state : Duplex ε α β) : Duplex ε β α :=
  ⟨state.right, state.left, state.toLeft, state.toRight⟩

def leftStep (state : Duplex ε α β) : Option (IoEvent × Duplex ε α β) :=
  (state.left.step state.right.isDone state.toLeft).map fun (action, left, toLeft, written) =>
    (action, ⟨left, state.right, state.toRight ++ written, toLeft⟩)

def rightStep (state : Duplex ε α β) : Option (IoEvent × Duplex ε α β) :=
  state.swap.leftStep.map fun (action, next) => (action, next.swap)

@[simp] theorem swap_swap (state : Duplex ε α β) : state.swap.swap = state := rfl

/-- No party can move. -/
def Final (state : Duplex ε α β) : Prop := state.leftStep = none ∧ state.rightStep = none

/-- A run, with the actions of each party in order and no record of how they were
interleaved. -/
inductive Run : List IoEvent → List IoEvent → Duplex ε α β → Duplex ε α β → Prop
  | refl {state} : Run [] [] state state
  | left {action state next lefts rights last} : leftStep state = some (action, next) →
      Run lefts rights next last → Run (action :: lefts) rights state last
  | right {action state next lefts rights last} : rightStep state = some (action, next) →
      Run lefts rights next last → Run lefts (action :: rights) state last

/-! ## Confluence -/

theorem leftStep_eq_some {state next : Duplex ε α β} {action : IoEvent} :
    state.leftStep = some (action, next) ↔ ∃ left toLeft written,
      state.left.step state.right.isDone state.toLeft = some (action, left, toLeft, written) ∧
        next = ⟨left, state.right, state.toRight ++ written, toLeft⟩ := by
  simp only [leftStep, Option.map_eq_some_iff, Prod.mk.injEq]
  constructor
  · rintro ⟨⟨_, left, toLeft, written⟩, moved, rfl, rfl⟩
    exact ⟨left, toLeft, written, moved, rfl⟩
  · rintro ⟨left, toLeft, written, moved, rfl⟩
    exact ⟨_, moved, rfl, rfl⟩

theorem rightStep_eq_some_swap {state next : Duplex ε α β} {action : IoEvent} :
    state.rightStep = some (action, next) ↔ state.swap.leftStep = some (action, next.swap) := by
  simp only [rightStep, Option.map_eq_some_iff, Prod.mk.injEq]
  constructor
  · rintro ⟨⟨_, _⟩, moved, rfl, rfl⟩
    exact moved
  · intro moved
    exact ⟨_, moved, rfl, rfl⟩

theorem rightStep_eq_some {state next : Duplex ε α β} {action : IoEvent} :
    state.rightStep = some (action, next) ↔ ∃ right toRight written,
      state.right.step state.left.isDone state.toRight = some (action, right, toRight, written) ∧
        next = ⟨state.left, right, toRight, state.toLeft ++ written⟩ := by
  rw [rightStep_eq_some_swap, leftStep_eq_some]
  constructor
  · rintro ⟨right, toRight, written, moved, equal⟩
    exact ⟨right, toRight, written, moved, congrArg swap equal⟩
  · rintro ⟨right, toRight, written, moved, rfl⟩
    exact ⟨right, toRight, written, moved, rfl⟩

/-- Steps of the two parties commute. -/
theorem diamond {state afterLeft afterRight : Duplex ε α β} {action action' : IoEvent}
    (leftMoved : state.leftStep = some (action, afterLeft))
    (rightMoved : state.rightStep = some (action', afterRight)) :
    ∃ both, afterLeft.rightStep = some (action', both) ∧
      afterRight.leftStep = some (action, both) := by
  obtain ⟨left, toLeft, written, moved, rfl⟩ := leftStep_eq_some.mp leftMoved
  obtain ⟨right, toRight, written', moved', rfl⟩ := rightStep_eq_some.mp rightMoved
  -- both parties move, so neither is done and neither meets the end of its stream
  have leftBusy := Async.isDone_of_step moved
  have rightBusy := Async.isDone_of_step moved'
  rw [rightBusy] at moved
  rw [leftBusy] at moved'
  refine ⟨⟨left, right, toRight ++ written, toLeft ++ written'⟩, ?_, ?_⟩
  · exact rightStep_eq_some.mpr ⟨_, _, _, Async.step_mono moved' _ written, rfl⟩
  · exact leftStep_eq_some.mpr ⟨_, _, _, Async.step_mono moved _ written', rfl⟩

theorem Run.swap {lefts rights : List IoEvent} {state last : Duplex ε α β}
    (run : Run lefts rights state last) : Run rights lefts state.swap last.swap := by
  induction run with
  | refl => exact .refl
  | left moved _ ih =>
    exact .right (rightStep_eq_some_swap.mpr (by rw [swap_swap, swap_swap]; exact moved)) ih
  | right moved _ ih => exact .left (rightStep_eq_some_swap.mp moved) ih

theorem Run.trans {lefts rights lefts' rights' : List IoEvent} {first second third : Duplex ε α β}
    (head : Run lefts rights first second) (tail : Run lefts' rights' second third) :
    Run (lefts ++ lefts') (rights ++ rights') first third := by
  induction head with
  | refl => exact tail
  | left moved _ ih => exact .left moved (ih tail)
  | right moved _ ih => exact .right moved (ih tail)

theorem Final.swap {state : Duplex ε α β} (final : state.Final) : state.swap.Final := by
  obtain ⟨leftStuck, rightStuck⟩ := final
  refine ⟨Option.map_eq_none_iff.mp rightStuck, ?_⟩
  rw [rightStep, Option.map_eq_none_iff]
  exact leftStuck

/-- A run to a final state contains every step that could be made first. -/
theorem Run.left_first {lefts rights : List IoEvent} {state next last : Duplex ε α β}
    {action : IoEvent} (run : Run lefts rights state last) (final : last.Final)
    (moved : state.leftStep = some (action, next)) :
    ∃ lefts', lefts = action :: lefts' ∧ Run lefts' rights next last := by
  induction run generalizing next with
  | refl =>
    rw [final.1] at moved
    cases moved
  | left moved' rest =>
    rw [moved] at moved'
    cases moved'
    exact ⟨_, rfl, rest⟩
  | right moved' _ ih =>
    obtain ⟨both, right, left⟩ := diamond moved moved'
    obtain ⟨lefts', equal, rest⟩ := ih final left
    exact ⟨lefts', equal, .right right rest⟩

theorem Run.right_first {lefts rights : List IoEvent} {state next last : Duplex ε α β}
    {action : IoEvent} (run : Run lefts rights state last) (final : last.Final)
    (moved : state.rightStep = some (action, next)) :
    ∃ rights', rights = action :: rights' ∧ Run lefts rights' next last := by
  obtain ⟨rights', equal, rest⟩ := run.swap.left_first final.swap (rightStep_eq_some_swap.mp moved)
  exact ⟨rights', equal, rest.swap⟩

/-- If one run reaches a final state, every run is a prefix of one that reaches it. -/
theorem Run.extends {lefts rights lefts' rights' : List IoEvent} {state last other : Duplex ε α β}
    (run : Run lefts rights state last) (final : last.Final)
    (run' : Run lefts' rights' state other) :
    ∃ leftRest rightRest, lefts = lefts' ++ leftRest ∧ rights = rights' ++ rightRest ∧
      Run leftRest rightRest other last := by
  induction run' generalizing lefts rights with
  | refl => exact ⟨lefts, rights, rfl, rfl, run⟩
  | left moved _ ih =>
    obtain ⟨_, rfl, rest⟩ := run.left_first final moved
    obtain ⟨leftRest, rightRest, rfl, rfl, remaining⟩ := ih rest
    exact ⟨leftRest, rightRest, rfl, rfl, remaining⟩
  | right moved _ ih =>
    obtain ⟨_, rfl, rest⟩ := run.right_first final moved
    obtain ⟨leftRest, rightRest, rfl, rfl, remaining⟩ := ih rest
    exact ⟨leftRest, rightRest, rfl, rfl, remaining⟩

theorem Run.nil_eq {state last : Duplex ε α β} (run : Run [] [] state last) : state = last := by
  cases run
  rfl

/-- A party that has returned makes no further step. -/
theorem Run.left_done {lefts rights : List IoEvent} {state last : Duplex ε α β}
    {result : Except ε α} (run : Run lefts rights state last) (done : state.left = .ret result) :
    lefts = [] ∧ last.left = .ret result := by
  induction run with
  | refl => exact ⟨rfl, done⟩
  | left moved _ _ => simp [leftStep, done, Async.step_done] at moved
  | right moved _ ih =>
    obtain ⟨_, _, _, _, rfl⟩ := rightStep_eq_some.mp moved
    exact ih done

theorem Run.right_done {lefts rights : List IoEvent} {state last : Duplex ε α β}
    {result : Except ε β} (run : Run lefts rights state last) (done : state.right = .ret result) :
    rights = [] ∧ last.right = .ret result :=
  run.swap.left_done done

/-- A run to a final state bounds the length of every run. -/
theorem Run.length_le {lefts rights lefts' rights' : List IoEvent} {state last other : Duplex ε α β}
    (run : Run lefts rights state last) (final : last.Final)
    (run' : Run lefts' rights' state other) :
    lefts'.length + rights'.length ≤ lefts.length + rights.length := by
  obtain ⟨leftRest, rightRest, rfl, rfl, _⟩ := run.extends final run'
  simp only [List.length_append]
  omega

/-- The final state is unique. -/
theorem Run.final_unique {lefts rights lefts' rights' : List IoEvent} {state last other : Duplex ε α β}
    (run : Run lefts rights state last) (final : last.Final)
    (run' : Run lefts' rights' state other) (final' : other.Final) : other = last := by
  obtain ⟨_, _, _, _, rest⟩ := run.extends final run'
  cases rest with
  | refl => rfl
  | left moved _ => rw [final'.1] at moved; cases moved
  | right moved _ => rw [final'.2] at moved; cases moved

theorem Final.of_done {state : Duplex ε α β} {leftResult : Except ε α} {rightResult : Except ε β}
    (left : state.left = .ret leftResult) (right : state.right = .ret rightResult) :
    state.Final := by
  obtain ⟨_, _, toRight, toLeft⟩ := state
  subst left right
  exact ⟨by simp [leftStep, Async.step_done], by simp [rightStep, leftStep, Duplex.swap, Async.step_done]⟩

/-! ## Bytes in flight -/

/-- No byte is lost or duplicated on the way to the left party. -/
theorem Run.toLeft_length {lefts rights : List IoEvent} {state last : Duplex ε α β}
    (run : Run lefts rights state last) :
    last.toLeft.length + lefts.count .read = state.toLeft.length + rights.count .write := by
  induction run with
  | refl => rfl
  | left moved _ ih =>
    obtain ⟨_, _, _, step, rfl⟩ := leftStep_eq_some.mp moved
    have conserved := Async.step_input_length step
    simp only at ih
    rw [List.count_cons]
    simp only [beq_iff_eq]
    omega
  | right moved _ ih =>
    obtain ⟨_, _, _, step, rfl⟩ := rightStep_eq_some.mp moved
    have conserved := Async.step_written_length step
    simp only [List.length_append] at ih
    rw [List.count_cons]
    simp only [beq_iff_eq]
    omega

/-- Where the right party's last action is a write and the left party has read
everything, the right party has returned whenever the left one has. -/
theorem Run.eq_of_left_done {lefts rights lefts' rights' : List IoEvent}
    {state last other : Duplex ε α β} {result : Except ε α}
    (run : Run lefts rights state last) (final : last.Final) (drained : last.toLeft = [])
    (lastWrite : rights.getLast? = some .write)
    (run' : Run lefts' rights' state other) (done : other.left = .ret result) : other = last := by
  obtain ⟨leftRest, rightRest, rfl, rfl, rest⟩ := run.extends final run'
  obtain ⟨rfl, _⟩ := rest.left_done done
  obtain rfl | ⟨earlier, action, rfl⟩ := List.eq_nil_or_concat rightRest
  · exact rest.nil_eq
  · -- the missing write would still be in flight at the end
    have conserved := rest.toLeft_length
    rw [List.concat_eq_append, ← List.append_assoc, List.getLast?_concat] at lastWrite
    cases lastWrite
    simp [drained, List.count_append] at conserved

/-! ## Schedules -/

theorem Run.left_writes (bytes : List UInt8) (next : Except IoFault Unit → Async ε α)
    (right : Async ε β) (toRight toLeft : List UInt8) :
    Run (List.replicate bytes.length .write) [] ⟨(Async.writeAll bytes next).settle, right, toRight, toLeft⟩
      ⟨(next (.ok ())).settle, right, toRight ++ bytes, toLeft⟩ := by
  induction bytes generalizing toRight with
  | nil =>
    rw [List.append_nil]
    exact .refl
  | cons byte bytes ih =>
    refine .left (leftStep_eq_some.mpr ⟨_, _, _, rfl, rfl⟩) ?_
    simpa using ih (toRight ++ [byte])

theorem Run.left_reads (bytes : List UInt8) (next : Except IoFault (List UInt8) → Async ε α)
    (right : Async ε β) (toRight toLeft : List UInt8) :
    Run (List.replicate bytes.length .read) []
      ⟨(Async.readExact bytes.length next).settle, right, toRight, bytes ++ toLeft⟩
      ⟨(next (.ok bytes)).settle, right, toRight, toLeft⟩ := by
  induction bytes generalizing next with
  | nil => exact .refl
  | cons byte bytes ih =>
    refine .left (leftStep_eq_some.mpr ⟨_, _, _, rfl, rfl⟩) ?_
    rw [List.append_nil]
    exact ih (fun outcome => next (outcome.map (byte :: ·)))

/-- The left party advances on what is in its pipe while the right one does nothing. -/
theorem Run.left_advances {program program' : Async ε α} {trace : List IoEvent}
    {input output : List UInt8} (advances : Async.Advances program trace input output program')
    (right : Async ε β) (toRight toLeft : List UInt8) :
    Run trace [] ⟨program.settle, right, toRight, input ++ toLeft⟩
      ⟨program'.settle, right, toRight ++ output, toLeft⟩ := by
  induction advances generalizing toRight with
  | refl => simpa using Run.refl
  | writeAll _ ih => simpa using (Run.left_writes _ _ right toRight _).trans (ih (toRight ++ _))
  | readExact _ ih => simpa using (Run.left_reads _ _ right toRight _).trans (ih toRight)

/-- A party that reads from a peer that has returned meets the end of the stream. -/
theorem Run.left_eof (count : Nat) (next : Except IoFault (List UInt8) → Async ε α)
    (result : Except ε β) (toRight : List UInt8) :
    Run [.eof] [] ⟨.readExact (count + 1) next, .ret result, toRight, []⟩
      ⟨(next (.error .earlyEof)).settle, .ret result, toRight, []⟩ := by
  refine .left (leftStep_eq_some.mpr ⟨_, _, _, rfl, rfl⟩) ?_
  rw [List.append_nil]
  exact .refl

theorem Run.right_eof (count : Nat) (next : Except IoFault (List UInt8) → Async ε β)
    (result : Except ε α) (toLeft : List UInt8) :
    Run [] [.eof] ⟨.ret result, .readExact (count + 1) next, [], toLeft⟩
      ⟨.ret result, (next (.error .earlyEof)).settle, [], toLeft⟩ :=
  (Run.left_eof count next result toLeft).swap

theorem Run.right_advances {program program' : Async ε β} {trace : List IoEvent}
    {input output : List UInt8} (advances : Async.Advances program trace input output program')
    (left : Async ε α) (toRight toLeft : List UInt8) :
    Run [] trace ⟨left, program.settle, input ++ toRight, toLeft⟩
      ⟨left, program'.settle, toRight, toLeft ++ output⟩ :=
  (Run.left_advances advances left toLeft toRight).swap

/-- One exchange: the left party writes a request, the right one reads it and writes a
response, the left one reads that. -/
theorem Run.exchange {client client' client'' : Async ε α} {server server' : Async ε β}
    {writes answers reads : List IoEvent} {request response : List UInt8}
    (sends : Async.Advances client writes [] request client')
    (serves : Async.Advances server answers request response server')
    (receives : Async.Advances client' reads response [] client'') :
    Run (writes ++ reads) answers (connect client server) ⟨client''.settle, server'.settle, [], []⟩ := by
  have sent := Run.left_advances sends server.settle [] []
  have served := Run.right_advances serves client'.settle [] []
  have received := Run.left_advances receives server'.settle [] []
  simp only [List.append_nil, List.nil_append] at sent served received
  simpa [connect] using sent.trans (served.trans received)

end Duplex
