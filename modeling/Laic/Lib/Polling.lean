import Laic.Lib.Duplex

/-! # Programs that are polled step by step

What is left of an async function while it waits at one of its awaits.  `Writes` is a
program that only writes known bytes, `Reads` one that only reads: it accepts known
bytes, and returns an error where the stream ends before them.  Both are kept by a poll
(`Writes.step`, `Reads.step`), so a program is known at every await at which its caller
may drop it. -/

namespace Async

variable {ε ε' α β : Type}

/-- The program writes exactly `bytes` and returns `result`. -/
inductive Writes : Async ε α → List UInt8 → Except ε α → Prop
  | ret {result} : Writes (.ret result) [] result
  | writeAll {bytes next rest result} : Writes (next (.ok ())) rest result →
      Writes (.writeAll bytes next) (bytes ++ rest) result

/-- On `bytes` the program reads all of them and returns `result`; where the stream ends
before, it returns the error `ended`. -/
inductive Reads (ended : ε) : Async ε α → List UInt8 → Except ε α → Prop
  | ret {result} : Reads ended (.ret result) [] result
  | readExact {bytes next rest result} : next (.error .earlyEof) = .ret (.error ended) →
      Reads ended (next (.ok bytes)) rest result →
      Reads ended (.readExact bytes.length next) (bytes ++ rest) result

/-! ## Programs that write -/

theorem Writes.write (bytes : List UInt8) : Writes (Async.write bytes) bytes (.ok ()) := by
  have writes : Writes (.writeAll bytes .ret) (bytes ++ []) (.ok ()) := .writeAll .ret
  rwa [List.append_nil] at writes

theorem Writes.mapError {program : Async ε α} {bytes : List UInt8} {result : Except ε α}
    (writes : Writes program bytes result) (translate : ε → ε') :
    Writes (program.mapError translate) bytes (result.mapError translate) := by
  induction writes with
  | ret => exact .ret
  | writeAll _ ih => exact .writeAll ih

theorem Writes.bind {first : Async ε α} {next : α → Async ε β} {bytes rest : List UInt8}
    {outcome : Except ε α} {value : α} {result : Except ε β}
    (writes : Writes first bytes outcome) (succeeds : outcome = .ok value)
    (then' : Writes (next value) rest result) : Writes (first >>= next) (bytes ++ rest) result := by
  induction writes with
  | ret =>
    subst succeeds
    exact then'
  | writeAll _ ih =>
    rw [List.append_assoc]
    exact .writeAll (ih succeeds)

theorem Writes.settle {program : Async ε α} {bytes : List UInt8} {result : Except ε α}
    (writes : Writes program bytes result) : Writes program.settle bytes result := by
  induction writes with
  | ret => exact .ret
  | @writeAll bytes next rest result rest' ih =>
    cases bytes with
    | nil => exact ih
    | cons byte bytes => exact .writeAll rest'

/-- A settled program has returned if it has nothing left to write, and waits if not. -/
theorem Writes.settle_cases {program : Async ε α} {bytes : List UInt8} {result : Except ε α}
    (writes : Writes program bytes result) :
    (bytes = [] ∧ program.settle = .ret result) ∨
      (bytes ≠ [] ∧ program.settle.isDone = false) := by
  induction writes with
  | ret => exact .inl ⟨rfl, rfl⟩
  | @writeAll bytes _ _ _ _ ih =>
    cases bytes with
    | nil => exact ih
    | cons byte bytes => exact .inr ⟨List.cons_ne_nil _ _, rfl⟩

/-- A poll writes the first byte still to be written. -/
theorem Writes.step {program next : Async ε α} {bytes input input' output : List UInt8}
    {result : Except ε α} {peerDone : Bool} {action : IoEvent} (writes : Writes program bytes result)
    (moved : program.step peerDone input = some (action, next, input', output)) :
    ∃ byte rest, bytes = byte :: rest ∧ output = [byte] ∧ Writes next rest result := by
  cases writes with
  | ret => simp [Async.step] at moved
  | @writeAll bytes' follow rest _ rest' =>
    cases bytes' with
    | nil => simp [Async.step] at moved
    | cons byte bytes' =>
      simp only [Async.step, Option.some.injEq, Prod.mk.injEq] at moved
      obtain ⟨_, rfl, _, rfl⟩ := moved
      have left : Writes (.writeAll bytes' follow) (bytes' ++ rest) result := .writeAll rest'
      exact ⟨byte, bytes' ++ rest, rfl, rfl, left.settle⟩

/-! ## Programs that read -/

variable {ended : ε}

theorem Reads.bind {first : Async ε α} {next : α → Async ε β} {bytes rest : List UInt8}
    {outcome : Except ε α} {value : α} {result : Except ε β}
    (reads : Reads ended first bytes outcome) (succeeds : outcome = .ok value)
    (then' : Reads ended (next value) rest result) :
    Reads ended (first >>= next) (bytes ++ rest) result := by
  induction reads with
  | ret =>
    subst succeeds
    exact then'
  | readExact fails _ ih =>
    rw [List.append_assoc]
    refine .readExact ?_ (ih succeeds)
    rw [fails]
    rfl

/-- A program that reads and then returns what it makes of the bytes. -/
theorem Reads.bind_ret {first : Async ε α} {next : α → Async ε β} {bytes : List UInt8}
    {value : α} {result : Except ε β} (reads : Reads ended first bytes (.ok value))
    (returns : next value = .ret result) : Reads ended (first >>= next) bytes result := by
  have then' : Reads ended (next value) [] result := returns ▸ .ret
  rw [← List.append_nil bytes]
  exact reads.bind rfl then'

theorem Reads.read (bytes : List UInt8) (translate : IoFault → ε)
    (same : translate .earlyEof = ended) :
    Reads ended ((Async.read bytes.length).mapError translate) bytes (.ok bytes) := by
  have reads : Reads ended (.readExact bytes.length fun outcome =>
      Async.ret (outcome.mapError translate)) (bytes ++ []) (.ok bytes) :=
    .readExact (by rw [← same]; rfl) .ret
  rwa [List.append_nil] at reads

theorem Reads.settle {program : Async ε α} {bytes : List UInt8} {result : Except ε α}
    (reads : Reads ended program bytes result) : Reads ended program.settle bytes result := by
  induction reads with
  | ret => exact .ret
  | @readExact bytes next rest result fails rest' ih =>
    cases bytes with
    | nil => exact ih
    | cons byte bytes => exact .readExact fails rest'

theorem Reads.settle_cases {program : Async ε α} {bytes : List UInt8} {result : Except ε α}
    (reads : Reads ended program bytes result) :
    (bytes = [] ∧ program.settle = .ret result) ∨
      (bytes ≠ [] ∧ program.settle.isDone = false) := by
  induction reads with
  | ret => exact .inl ⟨rfl, rfl⟩
  | @readExact bytes _ _ _ _ _ ih =>
    cases bytes with
    | nil => exact ih
    | cons byte bytes => exact .inr ⟨List.cons_ne_nil _ _, rfl⟩

/-- A poll takes the next byte of the stream, or meets its end and returns the error. -/
theorem Reads.step {program next : Async ε α} {bytes input input' output : List UInt8}
    {result : Except ε α} {peerDone : Bool} {action : IoEvent} (reads : Reads ended program bytes result)
    (moved : program.step peerDone input = some (action, next, input', output)) :
    (∃ byte, input = byte :: input' ∧
      ∀ rest, bytes = byte :: rest → Reads ended next rest result) ∨
    (peerDone = true ∧ input = [] ∧ input' = [] ∧ next = .ret (.error ended)) := by
  cases reads with
  | ret => simp [Async.step] at moved
  | @readExact bytes' follow rest _ fails rest' =>
    cases bytes' with
    | nil => simp [Async.step] at moved
    | cons expected bytes' =>
      cases input with
      | nil =>
        simp only [List.length_cons, Async.step] at moved
        split at moved <;> cases moved
        rename_i finished
        exact .inr ⟨finished, rfl, rfl, by rw [fails]; rfl⟩
      | cons byte input =>
        simp only [List.length_cons, Async.step, Option.some.injEq, Prod.mk.injEq] at moved
        obtain ⟨_, rfl, rfl, _⟩ := moved
        refine .inl ⟨byte, rfl, fun rest'' same => ?_⟩
        obtain ⟨rfl, rfl⟩ := List.cons.inj same
        have left : Reads ended (.readExact bytes'.length fun outcome =>
            follow (outcome.map (expected :: ·))) (bytes' ++ rest) result := .readExact fails rest'
        exact left.settle

end Async
