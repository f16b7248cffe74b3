import Laic.Lib.Except
import Laic.Lib.LittleEndian

/-! # Programs over one byte buffer

A program reads and writes a buffer at given offsets and may return early with an error.  An
access that does not lie inside the buffer is a panic, which no caller can catch; so a program
that is shown to end in `some` accesses nothing outside its buffer. -/

namespace Bytes

/-- What a program does with a buffer: it panics (`none`), or it leaves a result and a buffer. -/
def BufferProgram (ε α : Type) : Type := List UInt8 → Option (Except ε α × List UInt8)

namespace BufferProgram

variable {ε α β : Type}

instance : Monad (BufferProgram ε) where
  pure value := fun buffer => some (.ok value, buffer)
  bind first next := fun buffer =>
    match first buffer with
    | none => none
    | some (.error error, after) => some (.error error, after)
    | some (.ok value, after) => next value after

/-- The length of the buffer. -/
def size : BufferProgram ε Nat := fun buffer => some (.ok buffer.length, buffer)

/-- A check or a computation that does not touch the buffer. -/
def lift (first : Except ε α) : BufferProgram ε α := fun buffer => some (first, buffer)

/-- The `count` bytes from `offset` on. -/
def read (offset count : Nat) : BufferProgram ε (List UInt8) := fun buffer =>
  if offset + count ≤ buffer.length then some (.ok (slice buffer offset count), buffer) else none

/-- The byte at `offset`. -/
def readByte (offset : Nat) : BufferProgram ε UInt8 := fun buffer =>
  if offset < buffer.length then some (.ok (byteAt buffer offset), buffer) else none

/-- Write `bytes` from `offset` on. -/
def write (offset : Nat) (bytes : List UInt8) : BufferProgram ε Unit := fun buffer =>
  if offset + bytes.length ≤ buffer.length then some (.ok (), splice buffer offset bytes) else none

/-- What the program returns, where its buffer is of no further use. -/
def result (program : BufferProgram ε α) (buffer : List UInt8) : Option (Except ε α) :=
  (program buffer).map Prod.fst

/-- What follows a step that returns a value goes on where the step ended. -/
theorem bind_run {first : BufferProgram ε α} {buffer after : List UInt8} {value : α}
    (ran : first buffer = some (.ok value, after)) (next : α → BufferProgram ε β) :
    (first >>= next) buffer = next value after := by
  simp only [bind, ran]

theorem size_bind (next : Nat → BufferProgram ε β) (buffer : List UInt8) :
    (size >>= next) buffer = next buffer.length buffer := rfl

theorem lift_ok_bind (value : α) (next : α → BufferProgram ε β) (buffer : List UInt8) :
    (lift (.ok value) >>= next) buffer = next value buffer := rfl

theorem lift_error_bind (error : ε) (next : α → BufferProgram ε β) (buffer : List UInt8) :
    (lift (.error error) >>= next) buffer = some (.error error, buffer) := rfl

/-- Where the rest changes nothing and computes `rest`, a check in front of it does so too. -/
theorem lift_bind_run {first : Except ε α} {next : α → BufferProgram ε β} {rest : α → Except ε β}
    {buffer : List UInt8} (ran : ∀ value, next value buffer = some (rest value, buffer)) :
    (lift first >>= next) buffer = some (first >>= rest, buffer) := by
  cases first with
  | error error => rfl
  | ok value => exact ran value

theorem read_bind {offset count : Nat} {buffer : List UInt8}
    (inside : offset + count ≤ buffer.length) (next : List UInt8 → BufferProgram ε β) :
    (read offset count >>= next) buffer = next (slice buffer offset count) buffer :=
  bind_run (if_pos inside) next

theorem readByte_bind {offset : Nat} {buffer : List UInt8} (inside : offset < buffer.length)
    (next : UInt8 → BufferProgram ε β) :
    (readByte offset >>= next) buffer = next (byteAt buffer offset) buffer :=
  bind_run (if_pos inside) next

/-- A write behind what is already written moves the front on. -/
theorem write_append {offset : Nat} {written rest bytes : List UInt8}
    (reached : written.length = offset) (inside : bytes.length ≤ rest.length) :
    (write offset bytes : BufferProgram ε Unit) (written ++ rest) =
      some (.ok (), (written ++ bytes) ++ rest.drop bytes.length) := by
  have fits : offset + bytes.length ≤ (written ++ rest).length := by
    rw [List.length_append]
    omega
  rw [write, if_pos fits, splice_append reached]

theorem write_append_bind {offset : Nat} {written rest bytes : List UInt8}
    (reached : written.length = offset) (inside : bytes.length ≤ rest.length)
    (next : Unit → BufferProgram ε β) :
    (write offset bytes >>= next) (written ++ rest) =
      next () ((written ++ bytes) ++ rest.drop bytes.length) :=
  bind_run (write_append reached inside) next

end BufferProgram

end Bytes
