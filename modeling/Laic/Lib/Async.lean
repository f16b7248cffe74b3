/-! # Fallible async programs over one byte stream

An `Async ε α` is an async function with result `Except ε α` whose only effects are
a write of bytes to its peer and a read of an exact number of bytes from it.  The
awaits are its `writeAll` and `readExact` nodes: between two of them it runs alone.

`Async.exec` runs a program against a whole incoming stream, which a `ByteReader`
hands over in arbitrary non-empty chunks; `ByteReader.readExact_of_le` and
`ByteReader.readExact_of_lt` say that the chunks do not matter. -/

/-- An I/O failure as the stream reports it. -/
structure IoFault where
  detail : String
  deriving DecidableEq, Repr

/-- What a read of an exact number of bytes reports when the stream ends before. -/
def IoFault.earlyEof : IoFault := ⟨"early eof"⟩

inductive Async (ε α : Type) where
  | ret (result : Except ε α)
  | writeAll (bytes : List UInt8) (next : Except IoFault Unit → Async ε α)
  | readExact (count : Nat) (next : Except IoFault (List UInt8) → Async ε α)

namespace Async

variable {ε ε' α β γ : Type}

/-- Run `next` on the value of `first`; an error of `first` returns at once. -/
protected def bind (first : Async ε α) (next : α → Async ε β) : Async ε β :=
  match first with
  | .ret (.ok value) => next value
  | .ret (.error error) => .ret (.error error)
  | .writeAll bytes rest => .writeAll bytes fun outcome => (rest outcome).bind next
  | .readExact count rest => .readExact count fun outcome => (rest outcome).bind next

instance : Monad (Async ε) where
  pure value := .ret (.ok value)
  bind := Async.bind

instance : MonadLift (Except ε) (Async ε) where
  monadLift := .ret

/-- Translate the error a program returns. -/
def mapError (translate : ε → ε') : Async ε α → Async ε' α
  | .ret result => .ret (result.mapError translate)
  | .writeAll bytes rest => .writeAll bytes fun outcome => (rest outcome).mapError translate
  | .readExact count rest => .readExact count fun outcome => (rest outcome).mapError translate

/-- Write all of `bytes` and return. -/
def write (bytes : List UInt8) : Async IoFault Unit := .writeAll bytes .ret

/-- Read exactly `count` bytes and return them. -/
def read (count : Nat) : Async IoFault (List UInt8) := .readExact count .ret

@[simp] theorem pure_eq (value : α) : (pure value : Async ε α) = .ret (.ok value) := rfl

@[simp] theorem lift_eq (result : Except ε α) : (liftM result : Async ε α) = .ret result := rfl

@[simp] theorem ret_ok_bind (value : α) (next : α → Async ε β) :
    (Async.ret (.ok value) >>= next) = next value := rfl

@[simp] theorem ret_error_bind (error : ε) (next : α → Async ε β) :
    (Async.ret (.error error) >>= next) = .ret (.error error) := rfl

@[simp] theorem writeAll_bind (bytes : List UInt8) (rest : Except IoFault Unit → Async ε α)
    (next : α → Async ε β) :
    (Async.writeAll bytes rest >>= next) = .writeAll bytes fun outcome => rest outcome >>= next := rfl

@[simp] theorem readExact_bind (count : Nat) (rest : Except IoFault (List UInt8) → Async ε α)
    (next : α → Async ε β) :
    (Async.readExact count rest >>= next) = .readExact count fun outcome => rest outcome >>= next := rfl

theorem bind_assoc (first : Async ε α) (second : α → Async ε β) (third : β → Async ε γ) :
    (first >>= second >>= third) = first >>= fun value => second value >>= third := by
  induction first with
  | ret result => cases result <;> rfl
  | writeAll bytes rest ih => simp [ih]
  | readExact count rest ih => simp [ih]

theorem bind_pure (program : Async ε α) : (program >>= fun value => .ret (.ok value)) = program := by
  induction program with
  | ret result => cases result <;> rfl
  | writeAll bytes rest ih => simp [ih]
  | readExact count rest ih => simp [ih]

end Async

/-! ## Incoming streams -/

/-- The bytes that a peer has written, in the chunks in which polls deliver them.  A
poll that delivers nothing is the end of the stream, so no chunk is empty. -/
structure ByteReader where
  chunks : List (List UInt8)
  nonempty : ∀ chunk ∈ chunks, chunk ≠ []

namespace ByteReader

/-- All bytes still to come. -/
def bytes (reader : ByteReader) : List UInt8 := reader.chunks.flatten

/-- A stream that arrives in one chunk. -/
def ofBytes (bytes : List UInt8) : ByteReader :=
  if nonempty : bytes = [] then ⟨[], nofun⟩ else ⟨[bytes], by simpa using nonempty⟩

@[simp] theorem bytes_ofBytes (bytes' : List UInt8) : (ofBytes bytes').bytes = bytes' := by
  unfold ofBytes
  split <;> simp_all [bytes]

/-- The polls of a read of exactly `count` bytes: each drains the chunk at hand, or as
much of it as there is room for. -/
def readChunks : Nat → List (List UInt8) → Except IoFault (List UInt8) × List (List UInt8)
  | 0, chunks => (.ok [], chunks)
  | _ + 1, [] => (.error .earlyEof, [])
  | count + 1, chunk :: chunks =>
    if chunk.length ≤ count + 1 then
      let (outcome, rest) := readChunks (count + 1 - chunk.length) chunks
      (outcome.map (chunk ++ ·), rest)
    else
      (.ok (chunk.take (count + 1)), chunk.drop (count + 1) :: chunks)

theorem readChunks_nonempty {chunks : List (List UInt8)} (nonempty : ∀ chunk ∈ chunks, chunk ≠ [])
    (count : Nat) : ∀ chunk ∈ (readChunks count chunks).2, chunk ≠ [] := by
  induction chunks generalizing count with
  | nil => cases count <;> simp [readChunks]
  | cons first chunks ih =>
    cases count with
    | zero => simpa [readChunks] using nonempty
    | succ count =>
      simp only [readChunks]
      split
      · exact ih (fun chunk member => nonempty chunk (List.mem_cons_of_mem _ member)) _
      · rename_i long
        intro chunk member
        cases member with
        | head => simpa using long
        | tail _ member => exact nonempty chunk (List.mem_cons_of_mem _ member)

theorem readChunks_of_le {chunks : List (List UInt8)} {count : Nat}
    (enough : count ≤ chunks.flatten.length) :
    (readChunks count chunks).1 = .ok (chunks.flatten.take count) ∧
      (readChunks count chunks).2.flatten = chunks.flatten.drop count := by
  induction chunks generalizing count with
  | nil =>
    obtain rfl : count = 0 := by simpa using enough
    simp [readChunks]
  | cons first chunks ih =>
    cases count with
    | zero => simp [readChunks]
    | succ count =>
      simp only [List.flatten_cons, List.length_append] at enough
      simp only [readChunks]
      split
      · rename_i short
        have remaining : count + 1 - first.length ≤ chunks.flatten.length := by omega
        obtain ⟨outcome, rest⟩ := ih remaining
        refine ⟨?_, ?_⟩
        · rw [outcome, List.flatten_cons, List.take_append, List.take_of_length_le short]
          rfl
        · rw [rest, List.flatten_cons, List.drop_append, List.drop_of_length_le short]
          rfl
      · rename_i long
        have fits : count + 1 - first.length = 0 := by omega
        simp [List.take_append, List.drop_append, fits]

theorem readChunks_of_lt {chunks : List (List UInt8)} {count : Nat}
    (short : chunks.flatten.length < count) :
    readChunks count chunks = (.error .earlyEof, []) := by
  induction chunks generalizing count with
  | nil =>
    cases count with
    | zero => simp at short
    | succ count => rfl
  | cons first chunks ih =>
    cases count with
    | zero => simp at short
    | succ count =>
      simp only [List.flatten_cons, List.length_append] at short
      simp only [readChunks]
      rw [if_pos (by omega), ih (by omega)]
      rfl

/-- Read exactly `count` bytes, or fail at the end of the stream. -/
def readExact (count : Nat) (reader : ByteReader) : Except IoFault (List UInt8) × ByteReader :=
  ((readChunks count reader.chunks).1,
    ⟨(readChunks count reader.chunks).2, readChunks_nonempty reader.nonempty count⟩)

theorem readExact_of_le {reader : ByteReader} {count : Nat} (enough : count ≤ reader.bytes.length) :
    (reader.readExact count).1 = .ok (reader.bytes.take count) ∧
      (reader.readExact count).2.bytes = reader.bytes.drop count :=
  readChunks_of_le enough

theorem readExact_of_lt {reader : ByteReader} {count : Nat} (short : reader.bytes.length < count) :
    (reader.readExact count).1 = .error .earlyEof ∧ (reader.readExact count).2.bytes = [] := by
  have ended : readChunks count reader.chunks = (.error .earlyEof, []) := readChunks_of_lt short
  simp [readExact, ended, bytes]

end ByteReader

/-! ## Running a program alone against its input -/

namespace Async

variable {ε ε' α β : Type}

/-- What a run leaves: the result, the bytes written and the input not read. -/
structure Outcome (ε α : Type) where
  result : Except ε α
  written : List UInt8
  rest : ByteReader

/-- Run against everything the peer ever writes; writes always succeed. -/
def exec : Async ε α → ByteReader → Outcome ε α
  | .ret result, reader => ⟨result, [], reader⟩
  | .writeAll bytes next, reader =>
    let outcome := (next (.ok ())).exec reader
    { outcome with written := bytes ++ outcome.written }
  | .readExact count next, reader =>
    (next (reader.readExact count).1).exec (reader.readExact count).2

@[simp] theorem exec_ret (result : Except ε α) (reader : ByteReader) :
    (Async.ret result).exec reader = ⟨result, [], reader⟩ := rfl

@[simp] theorem exec_writeAll (bytes : List UInt8) (next : Except IoFault Unit → Async ε α)
    (reader : ByteReader) :
    (Async.writeAll bytes next).exec reader =
      { (next (.ok ())).exec reader with written := bytes ++ ((next (.ok ())).exec reader).written } :=
  rfl

@[simp] theorem exec_readExact (count : Nat) (next : Except IoFault (List UInt8) → Async ε α)
    (reader : ByteReader) :
    (Async.readExact count next).exec reader =
      (next (reader.readExact count).1).exec (reader.readExact count).2 := rfl

/-- A run of a sequence is a run of its first part and, where that returned a value,
of its second part on what the first left. -/
theorem exec_bind (first : Async ε α) (next : α → Async ε β) (reader : ByteReader) :
    (first >>= next).exec reader =
      match (first.exec reader).result with
      | .ok value =>
        { (next value).exec (first.exec reader).rest with
          written := (first.exec reader).written ++
            ((next value).exec (first.exec reader).rest).written }
      | .error error => ⟨.error error, (first.exec reader).written, (first.exec reader).rest⟩ := by
  induction first generalizing reader with
  | ret result => cases result <;> simp
  | writeAll bytes rest ih =>
    simp only [writeAll_bind, exec_writeAll, ih]
    split <;> simp
  | readExact count rest ih => simp only [readExact_bind, exec_readExact, ih]

/-- A sequence returns a value where both its parts do. -/
theorem result_bind_eq_ok {first : Async ε α} {next : α → Async ε β} {reader : ByteReader}
    {value : β} :
    ((first >>= next).exec reader).result = .ok value ↔
      ∃ middle, (first.exec reader).result = .ok middle ∧
        ((next middle).exec (first.exec reader).rest).result = .ok value := by
  rw [exec_bind]
  cases (first.exec reader).result <;> simp

theorem exec_mapError (translate : ε → ε') (program : Async ε α) (reader : ByteReader) :
    (program.mapError translate).exec reader =
      ⟨(program.exec reader).result.mapError translate, (program.exec reader).written,
        (program.exec reader).rest⟩ := by
  induction program generalizing reader with
  | ret result => simp [mapError]
  | writeAll bytes rest ih => simp [mapError, ih]
  | readExact count rest ih => simp only [mapError, exec_readExact, ih]

/-- Run against a stream on which every write fails with `fault`. -/
def execBroken (fault : IoFault) : Async ε α → ByteReader → Except ε α × ByteReader
  | .ret result, reader => (result, reader)
  | .writeAll _ next, reader => (next (.error fault)).execBroken fault reader
  | .readExact count next, reader =>
    (next (reader.readExact count).1).execBroken fault (reader.readExact count).2

end Async
