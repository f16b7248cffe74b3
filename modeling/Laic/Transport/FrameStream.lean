import Laic.Transport.Framing

/-! # Streams of frames

What successive reads return on the concatenated output of successive writes, and the
division of an arbitrary byte stream into frames by their length fields alone. -/

namespace Laic

/-! ## Successive writes and reads -/

/-- What `writeFrame` emits for each message, concatenated. -/
def emitted (messages : List Message) : List UInt8 :=
  messages.flatMap fun message => ((writeFrame message).exec (.ofBytes [])).written

/-- The result of each of `count` successive reads and the bytes it leaves. -/
def readFrames : Nat → ByteReader → List (Except LaicError Message × List UInt8)
  | 0, _ => []
  | count + 1, reader =>
    let outcome := readFrame.exec reader
    (outcome.result, outcome.rest.bytes) :: readFrames count outcome.rest

/-- Reads that return the given messages one by one, each leaving the frames of the
others, and then meet the end of the stream. -/
def receptions : List Message → List (Except LaicError Message × List UInt8)
  | [] => [(.error (receiveFailed .earlyEof), [])]
  | message :: rest => (.ok message, emitted rest) :: receptions rest

theorem emitted_cons {message : Message} (valid : message.Valid)
    (bounded : message.payload.length ≤ maxPayloadLen.toNat) (rest : List Message) :
    emitted (message :: rest) = message.frame ++ emitted rest := by
  simp [emitted, writeFrame_exec valid bounded]

theorem emitted_singleton {message : Message} (valid : message.Valid)
    (bounded : message.payload.length ≤ maxPayloadLen.toNat) : emitted [message] = message.frame := by
  simpa [emitted] using emitted_cons valid bounded []

theorem readFrames_succ (count : Nat) {reader : ByteReader} {result : Except LaicError Message}
    {rest : List UInt8} (parsed : parseFrame reader.bytes = (result, rest)) :
    ∃ reader' : ByteReader, reader'.bytes = rest ∧
      readFrames (count + 1) reader = (result, rest) :: readFrames count reader' := by
  obtain ⟨hasResult, hasRest⟩ := readFrame_result parsed
  exact ⟨(readFrame.exec reader).rest, hasRest, by simp [readFrames, hasResult, hasRest]⟩

/-- Reading back what was written, whatever the chunks: by induction on the messages,
each read removes the frame at the front of the stream. -/
theorem readFrames_emitted {messages : List Message}
    (valid : ∀ message ∈ messages, message.Valid)
    (bounded : ∀ message ∈ messages, message.payload.length ≤ maxPayloadLen.toNat)
    {reader : ByteReader} (received : reader.bytes = emitted messages) :
    readFrames (messages.length + 1) reader = receptions messages := by
  induction messages generalizing reader with
  | nil =>
    have ended : parseFrame reader.bytes = (.error (receiveFailed .earlyEof), []) := by
      rw [received]
      rfl
    obtain ⟨_, _, once⟩ := readFrames_succ 0 ended
    exact once
  | cons message rest ih =>
    simp only [List.forall_mem_cons] at valid bounded
    have first : parseFrame reader.bytes = (.ok message, emitted rest) := by
      rw [received, emitted_cons valid.1 bounded.1, parseFrame_frame valid.1 bounded.1]
    obtain ⟨reader', left, step⟩ := readFrames_succ (rest.length + 1) first
    rw [List.length_cons, step, ih valid.2 bounded.2 left, receptions]

/-- The frame stream contract.  Whatever the chunks, reading back the emitted frames of
messages within the limit returns these messages and then fails at the end of the
stream; no proper prefix of a frame is read as a message; a message over the limit is
refused with no I/O, and every other one is emitted as a frame that is read back. -/
theorem frame_stream_contract :
    (∀ messages : List Message,
      (∀ message ∈ messages, message.Built ∧ message.payload.length ≤ maxPayloadLen.toNat) →
      ∀ reader : ByteReader, reader.bytes = emitted messages →
        readFrames (messages.length + 1) reader = receptions messages) ∧
    (∀ message : Message, message.Built → message.payload.length ≤ maxPayloadLen.toNat →
      ∀ (reader : ByteReader) (missing : List UInt8),
        reader.bytes ++ missing = emitted [message] → missing ≠ [] →
        (readFrame.exec reader).result = .error (receiveFailed .earlyEof)) ∧
    (∀ message : Message, message.Built →
      (maxPayloadLen.toNat < message.payload.length →
        ∃ detail, writeFrame message = .ret (.error (.transport (.framingError detail)))) ∧
      (message.payload.length ≤ maxPayloadLen.toNat →
        ∀ writer : ByteReader, ((writeFrame message).exec writer).result = .ok () ∧
          ∀ (reader : ByteReader) (after : List UInt8),
            reader.bytes = ((writeFrame message).exec writer).written ++ after →
            (readFrame.exec reader).result = .ok message ∧
              (readFrame.exec reader).rest.bytes = after)) := by
  refine ⟨?_, ?_, ?_⟩
  · intro messages sendable reader received
    exact readFrames_emitted (fun message member => (sendable message member).1.valid)
      (fun message member => (sendable message member).2) received
  · intro message built bounded reader missing part proper
    rw [emitted_singleton built.valid bounded] at part
    exact (readFrame_result (parseFrame_truncated built.valid bounded part proper)).1
  · intro message built
    refine ⟨fun long => ⟨_, writeFrame_oversized built.valid long⟩, fun bounded writer => ?_⟩
    rw [writeFrame_exec built.valid bounded]
    refine ⟨rfl, fun reader after received => readFrame_result ?_⟩
    rw [received, parseFrame_frame built.valid bounded]

/-- The contract at two messages, in three chunks that do not respect frame bounds, at a
frame that lost its last byte and at a payload one byte over the limit. -/
theorem frame_stream_contract_sample :
    ∃ first second long : Message,
      (∃ reader : ByteReader, reader.chunks.length = 3 ∧
        readFrames 3 reader = receptions [first, second]) ∧
      (∃ reader : ByteReader, reader.bytes.length = 41 ∧
        (readFrame.exec reader).result = .error (receiveFailed .earlyEof)) ∧
      ((writeFrame first).exec (.ofBytes [])).result = .ok () ∧
      ∃ detail, writeFrame long = .ret (.error (.transport (.framingError detail))) := by
  let first : Message := ⟨⟨magic, version, 1, 7, 0, 2, 0, 0, 0, 0, Vector.replicate 4 0⟩, [10, 20]⟩
  let second : Message := ⟨⟨magic, version, 2, 8, 7, 0, 1, 2, 0, 0, Vector.replicate 4 0⟩, []⟩
  have firstBuilt : first.Built := Message.Valid.built ⟨⟨rfl, rfl, ⟨.arrow, rfl⟩, ⟨.normal, rfl⟩⟩, rfl⟩
  have secondBuilt : second.Built :=
    Message.Valid.built ⟨⟨rfl, rfl, ⟨.protobuf, rfl⟩, ⟨.emergency, rfl⟩⟩, rfl⟩
  have sendable : (List.replicate (maxPayloadLen.toNat + 1) (0 : UInt8)).length ≤ UInt32.size - 1 := by
    rw [List.length_replicate]
    exact Nat.le_of_ble_eq_true rfl
  obtain ⟨long, longBuilt, longPayload⟩ := Message.exists_built sendable
  have firstBounded : first.payload.length ≤ maxPayloadLen.toNat := by decide
  have secondBounded : second.payload.length ≤ maxPayloadLen.toNat := by decide
  have bothEmitted : emitted [first, second] = first.frame ++ second.frame := by
    rw [emitted_cons firstBuilt.valid firstBounded, emitted_singleton secondBuilt.valid secondBounded]
  let stream := first.frame ++ second.frame
  let chunked : ByteReader := ⟨[stream.take 10, (stream.drop 10).take 50, stream.drop 60], by decide⟩
  let truncated : ByteReader := ⟨[first.frame.take 41], by decide⟩
  refine ⟨first, second, long, ⟨chunked, rfl, ?_⟩, ⟨truncated, rfl, ?_⟩, ?_, ?_⟩
  · refine frame_stream_contract.1 [first, second] ?_ chunked ?_
    · simp only [List.forall_mem_cons]
      exact ⟨⟨firstBuilt, firstBounded⟩, ⟨secondBuilt, secondBounded⟩, nofun⟩
    · rw [bothEmitted]
      decide
  · refine frame_stream_contract.2.1 first firstBuilt firstBounded truncated [20] ?_ (by decide)
    rw [emitted_singleton firstBuilt.valid firstBounded]
    decide
  · exact ((frame_stream_contract.2.2 first firstBuilt).2 firstBounded (.ofBytes [])).1
  · refine (frame_stream_contract.2.2 long longBuilt).1 ?_
    rw [longPayload, List.length_replicate]
    exact Nat.lt_succ_self _

/-! ## A stream that breaks off -/

/-- The messages whose frames lie within the first `length` bytes of what is written for them. -/
def wholeWithin : Nat → List Message → List Message
  | _, [] => []
  | length, message :: rest =>
    if message.frame.length ≤ length then
      message :: wholeWithin (length - message.frame.length) rest
    else
      []

/-- The results of reads, without the bytes they leave. -/
def readResults (count : Nat) (reader : ByteReader) : List (Except LaicError Message) :=
  (readFrames count reader).map Prod.fst

theorem readResults_succ (count : Nat) {reader : ByteReader} {result : Except LaicError Message}
    {rest : List UInt8} (parsed : parseFrame reader.bytes = (result, rest)) :
    ∃ reader' : ByteReader, reader'.bytes = rest ∧
      readResults (count + 1) reader = result :: readResults count reader' := by
  obtain ⟨reader', left, step⟩ := readFrames_succ count parsed
  exact ⟨reader', left, by simp [readResults, step]⟩

/-- At the end of the stream every read fails, however often it is tried. -/
theorem readResults_ended (count : Nat) {reader : ByteReader} (ended : reader.bytes = []) :
    readResults count reader = List.replicate count (.error (receiveFailed .earlyEof)) := by
  induction count generalizing reader with
  | zero => rfl
  | succ count ih =>
    have parsed : parseFrame reader.bytes = (.error (receiveFailed .earlyEof), []) := by
      rw [ended]
      rfl
    obtain ⟨reader', left, step⟩ := readResults_succ count parsed
    rw [step, ih left, List.replicate_succ]

/-- Wherever the stream breaks off, reads return exactly the messages whose frames arrived in
full, and every further read reports the end of the stream: a part of a frame is never read as
anything, not even by later reads. -/
theorem readResults_take {messages : List Message} (valid : ∀ message ∈ messages, message.Valid)
    (bounded : ∀ message ∈ messages, message.payload.length ≤ maxPayloadLen.toNat) (length count : Nat)
    {reader : ByteReader} (received : reader.bytes = (emitted messages).take length) :
    readResults count reader =
      ((wholeWithin length messages).map Except.ok ++
        List.replicate count (Except.error (receiveFailed .earlyEof))).take count := by
  induction messages generalizing length count reader with
  | nil =>
    have ended : reader.bytes = [] := by simpa [emitted] using received
    simp [readResults_ended count ended, wholeWithin]
  | cons message rest ih =>
    simp only [List.forall_mem_cons] at valid bounded
    rw [emitted_cons valid.1 bounded.1] at received
    cases count with
    | zero => simp [readResults, readFrames]
    | succ count =>
      by_cases whole : message.frame.length ≤ length
      · -- the first frame is complete: it is read, and the cut is that much nearer
        rw [List.take_append, List.take_of_length_le whole] at received
        have parsed : parseFrame reader.bytes =
            (.ok message, (emitted rest).take (length - message.frame.length)) := by
          rw [received, parseFrame_frame valid.1 bounded.1]
        obtain ⟨reader', left, step⟩ := readResults_succ count parsed
        rw [step, ih valid.2 bounded.2 _ count left, wholeWithin, if_pos whole]
        simp only [List.map_cons, List.cons_append, List.take_succ_cons, List.cons.injEq, true_and]
        -- one failing read more or less behind them does not show
        rw [List.take_append, List.take_append, List.take_replicate, List.take_replicate]
        congr 2
        omega
      · -- the cut lies in the first frame: this read uses up what is there
        rw [List.take_append_of_le_length (by omega)] at received
        have part : reader.bytes ++ message.frame.drop length = message.frame := by
          rw [received, List.take_append_drop]
        have proper : message.frame.drop length ≠ [] := by
          intro none
          have short := congrArg List.length none
          rw [List.length_drop, List.length_nil] at short
          omega
        obtain ⟨reader', left, step⟩ :=
          readResults_succ count (parseFrame_truncated valid.1 bounded.1 part proper)
        rw [step, readResults_ended count left, wholeWithin, if_neg whole]
        simp [List.replicate_succ]

/-- Two messages, cut one byte before the end of the second. -/
theorem readResults_take_sample :
    ∃ first : Message, ∃ reader : ByteReader, reader.bytes.length = 81 ∧
      readResults 3 reader =
        [.ok first, .error (receiveFailed .earlyEof), .error (receiveFailed .earlyEof)] := by
  let first : Message := ⟨⟨magic, version, 1, 7, 0, 0, 0, 0, 0, 0, Vector.replicate 4 0⟩, []⟩
  let second : Message := ⟨⟨magic, version, 2, 8, 7, 2, 1, 2, 0, 0, Vector.replicate 4 0⟩, [10, 20]⟩
  have valid : ∀ message ∈ [first, second], message.Valid := by
    simp only [List.forall_mem_cons]
    exact ⟨⟨⟨rfl, rfl, ⟨.arrow, rfl⟩, ⟨.normal, rfl⟩⟩, rfl⟩,
      ⟨⟨rfl, rfl, ⟨.protobuf, rfl⟩, ⟨.emergency, rfl⟩⟩, rfl⟩, nofun⟩
  have bounded : ∀ message ∈ [first, second], message.payload.length ≤ maxPayloadLen.toNat := by decide
  let reader : ByteReader := ⟨[(first.frame ++ second.frame).take 81], by decide⟩
  have received : reader.bytes = (emitted [first, second]).take 81 := by
    rw [emitted_cons (valid first (by simp)) (bounded first (by simp)),
      emitted_singleton (valid second (by simp)) (bounded second (by simp))]
    exact List.append_nil _
  have whole : wholeWithin 81 [first, second] = [first] := by decide
  refine ⟨first, reader, by decide, ?_⟩
  rw [readResults_take valid bounded 81 3 received, whole]
  rfl

/-! ## Frames of an arbitrary stream -/

/-- The length that the header at the start of `bytes` gives its frame. -/
def frameLength (bytes : List UInt8) : Nat :=
  headerSize + Bytes.ofLittleEndian (Bytes.slice bytes 24 4)

theorem frameLength_pos (bytes : List UInt8) : 0 < frameLength bytes :=
  Nat.lt_of_lt_of_le (by decide) (Nat.le_add_right headerSize _)

/-- The complete frames of a stream, taken by their length fields whether or not a
receiver would accept their headers. -/
def splitFrames (bytes : List UInt8) : List (List UInt8) :=
  if frameLength bytes ≤ bytes.length then
    bytes.take (frameLength bytes) :: splitFrames (bytes.drop (frameLength bytes))
  else
    []
termination_by bytes.length
decreasing_by
  have positive := frameLength_pos bytes
  simp only [List.length_drop]
  omega

/-- A sequence of bytes that is one frame by its own length field. -/
def IsFrame (frame : List UInt8) : Prop := frame.length = frameLength frame

instance (frame : List UInt8) : Decidable (IsFrame frame) := inferInstanceAs (Decidable (_ = _))

theorem IsFrame.headerSize_le {frame : List UInt8} (isFrame : IsFrame frame) :
    headerSize ≤ frame.length := by
  rw [isFrame]
  exact Nat.le_add_right headerSize _

theorem frameLength_append {frame : List UInt8} (long : headerSize ≤ frame.length)
    (rest : List UInt8) : frameLength (frame ++ rest) = frameLength frame := by
  have inside : 24 + 4 ≤ frame.length := Nat.le_trans (by decide) long
  rw [frameLength, frameLength, Bytes.slice, Bytes.slice, List.drop_append_of_le_length (by omega),
    List.take_append_of_le_length (by simp; omega)]

theorem splitFrames_append {frame : List UInt8} (isFrame : IsFrame frame) (rest : List UInt8) :
    splitFrames (frame ++ rest) = frame :: splitFrames rest := by
  have length : frameLength (frame ++ rest) = frame.length := by
    rw [frameLength_append isFrame.headerSize_le, ← isFrame]
  rw [splitFrames, length, if_pos (by simp), List.take_left, List.drop_left]

theorem splitFrames_flatten {frames : List (List UInt8)} (areFrames : ∀ frame ∈ frames, IsFrame frame)
    (rest : List UInt8) : splitFrames (frames.flatten ++ rest) = frames ++ splitFrames rest := by
  induction frames with
  | nil => rfl
  | cons frame frames ih =>
    simp only [List.forall_mem_cons] at areFrames
    rw [List.flatten_cons, List.append_assoc, splitFrames_append areFrames.1, ih areFrames.2,
      List.cons_append]

end Laic
