import Laic.Transport.FrameStream

/-! # QUIC connections

A `QuicConnection` is one bidirectional stream and a `closed` bit.  A run is any
sequence of calls on it against any bytes of the peer.  The stream position is the only
thing a failed `receive` leaves behind: after a refused header it stands at the payload
of the refused frame. -/

namespace Laic

/-- `recv` is what the peer has written and no call has read yet, `sent` what the
calls have written to the send stream. -/
structure QuicConnection where
  recv : ByteReader
  sent : List UInt8
  closed : Bool

namespace QuicConnection

def send (message : Message) (connection : QuicConnection) :
    Except LaicError Unit × QuicConnection :=
  if connection.closed then
    (.error (.transport .shuttingDown), connection)
  else
    let outcome := (writeFrame message).exec connection.recv
    (outcome.result, { connection with sent := connection.sent ++ outcome.written })

def receive (connection : QuicConnection) : Except LaicError Message × QuicConnection :=
  if connection.closed then
    (.error (.transport .shuttingDown), connection)
  else
    let outcome := readFrame.exec connection.recv
    (outcome.result, { connection with recv := outcome.rest })

/-- `finish` is what finishing the send stream returns. -/
def close (finish : Except String Unit) (connection : QuicConnection) :
    Except LaicError Unit × QuicConnection :=
  if connection.closed then
    (.ok (), connection)
  else
    (finish.mapError fun detail =>
        .transport (.connectionFailed s!"failed to finish send stream: {detail}"),
      { connection with closed := true })

/-! ## Runs -/

inductive Call where
  | send (message : Message)
  | receive
  | close (finish : Except String Unit)

inductive Reply where
  | done (result : Except LaicError Unit)
  | received (result : Except LaicError Message)

def step (connection : QuicConnection) : Call → Reply × QuicConnection
  | .send message => (.done (connection.send message).1, (connection.send message).2)
  | .receive => (.received connection.receive.1, connection.receive.2)
  | .close finish => (.done (connection.close finish).1, (connection.close finish).2)

/-- The replies to a sequence of calls and the connection after it. -/
def run (connection : QuicConnection) : List Call → List Reply × QuicConnection
  | [] => ([], connection)
  | call :: calls =>
    let (reply, next) := connection.step call
    let (replies, last) := next.run calls
    (reply :: replies, last)

/-- The connection that has just been opened to a peer that will write `recv`. -/
def opened (recv : ByteReader) : QuicConnection := ⟨recv, [], false⟩

/-- The message of a reply, if it has one. -/
def Reply.message? : Reply → Option Message
  | .received (.ok message) => some message
  | .received (.error _) | .done _ => none

/-- The next `receive` has a whole header to read. -/
def readsHeader (connection : QuicConnection) : Bool :=
  !connection.closed && decide (headerSize ≤ connection.recv.bytes.length)

/-- Where in the stream a `receive` reads its header, for each that reads one, and what it returns. -/
def headerReads (stream : List UInt8) (connection : QuicConnection) :
    List Call → List (Nat × Except LaicError Message)
  | [] => []
  | call :: calls =>
    let later := headerReads stream (connection.step call).2 calls
    match call with
    | .receive =>
      if connection.readsHeader then
        (stream.length - connection.recv.bytes.length, connection.receive.1) :: later
      else later
    | .send _ | .close _ => later

/-- So many bytes into the stream a frame starts, or the part of one that the stream ends with. -/
def FrameStart (stream : List UInt8) (position : Nat) : Prop :=
  ∃ before behind, splitFrames stream = before ++ behind ∧ before.flatten.length = position

/-- So many bytes into the stream this frame starts. -/
def FrameAt (stream : List UInt8) (position : Nat) (frame : List UInt8) : Prop :=
  ∃ before behind, splitFrames stream = before ++ frame :: behind ∧ before.flatten.length = position

/-- Headers are read only where frames start, in the order of the stream, and the messages that the
calls return are in full the frames whose headers were read. -/
structure DeliversFrames (stream : List UInt8) (connection : QuicConnection) (calls : List Call) :
    Prop where
  starts : ∀ read ∈ headerReads stream connection calls, FrameStart stream read.1
  order : (headerReads stream connection calls).Pairwise fun earlier later => earlier.1 < later.1
  frames : ∀ read ∈ headerReads stream connection calls, ∀ message, read.2 = .ok message →
    FrameAt stream read.1 message.frame
  messages : (connection.run calls).1.filterMap Reply.message? =
    (headerReads stream connection calls).filterMap fun read => read.2.toOption

/-- The next `receive` refuses the header of a frame that has a payload. -/
def RefusesPayload (connection : QuicConnection) : Prop :=
  connection.closed = false ∧ headerSize ≤ connection.recv.bytes.length ∧
    headerSize < frameLength connection.recv.bytes ∧
    ∃ error, acceptHeader (connection.recv.bytes.take headerSize) = .error error

/-! ## Frame alignment -/

/-- The unread bytes start at a frame boundary of the stream, or there are none. -/
def Aligned (stream : List UInt8) (connection : QuicConnection) : Prop :=
  connection.recv.bytes = [] ∨
    ∃ before : List (List UInt8), (∀ frame ∈ before, IsFrame frame) ∧
      stream = before.flatten ++ connection.recv.bytes

theorem isFrame_frame {message : Message} (valid : message.Valid) : IsFrame message.frame := by
  have long : headerSize ≤ message.header.wire.length := by simp
  rw [IsFrame, Message.frame, frameLength_append long, frameLength, MessageHeader.wire_payloadLen,
    valid.payloadLen]
  simp

theorem Aligned.skip {stream frame rest : List UInt8} {connection next : QuicConnection}
    (aligned : Aligned stream connection) (isFrame : IsFrame frame)
    (split : connection.recv.bytes = frame ++ rest) (left : next.recv.bytes = rest) :
    Aligned stream next := by
  obtain empty | ⟨before, areFrames, equal⟩ := aligned
  · rw [empty] at split
    exact .inl (left.trans (List.append_eq_nil_iff.mp split.symm).2)
  · refine .inr ⟨before ++ [frame], ?_, ?_⟩
    · intro other member
      obtain earlier | last := List.mem_append.mp member
      · exact areFrames other earlier
      · rw [List.mem_singleton.mp last]
        exact isFrame
    · rw [equal, split, left]
      simp

/-- A header is read where a frame starts. -/
theorem Aligned.frameStart {stream : List UInt8} {connection : QuicConnection}
    (aligned : Aligned stream connection) (reads : connection.readsHeader = true) :
    FrameStart stream (stream.length - connection.recv.bytes.length) := by
  obtain empty | ⟨before, areFrames, equal⟩ := aligned
  · simp [readsHeader, empty, headerSize] at reads
  · refine ⟨before, splitFrames connection.recv.bytes, ?_, ?_⟩
    · rw [← splitFrames_flatten areFrames, ← equal]
    · rw [equal]
      simp

/-- A message read at a frame boundary is the frame that starts there. -/
theorem Aligned.frameAt {stream rest : List UInt8} {connection : QuicConnection}
    {message : Message} (aligned : Aligned stream connection) (valid : message.Valid)
    (split : connection.recv.bytes = message.frame ++ rest) :
    FrameAt stream (stream.length - connection.recv.bytes.length) message.frame := by
  obtain empty | ⟨before, areFrames, equal⟩ := aligned
  · have nonempty := (List.append_eq_nil_iff.mp (split.symm.trans empty)).1
    have long := (isFrame_frame valid).headerSize_le
    rw [nonempty] at long
    exact absurd long (by decide)
  · refine ⟨before, splitFrames rest, ?_, ?_⟩
    · rw [equal, split, splitFrames_flatten areFrames, splitFrames_append (isFrame_frame valid)]
    · rw [equal]
      simp

/-- A read from a frame boundary ends at one, unless it refuses the header of a frame
that has a payload. -/
theorem receive_aligned {stream : List UInt8} {connection : QuicConnection}
    (aligned : Aligned stream connection) (benign : ¬ connection.RefusesPayload) :
    Aligned stream connection.receive.2 := by
  unfold receive
  split
  case isTrue => exact aligned
  case isFalse opened =>
    have opened : connection.closed = false := by simpa using opened
    have parsed := readFrame_exec connection.recv
    generalize readFrame.exec connection.recv = outcome at parsed ⊢
    have left := congrArg Prod.snd parsed
    by_cases enough : headerSize ≤ connection.recv.bytes.length
    · simp only [parseFrame, if_pos enough] at left
      cases accepted : acceptHeader (connection.recv.bytes.take headerSize) with
      | error error =>
        simp only [accepted] at left
        -- the refused frame has no payload, so the header read was all of it
        have noPayload : ¬ headerSize < frameLength connection.recv.bytes :=
          fun payload => benign ⟨opened, enough, payload, error, accepted⟩
        have whole : IsFrame (connection.recv.bytes.take headerSize) := by
          have length : (connection.recv.bytes.take headerSize).length = headerSize := by
            simp [enough]
          have same := frameLength_append (Nat.le_of_eq length.symm)
            (connection.recv.bytes.drop headerSize)
          rw [List.take_append_drop] at same
          rw [IsFrame, length, ← same]
          exact Nat.le_antisymm (Nat.le_add_right _ _) (Nat.le_of_not_lt noPayload)
        exact aligned.skip whole (List.take_append_drop _ _).symm left
      | ok header =>
        simp only [accepted] at left
        split at left
        case isTrue fits =>
          have length : header.payloadLen.toNat =
              (Bytes.slice connection.recv.bytes headerSize header.payloadLen.toNat).length :=
            (Bytes.slice_length fits).symm
          have made := fromParts_of_acceptHeader accepted length
          have complete : parseFrame connection.recv.bytes =
              (.ok ⟨header, Bytes.slice connection.recv.bytes headerSize header.payloadLen.toNat⟩,
                outcome.rest.bytes) := by
            simp only [parseFrame, if_pos enough, accepted, if_pos fits, made, left]
          obtain ⟨valid, _, split⟩ := parseFrame_inv complete
          exact aligned.skip (isFrame_frame valid) split rfl
        case isFalse => exact .inl left
    · simp only [parseFrame, if_neg enough] at left
      exact .inl left

theorem receive_ok {connection : QuicConnection} {message : Message}
    (received : connection.receive.1 = .ok message) :
    connection.closed = false ∧ message.Valid ∧
      ∃ rest, connection.recv.bytes = message.frame ++ rest := by
  unfold receive at received
  split at received
  case isTrue => cases received
  case isFalse opened =>
    have parsed := (readFrame_exec connection.recv).symm
    simp only at received
    rw [received] at parsed
    obtain ⟨valid, _, split⟩ := parseFrame_inv parsed
    exact ⟨by simpa using opened, valid, _, split⟩

theorem step_aligned {stream : List UInt8} {connection : QuicConnection} {call : Call}
    (aligned : Aligned stream connection)
    (benign : call = .receive → ¬ connection.RefusesPayload) :
    Aligned stream (connection.step call).2 := by
  cases call with
  | send message =>
    simp only [step, send]
    split <;> exact aligned
  | receive => exact receive_aligned aligned (benign rfl)
  | close finish =>
    simp only [step, close]
    split <;> exact aligned

/-! ## Runs from an open connection -/

/-- Every `receive` among the calls finds the connection closed. -/
def ReceivesOnlyClosed (connection : QuicConnection) : List Call → Prop
  | [] => True
  | call :: calls =>
    (call = .receive → connection.closed = true) ∧ (connection.step call).2.ReceivesOnlyClosed calls

/-- After a `receive` that refuses the header of a frame with a payload, every further
`receive` finds the connection closed. -/
def ClosedAfterRefusal (connection : QuicConnection) : List Call → Prop
  | [] => True
  | call :: calls =>
    (call = .receive → connection.RefusesPayload →
      (connection.step call).2.ReceivesOnlyClosed calls) ∧
      (connection.step call).2.ClosedAfterRefusal calls

theorem run_cons (connection : QuicConnection) (call : Call) (calls : List Call) :
    (connection.run (call :: calls)).1 =
      (connection.step call).1 :: ((connection.step call).2.run calls).1 := rfl

theorem ReceivesOnlyClosed.no_reads {connection : QuicConnection} {calls : List Call}
    (closed : connection.ReceivesOnlyClosed calls) (stream : List UInt8) :
    headerReads stream connection calls = [] := by
  induction calls generalizing connection with
  | nil => rfl
  | cons call calls ih =>
    have later := ih closed.2
    cases call with
    | send message => exact later
    | close finish => exact later
    | receive =>
      have noHeader : connection.readsHeader = false := by simp [readsHeader, closed.1 rfl]
      rw [headerReads, noHeader]
      exact later

/-- A receive that reads a header reads at least that. -/
theorem receive_reads {connection : QuicConnection} (reads : connection.readsHeader = true) :
    connection.receive.2.recv.bytes.length < connection.recv.bytes.length := by
  simp only [readsHeader, Bool.and_eq_true, Bool.not_eq_true', decide_eq_true_eq] at reads
  obtain ⟨isOpen, enough⟩ := reads
  have left := congrArg Prod.snd (readFrame_exec connection.recv)
  simp only [receive, isOpen, Bool.false_eq_true, if_false]
  have positive : 0 < headerSize := by decide
  rw [show (readFrame.exec connection.recv).rest.bytes = (parseFrame connection.recv.bytes).2 from left,
    parseFrame, if_pos enough]
  split
  · simp only [List.length_drop]
    omega
  · split
    · simp only [List.length_drop]
      omega
    · simp only [List.length_nil]
      omega

/-- No call puts bytes back. -/
theorem step_recv_le (connection : QuicConnection) (call : Call) :
    (connection.step call).2.recv.bytes.length ≤ connection.recv.bytes.length := by
  cases call with
  | send message =>
    simp only [step, send]
    split <;> exact Nat.le_refl _
  | close finish =>
    simp only [step, close]
    split <;> exact Nat.le_refl _
  | receive =>
    by_cases reads : connection.readsHeader = true
    · exact Nat.le_of_lt (receive_reads reads)
    · simp only [step, receive]
      split
      · exact Nat.le_refl _
      · rename_i isOpen
        have short : ¬ headerSize ≤ connection.recv.bytes.length := by
          simpa [readsHeader, isOpen] using reads
        have left := congrArg Prod.snd (readFrame_exec connection.recv)
        rw [parseFrame, if_neg short] at left
        simp [show (readFrame.exec connection.recv).rest.bytes = [] from left]

/-- Reads come behind what has been read before. -/
theorem headerReads_ge {stream : List UInt8} {connection : QuicConnection} {calls : List Call} :
    ∀ read ∈ headerReads stream connection calls,
      stream.length - connection.recv.bytes.length ≤ read.1 := by
  induction calls generalizing connection with
  | nil => exact fun read member => absurd member List.not_mem_nil
  | cons call calls ih =>
    intro read member
    have later (inRest : read ∈ headerReads stream (connection.step call).2 calls) :
        stream.length - connection.recv.bytes.length ≤ read.1 := by
      have behind := ih read inRest
      have shrinks := step_recv_le connection call
      omega
    cases call with
    | send message => exact later member
    | close finish => exact later member
    | receive =>
      rw [headerReads] at member
      split at member
      · obtain rfl | inRest := List.mem_cons.mp member
        · exact Nat.le_refl _
        · exact later inRest
      · exact later member

/-- Messages come from receives that read a header, whatever the calls are. -/
theorem run_messages (stream : List UInt8) (connection : QuicConnection) (calls : List Call) :
    (connection.run calls).1.filterMap Reply.message? =
      (headerReads stream connection calls).filterMap fun read => read.2.toOption := by
  induction calls generalizing connection with
  | nil => rfl
  | cons call calls ih =>
    rw [run_cons]
    cases call with
    | send message => exact ih _
    | close finish => exact ih _
    | receive =>
      have later := ih (connection.step .receive).2
      cases received : connection.receive.1 with
      | error error =>
        have silent : Reply.message? (connection.step .receive).1 = none := by
          rw [step, received]
          rfl
        rw [List.filterMap_cons_none silent, later, headerReads]
        split
        · rw [received]
          rfl
        · rfl
      | ok message =>
        obtain ⟨isOpen, valid, rest, split⟩ := receive_ok received
        have enough : headerSize ≤ connection.recv.bytes.length := by
          have long := (isFrame_frame valid).headerSize_le
          rw [split, List.length_append]
          omega
        have reads : connection.readsHeader = true := by simp [readsHeader, isOpen, enough]
        have returned : Reply.message? (connection.step .receive).1 = some message := by
          rw [step, received]
          rfl
        rw [List.filterMap_cons_some returned, later, headerReads, if_pos reads, received]
        rfl

/-- The run lemma: from a frame boundary on, headers are read at frame boundaries only. -/
theorem headerReads_aligned {stream : List UInt8} {connection : QuicConnection} {calls : List Call}
    (aligned : Aligned stream connection) (careful : connection.ClosedAfterRefusal calls) :
    ∀ read ∈ headerReads stream connection calls, FrameStart stream read.1 ∧
      ∀ message, read.2 = .ok message → FrameAt stream read.1 message.frame := by
  induction calls generalizing connection with
  | nil => exact fun read member => absurd member List.not_mem_nil
  | cons call calls ih =>
    intro read member
    have later (inRest : read ∈ headerReads stream (connection.step call).2 calls) :
        FrameStart stream read.1 ∧ ∀ message, read.2 = .ok message →
          FrameAt stream read.1 message.frame := by
      by_cases benign : call = .receive → ¬ connection.RefusesPayload
      · exact ih (step_aligned aligned benign) careful.2 read inRest
      · simp only [Classical.not_imp, Classical.not_not] at benign
        have closed := careful.1 benign.1 benign.2
        rw [closed.no_reads stream] at inRest
        cases inRest
    cases call with
    | send message => exact later member
    | close finish => exact later member
    | receive =>
      rw [headerReads] at member
      split at member
      case isFalse => exact later member
      case isTrue reads =>
        obtain rfl | inRest := List.mem_cons.mp member
        · refine ⟨aligned.frameStart reads, fun message received => ?_⟩
          obtain ⟨_, valid, rest, split⟩ := receive_ok received
          exact aligned.frameAt valid split
        · exact later inRest

/-- Each header is read behind the one before it. -/
theorem headerReads_order {stream : List UInt8} {connection : QuicConnection} {calls : List Call}
    (within : connection.recv.bytes.length ≤ stream.length) :
    (headerReads stream connection calls).Pairwise fun earlier later => earlier.1 < later.1 := by
  induction calls generalizing connection with
  | nil => exact .nil
  | cons call calls ih =>
    have later := ih (Nat.le_trans (step_recv_le connection call) within)
    cases call with
    | send message => exact later
    | close finish => exact later
    | receive =>
      rw [headerReads]
      split
      case isFalse => exact later
      case isTrue reads =>
        refine List.pairwise_cons.mpr ⟨fun read inRest => ?_, later⟩
        have behind := headerReads_ge read inRest
        have shrinks := receive_reads reads
        show stream.length - connection.recv.bytes.length < read.1
        have same : (connection.step .receive).2 = connection.receive.2 := rfl
        rw [same] at behind
        omega

/-- Whatever the peer writes and whatever the calls, if the connection is closed after a refused
header with a payload then only headers of frames are read, and every message is its frame. -/
theorem messages_are_frames (recv : ByteReader) (calls : List Call)
    (careful : (opened recv).ClosedAfterRefusal calls) :
    DeliversFrames recv.bytes (opened recv) calls := by
  have aligned : Aligned recv.bytes (opened recv) := .inr ⟨[], nofun, rfl⟩
  have reads := headerReads_aligned aligned careful
  exact ⟨fun read member => (reads read member).1, headerReads_order (Nat.le_refl _),
    fun read member => (reads read member).2, run_messages recv.bytes (opened recv) calls⟩

/-! ## A refused payload read as a frame -/

/-- A frame without payload. -/
def innerFrame : Message := ⟨⟨magic, version, 1, 7, 0, 0, 2, 0, 0, 0, Vector.replicate 4 0⟩, []⟩

/-- A frame of version 2 whose payload is the bytes of `innerFrame`. -/
def outerFrame : Message :=
  ⟨⟨magic, 2, 1, 8, 0, 40, 2, 0, 0, 0, Vector.replicate 4 0⟩, innerFrame.frame⟩

def smuggling : ByteReader := ⟨[outerFrame.frame], by decide⟩

/-- The stream of one frame, refused for its version, whose payload the second
`receive` reads as a header and returns as a message. -/
theorem refused_payload_delivered :
    ¬ ∀ (recv : ByteReader) (calls : List Call), DeliversFrames recv.bytes (opened recv) calls := by
  intro always
  have whole : splitFrames smuggling.bytes = [outerFrame.frame] := by
    have isFrame : IsFrame outerFrame.frame := by decide
    have streamed : smuggling.bytes = outerFrame.frame ++ [] := rfl
    rw [streamed, splitFrames_append isFrame, splitFrames, if_neg (by decide)]
  have second : (40, .ok innerFrame) ∈
      headerReads smuggling.bytes (opened smuggling) [.receive, .receive] := .tail _ (.head _)
  obtain ⟨before, behind, split, position⟩ :=
    (always smuggling [.receive, .receive]).frames _ second innerFrame rfl
  -- the only frame of the stream starts at byte 0
  rw [whole] at split
  have first : before = [] := by
    cases before with
    | nil => rfl
    | cons frame before => simp at split
  rw [first] at position
  cases position

/-- The condition at the same stream with the connection closed after the refusal. -/
theorem messages_are_frames_closed :
    DeliversFrames smuggling.bytes (opened smuggling) [.receive, .close (.ok ()), .receive] :=
  messages_are_frames smuggling _ (by
    simp [ClosedAfterRefusal, ReceivesOnlyClosed, step, close, receive, opened])

end QuicConnection

end Laic
