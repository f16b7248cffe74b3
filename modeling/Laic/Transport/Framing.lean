import Laic.Lib.Duplex
import Laic.Protocol.Message

/-! # Frames on a byte stream

`writeFrame` and `readFrame` move one message as its 40-byte header followed by its
payload, with no outer length prefix.  `parseFrame` is what `readFrame` does to a
stream, as a function of the bytes alone (`readFrame_exec`); the facts about runs of
reads are proved about it. -/

namespace Laic

/-- `MAX_PAYLOAD_LEN`: 64 MiB. -/
def maxPayloadLen : UInt32 := 64 * 1024 * 1024

/-- The size check, made on the header by the writer and by the reader alike. -/
def checkPayloadLen (header : MessageHeader) : Except LaicError Unit :=
  Except.ensure (header.payloadLen ≤ maxPayloadLen)
    (.transport (.framingError
      s!"payload length {header.payloadLen} exceeds maximum {maxPayloadLen}"))

def sendFailed (fault : IoFault) : LaicError := .transport (.sendFailed fault.detail)

def receiveFailed (fault : IoFault) : LaicError := .transport (.receiveFailed fault.detail)

def writeFrame (message : Message) : Async LaicError Unit := do
  checkPayloadLen message.header
  let headerBuf ← message.header.encode (List.replicate headerSize 0)
  (Async.write headerBuf).mapError sendFailed
  (Async.write message.payload).mapError sendFailed

def readFrame : Async LaicError Message := do
  let headerBuf ← (Async.read headerSize).mapError receiveFailed
  let header ← MessageHeader.decode headerBuf
  checkPayloadLen header
  let payload ←
    (if 0 < header.payloadLen.toNat then
      (Async.read header.payloadLen.toNat).mapError receiveFailed
    else
      pure [])
  Message.fromParts header payload

/-! ## Writing -/

/-- The bytes of a message on the wire. -/
def Message.frame (message : Message) : List UInt8 := message.header.wire ++ message.payload

@[simp] theorem Message.frame_length (message : Message) :
    message.frame.length = headerSize + message.payload.length := by
  simp [frame]

theorem Message.Valid.payloadLen_le {message : Message} (valid : message.Valid) :
    message.header.payloadLen ≤ maxPayloadLen ↔ message.payload.length ≤ maxPayloadLen.toNat := by
  rw [UInt32.le_iff_toNat_le, valid.payloadLen]

/-- A message within the limit becomes two writes, of its header and of its payload. -/
theorem writeFrame_eq {message : Message} (valid : message.Valid)
    (bounded : message.payload.length ≤ maxPayloadLen.toNat) :
    writeFrame message = (do
      (Async.write message.header.wire).mapError sendFailed
      (Async.write message.payload).mapError sendFailed) := by
  have encoded : message.header.encode (List.replicate headerSize 0) = .ok _ :=
    MessageHeader.encode_ok valid.header (by simp)
  simp only [writeFrame, checkPayloadLen, Except.ensure_pos (valid.payloadLen_le.mpr bounded),
    encoded, Async.lift_eq, Async.ret_ok_bind]
  simp

/-- A message over the limit is refused with no I/O at all. -/
theorem writeFrame_oversized {message : Message} (valid : message.Valid)
    (long : maxPayloadLen.toNat < message.payload.length) :
    writeFrame message = .ret (.error (.transport (.framingError
      s!"payload length {message.header.payloadLen} exceeds maximum {maxPayloadLen}"))) := by
  have exceeds : ¬ message.header.payloadLen ≤ maxPayloadLen :=
    fun fits => Nat.not_lt.mpr (valid.payloadLen_le.mp fits) long
  simp only [writeFrame, checkPayloadLen, Except.ensure_neg exceeds, Async.lift_eq,
    Async.ret_error_bind]

theorem writeFrame_exec {message : Message} (valid : message.Valid)
    (bounded : message.payload.length ≤ maxPayloadLen.toNat) (reader : ByteReader) :
    (writeFrame message).exec reader = ⟨.ok (), message.frame, reader⟩ := by
  simp [writeFrame_eq valid bounded, Async.write, Async.mapError, Except.mapError_ok, Message.frame]

/-! ## Reading -/

/-- The checks a read makes on the header bytes before it asks for the payload. -/
def acceptHeader (headerBuf : List UInt8) : Except LaicError MessageHeader := do
  let header ← MessageHeader.decode headerBuf
  checkPayloadLen header
  return header

/-- What one read makes of a stream of bytes: its result and the bytes left. -/
def parseFrame (bytes : List UInt8) : Except LaicError Message × List UInt8 :=
  if headerSize ≤ bytes.length then
    match acceptHeader (bytes.take headerSize) with
    | .error error => (.error error, bytes.drop headerSize)
    | .ok header =>
      if headerSize + header.payloadLen.toNat ≤ bytes.length then
        (Message.fromParts header (Bytes.slice bytes headerSize header.payloadLen.toNat),
          bytes.drop (headerSize + header.payloadLen.toNat))
      else
        (.error (receiveFailed .earlyEof), [])
  else
    (.error (receiveFailed .earlyEof), [])

/-- However the stream is chunked, a read does to it what `parseFrame` says. -/
theorem readFrame_exec (reader : ByteReader) :
    ((readFrame.exec reader).result, (readFrame.exec reader).rest.bytes) =
      parseFrame reader.bytes := by
  simp only [readFrame, Async.read, Async.mapError, Async.readExact_bind, Async.exec_readExact,
    parseFrame]
  by_cases enough : headerSize ≤ reader.bytes.length
  case neg =>
    obtain ⟨outcome, rest⟩ := ByteReader.readExact_of_lt (Nat.lt_of_not_le enough)
    simp [enough, outcome, rest, Except.mapError_error]
  case pos =>
    obtain ⟨outcome, rest⟩ := ByteReader.readExact_of_le enough
    generalize (reader.readExact headerSize).2 = afterHeader at rest ⊢
    simp only [if_pos enough, outcome, Except.mapError_ok, Async.ret_ok_bind, Async.lift_eq,
      acceptHeader]
    cases MessageHeader.decode (reader.bytes.take headerSize) with
    | error error => simp [rest]
    | ok header =>
      simp only [Async.ret_ok_bind, Except.ok_bind]
      cases checkPayloadLen header with
      | error error => simp [rest]
      | ok _ =>
        simp only [Async.ret_ok_bind, Except.ok_bind, Except.pure_eq]
        have left : afterHeader.bytes.length = reader.bytes.length - headerSize := by simp [rest]
        by_cases payload : 0 < header.payloadLen.toNat
        · simp only [if_pos payload, Async.readExact_bind, Async.exec_readExact]
          by_cases fits : headerSize + header.payloadLen.toNat ≤ reader.bytes.length
          · have enough' : header.payloadLen.toNat ≤ afterHeader.bytes.length := by omega
            obtain ⟨outcome', rest'⟩ := ByteReader.readExact_of_le enough'
            simp only [if_pos fits, outcome', Except.mapError_ok, Async.ret_ok_bind, Async.exec_ret,
              rest', rest, List.drop_drop, Bytes.slice]
          · have short : afterHeader.bytes.length < header.payloadLen.toNat := by omega
            obtain ⟨outcome', rest'⟩ := ByteReader.readExact_of_lt short
            simp [fits, outcome', rest']
        · have none : header.payloadLen.toNat = 0 := by omega
          simp [none, Bytes.slice, rest, enough]

/-- A read writes nothing, however it ends. -/
theorem readFrame_written (reader : ByteReader) : (readFrame.exec reader).written = [] := by
  simp only [readFrame, Async.read, Async.mapError, Async.readExact_bind, Async.exec_readExact]
  cases (reader.readExact headerSize).1 with
  | error fault => rfl
  | ok headerBuf =>
    simp only [Except.mapError_ok, Async.ret_ok_bind, Async.lift_eq]
    cases MessageHeader.decode headerBuf with
    | error error => rfl
    | ok header =>
      simp only [Async.ret_ok_bind]
      cases checkPayloadLen header with
      | error error => rfl
      | ok _ =>
        simp only [Async.ret_ok_bind]
        split
        · simp only [Async.readExact_bind, Async.exec_readExact]
          generalize ((reader.readExact headerSize).2.readExact header.payloadLen.toNat).1 = payload
          cases payload with
          | error fault => rfl
          | ok payload => rfl
        · rfl

theorem readFrame_result {reader : ByteReader} {result : Except LaicError Message}
    {rest : List UInt8} (parsed : parseFrame reader.bytes = (result, rest)) :
    (readFrame.exec reader).result = result ∧ (readFrame.exec reader).rest.bytes = rest :=
  Prod.mk.inj ((readFrame_exec reader).trans parsed)

theorem acceptHeader_eq_ok {headerBuf : List UInt8} {header : MessageHeader} :
    acceptHeader headerBuf = .ok header ↔
      MessageHeader.decode headerBuf = .ok header ∧ header.payloadLen ≤ maxPayloadLen := by
  simp only [acceptHeader, checkPayloadLen, Except.bind_eq_ok, Except.ensure_eq_ok, Except.pure_eq]
  constructor
  · rintro ⟨_, decoded, _, bounded, equal⟩
    cases equal
    exact ⟨decoded, bounded⟩
  · rintro ⟨decoded, bounded⟩
    exact ⟨header, decoded, (), bounded, rfl⟩

theorem acceptHeader_wire {message : Message} (valid : message.Valid)
    (bounded : message.payload.length ≤ maxPayloadLen.toNat) :
    acceptHeader message.header.wire = .ok message.header := by
  have decoded := MessageHeader.decode_wire valid.header []
  rw [List.append_nil] at decoded
  exact acceptHeader_eq_ok.mpr ⟨decoded, valid.payloadLen_le.mpr bounded⟩

/-- Once the header is accepted, the message can be built from its parts. -/
theorem fromParts_of_acceptHeader {headerBuf payload : List UInt8} {header : MessageHeader}
    (accepted : acceptHeader headerBuf = .ok header)
    (lengthOk : header.payloadLen.toNat = payload.length) :
    Message.fromParts header payload = .ok ⟨header, payload⟩ :=
  Message.fromParts_eq_ok.mpr
    ⟨rfl, (MessageHeader.decode_inv (acceptHeader_eq_ok.mp accepted).1).1, lengthOk⟩

/-- A stream that starts with a frame gives its message and loses exactly the frame. -/
theorem parseFrame_frame {message : Message} (valid : message.Valid)
    (bounded : message.payload.length ≤ maxPayloadLen.toNat) (rest : List UInt8) :
    parseFrame (message.frame ++ rest) = (.ok message, rest) := by
  have header : (message.frame ++ rest).take headerSize = message.header.wire := by
    simp [Message.frame]
  have payload : Bytes.slice (message.frame ++ rest) headerSize message.payload.length =
      message.payload := by
    simp [Bytes.slice, Message.frame]
  have tail : (message.frame ++ rest).drop (headerSize + message.payload.length) = rest := by
    rw [← Message.frame_length, List.drop_left]
  rw [parseFrame, header, acceptHeader_wire valid bounded, if_pos (by simp; omega)]
  simp only [valid.payloadLen, payload, tail]
  rw [if_pos (by simp), Message.fromParts_eq_ok.mpr ⟨rfl, valid⟩]

/-- A read succeeds only on a stream that starts with the frame of its result. -/
theorem parseFrame_inv {bytes rest : List UInt8} {message : Message}
    (parsed : parseFrame bytes = (.ok message, rest)) :
    message.Valid ∧ message.payload.length ≤ maxPayloadLen.toNat ∧ bytes = message.frame ++ rest := by
  unfold parseFrame at parsed
  split at parsed
  case isFalse => simp at parsed
  case isTrue enough =>
    split at parsed
    case h_1 => simp at parsed
    case h_2 header accepted =>
      split at parsed
      case isFalse => simp at parsed
      case isTrue fits =>
        obtain ⟨made, rfl⟩ := Prod.mk.inj parsed
        obtain ⟨rfl, valid⟩ := Message.fromParts_eq_ok.mp made
        obtain ⟨decoded, bounded⟩ := acceptHeader_eq_ok.mp accepted
        obtain ⟨_, _, wire⟩ := MessageHeader.decode_inv decoded
        refine ⟨valid, valid.payloadLen_le.mp bounded, ?_⟩
        rw [List.take_take, Nat.min_self] at wire
        rw [Message.frame, ← wire, ← List.drop_drop, Bytes.slice, List.append_assoc,
          List.take_append_drop, List.take_append_drop]

/-- A stream that ends inside a frame fails at its end. -/
theorem parseFrame_truncated {message : Message} (valid : message.Valid)
    (bounded : message.payload.length ≤ maxPayloadLen.toNat) {bytes missing : List UInt8}
    (part : bytes ++ missing = message.frame) (proper : missing ≠ []) :
    parseFrame bytes = (.error (receiveFailed .earlyEof), []) := by
  have shorter : bytes.length < headerSize + message.payload.length := by
    have total := congrArg List.length part
    have positive := List.length_pos_iff.mpr proper
    simp only [List.length_append, Message.frame_length] at total
    omega
  rw [parseFrame]
  by_cases enough : headerSize ≤ bytes.length
  · have header : bytes.take headerSize = message.header.wire := by
      have same := congrArg (List.take headerSize) part
      rw [List.take_append_of_le_length enough] at same
      simp [same, Message.frame]
    rw [if_pos enough, header, acceptHeader_wire valid bounded]
    simp only [valid.payloadLen]
    exact if_neg (by omega)
  · exact if_neg enough

/-! ## Frames between two parties -/

open Async (Advances)

theorem writeFrame_advances {message : Message} (valid : message.Valid)
    (bounded : message.payload.length ≤ maxPayloadLen.toNat) :
    Advances (writeFrame message) (List.replicate message.frame.length .write) [] message.frame
      (.ret (.ok ())) := by
  have header := (Advances.write message.header.wire).mapError sendFailed
  have payload := (Advances.write message.payload).mapError sendFailed
  rw [writeFrame_eq valid bounded, Message.frame, List.length_append,
    ← List.replicate_append_replicate]
  exact (header.bind _).trans payload

theorem readFrame_advances {message : Message} (valid : message.Valid)
    (bounded : message.payload.length ≤ maxPayloadLen.toNat) :
    Advances readFrame (List.replicate message.frame.length .read) message.frame []
      (.ret (.ok message)) := by
  have accepted := acceptHeader_eq_ok.mp (acceptHeader_wire valid bounded)
  have parts : Message.fromParts message.header message.payload = .ok message :=
    Message.fromParts_eq_ok.mpr ⟨rfl, valid⟩
  have header := (Advances.read message.header.wire).mapError receiveFailed
  have payload := (Advances.read message.payload).mapError receiveFailed
  rw [Message.frame, List.length_append,
    ← List.replicate_append_replicate]
  rw [MessageHeader.wire_length] at header ⊢
  refine (header.bind _).trans ?_
  simp only [Async.mapError, Except.mapError_ok, Async.ret_ok_bind, Async.lift_eq, accepted.1,
    checkPayloadLen, Except.ensure_pos accepted.2, valid.payloadLen]
  split
  · have rest := payload.bind fun payload => Async.ret (Message.fromParts message.header payload)
    simpa [Async.mapError, Except.mapError_ok, Except.mapError_error, parts] using rest
  · rename_i empty
    obtain none : message.payload = [] := List.eq_nil_of_length_eq_zero (by omega)
    rw [none] at parts ⊢
    simpa [parts] using Advances.refl

end Laic
