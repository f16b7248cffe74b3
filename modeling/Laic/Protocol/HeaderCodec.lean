import Laic.Lib.BufferProgram
import Laic.Protocol.Header

/-! # The header codec on the buffer itself

`encodeBuffer` and `decodeBuffer` are the two functions of the header with each of their reads
and writes at its own offset, so that an access outside the buffer would show as a panic.  They
never panic, and what they leave is what `encode` and `decode` compute. -/

namespace Laic

open Bytes

namespace MessageHeader

/-- The eleven writes of `encode`. -/
def writeFields (header : MessageHeader) : BufferProgram LaicError Unit := do
  .write 0 (toLittleEndian 4 header.magic.toNat)
  .write 4 (toLittleEndian 2 header.version.toNat)
  .write 6 (toLittleEndian 2 header.msgType.toNat)
  .write 8 (toLittleEndian 8 header.msgId.toNat)
  .write 16 (toLittleEndian 8 header.correlationId.toNat)
  .write 24 (toLittleEndian 4 header.payloadLen.toNat)
  .write 28 [header.payloadFormat]
  .write 29 [header.qos]
  .write 30 (toLittleEndian 2 header.creditGrant.toNat)
  .write 32 (toLittleEndian 4 header.flags.toNat)
  .write 36 header.reserved.toList

/-- `encode`: all checks stand before the first write. -/
def encodeBuffer (header : MessageHeader) : BufferProgram LaicError Unit := do
  let length ← .size
  .lift (Except.ensure (headerSize ≤ length) (.protocol (.bufferTooShort length headerSize)))
  .lift header.checkInvariants
  header.writeFields

/-- `decode`, with its reads in the order of the source. -/
def decodeBuffer : BufferProgram LaicError MessageHeader := do
  let length ← .size
  .lift (Except.ensure (headerSize ≤ length) (.protocol (.bufferTooShort length headerSize)))
  let magic := UInt32.ofNat (ofLittleEndian (← .read 0 4))
  .lift (Except.ensure (magic = Laic.magic) (.protocol (.invalidMagic magic)))
  let version := UInt16.ofNat (ofLittleEndian (← .read 4 2))
  .lift (Except.ensure (version = Laic.version) (.protocol (.unsupportedVersion version)))
  let payloadFormat ← .readByte 28
  let _ ← .lift ((PayloadFormat.fromU8 payloadFormat).mapError .protocol)
  let qos ← .readByte 29
  let _ ← .lift ((Qos.fromU8 qos).mapError .protocol)
  let reserved0 ← .readByte 36
  let reserved1 ← .readByte 37
  let reserved2 ← .readByte 38
  let reserved3 ← .readByte 39
  let msgType := UInt16.ofNat (ofLittleEndian (← .read 6 2))
  let msgId := UInt64.ofNat (ofLittleEndian (← .read 8 8))
  let correlationId := UInt64.ofNat (ofLittleEndian (← .read 16 8))
  let payloadLen := UInt32.ofNat (ofLittleEndian (← .read 24 4))
  let creditGrant := UInt16.ofNat (ofLittleEndian (← .read 30 2))
  let flags := UInt32.ofNat (ofLittleEndian (← .read 32 4))
  return {
    magic := magic
    version := version
    msgType := msgType
    msgId := msgId
    correlationId := correlationId
    payloadLen := payloadLen
    payloadFormat := payloadFormat
    qos := qos
    creditGrant := creditGrant
    flags := flags
    reserved := #v[reserved0, reserved1, reserved2, reserved3] }

/-! ## Encoding -/

/-- The writes leave the wire image in front of the rest, whatever the fields hold. -/
theorem writeFields_run (header : MessageHeader) {buffer : List UInt8}
    (fits : headerSize ≤ buffer.length) :
    header.writeFields buffer = some (.ok (), header.wire ++ buffer.drop headerSize) := by
  have start : buffer = [] ++ buffer := rfl
  unfold headerSize at fits
  rw [start, writeFields]
  -- each write starts where the one before it ended
  simp (disch := first | simp; done | (simp; omega)) only [BufferProgram.write_append_bind,
    BufferProgram.write_append]
  simp [wire, headerSize]

theorem encodeBuffer_run (header : MessageHeader) (buffer : List UInt8) :
    header.encodeBuffer buffer = some
      (match header.encode buffer with
      | .ok written => (.ok (), written)
      | .error error => (.error error, buffer)) := by
  unfold encodeBuffer
  rw [BufferProgram.size_bind]
  by_cases fits : headerSize ≤ buffer.length
  · rw [Except.ensure_pos fits, BufferProgram.lift_ok_bind]
    cases checked : header.checkInvariants with
    | error error =>
      rw [BufferProgram.lift_error_bind]
      simp [encode, Except.ensure_pos fits, checked]
    | ok =>
      have valid := checkInvariants_eq_ok.mp checked
      rw [BufferProgram.lift_ok_bind, writeFields_run header fits, encode_ok valid fits]
  · rw [Except.ensure_neg fits, BufferProgram.lift_error_bind]
    simp [encode, Except.ensure_neg fits]

/-! ## Decoding -/

/-- Every read of `decode` lies inside a buffer that passes the length check. -/
theorem decodeBuffer_run (buffer : List UInt8) :
    decodeBuffer buffer = some (decode buffer, buffer) := by
  unfold decodeBuffer decode
  rw [BufferProgram.size_bind]
  by_cases fits : headerSize ≤ buffer.length
  · have inside : ∀ {offset}, offset < headerSize → offset < buffer.length :=
      fun bound => Nat.lt_of_lt_of_le bound fits
    have within : ∀ {offset count}, offset + count ≤ headerSize → offset + count ≤ buffer.length :=
      fun bound => Nat.le_trans bound fits
    rw [Except.ensure_pos fits, BufferProgram.lift_ok_bind, Except.ok_bind]
    rw [BufferProgram.read_bind (within (by decide))]
    apply BufferProgram.lift_bind_run
    intro _
    rw [BufferProgram.read_bind (within (by decide))]
    apply BufferProgram.lift_bind_run
    intro _
    rw [BufferProgram.readByte_bind (inside (by decide))]
    apply BufferProgram.lift_bind_run
    intro _
    rw [BufferProgram.readByte_bind (inside (by decide))]
    apply BufferProgram.lift_bind_run
    intro _
    -- the checks are done: the rest only reads
    simp (disch := first | exact inside (by decide) | exact within (by decide)) only
      [BufferProgram.read_bind, BufferProgram.readByte_bind]
    rfl
  · rw [Except.ensure_neg fits, BufferProgram.lift_error_bind]
    rfl

/-! ## The accepted buffers -/

/-- The bytes that decoding looks at, with values that it accepts. -/
structure AcceptedBytes (buffer : List UInt8) : Prop where
  magic : slice buffer 0 4 = [0x43, 0x49, 0x41, 0x4C]
  version : slice buffer 4 2 = [0x01, 0x00]
  payloadFormat : byteAt buffer 28 ∈ [0, 1, 2]
  qos : byteAt buffer 29 ∈ [0, 1, 2]

theorem exists_payloadFormat {byte : UInt8} :
    (∃ format : PayloadFormat, byte = format.asU8) ↔ byte ∈ ([0, 1, 2] : List UInt8) := by
  simp only [List.mem_cons, List.not_mem_nil, or_false]
  constructor
  · rintro ⟨format, equal⟩
    cases format with
    | arrow => exact .inl equal
    | protobuf => exact .inr (.inl equal)
    | raw => exact .inr (.inr equal)
  · intro known
    obtain equal | equal | equal := known
    · exact ⟨.arrow, equal⟩
    · exact ⟨.protobuf, equal⟩
    · exact ⟨.raw, equal⟩

theorem exists_qos {byte : UInt8} :
    (∃ qos : Qos, byte = qos.asU8) ↔ byte ∈ ([0, 1, 2] : List UInt8) := by
  simp only [List.mem_cons, List.not_mem_nil, or_false]
  constructor
  · rintro ⟨qos, equal⟩
    cases qos with
    | normal => exact .inl equal
    | high => exact .inr (.inl equal)
    | emergency => exact .inr (.inr equal)
  · intro known
    obtain equal | equal | equal := known
    · exact ⟨.normal, equal⟩
    · exact ⟨.high, equal⟩
    · exact ⟨.emergency, equal⟩

/-- A field is read as `value` exactly when its bytes are those of `value`. -/
theorem ofLittleEndian_slice_eq {buffer : List UInt8} {offset width value : Nat}
    (inside : offset + width ≤ buffer.length) (small : value < 256 ^ width) :
    ofLittleEndian (slice buffer offset width) = value ↔
      slice buffer offset width = toLittleEndian width value := by
  constructor
  · intro equal
    rw [← equal, toLittleEndian_slice inside]
  · intro equal
    rw [equal, ofLittleEndian_toLittleEndian_of_lt small]

theorem decode_isOk {buffer : List UInt8} :
    (∃ header, decode buffer = .ok header) ↔ headerSize ≤ buffer.length ∧ AcceptedBytes buffer := by
  by_cases fits : headerSize ≤ buffer.length
  · have magicBytes : UInt32.ofNat (ofLittleEndian (slice buffer 0 4)) = Laic.magic ↔
        slice buffer 0 4 = [0x43, 0x49, 0x41, 0x4C] := by
      have inside : 0 + 4 ≤ buffer.length := Nat.le_trans (by decide) fits
      rw [← UInt32.toNat_inj, UInt32.toNat_ofNat_of_lt' (ofLittleEndian_slice_lt inside)]
      exact ofLittleEndian_slice_eq inside (by decide)
    have versionBytes : UInt16.ofNat (ofLittleEndian (slice buffer 4 2)) = Laic.version ↔
        slice buffer 4 2 = [0x01, 0x00] := by
      have inside : 4 + 2 ≤ buffer.length := Nat.le_trans (by decide) fits
      rw [← UInt16.toNat_inj, UInt16.toNat_ofNat_of_lt' (ofLittleEndian_slice_lt inside)]
      exact ofLittleEndian_slice_eq inside (by decide)
    simp only [decode, Except.bind_eq_ok, Except.ensure_eq_ok, Except.mapError_eq_ok,
      PayloadFormat.fromU8_eq_ok, Qos.fromU8_eq_ok]
    constructor
    · rintro ⟨_, _, _, _, magic, _, version, format, hasFormat, level, hasLevel, _⟩
      exact ⟨fits, magicBytes.mp magic, versionBytes.mp version,
        exists_payloadFormat.mp ⟨format, hasFormat⟩, exists_qos.mp ⟨level, hasLevel⟩⟩
    · rintro ⟨_, accepted⟩
      obtain ⟨format, hasFormat⟩ := exists_payloadFormat.mpr accepted.payloadFormat
      obtain ⟨level, hasLevel⟩ := exists_qos.mpr accepted.qos
      exact ⟨_, (), fits, (), magicBytes.mpr accepted.magic, (), versionBytes.mpr accepted.version,
        format, hasFormat, level, hasLevel, rfl⟩
  · constructor
    · rintro ⟨header, decoded⟩
      exact absurd (decode_inv decoded).2.1 fits
    · rintro ⟨long, _⟩
      exact absurd long fits

/-- What is decoded depends on the first 40 bytes alone. -/
theorem decode_take {buffer : List UInt8} (fits : headerSize ≤ buffer.length) :
    decode (buffer.take headerSize) = decode buffer := by
  have same : ∀ {offset count}, offset + count ≤ headerSize →
      slice (buffer.take headerSize) offset count = slice buffer offset count := by
    intro offset count inside
    rw [slice, slice, List.drop_take, List.take_take, Nat.min_eq_left (by omega)]
  have sameByte : ∀ {offset}, offset < headerSize →
      byteAt (buffer.take headerSize) offset = byteAt buffer offset := by
    intro offset inside
    simp [byteAt, inside]
  have length : (buffer.take headerSize).length = headerSize := List.length_take_of_le fits
  unfold decode
  rw [Except.ensure_pos fits, Except.ensure_pos (Nat.le_of_eq length.symm)]
  simp (disch := decide) only [same, sameByte]

/-! ## Canonical and atomic -/

/-- A decoded header is encoded as the 40 bytes it was decoded from. -/
theorem encodeBuffer_decode {buffer target : List UInt8} {header : MessageHeader}
    (decoded : decode buffer = .ok header) (fits : headerSize ≤ target.length) :
    header.encodeBuffer target =
      some (.ok (), buffer.take headerSize ++ target.drop headerSize) := by
  obtain ⟨valid, _, image⟩ := decode_inv decoded
  rw [encodeBuffer_run, encode_ok valid fits, image]

/-- An encoding that fails leaves the buffer as it was, one that succeeds replaces the first
40 bytes. -/
theorem encodeBuffer_atomic (header : MessageHeader) (target : List UInt8) :
    (∃ error, header.encodeBuffer target = some (.error error, target)) ∨
      headerSize ≤ target.length ∧ ∃ image, image.length = headerSize ∧
        header.encodeBuffer target = some (.ok (), image ++ target.drop headerSize) := by
  rw [encodeBuffer_run]
  cases encoded : header.encode target with
  | error error => exact .inl ⟨error, rfl⟩
  | ok written =>
    obtain ⟨_, fits, rfl⟩ := encode_inv encoded
    exact .inr ⟨fits, header.wire, header.wire_length, rfl⟩

/-- Encoding succeeds where decoding would accept what is written. -/
theorem encodeBuffer_isOk (header : MessageHeader) (target : List UInt8) :
    (∃ written, header.encodeBuffer target = some (.ok (), written)) ↔
      headerSize ≤ target.length ∧ ∃ written decoded,
        header.writeFields target = some (.ok (), written) ∧
          decodeBuffer written = some (.ok decoded, written) := by
  constructor
  · rintro ⟨written, ran⟩
    rw [encodeBuffer_run] at ran
    cases encoded : header.encode target with
    | error error =>
      rw [encoded] at ran
      cases ran
    | ok image =>
      obtain ⟨valid, fits, rfl⟩ := encode_inv encoded
      refine ⟨fits, _, header, writeFields_run header fits, ?_⟩
      rw [decodeBuffer_run, decode_wire valid]
  · rintro ⟨fits, written, decoded, ran, accepted⟩
    rw [writeFields_run header fits] at ran
    cases ran
    rw [decodeBuffer_run, decode_wire_append] at accepted
    cases checked : header.checkInvariants with
    | error error =>
      rw [checked] at accepted
      cases accepted
    | ok =>
      refine ⟨header.wire ++ target.drop headerSize, ?_⟩
      rw [encodeBuffer_run, encode_ok (checkInvariants_eq_ok.mp checked) fits]

/-- The codec is canonical and atomic.  Run on the first 40 bytes only, where a read behind
them would panic, decoding ends in what it ends in on the whole buffer. -/
theorem headerCodec_canonical :
    (∀ buffer : List UInt8,
      ((∃ header, decodeBuffer buffer = some (.ok header, buffer)) ↔
        headerSize ≤ buffer.length ∧ AcceptedBytes buffer) ∧
      (∃ result, decodeBuffer buffer = some (result, buffer) ∧
        decodeBuffer (buffer.take headerSize) = some (result, buffer.take headerSize)) ∧
      ∀ header, decodeBuffer buffer = some (.ok header, buffer) →
        ∀ target : List UInt8, headerSize ≤ target.length →
          header.encodeBuffer target =
            some (.ok (), buffer.take headerSize ++ target.drop headerSize)) ∧
    ∀ (header : MessageHeader) (target : List UInt8),
      ((∃ error, header.encodeBuffer target = some (.error error, target)) ∨
        headerSize ≤ target.length ∧ ∃ image, image.length = headerSize ∧
          header.encodeBuffer target = some (.ok (), image ++ target.drop headerSize)) ∧
      ((∃ written, header.encodeBuffer target = some (.ok (), written)) ↔
        headerSize ≤ target.length ∧ ∃ written decoded,
          header.writeFields target = some (.ok (), written) ∧
            decodeBuffer written = some (.ok decoded, written)) := by
  refine ⟨fun buffer => ⟨?_, ?_, ?_⟩, fun header target =>
    ⟨encodeBuffer_atomic header target, encodeBuffer_isOk header target⟩⟩
  · rw [← decode_isOk]
    simp [decodeBuffer_run]
  · refine ⟨decode buffer, decodeBuffer_run buffer, ?_⟩
    rw [decodeBuffer_run]
    by_cases fits : headerSize ≤ buffer.length
    · rw [decode_take fits]
    · -- a shorter buffer is its own beginning
      rw [List.take_of_length_le (by omega)]
  · intro header ran target fits
    rw [decodeBuffer_run] at ran
    exact encodeBuffer_decode (congrArg Prod.fst (Option.some.inj ran)) fits

end MessageHeader

end Laic
