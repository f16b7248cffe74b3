import Laic.Lib.Except
import Laic.Lib.LittleEndian
import Laic.Protocol.Constants

/-! # The 40-byte message header

`MessageHeader.encode` writes eleven little-endian fields into a buffer after four
validity checks, `MessageHeader.decode` reads them back with the same checks.
`MessageHeader.Valid` is what the checks decide and `MessageHeader.wire` the bytes
that are written; later modules use the two through the spec lemmas `encode_ok`,
`decode_wire` and `decode_inv` only. -/

namespace Laic

open Bytes

structure MessageHeader where
  magic : UInt32
  version : UInt16
  msgType : UInt16
  msgId : UInt64
  correlationId : UInt64
  payloadLen : UInt32
  payloadFormat : UInt8
  qos : UInt8
  creditGrant : UInt16
  flags : UInt32
  reserved : Vector UInt8 4
  deriving DecidableEq, Repr

namespace MessageHeader

/-- The four checks that `encode` and `Message::from_parts` make on a header, in
their common order. -/
def checkInvariants (header : MessageHeader) : Except LaicError Unit := do
  Except.ensure (header.magic = Laic.magic) (.protocol (.invalidMagic header.magic))
  Except.ensure (header.version = Laic.version) (.protocol (.unsupportedVersion header.version))
  let _ ← (PayloadFormat.fromU8 header.payloadFormat).mapError .protocol
  let _ ← (Qos.fromU8 header.qos).mapError .protocol
  return ()

/-- Write this header over the start of `buffer`. -/
def encode (header : MessageHeader) (buffer : List UInt8) : Except LaicError (List UInt8) := do
  Except.ensure (headerSize ≤ buffer.length)
    (.protocol (.bufferTooShort buffer.length headerSize))
  header.checkInvariants
  let buffer := splice buffer 0 (toLittleEndian 4 header.magic.toNat)
  let buffer := splice buffer 4 (toLittleEndian 2 header.version.toNat)
  let buffer := splice buffer 6 (toLittleEndian 2 header.msgType.toNat)
  let buffer := splice buffer 8 (toLittleEndian 8 header.msgId.toNat)
  let buffer := splice buffer 16 (toLittleEndian 8 header.correlationId.toNat)
  let buffer := splice buffer 24 (toLittleEndian 4 header.payloadLen.toNat)
  let buffer := splice buffer 28 [header.payloadFormat]
  let buffer := splice buffer 29 [header.qos]
  let buffer := splice buffer 30 (toLittleEndian 2 header.creditGrant.toNat)
  let buffer := splice buffer 32 (toLittleEndian 4 header.flags.toNat)
  return splice buffer 36 header.reserved.toList

/-- Decode a header from the start of `buffer`. -/
def decode (buffer : List UInt8) : Except LaicError MessageHeader := do
  Except.ensure (headerSize ≤ buffer.length)
    (.protocol (.bufferTooShort buffer.length headerSize))
  let magic := UInt32.ofNat (ofLittleEndian (slice buffer 0 4))
  Except.ensure (magic = Laic.magic) (.protocol (.invalidMagic magic))
  let version := UInt16.ofNat (ofLittleEndian (slice buffer 4 2))
  Except.ensure (version = Laic.version) (.protocol (.unsupportedVersion version))
  let payloadFormat := byteAt buffer 28
  let _ ← (PayloadFormat.fromU8 payloadFormat).mapError .protocol
  let qos := byteAt buffer 29
  let _ ← (Qos.fromU8 qos).mapError .protocol
  return {
    magic := magic
    version := version
    msgType := UInt16.ofNat (ofLittleEndian (slice buffer 6 2))
    msgId := UInt64.ofNat (ofLittleEndian (slice buffer 8 8))
    correlationId := UInt64.ofNat (ofLittleEndian (slice buffer 16 8))
    payloadLen := UInt32.ofNat (ofLittleEndian (slice buffer 24 4))
    payloadFormat := payloadFormat
    qos := qos
    creditGrant := UInt16.ofNat (ofLittleEndian (slice buffer 30 2))
    flags := UInt32.ofNat (ofLittleEndian (slice buffer 32 4))
    reserved := #v[byteAt buffer 36, byteAt buffer 37, byteAt buffer 38, byteAt buffer 39] }

/-! ## What the checks decide -/

/-- The protocol-invariant fields hold values that a receiver accepts. -/
structure Valid (header : MessageHeader) : Prop where
  magic : header.magic = Laic.magic
  version : header.version = Laic.version
  payloadFormat : ∃ format : PayloadFormat, header.payloadFormat = format.asU8
  qos : ∃ qos : Qos, header.qos = qos.asU8

theorem checkInvariants_eq_ok {header : MessageHeader} {value : Unit} :
    header.checkInvariants = .ok value ↔ header.Valid := by
  simp only [checkInvariants, Except.bind_eq_ok, Except.ensure_eq_ok, Except.mapError_eq_ok,
    PayloadFormat.fromU8_eq_ok, Qos.fromU8_eq_ok]
  constructor
  · rintro ⟨_, magic, _, version, format, hasFormat, qos, hasQos, _⟩
    exact ⟨magic, version, ⟨format, hasFormat⟩, ⟨qos, hasQos⟩⟩
  · rintro ⟨magic, version, ⟨format, hasFormat⟩, ⟨qos, hasQos⟩⟩
    exact ⟨(), magic, (), version, format, hasFormat, qos, hasQos, rfl⟩

/-! ## The wire image -/

theorem vector_four_eta (bytes : Vector UInt8 4) :
    bytes = #v[bytes[0], bytes[1], bytes[2], bytes[3]] := by
  ext index bound
  match index, bound with
  | 0, _ | 1, _ | 2, _ | 3, _ => rfl

/-- The 40 bytes of a header. -/
def wire (header : MessageHeader) : List UInt8 :=
  toLittleEndian 4 header.magic.toNat ++ toLittleEndian 2 header.version.toNat ++
    toLittleEndian 2 header.msgType.toNat ++ toLittleEndian 8 header.msgId.toNat ++
    toLittleEndian 8 header.correlationId.toNat ++ toLittleEndian 4 header.payloadLen.toNat ++
    [header.payloadFormat] ++ [header.qos] ++ toLittleEndian 2 header.creditGrant.toNat ++
    toLittleEndian 4 header.flags.toNat ++ header.reserved.toList

@[simp] theorem wire_length (header : MessageHeader) : header.wire.length = headerSize := by
  simp [wire, headerSize]

/-- On a long enough buffer a valid header is encoded as its wire image, and the rest
of the buffer stays as it was. -/
theorem encode_ok {header : MessageHeader} {buffer : List UInt8} (valid : header.Valid)
    (fits : headerSize ≤ buffer.length) :
    header.encode buffer = .ok (header.wire ++ buffer.drop headerSize) := by
  have checked : header.checkInvariants = .ok () := checkInvariants_eq_ok.mpr valid
  simp only [encode, Except.ensure_pos fits, checked, Except.ok_bind]
  rw [show buffer = [] ++ buffer from rfl]
  simp (disch := simp) only [splice_append]
  simp [wire, headerSize]

/-- Encoding changes no length, and it succeeds on valid headers only. -/
theorem encode_inv {header : MessageHeader} {buffer written : List UInt8}
    (encoded : header.encode buffer = .ok written) :
    header.Valid ∧ headerSize ≤ buffer.length ∧ written = header.wire ++ buffer.drop headerSize := by
  have checks := encoded
  simp only [encode, Except.bind_eq_ok, Except.ensure_eq_ok] at checks
  obtain ⟨_, fits, _, checked, _⟩ := checks
  have valid := checkInvariants_eq_ok.mp checked
  rw [encode_ok valid fits] at encoded
  exact ⟨valid, fits, (Except.ok.inj encoded).symm⟩

theorem encode_length {header : MessageHeader} {buffer written : List UInt8}
    (encoded : header.encode buffer = .ok written) : written.length = buffer.length := by
  obtain ⟨_, fits, rfl⟩ := encode_inv encoded
  rw [List.length_append, wire_length, List.length_drop]
  omega

theorem uint16_roundTrip (value : UInt16) :
    UInt16.ofNat (ofLittleEndian (toLittleEndian 2 value.toNat)) = value := by
  rw [ofLittleEndian_toLittleEndian_of_lt value.toNat_lt, UInt16.ofNat_toNat]

theorem uint32_roundTrip (value : UInt32) :
    UInt32.ofNat (ofLittleEndian (toLittleEndian 4 value.toNat)) = value := by
  rw [ofLittleEndian_toLittleEndian_of_lt value.toNat_lt, UInt32.ofNat_toNat]

theorem uint64_roundTrip (value : UInt64) :
    UInt64.ofNat (ofLittleEndian (toLittleEndian 8 value.toNat)) = value := by
  rw [ofLittleEndian_toLittleEndian_of_lt value.toNat_lt, UInt64.ofNat_toNat]

/-- On a wire image, whatever follows it, decoding makes the checks and gives the header
back. -/
theorem decode_wire_append (header : MessageHeader) (rest : List UInt8) :
    decode (header.wire ++ rest) = (do header.checkInvariants; return header) := by
  obtain ⟨magic, version, msgType, msgId, correlationId, payloadLen, payloadFormat, qos,
    creditGrant, flags, reserved⟩ := header
  obtain ⟨r0, r1, r2, r3, rfl⟩ : ∃ r0 r1 r2 r3, reserved = #v[r0, r1, r2, r3] :=
    ⟨_, _, _, _, vector_four_eta reserved⟩
  -- the fields lie end to end, so each read skips the fields before its own
  simp (disch := simp [headerSize]) only [decode, checkInvariants, wire, List.append_assoc,
    Nat.reduceSub, slice_append_right, slice_append_left, byteAt_append_right,
    toLittleEndian_length, List.length_singleton]
  simp only [uint16_roundTrip, uint32_roundTrip, uint64_roundTrip, List.singleton_append,
    byteAt_cons_zero]
  rw [Except.ensure_pos (by simp [headerSize]; omega), Except.ok_bind]
  cases Except.ensure (magic = Laic.magic) _ with
  | error => rfl
  | ok =>
    cases Except.ensure (version = Laic.version) _ with
    | error => rfl
    | ok =>
      cases (PayloadFormat.fromU8 payloadFormat).mapError LaicError.protocol with
      | error => rfl
      | ok =>
        cases (Qos.fromU8 qos).mapError LaicError.protocol with
        | error => rfl
        | ok => rfl

/-- Decoding the wire image of a valid header gives the header back. -/
theorem decode_wire {header : MessageHeader} (valid : header.Valid) (rest : List UInt8) :
    decode (header.wire ++ rest) = .ok header := by
  have checked : header.checkInvariants = .ok () := checkInvariants_eq_ok.mpr valid
  rw [decode_wire_append, checked]
  rfl

/-- The payload length field sits at bytes 24 to 27 of the wire image. -/
theorem wire_payloadLen (header : MessageHeader) :
    ofLittleEndian (slice header.wire 24 4) = header.payloadLen.toNat := by
  simp (disch := simp) only [wire, List.append_assoc, Nat.reduceSub, slice_append_right,
    slice_append_left, toLittleEndian_length]
  exact ofLittleEndian_toLittleEndian_of_lt header.payloadLen.toNat_lt

/-- Only wire images of valid headers are decoded: what `decode` accepts starts with
the 40 bytes that `encode` would write for the result. -/
theorem decode_inv {buffer : List UInt8} {header : MessageHeader}
    (decoded : decode buffer = .ok header) :
    header.Valid ∧ headerSize ≤ buffer.length ∧ buffer.take headerSize = header.wire := by
  simp only [decode, Except.bind_eq_ok, Except.ensure_eq_ok, Except.mapError_eq_ok,
    PayloadFormat.fromU8_eq_ok, Qos.fromU8_eq_ok] at decoded
  obtain ⟨_, long, _, magic, _, version, format, hasFormat, level, hasLevel, equal⟩ := decoded
  cases equal
  refine ⟨⟨magic, version, ⟨format, hasFormat⟩, ⟨level, hasLevel⟩⟩, long, ?_⟩
  have inside : ∀ {offset width}, offset + width ≤ headerSize → offset + width ≤ buffer.length :=
    fun bound => Nat.le_trans bound long
  -- every field is written back as the bytes it was read from
  have u16 : ∀ {offset}, offset + 2 ≤ headerSize →
      toLittleEndian 2 (UInt16.ofNat (ofLittleEndian (slice buffer offset 2))).toNat =
        slice buffer offset 2 := fun bound => by
    rw [UInt16.toNat_ofNat_of_lt' (ofLittleEndian_slice_lt (inside bound)),
      toLittleEndian_slice (inside bound)]
  have u32 : ∀ {offset}, offset + 4 ≤ headerSize →
      toLittleEndian 4 (UInt32.ofNat (ofLittleEndian (slice buffer offset 4))).toNat =
        slice buffer offset 4 := fun bound => by
    rw [UInt32.toNat_ofNat_of_lt' (ofLittleEndian_slice_lt (inside bound)),
      toLittleEndian_slice (inside bound)]
  have u64 : ∀ {offset}, offset + 8 ≤ headerSize →
      toLittleEndian 8 (UInt64.ofNat (ofLittleEndian (slice buffer offset 8))).toNat =
        slice buffer offset 8 := fun bound => by
    rw [UInt64.toNat_ofNat_of_lt' (ofLittleEndian_slice_lt (inside bound)),
      toLittleEndian_slice (inside bound)]
  have u8 : ∀ offset, offset + 1 ≤ headerSize → [byteAt buffer offset] = slice buffer offset 1 :=
    fun _ bound => (slice_one (inside bound)).symm
  calc buffer.take headerSize
      = slice buffer 0 4 ++ slice buffer 4 2 ++ slice buffer 6 2 ++ slice buffer 8 8 ++
          slice buffer 16 8 ++ slice buffer 24 4 ++ slice buffer 28 1 ++ slice buffer 29 1 ++
          slice buffer 30 2 ++ slice buffer 32 4 ++ slice buffer 36 1 ++ slice buffer 37 1 ++
          slice buffer 38 1 ++ slice buffer 39 1 := by
        simp (disch := decide) only [slice_append_slice]
        rfl
    _ = _ := by
        simp (disch := decide) only [wire, u16, u32, u64, u8]
        simp only [List.append_assoc, ← u8 36 (by decide), ← u8 37 (by decide),
          ← u8 38 (by decide), ← u8 39 (by decide)]
        rfl

end MessageHeader

end Laic
