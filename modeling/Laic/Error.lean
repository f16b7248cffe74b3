/-! # Errors and their stable codes

`LaicError` with its four layers, the numeric code of every variant and the text
each variant displays as.  The codes are the cross-language contract; the texts
matter where one error's text is quoted in the detail of another. -/

namespace Laic

/-- Stable numeric error code. -/
structure ErrorCode where
  asU16 : UInt16
  deriving DecidableEq, Repr

/-- Uppercase hexadecimal, zero-padded to `width` digits. -/
def hexUpper (width n : Nat) : String :=
  let digits := (Nat.toDigits 16 n).map Char.toUpper
  String.ofList (List.replicate (width - digits.length) '0' ++ digits)

/-- Protocol-level errors (`0x03xx`). -/
inductive ProtocolError where
  | invalidMagic (actual : UInt32)
  | bufferTooShort (actual expected : Nat)
  | unsupportedVersion (version : UInt16)
  | invalidPayloadFormat (value : UInt8)
  | invalidQos (value : UInt8)
  | payloadLengthMismatch (headerLen : UInt32) (actualLen : Nat)
  | unexpectedMessageType (expected actual : UInt16)
  | unexpectedPayloadFormat (expected actual : UInt8)
  | unsupportedHandshakeVersion (expected actual : UInt16)
  | trustDomainMismatch (expected actual : String)
  | handshakeNonceMismatch
  | invalidHandshakePayload (detail : String)
  deriving DecidableEq, Repr

def ProtocolError.code : ProtocolError → ErrorCode
  | .invalidMagic _ => ⟨0x0301⟩
  | .bufferTooShort _ _ => ⟨0x0302⟩
  | .unsupportedVersion _ => ⟨0x0303⟩
  | .invalidPayloadFormat _ => ⟨0x0304⟩
  | .invalidQos _ => ⟨0x0305⟩
  | .payloadLengthMismatch _ _ => ⟨0x0306⟩
  | .unexpectedMessageType _ _ => ⟨0x0307⟩
  | .unsupportedHandshakeVersion _ _ => ⟨0x0308⟩
  | .trustDomainMismatch _ _ => ⟨0x0309⟩
  | .handshakeNonceMismatch => ⟨0x030A⟩
  | .invalidHandshakePayload _ => ⟨0x030B⟩
  | .unexpectedPayloadFormat _ _ => ⟨0x030C⟩

def ProtocolError.display : ProtocolError → String
  | .invalidMagic actual =>
    "invalid magic: expected 0x4C414943, got 0x" ++ hexUpper 8 actual.toNat
  | .bufferTooShort actual expected =>
    s!"buffer too short: {actual} bytes, need {expected}"
  | .unsupportedVersion version => "unsupported version: 0x" ++ hexUpper 4 version.toNat
  | .invalidPayloadFormat value => s!"invalid payload format: {value}"
  | .invalidQos value => s!"invalid QoS: {value}"
  | .payloadLengthMismatch headerLen actualLen =>
    s!"payload length mismatch: header says {headerLen}, actual {actualLen}"
  | .unexpectedMessageType expected actual =>
    "unexpected message type: expected 0x" ++ hexUpper 4 expected.toNat ++
      ", got 0x" ++ hexUpper 4 actual.toNat
  | .unexpectedPayloadFormat expected actual =>
    "unexpected payload format: expected 0x" ++ hexUpper 2 expected.toNat ++
      ", got 0x" ++ hexUpper 2 actual.toNat
  | .unsupportedHandshakeVersion expected actual =>
    "unsupported handshake version: expected 0x" ++ hexUpper 4 expected.toNat ++
      ", got 0x" ++ hexUpper 4 actual.toNat
  | .trustDomainMismatch expected actual =>
    s!"trust-domain mismatch: expected {expected}, got {actual}"
  | .handshakeNonceMismatch => "handshake nonce mismatch"
  | .invalidHandshakePayload detail => s!"invalid handshake payload: {detail}"

/-- Transport-level errors (`0x01xx`). -/
inductive TransportError where
  | connectionFailed (detail : String)
  | connectionLost (detail : String)
  | notConnected
  | sendFailed (detail : String)
  | receiveFailed (detail : String)
  | timeout (operation : String)
  | backpressureFull
  | shuttingDown
  | framingError (detail : String)
  deriving DecidableEq, Repr

def TransportError.code : TransportError → ErrorCode
  | .connectionFailed _ => ⟨0x0101⟩
  | .connectionLost _ => ⟨0x0102⟩
  | .notConnected => ⟨0x0103⟩
  | .sendFailed _ => ⟨0x0104⟩
  | .receiveFailed _ => ⟨0x0105⟩
  | .timeout _ => ⟨0x0106⟩
  | .backpressureFull => ⟨0x0107⟩
  | .shuttingDown => ⟨0x0108⟩
  | .framingError _ => ⟨0x0109⟩

def TransportError.display : TransportError → String
  | .connectionFailed detail => s!"connection failed: {detail}"
  | .connectionLost detail => s!"connection lost: {detail}"
  | .notConnected => "not connected"
  | .sendFailed detail => s!"send failed: {detail}"
  | .receiveFailed detail => s!"receive failed: {detail}"
  | .timeout operation => s!"timeout: {operation}"
  | .backpressureFull => "backpressure: send queue full"
  | .shuttingDown => "transport shutting down"
  | .framingError detail => s!"framing error: {detail}"

/-- Codec-level errors (`0x02xx`). -/
inductive CodecError where
  | arrowEncode (detail : String)
  | arrowDecode (detail : String)
  | protoEncode (detail : String)
  | protoDecode (detail : String)
  deriving DecidableEq, Repr

def CodecError.code : CodecError → ErrorCode
  | .arrowEncode _ => ⟨0x0201⟩
  | .arrowDecode _ => ⟨0x0202⟩
  | .protoEncode _ => ⟨0x0203⟩
  | .protoDecode _ => ⟨0x0204⟩

def CodecError.display : CodecError → String
  | .arrowEncode detail => s!"Arrow encode failed: {detail}"
  | .arrowDecode detail => s!"Arrow decode failed: {detail}"
  | .protoEncode detail => s!"Protobuf encode failed: {detail}"
  | .protoDecode detail => s!"Protobuf decode failed: {detail}"

/-- Flow control errors (`0x04xx`). -/
inductive FlowError where
  | creditExhausted
  deriving DecidableEq, Repr

def FlowError.code : FlowError → ErrorCode
  | .creditExhausted => ⟨0x0401⟩

def FlowError.display : FlowError → String
  | .creditExhausted => "credit exhausted: no credits remaining"

/-- Top-level error: one constructor for each layer. -/
inductive LaicError where
  | protocol (error : ProtocolError)
  | codec (error : CodecError)
  | transport (error : TransportError)
  | flow (error : FlowError)
  deriving DecidableEq, Repr

def LaicError.code : LaicError → ErrorCode
  | .protocol error => error.code
  | .codec error => error.code
  | .transport error => error.code
  | .flow error => error.code

def LaicError.display : LaicError → String
  | .protocol error => s!"protocol error: {error.display}"
  | .codec error => s!"codec error: {error.display}"
  | .transport error => s!"transport error: {error.display}"
  | .flow error => s!"flow control error: {error.display}"

/-- No error has the code 0, which stands for success where a code is sent. -/
theorem LaicError.code_ne_zero (error : LaicError) : error.code.asU16.toUInt32 ≠ 0 := by
  cases error with
  | protocol error => cases error <;> simp [LaicError.code, ProtocolError.code]
  | codec error => cases error <;> simp [LaicError.code, CodecError.code]
  | transport error => cases error <;> simp [LaicError.code, TransportError.code]
  | flow error => cases error; simp [LaicError.code, FlowError.code]

instance : Coe ProtocolError LaicError := ⟨.protocol⟩
instance : Coe TransportError LaicError := ⟨.transport⟩
instance : Coe CodecError LaicError := ⟨.codec⟩
instance : Coe FlowError LaicError := ⟨.flow⟩

/-! ## Retryability -/

/-- All protocol errors are permanent. -/
def ProtocolError.isRetryable : ProtocolError → Bool := fun _ => false

/-- All codec errors are permanent. -/
def CodecError.isRetryable : CodecError → Bool := fun _ => false

def TransportError.isRetryable : TransportError → Bool
  | .connectionFailed _ | .connectionLost _ | .sendFailed _ | .receiveFailed _ | .timeout _
  | .backpressureFull => true
  | .notConnected | .shuttingDown | .framingError _ => false

def FlowError.isRetryable : FlowError → Bool
  | .creditExhausted => true

/-- Whether the caller should retry the operation. -/
def LaicError.isRetryable : LaicError → Bool
  | .protocol error => error.isRetryable
  | .codec error => error.isRetryable
  | .transport error => error.isRetryable
  | .flow error => error.isRetryable

end Laic
