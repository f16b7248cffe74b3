import Laic.Handshake.Messages
import Laic.Protocol.Message

/-! # The checks of the trust-domain handshake

Each check of the source with the exact error it returns, and one lemma for each that
says when it passes. -/

namespace Laic

def invalidHandshakePayload (detail : String) : LaicError :=
  .protocol (.invalidHandshakePayload detail)

def decodeControlMessage {M : Type} (codec : ProstCodec M) (message : Message) :
    Except LaicError M := do
  Except.ensure (message.msgType = MsgType.control)
    (.protocol (.unexpectedMessageType MsgType.control.asU16 message.msgType.asU16))
  let actualFormat ← (PayloadFormat.fromU8 message.header.payloadFormat).mapError .protocol
  Except.ensure (actualFormat = .protobuf)
    (.protocol (.unexpectedPayloadFormat PayloadFormat.protobuf.asU8 actualFormat.asU8))
  (decodeProto codec message.payload).mapError fun error =>
    invalidHandshakePayload s!"handshake protobuf decode failed: {error.display}"

def validateProtocolVersion (expected : UInt16) (actual : UInt32) : Except LaicError Unit := do
  Except.ensure (actual.toNat < UInt16.size)
    (invalidHandshakePayload s!"protocol_version {actual} exceeds u16")
  Except.ensure (actual.toUInt16 = expected)
    (.protocol (.unsupportedHandshakeVersion expected actual.toUInt16))

def validateExpectedDomain (expected : Option String) (actual : String) : Except LaicError Unit :=
  match expected with
  | some expectedDomain =>
    Except.ensure (expectedDomain = actual) (.protocol (.trustDomainMismatch expectedDomain actual))
  | none => .ok ()

def validateTrustDomain (field value : String) : Except LaicError Unit :=
  Except.ensure (value ≠ "") (invalidHandshakePayload s!"{field} must not be empty")

def decodeToken (field : String) (bytes : List UInt8) : Except LaicError Token :=
  if exact : bytes.length = handshakeTokenLen then
    .ok ⟨bytes.toArray, by simpa using exact⟩
  else
    .error (invalidHandshakePayload
      s!"{field} must be {handshakeTokenLen} bytes, got {bytes.length}")

def validatePeerHello (config : ServerHandshakeConfig) (hello : TrustDomainHello) :
    Except LaicError Unit := do
  validateTrustDomain "hello trust_domain" hello.trustDomain
  validateProtocolVersion config.protocolVersion hello.protocolVersion
  validateExpectedDomain config.expectedRemoteTrustDomain hello.trustDomain

def handshakeRejectedExpectedDomain : LaicError → Option String
  | .protocol (.trustDomainMismatch expected _) => some expected
  | _ => none

def validateAckShape (ack : TrustDomainHelloAck) : Except LaicError Unit :=
  if ack.rejectionCode = 0 then do
    Except.ensure (ack.rejectedExpectedRemoteTrustDomain = none)
      (invalidHandshakePayload "hello_ack success must not include rejection explanation")
    let _ ← decodeToken "server_nonce" ack.serverNonce
    let _ ← decodeToken "session_id" ack.sessionId
    return ()
  else do
    Except.ensure (ack.serverNonce = [])
      (invalidHandshakePayload "hello_ack rejection must not include server_nonce")
    Except.ensure (ack.sessionId = [])
      (invalidHandshakePayload "hello_ack rejection must not include session_id")

/-- `UNSUPPORTED_HANDSHAKE_VERSION_CODE`. -/
def unsupportedHandshakeVersionCode : UInt32 := 0x0308

/-- `TRUST_DOMAIN_MISMATCH_CODE`. -/
def trustDomainMismatchCode : UInt32 := 0x0309

/-- `INVALID_HANDSHAKE_PAYLOAD_CODE`. -/
def invalidHandshakePayloadCode : UInt32 := 0x030B

/-- The error that the client makes of a well-shaped rejection. -/
def ackRejection (config : ClientHandshakeConfig) (ack : TrustDomainHelloAck) : LaicError :=
  if ack.rejectionCode = unsupportedHandshakeVersionCode then
    if ack.protocolVersion.toNat < UInt16.size then
      if ack.protocolVersion.toUInt16 = config.protocolVersion then
        invalidHandshakePayload
          "hello_ack rejected protocol version but echoed a matching version"
      else
        .protocol (.unsupportedHandshakeVersion config.protocolVersion
          ack.protocolVersion.toUInt16)
    else
      invalidHandshakePayload
        s!"hello_ack rejection echoed protocol_version {ack.protocolVersion} outside u16"
  else if ack.rejectionCode = trustDomainMismatchCode then
    match ack.rejectedExpectedRemoteTrustDomain with
    | none =>
      invalidHandshakePayload "hello_ack trust-domain rejection omitted expected remote domain"
    | some expected => .protocol (.trustDomainMismatch expected config.localTrustDomain)
  else if ack.rejectionCode = invalidHandshakePayloadCode then
    invalidHandshakePayload "server rejected client hello as malformed"
  else
    invalidHandshakePayload
      ("unknown hello_ack rejection code 0x" ++ hexUpper 4 ack.rejectionCode.toNat)

def validateAckRejection (config : ClientHandshakeConfig) (ack : TrustDomainHelloAck) :
    Except LaicError Unit := do
  validateAckShape ack
  Except.ensure (ack.rejectionCode = 0) (ackRejection config ack)

/-! ## When the checks pass -/

theorem decodeControlMessage_eq_ok {M : Type} {codec : ProstCodec M} {message : Message} {value : M} :
    decodeControlMessage codec message = .ok value ↔
      message.msgType = MsgType.control ∧
        message.header.payloadFormat = PayloadFormat.protobuf.asU8 ∧
        codec.decode message.payload = .ok value := by
  simp only [decodeControlMessage, decodeProto, Except.bind_eq_ok, Except.ensure_eq_ok,
    Except.mapError_eq_ok, PayloadFormat.fromU8_eq_ok]
  constructor
  · rintro ⟨_, control, _, format, _, rfl, decoded⟩
    exact ⟨control, format, decoded⟩
  · rintro ⟨control, format, decoded⟩
    exact ⟨(), control, _, format, (), rfl, decoded⟩

theorem toUInt16_eq_iff {actual : UInt32} {expected : UInt16} :
    actual.toNat < UInt16.size ∧ actual.toUInt16 = expected ↔ actual = expected.toUInt32 := by
  constructor
  · rintro ⟨small, rfl⟩
    apply UInt32.toNat_inj.mp
    rw [UInt16.toNat_toUInt32, UInt32.toNat_toUInt16, Nat.mod_eq_of_lt small]
  · rintro rfl
    exact ⟨by simpa using expected.toNat_lt, by simp⟩

theorem validateProtocolVersion_eq_ok {expected : UInt16} {actual : UInt32} {value : Unit} :
    validateProtocolVersion expected actual = .ok value ↔ actual = expected.toUInt32 := by
  simp only [validateProtocolVersion, Except.bind_eq_ok, Except.ensure_eq_ok]
  rw [← toUInt16_eq_iff]
  constructor
  · rintro ⟨_, small, same⟩
    exact ⟨small, same⟩
  · rintro ⟨small, same⟩
    exact ⟨(), small, same⟩

/-- Between two configured versions the range check never fires. -/
theorem validateProtocolVersion_toUInt32 (expected actual : UInt16) :
    validateProtocolVersion expected actual.toUInt32 =
      Except.ensure (actual = expected)
        (.protocol (.unsupportedHandshakeVersion expected actual)) := by
  obtain ⟨small, same⟩ := toUInt16_eq_iff.mpr (rfl : actual.toUInt32 = actual.toUInt32)
  rw [validateProtocolVersion, Except.ensure_pos small, Except.ok_bind, same]

theorem validateExpectedDomain_eq_ok {expected : Option String} {actual : String} {value : Unit} :
    validateExpectedDomain expected actual = .ok value ↔ expected = none ∨ expected = some actual := by
  cases expected with
  | none => simp [validateExpectedDomain]
  | some expectedDomain => simp [validateExpectedDomain]

theorem validateExpectedDomain_eq_error {expected : Option String} {actual : String}
    {error : LaicError} :
    validateExpectedDomain expected actual = .error error ↔
      ∃ domain, expected = some domain ∧ domain ≠ actual ∧
        error = .protocol (.trustDomainMismatch domain actual) := by
  cases expected with
  | none => simp [validateExpectedDomain]
  | some domain =>
    simp only [validateExpectedDomain, Except.ensure_eq_error, Option.some.injEq]
    constructor
    · rintro ⟨mismatch, rfl⟩
      exact ⟨domain, rfl, mismatch, rfl⟩
    · rintro ⟨_, rfl, mismatch, rfl⟩
      exact ⟨mismatch, rfl⟩

theorem validateTrustDomain_eq_ok {field domain : String} {value : Unit} :
    validateTrustDomain field domain = .ok value ↔ domain ≠ "" :=
  Except.ensure_eq_ok

theorem decodeToken_eq_ok {field : String} {bytes : List UInt8} {token : Token} :
    decodeToken field bytes = .ok token ↔ bytes = token.toList := by
  unfold decodeToken
  split
  · rename_i exact
    constructor
    · intro equal
      cases equal
      rfl
    · rintro rfl
      rfl
  · rename_i wrong
    constructor
    · intro impossible
      cases impossible
    · rintro rfl
      simp at wrong

@[simp] theorem decodeToken_toList (field : String) (token : Token) :
    decodeToken field token.toList = .ok token :=
  decodeToken_eq_ok.mpr rfl

theorem exists_token_iff {bytes : List UInt8} :
    (∃ token : Token, bytes = token.toList) ↔ bytes.length = handshakeTokenLen := by
  constructor
  · rintro ⟨token, rfl⟩
    simp
  · intro exact
    exact ⟨⟨bytes.toArray, by simpa using exact⟩, rfl⟩

theorem validateAckRejection_eq_ok {config : ClientHandshakeConfig} {ack : TrustDomainHelloAck}
    {value : Unit} :
    validateAckRejection config ack = .ok value ↔
      ack.rejectionCode = 0 ∧ ack.rejectedExpectedRemoteTrustDomain = none ∧
        ack.serverNonce.length = handshakeTokenLen ∧ ack.sessionId.length = handshakeTokenLen := by
  simp only [validateAckRejection, validateAckShape, Except.bind_eq_ok, Except.ensure_eq_ok,
    ← exists_token_iff]
  constructor
  · rintro ⟨_, shape, accepted⟩
    rw [if_pos accepted] at shape
    simp only [Except.bind_eq_ok, Except.ensure_eq_ok, decodeToken_eq_ok] at shape
    obtain ⟨_, unexplained, serverNonce, hasServerNonce, sessionId, hasSessionId, _⟩ := shape
    exact ⟨accepted, unexplained, ⟨serverNonce, hasServerNonce⟩, ⟨sessionId, hasSessionId⟩⟩
  · rintro ⟨accepted, unexplained, ⟨serverNonce, hasServerNonce⟩, ⟨sessionId, hasSessionId⟩⟩
    refine ⟨(), ?_, accepted⟩
    rw [if_pos accepted]
    simp [hasServerNonce, hasSessionId, Except.ensure_pos unexplained]

/-- A rejection without session material passes the shape check and is reported. -/
theorem validateAckRejection_rejected {config : ClientHandshakeConfig} {ack : TrustDomainHelloAck}
    (rejected : ack.rejectionCode ≠ 0) (noNonce : ack.serverNonce = []) (noSession : ack.sessionId = []) :
    validateAckRejection config ack = .error (ackRejection config ack) := by
  rw [validateAckRejection, validateAckShape, if_neg rejected, Except.ensure_pos noNonce,
    Except.ensure_pos noSession, Except.ensure_neg rejected]
  rfl

end Laic
