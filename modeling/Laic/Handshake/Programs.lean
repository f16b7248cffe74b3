import Laic.Handshake.Validate
import Laic.Transport.Framing

/-! # The two sides of the trust-domain handshake

`clientHandshake` and `serverHandshake` are the two programs over an open connection, on
which `send` is `writeFrame` and `receive` is `readFrame`.  What a call observes of its
process (counters and clock) is an argument, so that results hold whichever other calls
it shares the process with. -/

namespace Laic

/-- How a handshake ends without a session: with an error, or by a panic. -/
inductive Abort where
  | error (error : LaicError)
  | panic
  deriving DecidableEq, Repr

instance : MonadLift (Except LaicError) (Async Abort) where
  monadLift result := .ret (result.mapError .error)

instance : MonadLift (Async LaicError) (Async Abort) where
  monadLift program := program.mapError .error

/-- What the client's call observes. -/
structure ClientView where
  clientNonce : Tick
  msgId : UInt64

/-- What the server's call observes. -/
structure ServerView where
  serverNonce : Tick
  sessionId : Tick
  msgId : UInt64

def sendControlMessage (msgId : UInt64) (payload : List UInt8) : Async Abort Unit :=
  match Message.new .control msgId .protobuf .high payload with
  | some message => liftM (writeFrame message)
  | none => .ret (.error .panic)

/-- The hello of a client. -/
def ClientHandshakeConfig.hello (config : ClientHandshakeConfig) (clientNonce : Token) :
    TrustDomainHello where
  protocolVersion := config.protocolVersion.toUInt32
  trustDomain := config.localTrustDomain
  clientNonce := clientNonce.toList

/-- What the client makes of the ack it received in reply. -/
def acceptAck (config : ClientHandshakeConfig) (clientNonce : Token) (ack : TrustDomainHelloAck) :
    Except LaicError TrustDomainSession := do
  validateProtocolVersion config.protocolVersion ack.protocolVersion
  validateTrustDomain "hello_ack trust_domain" ack.trustDomain
  validateExpectedDomain config.expectedRemoteTrustDomain ack.trustDomain
  validateAckRejection config ack
  let echoedClientNonce ← decodeToken "client_nonce" ack.clientNonce
  Except.ensure (echoedClientNonce = clientNonce) (.protocol .handshakeNonceMismatch)
  let serverNonce ← decodeToken "server_nonce" ack.serverNonce
  let sessionId ← decodeToken "session_id" ack.sessionId
  return {
    protocolVersion := config.protocolVersion
    localTrustDomain := config.localTrustDomain
    remoteTrustDomain := ack.trustDomain
    clientNonce := clientNonce
    serverNonce := serverNonce
    sessionId := sessionId }

def clientHandshake (codec : HandshakeCodec) (view : ClientView) (config : ClientHandshakeConfig) :
    Async Abort TrustDomainSession := do
  liftM (validateTrustDomain "client hello trust_domain" config.localTrustDomain)
  let clientNonce := nextHandshakeToken view.clientNonce
  let payload ← liftM (encodeProto codec.hello (config.hello clientNonce))
  sendControlMessage view.msgId payload
  let ackMessage ← liftM readFrame
  let ack ← liftM (decodeControlMessage codec.ack ackMessage)
  liftM (acceptAck config clientNonce ack)

/-- The ack that accepts a hello. -/
def ServerHandshakeConfig.acceptance (config : ServerHandshakeConfig)
    (clientNonce serverNonce sessionId : Token) : TrustDomainHelloAck where
  protocolVersion := config.protocolVersion.toUInt32
  trustDomain := config.localTrustDomain
  clientNonce := clientNonce.toList
  serverNonce := serverNonce.toList
  sessionId := sessionId.toList
  rejectionCode := 0
  rejectedExpectedRemoteTrustDomain := none

/-- The ack that refuses a hello for `error`. -/
def ServerHandshakeConfig.rejection (config : ServerHandshakeConfig) (clientNonce : Token)
    (error : LaicError) : TrustDomainHelloAck where
  protocolVersion := config.protocolVersion.toUInt32
  trustDomain := config.localTrustDomain
  clientNonce := clientNonce.toList
  serverNonce := []
  sessionId := []
  rejectionCode := error.code.asU16.toUInt32
  rejectedExpectedRemoteTrustDomain := handshakeRejectedExpectedDomain error

def serverHandshake (codec : HandshakeCodec) (view : ServerView) (config : ServerHandshakeConfig) :
    Async Abort TrustDomainSession := do
  liftM (validateTrustDomain "server hello_ack trust_domain" config.localTrustDomain)
  let helloMessage ← liftM readFrame
  let hello ← liftM (decodeControlMessage codec.hello helloMessage)
  let clientNonce ← liftM (decodeToken "client_nonce" hello.clientNonce)
  match validatePeerHello config hello with
  | .ok _ =>
    let serverNonce := nextHandshakeToken view.serverNonce
    let sessionId := nextHandshakeToken view.sessionId
    let ack := config.acceptance clientNonce serverNonce sessionId
    sendControlMessage view.msgId (← liftM (encodeProto codec.ack ack))
    return {
      protocolVersion := config.protocolVersion
      localTrustDomain := config.localTrustDomain
      remoteTrustDomain := hello.trustDomain
      clientNonce := clientNonce
      serverNonce := serverNonce
      sessionId := sessionId }
  | .error error =>
    let ack := config.rejection clientNonce error
    sendControlMessage view.msgId (← liftM (encodeProto codec.ack ack))
    .ret (.error (.error error))

@[simp] theorem liftM_except {α : Type} (result : Except LaicError α) :
    (liftM result : Async Abort α) = .ret (result.mapError .error) := rfl

@[simp] theorem liftM_async {α : Type} (program : Async LaicError α) :
    (liftM program : Async Abort α) = program.mapError .error := rfl

/-! ## Sending a control message -/

/-- The message can be sent: it encodes and fits one frame. -/
def ProstCodec.Sends {M : Type} (codec : ProstCodec M) (message : M) : Prop :=
  ∃ bytes, codec.encode message = .ok bytes ∧ bytes.length ≤ maxPayloadLen.toNat

/-- A message that carries the encoding of `content` as the handshake sends it. -/
structure Carries {M : Type} (codec : ProstCodec M) (content : M) (message : Message) : Prop where
  valid : message.Valid
  bounded : message.payload.length ≤ maxPayloadLen.toNat
  control : message.msgType = MsgType.control
  format : message.header.payloadFormat = PayloadFormat.protobuf.asU8
  encoded : codec.encode content = .ok message.payload

/-- A payload within the frame limit is sent as one control message. -/
theorem ProstCodec.Sends.carried {M : Type} {codec : ProstCodec M} {content : M}
    (sends : codec.Sends content) (msgId : UInt64) :
    ∃ message, Carries codec content message ∧ encodeProto codec content = .ok message.payload ∧
      sendControlMessage msgId message.payload = liftM (writeFrame message) := by
  obtain ⟨payload, encoded, bounded⟩ := sends
  have fits : payload.length ≤ UInt32.size - 1 := Nat.le_trans bounded (by decide)
  cases made : Message.new .control msgId .protobuf .high payload with
  | none =>
    simp only [Message.new, if_pos fits] at made
    cases made
  | some message =>
    obtain ⟨valid, msgType, format, rfl⟩ := Message.new_eq_some made
    refine ⟨message, ⟨valid, bounded, congrArg MsgType.mk msgType, format, encoded⟩, ?_, ?_⟩
    · simp [encodeProto, encoded, Except.mapError_ok]
    · simp [sendControlMessage, made]

theorem Carries.decoded {M : Type} {codec : ProstCodec M} {content : M} {message : Message}
    (carries : Carries codec content message) (lawful : codec.Lawful) :
    decodeControlMessage codec message = .ok content := by
  obtain ⟨bytes, encoded, decoded⟩ := lawful content
  have same := carries.encoded
  rw [encoded] at same
  cases same
  exact decodeControlMessage_eq_ok.mpr ⟨carries.control, carries.format, decoded⟩

/-! ## Names short enough to send -/

theorem Token.toList_length (token : Token) : token.toList.length = 16 := by
  rw [Vector.length_toList]
  rfl

theorem protobuf_sends_hello (client : ClientHandshakeConfig)
    (name : (ProtoWire.utf8 client.localTrustDomain).length ≤ 2 ^ 20) (clientNonce : Token) :
    protobuf.hello.Sends (client.hello clientNonce) := by
  refine ⟨_, rfl, ?_⟩
  have version := ProtoWire.encode_uint32Field_length_le 1 client.protocolVersion.toUInt32
  have domain := ProtoWire.encode_bytesField_length_le 2 (ProtoWire.utf8 client.localTrustDomain)
  have token := ProtoWire.encode_bytesField_length_le 3 clientNonce.toList
  have small := client.protocolVersion.toUInt32.toNat_lt
  have limit : maxPayloadLen.toNat = 64 * 2 ^ 20 := rfl
  rw [clientNonce.toList_length] at token
  simp only [ClientHandshakeConfig.hello, TrustDomainHello.fields, ProtoWire.stringField,
    ProtoWire.encode_append, List.length_append]
  omega

theorem protobuf_sends_ack (ack : TrustDomainHelloAck)
    (name : (ProtoWire.utf8 ack.trustDomain).length ≤ 2 ^ 20)
    (version : ack.protocolVersion.toNat < 2 ^ 16) (code : ack.rejectionCode.toNat < 2 ^ 16)
    (clientNonce : ack.clientNonce.length ≤ 16) (serverNonce : ack.serverNonce.length ≤ 16)
    (sessionId : ack.sessionId.length ≤ 16)
    (explanation : ∀ name, ack.rejectedExpectedRemoteTrustDomain = some name →
      (ProtoWire.utf8 name).length ≤ 2 ^ 20) : protobuf.ack.Sends ack := by
  refine ⟨_, rfl, ?_⟩
  have versionField := ProtoWire.encode_uint32Field_length_le 1 ack.protocolVersion
  have nameField := ProtoWire.encode_bytesField_length_le 2 (ProtoWire.utf8 ack.trustDomain)
  have clientNonceField := ProtoWire.encode_bytesField_length_le 3 ack.clientNonce
  have serverNonceField := ProtoWire.encode_bytesField_length_le 4 ack.serverNonce
  have sessionIdField := ProtoWire.encode_bytesField_length_le 5 ack.sessionId
  have codeField := ProtoWire.encode_uint32Field_length_le 6 ack.rejectionCode
  have explanationField := ProtoWire.encode_optionalStringField_length_le 7
    ack.rejectedExpectedRemoteTrustDomain (2 ^ 20) explanation
  have limit : maxPayloadLen.toNat = 64 * 2 ^ 20 := rfl
  simp only [TrustDomainHelloAck.fields, ProtoWire.stringField, ProtoWire.encode_append,
    List.length_append]
  omega

theorem protobuf_sends_acceptance (server : ServerHandshakeConfig)
    (name : (ProtoWire.utf8 server.localTrustDomain).length ≤ 2 ^ 20)
    (clientNonce serverNonce sessionId : Token) :
    protobuf.ack.Sends (server.acceptance clientNonce serverNonce sessionId) :=
  protobuf_sends_ack _ name server.protocolVersion.toNat_lt (show (0 : UInt32).toNat < 2 ^ 16 by decide)
    (Nat.le_of_eq clientNonce.toList_length) (Nat.le_of_eq serverNonce.toList_length)
    (Nat.le_of_eq sessionId.toList_length) nofun

end Laic
