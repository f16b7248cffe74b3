import Laic.Lib.ProtoWire
import Laic.Lib.Except
import Laic.Error
import Laic.Protocol.Constants

/-! # Messages, configurations and tokens of the trust-domain handshake

The protobuf library is a parameter: a `ProstCodec` for each message type, whose laws
are stated as `ProstCodec.Lawful`.  `protobuf` is an instance of it, written out over
the wire format. -/

namespace Laic

/-- `HANDSHAKE_TOKEN_LEN`. -/
def handshakeTokenLen : Nat := 16

abbrev Token := Vector UInt8 handshakeTokenLen

structure TrustDomainHello where
  protocolVersion : UInt32
  trustDomain : String
  clientNonce : List UInt8
  deriving DecidableEq, Repr

structure TrustDomainHelloAck where
  protocolVersion : UInt32
  trustDomain : String
  clientNonce : List UInt8
  serverNonce : List UInt8
  sessionId : List UInt8
  rejectionCode : UInt32
  rejectedExpectedRemoteTrustDomain : Option String
  deriving DecidableEq, Repr

structure ClientHandshakeConfig where
  localTrustDomain : String
  expectedRemoteTrustDomain : Option String
  protocolVersion : UInt16
  deriving DecidableEq, Repr

structure ServerHandshakeConfig where
  localTrustDomain : String
  expectedRemoteTrustDomain : Option String
  protocolVersion : UInt16
  deriving DecidableEq, Repr

structure TrustDomainSession where
  protocolVersion : UInt16
  localTrustDomain : String
  remoteTrustDomain : String
  clientNonce : Token
  serverNonce : Token
  sessionId : Token
  deriving DecidableEq, Repr

/-! ## Tokens -/

/-- What one call of `next_handshake_token` observes: the value its increment of
`HANDSHAKE_COUNTER` returned and the nanoseconds since the epoch, `none` before it. -/
structure Tick where
  counter : UInt64
  nanos : Option (BitVec 128)

/-- The 16 big-endian bytes of a `u128`. -/
def toBeBytes (n : BitVec 128) : Token :=
  Vector.ofFn fun index => UInt8.ofNat (n.toNat >>> (8 * (15 - index.val)))

def nextHandshakeToken (tick : Tick) : Token :=
  let counter : BitVec 128 := tick.counter.toBitVec.setWidth 128
  let nanos := tick.nanos.getD 0
  toBeBytes (nanos ^^^ (counter <<< 64))

/-! ## The protobuf library -/

/-- `encode` and `decode` of a message type; failures are given by their text. -/
structure ProstCodec (M : Type) where
  encode : M → Except String (List UInt8)
  decode : List UInt8 → Except String M

/-- Every message encodes, and decoding undoes encoding. -/
def ProstCodec.Lawful {M : Type} (codec : ProstCodec M) : Prop :=
  ∀ message, ∃ bytes, codec.encode message = .ok bytes ∧ codec.decode bytes = .ok message

def encodeProto {M : Type} (codec : ProstCodec M) (message : M) : Except LaicError (List UInt8) :=
  (codec.encode message).mapError fun detail => .codec (.protoEncode detail)

def decodeProto {M : Type} (codec : ProstCodec M) (bytes : List UInt8) : Except LaicError M :=
  (codec.decode bytes).mapError fun detail => .codec (.protoDecode detail)

/-- The codecs of the two handshake messages. -/
structure HandshakeCodec where
  hello : ProstCodec TrustDomainHello
  ack : ProstCodec TrustDomainHelloAck

structure HandshakeCodec.Lawful (codec : HandshakeCodec) : Prop where
  hello : codec.hello.Lawful
  ack : codec.ack.Lawful

/-! ## The messages on the wire -/

open ProtoWire

def TrustDomainHello.fields (hello : TrustDomainHello) : List Field :=
  uint32Field 1 hello.protocolVersion ++ stringField 2 hello.trustDomain ++
    bytesField 3 hello.clientNonce

def TrustDomainHello.mergeField (hello : TrustDomainHello) (field : Field) :
    Option TrustDomainHello :=
  match field.number, field.value with
  | 1, .varint n => some { hello with protocolVersion := UInt32.ofNat n }
  | 2, .bytes content => (fromUtf8 content).map fun text => { hello with trustDomain := text }
  | 3, .bytes content => some { hello with clientNonce := content }
  | number, _ => if number ∈ [1, 2, 3] then none else some hello

def TrustDomainHelloAck.fields (ack : TrustDomainHelloAck) : List Field :=
  uint32Field 1 ack.protocolVersion ++ stringField 2 ack.trustDomain ++
    bytesField 3 ack.clientNonce ++ bytesField 4 ack.serverNonce ++ bytesField 5 ack.sessionId ++
    uint32Field 6 ack.rejectionCode ++
    optionalStringField 7 ack.rejectedExpectedRemoteTrustDomain

def TrustDomainHelloAck.mergeField (ack : TrustDomainHelloAck) (field : Field) :
    Option TrustDomainHelloAck :=
  match field.number, field.value with
  | 1, .varint n => some { ack with protocolVersion := UInt32.ofNat n }
  | 2, .bytes content => (fromUtf8 content).map fun text => { ack with trustDomain := text }
  | 3, .bytes content => some { ack with clientNonce := content }
  | 4, .bytes content => some { ack with serverNonce := content }
  | 5, .bytes content => some { ack with sessionId := content }
  | 6, .varint n => some { ack with rejectionCode := UInt32.ofNat n }
  | 7, .bytes content =>
    (fromUtf8 content).map fun text => { ack with rejectedExpectedRemoteTrustDomain := some text }
  | number, _ => if number ∈ [1, 2, 3, 4, 5, 6, 7] then none else some ack

/-- Encode the fields of a message; decode by merging fields into the default message. -/
def wireCodec {M : Type} (fields : M → List Field) (mergeField : M → Field → Option M)
    (default : M) : ProstCodec M where
  encode message := .ok (encode (fields message))
  decode bytes :=
    match (decode bytes).bind fun fields => fields.foldlM mergeField default with
    | some message => .ok message
    | none => .error "failed to decode Protobuf message"

def protobuf : HandshakeCodec where
  hello := wireCodec TrustDomainHello.fields TrustDomainHello.mergeField ⟨0, "", []⟩
  ack := wireCodec TrustDomainHelloAck.fields TrustDomainHelloAck.mergeField
    ⟨0, "", [], [], [], 0, none⟩

theorem wireCodec_lawful {M : Type} {fields : M → List Field} {mergeField : M → Field → Option M}
    {default : M} (merges : ∀ message, (fields message).foldlM mergeField default = some message) :
    (wireCodec fields mergeField default).Lawful := by
  intro message
  refine ⟨_, rfl, ?_⟩
  simp [wireCodec, decode_encode, merges]

section Merging

variable {M : Type} {mergeField : M → Field → Option M} {before after : M} {number : Nat}

theorem merge_uint32Field {value : UInt32} (absent : value = 0 → before = after)
    (present : mergeField before ⟨number, .varint value.toNat⟩ = some after) :
    (uint32Field number value).foldlM mergeField before = some after := by
  unfold uint32Field
  split
  · rename_i zero
    rw [absent zero]
    rfl
  · simp [present]

theorem merge_bytesField {content : List UInt8} (absent : content = [] → before = after)
    (present : mergeField before ⟨number, .bytes content⟩ = some after) :
    (bytesField number content).foldlM mergeField before = some after := by
  unfold bytesField
  split
  · rename_i empty
    rw [absent empty]
    rfl
  · simp [present]

theorem merge_stringField {text : String} (absent : text = "" → before = after)
    (present : mergeField before ⟨number, .bytes (utf8 text)⟩ = some after) :
    (stringField number text).foldlM mergeField before = some after :=
  merge_bytesField (fun empty => absent (utf8_eq_nil empty)) present

theorem merge_optionalStringField {text : Option String} (absent : text = none → before = after)
    (present : ∀ value, text = some value →
      mergeField before ⟨number, .bytes (utf8 value)⟩ = some after) :
    (optionalStringField number text).foldlM mergeField before = some after := by
  cases text with
  | none =>
    rw [absent rfl]
    rfl
  | some value => simp [optionalStringField, present value rfl]

end Merging

theorem TrustDomainHello.merges (hello : TrustDomainHello) :
    hello.fields.foldlM TrustDomainHello.mergeField ⟨0, "", []⟩ = some hello := by
  obtain ⟨protocolVersion, trustDomain, clientNonce⟩ := hello
  have version : (uint32Field 1 protocolVersion).foldlM TrustDomainHello.mergeField ⟨0, "", []⟩ =
      some ⟨protocolVersion, "", []⟩ :=
    merge_uint32Field (by rintro rfl; rfl) (by simp [mergeField])
  have domain : (stringField 2 trustDomain).foldlM TrustDomainHello.mergeField
      ⟨protocolVersion, "", []⟩ = some ⟨protocolVersion, trustDomain, []⟩ :=
    merge_stringField (by rintro rfl; rfl) (by simp [mergeField, fromUtf8_utf8])
  have nonce : (bytesField 3 clientNonce).foldlM TrustDomainHello.mergeField
      ⟨protocolVersion, trustDomain, []⟩ = some ⟨protocolVersion, trustDomain, clientNonce⟩ :=
    merge_bytesField (by rintro rfl; rfl) rfl
  simp [TrustDomainHello.fields, List.foldlM_append, version, domain, nonce]

theorem TrustDomainHelloAck.merges (ack : TrustDomainHelloAck) :
    ack.fields.foldlM TrustDomainHelloAck.mergeField ⟨0, "", [], [], [], 0, none⟩ = some ack := by
  obtain ⟨protocolVersion, trustDomain, clientNonce, serverNonce, sessionId, rejectionCode,
    rejectedExpected⟩ := ack
  have version : (uint32Field 1 protocolVersion).foldlM TrustDomainHelloAck.mergeField
      ⟨0, "", [], [], [], 0, none⟩ = some ⟨protocolVersion, "", [], [], [], 0, none⟩ :=
    merge_uint32Field (by rintro rfl; rfl) (by simp [mergeField])
  have domain : (stringField 2 trustDomain).foldlM TrustDomainHelloAck.mergeField
      ⟨protocolVersion, "", [], [], [], 0, none⟩ =
        some ⟨protocolVersion, trustDomain, [], [], [], 0, none⟩ :=
    merge_stringField (by rintro rfl; rfl) (by simp [mergeField, fromUtf8_utf8])
  have clientToken : (bytesField 3 clientNonce).foldlM TrustDomainHelloAck.mergeField
      ⟨protocolVersion, trustDomain, [], [], [], 0, none⟩ =
        some ⟨protocolVersion, trustDomain, clientNonce, [], [], 0, none⟩ :=
    merge_bytesField (by rintro rfl; rfl) rfl
  have serverToken : (bytesField 4 serverNonce).foldlM TrustDomainHelloAck.mergeField
      ⟨protocolVersion, trustDomain, clientNonce, [], [], 0, none⟩ =
        some ⟨protocolVersion, trustDomain, clientNonce, serverNonce, [], 0, none⟩ :=
    merge_bytesField (by rintro rfl; rfl) rfl
  have session : (bytesField 5 sessionId).foldlM TrustDomainHelloAck.mergeField
      ⟨protocolVersion, trustDomain, clientNonce, serverNonce, [], 0, none⟩ =
        some ⟨protocolVersion, trustDomain, clientNonce, serverNonce, sessionId, 0, none⟩ :=
    merge_bytesField (by rintro rfl; rfl) rfl
  have code : (uint32Field 6 rejectionCode).foldlM TrustDomainHelloAck.mergeField
      ⟨protocolVersion, trustDomain, clientNonce, serverNonce, sessionId, 0, none⟩ =
        some ⟨protocolVersion, trustDomain, clientNonce, serverNonce, sessionId, rejectionCode,
          none⟩ :=
    merge_uint32Field (by rintro rfl; rfl) (by simp [mergeField])
  have explanation : (optionalStringField 7 rejectedExpected).foldlM TrustDomainHelloAck.mergeField
      ⟨protocolVersion, trustDomain, clientNonce, serverNonce, sessionId, rejectionCode, none⟩ =
        some ⟨protocolVersion, trustDomain, clientNonce, serverNonce, sessionId, rejectionCode,
          rejectedExpected⟩ :=
    merge_optionalStringField (by rintro rfl; rfl)
      (by rintro value rfl; simp [mergeField, fromUtf8_utf8])
  simp [TrustDomainHelloAck.fields, List.foldlM_append, version, domain, clientToken, serverToken,
    session, code, explanation]

theorem protobuf_lawful : protobuf.Lawful :=
  ⟨wireCodec_lawful TrustDomainHello.merges, wireCodec_lawful TrustDomainHelloAck.merges⟩

end Laic
