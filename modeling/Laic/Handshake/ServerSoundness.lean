import Laic.Handshake.Agreement

/-! # Server soundness

What a server sends and returns for an arbitrary first message.  `AckDue` says when an ack is due
at all; `serverHandshake_exec` then has the server answer as it does an honest client. -/

namespace Laic

/-- The message is one that the server answers, and `hello` is what it says. -/
structure AckDue (codec : HandshakeCodec) (message : Message) (hello : TrustDomainHello) : Prop where
  control : message.msgType = MsgType.control
  format : message.header.payloadFormat = PayloadFormat.protobuf.asU8
  decoded : codec.hello.decode message.payload = .ok hello
  clientNonce : hello.clientNonce.length = handshakeTokenLen

/-- The hellos that open a session. -/
structure AcceptableHello (config : ServerHandshakeConfig) (hello : TrustDomainHello) : Prop where
  trustDomain : hello.trustDomain ≠ ""
  protocolVersion : hello.protocolVersion = config.protocolVersion.toUInt32
  expectedDomain : config.expectedRemoteTrustDomain = none ∨
    config.expectedRemoteTrustDomain = some hello.trustDomain

/-- Every ack of this server encodes and fits one frame. -/
structure SendsAcks (codec : HandshakeCodec) (config : ServerHandshakeConfig) : Prop where
  acceptance : ∀ clientNonce serverNonce sessionId,
    codec.ack.Sends (config.acceptance clientNonce serverNonce sessionId)
  rejection : ∀ hello clientNonce error, validatePeerHello config hello = .error error →
    codec.ack.Sends (config.rejection clientNonce error)

/-- In the protobuf wire format, names of up to a mebibyte fit. -/
theorem protobuf_sendsAcks {config : ServerHandshakeConfig}
    (name : (ProtoWire.utf8 config.localTrustDomain).length ≤ 2 ^ 20)
    (expectedName : ∀ name, config.expectedRemoteTrustDomain = some name →
      (ProtoWire.utf8 name).length ≤ 2 ^ 20) : SendsAcks protobuf config := by
  refine ⟨fun clientNonce serverNonce sessionId => ?_, fun hello clientNonce error refused => ?_⟩
  · exact protobuf_sends_acceptance config name _ _ _
  · exact protobuf_sends_ack _ name config.protocolVersion.toNat_lt error.code.asU16.toNat_lt
      (Nat.le_of_eq clientNonce.toList_length) (Nat.zero_le _) (Nat.zero_le _)
      fun name explained => expectedName name (rejectedExpectedDomain_of_refused refused explained)

theorem SendsAcks.answer {codec : HandshakeCodec} {config : ServerHandshakeConfig}
    (sends : SendsAcks codec config) (view : ServerView) (hello : TrustDomainHello)
    (clientNonce : Token) : codec.ack.Sends (config.answer view hello clientNonce).1 := by
  unfold ServerHandshakeConfig.answer
  split
  · exact sends.acceptance _ _ _
  · exact sends.rejection _ _ _ ‹_›

/-- The checks that decide whether an ack is due. -/
theorem ackDue_iff {codec : HandshakeCodec} {message : Message} {hello : TrustDomainHello} :
    AckDue codec message hello ↔ decodeControlMessage codec.hello message = .ok hello ∧
      ∃ clientNonce, decodeToken "client_nonce" hello.clientNonce = .ok clientNonce := by
  simp only [decodeControlMessage_eq_ok, decodeToken_eq_ok, exists_token_iff]
  constructor
  · intro due
    exact ⟨⟨due.control, due.format, due.decoded⟩, due.clientNonce⟩
  · intro ⟨⟨control, format, decoded⟩, clientNonce⟩
    exact ⟨control, format, decoded, clientNonce⟩

theorem validatePeerHello_isOk {config : ServerHandshakeConfig} {hello : TrustDomainHello} :
    validatePeerHello config hello = .ok () ↔ AcceptableHello config hello := by
  simp only [validatePeerHello, Except.bind_eq_ok, validateTrustDomain_eq_ok,
    validateProtocolVersion_eq_ok, validateExpectedDomain_eq_ok]
  constructor
  · intro ⟨_, named, _, version, expects⟩
    exact ⟨named, version, expects⟩
  · intro acceptable
    exact ⟨(), acceptable.trustDomain, (), acceptable.protocolVersion, acceptable.expectedDomain⟩

/-! ## The run -/

section Run

variable {codec : HandshakeCodec} {view : ServerView} {config : ServerHandshakeConfig}
  {reader : ByteReader} {message : Message}

/-- A message that no ack is due for ends the handshake without a byte sent. -/
theorem serverHandshake_exec_refused (named : config.localTrustDomain ≠ "")
    (received : (readFrame.exec reader).result = .ok message)
    (refused : ¬ ∃ hello, AckDue codec message hello) :
    ∃ error, ((serverHandshake codec view config).exec reader).result = .error (.error error) ∧
      ((serverHandshake codec view config).exec reader).written = [] := by
  have domain : validateTrustDomain "server hello_ack trust_domain" config.localTrustDomain =
      .ok () := validateTrustDomain_eq_ok.mpr named
  have silent : (readFrame.exec reader).written = [] := readFrame_written reader
  simp only [serverHandshake, domain, liftM_except, liftM_async, Except.mapError_ok,
    Async.ret_ok_bind, Async.exec_bind, Async.exec_mapError, received, Async.exec_ret]
  cases decoded : decodeControlMessage codec.hello message with
  | error error => exact ⟨error, rfl, by simp [silent]⟩
  | ok hello =>
    cases token : decodeToken "client_nonce" hello.clientNonce with
    | error error => exact ⟨error, by simp [token], by simp [token, silent]⟩
    | ok clientNonce => exact absurd ⟨hello, ackDue_iff.mpr ⟨decoded, clientNonce, token⟩⟩ refused

/-- A message that an ack is due for is answered by one frame. -/
theorem serverHandshake_exec (named : config.localTrustDomain ≠ "")
    (sends : SendsAcks codec config) (received : (readFrame.exec reader).result = .ok message)
    {hello : TrustDomainHello} (due : AckDue codec message hello) :
    ∃ clientNonce : Token, hello.clientNonce = clientNonce.toList ∧ ∃ reply,
      Carries codec.ack (config.answer view hello clientNonce).1 reply ∧
      ((serverHandshake codec view config).exec reader).result =
        (config.answer view hello clientNonce).2.mapError .error ∧
      ((serverHandshake codec view config).exec reader).written = reply.frame := by
  obtain ⟨decoded, clientNonce, token⟩ := ackDue_iff.mp due
  obtain ⟨reply, carries, encoded, send⟩ := (sends.answer view hello clientNonce).carried view.msgId
  have domain : validateTrustDomain "server hello_ack trust_domain" config.localTrustDomain =
      .ok () := validateTrustDomain_eq_ok.mpr named
  have silent : (readFrame.exec reader).written = [] := readFrame_written reader
  refine ⟨clientNonce, decodeToken_eq_ok.mp token, reply, carries, ?_⟩
  simp only [serverHandshake, domain, liftM_except, liftM_async, Except.mapError_ok,
    Async.ret_ok_bind, Async.exec_bind, Async.exec_mapError, received, decoded, token]
  -- the two arms differ in the ack they send and in what they return afterwards
  unfold ServerHandshakeConfig.answer at encoded ⊢
  cases verdict : validatePeerHello config hello with
  | ok _ =>
    simp only [verdict] at encoded ⊢
    simp [encoded, send, silent, Async.exec_bind, Async.exec_mapError,
      writeFrame_exec carries.valid carries.bounded]
  | error error =>
    simp only [verdict] at encoded ⊢
    simp [encoded, send, silent, Async.exec_bind, Async.exec_mapError,
      writeFrame_exec carries.valid carries.bounded]

end Run

/-! ## Soundness -/

/-- An ack of this server, to a hello with this nonce, is well formed and says whether the handshake
ended in an error. -/
structure SoundAck (config : ServerHandshakeConfig) (hello : TrustDomainHello)
    (ack : TrustDomainHelloAck) (failed : Prop) : Prop where
  clientNonce : ack.clientNonce = hello.clientNonce
  shape : validateAckShape ack = .ok ()
  rejects : (ack.rejectionCode ≠ 0 ∧ ack.serverNonce = [] ∧ ack.sessionId = []) ↔ failed
  malformedVersion : hello.protocolVersion.toNat > 65535 →
    ack.rejectionCode = invalidHandshakePayloadCode

theorem validateAckShape_acceptance (config : ServerHandshakeConfig)
    (clientNonce serverNonce sessionId : Token) :
    validateAckShape (config.acceptance clientNonce serverNonce sessionId) = .ok () := by
  simp [validateAckShape, ServerHandshakeConfig.acceptance]

theorem validateAckShape_rejection (config : ServerHandshakeConfig) (clientNonce : Token)
    (error : LaicError) : validateAckShape (config.rejection clientNonce error) = .ok () := by
  rw [validateAckShape, if_neg (rejection_code_ne_zero config clientNonce error)]
  simp [ServerHandshakeConfig.rejection]

/-- A version that no `u16` holds makes the hello malformed, with or without a name. -/
theorem validatePeerHello_malformedVersion (config : ServerHandshakeConfig)
    {hello : TrustDomainHello} (wide : hello.protocolVersion.toNat > 65535) :
    ∃ detail, validatePeerHello config hello = .error (invalidHandshakePayload detail) := by
  have outside : ¬ hello.protocolVersion.toNat < UInt16.size := Nat.not_lt.mpr wide
  by_cases named : hello.trustDomain ≠ ""
  · refine ⟨s!"protocol_version {hello.protocolVersion} exceeds u16", ?_⟩
    simp only [validatePeerHello, validateTrustDomain, validateProtocolVersion,
      Except.ensure_pos named, Except.ensure_neg outside, Except.ok_bind, Except.error_bind]
  · refine ⟨"hello trust_domain must not be empty", ?_⟩
    simp only [validatePeerHello, validateTrustDomain, Except.ensure_neg named, Except.error_bind]
    rfl

theorem answer_sound (view : ServerView) (config : ServerHandshakeConfig) {hello : TrustDomainHello}
    {clientNonce : Token} (nonce : hello.clientNonce = clientNonce.toList) :
    SoundAck config hello (config.answer view hello clientNonce).1
      (∃ error, (config.answer view hello clientNonce).2 = .error error) := by
  unfold ServerHandshakeConfig.answer
  cases verdict : validatePeerHello config hello with
  | ok _ =>
    refine ⟨nonce.symm, validateAckShape_acceptance .., ?_, fun wide => ?_⟩
    · constructor
      · intro rejected
        exact absurd rfl rejected.1
      · intro ⟨_, impossible⟩
        cases impossible
    · obtain ⟨detail, refused⟩ := validatePeerHello_malformedVersion config wide
      rw [verdict] at refused
      cases refused
  | error error =>
    refine ⟨nonce.symm, validateAckShape_rejection .., ?_, fun wide => ?_⟩
    · exact ⟨fun _ => ⟨error, rfl⟩, fun _ => ⟨rejection_code_ne_zero config clientNonce error, rfl, rfl⟩⟩
    · obtain ⟨detail, refused⟩ := validatePeerHello_malformedVersion config wide
      rw [verdict] at refused
      cases refused
      rfl

theorem answer_isOk {view : ServerView} {config : ServerHandshakeConfig} {hello : TrustDomainHello}
    {clientNonce : Token} :
    (∃ session, (config.answer view hello clientNonce).2 = .ok session) ↔
      AcceptableHello config hello := by
  rw [← validatePeerHello_isOk]
  unfold ServerHandshakeConfig.answer
  cases verdict : validatePeerHello config hello with
  | ok _ => exact ⟨fun _ => rfl, fun _ => ⟨_, rfl⟩⟩
  | error error => exact ⟨fun ⟨_, impossible⟩ => (nomatch impossible), nofun⟩

/-- A server sends at most one ack, and only on a message that one is due for; the ack is sound, and
a session is opened exactly on an acceptable hello. -/
theorem server_answers_any_client (codec : HandshakeCodec) (view : ServerView)
    (config : ServerHandshakeConfig) (named : config.localTrustDomain ≠ "")
    (sends : SendsAcks codec config) (reader : ByteReader) (message : Message)
    (received : (readFrame.exec reader).result = .ok message) :
    let outcome := (serverHandshake codec view config).exec reader
    (outcome.written = [] ↔ ¬ ∃ hello, AckDue codec message hello) ∧
      (outcome.written = [] ∨ ∃ hello ack reply, AckDue codec message hello ∧
        Carries codec.ack ack reply ∧ outcome.written = reply.frame ∧
          SoundAck config hello ack (∃ error, outcome.result = .error (.error error))) ∧
      ((∃ session, outcome.result = .ok session) ↔
        ∃ hello, AckDue codec message hello ∧ AcceptableHello config hello) := by
  intro outcome
  by_cases due : ∃ hello, AckDue codec message hello
  · obtain ⟨hello, due⟩ := due
    obtain ⟨clientNonce, nonce, reply, carries, result, written⟩ :=
      serverHandshake_exec named sends received due
    have frame : outcome.written = reply.frame := written
    have nonempty : outcome.written ≠ [] := by
      rw [frame]
      apply List.ne_nil_of_length_pos
      rw [Message.frame_length, headerSize]
      omega
    refine ⟨⟨fun empty => absurd empty nonempty, fun none => absurd ⟨hello, due⟩ none⟩,
      .inr ⟨hello, _, reply, due, carries, frame, ?_⟩, ?_⟩
    · have failed : (∃ error, outcome.result = .error (.error error)) ↔
          ∃ error, (config.answer view hello clientNonce).2 = .error error := by
        rw [show outcome.result = _ from result]
        simp
      rw [failed]
      exact answer_sound view config nonce
    · rw [show outcome.result = _ from result]
      simp only [Except.mapError_eq_ok, answer_isOk]
      constructor
      · intro acceptable
        exact ⟨hello, due, acceptable⟩
      · intro ⟨hello', due', acceptable⟩
        -- the message has one content only
        have same := due.decoded
        rw [due'.decoded] at same
        cases same
        exact acceptable
  · obtain ⟨error, result, written⟩ := serverHandshake_exec_refused named received due
    refine ⟨⟨fun _ => due, fun _ => written⟩, .inl written, ?_⟩
    rw [show outcome.result = _ from result]
    exact ⟨fun ⟨_, impossible⟩ => (nomatch impossible), fun ⟨hello, isDue, _⟩ => absurd ⟨hello, isDue⟩ due⟩

/-- A hello of a stranger is answered by a rejection. -/
theorem server_answers_any_client_stranger :
    ∃ (config : ServerHandshakeConfig) (view : ServerView) (reader : ByteReader),
      let outcome := (serverHandshake protobuf view config).exec reader
      outcome.written ≠ [] ∧ ¬ ∃ session, outcome.result = .ok session := by
  let config : ServerHandshakeConfig := ⟨"venus", some "mercury", 1⟩
  let view : ServerView := ⟨⟨1, none⟩, ⟨2, none⟩, 10000⟩
  let client : ClientHandshakeConfig := ⟨"pluto", none, 1⟩
  obtain ⟨message, carries, _⟩ :=
    (protobuf_sends_hello client (by decide) (toBeBytes 7)).carried 10001
  have decoded := decodeControlMessage_eq_ok.mp (carries.decoded protobuf_lawful.hello)
  have received : (readFrame.exec (.ofBytes message.frame)).result = .ok message := by
    have parsed := parseFrame_frame carries.valid carries.bounded []
    rw [List.append_nil, ← ByteReader.bytes_ofBytes message.frame] at parsed
    exact (readFrame_result parsed).1
  have sends : SendsAcks protobuf config := protobuf_sendsAcks (by decide)
    fun name expected => by
      cases expected
      decide
  obtain ⟨silent, _, session⟩ := server_answers_any_client protobuf view config (by decide) sends
    (.ofBytes message.frame) message received
  have due : AckDue protobuf message (client.hello (toBeBytes 7)) :=
    ⟨decoded.1, decoded.2.1, decoded.2.2, Token.toList_length _⟩
  refine ⟨config, view, .ofBytes message.frame, fun empty => silent.mp empty ⟨_, due⟩, fun opened => ?_⟩
  obtain ⟨hello, due', acceptable⟩ := session.mp opened
  have same := due.decoded
  rw [due'.decoded] at same
  cases same
  have expects := acceptable.expectedDomain
  simp [config, client, ClientHandshakeConfig.hello] at expects

end Laic
