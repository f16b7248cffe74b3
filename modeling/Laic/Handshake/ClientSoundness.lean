import Laic.Handshake.Programs

/-! # Client soundness

Which replies a client turns into a session, whoever sent them.  `AcceptableAck` collects
what the seven validators decide between them. -/

namespace Laic

/-- The acks on which a client with this configuration and nonce opens a session. -/
structure AcceptableAck (config : ClientHandshakeConfig) (clientNonce : Token)
    (ack : TrustDomainHelloAck) : Prop where
  protocolVersion : ack.protocolVersion = config.protocolVersion.toUInt32
  trustDomain : ack.trustDomain ≠ ""
  expectedDomain : config.expectedRemoteTrustDomain = none ∨
    config.expectedRemoteTrustDomain = some ack.trustDomain
  rejectionCode : ack.rejectionCode = 0
  explanation : ack.rejectedExpectedRemoteTrustDomain = none
  clientNonce : ack.clientNonce = clientNonce.toList
  serverNonce : ack.serverNonce.length = handshakeTokenLen
  sessionId : ack.sessionId.length = handshakeTokenLen

/-- The session holds the values of the ack. -/
structure SessionOf (config : ClientHandshakeConfig) (clientNonce : Token)
    (ack : TrustDomainHelloAck) (session : TrustDomainSession) : Prop where
  protocolVersion : session.protocolVersion = config.protocolVersion
  localTrustDomain : session.localTrustDomain = config.localTrustDomain
  remoteTrustDomain : session.remoteTrustDomain = ack.trustDomain
  clientNonce : session.clientNonce = clientNonce
  serverNonce : session.serverNonce.toList = ack.serverNonce
  sessionId : session.sessionId.toList = ack.sessionId

theorem acceptAck_eq_ok {config : ClientHandshakeConfig} {clientNonce : Token}
    {ack : TrustDomainHelloAck} {session : TrustDomainSession} :
    acceptAck config clientNonce ack = .ok session ↔
      AcceptableAck config clientNonce ack ∧ SessionOf config clientNonce ack session := by
  simp only [acceptAck, Except.bind_eq_ok, Except.ensure_eq_ok, validateProtocolVersion_eq_ok,
    validateTrustDomain_eq_ok, validateExpectedDomain_eq_ok, validateAckRejection_eq_ok,
    decodeToken_eq_ok]
  constructor
  · rintro ⟨_, version, _, domain, _, expected, _, ⟨code, explanation, serverLength, sessionLength⟩,
      _, echoed, _, rfl, serverNonce, hasServerNonce, sessionId, hasSessionId, equal⟩
    cases equal
    exact ⟨⟨version, domain, expected, code, explanation, echoed, serverLength, sessionLength⟩,
      ⟨rfl, rfl, rfl, rfl, hasServerNonce.symm, hasSessionId.symm⟩⟩
  · rintro ⟨acceptable, sessionOf⟩
    obtain ⟨protocolVersion, localTrustDomain, remoteTrustDomain, nonce, serverNonce, sessionId⟩ :=
      session
    obtain ⟨rfl, rfl, rfl, rfl, hasServerNonce, hasSessionId⟩ := sessionOf
    exact ⟨(), acceptable.protocolVersion, (), acceptable.trustDomain, (),
      acceptable.expectedDomain, (),
      ⟨acceptable.rejectionCode, acceptable.explanation, acceptable.serverNonce, acceptable.sessionId⟩,
      _, acceptable.clientNonce, (), rfl, _, hasServerNonce.symm, _, hasSessionId.symm, rfl⟩

/-- An acceptable ack has the tokens of a session. -/
theorem AcceptableAck.exists_session {config : ClientHandshakeConfig} {clientNonce : Token}
    {ack : TrustDomainHelloAck} (acceptable : AcceptableAck config clientNonce ack) :
    ∃ session, SessionOf config clientNonce ack session := by
  obtain ⟨serverNonce, hasServerNonce⟩ := exists_token_iff.mpr acceptable.serverNonce
  obtain ⟨sessionId, hasSessionId⟩ := exists_token_iff.mpr acceptable.sessionId
  exact ⟨⟨config.protocolVersion, config.localTrustDomain, ack.trustDomain, clientNonce, serverNonce,
    sessionId⟩, rfl, rfl, rfl, rfl, hasServerNonce.symm, hasSessionId.symm⟩

/-- The ack of a server whose name and version the client takes is acceptable. -/
theorem acceptance_acceptable {client : ClientHandshakeConfig} {server : ServerHandshakeConfig}
    (clientNonce serverNonce sessionId : Token) (named : server.localTrustDomain ≠ "")
    (version : client.protocolVersion = server.protocolVersion)
    (expects : client.expectedRemoteTrustDomain = none ∨
      client.expectedRemoteTrustDomain = some server.localTrustDomain) :
    AcceptableAck client clientNonce (server.acceptance clientNonce serverNonce sessionId) where
  protocolVersion := congrArg UInt16.toUInt32 version.symm
  trustDomain := named
  expectedDomain := expects
  rejectionCode := rfl
  explanation := rfl
  clientNonce := rfl
  serverNonce := serverNonce.toList_length
  sessionId := sessionId.toList_length

/-- Once the hello is sent, the client's result is what it makes of the reply. -/
theorem clientHandshake_exec {codec : HandshakeCodec} {view : ClientView}
    {config : ClientHandshakeConfig} (nonempty : config.localTrustDomain ≠ "")
    (sends : codec.hello.Sends (config.hello (nextHandshakeToken view.clientNonce)))
    {reader : ByteReader} {reply : Message} (received : (readFrame.exec reader).result = .ok reply) :
    ((clientHandshake codec view config).exec reader).result =
      (decodeControlMessage codec.ack reply >>=
        acceptAck config (nextHandshakeToken view.clientNonce)).mapError .error := by
  obtain ⟨message, carries, encoded, send⟩ := sends.carried view.msgId
  have domain : validateTrustDomain "client hello trust_domain" config.localTrustDomain = .ok () :=
    validateTrustDomain_eq_ok.mpr nonempty
  simp only [clientHandshake, domain, encoded, send, liftM_except, liftM_async, Except.mapError_ok,
    Async.ret_ok_bind, Async.exec_bind, Async.exec_mapError,
    writeFrame_exec carries.valid carries.bounded, received, Async.exec_ret]
  cases decodeControlMessage codec.ack reply <;> rfl

/-- The client returns a session exactly on an acceptable reply, and then the session
holds the values of the reply. -/
theorem client_session_iff_acceptable (codec : HandshakeCodec) (view : ClientView)
    (config : ClientHandshakeConfig) (nonempty : config.localTrustDomain ≠ "")
    (sends : codec.hello.Sends (config.hello (nextHandshakeToken view.clientNonce)))
    (reader : ByteReader) (reply : Message) (received : (readFrame.exec reader).result = .ok reply) :
    ((∃ session, ((clientHandshake codec view config).exec reader).result = .ok session) ↔
      reply.msgType = MsgType.control ∧
        reply.header.payloadFormat = PayloadFormat.protobuf.asU8 ∧
        ∃ ack, codec.ack.decode reply.payload = .ok ack ∧
          AcceptableAck config (nextHandshakeToken view.clientNonce) ack) ∧
    ∀ session ack, ((clientHandshake codec view config).exec reader).result = .ok session →
      codec.ack.decode reply.payload = .ok ack →
      SessionOf config (nextHandshakeToken view.clientNonce) ack session := by
  simp only [clientHandshake_exec nonempty sends received, Except.mapError_eq_ok, Except.bind_eq_ok,
    decodeControlMessage_eq_ok, acceptAck_eq_ok]
  refine ⟨⟨?_, ?_⟩, ?_⟩
  · rintro ⟨session, ack, ⟨control, format, decoded⟩, acceptable, _⟩
    exact ⟨control, format, ack, decoded, acceptable⟩
  · rintro ⟨control, format, ack, decoded, acceptable⟩
    obtain ⟨session, sessionOf⟩ := acceptable.exists_session
    exact ⟨session, ack, ⟨control, format, decoded⟩, acceptable, sessionOf⟩
  · rintro session ack ⟨ack', ⟨_, _, decoded'⟩, _, sessionOf⟩ decoded
    rw [decoded'] at decoded
    cases decoded
    exact sessionOf

/-- A reply that is accepted: the ack of a compatible server. -/
theorem client_session_iff_acceptable_sample :
    ∃ (config : ClientHandshakeConfig) (view : ClientView) (reader : ByteReader)
      (session : TrustDomainSession),
      ((clientHandshake protobuf view config).exec reader).result = .ok session := by
  let config : ClientHandshakeConfig := ⟨"mercury", some "venus", 1⟩
  let view : ClientView := ⟨⟨1, some 1700000000000000000⟩, 10000⟩
  let server : ServerHandshakeConfig := ⟨"venus", none, 1⟩
  have sends (clientNonce : Token) : protobuf.hello.Sends (config.hello clientNonce) :=
    protobuf_sends_hello config (by decide) clientNonce
  have answered (clientNonce : Token) : ∃ (reply : Message) (ack : TrustDomainHelloAck),
      Carries protobuf.ack ack reply ∧ AcceptableAck config clientNonce ack := by
    obtain ⟨reply, carries, _⟩ := (protobuf_sends_acceptance server (by decide) clientNonce
      (toBeBytes 7) (toBeBytes 8)).carried 10001
    exact ⟨reply, _, carries, acceptance_acceptable _ _ _ (by decide) rfl (.inr rfl)⟩
  obtain ⟨reply, ack, carries, acceptable⟩ := answered (nextHandshakeToken view.clientNonce)
  have decoded := decodeControlMessage_eq_ok.mp (carries.decoded protobuf_lawful.ack)
  have received : (readFrame.exec (.ofBytes reply.frame)).result = .ok reply := by
    have parsed := parseFrame_frame carries.valid carries.bounded []
    rw [List.append_nil, ← ByteReader.bytes_ofBytes reply.frame] at parsed
    exact (readFrame_result parsed).1
  obtain ⟨session, returned⟩ := (client_session_iff_acceptable protobuf view config (by decide)
    (sends _) (.ofBytes reply.frame) reply received).1.mpr
      ⟨decoded.1, decoded.2.1, ack, decoded.2.2, acceptable⟩
  exact ⟨config, view, _, session, returned⟩

end Laic
