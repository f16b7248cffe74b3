import Laic.Handshake.ClientSoundness

/-! # Refusals that answer this handshake

An ack carries the client's nonce whether it accepts or refuses.  The client looks at the
rejection code before it looks at the nonce, so of the acks with another nonce those that
it can report as a refusal are reported as one. -/

namespace Laic

/-- The errors by which a client says that the server refused it: those that it derives from a
rejection code it knows. -/
inductive ReportsRefusal (config : ClientHandshakeConfig) (ack : TrustDomainHelloAck) :
    LaicError → Prop where
  | version (code : ack.rejectionCode = unsupportedHandshakeVersionCode) (actual : UInt16) :
      ReportsRefusal config ack (.protocol (.unsupportedHandshakeVersion config.protocolVersion actual))
  | trustDomain (code : ack.rejectionCode = trustDomainMismatchCode) (expected : String) :
      ReportsRefusal config ack (.protocol (.trustDomainMismatch expected config.localTrustDomain))
  | malformed (code : ack.rejectionCode = invalidHandshakePayloadCode) :
      ReportsRefusal config ack (invalidHandshakePayload "server rejected client hello as malformed")

/-- The result attributes no other handshake's ack to this one. -/
structure AttributesAck (config : ClientHandshakeConfig) (clientNonce : Token)
    (ack : TrustDomainHelloAck) (result : Except Abort TrustDomainSession) : Prop where
  refusal : ∀ error, result = .error (.error error) → ReportsRefusal config ack error →
    ack.clientNonce = clientNonce.toList
  stale : ack.clientNonce ≠ clientNonce.toList →
    result = .error (.error (.protocol .handshakeNonceMismatch)) ∨
      ∃ detail, result = .error (.error (invalidHandshakePayload detail))

/-- The refusals that a client with a matching version can report: without session material, for
a trust domain that is named or for a malformed hello. -/
structure ReportableRefusal (ack : TrustDomainHelloAck) : Prop where
  serverNonce : ack.serverNonce = []
  sessionId : ack.sessionId = []
  code : (ack.rejectionCode = trustDomainMismatchCode ∧
      ack.rejectedExpectedRemoteTrustDomain.isSome = true) ∨
    ack.rejectionCode = invalidHandshakePayloadCode

/-- The acks whose version and domain pass the client's checks. -/
structure PassesChecks (config : ClientHandshakeConfig) (ack : TrustDomainHelloAck) : Prop where
  version : validateProtocolVersion config.protocolVersion ack.protocolVersion = .ok ()
  trustDomain : validateTrustDomain "hello_ack trust_domain" ack.trustDomain = .ok ()
  expectedDomain : validateExpectedDomain config.expectedRemoteTrustDomain ack.trustDomain = .ok ()

variable {config : ClientHandshakeConfig} {clientNonce : Token} {ack : TrustDomainHelloAck}

/-! ## One ack -/

theorem acceptAck_of_passes (passes : PassesChecks config ack) :
    acceptAck config clientNonce ack = (do
      validateAckRejection config ack
      let echoedClientNonce ← decodeToken "client_nonce" ack.clientNonce
      Except.ensure (echoedClientNonce = clientNonce) (.protocol .handshakeNonceMismatch)
      let serverNonce ← decodeToken "server_nonce" ack.serverNonce
      let sessionId ← decodeToken "session_id" ack.sessionId
      return ⟨config.protocolVersion, config.localTrustDomain, ack.trustDomain, clientNonce,
        serverNonce, sessionId⟩) := by
  rw [acceptAck, passes.version, passes.trustDomain, passes.expectedDomain]
  rfl

/-- An error about the payload reports a refusal only with the text for a malformed hello. -/
theorem not_reportsRefusal {detail : String}
    (other : detail ≠ "server rejected client hello as malformed") :
    ¬ ReportsRefusal config ack (invalidHandshakePayload detail) := by
  intro reports
  generalize same : invalidHandshakePayload detail = error at reports
  cases reports with
  | version code actual => cases same
  | trustDomain code expected => cases same
  | malformed code => exact other (by cases same; rfl)

/-- A reportable refusal is reported, whatever its nonce. -/
theorem reportsRefusal_of_reportable (clientNonce : Token) (passes : PassesChecks config ack)
    (reportable : ReportableRefusal ack) :
    ∃ error, acceptAck config clientNonce ack = .error error ∧ ReportsRefusal config ack error := by
  have refused : ack.rejectionCode ≠ 0 := by
    obtain ⟨code, -⟩ | code := reportable.code <;> rw [code] <;> decide
  refine ⟨ackRejection config ack, ?_, ?_⟩
  · rw [acceptAck_of_passes passes,
      validateAckRejection_rejected refused reportable.serverNonce reportable.sessionId]
    rfl
  · obtain ⟨code, explained⟩ | code := reportable.code
    · obtain ⟨expected, explanation⟩ := Option.isSome_iff_exists.mp explained
      have report : ackRejection config ack =
          .protocol (.trustDomainMismatch expected config.localTrustDomain) := by
        rw [ackRejection, if_neg (by rw [code]; decide), if_pos code, explanation]
      exact report ▸ .trustDomain code expected
    · have report : ackRejection config ack =
          invalidHandshakePayload "server rejected client hello as malformed" := by
        rw [ackRejection, if_neg (by rw [code]; decide), if_neg (by rw [code]; decide), if_pos code]
      exact report ▸ .malformed code

/-- An error that says that the ack itself is malformed. -/
def BlamesAck (config : ClientHandshakeConfig) (ack : TrustDomainHelloAck) (error : LaicError) : Prop :=
  ¬ ReportsRefusal config ack error ∧ ∃ detail, error = invalidHandshakePayload detail

theorem blamesAck_of_detail {detail : String}
    (other : detail ≠ "server rejected client hello as malformed") :
    BlamesAck config ack (invalidHandshakePayload detail) :=
  ⟨not_reportsRefusal other, detail, rfl⟩

/-- With a matching version every other refusal is one of a malformed ack. -/
theorem ackRejection_blames (passes : PassesChecks config ack)
    (other : ¬ (ack.rejectionCode = trustDomainMismatchCode ∧
        ack.rejectedExpectedRemoteTrustDomain.isSome = true) ∧
      ack.rejectionCode ≠ invalidHandshakePayloadCode) :
    BlamesAck config ack (ackRejection config ack) := by
  obtain ⟨small, same⟩ := toUInt16_eq_iff.mpr (validateProtocolVersion_eq_ok.mp passes.version)
  by_cases version : ack.rejectionCode = unsupportedHandshakeVersionCode
  · rw [ackRejection, if_pos version, if_pos small, if_pos same]
    exact blamesAck_of_detail (by decide)
  · by_cases domain : ack.rejectionCode = trustDomainMismatchCode
    · have unexplained : ack.rejectedExpectedRemoteTrustDomain = none := by
        rw [← Option.not_isSome_iff_eq_none]
        exact fun explained => other.1 ⟨domain, explained⟩
      rw [ackRejection, if_neg version, if_pos domain, unexplained]
      exact blamesAck_of_detail (by decide)
    · rw [ackRejection, if_neg version, if_neg domain, if_neg other.2]
      refine blamesAck_of_detail fun same => ?_
      have first := congrArg (fun text => text.toList.head?) same
      simp [String.toList_append] at first

/-- A token of another length is an error about the ack. -/
theorem decodeToken_blames {field : String} {bytes : List UInt8} {error : LaicError}
    (named : field ∈ ["client_nonce", "server_nonce", "session_id"])
    (failed : decodeToken field bytes = .error error) : BlamesAck config ack error := by
  rw [decodeToken] at failed
  split at failed
  · cases failed
  · cases failed
    refine blamesAck_of_detail fun same => ?_
    have start : ∀ rest, (field ++ rest).toList.take 7 ≠
        "server rejected client hello as malformed".toList.take 7 := by
      simp only [List.mem_cons, List.not_mem_nil, or_false] at named
      intro rest
      obtain rfl | rfl | rfl := named <;> simp [String.toList_append]
    apply start (" must be " ++ toString handshakeTokenLen ++ " bytes, got " ++ toString bytes.length)
    rw [← same]
    simp only [String.append_assoc]
    rfl

/-- So is a shape that no ack has. -/
theorem validateAckShape_blames {error : LaicError} (failed : validateAckShape ack = .error error) :
    BlamesAck config ack error := by
  rw [validateAckShape] at failed
  split at failed
  · simp only [Except.bind_eq_error, Except.ensure_eq_error, Except.pure_eq] at failed
    obtain ⟨-, rfl⟩ | ⟨_, _, failed | ⟨_, _, failed | ⟨_, _, failed⟩⟩⟩ := failed
    · exact blamesAck_of_detail (by decide)
    · exact decodeToken_blames (by simp) failed
    · exact decodeToken_blames (by simp) failed
    · cases failed
  · simp only [Except.bind_eq_error, Except.ensure_eq_error] at failed
    obtain ⟨-, rfl⟩ | ⟨_, _, -, rfl⟩ := failed <;> exact blamesAck_of_detail (by decide)

/-- Of an ack that is no reportable refusal no refusal is reported; with another nonce it is
refused for its nonce or as malformed. -/
theorem attributesAck_of_not_reportable (passes : PassesChecks config ack)
    (notReportable : ¬ ReportableRefusal ack) {error : LaicError}
    (failed : acceptAck config clientNonce ack = .error error) :
    BlamesAck config ack error ∨ error = .protocol .handshakeNonceMismatch := by
  rw [acceptAck_of_passes passes] at failed
  simp only [validateAckRejection, Except.bind_eq_error, Except.ensure_eq_error,
    Except.bind_eq_ok] at failed
  obtain (shape | ⟨_, shape, refused, rfl⟩) | ⟨_, -, later⟩ := failed
  · exact .inl (validateAckShape_blames shape)
  · -- the refusal has the shape of one, so its code is the reason that it is not reportable
    rw [validateAckShape, if_neg refused] at shape
    simp only [Except.bind_eq_ok, Except.ensure_eq_ok] at shape
    obtain ⟨_, noNonce, noSession⟩ := shape
    refine .inl (ackRejection_blames passes ⟨fun known => ?_, fun known => ?_⟩)
    · exact notReportable ⟨noNonce, noSession, .inl known⟩
    · exact notReportable ⟨noNonce, noSession, .inr known⟩
  · obtain token | ⟨_, -, ⟨-, rfl⟩ | ⟨_, -, token | ⟨_, -, token | ⟨_, -, token⟩⟩⟩⟩ := later
    · exact .inl (decodeToken_blames (by simp) token)
    · exact .inr rfl
    · exact .inl (decodeToken_blames (by simp) token)
    · exact .inl (decodeToken_blames (by simp) token)
    · cases token

/-- A session is opened only on the nonce of this handshake. -/
theorem clientNonce_of_acceptAck {session : TrustDomainSession}
    (opened : acceptAck config clientNonce ack = .ok session) :
    ack.clientNonce = clientNonce.toList :=
  (acceptAck_eq_ok.mp opened).1.clientNonce

/-! ## The run -/

/-- On an ack whose version and domain pass, the client attributes no other handshake's ack to
this one exactly if the ack is no reportable refusal with another nonce. -/
theorem refusal_answers_iff (codec : HandshakeCodec) (view : ClientView)
    (config : ClientHandshakeConfig) (nonempty : config.localTrustDomain ≠ "")
    (sends : codec.hello.Sends (config.hello (nextHandshakeToken view.clientNonce)))
    (reader : ByteReader) (reply : Message) (received : (readFrame.exec reader).result = .ok reply)
    (ack : TrustDomainHelloAck) (decoded : decodeControlMessage codec.ack reply = .ok ack)
    (passes : PassesChecks config ack) :
    AttributesAck config (nextHandshakeToken view.clientNonce) ack
        ((clientHandshake codec view config).exec reader).result ↔
      (ReportableRefusal ack → ack.clientNonce = (nextHandshakeToken view.clientNonce).toList) := by
  have outcome : ((clientHandshake codec view config).exec reader).result =
      (acceptAck config (nextHandshakeToken view.clientNonce) ack).mapError .error := by
    rw [clientHandshake_exec nonempty sends received, decoded]
    rfl
  rw [outcome]
  generalize nextHandshakeToken view.clientNonce = clientNonce
  constructor
  · intro attributes reportable
    obtain ⟨error, failed, reports⟩ := reportsRefusal_of_reportable clientNonce passes reportable
    exact attributes.refusal error (by rw [failed]; rfl) reports
  · intro answers
    by_cases same : ack.clientNonce = clientNonce.toList
    · exact ⟨fun _ _ _ => same, fun stale => absurd same stale⟩
    · have notReportable : ¬ ReportableRefusal ack := fun reportable => same (answers reportable)
      cases result : acceptAck config clientNonce ack with
      | ok session => exact absurd (clientNonce_of_acceptAck result) same
      | error error =>
        obtain ⟨silent, detail, rfl⟩ | rfl :=
          attributesAck_of_not_reportable passes notReportable result
        · refine ⟨fun error returned reports => ?_, fun _ => .inr ⟨detail, rfl⟩⟩
          cases returned
          exact absurd reports silent
        · refine ⟨fun error returned reports => ?_, fun _ => .inl rfl⟩
          cases returned
          cases reports

/-! ## A refusal of another handshake -/

/-- Every ack that fits a frame can reach the client. -/
theorem exists_reply {ack : TrustDomainHelloAck} (sends : protobuf.ack.Sends ack) :
    ∃ reader reply, (readFrame.exec reader).result = .ok reply ∧
      decodeControlMessage protobuf.ack reply = .ok ack := by
  obtain ⟨reply, carries, -⟩ := sends.carried 10001
  refine ⟨.ofBytes reply.frame, reply, ?_, carries.decoded protobuf_lawful.ack⟩
  have parsed := parseFrame_frame carries.valid carries.bounded []
  rw [List.append_nil, ← ByteReader.bytes_ofBytes reply.frame] at parsed
  exact (readFrame_result parsed).1

/-- A server that expects another client refuses the hello with this nonce. -/
def refusalOf (clientNonce : Token) : TrustDomainHelloAck :=
  ServerHandshakeConfig.rejection ⟨"venus", some "jupiter", 1⟩ clientNonce
    (.protocol (.trustDomainMismatch "jupiter" "mercury"))

theorem protobuf_sends_refusalOf (clientNonce : Token) :
    protobuf.ack.Sends (refusalOf clientNonce) := by
  refine protobuf_sends_ack _ (show (ProtoWire.utf8 "venus").length ≤ 2 ^ 20 by decide)
    (show (1 : UInt32).toNat < 2 ^ 16 by decide) (show (0x0309 : UInt32).toNat < 2 ^ 16 by decide)
    (Nat.le_of_eq clientNonce.toList_length) (Nat.zero_le _) (Nat.zero_le _) fun name explained => ?_
  cases explained
  decide

theorem passesChecks_refusalOf (clientNonce : Token) :
    PassesChecks ⟨"mercury", some "venus", 1⟩ (refusalOf clientNonce) where
  version := validateProtocolVersion_eq_ok.mpr rfl
  trustDomain := validateTrustDomain_eq_ok.mpr (by simp [refusalOf, ServerHandshakeConfig.rejection])
  expectedDomain := validateExpectedDomain_eq_ok.mpr (.inr rfl)

/-- A refusal of the hello that was just sent is attributed to it. -/
theorem refusal_answers_own :
    ∃ view reader ack, ack.rejectionCode = trustDomainMismatchCode ∧
      AttributesAck ⟨"mercury", some "venus", 1⟩ (nextHandshakeToken view.clientNonce) ack
        ((clientHandshake protobuf view ⟨"mercury", some "venus", 1⟩).exec reader).result := by
  let view : ClientView := ⟨⟨1, some 1700000000000000000⟩, 10000⟩
  let clientNonce := nextHandshakeToken view.clientNonce
  obtain ⟨reader, reply, received, decoded⟩ := exists_reply (protobuf_sends_refusalOf clientNonce)
  refine ⟨view, reader, refusalOf clientNonce, rfl, ?_⟩
  exact (refusal_answers_iff protobuf view ⟨"mercury", some "venus", 1⟩ (by simp)
    (protobuf_sends_hello _ (by decide) _) reader reply received (refusalOf clientNonce) decoded
    (passesChecks_refusalOf clientNonce)).mpr fun _ => rfl

/-- A refusal with the nonce of another hello is reported as one of this hello. -/
theorem refusal_answers_counterexample :
    ¬ ∀ (codec : HandshakeCodec) (view : ClientView) (config : ClientHandshakeConfig),
      config.localTrustDomain ≠ "" →
      codec.hello.Sends (config.hello (nextHandshakeToken view.clientNonce)) →
      ∀ (reader : ByteReader) (reply : Message), (readFrame.exec reader).result = .ok reply →
      ∀ ack, decodeControlMessage codec.ack reply = .ok ack → PassesChecks config ack →
      AttributesAck config (nextHandshakeToken view.clientNonce) ack
        ((clientHandshake codec view config).exec reader).result := by
  intro all
  let view : ClientView := ⟨⟨1, some 1700000000000000000⟩, 10000⟩
  let config : ClientHandshakeConfig := ⟨"mercury", some "venus", 1⟩
  have nonempty : config.localTrustDomain ≠ "" := by decide
  have sends := protobuf_sends_hello config (by decide) (nextHandshakeToken view.clientNonce)
  obtain ⟨reader, reply, received, decoded⟩ := exists_reply (protobuf_sends_refusalOf (toBeBytes 7))
  have passes := passesChecks_refusalOf (toBeBytes 7)
  have attributes := all protobuf view config nonempty sends reader reply received _ decoded passes
  have reportable : ReportableRefusal (refusalOf (toBeBytes 7)) := ⟨rfl, rfl, .inl ⟨rfl, rfl⟩⟩
  obtain ⟨error, failed, reports⟩ := reportsRefusal_of_reportable
    (nextHandshakeToken view.clientNonce) passes reportable
  have reported : ((clientHandshake protobuf view config).exec reader).result =
      .error (.error error) := by
    rw [clientHandshake_exec nonempty sends received, decoded]
    exact congrArg (fun result => result.mapError Abort.error) failed
  have same : (toBeBytes 7).toList = (nextHandshakeToken view.clientNonce).toList :=
    attributes.refusal error reported reports
  exact absurd same (by decide)

end Laic
