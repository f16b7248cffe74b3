import Laic.Handshake.ClientSoundness

/-! # Agreement of the two sides

An honest client and an honest server over one connection.  One schedule is followed to
its end (`handshake_run`); that every interleaving of the two parties is a prefix of a
run to the same end is the library's `Duplex.Run.extends`. -/

namespace Laic

open Async (Advances)
open Duplex (Run Final)

/-- The server's answer to a hello: the ack it sends and the result it returns. -/
def ServerHandshakeConfig.answer (config : ServerHandshakeConfig) (view : ServerView)
    (hello : TrustDomainHello) (clientNonce : Token) :
    TrustDomainHelloAck × Except LaicError TrustDomainSession :=
  match validatePeerHello config hello with
  | .ok _ =>
    let serverNonce := nextHandshakeToken view.serverNonce
    let sessionId := nextHandshakeToken view.sessionId
    (config.acceptance clientNonce serverNonce sessionId,
      .ok ⟨config.protocolVersion, config.localTrustDomain, hello.trustDomain, clientNonce,
        serverNonce, sessionId⟩)
  | .error error => (config.rejection clientNonce error, .error error)

/-- Every message that this client and this server may send each other fits one frame. -/
structure FitFrames (codec : HandshakeCodec) (client : ClientHandshakeConfig)
    (server : ServerHandshakeConfig) : Prop where
  hello : ∀ clientNonce, codec.hello.Sends (client.hello clientNonce)
  acceptance : ∀ clientNonce serverNonce sessionId,
    codec.ack.Sends (server.acceptance clientNonce serverNonce sessionId)
  rejection : ∀ clientNonce error, validatePeerHello server (client.hello clientNonce) = .error error →
    codec.ack.Sends (server.rejection clientNonce error)

theorem FitFrames.answer {codec : HandshakeCodec} {client : ClientHandshakeConfig}
    {server : ServerHandshakeConfig} (fit : FitFrames codec client server) (view : ServerView)
    (clientNonce : Token) :
    codec.ack.Sends (server.answer view (client.hello clientNonce) clientNonce).1 := by
  unfold ServerHandshakeConfig.answer
  split
  · exact fit.acceptance _ _ _
  · exact fit.rejection _ _ ‹_›

/-- An explanation of a refusal is the name that the server expects. -/
theorem rejectedExpectedDomain_of_refused {server : ServerHandshakeConfig} {hello : TrustDomainHello}
    {error : LaicError} {name : String} (refused : validatePeerHello server hello = .error error)
    (explained : handshakeRejectedExpectedDomain error = some name) :
    server.expectedRemoteTrustDomain = some name := by
  unfold handshakeRejectedExpectedDomain at explained
  split at explained
  case h_2 => cases explained
  case h_1 expected actual =>
    cases explained
    unfold validatePeerHello validateTrustDomain validateProtocolVersion Except.ensure at refused
    split at refused
    · split at refused
      · split at refused
        · rw [Except.ok_bind, Except.ok_bind, Except.ok_bind,
            validateExpectedDomain_eq_error] at refused
          obtain ⟨own, hasOwn, _, equal⟩ := refused
          cases equal
          exact hasOwn
        · cases refused
      · cases refused
    · cases refused

/-- In the protobuf wire format, names of up to a mebibyte fit. -/
theorem protobuf_fitFrames {client : ClientHandshakeConfig} {server : ServerHandshakeConfig}
    (clientName : (ProtoWire.utf8 client.localTrustDomain).length ≤ 2 ^ 20)
    (serverName : (ProtoWire.utf8 server.localTrustDomain).length ≤ 2 ^ 20)
    (expectedName : ∀ name, server.expectedRemoteTrustDomain = some name →
      (ProtoWire.utf8 name).length ≤ 2 ^ 20) :
    FitFrames protobuf client server := by
  refine ⟨fun clientNonce => ?_, fun clientNonce serverNonce sessionId => ?_,
    fun clientNonce error refused => ?_⟩
  · exact protobuf_sends_hello client clientName clientNonce
  · exact protobuf_sends_acceptance server serverName _ _ _
  · exact protobuf_sends_ack _ serverName server.protocolVersion.toNat_lt error.code.asU16.toNat_lt
      (Nat.le_of_eq clientNonce.toList_length) (Nat.zero_le _) (Nat.zero_le _)
      fun name explained => expectedName name (rejectedExpectedDomain_of_refused refused explained)

section Parties

variable {codec : HandshakeCodec} {client : ClientHandshakeConfig} {server : ServerHandshakeConfig}
  (clientView : ClientView) (serverView : ServerView)

/-- The client up to its wait for the ack: it writes the frame of its hello. -/
theorem clientHandshake_writes (nonempty : client.localTrustDomain ≠ "")
    (sends : codec.hello.Sends (client.hello (nextHandshakeToken clientView.clientNonce))) :
    ∃ message, Carries codec.hello (client.hello (nextHandshakeToken clientView.clientNonce)) message ∧
      Advances (clientHandshake codec clientView client)
        (List.replicate message.frame.length .write) [] message.frame
        (readFrame.mapError Abort.error >>= fun ackMessage =>
          .ret ((decodeControlMessage codec.ack ackMessage).mapError .error) >>= fun ack =>
            .ret ((acceptAck client (nextHandshakeToken clientView.clientNonce) ack).mapError
              .error)) := by
  obtain ⟨message, carries, encoded, send⟩ := sends.carried clientView.msgId
  have domain : validateTrustDomain "client hello trust_domain" client.localTrustDomain = .ok () :=
    validateTrustDomain_eq_ok.mpr nonempty
  have writes := (writeFrame_advances carries.valid carries.bounded).mapError Abort.error
  refine ⟨message, carries, ?_⟩
  simp only [clientHandshake, domain, encoded, send, liftM_except, liftM_async, Except.mapError_ok,
    Async.ret_ok_bind]
  exact writes.bind _

/-- The client after it has sent its hello: it reads the frame of the ack. -/
theorem clientHandshake_reads (lawful : codec.Lawful) {ack : TrustDomainHelloAck} {message : Message}
    (carries : Carries codec.ack ack message) (client : ClientHandshakeConfig) (clientNonce : Token) :
    Advances
      (readFrame.mapError Abort.error >>= fun ackMessage =>
        .ret ((decodeControlMessage codec.ack ackMessage).mapError .error) >>= fun ack =>
          .ret ((acceptAck client clientNonce ack).mapError Abort.error))
      (List.replicate message.frame.length .read) message.frame []
      (.ret ((acceptAck client clientNonce ack).mapError .error)) := by
  have reads := (readFrame_advances carries.valid carries.bounded).mapError Abort.error
  have decoded := reads.bind fun ackMessage =>
    .ret ((decodeControlMessage codec.ack ackMessage).mapError .error) >>= fun ack =>
      .ret ((acceptAck client clientNonce ack).mapError Abort.error)
  simpa only [Async.mapError, Except.mapError_ok, Except.mapError_error, Async.ret_ok_bind, carries.decoded lawful.ack]
    using decoded

/-- The server reads the frame of the hello and writes the frame of its answer. -/
theorem serverHandshake_answers (lawful : codec.Lawful) (nonempty : server.localTrustDomain ≠ "")
    {clientNonce : Token} {message : Message}
    (carries : Carries codec.hello (client.hello clientNonce) message)
    (sends : codec.ack.Sends (server.answer serverView (client.hello clientNonce) clientNonce).1) :
    ∃ ackMessage, Carries codec.ack
        (server.answer serverView (client.hello clientNonce) clientNonce).1 ackMessage ∧
      Advances (serverHandshake codec serverView server)
        (List.replicate message.frame.length .read ++
          List.replicate ackMessage.frame.length .write)
        message.frame ackMessage.frame
        (.ret ((server.answer serverView (client.hello clientNonce) clientNonce).2.mapError
          .error)) := by
  obtain ⟨ackMessage, ackCarries, encoded, send⟩ := sends.carried serverView.msgId
  have domain : validateTrustDomain "server hello_ack trust_domain" server.localTrustDomain = .ok () :=
    validateTrustDomain_eq_ok.mpr nonempty
  have reads := (readFrame_advances carries.valid carries.bounded).mapError Abort.error
  have writes := (writeFrame_advances ackCarries.valid ackCarries.bounded).mapError Abort.error
  have token : decodeToken "client_nonce" (client.hello clientNonce).clientNonce = .ok clientNonce :=
    decodeToken_toList _ _
  refine ⟨ackMessage, ackCarries, ?_⟩
  simp only [serverHandshake, domain, liftM_except, liftM_async, Except.mapError_ok, Async.ret_ok_bind]
  refine (reads.bind _).request_response ?_
  simp only [Async.mapError, Except.mapError_ok, Async.ret_ok_bind, carries.decoded lawful.hello, token]
  unfold ServerHandshakeConfig.answer at encoded ⊢
  cases verdict : validatePeerHello server (client.hello clientNonce) with
  | ok _ =>
    simp only [verdict] at encoded ⊢
    simp only [encoded, Except.mapError_ok, Async.ret_ok_bind, send, liftM_async]
    exact writes.bind _
  | error error =>
    simp only [verdict] at encoded ⊢
    simp only [encoded, Except.mapError_ok, Async.ret_ok_bind, send, liftM_async]
    exact writes.bind _

/-- The connection of this client and this server before either has moved. -/
abbrev handshakeStart (codec : HandshakeCodec) (clientView : ClientView) (serverView : ServerView)
    (client : ClientHandshakeConfig) (server : ServerHandshakeConfig) :
    Duplex Abort TrustDomainSession TrustDomainSession :=
  .connect (clientHandshake codec clientView client) (serverHandshake codec serverView server)

/-- With both names present every message arrives, and each party returns what it makes
of the other's message.  The server's last action is the last byte of its ack. -/
theorem handshake_run (lawful : codec.Lawful) (fit : FitFrames codec client server)
    (clientNamed : client.localTrustDomain ≠ "") (serverNamed : server.localTrustDomain ≠ "") :
    let clientNonce := nextHandshakeToken clientView.clientNonce
    let answer := server.answer serverView (client.hello clientNonce) clientNonce
    ∃ lefts rights, rights.getLast? = some .write ∧ .eof ∉ lefts ∧ .eof ∉ rights ∧
      Run lefts rights (handshakeStart codec clientView serverView client server)
        ⟨.ret ((acceptAck client clientNonce answer.1).mapError .error),
          .ret (answer.2.mapError .error), [], []⟩ := by
  intro clientNonce answer
  obtain ⟨hello, helloCarries, writes⟩ :=
    clientHandshake_writes clientView clientNamed (fit.hello _)
  obtain ⟨ack, ackCarries, answers⟩ := serverHandshake_answers serverView lawful serverNamed
    helloCarries (fit.answer serverView _)
  have reads := clientHandshake_reads lawful ackCarries client clientNonce
  refine ⟨_, _, ?_, ?_, ?_, Run.exchange writes answers reads⟩
  · simp [List.getLast?_append, List.getLast?_replicate, headerSize]
  · simp
  · simp

/-- With a name missing a party that has one waits for a message that never comes, so
the client returns no session. -/
theorem handshake_unnamed (fit : FitFrames codec client server)
    (unnamed : client.localTrustDomain = "" ∨ server.localTrustDomain = "") :
    ∃ lefts rights clientError serverResult inFlight,
      Run lefts rights (handshakeStart codec clientView serverView client server)
        ⟨.ret (.error clientError), .ret serverResult, inFlight, []⟩ := by
  have clientFails (missing : client.localTrustDomain = "") :
      ∃ error, (clientHandshake codec clientView client).settle = .ret (.error error) := by
    rw [clientHandshake, missing]
    exact ⟨_, rfl⟩
  have serverFails (missing : server.localTrustDomain = "") :
      ∃ error, (serverHandshake codec serverView server).settle = .ret (.error error) := by
    rw [serverHandshake, missing]
    exact ⟨_, rfl⟩
  by_cases clientNamed : client.localTrustDomain = ""
  · obtain ⟨clientError, clientFails⟩ := clientFails clientNamed
    rw [handshakeStart, Duplex.connect, clientFails]
    by_cases serverNamed : server.localTrustDomain = ""
    · obtain ⟨serverError, serverFails⟩ := serverFails serverNamed
      rw [serverFails]
      exact ⟨_, _, _, _, _, .refl⟩
    · have domain : validateTrustDomain "server hello_ack trust_domain" server.localTrustDomain =
          .ok () := validateTrustDomain_eq_ok.mpr serverNamed
      rw [serverHandshake, domain]
      exact ⟨_, _, _, _, _, Run.right_eof _ _ _ _⟩
  · obtain ⟨serverError, serverFails⟩ := serverFails (unnamed.resolve_left clientNamed)
    obtain ⟨hello, _, writes⟩ :=
      clientHandshake_writes clientView clientNamed (fit.hello _)
    rw [handshakeStart, Duplex.connect, serverFails]
    exact ⟨_, _, _, _, _, (Run.left_advances writes _ _ _).trans (Run.left_eof _ _ _ _)⟩

/-! ## The two verdicts -/

/-- What both sides have to agree on. -/
structure Compatible (client : ClientHandshakeConfig) (server : ServerHandshakeConfig) : Prop where
  clientNamed : client.localTrustDomain ≠ ""
  serverNamed : server.localTrustDomain ≠ ""
  protocolVersion : client.protocolVersion = server.protocolVersion
  serverExpects : server.expectedRemoteTrustDomain = none ∨
    server.expectedRemoteTrustDomain = some client.localTrustDomain
  clientExpects : client.expectedRemoteTrustDomain = none ∨
    client.expectedRemoteTrustDomain = some server.localTrustDomain

/-- The two sessions describe one handshake from its two ends. -/
structure Mirrors (session session' : TrustDomainSession) : Prop where
  protocolVersion : session.protocolVersion = session'.protocolVersion
  clientNonce : session.clientNonce = session'.clientNonce
  serverNonce : session.serverNonce = session'.serverNonce
  sessionId : session.sessionId = session'.sessionId
  localRemote : session.localTrustDomain = session'.remoteTrustDomain
  remoteLocal : session.remoteTrustDomain = session'.localTrustDomain

theorem validatePeerHello_eq_ok {clientNonce : Token} {value : Unit} :
    validatePeerHello server (client.hello clientNonce) = .ok value ↔
      client.localTrustDomain ≠ "" ∧ client.protocolVersion = server.protocolVersion ∧
        (server.expectedRemoteTrustDomain = none ∨
          server.expectedRemoteTrustDomain = some client.localTrustDomain) := by
  simp [validatePeerHello, ClientHandshakeConfig.hello, validateProtocolVersion_toUInt32,
    validateExpectedDomain_eq_ok, validateTrustDomain_eq_ok]

/-- A server that is sent an honest hello refuses it for the version or, where the
versions agree, for the name. -/
theorem validatePeerHello_eq_error {clientNonce : Token} {error : LaicError}
    (named : client.localTrustDomain ≠ "")
    (refused : validatePeerHello server (client.hello clientNonce) = .error error) :
    (client.protocolVersion ≠ server.protocolVersion ∧
      error = .protocol (.unsupportedHandshakeVersion server.protocolVersion
        client.protocolVersion)) ∨
    (client.protocolVersion = server.protocolVersion ∧
      ∃ expected, error = .protocol (.trustDomainMismatch expected client.localTrustDomain)) := by
  have domain : validateTrustDomain "hello trust_domain" (client.hello clientNonce).trustDomain =
      .ok () := validateTrustDomain_eq_ok.mpr named
  have version : validateProtocolVersion server.protocolVersion
      (client.hello clientNonce).protocolVersion = _ := validateProtocolVersion_toUInt32 _ _
  rw [validatePeerHello, domain, version, Except.ok_bind] at refused
  by_cases same : client.protocolVersion = server.protocolVersion
  · rw [Except.ensure_pos same, Except.ok_bind, validateExpectedDomain_eq_error] at refused
    obtain ⟨expected, _, _, rfl⟩ := refused
    exact .inr ⟨same, expected, rfl⟩
  · rw [Except.ensure_neg same, Except.error_bind] at refused
    cases refused
    exact .inl ⟨same, rfl⟩

theorem answer_eq_error {clientNonce : Token} {error : LaicError}
    (refused : (server.answer serverView (client.hello clientNonce) clientNonce).2 = .error error) :
    validatePeerHello server (client.hello clientNonce) = .error error ∧
      (server.answer serverView (client.hello clientNonce) clientNonce).1 =
        server.rejection clientNonce error := by
  unfold ServerHandshakeConfig.answer at refused ⊢
  cases verdict : validatePeerHello server (client.hello clientNonce) with
  | ok _ =>
    rw [verdict] at refused
    cases refused
  | error own =>
    simp only [verdict] at refused ⊢
    cases refused
    exact ⟨rfl, rfl⟩

theorem rejection_code_ne_zero (server : ServerHandshakeConfig) (clientNonce : Token)
    (error : LaicError) : (server.rejection clientNonce error).rejectionCode ≠ 0 :=
  error.code_ne_zero

/-- The client opens a session on the server's answer exactly when the server has
opened one and the client finds the server's name as it expects. -/
theorem acceptAck_answer {clientNonce : Token} {session : TrustDomainSession}
    (accepted : acceptAck client clientNonce
      (server.answer serverView (client.hello clientNonce) clientNonce).1 = .ok session) :
    Compatible client server ∧
      ∃ session', (server.answer serverView (client.hello clientNonce) clientNonce).2 = .ok session' ∧
        Mirrors session session' := by
  obtain ⟨acceptable, sessionOf⟩ := acceptAck_eq_ok.mp accepted
  unfold ServerHandshakeConfig.answer at acceptable sessionOf ⊢
  cases verdict : validatePeerHello server (client.hello clientNonce) with
  | error error =>
    simp only [verdict] at acceptable
    exact absurd acceptable.rejectionCode (rejection_code_ne_zero _ _ _)
  | ok _ =>
    simp only [verdict] at acceptable sessionOf ⊢
    obtain ⟨clientNamed, version, serverExpects⟩ := validatePeerHello_eq_ok.mp verdict
    refine ⟨⟨clientNamed, acceptable.trustDomain, version, serverExpects,
      acceptable.expectedDomain⟩, _, rfl, ?_⟩
    generalize nextHandshakeToken serverView.serverNonce = serverNonce at sessionOf ⊢
    generalize nextHandshakeToken serverView.sessionId = sessionId at sessionOf ⊢
    have sameServerNonce : session.serverNonce.toList = serverNonce.toList := sessionOf.serverNonce
    have sameSessionId : session.sessionId.toList = sessionId.toList := sessionOf.sessionId
    exact {
      protocolVersion := sessionOf.protocolVersion.trans version
      clientNonce := sessionOf.clientNonce
      serverNonce := Vector.toList_inj.mp sameServerNonce
      sessionId := Vector.toList_inj.mp sameSessionId
      localRemote := sessionOf.localTrustDomain
      remoteLocal := sessionOf.remoteTrustDomain }

theorem Compatible.accepts (compatible : Compatible client server) (clientNonce : Token) :
    ∃ session session', acceptAck client clientNonce
        (server.answer serverView (client.hello clientNonce) clientNonce).1 = .ok session ∧
      (server.answer serverView (client.hello clientNonce) clientNonce).2 = .ok session' := by
  have verdict : validatePeerHello server (client.hello clientNonce) = .ok () :=
    validatePeerHello_eq_ok.mpr
      ⟨compatible.clientNamed, compatible.protocolVersion, compatible.serverExpects⟩
  simp only [ServerHandshakeConfig.answer, verdict]
  have acceptable := acceptance_acceptable clientNonce
    (nextHandshakeToken serverView.serverNonce) (nextHandshakeToken serverView.sessionId)
    compatible.serverNamed
    compatible.protocolVersion compatible.clientExpects
  obtain ⟨session, sessionOf⟩ := acceptable.exists_session
  exact ⟨session, _, acceptAck_eq_ok.mpr ⟨acceptable, sessionOf⟩, rfl⟩

/-- The client reports a refusal under the server's code, and a refused name in the
server's words unless the client refuses the server's name itself. -/
theorem acceptAck_rejection {clientNonce : Token} {error : LaicError}
    (clientNamed : client.localTrustDomain ≠ "") (serverNamed : server.localTrustDomain ≠ "")
    (refused : validatePeerHello server (client.hello clientNonce) = .error error) :
    ∃ clientError, acceptAck client clientNonce (server.rejection clientNonce error) =
        .error clientError ∧
      clientError.code = error.code ∧ (error.code = ⟨0x0308⟩ ∨ error.code = ⟨0x0309⟩) ∧
      ∀ expected actual, error = .protocol (.trustDomainMismatch expected actual) →
        client.expectedRemoteTrustDomain = none ∨
          client.expectedRemoteTrustDomain = some server.localTrustDomain →
        clientError = error := by
  have version : validateProtocolVersion client.protocolVersion
      (server.rejection clientNonce error).protocolVersion = _ := validateProtocolVersion_toUInt32 _ _
  have domain : validateTrustDomain "hello_ack trust_domain"
      (server.rejection clientNonce error).trustDomain = .ok () :=
    validateTrustDomain_eq_ok.mpr serverNamed
  obtain ⟨differ, rfl⟩ | ⟨same, expected, rfl⟩ := validatePeerHello_eq_error clientNamed refused
  · refine ⟨.protocol (.unsupportedHandshakeVersion client.protocolVersion server.protocolVersion),
      ?_, rfl, .inl rfl, nofun⟩
    rw [acceptAck, version, Except.ensure_neg (Ne.symm differ), Except.error_bind]
  · rw [acceptAck, version, Except.ensure_pos same.symm, Except.ok_bind, domain, Except.ok_bind]
    cases expectation : validateExpectedDomain client.expectedRemoteTrustDomain
        (server.rejection clientNonce
          (.protocol (.trustDomainMismatch expected client.localTrustDomain))).trustDomain with
    | error clientError =>
      obtain ⟨own, hasOwn, differ, rfl⟩ := validateExpectedDomain_eq_error.mp expectation
      refine ⟨_, rfl, rfl, .inr rfl, fun _ _ _ satisfied => ?_⟩
      rw [hasOwn] at satisfied
      obtain impossible | equal := satisfied
      · cases impossible
      · exact absurd (Option.some.inj equal) differ
    | ok _ =>
      rw [Except.ok_bind, validateAckRejection_rejected (rejection_code_ne_zero _ _ _) rfl rfl]
      exact ⟨_, rfl, rfl, .inr rfl, fun _ _ _ _ => rfl⟩

/-! ## Runs -/

/-- The end of every handshake.  A client that has returned a session has done so only
there. -/
theorem handshake_end (lawful : codec.Lawful) (fit : FitFrames codec client server) :
    ∃ lefts rights last,
      Run lefts rights (handshakeStart codec clientView serverView client server) last ∧
      last.Final ∧
      (∀ lefts' rights' state session,
        Run lefts' rights' (handshakeStart codec clientView serverView client server) state →
        state.left = .ret (.ok session) → state = last) ∧
      (∀ session, last.left = .ret (.ok session) → Compatible client server ∧
        ∃ session', last.right = .ret (.ok session') ∧ Mirrors session session') ∧
      (Compatible client server →
        ∃ session session', last.left = .ret (.ok session) ∧ last.right = .ret (.ok session')) := by
  by_cases named : client.localTrustDomain ≠ "" ∧ server.localTrustDomain ≠ ""
  · obtain ⟨lefts, rights, lastWrite, _, _, run⟩ := handshake_run clientView serverView lawful fit named.1 named.2
    refine ⟨lefts, rights, _, run, .of_done rfl rfl, ?_, ?_, ?_⟩
    · intro _ _ state session run' returned
      exact run.eq_of_left_done (.of_done rfl rfl) rfl lastWrite run' returned
    · intro session returned
      have accepted := Except.mapError_eq_ok.mp (Async.ret.inj returned)
      obtain ⟨compatible, session', served, mirrors⟩ := acceptAck_answer serverView accepted
      exact ⟨compatible, session', congrArg Async.ret (Except.mapError_eq_ok.mpr served), mirrors⟩
    · intro compatible
      obtain ⟨session, session', accepted, served⟩ := compatible.accepts serverView
        (nextHandshakeToken clientView.clientNonce)
      exact ⟨session, session', congrArg Async.ret (Except.mapError_eq_ok.mpr accepted),
        congrArg Async.ret (Except.mapError_eq_ok.mpr served)⟩
  · have unnamed : client.localTrustDomain = "" ∨ server.localTrustDomain = "" := by
      simpa [Classical.or_iff_not_imp_left] using named
    obtain ⟨lefts, rights, _, _, _, run⟩ := handshake_unnamed clientView serverView fit unnamed
    refine ⟨lefts, rights, _, run, .of_done rfl rfl, ?_, nofun, ?_⟩
    · intro _ _ state session run' returned
      obtain ⟨_, _, _, _, rest⟩ := run.extends (.of_done rfl rfl) run'
      cases (rest.left_done returned).2
    · intro compatible
      exact absurd ⟨compatible.clientNamed, compatible.serverNamed⟩ named

/-- Whatever the schedule, the handshake comes to an end.  If the client has returned a
session, the server has returned its mirror image; and both return a session exactly when
the two configurations are compatible. -/
theorem handshake_agreement (codec : HandshakeCodec) (lawful : codec.Lawful)
    (client : ClientHandshakeConfig) (server : ServerHandshakeConfig)
    (fit : FitFrames codec client server) (clientView : ClientView) (serverView : ServerView) :
    (∃ limit, ∀ lefts rights state,
      Run lefts rights (handshakeStart codec clientView serverView client server) state →
      lefts.length + rights.length ≤ limit) ∧
    (∀ lefts rights state session,
      Run lefts rights (handshakeStart codec clientView serverView client server) state →
      state.left = .ret (.ok session) →
      ∃ session', state.right = .ret (.ok session') ∧ Mirrors session session') ∧
    (∀ lefts rights state,
      Run lefts rights (handshakeStart codec clientView serverView client server) state →
      state.Final →
      ((∃ session session', state.left = .ret (.ok session) ∧ state.right = .ret (.ok session')) ↔
        Compatible client server)) := by
  obtain ⟨lefts, rights, last, run, final, returns, sound, complete⟩ :=
    handshake_end clientView serverView lawful fit
  refine ⟨⟨_, fun _ _ _ run' => run.length_le final run'⟩, ?_, ?_⟩
  · intro _ _ state session run' returned
    obtain rfl := returns _ _ state session run' returned
    exact (sound session returned).2
  · intro _ _ state run' final'
    obtain rfl := run.final_unique final run' final'
    exact ⟨fun ⟨session, _, returned, _⟩ => (sound session returned).1, complete⟩

/-- Two compatible configurations, which some run brings to two sessions. -/
theorem handshake_agreement_sample :
    ∃ (client : ClientHandshakeConfig) (server : ServerHandshakeConfig) (clientView : ClientView)
      (serverView : ServerView) (lefts rights : List IoEvent)
      (state : Duplex Abort TrustDomainSession TrustDomainSession)
      (session session' : TrustDomainSession),
      Run lefts rights (handshakeStart protobuf clientView serverView client server) state ∧
      state.left = .ret (.ok session) ∧ state.right = .ret (.ok session') ∧
      Mirrors session session' := by
  let client : ClientHandshakeConfig := ⟨"mercury", some "venus", 1⟩
  let server : ServerHandshakeConfig := ⟨"venus", none, 1⟩
  let clientView : ClientView := ⟨⟨1, some 1700000000000000000⟩, 10000⟩
  let serverView : ServerView := ⟨⟨2, some 1700000000000000007⟩, ⟨3, none⟩, 10001⟩
  have fit : FitFrames protobuf client server :=
    protobuf_fitFrames (by decide) (by decide) nofun
  have compatible : Compatible client server :=
    ⟨by decide, by decide, rfl, .inl rfl, .inr rfl⟩
  obtain ⟨lefts, rights, last, run, final, _⟩ :=
    handshake_end clientView serverView protobuf_lawful fit
  obtain ⟨_, sound, complete⟩ :=
    handshake_agreement protobuf protobuf_lawful client server fit clientView serverView
  obtain ⟨session, _, returned, _⟩ := (complete lefts rights last run final).mpr compatible
  obtain ⟨session', returned', mirrors⟩ := sound lefts rights last session run returned
  exact ⟨client, server, clientView, serverView, lefts, rights, last, session, session', run,
    returned, returned', mirrors⟩

/-- If the server answers the hello of a client with a refusal, then whatever the schedule
the client ends with an error of the same code, without waiting for the end of the stream;
and with the server's words for a refused name, unless it refuses the server's name. -/
theorem handshake_rejection_parity (codec : HandshakeCodec) (lawful : codec.Lawful)
    (client : ClientHandshakeConfig) (server : ServerHandshakeConfig)
    (fit : FitFrames codec client server) (clientNamed : client.localTrustDomain ≠ "")
    (serverNamed : server.localTrustDomain ≠ "") (clientView : ClientView) (serverView : ServerView)
    (lefts rights : List IoEvent) (state : Duplex Abort TrustDomainSession TrustDomainSession)
    (run : Run lefts rights (handshakeStart codec clientView serverView client server) state)
    (error : LaicError) (refused : state.right = .ret (.error (.error error))) :
    ∃ clientError : LaicError, clientError.code = error.code ∧
      (error.code = ⟨0x0308⟩ ∨ error.code = ⟨0x0309⟩) ∧
      (∀ expected actual, error = .protocol (.trustDomainMismatch expected actual) →
        client.expectedRemoteTrustDomain = none ∨
          client.expectedRemoteTrustDomain = some server.localTrustDomain →
        clientError = .protocol (.trustDomainMismatch expected actual)) ∧
      (∃ limit, ∀ lefts' rights' other, Run lefts' rights' state other →
        .eof ∉ lefts' ∧ .eof ∉ rights' ∧ lefts'.length + rights'.length ≤ limit ∧
        (other.Final → other.left = .ret (.error (.error clientError)))) := by
  obtain ⟨_, _, _, noEof, noEof', complete⟩ := handshake_run clientView serverView lawful fit clientNamed serverNamed
  obtain ⟨leftRest, rightRest, rfl, rfl, rest⟩ := complete.extends (.of_done rfl rfl) run
  -- the server's result is its verdict on the hello, which the ack carries to the client
  obtain ⟨_, served, equal⟩ := Except.mapError_eq_error.mp (Async.ret.inj (rest.right_done refused).2)
  cases equal
  obtain ⟨refusedHello, rejection⟩ := answer_eq_error serverView served
  obtain ⟨clientError, reported, sameCode, codes, names⟩ :=
    acceptAck_rejection clientNamed serverNamed refusedHello
  refine ⟨clientError, sameCode, codes, ?_, leftRest.length + rightRest.length,
    fun lefts' rights' other run' => ?_⟩
  · rintro expected actual rfl satisfied
    exact names expected actual rfl satisfied
  · have short := rest.length_le (.of_done rfl rfl) run'
    obtain ⟨leftRest', rightRest', rfl, rfl, _⟩ := rest.extends (.of_done rfl rfl) run'
    simp only [List.mem_append, not_or] at noEof noEof'
    refine ⟨noEof.2.1, noEof'.2.1, short, fun final => ?_⟩
    rw [rest.final_unique (.of_done rfl rfl) run' final, rejection, reported]
    rfl

/-- A server that expects another name than the client's. -/
theorem handshake_rejection_parity_sample :
    ∃ (client : ClientHandshakeConfig) (server : ServerHandshakeConfig) (clientView : ClientView)
      (serverView : ServerView) (lefts rights : List IoEvent)
      (state : Duplex Abort TrustDomainSession TrustDomainSession) (error clientError : LaicError),
      Run lefts rights (handshakeStart protobuf clientView serverView client server) state ∧
      state.right = .ret (.error (.error error)) ∧
      error = .protocol (.trustDomainMismatch "mars" "mercury") ∧ clientError = error := by
  let client : ClientHandshakeConfig := ⟨"mercury", some "venus", 1⟩
  let server : ServerHandshakeConfig := ⟨"venus", some "mars", 1⟩
  let clientView : ClientView := ⟨⟨1, some 1700000000000000000⟩, 10000⟩
  let serverView : ServerView := ⟨⟨2, some 1700000000000000007⟩, ⟨3, none⟩, 10001⟩
  have clientNamed : client.localTrustDomain ≠ "" := by decide
  have serverNamed : server.localTrustDomain ≠ "" := by decide
  have fit : FitFrames protobuf client server :=
    protobuf_fitFrames (by decide) (by decide) (by rintro name ⟨⟩; decide)
  obtain ⟨lefts, rights, _, _, _, run⟩ := handshake_run clientView serverView protobuf_lawful fit clientNamed serverNamed
  have refused : validatePeerHello server (client.hello (nextHandshakeToken clientView.clientNonce)) =
      .error (.protocol (.trustDomainMismatch "mars" "mercury")) := rfl
  have answer : (server.answer serverView (client.hello (nextHandshakeToken clientView.clientNonce))
      (nextHandshakeToken clientView.clientNonce)).2 =
        .error (.protocol (.trustDomainMismatch "mars" "mercury")) := by
    rw [ServerHandshakeConfig.answer, refused]
  obtain ⟨clientError, _, _, names, _⟩ := handshake_rejection_parity protobuf protobuf_lawful client
    server fit clientNamed serverNamed clientView serverView lefts rights _ run _
    (congrArg (fun result => Async.ret (result.mapError Abort.error)) answer)
  exact ⟨client, server, clientView, serverView, lefts, rights, _, _, clientError, run,
    congrArg (fun result => Async.ret (result.mapError Abort.error)) answer, rfl,
    names _ _ rfl (.inr rfl)⟩

end Parties

end Laic
