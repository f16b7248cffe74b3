import Laic.Handshake.Agreement
import Laic.Transport.Conversation

/-! # From the handshake to the data

A connection is used after its handshake by the same two parties over the same streams.  The handshake
writes and reads exactly its two frames, so that what follows it meets the connection as if it had
just been opened, in every interleaving: also where one party sends its first messages while the
other is still in its handshake. -/

namespace Laic

open Async (Advances)
open Duplex (Run Final)

/-! ## Handshake and data -/

section Parties

variable {codec : HandshakeCodec} {client : ClientHandshakeConfig} {server : ServerHandshakeConfig}
  (clientView : ClientView) (serverView : ServerView)

/-- The two parties before either has moved: each opens its session and goes on with it. -/
abbrev sessionStart {α β : Type} (codec : HandshakeCodec) (clientView : ClientView) (serverView : ServerView)
    (client : ClientHandshakeConfig) (server : ServerHandshakeConfig)
    (clientData : TrustDomainSession → Async Abort α) (serverData : TrustDomainSession → Async Abort β) :
    Duplex Abort α β :=
  .connect (clientHandshake codec clientView client >>= clientData)
    (serverHandshake codec serverView server >>= serverData)

/-- Going on with nothing is the handshake alone. -/
theorem sessionStart_pure :
    sessionStart codec clientView serverView client server (fun session => .ret (.ok session))
      (fun session => .ret (.ok session)) = handshakeStart codec clientView serverView client server := by
  rw [sessionStart, handshakeStart, Async.bind_pure, Async.bind_pure]

/-- On the schedule of one exchange both go on from what they have made of each other's message, with
nothing in flight.  The schedule is the same whatever they go on with. -/
theorem session_run (lawful : codec.Lawful) (fit : FitFrames codec client server)
    (clientNamed : client.localTrustDomain ≠ "") (serverNamed : server.localTrustDomain ≠ "") :
    let clientNonce := nextHandshakeToken clientView.clientNonce
    let answer := server.answer serverView (client.hello clientNonce) clientNonce
    ∃ lefts rights, ∀ (α β : Type) (clientData : TrustDomainSession → Async Abort α)
      (serverData : TrustDomainSession → Async Abort β),
      Run lefts rights (sessionStart codec clientView serverView client server clientData serverData)
        (.connect (.ret ((acceptAck client clientNonce answer.1).mapError .error) >>= clientData)
          (.ret (answer.2.mapError .error) >>= serverData)) := by
  intro clientNonce answer
  obtain ⟨hello, helloCarries, writes⟩ := clientHandshake_writes clientView clientNamed (fit.hello _)
  obtain ⟨ack, ackCarries, answers⟩ := serverHandshake_answers serverView lawful serverNamed
    helloCarries (fit.answer serverView _)
  have reads := clientHandshake_reads lawful ackCarries client clientNonce
  exact ⟨_, _, fun _ _ clientData serverData =>
    Run.exchange (writes.bind clientData) (answers.bind serverData) (reads.bind clientData)⟩

/-- A client without a name sends nothing. -/
theorem clientHandshake_unnamed (codec : HandshakeCodec) (unnamed : client.localTrustDomain = "") :
    ∃ error, clientHandshake codec clientView client = .ret (.error error) := by
  rw [clientHandshake, unnamed]
  exact ⟨_, rfl⟩

theorem serverHandshake_unnamed (codec : HandshakeCodec) (unnamed : server.localTrustDomain = "") :
    ∃ error, serverHandshake codec serverView server = .ret (.error error) := by
  rw [serverHandshake, unnamed]
  exact ⟨_, rfl⟩

/-- A client whose server ends at once meets the end of the stream where it expects the ack. -/
theorem session_run_unanswered (fit : FitFrames codec client server)
    (clientNamed : client.localTrustDomain ≠ "") (serverUnnamed : server.localTrustDomain = "") :
    ∃ lefts error, ∀ (α β : Type) (clientData : TrustDomainSession → Async Abort α)
      (serverData : TrustDomainSession → Async Abort β), ∃ state,
      Run lefts [] (sessionStart codec clientView serverView client server clientData serverData) state ∧
        state.left = .ret (.error error) := by
  obtain ⟨error, fails⟩ := serverHandshake_unnamed serverView codec serverUnnamed
  obtain ⟨hello, _, writes⟩ := clientHandshake_writes clientView clientNamed (fit.hello _)
  refine ⟨List.replicate hello.frame.length .write ++ [.eof], .error (receiveFailed .earlyEof),
    fun α β clientData serverData => ?_⟩
  have sent := Run.left_advances (writes.bind clientData)
    (Async.ret (.error error) >>= serverData).settle [] []
  rw [sessionStart, Duplex.connect, fails]
  exact ⟨_, sent.trans (Run.left_eof _ _ _ _), rfl⟩

/-- Of an incompatible pair the client comes to an error on a schedule on which its actions are the
same whatever either party goes on with. -/
theorem session_run_refused (lawful : codec.Lawful) (fit : FitFrames codec client server)
    (incompatible : ¬ Compatible client server) :
    ∃ lefts error, ∀ (α β : Type) (clientData : TrustDomainSession → Async Abort α)
      (serverData : TrustDomainSession → Async Abort β), ∃ rights state,
      Run lefts rights (sessionStart codec clientView serverView client server clientData serverData) state ∧
        state.left = .ret (.error error) := by
  by_cases clientNamed : client.localTrustDomain = ""
  · obtain ⟨error, fails⟩ := clientHandshake_unnamed clientView codec clientNamed
    refine ⟨[], error, fun α β clientData serverData => ⟨[], _, .refl, ?_⟩⟩
    rw [sessionStart, Duplex.connect, fails]
    rfl
  · by_cases serverNamed : server.localTrustDomain = ""
    · obtain ⟨lefts, error, unanswered⟩ :=
        session_run_unanswered clientView serverView fit clientNamed serverNamed
      exact ⟨lefts, error, fun α β clientData serverData => ⟨[], unanswered α β clientData serverData⟩⟩
    · obtain ⟨lefts, rights, run⟩ :=
        session_run clientView serverView lawful fit clientNamed serverNamed
      cases accepted : acceptAck client (nextHandshakeToken clientView.clientNonce)
          (server.answer serverView (client.hello (nextHandshakeToken clientView.clientNonce))
            (nextHandshakeToken clientView.clientNonce)).1 with
      | ok session => exact absurd (acceptAck_answer serverView accepted).1 incompatible
      | error error =>
        refine ⟨lefts, .error error, fun α β clientData serverData =>
          ⟨rights, _, run α β clientData serverData, ?_⟩⟩
        rw [accepted]
        rfl

/-- So in every complete run it does exactly what it does in the handshake alone. -/
theorem session_refused {α β : Type} (clientData : TrustDomainSession → Async Abort α)
    (serverData : TrustDomainSession → Async Abort β) (lawful : codec.Lawful)
    (fit : FitFrames codec client server) (incompatible : ¬ Compatible client server)
    {lefts rights : List IoEvent} {state : Duplex Abort α β}
    (run : Run lefts rights (sessionStart codec clientView serverView client server clientData serverData)
      state) (final : state.Final) :
    ∃ error rights' alone,
      Run lefts rights' (handshakeStart codec clientView serverView client server) alone ∧ alone.Final ∧
        alone.left = .ret (.error error) ∧ state.left = .ret (.error error) := by
  obtain ⟨own, error, refused⟩ := session_run_refused clientView serverView lawful fit incompatible
  have ends {γ δ : Type} (clientData : TrustDomainSession → Async Abort γ)
      (serverData : TrustDomainSession → Async Abort δ) {lefts rights : List IoEvent} {state : Duplex Abort γ δ}
      (run : Run lefts rights (sessionStart codec clientView serverView client server clientData serverData)
        state) (final : state.Final) : lefts = own ∧ state.left = .ret (.error error) := by
    obtain ⟨_, middle, run', ended⟩ := refused γ δ clientData serverData
    obtain ⟨_, _, rfl, -, rest⟩ := run.extends final run'
    obtain ⟨rfl, same⟩ := rest.left_done ended
    exact ⟨List.append_nil own, same⟩
  obtain ⟨rfl, ended⟩ := ends clientData serverData run final
  obtain ⟨lefts', rights', alone, runAlone, finalAlone, -⟩ := handshake_end clientView serverView lawful fit
  rw [← sessionStart_pure] at runAlone
  obtain ⟨rfl, endedAlone⟩ := ends _ _ runAlone finalAlone
  rw [sessionStart_pure] at runAlone
  exact ⟨error, rights', alone, runAlone, finalAlone, endedAlone, ended⟩

/-- On that schedule a compatible pair comes to two matching sessions. -/
theorem session_run_compatible {α β : Type} (clientData : TrustDomainSession → Async Abort α)
    (serverData : TrustDomainSession → Async Abort β) (lawful : codec.Lawful)
    (fit : FitFrames codec client server) (compatible : Compatible client server) :
    ∃ session session' lefts rights, Mirrors session session' ∧
      Run lefts rights (sessionStart codec clientView serverView client server clientData serverData)
        (.connect (clientData session) (serverData session')) := by
  obtain ⟨lefts, rights, run⟩ := session_run clientView serverView lawful fit compatible.clientNamed
    compatible.serverNamed
  have run := run α β clientData serverData
  obtain ⟨session, session', accepted, served⟩ :=
    compatible.accepts serverView (nextHandshakeToken clientView.clientNonce)
  obtain ⟨-, other, same, mirrors⟩ := acceptAck_answer serverView accepted
  cases served.symm.trans same
  rw [accepted, served] at run
  exact ⟨session, session', lefts, rights, mirrors, run⟩

end Parties

/-- What two compatible parties do with their sessions they do as over a fresh connection: the complete
runs of the whole are the handshake's actions of each party, then a complete run of the data.  Of
an incompatible pair the client does what it does in the handshake alone, reads and writes no further
byte, and ends with the handshake's error. -/
theorem session_transparent {α β : Type} (codec : HandshakeCodec) (lawful : codec.Lawful)
    (client : ClientHandshakeConfig) (server : ServerHandshakeConfig)
    (fit : FitFrames codec client server) (clientView : ClientView) (serverView : ServerView)
    (clientData : TrustDomainSession → Async Abort α) (serverData : TrustDomainSession → Async Abort β) :
    (Compatible client server → ∃ session session' lefts rights, Mirrors session session' ∧
      ∀ lefts' rights' state, state.Final →
        (Run lefts' rights' (sessionStart codec clientView serverView client server clientData serverData)
            state ↔
          ∃ dataLefts dataRights, lefts' = lefts ++ dataLefts ∧ rights' = rights ++ dataRights ∧
            Run dataLefts dataRights (.connect (clientData session) (serverData session')) state)) ∧
    (¬ Compatible client server → ∀ lefts rights state,
      Run lefts rights (sessionStart codec clientView serverView client server clientData serverData) state →
      state.Final → ∃ error rights' alone,
        Run lefts rights' (handshakeStart codec clientView serverView client server) alone ∧ alone.Final ∧
          alone.left = .ret (.error error) ∧ state.left = .ret (.error error)) := by
  refine ⟨fun compatible => ?_, fun incompatible lefts rights state run final =>
    session_refused clientView serverView clientData serverData lawful fit incompatible run final⟩
  obtain ⟨session, session', lefts, rights, mirrors, run⟩ :=
    session_run_compatible clientView serverView clientData serverData lawful fit compatible
  refine ⟨session, session', lefts, rights, mirrors, fun lefts' rights' state final => ?_⟩
  constructor
  · intro whole
    obtain ⟨dataLefts, dataRights, rfl, rfl, data⟩ := whole.extends final run
    exact ⟨dataLefts, dataRights, rfl, rfl, data⟩
  · rintro ⟨dataLefts, dataRights, rfl, rfl, data⟩
    exact Run.trans run data

/-- Two parties that end after their handshake. -/
theorem session_transparent_idle :
    ∃ (client : ClientHandshakeConfig) (server : ServerHandshakeConfig) (clientView : ClientView)
      (serverView : ServerView) (session session' : TrustDomainSession) (lefts rights : List IoEvent),
      Mirrors session session' ∧
        Run lefts rights (sessionStart protobuf clientView serverView client server pure pure)
          (.connect (pure session) (pure session')) := by
  let client : ClientHandshakeConfig := ⟨"mercury", some "venus", 1⟩
  let server : ServerHandshakeConfig := ⟨"venus", none, 1⟩
  let clientView : ClientView := ⟨⟨1, some 1700000000000000000⟩, 10000⟩
  let serverView : ServerView := ⟨⟨2, some 1700000000000000007⟩, ⟨3, none⟩, 10001⟩
  have fit : FitFrames protobuf client server := protobuf_fitFrames (by decide) (by decide) nofun
  have compatible : Compatible client server := ⟨by decide, by decide, rfl, .inl rfl, .inr rfl⟩
  obtain ⟨session, session', lefts, rights, mirrors, complete⟩ :=
    (session_transparent protobuf protobuf_lawful client server fit clientView serverView pure pure).1 compatible
  have run := (complete _ _ (.connect (pure session) (pure session')) (.of_done rfl rfl)).mpr
    ⟨[], [], rfl, rfl, .refl⟩
  exact ⟨client, server, clientView, serverView, session, session', _, _, mirrors, run⟩

/-- Two compatible parties that open a session and then carry out any calls: every interleaving comes
to an end, whoever carries out all its calls has received the other's messages from the first on,
complete, in order and unchanged, and both do unless the calls themselves wait for each other. -/
theorem session_converses (codec : HandshakeCodec) (lawful : codec.Lawful)
    (client : ClientHandshakeConfig) (server : ServerHandshakeConfig)
    (fit : FitFrames codec client server) (compatible : Compatible client server)
    (clientView : ClientView) (serverView : ServerView) (calls calls' : List DataCall)
    (fits : FitFrame (DataCall.sent calls)) (fits' : FitFrame (DataCall.sent calls')) :
    let start := sessionStart codec clientView serverView client server
      (fun _ => converse Abort.error calls) fun _ => converse Abort.error calls'
    (∃ limit, ∀ lefts rights state, Run lefts rights start state → lefts.length + rights.length ≤ limit) ∧
      ∀ lefts rights state, Run lefts rights start state →
        (∀ got, state.left = .ret (.ok got) →
          got = (DataCall.sent calls').take (DataCall.receives calls)) ∧
        (∀ got, state.right = .ret (.ok got) →
          got = (DataCall.sent calls).take (DataCall.receives calls')) ∧
        (state.Final →
          ((∃ got got', state.left = .ret (.ok got) ∧ state.right = .ret (.ok got')) ↔
            completes calls calls' 0 0 = true)) := by
  intro start
  obtain ⟨_, _, lefts, rights, -, opened⟩ := session_run_compatible clientView serverView
    (fun _ => converse Abort.error calls) (fun _ => converse Abort.error calls') lawful fit compatible
  obtain ⟨lefts', rights', last, conversed, concluded⟩ :=
    conversation_end Abort.error calls calls' [] [] [] [] fits fits' nofun nofun
  rw [conversation, resume_nil, resume_nil] at conversed
  have whole : Run (lefts ++ lefts') (rights ++ rights') start last := opened.trans conversed
  refine ⟨⟨_, fun _ _ _ run => whole.length_le concluded.final run⟩, fun _ _ state run => ⟨?_, ?_, ?_⟩⟩
  · intro got done
    obtain ⟨_, _, _, _, rest⟩ := whole.extends concluded.final run
    simpa using concluded.left got (rest.left_done done).2
  · intro got done
    obtain ⟨_, _, _, _, rest⟩ := whole.extends concluded.final run
    simpa using concluded.right got (rest.right_done done).2
  · intro final
    obtain rfl := whole.final_unique concluded.final run final
    exact concluded.both

/-- A request and its response. -/
theorem session_converses_request :
    ∃ (client : ClientHandshakeConfig) (server : ServerHandshakeConfig) (request response : Message),
      ∀ clientView serverView lefts rights state,
        Run lefts rights (sessionStart protobuf clientView serverView client server
          (fun _ => converse Abort.error [.send request, .receive])
          fun _ => converse Abort.error [.receive, .send response]) state →
        state.Final → ∃ got got', state.left = .ret (.ok got) ∧ state.right = .ret (.ok got') := by
  obtain ⟨request, made⟩ :=
    Option.isSome_iff_exists.mp (show (Message.new .data 7 .raw .normal [1, 2]).isSome by decide)
  obtain ⟨response, made'⟩ :=
    Option.isSome_iff_exists.mp (show (Message.new .data 8 .raw .normal [3]).isSome by decide)
  have fits : FitFrame (DataCall.sent [.send request, .receive]) := by
    obtain ⟨valid, -, -, payload⟩ := Message.new_eq_some made
    intro message member
    obtain rfl := List.mem_singleton.mp member
    exact ⟨valid, by rw [payload]; decide⟩
  have fits' : FitFrame (DataCall.sent [.receive, .send response]) := by
    obtain ⟨valid, -, -, payload⟩ := Message.new_eq_some made'
    intro message member
    obtain rfl := List.mem_singleton.mp member
    exact ⟨valid, by rw [payload]; decide⟩
  let client : ClientHandshakeConfig := ⟨"mercury", some "venus", 1⟩
  let server : ServerHandshakeConfig := ⟨"venus", none, 1⟩
  have fit : FitFrames protobuf client server := protobuf_fitFrames (by decide) (by decide) nofun
  have compatible : Compatible client server := ⟨by decide, by decide, rfl, .inl rfl, .inr rfl⟩
  refine ⟨client, server, request, response, fun clientView serverView lefts rights state run final => ?_⟩
  have converses := session_converses protobuf protobuf_lawful client server fit compatible clientView
    serverView [.send request, .receive] [.receive, .send response] fits fits'
  exact ((converses.2 lefts rights state run).2.2 final).mpr (by simp [completes])

end Laic
