import Laic.Handshake.Programs

/-! # Freshness of handshake tokens

A process numbers its calls of `next_handshake_token` by `HANDSHAKE_COUNTER`; what the clock
shows at a call is arbitrary.  The number stands in the upper half of the token and the clock,
for as long as it needs 64 bits, in the lower one, so the number can be read off the token. -/

namespace Laic

/-! ## The calls of a process -/

/-- What calls observe whose increments come in this order, from a value of the counter on. -/
def ticksFrom : UInt64 → List (Option (BitVec 128)) → List Tick
  | _, [] => []
  | counter, nanos :: clock => ⟨counter, nanos⟩ :: ticksFrom (counter + 1) clock

/-- The calls of a process, by what the clock shows at each; the counter starts at 1. -/
def processTicks (clock : List (Option (BitVec 128))) : List Tick := ticksFrom 1 clock

/-- The tokens these calls return. -/
def processTokens (clock : List (Option (BitVec 128))) : List Token :=
  (processTicks clock).map nextHandshakeToken

/-- The clock shows less than 2^64 nanoseconds, about 584 years. -/
def WithinEra (nanos : Option (BitVec 128)) : Prop := ∀ reading ∈ nanos, reading.toNat < 2 ^ 64

/-! ## The number of a call is in its token -/

theorem toNat_toBeBytes (n : BitVec 128) (index : Fin 16) :
    (toBeBytes n)[index].toNat = n.toNat / 2 ^ (8 * (15 - index.val)) % 256 := by
  simp [toBeBytes, Nat.shiftRight_eq_div_pow]

/-- The bytes determine every bit. -/
theorem toBeBytes_injective {n m : BitVec 128} (same : toBeBytes n = toBeBytes m) : n = m := by
  apply BitVec.eq_of_toNat_eq
  apply Nat.eq_of_testBit_eq
  intro bit
  by_cases inside : bit < 128
  · -- the bit stands in this byte
    let index : Fin 16 := ⟨15 - bit / 8, by omega⟩
    have position : 8 * (15 - index.val) + bit % 8 = bit := by
      show 8 * (15 - (15 - bit / 8)) + bit % 8 = bit
      omega
    have byte (k : BitVec 128) :
        k.toNat.testBit bit = (toBeBytes k)[index].toNat.testBit (bit % 8) := by
      have small : bit % 8 < 8 := Nat.mod_lt _ (by decide)
      rw [toNat_toBeBytes, show (256 : Nat) = 2 ^ 8 from rfl, Nat.testBit_mod_two_pow,
        Nat.testBit_div_two_pow, Nat.add_comm, position]
      simp [small]
    rw [byte n, byte m, same]
  · have outside (k : BitVec 128) : k.toNat.testBit bit = false := by
      apply Nat.testBit_lt_two_pow
      exact Nat.lt_of_lt_of_le k.isLt (Nat.pow_le_pow_right (by decide) (Nat.not_lt.mp inside))
    rw [outside n, outside m]

/-- The upper half of a token is the number of its call. -/
theorem upperHalf_token {counter : UInt64} {nanos : BitVec 128} (low : nanos.toNat < 2 ^ 64) :
    (nanos ^^^ (counter.toBitVec.setWidth 128 <<< 64)) >>> 64 = counter.toBitVec.setWidth 128 := by
  apply BitVec.eq_of_getLsbD_eq
  intro bit inside
  have clock : nanos.getLsbD (64 + bit) = false := by
    apply Nat.testBit_lt_two_pow
    exact Nat.lt_of_lt_of_le low (Nat.pow_le_pow_right (by decide) (Nat.le_add_right 64 bit))
  have number : counter.toBitVec.getLsbD bit = true → bit < 64 := fun set =>
    BitVec.lt_of_getLsbD set
  simp only [BitVec.getLsbD_ushiftRight, BitVec.getLsbD_xor, clock, BitVec.getLsbD_shiftLeft,
    BitVec.getLsbD_setWidth]
  by_cases set : counter.toBitVec.getLsbD bit = true
  · have := number set
    simp [set, inside]
    omega
  · simp [set]

/-- Calls of different numbers return different tokens. -/
theorem counter_eq_of_token {left right : Tick} (era : WithinEra left.nanos)
    (era' : WithinEra right.nanos) (same : nextHandshakeToken left = nextHandshakeToken right) :
    left.counter = right.counter := by
  have low (nanos : Option (BitVec 128)) (within : WithinEra nanos) :
      (nanos.getD 0).toNat < 2 ^ 64 := by
    cases nanos with
    | none => decide
    | some reading => exact within reading rfl
  have numbers := congrArg (fun n : BitVec 128 => n >>> 64) (toBeBytes_injective same)
  simp only [upperHalf_token (low _ era), upperHalf_token (low _ era')] at numbers
  have values := congrArg BitVec.toNat numbers
  simp only [BitVec.toNat_setWidth] at values
  apply UInt64.toNat_inj.mp
  have := left.counter.toNat_lt
  have := right.counter.toNat_lt
  simp only [UInt64.toNat_toBitVec] at values
  omega

/-! ## All tokens of a process -/

/-- The counters of the calls count up and wrap at 2^64. -/
theorem counter_mem_ticksFrom {counter : UInt64} {clock : List (Option (BitVec 128))} {tick : Tick}
    (member : tick ∈ ticksFrom counter clock) :
    (∃ index < clock.length, tick.counter = counter + UInt64.ofNat index) ∧ tick.nanos ∈ clock := by
  induction clock generalizing counter with
  | nil => cases member
  | cons nanos clock ih =>
    cases member with
    | head => exact ⟨⟨0, by simp, by simp⟩, List.mem_cons_self⟩
    | tail _ member =>
      obtain ⟨⟨index, inside, same⟩, shown⟩ := ih member
      refine ⟨⟨index + 1, by simpa using inside, ?_⟩, List.mem_cons_of_mem _ shown⟩
      rw [same, UInt64.add_assoc, UInt64.ofNat_add, UInt64.add_comm 1]
      rfl

/-- Fewer than 2^64 calls do not come back to a number. -/
theorem counters_nodup (counter : UInt64) {clock : List (Option (BitVec 128))}
    (few : clock.length < 2 ^ 64) : (ticksFrom counter clock).Pairwise fun left right =>
      left.counter ≠ right.counter := by
  induction clock generalizing counter with
  | nil => exact .nil
  | cons nanos clock ih =>
    rw [List.length_cons] at few
    refine List.pairwise_cons.mpr ⟨fun tick member same => ?_, ih (counter + 1) (by omega)⟩
    obtain ⟨⟨index, inside, later⟩, -⟩ := counter_mem_ticksFrom member
    have values := congrArg UInt64.toNat (same.trans later)
    simp only [UInt64.toNat_add, UInt64.toNat_ofNat', UInt64.toNat_ofNat] at values
    have := counter.toNat_lt
    omega

theorem tokens_nodup {clock : List (Option (BitVec 128))} (few : clock.length < 2 ^ 64)
    (era : ∀ nanos ∈ clock, WithinEra nanos) : (processTokens clock).Nodup := by
  refine List.pairwise_map.mpr (List.Pairwise.imp_of_mem ?_ (counters_nodup 1 few))
  intro left right inLeft inRight different same
  exact different (counter_eq_of_token (era _ (counter_mem_ticksFrom inLeft).2)
    (era _ (counter_mem_ticksFrom inRight).2) same)

/-! ## Handshakes of a process -/

/-- A handshake that opens a session in a process: the calls it makes, by their places among
all calls, and the tokens of the session that it made itself.  Other handshakes may make calls
in between. -/
inductive Opens (ticks : List Tick) : List Nat → List Token → Prop where
  | client {codec : HandshakeCodec} {view : ClientView} {config : ClientHandshakeConfig}
      {reader : ByteReader} {session : TrustDomainSession} {call : Nat}
      (clientNonce : ticks[call]? = some view.clientNonce)
      (opened : ((clientHandshake codec view config).exec reader).result = .ok session) :
      Opens ticks [call] [session.clientNonce]
  | server {codec : HandshakeCodec} {view : ServerView} {config : ServerHandshakeConfig}
      {reader : ByteReader} {session : TrustDomainSession} {first second : Nat}
      (serverNonce : ticks[first]? = some view.serverNonce)
      (sessionId : ticks[second]? = some view.sessionId) (inOrder : first < second)
      (opened : ((serverHandshake codec view config).exec reader).result = .ok session) :
      Opens ticks [first, second] [session.serverNonce, session.sessionId]

/-- A client's session has the nonce of its call. -/
theorem clientHandshake_clientNonce {codec : HandshakeCodec} {view : ClientView}
    {config : ClientHandshakeConfig} {reader : ByteReader} {session : TrustDomainSession}
    (opened : ((clientHandshake codec view config).exec reader).result = .ok session) :
    session.clientNonce = nextHandshakeToken view.clientNonce := by
  simp only [clientHandshake, liftM_except, liftM_async, Async.result_bind_eq_ok, Async.exec_ret,
    Except.mapError_eq_ok] at opened
  obtain ⟨_, _, _, _, _, _, _, _, ack, _, accepted⟩ := opened
  simp only [acceptAck, Except.bind_eq_ok] at accepted
  obtain ⟨_, _, _, _, _, _, _, _, _, _, _, _, _, _, _, _, made⟩ := accepted
  cases made
  rfl

/-- A server's session has the tokens of its two calls. -/
theorem serverHandshake_tokens {codec : HandshakeCodec} {view : ServerView}
    {config : ServerHandshakeConfig} {reader : ByteReader} {session : TrustDomainSession}
    (opened : ((serverHandshake codec view config).exec reader).result = .ok session) :
    session.serverNonce = nextHandshakeToken view.serverNonce ∧
      session.sessionId = nextHandshakeToken view.sessionId := by
  simp only [serverHandshake, liftM_except, liftM_async, Async.result_bind_eq_ok, Async.exec_ret,
    Except.mapError_eq_ok] at opened
  obtain ⟨_, _, _, _, hello, _, clientNonce, _, opened⟩ := opened
  cases verdict : validatePeerHello config hello with
  | error error =>
    -- the ack of a refusal is sent before the error is returned
    simp [verdict, Async.result_bind_eq_ok] at opened
  | ok _ =>
    simp only [verdict, Async.result_bind_eq_ok] at opened
    obtain ⟨_, _, _, _, made⟩ := opened
    cases made
    exact ⟨rfl, rfl⟩

/-- The tokens of a session stand at the handshake's calls. -/
theorem Opens.lookup {clock : List (Option (BitVec 128))} {calls : List Nat} {tokens : List Token}
    (opens : Opens (processTicks clock) calls tokens) :
    calls.Nodup ∧ calls.map (fun call => (processTokens clock)[call]?) = tokens.map some := by
  have token {call : Nat} {tick : Tick} (taken : (processTicks clock)[call]? = some tick) :
      (processTokens clock)[call]? = some (nextHandshakeToken tick) := by
    simp [processTokens, taken]
  cases opens with
  | client clientNonce opened =>
    refine ⟨by simp, ?_⟩
    simp [token clientNonce, clientHandshake_clientNonce opened]
  | server serverNonce sessionId inOrder opened =>
    obtain ⟨nonce, session⟩ := serverHandshake_tokens opened
    refine ⟨by simpa using Nat.ne_of_lt inOrder, ?_⟩
    simp [token serverNonce, token sessionId, nonce, session]

/-- A token of a session stands at one of the calls. -/
theorem Opens.exists_call {clock : List (Option (BitVec 128))} {calls : List Nat}
    {tokens : List Token} (opens : Opens (processTicks clock) calls tokens) {token : Token}
    (member : token ∈ tokens) : ∃ call ∈ calls, (processTokens clock)[call]? = some token := by
  apply List.mem_map.mp
  rw [opens.lookup.2]
  exact List.mem_map_of_mem member

/-- A token stands at one call only. -/
theorem call_eq_of_token {clock : List (Option (BitVec 128))} (fresh : (processTokens clock).Nodup)
    {call call' : Nat} {token : Token} (taken : (processTokens clock)[call]? = some token)
    (taken' : (processTokens clock)[call']? = some token) : call = call' := by
  obtain ⟨inside, -⟩ := List.getElem?_eq_some_iff.mp taken
  exact (List.getElem?_inj inside fresh).mp (taken.trans taken'.symm)

/-- All tokens of a process differ: those of a server's session, and those of any two
handshakes. -/
theorem handshakeTokens_fresh (clock : List (Option (BitVec 128))) (few : clock.length < 2 ^ 64)
    (era : ∀ nanos ∈ clock, WithinEra nanos) :
    (processTokens clock).Nodup ∧
      ∀ calls tokens, Opens (processTicks clock) calls tokens → tokens.Nodup ∧
        ∀ calls' tokens', Opens (processTicks clock) calls' tokens' →
          (∀ call ∈ calls, call ∉ calls') → ∀ token ∈ tokens, token ∉ tokens' := by
  have fresh := tokens_nodup few era
  refine ⟨fresh, fun calls tokens opens => ⟨?_, ?_⟩⟩
  · obtain ⟨distinct, lookup⟩ := opens.lookup
    have images : (tokens.map some).Nodup := by
      rw [← lookup]
      refine List.pairwise_map.mpr (List.Pairwise.imp_of_mem ?_ distinct)
      intro call call' member member' different same
      -- a call of the session has a token
      have found : (processTokens clock)[call]? ∈ tokens.map some := by
        rw [← lookup]
        exact List.mem_map_of_mem member
      obtain ⟨token, -, taken⟩ := List.mem_map.mp found
      exact different (call_eq_of_token fresh taken.symm (same.symm.trans taken.symm))
    exact (List.pairwise_map.mp images).imp fun different same => different (congrArg some same)
  · intro calls' tokens' opens' apart token member member'
    obtain ⟨call, inCalls, taken⟩ := opens.exists_call member
    obtain ⟨call', inCalls', taken'⟩ := opens'.exists_call member'
    exact apart call inCalls (call_eq_of_token fresh taken taken' ▸ inCalls')

/-- A clock that stands still, runs backwards and reports a time before the epoch. -/
theorem handshakeTokens_fresh_backwards :
    (processTokens [some 9, some 9, some 4, none]).Nodup :=
  (handshakeTokens_fresh [some 9, some 9, some 4, none] (by decide) (by simp [WithinEra])).1

end Laic
