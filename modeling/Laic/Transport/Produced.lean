import Laic.Lib.BitMask
import Laic.Protocol.Pattern
import Laic.Transport.Framing
import Laic.Transport.Ipc

/-! # Messages that programs hold

A message comes out of a constructor, out of `fromParts` on any header, or out of a
receive of either transport; after that only the setters change it.  What the setters
own of a header is a mask of flag bits and one field each, so the two flags they
maintain can be followed through any sequence of calls. -/

namespace Laic

open BitMask

namespace Message

/-- A message as a public operation first returns it. -/
inductive Constructed : Message → Prop where
  | new {msgType msgId format qos payload message} :
      Message.new msgType msgId format qos payload = some message → Constructed message
  | skillRequest {msgId format qos payload message} :
      Laic.skillRequest msgId format qos payload = some message → Constructed message
  | skillResponse {request responseId format qos payload message} :
      Laic.skillResponse request responseId format qos payload = some (.ok message) →
        Constructed message
  | streamChunk {msgId format qos payload isLast message} :
      Laic.streamChunk msgId format qos payload isLast = some message → Constructed message
  | topicPublish {msgId format qos payload message} :
      Laic.topicPublish msgId format qos payload = some message → Constructed message
  | fromParts {header payload message} :
      Message.fromParts header payload = .ok message → Constructed message
  | readFrame {reader message} :
      (Laic.readFrame.exec reader).result = .ok message → Constructed message
  | ipcReceive {fault message} {connection connection' : IpcConnection} :
      connection.receive fault = some (.ok message, connection') → Constructed message

/-! ## Setters -/

/-- The setters with their arguments. -/
inductive Setter where
  | creditGrant (credits : UInt16)
  | correlationId (id : UInt64)
  | endOfStream
  | clearEndOfStream
  deriving DecidableEq

def set (message : Message) : Setter → Message
  | .creditGrant credits => message.setCreditGrant credits
  | .correlationId id => message.setCorrelationId id
  | .endOfStream => message.setEndOfStream
  | .clearEndOfStream => message.clearEndOfStream

/-- The setters called in order. -/
def setAll (message : Message) (setters : List Setter) : Message := setters.foldl set message

/-- A message of a program: constructed, then changed by any setters. -/
def Produced (message : Message) : Prop :=
  ∃ origin setters, Constructed origin ∧ message = origin.setAll setters

/-- No setter touches a field that the representation invariant reads. -/
theorem Valid.set {message : Message} (valid : message.Valid) (setter : Setter) :
    (message.set setter).Valid := by
  obtain ⟨⟨magic, version, format, qos⟩, length⟩ := valid
  cases setter with
  | creditGrant credits => exact ⟨⟨magic, version, format, qos⟩, length⟩
  | correlationId id => exact ⟨⟨magic, version, format, qos⟩, length⟩
  | endOfStream => exact ⟨⟨magic, version, format, qos⟩, length⟩
  | clearEndOfStream => exact ⟨⟨magic, version, format, qos⟩, length⟩

theorem Valid.setAll {message : Message} (valid : message.Valid) (setters : List Setter) :
    (message.setAll setters).Valid := by
  induction setters generalizing message with
  | nil => exact valid
  | cons setter setters ih => exact ih (valid.set setter)

/-- Every constructor and every receive establishes the representation invariant. -/
theorem Constructed.valid {message : Message} (constructed : message.Constructed) :
    message.Valid := by
  cases constructed with
  | new made => exact (new_eq_some made).1
  | skillRequest made => exact (new_eq_some made).1
  | topicPublish made => exact (new_eq_some made).1
  | fromParts made => exact (fromParts_eq_ok.mp made).2
  | @readFrame reader _ received =>
    have parsed := readFrame_exec reader
    rw [received] at parsed
    exact (parseFrame_inv parsed.symm).1
  | ipcReceive received =>
    obtain ⟨_, _, _, _, _, read, _⟩ := IpcConnection.receive_eq_some_ok.mp received
    exact IpcFrame.toMessage_valid read
  | @skillResponse request _ _ _ _ _ made =>
    unfold Laic.skillResponse at made
    split at made
    · obtain ⟨fresh, created, same⟩ := Option.map_eq_some_iff.mp made
      cases same
      exact (new_eq_some created).1.set (.correlationId request.header.msgId)
    · cases made
  | @streamChunk _ _ _ _ isLast _ made =>
    obtain ⟨fresh, created, same⟩ := Option.map_eq_some_iff.mp made
    have valid := (new_eq_some created).1
    cases isLast with
    | true =>
      rw [← same]
      exact valid.set .endOfStream
    | false =>
      rw [← same]
      exact valid

theorem Produced.valid {message : Message} (produced : message.Produced) : message.Valid := by
  obtain ⟨origin, setters, constructed, rfl⟩ := produced
  exact constructed.valid.setAll setters

/-- Whatever a program does to a message through the public operations, its header would
pass the decoder, its length field is the payload's length, every long enough buffer
takes its header and gives it back, and it can be rebuilt from its parts. -/
theorem representation_invariant {message : Message} (produced : message.Produced) :
    message.header.magic = Laic.magic ∧ message.header.version = Laic.version ∧
      (∃ format : PayloadFormat, message.header.payloadFormat = format.asU8) ∧
      (∃ qos : Qos, message.header.qos = qos.asU8) ∧
      message.header.payloadLen.toNat = message.payload.length ∧
      (∀ buffer : List UInt8, headerSize ≤ buffer.length → ∃ written,
        message.header.encode buffer = .ok written ∧
          MessageHeader.decode written = .ok message.header) ∧
      fromParts message.intoParts.1 message.intoParts.2 = .ok message := by
  have valid := produced.valid
  have codec : ∀ buffer : List UInt8, headerSize ≤ buffer.length → ∃ written,
      message.header.encode buffer = .ok written ∧
        MessageHeader.decode written = .ok message.header := by
    intro buffer long
    exact ⟨_, MessageHeader.encode_ok valid.header long, MessageHeader.decode_wire valid.header _⟩
  have rebuilt : fromParts message.intoParts.1 message.intoParts.2 = .ok message :=
    fromParts_eq_ok.mpr ⟨rfl, valid⟩
  exact ⟨valid.header.magic, valid.header.version, valid.header.payloadFormat, valid.header.qos,
    valid.payloadLen, codec, rebuilt⟩

/-- A skill call with a credit grant set on it. -/
theorem representation_invariant_skillRequest :
    ∃ message : Message, message.Produced ∧
      fromParts message.intoParts.1 message.intoParts.2 = .ok message := by
  obtain ⟨request, made⟩ :=
    Option.isSome_iff_exists.mp (show (skillRequest 7 .raw .normal [1, 2]).isSome by decide)
  have produced : (request.setAll [.creditGrant 3]).Produced :=
    ⟨request, [.creditGrant 3], .skillRequest made, rfl⟩
  obtain ⟨_, _, _, _, _, _, rebuilt⟩ := representation_invariant produced
  exact ⟨_, produced, rebuilt⟩

/-! ## What a setter owns -/

/-- The flag bits a setter may change. -/
def Setter.mask : Setter → UInt32
  | .creditGrant _ => flagHasCreditGrant
  | .correlationId _ => 0
  | .endOfStream | .clearEndOfStream => flagEndOfStream

/-- The message with only what the setter owns taken from `after`. -/
def Setter.Owns (setter : Setter) (before after : Message) : Prop :=
  after.payload = before.payload ∧
    after.header.flags &&& ~~~setter.mask = before.header.flags &&& ~~~setter.mask ∧
    after.header = match setter with
      | .creditGrant credits =>
        { before.header with creditGrant := credits, flags := after.header.flags }
      | .correlationId id =>
        { before.header with correlationId := id, flags := after.header.flags }
      | .endOfStream | .clearEndOfStream => { before.header with flags := after.header.flags }

/-- A setter changes nothing but what it owns. -/
theorem set_owns (message : Message) (setter : Setter) : setter.Owns message (message.set setter) := by
  cases setter with
  | correlationId id => exact ⟨rfl, rfl, rfl⟩
  | endOfStream => exact ⟨rfl, or_and_not _ _, rfl⟩
  | clearEndOfStream => exact ⟨rfl, and_not_and_not _ _, rfl⟩
  | creditGrant credits =>
    refine ⟨rfl, ?_, rfl⟩
    by_cases positive : credits > 0
    · simpa [set, setCreditGrant, positive, Setter.mask] using or_and_not _ _
    · simpa [set, setCreditGrant, positive, Setter.mask] using and_not_and_not _ _

/-! ## The two flags the setters maintain -/

/-- The flag says that `credit_grant` is not zero exactly when it is not. -/
def CreditCoherent (message : Message) : Prop :=
  message.header.flags &&& flagHasCreditGrant ≠ 0 ↔ message.header.creditGrant ≠ 0

/-- What the last end-of-stream call says, or what was so before. -/
def endOfStreamAfter : Bool → List Setter → Bool
  | flag, [] => flag
  | _, .endOfStream :: setters => endOfStreamAfter true setters
  | _, .clearEndOfStream :: setters => endOfStreamAfter false setters
  | flag, .creditGrant _ :: setters | flag, .correlationId _ :: setters =>
    endOfStreamAfter flag setters

/-- Both flags say what they should after the setters, and no setter changed more than
it owns. -/
structure FlagsCoherent (origin : Message) (setters : List Setter) : Prop where
  credit : CreditCoherent (origin.setAll setters)
  endOfStream :
    (origin.setAll setters).isEndOfStream = endOfStreamAfter origin.isEndOfStream setters
  owns : ∀ before setter after, setters = before ++ setter :: after →
    setter.Owns (origin.setAll before) (origin.setAll (before ++ [setter]))

theorem creditCoherent_setCreditGrant (message : Message) (credits : UInt16) :
    (message.setCreditGrant credits).CreditCoherent := by
  by_cases positive : credits > 0
  · have nonzero : credits ≠ 0 := by
      rintro rfl
      exact absurd positive (by decide)
    have flag : flagHasCreditGrant ≠ 0 := by decide
    simp [CreditCoherent, setCreditGrant, positive, or_and_self, nonzero, flag]
  · have zero : credits = 0 := by
      apply UInt16.toNat_inj.mp
      have small : ¬ 0 < credits.toNat := fun more => positive (UInt16.lt_iff_toNat_lt.mpr more)
      simpa using small
    simp [CreditCoherent, setCreditGrant, zero, and_not_and_self]

/-- The other setters leave the relation between the flag and the field as it was. -/
theorem creditCoherent_set {message : Message} {setter : Setter}
    (other : ∀ credits, setter ≠ .creditGrant credits) :
    (message.set setter).CreditCoherent ↔ message.CreditCoherent := by
  obtain ⟨_, flags, header⟩ := set_owns message setter
  have disjoint : setter.mask &&& flagHasCreditGrant = 0 := by
    cases setter with
    | creditGrant credits => exact absurd rfl (other credits)
    | correlationId id =>
      show 0 &&& flagHasCreditGrant = 0
      decide
    | endOfStream => decide
    | clearEndOfStream => decide
  have field : (message.set setter).header.creditGrant = message.header.creditGrant := by
    cases setter with
    | creditGrant credits => exact absurd rfl (other credits)
    | correlationId id => rfl
    | endOfStream => rfl
    | clearEndOfStream => rfl
  rw [CreditCoherent, CreditCoherent, and_eq_of_and_not_eq flags disjoint, field]

theorem creditCoherent_setAll {origin : Message} {setters : List Setter} :
    (origin.setAll setters).CreditCoherent ↔
      origin.CreditCoherent ∨ ∃ credits, Setter.creditGrant credits ∈ setters := by
  induction setters generalizing origin with
  | nil => simp [setAll]
  | cons setter setters ih =>
    have rest : (setAll (origin.set setter) setters).CreditCoherent ↔
        (origin.set setter).CreditCoherent ∨ ∃ credits, Setter.creditGrant credits ∈ setters := ih
    by_cases grants : ∃ credits, setter = .creditGrant credits
    · obtain ⟨credits, rfl⟩ := grants
      have coherent := rest.mpr (.inl (creditCoherent_setCreditGrant origin credits))
      exact ⟨fun _ => .inr ⟨credits, List.mem_cons_self⟩, fun _ => coherent⟩
    · have other : ∀ credits, setter ≠ .creditGrant credits :=
        fun credits same => grants ⟨credits, same⟩
      rw [creditCoherent_set other] at rest
      show (setAll (origin.set setter) setters).CreditCoherent ↔ _
      rw [rest]
      have members : (∃ credits, Setter.creditGrant credits ∈ setter :: setters) ↔
          ∃ credits, Setter.creditGrant credits ∈ setters := by
        simp only [List.mem_cons]
        constructor
        · intro found
          obtain ⟨credits, same | member⟩ := found
          · exact absurd same.symm (other credits)
          · exact ⟨credits, member⟩
        · intro found
          obtain ⟨credits, member⟩ := found
          exact ⟨credits, .inr member⟩
      rw [members]

theorem isEndOfStream_set (message : Message) (setter : Setter) (setters : List Setter) :
    endOfStreamAfter message.isEndOfStream (setter :: setters) =
      endOfStreamAfter (message.set setter).isEndOfStream setters := by
  have flag : flagEndOfStream ≠ 0 := by decide
  cases setter with
  | correlationId id => rfl
  | endOfStream =>
    simp [endOfStreamAfter, set, setEndOfStream, isEndOfStream, or_and_self, flag]
  | clearEndOfStream =>
    simp [endOfStreamAfter, set, clearEndOfStream, isEndOfStream, and_not_and_self]
  | creditGrant credits =>
    obtain ⟨_, flags, _⟩ := set_owns message (.creditGrant credits)
    have disjoint : Setter.mask (.creditGrant credits) &&& flagEndOfStream = 0 := by
      show flagHasCreditGrant &&& flagEndOfStream = 0
      decide
    have same := and_eq_of_and_not_eq flags disjoint
    simp only [endOfStreamAfter, isEndOfStream, same]

theorem isEndOfStream_setAll (origin : Message) (setters : List Setter) :
    (origin.setAll setters).isEndOfStream = endOfStreamAfter origin.isEndOfStream setters := by
  induction setters generalizing origin with
  | nil => rfl
  | cons setter setters ih =>
    rw [isEndOfStream_set]
    exact ih (origin.set setter)

/-- Whatever message a program starts from and whatever setters it calls, the flags are
coherent exactly when the credit flag was coherent to begin with or the credit grant has
been set since. -/
theorem flagsCoherent_iff (origin : Message) (setters : List Setter) :
    FlagsCoherent origin setters ↔
      origin.CreditCoherent ∨ ∃ credits, Setter.creditGrant credits ∈ setters := by
  constructor
  · intro coherent
    exact creditCoherent_setAll.mp coherent.credit
  · intro condition
    refine ⟨creditCoherent_setAll.mpr condition, isEndOfStream_setAll origin setters, ?_⟩
    intro before setter after _
    rw [setAll, setAll, List.foldl_append]
    exact set_owns _ setter

/-- A header with a grant and no flag is accepted, so a message with it is produced. -/
theorem flagsCoherent_counterexample :
    ∃ origin : Message, Constructed origin ∧ ¬ FlagsCoherent origin [] := by
  let header : MessageHeader :=
    { magic := Laic.magic, version := Laic.version, msgType := 1, msgId := 1, correlationId := 0,
      payloadLen := 0, payloadFormat := 0, qos := 0, creditGrant := 5, flags := 0,
      reserved := #v[0, 0, 0, 0] }
  have accepted : fromParts header [] = .ok ⟨header, []⟩ :=
    fromParts_eq_ok.mpr ⟨rfl, ⟨rfl, rfl, ⟨.arrow, rfl⟩, ⟨.normal, rfl⟩⟩, rfl⟩
  refine ⟨⟨header, []⟩, .fromParts accepted, ?_⟩
  intro coherent
  have credit : ((0 : UInt32) &&& flagHasCreditGrant ≠ 0 ↔ (5 : UInt16) ≠ 0) := coherent.credit
  exact absurd (credit.mpr (by decide)) (by decide)

end Message

end Laic
