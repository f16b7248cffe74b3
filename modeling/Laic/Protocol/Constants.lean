import Laic.Error

/-! # Protocol constants, closed-set codes and flag bits -/

namespace Laic

/-- `MAGIC`: "LAIC" in ASCII. -/
def magic : UInt32 := 0x4C414943

/-- `VERSION`: major 0, minor 1. -/
def version : UInt16 := 0x0001

/-- `HEADER_SIZE`. -/
def headerSize : Nat := 40

/-- Payload serialisation format. -/
inductive PayloadFormat where
  | arrow
  | protobuf
  | raw
  deriving DecidableEq, Repr

/-- The `as u8` cast of the `repr(u8)` enum. -/
def PayloadFormat.asU8 : PayloadFormat → UInt8
  | .arrow => 0
  | .protobuf => 1
  | .raw => 2

def PayloadFormat.fromU8 (value : UInt8) : Except ProtocolError PayloadFormat :=
  if value = 0 then .ok .arrow
  else if value = 1 then .ok .protobuf
  else if value = 2 then .ok .raw
  else .error (.invalidPayloadFormat value)

/-- Quality-of-service priority level. -/
inductive Qos where
  | normal
  | high
  | emergency
  deriving DecidableEq, Repr

/-- The `as u8` cast of the `repr(u8)` enum. -/
def Qos.asU8 : Qos → UInt8
  | .normal => 0
  | .high => 1
  | .emergency => 2

def Qos.fromU8 (value : UInt8) : Except ProtocolError Qos :=
  if value = 0 then .ok .normal
  else if value = 1 then .ok .high
  else if value = 2 then .ok .emergency
  else .error (.invalidQos value)

@[simp] theorem PayloadFormat.fromU8_asU8 (format : PayloadFormat) :
    PayloadFormat.fromU8 format.asU8 = .ok format := by
  cases format <;> rfl

@[simp] theorem Qos.fromU8_asU8 (qos : Qos) : Qos.fromU8 qos.asU8 = .ok qos := by
  cases qos <;> rfl

/-- A byte is accepted as a payload format exactly when it is the code of one. -/
theorem PayloadFormat.fromU8_eq_ok {value : UInt8} {format : PayloadFormat} :
    PayloadFormat.fromU8 value = .ok format ↔ value = format.asU8 := by
  constructor
  · intro accepted
    unfold PayloadFormat.fromU8 at accepted
    split at accepted
    · cases accepted; assumption
    · split at accepted
      · cases accepted; assumption
      · split at accepted
        · cases accepted; assumption
        · cases accepted
  · rintro rfl
    exact fromU8_asU8 format

/-- A byte is accepted as a QoS level exactly when it is the code of one. -/
theorem Qos.fromU8_eq_ok {value : UInt8} {qos : Qos} :
    Qos.fromU8 value = .ok qos ↔ value = qos.asU8 := by
  constructor
  · intro accepted
    unfold Qos.fromU8 at accepted
    split at accepted
    · cases accepted; assumption
    · split at accepted
      · cases accepted; assumption
      · split at accepted
        · cases accepted; assumption
        · cases accepted
  · rintro rfl
    exact fromU8_asU8 qos

/-- Message type: an open set, so a newtype over `u16`. -/
structure MsgType where
  asU16 : UInt16
  deriving DecidableEq, Repr

def MsgType.data : MsgType := ⟨0x0001⟩
def MsgType.control : MsgType := ⟨0x0002⟩

/-! ## Header flags -/

/-- `FLAG_END_OF_STREAM`: marks the final chunk of a stream. -/
def flagEndOfStream : UInt32 := (1 : UInt32) <<< 3

/-- `FLAG_HAS_CREDIT_GRANT`: the `credit_grant` field carries a non-zero value. -/
def flagHasCreditGrant : UInt32 := (1 : UInt32) <<< 4

end Laic
