/-! # The protobuf wire format

Varints, and messages as sequences of numbered fields with a varint or a
length-delimited value.  Encoded fields decode to themselves (`decode_encode`); what a
message type makes of its fields is up to its user.  Fields of the fixed-width and
group wire types are not decoded. -/

namespace ProtoWire

/-- Seven bits a byte, least significant first; the high bit marks that more follow. -/
def encodeVarint (n : Nat) : List UInt8 :=
  if n < 128 then [UInt8.ofNat n] else UInt8.ofNat (n % 128 + 128) :: encodeVarint (n / 128)

def decodeVarint : List UInt8 → Option (Nat × List UInt8)
  | [] => none
  | byte :: rest =>
    if byte.toNat < 128 then
      some (byte.toNat, rest)
    else
      (decodeVarint rest).map fun (high, rest) => (byte.toNat - 128 + 128 * high, rest)

theorem decodeVarint_encodeVarint (n : Nat) (rest : List UInt8) :
    decodeVarint (encodeVarint n ++ rest) = some (n, rest) := by
  induction n using Nat.strongRecOn with
  | ind n ih =>
    rw [encodeVarint]
    split
    case isTrue small =>
      have byte : (UInt8.ofNat n).toNat = n := UInt8.toNat_ofNat_of_lt' (Nat.lt_trans small (by decide))
      simp [decodeVarint, byte, small]
    case isFalse big =>
      have byte : (UInt8.ofNat (n % 128 + 128)).toNat = n % 128 + 128 :=
        UInt8.toNat_ofNat_of_lt' (show n % 128 + 128 < 256 by omega)
      have continued : ¬ n % 128 + 128 < 128 := by omega
      rw [List.cons_append, decodeVarint, byte, if_neg continued, ih (n / 128) (by omega)]
      simp only [Option.map_some, Option.some.injEq, Prod.mk.injEq, and_true]
      omega

theorem encodeVarint_ne_nil (n : Nat) : encodeVarint n ≠ [] := by
  rw [encodeVarint]
  split <;> simp

inductive Value where
  | varint (n : Nat)
  | bytes (content : List UInt8)
  deriving DecidableEq, Repr

structure Field where
  number : Nat
  value : Value
  deriving DecidableEq, Repr

/-- The key, which is the field number and the wire type, and the value. -/
def Field.encode (field : Field) : List UInt8 :=
  match field.value with
  | .varint n => encodeVarint (8 * field.number) ++ encodeVarint n
  | .bytes content =>
    encodeVarint (8 * field.number + 2) ++ encodeVarint content.length ++ content

def decodeField (bytes : List UInt8) : Option (Field × List UInt8) :=
  (decodeVarint bytes).bind fun (key, rest) =>
    match key % 8 with
    | 0 => (decodeVarint rest).map fun (n, rest) => (⟨key / 8, .varint n⟩, rest)
    | 2 =>
      (decodeVarint rest).bind fun (length, rest) =>
        if length ≤ rest.length then
          some (⟨key / 8, .bytes (rest.take length)⟩, rest.drop length)
        else
          none
    | _ => none

/-- The fields of a message; `fuel` bounds their number. -/
def decodeFields : Nat → List UInt8 → Option (List Field)
  | _, [] => some []
  | 0, _ :: _ => none
  | fuel + 1, byte :: bytes =>
    (decodeField (byte :: bytes)).bind fun (field, rest) =>
      (decodeFields fuel rest).map (field :: ·)

def encode (fields : List Field) : List UInt8 := fields.flatMap Field.encode

/-- Every field takes at least one byte, so the length of the input is fuel enough. -/
def decode (bytes : List UInt8) : Option (List Field) := decodeFields bytes.length bytes

theorem decodeField_encode (field : Field) (rest : List UInt8) :
    decodeField (field.encode ++ rest) = some (field, rest) := by
  obtain ⟨number, value⟩ := field
  cases value with
  | varint n =>
    have wireType : 8 * number % 8 = 0 := by omega
    have number' : 8 * number / 8 = number := by omega
    simp [decodeField, Field.encode, decodeVarint_encodeVarint, wireType, number']
  | bytes content =>
    have wireType : (8 * number + 2) % 8 = 2 := by omega
    have number' : (8 * number + 2) / 8 = number := by omega
    simp [decodeField, Field.encode, decodeVarint_encodeVarint, wireType, number']

theorem Field.encode_ne_nil (field : Field) : field.encode ≠ [] := by
  obtain ⟨number, value⟩ := field
  cases value <;> simp [Field.encode, encodeVarint_ne_nil]

theorem decodeFields_encode {fields : List Field} {fuel : Nat} (enough : fields.length ≤ fuel) :
    decodeFields fuel (encode fields) = some fields := by
  induction fields generalizing fuel with
  | nil => cases fuel <;> rfl
  | cons field fields ih =>
    obtain ⟨fuel, rfl⟩ : ∃ more, fuel = more + 1 := ⟨fuel - 1, by rw [List.length_cons] at enough; omega⟩
    obtain ⟨byte, bytes, encoded⟩ := List.exists_cons_of_ne_nil (Field.encode_ne_nil field)
    have decoded := decodeField_encode field (encode fields)
    rw [encoded] at decoded
    have rest := ih (Nat.le_of_succ_le_succ enough)
    rw [encode, List.flatMap_cons, encoded, List.cons_append, decodeFields,
      ← List.cons_append, ← encode, decoded]
    simp [rest]

theorem length_le_encode (fields : List Field) : fields.length ≤ (encode fields).length := by
  induction fields with
  | nil => exact Nat.le_refl 0
  | cons field fields ih =>
    have positive := List.length_pos_iff.mpr (Field.encode_ne_nil field)
    simp only [encode, List.flatMap_cons, List.length_append, List.length_cons] at ih ⊢
    omega

theorem decode_encode (fields : List Field) : decode (encode fields) = some fields :=
  decodeFields_encode (length_le_encode fields)

/-! ## Proto3 field presence

A field that holds its type's default is left out; an `optional` field is left out only
when it is absent. -/

def uint32Field (number : Nat) (value : UInt32) : List Field :=
  if value = 0 then [] else [⟨number, .varint value.toNat⟩]

def bytesField (number : Nat) (content : List UInt8) : List Field :=
  if content = [] then [] else [⟨number, .bytes content⟩]

def utf8 (text : String) : List UInt8 := text.toUTF8.data.toList

def fromUtf8 (content : List UInt8) : Option String := String.fromUTF8? ⟨content.toArray⟩

def stringField (number : Nat) (text : String) : List Field := bytesField number (utf8 text)

def optionalStringField (number : Nat) (text : Option String) : List Field :=
  text.toList.map fun text => ⟨number, .bytes (utf8 text)⟩

theorem fromUtf8_utf8 (text : String) : fromUtf8 (utf8 text) = some text := by
  simp [fromUtf8, utf8, String.fromUTF8?, String.fromUTF8, text.isValidUTF8]

theorem utf8_eq_nil {text : String} (empty : utf8 text = []) : text = "" := by
  have same := fromUtf8_utf8 text
  rw [empty, show ([] : List UInt8) = utf8 "" from rfl, fromUtf8_utf8] at same
  exact (Option.some.inj same).symm

/-! ## Lengths -/

theorem encodeVarint_length_le (n : Nat) : (encodeVarint n).length ≤ n / 128 + 1 := by
  induction n using Nat.strongRecOn with
  | ind n ih =>
    rw [encodeVarint]
    split
    · simp
    · have shorter := ih (n / 128) (by omega)
      rw [List.length_cons]
      omega

@[simp] theorem encode_append (fields fields' : List Field) :
    encode (fields ++ fields') = encode fields ++ encode fields' := List.flatMap_append

theorem encode_uint32Field_length_le (number : Nat) (value : UInt32) :
    (encode (uint32Field number value)).length ≤ 8 * number / 128 + value.toNat / 128 + 2 := by
  have key := encodeVarint_length_le (8 * number)
  have content := encodeVarint_length_le value.toNat
  unfold uint32Field
  split
  · simp [encode]
  · simp [encode, Field.encode]
    omega

theorem Field.encode_bytes_length_le (number : Nat) (content : List UInt8) :
    (Field.encode ⟨number, .bytes content⟩).length ≤
      (8 * number + 2) / 128 + content.length / 128 + content.length + 2 := by
  have key := encodeVarint_length_le (8 * number + 2)
  have length := encodeVarint_length_le content.length
  simp only [Field.encode, List.length_append]
  omega

theorem encode_bytesField_length_le (number : Nat) (content : List UInt8) :
    (encode (bytesField number content)).length ≤
      (8 * number + 2) / 128 + content.length / 128 + content.length + 2 := by
  unfold bytesField
  split
  · simp [encode]
  · simpa [encode] using Field.encode_bytes_length_le number content

theorem encode_optionalStringField_length_le (number : Nat) (text : Option String) (limit : Nat)
    (short : ∀ value, text = some value → (utf8 value).length ≤ limit) :
    (encode (optionalStringField number text)).length ≤
      (8 * number + 2) / 128 + limit / 128 + limit + 2 := by
  cases text with
  | none => simp [encode, optionalStringField]
  | some value =>
    have bound := Field.encode_bytes_length_le number (utf8 value)
    have value_le := short value rfl
    have quotient := Nat.div_le_div_right (c := 128) value_le
    simp only [encode, optionalStringField, Option.toList_some, List.map_cons, List.map_nil,
      List.flatMap_cons, List.flatMap_nil, List.append_nil]
    omega

end ProtoWire
