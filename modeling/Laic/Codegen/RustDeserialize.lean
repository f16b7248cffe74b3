import Laic.Codegen.Literals
import Laic.Codegen.RustSerialize

/-! # Deserialization in the Rust target

The extraction that the generator emits for a field, whether the emitted expression has
the type of the field, and what it does on a batch of one row.  The variables of the
template are taken as bound the way the template means them. -/

namespace Laic

open Arrow
open Except (ofOption)

/-! ## Extractions -/

/-- How a value read from an array is turned into an owned one. -/
inductive Conversion where
  | none | toString | toVec
  deriving DecidableEq

/-- The expression `typed.value(i)` on an array of a scalar, with its conversion. -/
structure ValueExpr where
  array : Scalar
  conversion : Conversion
  deriving DecidableEq

/-- The extraction of a field.  `default` is the text of the default, and a tensor's
metadata is checked where `tensor` is given. -/
inductive Extraction where
  | simple (value : ValueExpr) (expectedType : DataType) (default : Option (List Char))
  | tensor (dtype : TensorElementType) (dims : List Dimension)
  | list (tensor : Option (TensorElementType × List Dimension)) (item : ValueExpr)
  | listOptional (item : ValueExpr)
  | optional (tensor : Option (TensorElementType × List Dimension)) (inner : ValueExpr)
  | optionalList (item : ValueExpr)
  | map (key value : ValueExpr)

def primitiveValueConversion : LaicType → Conversion
  | .string => .toString
  | _ => .none

def listInnerConversion : LaicType → Conversion
  | .string => .toString
  | .bytes => .toVec
  | _ => .none

def mapValueConversion : LaicType → Conversion
  | .string => .toString
  | .bytes => .toVec
  | _ => .none

def emitListExtraction : LaicType → Except String Extraction
  | .string => .ok (.list none ⟨.utf8, .toString⟩)
  | .bytes => .ok (.list none ⟨.binary, .toVec⟩)
  | .bool => .ok (.list none ⟨.boolean, .none⟩)
  | .optional optInner => do
    let array ← arrowArrayType optInner
    .ok (.listOptional ⟨array, listInnerConversion optInner⟩)
  | .tensor dtype dims => .ok (.list (some (dtype, dims)) ⟨.binary, .toVec⟩)
  | inner => do
    let array ← arrowArrayType inner
    .ok (.list none ⟨array, listInnerConversion inner⟩)

def emitOptionalExtraction : LaicType → Except String Extraction
  | .string => .ok (.optional none ⟨.utf8, .toString⟩)
  | .bytes => .ok (.optional none ⟨.binary, .toVec⟩)
  | .bool => .ok (.optional none ⟨.boolean, .none⟩)
  | .tensor dtype dims => .ok (.optional (some (dtype, dims)) ⟨.binary, .toVec⟩)
  | .list listInner => do
    let array ← arrowArrayType listInner
    .ok (.optionalList ⟨array, listInnerConversion listInner⟩)
  | inner => do
    let array ← arrowArrayType inner
    .ok (.optional none ⟨array, primitiveValueConversion inner⟩)

def emitMapExtraction (key value : LaicType) : Except String Extraction := do
  let keyArray ← arrowArrayType key
  let valueArray ← arrowArrayType value
  .ok (.map ⟨keyArray, mapValueConversion key⟩ ⟨valueArray, mapValueConversion value⟩)

/-- The extraction of a scalar, string or bytes field. -/
def emitSimpleExtraction (value : ValueExpr) (ty : LaicType) (default : Option Literal) : Extraction :=
  .simple value (arrowDatatype ty) (default.map literalToRust)

def rustFieldExtraction (field : FieldDef) : Except String Extraction :=
  match field.ty with
  | .tensor dtype dims => .ok (.tensor dtype dims)
  | .bytes => .ok (emitSimpleExtraction ⟨.binary, .toVec⟩ .bytes field.default)
  | .list inner => emitListExtraction inner
  | .optional inner => emitOptionalExtraction inner
  | .map key value => emitMapExtraction key value
  | ty => do
    let array ← arrowArrayType ty
    .ok (emitSimpleExtraction ⟨array, primitiveValueConversion ty⟩ ty field.default)

/-! ## Types of the emitted expressions -/

/-- The type of a value expression: `value` borrows strings and bytes, and copies the rest. -/
def ValueExpr.type : ValueExpr → Option RustType
  | ⟨.utf8, .none⟩ => some (.borrowed .utf8)
  | ⟨.utf8, .toString⟩ => some (.owned .utf8)
  | ⟨.binary, .none⟩ => some (.borrowed .binary)
  | ⟨.binary, .toVec⟩ => some (.owned .binary)
  | ⟨.utf8, .toVec⟩ | ⟨.binary, .toString⟩ => none
  | ⟨scalar, .none⟩ => some (.owned scalar)
  | ⟨_, .toString⟩ => some (.owned .utf8)
  | ⟨_, .toVec⟩ => none

/-- The type of the extracted value. -/
def Extraction.type : Extraction → Option RustType
  | .simple value _ none => value.type
  | .simple value _ (some text) =>
    -- both arms of the match have one type
    match value.type with
    | some (.owned scalar) => if (rustLiteral scalar text).isSome then some (.owned scalar) else none
    | _ => none
  | .tensor _ _ => some (.owned .binary)
  | .list _ item => item.type.map .vec
  | .listOptional item => item.type.map fun type => .vec (.option type)
  | .optional _ inner => inner.type.map .option
  | .optionalList item => item.type.map fun type => .option (.vec type)
  | .map key value =>
    match key.type, value.type with
    | some keyType, some valueType => some (.hashMap keyType valueType)
    | _, _ => none

/-! ## Reading the shape text -/

/-- The parts of the shape text between its brackets that parse as `usize`. -/
def rustParseShape (text : String) : Option (List Nat) :=
  ((Text.splitOn ',' (Text.trimMatches (fun c => c == '[' || c == ']') text.toList)).filter
    fun part => !part.isEmpty).mapM fun part =>
      (Text.parseUnsigned (2 ^ 64) (Text.trim part)).toOption

/-- The emitted check of one fixed dimension. -/
def rustDimOk (expected : UInt64) (actual : Nat) : Bool := actual == expected.toNat

/-! ## What an extraction does -/

/-- The values of the slots, whether they are null or not. -/
def readValues (scalar : Scalar) (slots : List (Slot scalar.Value)) : List RustValue :=
  slots.map fun slot => .scalar scalar slot.value

/-- The values of the slots, with nothing for a null one. -/
def readOptionals (scalar : Scalar) (slots : List (Slot scalar.Value)) : List RustValue :=
  slots.map fun slot => .option (if slot.valid then some (.scalar scalar slot.value) else none)

/-- Inserting an entry into a hash map. -/
def hashInsert {α β : Type} [DecidableEq α] (entries : List (α × β)) (entry : α × β) :
    List (α × β) :=
  entries.filter (fun other => other.1 ≠ entry.1) ++ [entry]

instance (scalar : Scalar) : DecidableEq scalar.Value := by
  cases scalar <;> exact inferInstance

/-- The hash map filled from the key and the value arrays. -/
def readMap (key value : Scalar) (keys : List (Slot key.Value)) (values : List (Slot value.Value)) :
    RustValue :=
  let entries := (keys.zip values).map fun entry => (entry.1.value, entry.2.value)
  .map ((entries.foldl hashInsert []).map fun entry =>
    (.scalar key entry.1, .scalar value entry.2))

/-- The metadata check of a field, which looks the field up first. -/
def rustTensorCheck (name : String) (batch : RecordBatch) (dtype : TensorElementType)
    (dims : List Dimension) : Except DecodeError Unit :=
  match batch.column? name with
  | none => .error (.missingColumn name)
  | some column =>
    checkTensorMetadata rustParseShape rustDimOk name column.field.metadata dtype dims

def rustTensorCheck? (name : String) (batch : RecordBatch) :
    Option (TensorElementType × List Dimension) → Except DecodeError Unit
  | none => .ok ()
  | some (dtype, dims) => rustTensorCheck name batch dtype dims

variable [Libraries]

/-- Row 0 of a list array. -/
def listValue (name : String) (array : DynArray) : Except DecodeError DynArray := do
  let lists ← ofOption (.wrongType name) (downcastList array)
  ofOption (.wrongType name) lists.head?

/-- What the extraction of a field does on a batch that has one row. -/
def Extraction.run (name : String) (batch : RecordBatch) : Extraction → Except DecodeError RustValue
  | .simple value expectedType default =>
    match batch.column? name with
    | some column => do
      Except.ensure (column.field.type = expectedType) (.wrongType name)
      let slots ← ofOption (.wrongType name) (downcastScalar value.array column.array)
      let slot ← ofOption (.wrongType name) slots.head?
      .ok (.scalar value.array slot.value)
    | none =>
      match default with
      | none => .error (.missingColumn name)
      | some text =>
        match rustLiteral value.array text with
        | some denoted => .ok (.scalar value.array denoted)
        | none => .error .doesNotCompile
  | .tensor dtype dims => do
    rustTensorCheck name batch dtype dims
    let column ← ofOption (.wrongType name) (batch.column? name)
    let slots ← ofOption (.wrongType name) (downcastScalar .binary column.array)
    let slot ← ofOption (.wrongType name) slots.head?
    .ok (.scalar .binary slot.value)
  | .list metadata item => do
    let column ← ofOption (.wrongType name) (batch.column? name)
    let inner ← listValue name column.array
    rustTensorCheck? name batch metadata
    let slots ← ofOption (.wrongType name) (downcastScalar item.array inner)
    .ok (.vec (readValues item.array slots))
  | .listOptional item => do
    let column ← ofOption (.wrongType name) (batch.column? name)
    let inner ← listValue name column.array
    let slots ← ofOption (.wrongType name) (downcastScalar item.array inner)
    .ok (.vec (readOptionals item.array slots))
  | .optional metadata inner =>
    match batch.column? name with
    | none => .error (.missingColumn name)
    | some column => do
      rustTensorCheck? name batch metadata
      if column.array.isNull then .ok (.option none)
      else do
        let slots ← ofOption (.wrongType name) (downcastScalar inner.array column.array)
        let slot ← ofOption (.wrongType name) slots.head?
        .ok (.option (some (.scalar inner.array slot.value)))
  | .optionalList item =>
    match batch.column? name with
    | none => .error (.missingColumn name)
    | some column =>
      if column.array.isNull then .ok (.option none)
      else do
        let list ← listValue name column.array
        let slots ← ofOption (.wrongType name) (downcastScalar item.array list)
        .ok (.option (some (.vec (readValues item.array slots))))
  | .map key value => do
    let column ← ofOption (.wrongType name) (batch.column? name)
    let maps ← ofOption (.wrongType name) (downcastMap column.array)
    let entries ← ofOption (.wrongType name) maps.head?
    let keys ← ofOption (.wrongType name) (downcastScalar key.array entries.1)
    let values ← ofOption (.wrongType name) (downcastScalar value.array entries.2)
    .ok (readMap key.array value.array keys values)

end Laic
