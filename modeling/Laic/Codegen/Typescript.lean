import Laic.Codegen.Literals
import Laic.Codegen.Metadata
import Laic.Codegen.Values
import Laic.Lib.IntegerText

/-! # The TypeScript target

The data type and the schema field that the generator emits for a field, the column that
`toIpc` builds and the value that `fromIpc` extracts from a batch of one row.  The casts
of the emitted code check nothing when it runs; types are compared as text, and for
scalars only. -/

namespace Laic

open Arrow
open Except (ofOption)

/-! ## Types and schema fields -/

/-- A type text that an array type takes in angle brackets. -/
def bracketed (text : String) : Bool := text.toList.any fun c => c == '|' || c == '<'

/-- The text of the type in annotations and casts. -/
def tsType : LaicType → String
  | .string => "string"
  | .bytes | .tensor _ _ => "Uint8Array"
  | .bool => "boolean"
  | .i8 | .i16 | .i32 | .u8 | .f32 | .f64 => "number"
  | .i64 => "bigint"
  | .list inner =>
    let inner := tsType inner
    if bracketed inner then "Array<" ++ inner ++ ">" else inner ++ "[]"
  | .optional inner => tsType inner ++ " | null"
  | .map key value => "Map<" ++ tsType key ++ ", " ++ tsType value ++ ">"

/-- An item is nullable where its type is optional; keys and values of maps never are. -/
def tsArrowDatatype : LaicType → DataType
  | .string => .scalar .utf8
  | .bytes | .tensor _ _ => .scalar .binary
  | .bool => .scalar .boolean
  | .i8 => .scalar .int8
  | .i16 => .scalar .int16
  | .i32 => .scalar .int32
  | .i64 => .scalar .int64
  | .u8 => .scalar .uint8
  | .f32 => .scalar .float32
  | .f64 => .scalar .float64
  | .list inner => .list "item" inner.isOptional (tsArrowDatatype inner)
  | .optional inner => tsArrowDatatype inner
  | .map key value =>
    .map ⟨"entries", "key", "value", false, false⟩ false (tsArrowDatatype key) (tsArrowDatatype value)

theorem erase_tsArrowDatatype (ty : LaicType) : (tsArrowDatatype ty).erase = ty.wireType := by
  induction ty with
  | string | bytes | bool | i8 | i16 | i32 | i64 | u8 | f32 | f64 | tensor => rfl
  | list inner ih => simp [tsArrowDatatype, LaicType.wireType, DataType.erase, ih]
  | optional inner ih => exact ih
  | map key value ihKey ihValue =>
    simp [tsArrowDatatype, LaicType.wireType, DataType.erase, ihKey, ihValue]

theorem tsArrowDatatype_of_leaf {ty : LaicType} {scalar : Scalar}
    (leaf : ty.leafScalar = some scalar) : tsArrowDatatype ty = .scalar scalar := by
  cases ty with
  | list | optional | map => cases leaf
  | string | bytes | bool | i8 | i16 | i32 | i64 | u8 | f32 | f64 | tensor =>
    cases leaf
    rfl

def formatTsDims (dims : List Dimension) : String := dimsAsShape dims

def emitTensorSchemaField (name : String) (type : DataType) (nullable : Bool) (dtype : TensorElementType)
    (dims : List Dimension) : Field :=
  ⟨name, type, nullable, tensorMetadata formatTsDims dtype dims⟩

def tsSchemaField (field : FieldDef) : Field :=
  match field.ty with
  | .tensor dtype dims => emitTensorSchemaField field.name (.scalar .binary) false dtype dims
  | .list (.tensor dtype dims) =>
    emitTensorSchemaField field.name (.list "item" false (.scalar .binary)) false dtype dims
  | .optional (.tensor dtype dims) =>
    emitTensorSchemaField field.name (.scalar .binary) true dtype dims
  | ty => ⟨field.name, tsArrowDatatype ty, ty.isOptional, []⟩

/-! ## Serialization -/

variable [Libraries]

/-- The slot of a field; `none` where building it throws. -/
def tsColumn (field : FieldDef) (value : JsValue) : Option (Slot (Cell (tsSchemaField field).type)) :=
  jsBuild (tsSchemaField field).type value

/-! ## Reading the shape text -/

/-- The numbers of the shape text; `none` where one of them is NaN. -/
def laicParseTensorShape (text : String) : Option (List F64) :=
  let body := Text.trimMatches Text.isJavascriptSpace <| Text.sliceInner <|
    Text.trimMatches Text.isJavascriptSpace (Text.codeUnits text.toList)
  if body = [] then some []
  else (Text.splitOn ',' body).mapM fun part =>
    Text.parseIntPrefix (Text.trimMatches Text.isJavascriptSpace part)

/-- The comparison with one expected dimension, a number of the language; zero matches all. -/
def tsDimOk (expected : UInt64) (actual : F64) : Bool :=
  let expectedDim : F64 := .ofInt .binary64 expected.toNat
  expectedDim.numericEq (.ofInt .binary64 0) || actual.numericEq expectedDim

/-! ## Deserialization -/

/-- `column.get(0)`. -/
def tsGet (name : String) (column : Column) : Except DecodeError JsValue := do
  let slot ← ofOption (.host name) column.slots.head?
  ofOption (.host name) (jsGet column.field.type slot)

/-- The metadata assertion on the first field of that name. -/
def laicAssertTensorMetadata (name : String) (batch : RecordBatch) (dtype : TensorElementType)
    (dims : List Dimension) : Except DecodeError Unit := do
  let column ← ofOption (.host name) (batch.column? name)
  checkTensorMetadata laicParseTensorShape tsDimOk name column.field.metadata dtype dims

/-- The type assertion compares what the types print as. -/
def laicAssertFieldType (name : String) (field : Field) (expectedType : DataType) :
    Except DecodeError Unit :=
  Except.ensure (jsRendering field.type = jsRendering expectedType) (.wrongType name)

/-- A scalar, string or bytes field. -/
def tsScalarExtraction (name : String) (ty : LaicType) (default : Option Literal)
    (batch : RecordBatch) : Except DecodeError JsValue :=
  match batch.column? name, default with
  | none, none => .error (.missingColumn name)
  | none, some literal =>
    match javascriptLiteral (literalToTs literal ty) with
    | some value => .ok value
    | none => .error .doesNotCompile
  | some column, _ => do
    laicAssertFieldType name column.field (tsArrowDatatype ty)
    tsGet name column

def tsTensorExtraction (name : String) (dtype : TensorElementType) (dims : List Dimension)
    (batch : RecordBatch) : Except DecodeError JsValue := do
  laicAssertTensorMetadata name batch dtype dims
  let column ← ofOption (.host name) (batch.column? name)
  tsGet name column

/-- The items of element 0, copied into an array. -/
def tsListElement (name : String) (batch : RecordBatch) : Except DecodeError JsValue := do
  let column ← ofOption (.host name) (batch.column? name)
  let value ← tsGet name column
  ofOption (.host name) (jsArrayFrom value)

def tsListExtraction (name : String) (inner : LaicType) (batch : RecordBatch) :
    Except DecodeError JsValue :=
  match inner with
  | .tensor dtype dims => do
    laicAssertTensorMetadata name batch dtype dims
    tsListElement name batch
  | _ => tsListElement name batch

/-- A null element is `null`, whatever the column's type. -/
def tsOptionalElement (name : String) (batch : RecordBatch) : Except DecodeError JsValue := do
  let column ← ofOption (.host name) (batch.column? name)
  let slot ← ofOption (.host name) column.slots.head?
  if jsIsValid column.field.type slot then ofOption (.host name) (jsGet column.field.type slot)
  else .ok .null

def tsOptionalExtraction (name : String) (inner : LaicType) (batch : RecordBatch) :
    Except DecodeError JsValue :=
  match inner with
  | .tensor dtype dims => do
    -- the metadata is checked whether the element is null or not
    laicAssertTensorMetadata name batch dtype dims
    tsOptionalElement name batch
  | _ => tsOptionalElement name batch

def tsMapExtraction (name : String) (batch : RecordBatch) : Except DecodeError JsValue := do
  let column ← ofOption (.host name) (batch.column? name)
  tsGet name column

/-- What `fromIpc` extracts for a field. -/
def tsFieldExtraction (field : FieldDef) (batch : RecordBatch) : Except DecodeError JsValue :=
  match field.ty with
  | .tensor dtype dims => tsTensorExtraction field.name dtype dims batch
  | .list inner => tsListExtraction field.name inner batch
  | .optional inner => tsOptionalExtraction field.name inner batch
  | .map _ _ => tsMapExtraction field.name batch
  | ty => tsScalarExtraction field.name ty field.default batch

end Laic
