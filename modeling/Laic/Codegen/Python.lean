import Laic.Codegen.Literals
import Laic.Codegen.Metadata
import Laic.Codegen.Values
import Laic.Lib.IntegerText

/-! # The Python target

The data type and the schema field that the generator emits for a field, the column that
`to_ipc` builds and the value that `from_ipc` extracts from a batch of one row.  Columns
are read as dynamic objects, so most extractions never look at the column's type. -/

namespace Laic

open Arrow
open Except (ofOption)

/-! ## Types and schema fields -/

/-- `pa.list_` names its child `item`, `pa.map_` its children `key` and `value`; the item
and the value are nullable. -/
def pyarrowType : LaicType → DataType
  | .string => .scalar .utf8
  | .bytes => .scalar .binary
  | .bool => .scalar .boolean
  | .i8 => .scalar .int8
  | .i16 => .scalar .int16
  | .i32 => .scalar .int32
  | .i64 => .scalar .int64
  | .u8 => .scalar .uint8
  | .f32 => .scalar .float32
  | .f64 => .scalar .float64
  | .tensor _ _ => .scalar .binary
  | .list inner => .list "item" true (pyarrowType inner)
  | .optional inner => pyarrowType inner
  | .map key value =>
    .map ⟨"entries", "key", "value", false, true⟩ false (pyarrowType key) (pyarrowType value)

theorem erase_pyarrowType (ty : LaicType) : (pyarrowType ty).erase = ty.wireType := by
  induction ty with
  | string | bytes | bool | i8 | i16 | i32 | i64 | u8 | f32 | f64 | tensor => rfl
  | list inner ih => simp [pyarrowType, LaicType.wireType, DataType.erase, ih]
  | optional inner ih => exact ih
  | map key value ihKey ihValue =>
    simp [pyarrowType, LaicType.wireType, DataType.erase, ihKey, ihValue]

theorem pyarrowType_of_leaf {ty : LaicType} {scalar : Scalar}
    (leaf : ty.leafScalar = some scalar) : pyarrowType ty = .scalar scalar := by
  cases ty with
  | list | optional | map => cases leaf
  | string | bytes | bool | i8 | i16 | i32 | i64 | u8 | f32 | f64 | tensor =>
    cases leaf
    rfl

namespace PythonSerialize

def formatDimsAsShape (dims : List Dimension) : String := dimsAsShape dims

def emitTensorMetadata (dtype : TensorElementType) (dims : List Dimension) : List (String × String) :=
  tensorMetadata formatDimsAsShape dtype dims

end PythonSerialize

open PythonSerialize in
def pythonSchemaField (field : FieldDef) : Field :=
  match field.ty with
  | .tensor dtype dims => ⟨field.name, .scalar .binary, false, emitTensorMetadata dtype dims⟩
  | .optional (.tensor dtype dims) =>
    ⟨field.name, .scalar .binary, true, emitTensorMetadata dtype dims⟩
  | .list (.tensor dtype dims) =>
    ⟨field.name, .list "item" true (.scalar .binary), false, emitTensorMetadata dtype dims⟩
  | ty => ⟨field.name, pyarrowType ty, ty.isOptional, []⟩

/-! ## Serialization -/

variable [Libraries]

/-- The object that goes into the column: a map goes in as the list of its items. -/
def pydictValue : LaicType → PyValue → Option PyValue
  | .map _ _, .dict entries => some (.list (entries.map fun entry => .tuple [entry.1, entry.2]))
  | .map _ _, _ => none
  | _, value => some value

/-- The slot of a field; `none` where building it raises. -/
def pythonColumn (field : FieldDef) (value : PyValue) :
    Option (Slot (Cell (pythonSchemaField field).type)) := do
  let object ← pydictValue field.ty value
  pyBuild (pythonSchemaField field).type object

/-! ## Reading the shape text -/

/-- The numbers of the shape text; `none` where `int` raises. -/
def pythonParseShape (text : String) : Option (List Int) :=
  ((Text.splitOn ',' (Text.trimMatches (fun c => c == '[' || c == ']') text.toList)).filter
    fun part => !part.isEmpty).mapM Text.pythonInt

/-- The emitted check of one fixed dimension. -/
def pythonDimOk (expected : UInt64) (actual : Int) : Bool := actual == expected.toNat

/-! ## Deserialization -/

/-- `batch.column`, which raises on a name that stands twice. -/
def pythonBatchColumn (name : String) (batch : RecordBatch) : Except DecodeError Column :=
  match batch.columns.filter fun column => column.field.name == name with
  | [column] => .ok column
  | [] => .error (.missingColumn name)
  | _ => .error (.host name)

/-- Element 0 of a column. -/
def pythonElement (name : String) (column : Column) :
    Except DecodeError (Slot (Cell column.field.type)) := ofOption (.host name) column.slots.head?

/-- Element 0 of a column as an object. -/
def pythonElementObject (name : String) (column : Column) : Except DecodeError PyValue := do
  let slot ← pythonElement name column
  ofOption (.host name) (asPy column.field.type slot)

def pythonTensorCheck (name : String) (batch : RecordBatch) (dtype : TensorElementType)
    (dims : List Dimension) : Except DecodeError Unit := do
  let column ← pythonBatchColumn name batch
  checkTensorMetadata pythonParseShape pythonDimOk name column.field.metadata dtype dims

/-- A scalar, string or bytes field: the one extraction that compares types. -/
def pythonScalarExtraction (name : String) (ty : LaicType) (default : Option Literal)
    (batch : RecordBatch) : Except DecodeError PyValue :=
  match pythonBatchColumn name batch, default with
  | .error (.missingColumn _), some literal =>
    match pythonLiteral (literalToPython literal) with
    | some value => .ok value
    | none => .error .doesNotCompile
  | .error error, _ => .error error
  | .ok column, _ =>
    if column.field.type = pyarrowType ty then pythonElementObject name column
    else .error (.wrongType name)

def pythonTensorExtraction (name : String) (dtype : TensorElementType) (dims : List Dimension)
    (batch : RecordBatch) : Except DecodeError PyValue := do
  let column ← pythonBatchColumn name batch
  let value ← pythonElementObject name column
  pythonTensorCheck name batch dtype dims
  .ok value

def pythonListExtraction (name : String) (inner : LaicType) (batch : RecordBatch) :
    Except DecodeError PyValue :=
  match inner with
  | .tensor dtype dims => do
    pythonTensorCheck name batch dtype dims
    let column ← pythonBatchColumn name batch
    let slot ← pythonElement name column
    let items ← ofOption (.host name) (pyListValues column.field.type slot)
    .ok (.list items)
  | _ => do
    let column ← pythonBatchColumn name batch
    pythonElementObject name column

/-- A null element is `None`, whatever the column's type. -/
def pythonOptionalElement (name : String) (batch : RecordBatch) : Except DecodeError PyValue := do
  let column ← pythonBatchColumn name batch
  let slot ← pythonElement name column
  if pyIsValid column.field.type slot then ofOption (.host name) (asPy column.field.type slot)
  else .ok .none

def pythonOptionalExtraction (name : String) (inner : LaicType) (batch : RecordBatch) :
    Except DecodeError PyValue :=
  match inner with
  | .tensor dtype dims => do
    -- the metadata is checked whether the element is null or not
    pythonTensorCheck name batch dtype dims
    pythonOptionalElement name batch
  | _ => pythonOptionalElement name batch

def pythonMapExtraction (name : String) (batch : RecordBatch) : Except DecodeError PyValue := do
  let column ← pythonBatchColumn name batch
  let value ← pythonElementObject name column
  match value with
  | .none => .ok (.dict [])
  | value => ofOption (.host name) (pyDict value)

/-- What `from_ipc` extracts for a field. -/
def pythonFieldExtraction (field : FieldDef) (batch : RecordBatch) : Except DecodeError PyValue :=
  match field.ty with
  | .tensor dtype dims => pythonTensorExtraction field.name dtype dims batch
  | .list inner => pythonListExtraction field.name inner batch
  | .optional inner => pythonOptionalExtraction field.name inner batch
  | .map _ _ => pythonMapExtraction field.name batch
  | ty => pythonScalarExtraction field.name ty field.default batch

end Laic
