import Laic.Codegen.Python
import Laic.Codegen.RustDeserialize
import Laic.Codegen.Typescript

/-! # Generated contracts

What the code generated for one struct does in each target: an encoder from the values of
the fields to a stream, and a decoder that checks cardinality, then the schema metadata,
then each field.  The emitted methods are taken with their own names resolved: `batch` is the
batch that was read and `pa` the library, whatever the fields and the types of the file are
called.  What a name can capture is the subject of `Codegen.Hygiene`. -/

namespace Laic

open Arrow
open Except (ensure ofOption)

/-! ## Encoders and decoders -/

/-- The code of one struct.  `check` is the part of the decoder in front of the fields, and
`extract` reads the fields of the batch. -/
structure Contract (host : Type) where
  encode : (String → host) → Option Stream
  check : Stream → Except DecodeError RecordBatch
  extract : RecordBatch → Except DecodeError (List (String × host))

def Contract.decode {host : Type} (contract : Contract host) (stream : Stream) :
    Except DecodeError (List (String × host)) := do
  let batch ← contract.check stream
  contract.extract batch

/-- The stream of one row, from the entries of the fields. -/
def encodeFields {host : Type} (entry : FieldDef → host → Option Entry)
    (metadata : List (String × String)) (fields : List FieldDef) (record : String → host) :
    Option Stream := do
  let entries ← fields.mapM fun field => entry field (record field.name)
  some (Stream.ofRow metadata entries)

/-- The values of the fields in order. -/
def extractFields {host : Type} (value : FieldDef → RecordBatch → Except DecodeError host)
    (fields : List FieldDef) (batch : RecordBatch) : Except DecodeError (List (String × host)) :=
  fields.mapM fun field => do
    let object ← value field batch
    .ok (field.name, object)

/-- The one batch of a stream that is read batch by batch; `empty` where there is none. -/
def singleBatch (empty : DecodeError) (stream : Stream) : Except DecodeError RecordBatch :=
  match stream.batches with
  | [] => .error empty
  | batch :: trailing => do
    ensure (batch.numRows ≠ 0) (.cardinality 0)
    ensure (batch.numRows ≤ 1) (.cardinality batch.numRows)
    ensure (trailing = []) .trailingBatch
    .ok batch

/-! ## Rust -/

/-- The columns and the extractions of a struct, which are generated in this order; the
generator stops at the first type it cannot name. -/
structure RustStruct where
  columns : List (FieldDef × ColumnExpr)
  extractions : List (FieldDef × Extraction)

def generateStruct (structDef : StructDef) : Except String RustStruct := do
  let columns ← structDef.fields.mapM fun field => do
    let expr ← emitToArrowColumn field.ty
    .ok (field, expr)
  let extractions ← structDef.fields.mapM fun field => do
    let extraction ← rustFieldExtraction field
    .ok (field, extraction)
  .ok ⟨columns, extractions⟩

/-- Whether the generated code of a struct compiles. -/
def RustStruct.typeChecks (code : RustStruct) : Bool :=
  (code.columns.all fun column => column.2.accepts (rustType column.1.ty)) &&
    code.extractions.all fun extraction => extraction.2.type == some (rustType extraction.1.ty)

/-- The entry of a field; `RecordBatch::try_new` rejects a column of another type and a
null in a field that is not nullable. -/
def rustEntry (column : FieldDef × ColumnExpr) (value : RustValue) : Option Entry := do
  let slot ← column.2.build value
  let entry ← Entry.ofSlot (rustSchemaField column.1) column.2.dataType slot
  if entry.slot.valid || entry.field.nullable then some entry else none

variable [Libraries]

def RustStruct.contract (code : RustStruct) (metadata : List (String × String)) :
    Contract RustValue where
  encode record := do
    let entries ← code.columns.mapM fun column => rustEntry column (record column.1.name)
    some (Stream.ofRow metadata entries)
  check stream := do
    let batch ← singleBatch .emptyStream stream
    validateMetadata stream.metadata metadata
    .ok batch
  extract batch := code.extractions.mapM fun extraction => do
    let value ← extraction.2.run extraction.1.name batch
    .ok (extraction.1.name, value)

/-- The structs that generation makes for a file. -/
def generateRust (file : LaicFile) : Except String (List RustStruct) :=
  file.structs.mapM fun entry => generateStruct entry.2.2

/-! ## Python -/

def pythonEntry (field : FieldDef) (value : PyValue) : Option Entry := do
  let slot ← pythonColumn field value
  some ⟨pythonSchemaField field, slot⟩

/-- Reading a batch of an empty stream raises `StopIteration`. -/
def pythonContract (structDef : StructDef) (metadata : List (String × String)) :
    Contract PyValue where
  encode := encodeFields pythonEntry metadata structDef.fields
  check stream := do
    let batch ← singleBatch (.host "read_next_batch") stream
    validateMetadata stream.metadata metadata
    .ok batch
  extract := extractFields pythonFieldExtraction structDef.fields

/-! ## TypeScript -/

def tsEntry (field : FieldDef) (value : JsValue) : Option Entry := do
  let slot ← tsColumn field value
  some ⟨tsSchemaField field, slot⟩

/-- The rows of a table are counted over all batches before the batches are. -/
def tsSingleBatch (stream : Stream) : Except DecodeError RecordBatch := do
  let numRows := stream.batches.foldl (fun rows batch => rows + batch.numRows) 0
  ensure (numRows ≠ 0) (.cardinality 0)
  ensure (numRows ≤ 1) (.cardinality numRows)
  ensure (stream.batches.length ≤ 1) .trailingBatch
  ofOption (.host "batches") stream.batches.head?

def typescriptContract (structDef : StructDef) (metadata : List (String × String)) :
    Contract JsValue where
  encode := encodeFields tsEntry metadata structDef.fields
  check stream := do
    let batch ← tsSingleBatch stream
    validateMetadata stream.metadata metadata
    .ok batch
  extract := extractFields tsFieldExtraction structDef.fields

/-! ## All targets -/

inductive Target where
  | rust | python | typescript
  deriving DecidableEq, Repr

/-- The objects of a target's language. -/
abbrev Target.Host : Target → Type
  | .rust => RustValue
  | .python => PyValue
  | .typescript => JsValue

/-- The contract generated for a struct of a file. -/
def Target.generate (target : Target) (version : String) (entry : SkillDef × String × StructDef) :
    Except String (Contract target.Host) :=
  let metadata := schemaMetadata entry.1.id version entry.2.1
  match target with
  | .rust => do
    let code ← generateStruct entry.2.2
    .ok (code.contract metadata)
  | .python => .ok (pythonContract entry.2.2 metadata)
  | .typescript => .ok (typescriptContract entry.2.2 metadata)

end Laic
