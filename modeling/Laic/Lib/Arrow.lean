import Laic.Lib.FloatFormat

/-! # Arrow record batches and the libraries that read them

Data types, columns whose slots have the type their field declares, record batches and
streams, and the dynamic values that Python and JavaScript programs read from them.  A
null slot still holds a physical value: a reader that does not ask for validity sees it. -/

namespace Arrow

/-! ## Values of the host languages -/

/-- A Python object, as far as a column can hold it. -/
inductive PyValue where
  | none
  | bool (value : Bool)
  | int (value : Int)
  | float (value : FloatValue .binary64)
  | str (value : String)
  | bytes (value : List UInt8)
  | list (items : List PyValue)
  | tuple (items : List PyValue)
  | dict (entries : List (PyValue × PyValue))
  | object (id : Nat)

/-- A JavaScript value, as far as a column can hold it.  Arrow JS reads lists as its own
vectors and maps as its own rows. -/
inductive JsValue where
  | null
  | boolean (value : Bool)
  | number (value : FloatValue .binary64)
  | bigint (value : Int)
  | string (value : String)
  | uint8Array (value : List UInt8)
  | array (items : List JsValue)
  | vector (items : List JsValue)
  | map (entries : List (JsValue × JsValue))
  | mapRow (entries : List (JsValue × JsValue))
  | object (id : Nat)

/-! ## Data types -/

/-- The types of single values. -/
inductive Scalar where
  | boolean | int8 | int16 | int32 | int64 | uint8 | float32 | float64 | utf8 | binary
  deriving DecidableEq, Repr

namespace Scalar

/-- The values of a scalar type. -/
@[reducible] def Value : Scalar → Type
  | .boolean => Bool
  | .int8 => Int8
  | .int16 => Int16
  | .int32 => Int32
  | .int64 => Int64
  | .uint8 => UInt8
  | .float32 => FloatValue .binary32
  | .float64 => FloatValue .binary64
  | .utf8 => String
  | .binary => List UInt8

/-- Whatever is in a buffer that nothing was written to. -/
def blank : (scalar : Scalar) → scalar.Value
  | .boolean => false
  | .int8 | .int16 | .int32 | .int64 | .uint8 => 0
  | .float32 => FloatValue.ofInt .binary32 0
  | .float64 => FloatValue.ofInt .binary64 0
  | .utf8 => ""
  | .binary => []

end Scalar

/-- The names and nullability of the fields under a map. -/
structure MapLayout where
  entriesName : String
  keyName : String
  valueName : String
  keyNullable : Bool
  valueNullable : Bool
  deriving DecidableEq, Repr

inductive DataType where
  | scalar (type : Scalar)
  | list (itemName : String) (itemNullable : Bool) (item : DataType)
  | map (layout : MapLayout) (keysSorted : Bool) (key value : DataType)
  -- any other type, by a name; nothing is said about it
  | other (name : String)
  deriving DecidableEq

namespace DataType

/-- Whether the type is one of those modelled here. -/
def isModelled : DataType → Bool
  | .other _ => false
  | .scalar _ | .list _ _ _ | .map _ _ _ _ => true

/-- The type without the names and the nullability of its child fields. -/
def erase : DataType → DataType
  | .scalar type => .scalar type
  | .list _ _ item => .list "" false item.erase
  | .map _ sorted key value => .map ⟨"", "", "", false, false⟩ sorted key.erase value.erase
  | .other name => .other name

@[simp] theorem erase_eq_scalar {type : DataType} {scalar : Scalar} :
    type.erase = .scalar scalar ↔ type = .scalar scalar := by
  cases type <;> simp [erase]

end DataType

/-! ## Slots and columns -/

/-- One slot of a column: whether it is valid, and what its buffers hold. -/
structure Slot (α : Type) where
  valid : Bool
  value : α

/-- The physical values of a data type; of another type some bytes. -/
def Cell : DataType → Type
  | .scalar type => type.Value
  | .list _ _ item => List (Slot (Cell item))
  | .map _ _ key value => List (Slot (Cell key) × Slot (Cell value))
  | .other _ => List UInt8

variable {itemName : String} {itemNullable keysSorted : Bool} {layout : MapLayout}
  {item key value : DataType}

/-- The items of a list value. -/
def Cell.items (cell : Cell (.list itemName itemNullable item)) : List (Slot (Cell item)) := cell

/-- The entries of a map value. -/
def Cell.entries (cell : Cell (.map layout keysSorted key value)) :
    List (Slot (Cell key) × Slot (Cell value)) := cell

def blank : (type : DataType) → Cell type
  | .scalar type => type.blank
  | .list _ _ _ => ([] : List _)
  | .map _ _ _ _ => ([] : List _)
  | .other _ => ([] : List UInt8)

/-- A null slot. -/
def Slot.null (type : DataType) : Slot (Cell type) := ⟨false, blank type⟩

/-- A slot that holds a value. -/
def Slot.full {α : Type} (value : α) : Slot α := ⟨true, value⟩

/-- Nulls stand only where a field is nullable; what is under a null is not looked at. -/
def NullsAllowed : (type : DataType) → (nullable : Bool) → Slot (Cell type) → Prop
  | .list _ itemNullable item, nullable, slot =>
    (nullable = true ∨ slot.valid = true) ∧
      (slot.valid = true → ∀ inner ∈ Cell.items slot.value, NullsAllowed item itemNullable inner)
  | .map layout _ key value, nullable, slot =>
    (nullable = true ∨ slot.valid = true) ∧
      (slot.valid = true → ∀ entry ∈ Cell.entries slot.value,
        NullsAllowed key layout.keyNullable entry.1 ∧
          NullsAllowed value layout.valueNullable entry.2)
  | .scalar _, nullable, slot | .other _, nullable, slot => nullable = true ∨ slot.valid = true

/-- A schema field. -/
structure Field where
  name : String
  type : DataType
  nullable : Bool
  metadata : List (String × String)

/-- A column: a field and one slot a row, of the field's type. -/
structure Column where
  field : Field
  slots : List (Slot (Cell field.type))

/-- Columns of one length. -/
structure RecordBatch where
  numRows : Nat
  columns : List Column
  rows : ∀ column ∈ columns, column.slots.length = numRows

/-- The first column of that name. -/
def RecordBatch.column? (batch : RecordBatch) (name : String) : Option Column :=
  batch.columns.find? fun column => column.field.name == name

/-- A stream: a schema, its metadata, and batches of that schema. -/
structure Stream where
  fields : List Field
  metadata : List (String × String)
  batches : List RecordBatch
  schema : ∀ batch ∈ batches, batch.columns.map Column.field = fields

/-- An array, whose type is known only when the program runs. -/
structure DynArray where
  type : DataType
  slots : List (Slot (Cell type))

def Column.array (column : Column) : DynArray := ⟨column.field.type, column.slots⟩

/-- The stream is one batch of one row. -/
def Stream.IsRow (stream : Stream) (batch : RecordBatch) : Prop :=
  stream.batches = [batch] ∧ batch.numRows = 1

/-- A field with the one slot of its column. -/
structure Entry where
  field : Field
  slot : Slot (Cell field.type)

def Entry.column (entry : Entry) : Column := ⟨entry.field, [entry.slot]⟩

/-- The one slot of an array as the entry of a field of the same type. -/
def Entry.ofSlot (field : Field) (type : DataType) (slot : Slot (Cell type)) : Option Entry :=
  if same : type = field.type then some ⟨field, same ▸ slot⟩ else none

@[simp] theorem Entry.ofSlot_self (field : Field) (slot : Slot (Cell field.type)) :
    Entry.ofSlot field field.type slot = some ⟨field, slot⟩ := by
  simp [Entry.ofSlot]

/-- The batch of one row with these entries. -/
def RecordBatch.ofRow (entries : List Entry) : RecordBatch where
  numRows := 1
  columns := entries.map Entry.column
  rows := by
    intro column member
    obtain ⟨entry, -, rfl⟩ := List.mem_map.mp member
    rfl

/-- The stream of one row. -/
def Stream.ofRow (metadata : List (String × String)) (entries : List Entry) : Stream where
  fields := entries.map Entry.field
  metadata := metadata
  batches := [RecordBatch.ofRow entries]
  schema := by
    intro batch member
    rw [List.mem_singleton.mp member]
    simp [RecordBatch.ofRow, Entry.column, Function.comp_def]

theorem Stream.ofRow_isRow (metadata : List (String × String)) (entries : List Entry) :
    (Stream.ofRow metadata entries).IsRow (RecordBatch.ofRow entries) := ⟨rfl, rfl⟩

/-- In a batch of one row every column has exactly one slot. -/
theorem RecordBatch.column_slots {batch : RecordBatch} {column : Column}
    (oneRow : batch.numRows = 1) (member : column ∈ batch.columns) :
    ∃ slot, column.slots = [slot] := by
  have length := batch.rows column member
  rw [oneRow] at length
  exact List.length_eq_one_iff.mp length

theorem RecordBatch.mem_of_column? {batch : RecordBatch} {name : String} {column : Column}
    (found : batch.column? name = some column) :
    column ∈ batch.columns ∧ column.field.name = name := by
  refine ⟨List.mem_of_find?_eq_some found, ?_⟩
  simpa using List.find?_some found

/-- Among columns of different names the one of a given name is found. -/
theorem RecordBatch.column?_ofRow {entries : List Entry} {entry : Entry}
    (distinct : (entries.map fun e => e.field.name).Nodup) (member : entry ∈ entries) :
    (RecordBatch.ofRow entries).column? entry.field.name = some entry.column := by
  induction entries with
  | nil => cases member
  | cons first entries ih =>
    simp only [List.map_cons, List.nodup_cons] at distinct
    cases member with
    | head => simp [RecordBatch.ofRow, RecordBatch.column?, Entry.column]
    | tail _ member =>
      have different : first.field.name ≠ entry.field.name := by
        intro same
        exact distinct.1 (List.mem_map.mpr ⟨entry, member, same.symm⟩)
      have found := ih distinct.2 member
      simp only [RecordBatch.ofRow, RecordBatch.column?, List.map_cons] at found ⊢
      rw [List.find?_cons_of_neg (by simpa [Entry.column] using different)]
      exact found

end Arrow
