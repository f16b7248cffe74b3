import Laic.Codegen.Metadata
import Laic.Codegen.RustTypes

/-! # Serialization in the Rust target

The schema field and the column expression that the generator emits for a field, and what
the expression does: the Rust type it accepts and the slot it builds.  The expression is
the emitted template with its parameters, the builder or array type and the dereference
marks among them. -/

namespace Laic

open Arrow

/-! ## Schema fields -/

namespace RustSerialize

def formatDimsAsShape (dims : List Dimension) : String := dimsAsShape dims

def emitTensorFieldMetadata (dtype : TensorElementType) (dims : List Dimension) :
    List (String × String) :=
  tensorMetadata formatDimsAsShape dtype dims

end RustSerialize

open RustSerialize in
/-- The schema field; tensors, lists of them and optional ones carry their metadata. -/
def rustSchemaField (field : FieldDef) : Field :=
  match field.ty with
  | .tensor dtype dims => ⟨field.name, .scalar .binary, false, emitTensorFieldMetadata dtype dims⟩
  | .list (.tensor dtype dims) =>
    ⟨field.name, .list "item" true (.scalar .binary), false, emitTensorFieldMetadata dtype dims⟩
  | .optional (.tensor dtype dims) =>
    ⟨field.name, .scalar .binary, true, emitTensorFieldMetadata dtype dims⟩
  | ty => ⟨field.name, arrowDatatype ty, ty.isOptional, []⟩

/-! ## Column expressions -/

/-- How an array expression reaches into the field. -/
inductive Access where
  | asStr | asSlice | plain | asDeref
  deriving DecidableEq

/-- The expression of a column: an array made from one value, or a builder that is filled
from the field. -/
inductive ColumnExpr where
  | array (array : Scalar) (access : Access)
  | list (builder : Scalar) (deref : Bool)
  | listOptional (builder : Scalar) (deref : Bool)
  | optionalList (builder : Scalar) (deref : Bool)
  | map (keyBuilder valueBuilder : Scalar) (keyDeref valueDeref : Bool)
  deriving DecidableEq

def LaicType.isStringOrBytes : LaicType → Bool
  | .string | .bytes => true
  | _ => false

/-- The column of a list.  The builder of the parameter is named before its kind is looked
at, and is not used for an optional parameter. -/
def emitListColumn (inner : LaicType) : Except String ColumnExpr := do
  let builder ← arrowBuilderType inner
  match inner with
  | .string | .bytes | .tensor _ _ => .ok (.list builder false)
  | .optional optInner => do
    let innerBuilder ← arrowBuilderType optInner
    .ok (.listOptional innerBuilder (!optInner.isStringOrBytes && needsDeref optInner))
  | _ => .ok (.list builder (needsDeref inner))

def emitOptionalColumn : LaicType → Except String ColumnExpr
  | .string => .ok (.array .utf8 .asDeref)
  | .bytes | .tensor _ _ => .ok (.array .binary .asDeref)
  | .bool => .ok (.array .boolean .plain)
  | .list listInner => do
    let builder ← arrowBuilderType listInner
    .ok (.optionalList builder (!listInner.isStringOrBytes && needsDeref listInner))
  | .i8 => .ok (.array .int8 .plain)
  | .i16 => .ok (.array .int16 .plain)
  | .i32 => .ok (.array .int32 .plain)
  | .i64 => .ok (.array .int64 .plain)
  | .u8 => .ok (.array .uint8 .plain)
  | .f32 => .ok (.array .float32 .plain)
  | .f64 => .ok (.array .float64 .plain)
  | .optional _ | .map _ _ => .ok (.array .int32 .plain)

def emitMapColumn (key value : LaicType) : Except String ColumnExpr := do
  let keyBuilder ← arrowBuilderType key
  let valueBuilder ← arrowBuilderType value
  .ok (.map keyBuilder valueBuilder (!key.isStringOrBytes) (!value.isStringOrBytes))

def emitToArrowColumn : LaicType → Except String ColumnExpr
  | .string => .ok (.array .utf8 .asStr)
  | .bytes | .tensor _ _ => .ok (.array .binary .asSlice)
  | .bool => .ok (.array .boolean .plain)
  | .i8 => .ok (.array .int8 .plain)
  | .i16 => .ok (.array .int16 .plain)
  | .i32 => .ok (.array .int32 .plain)
  | .i64 => .ok (.array .int64 .plain)
  | .u8 => .ok (.array .uint8 .plain)
  | .f32 => .ok (.array .float32 .plain)
  | .f64 => .ok (.array .float64 .plain)
  | .list inner => emitListColumn inner
  | .optional inner => emitOptionalColumn inner
  | .map key value => emitMapColumn key value

/-! ## What a column expression does -/

/-- Whether the expression type-checks on a field of the type.  An item is behind a
reference: primitive types need the mark, strings and bytes must not have it. -/
def ColumnExpr.accepts : ColumnExpr → RustType → Bool
  | .array .utf8 .asStr, type => type == .owned .utf8
  | .array .binary .asSlice, type => type == .owned .binary
  | .array scalar .asDeref, type => !isCopy scalar && type == .option (.owned scalar)
  | .array scalar .plain, type =>
    isCopy scalar && (type == .owned scalar || type == .option (.owned scalar))
  | .array _ _, _ => false
  | .list builder deref, type => deref == isCopy builder && type == .vec (.owned builder)
  | .listOptional builder deref, type =>
    deref == isCopy builder && type == .vec (.option (.owned builder))
  | .optionalList builder deref, type =>
    deref == isCopy builder && type == .option (.vec (.owned builder))
  | .map keyBuilder valueBuilder keyDeref valueDeref, type =>
    keyDeref == isCopy keyBuilder && valueDeref == isCopy valueBuilder &&
      type == .hashMap (.owned keyBuilder) (.owned valueBuilder)

/-- The data type of the array that is built. -/
def ColumnExpr.dataType : ColumnExpr → DataType
  | .array scalar _ => .scalar scalar
  | .list builder _ | .listOptional builder _ | .optionalList builder _ =>
    .list "item" true (.scalar builder)
  | .map keyBuilder valueBuilder _ _ =>
    .map ⟨"entries", "keys", "values", false, true⟩ false (.scalar keyBuilder) (.scalar valueBuilder)

/-- The slot that the expression builds from the field. -/
def ColumnExpr.build : (expr : ColumnExpr) → RustValue → Option (Slot (Cell expr.dataType))
  | .array scalar _, .option value => RustValue.optionalSlot scalar (.option value)
  | .array scalar _, value => (value.asScalar scalar).map Slot.full
  | .list builder _, .vec items =>
    (items.mapM (RustValue.asScalar builder)).map fun values => ⟨true, values.map Slot.full⟩
  | .listOptional builder _, .vec items =>
    (items.mapM (RustValue.optionalSlot builder)).map fun slots => ⟨true, slots⟩
  | .optionalList builder _, .option none => some (Slot.null (.list "item" true (.scalar builder)))
  | .optionalList builder _, .option (some (.vec items)) =>
    (items.mapM (RustValue.asScalar builder)).map fun values => ⟨true, values.map Slot.full⟩
  | .map keyBuilder valueBuilder _ _, .map entries =>
    (entries.mapM (pairM (RustValue.asScalar keyBuilder) (RustValue.asScalar valueBuilder))).map
      fun values => ⟨true, values.map fun entry => (Slot.full entry.1, Slot.full entry.2)⟩
  | _, _ => none

/-! ## Columns of accepted types -/

section Columns

variable {ty inner key value : LaicType} {scalar keyScalar valueScalar : Scalar}

/-- The column of a leaf is an array of its scalar and type-checks. -/
theorem emitToArrowColumn_of_leaf (leaf : ty.leafScalar = some scalar) :
    ∃ access, emitToArrowColumn ty = .ok (.array scalar access) ∧
      ColumnExpr.accepts (.array scalar access) (rustType ty) = true := by
  cases ty with
  | list | optional | map => cases leaf
  | string | bytes | bool | i8 | i16 | i32 | i64 | u8 | f32 | f64 | tensor =>
    cases leaf
    exact ⟨_, rfl, rfl⟩

theorem emitListColumn_of_leaf (leaf : inner.leafScalar = some scalar) :
    ∃ deref, emitListColumn inner = .ok (.list scalar deref) ∧
      ColumnExpr.accepts (.list scalar deref) (rustType (.list inner)) = true := by
  cases inner with
  | list | optional | map => cases leaf
  | string | bytes | bool | i8 | i16 | i32 | i64 | u8 | f32 | f64 | tensor =>
    cases leaf
    exact ⟨_, rfl, rfl⟩

theorem emitOptionalColumn_of_leaf (leaf : inner.leafScalar = some scalar) :
    ∃ access, emitOptionalColumn inner = .ok (.array scalar access) ∧
      ColumnExpr.accepts (.array scalar access) (rustType (.optional inner)) = true := by
  cases inner with
  | list | optional | map => cases leaf
  | string | bytes | bool | i8 | i16 | i32 | i64 | u8 | f32 | f64 | tensor =>
    cases leaf
    exact ⟨_, rfl, rfl⟩

theorem emitOptionalColumn_list (leaf : inner.leafScalar = some scalar) :
    ∃ deref, emitOptionalColumn (.list inner) = .ok (.optionalList scalar deref) ∧
      ColumnExpr.accepts (.optionalList scalar deref) (rustType (.optional (.list inner))) = true := by
  cases inner with
  | list | optional | map => cases leaf
  | string | bytes | bool | i8 | i16 | i32 | i64 | u8 | f32 | f64 | tensor =>
    cases leaf
    exact ⟨_, rfl, rfl⟩

/-- The marks of a map's builders look only at whether a type is string or bytes, which leaves out
the tensors that keys and values cannot be. -/
theorem emitMapColumn_of_scalar (keyIs : key.isScalar = true) (valueIs : value.isScalar = true)
    (keyLeaf : key.leafScalar = some keyScalar) (valueLeaf : value.leafScalar = some valueScalar) :
    ∃ keyDeref valueDeref, emitMapColumn key value = .ok (.map keyScalar valueScalar keyDeref valueDeref) ∧
      ColumnExpr.accepts (.map keyScalar valueScalar keyDeref valueDeref) (rustType (.map key value)) =
        true := by
  have copies {ty : LaicType} {scalar : Scalar} (isScalar : ty.isScalar = true)
      (leaf : ty.leafScalar = some scalar) : (!ty.isStringOrBytes) = isCopy scalar := by
    cases ty with
    | tensor | list | optional | map => cases isScalar
    | string | bytes | bool | i8 | i16 | i32 | i64 | u8 | f32 | f64 =>
      cases leaf
      rfl
  refine ⟨!key.isStringOrBytes, !value.isStringOrBytes, ?_, ?_⟩
  · simp only [emitMapColumn, arrowBuilderType_of_leaf keyLeaf, arrowBuilderType_of_leaf valueLeaf]
    rfl
  · simp [ColumnExpr.accepts, copies keyIs keyLeaf, copies valueIs valueLeaf, rustType,
      rustType_of_leaf keyLeaf, rustType_of_leaf valueLeaf]

end Columns

end Laic
