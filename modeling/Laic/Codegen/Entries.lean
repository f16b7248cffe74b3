import Laic.Codegen.Decoding

/-! # Extractions on one entry

What the extraction of each kind of field does on a row that holds this field alone.  Rust reads
an entry of the field's type; Python and TypeScript read an entry of any type as an object, but
for the scalars, whose type they compare. -/

namespace Laic

open Arrow
open Except (ofOption)

variable {field : FieldDef} {type : DataType} {slot : Slot (Cell type)} {nullable : Bool}
  {metadata : List (String × String)} {dtype : TensorElementType} {dims : List Dimension}

/-- The row of a field alone. -/
def fieldRow (field : FieldDef) (type : DataType) (nullable : Bool) (metadata : List (String × String))
    (slot : Slot (Cell type)) : RecordBatch :=
  RecordBatch.ofRow [⟨⟨field.name, type, nullable, metadata⟩, slot⟩]

/-- The column of that row. -/
def fieldColumn (field : FieldDef) (type : DataType) (nullable : Bool)
    (metadata : List (String × String)) (slot : Slot (Cell type)) : Column :=
  ⟨⟨field.name, type, nullable, metadata⟩, [slot]⟩

@[simp] theorem column?_fieldRow :
    (fieldRow field type nullable metadata slot).column? field.name =
      some (fieldColumn field type nullable metadata slot) :=
  (soleColumn_ofEntry ⟨⟨field.name, type, nullable, metadata⟩, slot⟩).column?

@[simp] theorem pythonBatchColumn_fieldRow :
    pythonBatchColumn field.name (fieldRow field type nullable metadata slot) =
      .ok (fieldColumn field type nullable metadata slot) :=
  (soleColumn_ofEntry ⟨⟨field.name, type, nullable, metadata⟩, slot⟩).pythonBatchColumn

/-! ## Tensor metadata -/

/-- A tensor field, a list of tensors and an optional tensor: the fields whose metadata is checked. -/
def LaicType.checkedTensor : LaicType → Option (TensorElementType × List Dimension)
  | .tensor dtype dims | .list (.tensor dtype dims) | .optional (.tensor dtype dims) => some (dtype, dims)
  | _ => none

theorem checkedTensor_list {inner : LaicType} (tensor : inner.tensorParams = some (dtype, dims)) :
    (LaicType.list inner).checkedTensor = some (dtype, dims) := by
  cases inner <;> exact tensor

theorem checkedTensor_optional {inner : LaicType} (tensor : inner.tensorParams = some (dtype, dims)) :
    (LaicType.optional inner).checkedTensor = some (dtype, dims) := by
  cases inner <;> exact tensor

/-- The check of the metadata, where there is one, passes. -/
def Target.PassesTensorCheck (target : Target) (field : FieldDef) (metadata : List (String × String)) :
    Prop :=
  ∀ dtype dims, field.ty.checkedTensor = some (dtype, dims) →
    target.tensorCheck field.name metadata dtype dims = .ok ()

@[simp] theorem rustTensorCheck_fieldRow :
    rustTensorCheck field.name (fieldRow field type nullable metadata slot) dtype dims =
      Target.rust.tensorCheck field.name metadata dtype dims := by
  simp [rustTensorCheck, fieldColumn, Target.tensorCheck]

@[simp] theorem pythonTensorCheck_fieldRow :
    pythonTensorCheck field.name (fieldRow field type nullable metadata slot) dtype dims =
      Target.python.tensorCheck field.name metadata dtype dims := by
  simp [pythonTensorCheck, fieldColumn, Target.tensorCheck]

@[simp] theorem laicAssertTensorMetadata_fieldRow :
    laicAssertTensorMetadata field.name (fieldRow field type nullable metadata slot) dtype dims =
      Target.typescript.tensorCheck field.name metadata dtype dims := by
  simp [laicAssertTensorMetadata, fieldColumn, Target.tensorCheck]

/-- Metadata that fails the check stops the extraction, whatever the slot holds. -/
theorem passesTensorCheck_of_extracted [Libraries] {target : Target} {value : target.Host}
    (extracted : target.extractField field (fieldRow field type nullable metadata slot) = .ok value) :
    target.PassesTensorCheck field metadata := by
  intro dtype dims checked
  cases ty : field.ty with
  | string | bytes | bool | i8 | i16 | i32 | i64 | u8 | f32 | f64 | map =>
    rw [ty] at checked
    cases checked
  | tensor =>
    rw [ty] at checked
    cases checked
    cases target with
    | rust =>
      simp only [Target.extractField, rustFieldExtraction, ty, Extraction.run,
        rustTensorCheck_fieldRow] at extracted
      obtain ⟨_, check, -⟩ := Except.bind_eq_ok.mp extracted
      exact check
    | python =>
      simp only [Target.extractField, pythonFieldExtraction, ty, pythonTensorExtraction,
        pythonTensorCheck_fieldRow] at extracted
      obtain ⟨_, -, extracted⟩ := Except.bind_eq_ok.mp extracted
      obtain ⟨_, -, extracted⟩ := Except.bind_eq_ok.mp extracted
      obtain ⟨_, check, -⟩ := Except.bind_eq_ok.mp extracted
      exact check
    | typescript =>
      simp only [Target.extractField, tsFieldExtraction, ty, tsTensorExtraction,
        laicAssertTensorMetadata_fieldRow] at extracted
      obtain ⟨_, check, -⟩ := Except.bind_eq_ok.mp extracted
      exact check
  | list inner =>
    rw [ty] at checked
    cases inner with
    | string | bytes | bool | i8 | i16 | i32 | i64 | u8 | f32 | f64 | map | list | optional => cases checked
    | tensor =>
      cases checked
      cases target with
      | rust =>
        simp only [Target.extractField, rustFieldExtraction, ty, emitListExtraction, Extraction.run,
          rustTensorCheck?, rustTensorCheck_fieldRow] at extracted
        obtain ⟨_, -, extracted⟩ := Except.bind_eq_ok.mp extracted
        obtain ⟨_, -, extracted⟩ := Except.bind_eq_ok.mp extracted
        obtain ⟨_, check, -⟩ := Except.bind_eq_ok.mp extracted
        exact check
      | python =>
        simp only [Target.extractField, pythonFieldExtraction, ty, pythonListExtraction,
          pythonTensorCheck_fieldRow] at extracted
        obtain ⟨_, check, -⟩ := Except.bind_eq_ok.mp extracted
        exact check
      | typescript =>
        simp only [Target.extractField, tsFieldExtraction, ty, tsListExtraction,
          laicAssertTensorMetadata_fieldRow] at extracted
        obtain ⟨_, check, -⟩ := Except.bind_eq_ok.mp extracted
        exact check
  | optional inner =>
    rw [ty] at checked
    cases inner with
    | string | bytes | bool | i8 | i16 | i32 | i64 | u8 | f32 | f64 | map | list | optional => cases checked
    | tensor =>
      cases checked
      cases target with
      | rust =>
        simp only [Target.extractField, rustFieldExtraction, ty, emitOptionalExtraction, Extraction.run,
          column?_fieldRow, rustTensorCheck?, rustTensorCheck_fieldRow] at extracted
        obtain ⟨_, check, -⟩ := Except.bind_eq_ok.mp extracted
        exact check
      | python =>
        simp only [Target.extractField, pythonFieldExtraction, ty, pythonOptionalExtraction,
          pythonTensorCheck_fieldRow] at extracted
        obtain ⟨_, check, -⟩ := Except.bind_eq_ok.mp extracted
        exact check
      | typescript =>
        simp only [Target.extractField, tsFieldExtraction, ty, tsOptionalExtraction,
          laicAssertTensorMetadata_fieldRow] at extracted
        obtain ⟨_, check, -⟩ := Except.bind_eq_ok.mp extracted
        exact check

/-! ## Rust -/

section Rust

variable {scalar : Scalar}

/-- The check of a leaf that may be a tensor. -/
theorem rustTensorCheck?_fieldRow {tensor : Option (TensorElementType × List Dimension)}
    (passes : ∀ dtype dims, tensor = some (dtype, dims) →
      Target.rust.tensorCheck field.name metadata dtype dims = .ok ()) :
    rustTensorCheck? field.name (fieldRow field type nullable metadata slot) tensor = .ok () := by
  cases tensor with
  | none => rfl
  | some params => simp only [rustTensorCheck?, rustTensorCheck_fieldRow, passes params.1 params.2 rfl]

/-- The extraction of a list of leaves. -/
theorem emitListExtraction_of_leaf {inner : LaicType} (leaf : inner.leafScalar = some scalar) :
    ∃ conversion, emitListExtraction inner = .ok (.list inner.tensorParams ⟨scalar, conversion⟩) := by
  cases inner with
  | list | optional | map => cases leaf
  | string | bytes | bool | i8 | i16 | i32 | i64 | u8 | f32 | f64 | tensor =>
    cases leaf
    exact ⟨_, rfl⟩

theorem emitOptionalExtraction_of_leaf {inner : LaicType} (leaf : inner.leafScalar = some scalar) :
    ∃ conversion, emitOptionalExtraction inner = .ok (.optional inner.tensorParams ⟨scalar, conversion⟩) := by
  cases inner with
  | list | optional | map => cases leaf
  | string | bytes | bool | i8 | i16 | i32 | i64 | u8 | f32 | f64 | tensor =>
    cases leaf
    exact ⟨_, rfl⟩

variable [Libraries]

/-- Going on with the slots of a scalar column. -/
theorem downcastScalar_bind [LawfulLibraries] {β : Type} (error : DecodeError)
    (slots : List (Slot (Cell (.scalar scalar))))
    (next : List (Slot scalar.Value) → Except DecodeError β) :
    (ofOption error (downcastScalar scalar ⟨.scalar scalar, slots⟩) >>= next) = next slots := by
  have self : downcastScalar scalar ⟨.scalar scalar, slots⟩ = some slots := downcastScalar_self scalar slots
  exact congrArg (fun read => ofOption error read >>= next) self

/-- A leaf is read from a slot of its scalar, valid or not. -/
theorem rust_extract_leaf [LawfulLibraries] (leaf : field.ty.leafScalar = some scalar)
    (slot : Slot (Cell (.scalar scalar))) (passes : Target.rust.PassesTensorCheck field metadata) :
    Target.rust.extractField field (fieldRow field (.scalar scalar) nullable metadata slot) =
      .ok (.scalar scalar slot.value) := by
  cases ty : field.ty with
  | list | optional | map =>
    rw [ty] at leaf
    cases leaf
  | tensor dtype dims =>
    rw [ty] at leaf
    cases leaf
    have check := passes dtype dims (by rw [ty]; rfl)
    simp only [Target.extractField, rustFieldExtraction, ty, Extraction.run, rustTensorCheck_fieldRow,
      check, column?_fieldRow, Except.ofOption_some, Except.ok_bind]
    exact downcastScalar_bind (.wrongType field.name) [slot] _
  | string | bytes | bool | i8 | i16 | i32 | i64 | u8 | f32 | f64 =>
    rw [ty] at leaf
    cases leaf
    simp only [Target.extractField, rustFieldExtraction, ty, emitSimpleExtraction, arrowArrayType,
      Except.ok_bind, Extraction.run, column?_fieldRow, fieldColumn, arrowDatatype, Except.ensure_pos]
    exact downcastScalar_bind (.wrongType field.name) [slot] _

/-- Any other type is refused. -/
theorem rust_extract_leaf_error [LawfulLibraries] (leaf : field.ty.leafScalar = some scalar)
    (different : type ≠ .scalar scalar) :
    ∃ error, Target.rust.extractField field (fieldRow field type nullable metadata slot) =
      .error error := by
  have refused : downcastScalar scalar (fieldColumn field type nullable metadata slot).array = none :=
    downcastScalar_ne different
  apply Except.exists_error_of_ne_ok
  intro value extracted
  cases ty : field.ty with
  | list | optional | map =>
    rw [ty] at leaf
    cases leaf
  | tensor dtype dims =>
    rw [ty] at leaf
    cases leaf
    simp [Target.extractField, rustFieldExtraction, ty, Extraction.run, refused] at extracted
  | string | bytes | bool | i8 | i16 | i32 | i64 | u8 | f32 | f64 =>
    rw [ty] at leaf
    cases leaf
    simp [Target.extractField, rustFieldExtraction, ty, emitSimpleExtraction, arrowArrayType,
      Extraction.run, refused] at extracted

variable {inner : LaicType} {itemName : String} {itemNullable : Bool}

@[simp] theorem listValue_list [LawfulLibraries] {item : DataType}
    (slot : Slot (Cell (.list itemName itemNullable item))) :
    listValue field.name (fieldColumn field _ nullable metadata slot).array =
      .ok ⟨item, slot.value.items⟩ := by
  simp only [listValue, fieldColumn, Column.array, downcastList_list]
  rfl

/-- A list is read item by item, null or not. -/
theorem rust_extract_list [LawfulLibraries] (ty : field.ty = .list inner)
    (leaf : inner.leafScalar = some scalar)
    (slot : Slot (Cell (.list itemName itemNullable (.scalar scalar))))
    (passes : Target.rust.PassesTensorCheck field metadata) :
    Target.rust.extractField field (fieldRow field _ nullable metadata slot) =
      .ok (.vec (readValues scalar slot.value.items)) := by
  obtain ⟨conversion, made⟩ := emitListExtraction_of_leaf leaf
  have check : rustTensorCheck? field.name (fieldRow field _ nullable metadata slot) inner.tensorParams =
      .ok () := by
    apply rustTensorCheck?_fieldRow
    intro dtype dims tensor
    apply passes
    rw [ty]
    exact checkedTensor_list tensor
  simp only [Target.extractField, rustFieldExtraction, ty, made, Extraction.run, column?_fieldRow,
    Except.ofOption_some, Except.ok_bind, listValue_list, check, downcastScalar_bind]

theorem rust_extract_listOptional [LawfulLibraries] (ty : field.ty = .list (.optional inner))
    (leaf : inner.leafScalar = some scalar)
    (slot : Slot (Cell (.list itemName itemNullable (.scalar scalar)))) :
    Target.rust.extractField field (fieldRow field _ nullable metadata slot) =
      .ok (.vec (readOptionals scalar slot.value.items)) := by
  simp only [Target.extractField, rustFieldExtraction, ty, emitListExtraction,
    arrowArrayType_of_leaf leaf, Except.ok_bind, Extraction.run, column?_fieldRow, Except.ofOption_some,
    listValue_list, downcastScalar_bind]

theorem isNull_fieldColumn [LawfulLibraries] (field : FieldDef) (nullable : Bool)
    (metadata : List (String × String)) (slot : Slot (Cell type)) (modelled : type.isModelled = true) :
    (fieldColumn field type nullable metadata slot).array.isNull = !slot.valid := by
  have null := rustIsNull_eq modelled slot
  simp [fieldColumn, Column.array, DynArray.isNull, null]

/-- An optional leaf is nothing where the slot is null. -/
theorem rust_extract_optional [LawfulLibraries] (ty : field.ty = .optional inner)
    (leaf : inner.leafScalar = some scalar)
    (slot : Slot (Cell (.scalar scalar))) (passes : Target.rust.PassesTensorCheck field metadata) :
    Target.rust.extractField field (fieldRow field _ nullable metadata slot) =
      .ok (.option (if slot.valid then some (.scalar scalar slot.value) else none)) := by
  obtain ⟨conversion, made⟩ := emitOptionalExtraction_of_leaf leaf
  have check : rustTensorCheck? field.name (fieldRow field _ nullable metadata slot) inner.tensorParams =
      .ok () := by
    apply rustTensorCheck?_fieldRow
    intro dtype dims tensor
    apply passes
    rw [ty]
    exact checkedTensor_optional tensor
  have null := isNull_fieldColumn field nullable metadata slot rfl
  simp only [Target.extractField, rustFieldExtraction, ty, made, Extraction.run, column?_fieldRow, check,
    Except.ok_bind, null]
  cases valid : slot.valid with
  | false => rfl
  | true =>
    simp only [Bool.not_true, Bool.false_eq_true, if_false, if_true]
    exact downcastScalar_bind _ [slot] _

/-- A null slot of any type is nothing. -/
theorem rust_extract_optional_null (ty : field.ty = .optional inner) (leaf : inner.leafScalar = some scalar)
    (null : (fieldColumn field type nullable metadata slot).array.isNull = true)
    (passes : Target.rust.PassesTensorCheck field metadata) :
    Target.rust.extractField field (fieldRow field type nullable metadata slot) = .ok (.option none) := by
  obtain ⟨conversion, made⟩ := emitOptionalExtraction_of_leaf leaf
  have check : rustTensorCheck? field.name (fieldRow field type nullable metadata slot) inner.tensorParams =
      .ok () := by
    apply rustTensorCheck?_fieldRow
    intro dtype dims tensor
    apply passes
    rw [ty]
    exact checkedTensor_optional tensor
  simp only [Target.extractField, rustFieldExtraction, ty, made, Extraction.run, column?_fieldRow, check,
    Except.ok_bind, null, if_true]

theorem rust_extract_optionalList_null (ty : field.ty = .optional (.list inner))
    (leaf : inner.leafScalar = some scalar)
    (null : (fieldColumn field type nullable metadata slot).array.isNull = true) :
    Target.rust.extractField field (fieldRow field type nullable metadata slot) = .ok (.option none) := by
  simp only [Target.extractField, rustFieldExtraction, ty, emitOptionalExtraction,
    arrowArrayType_of_leaf leaf, Except.ok_bind, Extraction.run, column?_fieldRow, null, if_true]

theorem rust_extract_optionalList [LawfulLibraries] (ty : field.ty = .optional (.list inner))
    (leaf : inner.leafScalar = some scalar)
    (slot : Slot (Cell (.list itemName itemNullable (.scalar scalar)))) :
    Target.rust.extractField field (fieldRow field _ nullable metadata slot) =
      .ok (.option (if slot.valid then some (.vec (readValues scalar slot.value.items)) else none)) := by
  have null := isNull_fieldColumn field nullable metadata slot rfl
  simp only [Target.extractField, rustFieldExtraction, ty, emitOptionalExtraction,
    arrowArrayType_of_leaf leaf, Except.ok_bind, Extraction.run, column?_fieldRow, null]
  cases valid : slot.valid with
  | false => rfl
  | true =>
    simp only [Bool.not_true, Bool.false_eq_true, if_false, if_true, listValue_list, Except.ok_bind]
    exact downcastScalar_bind _ slot.value.items _

variable {key value : LaicType} {keyScalar valueScalar : Scalar} {layout : MapLayout} {keysSorted : Bool}

theorem rust_extract_map [LawfulLibraries] (ty : field.ty = .map key value)
    (keyLeaf : key.leafScalar = some keyScalar) (valueLeaf : value.leafScalar = some valueScalar)
    (slot : Slot (Cell (.map layout keysSorted (.scalar keyScalar) (.scalar valueScalar)))) :
    Target.rust.extractField field (fieldRow field _ nullable metadata slot) =
      .ok (readMap keyScalar valueScalar (slot.value.entries.map Prod.fst)
        (slot.value.entries.map Prod.snd)) := by
  simp only [Target.extractField, rustFieldExtraction, ty, emitMapExtraction,
    arrowArrayType_of_leaf keyLeaf, arrowArrayType_of_leaf valueLeaf, Except.ok_bind, Extraction.run,
    column?_fieldRow, Except.ofOption_some]
  have maps : downcastMap (fieldColumn field _ nullable metadata slot).array =
      some [(⟨.scalar keyScalar, slot.value.entries.map Prod.fst⟩,
        ⟨.scalar valueScalar, slot.value.entries.map Prod.snd⟩)] :=
    downcastMap_map layout keysSorted (.scalar keyScalar) (.scalar valueScalar) [slot]
  simp only [maps, Except.ofOption_some, Except.ok_bind, List.head?_cons, downcastScalar_bind]
  rfl

end Rust

/-! ## Python -/

section Python

variable {inner key value : LaicType}

@[simp] theorem pythonElement_fieldColumn :
    pythonElement field.name (fieldColumn field type nullable metadata slot) = .ok slot := rfl

variable [Libraries]

@[simp] theorem pythonElementObject_fieldColumn :
    pythonElementObject field.name (fieldColumn field type nullable metadata slot) =
      ofOption (.host field.name) (asPy type slot) := rfl

/-- Types whose extraction compares the column's type. -/
theorem python_extract_scalar (isScalar : field.ty.isScalar = true) :
    Target.python.extractField field (fieldRow field type nullable metadata slot) =
      if type = pyarrowType field.ty then ofOption (.host field.name) (asPy type slot)
      else .error (.wrongType field.name) := by
  cases ty : field.ty with
  | tensor | list | optional | map =>
    rw [ty] at isScalar
    cases isScalar
  | string | bytes | bool | i8 | i16 | i32 | i64 | u8 | f32 | f64 =>
    simp only [Target.extractField, pythonFieldExtraction, ty, pythonScalarExtraction,
      pythonBatchColumn_fieldRow, pythonElementObject_fieldColumn]
    rfl

theorem python_extract_tensor (ty : field.ty = .tensor dtype dims)
    (passes : Target.python.PassesTensorCheck field metadata) :
    Target.python.extractField field (fieldRow field type nullable metadata slot) =
      ofOption (.host field.name) (asPy type slot) := by
  have check := passes dtype dims (by rw [ty]; rfl)
  simp only [Target.extractField, pythonFieldExtraction, ty, pythonTensorExtraction,
    pythonBatchColumn_fieldRow, pythonElementObject_fieldColumn, pythonTensorCheck_fieldRow, check,
    Except.ok_bind]
  cases asPy type slot <;> rfl

theorem python_extract_list (ty : field.ty = .list inner) (notTensor : inner.tensorParams = none) :
    Target.python.extractField field (fieldRow field type nullable metadata slot) =
      ofOption (.host field.name) (asPy type slot) := by
  cases inner with
  | tensor => cases notTensor
  | string | bytes | bool | i8 | i16 | i32 | i64 | u8 | f32 | f64 | list | optional | map =>
    simp only [Target.extractField, pythonFieldExtraction, ty, pythonListExtraction,
      pythonBatchColumn_fieldRow, pythonElementObject_fieldColumn, Except.ok_bind]

theorem python_extract_listTensor (ty : field.ty = .list (.tensor dtype dims))
    (passes : Target.python.PassesTensorCheck field metadata) :
    Target.python.extractField field (fieldRow field type nullable metadata slot) =
      (ofOption (.host field.name) (pyListValues type slot)).map .list := by
  have check := passes dtype dims (by rw [ty]; rfl)
  simp only [Target.extractField, pythonFieldExtraction, ty, pythonListExtraction,
    pythonBatchColumn_fieldRow, pythonElement_fieldColumn, pythonTensorCheck_fieldRow, check,
    Except.ok_bind]
  show (ofOption _ (pyListValues type slot) >>= fun items => .ok (PyValue.list items)) = _
  cases pyListValues type slot <;> rfl

theorem python_extract_optional (ty : field.ty = .optional inner)
    (passes : Target.python.PassesTensorCheck field metadata) :
    Target.python.extractField field (fieldRow field type nullable metadata slot) =
      if pyIsValid type slot then ofOption (.host field.name) (asPy type slot) else .ok .none := by
  cases inner with
  | tensor dtype dims =>
    have check := passes dtype dims (by rw [ty]; rfl)
    simp only [Target.extractField, pythonFieldExtraction, ty, pythonOptionalExtraction,
      pythonOptionalElement, pythonBatchColumn_fieldRow, pythonElement_fieldColumn,
      pythonTensorCheck_fieldRow, check, Except.ok_bind]
    rfl
  | string | bytes | bool | i8 | i16 | i32 | i64 | u8 | f32 | f64 | list | optional | map =>
    simp only [Target.extractField, pythonFieldExtraction, ty, pythonOptionalExtraction,
      pythonOptionalElement, pythonBatchColumn_fieldRow, pythonElement_fieldColumn, Except.ok_bind]
    rfl

theorem python_extract_map_null (ty : field.ty = .map key value) (null : asPy type slot = some .none) :
    Target.python.extractField field (fieldRow field type nullable metadata slot) = .ok (.dict []) := by
  simp only [Target.extractField, pythonFieldExtraction, ty, pythonMapExtraction,
    pythonBatchColumn_fieldRow, pythonElementObject_fieldColumn, Except.ok_bind, null, Except.ofOption_some]

theorem python_extract_map_list {items : List PyValue} (ty : field.ty = .map key value)
    (read : asPy type slot = some (.list items)) :
    Target.python.extractField field (fieldRow field type nullable metadata slot) =
      ofOption (.host field.name) (pyDict (.list items)) := by
  simp only [Target.extractField, pythonFieldExtraction, ty, pythonMapExtraction,
    pythonBatchColumn_fieldRow, pythonElementObject_fieldColumn, Except.ok_bind, read, Except.ofOption_some]

end Python

/-! ## TypeScript -/

section TypeScript

variable [Libraries] {inner key value : LaicType}

@[simp] theorem tsGet_fieldColumn :
    tsGet field.name (fieldColumn field type nullable metadata slot) =
      ofOption (.host field.name) (jsGet type slot) := rfl

@[simp] theorem tsListElement_fieldRow :
    tsListElement field.name (fieldRow field type nullable metadata slot) = (do
      let value ← ofOption (.host field.name) (jsGet type slot)
      ofOption (.host field.name) (jsArrayFrom value)) := by
  simp only [tsListElement, column?_fieldRow, Except.ofOption_some, Except.ok_bind, tsGet_fieldColumn]

@[simp] theorem tsOptionalElement_fieldRow :
    tsOptionalElement field.name (fieldRow field type nullable metadata slot) =
      if jsIsValid type slot then ofOption (.host field.name) (jsGet type slot) else .ok .null := by
  simp only [tsOptionalElement, column?_fieldRow, Except.ofOption_some, Except.ok_bind]
  rfl

/-- Only the scalar's own type prints as it does. -/
theorem tsScalarExtraction_fieldRow [LawfulLibraries] {ty : LaicType} {scalar : Scalar}
    (leaf : ty.leafScalar = some scalar) (default : Option Literal) :
    tsScalarExtraction field.name ty default (fieldRow field type nullable metadata slot) =
      if type = .scalar scalar then ofOption (.host field.name) (jsGet type slot)
      else .error (.wrongType field.name) := by
  have printed : jsRendering type = jsRendering (.scalar scalar) ↔ type = .scalar scalar :=
    jsRendering_eq_scalar
  simp only [tsScalarExtraction, column?_fieldRow, laicAssertFieldType, tsArrowDatatype_of_leaf leaf]
  by_cases same : type = .scalar scalar
  · have passes : Except.ensure (jsRendering type = jsRendering (.scalar scalar))
        (DecodeError.wrongType field.name) = .ok () := Except.ensure_pos (printed.mpr same)
    rw [if_pos same]
    show (Except.ensure (jsRendering type = jsRendering (.scalar scalar)) _ >>= _) = _
    rw [passes]
    rfl
  · have fails : Except.ensure (jsRendering type = jsRendering (.scalar scalar))
        (DecodeError.wrongType field.name) = .error (.wrongType field.name) :=
      Except.ensure_neg fun equal => same (printed.mp equal)
    rw [if_neg same]
    show (Except.ensure (jsRendering type = jsRendering (.scalar scalar)) _ >>= _) = _
    rw [fails]
    rfl

/-- Types whose extraction compares what the types print as. -/
theorem ts_extract_scalar [LawfulLibraries] (isScalar : field.ty.isScalar = true) :
    Target.typescript.extractField field (fieldRow field type nullable metadata slot) =
      if type = tsArrowDatatype field.ty then ofOption (.host field.name) (jsGet type slot)
      else .error (.wrongType field.name) := by
  have extraction : Target.typescript.extractField field (fieldRow field type nullable metadata slot) =
      tsScalarExtraction field.name field.ty field.default (fieldRow field type nullable metadata slot) := by
    cases ty : field.ty with
    | tensor | list | optional | map =>
      rw [ty] at isScalar
      cases isScalar
    | string | bytes | bool | i8 | i16 | i32 | i64 | u8 | f32 | f64 =>
      simp only [Target.extractField, tsFieldExtraction, ty]
  obtain ⟨scalar, leaf⟩ := LaicType.exists_leafScalar (SupportedLeaf.of_scalar isScalar).isLeaf
  rw [extraction, tsScalarExtraction_fieldRow leaf, tsArrowDatatype_of_leaf leaf]

theorem ts_extract_tensor (ty : field.ty = .tensor dtype dims)
    (passes : Target.typescript.PassesTensorCheck field metadata) :
    Target.typescript.extractField field (fieldRow field type nullable metadata slot) =
      ofOption (.host field.name) (jsGet type slot) := by
  have check := passes dtype dims (by rw [ty]; rfl)
  simp only [Target.extractField, tsFieldExtraction, ty, tsTensorExtraction, column?_fieldRow,
    laicAssertTensorMetadata_fieldRow, check, Except.ofOption_some, Except.ok_bind, tsGet_fieldColumn]

theorem ts_extract_list (ty : field.ty = .list inner)
    (passes : Target.typescript.PassesTensorCheck field metadata) :
    Target.typescript.extractField field (fieldRow field type nullable metadata slot) = (do
      let value ← ofOption (.host field.name) (jsGet type slot)
      ofOption (.host field.name) (jsArrayFrom value)) := by
  cases inner with
  | tensor dtype dims =>
    have check := passes dtype dims (by rw [ty]; rfl)
    simp only [Target.extractField, tsFieldExtraction, ty, tsListExtraction,
      laicAssertTensorMetadata_fieldRow, check, Except.ok_bind, tsListElement_fieldRow]
  | string | bytes | bool | i8 | i16 | i32 | i64 | u8 | f32 | f64 | list | optional | map =>
    simp only [Target.extractField, tsFieldExtraction, ty, tsListExtraction, tsListElement_fieldRow]

theorem ts_extract_optional (ty : field.ty = .optional inner)
    (passes : Target.typescript.PassesTensorCheck field metadata) :
    Target.typescript.extractField field (fieldRow field type nullable metadata slot) =
      if jsIsValid type slot then ofOption (.host field.name) (jsGet type slot) else .ok .null := by
  cases inner with
  | tensor dtype dims =>
    have check := passes dtype dims (by rw [ty]; rfl)
    simp only [Target.extractField, tsFieldExtraction, ty, tsOptionalExtraction,
      laicAssertTensorMetadata_fieldRow, check, Except.ok_bind, tsOptionalElement_fieldRow]
  | string | bytes | bool | i8 | i16 | i32 | i64 | u8 | f32 | f64 | list | optional | map =>
    simp only [Target.extractField, tsFieldExtraction, ty, tsOptionalExtraction,
      tsOptionalElement_fieldRow]

theorem ts_extract_map (ty : field.ty = .map key value) :
    Target.typescript.extractField field (fieldRow field type nullable metadata slot) =
      ofOption (.host field.name) (jsGet type slot) := by
  simp only [Target.extractField, tsFieldExtraction, ty, tsMapExtraction, column?_fieldRow,
    Except.ofOption_some, Except.ok_bind, tsGet_fieldColumn]

end TypeScript

end Laic
