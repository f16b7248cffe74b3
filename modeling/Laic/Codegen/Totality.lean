import Laic.Codegen.Contract
import Laic.Codegen.Names

/-! # Accepted files that the Rust generator finishes on

Validation lets through the leaf types, lists and options of them, the two mixtures of
both, and maps of scalars.  Of these the emitters hand nothing but leaf types to
`arrowBuilderType` and `arrowArrayType`, except for a list of optional items: its column
names the builder of the item before it looks at what the item is. -/

namespace Laic

/-- Lists of optional items. -/
def LaicType.isListOfOptional : LaicType → Bool
  | .list (.optional _) => true
  | _ => false

/-! ## One field -/

theorem exists_arrowArrayType {ty : LaicType} (leaf : SupportedLeaf ty) :
    ∃ array, arrowArrayType ty = .ok array := by
  obtain ⟨scalar, carried⟩ := LaicType.exists_leafScalar leaf.isLeaf
  exact ⟨scalar, arrowArrayType_of_leaf carried⟩

/-- A list of leaves has a column. -/
theorem exists_emitListColumn {inner : LaicType} (leaf : SupportedLeaf inner) :
    ∃ column, emitListColumn inner = .ok column := by
  obtain ⟨scalar, carried⟩ := LaicType.exists_leafScalar leaf.isLeaf
  obtain ⟨deref, emitted, -⟩ := emitListColumn_of_leaf carried
  exact ⟨_, emitted⟩

/-- On a list of optional items the emitter stops at the builder of the item. -/
theorem emitListColumn_optional (inner : LaicType) :
    emitListColumn (.optional inner) =
      .error ("arrow_builder_type called with unsupported type: " ++
        (LaicType.optional inner).debug) := rfl

/-- An option of a leaf or of a list of leaves has a column. -/
theorem exists_emitOptionalColumn {inner : LaicType}
    (leaf : SupportedLeaf inner ∨ ∃ item, inner = .list item ∧ SupportedLeaf item) :
    ∃ column, emitOptionalColumn inner = .ok column := by
  obtain leaf | ⟨item, rfl, leaf⟩ := leaf
  · obtain ⟨scalar, carried⟩ := LaicType.exists_leafScalar leaf.isLeaf
    obtain ⟨access, emitted, -⟩ := emitOptionalColumn_of_leaf carried
    exact ⟨_, emitted⟩
  · obtain ⟨scalar, carried⟩ := LaicType.exists_leafScalar leaf.isLeaf
    obtain ⟨deref, emitted, -⟩ := emitOptionalColumn_list carried
    exact ⟨_, emitted⟩

/-- The column of an accepted type is emitted unless it is a list of optional items. -/
theorem emitToArrowColumn_eq_ok {ty : LaicType} (supported : Supported ty) :
    (∃ column, emitToArrowColumn ty = .ok column) ↔ ty.isListOfOptional = false := by
  cases supported with
  | leaf leaf =>
    have notLeaf := leaf.isLeaf
    cases ty with
    | list | optional | map => cases notLeaf
    | string | bytes | bool | i8 | i16 | i32 | i64 | u8 | f32 | f64 | tensor =>
      exact ⟨fun _ => rfl, fun _ => ⟨_, rfl⟩⟩
  | @list inner leaf =>
    have plain : (LaicType.list inner).isListOfOptional = false := by
      have notLeaf := leaf.isLeaf
      cases inner <;> first | rfl | cases notLeaf
    exact ⟨fun _ => plain, fun _ => exists_emitListColumn leaf⟩
  | listOptional leaf =>
    constructor
    · rintro ⟨column, emitted⟩
      rw [emitToArrowColumn, emitListColumn_optional] at emitted
      cases emitted
    · intro plain
      cases plain
  | optional leaf => exact ⟨fun _ => rfl, fun _ => exists_emitOptionalColumn (.inl leaf)⟩
  | optionalList leaf =>
    exact ⟨fun _ => rfl, fun _ => exists_emitOptionalColumn (.inr ⟨_, rfl, leaf⟩)⟩
  | map isKey isScalar =>
    refine ⟨fun _ => rfl, fun _ => ?_⟩
    obtain ⟨keyScalar, valueScalar, keyLeaf, valueLeaf⟩ := LaicType.exists_mapScalars isKey isScalar
    obtain ⟨keyDeref, valueDeref, emitted, -⟩ :=
      emitMapColumn_of_scalar (LaicType.isScalar_of_isMapKey isKey) isScalar keyLeaf valueLeaf
    exact ⟨_, emitted⟩

/-- The extraction of an accepted type is always emitted. -/
theorem exists_rustFieldExtraction {field : FieldDef} (supported : Supported field.ty) :
    ∃ extraction, rustFieldExtraction field = .ok extraction := by
  obtain ⟨name, ty, default⟩ := field
  cases supported with
  | leaf leaf =>
    obtain ⟨array, named⟩ := exists_arrowArrayType leaf
    have notLeaf := leaf.isLeaf
    cases ty with
    | list | optional | map => cases notLeaf
    | string | bytes | bool | i8 | i16 | i32 | i64 | u8 | f32 | f64 | tensor =>
      exact ⟨_, rfl⟩
  | @list inner leaf =>
    obtain ⟨array, named⟩ := exists_arrowArrayType leaf
    have notLeaf := leaf.isLeaf
    cases inner with
    | list | optional | map => cases notLeaf
    | string | bytes | bool | i8 | i16 | i32 | i64 | u8 | f32 | f64 | tensor =>
      exact ⟨_, rfl⟩
  | listOptional leaf =>
    obtain ⟨array, named⟩ := exists_arrowArrayType leaf
    simp [rustFieldExtraction, emitListExtraction, named]
  | @optional inner leaf =>
    have notLeaf := leaf.isLeaf
    cases inner with
    | list | optional | map => cases notLeaf
    | string | bytes | bool | i8 | i16 | i32 | i64 | u8 | f32 | f64 | tensor =>
      exact ⟨_, rfl⟩
  | optionalList leaf =>
    obtain ⟨array, named⟩ := exists_arrowArrayType leaf
    simp [rustFieldExtraction, emitOptionalExtraction, named]
  | map isKey isScalar =>
    obtain ⟨keyArray, keyNamed⟩ :=
      exists_arrowArrayType (.of_scalar (LaicType.isScalar_of_isMapKey isKey))
    obtain ⟨valueArray, valueNamed⟩ := exists_arrowArrayType (.of_scalar isScalar)
    simp [rustFieldExtraction, emitMapExtraction, keyNamed, valueNamed]

/-! ## One file -/

theorem exists_generateStruct {structDef : StructDef} (supported : SupportedStruct structDef) :
    (∃ code, generateStruct structDef = .ok code) ↔
      ∀ field ∈ structDef.fields, field.ty.isListOfOptional = false := by
  have extracted : ∃ extractions, (structDef.fields.mapM fun field => do
      let extraction ← rustFieldExtraction field
      .ok (field, extraction) : Except String (List (FieldDef × Extraction))) = .ok extractions := by
    rw [Except.exists_mapM_eq_ok]
    intro field member
    obtain ⟨extraction, emitted⟩ := exists_rustFieldExtraction (supported.supported field member)
    exact ⟨(field, extraction), by rw [emitted]; rfl⟩
  obtain ⟨extractions, extracted⟩ := extracted
  have columns : (∃ code, generateStruct structDef = .ok code) ↔
      ∃ columns, (structDef.fields.mapM fun field => do
        let expr ← emitToArrowColumn field.ty
        .ok (field, expr) : Except String (List (FieldDef × ColumnExpr))) = .ok columns := by
    simp [generateStruct, extracted]
  rw [columns, Except.exists_mapM_eq_ok]
  refine forall₂_congr fun field member => ?_
  rw [← emitToArrowColumn_eq_ok (supported.supported field member)]
  simp

/-- The Rust generator finishes exactly on the accepted files without a list of optional
items. -/
theorem generateRust_finishes_iff {source : String} {file : LaicFile}
    (accepted : compile source = .ok file) :
    (∃ structs, generateRust file = .ok structs) ↔
      ∀ entry ∈ file.structs, ∀ field ∈ entry.2.2.fields, field.ty.isListOfOptional = false := by
  rw [generateRust, Except.exists_mapM_eq_ok]
  exact forall₂_congr fun entry member =>
    exists_generateStruct (supportedStruct_of_compile accepted entry member)

/-- A file with lists, options and maps of all kinds but that one. -/
theorem generateRust_finishes_mixed :
    ∃ file, compile (skillSource "I" "x:list<tensor<f32>[2]>;y:optional<list<string>>;" "O"
        "z:map<i8,bytes>;" "") = .ok file ∧
      ((∃ structs, generateRust file = .ok structs) ↔
        ∀ entry ∈ file.structs, ∀ field ∈ entry.2.2.fields, field.ty.isListOfOptional = false) := by
  obtain ⟨file, accepted, -⟩ : ∃ file,
      compile (skillSource "I" "x:list<tensor<f32>[2]>;y:optional<list<string>>;" "O"
        "z:map<i8,bytes>;" "") = .ok file ∧ (!file.structs.isEmpty) = true :=
    Except.exists_of_any (by decide +kernel)
  exact ⟨file, accepted, generateRust_finishes_iff accepted⟩

/-- Validation lets a list of optional strings through. -/
theorem generateRust_finishes_counterexample :
    ¬ ∀ source file, compile source = .ok file → ∃ structs, generateRust file = .ok structs := by
  intro all
  obtain ⟨file, accepted, stops⟩ : ∃ file,
      compile (skillSource "I" "x:list<optional<string>>;" "O" "x:bool;" "") = .ok file ∧
        (generateRust file).toOption.isNone = true := Except.exists_of_any (by decide +kernel)
  obtain ⟨structs, finished⟩ := all _ file accepted
  rw [finished] at stops
  cases stops

end Laic
