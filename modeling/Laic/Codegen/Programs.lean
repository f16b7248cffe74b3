import Laic.Codegen.Defaults
import Laic.Codegen.ErrorEnum
import Laic.Codegen.Hygiene
import Laic.Codegen.Totality

/-! # Generated files as programs

When the file that a generator writes is a program whose methods do what their templates mean.
Its names must be safe: the types are apart from each other and from what the templates read, no
decoder captures a name, and the error enums can be defined.  A file with safe names compiles
exactly if its texts and defaults are written as literals that are read back, and, in Rust, no
field is an optional list of tensors, whose items are not copied out of the array. -/

namespace Laic

open Arrow
open DecimalText
open StringLiteral

/-! ## Safe names -/

/-- The types, functions and modules that the templates of a target read by name. -/
def Target.scaffoldTypes : Target → List String
  | .rust =>
    ["std", "arrow_ipc", "arrow_array", "arrow_schema", "Result", "Option", "Vec", "Box", "String", "str",
      "bool", "i8", "i16", "i32", "i64", "u8", "u16", "f32", "f64", "usize", "HashMap", "Arc", "Schema",
      "Field", "Fields", "DataType", "RecordBatch", "Array", "StringArray", "BinaryArray", "BooleanArray",
      "Int8Array", "Int16Array", "Int32Array", "Int64Array", "UInt8Array", "Float32Array", "Float64Array",
      "ListArray", "MapArray", "StructArray", "StringBuilder", "BinaryBuilder", "BooleanBuilder",
      "Int8Builder", "Int16Builder", "Int32Builder", "Int64Builder", "UInt8Builder", "Float32Builder",
      "Float64Builder", "ListBuilder", "MapBuilder"]
  | .python =>
    ["dataclasses", "enum", "ClassVar", "pa", "ipc", "classmethod", "ValueError", "StopIteration", "int",
      "len", "dict", "list"]
  | .typescript =>
    ["arrow", "laicSchemaMetadata", "laicFieldMetadata", "laicAssertMetadata", "laicAssertFieldType",
      "laicParseTensorShape", "laicAssertTensorMetadata", "Error", "Map", "Number", "Array", "Uint8Array",
      "Iterable", "Record", "bigint", "Object", "exports"]

/-- The error enum of a skill can be defined. -/
def Target.DefinesEnum (skill : SkillDef) : Target → Prop
  | .rust =>
    ((rustErrorEnum skill).variants.map Prod.fst).Nodup ∧
      ∀ variant ∈ (rustErrorEnum skill).variants, isRustIdentifier variant.1 = true
  | .python => (pythonErrorEnum skill).isSome = true
  | .typescript => (typescriptErrorEnum skill).isSome = true

/-- The names of a file are safe for a target: they mean in the generated code what the templates
mean by them. -/
structure Target.SafeNames (target : Target) (imports : List String) (file : LaicFile) : Prop where
  distinct : (typeNames file).Nodup
  apart : ∀ name ∈ target.scaffoldTypes, name ∉ typeNames file
  decoders : ∀ entry ∈ file.structs, HygienicDecoder imports file target entry
  enums : ∀ skill ∈ file.skills, target.DefinesEnum skill

/-! ## Literals -/

/-- The texts that are written into every struct. -/
def LaicFile.texts (file : LaicFile) : List String := file.version :: file.skills.map SkillDef.id

/-- The literal of a text is read as the text; rustc denies marks of text direction in it. -/
def Target.ReadsText (text : String) : Target → Prop
  | .rust =>
    scan rustLiteralSyntax (rustStringLiteral text) = some (text.toList, []) ∧
      (rustStringLiteral text).any isDirectionMark = false
  | .python => scan pythonLiteralSyntax (pythonStringLiteral text) = some (text.toList, [])
  | .typescript => scan javascriptLiteralSyntax (typescriptStringLiteral text) = some (text.toList, [])

/-- No C1 control and no mark of text direction. -/
def IsPlainText (text : String) : Prop :=
  ∀ c ∈ text.toList, isHighControl c = false ∧ isDirectionMark c = false

instance (text : String) : Decidable (IsPlainText text) :=
  inferInstanceAs (Decidable (∀ c ∈ text.toList, isHighControl c = false ∧ isDirectionMark c = false))

theorem readsText_iff (target : Target) (text : String) :
    target.ReadsText text ↔ (target = .rust → IsPlainText text) := by
  cases target with
  | rust =>
    have scanned := scan_rustStringLiteral text []
    rw [List.append_nil] at scanned
    simp only [Target.ReadsText, scanned, any_isDirectionMark_rustStringLiteral, List.any_eq_false,
      Option.ite_none_right_eq_some, List.all_eq_true, Bool.not_eq_true', Bool.not_eq_true, IsPlainText,
      forall_const, and_true]
    exact ⟨fun all c member => ⟨all.1 c member, all.2 c member⟩,
      fun all => ⟨fun c member => (all c member).1, fun c member => (all c member).2⟩⟩
  | python =>
    have scanned := scan_pythonStringLiteral text []
    rw [List.append_nil] at scanned
    simp [Target.ReadsText, scanned]
  | typescript =>
    have scanned := scan_typescriptStringLiteral text []
    rw [List.append_nil] at scanned
    simp [Target.ReadsText, scanned]

/-- Defaults whose literal a target reads at all: in Rust plain strings, integers for integers, and
floats that are finite, in 32 bits too; in Python and TypeScript everything but infinities and NaN. -/
def Target.WritesDefault (ty : LaicType) (literal : Literal) : Target → Prop
  | .rust =>
    match ty, literal with
    | _, .string value => IsPlainText value
    | ty, .integer _ => ty ≠ .f32 ∧ ty ≠ .f64
    | .f32, .float (.finite _ magnitude) =>
      FloatFormat.binary32.roundMagnitude (shortest .binary64 magnitude.1).value <
        2 ^ FloatFormat.binary32.maxExponent
    | _, .float (.finite _ _) => True
    | _, .float _ => False
    | _, .bool _ => True
  | .python | .typescript =>
    match literal with
    | .float (.infinite _) | .float .nan => False
    | .float (.finite _ _) | .string _ | .integer _ | .bool _ => True

section Defaults

variable {skillName fieldName : String} {ty : LaicType} {literal : Literal} {scalar : Scalar}

theorem defaultCompatible_of_validate
    (checked : validateDefaultCompat skillName fieldName ty literal = .ok ()) :
    defaultCompatible ty literal = true := by
  simp only [validateDefaultCompat, Except.bind_eq_ok, Except.ensure_eq_ok] at checked
  obtain ⟨_, _, _, compatible, _⟩ := checked
  exact compatible

/-- Rust gives the literal of a default a type exactly if it is one that is written. -/
theorem rustLiteral_isSome_iff (leaf : ty.leafScalar = some scalar)
    (checked : validateDefaultCompat skillName fieldName ty literal = .ok ()) :
    (rustLiteral scalar (literalToRust literal)).isSome = true ↔ Target.rust.WritesDefault ty literal := by
  have compatible := defaultCompatible_of_validate checked
  cases literal with
  | string value =>
    cases ty <;> cases compatible
    cases leaf
    have read : rustLiteral .utf8 (literalToRust (.string value)) =
        if IsPlainText value then some value else none := rustLiteral_string value
    rw [read]
    by_cases plain : IsPlainText value <;> simp [Target.WritesDefault, plain]
  | bool value =>
    cases ty <;> cases compatible
    cases leaf
    refine iff_of_true ?_ trivial
    cases value <;> rfl
  | integer value =>
    by_cases notFloat : ty ≠ .f32 ∧ ty ≠ .f64
    · obtain ⟨scalar', content, leaf', inRange⟩ := intScalar_of_validate checked notFloat
      cases leaf.symm.trans leaf'
      have read : rustLiteral scalar (literalToRust (.integer value)) = some content :=
        rustLiteral_integer inRange
      exact iff_of_true (by rw [read]; rfl) notFloat
    · have isFloat : ty = .f32 ∨ ty = .f64 := by
        rwa [ne_eq, ne_eq, ← not_or, not_not] at notFloat
      refine iff_of_false ?_ notFloat
      obtain rfl | rfl := isFloat <;> cases leaf <;>
        simp [rustLiteral, literalToRust, readFloat_displayInteger]
  | float value =>
    have isFloat : ty = .f32 ∨ ty = .f64 := by
      cases ty <;> first | exact .inl rfl | exact .inr rfl | cases compatible
    have float : scalar = .float32 ∨ scalar = .float64 := by
      obtain rfl | rfl := isFloat <;> cases leaf <;> simp
    cases value with
    | nan =>
      refine iff_of_false (by simp [rustLiteral_notFinite float (.inl rfl)]) ?_
      obtain rfl | rfl := isFloat <;> exact id
    | infinite negative =>
      refine iff_of_false (by simp [rustLiteral_notFinite float (.inr ⟨negative, rfl⟩)]) ?_
      obtain rfl | rfl := isFloat <;> exact id
    | finite negative magnitude =>
      obtain rfl | rfl := isFloat
      · cases leaf
        have read : readFloat .binary32 (withPoint (displayFloat (.finite negative magnitude))) =
            some (.round .binary32 negative (shortest .binary64 magnitude.1).value) :=
          readFloat_displayFloat negative magnitude
        simp only [rustLiteral, literalToRust, read, Target.WritesDefault]
        by_cases below : FloatFormat.binary32.roundMagnitude (shortest .binary64 magnitude.1).value <
            2 ^ FloatFormat.binary32.maxExponent
        · refine iff_of_true ?_ below
          rw [round_eq_finite negative below]
          rfl
        · refine iff_of_false ?_ below
          simp [Option.filter, FloatValue.isInfinite, FloatValue.round, below]
      · cases leaf
        refine iff_of_true ?_ trivial
        rw [rustLiteral_float64]
        rfl

theorem pythonLiteral_isSome_iff :
    (pythonLiteral (literalToPython literal)).isSome = true ↔ Target.python.WritesDefault ty literal := by
  cases literal with
  | string value => exact iff_of_true (congrArg Option.isSome (pythonLiteral_string value)) trivial
  | bool value =>
    refine iff_of_true ?_ trivial
    cases value <;> rfl
  | integer value => exact iff_of_true (congrArg Option.isSome (pythonLiteral_integer value.toInt)) trivial
  | float value =>
    cases value with
    | nan => exact iff_of_false (by decide) id
    | infinite negative =>
      refine iff_of_false ?_ id
      cases negative <;> decide
    | finite negative magnitude => exact iff_of_true (congrArg Option.isSome pythonLiteral_float) trivial

/-- The literal of a checked default is a value of the annotated type where it is one at all. -/
theorem typescriptLiteral_iff (checked : validateDefaultCompat skillName fieldName ty literal = .ok ()) :
    (∃ object, javascriptLiteral (literalToTs literal ty) = some object ∧ tsHasType ty object = true) ↔
      Target.typescript.WritesDefault ty literal := by
  have compatible := defaultCompatible_of_validate checked
  cases literal with
  | string value =>
    cases ty <;> cases compatible
    exact iff_of_true ⟨_, javascriptLiteral_string value, rfl⟩ trivial
  | bool value =>
    cases ty <;> cases compatible
    refine iff_of_true ⟨.boolean value, ?_, rfl⟩ trivial
    cases value <;> rfl
  | integer value =>
    refine iff_of_true ?_ trivial
    cases ty with
    | string | bytes | bool | tensor | list | optional | map => cases compatible
    | i64 => exact ⟨_, javascriptLiteral_bigint value.toInt, rfl⟩
    | i8 | i16 | i32 | u8 | f32 | f64 => exact ⟨_, javascriptLiteral_integer value.toInt, rfl⟩
  | float value =>
    have written : literalToTs (.float value) ty = withPoint (displayFloat value) := rfl
    rw [written]
    cases value with
    | nan =>
      have none : javascriptLiteral (withPoint (displayFloat (.nan : F64))) = none := by decide
      exact iff_of_false (by simp [none]) id
    | infinite negative =>
      have none : javascriptLiteral (withPoint (displayFloat (.infinite negative : F64))) = none := by
        cases negative <;> decide
      exact iff_of_false (by simp [none]) id
    | finite negative magnitude =>
      refine iff_of_true ?_ trivial
      cases ty with
      | string | bytes | bool | i8 | i16 | i32 | i64 | u8 | tensor | list | optional | map => cases compatible
      | f32 | f64 => exact ⟨_, javascriptLiteral_float, rfl⟩

end Defaults

/-! ## Fields -/

/-- The code that the generator emits for a field is well typed: in Rust its column and its
extraction, in Python and TypeScript, which take what is read as it comes, the literal of its
default. -/
def Target.FieldCompiles (field : FieldDef) : Target → Prop
  | .rust => ∀ expr extraction, emitToArrowColumn field.ty = .ok expr →
      rustFieldExtraction field = .ok extraction →
      expr.accepts (rustType field.ty) = true ∧ extraction.type = some (rustType field.ty)
  | .python => ∀ literal, field.default = some literal →
      (pythonLiteral (literalToPython literal)).isSome = true
  | .typescript => ∀ literal, field.default = some literal →
      ∃ object, javascriptLiteral (literalToTs literal field.ty) = some object ∧
        tsHasType field.ty object = true

def LaicType.isOptionalListOfTensor : LaicType → Bool
  | .optional (.list (.tensor _ _)) => true
  | _ => false

/-- A key or value of a map is read as its Rust type. -/
theorem mapValue_type {ty : LaicType} {scalar : Scalar} (isScalar : ty.isScalar = true)
    (leaf : ty.leafScalar = some scalar) :
    (ValueExpr.mk scalar (mapValueConversion ty)).type = some (rustType ty) := by
  cases ty with
  | tensor | list | optional | map => cases isScalar
  | string | bytes | bool | i8 | i16 | i32 | i64 | u8 | f32 | f64 =>
    cases leaf
    rfl

/-- Both arms of a simple extraction have the type that is read exactly if the default has it. -/
theorem simple_type_iff {value : ValueExpr} {scalar : Scalar} (owned : value.type = some (.owned scalar))
    (ty : LaicType) (default : Option Literal) :
    (emitSimpleExtraction value ty default).type = some (.owned scalar) ↔
      ∀ literal, default = some literal → (rustLiteral scalar (literalToRust literal)).isSome = true := by
  cases default with
  | none => simp [emitSimpleExtraction, Extraction.type, owned]
  | some literal =>
    cases read : rustLiteral scalar (literalToRust literal) <;>
      simp [emitSimpleExtraction, Extraction.type, owned, read]

/-- Fields of a nested type have no default. -/
theorem default_eq_none {skillName : String} {field : FieldDef} (nested : field.ty.isScalar = false)
    (checked : ∀ literal, field.default = some literal →
      validateDefaultCompat skillName field.name field.ty literal = .ok ()) : field.default = none := by
  rw [Option.eq_none_iff_forall_ne_some]
  intro literal default
  have compatible := defaultCompatible_of_validate (checked literal default)
  generalize field.ty = ty at nested compatible
  cases ty with
  | string | bytes | bool | i8 | i16 | i32 | i64 | u8 | f32 | f64 => cases nested
  | tensor | list | optional | map => cases literal <;> cases compatible

/-- The column of an accepted field type-checks in Rust. -/
theorem column_accepts {ty : LaicType} (supported : Supported ty) {expr : ColumnExpr}
    (emitted : emitToArrowColumn ty = .ok expr) : expr.accepts (rustType ty) = true := by
  cases supported with
  | leaf leaf =>
    obtain ⟨scalar, leaf⟩ := LaicType.exists_leafScalar leaf.isLeaf
    obtain ⟨access, named, accepts⟩ := emitToArrowColumn_of_leaf leaf
    cases named.symm.trans emitted
    exact accepts
  | list leaf =>
    obtain ⟨scalar, leaf⟩ := LaicType.exists_leafScalar leaf.isLeaf
    obtain ⟨deref, named, accepts⟩ := emitListColumn_of_leaf leaf
    cases named.symm.trans emitted
    exact accepts
  | listOptional leaf =>
    rw [emitToArrowColumn, emitListColumn_optional] at emitted
    cases emitted
  | optional leaf =>
    obtain ⟨scalar, leaf⟩ := LaicType.exists_leafScalar leaf.isLeaf
    obtain ⟨access, named, accepts⟩ := emitOptionalColumn_of_leaf leaf
    cases named.symm.trans emitted
    exact accepts
  | optionalList leaf =>
    obtain ⟨scalar, leaf⟩ := LaicType.exists_leafScalar leaf.isLeaf
    obtain ⟨deref, named, accepts⟩ := emitOptionalColumn_list leaf
    cases named.symm.trans emitted
    exact accepts
  | map isKey isScalar =>
    have keyIs := LaicType.isScalar_of_isMapKey isKey
    obtain ⟨keyScalar, valueScalar, keyLeaf, valueLeaf⟩ := LaicType.exists_mapScalars isKey isScalar
    obtain ⟨keyDeref, valueDeref, named, accepts⟩ := emitMapColumn_of_scalar keyIs isScalar keyLeaf valueLeaf
    cases named.symm.trans emitted
    exact accepts

/-- The extraction of an accepted field type-checks in Rust unless the field is an optional list of
tensors or its default has no literal there. -/
theorem extraction_type_iff {skillName : String} {field : FieldDef} (supported : Supported field.ty)
    (checked : ∀ literal, field.default = some literal →
      validateDefaultCompat skillName field.name field.ty literal = .ok ())
    (plain : field.ty.isListOfOptional = false) {extraction : Extraction}
    (extracted : rustFieldExtraction field = .ok extraction) :
    extraction.type = some (rustType field.ty) ↔
      field.ty.isOptionalListOfTensor = false ∧
        ∀ literal, field.default = some literal → Target.rust.WritesDefault field.ty literal := by
  obtain ⟨name, ty, default⟩ := field
  have nested (isNested : ty.isScalar = false) (typed : extraction.type = some (rustType ty))
      (copied : ty.isOptionalListOfTensor = false) :
      extraction.type = some (rustType ty) ↔ ty.isOptionalListOfTensor = false ∧
        ∀ literal, default = some literal → Target.rust.WritesDefault ty literal := by
    have none := @default_eq_none skillName ⟨name, ty, default⟩ isNested checked
    exact iff_of_true typed ⟨copied, by simp [show default = Option.none from none]⟩
  cases supported with
  | @leaf ty leaf =>
    obtain ⟨scalar, carried⟩ := LaicType.exists_leafScalar leaf.isLeaf
    cases ty with
    | list | optional | map => cases carried
    | tensor =>
      cases extracted
      exact nested rfl rfl rfl
    | string | bytes | bool | i8 | i16 | i32 | i64 | u8 | f32 | f64 =>
      cases extracted
      have written (literal) (given : default = some literal) :=
        rustLiteral_isSome_iff carried (checked literal given)
      cases carried
      rw [rustType, simple_type_iff rfl]
      exact (forall₂_congr written).trans (and_iff_right rfl).symm
  | @list inner leaf =>
    have notLeaf := leaf.isLeaf
    cases inner with
    | list | optional | map => cases notLeaf
    | string | bytes | bool | i8 | i16 | i32 | i64 | u8 | f32 | f64 | tensor =>
      cases extracted
      exact nested rfl rfl rfl
  | listOptional => cases plain
  | @optional inner leaf =>
    have notLeaf := leaf.isLeaf
    cases inner with
    | list | optional | map => cases notLeaf
    | string | bytes | bool | i8 | i16 | i32 | i64 | u8 | f32 | f64 | tensor =>
      cases extracted
      exact nested rfl rfl rfl
  | @optionalList inner leaf =>
    have notLeaf := leaf.isLeaf
    cases inner with
    | list | optional | map => cases notLeaf
    | string | bytes | bool | i8 | i16 | i32 | i64 | u8 | f32 | f64 =>
      cases extracted
      exact nested rfl rfl rfl
    | tensor =>
      -- the items of the list are borrowed from the array
      cases extracted
      refine iff_of_false (fun typed => ?_) (by simp [LaicType.isOptionalListOfTensor])
      cases typed
  | @map key value isKey isScalar =>
    have keyIs := LaicType.isScalar_of_isMapKey isKey
    obtain ⟨keyScalar, valueScalar, keyLeaf, valueLeaf⟩ := LaicType.exists_mapScalars isKey isScalar
    simp only [rustFieldExtraction, emitMapExtraction, arrowArrayType_of_leaf keyLeaf,
      arrowArrayType_of_leaf valueLeaf, Except.ok_bind] at extracted
    cases extracted
    refine nested rfl ?_ rfl
    simp only [Extraction.type, mapValue_type keyIs keyLeaf, mapValue_type isScalar valueLeaf, rustType]

/-- Where the target generates code for an accepted field, this compiles exactly if in Rust the field is
no optional list of tensors, and the target has a literal for the default. -/
theorem fieldCompiles_iff (target : Target) {skillName : String} {field : FieldDef}
    (supported : Supported field.ty)
    (checked : ∀ literal, field.default = some literal →
      validateDefaultCompat skillName field.name field.ty literal = .ok ())
    (plain : target = .rust → field.ty.isListOfOptional = false) :
    target.FieldCompiles field ↔
      (target = .rust → field.ty.isOptionalListOfTensor = false) ∧
        ∀ literal, field.default = some literal → target.WritesDefault field.ty literal := by
  cases target with
  | rust =>
    have plain := plain rfl
    obtain ⟨expr, emitted⟩ := (emitToArrowColumn_eq_ok supported).mpr plain
    obtain ⟨extraction, extracted⟩ := exists_rustFieldExtraction supported
    have typed := extraction_type_iff supported checked plain extracted
    rw [imp_iff_right rfl, ← typed]
    constructor
    · intro compiles
      exact (compiles expr extraction emitted extracted).2
    · intro typed expr' extraction' emitted' extracted'
      cases extracted.symm.trans extracted'
      exact ⟨column_accepts supported emitted', typed⟩
  | python =>
    rw [and_iff_right (by simp)]
    exact forall₂_congr fun literal _ => pythonLiteral_isSome_iff
  | typescript =>
    rw [and_iff_right (by simp)]
    exact forall₂_congr fun literal given => typescriptLiteral_iff (checked literal given)

/-- The emitted struct type-checks as a whole exactly if each of its fields does. -/
theorem typeChecks_iff {structDef : StructDef} {code : RustStruct}
    (struct : generateStruct structDef = .ok code) :
    code.typeChecks = true ↔ ∀ field ∈ structDef.fields, Target.rust.FieldCompiles field := by
  simp only [generateStruct, Except.bind_eq_ok] at struct
  obtain ⟨columns, columnsMade, extractions, extractionsMade, same⟩ := struct
  cases same
  have perColumn := Except.forall_mem_of_mapM columnsMade
    (P := fun column => column.2.accepts (rustType column.1.ty) = true)
  have perExtraction := Except.forall_mem_of_mapM extractionsMade
    (P := fun extraction => extraction.2.type = some (rustType extraction.1.ty))
  simp only [RustStruct.typeChecks, Bool.and_eq_true, List.all_eq_true, beq_iff_eq]
  rw [perColumn, perExtraction, ← forall₂_and]
  refine forall₂_congr fun field inStruct => ?_
  obtain ⟨column, columnMade⟩ := Except.exists_mapM_eq_ok.mp ⟨_, columnsMade⟩ field inStruct
  obtain ⟨extraction, extractionMade⟩ := Except.exists_mapM_eq_ok.mp ⟨_, extractionsMade⟩ field inStruct
  obtain ⟨expr, emitted, sameColumn⟩ := Except.bind_eq_ok.mp columnMade
  obtain ⟨run, extracted, sameExtraction⟩ := Except.bind_eq_ok.mp extractionMade
  cases sameColumn
  cases sameExtraction
  simp only [Target.FieldCompiles, emitted, extracted, Except.ok_bind, Except.ok.injEq, forall_eq']
  constructor
  · rintro typed expr' extraction' rfl rfl
    exact typed
  · intro typed
    exact typed expr run rfl rfl

/-! ## Files -/

/-- The code of the file compiles: the texts of its contracts are read back, and each field is well
typed. -/
structure Target.FileCompiles (target : Target) (file : LaicFile) : Prop where
  texts : ∀ text ∈ file.texts, target.ReadsText text
  fields : ∀ entry ∈ file.structs, ∀ field ∈ entry.2.2.fields, target.FieldCompiles field

/-- Everything in the file has a form in the target: in Rust the version and the ids are plain and no
field is an optional list of tensors, and everywhere the defaults have literals. -/
structure Target.WritesFile (target : Target) (file : LaicFile) : Prop where
  texts : target = .rust → ∀ text ∈ file.texts, IsPlainText text
  tensors : target = .rust →
    ∀ entry ∈ file.structs, ∀ field ∈ entry.2.2.fields, field.ty.isOptionalListOfTensor = false
  defaults : ∀ entry ∈ file.structs, ∀ field ∈ entry.2.2.fields, ∀ literal,
    field.default = some literal → target.WritesDefault field.ty literal

theorem fileCompiles_iff {source : String} {file : LaicFile} (accepted : compile source = .ok file)
    {target : Target} (whole : target = .rust → ∃ structs, generateRust file = .ok structs) :
    target.FileCompiles file ↔ target.WritesFile file := by
  have perField (entry) (member : entry ∈ file.structs) (field) (inStruct : field ∈ entry.2.2.fields) :=
    fieldCompiles_iff target ((supportedStruct_of_compile accepted entry member).supported field inStruct)
      (validateDefaultCompat_of_compile accepted entry member field inStruct)
      fun rust => (generateRust_finishes_iff accepted).mp (whole rust) entry member field inStruct
  constructor
  · intro compiles
    refine ⟨fun rust text member => ?_, fun rust entry member field inStruct => ?_,
      fun entry member field inStruct => ?_⟩
    · exact (readsText_iff target text).mp (compiles.texts text member) rust
    · exact ((perField entry member field inStruct).mp (compiles.fields entry member field inStruct)).1 rust
    · exact ((perField entry member field inStruct).mp (compiles.fields entry member field inStruct)).2
  · intro writes
    refine ⟨fun text member => ?_, fun entry member field inStruct => ?_⟩
    · exact (readsText_iff target text).mpr fun rust => writes.texts rust text member
    · exact (perField entry member field inStruct).mpr
        ⟨fun rust => writes.tensors rust entry member field inStruct, writes.defaults entry member field inStruct⟩

/-- The code of the target for a struct of a file with safe names, which makes this contract. -/
structure Target.Emits [Libraries] (target : Target) (imports : List String) (file : LaicFile)
    (entry : SkillDef × String × StructDef) (contract : Contract target.Host) : Prop where
  generated : target.generate file.version entry = .ok contract
  whole : target = .rust → ∃ structs, generateRust file = .ok structs
  names : target.SafeNames imports file

/-- The code compiles, too. -/
structure Target.Provides [Libraries] (target : Target) (imports : List String) (file : LaicFile)
    (entry : SkillDef × String × StructDef) (contract : Contract target.Host) : Prop
    extends target.Emits imports file entry contract where
  compiles : target.FileCompiles file

/-! ## Checking names -/

/-- The names of a struct are found safe without regard to the order of the declarations. -/
def Target.checkStruct (imports : List String) (file : LaicFile)
    (entry : SkillDef × String × StructDef) : Target → Bool
  | .rust =>
    let names := entry.2.2.names
    decide (∀ name ∈ names, name ∉ ["Some", "None", "Ok", "Err"] ++ imports) &&
      decide ("batch" ∉ names.dropLast) &&
      decide (∀ name ∈ Target.typesRead entry.2.2 .rust, name ∉ typeNames file)
  | .python =>
    let outside := PythonNames.readsOutside entry.2.2
    decide (∀ name ∈ entry.2.2.names, name ∉ "batch" :: "classmethod" :: ["cls", "data"] ++ outside) &&
      decide (∀ name ∈ outside, name ∉ typeNames file) &&
      decide (∀ name ∈ entry.2.2.names, name ∉ Target.members .python)
  | .typescript =>
    let constants := entry.2.2.fields.flatMap TsNames.constants
    decide constants.Nodup &&
      decide (∀ name ∈ constants,
        name ∉ entry.2.2.name :: TsNames.scaffoldNames ++ TsNames.readsOutside entry.2.2) &&
      decide (∀ name ∈ TsNames.readsOutside entry.2.2 ++ Target.typesRead entry.2.2 .typescript,
        name ∉ typeNames file) &&
      decide (entry.2.2.name ∉ TsNames.scaffoldNames) &&
      decide (∀ name ∈ entry.2.2.names, name ∉ Target.members .typescript)

/-- The names of a file are found safe. -/
def Target.checkNames (target : Target) (imports : List String) (file : LaicFile) : Bool :=
  decide (typeNames file).Nodup && decide (∀ name ∈ target.scaffoldTypes, name ∉ typeNames file) &&
    file.structs.all (fun entry => target.checkStruct imports file entry) &&
    file.skills.all fun skill =>
      decide ((skill.errors.map ErrorVariant.name).Nodup) && decide (ErrorNamesApart skill.errors)

section Checked

variable {imports : List String} {source : String} {file : LaicFile} {target : Target}

theorem namesSafe_of_check {entry : SkillDef × String × StructDef}
    (checked : target.checkStruct imports file entry = true) (apart : "classmethod" ∉ typeNames file ∨
      target ≠ .python) : target.NamesSafe imports file entry := by
  cases target with
  | rust =>
    simp only [Target.checkStruct, Bool.and_eq_true, decide_eq_true_eq] at checked
    obtain ⟨⟨fields, batch⟩, types⟩ := checked
    exact ⟨fields, batch, types⟩
  | python =>
    simp only [Target.checkStruct, Bool.and_eq_true, decide_eq_true_eq] at checked
    obtain ⟨⟨fields, types⟩, members⟩ := checked
    have inNames {field : FieldDef} (inStruct : field ∈ entry.2.2.fields) : field.name ∈ entry.2.2.names :=
      List.mem_map_of_mem inStruct
    refine ⟨fun name isName listed => ?_, types, members, fun isLast => ?_, fun field inStruct _ same => ?_,
      fun field inStruct _ same => ?_, fun types before isEarlier => ?_⟩
    · exact fields name isName (List.mem_cons_of_mem _ (List.mem_cons_of_mem _ listed))
    · exact fields "batch" (List.mem_of_mem_dropLast isLast) (by simp)
    · exact fields field.name (inNames inStruct) (by simp [same])
    · exact fields field.name (inNames inStruct) (by simp [same])
    · obtain ⟨front, behind, split, rfl⟩ := before
      apply apart.resolve_right (by simp)
      rw [typeNames, split, List.map_append]
      exact List.mem_append_left _ isEarlier
  | typescript =>
    simp only [Target.checkStruct, Bool.and_eq_true, decide_eq_true_eq] at checked
    obtain ⟨⟨⟨⟨distinct, fields⟩, types⟩, struct⟩, members⟩ := checked
    exact ⟨distinct, fields, types, struct, members⟩

/-- Error names that are apart make an enum in each target. -/
theorem definesEnum_of_apart {skill : SkillDef} (named : ∀ variant ∈ skill.errors, IsIdent variant.name.toList)
    (distinct : (skill.errors.map ErrorVariant.name).Nodup) (apart : ErrorNamesApart skill.errors) :
    target.DefinesEnum skill := by
  have members : (enumMembers skill.errors).isSome = true := by simp [enumMembers, distinct]
  cases target with
  | rust => exact ⟨(variants_nodup_iff skill).mpr apart.distinct, (variants_legal_iff named).mpr apart.notSelf⟩
  | python =>
    have notMro : "mro" ∉ skill.errors.map ErrorVariant.name := by
      intro isName
      obtain ⟨variant, member, same⟩ := List.mem_map.mp isName
      exact apart.notMro variant member same
    simpa only [Target.DefinesEnum, pythonErrorEnum, if_neg notMro] using members
  | typescript => exact members

theorem safeNames_of_check (accepted : compile source = .ok file) (capitalized : Capitalized imports)
    (checked : target.checkNames imports file = true) : target.SafeNames imports file := by
  simp only [Target.checkNames, Bool.and_eq_true, decide_eq_true_eq, List.all_eq_true] at checked
  obtain ⟨⟨⟨distinct, apart⟩, structs⟩, enums⟩ := checked
  refine ⟨distinct, apart, fun entry member => ?_, fun skill member => ?_⟩
  · apply (hygienic_iff_namesSafe capitalized member (namedStruct_of_compile accepted member) target).mpr
    apply namesSafe_of_check (structs entry member)
    cases target with
    | rust | typescript => exact .inr (by simp)
    | python => exact .inl (apart "classmethod" (by simp [Target.scaffoldTypes]))
  · exact definesEnum_of_apart (named_of_compile accepted skill member).errors (enums skill member).1
      (enums skill member).2

/-- No field of the file has a default. -/
def LaicFile.hasNoDefaults (file : LaicFile) : Bool :=
  file.structs.all fun entry => entry.2.2.fields.all fun field => field.default.isNone

/-- Without defaults every file has a form in Python and TypeScript. -/
theorem writesFile_of_hasNoDefaults (notRust : target ≠ .rust) (noDefaults : file.hasNoDefaults = true) :
    target.WritesFile file := by
  refine ⟨fun rust => absurd rust notRust, fun rust => absurd rust notRust,
    fun entry member field inStruct literal default => ?_⟩
  simp only [LaicFile.hasNoDefaults, List.all_eq_true, Option.isNone_iff_eq_none] at noDefaults
  rw [noDefaults entry member field inStruct] at default
  cases default

/-- A file whose names are found safe and that has no defaults, and a field in it. -/
theorem exists_field_of_checks (source : String) (target : Target) (ty : LaicType) (notRust : target ≠ .rust)
    (checked : (compile source).toOption.any (fun file => target.checkNames [] file && file.hasNoDefaults &&
      file.structs.any fun entry => entry.2.2.fields.any fun field => field.ty == ty) = true) :
    ∃ file, compile source = .ok file ∧ target.checkNames [] file = true ∧ target.WritesFile file ∧
      ∃ entry ∈ file.structs, ∃ field ∈ entry.2.2.fields, field.ty = ty := by
  obtain ⟨file, accepted, found⟩ := Except.exists_of_any checked
  simp only [Bool.and_eq_true, List.any_eq_true, beq_iff_eq] at found
  obtain ⟨⟨names, noDefaults⟩, entry, member, field, inStruct, isType⟩ := found
  exact ⟨file, accepted, names, writesFile_of_hasNoDefaults notRust noDefaults, entry, member, field, inStruct,
    isType⟩

variable [Libraries]

/-- Rust code is emitted where no field is a list of optional items. -/
theorem emits_rust (accepted : compile source = .ok file) (checked : Target.rust.checkNames [] file = true)
    (plain : ∀ entry ∈ file.structs, ∀ field ∈ entry.2.2.fields, field.ty.isListOfOptional = false)
    {entry : SkillDef × String × StructDef} (member : entry ∈ file.structs) :
    ∃ contract, Target.rust.Emits [] file entry contract := by
  have supported := supportedStruct_of_compile accepted entry member
  obtain ⟨code, struct⟩ := (exists_generateStruct supported).mpr (plain entry member)
  refine ⟨code.contract (schemaMetadata entry.1.id file.version entry.2.1), ?_,
    fun _ => (generateRust_finishes_iff accepted).mpr plain,
    safeNames_of_check accepted (List.forall_mem_nil _) checked⟩
  simp only [Target.generate, struct]
  rfl

theorem emits_python (accepted : compile source = .ok file)
    (checked : Target.python.checkNames [] file = true) (entry : SkillDef × String × StructDef) :
    Target.python.Emits [] file entry
      (pythonContract entry.2.2 (schemaMetadata entry.1.id file.version entry.2.1)) :=
  ⟨rfl, by simp, safeNames_of_check accepted (List.forall_mem_nil _) checked⟩

theorem emits_typescript (accepted : compile source = .ok file)
    (checked : Target.typescript.checkNames [] file = true) (entry : SkillDef × String × StructDef) :
    Target.typescript.Emits [] file entry
      (typescriptContract entry.2.2 (schemaMetadata entry.1.id file.version entry.2.1)) :=
  ⟨rfl, by simp, safeNames_of_check accepted (List.forall_mem_nil _) checked⟩

theorem Target.Emits.provides {entry : SkillDef × String × StructDef} {contract : Contract target.Host}
    (emits : target.Emits imports file entry contract) (accepted : compile source = .ok file)
    (writes : target.WritesFile file) : target.Provides imports file entry contract :=
  ⟨emits, (fileCompiles_iff accepted emits.whole).mpr writes⟩

end Checked

end Laic
