import Laic.Idl.Parser

/-! # Semantic validation

The checks on a parsed file, in the order the source makes them and with the texts of
their errors; `compile` is `parse` followed by them.  The second half says what an
accepted type looks like. -/

namespace Laic

open Except (ensure)

/-! ## Identifiers -/

/-- The keywords of the three target languages. -/
def reservedCodegenIdentifiers : List String :=
  ["abstract", "as", "async", "await", "become", "box", "break", "const", "continue", "crate",
    "do", "dyn", "else", "enum", "extern", "false", "final", "fn", "for", "gen", "if", "impl",
    "in", "let", "loop", "macro", "match", "mod", "move", "mut", "override", "priv", "pub", "ref",
    "return", "Self", "self", "static", "struct", "super", "trait", "true", "try", "type",
    "typeof", "union", "unsafe", "unsized", "use", "virtual", "where", "while", "yield", "False",
    "None", "True", "and", "assert", "class", "def", "del", "elif", "except", "finally", "from",
    "global", "import", "is", "lambda", "nonlocal", "not", "or", "pass", "raise", "with", "any",
    "arguments", "boolean", "case", "catch", "constructor", "debugger", "declare", "default",
    "delete", "eval", "export", "extends", "function", "get", "implements", "infer", "instanceof",
    "interface", "keyof", "module", "namespace", "new", "never", "null", "number", "object", "of",
    "package", "private", "protected", "public", "readonly", "require", "set", "string", "switch",
    "symbol", "this", "throw", "undefined", "unique", "unknown", "var", "void"]

def isReservedCodegenIdentifier (identifier : String) : Bool :=
  reservedCodegenIdentifiers.any (· == identifier)

def validateCodegenIdentifier (skillName context identifier : String) :
    Except CompileError Unit :=
  ensure (¬ isReservedCodegenIdentifier identifier)
    (.validation s!"skill '{skillName}': {context} '{identifier}' is a reserved codegen identifier")

/-! ## Types -/

/-- A leaf type is one that a generator can map to an Arrow builder or array directly. -/
def isLeafType : LaicType → Bool
  | .string | .bytes | .bool | .i8 | .i16 | .i32 | .i64 | .u8 | .f32 | .f64 | .tensor _ _ => true
  | .list _ | .optional _ | .map _ _ => false

def LaicType.isList : LaicType → Bool
  | .list _ => true
  | _ => false

def LaicType.isOptional : LaicType → Bool
  | .optional _ => true
  | _ => false

def LaicType.isMap : LaicType → Bool
  | .map _ _ => true
  | _ => false

def Dimension.isDynamic : Dimension → Bool
  | .dynamic _ => true
  | .fixed _ => false

/-- The type under an `optional`. -/
def LaicType.optionalInner : LaicType → Option LaicType
  | .optional inner => some inner
  | _ => none

/-- The type under a `list`. -/
def LaicType.listInner : LaicType → Option LaicType
  | .list inner => some inner
  | _ => none

/-- A tensor with at least one dynamic dimension. -/
def LaicType.isDynamicTensor : LaicType → Bool
  | .tensor _ dims => dims.any Dimension.isDynamic
  | _ => false

def validateTensorDimensions (skillName fieldName : String) (dims : List Dimension) :
    Except CompileError Unit := do
  ensure (dims ≠ [])
    (.validation s!"skill '{skillName}': tensor field '{fieldName}' must have at least one dimension")
  ensure (¬ dims.any (· == .fixed 0))
    (.validation s!"skill '{skillName}': tensor field '{fieldName}' cannot use fixed dimension 0")

def validateMapTypeConstraints (skillName fieldName : String) (key value : LaicType) :
    Except CompileError Unit := do
  match key with
  | .string | .bool | .i8 | .i16 | .i32 | .i64 | .u8 => .ok ()
  | _ =>
    .error (.validation
      s!"skill '{skillName}': field '{fieldName}': map key must be string, bool, or integer type")
  match value with
  | .string | .bytes | .bool | .i8 | .i16 | .i32 | .i64 | .u8 | .f32 | .f64 => .ok ()
  | _ =>
    .error (.validation
      s!"skill '{skillName}': field '{fieldName}': map value must be a scalar type")

/-- The checks on the parameter of `list<…>`, before its own constraints. -/
def validateListTypeConstraints (skillName fieldName : String) (inner : LaicType) :
    Except CompileError Unit := do
  ensure (¬ inner.isList)
    (.validation s!"skill '{skillName}': field '{fieldName}': nested list<list<T>> is not supported")
  ensure (¬ inner.isDynamicTensor)
    (.validation s!"skill '{skillName}': field '{fieldName}': list<tensor<...>> with dynamic dimensions is not supported")
  ensure (¬ inner.isMap)
    (.validation s!"skill '{skillName}': field '{fieldName}': list<map<...>> is not supported")
  ensure (inner.optionalInner.all isLeafType)
    (.validation s!"skill '{skillName}': field '{fieldName}': list<optional<T>> requires T to be a scalar, string, bytes, or tensor type")

/-- The checks on the parameter of `optional<…>`, before its own constraints. -/
def validateOptionalTypeConstraints (skillName fieldName : String) (inner : LaicType) :
    Except CompileError Unit := do
  ensure (¬ inner.isOptional)
    (.validation s!"skill '{skillName}': field '{fieldName}': nested optional<optional<T>> is not supported")
  ensure (¬ inner.isDynamicTensor)
    (.validation s!"skill '{skillName}': field '{fieldName}': optional<tensor<...>> with dynamic dimensions is not supported")
  ensure (¬ inner.isMap)
    (.validation s!"skill '{skillName}': field '{fieldName}': optional<map<...>> is not supported")
  ensure (inner.listInner.all isLeafType)
    (.validation s!"skill '{skillName}': field '{fieldName}': optional<list<T>> requires T to be a scalar, string, bytes, or tensor type")

/-- Constraints on a parameterized type.  The call on the parameter stands here, at the
end of the two helpers in the source. -/
def validateFieldType (skillName fieldName : String) : LaicType → Except CompileError Unit
  | .tensor _ dims => validateTensorDimensions skillName fieldName dims
  | .list inner => do
    validateListTypeConstraints skillName fieldName inner
    validateFieldType skillName fieldName inner
  | .optional inner => do
    validateOptionalTypeConstraints skillName fieldName inner
    validateFieldType skillName fieldName inner
  | .map key value => validateMapTypeConstraints skillName fieldName key value
  | _ => .ok ()

/-! ## Defaults -/

/-- The types that cannot have a default. -/
def LaicType.hasNoDefault : LaicType → Bool
  | .tensor _ _ | .list _ | .optional _ | .bytes | .map _ _ => true
  | _ => false

/-- The kinds of literal a field of each type may default to. -/
def defaultCompatible : LaicType → Literal → Bool
  | .string, .string _ => true
  | .bool, .bool _ => true
  | .i8, .integer _ | .i16, .integer _ | .i32, .integer _ | .i64, .integer _ | .u8, .integer _
  | .f32, .integer _ | .f64, .integer _ => true
  | .f32, .float _ | .f64, .float _ => true
  | _, _ => false

def integerDefaultBounds : LaicType → Option (String × Int × Int)
  | .i8 => some ("i8", -128, 127)
  | .i16 => some ("i16", -32768, 32767)
  | .i32 => some ("i32", -2147483648, 2147483647)
  | .u8 => some ("u8", 0, 255)
  | _ => none

def validateDefaultCompat (skillName fieldName : String) (ty : LaicType) (default : Literal) :
    Except CompileError Unit := do
  ensure (¬ ty.hasNoDefault)
    (.validation ("skill '" ++ skillName ++ "': field '" ++ fieldName ++ "' of type " ++ ty.debug ++
      " cannot have a default value"))
  ensure (defaultCompatible ty default)
    (.validation s!"skill '{skillName}': field '{fieldName}' has incompatible default value type")
  match default, integerDefaultBounds ty with
  | .integer value, some (typeName, min, max) =>
    ensure (min ≤ value.toInt ∧ value.toInt ≤ max)
      (.validation ("skill '" ++ skillName ++ "': field '" ++ fieldName ++ "' default value " ++
        toString value.toInt ++ " is out of range for " ++ typeName ++ " (" ++ toString min ++
        "..=" ++ toString max ++ ")"))
  | _, _ => .ok ()

/-! ## Fields, structs, errors -/

def validateField (skillName : String) (field : FieldDef) : Except CompileError Unit := do
  validateCodegenIdentifier skillName "field name" field.name
  match field.default with
  | some default => validateDefaultCompat skillName field.name field.ty default
  | none => .ok ()
  validateFieldType skillName field.name field.ty

/-- The fields in order; `seen` are the names before them. -/
def validateFields (skillName direction structName : String) :
    List String → List FieldDef → Except CompileError Unit
  | _, [] => .ok ()
  | seen, field :: fields => do
    ensure (field.name ∉ seen)
      (.validation ("skill '" ++ skillName ++ "': duplicate field '" ++ field.name ++ "' in " ++
        direction ++ " struct '" ++ structName ++ "'"))
    validateField skillName field
    validateFields skillName direction structName (field.name :: seen) fields

def validateStruct (skillName direction : String) (structDef : StructDef) :
    Except CompileError Unit := do
  ensure (structDef.name ≠ "")
    (.validation s!"skill '{skillName}': {direction} struct name must not be empty")
  ensure (structDef.fields ≠ [])
    (.validation ("skill '" ++ skillName ++ "': " ++ direction ++ " struct '" ++ structDef.name ++
      "' must have at least one field"))
  validateCodegenIdentifier skillName s!"{direction} struct name" structDef.name
  validateFields skillName direction structDef.name [] structDef.fields

/-- The variants in order; `names` and `codes` are those before them. -/
def validateErrorsFrom (skillName : String) :
    List String → List UInt16 → List ErrorVariant → Except CompileError Unit
  | _, _, [] => .ok ()
  | names, codes, variant :: errors => do
    validateCodegenIdentifier skillName "error name" variant.name
    ensure (variant.name ∉ names)
      (.validation ("skill '" ++ skillName ++ "': duplicate error name '" ++ variant.name ++ "'"))
    ensure (variant.code ≠ 0)
      (.validation ("skill '" ++ skillName ++ "': error code must be positive, got 0 for '" ++
        variant.name ++ "'"))
    ensure (variant.code ∉ codes)
      (.validation ("skill '" ++ skillName ++ "': duplicate error code " ++ toString variant.code ++
        " for '" ++ variant.name ++ "'"))
    validateErrorsFrom skillName (variant.name :: names) (variant.code :: codes) errors

def validateErrors (skillName : String) (errors : List ErrorVariant) :
    Except CompileError Unit :=
  validateErrorsFrom skillName [] [] errors

/-! ## Skills and files -/

/-- What one skill must satisfy on its own. -/
def validateSkill (skill : SkillDef) : Except CompileError Unit := do
  ensure (skill.id ≠ "")
    (.validation ("skill '" ++ skill.name ++ "': id must not be empty"))
  validateCodegenIdentifier skill.name "skill name" skill.name
  validateStruct skill.name "input" skill.input
  validateStruct skill.name "output" skill.output
  validateErrors skill.name skill.errors

/-- The skills in order; `names` and `ids` are those before them. -/
def validateSkills : List String → List String → List SkillDef → Except CompileError Unit
  | _, _, [] => .ok ()
  | names, ids, skill :: skills => do
    ensure (skill.name ∉ names)
      (.validation ("duplicate skill name: '" ++ skill.name ++ "'"))
    ensure (skill.id ∉ ids)
      (.validation ("duplicate skill id: '" ++ skill.id ++ "'"))
    validateSkill skill
    validateSkills (skill.name :: names) (skill.id :: ids) skills

def validate (file : LaicFile) : Except CompileError Unit := do
  ensure (file.version ≠ "") (.validation "version string must not be empty")
  ensure (file.skills ≠ []) (.validation "file must contain at least one skill definition")
  validateSkills [] [] file.skills

/-- Parse and validate a source text. -/
def compile (source : String) : Except CompileError LaicFile := do
  let file ← parse source
  validate file
  .ok file

/-! ## Accepted types -/

/-- The types that map keys may have. -/
def LaicType.isMapKey : LaicType → Bool
  | .string | .bool | .i8 | .i16 | .i32 | .i64 | .u8 => true
  | _ => false

/-- Scalars, strings and bytes. -/
def LaicType.isScalar : LaicType → Bool
  | .string | .bytes | .bool | .i8 | .i16 | .i32 | .i64 | .u8 | .f32 | .f64 => true
  | _ => false

/-- A leaf type whose tensor, if it is one, has dimensions and no fixed zero. -/
structure SupportedLeaf (ty : LaicType) : Prop where
  isLeaf : isLeafType ty = true
  dims_ne_nil : ∀ dtype dims, ty = .tensor dtype dims → dims ≠ []
  fixed_ne_zero : ∀ dtype dims, ty = .tensor dtype dims → Dimension.fixed 0 ∉ dims

/-- The types validation lets through. -/
inductive Supported : LaicType → Prop where
  | leaf {ty : LaicType} (leaf : SupportedLeaf ty) : Supported ty
  | list {ty : LaicType} (leaf : SupportedLeaf ty) : Supported (.list ty)
  | listOptional {ty : LaicType} (leaf : SupportedLeaf ty) : Supported (.list (.optional ty))
  | optional {ty : LaicType} (leaf : SupportedLeaf ty) : Supported (.optional ty)
  | optionalList {ty : LaicType} (leaf : SupportedLeaf ty) : Supported (.optional (.list ty))
  | map {key value : LaicType} (isKey : key.isMapKey = true) (isScalar : value.isScalar = true) :
      Supported (.map key value)

theorem SupportedLeaf.of_scalar {ty : LaicType} (isScalar : ty.isScalar = true) :
    SupportedLeaf ty := by
  cases ty with
  | string | bytes | bool | i8 | i16 | i32 | i64 | u8 | f32 | f64 =>
    exact ⟨rfl, fun _ _ equal => (nomatch equal), fun _ _ equal => (nomatch equal)⟩
  | tensor | list | optional | map => cases isScalar

theorem LaicType.isScalar_of_isMapKey {ty : LaicType} (isKey : ty.isMapKey = true) :
    ty.isScalar = true := by
  cases ty <;> first | rfl | cases isKey

/-- A leaf type that validation lets through. -/
theorem supportedLeaf_of_validate {skillName fieldName : String} {ty : LaicType}
    (isLeaf : isLeafType ty = true)
    (accepted : validateFieldType skillName fieldName ty = .ok ()) : SupportedLeaf ty := by
  by_cases isScalar : ty.isScalar = true
  · exact .of_scalar isScalar
  · cases ty with
    | string | bytes | bool | i8 | i16 | i32 | i64 | u8 | f32 | f64 => exact absurd rfl isScalar
    | list | optional | map => cases isLeaf
    | tensor dtype dims =>
      simp only [validateFieldType, validateTensorDimensions, Except.bind_eq_ok,
        Except.ensure_eq_ok] at accepted
      obtain ⟨_, nonempty, positive⟩ := accepted
      refine ⟨rfl, ?_, ?_⟩
      · intro dtype' dims' equal
        cases equal
        exact nonempty
      · intro dtype' dims' equal member
        cases equal
        exact positive (List.any_eq_true.mpr ⟨_, member, by simp⟩)

/-- Validation lets through nothing but the types of `Supported`. -/
theorem supported_of_validate {skillName fieldName : String} {ty : LaicType}
    (accepted : validateFieldType skillName fieldName ty = .ok ()) : Supported ty := by
  cases ty with
  | string | bytes | bool | i8 | i16 | i32 | i64 | u8 | f32 | f64 | tensor =>
    exact .leaf (supportedLeaf_of_validate rfl accepted)
  | list inner =>
    simp only [validateFieldType, validateListTypeConstraints, Except.bind_eq_ok,
      Except.ensure_eq_ok] at accepted
    obtain ⟨_, ⟨_, notList, _, _, _, notMap, leaf⟩, inside⟩ := accepted
    cases inner with
    | string | bytes | bool | i8 | i16 | i32 | i64 | u8 | f32 | f64 | tensor =>
      exact .list (supportedLeaf_of_validate rfl inside)
    | list => exact absurd rfl notList
    | map => exact absurd rfl notMap
    | optional innermost =>
      simp only [validateFieldType, Except.bind_eq_ok] at inside
      obtain ⟨_, _, inside⟩ := inside
      exact .listOptional (supportedLeaf_of_validate leaf inside)
  | optional inner =>
    simp only [validateFieldType, validateOptionalTypeConstraints, Except.bind_eq_ok,
      Except.ensure_eq_ok] at accepted
    obtain ⟨_, ⟨_, notOptional, _, _, _, notMap, leaf⟩, inside⟩ := accepted
    cases inner with
    | string | bytes | bool | i8 | i16 | i32 | i64 | u8 | f32 | f64 | tensor =>
      exact .optional (supportedLeaf_of_validate rfl inside)
    | optional => exact absurd rfl notOptional
    | map => exact absurd rfl notMap
    | list innermost =>
      simp only [validateFieldType, Except.bind_eq_ok] at inside
      obtain ⟨_, _, inside⟩ := inside
      exact .optionalList (supportedLeaf_of_validate leaf inside)
  | map key value =>
    simp only [validateFieldType, validateMapTypeConstraints] at accepted
    cases key <;> cases value <;> first | exact .map rfl rfl | cases accepted

/-! ## Accepted files -/

/-- The structs of a file: the input and the output of every skill, with the skill and the
direction. -/
def LaicFile.structs (file : LaicFile) : List (SkillDef × String × StructDef) :=
  file.skills.flatMap fun skill => [(skill, "input", skill.input), (skill, "output", skill.output)]

/-- What validation guarantees of a struct. -/
structure SupportedStruct (structDef : StructDef) : Prop where
  fields_ne_nil : structDef.fields ≠ []
  names_nodup : (structDef.fields.map FieldDef.name).Nodup
  supported : ∀ field ∈ structDef.fields, Supported field.ty

theorem validateFields_eq_ok {skillName direction structName : String} {seen : List String}
    {fields : List FieldDef}
    (accepted : validateFields skillName direction structName seen fields = .ok ()) :
    (fields.map FieldDef.name).Nodup ∧ (∀ field ∈ fields, field.name ∉ seen) ∧
      ∀ field ∈ fields, validateField skillName field = .ok () := by
  induction fields generalizing seen with
  | nil => simp
  | cons field fields ih =>
    simp only [validateFields, Except.bind_eq_ok, Except.ensure_eq_ok] at accepted
    obtain ⟨_, fresh, _, valid, rest⟩ := accepted
    obtain ⟨nodup, unseen, valids⟩ := ih rest
    refine ⟨?_, ?_, ?_⟩
    · rw [List.map_cons, List.nodup_cons]
      refine ⟨fun member => ?_, nodup⟩
      obtain ⟨field', member, same⟩ := List.mem_map.mp member
      exact unseen field' member (same ▸ List.mem_cons_self)
    · intro field' member
      cases member with
      | head => exact fresh
      | tail _ member => exact fun seen => unseen field' member (List.mem_cons_of_mem _ seen)
    · intro field' member
      cases member with
      | head => exact valid
      | tail _ member => exact valids field' member

theorem supported_of_validateField {skillName : String} {field : FieldDef}
    (accepted : validateField skillName field = .ok ()) : Supported field.ty := by
  unfold validateField at accepted
  cases default : field.default with
  | none =>
    simp only [default, Except.bind_eq_ok] at accepted
    obtain ⟨_, _, _, _, type⟩ := accepted
    exact supported_of_validate type
  | some literal =>
    simp only [default, Except.bind_eq_ok] at accepted
    obtain ⟨_, _, _, _, type⟩ := accepted
    exact supported_of_validate type

theorem supportedStruct_of_validate {skillName direction : String} {structDef : StructDef}
    (accepted : validateStruct skillName direction structDef = .ok ()) :
    SupportedStruct structDef := by
  simp only [validateStruct, Except.bind_eq_ok, Except.ensure_eq_ok] at accepted
  obtain ⟨_, _, _, nonempty, _, _, fields⟩ := accepted
  obtain ⟨nodup, -, valid⟩ := validateFields_eq_ok fields
  exact ⟨nonempty, nodup, fun field member => supported_of_validateField (valid field member)⟩

theorem validateSkills_eq_ok {names ids : List String} {skills : List SkillDef}
    (accepted : validateSkills names ids skills = .ok ()) :
    ∀ skill ∈ skills, validateSkill skill = .ok () := by
  induction skills generalizing names ids with
  | nil => simp
  | cons skill skills ih =>
    simp only [validateSkills, Except.bind_eq_ok] at accepted
    obtain ⟨_, _, _, _, _, valid, rest⟩ := accepted
    intro skill' member
    cases member with
    | head => exact valid
    | tail _ member => exact ih rest skill' member

/-- Every skill of an accepted file passes its own checks. -/
theorem validateSkill_of_compile {source : String} {file : LaicFile}
    (accepted : compile source = .ok file) : ∀ skill ∈ file.skills, validateSkill skill = .ok () := by
  simp only [compile, Except.bind_eq_ok] at accepted
  obtain ⟨parsed, _, _, valid, same⟩ := accepted
  cases same
  simp only [validate, Except.bind_eq_ok] at valid
  obtain ⟨_, _, _, _, skills⟩ := valid
  exact validateSkills_eq_ok skills

theorem validateStruct_of_compile {source : String} {file : LaicFile}
    (accepted : compile source = .ok file) :
    ∀ entry ∈ file.structs, validateStruct entry.1.name entry.2.1 entry.2.2 = .ok () := by
  intro entry member
  obtain ⟨skill, inSkills, inStructs⟩ := List.mem_flatMap.mp member
  have checked := validateSkill_of_compile accepted skill inSkills
  simp only [validateSkill, Except.bind_eq_ok] at checked
  obtain ⟨_, _, _, _, _, input, _, output, _⟩ := checked
  simp only [List.mem_cons, List.not_mem_nil, or_false] at inStructs
  obtain rfl | rfl := inStructs
  · exact input
  · exact output

/-- Every default of an accepted file is compatible with its field's type and in range. -/
theorem validateDefaultCompat_of_compile {source : String} {file : LaicFile}
    (accepted : compile source = .ok file) :
    ∀ entry ∈ file.structs, ∀ field ∈ entry.2.2.fields, ∀ literal, field.default = some literal →
      validateDefaultCompat entry.1.name field.name field.ty literal = .ok () := by
  intro entry inFile field inStruct literal default
  have checked := validateStruct_of_compile accepted entry inFile
  simp only [validateStruct, Except.bind_eq_ok, Except.ensure_eq_ok] at checked
  obtain ⟨_, _, _, _, _, _, fields⟩ := checked
  have valid := (validateFields_eq_ok fields).2.2 field inStruct
  simp only [validateField, default, Except.bind_eq_ok] at valid
  obtain ⟨_, _, _, compatible, _⟩ := valid
  exact compatible

/-- Every struct of an accepted file is well formed. -/
theorem supportedStruct_of_compile {source : String} {file : LaicFile}
    (accepted : compile source = .ok file) :
    ∀ entry ∈ file.structs, SupportedStruct entry.2.2 :=
  fun entry member => supportedStruct_of_validate (validateStruct_of_compile accepted entry member)

/-- Somewhere in the file of a source there is a field with a property, found by a run of the compiler. -/
theorem exists_field_of_any {source : String} {P : FieldDef → Prop} [DecidablePred P]
    (found : (compile source).toOption.any (fun file =>
      file.structs.any fun entry => entry.2.2.fields.any fun field => decide (P field)) = true) :
    ∃ file, compile source = .ok file ∧ ∃ entry ∈ file.structs, ∃ field ∈ entry.2.2.fields, P field := by
  obtain ⟨file, accepted, found⟩ := Except.exists_of_any found
  obtain ⟨entry, member, found⟩ := List.any_eq_true.mp found
  obtain ⟨field, inStruct, found⟩ := List.any_eq_true.mp found
  exact ⟨file, accepted, entry, member, field, inStruct, of_decide_eq_true found⟩

end Laic
