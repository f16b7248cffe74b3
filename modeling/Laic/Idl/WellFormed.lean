import Laic.Idl.TypeLanguage

/-! # Well-formed files

What a contract has to satisfy, said without an order of checks and without the names seen so
far.  `validate_eq_ok` says that validation lets through the well-formed files and no others. -/

namespace Laic

open Except (ensure)

/-! ## Lists read behind what was seen -/

section Fresh

variable {α : Type} {seen : List α} {x : α} {xs : List α}

/-- The elements are distinct and none of them was seen. -/
def Fresh (seen xs : List α) : Prop := xs.Nodup ∧ ∀ x ∈ xs, x ∉ seen

/-- One element is checked against what was seen, and is seen by those behind it. -/
theorem fresh_cons : Fresh seen (x :: xs) ↔ x ∉ seen ∧ Fresh (x :: seen) xs := by
  rw [Fresh, Fresh, List.nodup_cons, List.forall_mem_cons]
  simp only [List.mem_cons, not_or]
  constructor
  · intro given
    obtain ⟨⟨first, nodup⟩, unseen, others⟩ := given
    exact ⟨unseen, nodup, fun y member => ⟨fun same => first (same ▸ member), others y member⟩⟩
  · intro given
    obtain ⟨unseen, nodup, others⟩ := given
    exact ⟨⟨fun member => (others x member).1 rfl, nodup⟩, unseen, fun y member => (others y member).2⟩

theorem fresh_nil_left : Fresh [] xs ↔ xs.Nodup := by simp [Fresh]

theorem fresh_nil_right : Fresh seen ([] : List α) := by simp [Fresh]

end Fresh

/-! ## Fields -/

/-- The literals that a field of each type may default to. -/
inductive DefaultFits : LaicType → Literal → Prop where
  | string (text : String) : DefaultFits .string (.string text)
  | bool (value : Bool) : DefaultFits .bool (.bool value)
  | i8 {value : Int64} (low : -2 ^ 7 ≤ value.toInt) (high : value.toInt < 2 ^ 7) :
      DefaultFits .i8 (.integer value)
  | i16 {value : Int64} (low : -2 ^ 15 ≤ value.toInt) (high : value.toInt < 2 ^ 15) :
      DefaultFits .i16 (.integer value)
  | i32 {value : Int64} (low : -2 ^ 31 ≤ value.toInt) (high : value.toInt < 2 ^ 31) :
      DefaultFits .i32 (.integer value)
  | i64 (value : Int64) : DefaultFits .i64 (.integer value)
  | u8 {value : Int64} (low : 0 ≤ value.toInt) (high : value.toInt < 2 ^ 8) :
      DefaultFits .u8 (.integer value)
  -- a float may be given as a whole number
  | f32Integer (value : Int64) : DefaultFits .f32 (.integer value)
  | f64Integer (value : Int64) : DefaultFits .f64 (.integer value)
  | f32 (value : F64) : DefaultFits .f32 (.float value)
  | f64 (value : F64) : DefaultFits .f64 (.float value)

theorem validateDefaultCompat_eq_ok {skillName fieldName : String} {ty : LaicType} {default : Literal}
    {checked : Unit} :
    validateDefaultCompat skillName fieldName ty default = .ok checked ↔ DefaultFits ty default := by
  constructor
  · intro valid
    simp only [validateDefaultCompat, Except.bind_eq_ok, Except.ensure_eq_ok] at valid
    obtain ⟨_, _, _, compatible, inBounds⟩ := valid
    cases default with
    | string text =>
      cases ty with
      | string => exact .string text
      | _ => cases compatible
    | bool value =>
      cases ty with
      | bool => exact .bool value
      | _ => cases compatible
    | float value =>
      cases ty with
      | f32 => exact .f32 value
      | f64 => exact .f64 value
      | _ => cases compatible
    | integer value =>
      -- the bounds of the source are inclusive
      cases ty with
      | i8 | i16 | i32 | u8 =>
        simp only [integerDefaultBounds, Except.ensure_eq_ok] at inBounds
        constructor <;> omega
      | i64 => exact .i64 value
      | f32 => exact .f32Integer value
      | f64 => exact .f64Integer value
      | _ => cases compatible
  · intro fits
    cases fits with
    | i8 low high | i16 low high | i32 low high | u8 low high =>
      simp only [validateDefaultCompat, LaicType.hasNoDefault, defaultCompatible, integerDefaultBounds,
        Except.bind_eq_ok, Except.ensure_eq_ok]
      exact ⟨(), by simp, (), by simp, by omega, by omega⟩
    | _ => rfl

/-- A field is well formed. -/
structure FieldDef.WellFormed (field : FieldDef) : Prop where
  name_ok : isReservedCodegenIdentifier field.name = false
  type_ok : InLanguage field.ty
  default_ok : ∀ literal, field.default = some literal → DefaultFits field.ty literal

theorem validateCodegenIdentifier_eq_ok {skillName context identifier : String} {checked : Unit} :
    validateCodegenIdentifier skillName context identifier = .ok checked ↔
      isReservedCodegenIdentifier identifier = false := by
  simp [validateCodegenIdentifier]

theorem validateFieldType_iff_inLanguage {skillName fieldName : String} {ty : LaicType}
    {checked : Unit} : validateFieldType skillName fieldName ty = .ok checked ↔ InLanguage ty :=
  ⟨inLanguage_of_validate, InLanguage.validateFieldType⟩

theorem validateField_eq_ok {skillName : String} {field : FieldDef} {checked : Unit} :
    validateField skillName field = .ok checked ↔ field.WellFormed := by
  obtain ⟨name, ty, default⟩ := field
  constructor
  · intro valid
    cases default with
    | none =>
      simp only [validateField, Except.bind_eq_ok, validateCodegenIdentifier_eq_ok,
        validateFieldType_iff_inLanguage] at valid
      obtain ⟨_, unreserved, _, _, type⟩ := valid
      refine ⟨unreserved, type, fun _ found => ?_⟩
      cases found
    | some literal =>
      simp only [validateField, Except.bind_eq_ok, validateCodegenIdentifier_eq_ok,
        validateFieldType_iff_inLanguage, validateDefaultCompat_eq_ok] at valid
      obtain ⟨_, unreserved, _, fits, type⟩ := valid
      refine ⟨unreserved, type, fun other found => ?_⟩
      cases found
      exact fits
  · intro ⟨unreserved, type, fits⟩
    have identifier : validateCodegenIdentifier skillName "field name" name = .ok () :=
      validateCodegenIdentifier_eq_ok.mpr unreserved
    have accepted : validateFieldType skillName name ty = .ok checked :=
      validateFieldType_iff_inLanguage.mpr type
    cases default with
    | none => simp only [validateField, identifier, accepted, Except.ok_bind]
    | some literal =>
      have compatible : validateDefaultCompat skillName name ty literal = .ok () :=
        validateDefaultCompat_eq_ok.mpr (fits literal rfl)
      simp only [validateField, identifier, compatible, accepted, Except.ok_bind]

/-! ## Structs -/

theorem validateFields_iff {skillName direction structName : String} {seen : List String}
    {fields : List FieldDef} {checked : Unit} :
    validateFields skillName direction structName seen fields = .ok checked ↔
      Fresh seen (fields.map FieldDef.name) ∧ ∀ field ∈ fields, field.WellFormed := by
  induction fields generalizing seen with
  | nil => simp [validateFields, fresh_nil_right]
  | cons field fields ih =>
    rw [List.map_cons, fresh_cons, List.forall_mem_cons]
    simp only [validateFields, Except.bind_eq_ok, Except.ensure_eq_ok, validateField_eq_ok, ih]
    constructor
    · intro given
      obtain ⟨_, unseen, _, first, fresh, others⟩ := given
      exact ⟨⟨unseen, fresh⟩, first, others⟩
    · intro given
      obtain ⟨⟨unseen, fresh⟩, first, others⟩ := given
      exact ⟨(), unseen, (), first, fresh, others⟩

/-- A struct has a name and fields, and the fields have different names. -/
structure StructDef.WellFormed (structDef : StructDef) : Prop where
  name_ne_empty : structDef.name ≠ ""
  name_ok : isReservedCodegenIdentifier structDef.name = false
  fields_ne_nil : structDef.fields ≠ []
  names_nodup : (structDef.fields.map FieldDef.name).Nodup
  fields_ok : ∀ field ∈ structDef.fields, field.WellFormed

theorem validateStruct_eq_ok {skillName direction : String} {structDef : StructDef} {checked : Unit} :
    validateStruct skillName direction structDef = .ok checked ↔ structDef.WellFormed := by
  simp only [validateStruct, Except.bind_eq_ok, Except.ensure_eq_ok, validateCodegenIdentifier_eq_ok,
    validateFields_iff, fresh_nil_left]
  constructor
  · intro ⟨_, named, _, nonempty, _, unreserved, nodup, fields⟩
    exact ⟨named, unreserved, nonempty, nodup, fields⟩
  · intro wellFormed
    exact ⟨(), wellFormed.name_ne_empty, (), wellFormed.fields_ne_nil, (), wellFormed.name_ok,
      wellFormed.names_nodup, wellFormed.fields_ok⟩

/-! ## Errors -/

/-- The variants of an error block have different names and different codes, none of them zero. -/
structure ErrorsWellFormed (errors : List ErrorVariant) : Prop where
  names_ok : ∀ variant ∈ errors, isReservedCodegenIdentifier variant.name = false
  names_nodup : (errors.map ErrorVariant.name).Nodup
  codes_ne_zero : ∀ variant ∈ errors, variant.code ≠ 0
  codes_nodup : (errors.map ErrorVariant.code).Nodup

theorem validateErrorsFrom_iff {skillName : String} {names : List String} {codes : List UInt16}
    {errors : List ErrorVariant} {checked : Unit} :
    validateErrorsFrom skillName names codes errors = .ok checked ↔
      Fresh names (errors.map ErrorVariant.name) ∧ Fresh codes (errors.map ErrorVariant.code) ∧
        ∀ variant ∈ errors, isReservedCodegenIdentifier variant.name = false ∧ variant.code ≠ 0 := by
  induction errors generalizing names codes with
  | nil => simp [validateErrorsFrom, fresh_nil_right]
  | cons variant errors ih =>
    rw [List.map_cons, List.map_cons, fresh_cons, fresh_cons, List.forall_mem_cons]
    simp only [validateErrorsFrom, Except.bind_eq_ok, Except.ensure_eq_ok,
      validateCodegenIdentifier_eq_ok, ih]
    constructor
    · intro given
      obtain ⟨_, unreserved, _, newName, _, positive, _, newCode, freshNames, freshCodes, others⟩ := given
      exact ⟨⟨newName, freshNames⟩, ⟨newCode, freshCodes⟩, ⟨unreserved, positive⟩, others⟩
    · intro given
      obtain ⟨⟨newName, freshNames⟩, ⟨newCode, freshCodes⟩, ⟨unreserved, positive⟩, others⟩ := given
      exact ⟨(), unreserved, (), newName, (), positive, (), newCode, freshNames, freshCodes, others⟩

theorem validateErrors_eq_ok {skillName : String} {errors : List ErrorVariant} {checked : Unit} :
    validateErrors skillName errors = .ok checked ↔ ErrorsWellFormed errors := by
  rw [validateErrors, validateErrorsFrom_iff, fresh_nil_left, fresh_nil_left]
  constructor
  · intro ⟨names, codes, each⟩
    exact ⟨fun variant member => (each variant member).1, names,
      fun variant member => (each variant member).2, codes⟩
  · intro wellFormed
    exact ⟨wellFormed.names_nodup, wellFormed.codes_nodup, fun variant member =>
      ⟨wellFormed.names_ok variant member, wellFormed.codes_ne_zero variant member⟩⟩

/-! ## Skills and files -/

structure SkillDef.WellFormed (skill : SkillDef) : Prop where
  id_ne_empty : skill.id ≠ ""
  name_ok : isReservedCodegenIdentifier skill.name = false
  input_ok : skill.input.WellFormed
  output_ok : skill.output.WellFormed
  errors_ok : ErrorsWellFormed skill.errors

theorem validateSkill_eq_ok {skill : SkillDef} {checked : Unit} :
    validateSkill skill = .ok checked ↔ skill.WellFormed := by
  simp only [validateSkill, Except.bind_eq_ok, Except.ensure_eq_ok, validateCodegenIdentifier_eq_ok,
    validateStruct_eq_ok, validateErrors_eq_ok]
  constructor
  · intro ⟨_, id, _, name, _, input, _, output, errors⟩
    exact ⟨id, name, input, output, errors⟩
  · intro wellFormed
    exact ⟨(), wellFormed.id_ne_empty, (), wellFormed.name_ok, (), wellFormed.input_ok, (),
      wellFormed.output_ok, wellFormed.errors_ok⟩

theorem validateSkills_iff {names ids : List String} {skills : List SkillDef} {checked : Unit} :
    validateSkills names ids skills = .ok checked ↔
      Fresh names (skills.map SkillDef.name) ∧ Fresh ids (skills.map SkillDef.id) ∧
        ∀ skill ∈ skills, skill.WellFormed := by
  induction skills generalizing names ids with
  | nil => simp [validateSkills, fresh_nil_right]
  | cons skill skills ih =>
    rw [List.map_cons, List.map_cons, fresh_cons, fresh_cons, List.forall_mem_cons]
    simp only [validateSkills, Except.bind_eq_ok, Except.ensure_eq_ok, validateSkill_eq_ok, ih]
    constructor
    · intro given
      obtain ⟨_, newName, _, newId, _, first, freshNames, freshIds, others⟩ := given
      exact ⟨⟨newName, freshNames⟩, ⟨newId, freshIds⟩, first, others⟩
    · intro given
      obtain ⟨⟨newName, freshNames⟩, ⟨newId, freshIds⟩, first, others⟩ := given
      exact ⟨(), newName, (), newId, (), first, freshNames, freshIds, others⟩

/-- A file has a version and skills, and these have different names and different ids. -/
structure LaicFile.WellFormed (file : LaicFile) : Prop where
  version_ne_empty : file.version ≠ ""
  skills_ne_nil : file.skills ≠ []
  names_nodup : (file.skills.map SkillDef.name).Nodup
  ids_nodup : (file.skills.map SkillDef.id).Nodup
  skills_ok : ∀ skill ∈ file.skills, skill.WellFormed

/-- Validation lets through the well-formed files and no others. -/
theorem validate_eq_ok {file : LaicFile} {checked : Unit} : validate file = .ok checked ↔ file.WellFormed := by
  simp only [validate, Except.bind_eq_ok, Except.ensure_eq_ok, validateSkills_iff, fresh_nil_left]
  constructor
  · intro ⟨_, version, _, nonempty, names, ids, each⟩
    exact ⟨version, nonempty, names, ids, each⟩
  · intro wellFormed
    exact ⟨(), wellFormed.version_ne_empty, (), wellFormed.skills_ne_nil, wellFormed.names_nodup,
      wellFormed.ids_nodup, wellFormed.skills_ok⟩

/-! ## Refusals -/

/-- An error of the validation. -/
def CompileError.IsValidation (error : CompileError) : Prop := ∃ message, error = .validation message

/-- The only errors are those of the validation. -/
abbrev Refuses {α : Type} (check : Except CompileError α) : Prop :=
  Except.FailsWith CompileError.IsValidation check

theorem refuses_ensure {condition : Prop} [Decidable condition] {message : String} :
    Refuses (ensure condition (.validation message)) := .ensure ⟨message, rfl⟩

theorem refuses_mapConstraints (skillName fieldName : String) (key value : LaicType) :
    Refuses (validateMapTypeConstraints skillName fieldName key value) := by
  cases key with
  | string | bool | i8 | i16 | i32 | i64 | u8 =>
    cases value with
    | tensor | list | optional | map => exact .error ⟨_, rfl⟩
    | _ => exact .ok _
  | _ => exact .error ⟨_, rfl⟩

theorem refuses_fieldType (skillName fieldName : String) (ty : LaicType) :
    Refuses (validateFieldType skillName fieldName ty) := by
  induction ty with
  | tensor dtype dims => exact .bind refuses_ensure fun _ => refuses_ensure
  | list inner ih =>
    have shape : Refuses (validateListTypeConstraints skillName fieldName inner) :=
      .bind refuses_ensure fun _ => .bind refuses_ensure fun _ => .bind refuses_ensure fun _ => refuses_ensure
    exact .bind shape fun _ => ih
  | optional inner ih =>
    have shape : Refuses (validateOptionalTypeConstraints skillName fieldName inner) :=
      .bind refuses_ensure fun _ => .bind refuses_ensure fun _ => .bind refuses_ensure fun _ => refuses_ensure
    exact .bind shape fun _ => ih
  | map key value => exact refuses_mapConstraints skillName fieldName key value
  | _ => exact .ok _

theorem refuses_defaultCompat (skillName fieldName : String) (ty : LaicType) (default : Literal) :
    Refuses (validateDefaultCompat skillName fieldName ty default) := by
  refine .bind refuses_ensure fun _ => .bind refuses_ensure fun _ => ?_
  split
  · exact refuses_ensure
  · exact .ok _

theorem refuses_fields (skillName direction structName : String) (seen : List String)
    (fields : List FieldDef) : Refuses (validateFields skillName direction structName seen fields) := by
  induction fields generalizing seen with
  | nil => exact .ok _
  | cons field fields ih =>
    have checked : Refuses (validateField skillName field) := by
      refine .bind refuses_ensure fun _ => ?_
      cases field.default with
      | none => exact refuses_fieldType skillName field.name field.ty
      | some default =>
        exact .bind (refuses_defaultCompat _ _ _ default) fun _ => refuses_fieldType skillName field.name field.ty
    exact .bind refuses_ensure fun _ => .bind checked fun _ => ih (field.name :: seen)

theorem refuses_struct (skillName direction : String) (structDef : StructDef) :
    Refuses (validateStruct skillName direction structDef) :=
  .bind refuses_ensure fun _ => .bind refuses_ensure fun _ => .bind refuses_ensure fun _ =>
    refuses_fields skillName direction structDef.name [] structDef.fields

theorem refuses_errors (skillName : String) (names : List String) (codes : List UInt16)
    (errors : List ErrorVariant) : Refuses (validateErrorsFrom skillName names codes errors) := by
  induction errors generalizing names codes with
  | nil => exact .ok _
  | cons variant errors ih =>
    exact .bind refuses_ensure fun _ => .bind refuses_ensure fun _ => .bind refuses_ensure fun _ =>
      .bind refuses_ensure fun _ => ih (variant.name :: names) (variant.code :: codes)

theorem refuses_skills (names ids : List String) (skills : List SkillDef) :
    Refuses (validateSkills names ids skills) := by
  induction skills generalizing names ids with
  | nil => exact .ok _
  | cons skill skills ih =>
    have checked : Refuses (validateSkill skill) :=
      .bind refuses_ensure fun _ => .bind refuses_ensure fun _ => .bind (refuses_struct _ _ _) fun _ =>
        .bind (refuses_struct _ _ _) fun _ => refuses_errors skill.name [] [] skill.errors
    exact .bind refuses_ensure fun _ => .bind refuses_ensure fun _ => .bind checked fun _ =>
      ih (skill.name :: names) (skill.id :: ids)

/-- A file that is not well formed is refused with a message of the validation. -/
theorem validate_eq_error {file : LaicFile} (malformed : ¬ file.WellFormed) :
    ∃ message, validate file = .error (.validation message) := by
  have refuses : Refuses (validate file) :=
    .bind refuses_ensure fun _ => .bind refuses_ensure fun _ => refuses_skills [] [] file.skills
  obtain ⟨error, failed⟩ := Except.exists_error_of_ne_ok fun checked valid => malformed (validate_eq_ok.mp valid)
  obtain ⟨message, rfl⟩ := refuses error failed
  exact ⟨message, failed⟩

end Laic
