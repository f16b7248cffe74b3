import Laic.Codegen.DecoderNames
import Laic.Codegen.Names
import Laic.Idl.Identifiers

/-! # Hygiene of the generated decoders

When every name a generated decode method reads finds the binding it is written for.  The
methods are a header, one extraction for each field and the construction of the value; a
field's variable is in scope from its extraction on (Rust), or is a name of the whole method
(Python, TypeScript).  Around the method are the types of the file: in Python and TypeScript
they are names like any other, and in Rust they stand where the method names a type.  So the
names of the fields and of the types decide, and only through a few lists. -/

namespace Laic

open Scope (Code Method Rules Env Resolves)

/-- The declaration of a struct in its file. -/
def structDeclaration (entry : SkillDef × String × StructDef) : Declaration :=
  .struct entry.1 entry.2.1 entry.2.2

/-- The types that a file declares in front of a struct. -/
def DeclaredBefore (file : LaicFile) (entry : SkillDef × String × StructDef)
    (types : List String) : Prop :=
  ∃ before behind, declarations file = before ++ structDeclaration entry :: behind ∧
    types = before.map Declaration.name

/-- The decoder of a struct is hygienic: its method is, among all the types of the file; the
class body is, among the types declared so far; no field has the name of a member; and the
types that the method names are not declared in the file. -/
structure HygienicDecoder (imports : List String) (file : LaicFile) (target : Target)
    (entry : SkillDef × String × StructDef) : Prop where
  method : (target.decodeMethod entry.2.2).Hygienic (target.rules imports)
    (target.outer (typeNames file)) .scaffold
  classBody : ∀ types, DeclaredBefore file entry types →
    Resolves ⟨false, true, []⟩ (target.outer types) (target.classBody entry.2.2)
  members : ∀ field ∈ entry.2.2.fields, field.name ∉ target.members
  types : ∀ name ∈ target.typesRead entry.2.2, name ∉ typeNames file

def LaicType.isTensor : LaicType → Bool
  | .tensor _ _ => true
  | _ => false

def StructDef.names (structDef : StructDef) : List String := structDef.fields.map FieldDef.name

/-! ## Safe names -/

/-- No field is named like a constructor, and none but the last is named `batch`; and no type
of the file has the name of a type that the method names. -/
structure RustNames.Safe (imports : List String) (file : LaicFile) (structDef : StructDef) :
    Prop where
  fields : ∀ name ∈ structDef.names, name ∉ ["Some", "None", "Ok", "Err"] ++ imports
  batch : "batch" ∉ structDef.names.dropLast
  types : ∀ name ∈ Target.typesRead structDef .rust, name ∉ typeNames file

/-- The modules and builtins that the extraction of a type reads. -/
def PythonNames.globals : LaicType → List String
  | .tensor _ _ | .list (.tensor _ _) | .optional (.tensor _ _) => ["ValueError", "int", "len"]
  | .map _ _ => ["dict"]
  | .list _ | .optional _ => []
  | _ => ["pa", "ValueError"]

/-- The modules and builtins that the method reads. -/
def PythonNames.readsOutside (structDef : StructDef) : List String :=
  ["ipc", "ValueError", "StopIteration"] ++ structDef.fields.flatMap fun field => globals field.ty

/-- No field is named like a parameter, a member or a name that is read from outside, and no
type of the file has such a name; none but the last field is named `batch`, and that only
where the variable is bound last; and neither a class variable nor an earlier type hides the
decorator. -/
structure PythonNames.Safe (file : LaicFile) (entry : SkillDef × String × StructDef) : Prop where
  fields : ∀ name ∈ entry.2.2.names, name ∉ ["cls", "data"] ++ readsOutside entry.2.2
  types : ∀ name ∈ readsOutside entry.2.2, name ∉ typeNames file
  members : ∀ name ∈ entry.2.2.names, name ∉ Target.members .python
  batch : "batch" ∉ entry.2.2.names.dropLast
  tensors : ∀ field ∈ entry.2.2.fields, field.ty.isTensor → field.name ≠ "batch"
  classVariables : ∀ field ∈ entry.2.2.fields, field.default.isSome → field.name ≠ "classmethod"
  earlierTypes : ∀ types, DeclaredBefore file entry types → "classmethod" ∉ types

/-- The helpers and builtins that the extraction of a type reads, apart from those that the
header reads. -/
def TsNames.globals : LaicType → List String
  | .tensor _ _ | .optional (.tensor _ _) => ["laicAssertTensorMetadata"]
  | .list (.tensor _ _) => ["laicAssertTensorMetadata", "Array"]
  | .list _ => ["Array"]
  | .optional _ | .map _ _ => []
  | _ => ["laicAssertFieldType"]

/-- The helpers and builtins that the method reads. -/
def TsNames.readsOutside (structDef : StructDef) : List String :=
  ["arrow", "Error", "laicSchemaMetadata", "laicAssertMetadata"] ++
    structDef.fields.flatMap fun field => globals field.ty

/-- The constants that the extraction of a field declares in the method. -/
def TsNames.constants (field : FieldDef) : List String :=
  match field.ty with
  | .tensor _ _ | .list (.tensor _ _) => [fieldOf field, field.name]
  | .optional (.tensor _ _) => [fieldOf field, columnOf field, field.name]
  | .list _ | .map _ _ => [field.name]
  | .optional _ => [columnOf field, field.name]
  | _ =>
    if field.default.isSome then [columnOf field, field.name]
    else [columnOf field, fieldOf field, field.name]

/-- The parameter and the constants that the generator declares for itself. -/
def TsNames.scaffoldNames : List String := ["data", "table", "batch", "schemaMetadata"]

/-- The constants of the fields are distinct, and none has a name that the method declares
or reads; no type of the file has a name that the method reads; the struct is not named like a
constant of the method; and no field is named `toIpc`. -/
structure TsNames.Safe (file : LaicFile) (structDef : StructDef) : Prop where
  distinct : (structDef.fields.flatMap constants).Nodup
  fields : ∀ name ∈ structDef.fields.flatMap constants,
    name ∉ structDef.name :: scaffoldNames ++ readsOutside structDef
  types : ∀ name ∈ readsOutside structDef ++ Target.typesRead structDef .typescript,
    name ∉ typeNames file
  struct : structDef.name ∉ scaffoldNames
  members : ∀ name ∈ structDef.names, name ∉ Target.members .typescript

/-- The names of a struct and of the types around it are safe for a target. -/
def Target.NamesSafe (imports : List String) (file : LaicFile)
    (entry : SkillDef × String × StructDef) : Target → Prop
  | .rust => RustNames.Safe imports file entry.2.2
  | .python => PythonNames.Safe file entry
  | .typescript => TsNames.Safe file entry.2.2

/-- What is in front of some element of the list. -/
theorem mem_map_dropLast {α β : Type} {f : α → β} {y : β} {items : List α} :
    y ∈ (items.map f).dropLast ↔
      ∃ before item behind, items = before ++ item :: behind ∧ y ∈ before.map f := by
  rw [← List.map_dropLast]
  constructor
  · intro member
    have nonempty : items ≠ [] := by
      rintro rfl
      cases member
    exact ⟨items.dropLast, items.getLast nonempty, [],
      (List.dropLast_append_getLast nonempty).symm, member⟩
  · rintro ⟨before, item, behind, rfl, member⟩
    rw [List.dropLast_append_cons, List.map_append]
    exact List.mem_append_left _ member

/-- Code that declares the variable of each field, and nothing else, gives the names of the
fields to them. -/
theorem after_fieldVariables {code : FieldDef → Code Owner}
    (binds : ∀ field, (code field).binds = [(field.name, .field field.name)])
    (fields : List FieldDef) (env : Env Owner) (name : String) :
    (Code.all (fields.map code)).after env name =
      if name ∈ fields.map FieldDef.name then some (.field name) else env name := by
  have owned : ∀ binding ∈ (Code.all (fields.map code)).binds,
      binding.2 = Owner.field binding.1 := by
    intro binding member
    simp only [Code.binds_all, List.flatMap_map, List.mem_flatMap, binds,
      List.mem_singleton] at member
    obtain ⟨field, _, rfl⟩ := member
    rfl
  have declared : (Code.all (fields.map code)).declares = fields.map FieldDef.name := by
    rw [Code.declares_all, List.flatMap_map, List.map_eq_flatMap]
    simp [Code.declares, binds]
  rw [Code.after_apply Owner.field owned, declared]

/-! ## Rust -/

namespace RustNames

/-- The variables the generator declares for itself. -/
def localNames : List String :=
  ["cursor", "reader", "batch", "schema", "meta", "e", "v", "c", "s", "i", "k", "col", "column",
    "field", "dtype_str", "shape_str", "shape", "list_arr", "inner_arr", "typed", "map_arr",
    "entries", "struct_arr", "key_arr", "val_arr", "map"]

theorem enter_rust (imports declared : List String) (env : Env Owner) :
    (Target.rules imports .rust).enter declared env = env := by
  funext name
  simp [Target.rules, Rules.enter]

variable {imports : List String} {env : Env Owner}

theorem resolves_block {codes : List (Code Owner)} :
    Resolves (Target.rules imports .rust) env (block codes) ↔
      Resolves (Target.rules imports .rust) env (.all codes) := by
  rw [block, Scope.resolves_scope, enter_rust]
  simp [Target.rules]

/-- Every local name of the method may be declared. -/
def Declarable (imports : List String) : Prop :=
  ∀ name ∈ localNames, name ∉ (Target.rules imports .rust).constructors

/-- The constructors are what they are outside the method. -/
def ConstructorsFree (env : Env Owner) : Prop :=
  ∀ name ∈ ["Some", "None", "Ok", "Err"], env name = some .global

theorem resolves_returnErr {names : List String} :
    Resolves (Target.rules imports .rust) env (returnErr names) ↔
      env "Err" = some .global ∧ Resolves (Target.rules imports .rust) env (.all (names.map reads)) := by
  simp [returnErr, resolves_block]

theorem after_returnErr {names : List String} : (returnErr names).after env = env := rfl

theorem resolves_lambda {param : String} {names : List String} :
    Resolves (Target.rules imports .rust) env (lambda param names) ↔
      param ∉ (Target.rules imports .rust).constructors ∧
        Resolves (Target.rules imports .rust) (env.bind param .scaffold)
          (.all (names.map reads)) := by
  simp [lambda, resolves_block]

theorem after_lambda {param : String} {names : List String} :
    (lambda param names).after env = env := rfl

theorem resolves_tensorMetadata {dims : List Dimension} (declarable : Declarable imports)
    (err : env "Err" = some .global) (batch : env "batch" = some .scaffold) :
    Resolves (Target.rules imports .rust) env (tensorMetadataValidation dims) := by
  simp only [Declarable, localNames, List.forall_mem_cons] at declarable
  simp only [tensorMetadataValidation, tensorShapeValidation, Code.all_cons, Code.all_nil]
  simp [resolves_returnErr, after_returnErr, resolves_lambda, after_lambda, declarable, err, batch]
  -- one comparison for each fixed dimension
  rw [Scope.resolves_all_silent] <;> intro code member <;>
    obtain ⟨_, rfl⟩ := List.mem_replicate.mp member
  · simp [returnErr, resolves_block, err]
  · rfl

theorem resolves_tensorMetadataOf {ty : LaicType} (declarable : Declarable imports)
    (err : env "Err" = some .global) (batch : env "batch" = some .scaffold) :
    Resolves (Target.rules imports .rust) env (tensorMetadataOf ty) := by
  unfold tensorMetadataOf
  split
  · exact resolves_tensorMetadata declarable err batch
  · exact True.intro

/-- The check of tensor metadata leaves the other variables as they are. -/
theorem after_tensorMetadataOf {ty : LaicType} {name : String}
    (other : name ∉ ["schema", "field", "meta", "dtype_str", "shape_str", "shape"]) :
    (tensorMetadataOf ty).after env name = env name := by
  apply Code.after_of_notMem
  unfold tensorMetadataOf
  split
  · simp only [List.mem_cons, List.not_mem_nil, or_false, not_or] at other
    simp [tensorMetadataValidation, tensorShapeValidation, returnErr, lambda, Code.declares,
      Code.binds_all, other]
  · simp [Code.declares]

/-! Every extraction resolves where the constructors and the batch are found. -/

section Extraction

variable (declarable : Declarable imports) (free : ConstructorsFree env)
  (batch : env "batch" = some .scaffold)

include declarable free batch

theorem resolves_tensorExtraction (ty : LaicType) :
    Resolves (Target.rules imports .rust) env (tensorExtraction ty) := by
  have metadata : Resolves (Target.rules imports .rust) env (tensorMetadataOf ty) :=
    resolves_tensorMetadataOf declarable (free "Err" (by simp)) batch
  simp only [Declarable, localNames, List.forall_mem_cons] at declarable
  simp [tensorExtraction, resolves_block, resolves_lambda, after_lambda, after_tensorMetadataOf,
    metadata, batch, declarable]

theorem resolves_listExtraction (ty inner : LaicType) :
    Resolves (Target.rules imports .rust) env (listExtraction ty inner) := by
  have metadata : Resolves (Target.rules imports .rust)
      ((env.bind "list_arr" .scaffold).bind "inner_arr" .scaffold) (tensorMetadataOf ty) :=
    resolves_tensorMetadataOf declarable (by simpa using free "Err" (by simp))
      (by simpa using batch)
  simp only [Declarable, localNames, List.forall_mem_cons] at declarable
  simp only [ConstructorsFree, List.forall_mem_cons] at free
  cases inner <;>
    simp [listExtraction, resolves_block, resolves_lambda, after_lambda, after_tensorMetadataOf,
      metadata, free, batch, declarable]

theorem resolves_optionalExtraction (ty inner : LaicType) :
    Resolves (Target.rules imports .rust) env (optionalExtraction ty inner) := by
  have metadata : Resolves (Target.rules imports .rust) (env.bind "col" .scaffold)
      (tensorMetadataOf ty) :=
    resolves_tensorMetadataOf declarable (by simpa using free "Err" (by simp))
      (by simpa using batch)
  simp only [Declarable, localNames, List.forall_mem_cons] at declarable
  simp only [ConstructorsFree, List.forall_mem_cons] at free
  cases inner <;>
    simp [optionalExtraction, resolves_block, after_tensorMetadataOf, metadata, free, batch,
      declarable]

omit free in
theorem resolves_mapExtraction : Resolves (Target.rules imports .rust) env mapExtraction := by
  simp only [Declarable, localNames, List.forall_mem_cons] at declarable
  simp [mapExtraction, resolves_block, resolves_lambda, after_lambda, batch, declarable]

theorem resolves_simpleExtraction (default : Option Literal) :
    Resolves (Target.rules imports .rust) env (simpleExtraction default) := by
  simp only [Declarable, localNames, List.forall_mem_cons] at declarable
  simp only [ConstructorsFree, List.forall_mem_cons] at free
  cases default <;>
    simp [simpleExtraction, resolves_block, resolves_returnErr, after_returnErr, free, batch,
      declarable]

theorem resolves_initializer (field : FieldDef) :
    Resolves (Target.rules imports .rust) env (initializer field) := by
  unfold initializer
  split
  · exact resolves_tensorExtraction declarable free batch field.ty
  · exact resolves_listExtraction declarable free batch field.ty _
  · exact resolves_optionalExtraction declarable free batch field.ty _
  · exact resolves_mapExtraction declarable batch
  · exact resolves_simpleExtraction declarable free batch field.default

end Extraction

/-- Every extraction reads the batch. -/
theorem batch_of_initializer {field : FieldDef}
    (resolved : Resolves (Target.rules imports .rust) env (initializer field)) :
    env "batch" = some .scaffold := by
  unfold initializer at resolved
  split at resolved
  · simp only [tensorExtraction, resolves_block, Code.all_cons, Scope.resolves_seq] at resolved
    simpa [after_tensorMetadataOf] using resolved.2.1
  · simp only [listExtraction, resolves_block, Code.all_cons, Scope.resolves_seq] at resolved
    exact resolved.1
  · simp only [optionalExtraction, resolves_block, Code.all_cons, Scope.resolves_seq] at resolved
    exact resolved.1
  · simp only [mapExtraction, resolves_block, Code.all_cons, Scope.resolves_seq] at resolved
    exact resolved.1
  · simp only [simpleExtraction, Code.all_cons, Scope.resolves_seq] at resolved
    exact resolved.1

theorem resolves_header (declarable : Declarable imports) (free : ConstructorsFree env)
    (bytes : env "bytes" = some .scaffold) :
    Resolves (Target.rules imports .rust) env header := by
  simp only [Declarable, localNames, List.forall_mem_cons] at declarable
  simp only [ConstructorsFree, List.forall_mem_cons] at free
  simp [header, metadataValidation, resolves_block, resolves_returnErr, after_returnErr, free,
    bytes, declarable]

theorem binds_fieldExtraction (field : FieldDef) :
    (fieldExtraction field).binds = [(field.name, .field field.name)] := by
  have silent : (initializer field).binds = [] := by
    unfold initializer
    split
    case h_5 => cases field.default <;> rfl
    all_goals rfl
  simp [fieldExtraction, silent]

/-- The environment in front of a field: the names of the fields before it are theirs. -/
theorem before_field (structDef : StructDef) (before : List FieldDef) (name : String) :
    (Code.all (before.map fieldExtraction)).after
        (header.after ((fromArrowIpc structDef).entry (Target.rules imports .rust)
          (moduleNames []) .scaffold)) name =
      if name ∈ before.map FieldDef.name then some (.field name)
      else if name ∈ ["cursor", "reader", "batch", "schema", "meta", "bytes"] then some .scaffold
      else some .global := by
  have ownedHeader : ∀ binding ∈ header.binds, binding.2 = (fun _ => .scaffold) binding.1 := by
    decide
  have declaredHeader : header.declares = ["cursor", "reader", "batch", "schema", "meta"] := rfl
  rw [after_fieldVariables binds_fieldExtraction,
    Code.after_apply (fun _ => .scaffold) ownedHeader, declaredHeader, Method.entry, enter_rust]
  by_cases bytes : name = "bytes" <;> simp [fromArrowIpc, moduleNames, bytes]

theorem method_iff (structDef : StructDef) (declarable : Declarable imports) :
    (fromArrowIpc structDef).Hygienic (Target.rules imports .rust) (moduleNames []) .scaffold ↔
      (∀ name ∈ structDef.names, name ∉ ["Some", "None", "Ok", "Err"] ++ imports) ∧
        "batch" ∉ structDef.names.dropLast := by
  constructor
  · intro ⟨_, _, resolved⟩
    obtain ⟨_, extractions, _⟩ := resolved
    rw [Scope.resolves_all_map] at extractions
    constructor
    · intro name member
      obtain ⟨field, isField, rfl⟩ := List.mem_map.mp member
      obtain ⟨before, behind, split⟩ := List.append_of_mem isField
      exact (extractions before field behind split).2
    · intro member
      obtain ⟨before, field, behind, split, hidden⟩ := mem_map_dropLast.mp member
      have batch := batch_of_initializer (extractions before field behind split).1
      rw [before_field, if_pos hidden] at batch
      cases batch
  · intro ⟨constructors, batch⟩
    have notLocal : ∀ name ∈ ["Some", "None", "Ok", "Err"],
        name ∉ ["cursor", "reader", "batch", "schema", "meta", "bytes"] := by decide
    have notField (name : String) (special : name ∈ ["Some", "None", "Ok", "Err"]) :
        name ∉ structDef.names := fun isField =>
      constructors name isField (List.mem_append_left _ special)
    have free {before behind : List FieldDef} (split : structDef.fields = before ++ behind) :
        ConstructorsFree ((Code.all (before.map fieldExtraction)).after (header.after
          ((fromArrowIpc structDef).entry (Target.rules imports .rust) (moduleNames [])
            .scaffold))) := by
      intro name special
      have absent := notField name special
      simp only [StructDef.names, split, List.map_append, List.mem_append, not_or] at absent
      rw [before_field, if_neg absent.1, if_neg (notLocal name special)]
    refine ⟨fun impossible => (nomatch impossible), fun impossible => (nomatch impossible), ?_⟩
    refine ⟨?_, ?_, free (List.append_nil _).symm "Ok" (by simp), ?_⟩
    · apply resolves_header declarable
      · intro name special
        have notParam : name ∉ ["bytes"] := fun isParam =>
          notLocal name special (by simp_all)
        rw [Method.entry, enter_rust]
        exact if_neg notParam
      · rfl
    · rw [Scope.resolves_all_map]
      intro before field behind split
      refine ⟨resolves_initializer declarable (free split) ?_ field, constructors field.name ?_⟩
      · rw [before_field, if_neg]
        · rfl
        · exact fun hidden => batch (mem_map_dropLast.mpr ⟨before, field, behind, split, hidden⟩)
      · rw [StructDef.names, split, List.map_append]
        exact List.mem_append_right _ List.mem_cons_self
    · rw [after_readsGlobal, resolves_build]
      intro field isField
      rw [before_field, if_pos (List.mem_map_of_mem isField)]

end RustNames

/-! ## Python -/

namespace PythonNames

variable {imports : List String} {env : Env Owner}

theorem resolves_header :
    Resolves (Target.rules imports .python) env header ↔
      env "ipc" = some .global ∧ env "data" = some .scaffold ∧
        env "ValueError" = some .global ∧ env "StopIteration" = some .global := by
  simp [header, metadataValidation, Target.rules]
  grind

theorem resolves_lambda {param : String} :
    Resolves (Target.rules imports .python) env (lambda param []) := by
  simp [lambda, block, Target.rules]

theorem resolves_tensorMetadata {dims : List Dimension} :
    Resolves (Target.rules imports .python) env (tensorMetadataValidation dims) ↔
      env "batch" = some .scaffold ∧ env "ValueError" = some .global ∧
        env "int" = some .global ∧ env "len" = some .global := by
  simp [tensorMetadataValidation, block, Target.rules, Rules.enter, Code.declares]
  intro _ valueError _ len
  refine ⟨valueError, len, ?_⟩
  -- one comparison for each fixed dimension
  rw [Scope.resolves_all_silent] <;> intro code member <;>
    obtain ⟨_, rfl⟩ := List.mem_replicate.mp member
  · simp [valueError]
  · rfl

/-- The variables the generator declares for a field besides the field's own. -/
def localNames : List String :=
  ["_col", "_field", "_fmeta", "_dtype", "_shape_str", "_shape", "_val", "_map_val"]

theorem after_tensorMetadata {dims : List Dimension} {name : String} (other : name ∉ localNames) :
    (tensorMetadataValidation dims).after env name = env name := by
  apply Code.after_of_notMem
  simp only [localNames, List.mem_cons, List.not_mem_nil, or_false, not_or] at other
  simp [tensorMetadataValidation, Code.declares, Code.binds_all, other]

theorem constructors_eq_nil : (Target.rules imports .python).constructors = [] := rfl

theorem resolves_scalarExtraction (field : FieldDef) :
    Resolves (Target.rules imports .python) env (scalarExtraction field) ↔
      env "batch" = some .scaffold ∧ env "pa" = some .global ∧ env "ValueError" = some .global := by
  unfold scalarExtraction
  cases field.default <;> simp [constructors_eq_nil]

theorem resolves_listExtraction (field : FieldDef) (inner : LaicType) :
    Resolves (Target.rules imports .python) env (listExtraction field inner) ↔
      env "batch" = some .scaffold ∧
        ∀ name ∈ globals (.list inner), env name = some .global := by
  cases inner with
  | tensor dtype dims =>
    have batch : (tensorMetadataValidation dims).after env "batch" = env "batch" :=
      after_tensorMetadata (by decide)
    simp [listExtraction, resolves_tensorMetadata, resolves_lambda, globals, batch,
      constructors_eq_nil]
    grind
  | _ => simp [listExtraction, globals, constructors_eq_nil]

theorem resolves_optionalExtraction (field : FieldDef) (inner : LaicType) :
    Resolves (Target.rules imports .python) env (optionalExtraction field inner) ↔
      env "batch" = some .scaffold ∧
        ∀ name ∈ globals (.optional inner), env name = some .global := by
  cases inner with
  | tensor dtype dims =>
    have batch : (tensorMetadataValidation dims).after env "batch" = env "batch" :=
      after_tensorMetadata (by decide)
    simp [optionalExtraction, resolves_tensorMetadata, globals, batch, constructors_eq_nil]
    grind
  | _ => simp [optionalExtraction, globals, constructors_eq_nil]

/-- An extraction resolves where it finds the batch and what it reads from outside; that of
a tensor looks for them behind the field's own variable. -/
theorem resolves_fieldExtraction (field : FieldDef) :
    Resolves (Target.rules imports .python) env (fieldExtraction field) ↔
      env "batch" = some .scaffold ∧ (∀ name ∈ globals field.ty, env name = some .global) ∧
        (field.ty.isTensor → field.name ∉ "batch" :: globals field.ty) := by
  unfold fieldExtraction
  split
  next dims shape =>
    simp [tensorExtraction, resolves_tensorMetadata, shape, globals, LaicType.isTensor,
      constructors_eq_nil]
    grind
  next inner shape => simp [resolves_listExtraction, shape, LaicType.isTensor]
  next inner shape => simp [resolves_optionalExtraction, shape, LaicType.isTensor]
  next key value shape =>
    simp [mapExtraction, shape, globals, LaicType.isTensor, constructors_eq_nil]
  next notTensor notList notOptional notMap =>
    rw [resolves_scalarExtraction]
    generalize field.ty = ty at *
    cases ty with
    | tensor dtype dims => exact absurd rfl (notTensor dtype dims)
    | list inner => exact absurd rfl (notList inner)
    | optional inner => exact absurd rfl (notOptional inner)
    | map key value => exact absurd rfl (notMap key value)
    | _ => simp [globals, LaicType.isTensor]

/-- What the extraction of a field binds: the field's variable, and variables of its own. -/
structure BindsOnly (field : FieldDef) (code : Code Owner) : Prop where
  own : (field.name, .field field.name) ∈ code.binds
  others : ∀ binding ∈ code.binds,
    binding = (field.name, .field field.name) ∨
      binding.1 ∈ localNames ∧ binding.2 = .scaffold

theorem binds_tensorMetadata {dims : List Dimension} :
    (tensorMetadataValidation dims).binds =
      ["_field", "_fmeta", "_dtype", "_shape_str", "_shape"].map fun name => (name, .scaffold) := by
  simp [tensorMetadataValidation, Code.binds_all]
  rintro code _ _ _ rfl
  rfl

theorem binds_fieldExtraction (field : FieldDef) : BindsOnly field (fieldExtraction field) := by
  unfold fieldExtraction
  split
  next dims shape =>
    constructor <;> simp [tensorExtraction, binds_tensorMetadata, localNames]
  next inner shape =>
    cases inner <;> constructor <;> simp [listExtraction, binds_tensorMetadata, lambda, localNames]
  next inner shape =>
    cases inner <;> constructor <;> simp [optionalExtraction, binds_tensorMetadata, localNames]
  next key value shape =>
    constructor <;> simp [mapExtraction, localNames]
  next =>
    unfold scalarExtraction
    cases field.default <;> constructor <;> simp [localNames]

/-- The owner of a name that the extractions bind. -/
def ownerOf (name : String) : Owner :=
  if name ∈ localNames then .scaffold else .field name

theorem owner_extractions {fields : List FieldDef}
    (lettered : ∀ field ∈ fields, field.name ∉ localNames) :
    ∀ binding ∈ (Code.all (fields.map fieldExtraction)).binds, binding.2 = ownerOf binding.1 := by
  intro binding member
  simp only [Code.binds_all, List.flatMap_map, List.mem_flatMap] at member
  obtain ⟨field, isField, bound⟩ := member
  obtain rfl | ⟨isLocal, owned⟩ := (binds_fieldExtraction field).others binding bound
  · exact (if_neg (lettered field isField)).symm
  · rw [owned, ownerOf, if_pos isLocal]

theorem mem_declares_extractions {fields : List FieldDef} {name : String}
    (other : name ∉ localNames) :
    name ∈ (Code.all (fields.map fieldExtraction)).declares ↔ name ∈ fields.map FieldDef.name := by
  simp only [Code.declares_all, List.flatMap_map, List.mem_flatMap, List.mem_map]
  constructor
  · rintro ⟨field, isField, declared⟩
    obtain ⟨binding, bound, rfl⟩ := List.mem_map.mp declared
    obtain rfl | ⟨isLocal, _⟩ := (binds_fieldExtraction field).others binding bound
    · exact ⟨field, isField, rfl⟩
    · exact absurd isLocal other
  · rintro ⟨field, isField, rfl⟩
    exact ⟨field, isField, List.mem_map_of_mem (binds_fieldExtraction field).own⟩

theorem mem_declares_body {structDef : StructDef} {name : String} (other : name ∉ localNames) :
    name ∈ (fromIpc structDef).body.declares ↔
      name ∈ ["reader", "batch", "meta", "_v"] ∨ name ∈ structDef.names := by
  have inHeader : name ∈ header.declares ↔ name ∈ ["reader", "batch", "meta", "_v"] := by
    have declared : header.declares = ["reader", "batch", "meta", "_v", "_v", "_v"] := rfl
    simp [declared]
  have inBuild : (build structDef.fields).declares = [] := by
    rw [Code.declares, binds_build, List.map_nil]
  simp only [fromIpc, Code.declares_seq, List.mem_append, inHeader, mem_declares_extractions other,
    inBuild, StructDef.names]
  simp [Code.declares]

/-- The environment in front of a field: the names of the fields before it are theirs, and
those of the fields to come are not bound. -/
theorem before_field (types : List String) {structDef : StructDef}
    (lettered : ∀ name ∈ structDef.names, name ∉ localNames) {before behind : List FieldDef}
    (split : structDef.fields = before ++ behind) {name : String} (other : name ∉ localNames) :
    (Code.all (before.map fieldExtraction)).after
        (header.after ((fromIpc structDef).entry (Target.rules imports .python)
          (moduleNames types) .scaffold)) name =
      if name ∈ before.map FieldDef.name then some (.field name)
      else if name ∈ ["reader", "batch", "meta", "_v", "cls", "data"] then some .scaffold
      else if name ∈ structDef.names then none
      else moduleNames types name := by
  have ownedHeader : ∀ binding ∈ header.binds, binding.2 = (fun _ => .scaffold) binding.1 := by
    decide
  have declaredHeader : header.declares = ["reader", "batch", "meta", "_v", "_v", "_v"] := rfl
  have owned : ∀ binding ∈ (Code.all (before.map fieldExtraction)).binds,
      binding.2 = ownerOf binding.1 := by
    apply owner_extractions
    intro field isField
    apply lettered
    rw [StructDef.names, split]
    exact List.mem_map_of_mem (List.mem_append_left _ isField)
  rw [Code.after_apply ownerOf owned, Code.after_apply (fun _ => .scaffold) ownedHeader,
    declaredHeader, ownerOf, if_neg other]
  by_cases bound : name ∈ before.map FieldDef.name
  · rw [if_pos bound, if_pos ((mem_declares_extractions other).mpr bound)]
  · rw [if_neg bound, if_neg (mt (mem_declares_extractions other).mp bound)]
    simp only [Method.entry, Rules.enter, mem_declares_body other]
    simp [fromIpc, Target.rules]
    grind

theorem globals_outside (ty : LaicType) :
    ∀ name ∈ globals ty,
      name ∉ localNames ∧ name ∉ ["reader", "batch", "meta", "_v", "cls", "data"] := by
  unfold globals
  split <;> decide

theorem readsOutside_outside (structDef : StructDef) :
    ∀ name ∈ readsOutside structDef,
      name ∉ localNames ∧ name ∉ ["reader", "batch", "meta", "_v", "cls", "data"] := by
  intro name listed
  cases List.mem_append.mp listed with
  | inl inHeader =>
    have outside : ∀ name ∈ ["ipc", "ValueError", "StopIteration"],
        name ∉ localNames ∧ name ∉ ["reader", "batch", "meta", "_v", "cls", "data"] := by decide
    exact outside name inHeader
  | inr inFields =>
    obtain ⟨field, _, isGlobal⟩ := List.mem_flatMap.mp inFields
    exact globals_outside field.ty name isGlobal

/-- A name from outside is found in front of a field just if no field and no type of the file
takes it. -/
theorem before_field_global (imports types : List String) {structDef : StructDef}
    (lettered : ∀ name ∈ structDef.names, name ∉ localNames) {before behind : List FieldDef}
    (split : structDef.fields = before ++ behind) {name : String}
    (listed : name ∈ readsOutside structDef) :
    (Code.all (before.map fieldExtraction)).after
        (header.after ((fromIpc structDef).entry (Target.rules imports .python)
          (moduleNames types) .scaffold)) name = some .global ↔
      name ∉ structDef.names ∧ name ∉ types := by
  obtain ⟨other, outside⟩ := readsOutside_outside structDef name listed
  rw [before_field types lettered split other, if_neg outside]
  have isField : name ∈ before.map FieldDef.name → name ∈ structDef.names := by
    intro member
    rw [StructDef.names, split, List.map_append]
    exact List.mem_append_left _ member
  by_cases taken : name ∈ structDef.names
  · by_cases bound : name ∈ before.map FieldDef.name <;> simp [taken, bound]
  · rw [if_neg (mt isField taken), if_neg taken]
    simp [taken]

/-- What the header reads from outside is found just if no field and no type takes its name. -/
theorem header_iff (types : List String) {structDef : StructDef}
    (lettered : ∀ name ∈ structDef.names, name ∉ localNames) :
    Resolves (Target.rules imports .python) ((fromIpc structDef).entry
        (Target.rules imports .python) (moduleNames types) .scaffold) header ↔
      ∀ name ∈ ["ipc", "ValueError", "StopIteration"],
        name ∉ structDef.names ∧ name ∉ types := by
  have outside (name : String) (notDeclared : name ∉ header.declares)
      (listed : name ∈ ["ipc", "ValueError", "StopIteration"]) :
      (fromIpc structDef).entry (Target.rules imports .python) (moduleNames types) .scaffold name =
        some .global ↔ name ∉ structDef.names ∧ name ∉ types := by
    have free := before_field_global imports types lettered
      (List.nil_append structDef.fields).symm (List.mem_append_left _ listed)
    rwa [List.map_nil, Code.all_nil, Code.after_skip, Code.after_of_notMem notDeclared] at free
  have data : (fromIpc structDef).entry (Target.rules imports .python) (moduleNames types)
      .scaffold "data" = some .scaffold := rfl
  rw [resolves_header, outside "ipc" (by decide) (by decide),
    outside "ValueError" (by decide) (by decide),
    outside "StopIteration" (by decide) (by decide)]
  simp [data]

theorem method_iff (imports types : List String) {structDef : StructDef}
    (lettered : ∀ name ∈ structDef.names, name ∉ localNames) :
    (fromIpc structDef).Hygienic (Target.rules imports .python) (moduleNames types) .scaffold ↔
      (∀ name ∈ structDef.names, name ∉ ["cls", "data"] ++ readsOutside structDef) ∧
        (∀ name ∈ readsOutside structDef, name ∉ types) ∧
        "batch" ∉ structDef.names.dropLast ∧
        ∀ field ∈ structDef.fields, field.ty.isTensor → field.name ≠ "batch" := by
  have ofField {field : FieldDef} (isField : field ∈ structDef.fields) {name : String}
      (isGlobal : name ∈ globals field.ty) : name ∈ readsOutside structDef :=
    List.mem_append_right _ (List.mem_flatMap_of_mem isField isGlobal)
  constructor
  · rintro ⟨_, parameters, resolved⟩
    obtain ⟨head, extractions, _⟩ := resolved
    rw [Scope.resolves_all_map] at extractions
    have inHeader := (header_iff types lettered).mp head
    have free (name : String) (listed : name ∈ readsOutside structDef) :
        name ∉ structDef.names ∧ name ∉ types := by
      cases List.mem_append.mp listed with
      | inl isHeader => exact inHeader name isHeader
      | inr inFields =>
        obtain ⟨field, isField, isGlobal⟩ := List.mem_flatMap.mp inFields
        obtain ⟨before, behind, split⟩ := List.append_of_mem isField
        have found := (resolves_fieldExtraction field).mp (extractions before field behind split)
        exact (before_field_global imports types lettered split listed).mp (found.2.1 name isGlobal)
    have cls : "cls" ∉ structDef.names := fun taken =>
      parameters rfl "cls" (by simp [fromIpc]) ((mem_declares_body (by decide)).mpr (.inr taken))
    have data : "data" ∉ structDef.names := fun taken =>
      parameters rfl "data" (by simp [fromIpc]) ((mem_declares_body (by decide)).mpr (.inr taken))
    refine ⟨?_, fun name listed => (free name listed).2, ?_, ?_⟩
    · intro name isField listed
      cases List.mem_append.mp listed with
      | inl parameter =>
        simp only [List.mem_cons, List.not_mem_nil, or_false] at parameter
        rcases parameter with rfl | rfl <;> contradiction
      | inr outside => exact (free name outside).1 isField
    · intro member
      obtain ⟨before, field, behind, split, hidden⟩ := mem_map_dropLast.mp member
      have batch := ((resolves_fieldExtraction field).mp (extractions before field behind split)).1
      rw [before_field types lettered split (by decide), if_pos hidden] at batch
      cases batch
    · intro field isField isTensor same
      obtain ⟨before, behind, split⟩ := List.append_of_mem isField
      have found := (resolves_fieldExtraction field).mp (extractions before field behind split)
      exact found.2.2 isTensor (by simp [same])
  · rintro ⟨fieldsFree, typesFree, batchLast, tensors⟩
    have untaken {name : String} (listed : name ∈ ["cls", "data"] ++ readsOutside structDef) :
        name ∉ structDef.names := fun taken => fieldsFree name taken listed
    have free {name : String} (listed : name ∈ readsOutside structDef) :
        name ∉ structDef.names ∧ name ∉ types :=
      ⟨untaken (List.mem_append_right _ listed), typesFree name listed⟩
    refine ⟨?_, ?_, ?_⟩
    · intro impossible
      cases impossible
    · intro _ name isParam declared
      simp only [fromIpc, List.mem_cons, List.not_mem_nil, or_false] at isParam
      rcases isParam with rfl | rfl
      · have taken := (mem_declares_body (by decide)).mp declared
        exact untaken (by simp) (taken.resolve_left (by decide))
      · have taken := (mem_declares_body (by decide)).mp declared
        exact untaken (by simp) (taken.resolve_left (by decide))
    · refine ⟨?_, ?_, ?_, ?_⟩
      · exact (header_iff types lettered).mpr fun name isHeader =>
          free (List.mem_append_left _ isHeader)
      · rw [Scope.resolves_all_map]
        intro before field behind split
        have isField : field ∈ structDef.fields := by
          rw [split]
          exact List.mem_append_right _ List.mem_cons_self
        refine (resolves_fieldExtraction field).mpr ⟨?_, ?_, ?_⟩
        · rw [before_field types lettered split (by decide), if_neg]
          · rfl
          · exact fun hidden => batchLast (mem_map_dropLast.mpr ⟨before, field, behind, split, hidden⟩)
        · intro name isGlobal
          have listed := ofField isField isGlobal
          exact (before_field_global imports types lettered split listed).mpr (free listed)
        · intro isTensor member
          cases List.mem_cons.mp member with
          | inl same => exact tensors field isField isTensor same
          | inr isGlobal => exact (free (ofField isField isGlobal)).1 (List.mem_map_of_mem isField)
      · rw [resolves_reads, before_field types lettered (List.append_nil _).symm (by decide), if_neg]
        · rfl
        · exact untaken (by simp)
      · rw [after_reads, resolves_build]
        intro field isField
        have isName : field.name ∈ structDef.names := List.mem_map_of_mem isField
        rw [before_field types lettered (List.append_nil _).symm (lettered field.name isName)]
        exact if_pos (List.mem_map_of_mem isField)

/-- The class body finds the decorator just if neither a class variable nor a type in front
of the class has its name. -/
theorem classBody_iff (types : List String) {structDef : StructDef} :
    Resolves ⟨false, true, []⟩ (moduleNames types) (classBody structDef) ↔
      (∀ field ∈ structDef.fields, field.default.isSome → field.name ≠ "classmethod") ∧
        "classmethod" ∉ types := by
  let defaulted := structDef.fields.filter fun field => field.default.isSome
  have behind (env : Env Owner) (name : String) :
      (Code.all (defaulted.map fun field => declaresFor field.name field.name)).after env name =
        if name ∈ defaulted.map FieldDef.name then some (.field name) else env name :=
    after_fieldVariables (fun _ => rfl) defaulted env name
  have resolved (env : Env Owner) : Resolves ⟨false, true, []⟩ env
      (.all (defaulted.map fun field => declaresFor field.name field.name)) := by
    simp [Scope.resolves_all_map]
  have taken : "classmethod" ∈ defaulted.map FieldDef.name ↔
      ∃ field ∈ structDef.fields, field.default.isSome ∧ field.name = "classmethod" := by
    simp [defaulted, and_assoc]
  have free : "classmethod" ∉ defaulted.map FieldDef.name ↔
      ∀ field ∈ structDef.fields, field.default.isSome → field.name ≠ "classmethod" := by
    rw [taken]
    simp
  rw [← free]
  by_cases hidden : "classmethod" ∈ defaulted.map FieldDef.name <;>
    by_cases earlier : "classmethod" ∈ types <;>
      simp [classBody, resolved, behind, hidden, earlier, moduleNames, defaulted]

end PythonNames

/-! ## TypeScript -/

namespace TsNames

variable {imports : List String} {env : Env Owner}

theorem declares_fieldExtraction (field : FieldDef) :
    (fieldExtraction field).declares = constants field := by
  obtain ⟨name, ty, default⟩ := field
  cases ty with
  | tensor dtype dims => rfl
  | map key value => rfl
  | list inner => cases inner <;> rfl
  | optional inner => cases inner <;> rfl
  | _ => cases default <;> rfl

theorem binds_fieldExtraction (field : FieldDef) :
    (fieldExtraction field).binds =
      (constants field).map fun name => (name, Owner.field field.name) := by
  obtain ⟨name, ty, default⟩ := field
  cases ty with
  | tensor dtype dims => rfl
  | map key value => rfl
  | list inner => cases inner <;> rfl
  | optional inner => cases inner <;> rfl
  | _ => cases default <;> rfl

theorem uses_fieldExtraction (field : FieldDef) :
    ∀ name ∈ globals field.ty, (name, Owner.global) ∈ (fieldExtraction field).uses := by
  obtain ⟨name, ty, default⟩ := field
  cases ty with
  | tensor dtype dims => simp [globals, fieldExtraction, tensorMetadataAssertion]
  | map key value => simp [globals]
  | list inner =>
    cases inner <;> simp [globals, fieldExtraction, listExtraction, tensorMetadataAssertion]
  | optional inner =>
    cases inner <;> simp [globals, fieldExtraction, optionalExtraction, tensorMetadataAssertion]
  | _ => cases default <;> simp [globals, fieldExtraction, scalarExtraction, assertFieldType]

/-- An owner of names around the method: the module, the language or a type of the file. -/
def IsOutside : Owner → Prop
  | .global | .type _ => True
  | .scaffold | .field _ => False

theorem owners_fieldExtraction (field : FieldDef) :
    ∀ owner ∈ (fieldExtraction field).owners, ¬ IsOutside owner := by
  obtain ⟨name, ty, default⟩ := field
  cases ty with
  | tensor dtype dims =>
    simp [fieldExtraction, tensorMetadataAssertion, findField, lambda, IsOutside]
  | map key value => simp [fieldExtraction, IsOutside]
  | list inner =>
    cases inner <;>
      simp [fieldExtraction, listExtraction, tensorMetadataAssertion, findField, lambda, IsOutside]
  | optional inner =>
    cases inner <;>
      simp [fieldExtraction, optionalExtraction, readOptional, tensorMetadataAssertion, findField,
        lambda, IsOutside]
  | _ =>
    cases default <;>
      simp [fieldExtraction, scalarExtraction, assertFieldType, findField, lambda, IsOutside]

/-- No derived name is one of the generator's. -/
theorem derived_ne (field : FieldDef) :
    ∀ name ∈ ["table", "batch", "arrow", "Error", "laicAssertFieldType",
        "laicAssertTensorMetadata", "Array"],
      name ≠ columnOf field ∧ name ≠ fieldOf field := by
  intro name listed
  have suffixes : ¬ "_column".toList <:+ name.toList ∧ ¬ "_field".toList <:+ name.toList := by
    revert name
    decide
  constructor
  · rintro rfl
    exact suffixes.1 (by simp [columnOf])
  · rintro rfl
    exact suffixes.2 (by simp [fieldOf])

theorem derived_distinct (field : FieldDef) :
    fieldOf field ≠ columnOf field ∧ fieldOf field ≠ field.name ∧ columnOf field ≠ field.name := by
  simp [fieldOf, columnOf]

theorem constructors_eq_nil : (Target.rules imports .typescript).constructors = [] := rfl

theorem enter_typescript (declared : List String) :
    (Target.rules imports .typescript).enter declared env =
      fun name => if name ∈ declared then none else env name := by
  funext name
  simp [Target.rules, Rules.enter]

theorem resolves_block {codes : List (Code Owner)} :
    Resolves (Target.rules imports .typescript) env (block codes) ↔
      (Code.all codes).declares.Nodup ∧
        Resolves (Target.rules imports .typescript)
          (fun name => if name ∈ (Code.all codes).declares then none else env name)
          (.all codes) := by
  rw [block, Scope.resolves_scope, enter_typescript]
  exact and_congr_left' ⟨fun distinct => distinct rfl, fun distinct _ => distinct⟩

theorem resolves_lambda {param : String} :
    Resolves (Target.rules imports .typescript) env (lambda param []) := by
  simp [lambda, resolves_block, constructors_eq_nil, Code.declares]

theorem resolves_findField {field : FieldDef} :
    Resolves (Target.rules imports .typescript) env (findField field) ↔
      env "table" = some .scaffold := by
  simp [findField, resolves_lambda, constructors_eq_nil]

theorem after_findField {field : FieldDef} :
    (findField field).after env = env.bind (fieldOf field) (.field field.name) := rfl

theorem binds_findField {field : FieldDef} :
    (findField field).binds = [(fieldOf field, .field field.name)] := rfl

theorem resolves_tensorMetadata {field : FieldDef} :
    Resolves (Target.rules imports .typescript) env (tensorMetadataAssertion field) ↔
      env "table" = some .scaffold ∧ env "laicAssertTensorMetadata" = some .global := by
  have derived := (derived_ne field "laicAssertTensorMetadata" (by simp)).2
  simp [tensorMetadataAssertion, resolves_findField, after_findField, derived]

theorem after_tensorMetadata {field : FieldDef} :
    (tensorMetadataAssertion field).after env = env.bind (fieldOf field) (.field field.name) := rfl

theorem resolves_readOptional {field : FieldDef} :
    Resolves (Target.rules imports .typescript) env (readOptional field) ↔
      env "batch" = some .scaffold := by
  simp [readOptional, constructors_eq_nil]

/-- The extraction of a scalar finds its column, and the field in the schema unless the
default stands for it. -/
theorem resolves_scalarExtraction (field : FieldDef) (batch : env "batch" = some .scaffold)
    (table : env "table" = some .scaffold) (arrow : env "arrow" = some .global)
    (error : env "Error" = some .global) (assert : env "laicAssertFieldType" = some .global)
    (apart : ∀ name ∈ ["table", "arrow", "laicAssertFieldType"], name ≠ field.name) :
    Resolves (Target.rules imports .typescript) env (scalarExtraction field) := by
  have derived := derived_ne field
  obtain ⟨fieldNeColumn, fieldNe, columnNe⟩ := derived_distinct field
  simp only [List.forall_mem_cons] at derived apart
  unfold scalarExtraction
  cases field.default with
  | none =>
    simp [resolves_block, resolves_findField, after_findField, assertFieldType, batch, table,
      arrow, error, assert, derived, fieldNeColumn.symm, constructors_eq_nil, Code.declares]
  | some default =>
    -- the schema field is a constant of the `else` block
    simp [resolves_block, resolves_findField, after_findField, binds_findField, assertFieldType,
      batch, table, arrow, assert, derived, apart, fieldNeColumn.symm, fieldNe.symm, columnNe,
      constructors_eq_nil, Code.declares]

/-- An extraction resolves where it finds the batch, the table and what it reads from outside,
and the field's name is none of these. -/
theorem resolves_fieldExtraction (field : FieldDef) (batch : env "batch" = some .scaffold)
    (table : env "table" = some .scaffold) (arrow : env "arrow" = some .global)
    (error : env "Error" = some .global)
    (outside : ∀ name ∈ globals field.ty, env name = some .global)
    (apart : ∀ name ∈ ["table", "arrow"] ++ globals field.ty, name ≠ field.name) :
    Resolves (Target.rules imports .typescript) env (fieldExtraction field) := by
  have derived := derived_ne field
  simp only [List.forall_mem_cons] at derived
  unfold fieldExtraction
  split
  next shape =>
    simp only [shape, globals, List.forall_mem_cons] at outside
    simp [resolves_tensorMetadata, after_tensorMetadata, constructors_eq_nil, derived, batch,
      table, outside]
  next inner shape =>
    rw [shape] at outside
    cases inner <;> simp only [globals, List.forall_mem_cons] at outside <;>
      simp [listExtraction, resolves_tensorMetadata, after_tensorMetadata, constructors_eq_nil,
        derived, batch, table, outside]
  next inner shape =>
    rw [shape] at outside
    cases inner <;> simp only [globals, List.forall_mem_cons] at outside <;>
      simp [optionalExtraction, resolves_readOptional, resolves_tensorMetadata,
        after_tensorMetadata, derived, batch, table, outside]
  · simp [batch, constructors_eq_nil]
  next notTensor notList notOptional notMap =>
    have scalar : globals field.ty = ["laicAssertFieldType"] := by
      generalize field.ty = ty at *
      cases ty with
      | tensor dtype dims => exact absurd rfl (notTensor dtype dims)
      | list inner => exact absurd rfl (notList inner)
      | optional inner => exact absurd rfl (notOptional inner)
      | map key value => exact absurd rfl (notMap key value)
      | _ => rfl
    rw [scalar] at outside apart
    exact resolves_scalarExtraction field batch table arrow error (outside _ (by simp)) apart

theorem declares_extractions (fields : List FieldDef) :
    (Code.all (fields.map fieldExtraction)).declares = fields.flatMap constants := by
  rw [Code.declares_all, List.flatMap_map]
  exact List.flatMap_congr fun field _ => declares_fieldExtraction field

theorem declares_body (structDef : StructDef) :
    (fromIpc structDef).body.declares =
      ["table", "batch", "schemaMetadata"] ++ structDef.fields.flatMap constants := by
  have header : header.declares = ["table", "batch", "schemaMetadata"] := rfl
  have build : (build structDef.fields).declares = [] := by
    rw [Code.declares, binds_build, List.map_nil]
  simp only [fromIpc, Code.declares_seq, header, build, declares_extractions]
  simp [Code.declares]

/-- A name that is neither the parameter nor a constant of the method is at its start what it
is around the method. -/
theorem entry_apply (imports types : List String) {structDef : StructDef} {name : String} :
    (fromIpc structDef).entry (Target.rules imports .typescript) (moduleNames types) .scaffold name =
      if name = "data" then some .scaffold
      else if name ∈ ["table", "batch", "schemaMetadata"] ++ structDef.fields.flatMap constants
        then none
      else moduleNames types name := by
  rw [Method.entry, enter_typescript, declares_body]
  simp [fromIpc]

theorem entry_outside (imports types : List String) {structDef : StructDef} (name : String)
    (owner : Owner) (outside : IsOutside owner) :
    (fromIpc structDef).entry (Target.rules imports .typescript) (moduleNames types) .scaffold name =
        some owner ↔
      name ∉ scaffoldNames ∧ name ∉ structDef.fields.flatMap constants ∧
        moduleNames types name = some owner := by
  have notScaffold : Owner.scaffold ≠ owner := by
    rintro rfl
    exact outside
  rw [entry_apply]
  by_cases param : name = "data"
  · simp [param, scaffoldNames, notScaffold]
  · by_cases declared : name ∈ ["table", "batch", "schemaMetadata"] ++
        structDef.fields.flatMap constants
    · rw [if_neg param, if_pos declared]
      simp only [List.mem_append] at declared
      simp only [scaffoldNames, List.mem_cons, param, false_or] at declared ⊢
      grind
    · rw [if_neg param, if_neg declared]
      simp only [List.mem_append, not_or] at declared
      simp only [scaffoldNames, List.mem_cons, param, false_or] at declared ⊢
      grind

theorem owners_body (structDef : StructDef) :
    ∀ owner ∈ (fromIpc structDef).body.owners, ¬ IsOutside owner := by
  have header : ∀ owner ∈ header.owners, ¬ IsOutside owner := by
    simp [header, IsOutside]
  intro owner bound
  simp only [fromIpc, Code.owners_seq, Code.owners_all, List.flatMap_map, List.mem_append,
    List.mem_flatMap, owners_readsType, List.not_mem_nil, false_or] at bound
  rcases bound with inHeader | ⟨field, _, inField⟩ | inBuild
  · exact header owner inHeader
  · exact owners_fieldExtraction field owner inField
  · simp [build, List.flatMap_map] at inBuild

theorem resolves_header (data : env "data" = some .scaffold) (arrow : env "arrow" = some .global)
    (error : env "Error" = some .global)
    (schemaMetadata : env "laicSchemaMetadata" = some .global)
    (assertMetadata : env "laicAssertMetadata" = some .global) :
    Resolves (Target.rules imports .typescript) env header := by
  simp [header, resolves_block, Code.declares, constructors_eq_nil, data, arrow, error,
    schemaMetadata, assertMetadata]

theorem globals_outside (ty : LaicType) : ∀ name ∈ globals ty, name ∉ scaffoldNames := by
  unfold globals
  split <;> decide

theorem readsOutside_outside (structDef : StructDef) :
    ∀ name ∈ readsOutside structDef, name ∉ scaffoldNames := by
  intro name listed
  cases List.mem_append.mp listed with
  | inl inHeader =>
    have outside : ∀ name ∈ ["arrow", "Error", "laicSchemaMetadata", "laicAssertMetadata"],
        name ∉ scaffoldNames := by decide
    exact outside name inHeader
  | inr inFields =>
    obtain ⟨field, _, isGlobal⟩ := List.mem_flatMap.mp inFields
    exact globals_outside field.ty name isGlobal

/-- The method reads what is listed from outside. -/
theorem uses_readsOutside (structDef : StructDef) :
    ∀ name ∈ readsOutside structDef, (name, Owner.global) ∈ (fromIpc structDef).body.uses := by
  intro name listed
  simp only [fromIpc, Code.uses_seq, Code.uses_all, List.flatMap_map, List.mem_append,
    List.mem_flatMap]
  cases List.mem_append.mp listed with
  | inl inHeader =>
    have used : ∀ name ∈ ["arrow", "Error", "laicSchemaMetadata", "laicAssertMetadata"],
        (name, Owner.global) ∈ header.uses := by decide
    exact .inl (used name inHeader)
  | inr inFields =>
    obtain ⟨field, isField, isGlobal⟩ := List.mem_flatMap.mp inFields
    exact .inr (.inl ⟨field, isField, uses_fieldExtraction field name isGlobal⟩)

theorem name_mem_constants (field : FieldDef) : field.name ∈ constants field := by
  unfold constants
  repeat' split
  all_goals simp

/-- In front of a field, a name that is not a constant of the fields is as it is behind the
header. -/
theorem before_field {structDef : StructDef} {before behind : List FieldDef}
    (split : structDef.fields = before ++ behind) {name : String}
    (absent : name ∉ structDef.fields.flatMap constants) (env : Env Owner) :
    (Code.all (before.map fieldExtraction)).after (header.after env) name =
      if name ∈ ["table", "batch", "schemaMetadata"] then some .scaffold else env name := by
  have ownedHeader : ∀ binding ∈ header.binds, binding.2 = (fun _ => .scaffold) binding.1 := by
    decide
  have declaredHeader : header.declares = ["table", "batch", "schemaMetadata"] := rfl
  have notBefore : name ∉ (Code.all (before.map fieldExtraction)).declares := by
    rw [declares_extractions]
    rw [split, List.flatMap_append, List.mem_append, not_or] at absent
    exact absent.1
  rw [Code.after_of_notMem notBefore, Code.after_apply (fun _ => .scaffold) ownedHeader,
    declaredHeader]

theorem method_iff (imports : List String) {types : List String} {structDef : StructDef}
    (declared : structDef.name ∈ types) :
    (fromIpc structDef).Hygienic (Target.rules imports .typescript) (moduleNames types)
        .scaffold ↔
      (structDef.fields.flatMap constants).Nodup ∧
        (∀ name ∈ structDef.fields.flatMap constants,
          name ∉ structDef.name :: scaffoldNames ++ readsOutside structDef) ∧
        (∀ name ∈ readsOutside structDef, name ∉ types) ∧ structDef.name ∉ scaffoldNames := by
  constructor
  · rintro ⟨distinct, parameters, resolved⟩
    have distinct := distinct rfl
    rw [declares_body, List.nodup_append] at distinct
    obtain ⟨_, distinct, apart⟩ := distinct
    have data := parameters rfl "data" (by simp [fromIpc])
    rw [declares_body, List.mem_append, not_or] at data
    -- what is read from outside is found in front of the method
    have found (name : String) (owner : Owner) (outside : IsOutside owner)
        (used : (name, owner) ∈ (fromIpc structDef).body.uses) :=
      (entry_outside imports types name owner outside).mp
        (resolved.env_eq used fun bound => owners_body structDef owner bound outside)
    have outside (name : String) (listed : name ∈ readsOutside structDef) :=
      found name .global True.intro (uses_readsOutside structDef name listed)
    have structName := found structDef.name (.type structDef.name) True.intro (by simp [fromIpc])
    refine ⟨distinct, ?_, ?_, structName.1⟩
    · intro name constant listed
      cases List.mem_append.mp listed with
      | inr isOutside => exact (outside name isOutside).2.1 constant
      | inl isLocal =>
        simp only [scaffoldNames, List.mem_cons, List.not_mem_nil, or_false] at isLocal
        rcases isLocal with rfl | rfl | rfl | rfl | rfl
        · exact structName.2.1 constant
        · exact data.2 constant
        · exact apart "table" (by simp) "table" constant rfl
        · exact apart "batch" (by simp) "batch" constant rfl
        · exact apart "schemaMetadata" (by simp) "schemaMetadata" constant rfl
    · intro name listed
      exact moduleNames_eq_global.mp (outside name listed).2.2
  · rintro ⟨distinct, fieldsFree, typesFree, structName⟩
    have untaken {name : String}
        (listed : name ∈ structDef.name :: scaffoldNames ++ readsOutside structDef) :
        name ∉ structDef.fields.flatMap constants := fun constant =>
      fieldsFree name constant listed
    have outside {name : String} (listed : name ∈ readsOutside structDef) :=
      (entry_outside imports types name .global True.intro).mpr
        ⟨readsOutside_outside structDef name listed, untaken (List.mem_append_right _ listed),
          moduleNames_eq_global.mpr (typesFree name listed)⟩
    refine ⟨fun _ => ?_, fun _ name param => ?_, ?_, ?_, ?_, ?_⟩
    · rw [declares_body, List.nodup_append]
      refine ⟨by decide, distinct, fun name ours other constant same => ?_⟩
      subst same
      refine untaken ?_ constant
      simp only [List.mem_cons, List.not_mem_nil, or_false] at ours
      rcases ours with rfl | rfl | rfl <;> simp [scaffoldNames]
    · simp only [fromIpc, List.mem_singleton] at param
      rw [declares_body, param, List.mem_append, not_or]
      exact ⟨by decide, untaken (by simp [scaffoldNames])⟩
    · exact resolves_header rfl (outside (by simp [readsOutside])) (outside (by simp [readsOutside]))
        (outside (by simp [readsOutside])) (outside (by simp [readsOutside]))
    · rw [Scope.resolves_all_map]
      intro before field behind split
      have isField : field ∈ structDef.fields := by
        rw [split]
        exact List.mem_append_right _ List.mem_cons_self
      have constant : field.name ∈ structDef.fields.flatMap constants :=
        List.mem_flatMap_of_mem isField (name_mem_constants field)
      have ofField {name : String} (isGlobal : name ∈ globals field.ty) :
          name ∈ readsOutside structDef :=
        List.mem_append_right _ (List.mem_flatMap_of_mem isField isGlobal)
      have behindHeader {name : String} (listed : name ∈ readsOutside structDef) := by
        have local' := readsOutside_outside structDef name listed
        have free := before_field split (untaken (List.mem_append_right _ listed))
          ((fromIpc structDef).entry (Target.rules imports .typescript) (moduleNames types)
            .scaffold)
        rw [if_neg fun inHeader => local' (List.mem_cons_of_mem _ inHeader), outside listed] at free
        exact free
      apply resolves_fieldExtraction field
      · exact before_field split (untaken (by simp [scaffoldNames])) _
      · exact before_field split (untaken (by simp [scaffoldNames])) _
      · exact behindHeader (by simp [readsOutside])
      · exact behindHeader (by simp [readsOutside])
      · intro name isGlobal
        exact behindHeader (ofField isGlobal)
      · intro name listed same
        rw [← same] at constant
        rcases List.mem_append.mp listed with first | isGlobal
        · refine untaken ?_ constant
          simp only [List.mem_cons, List.not_mem_nil, or_false] at first
          rcases first with rfl | rfl <;> simp [scaffoldNames, readsOutside]
        · exact untaken (List.mem_append_right _ (ofField isGlobal)) constant
    · have absent : structDef.name ∉ structDef.fields.flatMap constants := untaken (by simp)
      have notLocal : structDef.name ∉ ["table", "batch", "schemaMetadata"] := fun inHeader =>
        structName (List.mem_cons_of_mem _ inHeader)
      rw [resolves_readsType, before_field (List.append_nil _).symm absent, if_neg notLocal]
      exact (entry_outside imports types structDef.name (.type structDef.name) True.intro).mpr
        ⟨structName, absent, moduleNames_eq_type.mpr declared⟩
    · rw [after_readsType, resolves_build]
      intro field isField
      apply Code.after_of_nodup
      · rwa [declares_extractions]
      · simp only [Code.binds_all, List.flatMap_map, List.mem_flatMap, binds_fieldExtraction]
        exact ⟨field, isField, List.mem_map_of_mem (name_mem_constants field)⟩

end TsNames

/-! ## All targets -/

/-- The glob imports bring only names with capitals, as Rust names constants and
constructors. -/
def Capitalized (imports : List String) : Prop :=
  ∀ name ∈ imports, name.toList.any Char.isUpper = true

theorem declarable_of_capitalized {imports : List String} (capitalized : Capitalized imports) :
    RustNames.Declarable imports := by
  have lower : ∀ name ∈ RustNames.localNames, name.toList.any Char.isUpper = false := by decide
  have notPrelude : ∀ name ∈ RustNames.localNames, name ∉ ["Some", "None", "Ok", "Err"] := by
    decide
  intro name isLocal member
  cases List.mem_append.mp member with
  | inl prelude => exact notPrelude name isLocal prelude
  | inr imported => simpa [lower name isLocal] using capitalized name imported

/-- An identifier is none of the variables that the generator marks with an underscore. -/
theorem notMem_localNames_of_isIdent {name : String} (ident : IsIdent name.toList) :
    name ∉ PythonNames.localNames := by
  have marked : ∀ other ∈ PythonNames.localNames,
      other.toList.head?.any Char.isAlpha = false := by decide
  obtain ⟨first, rest, text, isAlpha, _⟩ := ident
  intro isLocal
  have notAlpha := marked name isLocal
  simp [text, isAlpha] at notAlpha

/-- The structs of a file are declared in it. -/
theorem structDeclaration_mem {file : LaicFile} {entry : SkillDef × String × StructDef}
    (member : entry ∈ file.structs) : structDeclaration entry ∈ declarations file := by
  obtain ⟨skill, isSkill, listed⟩ := List.mem_flatMap.mp member
  refine List.mem_flatMap.mpr ⟨skill, isSkill, ?_⟩
  simp only [List.mem_cons, List.not_mem_nil, or_false] at listed
  rcases listed with rfl | rfl <;> simp [structDeclaration]

theorem name_mem_typeNames {file : LaicFile} {entry : SkillDef × String × StructDef}
    (member : entry ∈ file.structs) : entry.2.2.name ∈ typeNames file :=
  List.mem_map_of_mem (f := Declaration.name) (structDeclaration_mem member)

theorem exists_declaredBefore {file : LaicFile} {entry : SkillDef × String × StructDef}
    (member : entry ∈ file.structs) : ∃ types, DeclaredBefore file entry types := by
  obtain ⟨before, behind, split⟩ := List.append_of_mem (structDeclaration_mem member)
  exact ⟨_, before, behind, split, rfl⟩

/-- The decoder of a struct that is named by identifiers is hygienic just if the names of the
struct and of the types around it are safe. -/
theorem hygienic_iff_namesSafe {imports : List String} (capitalized : Capitalized imports)
    {file : LaicFile} {entry : SkillDef × String × StructDef} (member : entry ∈ file.structs)
    (named : NamedStruct entry.2.2) (target : Target) :
    HygienicDecoder imports file target entry ↔ target.NamesSafe imports file entry := by
  cases target with
  | rust =>
    have method := RustNames.method_iff entry.2.2 (declarable_of_capitalized capitalized)
    constructor
    · intro hygienic
      obtain ⟨fields, batch⟩ := method.mp hygienic.method
      exact ⟨fields, batch, hygienic.types⟩
    · intro safe
      exact ⟨method.mpr ⟨safe.fields, safe.batch⟩, fun _ _ => True.intro,
        fun _ _ => List.not_mem_nil, safe.types⟩
  | python =>
    have lettered : ∀ name ∈ entry.2.2.names, name ∉ PythonNames.localNames := by
      intro name isName
      obtain ⟨field, isField, rfl⟩ := List.mem_map.mp isName
      exact notMem_localNames_of_isIdent (named.fields field isField)
    have method := PythonNames.method_iff imports (typeNames file) lettered
    constructor
    · intro hygienic
      obtain ⟨fields, types, batch, tensors⟩ := method.mp hygienic.method
      obtain ⟨types', before⟩ := exists_declaredBefore member
      have classVariables := ((PythonNames.classBody_iff types').mp
        (hygienic.classBody types' before)).1
      exact ⟨fields, types, List.forall_mem_map.mpr hygienic.members, batch, tensors,
        classVariables, fun types before =>
          ((PythonNames.classBody_iff types).mp (hygienic.classBody types before)).2⟩
    · intro safe
      exact ⟨method.mpr ⟨safe.fields, safe.types, safe.batch, safe.tensors⟩,
        fun types before =>
          (PythonNames.classBody_iff types).mpr ⟨safe.classVariables, safe.earlierTypes types before⟩,
        fun field isField => safe.members field.name (List.mem_map_of_mem isField),
        fun _ impossible => absurd impossible List.not_mem_nil⟩
  | typescript =>
    have method := TsNames.method_iff imports (name_mem_typeNames member)
    constructor
    · intro hygienic
      obtain ⟨distinct, fields, types, structName⟩ := method.mp hygienic.method
      refine ⟨distinct, fields, ?_, structName, List.forall_mem_map.mpr hygienic.members⟩
      exact List.forall_mem_append.mpr ⟨types, hygienic.types⟩
    · intro safe
      obtain ⟨types, typesRead⟩ := List.forall_mem_append.mp safe.types
      exact ⟨method.mpr ⟨safe.distinct, safe.fields, types, safe.struct⟩, fun _ _ => True.intro,
        fun field isField => safe.members field.name (List.mem_map_of_mem isField), typesRead⟩

/-- For every struct of an accepted file, the decode method of a target is hygienic just if
the names of the struct and of the file's types are safe for the target. -/
theorem decoderHygienic_iff {imports : List String} (capitalized : Capitalized imports)
    {source : String} {file : LaicFile} (accepted : compile source = .ok file)
    {entry : SkillDef × String × StructDef} (member : entry ∈ file.structs) (target : Target) :
    HygienicDecoder imports file target entry ↔ target.NamesSafe imports file entry :=
  hygienic_iff_namesSafe capitalized member (namedStruct_of_compile accepted member) target

theorem decoderHygienic_iff_batch :
    ∃ file, compile (skillSource "I" "text:string;" "O" "batch:bool;x:bool;" "") = .ok file ∧
      ∃ entry ∈ file.structs, ∀ target : Target,
        HygienicDecoder ["DECIMAL128_MAX_PRECISION"] file target entry ↔
          target.NamesSafe ["DECIMAL128_MAX_PRECISION"] file entry := by
  obtain ⟨file, accepted, found⟩ : ∃ file,
      compile (skillSource "I" "text:string;" "O" "batch:bool;x:bool;" "") = .ok file ∧
        (file.structs.any fun entry => entry.2.1 == "output") = true :=
    Except.exists_of_any (by decide +kernel)
  obtain ⟨entry, member, _⟩ := List.any_eq_true.mp found
  have capitalized : Capitalized ["DECIMAL128_MAX_PRECISION"] := by
    unfold Capitalized
    decide
  exact ⟨file, accepted, entry, member, decoderHygienic_iff capitalized accepted member⟩

/-- Validation lets a field be named `batch`, and the extraction of the next field then reads
its value in place of the batch. -/
theorem decoderHygienic_counterexample :
    ¬ ∀ imports, Capitalized imports → ∀ source file, compile source = .ok file →
      ∀ entry ∈ file.structs, ∀ target, HygienicDecoder imports file target entry := by
  intro all
  obtain ⟨file, accepted, found⟩ : ∃ file,
      compile (skillSource "I" "text:string;" "O" "batch:bool;x:bool;" "") = .ok file ∧
        (file.structs.any fun entry =>
          let method := Target.decodeMethod entry.2.2 .python
          let rules := Target.rules [] .python
          let outer := Target.outer (typeNames file) .python
          !decide (Resolves rules (method.entry rules outer .scaffold) method.body)) = true :=
    Except.exists_of_any (by decide +kernel)
  obtain ⟨entry, member, captured⟩ := List.any_eq_true.mp found
  have hygienic := all [] (List.forall_mem_nil _) _ file accepted entry member .python
  simp [hygienic.method.resolves] at captured

end Laic
