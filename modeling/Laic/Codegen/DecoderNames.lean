import Laic.Codegen.Contract
import Laic.Codegen.Names
import Laic.Lib.Scope

/-! # Names in the generated decoders

The decode methods as the generators write them, as far as names of variables go: each line
with the names it reads, in order, and the name it declares.  The names that stand for types
only are listed apart, since a variable is never found in their place; macros, methods and
literals are left out. -/

namespace Laic

open Scope (Code Method Resolves Rules)

/-- Whose a binding is: of the module or the language around the method, of a type that the
file declares, of the generator in the method, or made for a field. -/
inductive Owner where
  | global
  | type (name : String)
  | scaffold
  | field (name : String)
  deriving DecidableEq, Repr

/-- The generator reads a parameter or a variable of its own. -/
def reads (name : String) : Code Owner := .use name .scaffold

/-- The generator reads a name of the module or the language. -/
def readsGlobal (name : String) : Code Owner := .use name .global

/-- The generator reads the name of a type of the file. -/
def readsType (name : String) : Code Owner := .use name (.type name)

/-- A variable the generator declares for itself. -/
def declares (name : String) : Code Owner := .bind name .scaffold

def block (codes : List (Code Owner)) : Code Owner := .scope (.all codes)

/-- A closure whose body reads its parameter, and then the names given. -/
def lambda (param : String) (names : List String) : Code Owner :=
  block (declares param :: reads param :: names.map reads)

/-- The variable of a field, under one of the names derived from the field's. -/
def ofField (fieldName name : String) : Code Owner := .use name (.field fieldName)

def declaresFor (fieldName name : String) : Code Owner := .bind name (.field fieldName)

section Lines

variable {rules : Rules} {env : Scope.Env Owner} {name fieldName : String}

@[simp] theorem resolves_reads : Resolves rules env (reads name) ↔ env name = some .scaffold :=
  Iff.rfl

@[simp] theorem resolves_readsGlobal :
    Resolves rules env (readsGlobal name) ↔ env name = some .global := Iff.rfl

@[simp] theorem resolves_readsType :
    Resolves rules env (readsType name) ↔ env name = some (.type name) := Iff.rfl

@[simp] theorem resolves_declares :
    Resolves rules env (declares name) ↔ name ∉ rules.constructors := Iff.rfl

@[simp] theorem resolves_ofField :
    Resolves rules env (ofField fieldName name) ↔ env name = some (.field fieldName) := Iff.rfl

@[simp] theorem resolves_declaresFor :
    Resolves rules env (declaresFor fieldName name) ↔ name ∉ rules.constructors := Iff.rfl

@[simp] theorem after_reads : (reads name).after env = env := rfl

@[simp] theorem after_readsGlobal : (readsGlobal name).after env = env := rfl

@[simp] theorem after_readsType : (readsType name).after env = env := rfl

@[simp] theorem after_declares : (declares name).after env = env.bind name .scaffold := rfl

@[simp] theorem after_ofField : (ofField fieldName name).after env = env := rfl

@[simp] theorem after_declaresFor :
    (declaresFor fieldName name).after env = env.bind name (.field fieldName) := rfl

@[simp] theorem after_block (codes : List (Code Owner)) : (block codes).after env = env := rfl

@[simp] theorem binds_reads : (reads name).binds = [] := rfl

@[simp] theorem binds_readsGlobal : (readsGlobal name).binds = [] := rfl

@[simp] theorem binds_readsType : (readsType name).binds = [] := rfl

@[simp] theorem binds_declares : (declares name).binds = [(name, .scaffold)] := rfl

@[simp] theorem binds_ofField : (ofField fieldName name).binds = [] := rfl

@[simp] theorem binds_declaresFor :
    (declaresFor fieldName name).binds = [(name, .field fieldName)] := rfl

@[simp] theorem binds_block (codes : List (Code Owner)) : (block codes).binds = [] := rfl

@[simp] theorem uses_reads : (reads name).uses = [(name, .scaffold)] := rfl

@[simp] theorem uses_readsGlobal : (readsGlobal name).uses = [(name, .global)] := rfl

@[simp] theorem uses_readsType : (readsType name).uses = [(name, .type name)] := rfl

@[simp] theorem uses_declares : (declares name).uses = [] := rfl

@[simp] theorem uses_ofField : (ofField fieldName name).uses = [(name, .field fieldName)] := rfl

@[simp] theorem uses_declaresFor : (declaresFor fieldName name).uses = [] := rfl

@[simp] theorem uses_block (codes : List (Code Owner)) :
    (block codes).uses = codes.flatMap Code.uses := Code.uses_all codes

@[simp] theorem owners_reads : (reads name).owners = [] := rfl

@[simp] theorem owners_readsGlobal : (readsGlobal name).owners = [] := rfl

@[simp] theorem owners_readsType : (readsType name).owners = [] := rfl

@[simp] theorem owners_declares : (declares name).owners = [.scaffold] := rfl

@[simp] theorem owners_ofField : (ofField fieldName name).owners = [] := rfl

@[simp] theorem owners_declaresFor :
    (declaresFor fieldName name).owners = [.field fieldName] := rfl

@[simp] theorem owners_block (codes : List (Code Owner)) :
    (block codes).owners = codes.flatMap Code.owners := Code.owners_all codes

end Lines

/-- The fields' variables, one after the other, where the value is built. -/
def build (fields : List FieldDef) : Code Owner :=
  .all (fields.map fun field => ofField field.name field.name)

theorem binds_build (fields : List FieldDef) : (build fields).binds = [] := by
  simp [build, Code.binds_all]

theorem resolves_build {rules : Rules} {env : Scope.Env Owner} {fields : List FieldDef} :
    Resolves rules env (build fields) ↔
      ∀ field ∈ fields, env field.name = some (.field field.name) := by
  rw [build, Scope.resolves_all_silent (by simp)]
  simp

/-- The types whose extraction checks tensor metadata. -/
def LaicType.tensorDims : LaicType → Option (List Dimension)
  | .tensor _ dims => some dims
  | .list (.tensor _ dims) => some dims
  | .optional (.tensor _ dims) => some dims
  | _ => none

/-! ## Rust -/

namespace RustNames

/-- `return Err(…)`, with the names its message reads. -/
def returnErr (names : List String) : Code Owner := block (readsGlobal "Err" :: names.map reads)

def metadataValidation : Code Owner :=
  let entry := .all
    [ reads "meta",
      block [readsGlobal "None", returnErr []],
      block [readsGlobal "Some", declares "v", reads "v", returnErr ["v"]] ]
  .all [reads "batch", declares "schema", reads "schema", declares "meta", entry, entry, entry]

def header : Code Owner := .all
  [ reads "bytes", declares "cursor",
    reads "cursor", readsGlobal "None", declares "reader",
    reads "reader", declares "batch",
    reads "batch", returnErr [],
    reads "batch", returnErr ["batch"],
    reads "reader",
    block [readsGlobal "Some", readsGlobal "Ok", returnErr []],
    block [readsGlobal "Some", readsGlobal "Err", declares "e", returnErr ["e"]],
    block [readsGlobal "None"],
    metadataValidation ]

def tensorShapeValidation (dims : List Dimension) : Code Owner := .all
  [ reads "meta", declares "shape_str",
    reads "shape_str", lambda "c" ["c"], lambda "s" [], lambda "s" [], declares "shape",
    reads "shape", returnErr ["shape"],
    -- one comparison for each dimension of a fixed size
    .all ((dims.filter fun dim => !dim.isDynamic).map fun _ =>
      .all [reads "shape", returnErr ["shape"]]) ]

def tensorMetadataValidation (dims : List Dimension) : Code Owner := .all
  [ reads "batch", declares "schema",
    reads "schema", declares "field",
    reads "field", declares "meta",
    reads "meta", declares "dtype_str",
    reads "dtype_str", returnErr ["dtype_str"],
    tensorShapeValidation dims ]

/-- The check of the metadata of a type that has some. -/
def tensorMetadataOf (ty : LaicType) : Code Owner :=
  match ty.tensorDims with
  | some dims => tensorMetadataValidation dims
  | none => .skip

def tensorExtraction (ty : LaicType) : Code Owner := block
  [ tensorMetadataOf ty,
    reads "batch", lambda "c" [], declares "col",
    reads "col" ]

def listExtraction (ty inner : LaicType) : Code Owner := block
  [ reads "batch", lambda "c" [], declares "list_arr",
    reads "list_arr", declares "inner_arr",
    tensorMetadataOf ty,
    reads "inner_arr", declares "typed",
    reads "typed",
    match inner with
    | .optional _ => block
        [ declares "i", reads "typed", reads "i", block [readsGlobal "None"],
          block [readsGlobal "Some", reads "typed", reads "i"] ]
    | _ => block [declares "i", reads "typed", reads "i"] ]

def optionalExtraction (ty inner : LaicType) : Code Owner := block
  [ reads "batch", declares "col",
    tensorMetadataOf ty,
    reads "col", block [readsGlobal "None"],
    match inner with
    | .list _ => block
        [ reads "col", declares "list_arr",
          reads "list_arr", declares "inner_arr",
          reads "inner_arr", declares "typed",
          readsGlobal "Some", reads "typed", block [declares "i", reads "typed", reads "i"] ]
    | _ => block [readsGlobal "Some", reads "col"] ]

def mapExtraction : Code Owner := block
  [ reads "batch", lambda "c" [], declares "map_arr",
    reads "map_arr", declares "entries",
    reads "entries", declares "struct_arr",
    reads "struct_arr", declares "key_arr",
    reads "struct_arr", declares "val_arr",
    declares "map",
    reads "key_arr",
    block
      [ declares "i",
        reads "key_arr", reads "i", declares "k",
        reads "val_arr", reads "i", declares "v",
        reads "map", reads "k", reads "v" ],
    reads "map" ]

def simpleExtraction (default : Option Literal) : Code Owner := .all
  [ reads "batch",
    block
      [ readsGlobal "Some", declares "column",
        reads "batch", declares "schema",
        reads "schema", declares "field",
        reads "field", returnErr ["field"],
        reads "column" ],
    match default with
    | some _ => block [readsGlobal "None"]
    | none => block [readsGlobal "None", returnErr []] ]

/-- What the variable of the field is initialised with. -/
def initializer (field : FieldDef) : Code Owner :=
  match field.ty with
  | .tensor _ _ => tensorExtraction field.ty
  | .list inner => listExtraction field.ty inner
  | .optional inner => optionalExtraction field.ty inner
  | .map _ _ => mapExtraction
  | _ => simpleExtraction field.default

def fieldExtraction (field : FieldDef) : Code Owner :=
  .seq (initializer field) (declaresFor field.name field.name)

def fromArrowIpc (structDef : StructDef) : Method Owner where
  params := ["bytes"]
  body := .seq header (.seq (.all (structDef.fields.map fieldExtraction))
    (.seq (readsGlobal "Ok") (build structDef.fields)))

/-- The name of the array type of a scalar. -/
def arrayName : Arrow.Scalar → String
  | .utf8 => "StringArray"
  | .binary => "BinaryArray"
  | .boolean => "BooleanArray"
  | .int8 => "Int8Array"
  | .int16 => "Int16Array"
  | .int32 => "Int32Array"
  | .int64 => "Int64Array"
  | .uint8 => "UInt8Array"
  | .float32 => "Float32Array"
  | .float64 => "Float64Array"

/-- The types that the check of a shape text names. -/
def shapeTypes : List String := ["Vec", "usize", "Result"]

/-- The types that an extraction names, in turbofishes and in paths. -/
def typesRead : Extraction → List String
  | .simple value _ _ => ["DataType", arrayName value.array]
  | .tensor _ _ => "BinaryArray" :: shapeTypes
  | .list none item => ["ListArray", arrayName item.array, "Vec"]
  | .list (some _) item => ["ListArray", arrayName item.array, "Vec"] ++ shapeTypes
  | .listOptional item | .optionalList item => ["ListArray", arrayName item.array, "Vec"]
  | .optional none inner => [arrayName inner.array]
  | .optional (some _) inner => arrayName inner.array :: shapeTypes
  | .map key value =>
    ["MapArray", "StructArray", arrayName key.array, arrayName value.array, "HashMap"]

end RustNames

/-! ## Python -/

namespace PythonNames

def metadataValidation : Code Owner :=
  let entry := .all
    [ reads "meta", declares "_v",
      reads "_v", readsGlobal "ValueError",
      reads "_v", readsGlobal "ValueError", reads "_v" ]
  .all [reads "batch", declares "meta", entry, entry, entry]

def header : Code Owner := .all
  [ readsGlobal "ipc", reads "data", declares "reader",
    reads "reader", declares "batch",
    reads "batch", readsGlobal "ValueError",
    reads "batch", readsGlobal "ValueError", reads "batch",
    reads "reader", readsGlobal "ValueError", readsGlobal "StopIteration",
    metadataValidation ]

def scalarExtraction (field : FieldDef) : Code Owner :=
  match field.default with
  | some _ => .all
    [ reads "batch", reads "batch", declares "_col",
      reads "_col",
      reads "batch", declares "_field",
      reads "_field", readsGlobal "pa", readsGlobal "ValueError", reads "_field",
      reads "_col", declaresFor field.name field.name,
      -- the other branch assigns the default
      declaresFor field.name field.name ]
  | none => .all
    [ reads "batch", declares "_col",
      reads "batch", declares "_field",
      reads "_field", readsGlobal "pa", readsGlobal "ValueError", reads "_field",
      reads "_col", declaresFor field.name field.name ]

def tensorMetadataValidation (dims : List Dimension) : Code Owner := .all
  [ reads "batch", declares "_field",
    reads "_field", declares "_fmeta",
    reads "_fmeta", declares "_dtype",
    reads "_dtype", readsGlobal "ValueError",
    reads "_dtype", readsGlobal "ValueError", reads "_dtype",
    reads "_fmeta", declares "_shape_str",
    reads "_shape_str", readsGlobal "ValueError",
    reads "_shape_str", block [declares "x", reads "x", readsGlobal "int", reads "x"],
    declares "_shape",
    readsGlobal "len", reads "_shape", readsGlobal "ValueError", readsGlobal "len", reads "_shape",
    .all ((dims.filter fun dim => !dim.isDynamic).map fun _ =>
      .all [reads "_shape", readsGlobal "ValueError", reads "_shape"]) ]

def tensorExtraction (field : FieldDef) (dims : List Dimension) : Code Owner := .all
  [ reads "batch", declaresFor field.name field.name,
    tensorMetadataValidation dims ]

def listExtraction (field : FieldDef) : LaicType → Code Owner
  | .tensor _ dims => .all
    [ tensorMetadataValidation dims,
      reads "batch", lambda "v" [], declaresFor field.name field.name ]
  | _ => .all [reads "batch", declaresFor field.name field.name]

def optionalExtraction (field : FieldDef) : LaicType → Code Owner
  | .tensor _ dims => .all
    [ tensorMetadataValidation dims,
      reads "batch", declares "_val",
      reads "_val", reads "_val", declaresFor field.name field.name ]
  | _ => .all
    [ reads "batch", declares "_val",
      reads "_val", reads "_val", declaresFor field.name field.name ]

def mapExtraction (field : FieldDef) : Code Owner := .all
  [ reads "batch", declares "_map_val",
    reads "_map_val", readsGlobal "dict", reads "_map_val", declaresFor field.name field.name ]

def fieldExtraction (field : FieldDef) : Code Owner :=
  match field.ty with
  | .tensor _ dims => tensorExtraction field dims
  | .list inner => listExtraction field inner
  | .optional inner => optionalExtraction field inner
  | .map _ _ => mapExtraction field
  | _ => scalarExtraction field

def fromIpc (structDef : StructDef) : Method Owner where
  params := ["cls", "data"]
  body := .seq header (.seq (.all (structDef.fields.map fieldExtraction))
    (.seq (reads "cls") (build structDef.fields)))

/-- The body of the class.  Annotations are not evaluated, so a field is a name of the class
only if it has a default. -/
def classBody (structDef : StructDef) : Code Owner :=
  .seq (.all [declares "SKILL_ID", declares "VERSION", declares "DIRECTION"])
    (.seq
      (.all ((structDef.fields.filter fun field => field.default.isSome).map fun field =>
        declaresFor field.name field.name))
      (.all [declares "to_ipc", readsGlobal "classmethod", declares "from_ipc"]))

end PythonNames

/-! ## TypeScript -/

namespace TsNames

def columnOf (field : FieldDef) : String := field.name ++ "_column"

def fieldOf (field : FieldDef) : String := field.name ++ "_field"

def header : Code Owner := .all
  [ readsGlobal "arrow", reads "data", declares "table",
    reads "table", block [readsGlobal "Error"],
    reads "table", block [readsGlobal "Error", reads "table"],
    reads "table", block [readsGlobal "Error"],
    reads "table", declares "batch",
    readsGlobal "laicSchemaMetadata", reads "table", declares "schemaMetadata",
    readsGlobal "laicAssertMetadata", reads "schemaMetadata",
    readsGlobal "laicAssertMetadata", reads "schemaMetadata",
    readsGlobal "laicAssertMetadata", reads "schemaMetadata" ]

/-- `const f_field = table.schema.fields.find((candidate) => …)!`. -/
def findField (field : FieldDef) : Code Owner := .all
  [ reads "table", lambda "candidate" [], declaresFor field.name (fieldOf field) ]

def tensorMetadataAssertion (field : FieldDef) : Code Owner := .all
  [ findField field,
    readsGlobal "laicAssertTensorMetadata", ofField field.name (fieldOf field) ]

def assertFieldType (field : FieldDef) : Code Owner := .all
  [ readsGlobal "laicAssertFieldType", ofField field.name (fieldOf field), readsGlobal "arrow" ]

def scalarExtraction (field : FieldDef) : Code Owner :=
  match field.default with
  | some _ => .all
    [ reads "batch", declaresFor field.name (columnOf field),
      declaresFor field.name field.name,
      ofField field.name (columnOf field),
      block [ofField field.name field.name],
      block
        [ findField field, assertFieldType field,
          ofField field.name (columnOf field), ofField field.name field.name ] ]
  | none => .all
    [ reads "batch", declaresFor field.name (columnOf field),
      ofField field.name (columnOf field), block [readsGlobal "Error"],
      findField field, assertFieldType field,
      ofField field.name (columnOf field), declaresFor field.name field.name ]

def listExtraction (field : FieldDef) : LaicType → Code Owner
  | .tensor _ _ => .all
    [ tensorMetadataAssertion field,
      readsGlobal "Array", reads "batch", declaresFor field.name field.name ]
  | _ => .all [readsGlobal "Array", reads "batch", declaresFor field.name field.name]

def readOptional (field : FieldDef) : Code Owner := .all
  [ reads "batch", declaresFor field.name (columnOf field),
    ofField field.name (columnOf field), ofField field.name (columnOf field),
    declaresFor field.name field.name ]

def optionalExtraction (field : FieldDef) : LaicType → Code Owner
  | .tensor _ _ => .all [tensorMetadataAssertion field, readOptional field]
  | _ => readOptional field

def fieldExtraction (field : FieldDef) : Code Owner :=
  match field.ty with
  | .tensor _ _ => .all
    [ tensorMetadataAssertion field,
      reads "batch", declaresFor field.name field.name ]
  | .list inner => listExtraction field inner
  | .optional inner => optionalExtraction field inner
  | .map _ _ => .all [reads "batch", declaresFor field.name field.name]
  | _ => scalarExtraction field

def fromIpc (structDef : StructDef) : Method Owner where
  params := ["data"]
  body := .seq header (.seq (.all (structDef.fields.map fieldExtraction))
    (.seq (readsType structDef.name) (build structDef.fields)))

/-- The names of types in `ts_type`, apart from those that are keywords. -/
def typeNamesOf : LaicType → List String
  | .bytes | .tensor _ _ => ["Uint8Array"]
  | .list inner => if bracketed (tsType inner) then "Array" :: typeNamesOf inner else typeNamesOf inner
  | .optional inner => typeNamesOf inner
  | .map key value => "Map" :: (typeNamesOf key ++ typeNamesOf value)
  | _ => []

/-- The types in the casts and annotations of an extraction. -/
def typesRead : LaicType → List String
  | .list inner => "Iterable" :: typeNamesOf inner
  | .optional inner => typeNamesOf inner
  | ty => typeNamesOf ty

end TsNames

/-! ## The decoders of a struct -/

/-- A pattern of a `let` matches the constructors of the prelude, and the constants and
constructors that the glob imports of the arrow crates bring, instead of binding their
names. -/
def Target.rules (imports : List String) : Target → Rules
  | .rust => ⟨false, true, ["Some", "None", "Ok", "Err"] ++ imports⟩
  | .python => ⟨true, true, []⟩
  | .typescript => ⟨true, false, []⟩

def Target.decodeMethod (structDef : StructDef) : Target → Method Owner
  | .rust => RustNames.fromArrowIpc structDef
  | .python => PythonNames.fromIpc structDef
  | .typescript => TsNames.fromIpc structDef

/-- The names at file scope: a type that the file declares stands in front of what the module
or the language has under its name. -/
def moduleNames (types : List String) : Scope.Env Owner := fun name =>
  if name ∈ types then some (.type name) else some .global

@[simp] theorem moduleNames_eq_global {types : List String} {name : String} :
    moduleNames types name = some .global ↔ name ∉ types := by
  simp [moduleNames]

@[simp] theorem moduleNames_eq_type {types : List String} {name : String} :
    moduleNames types name = some (.type name) ↔ name ∈ types := by
  simp [moduleNames]

/-- The names of variables around a method, where the file has declared the types given.  The
structs and enums of Rust are in the name space of types. -/
def Target.outer (types : List String) : Target → Scope.Env Owner
  | .rust => moduleNames []
  | .python | .typescript => moduleNames types

/-- The types, and in Rust the modules of paths, that the decode method names besides its own
struct.  Annotations are not evaluated in Python. -/
def Target.typesRead (structDef : StructDef) : Target → List String
  | .rust => ["u8", "Result", "Box", "std", "arrow_ipc"] ++ structDef.fields.flatMap fun field =>
      match rustFieldExtraction field with
      | .ok extraction => RustNames.typesRead extraction
      | .error _ => []
  | .python => []
  | .typescript => "Uint8Array" :: structDef.fields.flatMap fun field => TsNames.typesRead field.ty

/-- The members a generated class has in the name space of its fields.  The functions of a
Rust `impl` and the static members of a TypeScript class are not in it. -/
def Target.members : Target → List String
  | .rust => []
  | .python => ["SKILL_ID", "VERSION", "DIRECTION", "to_ipc", "from_ipc"]
  | .typescript => ["toIpc"]

/-- The statements of a class body that run when the class is made: only a Python class has
some, and there a name counts from where it is bound. -/
def Target.classBody (structDef : StructDef) : Target → Code Owner
  | .python => PythonNames.classBody structDef
  | .rust | .typescript => .skip

end Laic
