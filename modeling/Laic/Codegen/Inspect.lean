import Laic.Codegen.Python
import Laic.Codegen.RustSerialize
import Laic.Codegen.Typescript

/-! # One schema in four mappings

The lines that `inspect-schema` prints of a field, and the agreement of the three emitted
schema fields with one another and with those lines.  Child names and the nullability of
children, on which the targets differ, are erased; the printed type is compared as text,
and the text determines the type. -/

namespace Laic

open Arrow

/-! ## Printed lines -/

def LaicType.isNullable : LaicType → Bool
  | .optional _ => true
  | _ => false

/-- The tensor of a field that publishes tensor metadata. -/
def LaicType.tensorMetadata : LaicType → Option (TensorElementType × List Dimension)
  | .tensor dtype dims => some (dtype, dims)
  | .list inner | .optional inner =>
    match inner with
    | .tensor dtype dims => some (dtype, dims)
    | _ => none
  | _ => none

def LaicType.isContainerTensor : LaicType → Bool
  | .list (.tensor _ _) | .optional (.tensor _ _) => true
  | _ => false

def formatLaicDims (dims : List Dimension) : String :=
  let part : Dimension → String
    | .fixed size => toString size.toNat
    | .dynamic (some name) => name
    | .dynamic none => "_"
  "[" ++ String.intercalate "," (dims.map part) ++ "]"

def formatLaicType : LaicType → String
  | .string => "string"
  | .bytes => "bytes"
  | .bool => "bool"
  | .i8 => "i8"
  | .i16 => "i16"
  | .i32 => "i32"
  | .i64 => "i64"
  | .u8 => "u8"
  | .f32 => "f32"
  | .f64 => "f64"
  | .tensor dtype dims => "tensor<" ++ dtype.asStr ++ ">" ++ formatLaicDims dims
  | .list inner => "list<" ++ formatLaicType inner ++ ">"
  | .optional inner => "optional<" ++ formatLaicType inner ++ ">"
  | .map key value => "map<" ++ formatLaicType key ++ ", " ++ formatLaicType value ++ ">"

def formatArrowType : LaicType → String
  | .string => "DataType::Utf8"
  | .bytes | .tensor _ _ => "DataType::Binary"
  | .bool => "DataType::Boolean"
  | .i8 => "DataType::Int8"
  | .i16 => "DataType::Int16"
  | .i32 => "DataType::Int32"
  | .i64 => "DataType::Int64"
  | .u8 => "DataType::UInt8"
  | .f32 => "DataType::Float32"
  | .f64 => "DataType::Float64"
  | .list inner => "DataType::List(item: " ++ formatArrowType inner ++ ")"
  | .optional inner => formatArrowType inner
  | .map key value =>
    "DataType::Map(keys: " ++ formatArrowType key ++ ", values: " ++ formatArrowType value ++ ")"

def formatTensorShapeMetadata (dims : List Dimension) : String :=
  dimsAsShape dims

/-- The lines of a field, each the label in front and the text behind it. -/
def inspectField (field : FieldDef) : List (String × String) :=
  [("    Field: ", field.name),
    ("      LAIC type: ", formatLaicType field.ty),
    ("      Arrow type: ", formatArrowType field.ty),
    ("      Nullable: ", toString field.ty.isNullable)] ++
  match field.ty.tensorMetadata with
  | none => []
  | some (dtype, dims) =>
    [("      Metadata:", ""),
      ("        laic.tensor.dtype = ", dtype.asStr),
      ("        laic.tensor.shape = ", formatTensorShapeMetadata dims)] ++
    (if dims.any fun dim => dim matches .dynamic _ then
      [("        Note: 0 marks dynamic dimensions in tensor shape metadata.", "")] else []) ++
    (if field.ty.isContainerTensor then
      [("        Note: tensor metadata is stored on the outer field.", "")] else []) ++
    [("        laic.tensor.version = ", "1")]

/-! ## The printed type determines the type -/

/-- What the text of a type starts with. -/
inductive DiagnosticHead where
  | scalar (type : Scalar)
  | list
  | map
  deriving DecidableEq

namespace DiagnosticHead

def text : DiagnosticHead → List Char
  | .scalar .boolean => "DataType::Boolean".toList
  | .scalar .int8 => "DataType::Int8".toList
  | .scalar .int16 => "DataType::Int16".toList
  | .scalar .int32 => "DataType::Int32".toList
  | .scalar .int64 => "DataType::Int64".toList
  | .scalar .uint8 => "DataType::UInt8".toList
  | .scalar .float32 => "DataType::Float32".toList
  | .scalar .float64 => "DataType::Float64".toList
  | .scalar .utf8 => "DataType::Utf8".toList
  | .scalar .binary => "DataType::Binary".toList
  | .list => "DataType::List(item: ".toList
  | .map => "DataType::Map(keys: ".toList

def all : List DiagnosticHead :=
  [.list, .map] ++ [.boolean, .int8, .int16, .int32, .int64, .uint8, .float32, .float64, .utf8,
    .binary].map .scalar

theorem mem_all (head : DiagnosticHead) : head ∈ all := by
  cases head with
  | list | map => simp [all]
  | scalar type => cases type <;> simp [all]

/-- No head is the start of another. -/
theorem prefixFree :
    ∀ left ∈ all, ∀ right ∈ all, left.text.isPrefixOf right.text = true → left = right := by
  decide +kernel

/-- Two texts that start with heads and are the same start with the same head. -/
theorem append_inj {left right : DiagnosticHead} {rest rest' : List Char}
    (same : left.text ++ rest = right.text ++ rest') : left = right ∧ rest = rest' := by
  have equal : left = right := by
    have first : left.text <+: right.text ++ rest' := ⟨rest, same⟩
    cases List.prefix_or_prefix_of_prefix first (List.prefix_append right.text rest') with
    | inl isPrefix =>
      exact prefixFree left (mem_all left) right (mem_all right) (List.isPrefixOf_iff_prefix.mpr isPrefix)
    | inr isPrefix =>
      exact (prefixFree right (mem_all right) left (mem_all left)
        (List.isPrefixOf_iff_prefix.mpr isPrefix)).symm
  subst equal
  exact ⟨rfl, List.append_cancel_left same⟩

end DiagnosticHead

/-- The text that names a type: arrow-rs's own name of a scalar, and the texts of the children
in brackets. -/
def diagnosticText : DataType → List Char
  | .scalar type => DiagnosticHead.text (.scalar type)
  | .list _ _ item => DiagnosticHead.list.text ++ (diagnosticText item ++ ")".toList)
  | .map _ _ key value =>
    DiagnosticHead.map.text ++
      (diagnosticText key ++ (", values: ".toList ++ (diagnosticText value ++ ")".toList)))
  | .other name => name.toList

/-- Erased types, none of them foreign. -/
inductive Erased : DataType → Prop where
  | scalar (type : Scalar) : Erased (.scalar type)
  | list {item : DataType} (inner : Erased item) : Erased (.list "" false item)
  | map {key value : DataType} (isKey : Erased key) (isValue : Erased value) :
      Erased (.map ⟨"", "", "", false, false⟩ false key value)

theorem LaicType.erased_wireType (ty : LaicType) : Erased ty.wireType := by
  induction ty with
  | string | bytes | bool | i8 | i16 | i32 | i64 | u8 | f32 | f64 | tensor => exact .scalar _
  | list inner ih => exact .list ih
  | optional inner ih => exact ih
  | map key value ihKey ihValue => exact .map ihKey ihValue

theorem formatArrowType_toList (ty : LaicType) :
    (formatArrowType ty).toList = diagnosticText ty.wireType := by
  induction ty with
  | string | bytes | bool | i8 | i16 | i32 | i64 | u8 | f32 | f64 | tensor => rfl
  | list inner ih =>
    have text : formatArrowType (.list inner) =
        "DataType::List(item: " ++ formatArrowType inner ++ ")" := rfl
    rw [text, String.toList_append, String.toList_append, ih, List.append_assoc]
    rfl
  | optional inner ih => exact ih
  | map key value ihKey ihValue =>
    have text : formatArrowType (.map key value) = "DataType::Map(keys: " ++ formatArrowType key ++
        ", values: " ++ formatArrowType value ++ ")" := rfl
    rw [text, String.toList_append, String.toList_append, String.toList_append,
      String.toList_append, ihKey, ihValue, List.append_assoc, List.append_assoc, List.append_assoc]
    rfl

/-- The type and the rest are read off a text that starts with a type. -/
theorem diagnosticText_append_inj {left right : DataType} (leftErased : Erased left)
    (rightErased : Erased right) {rest rest' : List Char}
    (same : diagnosticText left ++ rest = diagnosticText right ++ rest') :
    left = right ∧ rest = rest' := by
  induction leftErased generalizing right rest rest' with
  | scalar type =>
    cases rightErased with
    | scalar type' =>
      obtain ⟨equal, rests⟩ := DiagnosticHead.append_inj same
      cases equal
      exact ⟨rfl, rests⟩
    | list | map =>
      simp only [diagnosticText, List.append_assoc] at same
      cases (DiagnosticHead.append_inj same).1
  | list leftInner ih =>
    cases rightErased with
    | list rightInner =>
      simp only [diagnosticText, List.append_assoc] at same
      obtain ⟨items, rests⟩ := ih rightInner (DiagnosticHead.append_inj same).2
      cases items
      exact ⟨rfl, List.append_cancel_left rests⟩
    | scalar | map =>
      simp only [diagnosticText, List.append_assoc] at same
      cases (DiagnosticHead.append_inj same).1
  | map leftKey leftValue ihKey ihValue =>
    cases rightErased with
    | map rightKey rightValue =>
      simp only [diagnosticText, List.append_assoc] at same
      obtain ⟨keys, same⟩ := ihKey rightKey (DiagnosticHead.append_inj same).2
      obtain ⟨values, rests⟩ := ihValue rightValue (List.append_cancel_left same)
      cases keys
      cases values
      exact ⟨rfl, List.append_cancel_left rests⟩
    | scalar | list =>
      simp only [diagnosticText, List.append_assoc] at same
      cases (DiagnosticHead.append_inj same).1

/-- Two types print the same exactly when they have the same data type. -/
theorem formatArrowType_eq_iff {left right : LaicType} :
    formatArrowType left = formatArrowType right ↔ left.wireType = right.wireType := by
  constructor
  · intro same
    have texts : diagnosticText left.wireType ++ [] = diagnosticText right.wireType ++ [] := by
      simp only [← formatArrowType_toList, same]
    exact (diagnosticText_append_inj left.erased_wireType right.erased_wireType texts).1
  · intro same
    rw [← String.toList_inj, formatArrowType_toList, formatArrowType_toList, same]

/-! ## Agreement -/

/-- A schema field by its mapping of data types; tensor metadata stands where the type, or
the type directly under a list or an optional, is a tensor. -/
def schemaFieldOf (datatype : LaicType → DataType) (field : FieldDef) : Field where
  name := field.name
  type := datatype field.ty
  nullable := field.ty.isNullable
  metadata :=
    match field.ty.tensorMetadata with
    | none => []
    | some (dtype, dims) => tensorMetadata dimsAsShape dtype dims

-- The targets name the tensor cases one by one; in each the catch-all would give the same.

theorem rustSchemaField_eq (field : FieldDef) :
    rustSchemaField field = schemaFieldOf arrowDatatype field := by
  obtain ⟨name, ty, default⟩ := field
  cases ty with
  | list inner | optional inner => cases inner <;> rfl
  | _ => rfl

theorem pythonSchemaField_eq (field : FieldDef) :
    pythonSchemaField field = schemaFieldOf pyarrowType field := by
  obtain ⟨name, ty, default⟩ := field
  cases ty with
  | list inner | optional inner => cases inner <;> rfl
  | _ => rfl

theorem tsSchemaField_eq (field : FieldDef) :
    tsSchemaField field = schemaFieldOf tsArrowDatatype field := by
  obtain ⟨name, ty, default⟩ := field
  cases ty with
  | list inner | optional inner => cases inner <;> rfl
  | _ => rfl

/-- The field without the names and the nullability of the children. -/
def eraseField (field : Field) : Field := { field with type := field.type.erase }

/-- Mappings that erase to one type describe one schema. -/
theorem eraseField_schemaFieldOf {datatype : LaicType → DataType}
    (erases : ∀ ty, (datatype ty).erase = ty.wireType) (field : FieldDef) :
    eraseField (schemaFieldOf datatype field) = schemaFieldOf LaicType.wireType field := by
  simp only [eraseField, schemaFieldOf, erases]

/-- The lines print the schema field: its name, the text that names its data type and no other,
its nullability, and the tensor metadata that it has. -/
structure Prints (lines : List (String × String)) (schema : Field) : Prop where
  name : lines.lookup "    Field: " = some schema.name
  type : (lines.lookup "      Arrow type: ").map String.toList = some (diagnosticText schema.type)
  determines : ∀ ty : LaicType,
    lines.lookup "      Arrow type: " = some (formatArrowType ty) ↔ ty.wireType = schema.type
  nullable : lines.lookup "      Nullable: " = some (toString schema.nullable)
  dtype : lines.lookup "        laic.tensor.dtype = " = schema.metadata.lookup "laic.tensor.dtype"
  shape : lines.lookup "        laic.tensor.shape = " = schema.metadata.lookup "laic.tensor.shape"
  version : lines.lookup "        laic.tensor.version = " =
    schema.metadata.lookup "laic.tensor.version"

theorem inspectField_prints (field : FieldDef) :
    Prints (inspectField field) (schemaFieldOf LaicType.wireType field) := by
  refine ⟨rfl, congrArg some (formatArrowType_toList field.ty), fun ty => ?_, rfl, ?_, ?_, ?_⟩
  · show some (formatArrowType field.ty) = some (formatArrowType ty) ↔ _
    rw [Option.some_inj, formatArrowType_eq_iff, eq_comm]
    rfl
  all_goals
    cases published : field.ty.tensorMetadata with
    | none =>
      simp only [inspectField, schemaFieldOf, published]
      rfl
    | some tensor =>
      simp only [inspectField, schemaFieldOf, published]
      -- the notes stand between the metadata lines, where they apply
      by_cases dynamic : (tensor.2.any fun dim => dim matches .dynamic _) = true <;>
        by_cases container : field.ty.isContainerTensor = true <;>
        simp only [dynamic, container, if_true] <;>
        rfl

/-- The four schema mappings describe one schema. -/
structure SchemasAgree (field : FieldDef) : Prop where
  python : eraseField (pythonSchemaField field) = eraseField (rustSchemaField field)
  typescript : eraseField (tsSchemaField field) = eraseField (rustSchemaField field)
  inspected : Prints (inspectField field) (eraseField (rustSchemaField field))

theorem schemas_agree (field : FieldDef) : SchemasAgree field := by
  have rust : eraseField (rustSchemaField field) = schemaFieldOf LaicType.wireType field := by
    rw [rustSchemaField_eq, eraseField_schemaFieldOf erase_arrowDatatype]
  have python : eraseField (pythonSchemaField field) = schemaFieldOf LaicType.wireType field := by
    rw [pythonSchemaField_eq, eraseField_schemaFieldOf erase_pyarrowType]
  have typescript : eraseField (tsSchemaField field) = schemaFieldOf LaicType.wireType field := by
    rw [tsSchemaField_eq, eraseField_schemaFieldOf erase_tsArrowDatatype]
  refine ⟨python.trans rust.symm, typescript.trans rust.symm, ?_⟩
  rw [rust]
  exact inspectField_prints field

end Laic
