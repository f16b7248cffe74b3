import Laic.Lib.Arrow
import Laic.Lib.Except
import Laic.Lib.Text
import Laic.Idl.Ast

/-! # Contract metadata

The metadata that every generated encoder writes and every generated decoder checks: the
three `laic.*` keys of the schema, and the dtype, shape and version of a tensor field.
Each target and `inspect-schema` have a renderer of the shape text of their own, and each
target an emitter of the metadata; they are instances of the ones here.  Each language
reads the shape text with its own parser. -/

namespace Laic

open Arrow
open Except (ensure)

/-- Why a generated decoder does not return a record: the check that failed, with the field
and the values its message quotes.  `host` stands for an exception raised outside the
emitted checks, and `doesNotCompile` for emitted code that is not a program. -/
inductive DecodeError where
  | emptyStream
  | cardinality (rows : Nat)
  | trailingBatch
  | missingMetadata (key : String)
  | metadataMismatch (key expected actual : String)
  | missingColumn (name : String)
  | wrongType (name : String)
  | missingTensorDtype (name : String)
  | wrongDtype (name expected actual : String)
  | missingTensorShape (name : String)
  | invalidShape (name text : String)
  | wrongRank (name : String) (expected actual : Nat)
  | wrongDim (name : String) (index : Nat)
  | host (name : String)
  | doesNotCompile
  deriving DecidableEq, Repr

/-! ## Schema metadata -/

/-- The keys that identify a struct: its skill, the file's version and the direction. -/
def schemaMetadata (skillId version direction : String) : List (String × String) :=
  [("laic.skill_id", skillId), ("laic.version", version), ("laic.direction", direction)]

/-- Every expected entry is there with the expected value. -/
def validateMetadata (metadata : List (String × String)) :
    List (String × String) → Except DecodeError Unit
  | [] => .ok ()
  | (key, expected) :: entries =>
    match metadata.lookup key with
    | none => .error (.missingMetadata key)
    | some actual =>
      if actual = expected then validateMetadata metadata entries
      else .error (.metadataMismatch key expected actual)

theorem validateMetadata_eq_ok {metadata expected : List (String × String)} :
    validateMetadata metadata expected = .ok () ↔
      ∀ entry ∈ expected, metadata.lookup entry.1 = some entry.2 := by
  induction expected with
  | nil => simp [validateMetadata]
  | cons entry expected ih =>
    obtain ⟨key, value⟩ := entry
    unfold validateMetadata
    cases found : metadata.lookup key with
    | none => simp [found]
    | some actual =>
      by_cases same : actual = value
      · simp [found, same, ih]
      · simp [found, same]

/-- The metadata of a struct passes its own check. -/
theorem validateMetadata_self (skillId version direction : String) :
    validateMetadata (schemaMetadata skillId version direction)
      (schemaMetadata skillId version direction) = .ok () := by
  rw [validateMetadata_eq_ok]
  intro entry member
  simp only [schemaMetadata, List.mem_cons, List.not_mem_nil, or_false] at member
  obtain rfl | rfl | rfl := member <;> rfl

/-! ## Tensor metadata -/

/-- The number that stands for a dimension in the shape text. -/
def Dimension.shapeSize : Dimension → Nat
  | .fixed size => size.toNat
  | .dynamic _ => 0

/-- The text of a list of sizes. -/
def shapeText (sizes : List Nat) : String :=
  "[" ++ String.intercalate "," (sizes.map toString) ++ "]"

/-- The shape text of a tensor type, which all four renderers write. -/
def dimsAsShape (dims : List Dimension) : String := shapeText (dims.map Dimension.shapeSize)

/-- The metadata of a field that holds tensors, with the shape as `format` writes it. -/
def tensorMetadata (format : List Dimension → String) (dtype : TensorElementType)
    (dims : List Dimension) : List (String × String) :=
  [("laic.tensor.dtype", dtype.asStr), ("laic.tensor.shape", format dims),
    ("laic.tensor.version", "1")]

section

variable (format : List Dimension → String) (dtype : TensorElementType) (dims : List Dimension)

@[simp] theorem lookup_tensorMetadata_dtype :
    (tensorMetadata format dtype dims).lookup "laic.tensor.dtype" = some dtype.asStr := rfl

@[simp] theorem lookup_tensorMetadata_shape :
    (tensorMetadata format dtype dims).lookup "laic.tensor.shape" = some (format dims) := rfl

end

/-- The parameters of a tensor type. -/
def LaicType.tensorParams : LaicType → Option (TensorElementType × List Dimension)
  | .tensor dtype dims => some (dtype, dims)
  | _ => none

/-- The check of a tensor field's metadata.  `parse` reads the shape text in the target
language and `dimOk` compares one fixed dimension there. -/
def checkTensorMetadata {size : Type} (parse : String → Option (List size))
    (dimOk : UInt64 → size → Bool) (name : String) (metadata : List (String × String))
    (dtype : TensorElementType) (dims : List Dimension) : Except DecodeError Unit :=
  match metadata.lookup "laic.tensor.dtype" with
  | none => .error (.missingTensorDtype name)
  | some actual =>
    if actual ≠ dtype.asStr then .error (.wrongDtype name dtype.asStr actual)
    else match metadata.lookup "laic.tensor.shape" with
      | none => .error (.missingTensorShape name)
      | some text =>
        match parse text with
        | none => .error (.invalidShape name text)
        | some sizes =>
          if sizes.length ≠ dims.length then .error (.wrongRank name dims.length sizes.length)
          else checkDims 0 dims sizes
where
  checkDims (index : Nat) : List Dimension → List size → Except DecodeError Unit
    | .fixed expected :: dims, actual :: sizes =>
      if dimOk expected actual then checkDims (index + 1) dims sizes
      else .error (.wrongDim name index)
    | .dynamic _ :: dims, _ :: sizes => checkDims (index + 1) dims sizes
    | _, _ => .ok ()

/-- Every fixed dimension is met by the size at its position. -/
def DimsMatch {size : Type} (dimOk : UInt64 → size → Bool) : List Dimension → List size → Prop
  | .fixed expected :: dims, actual :: sizes => dimOk expected actual ∧ DimsMatch dimOk dims sizes
  | .dynamic _ :: dims, _ :: sizes => DimsMatch dimOk dims sizes
  | [], [] => True
  | _, _ => False

theorem checkDims_eq_ok {size : Type} {dimOk : UInt64 → size → Bool} {name : String}
    {index : Nat} {dims : List Dimension} {sizes : List size}
    (sameRank : sizes.length = dims.length) :
    checkTensorMetadata.checkDims dimOk name index dims sizes = .ok () ↔
      DimsMatch dimOk dims sizes := by
  induction dims generalizing index sizes with
  | nil =>
    cases sizes with
    | nil => simp [checkTensorMetadata.checkDims, DimsMatch]
    | cons actual sizes => simp at sameRank
  | cons dim dims ih =>
    cases sizes with
    | nil => simp at sameRank
    | cons actual sizes =>
      have rest : sizes.length = dims.length := by simpa using sameRank
      cases dim with
      | dynamic name => simp [checkTensorMetadata.checkDims, DimsMatch, ih rest]
      | fixed expected =>
        by_cases holds : dimOk expected actual = true
        · simp [checkTensorMetadata.checkDims, DimsMatch, holds, ih rest]
        · simp [checkTensorMetadata.checkDims, DimsMatch, holds]

/-- The check passes exactly on the tensor's dtype with a shape that matches. -/
theorem checkTensorMetadata_eq_ok {size : Type} {parse : String → Option (List size)}
    {dimOk : UInt64 → size → Bool} {name : String} {metadata : List (String × String)}
    {dtype : TensorElementType} {dims : List Dimension} :
    checkTensorMetadata parse dimOk name metadata dtype dims = .ok () ↔
      metadata.lookup "laic.tensor.dtype" = some dtype.asStr ∧
      ∃ text sizes, metadata.lookup "laic.tensor.shape" = some text ∧ parse text = some sizes ∧
        sizes.length = dims.length ∧ DimsMatch dimOk dims sizes := by
  unfold checkTensorMetadata
  cases foundDtype : metadata.lookup "laic.tensor.dtype" with
  | none => simp
  | some actual =>
    by_cases sameDtype : actual = dtype.asStr
    · cases foundShape : metadata.lookup "laic.tensor.shape" with
      | none => simp [sameDtype]
      | some text =>
        cases parsed : parse text with
        | none => simp [sameDtype, parsed]
        | some sizes =>
          by_cases sameRank : sizes.length = dims.length
          · simp [sameDtype, parsed, sameRank, checkDims_eq_ok sameRank]
          · simp [sameDtype, parsed, sameRank]
    · simp [sameDtype]

/-! ## Reading the shape text back -/

/-- The text between the brackets. -/
def shapeBody (sizes : List Nat) : List Char := List.intercalate [','] (sizes.map Text.decimal)

theorem shapeText_toList (sizes : List Nat) :
    (shapeText sizes).toList = '[' :: shapeBody sizes ++ [']'] := by
  have decimals : (fun n : Nat => (toString n).toList) = Text.decimal := by
    funext n
    exact Text.toString_toList n
  simp only [shapeText, shapeBody, String.toList_append, String.toList_intercalate, List.map_map,
    Function.comp_def, decimals]
  rfl

/-- The body holds digits and commas only. -/
theorem shapeBody_chars {sizes : List Nat} {c : Char} (member : c ∈ shapeBody sizes) :
    c.isDigit = true ∨ c = ',' := by
  induction sizes with
  | nil => simp [shapeBody] at member
  | cons size sizes ih =>
    cases sizes with
    | nil =>
      left
      apply Text.isDigit_of_mem_decimal
      simpa [shapeBody, List.intercalate] using member
    | cons size' sizes =>
      have parts : shapeBody (size :: size' :: sizes) =
          Text.decimal size ++ ',' :: shapeBody (size' :: sizes) := by
        simp [shapeBody, List.intercalate]
      rw [parts] at member
      simp only [List.mem_append, List.mem_cons] at member
      obtain digit | comma | rest := member
      · exact .inl (Text.isDigit_of_mem_decimal digit)
      · exact .inr comma
      · exact ih rest

theorem comma_notMem_decimal (n : Nat) : ',' ∉ Text.decimal n := fun member =>
  absurd (Text.isDigit_of_mem_decimal member) (by decide)

/-- Splitting the body gives the sizes back. -/
theorem splitOn_shapeBody {sizes : List Nat} (nonempty : sizes ≠ []) :
    Text.splitOn ',' (shapeBody sizes) = sizes.map Text.decimal := by
  apply Text.splitOn_intercalate
  · simpa using nonempty
  · intro part member
    obtain ⟨n, -, rfl⟩ := List.mem_map.mp member
    exact comma_notMem_decimal n

/-- Trimming brackets off the shape text leaves its body. -/
theorem trim_shapeText (sizes : List Nat) :
    Text.trimMatches (fun c => c == '[' || c == ']') (shapeText sizes).toList =
      shapeBody sizes := by
  rw [shapeText_toList]
  refine Text.trimMatches_delimited (by decide) (by decide) fun c member => ?_
  obtain digit | rfl := shapeBody_chars member
  · have opening : c ≠ '[' := by rintro rfl; exact absurd digit (by decide)
    have closing : c ≠ ']' := by rintro rfl; exact absurd digit (by decide)
    simp [opening, closing]
  · decide

/-- The parts of the shape text that are not empty. -/
theorem shapeText_parts (sizes : List Nat) :
    (Text.splitOn ',' (Text.trimMatches (fun c => c == '[' || c == ']')
      (shapeText sizes).toList)).filter (fun part => !part.isEmpty) = sizes.map Text.decimal := by
  rw [trim_shapeText]
  by_cases empty : sizes = []
  · subst empty
    rfl
  · rw [splitOn_shapeBody empty, List.filter_eq_self]
    intro part member
    obtain ⟨n, -, rfl⟩ := List.mem_map.mp member
    simpa using Text.decimal_ne_nil n

end Laic
