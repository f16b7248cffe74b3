import Laic.Idl.Validate
import Laic.Lib.LineEnding

/-! # Concrete syntax

What a source says, between its text and the tree: `FileSyntax` and its parts hold exactly what a reader of
the source sees.  `tokens` is how each is written, `inRange` whether its numbers fit the types of the tree,
and the last section the part of the tree that each stands for. -/

namespace Laic

/-! ## The parts of a source -/

/-- An identifier. -/
abbrev Name := Word Char.isAlpha fun c => c.isAlphanum || c == '_'

/-- One decimal digit or more. -/
abbrev Digits := Word Char.isDigit Char.isDigit

/-- The text between two quotes. -/
structure Quoted where
  body : List Char
  noQuote : ∀ c ∈ body, c ≠ '"'

inductive DimensionSyntax where
  | size (digits : Digits)
  | anonymous
  | named (name : Name)

inductive TypeSyntax where
  | scalar (ty : LaicType) (isScalar : ty.isScalar = true)
  | tensor (dtype : TensorElementType) (first : DimensionSyntax) (others : List DimensionSyntax)
  | list (inner : TypeSyntax)
  | optional (inner : TypeSyntax)
  | map (key value : TypeSyntax)

inductive LiteralValueSyntax where
  | string (text : Quoted)
  | float (negative : Bool) (whole fraction : Digits)
  | integer (negative : Bool) (digits : Digits)
  | bool (value : Bool)

structure FieldSyntax where
  name : Name
  ty : TypeSyntax
  default : Option LiteralValueSyntax

structure StructSyntax where
  name : Name
  fields : List FieldSyntax

structure VariantSyntax where
  name : Name
  code : Digits

/-- An error block, which holds one variant at least. -/
structure ErrorSyntax where
  first : VariantSyntax
  others : List VariantSyntax

structure SkillSyntax where
  name : Name
  id : Quoted
  input : StructSyntax
  output : StructSyntax
  errors : Option ErrorSyntax

/-- A file, which holds one skill at least. -/
structure FileSyntax where
  version : Quoted
  first : SkillSyntax
  others : List SkillSyntax

/-! ## How they are written -/

def Quoted.text (quoted : Quoted) : List Char := '"' :: quoted.body ++ ['"']

def signText (negative : Bool) : List Char := if negative then ['-'] else []

def LiteralValueSyntax.text : LiteralValueSyntax → List Char
  | .string text => text.text
  | .float negative whole fraction => signText negative ++ (whole.text ++ ('.' :: fraction.text))
  | .integer negative digits => signText negative ++ digits.text
  | .bool value => if value then "true".toList else "false".toList

def DimensionSyntax.text : DimensionSyntax → List Char
  | .size digits => digits.text
  | .anonymous => "_".toList
  | .named name => name.text

/-- The keyword of a type without parameters. -/
def LaicType.keyword : LaicType → String
  | .string => "string"
  | .bytes => "bytes"
  | .bool => "bool"
  | .i8 => "i8"
  | .i16 => "i16"
  | .i32 => "i32"
  | .i64 => "i64"
  | .u8 => "u8"
  | .f32 => "f32"
  | .f64 => "f64"
  | _ => ""

def TypeSyntax.tokens : TypeSyntax → List (List Char)
  | .scalar ty _ => [ty.keyword.toList]
  | .tensor dtype first others =>
    ["tensor".toList, "<".toList, dtype.asStr.toList, ">".toList, "[".toList] ++
      (first.text :: others.flatMap fun dim => [",".toList, dim.text]) ++ ["]".toList]
  | .list inner => ["list".toList, "<".toList] ++ inner.tokens ++ [">".toList]
  | .optional inner => ["optional".toList, "<".toList] ++ inner.tokens ++ [">".toList]
  | .map key value =>
    ["map".toList, "<".toList] ++ key.tokens ++ [",".toList] ++ value.tokens ++ [">".toList]

def FieldSyntax.tokens (field : FieldSyntax) : List (List Char) :=
  [field.name.text, ":".toList] ++ field.ty.tokens ++
    (match field.default with
    | none => []
    | some literal => ["=".toList, literal.text]) ++ [";".toList]

/-- A struct behind its keyword. -/
def StructSyntax.tokens (keyword : String) (structSyntax : StructSyntax) : List (List Char) :=
  [keyword.toList, structSyntax.name.text, "\x7b".toList] ++
    structSyntax.fields.flatMap FieldSyntax.tokens ++ ["\x7d".toList]

def VariantSyntax.tokens (variant : VariantSyntax) : List (List Char) :=
  [variant.name.text, "=".toList, variant.code.text, ";".toList]

def ErrorSyntax.tokens (errors : ErrorSyntax) : List (List Char) :=
  ["error".toList, "\x7b".toList] ++ (errors.first :: errors.others).flatMap VariantSyntax.tokens ++
    ["\x7d".toList]

def SkillSyntax.tokens (skill : SkillSyntax) : List (List Char) :=
  ["skill".toList, skill.name.text, "\x7b".toList, "id".toList, "=".toList, skill.id.text, ";".toList] ++
    skill.input.tokens "input" ++ skill.output.tokens "output" ++
    (match skill.errors with
    | none => []
    | some errors => errors.tokens) ++ ["\x7d".toList]

def FileSyntax.tokens (file : FileSyntax) : List (List Char) :=
  ["version".toList, file.version.text, ";".toList] ++
    (file.first :: file.others).flatMap SkillSyntax.tokens

/-! ## What they stand for -/

def Digits.value (digits : Digits) : Nat := Text.digitsValue digits.text 0

/-- The text of a default: each of its line ends, whether CRLF or CR, is a line feed. -/
def Quoted.normalized (quoted : Quoted) : String := String.ofList (LineEnding.unify quoted.body)

def Quoted.string (quoted : Quoted) : String := String.ofList quoted.body

def DimensionSyntax.value : DimensionSyntax → Dimension
  | .size digits => .fixed (UInt64.ofNat (Digits.value digits))
  | .anonymous => .dynamic none
  | .named name => .dynamic (some (String.ofList name.text))

def DimensionSyntax.inRange : DimensionSyntax → Prop
  | .size digits => Digits.value digits < 2 ^ 64
  | _ => True

def TypeSyntax.value : TypeSyntax → LaicType
  | .scalar ty _ => ty
  | .tensor dtype first others => .tensor dtype ((first :: others).map DimensionSyntax.value)
  | .list inner => .list inner.value
  | .optional inner => .optional inner.value
  | .map key value => .map key.value value.value

def TypeSyntax.inRange : TypeSyntax → Prop
  | .scalar _ _ => True
  | .tensor _ first others => ∀ dim ∈ first :: others, dim.inRange
  | .list inner | .optional inner => inner.inRange
  | .map key value => key.inRange ∧ value.inRange

/-- A signed decimal number. -/
def signedValue (negative : Bool) (digits : Digits) : Int :=
  if negative then -(Digits.value digits : Int) else Digits.value digits

def LiteralValueSyntax.value : LiteralValueSyntax → Literal
  | .string text => .string text.normalized
  | .float negative whole fraction =>
    .float (FloatValue.round .binary64 negative
      (Text.digitsValue (whole.text ++ fraction.text) 0 / 10 ^ fraction.text.length))
  | .integer negative digits => .integer (Int64.ofInt (signedValue negative digits))
  | .bool value => .bool value

def LiteralValueSyntax.inRange : LiteralValueSyntax → Prop
  | .integer negative digits =>
    -(2 ^ 63) ≤ signedValue negative digits ∧ signedValue negative digits < 2 ^ 63
  | _ => True

def FieldSyntax.value (field : FieldSyntax) : FieldDef where
  name := String.ofList field.name.text
  ty := field.ty.value
  default := field.default.map LiteralValueSyntax.value

def FieldSyntax.inRange (field : FieldSyntax) : Prop :=
  field.ty.inRange ∧ ∀ literal ∈ field.default, literal.inRange

def StructSyntax.value (structSyntax : StructSyntax) : StructDef where
  name := String.ofList structSyntax.name.text
  fields := structSyntax.fields.map FieldSyntax.value

def StructSyntax.inRange (structSyntax : StructSyntax) : Prop :=
  ∀ field ∈ structSyntax.fields, field.inRange

def VariantSyntax.value (variant : VariantSyntax) : ErrorVariant where
  name := String.ofList variant.name.text
  code := UInt16.ofNat (Digits.value variant.code)

def VariantSyntax.inRange (variant : VariantSyntax) : Prop := Digits.value variant.code < 2 ^ 16

def ErrorSyntax.variants (errors : ErrorSyntax) : List VariantSyntax := errors.first :: errors.others

def SkillSyntax.value (skill : SkillSyntax) : SkillDef where
  name := String.ofList skill.name.text
  id := skill.id.string
  input := skill.input.value
  output := skill.output.value
  errors := (skill.errors.map fun errors => errors.variants.map VariantSyntax.value).getD []

def SkillSyntax.inRange (skill : SkillSyntax) : Prop :=
  skill.input.inRange ∧ skill.output.inRange ∧
    ∀ errors ∈ skill.errors, ∀ variant ∈ errors.variants, variant.inRange

def FileSyntax.skills (file : FileSyntax) : List SkillSyntax := file.first :: file.others

def FileSyntax.value (file : FileSyntax) : LaicFile where
  version := file.version.string
  skills := file.skills.map SkillSyntax.value

/-- Every dimension fits a `usize`, every error code a `u16` and every integer default an `i64`. -/
def FileSyntax.inRange (file : FileSyntax) : Prop := ∀ skill ∈ file.skills, skill.inRange

/-! ## The same with other line ends -/

def Quoted.convert (ending : LineEnding) (quoted : Quoted) : Quoted where
  body := ending.convert quoted.body
  noQuote := by
    intro c member
    obtain ⟨d, within, written⟩ := List.mem_flatMap.mp member
    split at written
    · cases ending <;> simp only [LineEnding.text, List.mem_cons, List.not_mem_nil, or_false] at written
      · rw [written]
        decide
      · obtain rfl | rfl := written <;> decide
    · rw [List.mem_singleton.mp written]
      exact quoted.noQuote d within

def LiteralValueSyntax.convert (ending : LineEnding) : LiteralValueSyntax → LiteralValueSyntax
  | .string text => .string (text.convert ending)
  | .float negative whole fraction => .float negative whole fraction
  | .integer negative digits => .integer negative digits
  | .bool value => .bool value

def FieldSyntax.convert (ending : LineEnding) (field : FieldSyntax) : FieldSyntax :=
  { field with default := field.default.map (LiteralValueSyntax.convert ending) }

def StructSyntax.convert (ending : LineEnding) (structSyntax : StructSyntax) : StructSyntax :=
  { structSyntax with fields := structSyntax.fields.map (FieldSyntax.convert ending) }

def SkillSyntax.convert (ending : LineEnding) (skill : SkillSyntax) : SkillSyntax :=
  { skill with
    id := skill.id.convert ending
    input := skill.input.convert ending
    output := skill.output.convert ending }

def FileSyntax.convert (ending : LineEnding) (file : FileSyntax) : FileSyntax where
  version := file.version.convert ending
  first := file.first.convert ending
  others := file.others.map (SkillSyntax.convert ending)

end Laic
