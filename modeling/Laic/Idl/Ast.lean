import Laic.Lib.FloatFormat

/-! # AST of the interface language

The tree the parser builds and the generators read, in the shape of the source, and
the compiler's errors. -/

namespace Laic

/-- 32-bit float. -/
abbrev F32 := FloatValue FloatFormat.binary32

/-- 64-bit float. -/
abbrev F64 := FloatValue FloatFormat.binary64

/-- Tensor element types (a subset of the scalar types). -/
inductive TensorElementType where
  | f32 | f64 | i8 | i16 | i32 | i64 | u8 | bool
  deriving DecidableEq, Repr

def TensorElementType.asStr : TensorElementType → String
  | .f32 => "f32"
  | .f64 => "f64"
  | .i8 => "i8"
  | .i16 => "i16"
  | .i32 => "i32"
  | .i64 => "i64"
  | .u8 => "u8"
  | .bool => "bool"

/-- A single dimension of a tensor shape; a fixed size is a `usize` of a 64-bit host. -/
inductive Dimension where
  | fixed (size : UInt64)
  | dynamic (name : Option String)
  deriving DecidableEq, Repr

/-- Types of the interface language. -/
inductive LaicType where
  | string
  | bytes
  | bool
  | i8
  | i16
  | i32
  | i64
  | u8
  | f32
  | f64
  | tensor (dtype : TensorElementType) (dims : List Dimension)
  | list (inner : LaicType)
  | optional (inner : LaicType)
  | map (key value : LaicType)
  deriving DecidableEq, Repr

/-- Literal values of field defaults. -/
inductive Literal where
  | string (value : String)
  | integer (value : Int64)
  | float (value : F64)
  | bool (value : Bool)
  deriving DecidableEq

/-- A single field in a struct. -/
structure FieldDef where
  name : String
  ty : LaicType
  default : Option Literal
  deriving DecidableEq

/-- A struct definition, used for input and output. -/
structure StructDef where
  name : String
  fields : List FieldDef
  deriving DecidableEq

/-- A named variant of an `error { … }` block. -/
structure ErrorVariant where
  name : String
  code : UInt16
  deriving DecidableEq

/-- A single `skill … { … }` block. -/
structure SkillDef where
  name : String
  id : String
  input : StructDef
  output : StructDef
  errors : List ErrorVariant
  deriving DecidableEq

/-- A complete `.laic` file. -/
structure LaicFile where
  version : String
  skills : List SkillDef
  deriving DecidableEq

/-- What the compiler reports.  `unmatched` is the parse error that carries the grammar
engine's own report, whose text is not modelled. -/
inductive CompileError where
  | unmatched
  | parse (message : String)
  | validation (message : String)
  deriving DecidableEq, Repr

/-! ## Debug text of types -/

def TensorElementType.debug : TensorElementType → String
  | .f32 => "F32"
  | .f64 => "F64"
  | .i8 => "I8"
  | .i16 => "I16"
  | .i32 => "I32"
  | .i64 => "I64"
  | .u8 => "U8"
  | .bool => "Bool"

/-- Dimension names are identifiers, which need no escapes. -/
def Dimension.debug : Dimension → String
  | .fixed size => s!"Fixed({size})"
  | .dynamic none => "Dynamic(None)"
  | .dynamic (some name) => "Dynamic(Some(\"" ++ name ++ "\"))"

def LaicType.debug : LaicType → String
  | .string => "String"
  | .bytes => "Bytes"
  | .bool => "Bool"
  | .i8 => "I8"
  | .i16 => "I16"
  | .i32 => "I32"
  | .i64 => "I64"
  | .u8 => "U8"
  | .f32 => "F32"
  | .f64 => "F64"
  | .tensor dtype dims =>
    "Tensor \x7b dtype: " ++ dtype.debug ++ ", dims: [" ++
      String.intercalate ", " (dims.map Dimension.debug) ++ "] \x7d"
  | .list inner => "List(" ++ inner.debug ++ ")"
  | .optional inner => "Optional(" ++ inner.debug ++ ")"
  | .map key value => "Map(" ++ key.debug ++ ", " ++ value.debug ++ ")"

end Laic
