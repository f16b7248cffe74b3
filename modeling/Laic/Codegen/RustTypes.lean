import Laic.Codegen.Values

/-! # Type mapping of the Rust target

The Rust type, the Arrow data type, and the names of the array and the builder for a
type of the interface language.  The last two are partial: the source reaches an
`unreachable!` on a type it does not handle, and code generation stops there. -/

namespace Laic

open Arrow

/-- Types of the emitted Rust code: an owned or borrowed value of a scalar (`String` and
`&str`, `Vec<u8>` and `&[u8]`, and the primitive types), and the generic types over them. -/
inductive RustType where
  | owned (scalar : Scalar)
  | borrowed (scalar : Scalar)
  | vec (item : RustType)
  | option (inner : RustType)
  | hashMap (key value : RustType)
  deriving DecidableEq

/-- The type of the field. -/
def rustType : LaicType → RustType
  | .string => .owned .utf8
  | .bytes => .owned .binary
  | .bool => .owned .boolean
  | .i8 => .owned .int8
  | .i16 => .owned .int16
  | .i32 => .owned .int32
  | .i64 => .owned .int64
  | .u8 => .owned .uint8
  | .f32 => .owned .float32
  | .f64 => .owned .float64
  | .tensor _ _ => .owned .binary
  | .list inner => .vec (rustType inner)
  | .optional inner => .option (rustType inner)
  | .map key value => .hashMap (rustType key) (rustType value)

/-- The data type of the schema: a list has a nullable child `item`, a map the children
that `MapBuilder` makes. -/
def arrowDatatype : LaicType → DataType
  | .string => .scalar .utf8
  | .bytes => .scalar .binary
  | .bool => .scalar .boolean
  | .i8 => .scalar .int8
  | .i16 => .scalar .int16
  | .i32 => .scalar .int32
  | .i64 => .scalar .int64
  | .u8 => .scalar .uint8
  | .f32 => .scalar .float32
  | .f64 => .scalar .float64
  | .tensor _ _ => .scalar .binary
  | .list inner => .list "item" true (arrowDatatype inner)
  | .optional inner => arrowDatatype inner
  | .map key value =>
    .map ⟨"entries", "keys", "values", false, true⟩ false (arrowDatatype key) (arrowDatatype value)

theorem erase_arrowDatatype (ty : LaicType) : (arrowDatatype ty).erase = ty.wireType := by
  induction ty with
  | string | bytes | bool | i8 | i16 | i32 | i64 | u8 | f32 | f64 | tensor => rfl
  | list inner ih => simp [arrowDatatype, LaicType.wireType, DataType.erase, ih]
  | optional inner ih => exact ih
  | map key value ihKey ihValue =>
    simp [arrowDatatype, LaicType.wireType, DataType.erase, ihKey, ihValue]

/-- The scalar whose array type (`StringArray` and so on) is named for the type. -/
def arrowArrayType : LaicType → Except String Scalar
  | .string => .ok .utf8
  | .bytes | .tensor _ _ => .ok .binary
  | .bool => .ok .boolean
  | .i8 => .ok .int8
  | .i16 => .ok .int16
  | .i32 => .ok .int32
  | .i64 => .ok .int64
  | .u8 => .ok .uint8
  | .f32 => .ok .float32
  | .f64 => .ok .float64
  | ty => .error ("arrow_array_type called with unsupported type: " ++ ty.debug)

/-- The scalar whose builder type (`StringBuilder` and so on) is named for the type. -/
def arrowBuilderType : LaicType → Except String Scalar
  | .string => .ok .utf8
  | .bytes | .tensor _ _ => .ok .binary
  | .bool => .ok .boolean
  | .i8 => .ok .int8
  | .i16 => .ok .int16
  | .i32 => .ok .int32
  | .i64 => .ok .int64
  | .u8 => .ok .uint8
  | .f32 => .ok .float32
  | .f64 => .ok .float64
  | ty => .error ("arrow_builder_type called with unsupported type: " ++ ty.debug)

/-- Whether an item is dereferenced when it is appended. -/
def needsDeref : LaicType → Bool
  | .string | .bytes | .tensor _ _ => false
  | _ => true

/-- A leaf type has an array type and a builder type, those of its scalar. -/
theorem arrowArrayType_of_leaf {ty : LaicType} {scalar : Scalar}
    (leaf : ty.leafScalar = some scalar) : arrowArrayType ty = .ok scalar := by
  cases ty with
  | list | optional | map => cases leaf
  | string | bytes | bool | i8 | i16 | i32 | i64 | u8 | f32 | f64 | tensor =>
    cases leaf
    rfl

theorem arrowBuilderType_of_leaf {ty : LaicType} {scalar : Scalar}
    (leaf : ty.leafScalar = some scalar) : arrowBuilderType ty = .ok scalar := by
  cases ty with
  | list | optional | map => cases leaf
  | string | bytes | bool | i8 | i16 | i32 | i64 | u8 | f32 | f64 | tensor =>
    cases leaf
    rfl

theorem rustType_of_leaf {ty : LaicType} {scalar : Scalar} (leaf : ty.leafScalar = some scalar) :
    rustType ty = .owned scalar := by
  cases ty with
  | list | optional | map => cases leaf
  | string | bytes | bool | i8 | i16 | i32 | i64 | u8 | f32 | f64 | tensor =>
    cases leaf
    rfl

theorem arrowDatatype_of_leaf {ty : LaicType} {scalar : Scalar}
    (leaf : ty.leafScalar = some scalar) : arrowDatatype ty = .scalar scalar := by
  cases ty with
  | list | optional | map => cases leaf
  | string | bytes | bool | i8 | i16 | i32 | i64 | u8 | f32 | f64 | tensor =>
    cases leaf
    rfl

/-- Whether values of the type are copied, not borrowed. -/
def isCopy : Scalar → Bool
  | .utf8 | .binary => false
  | _ => true

end Laic
