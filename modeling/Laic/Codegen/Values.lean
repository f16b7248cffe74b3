import Laic.Lib.ArrowLanguages
import Laic.Idl.Validate

/-! # Values of interface types

What a type of the interface language means apart from any target: the values of the
type, the data type of the column that carries them, and what it is for such a column
or for an object of a target language to hold a value.  Encoders and decoders are
compared through the column.  Maps are compared without their order. -/

namespace Laic

open Arrow

/-- The scalar that carries a leaf type. -/
def LaicType.leafScalar : LaicType → Option Scalar
  | .string => some .utf8
  | .bytes | .tensor _ _ => some .binary
  | .bool => some .boolean
  | .i8 => some .int8
  | .i16 => some .int16
  | .i32 => some .int32
  | .i64 => some .int64
  | .u8 => some .uint8
  | .f32 => some .float32
  | .f64 => some .float64
  | .list _ | .optional _ | .map _ _ => none

/-- The data type of a column of this type, child names and child nullability erased. -/
def LaicType.wireType : LaicType → DataType
  | .string => .scalar .utf8
  | .bytes | .tensor _ _ => .scalar .binary
  | .bool => .scalar .boolean
  | .i8 => .scalar .int8
  | .i16 => .scalar .int16
  | .i32 => .scalar .int32
  | .i64 => .scalar .int64
  | .u8 => .scalar .uint8
  | .f32 => .scalar .float32
  | .f64 => .scalar .float64
  | .list inner => .list "" false inner.wireType
  | .optional inner => inner.wireType
  | .map key value => .map ⟨"", "", "", false, false⟩ false key.wireType value.wireType

theorem LaicType.wireType_of_leaf {ty : LaicType} {scalar : Scalar}
    (leaf : ty.leafScalar = some scalar) : ty.wireType = .scalar scalar := by
  cases ty with
  | list | optional | map => cases leaf
  | string | bytes | bool | i8 | i16 | i32 | i64 | u8 | f32 | f64 | tensor =>
    cases leaf
    rfl

theorem LaicType.exists_leafScalar {ty : LaicType} (isLeaf : isLeafType ty = true) :
    ∃ scalar, ty.leafScalar = some scalar := by
  cases ty with
  | list | optional | map => cases isLeaf
  | string | bytes | bool | i8 | i16 | i32 | i64 | u8 | f32 | f64 | tensor => exact ⟨_, rfl⟩

theorem LaicType.exists_mapScalars {key value : LaicType} (isKey : key.isMapKey = true)
    (isScalar : value.isScalar = true) :
    ∃ keyScalar valueScalar, key.leafScalar = some keyScalar ∧ value.leafScalar = some valueScalar := by
  have keyIs := LaicType.isScalar_of_isMapKey isKey
  obtain ⟨keyScalar, keyLeaf⟩ := LaicType.exists_leafScalar (SupportedLeaf.of_scalar keyIs).isLeaf
  obtain ⟨valueScalar, valueLeaf⟩ := LaicType.exists_leafScalar (SupportedLeaf.of_scalar isScalar).isLeaf
  exact ⟨keyScalar, valueScalar, keyLeaf, valueLeaf⟩

/-! ## Values -/

/-- The values of a type; a map is a list of its entries. -/
def LaicType.Value : LaicType → Type
  | .string => Scalar.utf8.Value
  | .bytes | .tensor _ _ => Scalar.binary.Value
  | .bool => Scalar.boolean.Value
  | .i8 => Scalar.int8.Value
  | .i16 => Scalar.int16.Value
  | .i32 => Scalar.int32.Value
  | .i64 => Scalar.int64.Value
  | .u8 => Scalar.uint8.Value
  | .f32 => Scalar.float32.Value
  | .f64 => Scalar.float64.Value
  | .list inner => List inner.Value
  | .optional inner => Option inner.Value
  | .map key value => List (key.Value × value.Value)

/-- A value of a leaf type is a value of its scalar. -/
theorem LaicType.value_of_leaf {ty : LaicType} {scalar : Scalar}
    (leaf : ty.leafScalar = some scalar) : ty.Value = scalar.Value := by
  cases ty with
  | list | optional | map => cases leaf
  | string | bytes | bool | i8 | i16 | i32 | i64 | u8 | f32 | f64 | tensor =>
    cases leaf
    rfl

/-- No map in the value has a key twice. -/
def DistinctKeys : (ty : LaicType) → ty.Value → Prop
  | .list inner, (items : List inner.Value) => ∀ item ∈ items, DistinctKeys inner item
  | .optional inner, (value : Option inner.Value) => ∀ item ∈ value, DistinctKeys inner item
  | .map _ _, entries => (List.map Prod.fst entries).Nodup
  | .string, _ | .bytes, _ | .bool, _ | .i8, _ | .i16, _ | .i32, _ | .i64, _ | .u8, _ | .f32, _
  | .f64, _ | .tensor _ _, _ => True

/-- The value with every string in it decoded, which drops a byte-order mark in front. -/
def LaicType.decoded : (ty : LaicType) → ty.Value → ty.Value
  | .string, text => textDecode text
  | .list inner, (items : List inner.Value) => items.map inner.decoded
  | .optional inner, (value : Option inner.Value) => value.map inner.decoded
  | .map key value, (entries : List (key.Value × value.Value)) =>
    entries.map fun entry => (key.decoded entry.1, value.decoded entry.2)
  | .bytes, value | .bool, value | .i8, value | .i16, value | .i32, value | .i64, value | .u8, value
  | .f32, value | .f64, value | .tensor _ _, value => value

theorem LaicType.decoded_leaf {ty : LaicType} {scalar : Scalar} (leaf : ty.leafScalar = some scalar)
    (value : ty.Value) :
    cast (value_of_leaf leaf) (ty.decoded value) = scalar.decoded (cast (value_of_leaf leaf) value) := by
  cases ty with
  | list | optional | map => cases leaf
  | string | bytes | bool | i8 | i16 | i32 | i64 | u8 | f32 | f64 | tensor =>
    cases leaf
    rfl

/-- No string in the value begins with a byte-order mark. -/
def Unmarked : (ty : LaicType) → ty.Value → Prop
  | .string, (text : String) => text.toList.head? ≠ some byteOrderMark
  | .list inner, (items : List inner.Value) => ∀ item ∈ items, Unmarked inner item
  | .optional inner, (value : Option inner.Value) => ∀ item ∈ value, Unmarked inner item
  | .map key value, (entries : List (key.Value × value.Value)) =>
    ∀ entry ∈ entries, Unmarked key entry.1 ∧ Unmarked value entry.2
  | .bytes, _ | .bool, _ | .i8, _ | .i16, _ | .i32, _ | .i64, _ | .u8, _ | .f32, _ | .f64, _
  | .tensor _ _, _ => True

/-- Decoding changes nothing in a value without marks. -/
theorem LaicType.decoded_of_unmarked {ty : LaicType} {value : ty.Value} (unmarked : Unmarked ty value) :
    ty.decoded value = value := by
  induction ty with
  | bytes | bool | i8 | i16 | i32 | i64 | u8 | f32 | f64 | tensor => rfl
  | string => exact if_neg unmarked
  | list inner ih =>
    change List inner.Value at value
    have same : ∀ item ∈ value, inner.decoded item = id item := fun item member => ih (unmarked item member)
    exact (List.map_congr_left same).trans (List.map_id _)
  | optional inner ih =>
    cases value with
    | none => rfl
    | some item => exact congrArg some (ih (unmarked item rfl))
  | map key item ihKey ihItem =>
    change List (key.Value × item.Value) at value
    have same : ∀ entry ∈ value, (key.decoded entry.1, item.decoded entry.2) = id entry := by
      intro entry member
      obtain ⟨keyUnmarked, itemUnmarked⟩ := unmarked entry member
      exact Prod.ext (ihKey keyUnmarked) (ihItem itemUnmarked)
    exact (List.map_congr_left same).trans (List.map_id _)

/-! ## Columns that hold a value -/

/-- The slot holds the scalar. -/
def HoldsScalar (scalar : Scalar) (value : scalar.Value) (type : DataType)
    (slot : Slot (Cell type)) : Prop :=
  ∃ same : type = .scalar scalar, same ▸ slot = (⟨true, value⟩ : Slot (Cell (.scalar scalar)))

/-- The slot holds the value. -/
def Holds : (ty : LaicType) → ty.Value → (type : DataType) → Slot (Cell type) → Prop
  | .string, value => HoldsScalar .utf8 value
  | .bytes, value | .tensor _ _, value => HoldsScalar .binary value
  | .bool, value => HoldsScalar .boolean value
  | .i8, value => HoldsScalar .int8 value
  | .i16, value => HoldsScalar .int16 value
  | .i32, value => HoldsScalar .int32 value
  | .i64, value => HoldsScalar .int64 value
  | .u8, value => HoldsScalar .uint8 value
  | .f32, value => HoldsScalar .float32 value
  | .f64, value => HoldsScalar .float64 value
  | .list inner, (items : List inner.Value) => fun
    | .list _ _ item, slot =>
      slot.valid = true ∧ List.Forall₂ (fun v s => Holds inner v item s) items slot.value.items
    | .scalar _, _ | .map _ _ _ _, _ | .other _, _ => False
  | .optional inner, (value : Option inner.Value) =>
    match value with
    | none => fun _ slot => slot.valid = false
    | some value => Holds inner value
  | .map key value, (entries : List (key.Value × value.Value)) => fun
    | .map _ _ keyType valueType, slot =>
      slot.valid = true ∧ ∃ order : List (key.Value × value.Value), order.Perm entries ∧
        List.Forall₂ (fun v s => Holds key v.1 keyType s.1 ∧ Holds value v.2 valueType s.2)
          order slot.value.entries
    | .scalar _, _ | .list _ _ _, _ | .other _, _ => False

theorem holds_leaf {ty : LaicType} {scalar : Scalar} (leaf : ty.leafScalar = some scalar)
    (value : ty.Value) :
    Holds ty value = HoldsScalar scalar (cast (LaicType.value_of_leaf leaf) value) := by
  cases ty with
  | list | optional | map => cases leaf
  | string | bytes | bool | i8 | i16 | i32 | i64 | u8 | f32 | f64 | tensor =>
    cases leaf
    rfl

/-! ## Objects that show a value -/

/-- How the objects of a target language show their contents. -/
structure HostView (host : Type) where
  scalar : (scalar : Scalar) → scalar.Value → host
  items : host → Option (List host)
  optional : host → Option (Option host)
  entries : host → Option (List (host × host))

/-- The object shows the value. -/
def Shows {host : Type} (view : HostView host) : (ty : LaicType) → ty.Value → host → Prop
  | .string, value, object => object = view.scalar .utf8 value
  | .bytes, value, object | .tensor _ _, value, object => object = view.scalar .binary value
  | .bool, value, object => object = view.scalar .boolean value
  | .i8, value, object => object = view.scalar .int8 value
  | .i16, value, object => object = view.scalar .int16 value
  | .i32, value, object => object = view.scalar .int32 value
  | .i64, value, object => object = view.scalar .int64 value
  | .u8, value, object => object = view.scalar .uint8 value
  | .f32, value, object => object = view.scalar .float32 value
  | .f64, value, object => object = view.scalar .float64 value
  | .list inner, (items : List inner.Value), object =>
    ∃ objects, view.items object = some objects ∧ List.Forall₂ (Shows view inner) items objects
  | .optional inner, (value : Option inner.Value), object =>
    match value with
    | none => view.optional object = some none
    | some value => ∃ inside, view.optional object = some (some inside) ∧ Shows view inner value inside
  | .map key value, (entries : List (key.Value × value.Value)), object =>
    ∃ objects, view.entries object = some objects ∧
      ∃ order : List (key.Value × value.Value), order.Perm entries ∧
        List.Forall₂ (fun v o => Shows view key v.1 o.1 ∧ Shows view value v.2 o.2) order objects

theorem shows_leaf {host : Type} (view : HostView host) {ty : LaicType} {scalar : Scalar}
    (leaf : ty.leafScalar = some scalar) (value : ty.Value) (object : host) :
    Shows view ty value object ↔
      object = view.scalar scalar (cast (LaicType.value_of_leaf leaf) value) := by
  cases ty with
  | list | optional | map => cases leaf
  | string | bytes | bool | i8 | i16 | i32 | i64 | u8 | f32 | f64 | tensor =>
    cases leaf
    rfl

end Laic
