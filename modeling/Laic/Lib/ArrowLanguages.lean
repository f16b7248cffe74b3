import Laic.Lib.Arrow
import Mathlib.Data.List.Forall2

/-! # How programs of three languages read and build one slot

arrow-rs downcasts an array to a type and then reads values without asking whether they
are null.  pyarrow and Arrow JS turn a slot into a dynamic value, a null slot into the
language's null, and build a slot of a given type from such a value.  The three libraries
are a parameter, `Libraries`, and what their documentation promises is the hypothesis
`LawfulLibraries`; functions of the languages themselves are defined here. -/

namespace Arrow

/-! ## Traversals -/

/-- Both parts of a pair. -/
def pairM {α β γ δ : Type} (left : α → Option γ) (right : β → Option δ) (pair : α × β) :
    Option (γ × δ) := do
  let l ← left pair.1
  let r ← right pair.2
  some (l, r)

theorem mapM_eq_map {α β : Type} {f : α → Option β} {g : α → β} {xs : List α}
    (agree : ∀ x ∈ xs, f x = some (g x)) : xs.mapM f = some (xs.map g) := by
  induction xs with
  | nil => rfl
  | cons x xs ih =>
    have head := agree x List.mem_cons_self
    have tail := ih fun y member => agree y (List.mem_cons_of_mem x member)
    simp [List.mapM_cons, head, tail]

/-- Traversing keeps a relation that each step keeps. -/
theorem exists_mapM_of_forall₂ {α β γ : Type} {R : α → β → Prop} {S : α → γ → Prop} {f : β → Option γ}
    (each : ∀ a b, R a b → ∃ c, f b = some c ∧ S a c) {left : List α} {right : List β}
    (all : List.Forall₂ R left right) : ∃ results, right.mapM f = some results ∧ List.Forall₂ S left results := by
  induction all with
  | nil => exact ⟨[], rfl, .nil⟩
  | cons head _ ih =>
    obtain ⟨first, firstRead, kept⟩ := each _ _ head
    obtain ⟨rest, restRead, keptRest⟩ := ih
    refine ⟨first :: rest, ?_, .cons kept keptRest⟩
    simp [List.mapM_cons, firstRead, restRead]

theorem exists_of_forall₂ {α β : Type} {R : α → β → Prop} {left : List α} {right : List β} {b : β}
    (all : List.Forall₂ R left right) (member : b ∈ right) : ∃ a, R a b := by
  induction all with
  | nil => cases member
  | cons head _ ih =>
    obtain rfl | later := List.mem_cons.mp member
    · exact ⟨_, head⟩
    · exact ih later

theorem exists_right_of_forall₂ {α β : Type} {R : α → β → Prop} {left : List α} {right : List β} {a : α}
    (all : List.Forall₂ R left right) (member : a ∈ left) : ∃ b ∈ right, R a b := by
  induction all with
  | nil => cases member
  | cons head _ ih =>
    obtain rfl | later := List.mem_cons.mp member
    · exact ⟨_, List.mem_cons_self, head⟩
    · obtain ⟨b, inRest, related⟩ := ih later
      exact ⟨b, List.mem_cons_of_mem _ inRest, related⟩

theorem forall₂_both {α β : Type} {R S : α → β → Prop} {left : List α} {right : List β}
    (first : List.Forall₂ R left right) (second : List.Forall₂ S left right) :
    List.Forall₂ (fun a b => R a b ∧ S a b) left right := by
  induction first with
  | nil => exact .nil
  | cons head _ ih =>
    cases second with
    | cons head' rest' => exact .cons ⟨head, head'⟩ (ih rest')

/-! ## Rust -/

/-- Rust values, as far as a column can hold them. -/
inductive RustValue where
  | scalar (type : Scalar) (value : type.Value)
  | vec (items : List RustValue)
  | option (value : Option RustValue)
  | map (entries : List (RustValue × RustValue))

/-- The value of a Rust object of this scalar type. -/
def RustValue.asScalar (scalar : Scalar) : RustValue → Option scalar.Value
  | .scalar type value => if same : type = scalar then some (same ▸ value) else none
  | .vec _ | .option _ | .map _ => none

@[simp] theorem RustValue.asScalar_self (scalar : Scalar) (value : scalar.Value) :
    (RustValue.scalar scalar value).asScalar scalar = some value := by
  simp [RustValue.asScalar]

/-- The slot of a value that may be absent. -/
def RustValue.optionalSlot (scalar : Scalar) : RustValue → Option (Slot (Cell (.scalar scalar)))
  | .option none => some (Slot.null (.scalar scalar))
  | .option (some value) => (value.asScalar scalar).map Slot.full
  | _ => none

/-! ## Python -/

/-- The Python object that a scalar is. -/
def Scalar.toPy : (scalar : Scalar) → scalar.Value → PyValue
  | .boolean, value => .bool value
  | .int8, value => .int (value : Int8).toInt
  | .int16, value => .int (value : Int16).toInt
  | .int32, value => .int (value : Int32).toInt
  | .int64, value => .int (value : Int64).toInt
  | .uint8, value => .int (value : UInt8).toNat
  | .float32, value => .float (value.convert .binary64)
  | .float64, value => .float value
  | .utf8, value => .str value
  | .binary, value => .bytes value

/-- A Python integer from `low` on and below `high`. -/
def pyIntWithin (low high : Int) : PyValue → Option Int
  | .int value => if low ≤ value ∧ value < high then some value else none
  | _ => none

/-- The value of a scalar column that an object stands for. -/
def Scalar.ofPy : (scalar : Scalar) → PyValue → Option scalar.Value
  | .boolean, .bool value => some value
  | .int8, value => (pyIntWithin (-2 ^ 7) (2 ^ 7) value).map Int8.ofInt
  | .int16, value => (pyIntWithin (-2 ^ 15) (2 ^ 15) value).map Int16.ofInt
  | .int32, value => (pyIntWithin (-2 ^ 31) (2 ^ 31) value).map Int32.ofInt
  | .int64, value => (pyIntWithin (-2 ^ 63) (2 ^ 63) value).map Int64.ofInt
  | .uint8, value => (pyIntWithin 0 (2 ^ 8) value).map UInt8.ofInt
  | .float32, .float value => some (value.convert .binary32)
  | .float64, .float value => some value
  | .utf8, .str value => some value
  | .binary, .bytes value => some value
  | _, _ => none

/-! ### Dictionaries -/

/-- What iterating over an object gives; `none` where it raises. -/
def PyValue.iterate : PyValue → Option (List PyValue)
  | .list items | .tuple items => some items
  | .dict entries => some (entries.map Prod.fst)
  | .str value => some (value.toList.map fun c => .str (String.singleton c))
  | .bytes value => some (value.map fun byte => .int byte.toNat)
  | .none | .bool _ | .int _ | .float _ | .object _ => Option.none

/-- The number a Python object is equal to. -/
def PyValue.number? : PyValue → Option ℚ
  | .bool value => some (if value then 1 else 0)
  | .int value => some value
  | .float (.finite negative magnitude) => some (if negative then -magnitude.1 else magnitude.1)
  | _ => Option.none

/-- Equality of dictionary keys: numbers are compared across their types. -/
def PyValue.keyEq : PyValue → PyValue → Bool
  | .str left, .str right => left == right
  | .bytes left, .bytes right => left == right
  | .none, .none => true
  | .object left, .object right => left == right
  | .float (.infinite left), .float (.infinite right) => left == right
  | left, right =>
    match left.number?, right.number? with
    | some l, some r => l == r
    | _, _ => false

/-- Lists and dictionaries cannot be keys; no slot is read as a tuple. -/
def PyValue.hashable : PyValue → Bool
  | .list _ | .dict _ => false
  | .none | .bool _ | .int _ | .float _ | .str _ | .bytes _ | .tuple _ | .object _ => true

/-- Setting a key of a dictionary. -/
def pySetItem (entries : List (PyValue × PyValue)) (entry : PyValue × PyValue) :
    List (PyValue × PyValue) :=
  if entries.any fun other => other.1.keyEq entry.1 then
    entries.map fun other => if other.1.keyEq entry.1 then (other.1, entry.2) else other
  else entries ++ [entry]

/-- The key and the value that an item of the argument of `dict` stands for. -/
def pyKeyValue (item : PyValue) : Option (PyValue × PyValue) :=
  match item.iterate with
  | some [key, value] => if key.hashable then some (key, value) else none
  | _ => none

/-- `dict`; `none` where it raises. -/
def pyDict : PyValue → Option PyValue
  | .dict entries => some (.dict entries)
  | value => do
    let items ← value.iterate
    let pairs ← items.mapM pyKeyValue
    some (.dict (pairs.foldl pySetItem []))

/-! ## JavaScript -/

/-- The JavaScript value that a scalar is. -/
def Scalar.toJs : (scalar : Scalar) → scalar.Value → JsValue
  | .boolean, value => .boolean value
  | .int8, value => .number (.ofInt .binary64 (value : Int8).toInt)
  | .int16, value => .number (.ofInt .binary64 (value : Int16).toInt)
  | .int32, value => .number (.ofInt .binary64 (value : Int32).toInt)
  | .int64, value => .bigint (value : Int64).toInt
  | .uint8, value => .number (.ofInt .binary64 (value : UInt8).toNat)
  | .float32, value => .number (value.convert .binary64)
  | .float64, value => .number value
  | .utf8, value => .string value
  | .binary, value => .uint8Array value

/-- Typed arrays keep the low bits of the integer part. -/
def Scalar.ofJs : (scalar : Scalar) → JsValue → Option scalar.Value
  | .boolean, .boolean value => some value
  | .int8, .number value => some (Int8.ofInt value.toInt)
  | .int16, .number value => some (Int16.ofInt value.toInt)
  | .int32, .number value => some (Int32.ofInt value.toInt)
  | .int64, .bigint value => some (Int64.ofInt value)
  | .uint8, .number value => some (UInt8.ofInt value.toInt)
  | .float32, .number value => some (value.convert .binary32)
  | .float64, .number value => some value
  | .utf8, .string value => some value
  | .binary, .uint8Array value => some value
  | _, _ => none

/-- The mark that may stand in front of a text to name its encoding. -/
def byteOrderMark : Char := '\uFEFF'

/-- `TextDecoder.decode`: a mark in front is no part of the text. -/
def textDecode (text : String) : String :=
  if text.toList.head? = some byteOrderMark then String.ofList text.toList.tail else text

/-- What decoding its bytes gives: the value, and of a string the decoded text. -/
def Scalar.decoded : (scalar : Scalar) → scalar.Value → scalar.Value
  | .utf8, text => textDecode text
  | _, value => value

/-- `Array.from`; `none` where it throws.  What has neither items nor a length gives no items. -/
def jsArrayFrom : JsValue → Option JsValue
  | .null => none
  | .array items | .vector items => some (.array items)
  | .map entries | .mapRow entries =>
    some (.array (entries.map fun entry => .array [entry.1, entry.2]))
  | .string value => some (.array (value.toList.map fun c => .string (String.singleton c)))
  | .uint8Array value =>
    some (.array (value.map fun byte => .number (.ofInt .binary64 byte.toNat)))
  | .boolean _ | .number _ | .bigint _ | .object _ => some (.array [])

/-! ## Scalars survive either language -/

theorem uint8_ofInt_toNat (value : UInt8) : UInt8.ofInt value.toNat = value := by
  have small : (value.toNat : Int) % 2 ^ 8 = value.toNat := by
    have bound := value.toNat_lt
    omega
  rw [UInt8.ofInt, small, Int.toNat_natCast, UInt8.ofNat_toNat]

/-- Every integer scalar is a 64-bit float. -/
theorem representable_of_small {n : Int} (small : n.natAbs ≤ 2 ^ 31) :
    FloatFormat.binary64.Representable n.natAbs :=
  FloatFormat.binary64.representable_natCast
    (Nat.lt_of_le_of_lt small (by decide)) (by decide) (by decide)

theorem Scalar.ofPy_toPy (scalar : Scalar) (value : scalar.Value) :
    scalar.ofPy (scalar.toPy value) = some value := by
  cases scalar with
  | boolean | float64 | utf8 | binary => rfl
  | float32 =>
    have same := FloatValue.convert_convert FloatFormat.binary32_embeds_binary64 value
    simp [Scalar.toPy, Scalar.ofPy, same]
  | int8 =>
    have within := And.intro (Int8.le_toInt value) (Int8.toInt_lt value)
    simp only [Scalar.toPy, Scalar.ofPy, pyIntWithin, if_pos within, Option.map_some,
      Int8.ofInt_toInt]
  | int16 =>
    have within := And.intro (Int16.le_toInt value) (Int16.toInt_lt value)
    simp only [Scalar.toPy, Scalar.ofPy, pyIntWithin, if_pos within, Option.map_some,
      Int16.ofInt_toInt]
  | int32 =>
    have within := And.intro (Int32.le_toInt value) (Int32.toInt_lt value)
    simp only [Scalar.toPy, Scalar.ofPy, pyIntWithin, if_pos within, Option.map_some,
      Int32.ofInt_toInt]
  | int64 =>
    have within := And.intro (Int64.le_toInt value) (Int64.toInt_lt value)
    simp only [Scalar.toPy, Scalar.ofPy, pyIntWithin, if_pos within, Option.map_some,
      Int64.ofInt_toInt]
  | uint8 =>
    have upper : ((value : UInt8).toNat : Int) < 2 ^ 8 := by
      have bound := UInt8.toNat_lt value
      omega
    have lower : (0 : Int) ≤ (value : UInt8).toNat := Int.natCast_nonneg _
    simp only [Scalar.toPy, Scalar.ofPy, pyIntWithin, if_pos (And.intro lower upper), Option.map_some,
      uint8_ofInt_toNat]

theorem Scalar.ofJs_toJs (scalar : Scalar) (value : scalar.Value) :
    scalar.ofJs (scalar.toJs value) = some value := by
  cases scalar with
  | boolean | float64 | utf8 | binary => rfl
  | float32 =>
    have same := FloatValue.convert_convert FloatFormat.binary32_embeds_binary64 value
    simp [Scalar.toJs, Scalar.ofJs, same]
  | int64 => simp [Scalar.toJs, Scalar.ofJs]
  | int8 =>
    have small : (Int8.toInt value).natAbs ≤ 2 ^ 31 := by
      have lower := Int8.le_toInt value
      have upper := Int8.toInt_lt value
      omega
    simp [Scalar.toJs, Scalar.ofJs, FloatValue.toInt_ofInt (representable_of_small small)]
  | int16 =>
    have small : (Int16.toInt value).natAbs ≤ 2 ^ 31 := by
      have lower := Int16.le_toInt value
      have upper := Int16.toInt_lt value
      omega
    simp [Scalar.toJs, Scalar.ofJs, FloatValue.toInt_ofInt (representable_of_small small)]
  | int32 =>
    have small : (Int32.toInt value).natAbs ≤ 2 ^ 31 := by
      have lower := Int32.le_toInt value
      have upper := Int32.toInt_lt value
      omega
    simp [Scalar.toJs, Scalar.ofJs, FloatValue.toInt_ofInt (representable_of_small small)]
  | uint8 =>
    have small : ((UInt8.toNat value : Nat) : Int).natAbs ≤ 2 ^ 31 := by
      have bound := UInt8.toNat_lt value
      omega
    simp only [Scalar.toJs, Scalar.ofJs, FloatValue.toInt_ofInt (representable_of_small small),
      uint8_ofInt_toNat]

/-! ## The libraries -/

/-- The functions of the three libraries that programs call on arrays and slots. -/
class Libraries where
  /-- `downcast_ref` to the array of a scalar; `none` where the array is another one. -/
  downcastScalar : (expected : Scalar) → DynArray → Option (List (Slot expected.Value))
  /-- `downcast_ref::<ListArray>`, and the rows of the list array. -/
  downcastList : DynArray → Option (List DynArray)
  /-- `downcast_ref::<MapArray>`, and the rows of the map array: two columns of a struct array. -/
  downcastMap : DynArray → Option (List (DynArray × DynArray))
  /-- `Array::is_null`. -/
  rustIsNull : (type : DataType) → Slot (Cell type) → Bool
  /-- `as_py`; `none` where it raises. -/
  asPy : (type : DataType) → Slot (Cell type) → Option PyValue
  /-- `is_valid`. -/
  pyIsValid : (type : DataType) → Slot (Cell type) → Bool
  /-- The objects in the `values` of a scalar; `none` where it has none to iterate over. -/
  pyListValues : (type : DataType) → Slot (Cell type) → Option (List PyValue)
  /-- The slot that `pa.array([value], type)` builds; `none` where it raises. -/
  pyBuild : (type : DataType) → PyValue → Option (Slot (Cell type))
  /-- `DataType.toString` of Arrow JS. -/
  jsRendering : DataType → String
  /-- `get(0)`; `none` where it throws. -/
  jsGet : (type : DataType) → Slot (Cell type) → Option JsValue
  /-- `isValid(0)`. -/
  jsIsValid : (type : DataType) → Slot (Cell type) → Bool
  /-- The slot that `vectorFromArray([value], type)` builds; `none` where it throws. -/
  jsBuild : (type : DataType) → JsValue → Option (Slot (Cell type))

export Libraries (downcastScalar downcastList downcastMap rustIsNull asPy pyIsValid pyListValues pyBuild
  jsRendering jsGet jsIsValid jsBuild)

/-- `is_null(0)`. -/
def DynArray.isNull [Libraries] (array : DynArray) : Bool := array.slots.head?.any (rustIsNull array.type)

/-- What the documentation of the libraries says of these functions.  Arrays fit into memory and
into the offsets of their types. -/
class LawfulLibraries [Libraries] : Prop where
  -- every data type has an array type of its own, and a row of a list is an array of the items
  downcastScalar_self (expected : Scalar) (slots : List (Slot (Cell (.scalar expected)))) :
    downcastScalar expected ⟨.scalar expected, slots⟩ = some slots
  downcastScalar_ne {expected : Scalar} {array : DynArray} (different : array.type ≠ .scalar expected) :
    downcastScalar expected array = none
  downcastList_list (itemName : String) (itemNullable : Bool) (item : DataType)
    (slots : List (Slot (Cell (.list itemName itemNullable item)))) :
    downcastList ⟨.list itemName itemNullable item, slots⟩ =
      some (slots.map fun slot => ⟨item, slot.value.items⟩)
  downcastList_ne {array : DynArray}
    (different : ∀ itemName itemNullable item, array.type ≠ .list itemName itemNullable item) :
    downcastList array = none
  downcastMap_map (layout : MapLayout) (keysSorted : Bool) (key value : DataType)
    (slots : List (Slot (Cell (.map layout keysSorted key value)))) :
    downcastMap ⟨.map layout keysSorted key value, slots⟩ = some (slots.map fun slot =>
      (⟨key, slot.value.entries.map Prod.fst⟩, ⟨value, slot.value.entries.map Prod.snd⟩))
  rustIsNull_eq {type : DataType} (modelled : type.isModelled = true) (slot : Slot (Cell type)) :
    rustIsNull type slot = !slot.valid
  -- a null is `None`, a list is the list of its items, a map the list of its pairs
  asPy_null {type : DataType} (modelled : type.isModelled = true) {slot : Slot (Cell type)}
    (null : slot.valid = false) : asPy type slot = some .none
  asPy_scalar {scalar : Scalar} {slot : Slot (Cell (.scalar scalar))} (valid : slot.valid = true) :
    asPy (.scalar scalar) slot = some (scalar.toPy slot.value)
  asPy_list {itemName : String} {itemNullable : Bool} {item : DataType}
    {slot : Slot (Cell (.list itemName itemNullable item))} (valid : slot.valid = true) :
    asPy (.list itemName itemNullable item) slot = (slot.value.items.mapM (asPy item)).map .list
  asPy_map {layout : MapLayout} {keysSorted : Bool} {key value : DataType}
    {slot : Slot (Cell (.map layout keysSorted key value))} (valid : slot.valid = true) :
    asPy (.map layout keysSorted key value) slot =
      (slot.value.entries.mapM (pairM (asPy key) (asPy value))).map fun pairs =>
        .list (pairs.map fun pair => .tuple [pair.1, pair.2])
  pyIsValid_eq {type : DataType} (modelled : type.isModelled = true) (slot : Slot (Cell type)) :
    pyIsValid type slot = slot.valid
  pyListValues_list {itemName : String} {itemNullable : Bool} {item : DataType}
    {slot : Slot (Cell (.list itemName itemNullable item))} (valid : slot.valid = true) :
    pyListValues (.list itemName itemNullable item) slot = slot.value.items.mapM (asPy item)
  -- the `values` of a null are `None`
  pyListValues_null {itemName : String} {itemNullable : Bool} {item : DataType}
    {slot : Slot (Cell (.list itemName itemNullable item))} (null : slot.valid = false) :
    pyListValues (.list itemName itemNullable item) slot = none
  pyBuild_none {type : DataType} (modelled : type.isModelled = true) :
    ∃ value, pyBuild type .none = some ⟨false, value⟩
  pyBuild_scalar (scalar : Scalar) (value : scalar.Value) :
    pyBuild (.scalar scalar) (scalar.toPy value) = some ⟨true, value⟩
  pyBuild_list {itemName : String} {itemNullable : Bool} {item : DataType} {objects : List PyValue}
    {items : List (Slot (Cell item))} (built : objects.mapM (pyBuild item) = some items) :
    pyBuild (.list itemName itemNullable item) (.list objects) = some ⟨true, items⟩
  -- keys may not be null
  pyBuild_map {layout : MapLayout} {keysSorted : Bool} {key value : DataType}
    {pairs : List (PyValue × PyValue)} {entries : List (Slot (Cell key) × Slot (Cell value))}
    (built : pairs.mapM (pairM (pyBuild key) (pyBuild value)) = some entries)
    (keys : ∀ entry ∈ entries, entry.1.valid = true) :
    pyBuild (.map layout keysSorted key value) (.list (pairs.map fun pair => .tuple [pair.1, pair.2])) =
      some ⟨true, entries⟩
  -- no other type prints as a scalar does
  jsRendering_eq_scalar {type : DataType} {scalar : Scalar} :
    jsRendering type = jsRendering (.scalar scalar) ↔ type = .scalar scalar
  -- a null is `null`, a list is a vector of its items, a map a row of its entries
  jsGet_null {type : DataType} (modelled : type.isModelled = true) {slot : Slot (Cell type)}
    (null : slot.valid = false) : jsGet type slot = some .null
  jsGet_scalar {scalar : Scalar} {slot : Slot (Cell (.scalar scalar))} (valid : slot.valid = true) :
    jsGet (.scalar scalar) slot = some (scalar.toJs (scalar.decoded slot.value))
  jsGet_list {itemName : String} {itemNullable : Bool} {item : DataType}
    {slot : Slot (Cell (.list itemName itemNullable item))} (valid : slot.valid = true) :
    jsGet (.list itemName itemNullable item) slot = (slot.value.items.mapM (jsGet item)).map .vector
  jsGet_map {layout : MapLayout} {keysSorted : Bool} {key value : DataType}
    {slot : Slot (Cell (.map layout keysSorted key value))} (valid : slot.valid = true) :
    jsGet (.map layout keysSorted key value) slot =
      (slot.value.entries.mapM (pairM (jsGet key) (jsGet value))).map .mapRow
  jsIsValid_eq {type : DataType} (modelled : type.isModelled = true) (slot : Slot (Cell type)) :
    jsIsValid type slot = slot.valid
  jsBuild_null {type : DataType} (modelled : type.isModelled = true) :
    ∃ value, jsBuild type .null = some ⟨false, value⟩
  jsBuild_scalar (scalar : Scalar) (value : scalar.Value) :
    jsBuild (.scalar scalar) (scalar.toJs value) = some ⟨true, value⟩
  jsBuild_list {itemName : String} {itemNullable : Bool} {item : DataType} {objects : List JsValue}
    {items : List (Slot (Cell item))} (built : objects.mapM (jsBuild item) = some items) :
    jsBuild (.list itemName itemNullable item) (.array objects) = some ⟨true, items⟩
  jsBuild_map {layout : MapLayout} {keysSorted : Bool} {key value : DataType}
    {pairs : List (JsValue × JsValue)} {entries : List (Slot (Cell key) × Slot (Cell value))}
    (built : pairs.mapM (pairM (jsBuild key) (jsBuild value)) = some entries) :
    jsBuild (.map layout keysSorted key value) (.map pairs) = some ⟨true, entries⟩

export LawfulLibraries (downcastScalar_self downcastScalar_ne downcastList_list downcastList_ne
  downcastMap_map rustIsNull_eq asPy_null asPy_scalar asPy_list asPy_map pyIsValid_eq pyListValues_list
  pyListValues_null pyBuild_none pyBuild_scalar pyBuild_list pyBuild_map jsRendering_eq_scalar jsGet_null
  jsGet_scalar jsGet_list jsGet_map jsIsValid_eq jsBuild_null jsBuild_scalar jsBuild_list jsBuild_map)

end Arrow
