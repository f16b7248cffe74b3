import Laic.Lib.ArrowLanguages

/-! # Libraries that do what is documented

The functions of the three libraries written out, for the data types that are modelled, and the
proof that they are what the documentation says.  A column of another type is read as nothing, and
none is built. -/

namespace Arrow.Reference

open Arrow

/-! ## arrow-rs -/

def downcastScalar (expected : Scalar) : DynArray → Option (List (Slot expected.Value))
  | ⟨.scalar type, slots⟩ => if same : type = expected then some (same ▸ slots) else none
  | ⟨.list _ _ _, _⟩ | ⟨.map _ _ _ _, _⟩ | ⟨.other _, _⟩ => none

def downcastList : DynArray → Option (List DynArray)
  | ⟨.list _ _ item, slots⟩ => some (slots.map fun slot => ⟨item, slot.value.items⟩)
  | ⟨.scalar _, _⟩ | ⟨.map _ _ _ _, _⟩ | ⟨.other _, _⟩ => none

def downcastMap : DynArray → Option (List (DynArray × DynArray))
  | ⟨.map _ _ key value, slots⟩ =>
    some (slots.map fun slot =>
      (⟨key, slot.value.entries.map Prod.fst⟩, ⟨value, slot.value.entries.map Prod.snd⟩))
  | ⟨.scalar _, _⟩ | ⟨.list _ _ _, _⟩ | ⟨.other _, _⟩ => none

theorem downcastScalar_self (expected : Scalar) (slots : List (Slot expected.Value)) :
    downcastScalar expected ⟨.scalar expected, slots⟩ = some slots := by
  simp [downcastScalar]

theorem downcastScalar_ne {expected : Scalar} {array : DynArray}
    (different : array.type ≠ .scalar expected) : downcastScalar expected array = none := by
  obtain ⟨type, slots⟩ := array
  cases type with
  | scalar type =>
    have other : type ≠ expected := by
      intro same
      subst same
      exact different rfl
    simp [downcastScalar, other]
  | list | map | other => rfl

theorem downcastList_ne {array : DynArray}
    (different : ∀ itemName itemNullable item, array.type ≠ .list itemName itemNullable item) :
    downcastList array = none := by
  obtain ⟨type, slots⟩ := array
  cases type with
  | list itemName itemNullable item => exact absurd rfl (different itemName itemNullable item)
  | scalar | map | other => rfl

/-! ## pyarrow -/

def asPy : (type : DataType) → Slot (Cell type) → Option PyValue
  | .scalar type, slot => some (if slot.valid then type.toPy slot.value else .none)
  | .list _ _ item, slot =>
    if slot.valid then (slot.value.items.mapM (asPy item)).map .list else some .none
  | .map _ _ key value, slot =>
    if slot.valid then
      (slot.value.entries.mapM (pairM (asPy key) (asPy value))).map fun pairs =>
        .list (pairs.map fun pair => .tuple [pair.1, pair.2])
    else some .none
  | .other _, _ => none

def pyListValues : (type : DataType) → Slot (Cell type) → Option (List PyValue)
  | .list _ _ item, slot => if slot.valid then slot.value.items.mapM (asPy item) else none
  | .scalar _, _ | .map _ _ _ _, _ | .other _, _ => none

/-- The parts of a pair. -/
def pairOf : PyValue → Option (PyValue × PyValue)
  | .tuple [first, second] => some (first, second)
  | _ => none

def pyBuild : (type : DataType) → PyValue → Option (Slot (Cell type))
  | type, .none => some (Slot.null type)
  | .scalar type, value => (type.ofPy value).map Slot.full
  | .list _ _ item, .list items => do
    let items ← items.mapM (pyBuild item)
    some ⟨true, items⟩
  | .map _ _ key value, .list items => do
    let pairs ← items.mapM pairOf
    let entries ← pairs.mapM (pairM (pyBuild key) (pyBuild value))
    if entries.all fun entry => entry.1.valid then
      some ⟨true, entries⟩
    else none
  | _, _ => none

theorem asPy_null {type : DataType} (modelled : type.isModelled = true) {slot : Slot (Cell type)}
    (null : slot.valid = false) : asPy type slot = some .none := by
  cases type with
  | other => cases modelled
  | scalar | list | map => simp [asPy, null]

theorem pyBuild_none (type : DataType) : ∃ value, pyBuild type .none = some ⟨false, value⟩ := by
  refine ⟨blank type, ?_⟩
  cases type <;> rfl

theorem pyBuild_scalar (scalar : Scalar) (value : scalar.Value) :
    pyBuild (.scalar scalar) (scalar.toPy value) = some ⟨true, value⟩ := by
  have read := congrArg (Option.map Slot.full) (Scalar.ofPy_toPy scalar value)
  cases scalar <;> exact read

theorem pyBuild_map {layout : MapLayout} {keysSorted : Bool} {key value : DataType}
    {pairs : List (PyValue × PyValue)} {entries : List (Slot (Cell key) × Slot (Cell value))}
    (built : pairs.mapM (pairM (pyBuild key) (pyBuild value)) = some entries)
    (keys : ∀ entry ∈ entries, entry.1.valid = true) :
    pyBuild (.map layout keysSorted key value) (.list (pairs.map fun pair => .tuple [pair.1, pair.2])) =
      some ⟨true, entries⟩ := by
  have parts : (pairs.map fun pair => PyValue.tuple [pair.1, pair.2]).mapM pairOf = some pairs := by
    have each : ∀ pair ∈ pairs, (pairOf ∘ fun pair : PyValue × PyValue =>
        .tuple [pair.1, pair.2]) pair = some (id pair) := fun _ _ => rfl
    rw [List.mapM_map, mapM_eq_map each, List.map_id]
  have keysValid : (entries.all fun entry => entry.1.valid) = true := List.all_eq_true.mpr keys
  simp only [pyBuild, parts, built, Option.bind_eq_bind, Option.bind_some, keysValid, if_true]

/-! ## Arrow JS -/

/-- The name of a scalar type. -/
def scalarRendering : Scalar → String
  | .boolean => "Bool"
  | .int8 => "Int8"
  | .int16 => "Int16"
  | .int32 => "Int32"
  | .int64 => "Int64"
  | .uint8 => "Uint8"
  | .float32 => "Float32"
  | .float64 => "Float64"
  | .utf8 => "Utf8"
  | .binary => "Binary"

/-- Names in brackets stand for the types that are not modelled. -/
def jsRendering : DataType → String
  | .scalar type => scalarRendering type
  | .list _ _ item => "List<" ++ jsRendering item ++ ">"
  | .map layout _ key value =>
    "Map<\x7b" ++ layout.entriesName ++ ":Struct<\x7b" ++ layout.keyName ++ ":" ++ jsRendering key ++
      ", " ++ layout.valueName ++ ":" ++ jsRendering value ++ "\x7d>\x7d" ++ ">"
  | .other name => name ++ "<" ++ ">"

def jsGet : (type : DataType) → Slot (Cell type) → Option JsValue
  | .scalar type, slot => some (if slot.valid then type.toJs (type.decoded slot.value) else .null)
  | .list _ _ item, slot =>
    if slot.valid then (slot.value.items.mapM (jsGet item)).map .vector else some .null
  | .map _ _ key value, slot =>
    if slot.valid then
      (slot.value.entries.mapM (pairM (jsGet key) (jsGet value))).map .mapRow
    else some .null
  | .other _, _ => none

def jsBuild : (type : DataType) → JsValue → Option (Slot (Cell type))
  | type, .null => some (Slot.null type)
  | .scalar type, value => (type.ofJs value).map Slot.full
  | .list _ _ item, .array items => do
    let items ← items.mapM (jsBuild item)
    some ⟨true, items⟩
  | .map _ _ key value, .map pairs => do
    let entries ← pairs.mapM (pairM (jsBuild key) (jsBuild value))
    some ⟨true, entries⟩
  | _, _ => none

theorem scalarRendering_injective {left right : Scalar}
    (same : scalarRendering left = scalarRendering right) : left = right := by
  cases left <;> cases right <;> first | rfl | exact absurd same (by decide)

/-- A text that ends in a bracket is no scalar's. -/
theorem append_angle_ne (text : String) (scalar : Scalar) : text ++ ">" ≠ scalarRendering scalar := by
  intro same
  have notAngle : (scalarRendering scalar).toList.getLast? ≠ some '>' := by
    cases scalar <;> decide
  rw [← same] at notAngle
  simp [String.toList_append] at notAngle

theorem jsRendering_eq_scalar {type : DataType} {scalar : Scalar} :
    jsRendering type = jsRendering (.scalar scalar) ↔ type = .scalar scalar := by
  constructor
  · intro same
    cases type with
    | scalar type => rw [scalarRendering_injective same]
    | list | map | other => exact absurd same (append_angle_ne _ scalar)
  · intro same
    rw [same]

theorem jsGet_null {type : DataType} (modelled : type.isModelled = true) {slot : Slot (Cell type)}
    (null : slot.valid = false) : jsGet type slot = some .null := by
  cases type with
  | other => cases modelled
  | scalar | list | map => simp [jsGet, null]

theorem jsBuild_null (type : DataType) : ∃ value, jsBuild type .null = some ⟨false, value⟩ := by
  refine ⟨blank type, ?_⟩
  cases type <;> rfl

theorem jsBuild_scalar (scalar : Scalar) (value : scalar.Value) :
    jsBuild (.scalar scalar) (scalar.toJs value) = some ⟨true, value⟩ := by
  have read := congrArg (Option.map Slot.full) (Scalar.ofJs_toJs scalar value)
  cases scalar <;> exact read

/-! ## The instance -/

scoped instance libraries : Libraries where
  downcastScalar := downcastScalar
  downcastList := downcastList
  downcastMap := downcastMap
  rustIsNull _ slot := !slot.valid
  asPy := asPy
  pyIsValid _ slot := slot.valid
  pyListValues := pyListValues
  pyBuild := pyBuild
  jsRendering := jsRendering
  jsGet := jsGet
  jsIsValid _ slot := slot.valid
  jsBuild := jsBuild

scoped instance lawfulLibraries : LawfulLibraries where
  downcastScalar_self := downcastScalar_self
  downcastScalar_ne := downcastScalar_ne
  downcastList_list _ _ _ _ := rfl
  downcastList_ne := downcastList_ne
  downcastMap_map _ _ _ _ _ := rfl
  rustIsNull_eq _ _ := rfl
  asPy_null := asPy_null
  asPy_scalar valid := by simp [Libraries.asPy, asPy, valid]
  asPy_list valid := by simp [Libraries.asPy, asPy, valid]
  asPy_map valid := by simp [Libraries.asPy, asPy, valid]
  pyIsValid_eq _ _ := rfl
  pyListValues_list valid := by simp [Libraries.pyListValues, Libraries.asPy, pyListValues, valid]
  pyListValues_null null := by simp [Libraries.pyListValues, pyListValues, null]
  pyBuild_none _ := pyBuild_none _
  pyBuild_scalar := pyBuild_scalar
  pyBuild_list built := by
    simp only [Libraries.pyBuild] at built
    simp [Libraries.pyBuild, pyBuild, built]
  pyBuild_map := pyBuild_map
  jsRendering_eq_scalar := jsRendering_eq_scalar
  jsGet_null := jsGet_null
  jsGet_scalar valid := by simp [Libraries.jsGet, jsGet, valid]
  jsGet_list valid := by simp [Libraries.jsGet, jsGet, valid]
  jsGet_map valid := by simp [Libraries.jsGet, jsGet, valid]
  jsIsValid_eq _ _ := rfl
  jsBuild_null _ := jsBuild_null _
  jsBuild_scalar := jsBuild_scalar
  jsBuild_list built := by
    simp only [Libraries.jsBuild] at built
    simp [Libraries.jsBuild, jsBuild, built]
  jsBuild_map built := by
    simp only [Libraries.jsBuild] at built
    simp [Libraries.jsBuild, jsBuild, built]

end Arrow.Reference
