import Laic.Codegen.Entries

/-! # Reading what holds a value

On an entry that holds a value of the field's type, and that has this type apart from the names
and the nullability of its children, the extraction of every target gives an object that shows
the value, in TypeScript with its strings decoded.  Entries come from any encoder: a null item is an
absent one, and a map is read in the order it was written in. -/

namespace Laic

open Arrow
open Except (ofOption)

/-! ## Objects of the targets -/

/-- What the objects that a decoder makes show.  Vectors and map rows of Arrow JS count as lists
and maps. -/
def Target.view : (target : Target) → HostView target.Host
  | .rust =>
    { scalar := RustValue.scalar
      items := fun
        | .vec items => some items
        | .scalar _ _ | .option _ | .map _ => none
      optional := fun
        | .option value => some value
        | .scalar _ _ | .vec _ | .map _ => none
      entries := fun
        | .map entries => some entries
        | .scalar _ _ | .vec _ | .option _ => none }
  | .python =>
    { scalar := Scalar.toPy
      items := fun
        | .list items => some items
        | _ => none
      optional := fun
        | .none => some none
        | value => some (some value)
      entries := fun
        | .dict entries => some entries
        | _ => none }
  | .typescript =>
    { scalar := Scalar.toJs
      items := fun
        | .array items | .vector items => some items
        | _ => none
      optional := fun
        | .null => some none
        | value => some (some value)
      entries := fun
        | .map entries | .mapRow entries => some entries
        | _ => none }

/-- What the arguments of an encoder show: they are of the annotated types, which vectors and map
rows are not. -/
def Target.argument : (target : Target) → HostView target.Host
  | .rust => Target.rust.view
  | .python => Target.python.view
  | .typescript =>
    { scalar := Scalar.toJs
      items := fun
        | .array items => some items
        | _ => none
      optional := Target.typescript.view.optional
      entries := fun
        | .map entries => some entries
        | _ => none }

/-- What a target reads of a value: TypeScript decodes the strings in it. -/
def Target.readsAs (ty : LaicType) (value : ty.Value) : Target → ty.Value
  | .rust | .python => value
  | .typescript => ty.decoded value

@[simp] theorem python_optional_scalar (scalar : Scalar) (value : scalar.Value) :
    Target.python.view.optional (scalar.toPy value) = some (some (scalar.toPy value)) := by
  cases scalar <;> rfl

@[simp] theorem typescript_optional_scalar (scalar : Scalar) (value : scalar.Value) :
    Target.typescript.view.optional (scalar.toJs value) = some (some (scalar.toJs value)) := by
  cases scalar <;> rfl

/-! ## The data type of an entry -/

theorem exists_of_erase_list {type item : DataType} (erased : type.erase = .list "" false item) :
    ∃ itemName itemNullable inner, type = .list itemName itemNullable inner ∧ inner.erase = item := by
  cases type with
  | list itemName itemNullable inner =>
    cases erased
    exact ⟨itemName, itemNullable, inner, rfl, rfl⟩
  | scalar | map | other => cases erased

theorem exists_of_erase_map {type key value : DataType} {layout : MapLayout} {sorted : Bool}
    (erased : type.erase = .map layout sorted key value) :
    ∃ layout keyType valueType, type = .map layout sorted keyType valueType ∧ keyType.erase = key ∧
      valueType.erase = value := by
  cases type with
  | map layout' sorted' keyType valueType =>
    cases erased
    exact ⟨layout', keyType, valueType, rfl, rfl, rfl⟩
  | scalar | list | other => cases erased

variable {ty inner key value : LaicType} {scalar : Scalar} {type : DataType}

/-- A column of a leaf has the type of its scalar. -/
theorem type_of_leaf (leaf : ty.leafScalar = some scalar) (declared : type.erase = ty.wireType) :
    type = .scalar scalar := by
  rwa [LaicType.wireType_of_leaf leaf, DataType.erase_eq_scalar] at declared

theorem type_of_list (leaf : inner.leafScalar = some scalar)
    (declared : type.erase = (LaicType.list inner).wireType) :
    ∃ itemName itemNullable, type = .list itemName itemNullable (.scalar scalar) := by
  obtain ⟨itemName, itemNullable, item, rfl, itemType⟩ := exists_of_erase_list declared
  rw [type_of_leaf leaf itemType]
  exact ⟨itemName, itemNullable, rfl⟩

theorem type_of_map {keyScalar valueScalar : Scalar} (keyLeaf : key.leafScalar = some keyScalar)
    (valueLeaf : value.leafScalar = some valueScalar)
    (declared : type.erase = (LaicType.map key value).wireType) :
    ∃ layout, type = .map layout false (.scalar keyScalar) (.scalar valueScalar) := by
  obtain ⟨layout, keyType, valueType, rfl, isKey, isValue⟩ := exists_of_erase_map declared
  rw [type_of_leaf keyLeaf isKey, type_of_leaf valueLeaf isValue]
  exact ⟨layout, rfl⟩

/-! ## One slot of a leaf -/

theorem holds_leaf_iff (leaf : ty.leafScalar = some scalar) {value : ty.Value}
    {slot : Slot (Cell (.scalar scalar))} :
    Holds ty value (.scalar scalar) slot ↔
      slot = ⟨true, cast (LaicType.value_of_leaf leaf) value⟩ := by
  rw [holds_leaf leaf]
  exact ⟨fun held => held.2, fun same => ⟨rfl, same⟩⟩

/-- A slot that holds a leaf is valid, and its value is what an object shows. -/
theorem leaf_of_holds {host : Type} (view : HostView host) (leaf : ty.leafScalar = some scalar)
    {value : ty.Value} {slot : Slot (Cell (.scalar scalar))} (holds : Holds ty value (.scalar scalar) slot) :
    slot.valid = true ∧ Shows view ty value (view.scalar scalar slot.value) := by
  rw [holds_leaf_iff leaf] at holds
  subst holds
  exact ⟨rfl, (shows_leaf view leaf value _).mpr rfl⟩

/-- What TypeScript reads of such a slot. -/
theorem leaf_of_holds_decoded (leaf : ty.leafScalar = some scalar) {value : ty.Value}
    {slot : Slot (Cell (.scalar scalar))} (holds : Holds ty value (.scalar scalar) slot) :
    Shows Target.typescript.view ty (ty.decoded value) (scalar.toJs (scalar.decoded slot.value)) := by
  rw [holds_leaf_iff leaf] at holds
  subst holds
  rw [shows_leaf Target.typescript.view leaf, LaicType.decoded_leaf leaf]
  rfl

/-- A present value is held as itself. -/
theorem holds_some {value : inner.Value} {slot : Slot (Cell type)}
    (holds : Holds (.optional inner) (some value : Option inner.Value) type slot) :
    Holds inner value type slot :=
  holds

/-- The type of an item: a leaf or an optional one. -/
inductive ItemOf : LaicType → Scalar → Prop where
  | leaf {ty : LaicType} {scalar : Scalar} (leaf : ty.leafScalar = some scalar) : ItemOf ty scalar
  | optional {ty : LaicType} {scalar : Scalar} (leaf : ty.leafScalar = some scalar) :
      ItemOf (.optional ty) scalar

/-- The items that stand in a list slot. -/
theorem items_of_holds {itemName : String} {itemNullable : Bool} {items : List inner.Value}
    {slot : Slot (Cell (.list itemName itemNullable (.scalar scalar)))}
    (holds : Holds (.list inner) items _ slot) :
    slot.valid = true ∧
      List.Forall₂ (fun value item => Holds inner value (.scalar scalar) item) items slot.value.items :=
  holds

section Items

variable [Libraries] [LawfulLibraries]

/-- Python reads an item as an object that shows it. -/
theorem asPy_shows_item (isItem : ItemOf ty scalar) {value : ty.Value} {slot : Slot (Cell (.scalar scalar))}
    (holds : Holds ty value (.scalar scalar) slot) :
    ∃ object, asPy (.scalar scalar) slot = some object ∧ Shows Target.python.view ty value object := by
  cases isItem with
  | leaf leaf =>
    obtain ⟨valid, shows⟩ := leaf_of_holds Target.python.view leaf holds
    exact ⟨scalar.toPy slot.value, asPy_scalar valid, shows⟩
  | @optional inner _ leaf =>
    cases value with
    | none =>
      have null : slot.valid = false := holds
      exact ⟨.none, asPy_null rfl null, rfl⟩
    | some value =>
      obtain ⟨valid, shows⟩ := leaf_of_holds Target.python.view leaf (holds_some holds)
      exact ⟨scalar.toPy slot.value, asPy_scalar valid, scalar.toPy slot.value,
        python_optional_scalar scalar _, shows⟩

/-- So does TypeScript, but for a byte-order mark. -/
theorem jsGet_shows_item (isItem : ItemOf ty scalar) {value : ty.Value} {slot : Slot (Cell (.scalar scalar))}
    (holds : Holds ty value (.scalar scalar) slot) :
    ∃ object, jsGet (.scalar scalar) slot = some object ∧
      Shows Target.typescript.view ty (ty.decoded value) object := by
  cases isItem with
  | leaf leaf =>
    obtain ⟨valid, -⟩ := leaf_of_holds Target.typescript.view leaf holds
    exact ⟨_, jsGet_scalar valid, leaf_of_holds_decoded leaf holds⟩
  | @optional inner _ leaf =>
    cases value with
    | none =>
      have null : slot.valid = false := holds
      exact ⟨.null, jsGet_null rfl null, rfl⟩
    | some value =>
      obtain ⟨valid, -⟩ := leaf_of_holds Target.typescript.view leaf (holds_some holds)
      exact ⟨_, jsGet_scalar valid, _, typescript_optional_scalar scalar _,
        leaf_of_holds_decoded leaf (holds_some holds)⟩

theorem asPy_shows_list (isItem : ItemOf inner scalar) {itemName : String} {itemNullable : Bool}
    {items : List inner.Value} {slot : Slot (Cell (.list itemName itemNullable (.scalar scalar)))}
    (holds : Holds (.list inner) items _ slot) :
    ∃ objects, slot.value.items.mapM (asPy (.scalar scalar)) = some objects ∧
      asPy _ slot = some (.list objects) ∧ List.Forall₂ (Shows Target.python.view inner) items objects := by
  obtain ⟨valid, each⟩ := items_of_holds holds
  obtain ⟨objects, read, shown⟩ := exists_mapM_of_forall₂ (fun _ _ held => asPy_shows_item isItem held) each
  refine ⟨objects, read, ?_, shown⟩
  rw [asPy_list valid, read]
  rfl

theorem jsGet_shows_list (isItem : ItemOf inner scalar) {itemName : String} {itemNullable : Bool}
    {items : List inner.Value} {slot : Slot (Cell (.list itemName itemNullable (.scalar scalar)))}
    (holds : Holds (.list inner) items _ slot) :
    ∃ objects, jsGet _ slot = some (.vector objects) ∧
      List.Forall₂ (Shows Target.typescript.view inner) (items.map inner.decoded) objects := by
  obtain ⟨valid, each⟩ := items_of_holds holds
  obtain ⟨objects, read, shown⟩ := exists_mapM_of_forall₂ (fun _ _ held => jsGet_shows_item isItem held) each
  refine ⟨objects, ?_, List.forall₂_map_left_iff.mpr shown⟩
  rw [jsGet_list valid, read]
  rfl

end Items

/-! ## Maps -/

/-- Filling a hash map with entries of different keys keeps them in order. -/
theorem foldl_hashInsert {α β : Type} [DecidableEq α] {entries : List (α × β)}
    (distinct : (entries.map Prod.fst).Nodup) : entries.foldl hashInsert [] = entries := by
  have fill : ∀ (done todo : List (α × β)), ((done ++ todo).map Prod.fst).Nodup →
      todo.foldl hashInsert done = done ++ todo := by
    intro done todo
    induction todo generalizing done with
    | nil => simp
    | cons entry todo ih =>
      intro nodup
      have fresh : done.filter (fun other => other.1 ≠ entry.1) = done := by
        rw [List.filter_eq_self]
        intro other member
        simp only [List.map_append, List.map_cons, List.nodup_append] at nodup
        have different := nodup.2.2 other.1 (List.mem_map_of_mem member) entry.1 List.mem_cons_self
        simpa using different
      rw [List.foldl_cons, hashInsert, fresh, ih (done ++ [entry]) (by simpa using nodup)]
      simp
  simpa using fill [] entries (by simpa using distinct)

/-- Filling a dictionary with entries of different keys keeps them in order. -/
theorem foldl_pySetItem {entries : List (PyValue × PyValue)}
    (distinct : entries.Pairwise fun one other => one.1.keyEq other.1 = false) :
    entries.foldl pySetItem [] = entries := by
  have fill : ∀ (done todo : List (PyValue × PyValue)),
      (done ++ todo).Pairwise (fun one other => one.1.keyEq other.1 = false) →
      todo.foldl pySetItem done = done ++ todo := by
    intro done todo
    induction todo generalizing done with
    | nil => simp
    | cons entry todo ih =>
      intro apart
      have fresh : done.any (fun other => other.1.keyEq entry.1) = false := by
        rw [List.any_eq_false]
        intro other member
        have different := (List.pairwise_append.mp apart).2.2 other member entry List.mem_cons_self
        simp [different]
      rw [List.foldl_cons, pySetItem, fresh, if_neg Bool.false_ne_true,
        ih (done ++ [entry]) (by simpa using apart)]
      simp
  simpa using fill [] entries (by simpa using distinct)

theorem pyDict_tuples {entries : List (PyValue × PyValue)}
    (hashable : ∀ entry ∈ entries, entry.1.hashable = true)
    (distinct : entries.Pairwise fun one other => one.1.keyEq other.1 = false) :
    pyDict (.list (entries.map fun entry => .tuple [entry.1, entry.2])) = some (.dict entries) := by
  have pairs : (entries.map fun entry => PyValue.tuple [entry.1, entry.2]).mapM pyKeyValue =
      some entries := by
    have each : ∀ entry ∈ entries, (pyKeyValue ∘ fun entry : PyValue × PyValue =>
        .tuple [entry.1, entry.2]) entry = some (id entry) := by
      intro entry member
      simp [pyKeyValue, PyValue.iterate, hashable entry member]
    rw [List.mapM_map, mapM_eq_map each, List.map_id]
  have items : (PyValue.list (entries.map fun entry => .tuple [entry.1, entry.2])).iterate =
      some (entries.map fun entry => .tuple [entry.1, entry.2]) := rfl
  simp only [pyDict, items, Option.bind_eq_bind, Option.bind_some, pairs, foldl_pySetItem distinct]

/-- Keys that Python holds to be equal are the same value. -/
theorem keyEq_toPy (isKey : key.isMapKey = true) (leaf : key.leafScalar = some scalar)
    {one other : scalar.Value} (same : (scalar.toPy one).keyEq (scalar.toPy other) = true) : one = other := by
  cases key with
  | bytes | f32 | f64 | tensor | list | optional | map => cases isKey
  | string =>
    cases leaf
    simpa [Scalar.toPy, PyValue.keyEq] using same
  | bool =>
    cases leaf
    cases one <;> cases other <;> simp [Scalar.toPy, PyValue.keyEq, PyValue.number?] at same ⊢
  | i8 =>
    cases leaf
    simpa [Scalar.toPy, PyValue.keyEq, PyValue.number?, Int8.toInt_inj] using same
  | i16 =>
    cases leaf
    simpa [Scalar.toPy, PyValue.keyEq, PyValue.number?, Int16.toInt_inj] using same
  | i32 =>
    cases leaf
    simpa [Scalar.toPy, PyValue.keyEq, PyValue.number?, Int32.toInt_inj] using same
  | i64 =>
    cases leaf
    simpa [Scalar.toPy, PyValue.keyEq, PyValue.number?, Int64.toInt_inj] using same
  | u8 =>
    cases leaf
    simpa [Scalar.toPy, PyValue.keyEq, PyValue.number?, UInt8.toNat_inj] using same

theorem hashable_toPy (scalar : Scalar) (value : scalar.Value) : (scalar.toPy value).hashable = true := by
  cases scalar <;> rfl

section Entries

variable {keyScalar valueScalar : Scalar} {layout : MapLayout} {keysSorted : Bool}
  {entries : List (key.Value × value.Value)}
  {slot : Slot (Cell (.map layout keysSorted (.scalar keyScalar) (.scalar valueScalar)))}

/-- The value of an entry's key slot. -/
def keyOf (entry : Slot (Cell (.scalar keyScalar)) × Slot (Cell (.scalar valueScalar))) : keyScalar.Value :=
  entry.1.value

def valueOf (entry : Slot (Cell (.scalar keyScalar)) × Slot (Cell (.scalar valueScalar))) :
    valueScalar.Value :=
  entry.2.value

/-- The entries that stand in a map slot: they are valid, hold the entries of the value in some
order, and have different keys if those have. -/
theorem entries_of_holds (keyLeaf : key.leafScalar = some keyScalar)
    (valueLeaf : value.leafScalar = some valueScalar) (holds : Holds (.map key value) entries _ slot) :
    slot.valid = true ∧ (∀ entry ∈ slot.value.entries, entry.1.valid = true ∧ entry.2.valid = true) ∧
      (∃ order : List (key.Value × value.Value), order.Perm entries ∧
        List.Forall₂ (fun v entry => Holds key v.1 (.scalar keyScalar) entry.1 ∧
          Holds value v.2 (.scalar valueScalar) entry.2) order slot.value.entries) ∧
      ((List.map Prod.fst entries).Nodup → (slot.value.entries.map keyOf).Nodup) := by
  obtain ⟨valid, order, perm, each⟩ := holds
  generalize Cell.entries slot.value = slots at each ⊢
  refine ⟨valid, ?_, ⟨order, perm, each⟩, ?_⟩
  · intro entry member
    clear perm
    induction each with
    | nil => cases member
    | cons head _ ih =>
      obtain rfl | later := List.mem_cons.mp member
      · exact ⟨(leaf_of_holds Target.rust.view keyLeaf head.1).1,
          (leaf_of_holds Target.rust.view valueLeaf head.2).1⟩
      · exact ih later
  · intro distinct
    have keys : slots.map keyOf =
        (order.map Prod.fst).map (cast (LaicType.value_of_leaf keyLeaf)) := by
      clear perm
      induction each with
      | nil => rfl
      | cons head _ ih =>
        have first := (holds_leaf_iff keyLeaf).mp head.1
        rw [List.map_cons, List.map_cons, List.map_cons, ih, keyOf, first]
        rfl
    rw [keys]
    exact ((perm.map Prod.fst).nodup_iff.mpr distinct).map (cast_bijective _).injective

/-- The hash map that is read back has the entries in the order of the slot. -/
theorem readMap_of_distinct {slots : List (Slot keyScalar.Value × Slot valueScalar.Value)}
    (distinct : (slots.map fun entry => entry.1.value).Nodup) :
    readMap keyScalar valueScalar (slots.map Prod.fst) (slots.map Prod.snd) =
      .map (slots.map fun entry =>
        (.scalar keyScalar entry.1.value, .scalar valueScalar entry.2.value)) := by
  have filled : (slots.map fun entry => (entry.1.value, entry.2.value)).foldl hashInsert [] =
      slots.map fun entry => (entry.1.value, entry.2.value) :=
    foldl_hashInsert (by simpa [Function.comp_def] using distinct)
  simp only [readMap, List.zip_map', List.map_map, Function.comp_def, filled]

/-- The dictionary made of a map's items. -/
theorem pyDict_map (isKey : key.isMapKey = true) (keyLeaf : key.leafScalar = some keyScalar)
    (distinct : (slot.value.entries.map keyOf).Nodup) :
    pyDict (.list ((slot.value.entries.map fun entry =>
        (keyScalar.toPy (keyOf entry), valueScalar.toPy (valueOf entry))).map fun entry =>
          .tuple [entry.1, entry.2])) =
      some (.dict (slot.value.entries.map fun entry =>
        (keyScalar.toPy (keyOf entry), valueScalar.toPy (valueOf entry)))) := by
  apply pyDict_tuples
  · intro entry member
    obtain ⟨slots, -, rfl⟩ := List.mem_map.mp member
    exact hashable_toPy keyScalar _
  · rw [List.pairwise_map]
    apply (List.pairwise_map.mp distinct).imp
    intro one other different
    rw [← Bool.not_eq_true]
    exact fun same => different (keyEq_toPy isKey keyLeaf same)

variable [Libraries] [LawfulLibraries]

theorem asPy_mapSlot (valid : slot.valid = true)
    (all : ∀ entry ∈ slot.value.entries, entry.1.valid = true ∧ entry.2.valid = true) :
    asPy _ slot = some (.list ((slot.value.entries.map fun entry =>
      (keyScalar.toPy (keyOf entry), valueScalar.toPy (valueOf entry))).map fun entry =>
        .tuple [entry.1, entry.2])) := by
  have each : ∀ entry ∈ slot.value.entries,
      pairM (asPy (.scalar keyScalar)) (asPy (.scalar valueScalar)) entry =
        some (keyScalar.toPy (keyOf entry), valueScalar.toPy (valueOf entry)) := by
    intro entry member
    obtain ⟨keyValid, valueValid⟩ := all entry member
    simp only [pairM, asPy_scalar keyValid, asPy_scalar valueValid]
    rfl
  rw [asPy_map valid, mapM_eq_map each]
  rfl

theorem jsGet_mapSlot (valid : slot.valid = true)
    (all : ∀ entry ∈ slot.value.entries, entry.1.valid = true ∧ entry.2.valid = true) :
    jsGet _ slot = some (.mapRow (slot.value.entries.map fun entry =>
      (keyScalar.toJs (keyScalar.decoded (keyOf entry)),
        valueScalar.toJs (valueScalar.decoded (valueOf entry))))) := by
  have each : ∀ entry ∈ slot.value.entries,
      pairM (jsGet (.scalar keyScalar)) (jsGet (.scalar valueScalar)) entry =
        some (keyScalar.toJs (keyScalar.decoded (keyOf entry)),
          valueScalar.toJs (valueScalar.decoded (valueOf entry))) := by
    intro entry member
    obtain ⟨keyValid, valueValid⟩ := all entry member
    simp only [pairM, jsGet_scalar keyValid, jsGet_scalar valueValid]
    rfl
  rw [jsGet_map valid, mapM_eq_map each]
  rfl

end Entries

/-! ## Fields -/

section Fields

variable [Libraries] [LawfulLibraries] {field : FieldDef} {nullable : Bool}
  {metadata : List (String × String)} {slot : Slot (Cell type)}

theorem rust_reads (isType : field.ty = ty) (supported : Supported ty) {value : ty.Value}
    (distinct : DistinctKeys ty value) (declared : type.erase = ty.wireType)
    (passes : Target.rust.PassesTensorCheck field metadata) (holds : Holds ty value type slot) :
    ∃ object, Target.rust.extractField field (fieldRow field type nullable metadata slot) = .ok object ∧
      Shows Target.rust.view ty value object := by
  cases supported with
  | leaf leaf =>
    obtain ⟨scalar, leaf⟩ := LaicType.exists_leafScalar leaf.isLeaf
    obtain rfl := type_of_leaf leaf declared
    obtain ⟨-, shows⟩ := leaf_of_holds Target.rust.view leaf holds
    exact ⟨_, rust_extract_leaf (isType ▸ leaf) slot passes, shows⟩
  | list leaf =>
    obtain ⟨scalar, leaf⟩ := LaicType.exists_leafScalar leaf.isLeaf
    obtain ⟨itemName, itemNullable, rfl⟩ := type_of_list leaf declared
    obtain ⟨-, each⟩ := items_of_holds holds
    refine ⟨_, rust_extract_list isType leaf slot passes, _, rfl, List.forall₂_map_right_iff.mpr ?_⟩
    exact each.imp fun value item held => (leaf_of_holds Target.rust.view leaf held).2
  | listOptional leaf =>
    obtain ⟨scalar, leaf⟩ := LaicType.exists_leafScalar leaf.isLeaf
    obtain ⟨itemName, itemNullable, rfl⟩ := type_of_list leaf declared
    obtain ⟨-, each⟩ := items_of_holds holds
    refine ⟨_, rust_extract_listOptional isType leaf slot, _, rfl, List.forall₂_map_right_iff.mpr ?_⟩
    refine each.imp fun value item held => ?_
    cases value with
    | none =>
      have null : item.valid = false := held
      simp only [null]
      rfl
    | some value =>
      obtain ⟨valid, shows⟩ := leaf_of_holds Target.rust.view leaf (holds_some held)
      simp only [valid]
      exact ⟨_, rfl, shows⟩
  | optional leaf =>
    obtain ⟨scalar, leaf⟩ := LaicType.exists_leafScalar leaf.isLeaf
    obtain rfl := type_of_leaf leaf declared
    refine ⟨_, rust_extract_optional isType leaf slot passes, ?_⟩
    cases value with
    | none =>
      have null : slot.valid = false := holds
      simp only [null]
      rfl
    | some value =>
      obtain ⟨valid, shows⟩ := leaf_of_holds Target.rust.view leaf (holds_some holds)
      simp only [valid]
      exact ⟨_, rfl, shows⟩
  | optionalList leaf =>
    obtain ⟨scalar, leaf⟩ := LaicType.exists_leafScalar leaf.isLeaf
    obtain ⟨itemName, itemNullable, rfl⟩ := type_of_list leaf declared
    refine ⟨_, rust_extract_optionalList isType leaf slot, ?_⟩
    cases value with
    | none =>
      have null : slot.valid = false := holds
      simp only [null]
      rfl
    | some items =>
      obtain ⟨valid, each⟩ := items_of_holds (holds_some holds)
      simp only [valid]
      refine ⟨_, rfl, _, rfl, List.forall₂_map_right_iff.mpr ?_⟩
      exact each.imp fun value item held => (leaf_of_holds Target.rust.view leaf held).2
  | map isKey isScalar =>
    obtain ⟨keyScalar, valueScalar, keyLeaf, valueLeaf⟩ := LaicType.exists_mapScalars isKey isScalar
    obtain ⟨layout, rfl⟩ := type_of_map keyLeaf valueLeaf declared
    obtain ⟨-, -, ⟨order, perm, held⟩, nodup⟩ := entries_of_holds keyLeaf valueLeaf holds
    refine ⟨_, rust_extract_map isType keyLeaf valueLeaf slot, ?_⟩
    have read := readMap_of_distinct (nodup distinct)
    refine ⟨_, congrArg Target.rust.view.entries read, order, perm, List.forall₂_map_right_iff.mpr ?_⟩
    exact held.imp fun v entry both =>
      ⟨(leaf_of_holds Target.rust.view keyLeaf both.1).2, (leaf_of_holds Target.rust.view valueLeaf both.2).2⟩

theorem python_reads (isType : field.ty = ty) (supported : Supported ty) {value : ty.Value}
    (distinct : DistinctKeys ty value) (declared : type.erase = ty.wireType)
    (passes : Target.python.PassesTensorCheck field metadata) (holds : Holds ty value type slot) :
    ∃ object, Target.python.extractField field (fieldRow field type nullable metadata slot) = .ok object ∧
      Shows Target.python.view ty value object := by
  cases supported with
  | leaf leaf =>
    obtain ⟨scalar, leaf⟩ := LaicType.exists_leafScalar leaf.isLeaf
    obtain rfl := type_of_leaf leaf declared
    obtain ⟨object, read, shows⟩ := asPy_shows_item (.leaf leaf) holds
    refine ⟨object, ?_, shows⟩
    by_cases isScalar : field.ty.isScalar = true
    · rw [python_extract_scalar isScalar, isType, pyarrowType_of_leaf leaf, if_pos rfl, read]
      rfl
    · cases ty with
      | string | bytes | bool | i8 | i16 | i32 | i64 | u8 | f32 | f64 => exact absurd (isType ▸ rfl) isScalar
      | list | optional | map => cases leaf
      | tensor dtype dims =>
        rw [python_extract_tensor isType passes, read]
        rfl
  | @list inner leaf =>
    obtain ⟨scalar, leaf⟩ := LaicType.exists_leafScalar leaf.isLeaf
    obtain ⟨itemName, itemNullable, rfl⟩ := type_of_list leaf declared
    obtain ⟨objects, items, read, shows⟩ := asPy_shows_list (.leaf leaf) holds
    refine ⟨.list objects, ?_, objects, rfl, shows⟩
    cases tensor : inner.tensorParams with
    | none =>
      rw [python_extract_list isType tensor, read]
      rfl
    | some params =>
      cases inner with
      | string | bytes | bool | i8 | i16 | i32 | i64 | u8 | f32 | f64 | list | optional | map => cases tensor
      | tensor dtype dims =>
        rw [python_extract_listTensor isType passes, pyListValues_list (items_of_holds holds).1, items]
        rfl
  | listOptional leaf =>
    obtain ⟨scalar, leaf⟩ := LaicType.exists_leafScalar leaf.isLeaf
    obtain ⟨itemName, itemNullable, rfl⟩ := type_of_list leaf declared
    obtain ⟨objects, -, read, shows⟩ := asPy_shows_list (.optional leaf) holds
    refine ⟨.list objects, ?_, objects, rfl, shows⟩
    rw [python_extract_list isType rfl, read]
    rfl
  | optional leaf =>
    obtain ⟨scalar, leaf⟩ := LaicType.exists_leafScalar leaf.isLeaf
    obtain rfl := type_of_leaf leaf declared
    have validity : pyIsValid _ slot = slot.valid := pyIsValid_eq rfl slot
    rw [python_extract_optional isType passes, validity]
    cases value with
    | none =>
      have null : slot.valid = false := holds
      exact ⟨.none, by simp [null], rfl⟩
    | some value =>
      obtain ⟨valid, shows⟩ := leaf_of_holds Target.python.view leaf (holds_some holds)
      refine ⟨scalar.toPy slot.value, ?_, scalar.toPy slot.value, python_optional_scalar scalar _, shows⟩
      rw [valid, if_pos rfl, asPy_scalar valid]
      rfl
  | optionalList leaf =>
    obtain ⟨scalar, leaf⟩ := LaicType.exists_leafScalar leaf.isLeaf
    obtain ⟨itemName, itemNullable, rfl⟩ := type_of_list leaf declared
    have validity : pyIsValid _ slot = slot.valid := pyIsValid_eq rfl slot
    rw [python_extract_optional isType passes, validity]
    cases value with
    | none =>
      have null : slot.valid = false := holds
      exact ⟨.none, by simp [null], rfl⟩
    | some items =>
      obtain ⟨objects, -, read, shows⟩ := asPy_shows_list (.leaf leaf) (holds_some holds)
      obtain ⟨valid, -⟩ := items_of_holds (holds_some holds)
      refine ⟨.list objects, ?_, .list objects, rfl, objects, rfl, shows⟩
      simp [valid, read]
  | map isKey isScalar =>
    obtain ⟨keyScalar, valueScalar, keyLeaf, valueLeaf⟩ := LaicType.exists_mapScalars isKey isScalar
    obtain ⟨layout, rfl⟩ := type_of_map keyLeaf valueLeaf declared
    obtain ⟨valid, all, ⟨order, perm, held⟩, nodup⟩ := entries_of_holds keyLeaf valueLeaf holds
    rw [python_extract_map_list isType (asPy_mapSlot valid all), pyDict_map isKey keyLeaf (nodup distinct)]
    refine ⟨_, rfl, _, rfl, order, perm, List.forall₂_map_right_iff.mpr ?_⟩
    exact held.imp fun v entry both => ⟨(leaf_of_holds Target.python.view keyLeaf both.1).2,
      (leaf_of_holds Target.python.view valueLeaf both.2).2⟩

theorem typescript_reads (isType : field.ty = ty) (supported : Supported ty) {value : ty.Value}
    (declared : type.erase = ty.wireType) (passes : Target.typescript.PassesTensorCheck field metadata)
    (holds : Holds ty value type slot) :
    ∃ object, Target.typescript.extractField field (fieldRow field type nullable metadata slot) = .ok object ∧
      Shows Target.typescript.view ty (ty.decoded value) object := by
  cases supported with
  | leaf leaf =>
    obtain ⟨scalar, leaf⟩ := LaicType.exists_leafScalar leaf.isLeaf
    obtain rfl := type_of_leaf leaf declared
    obtain ⟨object, read, shows⟩ := jsGet_shows_item (.leaf leaf) holds
    refine ⟨object, ?_, shows⟩
    by_cases isScalar : field.ty.isScalar = true
    · rw [ts_extract_scalar isScalar, isType, tsArrowDatatype_of_leaf leaf, if_pos rfl, read]
      rfl
    · cases ty with
      | string | bytes | bool | i8 | i16 | i32 | i64 | u8 | f32 | f64 => exact absurd (isType ▸ rfl) isScalar
      | list | optional | map => cases leaf
      | tensor dtype dims =>
        rw [ts_extract_tensor isType passes, read]
        rfl
  | list leaf =>
    obtain ⟨scalar, leaf⟩ := LaicType.exists_leafScalar leaf.isLeaf
    obtain ⟨itemName, itemNullable, rfl⟩ := type_of_list leaf declared
    obtain ⟨objects, read, shows⟩ := jsGet_shows_list (.leaf leaf) holds
    refine ⟨.array objects, ?_, objects, rfl, shows⟩
    rw [ts_extract_list isType passes, read]
    rfl
  | listOptional leaf =>
    obtain ⟨scalar, leaf⟩ := LaicType.exists_leafScalar leaf.isLeaf
    obtain ⟨itemName, itemNullable, rfl⟩ := type_of_list leaf declared
    obtain ⟨objects, read, shows⟩ := jsGet_shows_list (.optional leaf) holds
    refine ⟨.array objects, ?_, objects, rfl, shows⟩
    rw [ts_extract_list isType passes, read]
    rfl
  | optional leaf =>
    obtain ⟨scalar, leaf⟩ := LaicType.exists_leafScalar leaf.isLeaf
    obtain rfl := type_of_leaf leaf declared
    have validity : jsIsValid _ slot = slot.valid := jsIsValid_eq rfl slot
    rw [ts_extract_optional isType passes, validity]
    cases value with
    | none =>
      have null : slot.valid = false := holds
      exact ⟨.null, by simp [null], rfl⟩
    | some value =>
      obtain ⟨valid, -⟩ := leaf_of_holds Target.typescript.view leaf (holds_some holds)
      refine ⟨_, ?_, _, typescript_optional_scalar scalar _, leaf_of_holds_decoded leaf (holds_some holds)⟩
      rw [valid, if_pos rfl, jsGet_scalar valid]
      rfl
  | optionalList leaf =>
    obtain ⟨scalar, leaf⟩ := LaicType.exists_leafScalar leaf.isLeaf
    obtain ⟨itemName, itemNullable, rfl⟩ := type_of_list leaf declared
    have validity : jsIsValid _ slot = slot.valid := jsIsValid_eq rfl slot
    rw [ts_extract_optional isType passes, validity]
    cases value with
    | none =>
      have null : slot.valid = false := holds
      exact ⟨.null, by simp [null], rfl⟩
    | some items =>
      obtain ⟨objects, read, shows⟩ := jsGet_shows_list (.leaf leaf) (holds_some holds)
      obtain ⟨valid, -⟩ := items_of_holds (holds_some holds)
      refine ⟨.vector objects, ?_, .vector objects, rfl, objects, rfl, shows⟩
      simp [valid, read]
  | map isKey isScalar =>
    obtain ⟨keyScalar, valueScalar, keyLeaf, valueLeaf⟩ := LaicType.exists_mapScalars isKey isScalar
    obtain ⟨layout, rfl⟩ := type_of_map keyLeaf valueLeaf declared
    obtain ⟨valid, all, ⟨order, perm, held⟩, -⟩ := entries_of_holds keyLeaf valueLeaf holds
    rw [ts_extract_map isType, jsGet_mapSlot valid all]
    refine ⟨_, rfl, _, rfl, _, perm.map _, List.forall₂_map_left_iff.mpr (List.forall₂_map_right_iff.mpr ?_)⟩
    exact held.imp fun v entry both =>
      ⟨leaf_of_holds_decoded keyLeaf both.1, leaf_of_holds_decoded valueLeaf both.2⟩

/-- Every target reads an entry that holds a value of its field's type, TypeScript without
byte-order marks. -/
theorem Target.reads (target : Target) (isType : field.ty = ty) (supported : Supported ty) {value : ty.Value}
    (distinct : DistinctKeys ty value) (declared : type.erase = ty.wireType)
    (passes : target.PassesTensorCheck field metadata) (holds : Holds ty value type slot) :
    ∃ object, target.extractField field (fieldRow field type nullable metadata slot) = .ok object ∧
      Shows target.view ty (target.readsAs ty value) object := by
  cases target with
  | rust => exact rust_reads isType supported distinct declared passes holds
  | python => exact python_reads isType supported distinct declared passes holds
  | typescript => exact typescript_reads isType supported declared passes holds

end Fields

end Laic
