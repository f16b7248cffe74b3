import Laic.Codegen.Readers

/-! # Writing a value

From an object that shows a value of a field's type, the encoder of every target builds an entry
of the schema field it declares, with nulls only where that allows them, and the entry holds the
value. -/

namespace Laic

open Arrow

variable {field : FieldDef} {ty inner key value : LaicType} {scalar keyScalar valueScalar : Scalar}

/-! ## Schema fields -/

/-- The names and the nullability under the maps of a target. -/
def Target.mapLayout : Target → MapLayout
  | .rust => ⟨"entries", "keys", "values", false, true⟩
  | .python => ⟨"entries", "key", "value", false, true⟩
  | .typescript => ⟨"entries", "key", "value", false, false⟩

/-- Whether the items of a plain list may be null. -/
def Target.itemNullable : Target → Bool
  | .rust | .python => true
  | .typescript => false

theorem schemaField_leaf (target : Target) (leaf : field.ty.leafScalar = some scalar) :
    ∃ metadata, target.schemaField field = ⟨field.name, .scalar scalar, false, metadata⟩ := by
  obtain ⟨name, ty, default⟩ := field
  cases ty with
  | list | optional | map => cases leaf
  | string | bytes | bool | i8 | i16 | i32 | i64 | u8 | f32 | f64 | tensor =>
    cases leaf
    cases target <;> exact ⟨_, rfl⟩

theorem schemaField_list (target : Target) (isType : field.ty = .list inner)
    (leaf : inner.leafScalar = some scalar) :
    ∃ metadata, target.schemaField field =
      ⟨field.name, .list "item" target.itemNullable (.scalar scalar), false, metadata⟩ := by
  obtain ⟨name, ty, default⟩ := field
  cases isType
  cases inner with
  | list | optional | map => cases leaf
  | string | bytes | bool | i8 | i16 | i32 | i64 | u8 | f32 | f64 | tensor =>
    cases leaf
    cases target <;> exact ⟨_, rfl⟩

/-- Every target lets the items of a list be null where their type is optional. -/
theorem schemaField_listOptional (target : Target) (isType : field.ty = .list (.optional inner))
    (leaf : inner.leafScalar = some scalar) :
    target.schemaField field = ⟨field.name, .list "item" true (.scalar scalar), false, []⟩ := by
  obtain ⟨name, ty, default⟩ := field
  cases isType
  cases target with
  | rust => simp only [Target.schemaField, rustSchemaField, arrowDatatype, arrowDatatype_of_leaf leaf]; rfl
  | python => simp only [Target.schemaField, pythonSchemaField, pyarrowType, pyarrowType_of_leaf leaf]; rfl
  | typescript =>
    simp only [Target.schemaField, tsSchemaField, tsArrowDatatype, tsArrowDatatype_of_leaf leaf]; rfl

theorem schemaField_optional (target : Target) (isType : field.ty = .optional inner)
    (leaf : inner.leafScalar = some scalar) :
    ∃ metadata, target.schemaField field = ⟨field.name, .scalar scalar, true, metadata⟩ := by
  obtain ⟨name, ty, default⟩ := field
  cases isType
  cases inner with
  | list | optional | map => cases leaf
  | string | bytes | bool | i8 | i16 | i32 | i64 | u8 | f32 | f64 | tensor =>
    cases leaf
    cases target <;> exact ⟨_, rfl⟩

theorem schemaField_optionalList (target : Target) (isType : field.ty = .optional (.list inner))
    (leaf : inner.leafScalar = some scalar) :
    ∃ metadata, target.schemaField field =
      ⟨field.name, .list "item" target.itemNullable (.scalar scalar), true, metadata⟩ := by
  obtain ⟨name, ty, default⟩ := field
  cases isType
  cases inner with
  | list | optional | map => cases leaf
  | string | bytes | bool | i8 | i16 | i32 | i64 | u8 | f32 | f64 | tensor =>
    cases leaf
    cases target <;> exact ⟨_, rfl⟩

theorem schemaField_map (target : Target) (isType : field.ty = .map key value)
    (keyLeaf : key.leafScalar = some keyScalar) (valueLeaf : value.leafScalar = some valueScalar) :
    target.schemaField field =
      ⟨field.name, .map target.mapLayout false (.scalar keyScalar) (.scalar valueScalar), false, []⟩ := by
  obtain ⟨name, ty, default⟩ := field
  cases isType
  cases target with
  | rust =>
    simp only [Target.schemaField, rustSchemaField, arrowDatatype, arrowDatatype_of_leaf keyLeaf,
      arrowDatatype_of_leaf valueLeaf]
    rfl
  | python =>
    simp only [Target.schemaField, pythonSchemaField, pyarrowType, pyarrowType_of_leaf keyLeaf,
      pyarrowType_of_leaf valueLeaf]
    rfl
  | typescript =>
    simp only [Target.schemaField, tsSchemaField, tsArrowDatatype, tsArrowDatatype_of_leaf keyLeaf,
      tsArrowDatatype_of_leaf valueLeaf]
    rfl

/-! ## Nulls -/

theorem nullsAllowed_null {type : DataType} {slot : Slot (Cell type)} (null : slot.valid = false) :
    NullsAllowed type true slot := by
  cases type with
  | scalar | other => exact .inl rfl
  | list | map => exact ⟨.inl rfl, fun valid => absurd (null.symm.trans valid) Bool.false_ne_true⟩

theorem nullsAllowed_list {itemName : String} {itemNullable nullable : Bool} {items : List inner.Value}
    {slot : Slot (Cell (.list itemName itemNullable (.scalar scalar)))}
    (isItem : inner.leafScalar = some scalar ∨ itemNullable = true)
    (holds : Holds (.list inner) items _ slot) : NullsAllowed _ nullable slot := by
  obtain ⟨valid, each⟩ := items_of_holds holds
  refine ⟨.inr valid, fun _ => ?_⟩
  obtain leaf | itemsNullable := isItem
  · intro item member
    obtain ⟨value, held⟩ := exists_of_forall₂ each member
    exact .inr (leaf_of_holds Target.rust.view leaf held).1
  · exact fun _ _ => .inl itemsNullable

theorem nullsAllowed_map {layout : MapLayout} {keysSorted nullable : Bool}
    {entries : List (key.Value × value.Value)} (keyLeaf : key.leafScalar = some keyScalar)
    (valueLeaf : value.leafScalar = some valueScalar)
    {slot : Slot (Cell (.map layout keysSorted (.scalar keyScalar) (.scalar valueScalar)))}
    (holds : Holds (.map key value) entries _ slot) : NullsAllowed _ nullable slot := by
  obtain ⟨valid, all, -⟩ := entries_of_holds keyLeaf valueLeaf holds
  exact ⟨.inr valid, fun _ entry member => ⟨.inr (all entry member).1, .inr (all entry member).2⟩⟩

/-- The object of a leaf is the one its scalar is shown as, and a slot filled with it holds the value. -/
theorem holds_of_shows {host : Type} {view : HostView host} (leaf : ty.leafScalar = some scalar)
    {value : ty.Value} {object : host} (shows : Shows view ty value object) :
    ∃ content : scalar.Value, object = view.scalar scalar content ∧
      Holds ty value (.scalar scalar) (Slot.full content) :=
  ⟨_, (shows_leaf view leaf value object).mp shows, (holds_leaf_iff leaf).mpr rfl⟩

/-! ## Rust -/

section Rust

variable {expr : ColumnExpr} {nullable : Bool} {metadata : List (String × String)}

/-- The entry of a slot of the declared type; a null is let through where the field is nullable. -/
theorem rustEntry_of_build {object : RustValue} {slot : Slot (Cell expr.dataType)}
    (declared : rustSchemaField field = ⟨field.name, expr.dataType, nullable, metadata⟩)
    (built : expr.build object = some slot) (allowed : slot.valid = true ∨ nullable = true) :
    rustEntry (field, expr) object = some ⟨⟨field.name, expr.dataType, nullable, metadata⟩, slot⟩ := by
  have made := Entry.ofSlot_self ⟨field.name, expr.dataType, nullable, metadata⟩ slot
  simp only [rustEntry, built, declared, made, Option.bind_eq_bind, Option.bind_some]
  rw [if_pos (by simpa using allowed)]

theorem asScalar_items (leaf : inner.leafScalar = some scalar) {items : List inner.Value}
    {objects : List RustValue} (shows : List.Forall₂ (Shows Target.rust.view inner) items objects) :
    ∃ contents, objects.mapM (RustValue.asScalar scalar) = some contents ∧
      List.Forall₂ (fun value slot => Holds inner value (.scalar scalar) slot) items
        (contents.map Slot.full) := by
  obtain ⟨contents, read, holds⟩ := exists_mapM_of_forall₂
    (S := fun value content => Holds inner value (.scalar scalar) (Slot.full (content : scalar.Value)))
    (fun value object shown => by
      obtain ⟨content, rfl, held⟩ := holds_of_shows leaf shown
      exact ⟨content, RustValue.asScalar_self scalar content, held⟩) shows
  exact ⟨contents, read, List.forall₂_map_right_iff.mpr holds⟩

theorem asScalar_entries (keyLeaf : key.leafScalar = some keyScalar)
    (valueLeaf : value.leafScalar = some valueScalar) {order : List (key.Value × value.Value)}
    {objects : List (RustValue × RustValue)}
    (shows : List.Forall₂ (fun v object => Shows Target.rust.view key v.1 object.1 ∧
      Shows Target.rust.view value v.2 object.2) order objects) :
    ∃ contents, objects.mapM (pairM (RustValue.asScalar keyScalar) (RustValue.asScalar valueScalar)) =
        some contents ∧
      List.Forall₂ (fun v slot => Holds key v.1 (.scalar keyScalar) slot.1 ∧
          Holds value v.2 (.scalar valueScalar) slot.2) order
        (contents.map fun entry => (Slot.full entry.1, Slot.full entry.2)) := by
  obtain ⟨contents, read, holds⟩ := exists_mapM_of_forall₂
    (f := pairM (RustValue.asScalar keyScalar) (RustValue.asScalar valueScalar))
    (S := fun (v : key.Value × value.Value) (content : keyScalar.Value × valueScalar.Value) =>
      Holds key v.1 (.scalar keyScalar) (Slot.full content.1) ∧
        Holds value v.2 (.scalar valueScalar) (Slot.full content.2))
    (fun v object shown => by
      obtain ⟨keyObject, valueObject⟩ := object
      obtain ⟨keyContent, rfl, keyHeld⟩ := holds_of_shows keyLeaf shown.1
      obtain ⟨valueContent, rfl, valueHeld⟩ := holds_of_shows valueLeaf shown.2
      refine ⟨(keyContent, valueContent), ?_, keyHeld, valueHeld⟩
      simp [pairM, Target.view]) shows
  exact ⟨contents, read, List.forall₂_map_right_iff.mpr holds⟩

theorem rust_items {items : List inner.Value} {object : RustValue}
    (shows : Shows Target.rust.view (.list inner) items object) :
    ∃ objects, object = .vec objects ∧ List.Forall₂ (Shows Target.rust.view inner) items objects := by
  obtain ⟨objects, found, shown⟩ := shows
  cases object with
  | scalar | option | map => cases found
  | vec =>
    cases found
    exact ⟨objects, rfl, shown⟩

theorem rust_option {option : Option inner.Value} {object : RustValue}
    (shows : Shows Target.rust.view (.optional inner) option object) :
    option = none ∧ object = .option none ∨
      ∃ value inside, option = some value ∧ object = .option (some inside) ∧
        Shows Target.rust.view inner value inside := by
  cases option with
  | none =>
    have found : Target.rust.view.optional object = some none := shows
    cases object with
    | scalar | vec | map => cases found
    | option =>
      cases found
      exact .inl ⟨rfl, rfl⟩
  | some value =>
    obtain ⟨inside, found, shown⟩ := shows
    cases object with
    | scalar | vec | map => cases found
    | option =>
      cases found
      exact .inr ⟨value, inside, rfl, rfl, shown⟩

/-- The slot of a list whose items are not null. -/
def fullItems (contents : List scalar.Value) : Slot (Cell (.list "item" true (.scalar scalar))) :=
  ⟨true, contents.map Slot.full⟩

/-- The slot of a map whose entries are not null. -/
def fullEntries (contents : List (keyScalar.Value × valueScalar.Value)) :
    Slot (Cell (.map Target.rust.mapLayout false (.scalar keyScalar) (.scalar valueScalar))) :=
  ⟨true, contents.map fun entry => (Slot.full entry.1, Slot.full entry.2)⟩

theorem build_array (access : Access) (content : scalar.Value) :
    (ColumnExpr.array scalar access).build (.scalar scalar content) = some (Slot.full content) :=
  congrArg (Option.map Slot.full) (RustValue.asScalar_self scalar content)

theorem build_array_option (access : Access) (content : scalar.Value) :
    (ColumnExpr.array scalar access).build (.option (some (.scalar scalar content))) =
      some (Slot.full content) :=
  congrArg (Option.map Slot.full) (RustValue.asScalar_self scalar content)

theorem build_list (deref : Bool) {objects : List RustValue} {contents : List scalar.Value}
    (read : objects.mapM (RustValue.asScalar scalar) = some contents) :
    (ColumnExpr.list scalar deref).build (.vec objects) = some (fullItems contents) :=
  congrArg (Option.map fullItems) read

theorem build_optionalList (deref : Bool) {objects : List RustValue} {contents : List scalar.Value}
    (read : objects.mapM (RustValue.asScalar scalar) = some contents) :
    (ColumnExpr.optionalList scalar deref).build (.option (some (.vec objects))) =
      some (fullItems contents) :=
  congrArg (Option.map fullItems) read

theorem build_map (keyDeref valueDeref : Bool) {objects : List (RustValue × RustValue)}
    {contents : List (keyScalar.Value × valueScalar.Value)}
    (read : objects.mapM (pairM (RustValue.asScalar keyScalar) (RustValue.asScalar valueScalar)) =
      some contents) :
    (ColumnExpr.map keyScalar valueScalar keyDeref valueDeref).build (.map objects) =
      some (fullEntries contents) :=
  congrArg (Option.map fullEntries) read

/-- What is emitted for a field builds an entry of its schema field that holds the value. -/
theorem rust_writes (isType : field.ty = ty) (supported : Supported ty)
    (emitted : emitToArrowColumn ty = .ok expr) {value : ty.Value} {object : RustValue}
    (shows : Shows Target.rust.view ty value object) :
    ∃ entry, rustEntry (field, expr) object = some entry ∧ entry.field = rustSchemaField field ∧
      Holds ty value entry.field.type entry.slot ∧
      NullsAllowed entry.field.type entry.field.nullable entry.slot := by
  cases supported with
  | leaf leaf =>
    obtain ⟨scalar, leaf⟩ := LaicType.exists_leafScalar leaf.isLeaf
    obtain ⟨metadata, declared⟩ := schemaField_leaf .rust (isType ▸ leaf)
    obtain ⟨access, named, -⟩ := emitToArrowColumn_of_leaf leaf
    cases named.symm.trans emitted
    obtain ⟨content, rfl, holds⟩ := holds_of_shows leaf shows
    exact ⟨_, rustEntry_of_build declared (build_array access content) (.inl rfl), declared.symm, holds,
      .inr rfl⟩
  | @list inner leaf =>
    obtain ⟨scalar, leaf⟩ := LaicType.exists_leafScalar leaf.isLeaf
    obtain ⟨metadata, declared⟩ := schemaField_list .rust isType leaf
    obtain ⟨deref, named, -⟩ := emitListColumn_of_leaf leaf
    cases named.symm.trans emitted
    obtain ⟨objects, rfl, shown⟩ := rust_items shows
    obtain ⟨contents, read, held⟩ := asScalar_items leaf shown
    have holds : Holds (.list inner) value _ (fullItems contents) := ⟨rfl, held⟩
    exact ⟨_, rustEntry_of_build declared (build_list deref read) (.inl rfl), declared.symm, holds,
      nullsAllowed_list (.inr rfl) holds⟩
  | listOptional leaf => cases emitted
  | @optional inner leaf =>
    obtain ⟨scalar, leaf⟩ := LaicType.exists_leafScalar leaf.isLeaf
    obtain ⟨metadata, declared⟩ := schemaField_optional .rust isType leaf
    obtain ⟨access, named, -⟩ := emitOptionalColumn_of_leaf leaf
    cases named.symm.trans emitted
    obtain ⟨rfl, rfl⟩ | ⟨value, inside, rfl, rfl, shown⟩ := rust_option shows
    · refine ⟨_, rustEntry_of_build declared rfl (.inr rfl), declared.symm, rfl, .inl rfl⟩
    · obtain ⟨content, rfl, holds⟩ := holds_of_shows leaf shown
      exact ⟨_, rustEntry_of_build declared (build_array_option access content) (.inl rfl), declared.symm,
        holds, .inl rfl⟩
  | @optionalList inner leaf =>
    obtain ⟨scalar, leaf⟩ := LaicType.exists_leafScalar leaf.isLeaf
    obtain ⟨metadata, declared⟩ := schemaField_optionalList .rust isType leaf
    obtain ⟨deref, named, -⟩ := emitOptionalColumn_list leaf
    cases named.symm.trans emitted
    obtain ⟨rfl, rfl⟩ | ⟨items, inside, rfl, rfl, shown⟩ := rust_option shows
    · exact ⟨_, rustEntry_of_build declared rfl (.inr rfl), declared.symm, rfl, nullsAllowed_null rfl⟩
    · obtain ⟨objects, rfl, each⟩ := rust_items shown
      obtain ⟨contents, read, held⟩ := asScalar_items leaf each
      have holds : Holds (.list inner) items _ (fullItems contents) := ⟨rfl, held⟩
      exact ⟨_, rustEntry_of_build declared (build_optionalList deref read) (.inl rfl), declared.symm, holds,
        nullsAllowed_list (.inr rfl) holds⟩
  | @map key valueType isKey isScalar =>
    have keyIs := LaicType.isScalar_of_isMapKey isKey
    obtain ⟨keyScalar, valueScalar, keyLeaf, valueLeaf⟩ := LaicType.exists_mapScalars isKey isScalar
    have declared := schemaField_map .rust isType keyLeaf valueLeaf
    obtain ⟨keyDeref, valueDeref, named, -⟩ := emitMapColumn_of_scalar keyIs isScalar keyLeaf valueLeaf
    cases named.symm.trans emitted
    obtain ⟨objects, found, order, perm, shown⟩ := shows
    cases object with
    | scalar | vec | option => cases found
    | map entries =>
      cases found
      obtain ⟨contents, read, held⟩ := asScalar_entries keyLeaf valueLeaf shown
      have holds : Holds (.map key valueType) value _ (fullEntries contents) := ⟨rfl, order, perm, held⟩
      exact ⟨_, rustEntry_of_build declared (build_map keyDeref valueDeref read) (.inl rfl), declared.symm,
        holds, nullsAllowed_map keyLeaf valueLeaf holds⟩

end Rust

/-! ## Python -/

section Python

variable {type : DataType} {nullable : Bool} {metadata : List (String × String)}

theorem pythonEntry_of_build [Libraries] {object built : PyValue} {slot : Slot (Cell type)}
    (declared : pythonSchemaField field = ⟨field.name, type, nullable, metadata⟩)
    (goesIn : pydictValue field.ty object = some built) (builds : pyBuild type built = some slot) :
    pythonEntry field object = some ⟨⟨field.name, type, nullable, metadata⟩, slot⟩ := by
  simp only [pythonEntry, pythonColumn, goesIn, Option.bind_eq_bind, Option.bind_some]
  rw [declared, builds]
  rfl

theorem python_optional {option : Option inner.Value} {object : PyValue}
    (shows : Shows Target.python.view (.optional inner) option object) :
    option = none ∧ object = .none ∨
      ∃ value, option = some value ∧ Shows Target.python.view inner value object := by
  cases option with
  | none =>
    have found : Target.python.view.optional object = some none := shows
    cases object with
    | none => exact .inl ⟨rfl, rfl⟩
    | bool | int | float | str | bytes | list | tuple | dict | object => cases found
  | some value =>
    obtain ⟨inside, found, shown⟩ := shows
    cases object with
    | none => cases found
    | bool | int | float | str | bytes | list | tuple | dict | object =>
      cases found
      exact .inr ⟨value, rfl, shown⟩

theorem python_items {items : List inner.Value} {object : PyValue}
    (shows : Shows Target.python.view (.list inner) items object) :
    ∃ objects, object = .list objects ∧ List.Forall₂ (Shows Target.python.view inner) items objects := by
  obtain ⟨objects, found, shown⟩ := shows
  cases object with
  | none | bool | int | float | str | bytes | tuple | dict | object => cases found
  | list =>
    cases found
    exact ⟨objects, rfl, shown⟩

variable [Libraries] [LawfulLibraries]

theorem pyBuild_shownItem (isItem : ItemOf ty scalar) {value : ty.Value} {object : PyValue}
    (shows : Shows Target.python.view ty value object) :
    ∃ slot, pyBuild (.scalar scalar) object = some slot ∧ Holds ty value (.scalar scalar) slot := by
  cases isItem with
  | leaf leaf =>
    obtain ⟨content, rfl, holds⟩ := holds_of_shows leaf shows
    exact ⟨_, pyBuild_scalar scalar content, holds⟩
  | optional leaf =>
    obtain ⟨rfl, rfl⟩ | ⟨value, rfl, shown⟩ := python_optional shows
    · obtain ⟨_, built⟩ := @pyBuild_none _ _ (.scalar scalar) rfl
      exact ⟨_, built, rfl⟩
    · obtain ⟨content, rfl, holds⟩ := holds_of_shows leaf shown
      exact ⟨_, pyBuild_scalar scalar content, holds⟩

theorem pyBuild_shownList (isItem : ItemOf inner scalar) {items : List inner.Value} {object : PyValue}
    (itemName : String) (itemNullable : Bool) (shows : Shows Target.python.view (.list inner) items object) :
    ∃ slot, pyBuild (.list itemName itemNullable (.scalar scalar)) object = some slot ∧
      Holds (.list inner) items _ slot := by
  obtain ⟨objects, rfl, shown⟩ := python_items shows
  obtain ⟨slots, built, holds⟩ := exists_mapM_of_forall₂ (fun _ _ each => pyBuild_shownItem isItem each) shown
  exact ⟨⟨true, slots⟩, pyBuild_list built, rfl, holds⟩

theorem pyBuild_shownMap (keyLeaf : key.leafScalar = some keyScalar)
    (valueLeaf : value.leafScalar = some valueScalar) (layout : MapLayout)
    {entries : List (key.Value × value.Value)} {objects : List (PyValue × PyValue)}
    (shows : Shows Target.python.view (.map key value) entries (.dict objects)) :
    ∃ slot, pyBuild (.map layout false (.scalar keyScalar) (.scalar valueScalar))
        (.list (objects.map fun entry => .tuple [entry.1, entry.2])) = some slot ∧
      Holds (.map key value) entries _ slot := by
  obtain ⟨_, found, order, perm, shown⟩ := shows
  cases found
  obtain ⟨slots, built, holds⟩ := exists_mapM_of_forall₂
    (f := pairM (pyBuild (.scalar keyScalar)) (pyBuild (.scalar valueScalar)))
    (S := fun (v : key.Value × value.Value) slot =>
      Holds key v.1 (.scalar keyScalar) slot.1 ∧ Holds value v.2 (.scalar valueScalar) slot.2)
    (fun v object shown => by
      obtain ⟨keySlot, keyBuilt, keyHeld⟩ := pyBuild_shownItem (.leaf keyLeaf) shown.1
      obtain ⟨valueSlot, valueBuilt, valueHeld⟩ := pyBuild_shownItem (.leaf valueLeaf) shown.2
      refine ⟨(keySlot, valueSlot), ?_, keyHeld, valueHeld⟩
      simp [pairM, keyBuilt, valueBuilt]) shown
  have keysValid : ∀ entry ∈ slots, entry.1.valid = true := by
    intro slot member
    obtain ⟨v, held⟩ := exists_of_forall₂ holds member
    exact (leaf_of_holds Target.python.view keyLeaf held.1).1
  exact ⟨⟨true, slots⟩, pyBuild_map built keysValid, rfl, order, perm, holds⟩

theorem python_writes (isType : field.ty = ty) (supported : Supported ty) {value : ty.Value}
    {object : PyValue} (shows : Shows Target.python.view ty value object) :
    ∃ entry, pythonEntry field object = some entry ∧ entry.field = pythonSchemaField field ∧
      Holds ty value entry.field.type entry.slot ∧
      NullsAllowed entry.field.type entry.field.nullable entry.slot := by
  cases supported with
  | leaf leaf =>
    obtain ⟨scalar, leaf⟩ := LaicType.exists_leafScalar leaf.isLeaf
    obtain ⟨metadata, declared⟩ := schemaField_leaf .python (isType ▸ leaf)
    obtain ⟨slot, builds, holds⟩ := pyBuild_shownItem (.leaf leaf) shows
    have goesIn : pydictValue field.ty object = some object := by
      cases ty with
      | list | optional | map => cases leaf
      | string | bytes | bool | i8 | i16 | i32 | i64 | u8 | f32 | f64 | tensor => simp only [isType, pydictValue]
    exact ⟨_, pythonEntry_of_build declared goesIn builds, declared.symm, holds,
      .inr (leaf_of_holds Target.python.view leaf holds).1⟩
  | list leaf =>
    obtain ⟨scalar, leaf⟩ := LaicType.exists_leafScalar leaf.isLeaf
    obtain ⟨metadata, declared⟩ := schemaField_list .python isType leaf
    obtain ⟨slot, builds, holds⟩ := pyBuild_shownList (.leaf leaf) "item" true shows
    exact ⟨_, pythonEntry_of_build declared (by simp only [isType, pydictValue]) builds, declared.symm, holds,
      nullsAllowed_list (.inr rfl) holds⟩
  | listOptional leaf =>
    obtain ⟨scalar, leaf⟩ := LaicType.exists_leafScalar leaf.isLeaf
    have declared := schemaField_listOptional .python isType leaf
    obtain ⟨slot, builds, holds⟩ := pyBuild_shownList (.optional leaf) "item" true shows
    exact ⟨_, pythonEntry_of_build declared (by simp only [isType, pydictValue]) builds, declared.symm, holds,
      nullsAllowed_list (.inr rfl) holds⟩
  | optional leaf =>
    obtain ⟨scalar, leaf⟩ := LaicType.exists_leafScalar leaf.isLeaf
    obtain ⟨metadata, declared⟩ := schemaField_optional .python isType leaf
    obtain ⟨slot, builds, holds⟩ := pyBuild_shownItem (.optional leaf) shows
    exact ⟨_, pythonEntry_of_build declared (by simp only [isType, pydictValue]) builds, declared.symm, holds,
      .inl rfl⟩
  | optionalList leaf =>
    obtain ⟨scalar, leaf⟩ := LaicType.exists_leafScalar leaf.isLeaf
    obtain ⟨metadata, declared⟩ := schemaField_optionalList .python isType leaf
    have goesIn : pydictValue field.ty object = some object := by simp only [isType, pydictValue]
    obtain ⟨rfl, rfl⟩ | ⟨items, rfl, shown⟩ := python_optional shows
    · obtain ⟨_, built⟩ := @pyBuild_none _ _ (.list "item" Target.python.itemNullable (.scalar scalar)) rfl
      exact ⟨_, pythonEntry_of_build declared goesIn built, declared.symm, rfl, nullsAllowed_null rfl⟩
    · obtain ⟨slot, builds, holds⟩ := pyBuild_shownList (.leaf leaf) "item" true shown
      exact ⟨_, pythonEntry_of_build declared goesIn builds, declared.symm, holds,
        nullsAllowed_list (.inr rfl) holds⟩
  | map isKey isScalar =>
    obtain ⟨keyScalar, valueScalar, keyLeaf, valueLeaf⟩ := LaicType.exists_mapScalars isKey isScalar
    have declared := schemaField_map .python isType keyLeaf valueLeaf
    obtain ⟨objects, found, -⟩ := id shows
    cases object with
    | none | bool | int | float | str | bytes | list | tuple | object => cases found
    | dict =>
      obtain ⟨slot, builds, holds⟩ := pyBuild_shownMap keyLeaf valueLeaf Target.python.mapLayout shows
      exact ⟨_, pythonEntry_of_build declared (by simp only [isType, pydictValue]) builds, declared.symm, holds,
        nullsAllowed_map keyLeaf valueLeaf holds⟩

end Python

/-! ## TypeScript -/

section TypeScript

variable {type : DataType} {nullable : Bool} {metadata : List (String × String)}

theorem tsEntry_of_build [Libraries] {object : JsValue} {slot : Slot (Cell type)}
    (declared : tsSchemaField field = ⟨field.name, type, nullable, metadata⟩)
    (builds : jsBuild type object = some slot) :
    tsEntry field object = some ⟨⟨field.name, type, nullable, metadata⟩, slot⟩ := by
  simp only [tsEntry, tsColumn]
  rw [declared, builds]
  rfl

theorem typescript_optional {option : Option inner.Value} {object : JsValue}
    (shows : Shows Target.typescript.argument (.optional inner) option object) :
    option = none ∧ object = .null ∨
      ∃ value, option = some value ∧ Shows Target.typescript.argument inner value object := by
  cases option with
  | none =>
    have found : Target.typescript.argument.optional object = some none := shows
    cases object with
    | null => exact .inl ⟨rfl, rfl⟩
    | boolean | number | bigint | string | uint8Array | array | vector | map | mapRow | object => cases found
  | some value =>
    obtain ⟨inside, found, shown⟩ := shows
    cases object with
    | null => cases found
    | boolean | number | bigint | string | uint8Array | array | vector | map | mapRow | object =>
      cases found
      exact .inr ⟨value, rfl, shown⟩

theorem typescript_items {items : List inner.Value} {object : JsValue}
    (shows : Shows Target.typescript.argument (.list inner) items object) :
    ∃ objects, object = .array objects ∧
      List.Forall₂ (Shows Target.typescript.argument inner) items objects := by
  obtain ⟨objects, found, shown⟩ := shows
  cases object with
  | null | boolean | number | bigint | string | uint8Array | vector | map | mapRow | object => cases found
  | array =>
    cases found
    exact ⟨objects, rfl, shown⟩

variable [Libraries] [LawfulLibraries]

theorem jsBuild_shownItem (isItem : ItemOf ty scalar) {value : ty.Value} {object : JsValue}
    (shows : Shows Target.typescript.argument ty value object) :
    ∃ slot, jsBuild (.scalar scalar) object = some slot ∧ Holds ty value (.scalar scalar) slot := by
  cases isItem with
  | leaf leaf =>
    obtain ⟨content, rfl, holds⟩ := holds_of_shows leaf shows
    exact ⟨_, jsBuild_scalar scalar content, holds⟩
  | optional leaf =>
    obtain ⟨rfl, rfl⟩ | ⟨value, rfl, shown⟩ := typescript_optional shows
    · obtain ⟨_, built⟩ := @jsBuild_null _ _ (.scalar scalar) rfl
      exact ⟨_, built, rfl⟩
    · obtain ⟨content, rfl, holds⟩ := holds_of_shows leaf shown
      exact ⟨_, jsBuild_scalar scalar content, holds⟩

theorem jsBuild_shownList (isItem : ItemOf inner scalar) {items : List inner.Value} {object : JsValue}
    (itemName : String) (itemNullable : Bool)
    (shows : Shows Target.typescript.argument (.list inner) items object) :
    ∃ slot, jsBuild (.list itemName itemNullable (.scalar scalar)) object = some slot ∧
      Holds (.list inner) items _ slot := by
  obtain ⟨objects, rfl, shown⟩ := typescript_items shows
  obtain ⟨slots, built, holds⟩ :=
    exists_mapM_of_forall₂ (fun _ _ each => jsBuild_shownItem isItem each) shown
  exact ⟨⟨true, slots⟩, jsBuild_list built, rfl, holds⟩

theorem jsBuild_shownMap (keyLeaf : key.leafScalar = some keyScalar)
    (valueLeaf : value.leafScalar = some valueScalar) (layout : MapLayout)
    {entries : List (key.Value × value.Value)} {objects : List (JsValue × JsValue)}
    (shows : Shows Target.typescript.argument (.map key value) entries (.map objects)) :
    ∃ slot, jsBuild (.map layout false (.scalar keyScalar) (.scalar valueScalar)) (.map objects) = some slot ∧
      Holds (.map key value) entries _ slot := by
  obtain ⟨_, found, order, perm, shown⟩ := shows
  cases found
  obtain ⟨slots, built, holds⟩ := exists_mapM_of_forall₂
    (f := pairM (jsBuild (.scalar keyScalar)) (jsBuild (.scalar valueScalar)))
    (S := fun (v : key.Value × value.Value) slot =>
      Holds key v.1 (.scalar keyScalar) slot.1 ∧ Holds value v.2 (.scalar valueScalar) slot.2)
    (fun v object shown => by
      obtain ⟨keySlot, keyBuilt, keyHeld⟩ := jsBuild_shownItem (.leaf keyLeaf) shown.1
      obtain ⟨valueSlot, valueBuilt, valueHeld⟩ := jsBuild_shownItem (.leaf valueLeaf) shown.2
      refine ⟨(keySlot, valueSlot), ?_, keyHeld, valueHeld⟩
      simp [pairM, keyBuilt, valueBuilt]) shown
  exact ⟨⟨true, slots⟩, jsBuild_map built, rfl, order, perm, holds⟩

theorem typescript_writes (isType : field.ty = ty) (supported : Supported ty) {value : ty.Value}
    {object : JsValue} (shows : Shows Target.typescript.argument ty value object) :
    ∃ entry, tsEntry field object = some entry ∧ entry.field = tsSchemaField field ∧
      Holds ty value entry.field.type entry.slot ∧
      NullsAllowed entry.field.type entry.field.nullable entry.slot := by
  cases supported with
  | leaf leaf =>
    obtain ⟨scalar, leaf⟩ := LaicType.exists_leafScalar leaf.isLeaf
    obtain ⟨metadata, declared⟩ := schemaField_leaf .typescript (isType ▸ leaf)
    obtain ⟨slot, builds, holds⟩ := jsBuild_shownItem (.leaf leaf) shows
    exact ⟨_, tsEntry_of_build declared builds, declared.symm, holds,
      .inr (leaf_of_holds Target.typescript.argument leaf holds).1⟩
  | list leaf =>
    obtain ⟨scalar, leaf⟩ := LaicType.exists_leafScalar leaf.isLeaf
    obtain ⟨metadata, declared⟩ := schemaField_list .typescript isType leaf
    obtain ⟨slot, builds, holds⟩ := jsBuild_shownList (.leaf leaf) "item" false shows
    -- the items of a plain list may not be null here, and none is
    exact ⟨_, tsEntry_of_build declared builds, declared.symm, holds, nullsAllowed_list (.inl leaf) holds⟩
  | listOptional leaf =>
    obtain ⟨scalar, leaf⟩ := LaicType.exists_leafScalar leaf.isLeaf
    have declared := schemaField_listOptional .typescript isType leaf
    obtain ⟨slot, builds, holds⟩ := jsBuild_shownList (.optional leaf) "item" true shows
    exact ⟨_, tsEntry_of_build declared builds, declared.symm, holds, nullsAllowed_list (.inr rfl) holds⟩
  | optional leaf =>
    obtain ⟨scalar, leaf⟩ := LaicType.exists_leafScalar leaf.isLeaf
    obtain ⟨metadata, declared⟩ := schemaField_optional .typescript isType leaf
    obtain ⟨slot, builds, holds⟩ := jsBuild_shownItem (.optional leaf) shows
    exact ⟨_, tsEntry_of_build declared builds, declared.symm, holds, .inl rfl⟩
  | optionalList leaf =>
    obtain ⟨scalar, leaf⟩ := LaicType.exists_leafScalar leaf.isLeaf
    obtain ⟨metadata, declared⟩ := schemaField_optionalList .typescript isType leaf
    obtain ⟨rfl, rfl⟩ | ⟨items, rfl, shown⟩ := typescript_optional shows
    · obtain ⟨_, built⟩ := @jsBuild_null _ _ (.list "item" Target.typescript.itemNullable (.scalar scalar)) rfl
      exact ⟨_, tsEntry_of_build declared built, declared.symm, rfl, nullsAllowed_null rfl⟩
    · obtain ⟨slot, builds, holds⟩ := jsBuild_shownList (.leaf leaf) "item" false shown
      exact ⟨_, tsEntry_of_build declared builds, declared.symm, holds, nullsAllowed_list (.inl leaf) holds⟩
  | map isKey isScalar =>
    obtain ⟨keyScalar, valueScalar, keyLeaf, valueLeaf⟩ := LaicType.exists_mapScalars isKey isScalar
    have declared := schemaField_map .typescript isType keyLeaf valueLeaf
    obtain ⟨objects, found, -⟩ := id shows
    cases object with
    | null | boolean | number | bigint | string | uint8Array | array | vector | mapRow | object => cases found
    | map =>
      obtain ⟨slot, builds, holds⟩ := jsBuild_shownMap keyLeaf valueLeaf Target.typescript.mapLayout shows
      exact ⟨_, tsEntry_of_build declared builds, declared.symm, holds,
        nullsAllowed_map keyLeaf valueLeaf holds⟩

end TypeScript

end Laic
