import Laic.Codegen.Programs
import Laic.Codegen.Writers
import Laic.Lib.ArrowReference

/-! # Records across languages

A record that one target encodes and another decodes: the stream has the schema that the encoder
declares, every decoder takes the metadata and the data types of every encoder, and the values
come back, but for the byte-order marks that TypeScript drops from strings.  What is left is
whether the code of both sides compiles. -/

namespace Laic

open Arrow

/-! ## Every decoder takes every encoder's schema fields -/

theorem schemaField_name (target : Target) (field : FieldDef) :
    (target.schemaField field).name = field.name := by
  cases target with
  | rust => simp only [Target.schemaField, rustSchemaField]; split <;> rfl
  | python => simp only [Target.schemaField, pythonSchemaField]; split <;> rfl
  | typescript => simp only [Target.schemaField, tsSchemaField]; split <;> rfl

/-- The data types of the three languages differ in the names and the nullability of children only. -/
theorem erase_schemaField (target : Target) (field : FieldDef) :
    (target.schemaField field).type.erase = field.ty.wireType := by
  cases target with
  | rust =>
    simp only [Target.schemaField, rustSchemaField]
    split
    next ty => rw [ty]; rfl
    next ty => rw [ty]; rfl
    next ty => rw [ty]; rfl
    next => exact erase_arrowDatatype field.ty
  | python =>
    simp only [Target.schemaField, pythonSchemaField]
    split
    next ty => rw [ty]; rfl
    next ty => rw [ty]; rfl
    next ty => rw [ty]; rfl
    next => exact erase_pyarrowType field.ty
  | typescript =>
    simp only [Target.schemaField, tsSchemaField]
    split
    next ty => rw [ty]; rfl
    next ty => rw [ty]; rfl
    next ty => rw [ty]; rfl
    next => exact erase_tsArrowDatatype field.ty

/-- The fields whose metadata is checked carry it in every target. -/
theorem metadata_of_checked (target : Target) {field : FieldDef} {dtype : TensorElementType}
    {dims : List Dimension} (checked : field.ty.checkedTensor = some (dtype, dims)) :
    (target.schemaField field).metadata = tensorMetadata dimsAsShape dtype dims := by
  obtain ⟨name, ty, default⟩ := field
  cases ty with
  | string | bytes | bool | i8 | i16 | i32 | i64 | u8 | f32 | f64 | map => cases checked
  | tensor =>
    cases checked
    cases target <;> rfl
  | list inner | optional inner =>
    cases inner with
    | string | bytes | bool | i8 | i16 | i32 | i64 | u8 | f32 | f64 | map | list | optional => cases checked
    | tensor =>
      cases checked
      cases target <;> rfl

theorem tsDimOk_self (size : UInt64) : tsDimOk size (FloatValue.ofInt .binary64 size.toNat) = true := by
  have same := (FloatValue.numericEq_ofInt_natCast (m := size.toNat) (roundMagnitude_size_lt size)).mpr rfl
  rw [tsDimOk, Bool.or_eq_true]
  exact .inr same

/-- Dimensions are met by sizes written so that each fixed one is. -/
theorem dimsMatch_map {size : Type} {dimOk : UInt64 → size → Bool} {written : Dimension → size}
    {dims : List Dimension} (meets : ∀ expected, .fixed expected ∈ dims →
      dimOk expected (written (.fixed expected)) = true) : DimsMatch dimOk dims (dims.map written) := by
  induction dims with
  | nil => trivial
  | cons dim dims ih =>
    have rest := ih fun expected member => meets expected (List.mem_cons_of_mem _ member)
    cases dim with
    | fixed expected => exact ⟨meets expected List.mem_cons_self, rest⟩
    | dynamic name => exact rest

/-- A shape passes its own check in every target, whatever its sizes. -/
theorem acceptsShape_self (target : Target) (dims : List Dimension) :
    target.AcceptsShape dims (dimsAsShape dims) := by
  have fit := shapeSizes_lt dims
  cases target with
  | rust =>
    refine ⟨_, rustParseShape_shapeText fit, by simp, dimsMatch_map fun expected _ => ?_⟩
    simp [rustDimOk, Dimension.shapeSize]
  | python =>
    refine ⟨_, pythonParseShape_shapeText fit, by simp, ?_⟩
    rw [List.map_map]
    exact dimsMatch_map fun expected _ => by simp [pythonDimOk, Dimension.shapeSize]
  | typescript =>
    refine ⟨_, laicParseTensorShape_shapeText _, by simp, ?_⟩
    rw [List.map_map]
    exact dimsMatch_map fun expected _ => tsDimOk_self expected

theorem passesTensorCheck_schemaField (encoder decoder : Target) (field : FieldDef) :
    decoder.PassesTensorCheck field (encoder.schemaField field).metadata := by
  intro dtype dims checked
  rw [metadata_of_checked encoder checked, tensorCheck_eq_ok]
  exact ⟨rfl, _, rfl, acceptsShape_self decoder dims⟩

variable {target encoder decoder : Target}

/-! ## Entries, rows and records -/

/-- The entry is the one that the target's schema declares, and holds the value. -/
structure CarriesValue (target : Target) (field : FieldDef) (value : field.ty.Value) (entry : Entry) :
    Prop where
  declared : entry.field = target.schemaField field
  holds : Holds field.ty value entry.field.type entry.slot
  nulls : NullsAllowed entry.field.type entry.field.nullable entry.slot

theorem fields_of_carried {values : (field : FieldDef) → field.ty.Value} {fields : List FieldDef}
    {entries : List Entry}
    (carried : List.Forall₂ (fun field made => CarriesValue target field (values field) made) fields entries) :
    entries.map Entry.field = fields.map fun field => target.schemaField field := by
  induction carried with
  | nil => rfl
  | cons head _ ih => rw [List.map_cons, List.map_cons, head.declared, ih]

theorem ofRow_eq_fieldRow {field : FieldDef} (made : Entry) (named : made.field.name = field.name) :
    RecordBatch.ofRow [made] =
      fieldRow field made.field.type made.field.nullable made.field.metadata made.slot := by
  obtain ⟨⟨name, type, nullable, metadata⟩, slot⟩ := made
  have same : name = field.name := named
  subst same
  rfl

/-- The fields of a batch are extracted one by one. -/
theorem exists_extractFields {host : Type} {extract : FieldDef → RecordBatch → Except DecodeError host}
    {R : FieldDef → host → Prop} {fields : List FieldDef} {batch : RecordBatch}
    (each : ∀ field ∈ fields, ∃ object, extract field batch = .ok object ∧ R field object) :
    ∃ record, extractFields extract fields batch = .ok record ∧
      List.Forall₂ (fun field object => object.1 = field.name ∧ R field object.2) fields record := by
  induction fields with
  | nil => exact ⟨[], rfl, .nil⟩
  | cons field fields ih =>
    obtain ⟨object, extracted, related⟩ := each field List.mem_cons_self
    obtain ⟨record, rest, all⟩ := ih fun other member => each other (List.mem_cons_of_mem field member)
    refine ⟨(field.name, object) :: record, ?_, .cons ⟨rfl, related⟩ all⟩
    rw [extractFields] at rest ⊢
    rw [List.mapM_cons, extracted, rest]
    rfl

/-- The record shows a value of each field. -/
def ShowsFields {host : Type} (view : HostView host) (fields : List FieldDef)
    (values : (field : FieldDef) → field.ty.Value) (record : String → host) : Prop :=
  ∀ field ∈ fields, Shows view field.ty (values field) (record field.name)

/-- The stream carries the fields that the encoder declares, with nulls only where these allow them. -/
structure DeclaredBy (encoder : Target) (fields : List FieldDef) (stream : Stream) : Prop where
  fields : stream.fields = fields.map fun field => encoder.schemaField field
  nulls : ∀ batch ∈ stream.batches, ∀ column ∈ batch.columns, ∀ slot ∈ column.slots,
    NullsAllowed column.field.type column.field.nullable slot

/-! ## Byte-order marks -/

section Marks

variable {ty inner key value : LaicType} {scalar : Scalar}

theorem toJs_injective {one other : scalar.Value} (same : scalar.toJs one = scalar.toJs other) :
    one = other := by
  have read := congrArg scalar.ofJs same
  rw [Scalar.ofJs_toJs, Scalar.ofJs_toJs] at read
  exact Option.some.inj read

/-- An object shows one value of a leaf. -/
theorem eq_of_shows (leaf : ty.leafScalar = some scalar) {one other : ty.Value} {object : JsValue}
    (showsOne : Shows Target.typescript.view ty one object)
    (showsOther : Shows Target.typescript.view ty other object) : one = other := by
  rw [shows_leaf Target.typescript.view leaf] at showsOne showsOther
  exact (cast_inj (LaicType.value_of_leaf leaf)).mp (toJs_injective (showsOne.symm.trans showsOther))

/-- The length of the text that a value is. -/
def LaicType.textLength : (ty : LaicType) → ty.Value → Nat
  | .string, (text : String) => text.toList.length
  | .bytes, _ | .bool, _ | .i8, _ | .i16, _ | .i32, _ | .i64, _ | .u8, _ | .f32, _ | .f64, _
  | .tensor _ _, _ | .list _, _ | .optional _, _ | .map _ _, _ => 0

/-- Decoding shortens a leaf that begins with a mark, and no other. -/
theorem textLength_decoded (leaf : ty.leafScalar = some scalar) (value : ty.Value) :
    Unmarked ty value ∨ ty.textLength (ty.decoded value) < ty.textLength value := by
  cases ty with
  | list | optional | map => cases leaf
  | bytes | bool | i8 | i16 | i32 | i64 | u8 | f32 | f64 | tensor => exact .inl trivial
  | string =>
    change String at value
    by_cases marked : value.toList.head? = some byteOrderMark
    · right
      have nonempty : value.toList ≠ [] := by
        intro empty
        rw [empty] at marked
        cases marked
      have shorter := List.length_pos_iff.mpr nonempty
      simp only [LaicType.textLength, LaicType.decoded, textDecode, if_pos marked, String.toList_ofList,
        List.length_tail]
      omega
    · exact .inl marked

theorem textLength_decoded_le (leaf : ty.leafScalar = some scalar) (value : ty.Value) :
    ty.textLength (ty.decoded value) ≤ ty.textLength value := by
  obtain unmarked | shorter := textLength_decoded leaf value
  · rw [LaicType.decoded_of_unmarked unmarked]
  · exact shorter.le

theorem unmarked_of_decoded (leaf : ty.leafScalar = some scalar) {value : ty.Value}
    (same : ty.decoded value = value) : Unmarked ty value := by
  obtain unmarked | shorter := textLength_decoded leaf value
  · exact unmarked
  · rw [same] at shorter
    exact absurd shorter (lt_irrefl _)

/-- Where the decoded items and the items are shown by the same objects, no item is marked. -/
theorem unmarked_list (each : ∀ item object, Shows Target.typescript.view inner (inner.decoded item) object →
      Shows Target.typescript.view inner item object → Unmarked inner item) {items : List inner.Value}
    {object : JsValue} (decoded : Shows Target.typescript.view (.list inner) (items.map inner.decoded) object)
    (shows : Shows Target.typescript.view (.list inner) items object) : Unmarked (.list inner) items := by
  obtain ⟨objects, found, shownDecoded⟩ := decoded
  obtain ⟨objects', found', shown⟩ := shows
  cases found.symm.trans found'
  rw [List.forall₂_map_left_iff] at shownDecoded
  intro item member
  obtain ⟨object, -, asDecoded, asGiven⟩ := exists_right_of_forall₂ (forall₂_both shownDecoded shown) member
  exact each item object asDecoded asGiven

theorem unmarked_optional
    (each : ∀ item object, Shows Target.typescript.view inner (inner.decoded item) object →
      Shows Target.typescript.view inner item object → Unmarked inner item) {value : Option inner.Value}
    {object : JsValue}
    (decoded : Shows Target.typescript.view (.optional inner) (value.map inner.decoded) object)
    (shows : Shows Target.typescript.view (.optional inner) value object) :
    Unmarked (.optional inner) value := by
  cases value with
  | none => exact fun _ member => absurd member (Option.not_mem_none _)
  | some item =>
    obtain ⟨inside, found, shownDecoded⟩ := decoded
    obtain ⟨inside', found', shown⟩ := shows
    cases found.symm.trans found'
    intro other member
    cases member
    exact each item inside shownDecoded shown

/-- An object shows one list of entries in its order. -/
theorem eq_of_shows_entries {keyScalar valueScalar : Scalar} (keyLeaf : key.leafScalar = some keyScalar)
    (valueLeaf : value.leafScalar = some valueScalar) {one other : List (key.Value × value.Value)}
    {objects : List (JsValue × JsValue)}
    (showsOne : List.Forall₂ (fun v object => Shows Target.typescript.view key v.1 object.1 ∧
      Shows Target.typescript.view value v.2 object.2) one objects)
    (showsOther : List.Forall₂ (fun v object => Shows Target.typescript.view key v.1 object.1 ∧
      Shows Target.typescript.view value v.2 object.2) other objects) : one = other := by
  induction showsOne generalizing other with
  | nil =>
    cases showsOther
    rfl
  | cons head _ ih =>
    cases showsOther with
    | cons head' rest' =>
      have first := Prod.ext (eq_of_shows keyLeaf head.1 head'.1) (eq_of_shows valueLeaf head.2 head'.2)
      rw [first, ih rest']

/-- A map is unmarked where decoding its entries at most reorders them: it shortens no text then. -/
theorem unmarked_map {keyScalar valueScalar : Scalar} (keyLeaf : key.leafScalar = some keyScalar)
    (valueLeaf : value.leafScalar = some valueScalar) {entries : List (key.Value × value.Value)}
    (perm : (entries.map fun entry => (key.decoded entry.1, value.decoded entry.2)).Perm entries) :
    Unmarked (.map key value) entries := by
  have same := (perm.map fun entry => key.textLength entry.1 + value.textLength entry.2).sum_eq
  rw [List.map_map] at same
  have each (entry : key.Value × value.Value) := And.intro (textLength_decoded_le keyLeaf entry.1)
    (textLength_decoded_le valueLeaf entry.2)
  by_contra marked
  simp only [Unmarked, not_forall, not_and_or] at marked
  obtain ⟨entry, member, isMarked⟩ := marked
  have shorter : (entries.map ((fun entry => key.textLength entry.1 + value.textLength entry.2) ∘
      fun entry => (key.decoded entry.1, value.decoded entry.2))).sum <
      (entries.map fun entry => key.textLength entry.1 + value.textLength entry.2).sum := by
    apply List.sum_lt_sum
    · intro other _
      exact Nat.add_le_add (each other).1 (each other).2
    · refine ⟨entry, member, ?_⟩
      obtain keyMarked | valueMarked := isMarked
      · exact Nat.add_lt_add_of_lt_of_le ((textLength_decoded keyLeaf entry.1).resolve_left keyMarked)
          (each entry).2
      · exact Nat.add_lt_add_of_le_of_lt (each entry).1
          ((textLength_decoded valueLeaf entry.2).resolve_left valueMarked)
  exact shorter.ne same

theorem unmarked_leaf (leaf : ty.leafScalar = some scalar) (value : ty.Value) (object : JsValue)
    (decoded : Shows Target.typescript.view ty (ty.decoded value) object)
    (shows : Shows Target.typescript.view ty value object) : Unmarked ty value :=
  unmarked_of_decoded leaf (eq_of_shows leaf decoded shows)

/-- What shows a value both decoded and as it is shows that no string in it is marked. -/
theorem unmarked_of_shows (supported : Supported ty) {value : ty.Value} {object : JsValue}
    (decoded : Shows Target.typescript.view ty (ty.decoded value) object)
    (shows : Shows Target.typescript.view ty value object) : Unmarked ty value := by
  cases supported with
  | leaf leaf =>
    obtain ⟨scalar, leaf⟩ := LaicType.exists_leafScalar leaf.isLeaf
    exact unmarked_leaf leaf value object decoded shows
  | list leaf =>
    obtain ⟨scalar, leaf⟩ := LaicType.exists_leafScalar leaf.isLeaf
    exact unmarked_list (unmarked_leaf leaf) decoded shows
  | listOptional leaf =>
    obtain ⟨scalar, leaf⟩ := LaicType.exists_leafScalar leaf.isLeaf
    exact unmarked_list (fun _ _ => unmarked_optional (unmarked_leaf leaf)) decoded shows
  | optional leaf =>
    obtain ⟨scalar, leaf⟩ := LaicType.exists_leafScalar leaf.isLeaf
    exact unmarked_optional (unmarked_leaf leaf) decoded shows
  | optionalList leaf =>
    obtain ⟨scalar, leaf⟩ := LaicType.exists_leafScalar leaf.isLeaf
    exact unmarked_optional (fun _ _ => unmarked_list (unmarked_leaf leaf)) decoded shows
  | map isKey isScalar =>
    obtain ⟨keyScalar, valueScalar, keyLeaf, valueLeaf⟩ := LaicType.exists_mapScalars isKey isScalar
    obtain ⟨objects, found, order, perm, shown⟩ := shows
    obtain ⟨objects', found', orderDecoded, permDecoded, shownDecoded⟩ := decoded
    cases found.symm.trans found'
    cases eq_of_shows_entries keyLeaf valueLeaf shown shownDecoded
    exact unmarked_map keyLeaf valueLeaf (permDecoded.symm.trans perm)

end Marks

/-- What is read of unmarked values is the values. -/
theorem readsAs_of_unmarked {ty : LaicType} {value : ty.Value}
    (unmarked : decoder = .typescript → Unmarked ty value) : decoder.readsAs ty value = value := by
  cases decoder with
  | rust | python => rfl
  | typescript => exact LaicType.decoded_of_unmarked (unmarked rfl)

/-! ## Encoding -/

section Libraries

variable [Libraries]

/-- The entry that the encoder of a target makes of a field. -/
def Target.entry (field : FieldDef) : (target : Target) → target.Host → Option Entry
  | .rust, object =>
    match emitToArrowColumn field.ty with
    | .ok expr => rustEntry (field, expr) object
    | .error _ => none
  | .python, object => pythonEntry field object
  | .typescript, object => tsEntry field object

/-- The columns that were generated build the entries of their fields. -/
theorem mapM_rustEntry_eq {fields : List FieldDef} {columns : List (FieldDef × ColumnExpr)}
    (generated : (fields.mapM fun field => (do
      let expr ← emitToArrowColumn field.ty
      .ok (field, expr) : Except String (FieldDef × ColumnExpr))) = .ok columns)
    (record : String → RustValue) :
    (columns.mapM fun column => rustEntry column (record column.1.name)) =
      fields.mapM fun field => Target.rust.entry field (record field.name) := by
  induction fields generalizing columns with
  | nil =>
    cases generated
    rfl
  | cons field fields ih =>
    simp only [List.mapM_cons, Except.bind_eq_ok] at generated
    obtain ⟨_, ⟨expr, made, same⟩, rest, others, whole⟩ := generated
    cases same
    cases whole
    have first : Target.rust.entry field (record field.name) =
        rustEntry (field, expr) (record field.name) := by
      simp only [Target.entry, made]
    rw [List.mapM_cons, List.mapM_cons, ih others, first]

variable {version : String} {entry : SkillDef × String × StructDef}

theorem encode_eq {contract : Contract target.Host}
    (generated : target.generate version entry = .ok contract) (record : String → target.Host) :
    contract.encode record = encodeFields (fun field object => target.entry field object)
      (schemaMetadata entry.1.id version entry.2.1) entry.2.2.fields record := by
  cases target with
  | rust =>
    simp only [Target.generate, generateStruct, Except.bind_eq_ok] at generated
    obtain ⟨_, ⟨columns, made, extractions, -, same⟩, same'⟩ := generated
    cases same
    cases same'
    rw [encodeFields, ← mapM_rustEntry_eq made record]
    rfl
  | python | typescript =>
    cases generated
    rfl

/-- Where the target generates code, its encoder makes an entry of each field. -/
theorem Target.writes [LawfulLibraries] {contract : Contract target.Host}
    (generated : target.generate version entry = .ok contract) (supported : SupportedStruct entry.2.2)
    {field : FieldDef} (member : field ∈ entry.2.2.fields) {value : field.ty.Value} {object : target.Host}
    (shows : Shows target.argument field.ty value object) :
    ∃ made, target.entry field object = some made ∧ CarriesValue target field value made := by
  have fieldSupported := supported.supported field member
  cases target with
  | rust =>
    simp only [Target.generate, Except.bind_eq_ok] at generated
    obtain ⟨code, struct, -⟩ := generated
    have plain := (exists_generateStruct supported).mp ⟨code, struct⟩ field member
    obtain ⟨expr, emitted⟩ := (emitToArrowColumn_eq_ok fieldSupported).mpr plain
    obtain ⟨made, built, declared, holds, nulls⟩ := rust_writes rfl fieldSupported emitted shows
    exact ⟨made, by simp only [Target.entry, emitted, built], declared, holds, nulls⟩
  | python =>
    obtain ⟨made, built, declared, holds, nulls⟩ := python_writes rfl fieldSupported shows
    exact ⟨made, built, declared, holds, nulls⟩
  | typescript =>
    obtain ⟨made, built, declared, holds, nulls⟩ := typescript_writes rfl fieldSupported shows
    exact ⟨made, built, declared, holds, nulls⟩

/-! ## Decoding -/

/-- An entry of any encoder is read by every decoder. -/
theorem CarriesValue.read [LawfulLibraries] {field : FieldDef} {value : field.ty.Value} {made : Entry}
    (carries : CarriesValue encoder field value made) (supported : Supported field.ty)
    (distinct : DistinctKeys field.ty value) (decoder : Target) :
    ∃ object, decoder.extractField field (RecordBatch.ofRow [made]) = .ok object ∧
      Shows decoder.view field.ty (decoder.readsAs field.ty value) object := by
  have named : made.field.name = field.name := by rw [carries.declared, schemaField_name]
  have erased : made.field.type.erase = field.ty.wireType := by
    rw [carries.declared, erase_schemaField]
  have passes : decoder.PassesTensorCheck field made.field.metadata := by
    rw [carries.declared]
    exact passesTensorCheck_schemaField encoder decoder field
  rw [ofRow_eq_fieldRow made named]
  exact decoder.reads rfl supported distinct erased passes carries.holds

/-! ## Round trips -/

/-- A record of values with distinct keys comes back as the decoder reads it, for any two targets that
generate code. -/
theorem exists_roundTrip [LawfulLibraries] {encoding : Contract encoder.Host}
    {decoding : Contract decoder.Host} (supported : SupportedStruct entry.2.2) (encodes : encoder.generate version entry = .ok encoding)
    (decodes : decoder.generate version entry = .ok decoding) {values : (field : FieldDef) → field.ty.Value}
    (distinct : ∀ field ∈ entry.2.2.fields, DistinctKeys field.ty (values field))
    {record : String → encoder.Host} (shows : ShowsFields encoder.argument entry.2.2.fields values record) :
    ∃ stream, encoding.encode record = some stream ∧ DeclaredBy encoder entry.2.2.fields stream ∧
      ∃ decoded, decoding.decode stream = .ok decoded ∧
        List.Forall₂ (fun field object => object.1 = field.name ∧
          Shows decoder.view field.ty (decoder.readsAs field.ty (values field)) object.2)
          entry.2.2.fields decoded := by
  have same : List.Forall₂ (fun field other => field = other ∧ field ∈ entry.2.2.fields)
      entry.2.2.fields entry.2.2.fields := List.forall₂_same.mpr fun field member => ⟨rfl, member⟩
  obtain ⟨entries, made, carried⟩ := exists_mapM_of_forall₂
    (f := fun field => encoder.entry field (record field.name))
    (S := fun field made => CarriesValue encoder field (values field) made)
    (fun field other both => by
      obtain ⟨rfl, member⟩ := both
      exact Target.writes encodes supported member (shows field member)) same
  have schema := fields_of_carried carried
  refine ⟨Stream.ofRow (schemaMetadata entry.1.id version entry.2.1) entries, ?_, ⟨schema, ?_⟩, ?_⟩
  · rw [encode_eq encodes, encodeFields, made]
    rfl
  · intro batch inStream column inBatch slot inColumn
    rw [List.mem_singleton.mp inStream] at inBatch
    obtain ⟨made, inRow, rfl⟩ := List.mem_map.mp inBatch
    obtain ⟨field, carries⟩ := exists_of_forall₂ carried inRow
    rw [List.mem_singleton.mp inColumn]
    exact carries.nulls
  · have names : entries.map (fun made => made.field.name) = entry.2.2.fields.map FieldDef.name := by
      have mapped := congrArg (List.map Field.name) schema
      simpa only [List.map_map, Function.comp_def, schemaField_name] using mapped
    have identified : validateMetadata
        (Stream.ofRow (schemaMetadata entry.1.id version entry.2.1) entries).metadata
        (schemaMetadata entry.1.id version entry.2.1) = .ok () := validateMetadata_self _ _ _
    rw [decode_isRow decodes (Stream.ofRow_isRow _ entries), identified, Except.ok_bind]
    apply exists_extractFields
    intro field member
    obtain ⟨made, inRow, carries⟩ := exists_right_of_forall₂ carried member
    obtain ⟨object, read, shown⟩ := carries.read (supported.supported field member) (distinct field member)
      decoder
    refine ⟨object, ?_, shown⟩
    rw [extractField_ofRow (names ▸ supported.names_nodup) inRow (by rw [carries.declared, schemaField_name]),
      read]

/-- A record comes back from one target to the other: the code of both sides compiles, the record is
encoded under the schema that is declared, and what the decoder reads shows the values. -/
structure RoundTrips (encoder decoder : Target) (file : LaicFile) (fields : List FieldDef)
    (encoding : Contract encoder.Host) (decoding : Contract decoder.Host)
    (values : (field : FieldDef) → field.ty.Value) (record : String → encoder.Host) : Prop where
  encoderCompiles : encoder.FileCompiles file
  decoderCompiles : decoder.FileCompiles file
  comesBack : ∃ stream, encoding.encode record = some stream ∧ DeclaredBy encoder fields stream ∧
    ∃ decoded, decoding.decode stream = .ok decoded ∧
      List.Forall₂ (fun field object => object.1 = field.name ∧
        Shows decoder.view field.ty (values field) object.2) fields decoded

/-- In every file with safe names, a record whose values have distinct map keys comes back exactly if
everything in the file has a form in both targets and, where TypeScript decodes, no string in the
record begins with a byte-order mark. -/
theorem roundTrips_iff [LawfulLibraries] {imports : List String} {source : String} {file : LaicFile}
    (accepted : compile source = .ok file) (member : entry ∈ file.structs) (encoder decoder : Target)
    {encoding : Contract encoder.Host} (encodes : encoder.Emits imports file entry encoding)
    {decoding : Contract decoder.Host} (decodes : decoder.Emits imports file entry decoding)
    {values : (field : FieldDef) → field.ty.Value}
    (distinct : ∀ field ∈ entry.2.2.fields, DistinctKeys field.ty (values field))
    {record : String → encoder.Host} (shows : ShowsFields encoder.argument entry.2.2.fields values record) :
    RoundTrips encoder decoder file entry.2.2.fields encoding decoding values record ↔
      encoder.WritesFile file ∧ decoder.WritesFile file ∧
        (decoder = .typescript → ∀ field ∈ entry.2.2.fields, Unmarked field.ty (values field)) := by
  have supported := supportedStruct_of_compile accepted entry member
  obtain ⟨stream, encoded, declared, decoded, read, shown⟩ :=
    exists_roundTrip supported encodes.generated decodes.generated distinct shows
  constructor
  · rintro ⟨encoderCompiles, decoderCompiles, comesBack⟩
    refine ⟨(fileCompiles_iff accepted encodes.whole).mp encoderCompiles,
      (fileCompiles_iff accepted decodes.whole).mp decoderCompiles, fun isTypescript field inStruct => ?_⟩
    subst isTypescript
    obtain ⟨stream', encoded', -, decoded', read', shown'⟩ := comesBack
    cases encoded.symm.trans encoded'
    cases read.symm.trans read'
    obtain ⟨object, -, asDecoded, asGiven⟩ := exists_right_of_forall₂ (forall₂_both shown shown') inStruct
    exact unmarked_of_shows (supported.supported field inStruct) asDecoded.2 asGiven.2
  · rintro ⟨encoderWrites, decoderWrites, unmarked⟩
    refine ⟨(fileCompiles_iff accepted encodes.whole).mpr encoderWrites,
      (fileCompiles_iff accepted decodes.whole).mpr decoderWrites,
      stream, encoded, declared, decoded, read, ?_⟩
    have plain : ∀ field ∈ entry.2.2.fields, decoder.readsAs field.ty (values field) = values field :=
      fun field inStruct => readsAs_of_unmarked fun isTypescript => unmarked isTypescript field inStruct
    refine ((List.forall₂_and_left _ _).mpr ⟨plain, shown⟩).imp fun field object both => ?_
    rw [both.1] at both
    exact both.2

end Libraries

/-! ## A record that comes back, and one that does not -/

section Reference

open Arrow.Reference

/-- Some value of each type. -/
def LaicType.sample : (ty : LaicType) → ty.Value
  | .string => ("a" : String)
  | .bytes | .tensor _ _ => ([1] : List UInt8)
  | .bool => true
  | .i8 => (1 : Int8)
  | .i16 => (1 : Int16)
  | .i32 => (1 : Int32)
  | .i64 => (1 : Int64)
  | .u8 => (1 : UInt8)
  | .f32 => FloatValue.ofInt .binary32 1
  | .f64 => FloatValue.ofInt .binary64 1
  | .list inner => [inner.sample]
  | .optional inner => some inner.sample
  | .map key value => [(key.sample, value.sample)]

/-- A list with a string in it goes from Python to TypeScript. -/
theorem roundTrips_iff_items :
    ∃ file, compile (skillSource "I" "x:list<optional<string>>;" "O" "x:bool;" "") = .ok file ∧
      ∃ entry ∈ file.structs,
        RoundTrips .python .typescript file entry.2.2.fields
          (pythonContract entry.2.2 (schemaMetadata entry.1.id file.version entry.2.1))
          (typescriptContract entry.2.2 (schemaMetadata entry.1.id file.version entry.2.1))
          (fun field => field.ty.sample) (fun _ => .list [.str "a"]) := by
  obtain ⟨file, accepted, found⟩ : ∃ file,
      compile (skillSource "I" "x:list<optional<string>>;" "O" "x:bool;" "") = .ok file ∧
        (Target.python.checkNames [] file && Target.typescript.checkNames [] file && file.hasNoDefaults &&
          file.structs.any fun entry => entry.2.2.fields.all fun field =>
            field.ty == .list (.optional .string)) = true :=
    Except.exists_of_any (by decide +kernel)
  simp only [Bool.and_eq_true, List.any_eq_true, List.all_eq_true, beq_iff_eq] at found
  obtain ⟨⟨⟨pythonNames, typescriptNames⟩, noDefaults⟩, entry, member, isType⟩ := found
  refine ⟨file, accepted, entry, member, ?_⟩
  apply (roundTrips_iff accepted member .python .typescript (emits_python accepted pythonNames entry)
    (emits_typescript accepted typescriptNames entry) (fun field inStruct => ?_) (fun field inStruct => ?_)).mpr
  · refine ⟨writesFile_of_hasNoDefaults (by decide) noDefaults,
      writesFile_of_hasNoDefaults (by decide) noDefaults,
      fun _ field inStruct => ?_⟩
    rw [isType field inStruct]
    intro item isItem text isText
    cases List.mem_singleton.mp isItem
    cases isText
    exact (by decide : "a".toList.head? ≠ some byteOrderMark)
  · rw [isType field inStruct]
    simp [DistinctKeys, LaicType.sample]
  · rw [isType field inStruct]
    exact ⟨_, rfl, .cons ⟨_, rfl, rfl⟩ .nil⟩

/-- The extraction of an optional list of tensors is emitted in Rust with borrowed items. -/
theorem roundTrips_counterexample :
    ¬ ∀ imports source file, compile source = .ok file → ∀ entry ∈ file.structs,
      ∀ (encoder decoder : Target) (encoding : Contract encoder.Host) (decoding : Contract decoder.Host),
        encoder.Emits imports file entry encoding → decoder.Emits imports file entry decoding →
        ∀ values : (field : FieldDef) → field.ty.Value,
          (∀ field ∈ entry.2.2.fields, DistinctKeys field.ty (values field)) →
          ∀ record, ShowsFields encoder.argument entry.2.2.fields values record →
            RoundTrips encoder decoder file entry.2.2.fields encoding decoding values record := by
  intro all
  obtain ⟨file, accepted, found⟩ : ∃ file,
      compile (skillSource "I" "x:optional<list<tensor<f32>[2]>>;" "O" "x:bool;" "") = .ok file ∧
        (Target.rust.checkNames [] file &&
          (file.structs.all fun entry => entry.2.2.fields.all fun field => !field.ty.isListOfOptional) &&
          file.structs.any fun entry => !entry.2.2.fields.isEmpty && entry.2.2.fields.all fun field =>
            field.ty == .optional (.list (.tensor .f32 [.fixed 2]))) = true :=
    Except.exists_of_any (by decide +kernel)
  simp only [Bool.and_eq_true, List.any_eq_true, List.all_eq_true, beq_iff_eq, Bool.not_eq_true'] at found
  obtain ⟨⟨names, plain⟩, entry, member, nonempty, isType⟩ := found
  obtain ⟨contract, emits⟩ := emits_rust accepted names plain member
  have distinct : ∀ field ∈ entry.2.2.fields, DistinctKeys field.ty field.ty.sample := by
    intro field inStruct
    rw [isType field inStruct]
    simp [DistinctKeys, LaicType.sample]
  have shows : ∀ field ∈ entry.2.2.fields, Shows Target.rust.argument field.ty field.ty.sample
      (.option (some (.vec [.scalar .binary [1]]))) := by
    intro field inStruct
    rw [isType field inStruct]
    exact ⟨_, rfl, _, rfl, .cons rfl .nil⟩
  have trips := all [] _ file accepted entry member .rust .rust contract contract emits emits _ distinct
    (fun _ => .option (some (.vec [.scalar .binary [1]]))) shows
  have writes := (fileCompiles_iff accepted emits.whole).mp trips.encoderCompiles
  obtain ⟨field, inStruct⟩ := List.exists_mem_of_ne_nil _ (by simpa using nonempty)
  have copied := writes.tensors rfl entry member field inStruct
  rw [isType field inStruct] at copied
  cases copied

end Reference

end Laic
