import Laic.Codegen.RoundTrip

/-! # Columns that a decoder should refuse

A null in a field that is not optional, and a column of another data type.  Whether the decoder
of a struct refuses such a stream depends on the extraction of that one field: where this gives a
value, the row that has blanks in all other fields is decoded to a record. -/

namespace Laic

open Arrow

variable {target : Target} {version : String} {entry : SkillDef × String × StructDef}
  {contract : Contract target.Host} {field : FieldDef}

/-! ## Rows around one entry -/

/-- The stream is one row under the metadata of the struct. -/
structure IsRowOf (version : String) (entry : SkillDef × String × StructDef) (stream : Stream)
    (batch : RecordBatch) : Prop where
  isRow : stream.IsRow batch
  identified : validateMetadata stream.metadata (schemaMetadata entry.1.id version entry.2.1) = .ok ()

/-- A slot for a field whose value does not matter: absent where the field is optional, else blank. -/
def blankSlot (ty : LaicType) (type : DataType) : Slot (Cell type) := ⟨!ty.isOptional, blank type⟩

theorem exists_holds_blankSlot {ty : LaicType} (supported : Supported ty) {type : DataType}
    (declared : type.erase = ty.wireType) :
    ∃ value, DistinctKeys ty value ∧ Holds ty value type (blankSlot ty type) := by
  cases supported with
  | leaf leaf =>
    obtain ⟨scalar, leaf⟩ := LaicType.exists_leafScalar leaf.isLeaf
    obtain rfl := type_of_leaf leaf declared
    refine ⟨cast (LaicType.value_of_leaf leaf).symm scalar.blank, ?_⟩
    cases ty with
    | list | optional | map => cases leaf
    | string | bytes | bool | i8 | i16 | i32 | i64 | u8 | f32 | f64 | tensor =>
      cases leaf
      exact ⟨trivial, rfl, rfl⟩
  | list leaf | listOptional leaf =>
    obtain ⟨scalar, leaf⟩ := LaicType.exists_leafScalar leaf.isLeaf
    obtain ⟨itemName, itemNullable, rfl⟩ := type_of_list leaf declared
    exact ⟨[], fun _ member => absurd member List.not_mem_nil, rfl, .nil⟩
  | optional leaf | optionalList leaf =>
    exact ⟨none, fun _ member => absurd member (Option.not_mem_none _), rfl⟩
  | map isKey isScalar =>
    obtain ⟨keyScalar, valueScalar, keyLeaf, valueLeaf⟩ := LaicType.exists_mapScalars isKey isScalar
    obtain ⟨layout, rfl⟩ := type_of_map keyLeaf valueLeaf declared
    exact ⟨[], .nil, rfl, [], .nil, .nil⟩

/-- A slot under the field that the target declares. -/
def Target.entryOf (target : Target) (field : FieldDef)
    (slot : Slot (Cell (target.schemaField field).type)) : Entry := ⟨target.schemaField field, slot⟩

theorem extractField_entryOf (slot : Slot (Cell (target.schemaField field).type)) :
    RecordBatch.ofRow [target.entryOf field slot] =
      fieldRow field (target.schemaField field).type (target.schemaField field).nullable
        (target.schemaField field).metadata slot :=
  ofRow_eq_fieldRow (target.entryOf field slot) (schemaField_name target field)

/-- The row of blanks with one entry put in. -/
def sampleRow (target : Target) (fields : List FieldDef) (special : Entry) : List Entry :=
  fields.map fun other =>
    if other.name = special.field.name then special else target.entryOf other (blankSlot other.ty _)

theorem sampleRow_names (fields : List FieldDef) (special : Entry) :
    (sampleRow target fields special).map (fun made => made.field.name) = fields.map FieldDef.name := by
  rw [sampleRow, List.map_map]
  apply List.map_congr_left
  intro other _
  by_cases same : other.name = special.field.name
  · simp [same]
  · simp [same, Target.entryOf, schemaField_name]

theorem sampleRow_nodup (target : Target) {fields : List FieldDef} (nodup : (fields.map FieldDef.name).Nodup)
    (special : Entry) : ((sampleRow target fields special).map fun made => made.field.name).Nodup := by
  rwa [sampleRow_names]

theorem mem_sampleRow {fields : List FieldDef} {special : Entry} (member : field ∈ fields)
    (named : special.field.name = field.name) : special ∈ sampleRow target fields special :=
  List.mem_map.mpr ⟨field, member, if_pos named.symm⟩

theorem blank_mem_sampleRow {fields : List FieldDef} {special : Entry} (member : field ∈ fields)
    (different : field.name ≠ special.field.name) :
    target.entryOf field (blankSlot field.ty _) ∈ sampleRow target fields special :=
  List.mem_map.mpr ⟨field, member, if_neg different⟩

section Rows

variable [Libraries] [LawfulLibraries]

/-- Every decoder reads the blank of its own schema field. -/
theorem extracts_blank (target : Target) (supported : Supported field.ty) :
    ∃ object, target.extractField field
      (RecordBatch.ofRow [target.entryOf field (blankSlot field.ty _)]) = .ok object := by
  have declared := erase_schemaField target field
  obtain ⟨value, distinct, holds⟩ := exists_holds_blankSlot supported declared
  rw [extractField_entryOf]
  obtain ⟨object, read, -⟩ := target.reads rfl supported distinct declared
    (passesTensorCheck_schemaField target target field) holds
  exact ⟨object, read⟩

/-- Where the one entry is read, so is its row. -/
theorem decode_sampleRow (generated : target.generate version entry = .ok contract)
    (supported : SupportedStruct entry.2.2) (member : field ∈ entry.2.2.fields) {special : Entry}
    (named : special.field.name = field.name)
    (extracts : ∃ object, target.extractField field (RecordBatch.ofRow [special]) = .ok object) :
    ∃ record, contract.decode (Stream.ofRow (schemaMetadata entry.1.id version entry.2.1)
      (sampleRow target entry.2.2.fields special)) = .ok record := by
  have distinct := sampleRow_nodup target supported.names_nodup special
  apply decode_ok_of_fields generated (Stream.ofRow_isRow _ _) (validateMetadata_self _ _ _)
  intro other inStruct
  by_cases same : other.name = special.field.name
  · have isField : other = field :=
      List.inj_on_of_nodup_map supported.names_nodup inStruct member (same.trans named)
    subst isField
    rw [extractField_ofRow distinct (mem_sampleRow inStruct named) named]
    exact extracts
  · rw [extractField_ofRow distinct (blank_mem_sampleRow inStruct same) (schemaField_name target other)]
    exact extracts_blank target (supported.supported other inStruct)

end Rows

/-- What an extraction makes of any column of the field's name in a batch of one row. -/
theorem decode_error_of_entry [Libraries] (generated : target.generate version entry = .ok contract)
    (member : field ∈ entry.2.2.fields) {stream : Stream} {batch : RecordBatch} (isRow : stream.IsRow batch)
    {column : Column} (found : batch.column? field.name = some column)
    (refuses : ∀ slot ∈ column.slots, ∃ error, target.extractField field
      (fieldRow field column.field.type column.field.nullable column.field.metadata slot) = .error error) :
    ∃ error, contract.decode stream = .error error := by
  obtain ⟨-, named⟩ := RecordBatch.mem_of_column? found
  obtain ⟨made, rfl, alone | failed⟩ := extractField_of_column? target isRow.2 found
  · apply decode_error_of_field generated isRow member
    rw [alone, ofRow_eq_fieldRow made named]
    exact refuses made.slot List.mem_cons_self
  · exact decode_error_of_field generated isRow member failed

/-- Only one row is decoded. -/
theorem isRow_of_decode [Libraries] (generated : target.generate version entry = .ok contract)
    {stream : Stream} {record : List (String × target.Host)} (decoded : contract.decode stream = .ok record) :
    ∃ batch, stream.IsRow batch := by
  obtain ⟨cardinality, ⟨batch, isRow, -⟩ | ⟨-, error, failed, -⟩, check⟩ := check_eq generated stream
  · exact ⟨batch, isRow⟩
  · rw [Contract.decode, check, failed] at decoded
    cases decoded

/-! ## Nulls -/

/-- The columns that are declared for fields are of modelled types. -/
theorem isModelled_of_declared {ty : LaicType} (supported : Supported ty) {type : DataType}
    (declared : type.erase = ty.wireType) : type.isModelled = true := by
  cases type with
  | scalar | list | map => rfl
  | other name =>
    cases supported with
    | leaf leaf | optional leaf =>
      obtain ⟨scalar, leaf⟩ := LaicType.exists_leafScalar leaf.isLeaf
      cases type_of_leaf leaf declared
    | list | listOptional | optionalList | map => cases declared

/-- For each field the batch has a column of the declared type, apart from the names and the
nullability of children, under the declared metadata. -/
def Target.Conforms (target : Target) (fields : List FieldDef) (batch : RecordBatch) : Prop :=
  ∀ field ∈ fields, ∃ column, batch.column? field.name = some column ∧
    column.field.type.erase = (target.schemaField field).type.erase ∧
    ∀ key text, (target.schemaField field).metadata.lookup key = some text →
      column.field.metadata.lookup key = some text

/-- The column of that name is null. -/
def NullAt (batch : RecordBatch) (name : String) : Prop :=
  ∃ column, batch.column? name = some column ∧ ∀ slot ∈ column.slots, slot.valid = false

/-- The fields whose decoder cannot go on with a null: Python takes the values of a list of tensors
apart, TypeScript those of every list. -/
def Target.RejectsNull : Target → LaicType → Bool
  | .python, .list (.tensor _ _) | .typescript, .list _ => true
  | _, _ => false

/-- A row in which the field is null, and which is else as declared, is decoded to no record. -/
def RefusesNulls (target : Target) (version : String) (entry : SkillDef × String × StructDef)
    (contract : Contract target.Host) (field : FieldDef) : Prop :=
  ∀ stream batch, IsRowOf version entry stream batch → target.Conforms entry.2.2.fields batch →
    NullAt batch field.name → ∃ error, contract.decode stream = .error error

section Nulls

variable [Libraries] [LawfulLibraries] {type : DataType} {nullable : Bool} {metadata : List (String × String)}

/-- Everywhere else a null is read as a zero, something empty or the language's null. -/
theorem extracts_null (supported : Supported field.ty) (required : field.ty.isOptional = false)
    (declared : type.erase = field.ty.wireType) (passes : target.PassesTensorCheck field metadata)
    (accepts : target.RejectsNull field.ty = false) :
    ∃ object, target.extractField field (fieldRow field type nullable metadata (Slot.null type)) =
      .ok object := by
  have modelled := isModelled_of_declared supported declared
  have asNone : asPy type (Slot.null type) = some .none := asPy_null modelled rfl
  have asNull : jsGet type (Slot.null type) = some .null := jsGet_null modelled rfl
  generalize isType : field.ty = ty at supported required declared accepts
  cases supported with
  | optional | optionalList => cases required
  | leaf leaf =>
    obtain ⟨scalar, leaf⟩ := LaicType.exists_leafScalar leaf.isLeaf
    obtain rfl := type_of_leaf leaf declared
    cases target with
    | rust => exact ⟨_, rust_extract_leaf (isType ▸ leaf) _ passes⟩
    | python =>
      by_cases isScalar : field.ty.isScalar = true
      · rw [python_extract_scalar isScalar, isType, pyarrowType_of_leaf leaf, if_pos rfl, asNone]
        exact ⟨.none, rfl⟩
      · cases ty with
        | string | bytes | bool | i8 | i16 | i32 | i64 | u8 | f32 | f64 => exact absurd (isType ▸ rfl) isScalar
        | list | optional | map => cases leaf
        | tensor dtype dims =>
          rw [python_extract_tensor isType passes, asNone]
          exact ⟨.none, rfl⟩
    | typescript =>
      by_cases isScalar : field.ty.isScalar = true
      · rw [ts_extract_scalar isScalar, isType, tsArrowDatatype_of_leaf leaf, if_pos rfl, asNull]
        exact ⟨.null, rfl⟩
      · cases ty with
        | string | bytes | bool | i8 | i16 | i32 | i64 | u8 | f32 | f64 => exact absurd (isType ▸ rfl) isScalar
        | list | optional | map => cases leaf
        | tensor dtype dims =>
          rw [ts_extract_tensor isType passes, asNull]
          exact ⟨.null, rfl⟩
  | @list inner leaf =>
    obtain ⟨scalar, leaf⟩ := LaicType.exists_leafScalar leaf.isLeaf
    obtain ⟨itemName, itemNullable, rfl⟩ := type_of_list leaf declared
    cases target with
    | rust => exact ⟨_, rust_extract_list isType leaf _ passes⟩
    | python =>
      have notTensor : inner.tensorParams = none := by
        cases inner with
        | tensor => cases accepts
        | string | bytes | bool | i8 | i16 | i32 | i64 | u8 | f32 | f64 | list | optional | map => rfl
      rw [python_extract_list isType notTensor, asNone]
      exact ⟨.none, rfl⟩
    | typescript => cases accepts
  | listOptional leaf =>
    obtain ⟨scalar, leaf⟩ := LaicType.exists_leafScalar leaf.isLeaf
    obtain ⟨itemName, itemNullable, rfl⟩ := type_of_list leaf declared
    cases target with
    | rust => exact ⟨_, rust_extract_listOptional isType leaf _⟩
    | python =>
      rw [python_extract_list isType rfl, asNone]
      exact ⟨.none, rfl⟩
    | typescript => cases accepts
  | map isKey isScalar =>
    obtain ⟨keyScalar, valueScalar, keyLeaf, valueLeaf⟩ := LaicType.exists_mapScalars isKey isScalar
    obtain ⟨layout, rfl⟩ := type_of_map keyLeaf valueLeaf declared
    cases target with
    | rust => exact ⟨_, rust_extract_map isType keyLeaf valueLeaf _⟩
    | python => exact ⟨_, python_extract_map_null isType asNone⟩
    | typescript =>
      rw [ts_extract_map isType, asNull]
      exact ⟨.null, rfl⟩

theorem refuses_null (declared : type.erase = field.ty.wireType)
    (rejects : target.RejectsNull field.ty = true) {slot : Slot (Cell type)} (null : slot.valid = false) :
    ∃ error, target.extractField field (fieldRow field type nullable metadata slot) = .error error := by
  apply Except.exists_error_of_ne_ok
  intro object extracted
  have passes := passesTensorCheck_of_extracted extracted
  generalize isType : field.ty = ty at declared rejects
  cases target with
  | rust => cases rejects
  | python =>
    cases ty with
    | string | bytes | bool | i8 | i16 | i32 | i64 | u8 | f32 | f64 | tensor | optional | map => cases rejects
    | list inner =>
      cases inner with
      | string | bytes | bool | i8 | i16 | i32 | i64 | u8 | f32 | f64 | list | optional | map => cases rejects
      | tensor dtype dims =>
        -- there are no values to iterate over
        obtain ⟨itemName, itemNullable, item, rfl, -⟩ := exists_of_erase_list declared
        rw [python_extract_listTensor isType passes, pyListValues_null null] at extracted
        cases extracted
  | typescript =>
    cases ty with
    | string | bytes | bool | i8 | i16 | i32 | i64 | u8 | f32 | f64 | tensor | optional | map => cases rejects
    | list inner =>
      -- `Array.from(null)` throws
      obtain ⟨itemName, itemNullable, item, rfl, -⟩ := exists_of_erase_list declared
      rw [ts_extract_list isType passes, jsGet_null rfl null] at extracted
      cases extracted

end Nulls

/-- The sample around an entry that the target declares conforms. -/
theorem conforms_sampleRow {fields : List FieldDef} (nodup : (fields.map FieldDef.name).Nodup)
    (member : field ∈ fields) (slot : Slot (Cell (target.schemaField field).type)) :
    target.Conforms fields (RecordBatch.ofRow (sampleRow target fields (target.entryOf field slot))) := by
  have distinct := sampleRow_nodup target nodup (target.entryOf field slot)
  have declared {other : FieldDef} (made : Slot (Cell (target.schemaField other).type))
      (inRow : target.entryOf other made ∈ sampleRow target fields (target.entryOf field slot)) :
      ∃ column, (RecordBatch.ofRow (sampleRow target fields (target.entryOf field slot))).column? other.name =
          some column ∧
        column.field.type.erase = (target.schemaField other).type.erase ∧
        ∀ key text, (target.schemaField other).metadata.lookup key = some text →
          column.field.metadata.lookup key = some text := by
    have found := RecordBatch.column?_ofRow distinct inRow
    rw [show (target.entryOf other made).field.name = other.name from schemaField_name target other] at found
    exact ⟨_, found, rfl, fun _ _ same => same⟩
  intro other inStruct
  by_cases same : other.name = (target.schemaField field).name
  · have isField : other = field :=
      List.inj_on_of_nodup_map nodup inStruct member (same.trans (schemaField_name target field))
    subst isField
    exact declared slot (mem_sampleRow inStruct (schemaField_name target other))
  · exact declared _ (blank_mem_sampleRow inStruct same)

section Nulls

variable [Libraries] [LawfulLibraries]

/-- Where the null is read, the sample row around it is decoded. -/
theorem rejectsNull_of_refuses (generated : target.generate version entry = .ok contract)
    (supported : SupportedStruct entry.2.2) (inStruct : field ∈ entry.2.2.fields)
    (required : field.ty.isOptional = false) (refuses : RefusesNulls target version entry contract field) :
    target.RejectsNull field.ty = true := by
  by_contra accepts
  rw [Bool.not_eq_true] at accepts
  have declared := erase_schemaField target field
  let special := target.entryOf field (Slot.null _)
  have named : special.field.name = field.name := schemaField_name target field
  have extracts : ∃ object, target.extractField field (RecordBatch.ofRow [special]) = .ok object := by
    rw [extractField_entryOf]
    exact extracts_null (supported.supported field inStruct) required declared
      (passesTensorCheck_schemaField target target field) accepts
  obtain ⟨record, decoded⟩ := decode_sampleRow generated supported inStruct named extracts
  have nullAt : NullAt (RecordBatch.ofRow (sampleRow target entry.2.2.fields special)) field.name := by
    have found := RecordBatch.column?_ofRow (sampleRow_nodup target supported.names_nodup special)
      (mem_sampleRow inStruct named)
    rw [named] at found
    refine ⟨_, found, fun slot inColumn => ?_⟩
    rw [List.mem_singleton.mp inColumn]
    rfl
  obtain ⟨error, failed⟩ := refuses _ _ ⟨Stream.ofRow_isRow _ _, validateMetadata_self _ _ _⟩
    (conforms_sampleRow supported.names_nodup inStruct _) nullAt
  cases decoded.symm.trans failed

/-- In code that compiles from a file with safe names, a null in a required field is refused exactly
where the field is a list in TypeScript, or a list of tensors in Python. -/
theorem refusesNulls_iff {imports : List String} {source : String} {file : LaicFile}
    (accepted : compile source = .ok file) (member : entry ∈ file.structs) (target : Target)
    {contract : Contract target.Host} (provides : target.Provides imports file entry contract)
    (inStruct : field ∈ entry.2.2.fields) (required : field.ty.isOptional = false) :
    RefusesNulls target file.version entry contract field ↔ target.RejectsNull field.ty = true := by
  constructor
  · exact rejectsNull_of_refuses provides.generated (supportedStruct_of_compile accepted entry member) inStruct
      required
  · intro rejects stream batch isRowOf conforms nullAt
    obtain ⟨column, found, declared, -⟩ := conforms field inStruct
    obtain ⟨column', found', null⟩ := nullAt
    cases found.symm.trans found'
    rw [erase_schemaField] at declared
    exact decode_error_of_entry provides.generated inStruct isRowOf.isRow found fun slot inColumn =>
      refuses_null declared rejects (null slot inColumn)

end Nulls

section Reference

open Arrow.Reference

/-- A list of strings in TypeScript. -/
theorem refusesNulls_iff_strings :
    ∃ file, compile (skillSource "I" "x:list<string>;" "O" "y:bool;" "") = .ok file ∧
      ∃ entry ∈ file.structs, ∃ field ∈ entry.2.2.fields,
        RefusesNulls .typescript file.version entry
          (typescriptContract entry.2.2 (schemaMetadata entry.1.id file.version entry.2.1)) field := by
  obtain ⟨file, accepted, names, writes, entry, member, field, inStruct, isType⟩ :=
    exists_field_of_checks (skillSource "I" "x:list<string>;" "O" "y:bool;" "") .typescript (.list .string)
      (by decide) (by decide +kernel)
  refine ⟨file, accepted, entry, member, field, inStruct, ?_⟩
  have provides := (emits_typescript accepted names entry).provides accepted writes
  exact (refusesNulls_iff accepted member .typescript provides inStruct (by rw [isType]; rfl)).mpr
    (by rw [isType]; rfl)

/-- A null where Python expects a truth value is read as `None`. -/
theorem refusesNulls_counterexample :
    ¬ ∀ imports source file, compile source = .ok file → ∀ entry ∈ file.structs,
      ∀ (target : Target) (contract : Contract target.Host), target.Provides imports file entry contract →
        ∀ field ∈ entry.2.2.fields, field.ty.isOptional = false →
          RefusesNulls target file.version entry contract field := by
  intro all
  obtain ⟨file, accepted, names, writes, entry, member, field, inStruct, isType⟩ :=
    exists_field_of_checks (skillSource "I" "x:list<string>;" "O" "y:bool;" "") .python .bool
      (by decide) (by decide +kernel)
  have required : field.ty.isOptional = false := by rw [isType]; rfl
  have provides := (emits_python accepted names entry).provides accepted writes
  have refuses := all [] _ file accepted entry member .python _ provides field inStruct required
  have rejects := rejectsNull_of_refuses provides.generated (supportedStruct_of_compile accepted entry member)
    inStruct required refuses
  rw [isType] at rejects
  cases rejects

end Reference

/-! ## Data types -/

/-- The fields whose decoder compares the data type: in Rust by downcasts, which a null and the
order of map keys get around, in the other two for what is not nested. -/
def Target.ChecksType : Target → LaicType → Bool
  | .rust, .optional _ | .rust, .map _ _ => false
  | .rust, _ => true
  | .python, ty | .typescript, ty => ty.isScalar

/-- A row whose column for the field has another data type than declared, apart from the names and
the nullability of children, is decoded to no record. -/
def RefusesTypes (target : Target) (version : String) (entry : SkillDef × String × StructDef)
    (contract : Contract target.Host) (field : FieldDef) : Prop :=
  ∀ stream batch column, IsRowOf version entry stream batch → batch.column? field.name = some column →
    column.field.type.erase ≠ (target.schemaField field).type.erase →
    ∃ error, contract.decode stream = .error error

section Types

variable [Libraries] [LawfulLibraries] {type : DataType} {nullable : Bool}
  {metadata : List (String × String)} {inner : LaicType} {scalar : Scalar}

/-- A list that is none, or whose items are of another type, has no row to read. -/
theorem listValue_error (leaf : inner.leafScalar = some scalar)
    (different : type.erase ≠ (LaicType.list inner).wireType) (slot : Slot (Cell type)) {array : DynArray}
    (found : listValue field.name (fieldColumn field type nullable metadata slot).array = .ok array) :
    downcastScalar scalar array = none := by
  cases type with
  | scalar | map | other =>
    have notList : downcastList (fieldColumn field _ nullable metadata slot).array = none := by
      apply downcastList_ne
      intro itemName itemNullable item same
      cases same
    rw [listValue, notList] at found
    cases found
  | list itemName itemNullable item =>
    rw [listValue_list] at found
    cases found
    apply downcastScalar_ne
    rintro rfl
    apply different
    rw [LaicType.wireType, LaicType.wireType_of_leaf leaf]
    rfl

theorem refuses_type (supported : Supported field.ty) (checks : target.ChecksType field.ty = true)
    (different : type.erase ≠ field.ty.wireType) (slot : Slot (Cell type)) :
    ∃ error, target.extractField field (fieldRow field type nullable metadata slot) = .error error := by
  generalize isType : field.ty = ty at supported checks different
  cases target with
  | python =>
    have isScalar : field.ty.isScalar = true := isType ▸ checks
    rw [python_extract_scalar isScalar, if_neg]
    · exact ⟨_, rfl⟩
    · rintro rfl
      exact different (by rw [erase_pyarrowType, isType])
  | typescript =>
    have isScalar : field.ty.isScalar = true := isType ▸ checks
    rw [ts_extract_scalar isScalar, if_neg]
    · exact ⟨_, rfl⟩
    · rintro rfl
      exact different (by rw [erase_tsArrowDatatype, isType])
  | rust =>
    cases supported with
    | optional | optionalList | map => cases checks
    | leaf leaf =>
      obtain ⟨scalar, leaf⟩ := LaicType.exists_leafScalar leaf.isLeaf
      apply rust_extract_leaf_error (isType ▸ leaf)
      rintro rfl
      exact different (LaicType.wireType_of_leaf leaf).symm
    | @list inner leaf =>
      obtain ⟨scalar, leaf⟩ := LaicType.exists_leafScalar leaf.isLeaf
      obtain ⟨conversion, made⟩ := emitListExtraction_of_leaf leaf
      apply Except.exists_error_of_ne_ok
      intro object extracted
      simp only [Target.extractField, rustFieldExtraction, isType, made, Extraction.run, column?_fieldRow,
        Except.ofOption_some, Except.ok_bind] at extracted
      obtain ⟨array, found, extracted⟩ := Except.bind_eq_ok.mp extracted
      obtain ⟨_, -, extracted⟩ := Except.bind_eq_ok.mp extracted
      rw [listValue_error leaf different slot found] at extracted
      cases extracted
    | @listOptional inner leaf =>
      obtain ⟨scalar, leaf⟩ := LaicType.exists_leafScalar leaf.isLeaf
      apply Except.exists_error_of_ne_ok
      intro object extracted
      simp only [Target.extractField, rustFieldExtraction, isType, emitListExtraction,
        arrowArrayType_of_leaf leaf, Extraction.run, column?_fieldRow, Except.ofOption_some,
        Except.ok_bind] at extracted
      obtain ⟨array, found, extracted⟩ := Except.bind_eq_ok.mp extracted
      have different' : type.erase ≠ (LaicType.list inner).wireType := different
      rw [listValue_error leaf different' slot found] at extracted
      cases extracted

end Types

/-- Lists of lists, which no field is. -/
def nestedLists : DataType := .list "item" true (.list "item" true (.scalar .boolean))

/-- The empty list of lists. -/
def noLists : Slot (Cell nestedLists) := ⟨true, ([] : List _)⟩

theorem erase_nestedLists_ne {ty : LaicType} (supported : Supported ty) :
    nestedLists.erase ≠ ty.wireType := by
  intro same
  cases supported with
  | leaf leaf | optional leaf =>
    obtain ⟨scalar, leaf⟩ := LaicType.exists_leafScalar leaf.isLeaf
    cases type_of_leaf leaf same
  | list leaf | listOptional leaf | optionalList leaf =>
    obtain ⟨scalar, leaf⟩ := LaicType.exists_leafScalar leaf.isLeaf
    obtain ⟨itemName, itemNullable, impossible⟩ := type_of_list leaf same
    cases impossible
  | map => cases same

section Types

variable [Libraries] [LawfulLibraries]

/-- Where the data type is not compared, an entry of another one is read. -/
theorem exists_extracts_type (target : Target) (supported : Supported field.ty)
    (accepts : target.ChecksType field.ty = false) :
    ∃ (type : DataType) (slot : Slot (Cell type)), type.erase ≠ field.ty.wireType ∧
      ∃ object, target.extractField field
        (fieldRow field type true (target.schemaField field).metadata slot) = .ok object := by
  have passes := passesTensorCheck_schemaField target target field
  have asList : asPy nestedLists noLists = some (.list []) := asPy_list rfl
  have asVector : jsGet nestedLists noLists = some (.vector []) := jsGet_list rfl
  generalize isType : field.ty = ty at supported accepts
  cases target with
  | rust =>
    have null := isNull_fieldColumn field true (Target.rust.schemaField field).metadata
      (Slot.null nestedLists) rfl
    cases supported with
    | list | listOptional => cases accepts
    | leaf leaf =>
      have notLeaf := leaf.isLeaf
      cases ty with
      | list | optional | map => cases notLeaf
      | string | bytes | bool | i8 | i16 | i32 | i64 | u8 | f32 | f64 | tensor => cases accepts
    | optional leaf =>
      refine ⟨nestedLists, Slot.null _, erase_nestedLists_ne (.optional leaf), ?_⟩
      obtain ⟨scalar, leaf⟩ := LaicType.exists_leafScalar leaf.isLeaf
      exact ⟨_, rust_extract_optional_null isType leaf null passes⟩
    | optionalList leaf =>
      refine ⟨nestedLists, Slot.null _, erase_nestedLists_ne (.optionalList leaf), ?_⟩
      obtain ⟨scalar, leaf⟩ := LaicType.exists_leafScalar leaf.isLeaf
      exact ⟨_, rust_extract_optionalList_null isType leaf null⟩
    | map isKey isScalar =>
      obtain ⟨keyScalar, valueScalar, keyLeaf, valueLeaf⟩ := LaicType.exists_mapScalars isKey isScalar
      -- the same map with sorted keys
      refine ⟨.map Target.rust.mapLayout true (.scalar keyScalar) (.scalar valueScalar), Slot.null _, ?_,
        _, rust_extract_map isType keyLeaf valueLeaf _⟩
      intro same
      cases same
  | python =>
    refine ⟨nestedLists, noLists, erase_nestedLists_ne supported, ?_⟩
    cases supported with
    | leaf leaf =>
      have notLeaf := leaf.isLeaf
      cases ty with
      | list | optional | map => cases notLeaf
      | string | bytes | bool | i8 | i16 | i32 | i64 | u8 | f32 | f64 => cases accepts
      | tensor =>
        rw [python_extract_tensor isType passes, asList]
        exact ⟨.list [], rfl⟩
    | @list inner leaf =>
      have notLeaf := leaf.isLeaf
      cases inner with
      | list | optional | map => cases notLeaf
      | string | bytes | bool | i8 | i16 | i32 | i64 | u8 | f32 | f64 =>
        rw [python_extract_list isType rfl, asList]
        exact ⟨.list [], rfl⟩
      | tensor =>
        have values : pyListValues nestedLists noLists = some [] := pyListValues_list rfl
        rw [python_extract_listTensor isType passes, values]
        exact ⟨.list [], rfl⟩
    | listOptional =>
      rw [python_extract_list isType rfl, asList]
      exact ⟨.list [], rfl⟩
    | optional | optionalList =>
      have valid : pyIsValid nestedLists noLists = true := pyIsValid_eq rfl noLists
      rw [python_extract_optional isType passes, valid, if_pos rfl, asList]
      exact ⟨.list [], rfl⟩
    | map =>
      rw [python_extract_map_list isType asList]
      exact ⟨.dict [], rfl⟩
  | typescript =>
    refine ⟨nestedLists, noLists, erase_nestedLists_ne supported, ?_⟩
    cases supported with
    | leaf leaf =>
      have notLeaf := leaf.isLeaf
      cases ty with
      | list | optional | map => cases notLeaf
      | string | bytes | bool | i8 | i16 | i32 | i64 | u8 | f32 | f64 => cases accepts
      | tensor =>
        rw [ts_extract_tensor isType passes, asVector]
        exact ⟨.vector [], rfl⟩
    | list | listOptional =>
      rw [ts_extract_list isType passes, asVector]
      exact ⟨.array [], rfl⟩
    | optional | optionalList =>
      have valid : jsIsValid nestedLists noLists = true := jsIsValid_eq rfl noLists
      rw [ts_extract_optional isType passes, valid, if_pos rfl, asVector]
      exact ⟨.vector [], rfl⟩
    | map =>
      rw [ts_extract_map isType, asVector]
      exact ⟨.vector [], rfl⟩

theorem checksType_of_refuses (generated : target.generate version entry = .ok contract)
    (supported : SupportedStruct entry.2.2) (inStruct : field ∈ entry.2.2.fields)
    (refuses : RefusesTypes target version entry contract field) : target.ChecksType field.ty = true := by
  by_contra accepts
  rw [Bool.not_eq_true] at accepts
  obtain ⟨type, slot, different, extracts⟩ :=
    exists_extracts_type target (supported.supported field inStruct) accepts
  let special : Entry := ⟨⟨field.name, type, true, (target.schemaField field).metadata⟩, slot⟩
  have named : special.field.name = field.name := rfl
  have found := RecordBatch.column?_ofRow (sampleRow_nodup target supported.names_nodup special)
    (mem_sampleRow inStruct named)
  obtain ⟨record, decoded⟩ := decode_sampleRow generated supported inStruct named extracts
  obtain ⟨error, failed⟩ := refuses _ _ _ ⟨Stream.ofRow_isRow _ _, validateMetadata_self _ _ _⟩ found
    (by rwa [erase_schemaField])
  cases decoded.symm.trans failed

/-- In code that compiles from a file with safe names, a column of another data type is refused exactly
in Rust where the field is neither optional nor a map, and in Python and TypeScript where it is a
scalar, a string or bytes. -/
theorem refusesTypes_iff {imports : List String} {source : String} {file : LaicFile}
    (accepted : compile source = .ok file) (member : entry ∈ file.structs) (target : Target)
    {contract : Contract target.Host} (provides : target.Provides imports file entry contract)
    (inStruct : field ∈ entry.2.2.fields) :
    RefusesTypes target file.version entry contract field ↔ target.ChecksType field.ty = true := by
  have supported := supportedStruct_of_compile accepted entry member
  constructor
  · exact checksType_of_refuses provides.generated supported inStruct
  · intro checks stream batch column isRowOf found different
    rw [erase_schemaField] at different
    exact decode_error_of_entry provides.generated inStruct isRowOf.isRow found fun slot _ =>
      refuses_type (supported.supported field inStruct) checks different slot

end Types

section Reference

open Arrow.Reference

/-- A truth value in Python. -/
theorem refusesTypes_iff_bool :
    ∃ file, compile (skillSource "I" "x:tensor<f32>[2];" "O" "y:bool;" "") = .ok file ∧
      ∃ entry ∈ file.structs, ∃ field ∈ entry.2.2.fields,
        RefusesTypes .python file.version entry
          (pythonContract entry.2.2 (schemaMetadata entry.1.id file.version entry.2.1)) field := by
  obtain ⟨file, accepted, names, writes, entry, member, field, inStruct, isType⟩ :=
    exists_field_of_checks (skillSource "I" "x:tensor<f32>[2];" "O" "y:bool;" "") .python .bool
      (by decide) (by decide +kernel)
  refine ⟨file, accepted, entry, member, field, inStruct, ?_⟩
  have provides := (emits_python accepted names entry).provides accepted writes
  exact (refusesTypes_iff accepted member .python provides inStruct).mpr (by rw [isType]; rfl)

/-- Python reads lists of lists for a tensor. -/
theorem refusesTypes_counterexample :
    ¬ ∀ imports source file, compile source = .ok file → ∀ entry ∈ file.structs,
      ∀ (target : Target) (contract : Contract target.Host), target.Provides imports file entry contract →
        ∀ field ∈ entry.2.2.fields, RefusesTypes target file.version entry contract field := by
  intro all
  obtain ⟨file, accepted, names, writes, entry, member, field, inStruct, isType⟩ :=
    exists_field_of_checks (skillSource "I" "x:tensor<f32>[2];" "O" "y:bool;" "") .python
      (.tensor .f32 [.fixed 2]) (by decide) (by decide +kernel)
  have provides := (emits_python accepted names entry).provides accepted writes
  have refuses := all [] _ file accepted entry member .python _ provides field inStruct
  have checks := checksType_of_refuses provides.generated (supportedStruct_of_compile accepted entry member)
    inStruct refuses
  rw [isType] at checks
  cases checks

end Reference

end Laic
