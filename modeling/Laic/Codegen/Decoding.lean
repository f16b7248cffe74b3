import Laic.Codegen.Cardinality
import Laic.Codegen.Shapes
import Laic.Codegen.Totality

/-! # Decoding field by field

Behind the checks of cardinality and metadata a decoder is its extractions, and each of these
sees only the column of its own field.  A row is therefore decoded where every one of its
entries is, and what an extraction does is said on one entry. -/

namespace Laic

open Arrow
open Except (ofOption)

/-! ## The column of a field -/

section Columns

variable {batch : RecordBatch}

/-- The batch has one column of this name. -/
def SoleColumn (batch : RecordBatch) (name : String) (column : Column) : Prop :=
  (batch.columns.filter fun other => other.field.name == name) = [column]

theorem SoleColumn.column? {name : String} {column : Column} (sole : SoleColumn batch name column) :
    batch.column? name = some column := by
  rw [RecordBatch.column?, ← List.head?_filter, sole]
  rfl

theorem SoleColumn.pythonBatchColumn {name : String} {column : Column}
    (sole : SoleColumn batch name column) : pythonBatchColumn name batch = .ok column := by
  rw [Laic.pythonBatchColumn, sole]

/-- Python reads the first column of the name or raises. -/
theorem pythonBatchColumn_of_column? {name : String} {column : Column}
    (found : batch.column? name = some column) :
    SoleColumn batch name column ∨ pythonBatchColumn name batch = .error (.host name) := by
  rw [RecordBatch.column?, ← List.head?_filter] at found
  rw [SoleColumn, pythonBatchColumn]
  cases columns : batch.columns.filter fun other => other.field.name == name with
  | nil =>
    rw [columns] at found
    cases found
  | cons first others =>
    rw [columns] at found
    cases found
    cases others with
    | nil => exact .inl rfl
    | cons second others => exact .inr rfl

theorem soleColumn_ofRow {entries : List Entry} {entry : Entry}
    (distinct : (entries.map fun e => e.field.name).Nodup) (member : entry ∈ entries) :
    SoleColumn (RecordBatch.ofRow entries) entry.field.name entry.column := by
  have keeps : ∀ others : List Entry, entry.field.name ∉ others.map (fun e => e.field.name) →
      (others.map Entry.column).filter (fun other => other.field.name == entry.field.name) = [] := by
    intro others absent
    rw [List.filter_eq_nil_iff]
    intro column isColumn
    obtain ⟨other, inOthers, rfl⟩ := List.mem_map.mp isColumn
    simp only [Entry.column, beq_iff_eq]
    intro same
    exact absent (List.mem_map.mpr ⟨other, inOthers, same⟩)
  induction entries with
  | nil => cases member
  | cons head entries ih =>
    simp only [List.map_cons, List.nodup_cons] at distinct
    show ((head :: entries).map Entry.column).filter _ = _
    rw [List.map_cons]
    obtain rfl | later := List.mem_cons.mp member
    · rw [List.filter_cons_of_pos (by simp [Entry.column]), keeps entries distinct.1]
    · have different : head.field.name ≠ entry.field.name := by
        intro same
        exact distinct.1 (List.mem_map.mpr ⟨entry, later, same.symm⟩)
      rw [List.filter_cons_of_neg (by simpa [Entry.column] using different)]
      exact ih distinct.2 later

theorem soleColumn_ofEntry (entry : Entry) :
    SoleColumn (RecordBatch.ofRow [entry]) entry.field.name entry.column :=
  soleColumn_ofRow (by simp) List.mem_cons_self

/-- In a batch of one row every column is an entry's. -/
theorem exists_entry (oneRow : batch.numRows = 1) {column : Column} (member : column ∈ batch.columns) :
    ∃ entry : Entry, entry.column = column := by
  obtain ⟨slot, slots⟩ := RecordBatch.column_slots oneRow member
  refine ⟨⟨column.field, slot⟩, ?_⟩
  cases column with
  | mk wireField all => exact congrArg (Column.mk wireField) slots.symm

end Columns

/-! ## Decoders as their extractions -/

variable [Libraries]

/-- What the decoder of a target extracts for a field. -/
def Target.extractField (field : FieldDef) (batch : RecordBatch) :
    (target : Target) → Except DecodeError target.Host
  | .rust =>
    match rustFieldExtraction field with
    | .ok extraction => extraction.run field.name batch
    | .error _ => .error .doesNotCompile
  | .python => pythonFieldExtraction field batch
  | .typescript => tsFieldExtraction field batch

/-- The extractions that were generated run as those of their fields. -/
theorem mapM_run_eq {fields : List FieldDef} {extractions : List (FieldDef × Extraction)}
    (generated : (fields.mapM fun field => (do
      let extraction ← rustFieldExtraction field
      .ok (field, extraction) : Except String (FieldDef × Extraction))) = .ok extractions)
    (batch : RecordBatch) :
    (extractions.mapM fun extraction => (do
        let value ← extraction.2.run extraction.1.name batch
        .ok (extraction.1.name, value) : Except DecodeError (String × RustValue))) =
      extractFields (fun field batch => Target.rust.extractField field batch) fields batch := by
  induction fields generalizing extractions with
  | nil =>
    cases generated
    rfl
  | cons field fields ih =>
    simp only [List.mapM_cons, Except.bind_eq_ok] at generated
    obtain ⟨_, ⟨extraction, made, same⟩, rest, others, whole⟩ := generated
    cases same
    cases whole
    have first : Target.rust.extractField field batch = extraction.run field.name batch := by
      simp only [Target.extractField, made]
    have tail := ih others
    rw [extractFields] at tail
    rw [extractFields, List.mapM_cons, List.mapM_cons, tail, first]

variable {target : Target} {version : String} {entry : SkillDef × String × StructDef}
  {contract : Contract target.Host} {stream : Stream} {batch : RecordBatch}

theorem extract_eq (generated : target.generate version entry = .ok contract) (batch : RecordBatch) :
    contract.extract batch =
      extractFields (fun field batch => target.extractField field batch) entry.2.2.fields batch := by
  cases target with
  | rust =>
    simp only [Target.generate, generateStruct, Except.bind_eq_ok] at generated
    obtain ⟨_, ⟨columns, -, extractions, made, same⟩, same'⟩ := generated
    cases same
    cases same'
    exact mapM_run_eq made batch
  | python | typescript =>
    cases generated
    rfl

/-- The decoder of a row checks the metadata and extracts the fields. -/
theorem decode_isRow (generated : target.generate version entry = .ok contract)
    (isRow : stream.IsRow batch) :
    contract.decode stream = (do
      validateMetadata stream.metadata (schemaMetadata entry.1.id version entry.2.1)
      extractFields (fun field batch => target.extractField field batch) entry.2.2.fields batch) := by
  obtain ⟨cardinality, cases, check⟩ := check_eq generated stream
  obtain ⟨batch', isRow', rfl⟩ | ⟨notOne, -⟩ := cases
  · have same : batch' = batch := by
      have single := isRow'.1.symm.trans isRow.1
      exact (List.cons.inj single).1
    subst same
    rw [Contract.decode, check, ← extract_eq generated, Except.ok_bind]
    cases validateMetadata stream.metadata (schemaMetadata entry.1.id version entry.2.1) <;> rfl
  · exact absurd ⟨batch, isRow⟩ notOne

/-- One extraction that fails makes the decoder fail. -/
theorem decode_error_of_field (generated : target.generate version entry = .ok contract)
    (isRow : stream.IsRow batch) {field : FieldDef} (member : field ∈ entry.2.2.fields)
    (fails : ∃ error, target.extractField field batch = .error error) :
    ∃ error, contract.decode stream = .error error := by
  apply Except.exists_error_of_ne_ok
  intro record decoded
  rw [decode_isRow generated isRow, Except.bind_eq_ok] at decoded
  obtain ⟨_, -, extracted⟩ := decoded
  obtain ⟨value, ok⟩ := Except.exists_mapM_eq_ok.mp ⟨record, extracted⟩ field member
  obtain ⟨object, found, -⟩ := Except.bind_eq_ok.mp ok
  obtain ⟨error, failed⟩ := fails
  cases failed.symm.trans found

/-- Where the metadata is the struct's and every extraction succeeds the decoder does. -/
theorem decode_ok_of_fields (generated : target.generate version entry = .ok contract)
    (isRow : stream.IsRow batch)
    (identified : validateMetadata stream.metadata (schemaMetadata entry.1.id version entry.2.1) = .ok ())
    (extracts : ∀ field ∈ entry.2.2.fields, ∃ value, target.extractField field batch = .ok value) :
    ∃ record, contract.decode stream = .ok record := by
  rw [decode_isRow generated isRow, identified]
  refine Except.exists_mapM_eq_ok.mpr fun field member => ?_
  obtain ⟨value, extracted⟩ := extracts field member
  exact ⟨(field.name, value), by simp only [extracted, Except.ok_bind]⟩

/-! ## Rows -/

/-- An extraction sees the column of its field only. -/
theorem extractField_congr {batch' : RecordBatch} (field : FieldDef)
    (first : batch.column? field.name = batch'.column? field.name)
    (sole : target = .python →
      pythonBatchColumn field.name batch = pythonBatchColumn field.name batch') :
    target.extractField field batch = target.extractField field batch' := by
  cases target with
  | rust =>
    have checks (tensor : Option (TensorElementType × List Dimension)) :
        rustTensorCheck? field.name batch tensor = rustTensorCheck? field.name batch' tensor := by
      cases tensor with
      | none => rfl
      | some params => simp only [rustTensorCheck?, rustTensorCheck, first]
    simp only [Target.extractField]
    cases rustFieldExtraction field with
    | error error => rfl
    | ok extraction =>
      cases extraction <;> simp only [Extraction.run, rustTensorCheck, checks, first]
  | python =>
    simp only [Target.extractField, pythonFieldExtraction, pythonTensorExtraction, pythonListExtraction,
      pythonOptionalExtraction, pythonOptionalElement, pythonMapExtraction, pythonScalarExtraction,
      pythonTensorCheck, sole rfl]
  | typescript =>
    simp only [Target.extractField, tsFieldExtraction, tsTensorExtraction, tsListExtraction,
      tsListElement, tsOptionalExtraction, tsOptionalElement, tsMapExtraction, tsScalarExtraction,
      laicAssertTensorMetadata, first]

/-- In a row a field is read as if its column were alone. -/
theorem extractField_ofRow {entries : List Entry} {field : FieldDef} {entry : Entry}
    (distinct : (entries.map fun e => e.field.name).Nodup) (member : entry ∈ entries)
    (named : entry.field.name = field.name) :
    target.extractField field (RecordBatch.ofRow entries) =
      target.extractField field (RecordBatch.ofRow [entry]) := by
  have inRow := soleColumn_ofRow distinct member
  have alone := soleColumn_ofEntry entry
  rw [named] at inRow alone
  apply extractField_congr
  · rw [inRow.column?, alone.column?]
  · intro _
    rw [inRow.pythonBatchColumn, alone.pythonBatchColumn]

/-- In any batch of one row a field is read from the first column of its name, as if that were
alone, or not at all. -/
theorem extractField_of_column? (target : Target) (oneRow : batch.numRows = 1) {field : FieldDef} {column : Column}
    (found : batch.column? field.name = some column) :
    ∃ entry : Entry, entry.column = column ∧
      (target.extractField field batch = target.extractField field (RecordBatch.ofRow [entry]) ∨
        ∃ error, target.extractField field batch = .error error) := by
  obtain ⟨inBatch, named⟩ := RecordBatch.mem_of_column? found
  obtain ⟨entry, rfl⟩ := exists_entry oneRow inBatch
  have alone := soleColumn_ofEntry entry
  rw [show entry.field.name = field.name from named] at alone
  refine ⟨entry, rfl, ?_⟩
  have first : batch.column? field.name = (RecordBatch.ofRow [entry]).column? field.name := by
    rw [found, alone.column?]
  by_cases python : target = .python
  · subst python
    obtain sole | twice := pythonBatchColumn_of_column? found
    · apply Or.inl
      apply extractField_congr field first
      intro _
      rw [sole.pythonBatchColumn, alone.pythonBatchColumn]
    · -- the name stands twice
      refine .inr ⟨.host field.name, ?_⟩
      cases ty : field.ty with
      | tensor =>
        simp only [Target.extractField, pythonFieldExtraction, ty, pythonTensorExtraction, twice,
          Except.error_bind]
      | map =>
        simp only [Target.extractField, pythonFieldExtraction, ty, pythonMapExtraction, twice,
          Except.error_bind]
      | list inner =>
        cases inner <;>
          simp only [Target.extractField, pythonFieldExtraction, ty, pythonListExtraction,
            pythonTensorCheck, twice, Except.error_bind]
      | optional inner =>
        cases inner <;>
          simp only [Target.extractField, pythonFieldExtraction, ty, pythonOptionalExtraction,
            pythonOptionalElement, pythonTensorCheck, twice, Except.error_bind]
      | string | bytes | bool | i8 | i16 | i32 | i64 | u8 | f32 | f64 =>
        simp only [Target.extractField, pythonFieldExtraction, ty, pythonScalarExtraction, twice]
  · exact .inl (extractField_congr field first fun same => absurd same python)

end Laic
