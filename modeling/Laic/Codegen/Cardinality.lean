import Laic.Codegen.Contract
import Laic.Error
import Laic.Lib.ArrowReference

/-! # One batch of one row

The generated decoders take streams of one batch that has one row.  Two of them pull batches
until they have seen enough, the third counts the rows of the whole table before it counts its
batches; the codec of the runtime pulls batches too and never looks at their rows. -/

namespace Laic

open Arrow
open Except (ensure ofOption)

/-! ## The codec of the runtime -/

/-- What the reader of a stream gives: an error where opening fails, else the results of one
`next` after another. -/
abbrev OpenedReader := Except String (List (Except String RecordBatch))

/-- The reader of a well-formed stream. -/
def openStream (stream : Stream) : OpenedReader := .ok (stream.batches.map .ok)

def arrowDecode (detail : String) : LaicError := .codec (.arrowDecode detail)

def decodeRecordBatch (opened : OpenedReader) : Except LaicError RecordBatch := do
  let reader ← opened.mapError arrowDecode
  let next ← ofOption (arrowDecode "expected 1 record batch, got 0") reader.head?
  let first ← next.mapError arrowDecode
  match reader.tail.head? with
  | none => .ok first
  | some (.ok _) => .error (arrowDecode "expected 1 record batch, got >1")
  | some (.error detail) => .error (arrowDecode detail)

/-- The runtime takes the streams of one batch. -/
theorem decodeRecordBatch_eq_ok {stream : Stream} {batch : RecordBatch} :
    decodeRecordBatch (openStream stream) = .ok batch ↔ stream.batches = [batch] := by
  rw [decodeRecordBatch, openStream]
  cases stream.batches with
  | nil => simp
  | cons first trailing =>
    cases trailing with
    | nil => simp
    | cons second trailing => simp

/-! ## The generated decoders -/

/-- The checks of the schema metadata stand behind those of cardinality. -/
def DecodeError.isMetadata : DecodeError → Bool
  | .missingMetadata _ | .metadataMismatch _ _ _ => true
  | _ => false

/-- Cardinality does not stop the decoder: if anything does in front of the fields, it is the
metadata. -/
def PassesCardinality {host : Type} (contract : Contract host) (stream : Stream) : Prop :=
  ∀ error, contract.check stream = .error error → error.isMetadata = true

/-- The stream is one batch of one row. -/
def IsOneRecord (stream : Stream) : Prop := ∃ batch, stream.IsRow batch

theorem validateMetadata_isMetadata {metadata expected : List (String × String)}
    {error : DecodeError} (failed : validateMetadata metadata expected = .error error) :
    error.isMetadata = true := by
  induction expected with
  | nil => cases failed
  | cons entry expected ih =>
    obtain ⟨key, value⟩ := entry
    rw [validateMetadata] at failed
    cases found : metadata.lookup key with
    | none =>
      rw [found] at failed
      cases failed
      rfl
    | some actual =>
      by_cases same : actual = value
      · simp only [found, if_pos same] at failed
        exact ih failed
      · simp only [found, if_neg same] at failed
        cases failed
        rfl

/-- Pulling batches one by one passes one batch of one row, and fails on the rest with an error
that is not about metadata. -/
theorem singleBatch_cases {empty : DecodeError} (notMetadata : empty.isMetadata = false)
    (stream : Stream) :
    (∃ batch, stream.IsRow batch ∧ singleBatch empty stream = .ok batch) ∨
      ¬ IsOneRecord stream ∧ ∃ error, singleBatch empty stream = .error error ∧
        error.isMetadata = false := by
  rw [singleBatch, IsOneRecord]
  simp only [Stream.IsRow]
  cases stream.batches with
  | nil => exact .inr ⟨by simp, empty, rfl, notMetadata⟩
  | cons batch trailing =>
    by_cases noRows : batch.numRows = 0
    · exact .inr ⟨by simp [noRows], .cardinality 0, by simp [ensure, noRows], rfl⟩
    · by_cases manyRows : 1 < batch.numRows
      · refine .inr ⟨by simp [Nat.ne_of_gt manyRows], .cardinality batch.numRows, ?_, rfl⟩
        simp [ensure, noRows, Nat.not_le.mpr manyRows]
      · have oneRow : batch.numRows = 1 := by omega
        cases trailing with
        | nil => exact .inl ⟨batch, ⟨rfl, oneRow⟩, by simp [ensure, oneRow]⟩
        | cons second trailing =>
          exact .inr ⟨by simp, .trailingBatch, by simp [ensure, oneRow], rfl⟩

/-- So does counting the rows of all batches first: an empty batch beside the one row is found
by the count of the batches. -/
theorem tsSingleBatch_cases (stream : Stream) :
    (∃ batch, stream.IsRow batch ∧ tsSingleBatch stream = .ok batch) ∨
      ¬ IsOneRecord stream ∧ ∃ error, tsSingleBatch stream = .error error ∧
        error.isMetadata = false := by
  rw [tsSingleBatch, IsOneRecord]
  simp only [Stream.IsRow]
  generalize total : stream.batches.foldl (fun rows batch => rows + batch.numRows) 0 = numRows
  have oneRecord {batch : RecordBatch} (single : stream.batches = [batch]) :
      batch.numRows = numRows := by
    rw [single] at total
    simpa using total
  by_cases noRows : numRows = 0
  · refine .inr ⟨?_, .cardinality 0, by simp [ensure, noRows], rfl⟩
    rintro ⟨batch, single, one⟩
    have := oneRecord single
    omega
  · by_cases manyRows : 1 < numRows
    · refine .inr ⟨?_, .cardinality numRows, by simp [ensure, noRows, Nat.not_le.mpr manyRows], rfl⟩
      rintro ⟨batch, single, one⟩
      have := oneRecord single
      omega
    · have oneRow : numRows = 1 := by omega
      cases batches : stream.batches with
      | nil =>
        rw [batches] at total
        exact absurd total.symm noRows
      | cons batch trailing =>
        cases trailing with
        | nil => exact .inl ⟨batch, ⟨rfl, (oneRecord batches).trans oneRow⟩, by simp [ensure, oneRow]⟩
        | cons second trailing =>
          exact .inr ⟨by simp, .trailingBatch, by simp [ensure, oneRow], rfl⟩

section Libraries

variable [Libraries]

/-- The decoder of every target starts with one of the two. -/
theorem check_eq {target : Target} {version : String} {entry : SkillDef × String × StructDef}
    {contract : Contract target.Host} (generated : target.generate version entry = .ok contract)
    (stream : Stream) :
    ∃ cardinality : Except DecodeError RecordBatch,
      ((∃ batch, stream.IsRow batch ∧ cardinality = .ok batch) ∨
        ¬ IsOneRecord stream ∧ ∃ error, cardinality = .error error ∧ error.isMetadata = false) ∧
      contract.check stream = (do
        let batch ← cardinality
        validateMetadata stream.metadata (schemaMetadata entry.1.id version entry.2.1)
        .ok batch) := by
  cases target with
  | rust =>
    simp only [Target.generate, Except.bind_eq_ok] at generated
    obtain ⟨code, -, same⟩ := generated
    cases same
    exact ⟨_, singleBatch_cases rfl stream, rfl⟩
  | python =>
    cases generated
    exact ⟨_, singleBatch_cases rfl stream, rfl⟩
  | typescript =>
    cases generated
    exact ⟨_, tsSingleBatch_cases stream, rfl⟩

theorem passesCardinality_iff {target : Target} {version : String}
    {entry : SkillDef × String × StructDef} {contract : Contract target.Host}
    (generated : target.generate version entry = .ok contract) (stream : Stream) :
    PassesCardinality contract stream ↔ IsOneRecord stream := by
  obtain ⟨cardinality, cases, check⟩ := check_eq generated stream
  rw [PassesCardinality, check]
  obtain ⟨batch, isRow, rfl⟩ | ⟨notOne, error, rfl, notMetadata⟩ := cases
  · refine iff_of_true (fun error failed => ?_) ⟨batch, isRow⟩
    rw [Except.ok_bind] at failed
    obtain metadata | ⟨_, _, impossible⟩ := Except.bind_eq_error.mp failed
    · exact validateMetadata_isMetadata metadata
    · cases impossible
  · refine iff_of_false (fun passes => ?_) notOne
    rw [passes error rfl] at notMetadata
    cases notMetadata

/-- All decoders ask for one batch of one row, and the codec of the runtime for one batch. -/
theorem cardinality_agrees (target : Target) (version : String)
    (entry : SkillDef × String × StructDef) (contract : Contract target.Host)
    (generated : target.generate version entry = .ok contract) (stream : Stream) :
    (PassesCardinality contract stream ↔
      ∃ batch, stream.batches = [batch] ∧ batch.numRows = 1) ∧
    ∀ batch, decodeRecordBatch (openStream stream) = .ok batch ↔ stream.batches = [batch] :=
  ⟨passesCardinality_iff generated stream, fun _ => decodeRecordBatch_eq_ok⟩

end Libraries

open Arrow.Reference

/-- One row and an empty batch behind it. -/
theorem cardinality_agrees_trailing :
    let stream : Arrow.Stream := ⟨[], [], [⟨1, [], by simp⟩, ⟨0, [], by simp⟩], by simp⟩
    ¬ PassesCardinality (typescriptContract ⟨"O", []⟩ (schemaMetadata "a" "1" "output")) stream := by
  intro stream passes
  let skill : SkillDef := ⟨"A", "a", ⟨"I", []⟩, ⟨"O", []⟩, []⟩
  obtain ⟨batch, single, -⟩ :=
    (cardinality_agrees .typescript "1" (skill, "output", skill.output) _ rfl stream).1.mp passes
  cases single

end Laic
