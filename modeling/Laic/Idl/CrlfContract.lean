import Laic.Idl.Language

/-! # One contract under both line ends

The contracts of a source, as layouts of a well-formed file, and the sources that mean something else
once every LF is a CRLF. -/

namespace Laic

open Peg LineEnding

/-- The source is laid out from the file, whose numbers fit and whose tree is well formed. -/
structure IsContract (source : String) (file : FileSyntax) : Prop where
  layout : LaidOut source file
  inRange : file.inRange
  wellFormed : file.value.WellFormed

theorem IsContract.compile_eq {source : String} {file : FileSyntax} (contract : IsContract source file) :
    compile source = .ok file.value :=
  compile_eq_ok_iff.mpr
    ⟨(parse_of_laidOut contract.layout).eq_ok contract.inRange, validate_eq_ok.mpr contract.wellFormed⟩

/-- What the grammar does not match is rejected. -/
theorem compile_of_unmatched {source : String} (fails : Grammar.file source.toList = none) :
    compile source = .error .unmatched := by
  rw [compile, parse, fails]
  rfl

section Matched

variable {source : String} {file other : FileSyntax}

theorem isContract_iff (original : ParsesAs source file) :
    IsContract source file ↔ file.inRange ∧ validate file.value = .ok () := by
  constructor
  · intro contract
    exact ⟨contract.inRange, validate_eq_ok.mpr contract.wellFormed⟩
  · intro parts
    exact ⟨original.reads, parts.1, validate_eq_ok.mp parts.2⟩

/-- The file of a contract is determined as far as its tree. -/
theorem IsContract.value_eq (contract : IsContract source file) (contract' : IsContract source other) :
    other.value = file.value := by
  have accepted := contract'.compile_eq
  rw [contract.compile_eq] at accepted
  exact (Except.ok.inj accepted).symm

theorem IsContract.oneLineIdentity_iff (contract : IsContract source file)
    (contract' : IsContract source other) : other.OneLineIdentity ↔ file.OneLineIdentity := by
  rw [← other.mapIdentity_eq_iff, ← file.mapIdentity_eq_iff, contract.value_eq contract']

/-- What the converted source is compiled to, if anything. -/
theorem compile_crlfText_iff (noCr : '\r' ∉ source.toList) (original : ParsesAs source file)
    (converted : ParsesAs (crlfText source) (file.convert crlf)) {tree : LaicFile} :
    compile (crlfText source) = .ok tree ↔
      file.inRange ∧ validate file.value = .ok () ∧ tree = file.value.mapIdentity crlfText := by
  have value : (file.convert crlf).value = file.value.mapIdentity crlfText :=
    FileSyntax.value_convert fun token member inside => noCr (original.reads.mem member inside)
  rw [converted.compile_eq_ok_iff]
  show (file.convert crlf).inRange ∧ validate (file.convert crlf).value = .ok () ∧
    tree = (file.convert crlf).value ↔ _
  rw [file.inRange_convert, value, validate_mapIdentity crlfText_injective crlfText_eq_empty file.value]

/-- Both sources of a contract are accepted, and alike exactly if its identity stands on one line. -/
theorem IsContract.sameContract_iff (contract : IsContract source file)
    (converted : compile (crlfText source) = .ok (file.value.mapIdentity crlfText)) :
    SameContract source (crlfText source) ↔ file.OneLineIdentity := by
  have first := contract.compile_eq
  rw [← file.mapIdentity_eq_iff]
  constructor
  · rintro (⟨error, _, fails, _⟩ | ⟨tree, accepted, accepted'⟩)
    · cases first.symm.trans fails
    · cases first.symm.trans accepted
      exact Except.ok.inj (converted.symm.trans accepted')
  · intro same
    exact .inr ⟨_, first, by rw [converted, same]⟩

end Matched

/-- The two sources make the same contract unless the version or an id holds a line feed. -/
theorem sameContract_crlf_iff {source : String} (noCr : '\r' ∉ source.toList) :
    SameContract source (crlfText source) ↔ ∀ file, IsContract source file → file.OneLineIdentity := by
  have aligned : crlf.Aligned source.toList (crlfText source).toList :=
    .inl (by rw [crlfText, String.toList_ofList])
  obtain ⟨fails, fails'⟩ | ⟨file, rest, rest', run, run', -⟩ := Grammar.file_simulates _ _ aligned
  · -- the grammar matches neither
    have rejected := compile_of_unmatched fails
    refine iff_of_true (.inl ⟨_, _, rejected, compile_of_unmatched fails'⟩) fun file contract => ?_
    cases contract.compile_eq.symm.trans rejected
  · have original := parsesAs_of_run run
    have converts {tree : LaicFile} := @compile_crlfText_iff source file noCr original (parsesAs_of_run run') tree
    by_cases accepts : file.inRange ∧ validate file.value = .ok ()
    · have contract := (isContract_iff original).mpr accepts
      rw [contract.sameContract_iff (converts.mpr ⟨accepts.1, accepts.2, rfl⟩)]
      constructor
      · intro oneLine other contract'
        exact (contract.oneLineIdentity_iff contract').mpr oneLine
      · intro all
        exact all file contract
    · -- both are matched, and neither is accepted
      have rejected : ∀ tree, compile source ≠ .ok tree := fun tree accepted =>
        have parts := original.compile_eq_ok_iff.mp accepted
        accepts ⟨parts.1, parts.2.1⟩
      have rejected' : ∀ tree, compile (crlfText source) ≠ .ok tree := fun tree accepted =>
        have parts := converts.mp accepted
        accepts ⟨parts.1, parts.2.1⟩
      obtain ⟨error, fails⟩ := Except.exists_error_of_ne_ok rejected
      obtain ⟨error', fails'⟩ := Except.exists_error_of_ne_ok rejected'
      exact iff_of_true (.inl ⟨error, error', fails, fails'⟩) fun other contract =>
        absurd contract.compile_eq (rejected _)

/-- A version on two lines. -/
def twoLineVersion : String :=
  "version \"1\n0\"; skill S \x7b id = \"s\"; input I \x7b x: i8; \x7d output O \x7b y: i8; \x7d \x7d"

theorem sameContract_crlf_counterexample :
    '\r' ∉ twoLineVersion.toList ∧ ¬ SameContract twoLineVersion (crlfText twoLineVersion) := by
  have first : (compile twoLineVersion).toOption.map LaicFile.version = some "1\n0" := by decide +kernel
  have second : (compile (crlfText twoLineVersion)).toOption.map LaicFile.version = some "1\r\n0" := by
    decide +kernel
  refine ⟨by decide, ?_⟩
  rintro (⟨error, _, fails, _⟩ | ⟨file, accepted, accepted'⟩)
  · rw [fails] at first
    cases first
  · rw [accepted] at first
    rw [accepted'] at second
    have same := first.symm.trans second
    revert same
    decide

theorem sameContract_crlf_twoLineVersion :
    SameContract twoLineVersion (crlfText twoLineVersion) ↔
      ∀ file, IsContract twoLineVersion file → file.OneLineIdentity :=
  sameContract_crlf_iff (by decide)

end Laic
