import Laic.Idl.Layout
import Laic.Idl.Identifiers
import Laic.Idl.WellFormed
import Laic.Idl.LineEndings
import Laic.Lib.DecimalText
import Laic.Lib.DoubleRounding

/-! # The language of the compiler

Which sources `parse` takes, and which trees it makes of them.  The sources are the layouts of files,
with any blanks and comments between the tokens; the trees are those whose names and texts the grammar
can spell.  The generators are handed these trees and no others. -/

namespace Laic

open Peg

namespace Grammar

/-! ## The tokens of a file -/

/-- Each of the tokens can be seen. -/
def AllVisible (tokens : List (List Char)) : Prop := ∀ token ∈ tokens, Visible token

/-- The first character can be seen. -/
def startsVisible (text : List Char) : Bool := text.head?.any fun c => !isBlank c && c != '/'

theorem visible_word {text : List Char} (word : startsVisible text = true) : Visible text := by
  cases text with
  | nil => cases word
  | cons c rest =>
    refine ⟨c, rest, rfl, ?_⟩
    simpa [startsVisible] using word

namespace AllVisible

variable {tokens tokens' : List (List Char)} {token : List Char}

theorem nil : AllVisible [] := nofun

theorem cons (first : Visible token) (others : AllVisible tokens) : AllVisible (token :: tokens) :=
  List.forall_mem_cons.mpr ⟨first, others⟩

theorem word {word : String} (first : startsVisible word.toList = true)
    (others : AllVisible tokens) : AllVisible (word.toList :: tokens) := cons (visible_word first) others

theorem append (left : AllVisible tokens) (right : AllVisible tokens') : AllVisible (tokens ++ tokens') :=
  List.forall_mem_append.mpr ⟨left, right⟩

theorem flatMap {σ : Type} {values : List σ} {spell : σ → List (List Char)}
    (each : ∀ value ∈ values, AllVisible (spell value)) : AllVisible (values.flatMap spell) := by
  intro token member
  obtain ⟨value, within, inside⟩ := List.mem_flatMap.mp member
  exact each value within token inside

end AllVisible

theorem name_visible (name : Name) : Visible name.text :=
  visible_of_isAlphanum (by simp [Char.isAlphanum, name.head_ok]) _

theorem digits_visible (digits : Digits) : Visible digits.text := by
  have digit : digits.head.isDigit = true := digits.head_ok
  exact visible_of_isAlphanum (by simp [Char.isAlphanum, digit]) _

theorem quoted_visible (quoted : Quoted) : Visible quoted.text := visible_word rfl

theorem literal_visible (value : LiteralValueSyntax) : Visible value.text := by
  have signed (negative : Bool) (digits : Digits) : Visible (signText negative ++ digits.text) := by
    cases negative with
    | true => exact visible_word rfl
    | false => exact digits_visible digits
  cases value with
  | string quoted => exact quoted_visible quoted
  | float negative whole fraction =>
    have text : LiteralValueSyntax.text (.float negative whole fraction) =
        (signText negative ++ whole.text) ++ '.' :: fraction.text := (List.append_assoc _ _ _).symm
    rw [text]
    exact (signed negative whole).append _
  | integer negative digits => exact signed negative digits
  | bool value => cases value <;> exact visible_word (by decide)

theorem dim_visible (dim : DimensionSyntax) : Visible dim.text := by
  cases dim with
  | size digits => exact digits_visible digits
  | anonymous => exact visible_word (by decide)
  | named name => exact name_visible name

theorem type_visible (ty : TypeSyntax) : AllVisible ty.tokens := by
  have closing : AllVisible [">".toList] := .word (by decide) .nil
  induction ty with
  | scalar ty isScalar =>
    refine .cons (visible_word ?_) .nil
    cases ty with
    | tensor | list | optional | map => cases isScalar
    | _ => decide
  | tensor dtype first others =>
    have element : Visible dtype.asStr.toList := by cases dtype <;> exact visible_word (by decide)
    have further : AllVisible (others.flatMap fun dim => [",".toList, dim.text]) :=
      .flatMap fun dim _ => .word (by decide) (.cons (dim_visible dim) .nil)
    exact .append (.append (.word (by decide) (.word (by decide) (.cons element (.word (by decide)
      (.word (by decide) .nil))))) (.cons (dim_visible first) further)) (.word (by decide) .nil)
  | list inner ih => exact .append (.append (.word (by decide) (.word (by decide) .nil)) ih) closing
  | optional inner ih => exact .append (.append (.word (by decide) (.word (by decide) .nil)) ih) closing
  | map key value ihKey ihValue =>
    exact .append (.append (.append (.append (.word (by decide) (.word (by decide) .nil)) ihKey)
      (.word (by decide) .nil)) ihValue) closing

theorem field_visible (field : FieldSyntax) : AllVisible field.tokens := by
  obtain ⟨name, ty, default⟩ := field
  refine .append (.append (.append (.cons (name_visible name) (.word (by decide) .nil)) (type_visible ty)) ?_)
    (.word (by decide) .nil)
  cases default with
  | none => exact .nil
  | some value => exact .word (by decide) (.cons (literal_visible value) .nil)

theorem struct_visible {keyword : String} (word : startsVisible keyword.toList = true)
    (structSyntax : StructSyntax) : AllVisible (structSyntax.tokens keyword) :=
  .append (.append (.word word (.cons (name_visible structSyntax.name) (.word (by decide) .nil)))
    (.flatMap fun field _ => field_visible field)) (.word (by decide) .nil)

theorem errors_visible (errors : ErrorSyntax) : AllVisible errors.tokens := by
  have variants : AllVisible ((errors.first :: errors.others).flatMap VariantSyntax.tokens) :=
    .flatMap fun variant _ => .cons (name_visible variant.name) (.word (by decide)
      (.cons (digits_visible variant.code) (.word (by decide) .nil)))
  exact .append (.append (.word (by decide) (.word (by decide) .nil)) variants) (.word (by decide) .nil)

theorem skill_visible (skill : SkillSyntax) : AllVisible skill.tokens := by
  obtain ⟨name, id, input, output, errors⟩ := skill
  have front : AllVisible ["skill".toList, name.text, "\x7b".toList, "id".toList, "=".toList, id.text, ";".toList] :=
    .word (by decide) (.cons (name_visible name) (.word (by decide) (.word (by decide) (.word (by decide)
      (.cons (quoted_visible id) (.word (by decide) .nil))))))
  refine .append (.append (.append (.append front (struct_visible (by decide) input))
    (struct_visible (by decide) output)) ?_) (.word (by decide) .nil)
  cases errors with
  | none => exact .nil
  | some errors => exact errors_visible errors

theorem file_visible (file : FileSyntax) : AllVisible file.tokens :=
  .append (.word (by decide) (.cons (quoted_visible file.version) (.word (by decide) .nil)))
    (.flatMap fun skill _ => skill_visible skill)

end Grammar

/-! ## The language of the compiler -/

/-- The source is laid out from the tokens of the file, with any blanks and comments between them. -/
def LaidOut (source : String) (file : FileSyntax) : Prop := blanks.Reads file.tokens source.toList []

/-- However a file is laid out, `parse` makes what it stands for, or reports a number that is out of
range. -/
theorem parse_of_laidOut {source : String} {file : FileSyntax} (layout : LaidOut source file) :
    Outcome file.inRange file.value (parse source) := by
  have seen : Grammar.spacing.Layout file.tokens source.toList :=
    Spacing.Layout.of_reads layout rfl (Grammar.file_visible file)
  obtain ⟨pair, ⟨rest, matched⟩, outcome⟩ := Grammar.file_laidOut seen
  unfold parse
  rw [matched]
  exact outcome

/-- A source that `parse` does not refuse as a whole is laid out from a file. -/
theorem exists_laidOut {source : String} (matched : parse source ≠ .error .unmatched) :
    ∃ file, LaidOut source file := by
  obtain ⟨fails, -⟩ | ⟨file, rest, _, run, -⟩ := Grammar.file_simulates _ _ (LineEnding.aligned_lf source.toList)
  · refine absurd ?_ matched
    unfold parse
    rw [fails]
  · exact ⟨file, (parsesAs_of_run run).reads⟩

/-- What the compiler says of the layouts of a file. -/
inductive Verdict (file : FileSyntax) : Except CompileError LaicFile → Prop where
  | accepted (fits : file.inRange) (wellFormed : file.value.WellFormed) : Verdict file (.ok file.value)
  | outOfRange {message : String} (exceeds : ¬ file.inRange) (isRange : RangeMessage message) :
      Verdict file (.error (.parse message))
  | malformed {message : String} (fits : file.inRange) (malformed : ¬ file.value.WellFormed) :
      Verdict file (.error (.validation message))

/-- What the compiler makes of a source is decided by the file that the source is a layout of, whatever
stands between the tokens; a source that is no layout is refused as a whole. -/
theorem compile_language (source : String) :
    (∀ file, LaidOut source file → Verdict file (compile source)) ∧
      ((∀ file, ¬ LaidOut source file) ↔ compile source = .error .unmatched) := by
  have decided : ∀ file, LaidOut source file → Verdict file (compile source) := by
    intro file layout
    unfold compile
    have outcome := parse_of_laidOut layout
    generalize parse source = parsed at outcome ⊢
    cases outcome with
    | outOfRange exceeds isRange => exact .outOfRange exceeds isRange
    | built fits =>
      rw [Except.ok_bind]
      by_cases wellFormed : file.value.WellFormed
      · have valid : validate file.value = .ok () := validate_eq_ok.mpr wellFormed
        rw [valid]
        exact .accepted fits wellFormed
      · obtain ⟨message, refused⟩ := validate_eq_error wellFormed
        rw [refused]
        exact .malformed fits wellFormed
  refine ⟨decided, fun none => ?_, fun refused file layout => ?_⟩
  · by_cases matched : parse source = .error .unmatched
    · unfold compile
      rw [matched, Except.error_bind]
    · obtain ⟨file, layout⟩ := exists_laidOut matched
      exact absurd layout (none file)
  · have verdict := decided file layout
    rw [refused] at verdict
    cases verdict

/-! ## What the grammar can spell -/

def Literal.Spellable : Literal → Prop
  | .string text => '"' ∉ text.toList ∧ '\r' ∉ text.toList
  | .float value => value ≠ .nan
  | .integer _ | .bool _ => True

def Dimension.Spellable : Dimension → Prop
  | .dynamic (some name) => IsIdent name.toList
  | _ => True

def LaicType.Spellable : LaicType → Prop
  | .tensor _ dims => dims ≠ [] ∧ ∀ dim ∈ dims, dim.Spellable
  | .list inner | .optional inner => inner.Spellable
  | .map key value => key.Spellable ∧ value.Spellable
  | _ => True

def FieldDef.Spellable (field : FieldDef) : Prop :=
  IsIdent field.name.toList ∧ field.ty.Spellable ∧ ∀ literal ∈ field.default, literal.Spellable

def StructDef.Spellable (structDef : StructDef) : Prop :=
  IsIdent structDef.name.toList ∧ ∀ field ∈ structDef.fields, field.Spellable

def ErrorVariant.Spellable (variant : ErrorVariant) : Prop := IsIdent variant.name.toList

def SkillDef.Spellable (skill : SkillDef) : Prop :=
  IsIdent skill.name.toList ∧ '"' ∉ skill.id.toList ∧ skill.input.Spellable ∧ skill.output.Spellable ∧
    ∀ variant ∈ skill.errors, variant.Spellable

/-- Names are identifiers, texts hold no quote, defaults of strings no carriage return, defaults of
floats are numbers, and there is a skill. -/
def LaicFile.Spellable (file : LaicFile) : Prop :=
  '"' ∉ file.version.toList ∧ file.skills ≠ [] ∧ ∀ skill ∈ file.skills, skill.Spellable

/-! ## The parts of a source that spell them -/

/-- The values that parts stand for whose numbers are in range. -/
def Spells {σ α : Type} (inRange : σ → Prop) (value : σ → α) (good : α → Prop) : Prop :=
  ∀ built, good built ↔ ∃ part, inRange part ∧ value part = built

theorem Spells.list {σ α : Type} {inRange : σ → Prop} {value : σ → α} {good : α → Prop}
    (spells : Spells inRange value good) :
    Spells (fun parts : List σ => ∀ part ∈ parts, inRange part) (List.map value)
      fun values => ∀ built ∈ values, good built := by
  intro values
  induction values with
  | nil => exact ⟨fun _ => ⟨[], nofun, rfl⟩, fun _ => nofun⟩
  | cons built values ih =>
    show (∀ next ∈ built :: values, good next) ↔ _
    have others : (∀ next ∈ values, good next) ↔ _ := ih
    rw [List.forall_mem_cons, others, spells built]
    constructor
    · rintro ⟨⟨part, fits, rfl⟩, parts, allFit, rfl⟩
      exact ⟨part :: parts, List.forall_mem_cons.mpr ⟨fits, allFit⟩, rfl⟩
    · rintro ⟨parts, allFit, same⟩
      cases parts with
      | nil => cases same
      | cons part parts =>
        obtain ⟨fits, allFit⟩ := List.forall_mem_cons.mp allFit
        obtain ⟨rfl, rfl⟩ := List.cons.inj same
        exact ⟨⟨part, fits, rfl⟩, parts, allFit, rfl⟩

theorem exists_name {text : List Char} (isIdent : IsIdent text) : ∃ name : Name, name.text = text := by
  obtain ⟨first, rest, rfl, letter, later⟩ := isIdent
  exact ⟨⟨first, rest, letter, fun c member => by simpa using later c member⟩, rfl⟩

theorem isIdent_name (name : Name) : IsIdent name.text :=
  ⟨name.head, name.tail, rfl, name.head_ok, fun c member => by simpa using name.tail_ok c member⟩

theorem name_spells : Spells (fun _ : Name => True) (fun name => String.ofList name.text)
    fun name => IsIdent name.toList := by
  intro name
  constructor
  · intro isIdent
    obtain ⟨word, spelled⟩ := exists_name isIdent
    exact ⟨word, trivial, by simp [spelled]⟩
  · rintro ⟨word, -, rfl⟩
    simpa using isIdent_name word

theorem quoted_spells : Spells (fun _ : Quoted => True) Quoted.string fun text => '"' ∉ text.toList := by
  intro text
  constructor
  · intro noQuote
    exact ⟨⟨text.toList, fun c member same => noQuote (same ▸ member)⟩, trivial, String.ofList_toList⟩
  · rintro ⟨quoted, -, rfl⟩
    rw [Quoted.string, String.toList_ofList]
    exact fun member => quoted.noQuote _ member rfl

/-! ### Defaults -/

theorem exists_digits_of_all {text : List Char} (nonempty : text ≠ []) (digits : text.all Char.isDigit = true) :
    ∃ number : Digits, number.text = text := by
  cases text with
  | nil => exact absurd rfl nonempty
  | cons c rest =>
    obtain ⟨first, later⟩ := List.forall_mem_cons.mp (List.all_eq_true.mp digits)
    exact ⟨⟨c, rest, first, later⟩, rfl⟩

/-- A decimal, with the point it is written with. -/
theorem exists_point (d : DecimalText.Decimal) : ∃ whole fraction : Digits,
    (Text.digitsValue (whole.text ++ fraction.text) 0 : ℚ) / 10 ^ fraction.text.length = d.value := by
  have read := DecimalText.readDecimal_text d
  obtain ⟨front, back, text, front_ne, back_ne, frontDigits, backDigits⟩ := DecimalText.parts_of_readDecimal read
  rw [text, DecimalText.readDecimal_digits front_ne back_ne frontDigits backDigits] at read
  obtain ⟨whole, rfl⟩ := exists_digits_of_all front_ne frontDigits
  obtain ⟨fraction, rfl⟩ := exists_digits_of_all back_ne backDigits
  exact ⟨whole, fraction, Option.some.inj read⟩

/-- A decimal that is too large for a float. -/
def beyond : DecimalText.Decimal := ⟨2 ^ 1024, 0⟩

theorem round_beyond (negative : Bool) :
    FloatValue.round .binary64 negative beyond.value = .infinite negative := by
  have power (n : ℕ) : DecimalText.Decimal.value ⟨2 ^ n, 0⟩ = 2 ^ (n : ℤ) := by
    simp [DecimalText.Decimal.value]
  have value : beyond.value = 2 ^ (1024 : ℤ) := power 1024
  have large : ¬ FloatFormat.binary64.roundMagnitude (2 ^ (1024 : ℤ)) < 2 ^ FloatFormat.binary64.maxExponent := by
    have nonnegative : (0 : ℚ) ≤ 2 ^ (1024 : ℤ) := (FloatFormat.two_zpow_pos 1024).le
    rw [FloatFormat.roundMagnitude_finite_iff _ nonnegative (by decide)]
    have positive := FloatFormat.two_zpow_pos (FloatFormat.binary64.maxExponent - FloatFormat.binary64.precision - 1)
    have same : FloatFormat.binary64.maxExponent = 1024 := rfl
    rw [same] at positive ⊢
    linarith
  rw [value, FloatValue.round, dif_neg large]

/-- Every float but NaN is the value of a literal. -/
theorem exists_float {value : F64} (number : value ≠ .nan) : ∃ negative, ∃ whole fraction : Digits,
    (LiteralValueSyntax.float negative whole fraction).value = .float value := by
  have written (negative : Bool) (d : DecimalText.Decimal)
      (rounds : FloatValue.round .binary64 negative d.value = value) : ∃ negative, ∃ whole fraction : Digits,
      (LiteralValueSyntax.float negative whole fraction).value = .float value := by
    obtain ⟨whole, fraction, same⟩ := exists_point d
    refine ⟨negative, whole, fraction, ?_⟩
    rw [LiteralValueSyntax.value, same, rounds]
  cases value with
  | nan => exact absurd rfl number
  | infinite negative => exact written negative beyond (round_beyond negative)
  | finite negative magnitude =>
    have rounds := DecimalText.shortest_rounds (DecimalText.nonneg_of_representable magnitude.2) magnitude.2
    refine written negative (DecimalText.shortest .binary64 magnitude.1) ?_
    simp only [FloatValue.round, rounds, dif_pos magnitude.2.2]

theorem literal_spells : Spells LiteralValueSyntax.inRange LiteralValueSyntax.value Literal.Spellable := by
  intro literal
  cases literal with
  | string text =>
    constructor
    · intro ⟨noQuote, noReturn⟩
      refine ⟨.string ⟨text.toList, fun c member equal => noQuote (equal ▸ member)⟩, trivial, ?_⟩
      simp [LiteralValueSyntax.value, Quoted.normalized, LineEnding.unify_eq_self noReturn]
    · rintro ⟨part, -, value⟩
      cases part with
      | string quoted =>
        cases value
        simp only [Literal.Spellable, Quoted.normalized, String.toList_ofList]
        refine ⟨fun member => ?_, fun member => (LineEnding.mem_unify member).1 rfl⟩
        obtain inside | newline := (LineEnding.mem_unify member).2
        · exact quoted.noQuote _ inside rfl
        · cases newline
      | float | integer | bool => cases value
  | float value =>
    constructor
    · intro number
      obtain ⟨negative, whole, fraction, same⟩ := exists_float number
      exact ⟨.float negative whole fraction, trivial, same⟩
    · rintro ⟨part, -, value⟩ rfl
      cases part with
      | float negative whole fraction =>
        simp only [LiteralValueSyntax.value, Literal.float.injEq, FloatValue.round] at value
        split at value <;> cases value
      | string | integer | bool => cases value
  | integer value =>
    refine ⟨fun _ => ?_, fun _ => trivial⟩
    obtain ⟨digits, spelled⟩ := Grammar.exists_digits value.toInt.natAbs
    have signed : signedValue (decide (value.toInt < 0)) digits = value.toInt := by
      have magnitude : Digits.value digits = value.toInt.natAbs := by
        rw [Digits.value, spelled, Text.digitsValue_decimal]
      simp only [signedValue, magnitude, decide_eq_true_eq]
      split <;> omega
    have lower := value.le_toInt
    have upper := value.toInt_lt
    refine ⟨.integer (decide (value.toInt < 0)) digits, ?_, ?_⟩
    · simp only [LiteralValueSyntax.inRange, signed]
      omega
    · simp [LiteralValueSyntax.value, signed]
  | bool value => exact ⟨fun _ => ⟨.bool value, trivial, rfl⟩, fun _ => trivial⟩

/-! ### Types -/

theorem dimension_spells : Spells DimensionSyntax.inRange DimensionSyntax.value Dimension.Spellable := by
  intro dim
  cases dim with
  | fixed size =>
    refine ⟨fun _ => ?_, fun _ => trivial⟩
    obtain ⟨digits, spelled⟩ := Grammar.exists_digits size.toNat
    have value : Digits.value digits = size.toNat := by
      rw [Digits.value, spelled, Text.digitsValue_decimal]
    refine ⟨.size digits, ?_, ?_⟩
    · simp only [DimensionSyntax.inRange, value]
      exact size.toNat_lt
    · simp [DimensionSyntax.value, value]
  | dynamic name =>
    cases name with
    | none => exact ⟨fun _ => ⟨.anonymous, trivial, rfl⟩, fun _ => trivial⟩
    | some name =>
      constructor
      · intro isIdent
        obtain ⟨word, -, rfl⟩ := (name_spells name).mp isIdent
        exact ⟨.named word, trivial, rfl⟩
      · rintro ⟨part, -, value⟩
        cases part with
        | size | anonymous => cases value
        | named word =>
          cases value
          exact (name_spells _).mpr ⟨word, trivial, rfl⟩

theorem type_spells : Spells TypeSyntax.inRange TypeSyntax.value LaicType.Spellable := by
  have spelled (part : TypeSyntax) : part.value.Spellable := by
    induction part with
    | scalar ty isScalar =>
      cases ty with
      | tensor | list | optional | map => cases isScalar
      | _ => exact trivial
    | tensor dtype first others =>
      refine ⟨List.cons_ne_nil _ _, fun dim member => ?_⟩
      obtain ⟨part, within, rfl⟩ := List.mem_map.mp member
      cases part with
      | size | anonymous => exact trivial
      | named word => exact (name_spells _).mpr ⟨word, trivial, rfl⟩
    | list inner ih => exact ih
    | optional inner ih => exact ih
    | map key value ihKey ihValue => exact ⟨ihKey, ihValue⟩
  intro ty
  refine ⟨fun spellable => ?_, fun ⟨part, _, value⟩ => value ▸ spelled part⟩
  induction ty with
  | tensor dtype dims =>
    obtain ⟨parts, fits, rfl⟩ := (dimension_spells.list dims).mp spellable.2
    cases parts with
    | nil => exact absurd rfl spellable.1
    | cons first others => exact ⟨.tensor dtype first others, fits, rfl⟩
  | list inner ih =>
    obtain ⟨part, fits, rfl⟩ := ih spellable
    exact ⟨.list part, fits, rfl⟩
  | optional inner ih =>
    obtain ⟨part, fits, rfl⟩ := ih spellable
    exact ⟨.optional part, fits, rfl⟩
  | map key value ihKey ihValue =>
    obtain ⟨keyPart, keyFits, rfl⟩ := ihKey spellable.1
    obtain ⟨valuePart, valueFits, rfl⟩ := ihValue spellable.2
    exact ⟨.map keyPart valuePart, ⟨keyFits, valueFits⟩, rfl⟩
  | _ => exact ⟨.scalar _ rfl, trivial, rfl⟩

/-! ### Declarations -/

theorem field_spells : Spells FieldSyntax.inRange FieldSyntax.value FieldDef.Spellable := by
  intro field
  obtain ⟨name, ty, default⟩ := field
  constructor
  · intro ⟨isIdent, spellable, each⟩
    obtain ⟨word, -, rfl⟩ := (name_spells name).mp isIdent
    obtain ⟨part, fits, rfl⟩ := (type_spells ty).mp spellable
    cases default with
    | none => exact ⟨⟨word, part, none⟩, ⟨fits, nofun⟩, rfl⟩
    | some literal =>
      obtain ⟨value, within, rfl⟩ := (literal_spells literal).mp (each literal rfl)
      refine ⟨⟨word, part, some value⟩, ⟨fits, fun other found => ?_⟩, rfl⟩
      cases found
      exact within
  · rintro ⟨⟨word, part, value⟩, ⟨fits, within⟩, same⟩
    cases same
    refine ⟨(name_spells _).mpr ⟨word, trivial, rfl⟩, (type_spells _).mpr ⟨part, fits, rfl⟩, ?_⟩
    intro literal found
    obtain ⟨spelling, isDefault, rfl⟩ := Option.map_eq_some_iff.mp found
    exact (literal_spells _).mpr ⟨spelling, within spelling isDefault, rfl⟩

theorem struct_spells : Spells StructSyntax.inRange StructSyntax.value StructDef.Spellable := by
  intro structDef
  obtain ⟨name, fields⟩ := structDef
  constructor
  · intro ⟨isIdent, each⟩
    obtain ⟨word, -, rfl⟩ := (name_spells name).mp isIdent
    obtain ⟨parts, fits, rfl⟩ := (field_spells.list fields).mp each
    exact ⟨⟨word, parts⟩, fits, rfl⟩
  · rintro ⟨⟨word, parts⟩, fits, same⟩
    cases same
    exact ⟨(name_spells _).mpr ⟨word, trivial, rfl⟩, (field_spells.list _).mpr ⟨parts, fits, rfl⟩⟩

theorem variant_spells : Spells VariantSyntax.inRange VariantSyntax.value ErrorVariant.Spellable := by
  intro variant
  obtain ⟨name, code⟩ := variant
  constructor
  · intro isIdent
    obtain ⟨word, -, rfl⟩ := (name_spells name).mp isIdent
    obtain ⟨digits, spelled⟩ := Grammar.exists_digits code.toNat
    have value : Digits.value digits = code.toNat := by
      rw [Digits.value, spelled, Text.digitsValue_decimal]
    refine ⟨⟨word, digits⟩, ?_, ?_⟩
    · simp only [VariantSyntax.inRange, value]
      exact code.toNat_lt
    · simp [VariantSyntax.value, value]
  · rintro ⟨⟨word, digits⟩, -, same⟩
    cases same
    exact (name_spells _).mpr ⟨word, trivial, rfl⟩

theorem skill_spells : Spells SkillSyntax.inRange SkillSyntax.value SkillDef.Spellable := by
  intro skill
  obtain ⟨name, id, input, output, errors⟩ := skill
  constructor
  · intro ⟨isIdent, noQuote, inputSpellable, outputSpellable, each⟩
    obtain ⟨word, -, rfl⟩ := (name_spells name).mp isIdent
    obtain ⟨quoted, -, rfl⟩ := (quoted_spells id).mp noQuote
    obtain ⟨inputPart, inputFits, rfl⟩ := (struct_spells input).mp inputSpellable
    obtain ⟨outputPart, outputFits, rfl⟩ := (struct_spells output).mp outputSpellable
    obtain ⟨parts, fits, rfl⟩ := (variant_spells.list errors).mp each
    -- an error block holds a variant; without one there is no block
    cases parts with
    | nil => exact ⟨⟨word, quoted, inputPart, outputPart, none⟩, ⟨inputFits, outputFits, nofun⟩, rfl⟩
    | cons first others =>
      refine ⟨⟨word, quoted, inputPart, outputPart, some ⟨first, others⟩⟩, ⟨inputFits, outputFits, ?_⟩, rfl⟩
      intro errors found
      cases found
      exact fits
  · rintro ⟨⟨word, quoted, inputPart, outputPart, block⟩, ⟨inputFits, outputFits, fits⟩, same⟩
    cases same
    refine ⟨(name_spells _).mpr ⟨word, trivial, rfl⟩, (quoted_spells _).mpr ⟨quoted, trivial, rfl⟩,
      (struct_spells _).mpr ⟨inputPart, inputFits, rfl⟩, (struct_spells _).mpr ⟨outputPart, outputFits, rfl⟩, ?_⟩
    cases block with
    | none => exact nofun
    | some errors => exact (variant_spells.list _).mpr ⟨errors.variants, fits errors rfl, rfl⟩

theorem file_spells : Spells FileSyntax.inRange FileSyntax.value LaicFile.Spellable := by
  intro file
  obtain ⟨version, skills⟩ := file
  constructor
  · intro ⟨noQuote, nonempty, each⟩
    obtain ⟨quoted, -, rfl⟩ := (quoted_spells version).mp noQuote
    obtain ⟨parts, fits, rfl⟩ := (skill_spells.list skills).mp each
    cases parts with
    | nil => exact absurd rfl nonempty
    | cons first others => exact ⟨⟨quoted, first, others⟩, fits, rfl⟩
  · rintro ⟨⟨quoted, first, others⟩, fits, same⟩
    cases same
    exact ⟨(quoted_spells _).mpr ⟨quoted, trivial, rfl⟩, List.cons_ne_nil _ _,
      (skill_spells.list _).mpr ⟨first :: others, fits, rfl⟩⟩

/-! ## The trees of the compiler -/

/-- Tokens with a blank behind each are a layout of them. -/
theorem reads_spaced (tokens : List (List Char)) :
    blanks.Reads tokens (tokens.flatMap fun token => token ++ [' ']) [] := by
  induction tokens with
  | nil => exact .done (.done [])
  | cons token tokens ih =>
    rw [List.flatMap_cons, List.append_assoc]
    exact .token (.done _) (ih.skip (.space rfl (.done _)))

/-- Every file has a source. -/
theorem exists_source (file : FileSyntax) : ∃ source, LaidOut source file := by
  refine ⟨String.ofList (file.tokens.flatMap fun token => token ++ [' ']), ?_⟩
  rw [LaidOut, String.toList_ofList]
  exact reads_spaced file.tokens

theorem parse_image (tree : LaicFile) : (∃ source, parse source = .ok tree) ↔ tree.Spellable := by
  rw [file_spells tree]
  constructor
  · rintro ⟨source, parsed⟩
    have matched : parse source ≠ .error .unmatched := by rw [parsed]; exact nofun
    obtain ⟨file, layout⟩ := exists_laidOut matched
    have outcome := parse_of_laidOut layout
    rw [parsed] at outcome
    cases outcome with
    | built fits => exact ⟨file, fits, rfl⟩
  · rintro ⟨file, fits, rfl⟩
    obtain ⟨source, layout⟩ := exists_source file
    exact ⟨source, (parse_of_laidOut layout).eq_ok fits⟩

/-- The trees that the generators may be handed are exactly those that the grammar can spell and that
are well formed. -/
theorem compile_image (tree : LaicFile) :
    (∃ source, compile source = .ok tree) ↔ tree.Spellable ∧ tree.WellFormed := by
  simp only [compile_eq_ok_iff, exists_and_right, parse_image, validate_eq_ok]

end Laic
