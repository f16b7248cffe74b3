import Laic.Codegen.Defaults
import Laic.Idl.LineEndings

/-! # Float defaults

The grammar bounds no float literal, and the parser rounds what is too large to infinity, whose
text is no number.  Which written numbers stay finite in the width of their field, and what the
targets print for those. -/

namespace Laic

open DecimalText FloatFormat

/-! ## Soundness of a float default -/

/-- The structs of a file, as they are written. -/
def FileSyntax.structs (file : FileSyntax) : List StructSyntax :=
  file.skills.flatMap fun skill => [skill.input, skill.output]

/-- A sign or none, digits, a point and digits. -/
def IsFloatText (text : List Char) : Prop :=
  ∃ negative, ∃ whole fraction : Digits, text = LiteralValueSyntax.text (.float negative whole fraction)

/-- The value, rounded to the width of the type, is finite. -/
def FiniteAt : LaicType → F64 → Prop
  | .f32, value => ∃ negative magnitude, value.convert .binary32 = .finite negative magnitude
  | .f64, value => ∃ negative magnitude, value = .finite negative magnitude
  | _, _ => False

/-- The default is finite in the field's width, and what the targets print for it is a number
there that reads back as the same value. -/
structure FloatDefaultSound (ty : LaicType) (value : F64) : Prop where
  finite : FiniteAt ty value
  rust : IsFloatText (literalToRust (.float value)) ∧
    readFloat .binary64 (literalToRust (.float value)) = some value ∧
    ∃ scalar, ty.leafScalar = some scalar ∧ (rustLiteral scalar (literalToRust (.float value))).isSome
  python : IsFloatText (literalToPython (.float value)) ∧
    pythonLiteral (literalToPython (.float value)) = some (.float value)
  typescript : IsFloatText (literalToTs (.float value) ty) ∧
    javascriptLiteral (literalToTs (.float value) ty) = some (.number value)

/-- The number that the digits around a point stand for. -/
def pointedMagnitude (whole fraction : Digits) : ℚ :=
  Text.digitsValue (whole.text ++ fraction.text) 0 / 10 ^ fraction.text.length

/-- The bounds of the written numbers, from which on rounding reaches infinity: for a 32-bit
field the number is rounded to 64 bits first. -/
def FloatDefaultInRange : LaicType → ℚ → Prop
  | .f32, magnitude => magnitude < 2 ^ 128 - 2 ^ 103 - 2 ^ 74
  | .f64, magnitude => magnitude < 2 ^ 1024 - 2 ^ 970
  | _, _ => False

/-! ## The bounds -/

theorem pointedMagnitude_nonneg (whole fraction : Digits) : 0 ≤ pointedMagnitude whole fraction := by
  unfold pointedMagnitude
  positivity

theorem finite_binary64_iff {x : ℚ} (nonnegative : 0 ≤ x) :
    binary64.roundMagnitude x < 2 ^ binary64.maxExponent ↔ x < 2 ^ 1024 - 2 ^ 970 :=
  binary64.roundMagnitude_finite_iff nonnegative (by decide)

theorem finite_binary32_iff {x : ℚ} (nonnegative : 0 ≤ x) :
    binary32.roundMagnitude x < 2 ^ binary32.maxExponent ↔ x < 2 ^ 128 - 2 ^ 103 :=
  binary32.roundMagnitude_finite_iff nonnegative (by decide)

/-- The bound of 32 bits, in the 64-bit value and in the number that was rounded to it. -/
theorem binary64_lt_iff {x : ℚ} (nonnegative : 0 ≤ x) :
    binary64.roundMagnitude x < 2 ^ 128 - 2 ^ 103 ↔ x < 2 ^ 128 - 2 ^ 103 - 2 ^ 74 := by
  have bound := binary64.roundMagnitude_lt_iff nonnegative (2 ^ 53 - 2 ^ 28) 75
    (by decide) (by decide) (by decide) (by decide)
  have limit : ((2 ^ 53 - 2 ^ 28 : ℕ) : ℚ) * 2 ^ (75 : ℤ) = 2 ^ 128 - 2 ^ 103 := by
    norm_num
  have midpoint : (((2 ^ 53 - 2 ^ 28 : ℕ) : ℚ) - 1 / 2) * 2 ^ (75 : ℤ) =
      2 ^ 128 - 2 ^ 103 - 2 ^ 74 := by
    norm_num
  rwa [limit, midpoint] at bound

/-- What rounds to a finite value is the only thing that does. -/
theorem exists_finite_iff {format : FloatFormat} {negative : Bool} {x : ℚ} :
    (∃ sign magnitude, FloatValue.round format negative x = .finite sign magnitude) ↔
      format.roundMagnitude x < 2 ^ format.maxExponent := by
  by_cases below : format.roundMagnitude x < 2 ^ format.maxExponent
  · exact iff_of_true ⟨_, _, round_eq_finite negative below⟩ below
  · apply iff_of_false _ below
    rintro ⟨sign, magnitude, finite⟩
    rw [FloatValue.round, dif_neg below] at finite
    cases finite

/-- A written number is finite in the width of its field where it is in range. -/
theorem finiteAt_round_iff (ty : LaicType) (negative : Bool) {x : ℚ} (nonnegative : 0 ≤ x) :
    FiniteAt ty (.round .binary64 negative x) ↔ FloatDefaultInRange ty x := by
  cases ty with
  | string | bytes | bool | i8 | i16 | i32 | i64 | u8 | tensor | list | optional | map => exact Iff.rfl
  | f64 => exact exists_finite_iff.trans (finite_binary64_iff nonnegative)
  | f32 =>
    show (∃ sign magnitude, (FloatValue.round .binary64 negative x).convert .binary32 =
      .finite sign magnitude) ↔ x < 2 ^ 128 - 2 ^ 103 - 2 ^ 74
    by_cases below : binary64.roundMagnitude x < 2 ^ binary64.maxExponent
    · have rounded : 0 ≤ binary64.roundMagnitude x :=
        nonneg_of_representable (binary64.roundMagnitude_representable below)
      rw [round_eq_finite negative below]
      exact exists_finite_iff.trans ((finite_binary32_iff rounded).trans (binary64_lt_iff nonnegative))
    · -- the 64-bit value is infinite already
      have large := (not_congr (finite_binary64_iff nonnegative)).mp below
      apply iff_of_false
      · rintro ⟨sign, magnitude, finite⟩
        rw [FloatValue.round, dif_neg below] at finite
        cases finite
      · intro small
        apply large
        have double : (2 : ℚ) ^ 1024 = 2 ^ 1023 + 2 ^ 1023 := by rw [pow_succ, mul_two]
        have narrow : (2 : ℚ) ^ 128 ≤ 2 ^ 1023 := pow_le_pow_right₀ (by norm_num) (by decide)
        have tail : (2 : ℚ) ^ 970 ≤ 2 ^ 1023 := pow_le_pow_right₀ (by norm_num) (by decide)
        calc x < 2 ^ 128 - 2 ^ 103 - 2 ^ 74 := small
          _ ≤ 2 ^ 128 := by norm_num
          _ ≤ 2 ^ 1023 := narrow
          _ ≤ 2 ^ 1024 - 2 ^ 970 := by
            rw [double, le_sub_iff_add_le]
            exact add_le_add_right tail _

/-! ## The printed texts -/

theorem isFloatText_of_readFloat {format : FloatFormat} {text : List Char} {value : FloatValue format}
    (read : readFloat format text = some value) : IsFloatText text := by
  obtain ⟨magnitude, decimal, -⟩ := Option.map_eq_some_iff.mp read
  obtain ⟨whole, fraction, joined, wholeNonempty, fractionNonempty, wholeDigits, fractionDigits⟩ :=
    parts_of_readDecimal decimal
  have digits {part : List Char} (nonempty : part ≠ []) (all : part.all Char.isDigit = true) :
      ∃ digits : Digits, digits.text = part := by
    cases part with
    | nil => exact absurd rfl nonempty
    | cons c rest =>
      rw [List.all_cons, Bool.and_eq_true] at all
      exact ⟨⟨c, rest, all.1, List.all_eq_true.mp all.2⟩, rfl⟩
  obtain ⟨first, rfl⟩ := digits wholeNonempty wholeDigits
  obtain ⟨second, rfl⟩ := digits fractionNonempty fractionDigits
  refine ⟨(splitSign text).1, first, second, ?_⟩
  show text = signText (splitSign text).1 ++ (first.text ++ '.' :: second.text)
  rw [← joined]
  unfold splitSign
  split <;> rfl

/-- A finite default whose width holds it is printed soundly. -/
theorem floatDefaultSound_of_finite {ty : LaicType} {negative : Bool}
    {magnitude : {q : ℚ // binary64.Representable q}}
    (finite : FiniteAt ty (.finite negative magnitude)) :
    FloatDefaultSound ty (.finite negative magnitude) := by
  have read : readFloat .binary64 (withPoint (displayFloat (.finite negative magnitude))) =
      some (.finite negative magnitude) :=
    readFloat_displayFloat_self (nonneg_of_representable magnitude.2)
  have form := isFloatText_of_readFloat read
  refine ⟨finite, ⟨form, read, ?_⟩, ⟨form, pythonLiteral_float⟩, ?_⟩
  · cases ty with
    | string | bytes | bool | i8 | i16 | i32 | i64 | u8 | tensor | list | optional | map =>
      exact finite.elim
    | f64 =>
      refine ⟨.float64, rfl, ?_⟩
      rw [rustLiteral_float64]
      rfl
    | f32 =>
      refine ⟨.float32, rfl, ?_⟩
      have nonnegative := nonneg_of_representable magnitude.2
      have below := (finite_binary32_iff nonnegative).mp (exists_finite_iff.mp finite)
      have rounds := shortest_rounds nonnegative magnitude.2
      have decimal : (shortest .binary64 magnitude.1).value < 2 ^ 128 - 2 ^ 103 := by
        -- the bound is a 64-bit value, so rounding does not cross it
        by_contra reached
        have kept : binary64.roundMagnitude (2 ^ 128 - 2 ^ 103) = 2 ^ 128 - 2 ^ 103 := by
          have fits : 2 ^ 25 - 1 < 2 ^ binary64.precision := by decide
          have above : binary64.minExponent ≤ 103 := by decide
          have exact := binary64.roundMagnitude_mul_zpow fits above
          norm_num at exact ⊢
          exact exact
        have monotone := binary64.roundMagnitude_mono (by norm_num) (not_lt.mp reached)
        rw [kept, rounds] at monotone
        exact absurd below (not_lt.mpr monotone)
      have read32 : readFloat .binary32 (withPoint (displayFloat (.finite negative magnitude))) =
          some (.round .binary32 negative (shortest .binary64 magnitude.1).value) :=
        readFloat_displayFloat negative magnitude
      have decimalNonnegative : 0 ≤ (shortest .binary64 magnitude.1).value :=
        mul_nonneg (Nat.cast_nonneg _) (zpow_nonneg (by norm_num) _)
      have fits := (finite_binary32_iff decimalNonnegative).mpr decimal
      simp only [rustLiteral, literalToRust, read32, round_eq_finite negative fits]
      rfl
  · cases ty <;> first | exact finite.elim | exact ⟨form, javascriptLiteral_float⟩

/-- The default of a written number is sound exactly where the number is in range. -/
theorem floatDefaultSound_iff (ty : LaicType) (negative : Bool) {x : ℚ} (nonnegative : 0 ≤ x) :
    FloatDefaultSound ty (.round .binary64 negative x) ↔ FloatDefaultInRange ty x := by
  rw [← finiteAt_round_iff ty negative nonnegative]
  apply Iff.intro FloatDefaultSound.finite
  intro finite
  cases rounded : FloatValue.round .binary64 negative x with
  | finite sign magnitude => exact floatDefaultSound_of_finite (rounded ▸ finite)
  | nan =>
    rw [rounded] at finite
    cases ty <;> first | exact finite.elim | (obtain ⟨_, _, impossible⟩ := finite; cases impossible)
  | infinite sign =>
    rw [rounded] at finite
    cases ty <;> first | exact finite.elim | (obtain ⟨_, _, impossible⟩ := finite; cases impossible)

/-! ## Defaults of accepted sources -/

/-- In every source that is accepted, the float defaults are sound exactly where the number
that the source writes is in range. -/
theorem floatDefault_sound_iff {source : String} {file : LaicFile} (accepted : compile source = .ok file) :
    ∃ tree, ParsesAs source tree ∧ tree.value = file ∧
      ∀ structSyntax ∈ tree.structs, ∀ field ∈ structSyntax.fields, ∀ negative whole fraction,
        field.default = some (.float negative whole fraction) →
        ∃ value, field.value.default = some (.float value) ∧
          (FloatDefaultSound field.value.ty value ↔
            FloatDefaultInRange field.value.ty (pointedMagnitude whole fraction)) := by
  have matched : (Grammar.file source.toList).isSome := by
    by_contra unmatched
    rw [Option.not_isSome_iff_eq_none] at unmatched
    simp only [compile, parse, unmatched] at accepted
    cases accepted
  obtain ⟨tree, parses⟩ := parse_of_matched matched
  refine ⟨tree, parses, (parses.compile_eq_ok_iff.mp accepted).2.2.symm, ?_⟩
  intro structSyntax _ field _ negative whole fraction default
  refine ⟨.round .binary64 negative (pointedMagnitude whole fraction), ?_, ?_⟩
  · simp only [FieldSyntax.value, default, Option.map_some]
    rfl
  · exact floatDefaultSound_iff _ _ (pointedMagnitude_nonneg whole fraction)

/-- A 32-bit default of one half is sound. -/
theorem floatDefault_sound_iff_half :
    ∃ tree, ParsesAs (skillSource "I" "x:f32=-0.5;" "O" "x:bool;" "") tree ∧
      ∀ structSyntax ∈ tree.structs, ∀ field ∈ structSyntax.fields, ∀ negative whole fraction,
        field.default = some (.float negative whole fraction) →
        ∃ value, field.value.default = some (.float value) ∧
          (FloatDefaultSound field.value.ty value ↔
            FloatDefaultInRange field.value.ty (pointedMagnitude whole fraction)) := by
  obtain ⟨file, accepted, -⟩ : ∃ file, compile (skillSource "I" "x:f32=-0.5;" "O" "x:bool;" "") = .ok file ∧
      !file.structs.isEmpty :=
    Except.exists_of_any (by decide +kernel)
  obtain ⟨tree, parses, -, sound⟩ := floatDefault_sound_iff accepted
  exact ⟨tree, parses, sound⟩

/-- Ten to the 39th is finite in 64 bits and infinite in the 32 bits of its field. -/
theorem floatDefault_sound_counterexample :
    ¬ ∀ source file, compile source = .ok file →
      ∀ entry ∈ file.structs, ∀ field ∈ entry.2.2.fields, ∀ value,
        (field.ty = .f32 ∨ field.ty = .f64) → field.default = some (.float value) →
          FloatDefaultSound field.ty value := by
  intro all
  obtain ⟨file, accepted, entry, inFile, field, inStruct, found⟩ : ∃ file,
      compile (skillSource "I" "x:f32=1000000000000000000000000000000000000000.0;" "O" "x:bool;" "") =
        .ok file ∧
        ∃ entry ∈ file.structs, ∃ field ∈ entry.2.2.fields,
          field.ty = .f32 ∧ field.default = some (.float (.round .binary64 false (10 ^ 39))) :=
    exists_field_of_any (by decide +kernel)
  have sound := all _ file accepted entry inFile field inStruct _ (.inl found.1) found.2
  rw [found.1] at sound
  have small := (floatDefaultSound_iff .f32 false (by norm_num)).mp sound
  rw [FloatDefaultInRange] at small
  norm_num at small

end Laic
