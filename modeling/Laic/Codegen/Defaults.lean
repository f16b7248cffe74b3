import Laic.Codegen.Literals
import Laic.Codegen.Names
import Laic.Codegen.RustTypes
import Laic.Lib.ArrowLanguages
import Laic.Lib.DoubleRounding

/-! # Default values in three languages

A default is written as a literal of each target.  Here the literal's type and value in
each language are compared with the value that the default denotes in a column of the
field's type.  A float reaches Rust as its shortest decimal, which `f32` rounds directly,
while the other targets round it to 64 bits first. -/

namespace Laic

open Arrow
open DecimalText
open StringLiteral

/-! ## Agreement of the literals -/

/-- The value that a default denotes in a column of a scalar type. -/
def Literal.valueAt : Literal → (scalar : Scalar) → Option scalar.Value
  | .string value, .utf8 => some value
  | .bool value, .boolean => some value
  | .integer value, .float32 => some (.ofInt .binary32 value.toInt)
  | .integer value, .float64 => some (.ofInt .binary64 value.toInt)
  | .integer value, scalar => intScalar scalar value.toInt
  | .float value, .float32 => some (value.convert .binary32)
  | .float value, .float64 => some value
  | _, _ => none

/-- The object is of the annotated type of the dataclass. -/
def pythonHasType : LaicType → PyValue → Bool
  | .string, .str _ | .bool, .bool _ => true
  | .i8, .int _ | .i16, .int _ | .i32, .int _ | .i64, .int _ | .u8, .int _ => true
  | .f32, .float _ | .f64, .float _ => true
  | _, _ => false

/-- The value is of the type of the class's property; 64-bit integers are `bigint`. -/
def tsHasType : LaicType → JsValue → Bool
  | .string, .string _ | .bool, .boolean _ | .i64, .bigint _ => true
  | .i8, .number _ | .i16, .number _ | .i32, .number _ | .u8, .number _ => true
  | .f32, .number _ | .f64, .number _ => true
  | _, _ => false

/-- The literals of a default have the field's type in their languages and denote this
value of the field's column. -/
structure DenotesEverywhere (ty : LaicType) (literal : Literal) (scalar : Scalar)
    (value : scalar.Value) : Prop where
  leaf : ty.leafScalar = some scalar
  denotes : literal.valueAt scalar = some value
  rust : rustType ty = .owned scalar ∧ rustLiteral scalar (literalToRust literal) = some value
  python : ∃ object, pythonLiteral (literalToPython literal) = some object ∧
    pythonHasType ty object = true ∧ scalar.ofPy object = some value
  typescript : ∃ object, javascriptLiteral (literalToTs literal ty) = some object ∧
    tsHasType ty object = true ∧ scalar.ofJs object = some value

/-- The literals of a default are well typed and mean the same everywhere. -/
def DefaultAgrees (ty : LaicType) (literal : Literal) : Prop :=
  ∃ scalar value, DenotesEverywhere ty literal scalar value

/-- Defaults that all targets can write: no C1 control and no direction mark in a string,
no integer for a float, and a finite float; in 32 bits the float must stay finite and,
midway between two neighbours, its shortest decimal must go to the even one too. -/
def DefaultWritable : LaicType → Literal → Prop
  | _, .string value => ∀ c ∈ value.toList, isHighControl c = false ∧ isDirectionMark c = false
  | ty, .integer _ => ty ≠ .f32 ∧ ty ≠ .f64
  | .f32, .float (.finite _ magnitude) =>
    FloatFormat.binary32.roundMagnitude magnitude < 2 ^ FloatFormat.binary32.maxExponent ∧
      FloatFormat.TieSafe .binary32 magnitude (shortest .binary64 magnitude).value
  | _, .float (.finite _ _) => True
  | _, .float _ => False
  | _, .bool _ => True

/-! ## Texts of numbers -/

/-- Digits, points and minus signs only. -/
def IsNumberText (text : List Char) : Prop := ∀ c ∈ text, c.isDigit = true ∨ c = '.' ∨ c = '-'

theorem notMem_of_isNumberText {text : List Char} (number : IsNumberText text) {c : Char}
    (other : (c.isDigit || c == '.' || c == '-') = false) : c ∉ text := by
  intro member
  simp only [Bool.or_eq_false_iff, beq_eq_false_iff_ne] at other
  obtain digit | point | minus := number c member
  · rw [digit] at other
    exact absurd other.1.1 (by decide)
  · exact other.1.2 point
  · exact other.2 minus

theorem isNumberText_decimal (n : ℕ) : IsNumberText (Text.decimal n) :=
  fun _ member => .inl (Text.isDigit_of_mem_decimal member)

theorem isNumberText_displayInteger (n : ℤ) : IsNumberText (displayInteger n) := by
  intro c member
  by_cases negative : n < 0
  · rw [displayInteger, if_pos negative, List.mem_cons] at member
    exact member.elim (fun minus => .inr (.inr minus)) (isNumberText_decimal _ c)
  · rw [displayInteger, if_neg negative] at member
    exact isNumberText_decimal _ c member

theorem isNumberText_decimalText (d : Decimal) : IsNumberText d.text := by
  intro c member
  rw [Decimal.text] at member
  split at member
  · exact isNumberText_decimal _ c member
  · simp only [fractionDigits, List.mem_append, List.mem_cons] at member
    obtain whole | point | zero | fraction := member
    · exact isNumberText_decimal _ c whole
    · exact .inr (.inl point)
    · rw [List.eq_of_mem_replicate zero]
      exact .inl rfl
    · exact isNumberText_decimal _ c fraction

theorem isNumberText_withPoint {text : List Char} (number : IsNumberText text) :
    IsNumberText (withPoint text) := by
  intro c member
  rw [withPoint] at member
  split at member
  · exact number c member
  · simp only [List.mem_append, List.mem_cons, List.not_mem_nil, or_false] at member
    obtain inText | rfl | rfl := member
    · exact number c inText
    · exact .inr (.inl rfl)
    · exact .inl rfl

theorem isNumberText_displayFloat {format : FloatFormat} (negative : Bool)
    (magnitude : {q : ℚ // format.Representable q}) :
    IsNumberText (withPoint (displayFloat (.finite negative magnitude))) := by
  apply isNumberText_withPoint
  cases negative with
  | true =>
    intro c member
    simp only [displayFloat, if_true, List.mem_cons] at member
    exact member.elim (fun minus => .inr (.inr minus)) (isNumberText_decimalText _ c)
  | false => exact isNumberText_decimalText _

/-- Outside strings a number's text is read as a whole number, else as a float. -/
theorem pythonLiteral_number {text : List Char} (number : IsNumberText text) :
    pythonLiteral text = ((readInteger text).map .int).or ((readFloat .binary64 text).map .float) := by
  have notTrue : text ≠ "True".toList := by
    rintro rfl
    exact notMem_of_isNumberText (c := 'T') number (by decide) (by decide)
  have notFalse : text ≠ "False".toList := by
    rintro rfl
    exact notMem_of_isNumberText (c := 'F') number (by decide) (by decide)
  have noString : scan pythonLiteralSyntax text = none := by
    cases text with
    | nil => rfl
    | cons c rest =>
      have quote : c ≠ '"' := by
        rintro rfl
        exact notMem_of_isNumberText number (by decide) List.mem_cons_self
      rw [scan]
      exact fun body equal => quote (List.cons.inj equal).1
  rw [pythonLiteral, if_neg notTrue, if_neg notFalse, noString]
  cases readInteger text <;> rfl

theorem javascriptLiteral_number {text : List Char} (number : IsNumberText text) :
    javascriptLiteral text =
      ((readInteger text).map fun value => .number (.ofInt .binary64 value)).or
        ((readFloat .binary64 text).map .number) := by
  have notTrue : text ≠ "true".toList := by
    rintro rfl
    exact notMem_of_isNumberText (c := 't') number (by decide) (by decide)
  have notFalse : text ≠ "false".toList := by
    rintro rfl
    exact notMem_of_isNumberText (c := 'f') number (by decide) (by decide)
  have noSuffix : text.getLast? ≠ some 'n' := fun last =>
    notMem_of_isNumberText number (by decide) (List.mem_of_getLast? last)
  have noString : scan javascriptLiteralSyntax text = none := by
    cases text with
    | nil => rfl
    | cons c rest =>
      have quote : c ≠ '"' := by
        rintro rfl
        exact notMem_of_isNumberText number (by decide) List.mem_cons_self
      rw [scan]
      exact fun body equal => quote (List.cons.inj equal).1
  rw [javascriptLiteral, if_neg notTrue, if_neg notFalse, noString]
  simp only [if_neg noSuffix]
  cases readInteger text <;> rfl

theorem readInteger_of_point {text : List Char} (point : '.' ∈ text) : readInteger text = none := by
  have inDigits : '.' ∈ (splitSign text).2 := by
    cases text with
    | nil => cases point
    | cons c rest =>
      by_cases minus : c = '-'
      · subst minus
        simpa [splitSign] using point
      · have unsigned : splitSign (c :: rest) = (false, c :: rest) := by
          rw [splitSign]
          exact fun rest equal => minus (List.cons.inj equal).1
        rwa [unsigned]
  have notDigits : ¬ ((splitSign text).2 ≠ [] ∧ (splitSign text).2.all Char.isDigit = true) := by
    intro digits
    exact absurd (List.all_eq_true.mp digits.2 '.' inDigits) (by decide)
  simp only [readInteger, if_neg notDigits]

theorem point_mem_withPoint (text : List Char) : '.' ∈ withPoint text := by
  by_cases member : '.' ∈ text <;> simp [withPoint, member]

/-! ## Strings -/

/-- The hexadecimal escapes hold no direction mark. -/
theorem hexEscape_noMark :
    ∀ n < 256, ('\\' :: 'x' :: hexPadded 2 n).any isDirectionMark = false := by
  decide +kernel

/-- Escapes neither add nor hide direction marks. -/
theorem any_isDirectionMark_escapeChar (dialect : StringLiteralDialect) (c : Char) :
    (escapeChar dialect c).any isDirectionMark = isDirectionMark c := by
  obtain named | ⟨control, escaped⟩ | ⟨-, -, plain⟩ := escapeChar_cases c
  · simp only [namedEscapes, List.mem_cons, List.not_mem_nil, or_false] at named
    obtain rfl | rfl | rfl | rfl | rfl | rfl | rfl | rfl := named <;> cases dialect <;> decide
  · have byte := byte_of_isControl control
    have noMark : isDirectionMark c = false := by
      simp only [isDirectionMark, Bool.or_eq_false_iff, Bool.and_eq_false_iff, decide_eq_false_iff_not]
      omega
    rw [escaped, hexEscape_noMark c.toNat byte, noMark]
  · simp [plain]

theorem any_isDirectionMark_rustStringLiteral (value : String) :
    (rustStringLiteral value).any isDirectionMark = value.toList.any isDirectionMark := by
  have quote : isDirectionMark '"' = false := by decide
  simp only [rustStringLiteral, escapeStringLiteralBody, List.any_cons, List.any_append, List.any_nil,
    List.any_flatMap, any_isDirectionMark_escapeChar, quote, Bool.or_false, Bool.false_or]

theorem any_isDirectionMark_rust (value : String) :
    (literalToRust (.string value)).any isDirectionMark = value.toList.any isDirectionMark := by
  have suffix : ".to_string()".toList.any isDirectionMark = false := by decide
  rw [literalToRust, List.any_append, any_isDirectionMark_rustStringLiteral, suffix, Bool.or_false]

theorem rustLiteral_string (value : String) :
    rustLiteral .utf8 (literalToRust (.string value)) =
      if ∀ c ∈ value.toList, isHighControl c = false ∧ isDirectionMark c = false then some value
      else none := by
  have written : (∀ c ∈ value.toList, isHighControl c = false ∧ isDirectionMark c = false) ↔
      value.toList.all (fun c => !isHighControl c) = true ∧
        value.toList.any isDirectionMark = false := by
    simp only [List.all_eq_true, List.any_eq_false, Bool.not_eq_true', Bool.not_eq_true]
    exact ⟨fun all => ⟨fun c member => (all c member).1, fun c member => (all c member).2⟩,
      fun all c member => ⟨all.1 c member, all.2 c member⟩⟩
  rw [rustLiteral, any_isDirectionMark_rust]
  simp only [written, literalToRust, scan_rustStringLiteral]
  by_cases scanned : value.toList.all (fun c => !isHighControl c) = true
  · simp only [scanned, if_true, true_and, String.ofList_toList, Bool.not_eq_true]
  · simp only [scanned, Bool.false_eq_true, if_false, false_and]

theorem pythonLiteral_string (value : String) :
    pythonLiteral (pythonStringLiteral value) = some (.str value) := by
  have scanned := scan_pythonStringLiteral value []
  rw [List.append_nil] at scanned
  have notTrue : pythonStringLiteral value ≠ "True".toList := fun same =>
    absurd (congrArg List.head? same) (by simp [pythonStringLiteral])
  have notFalse : pythonStringLiteral value ≠ "False".toList := fun same =>
    absurd (congrArg List.head? same) (by simp [pythonStringLiteral])
  simp only [pythonLiteral, if_neg notTrue, if_neg notFalse, scanned, String.ofList_toList]

theorem javascriptLiteral_string (value : String) :
    javascriptLiteral (typescriptStringLiteral value) = some (.string value) := by
  have scanned := scan_typescriptStringLiteral value []
  rw [List.append_nil] at scanned
  have notTrue : typescriptStringLiteral value ≠ "true".toList := fun same =>
    absurd (congrArg List.head? same) (by simp [typescriptStringLiteral, pythonStringLiteral])
  have notFalse : typescriptStringLiteral value ≠ "false".toList := fun same =>
    absurd (congrArg List.head? same) (by simp [typescriptStringLiteral, pythonStringLiteral])
  simp only [javascriptLiteral, if_neg notTrue, if_neg notFalse, scanned, String.ofList_toList]

theorem defaultAgrees_string (value : String) :
    DefaultAgrees .string (.string value) ↔ DefaultWritable .string (.string value) := by
  simp only [DefaultWritable]
  constructor
  · rintro ⟨scalar, found, agrees⟩
    cases agrees.leaf
    have ran := agrees.rust.2
    rw [rustLiteral_string] at ran
    exact (Option.ite_none_right_eq_some.mp ran).1
  · intro writable
    have read : rustLiteral .utf8 (literalToRust (.string value)) = some value := by
      rw [rustLiteral_string, if_pos writable]
    exact ⟨.utf8, value, rfl, rfl, ⟨rfl, read⟩, ⟨.str value, pythonLiteral_string value, rfl, rfl⟩,
      ⟨.string value, javascriptLiteral_string value, rfl, rfl⟩⟩

theorem defaultAgrees_bool (value : Bool) : DefaultAgrees .bool (.bool value) := by
  refine ⟨.boolean, value, rfl, rfl, ⟨rfl, ?_⟩, ⟨.bool value, ?_, rfl, rfl⟩,
    ⟨.boolean value, ?_, rfl, rfl⟩⟩ <;> cases value <;> rfl

/-! ## Integers -/

theorem ofPy_int (scalar : Scalar) (n : ℤ) : scalar.ofPy (.int n) = intScalar scalar n := by
  cases scalar <;> simp only [Scalar.ofPy, intScalar, pyIntWithin] <;> split <;> rfl

theorem ofJs_number {scalar : Scalar} {n : ℤ} {value : scalar.Value} (narrow : scalar ≠ .int64)
    (inRange : intScalar scalar n = some value) :
    scalar.ofJs (.number (.ofInt .binary64 n)) = some value := by
  cases scalar with
  | int64 => exact absurd rfl narrow
  | boolean | utf8 | binary | float32 | float64 => cases inRange
  | int8 | int16 | int32 | uint8 =>
    simp only [intScalar, Option.ite_none_right_eq_some] at inRange
    obtain ⟨⟨lower, upper⟩, same⟩ := inRange
    have small : n.natAbs ≤ 2 ^ 31 := by omega
    simp only [Scalar.ofJs, FloatValue.toInt_ofInt (representable_of_small small)]
    exact same

theorem rustLiteral_integer {scalar : Scalar} {n : ℤ} {value : scalar.Value}
    (inRange : intScalar scalar n = some value) :
    rustLiteral scalar (displayInteger n) = some value := by
  cases scalar with
  | boolean | utf8 | binary | float32 | float64 => cases inRange
  | int8 | int16 | int32 | int64 | uint8 =>
    simp only [rustLiteral, readInteger_displayInteger, Option.bind_some]
    exact inRange

/-- An integer that validation lets through is in the range of its field's type. -/
theorem intScalar_of_validate {skillName fieldName : String} {ty : LaicType} {n : Int64}
    (accepted : validateDefaultCompat skillName fieldName ty (.integer n) = .ok ())
    (notFloat : ty ≠ .f32 ∧ ty ≠ .f64) :
    ∃ scalar value, ty.leafScalar = some scalar ∧ intScalar scalar n.toInt = some value := by
  simp only [validateDefaultCompat, Except.bind_eq_ok, Except.ensure_eq_ok] at accepted
  obtain ⟨_, _, _, compatible, inRange⟩ := accepted
  cases ty with
  | string | bytes | bool | tensor | list | optional | map => cases compatible
  | f32 => exact absurd rfl notFloat.1
  | f64 => exact absurd rfl notFloat.2
  | i64 =>
    have lower := n.le_toInt
    have upper := n.toInt_lt
    exact ⟨.int64, _, rfl, if_pos ⟨lower, upper⟩⟩
  | i8 | i16 | i32 | u8 =>
    simp only [integerDefaultBounds, Except.ensure_eq_ok] at inRange
    exact ⟨_, _, rfl, if_pos (by omega)⟩

/-- A whole number has no point, which a float literal of Rust needs. -/
theorem readFloat_displayInteger (format : FloatFormat) (n : ℤ) :
    readFloat format (displayInteger n) = none := by
  have noPoint : '.' ∉ (splitSign (displayInteger n)).2 := by
    have digits (m : ℕ) : '.' ∉ Text.decimal m := point_notMem_of_isDigit (all_isDigit_decimal m)
    by_cases negative : n < 0
    · rw [displayInteger, if_pos negative]
      exact digits _
    · have unsigned := splitSign_decimal n.natAbs []
      rw [List.append_nil] at unsigned
      rw [displayInteger, if_neg negative, unsigned]
      exact digits _
  simp [readFloat, readDecimal, Text.splitOn_of_notMem noPoint]

theorem pythonLiteral_integer (n : ℤ) : pythonLiteral (displayInteger n) = some (.int n) := by
  rw [pythonLiteral_number (isNumberText_displayInteger n), readInteger_displayInteger]
  rfl

theorem javascriptLiteral_integer (n : ℤ) :
    javascriptLiteral (displayInteger n) = some (.number (.ofInt .binary64 n)) := by
  rw [javascriptLiteral_number (isNumberText_displayInteger n), readInteger_displayInteger]
  rfl

theorem javascriptLiteral_bigint (n : ℤ) :
    javascriptLiteral (displayInteger n ++ ['n']) = some (.bigint n) := by
  have last : (displayInteger n ++ ['n']).getLast? = some 'n' := by simp
  have notTrue : displayInteger n ++ ['n'] ≠ "true".toList := fun same =>
    absurd (last.symm.trans (congrArg List.getLast? same)) (by decide)
  have notFalse : displayInteger n ++ ['n'] ≠ "false".toList := fun same =>
    absurd (last.symm.trans (congrArg List.getLast? same)) (by decide)
  have noString : scan javascriptLiteralSyntax (displayInteger n ++ ['n']) = none := by
    have noQuote := notMem_of_isNumberText (c := '"') (isNumberText_displayInteger n) (by decide)
    cases text : displayInteger n with
    | nil => rfl
    | cons c rest =>
      rw [text] at noQuote
      rw [List.cons_append, scan]
      exact fun body equal => noQuote (by rw [(List.cons.inj equal).1]; exact List.mem_cons_self)
  simp only [javascriptLiteral, if_neg notTrue, if_neg notFalse, noString, last, if_true,
    List.dropLast_concat, readInteger_displayInteger, Option.map_some]

theorem defaultAgrees_integer {skillName fieldName : String} {ty : LaicType} {n : Int64}
    (accepted : validateDefaultCompat skillName fieldName ty (.integer n) = .ok ()) :
    DefaultAgrees ty (.integer n) ↔ DefaultWritable ty (.integer n) := by
  constructor
  · rintro ⟨scalar, value, agrees⟩
    have ran := agrees.rust.2
    constructor
    · rintro rfl
      cases agrees.leaf
      simp [rustLiteral, literalToRust, readFloat_displayInteger] at ran
    · rintro rfl
      cases agrees.leaf
      simp [rustLiteral, literalToRust, readFloat_displayInteger] at ran
  · intro notFloat
    obtain ⟨scalar, value, leaf, inRange⟩ := intScalar_of_validate accepted notFloat
    have read := rustLiteral_integer inRange
    have python : scalar.ofPy (.int n.toInt) = some value := by rw [ofPy_int, inRange]
    refine ⟨scalar, value, ⟨leaf, ?_, ⟨rustType_of_leaf leaf, read⟩,
      ⟨.int n.toInt, pythonLiteral_integer _, ?_, python⟩, ?_⟩⟩
    · cases scalar <;> first | exact inRange | cases inRange
    · cases ty with
      | i8 | i16 | i32 | i64 | u8 => rfl
      | string | bytes | bool | tensor | f32 | f64 => cases leaf; cases inRange
      | list | optional | map => cases leaf
    · cases ty with
      | i64 =>
        cases leaf
        have same : Int64.ofInt n.toInt = value :=
          Option.some.inj (Option.ite_none_right_eq_some.mp inRange).2
        refine ⟨.bigint n.toInt, javascriptLiteral_bigint _, rfl, ?_⟩
        rw [← same]
        rfl
      | i8 | i16 | i32 | u8 =>
        cases leaf
        exact ⟨.number (.ofInt .binary64 n.toInt), javascriptLiteral_integer _, rfl,
          ofJs_number (by decide) inRange⟩
      | string | bytes | bool | tensor | f32 | f64 => cases leaf; cases inRange
      | list | optional | map => cases leaf

/-! ## Floats -/

theorem readInteger_displayFloat {format : FloatFormat} (value : FloatValue format) :
    readInteger (withPoint (displayFloat value)) = none :=
  readInteger_of_point (point_mem_withPoint _)

variable {negative : Bool} {magnitude : {q : ℚ // FloatFormat.binary64.Representable q}}

theorem pythonLiteral_float :
    pythonLiteral (withPoint (displayFloat (.finite negative magnitude))) =
      some (.float (.finite negative magnitude)) := by
  have read : readFloat .binary64 (withPoint (displayFloat (.finite negative magnitude))) =
      some (.finite negative magnitude) :=
    readFloat_displayFloat_self (nonneg_of_representable magnitude.2)
  rw [pythonLiteral_number (isNumberText_displayFloat negative magnitude), readInteger_displayFloat,
    read]
  rfl

theorem javascriptLiteral_float :
    javascriptLiteral (withPoint (displayFloat (.finite negative magnitude))) =
      some (.number (.finite negative magnitude)) := by
  have read : readFloat .binary64 (withPoint (displayFloat (.finite negative magnitude))) =
      some (.finite negative magnitude) :=
    readFloat_displayFloat_self (nonneg_of_representable magnitude.2)
  rw [javascriptLiteral_number (isNumberText_displayFloat negative magnitude),
    readInteger_displayFloat, read]
  rfl

theorem rustLiteral_float64 :
    rustLiteral .float64 (literalToRust (.float (.finite negative magnitude))) =
      some (.finite negative magnitude) := by
  have read : readFloat .binary64 (withPoint (displayFloat (.finite negative magnitude))) =
      some (.finite negative magnitude) :=
    readFloat_displayFloat_self (nonneg_of_representable magnitude.2)
  simp only [rustLiteral, literalToRust, read]
  rfl

/-- What Rust's `Display` writes for a float is its shortest decimal: where any decimal of at most
seventeen digits reads as the float, none that does has fewer digits than the emitted one. -/
theorem literalToRust_shortest (positive : 0 < magnitude.1) {d : Decimal} (few : d.digits < 10 ^ 17)
    (reads : FloatFormat.binary64.roundMagnitude d.value = magnitude.1) :
    ∃ emitted, IsShortest .binary64 magnitude.1 emitted ∧
      literalToRust (.float (.finite false magnitude)) = withPoint emitted.text :=
  ⟨_, isShortest_shortest positive magnitude.2 few reads, rfl⟩

/-- The shortest decimal of a positive magnitude is positive. -/
theorem shortest_pos {m : ℚ} (positive : 0 < m) (representable : FloatFormat.binary64.Representable m) :
    0 < (shortest .binary64 m).value := by
  have rounds := shortest_rounds positive.le representable
  by_contra notPositive
  have zero : (shortest .binary64 m).value = 0 :=
    le_antisymm (not_lt.mp notPositive)
      (mul_nonneg (Nat.cast_nonneg _) (zpow_nonneg (by norm_num) _))
  rw [zero, FloatFormat.roundMagnitude_zero] at rounds
  exact positive.ne rounds

/-- `f32` rounds the shortest decimal as it rounds the float, but for ties. -/
theorem roundMagnitude_shortest {m : ℚ} (representable : FloatFormat.binary64.Representable m) :
    FloatFormat.binary32.roundMagnitude (shortest .binary64 m).value =
        FloatFormat.binary32.roundMagnitude m ↔
      FloatFormat.TieSafe .binary32 m (shortest .binary64 m).value := by
  obtain positive | zero := (nonneg_of_representable representable).lt_or_eq
  · exact FloatFormat.roundMagnitude_eq_iff FloatFormat.binary64_separates_binary32
      (shortest_rounds positive.le representable) (shortest_pos positive representable) positive
  · subst zero
    have none : (shortest .binary64 0).value = 0 := by simp [shortest, Decimal.value]
    simp [none, FloatFormat.TieSafe]

/-- A magnitude that rounds below the largest power of two is finite. -/
theorem round_eq_finite {format : FloatFormat} {x : ℚ} (sign : Bool)
    (below : format.roundMagnitude x < 2 ^ format.maxExponent) :
    FloatValue.round format sign x = .finite sign ⟨_, format.roundMagnitude_representable below⟩ :=
  dif_pos below

theorem rustLiteral_float32 :
    rustLiteral .float32 (literalToRust (.float (.finite negative magnitude))) =
        some (FloatValue.convert .binary32 (.finite negative magnitude)) ↔
      DefaultWritable .f32 (.float (.finite negative magnitude)) := by
  have read : readFloat .binary32 (withPoint (displayFloat (.finite negative magnitude))) =
      some (.round .binary32 negative (shortest .binary64 magnitude.1).value) :=
    readFloat_displayFloat negative magnitude
  simp only [rustLiteral, literalToRust, read, DefaultWritable, FloatValue.convert,
    ← roundMagnitude_shortest magnitude.2]
  generalize (shortest .binary64 magnitude.1).value = decimal
  by_cases below : FloatFormat.binary32.roundMagnitude decimal < 2 ^ FloatFormat.binary32.maxExponent
  · rw [round_eq_finite negative below]
    by_cases finite : FloatFormat.binary32.roundMagnitude magnitude.1 <
        2 ^ FloatFormat.binary32.maxExponent
    · rw [round_eq_finite negative finite]
      simp [Option.filter, FloatValue.isInfinite, finite]
    · simp [Option.filter, FloatValue.isInfinite, FloatValue.round, finite]
  · -- an infinity is refused
    have other : ¬ (FloatFormat.binary32.roundMagnitude magnitude.1 <
          2 ^ FloatFormat.binary32.maxExponent ∧
        FloatFormat.binary32.roundMagnitude decimal =
          FloatFormat.binary32.roundMagnitude magnitude.1) := by
      rintro ⟨finite, same⟩
      exact below (same ▸ finite)
    simp [Option.filter, FloatValue.isInfinite, FloatValue.round, below, other]

/-- The text of what is not finite is no number in Rust. -/
theorem rustLiteral_notFinite {value : F64} {scalar : Scalar}
    (isFloat : scalar = .float32 ∨ scalar = .float64)
    (notFinite : value = .nan ∨ ∃ sign, value = .infinite sign) :
    rustLiteral scalar (literalToRust (.float value)) = none := by
  obtain rfl | rfl := isFloat <;> obtain rfl | ⟨sign, rfl⟩ := notFinite <;>
    first | rfl | (cases sign <;> rfl)

theorem defaultAgrees_float {ty : LaicType} {value : F64} (isFloat : ty = .f32 ∨ ty = .f64) :
    DefaultAgrees ty (.float value) ↔ DefaultWritable ty (.float value) := by
  cases value with
  | nan | infinite =>
    -- the literal of Rust is refused
    constructor
    · rintro ⟨scalar, found, agrees⟩
      have float : scalar = .float32 ∨ scalar = .float64 := by
        obtain rfl | rfl := isFloat <;> cases agrees.leaf <;> simp
      have read := agrees.rust.2
      rw [rustLiteral_notFinite float (by simp)] at read
      cases read
    · obtain rfl | rfl := isFloat <;> exact False.elim
  | finite negative magnitude =>
    obtain rfl | rfl := isFloat
    · constructor
      · rintro ⟨scalar, found, agrees⟩
        cases agrees.leaf
        apply rustLiteral_float32.mp
        rw [agrees.rust.2, ← agrees.denotes]
        rfl
      · intro writable
        exact ⟨.float32, _, rfl, rfl, ⟨rfl, rustLiteral_float32.mpr writable⟩,
          ⟨_, pythonLiteral_float, rfl, rfl⟩, ⟨_, javascriptLiteral_float, rfl, rfl⟩⟩
    · refine iff_of_true ?_ trivial
      exact ⟨.float64, _, rfl, rfl, ⟨rfl, rustLiteral_float64⟩, ⟨_, pythonLiteral_float, rfl, rfl⟩,
        ⟨_, javascriptLiteral_float, rfl, rfl⟩⟩

/-! ## Defaults of accepted contracts -/

/-- The literals of a default of an accepted contract agree exactly where all targets can
write it. -/
theorem defaultAgrees_iff {source : String} {file : LaicFile} (accepted : compile source = .ok file) :
    ∀ entry ∈ file.structs, ∀ field ∈ entry.2.2.fields, ∀ literal, field.default = some literal →
      (DefaultAgrees field.ty literal ↔ DefaultWritable field.ty literal) := by
  intro entry inFile field inStruct literal default
  have checked := validateDefaultCompat_of_compile accepted entry inFile field inStruct literal default
  have compatible : defaultCompatible field.ty literal = true := by
    simp only [validateDefaultCompat, Except.bind_eq_ok, Except.ensure_eq_ok] at checked
    obtain ⟨_, _, _, compatible, _⟩ := checked
    exact compatible
  generalize field.ty = ty at checked compatible ⊢
  cases literal with
  | integer value => exact defaultAgrees_integer checked
  | string value =>
    cases ty <;> first | exact defaultAgrees_string value | cases compatible
  | bool value =>
    cases ty <;> first | exact iff_of_true (defaultAgrees_bool value) trivial | cases compatible
  | float value =>
    cases ty <;>
      first | exact defaultAgrees_float (.inl rfl) | exact defaultAgrees_float (.inr rfl) | cases compatible

theorem defaultAgrees_iff_negative :
    ∃ file, compile (skillSource "I" "x:i64=-5;" "O" "x:bool;" "") = .ok file ∧
      ∃ entry ∈ file.structs, ∃ field ∈ entry.2.2.fields, ∃ literal, field.default = some literal ∧
        DefaultAgrees field.ty literal := by
  obtain ⟨file, accepted, entry, inFile, field, inStruct, found⟩ : ∃ file,
      compile (skillSource "I" "x:i64=-5;" "O" "x:bool;" "") = .ok file ∧
        ∃ entry ∈ file.structs, ∃ field ∈ entry.2.2.fields,
          field.ty = .i64 ∧ field.default = some (.integer (-5)) :=
    exists_field_of_any (by decide +kernel)
  refine ⟨file, accepted, entry, inFile, field, inStruct, _, found.2, ?_⟩
  apply (defaultAgrees_iff accepted entry inFile field inStruct _ found.2).mpr
  rw [found.1]
  exact ⟨by decide, by decide⟩

/-- Validation lets a float field default to an integer, which is no float in Rust. -/
theorem defaultAgrees_counterexample :
    ¬ ∀ source file, compile source = .ok file →
      ∀ entry ∈ file.structs, ∀ field ∈ entry.2.2.fields, ∀ literal, field.default = some literal →
        DefaultAgrees field.ty literal := by
  intro all
  obtain ⟨file, accepted, entry, inFile, field, inStruct, found⟩ : ∃ file,
      compile (skillSource "I" "x:f32=1;" "O" "x:bool;" "") = .ok file ∧
        ∃ entry ∈ file.structs, ∃ field ∈ entry.2.2.fields,
          field.ty = .f32 ∧ field.default = some (.integer 1) :=
    exists_field_of_any (by decide +kernel)
  have checked := validateDefaultCompat_of_compile accepted entry inFile field inStruct _ found.2
  have writable := (defaultAgrees_integer checked).mp
    (all _ file accepted entry inFile field inStruct _ found.2)
  exact writable.1 found.1

end Laic
