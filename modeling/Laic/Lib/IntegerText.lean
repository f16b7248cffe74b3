import Laic.Lib.DecimalText
import Laic.Lib.Text
import Mathlib.Data.List.TakeWhile

/-! # Integers that scripting languages read

`int` of Python and `Number.parseInt` of JavaScript with radix 10, on the text of a
number and on anything else: Python reads the whole text or raises, JavaScript reads the
digits in front and ignores the rest. -/

namespace Text

/-! ## Characters -/

/-- The digit zero of every decimal system of Unicode; nine more digits follow each. -/
def decimalZeros : List Nat :=
  [0x30, 0x660, 0x6F0, 0x7C0, 0x966, 0x9E6, 0xA66, 0xAE6, 0xB66, 0xBE6, 0xC66, 0xCE6, 0xD66, 0xDE6,
    0xE50, 0xED0, 0xF20, 0x1040, 0x1090, 0x17E0, 0x1810, 0x1946, 0x19D0, 0x1A80, 0x1A90, 0x1B50,
    0x1BB0, 0x1C40, 0x1C50, 0xA620, 0xA8D0, 0xA900, 0xA9D0, 0xA9F0, 0xAA50, 0xABF0, 0xFF10, 0x104A0,
    0x10D30, 0x11066, 0x110F0, 0x11136, 0x111D0, 0x112F0, 0x11450, 0x114D0, 0x11650, 0x116C0,
    0x11730, 0x118E0, 0x11950, 0x11C50, 0x11D50, 0x11DA0, 0x16A60, 0x16AC0, 0x16B50, 0x1D7CE,
    0x1D7D8, 0x1D7E2, 0x1D7EC, 0x1D7F6, 0x1E140, 0x1E2F0, 0x1E950, 0x1FBF0]

/-- The value of a decimal digit. -/
def decimalDigit? (c : Char) : Option Nat :=
  (decimalZeros.find? fun start => start ≤ c.toNat && c.toNat < start + 10).map fun start =>
    c.toNat - start

/-- White space and line terminators of JavaScript. -/
def isJavascriptSpace (c : Char) : Bool := (isWhitespace c && c.toNat != 0x85) || c.toNat == 0xFEFF

/-- A sign, and the text behind it. -/
def sign : List Char → Bool × List Char
  | '-' :: text => (true, text)
  | '+' :: text => (false, text)
  | text => (false, text)

theorem sign_of_isDigit {c : Char} {text : List Char} (digit : c.isDigit = true) :
    sign (c :: text) = (false, c :: text) := by
  have minus : c ≠ '-' := by rintro rfl; exact absurd digit (by decide)
  have plus : c ≠ '+' := by rintro rfl; exact absurd digit (by decide)
  rw [sign]
  · exact fun rest equal => minus (List.cons.inj equal).1
  · exact fun rest equal => plus (List.cons.inj equal).1

theorem sign_decimal (n : Nat) : sign (decimal n) = (false, decimal n) := by
  cases digits : decimal n with
  | nil => exact absurd digits (decimal_ne_nil n)
  | cons c rest =>
    apply sign_of_isDigit
    exact isDigit_of_mem_decimal (n := n) (by simp [digits])

theorem toNat_of_isDigit {c : Char} (digit : c.isDigit = true) :
    48 ≤ c.toNat ∧ c.toNat < 58 := by
  simp only [Char.isDigit, Bool.and_eq_true, decide_eq_true_eq, ge_iff_le, UInt32.le_iff_toNat_le] at digit
  have lower : 48 ≤ c.toNat := digit.1
  have upper : c.toNat ≤ 57 := digit.2
  omega

theorem decimalDigit?_of_isDigit {c : Char} (digit : c.isDigit = true) :
    decimalDigit? c = some (c.toNat - '0'.toNat) := by
  obtain ⟨lower, upper⟩ := toNat_of_isDigit digit
  simp [decimalDigit?, decimalZeros, lower, upper]

theorem isWhitespace_of_isDigit {c : Char} (digit : c.isDigit = true) : isWhitespace c = false :=
  isWhitespace_of_isAlphanum (by simp [Char.isAlphanum, digit])

theorem isJavascriptSpace_of_isDigit {c : Char} (digit : c.isDigit = true) :
    isJavascriptSpace c = false := by
  obtain ⟨lower, upper⟩ := toNat_of_isDigit digit
  simp only [isJavascriptSpace, isWhitespace_of_isDigit digit, Bool.false_and, Bool.false_or,
    beq_eq_false_iff_ne, ne_eq]
  omega

/-! ## Python -/

/-- The number that the digits spell, with `sofar` in front; an underscore may stand
between two digits. -/
def pythonDigits : Nat → List Char → Option Nat
  | sofar, [] => some sofar
  | sofar, '_' :: c :: text => do
    let digit ← decimalDigit? c
    pythonDigits (10 * sofar + digit) text
  | sofar, c :: text => do
    let digit ← decimalDigit? c
    pythonDigits (10 * sofar + digit) text

/-- `sys.int_info.default_max_str_digits`: `int` raises on more digits. -/
def maxStrDigits : Nat := 4300

/-- `int`; `none` where it raises.  The separators `U+001C` to `U+001F` of ASCII are spaces to
`str.isspace` and not to `int`. -/
def pythonInt (text : List Char) : Option Int :=
  match sign (trimMatches isWhitespace text) with
  | (_, []) => none
  | (negative, c :: digits) => do
    let first ← decimalDigit? c
    let n ← pythonDigits first digits
    if maxStrDigits < (c :: digits).countP (· ≠ '_') then none
    else some (if negative then -(n : Int) else n)

theorem pythonDigits_eq {digits : List Char} (all : ∀ c ∈ digits, c.isDigit = true) (sofar : Nat) :
    pythonDigits sofar digits = some (digitsValue digits sofar) := by
  induction digits generalizing sofar with
  | nil => simp [pythonDigits, digitsValue]
  | cons c digits ih =>
    have digit := all c List.mem_cons_self
    have rest := ih (fun c' member => all c' (List.mem_cons_of_mem c member))
      (10 * sofar + (c.toNat - '0'.toNat))
    have notUnderscore : c ≠ '_' := by rintro rfl; exact absurd digit (by decide)
    rw [pythonDigits]
    · rw [decimalDigit?_of_isDigit digit, Option.bind_eq_bind, Option.bind_some, rest]
      simp [digitsValue, Nat.ofDigitChars_cons]
    · exact fun c' text equal => absurd equal notUnderscore

/-- A decimal is read as its number unless it has too many digits. -/
theorem pythonInt_decimal_eq (n : Nat) :
    pythonInt (decimal n) = if maxStrDigits < (decimal n).countP (· ≠ '_') then none else some (n : Int) := by
  have all : ∀ c ∈ decimal n, c.isDigit = true := fun c member => isDigit_of_mem_decimal member
  have trimmed : trimMatches isWhitespace (decimal n) = decimal n :=
    trimMatches_eq_self fun c member => isWhitespace_of_isDigit (all c member)
  have value := digitsValue_decimal n
  rw [pythonInt, trimmed, sign_decimal]
  cases digits : decimal n with
  | nil => exact absurd digits (decimal_ne_nil n)
  | cons c rest =>
    rw [digits] at all value
    have digit := all c List.mem_cons_self
    have later := pythonDigits_eq (fun c' member => all c' (List.mem_cons_of_mem c member))
      (c.toNat - '0'.toNat)
    have same : digitsValue rest (c.toNat - '0'.toNat) = n := by
      simpa [digitsValue, Nat.ofDigitChars_cons] using value
    rw [same] at later
    simp only [decimalDigit?_of_isDigit digit, later, Option.bind_eq_bind, Option.bind_some,
      Bool.false_eq_true, if_false]

theorem pythonInt_decimal {n : Nat} (fits : n < 10 ^ maxStrDigits) : pythonInt (decimal n) = some n := by
  have few : (decimal n).countP (· ≠ '_') ≤ maxStrDigits := by
    apply List.countP_le_length.trans
    exact (Nat.length_toDigits_le_iff (by decide) (by decide)).mpr fits
  rw [pythonInt_decimal_eq, if_neg (not_lt.mpr few)]
  rfl

/-! ## JavaScript -/

/-- `Number.parseInt` with radix 10; `none` for NaN. -/
def parseIntPrefix (text : List Char) : Option (FloatValue .binary64) :=
  match sign (text.dropWhile isJavascriptSpace) with
  | (negative, digits) =>
    if digits.takeWhile Char.isDigit = [] then none
    else some (FloatValue.round .binary64 negative (digitsValue (digits.takeWhile Char.isDigit) 0))

theorem parseIntPrefix_decimal (n : Nat) :
    parseIntPrefix (decimal n) = some (FloatValue.ofInt .binary64 n) := by
  have all : ∀ c ∈ decimal n, c.isDigit = true := fun c member => isDigit_of_mem_decimal member
  have dropped : (decimal n).dropWhile isJavascriptSpace = decimal n :=
    dropWhile_eq_self fun c member =>
      isJavascriptSpace_of_isDigit (all c (List.mem_of_mem_head? member))
  have taken : (decimal n).takeWhile Char.isDigit = decimal n := List.takeWhile_eq_self_iff.mpr all
  have nonnegative : ¬ (n : Int) < 0 := by omega
  simp [parseIntPrefix, dropped, sign_decimal, taken, decimal_ne_nil, FloatValue.ofInt, nonnegative]

/-- The code units of a text, each half of a surrogate pair as a replacement character. -/
def codeUnits (text : List Char) : List Char :=
  text.flatMap fun c => if c.toNat < 0x10000 then [c] else ['\uFFFD', '\uFFFD']

theorem codeUnits_of_ascii {text : List Char} (ascii : ∀ c ∈ text, c.toNat < 128) :
    codeUnits text = text := by
  induction text with
  | nil => rfl
  | cons c text ih =>
    have small : c.toNat < 0x10000 := Nat.lt_trans (ascii c List.mem_cons_self) (by decide)
    have rest := ih fun c' member => ascii c' (List.mem_cons_of_mem c member)
    simp only [codeUnits, List.flatMap_cons, if_pos small] at rest ⊢
    rw [rest]
    rfl

/-- `slice(1, -1)`. -/
def sliceInner (units : List Char) : List Char := (units.drop 1).dropLast

end Text
