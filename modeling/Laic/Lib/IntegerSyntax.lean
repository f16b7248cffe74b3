import Laic.Lib.IntegerText

/-! # What the integer readers accept

The texts that the readers of three languages take for a number, described without the readers:
what may stand around the digits, which digits there are, and which number they spell. -/

namespace Text

/-! ## Padding -/

/-- The core with characters of `p` before and after it. -/
def Padded (p : Char → Bool) (core text : List Char) : Prop :=
  ∃ lead trail, text = lead ++ core ++ trail ∧ ∀ c ∈ lead ++ trail, p c = true

/-- Neither end of the text is a character of `p`. -/
def Trimmed (p : Char → Bool) (text : List Char) : Prop :=
  (∀ c ∈ text.head?, p c = false) ∧ ∀ c ∈ text.getLast?, p c = false

variable {p : Char → Bool} {text core : List Char}

/-- A plus sign or none, and digits whose number is below `bound`. -/
def SpellsUnsigned (bound : Nat) (text : List Char) (n : Nat) : Prop :=
  ∃ plus digits, text = plus ++ digits ∧ (plus = [] ∨ plus = ['+']) ∧ digits ≠ [] ∧
    (∀ c ∈ digits, c.isDigit = true) ∧ digitsValue digits 0 = n ∧ n < bound

/-- Signs and digits are no white space of Rust. -/
theorem SpellsUnsigned.trimmed {bound n : Nat} (spelled : SpellsUnsigned bound text n) :
    Trimmed isWhitespace text := by
  obtain ⟨plus, digits, rfl, sign, -, all, -⟩ := spelled
  have visible : ∀ c ∈ plus ++ digits, isWhitespace c = false := by
    intro c member
    obtain inPlus | inDigits := List.mem_append.mp member
    · obtain rfl | rfl := sign
      · cases inPlus
      · rw [List.mem_singleton.mp inPlus]
        decide
    · exact isWhitespace_of_isDigit (all c inDigits)
  exact ⟨fun c head => visible c (List.mem_of_mem_head? head),
    fun c last => visible c (List.mem_of_mem_getLast? last)⟩

/-- How a sign is written; none is positive. -/
inductive SignText : Bool → List Char → Prop where
  | none : SignText false []
  | plus : SignText false ['+']
  | minus : SignText true ['-']

/-- Decimal digits, where one underscore may stand between two of them, and their number. -/
inductive SpellsDigits : List Char → Nat → Prop where
  | first {c : Char} {digit : Nat} : decimalDigit? c = some digit → SpellsDigits [c] digit
  | next {text : List Char} {c : Char} {n digit : Nat} :
    SpellsDigits text n → decimalDigit? c = some digit → SpellsDigits (text ++ [c]) (10 * n + digit)
  | underscore {text : List Char} {c : Char} {n digit : Nat} :
    SpellsDigits text n → decimalDigit? c = some digit → SpellsDigits (text ++ ['_', c]) (10 * n + digit)

/-- An integer literal without white space: a sign or none, and at most the limit of digits. -/
def SpellsInt (text : List Char) (value : Int) : Prop :=
  ∃ negative written digits n, text = written ++ digits ∧ SignText negative written ∧
    SpellsDigits digits n ∧ digits.countP (· ≠ '_') ≤ maxStrDigits ∧
    value = if negative then -(n : Int) else n

/-- The last character of a literal is a digit. -/
theorem SpellsDigits.last {text : List Char} {n : Nat} (spelled : SpellsDigits text n) :
    ∃ before c digit, text = before ++ [c] ∧ decimalDigit? c = some digit := by
  cases spelled with
  | first isDigit => exact ⟨[], _, _, rfl, isDigit⟩
  | next _ isDigit => exact ⟨_, _, _, rfl, isDigit⟩
  | @underscore before c _ digit _ isDigit => exact ⟨before ++ ['_'], c, digit, by simp, isDigit⟩

/-- White space, a sign or none, and digits, up to the first character that is none. -/
def SpellsPrefix (text : List Char) (value : FloatValue .binary64) : Prop :=
  ∃ lead negative written digits rest, text = lead ++ (written ++ (digits ++ rest)) ∧
    (∀ c ∈ lead, isJavascriptSpace c = true) ∧ SignText negative written ∧ digits ≠ [] ∧
    (∀ c ∈ digits, c.isDigit = true) ∧ (∀ c ∈ rest.head?, c.isDigit = false) ∧
    value = .round .binary64 negative (digitsValue digits 0)

end Text
