/-! # Text as lists of characters

Trimming, splitting and decimal numbers, with the lemmas that read a rendered list of
numbers back. -/

namespace Text

/-! ## Trimming -/

/-- The characters with Unicode's `White_Space` property. -/
def isWhitespace (c : Char) : Bool :=
  (0x09 ≤ c.toNat && c.toNat ≤ 0x0D) || c.toNat == 0x20 || c.toNat == 0x85 || c.toNat == 0xA0 ||
    c.toNat == 0x1680 || (0x2000 ≤ c.toNat && c.toNat ≤ 0x200A) || c.toNat == 0x2028 ||
    c.toNat == 0x2029 || c.toNat == 0x202F || c.toNat == 0x205F || c.toNat == 0x3000

/-- Without the characters of `p` at either end. -/
def trimMatches (p : Char → Bool) (text : List Char) : List Char :=
  ((text.dropWhile p).reverse.dropWhile p).reverse

def trim (text : List Char) : List Char := trimMatches isWhitespace text

theorem dropWhile_eq_self {p : Char → Bool} {text : List Char}
    (head : ∀ c ∈ text.head?, p c = false) : text.dropWhile p = text := by
  cases text with
  | nil => rfl
  | cons c text =>
    have kept : p c = false := head c rfl
    simp [kept]

/-- Trimming stops at a character outside `p` at either end. -/
theorem trimMatches_eq_self {p : Char → Bool} {text : List Char}
    (outside : ∀ c ∈ text, p c = false) : trimMatches p text = text := by
  have first : text.dropWhile p = text :=
    dropWhile_eq_self fun c member => outside c (List.mem_of_mem_head? member)
  have second : text.reverse.dropWhile p = text.reverse :=
    dropWhile_eq_self fun c member =>
      outside c (List.mem_reverse.mp (List.mem_of_mem_head? member))
  rw [trimMatches, first, second, List.reverse_reverse]

/-- One delimiter at either end is trimmed. -/
theorem trimMatches_delimited {p : Char → Bool} {opening closing : Char} {text : List Char}
    (opens : p opening = true) (closes : p closing = true) (outside : ∀ c ∈ text, p c = false) :
    trimMatches p (opening :: text ++ [closing]) = text := by
  have empty : text = [] ∨ (text ++ [closing]).dropWhile p = text ++ [closing] := by
    cases text with
    | nil => exact .inl rfl
    | cons c text =>
      have kept : p c = false := outside c List.mem_cons_self
      exact .inr (by simp [kept])
  obtain rfl | first := empty
  · simp [trimMatches, opens, closes]
  · have second : text.reverse.dropWhile p = text.reverse :=
      dropWhile_eq_self fun c member =>
        outside c (List.mem_reverse.mp (List.mem_of_mem_head? member))
    simp [trimMatches, opens, closes, first, second]

/-- Letters and digits are no white space. -/
theorem isWhitespace_of_isAlphanum {c : Char} (visible : c.isAlphanum = true) :
    isWhitespace c = false := by
  have code : c.val.toNat = c.toNat := rfl
  have bounds : 0x30 ≤ c.toNat ∧ c.toNat ≤ 0x7A := by
    delta Char.isAlphanum Char.isAlpha Char.isUpper Char.isLower Char.isDigit at visible
    simp only [ge_iff_le, UInt32.le_iff_toNat_le, Bool.or_eq_true, Bool.and_eq_true, decide_eq_true_eq,
      code] at visible
    have ends : '0'.val.toNat = 0x30 ∧ '9'.val.toNat = 0x39 ∧ 'A'.val.toNat = 0x41 ∧
        'Z'.val.toNat = 0x5A ∧ 'a'.val.toNat = 0x61 ∧ 'z'.val.toNat = 0x7A := by decide
    omega
  simp only [isWhitespace, Bool.or_eq_false_iff, Bool.and_eq_false_iff, decide_eq_false_iff_not,
    beq_eq_false_iff_ne, ne_eq]
  omega

theorem isDigit_of_isAlpha {c : Char} (letter : c.isAlpha = true) : c.isDigit = false := by
  delta Char.isAlpha Char.isUpper Char.isLower at letter
  delta Char.isDigit
  simp only [ge_iff_le, UInt32.le_iff_toNat_le, Bool.or_eq_true, Bool.and_eq_true,
    decide_eq_true_eq] at letter
  simp only [ge_iff_le, UInt32.le_iff_toNat_le, Bool.and_eq_false_iff, decide_eq_false_iff_not]
  have ends : '9'.val.toNat = 0x39 ∧ 'A'.val.toNat = 0x41 ∧ 'a'.val.toNat = 0x61 := by decide
  omega

/-! ## Splitting -/

/-- The parts between the separators; one empty part where there is no text. -/
def splitOn (separator : Char) : List Char → List (List Char)
  | [] => [[]]
  | c :: text =>
    if c = separator then [] :: splitOn separator text
    else match splitOn separator text with
      | [] => [[c]]
      | part :: parts => (c :: part) :: parts

theorem splitOn_of_notMem {separator : Char} {text : List Char} (absent : separator ∉ text) :
    splitOn separator text = [text] := by
  induction text with
  | nil => rfl
  | cons c text ih =>
    have different : c ≠ separator := fun same => absent (same ▸ List.mem_cons_self)
    have rest := ih fun member => absent (List.mem_cons_of_mem c member)
    simp [splitOn, different, rest]

theorem splitOn_append {separator : Char} {part text : List Char} (absent : separator ∉ part) :
    splitOn separator (part ++ separator :: text) = part :: splitOn separator text := by
  induction part with
  | nil => simp [splitOn]
  | cons c part ih =>
    have different : c ≠ separator := fun same => absent (same ▸ List.mem_cons_self)
    have rest := ih fun member => absent (List.mem_cons_of_mem c member)
    simp [splitOn, different, rest]

/-- Splitting undoes joining with the separator. -/
theorem splitOn_intercalate {separator : Char} {parts : List (List Char)} (nonempty : parts ≠ [])
    (absent : ∀ part ∈ parts, separator ∉ part) :
    splitOn separator (List.intercalate [separator] parts) = parts := by
  induction parts with
  | nil => exact absurd rfl nonempty
  | cons part parts ih =>
    have head := absent part List.mem_cons_self
    cases parts with
    | nil => simpa [List.intercalate] using splitOn_of_notMem head
    | cons part' parts =>
      have tail := ih (by simp) fun p member => absent p (List.mem_cons_of_mem part member)
      have joined : List.intercalate [separator] (part :: part' :: parts) =
          part ++ separator :: List.intercalate [separator] (part' :: parts) := by
        simp [List.intercalate]
      rw [joined, splitOn_append head, tail]

/-- The parts hold the characters of the text without the separators. -/
theorem mem_of_mem_splitOn {separator : Char} {text part : List Char} {c : Char}
    (isPart : part ∈ splitOn separator text) (member : c ∈ part) : c ∈ text ∧ c ≠ separator := by
  induction text generalizing part with
  | nil =>
    cases List.mem_singleton.mp isPart
    cases member
  | cons d text ih =>
    by_cases same : d = separator
    · rw [splitOn, if_pos same] at isPart
      cases isPart with
      | head => cases member
      | tail _ isPart =>
        have later := ih isPart member
        exact ⟨List.mem_cons_of_mem d later.1, later.2⟩
    · rw [splitOn, if_neg same] at isPart
      cases parts : splitOn separator text with
      | nil =>
        simp only [parts, List.mem_singleton] at isPart
        subst isPart
        cases List.mem_singleton.mp member
        exact ⟨List.mem_cons_self, same⟩
      | cons first others =>
        simp only [parts, List.mem_cons] at isPart
        obtain rfl | isPart := isPart
        · cases member with
          | head => exact ⟨List.mem_cons_self, same⟩
          | tail _ member =>
            have later := ih (parts ▸ List.mem_cons_self) member
            exact ⟨List.mem_cons_of_mem d later.1, later.2⟩
        · have later := ih (parts ▸ List.mem_cons_of_mem first isPart) member
          exact ⟨List.mem_cons_of_mem d later.1, later.2⟩

/-- A text that starts with no separator starts its first part. -/
theorem splitOn_cons {separator c : Char} (different : c ≠ separator) (text : List Char) :
    ∃ part parts, splitOn separator (c :: text) = (c :: part) :: parts := by
  rw [splitOn, if_neg different]
  cases splitOn separator text with
  | nil => exact ⟨[], [], rfl⟩
  | cons part parts => exact ⟨part, parts, rfl⟩

/-- A text is one part, or its first part ends at the first separator. -/
theorem splitOn_cases (separator : Char) (text : List Char) :
    (separator ∉ text ∧ splitOn separator text = [text]) ∨
      ∃ part rest, text = part ++ separator :: rest ∧
        splitOn separator text = part :: splitOn separator rest := by
  by_cases member : separator ∈ text
  · obtain ⟨part, rest, rfl, absent⟩ := List.eq_append_cons_of_mem member
    exact .inr ⟨part, rest, rfl, splitOn_append absent⟩
  · exact .inl ⟨member, splitOn_of_notMem member⟩

/-- The decimal digits of a number. -/
def decimal (n : Nat) : List Char := Nat.toDigits 10 n

theorem toString_toList (n : Nat) : (toString n).toList = decimal n := Nat.toList_repr

theorem isDigit_of_mem_decimal {n : Nat} {c : Char} (member : c ∈ decimal n) :
    c.isDigit = true :=
  Nat.isDigit_of_mem_toDigits (by decide) (by decide) member

theorem decimal_ne_nil (n : Nat) : decimal n ≠ [] := Nat.toDigits_ne_nil

/-- The number the digits spell, `sofar` in front of them. -/
def digitsValue (digits : List Char) (sofar : Nat) : Nat := Nat.ofDigitChars 10 digits sofar

@[simp] theorem digitsValue_decimal (n : Nat) : digitsValue (decimal n) 0 = n :=
  Nat.ofDigitChars_ten_toDigits

theorem le_digitsValue (digits : List Char) (sofar : Nat) : sofar ≤ digitsValue digits sofar := by
  induction digits generalizing sofar with
  | nil => simp [digitsValue]
  | cons c digits ih =>
    have step := ih (10 * sofar + (c.toNat - '0'.toNat))
    simp only [digitsValue, Nat.ofDigitChars_cons] at step ⊢
    omega

/-- The digits up to the end, as a number below `bound`. -/
def parseDigits (bound : Nat) : Nat → List Char → Except String Nat
  | sofar, [] => .ok sofar
  | sofar, c :: text =>
    if c.isDigit then
      let next := 10 * sofar + (c.toNat - '0'.toNat)
      if next < bound then parseDigits bound next text
      else .error "number too large to fit in target type"
    else .error "invalid digit found in string"

/-- An unsigned decimal number below `bound`. -/
def parseUnsigned (bound : Nat) : List Char → Except String Nat
  | [] => .error "cannot parse integer from empty string"
  | ['+'] | ['-'] => .error "invalid digit found in string"
  | '+' :: text => parseDigits bound 0 text
  | text => parseDigits bound 0 text

/-- Digits are a number, unless it reaches the bound. -/
theorem parseDigits_eq {bound sofar : Nat} {digits : List Char} (below : sofar < bound)
    (all : ∀ c ∈ digits, c.isDigit = true) :
    parseDigits bound sofar digits =
      if digitsValue digits sofar < bound then .ok (digitsValue digits sofar)
      else .error "number too large to fit in target type" := by
  induction digits generalizing sofar with
  | nil => simp [parseDigits, digitsValue, below]
  | cons c digits ih =>
    have digit := all c List.mem_cons_self
    have value : digitsValue (c :: digits) sofar =
        digitsValue digits (10 * sofar + (c.toNat - '0'.toNat)) := by
      simp [digitsValue, Nat.ofDigitChars_cons]
    rw [value, parseDigits, if_pos digit]
    by_cases next : 10 * sofar + (c.toNat - '0'.toNat) < bound
    · simp only [if_pos next]
      exact ih next fun c' member => all c' (List.mem_cons_of_mem c member)
    · -- too large already, and more digits only add to it
      have grows := le_digitsValue digits (10 * sofar + (c.toNat - '0'.toNat))
      simp only [if_neg next]
      rw [if_neg (by omega)]

theorem parseUnsigned_eq {bound : Nat} {digits : List Char} (positive : 0 < bound)
    (nonempty : digits ≠ []) (all : ∀ c ∈ digits, c.isDigit = true) :
    parseUnsigned bound digits =
      if digitsValue digits 0 < bound then .ok (digitsValue digits 0)
      else .error "number too large to fit in target type" := by
  rw [← parseDigits_eq positive all]
  cases digits with
  | nil => exact absurd rfl nonempty
  | cons c rest =>
    have digit : c.isDigit = true := all c List.mem_cons_self
    have plus : c ≠ '+' := by rintro rfl; exact absurd digit (by decide)
    have minus : c ≠ '-' := by rintro rfl; exact absurd digit (by decide)
    unfold parseUnsigned
    split
    next empty => cases empty
    next equal => exact absurd (List.cons.inj equal).1 plus
    next equal => exact absurd (List.cons.inj equal).1 minus
    next equal => exact absurd (List.cons.inj equal).1 plus
    next => rfl

theorem parseUnsigned_decimal {bound n : Nat} (fits : n < bound) :
    parseUnsigned bound (decimal n) = .ok n := by
  have all : ∀ c ∈ decimal n, c.isDigit = true := fun c member => isDigit_of_mem_decimal member
  rw [parseUnsigned_eq (by omega) (decimal_ne_nil n) all, digitsValue_decimal, if_pos fits]

end Text
