import Laic.Codegen.Values
import Laic.Lib.DecimalText
import Laic.Lib.StringLiteral

/-! # Literals of the generated code

The texts the generators write for string and default literals, and how Rust, Python and
JavaScript read them. -/

namespace Laic

open Arrow StringLiteral

/-! ## Escaping -/

inductive StringLiteralDialect where
  | pythonLike
  | rust
  deriving DecidableEq

/-- The control characters of Unicode. -/
def isControl (c : Char) : Bool := c.toNat < 0x20 || (0x7F ≤ c.toNat && c.toNat ≤ 0x9F)

/-- One character of a string literal. -/
def escapeChar (dialect : StringLiteralDialect) (c : Char) : List Char :=
  if c = '\\' then "\\\\".toList
  else if c = '"' then "\\\"".toList
  else if c = '\n' then "\\n".toList
  else if c = '\r' then "\\r".toList
  else if c = '\t' then "\\t".toList
  else if c = '\x00' then
    match dialect with
    | .pythonLike => "\\x00".toList
    | .rust => "\\0".toList
  else if c = '\u2028' then
    match dialect with
    | .pythonLike => "\\u2028".toList
    | .rust => "\\u\x7b2028\x7d".toList
  else if c = '\u2029' then
    match dialect with
    | .pythonLike => "\\u2029".toList
    | .rust => "\\u\x7b2029\x7d".toList
  else if isControl c then
    match dialect with
    | .pythonLike =>
      if c.toNat ≤ 0xFF then "\\x".toList ++ hexPadded 2 c.toNat
      else if c.toNat ≤ 0xFFFF then "\\u".toList ++ hexPadded 4 c.toNat
      else "\\U".toList ++ hexPadded 8 c.toNat
    | .rust =>
      if c.toNat ≤ 0xFF then "\\x".toList ++ hexPadded 2 c.toNat
      else "\\u\x7b".toList ++ hexPadded 0 c.toNat ++ "\x7d".toList
  else [c]

def escapeStringLiteralBody (value : String) (dialect : StringLiteralDialect) : List Char :=
  value.toList.flatMap (escapeChar dialect)

def rustStringLiteral (value : String) : List Char :=
  '"' :: escapeStringLiteralBody value .rust ++ ['"']

def pythonStringLiteral (value : String) : List Char :=
  '"' :: escapeStringLiteralBody value .pythonLike ++ ['"']

def typescriptStringLiteral (value : String) : List Char := pythonStringLiteral value

/-! ## String literals of the three languages -/

/-- The escape of a code point in braces; `inside` are the characters that may stand there
and `fits` decides about the digits among them. -/
def bracedEscape (inside : Char → Bool) (fits : List Char → Bool) (text : List Char) :
    Option (List Char × List Char) :=
  let body := text.takeWhile inside
  let digits := body.filter fun c => (hexValue c).isSome
  match text.drop body.length with
  | '\x7d' :: rest =>
    match readHex digits.length 0 digits with
    | some (code, _) =>
      if digits ≠ [] ∧ fits digits ∧ code.isValidChar then some ([Char.ofNat code], rest) else none
    | none => none
  | _ => none

/-- Rust: `\x` reaches up to `7F`, and a carriage return cannot stand in a literal. -/
def rustLiteralSyntax : LiteralSyntax where
  plain c := c ≠ '\r'
  escape
    | 'n' :: rest => some (['\n'], rest)
    | 'r' :: rest => some (['\r'], rest)
    | 't' :: rest => some (['\t'], rest)
    | '\\' :: rest => some (['\\'], rest)
    | '0' :: rest => some (['\x00'], rest)
    | '\'' :: rest => some (['\''], rest)
    | '"' :: rest => some (['"'], rest)
    | 'x' :: rest =>
      match readHex 2 0 rest with
      | some (code, rest) => if code ≤ 0x7F then some ([Char.ofNat code], rest) else none
      | none => none
    | 'u' :: '\x7b' :: rest =>
      bracedEscape (fun c => (hexValue c).isSome || c == '_') (fun digits => digits.length ≤ 6) rest
    | '\n' :: rest => some ([], rest.dropWhile fun c => c == ' ' || c == '\t' || c == '\n' || c == '\r')
    | _ => none

/-- An escape of a code point with this many digits. -/
def codePointEscape (count : Nat) (text : List Char) : Option (List Char × List Char) :=
  match readHex count 0 text with
  | some (code, rest) => if code.isValidChar then some ([Char.ofNat code], rest) else none
  | none => none

/-- Python: an unknown escape stands for itself, an octal one has up to three digits, and
one of a character by its name is left out. -/
def pythonLiteralSyntax : LiteralSyntax where
  plain c := c ≠ '\n' && c ≠ '\r' && c ≠ '\x00'
  escape
    | '\n' :: rest => some ([], rest)
    | '\\' :: rest => some (['\\'], rest)
    | '\'' :: rest => some (['\''], rest)
    | '"' :: rest => some (['"'], rest)
    | 'a' :: rest => some (['\x07'], rest)
    | 'b' :: rest => some (['\x08'], rest)
    | 'f' :: rest => some (['\x0c'], rest)
    | 'n' :: rest => some (['\n'], rest)
    | 'r' :: rest => some (['\r'], rest)
    | 't' :: rest => some (['\t'], rest)
    | 'v' :: rest => some (['\x0b'], rest)
    | 'x' :: rest => codePointEscape 2 rest
    | 'u' :: rest => codePointEscape 4 rest
    | 'U' :: rest => codePointEscape 8 rest
    | 'N' :: _ => none
    | c :: rest =>
      if '0' ≤ c ∧ c ≤ '7' then
        let digits := (c :: rest.take 2).takeWhile fun d => '0' ≤ d ∧ d ≤ '7'
        some ([Char.ofNat (Nat.ofDigitChars 8 digits 0)], (c :: rest).drop digits.length)
      else some (['\\', c], rest)
    | [] => none

/-- JavaScript modules: `\0` is a NUL only where no digit follows, other digits are refused,
and any other character stands for itself. -/
def javascriptLiteralSyntax : LiteralSyntax where
  plain c := c ≠ '\n' && c ≠ '\r'
  escape
    | 'b' :: rest => some (['\x08'], rest)
    | 'f' :: rest => some (['\x0c'], rest)
    | 'n' :: rest => some (['\n'], rest)
    | 'r' :: rest => some (['\r'], rest)
    | 't' :: rest => some (['\t'], rest)
    | 'v' :: rest => some (['\x0b'], rest)
    | 'x' :: rest => codePointEscape 2 rest
    | 'u' :: '\x7b' :: rest =>
      bracedEscape (fun c => (hexValue c).isSome) (fun _ => true) rest
    | 'u' :: rest => codePointEscape 4 rest
    | '0' :: c :: rest => if c.isDigit then none else some (['\x00'], c :: rest)
    | '0' :: [] => some (['\x00'], [])
    | '\r' :: '\n' :: rest => some ([], rest)
    | c :: rest =>
      if c.isDigit then none
      else if c = '\n' ∨ c = '\r' ∨ c = '\u2028' ∨ c = '\u2029' then some ([], rest)
      else some ([c], rest)
    | [] => none

/-! ## Reading escaped text back -/

/-- The characters above the ASCII range that the generators escape as `\x80` to `\x9F`. -/
def isHighControl (c : Char) : Bool := 0x80 ≤ c.toNat && c.toNat ≤ 0x9F

theorem escapeChar_head (dialect : StringLiteralDialect) (c : Char) :
    ∃ first rest, escapeChar dialect c = first :: rest ∧ first ≠ '"' := by
  unfold escapeChar
  by_cases backslash : c = '\\'
  · rw [if_pos backslash]
    exact ⟨_, _, rfl, by decide⟩
  · by_cases quote : c = '"'
    · rw [if_neg backslash, if_pos quote]
      exact ⟨_, _, rfl, by decide⟩
    · rw [if_neg backslash, if_neg quote]
      cases dialect <;> (repeat' split) <;> first
        | exact ⟨_, _, rfl, by decide⟩
        | exact ⟨c, [], rfl, quote⟩

theorem element_plain {lang : LiteralSyntax} {c : Char} (rest : List Char) (notEscape : c ≠ '\\')
    (plain : lang.plain c = true) : element lang (c :: rest) = some ([c], rest) := by
  rw [element, if_pos plain]
  exact notEscape

theorem byte_of_isControl {c : Char} (control : isControl c = true) : c.toNat < 256 := by
  simp only [isControl, Bool.or_eq_true, Bool.and_eq_true, decide_eq_true_eq] at control
  omega

theorem codePointEscape_hexPadded {c : Char} (byte : c.toNat < 256) (rest : List Char) :
    codePointEscape 2 (hexPadded 2 c.toNat ++ rest) = some ([c], rest) := by
  have valid : c.toNat.isValidChar := c.valid
  simp only [codePointEscape, readHex_hexPadded byte, if_pos valid, Char.ofNat_toNat]

/-- The characters with an escape of their own. -/
def namedEscapes : List Char := ['\\', '"', '\n', '\r', '\t', '\x00', '\u2028', '\u2029']

/-- A character has an escape of its own, is another control character or stands for itself. -/
theorem escapeChar_cases (c : Char) :
    c ∈ namedEscapes ∨
      (isControl c = true ∧
        ∀ dialect, escapeChar dialect c = '\\' :: 'x' :: hexPadded 2 c.toNat) ∨
      (isControl c = false ∧ c ∉ namedEscapes ∧ ∀ dialect, escapeChar dialect c = [c]) := by
  by_cases named : c ∈ namedEscapes
  · exact .inl named
  · right
    have others := named
    simp only [namedEscapes, List.mem_cons, List.not_mem_nil, or_false, not_or] at others
    obtain ⟨h₁, h₂, h₃, h₄, h₅, h₆, h₇, h₈⟩ := others
    by_cases control : isControl c = true
    · refine .inl ⟨control, fun dialect => ?_⟩
      have byte : c.toNat ≤ 0xFF := Nat.le_of_lt_succ (byte_of_isControl control)
      simp only [escapeChar, if_neg h₁, if_neg h₂, if_neg h₃, if_neg h₄, if_neg h₅, if_neg h₆,
        if_neg h₇, if_neg h₈, if_pos control, if_pos byte]
      cases dialect <;> rfl
    · refine .inr ⟨by simpa using control, named, fun dialect => ?_⟩
      simp only [escapeChar, if_neg h₁, if_neg h₂, if_neg h₃, if_neg h₄, if_neg h₅, if_neg h₆,
        if_neg h₇, if_neg h₈, if_neg control]

/-- A character that is not escaped can stand in a literal of each language. -/
theorem plain_of_notMem {c : Char} (notNamed : c ∉ namedEscapes) :
    c ≠ '\\' ∧ rustLiteralSyntax.plain c = true ∧ pythonLiteralSyntax.plain c = true ∧
      javascriptLiteralSyntax.plain c = true := by
  simp only [namedEscapes, List.mem_cons, List.not_mem_nil, or_false, not_or] at notNamed
  obtain ⟨backslash, -, newline, return', -, nul, -, -⟩ := notNamed
  simp [rustLiteralSyntax, pythonLiteralSyntax, javascriptLiteralSyntax, backslash, newline, return',
    nul]

theorem rust_element_hex {n : Nat} (byte : n < 256) (rest : List Char) :
    element rustLiteralSyntax ('\\' :: 'x' :: hexPadded 2 n ++ rest) =
      if n ≤ 0x7F then some ([Char.ofNat n], rest) else none := by
  simp only [element, rustLiteralSyntax, List.cons_append, readHex_hexPadded byte]

theorem readsBack_rust :
    ReadsBack rustLiteralSyntax (escapeChar .rust) fun c => !isHighControl c where
  head := escapeChar_head .rust
  reads := by
    intro c rest good
    obtain named | ⟨control, written⟩ | ⟨-, notNamed, written⟩ := escapeChar_cases c
    · simp only [namedEscapes, List.mem_cons, List.not_mem_nil, or_false] at named
      obtain rfl | rfl | rfl | rfl | rfl | rfl | rfl | rfl := named <;> rfl
    · rw [written, rust_element_hex (byte_of_isControl control), Char.ofNat_toNat, if_pos]
      simp only [isControl, isHighControl, Bool.or_eq_true, Bool.and_eq_true, Bool.not_eq_true',
        Bool.and_eq_false_iff, decide_eq_true_eq, decide_eq_false_iff_not] at control good
      omega
    · rw [written]
      exact element_plain rest (plain_of_notMem notNamed).1 (plain_of_notMem notNamed).2.1
  refuses := by
    intro c rest bad
    have high : 0x80 ≤ c.toNat ∧ c.toNat ≤ 0x9F := by simpa [isHighControl] using bad
    obtain named | ⟨control, written⟩ | ⟨notControl, -, -⟩ := escapeChar_cases c
    · simp only [namedEscapes, List.mem_cons, List.not_mem_nil, or_false] at named
      obtain rfl | rfl | rfl | rfl | rfl | rfl | rfl | rfl := named <;> exact absurd high (by decide)
    · rw [written, rust_element_hex (byte_of_isControl control), if_neg (by omega)]
    · simp only [isControl, Bool.or_eq_false_iff, Bool.and_eq_false_iff, decide_eq_false_iff_not]
        at notControl
      omega

theorem readsBack_python :
    ReadsBack pythonLiteralSyntax (escapeChar .pythonLike) fun _ => true where
  head := escapeChar_head .pythonLike
  reads := by
    intro c rest _
    obtain named | ⟨control, written⟩ | ⟨-, notNamed, written⟩ := escapeChar_cases c
    · simp only [namedEscapes, List.mem_cons, List.not_mem_nil, or_false] at named
      obtain rfl | rfl | rfl | rfl | rfl | rfl | rfl | rfl := named <;> rfl
    · rw [written]
      exact codePointEscape_hexPadded (byte_of_isControl control) rest
    · rw [written]
      exact element_plain rest (plain_of_notMem notNamed).1 (plain_of_notMem notNamed).2.2.1
  refuses := nofun

theorem readsBack_javascript :
    ReadsBack javascriptLiteralSyntax (escapeChar .pythonLike) fun _ => true where
  head := escapeChar_head .pythonLike
  reads := by
    intro c rest _
    obtain named | ⟨control, written⟩ | ⟨-, notNamed, written⟩ := escapeChar_cases c
    · simp only [namedEscapes, List.mem_cons, List.not_mem_nil, or_false] at named
      obtain rfl | rfl | rfl | rfl | rfl | rfl | rfl | rfl := named <;> rfl
    · rw [written]
      exact codePointEscape_hexPadded (byte_of_isControl control) rest
    · rw [written]
      exact element_plain rest (plain_of_notMem notNamed).1 (plain_of_notMem notNamed).2.2.2
  refuses := nofun

/-- Python reads every written literal back, whatever stands after it. -/
theorem scan_pythonStringLiteral (value : String) (rest : List Char) :
    scan pythonLiteralSyntax (pythonStringLiteral value ++ rest) = some (value.toList, rest) := by
  have read := scan_write readsBack_python value.toList rest
  rw [if_pos (by simp)] at read
  simpa [pythonStringLiteral, escapeStringLiteralBody] using read

/-- So does JavaScript. -/
theorem scan_typescriptStringLiteral (value : String) (rest : List Char) :
    scan javascriptLiteralSyntax (typescriptStringLiteral value ++ rest) =
      some (value.toList, rest) := by
  have read := scan_write readsBack_javascript value.toList rest
  rw [if_pos (by simp)] at read
  simpa [typescriptStringLiteral, pythonStringLiteral, escapeStringLiteralBody] using read

/-- Rust reads a written literal back where it has no high control character, and refuses
it otherwise. -/
theorem scan_rustStringLiteral (value : String) (rest : List Char) :
    scan rustLiteralSyntax (rustStringLiteral value ++ rest) =
      if value.toList.all (fun c => !isHighControl c) then some (value.toList, rest) else none := by
  simpa [rustStringLiteral, escapeStringLiteralBody] using scan_write readsBack_rust value.toList rest

/-! ## Default literals -/

open DecimalText

/-- The text of a default in Rust. -/
def literalToRust : Literal → List Char
  | .string value => rustStringLiteral value ++ ".to_string()".toList
  | .integer value => displayInteger value.toInt
  | .float value => withPoint (displayFloat value)
  | .bool value => if value then "true".toList else "false".toList

/-- The text of a default in Python. -/
def literalToPython : Literal → List Char
  | .string value => pythonStringLiteral value
  | .integer value => displayInteger value.toInt
  | .float value => withPoint (displayFloat value)
  | .bool value => if value then "True".toList else "False".toList

/-- The text of a default in TypeScript, where 64-bit integers are `bigint`. -/
def literalToTs : Literal → LaicType → List Char
  | .integer value, .i64 => displayInteger value.toInt ++ ['n']
  | .integer value, _ => displayInteger value.toInt
  | .string value, _ => typescriptStringLiteral value
  | .float value, _ => withPoint (displayFloat value)
  | .bool value, _ => if value then "true".toList else "false".toList

/-! ## What the texts denote -/

/-- The marks that change the direction of text; rustc denies them in literals. -/
def isDirectionMark (c : Char) : Bool :=
  (0x202A ≤ c.toNat && c.toNat ≤ 0x202E) || (0x2066 ≤ c.toNat && c.toNat ≤ 0x2069)

/-- An integer of a scalar type, where it is in range. -/
def intScalar : (scalar : Scalar) → Int → Option scalar.Value
  | .int8, n => if -2 ^ 7 ≤ n ∧ n < 2 ^ 7 then some (Int8.ofInt n) else none
  | .int16, n => if -2 ^ 15 ≤ n ∧ n < 2 ^ 15 then some (Int16.ofInt n) else none
  | .int32, n => if -2 ^ 31 ≤ n ∧ n < 2 ^ 31 then some (Int32.ofInt n) else none
  | .int64, n => if -2 ^ 63 ≤ n ∧ n < 2 ^ 63 then some (Int64.ofInt n) else none
  | .uint8, n => if 0 ≤ n ∧ n < 2 ^ 8 then some (UInt8.ofInt n) else none
  | _, _ => none

/-- The value of a Rust literal where a value of the scalar type is expected; none where
rustc refuses it, by its types or by the lints it denies: numbers out of range and marks of
text direction. -/
def rustLiteral : (scalar : Scalar) → List Char → Option scalar.Value
  | .utf8, text =>
    match scan rustLiteralSyntax text with
    | some (value, rest) =>
      if rest = ".to_string()".toList ∧ ¬ text.any isDirectionMark then some (String.ofList value)
      else none
    | none => none
  | .boolean, text =>
    if text = "true".toList then some true else if text = "false".toList then some false else none
  | .float32, text => (readFloat .binary32 text).filter fun value => !value.isInfinite
  | .float64, text => (readFloat .binary64 text).filter fun value => !value.isInfinite
  | .binary, _ => none
  | scalar, text => (readInteger text).bind (intScalar scalar)

/-- The object a Python literal denotes. -/
def pythonLiteral (text : List Char) : Option PyValue :=
  if text = "True".toList then some (.bool true)
  else if text = "False".toList then some (.bool false)
  else match scan pythonLiteralSyntax text with
    | some (value, []) => some (.str (String.ofList value))
    | _ =>
      match readInteger text with
      | some value => some (.int value)
      | none => (readFloat .binary64 text).map .float

/-- The value a JavaScript literal denotes. -/
def javascriptLiteral (text : List Char) : Option JsValue :=
  if text = "true".toList then some (.boolean true)
  else if text = "false".toList then some (.boolean false)
  else match scan javascriptLiteralSyntax text with
    | some (value, []) => some (.string (String.ofList value))
    | _ =>
      if text.getLast? = some 'n' then (readInteger text.dropLast).map .bigint
      else match readInteger text with
        | some value => some (.number (.ofInt .binary64 value))
        | none => (readFloat .binary64 text).map .number

end Laic
