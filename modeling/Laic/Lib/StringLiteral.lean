/-! # String literals

Scanning a double-quoted literal: plain characters stand for themselves and a backslash
starts an escape, which a language reads in its own way.  A writer whose output for each
character is read back, whatever follows it, is read back on whole texts. -/

namespace StringLiteral

/-- How a language reads a literal: the characters that may stand in it as they are, and
what an escape denotes together with the input after it. -/
structure LiteralSyntax where
  plain : Char → Bool
  escape : List Char → Option (List Char × List Char)

variable (lang : LiteralSyntax)

/-- One character or escape. -/
def element : List Char → Option (List Char × List Char)
  | [] => none
  | '\\' :: rest => lang.escape rest
  | c :: rest => if lang.plain c then some ([c], rest) else none

/-- At most `fuel` elements, up to the closing quote. -/
def scanBody : Nat → List Char → Option (List Char × List Char)
  | 0, _ => none
  | _ + 1, '"' :: rest => some ([], rest)
  | fuel + 1, text =>
    match element lang text with
    | none => none
    | some (denoted, rest) =>
      match scanBody fuel rest with
      | none => none
      | some (more, rest') => some (denoted ++ more, rest')

/-- The text a literal denotes and the input after it. -/
def scan : List Char → Option (List Char × List Char)
  | '"' :: text => scanBody lang text.length text
  | _ => none

/-! ## Writing and scanning -/

/-- The writer escapes the quote, and the language reads exactly the characters of `good`
back, whatever stands after them. -/
structure ReadsBack (write : Char → List Char) (good : Char → Bool) : Prop where
  head : ∀ c, ∃ first rest, write c = first :: rest ∧ first ≠ '"'
  reads : ∀ c rest, good c = true → element lang (write c ++ rest) = some ([c], rest)
  refuses : ∀ c rest, good c = false → element lang (write c ++ rest) = none

variable {lang}

theorem scanBody_write {write : Char → List Char} {good : Char → Bool}
    (readsBack : ReadsBack lang write good) {fuel : Nat} {text rest : List Char}
    (enough : text.length < fuel) :
    scanBody lang fuel (text.flatMap write ++ '"' :: rest) =
      if text.all good then some (text, rest) else none := by
  induction text generalizing fuel with
  | nil =>
    cases fuel with
    | zero => exact absurd enough (Nat.not_lt_zero _)
    | succ fuel => simp [scanBody]
  | cons c text ih =>
    cases fuel with
    | zero => exact absurd enough (Nat.not_lt_zero _)
    | succ fuel =>
      have fewer : text.length < fuel := by simpa using enough
      obtain ⟨first, others, written, notQuote⟩ := readsBack.head c
      have step : scanBody lang (fuel + 1) ((c :: text).flatMap write ++ '"' :: rest) =
          match element lang (write c ++ (text.flatMap write ++ '"' :: rest)) with
          | none => none
          | some (denoted, rest) =>
            match scanBody lang fuel rest with
            | none => none
            | some (more, rest') => some (denoted ++ more, rest') := by
        simp only [List.flatMap_cons, List.append_assoc, written, List.cons_append]
        rw [scanBody]
        exact fun _ equal => notQuote (List.cons.inj equal).1
      rw [step]
      cases isGood : good c with
      | false => simp [readsBack.refuses c _ isGood, isGood]
      | true =>
        rw [readsBack.reads c _ isGood]
        simp only [ih fewer, List.all_cons, isGood, Bool.true_and]
        by_cases all : text.all good = true
        · simp [all]
        · simp [all]

theorem length_le_flatMap {write : Char → List Char} (nonempty : ∀ c, write c ≠ [])
    (text : List Char) : text.length ≤ (text.flatMap write).length := by
  induction text with
  | nil => exact Nat.le_refl _
  | cons c text ih =>
    have positive := List.length_pos_iff.mpr (nonempty c)
    simp only [List.flatMap_cons, List.length_append, List.length_cons]
    omega

/-- A written literal denotes its text where every character is read back, and is no
literal otherwise. -/
theorem scan_write {write : Char → List Char} {good : Char → Bool}
    (readsBack : ReadsBack lang write good) (text rest : List Char) :
    scan lang ('"' :: text.flatMap write ++ '"' :: rest) =
      if text.all good then some (text, rest) else none := by
  have nonempty (c : Char) : write c ≠ [] := by
    obtain ⟨first, others, written, -⟩ := readsBack.head c
    simp [written]
  have longer := length_le_flatMap nonempty text
  have enough : text.length < (text.flatMap write ++ '"' :: rest).length := by
    simp only [List.length_append, List.length_cons]
    omega
  exact scanBody_write readsBack enough

/-! ## Hexadecimal digits -/

def hexValue (c : Char) : Option Nat :=
  if c.isDigit then some (c.toNat - '0'.toNat)
  else if 'a' ≤ c ∧ c ≤ 'f' then some (c.toNat - 'a'.toNat + 10)
  else if 'A' ≤ c ∧ c ≤ 'F' then some (c.toNat - 'A'.toNat + 10)
  else none

/-- A number of exactly this many hexadecimal digits, the digits before it in front. -/
def readHex : (count sofar : Nat) → List Char → Option (Nat × List Char)
  | 0, sofar, rest => some (sofar, rest)
  | _ + 1, _, [] => none
  | count + 1, sofar, c :: rest =>
    match hexValue c with
    | none => none
    | some digit => readHex count (16 * sofar + digit) rest

/-- The hexadecimal digits of a number, in capitals and padded to a width. -/
def hexPadded (width n : Nat) : List Char :=
  let digits := (Nat.toDigits 16 n).map Char.toUpper
  List.replicate (width - digits.length) '0' ++ digits

/-- Two digits are read back, whatever follows them. -/
theorem readHex_hexPadded {n : Nat} (byte : n < 256) (rest : List Char) :
    readHex 2 0 (hexPadded 2 n ++ rest) = some (n, rest) := by
  have two : ∀ n < 256, ∃ high low, hexPadded 2 n = [high, low] ∧
      ∃ h l, hexValue high = some h ∧ hexValue low = some l ∧ 16 * h + l = n := by
    intro n byte
    have digits : ∀ n : Fin 256, hexPadded 2 n =
        [(Nat.digitChar (n / 16)).toUpper, (Nat.digitChar (n % 16)).toUpper] := by decide +kernel
    have value : ∀ d : Fin 16, hexValue (Nat.digitChar d).toUpper = some d.val := by decide
    refine ⟨_, _, digits ⟨n, byte⟩, n / 16, n % 16, ?_, ?_, by omega⟩
    · exact value ⟨n / 16, by omega⟩
    · exact value ⟨n % 16, by omega⟩
  obtain ⟨high, low, written, h, l, isHigh, isLow, rfl⟩ := two n byte
  simp [written, readHex, isHigh, isLow]

end StringLiteral
