import Laic.Codegen.Literals

/-! # String literals as tokens

Whether the literal written for a text is one token that denotes the text: always in Python and in
JavaScript, which share it, and in Rust exactly on texts without a C1 control character. -/

namespace Laic

open StringLiteral

/-! ## Rust -/

/-- Rust reads the literal of `value` as one token that denotes `value`, whatever stands behind it. -/
def ReadsInRust (value : String) : Prop :=
  ∀ rest, scan rustLiteralSyntax (rustStringLiteral value ++ rest) = some (value.toList, rest)

/-- The literal is read back exactly where the text has no character from `U+0080` to `U+009F`:
those are written as `\x80` to `\x9F`, and Rust has no such escapes. -/
theorem readsInRust_iff (value : String) :
    ReadsInRust value ↔ ∀ c ∈ value.toList, ¬ (0x80 ≤ c.toNat ∧ c.toNat ≤ 0x9F) := by
  have good : value.toList.all (fun c => !isHighControl c) = true ↔
      ∀ c ∈ value.toList, ¬ (0x80 ≤ c.toNat ∧ c.toNat ≤ 0x9F) := by
    simp only [isHighControl, List.all_eq_true, Bool.not_eq_true', Bool.and_eq_false_iff,
      decide_eq_false_iff_not]
    exact forall₂_congr fun _ _ => not_and_or.symm
  rw [← good]
  constructor
  · intro reads
    have alone := reads []
    rw [scan_rustStringLiteral] at alone
    -- the other branch reads nothing at all
    split at alone
    · assumption
    · cases alone
  · intro all rest
    rw [scan_rustStringLiteral, if_pos all]

/-- Rust reads no token where the text holds a C1 control character. -/
theorem readsInRust_counterexample :
    scan rustLiteralSyntax (rustStringLiteral "\u0085") = none ∧ ¬ ReadsInRust "\u0085" := by
  refine ⟨by decide, fun reads => ?_⟩
  exact absurd ((readsInRust_iff "\u0085").mp reads '\u0085' (by decide)) (by decide)

/-! ## Python and JavaScript -/

/-- A double-quoted token of Python: two quotes that a third follows open a longer literal. -/
def pythonToken : List Char → Option (List Char × List Char)
  | '"' :: '"' :: '"' :: _ => none
  | text => scan pythonLiteralSyntax text

/-- JavaScript before the 2019 edition, where line and paragraph separators end a line. -/
def olderJavascriptLiteralSyntax : LiteralSyntax where
  plain c := javascriptLiteralSyntax.plain c && c ≠ '\u2028' && c ≠ '\u2029'
  escape := javascriptLiteralSyntax.escape

/-- The separators are escaped, so the older lexers read the literal as the newer ones do. -/
theorem readsBack_olderJavascript :
    ReadsBack olderJavascriptLiteralSyntax (escapeChar .pythonLike) fun _ => true where
  head := escapeChar_head .pythonLike
  reads := by
    intro c rest _
    obtain named | ⟨control, written⟩ | ⟨-, notNamed, written⟩ := escapeChar_cases c
    · simp only [namedEscapes, List.mem_cons, List.not_mem_nil, or_false] at named
      obtain rfl | rfl | rfl | rfl | rfl | rfl | rfl | rfl := named <;> rfl
    · rw [written]
      exact codePointEscape_hexPadded (byte_of_isControl control) rest
    · rw [written]
      obtain ⟨notEscape, -, -, plain⟩ := plain_of_notMem notNamed
      have notLine : c ≠ '\u2028' := fun same => notNamed (same ▸ by decide)
      have notParagraph : c ≠ '\u2029' := fun same => notNamed (same ▸ by decide)
      apply element_plain rest notEscape
      simp [olderJavascriptLiteralSyntax, plain, notLine, notParagraph]
  refuses := nofun

/-- Unless a quote follows, the literal is not the beginning of a triple-quoted one. -/
theorem pythonToken_pythonStringLiteral (value : String) {rest : List Char}
    (noQuote : rest.head? ≠ some '"') :
    pythonToken (pythonStringLiteral value ++ rest) = some (value.toList, rest) := by
  have read := scan_pythonStringLiteral value rest
  have single : ∀ behind, pythonStringLiteral value ++ rest ≠ '"' :: '"' :: '"' :: behind := by
    intro behind same
    simp only [pythonStringLiteral, escapeStringLiteralBody, List.cons_append, List.append_assoc,
      List.nil_append, List.cons.injEq, true_and] at same
    cases characters : value.toList with
    | nil =>
      -- the two quotes of the empty literal stand next to each other
      rw [characters] at same
      cases rest with
      | nil => cases same
      | cons c rest =>
        cases same
        exact noQuote rfl
    | cons c characters =>
      obtain ⟨first, others, written, notQuote⟩ := escapeChar_head .pythonLike c
      rw [characters, List.flatMap_cons, written] at same
      exact notQuote (List.cons.inj same).1
  rw [pythonToken, read]
  exact single

/-- The one literal is a single token in Python and in JavaScript, of either age, and denotes its text
in each of them.  What follows may be anything that cannot continue the Python token. -/
theorem literal_read_in_both (value : String) (rest : List Char) (noQuote : rest.head? ≠ some '"') :
    typescriptStringLiteral value = pythonStringLiteral value ∧
      pythonToken (pythonStringLiteral value ++ rest) = some (value.toList, rest) ∧
      scan javascriptLiteralSyntax (typescriptStringLiteral value ++ rest) =
        some (value.toList, rest) ∧
      scan olderJavascriptLiteralSyntax (typescriptStringLiteral value ++ rest) =
        some (value.toList, rest) := by
  refine ⟨rfl, pythonToken_pythonStringLiteral value noQuote, scan_typescriptStringLiteral value rest, ?_⟩
  have read := scan_write readsBack_olderJavascript value.toList rest
  rw [if_pos (by simp)] at read
  simpa [typescriptStringLiteral, pythonStringLiteral, escapeStringLiteralBody] using read

/-- A digit behind a NUL is no part of its escape. -/
theorem literal_read_in_both_nul :
    scan javascriptLiteralSyntax (typescriptStringLiteral "\x001" ++ [')']) =
      some (['\x00', '1'], [')']) :=
  (literal_read_in_both "\x001" [')'] (by decide)).2.2.1

end Laic
