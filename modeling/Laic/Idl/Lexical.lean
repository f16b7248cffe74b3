import Laic.Idl.Syntax

/-! # Blanks and tokens

What the grammar skips between two parts of a rule, and the rules that skip nothing.  Each statement is about
two texts, one of them with its line ends written in another way, on which the same is read but for
the string literals. -/

namespace Laic

open Peg LineEnding

/-! ## Blanks -/

def isBlank (c : Char) : Bool := c == ' ' || c == '\t' || c == '\r' || c == '\n'

/-- What may stand between two tokens: blank characters and comments to the end of their line. -/
inductive Skipped : List Char → List Char → Prop where
  | done (input : List Char) : Skipped input input
  | space {c : Char} {input rest : List Char} (blank : isBlank c = true) (skipped : Skipped input rest) :
      Skipped (c :: input) rest
  | comment {line behind rest : List Char} (within : ∀ c ∈ line, c ≠ '\n')
      (ends : ∀ c ∈ behind.head?, c = '\n') (skipped : Skipped behind rest) :
      Skipped ("//".toList ++ line ++ behind) rest

namespace Skipped

variable {first second third : List Char}

theorem trans (skipped : Skipped first second) (later : Skipped second third) : Skipped first third := by
  induction skipped with
  | done input => exact later
  | space blank _ ih => exact .space blank (ih later)
  | comment within ends _ ih => exact .comment within ends (ih later)

theorem suffix (skipped : Skipped first second) : second <:+ first := by
  induction skipped with
  | done input => exact List.suffix_refl input
  | space _ _ ih => exact ih.trans (List.suffix_cons _ _)
  | comment _ _ _ ih => exact ih.trans (List.suffix_append _ _)

/-- A run of blank characters. -/
theorem dropWhile (input : List Char) : Skipped input (input.dropWhile isBlank) := by
  induction input with
  | nil => exact .done []
  | cons c input ih =>
    by_cases blank : isBlank c = true
    · rw [List.dropWhile_cons_of_pos blank]
      exact .space blank ih
    · rw [List.dropWhile_cons_of_neg blank]
      exact .done _

/-- A comment, up to the line feed. -/
theorem line (input : List Char) :
    Skipped ("//".toList ++ input) (input.dropWhile fun c => c != '\n') := by
  have split : input = input.takeWhile (fun c => c != '\n') ++ input.dropWhile fun c => c != '\n' :=
    List.takeWhile_append_dropWhile.symm
  have within : ∀ c ∈ input.takeWhile (fun c => c != '\n'), c ≠ '\n' := fun c member =>
    bne_iff_ne.mp (List.all_eq_true.mp List.all_takeWhile c member)
  have ends : ∀ c ∈ (input.dropWhile fun c => c != '\n').head?, c = '\n' := by
    intro c member
    have stops := List.head?_dropWhile_not (fun c => c != '\n') input
    rw [Option.mem_def.mp member] at stops
    simpa using stops
  have whole := Skipped.comment within ends (.done _)
  rwa [List.append_assoc, ← split] at whole

end Skipped

/-- The blanks of the grammar. -/
def blanks : Blank where
  skipped := Skipped
  refl := .done
  trans := .trans
  suffix := Skipped.suffix

/-! ## The expression between two parts -/

namespace Grammar

variable {ending : LineEnding}

theorem whitespace_eq : whitespace = satisfy isBlank := by
  funext input
  cases input with
  | nil => rfl
  | cons c input =>
    simp only [whitespace, oneOf, orElse, lit, satisfy, isBlank]
    by_cases space : c = ' '
    · subst space
      rfl
    by_cases tab : c = '\t'
    · subst tab
      rfl
    by_cases cr : c = '\r'
    · subst cr
      rfl
    by_cases lf : c = '\n'
    · subst lf
      rfl
    simp [dropWord, space, tab, cr, lf, Ne.symm space, Ne.symm tab, Ne.symm cr, Ne.symm lf]

theorem comment_eq (input : List Char) :
    comment input =
      (dropWord "//".toList input).map fun rest => ([], rest.dropWhile fun c => c != '\n') := by
  have lines : (star (concat [notAt (lit "\n"), any]) : Expr Rule) = fun rest =>
      some ([], rest.dropWhile fun c => c != '\n') := by
    rw [concat_notAt_any (c := '\n') rfl]
    exact funext (star_satisfy _)
  show seq (lit "//") (star (concat [notAt (lit "\n"), any])) input = _
  simp only [lines, seq, lit]
  cases dropWord "//".toList input <;> rfl

theorem whitespaces_simulates : Simulates blanks ending.Aligned .silent (star whitespace) := by
  have run : ∀ input : List Char, (Phrase.silent : Phrase Rule Unit).Run blanks (star whitespace) ()
      input (input.dropWhile isBlank) := by
    intro input
    refine ⟨input.takeWhile isBlank, [], List.takeWhile_append_dropWhile.symm, ?_,
      .done (Skipped.dropWhile input), rfl⟩
    rw [whitespace_eq, star_satisfy]
  intro input input' isAligned
  exact .inr ⟨(), _, _, run input, run input', isAligned.dropWhile_blank rfl rfl⟩

theorem comment_simulates : Simulates blanks ending.Aligned .silent comment := by
  have run : ∀ {input rest : List Char}, dropWord "//".toList input = some rest →
      (Phrase.silent : Phrase Rule Unit).Run blanks comment () input (rest.dropWhile fun c => c != '\n') := by
    intro input rest found
    cases dropWord_eq_some.mp found
    refine ⟨"//".toList ++ rest.takeWhile fun c => c != '\n', [], ?_, ?_, .done (Skipped.line rest), rfl⟩
    · rw [List.append_assoc, List.takeWhile_append_dropWhile]
    · rw [comment_eq, found]
      rfl
  have isInline : Inline "//".toList := ⟨by decide, by decide⟩
  intro input input' isAligned
  obtain rfl | ⟨rest, rfl, rfl⟩ := isAligned
  · have converted := @dropWord_convert ending _ isInline input
    cases found : dropWord "//".toList input with
    | none =>
      left
      rw [found] at converted
      rw [comment_eq, comment_eq, found, converted]
      exact ⟨rfl, rfl⟩
    | some rest =>
      rw [found] at converted
      exact .inr ⟨(), _, _, run found, run converted, dropWhile_line rest rfl rfl⟩
  · -- a comment does not start with a line feed
    exact .inl ⟨rfl, rfl⟩

theorem skip_simulates : Simulates blanks ending.Aligned .silent skip := by
  have block := comment_simulates.seq (@whitespaces_simulates ending)
  have progresses : Progresses (concat [comment, star whitespace]) := by
    intro input pairs rest matched
    obtain ⟨_, middle, _, first, second, -⟩ := seq_eq_some.mp matched
    have blank : (star whitespace : Peg.Expr Rule) middle = some ([], middle.dropWhile isBlank) := by
      rw [whitespace_eq, star_satisfy]
    rw [comment_eq] at first
    cases blank.symm.trans second
    cases found : dropWord "//".toList input with
    | none =>
      rw [found] at first
      cases first
    | some behind =>
      rw [found] at first
      cases first
      -- the two slashes are gone, and what follows them only gets shorter
      have length := congrArg List.length (dropWord_eq_some.mp found)
      have line := (List.dropWhile_suffix (fun c => c != '\n') (l := behind)).length_le
      have blank := (List.dropWhile_suffix isBlank
        (l := behind.dropWhile fun c => c != '\n')).length_le
      rw [List.length_append] at length
      have slashes : "//".toList.length = 2 := rfl
      omega
  refine (whitespaces_simulates.seq (block.star progresses)).map (fun _ => ()) (fun both => ?_)
    (fun _ => rfl) ?_
  · show [] = [] ++ both.2.flatMap fun _ => []
    simp
  · rintro both text pairs ⟨_, _, left, right, _, split, silent, shapes⟩
    subst split
    have later : right = [] := by
      refine Phrase.Shapes.silent ?_ shapes
      rintro _ _ _ ⟨_, _, _, _, _, split, silent, silent'⟩
      rw [split, silent, silent']
      rfl
    rw [silent, later]
    rfl

/-! ## Names and numbers -/

/-- A word of the language that is written in one way. -/
def keyword (word : String) : Phrase Rule Unit := .token (fun _ => word.toList) id

theorem lit_keyword {word : String}
    (plain : word.toList ≠ [] ∧ '\n' ∉ word.toList ∧ '\r' ∉ word.toList) :
    Simulates blanks ending.Aligned (keyword word) (lit word) :=
  lit_simulates plain.2 plain.1

def namePhrase : Phrase Rule Name := (Phrase.token Word.text id).node .ident

theorem ident_simulates : Simulates blanks ending.Aligned namePhrase ident := by
  have scan : Simulates blanks ending.Aligned (.token (Word.text : Name → List Char) id)
      (Word.scan Char.isAlpha (fun c => c.isAlphanum || c == '_') : Peg.Expr Rule) :=
    Word.scan_simulates rfl rfl rfl rfl
  exact scan.node .ident

theorem digits_simulates :
    Simulates blanks ending.Aligned (.token (Word.text : Digits → List Char) id) asciiDigits :=
  Word.scan_simulates rfl rfl rfl rfl

def integerPhrase : Phrase Rule Digits := (Phrase.token Word.text id).node .integer

theorem integer_simulates : Simulates blanks ending.Aligned integerPhrase integer :=
  digits_simulates.node .integer

theorem sign_simulates :
    Simulates blanks ending.Aligned (.token signText id) (opt (lit "-") : Peg.Expr Rule) := by
  have minus : Simulates blanks ending.Aligned (keyword "-") (lit "-") :=
    lit_keyword (by decide)
  refine minus.opt_token.respell Option.isSome _ _ ?_ ?_
  · intro found
    cases found <;> rfl
  · rintro found spelled pairs ⟨spell, silent⟩
    refine ⟨?_, silent⟩
    cases found with
    | none => exact spell
    | some _ => exact spell

def floatPhrase : Phrase Rule (Bool × Digits × Digits) :=
  (Phrase.token (fun (negative, whole, fraction) =>
    signText negative ++ (whole.text ++ ('.' :: fraction.text))) id).node .floatLiteral

theorem floatLiteral_simulates : Simulates blanks ending.Aligned floatPhrase floatLiteral := by
  have point : Simulates blanks ending.Aligned (keyword ".") (lit ".") :=
    lit_keyword (by decide)
  have parts := sign_simulates.join_tokens (digits_simulates.join_tokens
    (point.join_tokens (@digits_simulates ending)))
  refine Simulates.node (parts.respell (fun (negative, whole, _, fraction) => (negative, whole, fraction))
    _ _ (fun _ => rfl) ?_) .floatLiteral
  rintro value spelled pairs ⟨spell, silent⟩
  exact ⟨spell, silent⟩

def integerLiteralPhrase : Phrase Rule (Bool × Digits) :=
  (Phrase.token (fun (negative, digits) => signText negative ++ digits.text) id).node .integerLiteral

theorem integerLiteral_simulates :
    Simulates blanks ending.Aligned integerLiteralPhrase integerLiteral := by
  refine Simulates.node ((sign_simulates.join_tokens digits_simulates).respell id _ _ (fun _ => rfl) ?_)
    .integerLiteral
  rintro value spelled pairs ⟨spell, silent⟩
  exact ⟨spell, silent⟩

def boolText (value : Bool) : List Char := if value then "true".toList else "false".toList

def boolPhrase : Phrase Rule Bool := (Phrase.token boolText id).node .boolLiteral

theorem boolLiteral_simulates : Simulates blanks ending.Aligned boolPhrase boolLiteral := by
  have yes : Simulates blanks ending.Aligned (keyword "true") (lit "true") :=
    lit_keyword (by decide)
  have no : Simulates blanks ending.Aligned (keyword "false") (lit "false") :=
    lit_keyword (by decide)
  have words : Simulates blanks ending.Aligned (.token boolText id)
      (oneOf [lit "true", lit "false"] : Peg.Expr Rule) := by
    refine .oneOf fun e member => ?_
    simp only [List.mem_cons, List.not_mem_nil, or_false] at member
    obtain rfl | rfl := member
    · exact yes.respell (fun _ => true) _ _ (fun _ => rfl) fun _ _ _ shape => shape
    · exact no.respell (fun _ => false) _ _ (fun _ => rfl) fun _ _ _ shape => shape
  exact words.node .boolLiteral

end Grammar

/-! ## String literals -/

theorem Quoted.text_append (quoted : Quoted) (rest : List Char) :
    quoted.text ++ rest = '"' :: (quoted.body ++ '"' :: rest) := by
  simp [Quoted.text]

namespace Grammar

variable {ending : LineEnding}

def quotedPhrase (ending : LineEnding) : Phrase Rule Quoted :=
  (Phrase.token Quoted.text (Quoted.convert ending)).node .stringLiteral

/-- Up to the next quote, which must be there. -/
theorem quote_eq (input : List Char) :
    (concat [lit "\"", star (concat [notAt (lit "\""), any]), lit "\""] : Peg.Expr Rule) ('"' :: input) =
      (dropWord ['"'] (input.dropWhile fun c => c != '"')).map fun rest => ([], rest) := by
  have body : (star (concat [notAt (lit "\""), any]) : Peg.Expr Rule) = fun rest =>
      some ([], rest.dropWhile fun c => c != '"') := by
    rw [concat_notAt_any (c := '"') rfl]
    exact funext (star_satisfy _)
  show seq (lit "\"") (seq (star (concat [notAt (lit "\""), any])) (lit "\"")) ('"' :: input) = _
  have quote : "\"".toList = ['"'] := rfl
  simp only [body, seq, lit, quote, dropWord, if_true]
  cases dropWord ['"'] (input.dropWhile fun c => c != '"') <;> rfl

theorem stringLiteral_simulates :
    Simulates blanks ending.Aligned (quotedPhrase ending) stringLiteral := by
  refine Simulates.node ?_ Rule.stringLiteral
  have run : ∀ (quoted : Quoted) (rest : List Char),
      (Phrase.token Quoted.text (Quoted.convert ending)).Run blanks
        (concat [lit "\"", star (concat [notAt (lit "\""), any]), lit "\""] : Peg.Expr Rule) quoted
        (quoted.text ++ rest) rest := by
    intro quoted rest
    have inside : (quoted.body ++ '"' :: rest).dropWhile (fun c => c != '"') = '"' :: rest := by
      rw [List.dropWhile_append_of_pos fun c member => bne_iff_ne.mpr (quoted.noQuote c member)]
      rfl
    refine ⟨quoted.text, [], rfl, ?_, .single _ rest, rfl, rfl⟩
    rw [Quoted.text_append, quote_eq, inside]
    rfl
  intro input input' isAligned
  by_cases opens : ∃ behind, input = '"' :: behind
  · obtain ⟨behind, rfl⟩ := opens
    obtain rfl | ⟨_, same, _⟩ := isAligned
    · rw [convert_cons (by decide)]
      obtain ⟨-, split⟩ := @span_convert ending (fun c => c != '"') behind rfl rfl
      cases closes : behind.dropWhile fun c => c != '"' with
      | nil =>
        left
        rw [closes] at split
        rw [quote_eq, quote_eq, closes, split]
        exact ⟨rfl, rfl⟩
      | cons c rest =>
        have quote : c = '"' := by
          have stops := List.head?_dropWhile_not (fun c => c != '"') behind
          rw [closes] at stops
          simpa using stops
        subst quote
        let quoted : Quoted := ⟨behind.takeWhile fun c => c != '"', fun c member =>
          bne_iff_ne.mp (List.all_eq_true.mp List.all_takeWhile c member)⟩
        have spelled : behind = quoted.body ++ '"' :: rest := by
          rw [← closes]
          exact List.takeWhile_append_dropWhile.symm
        refine .inr ⟨quoted, rest, ending.convert rest, ?_, ?_, .inl rfl⟩
        · have first := run quoted rest
          rwa [Quoted.text_append, ← spelled] at first
        · have second := run (quoted.convert ending) (ending.convert rest)
          have converted : ending.convert behind =
              ending.convert quoted.body ++ '"' :: ending.convert rest := by
            rw [spelled, convert_append, convert_cons (by decide)]
          rwa [Quoted.text_append, Quoted.convert, ← converted] at second
    · cases same
  · -- neither text starts with a quote
    left
    have fails : ∀ {text : List Char}, (∀ behind, text ≠ '"' :: behind) →
        (concat [lit "\"", star (concat [notAt (lit "\""), any]), lit "\""] : Peg.Expr Rule) text = none := by
      intro text other
      cases text with
      | nil => rfl
      | cons c text =>
        have different : '"' ≠ c := fun same => other text (by rw [same])
        have quote : "\"".toList = ['"'] := rfl
        show seq (lit "\"") _ _ = none
        simp only [seq, lit, quote, dropWord, if_neg different]
    have closed : ∀ behind, input ≠ '"' :: behind := fun behind same => opens ⟨behind, same⟩
    refine ⟨fails closed, fails fun behind same => ?_⟩
    obtain rfl | ⟨_, rfl, rfl⟩ := isAligned
    · cases input with
      | nil => cases same
      | cons c input =>
        by_cases newline : c = '\n'
        · subst newline
          cases ending <;> cases same
        · rw [convert_cons newline] at same
          exact closed input (by rw [(List.cons.inj same).1])
    · cases same

end Grammar

end Laic
