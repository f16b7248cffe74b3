import Laic.Codegen.TypeText
import Laic.Lib.PegLayout

/-! # Laid-out sources

The converse of what `Reading` and `Declarations` show: where a source is laid out from the tokens of
a file, with any blanks and comments between them, the grammar matches it and `parse` makes what the
file stands for.  So the layout of a source says nothing to the compiler. -/

namespace Laic

open Peg

/-! ## The spacing of the language -/

/-- The characters of names and numbers. -/
def isWordChar (c : Char) : Bool := c.isAlphanum || c == '_'

/-- A name or a number in front is not continued. -/
def EndsWord (behind : List Char) : Prop := ∀ d ∈ behind.head?, isWordChar d = false ∧ d ≠ '.'

/-- The next token is a mark, as it is behind every name and every number of the language. -/
def Punctuated (later : List (List Char)) : Prop :=
  ∃ c token tokens, later = (c :: token) :: tokens ∧ EndsWord [c]

namespace Grammar

/-- What is skipped between the blanks at the start and the rest. -/
def comments : Peg.Expr Rule := Peg.star (concat [comment, Peg.star whitespace])

theorem skip_eq (input : List Char) : skip input = comments (input.dropWhile isBlank) := by
  have spaces : (Peg.star whitespace : Peg.Expr Rule) input = some ([], input.dropWhile isBlank) := by
    rw [whitespace_eq, star_satisfy]
  show seq (Peg.star whitespace) comments input = _
  simp only [seq, spaces]
  cases comments (input.dropWhile isBlank) <;> rfl

theorem skip_space {c : Char} (blank : isBlank c = true) (input : List Char) :
    skip (c :: input) = skip input := by
  rw [skip_eq, skip_eq, List.dropWhile_cons_of_pos blank]

/-- A comment is skipped to the end of its line. -/
theorem skip_comment {line behind rest : List Char} (within : ∀ c ∈ line, c ≠ '\n')
    (ends : ∀ c ∈ behind.head?, c = '\n') (skipped : skip behind = some ([], rest)) :
    skip ("//".toList ++ line ++ behind) = some ([], rest) := by
  have start : ("//".toList ++ line ++ behind).dropWhile isBlank = "//".toList ++ line ++ behind := rfl
  have content : (line ++ behind).dropWhile (fun c => c != '\n') = behind := by
    rw [List.dropWhile_append_of_pos fun c member => bne_iff_ne.mpr (within c member)]
    cases behind with
    | nil => rfl
    | cons c behind =>
      rw [List.dropWhile_cons_of_neg]
      simp [ends c rfl]
  have word : dropWord "//".toList ("//".toList ++ line ++ behind) = some (line ++ behind) :=
    dropWord_eq_some.mpr (List.append_assoc _ _ _)
  have spaces : (Peg.star whitespace : Peg.Expr Rule) behind = some ([], behind.dropWhile isBlank) := by
    rw [whitespace_eq, star_satisfy]
  have round : (concat [comment, Peg.star whitespace] : Peg.Expr Rule) ("//".toList ++ line ++ behind) =
      some ([], behind.dropWhile isBlank) := by
    show seq comment (Peg.star whitespace) _ = _
    simp only [seq, comment_eq, word, Option.map_some, content, spaces, List.nil_append]
  have shorter : (behind.dropWhile isBlank).length < ("//".toList ++ line ++ behind).length := by
    have within := (List.dropWhile_suffix isBlank (l := behind)).length_le
    have slashes : "//".toList.length = 2 := rfl
    simp only [List.length_append]
    omega
  rw [skip_eq] at skipped ⊢
  rw [start]
  exact star_round round shorter skipped

/-- What may stand between two tokens is what `skip` takes, up to where it stops. -/
theorem skip_of_skipped {text rest : List Char} (skipped : Skipped text rest)
    (stops : skip rest = some ([], rest)) : skip text = some ([], rest) := by
  induction skipped with
  | done input => exact stops
  | space blank _ ih => rw [skip_space blank, ih stops]
  | comment within ends _ ih => exact skip_comment within ends (ih stops)

/-- How the language is laid out. -/
def spacing : Spacing Rule where
  skip := skip
  blank := blanks
  visible := Visible
  skips := by
    rintro _ text behind ⟨c, rest, rfl, notBlank⟩ skipped
    have stays : Takes skip [] [] (c :: rest ++ behind) := takes_skip nofun notBlank
    exact skip_of_skipped skipped stays
  ends skipped := skip_of_skipped skipped rfl

/-! ## Tokens -/

theorem punctuated {mark : Char} (other : isWordChar mark = false ∧ mark ≠ '.') (tokens : List (List Char)) :
    Punctuated ([mark] :: tokens) := by
  refine ⟨mark, [], tokens, rfl, fun d head => ?_⟩
  cases head
  exact other

/-- A mark ends the word in front of it, also behind blanks and comments. -/
theorem endsWord_of_layout {later : List (List Char)} {behind : List Char} (marked : Punctuated later)
    (layout : spacing.Layout later behind) : EndsWord behind := by
  obtain ⟨c, token, tokens, rfl, mark⟩ := marked
  cases layout with
  | token visible skipped layout =>
    have skipped : Skipped behind (c :: token ++ _) := skipped
    intro d head
    generalize stop : c :: token ++ _ = text at skipped
    cases skipped with
    | done =>
      subst stop
      cases head
      exact mark c rfl
    | space blank skipped =>
      cases head
      simp only [isBlank, Bool.or_eq_true, beq_iff_eq] at blank
      obtain ((rfl | rfl) | rfl) | rfl := blank <;> exact ⟨rfl, by simp⟩
    | comment within ends skipped =>
      have slash : d = '/' := (Option.some.inj head).symm
      subst slash
      exact ⟨rfl, by simp⟩

theorem takes_digits {digits : Digits} {behind : List Char}
    (stops : ∀ d ∈ behind.head?, d.isDigit = false) :
    Takes asciiDigits digits.text [] behind := digits.scan_append stops

theorem isDigit_of_not_isWordChar {d : Char} (noWord : isWordChar d = false) : d.isDigit = false := by
  simp only [isWordChar, Char.isAlphanum, Bool.or_eq_false_iff] at noWord
  exact noWord.1.2

theorem takes_integer {digits : Digits} {behind : List Char} (ends : EndsWord behind) :
    Takes integer digits.text [.mk .integer digits.text []] behind :=
  (takes_digits fun d head => isDigit_of_not_isWordChar (ends d head).1).node Rule.integer

theorem takes_ident {name : Name} {behind : List Char} (ends : EndsWord behind) :
    Takes ident name.text [.mk .ident name.text []] behind := by
  have word : Takes (Word.scan Char.isAlpha (fun c => c.isAlphanum || c == '_') : Peg.Expr Rule) name.text []
      behind := name.scan_append fun d head => (ends d head).1
  exact word.node Rule.ident

theorem takes_stringLiteral (quoted : Quoted) (behind : List Char) :
    Takes stringLiteral quoted.text [.mk .stringLiteral quoted.text []] behind := by
  have inside : (quoted.body ++ '"' :: behind).dropWhile (fun c => c != '"') = '"' :: behind := by
    rw [List.dropWhile_append_of_pos fun c member => bne_iff_ne.mpr (quoted.noQuote c member)]
    rfl
  refine Takes.node ?_ Rule.stringLiteral
  unfold Takes
  rw [Quoted.text_append, quote_eq, inside]
  rfl

/-! ## Literals -/

theorem takes_sign (negative : Bool) (digits : Digits) (rest : List Char) :
    Takes (opt (lit "-") : Peg.Expr Rule) (signText negative) [] (digits.text ++ rest) := by
  cases negative with
  | true => exact (Takes.lit "-" _).orElse_left
  | false =>
    have other : '-' ≠ digits.head := by
      intro same
      have digit := digits.head_ok
      rw [← same] at digit
      cases digit
    have noSign : (lit "-" : Peg.Expr Rule) (digits.text ++ rest) = none := by
      have differs : dropWord "-".toList (digits.head :: (digits.tail ++ rest)) = none := if_neg other
      simp only [lit, Word.text, List.cons_append, differs]
    exact Takes.orElse_right noSign (Takes.empty _)

/-- A number does not start with a quote. -/
theorem stringLiteral_number (negative : Bool) (digits : Digits) (rest : List Char) :
    stringLiteral (signText negative ++ (digits.text ++ rest)) = none := by
  cases negative with
  | true => rfl
  | false =>
    have other : '"' ≠ digits.head := by
      intro same
      have digit := digits.head_ok
      rw [← same] at digit
      cases digit
    have noQuote : (lit "\"" : Peg.Expr Rule) (digits.head :: (digits.tail ++ rest)) = none := by
      have differs : dropWord "\"".toList (digits.head :: (digits.tail ++ rest)) = none := if_neg other
      simp only [lit, differs]
    show node Rule.stringLiteral (seq (lit "\"") _) (digits.head :: (digits.tail ++ rest)) = none
    simp only [node, seq, noQuote]

theorem takes_floatLiteral {negative : Bool} {whole fraction : Digits} {behind : List Char}
    (stops : ∀ d ∈ behind.head?, d.isDigit = false) :
    Takes floatLiteral (signText negative ++ (whole.text ++ ('.' :: fraction.text)))
      [.mk .floatLiteral (signText negative ++ (whole.text ++ ('.' :: fraction.text))) []] behind := by
  refine Takes.node ?_ Rule.floatLiteral
  have point : ∀ d ∈ ('.' :: (fraction.text ++ behind)).head?, d.isDigit = false := by
    intro d head
    cases head
    rfl
  have first : Takes asciiDigits whole.text [] (('.' :: fraction.text) ++ behind) := takes_digits point
  have second : Takes asciiDigits fraction.text [] behind := takes_digits stops
  have sign := takes_sign negative whole (('.' :: fraction.text) ++ behind)
  rw [← List.append_assoc] at sign
  exact sign.seq (first.seq ((Takes.lit "." (fraction.text ++ behind)).seq second))

/-- An integer has no point. -/
theorem floatLiteral_integer {negative : Bool} {digits : Digits} {behind : List Char}
    (ends : EndsWord behind) :
    floatLiteral (signText negative ++ (digits.text ++ behind)) = none := by
  have sign := takes_sign negative digits behind
  have number : Takes asciiDigits digits.text [] behind :=
    takes_digits fun d head => isDigit_of_not_isWordChar (ends d head).1
  have noPoint : (lit "." : Peg.Expr Rule) behind = none := by
    cases behind with
    | nil => rfl
    | cons d behind =>
      have differs : dropWord ".".toList (d :: behind) = none := if_neg (Ne.symm (ends d rfl).2)
      simp only [lit, differs]
  unfold Takes at sign number
  show node .floatLiteral (seq (opt (lit "-")) (seq asciiDigits (seq (lit ".") asciiDigits))) _ = none
  simp only [node, seq, sign, number, noPoint]

theorem takes_integerLiteral {negative : Bool} {digits : Digits} {behind : List Char}
    (ends : EndsWord behind) :
    Takes integerLiteral (signText negative ++ digits.text)
      [.mk .integerLiteral (signText negative ++ digits.text) []] behind := by
  refine Takes.node ?_ Rule.integerLiteral
  have number : Takes asciiDigits digits.text [] behind :=
    takes_digits fun d head => isDigit_of_not_isWordChar (ends d head).1
  exact (takes_sign negative digits behind).seq number

/-- The pair of a literal. -/
def literalPair (value : LiteralValueSyntax) : Pair Rule :=
  .mk .literal value.text [.mk (match value with
    | .string _ => .stringLiteral
    | .float _ _ _ => .floatLiteral
    | .integer _ _ => .integerLiteral
    | .bool _ => .boolLiteral) value.text []]

theorem takes_literal {value : LiteralValueSyntax} {behind : List Char} (ends : EndsWord behind) :
    Takes literal value.text [literalPair value] behind := by
  refine Takes.node ?_ Rule.literal
  cases value with
  | string quoted => exact (takes_stringLiteral quoted behind).orElse_left
  | float negative whole fraction =>
    have noString := stringLiteral_number negative whole (('.' :: fraction.text) ++ behind)
    rw [← List.append_assoc, ← List.append_assoc, List.append_assoc (signText negative)] at noString
    refine Takes.orElse_right noString ?_
    exact (takes_floatLiteral fun d head => isDigit_of_not_isWordChar (ends d head).1).orElse_left
  | integer negative digits =>
    have noString := stringLiteral_number negative digits behind
    have noFloat : floatLiteral (signText negative ++ (digits.text ++ behind)) = none :=
      floatLiteral_integer ends
    rw [← List.append_assoc] at noString noFloat
    exact Takes.orElse_right noString (Takes.orElse_right noFloat (takes_integerLiteral ends).orElse_left)
  | bool value =>
    have word : Takes (oneOf [lit "true", lit "false"] : Peg.Expr Rule) (LiteralValueSyntax.bool value).text []
        behind := by
      cases value with
      | true => exact (Takes.lit "true" behind).orElse_left
      | false => exact Takes.orElse_right rfl (Takes.lit "false" behind).orElse_left
    have others : Takes (oneOf [boolLiteral]) (LiteralValueSyntax.bool value).text _ behind :=
      (word.node Rule.boolLiteral).orElse_left
    cases value with
    | true => exact Takes.orElse_right rfl (Takes.orElse_right rfl (Takes.orElse_right rfl others))
    | false => exact Takes.orElse_right rfl (Takes.orElse_right rfl (Takes.orElse_right rfl others))

/-- The builder makes the value of the literal, or reports that it is out of range. -/
theorem parseLiteral_literalPair (value : LiteralValueSyntax) :
    Outcome value.inRange value.value (parseLiteral (literalPair value)) := by
  cases value with
  | string quoted =>
    show Outcome True _ (parseLiteral (.mk .literal _ [.mk .stringLiteral quoted.text []]))
    rw [parseLiteral_string, stripQuotes_text]
    exact .built trivial
  | float negative whole fraction =>
    show Outcome True _ (parseLiteral (.mk .literal _ [.mk .floatLiteral
      (signText negative ++ (whole.text ++ ('.' :: fraction.text))) []]))
    rw [parseLiteral_float, parseF64_text]
    exact .built trivial
  | integer negative digits =>
    show Outcome _ _ (parseLiteral (.mk .literal _ [.mk .integerLiteral (signText negative ++ digits.text) []]))
    rw [parseLiteral_integer]
    exact parseI64_text negative digits
  | bool value => cases value <;> exact .built trivial

/-! ## Types -/

/-- The pair of a dimension. -/
def dimPair (dim : DimensionSyntax) : Pair Rule :=
  .mk .dimension dim.text (match dim with
    | .size digits => [.mk .integer digits.text []]
    | .anonymous => []
    | .named name => [.mk .ident name.text []])

theorem takes_dim {dim : DimensionSyntax} {behind : List Char} (ends : EndsWord behind) :
    Takes dimension dim.text [dimPair dim] behind := by
  refine Takes.node ?_ Rule.dimension
  cases dim with
  | size digits => exact (takes_integer ends).orElse_left
  | anonymous => exact Takes.orElse_right rfl (Takes.lit "_" behind).orElse_left
  | named name =>
    -- a letter starts neither a number nor the mark of an anonymous dimension
    have noDigit : name.head.isDigit = false := Text.isDigit_of_isAlpha name.head_ok
    have starts : name.text ++ behind = name.head :: (name.tail ++ behind) := rfl
    have noInteger : integer (name.text ++ behind) = none := by
      simp only [starts, integer, asciiDigits, asciiDigit, concat, node, seq, satisfy, noDigit,
        Bool.false_eq_true, if_false]
    have other : '_' ≠ name.head := by
      intro same
      have letter := name.head_ok
      rw [← same] at letter
      cases letter
    have noMark : (lit "_" : Peg.Expr Rule) (name.text ++ behind) = none := by
      have differs : dropWord "_".toList (name.head :: (name.tail ++ behind)) = none := if_neg other
      simp only [lit, starts, differs]
    exact Takes.orElse_right noInteger (Takes.orElse_right noMark (takes_ident ends).orElse_left)

theorem parseDimension_dimPair (dim : DimensionSyntax) :
    Outcome dim.inRange dim.value (parseDimension (dimPair dim)) := by
  cases dim with
  | size digits =>
    show Outcome (Digits.value digits < 2 ^ 64) _ (parseDimension (.mk .dimension digits.text
      [.mk .integer digits.text []]))
    rw [parseDimension_integer (digits_unmarked digits), Digits.parseUnsigned_text digits (by omega)]
    by_cases fits : Digits.value digits < 2 ^ 64
    · rw [if_pos fits]
      exact .built fits
    · rw [if_neg fits]
      exact .outOfRange fits .dimension
  | anonymous => exact .built trivial
  | named name =>
    show Outcome True _ (parseDimension (.mk .dimension name.text [.mk .ident name.text []]))
    rw [parseDimension_ident (name_unmarked name)]
    exact .built trivial

/-- A pair of the rule from which the builder makes the value of the part. -/
def Makes {σ α : Type} (construct : Construct σ α) (part : σ) (pair : Pair Rule) : Prop :=
  pair.rule = construct.rule ∧
    Outcome (construct.inRange part) (construct.value part) (construct.build pair)

/-- The grammar accepts the part wherever it is written, and the builder makes its value. -/
def Accepted {σ α : Type} (construct : Construct σ α) (e : Peg.Expr Rule) (part : σ) : Prop :=
  ∀ later, Accepts spacing e (construct.tokens part) later (One (Makes construct part))

/-- What is made of a list of pairs, each of which makes a part. -/
theorem outcome_of_makes {σ α : Type} {construct : Construct σ α} {parts : List σ} {pairs : List (Pair Rule)}
    (each : List.Forall₂ (Makes construct) parts pairs) :
    Outcome (∀ part ∈ parts, construct.inRange part) (parts.map construct.value)
      ((pairs.filter fun pair => pair.rule == construct.rule).mapM construct.build) := by
  have all : pairs.filter (fun pair => pair.rule == construct.rule) = pairs := by
    induction each with
    | nil => rfl
    | cons makes _ ih => rw [List.filter_cons_of_pos (by simp [makes.1]), ih]
  rw [all]
  exact .mapM (each.imp fun _ _ makes => makes.2)

theorem dimension_accepted (dim : DimensionSyntax) {later : List (List Char)} (marked : Punctuated later) :
    Accepts spacing dimension [dim.text] later (One (Makes dimensionConstruct dim)) :=
  Accepts.pair (fun _ layout => takes_dim (endsWord_of_layout marked layout))
    ⟨rfl, parseDimension_dimPair dim⟩

theorem dimList_accepted (first : DimensionSyntax) (others : List DimensionSyntax)
    (later : List (List Char)) :
    Accepts spacing dimList (first.text :: others.flatMap fun dim => [",".toList, dim.text])
      ("]".toList :: later) (One (Makes dimListConstruct (first, others))) := by
  have further : Accepts spacing (spaced [many skip (spaced [lit ",", dimension])])
      (others.flatMap fun dim => [",".toList, dim.text]) ("]".toList :: later)
      (List.Forall₂ (Makes dimensionConstruct) others) := by
    -- a dimension stands in front of a comma or of the bracket
    refine Accepts.many (fun dim _ behind marked => ?_) (fun dim _ behind => punctuated (by decide) _)
      (punctuated (by decide) later) (fun dim _ => List.cons_ne_nil _ _) ?_
    · have second : Accepts spacing (spaced [dimension]) [dim.text] behind
          (One (Makes dimensionConstruct dim)) := dimension_accepted dim marked
      exact second.behind ","
    · rintro _ ⟨behind, rfl, -⟩
      rfl
  have marked : Punctuated ((others.flatMap fun dim => [",".toList, dim.text]) ++ "]".toList :: later) :=
    Accepts.follows_rounds (fun dim _ behind => punctuated (by decide) _) (punctuated (by decide) later)
  have parts : Accepts spacing (spaced [dimension, many skip (spaced [lit ",", dimension])])
      ([first.text] ++ others.flatMap fun dim => [",".toList, dim.text]) ("]".toList :: later) _ :=
    Accepts.cons (dimension_accepted first marked) further
  refine (parts.node Rule.dimList).imp fun pairs one => ?_
  obtain ⟨_, rfl, text, _, rfl, _, right, rfl, ⟨pair, rfl, makes⟩, allMake⟩ := one
  exact ⟨_, rfl, rfl, outcome_of_makes (.cons makes allMake)⟩

theorem dtype_accepted (dtype : TensorElementType) : Accepted dtypeConstruct tensorDtype dtype :=
  fun _ => Accepts.pair (fun behind _ => takes_dtype dtype behind) ⟨rfl, by cases dtype <;> exact .built trivial⟩

theorem tensorType_accepted (dtype : TensorElementType) (first : DimensionSyntax)
    (others : List DimensionSyntax) (later : List (List Char)) :
    Accepts spacing tensorType (TypeSyntax.tensor dtype first others).tokens later
      (One fun pair => Outcome (TypeSyntax.tensor dtype first others).inRange
        (TypeSyntax.tensor dtype first others).value (parseCompoundType pair)) := by
  have dims : Accepts spacing (spaced [dimList, lit "]"]) _ later _ :=
    (dimList_accepted first others later).endedBy
  have element : Accepts spacing (spaced [tensorDtype, lit ">", lit "[", dimList, lit "]"]) _ later _ :=
    Accepts.cons (dtype_accepted dtype _) (Accepts.behind ">" (Accepts.behind "[" dims))
  have parts : Accepts spacing (spaced [lit "tensor", lit "<", tensorDtype, lit ">", lit "[", dimList, lit "]"])
      _ later _ := Accepts.behind "tensor" (Accepts.behind "<" element)
  refine (parts.node Rule.tensorType).imp fun pairs one => ?_
  obtain ⟨_, rfl, text, _, rfl, _, _, rfl, ⟨dtypePair, rfl, -, isDtype⟩, dimsPair, rfl, -, isDims⟩ := one
  refine ⟨_, rfl, ?_⟩
  show Outcome _ _ (parseCompoundType (.mk .tensorType text [dtypePair, dimsPair]))
  rw [parseCompoundType]
  exact (isDtype.bind (isDims.returns _)).of_iff ⟨And.right, fun fits => ⟨trivial, fits⟩⟩

/-- An alternative that matches a type with parameters. -/
theorem compound_accepted {e : Peg.Expr Rule} {tokens later : List (List Char)} {inRange : Prop}
    {value : LaicType} (accepts : Accepts spacing e tokens later
      (One fun pair => Outcome inRange value (parseCompoundType pair))) :
    Accepts spacing (node .laicType e) tokens later
      (One fun pair => pair.rule = .laicType ∧ Outcome inRange value (parseLaicType pair)) := by
  refine (accepts.node Rule.laicType).imp fun pairs one => ?_
  obtain ⟨_, rfl, text, _, rfl, pair, rfl, outcome⟩ := one
  refine ⟨_, rfl, rfl, ?_⟩
  rw [parseLaicType]
  exact outcome

/-- Types are accepted however deep they nest. -/
theorem laicType_accepted (ty : TypeSyntax) : Accepted typeConstruct laicType ty := by
  have unroll {tokens later : List (List Char)} {good : List (Pair Rule) → Prop}
      (accepts : Accepts spacing (laicTypeBody laicType) tokens later good) :
      Accepts spacing laicType tokens later good := by rwa [laicType_eq]
  induction ty with
  | scalar ty isScalar =>
    intro later
    refine unroll (Accepts.pair (fun behind _ => takes_scalar isScalar laicType behind) ⟨rfl, ?_⟩)
    show Outcome _ _ (parseLaicType (.mk .laicType ty.keyword.toList []))
    rw [parseLaicType, parseScalarKeyword_keyword isScalar]
    exact .built trivial
  | tensor dtype first others =>
    intro later
    refine unroll (compound_accepted (Accepts.orElse_right ?_ (Accepts.orElse_right ?_
      (Accepts.orElse_right ?_ (tensorType_accepted dtype first others later).orElse_left))))
    · rintro _ ⟨behind, rfl, -⟩
      rfl
    · rintro _ ⟨behind, rfl, -⟩
      rfl
    · rintro _ ⟨behind, rfl, -⟩
      rfl
  | list inner ih =>
    intro later
    have closed : Accepts spacing (spaced [laicType, lit ">"]) _ later _ := (ih (">".toList :: later)).endedBy
    have parts : Accepts spacing (spaced [lit "list", lit "<", laicType, lit ">"]) _ later _ :=
      Accepts.behind "list" (Accepts.behind "<" closed)
    have matched : Accepts spacing (listType laicType) (TypeSyntax.list inner).tokens later
        (One fun pair => Outcome inner.inRange (.list inner.value) (parseCompoundType pair)) := by
      refine (parts.node Rule.listType).imp fun pairs one => ?_
      obtain ⟨_, rfl, text, _, rfl, pair, rfl, -, outcome⟩ := one
      refine ⟨_, rfl, ?_⟩
      show Outcome _ _ (parseCompoundType (.mk .listType text [pair]))
      rw [parseCompoundType, parseListType]
      exact outcome.returns _
    refine unroll (compound_accepted (Accepts.orElse_right ?_ matched.orElse_left))
    rintro _ ⟨behind, rfl, -⟩
    rfl
  | optional inner ih =>
    intro later
    have closed : Accepts spacing (spaced [laicType, lit ">"]) _ later _ := (ih (">".toList :: later)).endedBy
    have parts : Accepts spacing (spaced [lit "optional", lit "<", laicType, lit ">"]) _ later _ :=
      Accepts.behind "optional" (Accepts.behind "<" closed)
    have matched : Accepts spacing (optionalType laicType) (TypeSyntax.optional inner).tokens later
        (One fun pair => Outcome inner.inRange (.optional inner.value) (parseCompoundType pair)) := by
      refine (parts.node Rule.optionalType).imp fun pairs one => ?_
      obtain ⟨_, rfl, text, _, rfl, pair, rfl, -, outcome⟩ := one
      refine ⟨_, rfl, ?_⟩
      show Outcome _ _ (parseCompoundType (.mk .optionalType text [pair]))
      rw [parseCompoundType, parseOptionalType]
      exact outcome.returns _
    refine unroll (compound_accepted (Accepts.orElse_right ?_ (Accepts.orElse_right ?_ matched.orElse_left)))
    · rintro _ ⟨behind, rfl, -⟩
      rfl
    · rintro _ ⟨behind, rfl, -⟩
      rfl
  | map key value ihKey ihValue =>
    intro later
    have closed : Accepts spacing (spaced [laicType, lit ">"]) _ later _ :=
      (ihValue (">".toList :: later)).endedBy
    have pairOf : Accepts spacing (spaced [laicType, lit ",", laicType, lit ">"]) _ later _ :=
      Accepts.cons (ihKey _) (Accepts.behind "," closed)
    have parts : Accepts spacing (spaced [lit "map", lit "<", laicType, lit ",", laicType, lit ">"])
        _ later _ := Accepts.behind "map" (Accepts.behind "<" pairOf)
    have matched : Accepts spacing (mapType laicType) (TypeSyntax.map key value).tokens later
        (One fun pair => Outcome (key.inRange ∧ value.inRange) (.map key.value value.value)
          (parseCompoundType pair)) := by
      have tokens : (TypeSyntax.map key value).tokens = "map".toList :: "<".toList ::
          (key.tokens ++ (",".toList :: (value.tokens ++ [">".toList]))) := by
        simp [TypeSyntax.tokens]
      rw [tokens]
      refine (parts.node Rule.mapType).imp fun pairs one => ?_
      obtain ⟨_, rfl, text, _, rfl, _, _, rfl, ⟨keyPair, rfl, -, isKey⟩, valuePair, rfl, -, isValue⟩ := one
      refine ⟨_, rfl, ?_⟩
      show Outcome _ _ (parseCompoundType (.mk .mapType text [keyPair, valuePair]))
      rw [parseCompoundType, parseMapType]
      exact isKey.bind (isValue.returns _)
    exact unroll (compound_accepted matched.orElse_left)

/-! ## Fields and structs -/

theorem ident_accepted (name : Name) {later : List (List Char)} (marked : Punctuated later) :
    Accepts spacing ident [name.text] later (· = [.mk .ident name.text []]) :=
  Accepts.token fun _ layout => takes_ident (endsWord_of_layout marked layout)

theorem literal_accepted (value : LiteralValueSyntax) {later : List (List Char)} (marked : Punctuated later) :
    Accepts spacing literal [value.text] later (· = [literalPair value]) :=
  Accepts.token fun _ layout => takes_literal (endsWord_of_layout marked layout)

theorem defaultValue_accepted (value : LiteralValueSyntax) {later : List (List Char)}
    (marked : Punctuated later) :
    Accepts spacing defaultValue ["=".toList, value.text] later
      (One fun pair => ∃ text, pair = .mk .defaultValue text [literalPair value]) := by
  have last : Accepts spacing (spaced [literal]) [value.text] later _ := literal_accepted value marked
  refine ((last.behind "=").node Rule.defaultValue).imp fun pairs one => ?_
  obtain ⟨_, rfl, text, _, rfl, rfl⟩ := one
  exact ⟨_, rfl, text, rfl⟩

theorem fieldDef_accepted (field : FieldSyntax) : Accepted (fieldConstruct .lf) fieldDef field := by
  intro later
  obtain ⟨name, ty, default⟩ := field
  cases default with
  | none =>
    have noDefault : Accepts spacing (opt defaultValue) [] (";".toList :: later) (· = []) := by
      refine Accepts.opt_none ?_
      rintro _ ⟨behind, rfl, -⟩
      rfl
    have closed : Accepts spacing (spaced [opt defaultValue, lit ";"]) [";".toList] later _ :=
      noDefault.endedBy
    have typed : Accepts spacing (spaced [laicType, opt defaultValue, lit ";"]) _ later _ :=
      Accepts.cons (laicType_accepted ty _) closed
    have parts : Accepts spacing (spaced [ident, lit ":", laicType, opt defaultValue, lit ";"]) _ later _ :=
      Accepts.cons (ident_accepted name (punctuated (by decide) _)) (Accepts.behind ":" typed)
    have tokens : FieldSyntax.tokens ⟨name, ty, none⟩ =
        [name.text] ++ (":".toList :: (ty.tokens ++ [";".toList])) := by
      simp [FieldSyntax.tokens]
    show Accepts spacing fieldDef (FieldSyntax.tokens ⟨name, ty, none⟩) later _
    rw [tokens]
    refine (parts.node Rule.fieldDef).imp fun pairs one => ?_
    obtain ⟨_, rfl, text, _, rfl, _, _, rfl, rfl, _, _, rfl, ⟨tyPair, rfl, -, outcome⟩, rfl⟩ := one
    refine ⟨_, rfl, rfl, ?_⟩
    show Outcome _ _ (parseFieldDef (.mk .fieldDef text [_, tyPair]))
    rw [parseFieldDef_plain]
    have undefaulted : ty.inRange ↔ FieldSyntax.inRange ⟨name, ty, none⟩ :=
      ⟨fun fits => ⟨fits, fun _ found => absurd found (Option.some_ne_none _).symm⟩, And.left⟩
    exact (outcome.returns fun ty => FieldDef.mk (String.ofList name.text) ty none).of_iff undefaulted
  | some value =>
    have closed : Accepts spacing (spaced [opt defaultValue, lit ";"])
        (["=".toList, value.text] ++ [";".toList]) later _ :=
      (defaultValue_accepted value (punctuated (by decide) later)).opt_some.endedBy
    have typed : Accepts spacing (spaced [laicType, opt defaultValue, lit ";"]) _ later _ :=
      Accepts.cons (laicType_accepted ty _) closed
    have parts : Accepts spacing (spaced [ident, lit ":", laicType, opt defaultValue, lit ";"]) _ later _ :=
      Accepts.cons (ident_accepted name (punctuated (by decide) _)) (Accepts.behind ":" typed)
    have tokens : FieldSyntax.tokens ⟨name, ty, some value⟩ =
        [name.text] ++ (":".toList :: (ty.tokens ++ (["=".toList, value.text] ++ [";".toList]))) := by
      simp [FieldSyntax.tokens]
    show Accepts spacing fieldDef (FieldSyntax.tokens ⟨name, ty, some value⟩) later _
    rw [tokens]
    refine (parts.node Rule.fieldDef).imp fun pairs one => ?_
    obtain ⟨_, rfl, text, _, rfl, _, _, rfl, rfl, _, _, rfl, ⟨tyPair, rfl, -, outcome⟩, _, rfl, outer, rfl⟩ := one
    refine ⟨_, rfl, rfl, ?_⟩
    show Outcome _ _ (parseFieldDef (.mk .fieldDef text [_, tyPair, .mk .defaultValue outer [literalPair value]]))
    rw [parseFieldDef_default]
    refine (outcome.bind ((parseLiteral_literalPair value).returns fun literal =>
      FieldDef.mk (String.ofList name.text) ty.value (some literal))).of_iff ?_
    refine and_congr_right fun _ => ⟨fun fits other found => ?_, fun all => all value rfl⟩
    cases found
    exact fits

/-- What every word of the language is in front of: its own letters. -/
theorem flatten_ne_nil {token : List Char} (visible : token ≠ []) (tokens : List (List Char)) :
    (token :: tokens).flatten ≠ [] := by
  simp [visible]

theorem struct_accepted (rule : Rule) (keyword : String) (structSyntax : StructSyntax) :
    Accepted (structConstruct .lf rule keyword)
      (node rule (spaced [lit keyword, ident, lit "\x7b", many skip fieldDef, lit "\x7d"])) structSyntax := by
  intro later
  have fields : Accepts spacing (many skip fieldDef) (structSyntax.fields.flatMap FieldSyntax.tokens)
      ("\x7d".toList :: later) (List.Forall₂ (Makes (fieldConstruct .lf)) structSyntax.fields) := by
    refine Accepts.manyAnywhere (fun field _ => fieldDef_accepted field)
      (fun field _ => flatten_ne_nil (List.cons_ne_nil _ _) _) ?_
    rintro _ ⟨behind, rfl, -⟩
    rfl
  have closed : Accepts spacing (spaced [many skip fieldDef, lit "\x7d"]) _ later _ := fields.endedBy
  have named : Accepts spacing (spaced [ident, lit "\x7b", many skip fieldDef, lit "\x7d"]) _ later _ :=
    Accepts.cons (ident_accepted structSyntax.name (punctuated (by decide) _)) (Accepts.behind "\x7b" closed)
  have parts : Accepts spacing
      (spaced [lit keyword, ident, lit "\x7b", many skip fieldDef, lit "\x7d"]) _ later _ :=
    Accepts.behind keyword named
  refine (parts.node rule).imp fun pairs one => ?_
  obtain ⟨_, rfl, text, _, rfl, _, fieldPairs, rfl, rfl, each⟩ := one
  refine ⟨_, rfl, rfl, ?_⟩
  have built := (outcome_of_makes each).returns fun fields =>
    StructDef.mk (String.ofList structSyntax.name.text) fields
  -- the name is not a field
  exact built

/-! ## Errors and skills -/

theorem errorVariant_accepted (variant : VariantSyntax) : Accepted variantConstruct errorVariant variant := by
  intro later
  have code : Accepts spacing integer [variant.code.text] (";".toList :: later)
      (· = [.mk .integer variant.code.text []]) :=
    Accepts.token fun _ layout => takes_integer (endsWord_of_layout (punctuated (by decide) later) layout)
  have closed : Accepts spacing (spaced [integer, lit ";"]) _ later _ := code.endedBy
  have parts : Accepts spacing (spaced [ident, lit "=", integer, lit ";"]) _ later _ :=
    Accepts.cons (ident_accepted variant.name (punctuated (by decide) _)) (Accepts.behind "=" closed)
  refine (parts.node Rule.errorVariant).imp fun pairs one => ?_
  obtain ⟨_, rfl, text, _, rfl, _, _, rfl, rfl, rfl⟩ := one
  refine ⟨_, rfl, rfl, ?_⟩
  show Outcome (Digits.value variant.code < 2 ^ 16) _ (parseErrorVariant (.mk .errorVariant text
    [.mk .ident variant.name.text [], .mk .integer variant.code.text []]))
  rw [parseErrorVariant_pair]
  by_cases fits : Digits.value variant.code < 2 ^ 16
  · rw [if_pos fits]
    exact .built fits
  · rw [if_neg fits]
    have message := RangeMessage.errorCode (String.ofList variant.code.text)
    rw [String.append_assoc] at message ⊢
    exact .outOfRange fits message

theorem errorDef_accepted (errors : ErrorSyntax) : Accepted errorConstruct errorDef errors := by
  intro later
  have variants : Accepts spacing (many1 skip errorVariant)
      ((errors.first :: errors.others).flatMap VariantSyntax.tokens) ("\x7d".toList :: later)
      (List.Forall₂ (Makes variantConstruct) (errors.first :: errors.others)) := by
    refine Accepts.many1 (fun variant _ => errorVariant_accepted variant)
      (fun variant _ => flatten_ne_nil (List.cons_ne_nil _ _) _) ?_
    rintro _ ⟨behind, rfl, -⟩
    rfl
  have closed : Accepts spacing (spaced [many1 skip errorVariant, lit "\x7d"]) _ later _ := variants.endedBy
  have parts : Accepts spacing (spaced [lit "error", lit "\x7b", many1 skip errorVariant, lit "\x7d"])
      _ later _ := Accepts.behind "error" (Accepts.behind "\x7b" closed)
  refine (parts.node Rule.errorDef).imp fun pairs one => ?_
  obtain ⟨_, rfl, text, _, rfl, each⟩ := one
  exact ⟨_, rfl, rfl, outcome_of_makes each⟩

theorem quoted_accepted (quoted : Quoted) (later : List (List Char)) :
    Accepts spacing stringLiteral [quoted.text] later (· = [.mk .stringLiteral quoted.text []]) :=
  Accepts.token fun behind _ => takes_stringLiteral quoted behind

theorem idDecl_accepted (id : Quoted) : Accepted (idConstruct .lf) idDecl id := by
  intro later
  have closed : Accepts spacing (spaced [stringLiteral, lit ";"]) _ later _ :=
    (quoted_accepted id (";".toList :: later)).endedBy
  have parts : Accepts spacing (spaced [lit "id", lit "=", stringLiteral, lit ";"]) _ later _ :=
    Accepts.behind "id" (Accepts.behind "=" closed)
  refine (parts.node Rule.idDecl).imp fun pairs one => ?_
  obtain ⟨_, rfl, text, _, rfl, rfl⟩ := one
  refine ⟨_, rfl, rfl, ?_⟩
  show Outcome True id.string (.ok (String.ofList (stripQuotes id.text)))
  rw [stripQuotes_text]
  exact .built trivial

theorem versionDecl_accepted (version : Quoted) : Accepted (versionConstruct .lf) versionDecl version := by
  intro later
  have closed : Accepts spacing (spaced [stringLiteral, lit ";"]) _ later _ :=
    (quoted_accepted version (";".toList :: later)).endedBy
  have parts : Accepts spacing (spaced [lit "version", stringLiteral, lit ";"]) _ later _ :=
    Accepts.behind "version" closed
  refine (parts.node Rule.versionDecl).imp fun pairs one => ?_
  obtain ⟨_, rfl, text, _, rfl, rfl⟩ := one
  refine ⟨_, rfl, rfl, ?_⟩
  show Outcome True version.string (.ok (String.ofList (stripQuotes version.text)))
  rw [stripQuotes_text]
  exact .built trivial

theorem skillDef_accepted (skill : SkillSyntax) : Accepted (skillConstruct .lf) skillDef skill := by
  intro later
  obtain ⟨name, id, input, output, errors⟩ := skill
  have inputs (behind : List (List Char)) := struct_accepted .inputDef "input" input behind
  have outputs (behind : List (List Char)) := struct_accepted .outputDef "output" output behind
  -- the parts in front of the error block, whatever stands for it
  have front {blockTokens : List (List Char)} {good : List (Pair Rule) → Prop}
      (block : Accepts spacing (opt errorDef) blockTokens ("\x7d".toList :: later) good) :
      Accepts spacing (spaced [lit "skill", ident, lit "\x7b", idDecl, inputDef, outputDef, opt errorDef,
          lit "\x7d"])
        ("skill".toList :: ([name.text] ++ ("\x7b".toList :: (idConstruct .lf).tokens id ++
          (input.tokens "input" ++ (output.tokens "output" ++ (blockTokens ++ ["\x7d".toList])))))) later
        (Both (· = [.mk .ident name.text []]) (Both (One (Makes (idConstruct .lf) id))
          (Both (One (Makes (structConstruct .lf .inputDef "input") input))
            (Both (One (Makes (structConstruct .lf .outputDef "output") output)) good)))) := by
    have closed : Accepts spacing (spaced [opt errorDef, lit "\x7d"]) _ later good := block.endedBy
    have withOutput : Accepts spacing (spaced [outputDef, opt errorDef, lit "\x7d"]) _ later _ :=
      Accepts.cons (outputs _) closed
    have withInput : Accepts spacing (spaced [inputDef, outputDef, opt errorDef, lit "\x7d"]) _ later _ :=
      Accepts.cons (inputs _) withOutput
    have withId : Accepts spacing (spaced [idDecl, inputDef, outputDef, opt errorDef, lit "\x7d"]) _ later _ :=
      Accepts.cons (idDecl_accepted id _) withInput
    have named : Accepts spacing (spaced [ident, lit "\x7b", idDecl, inputDef, outputDef, opt errorDef,
        lit "\x7d"]) _ later _ := Accepts.cons (ident_accepted name (punctuated (by decide) _)) (Accepts.behind "\x7b" withId)
    exact Accepts.behind "skill" named
  cases errors with
  | none =>
    have noErrors : Accepts spacing (opt errorDef) [] ("\x7d".toList :: later) (· = []) := by
      refine Accepts.opt_none ?_
      rintro _ ⟨behind, rfl, -⟩
      rfl
    have tokens : SkillSyntax.tokens ⟨name, id, input, output, none⟩ =
        "skill".toList :: ([name.text] ++ ("\x7b".toList :: (idConstruct .lf).tokens id ++
          (input.tokens "input" ++ (output.tokens "output" ++ ([] ++ ["\x7d".toList]))))) := by
      simp [SkillSyntax.tokens]
    show Accepts spacing skillDef (SkillSyntax.tokens ⟨name, id, input, output, none⟩) later _
    rw [tokens]
    refine ((front noErrors).node Rule.skillDef).imp fun pairs one => ?_
    obtain ⟨_, rfl, text, _, rfl, _, _, rfl, rfl, _, _, rfl, ⟨idPair, rfl, -, isId⟩, _, _, rfl,
      ⟨inputPair, rfl, -, isInput⟩, _, _, rfl, ⟨outputPair, rfl, -, isOutput⟩, rfl⟩ := one
    refine ⟨_, rfl, rfl, ?_⟩
    show Outcome _ _ (parseSkillDef (.mk .skillDef text [_, idPair, inputPair, outputPair]))
    rw [parseSkillDef_plain]
    refine (isId.bind (isInput.bind (isOutput.returns fun output =>
      SkillDef.mk (String.ofList name.text) id.string input.value output []))).of_iff ?_
    exact ⟨fun fits => ⟨fits.2.1, fits.2.2, fun _ found => absurd found (Option.some_ne_none _).symm⟩,
      fun fits => ⟨trivial, fits.1, fits.2.1⟩⟩
  | some errors =>
    have block := (errorDef_accepted errors ("\x7d".toList :: later)).opt_some
    have tokens : SkillSyntax.tokens ⟨name, id, input, output, some errors⟩ =
        "skill".toList :: ([name.text] ++ ("\x7b".toList :: (idConstruct .lf).tokens id ++
          (input.tokens "input" ++ (output.tokens "output" ++ (errors.tokens ++ ["\x7d".toList]))))) := by
      simp [SkillSyntax.tokens]
    show Accepts spacing skillDef (SkillSyntax.tokens ⟨name, id, input, output, some errors⟩) later _
    rw [tokens]
    refine ((front block).node Rule.skillDef).imp fun pairs one => ?_
    obtain ⟨_, rfl, text, _, rfl, _, _, rfl, rfl, _, _, rfl, ⟨idPair, rfl, -, isId⟩, _, _, rfl,
      ⟨inputPair, rfl, -, isInput⟩, _, _, rfl, ⟨outputPair, rfl, -, isOutput⟩, errorPair, rfl, isRule,
      isErrors⟩ := one
    obtain ⟨_, outer, variants⟩ := errorPair
    cases isRule
    refine ⟨_, rfl, rfl, ?_⟩
    show Outcome _ _ (parseSkillDef (.mk .skillDef text
      [_, idPair, inputPair, outputPair, .mk .errorDef outer variants]))
    rw [parseSkillDef_errors]
    refine (isId.bind (isInput.bind (isOutput.bind (isErrors.returns fun variants =>
      SkillDef.mk (String.ofList name.text) id.string input.value output.value variants)))).of_iff ?_
    refine ⟨fun fits => ⟨fits.2.1, fits.2.2.1, fun other found => ?_⟩,
      fun fits => ⟨trivial, fits.1, fits.2.1, fits.2.2 errors rfl⟩⟩
    cases found
    exact fits.2.2.2

/-! ## The file -/

/-- Nothing but blanks is left behind the last skill. -/
theorem eoi_accepted : Accepts spacing (node .eoi (notAt any) : Peg.Expr Rule) [] []
    (One fun pair => ∃ text inner, pair = .mk .eoi text inner) := by
  intro text starts
  have ended : text = [] := starts
  subst ended
  exact ⟨_, [], rfl, Spacing.Starts.layout rfl, Nat.le_refl _, _, rfl, _, _, rfl⟩

theorem exists_left_of_forall₂ {α β : Type} {R : α → β → Prop} {left : List α} {right : List β} {b : β}
    (all : List.Forall₂ R left right) (member : b ∈ right) : ∃ a, R a b := by
  induction all with
  | nil => cases member
  | cons head _ ih =>
    obtain rfl | later := List.mem_cons.mp member
    · exact ⟨_, head⟩
    · exact ih later

/-- A laid-out file is matched, and its builder makes what the file stands for. -/
theorem file_laidOut {file : FileSyntax} {source : List Char} (layout : spacing.Layout file.tokens source) :
    ∃ pair, (∃ rest, Grammar.file source = some ([pair], rest)) ∧
      Outcome file.inRange file.value (parseFile pair) := by
  have skills : Accepts spacing (many1 skip skillDef) ((file.first :: file.others).flatMap SkillSyntax.tokens)
      [] (List.Forall₂ (Makes (skillConstruct .lf)) (file.first :: file.others)) := by
    refine Accepts.many1 (fun skill _ => skillDef_accepted skill)
      (fun skill _ => flatten_ne_nil (List.cons_ne_nil _ _) _) ?_
    rintro _ rfl
    rfl
  have ended : Accepts spacing (spaced [node .eoi (notAt any)]) [] [] _ := eoi_accepted
  have body : Accepts spacing (spaced [many1 skip skillDef, node .eoi (notAt any)]) _ [] _ :=
    Accepts.cons skills ended
  have parts : Accepts spacing (spaced [versionDecl, many1 skip skillDef, node .eoi (notAt any)]) _ [] _ :=
    Accepts.cons (versionDecl_accepted file.version _) body
  have tokens : file.tokens = (versionConstruct .lf).tokens file.version ++
      ((file.first :: file.others).flatMap SkillSyntax.tokens ++ []) ++ [] := by
    simp [FileSyntax.tokens]
  rw [tokens] at layout
  -- the blank in front belongs to no token
  obtain ⟨source', skipped, starts, -⟩ := layout.skip
  obtain ⟨pairs, rest, matched, -, -, _, _, rfl, ⟨versionPair, rfl, versionRule, isVersion⟩, skillPairs, _,
    rfl, each, _, rfl, eoiText, eoi, rfl⟩ := parts source' starts
  have front : spaced [empty, versionDecl, many1 skip skillDef, node .eoi (notAt any)] source =
      some ([versionPair] ++ (skillPairs ++ [.mk .eoi eoiText eoi]), rest) := by
    show seq empty (seq skip (spaced [versionDecl, many1 skip skillDef, node .eoi (notAt any)])) source = _
    have skipped : skip source = some ([], source') := skipped
    simp only [seq, empty, skipped, matched, List.nil_append]
  refine ⟨.mk .file (source.take (source.length - rest.length))
    ([versionPair] ++ (skillPairs ++ [.mk .eoi eoiText eoi])), ⟨rest, ?_⟩, ?_⟩
  · show node .file (spaced [empty, versionDecl, many1 skip skillDef, node .eoi (notAt any)]) source = _
    rw [node.eq_1, front]
  · have isSkill : ∀ pair ∈ skillPairs, pair.rule = .skillDef := by
      intro pair member
      obtain ⟨skill, makes⟩ := exists_left_of_forall₂ each member
      exact makes.1
    have outcomes := each.imp fun _ _ makes => makes.2
    have step : parseDeclaration { version := "", skills := [] } versionPair =
        parseVersionDecl versionPair >>= fun version => .ok { version, skills := [] } := by
      have isVersionDecl : versionPair.rule = .versionDecl := versionRule
      simp only [parseDeclaration, isVersionDecl]
    show Outcome _ _ (parseDeclaration { version := "", skills := [] } versionPair >>= fun file =>
      (skillPairs ++ [Pair.mk .eoi eoiText eoi]).foldlM parseDeclaration file)
    rw [step]
    refine ((isVersion.returns fun version => LaicFile.mk version []).bind
      (parseDeclarations_skills (LaicFile.mk file.version.string []) isSkill outcomes eoi _)).of_iff ?_
    exact ⟨And.right, fun fits => ⟨trivial, fits⟩⟩

end Grammar

end Laic
