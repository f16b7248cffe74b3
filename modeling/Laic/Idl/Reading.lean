import Laic.Idl.Lexical

/-! # What the parser reads

Every rule of the grammar reads a part of the concrete syntax, and the builder of its pair makes the
tree that this part stands for, or reports a number that is out of range: no builder meets a pair that it does
not expect. -/

namespace Laic

open Peg LineEnding

/-! ## Builders -/

/-- The reports of a number that is too large, or too small, for its place in the tree. -/
inductive RangeMessage : String → Prop where
  | dimension :
      RangeMessage "invalid dimension integer: number too large to fit in target type"
  | errorCode (code : String) :
      RangeMessage ("invalid error code '" ++ code ++ "': number too large to fit in target type")
  | largeInteger :
      RangeMessage "invalid integer literal: number too large to fit in target type"
  | smallInteger :
      RangeMessage "invalid integer literal: number too small to fit in target type"

/-- The builder returns the value when its numbers are in range, and reports one that is not otherwise. -/
inductive Outcome {α : Type} (inRange : Prop) (value : α) : Except CompileError α → Prop where
  | built (fits : inRange) : Outcome inRange value (.ok value)
  | outOfRange {message : String} (exceeds : ¬ inRange) (isRange : RangeMessage message) :
      Outcome inRange value (.error (.parse message))

namespace Outcome

variable {α β σ : Type} {inRange inRange' : Prop} {value : α} {value' : β}
  {first : Except CompileError α} {next : α → Except CompileError β}

theorem of_iff {result : Except CompileError α} (outcome : Outcome inRange value result)
    (same : inRange ↔ inRange') : Outcome inRange' value result := by
  cases outcome with
  | built fits => exact .built (same.mp fits)
  | outOfRange exceeds isRange => exact .outOfRange (fun fits => exceeds (same.mpr fits)) isRange

theorem bind (outcome : Outcome inRange value first) (later : Outcome inRange' value' (next value)) :
    Outcome (inRange ∧ inRange') value' (first >>= next) := by
  cases outcome with
  | built fits =>
    rw [Except.ok_bind]
    exact later.of_iff ⟨fun fits' => ⟨fits, fits'⟩, And.right⟩
  | outOfRange exceeds isRange =>
    exact .outOfRange (fun both => exceeds both.1) isRange

theorem eq_ok {result : Except CompileError α} (outcome : Outcome inRange value result)
    (fits : inRange) : result = .ok value := by
  cases outcome with
  | built => rfl
  | outOfRange exceeds => exact absurd fits exceeds

theorem eq_error {result : Except CompileError α} (outcome : Outcome inRange value result)
    (exceeds : ¬ inRange) : ∃ message, RangeMessage message ∧ result = .error (.parse message) := by
  cases outcome with
  | built fits => exact absurd fits exceeds
  | outOfRange _ isRange => exact ⟨_, isRange, rfl⟩

/-- What is made of the built value does not fail. -/
theorem returns (outcome : Outcome inRange value first) (make : α → β) :
    Outcome inRange (make value) (first >>= fun built => .ok (make built)) := by
  cases outcome with
  | built fits => exact .built fits
  | outOfRange exceeds isRange => exact .outOfRange exceeds isRange

/-- One builder after the other, each for one value. -/
theorem mapM {build : Pair Rule → Except CompileError α} {within : σ → Prop} {meaning : σ → α}
    {parts : List σ} {pairs : List (Pair Rule)}
    (each : List.Forall₂ (fun part pair => Outcome (within part) (meaning part) (build pair)) parts pairs) :
    Outcome (∀ part ∈ parts, within part) (parts.map meaning) (pairs.mapM build) := by
  induction each with
  | nil => exact .built nofun
  | cons outcome _ ih =>
    rw [List.mapM_cons, List.map_cons]
    refine (outcome.bind (ih.returns _)).of_iff ?_
    rw [List.forall_mem_cons]

end Outcome

/-- A rule, the builder of its pairs and the part of the syntax that it reads. -/
structure Construct (σ α : Type) where
  rule : Rule
  build : Pair Rule → Except CompileError α
  tokens : σ → List (List Char)
  inRange : σ → Prop
  value : σ → α
  convert : σ → σ

namespace Construct

variable {σ α : Type} (construct : Construct σ α)

/-- The inside of the rule's pair. -/
def body : Phrase Rule σ where
  tokens := construct.tokens
  shape part text inner := Outcome (construct.inRange part) (construct.value part)
    (construct.build (.mk construct.rule text inner))
  convert := construct.convert

/-- One pair of the rule. -/
def pair : Phrase Rule σ where
  tokens := construct.tokens
  shape part _ pairs := ∃ pair, pairs = [pair] ∧ pair.rule = construct.rule ∧
    Outcome (construct.inRange part) (construct.value part) (construct.build pair)
  convert := construct.convert

theorem simulates {blank : Blank} {aligned : List Char → List Char → Prop} {e : Peg.Expr Rule}
    (sim : Simulates blank aligned construct.body e) :
    Simulates blank aligned construct.pair (node construct.rule e) := by
  refine (sim.node construct.rule).map id (fun _ => rfl) (fun _ => rfl) ?_
  rintro part text pairs ⟨inner, same, outcome⟩
  exact ⟨_, same, rfl, outcome⟩

variable {construct}

/-- The pairs of a list of parts, each of which its builder takes. -/
theorem forall_of_shapes {parts : List σ} {pairs : List (Pair Rule)}
    (shapes : construct.pair.Shapes parts pairs) :
    (∀ pair ∈ pairs, pair.rule = construct.rule) ∧
      List.Forall₂ (fun part pair => Outcome (construct.inRange part) (construct.value part)
        (construct.build pair)) parts pairs := by
  induction parts generalizing pairs with
  | nil =>
    cases shapes
    exact ⟨nofun, .nil⟩
  | cons part parts ih =>
    obtain ⟨_, right, _, rfl, ⟨pair, rfl, isRule, outcome⟩, later⟩ := shapes
    obtain ⟨rules, outcomes⟩ := ih later
    exact ⟨List.forall_mem_cons.mpr ⟨isRule, rules⟩, .cons outcome outcomes⟩

/-- The builders of a list pick the pairs of the rule, which are all of them. -/
theorem outcome_of_shapes {parts : List σ} {pairs : List (Pair Rule)}
    (shapes : construct.pair.Shapes parts pairs) :
    Outcome (∀ part ∈ parts, construct.inRange part) (parts.map construct.value)
      ((pairs.filter fun pair => pair.rule == construct.rule).mapM construct.build) := by
  obtain ⟨rules, outcomes⟩ := forall_of_shapes shapes
  have all : pairs.filter (fun pair => pair.rule == construct.rule) = pairs :=
    List.filter_eq_self.mpr fun pair member => beq_iff_eq.mpr (rules pair member)
  rw [all]
  exact .mapM outcomes

end Construct

/-! ## Numbers and strings -/

theorem stripQuotes_text (quoted : Quoted) : stripQuotes quoted.text = quoted.body :=
  Text.trimMatches_delimited rfl rfl fun c member => beq_eq_false_iff_ne.mpr (quoted.noQuote c member)

theorem Digits.isDigit (digits : Digits) : ∀ c ∈ digits.text, c.isDigit = true :=
  List.forall_mem_cons.mpr ⟨digits.head_ok, digits.tail_ok⟩

theorem Digits.parseUnsigned_text (digits : Digits) {bound : Nat} (positive : 0 < bound) :
    Text.parseUnsigned bound digits.text =
      if Digits.value digits < bound then .ok (Digits.value digits)
      else .error "number too large to fit in target type" :=
  Text.parseUnsigned_eq positive (List.cons_ne_nil _ _) (Digits.isDigit digits)

theorem parseI64_text (negative : Bool) (digits : Digits) :
    Outcome (LiteralValueSyntax.integer negative digits).inRange (LiteralValueSyntax.integer negative digits).value
      (((parseI64 (signText negative ++ digits.text)).map Literal.integer).mapError fun error =>
        .parse s!"invalid integer literal: {error}") := by
  cases negative with
  | true =>
    have read : parseI64 (signText true ++ digits.text) =
        if Digits.value digits < 2 ^ 63 + 1 then .ok (Int64.ofInt (-(Digits.value digits : Int)))
        else .error "number too small to fit in target type" := by
      simp only [signText, if_true, List.cons_append, List.nil_append, parseI64]
      rw [Digits.parseUnsigned_text digits (by omega)]
      by_cases fits : Digits.value digits < 2 ^ 63 + 1
      · rw [if_pos fits, if_pos fits]
      · rw [if_neg fits, if_neg fits]
        rfl
    have range : (LiteralValueSyntax.integer true digits).inRange ↔ Digits.value digits < 2 ^ 63 + 1 := by
      simp only [LiteralValueSyntax.inRange, signedValue, if_true]
      omega
    rw [read]
    by_cases fits : Digits.value digits < 2 ^ 63 + 1
    · rw [if_pos fits]
      exact .built (range.mpr fits)
    · rw [if_neg fits]
      exact .outOfRange (fun within => fits (range.mp within)) .smallInteger
  | false =>
    have read : parseI64 (signText false ++ digits.text) =
        (Text.parseUnsigned (2 ^ 63) digits.text).map fun n => Int64.ofNat n := by
      have unsigned : digits.head ≠ '-' := by
        intro minus
        have digit := digits.head_ok
        rw [minus] at digit
        cases digit
      show parseI64 (digits.head :: digits.tail) = _
      unfold parseI64
      split
      · rename_i same
        exact absurd (List.cons.inj same).1 unsigned
      · rfl
    have range : (LiteralValueSyntax.integer false digits).inRange ↔ Digits.value digits < 2 ^ 63 := by
      simp only [LiteralValueSyntax.inRange, signedValue, Bool.false_eq_true, if_false]
      omega
    rw [read, Digits.parseUnsigned_text digits (by omega)]
    by_cases fits : Digits.value digits < 2 ^ 63
    · rw [if_pos fits]
      exact .built (range.mpr fits)
    · rw [if_neg fits]
      exact .outOfRange (fun within => fits (range.mp within)) .largeInteger

theorem parseF64_text (negative : Bool) (whole fraction : Digits) :
    parseF64 (signText negative ++ (whole.text ++ ('.' :: fraction.text))) =
      .ok (FloatValue.round .binary64 negative
        (Text.digitsValue (whole.text ++ fraction.text) 0 / 10 ^ fraction.text.length)) := by
  have point : ∀ digits : Digits, '.' ∉ digits.text := by
    intro digits member
    cases Digits.isDigit digits _ member
  have parts : Text.splitOn '.' (whole.text ++ '.' :: fraction.text) = [whole.text, fraction.text] := by
    rw [Text.splitOn_append (point whole), Text.splitOn_of_notMem (point fraction)]
  have digits : whole.text ≠ [] ∧ fraction.text ≠ [] ∧ whole.text.all Char.isDigit ∧
      fraction.text.all Char.isDigit :=
    ⟨List.cons_ne_nil _ _, List.cons_ne_nil _ _, List.all_eq_true.mpr (Digits.isDigit whole),
      List.all_eq_true.mpr (Digits.isDigit fraction)⟩
  have unsigned : whole.head ≠ '-' := by
    intro minus
    have digit := whole.head_ok
    rw [minus] at digit
    cases digit
  unfold parseF64
  cases negative with
  | true =>
    simp only [signText, if_true, List.cons_append, List.nil_append, parts, if_pos digits]
  | false =>
    have starts : whole.text ++ '.' :: fraction.text =
        whole.head :: (whole.tail ++ '.' :: fraction.text) := rfl
    rw [starts] at parts
    simp only [signText, Bool.false_eq_true, if_false, List.nil_append, starts, List.cons.injEq, unsigned,
      false_and, imp_self, implies_true, parts, if_pos digits]

namespace Grammar

variable {ending : LineEnding}

/-! ## Literals -/

/-- The two replacements of the builder together leave no line end but the line feed. -/
theorem normalizeStringLiteralNewlines_eq (text : List Char) :
    normalizeStringLiteralNewlines text = LineEnding.unify text := by
  induction text using LineEnding.unify.induct with
  | case1 text ih =>
    rw [LineEnding.unify, ← ih]
    rfl
  | case2 text notLf ih =>
    rw [normalizeStringLiteralNewlines] at ih
    rw [LineEnding.unify, normalizeStringLiteralNewlines, replaceCrLf, List.map_cons, ih]
    · rfl
    · intro rest _ same
      exact notLf rest same
    · exact notLf
  | case3 c text other notReturn ih =>
    rw [normalizeStringLiteralNewlines] at ih
    rw [LineEnding.unify_cons notReturn, normalizeStringLiteralNewlines, replaceCrLf, List.map_cons, ih,
      if_neg notReturn]
    rintro _ rfl
    exact absurd rfl notReturn
  | case4 => rfl

theorem parseLiteral_string (text outer : List Char) :
    parseLiteral (.mk .literal outer [.mk .stringLiteral text []]) =
      .ok (.string (String.ofList (LineEnding.unify (stripQuotes text)))) := by
  rw [← normalizeStringLiteralNewlines_eq]
  rfl

theorem parseLiteral_float (text outer : List Char) :
    parseLiteral (.mk .literal outer [.mk .floatLiteral text []]) =
      ((parseF64 text).map Literal.float).mapError fun error =>
        .parse s!"invalid float literal: {error}" := rfl

theorem parseLiteral_integer (text outer : List Char) :
    parseLiteral (.mk .literal outer [.mk .integerLiteral text []]) =
      ((parseI64 text).map Literal.integer).mapError fun error =>
        .parse s!"invalid integer literal: {error}" := rfl

abbrev literalConstruct (ending : LineEnding) : Construct LiteralValueSyntax Literal where
  rule := .literal
  build := parseLiteral
  tokens literal := [literal.text]
  inRange := LiteralValueSyntax.inRange
  value := LiteralValueSyntax.value
  convert := LiteralValueSyntax.convert ending

theorem literal_simulates :
    Simulates blanks ending.Aligned (literalConstruct ending).pair literal := by
  have string : Simulates blanks ending.Aligned (literalConstruct ending).body stringLiteral := by
    refine stringLiteral_simulates.map LiteralValueSyntax.string (fun _ => rfl) (fun _ => rfl) ?_
    rintro text _ _ ⟨_, pair, spell, silent⟩
    subst pair spell silent
    show Outcome True _ (parseLiteral (.mk .literal _ _))
    rw [parseLiteral_string, stripQuotes_text]
    exact .built trivial
  have float : Simulates blanks ending.Aligned (literalConstruct ending).body floatLiteral := by
    refine floatLiteral_simulates.map (fun parts => .float parts.1 parts.2.1 parts.2.2)
      (fun _ => rfl) (fun _ => rfl) ?_
    rintro ⟨negative, whole, fraction⟩ _ _ ⟨_, pair, spell, silent⟩
    subst pair spell silent
    show Outcome True _ (parseLiteral (.mk .literal _ _))
    rw [parseLiteral_float, parseF64_text]
    exact .built trivial
  have integer : Simulates blanks ending.Aligned (literalConstruct ending).body integerLiteral := by
    refine integerLiteral_simulates.map (fun parts => .integer parts.1 parts.2)
      (fun _ => rfl) (fun _ => rfl) ?_
    rintro ⟨negative, digits⟩ _ _ ⟨_, pair, spell, silent⟩
    subst pair spell silent
    show Outcome _ _ (parseLiteral (.mk .literal _ _))
    rw [parseLiteral_integer]
    exact parseI64_text negative digits
  have bool : Simulates blanks ending.Aligned (literalConstruct ending).body boolLiteral := by
    refine boolLiteral_simulates.map LiteralValueSyntax.bool (fun _ => rfl) (fun _ => rfl) ?_
    rintro value _ _ ⟨_, pair, spell, _⟩
    subst pair spell
    cases value <;> exact .built trivial
  refine Construct.simulates _ (.oneOf fun e member => ?_)
  simp only [List.mem_cons, List.not_mem_nil, or_false] at member
  obtain rfl | rfl | rfl | rfl := member
  · exact string
  · exact float
  · exact integer
  · exact bool

/-! ## Dimensions and element types -/

theorem trim_eq_self {text : List Char} (visible : ∀ c ∈ text, c.isAlphanum = true ∨ c = '_') :
    Text.trim text = text := by
  refine Text.trimMatches_eq_self fun c member => ?_
  obtain alphanum | rfl := visible c member
  · exact Text.isWhitespace_of_isAlphanum alphanum
  · decide

/-- A word that does not start like it is not the mark of an anonymous dimension. -/
theorem unmarked {first later : Char → Bool} (word : Word first later) (other : first '_' = false)
    (visible : ∀ c ∈ word.text, c.isAlphanum = true ∨ c = '_') :
    String.ofList (Text.trim word.text) ≠ "_" := by
  intro same
  rw [trim_eq_self visible] at same
  have head := (List.cons.inj (String.ofList_injective same)).1
  have holds := word.head_ok
  rw [head, other] at holds
  cases holds

theorem digits_unmarked (digits : Digits) : String.ofList (Text.trim digits.text) ≠ "_" :=
  Grammar.unmarked digits rfl fun c member => .inl (by simp [Char.isAlphanum, Digits.isDigit digits c member])

theorem name_unmarked (name : Name) : String.ofList (Text.trim name.text) ≠ "_" := by
  refine Grammar.unmarked name rfl fun c member => ?_
  cases member with
  | head => exact .inl (by simp [Char.isAlphanum, name.head_ok])
  | tail _ member => simpa using name.tail_ok c member

theorem parseDimension_integer {text : List Char} (unmarked : String.ofList (Text.trim text) ≠ "_") :
    parseDimension (.mk .dimension text [.mk .integer text []]) =
      ((Text.parseUnsigned (2 ^ 64) text).map (fun n => Dimension.fixed (UInt64.ofNat n))).mapError
        fun error => .parse s!"invalid dimension integer: {error}" := by
  rw [parseDimension]
  exact if_neg unmarked

theorem parseDimension_ident {text : List Char} (unmarked : String.ofList (Text.trim text) ≠ "_") :
    parseDimension (.mk .dimension text [.mk .ident text []]) =
      .ok (.dynamic (some (String.ofList text))) := by
  rw [parseDimension]
  exact if_neg unmarked

abbrev dimensionConstruct : Construct DimensionSyntax Dimension where
  rule := .dimension
  build := parseDimension
  tokens dim := [dim.text]
  inRange := DimensionSyntax.inRange
  value := DimensionSyntax.value
  convert := id

theorem dimension_simulates : Simulates blanks ending.Aligned dimensionConstruct.pair dimension := by
  have size : Simulates blanks ending.Aligned dimensionConstruct.body integer := by
    refine integer_simulates.map DimensionSyntax.size (fun _ => rfl) (fun _ => rfl) ?_
    rintro digits _ _ ⟨_, pair, spell, silent⟩
    subst pair spell silent
    simp only [Construct.body]
    rw [parseDimension_integer (digits_unmarked digits), Digits.parseUnsigned_text digits (by omega)]
    by_cases fits : Digits.value digits < 2 ^ 64
    · rw [if_pos fits]
      exact .built fits
    · rw [if_neg fits]
      exact .outOfRange fits .dimension
  have anonymous : Simulates blanks ending.Aligned dimensionConstruct.body (lit "_") := by
    refine (lit_keyword (by decide)).map (fun _ => DimensionSyntax.anonymous)
      (fun _ => rfl) (fun _ => rfl) ?_
    rintro _ _ _ ⟨spell, silent⟩
    subst spell silent
    exact .built trivial
  have named : Simulates blanks ending.Aligned dimensionConstruct.body ident := by
    refine ident_simulates.map DimensionSyntax.named (fun _ => rfl) (fun _ => rfl) ?_
    rintro name _ _ ⟨_, pair, spell, silent⟩
    subst pair spell silent
    simp only [Construct.body]
    rw [parseDimension_ident (name_unmarked name)]
    exact .built trivial
  refine Construct.simulates _ (.oneOf fun e member => ?_)
  simp only [List.mem_cons, List.not_mem_nil, or_false] at member
  obtain rfl | rfl | rfl := member
  · exact size
  · exact anonymous
  · exact named

abbrev dtypeConstruct : Construct TensorElementType TensorElementType where
  rule := .tensorDtype
  build := parseTensorDtype
  tokens dtype := [dtype.asStr.toList]
  inRange _ := True
  value := id
  convert := id

theorem tensorDtype_simulates : Simulates blanks ending.Aligned dtypeConstruct.pair tensorDtype := by
  have each (dtype : TensorElementType) :
      Simulates blanks ending.Aligned dtypeConstruct.body (lit dtype.asStr) := by
    refine (lit_keyword (by cases dtype <;> decide)).map (fun _ => dtype) (fun _ => rfl) (fun _ => rfl) ?_
    rintro _ _ _ ⟨spell, silent⟩
    subst spell silent
    cases dtype <;> exact .built trivial
  exact Construct.simulates _ (.orElse (each .f32) (.orElse (each .f64) (.orElse (each .i8)
    (.orElse (each .i16) (.orElse (each .i32) (.orElse (each .i64) (.orElse (each .u8)
      (.orElse (each .bool) fun _ _ _ => .inl ⟨rfl, rfl⟩))))))))

/-! ## Types -/

section Parts

variable {σ τ : Type} {phrase : Phrase Rule σ} {phrase' : Phrase Rule τ} {e e' : Peg.Expr Rule}
  {es : List (Peg.Expr Rule)}

theorem spaced_cons (first : Simulates blanks ending.Aligned phrase e)
    (rest : Simulates blanks ending.Aligned phrase' (spaced (e' :: es))) :
    Simulates blanks ending.Aligned (phrase.followedBy phrase') (spaced (e :: e' :: es)) :=
  skip_simulates.sequence_cons first rest

theorem spaced_word (word : String)
    (plain : word.toList ≠ [] ∧ '\n' ∉ word.toList ∧ '\r' ∉ word.toList)
    (rest : Simulates blanks ending.Aligned phrase (spaced (e' :: es))) :
    Simulates blanks ending.Aligned (phrase.behind word.toList) (spaced (lit word :: e' :: es)) :=
  skip_simulates.sequence_behind (lit_keyword plain) rest

theorem spaced_last (word : String)
    (plain : word.toList ≠ [] ∧ '\n' ∉ word.toList ∧ '\r' ∉ word.toList)
    (sim : Simulates blanks ending.Aligned phrase e) :
    Simulates blanks ending.Aligned (phrase.endedBy word.toList) (spaced [e, lit word]) :=
  skip_simulates.sequence_endedBy sim (lit_keyword plain)

end Parts

abbrev dimListConstruct : Construct (DimensionSyntax × List DimensionSyntax) (List Dimension) where
  rule := .dimList
  build := parseDimList
  tokens dims := dims.1.text :: dims.2.flatMap fun dim => [",".toList, dim.text]
  inRange dims := ∀ dim ∈ dims.1 :: dims.2, dim.inRange
  value dims := (dims.1 :: dims.2).map DimensionSyntax.value
  convert := id

theorem dimList_simulates : Simulates blanks ending.Aligned dimListConstruct.pair dimList := by
  have further : Simulates blanks ending.Aligned (dimensionConstruct.pair.behind ",".toList)
      (spaced [lit ",", dimension]) := spaced_word "," (by decide) dimension_simulates
  have parts := @spaced_cons _ _ _ _ _ _ _ [] dimension_simulates
    (Simulates.many skip_simulates further (fun _ => ⟨_, _, rfl, by decide⟩) aligned_total)
  refine Construct.simulates dimListConstruct
    (parts.map id (fun _ => rfl) (fun dims => ?_) ?_)
  · show dims = (id dims.1, dims.2.map id)
    rw [List.map_id]
    rfl
  · rintro ⟨first, others⟩ _ _ ⟨_, _, left, right, split, shape, shapes⟩
    -- the first dimension and the others are one list for the builder
    have all : dimensionConstruct.pair.Shapes (first :: others) (left ++ right) :=
      ⟨left, right, _, rfl, shape, shapes.imp fun _ _ _ shape => shape⟩
    subst split
    exact Construct.outcome_of_shapes all

/-- One of the rules that a type with parameters has. -/
abbrev compoundConstruct {σ : Type} (rule : Rule) (make : σ → TypeSyntax) : Construct σ LaicType where
  rule := rule
  build := parseCompoundType
  tokens parts := (make parts).tokens
  inRange parts := (make parts).inRange
  value parts := (make parts).value
  convert := id

abbrev typeConstruct : Construct TypeSyntax LaicType where
  rule := .laicType
  build := parseLaicType
  tokens := TypeSyntax.tokens
  inRange := TypeSyntax.inRange
  value := TypeSyntax.value
  convert := id

theorem compound_simulates {σ : Type} {rule : Rule} {make : σ → TypeSyntax} {e : Peg.Expr Rule}
    (sim : Simulates blanks ending.Aligned (compoundConstruct rule make).pair e) :
    Simulates blanks ending.Aligned typeConstruct.body e := by
  refine sim.map make (fun _ => rfl) (fun _ => rfl) ?_
  rintro parts text pairs ⟨pair, split, _, outcome⟩
  subst split
  show Outcome _ _ (parseLaicType (.mk .laicType text [pair]))
  rw [parseLaicType]
  exact outcome

theorem tensorType_simulates : Simulates blanks ending.Aligned
    (compoundConstruct .tensorType fun (dtype, first, others) => .tensor dtype first others).pair
    tensorType := by
  have parts := spaced_word "tensor" (by decide) (spaced_word "<" (by decide)
    (spaced_cons tensorDtype_simulates (spaced_word ">" (by decide) (spaced_word "[" (by decide)
      (spaced_last "]" (by decide) (@dimList_simulates ending))))))
  refine Construct.simulates _ (parts.map id ?_ (fun _ => rfl) ?_)
  · rintro ⟨dtype, first, others⟩
    show (TypeSyntax.tensor dtype first others).tokens = _
    simp [TypeSyntax.tokens, Phrase.behind, Phrase.followedBy, Phrase.endedBy, Construct.pair]
  · rintro ⟨dtype, first, others⟩ text pairs ⟨_, _, _, _, left, right, split,
      ⟨dtypePair, isDtype, _, dtypeOutcome⟩, _, _, _, dims, isDims, _, dimsOutcome⟩
    subst split isDtype isDims
    show Outcome _ _ (parseCompoundType (.mk .tensorType text _))
    rw [parseCompoundType]
    exact (dtypeOutcome.bind (dimsOutcome.returns _)).of_iff ⟨And.right, fun fits => ⟨trivial, fits⟩⟩

theorem parseScalarKeyword_keyword {ty : LaicType} (isScalar : ty.isScalar = true) :
    parseScalarKeyword (String.ofList (Text.trim ty.keyword.toList)) = .ok ty := by
  have all : ty.keyword.toList.all Char.isAlphanum = true := by
    cases ty with
    | tensor | list | optional | map => cases isScalar
    | _ => rfl
  have visible : ∀ c ∈ ty.keyword.toList, c.isAlphanum = true ∨ c = '_' :=
    fun c member => .inl (List.all_eq_true.mp all c member)
  rw [trim_eq_self visible, String.ofList_toList]
  cases ty with
  | tensor | list | optional | map => cases isScalar
  | _ => rfl

theorem scalar_simulates (ty : LaicType) (isScalar : ty.isScalar = true) :
    Simulates blanks ending.Aligned typeConstruct.body (lit ty.keyword) := by
  have plain : ty.keyword.toList ≠ [] ∧ '\n' ∉ ty.keyword.toList ∧ '\r' ∉ ty.keyword.toList := by
    cases ty with
    | tensor | list | optional | map => cases isScalar
    | _ => decide
  refine (lit_keyword plain).map (fun _ => TypeSyntax.scalar ty isScalar) (fun _ => rfl) (fun _ => rfl) ?_
  rintro _ _ _ ⟨spell, silent⟩
  subst spell silent
  simp only [Construct.body]
  rw [parseLaicType, parseScalarKeyword_keyword isScalar]
  exact .built trivial

/-- The body of the rule, with the rule itself read by `inner`. -/
theorem laicTypeBody_simulates {inner : Peg.Expr Rule}
    (sim : Simulates blanks ending.Aligned typeConstruct.pair inner) :
    Simulates blanks ending.Aligned typeConstruct.pair (laicTypeBody inner) := by
  have map : Simulates blanks ending.Aligned
      (compoundConstruct .mapType fun (key, value) => .map key value).pair (mapType inner) := by
    have parts := spaced_word "map" (by decide) (spaced_word "<" (by decide) (spaced_cons sim
      (spaced_word "," (by decide) (spaced_last ">" (by decide) sim))))
    refine Construct.simulates _ (parts.map id ?_ (fun _ => rfl) ?_)
    · rintro ⟨key, value⟩
      show (TypeSyntax.map key value).tokens = _
      simp [TypeSyntax.tokens, Phrase.behind, Phrase.followedBy, Phrase.endedBy, Construct.pair]
    · rintro ⟨key, value⟩ text pairs ⟨_, _, _, _, left, right, split, ⟨keyPair, isKey, _, keyOutcome⟩,
        _, _, valuePair, isValue, _, valueOutcome⟩
      subst split isKey isValue
      show Outcome _ _ (parseCompoundType (.mk .mapType text _))
      rw [parseCompoundType]
      exact keyOutcome.bind (valueOutcome.returns _)
  have list : Simulates blanks ending.Aligned (compoundConstruct .listType .list).pair
      (listType inner) := by
    have parts := spaced_word "list" (by decide) (spaced_word "<" (by decide)
      (spaced_last ">" (by decide) sim))
    refine Construct.simulates _ (parts.map id (fun _ => rfl) (fun _ => rfl) ?_)
    rintro element text pairs ⟨_, _, _, pair, isPair, _, outcome⟩
    subst isPair
    show Outcome _ _ (parseCompoundType (.mk .listType text _))
    rw [parseCompoundType]
    exact outcome.returns _
  have optional : Simulates blanks ending.Aligned (compoundConstruct .optionalType .optional).pair
      (optionalType inner) := by
    have parts := spaced_word "optional" (by decide) (spaced_word "<" (by decide)
      (spaced_last ">" (by decide) sim))
    refine Construct.simulates _ (parts.map id (fun _ => rfl) (fun _ => rfl) ?_)
    rintro element text pairs ⟨_, _, _, pair, isPair, _, outcome⟩
    subst isPair
    show Outcome _ _ (parseCompoundType (.mk .optionalType text _))
    rw [parseCompoundType]
    exact outcome.returns _
  have noScalar : Simulates blanks ending.Aligned typeConstruct.body (oneOf []) :=
    fun _ _ _ => .inl ⟨rfl, rfl⟩
  have scalars := (@scalar_simulates ending .string rfl).orElse
    ((scalar_simulates .bytes rfl).orElse ((scalar_simulates .bool rfl).orElse
      ((scalar_simulates .i8 rfl).orElse ((scalar_simulates .i16 rfl).orElse
        ((scalar_simulates .i32 rfl).orElse ((scalar_simulates .i64 rfl).orElse
          ((scalar_simulates .u8 rfl).orElse ((scalar_simulates .f32 rfl).orElse
            ((scalar_simulates .f64 rfl).orElse noScalar)))))))))
  exact Construct.simulates typeConstruct ((compound_simulates map).orElse
    ((compound_simulates list).orElse ((compound_simulates optional).orElse
      ((compound_simulates tensorType_simulates).orElse scalars))))

theorem laicType_simulates : Simulates blanks ending.Aligned typeConstruct.pair laicType := by
  refine Simulates.of_agree (fun depth => ?_) laicType_agree
  induction depth with
  | zero => exact fun _ _ _ => .inl ⟨rfl, rfl⟩
  | succ depth ih => exact laicTypeBody_simulates ih

end Grammar

end Laic
