import Laic.Codegen.Inspect
import Laic.Idl.Declarations
import Laic.Lib.PegPrinting

/-! # Printed types

The text that the inspection prints for a type is one that the grammar reads, and it is read as the type that
was printed. -/

namespace Laic

open Peg

namespace Grammar

/-! ## Blanks of the printer -/

theorem star_of_none {e : Peg.Expr Rule} {input : List Char} (fails : e input = none) :
    Peg.star e input = some ([], input) := by
  unfold Peg.star
  cases length : input.length with
  | zero => rfl
  | succ fuel => simp only [repeatUpTo, fails]

/-- In front of something visible, `skip` takes the blanks that are there. -/
theorem takes_skip {blank : List Char} {c : Char} {rest : List Char} (isBlanks : ∀ d ∈ blank, isBlank d = true)
    (visible : isBlank c = false ∧ c ≠ '/') : Takes skip blank [] (c :: rest) := by
  have spaces : Takes (Peg.star whitespace) blank [] (c :: rest) := by
    show Peg.star whitespace (blank ++ c :: rest) = _
    rw [whitespace_eq, star_satisfy, List.dropWhile_append_of_pos isBlanks, List.dropWhile_cons_of_neg]
    rw [visible.1]
    decide
  have comments : Takes (Peg.star (concat [comment, Peg.star whitespace])) [] [] (c :: rest) := by
    refine star_of_none ?_
    have slashes : dropWord "//".toList (c :: rest) = none := by
      show (if '/' = c then _ else none) = none
      rw [if_neg (Ne.symm visible.2)]
    show seq comment (Peg.star whitespace) (c :: rest) = none
    simp only [seq, comment_eq, slashes, Option.map_none]
  have both := spaces.seq comments
  rwa [List.append_nil] at both

/-- The text starts with something that is not skipped. -/
def Visible (text : List Char) : Prop := ∃ c rest, text = c :: rest ∧ isBlank c = false ∧ c ≠ '/'

theorem Visible.append {text : List Char} (visible : Visible text) (rest : List Char) :
    Visible (text ++ rest) := by
  obtain ⟨c, behind, rfl, notBlank⟩ := visible
  exact ⟨c, behind ++ rest, rfl, notBlank⟩

theorem visible_of_isAlphanum {c : Char} (alphanum : c.isAlphanum = true) (rest : List Char) :
    Visible (c :: rest) := by
  refine ⟨c, rest, rfl, ?_, ?_⟩
  · cases blank : isBlank c with
    | false => rfl
    | true =>
      simp only [isBlank, Bool.or_eq_true, beq_iff_eq] at blank
      obtain ((rfl | rfl) | rfl) | rfl := blank <;> cases alphanum
  · rintro rfl
    cases alphanum

/-- One part and the other parts, with nothing printed between them. -/
theorem takes_next {e e' : Peg.Expr Rule} {es : List (Peg.Expr Rule)} {text text' rest : List Char}
    {pairs pairs' : List (Pair Rule)} (first : Takes e text pairs (text' ++ rest)) (visible : Visible text')
    (others : Takes (spaced (e' :: es)) text' pairs' rest) :
    Takes (spaced (e :: e' :: es)) (text ++ text') (pairs ++ pairs') rest := by
  obtain ⟨c, behind, rfl, notBlank⟩ := visible
  have still : Takes skip [] [] (c :: behind ++ rest) := takes_skip nofun notBlank
  exact Takes.sequence_cons first still others

/-- Two parts, with nothing printed between them. -/
theorem takes_last {e e' : Peg.Expr Rule} {text text' rest : List Char} {pairs pairs' : List (Pair Rule)}
    (first : Takes e text pairs (text' ++ rest)) (visible : Visible text')
    (last : Takes e' text' pairs' rest) :
    Takes (spaced [e, e']) (text ++ text') (pairs ++ pairs') rest := by
  have others : Takes (spaced [e']) text' pairs' rest := last
  exact takes_next first visible others

/-! ## Dimensions -/

def dimensionText : Dimension → List Char
  | .fixed size => Text.decimal size.toNat
  | .dynamic none => ['_']
  | .dynamic (some name) => name.toList

/-- The pair of a printed dimension. -/
def dimensionPair (dim : Dimension) : Pair Rule :=
  .mk .dimension (dimensionText dim) (match dim with
    | .fixed size => [.mk .integer (Text.decimal size.toNat) []]
    | .dynamic none => []
    | .dynamic (some name) => [.mk .ident name.toList []])

theorem exists_digits (n : Nat) : ∃ digits : Digits, digits.text = Text.decimal n := by
  have all : ∀ c ∈ Text.decimal n, c.isDigit = true := fun c member => Text.isDigit_of_mem_decimal member
  cases digits : Text.decimal n with
  | nil => exact absurd digits (Text.decimal_ne_nil n)
  | cons c rest =>
    rw [digits] at all
    exact ⟨⟨c, rest, all c List.mem_cons_self, fun d member => all d (List.mem_cons_of_mem c member)⟩, rfl⟩

theorem parseDimension_pair (dim : DimensionSyntax) :
    parseDimension (dimensionPair dim.value) = .ok dim.value := by
  cases dim with
  | size digits =>
    have fits := (UInt64.ofNat (Digits.value digits)).toNat_lt
    obtain ⟨decimal, spelled⟩ := exists_digits (UInt64.ofNat (Digits.value digits)).toNat
    have unmarked := digits_unmarked decimal
    rw [spelled] at unmarked
    show parseDimension (.mk .dimension (Text.decimal _) [.mk .integer (Text.decimal _) []]) = _
    rw [parseDimension_integer unmarked, Text.parseUnsigned_decimal fits]
    show Except.ok (Dimension.fixed (UInt64.ofNat (UInt64.ofNat (Digits.value digits)).toNat)) = _
    rw [UInt64.ofNat_toNat]
    rfl
  | anonymous => rfl
  | named name =>
    show parseDimension (.mk .dimension (String.ofList name.text).toList
      [.mk .ident (String.ofList name.text).toList []]) = _
    rw [String.toList_ofList, parseDimension_ident (name_unmarked name)]
    rfl

/-- A printed dimension stands in front of a comma or a bracket. -/
theorem takes_dimension (dim : DimensionSyntax) {c : Char} (rest : List Char) (stops : c = ',' ∨ c = ']') :
    Takes dimension (dimensionText dim.value) [dimensionPair dim.value] (c :: rest) := by
  have noDigit : Char.isDigit c = false := by obtain rfl | rfl := stops <;> rfl
  have noLetter : (c.isAlphanum || c == '_') = false := by obtain rfl | rfl := stops <;> rfl
  refine Takes.node ?_ Rule.dimension
  cases dim with
  | size digits =>
    obtain ⟨decimal, spelled⟩ := exists_digits (UInt64.ofNat (Digits.value digits)).toNat
    have scanned : Takes asciiDigits decimal.text [] (c :: rest) :=
      decimal.scan_append fun d head => by cases head; exact noDigit
    rw [spelled] at scanned
    exact (scanned.node Rule.integer).orElse_left
  | anonymous => exact Takes.orElse_right rfl (Takes.lit "_" _).orElse_left
  | named name =>
    have word : Takes (Word.scan Char.isAlpha (fun c => c.isAlphanum || c == '_') : Peg.Expr Rule) name.text []
        (c :: rest) := name.scan_append fun d head => by cases head; exact noLetter
    have scanned : Takes ident name.text [.mk .ident name.text []] (c :: rest) :=
      word.node Rule.ident
    -- a letter starts neither a number nor the mark of an anonymous dimension
    have noHead : name.head.isDigit = false := Text.isDigit_of_isAlpha name.head_ok
    have starts : name.text ++ c :: rest = name.head :: (name.tail ++ c :: rest) := rfl
    have noInteger : integer (name.text ++ c :: rest) = none := by
      simp only [starts, integer, asciiDigits, asciiDigit, concat, node, seq, satisfy, noHead,
        Bool.false_eq_true, if_false]
    have noMark : (lit "_" : Peg.Expr Rule) (name.text ++ c :: rest) = none := by
      have other : '_' ≠ name.head := by
        intro same
        have letter := name.head_ok
        rw [← same] at letter
        cases letter
      have differs : dropWord "_".toList (name.head :: (name.tail ++ c :: rest)) = none := if_neg other
      simp only [lit, Word.text, List.cons_append, differs]
    show Takes _ (String.ofList name.text).toList [Pair.mk Rule.ident (String.ofList name.text).toList []] _
    rw [String.toList_ofList]
    exact Takes.orElse_right noInteger (Takes.orElse_right noMark scanned.orElse_left)

theorem dimensionText_visible (dim : DimensionSyntax) : Visible (dimensionText dim.value) := by
  cases dim with
  | size digits =>
    obtain ⟨decimal, spelled⟩ := exists_digits (UInt64.ofNat (Digits.value digits)).toNat
    show Visible (Text.decimal _)
    rw [← spelled]
    have digit : decimal.head.isDigit = true := decimal.head_ok
    exact visible_of_isAlphanum (by simp [Char.isAlphanum, digit]) _
  | anonymous => exact ⟨_, _, rfl, by decide⟩
  | named name =>
    show Visible (String.ofList name.text).toList
    rw [String.toList_ofList]
    have letter : name.head.isAlpha = true := name.head_ok
    exact visible_of_isAlphanum (by simp [Char.isAlphanum, letter]) _

/-- The dimensions between the brackets. -/
def dimensionsText (first : DimensionSyntax) (others : List DimensionSyntax) : List Char :=
  dimensionText first.value ++ others.flatMap fun dim => ",".toList ++ dimensionText dim.value

def dimListPair (first : DimensionSyntax) (others : List DimensionSyntax) : Pair Rule :=
  .mk .dimList (dimensionsText first others) ((first :: others).map fun dim => dimensionPair dim.value)

theorem takes_dimList (first : DimensionSyntax) (others : List DimensionSyntax) (rest : List Char) :
    Takes dimList (dimensionsText first others) [dimListPair first others] (']' :: rest) := by
  -- what follows a dimension is another one, or the bracket
  have follows : ∀ later : List DimensionSyntax, ∃ c behind, (c = ',' ∨ c = ']') ∧
      (later.flatMap fun dim => ",".toList ++ dimensionText dim.value) ++ ']' :: rest = c :: behind := by
    intro later
    cases later with
    | nil => exact ⟨']', rest, .inr rfl, rfl⟩
    | cons dim later => exact ⟨',', _, .inl rfl, rfl⟩
  have taken : ∀ (dim : DimensionSyntax) (later : List DimensionSyntax), Takes dimension
      (dimensionText dim.value) [dimensionPair dim.value]
      ((later.flatMap fun dim => ",".toList ++ dimensionText dim.value) ++ ']' :: rest) := by
    intro dim later
    obtain ⟨c, behind, stops, same⟩ := follows later
    rw [same]
    exact takes_dimension dim behind stops
  have still : ∀ later : List DimensionSyntax, Takes skip [] []
      ((later.flatMap fun dim => ",".toList ++ dimensionText dim.value) ++ ']' :: rest) := by
    intro later
    obtain ⟨c, behind, stops, same⟩ := follows later
    rw [same]
    obtain rfl | rfl := stops
    · exact takes_skip nofun (by decide)
    · exact takes_skip nofun (by decide)
  have further : Takes (many skip (spaced [lit ",", dimension]))
      (others.flatMap fun dim => ",".toList ++ dimensionText dim.value)
      (others.flatMap fun dim => [dimensionPair dim.value]) (']' :: rest) := by
    refine Takes.many still (fun dim _ later => ?_) (fun dim => List.cons_ne_nil _ _) rfl
    exact takes_last (Takes.lit "," _) (dimensionText_visible dim) (taken dim later)
  have all : Takes (spaced [dimension, many skip (spaced [lit ",", dimension])]) (dimensionsText first others)
      ([dimensionPair first.value] ++ others.flatMap fun dim => [dimensionPair dim.value]) (']' :: rest) :=
    @Takes.sequence_cons _ _ _ _ _ _ _ _ _ [] [] (taken first others) (still others) further
  have pairs : (others.flatMap fun dim => [dimensionPair dim.value]) =
      others.map fun dim => dimensionPair dim.value := by
    rw [← List.map_eq_flatMap]
  rw [pairs] at all
  exact all.node Rule.dimList

theorem parseDimList_pair (first : DimensionSyntax) (others : List DimensionSyntax) :
    parseDimList (dimListPair first others) = .ok ((first :: others).map DimensionSyntax.value) := by
  have built : ∀ dims : List DimensionSyntax,
      (dims.map fun dim => dimensionPair dim.value).mapM parseDimension =
        .ok (dims.map DimensionSyntax.value) := by
    intro dims
    induction dims with
    | nil => rfl
    | cons dim dims ih =>
      rw [List.map_cons, List.mapM_cons, parseDimension_pair, ih]
      rfl
  have all : (((first :: others).map fun dim => dimensionPair dim.value).filter
      fun dim => dim.rule == .dimension) = (first :: others).map fun dim => dimensionPair dim.value := by
    refine List.filter_eq_self.mpr fun pair member => ?_
    obtain ⟨dim, -, rfl⟩ := List.mem_map.mp member
    rfl
  show (List.filter _ _).mapM parseDimension = _
  rw [← built]
  exact congrArg (List.mapM parseDimension) all

/-! ## Types -/

/-- The text of a type, part by part. -/
def typeText : TypeSyntax → List Char
  | .scalar ty _ => ty.keyword.toList
  | .tensor dtype first others =>
    "tensor".toList ++ ("<".toList ++ (dtype.asStr.toList ++ (">".toList ++
      ("[".toList ++ (dimensionsText first others ++ "]".toList)))))
  | .list inner => "list".toList ++ ("<".toList ++ (typeText inner ++ ">".toList))
  | .optional inner => "optional".toList ++ ("<".toList ++ (typeText inner ++ ">".toList))
  | .map key value =>
    "map".toList ++ ("<".toList ++ (typeText key ++
      (",".toList ++ (" ".toList ++ (typeText value ++ ">".toList)))))

theorem typeText_visible (ty : TypeSyntax) : Visible (typeText ty) := by
  cases ty with
  | scalar ty isScalar =>
    cases ty with
    | tensor | list | optional | map => cases isScalar
    | _ => exact ⟨_, _, rfl, by decide⟩
  | _ => exact ⟨_, _, rfl, by decide⟩

theorem takes_scalar {ty : LaicType} (isScalar : ty.isScalar = true) (inner : Peg.Expr Rule)
    (rest : List Char) : Takes (laicTypeBody inner) ty.keyword.toList
      [.mk .laicType ty.keyword.toList []] rest := by
  refine Takes.node ?_ Rule.laicType
  cases ty with
  | tensor | list | optional | map => cases isScalar
  | _ => rfl

theorem takes_dtype (dtype : TensorElementType) (rest : List Char) :
    Takes tensorDtype dtype.asStr.toList [.mk .tensorDtype dtype.asStr.toList []] rest := by
  refine Takes.node ?_ Rule.tensorDtype
  cases dtype <;> rfl

theorem takes_tensor (dtype : TensorElementType) (first : DimensionSyntax) (others : List DimensionSyntax)
    (rest : List Char) : Takes tensorType (typeText (.tensor dtype first others))
      [.mk .tensorType (typeText (.tensor dtype first others))
        [.mk .tensorDtype dtype.asStr.toList [], dimListPair first others]] rest := by
  have shown : Visible (dimensionsText first others) := (dimensionText_visible first).append _
  have visible : Visible dtype.asStr.toList := by cases dtype <;> exact ⟨_, _, rfl, by decide⟩
  refine Takes.node ?_ Rule.tensorType
  refine takes_next (Takes.lit "tensor" _) ⟨_, _, rfl, by decide⟩ ?_
  refine takes_next (Takes.lit "<" _) (visible.append _) ?_
  refine takes_next (takes_dtype dtype _) ⟨_, _, rfl, by decide⟩ ?_
  refine takes_next (Takes.lit ">" _) ⟨_, _, rfl, by decide⟩ ?_
  refine takes_next (Takes.lit "[" _) (shown.append _) ?_
  exact takes_last (takes_dimList first others rest) ⟨_, _, rfl, by decide⟩ (Takes.lit "]" _)

/-- The printed type is matched to its end and no further, and built again. -/
theorem takes_type (ty : TypeSyntax) (rest : List Char) :
    ∃ pair, Takes laicType (typeText ty) [pair] rest ∧ parseLaicType pair = .ok ty.value := by
  have unroll : ∀ {text rest : List Char} {pairs : List (Pair Rule)},
      Takes (laicTypeBody laicType) text pairs rest → Takes laicType text pairs rest := by
    intro text rest pairs taken
    rwa [laicType_eq]
  induction ty generalizing rest with
  | scalar ty isScalar =>
    refine ⟨_, unroll (takes_scalar isScalar laicType rest), ?_⟩
    rw [parseLaicType]
    exact parseScalarKeyword_keyword isScalar
  | tensor dtype first others =>
    refine ⟨_, unroll (Takes.node (Takes.orElse_right rfl (Takes.orElse_right rfl
      (Takes.orElse_right rfl (takes_tensor dtype first others rest).orElse_left))) Rule.laicType), ?_⟩
    rw [parseLaicType, parseCompoundType]
    have element : parseTensorDtype (.mk .tensorDtype dtype.asStr.toList []) = .ok dtype := by
      cases dtype <;> rfl
    simp only [parseTensorType, Pair.inner, requireNext, Except.ok_bind, element, parseDimList_pair,
      TypeSyntax.value]
  | list inner ih =>
    obtain ⟨pair, taken, built⟩ := ih (">".toList ++ rest)
    have matched : Takes (listType laicType) (typeText (.list inner))
        [.mk .listType (typeText (.list inner)) [pair]] rest := by
      refine Takes.node ?_ Rule.listType
      refine takes_next (Takes.lit "list" _) ⟨_, _, rfl, by decide⟩ ?_
      refine takes_next (Takes.lit "<" _) ((typeText_visible inner).append _) ?_
      exact takes_last taken ⟨_, _, rfl, by decide⟩ (Takes.lit ">" _)
    refine ⟨_, unroll (Takes.node (Takes.orElse_right rfl matched.orElse_left) Rule.laicType), ?_⟩
    rw [parseLaicType, parseCompoundType, parseListType, built]
    rfl
  | optional inner ih =>
    obtain ⟨pair, taken, built⟩ := ih (">".toList ++ rest)
    have matched : Takes (optionalType laicType) (typeText (.optional inner))
        [.mk .optionalType (typeText (.optional inner)) [pair]] rest := by
      refine Takes.node ?_ Rule.optionalType
      refine takes_next (Takes.lit "optional" _) ⟨_, _, rfl, by decide⟩ ?_
      refine takes_next (Takes.lit "<" _) ((typeText_visible inner).append _) ?_
      exact takes_last taken ⟨_, _, rfl, by decide⟩ (Takes.lit ">" _)
    refine ⟨_, unroll (Takes.node (Takes.orElse_right rfl (Takes.orElse_right rfl matched.orElse_left))
      Rule.laicType), ?_⟩
    rw [parseLaicType, parseCompoundType, parseOptionalType, built]
    rfl
  | map key value ihKey ihValue =>
    obtain ⟨keyPair, keyTaken, keyBuilt⟩ :=
      ihKey (",".toList ++ (" ".toList ++ (typeText value ++ ">".toList)) ++ rest)
    obtain ⟨valuePair, valueTaken, valueBuilt⟩ := ihValue (">".toList ++ rest)
    have matched : Takes (mapType laicType) (typeText (.map key value))
        [.mk .mapType (typeText (.map key value)) [keyPair, valuePair]] rest := by
      refine Takes.node ?_ Rule.mapType
      refine takes_next (Takes.lit "map" _) ⟨_, _, rfl, by decide⟩ ?_
      refine takes_next (Takes.lit "<" _) ((typeText_visible key).append _) ?_
      show Takes _ _ ([keyPair] ++ [valuePair]) rest
      refine takes_next keyTaken ⟨_, _, rfl, by decide⟩ ?_
      -- the printer puts a blank behind the comma
      have tail : Takes (spaced [laicType, lit ">"]) (typeText value ++ ">".toList) [valuePair] rest :=
        takes_last valueTaken ⟨_, _, rfl, by decide⟩ (Takes.lit ">" _)
      obtain ⟨c, behind, starts, notBlank⟩ := (typeText_visible value).append ">".toList
      rw [starts] at tail ⊢
      have isBlanks : ∀ d ∈ " ".toList, isBlank d = true := List.all_eq_true.mp rfl
      exact Takes.sequence_cons (Takes.lit "," _) (takes_skip isBlanks notBlank) tail
    refine ⟨_, unroll (Takes.node matched.orElse_left Rule.laicType), ?_⟩
    rw [parseLaicType, parseCompoundType, parseMapType, keyBuilt, Except.ok_bind]
    simp only [valueBuilt, Except.ok_bind, TypeSyntax.value]

end Grammar

/-! ## Printing and reading -/

theorem intercalate_cons (separator part : List Char) (parts : List (List Char)) :
    List.intercalate separator (part :: parts) = part ++ parts.flatMap fun part => separator ++ part := by
  induction parts generalizing part with
  | nil => simp
  | cons next parts ih => simp [List.intercalate_cons_cons, ih]

theorem formatLaicDims_toList (first : DimensionSyntax) (others : List DimensionSyntax) :
    (formatLaicDims ((first :: others).map DimensionSyntax.value)).toList =
      "[".toList ++ (Grammar.dimensionsText first others ++ "]".toList) := by
  simp only [formatLaicDims, String.toList_append, String.toList_intercalate, List.map_cons,
    intercalate_cons, List.flatMap_map, Grammar.dimensionsText, List.append_assoc]
  -- part by part, the texts are those of the dimensions
  refine congrArg ("[".toList ++ ·) (congrArg₂ (· ++ ·) ?_ (congrArg (· ++ "]".toList) ?_))
  · cases first with
    | size digits => exact Text.toString_toList _
    | anonymous => rfl
    | named name => rfl
  · refine List.flatMap_congr fun dim _ => congrArg (",".toList ++ ·) ?_
    cases dim with
    | size digits => exact Text.toString_toList _
    | anonymous => rfl
    | named name => rfl

theorem formatLaicType_toList (ty : TypeSyntax) : (formatLaicType ty.value).toList = Grammar.typeText ty := by
  induction ty with
  | scalar ty isScalar =>
    cases ty with
    | tensor | list | optional | map => cases isScalar
    | _ => rfl
  | tensor dtype first others =>
    have text : formatLaicType (TypeSyntax.tensor dtype first others).value = "tensor<" ++ dtype.asStr ++
        ">" ++ formatLaicDims ((first :: others).map DimensionSyntax.value) := rfl
    rw [text, String.toList_append, String.toList_append, String.toList_append, formatLaicDims_toList,
      List.append_assoc, List.append_assoc]
    rfl
  | list inner ih =>
    have text : formatLaicType (TypeSyntax.list inner).value =
        "list<" ++ formatLaicType inner.value ++ ">" := rfl
    rw [text, String.toList_append, String.toList_append, ih, List.append_assoc]
    rfl
  | optional inner ih =>
    have text : formatLaicType (TypeSyntax.optional inner).value =
        "optional<" ++ formatLaicType inner.value ++ ">" := rfl
    rw [text, String.toList_append, String.toList_append, ih, List.append_assoc]
    rfl
  | map key value ihKey ihValue =>
    have text : formatLaicType (TypeSyntax.map key value).value =
        "map<" ++ formatLaicType key.value ++ ", " ++ formatLaicType value.value ++ ">" := rfl
    rw [text, String.toList_append, String.toList_append, String.toList_append, String.toList_append,
      ihKey, ihValue, List.append_assoc, List.append_assoc, List.append_assoc]
    rfl

/-- The parser makes the type of some text. -/
def LaicType.Parsed (ty : LaicType) : Prop :=
  ∃ input pair rest, Grammar.laicType input = some ([pair], rest) ∧ parseLaicType pair = .ok ty

/-- So is every type that can be written, for its own text. -/
theorem TypeSyntax.parsed (ty : TypeSyntax) : ty.value.Parsed := by
  obtain ⟨pair, taken, built⟩ := Grammar.takes_type ty []
  exact ⟨_, pair, [], taken, built⟩

/-- What is printed for a type that was parsed is matched whole, and parsed as the type. -/
theorem parseLaicType_formatLaicType {ty : LaicType} (parsed : ty.Parsed) :
    ∃ pair, Grammar.laicType (formatLaicType ty).toList = some ([pair], []) ∧
      parseLaicType pair = .ok ty := by
  obtain ⟨input, pair, rest, matched, built⟩ := parsed
  obtain ⟨fails, -⟩ | ⟨syntaxTree, rest', _, run, -⟩ :=
    Grammar.laicType_simulates input input (LineEnding.aligned_lf input)
  · rw [fails] at matched
    cases matched
  · obtain ⟨_, _, _, matched', _, pair', rfl, _, outcome⟩ := run
    rw [matched'] at matched
    cases matched
    -- what was built is the value of the syntax that was read
    have same : ty = syntaxTree.value := by
      have outcome : Outcome syntaxTree.inRange syntaxTree.value (parseLaicType pair) := outcome
      rw [built] at outcome
      cases outcome
      rfl
    subst same
    obtain ⟨pair, taken, built⟩ := Grammar.takes_type syntaxTree []
    unfold Takes at taken
    rw [List.append_nil, ← formatLaicType_toList] at taken
    exact ⟨pair, taken, built⟩

theorem parseLaicType_formatLaicType_tensor :
    ∃ pair, Grammar.laicType (formatLaicType (.list (.tensor .f32 [.fixed 3, .dynamic none]))).toList =
        some ([pair], []) ∧
      parseLaicType pair = .ok (.list (.tensor .f32 [.fixed 3, .dynamic none])) :=
  parseLaicType_formatLaicType
    (TypeSyntax.parsed (.list (.tensor .f32 (.size ⟨'3', [], rfl, nofun⟩) [.anonymous])))

end Laic
