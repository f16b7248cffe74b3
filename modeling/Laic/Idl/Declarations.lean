import Laic.Idl.Reading

/-! # Declarations and the whole file

The rules above the types, up to the file, and what `parse` makes of every source that the grammar
matches. -/

namespace Laic

open Peg LineEnding

namespace Grammar

variable {ending : LineEnding}

/-! ## Fields and structs -/

theorem parseFieldDef_plain (text : List Char) (name ty : Pair Rule) :
    parseFieldDef (.mk .fieldDef text [name, ty]) =
      parseLaicType ty >>= fun ty => .ok { name := pairStr name, ty, default := none } := rfl

theorem parseFieldDef_default (text outer : List Char) (name ty literal : Pair Rule) :
    parseFieldDef (.mk .fieldDef text [name, ty, .mk .defaultValue outer [literal]]) =
      parseLaicType ty >>= fun ty => parseLiteral literal >>= fun literal =>
        .ok { name := pairStr name, ty, default := some literal } := rfl

theorem defaultValue_simulates : Simulates blanks ending.Aligned
    (((literalConstruct ending).pair.behind "=".toList).node .defaultValue) defaultValue :=
  (@spaced_word _ _ _ _ [] "=" (by decide) literal_simulates).node .defaultValue

abbrev fieldConstruct (ending : LineEnding) : Construct FieldSyntax FieldDef where
  rule := .fieldDef
  build := parseFieldDef
  tokens := FieldSyntax.tokens
  inRange := FieldSyntax.inRange
  value := FieldSyntax.value
  convert := FieldSyntax.convert ending

theorem fieldDef_simulates :
    Simulates blanks ending.Aligned (fieldConstruct ending).pair fieldDef := by
  have parts := spaced_cons ident_simulates (spaced_word ":" (by decide)
    (spaced_cons laicType_simulates (spaced_last ";" (by decide)
      (@defaultValue_simulates ending).opt)))
  refine Construct.simulates (fieldConstruct ending)
    (parts.map (fun value => ⟨value.1, value.2.1, value.2.2⟩) ?_ (fun _ => rfl) ?_)
  · rintro ⟨name, ty, default⟩
    cases default with
    | none =>
      simp only [Construct.body, FieldSyntax.tokens, namePhrase, Phrase.node, Phrase.token, Phrase.behind,
        Phrase.followedBy, Phrase.endedBy, Phrase.option, Construct.pair, List.append_assoc,
        List.cons_append, List.nil_append]
    | some literal =>
      simp only [Construct.body, FieldSyntax.tokens, namePhrase, Phrase.node, Phrase.token, Phrase.behind,
        Phrase.followedBy, Phrase.endedBy, Phrase.option, Construct.pair, List.append_assoc,
        List.cons_append, List.nil_append]
  · rintro ⟨name, ty, default⟩ text pairs ⟨_, _, left, right, split, ⟨_, isName, spell, silent⟩,
      _, _, _, left', right', split', ⟨tyPair, isTy, _, tyOutcome⟩, _, defaultShape⟩
    subst split split' isName isTy spell silent
    simp only [Construct.body]
    cases default with
    | none =>
      have absent : right' = [] := defaultShape
      subst absent
      show Outcome _ _ (parseFieldDef (.mk .fieldDef text [_, tyPair]))
      rw [parseFieldDef_plain]
      have undefaulted : ty.inRange ↔ FieldSyntax.inRange ⟨name, ty, none⟩ :=
        ⟨fun fits => ⟨fits, fun _ found => absurd found (Option.some_ne_none _).symm⟩, And.left⟩
      exact (tyOutcome.returns fun ty => FieldDef.mk (String.ofList name.text) ty none).of_iff undefaulted
    | some literal =>
      obtain ⟨_, isDefault, _, literalPair, isLiteral, _, outcome⟩ := defaultShape
      subst isDefault isLiteral
      show Outcome _ _ (parseFieldDef (.mk .fieldDef text [_, tyPair, .mk .defaultValue _ [literalPair]]))
      rw [parseFieldDef_default]
      refine (tyOutcome.bind (outcome.returns fun literal =>
        FieldDef.mk (String.ofList name.text) ty.value (some literal))).of_iff ?_
      refine and_congr_right fun _ => ⟨fun fits other found => ?_, fun all => all literal rfl⟩
      cases found
      exact fits

/-- Input and output differ in their keyword. -/
abbrev structConstruct (ending : LineEnding) (rule : Rule) (keyword : String) :
    Construct StructSyntax StructDef where
  rule := rule
  build := parseStructDef
  tokens := StructSyntax.tokens keyword
  inRange := StructSyntax.inRange
  value := StructSyntax.value
  convert := StructSyntax.convert ending

theorem fieldPhrase_visible : (fieldConstruct ending).pair.Visible := by
  intro field
  exact ⟨field.name.text, _, rfl, List.cons_ne_nil _ _⟩

theorem struct_simulates {rule : Rule} {keyword : String}
    (plain : keyword.toList ≠ [] ∧ '\n' ∉ keyword.toList ∧ '\r' ∉ keyword.toList) :
    Simulates blanks ending.Aligned (structConstruct ending rule keyword).pair
      (node rule (spaced [lit keyword, ident, lit "\x7b", many skip fieldDef, lit "\x7d"])) := by
  have parts := spaced_word keyword plain (spaced_cons ident_simulates (spaced_word "\x7b" (by decide)
    (spaced_last "\x7d" (by decide) (Simulates.many skip_simulates
      (@fieldDef_simulates ending) fieldPhrase_visible aligned_total))))
  refine Construct.simulates (structConstruct ending rule keyword)
    (parts.map (fun value => ⟨value.1, value.2⟩) ?_ (fun _ => rfl) ?_)
  · rintro ⟨name, fields⟩
    rfl
  · rintro ⟨name, fields⟩ text pairs ⟨_, _, _, left, right, split, ⟨_, isName, spell, silent⟩, _, _, shapes⟩
    subst split isName spell silent
    exact (Construct.outcome_of_shapes shapes).returns fun fields =>
      StructDef.mk (String.ofList name.text) fields

/-! ## Errors -/

theorem parseErrorVariant_pair (text : List Char) (name : Pair Rule) (code : Digits) :
    parseErrorVariant (.mk .errorVariant text [name, .mk .integer code.text []]) =
      if Digits.value code < 2 ^ 16 then
        .ok { name := pairStr name, code := UInt16.ofNat (Digits.value code) }
      else .error (.parse ("invalid error code '" ++ String.ofList code.text ++
        "': " ++ "number too large to fit in target type")) := by
  have unsigned := Digits.parseUnsigned_text code (show 0 < 2 ^ 16 by omega)
  simp only [parseErrorVariant, Pair.inner, requireNext, Except.ok_bind, Pair.text, unsigned]
  by_cases fits : Digits.value code < 2 ^ 16
  · rw [if_pos fits, if_pos fits]
  · rw [if_neg fits, if_neg fits]
    rfl

abbrev variantConstruct : Construct VariantSyntax ErrorVariant where
  rule := .errorVariant
  build := parseErrorVariant
  tokens := VariantSyntax.tokens
  inRange := VariantSyntax.inRange
  value := VariantSyntax.value
  convert := id

theorem errorVariant_simulates :
    Simulates blanks ending.Aligned variantConstruct.pair errorVariant := by
  have parts := spaced_cons ident_simulates (spaced_word "=" (by decide)
    (spaced_last ";" (by decide) (@integer_simulates ending)))
  refine Construct.simulates variantConstruct
    (parts.map (fun value => ⟨value.1, value.2⟩) (fun _ => rfl) (fun _ => rfl) ?_)
  rintro ⟨name, code⟩ text pairs ⟨_, _, left, right, split, ⟨_, isName, spell, silent⟩,
    _, _, _, isCode, spell', silent'⟩
  subst split isName isCode spell silent spell' silent'
  simp only [Construct.body]
  show Outcome (Digits.value code < 2 ^ 16) _ (parseErrorVariant (.mk .errorVariant text [_, _]))
  rw [parseErrorVariant_pair]
  by_cases fits : Digits.value code < 2 ^ 16
  · rw [if_pos fits]
    exact .built fits
  · rw [if_neg fits]
    have message := RangeMessage.errorCode (String.ofList code.text)
    rw [String.append_assoc] at message ⊢
    exact .outOfRange fits message

abbrev errorConstruct : Construct ErrorSyntax (List ErrorVariant) where
  rule := .errorDef
  build := parseErrorDef
  tokens := ErrorSyntax.tokens
  inRange errors := ∀ variant ∈ errors.variants, variant.inRange
  value errors := errors.variants.map VariantSyntax.value
  convert := id

theorem errorDef_simulates : Simulates blanks ending.Aligned errorConstruct.pair errorDef := by
  have visible : variantConstruct.pair.Visible := fun variant =>
    ⟨variant.name.text, _, rfl, List.cons_ne_nil _ _⟩
  have parts := spaced_word "error" (by decide) (spaced_word "\x7b" (by decide)
    (spaced_last "\x7d" (by decide) (Simulates.many1 skip_simulates
      (@errorVariant_simulates ending) visible aligned_total)))
  refine Construct.simulates errorConstruct
    (parts.map (fun value => ⟨value.1, value.2⟩) (fun _ => rfl) (fun errors => ?_) ?_)
  · show ErrorSyntax.mk errors.1 errors.2 = ErrorSyntax.mk errors.1 (errors.2.map id)
    rw [List.map_id]
  · rintro ⟨first, others⟩ text pairs ⟨_, _, _, _, _, left, right, split, shape, shapes⟩
    have all : variantConstruct.pair.Shapes (first :: others) (left ++ right) :=
      ⟨left, right, _, rfl, shape, shapes⟩
    subst split
    exact Construct.outcome_of_shapes all

/-! ## Skills -/

abbrev idConstruct (ending : LineEnding) : Construct Quoted String where
  rule := .idDecl
  build := parseIdDecl
  tokens id := ["id".toList, "=".toList, id.text, ";".toList]
  inRange _ := True
  value := Quoted.string
  convert := Quoted.convert ending

theorem idDecl_simulates : Simulates blanks ending.Aligned (idConstruct ending).pair idDecl := by
  have parts := spaced_word "id" (by decide) (spaced_word "=" (by decide)
    (spaced_last ";" (by decide) (@stringLiteral_simulates ending)))
  refine Construct.simulates (idConstruct ending)
    (parts.map id (fun _ => rfl) (fun _ => rfl) ?_)
  rintro quoted text pairs ⟨_, _, _, _, isLiteral, spell, silent⟩
  subst isLiteral spell silent
  show Outcome True quoted.string (.ok (String.ofList (stripQuotes quoted.text)))
  rw [stripQuotes_text]
  exact .built trivial

abbrev skillConstruct (ending : LineEnding) : Construct SkillSyntax SkillDef where
  rule := .skillDef
  build := parseSkillDef
  tokens := SkillSyntax.tokens
  inRange := SkillSyntax.inRange
  value := SkillSyntax.value
  convert := SkillSyntax.convert ending

theorem parseSkillDef_plain (text : List Char) (name id input output : Pair Rule) :
    parseSkillDef (.mk .skillDef text [name, id, input, output]) =
      parseIdDecl id >>= fun id => parseStructDef input >>= fun input => parseStructDef output >>=
        fun output => .ok { name := pairStr name, id, input, output, errors := [] } := rfl

theorem parseSkillDef_errors (text outer : List Char) (name id input output : Pair Rule)
    (variants : List (Pair Rule)) :
    parseSkillDef (.mk .skillDef text [name, id, input, output, .mk .errorDef outer variants]) =
      parseIdDecl id >>= fun id => parseStructDef input >>= fun input => parseStructDef output >>=
        fun output => parseErrorDef (.mk .errorDef outer variants) >>= fun errors =>
          .ok { name := pairStr name, id, input, output, errors } := rfl

theorem skillDef_simulates :
    Simulates blanks ending.Aligned (skillConstruct ending).pair skillDef := by
  have input : Simulates blanks ending.Aligned (structConstruct ending .inputDef "input").pair inputDef :=
    struct_simulates (by decide)
  have output : Simulates blanks ending.Aligned (structConstruct ending .outputDef "output").pair
      outputDef := struct_simulates (by decide)
  have parts := spaced_word "skill" (by decide) (spaced_cons ident_simulates
    (spaced_word "\x7b" (by decide) (spaced_cons idDecl_simulates (spaced_cons input
      (spaced_cons output (spaced_last "\x7d" (by decide) errorDef_simulates.opt))))))
  refine Construct.simulates (skillConstruct ending)
    (parts.map (fun value => ⟨value.1, value.2.1, value.2.2.1, value.2.2.2.1, value.2.2.2.2⟩)
      ?_ (fun value => ?_) ?_)
  · rintro ⟨name, id, input, output, errors⟩
    cases errors with
    | none =>
      simp only [Construct.body, SkillSyntax.tokens, namePhrase, Phrase.node, Phrase.token, Phrase.behind,
        Phrase.followedBy, Phrase.endedBy, Phrase.option, Construct.pair, List.append_assoc,
        List.cons_append, List.nil_append]
    | some errors =>
      simp only [Construct.body, SkillSyntax.tokens, namePhrase, Phrase.node, Phrase.token, Phrase.behind,
        Phrase.followedBy, Phrase.endedBy, Phrase.option, Construct.pair, List.append_assoc,
        List.cons_append, List.nil_append]
  · obtain ⟨name, id, input, output, errors⟩ := value
    cases errors <;> rfl
  · rintro ⟨name, id, input, output, errors⟩ text pairs ⟨_, _, _, left, _, split, ⟨_, isName, spell, silent⟩,
      _, _, _, left', _, split', ⟨idPair, isId, _, idOutcome⟩, _, _, _, _, split₂,
      ⟨inputPair, isInput, _, inputOutcome⟩, _, _, _, right₃, split₃,
      ⟨outputPair, isOutput, _, outputOutcome⟩, _, errorShape⟩
    subst split split' split₂ split₃ isName isId isInput isOutput spell silent
    simp only [Construct.body]
    cases errors with
    | none =>
      have absent : right₃ = [] := errorShape
      subst absent
      show Outcome _ _ (parseSkillDef (.mk .skillDef text [_, idPair, inputPair, outputPair]))
      rw [parseSkillDef_plain]
      refine (idOutcome.bind (inputOutcome.bind (outputOutcome.returns fun output =>
        SkillDef.mk (String.ofList name.text) id.string input.value output []))).of_iff ?_
      exact ⟨fun fits => ⟨fits.2.1, fits.2.2, fun _ found => absurd found (Option.some_ne_none _).symm⟩,
        fun fits => ⟨trivial, fits.1, fits.2.1⟩⟩
    | some errors =>
      obtain ⟨errorPair, isErrors, isRule, errorOutcome⟩ := errorShape
      obtain ⟨_, outer, variants⟩ := errorPair
      cases isRule
      subst isErrors
      show Outcome _ _ (parseSkillDef (.mk .skillDef text
        [_, idPair, inputPair, outputPair, .mk .errorDef outer variants]))
      rw [parseSkillDef_errors]
      refine (idOutcome.bind (inputOutcome.bind (outputOutcome.bind (errorOutcome.returns fun variants =>
        SkillDef.mk (String.ofList name.text) id.string input.value output.value variants)))).of_iff ?_
      refine ⟨fun fits => ⟨fits.2.1, fits.2.2.1, fun other found => ?_⟩,
        fun fits => ⟨trivial, fits.1, fits.2.1, fits.2.2 errors rfl⟩⟩
      cases found
      exact fits.2.2.2

/-! ## The file -/

abbrev versionConstruct (ending : LineEnding) : Construct Quoted String where
  rule := .versionDecl
  build := parseVersionDecl
  tokens version := ["version".toList, version.text, ";".toList]
  inRange _ := True
  value := Quoted.string
  convert := Quoted.convert ending

theorem versionDecl_simulates :
    Simulates blanks ending.Aligned (versionConstruct ending).pair versionDecl := by
  have parts := spaced_word "version" (by decide)
    (spaced_last ";" (by decide) (@stringLiteral_simulates ending))
  refine Construct.simulates (versionConstruct ending)
    (parts.map id (fun _ => rfl) (fun _ => rfl) ?_)
  rintro quoted text pairs ⟨_, _, _, isLiteral, spell, silent⟩
  subst isLiteral spell silent
  show Outcome True quoted.string (.ok (String.ofList (stripQuotes quoted.text)))
  rw [stripQuotes_text]
  exact .built trivial

/-- The end of the input, which is the end of both texts. -/
theorem eoi_simulates :
    Simulates blanks ending.Aligned (Phrase.silent.node .eoi) (node .eoi (notAt any) : Peg.Expr Rule) := by
  refine Simulates.node ?_ Rule.eoi
  have fails : ∀ {input : List Char}, input ≠ [] → (notAt any : Peg.Expr Rule) input = none := by
    intro input more
    cases input with
    | nil => exact absurd rfl more
    | cons c input => rfl
  intro input input' isAligned
  by_cases ended : input = []
  · have ended' : input' = [] := isAligned.nil_iff.mp ended
    subst ended ended'
    exact .inr ⟨(), [], [], ⟨[], [], rfl, rfl, .nil [], rfl⟩, ⟨[], [], rfl, rfl, .nil [], rfl⟩, isAligned⟩
  · exact .inl ⟨fails ended, fails fun ended' => ended (isAligned.nil_iff.mpr ended')⟩

/-- The skills of a file, one declaration after the other, behind those that are there already. -/
theorem parseDeclarations_skills {skills : List SkillSyntax} {pairs : List (Pair Rule)} (file : LaicFile)
    (isSkill : ∀ pair ∈ pairs, pair.rule = .skillDef)
    (each : List.Forall₂ (fun skill pair => Outcome (SkillSyntax.inRange skill) skill.value
      (parseSkillDef pair)) skills pairs) (inner : List (Pair Rule)) (text : List Char) :
    Outcome (∀ skill ∈ skills, skill.inRange)
      { file with skills := file.skills ++ skills.map SkillSyntax.value }
      ((pairs ++ [Pair.mk .eoi text inner]).foldlM parseDeclaration file) := by
  induction each generalizing file with
  | nil =>
    have last : ([] ++ [Pair.mk Rule.eoi text inner]).foldlM parseDeclaration file = .ok file := rfl
    rw [last, List.map_nil, List.append_nil]
    exact .built nofun
  | @cons skill pair skills pairs outcome _ ih =>
    have rule : pair.rule = .skillDef := isSkill pair List.mem_cons_self
    have step : parseDeclaration file pair =
        parseSkillDef pair >>= fun built => .ok { file with skills := file.skills ++ [built] } := by
      simp only [parseDeclaration, rule]
    have later := ih { file with skills := file.skills ++ [skill.value] }
      fun other member => isSkill other (List.mem_cons_of_mem pair member)
    rw [List.cons_append, List.foldlM_cons, step]
    have both : Outcome _ _ ((parseSkillDef pair >>= fun built =>
        .ok { file with skills := file.skills ++ [built] }) >>=
          fun file => (pairs ++ [Pair.mk .eoi text inner]).foldlM parseDeclaration file) :=
      (outcome.returns fun built => { file with skills := file.skills ++ [built] }).bind later
    rw [List.append_assoc, List.singleton_append, ← List.map_cons] at both
    refine both.of_iff ?_
    rw [List.forall_mem_cons]

abbrev fileConstruct (ending : LineEnding) : Construct FileSyntax LaicFile where
  rule := .file
  build := parseFile
  tokens := FileSyntax.tokens
  inRange := FileSyntax.inRange
  value := FileSyntax.value
  convert := FileSyntax.convert ending

theorem file_simulates :
    Simulates blanks ending.Aligned (fileConstruct ending).pair file := by
  have visible : (skillConstruct ending).pair.Visible := fun skill =>
    ⟨"skill".toList, _, rfl, List.cons_ne_nil _ _⟩
  have parts := spaced_cons Simulates.empty (spaced_cons (@versionDecl_simulates ending)
    (@spaced_cons _ _ _ _ _ _ _ []
      (Simulates.many1 skip_simulates skillDef_simulates visible aligned_total) eoi_simulates))
  refine Construct.simulates (fileConstruct ending)
    (parts.map (fun value => ⟨value.2.1, value.2.2.1.1, value.2.2.1.2⟩) ?_ (fun _ => rfl) ?_)
  · rintro ⟨_, version, ⟨first, others⟩, _⟩
    simp only [Construct.body, FileSyntax.tokens, Phrase.node, Phrase.silent, Phrase.followedBy, Phrase.list,
      Construct.pair, List.flatMap_cons, List.nil_append, List.append_nil]
  · rintro ⟨_, version, ⟨first, others⟩, _⟩ text pairs ⟨_, _, left, _, split, silent, _, _, left₁, _, split₁,
      ⟨versionPair, isVersion, versionRule, versionOutcome⟩, _, eoiText, left₂, right₂, split₂,
      ⟨_, _, left₃, right₃, split₃, shape, shapes⟩, eoi, isEoi, ended⟩
    have all : (skillConstruct ending).pair.Shapes (first :: others) (left₃ ++ right₃) :=
      ⟨left₃, right₃, _, rfl, shape, shapes⟩
    obtain ⟨rules, each⟩ := Construct.forall_of_shapes all
    subst split split₁ split₂ split₃ silent isVersion isEoi
    simp only [Construct.body]
    have start : parseFile (.mk .file text ([] ++ ([versionPair] ++ (left₃ ++ right₃ ++ [Pair.mk .eoi eoiText eoi])))) =
        parseDeclaration { version := "", skills := [] } versionPair >>= fun file =>
          (left₃ ++ right₃ ++ [Pair.mk .eoi eoiText eoi]).foldlM parseDeclaration file := rfl
    have step : parseDeclaration { version := "", skills := [] } versionPair =
        parseVersionDecl versionPair >>= fun version => .ok { version, skills := [] } := by
      simp only [parseDeclaration, versionRule]
    rw [start, step]
    refine ((versionOutcome.returns fun version => LaicFile.mk version []).bind
      (parseDeclarations_skills (LaicFile.mk version.string []) rules each eoi _)).of_iff ?_
    exact ⟨And.right, fun fits => ⟨trivial, fits⟩⟩

/-- A file is matched to its end. -/
theorem file_rest {input rest : List Char} {pairs : List (Pair Rule)}
    (matched : file input = some (pairs, rest)) : rest = [] := by
  have parts : ∃ pairs, spaced [empty, versionDecl, many1 skip skillDef, node .eoi (notAt any)] input =
      some (pairs, rest) := by
    unfold file node at matched
    split at matched
    · cases matched
    · rename_i found
      cases matched
      exact ⟨_, found⟩
  obtain ⟨_, found⟩ := parts
  have split : spaced [empty, versionDecl, many1 skip skillDef, node .eoi (notAt any)] =
      seq empty (seq skip (seq versionDecl (seq skip (seq (many1 skip skillDef)
        (seq skip (node .eoi (notAt any))))))) := rfl
  obtain ⟨_, _, _, _, found, -⟩ := seq_eq_some.mp ((congrFun split input).symm.trans found)
  obtain ⟨_, _, _, _, found, -⟩ := seq_eq_some.mp found
  obtain ⟨_, _, _, _, found, -⟩ := seq_eq_some.mp found
  obtain ⟨_, _, _, _, found, -⟩ := seq_eq_some.mp found
  obtain ⟨_, _, _, _, found, -⟩ := seq_eq_some.mp found
  obtain ⟨_, last, _, _, found, -⟩ := seq_eq_some.mp found
  cases last with
  | nil =>
    cases found
    rfl
  | cons c last => cases found

end Grammar

/-! ## Every source that the grammar matches -/

/-- A default that is a string holds no carriage return. -/
def FieldDef.NoReturn (field : FieldDef) : Prop :=
  ∀ text, field.default = some (.string text) → '\r' ∉ text.toList

/-- The source says what the syntax holds, token by token, and `parse` returns the tree that the syntax stands
for; where a number is out of range, the report of such a number. -/
structure ParsesAs (source : String) (file : FileSyntax) : Prop where
  reads : blanks.Reads file.tokens source.toList []
  ok : file.inRange → parse source = .ok file.value
  noReturn : ∀ skill ∈ file.value.skills, ∀ field ∈ skill.input.fields ++ skill.output.fields, field.NoReturn
  outOfRange : ¬ file.inRange → ∃ message, RangeMessage message ∧ parse source = .error (.parse message)

theorem FieldSyntax.noReturn (field : FieldSyntax) : field.value.NoReturn := by
  obtain ⟨name, ty, default⟩ := field
  intro text isText member
  cases default with
  | none => cases isText
  | some literal =>
    cases literal with
    | float | integer | bool => cases isText
    | string quoted =>
      cases isText
      rw [Quoted.normalized, String.toList_ofList] at member
      exact (LineEnding.mem_unify member).1 rfl

theorem FileSyntax.noReturn (file : FileSyntax) : ∀ skill ∈ file.value.skills,
    ∀ field ∈ skill.input.fields ++ skill.output.fields, field.NoReturn := by
  intro skill inFile field inSkill
  obtain ⟨skill, -, rfl⟩ := List.mem_map.mp inFile
  obtain inInput | inOutput := List.mem_append.mp inSkill
  · obtain ⟨field, -, rfl⟩ := List.mem_map.mp inInput
    exact field.noReturn
  · obtain ⟨field, -, rfl⟩ := List.mem_map.mp inOutput
    exact field.noReturn

/-- A pair of a file, as `parse` takes it. -/
theorem parsesAs_of_run {source : String} {rest : List Char} {file : FileSyntax} {ending : LineEnding}
    (run : (Grammar.fileConstruct ending).pair.Run blanks Grammar.file file source.toList rest) :
    ParsesAs source file := by
  obtain ⟨text, _, spans, matched, reads, pair, rfl, _, outcome⟩ := run
  cases Grammar.file_rest matched
  have same : parse source = parseFile pair := by
    unfold parse
    rw [matched]
  exact ⟨reads, fun fits => same.trans (outcome.eq_ok fits), file.noReturn,
    fun exceeds => same ▸ outcome.eq_error exceeds⟩

/-- The builders take every source that the grammar matches. -/
theorem parse_of_matched {source : String} (matched : (Grammar.file source.toList).isSome) :
    ∃ file, ParsesAs source file := by
  obtain ⟨fails, -⟩ | ⟨file, rest, _, run, -⟩ := Grammar.file_simulates _ _ (aligned_lf source.toList)
  · rw [fails] at matched
    cases matched
  · exact ⟨file, parsesAs_of_run run⟩

/-- A dimension of 2^64 in a source that the grammar matches. -/
theorem parse_of_matched_dimension :
    ∃ file, ParsesAs "version \"1\"; skill S \x7b id = \"s\";
      input I \x7b x: tensor<f32>[18446744073709551616]; \x7d output O \x7b\x7d \x7d" file :=
  parse_of_matched (by decide +kernel)

end Laic
