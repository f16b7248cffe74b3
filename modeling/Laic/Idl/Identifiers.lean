import Laic.Idl.Validate

/-! # Identifiers of a source file

Every name the parser puts into the tree is the text of an `ident` token: an ASCII letter
followed by letters, digits and underscores.  The proof follows the grammar down to the
rules whose first token is a name. -/

namespace Laic

open Peg (Pair Produces Silent Parts)

/-- The texts the `ident` rule matches. -/
def IsIdent (text : List Char) : Prop :=
  ∃ first rest, text = first :: rest ∧ first.isAlpha = true ∧
    ∀ c ∈ rest, c.isAlphanum = true ∨ c = '_'

/-! ## Tokens of the grammar -/

namespace Grammar

theorem skip_silent : Silent skip := by
  have whitespaces : Silent (Peg.star whitespace) := by
    refine Silent.star (Silent.orElse (.lit _) (.orElse (.lit _) (.orElse (.lit _) ?_)))
    exact Silent.orElse (.lit _) fun pairs ⟨_, _, matched⟩ => nomatch matched
  have line : Silent (Peg.star (Peg.concat [Peg.notAt (Peg.lit "\n"), Peg.any]) : Peg.Expr Rule) :=
    Silent.star (Silent.seq (.notAt _) (.satisfy _))
  have comments : Silent comment := Silent.seq (.lit _) line
  exact Silent.seq whitespaces (Silent.star (Silent.seq comments whitespaces))

theorem produces_ident {pairs : List (Pair Rule)} (produced : Produces ident pairs) :
    ∃ text, pairs = [.mk .ident text []] ∧ IsIdent text := by
  obtain ⟨input, rest, matched⟩ := produced
  unfold ident Peg.node at matched
  split at matched
  · cases matched
  next inner rest' ran =>
    cases matched
    -- the first character, and then those the repetition takes
    obtain ⟨left, middle, right, first, more, rfl⟩ := Peg.seq_eq_some.mp ran
    cases input with
    | nil => cases first
    | cons c input =>
      simp only [Peg.satisfy] at first
      split at first
      next isAlpha =>
        cases first
        have silent : right = [] := Silent.star (.satisfy _) right ⟨_, _, more⟩
        obtain ⟨taken, rfl, all⟩ := Peg.repeatUpTo_satisfy (Option.some.inj more)
        have length : (c :: (taken ++ rest)).length - rest.length = taken.length + 1 := by
          simp only [List.length_cons, List.length_append]
          omega
        have spanned : (c :: (taken ++ rest)).take ((c :: (taken ++ rest)).length - rest.length) =
            c :: taken := by
          rw [length]
          simp
        rw [spanned, silent]
        refine ⟨c :: taken, rfl, c, taken, rfl, isAlpha, fun d member => ?_⟩
        simpa using all d member
      next => cases first

end Grammar

/-! ## Rules that start with a name -/

/-- The first token of the pair is an identifier. -/
def NamedFirst (pair : Pair Rule) : Prop :=
  ∃ text more, pair.inner = .mk .ident text [] :: more ∧ IsIdent text

/-- The tokens of a struct: its name, and fields that start with theirs. -/
def StructShape (pair : Pair Rule) : Prop :=
  ∃ text fields, pair.inner = .mk .ident text [] :: fields ∧ IsIdent text ∧
    ∀ field ∈ fields, NamedFirst field

/-- The tokens of a skill. -/
def SkillShape (pair : Pair Rule) : Prop :=
  ∃ text idDecl input output errors,
    pair.inner = .mk .ident text [] :: idDecl :: input :: output :: errors ∧ IsIdent text ∧
      StructShape input ∧ StructShape output ∧
      ∀ error ∈ errors, ∀ variant ∈ error.inner, NamedFirst variant

namespace Grammar

/-- A rule that starts with `ident` produces a pair that starts with a name. -/
theorem namedFirst_of_ident {rule : Rule} {es : List (Peg.Expr Rule)} {pairs : List (Pair Rule)}
    (produced : Produces (Peg.node rule (spaced (ident :: es))) pairs) :
    ∀ pair ∈ pairs, NamedFirst pair := by
  obtain ⟨text, inner, rfl, inside⟩ := produced.node
  obtain ⟨left, right, rfl, first, -⟩ := Produces.sequence skip_silent inside
  obtain ⟨name, rfl, isIdent⟩ := produces_ident first
  intro pair member
  cases List.mem_singleton.mp member
  exact ⟨name, right, rfl, isIdent⟩

theorem namedFirst_of_many {rule : Rule} {es : List (Peg.Expr Rule)} {pairs : List (Pair Rule)}
    (rounds : ∀ pair ∈ pairs, ∃ round,
      Produces (Peg.node rule (spaced (ident :: es))) round ∧ pair ∈ round) :
    ∀ pair ∈ pairs, NamedFirst pair := by
  intro pair member
  obtain ⟨round, found, inside⟩ := rounds pair member
  exact namedFirst_of_ident found pair inside

/-- A keyword, a name and fields in braces. -/
theorem produces_struct {rule : Rule} {word opening closing : String} {pairs : List (Pair Rule)}
    (produced : Produces (Peg.node rule (spaced [Peg.lit word, ident, Peg.lit opening,
      Peg.many skip fieldDef, Peg.lit closing])) pairs) :
    ∃ pair, pairs = [pair] ∧ StructShape pair := by
  obtain ⟨text, inner, rfl, inside⟩ := produced.node
  obtain ⟨p₁, _, rfl, keyword, p₂, _, rfl, name, p₃, _, rfl, opens, p₄, _, rfl, fields, p₅, _, rfl,
    closes, rfl⟩ := Produces.sequence skip_silent inside
  cases Silent.lit word p₁ keyword
  cases Silent.lit opening p₃ opens
  cases Silent.lit closing p₅ closes
  obtain ⟨nameText, rfl, isIdent⟩ := produces_ident name
  refine ⟨_, rfl, nameText, p₄, by simp [Pair.inner], isIdent, ?_⟩
  exact namedFirst_of_many (fields.many skip_silent)

theorem produces_errorDef {pairs : List (Pair Rule)} (produced : Produces errorDef pairs) :
    ∀ error ∈ pairs, ∀ variant ∈ error.inner, NamedFirst variant := by
  obtain ⟨text, inner, rfl, inside⟩ := produced.node
  obtain ⟨p₁, _, rfl, keyword, p₂, _, rfl, opens, p₃, _, rfl, variants, p₄, _, rfl, closes, rfl⟩ :=
    Produces.sequence skip_silent inside
  cases Silent.lit _ p₁ keyword
  cases Silent.lit _ p₂ opens
  cases Silent.lit _ p₄ closes
  intro error member
  cases List.mem_singleton.mp member
  intro variant member
  apply namedFirst_of_many (variants.many1 skip_silent)
  simpa [Pair.inner] using member

theorem produces_skillDef {pairs : List (Pair Rule)} (produced : Produces skillDef pairs) :
    ∀ pair ∈ pairs, SkillShape pair := by
  obtain ⟨text, inner, rfl, inside⟩ := produced.node
  obtain ⟨p₁, _, rfl, keyword, p₂, _, rfl, name, p₃, _, rfl, opens, p₄, _, rfl, id, p₅, _, rfl,
    input, p₆, _, rfl, output, p₇, _, rfl, errors, p₈, _, rfl, closes, rfl⟩ :=
    Produces.sequence skip_silent inside
  cases Silent.lit _ p₁ keyword
  cases Silent.lit _ p₃ opens
  cases Silent.lit _ p₈ closes
  obtain ⟨nameText, rfl, isIdent⟩ := produces_ident name
  obtain ⟨idText, idInner, rfl, -⟩ := id.node
  obtain ⟨inputPair, rfl, inputShape⟩ := produces_struct input
  obtain ⟨outputPair, rfl, outputShape⟩ := produces_struct output
  intro pair member
  cases List.mem_singleton.mp member
  refine ⟨nameText, _, inputPair, outputPair, p₇, by simp [Pair.inner]; rfl, isIdent, inputShape,
    outputShape, ?_⟩
  -- the error block is optional
  cases errors.opt with
  | inl found => exact produces_errorDef found
  | inr none =>
    subst none
    nofun

/-- Every skill of a file has the tokens of one. -/
theorem produces_file {pairs : List (Pair Rule)} (produced : Produces file pairs) :
    ∀ pair ∈ pairs, ∀ declaration ∈ pair.inner,
      declaration.rule = .skillDef → SkillShape declaration := by
  obtain ⟨text, inner, rfl, inside⟩ := produced.node
  obtain ⟨p₁, _, rfl, start, p₂, _, rfl, version, p₃, _, rfl, skills, p₄, _, rfl, eoi, rfl⟩ :=
    Produces.sequence skip_silent inside
  obtain ⟨_, _, start⟩ := start
  cases start
  obtain ⟨versionText, versionInner, rfl, -⟩ := version.node
  obtain ⟨eoiText, eoiInner, rfl, -⟩ := eoi.node
  intro pair member
  cases List.mem_singleton.mp member
  intro declaration member isSkill
  simp only [Pair.inner, List.nil_append, List.append_nil, List.cons_append, List.mem_cons,
    List.mem_append, List.not_mem_nil, or_false] at member
  obtain rfl | inSkills | rfl := member
  · cases isSkill
  · obtain ⟨round, found, inRound⟩ := skills.many1 skip_silent declaration inSkills
    exact produces_skillDef found declaration inRound
  · cases isSkill

end Grammar

/-! ## Names in the tree -/

/-- The struct and its fields are named by identifiers. -/
structure NamedStruct (structDef : StructDef) : Prop where
  name : IsIdent structDef.name.toList
  fields : ∀ field ∈ structDef.fields, IsIdent field.name.toList

/-- The skill and everything in it are named by identifiers. -/
structure NamedSkill (skill : SkillDef) : Prop where
  name : IsIdent skill.name.toList
  input : NamedStruct skill.input
  output : NamedStruct skill.output
  errors : ∀ variant ∈ skill.errors, IsIdent variant.name.toList

theorem mapM_forall {α β : Type} {f : α → Except CompileError β} {P : β → Prop} {xs : List α}
    {ys : List β} (ran : xs.mapM f = .ok ys) (each : ∀ x ∈ xs, ∀ y, f x = .ok y → P y) :
    ∀ y ∈ ys, P y := by
  induction xs generalizing ys with
  | nil =>
    cases ran
    nofun
  | cons x xs ih =>
    simp only [List.mapM_cons, Except.bind_eq_ok, Except.pure_eq] at ran
    obtain ⟨y, first, ys', rest, same⟩ := ran
    cases same
    intro y' member
    cases member with
    | head => exact each x List.mem_cons_self y first
    | tail _ member => exact ih rest (fun x' inside => each x' (List.mem_cons_of_mem x inside)) y' member

theorem toList_pairStr (text : List Char) : (pairStr (.mk .ident text [])).toList = text := by
  simp [pairStr, Pair.text]

theorem parseFieldDef_named {pair : Pair Rule} {field : FieldDef} (shape : NamedFirst pair)
    (parsed : parseFieldDef pair = .ok field) : IsIdent field.name.toList := by
  obtain ⟨text, more, inner, isIdent⟩ := shape
  simp only [parseFieldDef, inner, requireNext, Except.ok_bind, Except.bind_eq_ok] at parsed
  obtain ⟨_, _, _, _, parsed⟩ := parsed
  -- the name is the same with a default and without one
  split at parsed
  · cases parsed
    rwa [toList_pairStr]
  · split at parsed
    · simp only [Except.bind_eq_ok] at parsed
      obtain ⟨_, _, _, _, same⟩ := parsed
      cases same
      rwa [toList_pairStr]
    · cases parsed
      rwa [toList_pairStr]

theorem parseErrorVariant_named {pair : Pair Rule} {variant : ErrorVariant}
    (shape : NamedFirst pair) (parsed : parseErrorVariant pair = .ok variant) :
    IsIdent variant.name.toList := by
  obtain ⟨text, more, inner, isIdent⟩ := shape
  simp only [parseErrorVariant, inner, requireNext, Except.ok_bind, Except.bind_eq_ok] at parsed
  obtain ⟨_, _, parsed⟩ := parsed
  split at parsed
  · cases parsed
    rwa [toList_pairStr]
  · cases parsed

theorem parseStructDef_named {pair : Pair Rule} {structDef : StructDef} (shape : StructShape pair)
    (parsed : parseStructDef pair = .ok structDef) : NamedStruct structDef := by
  obtain ⟨text, more, inner, isIdent, fieldShapes⟩ := shape
  simp only [parseStructDef, inner, requireNext, Except.ok_bind, Except.bind_eq_ok] at parsed
  obtain ⟨fields, ran, same⟩ := parsed
  cases same
  refine ⟨by rwa [toList_pairStr], ?_⟩
  refine mapM_forall ran fun fieldPair member field => parseFieldDef_named ?_
  exact fieldShapes fieldPair (List.mem_of_mem_filter member)

theorem parseSkillDef_named {pair : Pair Rule} {skill : SkillDef} (shape : SkillShape pair)
    (parsed : parseSkillDef pair = .ok skill) : NamedSkill skill := by
  obtain ⟨text, idDecl, input, output, errors, inner, isIdent, inputShape, outputShape,
    variants⟩ := shape
  simp only [parseSkillDef, inner, requireNext, Except.ok_bind, Except.bind_eq_ok] at parsed
  obtain ⟨_, _, inputDef, inputRan, outputDef, outputRan, parsed⟩ := parsed
  have isName : IsIdent (pairStr (.mk .ident text [])).toList := by rwa [toList_pairStr]
  have inputNamed := parseStructDef_named inputShape inputRan
  have outputNamed := parseStructDef_named outputShape outputRan
  split at parsed
  · cases parsed
    exact ⟨isName, inputNamed, outputNamed, List.forall_mem_nil _⟩
  next error errors =>
    split at parsed
    · simp only [Except.bind_eq_ok] at parsed
      obtain ⟨errorDefs, errorsRan, same⟩ := parsed
      cases same
      refine ⟨isName, inputNamed, outputNamed, ?_⟩
      -- an error block: its variants are named one by one
      refine mapM_forall errorsRan fun variantPair member variant => parseErrorVariant_named ?_
      exact variants error List.mem_cons_self variantPair (List.mem_of_mem_filter member)
    · cases parsed
      exact ⟨isName, inputNamed, outputNamed, List.forall_mem_nil _⟩

/-- The skills so far are named, and so are those of the declarations to come. -/
theorem parseDeclarations_named {declarations : List (Pair Rule)} {start file : LaicFile}
    (shapes : ∀ declaration ∈ declarations, declaration.rule = .skillDef → SkillShape declaration)
    (named : ∀ skill ∈ start.skills, NamedSkill skill)
    (parsed : declarations.foldlM parseDeclaration start = .ok file) :
    ∀ skill ∈ file.skills, NamedSkill skill := by
  induction declarations generalizing start with
  | nil =>
    cases parsed
    exact named
  | cons declaration declarations ih =>
    simp only [List.foldlM_cons, Except.bind_eq_ok] at parsed
    obtain ⟨next, ran, rest⟩ := parsed
    refine ih (fun later member => shapes later (List.mem_cons_of_mem _ member)) ?_ rest
    unfold parseDeclaration at ran
    split at ran
    next =>
      simp only [Except.bind_eq_ok] at ran
      obtain ⟨version, _, same⟩ := ran
      cases same
      exact named
    next isSkill =>
      simp only [Except.bind_eq_ok] at ran
      obtain ⟨skill, skillRan, same⟩ := ran
      cases same
      have fresh : NamedSkill skill :=
        parseSkillDef_named (shapes declaration List.mem_cons_self isSkill) skillRan
      intro other member
      cases List.mem_append.mp member with
      | inl before => exact named other before
      | inr last =>
        cases List.mem_singleton.mp last
        exact fresh
    next =>
      cases ran
      exact named

/-- Everything in a parsed file is named by an identifier. -/
theorem named_of_parse {source : String} {file : LaicFile} (parsed : parse source = .ok file) :
    ∀ skill ∈ file.skills, NamedSkill skill := by
  unfold parse at parsed
  split at parsed
  · cases parsed
  · cases parsed
  next pair pairs rest ran =>
    have shapes := Grammar.produces_file ⟨_, _, ran⟩ pair List.mem_cons_self
    have none : ∀ skill ∈ ([] : List SkillDef), NamedSkill skill := nofun
    exact parseDeclarations_named shapes none parsed

theorem named_of_compile {source : String} {file : LaicFile} (accepted : compile source = .ok file) :
    ∀ skill ∈ file.skills, NamedSkill skill := by
  simp only [compile, Except.bind_eq_ok] at accepted
  obtain ⟨parsed, ran, _, _, same⟩ := accepted
  cases same
  exact named_of_parse ran

theorem namedStruct_of_compile {source : String} {file : LaicFile}
    (accepted : compile source = .ok file) {entry : SkillDef × String × StructDef}
    (member : entry ∈ file.structs) : NamedStruct entry.2.2 := by
  obtain ⟨skill, isSkill, inSkill⟩ := List.mem_flatMap.mp member
  have named := named_of_compile accepted skill isSkill
  simp only [List.mem_cons, List.not_mem_nil, or_false] at inSkill
  rcases inSkill with rfl | rfl
  · exact named.input
  · exact named.output

end Laic
