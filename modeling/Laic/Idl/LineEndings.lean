import Laic.Idl.Declarations

/-! # Contracts with other line ends

A contract and the same contract with CRLF for every LF.  The parser reads the same syntax from both, but for
the line ends inside string literals.  Those of the defaults are the same in the tree, while the version and
the ids keep the line ends of their source. -/

namespace Laic

open Peg LineEnding

/-! ## Identity strings in validation -/

/-- The file with its version and its ids rewritten. -/
def LaicFile.mapIdentity (f : String → String) (file : LaicFile) : LaicFile where
  version := f file.version
  skills := file.skills.map fun skill => { skill with id := f skill.id }

section Identity

variable {f : String → String} (injective : ∀ {left right}, f left = f right → left = right)
  (empty : ∀ {text}, f text = "" ↔ text = "")

include injective empty

theorem validateSkills_mapIdentity (names ids : List String) (skills : List SkillDef) :
    validateSkills names (ids.map f) (skills.map fun skill => { skill with id := f skill.id }) = .ok () ↔
      validateSkills names ids skills = .ok () := by
  induction skills generalizing names ids with
  | nil => rfl
  | cons skill skills ih =>
    have fresh : f skill.id ∉ ids.map f ↔ skill.id ∉ ids := by
      refine not_congr ⟨fun member => ?_, fun member => List.mem_map_of_mem member⟩
      obtain ⟨id, inside, same⟩ := List.mem_map.mp member
      exact injective same ▸ inside
    -- on its own, a skill is only asked for an id that is not empty
    have own : validateSkill { skill with id := f skill.id } = .ok () ↔ validateSkill skill = .ok () := by
      simp only [validateSkill, Except.bind_eq_ok, Except.ensure_eq_ok, ne_eq, empty]
    have later := ih (skill.name :: names) (skill.id :: ids)
    rw [List.map_cons] at later
    have unit : ∀ {p : Unit → Prop}, (∃ value, p value) ↔ p () :=
      ⟨fun ⟨_, holds⟩ => holds, fun holds => ⟨(), holds⟩⟩
    simp only [List.map_cons, validateSkills, Except.bind_eq_ok, Except.ensure_eq_ok, unit, fresh, own, later]

theorem validate_mapIdentity (file : LaicFile) :
    validate (file.mapIdentity f) = .ok () ↔ validate file = .ok () := by
  have skills := validateSkills_mapIdentity injective empty [] [] file.skills
  rw [List.map_nil] at skills
  simp only [validate, LaicFile.mapIdentity, Except.bind_eq_ok, Except.ensure_eq_ok, ne_eq, empty,
    List.map_eq_nil_iff, skills]

end Identity

/-! ## The tree of the converted syntax -/

/-- The text with CRLF for every LF. -/
def crlfText (text : String) : String := String.ofList (crlf.convert text.toList)

theorem crlfText_injective {left right : String} (same : crlfText left = crlfText right) :
    left = right :=
  String.toList_injective (crlf_convert_injective (String.ofList_injective same))

theorem crlfText_eq_empty {text : String} : crlfText text = "" ↔ text = "" := by
  rw [← String.toList_eq_nil_iff, ← String.toList_eq_nil_iff, crlfText, String.toList_ofList,
    convert_eq_nil_iff]

theorem crlfText_eq_self {text : String} : crlfText text = text ↔ '\n' ∉ text.toList := by
  rw [← crlf_convert_eq_iff, ← String.toList_inj, crlfText, String.toList_ofList]

theorem Quoted.string_convert (quoted : Quoted) :
    (quoted.convert crlf).string = crlfText quoted.string := by
  simp only [Quoted.string, Quoted.convert, crlfText, String.toList_ofList]

/-- Defaults keep their text. -/
theorem Quoted.normalized_convert {quoted : Quoted} (noCr : '\r' ∉ quoted.text) :
    (quoted.convert crlf).normalized = quoted.normalized := by
  have absent : '\r' ∉ quoted.body := fun member =>
    noCr (List.mem_cons_of_mem _ (List.mem_append_left _ member))
  rw [Quoted.normalized, Quoted.normalized, unify_eq_self absent]
  exact congrArg String.ofList (unify_convert crlf absent)

theorem LiteralValueSyntax.value_convert {literal : LiteralValueSyntax} (noCr : '\r' ∉ literal.text) :
    (literal.convert crlf).value = literal.value := by
  cases literal with
  | string text => exact congrArg Literal.string (Quoted.normalized_convert noCr)
  | float | integer | bool => rfl

theorem FieldSyntax.value_convert {field : FieldSyntax} (noCr : ∀ token ∈ field.tokens, '\r' ∉ token) :
    (field.convert crlf).value = field.value := by
  obtain ⟨name, ty, default⟩ := field
  cases default with
  | none => rfl
  | some literal =>
    have within : literal.text ∈ FieldSyntax.tokens ⟨name, ty, some literal⟩ := by
      simp [FieldSyntax.tokens]
    have same := LiteralValueSyntax.value_convert (noCr _ within)
    simp only [FieldSyntax.value, FieldSyntax.convert, Option.map_some, same]

theorem StructSyntax.value_convert {structSyntax : StructSyntax} {keyword : String}
    (noCr : ∀ token ∈ structSyntax.tokens keyword, '\r' ∉ token) :
    (structSyntax.convert crlf).value = structSyntax.value := by
  have fields : structSyntax.fields.map (FieldSyntax.value ∘ FieldSyntax.convert crlf) =
      structSyntax.fields.map FieldSyntax.value := by
    refine List.map_congr_left fun field member => ?_
    refine FieldSyntax.value_convert fun token inside => noCr token ?_
    exact List.mem_append_left _ (List.mem_append_right _ (List.mem_flatMap.mpr ⟨field, member, inside⟩))
  simp only [StructSyntax.value, StructSyntax.convert, List.map_map, fields]

theorem SkillSyntax.value_convert {skill : SkillSyntax} (noCr : ∀ token ∈ skill.tokens, '\r' ∉ token) :
    (skill.convert crlf).value = { skill.value with id := crlfText skill.value.id } := by
  have input : (skill.input.convert crlf).value = skill.input.value := by
    refine @StructSyntax.value_convert _ "input" fun token inside => noCr token ?_
    simp only [SkillSyntax.tokens, List.mem_append]
    exact .inl (.inl (.inl (.inr inside)))
  have output : (skill.output.convert crlf).value = skill.output.value := by
    refine @StructSyntax.value_convert _ "output" fun token inside => noCr token ?_
    simp only [SkillSyntax.tokens, List.mem_append]
    exact .inl (.inl (.inr inside))
  simp only [SkillSyntax.value, SkillSyntax.convert, input, output, Quoted.string_convert]

theorem FileSyntax.value_convert {file : FileSyntax} (noCr : ∀ token ∈ file.tokens, '\r' ∉ token) :
    (file.convert crlf).value = file.value.mapIdentity crlfText := by
  have each : ∀ skill ∈ file.skills,
      (skill.convert crlf).value = { skill.value with id := crlfText skill.value.id } := by
    intro skill member
    refine SkillSyntax.value_convert fun token inside => noCr token ?_
    exact List.mem_append_right _ (List.mem_flatMap.mpr ⟨skill, member, inside⟩)
  have skills : (file.convert crlf).skills.map SkillSyntax.value =
      (file.skills.map SkillSyntax.value).map fun skill => { skill with id := crlfText skill.id } := by
    have converted : (file.convert crlf).skills = file.skills.map (SkillSyntax.convert crlf) := rfl
    rw [converted, List.map_map, List.map_map]
    exact List.map_congr_left each
  show LaicFile.mk (Quoted.string _) _ = _
  rw [skills]
  exact congrArg (LaicFile.mk · _) (Quoted.string_convert file.version)

/-! ## Numbers of the converted syntax -/

theorem FieldSyntax.inRange_convert (field : FieldSyntax) :
    (field.convert crlf).inRange ↔ field.inRange := by
  obtain ⟨name, ty, default⟩ := field
  cases default with
  | none => exact .rfl
  | some literal =>
    have same : (literal.convert crlf).inRange ↔ literal.inRange := by cases literal <;> exact .rfl
    simp only [FieldSyntax.inRange, FieldSyntax.convert, Option.map_some, Option.mem_some_iff, forall_eq', same]

theorem StructSyntax.inRange_convert (structSyntax : StructSyntax) :
    (structSyntax.convert crlf).inRange ↔ structSyntax.inRange := by
  simp only [StructSyntax.inRange, StructSyntax.convert, List.forall_mem_map, FieldSyntax.inRange_convert]

theorem SkillSyntax.inRange_convert (skill : SkillSyntax) :
    (skill.convert crlf).inRange ↔ skill.inRange := by
  simp only [SkillSyntax.inRange, SkillSyntax.convert, StructSyntax.inRange_convert]

theorem FileSyntax.inRange_convert (file : FileSyntax) :
    (file.convert crlf).inRange ↔ file.inRange := by
  have skills : (file.convert crlf).skills = file.skills.map (SkillSyntax.convert crlf) := rfl
  simp only [FileSyntax.inRange, skills, List.forall_mem_map, SkillSyntax.inRange_convert]

/-! ## The two contracts -/

/-- Both sources are rejected, or both are accepted as the same file. -/
def SameContract (source other : String) : Prop :=
  (∃ error error', compile source = .error error ∧ compile other = .error error') ∨
    ∃ file, compile source = .ok file ∧ compile other = .ok file

/-- The version and the ids stand on one line each. -/
def FileSyntax.OneLineIdentity (file : FileSyntax) : Prop :=
  '\n' ∉ file.version.body ∧ ∀ skill ∈ file.skills, '\n' ∉ skill.id.body

theorem FileSyntax.mapIdentity_eq_iff (file : FileSyntax) :
    file.value.mapIdentity crlfText = file.value ↔ file.OneLineIdentity := by
  have oneLine : ∀ quoted : Quoted, crlfText quoted.string = quoted.string ↔ '\n' ∉ quoted.body := by
    intro quoted
    rw [crlfText_eq_self, Quoted.string, String.toList_ofList]
  have skills : ∀ skills : List SkillSyntax, ((skills.map SkillSyntax.value).map fun skill =>
      { skill with id := crlfText skill.id }) = skills.map SkillSyntax.value ↔
        ∀ skill ∈ skills, '\n' ∉ skill.id.body := by
    intro skills
    induction skills with
    | nil => exact ⟨fun _ => nofun, fun _ => rfl⟩
    | cons skill skills ih =>
      have first : ({ skill.value with id := crlfText skill.value.id } : SkillDef) = skill.value ↔
          '\n' ∉ skill.id.body := by
        rw [← oneLine]
        exact ⟨congrArg SkillDef.id, fun same => congrArg (fun id => { skill.value with id }) same⟩
      rw [List.map_cons, List.map_cons, List.cons_eq_cons, first, ih, List.forall_mem_cons]
  have parts : file.value.mapIdentity crlfText = file.value ↔ crlfText file.version.string = file.version.string ∧
      ((file.skills.map SkillSyntax.value).map fun skill => { skill with id := crlfText skill.id }) =
        file.skills.map SkillSyntax.value := LaicFile.mk.injEq .. ▸ .rfl
  rw [parts, oneLine, skills]
  exact .rfl

theorem compile_eq_ok_iff {source : String} {file : LaicFile} :
    compile source = .ok file ↔ parse source = .ok file ∧ validate file = .ok () := by
  unfold compile
  cases parsed : parse source with
  | error error => exact ⟨nofun, fun ⟨impossible, _⟩ => nomatch impossible⟩
  | ok parsedFile =>
    rw [Except.ok_bind, Except.bind_eq_ok]
    constructor
    · intro ⟨_, valid, same⟩
      cases same
      exact ⟨rfl, valid⟩
    · intro ⟨same, valid⟩
      cases same
      exact ⟨(), valid, rfl⟩

theorem ParsesAs.compile_eq_ok_iff {source : String} {file : FileSyntax} (parses : ParsesAs source file)
    {tree : LaicFile} :
    compile source = .ok tree ↔ file.inRange ∧ validate file.value = .ok () ∧ tree = file.value := by
  rw [Laic.compile_eq_ok_iff]
  by_cases fits : file.inRange
  · rw [parses.ok fits]
    constructor
    · intro ⟨same, valid⟩
      cases same
      exact ⟨fits, valid, rfl⟩
    · intro ⟨_, valid, same⟩
      exact ⟨congrArg Except.ok same.symm, same ▸ valid⟩
  · obtain ⟨message, -, fails⟩ := parses.outOfRange fits
    rw [fails]
    exact ⟨fun ⟨impossible, _⟩ => (nomatch impossible), fun ⟨within, _⟩ => absurd within fits⟩

end Laic
