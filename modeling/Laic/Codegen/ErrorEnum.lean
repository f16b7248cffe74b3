import Laic.Codegen.Names
import Laic.Lib.AssocList

/-! # Error enums

The three enums generated for the error block of a skill, and when they agree.  The
Rust enum names its variants in another case than the source file does, and finds them by
their code; Python and TypeScript keep the names. -/

namespace Laic

/-! ## Validated error blocks -/

/-- What validation guarantees of an error block. -/
structure SupportedErrors (errors : List ErrorVariant) : Prop where
  notReserved : ∀ variant ∈ errors, isReservedCodegenIdentifier variant.name = false
  names : (errors.map ErrorVariant.name).Nodup
  codes : (errors.map ErrorVariant.code).Nodup

theorem validateErrorsFrom_eq_ok {skillName : String} {names : List String} {codes : List UInt16}
    {errors : List ErrorVariant}
    (accepted : validateErrorsFrom skillName names codes errors = .ok ()) :
    SupportedErrors errors ∧ (∀ variant ∈ errors, variant.name ∉ names) ∧
      ∀ variant ∈ errors, variant.code ∉ codes := by
  induction errors generalizing names codes with
  | nil => exact ⟨⟨nofun, .nil, .nil⟩, nofun, nofun⟩
  | cons variant errors ih =>
    simp only [validateErrorsFrom, validateCodegenIdentifier, Except.bind_eq_ok,
      Except.ensure_eq_ok] at accepted
    obtain ⟨_, notReserved, _, freshName, _, _, _, freshCode, rest⟩ := accepted
    obtain ⟨supported, unseenNames, unseenCodes⟩ := ih rest
    refine ⟨⟨?_, ?_, ?_⟩, ?_, ?_⟩
    · intro other member
      cases member with
      | head => simpa using notReserved
      | tail _ member => exact supported.notReserved other member
    · rw [List.map_cons, List.nodup_cons]
      refine ⟨fun member => ?_, supported.names⟩
      obtain ⟨other, inside, same⟩ := List.mem_map.mp member
      exact unseenNames other inside (same ▸ List.mem_cons_self)
    · rw [List.map_cons, List.nodup_cons]
      refine ⟨fun member => ?_, supported.codes⟩
      obtain ⟨other, inside, same⟩ := List.mem_map.mp member
      exact unseenCodes other inside (same ▸ List.mem_cons_self)
    · intro other member
      cases member with
      | head => exact freshName
      | tail _ member => exact fun seen => unseenNames other member (List.mem_cons_of_mem _ seen)
    · intro other member
      cases member with
      | head => exact freshCode
      | tail _ member => exact fun seen => unseenCodes other member (List.mem_cons_of_mem _ seen)

theorem supportedErrors_of_compile {source : String} {file : LaicFile}
    (accepted : compile source = .ok file) :
    ∀ skill ∈ file.skills, SupportedErrors skill.errors := by
  intro skill member
  have checked := validateSkill_of_compile accepted skill member
  simp only [validateSkill, Except.bind_eq_ok] at checked
  obtain ⟨_, _, _, _, _, _, _, _, errors⟩ := checked
  exact (validateErrorsFrom_eq_ok errors).1

/-! ## The emitted enums -/

/-- The keywords of Rust, reserved ones included. -/
def rustKeywords : List String :=
  ["as", "async", "await", "break", "const", "continue", "crate", "dyn", "else", "enum", "extern",
    "false", "fn", "for", "if", "impl", "in", "let", "loop", "match", "mod", "move", "mut", "pub",
    "ref", "return", "self", "Self", "static", "struct", "super", "trait", "true", "type", "unsafe",
    "use", "where", "while", "abstract", "become", "box", "do", "final", "gen", "macro", "override",
    "priv", "try", "typeof", "unsized", "virtual", "yield"]

/-- An ASCII identifier of Rust that is no keyword. -/
def isRustIdentifier (text : String) : Bool :=
  (match text.toList with
    | [] => false
    | first :: rest => (first.isAlpha || (first == '_' && !rest.isEmpty)) &&
      rest.all fun c => c.isAlphanum || c == '_') && !rustKeywords.contains text

/-- The Rust enum with its methods: the variants with their discriminants, the arms of
`from_code` and the arms of `name`. -/
structure RustErrorEnum where
  name : String
  variants : List (String × UInt16)
  fromCodeArms : List (UInt16 × String)
  nameArms : List (String × String)

namespace RustErrorEnum

def fromCode (enum : RustErrorEnum) (code : UInt16) : Option String :=
  enum.fromCodeArms.lookup code

/-- The discriminant of a variant. -/
def code (enum : RustErrorEnum) (variant : String) : Option UInt16 := enum.variants.lookup variant

def nameOf (enum : RustErrorEnum) (variant : String) : Option String := enum.nameArms.lookup variant

/-- The name and the code of every variant. -/
def nameCodes (enum : RustErrorEnum) : List (Option String × Option UInt16) :=
  enum.variants.map fun variant => (enum.nameOf variant.1, enum.code variant.1)

end RustErrorEnum

/-- The Rust enum of a skill's errors. -/
def rustErrorEnum (skill : SkillDef) : RustErrorEnum where
  name := errorEnumName skill
  variants := skill.errors.map fun variant => (toPascalCase variant.name, variant.code)
  fromCodeArms := skill.errors.map fun variant => (variant.code, toPascalCase variant.name)
  nameArms := skill.errors.map fun variant => (toPascalCase variant.name, variant.name)

/-- The members of an enum as its class holds them, with names of their own. -/
def enumMembers (errors : List ErrorVariant) : Option (List (String × UInt16)) :=
  if (errors.map ErrorVariant.name).Nodup then
    some (errors.map fun variant => (variant.name, variant.code))
  else none

/-- The members of the Python `IntEnum`; its metaclass rejects a member named `mro`. -/
def pythonErrorEnum (skill : SkillDef) : Option (List (String × UInt16)) :=
  if "mro" ∈ skill.errors.map ErrorVariant.name then none else enumMembers skill.errors

/-- The members of the TypeScript enum. -/
def typescriptErrorEnum (skill : SkillDef) : Option (List (String × UInt16)) :=
  enumMembers skill.errors

/-! ## Agreement -/

/-- The three enums of a skill define one bijection between names and codes. -/
structure ErrorEnumsAgree (skill : SkillDef) : Prop where
  variantsDistinct : ((rustErrorEnum skill).variants.map Prod.fst).Nodup
  variantsLegal : ∀ variant ∈ (rustErrorEnum skill).variants, isRustIdentifier variant.1 = true
  fromCode_code : ∀ variant ∈ (rustErrorEnum skill).variants, ∃ code,
    (rustErrorEnum skill).code variant.1 = some code ∧
      (rustErrorEnum skill).fromCode code = some variant.1
  code_fromCode : ∀ code variant, (rustErrorEnum skill).fromCode code = some variant →
    (rustErrorEnum skill).code variant = some code
  fromCode_other : ∀ code, (∀ variant ∈ skill.errors, variant.code ≠ code) →
    (rustErrorEnum skill).fromCode code = none
  sameMembers : ∃ members, pythonErrorEnum skill = some members ∧
    typescriptErrorEnum skill = some members ∧
    (rustErrorEnum skill).nameCodes =
      members.map (fun member => (some member.1, some member.2)) ∧
    (members.map Prod.fst).Nodup ∧ (members.map Prod.snd).Nodup

/-- Error names for which the enums agree: no two have the same letters and digits, case aside, with
the same letters starting a word, and none is `self` or `mro`, the first in any case and with
underscores after it. -/
structure ErrorNamesApart (errors : List ErrorVariant) : Prop where
  distinct : errors.Pairwise fun left right => wordLetters left.name ≠ wordLetters right.name
  notSelf : ∀ variant ∈ errors, wordLetters variant.name ≠ wordLetters "self"
  notMro : ∀ variant ∈ errors, variant.name ≠ "mro"

instance (errors : List ErrorVariant) : Decidable (ErrorNamesApart errors) :=
  decidable_of_iff
    ((errors.Pairwise fun left right => wordLetters left.name ≠ wordLetters right.name) ∧
      (∀ variant ∈ errors, wordLetters variant.name ≠ wordLetters "self") ∧
      ∀ variant ∈ errors, variant.name ≠ "mro")
    ⟨fun ⟨distinct, notSelf, notMro⟩ => ⟨distinct, notSelf, notMro⟩,
      fun ⟨distinct, notSelf, notMro⟩ => ⟨distinct, notSelf, notMro⟩⟩

/-! ## Rust identifiers -/

theorem isAlphanum_toUpper {c : Char} (holds : c.isAlphanum = true) : c.toUpper.isAlphanum = true := by
  by_cases isAlpha : c.isAlpha = true
  · simp [Char.isAlphanum, isAlpha]
  · have notLower : ¬ c.isLower = true := fun lower => isAlpha (by simp [Char.isAlpha, lower])
    rwa [Char.toUpper_eq_of_not_isLower notLower]

theorem isAlphanum_toLower {c : Char} (holds : c.isAlphanum = true) : c.toLower.isAlphanum = true := by
  by_cases isAlpha : c.isAlpha = true
  · simp [Char.isAlphanum, isAlpha]
  · have notUpper : ¬ c.isUpper = true := fun upper => isAlpha (by simp [Char.isAlpha, upper])
    rwa [Char.toLower_eq_of_not_isUpper notUpper]

theorem mem_capitalize {part : List Char} {c : Char} (member : c ∈ capitalize part) :
    ∃ d ∈ part, c = d.toUpper ∨ c = d.toLower := by
  cases part with
  | nil => cases member
  | cons first rest =>
    cases member with
    | head => exact ⟨first, List.mem_cons_self, .inl rfl⟩
    | tail _ member =>
      obtain ⟨d, inside, rfl⟩ := List.mem_map.mp member
      exact ⟨d, List.mem_cons_of_mem first inside, .inr rfl⟩

/-- The case conversion keeps to letters and digits. -/
theorem isAlphanum_of_mem_pascalChars {name : List Char} (isIdent : IsIdent name) {c : Char}
    (member : c ∈ pascalChars name) : c.isAlphanum = true := by
  obtain ⟨capitalized, inWords, member⟩ := List.mem_flatten.mp member
  obtain ⟨part, isPart, rfl⟩ := List.mem_map.mp inWords
  obtain ⟨d, inside, written⟩ := mem_capitalize member
  obtain ⟨inName, notUnderscore⟩ := Text.mem_of_mem_splitOn isPart inside
  obtain ⟨first, rest, rfl, isAlpha, all⟩ := isIdent
  have isAlphanum : d.isAlphanum = true := by
    cases inName with
    | head => simp [Char.isAlphanum, isAlpha]
    | tail _ inRest => exact (all d inRest).resolve_right notUnderscore
  obtain rfl | rfl := written
  · exact isAlphanum_toUpper isAlphanum
  · exact isAlphanum_toLower isAlphanum

/-- The case conversion of an identifier starts with a capital. -/
theorem pascalChars_head {name : List Char} (isIdent : IsIdent name) :
    ∃ first rest, pascalChars name = first :: rest ∧ first.isUpper = true := by
  obtain ⟨first, rest, rfl, isAlpha, -⟩ := isIdent
  have notUnderscore : first ≠ '_' := by
    rintro rfl
    exact absurd isAlpha (by decide)
  obtain ⟨part, parts, split⟩ := Text.splitOn_cons notUnderscore rest
  refine ⟨first.toUpper, part.map Char.toLower ++ (parts.map capitalize).flatten, ?_, ?_⟩
  · simp [pascalChars, split, capitalize]
  · rwa [Char.isUpper_toUpper_eq_isAlpha]

theorem capital_keyword {text : String} {first : Char} {rest : List Char}
    (chars : text.toList = first :: rest) (capital : first.isUpper = true)
    (keyword : text ∈ rustKeywords) : text = "Self" := by
  have lower : ∀ word ∈ rustKeywords, (word.toList.head?.any Char.isUpper) = true → word = "Self" := by
    decide
  apply lower text keyword
  simp [chars, capital]

/-- The variant of a name is an identifier of Rust unless it is `Self`. -/
theorem isRustIdentifier_toPascalCase {name : String} (isIdent : IsIdent name.toList) :
    isRustIdentifier (toPascalCase name) = true ↔ toPascalCase name ≠ "Self" := by
  obtain ⟨first, rest, chars, capital⟩ := pascalChars_head isIdent
  have text : (toPascalCase name).toList = first :: rest := by
    rw [toPascalCase, String.toList_ofList, chars]
  have isAlpha : first.isAlpha = true := by simp [Char.isAlpha, capital]
  have wordChars : (rest.all fun c => c.isAlphanum || c == '_') = true := by
    rw [List.all_eq_true]
    intro c member
    have inside : c ∈ pascalChars name.toList := chars ▸ List.mem_cons_of_mem first member
    simp [isAlphanum_of_mem_pascalChars isIdent inside]
  constructor
  · intro legal same
    rw [same] at legal
    exact absurd legal (by decide)
  · intro different
    have notKeyword : toPascalCase name ∉ rustKeywords := fun keyword =>
      different (capital_keyword text capital keyword)
    simp [isRustIdentifier, text, isAlpha, wordChars, notKeyword]

theorem toPascalCase_self : toPascalCase "self" = "Self" := by decide

/-! ## When the enums agree -/

/-- The variants are distinct when the names differ in what the conversion keeps. -/
theorem variants_nodup_iff (skill : SkillDef) :
    ((rustErrorEnum skill).variants.map Prod.fst).Nodup ↔
      skill.errors.Pairwise fun left right => wordLetters left.name ≠ wordLetters right.name := by
  rw [rustErrorEnum, List.map_map, List.Nodup, List.pairwise_map]
  simp only [Function.comp_def, ne_eq, toPascalCase_eq_iff]

theorem variants_legal_iff {skill : SkillDef}
    (named : ∀ variant ∈ skill.errors, IsIdent variant.name.toList) :
    (∀ variant ∈ (rustErrorEnum skill).variants, isRustIdentifier variant.1 = true) ↔
      ∀ variant ∈ skill.errors, wordLetters variant.name ≠ wordLetters "self" := by
  simp only [rustErrorEnum, List.forall_mem_map]
  refine forall₂_congr fun variant member => ?_
  rw [isRustIdentifier_toPascalCase (named variant member), ← toPascalCase_self, ne_eq,
    toPascalCase_eq_iff]

section Agreement

variable {skill : SkillDef} (supported : SupportedErrors skill.errors)
  (distinct : (skill.errors.map fun variant => toPascalCase variant.name).Nodup)
include distinct

theorem code_of_mem {variant : ErrorVariant} (member : variant ∈ skill.errors) :
    (rustErrorEnum skill).code (toPascalCase variant.name) = some variant.code :=
  AssocList.lookup_map ErrorVariant.code distinct member

theorem nameOf_of_mem {variant : ErrorVariant} (member : variant ∈ skill.errors) :
    (rustErrorEnum skill).nameOf (toPascalCase variant.name) = some variant.name :=
  AssocList.lookup_map ErrorVariant.name distinct member

end Agreement

theorem fromCode_of_mem {skill : SkillDef} (supported : SupportedErrors skill.errors)
    {variant : ErrorVariant} (member : variant ∈ skill.errors) :
    (rustErrorEnum skill).fromCode variant.code = some (toPascalCase variant.name) :=
  AssocList.lookup_map (fun v : ErrorVariant => toPascalCase v.name) supported.codes member

/-- What `from_code` finds is a variant with that code. -/
theorem mem_of_fromCode {skill : SkillDef} {code : UInt16} {ident : String}
    (found : (rustErrorEnum skill).fromCode code = some ident) :
    ∃ variant ∈ skill.errors, variant.code = code ∧ toPascalCase variant.name = ident := by
  obtain ⟨variant, member, same⟩ := List.mem_map.mp (AssocList.mem_of_lookup found)
  cases same
  exact ⟨variant, member, rfl, rfl⟩

/-- The error enums of an accepted contract agree exactly when its error names are apart. -/
theorem errorEnumsAgree_iff {source : String} {file : LaicFile}
    (accepted : compile source = .ok file) :
    ∀ skill ∈ skillsWithErrors file, ErrorEnumsAgree skill ↔ ErrorNamesApart skill.errors := by
  intro skill withErrors
  have inFile : skill ∈ file.skills := List.mem_of_mem_filter withErrors
  have supported := supportedErrors_of_compile accepted skill inFile
  have named := (named_of_compile accepted skill inFile).errors
  constructor
  · intro agree
    refine ⟨(variants_nodup_iff skill).mp agree.variantsDistinct,
      (variants_legal_iff named).mp agree.variantsLegal, fun variant member isMro => ?_⟩
    obtain ⟨members, python, -⟩ := agree.sameMembers
    have rejected : "mro" ∈ skill.errors.map ErrorVariant.name :=
      isMro ▸ List.mem_map_of_mem member
    rw [pythonErrorEnum, if_pos rejected] at python
    cases python
  · intro apart
    have variantsDistinct := (variants_nodup_iff skill).mpr apart.distinct
    have distinct : (skill.errors.map fun variant => toPascalCase variant.name).Nodup := by
      simpa [rustErrorEnum, Function.comp_def] using variantsDistinct
    refine ⟨variantsDistinct, (variants_legal_iff named).mpr apart.notSelf, ?_, ?_, ?_, ?_⟩
    · intro entry member
      obtain ⟨variant, inErrors, rfl⟩ := List.mem_map.mp member
      exact ⟨variant.code, code_of_mem distinct inErrors, fromCode_of_mem supported inErrors⟩
    · intro code ident found
      obtain ⟨variant, inErrors, rfl, rfl⟩ := mem_of_fromCode found
      exact code_of_mem distinct inErrors
    · intro code absent
      cases found : (rustErrorEnum skill).fromCode code with
      | none => rfl
      | some ident =>
        obtain ⟨variant, inErrors, same, -⟩ := mem_of_fromCode found
        exact absurd same (absent variant inErrors)
    · have notMro : ¬ "mro" ∈ skill.errors.map ErrorVariant.name := by
        intro member
        obtain ⟨variant, inErrors, isMro⟩ := List.mem_map.mp member
        exact apart.notMro variant inErrors isMro
      have members : enumMembers skill.errors =
          some (skill.errors.map fun variant => (variant.name, variant.code)) :=
        if_pos supported.names
      have python : pythonErrorEnum skill = enumMembers skill.errors := if_neg notMro
      refine ⟨_, python.trans members, members, ?_, ?_, ?_⟩
      · -- every variant is found under its own identifier
        simp only [RustErrorEnum.nameCodes, rustErrorEnum, List.map_map]
        apply List.map_congr_left
        intro variant inErrors
        exact congrArg₂ Prod.mk (nameOf_of_mem distinct inErrors) (code_of_mem distinct inErrors)
      · simpa [Function.comp_def] using supported.names
      · simpa [Function.comp_def] using supported.codes

theorem errorEnumsAgree_iff_two_errors :
    ∃ file, compile (skillSource "I" "x:bool;" "O" "x:bool;" "error\x7bA=1;B=2;\x7d") = .ok file ∧
      ∃ skill ∈ skillsWithErrors file, ErrorEnumsAgree skill := by
  obtain ⟨file, accepted, apart⟩ : ∃ file,
      compile (skillSource "I" "x:bool;" "O" "x:bool;" "error\x7bA=1;B=2;\x7d") = .ok file ∧
        ((skillsWithErrors file).any fun skill => decide (ErrorNamesApart skill.errors)) = true :=
    Except.exists_of_any (by decide +kernel)
  obtain ⟨skill, member, apart⟩ := List.any_eq_true.mp apart
  exact ⟨file, accepted, skill, member,
    (errorEnumsAgree_iff accepted skill member).mpr (of_decide_eq_true apart)⟩

/-- Names that differ in letter case only are distinct for validation and one variant in Rust. -/
theorem errorEnumsAgree_counterexample :
    ¬ ∀ source file, compile source = .ok file → ∀ skill ∈ skillsWithErrors file,
      ErrorEnumsAgree skill := by
  intro all
  obtain ⟨file, accepted, repeated⟩ : ∃ file,
      compile (skillSource "I" "x:bool;" "O" "x:bool;" "error\x7bA=1;a=2;\x7d") = .ok file ∧
        ((skillsWithErrors file).any fun skill =>
          !decide ((rustErrorEnum skill).variants.map Prod.fst).Nodup) = true :=
    Except.exists_of_any (by decide +kernel)
  obtain ⟨skill, member, repeated⟩ := List.any_eq_true.mp repeated
  simp [(all _ file accepted skill member).variantsDistinct] at repeated

end Laic
