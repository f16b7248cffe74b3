import Laic.Idl.Identifiers
import Mathlib

/-! # Names in generated code

The case conversion of the generators, and the names of the types they declare at file
scope.  The three generators walk the skills in the same order and declare the same
names. -/

namespace Laic

/-! ## Case conversion -/

/-- One part of a name between underscores. -/
def capitalize : List Char → List Char
  | [] => []
  | first :: rest => first.toUpper :: rest.map Char.toLower

/-- `SCREAMING_SNAKE_CASE` or `snake_case` to `PascalCase`.  The names it is applied to are
ASCII, for which `Char.toUpper` and `Char.toLower` are the conversions of the source. -/
def pascalChars (name : List Char) : List Char :=
  ((Text.splitOn '_' name).map capitalize).flatten

def toPascalCase (name : String) : String := String.ofList (pascalChars name.toList)

/-- The letters and digits of a part in lower case, each with whether it is a letter that
starts the part. -/
def partLetters : List Char → List (Char × Bool)
  | [] => []
  | first :: rest => (first.toLower, first.isAlpha) :: rest.map fun c => (c.toLower, false)

/-- What the case conversion keeps of a name. -/
def wordLetters (name : String) : List (Char × Bool) :=
  ((Text.splitOn '_' name.toList).map partLetters).flatten

/-- A letter as the conversion writes it. -/
def writeLetter (letter : Char × Bool) : Char := if letter.2 then letter.1.toUpper else letter.1

theorem capitalize_eq : capitalize = fun part => (partLetters part).map writeLetter := by
  funext part
  cases part with
  | nil => rfl
  | cons first rest =>
    have head : writeLetter (first.toLower, first.isAlpha) = first.toUpper := by
      by_cases isAlpha : first.isAlpha = true
      · simp [writeLetter, isAlpha]
      · have notLower : ¬ first.isLower = true := fun lower => isAlpha (by simp [Char.isAlpha, lower])
        have notUpper : ¬ first.isUpper = true := fun upper => isAlpha (by simp [Char.isAlpha, upper])
        simp [writeLetter, isAlpha, Char.toLower_eq_of_not_isUpper notUpper,
          Char.toUpper_eq_of_not_isLower notLower]
    have tail : ((fun c => writeLetter (c.toLower, false)) : Char → Char) = Char.toLower := rfl
    simp only [capitalize, partLetters, List.map_cons, List.map_map, Function.comp_def, head, tail]

theorem partLetters_eq :
    partLetters = fun part => (capitalize part).map fun c => (c.toLower, c.isUpper) := by
  funext part
  cases part with
  | nil => rfl
  | cons first rest => simp [capitalize, partLetters, Function.comp_def]

theorem pascalChars_eq (name : String) :
    pascalChars name.toList = (wordLetters name).map writeLetter := by
  rw [pascalChars, wordLetters, List.map_flatten, List.map_map, capitalize_eq]
  rfl

theorem wordLetters_eq (name : String) :
    wordLetters name = (pascalChars name.toList).map fun c => (c.toLower, c.isUpper) := by
  rw [pascalChars, wordLetters, List.map_flatten, List.map_map, partLetters_eq]
  rfl

/-- The conversion forgets nothing but underscores and the case of letters: which of them start a
word shows in its capitals. -/
theorem toPascalCase_eq_iff {left right : String} :
    toPascalCase left = toPascalCase right ↔ wordLetters left = wordLetters right := by
  rw [toPascalCase, toPascalCase, String.ofList_inj]
  constructor
  · intro same
    rw [wordLetters_eq, wordLetters_eq, same]
  · intro same
    rw [pascalChars_eq, pascalChars_eq, same]

/-! ## Declarations at file scope -/

/-- The name of a skill's error enum. -/
def errorEnumName (skill : SkillDef) : String := toPascalCase skill.name ++ "Error"

/-- What a generator declares at file scope: a struct (dataclass, class), or an enum. -/
inductive Declaration where
  | struct (skill : SkillDef) (direction : String) (structDef : StructDef)
  | errorEnum (skill : SkillDef)

def Declaration.name : Declaration → String
  | .struct _ _ structDef => structDef.name
  | .errorEnum skill => errorEnumName skill

/-- The error enum of a skill that has errors. -/
def errorDeclarations (skill : SkillDef) : List Declaration :=
  if skill.errors.isEmpty then [] else [.errorEnum skill]

/-- The declarations of a file, in the order each of the generators writes them. -/
def declarations (file : LaicFile) : List Declaration :=
  file.skills.flatMap fun skill =>
    .struct skill "input" skill.input :: .struct skill "output" skill.output ::
      errorDeclarations skill

/-- The type names each generator emits. -/
def typeNames (file : LaicFile) : List String := (declarations file).map Declaration.name

/-- The names of a file's structs. -/
def structNames (file : LaicFile) : List String :=
  file.structs.map fun entry => entry.2.2.name

/-- The skills that have an error block. -/
def skillsWithErrors (file : LaicFile) : List SkillDef :=
  file.skills.filter fun skill => !skill.errors.isEmpty

/-- The name is the letters and digits of the other, with a capital just where one of its words
starts, and `Error` behind them. -/
def NamesErrorOf (name skillName : String) : Prop :=
  ∃ letters, name.toList = letters ++ "Error".toList ∧
    letters.map (fun c => (c.toLower, c.isUpper)) = wordLetters skillName

/-- Names of a file for which no two of its types share one: the structs have names of their
own, the skills with errors differ in their letters and digits, case aside, or in which letters
start a word, and no struct is named as the errors of a skill. -/
structure TypeNamesApart (file : LaicFile) : Prop where
  structs : (structNames file).Nodup
  skills : (skillsWithErrors file).Pairwise fun left right =>
    wordLetters left.name ≠ wordLetters right.name
  apart : ∀ name ∈ structNames file, ∀ skill ∈ skillsWithErrors file, ¬ NamesErrorOf name skill.name

theorem errorEnumName_eq_iff {left right : SkillDef} :
    errorEnumName left = errorEnumName right ↔ wordLetters left.name = wordLetters right.name := by
  rw [errorEnumName, errorEnumName, String.append_left_inj, toPascalCase_eq_iff]

/-- A letter is known from its lower case and whether it is a capital. -/
theorem writeLetter_eq (c : Char) : writeLetter (c.toLower, c.isUpper) = c := by
  by_cases isUpper : c.isUpper = true
  · have notLower := Char.not_isLower_of_isUpper isUpper
    simp [writeLetter, isUpper, Char.toUpper_eq_of_not_isLower notLower]
  · simp [writeLetter, isUpper, Char.toLower_eq_of_not_isUpper isUpper]

theorem eq_errorEnumName_iff {name : String} {skill : SkillDef} :
    name = errorEnumName skill ↔ NamesErrorOf name skill.name := by
  have written : (errorEnumName skill).toList = pascalChars skill.name.toList ++ "Error".toList := by
    rw [errorEnumName, String.toList_append, toPascalCase, String.toList_ofList]
  rw [← String.toList_inj, written]
  constructor
  · intro same
    exact ⟨_, same, (wordLetters_eq skill.name).symm⟩
  · rintro ⟨letters, same, spelled⟩
    rw [same, pascalChars_eq, ← spelled, List.map_map]
    simp [Function.comp_def, writeLetter_eq]

/-- The type names are the struct names and the names of the error enums. -/
theorem typeNames_perm (file : LaicFile) :
    (typeNames file).Perm (structNames file ++ (skillsWithErrors file).map errorEnumName) := by
  obtain ⟨version, skills⟩ := file
  simp only [typeNames, declarations, structNames, LaicFile.structs, skillsWithErrors]
  induction skills with
  | nil => rfl
  | cons skill skills ih =>
    simp only [List.flatMap_cons, List.map_append, List.map_cons, List.cons_append,
      List.nil_append, List.filter_cons]
    apply List.Perm.cons
    apply List.Perm.cons
    by_cases noErrors : skill.errors.isEmpty = true
    · have block : errorDeclarations skill = [] := if_pos noErrors
      simpa [block, noErrors] using ih
    · have block : errorDeclarations skill = [.errorEnum skill] := if_neg noErrors
      -- the enum stands before the later structs on the left and after them on the right
      have moved := (ih.cons (errorEnumName skill)).trans List.perm_middle.symm
      simpa [block, noErrors, Declaration.name] using moved

/-- The type names are unique exactly for files whose names are apart. -/
theorem typeNames_nodup_iff (file : LaicFile) :
    (typeNames file).Nodup ↔ TypeNamesApart file := by
  have enums : ((skillsWithErrors file).map errorEnumName).Nodup ↔
      (skillsWithErrors file).Pairwise fun left right =>
        wordLetters left.name ≠ wordLetters right.name := by
    rw [List.Nodup, List.pairwise_map]
    simp only [ne_eq, errorEnumName_eq_iff]
  rw [(typeNames_perm file).nodup_iff, List.nodup_append, enums]
  constructor
  · rintro ⟨structs, skills, apart⟩
    refine ⟨structs, skills, fun name member skill inSkills => ?_⟩
    rw [← eq_errorEnumName_iff]
    exact apart name member _ (List.mem_map_of_mem inSkills)
  · rintro ⟨structs, skills, apart⟩
    refine ⟨structs, skills, fun name member enumName inEnums => ?_⟩
    obtain ⟨skill, inSkills, rfl⟩ := List.mem_map.mp inEnums
    rw [ne_eq, eq_errorEnumName_iff]
    exact apart name member skill inSkills

/-- A source with one skill: the names of its structs, their fields and its error block. -/
def skillSource (inputName inputFields outputName outputFields errorBlock : String) : String :=
  "version \"1\";skill a\x7bid=\"a\";input " ++ inputName ++ "\x7b" ++ inputFields ++ "\x7doutput " ++
    outputName ++ "\x7b" ++ outputFields ++ "\x7d" ++ errorBlock ++ "\x7d"

/-- Validation does not compare type names: an input and an output may share one. -/
theorem typeNames_nodup_counterexample :
    ¬ ∀ source file, compile source = .ok file → (typeNames file).Nodup := by
  intro all
  obtain ⟨file, accepted, repeated⟩ : ∃ file,
      compile (skillSource "M" "x:bool;" "M" "x:bool;" "") = .ok file ∧
        (!decide (typeNames file).Nodup) = true :=
    Except.exists_of_any (by decide +kernel)
  simp [all _ file accepted] at repeated

end Laic
