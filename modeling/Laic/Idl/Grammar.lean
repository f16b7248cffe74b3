import Laic.Lib.Peg

/-! # Grammar of the interface language

The rules of `laic.pest`, in their order.  White space and comments are skipped
between the parts of a rule, and never inside an atomic one.  `laic_type` is the only
rule that refers to itself; it is unrolled as deep as the input is long, which
`laicType_eq` shows to be deep enough. -/

namespace Laic

open Peg

/-- The rules that produce a pair. -/
inductive Rule where
  | eoi | file | versionDecl | skillDef | idDecl | inputDef | outputDef | fieldDef
  | defaultValue | laicType | mapType | listType | optionalType | tensorType | tensorDtype
  | dimList | dimension | errorDef | errorVariant | ident | literal | stringLiteral
  | floatLiteral | integerLiteral | boolLiteral | integer
  deriving DecidableEq, Repr

/-- The rule's name in the grammar. -/
def Rule.debug : Rule → String
  | .eoi => "EOI"
  | .file => "file"
  | .versionDecl => "version_decl"
  | .skillDef => "skill_def"
  | .idDecl => "id_decl"
  | .inputDef => "input_def"
  | .outputDef => "output_def"
  | .fieldDef => "field_def"
  | .defaultValue => "default_value"
  | .laicType => "laic_type"
  | .mapType => "map_type"
  | .listType => "list_type"
  | .optionalType => "optional_type"
  | .tensorType => "tensor_type"
  | .tensorDtype => "tensor_dtype"
  | .dimList => "dim_list"
  | .dimension => "dimension"
  | .errorDef => "error_def"
  | .errorVariant => "error_variant"
  | .ident => "ident"
  | .literal => "literal"
  | .stringLiteral => "string_literal"
  | .floatLiteral => "float_literal"
  | .integerLiteral => "integer_literal"
  | .boolLiteral => "bool_literal"
  | .integer => "integer"

namespace Grammar

def whitespace : Expr Rule := oneOf [lit " ", lit "\t", lit "\r", lit "\n"]

def comment : Expr Rule := concat [lit "//", star (concat [notAt (lit "\n"), any])]

/-- What is skipped between two parts of a rule that is not atomic. -/
def skip : Expr Rule := concat [star whitespace, star (concat [comment, star whitespace])]

/-- The parts of a rule that is not atomic. -/
def spaced (es : List (Expr Rule)) : Expr Rule := sequence skip es

/-! ## Tokens -/

def asciiDigit : Expr Rule := satisfy Char.isDigit

def asciiDigits : Expr Rule := concat [asciiDigit, star asciiDigit]

def ident : Expr Rule :=
  node .ident (concat [satisfy Char.isAlpha, star (satisfy fun c => c.isAlphanum || c == '_')])

def stringLiteral : Expr Rule :=
  node .stringLiteral (concat [lit "\"", star (concat [notAt (lit "\""), any]), lit "\""])

def floatLiteral : Expr Rule :=
  node .floatLiteral (concat [opt (lit "-"), asciiDigits, lit ".", asciiDigits])

def integerLiteral : Expr Rule := node .integerLiteral (concat [opt (lit "-"), asciiDigits])

def boolLiteral : Expr Rule := node .boolLiteral (oneOf [lit "true", lit "false"])

def integer : Expr Rule := node .integer asciiDigits

def literal : Expr Rule :=
  node .literal (oneOf [stringLiteral, floatLiteral, integerLiteral, boolLiteral])

/-! ## Types -/

def dimension : Expr Rule := node .dimension (oneOf [integer, lit "_", ident])

def dimList : Expr Rule :=
  node .dimList (spaced [dimension, many skip (spaced [lit ",", dimension])])

def tensorDtype : Expr Rule :=
  node .tensorDtype (oneOf [lit "f32", lit "f64", lit "i8", lit "i16", lit "i32", lit "i64",
    lit "u8", lit "bool"])

def tensorType : Expr Rule :=
  node .tensorType
    (spaced [lit "tensor", lit "<", tensorDtype, lit ">", lit "[", dimList, lit "]"])

def mapType (laicType : Expr Rule) : Expr Rule :=
  node .mapType (spaced [lit "map", lit "<", laicType, lit ",", laicType, lit ">"])

def listType (laicType : Expr Rule) : Expr Rule :=
  node .listType (spaced [lit "list", lit "<", laicType, lit ">"])

def optionalType (laicType : Expr Rule) : Expr Rule :=
  node .optionalType (spaced [lit "optional", lit "<", laicType, lit ">"])

/-- The body of `laic_type`, the rule itself left open. -/
def laicTypeBody (laicType : Expr Rule) : Expr Rule :=
  node .laicType (oneOf [mapType laicType, listType laicType, optionalType laicType, tensorType,
    lit "string", lit "bytes", lit "bool", lit "i8", lit "i16", lit "i32", lit "i64", lit "u8",
    lit "f32", lit "f64"])

/-- Types nested less than `depth` deep. -/
def laicTypeUpTo : Nat → Expr Rule
  | 0 => fun _ => none
  | depth + 1 => laicTypeBody (laicTypeUpTo depth)

def laicType : Expr Rule := fun input => laicTypeUpTo (input.length + 1) input

/-! ## Declarations -/

def defaultValue : Expr Rule := node .defaultValue (spaced [lit "=", literal])

def fieldDef : Expr Rule :=
  node .fieldDef (spaced [ident, lit ":", laicType, opt defaultValue, lit ";"])

def inputDef : Expr Rule :=
  node .inputDef (spaced [lit "input", ident, lit "\x7b", many skip fieldDef, lit "\x7d"])

def outputDef : Expr Rule :=
  node .outputDef (spaced [lit "output", ident, lit "\x7b", many skip fieldDef, lit "\x7d"])

def errorVariant : Expr Rule := node .errorVariant (spaced [ident, lit "=", integer, lit ";"])

def errorDef : Expr Rule :=
  node .errorDef (spaced [lit "error", lit "\x7b", many1 skip errorVariant, lit "\x7d"])

def idDecl : Expr Rule := node .idDecl (spaced [lit "id", lit "=", stringLiteral, lit ";"])

def skillDef : Expr Rule :=
  node .skillDef (spaced [lit "skill", ident, lit "\x7b", idDecl, inputDef, outputDef, opt errorDef,
    lit "\x7d"])

def versionDecl : Expr Rule :=
  node .versionDecl (spaced [lit "version", stringLiteral, lit ";"])

/-- The whole file; the start of input consumes nothing and the end of input is a pair. -/
def file : Expr Rule :=
  node .file (spaced [empty, versionDecl, many1 skip skillDef, node .eoi (notAt any)])

/-! ## The recursive rule -/

theorem skip_leavesSuffix : LeavesSuffix skip := by
  have whitespaces : LeavesSuffix (star whitespace) :=
    (LeavesSuffix.oneOf (by simp [lit_leavesSuffix])).star
  have line : LeavesSuffix (star (concat [notAt (lit "\n"), any]) : Expr Rule) :=
    (LeavesSuffix.concat (by simp [notAt_leavesSuffix, any, satisfy_leavesSuffix])).star
  have comments : LeavesSuffix comment :=
    LeavesSuffix.concat (by simp [lit_leavesSuffix, line])
  have block : LeavesSuffix (star (concat [comment, star whitespace])) :=
    (LeavesSuffix.concat (by simp [comments, whitespaces])).star
  exact LeavesSuffix.concat (by simp [whitespaces, block])

theorem spaced_leavesSuffix {es : List (Expr Rule)} (suffixes : ∀ e ∈ es, LeavesSuffix e) :
    LeavesSuffix (spaced es) :=
  LeavesSuffix.sequence skip_leavesSuffix suffixes

theorem tensorType_leavesSuffix : LeavesSuffix tensorType := by
  have digits : LeavesSuffix asciiDigits :=
    LeavesSuffix.concat (by simp [asciiDigit, satisfy_leavesSuffix, LeavesSuffix.star])
  have name : LeavesSuffix ident :=
    (LeavesSuffix.concat (by simp [satisfy_leavesSuffix, LeavesSuffix.star])).node _
  have dim : LeavesSuffix dimension :=
    (LeavesSuffix.oneOf (by simp [integer, digits.node, lit_leavesSuffix, name])).node _
  have more : LeavesSuffix (many skip (spaced [lit ",", dimension])) :=
    LeavesSuffix.many skip_leavesSuffix (spaced_leavesSuffix (by simp [lit_leavesSuffix, dim]))
  have dims : LeavesSuffix dimList := (spaced_leavesSuffix (by simp [dim, more])).node _
  have dtype : LeavesSuffix tensorDtype :=
    (LeavesSuffix.oneOf (by simp [lit_leavesSuffix])).node _
  exact (spaced_leavesSuffix (by simp [lit_leavesSuffix, dtype, dims])).node _

theorem laicTypeBody_leavesSuffix {inner : Expr Rule} (suffix : LeavesSuffix inner) :
    LeavesSuffix (laicTypeBody inner) := by
  have map : LeavesSuffix (mapType inner) :=
    (spaced_leavesSuffix (by simp [lit_leavesSuffix, suffix])).node _
  have list : LeavesSuffix (listType inner) :=
    (spaced_leavesSuffix (by simp [lit_leavesSuffix, suffix])).node _
  have optional : LeavesSuffix (optionalType inner) :=
    (spaced_leavesSuffix (by simp [lit_leavesSuffix, suffix])).node _
  exact (LeavesSuffix.oneOf
    (by simp [map, list, optional, tensorType_leavesSuffix, lit_leavesSuffix])).node _

theorem laicTypeUpTo_leavesSuffix (depth : Nat) : LeavesSuffix (laicTypeUpTo depth) := by
  induction depth with
  | zero =>
    intro input pairs rest matched
    cases matched
  | succ depth ih => exact laicTypeBody_leavesSuffix ih

/-- The parts behind a keyword only see shorter inputs. -/
theorem keyword_agree {n : Nat} {keyword : String} (nonempty : keyword.toList ≠ []) (rule : Rule)
    (parts : List (Expr Rule × Expr Rule))
    (agree : ∀ part ∈ parts, LeavesSuffix part.1 ∧ AgreeBelow n part.1 part.2) :
    AgreeBelow (n + 1) (node rule (spaced (lit keyword :: parts.map Prod.fst)))
      (node rule (spaced (lit keyword :: parts.map Prod.snd))) :=
  (AgreeBelow.guarded skip_leavesSuffix (lit_progresses nonempty) parts agree).node rule

/-- The body of `laic_type` applies the rule behind a keyword only. -/
theorem laicTypeBody_agree {n : Nat} {left right : Expr Rule} (suffix : LeavesSuffix left)
    (agree : AgreeBelow n left right) :
    AgreeBelow (n + 1) (laicTypeBody left) (laicTypeBody right) := by
  have same (word : String) : LeavesSuffix (lit word : Expr Rule) ∧
      AgreeBelow n (lit word) (lit word : Expr Rule) :=
    ⟨lit_leavesSuffix word, AgreeBelow.refl n _⟩
  have map : AgreeBelow (n + 1) (mapType left) (mapType right) :=
    keyword_agree (by decide) .mapType
      [(lit "<", lit "<"), (left, right), (lit ",", lit ","), (left, right), (lit ">", lit ">")]
      (by simp [same, suffix, agree])
  have list : AgreeBelow (n + 1) (listType left) (listType right) :=
    keyword_agree (by decide) .listType
      [(lit "<", lit "<"), (left, right), (lit ">", lit ">")] (by simp [same, suffix, agree])
  have optional : AgreeBelow (n + 1) (optionalType left) (optionalType right) :=
    keyword_agree (by decide) .optionalType
      [(lit "<", lit "<"), (left, right), (lit ">", lit ">")] (by simp [same, suffix, agree])
  exact (map.orElse (list.orElse (optional.orElse (AgreeBelow.refl _ _)))).node _

/-- More depth than characters changes nothing. -/
theorem laicTypeUpTo_agree {n depth : Nat} (enough : n ≤ depth) :
    AgreeBelow n (laicTypeUpTo depth) (laicTypeUpTo n) := by
  induction n generalizing depth with
  | zero =>
    intro input short
    omega
  | succ n ih =>
    cases depth with
    | zero => omega
    | succ depth =>
      exact laicTypeBody_agree (laicTypeUpTo_leavesSuffix depth) (ih (by omega))

theorem laicType_agree (n : Nat) : AgreeBelow n (laicTypeUpTo n) laicType := by
  intro input short
  exact laicTypeUpTo_agree short input (by omega)

/-- `laic_type` is the rule of the grammar: its body, applied to itself. -/
theorem laicType_eq : laicType = laicTypeBody laicType := by
  funext input
  exact laicTypeBody_agree (laicTypeUpTo_leavesSuffix _) (laicType_agree input.length) input
    (Nat.lt_succ_self _)

end Grammar

end Laic
