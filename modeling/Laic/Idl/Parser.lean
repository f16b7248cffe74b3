import Laic.Lib.Except
import Laic.Lib.Text
import Laic.Idl.Ast
import Laic.Idl.Grammar

/-! # Parser: source text to AST

The functions that turn the grammar's token pairs into the tree, with the texts of
their errors, and `parse`, which runs them on the pairs of the whole file. -/

namespace Laic

open Peg (Pair)

/-- The text of a pair as a string. -/
def pairStr (pair : Pair Rule) : String := String.ofList pair.text

/-- The next pair and those after it, or an error that names what is missing. -/
def requireNext (pairs : List (Pair Rule)) (context : String) :
    Except CompileError (Pair Rule × List (Pair Rule)) :=
  match pairs with
  | [] => .error (.parse s!"expected {context}")
  | pair :: pairs => .ok (pair, pairs)

/-- Strip surrounding double quotes from a string literal token. -/
def stripQuotes (text : List Char) : List Char := Text.trimMatches (· == '"') text

/-- Every carriage return followed by a line feed becomes the line feed. -/
def replaceCrLf : List Char → List Char
  | '\r' :: '\n' :: text => '\n' :: replaceCrLf text
  | c :: text => c :: replaceCrLf text
  | [] => []

/-- Normalize physical line endings inside string literals. -/
def normalizeStringLiteralNewlines (text : List Char) : List Char :=
  (replaceCrLf text).map fun c => if c = '\r' then '\n' else c

/-! ## Numbers -/

/-- A signed decimal number in the 64-bit range. -/
def parseI64 (text : List Char) : Except String Int64 :=
  match text with
  | '-' :: digits =>
    match Text.parseUnsigned (2 ^ 63 + 1) digits with
    | .ok n => .ok (Int64.ofInt (-n))
    | .error "number too large to fit in target type" =>
      .error "number too small to fit in target type"
    | .error error => .error error
  | _ => (Text.parseUnsigned (2 ^ 63) text).map fun n => Int64.ofNat n

/-- The nearest 64-bit float of a number written with a decimal point; nothing else
reaches this function. -/
def parseF64 (text : List Char) : Except String F64 :=
  let (negative, unsigned) := match text with
    | '-' :: rest => (true, rest)
    | _ => (false, text)
  match Text.splitOn '.' unsigned with
  | [whole, fraction] =>
    if whole ≠ [] ∧ fraction ≠ [] ∧ whole.all Char.isDigit ∧ fraction.all Char.isDigit then
      .ok (FloatValue.round .binary64 negative
        (Text.digitsValue (whole ++ fraction) 0 / 10 ^ fraction.length))
    else .error "invalid float literal"
  | _ => .error "invalid float literal"

/-! ## Literals -/

def parseLiteral (pair : Pair Rule) : Except CompileError Literal := do
  let (child, _) ← requireNext pair.inner "literal value"
  match child.rule with
  | .stringLiteral =>
    .ok (.string (String.ofList (normalizeStringLiteralNewlines (stripQuotes child.text))))
  | .floatLiteral =>
    (parseF64 child.text).map .float |>.mapError fun error =>
      .parse s!"invalid float literal: {error}"
  | .integerLiteral =>
    (parseI64 child.text).map .integer |>.mapError fun error =>
      .parse s!"invalid integer literal: {error}"
  | .boolLiteral =>
    match pairStr child with
    | "true" => .ok (.bool true)
    | "false" => .ok (.bool false)
    | other => .error (.parse s!"invalid bool literal: '{other}'")
  | rule => .error (.parse ("unexpected literal rule: " ++ rule.debug))

/-! ## Types -/

def parseTensorDtype (pair : Pair Rule) : Except CompileError TensorElementType :=
  match String.ofList (Text.trim pair.text) with
  | "f32" => .ok .f32
  | "f64" => .ok .f64
  | "i8" => .ok .i8
  | "i16" => .ok .i16
  | "i32" => .ok .i32
  | "i64" => .ok .i64
  | "u8" => .ok .u8
  | "bool" => .ok .bool
  | other => .error (.parse s!"unknown tensor dtype: '{other}'")

def parseDimension (pair : Pair Rule) : Except CompileError Dimension :=
  let text := String.ofList (Text.trim pair.text)
  if text = "_" then .ok (.dynamic none)
  else match pair.inner with
    | child :: _ =>
      match child.rule with
      | .integer =>
        (Text.parseUnsigned (2 ^ 64) child.text).map (fun n => .fixed (UInt64.ofNat n))
          |>.mapError fun error => .parse s!"invalid dimension integer: {error}"
      | .ident => .ok (.dynamic (some (pairStr child)))
      | rule => .error (.parse ("unexpected dimension rule: " ++ rule.debug))
    | [] => .error (.parse s!"could not parse dimension: '{text}'")

def parseDimList (pair : Pair Rule) : Except CompileError (List Dimension) :=
  (pair.inner.filter fun dim => dim.rule == .dimension).mapM parseDimension

def parseTensorType (pair : Pair Rule) : Except CompileError LaicType := do
  let (dtype, inner) ← requireNext pair.inner "tensor dtype"
  let dtype ← parseTensorDtype dtype
  let (dimList, _) ← requireNext inner "tensor dimensions"
  let dims ← parseDimList dimList
  .ok (.tensor dtype dims)

/-- The keyword of a scalar type. -/
def parseScalarKeyword (text : String) : Except CompileError LaicType :=
  match text with
  | "string" => .ok .string
  | "bytes" => .ok .bytes
  | "bool" => .ok .bool
  | "i8" => .ok .i8
  | "i16" => .ok .i16
  | "i32" => .ok .i32
  | "i64" => .ok .i64
  | "u8" => .ok .u8
  | "f32" => .ok .f32
  | "f64" => .ok .f64
  | other => .error (.parse s!"unknown type: '{other}'")

mutual

def parseLaicType : Pair Rule → Except CompileError LaicType
  | .mk _ text [] => parseScalarKeyword (String.ofList (Text.trim text))
  | .mk _ _ (child :: _) => parseCompoundType child

/-- The child of a compound type, by its rule. -/
def parseCompoundType : Pair Rule → Except CompileError LaicType
  | .mk .mapType _ inner => parseMapType inner
  | .mk .listType _ inner => parseListType inner
  | .mk .optionalType _ inner => parseOptionalType inner
  | .mk .tensorType text inner => parseTensorType (.mk .tensorType text inner)
  | .mk rule _ _ => .error (.parse ("unexpected type rule: " ++ rule.debug))

def parseMapType : List (Pair Rule) → Except CompileError LaicType
  | [] => .error (.parse "expected map key type")
  | key :: inner => do
    let key ← parseLaicType key
    match inner with
    | [] => .error (.parse "expected map value type")
    | value :: _ => do
      let value ← parseLaicType value
      .ok (.map key value)

def parseListType : List (Pair Rule) → Except CompileError LaicType
  | [] => .error (.parse "expected list element type")
  | element :: _ => do
    let element ← parseLaicType element
    .ok (.list element)

def parseOptionalType : List (Pair Rule) → Except CompileError LaicType
  | [] => .error (.parse "expected optional inner type")
  | element :: _ => do
    let element ← parseLaicType element
    .ok (.optional element)

end

/-! ## Structs and fields -/

def parseFieldDef (pair : Pair Rule) : Except CompileError FieldDef := do
  let (name, inner) ← requireNext pair.inner "field name"
  let (ty, inner) ← requireNext inner "field type"
  let ty ← parseLaicType ty
  let default ← match inner with
    | [] => .ok none
    | next :: _ =>
      if next.rule = .defaultValue then do
        let (literal, _) ← requireNext next.inner "default literal"
        let literal ← parseLiteral literal
        .ok (some literal)
      else .ok none
  .ok { name := pairStr name, ty, default }

def parseStructDef (pair : Pair Rule) : Except CompileError StructDef := do
  let (name, inner) ← requireNext pair.inner "struct name"
  let fields ← (inner.filter fun field => field.rule == .fieldDef).mapM parseFieldDef
  .ok { name := pairStr name, fields }

/-! ## Error variants -/

def parseErrorVariant (pair : Pair Rule) : Except CompileError ErrorVariant := do
  let (name, inner) ← requireNext pair.inner "error variant name"
  let (code, _) ← requireNext inner "error variant code"
  match Text.parseUnsigned (2 ^ 16) code.text with
  | .ok n => .ok { name := pairStr name, code := UInt16.ofNat n }
  | .error error =>
    .error (.parse ("invalid error code '" ++ pairStr code ++ "': " ++ error))

def parseErrorDef (pair : Pair Rule) : Except CompileError (List ErrorVariant) :=
  (pair.inner.filter fun variant => variant.rule == .errorVariant).mapM parseErrorVariant

/-! ## Skills and files -/

def parseIdDecl (pair : Pair Rule) : Except CompileError String := do
  let (literal, _) ← requireNext pair.inner "id string literal"
  .ok (String.ofList (stripQuotes literal.text))

def parseSkillDef (pair : Pair Rule) : Except CompileError SkillDef := do
  let (name, inner) ← requireNext pair.inner "skill name"
  let (idDecl, inner) ← requireNext inner "id declaration"
  let id ← parseIdDecl idDecl
  let (inputDef, inner) ← requireNext inner "input definition"
  let input ← parseStructDef inputDef
  let (outputDef, inner) ← requireNext inner "output definition"
  let output ← parseStructDef outputDef
  let errors ← match inner with
    | [] => .ok []
    | next :: _ => if next.rule = .errorDef then parseErrorDef next else .ok []
  .ok { name := pairStr name, id, input, output, errors }

def parseVersionDecl (pair : Pair Rule) : Except CompileError String := do
  let (literal, _) ← requireNext pair.inner "version string literal"
  .ok (String.ofList (stripQuotes literal.text))

/-- One declaration of the file, added to what came before it. -/
def parseDeclaration (file : LaicFile) (inner : Pair Rule) : Except CompileError LaicFile :=
  match inner.rule with
  | .versionDecl => do
    let version ← parseVersionDecl inner
    .ok { file with version }
  | .skillDef => do
    let skill ← parseSkillDef inner
    .ok { file with skills := file.skills ++ [skill] }
  | _ => .ok file

def parseFile (pair : Pair Rule) : Except CompileError LaicFile :=
  pair.inner.foldlM parseDeclaration { version := "", skills := [] }

/-- Parse a source text. -/
def parse (source : String) : Except CompileError LaicFile :=
  match Grammar.file source.toList with
  | none => .error .unmatched
  | some ([], _) => .error (.parse "empty parse result")
  | some (file :: _, _) => parseFile file

end Laic
