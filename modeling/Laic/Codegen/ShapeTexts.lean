import Laic.Codegen.Shapes
import Laic.Lib.IntegerSyntax

/-! # Shape texts of other writers

What a text in the metadata must look like to pass the shape check of each target, whoever wrote
it.  The three checks take three languages: brackets may be missing for Rust and Python, TypeScript
takes any first and last unit for brackets, only the first two skip empty items, and the numbers
are those of each language's own reader. -/

namespace Laic

open Text

/-! ## The three languages -/

/-- The size may stand where this dimension is expected. -/
def Dimension.Meets {size : Type} (dimOk : UInt64 → size → Bool) : Dimension → size → Prop
  | .fixed expected, actual => dimOk expected actual = true
  | .dynamic _, _ => True

def isBracket (c : Char) : Bool := c == '[' || c == ']'

/-- The dimension in Rust: between white space, a plus sign or none, and digits of a `usize`. -/
def RustItem (dim : Dimension) (item : List Char) : Prop :=
  ∃ core size, Padded isWhitespace core item ∧ SpellsUnsigned (2 ^ 64) core size ∧ dim.Meets rustDimOk size

/-- The dimension in Python: between white space, an integer of any sign and size. -/
def PythonItem (dim : Dimension) (item : List Char) : Prop :=
  ∃ core value, Padded isWhitespace core item ∧ SpellsInt core value ∧ dim.Meets pythonDimOk value

/-- The dimension in TypeScript: a number at the start, with anything behind it. -/
def TsItem (dim : Dimension) (item : List Char) : Prop :=
  ∃ value, SpellsPrefix item value ∧ dim.Meets tsDimOk value

/-- Items between commas, with any brackets around them; one for each dimension, but for the
empty ones. -/
def BracketedItems (Item : Dimension → List Char → Prop) (dims : List Dimension)
    (text : List Char) : Prop :=
  ∃ items, Padded isBracket (List.intercalate [','] items) text ∧ (∀ item ∈ items, ',' ∉ item) ∧
    List.Forall₂ Item dims (items.filter fun item => !item.isEmpty)

/-- Items between commas, one for each dimension, with white space and one visible unit on
either side. -/
def EnclosedItems (Item : Dimension → List Char → Prop) (dims : List Dimension)
    (units : List Char) : Prop :=
  ∃ first inner last items, Padded isJavascriptSpace (first :: inner ++ [last]) units ∧
    isJavascriptSpace first = false ∧ isJavascriptSpace last = false ∧
    Padded isJavascriptSpace (List.intercalate [','] items) inner ∧
    Trimmed isJavascriptSpace (List.intercalate [','] items) ∧ (∀ item ∈ items, ',' ∉ item) ∧
    List.Forall₂ Item dims items

/-- The text spells the dimensions in the target's language. -/
def Target.Spells (dims : List Dimension) (text : String) : Target → Prop
  | .rust => BracketedItems RustItem dims text.toList
  | .python => BracketedItems PythonItem dims text.toList
  | .typescript => EnclosedItems TsItem dims (codeUnits text.toList)

end Laic
