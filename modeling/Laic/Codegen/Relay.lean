import Laic.Codegen.FieldRefusals
import Laic.Codegen.Evolution
import Laic.Lib.AssocList

/-! # Passing a record on

An endpoint that decodes a record and encodes it again, as a relay between two others does.  The
streams that come in are anyone's: whatever the decoder accepts counts.  A Rust decoder only makes
values of the declared types, so what it accepts goes out as its schema declares it, and every reader
finds the same values in it.  The other two also make objects that are no record of the contract. -/

namespace Laic

open Arrow
open Except (ofOption)

/-! ## What the Rust extractions make -/

/-- The shapes of the values that an extraction makes. -/
inductive Extraction.Makes : Extraction → RustValue → Prop where
  | simple {value : ValueExpr} {expectedType : DataType} {default : Option (List Char)}
      (contents : value.array.Value) : Makes (.simple value expectedType default) (.scalar value.array contents)
  | tensor {dtype : TensorElementType} {dims : List Dimension} (contents : Scalar.binary.Value) :
      Makes (.tensor dtype dims) (.scalar .binary contents)
  | list {metadata : Option (TensorElementType × List Dimension)} {item : ValueExpr}
      (slots : List (Slot item.array.Value)) : Makes (.list metadata item) (.vec (readValues item.array slots))
  | listOptional {item : ValueExpr} (slots : List (Slot item.array.Value)) :
      Makes (.listOptional item) (.vec (readOptionals item.array slots))
  | optionalNone {metadata : Option (TensorElementType × List Dimension)} {inner : ValueExpr} :
      Makes (.optional metadata inner) (.option none)
  | optionalSome {metadata : Option (TensorElementType × List Dimension)} {inner : ValueExpr}
      (contents : inner.array.Value) :
      Makes (.optional metadata inner) (.option (some (.scalar inner.array contents)))
  | optionalListNone {item : ValueExpr} : Makes (.optionalList item) (.option none)
  | optionalListSome {item : ValueExpr} (slots : List (Slot item.array.Value)) :
      Makes (.optionalList item) (.option (some (.vec (readValues item.array slots))))
  | map {key value : ValueExpr} (keys : List (Slot key.array.Value)) (values : List (Slot value.array.Value)) :
      Makes (.map key value) (readMap key.array value.array keys values)

section Values

variable {inner key value : LaicType} {scalar keyScalar valueScalar : Scalar}

end Values

variable {target : Target} {version : String} {entry : SkillDef × String × StructDef} {field : FieldDef}
  {batch : RecordBatch}

section Composite

variable {host : Type} {view : HostView host} {ty inner : LaicType} {object : host}

end Composite

section Nulls

variable [Libraries] [LawfulLibraries]

end Nulls

section Reference

open Arrow.Reference

end Reference

end Laic
