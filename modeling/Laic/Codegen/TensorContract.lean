import Laic.Codegen.FieldRefusals

/-! # The metadata of tensors, published and enforced

Where a type mentions a tensor the encoders should write its dtype, shape and version into the
schema field, and the decoders should refuse a stream whose field says something else.  They do for
tensors, lists of tensors and optional tensors, but for the sizes that TypeScript cannot tell
apart. -/

namespace Laic

open Arrow

/-! ## Types and metadata -/

/-- The tensor that a type mentions, at any depth that validation lets through. -/
def LaicType.mentionedTensor : LaicType → Option (TensorElementType × List Dimension)
  | .tensor dtype dims | .list (.tensor dtype dims) | .optional (.tensor dtype dims)
  | .list (.optional (.tensor dtype dims)) | .optional (.list (.tensor dtype dims)) => some (dtype, dims)
  | _ => none

/-- Sizes that fit: one for each dimension, and at a fixed one the same. -/
def FitsDims (dims : List Dimension) (sizes : List Nat) : Prop :=
  List.Forall₂ (fun dim size => ∀ expected, dim = .fixed expected → size = expected.toNat) dims sizes

/-- Metadata that lacks the dtype or the shape, or has another dtype or a shape that does not fit. -/
def Drifted (dtype : TensorElementType) (dims : List Dimension) (metadata : List (String × String)) : Prop :=
  metadata.lookup "laic.tensor.dtype" ≠ some dtype.asStr ∨
    metadata.lookup "laic.tensor.shape" = none ∨
    ∃ sizes, metadata.lookup "laic.tensor.shape" = some (shapeText sizes) ∧ ¬ FitsDims dims sizes

/-- The first field of that name in the schema. -/
def wireFieldOf (stream : Stream) (name : String) : Option Field :=
  stream.fields.find? fun wireField => wireField.name == name

/-- The encoder publishes the metadata of the field's tensor, and the decoder enforces it. -/
structure TensorContract {host : Type} (contract : Contract host) (field : FieldDef) (dtype : TensorElementType)
    (dims : List Dimension) : Prop where
  published : ∀ record stream, contract.encode record = some stream →
    ∃ wireField, wireFieldOf stream field.name = some wireField ∧
      wireField.metadata.lookup "laic.tensor.dtype" = some dtype.asStr ∧
      wireField.metadata.lookup "laic.tensor.shape" = some (dimsAsShape dims) ∧
      wireField.metadata.lookup "laic.tensor.version" = some "1"
  enforced : ∀ stream wireField, wireFieldOf stream field.name = some wireField →
    Drifted dtype dims wireField.metadata → ∃ error, contract.decode stream = .error error

/-- The sizes that no other number rounds to as a 64-bit float. -/
def HasOwnFloat (size : UInt64) : Prop :=
  size.toNat < 2 ^ 53 ∨ 2 ^ 53 < size.toNat ∧ size.toNat < 2 ^ 54 ∧ size.toNat % 4 = 2

/-- Rust and Python check the metadata of tensors, lists of tensors and optional tensors;
TypeScript too, where each fixed size has a float of its own. -/
def Target.ChecksTensor (target : Target) (ty : LaicType) (dims : List Dimension) : Prop :=
  ty.checkedTensor.isSome = true ∧
    (target = .typescript → ∀ size, .fixed size ∈ dims → HasOwnFloat size)

theorem hasOwnFloat_iff (size : UInt64) :
    HasOwnFloat size ↔ ∀ n : ℕ, FloatFormat.binary64.roundMagnitude n =
      FloatFormat.binary64.roundMagnitude size.toNat → n = size.toNat :=
  (FloatFormat.binary64.roundMagnitude_unique_iff (by decide) (by decide) size.toNat).symm

theorem checked_eq_mentioned {ty : LaicType} (checked : ty.checkedTensor.isSome = true) :
    ty.checkedTensor = ty.mentionedTensor := by
  cases ty with
  | string | bytes | bool | i8 | i16 | i32 | i64 | u8 | f32 | f64 | map => cases checked
  | tensor => rfl
  | list inner | optional inner =>
    cases inner with
    | string | bytes | bool | i8 | i16 | i32 | i64 | u8 | f32 | f64 | map | list | optional => cases checked
    | tensor => rfl

/-- The dimensions of an accepted type are not fixed to zero. -/
theorem mentioned_ne_zero {ty : LaicType} (supported : Supported ty) {dtype : TensorElementType}
    {dims : List Dimension} (mentioned : ty.mentionedTensor = some (dtype, dims)) {size : UInt64}
    (member : .fixed size ∈ dims) : size ≠ 0 := by
  have positive {inner : LaicType} (leaf : SupportedLeaf inner) (isTensor : inner = .tensor dtype dims) :
      size ≠ 0 := by
    rintro rfl
    exact leaf.fixed_ne_zero dtype dims isTensor member
  cases supported with
  | @leaf ty leaf =>
    have notLeaf := leaf.isLeaf
    cases ty with
    | list | optional | map => cases notLeaf
    | string | bytes | bool | i8 | i16 | i32 | i64 | u8 | f32 | f64 => cases mentioned
    | tensor =>
      cases mentioned
      exact positive leaf rfl
  | @list inner leaf | @listOptional inner leaf | @optional inner leaf | @optionalList inner leaf =>
    have notLeaf := leaf.isLeaf
    cases inner with
    | list | optional | map => cases notLeaf
    | string | bytes | bool | i8 | i16 | i32 | i64 | u8 | f32 | f64 => cases mentioned
    | tensor =>
      cases mentioned
      exact positive leaf rfl
  | map => cases mentioned

/-- Sizes written for dimensions fit only if each fixed one is written as it is. -/
theorem fitsDims_map {dims : List Dimension} {written : Dimension → Nat}
    (fits : FitsDims dims (dims.map written)) {size : UInt64}
    (member : .fixed size ∈ dims) : written (.fixed size) = size.toNat := by
  rw [FitsDims, List.forall₂_map_right_iff, List.forall₂_same] at fits
  exact fits _ member size rfl

/-! ## What the checks accept -/

/-- Reading the decimals gives their numbers, if anything. -/
theorem values_of_mapM {size : Type} {f : List Char → Option size} {number : Nat → size}
    (reads : ∀ n value, f (Text.decimal n) = some value → value = number n) {sizes : List Nat}
    {values : List size} (read : (sizes.map Text.decimal).mapM f = some values) :
    values = sizes.map number := by
  induction sizes generalizing values with
  | nil =>
    cases read
    rfl
  | cons n sizes ih =>
    rw [List.map_cons, List.mapM_cons] at read
    obtain ⟨first, firstRead, read⟩ := Option.bind_eq_some_iff.mp read
    obtain ⟨rest, restRead, read⟩ := Option.bind_eq_some_iff.mp read
    cases read
    rw [reads n first firstRead, ih restRead]
    rfl

/-- A comparison that tells a fixed dimension from all other numbers. -/
theorem fits_of_dimsMatch {size : Type} {dimOk : UInt64 → size → Bool} {number : Nat → size}
    {dims : List Dimension} (exact : ∀ expected, .fixed expected ∈ dims →
      ∀ n, dimOk expected (number n) = true → n = expected.toNat) {sizes : List Nat}
    (sameRank : sizes.length = dims.length) (matched : DimsMatch dimOk dims (sizes.map number)) :
    FitsDims dims sizes := by
  induction dims generalizing sizes with
  | nil =>
    rw [List.length_eq_zero_iff.mp sameRank]
    exact .nil
  | cons dim dims ih =>
    cases sizes with
    | nil => cases sameRank
    | cons n sizes =>
      have rest := @ih (fun expected member => exact expected (List.mem_cons_of_mem _ member)) sizes
        (Nat.succ.inj sameRank)
      cases dim with
      | fixed expected =>
        refine .cons (fun other same => ?_) (rest matched.2)
        cases same
        exact exact expected List.mem_cons_self n matched.1
      | dynamic name => exact .cons (fun _ impossible => nomatch impossible) (rest matched)

theorem rustReads (n size : Nat)
    (read : (Text.parseUnsigned (2 ^ 64) (Text.trim (Text.decimal n))).toOption = some size) : size = id n := by
  have all : ∀ c ∈ Text.decimal n, c.isDigit = true := fun c member => Text.isDigit_of_mem_decimal member
  have trimmed : Text.trim (Text.decimal n) = Text.decimal n :=
    Text.trimMatches_eq_self fun c member => Text.isWhitespace_of_isDigit (all c member)
  rw [trimmed, Text.parseUnsigned_eq (by decide) (Text.decimal_ne_nil n) all, Text.digitsValue_decimal] at read
  split at read
  · exact (Option.some.inj read).symm
  · cases read

theorem pythonReads (n : Nat) (value : Int) (read : Text.pythonInt (Text.decimal n) = some value) :
    value = Int.ofNat n := by
  rw [Text.pythonInt_decimal_eq] at read
  split at read
  · cases read
  · exact (Option.some.inj read).symm

/-- A shape that passes the check fits. -/
theorem fits_of_accepts {target : Target} {dims : List Dimension}
    (positive : ∀ size, .fixed size ∈ dims → size ≠ 0)
    (own : target = .typescript → ∀ size, .fixed size ∈ dims → HasOwnFloat size) {sizes : List Nat}
    (accepts : target.AcceptsShape dims (shapeText sizes)) : FitsDims dims sizes := by
  cases target with
  | rust =>
    obtain ⟨values, read, sameRank, matched⟩ := accepts
    rw [rustParseShape, shapeText_parts] at read
    have same : values = sizes.map id := values_of_mapM rustReads read
    rw [same] at sameRank matched
    refine fits_of_dimsMatch (fun expected _ n equal => ?_) (by simpa using sameRank) matched
    simpa [rustDimOk] using equal
  | python =>
    obtain ⟨values, read, sameRank, matched⟩ := accepts
    rw [pythonParseShape, shapeText_parts] at read
    have same := values_of_mapM pythonReads read
    rw [same] at sameRank matched
    refine fits_of_dimsMatch (fun expected _ n equal => ?_) (by simpa using sameRank) matched
    simpa [pythonDimOk] using equal
  | typescript =>
    obtain ⟨values, read, sameRank, matched⟩ := accepts
    rw [laicParseTensorShape_shapeText] at read
    cases read
    refine fits_of_dimsMatch (fun expected member n equal => ?_) (by simpa using sameRank) matched
    exact (hasOwnFloat_iff expected).mp (own rfl expected member) n
      ((tsDimOk_iff (positive expected member) n).mp equal)

/-- Metadata that passes the check has not drifted. -/
theorem not_drifted_of_check {target : Target} {name : String} {dtype : TensorElementType}
    {dims : List Dimension} {metadata : List (String × String)}
    (positive : ∀ size, .fixed size ∈ dims → size ≠ 0)
    (own : target = .typescript → ∀ size, .fixed size ∈ dims → HasOwnFloat size)
    (passed : target.tensorCheck name metadata dtype dims = .ok ()) : ¬ Drifted dtype dims metadata := by
  obtain ⟨sameDtype, text, found, accepts⟩ := tensorCheck_eq_ok.mp passed
  rintro (otherDtype | noShape | ⟨sizes, otherShape, misfit⟩)
  · exact otherDtype sameDtype
  · rw [found] at noShape
    cases noShape
  · cases found.symm.trans otherShape
    exact misfit (fits_of_accepts positive own accepts)

/-! ## Streams -/

/-- The first schema field of the name is that of the column that decoders find. -/
theorem wireFieldOf_eq {stream : Stream} {batch : RecordBatch} (inStream : batch ∈ stream.batches)
    (name : String) : wireFieldOf stream name = (batch.column? name).map Column.field := by
  rw [wireFieldOf, ← stream.schema batch inStream, List.find?_map]
  rfl

theorem find?_schemaField {target : Target} {fields : List FieldDef} (nodup : (fields.map FieldDef.name).Nodup)
    {field : FieldDef} (member : field ∈ fields) :
    (fields.map fun field => target.schemaField field).find? (fun wireField => wireField.name == field.name) =
      some (target.schemaField field) := by
  induction fields with
  | nil => cases member
  | cons first fields ih =>
    rw [List.map_cons, List.nodup_cons] at nodup
    rw [List.map_cons]
    obtain rfl | later := List.mem_cons.mp member
    · rw [List.find?_cons_of_pos (by simp [schemaField_name])]
    · have different : first.name ≠ field.name := fun same =>
        nodup.1 (same ▸ List.mem_map_of_mem later)
      rw [List.find?_cons_of_neg (by simpa [schemaField_name] using different)]
      exact ih nodup.2 later

section Libraries

variable [Libraries] {target : Target} {version : String} {entry : SkillDef × String × StructDef}
  {contract : Contract target.Host} {field : FieldDef} {dtype : TensorElementType} {dims : List Dimension}

/-- An encoder's entries stand under the schema fields it declares. -/
theorem entry_field {object : target.Host} {made : Entry} (built : target.entry field object = some made) :
    made.field = target.schemaField field := by
  cases target with
  | rust =>
    simp only [Target.entry] at built
    split at built
    next expr emitted =>
      simp only [rustEntry, Option.bind_eq_bind, Option.bind_eq_some_iff] at built
      obtain ⟨slot, -, placed, ofSlot, kept⟩ := built
      split at kept
      next =>
        cases kept
        rw [Entry.ofSlot] at ofSlot
        split at ofSlot
        next =>
          cases ofSlot
          rfl
        next => cases ofSlot
      next => cases kept
    next => cases built
  | python =>
    simp only [Target.entry, pythonEntry, Option.bind_eq_bind, Option.bind_eq_some_iff] at built
    obtain ⟨slot, -, made⟩ := built
    cases made
    rfl
  | typescript =>
    simp only [Target.entry, tsEntry, Option.bind_eq_bind, Option.bind_eq_some_iff] at built
    obtain ⟨slot, -, made⟩ := built
    cases made
    rfl

theorem fields_of_mapM_entry {fields : List FieldDef} {record : String → target.Host} {entries : List Entry}
    (built : (fields.mapM fun field => target.entry field (record field.name)) = some entries) :
    entries.map Entry.field = fields.map fun field => target.schemaField field := by
  induction fields generalizing entries with
  | nil =>
    cases built
    rfl
  | cons field fields ih =>
    rw [List.mapM_cons] at built
    obtain ⟨first, made, built⟩ := Option.bind_eq_some_iff.mp built
    obtain ⟨rest, others, built⟩ := Option.bind_eq_some_iff.mp built
    cases built
    rw [List.map_cons, List.map_cons, entry_field made, ih others]

/-- Whatever is encoded carries the schema that the encoder declares. -/
theorem fields_of_encode (generated : target.generate version entry = .ok contract)
    {record : String → target.Host} {stream : Stream} (encoded : contract.encode record = some stream) :
    stream.fields = entry.2.2.fields.map fun field => target.schemaField field := by
  rw [encode_eq generated, encodeFields] at encoded
  obtain ⟨entries, built, same⟩ := Option.bind_eq_some_iff.mp encoded
  cases same
  exact fields_of_mapM_entry built

/-! ## The contract -/

/-- Where the check is made and tells all sizes apart, the contract is kept. -/
theorem tensorContract_of_checks (generated : target.generate version entry = .ok contract)
    (supported : SupportedStruct entry.2.2) (inStruct : field ∈ entry.2.2.fields)
    (mentioned : field.ty.mentionedTensor = some (dtype, dims)) (checks : target.ChecksTensor field.ty dims) :
    TensorContract contract field dtype dims := by
  have checked := (checked_eq_mentioned checks.1).trans mentioned
  constructor
  · intro record stream encoded
    refine ⟨target.schemaField field, ?_, ?_⟩
    · rw [wireFieldOf, fields_of_encode generated encoded]
      exact find?_schemaField supported.names_nodup inStruct
    · rw [metadata_of_checked target checked]
      exact ⟨rfl, rfl, rfl⟩
  · intro stream wireField found drifted
    apply Except.exists_error_of_ne_ok
    intro record decoded
    obtain ⟨batch, isRow⟩ := isRow_of_decode generated decoded
    have inStream : batch ∈ stream.batches := by rw [isRow.1]; exact List.mem_singleton_self batch
    rw [wireFieldOf_eq inStream] at found
    obtain ⟨column, isColumn, rfl⟩ := Option.map_eq_some_iff.mp found
    have refuses : ∀ slot ∈ column.slots, ∃ error, target.extractField field
        (fieldRow field column.field.type column.field.nullable column.field.metadata slot) = .error error := by
      intro slot _
      apply Except.exists_error_of_ne_ok
      intro object extracted
      have passed := passesTensorCheck_of_extracted extracted dtype dims checked
      exact not_drifted_of_check
        (fun size member => mentioned_ne_zero (supported.supported field inStruct) mentioned member) checks.2
        passed drifted
    obtain ⟨error, failed⟩ := decode_error_of_entry generated inStruct isRow isColumn refuses
    cases decoded.symm.trans failed

/-- The blank of the field under any metadata that the decoder lets pass. -/
def driftedEntry (target : Target) (field : FieldDef) (metadata : List (String × String)) : Entry :=
  ⟨⟨field.name, (target.schemaField field).type, true, metadata⟩, blankSlot field.ty _⟩

theorem not_drifted_of_contract [LawfulLibraries] (generated : target.generate version entry = .ok contract)
    (supported : SupportedStruct entry.2.2) (inStruct : field ∈ entry.2.2.fields)
    (kept : TensorContract contract field dtype dims) {metadata : List (String × String)}
    (passes : target.PassesTensorCheck field metadata) : ¬ Drifted dtype dims metadata := by
  intro drifted
  have fieldSupported := supported.supported field inStruct
  have declared := erase_schemaField target field
  obtain ⟨value, distinct, holds⟩ := exists_holds_blankSlot fieldSupported declared
  obtain ⟨object, read, -⟩ := target.reads rfl fieldSupported distinct declared passes holds
  let special := driftedEntry target field metadata
  have named : special.field.name = field.name := rfl
  obtain ⟨record, decoded⟩ := decode_sampleRow generated supported inStruct named ⟨object, read⟩
  have found : wireFieldOf (Stream.ofRow (schemaMetadata entry.1.id version entry.2.1)
      (sampleRow target entry.2.2.fields special)) field.name = some special.field := by
    have first := RecordBatch.column?_ofRow (sampleRow_nodup target supported.names_nodup special)
      (mem_sampleRow inStruct named)
    rw [wireFieldOf_eq (List.mem_singleton_self _), ← named, first]
    rfl
  obtain ⟨error, failed⟩ := kept.enforced _ special.field found drifted
  cases decoded.symm.trans failed

/-- A decoder that keeps the contract checks the metadata, and tells all sizes apart. -/
theorem checks_of_tensorContract [LawfulLibraries]
    (generated : target.generate version entry = .ok contract)
    (supported : SupportedStruct entry.2.2) (inStruct : field ∈ entry.2.2.fields)
    (mentioned : field.ty.mentionedTensor = some (dtype, dims))
    (kept : TensorContract contract field dtype dims) : target.ChecksTensor field.ty dims := by
  have checked : field.ty.checkedTensor.isSome = true := by
    by_contra unchecked
    have none : field.ty.checkedTensor = none := by simpa using unchecked
    have passes : target.PassesTensorCheck field [] := by
      intro dtype dims found
      rw [none] at found
      cases found
    exact not_drifted_of_contract generated supported inStruct kept passes (.inl (by simp))
  refine ⟨checked, ?_⟩
  rintro rfl size member
  rw [hasOwnFloat_iff]
  intro n sameFloat
  -- the shape with `n` in the place of the size
  let written : Dimension → Nat := fun dim => if dim = .fixed size then n else dim.shapeSize
  have passes : Target.typescript.PassesTensorCheck field
      [("laic.tensor.dtype", dtype.asStr), ("laic.tensor.shape", shapeText (dims.map written))] := by
    intro dtype' dims' found
    cases (checked_eq_mentioned checked).trans mentioned |>.symm.trans found
    rw [tensorCheck_eq_ok]
    refine ⟨rfl, _, rfl, _, laicParseTensorShape_shapeText _, by simp, ?_⟩
    rw [List.map_map]
    refine dimsMatch_map fun expected isFixed => ?_
    by_cases same : expected = size
    · subst same
      have positive := mentioned_ne_zero (supported.supported field inStruct) mentioned isFixed
      simp only [Function.comp_apply, written, if_true]
      exact (tsDimOk_iff positive n).mpr sameFloat
    · have other : written (.fixed expected) = expected.toNat := by simp [written, same, Dimension.shapeSize]
      rw [Function.comp_apply, other]
      exact tsDimOk_self expected
  by_contra different
  refine not_drifted_of_contract generated supported inStruct kept passes (.inr (.inr ⟨_, rfl, fun fits => ?_⟩))
  have asWritten := fitsDims_map fits member
  simp only [written, if_true] at asWritten
  exact different asWritten

/-- The tensor contract of a field is kept exactly for tensors, lists of tensors and optional tensors,
in TypeScript where each fixed size has a float of its own. -/
theorem tensorContract_iff [LawfulLibraries] {source : String} {file : LaicFile}
    (accepted : compile source = .ok file) {entry : SkillDef × String × StructDef}
    (member : entry ∈ file.structs) (target : Target) {contract : Contract target.Host}
    (generated : target.generate file.version entry = .ok contract) {field : FieldDef}
    (inStruct : field ∈ entry.2.2.fields) {dtype : TensorElementType} {dims : List Dimension}
    (mentioned : field.ty.mentionedTensor = some (dtype, dims)) :
    TensorContract contract field dtype dims ↔ target.ChecksTensor field.ty dims := by
  have supported := supportedStruct_of_compile accepted entry member
  exact ⟨checks_of_tensorContract generated supported inStruct mentioned,
    tensorContract_of_checks generated supported inStruct mentioned⟩

end Libraries

section Reference

open Arrow.Reference

/-- A tensor of two numbers in Python. -/
theorem tensorContract_iff_pair :
    ∃ file, compile (skillSource "I" "x:tensor<f32>[2];" "O" "y:bool;" "") = .ok file ∧
      ∃ entry ∈ file.structs, ∃ field ∈ entry.2.2.fields,
        TensorContract (pythonContract entry.2.2 (schemaMetadata entry.1.id file.version entry.2.1)) field
          .f32 [.fixed 2] := by
  obtain ⟨file, accepted, entry, member, field, inStruct, isType⟩ : ∃ file,
      compile (skillSource "I" "x:tensor<f32>[2];" "O" "y:bool;" "") = .ok file ∧
        ∃ entry ∈ file.structs, ∃ field ∈ entry.2.2.fields, field.ty = .tensor .f32 [.fixed 2] :=
    exists_field_of_any (by decide +kernel)
  refine ⟨file, accepted, entry, member, field, inStruct, ?_⟩
  apply (tensorContract_iff accepted member .python rfl inStruct (by rw [isType]; rfl)).mpr
  exact ⟨by rw [isType]; rfl, fun impossible => by cases impossible⟩

/-- The items of a list may be absent tensors, whose metadata is neither written nor read. -/
theorem tensorContract_counterexample :
    ¬ ∀ imports source file, compile source = .ok file → ∀ entry ∈ file.structs,
      ∀ (target : Target) (contract : Contract target.Host), target.Provides imports file entry contract →
        ∀ field ∈ entry.2.2.fields, ∀ dtype dims, field.ty.mentionedTensor = some (dtype, dims) →
          TensorContract contract field dtype dims := by
  intro all
  obtain ⟨file, accepted, names, writes, entry, member, field, inStruct, isType⟩ :=
    exists_field_of_checks (skillSource "I" "x:list<optional<tensor<f32>[2]>>;" "O" "y:bool;" "") .python
      (.list (.optional (.tensor .f32 [.fixed 2]))) (by decide) (by decide +kernel)
  have mentioned : field.ty.mentionedTensor = some (.f32, [.fixed 2]) := by rw [isType]; rfl
  have provides := (emits_python accepted names entry).provides accepted writes
  have kept := all [] _ file accepted entry member .python _ provides field inStruct _ _ mentioned
  have checks := checks_of_tensorContract provides.generated (supportedStruct_of_compile accepted entry member)
    inStruct mentioned kept
  have checked := checks.1
  rw [isType] at checked
  cases checked

end Reference

end Laic
