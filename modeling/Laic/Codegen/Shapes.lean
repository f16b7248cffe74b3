import Laic.Codegen.Contract
import Laic.Lib.DoubleRounding

/-! # Shape texts

Every encoder writes the shape of a tensor as one text, and every decoder reads it with the
number parsers of its own language.  On what an encoder writes they agree: a fixed dimension
asks for itself, a dynamic one for nothing. -/

namespace Laic

open Arrow

/-! ## The three readers on a written text -/

theorem rustParseShape_shapeText {sizes : List Nat} (fit : ∀ size ∈ sizes, size < 2 ^ 64) :
    rustParseShape (shapeText sizes) = some sizes := by
  rw [rustParseShape, shapeText_parts, List.mapM_map]
  have read : ∀ size ∈ sizes,
      (Text.parseUnsigned (2 ^ 64) (Text.trim (Text.decimal size))).toOption = some size := by
    intro size member
    have trimmed : Text.trim (Text.decimal size) = Text.decimal size :=
      Text.trimMatches_eq_self fun c inText =>
        Text.isWhitespace_of_isDigit (Text.isDigit_of_mem_decimal inText)
    rw [trimmed, Text.parseUnsigned_decimal (fit size member)]
    rfl
  exact (mapM_eq_map read).trans (by rw [List.map_id'])

theorem pythonParseShape_shapeText {sizes : List Nat} (fit : ∀ size ∈ sizes, size < 2 ^ 64) :
    pythonParseShape (shapeText sizes) = some (sizes.map Int.ofNat) := by
  rw [pythonParseShape, shapeText_parts, List.mapM_map]
  have fewDigits : 2 ^ 64 ≤ 10 ^ Text.maxStrDigits :=
    (show 2 ^ 64 ≤ 10 ^ 20 by decide).trans (Nat.pow_le_pow_right (by decide) (by decide))
  exact mapM_eq_map fun size member => Text.pythonInt_decimal ((fit size member).trans_le fewDigits)

/-- The written text is ASCII without white space. -/
theorem shapeText_chars {sizes : List Nat} {c : Char} (member : c ∈ (shapeText sizes).toList) :
    c.toNat < 128 ∧ Text.isJavascriptSpace c = false := by
  rw [shapeText_toList] at member
  simp only [List.mem_append, List.mem_cons, List.not_mem_nil, or_false] at member
  obtain (rfl | inBody) | rfl := member
  · decide
  · obtain digit | rfl := shapeBody_chars inBody
    · have range := Text.toNat_of_isDigit digit
      exact ⟨by omega, Text.isJavascriptSpace_of_isDigit digit⟩
    · decide
  · decide

theorem laicParseTensorShape_shapeText (sizes : List Nat) :
    laicParseTensorShape (shapeText sizes) =
      some (sizes.map fun size : Nat => FloatValue.ofInt .binary64 size) := by
  have units : Text.codeUnits (shapeText sizes).toList = (shapeText sizes).toList :=
    Text.codeUnits_of_ascii fun c member => (shapeText_chars member).1
  have trimmed : Text.trimMatches Text.isJavascriptSpace (shapeText sizes).toList =
      (shapeText sizes).toList :=
    Text.trimMatches_eq_self fun c member => (shapeText_chars member).2
  have body : Text.sliceInner (shapeText sizes).toList = shapeBody sizes := by
    rw [shapeText_toList]
    simp [Text.sliceInner]
  have inner : Text.trimMatches Text.isJavascriptSpace (shapeBody sizes) = shapeBody sizes := by
    apply Text.trimMatches_eq_self
    intro c member
    have inText : c ∈ (shapeText sizes).toList := by
      rw [shapeText_toList]
      simp [member]
    exact (shapeText_chars inText).2
  simp only [laicParseTensorShape, units, trimmed, body, inner]
  by_cases empty : sizes = []
  · subst empty
    rfl
  · have notEmpty : shapeBody sizes ≠ [] := by
      intro noBody
      have parts := splitOn_shapeBody empty
      rw [noBody] at parts
      cases sizes with
      | nil => exact empty rfl
      | cons size rest => exact Text.decimal_ne_nil size (List.cons.inj parts).1.symm
    rw [if_neg notEmpty, splitOn_shapeBody empty, List.mapM_map]
    refine mapM_eq_map fun size _ => ?_
    have plain : Text.trimMatches Text.isJavascriptSpace (Text.decimal size) = Text.decimal size :=
      Text.trimMatches_eq_self fun c inText =>
        Text.isJavascriptSpace_of_isDigit (Text.isDigit_of_mem_decimal inText)
    rw [Function.comp_apply, plain, Text.parseIntPrefix_decimal]

/-! ## What a shape check accepts -/

/-- The check of a tensor's metadata that the decoder of each target makes. -/
def Target.tensorCheck (name : String) (metadata : List (String × String))
    (dtype : TensorElementType) (dims : List Dimension) : Target → Except DecodeError Unit
  | .rust => checkTensorMetadata rustParseShape rustDimOk name metadata dtype dims
  | .python => checkTensorMetadata pythonParseShape pythonDimOk name metadata dtype dims
  | .typescript => checkTensorMetadata laicParseTensorShape tsDimOk name metadata dtype dims

/-- The schema field that the encoder of each target writes. -/
def Target.schemaField (field : FieldDef) : Target → Field
  | .rust => rustSchemaField field
  | .python => pythonSchemaField field
  | .typescript => tsSchemaField field

/-- The other dimension may stand where this one is expected. -/
def Dimension.Admits : Dimension → Dimension → Prop
  | .fixed size, other => other = .fixed size
  | .dynamic _, _ => True

/-! ## Written shapes -/

theorem shapeSizes_lt (dims : List Dimension) :
    ∀ size ∈ dims.map Dimension.shapeSize, size < 2 ^ 64 := by
  intro size member
  obtain ⟨dim, -, rfl⟩ := List.mem_map.mp member
  cases dim with
  | fixed size => exact size.toNat_lt
  | dynamic name => exact Nat.two_pow_pos 64

/-- The sizes of another shape pass where each comparison tells its fixed dimension from all
others, 0 among them. -/
theorem dimsMatch_iff_admits {size : Type} (dimOk : UInt64 → size → Bool) (number : Nat → size)
    {dims dims' : List Dimension}
    (exact : ∀ expected, .fixed expected ∈ dims → ∀ dim ∈ dims',
      (dimOk expected (number dim.shapeSize) = true ↔ dim = .fixed expected)) :
    ((dims'.map Dimension.shapeSize).map number).length = dims.length ∧
        DimsMatch dimOk dims ((dims'.map Dimension.shapeSize).map number) ↔
      List.Forall₂ Dimension.Admits dims dims' := by
  induction dims generalizing dims' with
  | nil => cases dims' <;> simp [DimsMatch]
  | cons dim dims ih =>
    cases dims' with
    | nil => simp
    | cons dim' dims' =>
      have rest := @ih dims' fun expected member dim inRest =>
        exact expected (List.mem_cons_of_mem _ member) dim (List.mem_cons_of_mem _ inRest)
      rw [List.forall₂_cons, ← rest]
      cases dim with
      | dynamic name => simp [DimsMatch, Dimension.Admits]
      | fixed expected =>
        have head := exact expected List.mem_cons_self dim' List.mem_cons_self
        simp only [List.map_cons, List.length_cons, Nat.add_right_cancel_iff, DimsMatch,
          Dimension.Admits, head]
        tauto

/-- The number of a dimension is a fixed one's only if the dimension is, for 0 stands for no
fixed dimension. -/
theorem shapeSize_eq_iff {expected : UInt64} (positive : expected ≠ 0) (dim : Dimension) :
    dim.shapeSize = expected.toNat ↔ dim = .fixed expected := by
  cases dim with
  | fixed size => simp [Dimension.shapeSize, UInt64.toNat_inj]
  | dynamic name =>
    refine iff_of_false (fun zero => positive ?_) (by simp)
    exact UInt64.toNat_inj.mp zero.symm

/-- A 64-bit size is a finite float. -/
theorem roundMagnitude_size_lt (size : UInt64) :
    FloatFormat.binary64.roundMagnitude size.toNat < 2 ^ FloatFormat.binary64.maxExponent := by
  have largest : FloatFormat.binary64.roundMagnitude ((2 : ℚ) ^ (64 : ℤ)) = 2 ^ (64 : ℤ) :=
    FloatFormat.binary64.roundMagnitude_zpow (by decide)
  have limit : (2 : ℚ) ^ (64 : ℤ) < 2 ^ FloatFormat.binary64.maxExponent :=
    zpow_lt_zpow_right₀ (by norm_num) (by decide)
  obtain zero | positive := Nat.eq_zero_or_pos size.toNat
  · rw [zero, Nat.cast_zero, FloatFormat.roundMagnitude_zero]
    exact FloatFormat.two_zpow_pos _
  · have within : (size.toNat : ℚ) ≤ 2 ^ (64 : ℤ) := by exact_mod_cast size.toNat_lt.le
    have bounded := FloatFormat.binary64.roundMagnitude_mono (mod_cast positive) within
    rw [largest] at bounded
    exact bounded.trans_lt limit

/-- TypeScript compares sizes after rounding them. -/
theorem tsDimOk_iff {expected : UInt64} (positive : expected ≠ 0) (actual : Nat) :
    tsDimOk expected (FloatValue.ofInt .binary64 actual) = true ↔
      FloatFormat.binary64.roundMagnitude actual = FloatFormat.binary64.roundMagnitude expected.toNat := by
  have zeroFinite : FloatFormat.binary64.roundMagnitude (0 : ℕ) < 2 ^ FloatFormat.binary64.maxExponent :=
    roundMagnitude_size_lt 0
  have notZero : (FloatValue.ofInt .binary64 expected.toNat).numericEq (.ofInt .binary64 (0 : ℕ)) =
      false := by
    have one : FloatFormat.binary64.roundMagnitude (1 : ℕ) = 1 := by
      simpa using FloatFormat.binary64.roundMagnitude_mul_pow (by decide) (Nat.one_le_two_pow) 0
    have nonzero : 1 ≤ expected.toNat := Nat.one_le_iff_ne_zero.mpr fun zero =>
      positive (UInt64.toNat_inj.mp zero)
    have above := FloatFormat.binary64.roundMagnitude_natCast_mono nonzero
    rw [one] at above
    rw [← Bool.not_eq_true, FloatValue.numericEq_ofInt_natCast zeroFinite, Nat.cast_zero,
      FloatFormat.roundMagnitude_zero]
    linarith
  rw [tsDimOk, ← FloatValue.numericEq_ofInt_natCast (roundMagnitude_size_lt expected)]
  simp only [Nat.cast_zero] at notZero
  simp [notZero]

/-- Below 2^53 the numbers of TypeScript are exact. -/
theorem tsDimOk_ofInt {expected : UInt64} {actual : Nat} (positive : expected ≠ 0)
    (small : expected.toNat < 2 ^ 53) (small' : actual < 2 ^ 53) :
    tsDimOk expected (FloatValue.ofInt .binary64 actual) = true ↔ actual = expected.toNat := by
  have exact (n : Nat) (below : n < 2 ^ 53) : FloatFormat.binary64.roundMagnitude n = n :=
    FloatFormat.binary64.roundMagnitude_of_representable
      (FloatFormat.binary64.representable_natCast below (by decide) (by decide))
  rw [tsDimOk_iff positive, exact _ small, exact _ small', Nat.cast_inj]

/-! ## Round trip -/

/-- The shape check of a target passes the text. -/
def Target.AcceptsShape (dims : List Dimension) (text : String) : Target → Prop
  | .rust => ∃ sizes, rustParseShape text = some sizes ∧ sizes.length = dims.length ∧
      DimsMatch rustDimOk dims sizes
  | .python => ∃ sizes, pythonParseShape text = some sizes ∧ sizes.length = dims.length ∧
      DimsMatch pythonDimOk dims sizes
  | .typescript => ∃ sizes, laicParseTensorShape text = some sizes ∧ sizes.length = dims.length ∧
      DimsMatch tsDimOk dims sizes

theorem tensorCheck_eq_ok {target : Target} {name : String} {metadata : List (String × String)}
    {dtype : TensorElementType} {dims : List Dimension} :
    target.tensorCheck name metadata dtype dims = .ok () ↔
      metadata.lookup "laic.tensor.dtype" = some dtype.asStr ∧
        ∃ text, metadata.lookup "laic.tensor.shape" = some text ∧ target.AcceptsShape dims text := by
  cases target with
  | rust | python | typescript =>
    simp only [Target.tensorCheck, checkTensorMetadata_eq_ok, Target.AcceptsShape,
      exists_and_left]

/-- The schema field of a tensor carries its metadata in every target. -/
@[simp] theorem schemaField_tensor_metadata (target : Target) (name : String)
    (dtype : TensorElementType) (dims : List Dimension) (default : Option Literal) :
    (target.schemaField ⟨name, .tensor dtype dims, default⟩).metadata = tensorMetadata dimsAsShape dtype dims := by
  cases target <;> rfl

theorem ne_zero_of_validate {skillName fieldName : String} {dims : List Dimension}
    (accepted : validateTensorDimensions skillName fieldName dims = .ok ()) {size : UInt64}
    (member : .fixed size ∈ dims) : size ≠ 0 := by
  simp only [validateTensorDimensions, Except.bind_eq_ok, Except.ensure_eq_ok] at accepted
  obtain ⟨_, -, noZero⟩ := accepted
  rintro rfl
  exact noZero (List.any_eq_true.mpr ⟨_, member, by simp⟩)

/-- The three checks agree on what an encoder writes: the lists are of one length, and where the
decoder's dimension is fixed the encoder's is the same. -/
theorem acceptsShape_format (target : Target) {dims dims' : List Dimension}
    (positive : ∀ size, .fixed size ∈ dims → size ≠ 0)
    (small : ∀ size, .fixed size ∈ dims ++ dims' → size.toNat < 2 ^ 53) :
    target.AcceptsShape dims (dimsAsShape dims') ↔ List.Forall₂ Dimension.Admits dims dims' := by
  have small' (dim : Dimension) (member : dim ∈ dims') : dim.shapeSize < 2 ^ 53 := by
    cases dim with
    | fixed size => exact small size (List.mem_append_right _ member)
    | dynamic name => exact Nat.two_pow_pos 53
  cases target with
  | rust =>
    rw [← dimsMatch_iff_admits rustDimOk id fun expected member dim _ => by
      rw [← shapeSize_eq_iff (positive expected member)]
      simp [rustDimOk]]
    simp only [Target.AcceptsShape, dimsAsShape, List.map_id,
      rustParseShape_shapeText (shapeSizes_lt dims'), Option.some.injEq, exists_eq_left']
  | python =>
    rw [← dimsMatch_iff_admits pythonDimOk Int.ofNat fun expected member dim _ => by
      rw [← shapeSize_eq_iff (positive expected member)]
      simp [pythonDimOk]]
    simp only [Target.AcceptsShape, dimsAsShape,
      pythonParseShape_shapeText (shapeSizes_lt dims'), Option.some.injEq, exists_eq_left']
  | typescript =>
    rw [← dimsMatch_iff_admits tsDimOk
      (fun size : Nat => FloatValue.ofInt .binary64 size) fun expected member dim inDims => by
        rw [← shapeSize_eq_iff (positive expected member)]
        exact tsDimOk_ofInt (positive expected member)
          (small expected (List.mem_append_left _ member)) (small' dim inDims)]
    simp only [Target.AcceptsShape, dimsAsShape, laicParseTensorShape_shapeText,
      Option.some.injEq, exists_eq_left']

/-- The check of every decoder passes the shape of every encoder exactly on lists of one length
whose dimensions are the same where the decoder's is fixed. -/
theorem shape_roundTrip (encoder decoder : Target) (skillName fieldName : String)
    (dtype : TensorElementType) (dims dims' : List Dimension)
    (accepted : validateTensorDimensions skillName fieldName dims = .ok ())
    (small : ∀ size, .fixed size ∈ dims ++ dims' → size.toNat < 2 ^ 53) :
    decoder.tensorCheck fieldName
        (encoder.schemaField ⟨fieldName, .tensor dtype dims', none⟩).metadata dtype dims = .ok () ↔
      List.Forall₂ Dimension.Admits dims dims' := by
  rw [schemaField_tensor_metadata, tensorCheck_eq_ok,
    ← acceptsShape_format decoder (fun size => ne_zero_of_validate accepted) small]
  simp

/-- A dynamic dimension takes a fixed one, and not the other way round. -/
theorem shape_roundTrip_dynamic :
    let written (dims : List Dimension) : List (String × String) :=
      (Target.rust.schemaField ⟨"x", .tensor .f32 dims, none⟩).metadata
    Target.typescript.tensorCheck "x" (written [.fixed 2]) .f32 [.dynamic none] = .ok () ∧
      Target.typescript.tensorCheck "x" (written [.dynamic none]) .f32 [.fixed 2] ≠ .ok () := by
  intro written
  constructor
  · refine (shape_roundTrip .rust .typescript "a" "x" .f32 [.dynamic none] [.fixed 2] rfl ?_).mpr
      (.cons trivial .nil)
    intro size member
    simp only [List.cons_append, List.nil_append, List.mem_cons, List.not_mem_nil, or_false,
      reduceCtorEq, false_or, Dimension.fixed.injEq] at member
    rw [member]
    decide
  · intro passed
    have admitted := (shape_roundTrip .rust .typescript "a" "x" .f32 [.fixed 2] [.dynamic none] rfl (by
      intro size member
      simp only [List.cons_append, List.nil_append, List.mem_cons, List.not_mem_nil, or_false,
        reduceCtorEq, Dimension.fixed.injEq] at member
      rw [member]
      decide)).mp passed
    cases admitted with
    | cons head _ => cases head

end Laic
