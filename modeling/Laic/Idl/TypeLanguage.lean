import Laic.Idl.Validate

/-! # The language of accepted types

`InLanguage` lists the types that validation lets through, `validateFieldType_eq_ok` says
that it lets through these and no others, however deep a type nests. -/

namespace Laic

/-- How deep a type nests; a type without parameters has depth one. -/
def LaicType.depth : LaicType → Nat
  | .list inner | .optional inner => inner.depth + 1
  | .map key value => max key.depth value.depth + 1
  | _ => 1

/-- What a list or an optional may hold: scalars, strings, bytes, and tensors whose
dimensions are all fixed and non-zero. -/
inductive Element : LaicType → Prop where
  | scalar {ty : LaicType} (isScalar : ty.isScalar = true) : Element ty
  | tensor {dtype : TensorElementType} {dims : List Dimension} (nonempty : dims ≠ [])
      (sized : ∀ dim ∈ dims, ∃ size, dim = .fixed size ∧ size ≠ 0) : Element (.tensor dtype dims)

/-- The types a field may have. -/
inductive InLanguage : LaicType → Prop where
  | scalar {ty : LaicType} (isScalar : ty.isScalar = true) : InLanguage ty
  | tensor {dtype : TensorElementType} {dims : List Dimension} (nonempty : dims ≠ [])
      (nonzero : Dimension.fixed 0 ∉ dims) : InLanguage (.tensor dtype dims)
  | list {ty : LaicType} (element : Element ty) : InLanguage (.list ty)
  | optional {ty : LaicType} (element : Element ty) : InLanguage (.optional ty)
  | listOptional {ty : LaicType} (element : Element ty) : InLanguage (.list (.optional ty))
  | optionalList {ty : LaicType} (element : Element ty) : InLanguage (.optional (.list ty))
  | map {key value : LaicType} (isKey : key.isMapKey = true) (isScalar : value.isScalar = true) :
      InLanguage (.map key value)

/-! ## Depth -/

theorem LaicType.depth_of_isLeafType {ty : LaicType} (isLeaf : isLeafType ty = true) :
    ty.depth = 1 := by
  cases ty with
  | list | optional | map => cases isLeaf
  | _ => rfl

theorem isLeafType_of_isScalar {ty : LaicType} (isScalar : ty.isScalar = true) :
    isLeafType ty = true :=
  (SupportedLeaf.of_scalar isScalar).isLeaf

theorem Element.isLeafType {ty : LaicType} (element : Element ty) : isLeafType ty = true := by
  cases element with
  | scalar isScalar => exact isLeafType_of_isScalar isScalar
  | tensor => rfl

/-- No type of the language nests deeper than a list of optionals. -/
theorem InLanguage.depth_le {ty : LaicType} (accepted : InLanguage ty) : ty.depth ≤ 3 := by
  have leaf : ∀ {ty : LaicType}, Laic.isLeafType ty = true → ty.depth = 1 :=
    LaicType.depth_of_isLeafType
  cases accepted with
  | scalar isScalar =>
    have := leaf (isLeafType_of_isScalar isScalar)
    omega
  | tensor => exact Nat.le_add_left 1 2
  | list element | optional element | listOptional element | optionalList element =>
    have := leaf element.isLeafType
    simp only [LaicType.depth]
    omega
  | map isKey isScalar =>
    have keyDepth := leaf (isLeafType_of_isScalar (LaicType.isScalar_of_isMapKey isKey))
    have valueDepth := leaf (isLeafType_of_isScalar isScalar)
    simp only [LaicType.depth]
    omega

/-! ## Tensors -/

theorem validateTensorDimensions_eq_ok {skillName fieldName : String} {dims : List Dimension} :
    validateTensorDimensions skillName fieldName dims = .ok () ↔
      dims ≠ [] ∧ Dimension.fixed 0 ∉ dims := by
  simp [validateTensorDimensions]

theorem validateFieldType_scalar {skillName fieldName : String} {ty : LaicType}
    (isScalar : ty.isScalar = true) : validateFieldType skillName fieldName ty = .ok () := by
  cases ty with
  | tensor | list | optional | map => cases isScalar
  | _ => rfl

/-- Dimensions without a dynamic one and without a fixed zero are all fixed and non-zero. -/
theorem sized_iff {dims : List Dimension} :
    (∀ dim ∈ dims, ∃ size, dim = .fixed size ∧ size ≠ 0) ↔
      dims.any Dimension.isDynamic = false ∧ Dimension.fixed 0 ∉ dims := by
  constructor
  · intro sized
    refine ⟨List.any_eq_false.mpr fun dim member => ?_, fun member => ?_⟩
    · obtain ⟨size, rfl, -⟩ := sized dim member
      exact Bool.false_ne_true
    · obtain ⟨size, same, positive⟩ := sized _ member
      cases same
      exact positive rfl
  · intro ⟨isStatic, nonzero⟩ dim member
    cases dim with
    | fixed size => exact ⟨size, rfl, fun zero => nonzero (zero ▸ member)⟩
    | dynamic name => exact absurd rfl (List.any_eq_false.mp isStatic _ member)

/-- On a leaf type the check for dynamic tensors and the leaf's own check leave the elements. -/
theorem element_iff (skillName fieldName : String) {ty : LaicType} (isLeaf : isLeafType ty = true) :
    Element ty ↔ ty.isDynamicTensor = false ∧ validateFieldType skillName fieldName ty = .ok () := by
  constructor
  · intro element
    cases element with
    | scalar isScalar =>
      refine ⟨?_, validateFieldType_scalar isScalar⟩
      cases ty with
      | tensor => cases isScalar
      | _ => rfl
    | tensor nonempty sized =>
      obtain ⟨isStatic, nonzero⟩ := sized_iff.mp sized
      exact ⟨isStatic, validateTensorDimensions_eq_ok.mpr ⟨nonempty, nonzero⟩⟩
  · intro ⟨isStatic, valid⟩
    cases ty with
    | list | optional | map => cases isLeaf
    | tensor dtype dims =>
      obtain ⟨nonempty, nonzero⟩ := validateTensorDimensions_eq_ok.mp valid
      exact .tensor nonempty (sized_iff.mpr ⟨isStatic, nonzero⟩)
    | _ => exact .scalar rfl

/-! ## Lists and optionals -/

section Parameterized

variable {skillName fieldName : String} {inner : LaicType}

/-- A list of a leaf type is accepted when the leaf is an element. -/
theorem validateFieldType_list_leaf (isLeaf : isLeafType inner = true) :
    validateFieldType skillName fieldName (.list inner) = .ok () ↔ Element inner := by
  rw [element_iff skillName fieldName isLeaf]
  simp only [validateFieldType, validateListTypeConstraints, Except.bind_eq_ok, Except.ensure_eq_ok]
  cases inner with
  | list | optional | map => cases isLeaf
  | _ => simp [LaicType.isList, LaicType.isMap, LaicType.optionalInner]

/-- An optional leaf type is accepted when the leaf is an element. -/
theorem validateFieldType_optional_leaf (isLeaf : isLeafType inner = true) :
    validateFieldType skillName fieldName (.optional inner) = .ok () ↔ Element inner := by
  rw [element_iff skillName fieldName isLeaf]
  simp only [validateFieldType, validateOptionalTypeConstraints, Except.bind_eq_ok,
    Except.ensure_eq_ok]
  cases inner with
  | list | optional | map => cases isLeaf
  | _ => simp [LaicType.isOptional, LaicType.isMap, LaicType.listInner]

/-- Under `list<optional<…>>` stands a leaf that is accepted as an optional. -/
theorem validateFieldType_list_optional :
    validateFieldType skillName fieldName (.list (.optional inner)) = .ok () ↔ Element inner := by
  have unfolded : validateFieldType skillName fieldName (.list (.optional inner)) = .ok () ↔
      isLeafType inner = true ∧
        validateFieldType skillName fieldName (.optional inner) = .ok () := by
    show (do
      validateListTypeConstraints skillName fieldName (.optional inner)
      validateFieldType skillName fieldName (.optional inner)) = .ok () ↔ _
    simp only [validateListTypeConstraints, Except.bind_eq_ok, Except.ensure_eq_ok]
    constructor
    · intro ⟨_, ⟨_, _, _, _, _, _, isLeaf⟩, valid⟩
      exact ⟨isLeaf, valid⟩
    · intro ⟨isLeaf, valid⟩
      exact ⟨(), ⟨(), nofun, (), nofun, (), nofun, isLeaf⟩, valid⟩
  rw [unfolded]
  constructor
  · intro ⟨isLeaf, valid⟩
    exact (validateFieldType_optional_leaf isLeaf).mp valid
  · intro element
    exact ⟨element.isLeafType, (validateFieldType_optional_leaf element.isLeafType).mpr element⟩

/-- Under `optional<list<…>>` stands a leaf that is accepted in a list. -/
theorem validateFieldType_optional_list :
    validateFieldType skillName fieldName (.optional (.list inner)) = .ok () ↔ Element inner := by
  have unfolded : validateFieldType skillName fieldName (.optional (.list inner)) = .ok () ↔
      isLeafType inner = true ∧ validateFieldType skillName fieldName (.list inner) = .ok () := by
    show (do
      validateOptionalTypeConstraints skillName fieldName (.list inner)
      validateFieldType skillName fieldName (.list inner)) = .ok () ↔ _
    simp only [validateOptionalTypeConstraints, Except.bind_eq_ok, Except.ensure_eq_ok]
    constructor
    · intro ⟨_, ⟨_, _, _, _, _, _, isLeaf⟩, valid⟩
      exact ⟨isLeaf, valid⟩
    · intro ⟨isLeaf, valid⟩
      exact ⟨(), ⟨(), nofun, (), nofun, (), nofun, isLeaf⟩, valid⟩
  rw [unfolded]
  constructor
  · intro ⟨isLeaf, valid⟩
    exact (validateFieldType_list_leaf isLeaf).mp valid
  · intro element
    exact ⟨element.isLeafType, (validateFieldType_list_leaf element.isLeafType).mpr element⟩

end Parameterized

/-! ## The accepted types -/

/-- A type of the language passes validation. -/
theorem InLanguage.validateFieldType {skillName fieldName : String} {ty : LaicType}
    (accepted : InLanguage ty) : validateFieldType skillName fieldName ty = .ok () := by
  cases accepted with
  | scalar isScalar => exact validateFieldType_scalar isScalar
  | tensor nonempty nonzero => exact validateTensorDimensions_eq_ok.mpr ⟨nonempty, nonzero⟩
  | list element => exact (validateFieldType_list_leaf element.isLeafType).mpr element
  | optional element => exact (validateFieldType_optional_leaf element.isLeafType).mpr element
  | listOptional element => exact validateFieldType_list_optional.mpr element
  | optionalList element => exact validateFieldType_optional_list.mpr element
  | @map key value isKey isScalar =>
    -- seven keys and ten values
    cases key <;> first | (cases isKey; done) | skip
    all_goals cases value <;> first | (cases isScalar; done) | rfl

/-- A type that passes validation is of the language.  The cases follow the type two levels
down, where the checks on parameters leave leaves only. -/
theorem inLanguage_of_validate {skillName fieldName : String} {ty : LaicType}
    (valid : validateFieldType skillName fieldName ty = .ok ()) : InLanguage ty := by
  -- a supported type has the right shape; its leaf is what remains to be checked
  cases supported_of_validate valid with
  | leaf leaf =>
    cases ty with
    | list | optional | map => cases leaf.isLeaf
    | tensor dtype dims =>
      exact .tensor (leaf.dims_ne_nil _ _ rfl) (leaf.fixed_ne_zero _ _ rfl)
    | _ => exact .scalar rfl
  | list leaf => exact .list ((validateFieldType_list_leaf leaf.isLeaf).mp valid)
  | optional leaf => exact .optional ((validateFieldType_optional_leaf leaf.isLeaf).mp valid)
  | listOptional => exact .listOptional (validateFieldType_list_optional.mp valid)
  | optionalList => exact .optionalList (validateFieldType_optional_list.mp valid)
  | map isKey isScalar => exact .map isKey isScalar

/-- Validation accepts the types of the language and no others, and none of them nests
deeper than three. -/
theorem validateFieldType_eq_ok (skillName fieldName : String) (ty : LaicType) :
    validateFieldType skillName fieldName ty = .ok () ↔ InLanguage ty ∧ ty.depth ≤ 3 := by
  constructor
  · intro valid
    exact ⟨inLanguage_of_validate valid, (inLanguage_of_validate valid).depth_le⟩
  · intro ⟨accepted, _⟩
    exact accepted.validateFieldType

example : validateFieldType "Echo" "x" (.optional (.list (.optional .i8))) =
    .error (.validation "skill 'Echo': field 'x': optional<list<T>> requires T to be a scalar, string, bytes, or tensor type") := by
  rfl

end Laic
