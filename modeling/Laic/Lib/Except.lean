/-! # Early returns in `Except`

`Except.ensure` is the guard that returns an error early; the lemmas here decide
when a chain of guards and fallible calls succeeds, one link at a time. -/

namespace Except

variable {ε ε' α β : Type}

/-- Go on if `condition` holds, return `error` otherwise. -/
def ensure (condition : Prop) [Decidable condition] (error : ε) : Except ε Unit :=
  if condition then .ok () else .error error

@[simp] theorem ensure_eq_ok {condition : Prop} [Decidable condition] {error : ε} {value : Unit} :
    ensure condition error = .ok value ↔ condition := by
  unfold ensure
  split <;> simp_all

@[simp] theorem ensure_eq_error {condition : Prop} [Decidable condition] {error error' : ε} :
    ensure condition error = .error error' ↔ ¬ condition ∧ error = error' := by
  unfold ensure
  split <;> simp_all

theorem ensure_pos {condition : Prop} [Decidable condition] {error : ε} (holds : condition) :
    ensure condition error = .ok () := if_pos holds

theorem ensure_neg {condition : Prop} [Decidable condition] {error : ε} (fails : ¬ condition) :
    ensure condition error = .error error := if_neg fails

/-- The value, or `error` where there is none. -/
def ofOption (error : ε) : Option α → Except ε α
  | none => .error error
  | some value => .ok value

@[simp] theorem ofOption_eq_ok {error : ε} {first : Option α} {value : α} :
    ofOption error first = .ok value ↔ first = some value := by
  cases first <;> simp [ofOption]

@[simp] theorem ofOption_some (error : ε) (value : α) : ofOption error (some value) = .ok value := rfl

@[simp] theorem ofOption_none (error : ε) : ofOption error (none : Option α) = .error error := rfl

@[simp] theorem bind_eq_ok {first : Except ε α} {next : α → Except ε β} {value : β} :
    (first >>= next) = .ok value ↔ ∃ middle, first = .ok middle ∧ next middle = .ok value := by
  cases first with
  | error error => exact ⟨nofun, fun ⟨_, impossible, _⟩ => nomatch impossible⟩
  | ok middle =>
    exact ⟨fun equal => ⟨middle, rfl, equal⟩, fun ⟨_, equal, rest⟩ => by cases equal; exact rest⟩

/-- A sequence fails where its first part does, or its second one on the first's value. -/
theorem bind_eq_error {first : Except ε α} {next : α → Except ε β} {error : ε} :
    (first >>= next) = .error error ↔
      first = .error error ∨ ∃ middle, first = .ok middle ∧ next middle = .error error := by
  cases first with
  | error error' => simp [bind, Except.bind]
  | ok middle => simp [bind, Except.bind]

@[simp] theorem ok_bind (middle : α) (next : α → Except ε β) :
    ((.ok middle : Except ε α) >>= next) = next middle := rfl

@[simp] theorem error_bind (error : ε) (next : α → Except ε β) :
    ((.error error : Except ε α) >>= next) = .error error := rfl

@[simp] theorem pure_eq (value : α) : (pure value : Except ε α) = .ok value := rfl

@[simp] theorem map_ok_eq (f : α → β) (value : α) :
    f <$> (.ok value : Except ε α) = .ok (f value) := rfl

@[simp] theorem map_error_eq (f : α → β) (error : ε) :
    f <$> (.error error : Except ε α) = .error error := rfl

@[simp] theorem mapError_ok (translate : ε → ε') (value : α) :
    (Except.ok value).mapError translate = .ok value := rfl

@[simp] theorem mapError_error (translate : ε → ε') (error : ε) :
    (Except.error error : Except ε α).mapError translate = .error (translate error) := rfl

@[simp] theorem mapError_eq_ok {translate : ε → ε'} {first : Except ε α} {value : α} :
    first.mapError translate = .ok value ↔ first = .ok value := by
  cases first <;> simp

@[simp] theorem mapError_eq_error {translate : ε → ε'} {first : Except ε α} {error' : ε'} :
    first.mapError translate = .error error' ↔
      ∃ error, first = .error error ∧ translate error = error' := by
  cases first <;> simp

/-- A traversal succeeds exactly where every step does. -/
theorem exists_mapM_eq_ok {f : α → Except ε β} {xs : List α} :
    (∃ ys, xs.mapM f = .ok ys) ↔ ∀ x ∈ xs, ∃ y, f x = .ok y := by
  induction xs with
  | nil => simp
  | cons x xs ih =>
    simp only [List.mapM_cons, bind_eq_ok, List.forall_mem_cons, ← ih]
    constructor
    · rintro ⟨_, y, first, ys, rest, _⟩
      exact ⟨⟨y, first⟩, ⟨ys, rest⟩⟩
    · rintro ⟨⟨y, first⟩, ⟨ys, rest⟩⟩
      exact ⟨y :: ys, y, first, ys, rest, rfl⟩

/-- A computation that does not succeed fails. -/
theorem exists_error_of_ne_ok {first : Except ε α} (fails : ∀ value, first ≠ .ok value) :
    ∃ error, first = .error error := by
  cases first with
  | error error => exact ⟨error, rfl⟩
  | ok value => exact absurd rfl (fails value)

/-- What holds of all results of a successful run holds of the result of each element. -/
theorem forall_mem_of_mapM {f : α → Except ε β} {xs : List α} {ys : List β} (made : xs.mapM f = .ok ys)
    {P : β → Prop} : (∀ y ∈ ys, P y) ↔ ∀ x ∈ xs, ∀ y, f x = .ok y → P y := by
  induction xs generalizing ys with
  | nil =>
    cases made
    simp
  | cons x xs ih =>
    simp only [List.mapM_cons, bind_eq_ok] at made
    obtain ⟨first, firstMade, rest, restMade, same⟩ := made
    cases same
    rw [List.forall_mem_cons, List.forall_mem_cons, ih restMade]
    simp only [firstMade, Except.ok.injEq, forall_eq']

/-- A computation whose value passes a test succeeds with such a value. -/
theorem exists_of_any {first : Except ε α} {test : α → Bool}
    (holds : first.toOption.any test = true) : ∃ value, first = .ok value ∧ test value = true := by
  cases first with
  | error error => cases holds
  | ok value => exact ⟨value, rfl, holds⟩

/-! ## Which errors there are -/

/-- Every error of the computation is of this kind. -/
def FailsWith (kind : ε → Prop) (first : Except ε α) : Prop := ∀ error, first = .error error → kind error

namespace FailsWith

variable {kind : ε → Prop}

theorem ok (value : α) : FailsWith kind (.ok value : Except ε α) := nofun

theorem error {error : ε} (isKind : kind error) : FailsWith kind (.error error : Except ε α) := by
  intro error' same
  cases same
  exact isKind

theorem ensure {condition : Prop} [Decidable condition] {error : ε} (isKind : kind error) :
    FailsWith kind (ensure condition error) := by
  intro error' failed
  rw [ensure_eq_error] at failed
  exact failed.2 ▸ isKind

theorem bind {first : Except ε α} {next : α → Except ε β} (early : FailsWith kind first)
    (later : ∀ middle, FailsWith kind (next middle)) : FailsWith kind (first >>= next) := by
  intro error failed
  obtain failed | ⟨middle, -, failed⟩ := bind_eq_error.mp failed
  · exact early error failed
  · exact later middle error failed

end FailsWith

end Except
