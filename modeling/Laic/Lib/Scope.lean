import Mathlib.Data.List.Nodup

/-! # Names and scopes

Code as far as its names go: what it binds, what it uses, and whose binding each use is
written for.  Languages differ in when a scope owns the names it declares.  Either a
declaration counts from where it stands, or it counts in the whole scope, and a use in front
of it finds nothing. -/

namespace Scope

/-- Code whose bindings belong to owners; a use carries the owner it is written for. -/
inductive Code (ω : Type) where
  | skip
  | use (name : String) (owner : ω)
  | bind (name : String) (owner : ω)
  | scope (body : Code ω)
  | seq (first rest : Code ω)

/-- How a language treats the declarations of a scope. -/
structure Rules where
  /-- A scope owns the names it declares from its start. -/
  hoists : Bool
  /-- A scope may declare a name again. -/
  redeclares : Bool
  /-- The constants and constructors, which a pattern matches instead of binding. -/
  constructors : List String

/-- The owner a name is bound to, if it is bound yet. -/
abbrev Env (ω : Type) := String → Option ω

variable {ω : Type}

def Env.bind (env : Env ω) (name : String) (owner : ω) : Env ω := fun other =>
  if other = name then some owner else env other

@[simp] theorem Env.bind_apply (env : Env ω) (name other : String) (owner : ω) :
    env.bind name owner other = if other = name then some owner else env other := rfl

namespace Code

/-- Code one after the other. -/
def all : List (Code ω) → Code ω
  | [] => skip
  | first :: rest => seq first (all rest)

/-- The bindings of a scope itself, without the scopes inside it. -/
def binds : Code ω → List (String × ω)
  | skip | use _ _ | scope _ => []
  | bind name owner => [(name, owner)]
  | seq first rest => first.binds ++ rest.binds

def declares (code : Code ω) : List String := code.binds.map Prod.fst

/-- The uses in the code and in the scopes inside it. -/
def uses : Code ω → List (String × ω)
  | skip | bind _ _ => []
  | use name owner => [(name, owner)]
  | scope body => body.uses
  | seq first rest => first.uses ++ rest.uses

/-- The owners for whom the code, or a scope inside it, binds a name. -/
def owners : Code ω → List ω
  | skip | use _ _ => []
  | bind _ owner => [owner]
  | scope body => body.owners
  | seq first rest => first.owners ++ rest.owners

/-- The environment behind the code. -/
def after (env : Env ω) : Code ω → Env ω
  | skip | use _ _ | scope _ => env
  | bind name owner => env.bind name owner
  | seq first rest => rest.after (first.after env)

end Code

/-- The environment at the start of a scope. -/
def Rules.enter (rules : Rules) (declared : List String) (env : Env ω) : Env ω := fun name =>
  if rules.hoists = true ∧ name ∈ declared then none else env name

/-- Every use finds the binding it is written for, and every declaration is allowed. -/
def Resolves (rules : Rules) (env : Env ω) : Code ω → Prop
  | .skip => True
  | .use name owner => env name = some owner
  | .bind name _ => name ∉ rules.constructors
  | .scope body =>
    (rules.redeclares = false → body.declares.Nodup) ∧
      Resolves rules (rules.enter body.declares env) body
  | .seq first rest => Resolves rules env first ∧ Resolves rules (first.after env) rest

instance Resolves.decidable [DecidableEq ω] (rules : Rules) :
    (env : Env ω) → (code : Code ω) → Decidable (Resolves rules env code)
  | _, .skip => inferInstanceAs (Decidable True)
  | env, .use name owner => inferInstanceAs (Decidable (env name = some owner))
  | _, .bind name _ => inferInstanceAs (Decidable (name ∉ rules.constructors))
  | env, .scope body =>
    have := Resolves.decidable rules (rules.enter body.declares env) body
    inferInstanceAs (Decidable (_ ∧ _))
  | env, .seq first rest =>
    have := Resolves.decidable rules env first
    have := Resolves.decidable rules (first.after env) rest
    inferInstanceAs (Decidable (_ ∧ _))

/-! ## Bindings of a sequence -/

namespace Code

@[simp] theorem binds_skip : (skip : Code ω).binds = [] := rfl

@[simp] theorem binds_use (name : String) (owner : ω) : (use name owner).binds = [] := rfl

@[simp] theorem binds_bind (name : String) (owner : ω) :
    (bind name owner).binds = [(name, owner)] := rfl

@[simp] theorem binds_scope (body : Code ω) : (scope body).binds = [] := rfl

@[simp] theorem binds_seq (first rest : Code ω) :
    (seq first rest).binds = first.binds ++ rest.binds := rfl

@[simp] theorem all_nil : all ([] : List (Code ω)) = skip := rfl

@[simp] theorem all_cons (first : Code ω) (rest : List (Code ω)) :
    all (first :: rest) = seq first (all rest) := rfl

theorem binds_all (codes : List (Code ω)) : (all codes).binds = codes.flatMap binds := by
  induction codes with
  | nil => rfl
  | cons first rest ih => simp [ih]

theorem declares_all (codes : List (Code ω)) :
    (all codes).declares = codes.flatMap declares := by
  simp only [declares, binds_all, List.map_flatMap]
  rfl

@[simp] theorem declares_seq (first rest : Code ω) :
    (seq first rest).declares = first.declares ++ rest.declares := by
  simp [declares]

@[simp] theorem uses_skip : (skip : Code ω).uses = [] := rfl

@[simp] theorem uses_scope (body : Code ω) : (scope body).uses = body.uses := rfl

@[simp] theorem uses_seq (first rest : Code ω) :
    (seq first rest).uses = first.uses ++ rest.uses := rfl

@[simp] theorem uses_all (codes : List (Code ω)) : (all codes).uses = codes.flatMap uses := by
  induction codes with
  | nil => rfl
  | cons first rest ih => simp [ih]

@[simp] theorem owners_skip : (skip : Code ω).owners = [] := rfl

@[simp] theorem owners_scope (body : Code ω) : (scope body).owners = body.owners := rfl

@[simp] theorem owners_seq (first rest : Code ω) :
    (seq first rest).owners = first.owners ++ rest.owners := rfl

@[simp] theorem owners_all (codes : List (Code ω)) :
    (all codes).owners = codes.flatMap owners := by
  induction codes with
  | nil => rfl
  | cons first rest ih => simp [ih]

@[simp] theorem after_skip (env : Env ω) : skip.after env = env := rfl

@[simp] theorem after_use (env : Env ω) (name : String) (owner : ω) :
    (use name owner).after env = env := rfl

@[simp] theorem after_bind (env : Env ω) (name : String) (owner : ω) :
    (bind name owner).after env = env.bind name owner := rfl

@[simp] theorem after_scope (env : Env ω) (body : Code ω) : (scope body).after env = env := rfl

@[simp] theorem after_seq (env : Env ω) (first rest : Code ω) :
    (seq first rest).after env = rest.after (first.after env) := rfl

/-- Where the owner of a binding is a function of its name, the environment behind the code
does not depend on the order of the bindings. -/
theorem after_apply (ownerOf : String → ω) {code : Code ω}
    (owned : ∀ binding ∈ code.binds, binding.2 = ownerOf binding.1) (env : Env ω)
    (name : String) :
    code.after env name = if name ∈ code.declares then some (ownerOf name) else env name := by
  induction code generalizing env with
  | skip => rfl
  | use other owner => rfl
  | scope body => rfl
  | bind other owner =>
    have same : owner = ownerOf other := owned (other, owner) (List.mem_singleton.mpr rfl)
    by_cases hit : name = other
    · simp [declares, hit, same]
    · simp [declares, hit]
  | seq first rest ihFirst ihRest =>
    have ownedFirst : ∀ binding ∈ first.binds, binding.2 = ownerOf binding.1 :=
      fun binding member => owned binding (List.mem_append_left _ member)
    have ownedRest : ∀ binding ∈ rest.binds, binding.2 = ownerOf binding.1 :=
      fun binding member => owned binding (List.mem_append_right _ member)
    rw [after_seq, ihRest ownedRest, ihFirst ownedFirst, declares_seq]
    by_cases inRest : name ∈ rest.declares <;> simp [inRest]

/-- A name the code does not bind is as it was. -/
theorem after_of_notMem {code : Code ω} {name : String} (absent : name ∉ code.declares)
    (env : Env ω) : code.after env name = env name := by
  induction code generalizing env with
  | skip => rfl
  | use other owner => rfl
  | scope body => rfl
  | bind other owner =>
    have differs : name ≠ other := by simpa [declares] using absent
    simp [differs]
  | seq first rest ihFirst ihRest =>
    simp only [declares_seq, List.mem_append, not_or] at absent
    rw [after_seq, ihRest absent.2, ihFirst absent.1]

/-- A name that is declared once is its owner's behind the code. -/
theorem after_of_nodup {code : Code ω} (distinct : code.declares.Nodup) {name : String}
    {owner : ω} (bound : (name, owner) ∈ code.binds) (env : Env ω) :
    code.after env name = some owner := by
  induction code generalizing env with
  | skip => cases bound
  | use other owner => cases bound
  | scope body => cases bound
  | bind other otherOwner =>
    cases List.mem_singleton.mp bound
    simp
  | seq first rest ihFirst ihRest =>
    rw [declares_seq, List.nodup_append] at distinct
    obtain ⟨distinctFirst, distinctRest, apart⟩ := distinct
    rw [after_seq]
    cases List.mem_append.mp bound with
    | inl inFirst =>
      have absent : name ∉ rest.declares := fun declared =>
        apart name (List.mem_map_of_mem inFirst) name declared rfl
      rw [after_of_notMem absent]
      exact ihFirst distinctFirst inFirst env
    | inr inRest => exact ihRest distinctRest inRest _

/-- What is an owner's behind the code was so before it, if the code binds nothing for that
owner. -/
theorem after_eq_some {code : Code ω} {owner : ω} (never : owner ∉ code.owners) {env : Env ω}
    {name : String} (found : code.after env name = some owner) : env name = some owner := by
  induction code generalizing env with
  | skip => exact found
  | use other otherOwner => exact found
  | scope body => exact found
  | bind other otherOwner =>
    have differs : otherOwner ≠ owner := fun same => never (List.mem_singleton.mpr same.symm)
    rw [after_bind, Env.bind_apply] at found
    split at found
    · exact absurd (Option.some.inj found) differs
    · exact found
  | seq first rest ihFirst ihRest =>
    rw [owners, List.mem_append, not_or] at never
    exact ihFirst never.1 (ihRest never.2 found)

/-- Code that binds nothing leaves the environment as it is. -/
theorem after_of_silent {code : Code ω} (silent : code.binds = []) (env : Env ω) :
    code.after env = env := by
  funext name
  exact after_of_notMem (by simp [declares, silent]) env

end Code

/-! ## Resolution of a sequence -/

section Resolution

variable {rules : Rules} {env : Env ω}

@[simp] theorem resolves_skip : Resolves rules env Code.skip := True.intro

@[simp] theorem resolves_use {name : String} {owner : ω} :
    Resolves rules env (.use name owner) ↔ env name = some owner := Iff.rfl

@[simp] theorem resolves_bind {name : String} {owner : ω} :
    Resolves rules env (.bind name owner) ↔ name ∉ rules.constructors := Iff.rfl

@[simp] theorem resolves_scope {body : Code ω} :
    Resolves rules env (.scope body) ↔ (rules.redeclares = false → body.declares.Nodup) ∧
      Resolves rules (rules.enter body.declares env) body := Iff.rfl

@[simp] theorem resolves_seq {first rest : Code ω} :
    Resolves rules env (.seq first rest) ↔
      Resolves rules env first ∧ Resolves rules (first.after env) rest := Iff.rfl

/-- A sequence resolves where each part does behind the parts in front of it. -/
theorem resolves_all_map {α : Type} {code : α → Code ω} {items : List α} :
    Resolves rules env (.all (items.map code)) ↔
      ∀ before item behind, items = before ++ item :: behind →
        Resolves rules ((Code.all (before.map code)).after env) (code item) := by
  induction items generalizing env with
  | nil => simp
  | cons first rest ih =>
    simp only [List.map_cons, Code.all_cons, resolves_seq, ih]
    constructor
    · intro ⟨head, tail⟩ before item behind split
      cases before with
      | nil =>
        cases split
        exact head
      | cons other before =>
        cases split
        exact tail before item behind rfl
    · intro each
      refine ⟨each [] first rest rfl, fun before item behind split => ?_⟩
      exact each (first :: before) item behind (by rw [split, List.cons_append])

/-- Statements that bind nothing resolve one by one. -/
theorem resolves_all_silent {codes : List (Code ω)}
    (silent : ∀ code ∈ codes, code.binds = []) :
    Resolves rules env (.all codes) ↔ ∀ code ∈ codes, Resolves rules env code := by
  induction codes with
  | nil => simp
  | cons first rest ih =>
    rw [Code.all_cons, resolves_seq, Code.after_of_silent (silent first List.mem_cons_self),
      ih fun code member => silent code (List.mem_cons_of_mem _ member), List.forall_mem_cons]

/-- A use finds an owner for whom the code binds nothing only in the environment. -/
theorem Resolves.env_eq {code : Code ω} (resolved : Resolves rules env code) {name : String}
    {owner : ω} (used : (name, owner) ∈ code.uses) (never : owner ∉ code.owners) :
    env name = some owner := by
  induction code generalizing env with
  | skip => cases used
  | bind other otherOwner => cases used
  | use other otherOwner =>
    cases List.mem_singleton.mp used
    exact resolved
  | scope body ih =>
    have found := ih resolved.2 used never
    rw [Rules.enter] at found
    split at found
    · cases found
    · exact found
  | seq first rest ihFirst ihRest =>
    rw [Code.owners, List.mem_append, not_or] at never
    cases List.mem_append.mp used with
    | inl inFirst => exact ihFirst resolved.1 inFirst never.1
    | inr inRest => exact Code.after_eq_some never.1 (ihRest resolved.2 inRest never.2)

end Resolution

/-! ## Methods -/

/-- A method of one body and its parameters. -/
structure Method (ω : Type) where
  params : List String
  body : Code ω

/-- The environment of a body: the parameters are `own`, and around the method names are what
`outer` says. -/
def Method.entry (method : Method ω) (rules : Rules) (outer : Env ω) (own : ω) : Env ω := fun name =>
  if name ∈ method.params then some own else rules.enter method.body.declares outer name

/-- A method is hygienic if its declarations are allowed and its names resolve.  Where
declarations are hoisted, one with the name of a parameter is the parameter. -/
structure Method.Hygienic (method : Method ω) (rules : Rules) (outer : Env ω) (own : ω) : Prop where
  distinct : rules.redeclares = false → method.body.declares.Nodup
  parameters : rules.hoists = true → ∀ name ∈ method.params, name ∉ method.body.declares
  resolves : Resolves rules (method.entry rules outer own) method.body

end Scope
