/-! # Parsing expression grammars

Parsing expressions as functions from the input to the token pairs produced and
the input left over, with ordered choice, greedy repetition and negative
lookahead.  A rule wraps the pairs of its body in a pair of its own, together with
the text it spans.  `sequence` and `many` take the expression that is skipped between
two parts; the `concat` and `star` forms skip nothing.

A grammar that refers to itself is a function of the input still to be parsed:
`AgreeBelow` says that two expressions do the same on short inputs, and the congruence
lemmas show that an expression guarded by a literal only needs its parts on inputs
shorter than its own. -/

namespace Peg

/-- A token pair: the rule, the text it spans and the pairs inside. -/
inductive Pair (ρ : Type) where
  | mk (rule : ρ) (text : List Char) (inner : List (Pair ρ))

namespace Pair

variable {ρ : Type}

def rule : Pair ρ → ρ
  | .mk rule _ _ => rule

def text : Pair ρ → List Char
  | .mk _ text _ => text

def inner : Pair ρ → List (Pair ρ)
  | .mk _ _ inner => inner

end Pair

/-- A parsing expression: from the input, the pairs of the match and what is left. -/
abbrev Expr (ρ : Type) := List Char → Option (List (Pair ρ) × List Char)

variable {ρ : Type}

/-! ## Combinators -/

/-- The input after `word`, if it starts with `word`. -/
def dropWord : List Char → List Char → Option (List Char)
  | [], input => some input
  | _ :: _, [] => none
  | c :: word, d :: input => if c = d then dropWord word input else none

def lit (word : String) : Expr ρ := fun input =>
  match dropWord word.toList input with
  | some rest => some ([], rest)
  | none => none

def satisfy (p : Char → Bool) : Expr ρ
  | [] => none
  | c :: rest => if p c then some ([], rest) else none

/-- Any one character. -/
def any : Expr ρ := satisfy fun _ => true

/-- The empty match. -/
def empty : Expr ρ := fun input => some ([], input)

def seq (first second : Expr ρ) : Expr ρ := fun input =>
  match first input with
  | none => none
  | some (pairs, rest) =>
    match second rest with
    | none => none
    | some (more, rest') => some (pairs ++ more, rest')

/-- The second alternative is tried only where the first fails. -/
def orElse (first second : Expr ρ) : Expr ρ := fun input =>
  match first input with
  | some found => some found
  | none => second input

def oneOf : List (Expr ρ) → Expr ρ
  | [] => fun _ => none
  | e :: es => orElse e (oneOf es)

def opt (e : Expr ρ) : Expr ρ := orElse e empty

/-- Succeeds without consuming where `e` fails. -/
def notAt (e : Expr ρ) : Expr ρ := fun input =>
  match e input with
  | some _ => none
  | none => some ([], input)

/-- At most `fuel` rounds of `e`; a round that consumes nothing is the last. -/
def repeatUpTo (e : Expr ρ) : Nat → List Char → List (Pair ρ) × List Char
  | 0, input => ([], input)
  | fuel + 1, input =>
    match e input with
    | none => ([], input)
    | some (pairs, rest) =>
      if rest.length < input.length then
        let (more, rest') := repeatUpTo e fuel rest
        (pairs ++ more, rest')
      else ([], input)

/-- As many rounds as match. -/
def star (e : Expr ρ) : Expr ρ := fun input => some (repeatUpTo e input.length input)

/-- The parts in order with nothing between them. -/
def concat : List (Expr ρ) → Expr ρ
  | [] => empty
  | [e] => e
  | e :: es => seq e (concat es)

/-- The parts in order, `skip` between them. -/
def sequence (skip : Expr ρ) : List (Expr ρ) → Expr ρ
  | [] => empty
  | [e] => e
  | e :: es => seq e (seq skip (sequence skip es))

/-- Any number of `e`, `skip` between them. -/
def many (skip e : Expr ρ) : Expr ρ := opt (seq e (star (seq skip e)))

/-- One `e` or more, `skip` between them. -/
def many1 (skip e : Expr ρ) : Expr ρ := sequence skip [e, many skip e]

/-- The match of `e` as one pair of `rule`. -/
def node (rule : ρ) (e : Expr ρ) : Expr ρ := fun input =>
  match e input with
  | none => none
  | some (pairs, rest) => some ([.mk rule (input.take (input.length - rest.length)) pairs], rest)

/-! ## What a match leaves -/

/-- A match leaves a suffix of the input. -/
def LeavesSuffix (e : Expr ρ) : Prop :=
  ∀ input pairs rest, e input = some (pairs, rest) → rest <:+ input

/-- A match consumes at least one character. -/
def Progresses (e : Expr ρ) : Prop :=
  ∀ input pairs rest, e input = some (pairs, rest) → rest.length < input.length

theorem dropWord_eq_some {word input rest : List Char} :
    dropWord word input = some rest ↔ input = word ++ rest := by
  induction word generalizing input with
  | nil => simp [dropWord]
  | cons c word ih =>
    cases input with
    | nil => simp [dropWord]
    | cons d input =>
      by_cases same : c = d
      · simp [dropWord, same, ih]
      · have different : ¬ d = c := fun equal => same equal.symm
        simp [dropWord, same, different]

theorem lit_eq_some {word : String} {input rest : List Char} {pairs : List (Pair ρ)} :
    lit word input = some (pairs, rest) ↔ pairs = [] ∧ input = word.toList ++ rest := by
  unfold lit
  cases found : dropWord word.toList input with
  | none =>
    have absent : ¬ input = word.toList ++ rest := fun equal => by
      rw [dropWord_eq_some.mpr equal] at found
      cases found
    simp [absent]
  | some rest' =>
    rw [dropWord_eq_some] at found
    subst found
    simp [eq_comm]

theorem lit_leavesSuffix (word : String) : LeavesSuffix (lit word : Expr ρ) := by
  intro input pairs rest matched
  rw [lit_eq_some] at matched
  exact ⟨word.toList, matched.2.symm⟩

theorem lit_progresses {word : String} (nonempty : word.toList ≠ []) :
    Progresses (lit word : Expr ρ) := by
  intro input pairs rest matched
  rw [lit_eq_some] at matched
  have positive := List.length_pos_iff.mpr nonempty
  rw [matched.2, List.length_append]
  omega

theorem satisfy_leavesSuffix (p : Char → Bool) : LeavesSuffix (satisfy p : Expr ρ) := by
  intro input pairs rest matched
  cases input with
  | nil => cases matched
  | cons c input =>
    simp only [satisfy] at matched
    split at matched
    · cases matched
      exact List.suffix_cons c _
    · cases matched

theorem empty_leavesSuffix : LeavesSuffix (empty : Expr ρ) := by
  intro input pairs rest matched
  cases matched
  exact List.suffix_refl _

theorem seq_eq_some {first second : Expr ρ} {input rest : List Char} {pairs : List (Pair ρ)} :
    seq first second input = some (pairs, rest) ↔
      ∃ left middle right, first input = some (left, middle) ∧
        second middle = some (right, rest) ∧ pairs = left ++ right := by
  constructor
  · intro matched
    unfold seq at matched
    split at matched
    · cases matched
    next left middle ran =>
      split at matched
      · cases matched
      next right rest' ran' =>
        cases matched
        exact ⟨left, middle, right, ran, ran', rfl⟩
  · rintro ⟨left, middle, right, ran, ran', rfl⟩
    simp only [seq, ran, ran']

theorem LeavesSuffix.seq {first second : Expr ρ} (suffix : LeavesSuffix first)
    (suffix' : LeavesSuffix second) : LeavesSuffix (seq first second) := by
  intro input pairs rest matched
  obtain ⟨left, middle, right, ran, ran', -⟩ := seq_eq_some.mp matched
  exact (suffix' _ _ _ ran').trans (suffix _ _ _ ran)

theorem LeavesSuffix.orElse {first second : Expr ρ} (suffix : LeavesSuffix first)
    (suffix' : LeavesSuffix second) : LeavesSuffix (orElse first second) := by
  intro input pairs rest matched
  unfold Peg.orElse at matched
  split at matched
  next found ran =>
    cases matched
    exact suffix _ _ _ ran
  next => exact suffix' _ _ _ matched

theorem LeavesSuffix.oneOf {es : List (Expr ρ)} (suffixes : ∀ e ∈ es, LeavesSuffix e) :
    LeavesSuffix (oneOf es) := by
  induction es with
  | nil =>
    intro input pairs rest matched
    cases matched
  | cons e es ih =>
    exact (suffixes e List.mem_cons_self).orElse
      (ih fun e' member => suffixes e' (List.mem_cons_of_mem e member))

theorem repeatUpTo_suffix {e : Expr ρ} (suffix : LeavesSuffix e) (fuel : Nat)
    (input : List Char) : (repeatUpTo e fuel input).2 <:+ input := by
  induction fuel generalizing input with
  | zero => exact List.suffix_refl input
  | succ fuel ih =>
    unfold repeatUpTo
    split
    next => exact List.suffix_refl input
    next pairs rest ran =>
      split
      · exact (ih rest).trans (suffix _ _ _ ran)
      · exact List.suffix_refl input

theorem LeavesSuffix.star {e : Expr ρ} (suffix : LeavesSuffix e) : LeavesSuffix (star e) := by
  intro input pairs rest matched
  have equal : repeatUpTo e input.length input = (pairs, rest) := Option.some.inj matched
  have left := repeatUpTo_suffix suffix input.length input
  rwa [equal] at left

theorem LeavesSuffix.opt {e : Expr ρ} (suffix : LeavesSuffix e) : LeavesSuffix (opt e) :=
  suffix.orElse empty_leavesSuffix

theorem LeavesSuffix.many {skip e : Expr ρ} (skips : LeavesSuffix skip) (suffix : LeavesSuffix e) :
    LeavesSuffix (many skip e) :=
  (suffix.seq (skips.seq suffix).star).opt

theorem LeavesSuffix.sequence {skip : Expr ρ} (skips : LeavesSuffix skip) {es : List (Expr ρ)}
    (suffixes : ∀ e ∈ es, LeavesSuffix e) : LeavesSuffix (sequence skip es) := by
  induction es with
  | nil => exact empty_leavesSuffix
  | cons e es ih =>
    have head := suffixes e List.mem_cons_self
    have tail := ih fun e' member => suffixes e' (List.mem_cons_of_mem e member)
    cases es with
    | nil => exact head
    | cons e' es => exact head.seq (skips.seq tail)

theorem LeavesSuffix.concat {es : List (Expr ρ)} (suffixes : ∀ e ∈ es, LeavesSuffix e) :
    LeavesSuffix (concat es) := by
  induction es with
  | nil => exact empty_leavesSuffix
  | cons e es ih =>
    have head := suffixes e List.mem_cons_self
    have tail := ih fun e' member => suffixes e' (List.mem_cons_of_mem e member)
    cases es with
    | nil => exact head
    | cons e' es => exact head.seq tail

theorem notAt_leavesSuffix (e : Expr ρ) : LeavesSuffix (notAt e) := by
  intro input pairs rest matched
  unfold notAt at matched
  split at matched
  · cases matched
  · cases matched
    exact List.suffix_refl _

theorem LeavesSuffix.node {e : Expr ρ} (suffix : LeavesSuffix e) (rule : ρ) :
    LeavesSuffix (node rule e) := by
  intro input pairs rest matched
  unfold Peg.node at matched
  split at matched
  · cases matched
  next ran =>
    cases matched
    exact suffix _ _ _ ran

/-! ## Agreement on short inputs -/

/-- The two expressions do the same on every input of less than `n` characters. -/
def AgreeBelow (n : Nat) (left right : Expr ρ) : Prop :=
  ∀ input : List Char, input.length < n → left input = right input

theorem AgreeBelow.refl (n : Nat) (e : Expr ρ) : AgreeBelow n e e := fun _ _ => rfl

theorem AgreeBelow.symm {n : Nat} {left right : Expr ρ} (agree : AgreeBelow n left right) :
    AgreeBelow n right left :=
  fun input short => (agree input short).symm

theorem AgreeBelow.seq {n : Nat} {first first' second second' : Expr ρ}
    (suffix : LeavesSuffix first) (agree : AgreeBelow n first first')
    (agree' : AgreeBelow n second second') :
    AgreeBelow n (seq first second) (seq first' second') := by
  intro input short
  unfold Peg.seq
  rw [← agree input short]
  cases ran : first input with
  | none => rfl
  | some found =>
    obtain ⟨pairs, rest⟩ := found
    have left := (suffix _ _ _ ran).length_le
    simp only [agree' rest (Nat.lt_of_le_of_lt left short)]

/-- What follows a part that progresses only sees shorter inputs. -/
theorem AgreeBelow.seq_of_progresses {n : Nat} {first second second' : Expr ρ}
    (progresses : Progresses first) (agree : AgreeBelow n second second') :
    AgreeBelow (n + 1) (Peg.seq first second) (Peg.seq first second') := by
  intro input short
  unfold Peg.seq
  cases ran : first input with
  | none => rfl
  | some found =>
    obtain ⟨pairs, rest⟩ := found
    have left := progresses _ _ _ ran
    simp only [agree rest (by omega)]

theorem AgreeBelow.orElse {n : Nat} {first first' second second' : Expr ρ}
    (agree : AgreeBelow n first first') (agree' : AgreeBelow n second second') :
    AgreeBelow n (orElse first second) (orElse first' second') := by
  intro input short
  unfold Peg.orElse
  rw [agree input short, agree' input short]

theorem AgreeBelow.node {n : Nat} {e e' : Expr ρ} (agree : AgreeBelow n e e') (rule : ρ) :
    AgreeBelow n (node rule e) (node rule e') := by
  intro input short
  unfold Peg.node
  rw [agree input short]

/-- Sequences of parts that agree one by one. -/
theorem AgreeBelow.sequence {n : Nat} {skip : Expr ρ} (skips : LeavesSuffix skip)
    (parts : List (Expr ρ × Expr ρ))
    (agree : ∀ part ∈ parts, LeavesSuffix part.1 ∧ AgreeBelow n part.1 part.2) :
    AgreeBelow n (sequence skip (parts.map Prod.fst)) (sequence skip (parts.map Prod.snd)) := by
  induction parts with
  | nil => exact AgreeBelow.refl n _
  | cons part parts ih =>
    have head := agree part List.mem_cons_self
    have tail := ih fun part' member => agree part' (List.mem_cons_of_mem part member)
    cases parts with
    | nil => exact head.2
    | cons part' parts =>
      exact AgreeBelow.seq head.1 head.2 (AgreeBelow.seq skips (AgreeBelow.refl n skip) tail)

/-- A sequence behind a part that progresses. -/
theorem AgreeBelow.guarded {n : Nat} {skip first : Expr ρ} (skips : LeavesSuffix skip)
    (progresses : Progresses first) (parts : List (Expr ρ × Expr ρ))
    (agree : ∀ part ∈ parts, LeavesSuffix part.1 ∧ AgreeBelow n part.1 part.2) :
    AgreeBelow (n + 1) (Peg.sequence skip (first :: parts.map Prod.fst))
      (Peg.sequence skip (first :: parts.map Prod.snd)) := by
  have tail := AgreeBelow.sequence skips parts agree
  cases parts with
  | nil => exact AgreeBelow.refl _ _
  | cons part parts =>
    exact AgreeBelow.seq_of_progresses progresses
      (AgreeBelow.seq skips (AgreeBelow.refl n skip) tail)

/-! ## What a match produces -/

/-- Some match of `e` produces these pairs. -/
def Produces (e : Expr ρ) (pairs : List (Pair ρ)) : Prop :=
  ∃ input rest, e input = some (pairs, rest)

/-- The pairs of one part after the other. -/
def Parts : List (Expr ρ) → List (Pair ρ) → Prop
  | [], pairs => pairs = []
  | e :: es, pairs => ∃ left right, pairs = left ++ right ∧ Produces e left ∧ Parts es right

/-- No match of `e` produces a pair. -/
def Silent (e : Expr ρ) : Prop := ∀ pairs, Produces e pairs → pairs = []

theorem Silent.lit (word : String) : Silent (lit word : Expr ρ) := by
  intro pairs ⟨input, rest, matched⟩
  exact (lit_eq_some.mp matched).1

theorem Silent.satisfy (p : Char → Bool) : Silent (satisfy p : Expr ρ) := by
  intro pairs ⟨input, rest, matched⟩
  cases input with
  | nil => cases matched
  | cons c input =>
    simp only [Peg.satisfy] at matched
    split at matched
    · cases matched
      rfl
    · cases matched

theorem Silent.notAt (e : Expr ρ) : Silent (notAt e) := by
  intro pairs ⟨input, rest, matched⟩
  unfold Peg.notAt at matched
  split at matched
  · cases matched
  · cases matched
    rfl

theorem Produces.seq {first second : Expr ρ} {pairs : List (Pair ρ)}
    (produced : Produces (seq first second) pairs) :
    ∃ left right, pairs = left ++ right ∧ Produces first left ∧ Produces second right := by
  obtain ⟨input, rest, matched⟩ := produced
  obtain ⟨left, middle, right, ran, ran', rfl⟩ := seq_eq_some.mp matched
  exact ⟨left, right, rfl, ⟨input, middle, ran⟩, ⟨middle, rest, ran'⟩⟩

theorem Produces.orElse {first second : Expr ρ} {pairs : List (Pair ρ)}
    (produced : Produces (orElse first second) pairs) :
    Produces first pairs ∨ Produces second pairs := by
  obtain ⟨input, rest, matched⟩ := produced
  unfold Peg.orElse at matched
  split at matched
  next found ran =>
    cases matched
    exact .inl ⟨input, rest, ran⟩
  next => exact .inr ⟨input, rest, matched⟩

theorem Produces.opt {e : Expr ρ} {pairs : List (Pair ρ)} (produced : Produces (opt e) pairs) :
    Produces e pairs ∨ pairs = [] := by
  obtain found | ⟨input, rest, matched⟩ := produced.orElse
  · exact .inl found
  · cases matched
    exact .inr rfl

theorem Produces.node {rule : ρ} {e : Expr ρ} {pairs : List (Pair ρ)}
    (produced : Produces (node rule e) pairs) :
    ∃ text inner, pairs = [.mk rule text inner] ∧ Produces e inner := by
  obtain ⟨input, rest, matched⟩ := produced
  unfold Peg.node at matched
  split at matched
  · cases matched
  next inner rest' ran =>
    cases matched
    exact ⟨_, inner, rfl, input, rest, ran⟩

/-- Every pair of a repetition comes from one of its rounds. -/
theorem Produces.star {e : Expr ρ} {pairs : List (Pair ρ)} (produced : Produces (star e) pairs) :
    ∀ pair ∈ pairs, ∃ round, Produces e round ∧ pair ∈ round := by
  have rounds : ∀ fuel input, ∀ pair ∈ (repeatUpTo e fuel input).1,
      ∃ round, Produces e round ∧ pair ∈ round := by
    intro fuel
    induction fuel with
    | zero =>
      intro input pair member
      cases member
    | succ fuel ih =>
      intro input pair member
      unfold repeatUpTo at member
      split at member
      · cases member
      next left rest ran =>
        split at member
        · -- the pairs of this round, and then those of the later ones
          obtain now | later := List.mem_append.mp member
          · exact ⟨left, ⟨input, rest, ran⟩, now⟩
          · exact ih rest pair later
        · cases member
  obtain ⟨input, rest, matched⟩ := produced
  have equal : repeatUpTo e input.length input = (pairs, rest) := Option.some.inj matched
  intro pair member
  apply rounds input.length input pair
  rwa [equal]

theorem Silent.star {e : Expr ρ} (silent : Silent e) : Silent (star e) := by
  intro pairs produced
  apply List.eq_nil_iff_forall_not_mem.mpr
  intro pair member
  obtain ⟨round, found, inside⟩ := produced.star pair member
  rw [silent round found] at inside
  cases inside

theorem Silent.seq {first second : Expr ρ} (silent : Silent first) (silent' : Silent second) :
    Silent (seq first second) := by
  intro pairs produced
  obtain ⟨left, right, rfl, found, found'⟩ := produced.seq
  rw [silent left found, silent' right found', List.append_nil]

theorem Silent.orElse {first second : Expr ρ} (silent : Silent first) (silent' : Silent second) :
    Silent (orElse first second) := by
  intro pairs produced
  cases produced.orElse with
  | inl found => exact silent pairs found
  | inr found => exact silent' pairs found

/-- The pairs of a sequence are those of its parts. -/
theorem Produces.sequence {skip : Expr ρ} (silent : Silent skip) {es : List (Expr ρ)}
    {pairs : List (Pair ρ)} (produced : Produces (sequence skip es) pairs) : Parts es pairs := by
  induction es generalizing pairs with
  | nil =>
    obtain ⟨input, rest, matched⟩ := produced
    cases matched
    rfl
  | cons e es ih =>
    cases es with
    | nil => exact ⟨pairs, [], (List.append_nil pairs).symm, produced, rfl⟩
    | cons e' es =>
      obtain ⟨left, right, rfl, found, more⟩ := produced.seq
      obtain ⟨skipped, rest, rfl, skips, found'⟩ := more.seq
      rw [silent skipped skips, List.nil_append]
      exact ⟨left, rest, rfl, found, ih found'⟩

/-- Every pair of a repetition with skips comes from one of its rounds. -/
theorem Produces.many {skip e : Expr ρ} (silent : Silent skip) {pairs : List (Pair ρ)}
    (produced : Produces (many skip e) pairs) :
    ∀ pair ∈ pairs, ∃ round, Produces e round ∧ pair ∈ round := by
  intro pair member
  obtain found | rfl := produced.opt
  · obtain ⟨left, right, rfl, first, more⟩ := found.seq
    obtain inFirst | inMore := List.mem_append.mp member
    · exact ⟨left, first, inFirst⟩
    · obtain ⟨round, spaced, inside⟩ := more.star pair inMore
      obtain ⟨skipped, round', rfl, skips, found'⟩ := spaced.seq
      rw [silent skipped skips, List.nil_append] at inside
      exact ⟨round', found', inside⟩
  · cases member

theorem Produces.many1 {skip e : Expr ρ} (silent : Silent skip) {pairs : List (Pair ρ)}
    (produced : Produces (many1 skip e) pairs) :
    ∀ pair ∈ pairs, ∃ round, Produces e round ∧ pair ∈ round := by
  obtain ⟨left, _, rfl, first, right, _, rfl, more, rfl⟩ := Produces.sequence silent produced
  intro pair member
  rw [List.append_nil] at member
  obtain inFirst | inMore := List.mem_append.mp member
  · exact ⟨left, first, inFirst⟩
  · exact more.many silent pair inMore

/-- The rounds over single characters take characters that satisfy the test. -/
theorem repeatUpTo_satisfy {p : Char → Bool} {fuel : Nat} {input rest : List Char}
    {pairs : List (Pair ρ)} (ran : repeatUpTo (satisfy p) fuel input = (pairs, rest)) :
    ∃ taken, input = taken ++ rest ∧ ∀ c ∈ taken, p c = true := by
  induction fuel generalizing input pairs with
  | zero =>
    cases ran
    exact ⟨[], rfl, nofun⟩
  | succ fuel ih =>
    cases input with
    | nil =>
      cases ran
      exact ⟨[], rfl, nofun⟩
    | cons c input =>
      by_cases holds : p c = true
      · cases later : repeatUpTo (satisfy p : Expr ρ) fuel input with
        | mk more rest' =>
          simp only [repeatUpTo, satisfy, holds, if_true, List.length_cons, Nat.lt_add_one,
            later] at ran
          cases ran
          obtain ⟨taken, rfl, all⟩ := ih later
          refine ⟨c :: taken, rfl, fun d member => ?_⟩
          cases member with
          | head => exact holds
          | tail _ member => exact all d member
      · simp only [repeatUpTo, satisfy, holds] at ran
        cases ran
        exact ⟨[], rfl, nofun⟩

end Peg
