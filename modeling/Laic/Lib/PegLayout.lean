import Mathlib.Data.List.Forall2
import Laic.Lib.PegPrinting
import Laic.Lib.PegReading

/-! # Grammars on laid-out texts

A text is laid out from tokens when these stand in it in order, with blanks between them and around
them.  `Accepts` says that an expression matches certain tokens in every layout, given the tokens that
are laid out behind them.  The rules follow the combinators: a match of a sequence is put together from
matches of its parts, and the blanks between the parts are those that `skip` takes. -/

namespace Peg

variable {ρ σ : Type}

/-! ## Repetition -/

/-- More fuel than characters changes nothing. -/
theorem repeatUpTo_enough {e : Expr ρ} {fuel : Nat} {input : List Char} (enough : input.length ≤ fuel) :
    repeatUpTo e fuel input = repeatUpTo e input.length input := by
  induction fuel using Nat.strongRecOn generalizing input with
  | ind fuel ih =>
    cases fuel with
    | zero =>
      have none : input.length = 0 := by omega
      rw [none]
    | succ fuel =>
      cases length : input.length with
      | zero =>
        have empty : input = [] := List.length_eq_zero_iff.mp length
        subst empty
        simp only [repeatUpTo]
        cases e [] with
        | none => rfl
        | some found => simp
      | succ n =>
        simp only [repeatUpTo, length]
        cases e input with
        | none => rfl
        | some found =>
          by_cases shorter : found.2.length < n + 1
          · have left := ih fuel (by omega) (by omega : found.2.length ≤ fuel)
            have right := ih n (by omega) (by omega : found.2.length ≤ n)
            simp only [if_pos shorter, left, right]
          · simp only [if_neg shorter]

/-- One round, and the others from where it ends. -/
theorem star_round {e : Expr ρ} {input middle rest : List Char} {pairs pairs' : List (Pair ρ)}
    (round : e input = some (pairs, middle)) (shorter : middle.length < input.length)
    (others : star e middle = some (pairs', rest)) : star e input = some (pairs ++ pairs', rest) := by
  have rounds : repeatUpTo e middle.length middle = (pairs', rest) := Option.some.inj others
  cases length : input.length with
  | zero => omega
  | succ n =>
    have enough : repeatUpTo e n middle = (pairs', rest) := by
      rw [repeatUpTo_enough (by omega : middle.length ≤ n), rounds]
    simp only [star, length, repeatUpTo, round]
    rw [length] at shorter
    simp only [if_pos shorter, enough]

/-- No round. -/
theorem star_stop {e : Expr ρ} {input : List Char} (fails : e input = none) :
    star e input = some ([], input) := by
  cases length : input.length with
  | zero => simp only [star, length, repeatUpTo]
  | succ n => simp only [star, length, repeatUpTo, fails]

/-! ## Layouts -/

/-- The expression between two parts, the blanks it takes, and the tokens it stops at. -/
structure Spacing (ρ : Type) where
  skip : Expr ρ
  blank : Blank
  visible : List Char → Prop
  skips : ∀ {token text behind : List Char}, visible token → blank.skipped text (token ++ behind) →
    skip text = some ([], token ++ behind)
  ends : ∀ {text : List Char}, blank.skipped text [] → skip text = some ([], [])

namespace Spacing

variable (spacing : Spacing ρ)

/-- The text is laid out from the tokens. -/
inductive Layout : List (List Char) → List Char → Prop where
  | done {text : List Char} (skipped : spacing.blank.skipped text []) : Layout [] text
  | token {text token behind : List Char} {tokens : List (List Char)} (visible : spacing.visible token)
      (skipped : spacing.blank.skipped text (token ++ behind)) (later : Layout tokens behind) :
      Layout (token :: tokens) text

/-- The same, with no blank in front. -/
def Starts : List (List Char) → List Char → Prop
  | [], text => text = []
  | token :: tokens, text => ∃ behind, text = token ++ behind ∧ spacing.visible token ∧
      spacing.Layout tokens behind

variable {spacing} {tokens tokens' later : List (List Char)} {token text behind : List Char}

theorem Layout.skip (layout : spacing.Layout tokens text) :
    ∃ text', spacing.skip text = some ([], text') ∧ spacing.Starts tokens text' ∧
      text'.length ≤ text.length := by
  cases layout with
  | done skipped => exact ⟨[], spacing.ends skipped, rfl, Nat.zero_le _⟩
  | token visible skipped later =>
    exact ⟨_, spacing.skips visible skipped, ⟨_, rfl, visible, later⟩,
      (spacing.blank.suffix skipped).length_le⟩

theorem Starts.layout (starts : spacing.Starts tokens text) : spacing.Layout tokens text := by
  cases tokens with
  | nil =>
    subst starts
    exact .done (spacing.blank.refl [])
  | cons token tokens =>
    obtain ⟨behind, rfl, visible, later⟩ := starts
    exact .token visible (spacing.blank.refl _) later

/-- Tokens that can be seen are laid out in a text that reads as them. -/
theorem Layout.of_reads {rest : List Char} (reads : spacing.blank.Reads tokens text rest) (ended : rest = [])
    (visible : ∀ token ∈ tokens, spacing.visible token) : spacing.Layout tokens text := by
  induction reads with
  | done skipped =>
    subst ended
    exact .done skipped
  | token skipped _ ih =>
    exact .token (visible _ List.mem_cons_self) skipped
      (ih ended fun token member => visible token (List.mem_cons_of_mem _ member))

end Spacing

/-! ## Expressions on layouts -/

/-- In every layout of the tokens and of those behind them, the expression matches the tokens, and
its pairs are good. -/
def Accepts (spacing : Spacing ρ) (e : Expr ρ) (tokens later : List (List Char))
    (good : List (Pair ρ) → Prop) : Prop :=
  ∀ text, spacing.Starts (tokens ++ later) text → ∃ pairs rest, e text = some (pairs, rest) ∧
    spacing.Layout later rest ∧ rest.length + tokens.flatten.length ≤ text.length ∧ good pairs

/-- The expression does not match in front of these tokens. -/
def Refuses (spacing : Spacing ρ) (e : Expr ρ) (tokens : List (List Char)) : Prop :=
  ∀ text, spacing.Starts tokens text → e text = none

/-- The pairs of one part and those of another. -/
def Both (good good' : List (Pair ρ) → Prop) (pairs : List (Pair ρ)) : Prop :=
  ∃ left right, pairs = left ++ right ∧ good left ∧ good' right

/-- One pair that is good. -/
def One (good : Pair ρ → Prop) (pairs : List (Pair ρ)) : Prop := ∃ pair, pairs = [pair] ∧ good pair

namespace Accepts

variable {spacing : Spacing ρ} {e e' : Expr ρ} {es : List (Expr ρ)} {tokens tokens' later : List (List Char)}
  {word : List Char} {good good' : List (Pair ρ) → Prop}

theorem imp (accepts : Accepts spacing e tokens later good) (each : ∀ pairs, good pairs → good' pairs) :
    Accepts spacing e tokens later good' := by
  intro text starts
  obtain ⟨pairs, rest, matched, layout, shorter, isGood⟩ := accepts text starts
  exact ⟨pairs, rest, matched, layout, shorter, each pairs isGood⟩

/-- An expression that matches one token in front of whatever the later ones are laid out in. -/
theorem token {pairs : List (Pair ρ)}
    (takes : ∀ behind, spacing.Layout later behind → Takes e word pairs behind) :
    Accepts spacing e [word] later (· = pairs) := by
  intro text starts
  obtain ⟨behind, rfl, visible, layout⟩ := starts
  refine ⟨pairs, behind, takes behind layout, layout, ?_, rfl⟩
  simp [Nat.add_comm]

theorem pair {pair : Pair ρ} {isGood : Pair ρ → Prop}
    (takes : ∀ behind, spacing.Layout later behind → Takes e word [pair] behind) (good : isGood pair) :
    Accepts spacing e [word] later (One isGood) :=
  (token takes).imp fun _ same => ⟨pair, same, good⟩

theorem lit (word : String) : Accepts spacing (lit word) [word.toList] later (· = []) :=
  token fun behind _ => Takes.lit word behind

theorem node (accepts : Accepts spacing e tokens later good) (rule : ρ) :
    Accepts spacing (node rule e) tokens later
      (One fun pair => ∃ text inner, pair = .mk rule text inner ∧ good inner) := by
  intro text starts
  obtain ⟨pairs, rest, matched, layout, shorter, isGood⟩ := accepts text starts
  have noded : Peg.node rule e text =
      some ([.mk rule (text.take (text.length - rest.length)) pairs], rest) := by
    unfold Peg.node
    rw [matched]
  exact ⟨_, rest, noded, layout, shorter, _, rfl, _, pairs, rfl, isGood⟩

theorem orElse_left (accepts : Accepts spacing e tokens later good) :
    Accepts spacing (orElse e e') tokens later good := by
  intro text starts
  obtain ⟨pairs, rest, matched, isGood⟩ := accepts text starts
  refine ⟨pairs, rest, ?_, isGood⟩
  unfold orElse
  rw [matched]

theorem orElse_right (refuses : Refuses spacing e (tokens ++ later))
    (accepts : Accepts spacing e' tokens later good) : Accepts spacing (orElse e e') tokens later good := by
  intro text starts
  obtain ⟨pairs, rest, matched, isGood⟩ := accepts text starts
  refine ⟨pairs, rest, ?_, isGood⟩
  unfold orElse
  rw [refuses text starts]
  exact matched

theorem opt_some (accepts : Accepts spacing e tokens later good) :
    Accepts spacing (opt e) tokens later good := accepts.orElse_left

theorem opt_none (refuses : Refuses spacing e later) : Accepts spacing (opt e) [] later (· = []) := by
  intro text starts
  refine ⟨[], text, ?_, starts.layout, by simp, rfl⟩
  unfold opt orElse
  rw [refuses text starts]
  rfl

/-- One part, the blank behind it, and the other parts. -/
theorem cons (first : Accepts spacing e tokens (tokens' ++ later) good)
    (others : Accepts spacing (sequence spacing.skip (e' :: es)) tokens' later good') :
    Accepts spacing (sequence spacing.skip (e :: e' :: es)) (tokens ++ tokens') later (Both good good') := by
  intro text starts
  rw [List.append_assoc] at starts
  obtain ⟨left, middle, matched, layout, shorter, isGood⟩ := first text starts
  obtain ⟨middle', skipped, starts', notLonger⟩ := layout.skip
  obtain ⟨right, rest, matched', layout', shorter', isGood'⟩ := others middle' starts'
  refine ⟨left ++ right, rest, ?_, layout', ?_, left, right, rfl, isGood, isGood'⟩
  · show seq e (seq spacing.skip (sequence spacing.skip (e' :: es))) text = _
    simp only [seq, matched, skipped, matched', List.nil_append]
  · rw [List.flatten_append, List.length_append]
    omega

/-- The parts behind a word. -/
theorem behind (word : String)
    (others : Accepts spacing (sequence spacing.skip (e :: es)) tokens later good) :
    Accepts spacing (sequence spacing.skip (Peg.lit word :: e :: es)) (word.toList :: tokens) later good := by
  have first : Accepts spacing (Peg.lit word) [word.toList] (tokens ++ later) (· = []) := lit word
  refine (cons first others).imp fun pairs both => ?_
  obtain ⟨left, right, rfl, rfl, isGood⟩ := both
  exact isGood

/-- A part and the word that ends it. -/
theorem endedBy {word : String} (first : Accepts spacing e tokens (word.toList :: later) good) :
    Accepts spacing (sequence spacing.skip [e, Peg.lit word]) (tokens ++ [word.toList]) later good := by
  have last : Accepts spacing (sequence spacing.skip [Peg.lit word]) [word.toList] later (· = []) := lit word
  refine (cons first last).imp fun pairs both => ?_
  obtain ⟨left, right, rfl, isGood, rfl⟩ := both
  rwa [List.append_nil]

section Rounds

variable {spell : σ → List (List Char)} {isGood : σ → Pair ρ → Prop} {values : List σ}
  {follows : List (List Char) → Prop}

/-- What may follow a round follows it, be it another round or the tokens behind the last. -/
theorem follows_rounds (again : ∀ value ∈ values, ∀ behind, follows (spell value ++ behind))
    (ended : follows later) : follows (values.flatMap spell ++ later) := by
  cases values with
  | nil => exact ended
  | cons value values =>
    rw [List.flatMap_cons, List.append_assoc]
    exact again value List.mem_cons_self _

/-- The rounds of a repetition, up to where it refuses. -/
theorem rounds
    (each : ∀ value ∈ values, ∀ behind, follows behind → Accepts spacing e (spell value) behind (One (isGood value)))
    (again : ∀ value ∈ values, ∀ behind, follows (spell value ++ behind)) (ended : follows later)
    (nonempty : ∀ value ∈ values, (spell value).flatten ≠ []) (refuses : Refuses spacing e later)
    {text : List Char} (layout : spacing.Layout (values.flatMap spell ++ later) text) :
    ∃ pairs rest, star (seq spacing.skip e) text = some (pairs, rest) ∧ spacing.Layout later rest ∧
      rest.length + (values.flatMap spell).flatten.length ≤ text.length ∧ List.Forall₂ isGood values pairs := by
  induction values generalizing text with
  | nil =>
    obtain ⟨text', skipped, starts, -⟩ := layout.skip
    refine ⟨[], text, star_stop ?_, layout, by simp, .nil⟩
    simp only [seq, skipped, refuses text' starts]
  | cons value values ih =>
    have later' := follows_rounds (fun other member => again other (List.mem_cons_of_mem value member)) ended
    rw [List.flatMap_cons, List.append_assoc] at layout
    obtain ⟨text', skipped, starts, notLonger⟩ := layout.skip
    obtain ⟨_, middle, matched, layout', shorter, pair, rfl, good⟩ :=
      each value List.mem_cons_self _ later' text' starts
    obtain ⟨pairs, rest, others, layout'', shorter', allGood⟩ := ih
      (fun other member => each other (List.mem_cons_of_mem value member))
      (fun other member => again other (List.mem_cons_of_mem value member))
      (fun other member => nonempty other (List.mem_cons_of_mem value member)) layout'
    have round : seq spacing.skip e text = some ([pair], middle) := by
      simp only [seq, skipped, matched, List.nil_append]
    have positive := List.length_pos_iff.mpr (nonempty value List.mem_cons_self)
    refine ⟨[pair] ++ pairs, rest, star_round round (by omega) others, layout'', ?_, .cons good allGood⟩
    rw [List.flatMap_cons, List.flatten_append, List.length_append]
    omega

theorem many
    (each : ∀ value ∈ values, ∀ behind, follows behind → Accepts spacing e (spell value) behind (One (isGood value)))
    (again : ∀ value ∈ values, ∀ behind, follows (spell value ++ behind)) (ended : follows later)
    (nonempty : ∀ value ∈ values, (spell value).flatten ≠ []) (refuses : Refuses spacing e later) :
    Accepts spacing (many spacing.skip e) (values.flatMap spell) later (List.Forall₂ isGood values) := by
  cases values with
  | nil =>
    have stops : Refuses spacing (seq e (star (seq spacing.skip e))) later := by
      intro text starts
      simp only [seq, refuses text starts]
    exact (opt_none stops).imp fun pairs none => none ▸ .nil
  | cons value values =>
    have later' := follows_rounds (fun other member => again other (List.mem_cons_of_mem value member)) ended
    refine opt_some fun text starts => ?_
    rw [List.flatMap_cons, List.append_assoc] at starts
    obtain ⟨_, middle, matched, layout, shorter, pair, rfl, good⟩ :=
      each value List.mem_cons_self _ later' text starts
    obtain ⟨pairs, rest, others, layout', shorter', allGood⟩ := rounds
      (fun other member => each other (List.mem_cons_of_mem value member))
      (fun other member => again other (List.mem_cons_of_mem value member)) ended
      (fun other member => nonempty other (List.mem_cons_of_mem value member)) refuses layout
    refine ⟨[pair] ++ pairs, rest, ?_, layout', ?_, .cons good allGood⟩
    · simp only [seq, matched, others]
    · rw [List.flatMap_cons, List.flatten_append, List.length_append]
      omega

/-- A repetition whose rounds match in front of anything. -/
theorem manyAnywhere
    (each : ∀ value ∈ values, ∀ behind, Accepts spacing e (spell value) behind (One (isGood value)))
    (nonempty : ∀ value ∈ values, (spell value).flatten ≠ []) (refuses : Refuses spacing e later) :
    Accepts spacing (Peg.many spacing.skip e) (values.flatMap spell) later (List.Forall₂ isGood values) := by
  let follows : List (List Char) → Prop := fun _ => True
  have anywhere : ∀ value ∈ values, ∀ behind, follows behind →
      Accepts spacing e (spell value) behind (One (isGood value)) :=
    fun value member behind _ => each value member behind
  have again : ∀ value ∈ values, ∀ behind, follows (spell value ++ behind) := fun _ _ _ => trivial
  have ended : follows later := trivial
  exact many anywhere again ended nonempty refuses

theorem many1 {first : σ} {others : List σ}
    (each : ∀ value ∈ first :: others, ∀ behind, Accepts spacing e (spell value) behind (One (isGood value)))
    (nonempty : ∀ value ∈ first :: others, (spell value).flatten ≠ []) (refuses : Refuses spacing e later) :
    Accepts spacing (many1 spacing.skip e) ((first :: others).flatMap spell) later
      (List.Forall₂ isGood (first :: others)) := by
  have further : Accepts spacing (sequence spacing.skip [Peg.many spacing.skip e]) (others.flatMap spell) later
      (List.Forall₂ isGood others) :=
    manyAnywhere (fun other member => each other (List.mem_cons_of_mem first member))
      (fun other member => nonempty other (List.mem_cons_of_mem first member)) refuses
  rw [List.flatMap_cons]
  refine (cons (each first List.mem_cons_self _) further).imp fun pairs both => ?_
  obtain ⟨_, right, rfl, ⟨pair, rfl, good⟩, allGood⟩ := both
  exact .cons good allGood

end Rounds

end Accepts

end Peg
