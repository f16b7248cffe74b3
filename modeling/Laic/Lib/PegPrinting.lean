import Laic.Lib.Peg

/-! # Grammars on printed texts

How an expression runs on a text that a printer wrote: `Takes` says that it matches the text, whole and
no further, in front of what follows.  The rules follow the combinators, and each blank that the printer
wrote, or did not write, is one that `skip` takes. -/

namespace Peg

variable {ρ σ : Type} {e e' skip : Expr ρ} {text text' rest : List Char} {pairs pairs' : List (Pair ρ)}

/-- In front of `rest`, the expression matches exactly the text. -/
def Takes (e : Expr ρ) (text : List Char) (pairs : List (Pair ρ)) (rest : List Char) : Prop :=
  e (text ++ rest) = some (pairs, rest)

namespace Takes

theorem lit (word : String) (rest : List Char) : Takes (lit word : Expr ρ) word.toList [] rest :=
  lit_eq_some.mpr ⟨rfl, rfl⟩

theorem empty (rest : List Char) : Takes (empty : Expr ρ) [] [] rest := rfl

theorem seq (first : Takes e text pairs (text' ++ rest)) (second : Takes e' text' pairs' rest) :
    Takes (seq e e') (text ++ text') (pairs ++ pairs') rest := by
  unfold Takes at first second ⊢
  rw [List.append_assoc]
  exact seq_eq_some.mpr ⟨pairs, text' ++ rest, pairs', first, second, rfl⟩

theorem orElse_left (first : Takes e text pairs rest) : Takes (orElse e e') text pairs rest := by
  unfold Takes orElse at *
  rw [first]

theorem orElse_right (fails : e (text ++ rest) = none) (second : Takes e' text pairs rest) :
    Takes (orElse e e') text pairs rest := by
  unfold Takes orElse at *
  rw [fails]
  exact second

theorem node (taken : Takes e text pairs rest) (rule : ρ) :
    Takes (node rule e) text [.mk rule text pairs] rest := by
  have spanned : (text ++ rest).take ((text ++ rest).length - rest.length) = text := by simp
  unfold Takes Peg.node at *
  rw [taken]
  exact congrArg (fun text => some ([Pair.mk rule text pairs], rest)) spanned

/-- One part, what the printer put behind it, and the other parts. -/
theorem sequence_cons {blank : List Char} {es : List (Expr ρ)}
    (first : Takes e text pairs (blank ++ (text' ++ rest))) (skips : Takes skip blank [] (text' ++ rest))
    (others : Takes (sequence skip (e' :: es)) text' pairs' rest) :
    Takes (sequence skip (e :: e' :: es)) (text ++ (blank ++ text')) (pairs ++ pairs') rest := by
  have first' : Takes e text pairs ((blank ++ text') ++ rest) := by rwa [List.append_assoc]
  have parts := first'.seq (skips.seq others)
  rwa [List.nil_append] at parts

/-- The rounds of a repetition, up to where it fails. -/
theorem star {texts : σ → List Char} {rounds : σ → List (Pair ρ)} {values : List σ}
    (each : ∀ value ∈ values, ∀ later : List σ, Takes e (texts value) (rounds value) (later.flatMap texts ++ rest))
    (nonempty : ∀ value, texts value ≠ []) (fails : e rest = none) :
    Takes (star e) (values.flatMap texts) (values.flatMap rounds) rest := by
  -- any fuel that the text's length allows is enough
  have enough : ∀ fuel, (values.flatMap texts).length ≤ fuel →
      repeatUpTo e fuel (values.flatMap texts ++ rest) = (values.flatMap rounds, rest) := by
    induction values with
    | nil =>
      intro fuel _
      cases fuel with
      | zero => rfl
      | succ fuel => simp only [List.flatMap_nil, List.nil_append, repeatUpTo, fails]
    | cons value values ih =>
      intro fuel bound
      have round := each value List.mem_cons_self values
      unfold Takes at round
      have positive := List.length_pos_iff.mpr (nonempty value)
      rw [List.flatMap_cons, List.length_append] at bound
      cases fuel with
      | zero => omega
      | succ fuel =>
        have later := ih (fun other member => each other (List.mem_cons_of_mem value member)) fuel (by omega)
        have shorter : (values.flatMap texts ++ rest).length <
            (texts value ++ (values.flatMap texts ++ rest)).length := by
          rw [@List.length_append _ (texts value)]
          omega
        rw [List.flatMap_cons, List.append_assoc]
        simp only [repeatUpTo, round, if_pos shorter, later, List.flatMap_cons]
  exact congrArg some (enough _ (by rw [List.length_append]; omega))

theorem many {texts : σ → List Char} {rounds : σ → List (Pair ρ)} {values : List σ}
    (still : ∀ later : List σ, Takes skip [] [] (later.flatMap texts ++ rest))
    (each : ∀ value ∈ values, ∀ later : List σ, Takes e (texts value) (rounds value) (later.flatMap texts ++ rest))
    (nonempty : ∀ value, texts value ≠ []) (fails : e rest = none) :
    Takes (many skip e) (values.flatMap texts) (values.flatMap rounds) rest := by
  cases values with
  | nil =>
    refine orElse_right ?_ (empty rest)
    show Peg.seq e (Peg.star (Peg.seq skip e)) rest = none
    simp only [Peg.seq, fails]
  | cons value values =>
    rw [List.flatMap_cons, List.flatMap_cons]
    refine (seq (each value List.mem_cons_self values) (star ?_ nonempty ?_)).orElse_left
    · intro other member later
      have silent : Takes skip [] [] (texts other ++ (later.flatMap texts ++ rest)) := by
        have blank := still (other :: later)
        rwa [List.flatMap_cons, List.append_assoc] at blank
      exact seq silent (each other (List.mem_cons_of_mem value member) later)
    · have silent : skip rest = some ([], rest) := still []
      simp only [Peg.seq, silent, fails]

end Takes

end Peg
