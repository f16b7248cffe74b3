import Laic.Lib.PegReading

/-! # Line endings and grammars

A text with every line feed written as the ending of another system, and how expressions on single characters
run on the two.  `Aligned` are the texts a parser of the one and a parser of the other stand in front of at
the same time: a line comment stops at the line feed, and in front of it a carriage return is already gone. -/

open Peg

/-- How the end of a line is written. -/
inductive LineEnding where
  | lf
  | crlf
  deriving DecidableEq, Repr

namespace LineEnding

def text : LineEnding → List Char
  | .lf => ['\n']
  | .crlf => ['\r', '\n']

/-- The text with every line feed written as the ending. -/
def convert (ending : LineEnding) (text : List Char) : List Char :=
  text.flatMap fun c => if c = '\n' then ending.text else [c]

@[simp] theorem convert_nil (ending : LineEnding) : ending.convert [] = [] := rfl

@[simp] theorem convert_newline (ending : LineEnding) (text : List Char) :
    ending.convert ('\n' :: text) = ending.text ++ ending.convert text := rfl

theorem convert_cons {c : Char} (other : c ≠ '\n') (ending : LineEnding) (text : List Char) :
    ending.convert (c :: text) = c :: ending.convert text := by
  simp [convert, other]

@[simp] theorem convert_append (ending : LineEnding) (left right : List Char) :
    ending.convert (left ++ right) = ending.convert left ++ ending.convert right := by
  simp [convert]

theorem convert_of_notMem {text : List Char} (absent : '\n' ∉ text) (ending : LineEnding) :
    ending.convert text = text := by
  induction text with
  | nil => rfl
  | cons c text ih =>
    have other : c ≠ '\n' := fun same => absent (same ▸ List.mem_cons_self)
    rw [convert_cons other, ih fun member => absent (List.mem_cons_of_mem c member)]

@[simp] theorem lf_convert (text : List Char) : lf.convert text = text := by
  induction text with
  | nil => rfl
  | cons c text ih =>
    by_cases newline : c = '\n'
    · rw [newline, convert_newline, ih]
      rfl
    · rw [convert_cons newline, ih]

theorem convert_ne_nil {text : List Char} (ending : LineEnding) (nonempty : text ≠ []) :
    ending.convert text ≠ [] := by
  cases text with
  | nil => exact absurd rfl nonempty
  | cons c text =>
    by_cases newline : c = '\n'
    · rw [newline, convert_newline]
      cases ending <;> exact List.cons_ne_nil _ _
    · rw [convert_cons newline]
      exact List.cons_ne_nil _ _

theorem convert_eq_nil_iff {ending : LineEnding} {text : List Char} : ending.convert text = [] ↔ text = [] := by
  refine ⟨fun converted => ?_, fun empty => by rw [empty, convert_nil]⟩
  cases text with
  | nil => rfl
  | cons c text => exact absurd converted (convert_ne_nil ending (List.cons_ne_nil c text))

/-! ## Carriage returns -/

theorem crlf_convert_ne_newline {text rest : List Char} : crlf.convert text ≠ '\n' :: rest := by
  intro converted
  cases text with
  | nil => cases converted
  | cons c text =>
    by_cases newline : c = '\n'
    · rw [newline, convert_newline] at converted
      cases converted
    · rw [convert_cons newline] at converted
      exact newline (List.cons.inj converted).1

/-- The endings can be told apart from the other characters. -/
theorem crlf_convert_injective {left right : List Char} (same : crlf.convert left = crlf.convert right) :
    left = right := by
  induction left generalizing right with
  | nil => exact (convert_eq_nil_iff.mp same.symm).symm
  | cons c left ih =>
    cases right with
    | nil => exact convert_eq_nil_iff.mp same
    | cons d right =>
      by_cases newline : c = '\n'
      · subst newline
        by_cases newline' : d = '\n'
        · subst newline'
          rw [convert_newline, convert_newline] at same
          rw [ih (List.append_cancel_left same)]
        · -- the line feed of the ending would be the start of a converted text
          rw [convert_newline, convert_cons newline'] at same
          exact absurd (List.cons.inj same).2.symm crlf_convert_ne_newline
      · rw [convert_cons newline] at same
        by_cases newline' : d = '\n'
        · subst newline'
          rw [convert_newline] at same
          exact absurd (List.cons.inj same).2 crlf_convert_ne_newline
        · rw [convert_cons newline'] at same
          have parts := List.cons.inj same
          rw [parts.1, ih parts.2]

theorem crlf_convert_eq_iff {text : List Char} : crlf.convert text = text ↔ '\n' ∉ text := by
  refine ⟨fun same => ?_, fun absent => convert_of_notMem absent crlf⟩
  have longer : ∀ text : List Char, text.length + text.count '\n' = (crlf.convert text).length := by
    intro text
    induction text with
    | nil => rfl
    | cons c text ih =>
      by_cases newline : c = '\n'
      · rw [newline, convert_newline, List.count_cons_self, List.length_append, ← ih]
        have two : crlf.text.length = 2 := rfl
        rw [List.length_cons]
        omega
      · rw [convert_cons newline, List.count_cons_of_ne newline, List.length_cons, List.length_cons, ← ih]
        omega
  have length := longer text
  rw [same] at length
  exact List.count_eq_zero.mp (by omega)

/-! ## Aligned texts -/

/-- The second text is the first with the other ending, where perhaps the ending of the line that was just
read is already half gone. -/
def Aligned (ending : LineEnding) (input input' : List Char) : Prop :=
  input' = ending.convert input ∨
    ∃ rest, input = '\n' :: rest ∧ input' = '\n' :: ending.convert rest

variable {ending : LineEnding} {input input' : List Char} {p : Char → Bool}

theorem aligned_total (input : List Char) : ∃ input', ending.Aligned input input' := ⟨_, .inl rfl⟩

theorem aligned_lf (input : List Char) : lf.Aligned input input := .inl (lf_convert input).symm

/-- Either text is at its end when the other is. -/
theorem Aligned.nil_iff (isAligned : ending.Aligned input input') : input = [] ↔ input' = [] := by
  obtain rfl | ⟨rest, rfl, rfl⟩ := isAligned
  · exact convert_eq_nil_iff.symm
  · simp

/-- Where `p` takes no character of an ending, it takes the same from both texts. -/
theorem Aligned.span (isAligned : ending.Aligned input input') (noLf : p '\n' = false)
    (noCr : p '\r' = false) :
    input'.takeWhile p = input.takeWhile p ∧ ending.Aligned (input.dropWhile p) (input'.dropWhile p) := by
  obtain rfl | ⟨rest, rfl, rfl⟩ := isAligned
  · induction input with
    | nil => exact ⟨rfl, .inl rfl⟩
    | cons c input ih =>
      by_cases newline : c = '\n'
      · subst newline
        cases ending <;> simp [noLf, noCr, text, Aligned]
      · rw [convert_cons newline]
        by_cases holds : p c = true
        · simpa [holds] using ih
        · simp [holds, Aligned, convert_cons newline]
  · simp [noLf, Aligned]

/-- Where `p` takes every character of an ending, it takes corresponding texts. -/
theorem span_convert (input : List Char) (takesLf : p '\n' = true) (takesCr : p '\r' = true) :
    (ending.convert input).takeWhile p = ending.convert (input.takeWhile p) ∧
      (ending.convert input).dropWhile p = ending.convert (input.dropWhile p) := by
  induction input with
  | nil => exact ⟨rfl, rfl⟩
  | cons c input ih =>
    by_cases newline : c = '\n'
    · subst newline
      cases ending <;> simp [takesLf, takesCr, text, ih]
    · by_cases holds : p c = true
      · simp [convert_cons newline, holds, ih]
      · simp [convert_cons newline, holds]

/-- Up to the line feed, where a carriage return in front of it is taken. -/
theorem dropWhile_line (input : List Char) (stops : p '\n' = false) (takesCr : p '\r' = true) :
    ending.Aligned (input.dropWhile p) ((ending.convert input).dropWhile p) := by
  induction input with
  | nil => exact .inl rfl
  | cons c input ih =>
    by_cases newline : c = '\n'
    · subst newline
      cases ending <;> simp [stops, takesCr, text, Aligned]
    · rw [convert_cons newline]
      by_cases holds : p c = true
      · simpa [holds] using ih
      · simp [holds, Aligned, convert_cons newline]

/-- Blanks take the endings on both texts, whole or half gone. -/
theorem Aligned.dropWhile_blank (isAligned : ending.Aligned input input') (takesLf : p '\n' = true)
    (takesCr : p '\r' = true) : ending.Aligned (input.dropWhile p) (input'.dropWhile p) := by
  obtain rfl | ⟨rest, rfl, rfl⟩ := isAligned
  · exact .inl (span_convert input takesLf takesCr).2
  · simp only [List.dropWhile_cons, takesLf, if_true]
    exact .inl (span_convert rest takesLf takesCr).2

/-! ## Words and runs of characters -/

/-- The word holds no character of an ending. -/
def Inline (word : List Char) : Prop := '\n' ∉ word ∧ '\r' ∉ word

theorem dropWord_convert {word : List Char} (isInline : Inline word) (input : List Char) :
    dropWord word (ending.convert input) = (dropWord word input).map ending.convert := by
  induction word generalizing input with
  | nil => rfl
  | cons d word ih =>
    have noLf : d ≠ '\n' := fun same => isInline.1 (same ▸ List.mem_cons_self)
    have noCr : d ≠ '\r' := fun same => isInline.2 (same ▸ List.mem_cons_self)
    have later : Inline word :=
      ⟨fun member => isInline.1 (List.mem_cons_of_mem d member),
        fun member => isInline.2 (List.mem_cons_of_mem d member)⟩
    cases input with
    | nil => rfl
    | cons c input =>
      by_cases newline : c = '\n'
      · subst newline
        cases ending <;> simp [dropWord, text, noLf, noCr]
      · rw [convert_cons newline]
        by_cases same : d = c
        · simp only [dropWord, if_pos same]
          exact ih later input
        · simp [dropWord, same]

variable {ρ : Type} {blank : Blank}

/-- A word without line endings stands on both texts or on neither. -/
theorem lit_simulates {word : String} (isInline : Inline word.toList) (nonempty : word.toList ≠ []) :
    Simulates blank ending.Aligned (.token (fun _ : Unit => word.toList) id) (lit word : Expr ρ) := by
  have run : ∀ {input rest}, dropWord word.toList input = some rest →
      (Phrase.token (fun _ : Unit => word.toList) id).Run blank (lit word : Expr ρ) () input rest := by
    intro input rest found
    have starts := dropWord_eq_some.mp found
    refine ⟨word.toList, [], starts, ?_, starts ▸ .single _ _, rfl, rfl⟩
    simp only [lit, found]
  intro input input' isAligned
  obtain rfl | ⟨rest, rfl, rfl⟩ := isAligned
  · cases found : dropWord word.toList input with
    | none =>
      left
      simp only [lit, found, dropWord_convert isInline, Option.map_none, and_self]
    | some rest =>
      refine .inr ⟨(), rest, ending.convert rest, run found, run ?_, .inl rfl⟩
      rw [dropWord_convert isInline, found]
      rfl
  · -- no word starts with a line feed
    left
    cases characters : word.toList with
    | nil => exact absurd characters nonempty
    | cons c word' =>
      have noLf : c ≠ '\n' := fun same => isInline.1 (by rw [characters, same]; exact List.mem_cons_self)
      simp [lit, characters, dropWord, noLf]

/-! ## One line ending for all -/

/-- The text with every line end, a carriage return alone or one in front of a line feed, written as a
line feed. -/
def unify : List Char → List Char
  | '\r' :: '\n' :: text => '\n' :: unify text
  | '\r' :: text => '\n' :: unify text
  | c :: text => c :: unify text
  | [] => []

theorem unify_cons {c : Char} (other : c ≠ '\r') (text : List Char) : unify (c :: text) = c :: unify text := by
  rw [unify]
  · rintro _ rfl
    exact absurd rfl other
  · exact other

/-- No carriage return is left, and nothing is put in but line feeds. -/
theorem mem_unify {text : List Char} {c : Char} (member : c ∈ unify text) :
    c ≠ '\r' ∧ (c ∈ text ∨ c = '\n') := by
  induction text using unify.induct with
  | case1 text ih =>
    rw [unify] at member
    obtain rfl | later := List.mem_cons.mp member
    · simp
    · exact (ih later).imp_right (Or.imp_left fun within => by simp [within])
  | case2 text notLf ih =>
    rw [unify] at member
    · obtain rfl | later := List.mem_cons.mp member
      · simp
      · exact (ih later).imp_right (Or.imp_left (List.mem_cons_of_mem _))
    · exact notLf
  | case3 d text other notReturn ih =>
    rw [unify_cons notReturn] at member
    obtain rfl | later := List.mem_cons.mp member
    · exact ⟨notReturn, .inl List.mem_cons_self⟩
    · exact (ih later).imp_right (Or.imp_left (List.mem_cons_of_mem d))
  | case4 => cases member

theorem unify_eq_self {text : List Char} (noReturn : '\r' ∉ text) : unify text = text := by
  induction text with
  | nil => rfl
  | cons c text ih =>
    have other : c ≠ '\r' := fun same => noReturn (same ▸ List.mem_cons_self)
    rw [unify_cons other, ih fun member => noReturn (List.mem_cons_of_mem c member)]

/-- The line feeds of a text come back from either ending. -/
theorem unify_convert (ending : LineEnding) {text : List Char} (noReturn : '\r' ∉ text) :
    unify (ending.convert text) = text := by
  induction text with
  | nil => rfl
  | cons c text ih =>
    have other : c ≠ '\r' := fun same => noReturn (same ▸ List.mem_cons_self)
    have later := ih fun member => noReturn (List.mem_cons_of_mem c member)
    by_cases newline : c = '\n'
    · subst newline
      rw [convert_newline]
      cases ending with
      | lf => exact (unify_cons (by decide) _).trans (congrArg _ later)
      | crlf => exact congrArg _ later
    · rw [convert_cons newline, unify_cons other, later]

end LineEnding

/-- A character that passes one test and then any number of characters that pass another. -/
structure Word (first later : Char → Bool) where
  head : Char
  tail : List Char
  head_ok : first head = true
  tail_ok : ∀ c ∈ tail, later c = true

namespace Word

variable {ρ : Type} {first later : Char → Bool}

def text (word : Word first later) : List Char := word.head :: word.tail

/-- The expression of such words. -/
def scan (first later : Char → Bool) : Expr ρ := concat [satisfy first, star (satisfy later)]

theorem scan_cons {c : Char} (starts : first c = true) (input : List Char) :
    (scan first later : Expr ρ) (c :: input) = some ([], input.dropWhile later) := by
  simp [scan, concat, seq, satisfy, starts, star_satisfy]

/-- A word is read up to the first character that cannot belong to it. -/
theorem scan_append (word : Word first later) {rest : List Char}
    (stops : ∀ c ∈ rest.head?, later c = false) :
    (scan first later : Expr ρ) (word.text ++ rest) = some ([], rest) := by
  have taken : (word.tail ++ rest).dropWhile later = rest := by
    rw [List.dropWhile_append_of_pos word.tail_ok]
    cases rest with
    | nil => rfl
    | cons c rest => simp [stops c rfl]
  rw [text, List.cons_append, scan_cons word.head_ok, taken]

variable {blank : Blank} {ending : LineEnding}

/-- Words without line endings are the same on both texts. -/
theorem scan_simulates (firstLf : first '\n' = false) (firstCr : first '\r' = false)
    (laterLf : later '\n' = false) (laterCr : later '\r' = false) :
    Simulates blank ending.Aligned (.token (text : Word first later → List Char) id)
      (scan first later : Expr ρ) := by
  have run : ∀ (c : Char) (starts : first c = true) (input : List Char),
      (Phrase.token (text : Word first later → List Char) id).Run blank (scan first later : Expr ρ)
        ⟨c, input.takeWhile later, starts, List.all_eq_true.mp List.all_takeWhile⟩ (c :: input)
        (input.dropWhile later) := by
    intro c starts input
    have spans : c :: input = (c :: input.takeWhile later) ++ input.dropWhile later := by simp
    exact ⟨_, [], spans, scan_cons starts input, spans ▸ .single _ _, rfl, rfl⟩
  intro input input' isAligned
  cases input with
  | nil =>
    cases isAligned.nil_iff.mp rfl
    exact .inl ⟨rfl, rfl⟩
  | cons c input =>
    by_cases starts : first c = true
    · -- the first character ends no line, so the texts go on alike behind it
      have noLf : c ≠ '\n' := by
        rintro rfl
        rw [firstLf] at starts
        cases starts
      obtain rfl | ⟨_, same, _⟩ := isAligned
      · rw [LineEnding.convert_cons noLf]
        have both : ending.Aligned input (ending.convert input) := .inl rfl
        obtain ⟨taken, left⟩ := both.span laterLf laterCr
        refine .inr ⟨_, _, _, run c starts input, ?_, left⟩
        have second : (Phrase.token (text : Word first later → List Char) id).Run blank
            (scan first later : Expr ρ) _ _ _ := run c starts (ending.convert input)
        simp only [taken] at second
        exact second
      · cases same
        exact absurd rfl noLf
    · left
      refine ⟨by simp [scan, concat, seq, satisfy, starts], ?_⟩
      obtain rfl | ⟨_, same, rfl⟩ := isAligned
      · by_cases newline : c = '\n'
        · subst newline
          cases ending <;> simp [scan, concat, seq, satisfy, LineEnding.text, firstLf, firstCr]
        · rw [LineEnding.convert_cons newline]
          simp [scan, concat, seq, satisfy, starts]
      · simp [scan, concat, seq, satisfy, firstLf]

end Word
