import Laic.Lib.Peg

/-! # What a grammar reads, from two texts at once

A `Phrase` says what an expression may read: things with a list of tokens each, and the pairs that
a match produces for them.  `Simulates` runs the expression on two aligned texts.  Either it fails on both, or
it reads a thing from the one and the thing's conversion from the other, and what is left is aligned again.
One rule for each combinator builds the simulation of a grammar from that of its tokens.  On texts aligned
with themselves it says what the grammar reads; on other alignments, that two texts are read alike. -/

namespace Peg

variable {ρ σ τ : Type}

/-! ## Repeating one character -/

theorem repeatUpTo_satisfy_eq {p : Char → Bool} {fuel : Nat} {input : List Char}
    (enough : input.length ≤ fuel) :
    repeatUpTo (satisfy p : Expr ρ) fuel input = ([], input.dropWhile p) := by
  induction fuel generalizing input with
  | zero =>
    cases List.eq_nil_of_length_eq_zero (Nat.le_zero.mp enough)
    rfl
  | succ fuel ih =>
    cases input with
    | nil => rfl
    | cons c input =>
      have rest : input.length ≤ fuel := Nat.le_of_succ_le_succ enough
      by_cases holds : p c = true
      · simp [repeatUpTo, satisfy, holds, ih rest]
      · simp [repeatUpTo, satisfy, holds]

/-- Repeating a test on characters takes them all, up to the first that fails it. -/
theorem star_satisfy (p : Char → Bool) (input : List Char) :
    star (satisfy p : Expr ρ) input = some ([], input.dropWhile p) :=
  congrArg some (repeatUpTo_satisfy_eq (Nat.le_refl _))

/-- Any character where a word of one character does not stand. -/
theorem concat_notAt_any {word : String} {c : Char} (one : word.toList = [c]) :
    (concat [notAt (lit word), any] : Expr ρ) = satisfy fun d => d != c := by
  funext input
  cases input with
  | nil => simp [concat, seq, notAt, lit, one, dropWord, any, satisfy]
  | cons d input =>
    by_cases same : c = d
    · subst same
      simp [concat, seq, notAt, lit, one, dropWord, satisfy]
    · have different : d ≠ c := Ne.symm same
      simp [concat, seq, notAt, lit, one, dropWord, any, satisfy, same, different]

/-! ## Tokens and what stands between them -/

/-- What may stand between two tokens: from a text to what is left of it behind the blank. -/
structure Blank where
  skipped : List Char → List Char → Prop
  refl : ∀ input, skipped input input
  trans : ∀ {first second third}, skipped first second → skipped second third → skipped first third
  suffix : ∀ {input rest}, skipped input rest → rest <:+ input

/-- The tokens in order, with a blank before each and behind the last. -/
inductive Blank.Reads (blank : Blank) : List (List Char) → List Char → List Char → Prop where
  | done {input rest : List Char} (skipped : blank.skipped input rest) : Reads blank [] input rest
  | token {input middle rest token : List Char} {tokens : List (List Char)}
      (skipped : blank.skipped input (token ++ middle)) (reads : Reads blank tokens middle rest) :
      Reads blank (token :: tokens) input rest

namespace Blank.Reads

variable {blank : Blank} {input middle rest : List Char} {tokens tokens' : List (List Char)}

theorem nil (input : List Char) : blank.Reads [] input input := .done (blank.refl input)

theorem single (token rest : List Char) : blank.Reads [token] (token ++ rest) rest :=
  .token (blank.refl _) (nil rest)

/-- A blank in front of the tokens belongs to the first, or to the end. -/
theorem skip (skipped : blank.skipped input middle) (reads : blank.Reads tokens middle rest) :
    blank.Reads tokens input rest := by
  cases reads with
  | done later => exact .done (blank.trans skipped later)
  | token later reads => exact .token (blank.trans skipped later) reads

theorem append (first : blank.Reads tokens input middle) (second : blank.Reads tokens' middle rest) :
    blank.Reads (tokens ++ tokens') input rest := by
  induction first with
  | done skipped => exact second.skip skipped
  | token skipped _ ih => exact .token skipped (ih second)

theorem suffix (reads : blank.Reads tokens input rest) : rest <:+ input := by
  induction reads with
  | done skipped => exact blank.suffix skipped
  | token skipped _ ih => exact ih.trans ((List.suffix_append _ _).trans (blank.suffix skipped))

/-- The characters of the tokens are characters of the text. -/
theorem mem (reads : blank.Reads tokens input rest) {token : List Char} (member : token ∈ tokens) {c : Char}
    (inside : c ∈ token) : c ∈ input := by
  induction reads with
  | done _ => cases member
  | token skipped _ ih =>
    have within := (blank.suffix skipped).subset
    cases member with
    | head => exact within (List.mem_append_left _ inside)
    | tail _ member => exact within (List.mem_append_right _ (ih member))

/-- Reading a token that is not empty makes progress. -/
theorem progress {token : List Char} (reads : blank.Reads (token :: tokens) input rest)
    (nonempty : token ≠ []) : rest.length < input.length := by
  cases reads with
  | token skipped reads =>
    have shorter := reads.suffix.length_le
    have within := (blank.suffix skipped).length_le
    have positive := List.length_pos_iff.mpr nonempty
    rw [List.length_append] at within
    omega

end Blank.Reads

/-! ## Phrases -/

/-- What an expression may read.  `shape` relates a thing to the text that spells it and to the
pairs of the match, `convert` is the same thing as the other text spells it. -/
structure Phrase (ρ σ : Type) where
  tokens : σ → List (List Char)
  shape : σ → List Char → List (Pair ρ) → Prop
  convert : σ → σ

namespace Phrase

/-- Nothing but blanks. -/
def silent : Phrase ρ Unit where
  tokens _ := []
  shape _ _ pairs := pairs = []
  convert _ := ()

/-- One token without a pair of its own. -/
def token (text : σ → List Char) (convert : σ → σ) : Phrase ρ σ where
  tokens value := [text value]
  shape value spelled pairs := spelled = text value ∧ pairs = []
  convert := convert

/-- One phrase and then another, with nothing between them. -/
def joined (first : Phrase ρ σ) (second : Phrase ρ τ) : Phrase ρ (σ × τ) where
  tokens both := first.tokens both.1 ++ second.tokens both.2
  shape both text pairs := ∃ text₁ text₂ left right, text = text₁ ++ text₂ ∧ pairs = left ++ right ∧
    first.shape both.1 text₁ left ∧ second.shape both.2 text₂ right
  convert := Prod.map first.convert second.convert

/-- One phrase and then another, with a blank between them. -/
def followedBy (first : Phrase ρ σ) (second : Phrase ρ τ) : Phrase ρ (σ × τ) where
  tokens both := first.tokens both.1 ++ second.tokens both.2
  shape both _ pairs := ∃ text₁ text₂ left right, pairs = left ++ right ∧
    first.shape both.1 text₁ left ∧ second.shape both.2 text₂ right
  convert := Prod.map first.convert second.convert

/-- The phrase behind a token that says nothing. -/
def behind (token : List Char) (phrase : Phrase ρ σ) : Phrase ρ σ where
  tokens value := token :: phrase.tokens value
  shape value _ pairs := ∃ text, phrase.shape value text pairs
  convert := phrase.convert

/-- The phrase and a token that says nothing. -/
def endedBy (token : List Char) (phrase : Phrase ρ σ) : Phrase ρ σ where
  tokens value := phrase.tokens value ++ [token]
  shape value _ pairs := ∃ text, phrase.shape value text pairs
  convert := phrase.convert

/-- The phrase or nothing. -/
def option (phrase : Phrase ρ σ) : Phrase ρ (Option σ) where
  tokens
    | none => []
    | some value => phrase.tokens value
  shape value text pairs :=
    match value with
    | none => pairs = []
    | some value => phrase.shape value text pairs
  convert := Option.map phrase.convert

/-- The pairs of one thing after the other. -/
def Shapes (phrase : Phrase ρ σ) : List σ → List (Pair ρ) → Prop
  | [], pairs => pairs = []
  | value :: values, pairs => ∃ left right text, pairs = left ++ right ∧
      phrase.shape value text left ∧ Shapes phrase values right

/-- Any number of the phrase. -/
def list (phrase : Phrase ρ σ) : Phrase ρ (List σ) where
  tokens values := values.flatMap phrase.tokens
  shape values _ pairs := phrase.Shapes values pairs
  convert := List.map phrase.convert

/-- The phrase, without what its text says about it. -/
def loose (phrase : Phrase ρ σ) : Phrase ρ σ where
  tokens := phrase.tokens
  shape value _ pairs := ∃ text, phrase.shape value text pairs
  convert := phrase.convert

/-- What one thing's text and pairs say about another phrase, the list says too. -/
theorem Shapes.imp {phrase phrase' : Phrase ρ σ} (each : ∀ value text pairs,
    phrase.shape value text pairs → ∃ text, phrase'.shape value text pairs) {values : List σ}
    {pairs : List (Pair ρ)} (shapes : phrase.Shapes values pairs) : phrase'.Shapes values pairs := by
  induction values generalizing pairs with
  | nil => exact shapes
  | cons value values ih =>
    obtain ⟨left, right, text, split, shape, later⟩ := shapes
    obtain ⟨text', shape'⟩ := each value text left shape
    exact ⟨left, right, text', split, shape', ih later⟩

theorem Shapes.silent {phrase : Phrase ρ σ} (silent : ∀ value text pairs, phrase.shape value text pairs → pairs = [])
    {values : List σ} {pairs : List (Pair ρ)} (shapes : phrase.Shapes values pairs) : pairs = [] := by
  induction values generalizing pairs with
  | nil => exact shapes
  | cons value values ih =>
    obtain ⟨left, right, text, split, shape, later⟩ := shapes
    rw [split, silent value text left shape, ih later]
    rfl

/-- The phrase as one pair of the rule, which spans its text. -/
def node (rule : ρ) (phrase : Phrase ρ σ) : Phrase ρ σ where
  tokens := phrase.tokens
  shape value text pairs := ∃ inner, pairs = [.mk rule text inner] ∧ phrase.shape value text inner
  convert := phrase.convert

/-- Everything the phrase reads starts with a token that can be seen. -/
def Visible (phrase : Phrase ρ σ) : Prop :=
  ∀ value, ∃ token tokens, phrase.tokens value = token :: tokens ∧ token ≠ []

/-- The expression reads the thing from the input. -/
def Run (blank : Blank) (phrase : Phrase ρ σ) (e : Expr ρ) (value : σ) (input rest : List Char) :
    Prop :=
  ∃ text pairs, input = text ++ rest ∧ e input = some (pairs, rest) ∧
    blank.Reads (phrase.tokens value) input rest ∧ phrase.shape value text pairs

end Phrase

/-- On aligned texts the expression fails on both, or reads a thing and its conversion. -/
def Simulates (blank : Blank) (aligned : List Char → List Char → Prop) (phrase : Phrase ρ σ)
    (e : Expr ρ) : Prop :=
  ∀ input input', aligned input input' →
    (e input = none ∧ e input' = none) ∨
      ∃ value rest rest', phrase.Run blank e value input rest ∧
        phrase.Run blank e (phrase.convert value) input' rest' ∧ aligned rest rest'

namespace Simulates

variable {blank : Blank} {aligned : List Char → List Char → Prop} {phrase : Phrase ρ σ}
  {phrase' : Phrase ρ τ} {e e' skip : Expr ρ}

/-- What is read can be described in another way. -/
theorem map (sim : Simulates blank aligned phrase e) (f : σ → τ)
    (tokens : ∀ value, phrase'.tokens (f value) = phrase.tokens value)
    (converts : ∀ value, phrase'.convert (f value) = f (phrase.convert value))
    (shapes : ∀ value text pairs, phrase.shape value text pairs →
      phrase'.shape (f value) text pairs) : Simulates blank aligned phrase' e := by
  have run : ∀ {value input rest}, phrase.Run blank e value input rest →
      phrase'.Run blank e (f value) input rest := by
    rintro value input rest ⟨text, pairs, spans, ran, reads, shape⟩
    exact ⟨text, pairs, spans, ran, (tokens value).symm ▸ reads, shapes value text pairs shape⟩
  intro input input' isAligned
  obtain fails | ⟨value, rest, rest', first, second, left⟩ := sim input input' isAligned
  · exact .inl fails
  · refine .inr ⟨f value, rest, rest', run first, ?_, left⟩
    rw [converts]
    exact run second

theorem empty : Simulates blank aligned .silent (Peg.empty : Expr ρ) := by
  intro input input' isAligned
  exact .inr ⟨(), input, input', ⟨[], [], rfl, rfl, .nil input, rfl⟩,
    ⟨[], [], rfl, rfl, .nil input', rfl⟩, isAligned⟩

/-- The empty match, as an empty token. -/
theorem empty_token : Simulates blank aligned (.token (fun _ : Unit => []) id) (Peg.empty : Expr ρ) := by
  intro input input' isAligned
  exact .inr ⟨(), input, input', ⟨[], [], rfl, rfl, .single [] input, rfl, rfl⟩,
    ⟨[], [], rfl, rfl, .single [] input', rfl, rfl⟩, isAligned⟩

theorem orElse (first : Simulates blank aligned phrase e) (second : Simulates blank aligned phrase e') :
    Simulates blank aligned phrase (Peg.orElse e e') := by
  intro input input' isAligned
  obtain ⟨fails, fails'⟩ | ⟨value, rest, rest', run, run', left⟩ := first input input' isAligned
  · -- the second alternative decides on both texts
    have same : Peg.orElse e e' input = e' input := by simp only [Peg.orElse, fails]
    have same' : Peg.orElse e e' input' = e' input' := by simp only [Peg.orElse, fails']
    have later := second input input' isAligned
    unfold Phrase.Run at later ⊢
    rwa [same, same']
  · obtain ⟨text, pairs, spans, ran, reads, shape⟩ := run
    obtain ⟨text', pairs', spans', ran', reads', shape'⟩ := run'
    refine .inr ⟨value, rest, rest', ⟨text, pairs, spans, ?_, reads, shape⟩,
      ⟨text', pairs', spans', ?_, reads', shape'⟩, left⟩
    · simp only [Peg.orElse, ran]
    · simp only [Peg.orElse, ran']

theorem oneOf {es : List (Expr ρ)} (each : ∀ e ∈ es, Simulates blank aligned phrase e) :
    Simulates blank aligned phrase (Peg.oneOf es) := by
  induction es with
  | nil => exact fun _ _ _ => .inl ⟨rfl, rfl⟩
  | cons e es ih =>
    exact (each e List.mem_cons_self).orElse
      (ih fun later member => each later (List.mem_cons_of_mem e member))

theorem opt (sim : Simulates blank aligned phrase e) :
    Simulates blank aligned phrase.option (Peg.opt e) := by
  have present : Simulates blank aligned phrase.option e :=
    sim.map some (fun _ => rfl) (fun _ => rfl) fun _ _ _ shape => shape
  have absent : Simulates blank aligned phrase.option (Peg.empty : Expr ρ) :=
    empty.map (fun _ => none) (fun _ => rfl) (fun _ => rfl) fun _ _ _ shape => shape
  exact present.orElse absent

theorem seq (first : Simulates blank aligned phrase e) (second : Simulates blank aligned phrase' e') :
    Simulates blank aligned (phrase.joined phrase') (Peg.seq e e') := by
  -- two runs that meet are one run of the sequence
  have join : ∀ {value value' input middle rest}, phrase.Run blank e value input middle →
      phrase'.Run blank e' value' middle rest →
      (phrase.joined phrase').Run blank (Peg.seq e e') (value, value') input rest := by
    rintro value value' input middle rest ⟨text, pairs, spans, ran, reads, shape⟩
      ⟨text', pairs', spans', ran', reads', shape'⟩
    refine ⟨text ++ text', pairs ++ pairs', ?_, ?_, reads.append reads',
      text, text', pairs, pairs', rfl, rfl, shape, shape'⟩
    · rw [spans, spans', List.append_assoc]
    · exact seq_eq_some.mpr ⟨pairs, middle, pairs', ran, ran', rfl⟩
  intro input input' isAligned
  obtain ⟨fails, fails'⟩ | ⟨value, middle, middle', run, run', meet⟩ := first input input' isAligned
  · left
    simp only [Peg.seq, fails, fails', and_self]
  · obtain ⟨fails, fails'⟩ | ⟨value', rest, rest', later, later', left⟩ := second middle middle' meet
    · left
      obtain ⟨text, pairs, spans, ran, -⟩ := run
      obtain ⟨text', pairs', spans', ran', -⟩ := run'
      simp only [Peg.seq, ran, ran', fails, fails', and_self]
    · exact .inr ⟨(value, value'), rest, rest', join run later, join run' later', left⟩

/-- The parts of a sequence, one at a time. -/
theorem sequence_cons (skips : Simulates blank aligned .silent skip)
    (first : Simulates blank aligned phrase e) {es : List (Expr ρ)}
    (rest : Simulates blank aligned phrase' (sequence skip (e' :: es))) :
    Simulates blank aligned (phrase.followedBy phrase') (sequence skip (e :: e' :: es)) := by
  have parts := first.seq (skips.seq rest)
  refine parts.map (fun value => (value.1, value.2.2)) (fun value => ?_) (fun value => rfl) ?_
  · simp [Phrase.joined, Phrase.followedBy, Phrase.silent]
  · rintro value _ pairs ⟨text, _, left, right, _, split, shape, _, text', blanks, later, _, split',
      silent, shape'⟩
    have none : blanks = [] := silent
    subst split split' none
    exact ⟨text, text', left, later, rfl, shape, shape'⟩

/-- A sequence that starts with a token that says nothing. -/
theorem sequence_behind (skips : Simulates blank aligned .silent skip) {word : List Char}
    (first : Simulates blank aligned (.token (fun _ : Unit => word) id) e) {es : List (Expr ρ)}
    (rest : Simulates blank aligned phrase (sequence skip (e' :: es))) :
    Simulates blank aligned (phrase.behind word) (sequence skip (e :: e' :: es)) := by
  refine (skips.sequence_cons first rest).map Prod.snd (fun _ => rfl) (fun _ => rfl) ?_
  rintro value _ pairs ⟨_, text, left, right, split, ⟨_, silent⟩, shape⟩
  subst split silent
  exact ⟨text, shape⟩

/-- A sequence that ends with a token that says nothing. -/
theorem sequence_endedBy (skips : Simulates blank aligned .silent skip) {word : List Char}
    (sim : Simulates blank aligned phrase e)
    (last : Simulates blank aligned (.token (fun _ : Unit => word) id) e') :
    Simulates blank aligned (phrase.endedBy word) (sequence skip [e, e']) := by
  refine (skips.sequence_cons sim last).map Prod.fst (fun _ => rfl) (fun _ => rfl) ?_
  rintro value _ pairs ⟨text, _, left, right, split, shape, ⟨_, silent⟩⟩
  subst split silent
  refine ⟨text, ?_⟩
  rwa [List.append_nil]

/-- A match that is spelled as one token is one. -/
theorem respell (sim : Simulates blank aligned phrase e) (f : σ → τ) (text : τ → List Char)
    (convert : τ → τ) (converts : ∀ value, convert (f value) = f (phrase.convert value))
    (spells : ∀ value spelled pairs, phrase.shape value spelled pairs →
      spelled = text (f value) ∧ pairs = []) :
    Simulates blank aligned (.token text convert) e := by
  have run : ∀ {value input rest}, phrase.Run blank e value input rest →
      (Phrase.token text convert).Run blank e (f value) input rest := by
    rintro value input rest ⟨spelled, pairs, spans, ran, _, shape⟩
    obtain ⟨rfl, rfl⟩ := spells value spelled pairs shape
    exact ⟨text (f value), [], spans, ran, spans ▸ .single _ _, rfl, rfl⟩
  intro input input' isAligned
  obtain fails | ⟨value, rest, rest', first, second, left⟩ := sim input input' isAligned
  · exact .inl fails
  · refine .inr ⟨f value, rest, rest', run first, ?_, left⟩
    show (Phrase.token text convert).Run blank e (convert (f value)) input' rest'
    rw [converts]
    exact run second

/-- Two tokens with nothing between them are one. -/
theorem join_tokens {text : σ → List Char} {text' : τ → List Char} {convert : σ → σ}
    {convert' : τ → τ} (first : Simulates blank aligned (.token text convert) e)
    (second : Simulates blank aligned (.token text' convert') e') :
    Simulates blank aligned
      (.token (fun both : σ × τ => text both.1 ++ text' both.2) (Prod.map convert convert'))
      (Peg.seq e e') := by
  refine (first.seq second).respell id _ _ (fun _ => rfl) ?_
  rintro value spelled pairs ⟨_, _, _, _, split, split', ⟨spell, silent⟩, spell', silent'⟩
  subst split split' spell spell' silent silent'
  exact ⟨rfl, rfl⟩

theorem opt_token {text : σ → List Char} {convert : σ → σ}
    (sim : Simulates blank aligned (.token text convert) e) :
    Simulates blank aligned
      (.token (fun found : Option σ => (found.map text).getD []) (Option.map convert)) (Peg.opt e) := by
  have present : Simulates blank aligned (.token (fun found : Option σ => (found.map text).getD [])
      (Option.map convert)) e :=
    sim.respell some _ _ (fun _ => rfl) fun _ _ _ shape => shape
  refine present.orElse (empty_token.respell (fun _ => none) _ _ (fun _ => rfl) ?_)
  rintro _ spelled pairs ⟨spell, silent⟩
  exact ⟨spell, silent⟩

theorem node (sim : Simulates blank aligned phrase e) (rule : ρ) :
    Simulates blank aligned (phrase.node rule) (Peg.node rule e) := by
  have run : ∀ {value input rest}, phrase.Run blank e value input rest →
      (phrase.node rule).Run blank (Peg.node rule e) value input rest := by
    rintro value input rest ⟨text, pairs, spans, ran, reads, shape⟩
    refine ⟨text, [.mk rule text pairs], spans, ?_, reads, pairs, rfl, shape⟩
    have spanned : input.take (input.length - rest.length) = text := by
      simp [spans]
    simp only [Peg.node, ran, spanned]
  intro input input' isAligned
  obtain ⟨fails, fails'⟩ | ⟨value, rest, rest', first, second, left⟩ := sim input input' isAligned
  · left
    simp only [Peg.node, fails, fails', and_self]
  · exact .inr ⟨value, rest, rest', run first, run second, left⟩

/-- The rounds of a repetition.  Each makes progress on both texts, so neither run is cut short. -/
theorem repeatUpTo (sim : Simulates blank aligned phrase e) (progresses : Progresses e) (length : Nat)
    (input input' : List Char) (short : input.length ≤ length) (isAligned : aligned input input') :
    ∃ values rest rest',
      (∀ fuel, input.length ≤ fuel → ∃ text pairs, input = text ++ rest ∧
        Peg.repeatUpTo e fuel input = (pairs, rest) ∧
          blank.Reads (phrase.list.tokens values) input rest ∧ phrase.Shapes values pairs) ∧
      (∀ fuel, input'.length ≤ fuel → ∃ text pairs, input' = text ++ rest' ∧
        Peg.repeatUpTo e fuel input' = (pairs, rest') ∧
          blank.Reads (phrase.list.tokens (values.map phrase.convert)) input' rest' ∧
            phrase.Shapes (values.map phrase.convert) pairs) ∧
      aligned rest rest' := by
  have last : ∀ {input}, e input = none → ∀ fuel, ∃ text pairs, input = text ++ input ∧
      Peg.repeatUpTo e fuel input = (pairs, input) ∧
        blank.Reads (phrase.list.tokens []) input input ∧ phrase.Shapes [] pairs := by
    intro input fails fuel
    refine ⟨[], [], rfl, ?_, .nil input, rfl⟩
    cases fuel with
    | zero => rfl
    | succ fuel => simp only [Peg.repeatUpTo, fails]
  have round : ∀ {value values input middle rest}, phrase.Run blank e value input middle →
      (∀ fuel, middle.length ≤ fuel → ∃ text pairs, middle = text ++ rest ∧
        Peg.repeatUpTo e fuel middle = (pairs, rest) ∧
          blank.Reads (phrase.list.tokens values) middle rest ∧ phrase.Shapes values pairs) →
      ∀ fuel, input.length ≤ fuel → ∃ text pairs, input = text ++ rest ∧
        Peg.repeatUpTo e fuel input = (pairs, rest) ∧
          blank.Reads (phrase.list.tokens (value :: values)) input rest ∧
            phrase.Shapes (value :: values) pairs := by
    rintro value values input middle rest ⟨text, pairs, spans, ran, reads, shape⟩ later fuel enough
    have shorter := progresses _ _ _ ran
    cases fuel with
    | zero => omega
    | succ fuel =>
      obtain ⟨text', pairs', spans', ran', reads', shapes⟩ := later fuel (by omega)
      refine ⟨text ++ text', pairs ++ pairs', ?_, ?_, reads.append reads',
        pairs, pairs', text, rfl, shape, shapes⟩
      · rw [spans, spans', List.append_assoc]
      · simp only [Peg.repeatUpTo, ran, if_pos shorter, ran']
  induction length generalizing input input' with
  | zero =>
    obtain ⟨fails, fails'⟩ | ⟨value, middle, middle', run, -⟩ := sim input input' isAligned
    · exact ⟨[], input, input', fun fuel _ => last fails fuel, fun fuel _ => last fails' fuel, isAligned⟩
    · obtain ⟨text, pairs, spans, ran, -⟩ := run
      have shorter := progresses _ _ _ ran
      omega
  | succ length ih =>
    obtain ⟨fails, fails'⟩ | ⟨value, middle, middle', run, run', meet⟩ := sim input input' isAligned
    · exact ⟨[], input, input', fun fuel _ => last fails fuel, fun fuel _ => last fails' fuel, isAligned⟩
    · have shorter : middle.length < input.length := by
        obtain ⟨text, pairs, spans, ran, -⟩ := run
        exact progresses _ _ _ ran
      obtain ⟨values, rest, rest', later, later', left⟩ := ih middle middle' (by omega) meet
      exact ⟨value :: values, rest, rest', round run later, round run' later', left⟩

theorem star (sim : Simulates blank aligned phrase e) (progresses : Progresses e) :
    Simulates blank aligned phrase.list (Peg.star e) := by
  intro input input' isAligned
  obtain ⟨values, rest, rest', first, second, left⟩ :=
    sim.repeatUpTo progresses input.length input input' (Nat.le_refl _) isAligned
  obtain ⟨text, pairs, spans, ran, reads, shape⟩ := first input.length (Nat.le_refl _)
  obtain ⟨text', pairs', spans', ran', reads', shape'⟩ := second input'.length (Nat.le_refl _)
  exact .inr ⟨values, rest, rest', ⟨text, pairs, spans, congrArg some ran, reads, shape⟩,
    ⟨text', pairs', spans', congrArg some ran', reads', shape'⟩, left⟩

/-- An expression that reads visible things makes progress. -/
theorem progresses (sim : Simulates blank aligned phrase e) (visible : phrase.Visible)
    (total : ∀ input, ∃ input', aligned input input') : Progresses e := by
  intro input pairs rest matched
  obtain ⟨input', isAligned⟩ := total input
  obtain ⟨fails, -⟩ | ⟨value, rest', _, run, -⟩ := sim input input' isAligned
  · rw [fails] at matched
    cases matched
  · obtain ⟨text, pairs', _, ran, reads, _⟩ := run
    rw [ran] at matched
    cases matched
    obtain ⟨token, tokens, starts, nonempty⟩ := visible value
    rw [starts] at reads
    exact reads.progress nonempty

/-- A rule that refers to itself reads what its unrollings read: each input is short for one of them. -/
theorem of_agree {unrolled : Nat → Expr ρ} (each : ∀ depth, Simulates blank aligned phrase (unrolled depth))
    (agree : ∀ n, AgreeBelow n (unrolled n) e) : Simulates blank aligned phrase e := by
  intro input input' isAligned
  let depth := input.length + input'.length + 1
  have same : unrolled depth input = e input := agree depth input (by omega)
  have same' : unrolled depth input' = e input' := agree depth input' (by omega)
  have deep := each depth input input' isAligned
  unfold Phrase.Run at deep ⊢
  rwa [same, same'] at deep

section Many

variable (skips : Simulates blank aligned .silent skip) (sim : Simulates blank aligned phrase e)
  (visible : phrase.Visible) (total : ∀ input, ∃ input', aligned input input')

include skips sim visible total

/-- The rounds behind the first, each with a blank in front. -/
theorem rounds : Simulates blank aligned phrase.list (Peg.star (Peg.seq skip e)) := by
  have spaced : Simulates blank aligned phrase.loose (Peg.seq skip e) := by
    refine (skips.seq sim).map Prod.snd (fun _ => rfl) (fun _ => rfl) ?_
    rintro value _ pairs ⟨_, text, left, right, _, split, silent, shape⟩
    have none : left = [] := silent
    subst split none
    exact ⟨text, shape⟩
  have visible' : phrase.loose.Visible := visible
  refine (spaced.star (spaced.progresses visible' total)).map id (fun _ => rfl) (fun _ => rfl) ?_
  intro values text pairs shapes
  exact shapes.imp fun _ _ _ shape => shape

theorem many : Simulates blank aligned phrase.list (Peg.many skip e) := by
  let gather : Option (σ × List σ) → List σ := fun found => (found.map fun both => both.1 :: both.2).getD []
  refine (sim.seq (rounds skips sim visible total)).opt.map gather ?_ ?_ ?_
  · intro found
    cases found with
    | none => rfl
    | some both => rfl
  · intro found
    cases found with
    | none => rfl
    | some both => rfl
  · intro found text pairs shape
    cases found with
    | none => exact shape
    | some both =>
      obtain ⟨text, _, left, right, _, split, shape, shapes⟩ := shape
      exact ⟨left, right, text, split, shape, shapes⟩

theorem many1 : Simulates blank aligned (phrase.followedBy phrase.list) (Peg.many1 skip e) := by
  have rest : Simulates blank aligned phrase.list (sequence skip [Peg.many skip e]) :=
    many skips sim visible total
  exact skips.sequence_cons sim rest

end Many

end Simulates

end Peg
