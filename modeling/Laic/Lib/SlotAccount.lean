import Laic.Lib.SlotBuffer

/-! # What becomes of the items of a slot buffer

Every item that was pushed into a buffer has been taken out, has been overwritten, or is still
there.  `SlotAccount` is that balance.  It is kept by each push and each pop, so it holds over
every sequence of them, and it carries what a lossy buffer still guarantees: order, no
duplicates, nothing invented, and an item is lost only to as many later items as the buffer has
slots. -/

/-- What became of an item that is no longer in the buffer. -/
inductive Fate where
  | taken
  | overwritten
  deriving DecidableEq, Repr

/-- The items that were pushed, those that were taken out and those that are left. -/
structure SlotAccount {α : Type} (capacity : Nat) (pushed taken left : List α) : Prop where
  settled : ∃ settled : List (α × Fate),
    pushed = settled.map Prod.fst ++ left ∧
    taken = (settled.filter fun entry => entry.2 = .taken).map Prod.fst ∧
    ∀ index item, settled[index]? = some (item, .overwritten) → index + capacity < pushed.length

namespace SlotAccount

variable {α β : Type} {capacity : Nat} {pushed taken left : List α}

theorem empty : SlotAccount (α := α) capacity [] [] [] := ⟨[], by simp⟩

/-- Pushing: what does not fit any more is the oldest item, and it is older by `capacity`. -/
theorem push (account : SlotAccount capacity pushed taken left) (item : α) :
    SlotAccount capacity (pushed ++ [item]) taken
      ((left ++ [item]).drop (left.length + 1 - capacity)) := by
  obtain ⟨settled, split, takenEq, late⟩ := account
  let gone := (left ++ [item]).take (left.length + 1 - capacity)
  have cut : gone ++ (left ++ [item]).drop (left.length + 1 - capacity) = left ++ [item] :=
    List.take_append_drop _ _
  refine ⟨settled ++ gone.map (·, .overwritten), ?_, ?_, ?_⟩
  · have names : (gone.map (·, Fate.overwritten)).map Prod.fst = gone := by
      simp [Function.comp_def]
    rw [List.map_append, names, List.append_assoc, cut, split, List.append_assoc]
  · have none : (gone.map (·, Fate.overwritten)).filter (fun entry => entry.2 = .taken) = [] := by simp
    rw [List.filter_append, none, List.append_nil]
    exact takenEq
  · intro index lost found
    simp only [List.length_append, List.length_singleton]
    by_cases earlier : index < settled.length
    · rw [List.getElem?_append_left earlier] at found
      have before := late index lost found
      omega
    · rw [List.getElem?_append_right (Nat.le_of_not_lt earlier)] at found
      obtain ⟨inside, _⟩ := List.getElem?_eq_some_iff.mp found
      have count : gone.length ≤ left.length + 1 - capacity := by
        show (List.take _ _).length ≤ _
        simp
      have total := congrArg List.length split
      simp only [List.length_append, List.length_map] at total inside
      omega

/-- Popping: the oldest item is taken. -/
theorem pop {item : α} (account : SlotAccount capacity pushed taken (item :: left)) :
    SlotAccount capacity pushed (taken ++ [item]) left := by
  obtain ⟨settled, split, takenEq, late⟩ := account
  refine ⟨settled ++ [(item, .taken)], ?_, ?_, ?_⟩
  · simp [split]
  · simp [List.filter_append, takenEq]
  · intro index lost found
    apply late index lost
    by_cases earlier : index < settled.length
    · rwa [List.getElem?_append_left earlier] at found
    · rw [List.getElem?_append_right (Nat.le_of_not_lt earlier)] at found
      obtain ⟨_, same⟩ := List.getElem?_eq_some_iff.mp found
      simp at same

/-- The balance of the images. -/
theorem map (account : SlotAccount capacity pushed taken left) (image : α → β) :
    SlotAccount capacity (pushed.map image) (taken.map image) (left.map image) := by
  obtain ⟨settled, split, takenEq, late⟩ := account
  refine ⟨settled.map fun entry => (image entry.1, entry.2), ?_, ?_, ?_⟩
  · simp [split, Function.comp_def]
  · simp [takenEq, List.filter_map, Function.comp_def]
  · intro index lost found
    rw [List.getElem?_map, Option.map_eq_some_iff] at found
    obtain ⟨⟨item, fate⟩, found, same⟩ := found
    cases same
    rw [List.length_map]
    exact late index item found

/-! ## What a balance guarantees -/

/-- Nothing is taken that was not pushed, nothing twice, and in the order of the pushes; what is
left comes behind. -/
theorem sublist (account : SlotAccount capacity pushed taken left) :
    List.Sublist (taken ++ left) pushed := by
  obtain ⟨settled, rfl, rfl, _⟩ := account
  exact (List.filter_sublist.map _).append_right _

/-- As long as no more was pushed than there are slots, nothing is lost. -/
theorem without_loss (account : SlotAccount capacity pushed taken left)
    (few : pushed.length ≤ capacity) : pushed = taken ++ left := by
  obtain ⟨settled, split, rfl, late⟩ := account
  have all : settled.filter (fun entry => entry.2 = .taken) = settled := by
    apply List.filter_eq_self.mpr
    intro entry member
    obtain ⟨index, found⟩ := List.mem_iff_getElem?.mp member
    obtain ⟨item, fate⟩ := entry
    cases fate with
    | taken => rfl
    | overwritten =>
      have := late index item found
      omega
  rw [all]
  exact split

/-- The newest items are safe: a run of as many as there are slots is taken or left. -/
theorem newest (account : SlotAccount capacity pushed taken left) :
    List.Sublist (pushed.drop (pushed.length - capacity)) (taken ++ left) := by
  obtain ⟨settled, split, rfl, late⟩ := account
  have tail : (settled.drop (pushed.length - capacity)).filter (fun entry => entry.2 = .taken) =
      settled.drop (pushed.length - capacity) := by
    apply List.filter_eq_self.mpr
    intro entry member
    obtain ⟨index, found⟩ := List.mem_iff_getElem?.mp member
    rw [List.getElem?_drop] at found
    obtain ⟨item, fate⟩ := entry
    cases fate with
    | taken => rfl
    | overwritten =>
      have := late _ item found
      omega
  have kept : List.Sublist (settled.drop (pushed.length - capacity))
      (settled.filter fun entry => entry.2 = .taken) := by
    have part := (List.drop_sublist (pushed.length - capacity) settled).filter
      (fun entry : α × Fate => decide (entry.2 = .taken))
    rwa [tail] at part
  have dropped : pushed.drop (pushed.length - capacity) =
      (settled.drop (pushed.length - capacity)).map Prod.fst ++
        left.drop (pushed.length - capacity - settled.length) := by
    rw [List.map_drop, ← @List.length_map _ _ settled Prod.fst, ← List.drop_append, ← split]
  rw [dropped]
  exact (kept.map _).append (List.drop_sublist _ _)

end SlotAccount
