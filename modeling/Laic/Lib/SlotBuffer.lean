/-! # Bounded buffers that replace their oldest item

A first-in first-out buffer of fixed capacity.  An item that does not fit takes the
place of the oldest one, which is lost. -/

structure SlotBuffer (capacity : Nat) (α : Type) where
  items : List α
  bounded : items.length ≤ capacity

namespace SlotBuffer

variable {capacity : Nat} {α : Type}

def empty : SlotBuffer capacity α := ⟨[], Nat.zero_le _⟩

@[simp] theorem items_empty : (empty : SlotBuffer capacity α).items = [] := rfl

/-- The items with one more at the end, the oldest dropped if they do not fit. -/
def push (buffer : SlotBuffer capacity α) (item : α) : SlotBuffer capacity α where
  items := (buffer.items ++ [item]).drop (buffer.items.length + 1 - capacity)
  bounded := by
    simp only [List.length_drop, List.length_append, List.length_singleton]
    omega

/-- The items that a push loses. -/
def evicted (buffer : SlotBuffer capacity α) (item : α) : List α :=
  (buffer.items ++ [item]).take (buffer.items.length + 1 - capacity)

/-- The oldest item and the others. -/
def pop (buffer : SlotBuffer capacity α) : Option (α × SlotBuffer capacity α) :=
  match buffer with
  | ⟨[], _⟩ => none
  | ⟨item :: items, bounded⟩ => some (item, ⟨items, Nat.le_of_succ_le bounded⟩)

/-- With room left nothing is lost. -/
theorem items_push {buffer : SlotBuffer capacity α} (room : buffer.items.length < capacity)
    (item : α) : (buffer.push item).items = buffer.items ++ [item] := by
  have fits : buffer.items.length + 1 - capacity = 0 := by omega
  show (buffer.items ++ [item]).drop (buffer.items.length + 1 - capacity) = _
  rw [fits, List.drop_zero]

theorem evicted_eq_nil {buffer : SlotBuffer capacity α} (room : buffer.items.length < capacity)
    (item : α) : buffer.evicted item = [] := by
  have fits : buffer.items.length + 1 - capacity = 0 := by omega
  rw [evicted, fits, List.take_zero]

theorem pop_eq_none {buffer : SlotBuffer capacity α} : buffer.pop = none ↔ buffer.items = [] := by
  obtain ⟨items, bounded⟩ := buffer
  cases items with
  | nil => simp [pop]
  | cons item items => simp [pop]

theorem pop_eq_some {buffer rest : SlotBuffer capacity α} {item : α} :
    buffer.pop = some (item, rest) ↔ buffer.items = item :: rest.items := by
  obtain ⟨items, bounded⟩ := buffer
  obtain ⟨others, bounded'⟩ := rest
  cases items with
  | nil => simp [pop]
  | cons first items => simp [pop]

end SlotBuffer
