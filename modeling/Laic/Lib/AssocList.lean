/-! # Association lists

`List.lookup` on lists whose keys are distinct is membership. -/

namespace AssocList

variable {α β γ : Type} [BEq α] [LawfulBEq α]

theorem mem_of_lookup {entries : List (α × β)} {key : α} {value : β}
    (found : entries.lookup key = some value) : (key, value) ∈ entries := by
  obtain ⟨before, after, rfl, -⟩ := List.lookup_eq_some_iff.mp found
  exact List.mem_append_right before List.mem_cons_self

/-- With distinct keys every entry is the one its key finds. -/
theorem lookup_of_mem {entries : List (α × β)} {key : α} {value : β}
    (distinct : (entries.map Prod.fst).Nodup) (member : (key, value) ∈ entries) :
    entries.lookup key = some value := by
  obtain ⟨before, after, rfl⟩ := List.append_of_mem member
  rw [List.lookup_eq_some_iff]
  refine ⟨before, after, rfl, fun entry inside => ?_⟩
  rw [List.map_append, List.map_cons, List.nodup_append] at distinct
  have apart := distinct.2.2 entry.1 (List.mem_map_of_mem inside) key List.mem_cons_self
  simpa using fun same => apart same.symm

/-- A table made from a list with distinct keys finds what it was made from. -/
theorem lookup_map {xs : List γ} {key : γ → α} (value : γ → β) (distinct : (xs.map key).Nodup)
    {x : γ} (member : x ∈ xs) :
    (xs.map fun x => (key x, value x)).lookup (key x) = some (value x) := by
  apply lookup_of_mem
  · simpa [Function.comp_def] using distinct
  · exact List.mem_map_of_mem (f := fun x => (key x, value x)) member

end AssocList
