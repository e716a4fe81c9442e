import Mathlib.Order.Lattice

/-!
# A running maximum

A loop over items that keeps the greatest value so far, with a mark of the item that has it. An
item is taken over only where its value is greater (`note`).

At the end no value is greater than the one that is kept (`value_le_foldl`), which is the one from
before the loop or that of an item (`foldl_eq`). Of several greatest ones the first is kept, since
nothing is taken over behind it (`foldl_of_le`).
-/

namespace KafkaCli.RunningMax

variable {ι κ α : Type} [LinearOrder α] (value : ι → α) (mark : ι → κ)

/-- Take an item over whose value is greater. -/
def note (best : α × κ) (item : ι) : α × κ :=
  if best.1 < value item then (value item, mark item) else best

variable {value mark} {best : α × κ} {item : ι} {items : List ι}

theorem note_of_lt (h : best.1 < value item) :
    note value mark best item = (value item, mark item) := if_pos h

theorem note_of_le (h : value item ≤ best.1) : note value mark best item = best :=
  if_neg (not_lt.2 h)

theorem le_note (best : α × κ) (item : ι) :
    best.1 ≤ (note value mark best item).1 ∧ value item ≤ (note value mark best item).1 := by
  by_cases h : best.1 < value item
  · rw [note_of_lt h]
    exact ⟨h.le, le_rfl⟩
  · rw [note_of_le (not_lt.1 h)]
    exact ⟨le_rfl, not_lt.1 h⟩

variable (value mark)

/-- What is kept never becomes less. -/
theorem le_foldl (items : List ι) (best : α × κ) :
    best.1 ≤ (items.foldl (note value mark) best).1 := by
  induction items generalizing best with
  | nil => exact le_rfl
  | cons item items ih => exact (le_note best item).1.trans (ih _)

/-- No item is greater than what is kept at the end. -/
theorem value_le_foldl (h : item ∈ items) (best : α × κ) :
    value item ≤ (items.foldl (note value mark) best).1 := by
  induction items generalizing best with
  | nil => cases h
  | cons first items ih =>
    rcases List.mem_cons.1 h with rfl | hrest
    · exact (le_note best item).2.trans (le_foldl value mark items _)
    · exact ih hrest _

/-- What is kept at the end is from before the loop, or it is an item that is greater. -/
theorem foldl_eq (items : List ι) (best : α × κ) :
    items.foldl (note value mark) best = best ∨ ∃ item ∈ items, best.1 < value item ∧
      items.foldl (note value mark) best = (value item, mark item) := by
  induction items generalizing best with
  | nil => exact .inl rfl
  | cons first items ih =>
    rw [List.foldl_cons]
    by_cases hfirst : best.1 < value first
    · rw [note_of_lt hfirst]
      rcases ih (value first, mark first) with hsame | ⟨item, hitem, hlt, hkept⟩
      · exact .inr ⟨first, List.mem_cons_self, hfirst, hsame⟩
      · exact .inr ⟨item, List.mem_cons_of_mem first hitem, hfirst.trans hlt, hkept⟩
    · rw [note_of_le (not_lt.1 hfirst)]
      rcases ih best with hsame | ⟨item, hitem, hlt, hkept⟩
      · exact .inl hsame
      · exact .inr ⟨item, List.mem_cons_of_mem first hitem, hlt, hkept⟩

/-- Nothing is taken over that is not greater. -/
theorem foldl_of_le (h : ∀ item ∈ items, value item ≤ best.1) :
    items.foldl (note value mark) best = best := by
  induction items with
  | nil => rfl
  | cons first items ih =>
    rw [List.forall_mem_cons] at h
    rw [List.foldl_cons, note_of_le h.1, ih h.2]

end KafkaCli.RunningMax
