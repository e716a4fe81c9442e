import Mathlib.Data.List.Flatten
import Mathlib.Data.List.Perm.Basic
import Mathlib.Data.List.Range

/-!
# Striping lists

`stripe` takes the first element of each list, then the second of each that has one, and so on.
It rearranges the elements of the lists (`stripe_perm`).
-/

namespace KafkaCli.Stripe

variable {α : Type}

/-- The elements of the lists by their indices, up to `n`. -/
def stripeTo (n : Nat) (lists : List (List α)) : List α :=
  (List.range n).flatMap fun index => lists.filterMap (·[index]?)

/-- The greatest length of a list. -/
def maxLength (lists : List (List α)) : Nat := (lists.map List.length).max?.getD 0

def stripe (lists : List (List α)) : List α := stripeTo (maxLength lists) lists

theorem length_le_maxLength {lists : List (List α)} {l : List α} (h : l ∈ lists) :
    l.length ≤ maxLength lists := by
  have hmem : l.length ∈ lists.map List.length := List.mem_map_of_mem h
  rw [maxLength]
  cases hmax : (lists.map List.length).max? with
  | none =>
    rw [List.max?_eq_none_iff] at hmax
    rw [hmax] at hmem
    cases hmem
  | some greatest => exact (List.max?_eq_some_iff.1 hmax).2 l.length hmem

theorem exists_length_eq_maxLength {lists : List (List α)} (h : lists ≠ []) :
    ∃ l ∈ lists, l.length = maxLength lists := by
  rw [maxLength]
  cases hmax : (lists.map List.length).max? with
  | none =>
    rw [List.max?_eq_none_iff, List.map_eq_nil_iff] at hmax
    exact absurd hmax h
  | some greatest => exact List.mem_map.1 (List.max?_eq_some_iff.1 hmax).1

/-- A list is made of its elements by their indices. -/
theorem filterMap_getElem?_range {l : List α} {n : Nat} (h : l.length ≤ n) :
    (List.range n).filterMap (l[·]?) = l := by
  induction l generalizing n with
  | nil => simp
  | cons a l ih =>
    obtain ⟨m, rfl⟩ : ∃ m, n = m + 1 := ⟨n - 1, by rw [List.length_cons] at h; omega⟩
    rw [List.range_succ_eq_map, List.filterMap_cons, List.filterMap_map]
    have hrest := ih (n := m) (by rw [List.length_cons] at h; omega)
    simpa [Function.comp_def] using hrest

theorem stripeTo_perm {lists : List (List α)} {n : Nat} (h : ∀ l ∈ lists, l.length ≤ n) :
    (stripeTo n lists).Perm lists.flatten := by
  induction lists with
  | nil => simp [stripeTo]
  | cons l lists ih =>
    have hsplit : stripeTo n (l :: lists) =
        (List.range n).flatMap fun index => l[index]?.toList ++ lists.filterMap (·[index]?) := by
      rw [stripeTo]
      congr 1
      funext index
      cases hget : l[index]? <;> simp [hget]
    have hhead : (List.range n).flatMap (fun index => l[index]?.toList) = l := by
      rw [← List.filterMap_eq_flatMap_toList, filterMap_getElem?_range (h l List.mem_cons_self)]
    rw [hsplit, List.flatten_cons]
    refine (List.flatMap_append_perm _ _ _).symm.trans ?_
    rw [hhead]
    exact (ih fun l' hl' => h l' (List.mem_cons_of_mem _ hl')).append_left l

/-- **Striping rearranges** the elements. -/
theorem stripe_perm (lists : List (List α)) : (stripe lists).Perm lists.flatten :=
  stripeTo_perm fun _ => length_le_maxLength

end KafkaCli.Stripe
