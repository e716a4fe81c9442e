import Mathlib.Data.List.DropRight
import Mathlib.Data.List.Infix

/-!
# Cycles with repeated turns

A finite list is gone through again and again. A visitor that starts somewhere takes the elements
in turn for as long as they satisfy `p`; the first one that does not ends its visit, and the next
visit starts at the same place.

* `streak p history` — the elements with `p` at the end of a history.
* `Visits` — every element of a history is the one whose turn it was.
* `Visits.streak_lt` — if some element of the cycle does not satisfy `p`, no visit goes around.
-/

namespace KafkaCli.Cycle

variable {α : Type} {p : α → Prop} [DecidablePred p] {cycle history : List α} {start : Nat} {a : α}

/-- The element in a place of the list when it is repeated without end. -/
def at? (cycle : List α) (place : Nat) : Option α := cycle[place % cycle.length]?

/-- Every element comes within one round from any place. -/
theorem exists_at? (h : a ∈ cycle) (start : Nat) :
    ∃ turn < cycle.length, at? cycle (start + turn) = some a := by
  obtain ⟨i, hi, hget⟩ := List.getElem_of_mem h
  have hpos : 0 < cycle.length := by omega
  have hstart := Nat.mod_lt start hpos
  refine ⟨(i + (cycle.length - start % cycle.length)) % cycle.length, Nat.mod_lt _ hpos, ?_⟩
  have hplace : (start + (i + (cycle.length - start % cycle.length)) % cycle.length) %
      cycle.length = i := by
    rw [Nat.add_mod_mod, ← Nat.mod_add_mod,
      show start % cycle.length + (i + (cycle.length - start % cycle.length)) =
        i + cycle.length by omega, Nat.add_mod_right, Nat.mod_eq_of_lt hi]
  rw [at?, hplace, List.getElem?_eq_getElem hi, hget]

/-! ## Streaks -/

/-- How many elements with `p` end a history. -/
def streak (p : α → Prop) [DecidablePred p] (history : List α) : Nat :=
  (history.rtakeWhile p).length

@[simp] theorem streak_nil : streak p [] = 0 := rfl

theorem streak_concat (a : α) :
    streak p (history ++ [a]) = if p a then streak p history + 1 else 0 := by
  by_cases h : p a
  · simp [streak, h]
  · simp [streak, h]

/-- A streak is under way where the last element satisfies `p`. -/
theorem streak_pos_iff : 0 < streak p history ↔ ∃ a, history.getLast? = some a ∧ p a := by
  rcases List.eq_nil_or_concat history with rfl | ⟨before, a, rfl⟩
  · simp
  · rw [List.concat_eq_append, streak_concat, List.getLast?_concat]
    by_cases h : p a
    · simp [h]
    · simp [h]

/-! ## Visits -/

/-- Every element of the history is the one of the cycle whose turn it was: as many places after
the start as the streak before it was long. -/
def Visits (cycle : List α) (p : α → Prop) [DecidablePred p] (start : Nat) (history : List α) :
    Prop :=
  ∀ before a, before ++ [a] <+: history → at? cycle (start + streak p before) = some a

theorem Visits.nil : Visits cycle p start [] := by
  intro before a h
  simp at h

theorem Visits.concat (h : Visits cycle p start history)
    (ha : at? cycle (start + streak p history) = some a) :
    Visits cycle p start (history ++ [a]) := by
  intro before b hstart
  rcases List.prefix_concat_iff.1 hstart with heq | hold
  · obtain ⟨rfl, hb⟩ := List.append_inj' heq rfl
    rw [List.cons.injEq] at hb
    rw [hb.1, ha]
  · exact h before b hold

theorem Visits.init (h : Visits cycle p start (history ++ [a])) : Visits cycle p start history :=
  fun before b hstart => h before b (hstart.trans (List.prefix_append _ _))

/-- The elements of a streak follow the start. -/
theorem Visits.at?_of_lt_streak (h : Visits cycle p start history) {turn : Nat}
    (hturn : turn < streak p history) : ∃ a, at? cycle (start + turn) = some a ∧ p a := by
  induction history using List.reverseRecOn with
  | nil => simp at hturn
  | append_singleton history a ih =>
    rw [streak_concat] at hturn
    split_ifs at hturn with ha
    · rcases Nat.lt_succ_iff_lt_or_eq.1 hturn with hold | rfl
      · exact ih h.init hold
      · exact ⟨a, h history a List.prefix_rfl, ha⟩
    · omega

/-- **No visit goes around** a cycle in which something ends it. -/
theorem Visits.streak_lt (h : Visits cycle p start history) (hends : ∃ a ∈ cycle, ¬ p a) :
    streak p history < cycle.length := by
  obtain ⟨a, hmem, hends⟩ := hends
  obtain ⟨turn, hturn, hat⟩ := exists_at? hmem start
  by_contra hlong
  obtain ⟨b, hb, hp⟩ := h.at?_of_lt_streak (show turn < streak p history by omega)
  rw [hat, Option.some.injEq] at hb
  exact hends (hb ▸ hp)

end KafkaCli.Cycle
