import KafkaCli.Lib.Cycle
import Mathlib.Algebra.BigOperators.Group.List.Basic
import Mathlib.Data.Int.CardIntervalMod
import Mathlib.Data.List.Rotate

/-!
# Round robin

The places of a cycle are gone through one after the other, and at each step a window of the
cycle is taken that starts at the place of the step.

* `nodup_take_rotate_replicate` — a window of one round over distinct elements has distinct
  elements, wherever it starts.
* `exists_countP_at?` — in a number of steps each element is first as often as any other, or once
  more.
* `count_windows` — in a number of whole rounds each element is in as many windows.
-/

namespace KafkaCli.RoundRobin

open KafkaCli.Cycle

variable {α : Type} {cycle : List α} {a : α}

/-! ## Repeated cycles -/

theorem getElem?_flatten_replicate (cycle : List α) {rounds place : Nat}
    (h : place < rounds * cycle.length) :
    (List.replicate rounds cycle).flatten[place]? = at? cycle place := by
  induction rounds generalizing place with
  | zero => simp at h
  | succ rounds ih =>
    rw [List.replicate_succ, List.flatten_cons, List.getElem?_append]
    split_ifs with hfirst
    · rw [at?, Nat.mod_eq_of_lt hfirst]
    · have hwrap : place % cycle.length = (place - cycle.length) % cycle.length :=
        Nat.mod_eq_sub_mod (by omega)
      rw [ih (by rw [Nat.succ_mul] at h; omega), at?, at?, hwrap]

/-- A window of at most one round has distinct elements. -/
theorem nodup_take_rotate_replicate (hnodup : cycle.Nodup) (rounds start : Nat) {size : Nat}
    (hsize : size ≤ cycle.length) :
    (((List.replicate rounds cycle).flatten.rotate start).take size).Nodup := by
  have hlength : (List.replicate rounds cycle).flatten.length = rounds * cycle.length := by simp
  have hget : ∀ place < size, place < rounds * cycle.length →
      (((List.replicate rounds cycle).flatten.rotate start).take size)[place]? =
        at? cycle (place + start) := by
    intro place hplace htotal
    rw [List.getElem?_take_of_lt hplace, List.getElem?_rotate (hlength ▸ htotal), hlength,
      getElem?_flatten_replicate cycle (Nat.mod_lt _ (by omega)), at?, at?, Nat.mod_mul_left_mod]
  rw [List.nodup_iff_getElem?_ne_getElem?]
  intro i j hij hj heq
  rw [List.length_take, List.length_rotate, hlength] at hj
  have hpos : 0 < cycle.length := by omega
  rw [hget i (by omega) (by omega), hget j (by omega) (by omega), at?, at?,
    List.getElem?_eq_getElem (Nat.mod_lt _ hpos), List.getElem?_eq_getElem (Nat.mod_lt _ hpos),
    Option.some.injEq, hnodup.getElem_inj_iff] at heq
  -- places less than one round apart have different remainders
  have hmod : i ≡ j [MOD cycle.length] := Nat.ModEq.add_right_cancel' start heq
  have hdvd := (Nat.modEq_iff_dvd' hij.le).1 hmod
  have hle := Nat.le_of_dvd (by omega) hdvd
  omega

/-! ## Turns -/

theorem countP_range (p : Nat → Prop) [DecidablePred p] (n : Nat) :
    (List.range n).countP (p ·) = n.count p := by
  induction n with
  | zero => rfl
  | succ n ih =>
    rw [List.range_succ, List.countP_append, ih, Nat.count_succ]
    by_cases h : p n
    · simp [h]
    · simp [h]

/-- The steps in which an element has its turn are those with a certain remainder. -/
theorem exists_at?_iff (hnodup : cycle.Nodup) (h : a ∈ cycle) (offset : Nat) :
    ∃ place, ∀ step, at? cycle (step + offset) = some a ↔ step ≡ place [MOD cycle.length] := by
  obtain ⟨place, -, hplace⟩ := exists_at? h offset
  refine ⟨place, fun step => ?_⟩
  have hpos : 0 < cycle.length := List.length_pos_of_mem h
  have hlt := Nat.mod_lt (offset + place) hpos
  have hlt' := Nat.mod_lt (step + offset) hpos
  rw [at?, List.getElem?_eq_getElem hlt, Option.some.injEq] at hplace
  rw [at?, List.getElem?_eq_getElem hlt', Option.some.injEq, ← hplace, hnodup.getElem_inj_iff,
    Nat.add_comm offset]
  exact ⟨Nat.ModEq.add_right_cancel' offset, fun heq => heq.add_right offset⟩

variable [DecidableEq α]

/-- **Each element has as many turns** as there are whole rounds, or one more; in whole rounds
there is no other one. -/
theorem exists_countP_at? (hnodup : cycle.Nodup) (h : a ∈ cycle) (offset steps : Nat) :
    ∃ extra ≤ 1, (cycle.length ∣ steps → extra = 0) ∧
      (List.range steps).countP (fun step => at? cycle (step + offset) = some a) =
        steps / cycle.length + extra := by
  obtain ⟨place, hplace⟩ := exists_at?_iff hnodup h offset
  have hcount := Nat.count_modEq_card steps (List.length_pos_of_mem h) place
  refine ⟨if place % cycle.length < steps % cycle.length then 1 else 0, ?_, ?_, ?_⟩
  · split_ifs <;> omega
  · intro hdvd
    simp [Nat.mod_eq_zero_of_dvd hdvd]
  · rw [← hcount, ← countP_range]
    simp only [hplace]

/-! ## Windows -/

theorem count_take (l : List α) (a : α) (n : Nat) :
    (l.take n).count a = (List.range n).countP fun place => l[place]? = some a := by
  induction n with
  | zero => simp
  | succ n ih =>
    rw [List.take_add_one, List.count_append, ih, List.range_succ, List.countP_append]
    cases hget : l[n]? with
    | none => simp [hget]
    | some b =>
      by_cases hb : b = a
      · simp [hget, hb]
      · simp [hget, hb]

/-- How often an element is in a window: the places of the window where it is. -/
theorem count_window {size : Nat} (hsize : size ≤ cycle.length) (a : α) (start : Nat) :
    ((cycle.rotate start).take size).count a =
      (List.range size).countP fun place => at? cycle (start + place) = some a := by
  rw [count_take]
  refine List.countP_congr fun place hplace => ?_
  have hlt : place < cycle.length := (List.mem_range.1 hplace).trans_le hsize
  rw [List.getElem?_rotate hlt, at?, Nat.add_comm]

theorem sum_map_ite (p : Nat → Prop) [DecidablePred p] (l : List Nat) :
    (l.map fun i => if p i then 1 else 0).sum = l.countP (p ·) := by
  induction l with
  | nil => rfl
  | cons i l ih =>
    rw [List.map_cons, List.sum_cons, ih, List.countP_cons, Nat.add_comm]
    simp

theorem sum_countP_comm (p : Nat → Nat → Prop) [∀ i j, Decidable (p i j)] (l l' : List Nat) :
    (l.map fun i => l'.countP fun j => p i j).sum =
      (l'.map fun j => l.countP fun i => p i j).sum := by
  induction l with
  | nil => simp
  | cons i l ih =>
    have hsplit : (l'.map fun j => (i :: l).countP fun i => p i j) = l'.map fun j =>
        (l.countP fun i => p i j) + if p i j then 1 else 0 := by
      refine List.map_congr_left fun j _ => ?_
      simp [List.countP_cons]
    rw [List.map_cons, List.sum_cons, ih, hsplit, List.sum_map_add, sum_map_ite, Nat.add_comm]

/-- **In whole rounds each element is in as many windows** as any other. -/
theorem count_windows (hnodup : cycle.Nodup) (h : a ∈ cycle) {size steps : Nat}
    (hsize : size ≤ cycle.length) (hrounds : cycle.length ∣ steps) :
    ((List.range steps).map fun step => (cycle.rotate step).take size).flatten.count a =
      steps * size / cycle.length := by
  have hturns : ∀ place, (List.range steps).countP (fun step =>
      at? cycle (step + place) = some a) = steps / cycle.length := by
    intro place
    obtain ⟨extra, -, hextra, hcount⟩ := exists_countP_at? hnodup h place steps
    rw [hcount, hextra hrounds, Nat.add_zero]
  have hwindows : (List.range steps).map (fun step => ((cycle.rotate step).take size).count a) =
      (List.range steps).map fun step => (List.range size).countP fun place =>
        at? cycle (step + place) = some a :=
    List.map_congr_left fun step _ => count_window hsize a step
  rw [List.count_flatten, List.map_map]
  simp only [Function.comp_def]
  rw [hwindows, sum_countP_comm fun step place => at? cycle (step + place) = some a]
  simp only [hturns, List.map_const', List.sum_replicate_nat, List.length_range]
  rw [← Nat.mul_div_assoc size hrounds, Nat.mul_comm]

end KafkaCli.RoundRobin
