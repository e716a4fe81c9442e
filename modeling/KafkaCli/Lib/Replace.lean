import Mathlib.Data.List.Chain
import Mathlib.Data.List.Infix
import Mathlib.Order.Basic

/-!
# Replacing texts

`replace` replaces every occurrence of one text by another, from left to right.

**Theorem (`replaceAll_flatMap`).** A chain of replacements can be made piece by piece where no
seam between two pieces lets an occurrence through, at any link of the chain (`Apart`).
-/

namespace KafkaCli.Text

variable {α : Type*}

/-! ## One replacement -/

/-- The list with each `old` replaced, without the first `skip` elements. -/
def replaceList [DecidableEq α] (old new : List α) : (skip : ℕ) → List α → List α
  | _, [] => []
  | skip + 1, _ :: l => replaceList old new skip l
  | 0, x :: l =>
    if old <+: x :: l then new ++ replaceList old new (old.length - 1) l
    else x :: replaceList old new 0 l

/-- The text with each `old`, which is not empty, replaced by `new`. -/
def replace (s old new : String) : String :=
  String.ofList (replaceList old.toList new.toList 0 s.toList)

/-- No occurrence of `old` lies across the seam of `left` and what begins as `right`. -/
def Clear (old left right : List α) : Prop :=
  ∀ i < old.length, 0 < i → old.take i <:+ left → old[i]? ≠ right.head?

instance [DecidableEq α] (old left right : List α) : Decidable (Clear old left right) :=
  inferInstanceAs (Decidable (∀ i < old.length, _))

variable {old new left right : List α}

theorem Clear.of_cons {x : α} (h : Clear old (x :: left) right) : Clear old left right := by
  intro i hi hpos hsuffix
  exact h i hi hpos (hsuffix.trans (List.suffix_cons x left))

/-- An occurrence at the front ends before a clear seam. -/
theorem Clear.length_le {x : α} (h : Clear old (x :: left) right)
    (hfront : old <+: (x :: left) ++ right) : old.length ≤ (x :: left).length := by
  by_contra hlong
  have hlt : (x :: left).length < old.length := Nat.lt_of_not_le hlong
  obtain ⟨rest, hrest⟩ := hfront
  have htake : old.take (x :: left).length = x :: left := by
    have hboth := congrArg (List.take (x :: left).length) hrest
    rwa [List.take_append_of_le_length (Nat.le_of_lt hlt), List.take_left] at hboth
  refine h _ hlt (Nat.succ_pos _) ?_ ?_
  · rw [htake]
  · have hget := congrArg (·[(x :: left).length]?) hrest
    simp only [List.getElem?_append_left hlt, List.getElem?_append_right (Nat.le_refl _),
      Nat.sub_self] at hget
    rw [hget, List.head?_eq_getElem?]

theorem head?_flatMap {ι : Type*} {f : ι → List α} {p : ι} {pieces : List ι} (hne : f p ≠ []) :
    ((p :: pieces).flatMap f).head? = (f p).head? := by
  rw [List.flatMap_cons, List.head?_append_of_ne_nil _ hne]

variable [DecidableEq α]

/-- What is replaced on both sides of a clear seam is replaced apart. -/
theorem replaceList_append {skip : ℕ} (hskip : skip ≤ left.length) (h : Clear old left right) :
    replaceList old new skip (left ++ right) =
      replaceList old new skip left ++ replaceList old new 0 right := by
  induction left generalizing skip with
  | nil =>
    obtain rfl : skip = 0 := Nat.le_zero.1 hskip
    rfl
  | cons x left ih =>
    cases skip with
    | succ skip => exact ih (Nat.le_of_succ_le_succ hskip) h.of_cons
    | zero =>
      simp only [List.cons_append, replaceList]
      by_cases hold : old <+: x :: left
      · have hboth : old <+: x :: (left ++ right) :=
          hold.trans (List.prefix_append (x :: left) right)
        have hlength : old.length - 1 ≤ left.length := by
          have := hold.length_le
          rw [List.length_cons] at this
          omega
        rw [if_pos hold, if_pos hboth, ih hlength h.of_cons, List.append_assoc]
      · have hboth : ¬ old <+: x :: (left ++ right) := fun hfront =>
          hold (List.prefix_of_prefix_length_le hfront
            (List.prefix_append (x :: left) right) (h.length_le hfront))
        rw [if_neg hold, if_neg hboth, ih (Nat.zero_le _) h.of_cons, List.cons_append]

theorem replaceList_ne_nil (hnew : new ≠ []) {l : List α} (hl : l ≠ []) :
    replaceList old new 0 l ≠ [] := by
  cases l with
  | nil => exact absurd rfl hl
  | cons x l =>
    rw [replaceList]
    split_ifs
    · exact List.append_ne_nil_of_left_ne_nil hnew _
    · exact List.cons_ne_nil _ _

/-- What is replaced in a concatenation with clear seams is replaced piece by piece. -/
theorem replaceList_flatMap {ι : Type*} {pieces : List ι} {f : ι → List α}
    (hne : ∀ p ∈ pieces, f p ≠ [])
    (hclear : pieces.IsChain fun p q => Clear old (f p) (f q)) :
    replaceList old new 0 (pieces.flatMap f) =
      pieces.flatMap fun p => replaceList old new 0 (f p) := by
  induction pieces with
  | nil => rfl
  | cons p pieces ih =>
    have hrest := ih (fun q hq => hne q (List.mem_cons_of_mem _ hq)) hclear.tail
    rw [List.flatMap_cons, List.flatMap_cons, ← hrest]
    refine replaceList_append (Nat.zero_le _) fun i hi hpos hsuffix => ?_
    cases pieces with
    | nil => simpa using hi
    | cons q pieces =>
      rw [head?_flatMap (hne q (by simp))]
      exact hclear.rel i hi hpos hsuffix

/-! ## A chain of replacements -/

/-- The list after all the replacements, one after the other. -/
def replaceAll (rules : List (List α × List α)) (l : List α) : List α :=
  rules.foldl (fun l rule => replaceList rule.1 rule.2 0 l) l

/-- The seam of two pieces is clear for each replacement, made in the pieces in turn. -/
def Apart : (rules : List (List α × List α)) → (left right : List α) → Prop
  | [], _, _ => True
  | (old, new) :: rules, left, right => Clear old left right ∧
    Apart rules (replaceList old new 0 left) (replaceList old new 0 right)

instance decidableApart : ∀ (rules : List (List α × List α)) (left right : List α),
    Decidable (Apart rules left right)
  | [], _, _ => inferInstanceAs (Decidable True)
  | (_, _) :: rules, _, _ =>
    have := decidableApart rules
    inferInstanceAs (Decidable (_ ∧ _))

/-! ## Texts that nothing is replaced in -/

/-- No rule finds anything of `l`. -/
def Untouched (rules : List (List α × List α)) (l : List α) : Prop :=
  ∀ rule ∈ rules, rule.1 ≠ [] ∧ ∀ x ∈ l, x ∉ rule.1

omit [DecidableEq α] in
theorem Clear.of_left (h : ∀ x ∈ left, x ∉ old) : Clear old left right := by
  intro i hi hpos hsuffix
  have hmem : old[0] ∈ old.take i := by
    rw [List.mem_take_iff_getElem]
    exact ⟨0, by omega, rfl⟩
  exact absurd (List.getElem_mem _) (h _ (hsuffix.subset hmem))

omit [DecidableEq α] in
theorem Clear.of_right (h : ∀ x ∈ right, x ∉ old) : Clear old left right := by
  intro i hi _ _ heq
  rw [List.getElem?_eq_getElem hi] at heq
  exact h _ (List.mem_of_mem_head? heq.symm) (List.getElem_mem hi)

theorem replaceList_of_not_mem (hne : old ≠ []) {l : List α} (h : ∀ x ∈ l, x ∉ old) :
    replaceList old new 0 l = l := by
  induction l with
  | nil => rfl
  | cons x l ih =>
    have hfirst : ¬ old <+: x :: l := by
      intro hfront
      obtain ⟨y, old, rfl⟩ := List.exists_cons_of_ne_nil hne
      rw [List.cons_prefix_cons] at hfront
      exact h x List.mem_cons_self (hfront.1 ▸ List.mem_cons_self)
    rw [replaceList, if_neg hfirst, ih fun y hy => h y (List.mem_cons_of_mem _ hy)]

theorem replaceAll_of_untouched {rules : List (List α × List α)} {l : List α}
    (h : Untouched rules l) : replaceAll rules l = l := by
  induction rules with
  | nil => rfl
  | cons rule rules ih =>
    obtain ⟨hne, hmem⟩ := h rule List.mem_cons_self
    rw [replaceAll, List.foldl_cons, replaceList_of_not_mem hne hmem]
    exact ih fun r hr => h r (List.mem_cons_of_mem _ hr)

theorem Apart.of_left {rules : List (List α × List α)} (h : Untouched rules left) :
    Apart rules left right := by
  induction rules generalizing right with
  | nil => trivial
  | cons rule rules ih =>
    obtain ⟨hne, hmem⟩ := h rule List.mem_cons_self
    refine ⟨.of_left hmem, ?_⟩
    rw [replaceList_of_not_mem hne hmem]
    exact ih fun r hr => h r (List.mem_cons_of_mem _ hr)

theorem Apart.of_right {rules : List (List α × List α)} (h : Untouched rules right) :
    Apart rules left right := by
  induction rules generalizing left with
  | nil => trivial
  | cons rule rules ih =>
    obtain ⟨hne, hmem⟩ := h rule List.mem_cons_self
    refine ⟨.of_right hmem, ?_⟩
    rw [replaceList_of_not_mem hne hmem]
    exact ih fun r hr => h r (List.mem_cons_of_mem _ hr)

/-! ## The theorem -/

/-- **Replacing piece by piece.** -/
theorem replaceAll_flatMap {ι : Type*} {pieces : List ι} {rules : List (List α × List α)}
    {f : ι → List α} (hrules : ∀ rule ∈ rules, rule.2 ≠ []) (hne : ∀ p ∈ pieces, f p ≠ [])
    (hapart : pieces.IsChain fun p q => Apart rules (f p) (f q)) :
    replaceAll rules (pieces.flatMap f) = pieces.flatMap fun p => replaceAll rules (f p) := by
  induction rules generalizing f with
  | nil => rfl
  | cons rule rules ih =>
    have hclear : pieces.IsChain fun p q => Clear rule.1 (f p) (f q) :=
      hapart.imp fun _ _ h => h.1
    have hnext := ih (f := fun p => replaceList rule.1 rule.2 0 (f p))
      (fun r hr => hrules r (List.mem_cons_of_mem _ hr))
      (fun p hp => replaceList_ne_nil (hrules rule List.mem_cons_self) (hne p hp))
      (hapart.imp fun _ _ h => h.2)
    rw [replaceAll, List.foldl_cons, replaceList_flatMap hne hclear]
    exact hnext

end KafkaCli.Text
