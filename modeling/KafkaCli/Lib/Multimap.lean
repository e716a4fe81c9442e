import Mathlib.Data.List.Flatten
import Std.Data.TreeMap.Lemmas

/-!
# Maps to lists

A sorted map to lists is filled by `push`, which puts a value at the end of the list of its key.

* `getD_push` — the list of a key.
* `flatMap_insert_perm` — what a map lists, when one more thing is listed for one key.
* `flatMap_push_perm` — all the values, in some order.
-/

namespace KafkaCli.Multimap

variable {α β : Type} {cmp : α → α → Ordering}

/-- Put a value at the end of the list of its key. -/
def push (m : Std.TreeMap α (List β) cmp) (key : α) (value : β) : Std.TreeMap α (List β) cmp :=
  m.insert key (m.getD key [] ++ [value])

variable [DecidableEq α] [Std.TransCmp cmp] [Std.LawfulEqCmp cmp]

theorem getD_push (m : Std.TreeMap α (List β) cmp) (key : α) (value : β) (k : α) :
    (push m key value).getD k [] = if key = k then m.getD k [] ++ [value] else m.getD k [] := by
  rw [push, Std.TreeMap.getD_insert]
  by_cases h : key = k
  · simp [h]
  · simp [h]

section Listed

variable {γ : Type}

/-- What a map lists is what it lists for one key, and for the others. -/
theorem flatMap_others_perm (m : Std.TreeMap α β cmp) (key : α) (missing : β)
    {f : α × β → List γ} (hmissing : f (key, missing) = []) :
    (m.toList.flatMap f).Perm (f (key, m.getD key missing) ++
      (m.toList.filter fun entry => ¬ key == entry.1).flatMap f) := by
  cases hget : m[key]? with
  | none =>
    have hall : (m.toList.filter fun entry => ¬ key == entry.1) = m.toList := by
      refine List.filter_eq_self.2 ?_
      intro ⟨k, value⟩ hmem
      rw [Std.TreeMap.mem_toList_iff_getElem?_eq_some] at hmem
      have hne : key ≠ k := by
        intro heq
        rw [← heq, hget] at hmem
        cases hmem
      simpa using hne
    rw [hall, Std.TreeMap.getD_eq_getD_getElem?, hget, Option.getD_none, hmissing]
    exact .refl _
  | some value =>
    have hsame : (m.insert key value).Equiv m := by
      refine .of_forall_constGet?_eq fun k => ?_
      rw [Std.TreeMap.getElem?_insert]
      by_cases h : key = k
      · simp [← h, hget]
      · simp [h]
    rw [Std.TreeMap.getD_eq_getD_getElem?, hget, ← hsame.toList_eq]
    have hperm : (m.insert key value).toList.Perm
        ((key, value) :: m.toList.filter fun entry => ¬ key == entry.1) :=
      Std.TreeMap.toList_insert_perm
    have hlisted := hperm.flatMap_right f
    rw [hsame.toList_eq] at hlisted ⊢
    exact hlisted

/-- One more thing that is listed for a key is one more thing that the map lists. -/
theorem flatMap_insert_perm (m : Std.TreeMap α β cmp) (missing : β) {key : α} {value : β}
    {f : α × β → List γ} {x : γ} (hmissing : f (key, missing) = [])
    (h : (f (key, value)).Perm (f (key, m.getD key missing) ++ [x])) :
    ((m.insert key value).toList.flatMap f).Perm (m.toList.flatMap f ++ [x]) := by
  have hinserted : ((m.insert key value).toList.flatMap f).Perm (f (key, value) ++
      (m.toList.filter fun entry => ¬ key == entry.1).flatMap f) :=
    Std.TreeMap.toList_insert_perm.flatMap_right f
  have hold := (flatMap_others_perm m key missing hmissing).symm.append_right [x]
  refine (hinserted.trans (h.append_right _)).trans (.trans ?_ hold)
  rw [List.append_assoc, List.append_assoc]
  exact List.perm_append_comm.append_left _

end Listed

/-- A value that is pushed is one more value. -/
theorem flatMap_push_perm (m : Std.TreeMap α (List β) cmp) (key : α) (value : β) :
    ((push m key value).toList.flatMap Prod.snd).Perm (m.toList.flatMap Prod.snd ++ [value]) :=
  flatMap_insert_perm m [] rfl (.refl _)

/-- What a fold lists, when each of its steps lists something more. -/
theorem foldl_perm {σ ι γ : Type} (listed : σ → List γ) {step : σ → ι → σ} {more : ι → List γ}
    (h : ∀ s x, (listed (step s x)).Perm (listed s ++ more x)) (l : List ι) (s : σ) :
    (listed (l.foldl step s)).Perm (listed s ++ l.flatMap more) := by
  induction l generalizing s with
  | nil => simp
  | cons x l ih =>
    rw [List.foldl_cons, List.flatMap_cons, ← List.append_assoc]
    exact (ih (step s x)).trans ((h s x).append_right _)

end KafkaCli.Multimap
