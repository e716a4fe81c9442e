import Mathlib.Data.List.Forall2

/-!
# Computations that may fail

Rules for `Except`: when a sequence of steps succeeds, and with what. A step that only checks
is written `failIf`.
-/

namespace KafkaCli.Checked

universe u v

variable {ε : Type u} {α β : Type v}

/-- Fail with `e` when `p` holds. -/
def failIf (p : Prop) [Decidable p] (e : ε) : Except ε Unit := if p then .error e else .ok ()

@[simp] theorem failIf_eq_ok {p : Prop} [Decidable p] {e : ε} {u : Unit} :
    failIf p e = .ok u ↔ ¬ p := by
  by_cases hp : p <;> simp [failIf, hp]

/-- A sequence succeeds exactly when its first step does, and then the rest on its value. -/
@[simp] theorem bind_eq_ok {x : Except ε α} {f : α → Except ε β} {b : β} :
    (x >>= f) = .ok b ↔ ∃ a, x = .ok a ∧ f a = .ok b := by
  cases x <;> simp [bind, Except.bind]

theorem failIf_eq_error {p : Prop} [Decidable p] {e e' : ε} :
    failIf p e = .error e' ↔ p ∧ e = e' := by
  by_cases hp : p <;> simp [failIf, hp]

/-- A sequence fails exactly when its first step does, or the rest on its value. -/
theorem bind_eq_error {x : Except ε α} {f : α → Except ε β} {e : ε} :
    (x >>= f) = .error e ↔ x = .error e ∨ ∃ a, x = .ok a ∧ f a = .error e := by
  cases x <;> simp [bind, Except.bind]

@[simp] theorem pure_eq_ok {a b : α} : (pure a : Except ε α) = .ok b ↔ a = b := by
  simp [pure, Except.pure]

@[simp] theorem ok_bind (a : α) (f : α → Except ε β) : (Except.ok a >>= f) = f a := rfl

@[simp] theorem error_bind (e : ε) (f : α → Except ε β) :
    (Except.error e >>= f) = .error e := rfl

/-- A check of each element, keeping `g` of it, succeeds exactly when no element is bad. -/
theorem mapM_check {l : List α} {bad : α → Prop} [DecidablePred bad] {e : ε} {g : α → β}
    {out : List β} :
    (l.mapM fun x => if bad x then Except.error e else .ok (g x)) = .ok out ↔
      (∀ x ∈ l, ¬ bad x) ∧ out = l.map g := by
  induction l generalizing out with
  | nil =>
    rw [List.mapM_nil, pure_eq_ok]
    simp [eq_comm]
  | cons x l ih =>
    by_cases hx : bad x
    · simp [hx]
    · simp only [List.mapM_cons, hx, if_false, ok_bind, bind_eq_ok, ih, pure_eq_ok,
        List.forall_mem_cons, not_false_eq_true, true_and, List.map_cons]
      refine ⟨?_, ?_⟩
      · intro ⟨rest, ⟨hl, hrest⟩, hout⟩
        exact ⟨hl, by rw [← hout, hrest]⟩
      · intro ⟨hl, hout⟩
        exact ⟨l.map g, ⟨hl, rfl⟩, hout.symm⟩

/-- What a traversal makes is what it makes of its elements. -/
theorem mem_mapM_ok {f : α → Except ε β} {l : List α} {out : List β} (h : l.mapM f = .ok out)
    {b : β} : b ∈ out ↔ ∃ a ∈ l, f a = .ok b := by
  induction l generalizing out with
  | nil =>
    rw [List.mapM_nil, pure_eq_ok] at h
    simp [← h]
  | cons a l ih =>
    simp only [List.mapM_cons, bind_eq_ok, pure_eq_ok] at h
    obtain ⟨first, hfirst, rest, hrest, hout⟩ := h
    rw [← hout, List.mem_cons, ih hrest]
    simp [hfirst, eq_comm]

/-- A traversal whose steps make `g` of an element makes a map. -/
theorem mapM_ok_eq_map {f : α → Except ε β} {g : α → β} (hf : ∀ a b, f a = .ok b → b = g a)
    {l : List α} {out : List β} (h : l.mapM f = .ok out) : out = l.map g := by
  induction l generalizing out with
  | nil =>
    rw [List.mapM_nil, pure_eq_ok] at h
    exact h.symm
  | cons a l ih =>
    simp only [List.mapM_cons, bind_eq_ok, pure_eq_ok] at h
    obtain ⟨first, hfirst, rest, hrest, hout⟩ := h
    rw [← hout, hf a first hfirst, ih hrest, List.map_cons]

/-- The results of a traversal belong to its elements, in their order. -/
theorem forall₂_of_mapM_ok {f : α → Except ε β} {l : List α} {out : List β}
    (h : l.mapM f = .ok out) : List.Forall₂ (fun a b => f a = .ok b) l out := by
  induction l generalizing out with
  | nil =>
    rw [List.mapM_nil, pure_eq_ok] at h
    rw [← h]
    exact .nil
  | cons a l ih =>
    simp only [List.mapM_cons, bind_eq_ok, pure_eq_ok] at h
    obtain ⟨first, hfirst, rest, hrest, hout⟩ := h
    rw [← hout]
    exact .cons hfirst (ih hrest)

/-- A traversal whose steps all succeed collects their results. -/
theorem mapM_ok_of_forall₂ {f : α → Except ε β} {l : List α} {out : List β}
    (h : List.Forall₂ (fun a b => f a = .ok b) l out) : l.mapM f = .ok out := by
  induction h with
  | nil => rfl
  | cons hfirst _ ih => rw [List.mapM_cons, hfirst, ok_bind, ih, ok_bind, pure_eq_ok]

/-- What is related to a list has something related to each of its elements. -/
theorem exists_of_forall₂ {R : α → β → Prop} {l : List α} {out : List β} (h : List.Forall₂ R l out)
    {a : α} (ha : a ∈ l) : ∃ b ∈ out, R a b := by
  induction h with
  | nil => cases ha
  | cons hfirst _ ih =>
    rcases List.mem_cons.1 ha with rfl | ha
    · exact ⟨_, List.mem_cons_self, hfirst⟩
    · obtain ⟨b, hb, hrel⟩ := ih ha
      exact ⟨b, List.mem_cons_of_mem _ hb, hrel⟩

/-- A traversal succeeds exactly when each of its steps does. -/
theorem exists_mapM_ok_iff {f : α → Except ε β} {l : List α} :
    (∃ out, l.mapM f = .ok out) ↔ ∀ a ∈ l, ∃ b, f a = .ok b := by
  induction l with
  | nil => simp
  | cons a l ih =>
    simp only [List.mapM_cons, bind_eq_ok, pure_eq_ok, List.forall_mem_cons, ← ih]
    refine ⟨?_, ?_⟩
    · rintro ⟨_, first, hfirst, rest, hrest, -⟩
      exact ⟨⟨first, hfirst⟩, rest, hrest⟩
    · rintro ⟨⟨first, hfirst⟩, rest, hrest⟩
      exact ⟨first :: rest, first, hfirst, rest, hrest, rfl⟩

/-- A fold that returns keeps what each of its steps keeps. -/
theorem foldlM_keeps {f : β → α → Except ε β} {l : List α} {P : β → Prop}
    (hkeeps : ∀ x ∈ l, ∀ b b', P b → f b x = .ok b' → P b') {b b' : β} (hb : P b)
    (h : l.foldlM f b = .ok b') : P b' := by
  induction l generalizing b with
  | nil =>
    cases h
    exact hb
  | cons x l ih =>
    rw [List.foldlM_cons, bind_eq_ok] at h
    obtain ⟨c, hx, hl⟩ := h
    exact ih (fun y hy => hkeeps y (List.mem_cons_of_mem x hy))
      (hkeeps x List.mem_cons_self b c hb hx) hl

/-- A fold that returns has what one of its steps brings and the others keep. -/
theorem foldlM_reaches {f : β → α → Except ε β} {l : List α} {P Q : β → Prop} {x : α}
    (hmem : x ∈ l) (hP : ∀ y ∈ l, ∀ b b', P b → f b y = .ok b' → P b')
    (hQ : ∀ y ∈ l, ∀ b b', Q b → f b y = .ok b' → Q b')
    (hx : ∀ b b', P b → f b x = .ok b' → Q b') {b b' : β} (hb : P b)
    (h : l.foldlM f b = .ok b') : Q b' := by
  obtain ⟨before, after, rfl⟩ := List.append_of_mem hmem
  rw [List.foldlM_append, bind_eq_ok] at h
  obtain ⟨c, hbefore, h⟩ := h
  rw [List.foldlM_cons, bind_eq_ok] at h
  obtain ⟨d, hstep, hafter⟩ := h
  have hc : P c := foldlM_keeps (fun y hy => hP y (by simp [hy])) hb hbefore
  exact foldlM_keeps (fun y hy => hQ y (by simp [hy])) (hx c d hc hstep) hafter

/-- A translated error leaves the successes alone. -/
theorem mapError_eq_ok {ε' : Type*} {x : Except ε α} {f : ε → ε'} {a : α} :
    x.mapError f = .ok a ↔ x = .ok a := by
  cases x <;> simp [Except.mapError]

end KafkaCli.Checked
