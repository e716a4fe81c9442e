import KafkaCli.Lib.Run

/-!
# Planning and executing in one loop

A loop plans each item and executes its plan before it plans the next one. When a plan fails, the
items before it have been executed already, unless they had nothing to execute. `clean_iff` says
so for any trace that executing leaves in the state: a run whose planning fails leaves none
exactly when nothing was executed before the item that failed.
-/

namespace KafkaCli.PlanExecute

open Run

variable {σ ε ι π : Type}

/-- Plan and execute one item after the other. An item without a plan is skipped. -/
def planExecute (plan : ι → EStateM ε σ (Option π)) (execute : ι → π → EStateM ε σ PUnit) :
    List ι → EStateM ε σ (List (ι × π))
  | [] => return []
  | item :: rest => do
    match ← plan item with
    | none => planExecute plan execute rest
    | some planned => do
      execute item planned
      return (item, planned) :: (← planExecute plan execute rest)

variable (plan : ι → EStateM ε σ (Option π)) (execute : ι → π → EStateM ε σ PUnit)

theorem moves_planExecute {R : σ → σ → Prop} [IsPreorder σ R] {items : List ι}
    (hplan : ∀ item, Moves R (plan item))
    (hexecute : ∀ item planned, Moves R (execute item planned)) :
    Moves R (planExecute plan execute items) := by
  induction items with
  | nil => exact .pure _
  | cons item rest ih =>
    rw [planExecute]
    refine .bind (hplan item) fun planned => ?_
    cases planned with
    | none => exact ih
    | some planned => exact .bind (hexecute item planned) fun _ => .bind ih fun _ => .pure _

/-- The run of the loop ends where the plan of an item fails. -/
inductive PlanningFails : List ι → σ → ε → σ → Prop
  | fails {item : ι} {rest : List ι} {s s' : σ} {e : ε} (h : (plan item).run s = .error e s') :
      PlanningFails (item :: rest) s e s'
  | skipped {item : ι} {rest : List ι} {s s₁ s' : σ} {e : ε}
      (h : (plan item).run s = .ok none s₁) (hrest : PlanningFails rest s₁ e s') :
      PlanningFails (item :: rest) s e s'
  | executed {item : ι} {rest : List ι} {planned : π} {s s₁ s₂ s' : σ} {e : ε}
      (h : (plan item).run s = .ok (some planned) s₁)
      (hexecute : (execute item planned).run s₁ = .ok ⟨⟩ s₂)
      (hrest : PlanningFails rest s₂ e s') : PlanningFails (item :: rest) s e s'

/-- The first item that is not skipped is one whose plan fails. -/
def FirstFails : List ι → σ → Prop
  | [], _ => False
  | item :: rest, s => (∃ e s', (plan item).run s = .error e s') ∨
      ∃ s', (plan item).run s = .ok none s' ∧ FirstFails rest s'

variable {plan execute} {items : List ι} {s s' : σ} {e : ε}

theorem PlanningFails.run (h : PlanningFails plan execute items s e s') :
    (planExecute plan execute items).run s = .error e s' := by
  induction h with
  | fails h =>
    rw [planExecute]
    exact bind_of_error h _
  | skipped h _ ih =>
    rw [planExecute, bind_of_ok h]
    exact ih
  | executed h hexecute _ ih =>
    rw [planExecute, bind_of_ok h]
    refine (bind_of_ok hexecute _).trans ?_
    exact bind_of_error ih _

variable {Clean : σ → Prop}

/-- What has been executed stays visible. -/
theorem not_clean (hplan : ∀ item, Moves (fun s s' => Clean s' ↔ Clean s) (plan item))
    (hexecute : ∀ item planned s s', (execute item planned).run s = .ok ⟨⟩ s' → ¬ Clean s')
    (h : PlanningFails plan execute items s e s') (hs : ¬ Clean s) : ¬ Clean s' := by
  induction h with
  | fails h => exact fun hclean => hs (((hplan _).of_error h).1 hclean)
  | skipped h _ ih => exact ih fun hclean => hs (((hplan _).of_ok h).1 hclean)
  | executed h hx _ ih => exact ih (hexecute _ _ _ _ hx)

/-- A run whose planning fails leaves no trace exactly when the first item that is not skipped is
the one that fails. -/
theorem clean_iff (hplan : ∀ item, Moves (fun s s' => Clean s' ↔ Clean s) (plan item))
    (hexecute : ∀ item planned s s', (execute item planned).run s = .ok ⟨⟩ s' → ¬ Clean s')
    (h : PlanningFails plan execute items s e s') (hs : Clean s) :
    Clean s' ↔ FirstFails plan items s := by
  induction h with
  | fails h => exact ⟨fun _ => .inl ⟨_, _, h⟩, fun _ => ((hplan _).of_error h).2 hs⟩
  | skipped h _ ih =>
    rw [ih (((hplan _).of_ok h).2 hs), FirstFails, h]
    simp
  | executed h hx hrest ih =>
    rw [FirstFails, h]
    simpa using not_clean hplan hexecute hrest (hexecute _ _ _ _ hx)

/-- Where every item has a plan, the first item is the one that fails. -/
theorem firstFails_iff (hsome : ∀ item s s', (plan item).run s ≠ .ok none s') :
    FirstFails plan items s ↔ ∃ item rest e s', items = item :: rest ∧
      (plan item).run s = .error e s' := by
  cases items with
  | nil => simp [FirstFails]
  | cons item rest => simp [FirstFails, hsome]

end KafkaCli.PlanExecute
