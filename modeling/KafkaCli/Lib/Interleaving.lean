import Mathlib.Algebra.BigOperators.Group.List.Basic
import Mathlib.Algebra.Order.Ring.Nat

/-!
# Machines that share a state

Several machines take turns. A turn reads and changes what they share and the machine whose turn it
is, and nothing else; a schedule says whose turn it is, and what the machine is given.

* `run_keeps` — what every turn keeps holds after any schedule.
* `sum_set`, `forall_set` — what one machine does to a sum over all of them, and to what holds of
  each.
-/

namespace KafkaCli.Interleaving

variable {σ ω ι : Type}

/-- What is shared, and the machines. -/
structure Pool (σ ω : Type) where
  shared : σ
  machines : List ω
  deriving DecidableEq, Repr

/-- The turn of one machine, if there is such a machine. -/
def Pool.turn (step : σ → ω → ι → σ × ω) (pool : Pool σ ω) (turn : ℕ × ι) : Pool σ ω :=
  match pool.machines[turn.1]? with
  | none => pool
  | some machine =>
    let (shared, machine) := step pool.shared machine turn.2
    ⟨shared, pool.machines.set turn.1 machine⟩

/-- The turns of a schedule. -/
def Pool.run (step : σ → ω → ι → σ × ω) (pool : Pool σ ω) (schedule : List (ℕ × ι)) : Pool σ ω :=
  schedule.foldl (Pool.turn step) pool

variable {step : σ → ω → ι → σ × ω}

theorem turn_of_getElem? {pool : Pool σ ω} {turn : ℕ × ι} {machine : ω}
    (h : pool.machines[turn.1]? = some machine) : pool.turn step turn =
      ⟨(step pool.shared machine turn.2).1,
        pool.machines.set turn.1 (step pool.shared machine turn.2).2⟩ := by
  simp only [Pool.turn, h]

/-- **What every turn keeps** holds after a schedule whose turns have `P`. -/
theorem run_keeps {I : Pool σ ω → Prop} {P : ι → Prop}
    (hkeeps : ∀ pool i machine input, I pool → pool.machines[i]? = some machine → P input →
      I ⟨(step pool.shared machine input).1,
        pool.machines.set i (step pool.shared machine input).2⟩)
    {pool : Pool σ ω} {schedule : List (ℕ × ι)} (h : I pool)
    (hallowed : ∀ turn ∈ schedule, P turn.2) : I (pool.run step schedule) := by
  induction schedule generalizing pool with
  | nil => exact h
  | cons turn schedule ih =>
    obtain ⟨hturn, hschedule⟩ := List.forall_mem_cons.1 hallowed
    refine ih ?_ hschedule
    cases hget : pool.machines[turn.1]? with
    | none =>
      have hsame : pool.turn step turn = pool := by simp only [Pool.turn, hget]
      rw [hsame]
      exact h
    | some machine =>
      rw [turn_of_getElem? hget]
      exact hkeeps pool turn.1 machine turn.2 h hget hturn

/-- A sum over the machines, of which one changes. -/
theorem sum_set {machines : List ω} {i : ℕ} {machine : ω} (measure : ω → ℕ)
    (h : machines[i]? = some machine) (machine' : ω) :
    ((machines.set i machine').map measure).sum + measure machine =
      (machines.map measure).sum + measure machine' := by
  induction machines generalizing i with
  | nil => cases h
  | cons first machines ih =>
    cases i with
    | zero =>
      obtain rfl := Option.some.inj h
      simp only [List.set_cons_zero, List.map_cons, List.sum_cons]
      omega
    | succ i =>
      rw [List.getElem?_cons_succ] at h
      have hrest := ih h
      simp only [List.set_cons_succ, List.map_cons, List.sum_cons]
      omega

/-- What holds of each machine, of which one changes. -/
theorem forall_set {machines : List ω} {p : ω → Prop} (h : ∀ machine ∈ machines, p machine)
    {machine' : ω} (h' : p machine') (i : ℕ) : ∀ machine ∈ machines.set i machine', p machine := by
  intro machine hmem
  rcases List.mem_or_eq_of_mem_set hmem with hold | rfl
  · exact h machine hold
  · exact h'

end KafkaCli.Interleaving
