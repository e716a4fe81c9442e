import KafkaCli.Lib.Run

/-!
# Runs from related states

Two programs are twins for a relation between their states when they end alike from related
states: both return the same value, or both fail with the same error, and their states are related
again. Programs made of twin steps are twins, so what a relation says of the beginning of two runs
it says of their end.
-/

namespace KafkaCli.TwinRuns

universe u

variable {σ τ ε α β ι : Type u}

/-- The same value or the same error, in related states. -/
inductive Alike (R : σ → τ → Prop) : EStateM.Result ε σ α → EStateM.Result ε τ α → Prop
  | ok {s : σ} {t : τ} (a : α) (h : R s t) : Alike R (.ok a s) (.ok a t)
  | error {s : σ} {t : τ} (e : ε) (h : R s t) : Alike R (.error e s) (.error e t)

/-- The programs end alike from related states. -/
def Twins (R : σ → τ → Prop) (x : EStateM ε σ α) (y : EStateM ε τ α) : Prop :=
  ∀ s t, R s t → Alike R (x.run s) (y.run t)

variable {R : σ → τ → Prop}

theorem Twins.pure (a : α) : Twins R (Pure.pure a : EStateM ε σ α) (Pure.pure a) :=
  fun _ _ h => .ok a h

theorem Twins.throw (e : ε) :
    Twins R (MonadExcept.throw e : EStateM ε σ α) (MonadExcept.throw e) :=
  fun _ _ h => .error e h

theorem Twins.ofExcept (x : Except ε α) :
    Twins R (MonadExcept.ofExcept x : EStateM ε σ α) (MonadExcept.ofExcept x) := by
  cases x with
  | ok a => exact .pure a
  | error e => exact .throw e

theorem Twins.modify {f : σ → σ} {g : τ → τ} (h : ∀ s t, R s t → R (f s) (g t)) :
    Twins R (modify f : EStateM ε σ PUnit) (modify g) := by
  intro s t hrel
  have hend : R (f s) (g t) := h s t hrel
  exact Alike.ok (ε := ε) PUnit.unit hend

theorem Twins.bind {x : EStateM ε σ α} {y : EStateM ε τ α} {f : α → EStateM ε σ β}
    {g : α → EStateM ε τ β} (hx : Twins R x y) (hf : ∀ a, Twins R (f a) (g a)) :
    Twins R (x >>= f) (y >>= g) := by
  intro s t hrel
  have hfirst := hx s t hrel
  rw [EStateM.run_bind, EStateM.run_bind]
  generalize x.run s = first at hfirst ⊢
  generalize y.run t = second at hfirst ⊢
  cases hfirst with
  | ok a h => exact hf a _ _ h
  | error e h => exact .error e h

theorem Twins.ite {p : Prop} [Decidable p] {x x' : EStateM ε σ α} {y y' : EStateM ε τ α}
    (h : Twins R x y) (h' : Twins R x' y') :
    Twins R (if p then x else x') (if p then y else y') := by
  by_cases hp : p
  · simpa [hp] using h
  · simpa [hp] using h'

theorem Twins.forM {f : ι → EStateM ε σ PUnit} {g : ι → EStateM ε τ PUnit} {l : List ι}
    (h : ∀ x ∈ l, Twins R (f x) (g x)) : Twins R (forM l f) (forM l g) := by
  induction l with
  | nil => exact .pure _
  | cons x l ih =>
    rw [List.forM_cons, List.forM_cons]
    exact .bind (h x List.mem_cons_self) fun _ => ih fun y hy => h y (List.mem_cons_of_mem x hy)

end KafkaCli.TwinRuns
