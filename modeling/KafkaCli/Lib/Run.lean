import Mathlib.Order.Defs.Unbundled
import Mathlib.Tactic.SplitIfs

/-!
# Programs with a state

A program in `EStateM ε σ` returns or fails, and has changed the state in both cases. The rules
here say where a program ends, from where its parts end.

* `bind_eq_ok`, `bind_eq_error`, `forM_cons_eq_ok`, `forM_eq_error` — a run taken apart.
* `Moves R` — every run moves the state along `R`, whether it returns or fails. For a preorder
  `R` this holds of a program when it holds of its steps.
* `MovesFrom R s` — the same of the runs from `s` only. A later step may use what an earlier one
  returned.
* `Ends R Q s` — besides, what the run from `s` returns has `Q`.
* `ReturnsAs x y` — what `x` returns, `y` returns as well.
* `Throws P` — a run that fails does so with an error in `P`.
-/

namespace KafkaCli.Run

universe u

variable {σ ε α β ι : Type u}

/-- The state in which a run ends. -/
def final : EStateM.Result ε σ α → σ
  | .ok _ s => s
  | .error _ s => s

@[simp] theorem final_ok (a : α) (s : σ) : final (.ok a s : EStateM.Result ε σ α) = s := rfl
@[simp] theorem final_error (e : ε) (s : σ) : final (.error e s : EStateM.Result ε σ α) = s := rfl

/-- The error with which a run ends. -/
def error? : EStateM.Result ε σ α → Option ε
  | .ok _ _ => none
  | .error e _ => some e

theorem eq_error_of_error? {result : EStateM.Result ε σ α} {e : ε} (h : error? result = some e) :
    result = .error e (final result) := by
  cases result with
  | ok a s => cases h
  | error e' s =>
    cases h
    rfl

/-- The value with which a run returns. -/
def value? : EStateM.Result ε σ α → Option α
  | .ok a _ => some a
  | .error _ _ => none

theorem eq_ok_of_value? {result : EStateM.Result ε σ α} {a : α} (h : value? result = some a) :
    result = .ok a (final result) := by
  cases result with
  | ok a' s =>
    cases h
    rfl
  | error e s => cases h

theorem eq_ok_of_isSome {result : EStateM.Result ε σ α} (h : (value? result).isSome = true) :
    result = .ok ((value? result).get h) (final result) := by
  cases result with
  | ok a s => rfl
  | error e s => cases h

theorem eq_ok_of_error? {result : EStateM.Result ε σ PUnit} (h : error? result = none) :
    result = .ok ⟨⟩ (final result) := by
  cases result with
  | ok a s => rfl
  | error e s => cases h

/-! ## Runs taken apart -/

section Apart

variable {s s' : σ} {e : ε}

@[simp] theorem run_ofExcept_ok (a : α) (s : σ) :
    (ofExcept (.ok a) : EStateM ε σ α).run s = .ok a s := rfl
@[simp] theorem run_ofExcept_error (e : ε) (s : σ) :
    (ofExcept (.error e) : EStateM ε σ α).run s = .error e s := rfl
@[simp] theorem run_throw (e : ε) (s : σ) :
    (throw e : EStateM ε σ α).run s = .error e s := rfl

/-- A result that is taken over leaves the state alone. -/
theorem run_ofExcept_eq_ok {x : Except ε α} {a : α} :
    (ofExcept x : EStateM ε σ α).run s = .ok a s' ↔ x = .ok a ∧ s = s' := by
  cases x with
  | ok a' => simp
  | error e' => simp

theorem run_ofExcept_eq_error {x : Except ε α} :
    (ofExcept x : EStateM ε σ α).run s = .error e s' ↔ x = .error e ∧ s = s' := by
  cases x with
  | ok a' => simp
  | error e' => simp

theorem bind_of_ok {x : EStateM ε σ α} {a : α} (h : x.run s = .ok a s')
    (f : α → EStateM ε σ β) : (x >>= f).run s = (f a).run s' := by
  rw [EStateM.run_bind, h]

theorem bind_of_error {x : EStateM ε σ α} (h : x.run s = .error e s') (f : α → EStateM ε σ β) :
    (x >>= f).run s = .error e s' := by
  rw [EStateM.run_bind, h]

theorem tryCatch_of_ok {x : EStateM ε σ α} {a : α} (h : x.run s = .ok a s')
    (handle : ε → EStateM ε σ α) : (tryCatch x handle).run s = .ok a s' := by
  show EStateM.tryCatch x handle s = _
  rw [EStateM.tryCatch, show x s = _ from h]

/-- An error that is caught leaves the state as it was when it came. -/
theorem tryCatch_of_error {x : EStateM ε σ α} (h : x.run s = .error e s')
    (handle : ε → EStateM ε σ α) : (tryCatch x handle).run s = (handle e).run s' := by
  show EStateM.tryCatch x handle s = _
  rw [EStateM.tryCatch, show x s = _ from h]
  rfl

theorem bind_eq_ok {x : EStateM ε σ α} {f : α → EStateM ε σ β} {b : β} :
    (x >>= f).run s = .ok b s' ↔ ∃ a t, x.run s = .ok a t ∧ (f a).run t = .ok b s' := by
  rw [EStateM.run_bind]
  cases x.run s with
  | ok a t => simp [and_assoc]
  | error e t => simp

theorem bind_eq_error {x : EStateM ε σ α} {f : α → EStateM ε σ β} :
    (x >>= f).run s = .error e s' ↔
      x.run s = .error e s' ∨ ∃ a t, x.run s = .ok a t ∧ (f a).run t = .error e s' := by
  rw [EStateM.run_bind]
  cases x.run s with
  | ok a t => simp [and_assoc]
  | error e t => simp

/-- A loop that returns has run its body on every element. -/
theorem forM_cons_eq_ok {x : ι} {l : List ι} {f : ι → EStateM ε σ PUnit} :
    (forM (x :: l) f).run s = .ok ⟨⟩ s' ↔
      ∃ t, (f x).run s = .ok ⟨⟩ t ∧ (forM l f).run t = .ok ⟨⟩ s' := by
  rw [List.forM_cons, bind_eq_ok]
  exact ⟨fun ⟨_, t, h⟩ => ⟨t, h⟩, fun ⟨t, h⟩ => ⟨⟨⟩, t, h⟩⟩

/-- A loop that fails has failed on one element, after the body returned on those before it. -/
theorem forM_eq_error {l : List ι} {f : ι → EStateM ε σ PUnit} :
    (forM l f).run s = .error e s' ↔ ∃ before x after t,
      l = before ++ x :: after ∧ (forM before f).run s = .ok ⟨⟩ t ∧
        (f x).run t = .error e s' := by
  induction l generalizing s with
  | nil => simp
  | cons x l ih =>
    rw [List.forM_cons, bind_eq_error]
    refine ⟨?_, ?_⟩
    · intro h
      rcases h with h | ⟨_, t, hx, hl⟩
      · exact ⟨[], x, l, s, rfl, rfl, h⟩
      · obtain ⟨before, y, after, t', rfl, hbefore, hy⟩ := ih.1 hl
        exact ⟨x :: before, y, after, t', rfl, forM_cons_eq_ok.2 ⟨t, hx, hbefore⟩, hy⟩
    · intro ⟨before, y, after, t, hl, hbefore, hy⟩
      cases before with
      | nil =>
        obtain ⟨rfl, rfl⟩ := List.cons.inj hl
        rw [List.forM_nil, EStateM.run_pure, EStateM.Result.ok.injEq] at hbefore
        exact .inl (hbefore.2 ▸ hy)
      | cons z before =>
        obtain ⟨rfl, rfl⟩ := List.cons.inj hl
        obtain ⟨t', hx, hrest⟩ := forM_cons_eq_ok.1 hbefore
        exact .inr ⟨⟨⟩, t', hx, ih.2 ⟨before, y, after, t, rfl, hrest, hy⟩⟩

end Apart

/-! ## The state along a run -/

/-- Every run of the program moves the state along `R`. -/
def Moves (R : σ → σ → Prop) (x : EStateM ε σ α) : Prop := ∀ s, R s (final (x.run s))

section Moves

variable {R : σ → σ → Prop}

theorem Moves.of_ok {x : EStateM ε σ α} (h : Moves R x) {s s' : σ} {a : α}
    (hx : x.run s = .ok a s') : R s s' := by
  have hs := h s
  rwa [hx] at hs

theorem Moves.of_error {x : EStateM ε σ α} (h : Moves R x) {s s' : σ} {e : ε}
    (hx : x.run s = .error e s') : R s s' := by
  have hs := h s
  rwa [hx] at hs

theorem Moves.ite {p : Prop} [Decidable p] {x y : EStateM ε σ α} (hx : Moves R x)
    (hy : Moves R y) : Moves R (if p then x else y) := by
  by_cases hp : p
  · simpa [hp] using hx
  · simpa [hp] using hy

theorem Moves.modify {f : σ → σ} (hf : ∀ s, R s (f s)) :
    Moves R (modify f : EStateM ε σ PUnit) := fun s => hf s

variable [IsPreorder σ R]

theorem Moves.pure (a : α) : Moves R (Pure.pure a : EStateM ε σ α) := fun s => refl_of R s

theorem Moves.throw (e : ε) : Moves R (MonadExcept.throw e : EStateM ε σ α) :=
  fun s => refl_of R s

theorem Moves.get : Moves R (MonadState.get : EStateM ε σ σ) := fun s => refl_of R s

theorem Moves.ofExcept (x : Except ε α) : Moves R (MonadExcept.ofExcept x : EStateM ε σ α) := by
  cases x with
  | ok a => exact .pure a
  | error e => exact .throw e

theorem Moves.bind {x : EStateM ε σ α} {f : α → EStateM ε σ β} (hx : Moves R x)
    (hf : ∀ a, Moves R (f a)) : Moves R (x >>= f) := by
  intro s
  rw [EStateM.run_bind]
  cases h : x.run s with
  | ok a t => exact trans_of R (hx.of_ok h) (hf a t)
  | error e t => exact hx.of_error h

theorem Moves.forM {f : ι → EStateM ε σ PUnit} {l : List ι} (hf : ∀ x ∈ l, Moves R (f x)) :
    Moves R (forM l f) := by
  induction l with
  | nil => exact .pure _
  | cons x l ih =>
    rw [List.forM_cons]
    exact .bind (hf x List.mem_cons_self) fun _ => ih fun y hy => hf y (List.mem_cons_of_mem x hy)

end Moves

theorem Moves.map [IsPreorder σ R] {x : EStateM ε σ α} (hx : Moves R x) (f : α → β) :
    Moves R (f <$> x) := by
  rw [map_eq_pure_bind]
  exact .bind hx fun _ => .pure _

theorem Moves.mono {R R' : σ → σ → Prop} {x : EStateM ε σ α} (h : Moves R x)
    (hR : ∀ s s', R s s' → R' s s') : Moves R' x := fun s => hR _ _ (h s)

/-- The run of the program from `s` moves the state along `R`. -/
def MovesFrom (R : σ → σ → Prop) (s : σ) (x : EStateM ε σ α) : Prop := R s (final (x.run s))

section MovesFrom

variable {R : σ → σ → Prop} {s : σ}

theorem Moves.from {x : EStateM ε σ α} (h : Moves R x) (s : σ) : MovesFrom R s x := h s

theorem MovesFrom.of_ok {x : EStateM ε σ α} (h : MovesFrom R s x) {s' : σ} {a : α}
    (hx : x.run s = .ok a s') : R s s' := by
  rwa [MovesFrom, hx] at h

theorem MovesFrom.of_error {x : EStateM ε σ α} (h : MovesFrom R s x) {s' : σ} {e : ε}
    (hx : x.run s = .error e s') : R s s' := by
  rwa [MovesFrom, hx] at h

variable [IsPreorder σ R]

theorem MovesFrom.pure (a : α) : MovesFrom R s (Pure.pure a : EStateM ε σ α) := refl_of R s

/-- The second step starts where the first one ends, with what it returned. -/
theorem MovesFrom.bind {x : EStateM ε σ α} {f : α → EStateM ε σ β} (hx : MovesFrom R s x)
    (hf : ∀ a t, x.run s = .ok a t → MovesFrom R t (f a)) : MovesFrom R s (x >>= f) := by
  rw [MovesFrom, EStateM.run_bind]
  cases h : x.run s with
  | ok a t => exact trans_of R (hx.of_ok h) (hf a t h)
  | error e t => exact hx.of_error h

/-- A loop whose steps start from states with an invariant that `R` keeps. -/
theorem MovesFrom.forM {I : σ → Prop} {f : ι → EStateM ε σ PUnit} {l : List ι}
    (hkeep : ∀ s s', I s → R s s' → I s') (hf : ∀ x ∈ l, ∀ s, I s → MovesFrom R s (f x))
    (hs : I s) : MovesFrom R s (forM l f) := by
  induction l generalizing s with
  | nil => exact refl_of R s
  | cons x l ih =>
    rw [List.forM_cons]
    have hx := hf x List.mem_cons_self s hs
    refine hx.bind fun _ t hrun => ih (fun y hy => hf y (List.mem_cons_of_mem x hy)) ?_
    exact hkeep s t hs (hx.of_ok hrun)

theorem MovesFrom.mapM {I : σ → Prop} {f : ι → EStateM ε σ α} {l : List ι}
    (hkeep : ∀ s s', I s → R s s' → I s') (hf : ∀ x ∈ l, ∀ s, I s → MovesFrom R s (f x))
    (hs : I s) : MovesFrom R s (l.mapM f) := by
  induction l generalizing s with
  | nil =>
    rw [List.mapM_nil]
    exact refl_of R s
  | cons x l ih =>
    rw [List.mapM_cons]
    have hx := hf x List.mem_cons_self s hs
    refine hx.bind fun _ t hrun => ?_
    have hrest := ih (fun y hy => hf y (List.mem_cons_of_mem x hy)) (hkeep s t hs (hx.of_ok hrun))
    exact hrest.bind fun _ t' _ => refl_of R t'

theorem Moves.mapM {f : ι → EStateM ε σ α} {l : List ι} (hf : ∀ x ∈ l, Moves R (f x)) :
    Moves R (l.mapM f) := fun _ =>
  MovesFrom.mapM (I := fun _ => True) (fun _ _ _ _ => trivial) (fun x hx s _ => (hf x hx).from s)
    trivial

theorem Moves.foldlM {f : α → ι → EStateM ε σ α} {l : List ι} (a : α)
    (hf : ∀ a, ∀ x ∈ l, Moves R (f a x)) : Moves R (l.foldlM f a) := by
  induction l generalizing a with
  | nil =>
    rw [List.foldlM_nil]
    exact .pure a
  | cons x l ih =>
    rw [List.foldlM_cons]
    exact .bind (hf a x List.mem_cons_self) fun a' =>
      ih a' fun b y hy => hf b y (List.mem_cons_of_mem x hy)

/-- A result of a loop was returned by a run of its body, from which the loop went on along `R`. -/
theorem exists_of_mapM_ok {f : ι → EStateM ε σ α} {l : List ι} (hf : ∀ x ∈ l, Moves R (f x))
    {s' : σ} {results : List α} (h : (l.mapM f).run s = .ok results s') {a : α}
    (ha : a ∈ results) : ∃ x ∈ l, ∃ s₁ s₂, (f x).run s₁ = .ok a s₂ ∧ R s₂ s' := by
  induction l generalizing s results with
  | nil =>
    rw [List.mapM_nil] at h
    cases h
    cases ha
  | cons x l ih =>
    have hrestMoves : ∀ y ∈ l, Moves R (f y) := fun y hy => hf y (List.mem_cons_of_mem x hy)
    rw [List.mapM_cons, bind_eq_ok] at h
    obtain ⟨first, t, hfirst, h⟩ := h
    obtain ⟨rest, t', hrest, h⟩ := bind_eq_ok.1 h
    cases h
    rcases List.mem_cons.1 ha with rfl | hmem
    · exact ⟨x, List.mem_cons_self, s, t, hfirst, (Moves.mapM hrestMoves).of_ok hrest⟩
    · obtain ⟨y, hy, hrun⟩ := ih hrestMoves hrest hmem
      exact ⟨y, List.mem_cons_of_mem x hy, hrun⟩

end MovesFrom

/-! ## Where a run goes and what it returns -/

/-- The run of the program from `s` moves the state along `R`, and where it returns, `Q` holds of
the value and the state. -/
structure Ends (R : σ → σ → Prop) (Q : α → σ → Prop) (s : σ) (x : EStateM ε σ α) : Prop where
  moves : MovesFrom R s x
  returns : ∀ a t, x.run s = .ok a t → Q a t

section Ends

variable {R : σ → σ → Prop} {Q Q' : α → σ → Prop} {s : σ}

theorem Ends.mono {x : EStateM ε σ α} (h : Ends R Q s x) (hQ : ∀ a t, Q a t → Q' a t) :
    Ends R Q' s x := ⟨h.moves, fun a t hrun => hQ a t (h.returns a t hrun)⟩

theorem Ends.ite {p : Prop} [Decidable p] {x y : EStateM ε σ α} (hx : p → Ends R Q s x)
    (hy : ¬ p → Ends R Q s y) : Ends R Q s (if p then x else y) := by
  by_cases hp : p
  · simpa [hp] using hx hp
  · simpa [hp] using hy hp

variable [IsPreorder σ R]

theorem Ends.pure {a : α} (h : Q a s) : Ends R Q s (Pure.pure a : EStateM ε σ α) := by
  refine ⟨.pure a, ?_⟩
  intro a' t hrun
  cases hrun
  exact h

theorem Ends.throw (e : ε) : Ends R Q s (MonadExcept.throw e : EStateM ε σ α) := by
  refine ⟨(Moves.throw e).from s, ?_⟩
  intro a t hrun
  cases hrun

theorem Ends.bind {P : β → σ → Prop} {x : EStateM ε σ α} {f : α → EStateM ε σ β}
    (hx : Ends R Q s x) (hf : ∀ a t, Q a t → Ends R P t (f a)) : Ends R P s (x >>= f) := by
  refine ⟨hx.moves.bind fun a t hrun => (hf a t (hx.returns a t hrun)).moves, ?_⟩
  intro b t' hrun
  obtain ⟨a, t, hfirst, hrest⟩ := bind_eq_ok.1 hrun
  exact (hf a t (hx.returns a t hfirst)).returns b t' hrest

/-- A check that leaves the state alone. -/
theorem Ends.bind_ofExcept {P : β → σ → Prop} {x : Except ε α} {f : α → EStateM ε σ β}
    (hf : ∀ a, x = .ok a → Ends R P s (f a)) :
    Ends R P s (MonadExcept.ofExcept x >>= f) := by
  cases x with
  | ok a => exact hf a rfl
  | error e => exact .throw e

theorem Ends.tryCatch {x : EStateM ε σ α} {handle : ε → EStateM ε σ α} (hx : Ends R Q s x)
    (hhandle : ∀ e t, x.run s = .error e t → Ends R Q t (handle e)) :
    Ends R Q s (tryCatch x handle) := by
  cases h : x.run s with
  | ok a t =>
    refine ⟨?_, ?_⟩
    · rw [MovesFrom, tryCatch_of_ok h]
      exact hx.moves.of_ok h
    · intro a' t' hok
      rw [tryCatch_of_ok h] at hok
      cases hok
      exact hx.returns a t h
  | error e t =>
    refine ⟨?_, ?_⟩
    · rw [MovesFrom, tryCatch_of_error h]
      exact trans_of R (hx.moves.of_error h) (hhandle e t h).moves
    · intro a' t' hok
      rw [tryCatch_of_error h] at hok
      exact (hhandle e t h).returns a' t' hok

/-- A loop with an invariant of the elements that are still to come, the accumulator and the
state. -/
theorem Ends.foldlM {I : List ι → α → σ → Prop} {f : α → ι → EStateM ε σ α} {l : List ι} {a : α}
    (hf : ∀ x rest a t, I (x :: rest) a t → Ends R (I rest) t (f a x)) (h : I l a s) :
    Ends R (I []) s (l.foldlM f a) := by
  induction l generalizing a s with
  | nil => exact .pure h
  | cons x l ih =>
    rw [List.foldlM_cons]
    exact (hf x l a s h).bind fun a' t ht => ih ht

end Ends

/-! ## Runs that return -/

/-- What a run of the one program returns, the other one returns as well. -/
def ReturnsAs (x y : EStateM ε σ α) : Prop :=
  ∀ s a s', x.run s = .ok a s' → y.run s = .ok a s'

section ReturnsAs

theorem ReturnsAs.refl (x : EStateM ε σ α) : ReturnsAs x x := fun _ _ _ h => h

theorem ReturnsAs.bind {x y : EStateM ε σ α} {f g : α → EStateM ε σ β} (hx : ReturnsAs x y)
    (hf : ∀ a, ReturnsAs (f a) (g a)) : ReturnsAs (x >>= f) (y >>= g) := by
  intro s b s' h
  obtain ⟨a, t, hrun, hrest⟩ := bind_eq_ok.1 h
  exact bind_eq_ok.2 ⟨a, t, hx s a t hrun, hf a t b s' hrest⟩

theorem ReturnsAs.ite {p : Prop} [Decidable p] {x x' y y' : EStateM ε σ α} (hx : ReturnsAs x x')
    (hy : ReturnsAs y y') : ReturnsAs (if p then x else y) (if p then x' else y') := by
  by_cases hp : p
  · simpa [hp] using hx
  · simpa [hp] using hy

theorem ReturnsAs.forM {f g : ι → EStateM ε σ PUnit} {l : List ι}
    (hf : ∀ x ∈ l, ReturnsAs (f x) (g x)) : ReturnsAs (forM l f) (forM l g) := by
  induction l with
  | nil => exact .refl _
  | cons x l ih =>
    rw [List.forM_cons, List.forM_cons]
    obtain ⟨hx, hl⟩ := List.forall_mem_cons.1 hf
    exact .bind hx fun _ => ih hl

end ReturnsAs

/-! ## The errors of a run -/

/-- The errors of the program satisfy `P`. -/
def Throws (P : ε → Prop) (x : EStateM ε σ α) : Prop :=
  ∀ s e s', x.run s = .error e s' → P e

section Throws

variable {P : ε → Prop}

theorem Throws.pure (a : α) : Throws P (Pure.pure a : EStateM ε σ α) := by
  intro s e s' h
  cases h

theorem Throws.modify (f : σ → σ) : Throws P (modify f : EStateM ε σ PUnit) := by
  intro s e s' h
  cases h

theorem Throws.throw {e : ε} (h : P e) : Throws P (MonadExcept.throw e : EStateM ε σ α) := by
  intro s e' s' h'
  cases h'
  exact h

theorem Throws.ofExcept {x : Except ε α} (hx : ∀ e, x = .error e → P e) :
    Throws P (MonadExcept.ofExcept x : EStateM ε σ α) := by
  intro s e s' h
  cases x with
  | ok a => cases h
  | error e' =>
    cases h
    exact hx _ rfl

theorem Throws.bind {x : EStateM ε σ α} {f : α → EStateM ε σ β} (hx : Throws P x)
    (hf : ∀ a, Throws P (f a)) : Throws P (x >>= f) := by
  intro s e s' h
  rcases bind_eq_error.1 h with h | ⟨a, t, -, h⟩
  · exact hx s e s' h
  · exact hf a t e s' h

theorem Throws.ite {p : Prop} [Decidable p] {x y : EStateM ε σ α} (hx : Throws P x)
    (hy : Throws P y) : Throws P (if p then x else y) := by
  by_cases hp : p
  · simpa [hp] using hx
  · simpa [hp] using hy

theorem Throws.forM {f : ι → EStateM ε σ PUnit} {l : List ι} (hf : ∀ x ∈ l, Throws P (f x)) :
    Throws P (forM l f) := by
  intro s e s' h
  obtain ⟨before, x, after, t, rfl, -, hx⟩ := forM_eq_error.1 h
  exact hf x (List.mem_append_right _ List.mem_cons_self) t e s' hx

/-- A program without errors returns. -/
theorem Throws.returns {x : EStateM ε σ α} (h : Throws (fun _ => False) x) (s : σ) :
    ∃ a s', x.run s = .ok a s' := by
  cases hx : x.run s with
  | ok a s' => exact ⟨a, s', rfl⟩
  | error e s' => exact (h s e s' hx).elim

end Throws

end KafkaCli.Run
