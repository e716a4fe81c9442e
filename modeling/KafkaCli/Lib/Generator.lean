import Mathlib.Data.Nat.ModEq
import Mathlib.Logic.Function.Iterate
import Mathlib.Tactic.Ring

/-!
# Generators of pseudo-random numbers

A generator has a state, and emits a candidate with the next state. `draw` is the loop that takes
candidates until one is accepted, which may be never. It ends if the run of the states reaches one
whose candidate is accepted (`exists_draw`), and two generators that correspond draw corresponding
values (`draw_map`).

The states of a linear congruential generator modulo `2 ^ w` are multiplied by `a` and `c` is
added. If `a` is one modulo four and `c` is odd, it reaches every state from every state
(`exists_iterate_modEq`): `2 ^ k` steps of it add `2 ^ k` modulo `2 ^ (k + 1)`, so that each further
bit can be set right without a change of those below it.
-/

namespace KafkaCli.Generator

variable {σ τ α β γ δ : Type}

/-! ## Drawing a value -/

/-- The value of the first candidate that is accepted, among so many. -/
def draw (emit : σ → α × σ) (accept : α → Option β) : (fuel : ℕ) → α × σ → Option (β × σ)
  | 0, _ => none
  | fuel + 1, (candidate, state) =>
    match accept candidate with
    | some value => some (value, state)
    | none => draw emit accept fuel (emit state)

/-- The state that a generator leaves. -/
def next (emit : σ → α × σ) (state : σ) : σ := (emit state).2

variable {emit : σ → α × σ} {accept : α → Option β}

theorem draw_of_some {loop : α × σ} {value : β} (h : accept loop.1 = some value) (fuel : ℕ) :
    draw emit accept (fuel + 1) loop = some (value, loop.2) := by
  rw [draw, h]

theorem draw_of_none {loop : α × σ} (h : accept loop.1 = none) (fuel : ℕ) :
    draw emit accept (fuel + 1) loop = draw emit accept fuel (emit loop.2) := by
  rw [draw, h]

/-- The loop ends if a state is reached whose candidate is accepted, and does not draw on. -/
theorem exists_draw {n : ℕ} {state : σ} (h : (accept (emit ((next emit)^[n] state)).1).isSome) :
    ∃ result, ∀ fuel > n, draw emit accept fuel (emit state) = some result := by
  induction n generalizing state with
  | zero =>
    obtain ⟨value, hvalue⟩ := Option.isSome_iff_exists.1 h
    refine ⟨(value, (emit state).2), fun fuel hfuel => ?_⟩
    obtain ⟨fuel, rfl⟩ := Nat.exists_eq_succ_of_ne_zero (Nat.ne_of_gt hfuel)
    exact draw_of_some hvalue fuel
  | succ n ih =>
    cases hvalue : accept (emit state).1 with
    | some value =>
      refine ⟨(value, (emit state).2), fun fuel hfuel => ?_⟩
      obtain ⟨fuel, rfl⟩ := Nat.exists_eq_succ_of_ne_zero (Nat.ne_zero_of_lt hfuel)
      exact draw_of_some hvalue fuel
    | none =>
      have hnext : (accept (emit ((next emit)^[n] (next emit state))).1).isSome := h
      obtain ⟨result, hresult⟩ := ih hnext
      refine ⟨result, fun fuel hfuel => ?_⟩
      obtain ⟨fuel, rfl⟩ := Nat.exists_eq_succ_of_ne_zero (Nat.ne_zero_of_lt hfuel)
      rw [draw_of_none hvalue]
      exact hresult fuel (Nat.lt_of_succ_lt_succ hfuel)

/-- What is drawn is the value of a candidate. -/
theorem exists_accept {fuel : ℕ} {loop : α × σ} {result : β × σ}
    (h : draw emit accept fuel loop = some result) :
    ∃ candidate, accept candidate = some result.1 := by
  induction fuel generalizing loop with
  | zero => cases h
  | succ fuel ih =>
    cases hvalue : accept loop.1 with
    | some value =>
      rw [draw_of_some hvalue] at h
      cases h
      exact ⟨loop.1, hvalue⟩
    | none =>
      rw [draw_of_none hvalue] at h
      exact ih h

/-- Generators that correspond, as far as something holds of all candidates. -/
theorem draw_map {emit' : τ → γ × τ} {accept' : γ → Option δ} {f : σ → τ} {g : α → γ} {v : β → δ}
    {P : α → Prop} (hcandidate : ∀ state, P (emit state).1)
    (hemit : ∀ state, emit' (f state) = Prod.map g f (emit state))
    (haccept : ∀ candidate, P candidate → accept' (g candidate) = (accept candidate).map v)
    (fuel : ℕ) {loop : α × σ} (h : P loop.1) :
    draw emit' accept' fuel (Prod.map g f loop) =
      (draw emit accept fuel loop).map (Prod.map v f) := by
  induction fuel generalizing loop with
  | zero => rfl
  | succ fuel ih =>
    have haccept := haccept loop.1 h
    cases hvalue : accept loop.1 with
    | some value =>
      rw [hvalue] at haccept
      rw [draw_of_some hvalue, draw_of_some haccept]
      rfl
    | none =>
      rw [hvalue] at haccept
      rw [draw_of_none hvalue, draw_of_none haccept, ← ih (hcandidate _), ← hemit]
      rfl

/-! ## Linear congruential generators -/

section Affine

variable {a c : ℕ}

/-- So many steps are one affine map, whose coefficient is one in the lowest bits. -/
theorem exists_iterate_two_pow (ha : a % 4 = 1) (hc : c % 2 = 1) (k : ℕ) :
    ∃ t s, ∀ x,
      (fun x => a * x + c)^[2 ^ k] x = (1 + 2 ^ (k + 2) * t) * x + 2 ^ k * (2 * s + 1) := by
  induction k with
  | zero =>
    refine ⟨a / 4, c / 2, fun x => ?_⟩
    have ha' : 1 + 2 ^ 2 * (a / 4) = a := by omega
    have hc' : 2 ^ 0 * (2 * (c / 2) + 1) = c := by omega
    rw [ha', hc']
    rfl
  | succ k ih =>
    obtain ⟨t, s, hiterate⟩ := ih
    refine ⟨t + 2 ^ (k + 1) * t * t, s + 2 ^ k * t * (2 * s + 1), fun x => ?_⟩
    rw [Nat.pow_succ, Nat.mul_two, Function.iterate_add_apply, hiterate, hiterate]
    ring

/-- `2 ^ k` steps add `2 ^ k`, but for the bits above. -/
theorem iterate_two_pow_modEq (ha : a % 4 = 1) (hc : c % 2 = 1) (k x : ℕ) :
    (fun x => a * x + c)^[2 ^ k] x ≡ x + 2 ^ k [MOD 2 ^ (k + 1)] := by
  obtain ⟨t, s, hiterate⟩ := exists_iterate_two_pow ha hc k
  have hsplit : (fun x => a * x + c)^[2 ^ k] x = x + 2 ^ k + 2 ^ (k + 1) * (2 * t * x + s) := by
    rw [hiterate]
    ring
  rw [hsplit]
  exact Nat.add_modulus_mul_modEq_iff.2 rfl

/-- The next bit is right, or wrong. -/
theorem modEq_or_add_modEq {w x y : ℕ} (h : x ≡ y [MOD 2 ^ w]) :
    x ≡ y [MOD 2 ^ (w + 1)] ∨ x + 2 ^ w ≡ y [MOD 2 ^ (w + 1)] := by
  have hpos : 0 < 2 ^ w := Nat.two_pow_pos w
  have hbits : ∀ z, z % 2 ^ (w + 1) = z % 2 ^ w + 2 ^ w * (z / 2 ^ w % 2) := fun z => by
    rw [Nat.pow_succ, Nat.mod_mul]
  unfold Nat.ModEq at h ⊢
  rw [hbits, hbits y, hbits (x + 2 ^ w), Nat.add_mod_right, Nat.add_div_right x hpos, h]
  by_cases hbit : x / 2 ^ w % 2 = y / 2 ^ w % 2
  · exact .inl (by rw [hbit])
  · have hflip : (x / 2 ^ w).succ % 2 = y / 2 ^ w % 2 := by omega
    exact .inr (by rw [hflip])

/-- **Every state is reached** from every state. -/
theorem exists_iterate_modEq (ha : a % 4 = 1) (hc : c % 2 = 1) (w x y : ℕ) :
    ∃ n, (fun x => a * x + c)^[n] x ≡ y [MOD 2 ^ w] := by
  induction w with
  | zero => exact ⟨0, Nat.modEq_one⟩
  | succ w ih =>
    obtain ⟨n, hn⟩ := ih
    rcases modEq_or_add_modEq hn with h | h
    · exact ⟨n, h⟩
    · refine ⟨2 ^ w + n, ?_⟩
      rw [Function.iterate_add_apply]
      exact (iterate_two_pow_modEq ha hc w _).trans h

/-- A generator whose states are such numbers reaches every state. -/
theorem exists_iterate {step : σ → σ} {f : σ → ℕ} {w : ℕ} (ha : a % 4 = 1) (hc : c % 2 = 1)
    (hnext : ∀ state, f (step state) ≡ a * f state + c [MOD 2 ^ w]) (state : σ) (y : ℕ) :
    ∃ n, f (step^[n] state) ≡ y [MOD 2 ^ w] := by
  have hiterate : ∀ n, f (step^[n] state) ≡
      (fun x => a * x + c)^[n] (f state) [MOD 2 ^ w] := by
    intro n
    induction n with
    | zero => rfl
    | succ n ih =>
      rw [Function.iterate_succ_apply', Function.iterate_succ_apply']
      exact (hnext _).trans ((ih.mul_left a).add_right c)
  obtain ⟨n, hn⟩ := exists_iterate_modEq ha hc w (f state) y
  exact ⟨n, (hiterate n).trans hn⟩

end Affine

end KafkaCli.Generator
