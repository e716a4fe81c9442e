import KafkaCli.Lib.Generator
import Mathlib.Data.UInt

/-!
# The generators of the performance tests

The producer test has the generator of `java.util.SplittableRandom`: a state that an odd number is
added to, and a mixing function over it. The end-to-end test has that of `java.util.Random`, which
is linear congruential on 48 bits. Both draw an index by rejection: candidates are drawn until
there is one that is no more likely than the others, and nothing counts down in this loop.

**Theorems (`PerfRandom.index_spec`, `JavaRandom.nextIndex_spec`).** For every bound that is one of
Java's the loop ends, with an index below the bound, which is the one that Java draws.

Both end for one reason. The states of the generator run through all numbers of their width, so
that zero is among them; it makes the candidate zero, which no bound rejects.
-/

namespace KafkaCli.Perf

open Generator

/-! ## Signs -/

theorem toInt32_nonneg {x : UInt32} : x.toInt32 ≥ 0 ↔ x.toNat < 2 ^ 31 := by
  rw [ge_iff_le, Int32.le_iff_toInt_le]
  show 0 ≤ x.toBitVec.toInt ↔ x.toBitVec.toNat < 2 ^ 31
  rw [BitVec.toInt_eq_toNat_cond]
  split <;> omega

/-- Among the numbers whose sign bit is not set, the remainder is that without a sign. -/
theorem srem_eq_umod {x y : BitVec 32} (hx : x.toNat < 2 ^ 31) (hy : y.toNat < 2 ^ 31) :
    x.srem y = x % y := by
  have hxmsb : x.msb = false := BitVec.msb_eq_false_iff_two_mul_lt.2 (by omega)
  have hymsb : y.msb = false := BitVec.msb_eq_false_iff_two_mul_lt.2 (by omega)
  rw [BitVec.srem_eq, hxmsb, hymsb]

/-- A bound that Java has. -/
theorem eq_toBitVec {x : BitVec 32} {bound : UInt32} (h : x.toInt = bound.toNat) :
    x = bound.toBitVec ∧ bound.toNat < 2 ^ 31 := by
  have hlt : 2 * x.toInt < 2 ^ 32 := BitVec.two_mul_toInt_lt
  have htoInt := BitVec.toInt_eq_toNat_cond x
  have hx := x.isLt
  have heq : x.toNat = bound.toNat := by
    split at htoInt <;> omega
  exact ⟨BitVec.eq_of_toNat_eq heq, by omega⟩

theorem ofNat_toNat (x : UInt32) : BitVec.ofNat 32 x.toNat = x.toBitVec :=
  (BitVec.ofNat_toNat 32 x.toBitVec).trans x.toBitVec.setWidth_eq

/-- The test for an overflow is one of the sign bit. -/
theorem map_toInt32_nonneg (check value : UInt32) :
    (if check.toInt32 ≥ 0 then some value else none).map UInt32.toBitVec =
      if check.toBitVec.toInt < 0 then none else some value.toBitVec := by
  have hcheck : check.toInt32 ≥ 0 ↔ ¬ check.toBitVec.toInt < 0 :=
    Int32.le_iff_toInt_le.trans Int.not_lt.symm
  by_cases h : check.toInt32 ≥ 0
  · rw [if_pos h, if_neg (hcheck.1 h)]
    rfl
  · rw [if_neg h, if_pos (not_not.1 (hcheck.not.1 h))]
    rfl

/-- The mask of a bound up to `2 ^ 31` has no sign bit. -/
theorem toInt32_mask {bound : UInt32} (hpos : 0 < bound.toNat) (hbound : bound.toNat ≤ 2 ^ 31) :
    (bound - 1).toInt32 ≥ 0 := by
  rw [toInt32_nonneg, UInt32.toNat_sub_of_le bound 1 hpos]
  show bound.toNat - 1 < 2 ^ 31
  omega

/-! ## The producer test -/

structure PerfRandom where
  state : UInt64
  deriving DecidableEq, Repr

namespace PerfRandom

def new (seed : Int64) : PerfRandom := ⟨seed.toUInt64⟩

/-- `next_u32`. -/
def nextU32 (random : PerfRandom) : UInt32 × PerfRandom :=
  let state := random.state + 0x9e3779b97f4a7c15
  let value := (state ^^^ (state >>> 33)) * 0x62a9d9ed799705f5
  let value := (value ^^^ (value >>> 28)) * 0xcb24d0a5c88c35b3
  ((value >>> 32).toUInt32, ⟨state⟩)

/-- The next candidate of the loop. -/
def nextCandidate (random : PerfRandom) : UInt32 × PerfRandom :=
  let (random, generator) := random.nextU32
  (random >>> 1, generator)

/-- What the loop returns for a candidate, unless it goes on. -/
def accepted (bound candidate : UInt32) : Option UInt32 :=
  let mask := bound - 1
  let value := candidate % bound
  let check := candidate + mask - value
  if check.toInt32 ≥ 0 then some value else none

/-- `index`, with a limit for the number of candidates. -/
def index (fuel : ℕ) (random : PerfRandom) (upper : ℕ) : Option (ℕ × PerfRandom) :=
  let bound : UInt32 := if upper < 2 ^ 32 then .ofNat upper else .ofNat (2 ^ 32 - 1)
  let mask := bound - 1
  let (value, generator) := random.nextU32
  if bound &&& mask = 0 then some ((value &&& mask).toNat, generator)
  else
    (draw nextCandidate (accepted bound) fuel (value >>> 1, generator)).map
      (Prod.map UInt32.toNat id)

example : (index 1 (new 0) 26).map Prod.fst = some 24 := by decide +kernel

/-- The state that `next_u32` leaves. -/
def step (random : PerfRandom) : PerfRandom := ⟨random.state + 0x9e3779b97f4a7c15⟩

/-- Every state is reached. -/
theorem exists_step_state (random : PerfRandom) (y : UInt64) :
    ∃ n, (step^[n] random).state = y := by
  have hnext : ∀ random : PerfRandom, random.step.state.toNat ≡
      1 * random.state.toNat + 0x9e3779b97f4a7c15 [MOD 2 ^ 64] := fun random => by
    rw [Nat.one_mul, step, UInt64.toNat_add]
    exact Nat.mod_modEq _ _
  obtain ⟨n, hn⟩ := @exists_iterate _ 1 0x9e3779b97f4a7c15 step (fun random => random.state.toNat)
    64 (by decide) (by decide) hnext random y.toNat
  exact ⟨n, UInt64.toNat_inj.1 (Nat.ModEq.eq_of_lt_of_lt hn (UInt64.toNat_lt _) y.toNat_lt)⟩

/-- Zero is mixed into zero. -/
theorem nextCandidate_of_zero {random : PerfRandom} (h : random.step.state = 0) :
    random.nextCandidate.1 = 0 := by
  have hstate : random.state + 0x9e3779b97f4a7c15 = 0 := h
  simp only [nextCandidate, nextU32, hstate]
  decide

theorem accepted_eq (bound candidate : UInt32) :
    accepted bound candidate =
      if (candidate + (bound - 1) - candidate % bound).toInt32 ≥ 0 then some (candidate % bound)
      else none := rfl

theorem accepted_zero {bound : UInt32} (hpos : 0 < bound.toNat) (hbound : bound.toNat ≤ 2 ^ 31) :
    accepted bound 0 = some 0 := by
  have hcheck : 0 + (bound - 1) - 0 % bound = bound - 1 := by
    rw [UInt32.zero_mod, UInt32.zero_add, UInt32.sub_zero]
  rw [accepted_eq, hcheck, if_pos (toInt32_mask hpos hbound), UInt32.zero_mod]

/-- The run comes to a candidate that is accepted. -/
theorem exists_accepted {bound : UInt32} (hpos : 0 < bound.toNat) (hbound : bound.toNat ≤ 2 ^ 31)
    (random : PerfRandom) :
    ∃ n, (accepted bound (nextCandidate ((next nextCandidate)^[n] random)).1).isSome := by
  obtain ⟨n, hn⟩ := random.step.exists_step_state 0
  rw [← Function.iterate_succ_apply, Function.iterate_succ_apply'] at hn
  have hnext : next nextCandidate = step := rfl
  refine ⟨n, ?_⟩
  rw [hnext, nextCandidate_of_zero hn, accepted_zero hpos hbound]
  rfl

theorem accepted_lt {bound candidate value : UInt32} (hpos : 0 < bound.toNat)
    (h : accepted bound candidate = some value) : value.toNat < bound.toNat := by
  rw [accepted_eq] at h
  split at h
  · cases h
    rw [UInt32.toNat_mod]
    exact Nat.mod_lt _ hpos
  · cases h

/-- A bound up to `2 ^ 31` as it is converted. -/
theorem toNat_bound {upper : ℕ} (h : upper ≤ 2 ^ 31) :
    (if upper < 2 ^ 32 then UInt32.ofNat upper else .ofNat (2 ^ 32 - 1)) = .ofNat upper ∧
      (UInt32.ofNat upper).toNat = upper := by
  have hlt : upper < 2 ^ 32 := by omega
  exact ⟨if_pos hlt, UInt32.toNat_ofNat_of_lt' hlt⟩

/-- The loop ends, and what it returns is in range. -/
theorem exists_index {upper : ℕ} (hpos : 1 ≤ upper) (hupper : upper ≤ 2 ^ 31)
    (random : PerfRandom) :
    ∃ fuel value random', value < upper ∧
      ∀ fuel' ≥ fuel, index fuel' random upper = some (value, random') := by
  obtain ⟨hbound, htoNat⟩ := toNat_bound hupper
  unfold index
  rw [hbound]
  generalize UInt32.ofNat upper = bound at htoNat
  subst htoNat
  by_cases hpow : bound &&& (bound - 1) = 0
  · refine ⟨0, (random.nextU32.1 &&& (bound - 1)).toNat, random.nextU32.2, ?_, fun _ _ => ?_⟩
    · have hmask : (bound - 1).toNat = bound.toNat - 1 := UInt32.toNat_sub_of_le bound 1 hpos
      have hle : (random.nextU32.1 &&& (bound - 1)).toNat ≤ (bound - 1).toNat := by
        rw [UInt32.toNat_and]
        exact Nat.and_le_right
      omega
    · exact if_pos hpow
  · obtain ⟨n, hn⟩ := exists_accepted hpos hupper random
    obtain ⟨result, hdraw⟩ := exists_draw hn
    obtain ⟨candidate, hvalue⟩ := exists_accept (hdraw (n + 1) n.lt_succ_self)
    refine ⟨n + 1, result.1.toNat, result.2, accepted_lt hpos hvalue, fun fuel hfuel => ?_⟩
    show (if bound &&& (bound - 1) = 0 then _ else _) = _
    rw [if_neg hpow]
    show Option.map _ (draw _ _ fuel random.nextCandidate) = _
    rw [hdraw fuel hfuel]
    rfl

end PerfRandom

/-! ### As Java draws

An `int` has 32 bits and a `long` has 64, in two's complement. The shift `>>>` brings zeros in, and
the remainder has the sign of the dividend.
-/

namespace SplittableRandom

/-- `mix32(nextSeed())`, with the seed that is left. -/
def mix32 (seed : BitVec 64) : BitVec 32 × BitVec 64 :=
  let z := seed + 0x9e3779b97f4a7c15#64
  let mixed := (z ^^^ (z >>> 33)) * 0x62a9d9ed799705f5#64
  let mixed := (mixed ^^^ (mixed >>> 28)) * 0xcb24d0a5c88c35b3#64
  ((mixed >>> 32).setWidth 32, z)

/-- The next candidate of the loop. -/
def nextCandidate (seed : BitVec 64) : BitVec 32 × BitVec 64 :=
  let (r, seed) := mix32 seed
  (r >>> 1, seed)

/-- What the loop returns for a candidate, unless it goes on. -/
def accepted (bound u : BitVec 32) : Option (BitVec 32) :=
  let m := bound - 1
  let r := u.srem bound
  if (u + m - r).toInt < 0 then none else some r

/-- `nextInt`, with a limit for the number of candidates. -/
def nextInt (fuel : ℕ) (seed : BitVec 64) (bound : BitVec 32) : Option (BitVec 32 × BitVec 64) :=
  let (r, seed) := mix32 seed
  let m := bound - 1
  if bound &&& m = 0 then some (r &&& m, seed)
  else draw nextCandidate (accepted bound) fuel (r >>> 1, seed)

end SplittableRandom

namespace PerfRandom

theorem nextCandidate_toBitVec (random : PerfRandom) :
    SplittableRandom.nextCandidate random.state.toBitVec =
      Prod.map UInt32.toBitVec (fun r => r.state.toBitVec) random.nextCandidate := rfl

/-- A candidate has no sign. -/
theorem nextCandidate_lt (random : PerfRandom) : random.nextCandidate.1.toNat < 2 ^ 31 := by
  show (random.nextU32.1 >>> 1).toNat < 2 ^ 31
  have hlt := random.nextU32.1.toNat_lt
  rw [UInt32.toNat_shiftRight]
  show random.nextU32.1.toNat >>> 1 < 2 ^ 31
  omega

theorem accepted_toBitVec {bound candidate : UInt32} (hbound : bound.toNat < 2 ^ 31)
    (hcandidate : candidate.toNat < 2 ^ 31) :
    SplittableRandom.accepted bound.toBitVec candidate.toBitVec =
      (accepted bound candidate).map UInt32.toBitVec := by
  have hsrem : candidate.toBitVec.srem bound.toBitVec = (candidate % bound).toBitVec :=
    srem_eq_umod hcandidate hbound
  rw [accepted_eq, map_toInt32_nonneg]
  unfold SplittableRandom.accepted
  rw [hsrem]
  rfl

/-- What is drawn for a bound that Java has is what Java draws. -/
theorem nextInt_toBitVec {upper : ℕ} (hupper : upper ≤ 2 ^ 31) {bound : BitVec 32}
    (hbound : bound.toInt = upper) (fuel : ℕ) (random : PerfRandom) :
    SplittableRandom.nextInt fuel random.state.toBitVec bound =
      (index fuel random upper).map
        (Prod.map (BitVec.ofNat 32) (fun r => r.state.toBitVec)) := by
  obtain ⟨hconverted, htoNat⟩ := toNat_bound hupper
  rw [← htoNat] at hbound
  obtain ⟨rfl, hlt⟩ := eq_toBitVec hbound
  unfold index
  rw [hconverted]
  generalize UInt32.ofNat upper = bound at hlt
  have hmask : bound &&& (bound - 1) = 0 ↔ bound.toBitVec &&& (bound.toBitVec - 1) = 0 := by
    rw [← UInt32.toBitVec_inj]
    rfl
  show (if bound.toBitVec &&& (bound.toBitVec - 1) = 0 then _
    else draw _ _ fuel (SplittableRandom.nextCandidate random.state.toBitVec)) =
    Option.map _ (if bound &&& (bound - 1) = 0 then _
      else Option.map _ (draw _ _ fuel random.nextCandidate))
  by_cases hpow : bound &&& (bound - 1) = 0
  · rw [if_pos hpow, if_pos (hmask.1 hpow)]
    show some _ = some (BitVec.ofNat 32 (random.nextU32.1 &&& (bound - 1)).toNat, _)
    rw [ofNat_toNat]
    rfl
  · rw [if_neg hpow, if_neg (hmask.not.1 hpow), nextCandidate_toBitVec,
      draw_map nextCandidate_lt nextCandidate_toBitVec (fun _ => accepted_toBitVec hlt) fuel
        random.nextCandidate_lt, Option.map_map]
    congr 1
    funext result
    exact Prod.ext (ofNat_toNat result.1).symm rfl

/-- **An index is drawn**, it is in range, and it is the one that Java draws from the state, for all
but the last of these bounds, which is no `int`. -/
theorem index_spec (random : PerfRandom) (upper : ℕ) (hpos : 1 ≤ upper) (hupper : upper ≤ 2 ^ 31) :
    (∃ fuel value random', value < upper ∧
      ∀ fuel' ≥ fuel, index fuel' random upper = some (value, random')) ∧
    ∀ bound : BitVec 32, bound.toInt = upper → ∀ fuel,
      SplittableRandom.nextInt fuel random.state.toBitVec bound =
        (index fuel random upper).map
          (Prod.map (BitVec.ofNat 32) (fun r => r.state.toBitVec)) :=
  ⟨exists_index hpos hupper random, fun _ hbound fuel => nextInt_toBitVec hupper hbound fuel random⟩

theorem index_spec_letters :
    (∃ fuel value random', value < 26 ∧
      ∀ fuel' ≥ fuel, index fuel' (new 0) 26 = some (value, random')) ∧
    ∀ bound : BitVec 32, bound.toInt = (26 : ℕ) → ∀ fuel,
      SplittableRandom.nextInt fuel (new 0).state.toBitVec bound =
        (index fuel (new 0) 26).map
          (Prod.map (BitVec.ofNat 32) (fun r => r.state.toBitVec)) :=
  index_spec (new 0) 26 (by decide) (by decide)

end PerfRandom

/-! ## The end-to-end test -/

structure JavaRandom where
  state : UInt64
  deriving DecidableEq, Repr

namespace JavaRandom

def MULTIPLIER : UInt64 := 0x5deece66d

def MASK : UInt64 := (1 : UInt64) <<< 48 - 1

def new (seed : Int64) : JavaRandom := ⟨(seed.toUInt64 ^^^ MULTIPLIER) &&& MASK⟩

/-- `next_bits`. -/
def nextBits (bits : UInt32) (random : JavaRandom) : UInt32 × JavaRandom :=
  let state := (random.state * MULTIPLIER + 0xb) &&& MASK
  let value := state >>> (48 - bits).toUInt64
  (if value.toNat < 2 ^ 32 then value.toUInt32 else 0, ⟨state⟩)

/-- What the loop returns for the bits that were drawn, unless it goes on. -/
def accepted (bound bits : UInt32) : Option UInt32 :=
  let mask := bound - 1
  let value := bits % bound
  let check := bits - value + mask
  if check.toInt32 ≥ 0 then some value else none

/-- `next_index`, with a limit for the number of candidates. -/
def nextIndex (fuel : ℕ) (random : JavaRandom) (bound : UInt32) : Option (UInt32 × JavaRandom) :=
  let mask := bound - 1
  if bound &&& mask = 0 then
    let (bits, generator) := random.nextBits 31
    let value := (bound.toUInt64 * bits.toUInt64) >>> 31
    some (if value.toNat < 2 ^ 32 then value.toUInt32 else 0, generator)
  else draw (nextBits 31) (accepted bound) fuel (random.nextBits 31)

example : (nextIndex 1 (new 0) 26).map Prod.fst = some 18 := by decide +kernel

/-- The state that `next_bits` leaves. -/
def step (random : JavaRandom) : JavaRandom := ⟨(random.state * MULTIPLIER + 0xb) &&& MASK⟩

theorem step_state_toNat (random : JavaRandom) :
    random.step.state.toNat = (0x5deece66d * random.state.toNat + 0xb) % 2 ^ 48 := by
  have hmask : MASK.toNat = 2 ^ 48 - 1 := by decide
  have hmultiplier : MULTIPLIER.toNat = 0x5deece66d := rfl
  have hdvd : 2 ^ 48 ∣ 2 ^ 64 := by decide
  rw [step, UInt64.toNat_and, hmask, Nat.and_two_pow_sub_one_eq_mod, UInt64.toNat_add,
    UInt64.toNat_mul, hmultiplier, Nat.mod_mod_of_dvd _ hdvd, Nat.add_mod,
    Nat.mod_mod_of_dvd _ hdvd, ← Nat.add_mod, Nat.mul_comm]
  rfl

/-- Every state of 48 bits is reached. -/
theorem exists_step_state (random : JavaRandom) (y : ℕ) :
    ∃ n, (step^[n] random).state.toNat ≡ y [MOD 2 ^ 48] := by
  have hnext : ∀ random : JavaRandom, random.step.state.toNat ≡
      0x5deece66d * random.state.toNat + 0xb [MOD 2 ^ 48] := fun random => by
    rw [step_state_toNat]
    exact Nat.mod_modEq _ _
  exact @exists_iterate _ 0x5deece66d 0xb step (fun random => random.state.toNat)
    48 (by decide) (by decide) hnext random y

theorem step_state_lt (random : JavaRandom) : random.step.state.toNat < 2 ^ 48 := by
  rw [step_state_toNat]
  exact Nat.mod_lt _ (by decide)

theorem step_state_shiftRight (random : JavaRandom) :
    (random.step.state >>> 17).toNat < 2 ^ 31 := by
  have hlt := step_state_lt random
  rw [UInt64.toNat_shiftRight]
  show random.step.state.toNat >>> 17 < 2 ^ 31
  omega

/-- 31 bits fit the width. -/
theorem nextBits_31 (random : JavaRandom) :
    nextBits 31 random = ((random.step.state >>> 17).toUInt32, random.step) := by
  have hfits : (random.step.state >>> 17).toNat < 2 ^ 32 :=
    (step_state_shiftRight random).trans (by decide)
  exact Prod.ext (if_pos hfits) rfl

theorem nextBits_31_lt (random : JavaRandom) : (nextBits 31 random).1.toNat < 2 ^ 31 := by
  rw [nextBits_31]
  have hlt := step_state_shiftRight random
  rw [UInt64.toNat_toUInt32]
  omega

theorem accepted_eq (bound bits : UInt32) :
    accepted bound bits =
      if (bits - bits % bound + (bound - 1)).toInt32 ≥ 0 then some (bits % bound) else none := rfl

theorem accepted_zero {bound : UInt32} (hpos : 0 < bound.toNat) (hbound : bound.toNat < 2 ^ 31) :
    accepted bound 0 = some 0 := by
  have hcheck : 0 - 0 % bound + (bound - 1) = bound - 1 := by
    rw [UInt32.zero_mod, UInt32.sub_zero, UInt32.zero_add]
  rw [accepted_eq, hcheck, if_pos (toInt32_mask hpos hbound.le), UInt32.zero_mod]

/-- The run comes to bits that are accepted. -/
theorem exists_accepted {bound : UInt32} (hpos : 0 < bound.toNat) (hbound : bound.toNat < 2 ^ 31)
    (random : JavaRandom) :
    ∃ n, (accepted bound (nextBits 31 ((next (nextBits 31))^[n] random)).1).isSome := by
  have hnext : next (nextBits 31) = step := rfl
  obtain ⟨n, hn⟩ := random.step.exists_step_state 0
  rw [← Function.iterate_succ_apply, Function.iterate_succ_apply'] at hn
  have hlt := step_state_lt (step^[n] random)
  have hzero : (step^[n] random).step.state = 0 :=
    UInt64.toNat_inj.1 (Nat.ModEq.eq_of_lt_of_lt hn hlt (by decide))
  refine ⟨n, ?_⟩
  rw [hnext, nextBits_31, hzero]
  show (accepted bound 0).isSome
  rw [accepted_zero hpos hbound]
  rfl

theorem accepted_lt {bound bits value : UInt32} (hpos : 0 < bound.toNat)
    (h : accepted bound bits = some value) : value.toNat < bound.toNat := by
  rw [accepted_eq] at h
  split at h
  · cases h
    rw [UInt32.toNat_mod]
    exact Nat.mod_lt _ hpos
  · cases h

/-- The product of the bound and 31 bits, without the lowest 31 bits of it. -/
theorem toNat_mul_shiftRight {bound bits : UInt32} (hbound : bound.toNat < 2 ^ 31)
    (hbits : bits.toNat < 2 ^ 31) :
    ((bound.toUInt64 * bits.toUInt64) >>> 31).toNat = bound.toNat * bits.toNat / 2 ^ 31 := by
  have hproduct : bound.toNat * bits.toNat < 2 ^ 31 * 2 ^ 31 := Nat.mul_lt_mul'' hbound hbits
  have hlt : bound.toNat * bits.toNat < 2 ^ 64 := by omega
  rw [UInt64.toNat_shiftRight, UInt64.toNat_mul, UInt32.toNat_toUInt64, UInt32.toNat_toUInt64,
    Nat.mod_eq_of_lt hlt]
  exact Nat.shiftRight_eq_div_pow _ _

theorem toNat_mul_shiftRight_lt {bound bits : UInt32} (hpos : 0 < bound.toNat)
    (hbound : bound.toNat < 2 ^ 31) (hbits : bits.toNat < 2 ^ 31) :
    ((bound.toUInt64 * bits.toUInt64) >>> 31).toNat < bound.toNat := by
  rw [toNat_mul_shiftRight hbound hbits]
  exact Nat.div_lt_of_lt_mul ((Nat.mul_lt_mul_left hpos).2 hbits |>.trans_eq (Nat.mul_comm _ _))

/-- For a power of two nothing is rejected. -/
theorem nextIndex_of_pow {bound : UInt32} (hpos : 0 < bound.toNat) (hbound : bound.toNat < 2 ^ 31)
    (hpow : bound &&& (bound - 1) = 0) (fuel : ℕ) (random : JavaRandom) :
    nextIndex fuel random bound =
      some (((bound.toUInt64 * (nextBits 31 random).1.toUInt64) >>> 31).toUInt32,
        (nextBits 31 random).2) := by
  have hlt := toNat_mul_shiftRight_lt hpos hbound (nextBits_31_lt random)
  have hfits : ((bound.toUInt64 * (nextBits 31 random).1.toUInt64) >>> 31).toNat < 2 ^ 32 := by
    omega
  exact (if_pos hpow).trans (congrArg some (Prod.ext (if_pos hfits) rfl))

/-- The loop ends, and what it returns is in range. -/
theorem exists_nextIndex {bound : UInt32} (hpos : 0 < bound.toNat) (hbound : bound.toNat < 2 ^ 31)
    (random : JavaRandom) :
    ∃ fuel value random', value.toNat < bound.toNat ∧
      ∀ fuel' ≥ fuel, nextIndex fuel' random bound = some (value, random') := by
  by_cases hpow : bound &&& (bound - 1) = 0
  · refine ⟨0, _, _, ?_, fun fuel _ => nextIndex_of_pow hpos hbound hpow fuel random⟩
    have hlt := toNat_mul_shiftRight_lt hpos hbound (nextBits_31_lt random)
    rw [UInt64.toNat_toUInt32, Nat.mod_eq_of_lt (by omega)]
    exact hlt
  · obtain ⟨n, hn⟩ := exists_accepted hpos hbound random
    obtain ⟨result, hdraw⟩ := exists_draw hn
    obtain ⟨bits, hvalue⟩ := exists_accept (hdraw (n + 1) n.lt_succ_self)
    refine ⟨n + 1, result.1, result.2, accepted_lt hpos hvalue, fun fuel hfuel => ?_⟩
    exact (if_neg hpow).trans (hdraw fuel hfuel)

end JavaRandom

/-! ### As Java draws -/

namespace UtilRandom

/-- `next`, with the seed that is left. -/
def next (bits : ℕ) (seed : BitVec 64) : BitVec 32 × BitVec 64 :=
  let seed := (seed * 0x5deece66d#64 + 0xb#64) &&& (1#64 <<< 48 - 1#64)
  ((seed >>> (48 - bits)).setWidth 32, seed)

/-- What the loop returns for a candidate, unless it goes on. -/
def accepted (bound u : BitVec 32) : Option (BitVec 32) :=
  let m := bound - 1
  let r := u.srem bound
  if (u - r + m).toInt < 0 then none else some r

/-- `nextInt`, with a limit for the number of candidates. -/
def nextInt (fuel : ℕ) (seed : BitVec 64) (bound : BitVec 32) : Option (BitVec 32 × BitVec 64) :=
  let (r, seed) := next 31 seed
  let m := bound - 1
  if bound &&& m = 0 then
    some (((bound.signExtend 64 * r.signExtend 64).sshiftRight 31).setWidth 32, seed)
  else draw (next 31) (accepted bound) fuel (r, seed)

end UtilRandom

namespace JavaRandom

theorem next_toBitVec (random : JavaRandom) :
    UtilRandom.next 31 random.state.toBitVec =
      Prod.map UInt32.toBitVec (fun r => r.state.toBitVec) (nextBits 31 random) := by
  rw [nextBits_31]
  rfl

theorem accepted_toBitVec {bound bits : UInt32} (hbound : bound.toNat < 2 ^ 31)
    (hbits : bits.toNat < 2 ^ 31) :
    UtilRandom.accepted bound.toBitVec bits.toBitVec =
      (accepted bound bits).map UInt32.toBitVec := by
  have hsrem : bits.toBitVec.srem bound.toBitVec = (bits % bound).toBitVec :=
    srem_eq_umod hbits hbound
  rw [accepted_eq, map_toInt32_nonneg]
  unfold UtilRandom.accepted
  rw [hsrem]
  rfl

theorem signExtend_toBitVec {x : UInt32} (hx : x.toNat < 2 ^ 31) :
    x.toBitVec.signExtend 64 = x.toUInt64.toBitVec := by
  have hmsb : x.toBitVec.msb = false :=
    BitVec.msb_eq_false_iff_two_mul_lt.2 (by show 2 * x.toNat < 2 ^ 32; omega)
  rw [BitVec.signExtend_eq_setWidth_of_msb_false hmsb]
  rfl

/-- The shift that keeps the sign is one that brings zeros in. -/
theorem mul_shiftRight_toBitVec {bound bits : UInt32} (hbound : bound.toNat < 2 ^ 31)
    (hbits : bits.toNat < 2 ^ 31) :
    (bound.toBitVec.signExtend 64 * bits.toBitVec.signExtend 64).sshiftRight 31 =
      ((bound.toUInt64 * bits.toUInt64) >>> 31).toBitVec := by
  have hproduct : bound.toNat * bits.toNat < 2 ^ 31 * 2 ^ 31 := Nat.mul_lt_mul'' hbound hbits
  have htoNat : (bound.toUInt64 * bits.toUInt64).toBitVec.toNat < 2 ^ 63 := by
    show (bound.toUInt64 * bits.toUInt64).toNat < 2 ^ 63
    rw [UInt64.toNat_mul, UInt32.toNat_toUInt64, UInt32.toNat_toUInt64]
    omega
  have hmsb : (bound.toUInt64 * bits.toUInt64).toBitVec.msb = false :=
    BitVec.msb_eq_false_iff_two_mul_lt.2 (by omega)
  rw [signExtend_toBitVec hbound, signExtend_toBitVec hbits]
  exact BitVec.sshiftRight_eq_of_msb_false hmsb

/-- What is drawn is what Java draws. -/
theorem nextInt_toBitVec {bound : UInt32} (hpos : 0 < bound.toNat) (hbound : bound.toNat < 2 ^ 31)
    (fuel : ℕ) (random : JavaRandom) :
    UtilRandom.nextInt fuel random.state.toBitVec bound.toBitVec =
      (nextIndex fuel random bound).map
        (Prod.map UInt32.toBitVec (fun r => r.state.toBitVec)) := by
  have hmask : bound &&& (bound - 1) = 0 ↔ bound.toBitVec &&& (bound.toBitVec - 1) = 0 := by
    rw [← UInt32.toBitVec_inj]
    rfl
  unfold UtilRandom.nextInt
  rw [next_toBitVec]
  by_cases hpow : bound &&& (bound - 1) = 0
  · rw [nextIndex_of_pow hpos hbound hpow]
    have hshift := mul_shiftRight_toBitVec hbound (nextBits_31_lt random)
    exact (if_pos (hmask.1 hpow)).trans (congrArg (fun x => some (x.setWidth 32, _)) hshift)
  · refine (if_neg (hmask.not.1 hpow)).trans ?_
    refine Eq.trans ?_ (congrArg _ (if_neg hpow).symm)
    exact draw_map nextBits_31_lt next_toBitVec (fun _ => accepted_toBitVec hbound) fuel
      (nextBits_31_lt random)

/-- **An index is drawn**, it is in range, and it is the one that Java draws from the state. -/
theorem nextIndex_spec (random : JavaRandom) (bound : UInt32) (hpos : 1 ≤ bound.toNat)
    (hbound : bound.toNat ≤ 2 ^ 31 - 1) :
    (∃ fuel value random', value.toNat < bound.toNat ∧
      ∀ fuel' ≥ fuel, nextIndex fuel' random bound = some (value, random')) ∧
    ∀ fuel, UtilRandom.nextInt fuel random.state.toBitVec bound.toBitVec =
      (nextIndex fuel random bound).map
        (Prod.map UInt32.toBitVec (fun r => r.state.toBitVec)) := by
  have hlt : bound.toNat < 2 ^ 31 := by omega
  exact ⟨exists_nextIndex hpos hlt random, fun fuel => nextInt_toBitVec hpos hlt fuel random⟩

theorem nextIndex_spec_letters :
    (∃ fuel value random', value.toNat < 26 ∧
      ∀ fuel' ≥ fuel, nextIndex fuel' (new 0) 26 = some (value, random')) ∧
    ∀ fuel, UtilRandom.nextInt fuel (new 0).state.toBitVec (UInt32.toBitVec 26) =
      (nextIndex fuel (new 0) 26).map
        (Prod.map UInt32.toBitVec (fun r => r.state.toBitVec)) :=
  nextIndex_spec (new 0) 26 (by decide) (by decide)

end JavaRandom

end KafkaCli.Perf
