import Mathlib.Algebra.Group.Int.Defs
import Mathlib.Algebra.Group.Nat.Defs

/-!
# Fixed-width integers

Machine integers are unbounded integers here, and the places where a width matters say so:
`wrap64` is two's-complement arithmetic on 64 bits, `saturate64` and `saturate32` stop at their
bounds and `checked64` fails there; `unsignedBe` and `signedBe` read the big-endian bytes of an
integer.
-/

namespace KafkaCli

/-- Reduce to the range of a signed 64-bit integer. -/
def wrap64 (x : Int) : Int := x.bmod (2 ^ 64)

/-- The closest signed 64-bit integer. -/
def saturate64 (x : Int) : Int := max (-2 ^ 63) (min x (2 ^ 63 - 1))

/-- The closest signed 32-bit integer. -/
def saturate32 (x : Int) : Int := max (-2 ^ 31) (min x (2 ^ 31 - 1))

/-- A signed 64-bit integer, where it fits. -/
def checked64 (x : Int) : Option Int := if -2 ^ 63 ≤ x ∧ x < 2 ^ 63 then some x else none

/-- The number is in the range of a signed 64-bit integer. -/
def Fits64 (x : Int) : Prop := -2 ^ 63 ≤ x ∧ x < 2 ^ 63

theorem checked64_eq_some {x y : Int} : checked64 x = some y ↔ Fits64 x ∧ x = y := by
  rw [checked64, Fits64]
  by_cases h : -2 ^ 63 ≤ x ∧ x < 2 ^ 63
  · rw [if_pos h, Option.some.injEq]
    exact (and_iff_right h).symm
  · rw [if_neg h]
    exact iff_of_false nofun fun hfits => h hfits.1

/-- A number in the range is left as it is. -/
theorem wrap64_of_fits {x : Int} (h : Fits64 x) : wrap64 x = x := by
  obtain ⟨hlow, hhigh⟩ := h
  exact Int.bmod_eq_of_le (by omega) (by omega)

theorem fits_wrap64 (x : Int) : Fits64 (wrap64 x) := by
  have hlow : -((2 ^ 64 : Nat) / 2 : Int) ≤ wrap64 x := Int.le_bmod (by decide)
  have hhigh : wrap64 x < (((2 ^ 64 : Nat) : Int) + 1) / 2 := Int.bmod_lt (by decide)
  refine ⟨?_, ?_⟩ <;> omega

/-- A difference that is too small comes out large. -/
theorem wrap64_of_lt {x : Int} (hlow : -2 ^ 64 < x) (h : x < -2 ^ 63) :
    wrap64 x = x + 2 ^ 64 := by
  have hsame : wrap64 x = wrap64 (x + 2 ^ 64) := (Int.add_bmod_right x (2 ^ 64)).symm
  rw [hsame, wrap64_of_fits ⟨by omega, by omega⟩]

/-- A difference that is not too large comes out no smaller. -/
theorem le_wrap64 {x : Int} (hlow : -2 ^ 64 < x) (hhigh : x < 2 ^ 63) : x ≤ wrap64 x := by
  by_cases hfits : -2 ^ 63 ≤ x
  · exact Int.le_of_eq (wrap64_of_fits ⟨hfits, hhigh⟩).symm
  · rw [wrap64_of_lt hlow (Int.not_le.1 hfits)]
    omega

/-- The number written by big-endian bytes. -/
def unsignedBe (bytes : List UInt8) : Nat :=
  bytes.foldl (fun n byte => n * 256 + byte.toNat) 0

/-- The two's-complement number written by big-endian bytes. -/
def signedBe (bytes : List UInt8) : Int :=
  (unsignedBe bytes : Int).bmod (2 ^ (8 * bytes.length))

/-- The bytes `from ..< to` of a slice. -/
def slice (bytes : List UInt8) (start stop : Nat) : List UInt8 :=
  (bytes.drop start).take (stop - start)

end KafkaCli
