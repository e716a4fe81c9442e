import KafkaCli.Lib.Checked
import KafkaCli.Lib.MachineInt
import Mathlib.Tactic.Positivity

/-!
# Binary decoders

A decoder reads a value off the front of some bytes and leaves the rest, or fails.

`Reads decoder bytes a` says that the decoder takes exactly `bytes`, whatever follows them, and
makes `a` of them. A record is read field by field: its bytes are the concatenation of a list of
pieces, and `Reads.field` reads one piece off the front of that list. A list is read by `times`.

The two-sided integers of a format are big-endian; `intBe` writes what `signedBe` reads.
-/

namespace KafkaCli.Wire

variable {ε α β : Type}

/-- A reader of the front of some bytes. -/
abbrev Decoder (ε α : Type) := StateT (List UInt8) (Except ε) α

/-- The decoder takes exactly these bytes off the front, and makes `a` of them. -/
def Reads (decoder : Decoder ε α) (bytes : List UInt8) (a : α) : Prop :=
  ∀ rest, decoder.run (bytes ++ rest) = .ok (a, rest)

variable {decoder : Decoder ε α} {next : α → Decoder ε β} {bytes front : List UInt8}
  {pieces : List (List UInt8)} {a : α} {b : β} {e : ε} {n : Nat}

theorem Reads.pure : Reads (ε := ε) (Pure.pure a) [] a := fun _ => rfl

theorem Reads.bind (h : Reads decoder front a) (hnext : Reads (next a) bytes b) :
    Reads (decoder >>= next) (front ++ bytes) b := by
  intro rest
  rw [StateT.run_bind, List.append_assoc, h, Checked.ok_bind, hnext]

/-- Read one field of a record. -/
theorem Reads.field (h : Reads decoder front a) (hnext : Reads (next a) pieces.flatten b) :
    Reads (decoder >>= next) (front :: pieces).flatten b := by
  rw [List.flatten_cons]
  exact h.bind hnext

/-- A step that takes nothing. -/
theorem Reads.step (h : Reads decoder [] a) (hnext : Reads (next a) bytes b) :
    Reads (decoder >>= next) bytes b := h.bind hnext

/-- After the last bytes. -/
theorem Reads.last (h : Reads decoder bytes a) (hnext : Reads (next a) [] b) :
    Reads (decoder >>= next) bytes b := by
  have hread := h.bind hnext
  rwa [List.append_nil] at hread

theorem Reads.map {f : α → β} (h : Reads decoder bytes a) : Reads (f <$> decoder) bytes (f a) := by
  intro rest
  rw [StateT.run_map, h]
  rfl

/-! ## Lists -/

/-- Run a decoder a number of times. -/
def times : Nat → Decoder ε α → Decoder ε (List α)
  | 0, _ => Pure.pure []
  | n + 1, decoder => do
    let first ← decoder
    let rest ← times n decoder
    return first :: rest

theorem Reads.times {γ : Type} {values : List γ} {write : γ → List UInt8} {keep : γ → α}
    (h : ∀ value ∈ values, Reads decoder (write value) (keep value)) :
    Reads (times values.length decoder) (values.flatMap write) (values.map keep) := by
  induction values with
  | nil => exact .pure
  | cons value values ih =>
    have hfirst := h value List.mem_cons_self
    have hrest := ih fun v hv => h v (List.mem_cons_of_mem value hv)
    rw [List.length_cons, List.flatMap_cons, List.map_cons]
    exact hfirst.bind (hrest.last .pure)

/-- Run a step of a loop a number of times. -/
def loop {σ : Type} : Nat → (σ → Decoder ε σ) → σ → Decoder ε σ
  | 0, _, state => Pure.pure state
  | n + 1, step, state => do
    let state ← step state
    loop n step state

theorem Reads.loop {σ γ : Type} {values : List γ} {write : γ → List UInt8}
    {step : σ → Decoder ε σ} {update : σ → γ → σ} {state : σ}
    (h : ∀ value ∈ values, ∀ s, Reads (step s) (write value) (update s value)) :
    Reads (Wire.loop values.length step state) (values.flatMap write)
      (values.foldl update state) := by
  induction values generalizing state with
  | nil => exact .pure
  | cons value values ih =>
    rw [List.length_cons, List.flatMap_cons, List.foldl_cons]
    apply (h value List.mem_cons_self state).bind
    exact ih fun v hv => h v (List.mem_cons_of_mem value hv)

/-! ## Failures -/

/-- The decoder takes exactly these bytes off the front and makes a value of them, or it fails with
an error on them, whatever follows. -/
def Yields (decoder : Decoder ε α) (bytes : List UInt8) (result : Except ε α) : Prop :=
  ∀ rest, decoder.run (bytes ++ rest) = result.map fun a => (a, rest)

theorem Yields.pure : Yields (ε := ε) (Pure.pure a) [] (.ok a) := Reads.pure

theorem Yields.throw (e : ε) (bytes : List UInt8) :
    Yields (throw e : Decoder ε α) bytes (.error e) := fun _ => rfl

/-- A result that takes nothing. -/
theorem yields_liftExcept (result : Except ε α) :
    Yields (liftExcept result : Decoder ε α) [] result := by
  cases result with
  | error e => exact .throw e []
  | ok a => exact .pure

theorem Yields.bind {first : Except ε α} {second : α → Except ε β} (h : Yields decoder front first)
    (hnext : ∀ a, first = .ok a → Yields (next a) bytes (second a)) :
    Yields (decoder >>= next) (front ++ bytes) (first >>= second) := by
  intro rest
  rw [StateT.run_bind, List.append_assoc, h]
  cases hfirst : first with
  | error e => rfl
  | ok a => exact hnext a hfirst rest

/-- Read what comes before something that may be refused. -/
theorem Yields.after {result : Except ε β} (h : Reads decoder front a)
    (hnext : Yields (next a) bytes result) : Yields (decoder >>= next) (front ++ bytes) result := by
  intro rest
  rw [StateT.run_bind, List.append_assoc, h, Checked.ok_bind]
  exact hnext rest

/-- Read one field of a record that may be refused later on. -/
theorem Yields.field {result : Except ε β} (h : Reads decoder front a)
    (hnext : Yields (next a) pieces.flatten result) :
    Yields (decoder >>= next) (front :: pieces).flatten result := by
  rw [List.flatten_cons]
  exact .after h hnext

theorem Yields.times {γ : Type} {values : List γ} {write : γ → List UInt8}
    {result : γ → Except ε α}
    (h : ∀ value ∈ values, Yields decoder (write value) (result value)) :
    Yields (times values.length decoder) (values.flatMap write) (values.mapM result) := by
  induction values with
  | nil => exact .pure
  | cons value values ih =>
    rw [List.forall_mem_cons] at h
    rw [List.length_cons, List.flatMap_cons, List.mapM_cons]
    refine h.1.bind fun first _ => ?_
    rw [← List.append_nil (values.flatMap write)]
    exact (ih h.2).bind fun rest _ => .pure

/-! ## Bytes -/

/-- Fail with `e` unless there are `n` bytes left. -/
def require (n : Nat) (e : ε) : Decoder ε Unit := do
  if (← get).length < n then throw e

/-- The next `n` bytes; fail with `e` where there are fewer. -/
def takeBytes (n : Nat) (e : ε) : Decoder ε (List UInt8) := do
  let buffer ← get
  if buffer.length < n then throw e
  else
    set (buffer.drop n)
    return buffer.take n

theorem require_run (h : n ≤ bytes.length) : (require n e).run bytes = .ok ((), bytes) := by
  have hlength : ¬ bytes.length < n := by omega
  simp [require, hlength]

theorem Reads.require {next : Unit → Decoder ε α} (hlength : n ≤ bytes.length)
    (hnext : Reads (next ()) bytes a) : Reads (Wire.require n e >>= next) bytes a := by
  intro rest
  have henough : n ≤ (bytes ++ rest).length := by
    rw [List.length_append]
    omega
  rw [StateT.run_bind, require_run henough, Checked.ok_bind, hnext]

theorem reads_takeBytes (h : bytes.length = n) : Reads (takeBytes n e) bytes bytes := by
  intro rest
  rw [takeBytes, StateT.run_bind, StateT.run_get]
  simp [← h]

/-- Read a value off a fixed number of bytes. -/
theorem reads_fixed {read : List UInt8 → α} (hlength : bytes.length = n) (hread : read bytes = a) :
    Reads (read <$> takeBytes n e) bytes a := by
  have h := (reads_takeBytes (e := e) hlength).map (f := read)
  rwa [hread] at h

/-! ## Fixed-width integers -/

/-- The big-endian bytes of a number, the lowest `width` of them. -/
def toBe : Nat → Nat → List UInt8
  | 0, _ => []
  | width + 1, n => toBe width (n / 256) ++ [UInt8.ofNat n]

@[simp] theorem length_toBe (width n : Nat) : (toBe width n).length = width := by
  induction width generalizing n with
  | zero => rfl
  | succ width ih => simp [toBe, ih]

theorem unsignedBe_append (byte : UInt8) :
    unsignedBe (bytes ++ [byte]) = unsignedBe bytes * 256 + byte.toNat := by
  simp [unsignedBe]

theorem unsignedBe_toBe (width n : Nat) : unsignedBe (toBe width n) = n % 256 ^ width := by
  induction width generalizing n with
  | zero => simp [toBe, unsignedBe, Nat.mod_one]
  | succ width ih =>
    have hbyte : (UInt8.ofNat n).toNat = n % 256 := UInt8.toNat_ofNat'
    rw [toBe, unsignedBe_append, ih, hbyte, Nat.pow_succ', Nat.mod_mul, Nat.mul_comm, Nat.add_comm]

/-- The big-endian bytes of an integer, in two's complement. -/
def intBe (width : Nat) (x : Int) : List UInt8 := toBe width (x % 256 ^ width).toNat

@[simp] theorem length_intBe (width : Nat) (x : Int) : (intBe width x).length = width :=
  length_toBe _ _

theorem signedBe_intBe (width : Nat) (x : Int) :
    signedBe (intBe width x) = x.bmod (2 ^ (8 * width)) := by
  have hpow : (256 : Int) ^ width = ((2 ^ (8 * width) : Nat) : Int) := by
    rw [Nat.pow_mul]
    push_cast
    rfl
  have hpos : (0 : Int) < 256 ^ width := by positivity
  have hnonneg := Int.emod_nonneg x (ne_of_gt hpos)
  have hlt := Int.emod_lt_of_pos x hpos
  have hnat : (x % 256 ^ width).toNat < 256 ^ width := by
    rw [Int.toNat_lt hnonneg]
    exact_mod_cast hlt
  rw [signedBe, length_intBe, intBe, unsignedBe_toBe, Nat.mod_eq_of_lt hnat,
    Int.toNat_of_nonneg hnonneg, hpow, Int.emod_bmod]

/-- The bytes of an `i8`. -/
def be8 (x : Int8) : List UInt8 := intBe 1 x.toInt

/-- The bytes of an `i16`. -/
def be16 (x : Int16) : List UInt8 := intBe 2 x.toInt

/-- The bytes of an `i32`. -/
def be32 (x : Int32) : List UInt8 := intBe 4 x.toInt

/-- The bytes of an `i64`. -/
def be64 (x : Int64) : List UInt8 := intBe 8 x.toInt

/-- The bytes of a `u16`. -/
def beU16 (x : UInt16) : List UInt8 := toBe 2 x.toNat

@[simp] theorem length_be8 (x : Int8) : (be8 x).length = 1 := length_intBe _ _

@[simp] theorem length_be16 (x : Int16) : (be16 x).length = 2 := length_intBe _ _

@[simp] theorem length_be32 (x : Int32) : (be32 x).length = 4 := length_intBe _ _

@[simp] theorem length_be64 (x : Int64) : (be64 x).length = 8 := length_intBe _ _

@[simp] theorem length_beU16 (x : UInt16) : (beU16 x).length = 2 := length_toBe _ _

theorem ofInt_signedBe_be8 (x : Int8) : Int8.ofInt (signedBe (be8 x)) = x := by
  have hrange : x.toInt.bmod (2 ^ (8 * 1)) = x.toInt := x.toInt_bmod
  rw [be8, signedBe_intBe, hrange, Int8.ofInt_toInt]

theorem ofInt_signedBe_be16 (x : Int16) : Int16.ofInt (signedBe (be16 x)) = x := by
  have hrange : x.toInt.bmod (2 ^ (8 * 2)) = x.toInt := x.toInt_bmod
  rw [be16, signedBe_intBe, hrange, Int16.ofInt_toInt]

theorem ofInt_signedBe_be32 (x : Int32) : Int32.ofInt (signedBe (be32 x)) = x := by
  have hrange : x.toInt.bmod (2 ^ (8 * 4)) = x.toInt := x.toInt_bmod
  rw [be32, signedBe_intBe, hrange, Int32.ofInt_toInt]

theorem ofInt_signedBe_be64 (x : Int64) : Int64.ofInt (signedBe (be64 x)) = x := by
  have hrange : x.toInt.bmod (2 ^ (8 * 8)) = x.toInt := x.toInt_bmod
  rw [be64, signedBe_intBe, hrange, Int64.ofInt_toInt]

theorem ofNat_unsignedBe_beU16 (x : UInt16) : UInt16.ofNat (unsignedBe (beU16 x)) = x := by
  have hlt := x.toNat_lt
  rw [beU16, unsignedBe_toBe, Nat.mod_eq_of_lt (by omega), UInt16.ofNat_toNat]

end KafkaCli.Wire
