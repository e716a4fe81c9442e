import KafkaCli.Lib.Wire

/-!
# Writing to a buffer

A program that puts bytes at the end of a buffer. `Writes program bytes` says that it puts exactly
`bytes`, whatever is there before them. A record is written field by field, as `Wire.Reads` reads
it: `Writes.field` writes one piece at the front of a list of pieces.
-/

namespace KafkaCli.Wire

/-- A program that writes to a buffer. -/
abbrev Writer := StateM (List UInt8)

/-- Put some bytes at the end of the buffer. -/
def put (bytes : List UInt8) : Writer PUnit := modify (· ++ bytes)

def putU8 (x : UInt8) : Writer PUnit := put [x]

def putU16 (x : UInt16) : Writer PUnit := put (beU16 x)

/-- Put an `i32`, big-endian. -/
def putI32 (x : Int) : Writer PUnit := put (intBe 4 x)

/-- Put an `i64`, big-endian. -/
def putI64 (x : Int) : Writer PUnit := put (intBe 8 x)

/-- Write in some cases only. -/
def putWhen (p : Prop) [Decidable p] (program : Writer PUnit) : Writer PUnit :=
  if p then program else pure ⟨⟩

/-- The program puts exactly these bytes. -/
def Writes (program : Writer PUnit) (bytes : List UInt8) : Prop :=
  ∀ buffer, program.run buffer = (⟨⟩, buffer ++ bytes)

variable {program : Writer PUnit} {bytes bytes' front : List UInt8}
  {pieces : List (List UInt8)}

theorem writes_put (bytes : List UInt8) : Writes (put bytes) bytes := fun _ => rfl

theorem Writes.pure : Writes (Pure.pure ⟨⟩) [] := by
  intro buffer
  rw [List.append_nil]
  rfl

theorem Writes.bind {next : PUnit → Writer PUnit} (h : Writes program front)
    (hnext : Writes (next ⟨⟩) bytes) : Writes (program >>= next) (front ++ bytes) := by
  intro buffer
  rw [StateT.run_bind, h, ← List.append_assoc]
  exact hnext _

/-- Write one field of a record. -/
theorem Writes.field {next : PUnit → Writer PUnit} (h : Writes program front)
    (hnext : Writes (next ⟨⟩) pieces.flatten) :
    Writes (program >>= next) (front :: pieces).flatten := by
  rw [List.flatten_cons]
  exact h.bind hnext

/-- The last field of a record. -/
theorem Writes.last (h : Writes program bytes) : Writes program [bytes].flatten := by
  rwa [List.flatten_singleton]

theorem Writes.when {p : Prop} [Decidable p] (h : Writes program bytes) :
    Writes (putWhen p program) (if p then bytes else []) := by
  rw [putWhen]
  split_ifs
  · exact h
  · exact .pure

theorem Writes.forM {ι : Type} {l : List ι} {f : ι → Writer PUnit} {g : ι → List UInt8}
    (h : ∀ x ∈ l, Writes (f x) (g x)) : Writes (forM l f) (l.flatMap g) := by
  induction l with
  | nil => exact .pure
  | cons x l ih =>
    rw [List.forall_mem_cons] at h
    rw [List.forM_cons, List.flatMap_cons]
    exact h.1.bind (ih h.2)

/-- A program puts the same bytes each time. -/
theorem Writes.unique (h : Writes program bytes) (h' : Writes program bytes') : bytes = bytes' := by
  have hrun := (h []).symm.trans (h' [])
  exact (Prod.mk.inj hrun).2

end KafkaCli.Wire
