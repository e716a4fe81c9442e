import KafkaCli.Lib.Audit
import KafkaCli.Protocol.Compact

/-!
# The flexible wire encoding on hostile input

The audited versions of the compact decoders. A varint takes one byte at least, and makes a number
below `2 ^ 35` of five bytes at most; so an array, a text and a section of tagged fields take a byte
at least, and a count that comes from a varint is bounded, but not by the bytes that are left.
-/

namespace KafkaCli.Protocol

open Text Wire

/-- The largest count that is read. -/
def maxCount : ℕ := 2 ^ 35 - 2

/-- `x` is the audited version of `d`, on whatever bytes. It takes at least `least` of them. -/
abbrev Endures {α : Type} (x : Wire.Audited Fault α) (d : Decoder α) (least : ℕ) : Prop :=
  Audits maxCount Fault.panicked x d 0 least fun _ => True

section Endures

variable {α β : Type} {x : Wire.Audited Fault α} {d : Decoder α} {f : α → Wire.Audited Fault β}
  {g : α → Decoder β} {least k need : ℕ}

theorem Endures.weaken (h : Endures x d k) (hk : least ≤ k) : Endures x d least :=
  h.mono (Nat.le_refl 0) hk fun _ ha => ha

/-- The first field of a record, which takes a byte. -/
theorem Endures.first (h : Endures x d 1) (hnext : ∀ a, Endures (f a) (g a) 0) :
    Endures (x >>= f) (d >>= g) 1 := Audits.bind h fun a _ => hnext a

/-- A later field of a record. -/
theorem Endures.field (h : Endures x d k) (hnext : ∀ a, Endures (f a) (g a) 0) :
    Endures (x >>= f) (d >>= g) 0 := Audits.bind (h.weaken (Nat.zero_le k)) fun a _ => hnext a

theorem Endures.pure (a : α) : Endures (Pure.pure a) (Pure.pure a) 0 := Audits.pure trivial

theorem Endures.ite {p : Prop} [Decidable p] {y : Wire.Audited Fault α} {d' : Decoder α}
    (hx : Endures x d least) (hy : Endures y d' least) :
    Endures (if p then x else y) (if p then d else d') least := Audits.ite (fun _ => hx) fun _ => hy

theorem Endures.map {h : α → β} (hx : Endures x d least) :
    Endures (x >>= fun a => Pure.pure (h a)) (h <$> d) least := by
  rw [map_eq_pure_bind]
  exact Audits.bind hx fun a _ => Endures.pure (h a)

theorem malformed_ne (message : String) : malformed message ≠ .panicked := nofun

theorem Endures.fail (message : String) :
    Endures (Audited.fail (malformed message) : Wire.Audited Fault α) (throw (malformed message))
      least := Audits.fail (malformed_ne message)

/-- A check of the length, in front of the reads that it is for. -/
theorem Endures.require {next : Unit → Wire.Audited Fault α} {next' : Unit → Decoder α}
    (message : String)
    (h : Audits maxCount Fault.panicked (next ()) (next' ()) need least fun _ => True) :
    Endures (Audited.ofDecoder (Wire.require need (malformed message)) >>= next)
      (Wire.require need (malformed message) >>= next') least :=
  Audits.require (malformed_ne message) h

/-- A read behind a check of the length, which covers it. -/
theorem Endures.read {width : ℕ} (hd : Takes width d) (hneed : width ≤ need)
    (hleast : least ≤ width)
    (hnext : ∀ a, Audits maxCount Fault.panicked (f a) (g a) (need - width) 0 fun _ => True) :
    Audits maxCount Fault.panicked (Audited.read width d >>= f) (d >>= g) need least
      fun _ => True := by
  have hread := Audits.read hd hnext
  rw [Nat.add_sub_cancel' hneed] at hread
  exact hread.mono (Nat.le_refl need) hleast fun _ ha => ha

end Endures

/-! ## The decoders -/

namespace Audit

open Wire.Audited

def decodeVarintFrom (remaining : ℕ) :
    (index : ℕ) → (shifts : List ℕ) → (value : ℕ) → Wire.Audited Fault ℕ
  | _, [], _ => fail (malformed "unsigned varint is too long")
  | index, shift :: shifts, value => do
    emit fun _ => .iterate index remaining
    ofDecoder (require 1 (malformed "truncated unsigned varint"))
    let byte ← read 1 getU8
    let value := value ||| ((byte &&& 0x7f).toNat <<< shift)
    if byte &&& 0x80 = 0 then return value
    else decodeVarintFrom remaining (index + 1) shifts value

/-- `decode_unsigned_varint`. -/
def decodeUnsignedVarint : Wire.Audited Fault ℕ := fun bytes =>
  decodeVarintFrom bytes.length 0 (List.range' 0 5 7) 0 bytes

/-- `decode_compact_len`. -/
def decodeCompactLen : Wire.Audited Fault ℕ := do
  let encoded ← decodeUnsignedVarint
  if encoded = 0 then fail (malformed "unexpected null compact value")
  else return encoded - 1

/-- `decode_compact_string`. -/
def decodeCompactString : Wire.Audited Fault String := do
  let length ← decodeCompactLen
  let bytes ← takeBytes length (malformed "truncated compact string")
  ofDecoder (utf8Text bytes)

/-- `decode_nullable_compact_string`. -/
def decodeNullableCompactString : Wire.Audited Fault (Option String) := do
  let encoded ← decodeUnsignedVarint
  if encoded = 0 then return none
  else
    let bytes ← takeBytes (encoded - 1) (malformed "truncated nullable compact string")
    let text ← ofDecoder (utf8Text bytes)
    return some text

variable {α : Type}

/-- The elements of an array, collected as they come. -/
def decodeCompactArray (decoder : Wire.Audited Fault α) : Wire.Audited Fault (List α) := do
  let count ← decodeCompactLen
  times count decoder

/-- The elements of an array that room is reserved for. -/
def decodeReservedArray (decoder : Wire.Audited Fault α) : Wire.Audited Fault (List α) := do
  let count ← decodeCompactLen
  reserve count
  times count decoder

/-- One tagged field. -/
def skipTaggedField : Wire.Audited Fault Unit := do
  let _tag ← decodeUnsignedVarint
  let size ← decodeUnsignedVarint
  let _data ← takeBytes size (malformed "truncated tagged field")

/-- `skip_tagged_fields`. -/
def skipTaggedFields : Wire.Audited Fault Unit := do
  let count ← decodeUnsignedVarint
  let _fields ← times count skipTaggedField

end Audit

/-! ## What they endure -/

theorem takes_getU8 : Takes 1 getU8 := (takes_takeBytes 1 _).map

theorem takes_getU16 : Takes 2 getU16 := (takes_takeBytes 2 _).map

theorem takes_getI16 : Takes 2 getI16 := (takes_takeBytes 2 _).map

theorem takes_getI32 : Takes 4 getI32 := (takes_takeBytes 4 _).map

theorem takes_getI64 : Takes 8 getI64 := (takes_takeBytes 8 _).map

theorem audits_decodeVarintFrom (remaining : ℕ) (count : ℕ) {index shift value : ℕ}
    (hvalue : value < 2 ^ shift) {bytes : List UInt8} (hindex : bytes.length + index ≤ remaining) :
    AuditsAt maxCount Fault.panicked
      (Audit.decodeVarintFrom remaining index (List.range' shift count 7) value)
      (decodeVarintFrom (List.range' shift count 7) value) bytes 1
      fun a => a < 2 ^ (shift + 7 * count) := by
  induction count generalizing index shift value bytes with
  | zero => exact Audits.fail (malformed_ne _) bytes (Nat.zero_le _)
  | succ count ih =>
    rw [List.range'_succ, Audit.decodeVarintFrom, decodeVarintFrom]
    refine .emit (Nat.le_trans (Nat.le_add_left _ _) hindex) ?_ fun _ _ _ => trivial
    refine .require (malformed_ne _) fun hlength => ?_
    refine .read (n := 0) takes_getU8 hlength fun byte => ?_
    -- the value has seven bits more, and the iteration took a byte
    have hlow : value ||| ((byte &&& 0x7f).toNat <<< shift) < 2 ^ (shift + 7) := by
      rw [low_seven, or_shiftLeft hvalue]
      exact add_low_lt hvalue byte.toNat
    have hrest : (bytes.drop 1).length + (index + 1) ≤ remaining := by
      rw [List.length_drop]
      omega
    have hshift : shift + 7 * (count + 1) = shift + 7 + 7 * count := by omega
    rw [hshift]
    by_cases hlast : byte &&& 0x80 = 0
    · simp only [hlast, if_true]
      have hpow : 2 ^ (shift + 7) ≤ 2 ^ (shift + 7 + 7 * count) :=
        Nat.pow_le_pow_right (by decide) (Nat.le_add_right _ _)
      have hat : Audits maxCount Fault.panicked _ _ 0 0 fun a => a < 2 ^ (shift + 7 + 7 * count) :=
        Audits.pure (Nat.lt_of_lt_of_le hlow hpow)
      exact hat _ (Nat.zero_le _)
    · simp only [hlast, if_false]
      exact (ih hlow hrest).mono (Nat.zero_le 1) fun _ ha => ha

/-- A varint takes a byte, and is below `2 ^ 35`. -/
theorem audits_decodeUnsignedVarint :
    Audits maxCount Fault.panicked Audit.decodeUnsignedVarint decodeUnsignedVarint 0 1
      fun a => a < 2 ^ 35 := fun bytes _ =>
  (audits_decodeVarintFrom bytes.length 5 (by decide)
    (Nat.le_refl (bytes.length + 0))).of_eq rfl

theorem endures_decodeUnsignedVarint :
    Endures Audit.decodeUnsignedVarint decodeUnsignedVarint 1 :=
  audits_decodeUnsignedVarint.mono (Nat.le_refl 0) (Nat.le_refl 1) fun _ _ => trivial

theorem audits_decodeCompactLen :
    Audits maxCount Fault.panicked Audit.decodeCompactLen decodeCompactLen 0 1
      fun a => a ≤ maxCount := by
  refine Audits.bind (n := 0) audits_decodeUnsignedVarint fun encoded hencoded => ?_
  refine .ite (fun _ => .fail (malformed_ne _)) fun _ => .pure ?_
  rw [maxCount]
  omega

theorem endures_decodeCompactLen : Endures Audit.decodeCompactLen decodeCompactLen 1 :=
  audits_decodeCompactLen.mono (Nat.le_refl 0) (Nat.le_refl 1) fun _ _ => trivial

theorem endures_takeBytes (width : ℕ) (message : String) :
    Endures (Audited.takeBytes width (malformed message)) (takeBytes width (malformed message))
      0 :=
  (audits_takeBytes width (malformed_ne message)).mono (Nat.le_refl 0) (Nat.zero_le width)
    fun _ h => h

theorem endures_utf8Text (bytes : List UInt8) :
    Endures (Audited.ofDecoder (utf8Text bytes)) (utf8Text bytes) 0 := by
  rw [utf8Text]
  cases fromUtf8 bytes with
  | ok text => exact .pure text
  | error fault => exact Audits.fail (malformed_ne _)

theorem endures_decodeCompactString : Endures Audit.decodeCompactString decodeCompactString 1 := by
  refine endures_decodeCompactLen.first fun length => ?_
  refine (endures_takeBytes length _).field fun bytes => ?_
  exact endures_utf8Text bytes

theorem endures_decodeNullableCompactString :
    Endures Audit.decodeNullableCompactString decodeNullableCompactString 1 := by
  refine endures_decodeUnsignedVarint.first fun encoded => ?_
  refine Endures.ite (.pure none) ?_
  refine (endures_takeBytes (encoded - 1) _).field fun bytes => ?_
  exact (endures_utf8Text bytes).map

theorem endures_decodeCompactArray {α : Type} {x : Wire.Audited Fault α} {d : Decoder α}
    (h : Endures x d 1) : Endures (Audit.decodeCompactArray x) (decodeCompactArray d) 1 := by
  refine endures_decodeCompactLen.first fun count => ?_
  exact Endures.weaken (h.times count) (Nat.zero_le count)

theorem endures_decodeReservedArray {α : Type} {x : Wire.Audited Fault α} {d : Decoder α}
    (h : Endures x d 1) : Endures (Audit.decodeReservedArray x) (decodeCompactArray d) 1 := by
  refine Audits.bind (n := 0) audits_decodeCompactLen fun count hcount => ?_
  exact Endures.weaken (Audits.reserve hcount (h.times count)) (Nat.zero_le count)

theorem endures_skipTaggedField : Endures Audit.skipTaggedField skipTaggedField 1 := by
  refine endures_decodeUnsignedVarint.first fun tag => ?_
  refine endures_decodeUnsignedVarint.field fun size => ?_
  exact (endures_takeBytes size _).field fun _ => Endures.pure ()

theorem endures_skipTaggedFields : Endures Audit.skipTaggedFields skipTaggedFields 1 := by
  refine endures_decodeUnsignedVarint.first fun count => ?_
  exact Endures.field (endures_skipTaggedField.times count) fun _ => Endures.pure ()

end KafkaCli.Protocol
