import KafkaCli.Error
import KafkaCli.Lib.Buffer
import KafkaCli.Lib.Text
import Mathlib.Tactic.Ring

/-!
# The flexible wire encoding

Variable-length numbers, compact strings and arrays, and sections of tagged fields, as
`commands.rs` reads and writes them. A length is written as one more than it is, zero for null.

The varint reader takes five bytes at most, so that a number is below `2 ^ 35`. The types of
the values that are written carry this bound: `CompactString`, `CompactArray`, `TaggedFields`.
-/

namespace KafkaCli.Protocol

open Text Wire

abbrev Decoder (α : Type) := Wire.Decoder Fault α

/-- The error of most decoders. -/
def malformed (message : String) : Fault := .failed (.config message)

/-! ## Reading from a buffer

These panic where the buffer is too short. -/

def getU8 : Decoder UInt8 := (fun bytes => UInt8.ofNat (unsignedBe bytes)) <$> takeBytes 1 .panicked

def getU16 : Decoder UInt16 :=
  (fun bytes => UInt16.ofNat (unsignedBe bytes)) <$> takeBytes 2 .panicked

def getI16 : Decoder Int16 := (fun bytes => Int16.ofInt (signedBe bytes)) <$> takeBytes 2 .panicked

def getI32 : Decoder Int32 := (fun bytes => Int32.ofInt (signedBe bytes)) <$> takeBytes 4 .panicked

def getI64 : Decoder Int64 := (fun bytes => Int64.ofInt (signedBe bytes)) <$> takeBytes 8 .panicked

theorem reads_getU8 (x : UInt8) : Reads getU8 [x] x :=
  reads_fixed rfl (by simp [unsignedBe])

theorem reads_getU16 (x : UInt16) : Reads getU16 (beU16 x) x :=
  reads_fixed (length_toBe _ _) (ofNat_unsignedBe_beU16 x)

theorem reads_getI16 (x : Int16) : Reads getI16 (be16 x) x :=
  reads_fixed (length_intBe _ _) (ofInt_signedBe_be16 x)

theorem reads_getI32 (x : Int32) : Reads getI32 (be32 x) x :=
  reads_fixed (length_intBe _ _) (ofInt_signedBe_be32 x)

theorem reads_getI64 (x : Int64) : Reads getI64 (be64 x) x :=
  reads_fixed (length_intBe _ _) (ofInt_signedBe_be64 x)

/-! ## Unsigned varints -/

/-- Seven bits for each of the shifts, the lowest ones first. -/
def decodeVarintFrom : (shifts : List Nat) → (value : Nat) → Decoder Nat
  | [], _ => throw (malformed "unsigned varint is too long")
  | shift :: shifts, value => do
    require 1 (malformed "truncated unsigned varint")
    let byte ← getU8
    let value := value ||| ((byte &&& 0x7f).toNat <<< shift)
    if byte &&& 0x80 = 0 then return value
    else decodeVarintFrom shifts value

/-- `decode_unsigned_varint`. -/
def decodeUnsignedVarint : Decoder Nat := decodeVarintFrom (List.range' 0 5 7) 0

/-- `encode_unsigned_varint`. -/
def encodeUnsignedVarint (value : Nat) : List UInt8 :=
  let byte := UInt8.ofNat (value &&& 0x7f)
  let value := value >>> 7
  if value ≠ 0 then (byte ||| 0x80) :: encodeUnsignedVarint value else [byte]
termination_by value
decreasing_by
  rename_i h
  simp only [value, Nat.shiftRight_eq_div_pow] at h ⊢
  omega

theorem and_seven (n : Nat) : n &&& 0x7f = n % 128 := Nat.and_two_pow_sub_one_eq_mod n 7

theorem low_seven (byte : UInt8) : (byte &&& 0x7f).toNat = byte.toNat % 128 := by
  rw [UInt8.toNat_and]
  exact and_seven _

/-- The continuation bit. -/
theorem high_bit (byte : UInt8) : byte &&& 0x80 = 0 ↔ byte.toNat < 128 := by
  have h : ∀ n : Fin 256, UInt8.ofNat n &&& 0x80 = 0 ↔ (n : Nat) < 128 := by decide +kernel
  have hbyte := h ⟨byte.toNat, byte.toNat_lt⟩
  rwa [UInt8.ofNat_toNat] at hbyte

theorem set_high_bit (n : Nat) : (UInt8.ofNat (n % 128) ||| 0x80).toNat = n % 128 + 128 := by
  have h : ∀ i : Fin 128, (UInt8.ofNat i ||| 0x80).toNat = (i : Nat) + 128 := by decide +kernel
  exact h ⟨n % 128, Nat.mod_lt n (by omega)⟩

/-- The bytes of a number, with the arithmetic spelled out. -/
theorem encodeUnsignedVarint_eq (value : Nat) : encodeUnsignedVarint value =
    if value / 128 ≠ 0 then
      (UInt8.ofNat (value % 128) ||| 0x80) :: encodeUnsignedVarint (value / 128)
    else [UInt8.ofNat (value % 128)] := by
  rw [encodeUnsignedVarint]
  simp only [and_seven, Nat.shiftRight_eq_div_pow, Nat.reducePow]

/-- Adding bits above those there are. -/
theorem or_shiftLeft {acc shift : Nat} (h : acc < 2 ^ shift) (n : Nat) :
    acc ||| (n <<< shift) = acc + n * 2 ^ shift := by
  rw [Nat.or_comm, ← Nat.shiftLeft_add_eq_or_of_lt h, Nat.shiftLeft_eq, Nat.add_comm]

/-- The lowest seven bits, and the others above them. -/
theorem low_add_high (value shift : Nat) :
    value % 128 * 2 ^ shift + value / 128 * 2 ^ (shift + 7) = value * 2 ^ shift := by
  have hpow : 2 ^ (shift + 7) = 128 * 2 ^ shift := by
    rw [Nat.pow_add, Nat.mul_comm]
  calc value % 128 * 2 ^ shift + value / 128 * 2 ^ (shift + 7)
      = (128 * (value / 128) + value % 128) * 2 ^ shift := by
        rw [hpow]
        ring
    _ = value * 2 ^ shift := by rw [Nat.div_add_mod]

/-- Seven bits at a shift stay below the next shift. -/
theorem add_low_lt {acc shift : Nat} (h : acc < 2 ^ shift) (value : Nat) :
    acc + value % 128 * 2 ^ shift < 2 ^ (shift + 7) := by
  have hlow : value % 128 ≤ 127 := by omega
  have hmul := Nat.mul_le_mul_right (2 ^ shift) hlow
  rw [Nat.pow_add]
  omega

/-- From a shift on, the varint of what is still to come is added to what was read. -/
theorem reads_decodeVarintFrom (count : Nat) {shift acc value : Nat} (hacc : acc < 2 ^ shift)
    (hvalue : value < 128 ^ count) (hcount : count ≠ 0) :
    Reads (decodeVarintFrom (List.range' shift count 7) acc) (encodeUnsignedVarint value)
      (acc + value * 2 ^ shift) := by
  induction count generalizing shift acc value with
  | zero => exact absurd rfl hcount
  | succ count ih =>
    rw [encodeUnsignedVarint_eq, List.range'_succ, decodeVarintFrom]
    split_ifs with hmore
    · -- the byte says that there are more, and the value is shifted down by seven bits
      apply Reads.require (by simp)
      rw [← List.singleton_append]
      apply (reads_getU8 _).bind
      have hbit := set_high_bit value
      have hlow : (UInt8.ofNat (value % 128) ||| 0x80) &&& 0x80 ≠ 0 := by
        rw [ne_eq, high_bit, hbit]
        omega
      have hseven : (value % 128 + 128) % 128 = value % 128 := by omega
      simp only [hlow, if_false, low_seven, hbit, hseven, or_shiftLeft hacc]
      have hrest : value / 128 < 128 ^ count := by
        rw [Nat.div_lt_iff_lt_mul (by omega)]
        rwa [Nat.pow_succ] at hvalue
      have hcount' : count ≠ 0 := by
        rintro rfl
        omega
      have hread := ih (add_low_lt hacc value) hrest hcount'
      rwa [Nat.add_assoc, low_add_high] at hread
    · have hsmall : value < 128 := by omega
      rw [Nat.mod_eq_of_lt hsmall]
      apply Reads.require (by simp)
      rw [← List.append_nil [_]]
      apply (reads_getU8 _).bind
      have hbyte : (UInt8.ofNat value).toNat = value := by
        rw [UInt8.toNat_ofNat']
        omega
      have hlow : UInt8.ofNat value &&& 0x80 = 0 := by
        rw [high_bit, hbyte]
        exact hsmall
      simp only [hlow, if_true, low_seven, hbyte, or_shiftLeft hacc, Nat.mod_eq_of_lt hsmall]
      exact .pure

/-- A number below `2 ^ 35` is read as it was written. -/
theorem reads_unsignedVarint {value : Nat} (h : value < 2 ^ 35) :
    Reads decodeUnsignedVarint (encodeUnsignedVarint value) value := by
  have hread : Reads decodeUnsignedVarint (encodeUnsignedVarint value) (0 + value * 2 ^ 0) :=
    reads_decodeVarintFrom 5 (by omega) (by omega) (by omega)
  rwa [Nat.zero_add, Nat.pow_zero, Nat.mul_one] at hread

/-! ## Lengths, texts and arrays -/

/-- `decode_compact_len`. -/
def decodeCompactLen : Decoder Nat := do
  let encoded ← decodeUnsignedVarint
  if encoded = 0 then throw (malformed "unexpected null compact value")
  else return encoded - 1

/-- Bytes that have to be UTF-8. -/
def utf8Text (bytes : List UInt8) : Decoder String :=
  match fromUtf8 bytes with
  | .ok text => return text
  | .error fault => throw (malformed ("invalid UTF-8: " ++ fault))

/-- `decode_compact_string`. -/
def decodeCompactString : Decoder String := do
  let length ← decodeCompactLen
  let bytes ← takeBytes length (malformed "truncated compact string")
  utf8Text bytes

/-- `decode_nullable_compact_string`. -/
def decodeNullableCompactString : Decoder (Option String) := do
  let encoded ← decodeUnsignedVarint
  if encoded = 0 then return none
  else
    let bytes ← takeBytes (encoded - 1) (malformed "truncated nullable compact string")
    some <$> utf8Text bytes

/-- The elements of an array that is not null, one after the other. -/
def decodeCompactArray {α : Type} (decoder : Decoder α) : Decoder (List α) := do
  let count ← decodeCompactLen
  times count decoder

/-- One tagged field, which no decoder looks into. -/
def skipTaggedField : Decoder Unit := do
  let _tag ← decodeUnsignedVarint
  let size ← decodeUnsignedVarint
  let _data ← takeBytes size (malformed "truncated tagged field")

/-- `skip_tagged_fields`. -/
def skipTaggedFields : Decoder Unit := do
  let count ← decodeUnsignedVarint
  let _fields ← times count skipTaggedField

/-! ## Writing them -/

/-- A text whose length can be written. -/
structure CompactString where
  text : String
  fits : text.utf8ByteSize + 1 < 2 ^ 35

/-- A list whose length can be written. -/
structure CompactArray (α : Type) where
  items : List α
  fits : items.length + 1 < 2 ^ 35

/-- A field that the reader of a schema may not know. -/
structure TaggedField where
  tag : Fin (2 ^ 35)
  data : List UInt8
  fits : data.length < 2 ^ 35

/-- The tagged fields at the end of a record. -/
structure TaggedFields where
  items : List TaggedField
  fits : items.length < 2 ^ 35

/-- `encode_compact_string`. -/
def encodeCompactString (value : CompactString) : List UInt8 :=
  encodeUnsignedVarint (value.text.utf8ByteSize + 1) ++ encodeUtf8 value.text

/-- `encode_nullable_compact_string`. -/
def encodeNullableCompactString : Option CompactString → List UInt8
  | some value => encodeCompactString value
  | none => [0]

def encodeCompactArray {α : Type} (write : α → List UInt8) (values : CompactArray α) : List UInt8 :=
  encodeUnsignedVarint (values.items.length + 1) ++ values.items.flatMap write

def encodeTaggedField (field : TaggedField) : List UInt8 :=
  List.flatten [encodeUnsignedVarint field.tag, encodeUnsignedVarint field.data.length, field.data]

def encodeTaggedFields (fields : TaggedFields) : List UInt8 :=
  encodeUnsignedVarint fields.items.length ++ fields.items.flatMap encodeTaggedField

/-- A text of any length. -/
def encodeCompactText (text : String) : List UInt8 :=
  encodeUnsignedVarint (text.utf8ByteSize + 1) ++ encodeUtf8 text

/-- An array of any length. -/
def encodeItems {α : Type} (write : α → List UInt8) (items : List α) : List UInt8 :=
  encodeUnsignedVarint (items.length + 1) ++ items.flatMap write

/-- No tagged fields at all. -/
def noTaggedFields : TaggedFields := ⟨[], by decide⟩

/-- The number of items, and then the items one after another. -/
theorem writes_items {α : Type} {items : List α} {f : α → Writer PUnit} {g : α → List UInt8}
    {next : Writer PUnit} {pieces : List (List UInt8)} (h : ∀ x ∈ items, Writes (f x) (g x))
    (hnext : Writes next pieces.flatten) :
    Writes (do
      put (encodeUnsignedVarint (items.length + 1))
      forM items f
      next) (encodeItems g items :: pieces).flatten := by
  rw [List.flatten_cons, encodeItems, List.append_assoc]
  exact (writes_put _).bind ((Writes.forM h).bind hnext)

theorem encodeUnsignedVarint_of_lt {value : Nat} (h : value < 128) :
    encodeUnsignedVarint value = [UInt8.ofNat value] := by
  rw [encodeUnsignedVarint_eq, if_neg (by omega), Nat.mod_eq_of_lt h]

theorem encode_noTaggedFields : encodeTaggedFields noTaggedFields = [0] := by
  rw [encodeTaggedFields, noTaggedFields, List.flatMap_nil, List.append_nil]
  exact encodeUnsignedVarint_of_lt (by decide)

/-! ## Reading what was written -/

theorem reads_compactLen {length : Nat} (h : length + 1 < 2 ^ 35) :
    Reads decodeCompactLen (encodeUnsignedVarint (length + 1)) length :=
  (reads_unsignedVarint h).last .pure

theorem reads_utf8Text (text : String) : Reads (utf8Text (encodeUtf8 text)) [] text := by
  rw [utf8Text, fromUtf8_encodeUtf8]
  exact .pure

theorem reads_compactString (value : CompactString) :
    Reads decodeCompactString (encodeCompactString value) value.text := by
  apply (reads_compactLen value.fits).bind
  exact (reads_takeBytes (length_encodeUtf8 value.text)).last (reads_utf8Text value.text)

theorem reads_nullableCompactString (value : Option CompactString) :
    Reads decodeNullableCompactString (encodeNullableCompactString value)
      (value.map CompactString.text) := by
  cases value with
  | none =>
    have hzero : encodeUnsignedVarint 0 = [0] := encodeUnsignedVarint_of_lt (by omega)
    have hread : Reads decodeUnsignedVarint (encodeUnsignedVarint 0) 0 :=
      reads_unsignedVarint (by omega)
    rw [hzero] at hread
    exact hread.last .pure
  | some value =>
    apply (reads_unsignedVarint value.fits).bind
    simp only [Nat.add_one_ne_zero, if_false, Nat.add_sub_cancel]
    exact (reads_takeBytes (length_encodeUtf8 value.text)).last (reads_utf8Text value.text).map

theorem reads_compactArray {α β : Type} {decoder : Decoder β} {write : α → List UInt8}
    {keep : α → β} {values : CompactArray α}
    (h : ∀ value ∈ values.items, Reads decoder (write value) (keep value)) :
    Reads (decodeCompactArray decoder) (encodeCompactArray write values)
      (values.items.map keep) :=
  (reads_compactLen values.fits).bind (.times h)

theorem yields_compactArray {α β : Type} {decoder : Decoder β} {write : α → List UInt8}
    {result : α → Except Fault β} {values : CompactArray α}
    (h : ∀ value ∈ values.items, Yields decoder (write value) (result value)) :
    Yields (decodeCompactArray decoder) (encodeCompactArray write values)
      (values.items.mapM result) := .after (reads_compactLen values.fits) (.times h)

theorem reads_skipTaggedField (field : TaggedField) :
    Reads skipTaggedField (encodeTaggedField field) () := by
  apply Reads.field (reads_unsignedVarint field.tag.isLt)
  apply Reads.field (reads_unsignedVarint field.fits)
  apply Reads.field (reads_takeBytes rfl)
  exact .pure

theorem reads_skipTaggedFields (fields : TaggedFields) :
    Reads skipTaggedFields (encodeTaggedFields fields) () := by
  apply (reads_unsignedVarint fields.fits).bind
  have hitems : ∀ field ∈ fields.items,
      Reads skipTaggedField (encodeTaggedField field) ((fun _ => ()) field) :=
    fun field _ => reads_skipTaggedField field
  exact (Reads.times hitems).last .pure

end KafkaCli.Protocol
