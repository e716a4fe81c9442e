import KafkaCli.Protocol.Audit

/-!
# Varints and compact strings delimit themselves

**Theorem (`codecs_selfDelimiting`).** What `encode_unsigned_varint`, `encode_compact_string` and
`encode_nullable_compact_string` write is read back by their decoders, which leave whatever follows,
up to the numbers of 35 bits; a larger one is refused. No varint takes more than five bytes, whether
it is read or refused.

The encoder stops where nothing is left of the number, and the decoder where a byte says so: the
encoding of a number beyond 35 bits begins with five bytes that do not.
-/

namespace KafkaCli.Protocol

open Text Wire

theorem getU8_run (byte : UInt8) (bytes : List UInt8) :
    getU8.run (byte :: bytes) = .ok (byte, bytes) := reads_getU8 byte bytes

/-- One byte of a varint. -/
theorem decodeVarintFrom_cons (shift : ℕ) (shifts : List ℕ) (value : ℕ) (byte : UInt8)
    (bytes : List UInt8) :
    (decodeVarintFrom (shift :: shifts) value).run (byte :: bytes) =
      if byte &&& 0x80 = 0 then .ok (value ||| ((byte &&& 0x7f).toNat <<< shift), bytes)
      else (decodeVarintFrom shifts (value ||| ((byte &&& 0x7f).toNat <<< shift))).run bytes := by
  have hlength : 1 ≤ (byte :: bytes).length := by simp
  rw [decodeVarintFrom, StateT.run_bind, require_run hlength, Checked.ok_bind, StateT.run_bind,
    getU8_run, Checked.ok_bind]
  split_ifs <;> rfl

/-- A number that is too large for the shifts that are left. -/
theorem decodeVarintFrom_tooLong (count : ℕ) {shift acc value : ℕ} (hvalue : 128 ^ count ≤ value)
    (rest : List UInt8) :
    (decodeVarintFrom (List.range' shift count 7) acc).run (encodeUnsignedVarint value ++ rest) =
      .error (malformed "unsigned varint is too long") := by
  induction count generalizing shift acc value with
  | zero => rfl
  | succ count ih =>
    have hrest : 128 ^ count ≤ value / 128 := by
      rw [Nat.le_div_iff_mul_le (by decide)]
      rwa [Nat.pow_succ] at hvalue
    have hmore : value / 128 ≠ 0 :=
      Nat.ne_of_gt (Nat.lt_of_lt_of_le (Nat.pow_pos (by decide)) hrest)
    have hbit : (UInt8.ofNat (value % 128) ||| 0x80) &&& 0x80 ≠ 0 := by
      rw [ne_eq, high_bit, set_high_bit]
      omega
    rw [encodeUnsignedVarint_eq, if_pos hmore, List.range'_succ, List.cons_append,
      decodeVarintFrom_cons, if_neg hbit]
    exact ih hrest

/-- A number of more than 35 bits is refused. -/
theorem decodeUnsignedVarint_tooLong {value : ℕ} (h : 2 ^ 35 ≤ value) (rest : List UInt8) :
    decodeUnsignedVarint.run (encodeUnsignedVarint value ++ rest) =
      .error (malformed "unsigned varint is too long") := by
  refine decodeVarintFrom_tooLong 5 ?_ rest
  omega

/-! ## The bytes that are taken -/

/-- One byte of a varint, with its log. -/
theorem audit_decodeVarintFrom_cons (remaining index shift : ℕ) (shifts : List ℕ) (value : ℕ)
    (byte : UInt8) (bytes : List UInt8) :
    Audit.decodeVarintFrom remaining index (shift :: shifts) value (byte :: bytes) =
      let value := value ||| ((byte &&& 0x7f).toNat <<< shift)
      let later := if byte &&& 0x80 = 0 then pure value
        else Audit.decodeVarintFrom remaining (index + 1) shifts value
      (.iterate index remaining :: .read 1 (bytes.length + 1) :: (later bytes).1,
        (later bytes).2) := by
  have hread : Audited.read 1 getU8 (byte :: bytes) =
      ([.read 1 (bytes.length + 1)], .ok (byte, bytes)) := by
    show ([_] ++ [], getU8.run (byte :: bytes)) = _
    rw [getU8_run]
    rfl
  have hrequire : Audited.ofDecoder (require 1 (malformed "truncated unsigned varint"))
      (byte :: bytes) = ([], .ok ((), byte :: bytes)) :=
    congrArg (Prod.mk []) (require_run (by simp))
  have hiterate : Audited.emit (ε := Fault) (fun _ => .iterate index remaining) (byte :: bytes) =
      ([.iterate index remaining], .ok ((), byte :: bytes)) := rfl
  rw [Audit.decodeVarintFrom, Audited.bind_of_ok hiterate, Audited.bind_of_ok hrequire,
    Audited.bind_of_ok hread]
  rfl

theorem taken_byte (index remaining length : ℕ) (log : List Event) :
    taken (.iterate index remaining :: .read 1 length :: log) = taken log + 1 := by
  simp only [taken, List.map_cons, List.sum_cons]
  omega

/-- Each of the shifts takes a byte at most, and what is left are the bytes behind them. -/
theorem audit_decodeVarintFrom_taken (remaining : ℕ) (shifts : List ℕ) (index value : ℕ)
    (bytes : List UInt8) :
    taken (Audit.decodeVarintFrom remaining index shifts value bytes).1 ≤ shifts.length ∧
      ∀ a rest, (Audit.decodeVarintFrom remaining index shifts value bytes).2 = .ok (a, rest) →
        rest =
          bytes.drop (taken (Audit.decodeVarintFrom remaining index shifts value bytes).1) := by
  induction shifts generalizing index value bytes with
  | nil => exact ⟨Nat.le_refl 0, nofun⟩
  | cons shift shifts ih =>
    cases bytes with
    | nil => exact ⟨Nat.zero_le _, nofun⟩
    | cons byte bytes =>
      rw [audit_decodeVarintFrom_cons]
      simp only [taken_byte, List.length_cons, List.drop_succ_cons]
      by_cases hlast : byte &&& 0x80 = 0
      · simp only [hlast, if_true]
        refine ⟨Nat.succ_le_succ (Nat.zero_le _), fun a rest h => ?_⟩
        cases h
        rfl
      · simp only [hlast, if_false]
        obtain ⟨hle, hrest⟩ := ih (index + 1) (value ||| ((byte &&& 0x7f).toNat <<< shift)) bytes
        exact ⟨Nat.succ_le_succ hle, hrest⟩

/-- A varint takes five bytes at most, also where it is refused. -/
theorem audit_decodeUnsignedVarint_taken (bytes : List UInt8) :
    (Audit.decodeUnsignedVarint bytes).2 = decodeUnsignedVarint.run bytes ∧
      taken (Audit.decodeUnsignedVarint bytes).1 ≤ 5 ∧
      ∀ a rest, decodeUnsignedVarint.run bytes = .ok (a, rest) →
        rest = bytes.drop (taken (Audit.decodeUnsignedVarint bytes).1) := by
  have herases := (audits_decodeUnsignedVarint bytes (Nat.zero_le _)).erases
  obtain ⟨hle, hrest⟩ :=
    audit_decodeVarintFrom_taken bytes.length (List.range' 0 5 7) 0 0 bytes
  refine ⟨herases, hle, ?_⟩
  rw [← herases]
  exact hrest

/-! ## The codecs -/

theorem encodeNullableCompactString_none_ne (value : CompactString) :
    encodeNullableCompactString none ≠ encodeNullableCompactString (some value) := by
  intro h
  have hnone := reads_nullableCompactString none []
  rw [h, reads_nullableCompactString (some value) []] at hnone
  cases hnone

/-- **The codecs are inverse and delimit themselves.** -/
theorem codecs_selfDelimiting :
    (∀ value < 2 ^ 35, ∀ rest,
      decodeUnsignedVarint.run (encodeUnsignedVarint value ++ rest) = .ok (value, rest)) ∧
    (∀ value ≥ 2 ^ 35, ∀ rest, ∃ fault,
      decodeUnsignedVarint.run (encodeUnsignedVarint value ++ rest) = .error (.failed fault)) ∧
    (∀ (text : String) (h : text.utf8ByteSize < 2 ^ 35 - 1) (rest : List UInt8),
      decodeCompactString.run (encodeCompactString ⟨text, Nat.add_lt_of_lt_sub h⟩ ++ rest) =
          .ok (text, rest) ∧
        decodeNullableCompactString.run
          (encodeNullableCompactString (some ⟨text, Nat.add_lt_of_lt_sub h⟩) ++ rest) =
            .ok (some text, rest) ∧
        encodeNullableCompactString none ≠
          encodeNullableCompactString (some ⟨text, Nat.add_lt_of_lt_sub h⟩)) ∧
    (∀ rest, decodeNullableCompactString.run (encodeNullableCompactString none ++ rest) =
      .ok (none, rest)) ∧
    ∀ bytes, (Audit.decodeUnsignedVarint bytes).2 = decodeUnsignedVarint.run bytes ∧
      taken (Audit.decodeUnsignedVarint bytes).1 ≤ 5 ∧
      ∀ a rest, decodeUnsignedVarint.run bytes = .ok (a, rest) →
        rest = bytes.drop (taken (Audit.decodeUnsignedVarint bytes).1) := by
  refine ⟨fun value h => reads_unsignedVarint h,
    fun value h rest => ⟨_, decodeUnsignedVarint_tooLong h rest⟩, fun text h rest => ?_,
    reads_nullableCompactString none, audit_decodeUnsignedVarint_taken⟩
  have hfits : text.utf8ByteSize + 1 < 2 ^ 35 := Nat.add_lt_of_lt_sub h
  exact ⟨reads_compactString ⟨text, hfits⟩ rest,
    reads_nullableCompactString (some ⟨text, hfits⟩) rest,
    encodeNullableCompactString_none_ne ⟨text, hfits⟩⟩

theorem codecs_selfDelimiting_300 :
    decodeUnsignedVarint.run (encodeUnsignedVarint 300 ++ [7]) = .ok (300, [7]) :=
  codecs_selfDelimiting.1 300 (by decide) [7]

end KafkaCli.Protocol
