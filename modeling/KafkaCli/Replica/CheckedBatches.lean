import KafkaCli.DumpLog.Framing
import Mathlib.Data.Int.Order.Basic

/-!
# Record batches and checked arithmetic

The offsets of a batch are read as they are. A build that checks its arithmetic panics where the
last offset of a batch or the one after it leaves 64 bits (`checkedBatchesFrom`), and the released
one goes on with what is left of it.

Either walk goes over the batches of `BatchAt` and stops at the first place where none stands
(`walk_induction`). `checked_of_sumsFitFrom` — where the sums of all batches fit, both return the
same; elsewhere the checked one panics (`checked_of_not_sumsFitFrom`).
-/

namespace KafkaCli.Replica

open DumpLog (batchLengthAt)

/-! ## The batches of a byte string -/

section Bytes

variable (records : List UInt8) (start : Nat)

/-- The first offset that the batch at a byte offset claims. -/
def baseOffsetAt : Int := signedBe (slice records start (start + 8))

/-- How far it claims to go. -/
def lastOffsetDeltaAt : Int := signedBe (slice records (start + 23) (start + 27))

/-- Where it ends. -/
def batchEnd : Nat := start + (12 + (batchLengthAt records start).toNat)

/-- A whole batch stands at a byte offset, in the version that is read. -/
structure BatchAt : Prop where
  header : start + 61 ≤ records.length
  length : 49 ≤ batchLengthAt records start
  whole : batchEnd records start ≤ records.length
  magic : records.getD (start + 16) 0 = 2

/-- What stands at a byte offset is refused. -/
def RefusedAt : Prop :=
  start + 61 ≤ records.length ∧ (batchLengthAt records start < 49 ∨
    batchEnd records start ≤ records.length ∧ records.getD (start + 16) 0 ≠ 2)

/-- The two sums of a batch. -/
def SumsFit : Prop :=
  Fits64 (baseOffsetAt records start + lastOffsetDeltaAt records start) ∧
    Fits64 (baseOffsetAt records start + lastOffsetDeltaAt records start + 1)

/-- The batch as the parser keeps it. -/
def parsedAt : ParsedBatch :=
  .ofLast (wrap64 (baseOffsetAt records start + lastOffsetDeltaAt records start))
    (unsignedBe (slice records (start + 17) (start + 21)))

/-- `i` batches lead from one byte offset to another. -/
inductive Leads : Nat → Nat → Nat → Prop
  | here (start : Nat) : Leads start 0 start
  | next {start i stop : Nat} (h : BatchAt records start)
      (hrest : Leads (batchEnd records start) i stop) : Leads start (i + 1) stop

/-- The sums of all batches from a byte offset on. -/
def SumsFitFrom : Prop :=
  ∀ i stop, Leads records start i stop → BatchAt records stop → SumsFit records stop

/-- Nothing is refused from a byte offset on. -/
def ReadableFrom : Prop := ∀ i stop, Leads records start i stop → ¬ RefusedAt records stop

end Bytes

/-! ## The walk -/

/-- `parse_record_batches` from a byte offset on, where a sum that leaves 64 bits panics. -/
def checkedBatchesFrom (records : List UInt8) (offset : Nat) :
    Option (Result (List ParsedBatch)) :=
  if offset + 61 ≤ records.length then
    let baseOffset := signedBe (slice records offset (offset + 8))
    let batchLength := signedBe (slice records (offset + 8) (offset + 12))
    if batchLength < 49 then
      some (.error (.config s!"invalid record batch length: {batchLength}"))
    else
      let totalSize := 12 + batchLength.toNat
      if records.length < offset + totalSize then
        some (.ok [])
      else
        let magic := records.getD (offset + 16) 0
        if magic ≠ 2 then
          some (.error (.unsupported s!"unsupported record batch magic: {magic}"))
        else do
          let checksum := unsignedBe (slice records (offset + 17) (offset + 21))
          let lastOffsetDelta := signedBe (slice records (offset + 23) (offset + 27))
          let lastOffset ← checked64 (baseOffset + lastOffsetDelta)
          let _ ← checked64 (lastOffset + 1)
          let rest ← checkedBatchesFrom records (offset + totalSize)
          return rest.map fun batches => ParsedBatch.ofLast lastOffset checksum :: batches
  else
    some (.ok [])
termination_by records.length - offset

section Walk

variable {records : List UInt8} {start : Nat}

theorem lt_batchEnd (records : List UInt8) (start : Nat) : start < batchEnd records start := by
  unfold batchEnd
  omega

/-- A whole batch is kept, if its sums fit, and the walk goes on behind it. -/
theorem parse_of_batchAt (h : BatchAt records start) :
    parseRecordBatchesFrom records start =
        (parseRecordBatchesFrom records (batchEnd records start)).map
          (parsedAt records start :: ·) ∧
      checkedBatchesFrom records start = (do
        let lastOffset ← checked64 (baseOffsetAt records start + lastOffsetDeltaAt records start)
        let _ ← checked64 (lastOffset + 1)
        let rest ← checkedBatchesFrom records (batchEnd records start)
        return rest.map fun batches => ParsedBatch.ofLast lastOffset
          (unsignedBe (slice records (start + 17) (start + 21))) :: batches) := by
  obtain ⟨hheader, hlength, hwhole, hmagic⟩ := h
  unfold batchLengthAt at hlength
  unfold batchEnd batchLengthAt at hwhole
  rw [parseRecordBatchesFrom, checkedBatchesFrom, if_pos hheader, if_pos hheader]
  dsimp only
  rw [if_neg (not_lt.2 hlength), if_neg (not_lt.2 hlength), if_neg (not_lt.2 hwhole),
    if_neg (not_lt.2 hwhole), if_neg (not_not.2 hmagic), if_neg (not_not.2 hmagic)]
  exact ⟨rfl, rfl⟩

/-- What is refused ends both walks with one error. -/
theorem parse_of_refusedAt (h : RefusedAt records start) :
    ∃ error, parseRecordBatchesFrom records start = .error error ∧
      checkedBatchesFrom records start = some (.error error) := by
  obtain ⟨hheader, hrefused⟩ := h
  unfold batchEnd batchLengthAt at hrefused
  rw [parseRecordBatchesFrom, checkedBatchesFrom, if_pos hheader, if_pos hheader]
  dsimp only
  by_cases hshort : signedBe (slice records (start + 8) (start + 12)) < 49
  · rw [if_pos hshort, if_pos hshort]
    exact ⟨_, rfl, rfl⟩
  · obtain ⟨hwhole, hmagic⟩ := hrefused.resolve_left hshort
    rw [if_neg hshort, if_neg hshort, if_neg (not_lt.2 hwhole), if_neg (not_lt.2 hwhole),
      if_pos hmagic, if_pos hmagic]
    exact ⟨_, rfl, rfl⟩

/-- Elsewhere the walk ends. -/
theorem parse_of_not (hbatch : ¬ BatchAt records start) (hrefused : ¬ RefusedAt records start) :
    parseRecordBatchesFrom records start = .ok [] ∧
      checkedBatchesFrom records start = some (.ok []) := by
  rw [parseRecordBatchesFrom, checkedBatchesFrom]
  by_cases hheader : start + 61 ≤ records.length
  · rw [if_pos hheader, if_pos hheader]
    dsimp only
    have hlength : ¬ batchLengthAt records start < 49 := fun h => hrefused ⟨hheader, .inl h⟩
    have hcut : records.length < batchEnd records start := by
      by_contra hwhole
      by_cases hmagic : records.getD (start + 16) 0 = 2
      · exact hbatch ⟨hheader, not_lt.1 hlength, not_lt.1 hwhole, hmagic⟩
      · exact hrefused ⟨hheader, .inr ⟨not_lt.1 hwhole, hmagic⟩⟩
    unfold batchLengthAt at hlength
    unfold batchEnd batchLengthAt at hcut
    rw [if_neg hlength, if_neg hlength, if_pos hcut, if_pos hcut]
    exact ⟨rfl, rfl⟩
  · rw [if_neg hheader, if_neg hheader]
    exact ⟨rfl, rfl⟩

theorem BatchAt.not_refusedAt (h : BatchAt records start) : ¬ RefusedAt records start := by
  intro ⟨_, hrefused⟩
  rcases hrefused with hshort | ⟨_, hmagic⟩
  · exact not_le.2 hshort h.length
  · exact hmagic h.magic

/-- The induction along a byte string. -/
theorem walk_induction (records : List UInt8) {motive : Nat → Prop}
    (batch : ∀ start, BatchAt records start → motive (batchEnd records start) → motive start)
    (stop : ∀ start, ¬ BatchAt records start → motive start) (start : Nat) : motive start := by
  induction hleft : records.length - start using Nat.strong_induction_on generalizing start with
  | _ left ih =>
    by_cases h : BatchAt records start
    · have hlt := lt_batchEnd records start
      have hheader := h.header
      exact batch start h (ih _ (by omega) _ rfl)
    · exact stop start h

theorem leads_zero_iff {stop : Nat} : Leads records start 0 stop ↔ stop = start := by
  refine ⟨fun h => ?_, fun h => h.symm ▸ .here start⟩
  cases h
  rfl

theorem leads_succ_iff {i stop : Nat} : Leads records start (i + 1) stop ↔
    BatchAt records start ∧ Leads records (batchEnd records start) i stop := by
  refine ⟨fun h => ?_, fun h => .next h.1 h.2⟩
  cases h with
  | next h hrest => exact ⟨h, hrest⟩

/-- What holds wherever the batches lead holds here and behind the batch that stands here. -/
theorem forall_leads_iff {p : Nat → Prop} : (∀ i stop, Leads records start i stop → p stop) ↔
    p start ∧ (BatchAt records start →
      ∀ i stop, Leads records (batchEnd records start) i stop → p stop) := by
  refine ⟨fun h => ⟨h 0 start (.here start), fun hbatch i stop hleads =>
    h (i + 1) stop (.next hbatch hleads)⟩, fun ⟨hhere, hrest⟩ i stop hleads => ?_⟩
  cases hleads with
  | here => exact hhere
  | next hbatch hleads => exact hrest hbatch _ _ hleads

theorem sumsFitFrom_iff (h : BatchAt records start) : SumsFitFrom records start ↔
    SumsFit records start ∧ SumsFitFrom records (batchEnd records start) := by
  unfold SumsFitFrom
  rw [forall_leads_iff, forall_prop_of_true h, forall_prop_of_true h]

theorem sumsFitFrom_of_not (h : ¬ BatchAt records start) : SumsFitFrom records start :=
  forall_leads_iff.2 ⟨fun hbatch => absurd hbatch h, fun hbatch => absurd hbatch h⟩

theorem readableFrom_iff (h : BatchAt records start) :
    ReadableFrom records start ↔ ReadableFrom records (batchEnd records start) := by
  unfold ReadableFrom
  rw [forall_leads_iff, forall_prop_of_true h, and_iff_right h.not_refusedAt]

theorem readableFrom_iff_of_not (h : ¬ BatchAt records start) :
    ReadableFrom records start ↔ ¬ RefusedAt records start := by
  unfold ReadableFrom
  rw [forall_leads_iff, and_iff_left fun hbatch => absurd hbatch h]

/-- Where both sums of a batch fit, checked arithmetic makes the batch of the parser. -/
theorem checked_of_batchAt (h : BatchAt records start) (hfits : SumsFit records start) :
    checkedBatchesFrom records start =
      (checkedBatchesFrom records (batchEnd records start)).map
        (·.map (parsedAt records start :: ·)) := by
  rw [(parse_of_batchAt h).2, checked64_eq_some.2 ⟨hfits.1, rfl⟩, Option.bind_eq_bind,
    Option.bind_some, checked64_eq_some.2 ⟨hfits.2, rfl⟩]
  unfold parsedAt
  rw [wrap64_of_fits hfits.1]
  cases checkedBatchesFrom records (batchEnd records start) <;> rfl

/-- Where one does not, it panics. -/
theorem checked_of_not_fits (h : BatchAt records start) (hfits : ¬ SumsFit records start) :
    checkedBatchesFrom records start = none := by
  rw [(parse_of_batchAt h).2]
  cases hlast : checked64 (baseOffsetAt records start + lastOffsetDeltaAt records start) with
  | none => rfl
  | some lastOffset =>
    obtain ⟨hfirst, rfl⟩ := checked64_eq_some.1 hlast
    cases hnext : checked64 (baseOffsetAt records start + lastOffsetDeltaAt records start + 1) with
    | none => simp [hnext]
    | some nextOffset => exact absurd ⟨hfirst, (checked64_eq_some.1 hnext).1⟩ hfits

/-- **The parser does not panic where the sums fit**, and then it returns what it returns. -/
theorem checked_of_sumsFitFrom (h : SumsFitFrom records start) :
    checkedBatchesFrom records start = some (parseRecordBatchesFrom records start) := by
  induction start using walk_induction records with
  | batch start hbatch ih =>
    obtain ⟨hfits, hrest⟩ := (sumsFitFrom_iff hbatch).1 h
    rw [checked_of_batchAt hbatch hfits, ih hrest, (parse_of_batchAt hbatch).1]
    rfl
  | stop start hbatch =>
    by_cases hrefused : RefusedAt records start
    · obtain ⟨error, hparse, hchecked⟩ := parse_of_refusedAt hrefused
      rw [hparse, hchecked]
    · rw [(parse_of_not hbatch hrefused).1, (parse_of_not hbatch hrefused).2]

/-- It panics where some sum does not. -/
theorem checked_of_not_sumsFitFrom (h : ¬ SumsFitFrom records start) :
    checkedBatchesFrom records start = none := by
  induction start using walk_induction records with
  | batch start hbatch ih =>
    by_cases hfits : SumsFit records start
    · have hrest : ¬ SumsFitFrom records (batchEnd records start) := fun hrest =>
        h ((sumsFitFrom_iff hbatch).2 ⟨hfits, hrest⟩)
      rw [checked_of_batchAt hbatch hfits, ih hrest]
      rfl
    · exact checked_of_not_fits hbatch hfits
  | stop start hbatch => exact absurd (sumsFitFrom_of_not hbatch) h

/-- The parser returns batches where nothing is refused. -/
theorem exists_parse_iff : (∃ batches, parseRecordBatchesFrom records start = .ok batches) ↔
    ReadableFrom records start := by
  induction start using walk_induction records with
  | batch start hbatch ih =>
    rw [readableFrom_iff hbatch, ← ih, (parse_of_batchAt hbatch).1]
    cases parseRecordBatchesFrom records (batchEnd records start) <;> simp [Except.map]
  | stop start hbatch =>
    rw [readableFrom_iff_of_not hbatch]
    by_cases hrefused : RefusedAt records start
    · obtain ⟨error, hparse, -⟩ := parse_of_refusedAt hrefused
      simp [hparse, hrefused]
    · simp [(parse_of_not hbatch hrefused).1, hrefused]

/-- Batch number `i` is the one that `i` batches lead to. -/
theorem parse_getElem {batches : List ParsedBatch} {batch : ParsedBatch} {i : Nat}
    (h : parseRecordBatchesFrom records start = .ok batches) :
    batches[i]? = some batch ↔ ∃ stop, Leads records start i stop ∧ BatchAt records stop ∧
      batch = parsedAt records stop := by
  induction start using walk_induction records generalizing batches i with
  | batch start hbatch ih =>
    rw [(parse_of_batchAt hbatch).1] at h
    cases hrest : parseRecordBatchesFrom records (batchEnd records start) with
    | error error => simp [hrest, Except.map] at h
    | ok rest =>
      rw [hrest] at h
      obtain rfl := Except.ok.inj h
      cases i with
      | zero => simp [leads_zero_iff, hbatch, eq_comm]
      | succ i => simp [leads_succ_iff, hbatch, ih hrest]
  | stop start hbatch =>
    by_cases hrefused : RefusedAt records start
    · obtain ⟨error, hparse, -⟩ := parse_of_refusedAt hrefused
      cases hparse.symm.trans h
    · obtain rfl := Except.ok.inj ((parse_of_not hbatch hrefused).1.symm.trans h)
      cases i <;> simp [leads_zero_iff, leads_succ_iff, hbatch]

end Walk

end KafkaCli.Replica
