import KafkaCli.DumpLog.ProducerSnapshot
import KafkaCli.DumpLog.Reports

/-!
# Sequence numbers near the end of their ring

The sequence numbers of a producer are the numbers of 31 bits: `2 ^ 31 - 1` is followed by zero.
The dump counts on from the base sequence of a batch, and back from the last sequence of a producer
snapshot, and stops at the bounds of 32 bits instead.

`batchLinesShowing` and `snapshotLinesShowing` are the lines of a batch and of a snapshot with
whatever sequences there are to be shown. **Theorem (`sequences_in_ring_iff`).** The lines that are
printed show the sequences in the ring exactly if none of them is beyond its end.
-/

namespace KafkaCli.DumpLog

open Run

/-! ## Lines with given sequences -/

/-- The line of a batch with this last sequence. -/
def batchLineShowing (lazy : LazyRecordBatch) (batchBytes : List UInt8) (position : Int)
    (lastSequence : Int) : String :=
  let lastBatchOffset := wrap64 (lazy.baseOffset + lazy.lastOffsetDelta)
  let tsType := timestampType lazy
  let size := batchBytes.length
  let compress := compressionName lazy.attributes.compression
  let crc := unsignedBe (slice batchBytes 17 21)
  let front :=
    s!"baseOffset: {lazy.baseOffset} lastOffset: {lastBatchOffset} count: {lazy.recordsCount}" ++
      s!" baseSequence: {lazy.baseSequence} lastSequence: "
  let back := s!" producerId: {lazy.producerId} producerEpoch: {lazy.producerEpoch}" ++
    s!" partitionLeaderEpoch: {lazy.partitionLeaderEpoch}" ++
    s!" isTransactional: {lazy.attributes.isTransactional}" ++
    s!" isControl: {lazy.attributes.isControlBatch} deleteHorizonMs: Optional.empty" ++
    s!" position: {position} {tsType}: {lazy.maxTimestamp} size: {size} magic: 2" ++
    s!" compresscodec: {compress} crc: {crc} isvalid: true"
  front ++ (toString lastSequence ++ back)

/-- The line of a record with this sequence. -/
def recordLineShowing (options : DumpOptions) (lazy : LazyRecordBatch) (record : Record)
    (offset sequence : Int) : String :=
  let tsType := timestampType lazy
  let timestamp := wrap64 (lazy.baseTimestamp + record.timestampDelta)
  let keySize := fieldSize record.key
  let valueSize := fieldSize record.value
  let headers := ",".intercalate (record.headers.map Text.fromUtf8Lossy)
  let front :=
    s!"| offset: {offset} {tsType}: {timestamp} keySize: {keySize} valueSize: {valueSize}" ++
      " sequence: "
  let back := s!" headerKeys: [{headers}]" ++
    if lazy.attributes.isControlBatch then formatControlRecord record.key record.value else ""
  (if options.skipRecordMetadata then "" else front ++ (toString sequence ++ back)) ++
    if options.printContents ∧ ¬ lazy.attributes.isControlBatch then recordContents options record
    else ""

/-- The line of a snapshot entry with this first sequence. -/
def snapshotEntryLineShowing (entry : SnapshotEntry) (firstSequence : Int) : String :=
  let front := s!"producerId: {entry.producerId} producerEpoch: {entry.epoch}" ++
    s!" coordinatorEpoch: {entry.coordinatorEpoch}" ++
    s!" currentTxnFirstOffset: {entry.currentTxnFirst} lastTimestamp: {entry.timestamp}"
  let back := s!" lastSequence: {entry.lastSequence} lastOffset: {entry.lastOffset}" ++
    s!" offsetDelta: {entry.offsetDelta} timestamp: {entry.timestamp}"
  front ++
    if entry.lastOffset ≥ 0 then " firstSequence: " ++ (toString firstSequence ++ back) else ""

section Lines

variable (options : DumpOptions) (lazy : LazyRecordBatch) (record : Record)
  (entry : SnapshotEntry) (batchBytes : List UInt8) (position offset : Int)

theorem batchLine_eq : batchLine lazy batchBytes position =
    batchLineShowing lazy batchBytes position (sequenceAt lazy lazy.lastOffsetDelta) := by
  unfold batchLine batchLineShowing
  simp only [String.append_assoc]

theorem recordLine_eq : recordLine options lazy record offset =
    recordLineShowing options lazy record offset (sequenceAt lazy record.offsetDelta) := by
  unfold recordLine recordMetadata recordLineShowing
  simp only [String.append_assoc]
  rfl

theorem snapshotEntryLine_eq :
    snapshotEntryLine entry = snapshotEntryLineShowing entry entry.firstSequence := by
  unfold snapshotEntryLine snapshotEntryLineShowing
  simp only [String.append_assoc]
  rfl

/-- A number between two texts is told by the whole. -/
theorem append_toString_injective (front back : String) :
    Function.Injective fun n : Int => front ++ (toString n ++ back) := by
  intro n m h
  rw [String.append_right_inj, String.append_left_inj] at h
  exact Decimal.toString_injective h

theorem batchLineShowing_injective :
    Function.Injective (batchLineShowing lazy batchBytes position) :=
  append_toString_injective _ _

theorem recordLineShowing_injective (hshown : options.skipRecordMetadata = false) :
    Function.Injective (recordLineShowing options lazy record offset) := by
  intro n m h
  unfold recordLineShowing at h
  rw [hshown, String.append_left_inj] at h
  exact append_toString_injective _ _ h

theorem recordLineShowing_skipped (hskipped : options.skipRecordMetadata = true) (n m : Int) :
    recordLineShowing options lazy record offset n =
      recordLineShowing options lazy record offset m := by
  unfold recordLineShowing
  rw [hskipped]
  rfl

theorem snapshotEntryLineShowing_injective (hoffset : entry.lastOffset ≥ 0) :
    Function.Injective (snapshotEntryLineShowing entry) := by
  intro n m h
  unfold snapshotEntryLineShowing at h
  simp only [hoffset, if_true, String.append_right_inj] at h
  exact append_toString_injective "" _ h

theorem snapshotEntryLineShowing_hidden (hoffset : ¬ entry.lastOffset ≥ 0) (n m : Int) :
    snapshotEntryLineShowing entry n = snapshotEntryLineShowing entry m := by
  unfold snapshotEntryLineShowing
  simp only [hoffset, if_false]

end Lines

/-! ## Batches -/

section Batch

variable (reader : BatchReader) (options : DumpOptions) (path : String) (batchBytes : List UInt8)
  (position : Int) (lazy : LazyRecordBatch)

/-- The lines of a batch, with a sequence for each delta. -/
def batchLinesShowing (sequence : Int → Int) : List String :=
  batchLineShowing lazy batchBytes position (sequence lazy.lastOffsetDelta) ::
    if options.deep then
      match reader.decodeAll lazy with
      | .ok records => records.map fun record =>
        recordLineShowing options lazy record (wrap64 (lazy.baseOffset + record.offsetDelta))
          (sequence record.offsetDelta)
      | .error _ => []
    else []

/-- The deltas whose sequences are shown. -/
def shownDeltas : List Int :=
  lazy.lastOffsetDelta ::
    if options.deep ∧ ¬ options.skipRecordMetadata then
      match reader.decodeAll lazy with
      | .ok records => records.map Record.offsetDelta
      | .error _ => []
    else []

/-- The lines tell the sequences that are shown. -/
theorem batchLinesShowing_eq_iff (f g : Int → Int) :
    batchLinesShowing reader options batchBytes position lazy f =
        batchLinesShowing reader options batchBytes position lazy g ↔
      ∀ delta ∈ shownDeltas reader options lazy, f delta = g delta := by
  unfold batchLinesShowing shownDeltas
  rw [List.cons.injEq, (batchLineShowing_injective lazy batchBytes position).eq_iff,
    List.forall_mem_cons]
  refine and_congr Iff.rfl ?_
  by_cases hdeep : options.deep = true
  · cases hall : reader.decodeAll lazy with
    | error fault => simp [hdeep]
    | ok records =>
      cases hskip : options.skipRecordMetadata with
      | true =>
        simp only [hdeep, if_true, not_true_eq_false, and_false, if_false, List.not_mem_nil,
          false_implies, implies_true, iff_true]
        exact List.map_congr_left fun record _ =>
          recordLineShowing_skipped options lazy record _ hskip _ _
      | false =>
        simp only [hdeep, if_true, Bool.false_eq_true, not_false_eq_true, and_self,
          List.map_inj_left, List.forall_mem_map]
        exact forall₂_congr fun record _ =>
          (recordLineShowing_injective options lazy record _ hskip).eq_iff
  · simp [hdeep]

theorem out_forM_printRecord (records : List Record) (state : DumpState) :
    (final ((records.forM (printRecord options path lazy)).run state)).out =
      state.out ++ records.map fun record =>
        recordLine options lazy record (wrap64 (lazy.baseOffset + record.offsetDelta)) := by
  induction records generalizing state with
  | nil => exact (List.append_nil _).symm
  | cons record records ih =>
    have hrecord : ∃ state', (printRecord options path lazy record).run state = .ok () state' ∧
        state'.out = state.out ++
          [recordLine options lazy record (wrap64 (lazy.baseOffset + record.offsetDelta))] :=
      ⟨_, rfl, rfl⟩
    obtain ⟨state', hrun, hout⟩ := hrecord
    have hforM : (List.forM (record :: records) (printRecord options path lazy)).run state =
        (records.forM (printRecord options path lazy)).run state' := bind_of_ok hrun _
    rw [hforM, ih, hout, List.append_assoc, List.singleton_append, List.map_cons]

/-- What a batch prints. -/
theorem out_decodeAndPrintBatch (hlazy : reader.decode batchBytes = .ok lazy) (state : DumpState) :
    (final ((decodeAndPrintBatch reader options path batchBytes position).run state)).out =
      state.out ++ batchLinesShowing reader options batchBytes position lazy (sequenceAt lazy) := by
  have hline : (printLine (batchLine lazy batchBytes position)).run state =
      .ok () { state with out := state.out ++ [batchLine lazy batchBytes position] } := rfl
  rw [decodeAndPrintBatch_eq hlazy, bind_of_ok hline, batchLinesShowing, ← batchLine_eq]
  by_cases hdeep : options.deep = true
  · rw [if_pos hdeep, if_pos hdeep]
    cases hall : reader.decodeAll lazy with
    | error fault => rfl
    | ok records =>
      have hrecords : (ofExcept ((Except.ok records).mapError fun error =>
          Error.config ("failed to decode records in batch: " ++ error)) :
            Dump (List Record)).run { state with
              out := state.out ++ [batchLine lazy batchBytes position] } =
          .ok records { state with
            out := state.out ++ [batchLine lazy batchBytes position] } := rfl
      rw [bind_of_ok hrecords, out_forM_printRecord, List.append_assoc, List.singleton_append]
      simp only [recordLine_eq]
  · rw [if_neg hdeep, if_neg hdeep]
    rfl

/-- The sequences that follow a base sequence in the ring. -/
def CountsOn (base : Int) (sequence : Int → Int) : Prop :=
  ∀ delta, 0 ≤ delta → delta < 2 ^ 31 → sequence delta = (base + delta) % 2 ^ 31

theorem sequenceAt_eq_iff {lazy : LazyRecordBatch} (hlow : 0 ≤ lazy.baseSequence)
    (hhigh : lazy.baseSequence < 2 ^ 31) {delta : Int} (hdelta : 0 ≤ delta)
    (hdelta' : delta < 2 ^ 31) :
    sequenceAt lazy delta = (lazy.baseSequence + delta) % 2 ^ 31 ↔
      lazy.baseSequence + delta < 2 ^ 31 := by
  rw [sequenceAt, if_pos hlow, saturate32]
  omega

/-- A batch shows the sequences in the ring if none is beyond its end. -/
theorem batch_in_ring_iff (hlazy : reader.decode batchBytes = .ok lazy)
    (hlow : 0 ≤ lazy.baseSequence) (hhigh : lazy.baseSequence < 2 ^ 31) (state : DumpState) :
    (∃ sequence, CountsOn lazy.baseSequence sequence ∧
      (final ((decodeAndPrintBatch reader options path batchBytes position).run state)).out =
        state.out ++ batchLinesShowing reader options batchBytes position lazy sequence) ↔
      ∀ delta ∈ shownDeltas reader options lazy, 0 ≤ delta → delta < 2 ^ 31 →
        lazy.baseSequence + delta < 2 ^ 31 := by
  simp only [out_decodeAndPrintBatch reader options path batchBytes position lazy hlazy,
    List.append_cancel_left_eq, batchLinesShowing_eq_iff]
  refine ⟨?_, fun h => ?_⟩
  · intro ⟨sequence, hcounts, hsame⟩ delta hdelta hnonneg hlt
    have hring := (hsame delta hdelta).trans (hcounts delta hnonneg hlt)
    exact (sequenceAt_eq_iff hlow hhigh hnonneg hlt).1 hring
  · -- beyond the deltas that are shown, the ring is free to go on
    refine ⟨fun delta => if 0 ≤ delta ∧ delta < 2 ^ 31 then (lazy.baseSequence + delta) % 2 ^ 31
      else sequenceAt lazy delta, fun delta hnonneg hlt => if_pos ⟨hnonneg, hlt⟩,
      fun delta hdelta => ?_⟩
    by_cases hrange : 0 ≤ delta ∧ delta < 2 ^ 31
    · have hring := (sequenceAt_eq_iff hlow hhigh hrange.1 hrange.2).2
        (h delta hdelta hrange.1 hrange.2)
      exact hring.trans (if_pos hrange).symm
    · exact (if_neg hrange).symm

end Batch

/-! ## Producer snapshots -/

/-- The lines of a snapshot, with a first sequence for each entry. -/
def snapshotLinesShowing (data : List UInt8) (entryCount : Int) (first : SnapshotEntry → Int) :
    List String :=
  snapshotHeaderLine 1 (unsignedBe (slice data 2 6)) entryCount ::
    (snapshotEntries data entryCount.toNat).map fun entry =>
      snapshotEntryLineShowing entry (first entry)

/-- The sequences from which an entry counts to its last one in the ring. -/
def CountsBack (entries : List SnapshotEntry) (first : SnapshotEntry → Int) : Prop :=
  ∀ entry ∈ entries, 0 ≤ entry.lastSequence → 0 ≤ entry.offsetDelta →
    0 ≤ first entry ∧ (first entry + entry.offsetDelta) % 2 ^ 31 = entry.lastSequence

theorem signedBe_lt {bytes : List UInt8} (h : bytes.length ≤ 4) : signedBe bytes < 2 ^ 31 := by
  have hlt : signedBe bytes < ((2 ^ (8 * bytes.length) : Nat) + 1) / 2 :=
    Int.bmod_lt (Nat.two_pow_pos _)
  have hpow : 2 ^ (8 * bytes.length) ≤ 2 ^ 32 := Nat.pow_le_pow_right (by decide) (by omega)
  omega

theorem lastSequence_lt {data : List UInt8} {count : Nat} {entry : SnapshotEntry}
    (h : entry ∈ snapshotEntries data count) : entry.lastSequence < 2 ^ 31 := by
  obtain ⟨i, -, rfl⟩ := List.mem_map.1 h
  exact signedBe_lt (List.length_take_le _ _)

/-- An entry that counts back is shown with the number that is printed, unless it is negative. -/
theorem countsBack_firstSequence_iff {entry : SnapshotEntry} (hlast : entry.lastSequence < 2 ^ 31)
    (hnonneg : 0 ≤ entry.lastSequence) (hdelta : 0 ≤ entry.offsetDelta) :
    (0 ≤ entry.firstSequence ∧
        (entry.firstSequence + entry.offsetDelta) % 2 ^ 31 = entry.lastSequence) ↔
      entry.offsetDelta ≤ entry.lastSequence := by
  rw [SnapshotEntry.firstSequence, saturate32]
  omega

/-- A snapshot shows the sequences in the ring if no entry counts back beyond zero. -/
theorem snapshot_in_ring_iff (path : String) {data : List UInt8} {entryCount : Int}
    (h : SnapshotComplete data entryCount) (state : SnapshotState) :
    (∃ first, CountsBack (snapshotEntries data entryCount.toNat) first ∧
      (final ((dumpProducerSnapshot path (.ok data)).run state)).out =
        state.out ++ snapshotLinesShowing data entryCount first) ↔
      ∀ entry ∈ snapshotEntries data entryCount.toNat, entry.lastOffset ≥ 0 →
        0 ≤ entry.lastSequence → 0 ≤ entry.offsetDelta →
          entry.offsetDelta ≤ entry.lastSequence := by
  simp only [run_dumpProducerSnapshot h, final_ok, snapshotLinesShowing,
    List.append_cancel_left_eq, List.cons.injEq, true_and, List.map_inj_left,
    snapshotEntryLine_eq]
  refine ⟨?_, fun hcond => ?_⟩
  · intro ⟨first, hcounts, hsame⟩ entry hentry hoffset hnonneg hdelta
    have hfirst := snapshotEntryLineShowing_injective entry hoffset (hsame entry hentry)
    have hback := hcounts entry hentry hnonneg hdelta
    rw [← hfirst] at hback
    exact (countsBack_firstSequence_iff (lastSequence_lt hentry) hnonneg hdelta).1 hback
  · -- an entry without an offset shows no sequences
    refine ⟨fun entry => if entry.lastOffset ≥ 0 then entry.firstSequence
      else (entry.lastSequence - entry.offsetDelta) % 2 ^ 31,
      fun entry hentry hnonneg hdelta => ?_, fun entry hentry => ?_⟩
    · have hlast := lastSequence_lt hentry
      dsimp only
      by_cases hoffset : entry.lastOffset ≥ 0
      · rw [if_pos hoffset]
        exact (countsBack_firstSequence_iff hlast hnonneg hdelta).2
          (hcond entry hentry hoffset hnonneg hdelta)
      · rw [if_neg hoffset]
        omega
    · by_cases hoffset : entry.lastOffset ≥ 0
      · exact congrArg (snapshotEntryLineShowing entry) (if_pos hoffset).symm
      · exact snapshotEntryLineShowing_hidden entry hoffset _ _

/-! ## A batch at the end of the ring -/

/-- A batch of two records without keys and values. -/
def edgeBatch : List UInt8 :=
  [0, 0, 0, 0, 0, 0, 0, 0, 0, 0, 0, 63, 0, 0, 0, 0, 2, 207, 135, 254, 45, 0, 0, 0, 0, 0, 1, 0, 0, 0,
   0, 0, 0, 3, 232, 0, 0, 0, 0, 0, 0, 3, 232, 0, 0, 0, 0, 0, 0, 0, 7, 0, 0, 127, 255, 255, 255, 0,
   0, 0, 2, 12, 0, 0, 0, 1, 1, 0, 12, 0, 0, 2, 1, 1, 0]

/-- Its header: the second record has the first sequence of the ring. -/
def edgeHeader : LazyRecordBatch where
  baseOffset := 0
  partitionLeaderEpoch := 0
  attributes :=
    { bits := 0, compression := .none, isTransactional := false, isControlBatch := false }
  lastOffsetDelta := 1
  baseTimestamp := 1000
  maxTimestamp := 1000
  producerId := 7
  producerEpoch := 0
  baseSequence := 2 ^ 31 - 1
  recordsCount := 2
  payload := edgeBatch.drop 61

/-- A reader of this batch. -/
def edgeReader : BatchReader where
  decode bytes := if bytes = edgeBatch then .ok edgeHeader else .error "CRC mismatch"
  decodeAll lazy :=
    if lazy = edgeHeader then .ok ([0, 1].map emptyRecord) else .error "invalid record"

/-- The last sequence is not shown as zero. -/
theorem sequences_in_ring_fails :
    edgeReader.decode edgeBatch = .ok edgeHeader ∧
    ¬ ∃ sequence, CountsOn edgeHeader.baseSequence sequence ∧
      (final ((decodeAndPrintBatch edgeReader deepOptions.dump "0.log" edgeBatch 0).run
        dumpStart)).out =
          dumpStart.out ++ batchLinesShowing edgeReader deepOptions.dump edgeBatch 0 edgeHeader
            sequence := by
  refine ⟨rfl, fun h => ?_⟩
  rw [batch_in_ring_iff edgeReader deepOptions.dump "0.log" edgeBatch 0 edgeHeader rfl (by decide)
    (by decide)] at h
  exact absurd (h 1 List.mem_cons_self (by decide) (by decide)) (by decide)

/-! ## In the ring -/

/-- **Which sequences are shown in their ring**, of batches and of snapshots. -/
theorem sequences_in_ring_iff (reader : BatchReader) (options : DumpOptions) (path : String)
    (batchBytes : List UInt8) (position : Int) (lazy : LazyRecordBatch) (state : DumpState)
    (data : List UInt8) (entryCount : Int) (snapshotState : SnapshotState) :
    (reader.decode batchBytes = .ok lazy → 0 ≤ lazy.baseSequence → lazy.baseSequence < 2 ^ 31 →
      ((∃ sequence, CountsOn lazy.baseSequence sequence ∧
        (final ((decodeAndPrintBatch reader options path batchBytes position).run state)).out =
          state.out ++ batchLinesShowing reader options batchBytes position lazy sequence) ↔
        ∀ delta ∈ shownDeltas reader options lazy, 0 ≤ delta → delta < 2 ^ 31 →
          lazy.baseSequence + delta < 2 ^ 31)) ∧
    (SnapshotComplete data entryCount →
      ((∃ first, CountsBack (snapshotEntries data entryCount.toNat) first ∧
        (final ((dumpProducerSnapshot path (.ok data)).run snapshotState)).out =
          snapshotState.out ++ snapshotLinesShowing data entryCount first) ↔
        ∀ entry ∈ snapshotEntries data entryCount.toNat, entry.lastOffset ≥ 0 →
          0 ≤ entry.lastSequence → 0 ≤ entry.offsetDelta →
            entry.offsetDelta ≤ entry.lastSequence)) := by
  refine ⟨fun hlazy hlow hhigh => ?_, fun h => ?_⟩
  · exact batch_in_ring_iff reader options path batchBytes position lazy hlazy hlow hhigh state
  · exact snapshot_in_ring_iff path h snapshotState

/-- A snapshot of one producer, whose last batch has the sequences from seven to nine. -/
def plainSnapshot : List UInt8 :=
  [0, 1, 143, 133, 85, 193, 0, 0, 0, 1, 0, 0, 0, 0, 0, 0, 0, 7, 0, 0, 0, 0, 0, 9, 0, 0, 0, 0, 0, 0,
   0, 9, 0, 0, 0, 2, 0, 0, 0, 0, 0, 0, 3, 232, 255, 255, 255, 255, 255, 255, 255, 255, 255, 255,
   255, 255]

theorem sequences_in_ring_plain :
    ((∃ sequence, CountsOn edgeHeader.baseSequence sequence ∧
      (final ((decodeAndPrintBatch edgeReader deepOptions.dump "0.log" edgeBatch 0).run
        dumpStart)).out =
          dumpStart.out ++ batchLinesShowing edgeReader deepOptions.dump edgeBatch 0 edgeHeader
            sequence) ↔
      ∀ delta ∈ shownDeltas edgeReader deepOptions.dump edgeHeader, 0 ≤ delta → delta < 2 ^ 31 →
        edgeHeader.baseSequence + delta < 2 ^ 31) ∧
    ∃ first, CountsBack (snapshotEntries plainSnapshot (1 : Int).toNat) first ∧
      (final ((dumpProducerSnapshot "0.log" (.ok plainSnapshot)).run ⟨[], []⟩)).out =
        [] ++ snapshotLinesShowing plainSnapshot 1 first := by
  have h := sequences_in_ring_iff edgeReader deepOptions.dump "0.log" edgeBatch 0 edgeHeader
    dumpStart plainSnapshot 1 ⟨[], []⟩
  refine ⟨h.1 rfl (by decide) (by decide), (h.2 ⟨?_, ?_, ?_, ?_⟩).2 (by decide)⟩ <;> decide

end KafkaCli.DumpLog
