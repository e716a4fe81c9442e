import KafkaCli.Replica.Buffer
import KafkaCli.Lib.Checked
import KafkaCli.Lib.Lockstep
import Mathlib.Algebra.Order.BigOperators.Group.List
import Mathlib.Algebra.Order.Group.Nat

/-!
# The verifier never skips unverified data

Each replica is a lane of a lockstep walk: at position `i` it offers the last offset of its
`i`-th batch, if there is one and it lies below the replica's own high watermark. Two facts tie
the code to that picture:

* `step_advance` — one pass of `advance_matching_batches` ends as reading the row ends;
* `verifyRows_eq` — the loop of `verify_partition` passes exactly the full rows, stops at the
  first other one, and prints what the passes over these rows print.

`verifyPartition_ok` puts them together: a partition's fetch offset moves exactly over the rows
that every replica has below its own high watermark and on whose last offset all agree.
-/

namespace KafkaCli.Replica

open Lockstep

/-! ## Replicas as lanes -/

/-- What a cursor offers at a position, whatever the cursor's own position is. -/
def Cursor.lane (highWatermarks : Int → Option Int) (cursor : Cursor) : Lane Int := fun i =>
  cursor.batches[i]?.bind fun batch =>
    if (highWatermarks cursor.replicaId).getD (-1) ≤ batch.lastOffset then none
    else some batch.lastOffset

/-- The lanes of a list of cursors. -/
def lanes (highWatermarks : Int → Option Int) (cursors : List Cursor) : List (Lane Int) :=
  cursors.map (Cursor.lane highWatermarks)

theorem lane_eq_some_iff {highWatermarks : Int → Option Int} {cursor : Cursor} {i : Nat}
    {offset : Int} :
    cursor.lane highWatermarks i = some offset ↔
      ∃ batch, cursor.batches[i]? = some batch ∧ batch.lastOffset = offset ∧
        offset < (highWatermarks cursor.replicaId).getD (-1) := by
  simp only [Cursor.lane, Option.bind_eq_some_iff]
  constructor
  · rintro ⟨batch, hget, h⟩
    split_ifs at h with hle
    · simp only [Option.some.injEq] at h
      exact ⟨batch, hget, h, by omega⟩
  · rintro ⟨batch, hget, rfl, hlt⟩
    exact ⟨batch, hget, by rw [if_neg (by omega)]⟩

/-- A cursor moved to a position. -/
def Cursor.at_ (i : Nat) (cursor : Cursor) : Cursor := { cursor with index := i }

@[simp] theorem bump_at (i : Nat) (cursor : Cursor) :
    (cursor.at_ i).bump = cursor.at_ (i + 1) := rfl

@[simp] theorem lane_at (highWatermarks : Int → Option Int) (i : Nat) (cursor : Cursor) :
    (cursor.at_ i).lane highWatermarks = cursor.lane highWatermarks := rfl

@[simp] theorem cursorsOf_at (replicas : List (Int × List ParsedBatch)) :
    (cursorsOf replicas).map (Cursor.at_ 0) = cursorsOf replicas := by
  simp only [cursorsOf, List.map_map]
  rfl

/-! ## One row -/

/-- How a pass over a row ends, from what reading the row finds. -/
def RowStep.ofVerdict : Verdict Int → RowStep
  | .full offset => .returned (some (wrap64 (offset + 1)))
  | .missing => .returned none
  | .conflict => .exited 1

/-- **One pass reads one row.** -/
theorem step_advance (key : TopicPartitionKey) (highWatermarks : Int → Option Int) (i : Nat)
    (first : Option BatchMessageInfo) (cursors : List Cursor) :
    (advanceMatchingBatches key highWatermarks first (cursors.map (Cursor.at_ i))).step =
      .ofVerdict (scan (first.map (·.lastOffset)) (row (lanes highWatermarks cursors) i)) := by
  induction cursors generalizing first with
  | nil =>
    cases first with
    | none => rfl
    | some info => simp [advanceMatchingBatches, lanes, row, RowStep.ofVerdict, info.next_eq]
  | cons cursor rest ih =>
    have hlane : cursor.lane highWatermarks i =
        cursor.batches[i]?.bind fun batch =>
          if (highWatermarks cursor.replicaId).getD (-1) ≤ batch.lastOffset then none
          else some batch.lastOffset := rfl
    simp only [List.map_cons, advanceMatchingBatches, Cursor.at_, lanes, row] at ih ⊢
    rw [hlane]
    cases hget : cursor.batches[i]? with
    | none => simp [RowStep.ofVerdict]
    | some batch =>
      by_cases hhw : (highWatermarks cursor.replicaId).getD (-1) ≤ batch.lastOffset
      · simp [hhw, RowStep.ofVerdict]
      · cases first with
        | none =>
          simp only [hhw, if_false, Option.bind_some, Option.map_none, scan_none_cons]
          exact ih _
        | some info =>
          by_cases hlast : info.lastOffset = batch.lastOffset
          · simp only [hhw, if_false, Option.bind_some, Option.map_some, hlast, ne_eq,
              not_true_eq_false, scan_same]
            rw [← hlast]
            exact ih _
          · simp [hhw, hlast, scan_other hlast, RowStep.ofVerdict]

/-- The lines printed by the pass over row `i`. -/
def rowLines (key : TopicPartitionKey) (highWatermarks : Int → Option Int)
    (cursors : List Cursor) (i : Nat) : List ReportLine :=
  (advanceMatchingBatches key highWatermarks none (cursors.map (Cursor.at_ i))).lines

/-- A pass that returns an offset has compared every checksum with the first one. -/
theorem checksum_line_of_returned {key : TopicPartitionKey} {highWatermarks : Int → Option Int}
    {info : BatchMessageInfo} {i : Nat} {cursors : List Cursor} {next : Int}
    (h : (advanceMatchingBatches key highWatermarks (some info)
      (cursors.map (Cursor.at_ i))).step = .returned (some next))
    {cursor : Cursor} (hmem : cursor ∈ cursors) {batch : ParsedBatch}
    (hget : cursor.batches[i]? = some batch) (hne : info.checksum ≠ batch.checksum) :
    .unmatchedChecksum key batch.lastOffset info.replicaId info.checksum cursor.replicaId
        batch.checksum ∈
      (advanceMatchingBatches key highWatermarks (some info)
        (cursors.map (Cursor.at_ i))).lines := by
  induction cursors with
  | nil => simp at hmem
  | cons head rest ih =>
    simp only [List.map_cons, advanceMatchingBatches, Cursor.at_] at h ih ⊢
    cases hhead : head.batches[i]? with
    | none => simp [hhead] at h
    | some headBatch =>
      simp only [hhead] at h ⊢
      split_ifs at h ⊢ with hhw hlast
      · simp at h
      · rcases List.mem_cons.1 hmem with rfl | hrest
        · obtain rfl : headBatch = batch := Option.some.inj (hhead.symm.trans hget)
          exact List.mem_append_left _ (by simp [checksumLines, hne])
        · exact List.mem_append_right _ (ih h hrest)

/-- A full row on which two checksums differ prints a line about two of its replicas. -/
theorem exists_checksum_line {key : TopicPartitionKey} {highWatermarks : Int → Option Int}
    {cursors : List Cursor} {i : Nat} (hfull : Full (lanes highWatermarks cursors) i)
    {a b : Cursor} (ha : a ∈ cursors) (hb : b ∈ cursors) {batchA batchB : ParsedBatch}
    (hgetA : a.batches[i]? = some batchA) (hgetB : b.batches[i]? = some batchB)
    (hne : batchA.checksum ≠ batchB.checksum) :
    ∃ offset x cx y cy, cx ≠ cy ∧
      .unmatchedChecksum key offset x cx y cy ∈ rowLines key highWatermarks cursors i := by
  obtain ⟨offset, hscan⟩ := full_iff_scan.1 hfull
  have hstep := step_advance key highWatermarks i none cursors
  rw [Option.map_none, hscan] at hstep
  cases cursors with
  | nil => simp at ha
  | cons head rest =>
    obtain ⟨headBatch, hhead, -, hhw⟩ :=
      lane_eq_some_iff.1 ((scan_eq_full_iff.1 hscan).2 _ List.mem_cons_self)
    have hlast : headBatch.lastOffset = offset :=
      (lane_eq_some_iff.1 ((scan_eq_full_iff.1 hscan).2 _ List.mem_cons_self)).elim
        fun batch hbatch => Option.some.inj (hhead.symm.trans hbatch.1) ▸ hbatch.2.1
    have hpass : ∀ {cursor : Cursor} {batch : ParsedBatch}, cursor ∈ rest →
        cursor.batches[i]? = some batch → headBatch.checksum ≠ batch.checksum →
        ∃ offset x cx y cy, cx ≠ cy ∧
          .unmatchedChecksum key offset x cx y cy ∈
            rowLines key highWatermarks (head :: rest) i := by
      intro cursor batch hmem hget hdiff
      have hle : ¬ (highWatermarks head.replicaId).getD (-1) ≤ headBatch.lastOffset := by omega
      simp only [rowLines, List.map_cons, advanceMatchingBatches, Cursor.at_, hhead, hle,
        if_false, RowStep.ofVerdict] at hstep ⊢
      exact ⟨_, _, _, _, _, hdiff, checksum_line_of_returned hstep hmem hget hdiff⟩
    -- One of the two batches differs from the first one of the row.
    by_cases hA : headBatch.checksum = batchA.checksum
    · have hB : headBatch.checksum ≠ batchB.checksum := fun h => hne (hA.symm.trans h)
      rcases List.mem_cons.1 hb with rfl | hb
      · exact absurd (congrArg _ (Option.some.inj (hhead.symm.trans hgetB))) hB
      · exact hpass hb hgetB hB
    · rcases List.mem_cons.1 ha with rfl | ha
      · exact absurd (congrArg _ (Option.some.inj (hhead.symm.trans hgetA))) hA
      · exact hpass ha hgetA hA

/-! ## All rows -/

/-- The fetch offset after `k` full rows. -/
def offsetAfter (lanes : List (Lane Int)) : Nat → Option Int
  | 0 => none
  | k + 1 =>
    match scan none (row lanes k) with
    | .full offset => some (wrap64 (offset + 1))
    | _ => none

/-- The fetch offsets with the one of `key` moved, if there is one to move it to. -/
def moveOffset (key : TopicPartitionKey) (fetchOffsets : TopicPartitionKey → Option Int) :
    Option Int → TopicPartitionKey → Option Int
  | none => fetchOffsets
  | some offset => Function.update fetchOffsets key (some offset)

/-- How the loop ends after `k` full rows. -/
def walkEnd (key : TopicPartitionKey) (lanes : List (Lane Int)) (k : Nat)
    (fetchOffsets : TopicPartitionKey → Option Int) : WalkEnd :=
  match scan none (row lanes k) with
  | .conflict => .exited 1
  | _ => .stopped (moveOffset key fetchOffsets (offsetAfter lanes k))

section Walk

variable {key : TopicPartitionKey} {highWatermarks : Int → Option Int} {cursors : List Cursor}
  {fetchOffsets : TopicPartitionKey → Option Int} {i k : Nat}

theorem offsetAfter_succ {offset : Int} {lanes : List (Lane Int)}
    (h : scan none (row lanes i) = .full offset) :
    offsetAfter lanes (i + 1) = some (wrap64 (offset + 1)) := by
  simp [offsetAfter, h]

theorem walkEnd_update {lanes : List (Lane Int)} {offset : Int} (hk : FullPrefix lanes k)
    (hpos : 0 < k) :
    walkEnd key lanes k (Function.update fetchOffsets key (some offset)) =
      walkEnd key lanes k fetchOffsets := by
  obtain ⟨j, rfl⟩ := Nat.exists_eq_succ_of_ne_zero hpos.ne'
  obtain ⟨last, hlast⟩ := full_iff_scan.1 (hk.1 j (Nat.lt_succ_self j))
  simp only [walkEnd, offsetAfter_succ hlast, moveOffset, Function.update_idem]

theorem verifyRows_full {offset : Int}
    (h : scan none (row (lanes highWatermarks cursors) i) = .full offset) :
    verifyRows key highWatermarks (cursors.map (Cursor.at_ i)) fetchOffsets =
      ((verifyRows key highWatermarks (cursors.map (Cursor.at_ (i + 1)))
          (Function.update fetchOffsets key (some (wrap64 (offset + 1))))).1,
        rowLines key highWatermarks cursors i ++
          (verifyRows key highWatermarks (cursors.map (Cursor.at_ (i + 1)))
            (Function.update fetchOffsets key (some (wrap64 (offset + 1))))).2) := by
  have hstep := step_advance key highWatermarks i none cursors
  rw [Option.map_none, h] at hstep
  have hcursors := (advanceMatchingBatches_some hstep).2.2
  rw [verifyRows]
  split
  · rename_i h'; rw [hstep] at h'; cases h'
  · rename_i h'; rw [hstep] at h'; cases h'
  · rename_i next h'
    rw [hstep] at h'
    cases h'
    rw [hcursors, List.map_map]
    rfl

theorem verifyRows_not_full (h : ¬ Full (lanes highWatermarks cursors) i) :
    verifyRows key highWatermarks (cursors.map (Cursor.at_ i)) fetchOffsets =
      (if scan none (row (lanes highWatermarks cursors) i) = .conflict then .exited 1
        else .stopped fetchOffsets, rowLines key highWatermarks cursors i) := by
  have hstep := step_advance key highWatermarks i none cursors
  rw [Option.map_none] at hstep
  rw [verifyRows]
  split
  · rename_i code h'
    rw [hstep] at h'
    cases hscan : scan none (row (lanes highWatermarks cursors) i) with
    | full offset => simp [hscan, RowStep.ofVerdict] at h'
    | missing => simp [hscan, RowStep.ofVerdict] at h'
    | conflict =>
      simp only [hscan, RowStep.ofVerdict, RowStep.exited.injEq] at h'
      simp [rowLines, h']
  · rename_i h'
    rw [hstep] at h'
    cases hscan : scan none (row (lanes highWatermarks cursors) i) with
    | full offset => simp [hscan, RowStep.ofVerdict] at h'
    | missing => simp [rowLines]
    | conflict => simp [hscan, RowStep.ofVerdict] at h'
  · rename_i next h'
    rw [hstep] at h'
    cases hscan : scan none (row (lanes highWatermarks cursors) i) with
    | full offset => exact absurd (full_iff_scan.2 ⟨offset, hscan⟩) h
    | missing => simp [hscan, RowStep.ofVerdict] at h'
    | conflict => simp [hscan, RowStep.ofVerdict] at h'

/-- The loop from row `i` on, by induction on the full rows that are left. -/
theorem verifyRows_from (hk : FullPrefix (lanes highWatermarks cursors) k) :
    ∀ (d i : Nat), i + d = k → ∀ fetchOffsets,
      verifyRows key highWatermarks (cursors.map (Cursor.at_ i)) fetchOffsets =
        (if d = 0 then
          if scan none (row (lanes highWatermarks cursors) k) = .conflict then .exited 1
          else .stopped fetchOffsets
        else walkEnd key (lanes highWatermarks cursors) k fetchOffsets,
        (List.range' i (d + 1)).flatMap (rowLines key highWatermarks cursors)) := by
  intro d
  induction d with
  | zero =>
    rintro i rfl fetchOffsets
    rw [Nat.add_zero] at hk ⊢
    rw [verifyRows_not_full hk.2]
    simp
  | succ d ih =>
    rintro i rfl fetchOffsets
    obtain ⟨offset, hscan⟩ := full_iff_scan.1 (hk.1 i (by omega))
    rw [verifyRows_full hscan, ih (i + 1) (by omega), if_neg (Nat.succ_ne_zero d)]
    refine Prod.ext ?_ (by simp [List.range'_succ])
    by_cases hd : d = 0
    · subst hd
      simp only [walkEnd, offsetAfter_succ hscan, moveOffset, zero_add, if_true]
      cases scan none (row (lanes highWatermarks cursors) (i + 1)) <;> rfl
    · simp only [if_neg hd]
      exact walkEnd_update hk (by omega)

/-- **The loop passes exactly the full rows.** It prints what the passes over them and over
the row that stops it print. -/
theorem verifyRows_eq (key : TopicPartitionKey) (fetchOffsets : TopicPartitionKey → Option Int)
    (hk : FullPrefix (lanes highWatermarks cursors) k) :
    verifyRows key highWatermarks (cursors.map (Cursor.at_ 0)) fetchOffsets =
      (walkEnd key (lanes highWatermarks cursors) k fetchOffsets,
        (List.range (k + 1)).flatMap (rowLines key highWatermarks cursors)) := by
  rw [verifyRows_from hk k 0 (Nat.zero_add k), ← List.range_eq_range']
  refine Prod.ext ?_ rfl
  by_cases h0 : k = 0
  · subst h0
    simp only [if_true, walkEnd, offsetAfter, moveOffset]
    cases scan none (row (lanes highWatermarks cursors) 0) <;> rfl
  · simp only [if_neg h0]

/-- The lanes of cursors end with their batches. -/
theorem exists_fullPrefix_lanes (highWatermarks : Int → Option Int) (cursors : List Cursor) :
    ∃ k, FullPrefix (lanes highWatermarks cursors) k := by
  refine exists_fullPrefix (cursors.map fun cursor => cursor.batches.length).sum ?_
  intro lane hlane i hi
  obtain ⟨cursor, hcursor, rfl⟩ := List.mem_map.1 hlane
  have hle : cursor.batches.length ≤ (cursors.map fun cursor => cursor.batches.length).sum :=
    List.single_le_sum (fun _ _ => Nat.zero_le _) _ (List.mem_map.2 ⟨cursor, hcursor, rfl⟩)
  simp [Cursor.lane, List.getElem?_eq_none (hle.trans hi)]

end Walk

/-! ## One partition -/

/-- One response of a partition: a replica id and what the replica returned. -/
abbrev Response := Sigma fun _ : Int => ReplicaPartitionData

/-- Row `i` of the responses, with its last offset: every replica has an `i`-th batch ending
there, below its own high watermark. -/
def RowAt (responses : FetchResponse) (i : Nat) (offset : Int) : Prop :=
  ∀ response ∈ responses.entries, ∃ batches batch,
    parseRecordBatches response.2.records = .ok batches ∧ batches[i]? = some batch ∧
      batch.lastOffset = offset ∧ offset < response.2.highWatermark

/-- Row `i` is full: there are replicas, and all of them have it at one last offset. -/
def FullRow (responses : FetchResponse) (i : Nat) : Prop :=
  responses.entries ≠ [] ∧ ∃ offset, RowAt responses i offset

/-- Two replicas have different checksums in row `i`. -/
def ChecksumsDiffer (responses : FetchResponse) (i : Nat) : Prop :=
  ∃ r ∈ responses.entries, ∃ s ∈ responses.entries, ∃ rBatches rBatch sBatches sBatch,
    parseRecordBatches r.2.records = .ok rBatches ∧ rBatches[i]? = some rBatch ∧
      parseRecordBatches s.2.records = .ok sBatches ∧ sBatches[i]? = some sBatch ∧
      rBatch.checksum ≠ sBatch.checksum

/-- What a successful check of a partition did, `k` being the number of full rows. -/
structure VerifiedRows (responses : FetchResponse) (key : TopicPartitionKey)
    (before after : ReplicaBuffer) (lines : List ReportLine) (k : Nat) : Prop where
  full : ∀ i < k, FullRow responses i
  stop : ¬ FullRow responses k
  unmoved : k = 0 → after.fetchOffsets key = before.fetchOffsets key
  /-- With `j + 1` full rows, the fetch offset is the one after the last of them, in every
  replica. -/
  moved : ∀ j, k = j + 1 → ∀ response ∈ responses.entries, ∃ batches batch,
    parseRecordBatches response.2.records = .ok batches ∧ batches[j]? = some batch ∧
      after.fetchOffsets key = some batch.nextOffset
  /-- The output is that of the rows, one after the other, and every full row whose checksums
  are not all equal has printed a line of its own. -/
  reported : ∃ (linesOf : Nat → List ReportLine) (rest : List ReportLine),
    lines = (List.range k).flatMap linesOf ++ rest ∧
      ∀ i < k, ChecksumsDiffer responses i → ∃ offset x cx y cy, cx ≠ cy ∧
        .unmatchedChecksum key offset x cx y cy ∈ linesOf i
  others : ∀ other ≠ key, after.fetchOffsets other = before.fetchOffsets other
  emptied : after.recordsCache key = some ∅

/-- Parsing some responses parses each of them. -/
theorem parseResponses_cons_eq_ok {entry : Response} {rest : List Response}
    {parsed : List (Int × List ParsedBatch)} :
    parseResponses (entry :: rest) = .ok parsed ↔ ∃ batches tail,
      parseRecordBatches entry.2.records = .ok batches ∧ parseResponses rest = .ok tail ∧
        parsed = (entry.1, batches) :: tail := by
  rw [parseResponses]
  simp only [Checked.bind_eq_ok, Checked.pure_eq_ok]
  refine ⟨?_, ?_⟩
  · intro h
    obtain ⟨batches, hbatches, tail, htail, hparsed⟩ := h
    exact ⟨batches, tail, hbatches, htail, hparsed.symm⟩
  · intro h
    obtain ⟨batches, tail, hbatches, htail, hparsed⟩ := h
    exact ⟨batches, hbatches, tail, htail, hparsed.symm⟩

theorem mem_parseResponses {entries : List Response} {parsed : List (Int × List ParsedBatch)}
    (h : parseResponses entries = .ok parsed) (replicaId : Int) (batches : List ParsedBatch) :
    (replicaId, batches) ∈ parsed ↔ ∃ data, ⟨replicaId, data⟩ ∈ entries ∧
      parseRecordBatches data.records = .ok batches := by
  induction entries generalizing parsed with
  | nil =>
    simp only [parseResponses, Except.ok.injEq] at h
    subst h
    simp
  | cons entry rest ih =>
    obtain ⟨first, tail, hfirst, htail, rfl⟩ := parseResponses_cons_eq_ok.1 h
    rw [List.mem_cons, ih htail]
    refine ⟨?_, ?_⟩
    · intro hmem
      rcases hmem with heq | ⟨data, hdata, hok⟩
      · cases heq
        exact ⟨entry.2, List.mem_cons_self, hfirst⟩
      · exact ⟨data, List.mem_cons_of_mem entry hdata, hok⟩
    · intro ⟨data, hdata, hok⟩
      rcases List.mem_cons.1 hdata with rfl | hdata
      · exact .inl (Prod.ext rfl (Except.ok.inj (hok.symm.trans hfirst)))
      · exact .inr ⟨data, hdata, hok⟩

/-- A response that is in the buffer has been parsed. -/
theorem exists_parsed {entries : List Response} {parsed : List (Int × List ParsedBatch)}
    (h : parseResponses entries = .ok parsed) {response : Response}
    (hmem : response ∈ entries) :
    ∃ batches, parseRecordBatches response.2.records = .ok batches := by
  induction entries generalizing parsed with
  | nil => simp at hmem
  | cons entry rest ih =>
    obtain ⟨first, tail, hfirst, htail, -⟩ := parseResponses_cons_eq_ok.1 h
    rcases List.mem_cons.1 hmem with rfl | hrest
    · exact ⟨first, hfirst⟩
    · exact ih htail hrest

section Partition

variable {responses : FetchResponse} {parsed : List (Int × List ParsedBatch)}
  (order : IterOrder (Int × List ParsedBatch))

theorem mem_startCursors (h : parseResponses responses.entries = .ok parsed) (cursor : Cursor) :
    cursor ∈ startCursors order parsed ↔ cursor.index = 0 ∧
      ∃ data, ⟨cursor.replicaId, data⟩ ∈ responses.entries ∧
        parseRecordBatches data.records = .ok cursor.batches := by
  simp only [startCursors, cursorsOf, List.mem_map, (order.perm parsed).mem_iff, Prod.exists,
    mem_parseResponses h]
  constructor
  · rintro ⟨replicaId, batches, hdata, rfl⟩
    exact ⟨rfl, hdata⟩
  · obtain ⟨replicaId, index, batches⟩ := cursor
    rintro ⟨rfl, hdata⟩
    exact ⟨replicaId, batches, hdata, rfl⟩

theorem watermarks_of_mem {response : Response} (hmem : response ∈ responses.entries) :
    watermarks responses response.1 = some response.2.highWatermark := by
  have hlookup : responses.lookup response.1 = some response.2 :=
    AList.mem_lookup_iff.2 hmem
  rw [watermarks, hlookup]
  rfl

/-- The lanes of the cursors offer what the responses hold. -/
theorem rowAt_startCursors_iff (h : parseResponses responses.entries = .ok parsed) (i : Nat)
    (offset : Int) :
    (∀ lane ∈ lanes (watermarks responses) (startCursors order parsed), lane i = some offset) ↔
      RowAt responses i offset := by
  simp only [lanes, List.forall_mem_map, lane_eq_some_iff, mem_startCursors order h]
  constructor
  · intro hall response hmem
    obtain ⟨batches, hok⟩ := exists_parsed h hmem
    obtain ⟨batch, hget, hlast, hlt⟩ :=
      hall ⟨response.1, 0, batches⟩ ⟨rfl, response.2, hmem, hok⟩
    rw [watermarks_of_mem hmem] at hlt
    exact ⟨batches, batch, hok, hget, hlast, hlt⟩
  · rintro hrow cursor ⟨-, data, hmem, hok⟩
    obtain ⟨batches, batch, hok', hget, hlast, hlt⟩ := hrow _ hmem
    obtain rfl := Except.ok.inj (hok.symm.trans hok')
    refine ⟨batch, hget, hlast, ?_⟩
    rw [watermarks_of_mem hmem]
    exact hlt

/-- A row that is read as full is a row of the responses. -/
theorem rowAt_of_scan (h : parseResponses responses.entries = .ok parsed) {i : Nat} {offset : Int}
    (hscan : scan none (row (lanes (watermarks responses) (startCursors order parsed)) i) =
      .full offset) : RowAt responses i offset :=
  (rowAt_startCursors_iff order h i offset).1 fun lane hlane =>
    (scan_eq_full_iff.1 hscan).2 _ (List.mem_map.2 ⟨lane, hlane, rfl⟩)

/-- Without responses there are no lanes. -/
theorem lanes_eq_nil_iff (h : parseResponses responses.entries = .ok parsed) :
    lanes (watermarks responses) (startCursors order parsed) = [] ↔ responses.entries = [] := by
  rw [lanes, List.map_eq_nil_iff, List.eq_nil_iff_forall_not_mem, List.eq_nil_iff_forall_not_mem]
  refine ⟨fun hno response hmem => ?_, fun hno cursor hcursor => ?_⟩
  · obtain ⟨batches, hok⟩ := exists_parsed h hmem
    exact hno ⟨response.1, 0, batches⟩
      ((mem_startCursors order h _).2 ⟨rfl, response.2, hmem, hok⟩)
  · obtain ⟨-, data, hmem, -⟩ := (mem_startCursors order h cursor).1 hcursor
    exact hno _ hmem

theorem full_startCursors_iff (h : parseResponses responses.entries = .ok parsed) (i : Nat) :
    Full (lanes (watermarks responses) (startCursors order parsed)) i ↔ FullRow responses i := by
  simp only [Full, FullRow, ne_eq, lanes_eq_nil_iff order h, rowAt_startCursors_iff order h]

/-- The walk over the cursors of a partition. -/
theorem verifyRows_startCursors {key : TopicPartitionKey} {highWatermarks : Int → Option Int}
    {order : IterOrder (Int × List ParsedBatch)} {k : Nat}
    (hk : FullPrefix (lanes highWatermarks (startCursors order parsed)) k)
    (fetchOffsets : TopicPartitionKey → Option Int) :
    verifyRows key highWatermarks (startCursors order parsed) fetchOffsets =
      (walkEnd key (lanes highWatermarks (startCursors order parsed)) k fetchOffsets,
        (List.range (k + 1)).flatMap
          (rowLines key highWatermarks (startCursors order parsed))) := by
  have hwalk := verifyRows_eq key fetchOffsets hk
  have hstart : (startCursors order parsed).map (Cursor.at_ 0) = startCursors order parsed :=
    cursorsOf_at _
  rwa [hstart] at hwalk

/-- The check of a partition whose responses are complete and parse. -/
theorem verifyPartition_eq {order : IterOrder (Int × List ParsedBatch)} {buffer : ReplicaBuffer}
    {key : TopicPartitionKey} (hcache : buffer.recordsCache key = some responses)
    (hcount : responses.entries.length = (buffer.expectedReplicas key).getD 0)
    (hparsed : parseResponses responses.entries = .ok parsed) :
    verifyPartition order buffer key =
      match verifyRows key (watermarks responses) (startCursors order parsed)
        buffer.fetchOffsets with
      | (.exited code, lines) => (.exited code, lines)
      | (.stopped fetchOffsets, lines) =>
        (.ok ((({ buffer with fetchOffsets := fetchOffsets } : ReplicaBuffer).noteLag key
          (maxHighWatermark responses)).clearCache key), lines) := by
  unfold verifyPartition
  rw [hcache]
  dsimp only
  rw [if_neg (not_not.2 hcount)]
  generalize parseResponses responses.entries = result at hparsed
  subst hparsed
  rfl

end Partition

/-- A successful check is a walk over the cursors that has not met a conflict. -/
theorem verifyPartition_eq_ok {order : IterOrder (Int × List ParsedBatch)}
    {before after : ReplicaBuffer} {key : TopicPartitionKey} {responses : FetchResponse}
    {lines : List ReportLine} (hcache : before.recordsCache key = some responses)
    (hcount : responses.entries.length = (before.expectedReplicas key).getD 0)
    (hrun : verifyPartition order before key = (.ok after, lines)) :
    ∃ parsed, parseResponses responses.entries = .ok parsed ∧ ∃ k fetchOffsets,
      FullPrefix (lanes (watermarks responses) (startCursors order parsed)) k ∧
      fetchOffsets = moveOffset key before.fetchOffsets
        (offsetAfter (lanes (watermarks responses) (startCursors order parsed)) k) ∧
      after.fetchOffsets = fetchOffsets ∧ after.recordsCache key = some ∅ ∧
      lines = (List.range (k + 1)).flatMap
        (rowLines key (watermarks responses) (startCursors order parsed)) := by
  cases hparsed : parseResponses responses.entries with
  | error e => simp [verifyPartition, hcache, hcount, hparsed] at hrun
  | ok parsed =>
    refine ⟨parsed, rfl, ?_⟩
    obtain ⟨k, hk⟩ := exists_fullPrefix_lanes (watermarks responses) (startCursors order parsed)
    rw [verifyPartition_eq hcache hcount hparsed,
      verifyRows_startCursors hk before.fetchOffsets] at hrun
    cases hend : walkEnd key (lanes (watermarks responses) (startCursors order parsed)) k
      before.fetchOffsets with
    | exited code => simp [hend] at hrun
    | stopped fetchOffsets =>
      simp only [hend, Prod.mk.injEq, Verification.ok.injEq] at hrun
      obtain ⟨rfl, rfl⟩ := hrun
      refine ⟨k, fetchOffsets, hk, ?_, ?_, ?_, rfl⟩
      · simp only [walkEnd] at hend
        split at hend
        · cases hend
        · exact (WalkEnd.stopped.inj hend).symm
      · simp only [ReplicaBuffer.clearCache, ReplicaBuffer.noteLag]
        split_ifs <;> rfl
      · simp [ReplicaBuffer.clearCache]

/-- **Verification never skips unverified data.** When the check of a partition succeeds, the
fetch offset has moved over exactly the rows that every replica has below its own high
watermark with one last offset for all. -/
theorem verifyPartition_ok (order : IterOrder (Int × List ParsedBatch))
    (before after : ReplicaBuffer) (key : TopicPartitionKey) (responses : FetchResponse)
    (lines : List ReportLine) (hcache : before.recordsCache key = some responses)
    (hcount : responses.entries.length = (before.expectedReplicas key).getD 0)
    (hrun : verifyPartition order before key = (.ok after, lines)) :
    ∃ k, VerifiedRows responses key before after lines k := by
  obtain ⟨parsed, hparsed, k, fetchOffsets, hk, hmove, rfl, hempty, rfl⟩ :=
    verifyPartition_eq_ok hcache hcount hrun
  have hfull := fun i => full_startCursors_iff order hparsed i
  refine ⟨k, ⟨fun i hi => (hfull i).1 (hk.1 i hi), fun h => hk.2 ((hfull k).2 h), ?_, ?_, ?_,
    ?_, hempty⟩⟩
  · rintro rfl
    rw [hmove]
    rfl
  · rintro j rfl response hmem
    obtain ⟨offset, hscan⟩ := full_iff_scan.1 (hk.1 j (Nat.lt_succ_self j))
    obtain ⟨batches, batch, hok, hget, hlast, -⟩ := rowAt_of_scan order hparsed hscan response hmem
    refine ⟨batches, batch, hok, hget, ?_⟩
    rw [hmove, offsetAfter_succ hscan, moveOffset, Function.update_self, batch.next_eq, hlast]
  · refine ⟨rowLines key (watermarks responses) (startCursors order parsed),
      rowLines key (watermarks responses) (startCursors order parsed) k, ?_, ?_⟩
    · rw [List.range_succ, List.flatMap_append, List.flatMap_singleton]
    · rintro i hi ⟨r, hr, s, hs, rBatches, rBatch, sBatches, sBatch, hrok, hrget, hsok, hsget, hne⟩
      exact exists_checksum_line (hk.1 i hi)
        ((mem_startCursors order hparsed ⟨r.1, 0, rBatches⟩).2 ⟨rfl, r.2, hr, hrok⟩)
        ((mem_startCursors order hparsed ⟨s.1, 0, sBatches⟩).2 ⟨rfl, s.2, hs, hsok⟩)
        hrget hsget hne
  · intro other hother
    rw [hmove]
    cases offsetAfter (lanes (watermarks responses) (startCursors order parsed)) k with
    | none => rfl
    | some offset => exact Function.update_of_ne hother _ _

/-- One record batch of 61 bytes: base offset 4, last offset delta 5, checksum 7. -/
def sampleRecords : List UInt8 :=
  [0, 0, 0, 0, 0, 0, 0, 4, 0, 0, 0, 49, 0, 0, 0, 0, 2, 0, 0, 0, 7, 0, 0, 0, 0, 0, 5] ++
    List.replicate 34 0

def sampleKey : TopicPartitionKey := ⟨"a", 0⟩

/-- Replicas 1 and 2 returned the same batch; their high watermarks are 20 and 10. -/
def sampleResponses : FetchResponse :=
  ⟨[⟨1, 20, sampleRecords⟩, ⟨2, 10, sampleRecords⟩], by simp [List.NodupKeys]⟩

def sampleBuffer : ReplicaBuffer where
  expectedReplicas := fun _ => some 2
  fetchOffsets := fun _ => none
  recordsCache := fun _ => some sampleResponses
  maxLag := -1
  offsetWithMaxLag := -1
  maxLagPartition := none

/-- The buffer after the check: the fetch offset is 10, and so is the lag. -/
def sampleVerified : ReplicaBuffer :=
  let offsets := Function.update sampleBuffer.fetchOffsets sampleKey (some 10)
  (({ sampleBuffer with fetchOffsets := offsets } : ReplicaBuffer).noteLag sampleKey 20).clearCache
    sampleKey

theorem parse_sampleRecords : parseRecordBatches sampleRecords = .ok [.ofLast 9 7] := by
  have hlen : sampleRecords.length = 61 := by decide
  have hdone : parseRecordBatchesFrom sampleRecords 61 = .ok [] := by
    rw [parseRecordBatchesFrom, if_neg (by rw [hlen]; decide)]
  have hlength : signedBe (slice sampleRecords 8 12) = 49 := by decide
  have hmagic : sampleRecords.getD 16 0 = 2 := by decide
  have hlast : wrap64 (signedBe (slice sampleRecords 0 8) + signedBe (slice sampleRecords 23 27)) =
      9 := by decide
  have hsum : unsignedBe (slice sampleRecords 17 21) = 7 := by decide
  rw [parseRecordBatches, parseRecordBatchesFrom]
  simp only [Nat.zero_add, hlen, hlength, hmagic, hlast, hsum, Nat.le_refl, if_true,
    show ¬ (49 : Int) < 49 by decide, Int.reduceToNat, Nat.reduceAdd, Nat.lt_irrefl, if_false,
    ne_eq, not_true_eq_false, hdone, Except.map]

/-- The two replicas, parsed, before the first row. -/
def sampleCursors : List Cursor := [⟨1, 0, [.ofLast 9 7]⟩, ⟨2, 0, [.ofLast 9 7]⟩]

theorem verifyPartition_sample :
    verifyPartition (.id _) sampleBuffer sampleKey = (.ok sampleVerified, []) := by
  have hparsed : parseResponses sampleResponses.entries =
      .ok [(1, [.ofLast 9 7]), (2, [.ofLast 9 7])] := by
    simp only [sampleResponses, parseResponses, parse_sampleRecords]
    rfl
  have hfull : scan none (row (lanes (watermarks sampleResponses) sampleCursors) 0) = .full 9 := by
    decide
  have hstop : scan none (row (lanes (watermarks sampleResponses) sampleCursors) 1) = .missing := by
    decide
  have hk : FullPrefix (lanes (watermarks sampleResponses) sampleCursors) 1 := by
    refine fullPrefix_iff_scan.2 ⟨fun i hi => ⟨9, ?_⟩, by simp [hstop]⟩
    rwa [Nat.lt_one_iff.1 hi]
  have hlines : (List.range (1 + 1)).flatMap
      (rowLines sampleKey (watermarks sampleResponses) sampleCursors) = [] := by decide
  have hwalk := verifyRows_eq sampleKey sampleBuffer.fetchOffsets hk
  rw [walkEnd, hstop, offsetAfter_succ hfull, hlines, moveOffset,
    show wrap64 (9 + 1) = 10 by decide] at hwalk
  rw [verifyPartition_eq rfl rfl hparsed]
  change (match verifyRows sampleKey (watermarks sampleResponses) (sampleCursors.map (Cursor.at_ 0))
    sampleBuffer.fetchOffsets with | (.exited code, lines) => _ | (.stopped _, lines) => _) = _
  rw [hwalk, show maxHighWatermark sampleResponses = 20 by decide]
  rfl

theorem verifyPartition_ok_sample :
    ∃ k, VerifiedRows sampleResponses sampleKey sampleBuffer sampleVerified [] k :=
  verifyPartition_ok (.id _) sampleBuffer sampleVerified sampleKey sampleResponses [] rfl rfl
    verifyPartition_sample

end KafkaCli.Replica
