import KafkaCli.Replica.CheckedBatches
import KafkaCli.Replica.IterationOrder
import KafkaCli.Replica.MaxLag

/-!
# Offsets that leave 64 bits

Three sums are made of the offsets that the replicas return: the last offset of a batch, the offset
after it, and how far a partition is behind. A build that checks its arithmetic panics where one of
them leaves 64 bits (`checkedPartition`); in the released one the fetch offset may become negative.

**Theorem (`noOverflow_iff`).** No run over the responses of a partition leaves 64 bits exactly
under `OffsetsFit`, which is about the bytes and the high watermarks alone.
-/

namespace KafkaCli.Replica

open Checked Lockstep

/-! ## Checked arithmetic -/

/-- The batches of every response, with checked arithmetic. -/
def checkedResponses : List Response → Option (Result (List (Int × List ParsedBatch)))
  | [] => some (.ok [])
  | ⟨replicaId, data⟩ :: rest => do
    match ← checkedBatchesFrom data.records 0 with
    | .error error => some (.error error)
    | .ok batches =>
      let parsed ← checkedResponses rest
      return parsed.map fun parsed => (replicaId, batches) :: parsed

/-- `ReplicaBuffer::verify_partition` with checked arithmetic: nothing where it panics. -/
def checkedPartition (order : IterOrder (Int × List ParsedBatch)) (buffer : ReplicaBuffer)
    (key : TopicPartitionKey) : Option (Verification × List ReportLine) :=
  let expected := (buffer.expectedReplicas key).getD 0
  match buffer.recordsCache key with
  | none => some (.ok buffer, [])
  | some fetchResponse =>
    let fetched := fetchResponse.entries.length
    if fetched ≠ expected then
      some (.err (.config (s!"fetched {fetched} replicas for {key.label}, " ++
        s!"but expected {expected} replicas")), [])
    else do
      match ← checkedResponses fetchResponse.entries with
      | .error error => some (.err error, [])
      | .ok batchIters =>
        let maxHw := maxHighWatermark fetchResponse
        let highWatermarks := watermarks fetchResponse
        let cursors := startCursors order batchIters
        match verifyRows key highWatermarks cursors buffer.fetchOffsets with
        | (.exited code, lines) => some (.exited code, lines)
        | (.stopped fetchOffsets, lines) =>
          let buffer := { buffer with fetchOffsets := fetchOffsets }
          (checked64 (maxHw - buffer.offset key)).map fun _ =>
            (.ok ((buffer.noteLag key maxHw).clearCache key), lines)

/-! ## The responses -/

/-- The sums of the responses that are parsed: up to the first one in which something is
refused. -/
def SumsFitUpTo (entries : List Response) : Prop :=
  ∀ before response rest, entries = before ++ response :: rest →
    (∀ other ∈ before, ReadableFrom other.2.records 0) → SumsFitFrom response.2.records 0

section Responses

variable {response : Response} {entries : List Response}

theorem sumsFitUpTo_cons : SumsFitUpTo (response :: entries) ↔
    SumsFitFrom response.2.records 0 ∧
      (ReadableFrom response.2.records 0 → SumsFitUpTo entries) := by
  refine ⟨fun h => ⟨h [] response entries rfl fun _ hmem => absurd hmem List.not_mem_nil,
    fun hread before other rest hentries hbefore => ?_⟩, fun ⟨hfirst, hrest⟩ => ?_⟩
  · refine h (response :: before) other rest (by rw [hentries, List.cons_append]) ?_
    exact List.forall_mem_cons.2 ⟨hread, hbefore⟩
  · intro before other rest hentries hbefore
    cases before with
    | nil =>
      obtain ⟨rfl, -⟩ := List.cons.inj hentries
      exact hfirst
    | cons head before =>
      obtain ⟨rfl, htail⟩ := List.cons.inj hentries
      obtain ⟨hread, hbefore⟩ := List.forall_mem_cons.1 hbefore
      exact hrest hread before other rest htail hbefore

/-- Of responses in which nothing is refused all sums fit. -/
theorem SumsFitUpTo.sumsFitFrom (h : SumsFitUpTo entries)
    (hread : ∀ other ∈ entries, ReadableFrom other.2.records 0) (hmem : response ∈ entries) :
    SumsFitFrom response.2.records 0 := by
  obtain ⟨before, rest, hentries⟩ := List.append_of_mem hmem
  refine h before response rest hentries fun other hother => hread other ?_
  rw [hentries]
  exact List.mem_append_left _ hother

/-- All responses parse where nothing is refused in them. -/
theorem exists_parseResponses_iff : (∃ parsed, parseResponses entries = .ok parsed) ↔
    ∀ other ∈ entries, ReadableFrom other.2.records 0 := by
  induction entries with
  | nil => exact iff_of_true ⟨[], rfl⟩ fun _ hmem => absurd hmem List.not_mem_nil
  | cons response rest ih =>
    rw [List.forall_mem_cons, ← ih, ← exists_parse_iff]
    simp only [parseResponses_cons_eq_ok, parseRecordBatches]
    refine ⟨?_, ?_⟩
    · intro h
      obtain ⟨parsed, batches, tail, hbatches, htail, _⟩ := h
      exact ⟨⟨batches, hbatches⟩, ⟨tail, htail⟩⟩
    · intro h
      obtain ⟨⟨batches, hbatches⟩, ⟨tail, htail⟩⟩ := h
      exact ⟨_, batches, tail, hbatches, htail, rfl⟩

/-- Where the sums fit, checked arithmetic parses the responses like the parser. -/
theorem checkedResponses_of_fits (h : SumsFitUpTo entries) :
    checkedResponses entries = some (parseResponses entries) := by
  induction entries with
  | nil => rfl
  | cons response rest ih =>
    obtain ⟨hfirst, hrest⟩ := sumsFitUpTo_cons.1 h
    obtain ⟨replicaId, data⟩ := response
    rw [checkedResponses, checked_of_sumsFitFrom hfirst, parseResponses, parseRecordBatches]
    cases hparse : parseRecordBatchesFrom data.records 0 with
    | error error => rfl
    | ok batches =>
      rw [Option.bind_eq_bind, Option.bind_some, ok_bind]
      dsimp only
      rw [ih (hrest (exists_parse_iff.1 ⟨batches, hparse⟩))]
      cases parseResponses rest <;> rfl

/-- Where one does not, it panics. -/
theorem checkedResponses_of_not_fits (h : ¬ SumsFitUpTo entries) :
    checkedResponses entries = none := by
  induction entries with
  | nil =>
    refine absurd (fun before response rest hentries => ?_) h
    exact absurd hentries (by simp)
  | cons response rest ih =>
    obtain ⟨replicaId, data⟩ := response
    rw [checkedResponses]
    by_cases hfirst : SumsFitFrom data.records 0
    · have hrest : ReadableFrom data.records 0 ∧ ¬ SumsFitUpTo rest := by
        by_contra hnot
        exact h (sumsFitUpTo_cons.2 ⟨hfirst, fun hread =>
          by_contra fun hfits => hnot ⟨hread, hfits⟩⟩)
      obtain ⟨batches, hparse⟩ := exists_parse_iff.2 hrest.1
      rw [checked_of_sumsFitFrom hfirst, hparse, Option.bind_eq_bind, Option.bind_some]
      dsimp only
      rw [ih hrest.2]
      rfl
    · rw [checked_of_not_sumsFitFrom hfirst]
      rfl

end Responses

/-! ## The partition -/

/-- Batch number `i` of a response ends at this offset, below the high watermark. -/
def HasRow (response : Response) (i : Nat) (last : Int) : Prop :=
  ∃ start, Leads response.2.records 0 i start ∧ BatchAt response.2.records start ∧
    baseOffsetAt response.2.records start + lastOffsetDeltaAt response.2.records start = last ∧
    last < response.2.highWatermark

/-- All responses have row `i`, and at this offset. -/
def Agree (responses : FetchResponse) (i : Nat) (last : Int) : Prop :=
  ∀ response ∈ responses.entries, HasRow response i last

/-- The offset behind `k` rows on which all responses agree. -/
def Behind (responses : FetchResponse) (offset : Int) : Nat → Int → Prop
  | 0, next => next = offset
  | j + 1, next => ∃ last, Agree responses j last ∧ next = last + 1

/-- The offset to which a run leads that is not ended by a conflict: behind rows on which all
responses agree, up to one that some response does not have. -/
def LeadsTo (responses : FetchResponse) (offset next : Int) : Prop :=
  (responses.entries = [] ∧ next = offset) ∨
    ∃ k, (∀ i < k, ∃ last, Agree responses i last) ∧
      (∃ response ∈ responses.entries, ∀ last, ¬ HasRow response k last) ∧
      Behind responses offset k next

/-- The sums that are made over the responses of a partition fit into 64 bits, and so does the
lag, if a run gets there. -/
def OffsetsFit (buffer : ReplicaBuffer) (key : TopicPartitionKey) : Prop :=
  ∀ responses, buffer.recordsCache key = some responses →
    responses.entries.length = (buffer.expectedReplicas key).getD 0 →
    SumsFitUpTo responses.entries ∧
      ((∀ response ∈ responses.entries, ReadableFrom response.2.records 0) →
        ∀ next, LeadsTo responses (buffer.offset key) next →
          Fits64 (maxHighWatermark responses - next))

/-- A run over the responses of a partition leaves 64 bits nowhere: checked arithmetic does not
panic in it, and a fetch offset that moves is the one after the last offset of a batch. -/
structure NoOverflow (order : IterOrder (Int × List ParsedBatch)) (buffer : ReplicaBuffer)
    (key : TopicPartitionKey) : Prop where
  checked : checkedPartition order buffer key = some (verifyPartition order buffer key)
  moved : ∀ after lines, verifyPartition order buffer key = (.ok after, lines) →
    after.fetchOffsets key = buffer.fetchOffsets key ∨
      ∃ responses response i start, buffer.recordsCache key = some responses ∧
        response ∈ responses.entries ∧ Leads response.2.records 0 i start ∧
        BatchAt response.2.records start ∧
        after.fetchOffsets key = some (baseOffsetAt response.2.records start +
          lastOffsetDeltaAt response.2.records start + 1)

section Partition

variable {responses : FetchResponse} {parsed : List (Int × List ParsedBatch)}

/-- Where its sums fit, a response has the rows of its batches. -/
theorem hasRow_iff {response : Response} {batches : List ParsedBatch}
    (hparse : parseRecordBatches response.2.records = .ok batches)
    (hfits : SumsFitFrom response.2.records 0) {i : Nat} {last : Int} :
    HasRow response i last ↔ ∃ batch, batches[i]? = some batch ∧ batch.lastOffset = last ∧
      last < response.2.highWatermark := by
  unfold HasRow
  simp only [parse_getElem hparse]
  refine ⟨?_, ?_⟩
  · intro ⟨start, hleads, hbatch, hlast, hlt⟩
    refine ⟨_, ⟨start, hleads, hbatch, rfl⟩, ?_, hlt⟩
    exact (wrap64_of_fits (hfits i start hleads hbatch).1).trans hlast
  · intro ⟨batch, ⟨start, hleads, hbatch, hparsed⟩, hlast, hlt⟩
    subst hparsed
    have hsum := wrap64_of_fits (hfits i start hleads hbatch).1
    exact ⟨start, hleads, hbatch, hsum.symm.trans hlast, hlt⟩

/-- The rows of the parsed responses are those of their bytes. -/
theorem agree_iff_rowAt (hparsed : parseResponses responses.entries = .ok parsed)
    (hfits : ∀ response ∈ responses.entries, SumsFitFrom response.2.records 0) {i : Nat}
    {last : Int} : Agree responses i last ↔ RowAt responses i last := by
  refine forall₂_congr fun response hmem => ?_
  obtain ⟨batches, hparse⟩ := exists_parsed hparsed hmem
  rw [hasRow_iff hparse (hfits response hmem)]
  refine ⟨fun ⟨batch, hbatch⟩ => ⟨batches, batch, hparse, hbatch⟩, ?_⟩
  intro ⟨batches', batch, hparse', hbatch⟩
  obtain rfl := Except.ok.inj (hparse.symm.trans hparse')
  exact ⟨batch, hbatch⟩

/-- The offset after the full rows is the one behind them. -/
theorem behind_offsetAfter {order : IterOrder (Int × List ParsedBatch)}
    (hparsed : parseResponses responses.entries = .ok parsed)
    (hfits : ∀ response ∈ responses.entries, SumsFitFrom response.2.records 0)
    (hne : responses.entries ≠ []) {k : Nat}
    (hk : FullPrefix (lanes (watermarks responses) (startCursors order parsed)) k)
    {offset next : Int} : Behind responses offset k next ↔
      next = (offsetAfter (lanes (watermarks responses) (startCursors order parsed)) k).getD
        offset := by
  cases k with
  | zero => exact Iff.rfl
  | succ j =>
    obtain ⟨last, hscan⟩ := full_iff_scan.1 (hk.1 j j.lt_succ_self)
    have hrow : RowAt responses j last := rowAt_of_scan order hparsed hscan
    have hagree : Agree responses j last := (agree_iff_rowAt hparsed hfits).2 hrow
    have hnext : wrap64 (last + 1) = last + 1 := by
      obtain ⟨response, hmem⟩ := List.exists_mem_of_ne_nil _ hne
      obtain ⟨start, hleads, hbatch, rfl, -⟩ := hagree response hmem
      exact wrap64_of_fits (hfits response hmem j start hleads hbatch).2
    rw [offsetAfter_succ hscan, Option.getD_some, hnext]
    refine ⟨fun ⟨last', hagree', hlast'⟩ => ?_, fun h => ⟨last, hagree, h⟩⟩
    rw [hlast', RowAt.unique hne ((agree_iff_rowAt hparsed hfits).1 hagree') hrow]

/-- What the lane of a response offers. -/
theorem hasRow_iff_lane {response : Response} (hmem : response ∈ responses.entries)
    {batches : List ParsedBatch} (hparse : parseRecordBatches response.2.records = .ok batches)
    (hfits : SumsFitFrom response.2.records 0) {i : Nat} {last : Int} :
    HasRow response i last ↔
      (Cursor.mk response.1 0 batches).lane (watermarks responses) i = some last := by
  rw [hasRow_iff hparse hfits, lane_eq_some_iff, watermarks_of_mem hmem]
  rfl

/-- A cell of a row is empty where a response does not have the row. -/
theorem none_mem_row_iff (order : IterOrder (Int × List ParsedBatch))
    (hparsed : parseResponses responses.entries = .ok parsed)
    (hfits : ∀ response ∈ responses.entries, SumsFitFrom response.2.records 0) {k : Nat} :
    none ∈ row (lanes (watermarks responses) (startCursors order parsed)) k ↔
      ∃ response ∈ responses.entries, ∀ last, ¬ HasRow response k last := by
  simp only [row, lanes, List.mem_map, exists_exists_and_eq_and]
  refine ⟨?_, ?_⟩
  · intro h
    obtain ⟨cursor, hcursor, hnone⟩ := h
    obtain ⟨hindex, data, hmem, hparse⟩ := (mem_startCursors order hparsed cursor).1 hcursor
    refine ⟨⟨cursor.replicaId, data⟩, hmem, fun last hrow => ?_⟩
    have hlane := (hasRow_iff_lane hmem hparse (hfits _ hmem)).1 hrow
    cases hlane.symm.trans hnone
  · intro h
    obtain ⟨response, hmem, hnone⟩ := h
    obtain ⟨batches, hparse⟩ := exists_parsed hparsed hmem
    refine ⟨⟨response.1, 0, batches⟩,
      (mem_startCursors order hparsed _).2 ⟨rfl, response.2, hmem, hparse⟩, ?_⟩
    cases hlane : (Cursor.mk response.1 0 batches).lane (watermarks responses) k with
    | none => rfl
    | some last =>
      exact absurd ((hasRow_iff_lane hmem hparse (hfits _ hmem)).2 hlane) (hnone last)

/-- Without responses there is no row. -/
theorem row_eq_nil_iff (order : IterOrder (Int × List ParsedBatch))
    (hparsed : parseResponses responses.entries = .ok parsed) {k : Nat} :
    row (lanes (watermarks responses) (startCursors order parsed)) k = [] ↔
      responses.entries = [] := by
  rw [row, List.map_eq_nil_iff, lanes_eq_nil_iff order hparsed]

/-- A run without a conflict leads to the offset after its full rows. -/
theorem leadsTo_offsetAfter {order : IterOrder (Int × List ParsedBatch)}
    (hparsed : parseResponses responses.entries = .ok parsed)
    (hfits : ∀ response ∈ responses.entries, SumsFitFrom response.2.records 0) {k : Nat}
    (hk : FullPrefix (lanes (watermarks responses) (startCursors order parsed)) k)
    (hscan : scan none (row (lanes (watermarks responses) (startCursors order parsed)) k) ≠
      .conflict) (offset : Int) :
    LeadsTo responses offset
      ((offsetAfter (lanes (watermarks responses) (startCursors order parsed)) k).getD offset) := by
  have hfull := full_startCursors_iff order hparsed
  by_cases hne : responses.entries = []
  · cases k with
    | zero => exact .inl ⟨hne, rfl⟩
    | succ j => exact absurd hne ((hfull 0).1 (hk.1 0 j.succ_pos)).1
  · refine .inr ⟨k, fun i hi => ?_, ?_, (behind_offsetAfter hparsed hfits hne hk).2 rfl⟩
    · obtain ⟨last, hrow⟩ := ((hfull i).1 (hk.1 i hi)).2
      exact ⟨last, (agree_iff_rowAt hparsed hfits).2 hrow⟩
    · have hmissing : scan none
          (row (lanes (watermarks responses) (startCursors order parsed)) k) = .missing := by
        cases hverdict : scan none
          (row (lanes (watermarks responses) (startCursors order parsed)) k) with
        | full last => exact absurd (full_iff_scan.2 ⟨last, hverdict⟩) hk.2
        | missing => rfl
        | conflict => exact absurd hverdict hscan
      have hcells := mt (row_eq_nil_iff order hparsed (k := k)).1 hne
      exact (none_mem_row_iff order hparsed hfits).1 (none_mem_of_scan_eq_missing hcells hmissing)

/-- The order of a run that iterates these entries like this. -/
def IterOrder.ofPerm {α : Type} [DecidableEq α] {entries entries' : List α}
    (h : entries'.Perm entries) : IterOrder α where
  toFun l := if l = entries then entries' else l
  perm l := by
    by_cases hl : l = entries
    · rw [if_pos hl, hl]
      exact h
    · rw [if_neg hl]

/-- Where the responses lead, some run goes. -/
theorem exists_run_of_leadsTo (hparsed : parseResponses responses.entries = .ok parsed)
    (hfits : ∀ response ∈ responses.entries, SumsFitFrom response.2.records 0) {offset next : Int}
    (h : LeadsTo responses offset next) :
    ∃ (order : IterOrder (Int × List ParsedBatch)) (k : Nat),
      FullPrefix (lanes (watermarks responses) (startCursors order parsed)) k ∧
      scan none (row (lanes (watermarks responses) (startCursors order parsed)) k) ≠ .conflict ∧
      next = (offsetAfter (lanes (watermarks responses) (startCursors order parsed)) k).getD
        offset := by
  rcases h with ⟨hne, hnext⟩ | ⟨k, hrows, hmissing, hbehind⟩
  · have hrow := (row_eq_nil_iff (.id _) hparsed (k := 0)).2 hne
    refine ⟨.id _, 0, ⟨fun i hi => absurd hi (Nat.not_lt_zero i), fun hfull => ?_⟩, ?_, hnext⟩
    · exact ((full_startCursors_iff (.id _) hparsed 0).1 hfull).1 hne
    · rw [hrow]
      simp
  · obtain ⟨response, hmem, hnone⟩ := hmissing
    have hne := List.ne_nil_of_mem hmem
    have hcell := (none_mem_row_iff (.id _) hparsed hfits).2 ⟨response, hmem, hnone⟩
    rw [startCursors, row_cursorsOf] at hcell
    obtain ⟨replicas, hperm, hscan⟩ := exists_missing hcell
    have hstart : startCursors (.ofPerm hperm) parsed = cursorsOf replicas := by
      show cursorsOf (if parsed = parsed then replicas else parsed) = cursorsOf replicas
      rw [if_pos rfl]
    have hfull := full_startCursors_iff (.ofPerm hperm) hparsed
    have hk : FullPrefix
        (lanes (watermarks responses) (startCursors (.ofPerm hperm) parsed)) k := by
      refine ⟨fun i hi => (hfull i).2 ⟨hne, ?_⟩, fun hlast => ?_⟩
      · obtain ⟨last, hagree⟩ := hrows i hi
        exact ⟨last, (agree_iff_rowAt hparsed hfits).1 hagree⟩
      · obtain ⟨last, hrow⟩ := ((hfull k).1 hlast).2
        exact hnone last ((agree_iff_rowAt hparsed hfits).2 hrow response hmem)
    refine ⟨.ofPerm hperm, k, hk, ?_, (behind_offsetAfter hparsed hfits hne hk).1 hbehind⟩
    rw [hstart, row_cursorsOf, hscan]
    simp

end Partition

/-! ## The run over a partition -/

section Run

variable {order : IterOrder (Int × List ParsedBatch)} {buffer : ReplicaBuffer}
  {key : TopicPartitionKey} {responses : FetchResponse} {parsed : List (Int × List ParsedBatch)}
  {k : Nat}

/-- With all replicas there, checked arithmetic first parses the responses. -/
theorem checkedPartition_eq (hcache : buffer.recordsCache key = some responses)
    (hcount : responses.entries.length = (buffer.expectedReplicas key).getD 0) :
    checkedPartition order buffer key = (checkedResponses responses.entries).bind fun
      | .error error => some (.err error, [])
      | .ok parsed =>
        match verifyRows key (watermarks responses) (startCursors order parsed)
          buffer.fetchOffsets with
        | (.exited code, lines) => some (.exited code, lines)
        | (.stopped fetchOffsets, lines) =>
          let buffer := { buffer with fetchOffsets := fetchOffsets }
          (checked64 (maxHighWatermark responses - buffer.offset key)).map fun _ =>
            (.ok ((buffer.noteLag key (maxHighWatermark responses)).clearCache key), lines) := by
  unfold checkedPartition
  rw [hcache]
  dsimp only
  rw [if_neg (not_not.2 hcount)]
  rfl

/-- A run that a conflict ends does not get to the lag. -/
theorem checkedPartition_of_conflict (hcache : buffer.recordsCache key = some responses)
    (hcount : responses.entries.length = (buffer.expectedReplicas key).getD 0)
    (hfits : SumsFitUpTo responses.entries)
    (hparsed : parseResponses responses.entries = .ok parsed)
    (hk : FullPrefix (lanes (watermarks responses) (startCursors order parsed)) k)
    (hscan : scan none (row (lanes (watermarks responses) (startCursors order parsed)) k) =
      .conflict) :
    checkedPartition order buffer key = some (verifyPartition order buffer key) := by
  rw [checkedPartition_eq hcache hcount, checkedResponses_of_fits hfits, hparsed,
    verifyPartition_eq hcache hcount hparsed, Option.bind_some]
  dsimp only
  rw [verifyRows_startCursors hk, walkEnd, hscan]

/-- Another one panics where the lag leaves 64 bits. -/
theorem checkedPartition_of_not_conflict (hcache : buffer.recordsCache key = some responses)
    (hcount : responses.entries.length = (buffer.expectedReplicas key).getD 0)
    (hfits : SumsFitUpTo responses.entries)
    (hparsed : parseResponses responses.entries = .ok parsed)
    (hk : FullPrefix (lanes (watermarks responses) (startCursors order parsed)) k)
    (hscan : scan none (row (lanes (watermarks responses) (startCursors order parsed)) k) ≠
      .conflict) :
    checkedPartition order buffer key =
      (checked64 (maxHighWatermark responses -
        (offsetAfter (lanes (watermarks responses) (startCursors order parsed)) k).getD
          (buffer.offset key))).map fun _ => verifyPartition order buffer key := by
  rw [checkedPartition_eq hcache hcount, checkedResponses_of_fits hfits, hparsed,
    verifyPartition_eq hcache hcount hparsed, Option.bind_some]
  dsimp only
  rw [verifyRows_startCursors hk, walkEnd_eq_stopped hscan, ← moveOffset_getD]
  rfl

/-- Under the condition, checked arithmetic does not panic. -/
theorem OffsetsFit.checked (h : OffsetsFit buffer key) :
    checkedPartition order buffer key = some (verifyPartition order buffer key) := by
  cases hcache : buffer.recordsCache key with
  | none =>
    unfold checkedPartition verifyPartition
    rw [hcache]
  | some responses =>
    by_cases hcount : responses.entries.length = (buffer.expectedReplicas key).getD 0
    · obtain ⟨hfits, hlag⟩ := h responses hcache hcount
      cases hparsed : parseResponses responses.entries with
      | error error =>
        rw [checkedPartition_eq hcache hcount, checkedResponses_of_fits hfits, hparsed]
        unfold verifyPartition
        simp [hcache, hcount, hparsed]
      | ok parsed =>
        have hread := exists_parseResponses_iff.1 ⟨parsed, hparsed⟩
        have hall := fun response (hmem : response ∈ responses.entries) =>
          hfits.sumsFitFrom hread hmem
        obtain ⟨k, hk⟩ := exists_fullPrefix_lanes (watermarks responses) (startCursors order parsed)
        by_cases hscan : scan none
          (row (lanes (watermarks responses) (startCursors order parsed)) k) = .conflict
        · exact checkedPartition_of_conflict hcache hcount hfits hparsed hk hscan
        · have hleads := leadsTo_offsetAfter hparsed hall hk hscan (buffer.offset key)
          rw [checkedPartition_of_not_conflict hcache hcount hfits hparsed hk hscan,
            checked64_eq_some.2 ⟨hlag hread _ hleads, rfl⟩, Option.map_some]
    · unfold checkedPartition verifyPartition
      simp [hcache, hcount]

/-- And a fetch offset that moves is the one after a batch. -/
theorem OffsetsFit.moved (h : OffsetsFit buffer key) {after : ReplicaBuffer}
    {lines : List ReportLine} (hrun : verifyPartition order buffer key = (.ok after, lines)) :
    after.fetchOffsets key = buffer.fetchOffsets key ∨
      ∃ responses response i start, buffer.recordsCache key = some responses ∧
        response ∈ responses.entries ∧ Leads response.2.records 0 i start ∧
        BatchAt response.2.records start ∧
        after.fetchOffsets key = some (baseOffsetAt response.2.records start +
          lastOffsetDeltaAt response.2.records start + 1) := by
  cases hcache : buffer.recordsCache key with
  | none =>
    simp only [verifyPartition, hcache, Prod.mk.injEq, Verification.ok.injEq] at hrun
    rw [← hrun.1]
    exact .inl rfl
  | some responses =>
    by_cases hcount : responses.entries.length = (buffer.expectedReplicas key).getD 0
    · obtain ⟨parsed, hparsed, k, fetchOffsets, hk, hmove, rfl, -, -⟩ :=
        verifyPartition_eq_ok hcache hcount hrun
      rw [hmove]
      cases k with
      | zero => exact .inl rfl
      | succ j =>
        right
        obtain ⟨hne, -⟩ := (full_startCursors_iff order hparsed 0).1 (hk.1 0 j.succ_pos)
        obtain ⟨response, hmem⟩ := List.exists_mem_of_ne_nil _ hne
        have hread := exists_parseResponses_iff.1 ⟨parsed, hparsed⟩
        have hall := fun response (hmem : response ∈ responses.entries) =>
          (h responses hcache hcount).1.sumsFitFrom hread hmem
        have hbehind : Behind responses 0 (j + 1) _ :=
          (behind_offsetAfter hparsed hall hne hk).2 rfl
        obtain ⟨last, hagree, hnext⟩ := hbehind
        obtain ⟨start, hleads, hbatch, hlast, -⟩ := hagree response hmem
        refine ⟨responses, response, j, start, rfl, hmem, hleads, hbatch, ?_⟩
        obtain ⟨offset, hscan⟩ := full_iff_scan.1 (hk.1 j j.lt_succ_self)
        rw [offsetAfter_succ hscan] at hnext ⊢
        rw [moveOffset, Function.update_self, hlast]
        exact congrArg some hnext
    · simp [verifyPartition, hcache, hcount] at hrun

end Run

/-- **When no run leaves 64 bits.** -/
theorem noOverflow_iff (buffer : ReplicaBuffer) (key : TopicPartitionKey) :
    (∀ order, NoOverflow order buffer key) ↔ OffsetsFit buffer key := by
  refine ⟨fun h responses hcache hcount => ?_, fun h order =>
    ⟨h.checked, fun after lines hrun => h.moved hrun⟩⟩
  have hfits : SumsFitUpTo responses.entries := by
    by_contra hnot
    have hchecked := (h (.id _)).checked
    rw [checkedPartition_eq hcache hcount, checkedResponses_of_not_fits hnot] at hchecked
    cases hchecked
  refine ⟨hfits, fun hread next hleads => ?_⟩
  obtain ⟨parsed, hparsed⟩ := exists_parseResponses_iff.2 hread
  have hall := fun response (hmem : response ∈ responses.entries) => hfits.sumsFitFrom hread hmem
  obtain ⟨order, k, hk, hscan, rfl⟩ := exists_run_of_leadsTo hparsed hall hleads
  have hchecked := (h order).checked
  rw [checkedPartition_of_not_conflict hcache hcount hfits hparsed hk hscan,
    Option.map_eq_some_iff] at hchecked
  obtain ⟨lag, hlag, -⟩ := hchecked
  exact (checked64_eq_some.1 hlag).1

/-- A batch of 61 bytes whose base offset is the largest number, with last offset delta 5. -/
def overflowRecords : List UInt8 :=
  [127, 255, 255, 255, 255, 255, 255, 255, 0, 0, 0, 49, 0, 0, 0, 0, 2, 0, 0, 0, 7, 0, 0, 0, 0, 0,
    5] ++ List.replicate 34 0

/-- One replica, with a high watermark that is nothing special. -/
def overflowResponses : FetchResponse := ⟨[⟨1, 10, overflowRecords⟩], List.nodupKeys_singleton _⟩

theorem overflowRecords_batchAt : BatchAt overflowRecords 0 :=
  ⟨by decide, by decide, by decide, by decide⟩

theorem overflowRecords_not_fits : ¬ SumsFit overflowRecords 0 := by
  unfold SumsFit Fits64
  decide

theorem parse_overflowRecords :
    parseRecordBatches overflowRecords = .ok [.ofLast (-2 ^ 63 + 4) 7] := by
  have hend : parseRecordBatchesFrom overflowRecords (batchEnd overflowRecords 0) = .ok [] := by
    refine (parse_of_not (fun h => absurd h.header ?_) fun h => absurd h.1 ?_).1 <;> decide
  have hparsed : parsedAt overflowRecords 0 = .ofLast (-2 ^ 63 + 4) 7 := by decide
  rw [parseRecordBatches, (parse_of_batchAt overflowRecords_batchAt).1, hend, hparsed]
  rfl

/-- A fetch offset that has wrapped: the next fetch begins at a negative offset. -/
theorem fetchOffset_overflows :
    checkedPartition (.id _) (singleBuffer 1 0 overflowResponses) sampleKey = none ∧
      (∃ after lines, verifyPartition (.id _) (singleBuffer 1 0 overflowResponses) sampleKey =
        (.ok after, lines) ∧ after.offset sampleKey = -2 ^ 63 + 5) ∧
      ¬ ∀ order, NoOverflow order (singleBuffer 1 0 overflowResponses) sampleKey := by
  have hpanics : checkedPartition (.id _) (singleBuffer 1 0 overflowResponses) sampleKey =
      none := by
    have hresponses : checkedResponses overflowResponses.entries = none := by
      rw [overflowResponses, checkedResponses,
        checked_of_not_fits overflowRecords_batchAt overflowRecords_not_fits]
      rfl
    have hcache : (singleBuffer 1 0 overflowResponses).recordsCache sampleKey =
        some overflowResponses := rfl
    rw [checkedPartition_eq hcache rfl, hresponses]
    rfl
  refine ⟨hpanics, ?_, fun h => ?_⟩
  · have hparsed : parseResponses overflowResponses.entries =
        .ok [(1, [.ofLast (-2 ^ 63 + 4) 7])] := by
      simp only [overflowResponses, parseResponses, parse_overflowRecords]
      rfl
    have hfull : scan none (row (lanes (watermarks overflowResponses)
        (startCursors (.id _) [(1, [.ofLast (-2 ^ 63 + 4) 7])])) 0) = .full (-2 ^ 63 + 4) := by
      decide
    have hstop : scan none (row (lanes (watermarks overflowResponses)
        (startCursors (.id _) [(1, [.ofLast (-2 ^ 63 + 4) 7])])) 1) = .missing := by
      decide
    have hk : FullPrefix (lanes (watermarks overflowResponses)
        (startCursors (.id _) [(1, [.ofLast (-2 ^ 63 + 4) 7])])) 1 := by
      refine fullPrefix_iff_scan.2 ⟨fun i hi => ⟨-2 ^ 63 + 4, ?_⟩, fun last => ?_⟩
      · rwa [Nat.lt_one_iff.1 hi]
      · rw [hstop]
        simp
    have hends : scan none (row (lanes (watermarks overflowResponses)
        (startCursors (.id _) [(1, [.ofLast (-2 ^ 63 + 4) 7])])) 1) ≠ .conflict := by
      rw [hstop]
      simp
    rw [verifyPartition_eq rfl rfl hparsed, verifyRows_startCursors hk, walkEnd_eq_stopped hends]
    refine ⟨afterCheck sampleKey overflowResponses _ (singleBuffer 1 0 overflowResponses), _, rfl,
      ?_⟩
    rw [ReplicaBuffer.offset, afterCheck_fetchOffsets, moveOffset_getD, offsetAfter_succ hfull]
    decide
  · have hchecked := (h (.id _)).checked
    rw [hpanics] at hchecked
    cases hchecked

end KafkaCli.Replica
