import KafkaCli.Replica.Batches
import Mathlib.Algebra.GroupWithZero.Nat
import Mathlib.Data.List.AList
import Mathlib.Logic.Function.Basic

/-!
# The replica buffer

The state of the replica verification tool and its check of one partition. The tool fetches
the same partition from every replica, parses what came back, and compares the replicas one
row of batches at a time: `advance_matching_batches` reads one row, and `verify_partition`
repeats it until a row fails.

A `HashMap` is iterated in an order that changes from run to run. The responses of a partition
are an association list, whose own order is the one in which this run iterates them, and the
order in which the parsed replicas become cursors is a parameter (`IterOrder`).
-/

namespace KafkaCli.Replica

/-- The order in which a run iterates a hash map. -/
structure IterOrder (α : Type) where
  toFun : List α → List α
  perm : ∀ entries, (toFun entries).Perm entries

/-- The order that leaves the entries where they are. -/
def IterOrder.id (α : Type) : IterOrder α := ⟨fun entries => entries, fun _ => .refl _⟩

structure TopicPartitionKey where
  topic : String
  partition : Int
  deriving DecidableEq, Repr

/-- What one replica returned for a partition. -/
structure ReplicaPartitionData where
  highWatermark : Int
  records : List UInt8
  deriving DecidableEq, Repr

/-- The responses of the replicas of one partition, by replica id. -/
abbrev FetchResponse := AList fun _ : Int => ReplicaPartitionData

structure ReplicaBuffer where
  expectedReplicas : TopicPartitionKey → Option Nat
  fetchOffsets : TopicPartitionKey → Option Int
  recordsCache : TopicPartitionKey → Option FetchResponse
  maxLag : Int
  offsetWithMaxLag : Int
  maxLagPartition : Option TopicPartitionKey

/-- The offset to fetch next, zero for a partition without one. -/
def ReplicaBuffer.offset (buffer : ReplicaBuffer) (key : TopicPartitionKey) : Int :=
  (buffer.fetchOffsets key).getD 0

/-! ## Output -/

/-- The lines the verifier prints, without their timestamp. -/
inductive ReportLine
  | unmatchedOffset (key : TopicPartitionKey) (firstReplica firstOffset replica offset : Int)
  | unmatchedChecksum (key : TopicPartitionKey) (offset firstReplica : Int) (firstChecksum : Nat)
      (replica : Int) (checksum : Nat)
  deriving DecidableEq, Repr

def TopicPartitionKey.label (key : TopicPartitionKey) : String :=
  s!"{key.topic}-{key.partition}"

/-- A line as it is printed at a given time. -/
def ReportLine.text (timestamp : String) : ReportLine → String
  | .unmatchedOffset key firstReplica firstOffset replica offset =>
      s!"{timestamp}: partition {key.label}: replica {firstReplica}'s offset {firstOffset} " ++
        s!"doesn't match replica {replica}'s offset {offset}"
  | .unmatchedChecksum key offset firstReplica firstChecksum replica checksum =>
      s!"{timestamp}: partition {key.label} has unmatched checksum at offset {offset}; " ++
        s!"replica {firstReplica}'s checksum {firstChecksum}; " ++
        s!"replica {replica}'s checksum {checksum}"

/-! ## One row -/

/-- A replica's batches, with the position of the next one to compare. -/
structure Cursor where
  replicaId : Int
  index : Nat
  batches : List ParsedBatch
  deriving DecidableEq, Repr

/-- The cursor moved past its batch. -/
def Cursor.bump (cursor : Cursor) : Cursor := { cursor with index := cursor.index + 1 }

/-- How a pass over one row ends. -/
inductive RowStep
  /-- The function returns: the next fetch offset, or nothing. -/
  | returned (nextOffset : Option Int)
  /-- The process exits with this code. -/
  | exited (code : Nat)
  deriving DecidableEq, Repr

/-- A pass over one row: how it ends, the cursors it leaves, the lines it prints. -/
structure RowPass where
  step : RowStep
  cursors : List Cursor
  lines : List ReportLine
  deriving DecidableEq, Repr

/-- The line for a batch whose checksum differs from the first one's. -/
def checksumLines (key : TopicPartitionKey) (first : BatchMessageInfo) (replicaId : Int)
    (batch : ParsedBatch) : List ReportLine :=
  if first.checksum ≠ batch.checksum then
    [.unmatchedChecksum key batch.lastOffset first.replicaId first.checksum replicaId
      batch.checksum]
  else []

/-- `advance_matching_batches` from a position of its loop on: `first` is the batch that opened
the row, if one has been seen. -/
def advanceMatchingBatches (key : TopicPartitionKey) (highWatermarks : Int → Option Int) :
    Option BatchMessageInfo → List Cursor → RowPass
  | first, [] => ⟨.returned (first.map (·.nextOffset)), [], []⟩
  | first, cursor :: rest =>
    match cursor.batches[cursor.index]? with
    | none => ⟨.returned none, cursor :: rest, []⟩
    | some batch =>
      if (highWatermarks cursor.replicaId).getD (-1) ≤ batch.lastOffset then
        ⟨.returned none, cursor :: rest, []⟩
      else
        match first with
        | some info =>
          if info.lastOffset ≠ batch.lastOffset then
            ⟨.exited 1, cursor :: rest, [.unmatchedOffset key info.replicaId info.lastOffset
              cursor.replicaId batch.lastOffset]⟩
          else
            let pass := advanceMatchingBatches key highWatermarks (some info) rest
            ⟨pass.step, cursor.bump :: pass.cursors,
              checksumLines key info cursor.replicaId batch ++ pass.lines⟩
        | none =>
          let pass := advanceMatchingBatches key highWatermarks
            (some (.ofBatch cursor.replicaId batch)) rest
          ⟨pass.step, cursor.bump :: pass.cursors, pass.lines⟩

/-! ## The loop over the rows -/

/-- A pass that returns an offset has read a batch from every cursor and moved every cursor. -/
theorem advanceMatchingBatches_some {key : TopicPartitionKey} {highWatermarks : Int → Option Int}
    {first : Option BatchMessageInfo} {cursors : List Cursor} {next : Int}
    (h : (advanceMatchingBatches key highWatermarks first cursors).step = .returned (some next)) :
    (first = none → cursors ≠ []) ∧
      (∀ cursor ∈ cursors, cursor.index < cursor.batches.length) ∧
      (advanceMatchingBatches key highWatermarks first cursors).cursors =
        cursors.map Cursor.bump := by
  induction cursors generalizing first with
  | nil => cases first <;> simp_all [advanceMatchingBatches]
  | cons cursor rest ih =>
    simp only [advanceMatchingBatches] at h ⊢
    cases hget : cursor.batches[cursor.index]? with
    | none => simp [hget] at h
    | some batch =>
      have hlt : cursor.index < cursor.batches.length := (List.getElem?_eq_some_iff.1 hget).1
      simp only [hget] at h ⊢
      split_ifs at h ⊢ with hhw
      · simp at h
      · cases first with
        | none =>
          obtain ⟨-, hrest, hcursors⟩ := ih h
          refine ⟨fun _ => List.cons_ne_nil _ _, List.forall_mem_cons.2 ⟨hlt, hrest⟩, ?_⟩
          rw [List.map_cons, hcursors]
        | some info =>
          simp only at h ⊢
          split_ifs at h ⊢ with hlast
          · obtain ⟨-, hrest, hcursors⟩ := ih h
            refine ⟨fun h => by simp at h, List.forall_mem_cons.2 ⟨hlt, hrest⟩, ?_⟩
            rw [List.map_cons, hcursors]

/-- The batches the cursors have not compared yet. -/
def remaining (cursors : List Cursor) : Nat :=
  (cursors.map fun cursor => cursor.batches.length - cursor.index).sum

theorem remaining_bump_le (cursors : List Cursor) :
    remaining (cursors.map Cursor.bump) ≤ remaining cursors := by
  induction cursors with
  | nil => simp [remaining]
  | cons cursor rest ih =>
    simp only [remaining, List.map_cons, List.sum_cons, Cursor.bump] at ih ⊢
    omega

theorem remaining_bump_lt {cursors : List Cursor} (hne : cursors ≠ [])
    (h : ∀ cursor ∈ cursors, cursor.index < cursor.batches.length) :
    remaining (cursors.map Cursor.bump) < remaining cursors := by
  cases cursors with
  | nil => exact absurd rfl hne
  | cons cursor rest =>
    have hlt := h cursor List.mem_cons_self
    have hrest := remaining_bump_le rest
    simp only [remaining, List.map_cons, List.sum_cons, Cursor.bump] at hrest ⊢
    omega

/-- How the loop over the rows ends. -/
inductive WalkEnd
  /-- A row was not passed; these are the fetch offsets. -/
  | stopped (fetchOffsets : TopicPartitionKey → Option Int)
  /-- The process exits with this code. -/
  | exited (code : Nat)

/-- The `while let` loop of `verify_partition`: every row that is passed moves the fetch offset
of the partition. -/
def verifyRows (key : TopicPartitionKey) (highWatermarks : Int → Option Int)
    (cursors : List Cursor) (fetchOffsets : TopicPartitionKey → Option Int) :
    WalkEnd × List ReportLine :=
  let pass := advanceMatchingBatches key highWatermarks none cursors
  match _h : pass.step with
  | .exited code => (.exited code, pass.lines)
  | .returned none => (.stopped fetchOffsets, pass.lines)
  | .returned (some next) =>
    let walk := verifyRows key highWatermarks pass.cursors
      (Function.update fetchOffsets key (some next))
    (walk.1, pass.lines ++ walk.2)
termination_by remaining cursors
decreasing_by
  obtain ⟨hne, hlt, hcursors⟩ := advanceMatchingBatches_some _h
  show remaining (advanceMatchingBatches key highWatermarks none cursors).cursors < _
  rw [hcursors]
  exact remaining_bump_lt (hne rfl) hlt

/-! ## One partition -/

/-- How the check of a partition ends. -/
inductive Verification
  | ok (buffer : ReplicaBuffer)
  | err (error : Error)
  /-- The process exits with this code. -/
  | exited (code : Nat)

/-- The batches of every response, in the order of the responses. -/
def parseResponses : List (Sigma fun _ : Int => ReplicaPartitionData) →
    Result (List (Int × List ParsedBatch))
  | [] => .ok []
  | ⟨replicaId, data⟩ :: rest => do
    let batches ← parseRecordBatches data.records
    let parsed ← parseResponses rest
    pure ((replicaId, batches) :: parsed)

/-- The high watermarks of the responses, by replica. -/
def watermarks (responses : FetchResponse) (replicaId : Int) : Option Int :=
  (responses.lookup replicaId).map (·.highWatermark)

/-- The largest high watermark of the responses. -/
def maxHighWatermark (responses : FetchResponse) : Int :=
  (responses.entries.map (·.2.highWatermark)).max?.getD (-1)

/-- The cursors over some replicas, each before its first batch. -/
def cursorsOf (replicas : List (Int × List ParsedBatch)) : List Cursor :=
  replicas.map fun (replicaId, batches) => Cursor.mk replicaId 0 batches

/-- The cursors over the parsed responses, in the order of the run. -/
def startCursors (order : IterOrder (Int × List ParsedBatch))
    (parsed : List (Int × List ParsedBatch)) : List Cursor :=
  cursorsOf (order.toFun parsed)

/-- The lag of a partition, remembered when it is the largest so far. -/
def ReplicaBuffer.noteLag (buffer : ReplicaBuffer) (key : TopicPartitionKey) (maxHw : Int) :
    ReplicaBuffer :=
  let verifiedOffset := buffer.offset key
  if buffer.maxLag < wrap64 (maxHw - verifiedOffset) then
    { buffer with
      offsetWithMaxLag := verifiedOffset
      maxLag := wrap64 (maxHw - verifiedOffset)
      maxLagPartition := some key }
  else buffer

/-- Forget the responses of a partition. -/
def ReplicaBuffer.clearCache (buffer : ReplicaBuffer) (key : TopicPartitionKey) : ReplicaBuffer :=
  { buffer with recordsCache := Function.update buffer.recordsCache key (some ∅) }

/-- `ReplicaBuffer::verify_partition`, with the lines it prints. -/
def verifyPartition (order : IterOrder (Int × List ParsedBatch)) (buffer : ReplicaBuffer)
    (key : TopicPartitionKey) : Verification × List ReportLine :=
  let expected := (buffer.expectedReplicas key).getD 0
  match buffer.recordsCache key with
  | none => (.ok buffer, [])
  | some fetchResponse =>
    let fetched := fetchResponse.entries.length
    if fetched ≠ expected then
      (.err (.config (s!"fetched {fetched} replicas for {key.label}, " ++
        s!"but expected {expected} replicas")), [])
    else
      match parseResponses fetchResponse.entries with
      | .error error => (.err error, [])
      | .ok batchIters =>
        let maxHw := maxHighWatermark fetchResponse
        let highWatermarks := watermarks fetchResponse
        let cursors := startCursors order batchIters
        match verifyRows key highWatermarks cursors buffer.fetchOffsets with
        | (.exited code, lines) => (.exited code, lines)
        | (.stopped fetchOffsets, lines) =>
          let buffer := { buffer with fetchOffsets := fetchOffsets }
          (.ok ((buffer.noteLag key maxHw).clearCache key), lines)

end KafkaCli.Replica
