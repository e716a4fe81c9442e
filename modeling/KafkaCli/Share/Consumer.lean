import KafkaCli.Error
import KafkaCli.Lib.Checked
import KafkaCli.Lib.MachineInt
import KafkaCli.Lib.Session
import KafkaCli.Lib.SortedMap
import KafkaCli.Lib.Text
import Std.Data.TreeSet.Lemmas

/-!
# The verifiable share consumer

`verifiable_share_consumer` polls a share group and acknowledges each record by a pattern from the
command line, which it goes through again whenever a record is delivered again after a renewal.

A run is a session with the share consumer of the client library and with the terminal.
-/

namespace KafkaCli.Share

open Checked Session Text

inductive ShareAcknowledgeType
  | accept | release | reject | renew
  deriving DecidableEq, Repr

/-- The name of a type in capital letters. -/
def ShareAcknowledgeType.name : ShareAcknowledgeType → String
  | .accept => "ACCEPT"
  | .release => "RELEASE"
  | .reject => "REJECT"
  | .renew => "RENEW"

/-! ## The pattern -/

/-- One item of a pattern. -/
def parseAckType (item : String) : Result ShareAcknowledgeType :=
  match toAsciiLowercase (trim item) with
  | "accept" => .ok .accept
  | "release" => .ok .release
  | "reject" => .ok .reject
  | "renew" => .ok .renew
  | other => .error (.usage
    s!"invalid acknowledgement type '{other}'; expected accept, release, reject, or renew")

/-- `parse_ack_pattern`. -/
def parseAckPattern (value : Option String) : Result (List ShareAcknowledgeType) :=
  match value.filter (· ≠ "") with
  | none => .ok []
  | some value => do
    let pattern ← (split value ',').mapM parseAckType
    failIf (∀ kind ∈ pattern, kind = .renew)
      (.usage "--ack-pattern must contain at least one non-renew type")
    return pattern

theorem parseAckPattern_ok {value : Option String} {pattern : List ShareAcknowledgeType}
    (h : parseAckPattern value = .ok pattern) (hne : pattern ≠ []) :
    ∃ kind ∈ pattern, kind ≠ .renew := by
  rw [parseAckPattern] at h
  cases hvalue : value.filter (· ≠ "") with
  | none =>
    rw [hvalue, Except.ok.injEq] at h
    exact absurd h.symm hne
  | some text =>
    simp only [hvalue, bind_eq_ok, failIf_eq_ok, pure_eq_ok] at h
    obtain ⟨parsed, -, -, hmixed, rfl⟩ := h
    simpa using hmixed

/-! ## Calls -/

structure ShareRecord where
  topic : String
  partition : Int
  offset : Int
  key : Option (List UInt8)
  value : Option (List UInt8)
  deriving DecidableEq, Repr

/-- What names a record: its topic, its partition and its offset. -/
abbrev RecordKey := String × Int × Int

def ShareRecord.recordKey (record : ShareRecord) : RecordKey :=
  (record.topic, record.partition, record.offset)

/-- What was received from one partition. -/
structure PartitionSummary where
  topic : String
  partition : Int
  count : Nat
  offsets : List Int
  deriving DecidableEq, Repr

/-- The events that are printed; a time stamp is added to each. -/
inductive VerifiableEvent
  | shutdownRequested
  | recordData (key value : Option String) (topic : String) (partition offset : Int)
  | recordsConsumed (count : Nat) (partitions : List PartitionSummary)
  | offsetsAcknowledged (count : Nat) (partitions : List PartitionSummary) (success : Bool)
      (error : Option String) (ackTypeCounts : Option (List (String × Int)))
  deriving DecidableEq

inductive Call
  /-- Wait for records, or for an interrupt. -/
  | poll (timeoutMs : Nat)
  | acknowledge (record : ShareRecord) (kind : ShareAcknowledgeType)
  | commitSync
  | print (event : VerifiableEvent)
  deriving DecidableEq

/-- What comes back for a call; from a poll, nothing when it was interrupted. -/
@[reducible] def Reply : Call → Type
  | .poll _ => Option (List ShareRecord)
  | _ => Unit

abbrev Command := Client Reply Fault

/-! ## The loop -/

/-- The index in the pattern that is next for a record which was renewed. -/
abbrev RenewIndices := Std.TreeMap RecordKey Nat

/-- What is known while the records of one poll are acknowledged. -/
structure Consumed where
  partitions : Std.TreeMap (String × Int) (Std.TreeSet Int)
  ackCounts : Std.TreeMap String Int
  renewIndices : RenewIndices

def Consumed.start (renewIndices : RenewIndices) : Consumed :=
  { partitions := ∅, ackCounts := ∅, renewIndices }

structure RunState where
  totalAcknowledged : Int
  renewIndices : RenewIndices

def RunState.start : RunState := { totalAcknowledged := 0, renewIndices := ∅ }

def verifiablePartitionSummaries (partitions : Std.TreeMap (String × Int) (Std.TreeSet Int)) :
    List PartitionSummary :=
  partitions.toList.map fun ((topic, partition), offsets) =>
    { topic, partition, count := offsets.size, offsets := offsets.toList }

/-- Where a record that was not renewed starts in the pattern. -/
def initialIndex (pattern : List ShareAcknowledgeType) (offset : Int) :
    Except Fault Nat := do
  failIf (¬ pattern.length < 2 ^ 63) (.failed (.usage "--ack-pattern is too long"))
  failIf (offset % pattern.length < 0)
    (.failed (.usage "acknowledgement pattern index overflow"))
  return (offset % pattern.length).toNat

theorem initialIndex_ok {pattern : List ShareAcknowledgeType} {offset : Int} {initial : Nat}
    (h : initialIndex pattern offset = .ok initial) :
    initial = (offset % pattern.length).toNat := by
  simp only [initialIndex, bind_eq_ok, pure_eq_ok] at h
  obtain ⟨_, -, _, -, hinitial⟩ := h
  exact hinitial.symm

/-- `pattern[index]`, which panics past the end. -/
def kindAt (pattern : List ShareAcknowledgeType) (index : Nat) :
    Except Fault ShareAcknowledgeType :=
  pattern[index]?.elim (.error .panicked) .ok

theorem kindAt_ok {pattern : List ShareAcknowledgeType} {index : Nat}
    {kind : ShareAcknowledgeType} (h : kindAt pattern index = .ok kind) :
    pattern[index]? = some kind := by
  rw [kindAt] at h
  cases hget : pattern[index]? with
  | none => simp [hget] at h
  | some kind' => simpa [hget] using h

variable (server : Server Reply Fault)

/-- Acknowledge a record with the kind that is its turn. The index of a new record is entered
before the call, and removed after it unless the record was renewed. -/
def acknowledgeRecord (pattern : List ShareAcknowledgeType) (consumed : Consumed)
    (record : ShareRecord) : Command Consumed := do
  let key := record.recordKey
  let initial ← ofExcept (initialIndex pattern record.offset)
  let renewIndices := consumed.renewIndices.insertIfNew key initial
  let index := renewIndices.getD key initial
  let kind ← ofExcept (kindAt pattern index)
  ask server (.acknowledge record kind)
  return { consumed with
    ackCounts := consumed.ackCounts.alter kind.name fun count => some (count.getD 0 + 1)
    renewIndices :=
      if kind = .renew then renewIndices.insert key ((index + 1) % pattern.length)
      else renewIndices.erase key }

/-- The body of the loop over the records of a poll. -/
def consumeRecord (pattern : List ShareAcknowledgeType) (verbose : Bool) (consumed : Consumed)
    (record : ShareRecord) : Command Consumed := do
  let consumed := { consumed with
    partitions := consumed.partitions.alter (record.topic, record.partition) fun offsets =>
      some ((offsets.getD ∅).insert record.offset) }
  if verbose then
    ask server (.print (.recordData (record.key.map fromUtf8Lossy) (record.value.map fromUtf8Lossy)
      record.topic record.partition record.offset))
  if pattern.isEmpty then return consumed
  acknowledgeRecord server pattern consumed record

/-- The error of `commit_sync`, if it fails. -/
def commitFailure : Command (Option Error) :=
  tryCatch (do ask server .commitSync; return none) fun
    | .failed error => return some error
    | .panicked => throw .panicked

/-- Send the acknowledgements of a poll and report on them. A failure is reported before it ends
the run. -/
def commitRecords (pattern : List ShareAcknowledgeType) (count : Nat)
    (summaries : List PartitionSummary) (ackCounts : Std.TreeMap String Int) : Command Unit := do
  match ← commitFailure server with
  | none =>
    ask server (.print (.offsetsAcknowledged count summaries true none
      (if pattern.isEmpty then none else some ackCounts.toList)))
  | some error =>
    ask server (.print (.offsetsAcknowledged 0 [] false (some error.text) none))
    throw (.failed error)

/-- The body of the outer loop on the records of a poll. -/
def consumeRecords (pattern : List ShareAcknowledgeType) (verbose : Bool) (state : RunState)
    (records : List ShareRecord) : Command RunState := do
  if records.isEmpty then return state
  let consumed ← records.foldlM (consumeRecord server pattern verbose) (.start state.renewIndices)
  let summaries := verifiablePartitionSummaries consumed.partitions
  ask server (.print (.recordsConsumed records.length summaries))
  commitRecords server pattern records.length summaries consumed.ackCounts
  ofExcept (failIf (¬ records.length < 2 ^ 63) (.failed (.config "too many consumed records")))
  return { totalAcknowledged := wrap64 (state.totalAcknowledged + records.length)
           renewIndices := consumed.renewIndices }

/-- `run_verifiable_share_consumer` for as many polls. The state is what the loop goes on with;
there is none where the function has returned. -/
def runVerifiableShareConsumer (maxMessages : Int) (pattern : List ShareAcknowledgeType)
    (verbose : Bool) : (polls : Nat) → RunState → Command (Option RunState)
  | 0, state => return some state
  | polls + 1, state => do
    if maxMessages < 0 ∨ state.totalAcknowledged < maxMessages then
      match ← ask server (.poll 5000) with
      | none =>
        ask server (.print .shutdownRequested)
        return none
      | some records =>
        let next ← consumeRecords server pattern verbose state records
        runVerifiableShareConsumer maxMessages pattern verbose polls next
    else return none

end KafkaCli.Share
