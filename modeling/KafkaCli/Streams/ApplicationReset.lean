import KafkaCli.Streams.Workflows

/-!
# Resetting an application

`streams_application_reset` makes an application start over. It removes active members, moves the
offsets of the input and intermediate topics, and deletes the internal topics. With `--dry-run`
the new offsets are not sent and no topic is deleted.
-/

namespace KafkaCli.Streams

open Checked Decimal Groups Text

structure StreamsApplicationResetArgs where
  applicationId : String
  inputTopics : List String := []
  intermediateTopics : List String := []
  internalTopics : List String := []
  toOffset : Option Int := none
  toDatetime : Option String := none
  byDuration : Option String := none
  toEarliest : Bool := false
  toLatest : Bool := false
  fromFile : Option String := none
  shiftBy : Option Int := none
  dryRun : Bool := false
  force : Bool := false

variable (host : Host) (timeout : Nat) (args : StreamsApplicationResetArgs)

/-! ## Active members -/

def stillActive (members : Nat) : Error :=
  let group := args.applicationId
  .usage (s!"consumer group '{group}' is still active with {members} member(s); " ++
    "stop all application instances or use --force")

/-- Remove the members of the application's group, where it has any. -/
def evictMembers : Command Unit := do
  let descriptions : List ConsumerGroupDescription ←
    describeConsumerGroups host [args.applicationId] timeout
  let description ← ofExcept (descriptions.getLast?.elim
    (.error (Error.config "broker omitted consumer group description")) .ok)
  if description.members = [] then return ()
  else do
    ofExcept (failIf (!args.force) (stillActive args description.members.length))
    host.ask .protocolAdmin
    forceRemoveConsumerGroupMembers host args.applicationId description.members

/-- The application's group has no members, or they are removed. -/
def ensureInactive : Command Unit := do
  let listings : List ConsumerGroupListing ← listConsumerGroups host timeout
  if ∃ listing ∈ listings, listing.group = args.applicationId then evictMembers host timeout args
  else return ()

/-! ## A plan from a file -/

/-- The offsets of a plan by topic and partition. -/
abbrev ResetPlan := List ((String × Int) × Int)

def readApplicationResetRow (rows : ResetPlan) (record : Except String (List String) × Nat) :
    Result ResetPlan := do
  let index := record.2
  let record ← record.1.mapError fun error =>
    Error.usage s!"invalid reset CSV line {index + 1}: {error}"
  let field (i : Nat) : String := record.getD i ""
  failIf (record.length ≠ 3)
    (.usage s!"reset CSV line {index + 1} must contain TOPIC,PARTITION,OFFSET")
  let topic := field 0
  let partition ← parseCsvNumber parseI32 (field 1) index "partition"
  let offset ← parseCsvNumber parseI64 (field 2) index "offset"
  failIf (topic = "" ∨ partition < 0 ∨ offset < 0) (.usage
    s!"reset CSV line {index + 1} requires a topic and non-negative partition/offset")
  failIf (rows.lookup (topic, partition) ≠ none)
    (.usage s!"duplicate reset CSV target {topic}:{partition}")
  return rows ++ [((topic, partition), offset)]

def readStreamsApplicationResetPlan (path : String) : Result ResetPlan := do
  let records ← (host.readCsv path).mapError fun error =>
    Error.usage s!"cannot read reset CSV: {error}"
  let rows ← records.zipIdx.foldlM readApplicationResetRow []
  failIf (rows = []) (.usage "reset CSV is empty")
  return rows

/-! ## Topics -/

/-- The names of a list of arguments. -/
def topicSet (values : List String) : Std.TreeSet String :=
  .ofList ((values.map trim).filter (· ≠ ""))

/-- The topics that there are. -/
def availableTopics (metadata : List TopicMetadata) : Std.TreeSet String :=
  .ofList ((metadata.filter (·.error.isNone)).map (·.name))

/-- The internal topics that are selected: all inferred ones, or some of them. -/
def selectInternalTopics (inferred : Std.TreeSet String) : Result (Std.TreeSet String) :=
  if args.internalTopics = [] then .ok inferred
  else
    let selected : Std.TreeSet String := .ofList (args.internalTopics.map trim)
    let application := args.applicationId
    match selected.toList.find? (· ∉ inferred) with
    | some invalid => .error (.usage (s!"internal topic '{invalid}' is not an inferred internal " ++
        s!"topic for application '{application}'"))
    | none => .ok selected

/-- What is done to the offsets of a topic. -/
def resetAction (isInput : Bool) : String := if isInput then "RESET-OFFSET" else "SEEK-TO-END"

/-- A partition whose offset is moved, with whether its topic is an input topic. -/
abbrev ResetPartition := String × Int × Bool

/-- The partitions of a topic; a topic that is not there has a row instead. -/
def topicPartitions (metadata : List TopicMetadata) (available inputTopics : Std.TreeSet String)
    (topic : String) : Result (List StreamsApplicationResetRow × List ResetPartition) := do
  let isInput := decide (topic ∈ inputTopics)
  if topic ∉ available then
    return ([{ action := resetAction isInput, resource := topic, partition := none, offset := none
               status := "FAILED", error := some "topic not found" }], [])
  else do
    let found ← (metadata.find? (·.name = topic)).elim
      (.error (Error.config s!"metadata omitted topic {topic}")) .ok
    return ([], found.partitions.map fun partition => (topic, partition, isInput))

/-! ## Offsets -/

/-- What the new offsets are computed from. -/
structure ResetSources where
  plan : Option ResetPlan
  committed : Option (List PartitionOffset)
  timestampOffsets : Option (List PartitionOffset)

/-- The new offset of an input partition. -/
def inputOffset (sources : ResetSources) (topic : String) (partition : Int)
    (watermarks : Watermarks) : Result Int :=
  match sources.plan, args.toOffset with
  | some plan, _ => (plan.lookup (topic, partition)).elim
      (.error (.usage s!"reset CSV omits input partition {topic}:{partition}"))
      fun offset => .ok (watermarks.clamp offset)
  | none, some offset => .ok (watermarks.clamp offset)
  | none, none =>
    if args.toLatest then .ok watermarks.high
    else
      match args.shiftBy with
      | some shift =>
        let current := (committedOffset sources.committed topic partition).getD watermarks.high
        .ok (watermarks.clamp (saturate64 (current + shift)))
      | none =>
        if sources.timestampOffsets.isSome then
          .ok ((committedOffset sources.timestampOffsets topic partition).getD watermarks.high)
        else .ok watermarks.low

/-- The new offset of a partition. Intermediate topics are moved to their ends. -/
def newOffset (sources : ResetSources) : ResetPartition → Command (String × Int × Int)
  | (topic, partition, isInput) => do
    let watermarks : Watermarks ← host.ask (.fetchWatermarks topic partition)
    let offset ← ofExcept (if isInput then inputOffset args sources topic partition watermarks
      else .ok watermarks.high)
    return (topic, partition, offset)

/-- What the new offsets of the partitions are computed from. -/
def resetSources (plan : Option ResetPlan) (partitions : List ResetPartition) :
    Command ResetSources := do
  let requested := partitions.map fun (topic, partition, _) => (topic, partition)
  let committed ← committedOffsets host args.shiftBy.isSome requested
  let timestamp ← resetTimestamp host args.toDatetime args.byDuration
  let inputs := (partitions.filter (·.2.2)).map fun (topic, partition, _) => (topic, partition)
  let timestampOffsets ← offsetsForTimes host timestamp inputs
  return { plan, committed, timestampOffsets }

/-- The row of a partition whose offset is moved. -/
def changeRow (partition : ResetPartition) (change : String × Int × Int) :
    StreamsApplicationResetRow where
  action := resetAction partition.2.2
  resource := partition.1
  partition := some partition.2.1
  offset := some change.2.2
  status := if args.dryRun then "PREVIEW" else "UPDATED"
  error := none

/-! ## The command -/

/-- What the command is going to do, with the rows of topics that are not there. -/
structure ResetPreparation where
  internalTopics : List String
  missing : List StreamsApplicationResetRow
  partitions : List ResetPartition
  sources : ResetSources

/-- Everything that is asked for before the first offset is computed. -/
def prepareReset : Command ResetPreparation := do
  let inputTopics := topicSet args.inputTopics
  let intermediateTopics := topicSet args.intermediateTopics
  let plan ← ofExcept (if inputTopics.isEmpty then .ok none
    else args.fromFile.mapM (readStreamsApplicationResetPlan host))
  host.ask (.createConsumer [("group.id", args.applicationId), ("enable.auto.commit", "false"),
    ("group.protocol", "classic")])
  let metadata : List TopicMetadata ← host.ask (.fetchMetadata none)
  let available := availableTopics metadata
  let inferred := inferredStreamsInternalTopics host args.applicationId available.toList inputTopics
    intermediateTopics
  let internalTopics ← ofExcept (selectInternalTopics args inferred)
  let topics ← ofExcept ((inputTopics.insertMany intermediateTopics.toList).toList.mapM
    (topicPartitions metadata available inputTopics))
  let partitions := topics.flatMap (·.2)
  let sources ← resetSources host args plan partitions
  return { internalTopics := internalTopics.toList, missing := topics.flatMap (·.1), partitions,
           sources }

/-- Delete the internal topics, or say which ones would be deleted. -/
def deleteInternalTopics (topics : List String) : Command (List StreamsApplicationResetRow) := do
  let row (topic status : String) (error : Option String) : StreamsApplicationResetRow :=
    { action := "DELETE-INTERNAL-TOPIC", resource := topic, partition := none, offset := none
      status, error }
  if topics = [] then return []
  else if args.dryRun then return topics.map (row · "PREVIEW" none)
  else do
    let results : List (Except (String × String) String) ←
      host.ask (.deleteTopics args.applicationId topics)
    return (topics.zip results).map fun (topic, result) =>
      match result with
      | .ok _ => row topic "DELETED" none
      | .error (_, code) => row topic "FAILED" (some code)

/-- Compute and send the new offsets, and delete the internal topics. -/
def applyReset (preparation : ResetPreparation) : Command (List StreamsApplicationResetRow) := do
  let changes ← preparation.partitions.mapM (newOffset host args preparation.sources)
  (if !args.dryRun ∧ changes ≠ [] then
    alterConsumerGroupOffsets host args.applicationId changes timeout else pure ⟨⟩)
  let deleted ← deleteInternalTopics host args preparation.internalTopics
  return preparation.missing ++ preparation.partitions.zipWith (changeRow args) changes ++ deleted

def streamsApplicationReset : Command PUnit := do
  admin host
  ensureInactive host timeout args
  let preparation ← prepareReset host args
  let rows ← applyReset host timeout args preparation
  host.ask (.print (.applicationResetRows rows))
  ofExcept (partialFailure (rows.map (·.error)))

/-! ## What only reads -/

section ReadOnly

open Run

theorem readOnly_resetSources (plan : Option ResetPlan) (partitions : List ResetPartition) :
    ReadOnly (resetSources host args plan partitions) := by
  refine .bind (readOnly_committedOffsets host _ _) fun _ => ?_
  refine .bind (readOnly_resetTimestamp host _ _) fun _ => ?_
  exact .bind (readOnly_offsetsForTimes host _ _) fun _ => .pure _

theorem readOnly_prepareReset : ReadOnly (prepareReset host args) := by
  refine .bind (.ofExcept _) fun _ => .bind (readOnly_ask host not_false) fun _ => ?_
  refine .bind (readOnly_ask host not_false) fun _ => .bind (.ofExcept _) fun _ => ?_
  refine .bind (.ofExcept _) fun _ => .bind (readOnly_resetSources host args _ _) fun _ => .pure _

theorem readOnly_newOffset (sources : ResetSources) (partition : ResetPartition) :
    ReadOnly (newOffset host args sources partition) :=
  .bind (readOnly_ask host not_false) fun _ => .bind (.ofExcept _) fun _ => .pure _

end ReadOnly

end KafkaCli.Streams
