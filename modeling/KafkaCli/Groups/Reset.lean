import KafkaCli.Groups.ResetTarget
import KafkaCli.Lib.PlanExecute

/-!
# Resetting the offsets of consumer groups

`reset_offsets` plans the new offsets of one group after the other. With `--execute` the plan of a
group is sent to the cluster before the next group is planned. A plan from a file is read as a
whole first.
-/

namespace KafkaCli.Groups

open Checked Decimal Text PlanExecute

variable (host : Host) (timeout : Nat)

/-! ## Which groups -/

def resolveGroupNames (explicit : List String) (allGroups : Bool) : Command (List String) := do
  if !allGroups then return explicit
  else do
    admin host
    let listings : List ConsumerGroupListing ← listConsumerGroups host timeout
    return listings.map (·.group)

/-- The selected groups that are inactive, and an error for each other one. -/
def classifyResettableGroups (selected : List String) (states : Std.TreeMap String String) :
    List String × List String :=
  let resettable (group : String) : Bool :=
    (states[group]?).all fun state => state = "Empty" || state = "Dead"
  let active (group state : String) : String :=
    s!"assignments can only be reset if group '{group}' is inactive; current state is {state}"
  (selected.filter resettable,
    (selected.filter (!resettable ·)).map fun group => active group (states.getD group ""))

def resettableGroups (selected : List String) : Command (List String × List String) := do
  admin host
  let listings : List ConsumerGroupListing ← listConsumerGroups host timeout
  let states : Std.TreeMap String String := .ofList (listings.map fun l => (l.group, l.state))
  return classifyResettableGroups selected states

/-! ## The plan of a group -/

/-- The offsets that a group is to have: topic, partition and offset. -/
abbrev PlannedOffsets := List (String × Int × Int)

/-- Of a selected topic, the partitions that exist and are selected. -/
def selectPartitions (topic : TopicMetadata) (selected : Option (Std.TreeSet Int)) :
    Result (List Int) := do
  let partitions := topic.partitions.filter fun partition => selected.all (partition ∈ ·)
  let missing := (selected.elim [] (·.toList)).find? (· ∉ partitions)
  missing.elim (.ok partitions) fun partition =>
    .error (.usage s!"partition {topic.name}:{partition} does not exist")

/-- The committed offsets of partitions, where they are needed. -/
def committedOffsets (needed : Bool) (partitions : List (String × Int)) :
    Command (Option (List PartitionOffset)) :=
  if needed then some <$> host.ask (.committedOffsets partitions) else pure none

/-- The offsets of partitions at a point in time, where there is one. -/
def offsetsForTimes (timestamp : Option Int) (partitions : List (String × Int)) :
    Command (Option (List PartitionOffset)) :=
  match timestamp with
  | none => pure none
  | some timestamp => do
    forM partitions fun (topic, partition) =>
      host.ask (.addPartitionOffset topic partition timestamp)
    some <$> host.ask (.offsetsForTimes (partitions.map fun (topic, partition) =>
      (topic, partition, timestamp)))

def planTopic (accepts : TopicMetadata → Bool) (args : ResetOffsetsArgs) (timestamp : Option Int)
    (topicName : String) (selected : Option (Std.TreeSet Int)) : Command PlannedOffsets := do
  let metadata : List TopicMetadata ← host.ask (.fetchMetadata (some topicName))
  let topic ← ofExcept ((metadata.find? fun topic => topic.name = topicName && accepts topic).elim
    (.error (Error.usage s!"topic {topicName} not found")) .ok)
  let partitions ← ofExcept (selectPartitions topic selected)
  let requested := partitions.map (topicName, ·)
  let committed ← committedOffsets host (args.shiftBy.isSome || args.toCurrent) requested
  let timestampOffsets ← offsetsForTimes host timestamp requested
  partitions.mapM fun partition => do
    let watermarks : Watermarks ← host.ask (.fetchWatermarks topicName partition)
    let target ← ofExcept
      (resetTarget args committed timestampOffsets topicName partition watermarks)
    return (topicName, partition, target)

/-- The plan for the selected topics of a group. -/
def planTopics (accepts : TopicMetadata → Bool) (args : ResetOffsetsArgs) (timestamp : Option Int)
    (topics : ResetTopics) : Command PlannedOffsets := do
  let planned ← topics.toList.mapM fun (topicName, selected) =>
    planTopic host accepts args timestamp topicName selected
  return planned.flatten

/-- The topics for which a group has committed offsets. -/
def committedTopics (group : String) : Command ResetTopics := do
  admin host
  let offsets : List PartitionOffset ← listConsumerGroupOffsets host group timeout
  return .ofList (offsets.map fun offset => (offset.topic, none))

/-- The plan of a group. With `--all-topics` a group without committed offsets has none. -/
def planGroup (args : ResetOffsetsArgs) (timestamp : Option Int) (group : String) :
    Command (Option PlannedOffsets) := do
  host.ask (.createConsumer [("group.id", group)])
  if args.allTopics then do
    let topics ← committedTopics host timeout group
    if topics.isEmpty then return none
    else some <$> planTopics host (fun _ => true) args timestamp topics
  else do
    let topics ← ofExcept (parseResetTopics args.topic)
    some <$> planTopics host (fun _ => true) args timestamp topics

/-- Send the plan of a group. -/
def executeGroup (execute : Bool) (group : String) (planned : PlannedOffsets) : Command PUnit := do
  if execute then do
    admin host
    alterConsumerGroupOffsets host group planned timeout
  else return ⟨⟩

def resetRows (planned : List (String × PlannedOffsets)) : List ResetOffsetRow :=
  planned.flatMap fun (group, offsets) =>
    offsets.map fun (topic, partition, newOffset) => { group, topic, partition, newOffset }

/-! ## A plan from a file -/

def parseCsvNumber (parse : String → Except ParseIntError Int) (value : String) (index : Nat)
    (name : String) : Result Int :=
  (parse value).mapError fun _ => Error.usage s!"invalid {name} on reset CSV line {index + 1}"

/-- The fields of a record: group, topic, partition and offset. -/
def readResetRecord (groups : List String) (singleGroup : Bool) (index : Nat)
    (record : List String) : Result (String × String × Int × Int) := do
  let field (i : Nat) : String := record.getD i ""
  if singleGroup ∧ record.length = 3 then do
    let group ← groups.head?.elim (.error (.usage
      "reset CSV uses single-group rows but no group was selected")) .ok
    let partition ← parseCsvNumber parseI32 (field 1) index "partition"
    let offset ← parseCsvNumber parseI64 (field 2) index "offset"
    return (group, field 0, partition, offset)
  else if record.length = 4 then do
    let partition ← parseCsvNumber parseI32 (field 2) index "partition"
    let offset ← parseCsvNumber parseI64 (field 3) index "offset"
    return (field 0, field 1, partition, offset)
  else
    let columns := if singleGroup then "3 or 4" else "4"
    .error (.usage s!"reset CSV line {index + 1} must contain {columns} columns")

/-- The checks of a record next to the groups and the rows before it. -/
def checkResetRecord (groups : List String) (rows : List ResetOffsetRow) (index : Nat)
    (group topic : String) (partition requested : Int) : Result Unit := do
  failIf (group ∉ groups) (.usage s!"reset CSV group {group} was not selected")
  failIf (topic = "" ∨ partition < 0 ∨ requested < 0) (.usage
    s!"reset CSV line {index + 1} requires non-empty topic and non-negative partition/offset")
  failIf (∃ row ∈ rows, row.group = group ∧ row.topic = topic ∧ row.partition = partition)
    (.usage s!"duplicate reset CSV target {group}:{topic}:{partition}")

/-- Take over one record. The rows are those of the records before it. -/
def readResetRow (groups : List String) (singleGroup : Bool) (rows : List ResetOffsetRow)
    (record : Except String (List String) × Nat) : Command (List ResetOffsetRow) := do
  let index := record.2
  let record ← ofExcept (record.1.mapError fun error =>
    Error.usage s!"invalid reset CSV line {index + 1}: {error}")
  let (group, topic, partition, requested) ←
    ofExcept (readResetRecord groups singleGroup index record)
  ofExcept (checkResetRecord groups rows index group topic partition requested)
  let watermarks : Watermarks ← host.ask (.fetchWatermarks topic partition)
  return rows ++ [{ group, topic, partition, newOffset := watermarks.clamp requested }]

def readResetPlan (path : String) (groups : List String) (singleGroup : Bool) :
    Command (List ResetOffsetRow) := do
  let records ← ofExcept ((host.readCsv path).mapError fun error =>
    Error.usage s!"cannot read reset CSV: {error}")
  host.ask (.createConsumer [])
  let rows ← records.zipIdx.foldlM (readResetRow host groups singleGroup) []
  ofExcept (failIf (rows = []) (.usage "reset CSV is empty"))
  return rows

/-- The rows of each group, in the order of the groups. -/
def rowsByGroup (rows : List ResetOffsetRow) : Std.TreeMap String PlannedOffsets :=
  rows.foldl (fun groups row =>
    let entry := (row.topic, row.partition, row.newOffset)
    groups.insert row.group (groups.getD row.group [] ++ [entry])) ∅

def executeResetRows (rows : List ResetOffsetRow) : Command PUnit := do
  admin host
  forM (rowsByGroup rows).toList fun (group, offsets) =>
    alterConsumerGroupOffsets host group offsets timeout

/-- The reset with a plan from a file. -/
def resetFromFile (command : String) (args : ResetOffsetsArgs) (path : String)
    (groups errors : List String) : Command PUnit := do
  let rows ← (if groups = [] then pure []
    else readResetPlan host path groups (args.group.length = 1))
  (if args.execute then executeResetRows host timeout rows else pure ⟨⟩)
  host.ask (.print (.resetRows command rows args.exportCsv (args.group.length = 1) errors))

/-! ## The command -/

/-- The groups whose offsets are reset, with the errors of those that are active. -/
def selectGroups (args : ResetOffsetsArgs) : Command (List String × List String) := do
  ofExcept (validateResetTarget host args)
  let groups ← resolveGroupNames host timeout args.group args.allGroups
  ofExcept (failIf (groups = []) (Error.usage "no consumer groups matched"))
  resettableGroups host timeout groups

def resetOffsets (args : ResetOffsetsArgs) : Command PUnit := do
  let (groups, errors) ← selectGroups host timeout args
  match args.fromFile with
  | some path => resetFromFile host timeout "groups.reset-offsets" args path groups errors
  | none => do
    let timestamp ← resetTimestamp host args.toDatetime args.byDuration
    let planned ← planExecute (planGroup host timeout args timestamp)
      (executeGroup host timeout args.execute) groups
    host.ask (.print (.resetRows "groups.reset-offsets" (resetRows planned) args.exportCsv
      (args.group.length = 1) errors))

end KafkaCli.Groups
