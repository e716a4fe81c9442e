import KafkaCli.Reassign.Calls

/-!
# Execution of plans

`reassign execute`: the checks of a plan against the cluster, the throttles of the brokers that
take part, the request that starts the movements between brokers, and the requests that move
replicas to log directories.
-/

namespace KafkaCli.Reassign

open Checked Run Session
open Groups (MutationRow durationMs)

structure ExecuteArgs where
  reassignmentJsonFile : String
  additional : Bool
  disallowReplicationFactorChange : Bool
  throttle : Option Nat
  replicaAlterLogDirsThrottle : Option Nat
  execute : Bool

/-! ## Throttles -/

/-- The texts of the replicas of a partition. -/
def addReplicas (replicas : Std.TreeSet String) (partition : Int) (brokers : Std.TreeSet Int) :
    Std.TreeSet String :=
  replicas.insertMany (brokers.toList.map fun broker => s!"{partition}:{broker}")

/-- The leaders and the followers of each topic that take part in a movement. -/
def topicValues (moves : ReassignmentMoveMap) :
    Std.TreeMap String (Std.TreeSet String × Std.TreeSet String) :=
  moves.toList.foldl (fun values ((topic, partition), movement) =>
    let (leaders, followers) := values.getD topic (∅, ∅)
    values.insert topic (addReplicas leaders partition movement.sources,
      addReplicas followers partition movement.destinations)) ∅

/-- The brokers that take part in a movement. -/
def movingBrokers (moves : ReassignmentMoveMap) : Std.TreeSet Int :=
  moves.toList.foldl (fun brokers (_, movement) =>
    (brokers.insertMany movement.sources.toList).insertMany movement.destinations.toList) ∅

/-- The settings that throttle the replicas of a topic. -/
def throttledReplicas (leaders followers : Std.TreeSet String) : List (String × String) :=
  [("leader.replication.throttled.replicas", ",".intercalate leaders.toList),
   ("follower.replication.throttled.replicas", ",".intercalate followers.toList)]

/-- The settings that throttle the replication of a broker. -/
def throttledRate (rate : String) : List (String × String) :=
  [("leader.replication.throttled.rate", rate), ("follower.replication.throttled.rate", rate)]

variable (host : Host)

/-- `apply_reassignment_throttles`, where `--throttle` is given. -/
def throttleReplication (moves : ReassignmentMoveMap) (timeoutMs : Int) (rate : Nat) :
    Command Unit := do
  let rate ← ofExcept (checkedThrottle rate "--throttle")
  forM (topicValues moves).toList fun (topic, leaders, followers) =>
    incrementalAlterConfig host .topic topic (throttledReplicas leaders followers) [] timeoutMs
  forM (movingBrokers moves).toList fun broker =>
    incrementalAlterConfig host .broker (toString broker) (throttledRate rate) [] timeoutMs

/-- `apply_reassignment_throttles`, where `--replica-alter-log-dirs-throttle` is given. -/
def throttleLogDirs (plan : ReassignmentFile) (timeoutMs : Int) (rate : Nat) : Command Unit := do
  let rate ← ofExcept (checkedThrottle rate "--replica-alter-log-dirs-throttle")
  forM (brokerLogDirPlan plan).keys fun broker =>
    incrementalAlterConfig host .broker (toString broker)
      [("replica.alter.log.dirs.io.max.bytes.per.second", rate)] [] timeoutMs

/-- Use the rate of an option that is given. -/
def withRate (rate : Option Nat) (throttle : Nat → Command Unit) : Command Unit :=
  match rate with
  | none => pure ()
  | some rate => throttle rate

def applyReassignmentThrottles (timeout : Nat) (plan : ReassignmentFile)
    (running : List PartitionReassignmentInfo) (interBroker logDirs : Option Nat) :
    Command Unit :=
  if interBroker = none ∧ logDirs = none then pure () else do
    let current ← fetchCurrentReplicas host plan
    let moves ← ofExcept (reassignmentMoveMap plan running current)
    host.ask .createAdmin
    let timeoutMs ← ofExcept (liftResult (durationMs timeout))
    withRate interBroker (throttleReplication host moves timeoutMs)
    withRate logDirs (throttleLogDirs host plan timeoutMs)

/-! ## Movements -/

/-- The partitions of each topic of a plan, without their replicas if they are to be cancelled. -/
def reassignmentTopics (plan : ReassignmentFile) (cancel : Bool) : List ReassignableTopic :=
  let topics : Std.TreeMap String (List ReassignablePartition) :=
    plan.partitions.foldl (fun topics partition => Multimap.push topics partition.topic
      { partitionIndex := partition.partition
        replicas := if cancel then none else some partition.replicas }) ∅
  topics.toList.map fun (name, partitions) => { name, partitions }

def reassignmentResultRows (result : AlterReassignmentsResult) (successStatus : String) :
    List MutationRow :=
  (result.topics.flatMap fun topic => topic.partitions.map fun (partition, error) =>
    { resource := s!"{topic.name}:{partition}"
      status := if error.isSome then "FAILED" else successStatus
      error }) ++
  (result.error.map fun error =>
    { resource := "reassignment-request", status := "FAILED", error := some error }).toList

def planRows (plan : ReassignmentFile) (status : String) : List MutationRow :=
  plan.partitions.map fun partition =>
    { resource := partition.target.text, status, error := none }

def writeReassignmentMutationRows (command : String) (plan : ReassignmentFile) (status : String) :
    Command Unit := host.ask (.print (.mutationRows command (planRows plan status)))

/-- The broker of a movement in the description of the cluster. -/
def describedBroker (cluster : List ClusterBroker) (brokerId : Int) :
    Except Failure ClusterBroker :=
  (cluster.find? (·.brokerId = brokerId)).elim (.error (.check (.undescribed brokerId))) .ok

def logDirRow (brokerId : Int) (result : LogDirResult) : MutationRow where
  resource := s!"broker:{brokerId}:{result.topic}:{result.partition}"
  status := if result.errorCode = 0 then "LOG_DIR_MOVED" else "FAILED"
  error := if result.errorCode ≠ 0 then some s!"Kafka error code {result.errorCode}" else none

/-- Ask a broker to move replicas to its log directories. -/
def moveLogDirs (cluster : List ClusterBroker) (rows : List MutationRow)
    (entry : Int × Std.TreeMap String (Std.TreeMap String (List Int))) :
    Command (List MutationRow) := do
  let (brokerId, directories) := entry
  let broker ← ofExcept (describedBroker cluster brokerId)
  host.ask (.connect brokerId s!"{broker.host}:{broker.port}")
  ofExcept (liftResult (failIf (¬ directories.size < 2 ^ 31)
    (.usage "too many replica log directories")))
  let results : List LogDirResult ← host.ask (.alterReplicaLogDirs brokerId
    (directories.toList.map fun (logDir, topics) => (logDir, topics.toList)))
  return rows ++ results.map (logDirRow brokerId)

def alterReassignmentLogDirs (plan : ReassignmentFile) : Command (List MutationRow) :=
  let moves := brokerLogDirPlan plan
  if moves.isEmpty then pure [] else do
    let cluster : List ClusterBroker ← host.ask .describeCluster
    moves.toList.foldlM (moveLogDirs host cluster) []

/-! ## The command -/

/-- The end of a command, given its rows: the rows that failed are counted. -/
def failedRows (rows : List MutationRow) : Nat := (rows.filter (·.error.isSome)).length

/-- `reassign execute`, once the movements between brokers are requested. -/
def afterRequest (plan : ReassignmentFile) (result : AlterReassignmentsResult) : Command Unit := do
  let rows := reassignmentResultRows result "STARTED"
  if failedRows rows = 0 then
    let logDirRows ← alterReassignmentLogDirs host plan
    if failedRows logDirRows ≠ 0 then
      host.ask (.print (.mutationRows "reassign.execute.log-dirs" logDirRows))
      throw (.other (.partialFailure (failedRows logDirRows) plan.partitions.length))
    else writeReassignmentMutationRows host "reassign.execute" plan "STARTED"
  else
    host.ask (.print (.mutationRows "reassign.execute" rows))
    throw (.other (.partialFailure (failedRows rows) plan.partitions.length))

def rejectReplicationFactorChanges (plan : ReassignmentFile) : Command Unit := do
  let current ← fetchCurrentReplicas host plan
  ofExcept (validateReplicationFactors plan current)

/-- `reassign execute`, once the replication factors are checked. -/
def startReassignment (timeout : Nat) (args : ExecuteArgs) (plan : ReassignmentFile)
    (active : List PartitionReassignmentInfo) : Command Unit := do
  applyReassignmentThrottles host timeout plan active args.throttle args.replicaAlterLogDirsThrottle
  let result : AlterReassignmentsResult ←
    host.ask (.alterPartitionReassignments (reassignmentTopics plan false))
  afterRequest host plan result

/-- `reassign execute --execute`, once the plan is read. -/
def executePlan (timeout : Nat) (args : ExecuteArgs) (plan : ReassignmentFile) : Command Unit := do
  host.ask .protocolAdmin
  let active : List PartitionReassignmentInfo ← host.ask .listPartitionReassignments
  ofExcept (liftResult (failIf (args.additional = false ∧ reassignmentCount active ≠ 0)
    (.usage <| "cannot execute while a partition reassignment is active; " ++
      "use --additional to add to the existing reassignment")))
  if args.disallowReplicationFactorChange then rejectReplicationFactorChanges host plan
  startReassignment host timeout args plan active

/-- `reassign execute`. -/
def executeReassignment (timeout : Nat) (args : ExecuteArgs) : Command Unit := do
  let plan ← ofExcept (liftResult (readReassignment (host.readPlanFile args.reassignmentJsonFile)))
  if args.execute then executePlan host timeout args plan
  else writeReassignmentMutationRows host "reassign.execute" plan "PREVIEW EXECUTE"

end KafkaCli.Reassign
