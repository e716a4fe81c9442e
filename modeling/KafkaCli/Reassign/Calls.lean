import KafkaCli.Groups.Calls
import KafkaCli.Reassign.Moves

/-!
# Calls of the reassignment commands

What `kafka-cli reassign` asks of its client libraries and of the terminal, as sessions.
-/

namespace KafkaCli.Reassign

open Checked Run Session
open Groups (MutationRow durationMs checkNul)

/-! ## Data -/

/-- A broker in the description of the cluster. -/
structure ClusterBroker where
  brokerId : Int
  host : String
  port : Int
  rack : Option String
  deriving DecidableEq, Repr

structure ReassignablePartition where
  partitionIndex : Int
  replicas : Option (List Int)
  deriving DecidableEq, Repr

structure ReassignableTopic where
  name : String
  partitions : List ReassignablePartition
  deriving DecidableEq, Repr

/-- What became of the reassignment of a topic: its partitions, each with its error if any. -/
structure ReassignmentResultTopic where
  name : String
  partitions : List (Int × Option String)
  deriving DecidableEq, Repr

structure AlterReassignmentsResult where
  topics : List ReassignmentResultTopic
  error : Option String
  deriving DecidableEq, Repr

/-- What became of the movement of a replica to a log directory. -/
structure LogDirResult where
  topic : String
  partition : Int
  errorCode : Int
  deriving DecidableEq, Repr

/-- A replica in a log directory, or one that is still on its way to it. -/
structure LogDirPartition where
  partitionIndex : Int
  isFutureKey : Bool
  deriving DecidableEq, Repr

/-- A log directory of a broker, with the partitions of each topic in it. -/
structure LogDirDescription where
  brokerId : Int
  topics : List (String × List LogDirPartition)
  deriving DecidableEq, Repr

/-- How far a target of a plan is. -/
structure ReassignmentStatus where
  topic : String
  partition : Int
  replicas : List Int
  addingReplicas : List Int
  removingReplicas : List Int
  complete : Bool
  deriving DecidableEq, Repr

inductive ResourceType
  | topic | broker
  deriving DecidableEq, Repr

inductive Output
  | proposal (file : ReassignmentFile)
  | mutationRows (command : String) (rows : List MutationRow)
  | reassignmentStatuses (rows : List ReassignmentStatus)
  deriving DecidableEq

/-! ## Calls -/

inductive Call
  | createAdmin
  | createConsumer
  | fetchMetadata
  | protocolAdmin
  | describeCluster
  | listPartitionReassignments
  | alterPartitionReassignments (topics : List ReassignableTopic)
  | incrementalAlterConfig (resource : ResourceType) (name : String)
      (entries : List (String × String)) (deletes : List String) (timeoutMs : Int)
  | connect (brokerId : Int) (address : String)
  | alterReplicaLogDirs (brokerId : Int) (directories : List (String × List (String × List Int)))
  | describeLogDirs (topics : List (String × List Int))
  | print (output : Output)
  deriving DecidableEq

/-- What comes back for a call. -/
@[reducible] def Reply : Call → Type
  | .fetchMetadata => Metadata
  | .describeCluster => List ClusterBroker
  | .listPartitionReassignments => List PartitionReassignmentInfo
  | .alterPartitionReassignments _ => AlterReassignmentsResult
  | .alterReplicaLogDirs _ _ => List LogDirResult
  | .describeLogDirs _ => List LogDirDescription
  | .createAdmin | .createConsumer | .protocolAdmin | .incrementalAlterConfig _ _ _ _ _
  | .connect _ _ | .print _ => Unit

/-- A call changes something in the cluster. -/
def Call.Mutating : Call → Prop
  | .alterPartitionReassignments _ | .incrementalAlterConfig _ _ _ _ _
  | .alterReplicaLogDirs _ _ => True
  | _ => False

/-- What a command runs against. -/
structure Host where
  /-- The client libraries, with the cluster behind them. They make none of the tool's checks. -/
  answer : Transcript Reply Failure → (call : Call) → Except Error (Reply call)
  /-- The topics of a file of topics to move. -/
  readTopicsToMove : String → Result (List String)
  /-- A plan as it is in a file. -/
  readPlanFile : String → Result ReassignmentFile

def Host.server (host : Host) : Server Reply Failure := fun t call =>
  (host.answer t call).mapError .other

abbrev Command := Client Reply Failure

variable (host : Host)

def Host.ask (call : Call) : Command (Reply call) := Session.ask host.server call

/-- Go on with a result, or fail with its error. -/
def liftResult {α : Type} (result : Result α) : Except Failure α := result.mapError .other

/-! ## Wrappers -/

/-- The replicas of the targets of a plan, by the metadata of a new consumer. -/
def fetchCurrentReplicas (plan : ReassignmentFile) : Command ReplicaMap := do
  host.ask .createConsumer
  let metadata : Metadata ← host.ask .fetchMetadata
  return currentReplicas plan metadata

/-- The texts of a change, each of which is handed to C. -/
def checkConfigTexts (name : String) (entries : List (String × String)) (deletes : List String) :
    Result Unit := do
  checkNul name "resource name contains a NUL byte"
  entries.forM fun (key, value) => do
    checkNul key "config key contains a NUL byte"
    checkNul value "config value contains a NUL byte"
  deletes.forM fun key => checkNul key "config key contains a NUL byte"

def incrementalAlterConfig (resource : ResourceType) (name : String)
    (entries : List (String × String)) (deletes : List String) (timeoutMs : Int) :
    Command Unit := do
  ofExcept (liftResult (checkConfigTexts name entries deletes))
  host.ask (.incrementalAlterConfig resource name entries deletes timeoutMs)

/-! ## What only reads -/

/-- An exchange that changes nothing. -/
def Harmless (_ : Transcript Reply Failure) (exchange : Exchange Reply Failure) : Prop :=
  ¬ exchange.request.Mutating

/-- No run of the program asks for a change. -/
abbrev ReadOnly {α : Type} (program : Command α) : Prop := Moves (Follows Harmless) program

theorem readOnly_ask {call : Call} (h : ¬ call.Mutating) : ReadOnly (host.ask call) :=
  moves_ask fun _ _ => h

theorem readOnly_fetchCurrentReplicas (plan : ReassignmentFile) :
    ReadOnly (fetchCurrentReplicas host plan) :=
  .bind (readOnly_ask host not_false) fun _ => .bind (readOnly_ask host not_false) fun _ => .pure _

/-! ## A small cluster -/

def ordersTopic : MetadataTopic where
  name := "orders"
  partitions := [{ id := 0, replicas := [1, 2] }, { id := 1, replicas := [2, 1] }]

def ordersMetadata : Metadata := { brokers := [1, 2, 3], topics := [ordersTopic] }

def rackBrokers : List ClusterBroker :=
  [{ brokerId := 1, host := "a", port := 9092, rack := some "r1" },
   { brokerId := 2, host := "b", port := 9092, rack := some "r1" },
   { brokerId := 3, host := "c", port := 9092, rack := some "r2" }]

/-- A cluster with two racks that answers every call, and a plan for it. -/
def ordersHost (plan : ReassignmentFile) : Host where
  answer _ call := match call with
    | .fetchMetadata => .ok ordersMetadata
    | .describeCluster => .ok rackBrokers
    | .listPartitionReassignments => .ok []
    | .alterPartitionReassignments _ => .ok { topics := [], error := none }
    | .alterReplicaLogDirs _ _ => .ok []
    | .describeLogDirs _ => .ok []
    | .createAdmin | .createConsumer | .protocolAdmin | .incrementalAlterConfig _ _ _ _ _
    | .connect _ _ | .print _ => .ok ()
  readTopicsToMove _ := .ok ["orders"]
  readPlanFile _ := .ok plan

end KafkaCli.Reassign
