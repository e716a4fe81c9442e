import KafkaCli.Lib.Multimap
import KafkaCli.Reassign.Plan
import Mathlib.Algebra.Group.Nat.Defs
import Mathlib.Algebra.GroupWithZero.Nat

/-!
# What a plan moves

The movements of replicas between brokers, from the plan, the reassignments that are running and
the replicas in the metadata of the cluster; and the movements between log directories of a broker.

The checks that are made on the way are a type of their own, `Check`, so that a failure says which
of them it was.
-/

namespace KafkaCli.Reassign

open Checked

/-! ## Checks -/

/-- A check of the tool that failed. -/
inductive Check
  /-- The rate of an option exceeds the range of a signed 64-bit number. -/
  | rate (option : String)
  /-- The target is in no metadata and in no running reassignment. -/
  | missing (target : TopicPartition)
  /-- The changes of replication factors that are not allowed. -/
  | replicationFactors (changes : List String)
  /-- The broker is not in the description of the cluster. -/
  | undescribed (broker : Int)
  deriving DecidableEq, Repr

def TopicPartition.text (target : TopicPartition) : String := s!"{target.1}:{target.2}"

/-- The error that is returned for a check. -/
def Check.error : Check → Error
  | .rate option => .usage s!"{option} must not exceed {(2 ^ 63 - 1 : Nat)}"
  | .missing target => .usage s!"{target.text} does not exist in cluster metadata"
  | .replicationFactors changes => .usage
    ("--disallow-replication-factor-change rejected the plan: " ++ "; ".intercalate changes)
  | .undescribed broker => .usage s!"broker {broker} was not described"

/-- Why a command fails: a check, or any other error. -/
inductive Failure
  | check (check : Check)
  | other (error : Error)
  deriving DecidableEq, Repr

def Failure.error : Failure → Error
  | .check failed => failed.error
  | .other error => error

/-! ## The cluster -/

structure MetadataPartition where
  id : Int
  replicas : List Int
  deriving DecidableEq, Repr

structure MetadataTopic where
  name : String
  partitions : List MetadataPartition
  deriving DecidableEq, Repr

structure Metadata where
  brokers : List Int
  topics : List MetadataTopic
  deriving DecidableEq, Repr

/-- A reassignment that is running for a partition. -/
structure RunningPartition where
  partitionIndex : Int
  replicas : List Int
  addingReplicas : List Int
  removingReplicas : List Int
  deriving DecidableEq, Repr

structure PartitionReassignmentInfo where
  name : String
  partitions : List RunningPartition
  deriving DecidableEq, Repr

abbrev ReplicaMap := Std.TreeMap TopicPartition (List Int)

/-- `current_replicas`, of the metadata that was fetched: the replicas of the targets of a plan. -/
def currentReplicas (plan : ReassignmentFile) (metadata : Metadata) : ReplicaMap :=
  let targets := plan.partitions.map ReassignmentPartition.target
  .ofList <| metadata.topics.flatMap fun topic =>
    (topic.partitions.filter fun partition => targets.contains (topic.name, partition.id)).map
      fun partition => ((topic.name, partition.id), partition.replicas)

def reassignmentCount (running : List PartitionReassignmentInfo) : Nat :=
  (running.map (·.partitions.length)).sum

/-! ## Replication factors -/

/-- What is wrong with the replication factor of a target. -/
def factorChange (current : ReplicaMap) (target : ReassignmentPartition) : Option String :=
  match current[target.target]? with
  | none => some s!"{target.target.text} does not exist in cluster metadata"
  | some replicas =>
    if replicas.length ≠ target.replicas.length then
      some (s!"{target.target.text} would change replication factor from " ++
        s!"{replicas.length} to {target.replicas.length}")
    else none

def validateReplicationFactors (plan : ReassignmentFile) (current : ReplicaMap) :
    Except Failure Unit :=
  let changes := plan.partitions.filterMap (factorChange current)
  if changes = [] then .ok () else .error (.check (.replicationFactors changes))

/-- Every target is in the metadata with as many replicas as in the plan. -/
def KeepsFactors (plan : ReassignmentFile) (current : ReplicaMap) : Prop :=
  ∀ target ∈ plan.partitions, ∃ replicas, current[target.target]? = some replicas ∧
    replicas.length = target.replicas.length

theorem factorChange_eq_none {current : ReplicaMap} {target : ReassignmentPartition} :
    factorChange current target = none ↔
      ∃ replicas, current[target.target]? = some replicas ∧
        replicas.length = target.replicas.length := by
  rw [factorChange]
  cases current[target.target]? with
  | none => simp
  | some replicas => simp

theorem validateReplicationFactors_ok {plan : ReassignmentFile} {current : ReplicaMap} {u : Unit} :
    validateReplicationFactors plan current = .ok u ↔ KeepsFactors plan current := by
  rw [validateReplicationFactors, KeepsFactors]
  simp only [← factorChange_eq_none, ← List.filterMap_eq_nil_iff]
  by_cases h : plan.partitions.filterMap (factorChange current) = []
  · simp [h]
  · simp [h]

/-! ## Movements between brokers -/

structure PartitionMove where
  sources : Std.TreeSet Int
  destinations : Std.TreeSet Int

abbrev ReassignmentMoveMap := Std.TreeMap TopicPartition PartitionMove

/-- The movement of a running reassignment. -/
def runningMove (partition : RunningPartition) : PartitionMove :=
  let adding : Std.TreeSet Int := .ofList partition.addingReplicas
  { sources := .ofList (partition.replicas.filter (· ∉ adding)), destinations := adding }

def runningMoves (running : List PartitionReassignmentInfo) : ReassignmentMoveMap :=
  .ofList <| running.flatMap fun topic =>
    topic.partitions.map fun partition => ((topic.name, partition.partitionIndex),
      runningMove partition)

/-- Where the replicas of a target are now. -/
def moveSources (current : ReplicaMap) (moves : ReassignmentMoveMap) (target : TopicPartition) :
    Option (Std.TreeSet Int) :=
  match moves[target]? with
  | some movement => some movement.sources
  | none => (current[target]?).map fun replicas => .ofList replicas

/-- Enter the movement of a target of the plan. -/
def addMove (current : ReplicaMap) (moves : ReassignmentMoveMap) (target : ReassignmentPartition) :
    Except Failure ReassignmentMoveMap :=
  match moveSources current moves target.target with
  | none => .error (.check (.missing target.target))
  | some sources => .ok (moves.insert target.target
      { sources, destinations := .ofList (target.replicas.filter (· ∉ sources)) })

def reassignmentMoveMap (plan : ReassignmentFile) (running : List PartitionReassignmentInfo)
    (current : ReplicaMap) : Except Failure ReassignmentMoveMap :=
  plan.partitions.foldlM (addMove current) (runningMoves running)

/-- Every target is being reassigned already or in the metadata. -/
def TargetsKnown (plan : ReassignmentFile) (running : List PartitionReassignmentInfo)
    (current : ReplicaMap) : Prop :=
  ∀ target ∈ plan.partitions, target.target ∈ runningMoves running ∨ target.target ∈ current

theorem moveSources_eq_none {current : ReplicaMap} {moves : ReassignmentMoveMap}
    {target : TopicPartition} :
    moveSources current moves target = none ↔ target ∉ moves ∧ target ∉ current := by
  rw [moveSources, Std.TreeMap.mem_iff_isSome_getElem?, Std.TreeMap.mem_iff_isSome_getElem?]
  cases moves[target]? with
  | none => simp
  | some movement => simp

/-- The moves are mapped exactly when every target is known. -/
theorem foldlM_addMove_ok {current : ReplicaMap} {targets : List ReassignmentPartition}
    {moves : ReassignmentMoveMap} (hnodup : (targets.map ReassignmentPartition.target).Nodup) :
    (∃ moves', targets.foldlM (addMove current) moves = .ok moves') ↔
      ∀ target ∈ targets, target.target ∈ moves ∨ target.target ∈ current := by
  induction targets generalizing moves with
  | nil => simp
  | cons target targets ih =>
    rw [List.map_cons, List.nodup_cons] at hnodup
    rw [List.foldlM_cons, List.forall_mem_cons, addMove]
    cases hsources : moveSources current moves target.target with
    | none =>
      have hunknown := moveSources_eq_none.1 hsources
      simp [hunknown]
    | some sources =>
      have hknown : target.target ∈ moves ∨ target.target ∈ current := by
        by_contra hunknown
        rw [not_or, ← moveSources_eq_none, hsources] at hunknown
        cases hunknown
      simp only [ok_bind, ih hnodup.2, hknown, true_and, Std.TreeMap.mem_insert]
      refine forall₂_congr fun later hlater => ?_
      have hother : target.target ≠ later.target := by
        intro heq
        exact hnodup.1 (heq ▸ List.mem_map_of_mem hlater)
      simp [hother]

theorem reassignmentMoveMap_ok {plan : ReassignmentFile} (h : plan.Accepted)
    {running : List PartitionReassignmentInfo} {current : ReplicaMap} :
    (∃ moves, reassignmentMoveMap plan running current = .ok moves) ↔
      TargetsKnown plan running current :=
  foldlM_addMove_ok h.targets_nodup

/-! ## Rates -/

/-- `checked_throttle`. -/
def checkedThrottle (value : Nat) (option : String) : Except Failure String :=
  if value < 2 ^ 63 then .ok (toString value) else .error (.check (.rate option))

/-! ## Movements between log directories -/

/-- Brokers, their log directories, and the partitions of each topic that move there. -/
abbrev BrokerLogDirPlan :=
  Std.TreeMap Int (Std.TreeMap String (Std.TreeMap String (List Int)))

/-- Enter a partition for a log directory of a broker. -/
def addLogDir (moves : BrokerLogDirPlan) (broker : Int) (logDir topic : String)
    (partition : Int) : BrokerLogDirPlan :=
  let directories := moves.getD broker ∅
  moves.insert broker (directories.insert logDir
    (Multimap.push (directories.getD logDir ∅) topic partition))

def brokerLogDirPlan (plan : ReassignmentFile) : BrokerLogDirPlan :=
  plan.partitions.foldl (fun moves partition =>
    (partition.replicas.zip partition.logDirs).foldl (fun moves (broker, logDir) =>
      if logDir ≠ "any" then addLogDir moves broker logDir partition.topic partition.partition
      else moves) moves) ∅

end KafkaCli.Reassign
