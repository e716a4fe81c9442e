import KafkaCli.Error
import KafkaCli.Lib.Checked
import KafkaCli.Lib.SortedMap
import KafkaCli.Lib.Text
import Mathlib.Data.List.Destutter
import Mathlib.Data.List.Sort
import Mathlib.Data.List.TakeWhile
import Std.Data.TreeSet.Lemmas

/-!
# Reassignment plans

A plan says on which brokers the replicas of partitions are to be, and in which of their log
directories. `read_reassignment` accepts a plan from a file; `Accepted` is what it checks.

From a plan, the running reassignments and the current replicas, the tool computes which brokers
take part in a movement, and which replicas go to a log directory of their broker.
-/

namespace KafkaCli.Reassign

open Checked

/-! ## Plans -/

structure ReassignmentPartition where
  topic : String
  partition : Int
  replicas : List Int
  logDirs : List String
  deriving DecidableEq, Repr

structure ReassignmentFile where
  version : UInt8
  partitions : List ReassignmentPartition
  deriving DecidableEq, Repr

/-- A topic and a partition of it. -/
abbrev TopicPartition := String × Int

def ReassignmentPartition.target (partition : ReassignmentPartition) : TopicPartition :=
  (partition.topic, partition.partition)

/-- `sort_unstable`, then `dedup`. -/
def sortDedup (replicas : List Int) : List Int :=
  (replicas.insertionSort (· ≤ ·)).destutter (· ≠ ·)

/-- The checks of a partition, given the targets of those before it. -/
def checkPartition (seen : List TopicPartition) (partition : ReassignmentPartition) :
    Result Unit := do
  let place := s!"{partition.topic}:{partition.partition}"
  failIf (partition.topic = "" ∨ partition.partition < 0)
    (.usage "reassignment topic must be non-empty and partition must be non-negative")
  failIf (partition.target ∈ seen) (.usage s!"duplicate reassignment target {place}")
  failIf (partition.replicas = []) (.usage s!"replica list cannot be empty for {place}")
  failIf ((sortDedup partition.replicas).length ≠ partition.replicas.length)
    (.usage s!"replica list contains duplicates for {place}")
  failIf (partition.logDirs ≠ [] ∧ partition.logDirs.length ≠ partition.replicas.length)
    (.usage s!"log_dirs count must match replicas for {place}")

def checkPartitions (seen : List TopicPartition) : List ReassignmentPartition → Result Unit
  | [] => .ok ()
  | partition :: rest => do
    checkPartition seen partition
    checkPartitions (partition.target :: seen) rest

/-- `read_reassignment`, on what the file was parsed to. -/
def readReassignment (file : Result ReassignmentFile) : Result ReassignmentFile := do
  let plan ← file
  failIf (plan.version ≠ 1)
    (.usage s!"unsupported reassignment JSON version: {plan.version}")
  failIf (plan.partitions = []) (.usage "partition reassignment list cannot be empty")
  checkPartitions [] plan.partitions
  return plan

/-! ## What is accepted -/

/-- A partition that can be reassigned. -/
structure ReassignmentPartition.Valid (partition : ReassignmentPartition) : Prop where
  topic_ne : partition.topic ≠ ""
  partition_nonneg : 0 ≤ partition.partition
  replicas_ne : partition.replicas ≠ []
  replicas_nodup : partition.replicas.Nodup
  logDirs_length : partition.logDirs ≠ [] → partition.logDirs.length = partition.replicas.length

/-- A plan that can be executed. -/
structure ReassignmentFile.Accepted (plan : ReassignmentFile) : Prop where
  version_eq : plan.version = 1
  partitions_ne : plan.partitions ≠ []
  valid : ∀ partition ∈ plan.partitions, partition.Valid
  targets_nodup : (plan.partitions.map ReassignmentPartition.target).Nodup

/-- Sorting and dropping repetitions shortens a list exactly when it has duplicates. -/
theorem length_sortDedup_eq_iff {replicas : List Int} :
    (sortDedup replicas).length = replicas.length ↔ replicas.Nodup := by
  have hperm := List.perm_insertionSort (· ≤ ·) replicas
  rw [sortDedup, ← hperm.nodup_iff, ← hperm.length_eq]
  have hsorted := List.pairwise_insertionSort (· ≤ ·) replicas
  generalize replicas.insertionSort (· ≤ ·) = sorted at hsorted
  refine ⟨?_, ?_⟩
  · intro hlength
    have hsame := (List.destutter_sublist (· ≠ ·) sorted).eq_of_length hlength
    have hchain := (List.destutter_eq_self_iff _ sorted).1 hsame
    rw [List.isChain_iff_getElem] at hchain
    have hle := List.isChain_iff_getElem.1 hsorted.isChain
    have hlt : sorted.IsChain (· < ·) := List.isChain_iff_getElem.2 fun i hi =>
      lt_of_le_of_ne (hle i hi) (hchain i hi)
    exact hlt.pairwise.imp fun h => ne_of_lt h
  · intro hnodup
    rw [(List.destutter_eq_self_iff _ sorted).2 hnodup.isChain]

theorem checkPartition_ok {seen : List TopicPartition} {partition : ReassignmentPartition}
    {u : Unit} : checkPartition seen partition = .ok u ↔
      partition.Valid ∧ partition.target ∉ seen := by
  simp only [checkPartition, bind_eq_ok, failIf_eq_ok, not_or, not_and, not_not, ne_eq,
    length_sortDedup_eq_iff, Int.not_lt, exists_const]
  refine ⟨?_, ?_⟩
  · intro h
    obtain ⟨⟨htopic, hpartition⟩, hseen, hreplicas, hnodup, hlength⟩ := h
    exact ⟨⟨htopic, hpartition, hreplicas, hnodup, hlength⟩, hseen⟩
  · intro h
    obtain ⟨h, hseen⟩ := h
    exact ⟨⟨h.topic_ne, h.partition_nonneg⟩, hseen, h.replicas_ne, h.replicas_nodup,
      h.logDirs_length⟩

theorem checkPartitions_ok {seen : List TopicPartition} {partitions : List ReassignmentPartition}
    {u : Unit} : checkPartitions seen partitions = .ok u ↔
      (∀ partition ∈ partitions, partition.Valid) ∧
        (partitions.map ReassignmentPartition.target).Nodup ∧
        ∀ partition ∈ partitions, partition.target ∉ seen := by
  induction partitions generalizing seen with
  | nil => simp [checkPartitions]
  | cons partition rest ih =>
    simp only [checkPartitions, bind_eq_ok, checkPartition_ok, ih, exists_const, List.map_cons,
      List.nodup_cons, List.mem_cons, forall_eq_or_imp, not_or]
    refine ⟨?_, ?_⟩
    · intro h
      obtain ⟨⟨hvalid, hseen⟩, hrest, hnodup, hnew⟩ := h
      refine ⟨⟨hvalid, hrest⟩, ⟨?_, hnodup⟩, hseen, fun p hp => (hnew p hp).2⟩
      intro hmem
      obtain ⟨p, hp, heq⟩ := List.mem_map.1 hmem
      exact (hnew p hp).1 heq
    · intro h
      obtain ⟨⟨hvalid, hrest⟩, ⟨hnew, hnodup⟩, hseen, hunseen⟩ := h
      refine ⟨⟨hvalid, hseen⟩, hrest, hnodup, fun p hp => ⟨?_, hunseen p hp⟩⟩
      intro heq
      exact hnew (heq ▸ List.mem_map_of_mem hp)

/-- The reader accepts a plan exactly when it can be executed. -/
theorem readReassignment_ok {file : Result ReassignmentFile} {plan : ReassignmentFile} :
    readReassignment file = .ok plan ↔ file = .ok plan ∧ plan.Accepted := by
  simp only [readReassignment, bind_eq_ok, failIf_eq_ok, checkPartitions_ok, pure_eq_ok, ne_eq,
    not_not, exists_const, List.not_mem_nil, not_false_eq_true, implies_true, and_true]
  refine ⟨?_, ?_⟩
  · intro h
    obtain ⟨plan', hfile, hversion, hne, ⟨hvalid, hnodup⟩, hplan⟩ := h
    subst hplan
    exact ⟨hfile, hversion, hne, hvalid, hnodup⟩
  · intro h
    obtain ⟨hfile, h⟩ := h
    exact ⟨plan, hfile, h.version_eq, h.partitions_ne, ⟨h.valid, h.targets_nodup⟩, rfl⟩

end KafkaCli.Reassign
