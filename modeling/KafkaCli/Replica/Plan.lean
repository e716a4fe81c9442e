import KafkaCli.Lib.Checked
import KafkaCli.Lib.Decimal
import KafkaCli.Lib.Text
import KafkaCli.Replica.Buffer

/-!
# What the verification tool is going to compare

`build_replica_verification_plan` reads the metadata of the cluster: which partitions are
verified, how many replicas each of them has, and which broker is asked for which of them.
`replica_initial_offsets` says where each of them starts.

**Lemma (`planned_of_build`).** A broker is asked for a partition once for each time the partition
lists it as a replica, and a partition is verified with as many replicas as it lists.
-/

namespace KafkaCli.Replica

open Checked Decimal Text

/-- A hash map of some entries. Of two entries with one key it keeps the later one. -/
def collect {α : Type} [DecidableEq α] {β : Type} (entries : List (α × β)) :
    AList fun _ : α => β :=
  entries.foldl (fun m (key, value) => m.insert key value) ∅

/-! ## Metadata -/

structure MetadataBroker where
  id : Int
  host : String
  port : Int
  deriving DecidableEq, Repr

structure MetadataPartition where
  id : Int
  /-- The error code, as it is printed. -/
  error : Option String
  replicas : List Int
  deriving DecidableEq, Repr

structure MetadataTopic where
  name : String
  error : Option String
  partitions : List MetadataPartition
  deriving DecidableEq, Repr

structure Metadata where
  brokers : List MetadataBroker
  topics : List MetadataTopic
  deriving DecidableEq, Repr

/-! ## Arguments -/

structure ReplicaVerificationArgs where
  fetchSize : Int
  maxWaitMs : Int
  topicsInclude : String
  time : Int
  reportIntervalMs : Int
  deriving DecidableEq, Repr

def validateBootstrapServer (server : String) : Result Unit :=
  let server := trim server
  if server = "" then
    .error (.usage "bootstrap server list contains an empty entry")
  else
    match rsplitOnce server ':' with
    | none => .error (.usage s!"bootstrap server '{server}' must be host:port")
    | some (host, port) => do
      failIf (host = "") (.usage s!"bootstrap server '{server}' is missing a host")
      discard <| (parseU16 port).mapError fun _ =>
        .usage s!"bootstrap server '{server}' has an invalid port"

def validateBootstrapList (bootstrap : String) : Result Unit :=
  if trim bootstrap = "" then
    .error (.usage "bootstrap server list must not be empty")
  else
    (split bootstrap ',').forM validateBootstrapServer

def validateReplicaVerificationArgs (bootstrap : String) (args : ReplicaVerificationArgs) :
    Result Unit := do
  failIf (args.fetchSize ≤ 0) (.usage "--fetch-size must be positive")
  failIf (args.maxWaitMs < 0) (.usage "--max-wait-ms must not be negative")
  failIf (args.reportIntervalMs < 0) (.usage "--report-interval-ms must not be negative")
  validateBootstrapList bootstrap

/-! ## The plan -/

/-- `ReplicaVerificationPlan`. -/
structure ReplicaVerificationPlan where
  brokers : AList fun _ : Int => String
  expectedReplicas : AList fun _ : TopicPartitionKey => Nat
  brokerPartitions : AList fun _ : Int => List TopicPartitionKey
  topicPartitions : List TopicPartitionKey

namespace ReplicaVerificationPlan

variable (plan : ReplicaVerificationPlan)

/-- The partitions a broker is asked for. -/
def asked (broker : Int) : List TopicPartitionKey :=
  (plan.brokerPartitions.lookup broker).getD []

/-- Ask a replica of a partition for it. -/
def assign (key : TopicPartitionKey) (replica : Int) : ReplicaVerificationPlan :=
  { plan with
    brokerPartitions := plan.brokerPartitions.insert replica (plan.asked replica ++ [key]) }

/-- Verify a partition. -/
def add (key : TopicPartitionKey) (replicas : List Int) : ReplicaVerificationPlan :=
  replicas.foldl (·.assign key)
    { plan with
      expectedReplicas := plan.expectedReplicas.insert key replicas.length
      topicPartitions := plan.topicPartitions ++ [key] }

end ReplicaVerificationPlan

def planPartition (topic : String) (plan : ReplicaVerificationPlan)
    (partition : MetadataPartition) : Result ReplicaVerificationPlan :=
  match partition.error with
  | some error =>
    .error (.config s!"partition {topic}-{partition.id} metadata error: {error}")
  | none =>
    if partition.replicas = [] then .ok plan
    else .ok (plan.add ⟨topic, partition.id⟩ partition.replicas)

def planTopic (filter : String → Bool) (plan : ReplicaVerificationPlan) (topic : MetadataTopic) :
    Result ReplicaVerificationPlan :=
  if filter topic.name then
    match topic.error with
    | some error => .error (.config s!"topic {topic.name} metadata error: {error}")
    | none => topic.partitions.foldlM (planPartition topic.name) plan
  else .ok plan

/-- `build_replica_verification_plan`. `compile` reads a regular expression. -/
def buildReplicaVerificationPlan (compile : String → Except String (String → Bool))
    (metadata : Metadata) (topicsInclude : String) : Result ReplicaVerificationPlan := do
  let filter ← (compile topicsInclude).mapError fun error =>
    .usage s!"{topicsInclude} is an invalid regex: {error}"
  let brokers := collect (metadata.brokers.map fun broker =>
    (broker.id, s!"{broker.host}:{broker.port}"))
  failIf (brokers.entries = []) (.config "no brokers found in cluster metadata")
  let plan ← metadata.topics.foldlM (planTopic filter) ⟨brokers, ∅, ∅, []⟩
  failIf (plan.expectedReplicas.entries = [])
    (.usage (s!"No topics found. --topics-include {topicsInclude}, if specified, is either " ++
      "filtering out all topics or there is no topic."))
  return plan

/-! ## Where the partitions start -/

/-- The offset found for a timestamp. -/
inductive FoundOffset
  | offset (value : Int)
  | invalid
  /-- Another kind of offset, as it is printed. -/
  | other (text : String)
  deriving DecidableEq, Repr

/-- What the consumer says about the offsets of a partition. -/
structure OffsetSource where
  /-- `fetch_watermarks`: the low and the high one. -/
  fetchWatermarks : TopicPartitionKey → Result (Int × Int)
  /-- `offsets_for_times`, for partitions with a timestamp. -/
  offsetsForTimes : List (TopicPartitionKey × Int) →
    Result (TopicPartitionKey → Option FoundOffset)

/-- The offset of a partition in the answer for a timestamp. -/
def resolvedOffset (resolved : TopicPartitionKey → Option FoundOffset) (timestamp : Int)
    (key : TopicPartitionKey) : Result Int :=
  match resolved key with
  | none => .error (.config s!"no offset returned for {key.label} at timestamp {timestamp}")
  | some (.offset value) => .ok value
  | some .invalid => .error (.config s!"no offset found for {key.label} at timestamp {timestamp}")
  | some (.other text) => .error (.config s!"unexpected offset {text} for {key.label}")

/-- Look up each partition, and keep what is found. -/
def collectOffsets (offsetOf : TopicPartitionKey → Result Int) (partitions : List TopicPartitionKey) :
    Result (AList fun _ : TopicPartitionKey => Int) :=
  partitions.foldlM (fun offsets key => return offsets.insert key (← offsetOf key)) ∅

/-- `replica_initial_offsets`. -/
def replicaInitialOffsets (source : OffsetSource) (partitions : List TopicPartitionKey)
    (time : Int) : Result (AList fun _ : TopicPartitionKey => Int) :=
  if time = -1 then
    collectOffsets (fun key => return (← source.fetchWatermarks key).2) partitions
  else if time = -2 then
    collectOffsets (fun key => return (← source.fetchWatermarks key).1) partitions
  else if 0 ≤ time then do
    let resolved ← source.offsetsForTimes (partitions.map fun key => (key, time))
    collectOffsets (resolvedOffset resolved time) partitions
  else
    .error (.usage (s!"invalid --time value {time}; expected timestamp, -1 (latest), " ++
      "or -2 (earliest)"))

/-- `ReplicaBuffer::new`: the caches of the verified partitions are empty. -/
def ReplicaBuffer.new (expectedReplicas : AList fun _ : TopicPartitionKey => Nat)
    (initialOffsets : AList fun _ : TopicPartitionKey => Int) : ReplicaBuffer where
  expectedReplicas := fun key => expectedReplicas.lookup key
  fetchOffsets := fun key => initialOffsets.lookup key
  recordsCache := fun key => (expectedReplicas.lookup key).map fun _ => ∅
  maxLag := -1
  offsetWithMaxLag := -1
  maxLagPartition := none

/-! ## What a plan asks for -/

/-- The partitions that are verified, with their replicas, in the order of the metadata. -/
def plannedPartitions (filter : String → Bool) (metadata : Metadata) :
    List (TopicPartitionKey × List Int) :=
  (metadata.topics.filter fun topic => filter topic.name).flatMap fun topic =>
    (topic.partitions.filter fun partition => partition.replicas ≠ []).map fun partition =>
      (⟨topic.name, partition.id⟩, partition.replicas)

/-- A plan is that of these partitions. -/
structure Planned (partitions : List (TopicPartitionKey × List Int))
    (plan : ReplicaVerificationPlan) : Prop where
  keys : plan.topicPartitions = partitions.map Prod.fst
  expected : ∀ key n, plan.expectedReplicas.lookup key = some n →
    ∃ replicas, (key, replicas) ∈ partitions ∧ replicas.length = n
  expected_isSome : ∀ key, key ∈ partitions.map Prod.fst →
    (plan.expectedReplicas.lookup key).isSome
  asked : ∀ broker, plan.asked broker =
    partitions.flatMap fun (key, replicas) => List.replicate (replicas.count broker) key
  brokers : ∀ broker, (plan.brokerPartitions.lookup broker).isSome ↔
    ∃ planned ∈ partitions, broker ∈ planned.2

section Planned

variable {plan : ReplicaVerificationPlan} {key : TopicPartitionKey} {replicas : List Int}
  {partitions : List (TopicPartitionKey × List Int)}

theorem asked_assign (plan : ReplicaVerificationPlan) (key : TopicPartitionKey)
    (replica broker : Int) : (plan.assign key replica).asked broker =
      if broker = replica then plan.asked broker ++ [key] else plan.asked broker := by
  rw [ReplicaVerificationPlan.asked, ReplicaVerificationPlan.assign]
  by_cases h : broker = replica
  · rw [h, if_pos rfl, AList.lookup_insert]
    rfl
  · rw [if_neg h, AList.lookup_insert_ne h]
    rfl

theorem isSome_assign (plan : ReplicaVerificationPlan) (key : TopicPartitionKey)
    (replica broker : Int) : ((plan.assign key replica).brokerPartitions.lookup broker).isSome ↔
      broker = replica ∨ (plan.brokerPartitions.lookup broker).isSome := by
  rw [ReplicaVerificationPlan.assign]
  by_cases h : broker = replica
  · rw [h, AList.lookup_insert]
    simp
  · simp [h, AList.lookup_insert_ne h]

/-- The replicas of one partition, one after the other. -/
theorem foldl_assign (plan : ReplicaVerificationPlan) (key : TopicPartitionKey)
    (replicas : List Int) :
    (replicas.foldl (·.assign key) plan).topicPartitions = plan.topicPartitions ∧
      (replicas.foldl (·.assign key) plan).expectedReplicas = plan.expectedReplicas ∧
      (∀ broker, (replicas.foldl (·.assign key) plan).asked broker =
        plan.asked broker ++ List.replicate (replicas.count broker) key) ∧
      ∀ broker, ((replicas.foldl (·.assign key) plan).brokerPartitions.lookup broker).isSome ↔
        broker ∈ replicas ∨ (plan.brokerPartitions.lookup broker).isSome := by
  induction replicas generalizing plan with
  | nil => simp
  | cons replica replicas ih =>
    obtain ⟨hkeys, hexpected, hasked, hbrokers⟩ := ih (plan.assign key replica)
    refine ⟨hkeys, hexpected, fun broker => ?_, fun broker => ?_⟩
    · rw [List.foldl_cons, hasked, asked_assign]
      by_cases h : broker = replica
      · rw [h, if_pos rfl, List.count_cons_self, List.replicate_succ, List.append_assoc]
        rfl
      · rw [if_neg h, List.count_cons_of_ne (Ne.symm h)]
    · rw [List.foldl_cons, hbrokers, isSome_assign, List.mem_cons]
      tauto

/-- One more partition is verified. -/
theorem Planned.add (h : Planned partitions plan) :
    Planned (partitions ++ [(key, replicas)]) (plan.add key replicas) := by
  obtain ⟨hkeys, hexpected, hasked, hbrokers⟩ := foldl_assign
    { plan with
      expectedReplicas := plan.expectedReplicas.insert key replicas.length
      topicPartitions := plan.topicPartitions ++ [key] } key replicas
  refine ⟨?_, fun other n hn => ?_, fun other hother => ?_, fun broker => ?_, fun broker => ?_⟩
  · rw [ReplicaVerificationPlan.add, hkeys, h.keys, List.map_append, List.map_singleton]
  · rw [ReplicaVerificationPlan.add, hexpected] at hn
    by_cases hkey : other = key
    · rw [hkey, AList.lookup_insert, Option.some.injEq] at hn
      exact ⟨replicas, by simp [hkey], hn⟩
    · rw [AList.lookup_insert_ne hkey] at hn
      obtain ⟨replicas', hmem, hlength⟩ := h.expected other n hn
      exact ⟨replicas', List.mem_append_left _ hmem, hlength⟩
  · rw [ReplicaVerificationPlan.add, hexpected]
    by_cases hkey : other = key
    · rw [hkey, AList.lookup_insert]
      rfl
    · rw [AList.lookup_insert_ne hkey]
      refine h.expected_isSome other ?_
      simpa [hkey] using hother
  · rw [ReplicaVerificationPlan.add, hasked, List.flatMap_append, ← h.asked broker]
    simp [ReplicaVerificationPlan.asked]
  · rw [ReplicaVerificationPlan.add, hbrokers, h.brokers broker]
    simp only [List.mem_append, List.mem_singleton, or_and_right, exists_or, exists_eq_left]
    exact or_comm

/-- The partitions of a topic, one after the other. -/
theorem Planned.topic {topic : String} {listed : List MetadataPartition}
    {after : ReplicaVerificationPlan} (h : Planned partitions plan)
    (hrun : listed.foldlM (planPartition topic) plan = .ok after) :
    Planned (partitions ++ (listed.filter fun partition => partition.replicas ≠ []).map
      fun partition => (⟨topic, partition.id⟩, partition.replicas)) after := by
  induction listed generalizing plan partitions with
  | nil =>
    rw [List.foldlM_nil, pure_eq_ok] at hrun
    rw [← hrun]
    simpa using h
  | cons partition listed ih =>
    rw [List.foldlM_cons, bind_eq_ok] at hrun
    obtain ⟨next, hfirst, hrest⟩ := hrun
    unfold planPartition at hfirst
    cases herror : partition.error with
    | some error => simp [herror] at hfirst
    | none =>
      simp only [herror] at hfirst
      by_cases hreplicas : partition.replicas = []
      · rw [if_pos hreplicas, Except.ok.injEq] at hfirst
        rw [List.filter_cons_of_neg (by simp [hreplicas])]
        exact ih (hfirst ▸ h) hrest
      · rw [if_neg hreplicas, Except.ok.injEq] at hfirst
        have hnext := ih (hfirst ▸ h.add) hrest
        rw [List.filter_cons_of_pos (by simp [hreplicas]), List.map_cons]
        rwa [List.append_assoc, List.singleton_append] at hnext

/-- The topics, one after the other. -/
theorem Planned.topics {filter : String → Bool} {listed : List MetadataTopic}
    {after : ReplicaVerificationPlan} (h : Planned partitions plan)
    (hrun : listed.foldlM (planTopic filter) plan = .ok after) (brokers : List MetadataBroker) :
    Planned (partitions ++ plannedPartitions filter ⟨brokers, listed⟩) after := by
  induction listed generalizing plan partitions with
  | nil =>
    rw [List.foldlM_nil, pure_eq_ok] at hrun
    rw [← hrun]
    simpa [plannedPartitions] using h
  | cons topic listed ih =>
    rw [List.foldlM_cons, bind_eq_ok] at hrun
    obtain ⟨next, hfirst, hrest⟩ := hrun
    unfold planTopic at hfirst
    by_cases hfilter : filter topic.name
    · rw [if_pos hfilter] at hfirst
      cases herror : topic.error with
      | some error => simp [herror] at hfirst
      | none =>
        simp only [herror] at hfirst
        have hnext := ih (h.topic hfirst) hrest
        rw [List.append_assoc] at hnext
        simpa [plannedPartitions, hfilter] using hnext
    · rw [if_neg hfilter, Except.ok.injEq] at hfirst
      have hnext := ih (hfirst ▸ h) hrest
      simpa [plannedPartitions, hfilter] using hnext

theorem planned_empty (brokers : AList fun _ : Int => String) :
    Planned [] ⟨brokers, ∅, ∅, []⟩ where
  keys := rfl
  expected key n h := by simp at h
  expected_isSome key h := by simp at h
  asked broker := by simp [ReplicaVerificationPlan.asked]
  brokers broker := by simp

/-- **What is asked for.** -/
theorem planned_of_build {compile : String → Except String (String → Bool)} {metadata : Metadata}
    {topicsInclude : String}
    (h : buildReplicaVerificationPlan compile metadata topicsInclude = .ok plan) :
    ∃ filter, compile topicsInclude = .ok filter ∧
      Planned (plannedPartitions filter metadata) plan := by
  simp only [buildReplicaVerificationPlan, bind_eq_ok, failIf_eq_ok, pure_eq_ok] at h
  obtain ⟨filter, hfilter, -, -, plan', hplan, -, -, rfl⟩ := h
  exact ⟨filter, mapError_eq_ok.1 hfilter,
    by simpa using (planned_empty _).topics hplan metadata.brokers⟩

/-- The partitions that are verified have replicas. -/
theorem ne_nil_of_planned {filter : String → Bool} {metadata : Metadata}
    (h : (key, replicas) ∈ plannedPartitions filter metadata) : replicas ≠ [] := by
  simp only [plannedPartitions, List.mem_flatMap, List.mem_map, List.mem_filter] at h
  obtain ⟨topic, -, partition, ⟨-, hreplicas⟩, heq⟩ := h
  obtain ⟨-, rfl⟩ := Prod.mk.inj heq
  simpa using hreplicas

/-- A replica is asked for the partition. -/
theorem Planned.mem_asked (h : Planned partitions plan) {broker : Int} :
    key ∈ plan.asked broker ↔ ∃ replicas, (key, replicas) ∈ partitions ∧ broker ∈ replicas := by
  rw [h.asked broker]
  simp only [List.mem_flatMap, List.mem_replicate, Prod.exists, ne_eq, List.count_eq_zero,
    Decidable.not_not]
  refine ⟨fun ⟨other, replicas, hmem, hbroker, heq⟩ => ?_, fun ⟨replicas, hmem, hbroker⟩ => ?_⟩
  · exact ⟨replicas, heq ▸ hmem, hbroker⟩
  · exact ⟨key, replicas, hmem, hbroker, rfl⟩

end Planned

end KafkaCli.Replica
