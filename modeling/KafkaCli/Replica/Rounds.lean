import KafkaCli.Lib.Multimap
import KafkaCli.Replica.MaxLag
import KafkaCli.Replica.Plan

/-!
# Rounds of the verification tool

A round asks every broker for its replicas of the verified partitions, from the fetch offsets on,
puts what came back into the buffer, and checks it. The loop goes from round to round until it is
interrupted. It waits for the answers only, so that an interrupted round has changed nothing.

`replica_verification_round` takes the brokers, the fetched partitions and the cache out of hash
maps, and the first fetch that fails ends the round. What a run chooses is in a `Round`, with what
the cluster answers in it.
-/

namespace KafkaCli.Replica

open Checked Lockstep

/-! ## Requests and answers -/

structure FetchPartitionRequest where
  partition : Int
  currentLeaderEpoch : Int
  fetchOffset : Int
  lastFetchedEpoch : Int
  logStartOffset : Int
  partitionMaxBytes : Int
  deriving DecidableEq, Repr

structure FetchRequest where
  replicaId : Int
  maxWaitMs : Int
  minBytes : Int
  maxBytes : Int
  isolationLevel : Int
  sessionId : Int
  sessionEpoch : Int
  topics : List (String × List FetchPartitionRequest)
  forgottenTopics : List String
  rackId : String
  deriving DecidableEq, Repr

/-- A partition in the answer of a broker. -/
structure FetchedPartition where
  partition : Int
  highWatermark : Int
  records : Option (List UInt8)
  deriving DecidableEq, Repr

/-- What becomes of a request to a broker. -/
inductive FetchOutcome
  /-- It could not be sent, or was not answered. -/
  | unreachable
  | answered (responses : List (String × List FetchedPartition))
  /-- There is no connection, no version for both sides, or an answer that cannot be read. -/
  | failed (error : Error)

/-- The data of the partitions that one broker was asked for. -/
abbrev Fetched := AList fun _ : TopicPartitionKey => ReplicaPartitionData

/-- What a replica contributes that has not answered. -/
def noData : ReplicaPartitionData := ⟨-1, []⟩

/-- The request for one partition. -/
def fetchPartitionRequest (offsets : TopicPartitionKey → Int) (fetchSize : Int)
    (key : TopicPartitionKey) : FetchPartitionRequest where
  partition := key.partition
  currentLeaderEpoch := -1
  fetchOffset := offsets key
  lastFetchedEpoch := -1
  logStartOffset := 0
  partitionMaxBytes := fetchSize

/-- The request for some partitions, by their topics. -/
def fetchRequest (partitions : List TopicPartitionKey) (offsets : TopicPartitionKey → Int)
    (fetchSize maxWaitMs : Int) : FetchRequest where
  replicaId := -2
  maxWaitMs := maxWaitMs
  minBytes := 1
  maxBytes := 2 ^ 31 - 1
  isolationLevel := 0
  sessionId := 0
  sessionEpoch := -1
  topics := (partitions.foldl (fun topics key =>
    Multimap.push topics key.topic (fetchPartitionRequest offsets fetchSize key))
    (∅ : Std.TreeMap String (List FetchPartitionRequest))).toList
  forgottenTopics := []
  rackId := ""

/-- The partitions of an answer, with what was answered for them. -/
def answeredPartitions (responses : List (String × List FetchedPartition)) :
    List (TopicPartitionKey × ReplicaPartitionData) :=
  responses.flatMap fun (topic, partitions) => partitions.map fun partition =>
    (⟨topic, partition.partition⟩, ⟨partition.highWatermark, partition.records.getD []⟩)

/-- `entry(key).or_insert(data)`. -/
def orInsert (fetched : Fetched) (key : TopicPartitionKey) : Fetched :=
  if (fetched.lookup key).isSome then fetched else fetched.insert key noData

/-- `fetch_replica_partitions`, for what becomes of its request. -/
def fetchReplicaPartitions (partitions : List TopicPartitionKey) :
    FetchOutcome → Result Fetched
  | .unreachable =>
    .ok (collect (partitions.map fun key => (key, noData)))
  | .answered responses =>
    .ok (partitions.foldl orInsert (collect (answeredPartitions responses)))
  | .failed error => .error error

/-! ## One round -/

/-- What one round is up to: the answers of the brokers, and the orders of its hash maps. -/
structure Round where
  /-- What becomes of a request to the broker with this id and address. -/
  cluster : Int → String → FetchRequest → FetchOutcome
  brokers : IterOrder (Sigma fun _ : Int => List TopicPartitionKey)
  /-- The order in which the fetches end. -/
  completion : IterOrder (Result (Int × Fetched))
  fetched : Int → IterOrder (Sigma fun _ : TopicPartitionKey => ReplicaPartitionData)
  cache : IterOrder TopicPartitionKey
  cursors : TopicPartitionKey → IterOrder (Int × List ParsedBatch)
  /-- The report interval has passed. -/
  due : Bool

/-- The buffer, and the keys of its cache. -/
structure State where
  buffer : ReplicaBuffer
  cached : List TopicPartitionKey

/-- `ReplicaBuffer::add_fetched_data`. -/
def ReplicaBuffer.addFetchedData (buffer : ReplicaBuffer) (key : TopicPartitionKey)
    (replicaId : Int) (data : ReplicaPartitionData) : ReplicaBuffer :=
  let responses := (buffer.recordsCache key).getD ∅
  { buffer with
    recordsCache := Function.update buffer.recordsCache key
      (some (responses.insert replicaId data)) }

def State.addFetchedData (state : State) (key : TopicPartitionKey) (replicaId : Int)
    (data : ReplicaPartitionData) : State where
  buffer := state.buffer.addFetchedData key replicaId data
  cached := if key ∈ state.cached then state.cached else state.cached ++ [key]

/-- Put the answer of a broker into the buffer. -/
def State.addFetched (state : State) (broker : Int)
    (entries : List (Sigma fun _ : TopicPartitionKey => ReplicaPartitionData)) : State :=
  entries.foldl (fun state entry => state.addFetchedData entry.1 broker entry.2) state

/-- `try_join_all`: all results, or the first error to come. -/
def tryJoinAll {α : Type} (completion : IterOrder (Result α)) (results : List (Result α)) :
    Result (List α) :=
  let failed := (completion.toFun results).findSome? fun
    | .error error => some error
    | .ok _ => none
  match failed with
  | some error => .error error
  | none => results.mapM id

/-- The address of each broker that is asked. -/
def fetchTasks (plan : ReplicaVerificationPlan) (round : Round) :
    Result (List (Int × String × List TopicPartitionKey)) :=
  (round.brokers.toFun plan.brokerPartitions.entries).mapM fun ⟨broker, partitions⟩ =>
    match plan.brokers.lookup broker with
    | some address => .ok (broker, address, partitions)
    | none =>
      .error (.config s!"broker {broker} is listed as a replica but missing from metadata")

/-- The fetch from one broker. -/
def fetchTask (round : Round) (offsets : TopicPartitionKey → Int) (fetchSize maxWaitMs : Int)
    (task : Int × String × List TopicPartitionKey) : Result (Int × Fetched) := do
  let (broker, address, partitions) := task
  let request := fetchRequest partitions offsets fetchSize maxWaitMs
  let fetched ← fetchReplicaPartitions partitions (round.cluster broker address request)
  return (broker, fetched)

/-- The fetches of a round. -/
def fetchAll (plan : ReplicaVerificationPlan) (fetchSize maxWaitMs : Int) (round : Round)
    (offsets : TopicPartitionKey → Int) : Result (List (Int × Fetched)) := do
  let tasks ← fetchTasks plan round
  tryJoinAll round.completion (tasks.map (fetchTask round offsets fetchSize maxWaitMs))

/-- How a round or a run ends. -/
inductive Ending
  | ok (state : State)
  | err (error : Error)
  /-- The process exits with this code. -/
  | exited (code : Nat)

/-- The answers of a round, in the buffer. -/
def State.addAll (state : State) (round : Round) (results : List (Int × Fetched)) : State :=
  results.foldl (fun state (broker, fetched) =>
    state.addFetched broker ((round.fetched broker).toFun fetched.entries)) state

/-- `replica_verification_round`. -/
def replicaVerificationRound (plan : ReplicaVerificationPlan) (fetchSize maxWaitMs : Int)
    (round : Round) (state : State) : Ending × List ChecksumLine :=
  match fetchAll plan fetchSize maxWaitMs round state.buffer.offset with
  | .error error => (.err error, [])
  | .ok results =>
    let state := state.addAll round results
    match verifyChecksum round.cursors (round.cache.toFun state.cached) round.due
      state.buffer with
    | (.ok buffer, lines) => (.ok { state with buffer := buffer }, lines)
    | (.err error, lines) => (.err error, lines)
    | (.exited code, lines) => (.exited code, lines)

/-! ## The run -/

/-- `run_replica_verification_loop`, interrupted after these rounds. -/
def runReplicaVerificationLoop (plan : ReplicaVerificationPlan) (fetchSize maxWaitMs : Int) :
    List Round → State → Ending × List ChecksumLine
  | [], state => (.ok state, [])
  | round :: rounds, state =>
    match replicaVerificationRound plan fetchSize maxWaitMs round state with
    | (.ok state, lines) =>
      let (ending, rest) := runReplicaVerificationLoop plan fetchSize maxWaitMs rounds state
      (ending, lines ++ rest)
    | (ending, lines) => (ending, lines)

/-- The buffer in front of the first round. -/
def State.new (plan : ReplicaVerificationPlan)
    (initialOffsets : AList fun _ : TopicPartitionKey => Int) : State where
  buffer := .new plan.expectedReplicas initialOffsets
  cached := plan.expectedReplicas.keys

/-- `replica_verification`, over these rounds. -/
def replicaVerification (compile : String → Except String (String → Bool)) (source : OffsetSource)
    (metadata : Metadata) (bootstrap : String) (args : ReplicaVerificationArgs)
    (rounds : List Round) : Ending × List ChecksumLine :=
  let prepared : Result (ReplicaVerificationPlan × State) := do
    validateReplicaVerificationArgs bootstrap args
    let plan ← buildReplicaVerificationPlan compile metadata args.topicsInclude
    let offsets ← replicaInitialOffsets source plan.topicPartitions args.time
    return (plan, .new plan offsets)
  match prepared with
  | .error error => (.err error, [])
  | .ok (plan, state) => runReplicaVerificationLoop plan args.fetchSize args.maxWaitMs rounds state

theorem visits_new (plan : ReplicaVerificationPlan)
    (offsets : AList fun _ : TopicPartitionKey => Int) :
    Visits (State.new plan offsets).buffer (State.new plan offsets).cached where
  nodup := plan.expectedReplicas.nodupKeys
  mem_iff key := by
    show key ∈ plan.expectedReplicas.keys ↔
      ((plan.expectedReplicas.lookup key).map fun _ => (∅ : FetchResponse)).isSome
    rw [Option.isSome_map, AList.lookup_isSome]
    rfl

/-! ## What was fetched -/

theorem tryJoinAll_eq_ok {α : Type} {completion : IterOrder (Result α)}
    {results : List (Result α)} {out : List α} (h : tryJoinAll completion results = .ok out) :
    List.Forall₂ (fun result a => result = .ok a) results out := by
  unfold tryJoinAll at h
  dsimp only at h
  split at h
  · cases h
  · exact forall₂_of_mapM_ok h

/-- A broker was asked at its address, and this is what it was good for. -/
structure FetchedFrom (plan : ReplicaVerificationPlan) (fetchSize maxWaitMs : Int) (round : Round)
    (offsets : TopicPartitionKey → Int) (entry : Sigma fun _ : Int => List TopicPartitionKey)
    (result : Int × Fetched) : Prop where
  broker : result.1 = entry.1
  fetched : ∃ address, plan.brokers.lookup entry.1 = some address ∧
    fetchReplicaPartitions entry.2 (round.cluster entry.1 address
      (fetchRequest entry.2 offsets fetchSize maxWaitMs)) = .ok result.2

section Fetches

variable {plan : ReplicaVerificationPlan} {fetchSize maxWaitMs : Int} {round : Round}
  {offsets : TopicPartitionKey → Int}

theorem fetchAll_eq_ok {results : List (Int × Fetched)}
    (h : fetchAll plan fetchSize maxWaitMs round offsets = .ok results) :
    List.Forall₂ (FetchedFrom plan fetchSize maxWaitMs round offsets)
      (round.brokers.toFun plan.brokerPartitions.entries) results := by
  simp only [fetchAll, bind_eq_ok] at h
  obtain ⟨tasks, htasks, hjoin⟩ := h
  have htask := forall₂_of_mapM_ok htasks
  have hresult := tryJoinAll_eq_ok hjoin
  rw [List.forall₂_map_left_iff] at hresult
  clear htasks hjoin
  generalize round.brokers.toFun plan.brokerPartitions.entries = entries at htask ⊢
  induction htask generalizing results with
  | nil =>
    cases hresult
    exact .nil
  | @cons entry task entries tasks haddress _ ih =>
    cases hresult with
    | cons hfirst hrest =>
      refine .cons ?_ (ih hrest)
      obtain ⟨broker, partitions⟩ := entry
      dsimp only at haddress
      cases hlookup : plan.brokers.lookup broker with
      | none => simp [hlookup] at haddress
      | some address =>
        simp only [hlookup, Except.ok.injEq] at haddress
        subst haddress
        simp only [fetchTask, bind_eq_ok, pure_eq_ok] at hfirst
        obtain ⟨fetched, hfetched, rfl⟩ := hfirst
        exact ⟨rfl, address, hlookup, hfetched⟩

theorem exists_entry {α β : Type*} {R : α → β → Prop} {entries : List α} {results : List β}
    (h : List.Forall₂ R entries results) {result : β} (hmem : result ∈ results) :
    ∃ entry ∈ entries, R entry result := by
  induction h with
  | nil => cases hmem
  | cons hfirst _ ih =>
    rcases List.mem_cons.1 hmem with rfl | hrest
    · exact ⟨_, List.mem_cons_self, hfirst⟩
    · obtain ⟨entry, hentry, hR⟩ := ih hrest
      exact ⟨entry, List.mem_cons_of_mem _ hentry, hR⟩

/-- Each broker of the plan is asked once. -/
theorem brokers_perm {results : List (Int × Fetched)}
    (h : List.Forall₂ (FetchedFrom plan fetchSize maxWaitMs round offsets)
      (round.brokers.toFun plan.brokerPartitions.entries) results) :
    (results.map Prod.fst).Perm plan.brokerPartitions.keys := by
  have heq : results.map Prod.fst =
      (round.brokers.toFun plan.brokerPartitions.entries).map Sigma.fst := by
    generalize round.brokers.toFun plan.brokerPartitions.entries = entries at h ⊢
    induction h with
    | nil => rfl
    | cons hfirst _ ih => rw [List.map_cons, List.map_cons, hfirst.broker, ih]
  rw [heq]
  exact (round.brokers.perm _).map Sigma.fst

/-- What came of the request to a broker, which is for the partitions that the plan has for it. -/
theorem exists_fetched {results : List (Int × Fetched)}
    (h : List.Forall₂ (FetchedFrom plan fetchSize maxWaitMs round offsets)
      (round.brokers.toFun plan.brokerPartitions.entries) results)
    {broker : Int} {fetched : Fetched} (hmem : (broker, fetched) ∈ results) :
    ∃ address, fetchReplicaPartitions (plan.asked broker) (round.cluster broker address
      (fetchRequest (plan.asked broker) offsets fetchSize maxWaitMs)) = .ok fetched := by
  obtain ⟨⟨_, partitions⟩, hentry, rfl, address, -, hfetched⟩ := exists_entry h hmem
  have hasked : plan.asked broker = partitions := by
    rw [ReplicaVerificationPlan.asked, AList.mem_lookup_iff.2 ((round.brokers.perm _).mem_iff.1 hentry)]
    rfl
  rw [hasked]
  exact ⟨address, hfetched⟩

/-- The requests for the partitions of a topic. -/
theorem getD_topics (offsets : TopicPartitionKey → Int) (fetchSize : Int)
    (partitions : List TopicPartitionKey) (topic : String) :
    (partitions.foldl (fun topics key =>
      Multimap.push topics key.topic (fetchPartitionRequest offsets fetchSize key))
      (∅ : Std.TreeMap String (List FetchPartitionRequest))).getD topic [] =
      (partitions.filter fun key => key.topic = topic).map
        (fetchPartitionRequest offsets fetchSize) := by
  induction partitions using List.reverseRecOn with
  | nil => rfl
  | append_singleton partitions key ih =>
    rw [List.foldl_append, List.foldl_cons, List.foldl_nil, Multimap.getD_push, ih,
      List.filter_append, List.map_append]
    by_cases h : key.topic = topic
    · simp [h]
    · simp [h]

/-- A request asks for the partitions that it is made of. -/
theorem mem_fetchRequest {partitions : List TopicPartitionKey} {topic : String}
    {asked : FetchPartitionRequest} :
    (∃ listed, (topic, listed) ∈ (fetchRequest partitions offsets fetchSize maxWaitMs).topics ∧
      asked ∈ listed) ↔ ∃ key ∈ partitions, key.topic = topic ∧
        asked = fetchPartitionRequest offsets fetchSize key := by
  have htopics := getD_topics offsets fetchSize partitions topic
  simp only [fetchRequest, Std.TreeMap.mem_toList_iff_getElem?_eq_some]
  rw [Std.TreeMap.getD_eq_getD_getElem?] at htopics
  constructor
  · intro ⟨listed, hlisted, hasked⟩
    rw [hlisted, Option.getD_some] at htopics
    rw [htopics, List.mem_map] at hasked
    obtain ⟨key, hkey, heq⟩ := hasked
    obtain ⟨hmem, htopic⟩ := List.mem_filter.1 hkey
    exact ⟨key, hmem, by simpa using htopic, heq.symm⟩
  · intro ⟨key, hmem, htopic, heq⟩
    have hasked : asked ∈ (partitions.filter fun key => key.topic = topic).map
        (fetchPartitionRequest offsets fetchSize) :=
      List.mem_map.2 ⟨key, List.mem_filter.2 ⟨hmem, by simpa using htopic⟩, heq.symm⟩
    rw [← htopics] at hasked
    cases hget : (partitions.foldl (fun topics key =>
      Multimap.push topics key.topic (fetchPartitionRequest offsets fetchSize key))
      (∅ : Std.TreeMap String (List FetchPartitionRequest)))[topic]? with
    | none => simp [hget] at hasked
    | some listed => exact ⟨listed, rfl, by simpa [hget] using hasked⟩

end Fetches

section Fetched

theorem lookup_collect {α : Type} [DecidableEq α] {β : Type} (entries : List (α × β)) (key : α) :
    (collect entries).lookup key = entries.reverse.lookup key := by
  induction entries using List.reverseRecOn with
  | nil => rfl
  | append_singleton entries entry ih =>
    rw [collect, List.foldl_append, List.reverse_append, List.reverse_singleton,
      List.singleton_append, List.lookup_cons, ← ih]
    by_cases h : key = entry.1
    · rw [h, beq_self_eq_true]
      exact AList.lookup_insert _
    · rw [beq_eq_false_iff_ne.2 h]
      exact AList.lookup_insert_ne h

theorem mem_of_lookup_collect {α : Type} [DecidableEq α] {β : Type} {entries : List (α × β)}
    {key : α} {value : β} (h : (collect entries).lookup key = some value) :
    (key, value) ∈ entries := by
  rw [lookup_collect, List.lookup_eq_some_iff] at h
  obtain ⟨before, after, heq, -⟩ := h
  rw [← List.mem_reverse, heq]
  exact List.mem_append_right before List.mem_cons_self

theorem isSome_lookup_collect {α : Type} [DecidableEq α] {β : Type} {entries : List (α × β)}
    {key : α} : ((collect entries).lookup key).isSome ↔ key ∈ entries.map Prod.fst := by
  rw [lookup_collect, List.lookup_isSome_iff]
  simp

variable {partitions : List TopicPartitionKey} {key : TopicPartitionKey}

theorem orInsert_isSome (fetched : Fetched) (other : TopicPartitionKey) :
    ((orInsert fetched other).lookup key).isSome ↔ key = other ∨ (fetched.lookup key).isSome := by
  unfold orInsert
  by_cases hsome : (fetched.lookup other).isSome
  · rw [if_pos hsome]
    refine ⟨.inr, fun h => h.elim (fun heq => heq ▸ hsome) id⟩
  · rw [if_neg hsome]
    by_cases hkey : key = other
    · rw [hkey, AList.lookup_insert]
      simp
    · simp [hkey, AList.lookup_insert_ne hkey]

theorem orInsert_eq_some {fetched : Fetched} {other : TopicPartitionKey}
    {data : ReplicaPartitionData} (h : (orInsert fetched other).lookup key = some data) :
    fetched.lookup key = some data ∨ key = other ∧ data = noData := by
  unfold orInsert at h
  by_cases hsome : (fetched.lookup other).isSome
  · rw [if_pos hsome] at h
    exact .inl h
  · rw [if_neg hsome] at h
    by_cases hkey : key = other
    · rw [hkey, AList.lookup_insert, Option.some.injEq] at h
      exact .inr ⟨hkey, h.symm⟩
    · rw [AList.lookup_insert_ne hkey] at h
      exact .inl h

theorem foldl_orInsert_isSome (partitions : List TopicPartitionKey) (fetched : Fetched) :
    ((partitions.foldl orInsert fetched).lookup key).isSome ↔
      key ∈ partitions ∨ (fetched.lookup key).isSome := by
  induction partitions generalizing fetched with
  | nil => simp
  | cons other partitions ih =>
    rw [List.foldl_cons, ih, orInsert_isSome, List.mem_cons]
    tauto

theorem foldl_orInsert_eq_some {fetched : Fetched} {data : ReplicaPartitionData}
    (h : (partitions.foldl orInsert fetched).lookup key = some data) :
    fetched.lookup key = some data ∨ key ∈ partitions ∧ data = noData := by
  induction partitions generalizing fetched with
  | nil => exact .inl h
  | cons other partitions ih =>
    rcases ih h with hlookup | ⟨hmem, hdata⟩
    · rcases orInsert_eq_some hlookup with hbefore | ⟨hkey, hdata⟩
      · exact .inl hbefore
      · exact .inr ⟨hkey ▸ List.mem_cons_self, hdata⟩
    · exact .inr ⟨List.mem_cons_of_mem other hmem, hdata⟩

/-- What a broker is good for: something for each partition that it was asked for, and besides
what it has answered. -/
theorem fetchReplicaPartitions_eq_ok {outcome : FetchOutcome} {fetched : Fetched}
    (h : fetchReplicaPartitions partitions outcome = .ok fetched) :
    (∀ key ∈ partitions, (fetched.lookup key).isSome) ∧
      ∀ key data, fetched.lookup key = some data → key ∈ partitions ∧ data = noData ∨
        ∃ responses, outcome = .answered responses ∧ (key, data) ∈ answeredPartitions responses := by
  cases outcome with
  | unreachable =>
    obtain rfl := Except.ok.inj h
    refine ⟨fun key hkey => isSome_lookup_collect.2 (by simpa using hkey),
      fun key data hdata => .inl ?_⟩
    obtain ⟨other, hother, heq⟩ := List.mem_map.1 (mem_of_lookup_collect hdata)
    obtain ⟨rfl, rfl⟩ := Prod.mk.inj heq
    exact ⟨hother, rfl⟩
  | failed error => cases h
  | answered responses =>
    obtain rfl := Except.ok.inj h
    refine ⟨fun key hkey => (foldl_orInsert_isSome partitions _).2 (.inl hkey),
      fun key data hdata => ?_⟩
    rcases foldl_orInsert_eq_some hdata with hlookup | hmissing
    · exact .inr ⟨responses, rfl, mem_of_lookup_collect hlookup⟩
    · exact .inl hmissing

end Fetched

/-! ## What is in the buffer -/

/-- What a replica returned for a partition. -/
def ReplicaBuffer.response (buffer : ReplicaBuffer) (key : TopicPartitionKey) (replica : Int) :
    Option ReplicaPartitionData :=
  ((buffer.recordsCache key).getD ∅).lookup replica

section Buffer

variable {state : State} {key : TopicPartitionKey} {replica broker : Int}

theorem response_addFetchedData (buffer : ReplicaBuffer) (other key : TopicPartitionKey)
    (broker replica : Int) (data : ReplicaPartitionData) :
    (buffer.addFetchedData other broker data).response key replica =
      if key = other ∧ replica = broker then some data else buffer.response key replica := by
  unfold ReplicaBuffer.response ReplicaBuffer.addFetchedData
  dsimp only
  by_cases hkey : key = other
  · subst hkey
    rw [Function.update_self, Option.getD_some]
    by_cases hreplica : replica = broker
    · rw [if_pos ⟨rfl, hreplica⟩, hreplica, AList.lookup_insert]
    · rw [if_neg fun h => hreplica h.2, AList.lookup_insert_ne hreplica]
  · rw [Function.update_of_ne hkey, if_neg fun h => hkey h.1]

theorem mem_cached_addFetchedData {other : TopicPartitionKey} {data : ReplicaPartitionData} :
    other ∈ (state.addFetchedData key broker data).cached ↔
      other = key ∨ other ∈ state.cached := by
  unfold State.addFetchedData
  by_cases hmem : key ∈ state.cached
  · rw [if_pos hmem]
    exact ⟨.inr, fun h => h.elim (fun heq => heq ▸ hmem) id⟩
  · rw [if_neg hmem, List.mem_append, List.mem_singleton]
    exact or_comm

theorem visits_addFetchedData (h : Visits state.buffer state.cached) (key : TopicPartitionKey)
    (broker : Int) (data : ReplicaPartitionData) :
    Visits (state.addFetchedData key broker data).buffer
      (state.addFetchedData key broker data).cached where
  nodup := by
    unfold State.addFetchedData
    by_cases hmem : key ∈ state.cached
    · simpa [hmem] using h.nodup
    · simpa [hmem, List.nodup_append] using ⟨h.nodup, fun other hother heq => hmem (heq ▸ hother)⟩
  mem_iff other := by
    rw [mem_cached_addFetchedData, h.mem_iff, State.addFetchedData, ReplicaBuffer.addFetchedData]
    by_cases hkey : other = key
    · simp [hkey]
    · simp [hkey]

/-- The answers of a round, one after the other. -/
def answers (round : Round) (results : List (Int × Fetched)) :
    List ((TopicPartitionKey × Int) × ReplicaPartitionData) :=
  results.flatMap fun (broker, fetched) =>
    ((round.fetched broker).toFun fetched.entries).map fun entry => ((entry.1, broker), entry.2)

theorem mem_answers {round : Round} {results : List (Int × Fetched)}
    {data : ReplicaPartitionData} : ((key, broker), data) ∈ answers round results ↔
      ∃ fetched, (broker, fetched) ∈ results ∧ fetched.lookup key = some data := by
  simp only [answers, List.mem_flatMap, List.mem_map, Prod.exists, Prod.mk.injEq]
  refine ⟨fun ⟨broker', fetched, hmem, entry, hentry, ⟨hkey, hbroker⟩, hdata⟩ => ?_,
    fun ⟨fetched, hmem, hdata⟩ => ?_⟩
  · subst hkey hbroker hdata
    exact ⟨fetched, hmem, AList.mem_lookup_iff.2 (((round.fetched _).perm _).mem_iff.1 hentry)⟩
  · exact ⟨broker, fetched, hmem, ⟨key, data⟩,
      ((round.fetched _).perm _).mem_iff.2 (AList.mem_lookup_iff.1 hdata), ⟨rfl, rfl⟩, rfl⟩

theorem addAll_eq (state : State) (round : Round) (results : List (Int × Fetched)) :
    state.addAll round results = (answers round results).foldl
      (fun state answer => state.addFetchedData answer.1.1 answer.1.2 answer.2) state := by
  rw [State.addAll, answers, List.foldl_flatMap]
  simp only [List.foldl_map]
  rfl

/-- What the buffer holds after some answers. -/
structure Filled (answers : List ((TopicPartitionKey × Int) × ReplicaPartitionData))
    (before after : State) : Prop where
  response : ∀ key replica, after.buffer.response key replica =
    (answers.reverse.lookup (key, replica)).or (before.buffer.response key replica)
  visits : Visits before.buffer before.cached → Visits after.buffer after.cached
  cached : ∀ key, key ∈ after.cached ↔
    key ∈ before.cached ∨ ∃ replica data, ((key, replica), data) ∈ answers
  expected : after.buffer.expectedReplicas = before.buffer.expectedReplicas
  offsets : after.buffer.fetchOffsets = before.buffer.fetchOffsets

theorem filled_foldl (answers : List ((TopicPartitionKey × Int) × ReplicaPartitionData))
    (state : State) : Filled answers state (answers.foldl
      (fun state answer => state.addFetchedData answer.1.1 answer.1.2 answer.2) state) := by
  induction answers using List.reverseRecOn with
  | nil => exact ⟨fun _ _ => rfl, id, by simp, rfl, rfl⟩
  | append_singleton answers answer ih =>
    obtain ⟨⟨key, broker⟩, data⟩ := answer
    rw [List.foldl_append, List.foldl_cons, List.foldl_nil]
    refine ⟨fun other replica => ?_, fun h => visits_addFetchedData (ih.visits h) key broker data,
      fun other => ?_, ih.expected, ih.offsets⟩
    · rw [State.addFetchedData, response_addFetchedData, ih.response, List.reverse_append,
        List.reverse_singleton, List.singleton_append, List.lookup_cons]
      by_cases h : (other, replica) = (key, broker)
      · rw [beq_iff_eq.2 h, if_pos (Prod.mk.inj h)]
        rfl
      · rw [beq_eq_false_iff_ne.2 h, if_neg fun heq => h (Prod.ext heq.1 heq.2)]
    · rw [mem_cached_addFetchedData, ih.cached]
      simp only [List.mem_append, List.mem_singleton, Prod.mk.injEq, exists_or]
      constructor
      · rintro (rfl | hbefore | hmem)
        · exact .inr (.inr ⟨broker, data, ⟨rfl, rfl⟩, rfl⟩)
        · exact .inl hbefore
        · exact .inr (.inl hmem)
      · rintro (hbefore | hmem | ⟨_, _, ⟨rfl, -⟩, -⟩)
        · exact .inr (.inl hbefore)
        · exact .inr (.inr hmem)
        · exact .inl rfl

/-- What a broker was good for is in the buffer. -/
theorem Filled.of_fetched {round : Round} {results : List (Int × Fetched)} {before after : State}
    (h : Filled (answers round results) before after) (hnodup : (results.map Prod.fst).Nodup)
    {fetched : Fetched} {data : ReplicaPartitionData} (hmem : (replica, fetched) ∈ results)
    (hdata : fetched.lookup key = some data) : after.buffer.response key replica = some data := by
  rw [h.response]
  cases hlookup : (answers round results).reverse.lookup (key, replica) with
  | none =>
    have hnone := List.lookup_eq_none_iff.1 hlookup ((key, replica), data)
      (List.mem_reverse.2 (mem_answers.2 ⟨fetched, hmem, hdata⟩))
    simp at hnone
  | some data' =>
    obtain ⟨fronts, backs, heq, -⟩ := List.lookup_eq_some_iff.1 hlookup
    have hanswer : ((key, replica), data') ∈ answers round results := by
      rw [← List.mem_reverse, heq]
      exact List.mem_append_right fronts List.mem_cons_self
    obtain ⟨fetched', hmem', hdata'⟩ := mem_answers.1 hanswer
    have hsame : fetched' = fetched := by
      have := List.inj_on_of_nodup_map hnodup hmem' hmem rfl
      exact (Prod.mk.inj this).2
    rw [hsame, hdata] at hdata'
    rw [hdata']
    rfl

end Buffer

/-! ## What is checked -/

/-- A line says that two checksums at an offset differ. -/
def Reported (key : TopicPartitionKey) (offset : Int) (lines : List ReportLine) : Prop :=
  ∃ x cx y cy, cx ≠ cy ∧ .unmatchedChecksum key offset x cx y cy ∈ lines

/-- The rows that were passed and in which the checksums differ have been reported. -/
def RowsReported (key : TopicPartitionKey) (responses : FetchResponse)
    (lines : List ReportLine) : Prop :=
  ∀ i last, (∀ j ≤ i, FullRow responses j) → RowAt responses i last → ChecksumsDiffer responses i →
    Reported key last lines

section Check

variable {key : TopicPartitionKey}

/-- The lines about checksums are those of the offset of the row. -/
theorem offset_of_mem_lines {highWatermarks : Int → Option Int} {info : BatchMessageInfo}
    {cursors : List Cursor} {offset x y : Int} {cx cy : Nat}
    (h : .unmatchedChecksum key offset x cx y cy ∈
      (advanceMatchingBatches key highWatermarks (some info) cursors).lines) :
    offset = info.lastOffset := by
  induction cursors with
  | nil => simp [advanceMatchingBatches] at h
  | cons cursor rest ih =>
    rw [advanceMatchingBatches] at h
    cases hget : cursor.batches[cursor.index]? with
    | none => simp [hget] at h
    | some batch =>
      simp only [hget] at h
      split_ifs at h with hhw hlast
      · simp at h
      · simp at h
      · rcases List.mem_append.1 h with hfirst | hrest
        · unfold checksumLines at hfirst
          split_ifs at hfirst
          · simp only [List.mem_singleton, ReportLine.unmatchedChecksum.injEq] at hfirst
            exact hfirst.2.1.trans (not_not.1 hlast).symm
          · cases hfirst
        · exact ih hrest

theorem offset_of_mem_rowLines {highWatermarks : Int → Option Int} {cursors : List Cursor}
    {i : Nat} {last offset x y : Int} {cx cy : Nat}
    (hscan : scan none (row (lanes highWatermarks cursors) i) = .full last)
    (h : .unmatchedChecksum key offset x cx y cy ∈ rowLines key highWatermarks cursors i) :
    offset = last := by
  cases cursors with
  | nil => simp [rowLines, advanceMatchingBatches] at h
  | cons cursor rest =>
    obtain ⟨batch, hget, hlast, hhw⟩ :=
      lane_eq_some_iff.1 ((scan_eq_full_iff.1 hscan).2 _ List.mem_cons_self)
    subst hlast
    rw [rowLines, List.map_cons, advanceMatchingBatches] at h
    simp only [Cursor.at_, hget, not_le.2 hhw, if_false] at h
    exact offset_of_mem_lines h

/-- What a check of a partition did. -/
theorem verifyPartition_inv {order : IterOrder (Int × List ParsedBatch)}
    {before after : ReplicaBuffer} {responses : FetchResponse} {lines : List ReportLine}
    (hcache : before.recordsCache key = some responses)
    (hrun : verifyPartition order before key = (.ok after, lines)) :
    ∃ moved, MovesTo responses moved ∧ after = afterCheck key responses moved before ∧
      RowsReported key responses lines := by
  obtain ⟨moved, hverifies⟩ := verifies_of_ok hcache hrun
  obtain ⟨lines', hrun'⟩ := hverifies.run before hcache rfl
  have hafter : after = afterCheck key responses moved before := by
    rw [hrun', Prod.mk.injEq, Verification.ok.injEq] at hrun
    exact hrun.1.symm
  refine ⟨moved, hverifies.moves, hafter, fun i last hfull hrow hdiffer => ?_⟩
  have hcount : responses.entries.length = (before.expectedReplicas key).getD 0 := by
    by_contra hcount
    simp [verifyPartition, hcache, hcount] at hrun
  obtain ⟨parsed, hparsed, k, -, hk, -, -, -, rfl⟩ := verifyPartition_eq_ok hcache hcount hrun
  have hrows := full_startCursors_iff order hparsed
  have hlt : i < k := by
    by_contra hle
    exact hk.2 ((hrows k).2 (hfull k (not_lt.1 hle)))
  obtain ⟨offset, hscan⟩ := full_iff_scan.1 (hk.1 i hlt)
  have hoffset : offset = last := (rowAt_of_scan order hparsed hscan).unique (hfull i le_rfl).1 hrow
  obtain ⟨r, hr, s, hs, rBatches, rBatch, sBatches, sBatch, hrok, hrget, hsok, hsget, hne⟩ := hdiffer
  have hline : ∃ found x cx y cy, cx ≠ cy ∧ .unmatchedChecksum key found x cx y cy ∈
      rowLines key (watermarks responses) (startCursors order parsed) i :=
    exists_checksum_line (hk.1 i hlt)
      ((mem_startCursors order hparsed ⟨r.1, 0, rBatches⟩).2 ⟨rfl, r.2, hr, hrok⟩)
      ((mem_startCursors order hparsed ⟨s.1, 0, sBatches⟩).2 ⟨rfl, s.2, hs, hsok⟩) hrget hsget hne
  obtain ⟨found, x, cx, y, cy, hchecksums, hmem⟩ := hline
  have hfound : found = last := (offset_of_mem_rowLines hscan hmem).trans hoffset
  exact ⟨x, cx, y, cy, hchecksums,
    List.mem_flatMap.2 ⟨i, List.mem_range.2 (by omega), hfound ▸ hmem⟩⟩

/-- What the checks of some partitions did. -/
structure ChecksDone (keys : List TopicPartitionKey) (before after : ReplicaBuffer)
    (lines : List ReportLine) : Prop where
  partition : ∀ key ∈ keys, ∀ responses, before.recordsCache key = some responses →
    ∃ moved, MovesTo responses moved ∧ after.offset key = moved.getD (before.offset key) ∧
      after.recordsCache key = some ∅ ∧ RowsReported key responses lines
  cache : ∀ key, (after.recordsCache key).isSome = (before.recordsCache key).isSome
  others : ∀ key, key ∉ keys ∨ before.recordsCache key = none →
    after.fetchOffsets key = before.fetchOffsets key ∧
      after.recordsCache key = before.recordsCache key
  expected : after.expectedReplicas = before.expectedReplicas

theorem RowsReported.mono {responses : FetchResponse} {lines lines' : List ReportLine}
    (h : RowsReported key responses lines) (hsubset : lines ⊆ lines') :
    RowsReported key responses lines' := by
  intro i last hfull hrow hdiffer
  obtain ⟨x, cx, y, cy, hne, hmem⟩ := h i last hfull hrow hdiffer
  exact ⟨x, cx, y, cy, hne, hsubset hmem⟩

/-- One partition, and then the others. -/
theorem ChecksDone.cons {order : IterOrder (Int × List ParsedBatch)}
    {keys : List TopicPartitionKey} {before next after : ReplicaBuffer}
    {first rest : List ReportLine} (h : ChecksDone keys next after rest) (hkey : key ∉ keys)
    (hfirst : verifyPartition order before key = (.ok next, first)) :
    ChecksDone (key :: keys) before after (first ++ rest) := by
  cases hcache : before.recordsCache key with
  | none =>
    have hnext : next = before := by
      simp only [verifyPartition, hcache, Prod.mk.injEq, Verification.ok.injEq] at hfirst
      exact hfirst.1.symm
    subst hnext
    refine ⟨fun other hother responses hsome => ?_, h.cache, fun other hother => ?_, h.expected⟩
    · rcases List.mem_cons.1 hother with rfl | hmem
      · rw [hcache] at hsome
        cases hsome
      · obtain ⟨moved, hmoves, hoffset, hempty, hreported⟩ := h.partition other hmem responses hsome
        exact ⟨moved, hmoves, hoffset, hempty,
          hreported.mono (List.subset_append_right first rest)⟩
    · rcases hother with hother | hnone
      · exact h.others other (.inl fun hmem => hother (List.mem_cons_of_mem key hmem))
      · exact h.others other (.inr hnone)
  | some responses =>
    obtain ⟨moved, hmoves, rfl, hreported⟩ := verifyPartition_inv hcache hfirst
    have hcached : ∀ other ≠ key, (afterCheck key responses moved before).recordsCache other =
        before.recordsCache other := by
      intro other hne
      rw [afterCheck_recordsCache, Function.update_of_ne hne]
    have hfetch : ∀ other ≠ key, (afterCheck key responses moved before).fetchOffsets other =
        before.fetchOffsets other := by
      intro other hne
      rw [afterCheck_fetchOffsets, moveOffset_of_ne _ _ _ hne]
    refine ⟨fun other hother responses' hsome => ?_, fun other => ?_, fun other hother => ?_,
      h.expected.trans (afterCheck_expectedReplicas _ _ _ _)⟩
    · rcases List.mem_cons.1 hother with rfl | hmem
      · obtain rfl : responses = responses' := Option.some.inj (hcache.symm.trans hsome)
        obtain ⟨hoffset, hempty⟩ := h.others other (.inl hkey)
        refine ⟨moved, hmoves, ?_, ?_, hreported.mono (List.subset_append_left first rest)⟩
        · rw [ReplicaBuffer.offset, hoffset, afterCheck_fetchOffsets, moveOffset_getD]
        · rw [hempty, afterCheck_recordsCache, Function.update_self]
      · have hne : other ≠ key := fun heq => hkey (heq ▸ hmem)
        rw [← hcached other hne] at hsome
        obtain ⟨moved', hmoves', hoffset, hempty, hreported'⟩ :=
          h.partition other hmem responses' hsome
        refine ⟨moved', hmoves', ?_, hempty,
          hreported'.mono (List.subset_append_right first rest)⟩
        rw [hoffset, ReplicaBuffer.offset, ReplicaBuffer.offset, hfetch other hne]
    · rw [h.cache]
      by_cases hne : other = key
      · rw [hne, afterCheck_recordsCache, Function.update_self, hcache]
        rfl
      · rw [hcached other hne]
    · have hne : other ≠ key := by
        rintro rfl
        rcases hother with hother | hnone
        · exact hother List.mem_cons_self
        · rw [hcache] at hnone
          cases hnone
      have hother' : other ∉ keys ∨
          (afterCheck key responses moved before).recordsCache other = none := by
        rw [hcached other hne]
        exact hother.imp_left fun h hmem => h (List.mem_cons_of_mem key hmem)
      rw [(h.others other hother').1, (h.others other hother').2, hcached other hne,
        hfetch other hne]
      exact ⟨rfl, rfl⟩

theorem verifyPartitions_inv {orders : TopicPartitionKey → IterOrder (Int × List ParsedBatch)}
    {keys : List TopicPartitionKey} {before after : ReplicaBuffer} {lines : List ReportLine}
    (hnodup : keys.Nodup) (hrun : verifyPartitions orders keys before = (.ok after, lines)) :
    ChecksDone keys before after lines := by
  induction keys generalizing before lines with
  | nil =>
    simp only [verifyPartitions, Prod.mk.injEq, Verification.ok.injEq] at hrun
    obtain ⟨rfl, -⟩ := hrun
    exact ⟨fun _ h => absurd h List.not_mem_nil, fun _ => rfl, fun _ _ => ⟨rfl, rfl⟩, rfl⟩
  | cons key keys ih =>
    obtain ⟨hkey, hnodup⟩ := List.nodup_cons.1 hnodup
    rw [verifyPartitions] at hrun
    cases hfirst : verifyPartition (orders key) before key with
    | mk verification firstLines =>
    cases verification with
    | err error => simp [hfirst] at hrun
    | exited code => simp [hfirst] at hrun
    | ok next =>
      rw [hfirst] at hrun
      dsimp only at hrun
      cases hrest : verifyPartitions orders keys next with
      | mk verification rest =>
      rw [hrest] at hrun
      obtain ⟨rfl, rfl⟩ := Prod.mk.inj hrun
      exact (ih hnodup hrest).cons hkey hfirst

end Check

/-- What a round did that has ended well. -/
structure RoundDone (plan : ReplicaVerificationPlan) (fetchSize maxWaitMs : Int) (round : Round)
    (before after : State) (lines : List ChecksumLine) (results : List (Int × Fetched))
    (filled : State) : Prop where
  fetched : List.Forall₂ (FetchedFrom plan fetchSize maxWaitMs round before.buffer.offset)
    (round.brokers.toFun plan.brokerPartitions.entries) results
  fills : Filled (answers round results) before filled
  checked : ∃ checkLines : List ReportLine,
    ChecksDone (round.cache.toFun filled.cached) filled.buffer after.buffer checkLines ∧
      ∀ line ∈ checkLines, .ofPartition line ∈ lines
  cached : after.cached = filled.cached
  visits : Visits after.buffer after.cached

theorem replicaVerificationRound_inv {plan : ReplicaVerificationPlan} {fetchSize maxWaitMs : Int}
    {round : Round} {before after : State} {lines : List ChecksumLine}
    (hvisits : Visits before.buffer before.cached)
    (hrun : replicaVerificationRound plan fetchSize maxWaitMs round before = (.ok after, lines)) :
    ∃ results filled,
      RoundDone plan fetchSize maxWaitMs round before after lines results filled := by
  unfold replicaVerificationRound at hrun
  cases hfetch : fetchAll plan fetchSize maxWaitMs round before.buffer.offset with
  | error error => simp [hfetch] at hrun
  | ok results =>
    have hfilled : Filled (answers round results) before (before.addAll round results) := by
      rw [addAll_eq]
      exact filled_foldl _ _
    have hkeys := hfilled.visits hvisits
    rw [hfetch] at hrun
    unfold verifyChecksum at hrun
    dsimp only at hrun
    cases hchecks : verifyPartitions round.cursors
      (round.cache.toFun (before.addAll round results).cached)
      (before.addAll round results).buffer.resetLag with
    | mk verification checkLines =>
    rw [ReplicaBuffer.resetLag] at hchecks
    rw [hchecks] at hrun
    cases verification with
    | err error => simp at hrun
    | exited code => simp at hrun
    | ok buffer =>
      obtain ⟨hafter, rfl⟩ := Prod.mk.inj hrun
      obtain rfl := Ending.ok.inj hafter
      have hdone := verifyPartitions_inv ((round.cache.perm _).nodup_iff.2 hkeys.nodup) hchecks
      have hdone' : ChecksDone (round.cache.toFun (before.addAll round results).cached)
          (before.addAll round results).buffer buffer checkLines :=
        ⟨hdone.partition, hdone.cache, hdone.others, hdone.expected⟩
      refine ⟨results, before.addAll round results, fetchAll_eq_ok hfetch, hfilled,
        ⟨checkLines, hdone', fun line hline => ?_⟩, rfl, hkeys.nodup, fun key => ?_⟩
      · exact List.mem_append_left _ (List.mem_map_of_mem hline)
      · rw [hkeys.mem_iff, hdone'.cache]

end KafkaCli.Replica
