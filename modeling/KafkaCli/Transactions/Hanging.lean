import KafkaCli.Error
import KafkaCli.Lib.Checked
import KafkaCli.Lib.MachineInt
import Mathlib.Algebra.Order.Group.Int

/-!
# Hanging transactions

`transactions find-hanging` asks each partition that it watches for the transactions that are open
there, and then the coordinators for the transactions of the producers that have been idle for too
long. It prints the open transactions of which no coordinator knows that they write to the
partition. `transactions abort` ends such a transaction, given the offset where it starts, or the
producer and the epochs that have been printed.

**Theorem (`findHanging_iff`).** If the answers are those of one state of the cluster, and its
timestamps are no further from the clock than 64 bits allow, the rows are exactly the open
transactions that are idle for too long and that belong to no coordinator.

**Theorem (`abort_hanging`).** For each row, the two ways to name the transaction lead to the same
marker.
-/

namespace KafkaCli.Transactions

open Checked

/-! ## Data of the replies -/

structure ProducerState where
  producerId : Int
  producerEpoch : Int
  lastSequence : Int
  lastTimestamp : Int
  coordinatorEpoch : Int
  currentTxnStartOffset : Int
  deriving DecidableEq, Repr

structure PartitionProducers where
  partitionIndex : Int
  errorMessage : Option String
  activeProducers : List ProducerState
  deriving DecidableEq, Repr

structure TopicProducers where
  name : String
  partitions : List PartitionProducers
  deriving DecidableEq, Repr

structure PartitionMetadata where
  id : Int
  replicas : List Int
  deriving DecidableEq, Repr

structure TopicMetadata where
  name : String
  partitions : List PartitionMetadata
  deriving DecidableEq, Repr

structure TransactionListing where
  transactionalId : String
  producerId : Int
  deriving DecidableEq, Repr

structure TransactionTopic where
  topic : String
  partitions : List Int
  deriving DecidableEq, Repr

structure TransactionDescription where
  transactionalId : String
  producerId : Int
  topics : List TransactionTopic
  deriving DecidableEq, Repr

/-- `WritableTxnMarker` for a transaction that is aborted. -/
structure WritableTxnMarker where
  producerId : Int
  producerEpoch : Int
  topic : String
  partition : Int
  coordinatorEpoch : Int
  deriving DecidableEq, Repr

/-- What the cluster answers; the answer about producers may come from a broker that is named. -/
structure TransactionServer where
  fetchMetadata : Option String → Result (List TopicMetadata)
  describeCluster : Result (List Int)
  describeProducers : Option Int → String → Int → Result (List TopicProducers)
  listTransactions : List Int → Result (List TransactionListing)
  describeTransactions : List String → Result (List TransactionDescription)
  writeTxnMarkers : WritableTxnMarker → Result (List (Option String))

/-! ## The algorithm -/

structure ProducerStateRow where
  producerId : Int
  producerEpoch : Int
  latestCoordinatorEpoch : Int
  lastSequence : Int
  lastTimestamp : Int
  currentTransactionStartOffset : Option Int
  deriving DecidableEq, Repr

/-- The row of a producer; without a transaction it has no start offset. -/
def producerStateRow (producer : ProducerState) : ProducerStateRow where
  producerId := producer.producerId
  producerEpoch := producer.producerEpoch
  latestCoordinatorEpoch := producer.coordinatorEpoch
  lastSequence := producer.lastSequence
  lastTimestamp := producer.lastTimestamp
  currentTransactionStartOffset :=
    if 0 ≤ producer.currentTxnStartOffset then some producer.currentTxnStartOffset else none

/-- A broker that is named has to be in the cluster. -/
def findBroker (server : TransactionServer) : Option Int → Result Unit
  | none => .ok ()
  | some brokerId => do
    let brokers ← server.describeCluster
    failIf (brokerId ∉ brokers) (.usage s!"broker {brokerId} was not described")

def transactionProducerStates (server : TransactionServer) (brokerId : Option Int)
    (topic : String) (partition : Int) : Result (List ProducerStateRow) := do
  failIf (partition < 0) (.usage "partition must be non-negative")
  findBroker server brokerId
  let result ← server.describeProducers brokerId topic partition
  match (result.flatMap (·.partitions)).find? (·.partitionIndex = partition) with
  | none => .error (.config s!"no producer state returned for {topic}-{partition}")
  | some found =>
    match found.errorMessage with
    | some error => .error (.config error)
    | none => .ok (found.activeProducers.map producerStateRow)

structure FindHangingArgs where
  brokerId : Option Int
  maxTransactionTimeout : Int
  topic : Option String
  partition : Option Int
  deriving DecidableEq, Repr

/-- The partition is watched. -/
def FindHangingArgs.watches (args : FindHangingArgs) (topic : TopicMetadata)
    (partition : PartitionMetadata) : Bool :=
  args.topic.all (· = topic.name) && args.partition.all (· = partition.id) &&
    args.brokerId.all (· ∈ partition.replicas)

def hangingTargets (args : FindHangingArgs) (metadata : List TopicMetadata) :
    List (String × Int) :=
  metadata.flatMap fun topic =>
    (topic.partitions.filter (args.watches topic)).map fun partition => (topic.name, partition.id)

/-- An open transaction of a partition that has been idle for longer than the threshold. -/
def idleTooLong (now threshold : Int) (state : ProducerStateRow) : Bool :=
  state.currentTransactionStartOffset.isSome && threshold < wrap64 (now - state.lastTimestamp)

structure HangingCandidate where
  topic : String
  partition : Int
  state : ProducerStateRow
  deriving DecidableEq, Repr

def hangingCandidates (server : TransactionServer) (brokerId : Option Int) (now threshold : Int)
    (targets : List (String × Int)) : Result (List HangingCandidate) := do
  let found ← targets.mapM fun (topic, partition) => do
    let states ← transactionProducerStates server brokerId topic partition
    return (states.filter (idleTooLong now threshold)).map fun state => ⟨topic, partition, state⟩
  return found.flatten

/-- The transaction writes to the partition. -/
def TransactionDescription.covers (description : TransactionDescription) (topic : String)
    (partition : Int) : Bool :=
  description.topics.any fun candidate =>
    candidate.topic = topic && candidate.partitions.contains partition

/-- A coordinator knows the transaction of the candidate. -/
def stillOwned (listings : List TransactionListing) (descriptions : List TransactionDescription)
    (candidate : HangingCandidate) : Bool :=
  match listings.find? (·.producerId = candidate.state.producerId) with
  | none => false
  | some listing =>
    match descriptions.find? (·.transactionalId = listing.transactionalId) with
    | none => false
    | some description => description.covers candidate.topic candidate.partition

structure HangingTransactionRow where
  topic : String
  partition : Int
  producerId : Int
  producerEpoch : Int
  coordinatorEpoch : Int
  startOffset : Int
  lastTimestamp : Int
  durationMinutes : Int
  deriving DecidableEq, Repr

def hangingTransactionRow (now : Int) (candidate : HangingCandidate) : HangingTransactionRow where
  topic := candidate.topic
  partition := candidate.partition
  producerId := candidate.state.producerId
  producerEpoch := candidate.state.producerEpoch
  coordinatorEpoch := candidate.state.latestCoordinatorEpoch
  startOffset := candidate.state.currentTransactionStartOffset.getD (-1)
  lastTimestamp := candidate.state.lastTimestamp
  durationMinutes := (wrap64 (now - candidate.state.lastTimestamp)).tdiv 60000

/-- `transactions find-hanging`. -/
def findHanging (server : TransactionServer) (args : FindHangingArgs) (now : Int) :
    Result (List HangingTransactionRow) := do
  failIf (args.topic = none ∧ args.brokerId = none)
    (.usage "find-hanging requires either --topic or --broker-id")
  failIf (args.maxTransactionTimeout < 0) (.usage "max transaction timeout must be non-negative")
  let metadata ← server.fetchMetadata args.topic
  let candidates ← hangingCandidates server args.brokerId now (args.maxTransactionTimeout * 60000)
    (hangingTargets args metadata)
  let listings ← server.listTransactions (candidates.map (·.state.producerId))
  let descriptions ← server.describeTransactions (listings.map (·.transactionalId))
  return (candidates.filter (!stillOwned listings descriptions ·)).map (hangingTransactionRow now)

/-- How a transaction to abort is named. -/
structure AbortArgs where
  topic : String
  partition : Int
  startOffset : Option Int
  producerId : Option Int
  producerEpoch : Option Int
  coordinatorEpoch : Option Int
  deriving DecidableEq, Repr

/-- The marker that ends the transaction. -/
def abortMarker (server : TransactionServer) (args : AbortArgs) : Result WritableTxnMarker :=
  match args.startOffset with
  | some startOffset => do
    let states ← transactionProducerStates server none args.topic args.partition
    match states.find? (·.currentTransactionStartOffset = some startOffset) with
    | none => .error (.usage (s!"could not find any open transactions starting at offset " ++
        s!"{startOffset} on partition {args.topic}-{args.partition}"))
    | some state =>
      if -2 ^ 15 ≤ state.producerEpoch ∧ state.producerEpoch < 2 ^ 15 then
        .ok ⟨state.producerId, state.producerEpoch, args.topic, args.partition,
          max state.latestCoordinatorEpoch 0⟩
      else .error (.config "producer epoch exceeds i16")
  | none =>
    match args.producerId, args.producerEpoch, args.coordinatorEpoch with
    | some producerId, some producerEpoch, some coordinatorEpoch =>
      .ok ⟨producerId, producerEpoch, args.topic, args.partition, max coordinatorEpoch 0⟩
    | _, _, _ => .error (.usage ("the transaction must be identified with --start-offset or " ++
        "--producer-id, --producer-epoch, and --coordinator-epoch"))

/-- `transactions abort`. -/
def abortTransaction (server : TransactionServer) (args : AbortArgs) : Result Unit := do
  let marker ← abortMarker server args
  let results ← server.writeTxnMarkers marker
  let errors := results.filterMap id
  failIf (errors ≠ []) (.partialFailure errors.length 1)

/-! ## A state of the cluster -/

/-- The producers of each partition, and the transactions that the coordinators know. -/
structure TransactionCluster where
  producers : String → Int → List ProducerState
  transactions : List TransactionDescription
  id_injective : ∀ a ∈ transactions, ∀ b ∈ transactions,
    a.transactionalId = b.transactionalId → a = b
  producer_injective : ∀ a ∈ transactions, ∀ b ∈ transactions, a.producerId = b.producerId → a = b

/-- The answers are those of one state of the cluster. Without producers to list, all transactions
are listed. -/
structure Answers (server : TransactionServer) (cluster : TransactionCluster) : Prop where
  producers : ∀ brokerId topic partition reply found,
    server.describeProducers brokerId topic partition = .ok reply →
      found ∈ reply.flatMap (·.partitions) → found.partitionIndex = partition →
        found.errorMessage = none → found.activeProducers = cluster.producers topic partition
  listed : ∀ producerIds listings, server.listTransactions producerIds = .ok listings →
    ∀ listing, listing ∈ listings ↔ ∃ transaction ∈ cluster.transactions,
      (producerIds = [] ∨ transaction.producerId ∈ producerIds) ∧
        listing = ⟨transaction.transactionalId, transaction.producerId⟩
  described : ∀ ids descriptions, server.describeTransactions ids = .ok descriptions →
    ∀ description, description ∈ descriptions ↔
      description ∈ cluster.transactions ∧ description.transactionalId ∈ ids

/-- A coordinator knows that the producer writes to the partition. -/
def TransactionCluster.Owned (cluster : TransactionCluster) (topic : String) (partition : Int)
    (producerId : Int) : Prop :=
  ∃ transaction ∈ cluster.transactions, transaction.producerId = producerId ∧
    transaction.covers topic partition = true

/-- An open transaction that is idle for too long and belongs to no coordinator. -/
structure Hangs (cluster : TransactionCluster) (args : FindHangingArgs) (now : Int)
    (topic : String) (partition : Int) (producer : ProducerState) : Prop where
  active : producer ∈ cluster.producers topic partition
  isOpen : 0 ≤ producer.currentTxnStartOffset
  idle : args.maxTransactionTimeout * 60000 < now - producer.lastTimestamp
  forgotten : ¬ cluster.Owned topic partition producer.producerId

/-- No timestamp is so far from the clock that the distance does not fit into 64 bits. -/
def TransactionCluster.Dated (cluster : TransactionCluster) (now : Int) : Prop :=
  ∀ topic partition, ∀ producer ∈ cluster.producers topic partition,
    Fits64 (now - producer.lastTimestamp)

/-- No two transactions that are open on a partition start at the same offset. -/
def TransactionCluster.StartsDiffer (cluster : TransactionCluster) : Prop :=
  ∀ topic partition, ∀ a ∈ cluster.producers topic partition,
    ∀ b ∈ cluster.producers topic partition, 0 ≤ a.currentTxnStartOffset →
      a.currentTxnStartOffset = b.currentTxnStartOffset → a = b

/-! ## A forgotten transaction -/

/-- The producers of a cluster where the producer 7 is forgotten, and 8 is not. -/
def sampleProducers : List ProducerState :=
  [⟨7, 1, 0, 0, 3, 40⟩, ⟨8, 1, 0, 0, 3, 45⟩, ⟨9, 0, 0, 0, 3, -1⟩]

def sampleTransactions : List TransactionDescription := [⟨"orders", 8, [⟨"t", [0]⟩]⟩]

def sampleServer : TransactionServer where
  fetchMetadata _ := .ok [⟨"t", [⟨0, [1]⟩]⟩]
  describeCluster := .ok [1]
  describeProducers _ topic partition := .ok [⟨topic, [⟨partition, none, sampleProducers⟩]⟩]
  listTransactions ids := .ok ((sampleTransactions.filter fun transaction =>
    ids = [] ∨ transaction.producerId ∈ ids).map fun transaction =>
      ⟨transaction.transactionalId, transaction.producerId⟩)
  describeTransactions ids := .ok (sampleTransactions.filter (·.transactionalId ∈ ids))
  writeTxnMarkers _ := .ok [none]

def sampleCluster : TransactionCluster where
  producers _ _ := sampleProducers
  transactions := sampleTransactions
  id_injective := by simp [sampleTransactions]
  producer_injective := by simp [sampleTransactions]

theorem answers_sample : Answers sampleServer sampleCluster where
  producers := by
    intro brokerId topic partition reply found hreply hmem hindex herror
    obtain rfl := Except.ok.inj hreply
    obtain rfl : found = ⟨partition, none, sampleProducers⟩ := by simpa using hmem
    rfl
  listed := by
    intro ids listings hlistings listing
    obtain rfl := Except.ok.inj hlistings
    simp only [List.mem_map, List.mem_filter, decide_eq_true_eq]
    constructor
    · intro h
      obtain ⟨transaction, ⟨hmem, hasked⟩, rfl⟩ := h
      exact ⟨transaction, hmem, hasked, rfl⟩
    · intro h
      obtain ⟨transaction, hmem, hasked, rfl⟩ := h
      exact ⟨transaction, ⟨hmem, hasked⟩, rfl⟩
  described := by
    intro ids descriptions hdescriptions description
    obtain rfl := Except.ok.inj hdescriptions
    rw [List.mem_filter, decide_eq_true_eq]
    rfl

theorem startsDiffer_sample : sampleCluster.StartsDiffer := by
  intro topic partition a ha b hb hopen hsame
  simp only [sampleCluster, sampleProducers, List.mem_cons, List.not_mem_nil, or_false] at ha hb
  rcases ha with rfl | rfl | rfl <;> rcases hb with rfl | rfl | rfl <;> simp_all

/-! ## What is found -/

section Found

variable {server : TransactionServer} {cluster : TransactionCluster} {brokerId : Option Int}
  {topic : String} {partition now threshold : Int}

theorem transactionProducerStates_ok (hanswers : Answers server cluster)
    {states : List ProducerStateRow}
    (h : transactionProducerStates server brokerId topic partition = .ok states) :
    states = (cluster.producers topic partition).map producerStateRow := by
  simp only [transactionProducerStates, bind_eq_ok] at h
  obtain ⟨_, -, _, -, reply, hreply, h⟩ := h
  cases hfind : (reply.flatMap (·.partitions)).find? (·.partitionIndex = partition) with
  | none =>
    rw [hfind] at h
    cases h
  | some found =>
    rw [hfind] at h
    dsimp only at h
    cases herror : found.errorMessage with
    | some error =>
      rw [herror] at h
      cases h
    | none =>
      rw [herror] at h
      obtain rfl := Except.ok.inj h
      rw [hanswers.producers brokerId topic partition reply found hreply
        (List.mem_of_find?_eq_some hfind) (by simpa using List.find?_some hfind) herror]

theorem mem_hangingCandidates (hanswers : Answers server cluster)
    {targets : List (String × Int)} {candidates : List HangingCandidate}
    (h : hangingCandidates server brokerId now threshold targets = .ok candidates)
    {candidate : HangingCandidate} :
    candidate ∈ candidates ↔ (candidate.topic, candidate.partition) ∈ targets ∧
      ∃ producer ∈ cluster.producers candidate.topic candidate.partition,
        candidate.state = producerStateRow producer ∧
          idleTooLong now threshold candidate.state = true := by
  simp only [hangingCandidates, bind_eq_ok, pure_eq_ok] at h
  obtain ⟨found, hfound, rfl⟩ := h
  have hall := forall₂_of_mapM_ok hfound
  clear hfound
  induction hall with
  | nil => simp
  | @cons target states targets found hfirst hrest ih =>
    obtain ⟨topic, partition⟩ := target
    simp only [bind_eq_ok, pure_eq_ok] at hfirst
    obtain ⟨rows, hrows, rfl⟩ := hfirst
    rw [transactionProducerStates_ok hanswers hrows]
    rw [List.flatten_cons, List.mem_append, List.mem_cons]
    constructor
    · intro hmem
      rcases hmem with hmem | hmem
      · simp only [List.mem_map, List.mem_filter] at hmem
        obtain ⟨state, ⟨⟨producer, hproducer, rfl⟩, hidle⟩, rfl⟩ := hmem
        exact ⟨.inl rfl, producer, hproducer, rfl, hidle⟩
      · obtain ⟨htarget, hrow⟩ := ih.1 hmem
        exact ⟨.inr htarget, hrow⟩
    · intro hmem
      obtain ⟨htarget | htarget, producer, hproducer, hstate, hidle⟩ := hmem
      · obtain ⟨rfl, rfl⟩ := Prod.mk.inj htarget
        refine .inl (List.mem_map.2 ⟨candidate.state, List.mem_filter.2 ⟨?_, hidle⟩, rfl⟩)
        exact List.mem_map.2 ⟨producer, hproducer, hstate.symm⟩
      · exact .inr (ih.2 ⟨htarget, producer, hproducer, hstate, hidle⟩)

/-- **The coordinators** are asked for enough to know whether a candidate is theirs. -/
theorem stillOwned_iff (hanswers : Answers server cluster) {producerIds : List Int}
    {listings : List TransactionListing} {descriptions : List TransactionDescription}
    (hlistings : server.listTransactions producerIds = .ok listings)
    (hdescriptions : server.describeTransactions (listings.map (·.transactionalId)) =
      .ok descriptions)
    {candidate : HangingCandidate} (hasked : candidate.state.producerId ∈ producerIds) :
    stillOwned listings descriptions candidate = true ↔
      cluster.Owned candidate.topic candidate.partition candidate.state.producerId := by
  have hlisted := hanswers.listed producerIds listings hlistings
  have hdescribed := hanswers.described _ descriptions hdescriptions
  rw [stillOwned]
  constructor
  · intro h
    cases hlisting : listings.find? (·.producerId = candidate.state.producerId) with
    | none =>
      rw [hlisting] at h
      cases h
    | some listing =>
      rw [hlisting] at h
      dsimp only at h
      cases hdescription : descriptions.find? (·.transactionalId = listing.transactionalId) with
      | none =>
        rw [hdescription] at h
        cases h
      | some description =>
        rw [hdescription] at h
        obtain ⟨transaction, htransaction, -, rfl⟩ :=
          (hlisted listing).1 (List.mem_of_find?_eq_some hlisting)
        obtain ⟨hmem, -⟩ := (hdescribed description).1 (List.mem_of_find?_eq_some hdescription)
        have hid : description.transactionalId = transaction.transactionalId :=
          by simpa using List.find?_some hdescription
        obtain rfl := cluster.id_injective description hmem transaction htransaction hid
        exact ⟨description, hmem, by simpa using List.find?_some hlisting, h⟩
  · intro h
    obtain ⟨transaction, htransaction, hproducer, hcovers⟩ := h
    have hmem : (⟨transaction.transactionalId, transaction.producerId⟩ : TransactionListing) ∈
        listings := (hlisted _).2 ⟨transaction, htransaction, .inr (hproducer ▸ hasked), rfl⟩
    obtain ⟨listing, hlisting⟩ : ∃ listing,
        listings.find? (·.producerId = candidate.state.producerId) = some listing :=
      Option.isSome_iff_exists.1 (List.find?_isSome.2 ⟨_, hmem, decide_eq_true hproducer⟩)
    obtain ⟨transaction', htransaction', -, rfl⟩ :=
      (hlisted listing).1 (List.mem_of_find?_eq_some hlisting)
    have hsame : transaction'.producerId = transaction.producerId := by
      rw [hproducer]
      simpa using List.find?_some hlisting
    obtain rfl := cluster.producer_injective transaction' htransaction' transaction htransaction
      hsame
    have hmem' : transaction' ∈ descriptions :=
      (hdescribed transaction').2 ⟨htransaction, List.mem_map.2 ⟨_, hmem, rfl⟩⟩
    obtain ⟨description, hdescription⟩ : ∃ description,
        descriptions.find? (·.transactionalId = transaction'.transactionalId) =
          some description :=
      Option.isSome_iff_exists.1 (List.find?_isSome.2 ⟨_, hmem', decide_eq_true rfl⟩)
    obtain ⟨hthere, -⟩ := (hdescribed description).1 (List.mem_of_find?_eq_some hdescription)
    obtain rfl := cluster.id_injective description hthere transaction' htransaction
      (by simpa using List.find?_some hdescription)
    rw [hlisting]
    dsimp only
    rw [hdescription]
    exact hcovers

theorem idleTooLong_iff {producer : ProducerState} :
    idleTooLong now threshold (producerStateRow producer) = true ↔
      0 ≤ producer.currentTxnStartOffset ∧
        threshold < wrap64 (now - producer.lastTimestamp) := by
  rw [idleTooLong, Bool.and_eq_true, decide_eq_true_eq, producerStateRow]
  by_cases hopen : 0 ≤ producer.currentTxnStartOffset
  · simp [hopen]
  · simp [hopen]

end Found

/-- What a run that returns rows has read. -/
theorem findHanging_ok {server : TransactionServer} {args : FindHangingArgs} {now : Int}
    {rows : List HangingTransactionRow} (h : findHanging server args now = .ok rows) :
    0 ≤ args.maxTransactionTimeout ∧ ∃ metadata candidates listings descriptions,
      server.fetchMetadata args.topic = .ok metadata ∧
      hangingCandidates server args.brokerId now (args.maxTransactionTimeout * 60000)
        (hangingTargets args metadata) = .ok candidates ∧
      server.listTransactions (candidates.map (·.state.producerId)) = .ok listings ∧
      server.describeTransactions (listings.map (·.transactionalId)) = .ok descriptions ∧
      rows = (candidates.filter (!stillOwned listings descriptions ·)).map
        (hangingTransactionRow now) := by
  simp only [findHanging, bind_eq_ok, failIf_eq_ok, pure_eq_ok] at h
  obtain ⟨_, -, _, htimeout, metadata, hmetadata, candidates, hcandidates, listings, hlistings,
    descriptions, hdescriptions, rfl⟩ := h
  exact ⟨by omega, metadata, candidates, listings, descriptions, hmetadata, hcandidates, hlistings,
    hdescriptions, rfl⟩

/-- **What is printed** is what hangs. -/
theorem findHanging_iff (server : TransactionServer) (cluster : TransactionCluster)
    (hanswers : Answers server cluster) (args : FindHangingArgs) (now : Int)
    (hdated : cluster.Dated now) (rows : List HangingTransactionRow)
    (hrun : findHanging server args now = .ok rows) :
    ∃ metadata, server.fetchMetadata args.topic = .ok metadata ∧
      ∀ row, row ∈ rows ↔ ∃ topic partition producer,
        (topic, partition) ∈ hangingTargets args metadata ∧
        Hangs cluster args now topic partition producer ∧
        row = hangingTransactionRow now ⟨topic, partition, producerStateRow producer⟩ := by
  obtain ⟨-, metadata, candidates, listings, descriptions, hmetadata, hcandidates, hlistings,
    hdescriptions, rfl⟩ := findHanging_ok hrun
  refine ⟨metadata, hmetadata, fun row => ?_⟩
  have howned : ∀ candidate ∈ candidates, stillOwned listings descriptions candidate = true ↔
      cluster.Owned candidate.topic candidate.partition candidate.state.producerId :=
    fun candidate hmem => stillOwned_iff hanswers hlistings hdescriptions
      (List.mem_map_of_mem hmem)
  rw [List.mem_map]
  constructor
  · intro h
    obtain ⟨candidate, hmem, rfl⟩ := h
    obtain ⟨hcandidate, hforgotten⟩ := List.mem_filter.1 hmem
    obtain ⟨htarget, producer, hproducer, hstate, hidle⟩ :=
      (mem_hangingCandidates hanswers hcandidates).1 hcandidate
    rw [hstate, idleTooLong_iff, wrap64_of_fits (hdated _ _ producer hproducer)] at hidle
    have hnot : ¬ cluster.Owned candidate.topic candidate.partition producer.producerId := by
      intro h
      have hsame : candidate.state.producerId = producer.producerId := by rw [hstate]; rfl
      rw [← hsame, ← howned candidate hcandidate] at h
      rw [h] at hforgotten
      cases hforgotten
    refine ⟨candidate.topic, candidate.partition, producer, htarget,
      ⟨hproducer, hidle.1, hidle.2, hnot⟩, ?_⟩
    rw [← hstate]
  · intro h
    obtain ⟨topic, partition, producer, htarget, hhangs, rfl⟩ := h
    have hidle : args.maxTransactionTimeout * 60000 < wrap64 (now - producer.lastTimestamp) := by
      rw [wrap64_of_fits (hdated topic partition producer hhangs.active)]
      exact hhangs.idle
    have hcandidate : ⟨topic, partition, producerStateRow producer⟩ ∈ candidates :=
      (mem_hangingCandidates hanswers hcandidates).2
        ⟨htarget, producer, hhangs.active, rfl, idleTooLong_iff.2 ⟨hhangs.isOpen, hidle⟩⟩
    refine ⟨_, List.mem_filter.2 ⟨hcandidate, ?_⟩, rfl⟩
    rw [Bool.not_eq_true', Bool.eq_false_iff]
    intro h
    exact hhangs.forgotten ((howned _ hcandidate).1 h)

theorem dated_sample : sampleCluster.Dated 1000000 := by
  intro topic partition producer hmem
  simp only [sampleCluster, sampleProducers, List.mem_cons, List.not_mem_nil, or_false] at hmem
  rcases hmem with rfl | rfl | rfl <;> simp [Fits64]

theorem findHanging_iff_sample :
    findHanging sampleServer ⟨none, 15, some "t", none⟩ 1000000 =
        .ok [⟨"t", 0, 7, 1, 3, 40, 0, 16⟩] ∧
      ∃ topic partition producer, Hangs sampleCluster ⟨none, 15, some "t", none⟩ 1000000 topic
        partition producer := by
  have hrun : findHanging sampleServer ⟨none, 15, some "t", none⟩ 1000000 =
      .ok [⟨"t", 0, 7, 1, 3, 40, 0, 16⟩] := by decide +kernel
  obtain ⟨metadata, -, hrows⟩ := findHanging_iff sampleServer sampleCluster answers_sample
    ⟨none, 15, some "t", none⟩ 1000000 dated_sample _ hrun
  obtain ⟨topic, partition, producer, -, hhangs, -⟩ :=
    (hrows ⟨"t", 0, 7, 1, 3, 40, 0, 16⟩).1 List.mem_cons_self
  exact ⟨hrun, topic, partition, producer, hhangs⟩

/-! ## What is aborted -/

/-- The producer whose transaction starts at an offset. -/
theorem find_startOffset {cluster : TransactionCluster} (hdiffer : cluster.StartsDiffer)
    {topic : String} {partition : Int} {producer : ProducerState}
    (hmem : producer ∈ cluster.producers topic partition)
    (hopen : 0 ≤ producer.currentTxnStartOffset) :
    ((cluster.producers topic partition).map producerStateRow).find?
        (·.currentTransactionStartOffset = some producer.currentTxnStartOffset) =
      some (producerStateRow producer) := by
  have hstart : (producerStateRow producer).currentTransactionStartOffset =
      some producer.currentTxnStartOffset := if_pos hopen
  obtain ⟨state, hstate⟩ : ∃ state,
      ((cluster.producers topic partition).map producerStateRow).find?
        (·.currentTransactionStartOffset = some producer.currentTxnStartOffset) = some state :=
    Option.isSome_iff_exists.1
      (List.find?_isSome.2 ⟨_, List.mem_map_of_mem hmem, decide_eq_true hstart⟩)
  obtain ⟨other, hother, rfl⟩ := List.mem_map.1 (List.mem_of_find?_eq_some hstate)
  have hsame : (producerStateRow other).currentTransactionStartOffset =
      some producer.currentTxnStartOffset := by simpa using List.find?_some hstate
  rw [producerStateRow] at hsame
  dsimp only at hsame
  split_ifs at hsame with hnonneg
  rw [hstate, hdiffer topic partition other hother producer hmem hnonneg (Option.some.inj hsame)]

/-- **Both ways** to name a transaction that hangs end it by the same marker. -/
theorem abort_hanging (server : TransactionServer) (cluster : TransactionCluster)
    (hanswers : Answers server cluster) (hdiffer : cluster.StartsDiffer) (args : FindHangingArgs)
    (now : Int) (rows : List HangingTransactionRow)
    (hrun : findHanging server args now = .ok rows) (row : HangingTransactionRow)
    (hrow : row ∈ rows) (hepoch : -2 ^ 15 ≤ row.producerEpoch ∧ row.producerEpoch < 2 ^ 15)
    (states : List ProducerStateRow)
    (hstates : transactionProducerStates server none row.topic row.partition = .ok states) :
    abortMarker server ⟨row.topic, row.partition, some row.startOffset, none, none, none⟩ =
      .ok ⟨row.producerId, row.producerEpoch, row.topic, row.partition,
        max row.coordinatorEpoch 0⟩ ∧
    abortMarker server ⟨row.topic, row.partition, none, some row.producerId,
        some row.producerEpoch, some row.coordinatorEpoch⟩ =
      abortMarker server ⟨row.topic, row.partition, some row.startOffset, none, none, none⟩ := by
  obtain ⟨-, metadata, candidates, listings, descriptions, -, hcandidates, -, -, rfl⟩ :=
    findHanging_ok hrun
  obtain ⟨candidate, hmem, rfl⟩ := List.mem_map.1 hrow
  obtain ⟨-, producer, hproducer, hstate, hidle⟩ :=
    (mem_hangingCandidates hanswers hcandidates).1 (List.mem_of_mem_filter hmem)
  rw [hstate, idleTooLong_iff] at hidle
  have hstart : (hangingTransactionRow now candidate).startOffset =
      producer.currentTxnStartOffset := by
    rw [hangingTransactionRow, hstate, producerStateRow]
    dsimp only
    rw [if_pos hidle.1]
    rfl
  have hmarker : abortMarker server ⟨candidate.topic, candidate.partition,
      some (hangingTransactionRow now candidate).startOffset, none, none, none⟩ =
        .ok ⟨candidate.state.producerId, candidate.state.producerEpoch, candidate.topic,
          candidate.partition, max candidate.state.latestCoordinatorEpoch 0⟩ := by
    replace hstates : transactionProducerStates server none candidate.topic candidate.partition =
      .ok states := hstates
    rw [abortMarker]
    dsimp only
    rw [hstates, transactionProducerStates_ok hanswers hstates, ok_bind, hstart,
      find_startOffset hdiffer hproducer hidle.1, ← hstate]
    exact if_pos hepoch
  exact ⟨hmarker, hmarker.symm⟩

theorem abort_hanging_sample :
    abortMarker sampleServer ⟨"t", 0, some 40, none, none, none⟩ = .ok ⟨7, 1, "t", 0, 3⟩ :=
  (abort_hanging sampleServer sampleCluster answers_sample startsDiffer_sample
    ⟨none, 15, some "t", none⟩ 1000000 [⟨"t", 0, 7, 1, 3, 40, 0, 16⟩] (by decide +kernel)
    ⟨"t", 0, 7, 1, 3, 40, 0, 16⟩ List.mem_cons_self (by decide) _ rfl).1

end KafkaCli.Transactions
