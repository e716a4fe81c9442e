import KafkaCli.Quorum.Decode

/-!
# The state of the metadata quorum is read as it was written

The schema of the `DescribeQuorum` response, its encoder for each version, and what is kept.

**Theorem (`decodeQuorumResponse_encode`).** From a response without errors that holds the
partition of the metadata log once, the decoder keeps that partition and the nodes. All other
partitions are consumed and leave no trace: the result is a function of the one partition and
the nodes alone.

A field that a version does not have is an empty piece in the encoding of its record.
-/

namespace KafkaCli.Quorum

open Protocol Wire

namespace Schema

structure Replica where
  nodeId : Int32
  directoryId : List UInt8
  directory_length : directoryId.length = 16
  logEndOffset : Int64
  lastFetchTimestamp : Int64
  lastCaughtUpTimestamp : Int64
  tags : TaggedFields

structure Partition where
  index : Int32
  errorCode : Int16
  errorMessage : Option CompactString
  leaderId : Int32
  leaderEpoch : Int32
  highWatermark : Int64
  voters : CompactArray Replica
  observers : CompactArray Replica
  tags : TaggedFields

structure Topic where
  name : CompactString
  partitions : CompactArray Partition
  tags : TaggedFields

structure Listener where
  name : CompactString
  host : CompactString
  port : UInt16
  tags : TaggedFields

structure Node where
  nodeId : Int32
  listeners : CompactArray Listener
  tags : TaggedFields

structure Response where
  errorCode : Int16
  errorMessage : Option CompactString
  topics : CompactArray Topic
  nodes : CompactArray Node
  tags : TaggedFields

/-! ## The encoder -/

/-- The bytes of a field that came with a version. -/
def since (first version : Int) (bytes : List UInt8) : List UInt8 :=
  if version ≥ first then bytes else []

def Replica.encode (version : Int) (replica : Replica) : List UInt8 :=
  List.flatten [be32 replica.nodeId, since 2 version replica.directoryId,
    be64 replica.logEndOffset,
    since 1 version (be64 replica.lastFetchTimestamp ++ be64 replica.lastCaughtUpTimestamp),
    encodeTaggedFields replica.tags]

def Partition.encode (version : Int) (partition : Partition) : List UInt8 :=
  List.flatten [be32 partition.index, be16 partition.errorCode,
    since 2 version (encodeNullableCompactString partition.errorMessage),
    be32 partition.leaderId, be32 partition.leaderEpoch, be64 partition.highWatermark,
    encodeCompactArray (Replica.encode version) partition.voters,
    encodeCompactArray (Replica.encode version) partition.observers,
    encodeTaggedFields partition.tags]

def Topic.encode (version : Int) (topic : Topic) : List UInt8 :=
  List.flatten [encodeCompactString topic.name,
    encodeCompactArray (Partition.encode version) topic.partitions, encodeTaggedFields topic.tags]

def Listener.encode (listener : Listener) : List UInt8 :=
  List.flatten [encodeCompactString listener.name, encodeCompactString listener.host,
    beU16 listener.port, encodeTaggedFields listener.tags]

def Node.encode (node : Node) : List UInt8 :=
  List.flatten [be32 node.nodeId, encodeCompactArray Listener.encode node.listeners,
    encodeTaggedFields node.tags]

def Response.encode (version : Int) (response : Response) : List UInt8 :=
  List.flatten [be16 response.errorCode,
    since 2 version (encodeNullableCompactString response.errorMessage),
    encodeCompactArray (Topic.encode version) response.topics,
    since 2 version (encodeCompactArray Node.encode response.nodes),
    encodeTaggedFields response.tags]

/-! ## What is kept -/

/-- A time, none where it is negative or the version has none. -/
def keepTime (version : Int) (timestamp : Int64) : Option Int64 :=
  if version ≥ 1 ∧ timestamp ≥ 0 then some timestamp else none

def Replica.keep (version : Int) (replica : Replica) : QuorumReplica where
  nodeId := replica.nodeId
  directoryId := if version ≥ 2 then Base64.encodeText replica.directoryId else zeroTopicId
  logEndOffset := replica.logEndOffset
  lastFetchTimestamp := keepTime version replica.lastFetchTimestamp
  lastCaughtUpTimestamp := keepTime version replica.lastCaughtUpTimestamp

/-- The address of a listener. -/
def Listener.endpoint (listener : Listener) : String :=
  listener.name.text ++ "://" ++ bracketed listener.host.text ++ ":" ++ toString listener.port

def Node.keep (node : Node) : QuorumNode where
  nodeId := node.nodeId
  endpoints := node.listeners.items.map Listener.endpoint

def Response.keepNodes (version : Int) (response : Response) : List QuorumNode :=
  if version ≥ 2 then response.nodes.items.map Node.keep else []

/-- A partition with the nodes that are listed next to it. -/
def Partition.keep (version : Int) (nodes : List QuorumNode) (partition : Partition) :
    QuorumDescription where
  leaderId := partition.leaderId
  leaderEpoch := partition.leaderEpoch
  highWatermark := partition.highWatermark
  voters := partition.voters.items.map (Replica.keep version)
  observers := partition.observers.items.map (Replica.keep version)
  nodes := nodes

/-- The partitions of a topic that hold the metadata log. -/
def Topic.metadata (topic : Topic) : List Partition :=
  topic.partitions.items.filter fun partition => IsMetadata topic.name.text partition.index

/-- The partitions of a response that hold the metadata log. -/
def Response.metadata (response : Response) : List Partition :=
  response.topics.items.flatMap Topic.metadata

end Schema

open Schema

/-! ## Replicas and nodes -/

variable {version : Int}

theorem reads_directoryId (replica : Replica) :
    Reads (decodeDirectoryId version) (since 2 version replica.directoryId)
      (replica.keep version).directoryId := by
  by_cases h : version ≥ 2
  · simp only [decodeDirectoryId, since, Replica.keep, h, if_true]
    exact (reads_takeBytes replica.directory_length).map
  · simp only [decodeDirectoryId, since, Replica.keep, h, if_false]
    exact .pure

theorem reads_timestamps (fetch caughtUp : Int64) :
    Reads (decodeTimestamps version) (since 1 version (be64 fetch ++ be64 caughtUp))
      (keepTime version fetch, keepTime version caughtUp) := by
  by_cases h : version ≥ 1
  · simp only [decodeTimestamps, since, keepTime, h, if_true, true_and]
    apply Reads.require (by simp)
    apply (reads_getI64 fetch).bind
    exact (reads_getI64 caughtUp).last .pure
  · simp only [decodeTimestamps, since, keepTime, h, if_false, false_and]
    exact .pure

theorem reads_quorumReplica (replica : Replica) :
    Reads (decodeQuorumReplica version) (replica.encode version) (replica.keep version) := by
  apply Reads.require (by simp [Replica.encode])
  apply Reads.field (reads_getI32 replica.nodeId)
  apply Reads.field (reads_directoryId replica)
  apply Reads.require (by simp)
  apply Reads.field (reads_getI64 replica.logEndOffset)
  apply Reads.field (reads_timestamps replica.lastFetchTimestamp replica.lastCaughtUpTimestamp)
  apply Reads.field (reads_skipTaggedFields replica.tags)
  exact .pure

theorem reads_quorumReplicas (replicas : CompactArray Replica) :
    Reads (decodeQuorumReplicas version) (encodeCompactArray (Replica.encode version) replicas)
      (replicas.items.map (Replica.keep version)) :=
  reads_compactArray fun replica _ => reads_quorumReplica replica

theorem reads_quorumListener (listener : Listener) :
    Reads decodeQuorumListener listener.encode listener.endpoint := by
  apply Reads.field (reads_compactString listener.name)
  apply Reads.field (reads_compactString listener.host)
  apply Reads.require (by simp)
  apply Reads.field (reads_getU16 listener.port)
  apply Reads.field (reads_skipTaggedFields listener.tags)
  exact .pure

theorem reads_quorumNode (node : Node) : Reads decodeQuorumNode node.encode node.keep := by
  apply Reads.require (by simp [Node.encode])
  apply Reads.field (reads_getI32 node.nodeId)
  apply Reads.field (reads_compactArray fun listener _ => reads_quorumListener listener)
  apply Reads.field (reads_skipTaggedFields node.tags)
  exact .pure

theorem reads_quorumNodes (response : Response) :
    Reads (decodeQuorumNodes version)
      (since 2 version (encodeCompactArray Node.encode response.nodes))
      (response.keepNodes version) := by
  by_cases h : version ≥ 2
  · simp only [decodeQuorumNodes, since, Response.keepNodes, h, if_true]
    exact reads_compactArray fun node _ => reads_quorumNode node
  · simp only [decodeQuorumNodes, since, Response.keepNodes, h, if_false]
    exact .pure

/-! ## Topics and partitions -/

theorem reads_errorMessage (version : Int) (message : Option CompactString) : ∃ kept,
    Reads (decodeErrorMessage version) (since 2 version (encodeNullableCompactString message))
      kept := by
  by_cases h : version ≥ 2
  · simp only [decodeErrorMessage, since, h, if_true]
    exact ⟨_, reads_nullableCompactString message⟩
  · simp only [decodeErrorMessage, since, h, if_false]
    exact ⟨none, .pure⟩

theorem reads_checkErrorCode {errorCode : Int16} {message : Option String} {fallback : String}
    (h : errorCode = 0) : Reads (checkErrorCode errorCode message fallback) [] () := by
  simp only [checkErrorCode, h, ne_eq, not_true_eq_false, if_false]
  exact .pure

/-- What is known after one more partition. -/
def nextDescription (version : Int) (topic : String) (description : Option QuorumDescription)
    (partition : Partition) : Option QuorumDescription :=
  if IsMetadata topic partition.index then some (partition.keep version []) else description

theorem reads_quorumPartition (version : Int) (topic : String)
    (description : Option QuorumDescription) {partition : Partition} (h : partition.errorCode = 0) :
    Reads (decodeQuorumPartition version topic description) (partition.encode version)
      (nextDescription version topic description partition) := by
  obtain ⟨message, hmessage⟩ := reads_errorMessage version partition.errorMessage
  apply Reads.require
  · simp only [Partition.encode, List.flatten_cons, List.length_append, length_be32, length_be16]
    omega
  apply Reads.field (reads_getI32 partition.index)
  apply Reads.field (reads_getI16 partition.errorCode)
  apply Reads.field hmessage
  apply Reads.step (reads_checkErrorCode h)
  apply Reads.require
  · simp only [List.flatten_cons, List.length_append, length_be32, length_be64]
    omega
  apply Reads.field (reads_getI32 partition.leaderId)
  apply Reads.field (reads_getI32 partition.leaderEpoch)
  apply Reads.field (reads_getI64 partition.highWatermark)
  apply Reads.field (reads_quorumReplicas partition.voters)
  apply Reads.field (reads_quorumReplicas partition.observers)
  apply Reads.field (reads_skipTaggedFields partition.tags)
  exact .pure

/-- What is known after one more topic. -/
def nextTopic (version : Int) (description : Option QuorumDescription) (topic : Topic) :
    Option QuorumDescription :=
  topic.partitions.items.foldl (nextDescription version topic.name.text) description

theorem reads_quorumTopic (description : Option QuorumDescription) {topic : Topic}
    (h : ∀ partition ∈ topic.partitions.items, partition.errorCode = 0) :
    Reads (decodeQuorumTopic version description) (topic.encode version)
      (nextTopic version description topic) := by
  have hpartitions : ∀ partition ∈ topic.partitions.items, ∀ s,
      Reads (decodeQuorumPartition version topic.name.text s) (partition.encode version)
        (nextDescription version topic.name.text s partition) :=
    fun partition hmem s => reads_quorumPartition version topic.name.text s (h partition hmem)
  apply Reads.field (reads_compactString topic.name)
  rw [List.flatten_cons, encodeCompactArray, List.append_assoc]
  apply (reads_compactLen topic.partitions.fits).bind
  apply (Reads.loop hpartitions).bind
  apply Reads.field (reads_skipTaggedFields topic.tags)
  exact .pure

/-- Of the partitions of a topic, the last one that holds the metadata log is kept. -/
theorem nextTopic_eq (description : Option QuorumDescription) (topic : Topic) :
    nextTopic version description topic =
      (topic.metadata.getLast?.map (Partition.keep version [])).or description := by
  rw [nextTopic, Topic.metadata]
  induction topic.partitions.items generalizing description with
  | nil => rfl
  | cons partition partitions ih =>
    rw [List.foldl_cons, ih, List.filter_cons, nextDescription]
    by_cases h : IsMetadata topic.name.text partition.index
    · simp only [h, if_true, decide_true, List.getLast?_cons, Option.map_some, Option.some_or]
      cases (partitions.filter _).getLast? <;> rfl
    · simp only [h, if_false, decide_false, Bool.false_eq_true]

theorem foldl_nextTopic (description : Option QuorumDescription) (topics : List Topic) :
    topics.foldl (nextTopic version) description =
      ((topics.flatMap Topic.metadata).getLast?.map
        (Partition.keep version [])).or description := by
  induction topics generalizing description with
  | nil => rfl
  | cons topic topics ih =>
    rw [List.foldl_cons, ih, nextTopic_eq, List.flatMap_cons, List.getLast?_append]
    cases (topics.flatMap Topic.metadata).getLast? <;> rfl

/-! ## The response -/

theorem reads_quorum {response : Response} {partition : Partition}
    (htop : response.errorCode = 0)
    (hcodes : ∀ topic ∈ response.topics.items, ∀ p ∈ topic.partitions.items, p.errorCode = 0)
    (honce : response.metadata = [partition]) :
    Reads (decodeQuorum version) (response.encode version)
      (partition.keep version (response.keepNodes version)) := by
  obtain ⟨message, hmessage⟩ := reads_errorMessage version response.errorMessage
  have htopics : ∀ topic ∈ response.topics.items, ∀ s,
      Reads (decodeQuorumTopic version s) (topic.encode version) (nextTopic version s topic) :=
    fun topic hmem s => reads_quorumTopic s (hcodes topic hmem)
  have hfound : response.topics.items.foldl (nextTopic version) none =
      some (partition.keep version []) := by
    rw [foldl_nextTopic, ← Response.metadata, honce]
    rfl
  apply Reads.require (by simp [Response.encode])
  apply Reads.field (reads_getI16 response.errorCode)
  apply Reads.field hmessage
  apply Reads.step (reads_checkErrorCode htop)
  rw [List.flatten_cons, encodeCompactArray, List.append_assoc]
  apply (reads_compactLen response.topics.fits).bind
  apply (Reads.loop htopics).bind
  rw [hfound]
  apply Reads.field (reads_quorumNodes response)
  apply Reads.field (reads_skipTaggedFields response.tags)
  exact .pure

/-- **The decoder inverts the encoder.** A response without errors that holds the partition of
the metadata log once gives that partition with the nodes, whatever else it holds. -/
theorem decodeQuorumResponse_encode (version : Int) (response : Response) (partition : Partition)
    (htop : response.errorCode = 0)
    (hcodes : ∀ topic ∈ response.topics.items, ∀ p ∈ topic.partitions.items, p.errorCode = 0)
    (honce : response.metadata = [partition]) (rest : List UInt8) :
    decodeQuorumResponse (response.encode version ++ rest) version =
      .ok (partition.keep version (response.keepNodes version)) := by
  have hread : Reads (decodeQuorum version) (response.encode version)
      (partition.keep version (response.keepNodes version)) := reads_quorum htop hcodes honce
  rw [decodeQuorumResponse, StateT.run'_eq, hread rest]
  rfl

/-- A voter of node 1. -/
def exampleVoter : Replica where
  nodeId := 1
  directoryId := List.replicate 16 7
  directory_length := rfl
  logEndOffset := 44
  lastFetchTimestamp := 1000
  lastCaughtUpTimestamp := -1
  tags := noTaggedFields

/-- The metadata log, led by node 1. -/
def examplePartition : Partition where
  index := 0
  errorCode := 0
  errorMessage := none
  leaderId := 1
  leaderEpoch := 9
  highWatermark := 42
  voters := ⟨[exampleVoter], by decide⟩
  observers := ⟨[], by decide⟩
  tags := ⟨[⟨3, [1, 2], by decide⟩], by decide⟩

/-- A response with the metadata log after another partition of its topic. -/
def exampleResponse : Response where
  errorCode := 0
  errorMessage := none
  topics := ⟨[{
    name := ⟨"__cluster_metadata", by decide⟩
    partitions := ⟨[{ examplePartition with index := 1 }, examplePartition], by decide⟩
    tags := noTaggedFields }], by decide⟩
  nodes := ⟨[{
    nodeId := 1
    listeners := ⟨[{ name := ⟨"CONTROLLER", by decide⟩, host := ⟨"::1", by decide⟩, port := 9093
                     tags := noTaggedFields }], by decide⟩
    tags := noTaggedFields }], by decide⟩
  tags := noTaggedFields

theorem decodeQuorumResponse_exampleResponse :
    decodeQuorumResponse (exampleResponse.encode 2 ++ []) 2 =
      .ok { leaderId := 1, leaderEpoch := 9, highWatermark := 42,
            voters := [{ nodeId := 1, directoryId := "BwcHBwcHBwcHBwcHBwcHBw",
                         logEndOffset := 44, lastFetchTimestamp := some 1000,
                         lastCaughtUpTimestamp := none }],
            observers := [],
            nodes := [{ nodeId := 1, endpoints := ["CONTROLLER://[::1]:9093"] }] } := by
  have h := decodeQuorumResponse_encode 2 exampleResponse examplePartition rfl
    (by simp [exampleResponse, examplePartition]) (by rfl) []
  rw [h]
  congr 1

end KafkaCli.Quorum
