import KafkaCli.Error
import Mathlib.Data.List.Nodup

/-!
# The topics of a cluster

What the commands for topics read and change: the brokers that are alive, and topics with distinct
names. The controller is not part of the program. It may carry out a request as a whole, in parts
or not at all, and answer what it likes about that; `Controller.Lawful` says what it is relied on
for. What others have done in front of a request, and whether it fails, is part of a `Turn`.
-/

namespace KafkaCli.Topics

structure Partition where
  id : Int
  leader : Int
  replicas : List Int
  isr : List Int
  deriving DecidableEq, Repr

/-- `ConfigSource`. -/
inductive ConfigSource
  | unknown | default | dynamicTopic | dynamicBroker | dynamicDefaultBroker | staticBroker
  deriving DecidableEq, Repr

structure ConfigEntry where
  name : String
  value : Option String
  source : ConfigSource
  deriving DecidableEq, Repr

structure Topic where
  name : String
  /-- The id, as it is printed. -/
  id : String
  partitions : List Partition
  configs : List ConfigEntry
  deriving DecidableEq, Repr

structure Cluster where
  /-- The brokers that are alive. -/
  brokers : List Int
  topics : List Topic
  nodup : (topics.map Topic.name).Nodup

def Cluster.topic? (cluster : Cluster) (name : String) : Option Topic :=
  cluster.topics.find? (·.name = name)

theorem Cluster.topic?_eq_some {cluster : Cluster} {name : String} {topic : Topic} :
    cluster.topic? name = some topic ↔ topic ∈ cluster.topics ∧ topic.name = name := by
  constructor
  · intro h
    exact ⟨List.mem_of_find?_eq_some h, by simpa using List.find?_some h⟩
  · intro ⟨hmem, hname⟩
    cases hfind : cluster.topic? name with
    | none => simpa [hname] using List.find?_eq_none.1 hfind topic hmem
    | some found =>
      have hfound : found.name = name := by simpa using List.find?_some hfind
      have hsame := List.inj_on_of_nodup_map cluster.nodup (List.mem_of_find?_eq_some hfind) hmem
        (hfound.trans hname.symm)
      rw [hsame]

/-! ## Requests -/

/-- `RDKafkaErrorCode`: the one that matters here, and the text of any other. -/
inductive ErrorCode
  | topicAlreadyExists
  | other (text : String)
  deriving DecidableEq, Repr

def ErrorCode.text : ErrorCode → String
  | .topicAlreadyExists => "TopicAlreadyExists (Broker: Topic already exists)"
  | .other text => text

def unknownTopic : ErrorCode :=
  .other "UnknownTopicOrPartition (Broker: Unknown topic or partition)"

/-- `TopicReplication`: a factor for all partitions, or the replicas of each. -/
inductive TopicReplication
  | fixed (factor : Int)
  | variable (assignments : List (List Int))
  deriving DecidableEq, Repr

structure NewTopic where
  name : String
  numPartitions : Int
  replication : TopicReplication
  configs : List (String × String)
  deriving DecidableEq, Repr

structure NewPartitions where
  topic : String
  newPartitionCount : ℕ
  /-- The replicas of the partitions that are added. -/
  assignment : Option (List (List Int))
  deriving DecidableEq, Repr

/-- A request that changes topics. -/
inductive Request
  | createTopics (topic : NewTopic)
  | createPartitions (requests : List NewPartitions)
  | deleteTopics (names : List String)
  deriving DecidableEq, Repr

/-- The topics that a request names. -/
def Request.names : Request → List String
  | .createTopics new => [new.name]
  | .createPartitions requests => requests.map NewPartitions.topic
  | .deleteTopics names => names

/-- What happens at a request, apart from what the controller makes of it. -/
structure Turn where
  /-- What others do to the cluster in front of the request. -/
  others : Cluster → Cluster
  failure : Option Error

/-! ## The controller -/

structure Controller where
  /-- The cluster behind a request, from the one in front of it. -/
  apply : Request → Cluster → Cluster
  /-- What is answered for the topics of a request. -/
  answer : Request → Cluster → List (String × Option ErrorCode)

/-- The topic is one that a request for a new topic asks for. -/
structure NewTopic.Created (new : NewTopic) (topic : Topic) : Prop where
  name : topic.name = new.name
  assigned : ∀ assignments, new.replication = .variable assignments →
    topic.partitions.map Partition.replicas = assignments

/-- The second topic is the first one with the partitions that a request adds to it. -/
structure NewPartitions.Extends (request : NewPartitions) (topic topic' : Topic)
    (added : List Partition) : Prop where
  name : topic.name = request.topic
  same : topic' = { topic with partitions := topic.partitions ++ added }
  more : added ≠ []
  total : topic'.partitions.length = request.newPartitionCount
  ids : ∀ index partition, added[index]? = some partition →
    partition.id = ((topic.partitions.length + index : ℕ) : Int)
  assigned : ∀ assignment, request.assignment = some assignment →
    added.map Partition.replicas = assignment

/-- What a controller is relied on for. It changes no topic but those that a request names, and
these as the request says or not at all, whatever it answers; and it answers for these topics, in
their order. -/
structure Controller.Lawful (controller : Controller) : Prop where
  creating : ∀ new cluster, controller.apply (.createTopics new) cluster = cluster ∨
    (new.name ∉ cluster.topics.map Topic.name ∧
      (controller.apply (.createTopics new) cluster).brokers = cluster.brokers ∧
      ∃ topic, new.Created topic ∧
        (controller.apply (.createTopics new) cluster).topics = cluster.topics ++ [topic])
  extending : ∀ requests cluster,
    (controller.apply (.createPartitions requests) cluster).brokers = cluster.brokers ∧
    List.Forall₂ (fun topic topic' => topic' = topic ∨
        ∃ request ∈ requests, ∃ added, request.Extends topic topic' added)
      cluster.topics (controller.apply (.createPartitions requests) cluster).topics
  deleting : ∀ names cluster,
    (controller.apply (.deleteTopics names) cluster).brokers = cluster.brokers ∧
    ∃ keep : Topic → Bool,
      (controller.apply (.deleteTopics names) cluster).topics = cluster.topics.filter keep ∧
      ∀ topic ∈ cluster.topics, keep topic = false → topic.name ∈ names
  answering : ∀ request cluster, (controller.answer request cluster).map Prod.fst = request.names

end KafkaCli.Topics
