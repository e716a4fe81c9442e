import KafkaCli.Console.LineReader
import KafkaCli.Groups.Calls
import KafkaCli.Lib.Checked
import KafkaCli.Lib.Decimal
import KafkaCli.Lib.Run
import KafkaCli.Lib.Text
import KafkaCli.Topics.Cluster

/-!
# The commands for topics

`topics list`, `describe`, `create`, `alter` and `delete`. A run of a command reads the cluster and
sends requests to its controller (`World`). A client that cannot be created counts as a request
that fails.
-/

namespace KafkaCli.Topics

open Checked Console Decimal Text
open Groups (MutationRow)

/-! ## The surroundings of a run -/

/-- What is taken from other libraries. -/
structure Crates where
  /-- The texts that a regular expression matches. -/
  regex : String → Except String (String → Bool)
  /-- The decoders of `base64`. -/
  urlSafeNoPad : String → Option (List UInt8)
  standardNoPad : String → Option (List UInt8)

structure TopicSummary where
  name : String
  partitions : ℕ
  replicationFactor : ℕ
  deriving DecidableEq, Repr

structure PartitionSummary where
  topic : String
  topicId : String
  partition : Int
  leader : Int
  replicationFactor : ℕ
  replicas : List Int
  isr : List Int
  configs : List String
  deriving DecidableEq, Repr

structure TopicConfigSummary where
  topic : String
  configs : List String
  deriving DecidableEq, Repr

/-- What is written, by the command that `output::write_value` is given. -/
inductive Output
  | list (rows : List TopicSummary)
  | describe (rows : List PartitionSummary)
  | overrides (rows : List TopicConfigSummary)
  | mutation (command : String) (rows : List MutationRow)
  deriving DecidableEq

/-- A request that reached the controller, with the cluster in front of it and behind it. -/
structure Change where
  request : Request
  before : Cluster
  after : Cluster

structure World where
  controller : Controller
  cluster : Cluster
  turns : List Turn
  changes : List Change
  output : List Output

abbrev Tool := EStateM Error World

/-- A turn at which nobody else does anything, and nothing fails. -/
def quietTurn : Turn where
  others cluster := cluster
  failure := none

/-- The turn of the next request. -/
def World.turn (world : World) : Turn := world.turns.headD quietTurn

/-- The world when the next request comes. -/
def World.begin (world : World) : World :=
  { world with cluster := world.turn.others world.cluster, turns := world.turns.tail }

/-- A request that reads. -/
def query {α : Type} (read : Cluster → Result α) : Tool α := do
  let world ← get
  set world.begin
  match world.turn.failure with
  | some failure => throw failure
  | none => ofExcept (read world.begin.cluster)

section Query

variable {α : Type} {read : Cluster → Result α} {world : World}

theorem query_of_none (h : world.turn.failure = none) :
    (query read).run world = (ofExcept (read world.begin.cluster) : Tool α).run world.begin := by
  have hget : (get : Tool World).run world = .ok world world := rfl
  have hset : (set world.begin : Tool PUnit).run world = .ok ⟨⟩ world.begin := rfl
  refine (Run.bind_of_ok hget _).trans ((Run.bind_of_ok hset _).trans ?_)
  rw [h]

theorem query_of_some {failure : Error} (h : world.turn.failure = some failure) :
    (query read).run world = .error failure world.begin := by
  have hget : (get : Tool World).run world = .ok world world := rfl
  have hset : (set world.begin : Tool PUnit).run world = .ok ⟨⟩ world.begin := rfl
  refine (Run.bind_of_ok hget _).trans ((Run.bind_of_ok hset _).trans ?_)
  rw [h]
  rfl

end Query

/-- The world behind a change. -/
def World.changed (world : World) (change : Change) : World :=
  { world with cluster := change.after, changes := world.changes ++ [change] }

/-- A request that changes topics. When it fails, the controller may have carried it out. -/
def send (request : Request) : Tool (List (String × Option ErrorCode)) := do
  let world ← get
  let before := world.begin.cluster
  set (world.begin.changed ⟨request, before, world.controller.apply request before⟩)
  match world.turn.failure with
  | some failure => throw failure
  | none => return world.controller.answer request before

/-- The world behind an output. -/
def World.wrote (world : World) (output : Output) : World :=
  { world with output := world.output ++ [output] }

def write (output : Output) : Tool Unit := modify (World.wrote · output)

@[simp] theorem write_run (output : Output) (world : World) :
    (write output).run world = .ok ⟨⟩ (world.wrote output) := rfl

/-! ## What is read -/

structure MetadataTopic where
  name : String
  partitions : List Partition
  deriving DecidableEq, Repr

structure Metadata where
  brokers : List Int
  topics : List MetadataTopic
  deriving DecidableEq, Repr

def Topic.metadata (topic : Topic) : MetadataTopic := ⟨topic.name, topic.partitions⟩

def fetchMetadata : Tool Metadata :=
  query fun cluster => .ok ⟨cluster.brokers, cluster.topics.map Topic.metadata⟩

structure TopicIdentity where
  name : String
  id : String
  deriving DecidableEq, Repr

/-- `describe_topic_identities`: the ids of topics by their names. -/
def describeTopicIdentities (names : List String) : Tool (List TopicIdentity) := do
  ofExcept (failIf (∃ name ∈ names, Char.ofNat 0 ∈ name.toList)
    (.usage "topic name contains a NUL byte"))
  query fun cluster => names.mapM fun name =>
    match cluster.topic? name with
    | some topic => .ok ⟨name, topic.id⟩
    | none => .error (.config "Broker: Unknown topic or partition")

/-- The configuration of a topic. -/
structure ConfigResource where
  topic : String
  entries : List ConfigEntry
  deriving DecidableEq, Repr

def describeConfigs (names : List String) : Tool (List ConfigResource) :=
  query fun cluster => names.mapM fun name =>
    match cluster.topic? name with
    | some topic => .ok ⟨name, topic.configs⟩
    | none => .error (.config unknownTopic.text)

/-! ## Selecting topics -/

structure TopicSelector where
  topic : Option String := none
  topicId : Option String := none
  excludeInternal : Bool := false
  underReplicatedPartitions : Bool := false
  unavailablePartitions : Bool := false
  underMinIsrPartitions : Bool := false
  atMinIsrPartitions : Bool := false
  topicsWithOverrides : Bool := false
  deriving DecidableEq, Repr

structure ListTopicArgs where
  topic : Option String
  excludeInternal : Bool
  deriving DecidableEq, Repr

structure DescribeTopicArgs where
  topic : Option String := none
  topicId : Option String := none
  excludeInternal : Bool := false
  underReplicatedPartitions : Bool := false
  unavailablePartitions : Bool := false
  underMinIsrPartitions : Bool := false
  atMinIsrPartitions : Bool := false
  topicsWithOverrides : Bool := false
  ifExists : Bool := false
  deriving DecidableEq, Repr

def ListTopicArgs.selector (args : ListTopicArgs) : TopicSelector where
  topic := args.topic
  excludeInternal := args.excludeInternal

def DescribeTopicArgs.selector (args : DescribeTopicArgs) : TopicSelector where
  topic := args.topic
  topicId := args.topicId
  excludeInternal := args.excludeInternal
  underReplicatedPartitions := args.underReplicatedPartitions
  unavailablePartitions := args.unavailablePartitions
  underMinIsrPartitions := args.underMinIsrPartitions
  atMinIsrPartitions := args.atMinIsrPartitions
  topicsWithOverrides := args.topicsWithOverrides

def zeroTopicId : String := "AAAAAAAAAAAAAAAAAAAAAA"

def isNonzeroTopicId (topicId : String) : Bool := topicId ≠ zeroTopicId

/-- The id of a topic that is not zero. -/
def TopicSelector.nonzeroId (selector : TopicSelector) : Option String :=
  selector.topicId.filter isNonzeroTopicId

section Select

variable (crates : Crates)

/-- `decode_topic_id_bytes`: what one of the decoders makes sixteen bytes of. -/
def decodeTopicIdBytes (topicId : String) : Option (List UInt8) :=
  [crates.urlSafeNoPad, crates.standardNoPad].findSome? fun decode =>
    (decode topicId).filter (·.length = 16)

def validateTopicId : Option String → Result Unit
  | none => .ok ()
  | some topicId =>
    failIf (decodeTopicIdBytes crates topicId = none)
      (.usage s!"invalid topic ID '{topicId}'; expected a 22-character Kafka UUID")

def topicPattern (expression : String) : Result (String → Bool) :=
  (crates.regex ("^(?:" ++ expression ++ ")$")).mapError fun error =>
    .usage s!"invalid topic regular expression: {error}"

/-- The pattern that a selector gives. -/
def TopicSelector.pattern (selector : TopicSelector) : Result (Option (String → Bool)) :=
  match (if selector.nonzeroId.isSome then none else selector.topic) with
  | none => .ok none
  | some expression => (topicPattern crates expression).map some

/-- The name passes the filters of a selector, whose pattern is given. -/
def nameMatches (selector : TopicSelector) (pattern : Option (String → Bool)) (name : String) :
    Bool :=
  (!selector.excludeInternal || !startsWith name "__") && pattern.all (· name)

def selectTopics (metadata : Metadata) (selector : TopicSelector) :
    Result (List MetadataTopic) := do
  let pattern ← selector.pattern crates
  return metadata.topics.filter fun topic => nameMatches selector pattern topic.name

end Select

def topicPartitionMatches (selector : TopicSelector) (isrCount replicaCount : ℕ)
    (minIsr : Option ℕ) (leaderIsAvailable : Bool) : Bool :=
  (!selector.underReplicatedPartitions || isrCount < replicaCount) &&
    (!selector.unavailablePartitions || !leaderIsAvailable) &&
    (!selector.underMinIsrPartitions || minIsr.any (isrCount < ·)) &&
    (!selector.atMinIsrPartitions || minIsr = some isrCount)

/-! ## List -/

def MetadataTopic.summary (topic : MetadataTopic) : TopicSummary where
  name := topic.name
  partitions := topic.partitions.length
  replicationFactor := topic.partitions.head?.elim 0 (·.replicas.length)

def listTopics (crates : Crates) (args : ListTopicArgs) : Tool Unit := do
  let metadata ← fetchMetadata
  let topics ← ofExcept (selectTopics crates metadata args.selector)
  write (.list (topics.map MetadataTopic.summary))

/-! ## Describe -/

/-- An entry of a configuration, as it is shown. -/
def ConfigEntry.text (entry : ConfigEntry) : String :=
  entry.name ++ "=" ++ entry.value.getD "null"

/-- `usize`. -/
def parseUsize : String → Except ParseIntError ℕ := parseUnsigned (2 ^ 64 - 1)

def minInsyncReplicas (entries : List ConfigEntry) : Option ℕ := do
  let entry ← entries.find? (·.name = "min.insync.replicas")
  let value ← entry.value
  (parseUsize value).toOption

/-- The entries that are set for the topic itself. -/
def overrides (entries : List ConfigEntry) : List String :=
  (entries.filter (·.source = .dynamicTopic)).map ConfigEntry.text

/-- The entries that are no defaults, in the order of their texts. -/
def effectiveConfigs (entries : List ConfigEntry) : List String :=
  ((entries.filter (·.source ≠ .default)).map ConfigEntry.text).mergeSort fun a b =>
    (compare a b).isLE

/-- A map by topic. -/
abbrev ByTopic (α : Type) := Std.TreeMap String α

def describeOverrides (resources : List ConfigResource) : List TopicConfigSummary :=
  resources.filterMap fun resource =>
    let configs := overrides resource.entries
    if configs = [] then none else some ⟨resource.topic, configs⟩

/-- The rows of a topic. -/
def describeTopic (selector : TopicSelector) (brokers : List Int) (topicIds : ByTopic String)
    (minIsr : ByTopic ℕ) (configs : ByTopic (List String)) (topic : MetadataTopic) :
    List PartitionSummary :=
  (topic.partitions.filter fun partition =>
    topicPartitionMatches selector partition.isr.length partition.replicas.length
      minIsr[topic.name]? (brokers.contains partition.leader)).map fun partition =>
    { topic := topic.name
      topicId := topicIds[topic.name]?.getD ""
      partition := partition.id
      leader := partition.leader
      replicationFactor := partition.replicas.length
      replicas := partition.replicas
      isr := partition.isr
      configs := configs[topic.name]?.getD [] }

section Describe

variable (crates : Crates) (args : DescribeTopicArgs)

/-- The ids of the topics that the arguments select, by name. -/
def selectedIdentities (identities : List TopicIdentity) : ByTopic String :=
  .ofList <| (identities.filter fun identity =>
    args.selector.nonzeroId.all (· = identity.id)).map fun identity => (identity.name, identity.id)

/-- Fail where nothing was selected that had to be there. -/
def requireSelected (topicIds : ByTopic String) : Result Unit := do
  failIf (args.selector.nonzeroId.isSome ∧ topicIds.isEmpty ∧ !args.ifExists)
    (.usage "no topic matched --topic-id")
  failIf (args.topic.isSome ∧ !args.selector.nonzeroId.isSome ∧ topicIds.isEmpty ∧
      !args.ifExists)
    (.usage "no topic matched --topic")

/-- The rows of the topics that are still there. -/
def describePartitions (topicIds : ByTopic String) (resources : List ConfigResource) :
    Tool Unit := do
  let metadata ← fetchMetadata
  let minIsr : ByTopic ℕ := .ofList <| resources.filterMap fun resource =>
    (minInsyncReplicas resource.entries).map fun value => (resource.topic, value)
  let configs : ByTopic (List String) := .ofList <| resources.map fun resource =>
    (resource.topic, effectiveConfigs resource.entries)
  let topics ← ofExcept (selectTopics crates metadata args.selector)
  write (.describe ((topics.filter fun topic => topicIds.contains topic.name).flatMap
    (describeTopic args.selector metadata.brokers topicIds minIsr configs)))

/-- Ask about topics, if there are any. -/
def askAbout {α : Type} (names : List String) (ask : List String → Tool (List α)) :
    Tool (List α) :=
  if names = [] then return [] else ask names

/-- Describe the topics whose ids are given. -/
def describeSelected (topicIds : ByTopic String) : Tool Unit := do
  ofExcept (requireSelected args topicIds)
  let resources ← askAbout topicIds.keys describeConfigs
  if args.topicsWithOverrides then write (.overrides (describeOverrides resources))
  else describePartitions crates args topicIds resources

def describeTopics : Tool Unit := do
  ofExcept (validateTopicId crates args.topicId)
  let metadata ← fetchMetadata
  let candidates ← ofExcept (selectTopics crates metadata args.selector)
  let identities ← askAbout (candidates.map MetadataTopic.name) describeTopicIdentities
  describeSelected crates args (selectedIdentities args identities)

end Describe

/-! ## Create, alter and delete -/

/-- The replicas of one partition in a `--replica-assignment`. -/
def parseReplicas (partition : ℕ) (brokers : String) : Result (List Int) := do
  let brokers ← (split brokers ':').mapM fun broker =>
    (parseI32 (trim broker)).mapError fun _ =>
      Error.usage s!"invalid broker ID in partition {partition}: {trim broker}"
  failIf (brokers = []) (.usage s!"partition {partition} has no replicas")
  failIf (¬ brokers.Nodup) (.usage s!"partition {partition} contains duplicate brokers")
  return brokers

def parseReplicaAssignment (value : String) : Result (List (List Int)) := do
  let assignments ← ((split value ',').mapIdx fun partition brokers =>
    parseReplicas partition brokers).mapM id
  let replicationFactor := assignments.head?.elim 0 List.length
  failIf (assignments = [] ∨ replicationFactor = 0 ∨
      ∃ brokers ∈ assignments, brokers.length ≠ replicationFactor)
    (.usage "all partitions must have the same non-zero replication factor")
  return assignments

/-- The assignments that an argument gives, if it is there. -/
def parseAssignments : Option String → Result (Option (List (List Int)))
  | none => .ok none
  | some value => (parseReplicaAssignment value).map some

def validateTopicCreationCounts (partitions replicationFactor : Option Int) : Result Unit := do
  failIf (partitions.any (· < 1)) (.usage "--partitions must be greater than zero")
  failIf (replicationFactor.any fun factor => ¬ (1 ≤ factor ∧ factor ≤ 32767))
    (.usage "--replication-factor must be between 1 and 32767")

/-- The row of a topic in the answer of the controller. -/
def topicResult (ignoreExists : Bool) (result : String × Option ErrorCode) : MutationRow where
  resource := result.1
  status :=
    match result.2 with
    | none => "OK"
    | some code =>
      if ignoreExists ∧ code = .topicAlreadyExists then "ALREADY_EXISTS" else "FAILED"
  error := result.2.bind fun code =>
    if ignoreExists ∧ code = .topicAlreadyExists then none else some code.text

/-- `topic_results`, and what the command returns for the failures among them. -/
def topicResults (command : String) (results : List (String × Option ErrorCode))
    (ignoreExists : Bool) (total : ℕ) : Tool Unit := do
  let rows := results.map (topicResult ignoreExists)
  let failures := (rows.filter (·.error.isSome)).length
  write (.mutation command rows)
  ofExcept (failIf (failures ≠ 0) (.partialFailure failures total))

structure CreateTopicArgs where
  topic : String
  partitions : Option Int := none
  replicationFactor : Option Int := none
  replicaAssignment : Option String := none
  configs : List String := []
  ifNotExists : Bool := false
  deriving DecidableEq, Repr

/-- The topic that `topics create` asks for. -/
def newTopic (args : CreateTopicArgs) : Result NewTopic := do
  let assignments ← parseAssignments args.replicaAssignment
  validateTopicCreationCounts args.partitions args.replicationFactor
  let configs ← parsePairs args.configs
  return {
    name := args.topic
    numPartitions := assignments.elim (args.partitions.getD (-1)) fun items => items.length
    replication := assignments.elim (.fixed (args.replicationFactor.getD (-1))) .variable
    configs }

def createTopics (args : CreateTopicArgs) : Tool Unit := do
  let topic ← ofExcept (newTopic args)
  let results ← send (.createTopics topic)
  topicResults "topics.create" results args.ifNotExists 1

structure AlterTopicArgs where
  topic : String
  partitions : Int
  replicaAssignment : Option String := none
  ifExists : Bool := false
  deriving DecidableEq, Repr

/-- The selector of a topic, or of the topics that match a pattern. -/
def topicSelector (topic : String) : TopicSelector where
  topic := some topic

/-- The row for a selector that matches nothing. -/
def noMatch (resource : String) : MutationRow where
  resource := resource
  status := "NO_MATCH"
  error := none

/-- The partitions that are added to a topic. -/
def newPartitions (target : ℕ) (assignments : Option (List (List Int))) (topic : MetadataTopic) :
    Result NewPartitions := do
  let existing := topic.partitions.length
  let name := topic.name
  failIf (existing ≥ target)
    (.usage s!"topic {name} already has {existing} partitions; target must be larger")
  return ⟨name, target, assignments.map (·.drop existing)⟩

/-- The requests of `topics alter`, for the topics that are selected. -/
def partitionRequests (args : AlterTopicArgs) (selected : List MetadataTopic) :
    Result (List NewPartitions) := do
  let assignments ← parseAssignments args.replicaAssignment
  failIf (args.partitions ≤ 0) (.usage "--partitions must be greater than zero")
  let target := args.partitions.toNat
  failIf (assignments.any (·.length ≠ target))
    (.usage "--replica-assignment must cover every target partition")
  selected.mapM (newPartitions target assignments)

def alterTopics (crates : Crates) (args : AlterTopicArgs) : Tool Unit := do
  let metadata ← fetchMetadata
  let selected ← ofExcept (selectTopics crates metadata (topicSelector args.topic))
  if selected = [] then
    if args.ifExists then write (.mutation "topics.alter" [noMatch args.topic])
    else throw (.usage "no topics matched --topic")
  else do
    let requests ← ofExcept (partitionRequests args selected)
    let results ← send (.createPartitions requests)
    topicResults "topics.alter" results false selected.length

structure DeleteTopicArgs where
  topic : String
  ifExists : Bool := false
  deriving DecidableEq, Repr

def removeTopics (crates : Crates) (args : DeleteTopicArgs) : Tool Unit := do
  let metadata ← fetchMetadata
  let selected ← ofExcept (selectTopics crates metadata (topicSelector args.topic))
  if selected = [] then
    if args.ifExists then write (.mutation "topics.delete" [noMatch "topic-selector"])
    else throw (.usage "no topics matched --topic")
  else do
    let results ← send (.deleteTopics (selected.map MetadataTopic.name))
    topicResults "topics.delete" results false selected.length

inductive TopicAction
  | list (args : ListTopicArgs)
  | describe (args : DescribeTopicArgs)
  | create (args : CreateTopicArgs)
  | alter (args : AlterTopicArgs)
  | delete (args : DeleteTopicArgs)
  deriving DecidableEq, Repr

def topics (crates : Crates) : TopicAction → Tool Unit
  | .list args => listTopics crates args
  | .describe args => describeTopics crates args
  | .create args => createTopics args
  | .alter args => alterTopics crates args
  | .delete args => removeTopics crates args

end KafkaCli.Topics
