import KafkaCli.Streams.Describe
import Mathlib.Tactic.NormNum

/-!
# A described streams group is read as it was written

The schema of `StreamsGroupDescribe` with all its fields, its encoder, and what a reader keeps of
each record. Every field that the schema declares nullable is an option here, and every record
ends with any tagged fields.

**Theorem (`decodeStreamsGroupDescription_encode`).** The decoder takes exactly the bytes of a
group, whatever follows them, and returns what is kept of it.

There is one lemma for each decoder. It reads the fields in the order in which they were written;
where a decoder left one out, or took two in the other order, its lemma would not go through.
-/

namespace KafkaCli.Streams.Describe

open Protocol Wire

namespace Schema

/-! ## The records of the schema -/

structure KeyValue where
  key : CompactString
  value : CompactString
  tags : TaggedFields

structure TopicInfo where
  name : CompactString
  partitions : Int32
  replicationFactor : Int16
  topicConfigs : CompactArray KeyValue
  tags : TaggedFields

structure Subtopology where
  id : CompactString
  sourceTopics : CompactArray CompactString
  repartitionSinkTopics : CompactArray CompactString
  stateChangelogTopics : CompactArray TopicInfo
  repartitionSourceTopics : CompactArray TopicInfo
  tags : TaggedFields

structure Topology where
  epoch : Int32
  subtopologies : Option (CompactArray Subtopology)
  tags : TaggedFields

structure TaskIds where
  subtopologyId : CompactString
  partitions : CompactArray Int32
  tags : TaggedFields

structure Assignment where
  active : CompactArray TaskIds
  standby : CompactArray TaskIds
  warmup : CompactArray TaskIds
  tags : TaggedFields

structure TaskOffset where
  subtopologyId : CompactString
  partition : Int32
  offset : Int64
  tags : TaggedFields

structure Endpoint where
  host : CompactString
  port : UInt16
  tags : TaggedFields

structure Member where
  memberId : CompactString
  memberEpoch : Int32
  instanceId : Option CompactString
  rackId : Option CompactString
  clientId : CompactString
  clientHost : CompactString
  topologyEpoch : Int32
  processId : CompactString
  userEndpoint : Option Endpoint
  clientTags : CompactArray KeyValue
  taskOffsets : CompactArray TaskOffset
  taskEndOffsets : CompactArray TaskOffset
  assignment : Assignment
  targetAssignment : Assignment
  isClassic : Bool
  tags : TaggedFields

structure TopologyNode where
  name : CompactString
  nodeType : Int8
  sourceTopics : CompactArray CompactString
  sinkTopic : Option CompactString
  stores : CompactArray CompactString
  successors : CompactArray CompactString
  tags : TaggedFields

structure DescribedSubtopology where
  id : CompactString
  nodes : CompactArray TopologyNode
  tags : TaggedFields

structure GlobalStore where
  source : TopologyNode
  processor : TopologyNode
  tags : TaggedFields

structure TopologyDescription where
  subtopologies : CompactArray DescribedSubtopology
  globalStores : CompactArray GlobalStore
  tags : TaggedFields

structure Group where
  errorCode : Int16
  errorMessage : Option CompactString
  groupId : CompactString
  groupState : CompactString
  groupEpoch : Int32
  assignmentEpoch : Int32
  topology : Option Topology
  members : CompactArray Member
  authorizedOperations : Int32
  topologyDescription : Option TopologyDescription
  topologyDescriptionStatus : Int8
  assignor : Option CompactString
  tags : TaggedFields

/-! ## The encoder -/

def encodeStrings : CompactArray CompactString → List UInt8 :=
  encodeCompactArray encodeCompactString

/-- A nullable struct: a marker that says whether it is there, and then its bytes. -/
def encodeNullableStruct {α : Type} (write : α → List UInt8) : Option α → List UInt8
  | none => be8 (-1)
  | some value => be8 1 ++ write value

/-- A nullable array. -/
def encodeNullableArray {α : Type} (write : α → List UInt8) : Option (CompactArray α) → List UInt8
  | none => encodeUnsignedVarint 0
  | some values => encodeCompactArray write values

def KeyValue.encode (entry : KeyValue) : List UInt8 :=
  List.flatten [encodeCompactString entry.key, encodeCompactString entry.value,
    encodeTaggedFields entry.tags]

def TopicInfo.encode (info : TopicInfo) : List UInt8 :=
  List.flatten [encodeCompactString info.name, be32 info.partitions, be16 info.replicationFactor,
    encodeCompactArray KeyValue.encode info.topicConfigs, encodeTaggedFields info.tags]

def Subtopology.encode (subtopology : Subtopology) : List UInt8 :=
  List.flatten [encodeCompactString subtopology.id, encodeStrings subtopology.sourceTopics,
    encodeStrings subtopology.repartitionSinkTopics,
    encodeCompactArray TopicInfo.encode subtopology.stateChangelogTopics,
    encodeCompactArray TopicInfo.encode subtopology.repartitionSourceTopics,
    encodeTaggedFields subtopology.tags]

def Topology.encode (topology : Topology) : List UInt8 :=
  List.flatten [be32 topology.epoch, encodeNullableArray Subtopology.encode topology.subtopologies,
    encodeTaggedFields topology.tags]

def TaskIds.encode (tasks : TaskIds) : List UInt8 :=
  List.flatten [encodeCompactString tasks.subtopologyId, encodeCompactArray be32 tasks.partitions,
    encodeTaggedFields tasks.tags]

def Assignment.encode (assignment : Assignment) : List UInt8 :=
  List.flatten [encodeCompactArray TaskIds.encode assignment.active,
    encodeCompactArray TaskIds.encode assignment.standby,
    encodeCompactArray TaskIds.encode assignment.warmup, encodeTaggedFields assignment.tags]

def TaskOffset.encode (offset : TaskOffset) : List UInt8 :=
  List.flatten [encodeCompactString offset.subtopologyId, be32 offset.partition,
    be64 offset.offset, encodeTaggedFields offset.tags]

def Endpoint.encode (endpoint : Endpoint) : List UInt8 :=
  List.flatten [encodeCompactString endpoint.host, beU16 endpoint.port,
    encodeTaggedFields endpoint.tags]

def Member.encode (member : Member) : List UInt8 :=
  List.flatten [encodeCompactString member.memberId, be32 member.memberEpoch,
    encodeNullableCompactString member.instanceId, encodeNullableCompactString member.rackId,
    encodeCompactString member.clientId, encodeCompactString member.clientHost,
    be32 member.topologyEpoch, encodeCompactString member.processId,
    encodeNullableStruct Endpoint.encode member.userEndpoint,
    encodeCompactArray KeyValue.encode member.clientTags,
    encodeCompactArray TaskOffset.encode member.taskOffsets,
    encodeCompactArray TaskOffset.encode member.taskEndOffsets, member.assignment.encode,
    member.targetAssignment.encode, beBool member.isClassic, encodeTaggedFields member.tags]

def TopologyNode.encode (node : TopologyNode) : List UInt8 :=
  List.flatten [encodeCompactString node.name, be8 node.nodeType, encodeStrings node.sourceTopics,
    encodeNullableCompactString node.sinkTopic, encodeStrings node.stores,
    encodeStrings node.successors, encodeTaggedFields node.tags]

def DescribedSubtopology.encode (subtopology : DescribedSubtopology) : List UInt8 :=
  List.flatten [encodeCompactString subtopology.id,
    encodeCompactArray TopologyNode.encode subtopology.nodes, encodeTaggedFields subtopology.tags]

def GlobalStore.encode (store : GlobalStore) : List UInt8 :=
  List.flatten [store.source.encode, store.processor.encode, encodeTaggedFields store.tags]

def TopologyDescription.encode (description : TopologyDescription) : List UInt8 :=
  List.flatten [encodeCompactArray DescribedSubtopology.encode description.subtopologies,
    encodeCompactArray GlobalStore.encode description.globalStores,
    encodeTaggedFields description.tags]

/-- The fields that version 1 added. -/
def Group.encodeExtras (version : Int) (group : Group) : List UInt8 :=
  if version ≥ 1 then
    List.flatten [encodeNullableStruct TopologyDescription.encode group.topologyDescription,
      be8 group.topologyDescriptionStatus, encodeNullableCompactString group.assignor]
  else []

def Group.encode (version : Int) (group : Group) : List UInt8 :=
  List.flatten [be16 group.errorCode, encodeNullableCompactString group.errorMessage,
    encodeCompactString group.groupId, encodeCompactString group.groupState,
    be32 group.groupEpoch, be32 group.assignmentEpoch,
    encodeNullableStruct Topology.encode group.topology,
    encodeCompactArray Member.encode group.members, be32 group.authorizedOperations,
    group.encodeExtras version, encodeTaggedFields group.tags]

/-! ## What is kept -/

def keepStrings (values : CompactArray CompactString) : List String :=
  values.items.map CompactString.text

def keepTopics (infos : CompactArray TopicInfo) : List String :=
  infos.items.map fun info => info.name.text

def Subtopology.keep (subtopology : Subtopology) : StreamsSubtopology where
  id := subtopology.id.text
  sourceTopics := keepStrings subtopology.sourceTopics
  repartitionSourceTopics := keepTopics subtopology.repartitionSourceTopics
  stateChangelogTopics := keepTopics subtopology.stateChangelogTopics

/-- Subtopologies that are null are kept as none at all. -/
def Topology.keep (topology : Topology) : StreamsTopology where
  subtopologies := (topology.subtopologies.elim [] CompactArray.items).map Subtopology.keep

def TaskIds.keep (tasks : TaskIds) : StreamsTaskIds where
  subtopologyId := tasks.subtopologyId.text
  partitions := tasks.partitions.items

def Assignment.keep (assignment : Assignment) : StreamsTaskAssignment where
  active := assignment.active.items.map TaskIds.keep
  standby := assignment.standby.items.map TaskIds.keep
  warmup := assignment.warmup.items.map TaskIds.keep

def Member.keep (member : Member) : StreamsGroupMember where
  memberId := member.memberId.text
  memberEpoch := member.memberEpoch
  clientId := member.clientId.text
  topologyEpoch := member.topologyEpoch
  processId := member.processId.text
  assignment := member.assignment.keep
  targetAssignment := member.targetAssignment.keep
  isClassic := member.isClassic

def TopologyNode.keep (node : TopologyNode) : StreamsTopologyNode where
  name := node.name.text
  nodeType := node.nodeType
  sourceTopics := keepStrings node.sourceTopics
  sinkTopic := node.sinkTopic.map CompactString.text
  stores := keepStrings node.stores
  successors := keepStrings node.successors

def DescribedSubtopology.keep (subtopology : DescribedSubtopology) :
    StreamsTopologyDescriptionSubtopology where
  id := subtopology.id.text
  nodes := subtopology.nodes.items.map TopologyNode.keep

def GlobalStore.keep (store : GlobalStore) : StreamsTopologyGlobalStore where
  source := store.source.keep
  processor := store.processor.keep

def TopologyDescription.keep (description : TopologyDescription) : StreamsTopologyDescription where
  subtopologies := description.subtopologies.items.map DescribedSubtopology.keep
  globalStores := description.globalStores.items.map GlobalStore.keep

/-- What a version tells about a group. -/
def Group.keep (version : Int) (group : Group) : StreamsGroupDescription where
  groupId := group.groupId.text
  groupState := group.groupState.text
  groupEpoch := group.groupEpoch
  assignmentEpoch := group.assignmentEpoch
  topology := group.topology.map Topology.keep
  members := group.members.items.map Member.keep
  topologyDescription :=
    if version ≥ 1 then group.topologyDescription.map TopologyDescription.keep else none
  topologyDescriptionStatus := if version ≥ 1 then some group.topologyDescriptionStatus else none
  assignor := if version ≥ 1 then group.assignor.map CompactString.text else none

end Schema

open Schema

/-! ## One lemma for each decoder -/

theorem reads_compactStrings (values : CompactArray CompactString) :
    Reads decodeCompactStrings (encodeStrings values) (keepStrings values) :=
  reads_compactArray fun value _ => reads_compactString value

/-- Entries that are read and dropped. -/
theorem reads_dropped {α : Type} {decoder : Decoder Unit} {write : α → List UInt8}
    {values : CompactArray α} (h : ∀ value, Reads decoder (write value) ()) :
    Reads (do let _entries ← decodeCompactArray decoder) (encodeCompactArray write values) () := by
  have hitems : ∀ value ∈ values.items, Reads decoder (write value) ((fun _ => ()) value) :=
    fun value _ => h value
  exact (reads_compactArray hitems).last .pure

theorem reads_streamsKeyValue (entry : KeyValue) :
    Reads decodeStreamsKeyValue entry.encode () := by
  apply Reads.field (reads_compactString entry.key)
  apply Reads.field (reads_compactString entry.value)
  rw [List.flatten_singleton]
  exact reads_skipTaggedFields entry.tags

theorem reads_streamsKeyValues (entries : CompactArray KeyValue) :
    Reads decodeStreamsKeyValues (encodeCompactArray KeyValue.encode entries) () :=
  reads_dropped reads_streamsKeyValue

variable (prim : Primitives)

theorem reads_streamsTopicInfo (info : TopicInfo) :
    Reads (decodeStreamsTopicInfo prim) info.encode info.name.text := by
  apply Reads.field (reads_compactString info.name)
  apply Reads.field (prim.reads_i32 info.partitions)
  apply Reads.field (prim.reads_i16 info.replicationFactor)
  apply Reads.field (reads_streamsKeyValues info.topicConfigs)
  apply Reads.field (reads_skipTaggedFields info.tags)
  exact .pure

theorem reads_streamsTopicInfos (infos : CompactArray TopicInfo) :
    Reads (decodeStreamsTopicInfos prim) (encodeCompactArray TopicInfo.encode infos)
      (keepTopics infos) :=
  reads_compactArray fun info _ => reads_streamsTopicInfo prim info

theorem reads_streamsSubtopology (subtopology : Subtopology) :
    Reads (decodeStreamsSubtopology prim) subtopology.encode subtopology.keep := by
  apply Reads.field (reads_compactString subtopology.id)
  apply Reads.field (reads_compactStrings subtopology.sourceTopics)
  apply Reads.field (reads_compactStrings subtopology.repartitionSinkTopics)
  apply Reads.field (reads_streamsTopicInfos prim subtopology.stateChangelogTopics)
  apply Reads.field (reads_streamsTopicInfos prim subtopology.repartitionSourceTopics)
  apply Reads.field (reads_skipTaggedFields subtopology.tags)
  exact .pure

theorem reads_streamsSubtopologies (subtopologies : Option (CompactArray Subtopology)) :
    Reads (decodeStreamsSubtopologies prim) (encodeNullableArray Subtopology.encode subtopologies)
      ((subtopologies.elim [] CompactArray.items).map Subtopology.keep) := by
  cases subtopologies with
  | none => exact (reads_unsignedVarint (by omega)).last .pure
  | some values =>
    apply (reads_unsignedVarint values.fits).bind
    simp only [Nat.add_one_ne_zero, if_false, Nat.add_sub_cancel]
    exact .times fun value _ => reads_streamsSubtopology prim value

theorem reads_presence (present : Bool) :
    Reads (decodeNullableStructPresence prim) (be8 (if present then 1 else -1)) present := by
  apply (prim.reads_i8 _).last
  cases present with
  | false => exact .pure
  | true => exact .pure

/-- A struct that may be null is read after its marker. -/
theorem reads_nullableStruct {α β : Type} {write : α → List UInt8} {value : Option α}
    {next : Bool → Decoder β} {b : β} (hnone : value = none → Reads (next false) [] b)
    (hsome : ∀ a, value = some a → Reads (next true) (write a) b) :
    Reads (decodeNullableStructPresence prim >>= next) (encodeNullableStruct write value) b := by
  cases value with
  | none => exact (reads_presence prim false).last (hnone rfl)
  | some a => exact (reads_presence prim true).bind (hsome a rfl)

theorem reads_streamsTopology (topology : Option Topology) :
    Reads (decodeStreamsTopology prim) (encodeNullableStruct Topology.encode topology)
      (topology.map Topology.keep) := by
  apply reads_nullableStruct
  · intro hnone
    subst hnone
    exact .pure
  · intro topology hsome
    subst hsome
    apply Reads.field (prim.reads_i32 topology.epoch)
    apply Reads.field (reads_streamsSubtopologies prim topology.subtopologies)
    apply Reads.field (reads_skipTaggedFields topology.tags)
    exact .pure

theorem reads_streamsTaskIdsEntry (tasks : TaskIds) :
    Reads (decodeStreamsTaskIdsEntry prim) tasks.encode tasks.keep := by
  have hpartitions : Reads (decodeCompactArray prim.i32) (encodeCompactArray be32 tasks.partitions)
      (tasks.partitions.items.map id) := reads_compactArray fun x _ => prim.reads_i32 x
  rw [List.map_id] at hpartitions
  apply Reads.field (reads_compactString tasks.subtopologyId)
  apply Reads.field hpartitions
  apply Reads.field (reads_skipTaggedFields tasks.tags)
  exact .pure

theorem reads_streamsTaskIds (tasks : CompactArray TaskIds) :
    Reads (decodeStreamsTaskIds prim) (encodeCompactArray TaskIds.encode tasks)
      (tasks.items.map TaskIds.keep) :=
  reads_compactArray fun entry _ => reads_streamsTaskIdsEntry prim entry

theorem reads_streamsAssignment (assignment : Assignment) :
    Reads (decodeStreamsAssignment prim) assignment.encode assignment.keep := by
  apply Reads.field (reads_streamsTaskIds prim assignment.active)
  apply Reads.field (reads_streamsTaskIds prim assignment.standby)
  apply Reads.field (reads_streamsTaskIds prim assignment.warmup)
  apply Reads.field (reads_skipTaggedFields assignment.tags)
  exact .pure

theorem reads_streamsTaskOffset (offset : TaskOffset) :
    Reads (skipStreamsTaskOffset prim) offset.encode () := by
  apply Reads.field (reads_compactString offset.subtopologyId)
  apply Reads.field (prim.reads_i32 offset.partition)
  apply Reads.field (prim.reads_i64 offset.offset)
  rw [List.flatten_singleton]
  exact reads_skipTaggedFields offset.tags

theorem reads_streamsTaskOffsets (offsets : CompactArray TaskOffset) :
    Reads (skipStreamsTaskOffsets prim) (encodeCompactArray TaskOffset.encode offsets) () :=
  reads_dropped (reads_streamsTaskOffset prim)

/-- The port of an endpoint is read as a signed number of the same bytes. -/
theorem beU16_eq_be16 (x : UInt16) : beU16 x = be16 x.toInt16 := by
  have hx := x.toNat_lt
  have hsigned : x.toInt16.toInt = (x.toNat : Int).bmod (2 ^ 16) := BitVec.toInt_eq_toNat_bmod _
  have hbytes : ((x.toNat : Int).bmod (2 ^ 16) % 256 ^ 2).toNat = x.toNat := by
    rw [show (256 : Int) ^ 2 = ((2 ^ 16 : Nat) : Int) by norm_num, Int.bmod_emod]
    omega
  rw [beU16, be16, intBe, hsigned, hbytes]

theorem reads_streamsEndpoint (endpoint : Option Endpoint) :
    Reads (skipStreamsEndpoint prim) (encodeNullableStruct Endpoint.encode endpoint) () := by
  apply reads_nullableStruct
  · intro hnone
    exact .pure
  · intro endpoint hsome
    have hport := prim.reads_i16 endpoint.port.toInt16
    rw [← beU16_eq_be16] at hport
    apply Reads.field (reads_compactString endpoint.host)
    apply Reads.field hport
    rw [List.flatten_singleton]
    exact reads_skipTaggedFields endpoint.tags

theorem reads_streamsMember (member : Member) :
    Reads (decodeStreamsMember prim) member.encode member.keep := by
  apply Reads.field (reads_compactString member.memberId)
  apply Reads.field (prim.reads_i32 member.memberEpoch)
  apply Reads.field (reads_nullableCompactString member.instanceId)
  apply Reads.field (reads_nullableCompactString member.rackId)
  apply Reads.field (reads_compactString member.clientId)
  apply Reads.field (reads_compactString member.clientHost)
  apply Reads.field (prim.reads_i32 member.topologyEpoch)
  apply Reads.field (reads_compactString member.processId)
  apply Reads.field (reads_streamsEndpoint prim member.userEndpoint)
  apply Reads.field (reads_streamsKeyValues member.clientTags)
  apply Reads.field (reads_streamsTaskOffsets prim member.taskOffsets)
  apply Reads.field (reads_streamsTaskOffsets prim member.taskEndOffsets)
  apply Reads.field (reads_streamsAssignment prim member.assignment)
  apply Reads.field (reads_streamsAssignment prim member.targetAssignment)
  apply Reads.field (prim.reads_bool member.isClassic)
  apply Reads.field (reads_skipTaggedFields member.tags)
  exact .pure

theorem reads_streamsTopologyNode (node : TopologyNode) :
    Reads (decodeStreamsTopologyNode prim) node.encode node.keep := by
  apply Reads.field (reads_compactString node.name)
  apply Reads.field (prim.reads_i8 node.nodeType)
  apply Reads.field (reads_compactStrings node.sourceTopics)
  apply Reads.field (reads_nullableCompactString node.sinkTopic)
  apply Reads.field (reads_compactStrings node.stores)
  apply Reads.field (reads_compactStrings node.successors)
  apply Reads.field (reads_skipTaggedFields node.tags)
  exact .pure

theorem reads_streamsTopologyDescriptionSubtopology (subtopology : DescribedSubtopology) :
    Reads (decodeStreamsTopologyDescriptionSubtopology prim) subtopology.encode
      subtopology.keep := by
  apply Reads.field (reads_compactString subtopology.id)
  apply Reads.field (reads_compactArray fun node _ => reads_streamsTopologyNode prim node)
  apply Reads.field (reads_skipTaggedFields subtopology.tags)
  exact .pure

theorem reads_streamsTopologyGlobalStore (store : GlobalStore) :
    Reads (decodeStreamsTopologyGlobalStore prim) store.encode store.keep := by
  apply Reads.field (reads_streamsTopologyNode prim store.source)
  apply Reads.field (reads_streamsTopologyNode prim store.processor)
  apply Reads.field (reads_skipTaggedFields store.tags)
  exact .pure

theorem reads_streamsTopologyDescription (description : Option TopologyDescription) :
    Reads (decodeStreamsTopologyDescription prim)
      (encodeNullableStruct TopologyDescription.encode description)
      (description.map TopologyDescription.keep) := by
  apply reads_nullableStruct
  · intro hnone
    subst hnone
    exact .pure
  · intro description hsome
    subst hsome
    apply Reads.field (reads_compactArray fun subtopology _ =>
      reads_streamsTopologyDescriptionSubtopology prim subtopology)
    apply Reads.field (reads_compactArray fun store _ =>
      reads_streamsTopologyGlobalStore prim store)
    apply Reads.field (reads_skipTaggedFields description.tags)
    exact .pure

theorem reads_streamsDescriptionExtras (version : Int) (group : Group) :
    Reads (decodeStreamsDescriptionExtras prim version) (group.encodeExtras version)
      ((group.keep version).topologyDescription, (group.keep version).topologyDescriptionStatus,
        (group.keep version).assignor) := by
  by_cases hversion : version ≥ 1
  · simp only [decodeStreamsDescriptionExtras, Group.encodeExtras, Group.keep, hversion, if_true]
    apply Reads.field (reads_streamsTopologyDescription prim group.topologyDescription)
    apply Reads.field (prim.reads_i8 group.topologyDescriptionStatus)
    apply Reads.field (reads_nullableCompactString group.assignor)
    exact .pure
  · simp only [decodeStreamsDescriptionExtras, Group.encodeExtras, Group.keep, hversion, if_false]
    exact .pure

theorem reads_streamsGroupDescription (version : Int) (group : Group) :
    Reads (decodeStreamsGroupDescription prim version) (group.encode version)
      (group.errorCode, group.errorMessage.map CompactString.text, group.keep version) := by
  apply Reads.field (prim.reads_i16 group.errorCode)
  apply Reads.field (reads_nullableCompactString group.errorMessage)
  apply Reads.field (reads_compactString group.groupId)
  apply Reads.field (reads_compactString group.groupState)
  apply Reads.field (prim.reads_i32 group.groupEpoch)
  apply Reads.field (prim.reads_i32 group.assignmentEpoch)
  apply Reads.field (reads_streamsTopology prim group.topology)
  apply Reads.field (reads_compactArray fun member _ => reads_streamsMember prim member)
  apply Reads.field (prim.reads_i32 group.authorizedOperations)
  apply Reads.field (reads_streamsDescriptionExtras prim version group)
  apply Reads.field (reads_skipTaggedFields group.tags)
  exact .pure

/-- **The decoder inverts the encoder.** For every version and every group it returns what is
kept of the group, and leaves exactly the bytes that follow. -/
theorem decodeStreamsGroupDescription_encode (version : Int) (group : Group) (rest : List UInt8) :
    (decodeStreamsGroupDescription prim version).run (group.encode version ++ rest) =
      .ok ((group.errorCode, group.errorMessage.map CompactString.text, group.keep version),
        rest) :=
  reads_streamsGroupDescription prim version group rest

end KafkaCli.Streams.Describe
