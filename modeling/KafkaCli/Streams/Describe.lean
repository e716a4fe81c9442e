import KafkaCli.Protocol.Compact

/-!
# Decoding a described streams group

The decoders of `StreamsGroupDescribe`, one for each record of the schema, in the order of
`commands.rs`. About half of the fields are read and dropped; the names that start with an
underscore are those.

The fixed-width reads are those of the protocol client, a `Primitives`.
-/

namespace KafkaCli.Streams.Describe

open Protocol Wire

/-- The byte of a truth value. -/
def beBool (x : Bool) : List UInt8 := [if x then 1 else 0]

/-- The fixed-width decoders of the protocol client. They read big-endian integers, and a truth
value off one byte. -/
structure Primitives where
  i8 : Decoder Int8
  i16 : Decoder Int16
  i32 : Decoder Int32
  i64 : Decoder Int64
  bool : Decoder Bool
  reads_i8 : ∀ x, Reads i8 (be8 x) x
  reads_i16 : ∀ x, Reads i16 (be16 x) x
  reads_i32 : ∀ x, Reads i32 (be32 x) x
  reads_i64 : ∀ x, Reads i64 (be64 x) x
  reads_bool : ∀ x, Reads bool (beBool x) x

/-- The reads of the client with one error text for a buffer that is too short. -/
def Primitives.bigEndian (short : Error) : Primitives where
  i8 := (fun bytes => Int8.ofInt (signedBe bytes)) <$> takeBytes 1 (.failed short)
  i16 := (fun bytes => Int16.ofInt (signedBe bytes)) <$> takeBytes 2 (.failed short)
  i32 := (fun bytes => Int32.ofInt (signedBe bytes)) <$> takeBytes 4 (.failed short)
  i64 := (fun bytes => Int64.ofInt (signedBe bytes)) <$> takeBytes 8 (.failed short)
  bool := (fun bytes => decide (unsignedBe bytes ≠ 0)) <$> takeBytes 1 (.failed short)
  reads_i8 x := reads_fixed (length_intBe _ _) (ofInt_signedBe_be8 x)
  reads_i16 x := reads_fixed (length_intBe _ _) (ofInt_signedBe_be16 x)
  reads_i32 x := reads_fixed (length_intBe _ _) (ofInt_signedBe_be32 x)
  reads_i64 x := reads_fixed (length_intBe _ _) (ofInt_signedBe_be64 x)
  reads_bool x := reads_fixed rfl (by cases x <;> rfl)

/-! ## What is kept -/

structure StreamsSubtopology where
  id : String
  sourceTopics : List String
  repartitionSourceTopics : List String
  stateChangelogTopics : List String
  deriving DecidableEq, Repr

structure StreamsTopology where
  subtopologies : List StreamsSubtopology
  deriving DecidableEq, Repr

structure StreamsTaskIds where
  subtopologyId : String
  partitions : List Int32
  deriving DecidableEq, Repr

structure StreamsTaskAssignment where
  active : List StreamsTaskIds
  standby : List StreamsTaskIds
  warmup : List StreamsTaskIds
  deriving DecidableEq, Repr

structure StreamsGroupMember where
  memberId : String
  memberEpoch : Int32
  clientId : String
  topologyEpoch : Int32
  processId : String
  assignment : StreamsTaskAssignment
  targetAssignment : StreamsTaskAssignment
  isClassic : Bool
  deriving DecidableEq, Repr

structure StreamsTopologyNode where
  name : String
  nodeType : Int8
  sourceTopics : List String
  sinkTopic : Option String
  stores : List String
  successors : List String
  deriving DecidableEq, Repr

structure StreamsTopologyDescriptionSubtopology where
  id : String
  nodes : List StreamsTopologyNode
  deriving DecidableEq, Repr

structure StreamsTopologyGlobalStore where
  source : StreamsTopologyNode
  processor : StreamsTopologyNode
  deriving DecidableEq, Repr

structure StreamsTopologyDescription where
  subtopologies : List StreamsTopologyDescriptionSubtopology
  globalStores : List StreamsTopologyGlobalStore
  deriving DecidableEq, Repr

structure StreamsGroupDescription where
  groupId : String
  groupState : String
  groupEpoch : Int32
  assignmentEpoch : Int32
  topology : Option StreamsTopology
  members : List StreamsGroupMember
  topologyDescription : Option StreamsTopologyDescription
  topologyDescriptionStatus : Option Int8
  assignor : Option String
  deriving DecidableEq, Repr

/-! ## The decoders -/

/-- `decode_compact_strings`. -/
def decodeCompactStrings : Decoder (List String) := decodeCompactArray decodeCompactString

/-- One entry of `decode_streams_key_values`. -/
def decodeStreamsKeyValue : Decoder Unit := do
  let _key ← decodeCompactString
  let _value ← decodeCompactString
  skipTaggedFields

/-- `decode_streams_key_values`. -/
def decodeStreamsKeyValues : Decoder Unit := do
  let _entries ← decodeCompactArray decodeStreamsKeyValue

variable (prim : Primitives)

/-- One entry of `decode_streams_topic_infos`. -/
def decodeStreamsTopicInfo : Decoder String := do
  let topic ← decodeCompactString
  let _partitions ← prim.i32
  let _replicationFactor ← prim.i16
  decodeStreamsKeyValues
  skipTaggedFields
  return topic

/-- `decode_streams_topic_infos`. -/
def decodeStreamsTopicInfos : Decoder (List String) :=
  decodeCompactArray (decodeStreamsTopicInfo prim)

/-- One entry of `decode_streams_subtopologies`. -/
def decodeStreamsSubtopology : Decoder StreamsSubtopology := do
  let id ← decodeCompactString
  let sourceTopics ← decodeCompactStrings
  let _repartitionSinkTopics ← decodeCompactStrings
  let stateChangelogTopics ← decodeStreamsTopicInfos prim
  let repartitionSourceTopics ← decodeStreamsTopicInfos prim
  skipTaggedFields
  return { id, sourceTopics, repartitionSourceTopics, stateChangelogTopics }

/-- `decode_streams_subtopologies`. A null array counts as empty. -/
def decodeStreamsSubtopologies : Decoder (List StreamsSubtopology) := do
  let encoded ← decodeUnsignedVarint
  if encoded = 0 then return []
  else times (encoded - 1) (decodeStreamsSubtopology prim)

/-- `decode_nullable_struct_presence`. -/
def decodeNullableStructPresence : Decoder Bool := do
  let marker ← prim.i8
  if marker = -1 then return false
  else if marker = 1 then return true
  else throw (malformed s!"invalid nullable struct presence marker {marker}")

/-- `decode_streams_topology`. -/
def decodeStreamsTopology : Decoder (Option StreamsTopology) := do
  if !(← decodeNullableStructPresence prim) then return none
  else
    let _epoch ← prim.i32
    let subtopologies ← decodeStreamsSubtopologies prim
    skipTaggedFields
    return some { subtopologies }

/-- One entry of `decode_streams_task_ids`. -/
def decodeStreamsTaskIdsEntry : Decoder StreamsTaskIds := do
  let subtopologyId ← decodeCompactString
  let partitions ← decodeCompactArray prim.i32
  skipTaggedFields
  return { subtopologyId, partitions }

/-- `decode_streams_task_ids`. -/
def decodeStreamsTaskIds : Decoder (List StreamsTaskIds) :=
  decodeCompactArray (decodeStreamsTaskIdsEntry prim)

/-- `decode_streams_assignment`. -/
def decodeStreamsAssignment : Decoder StreamsTaskAssignment := do
  let active ← decodeStreamsTaskIds prim
  let standby ← decodeStreamsTaskIds prim
  let warmup ← decodeStreamsTaskIds prim
  skipTaggedFields
  return { active, standby, warmup }

/-- One entry of `skip_streams_task_offsets`. -/
def skipStreamsTaskOffset : Decoder Unit := do
  let _subtopologyId ← decodeCompactString
  let _partition ← prim.i32
  let _offset ← prim.i64
  skipTaggedFields

/-- `skip_streams_task_offsets`. -/
def skipStreamsTaskOffsets : Decoder Unit := do
  let _entries ← decodeCompactArray (skipStreamsTaskOffset prim)

/-- The user endpoint of a member, where there is one. -/
def skipStreamsEndpoint : Decoder Unit := do
  if ← decodeNullableStructPresence prim then
    let _host ← decodeCompactString
    let _port ← prim.i16
    skipTaggedFields
  else return ()

/-- `decode_streams_member`. -/
def decodeStreamsMember : Decoder StreamsGroupMember := do
  let memberId ← decodeCompactString
  let memberEpoch ← prim.i32
  let _instanceId ← decodeNullableCompactString
  let _rackId ← decodeNullableCompactString
  let clientId ← decodeCompactString
  let _clientHost ← decodeCompactString
  let topologyEpoch ← prim.i32
  let processId ← decodeCompactString
  skipStreamsEndpoint prim
  decodeStreamsKeyValues
  skipStreamsTaskOffsets prim
  skipStreamsTaskOffsets prim
  let assignment ← decodeStreamsAssignment prim
  let targetAssignment ← decodeStreamsAssignment prim
  let isClassic ← prim.bool
  skipTaggedFields
  return { memberId, memberEpoch, clientId, topologyEpoch, processId, assignment,
           targetAssignment, isClassic }

/-- `decode_streams_topology_node`. -/
def decodeStreamsTopologyNode : Decoder StreamsTopologyNode := do
  let name ← decodeCompactString
  let nodeType ← prim.i8
  let sourceTopics ← decodeCompactStrings
  let sinkTopic ← decodeNullableCompactString
  let stores ← decodeCompactStrings
  let successors ← decodeCompactStrings
  skipTaggedFields
  return { name, nodeType, sourceTopics, sinkTopic, stores, successors }

/-- One subtopology of `decode_streams_topology_description`. -/
def decodeStreamsTopologyDescriptionSubtopology :
    Decoder StreamsTopologyDescriptionSubtopology := do
  let id ← decodeCompactString
  let nodes ← decodeCompactArray (decodeStreamsTopologyNode prim)
  skipTaggedFields
  return { id, nodes }

/-- One global store of `decode_streams_topology_description`. -/
def decodeStreamsTopologyGlobalStore : Decoder StreamsTopologyGlobalStore := do
  let source ← decodeStreamsTopologyNode prim
  let processor ← decodeStreamsTopologyNode prim
  skipTaggedFields
  return { source, processor }

/-- `decode_streams_topology_description`. -/
def decodeStreamsTopologyDescription : Decoder (Option StreamsTopologyDescription) := do
  if !(← decodeNullableStructPresence prim) then return none
  else
    let subtopologies ← decodeCompactArray (decodeStreamsTopologyDescriptionSubtopology prim)
    let globalStores ← decodeCompactArray (decodeStreamsTopologyGlobalStore prim)
    skipTaggedFields
    return some { subtopologies, globalStores }

/-- The fields that version 1 added. -/
def decodeStreamsDescriptionExtras (version : Int) :
    Decoder (Option StreamsTopologyDescription × Option Int8 × Option String) := do
  if version ≥ 1 then
    let description ← decodeStreamsTopologyDescription prim
    let status ← prim.i8
    let assignor ← decodeNullableCompactString
    return (description, some status, assignor)
  else return (none, none, none)

/-- `decode_streams_group_description`: the error code and message of the group, and what is kept
of its description. -/
def decodeStreamsGroupDescription (version : Int) :
    Decoder (Int16 × Option String × StreamsGroupDescription) := do
  let errorCode ← prim.i16
  let errorMessage ← decodeNullableCompactString
  let groupId ← decodeCompactString
  let groupState ← decodeCompactString
  let groupEpoch ← prim.i32
  let assignmentEpoch ← prim.i32
  let topology ← decodeStreamsTopology prim
  let members ← decodeCompactArray (decodeStreamsMember prim)
  let _authorizedOperations ← prim.i32
  let (topologyDescription, topologyDescriptionStatus, assignor) ←
    decodeStreamsDescriptionExtras prim version
  skipTaggedFields
  return (errorCode, errorMessage,
    { groupId, groupState, groupEpoch, assignmentEpoch, topology, members, topologyDescription,
      topologyDescriptionStatus, assignor })

end KafkaCli.Streams.Describe
