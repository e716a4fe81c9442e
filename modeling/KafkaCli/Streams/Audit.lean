import KafkaCli.Quorum.Audit
import KafkaCli.Streams.Describe

/-!
# A described streams group on hostile input

The audited versions of the decoders of `decode_streams_group_description`. The fixed-width reads
are those of the protocol client, which fail on a short buffer, so that nothing is logged for them.
Room is reserved for the topics and the subtopologies of a topology, for tasks, and for the two
arrays of a topology description; the other arrays are collected as they come.
-/

namespace KafkaCli.Streams.Describe

open Protocol Wire

namespace Audit

open Wire.Audited Protocol.Audit

/-- `decode_compact_strings`. -/
def decodeCompactStrings : Wire.Audited Fault (List String) :=
  decodeCompactArray decodeCompactString

/-- One entry of `decode_streams_key_values`. -/
def decodeStreamsKeyValue : Wire.Audited Fault Unit := do
  let _key ← decodeCompactString
  let _value ← decodeCompactString
  skipTaggedFields

/-- `decode_streams_key_values`. -/
def decodeStreamsKeyValues : Wire.Audited Fault Unit := do
  let _entries ← decodeCompactArray decodeStreamsKeyValue

variable (prim : Primitives)

/-- One entry of `decode_streams_topic_infos`. -/
def decodeStreamsTopicInfo : Wire.Audited Fault String := do
  let topic ← decodeCompactString
  let _partitions ← ofDecoder prim.i32
  let _replicationFactor ← ofDecoder prim.i16
  decodeStreamsKeyValues
  skipTaggedFields
  return topic

/-- `decode_streams_topic_infos`. -/
def decodeStreamsTopicInfos : Wire.Audited Fault (List String) :=
  decodeReservedArray (decodeStreamsTopicInfo prim)

/-- One entry of `decode_streams_subtopologies`. -/
def decodeStreamsSubtopology : Wire.Audited Fault StreamsSubtopology := do
  let id ← decodeCompactString
  let sourceTopics ← decodeCompactStrings
  let _repartitionSinkTopics ← decodeCompactStrings
  let stateChangelogTopics ← decodeStreamsTopicInfos prim
  let repartitionSourceTopics ← decodeStreamsTopicInfos prim
  skipTaggedFields
  return { id, sourceTopics, repartitionSourceTopics, stateChangelogTopics }

/-- `decode_streams_subtopologies`. A null array counts as empty. -/
def decodeStreamsSubtopologies : Wire.Audited Fault (List StreamsSubtopology) := do
  let encoded ← decodeUnsignedVarint
  if encoded = 0 then return []
  else
    reserve (encoded - 1)
    times (encoded - 1) (decodeStreamsSubtopology prim)

/-- `decode_nullable_struct_presence`. -/
def decodeNullableStructPresence : Wire.Audited Fault Bool := do
  let marker ← ofDecoder prim.i8
  if marker = -1 then return false
  else if marker = 1 then return true
  else fail (malformed s!"invalid nullable struct presence marker {marker}")

/-- `decode_streams_topology`. -/
def decodeStreamsTopology : Wire.Audited Fault (Option StreamsTopology) := do
  if !(← decodeNullableStructPresence prim) then return none
  else
    let _epoch ← ofDecoder prim.i32
    let subtopologies ← decodeStreamsSubtopologies prim
    skipTaggedFields
    return some { subtopologies }

/-- One entry of `decode_streams_task_ids`. -/
def decodeStreamsTaskIdsEntry : Wire.Audited Fault StreamsTaskIds := do
  let subtopologyId ← decodeCompactString
  let partitions ← decodeCompactArray (ofDecoder prim.i32)
  skipTaggedFields
  return { subtopologyId, partitions }

/-- `decode_streams_task_ids`. -/
def decodeStreamsTaskIds : Wire.Audited Fault (List StreamsTaskIds) :=
  decodeReservedArray (decodeStreamsTaskIdsEntry prim)

/-- `decode_streams_assignment`. -/
def decodeStreamsAssignment : Wire.Audited Fault StreamsTaskAssignment := do
  let active ← decodeStreamsTaskIds prim
  let standby ← decodeStreamsTaskIds prim
  let warmup ← decodeStreamsTaskIds prim
  skipTaggedFields
  return { active, standby, warmup }

/-- One entry of `skip_streams_task_offsets`. -/
def skipStreamsTaskOffset : Wire.Audited Fault Unit := do
  let _subtopologyId ← decodeCompactString
  let _partition ← ofDecoder prim.i32
  let _offset ← ofDecoder prim.i64
  skipTaggedFields

/-- `skip_streams_task_offsets`. -/
def skipStreamsTaskOffsets : Wire.Audited Fault Unit := do
  let _entries ← decodeCompactArray (skipStreamsTaskOffset prim)

/-- The user endpoint of a member, where there is one. -/
def skipStreamsEndpoint : Wire.Audited Fault Unit := do
  if ← decodeNullableStructPresence prim then
    let _host ← decodeCompactString
    let _port ← ofDecoder prim.i16
    skipTaggedFields
  else return ()

/-- `decode_streams_member`. -/
def decodeStreamsMember : Wire.Audited Fault StreamsGroupMember := do
  let memberId ← decodeCompactString
  let memberEpoch ← ofDecoder prim.i32
  let _instanceId ← decodeNullableCompactString
  let _rackId ← decodeNullableCompactString
  let clientId ← decodeCompactString
  let _clientHost ← decodeCompactString
  let topologyEpoch ← ofDecoder prim.i32
  let processId ← decodeCompactString
  skipStreamsEndpoint prim
  decodeStreamsKeyValues
  skipStreamsTaskOffsets prim
  skipStreamsTaskOffsets prim
  let assignment ← decodeStreamsAssignment prim
  let targetAssignment ← decodeStreamsAssignment prim
  let isClassic ← ofDecoder prim.bool
  skipTaggedFields
  return { memberId, memberEpoch, clientId, topologyEpoch, processId, assignment,
           targetAssignment, isClassic }

/-- `decode_streams_topology_node`. -/
def decodeStreamsTopologyNode : Wire.Audited Fault StreamsTopologyNode := do
  let name ← decodeCompactString
  let nodeType ← ofDecoder prim.i8
  let sourceTopics ← decodeCompactStrings
  let sinkTopic ← decodeNullableCompactString
  let stores ← decodeCompactStrings
  let successors ← decodeCompactStrings
  skipTaggedFields
  return { name, nodeType, sourceTopics, sinkTopic, stores, successors }

/-- One subtopology of `decode_streams_topology_description`. -/
def decodeStreamsTopologyDescriptionSubtopology :
    Wire.Audited Fault StreamsTopologyDescriptionSubtopology := do
  let id ← decodeCompactString
  let nodes ← decodeCompactArray (decodeStreamsTopologyNode prim)
  skipTaggedFields
  return { id, nodes }

/-- One global store of `decode_streams_topology_description`. -/
def decodeStreamsTopologyGlobalStore : Wire.Audited Fault StreamsTopologyGlobalStore := do
  let source ← decodeStreamsTopologyNode prim
  let processor ← decodeStreamsTopologyNode prim
  skipTaggedFields
  return { source, processor }

/-- `decode_streams_topology_description`. -/
def decodeStreamsTopologyDescription :
    Wire.Audited Fault (Option StreamsTopologyDescription) := do
  if !(← decodeNullableStructPresence prim) then return none
  else
    let subtopologies ← decodeReservedArray (decodeStreamsTopologyDescriptionSubtopology prim)
    let globalStores ← decodeReservedArray (decodeStreamsTopologyGlobalStore prim)
    skipTaggedFields
    return some { subtopologies, globalStores }

/-- The fields that version 1 added. -/
def decodeStreamsDescriptionExtras (version : Int) :
    Wire.Audited Fault (Option StreamsTopologyDescription × Option Int8 × Option String) := do
  if version ≥ 1 then
    let description ← decodeStreamsTopologyDescription prim
    let status ← ofDecoder prim.i8
    let assignor ← decodeNullableCompactString
    return (description, some status, assignor)
  else return (none, none, none)

/-- `decode_streams_group_description`. -/
def decodeStreamsGroupDescription (version : Int) :
    Wire.Audited Fault (Int16 × Option String × StreamsGroupDescription) := do
  let errorCode ← ofDecoder prim.i16
  let errorMessage ← decodeNullableCompactString
  let groupId ← decodeCompactString
  let groupState ← decodeCompactString
  let groupEpoch ← ofDecoder prim.i32
  let assignmentEpoch ← ofDecoder prim.i32
  let topology ← decodeStreamsTopology prim
  let members ← decodeCompactArray (decodeStreamsMember prim)
  let _authorizedOperations ← ofDecoder prim.i32
  let (topologyDescription, topologyDescriptionStatus, assignor) ←
    decodeStreamsDescriptionExtras prim version
  skipTaggedFields
  return (errorCode, errorMessage,
    { groupId, groupState, groupEpoch, assignmentEpoch, topology, members, topologyDescription,
      topologyDescriptionStatus, assignor })

end Audit

/-! ## What the client's reads promise -/

/-- A fixed-width read of the protocol client: an error on a short buffer, and a value of so many
bytes on any other. -/
structure Guarded {α : Type} (width : ℕ) (d : Decoder α) : Prop where
  short : ∀ bytes, bytes.length < width → ∃ e, d.run bytes = .error (.failed e)
  takes : Takes width d

structure Primitives.Guarded (prim : Primitives) : Prop where
  i8 : Describe.Guarded 1 prim.i8
  i16 : Describe.Guarded 2 prim.i16
  i32 : Describe.Guarded 4 prim.i32
  i64 : Describe.Guarded 8 prim.i64
  bool : Describe.Guarded 1 prim.bool

theorem guarded_map {α : Type} (width : ℕ) (e : Error) (value : List UInt8 → α) :
    Guarded width (value <$> takeBytes width (Fault.failed e)) where
  short := by
    intro bytes hshort
    refine ⟨e, ?_⟩
    rw [StateT.run_map, takeBytes_run_short (Nat.not_le.2 hshort)]
    rfl
  takes := (takes_takeBytes width _).map

theorem guarded_bigEndian (short : Error) : (Primitives.bigEndian short).Guarded :=
  ⟨guarded_map 1 short _, guarded_map 2 short _, guarded_map 4 short _, guarded_map 8 short _,
    guarded_map 1 short _⟩

/-! ## What they endure -/

theorem Guarded.endures {α : Type} {width : ℕ} {d : Decoder α} (h : Guarded width d) :
    Endures (Audited.ofDecoder d) d width := by
  intro bytes _
  by_cases hlength : bytes.length < width
  · obtain ⟨e, hrun⟩ := h.short bytes hlength
    have hfailed : Fault.failed e ≠ .panicked := nofun
    exact .of_run_error hfailed hrun
  · obtain ⟨a, hrun⟩ := h.takes bytes (Nat.not_lt.1 hlength)
    refine .of_run_ok hrun ?_ trivial
    rw [List.length_drop]
    omega

theorem endures_decodeCompactStrings :
    Endures Audit.decodeCompactStrings decodeCompactStrings 1 :=
  endures_decodeCompactArray endures_decodeCompactString

theorem endures_decodeStreamsKeyValue :
    Endures Audit.decodeStreamsKeyValue decodeStreamsKeyValue 1 := by
  refine endures_decodeCompactString.first fun key => ?_
  refine endures_decodeCompactString.field fun value => ?_
  exact endures_skipTaggedFields.weaken (Nat.zero_le 1)

theorem endures_decodeStreamsKeyValues :
    Endures Audit.decodeStreamsKeyValues decodeStreamsKeyValues 1 :=
  (endures_decodeCompactArray endures_decodeStreamsKeyValue).first fun _ => .pure ()

variable {prim : Primitives} (hprim : prim.Guarded)

include hprim

theorem endures_decodeStreamsTopicInfo :
    Endures (Audit.decodeStreamsTopicInfo prim) (decodeStreamsTopicInfo prim) 1 := by
  refine endures_decodeCompactString.first fun topic => ?_
  refine hprim.i32.endures.field fun partitions => ?_
  refine hprim.i16.endures.field fun replicationFactor => ?_
  refine endures_decodeStreamsKeyValues.field fun _ => ?_
  exact endures_skipTaggedFields.field fun _ => .pure topic

theorem endures_decodeStreamsTopicInfos :
    Endures (Audit.decodeStreamsTopicInfos prim) (decodeStreamsTopicInfos prim) 1 :=
  endures_decodeReservedArray (endures_decodeStreamsTopicInfo hprim)

theorem endures_decodeStreamsSubtopology :
    Endures (Audit.decodeStreamsSubtopology prim) (decodeStreamsSubtopology prim) 1 := by
  refine endures_decodeCompactString.first fun id => ?_
  refine endures_decodeCompactStrings.field fun sourceTopics => ?_
  refine endures_decodeCompactStrings.field fun repartitionSinkTopics => ?_
  refine (endures_decodeStreamsTopicInfos hprim).field fun stateChangelogTopics => ?_
  refine (endures_decodeStreamsTopicInfos hprim).field fun repartitionSourceTopics => ?_
  exact endures_skipTaggedFields.field fun _ => Endures.pure _

theorem endures_decodeStreamsSubtopologies :
    Endures (Audit.decodeStreamsSubtopologies prim) (decodeStreamsSubtopologies prim) 1 := by
  refine Audits.bind (n := 0) audits_decodeUnsignedVarint fun encoded hencoded => ?_
  refine Endures.ite (.pure []) ?_
  have hcount : encoded - 1 ≤ maxCount := by
    rw [maxCount]
    omega
  have htimes := Audits.times (endures_decodeStreamsSubtopology hprim) (encoded - 1)
  exact Endures.weaken (Audits.reserve hcount htimes) (Nat.zero_le _)

theorem endures_decodeNullableStructPresence :
    Endures (Audit.decodeNullableStructPresence prim) (decodeNullableStructPresence prim) 1 := by
  refine hprim.i8.endures.first fun marker => ?_
  exact .ite (.pure false) (.ite (.pure true) (.fail _))

theorem endures_decodeStreamsTopology :
    Endures (Audit.decodeStreamsTopology prim) (decodeStreamsTopology prim) 1 := by
  refine (endures_decodeNullableStructPresence hprim).first fun present => ?_
  refine Endures.ite (.pure none) ?_
  refine hprim.i32.endures.field fun epoch => ?_
  refine (endures_decodeStreamsSubtopologies hprim).field fun subtopologies => ?_
  exact endures_skipTaggedFields.field fun _ => Endures.pure _

theorem endures_decodeStreamsTaskIdsEntry :
    Endures (Audit.decodeStreamsTaskIdsEntry prim) (decodeStreamsTaskIdsEntry prim) 1 := by
  refine endures_decodeCompactString.first fun subtopologyId => ?_
  have hpartition := hprim.i32.endures.weaken (by decide : 1 ≤ 4)
  refine (endures_decodeCompactArray hpartition).field fun partitions => ?_
  exact endures_skipTaggedFields.field fun _ => Endures.pure _

theorem endures_decodeStreamsTaskIds :
    Endures (Audit.decodeStreamsTaskIds prim) (decodeStreamsTaskIds prim) 1 :=
  endures_decodeReservedArray (endures_decodeStreamsTaskIdsEntry hprim)

theorem endures_decodeStreamsAssignment :
    Endures (Audit.decodeStreamsAssignment prim) (decodeStreamsAssignment prim) 1 := by
  have htasks := endures_decodeStreamsTaskIds hprim
  refine htasks.first fun active => ?_
  refine htasks.field fun standby => ?_
  refine htasks.field fun warmup => ?_
  exact endures_skipTaggedFields.field fun _ => Endures.pure _

theorem endures_skipStreamsTaskOffset :
    Endures (Audit.skipStreamsTaskOffset prim) (skipStreamsTaskOffset prim) 1 := by
  refine endures_decodeCompactString.first fun subtopologyId => ?_
  refine hprim.i32.endures.field fun partition => ?_
  refine hprim.i64.endures.field fun offset => ?_
  exact endures_skipTaggedFields.weaken (Nat.zero_le 1)

theorem endures_skipStreamsTaskOffsets :
    Endures (Audit.skipStreamsTaskOffsets prim) (skipStreamsTaskOffsets prim) 1 :=
  (endures_decodeCompactArray (endures_skipStreamsTaskOffset hprim)).first fun _ => .pure ()

theorem endures_skipStreamsEndpoint :
    Endures (Audit.skipStreamsEndpoint prim) (skipStreamsEndpoint prim) 1 := by
  refine (endures_decodeNullableStructPresence hprim).first fun present => ?_
  refine Endures.ite ?_ (.pure ())
  refine endures_decodeCompactString.field fun host => ?_
  refine hprim.i16.endures.field fun port => ?_
  exact endures_skipTaggedFields.weaken (Nat.zero_le 1)

theorem endures_decodeStreamsMember :
    Endures (Audit.decodeStreamsMember prim) (decodeStreamsMember prim) 1 := by
  refine endures_decodeCompactString.first fun memberId => ?_
  refine hprim.i32.endures.field fun memberEpoch => ?_
  refine endures_decodeNullableCompactString.field fun instanceId => ?_
  refine endures_decodeNullableCompactString.field fun rackId => ?_
  refine endures_decodeCompactString.field fun clientId => ?_
  refine endures_decodeCompactString.field fun clientHost => ?_
  refine hprim.i32.endures.field fun topologyEpoch => ?_
  refine endures_decodeCompactString.field fun processId => ?_
  refine (endures_skipStreamsEndpoint hprim).field fun _ => ?_
  refine endures_decodeStreamsKeyValues.field fun _ => ?_
  refine (endures_skipStreamsTaskOffsets hprim).field fun _ => ?_
  refine (endures_skipStreamsTaskOffsets hprim).field fun _ => ?_
  refine (endures_decodeStreamsAssignment hprim).field fun assignment => ?_
  refine (endures_decodeStreamsAssignment hprim).field fun targetAssignment => ?_
  refine hprim.bool.endures.field fun isClassic => ?_
  exact endures_skipTaggedFields.field fun _ => Endures.pure _

theorem endures_decodeStreamsTopologyNode :
    Endures (Audit.decodeStreamsTopologyNode prim) (decodeStreamsTopologyNode prim) 1 := by
  refine endures_decodeCompactString.first fun name => ?_
  refine hprim.i8.endures.field fun nodeType => ?_
  refine endures_decodeCompactStrings.field fun sourceTopics => ?_
  refine endures_decodeNullableCompactString.field fun sinkTopic => ?_
  refine endures_decodeCompactStrings.field fun stores => ?_
  refine endures_decodeCompactStrings.field fun successors => ?_
  exact endures_skipTaggedFields.field fun _ => Endures.pure _

theorem endures_decodeStreamsTopologyDescriptionSubtopology :
    Endures (Audit.decodeStreamsTopologyDescriptionSubtopology prim)
      (decodeStreamsTopologyDescriptionSubtopology prim) 1 := by
  refine endures_decodeCompactString.first fun id => ?_
  have hnodes := endures_decodeCompactArray (endures_decodeStreamsTopologyNode hprim)
  refine hnodes.field fun nodes => ?_
  exact endures_skipTaggedFields.field fun _ => Endures.pure _

theorem endures_decodeStreamsTopologyGlobalStore :
    Endures (Audit.decodeStreamsTopologyGlobalStore prim)
      (decodeStreamsTopologyGlobalStore prim) 1 := by
  refine (endures_decodeStreamsTopologyNode hprim).first fun source => ?_
  refine (endures_decodeStreamsTopologyNode hprim).field fun processor => ?_
  exact endures_skipTaggedFields.field fun _ => Endures.pure _

theorem endures_decodeStreamsTopologyDescription :
    Endures (Audit.decodeStreamsTopologyDescription prim)
      (decodeStreamsTopologyDescription prim) 1 := by
  refine (endures_decodeNullableStructPresence hprim).first fun present => ?_
  refine Endures.ite (.pure none) ?_
  have hsubtopologies :=
    endures_decodeReservedArray (endures_decodeStreamsTopologyDescriptionSubtopology hprim)
  have hstores := endures_decodeReservedArray (endures_decodeStreamsTopologyGlobalStore hprim)
  refine hsubtopologies.field fun subtopologies => ?_
  refine hstores.field fun globalStores => ?_
  exact endures_skipTaggedFields.field fun _ => Endures.pure _

theorem endures_decodeStreamsDescriptionExtras (version : Int) :
    Endures (Audit.decodeStreamsDescriptionExtras prim version)
      (decodeStreamsDescriptionExtras prim version) 0 := by
  refine .ite ?_ (.pure (none, none, none))
  refine (endures_decodeStreamsTopologyDescription hprim).field fun description => ?_
  refine hprim.i8.endures.field fun status => ?_
  exact endures_decodeNullableCompactString.field fun assignor => Endures.pure _

theorem endures_decodeStreamsGroupDescription (version : Int) :
    Endures (Audit.decodeStreamsGroupDescription prim version)
      (decodeStreamsGroupDescription prim version) 0 := by
  refine hprim.i16.endures.field fun errorCode => ?_
  refine endures_decodeNullableCompactString.field fun errorMessage => ?_
  refine endures_decodeCompactString.field fun groupId => ?_
  refine endures_decodeCompactString.field fun groupState => ?_
  refine hprim.i32.endures.field fun groupEpoch => ?_
  refine hprim.i32.endures.field fun assignmentEpoch => ?_
  refine (endures_decodeStreamsTopology hprim).field fun topology => ?_
  have hmembers := endures_decodeCompactArray (endures_decodeStreamsMember hprim)
  refine hmembers.field fun members => ?_
  refine hprim.i32.endures.field fun authorizedOperations => ?_
  refine (endures_decodeStreamsDescriptionExtras hprim version).field fun extras => ?_
  exact endures_skipTaggedFields.field fun _ => Endures.pure _

end KafkaCli.Streams.Describe
