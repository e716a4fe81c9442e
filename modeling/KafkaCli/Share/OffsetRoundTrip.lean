import KafkaCli.Share.OffsetCalls

/-!
# The offsets of a share group are written and read as the schema has them

The schema of the requests and the responses of `DescribeShareGroupOffsets`,
`AlterShareGroupOffsets` and `DeleteShareGroupOffsets`, and what is to be reported of a response.

The closures write the tagged fields of the header and then the body (`writes_describeOffsets` and
the like). The readers pass over the tagged fields of the header, whatever they are, and report the
body (`yields_describeOffsets` and the like).
-/

namespace KafkaCli.Share

open Groups (ResetOffsetRow)
open Protocol Wire
open Streams.Describe (Primitives)

/-! ## The schema -/

namespace Schema

/-- The body of `DescribeShareGroupOffsets`, for all the topics of one group. -/
def describeOffsets (groupId : String) : List UInt8 :=
  List.flatten [encodeItems (fun groupId => List.flatten [encodeCompactText groupId,
    encodeNullableCompactString none, encodeTaggedFields noTaggedFields]) [groupId],
    encodeTaggedFields noTaggedFields]

def newOffset (row : ResetOffsetRow) : List UInt8 :=
  List.flatten [intBe 4 row.partition, intBe 8 row.newOffset, encodeTaggedFields noTaggedFields]

def newTopicOffsets (topic : String × List ResetOffsetRow) : List UInt8 :=
  List.flatten [encodeCompactText topic.1, encodeItems newOffset topic.2,
    encodeTaggedFields noTaggedFields]

/-- The body of `AlterShareGroupOffsets`. -/
def alterOffsets (groupId : String) (rows : List ResetOffsetRow) : List UInt8 :=
  List.flatten [encodeCompactText groupId, encodeItems newTopicOffsets (rowsByTopic rows).toList,
    encodeTaggedFields noTaggedFields]

def deletedTopic (topic : String) : List UInt8 :=
  List.flatten [encodeCompactText topic, encodeTaggedFields noTaggedFields]

/-- The body of `DeleteShareGroupOffsets`. -/
def deleteOffsets (groupId : String) (topics : List String) : List UInt8 :=
  List.flatten [encodeCompactText groupId, encodeItems deletedTopic (topicsToDelete topics).toList,
    encodeTaggedFields noTaggedFields]

/-- The id of a topic. -/
structure TopicId where
  bytes : List UInt8
  length : bytes.length = 16

structure OffsetRow where
  partition : Int32
  startOffset : Int64
  leaderEpoch : Int32
  lag : Int64
  errorCode : Int16
  errorMessage : Option CompactString
  tags : TaggedFields

structure OffsetTopic where
  name : CompactString
  topicId : TopicId
  partitions : CompactArray OffsetRow
  tags : TaggedFields

structure OffsetGroup where
  groupId : CompactString
  topics : CompactArray OffsetTopic
  errorCode : Int16
  errorMessage : Option CompactString
  tags : TaggedFields

/-- The body of the response to `DescribeShareGroupOffsets`. -/
structure DescribedOffsets where
  throttleTimeMs : Int32
  groups : CompactArray OffsetGroup
  tags : TaggedFields

structure AlteredPartition where
  partition : Int32
  errorCode : Int16
  errorMessage : Option CompactString
  tags : TaggedFields

structure AlteredTopic where
  name : CompactString
  topicId : TopicId
  partitions : CompactArray AlteredPartition
  tags : TaggedFields

structure DeletedTopic where
  name : CompactString
  topicId : TopicId
  errorCode : Int16
  errorMessage : Option CompactString
  tags : TaggedFields

/-- The body of the responses to `AlterShareGroupOffsets` and `DeleteShareGroupOffsets`, which have
different topics. -/
structure ChangedOffsets (Topic : Type) where
  throttleTimeMs : Int32
  errorCode : Int16
  errorMessage : Option CompactString
  topics : CompactArray Topic
  tags : TaggedFields

/-! ## The encoder -/

/-- The lag was added by version 1. -/
def OffsetRow.encode (version : Int) (row : OffsetRow) : List UInt8 :=
  List.flatten [be32 row.partition, be64 row.startOffset, be32 row.leaderEpoch,
    if version ≥ 1 then be64 row.lag else [], be16 row.errorCode,
    encodeNullableCompactString row.errorMessage, encodeTaggedFields row.tags]

def OffsetTopic.encode (version : Int) (topic : OffsetTopic) : List UInt8 :=
  List.flatten [encodeCompactString topic.name, topic.topicId.bytes,
    encodeCompactArray (OffsetRow.encode version) topic.partitions, encodeTaggedFields topic.tags]

def OffsetGroup.encode (version : Int) (group : OffsetGroup) : List UInt8 :=
  List.flatten [encodeCompactString group.groupId,
    encodeCompactArray (OffsetTopic.encode version) group.topics, be16 group.errorCode,
    encodeNullableCompactString group.errorMessage, encodeTaggedFields group.tags]

def DescribedOffsets.encode (version : Int) (response : DescribedOffsets) : List UInt8 :=
  List.flatten [be32 response.throttleTimeMs,
    encodeCompactArray (OffsetGroup.encode version) response.groups,
    encodeTaggedFields response.tags]

def AlteredPartition.encode (partition : AlteredPartition) : List UInt8 :=
  List.flatten [be32 partition.partition, be16 partition.errorCode,
    encodeNullableCompactString partition.errorMessage, encodeTaggedFields partition.tags]

def AlteredTopic.encode (topic : AlteredTopic) : List UInt8 :=
  List.flatten [encodeCompactString topic.name, topic.topicId.bytes,
    encodeCompactArray AlteredPartition.encode topic.partitions, encodeTaggedFields topic.tags]

def DeletedTopic.encode (topic : DeletedTopic) : List UInt8 :=
  List.flatten [encodeCompactString topic.name, topic.topicId.bytes, be16 topic.errorCode,
    encodeNullableCompactString topic.errorMessage, encodeTaggedFields topic.tags]

def ChangedOffsets.encode {Topic : Type} (encodeTopic : Topic → List UInt8)
    (response : ChangedOffsets Topic) : List UInt8 :=
  List.flatten [be32 response.throttleTimeMs, be16 response.errorCode,
    encodeNullableCompactString response.errorMessage,
    encodeCompactArray encodeTopic response.topics, encodeTaggedFields response.tags]

/-! ## What is to be reported -/

def errorOf (errorCode : Int16) (errorMessage : Option CompactString) : Option String :=
  if errorCode ≠ 0 then some (errorText errorCode (errorMessage.map CompactString.text)) else none

def OffsetRow.report (version : Int) (group topic : String) (row : OffsetRow) :
    ShareGroupOffsetRow where
  group := group
  topic := topic
  partition := row.partition.toInt
  leaderEpoch := nonNegative row.leaderEpoch.toInt
  startOffset := nonNegative row.startOffset.toInt
  lag := if version ≥ 1 then nonNegative row.lag.toInt else none
  error := errorOf row.errorCode row.errorMessage

def OffsetTopic.report (version : Int) (group : String) (topic : OffsetTopic) :
    List ShareGroupOffsetRow :=
  topic.partitions.items.map (OffsetRow.report version group topic.name.text)

def OffsetGroup.report (version : Int) (group : OffsetGroup) :
    Except Fault (List ShareGroupOffsetRow) :=
  unlessFailed "DescribeShareGroupOffsets" group.groupId.text group.errorCode
    (group.errorMessage.map CompactString.text)
    (group.topics.items.flatMap (OffsetTopic.report version group.groupId.text))

/-- The error of the first group that has one, or the rows of all of them. -/
def DescribedOffsets.report (version : Int) (response : DescribedOffsets) :
    Except Fault (List ShareGroupOffsetRow) := do
  let groups ← response.groups.items.mapM (OffsetGroup.report version)
  return groups.flatten

def AlteredPartition.report (groupId topic : String) (partition : AlteredPartition) :
    Option String :=
  let index := partition.partition
  (errorOf partition.errorCode partition.errorMessage).map fun text =>
    s!"{groupId}:{topic}:{index}: {text}"

def AlteredTopic.report (groupId : String) (topic : AlteredTopic) : List String :=
  topic.partitions.items.filterMap (AlteredPartition.report groupId topic.name.text)

def DeletedTopic.report (groupId : String) (topic : DeletedTopic) : ShareGroupTopicMutationRow where
  group := groupId
  topic := topic.name.text
  status := if topic.errorCode = 0 then "DELETED" else "FAILED"
  error := errorOf topic.errorCode topic.errorMessage

/-- The error of the request, or what is made of its topics. -/
def ChangedOffsets.report {Topic α : Type} (api groupId : String) (reportTopics : List Topic → α)
    (response : ChangedOffsets Topic) : Except Fault α :=
  unlessFailed api groupId response.errorCode (response.errorMessage.map CompactString.text)
    (reportTopics response.topics.items)

end Schema

open Schema

/-! ## What the closures write -/

theorem writes_describeOffsets (groupId : String) : Writes (encodeDescribeShareGroupOffsets groupId)
    (encodeTaggedFields noTaggedFields ++ describeOffsets groupId) := by
  have hbody : describeOffsets groupId = List.flatten [encodeUnsignedVarint 2,
      encodeCompactText groupId, [0], [0], [0]] := by
    simp [describeOffsets, encodeItems, encodeNullableCompactString, encode_noTaggedFields]
  rw [encode_noTaggedFields, hbody]
  refine (writes_put _).bind ?_
  apply Writes.field (writes_put _)
  apply Writes.field (writes_put _)
  apply Writes.field (writes_put _)
  apply Writes.field (writes_put _)
  exact (writes_put _).last

theorem writes_putOffset (row : ResetOffsetRow) : Writes (putOffset row) (newOffset row) := by
  rw [newOffset, encode_noTaggedFields]
  apply Writes.field (writes_put _)
  apply Writes.field (writes_put _)
  exact (writes_put _).last

theorem writes_putTopicOffsets (topic : String × List ResetOffsetRow) :
    Writes (putTopicOffsets topic) (newTopicOffsets topic) := by
  rw [newTopicOffsets, encode_noTaggedFields]
  apply Writes.field (writes_put _)
  apply writes_items fun row _ => writes_putOffset row
  exact (writes_put _).last

theorem writes_alterOffsets (groupId : String) (rows : List ResetOffsetRow) :
    Writes (encodeAlterShareGroupOffsets groupId rows)
      (encodeTaggedFields noTaggedFields ++ alterOffsets groupId rows) := by
  rw [alterOffsets, encode_noTaggedFields]
  refine (writes_put _).bind ?_
  apply Writes.field (writes_put _)
  apply writes_items fun topic _ => writes_putTopicOffsets topic
  exact (writes_put _).last

theorem writes_putTopic (topic : String) : Writes (putTopic topic) (deletedTopic topic) := by
  rw [deletedTopic, encode_noTaggedFields]
  apply Writes.field (writes_put _)
  exact (writes_put _).last

theorem writes_deleteOffsets (groupId : String) (topics : List String) :
    Writes (encodeDeleteShareGroupOffsets groupId topics)
      (encodeTaggedFields noTaggedFields ++ deleteOffsets groupId topics) := by
  rw [deleteOffsets, encode_noTaggedFields]
  refine (writes_put _).bind ?_
  apply Writes.field (writes_put _)
  apply writes_items fun topic _ => writes_putTopic topic
  exact (writes_put _).last

/-! ## What the readers report -/

variable (prim : Primitives)

theorem reads_offsetRow (version : Int) (group topic : String) (row : OffsetRow) :
    Reads (decodeOffsetRow prim version group topic) (row.encode version)
      (row.report version group topic) := by
  have hlag : Reads (decodeLag prim version) (if version ≥ 1 then be64 row.lag else [])
      (if version ≥ 1 then row.lag else -1) := by
    rw [decodeLag]
    split_ifs
    · exact prim.reads_i64 row.lag
    · exact .pure
  have hreport : nonNegative (if version ≥ 1 then row.lag else -1).toInt =
      if version ≥ 1 then nonNegative row.lag.toInt else none := by
    split_ifs <;> rfl
  apply Reads.field (prim.reads_i32 row.partition)
  apply Reads.field (prim.reads_i64 row.startOffset)
  apply Reads.field (prim.reads_i32 row.leaderEpoch)
  apply Reads.field hlag
  apply Reads.field (prim.reads_i16 row.errorCode)
  apply Reads.field (reads_nullableCompactString row.errorMessage)
  apply Reads.field (reads_skipTaggedFields row.tags)
  rw [hreport]
  exact .pure

theorem reads_offsetTopic (version : Int) (group : String) (topic : OffsetTopic) :
    Reads (decodeOffsetTopic prim version group) (topic.encode version)
      (topic.report version group) := by
  apply Reads.field (reads_compactString topic.name)
  apply Reads.field (reads_takeBytes topic.topicId.length)
  apply Reads.field (reads_compactArray fun row _ =>
    reads_offsetRow prim version group topic.name.text row)
  apply Reads.field (reads_skipTaggedFields topic.tags)
  exact .pure

theorem yields_offsetGroup (version : Int) (group : OffsetGroup) :
    Yields (decodeOffsetGroup prim version) (group.encode version) (group.report version) := by
  apply Yields.field (reads_compactString group.groupId)
  apply Yields.field (reads_compactArray fun topic _ =>
    reads_offsetTopic prim version group.groupId.text topic)
  apply Yields.field (prim.reads_i16 group.errorCode)
  apply Yields.field (reads_nullableCompactString group.errorMessage)
  apply Yields.field (reads_skipTaggedFields group.tags)
  rw [OffsetGroup.report, List.flatMap_def]
  exact yields_liftExcept _

theorem yields_describeOffsets (version : Int) (header : TaggedFields)
    (response : DescribedOffsets) :
    Yields (readDescribeShareGroupOffsets prim version)
      (encodeTaggedFields header ++ response.encode version) (response.report version) := by
  have hgroups := yields_compactArray fun group (_ : group ∈ response.groups.items) =>
    yields_offsetGroup prim version group
  apply Yields.after (reads_skipTaggedFields header)
  apply Yields.field (prim.reads_i32 response.throttleTimeMs)
  refine hgroups.bind fun groups _ => ?_
  apply Yields.field (reads_skipTaggedFields response.tags)
  exact .pure

theorem reads_alteredPartition (groupId topic : String) (partition : AlteredPartition) :
    Reads (decodeAlteredPartition prim groupId topic) partition.encode
      (partition.report groupId topic) := by
  apply Reads.field (prim.reads_i32 partition.partition)
  apply Reads.field (prim.reads_i16 partition.errorCode)
  apply Reads.field (reads_nullableCompactString partition.errorMessage)
  apply Reads.field (reads_skipTaggedFields partition.tags)
  rw [AlteredPartition.report, errorOf, Option.map_if]
  exact .pure

theorem reads_alteredTopic (groupId : String) (topic : AlteredTopic) :
    Reads (decodeAlteredTopic prim groupId) topic.encode (topic.report groupId) := by
  apply Reads.field (reads_compactString topic.name)
  apply Reads.field (reads_takeBytes topic.topicId.length)
  apply Reads.field (reads_compactArray fun partition _ =>
    reads_alteredPartition prim groupId topic.name.text partition)
  apply Reads.field (reads_skipTaggedFields topic.tags)
  rw [AlteredTopic.report, List.reduceOption, List.filterMap_map, Function.id_comp]
  exact .pure

theorem reads_deletedTopic (groupId : String) (topic : DeletedTopic) :
    Reads (decodeDeletedTopic prim groupId) topic.encode (topic.report groupId) := by
  apply Reads.field (reads_compactString topic.name)
  apply Reads.field (reads_takeBytes topic.topicId.length)
  apply Reads.field (prim.reads_i16 topic.errorCode)
  apply Reads.field (reads_nullableCompactString topic.errorMessage)
  apply Reads.field (reads_skipTaggedFields topic.tags)
  exact .pure

/-- A response to a request that changes offsets, with any kind of topics. -/
theorem yields_changedOffsets {Topic α β : Type} {decodeTopic : Decoder α}
    {encodeTopic : Topic → List UInt8} {keep : Topic → α} (api groupId : String)
    (collect : List α → β) (header : TaggedFields) (response : ChangedOffsets Topic)
    (h : ∀ topic, Reads decodeTopic (encodeTopic topic) (keep topic)) :
    Yields (readChangedOffsets prim api groupId decodeTopic collect)
      (encodeTaggedFields header ++ response.encode encodeTopic)
      (response.report api groupId fun topics => collect (topics.map keep)) := by
  apply Yields.after (reads_skipTaggedFields header)
  apply Yields.field (prim.reads_i32 response.throttleTimeMs)
  apply Yields.field (prim.reads_i16 response.errorCode)
  apply Yields.field (reads_nullableCompactString response.errorMessage)
  apply Yields.field (reads_compactArray fun topic _ => h topic)
  apply Yields.field (reads_skipTaggedFields response.tags)
  exact yields_liftExcept _

theorem yields_alterOffsets (groupId : String) (header : TaggedFields)
    (response : ChangedOffsets AlteredTopic) :
    Yields (readAlterShareGroupOffsets prim groupId)
      (encodeTaggedFields header ++ response.encode AlteredTopic.encode)
      (response.report "AlterShareGroupOffsets" groupId
        (List.flatMap (AlteredTopic.report groupId))) :=
  yields_changedOffsets prim _ groupId List.flatten header response
    (reads_alteredTopic prim groupId)

theorem yields_deleteOffsets (groupId : String) (header : TaggedFields)
    (response : ChangedOffsets DeletedTopic) :
    Yields (readDeleteShareGroupOffsets prim groupId)
      (encodeTaggedFields header ++ response.encode DeletedTopic.encode)
      (response.report "DeleteShareGroupOffsets" groupId
        (List.map (DeletedTopic.report groupId))) :=
  yields_changedOffsets prim _ groupId id header response (reads_deletedTopic prim groupId)

end KafkaCli.Share
