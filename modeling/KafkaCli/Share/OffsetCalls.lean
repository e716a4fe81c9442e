import KafkaCli.Lib.Multimap
import KafkaCli.Share.Reset
import KafkaCli.Streams.Describe
import Mathlib.Data.List.ReduceOption

/-!
# The requests for the offsets of a share group

The raw requests `DescribeShareGroupOffsets` (90), `AlterShareGroupOffsets` (91) and
`DeleteShareGroupOffsets` (92), as their functions write them, and what these make of the payload
of the response. The payload starts with the tagged fields of the header.
-/

namespace KafkaCli.Share

open Groups (ResetOffsetRow)
open Protocol Wire
open Streams.Describe (Primitives)
open Text

/-! ## The requests -/

def encodeDescribeShareGroupOffsets (groupId : String) : Writer PUnit := do
  -- the header of an unknown key is written without its tagged fields
  putU8 0
  put (encodeUnsignedVarint 2)
  put (encodeCompactText groupId)
  putU8 0 -- nullable compact topics: null means all partitions
  putU8 0 -- group tagged fields
  putU8 0 -- top-level tagged fields

/-- The rows of each topic. -/
def rowsByTopic (rows : List ResetOffsetRow) : Std.TreeMap String (List ResetOffsetRow) :=
  rows.foldl (fun topics row => Multimap.push topics row.topic row) ∅

/-- A partition of the closure of `alter_share_group_offsets`. -/
def putOffset (row : ResetOffsetRow) : Writer PUnit := do
  putI32 row.partition
  putI64 row.newOffset
  putU8 0

/-- A topic of the closure of `alter_share_group_offsets`. -/
def putTopicOffsets (topic : String × List ResetOffsetRow) : Writer PUnit := do
  put (encodeCompactText topic.1)
  put (encodeUnsignedVarint (topic.2.length + 1))
  forM topic.2 putOffset
  putU8 0

def encodeAlterShareGroupOffsets (groupId : String) (rows : List ResetOffsetRow) :
    Writer PUnit := do
  putU8 0 -- flexible request-header tagged fields
  put (encodeCompactText groupId)
  put (encodeUnsignedVarint ((rowsByTopic rows).toList.length + 1))
  forM (rowsByTopic rows).toList putTopicOffsets
  putU8 0

/-- The topics whose offsets are to be deleted. -/
def topicsToDelete (topics : List String) : Std.TreeSet String :=
  .ofList ((topics.map trim).filter (· ≠ ""))

/-- A topic of the closure of `delete_share_group_offsets`. -/
def putTopic (topic : String) : Writer PUnit := do
  put (encodeCompactText topic)
  putU8 0

def encodeDeleteShareGroupOffsets (groupId : String) (topics : List String) : Writer PUnit := do
  putU8 0 -- flexible request-header tagged fields
  put (encodeCompactText groupId)
  put (encodeUnsignedVarint ((topicsToDelete topics).toList.length + 1))
  forM (topicsToDelete topics).toList putTopic
  putU8 0

/-! ## The responses -/

variable (prim : Primitives)

/-- The text of an error. -/
def errorText (errorCode : Int16) (errorMessage : Option String) : String :=
  errorMessage.getD s!"Kafka error {errorCode}"

/-- A number, unless it is negative. -/
def nonNegative (x : Int) : Option Int := if x ≥ 0 then some x else none

/-- The lag, which version 0 does not tell. -/
def decodeLag (version : Int) : Decoder Int64 := if version ≥ 1 then prim.i64 else pure (-1)

/-- A partition of the response to `DescribeShareGroupOffsets`. -/
def decodeOffsetRow (version : Int) (group topic : String) : Decoder ShareGroupOffsetRow := do
  let partition ← prim.i32
  let startOffset ← prim.i64
  let leaderEpoch ← prim.i32
  let lag ← decodeLag prim version
  let errorCode ← prim.i16
  let errorMessage ← decodeNullableCompactString
  skipTaggedFields
  return { group, topic
           partition := partition.toInt
           leaderEpoch := nonNegative leaderEpoch.toInt
           startOffset := nonNegative startOffset.toInt
           lag := nonNegative lag.toInt
           error := if errorCode ≠ 0 then some (errorText errorCode errorMessage) else none }

/-- A topic of the response to `DescribeShareGroupOffsets`. -/
def decodeOffsetTopic (version : Int) (group : String) : Decoder (List ShareGroupOffsetRow) := do
  let topic ← decodeCompactString
  let _topicId ← takeBytes 16
    (malformed "DescribeShareGroupOffsets response omitted topic ID bytes")
  let rows ← decodeCompactArray (decodeOffsetRow prim version group topic)
  skipTaggedFields
  return rows

/-- A result, unless a request failed for a group. -/
def unlessFailed {α : Type} (api group : String) (errorCode : Int16) (errorMessage : Option String)
    (result : α) : Except Fault α :=
  let text := errorText errorCode errorMessage
  if errorCode ≠ 0 then .error (malformed s!"{api} failed for {group}: {text}") else .ok result

/-- A group of the response to `DescribeShareGroupOffsets`. -/
def decodeOffsetGroup (version : Int) : Decoder (List ShareGroupOffsetRow) := do
  let group ← decodeCompactString
  let topics ← decodeCompactArray (decodeOffsetTopic prim version group)
  let errorCode ← prim.i16
  let errorMessage ← decodeNullableCompactString
  skipTaggedFields
  liftExcept (unlessFailed "DescribeShareGroupOffsets" group errorCode errorMessage topics.flatten)

/-- `describe_share_group_offsets` for a group, from the payload of the response on. -/
def readDescribeShareGroupOffsets (version : Int) : Decoder (List ShareGroupOffsetRow) := do
  skipTaggedFields
  let _throttleTimeMs ← prim.i32
  let groups ← decodeCompactArray (decodeOffsetGroup prim version)
  skipTaggedFields
  return groups.flatten

/-- A partition of the response to `AlterShareGroupOffsets`: its error, if any. -/
def decodeAlteredPartition (groupId topic : String) : Decoder (Option String) := do
  let partition ← prim.i32
  let errorCode ← prim.i16
  let errorMessage ← decodeNullableCompactString
  skipTaggedFields
  let text := errorText errorCode errorMessage
  return if errorCode ≠ 0 then some s!"{groupId}:{topic}:{partition}: {text}" else none

/-- A topic of the response to `AlterShareGroupOffsets`: the errors of its partitions. -/
def decodeAlteredTopic (groupId : String) : Decoder (List String) := do
  let topic ← decodeCompactString
  let _topicId ← takeBytes 16 (malformed "AlterShareGroupOffsets response omitted topic ID bytes")
  let errors ← decodeCompactArray (decodeAlteredPartition prim groupId topic)
  skipTaggedFields
  return errors.reduceOption

/-- The response of a request that changes offsets, with what is made of each of its topics. -/
def readChangedOffsets {α β : Type} (api groupId : String) (decodeTopic : Decoder α)
    (collect : List α → β) : Decoder β := do
  skipTaggedFields
  let _throttleTimeMs ← prim.i32
  let topError ← prim.i16
  let topMessage ← decodeNullableCompactString
  let topics ← decodeCompactArray decodeTopic
  skipTaggedFields
  liftExcept (unlessFailed api groupId topError topMessage (collect topics))

/-- `alter_share_group_offsets`, from the payload of the response on. -/
def readAlterShareGroupOffsets (groupId : String) : Decoder (List String) :=
  readChangedOffsets prim "AlterShareGroupOffsets" groupId (decodeAlteredTopic prim groupId)
    List.flatten

structure ShareGroupTopicMutationRow where
  group : String
  topic : String
  status : String
  error : Option String
  deriving DecidableEq

/-- A topic of the response to `DeleteShareGroupOffsets`. -/
def decodeDeletedTopic (groupId : String) : Decoder ShareGroupTopicMutationRow := do
  let topic ← decodeCompactString
  let _topicId ← takeBytes 16
    (malformed "DeleteShareGroupOffsets response omitted topic ID bytes")
  let errorCode ← prim.i16
  let errorMessage ← decodeNullableCompactString
  skipTaggedFields
  return { group := groupId, topic
           status := if errorCode = 0 then "DELETED" else "FAILED"
           error := if errorCode ≠ 0 then some (errorText errorCode errorMessage) else none }

/-- `delete_share_group_offsets`, from the payload of the response on to the rows. -/
def readDeleteShareGroupOffsets (groupId : String) : Decoder (List ShareGroupTopicMutationRow) :=
  readChangedOffsets prim "DeleteShareGroupOffsets" groupId (decodeDeletedTopic prim groupId) id

end KafkaCli.Share
