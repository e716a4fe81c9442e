import KafkaCli.Protocol.Audit
import KafkaCli.Quorum.Decode

/-!
# The state of the metadata quorum on hostile input

The audited versions of the decoders of `decode_quorum_response`, one for each of them. Room is
reserved for the replicas of a partition, by the count that stands in front of them; the other
arrays are collected as they come.
-/

namespace KafkaCli.Quorum

open Protocol Wire

namespace Audit

open Wire.Audited Protocol.Audit

/-- `decode_kafka_uuid`. -/
def decodeKafkaUuid : Wire.Audited Fault String := do
  let bytes ← takeBytes 16 (malformed "truncated Kafka UUID")
  return Base64.encodeText bytes

/-- The directory of a replica. -/
def decodeDirectoryId (version : Int) : Wire.Audited Fault String :=
  if version ≥ 2 then decodeKafkaUuid else return zeroTopicId

/-- When a replica fetched last, and when it had caught up last. -/
def decodeTimestamps (version : Int) : Wire.Audited Fault (Option Int64 × Option Int64) :=
  if version ≥ 1 then do
    ofDecoder (require 16 (malformed "truncated quorum replica timestamps"))
    let fetch ← read 8 getI64
    let caughtUp ← read 8 getI64
    return (knownTime fetch, knownTime caughtUp)
  else return (none, none)

/-- One replica of `decode_quorum_replicas`. -/
def decodeQuorumReplica (version : Int) : Wire.Audited Fault QuorumReplica := do
  ofDecoder (require 4 (malformed "truncated quorum replica"))
  let nodeId ← read 4 getI32
  let directoryId ← decodeDirectoryId version
  ofDecoder (require 8 (malformed "truncated quorum replica offset"))
  let logEndOffset ← read 8 getI64
  let (lastFetchTimestamp, lastCaughtUpTimestamp) ← decodeTimestamps version
  skipTaggedFields
  return { nodeId, directoryId, logEndOffset, lastFetchTimestamp, lastCaughtUpTimestamp }

/-- `decode_quorum_replicas`. -/
def decodeQuorumReplicas (version : Int) : Wire.Audited Fault (List QuorumReplica) :=
  decodeReservedArray (decodeQuorumReplica version)

/-- The message that comes with an error code. -/
def decodeErrorMessage (version : Int) : Wire.Audited Fault (Option String) :=
  if version ≥ 2 then decodeNullableCompactString else return none

/-- One partition of a topic, given the description found so far. -/
def decodeQuorumPartition (version : Int) (topic : String)
    (description : Option QuorumDescription) : Wire.Audited Fault (Option QuorumDescription) := do
  ofDecoder (require 6 (malformed "truncated quorum partition"))
  let partition ← read 4 getI32
  let errorCode ← read 2 getI16
  let errorMessage ← decodeErrorMessage version
  ofDecoder (checkErrorCode errorCode errorMessage
    s!"DescribeQuorum failed for {topic}-{partition}: error code {errorCode}")
  ofDecoder (require 16 (malformed "truncated quorum partition state"))
  let leaderId ← read 4 getI32
  let leaderEpoch ← read 4 getI32
  let highWatermark ← read 8 getI64
  let voters ← decodeQuorumReplicas version
  let observers ← decodeQuorumReplicas version
  skipTaggedFields
  return if IsMetadata topic partition then
    some { leaderId, leaderEpoch, highWatermark, voters, observers, nodes := [] }
  else description

/-- One topic of the response. -/
def decodeQuorumTopic (version : Int) (description : Option QuorumDescription) :
    Wire.Audited Fault (Option QuorumDescription) := do
  let topic ← decodeCompactString
  let count ← decodeCompactLen
  let description ← loop count (decodeQuorumPartition version topic) description
  skipTaggedFields
  return description

/-- One listener of a node, as an endpoint. -/
def decodeQuorumListener : Wire.Audited Fault String := do
  let name ← decodeCompactString
  let host ← decodeCompactString
  ofDecoder (require 2 (malformed "truncated quorum listener port"))
  let port ← read 2 getU16
  skipTaggedFields
  let host := bracketed host
  return s!"{name}://{host}:{port}"

/-- One node with its endpoints. -/
def decodeQuorumNode : Wire.Audited Fault QuorumNode := do
  ofDecoder (require 4 (malformed "truncated quorum node"))
  let nodeId ← read 4 getI32
  let endpoints ← decodeCompactArray decodeQuorumListener
  skipTaggedFields
  return { nodeId, endpoints }

/-- The nodes, which came with version 2. -/
def decodeQuorumNodes (version : Int) : Wire.Audited Fault (List QuorumNode) :=
  if version ≥ 2 then decodeCompactArray decodeQuorumNode else return []

/-- `decode_quorum_response`. -/
def decodeQuorum (version : Int) : Wire.Audited Fault QuorumDescription := do
  ofDecoder (require 2 (malformed "truncated DescribeQuorum response"))
  let topError ← read 2 getI16
  let topMessage ← decodeErrorMessage version
  ofDecoder (checkErrorCode topError topMessage
    s!"DescribeQuorum failed with error code {topError}")
  let topicCount ← decodeCompactLen
  let description ← loop topicCount (decodeQuorumTopic version) none
  let nodes ← decodeQuorumNodes version
  skipTaggedFields
  match description with
  | some description => return { description with nodes }
  | none => fail (malformed "metadata quorum partition was not returned")

end Audit

/-! ## What they endure -/

theorem endures_decodeKafkaUuid : Endures Audit.decodeKafkaUuid decodeKafkaUuid 0 :=
  (endures_takeBytes 16 "truncated Kafka UUID").map

theorem endures_decodeDirectoryId (version : Int) :
    Endures (Audit.decodeDirectoryId version) (decodeDirectoryId version) 0 :=
  .ite endures_decodeKafkaUuid (.pure zeroTopicId)

theorem endures_decodeTimestamps (version : Int) :
    Endures (Audit.decodeTimestamps version) (decodeTimestamps version) 0 := by
  refine .ite ?_ (.pure (none, none))
  refine .require "truncated quorum replica timestamps" ?_
  refine Endures.read takes_getI64 (by decide) (by decide) fun fetch => ?_
  refine Endures.read takes_getI64 (by decide) (by decide) fun caughtUp => ?_
  exact Endures.pure _

theorem endures_decodeQuorumReplica (version : Int) :
    Endures (Audit.decodeQuorumReplica version) (decodeQuorumReplica version) 1 := by
  refine .require "truncated quorum replica" ?_
  refine Endures.read takes_getI32 (by decide) (by decide) fun nodeId => ?_
  refine (endures_decodeDirectoryId version).field fun directoryId => ?_
  refine .require "truncated quorum replica offset" ?_
  refine Endures.read takes_getI64 (by decide) (by decide) fun logEndOffset => ?_
  refine (endures_decodeTimestamps version).field fun timestamps => ?_
  exact endures_skipTaggedFields.field fun _ => Endures.pure _

theorem endures_decodeQuorumReplicas (version : Int) :
    Endures (Audit.decodeQuorumReplicas version) (decodeQuorumReplicas version) 1 :=
  endures_decodeReservedArray (endures_decodeQuorumReplica version)

theorem endures_decodeErrorMessage (version : Int) :
    Endures (Audit.decodeErrorMessage version) (decodeErrorMessage version) 0 :=
  .ite (endures_decodeNullableCompactString.weaken (Nat.zero_le 1)) (.pure none)

theorem endures_checkErrorCode (errorCode : Int16) (errorMessage : Option String)
    (fallback : String) :
    Endures (Audited.ofDecoder (checkErrorCode errorCode errorMessage fallback))
      (checkErrorCode errorCode errorMessage fallback) 0 := by
  unfold checkErrorCode
  by_cases hcode : errorCode ≠ 0
  · rw [if_pos hcode]
    exact Endures.fail _
  · rw [if_neg hcode]
    exact Endures.pure ()

theorem endures_decodeQuorumPartition (version : Int) (topic : String)
    (description : Option QuorumDescription) :
    Endures (Audit.decodeQuorumPartition version topic description)
      (decodeQuorumPartition version topic description) 1 := by
  refine .require "truncated quorum partition" ?_
  refine Endures.read takes_getI32 (by decide) (by decide) fun partition => ?_
  refine Endures.read takes_getI16 (by decide) (by decide) fun errorCode => ?_
  refine (endures_decodeErrorMessage version).field fun errorMessage => ?_
  refine (endures_checkErrorCode errorCode errorMessage _).field fun _ => ?_
  refine .require "truncated quorum partition state" ?_
  refine Endures.read takes_getI32 (by decide) (by decide) fun leaderId => ?_
  refine Endures.read takes_getI32 (by decide) (by decide) fun leaderEpoch => ?_
  refine Endures.read takes_getI64 (by decide) (by decide) fun highWatermark => ?_
  refine (endures_decodeQuorumReplicas version).field fun voters => ?_
  refine (endures_decodeQuorumReplicas version).field fun observers => ?_
  exact endures_skipTaggedFields.field fun _ => Endures.pure _

theorem endures_decodeQuorumTopic (version : Int) (description : Option QuorumDescription) :
    Endures (Audit.decodeQuorumTopic version description) (decodeQuorumTopic version description)
      1 := by
  refine endures_decodeCompactString.first fun topic => ?_
  refine endures_decodeCompactLen.field fun count => ?_
  have hpartitions := Audits.loop (endures_decodeQuorumPartition version topic) count description
  refine Endures.field hpartitions fun description => ?_
  exact endures_skipTaggedFields.field fun _ => .pure description

theorem endures_decodeQuorumListener :
    Endures Audit.decodeQuorumListener decodeQuorumListener 1 := by
  refine endures_decodeCompactString.first fun name => ?_
  refine endures_decodeCompactString.field fun host => ?_
  refine .require "truncated quorum listener port" ?_
  refine Endures.read takes_getU16 (by decide) (by decide) fun port => ?_
  exact endures_skipTaggedFields.field fun _ => Endures.pure _

theorem endures_decodeQuorumNode : Endures Audit.decodeQuorumNode decodeQuorumNode 1 := by
  refine .require "truncated quorum node" ?_
  refine Endures.read takes_getI32 (by decide) (by decide) fun nodeId => ?_
  refine (endures_decodeCompactArray endures_decodeQuorumListener).field fun endpoints => ?_
  exact endures_skipTaggedFields.field fun _ => Endures.pure _

theorem endures_decodeQuorumNodes (version : Int) :
    Endures (Audit.decodeQuorumNodes version) (decodeQuorumNodes version) 0 := by
  have hnodes := endures_decodeCompactArray endures_decodeQuorumNode
  exact .ite (hnodes.weaken (Nat.zero_le 1)) (.pure [])

theorem endures_decodeQuorum (version : Int) :
    Endures (Audit.decodeQuorum version) (decodeQuorum version) 0 := by
  refine .require "truncated DescribeQuorum response" ?_
  refine Endures.read takes_getI16 (by decide) (by decide) fun topError => ?_
  refine (endures_decodeErrorMessage version).field fun topMessage => ?_
  refine (endures_checkErrorCode topError topMessage _).field fun _ => ?_
  refine endures_decodeCompactLen.field fun topicCount => ?_
  have htopics := Audits.loop (endures_decodeQuorumTopic version) topicCount none
  refine Endures.field htopics fun description => ?_
  refine (endures_decodeQuorumNodes version).field fun nodes => ?_
  refine endures_skipTaggedFields.field fun _ => ?_
  cases description with
  | some description => exact Endures.pure _
  | none => exact Endures.fail _

end KafkaCli.Quorum
