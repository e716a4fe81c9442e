import KafkaCli.Lib.Base64
import KafkaCli.Protocol.Compact

/-!
# Decoding the state of the metadata quorum

`decode_quorum_response` walks all topics and partitions of a `DescribeQuorum` response and keeps
the one partition of the metadata log. The layout depends on the version: error messages,
directory ids and the node list came with version 2, timestamps with version 1.

The fixed-width reads panic on a short buffer; the length checks are there to prevent this.
-/

namespace KafkaCli.Quorum

open Protocol Wire

/-- The id of no topic and no directory. -/
def zeroTopicId : String := "AAAAAAAAAAAAAAAAAAAAAA"

structure QuorumReplica where
  nodeId : Int32
  directoryId : String
  logEndOffset : Int64
  lastFetchTimestamp : Option Int64
  lastCaughtUpTimestamp : Option Int64
  deriving DecidableEq, Repr

structure QuorumNode where
  nodeId : Int32
  endpoints : List String
  deriving DecidableEq, Repr

structure QuorumDescription where
  leaderId : Int32
  leaderEpoch : Int32
  highWatermark : Int64
  voters : List QuorumReplica
  observers : List QuorumReplica
  nodes : List QuorumNode
  deriving DecidableEq, Repr

/-! ## Replicas -/

/-- `decode_kafka_uuid`. -/
def decodeKafkaUuid : Decoder String :=
  Base64.encodeText <$> takeBytes 16 (malformed "truncated Kafka UUID")

/-- The directory of a replica. -/
def decodeDirectoryId (version : Int) : Decoder String :=
  if version ≥ 2 then decodeKafkaUuid else return zeroTopicId

/-- A time that is negative where it is not known. -/
def knownTime (timestamp : Int64) : Option Int64 := if timestamp ≥ 0 then some timestamp else none

/-- When a replica fetched last, and when it had caught up last. -/
def decodeTimestamps (version : Int) : Decoder (Option Int64 × Option Int64) :=
  if version ≥ 1 then do
    require 16 (malformed "truncated quorum replica timestamps")
    let fetch ← getI64
    let caughtUp ← getI64
    return (knownTime fetch, knownTime caughtUp)
  else return (none, none)

/-- One replica of `decode_quorum_replicas`. -/
def decodeQuorumReplica (version : Int) : Decoder QuorumReplica := do
  require 4 (malformed "truncated quorum replica")
  let nodeId ← getI32
  let directoryId ← decodeDirectoryId version
  require 8 (malformed "truncated quorum replica offset")
  let logEndOffset ← getI64
  let (lastFetchTimestamp, lastCaughtUpTimestamp) ← decodeTimestamps version
  skipTaggedFields
  return { nodeId, directoryId, logEndOffset, lastFetchTimestamp, lastCaughtUpTimestamp }

/-- `decode_quorum_replicas`. -/
def decodeQuorumReplicas (version : Int) : Decoder (List QuorumReplica) :=
  decodeCompactArray (decodeQuorumReplica version)

/-! ## Topics and partitions -/

/-- The message that comes with an error code. -/
def decodeErrorMessage (version : Int) : Decoder (Option String) :=
  if version ≥ 2 then decodeNullableCompactString else return none

/-- An error code that is not zero fails, with the message of the broker where it sent one. -/
def checkErrorCode (errorCode : Int16) (errorMessage : Option String) (fallback : String) :
    Decoder Unit :=
  if errorCode ≠ 0 then throw (malformed (errorMessage.getD fallback)) else return ()

/-- The partition that holds the metadata log. -/
def IsMetadata (topic : String) (partition : Int32) : Prop :=
  topic = "__cluster_metadata" ∧ partition = 0

instance (topic : String) (partition : Int32) : Decidable (IsMetadata topic partition) :=
  inferInstanceAs (Decidable (_ ∧ _))

/-- One partition of a topic, given the description found so far. -/
def decodeQuorumPartition (version : Int) (topic : String)
    (description : Option QuorumDescription) : Decoder (Option QuorumDescription) := do
  require 6 (malformed "truncated quorum partition")
  let partition ← getI32
  let errorCode ← getI16
  let errorMessage ← decodeErrorMessage version
  checkErrorCode errorCode errorMessage
    s!"DescribeQuorum failed for {topic}-{partition}: error code {errorCode}"
  require 16 (malformed "truncated quorum partition state")
  let leaderId ← getI32
  let leaderEpoch ← getI32
  let highWatermark ← getI64
  let voters ← decodeQuorumReplicas version
  let observers ← decodeQuorumReplicas version
  skipTaggedFields
  return if IsMetadata topic partition then
    some { leaderId, leaderEpoch, highWatermark, voters, observers, nodes := [] }
  else description

/-- One topic of the response. -/
def decodeQuorumTopic (version : Int) (description : Option QuorumDescription) :
    Decoder (Option QuorumDescription) := do
  let topic ← decodeCompactString
  let count ← decodeCompactLen
  let description ← loop count (decodeQuorumPartition version topic) description
  skipTaggedFields
  return description

/-! ## Nodes -/

/-- A host with a colon, as an IPv6 address has, stands in brackets. -/
def bracketed (host : String) : String :=
  if ':' ∈ host.toList then "[" ++ host ++ "]" else host

/-- One listener of a node, as an endpoint. -/
def decodeQuorumListener : Decoder String := do
  let name ← decodeCompactString
  let host ← decodeCompactString
  require 2 (malformed "truncated quorum listener port")
  let port ← getU16
  skipTaggedFields
  let host := bracketed host
  return s!"{name}://{host}:{port}"

/-- One node with its endpoints. -/
def decodeQuorumNode : Decoder QuorumNode := do
  require 4 (malformed "truncated quorum node")
  let nodeId ← getI32
  let endpoints ← decodeCompactArray decodeQuorumListener
  skipTaggedFields
  return { nodeId, endpoints }

/-- The nodes, which came with version 2. -/
def decodeQuorumNodes (version : Int) : Decoder (List QuorumNode) :=
  if version ≥ 2 then decodeCompactArray decodeQuorumNode else return []

/-! ## The response -/

/-- The response without what is done with the buffer afterwards. -/
def decodeQuorum (version : Int) : Decoder QuorumDescription := do
  require 2 (malformed "truncated DescribeQuorum response")
  let topError ← getI16
  let topMessage ← decodeErrorMessage version
  checkErrorCode topError topMessage s!"DescribeQuorum failed with error code {topError}"
  let topicCount ← decodeCompactLen
  let description ← loop topicCount (decodeQuorumTopic version) none
  let nodes ← decodeQuorumNodes version
  skipTaggedFields
  match description with
  | some description => return { description with nodes }
  | none => throw (malformed "metadata quorum partition was not returned")

/-- `decode_quorum_response`. -/
def decodeQuorumResponse (buffer : List UInt8) (version : Int) : Except Fault QuorumDescription :=
  (decodeQuorum version).run' buffer

end KafkaCli.Quorum
