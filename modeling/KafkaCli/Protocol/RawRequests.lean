import KafkaCli.Quorum.Voters
import KafkaCli.Share.OffsetRoundTrip
import KafkaCli.Streams.DescribeCall

/-!
# Raw requests complete their header by hand

A raw request has a key that the protocol client does not know. The client writes the header of the
request without its tagged fields, and leaves those of the response in the payload. So a call site
has to write an empty section before the body, and has to pass over a section before it reads the
body. Such a call is `Framed`.

**Theorem (`framed_iff`).** The calls for the groups are framed. The two calls that change the
voters of the quorum are not: they neither write a section nor pass over one.
-/

namespace KafkaCli.Protocol

open Groups (ResetOffsetRow)
open Quorum (ControllerEndpoint)
open Streams.Describe (Primitives StreamsGroupDescription)
open Wire

/-- A raw request, with what its call site is given. -/
inductive RawCall where
  | addRaftVoter (clusterId : String) (timeout : Nat) (controllerId : Int)
      (directoryId : List UInt8) (endpoints : List ControllerEndpoint) (version : Int)
  | removeRaftVoter (clusterId : String) (controllerId : Int) (directoryId : List UInt8)
  | streamsGroupDescribe (groupId : String) (version : Int) (includeTopologyDescription : Bool)
      (allowMissing : Bool)
  | describeShareGroupOffsets (groupId : String) (version : Int)
  | alterShareGroupOffsets (groupId : String) (rows : List ResetOffsetRow)
  | deleteShareGroupOffsets (groupId : String) (topics : List String)

namespace RawCall

def apiKey : RawCall → Nat
  | addRaftVoter .. => 80
  | removeRaftVoter .. => 81
  | streamsGroupDescribe .. => 89
  | describeShareGroupOffsets .. => 90
  | alterShareGroupOffsets .. => 91
  | deleteShareGroupOffsets .. => 92

/-! ## The request -/

/-- The closure that writes the request. -/
def encode : RawCall → Writer PUnit
  | addRaftVoter clusterId timeout controllerId directoryId endpoints version =>
    Quorum.encodeAddRaftVoter clusterId timeout controllerId directoryId endpoints version
  | removeRaftVoter clusterId controllerId directoryId =>
    Quorum.encodeRemoveRaftVoter clusterId controllerId directoryId
  | streamsGroupDescribe groupId version includeTopologyDescription _ =>
    Streams.Describe.encodeStreamsDescribeRequest groupId version includeTopologyDescription
  | describeShareGroupOffsets groupId _ => Share.encodeDescribeShareGroupOffsets groupId
  | alterShareGroupOffsets groupId rows => Share.encodeAlterShareGroupOffsets groupId rows
  | deleteShareGroupOffsets groupId topics => Share.encodeDeleteShareGroupOffsets groupId topics

/-- The body that the schema has for the request. -/
def body : RawCall → List UInt8
  | addRaftVoter clusterId timeout controllerId directoryId endpoints version =>
    Quorum.Schema.addRaftVoter clusterId timeout controllerId directoryId endpoints version
  | removeRaftVoter clusterId controllerId directoryId =>
    Quorum.Schema.removeRaftVoter clusterId controllerId directoryId
  | streamsGroupDescribe groupId version includeTopologyDescription _ =>
    Streams.Describe.Schema.describeRequest groupId version includeTopologyDescription
  | describeShareGroupOffsets groupId _ => Share.Schema.describeOffsets groupId
  | alterShareGroupOffsets groupId rows => Share.Schema.alterOffsets groupId rows
  | deleteShareGroupOffsets groupId topics => Share.Schema.deleteOffsets groupId topics

/-! ## The response -/

/-- The body of the response. -/
abbrev Response : RawCall → Type
  | addRaftVoter .. => Quorum.Schema.RaftVoterResponse
  | removeRaftVoter .. => Quorum.Schema.RaftVoterResponse
  | streamsGroupDescribe .. => Streams.Describe.Schema.DescribeResponse
  | describeShareGroupOffsets .. => Share.Schema.DescribedOffsets
  | alterShareGroupOffsets .. => Share.Schema.ChangedOffsets Share.Schema.AlteredTopic
  | deleteShareGroupOffsets .. => Share.Schema.ChangedOffsets Share.Schema.DeletedTopic

/-- What a call site returns. -/
abbrev Report : RawCall → Type
  | addRaftVoter .. => Unit
  | removeRaftVoter .. => Unit
  | streamsGroupDescribe .. => StreamsGroupDescription
  | describeShareGroupOffsets .. => List Share.ShareGroupOffsetRow
  | alterShareGroupOffsets .. => List String
  | deleteShareGroupOffsets .. => List Share.ShareGroupTopicMutationRow

def encodeResponse : (call : RawCall) → call.Response → List UInt8
  | addRaftVoter .., response => Quorum.Schema.RaftVoterResponse.encode response
  | removeRaftVoter .., response => Quorum.Schema.RaftVoterResponse.encode response
  | streamsGroupDescribe _ version _ _, response =>
    Streams.Describe.Schema.DescribeResponse.encode version response
  | describeShareGroupOffsets _ version, response =>
    Share.Schema.DescribedOffsets.encode version response
  | alterShareGroupOffsets .., response =>
    Share.Schema.ChangedOffsets.encode Share.Schema.AlteredTopic.encode response
  | deleteShareGroupOffsets .., response =>
    Share.Schema.ChangedOffsets.encode Share.Schema.DeletedTopic.encode response

/-- What is to be reported of the body of the response. -/
def report : (call : RawCall) → call.Response → Except Fault call.Report
  | addRaftVoter .., response => Quorum.Schema.RaftVoterResponse.report response
  | removeRaftVoter .., response => Quorum.Schema.RaftVoterResponse.report response
  | streamsGroupDescribe groupId version _ allowMissing, response =>
    Streams.Describe.Schema.DescribeResponse.report groupId version allowMissing response
  | describeShareGroupOffsets _ version, response =>
    Share.Schema.DescribedOffsets.report version response
  | alterShareGroupOffsets groupId _, response =>
    Share.Schema.ChangedOffsets.report "AlterShareGroupOffsets" groupId
      (List.flatMap (Share.Schema.AlteredTopic.report groupId)) response
  | deleteShareGroupOffsets groupId _, response =>
    Share.Schema.ChangedOffsets.report "DeleteShareGroupOffsets" groupId
      (List.map (Share.Schema.DeletedTopic.report groupId)) response

/-- What the call site does with the payload of the response. -/
def read (prim : Primitives) : (call : RawCall) → Decoder call.Report
  | addRaftVoter .. => Quorum.readRaftVoterResponse
  | removeRaftVoter .. => Quorum.readRaftVoterResponse
  | streamsGroupDescribe groupId version _ allowMissing =>
    Streams.Describe.readStreamsDescribeResponse prim groupId version allowMissing
  | describeShareGroupOffsets _ version => Share.readDescribeShareGroupOffsets prim version
  | alterShareGroupOffsets groupId _ => Share.readAlterShareGroupOffsets prim groupId
  | deleteShareGroupOffsets groupId _ => Share.readDeleteShareGroupOffsets prim groupId

/-! ## The header -/

/-- The request is an empty section of tagged fields and the body. -/
def RequestFramed (call : RawCall) : Prop :=
  Writes call.encode (encodeTaggedFields noTaggedFields ++ call.body)

/-- Every response is read as it is, whatever the tagged fields of its header are. -/
def ResponsesRead (prim : Primitives) (call : RawCall) : Prop :=
  ∀ (header : TaggedFields) (response : call.Response),
    ((call.read prim).run (encodeTaggedFields header ++ call.encodeResponse response)).map
      Prod.fst = call.report response

structure Framed (prim : Primitives) (call : RawCall) : Prop where
  request : call.RequestFramed
  responses : call.ResponsesRead prim

/-- The call changes the voters of the quorum. -/
def ChangesVoters (call : RawCall) : Prop := call.apiKey = 80 ∨ call.apiKey = 81

variable {prim : Primitives} {call : RawCall}

theorem responsesRead_of_yields
    (h : ∀ (header : TaggedFields) (response : call.Response), Yields (call.read prim)
      (encodeTaggedFields header ++ call.encodeResponse response) (call.report response)) :
    call.ResponsesRead prim := by
  intro header response
  have hread := h header response []
  rw [List.append_nil] at hread
  rw [hread]
  cases call.report response with
  | error fault => rfl
  | ok result => rfl

/-- A closure that writes the body alone is one byte short. -/
theorem not_requestFramed (h : Writes call.encode call.body) : ¬ call.RequestFramed := by
  intro hframed
  have hlength := congrArg List.length (h.unique hframed)
  rw [encode_noTaggedFields, List.length_append, List.length_singleton] at hlength
  omega

/-- The two calls that change the voters have no header at all. -/
theorem not_framed (prim : Primitives) (h : call.ChangesVoters) :
    ¬ call.RequestFramed ∧ ¬ call.ResponsesRead prim := by
  cases call with
  | addRaftVoter clusterId timeout controllerId directoryId endpoints version =>
    constructor
    · exact not_requestFramed (Quorum.writes_addRaftVoter _ _ _ _ _ _)
    · intro hread
      exact Quorum.refused_misread (hread noTaggedFields Quorum.refused)
  | removeRaftVoter clusterId controllerId directoryId =>
    constructor
    · exact not_requestFramed (Quorum.writes_removeRaftVoter _ _ _)
    · intro hread
      exact Quorum.refused_misread (hread noTaggedFields Quorum.refused)
  | streamsGroupDescribe => simp [ChangesVoters, apiKey] at h
  | describeShareGroupOffsets => simp [ChangesVoters, apiKey] at h
  | alterShareGroupOffsets => simp [ChangesVoters, apiKey] at h
  | deleteShareGroupOffsets => simp [ChangesVoters, apiKey] at h

/-- The calls for the groups have both headers. -/
theorem framed (prim : Primitives) (h : ¬ call.ChangesVoters) : call.Framed prim := by
  cases call with
  | addRaftVoter => simp [ChangesVoters, apiKey] at h
  | removeRaftVoter => simp [ChangesVoters, apiKey] at h
  | streamsGroupDescribe groupId version includeTopologyDescription allowMissing =>
    constructor
    · exact Streams.Describe.writes_streamsDescribeRequest _ _ _
    · apply responsesRead_of_yields
      exact Streams.Describe.yields_streamsDescribeResponse prim groupId version allowMissing
  | describeShareGroupOffsets groupId version =>
    constructor
    · exact Share.writes_describeOffsets _
    · apply responsesRead_of_yields
      exact Share.yields_describeOffsets prim version
  | alterShareGroupOffsets groupId rows =>
    constructor
    · exact Share.writes_alterOffsets _ _
    · apply responsesRead_of_yields
      exact Share.yields_alterOffsets prim groupId
  | deleteShareGroupOffsets groupId topics =>
    constructor
    · exact Share.writes_deleteOffsets _ _
    · apply responsesRead_of_yields
      exact Share.yields_deleteOffsets prim groupId

/-- **Which calls are framed**: all but the two that change the voters, which miss the header of
the request and that of the response. -/
theorem framed_iff (prim : Primitives) (call : RawCall) :
    (call.Framed prim ↔ ¬ call.ChangesVoters) ∧
      (call.ChangesVoters → ¬ call.RequestFramed ∧ ¬ call.ResponsesRead prim) := by
  constructor
  · constructor
    · intro hframed hvoters
      exact (not_framed prim hvoters).1 hframed.request
    · exact framed prim
  · exact not_framed prim

/-- A controller is not removed, and the call returns that it is. -/
theorem removeRaftVoter_not_framed :
    let prim := Primitives.bigEndian (.config "insufficient bytes")
    let call := removeRaftVoter "cluster" 1 (List.replicate 16 7)
    let payload := encodeTaggedFields noTaggedFields ++ call.encodeResponse Quorum.refused
    ¬ call.RequestFramed ∧ ((call.read prim).run payload).map Prod.fst = .ok () ∧
      call.report Quorum.refused = .error (malformed "retry") := by
  intro prim call payload
  refine ⟨not_requestFramed (Quorum.writes_removeRaftVoter _ _ _), ?_, rfl⟩
  exact Quorum.readRaftVoterResponse_refused

end RawCall

end KafkaCli.Protocol
