import KafkaCli.Streams.DescribeRoundTrip

/-!
# The request for a streams group

The raw request `StreamsGroupDescribe` (89) for one group, as `describe_streams_groups` writes it,
and what it makes of the payload of the response. The payload starts with the tagged fields of the
header.
-/

namespace KafkaCli.Streams.Describe

open Protocol Wire

/-! ## The request -/

def encodeStreamsDescribeRequest (groupId : String) (version : Int)
    (includeTopologyDescription : Bool) : Writer PUnit := do
  putU8 0 -- flexible request-header tagged fields
  put (encodeUnsignedVarint 2)
  put (encodeCompactText groupId)
  putU8 0 -- include authorized operations
  putWhen (version ≥ 1) (putU8 (if includeTopologyDescription then 1 else 0))
  putU8 0 -- request tagged fields

/-! ## The response -/

/-- The errors of a step say which one it is. -/
def inStep {α : Type} (step : String) (decoder : Decoder α) : Decoder α := fun buffer =>
  (decoder.run buffer).mapError fun
    | .failed error => malformed ("StreamsGroupDescribe " ++ step ++ " failed: " ++ error.text)
    | .panicked => .panicked

variable (prim : Primitives)

/-- The error code of a group that is not there. -/
def groupIdNotFound : Int16 := 69

/-- What is made of the group of a response. A group that may be missing is one that is dead. -/
def describedGroup (groupId : String) (allowMissing : Bool) (errorCode : Int16)
    (errorMessage : Option String) (description : StreamsGroupDescription) :
    Except Fault StreamsGroupDescription :=
  if errorCode = groupIdNotFound ∧ allowMissing then .ok { description with groupState := "Dead" }
  else if errorCode ≠ 0 then
    let message := errorMessage.getD s!"Kafka error {errorCode}"
    .error (malformed s!"StreamsGroupDescribe failed for {groupId}: {message}")
  else .ok description

/-- The end of `describe_streams_groups` for a group, from the payload of the response on. -/
def readStreamsDescribeResponse (groupId : String) (version : Int) (allowMissing : Bool) :
    Decoder StreamsGroupDescription := do
  inStep "response header" skipTaggedFields
  let _throttleTimeMs ← inStep "throttle" prim.i32
  let count ← inStep "group array" decodeCompactLen
  if count ≠ 1 then
    throw (malformed s!"StreamsGroupDescribe returned {count} groups for one requested group")
  else
    let (errorCode, errorMessage, description) ←
      inStep "group decode" (decodeStreamsGroupDescription prim version)
    inStep "response tags" skipTaggedFields
    liftExcept (describedGroup groupId allowMissing errorCode errorMessage description)

/-! ## The schema -/

namespace Schema

/-- The body of the request, for one group without its authorized operations. -/
def describeRequest (groupId : String) (version : Int) (includeTopologyDescription : Bool) :
    List UInt8 :=
  List.flatten [encodeItems encodeCompactText [groupId], beBool false,
    if version ≥ 1 then beBool includeTopologyDescription else [],
    encodeTaggedFields noTaggedFields]

structure DescribeResponse where
  throttleTimeMs : Int32
  groups : CompactArray Group
  tags : TaggedFields

def DescribeResponse.encode (version : Int) (response : DescribeResponse) : List UInt8 :=
  List.flatten [be32 response.throttleTimeMs,
    encodeCompactArray (Group.encode version) response.groups, encodeTaggedFields response.tags]

/-- What is to be reported: the error of the group that was asked for, or its description. -/
def DescribeResponse.report (groupId : String) (version : Int) (allowMissing : Bool)
    (response : DescribeResponse) : Except Fault StreamsGroupDescription :=
  match response.groups.items with
  | [group] => describedGroup groupId allowMissing group.errorCode
      (group.errorMessage.map CompactString.text) (group.keep version)
  | groups =>
    let count := groups.length
    .error (malformed s!"StreamsGroupDescribe returned {count} groups for one requested group")

end Schema

/-! ## What is written and read -/

theorem writes_streamsDescribeRequest (groupId : String) (version : Int)
    (includeTopologyDescription : Bool) :
    Writes (encodeStreamsDescribeRequest groupId version includeTopologyDescription)
      (encodeTaggedFields noTaggedFields ++
        Schema.describeRequest groupId version includeTopologyDescription) := by
  have hgroups : encodeItems encodeCompactText [groupId] =
      encodeUnsignedVarint 2 ++ encodeCompactText groupId := by simp [encodeItems]
  rw [encode_noTaggedFields, Schema.describeRequest, encode_noTaggedFields, List.flatten_cons,
    hgroups, List.append_assoc]
  refine (writes_put [0]).bind ((writes_put _).bind ((writes_put _).bind ?_))
  apply Writes.field (writes_put _)
  apply Writes.field (writes_put _).when
  exact (writes_put _).last

theorem reads_inStep {α : Type} {decoder : Decoder α} {bytes : List UInt8} {a : α} (step : String)
    (h : Reads decoder bytes a) : Reads (inStep step decoder) bytes a := by
  intro rest
  show ((decoder.run (bytes ++ rest)).mapError _) = _
  rw [h]
  rfl

/-- **The response is read** after the tagged fields of its header. -/
theorem yields_streamsDescribeResponse (groupId : String) (version : Int) (allowMissing : Bool)
    (header : TaggedFields) (response : Schema.DescribeResponse) :
    Yields (readStreamsDescribeResponse prim groupId version allowMissing)
      (encodeTaggedFields header ++ response.encode version)
      (response.report groupId version allowMissing) := by
  obtain ⟨throttleTimeMs, ⟨groups, hgroups⟩, tags⟩ := response
  apply Yields.after (reads_inStep _ (reads_skipTaggedFields header))
  apply Yields.field (reads_inStep _ (prim.reads_i32 throttleTimeMs))
  rw [encodeCompactArray, List.flatten_cons, List.append_assoc]
  apply Yields.after (reads_inStep _ (reads_compactLen hgroups))
  rcases groups with _ | ⟨group, _ | ⟨second, rest⟩⟩
  · exact .throw _ _
  · have hgroup := reads_streamsGroupDescription prim version group
    rw [List.flatMap_singleton]
    apply Yields.after (reads_inStep _ hgroup)
    apply Yields.field (reads_inStep _ (reads_skipTaggedFields tags))
    exact yields_liftExcept _
  · rw [if_pos (by simp)]
    exact .throw _ _

end KafkaCli.Streams.Describe
