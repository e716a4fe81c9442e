import KafkaCli.Protocol.Compact

/-!
# Adding and removing controllers

The requests `AddRaftVoter` (80) and `RemoveRaftVoter` (81), as `metadata_quorum` writes them, and
the reader of their response in `alter_raft_voter`. Neither knows of the header.
-/

namespace KafkaCli.Quorum

open Protocol Wire

structure ControllerEndpoint where
  name : String
  host : String
  port : UInt16
  deriving DecidableEq, Repr

/-! ## The requests -/

/-- A listener of the closure of `add-controller`. -/
def putListener (endpoint : ControllerEndpoint) : Writer PUnit := do
  put (encodeCompactText endpoint.name)
  put (encodeCompactText endpoint.host)
  putU16 endpoint.port
  putU8 0

/-- The closure of `add-controller`, with the timeout in milliseconds. -/
def encodeAddRaftVoter (clusterId : String) (timeout : Nat) (controllerId : Int)
    (directoryId : List UInt8) (endpoints : List ControllerEndpoint) (version : Int) :
    Writer PUnit := do
  put (encodeCompactText clusterId)
  putI32 (min timeout (2 ^ 31 - 1))
  putI32 controllerId
  put directoryId
  put (encodeUnsignedVarint (endpoints.length + 1))
  forM endpoints putListener
  putWhen (version ≥ 1) (putU8 1)
  putU8 0

/-- The closure of `remove-controller`. -/
def encodeRemoveRaftVoter (clusterId : String) (controllerId : Int) (directoryId : List UInt8) :
    Writer PUnit := do
  put (encodeCompactText clusterId)
  putI32 controllerId
  put directoryId
  putU8 0

/-! ## The response -/

/-- The end of `alter_raft_voter`, from the payload of the response on. -/
def readRaftVoterResponse : Decoder Unit := do
  require 6 (malformed "truncated raft voter response")
  let _throttleTimeMs ← getI32
  let errorCode ← getI16
  let message ← decodeNullableCompactString
  skipTaggedFields
  if errorCode ≠ 0 then
    throw (malformed (message.getD s!"raft voter request failed with error code {errorCode}"))

/-! ## The schema -/

namespace Schema

def listener (endpoint : ControllerEndpoint) : List UInt8 :=
  List.flatten [encodeCompactText endpoint.name, encodeCompactText endpoint.host,
    beU16 endpoint.port, encodeTaggedFields noTaggedFields]

/-- The body of `AddRaftVoter`. Version 1 says whether the leader waits for the commit. -/
def addRaftVoter (clusterId : String) (timeout : Nat) (controllerId : Int)
    (directoryId : List UInt8) (endpoints : List ControllerEndpoint) (version : Int) :
    List UInt8 :=
  List.flatten [encodeCompactText clusterId, intBe 4 (min timeout (2 ^ 31 - 1)),
    intBe 4 controllerId, directoryId, encodeItems listener endpoints,
    if version ≥ 1 then [1] else [], encodeTaggedFields noTaggedFields]

/-- The body of `RemoveRaftVoter`. -/
def removeRaftVoter (clusterId : String) (controllerId : Int) (directoryId : List UInt8) :
    List UInt8 :=
  List.flatten [encodeCompactText clusterId, intBe 4 controllerId, directoryId,
    encodeTaggedFields noTaggedFields]

/-- The body of both responses. -/
structure RaftVoterResponse where
  throttleTimeMs : Int32
  errorCode : Int16
  errorMessage : Option CompactString
  tags : TaggedFields

def RaftVoterResponse.encode (response : RaftVoterResponse) : List UInt8 :=
  List.flatten [be32 response.throttleTimeMs, be16 response.errorCode,
    encodeNullableCompactString response.errorMessage, encodeTaggedFields response.tags]

/-- What is to be reported: the message of an error, or a text with its code. -/
def RaftVoterResponse.report (response : RaftVoterResponse) : Except Fault Unit :=
  if response.errorCode = 0 then .ok ()
  else
    let code := response.errorCode
    .error (malformed ((response.errorMessage.map CompactString.text).getD
      s!"raft voter request failed with error code {code}"))

end Schema

/-! ## What the closures write -/

theorem writes_listener (endpoint : ControllerEndpoint) :
    Writes (putListener endpoint) (Schema.listener endpoint) := by
  rw [Schema.listener, encode_noTaggedFields]
  apply Writes.field (writes_put _)
  apply Writes.field (writes_put _)
  apply Writes.field (writes_put _)
  exact (writes_put _).last

theorem writes_addRaftVoter (clusterId : String) (timeout : Nat) (controllerId : Int)
    (directoryId : List UInt8) (endpoints : List ControllerEndpoint) (version : Int) :
    Writes (encodeAddRaftVoter clusterId timeout controllerId directoryId endpoints version)
      (Schema.addRaftVoter clusterId timeout controllerId directoryId endpoints version) := by
  rw [Schema.addRaftVoter, encode_noTaggedFields]
  apply Writes.field (writes_put _)
  apply Writes.field (writes_put _)
  apply Writes.field (writes_put _)
  apply Writes.field (writes_put _)
  apply writes_items fun endpoint _ => writes_listener endpoint
  apply Writes.field (writes_put _).when
  exact (writes_put _).last

theorem writes_removeRaftVoter (clusterId : String) (controllerId : Int)
    (directoryId : List UInt8) :
    Writes (encodeRemoveRaftVoter clusterId controllerId directoryId)
      (Schema.removeRaftVoter clusterId controllerId directoryId) := by
  rw [Schema.removeRaftVoter, encode_noTaggedFields]
  apply Writes.field (writes_put _)
  apply Writes.field (writes_put _)
  apply Writes.field (writes_put _)
  exact (writes_put _).last

/-- The leader could not do it in time, and says so. -/
def refused : Schema.RaftVoterResponse := ⟨0, 7, some ⟨"retry", by decide⟩, noTaggedFields⟩

/-- An error that is taken for a success: the section of the header is read as a part of the
body. -/
theorem readRaftVoterResponse_refused :
    (readRaftVoterResponse.run (encodeTaggedFields noTaggedFields ++ refused.encode)).map Prod.fst =
      .ok () := by
  have hlength : "retry".utf8ByteSize + 1 < 128 := by decide
  simp only [refused, Schema.RaftVoterResponse.encode, encodeNullableCompactString,
    encodeCompactString, encode_noTaggedFields, encodeUnsignedVarint_of_lt hlength]
  rfl

theorem refused_misread :
    (readRaftVoterResponse.run (encodeTaggedFields noTaggedFields ++ refused.encode)).map Prod.fst ≠
      refused.report := by
  have hreport : refused.report = .error (malformed "retry") := rfl
  rw [readRaftVoterResponse_refused, hreport]
  simp

end KafkaCli.Quorum
