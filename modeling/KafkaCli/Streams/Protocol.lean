import KafkaCli.Groups.Calls
import KafkaCli.Lib.Text

/-!
# Groups over the protocol client

The requests about groups that go to a group's coordinator: describing Streams groups, deleting a
group, and removing the members of one.
-/

namespace KafkaCli.Streams

open Checked Groups Text

variable (host : Host)

/-- A connection to the first broker of the cluster. -/
def delegationBrokerConnection : Command Unit := do
  let brokers : List Broker ← host.ask .describeCluster
  let broker ← ofExcept (brokers.head?.elim
    (.error (Error.config "cluster returned no brokers")) .ok)
  host.ask (.connect broker.id s!"{broker.host}:{broker.port}")

/-- A version of the operation that both sides know. -/
def negotiateApiVersion (api : ApiKey) (max min : Int) (unsupported : String) : Command Int := do
  let version : Option Int ← host.ask (.negotiate api max min)
  ofExcept (version.elim (.error (.unsupported unsupported)) .ok)

def findCoordinatorFailed (groupId errorCode : String) (errorMessage : Option String) : Error :=
  let message := errorMessage.getD "-"
  .config s!"FindCoordinator failed for {groupId}: {errorCode}: {message}"

def groupCoordinatorConnection (groupId : String) : Command Unit := do
  delegationBrokerConnection host
  let version ← negotiateApiVersion host .findCoordinator 6 1
    "broker does not support FindCoordinator"
  let reply : CoordinatorReply ← host.ask (.findCoordinator groupId version)
  ofExcept (reply.errorCode.elim (.ok ()) fun errorCode =>
    .error (findCoordinatorFailed groupId errorCode reply.errorMessage))
  host.ask (.connect reply.nodeId s!"{reply.host}:{reply.port}")

def groupIdsByType (expectedType : String) : Command (List String) := do
  let groups : List GroupListing ← host.ask .listGroups
  let matching := groups.filter fun group =>
    group.groupType.any fun kind => toAsciiLowercase kind = toAsciiLowercase expectedType
  return (matching.map (·.groupId)).mergeSort (· ≤ ·)

/-! ## Describing -/

/-- The error code of a group that is not there. -/
def groupIdNotFound : Int := 69

/-- The description in a reply. A group that may be missing is one that is dead. -/
def describedGroup (groupId : String) (allowMissing : Bool) (reply : StreamsGroupReply) :
    Result StreamsGroupDescription :=
  if reply.errorCode = groupIdNotFound ∧ allowMissing then
    .ok { reply.description with groupState := "Dead" }
  else if reply.errorCode ≠ 0 then
    let message := reply.errorMessage.getD s!"Kafka error {reply.errorCode}"
    .error (.config s!"StreamsGroupDescribe failed for {groupId}: {message}")
  else .ok reply.description

def describeStreamsGroup (includeTopologyDescription allowMissing : Bool) (groupId : String) :
    Command StreamsGroupDescription := do
  groupCoordinatorConnection host groupId
  let version ← negotiateApiVersion host .streamsGroupDescribe
    (if includeTopologyDescription then 1 else 0) 0
    "broker does not support StreamsGroupDescribe v0"
  let reply : StreamsGroupReply ←
    host.ask (.streamsGroupDescribe groupId version includeTopologyDescription)
  ofExcept (describedGroup groupId allowMissing reply)

/-- The descriptions of groups, in the order of their ids. -/
def describeStreamsGroups (groupIds : List String)
    (includeTopologyDescription allowMissing : Bool) : Command (List StreamsGroupDescription) := do
  let descriptions ←
    groupIds.mapM (describeStreamsGroup host includeTopologyDescription allowMissing)
  return descriptions.mergeSort (·.groupId ≤ ·.groupId)

/-! ## Deleting and leaving -/

/-- Delete a group. The error code of the group is returned. -/
def deleteOneGroup (groupId : String) : Command ErrorCode := do
  groupCoordinatorConnection host groupId
  let version ← negotiateApiVersion host .deleteGroups host.deleteGroupsVersions.1
    host.deleteGroupsVersions.2 "broker does not support DeleteGroups"
  let results : List ErrorCode ← host.ask (.deleteGroups [groupId] version)
  ofExcept (results.head?.elim
    (.error (Error.config s!"broker omitted deletion result for {groupId}")) .ok)

/-- The members as a `LeaveGroup` request names them. -/
def leavingMembers (version : Int) (members : List ConsumerGroupMember) : List LeaveGroupMember :=
  members.map fun member =>
    { memberId := member.memberId, groupInstanceId := member.instanceId
      reason := if version ≥ 5 then some "streams application reset --force" else none }

/-- A `LeaveGroup` reply without an error for the group or a member. -/
def checkLeaveGroup (groupId : String) (reply : LeaveGroupReply) : Result Unit := do
  reply.errorCode.elim (.ok ()) fun errorCode =>
    .error (.config s!"LeaveGroup failed for {groupId}: {errorCode}")
  let failed := reply.members.filterMap fun (memberId, errorCode) =>
    errorCode.map fun errorCode => s!"{memberId}: {errorCode}"
  let list := ", ".intercalate failed
  failIf (failed ≠ []) (.config s!"LeaveGroup failed for members: {list}")

def forceRemoveConsumerGroupMembers (groupId : String) (members : List ConsumerGroupMember) :
    Command Unit := do
  groupCoordinatorConnection host groupId
  let version ← negotiateApiVersion host .leaveGroup 5 3
    "broker does not support batch LeaveGroup v3+"
  let reply : LeaveGroupReply ←
    host.ask (.leaveGroup groupId version (leavingMembers version members))
  ofExcept (checkLeaveGroup groupId reply)

/-! ## What only reads -/

section ReadOnly

open Run

theorem readOnly_delegationBrokerConnection : ReadOnly (delegationBrokerConnection host) :=
  .bind (readOnly_ask host not_false) fun _ => .bind (.ofExcept _) fun _ =>
    readOnly_ask host not_false

theorem readOnly_negotiateApiVersion (api : ApiKey) (max min : Int) (unsupported : String) :
    ReadOnly (negotiateApiVersion host api max min unsupported) :=
  .bind (readOnly_ask host not_false) fun _ => .ofExcept _

theorem readOnly_groupCoordinatorConnection (groupId : String) :
    ReadOnly (groupCoordinatorConnection host groupId) := by
  refine .bind (readOnly_delegationBrokerConnection host) fun _ => ?_
  refine .bind (readOnly_negotiateApiVersion host _ _ _ _) fun _ => ?_
  exact .bind (readOnly_ask host not_false) fun _ => .bind (.ofExcept _) fun _ =>
    readOnly_ask host not_false

theorem readOnly_groupIdsByType (expectedType : String) :
    ReadOnly (groupIdsByType host expectedType) :=
  .bind (readOnly_ask host not_false) fun _ => .pure _

theorem readOnly_describeStreamsGroup (includeTopologyDescription allowMissing : Bool)
    (groupId : String) :
    ReadOnly (describeStreamsGroup host includeTopologyDescription allowMissing groupId) := by
  refine .bind (readOnly_groupCoordinatorConnection host groupId) fun _ => ?_
  refine .bind (readOnly_negotiateApiVersion host _ _ _ _) fun _ => ?_
  exact .bind (readOnly_ask host not_false) fun _ => .ofExcept _

theorem readOnly_describeStreamsGroups (groupIds : List String)
    (includeTopologyDescription allowMissing : Bool) :
    ReadOnly (describeStreamsGroups host groupIds includeTopologyDescription allowMissing) :=
  .bind (.mapM fun groupId _ => readOnly_describeStreamsGroup host _ _ groupId) fun _ => .pure _

end ReadOnly

end KafkaCli.Streams
