import KafkaCli.Error
import KafkaCli.Lib.Checked
import KafkaCli.Lib.Session
import Mathlib.Algebra.Group.Int.Defs
import Mathlib.Algebra.Group.Nat.Defs

/-!
# Calls to the client libraries

The group commands work through two client libraries. A `Call` is what a command asks of them, or
of the clock and the terminal, and `Reply` is what comes back. A run of a command is a session
over these calls, so its transcript says what was asked of the cluster and in which order.
-/

namespace KafkaCli.Groups

open Checked Session

/-! ## Data of the replies -/

/-- An error code of the protocol by its name; there is none where the operation succeeded. -/
abbrev ErrorCode := Option String

structure ConsumerGroupListing where
  group : String
  state : String
  deriving DecidableEq

/-- A group as the protocol client lists it. -/
structure GroupListing where
  groupId : String
  groupType : Option String
  deriving DecidableEq

structure ConsumerGroupMember where
  memberId : String
  instanceId : Option String
  deriving DecidableEq

structure ConsumerGroupDescription where
  members : List ConsumerGroupMember
  deriving DecidableEq

structure TopicMetadata where
  name : String
  error : Option String
  partitions : List Int
  deriving DecidableEq

/-- An entry of a list of topic partitions. Positions that are no offset have none. -/
structure PartitionOffset where
  topic : String
  partition : Int
  offset : Option Int
  deriving DecidableEq

/-- The first offset of a partition and the one that follows its last; the code clamps to them. -/
structure Watermarks where
  low : Int
  high : Int
  low_le_high : low ≤ high

structure Broker where
  id : Int
  host : String
  port : Int
  deriving DecidableEq

structure CoordinatorReply where
  errorCode : ErrorCode
  errorMessage : Option String
  nodeId : Int
  host : String
  port : Int
  deriving DecidableEq

structure LeaveGroupMember where
  memberId : String
  groupInstanceId : Option String
  reason : Option String
  deriving DecidableEq

structure LeaveGroupReply where
  errorCode : ErrorCode
  members : List (String × ErrorCode)
  deriving DecidableEq

structure StreamsSubtopology where
  sourceTopics : List String
  repartitionSourceTopics : List String
  stateChangelogTopics : List String
  deriving DecidableEq

structure StreamsGroupDescription where
  groupId : String
  groupState : String
  /-- The subtopologies, where the group has a topology. -/
  topology : Option (List StreamsSubtopology)
  deriving DecidableEq

structure StreamsGroupReply where
  errorCode : Int
  errorMessage : Option String
  description : StreamsGroupDescription
  deriving DecidableEq

/-! ## Rows that are printed -/

structure ResetOffsetRow where
  group : String
  topic : String
  partition : Int
  newOffset : Int
  deriving DecidableEq

structure MutationRow where
  resource : String
  status : String
  error : Option String
  deriving DecidableEq

structure StreamsApplicationResetRow where
  action : String
  resource : String
  partition : Option Int
  offset : Option Int
  status : String
  error : Option String
  deriving DecidableEq

inductive Output
  | resetRows (command : String) (rows : List ResetOffsetRow) (exportCsv singleGroup : Bool)
      (errors : List String)
  | mutationRows (command : String) (rows : List MutationRow)
  | applicationResetRows (rows : List StreamsApplicationResetRow)
  deriving DecidableEq

/-! ## Calls -/

inductive ApiKey
  | findCoordinator | leaveGroup | deleteGroups | streamsGroupDescribe
  deriving DecidableEq

/-- What a command asks for. For the deletion of topics the group is named for which they are
deleted; it is no part of the request. -/
inductive Call
  | createAdmin
  | createConsumer (settings : List (String × String))
  | listConsumerGroups (timeoutMs : Int)
  | describeConsumerGroups (groups : List String) (timeoutMs : Int)
  | listConsumerGroupOffsets (group : String) (timeoutMs : Int)
  | alterConsumerGroupOffsets (group : String) (offsets : List (String × Int × Int))
      (timeoutMs : Int)
  | fetchMetadata (topic : Option String)
  | committedOffsets (partitions : List (String × Int))
  | addPartitionOffset (topic : String) (partition offset : Int)
  | offsetsForTimes (partitions : List (String × Int × Int))
  | fetchWatermarks (topic : String) (partition : Int)
  | deleteTopics (owner : String) (topics : List String)
  | protocolAdmin
  | listGroups
  | describeCluster
  | connect (nodeId : Int) (address : String)
  | negotiate (api : ApiKey) (max min : Int)
  | findCoordinator (group : String) (version : Int)
  | leaveGroup (group : String) (version : Int) (members : List LeaveGroupMember)
  | deleteGroups (groups : List String) (version : Int)
  | streamsGroupDescribe (group : String) (version : Int) (includeTopologyDescription : Bool)
  | now
  | print (output : Output)
  deriving DecidableEq

/-- What comes back for a call. -/
@[reducible] def Reply : Call → Type
  | .listConsumerGroups _ => List ConsumerGroupListing
  | .describeConsumerGroups _ _ => List ConsumerGroupDescription
  | .listConsumerGroupOffsets _ _ => List PartitionOffset
  | .fetchMetadata _ => List TopicMetadata
  | .committedOffsets _ | .offsetsForTimes _ => List PartitionOffset
  | .fetchWatermarks _ _ => Watermarks
  | .deleteTopics _ _ => List (Except (String × String) String)
  | .listGroups => List GroupListing
  | .describeCluster => List Broker
  | .negotiate _ _ _ => Option Int
  | .findCoordinator _ _ => CoordinatorReply
  | .leaveGroup _ _ _ => LeaveGroupReply
  | .deleteGroups _ _ => List ErrorCode
  | .streamsGroupDescribe _ _ _ => StreamsGroupReply
  | .now => Int
  | .createAdmin | .createConsumer _ | .alterConsumerGroupOffsets _ _ _ | .addPartitionOffset _ _ _
  | .protocolAdmin | .connect _ _ | .print _ => Unit

/-- A call changes something in the cluster. -/
def Call.Mutating : Call → Prop
  | .alterConsumerGroupOffsets _ _ _ | .deleteTopics _ _ | .leaveGroup _ _ _ | .deleteGroups _ _ =>
    True
  | _ => False

/-- What a command runs against. -/
structure Host where
  /-- The client libraries, with the cluster behind them. -/
  server : Server Reply Error
  /-- The milliseconds of a point in time, in one of the two accepted formats. -/
  parseDatetime : String → Option Int
  /-- The pattern for topics of foreign-key joins matches. -/
  isForeignKeyTopic : String → Bool
  /-- The versions of `DeleteGroups` that the protocol client knows, the highest and the lowest. -/
  deleteGroupsVersions : Int × Int
  /-- The records of a CSV file without headers; opening it may fail, and so may each record. -/
  readCsv : String → Except String (List (Except String (List String)))

abbrev Command := Client Reply Error

variable (host : Host)

def Host.ask (call : Call) : Command (Reply call) := Session.ask host.server call

/-! ## Wrappers -/

def durationMs (timeout : Nat) : Result Int :=
  if timeout < 2 ^ 31 then .ok timeout
  else .error (.usage "timeout exceeds librdkafka's supported range")

/-- A text that is handed to C has no NUL byte. -/
def checkNul (value message : String) : Result Unit :=
  failIf ('\x00' ∈ value.toList) (.usage message)

def admin : Command Unit := host.ask .createAdmin

/-- The end of a batch, given the error of each of its rows. -/
def partialFailure (errors : List (Option String)) : Result Unit :=
  let failed := (errors.filter (·.isSome)).length
  failIf (failed ≠ 0) (.partialFailure failed errors.length)

def listConsumerGroups (timeout : Nat) : Command (List ConsumerGroupListing) := do
  let timeoutMs ← ofExcept (durationMs timeout)
  host.ask (.listConsumerGroups timeoutMs)

def describeConsumerGroups (groups : List String) (timeout : Nat) :
    Command (List ConsumerGroupDescription) := do
  let timeoutMs ← ofExcept (durationMs timeout)
  forM groups fun group => ofExcept (checkNul group "consumer group contains a NUL byte")
  host.ask (.describeConsumerGroups groups timeoutMs)

def listConsumerGroupOffsets (group : String) (timeout : Nat) : Command (List PartitionOffset) := do
  let timeoutMs ← ofExcept (durationMs timeout)
  ofExcept (checkNul group "consumer group contains a NUL byte")
  host.ask (.listConsumerGroupOffsets group timeoutMs)

def alterConsumerGroupOffsets (group : String) (offsets : List (String × Int × Int))
    (timeout : Nat) : Command Unit := do
  let timeoutMs ← ofExcept (durationMs timeout)
  ofExcept (checkNul group "consumer group contains a NUL byte")
  ofExcept (failIf (¬ offsets.length < 2 ^ 31) (.usage "too many consumer-group offsets"))
  forM offsets fun offset => ofExcept (checkNul offset.1 "topic contains a NUL byte")
  host.ask (.alterConsumerGroupOffsets group offsets timeoutMs)

/-! ## What only reads -/

section ReadOnly

open Run

/-- An exchange that changes nothing. -/
def Harmless (_ : Transcript Reply Error) (exchange : Exchange Reply Error) : Prop :=
  ¬ exchange.request.Mutating

/-- No run of the program asks for a change. -/
abbrev ReadOnly {α : Type} (program : Command α) : Prop := Moves (Follows Harmless) program

/-- What only reads does what is allowed, where reading is. -/
theorem ReadOnly.moves {α : Type} {program : Command α}
    {may : Transcript Reply Error → Exchange Reply Error → Prop} (h : ReadOnly program)
    (hmay : ∀ t exchange, ¬ exchange.request.Mutating → may t exchange) :
    Moves (Follows may) program :=
  Moves.mono h fun _ _ hfollows => hfollows.mono hmay

theorem readOnly_ask {call : Call} (h : ¬ call.Mutating) : ReadOnly (host.ask call) :=
  moves_ask fun _ _ => h

theorem readOnly_admin : ReadOnly (admin host) := readOnly_ask host not_false

theorem readOnly_listConsumerGroups (timeout : Nat) : ReadOnly (listConsumerGroups host timeout) :=
  .bind (.ofExcept _) fun _ => readOnly_ask host not_false

theorem readOnly_describeConsumerGroups (groups : List String) (timeout : Nat) :
    ReadOnly (describeConsumerGroups host groups timeout) :=
  .bind (.ofExcept _) fun _ => .bind (.forM fun _ _ => .ofExcept _) fun _ =>
    readOnly_ask host not_false

theorem readOnly_listConsumerGroupOffsets (group : String) (timeout : Nat) :
    ReadOnly (listConsumerGroupOffsets host group timeout) :=
  .bind (.ofExcept _) fun _ => .bind (.ofExcept _) fun _ => readOnly_ask host not_false

end ReadOnly

/-! ## What a wrapper asks for -/

section Asked

open Run

variable {host} {before after : Transcript Reply Error} {timeout : Nat}

/-- A check leaves no exchange behind. -/
theorem eq_of_ofExcept_ok {α : Type} {x : Result α} {a : α}
    (h : (ofExcept x : Command α).run before = .ok a after) : x = .ok a ∧ after = before := by
  cases x with
  | error e => cases h
  | ok a' =>
    cases h
    exact ⟨rfl, rfl⟩

theorem eq_of_forM_ofExcept_ok {ι : Type} {l : List ι} {check : ι → Result PUnit}
    (h : (forM l fun i => (ofExcept (check i) : Command PUnit)).run before = .ok ⟨⟩ after) :
    after = before :=
  ((Moves.forM fun _ _ => .ofExcept _ : Moves Eq _).of_ok h).symm

theorem listConsumerGroups_ok {listings : List ConsumerGroupListing}
    (h : (listConsumerGroups host timeout).run before = .ok listings after) :
    ∃ timeoutMs, after = before ++ [⟨.listConsumerGroups timeoutMs, .ok listings⟩] := by
  obtain ⟨timeoutMs, _, hms, hask⟩ := bind_eq_ok.1 h
  obtain ⟨-, rfl⟩ := eq_of_ofExcept_ok hms
  exact ⟨timeoutMs, (ask_eq_ok.1 hask).2⟩

theorem describeConsumerGroups_ok {groups : List String}
    {descriptions : List ConsumerGroupDescription}
    (h : (describeConsumerGroups host groups timeout).run before = .ok descriptions after) :
    ∃ timeoutMs, after =
      before ++ [⟨.describeConsumerGroups groups timeoutMs, .ok descriptions⟩] := by
  obtain ⟨timeoutMs, _, hms, hrest⟩ := bind_eq_ok.1 h
  obtain ⟨-, rfl⟩ := eq_of_ofExcept_ok hms
  obtain ⟨_, _, hchecks, hask⟩ := bind_eq_ok.1 hrest
  obtain rfl := eq_of_forM_ofExcept_ok hchecks
  exact ⟨timeoutMs, (ask_eq_ok.1 hask).2⟩

/-- Where altering offsets returns, they were sent. -/
theorem alterConsumerGroupOffsets_ok {group : String} {offsets : List (String × Int × Int)}
    (h : (alterConsumerGroupOffsets host group offsets timeout).run before = .ok () after) :
    ∃ timeoutMs, after =
      before ++ [⟨.alterConsumerGroupOffsets group offsets timeoutMs, .ok ()⟩] := by
  obtain ⟨timeoutMs, _, hms, h₁⟩ := bind_eq_ok.1 h
  obtain ⟨_, _, hgroup, h₂⟩ := bind_eq_ok.1 h₁
  obtain ⟨_, _, hlength, h₃⟩ := bind_eq_ok.1 h₂
  obtain ⟨_, _, hchecks, hask⟩ := bind_eq_ok.1 h₃
  obtain ⟨-, rfl⟩ := eq_of_ofExcept_ok hms
  obtain ⟨-, rfl⟩ := eq_of_ofExcept_ok hgroup
  obtain ⟨-, rfl⟩ := eq_of_ofExcept_ok hlength
  obtain rfl := eq_of_forM_ofExcept_ok hchecks
  exact ⟨timeoutMs, (ask_eq_ok.1 hask).2⟩

end Asked

/-! ## A small cluster -/

/-- A cluster of one broker, without groups and topics, in which every change succeeds. -/
def emptyCluster : Server Reply Error := fun _ call =>
  match call with
  | .listConsumerGroups _ | .describeConsumerGroups _ _ | .listConsumerGroupOffsets _ _
  | .fetchMetadata _ | .committedOffsets _ | .offsetsForTimes _ | .listGroups => .ok []
  | .fetchWatermarks _ _ => .ok ⟨0, 10, by decide⟩
  | .deleteTopics _ topics => .ok (topics.map .ok)
  | .describeCluster => .ok [{ id := 1, host := "localhost", port := 9092 }]
  | .negotiate _ max _ => .ok (some max)
  | .findCoordinator _ _ => .ok
    { errorCode := none, errorMessage := none, nodeId := 1, host := "localhost", port := 9092 }
  | .leaveGroup _ _ _ => .ok { errorCode := none, members := [] }
  | .deleteGroups groups _ => .ok (groups.map fun _ => none)
  | .streamsGroupDescribe group _ _ => .ok
    { errorCode := 0, errorMessage := none
      description := { groupId := group, groupState := "Empty", topology := none } }
  | .now => .ok 0
  | .createAdmin | .createConsumer _ | .alterConsumerGroupOffsets _ _ _ | .addPartitionOffset _ _ _
  | .protocolAdmin | .connect _ _ | .print _ => .ok ()

/-- A host for a cluster; there are no files to read. -/
def hostOf (server : Server Reply Error) : Host where
  server
  parseDatetime _ := none
  isForeignKeyTopic _ := false
  deleteGroupsVersions := (2, 0)
  readCsv _ := .error "No such file or directory (os error 2)"

end KafkaCli.Groups
