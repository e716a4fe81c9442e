import KafkaCli.Error
import KafkaCli.Lib.Checked
import KafkaCli.Lib.Text
import Mathlib.Data.String.Basic
import Std.Data.TreeSet.Lemmas

/-!
# Access control entries

The commands `acls add` and `acls remove` up to the request they send. Both read the same
arguments: `acl_bindings` expands them into the bindings to create, `acl_removal_filters` into
the filters whose matches are deleted. Each is a cross product of resources, principals, hosts
and operations.
-/

namespace KafkaCli.Acl

open Checked Text

/-! ## Data -/

inductive AclResourceType
  | any | topic | group | cluster | transactionalId
  deriving DecidableEq, Repr

inductive AclPatternType
  | any | match_ | literal | prefixed
  deriving DecidableEq, Repr

inductive AclOperation
  | any | all | read | write | create | delete | alter | describe | clusterAction
  | describeConfigs | alterConfigs | idempotentWrite
  deriving DecidableEq, Repr

inductive AclPermissionType
  | any | deny | allow
  deriving DecidableEq, Repr

structure AclBinding where
  resourceType : AclResourceType
  resourceName : String
  patternType : AclPatternType
  principal : String
  host : String
  operation : AclOperation
  permissionType : AclPermissionType
  deriving DecidableEq, Repr

/-- A filter of bindings; an absent name, principal or host stands for all of them. -/
structure AclBindingFilter where
  resourceType : AclResourceType
  resourceName : Option String
  patternType : AclPatternType
  principal : Option String
  host : Option String
  operation : AclOperation
  permissionType : AclPermissionType
  deriving DecidableEq, Repr

/-- Pattern types of the command line. -/
inductive AclResourcePattern
  | any | literal | match_ | prefixed
  deriving DecidableEq, Repr

structure AclFilterArgs where
  topic : List String := []
  group : List String := []
  cluster : Bool := false
  transactionalId : List String := []
  delegationToken : List String := []
  principal : List String := []
  resourcePatternType : AclResourcePattern := .literal
  deriving DecidableEq, Repr

structure AclMutationArgs where
  filter : AclFilterArgs
  operation : List String := []
  producer : Bool := false
  consumer : Bool := false
  idempotent : Bool := false
  host : Option String := none
  allowPrincipal : List String := []
  denyPrincipal : List String := []
  allowHost : List String := []
  denyHost : List String := []
  deriving DecidableEq, Repr

/-- A resource and the operations asked for on it. -/
abbrev AclResource := AclResourceType × String × List AclOperation

/-- A principal, a host and a permission. -/
abbrev AclEntry := String × String × AclPermissionType

/-! ## Names in messages -/

def AclResourceType.debug : AclResourceType → String
  | .any => "Any"
  | .topic => "Topic"
  | .group => "Group"
  | .cluster => "Cluster"
  | .transactionalId => "TransactionalId"

def AclOperation.debug : AclOperation → String
  | .any => "Any"
  | .all => "All"
  | .read => "Read"
  | .write => "Write"
  | .create => "Create"
  | .delete => "Delete"
  | .alter => "Alter"
  | .describe => "Describe"
  | .clusterAction => "ClusterAction"
  | .describeConfigs => "DescribeConfigs"
  | .alterConfigs => "AlterConfigs"
  | .idempotentWrite => "IdempotentWrite"

/-! ## Reading the arguments -/

/-- The words for the operations that can be asked for. -/
def aclOperationWords : List (String × AclOperation) :=
  [("all", .all), ("read", .read), ("write", .write), ("create", .create), ("delete", .delete),
    ("alter", .alter), ("describe", .describe), ("cluster-action", .clusterAction),
    ("describe-configs", .describeConfigs), ("alter-configs", .alterConfigs),
    ("idempotent-write", .idempotentWrite)]

/-- Words of operations that the client library does not know. -/
def unsupportedOperationWords : List String :=
  ["two-phase-commit", "create-tokens", "describe-tokens"]

def aclOperation (value : String) : Result AclOperation :=
  let word := toAsciiLowercase (trim value)
  match aclOperationWords.lookup word with
  | some operation => .ok operation
  | none =>
    if word ∈ unsupportedOperationWords then
      .error (.unsupported s!"librdkafka 2.12 does not support ACL operation: {value}")
    else .error (.usage s!"unknown ACL operation: {value}")

/-- `acl_operations` from a position of its loop on, with the operations collected so far. -/
def aclOperationsFrom : List AclOperation → List String → Result (List AclOperation)
  | operations, [] => .ok operations
  | operations, value :: values => do
    let operation ← aclOperation value
    if operation ∈ operations then aclOperationsFrom operations values
    else aclOperationsFrom (operations ++ [operation]) values

def aclOperations (values : List String) : Result (List AclOperation) :=
  aclOperationsFrom [] values

def normalizedAclValues (values : List String) (label : String) :
    Result (Std.TreeSet String) := do
  let trimmed ← values.mapM fun value =>
    if trim value = "" then Except.error (Error.usage s!"ACL {label} cannot be empty")
    else .ok (trim value)
  return .ofList trimmed

def aclResources (filter : AclFilterArgs) : Result (List (AclResourceType × String)) := do
  let topics ← normalizedAclValues filter.topic "topic"
  let groups ← normalizedAclValues filter.group "group"
  let clusters := if filter.cluster then [(.cluster, "kafka-cluster")] else []
  let transactionalIds ← normalizedAclValues filter.transactionalId "transactional ID"
  failIf (filter.delegationToken ≠ [])
    (.unsupported "librdkafka does not support delegation-token ACL resources")
  return topics.toList.map (.topic, ·) ++ groups.toList.map (.group, ·) ++ clusters ++
    transactionalIds.toList.map (.transactionalId, ·)

def aclWirePattern : AclResourcePattern → AclPatternType
  | .any => .any
  | .literal => .literal
  | .match_ => .match_
  | .prefixed => .prefixed

/-- The host of entries that no `--allow-host` or `--deny-host` is given for. -/
def AclMutationArgs.defaultHost (mutation : AclMutationArgs) : String :=
  mutation.host.elim "*" trim

/-! ## Validation -/

def validateAclEntryValues (mutation : AclMutationArgs) : Result Unit := do
  let _ ← normalizedAclValues mutation.allowPrincipal "allow principal"
  let _ ← normalizedAclValues mutation.denyPrincipal "deny principal"
  let _ ← normalizedAclValues mutation.allowHost "allow host"
  let _ ← normalizedAclValues mutation.denyHost "deny host"
  failIf (mutation.host.any (trim · = "")) (.usage "ACL host cannot be empty")

def aclOperationSupported (resourceType : AclResourceType) (operation : AclOperation) : Bool :=
  match operation with
  | .any | .all => true
  | operation =>
    match resourceType with
    | .any => true
    | .topic =>
      operation ∈ [.read, .write, .create, .delete, .alter, .describe, .describeConfigs,
        .alterConfigs]
    | .group => operation ∈ [.read, .delete, .describe, .describeConfigs, .alterConfigs]
    | .cluster =>
      operation ∈ [.create, .alter, .describe, .clusterAction, .describeConfigs, .alterConfigs,
        .idempotentWrite]
    | .transactionalId => operation ∈ [.write, .describe]

def validateAclResourceOperations : List AclResource → Result Unit
  | [] => .ok ()
  | (resourceType, _, operations) :: resources =>
    match operations.find? fun operation => !aclOperationSupported resourceType operation with
    | some operation =>
        .error (.usage
          s!"ACL resource type {resourceType.debug} does not support operation {operation.debug}")
    | none => validateAclResourceOperations resources

/-! ## Resources of a mutation -/

/-- The operations of the producer and consumer roles on a topic. -/
def roleTopicOperations (producer consumer : Bool) : List AclOperation :=
  let produced := if producer then [.write, .describe, .create] else []
  let consumed := if consumer then [.read, .describe] else []
  produced ++ consumed.filter (· ∉ produced)

/-- The groups of a consumer. -/
def roleGroups (mutation : AclMutationArgs) : Result (List String) :=
  if mutation.consumer then do
    let groups ← normalizedAclValues mutation.filter.group "group"
    failIf groups.isEmpty (.usage "--consumer requires --group")
    return groups.toList
  else return []

/-- The transactional ids of a producer. -/
def roleTransactionalIds (mutation : AclMutationArgs) : Result (List String) :=
  if mutation.producer then do
    let ids ← normalizedAclValues mutation.filter.transactionalId "transactional ID"
    return ids.toList
  else return []

/-- The resources of the producer and consumer roles. -/
def roleResources (mutation : AclMutationArgs) : Result (List AclResource) := do
  failIf (mutation.denyPrincipal ≠ [] ∨ mutation.denyHost ≠ [])
    (.usage "role ACLs only support allow principals and hosts")
  failIf (mutation.consumer ∧ !mutation.producer ∧
      (mutation.filter.cluster ∨ mutation.filter.transactionalId ≠ []))
    (.usage ("--consumer cannot be combined with --cluster or --transactional-id " ++
      "unless --producer is also set"))
  let topics ← normalizedAclValues mutation.filter.topic "topic"
  failIf topics.isEmpty (.usage "--producer and --consumer require --topic")
  let topicOperations := roleTopicOperations mutation.producer mutation.consumer
  let groups ← roleGroups mutation
  let transactionalIds ← roleTransactionalIds mutation
  let clusters := if mutation.idempotent then [(.cluster, "kafka-cluster", [.idempotentWrite])]
    else []
  return topics.toList.map (fun topic => (.topic, topic, topicOperations)) ++
    groups.map (fun group => (.group, group, [.read])) ++
    transactionalIds.map (fun id => (.transactionalId, id, [.write, .describe])) ++ clusters

/-- Ask for the same operations on every resource. -/
def withOperations (operations : List AclOperation) (resources : List (AclResourceType × String)) :
    List AclResource :=
  resources.map fun (resourceType, name) => (resourceType, name, operations)

def aclMutationResources (mutation : AclMutationArgs) (operations : List AclOperation) :
    Result (List AclResource) :=
  if !mutation.producer && !mutation.consumer then do
    let resources ← aclResources mutation.filter
    failIf (resources = []) (.usage "an ACL resource selector is required")
    return withOperations operations resources
  else roleResources mutation

/-! ## Bindings to add -/

/-- The hosts given for a permission, or the default one. -/
def AclMutationArgs.hosts (mutation : AclMutationArgs) (configured : Std.TreeSet String) :
    List String :=
  if configured.isEmpty then [mutation.defaultHost] else configured.toList

/-- The principals of new bindings: those allowed and denied, or else those of `--principal`. -/
def bindingPrincipals (mutation : AclMutationArgs) :
    Result (List (String × AclPermissionType)) := do
  let allowed ← normalizedAclValues mutation.allowPrincipal "allow principal"
  let denied ← normalizedAclValues mutation.denyPrincipal "deny principal"
  let principals := allowed.toList.map (·, AclPermissionType.allow) ++ denied.toList.map (·, .deny)
  if principals = [] then do
    let principals ← normalizedAclValues mutation.filter.principal "principal"
    return principals.toList.map (·, AclPermissionType.allow)
  else return principals

def aclBindings (mutation : AclMutationArgs) (operations : List AclOperation) :
    Result (List AclBinding) := do
  failIf (mutation.filter.resourcePatternType = .any ∨
      mutation.filter.resourcePatternType = .match_)
    (.usage "ACL creation requires literal or prefixed resource pattern type")
  validateAclEntryValues mutation
  let resources ← aclMutationResources mutation operations
  validateAclResourceOperations resources
  let principals ← bindingPrincipals mutation
  failIf (principals = []) (.usage "provide --allow-principal or --deny-principal")
  let allowHosts ← normalizedAclValues mutation.allowHost "allow host"
  let denyHosts ← normalizedAclValues mutation.denyHost "deny host"
  return resources.flatMap fun (resourceType, resourceName, operations) =>
    principals.flatMap fun (principal, permission) =>
      (mutation.hosts (if permission = .allow then allowHosts else denyHosts)).flatMap fun host =>
        operations.map fun operation =>
          { resourceType, resourceName
            patternType := aclWirePattern mutation.filter.resourcePatternType
            principal
            host := trim host
            operation
            permissionType := permission }

/-! ## Filters to remove by -/

def aclRemovalEntries (mutation : AclMutationArgs) : Result (List AclEntry) := do
  let allowPrincipals ← normalizedAclValues mutation.allowPrincipal "allow principal"
  let denyPrincipals ← normalizedAclValues mutation.denyPrincipal "deny principal"
  let allowHosts ← normalizedAclValues mutation.allowHost "allow host"
  let denyHosts ← normalizedAclValues mutation.denyHost "deny host"
  let allowed := allowPrincipals.toList.flatMap fun principal =>
    (mutation.hosts allowHosts).map fun host => (principal, host, AclPermissionType.allow)
  let denied := denyPrincipals.toList.flatMap fun principal =>
    (mutation.hosts denyHosts).map fun host => (principal, host, AclPermissionType.deny)
  return allowed ++ denied

/-- The entries of a removal: those of the allowed and denied principals, or else those of
`--principal`, which is matched with any permission. -/
def removalFilterEntries (mutation : AclMutationArgs) : Result (List AclEntry) := do
  let entries ← aclRemovalEntries mutation
  if entries = [] then do
    let principals ← normalizedAclValues mutation.filter.principal "principal"
    return principals.toList.map fun principal =>
      (principal, mutation.defaultHost, AclPermissionType.any)
  else return entries

/-- The resources of a removal; without a selector, all of them. -/
def removalResources (mutation : AclMutationArgs) (operations : List AclOperation) :
    Result (List AclResource) :=
  if mutation.producer || mutation.consumer then aclMutationResources mutation operations
  else do
    let resources ← aclResources mutation.filter
    return if resources = [] then [(.any, "", operations)] else withOperations operations resources

def aclRemovalFilters (mutation : AclMutationArgs) (operations : List AclOperation) :
    Result (List AclBindingFilter) := do
  validateAclEntryValues mutation
  let resources ← removalResources mutation operations
  let entries ← removalFilterEntries mutation
  if entries ≠ [] then validateAclResourceOperations resources else pure ()
  let patternType := aclWirePattern mutation.filter.resourcePatternType
  return resources.flatMap fun (resourceType, resourceName, operations) =>
    let resourceName := if resourceName = "" then none else some resourceName
    if entries = [] then
      [{ resourceType, resourceName, patternType
         principal := none
         host := none
         operation := .any
         permissionType := .any }]
    else
      entries.flatMap fun (principal, host, permission) =>
        (if operations = [] then [.all] else operations).map fun operation =>
          { resourceType, resourceName, patternType
            principal := some principal
            host := some host
            operation
            permissionType := permission }

/-! ## The two commands -/

/-- The operations to add: all of them where no operation and no role is given. -/
def addOperations (mutation : AclMutationArgs) : Result (List AclOperation) :=
  if mutation.operation = [] ∧ !mutation.producer ∧ !mutation.consumer then .ok [.all]
  else aclOperations mutation.operation

/-- The bindings that `acls add` asks the broker to create. -/
def aclsAdd (mutation : AclMutationArgs) : Result (List AclBinding) := do
  let operations ← addOperations mutation
  aclBindings mutation operations

/-- The filters by which `acls remove` asks the broker to delete. -/
def aclsRemove (mutation : AclMutationArgs) : Result (List AclBindingFilter) := do
  let operations ← aclOperations mutation.operation
  aclRemovalFilters mutation operations

/-- What the broker deletes for a filter. -/
def AclBindingFilter.Matches (filter : AclBindingFilter) (binding : AclBinding) : Prop :=
  (filter.resourceType = .any ∨ filter.resourceType = binding.resourceType) ∧
  (∀ name, filter.resourceName = some name → name = binding.resourceName) ∧
  (filter.patternType = .any ∨ filter.patternType = binding.patternType) ∧
  (∀ principal, filter.principal = some principal → principal = binding.principal) ∧
  (∀ host, filter.host = some host → host = binding.host) ∧
  (filter.operation = .any ∨ filter.operation = binding.operation) ∧
  (filter.permissionType = .any ∨ filter.permissionType = binding.permissionType)

end KafkaCli.Acl
