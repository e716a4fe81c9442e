import KafkaCli.Error
import KafkaCli.Lib.Checked
import KafkaCli.Lib.Decimal
import Mathlib.Data.Finset.Card

/-!
# Config entities

How `configs` reads its entity flags: `resolve_config_entities` turns the flags into a list of
kinds and a list of names, two functions validate them, and `quota_entities` or
`single_resource_entity` gives what is sent to the cluster.

A default entity has no name. On the way it is marked by an empty name, or by `entityDefault`
with no names at all.
-/

namespace KafkaCli.Config

open Checked

inductive ConfigEntityType
  | topic
  | broker
  | group
  | user
  | client
  | ip
  | brokerLogger
  | clientMetrics
  deriving DecidableEq, Repr

/-- The entity flags, as they were given. -/
structure ConfigEntityArgs where
  entityType : List ConfigEntityType := []
  entityName : List String := []
  entityDefault : Bool := false
  topic : Option String := none
  client : Option String := none
  user : Option String := none
  broker : Option String := none
  brokerLogger : Option String := none
  ip : Option String := none
  clientMetrics : Option String := none
  group : Option String := none
  clientDefaults : Bool := false
  userDefaults : Bool := false
  brokerDefaults : Bool := false
  ipDefaults : Bool := false
  deriving DecidableEq, Repr

structure ResolvedConfigEntities where
  types : List ConfigEntityType
  names : List String
  entityDefault : Bool
  embeddedDefaults : Bool
  deriving DecidableEq, Repr

/-! ## Resolving the flags -/

/-- One of the flags that fit all kinds. -/
def ConfigEntityArgs.Generic (entity : ConfigEntityArgs) : Prop :=
  entity.entityType ≠ [] ∨ entity.entityName ≠ [] ∨ entity.entityDefault = true

/-- One of the flags of a single kind. -/
def ConfigEntityArgs.Specific (entity : ConfigEntityArgs) : Prop :=
  entity.topic.isSome ∨ entity.client.isSome ∨ entity.user.isSome ∨ entity.broker.isSome ∨
    entity.brokerLogger.isSome ∨ entity.ip.isSome ∨ entity.clientMetrics.isSome ∨
    entity.group.isSome ∨ entity.clientDefaults ∨ entity.userDefaults ∨ entity.brokerDefaults ∨
    entity.ipDefaults

instance (entity : ConfigEntityArgs) : Decidable entity.Generic :=
  inferInstanceAs (Decidable (_ ∨ _ ∨ _))

instance (entity : ConfigEntityArgs) : Decidable entity.Specific :=
  inferInstanceAs (Decidable (_ ∨ _))

/-- The kinds that were named by a flag of their own. -/
def ConfigEntityArgs.named (entity : ConfigEntityArgs) : List (ConfigEntityType × String) :=
  [(.topic, entity.topic), (.client, entity.client), (.user, entity.user),
   (.broker, entity.broker), (.brokerLogger, entity.brokerLogger), (.ip, entity.ip),
   (.clientMetrics, entity.clientMetrics), (.group, entity.group)].filterMap
    fun (kind, name) => name.map fun name => (kind, name)

/-- The kinds whose default was asked for by a flag of their own. -/
def ConfigEntityArgs.defaults (entity : ConfigEntityArgs) : List (ConfigEntityType × String) :=
  [(.client, entity.clientDefaults), (.user, entity.userDefaults),
   (.broker, entity.brokerDefaults), (.ip, entity.ipDefaults)].filterMap
    fun (kind, selected) => if selected then some (kind, "") else none

/-- What the flags of single kinds select. A default is an empty name. -/
def ConfigEntityArgs.selections (entity : ConfigEntityArgs) : List (ConfigEntityType × String) :=
  entity.named ++ entity.defaults

/-- One selection, of a default. -/
def OnlyDefault (selections : List (ConfigEntityType × String)) : Prop :=
  selections.length = 1 ∧ ∀ selection ∈ selections, selection.2 = ""

instance (selections : List (ConfigEntityType × String)) : Decidable (OnlyDefault selections) :=
  inferInstanceAs (Decidable (_ ∧ _))

/-- `resolve_config_entities`. -/
def resolveConfigEntities (entity : ConfigEntityArgs) : Result ResolvedConfigEntities := do
  failIf (entity.Generic ∧ entity.Specific) (.usage
    "--entity-\x7btype,name,default\x7d cannot be combined with specific entity flags")
  if entity.Generic then
    failIf (entity.entityType = []) (.usage "at least one --entity-type must be specified")
    return { types := entity.entityType, names := entity.entityName
             entityDefault := entity.entityDefault, embeddedDefaults := false }
  else
    let selections := entity.selections
    failIf (selections = []) (.usage "at least one entity must be specified")
    let onlyDefault := OnlyDefault selections
    return { types := selections.map Prod.fst
             names := if onlyDefault then [] else selections.map Prod.snd
             entityDefault := onlyDefault, embeddedDefaults := ¬ onlyDefault }

/-! ## Validation -/

/-- `validate_config_entity_types`. -/
def validateConfigEntityTypes (types : List ConfigEntityType) : Result Unit := do
  failIf (types.toFinset.card ≠ types.length) (.usage "duplicate --entity-type values")
  failIf (types.length > 1 ∧ types.toFinset ≠ {.user, .client})
    (.usage "only users and clients may be specified together")

/-- `config_entity_type_name`. -/
def configEntityTypeName : ConfigEntityType → String
  | .topic => "topics"
  | .broker => "brokers"
  | .group => "groups"
  | .user => "users"
  | .client => "clients"
  | .ip => "ips"
  | .brokerLogger => "broker-loggers"
  | .clientMetrics => "client-metrics"

/-- A broker is named by its id. -/
def validateBrokerName (kind : ConfigEntityType) (name : String) : Result Unit :=
  match Decimal.parseI32 name with
  | .ok _ => .ok ()
  | .error _ => .error (.usage ("the entity name for " ++ configEntityTypeName kind ++
      " must be a valid integer broker ID: " ++ name))

/-- An address is a name that resolves to something. -/
def validateIpName (addresses : String → Option (List String)) (name : String) : Result Unit :=
  let invalid :=
    Error.usage ("the entity name for ips must be a valid IP or resolvable host: " ++ name)
  match addresses name with
  | none => .error invalid
  | some [] => .error invalid
  | some (_ :: _) => .ok ()

/-- `validate_config_entity_names`, given the addresses that names resolve to. -/
def validateConfigEntityNames (addresses : String → Option (List String))
    (types : List ConfigEntityType) (names : List String) (altering embeddedDefaults : Bool) :
    Result Unit := do
  failIf (¬ altering ∧ types = [.brokerLogger] ∧ names = [])
    (.usage "broker-logger describe requires --entity-name")
  failIf (altering ∧ ¬ embeddedDefaults ∧ "" ∈ names)
    (.usage "--entity-name cannot be empty with --alter; use --entity-default")
  match types with
  | [.broker] => names.forM (validateBrokerName .broker)
  | [.brokerLogger] => names.forM (validateBrokerName .brokerLogger)
  | [.ip] => (names.filter (· ≠ "")).forM (validateIpName addresses)
  | _ => return ()

/-! ## What is sent -/

/-- `single_resource_entity`. -/
def singleResourceEntity (types : List ConfigEntityType) (names : List String)
    (entityDefault requireName : Bool) : Result (ConfigEntityType × Option String) :=
  match types with
  | [kind] =>
    if entityDefault then
      if kind = .broker then .ok (kind, some "")
      else .error (.usage "--entity-default is only valid for quota entities and brokers")
    else if names.length > 1 ∨ (requireName ∧ names.length ≠ 1) then
      .error (.usage "specify exactly one --entity-name for this resource type")
    else .ok (kind, names.head?)
  | _ => .error (.usage
      "multiple --entity-type values are only valid for user/client quota entities")

/-- `quota_entity_name`. -/
def quotaEntityName : ConfigEntityType → Option String
  | .user => some "user"
  | .client => some "client-id"
  | .ip => some "ip"
  | _ => none

/-- `quota_entity_types`. -/
def QuotaEntityTypes (types : List ConfigEntityType) : Prop :=
  types ≠ [] ∧ ∀ kind ∈ types, kind = .user ∨ kind = .client ∨ kind = .ip

instance (types : List ConfigEntityType) : Decidable (QuotaEntityTypes types) :=
  inferInstanceAs (Decidable (_ ∧ _))

/-- The name of a quota kind, with the name of an entity; an empty one is the default. -/
def quotaEntity (kind : ConfigEntityType) (name : Option String) :
    Result (String × Option String) :=
  match quotaEntityName kind with
  | some label => .ok (label, name.bind fun name => if name ≠ "" then some name else none)
  | none => .error (.usage "invalid quota type")

/-- `quota_entities`. -/
def quotaEntities (types : List ConfigEntityType) (names : List String)
    (entityDefault requireNames : Bool) : Result (List (String × Option String)) := do
  failIf (¬ QuotaEntityTypes types) (.usage "quota entities must be users, clients, or ips")
  failIf (types.toFinset.card ≠ types.length) (.usage "duplicate --entity-type values")
  if entityDefault then
    match types, names with
    | [kind], [] =>
      let entity ← quotaEntity kind none
      return [entity]
    | _, _ => .error (.usage
        "--entity-default requires exactly one entity type and no entity name")
  else
    failIf (requireNames ∧ names.length ≠ types.length) (.usage
      "exactly one --entity-name is required for every --entity-type")
    failIf (names ≠ [] ∧ names.length ≠ types.length) (.usage
      "exactly one --entity-name must be specified for every --entity-type")
    types.zipIdx.mapM fun (kind, index) => quotaEntity kind names[index]?

end KafkaCli.Config
