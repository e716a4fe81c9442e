import KafkaCli.Config.Entities
import KafkaCli.Config.Scram
import KafkaCli.Groups.Calls

/-!
# Altering configs

`configs alter` sends a change of quotas, of the credentials of a user, or of the configs of one
resource. Which one it is depends on the kinds of the entities and on the names of the configs.
Broker loggers, client metrics and the default broker go by a request of its own to one broker;
the other resources by the library.
-/

namespace KafkaCli.Config

open Checked Run Session Text
open Groups (MutationRow durationMs checkNul)

/-! ## Data -/

/-- One part of the name of a quota: its kind, and its name unless it is the default. -/
abbrev QuotaComponent := String × Option String

structure QuotaEntry where
  entity : List QuotaComponent
  values : List (String × Float)

structure DescribeClientQuotasResult where
  error : Option String
  entries : List QuotaEntry

/-- `krafka::admin::QuotaAlteration`. An operation without a value deletes. -/
structure QuotaAlteration where
  entity : List QuotaComponent
  ops : List (String × Option Float)

structure QuotaAlterationResult where
  entity : List QuotaComponent
  error : Option String

structure ClusterBroker where
  brokerId : Int
  host : String
  port : Int

structure ClusterInfo where
  controllerId : Int
  brokers : List ClusterBroker

inductive ConfigResourceType
  | topic | broker | group | unknown
  deriving DecidableEq, Repr

inductive ProtocolConfigResourceType
  | broker | brokerLogger | clientMetrics
  deriving DecidableEq, Repr

inductive AlterConfigOp
  | set | delete
  deriving DecidableEq, Repr

structure AlterableConfig where
  name : String
  configOperation : AlterConfigOp
  value : Option String
  deriving DecidableEq, Repr

/-- What became of a resource; an error code is given by its name. -/
structure AlterConfigsResult where
  resourceName : String
  errorCode : Option String
  errorMessage : Option String
  deriving DecidableEq, Repr

structure ConfigChangeRow where
  operation : String
  name : String
  value : Option String
  deriving DecidableEq, Repr

inductive Output
  | configChanges (command : String) (rows : List ConfigChangeRow)
  | mutationRows (command : String) (rows : List MutationRow)

/-! ## Calls -/

inductive Call
  | protocolAdmin
  | createAdmin
  | describeClientQuotas (filters : List (String × Int × Option String))
  | alterClientQuotas (alteration : QuotaAlteration)
  | alterUserScramCredentials (user : String) (changes : List ScramCredentialAlteration)
      (timeoutMs : Int)
  | describeCluster
  | connect (brokerId : Int) (address : String)
  | negotiateIncrementalAlterConfigs
  | incrementalAlterConfigs (resource : ProtocolConfigResourceType) (name : String)
      (configs : List AlterableConfig)
  | incrementalAlterConfig (resource : ConfigResourceType) (name : String)
      (entries : List (String × String)) (deletes : List String) (timeoutMs : Int)
  | print (output : Output)

/-- What comes back for a call. -/
@[reducible] def Reply : Call → Type
  | .describeClientQuotas _ => DescribeClientQuotasResult
  | .alterClientQuotas _ => List QuotaAlterationResult
  | .describeCluster => ClusterInfo
  | .negotiateIncrementalAlterConfigs => Option Int
  | .incrementalAlterConfigs _ _ _ => List AlterConfigsResult
  | .protocolAdmin | .createAdmin | .alterUserScramCredentials _ _ _ | .connect _ _
  | .incrementalAlterConfig _ _ _ _ _ | .print _ => Unit

/-- A call changes something in the cluster. -/
def Call.mutating : Call → Bool
  | .alterClientQuotas _ | .alterUserScramCredentials _ _ _ | .incrementalAlterConfigs _ _ _
  | .incrementalAlterConfig _ _ _ _ _ => true
  | _ => false

/-- What a command runs against. -/
structure Host where
  /-- The client libraries, with the cluster behind them, and the terminal. -/
  answer : Server Reply Error
  /-- The addresses that a name resolves to. -/
  addresses : String → Option (List String)
  /-- The properties of a file. -/
  loadProperties : String → Result (Std.TreeMap String String)
  /-- A number as Rust reads it. -/
  parseF64 : String → Option Float

abbrev Command := Client Reply Error

structure AlterArgs where
  entity : ConfigEntityArgs
  add : List String
  addFile : Option String
  delete : List String
  execute : Bool

/-! ## Checks -/

/-- `normalize_config_deletions`. -/
def normalizeConfigDeletions (delete : List String) : List String := delete.map trim

def keyByte (byte : UInt8) : Bool :=
  (Char.ofNat byte.toNat).isAlphanum || byte ∈ [36, 46, 95, 45]

/-- `validate_config_keys`. -/
def validateConfigKeys (add : List (String × String)) : Result Unit :=
  add.forM fun (key, _) => failIf ((encodeUtf8 key).all keyByte = false)
    (.usage s!"invalid character found in config key: {key}")

def isScram (key : String) : Bool := startsWith (toAsciiUppercase key) "SCRAM-SHA-"

/-- `only_scram_changes`. -/
def onlyScramChanges (add : List (String × String)) (delete : List String) : Bool :=
  (add.map Prod.fst ++ delete).all isScram

def quotaNames : List String :=
  ["producer_byte_rate", "consumer_byte_rate", "request_percentage", "controller_mutation_rate",
    "connection_creation_rate"]

/-- `validate_quota_change_names`. -/
def validateQuotaChangeNames (types : List ConfigEntityType) (add : List (String × String))
    (delete : List String) : Result Unit :=
  if ¬ QuotaEntityTypes types then .ok () else do
    let keys := add.map Prod.fst ++ delete
    let scram := keys.filter isScram
    let quota := keys.filter fun key => !isScram key && key ∈ quotaNames
    let unknown := keys.filter fun key => !isScram key && key ∉ quotaNames
    let names := ",".intercalate unknown
    failIf (unknown ≠ []) (.usage s!"unexpected quota config name(s): {names}")
    failIf (.ip ∈ types ∧ ∃ key ∈ quota, key ≠ "connection_creation_rate")
      (.usage "IP entities only support connection_creation_rate")
    failIf (.ip ∉ types ∧ "connection_creation_rate" ∈ quota)
      (.usage "connection_creation_rate is only valid for IP entities")
    failIf ((scram ≠ [] ∧ types ≠ [.user]) ∨ (scram ≠ [] ∧ quota ≠ [])) (.usage
      "SCRAM credentials require a single named user and cannot be altered with quota configs")

/-! ## Previews -/

def changeRows (add : List (String × String)) (delete : List String) : List ConfigChangeRow :=
  (add.map fun (key, value) => { operation := "SET", name := key, value := some value }) ++
    delete.map fun key => { operation := "DELETE", name := key, value := none }

variable (host : Host)

def Host.ask (call : Call) : Command (Reply call) := Session.ask host.answer call

/-- `config_change_preview`. -/
def configChangePreview (outputCommand : String) (add : List (String × String))
    (delete : List String) : Command Unit :=
  host.ask (.print (.configChanges outputCommand (changeRows add delete)))

/-- Print the rows, and fail where one of them has an error. -/
def writeResultRows (outputCommand : String) (rows : List MutationRow) : Command Unit := do
  let failures := (rows.filter (·.error.isSome)).length
  host.ask (.print (.mutationRows outputCommand rows))
  ofExcept (failIf (failures ≠ 0) (.partialFailure failures rows.length))

/-! ## Quotas -/

/-- `quota_entity_label`. -/
def quotaEntityLabel (components : List QuotaComponent) : String :=
  let values := components.map fun (kind, name) => kind ++ "=" ++ name.getD "<default>"
  ",".intercalate (values.mergeSort (· ≤ ·))

/-- The value of a quota, which must be a finite number. -/
def parseQuota (key value : String) : Result (String × Option Float) :=
  match host.parseF64 value with
  | none => .error (.usage s!"cannot parse quota configuration value for {key}: {value}")
  | some rate =>
    if rate.isFinite then .ok (key, some rate)
    else .error (.usage s!"quota value for {key} must be finite")

def quotaResultRow (result : QuotaAlterationResult) : MutationRow where
  resource := quotaEntityLabel result.entity
  status := if result.error.isSome then "FAILED" else "ALTERED"
  error := result.error

/-- The configs that are to be deleted and are not there. -/
def missingQuotas (existing : DescribeClientQuotasResult) (delete : List String) : List String :=
  delete.filter fun key => key ∉ existing.entries.flatMap fun entry => entry.values.map Prod.fst

/-- `alter_quota_configs`, once the request is known. -/
def sendQuotaConfigs (alteration : QuotaAlteration) (delete : List String) : Command Unit := do
  host.ask .protocolAdmin
  let existing : DescribeClientQuotasResult ← host.ask (.describeClientQuotas
    (alteration.entity.map fun (kind, name) => (kind, if name.isNone then 1 else 0, name)))
  ofExcept (existing.error.elim (.ok ()) fun error => .error (.config error))
  let missing := missingQuotas existing delete
  let names := ",".intercalate missing
  ofExcept (failIf (missing ≠ []) (.config s!"invalid quota config(s): {names}"))
  let results : List QuotaAlterationResult ← host.ask (.alterClientQuotas alteration)
  writeResultRows host "configs.alter-quota" (results.map quotaResultRow)

/-- `alter_quota_configs`. -/
def alterQuotaConfigs (resolved : ResolvedConfigEntities) (add : List (String × String))
    (delete : List String) (execute : Bool) : Command Unit := do
  let entities ← ofExcept
    (quotaEntities resolved.types resolved.names resolved.entityDefault true)
  let parsed ← ofExcept (add.mapM fun (key, value) => parseQuota host key value)
  if execute then
    sendQuotaConfigs host
      { entity := entities, ops := parsed ++ delete.map fun key => (key, none) } delete
  else configChangePreview host "configs.alter.preview" add delete

/-! ## Credentials -/

def scramRow (user : String) (execute : Bool) : ScramCredentialAlteration → MutationRow
  | .upsert mechanism iterations _ =>
    { resource := s!"{user}:{mechanism.name}"
      status := if execute then s!"UPSERTED ({iterations} iterations)"
        else s!"PREVIEW UPSERT ({iterations} iterations)"
      error := none }
  | .delete mechanism =>
    { resource := s!"{user}:{mechanism.name}"
      status := if execute then "DELETED" else "PREVIEW DELETE"
      error := none }

def sendUserScram (timeout : Nat) (user : String) (changes : List ScramCredentialAlteration) :
    Command Unit := do
  host.ask .createAdmin
  let timeoutMs ← ofExcept (durationMs timeout)
  ofExcept (checkNul user "SCRAM user contains a NUL byte")
  host.ask (.alterUserScramCredentials user changes timeoutMs)

/-- `alter_user_scram`. -/
def alterUserScram (timeout : Nat) (user : String) (add : List (String × String))
    (delete : List String) (execute : Bool) : Command Unit := do
  let changes ← ofExcept (parseScramChanges add delete)
  if execute then sendUserScram host timeout user changes else pure ()
  host.ask (.print (.mutationRows "configs.alter.scram" (changes.map (scramRow user execute))))

/-! ## Resources -/

/-- `protocol_config_resource_type`. -/
def protocolConfigResourceType : ConfigEntityType → Option ProtocolConfigResourceType
  | .broker => some .broker
  | .brokerLogger => some .brokerLogger
  | .clientMetrics => some .clientMetrics
  | _ => none

/-- `native_resource_type`. -/
def nativeResourceType : ConfigEntityType → ConfigResourceType
  | .topic => .topic
  | .broker => .broker
  | .group => .group
  | .user | .client | .ip | .brokerLogger | .clientMetrics => .unknown

/-- The broker that a request is for. -/
def configBrokerId (kind : ConfigEntityType) (name : String) (cluster : ClusterInfo) :
    Result Int :=
  if kind = .brokerLogger ∨ (kind = .broker ∧ name ≠ "") then
    (Decimal.parseI32 name).mapError fun _ =>
      .usage "broker-logger entity name must be a broker ID"
  else .ok cluster.controllerId

def describedBroker (cluster : ClusterInfo) (brokerId : Int) : Result ClusterBroker :=
  (cluster.brokers.find? (·.brokerId = brokerId)).elim
    (.error (.usage s!"broker {brokerId} was not described")) .ok

/-- `protocol_config_broker`. -/
def protocolConfigBroker (kind : ConfigEntityType) (name : String) :
    Command (Int × String) := do
  let cluster : ClusterInfo ← host.ask .describeCluster
  let brokerId ← ofExcept (configBrokerId kind name cluster)
  let broker ← ofExcept (describedBroker cluster brokerId)
  return (brokerId, s!"{broker.host}:{broker.port}")

def alterableConfigs (add : List (String × String)) (delete : List String) :
    List AlterableConfig :=
  (add.map fun (key, value) => { name := key, configOperation := .set, value := some value }) ++
    delete.map fun key => { name := key, configOperation := .delete, value := none }

def resourceResultRow (kind : ConfigEntityType) (result : AlterConfigsResult) : MutationRow where
  resource := configEntityTypeName kind ++ ":" ++ result.resourceName
  status := if result.errorCode.isNone then "ALTERED" else "FAILED"
  error := result.errorCode.map fun code => result.errorMessage.getD code

/-- `alter_protocol_config`. -/
def alterProtocolConfig (outputCommand : String) (kind : ConfigEntityType) (name : String)
    (add : List (String × String)) (delete : List String) : Command Unit := do
  let resourceType ← ofExcept ((protocolConfigResourceType kind).elim
    (.error (.usage "invalid protocol config resource")) .ok)
  host.ask .protocolAdmin
  let (brokerId, address) ← protocolConfigBroker host kind name
  host.ask (.connect brokerId address)
  let version : Option Int ← host.ask .negotiateIncrementalAlterConfigs
  ofExcept (failIf version.isNone
    (.unsupported "broker does not support IncrementalAlterConfigs"))
  let results : List AlterConfigsResult ←
    host.ask (.incrementalAlterConfigs resourceType name (alterableConfigs add delete))
  writeResultRows host outputCommand (results.map (resourceResultRow kind))

/-- The texts of a change, each of which is handed to C. -/
def checkConfigTexts (name : String) (entries : List (String × String)) (deletes : List String) :
    Result Unit := do
  checkNul name "resource name contains a NUL byte"
  entries.forM fun (key, value) => do
    checkNul key "config key contains a NUL byte"
    checkNul value "config value contains a NUL byte"
  deletes.forM fun key => checkNul key "config key contains a NUL byte"

/-- `incremental_alter_config`, with the client that it needs. -/
def alterNativeConfig (timeout : Nat) (kind : ConfigEntityType) (name : String)
    (add : List (String × String)) (delete : List String) : Command Unit := do
  host.ask .createAdmin
  let timeoutMs ← ofExcept (durationMs timeout)
  ofExcept (checkConfigTexts name add delete)
  host.ask (.incrementalAlterConfig (nativeResourceType kind) name add delete timeoutMs)

/-- The name of a resource that is altered. -/
def requireName (name : Option String) (message : String) : Result String :=
  name.elim (.error (.usage message)) .ok

/-- The alteration of one resource. -/
def alterResource (timeout : Nat) (kind : ConfigEntityType) (name : Option String)
    (add : List (String × String)) (delete : List String) : Command Unit :=
  let message := "resource alteration requires --entity-name"
  if (protocolConfigResourceType kind).isSome ∧ (kind ≠ .broker ∨ name = some "") then do
    let name ← ofExcept (requireName name message)
    alterProtocolConfig host "configs.alter" kind name add delete
  else do
    let name ← ofExcept (requireName name message)
    alterNativeConfig host timeout kind name add delete

/-! ## The command -/

/-- What is to be set: the properties of a file, or the arguments. -/
def additions (args : AlterArgs) : Result (List (String × String)) :=
  match args.addFile with
  | some path => do
    let properties ← host.loadProperties path
    return properties.toList
  | none => parseConfigAdditions args.add

/-- What is to be set and to be deleted, for which entities. -/
structure ConfigChange where
  resolved : ResolvedConfigEntities
  add : List (String × String)
  delete : List String

/-- `configs alter`, until it knows what to change. -/
def configChange (args : AlterArgs) : Result ConfigChange := do
  let resolved ← resolveConfigEntities args.entity
  let delete := normalizeConfigDeletions args.delete
  let add ← additions host args
  failIf (add = [] ∧ delete = [])
    (.usage "provide --add-config, --add-config-file, or --delete-config")
  validateConfigEntityTypes resolved.types
  validateConfigEntityNames host.addresses resolved.types resolved.names true
    resolved.embeddedDefaults
  validateConfigKeys add
  validateQuotaChangeNames resolved.types add delete
  return { resolved, add, delete }

/-- `configs alter`, of the entities that are no quotas. -/
def alterSingleResource (timeout : Nat) (change : ConfigChange) (execute : Bool) :
    Command Unit := do
  let (kind, name) ← ofExcept (singleResourceEntity change.resolved.types change.resolved.names
    change.resolved.entityDefault true)
  if kind = .user then
    let user ← ofExcept (requireName name "SCRAM alteration requires --entity-name")
    alterUserScram host timeout user change.add change.delete execute
  else if execute then alterResource host timeout kind name change.add change.delete
  else configChangePreview host "configs.alter.preview" change.add change.delete

/-- `configs alter`. -/
def configsAlter (timeout : Nat) (args : AlterArgs) : Command Unit := do
  let change ← ofExcept (configChange host args)
  if QuotaEntityTypes change.resolved.types ∧ ¬ onlyScramChanges change.add change.delete then
    alterQuotaConfigs host change.resolved change.add change.delete args.execute
  else alterSingleResource host timeout change args.execute

end KafkaCli.Config
