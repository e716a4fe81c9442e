import KafkaCli.Storage.MetaProperties
import KafkaCli.Storage.Properties
import Std.Data.TreeMap.Lemmas
import Std.Data.TreeSet.Lemmas

/-!
# The controller of a configuration

`controller_from_properties` reads what the command that adds a controller needs: the id of the
node, the id of its metadata directory, and its listeners. It meets the storage tool twice.

* `directoryId_not_read_back` — the directory id that the storage tool writes is never accepted,
  so that no controller is found in a directory that it formatted (`no_controller_of_formatted`).
* `metadata_directory_agrees_iff` — when both take the same directory for the one of the
  metadata log.
-/

namespace KafkaCli.Storage

open Checked Decimal Text

/-! ## Listeners -/

structure ControllerEndpoint where
  name : String
  host : String
  port : Nat
  deriving DecidableEq, Repr

def parseControllerEndpoint (value : String) : Result ControllerEndpoint :=
  match splitOnceText value "://" with
  | none => .error (.config s!"invalid controller listener: {value}")
  | some (name, address) =>
    match rsplitOnce address ':' with
    | none => .error (.config s!"controller listener has no port: {value}")
    | some (host, port) =>
      let host := trimMatches host ['[', ']']
      match parseU16 port with
      | .error error => .error (.config s!"invalid controller listener port: {error.text}")
      | .ok port =>
        .ok { name := toAsciiUppercase name, host := if host = "" then "localhost" else host, port }

/-- The listeners of a configuration by their names. Advertised ones replace those of the same
name. -/
def controllerListeners (props : Properties) :
    Result (Std.TreeMap String ControllerEndpoint) :=
  let values := ["listeners", "advertised.listeners"].flatMap fun key =>
    (props key).elim [] (split · ',')
  values.foldlM (fun listeners value => do
    let endpoint ← parseControllerEndpoint (trim value)
    return listeners.insert endpoint.name endpoint) ∅

/-! ## The controller -/

/-- The metadata directory of a configuration, as `controller_from_properties` finds it. -/
def controllerMetadataDirectory (props : Properties) : Result String :=
  match (props "metadata.log.dir").or
      ((props "log.dirs").bind fun dirs => (split dirs ',').head?.map trim) with
  | some directory => .ok directory
  | none => .error (.config "neither metadata.log.dir nor log.dirs was found")

def required (value : Option String) (message : String) : Result String :=
  value.elim (.error (.config message)) .ok

/-- The controller of a configuration; `loadProperties` reads a properties file. -/
def controllerFromProperties (engine : Base64.Engine)
    (loadProperties : String → Result Properties) (path : String) :
    Result (Int × Uuid × List ControllerEndpoint) := do
  let props ← loadProperties path
  let nodeId ← required (props "node.id") "node.id not found in controller configuration"
  let controllerId ← (parseI32 nodeId).mapError fun error =>
    Error.config s!"invalid node.id: {error.text}"
  failIf (controllerId < 0) (.config "node.id was negative")
  failIf (¬ (props "process.roles").any fun roles =>
      (split roles ',').any fun role => trim role = "controller")
    (.config "process.roles did not contain controller")
  let metadataDirectory ← controllerMetadataDirectory props
  let metaProperties ← loadProperties (joinPath metadataDirectory "meta.properties")
  let idText ← required (metaProperties "directory.id") "directory.id not found in meta.properties"
  let directoryId ← parseKafkaUuid engine idText "directory.id"
  let names ← required (props "controller.listener.names") "controller.listener.names was not found"
  let listenerNames : Std.TreeSet String :=
    .ofList ((split names ',').map fun name => toAsciiUppercase (trim name))
  let listeners ← controllerListeners props
  let endpoints ← listenerNames.toList.mapM fun name =>
    match listeners[name]? with
    | some endpoint => .ok endpoint
    | none => .error (.config s!"cannot find controller listener information for {name}")
  return (controllerId, directoryId, endpoints)

theorem required_eq_ok {value : Option String} {message found : String} :
    required value message = .ok found ↔ value = some found := by
  cases value with
  | none => simp [required]
  | some text => simp [required]

/-- A controller that is found has the directory id that its metadata directory holds. -/
theorem controllerFromProperties_ok {engine : Base64.Engine}
    {loadProperties : String → Result Properties} {path : String}
    {controller : Int × Uuid × List ControllerEndpoint}
    (h : controllerFromProperties engine loadProperties path = .ok controller) :
    ∃ props directory metaProperties idText, loadProperties path = .ok props ∧
      controllerMetadataDirectory props = .ok directory ∧
      loadProperties (joinPath directory "meta.properties") = .ok metaProperties ∧
      metaProperties "directory.id" = some idText ∧
      parseKafkaUuid engine idText "directory.id" = .ok controller.2.1 := by
  unfold controllerFromProperties at h
  simp only [bind_eq_ok, required_eq_ok, pure_eq_ok] at h
  obtain ⟨props, hload, _, _, _, _, _, _, _, _, directory, hdirectory, metaProperties, hmeta,
    idText, hid, directoryId, hparse, _, _, _, _, _, _, rfl⟩ := h
  exact ⟨props, directory, metaProperties, idText, hload, hdirectory, hmeta, hid, hparse⟩

/-! ## The directory id -/

/-- The id of a new directory survives the file that it is written to: a reader of properties
finds a value that is parsed as the id. -/
def ReadsBack (engine : Base64.Engine) (read : String → Result Properties) (clusterId : String)
    (nodeId : Int) (id : Uuid) : Prop :=
  ∃ properties value, read (metaText (formattedMeta clusterId nodeId id)) = .ok properties ∧
    properties "directory.id" = some value ∧
    parseKafkaUuid engine value "directory.id" = .ok id

/-- **The directory id.** The file that is written for a new directory holds its id in a form
that is never read back, whatever the id is. -/
theorem directoryId_not_read_back (engine : Base64.Engine) (read : String → Result Properties)
    (clusterId : String) (nodeId : Int) (id : Uuid)
    (hread : ∀ properties, read (metaText (formattedMeta clusterId nodeId id)) = .ok properties →
      properties "directory.id" = (formattedMeta clusterId nodeId id).directoryId) :
    ¬ ReadsBack engine read clusterId nodeId id := by
  intro ⟨properties, value, hproperties, hsome, hparse⟩
  have heq : id.hyphenated = value := Option.some.inj ((hread _ hproperties).symm.trans hsome)
  subst heq
  exact parseKafkaUuid_hyphenated engine id id "directory.id" hparse

/-- No controller is found whose metadata directory the storage tool has formatted. -/
theorem no_controller_of_formatted {engine : Base64.Engine}
    {loadProperties : String → Result Properties} {path directory : String}
    {props metaProperties : Properties} {id : Uuid} (hload : loadProperties path = .ok props)
    (hdirectory : controllerMetadataDirectory props = .ok directory)
    (hmeta : loadProperties (joinPath directory "meta.properties") = .ok metaProperties)
    (hid : metaProperties "directory.id" = some id.hyphenated)
    (controller : Int × Uuid × List ControllerEndpoint) :
    controllerFromProperties engine loadProperties path ≠ .ok controller := by
  intro h
  obtain ⟨_, _, _, _, hload', hdirectory', hmeta', hid', hparse⟩ := controllerFromProperties_ok h
  cases hload.symm.trans hload'
  cases hdirectory.symm.trans hdirectory'
  cases hmeta.symm.trans hmeta'
  cases hid.symm.trans hid'
  exact parseKafkaUuid_hyphenated engine id _ "directory.id" hparse

/-- The properties of a file with plain lines: no escapes, no continued lines. -/
def plainProperties (text : String) : Result Properties :=
  .ok fun key => (lines text).reverse.findSome? fun line =>
    (splitOnce line '=').bind fun (name, value) => if name = key then some value else none

theorem plainProperties_directoryId : ∀ properties,
    plainProperties (metaText (formattedMeta "c" 1 .nil)) = .ok properties →
      properties "directory.id" = (formattedMeta "c" 1 .nil).directoryId := by
  intro properties h
  have hvalue : (plainProperties (metaText (formattedMeta "c" 1 .nil))).toOption.bind
      (· "directory.id") = (formattedMeta "c" 1 .nil).directoryId := by decide +kernel
  rw [h] at hvalue
  exact hvalue

theorem nil_not_read_back : ¬ ReadsBack .standard plainProperties "c" 1 .nil :=
  directoryId_not_read_back .standard plainProperties "c" 1 .nil plainProperties_directoryId

/-- The id of zeros is written and is not read back. -/
theorem read_back_fails :
    ¬ ∀ (engine : Base64.Engine) (read : String → Result Properties) (clusterId : String)
      (nodeId : Int) (id : Uuid),
      (∀ properties, read (metaText (formattedMeta clusterId nodeId id)) = .ok properties →
        properties "directory.id" = (formattedMeta clusterId nodeId id).directoryId) →
      ReadsBack engine read clusterId nodeId id := by
  intro hall
  obtain ⟨properties, value, hproperties, hsome, hparse⟩ :=
    hall .standard plainProperties "c" 1 .nil plainProperties_directoryId
  rw [plainProperties_directoryId properties hproperties] at hsome
  cases hsome
  exact parseKafkaUuid_hyphenated _ _ _ _ hparse

/-! ## The metadata directory -/

/-- Both ways to find the metadata directory lead to the same one: a directory of its own is
written without white space around it, and otherwise the first log directory is the least. -/
def SameMetadataDirectory (props : Properties) : Prop :=
  match props "metadata.log.dir" with
  | some metadata => metadata ≠ "" ∧ trim metadata = metadata
  | none => ∀ dirs, props "log.dirs" = some dirs → ∀ first, (split dirs ',').head? = some first →
      trim first ≠ "" ∧ ∀ other ∈ commaList dirs, trim first ≤ other

/-- **The metadata directory.** The storage tool writes the bootstrap artifacts of a controller
to the directory that `controller_from_properties` reads exactly under `SameMetadataDirectory`. -/
theorem metadata_directory_agrees_iff {props : Properties} {dirs directory : String}
    (hrole : "controller" ∈ processRoles props) (hdirs : props "log.dirs" = some dirs)
    (hdirectory : controllerMetadataDirectory props = .ok directory) :
    bootstrapDirectory props = some directory ↔ SameMetadataDirectory props := by
  rw [bootstrapDirectory_eq hrole]
  cases hmetadata : props "metadata.log.dir" with
  | some metadata =>
    simp only [controllerMetadataDirectory, hmetadata, Option.some_or, Except.ok.injEq,
      SameMetadataDirectory] at hdirectory ⊢
    subst hdirectory
    rw [metadataLogDir_of_some hmetadata]
    refine ⟨?_, ?_⟩
    · intro h
      split_ifs at h with hne
      · have heq := Option.some.inj h
        exact ⟨heq ▸ hne, heq⟩
      · -- the least log directory has no white space around it
        exact solid_of_mem_configured (mem_logDirectories.1 (List.mem_of_mem_head? h))
    · intro ⟨hne, htrim⟩
      rw [htrim, if_pos hne]
  | none =>
    obtain ⟨first, rest, hsplit⟩ := List.exists_cons_of_ne_nil (split_ne_nil dirs ',')
    have hconfigured : configuredDirectories props = commaList dirs := by
      simp [configuredDirectories, hmetadata, hdirs]
    simp only [controllerMetadataDirectory, hmetadata, hdirs, hsplit, Option.none_or,
      Option.bind_some, List.head?_cons, Option.map_some, Except.ok.injEq] at hdirectory
    subst hdirectory
    have hmem : trim first ∈ commaList dirs ↔ trim first ≠ "" := by
      rw [mem_commaList, hsplit]
      exact ⟨fun h => h.1, fun h => ⟨h, first, List.mem_cons_self, rfl⟩⟩
    rw [metadataLogDir_of_none hmetadata, logDirectories, head?_sortDedup, hconfigured, hmem]
    simp only [SameMetadataDirectory, hmetadata, hdirs, Option.some.injEq, forall_eq', hsplit,
      List.head?_cons]

/-- A controller with these log directories and no metadata directory of its own. -/
def controllerProps (dirs : String) : Properties := fun key =>
  if key = "process.roles" then some "broker,controller"
  else if key = "log.dirs" then some dirs
  else none

theorem metadata_directory_agrees_sorted :
    bootstrapDirectory (controllerProps "/a,/b") = some "/a" ↔
      SameMetadataDirectory (controllerProps "/a,/b") :=
  have hdirs : controllerProps "/a,/b" "log.dirs" = some "/a,/b" := by decide
  metadata_directory_agrees_iff (by decide) hdirs (by decide)

/-- With the directories in another order the artifacts are written to one directory and the id
is read from the other. -/
theorem metadata_directory_differs :
    ¬ ∀ (props : Properties) (dirs directory : String), "controller" ∈ processRoles props →
      props "log.dirs" = some dirs → dirs ≠ "" →
      controllerMetadataDirectory props = .ok directory →
      bootstrapDirectory props = some directory := by
  intro hall
  have hdir := hall (controllerProps "/b,/a") "/b,/a" "/b" (by decide) (by decide) (by decide)
    (by decide)
  revert hdir
  decide

end KafkaCli.Storage
