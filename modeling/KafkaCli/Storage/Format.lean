import KafkaCli.Lib.FileTree
import KafkaCli.Lib.Run
import KafkaCli.Storage.MetaProperties
import KafkaCli.Storage.Properties

/-!
# Formatting and inspecting log directories

The commands `storage format` and `storage info` as programs on a tree of files. Formatting goes
through the directories in sorted order; it creates each, checks it and writes to it before it
looks at the next. A path of the configuration leads to a location of the tree (`Host.resolve`),
and two paths may lead to one location. Creating directories and writing a file may break off
halfway (`Host.breaksOff`), and what is done by then stays.
-/

namespace KafkaCli.Storage

open Checked Decimal FileTree Text

/-! ## The surroundings of a run -/

inductive Json
  | string (value : String)
  | number (value : Int)
  | bool (value : Bool)
  | array (values : List String)

/-- What a run gets from elsewhere. -/
structure Host where
  /-- The location of a path. -/
  resolve : String → Path
  /-- The properties of a configuration file. -/
  loadProperties : String → Result Properties
  /-- The random id that is drawn for a directory. -/
  newV4 : String → Uuid
  /-- The text of a JSON object. -/
  renderJson : List (String × Json) → String
  /-- Behind how many steps the work at a location breaks off, if it does, and with which message.
  Each directory that is created is a step. With a file, its creation is the first one, and each
  byte is one. -/
  breaksOff : Path → Option (ℕ × String) := fun _ => none

/-- Where work of so many steps breaks off. -/
def Host.stops (host : Host) (path : Path) (steps : ℕ) : Option (ℕ × String) :=
  (host.breaksOff path).filter fun stop => stop.1 < steps

structure World where
  files : Tree
  stdout : List String
  stderr : List String

/-- A command of the storage tool. -/
abbrev Tool := EStateM Error World

def io {α : Type} (result : Except IoError α) : Result α :=
  result.mapError fun error => .io error.text

def say (line : String) : Tool PUnit := modify fun world =>
  { world with stdout := world.stdout ++ [line] }

def complain (line : String) : Tool PUnit := modify fun world =>
  { world with stderr := world.stderr ++ [line] }

def currentFiles : Tool Tree := do return (← get).files

/-- Replace the files by those that an operation leaves. -/
def changeFiles (operation : Tree → Except IoError Tree) : Tool PUnit := do
  let world ← get
  let files ← ofExcept (io (operation world.files))
  set { world with files }

def createDirAll (host : Host) (path : Path) : Tool PUnit :=
  match host.stops path path.length with
  | none => changeFiles fun files => files.createDirAll path
  | some (made, message) => do
    changeFiles fun files => files.createDirAll (path.take made)
    throw (.io message)

/-- Create a file and write to it, with the error of breaking off at a step. -/
def createFile (host : Host) (path : Path) (bytes : List UInt8) (failed : ℕ → String → Error) :
    Tool PUnit :=
  match host.stops path (bytes.length + 1) with
  | none => changeFiles fun files => files.writeFile path bytes
  | some (0, message) => throw (failed 0 message)
  | some (written + 1, message) => do
    changeFiles fun files => files.writeFile path (bytes.take written)
    throw (failed (written + 1) message)

def metaPath (path : Path) : Path := path ++ ["meta.properties"]
def reservedPath (path : Path) : Path := path ++ ["bootstrap.checkpoint"]
def clusterMetadataPath (path : Path) : Path := path ++ ["__cluster_metadata-0"]
def residualPath (path : Path) : Path := path ++ ["kafka-cli-bootstrap.residual.json"]

/-! ## The file of a directory -/

def writeMetaProperties (host : Host) (path : Path) (properties : MetaProperties) : Tool PUnit :=
  createFile host path (encodeUtf8 (metaText properties)) fun _ => .io

def readMetaProperties (files : Tree) (path : Path) : Result MetaProperties := do
  let bytes ← io (files.read path)
  let text ← (decodeUtf8 bytes).elim (.error (.io "stream did not contain valid UTF-8")) .ok
  readMetaText text

def printMeta (properties : MetaProperties) : Tool PUnit :=
  forM ([s!"  version={properties.version}"] ++
    (properties.clusterId.map fun id => s!"  cluster.id={id}").toList ++
    (properties.nodeId.map fun id => s!"  node.id={id}").toList ++
    (properties.directoryId.map fun id => s!"  directory.id={id}").toList) say

/-! ## Formatting -/

structure FormatArgs where
  clusterId : String
  ignoreFormatted : Bool := false
  releaseVersion : Option String := none
  feature : List String := []
  standalone : Bool := false
  noInitialControllers : Bool := false
  initialControllers : Option String := none
  addScram : List String := []

/-- A directory has been formatted before. -/
def alreadyFormatted (directory : String) : Error :=
  .config s!"log directory {directory} is already formatted. Use --ignore-formatted to skip."

/-- A metadata directory holds a checkpoint that is not Kafka's. -/
def textReserved (directory : String) : Error :=
  let path := joinPath directory "bootstrap.checkpoint"
  .config (s!"refusing to format: {path} exists and is not a Kafka binary " ++
    "bootstrap.checkpoint (looks like text/JSON). Remove it or reformat with official " ++
    "kafka-storage after cleanup.")

def isAsciiWhitespace (byte : UInt8) : Bool := byte ∈ [0x20, 0x09, 0x0A, 0x0C, 0x0D]

def isAsciiAlphabetic (byte : UInt8) : Bool :=
  (0x41 ≤ byte && byte ≤ 0x5A) || (0x61 ≤ byte && byte ≤ 0x7A)

/-- The bytes start, behind white space, like JSON, a comment, a path or a word. -/
def looksLikeTextOrJson (bytes : List UInt8) : Bool :=
  match bytes.dropWhile isAsciiWhitespace with
  | [] => false
  | byte :: _ => byte ∈ [0x7B, 0x5B, 0x22, 0x23, 0x2F, 0x5F] || isAsciiAlphabetic byte

def ensureNoTextReservedBootstrap (files : Tree) (directory : String) (path : Path) :
    Result Unit := do
  if files.exists? (reservedPath path) then do
    let bytes ← io (files.read (reservedPath path))
    failIf (looksLikeTextOrJson (bytes.take 8)) (textReserved directory)
  else return ()

/-- The check of a directory that has not been formatted: a controller's metadata directory must
not hold a checkpoint that is not Kafka's. -/
def checkDirectory (props : Properties) (files : Tree) (directory : String) (path : Path) :
    Result Unit :=
  if isBootstrapDirectory props directory then ensureNoTextReservedBootstrap files directory path
  else .ok ()

/-- The residual marker of a controller's metadata directory. -/
def residualMarker (args : FormatArgs) (nodeId : Int) : List (String × Json) :=
  [("source", .string "kafka-cli storage format"),
    ("format", .string "partial-native-bootstrap-v1"),
    ("kafka.reserved.bootstrap.checkpoint",
      .string "not written (binary BatchFileReader format only)"),
    ("cluster.id", .string args.clusterId), ("node.id", .number nodeId),
    ("standalone", .bool args.standalone),
    ("no.initial.controllers", .bool args.noInitialControllers)] ++
  (args.releaseVersion.map fun version => ("release.version", Json.string version)).toList ++
  (args.initialControllers.map fun ids => ("initial.controllers", Json.string ids)).toList ++
  [("features", .array args.feature),
    ("residual", .string ("full KRaft RecordsSnapshotWriter bootstrap snapshot is not written; " ++
      "Kafka will use default bootstrap metadata when bootstrap.checkpoint is absent"))]

def writeControllerBootstrapArtifacts (host : Host) (args : FormatArgs) (nodeId : Int)
    (path : Path) : Tool PUnit := do
  createDirAll host (clusterMetadataPath path)
  let json := encodeUtf8 (host.renderJson (residualMarker args nodeId))
  -- breaking off in the document is an error of the JSON writer
  createFile host (residualPath path) (json ++ encodeUtf8 "\n") fun step =>
    if 0 < step ∧ step ≤ json.length then .json else .io
  say ("  wrote controller layout: __cluster_metadata-0/ and residual marker " ++
    "kafka-cli-bootstrap.residual.json")
  say ("  residual: did not write Kafka binary bootstrap.checkpoint (BatchFileReader format); " ++
    "full RecordsSnapshotWriter snapshot under __cluster_metadata-0 is not generated — use " ++
    "official kafka-storage for production controller bootstrap")

/-- What follows once the `meta.properties` of a directory is written. -/
def finishDirectory (host : Host) (args : FormatArgs) (props : Properties) (nodeId : Int)
    (directory : String) (properties : MetaProperties) : Tool PUnit := do
  say s!"Formatting {directory} with metadata:"
  printMeta properties
  forM (args.releaseVersion.map fun version => s!"  release.version={version}").toList say
  forM (args.feature.map fun item => s!"  feature={item}") say
  if isBootstrapDirectory props directory then
    writeControllerBootstrapArtifacts host args nodeId (host.resolve directory)
  else return ⟨⟩

/-- Write to a directory that has passed its checks. -/
def writeDirectory (host : Host) (args : FormatArgs) (props : Properties) (nodeId : Int)
    (directory : String) : Tool PUnit := do
  let properties := formattedMeta args.clusterId nodeId (host.newV4 directory)
  writeMetaProperties host (metaPath (host.resolve directory)) properties
  finishDirectory host args props nodeId directory properties

/-- Check a directory that is there, and write to it. -/
def formatCreated (host : Host) (args : FormatArgs) (props : Properties) (nodeId : Int)
    (directory : String) : Tool PUnit := do
  let path := host.resolve directory
  let files ← currentFiles
  if files.exists? (metaPath path) then
    if args.ignoreFormatted then say s!"Skipping already formatted directory {directory}"
    else throw (alreadyFormatted directory)
  else do
    ofExcept (checkDirectory props files directory path)
    writeDirectory host args props nodeId directory

/-- The body of the loop over the directories. -/
def formatDirectory (host : Host) (args : FormatArgs) (props : Properties) (nodeId : Int)
    (directory : String) : Tool PUnit := do
  createDirAll host (host.resolve directory)
  formatCreated host args props nodeId directory

/-- The id of the configured node. -/
def configuredNodeId (props : Properties) : Result Int := do
  let nodeId ← ((props "node.id").or (props "broker.id")).elim
    (.error (.config "node.id is required in KRaft mode")) .ok
  (parseI32 nodeId).mapError fun error => Error.config s!"invalid node.id: {error.text}"

/-- What `storage_format` requires of its arguments and of the configuration, and the node id
and directories it finds there. -/
def formatPlan (args : FormatArgs) (props : Properties) : Result (Int × List String) := do
  failIf (processRoles props = [])
    (.usage ("The kafka configuration file appears to be for a legacy cluster. Formatting is " ++
      "only supported for clusters in KRaft mode."))
  let nodeId ← configuredNodeId props
  failIf (args.addScram ≠ [])
    (.unsupported ("--add-scram requires writing SCRAM records into the __cluster_metadata " ++
      "bootstrap log, which the native storage tool does not implement"))
  failIf ("controller" ∈ processRoles props ∧ (props "controller.quorum.voters").all (· = "") ∧
      !args.standalone ∧ args.initialControllers = none ∧ !args.noInitialControllers)
    (.usage ("Because controller.quorum.voters is not set on this controller, you must " ++
      "specify one of --standalone, --initial-controllers, or --no-initial-controllers."))
  failIf (logDirectories props = [])
    (.config "no log.dirs / metadata.log.dir found in configuration")
  return (nodeId, logDirectories props)

def storageFormat (host : Host) (config : String) (args : FormatArgs) : Tool PUnit := do
  let props ← ofExcept (host.loadProperties config)
  let (nodeId, directories) ← ofExcept (formatPlan args props)
  forM directories (formatDirectory host args props nodeId)

/-! ## Inspecting -/

/-- What `storage_info` has seen so far. -/
structure Inspection where
  problems : List String
  found : List String
  prev : Option MetaProperties

/-- The ids that have to be the same in all directories. -/
def MetaProperties.ids (properties : MetaProperties) : Option String × Option Int :=
  (properties.clusterId, properties.nodeId)

/-- The problems of a directory next to the one before it. -/
def inconsistencies (directory : String) (previous properties : MetaProperties) : List String :=
  (if previous.clusterId ≠ properties.clusterId then
    [s!"Inconsistent cluster.id between {directory} and a previous directory"] else []) ++
  if previous.nodeId ≠ properties.nodeId then
    [s!"Inconsistent node.id between {directory} and a previous directory"] else []

/-- What has been seen after a directory whose file was read. -/
def Inspection.next (seen : Inspection) (directory : String) (properties : MetaProperties) :
    Inspection where
  problems := seen.problems ++ seen.prev.elim [] (inconsistencies directory · properties)
  found := seen.found ++ [directory]
  prev := some properties

def inspectDirectory (host : Host) (seen : Inspection) (directory : String) : Tool Inspection := do
  let path := host.resolve directory
  let files ← currentFiles
  if !files.isDirectory path then
    return { seen with problems := seen.problems ++ [s!"{directory} is not a directory"] }
  else if !files.exists? (metaPath path) then
    return { seen with
      problems := seen.problems ++ [s!"{directory} is not formatted"]
      found := seen.found ++ [directory] }
  else do
    let properties ← ofExcept (readMetaProperties files (metaPath path))
    say s!"Found meta.properties file in {directory}:"
    printMeta properties
    return seen.next directory properties

/-- The end of an inspection. -/
def report (kraft : Bool) (seen : Inspection) : Tool PUnit := do
  let problems := seen.problems ++
    if seen.found = [] then ["No log directories found in the configuration"] else []
  say (if kraft then "Found KRaft mode configuration."
    else "Found ZooKeeper mode configuration (legacy). Formatting requires KRaft.")
  if problems = [] then say "All of the log directories are acceptably formatted."
  else do
    forM (problems.map fun problem => s!"Problem: {problem}") complain
    throw (.config s!"{problems.length} problem(s) found in log directories")

def storageInfo (host : Host) (config : String) : Tool PUnit := do
  let props ← ofExcept (host.loadProperties config)
  let seen ← (logDirectories props).foldlM (inspectDirectory host) ⟨[], [], none⟩
  report (processRoles props ≠ []) seen

end KafkaCli.Storage
