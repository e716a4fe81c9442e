import KafkaCli.DumpLog.Indices

/-!
# The command

`dump_log_segments` checks its options, dumps file after file by the suffixes of their names, and
lists in the end what it noted of them. A file that it does not know is told and left out. The
first file that cannot be dumped ends the command, and nothing is listed then.
-/

namespace KafkaCli.DumpLog

open Text

/-! ## Options -/

/-- A file of the command: its path, its name where it has one that is text, what it holds, and what
the log beside it holds where there is one. -/
structure InputFile where
  path : String
  name : Option String
  content : Except String (List UInt8)
  beside : Except String (Option (List UInt8))

structure DumpLogOptions where
  files : List InputFile
  printDataLog : Bool
  verifyIndexOnly : Bool
  indexSanityCheck : Bool
  maxMessageSize : Int
  maxBytes : Int
  deepIteration : Bool
  skipRecordMetadata : Bool
  keyDecoder : Option String
  valueDecoder : Option String
  offsetsDecoder : Bool
  transactionLogDecoder : Bool
  clusterMetadataDecoder : Bool
  remoteLogMetadataDecoder : Bool
  shareGroupStateDecoder : Bool

namespace DumpLogOptions

variable (opts : DumpLogOptions)

def shouldPrintDataLog : Bool :=
  opts.printDataLog || opts.offsetsDecoder || opts.transactionLogDecoder ||
    opts.clusterMetadataDecoder || opts.remoteLogMetadataDecoder || opts.shareGroupStateDecoder ||
    opts.keyDecoder.isSome || opts.valueDecoder.isSome

def isDeepIteration : Bool := opts.deepIteration || opts.shouldPrintDataLog

/-- The options for a log. -/
def dump : DumpOptions where
  printContents := opts.shouldPrintDataLog
  deep := opts.isDeepIteration
  skipRecordMetadata := opts.skipRecordMetadata

/-- The options for an offset index. -/
def index : IndexOptions where
  sanityOnly := opts.indexSanityCheck
  verifyOnly := opts.verifyIndexOnly
  maxMessageSize := opts.maxMessageSize

end DumpLogOptions

/-- `is_string_decoder`. -/
def isStringDecoder (decoder : String) : Bool :=
  decoder = "kafka.serializer.StringDecoder" ||
    decoder = "org.apache.kafka.common.serialization.StringDeserializer" ||
    endsWith decoder ".StringDecoder" || toAsciiLowercase decoder = "string"

/-- A decoder that is not there. -/
def rejectCodec (flag : String) (enabled : Bool) : Result Unit :=
  if enabled then
    .error (.unsupported s!"{flag} requires Kafka coordinator record codecs not available natively")
  else .ok ()

/-- A decoder for keys or values. -/
def checkDecoder (name : String) : Option String → Result Unit
  | none => .ok ()
  | some decoder =>
    if isStringDecoder decoder then .ok ()
    else .error (.unsupported (s!"custom {name} decoder class '{decoder}' is not supported " ++
      "natively; only StringDecoder is available"))

def validateOptions (opts : DumpLogOptions) : Result Unit := do
  if opts.files.isEmpty then throw (.usage "Missing required argument \"files\"")
  else if opts.maxMessageSize ≤ 0 then throw (.usage "--max-message-size must be positive")
  else if opts.maxBytes ≤ 0 then throw (.usage "--max-bytes must be positive")
  else do
    rejectCodec "--offsets-decoder" opts.offsetsDecoder
    rejectCodec "--transaction-log-decoder" opts.transactionLogDecoder
    rejectCodec "--cluster-metadata-decoder" opts.clusterMetadataDecoder
    rejectCodec "--remote-log-metadata-decoder" opts.remoteLogMetadataDecoder
    rejectCodec "--share-group-state-decoder" opts.shareGroupStateDecoder
    checkDecoder "key" opts.keyDecoder
    checkDecoder "value" opts.valueDecoder

/-! ## Kinds of files -/

/-- `is_native_bootstrap_residual`. -/
def isNativeBootstrapResidual (name : String) : Bool :=
  name = "kafka-cli-bootstrap.residual.json" || endsWith name ".residual.json" ||
    name = "kafka-cli-bootstrap.residual"

def isAsciiWhitespace (byte : UInt8) : Bool := byte ∈ [0x20, 0x09, 0x0A, 0x0C, 0x0D]

/-- `file_looks_like_text`, of what a file holds. -/
def looksLikeText (content : List UInt8) : Bool :=
  match (content.take 16).dropWhile isAsciiWhitespace with
  | [] => false
  | byte :: _ => byte ∈ [0x7B, 0x5B, 0x23, 0x22]

def isAsciiDigits (s : String) : Bool := s ≠ "" && s.toList.all Char.isDigit

/-- `is_kraft_snapshot_name`. -/
def isKraftSnapshotName (name : String) : Bool :=
  match stripSuffix name ".snapshot" with
  | none => false
  | some stem =>
    match splitOnce stem '-' with
    | none => false
    | some (left, right) => isAsciiDigits left && isAsciiDigits right

/-! ## The state of the command -/

/-- What the command remembers over all files, and what it wrote. -/
structure FilesState where
  mismatches : Std.TreeMap String (Std.TreeMap Int Int)
  nonConsecutive : Std.TreeMap String (Std.TreeMap Int Int)
  out : List String
  err : List String

/-- Before the first file. -/
def FilesState.start : FilesState := ⟨∅, ∅, [], []⟩

abbrev FilesDump := EStateM Error FilesState

/-- The dump of a log, which notes gaps. -/
def ofDump (x : Dump Unit) : FilesDump Unit := fun state =>
  match x.run { lastOffset := -1, nonConsecutive := state.nonConsecutive, out := state.out } with
  | .ok _ dump => .ok () { state with nonConsecutive := dump.nonConsecutive, out := dump.out }
  | .error error dump =>
    .error error { state with nonConsecutive := dump.nonConsecutive, out := dump.out }

/-- The dump of an offset index, which notes mismatches. -/
def ofIndexDump (x : IndexDump Unit) : FilesDump Unit := fun state =>
  match x.run { mismatches := state.mismatches, out := state.out } with
  | .ok _ dump => .ok () { state with mismatches := dump.mismatches, out := dump.out }
  | .error error dump => .error error { state with mismatches := dump.mismatches, out := dump.out }

/-- A dump that only writes. -/
def ofSnapshotDump (x : SnapshotDump Unit) : FilesDump Unit := fun state =>
  match x.run { out := state.out, err := state.err } with
  | .ok _ dump => .ok () { state with out := dump.out, err := dump.err }
  | .error error dump => .error error { state with out := dump.out, err := dump.err }

/-! ## One file -/

/-- The lines of a file that is text. -/
def textLines (content : Except String (List UInt8)) : Result (List String) := do
  let bytes ← content.mapError Error.io
  match decodeUtf8 bytes with
  | some body => .ok (lines body)
  | none => .error (.io "stream did not contain valid UTF-8")

/-- `dump_non_binary_bootstrap_file`. -/
def dumpNonBinaryBootstrapFile (path name : String) (content : Except String (List UInt8)) :
    SnapshotDump Unit := do
  let body ← ofExcept (textLines content)
  if isNativeBootstrapResidual name then
    printOut "Native bootstrap residual marker (not a Kafka binary bootstrap.checkpoint):"
    body.forM fun line => printOut ("  " ++ line)
  else if name = "bootstrap.checkpoint" then
    printErr (s!"warning: {path} looks like text/JSON, but Kafka expects a binary " ++
      "BatchFileReader bootstrap.checkpoint; dumping as residual text (will not parse as " ++
      "record batches)")
    printOut ("Non-binary bootstrap.checkpoint residual (Kafka cannot load this as bootstrap " ++
      "metadata):")
    body.forM fun line => printOut ("  " ++ line)
  else
    printOut "Text residual file (not record-batch format):"
    body.forM fun line => printOut ("  " ++ line)

/-- The file is a residue of formatting or text. -/
def isResidual (name : String) (content : Except String (List UInt8)) : Result Bool :=
  if isNativeBootstrapResidual name then .ok true
  else (content.map looksLikeText).mapError Error.io

def ignoreUnknown (path : String) : SnapshotDump Unit := printErr s!"Ignoring unknown file {path}"

/-- One file of the command whose name is text and has the suffix. -/
def dumpBySuffix (reader : BatchReader) (opts : DumpLogOptions) (file : InputFile)
    (name suffix : String) : FilesDump Unit :=
  let path := file.path
  let log := dumpLogFile reader opts.dump path name opts.maxBytes file.content
  match suffix with
  | "log" => ofDump log
  | "checkpoint" => do
    let residual ← ofExcept (isResidual name file.content)
    if residual then ofSnapshotDump (dumpNonBinaryBootstrapFile path name file.content)
    else ofDump log
  | "json" => do
    let residual ← ofExcept (isResidual name file.content)
    if residual then ofSnapshotDump (dumpNonBinaryBootstrapFile path name file.content)
    else ofSnapshotDump (ignoreUnknown path)
  | "index" => ofIndexDump (dumpOffsetIndex opts.index path name file.content file.beside)
  | "timeindex" => ofSnapshotDump
    (dumpTimeIndex opts.indexSanityCheck opts.verifyIndexOnly path name file.content)
  | "txnindex" => ofSnapshotDump (dumpTxnindex path name file.content)
  | "snapshot" =>
    if isKraftSnapshotName name then ofDump log
    else ofSnapshotDump (dumpProducerSnapshot path file.content)
  | _ => ofSnapshotDump (ignoreUnknown path)

/-- One file of the command. -/
def dumpInputFile (reader : BatchReader) (opts : DumpLogOptions) (file : InputFile) :
    FilesDump Unit := do
  ofSnapshotDump (printOut s!"Dumping {file.path}")
  match file.name with
  | none => ofSnapshotDump (ignoreUnknown file.path)
  | some name =>
    match rsplitOnce name '.' with
    | none => ofSnapshotDump (ignoreUnknown file.path)
    | some (_, suffix) => dumpBySuffix reader opts file name suffix

/-! ## The reports -/

/-- What is listed of the mismatches of a file. -/
def mismatchBlock : String × Std.TreeMap Int Int → List String
  | (file, mismatches) => s!"Mismatches in :{file}" ::
    mismatches.toList.reverse.map fun (indexOffset, logOffset) =>
      s!"  Index offset: {indexOffset}, log offset: {logOffset}"

/-- What is listed of the gaps of a file. -/
def gapBlock : String × Std.TreeMap Int Int → List String
  | (file, pairs) => s!"Non-consecutive offsets in {file}" ::
    pairs.toList.map fun (prev, next) => s!"  {prev} is followed by {next}"

/-- What is listed in the end. -/
def reports (state : FilesState) : List String :=
  state.mismatches.toList.flatMap mismatchBlock ++ state.nonConsecutive.toList.flatMap gapBlock

/-- The files of the command, one after the other. -/
def dumpInputFiles (reader : BatchReader) (opts : DumpLogOptions) : FilesDump Unit :=
  forM opts.files (dumpInputFile reader opts)

/-- `dump_log_segments`. -/
def dumpLogSegments (reader : BatchReader) (opts : DumpLogOptions) : FilesDump Unit := do
  ofExcept (validateOptions opts)
  dumpInputFiles reader opts
  modify fun state => { state with err := state.err ++ reports state }

end KafkaCli.DumpLog
