import KafkaCli.Error
import KafkaCli.Lib.MachineInt
import KafkaCli.Lib.Run
import KafkaCli.Lib.Text
import Std.Data.TreeMap.Lemmas

/-!
# Printing one record batch

`decode_and_print_batch` of `dump_log.rs`: the line of a batch, and with deep iteration a line for
each of its records. Along the way it remembers the last record offset, and notes every gap.

The batch format is decoded by the protocol client, a `BatchReader`: the header first, the records
only on demand. Both may fail. Arithmetic on offsets wraps at 64 bits, as in the released binary.
-/

namespace KafkaCli.DumpLog

open Text

inductive Compression
  | none
  | gzip
  | snappy
  | lz4
  | zstd
  | other
  deriving DecidableEq, Repr

/-- The attributes of a batch, with the number that they are written as. -/
structure Attributes where
  bits : Int
  compression : Compression
  isTransactional : Bool
  isControlBatch : Bool
  deriving DecidableEq, Repr

/-- A batch whose records are still encoded. -/
structure LazyRecordBatch where
  baseOffset : Int
  partitionLeaderEpoch : Int
  attributes : Attributes
  lastOffsetDelta : Int
  baseTimestamp : Int
  maxTimestamp : Int
  producerId : Int
  producerEpoch : Int
  baseSequence : Int
  recordsCount : Int
  payload : List UInt8
  deriving DecidableEq, Repr

/-- A record, with the keys of its headers. -/
structure Record where
  offsetDelta : Int
  timestampDelta : Int
  key : Option (List UInt8)
  value : Option (List UInt8)
  headers : List (List UInt8)
  deriving DecidableEq, Repr

/-- The batch decoders of the protocol client. -/
structure BatchReader where
  decode : List UInt8 → Except String LazyRecordBatch
  decodeAll : LazyRecordBatch → Except String (List Record)

/-! ## Control records -/

/-- `control_record_type_name`. -/
def controlRecordTypeName (typeId : Int) : String :=
  if typeId = 0 then "ABORT"
  else if typeId = 1 then "COMMIT"
  else if typeId = 2 then "LEADER_CHANGE"
  else if typeId = 3 then "SNAPSHOT_HEADER"
  else if typeId = 4 then "SNAPSHOT_FOOTER"
  else if typeId = 5 then "KRAFT_VERSION"
  else if typeId = 6 then "KRAFT_VOTERS"
  else "UNKNOWN"

/-- `parse_end_txn_coordinator_epoch`. -/
def parseEndTxnCoordinatorEpoch (value : List UInt8) : Option Int :=
  if value.length < 6 ∨ signedBe (slice value 0 2) < 0 then none
  else some (signedBe (slice value 2 6))

/-- `format_named_control`. -/
def formatNamedControl (label : String) (typeId keyVersion : Int) : Option (List UInt8) → String
  | none => s!" {label}: typeId={typeId} keyVersion={keyVersion} value=null"
  | some bytes =>
    let length := bytes.length
    if length < 2 then s!" {label}: typeId={typeId} keyVersion={keyVersion} valueBytes={length}"
    else
      let valueVersion := signedBe (slice bytes 0 2)
      if typeId = 3 ∧ length ≥ 10 then
        let timestamp := signedBe (slice bytes 2 10)
        s!" {label} version: {valueVersion} lastContainedLogTimestamp: {timestamp}"
      else if typeId = 2 ∧ length ≥ 6 then
        let leaderId := signedBe (slice bytes 2 6)
        s!" {label}: version={valueVersion} leaderId={leaderId} valueBytes={length}"
      else if typeId = 5 ∧ length ≥ 4 then
        let kraftVersion := signedBe (slice bytes 2 4)
        s!" {label} version: {valueVersion} kRaftVersion: {kraftVersion}"
      else s!" {label}: version={valueVersion} valueBytes={length}"

/-- `format_control_record`. -/
def formatControlRecord (key value : Option (List UInt8)) : String :=
  match key with
  | none => " controlType: control-record(missing-key)"
  | some key =>
    let length := key.length
    if length < 4 then s!" controlType: control-record(invalid-key-len={length})"
    else
      let keyVersion := signedBe (slice key 0 2)
      let typeId := signedBe (slice key 2 4)
      let typeName := controlRecordTypeName typeId
      if typeId = 0 ∨ typeId = 1 then
        match value.bind parseEndTxnCoordinatorEpoch with
        | none => s!" endTxnMarker: {typeName} (unparseable value; keyVersion={keyVersion})"
        | some coordinatorEpoch =>
          s!" endTxnMarker: {typeName} coordinatorEpoch: {coordinatorEpoch}"
      else if typeId = 2 then formatNamedControl "LeaderChange" typeId keyVersion value
      else if typeId = 3 then formatNamedControl "SnapshotHeader" typeId keyVersion value
      else if typeId = 4 then formatNamedControl "SnapshotFooter" typeId keyVersion value
      else if typeId = 5 then formatNamedControl "KRaftVersion" typeId keyVersion value
      else if typeId = 6 then formatNamedControl "KRaftVoters" typeId keyVersion value
      else s!" controlType: {typeName}({typeId})"

/-! ## Lines -/

/-- `decode_string_field`. -/
def decodeStringField : Option (List UInt8) → String
  | none => "null"
  | some bytes =>
    let length := bytes.length
    (decodeUtf8 bytes).getD s!"<{length} binary bytes>"

/-- `compression_name`. -/
def compressionName : Compression → String
  | .none => "none"
  | .gzip => "gzip"
  | .snappy => "snappy"
  | .lz4 => "lz4"
  | .zstd => "zstd"
  | .other => "unknown"

/-- The options that say what is printed. -/
structure DumpOptions where
  printContents : Bool
  deep : Bool
  skipRecordMetadata : Bool
  deriving DecidableEq, Repr

/-- What the dump of a file remembers: the last record offset, the gaps by file, and the lines. -/
structure DumpState where
  lastOffset : Int
  nonConsecutive : Std.TreeMap String (Std.TreeMap Int Int)
  out : List String

/-- A part of the dump, which may fail after it printed something. -/
abbrev Dump := EStateM Error DumpState

/-- The kind of a batch's timestamps. -/
def timestampType (lazy : LazyRecordBatch) : String :=
  if lazy.attributes.bits / 8 % 2 = 1 then "LogAppendTime" else "CreateTime"

/-- A sequence number of a batch, none without a base. -/
def sequenceAt (lazy : LazyRecordBatch) (delta : Int) : Int :=
  if lazy.baseSequence ≥ 0 then saturate32 (lazy.baseSequence + delta) else -1

/-- The size of a key or a value, -1 for none. -/
def fieldSize : Option (List UInt8) → Int
  | none => -1
  | some bytes => min bytes.length (2 ^ 31 - 1)

/-- The line of a batch. -/
def batchLine (lazy : LazyRecordBatch) (batchBytes : List UInt8) (position : Int) : String :=
  let lastBatchOffset := wrap64 (lazy.baseOffset + lazy.lastOffsetDelta)
  let lastSequence := sequenceAt lazy lazy.lastOffsetDelta
  let tsType := timestampType lazy
  let size := batchBytes.length
  let compress := compressionName lazy.attributes.compression
  let crc := unsignedBe (slice batchBytes 17 21)
  s!"baseOffset: {lazy.baseOffset} lastOffset: {lastBatchOffset} count: {lazy.recordsCount}" ++
    s!" baseSequence: {lazy.baseSequence} lastSequence: {lastSequence}" ++
    s!" producerId: {lazy.producerId} producerEpoch: {lazy.producerEpoch}" ++
    s!" partitionLeaderEpoch: {lazy.partitionLeaderEpoch}" ++
    s!" isTransactional: {lazy.attributes.isTransactional}" ++
    s!" isControl: {lazy.attributes.isControlBatch} deleteHorizonMs: Optional.empty" ++
    s!" position: {position} {tsType}: {lazy.maxTimestamp} size: {size} magic: 2" ++
    s!" compresscodec: {compress} crc: {crc} isvalid: true"

/-- The metadata of a record's line. -/
def recordMetadata (lazy : LazyRecordBatch) (record : Record) (offset : Int) : String :=
  let tsType := timestampType lazy
  let timestamp := wrap64 (lazy.baseTimestamp + record.timestampDelta)
  let keySize := fieldSize record.key
  let valueSize := fieldSize record.value
  let sequence := sequenceAt lazy record.offsetDelta
  let headers := ",".intercalate (record.headers.map fromUtf8Lossy)
  s!"| offset: {offset} {tsType}: {timestamp} keySize: {keySize} valueSize: {valueSize}" ++
    s!" sequence: {sequence} headerKeys: [{headers}]" ++
    if lazy.attributes.isControlBatch then formatControlRecord record.key record.value else ""

/-- The key and the value of a record's line. -/
def recordContents (options : DumpOptions) (record : Record) : String :=
  let indent := if options.skipRecordMetadata then "| " else " "
  let key := decodeStringField record.key
  let value := decodeStringField record.value
  s!"{indent}key: {key} payload: {value}"

/-- The line of a record. -/
def recordLine (options : DumpOptions) (lazy : LazyRecordBatch) (record : Record) (offset : Int) :
    String :=
  (if options.skipRecordMetadata then "" else recordMetadata lazy record offset) ++
    if options.printContents ∧ ¬ lazy.attributes.isControlBatch then recordContents options record
    else ""

/-! ## A batch -/

def printLine (line : String) : Dump Unit :=
  modify fun state => { state with out := state.out ++ [line] }

/-- Note a gap before a record, and remember its offset. -/
def noteOffset (path : String) (offset : Int) : Dump Unit :=
  modify fun state =>
    let gap := state.lastOffset ≥ 0 ∧ offset ≠ wrap64 (state.lastOffset + 1)
    { state with
      lastOffset := offset
      nonConsecutive := if gap then state.nonConsecutive.insert path
        ((state.nonConsecutive.getD path ∅).insert state.lastOffset offset)
      else state.nonConsecutive }

/-- One record of a batch. -/
def printRecord (options : DumpOptions) (path : String) (lazy : LazyRecordBatch)
    (record : Record) : Dump Unit := do
  let offset := wrap64 (lazy.baseOffset + record.offsetDelta)
  noteOffset path offset
  printLine (recordLine options lazy record offset)

/-- `decode_and_print_batch`. -/
def decodeAndPrintBatch (reader : BatchReader) (options : DumpOptions) (path : String)
    (batchBytes : List UInt8) (position : Int) : Dump Unit := do
  let lazy ← ofExcept ((reader.decode batchBytes).mapError fun error =>
    Error.config ("failed to decode record batch: " ++ error))
  printLine (batchLine lazy batchBytes position)
  if options.deep then
    let records ← ofExcept ((reader.decodeAll lazy).mapError fun error =>
      Error.config ("failed to decode records in batch: " ++ error))
    records.forM (printRecord options path lazy)
  else return ()

end KafkaCli.DumpLog
