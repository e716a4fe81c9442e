import KafkaCli.DumpLog.Segment
import KafkaCli.Lib.Run

/-!
# Dumping a producer snapshot

`dump_producer_snapshot` reads a file with a version, a checksum, a number of entries and the
entries, one for each producer. A file that it cannot read gets a line on the standard error, and
the dump goes on; only a negative number of entries makes it fail.
-/

namespace KafkaCli.DumpLog

open Run

/-- The last batch of a producer, with the transaction that it has open. -/
structure SnapshotEntry where
  producerId : Int
  epoch : Int
  lastSequence : Int
  lastOffset : Int
  offsetDelta : Int
  timestamp : Int
  coordinatorEpoch : Int
  currentTxnFirst : Int
  deriving DecidableEq, Repr

/-- `PRODUCER_SNAPSHOT_ENTRY_SIZE`. -/
def producerSnapshotEntrySize : Nat := 8 + 2 + 4 + 8 + 4 + 8 + 4 + 8

/-- The entry of so many bytes. -/
def SnapshotEntry.ofChunk (chunk : List UInt8) : SnapshotEntry where
  producerId := signedBe (slice chunk 0 8)
  epoch := signedBe (slice chunk 8 10)
  lastSequence := signedBe (slice chunk 10 14)
  lastOffset := signedBe (slice chunk 14 22)
  offsetDelta := signedBe (slice chunk 22 26)
  timestamp := signedBe (slice chunk 26 34)
  coordinatorEpoch := signedBe (slice chunk 34 38)
  currentTxnFirst := signedBe (slice chunk 38 46)

/-- The entries behind the first ten bytes. -/
def snapshotEntries (data : List UInt8) (count : Nat) : List SnapshotEntry :=
  (List.range count).map fun i =>
    let offset := 10 + producerSnapshotEntrySize * i
    SnapshotEntry.ofChunk (slice data offset (offset + producerSnapshotEntrySize))

/-- The sequence of the first record of the last batch. -/
def SnapshotEntry.firstSequence (entry : SnapshotEntry) : Int :=
  saturate32 (entry.lastSequence - entry.offsetDelta)

/-- The line of an entry. -/
def snapshotEntryLine (entry : SnapshotEntry) : String :=
  s!"producerId: {entry.producerId} producerEpoch: {entry.epoch}" ++
    s!" coordinatorEpoch: {entry.coordinatorEpoch}" ++
    s!" currentTxnFirstOffset: {entry.currentTxnFirst} lastTimestamp: {entry.timestamp}" ++
    if entry.lastOffset ≥ 0 then
      s!" firstSequence: {entry.firstSequence} lastSequence: {entry.lastSequence}" ++
        s!" lastOffset: {entry.lastOffset} offsetDelta: {entry.offsetDelta}" ++
        s!" timestamp: {entry.timestamp}"
    else ""

/-- The lines on both outputs. -/
structure SnapshotState where
  out : List String
  err : List String
  deriving DecidableEq, Repr

abbrev SnapshotDump := EStateM Error SnapshotState

def printOut (line : String) : SnapshotDump Unit :=
  modify fun state => { state with out := state.out ++ [line] }

def printErr (line : String) : SnapshotDump Unit :=
  modify fun state => { state with err := state.err ++ [line] }

/-- The line in front of the entries. -/
def snapshotHeaderLine (version : Int) (crc : Nat) (entryCount : Int) : String :=
  s!"Producer snapshot version: {version} crc: {crc} entries: {entryCount}"

/-- `dump_producer_snapshot`, given what the file holds. -/
def dumpProducerSnapshot (path : String) (file : Except String (List UInt8)) :
    SnapshotDump Unit := do
  let data ← ofExcept (file.mapError Error.io)
  let length := data.length
  if data = [] then printOut s!"{path} is empty."
  else if length < 6 then
    printErr s!"producer snapshot {path} is too short ({length} bytes); unsupported or corrupt"
  else
    let version := signedBe (slice data 0 2)
    if version ≠ 1 then
      printErr (s!"producer snapshot {path}: unsupported version {version} " ++
        "(only v1 is dumped natively)")
    else
      let crc := unsignedBe (slice data 2 6)
      if length < 10 then printErr s!"producer snapshot {path} truncated after CRC"
      else
        let entryCount := signedBe (slice data 6 10)
        if entryCount < 0 then
          throw (.config s!"producer snapshot {path} has negative entry count")
        else
          let expected := 10 + producerSnapshotEntrySize * entryCount.toNat
          if length < expected then
            printErr (s!"producer snapshot {path} truncated: have {length} bytes, " ++
              s!"need {expected} for {entryCount} entries")
          else
            printOut (snapshotHeaderLine version crc entryCount)
            (snapshotEntries data entryCount.toNat).forM fun entry =>
              printOut (snapshotEntryLine entry)

/-! ## What it prints -/

/-- A snapshot of this version whose entries are all there. -/
structure SnapshotComplete (data : List UInt8) (entryCount : Int) : Prop where
  version : signedBe (slice data 0 2) = 1
  count : signedBe (slice data 6 10) = entryCount
  nonneg : 0 ≤ entryCount
  length : 10 + producerSnapshotEntrySize * entryCount.toNat ≤ data.length

theorem run_printOut (line : String) (state : SnapshotState) :
    (printOut line).run state = .ok () { state with out := state.out ++ [line] } := rfl

theorem run_forM_printOut (entries : List SnapshotEntry) (line : SnapshotEntry → String)
    (state : SnapshotState) :
    (entries.forM fun entry => printOut (line entry)).run state =
      .ok () { state with out := state.out ++ entries.map line } := by
  induction entries generalizing state with
  | nil =>
    rw [List.map_nil, List.append_nil]
    rfl
  | cons entry entries ih =>
    refine (bind_of_ok (run_printOut (line entry) state) _).trans ?_
    rw [ih, List.map_cons, List.append_assoc, List.singleton_append]

/-- All entries are printed, behind the header. -/
theorem run_dumpProducerSnapshot {data : List UInt8} {entryCount : Int}
    (h : SnapshotComplete data entryCount) (path : String) (state : SnapshotState) :
    (dumpProducerSnapshot path (.ok data)).run state =
      .ok () { state with
        out := state.out ++ snapshotHeaderLine 1 (unsignedBe (slice data 2 6)) entryCount ::
          (snapshotEntries data entryCount.toNat).map snapshotEntryLine } := by
  obtain ⟨hversion, hcount, hnonneg, hlength⟩ := h
  have hne : data ≠ [] := by
    rintro rfl
    simp at hlength
  have hfile : (ofExcept ((Except.ok data).mapError Error.io) : SnapshotDump (List UInt8)).run
      state = .ok data state := rfl
  rw [dumpProducerSnapshot, bind_of_ok hfile]
  simp only [hne, hversion, hcount, if_false, ne_eq, not_true_eq_false]
  rw [if_neg (by omega), if_neg (by omega), if_neg (by omega), if_neg (by omega),
    bind_of_ok (run_printOut _ state), run_forM_printOut, List.append_assoc,
    List.singleton_append]

end KafkaCli.DumpLog
