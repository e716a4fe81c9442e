import KafkaCli.DumpLog.Batch
import KafkaCli.Lib.Decimal

/-!
# Dumping a segment

`dump_log_file` reads a segment and prints its batches one after the other. The loop stops at the
first batch that is cut off, has an impossible length, or does not decode.

`dumpBatches` also returns the frames it visited and where it stopped, which the source does not
keep.
-/

namespace KafkaCli.DumpLog

open Text

/-- A stretch of a segment that holds one batch. -/
structure Frame where
  start : Nat
  length : Nat
  deriving DecidableEq, Repr

/-- The bytes of a frame. -/
def Frame.bytes (frame : Frame) (buffer : List UInt8) : List UInt8 :=
  (buffer.drop frame.start).take frame.length

/-- What the loop over the batches leaves: the frames it visited, the position of its cursor, and
the state of the dump. -/
structure Walk where
  frames : List Frame
  stop : Nat
  state : DumpState

/-- The loop of `dump_log_file`. -/
def dumpBatches (reader : BatchReader) (options : DumpOptions) (path : String)
    (buffer : List UInt8) (cursor : Nat) (state : DumpState) : Walk :=
  if cursor < buffer.length then
    let remaining := buffer.drop cursor
    if remaining.length < 12 then { frames := [], stop := cursor, state }
    else
      let batchLength := signedBe (slice remaining 8 12)
      if batchLength < 49 then { frames := [], stop := cursor, state }
      else
        let total := 12 + batchLength.toNat
        if remaining.length < total then { frames := [], stop := cursor, state }
        else
          match
            (decodeAndPrintBatch reader options path (remaining.take total) cursor).run state with
          | .ok _ state =>
            let walk := dumpBatches reader options path buffer (cursor + total) state
            { walk with frames := ⟨cursor, total⟩ :: walk.frames }
          | .error error state =>
            let line := s!"error decoding batch at position {cursor}: " ++ error.text
            { frames := [⟨cursor, total⟩], stop := cursor
              state := { state with out := state.out ++ [line] } }
  else { frames := [], stop := cursor, state }
termination_by buffer.length - cursor

/-- The extension of a file name. -/
def extension (name : String) : String :=
  match rsplitOnce name '.' with
  | some (before, after) => if before = "" then "" else after
  | none => ""

/-- The line that the kind of file gets. -/
def fileLine (name : String) : Option String :=
  let kind := toAsciiLowercase (extension name)
  if kind = "log" then
    match Decimal.parseI64 ((split name '.').headD "") with
    | .ok base => some s!"Log starting offset: {base}"
    | .error _ => none
  else if kind = "checkpoint" then some "Kafka binary bootstrap checkpoint (record batches)"
  else if kind = "snapshot" then some ("Snapshot file: " ++ name)
  else none

/-- `dump_log_file`, given what the file holds. -/
def dumpLogFile (reader : BatchReader) (options : DumpOptions) (path name : String)
    (maxBytes : Int) (file : Except String (List UInt8)) : Dump Unit := do
  (fileLine name).forM printLine
  let content ← ofExcept (file.mapError Error.io)
  let limit := if maxBytes < 0 then content.length else min maxBytes.toNat content.length
  let buffer := content.take limit
  let before ← get
  let walk := dumpBatches reader options path buffer 0 { before with lastOffset := -1 }
  set walk.state
  let trailing := buffer.length - walk.stop
  let cursor := walk.stop
  if trailing > 0 ∧ cursor < limit then
    printLine (s!"Found invalid bytes at the end of {path} starting at byte offset {cursor}: " ++
      s!"{trailing} bytes remaining")
  else return ()

/-- `first_batch_last_offset`. -/
def firstBatchLastOffset (bytes : List UInt8) : Option Int :=
  if bytes.length < 27 then none
  else some (wrap64 (signedBe (slice bytes 0 8) + signedBe (slice bytes 23 27)))

end KafkaCli.DumpLog
