import KafkaCli.DumpLog.Segment
import KafkaCli.Replica.Batches

/-!
# Two walks over a segment

The replica verifier and the segment dump both walk a segment batch by batch, each with its own
loop and its own checks.

`Framed` says what the frames of a segment are, without either loop: frames follow each other as
long as a complete one stands at the offset. It is deterministic (`Framed.unique`), the verifier
pushes a batch for each of these frames when it returns (`framed_of_parse`), and the dump visits
them when they decode (`dumpBatches_of_framed`).

**Theorem (`walks_agree`).** So the two walks have the same frames and stop at the same offset,
and the last offset that the verifier computes for a frame is that of the first batch there.
-/

namespace KafkaCli.DumpLog

open Replica Run

/-! ## The frames of a segment -/

/-- The length that a batch at an offset claims for what follows its first twelve bytes. -/
def batchLengthAt (buffer : List UInt8) (start : Nat) : Int :=
  signedBe (slice buffer (start + 8) (start + 12))

/-- A complete batch stands at an offset. -/
def CompleteAt (buffer : List UInt8) (frame : Frame) : Prop :=
  frame.start + 12 ≤ buffer.length ∧ 49 ≤ batchLengthAt buffer frame.start ∧
    frame.length = 12 + (batchLengthAt buffer frame.start).toNat ∧
    frame.start + frame.length ≤ buffer.length

/-- From an offset on, a segment has these frames, and then no complete batch at `stop`. -/
inductive Framed (buffer : List UInt8) : (start : Nat) → List Frame → (stop : Nat) → Prop
  | stop {start : Nat} (h : ∀ length, ¬ CompleteAt buffer ⟨start, length⟩) :
      Framed buffer start [] start
  | frame {start length stop : Nat} {frames : List Frame} (h : CompleteAt buffer ⟨start, length⟩)
      (hrest : Framed buffer (start + length) frames stop) :
      Framed buffer start (⟨start, length⟩ :: frames) stop

section Frames

variable {buffer : List UInt8} {start stop stop' : Nat} {frames frames' : List Frame}

theorem completeAt_iff {length : Nat} : CompleteAt buffer ⟨start, length⟩ ↔
    start + 12 ≤ buffer.length ∧ 49 ≤ batchLengthAt buffer start ∧
      length = 12 + (batchLengthAt buffer start).toNat ∧ start + length ≤ buffer.length := Iff.rfl

/-- The length of a complete batch is known from its first bytes. -/
theorem CompleteAt.length_eq {length length' : Nat} (h : CompleteAt buffer ⟨start, length⟩)
    (h' : CompleteAt buffer ⟨start, length'⟩) : length = length' :=
  h.2.2.1.trans h'.2.2.1.symm

theorem Framed.unique (h : Framed buffer start frames stop)
    (h' : Framed buffer start frames' stop') :
    frames = frames' ∧ stop = stop' := by
  induction h generalizing frames' stop' with
  | stop hnone =>
    cases h' with
    | stop _ => exact ⟨rfl, rfl⟩
    | frame hframe _ => exact absurd hframe (hnone _)
  | frame hframe _ ih =>
    cases h' with
    | stop hnone => exact absurd hframe (hnone _)
    | frame hframe' hrest' =>
      obtain rfl := hframe.length_eq hframe'
      obtain ⟨rfl, rfl⟩ := ih hrest'
      exact ⟨rfl, rfl⟩

end Frames

/-! ## The walk of the verifier -/

/-- What `parse_record_batches` did: the frames it pushed a batch for, where it stopped, and its
error, if any. -/
structure ParseTrace where
  pushed : List (Frame × ParsedBatch)
  stop : Nat
  error : Option Error

/-- The frames of a trace. -/
def ParseTrace.frames (trace : ParseTrace) : List Frame := trace.pushed.map Prod.fst

/-- What the parser returned. -/
def ParseTrace.result (trace : ParseTrace) : Result (List ParsedBatch) :=
  match trace.error with
  | none => .ok (trace.pushed.map Prod.snd)
  | some error => .error error

/-- The loop of `parse_record_batches`, with its trace. -/
def parseTraceFrom (records : List UInt8) (offset : Nat) : ParseTrace :=
  if offset + 61 ≤ records.length then
    let baseOffset := signedBe (slice records offset (offset + 8))
    let batchLength := signedBe (slice records (offset + 8) (offset + 12))
    if batchLength < 49 then
      { pushed := [], stop := offset
        error := some (.config s!"invalid record batch length: {batchLength}") }
    else
      let totalSize := 12 + batchLength.toNat
      if records.length < offset + totalSize then { pushed := [], stop := offset, error := none }
      else
        let magic := records.getD (offset + 16) 0
        if magic ≠ 2 then
          { pushed := [], stop := offset
            error := some (.unsupported s!"unsupported record batch magic: {magic}") }
        else
          let checksum := unsignedBe (slice records (offset + 17) (offset + 21))
          let lastOffsetDelta := signedBe (slice records (offset + 23) (offset + 27))
          let lastOffset := wrap64 (baseOffset + lastOffsetDelta)
          let trace := parseTraceFrom records (offset + totalSize)
          { trace with
            pushed :=
              (⟨offset, totalSize⟩, ParsedBatch.ofLast lastOffset checksum) :: trace.pushed }
  else { pushed := [], stop := offset, error := none }
termination_by records.length - offset

/-- The trace of `parse_record_batches`. -/
def parseTrace (records : List UInt8) : ParseTrace := parseTraceFrom records 0

/-- The trace is one of the parser itself. -/
theorem result_parseTraceFrom (records : List UInt8) (offset : Nat) :
    (parseTraceFrom records offset).result = parseRecordBatchesFrom records offset := by
  fun_induction parseTraceFrom records offset with
  | case1 offset hlength batchLength hshort =>
    rw [parseRecordBatchesFrom, if_pos hlength]
    simp only [ParseTrace.result]
    rw [if_pos hshort]
  | case2 offset hlength batchLength hshort totalSize hcut =>
    rw [parseRecordBatchesFrom, if_pos hlength]
    simp only [ParseTrace.result]
    rw [if_neg hshort, if_pos hcut]
    rfl
  | case3 offset hlength batchLength hshort totalSize hcut magic hmagic =>
    rw [parseRecordBatchesFrom, if_pos hlength]
    simp only [ParseTrace.result]
    rw [if_neg hshort, if_neg hcut, if_pos hmagic]
  | case4 offset hlength base batchLength hshort totalSize hcut magic hmagic checksum delta last
      trace
      ih =>
    rw [parseRecordBatchesFrom, if_pos hlength]
    simp only
    rw [if_neg hshort, if_neg hcut, if_neg hmagic, ← ih]
    simp only [ParseTrace.result]
    cases trace.error <;> rfl
  | case5 offset hlength =>
    rw [parseRecordBatchesFrom, if_neg hlength]
    rfl

section Parse

variable {records : List UInt8} {offset : Nat}

/-- Without an error the parser pushed a batch for each frame of the segment, and stopped where
they end. -/
theorem framed_of_parse (h : (parseTraceFrom records offset).error = none) :
    Framed records offset (parseTraceFrom records offset).frames
      (parseTraceFrom records offset).stop := by
  fun_induction parseTraceFrom records offset with
  | case1 => cases h
  | case2 offset hlength batchLength hshort totalSize hcut =>
    refine .stop ?_
    intro length hcomplete
    have htotal : length = totalSize := hcomplete.2.2.1
    have hfits : offset + length ≤ records.length := hcomplete.2.2.2
    omega
  | case3 => cases h
  | case4 offset hlength base batchLength hshort totalSize hcut magic hmagic checksum delta last
      trace
      ih =>
    refine .frame (completeAt_iff.2 ⟨?_, Int.not_lt.1 hshort, rfl, Nat.not_lt.1 hcut⟩) (ih h)
    omega
  | case5 offset hlength =>
    -- fewer than the 61 bytes of the smallest batch are left
    refine .stop ?_
    intro length hcomplete
    have hlow : 49 ≤ batchLengthAt records offset := hcomplete.2.1
    have htotal : length = 12 + (batchLengthAt records offset).toNat := hcomplete.2.2.1
    have hfits : offset + length ≤ records.length := hcomplete.2.2.2
    omega

theorem slice_drop (bytes : List UInt8) (start low high : Nat) :
    slice (bytes.drop start) low high = slice bytes (start + low) (start + high) := by
  rw [slice, slice, List.drop_drop]
  congr 1
  omega

/-- The last offset of a pushed batch is that of the first batch of the bytes from there on. -/
theorem lastOffset_of_pushed {entry : Frame × ParsedBatch}
    (h : entry ∈ (parseTraceFrom records offset).pushed) :
    firstBatchLastOffset (records.drop entry.1.start) = some entry.2.lastOffset := by
  fun_induction parseTraceFrom records offset with
  | case1 => exact absurd h List.not_mem_nil
  | case2 => exact absurd h List.not_mem_nil
  | case3 => exact absurd h List.not_mem_nil
  | case4 offset hlength base batchLength hshort totalSize hcut magic hmagic checksum delta last
      trace
      ih =>
    rcases List.mem_cons.1 h with hfirst | hrest
    · have hlong : ¬ (records.drop offset).length < 27 := by
        rw [List.length_drop]
        omega
      rw [hfirst, firstBatchLastOffset, if_neg hlong, slice_drop, slice_drop]
      rfl
    · exact ih hrest
  | case5 => exact absurd h List.not_mem_nil

end Parse

/-! ## The walk of the dump -/

/-- A frame decodes: its header, and with deep iteration its records. -/
def Decodes (reader : BatchReader) (options : DumpOptions) (bytes : List UInt8) : Prop :=
  ∃ lazy, reader.decode bytes = .ok lazy ∧
    (options.deep = true → ∃ records, reader.decodeAll lazy = .ok records)

section Dump

variable {reader : BatchReader} {options : DumpOptions} {path : String} {buffer : List UInt8}

/-- Printing a record does not fail. -/
theorem throws_printRecord (lazy : LazyRecordBatch) (record : Record) :
    Throws (fun _ => False) (printRecord options path lazy record) :=
  (Throws.modify _).bind fun _ => Throws.modify _

/-- A batch whose header decodes gets its line, and then its records are printed. -/
theorem decodeAndPrintBatch_eq {bytes : List UInt8} {lazy : LazyRecordBatch}
    (hlazy : reader.decode bytes = .ok lazy) (position : Int) :
    decodeAndPrintBatch reader options path bytes position =
      (printLine (batchLine lazy bytes position) >>= fun _ =>
        if options.deep then
          ofExcept ((reader.decodeAll lazy).mapError fun error =>
            Error.config ("failed to decode records in batch: " ++ error)) >>= fun records =>
          records.forM (printRecord options path lazy)
        else return ()) := by
  rw [decodeAndPrintBatch, hlazy]
  rfl

/-- A batch whose records do not decode fails. -/
theorem decodeAndPrintBatch_error (path : String) {bytes : List UInt8} {lazy : LazyRecordBatch}
    {fault : String}
    (hdeep : options.deep = true) (hlazy : reader.decode bytes = .ok lazy)
    (hall : reader.decodeAll lazy = .error fault) (position : Int) (state : DumpState) :
    ∃ error state', (decodeAndPrintBatch reader options path bytes position).run state =
      .error error state' := by
  rw [decodeAndPrintBatch_eq hlazy, if_pos hdeep, hall]
  exact ⟨_, _, rfl⟩

/-- A frame that decodes is printed. -/
theorem decodeAndPrintBatch_ok (path : String) {bytes : List UInt8}
    (h : Decodes reader options bytes) (position : Int) (state : DumpState) :
    ∃ state', (decodeAndPrintBatch reader options path bytes position).run state =
      .ok () state' := by
  obtain ⟨lazy, hlazy, hrecords⟩ := h
  have hthrows : Throws (fun _ => False)
      (decodeAndPrintBatch reader options path bytes position) := by
    rw [decodeAndPrintBatch_eq hlazy]
    refine (Throws.modify _).bind fun _ => ?_
    by_cases hdeep : options.deep = true
    · obtain ⟨records, hall⟩ := hrecords hdeep
      rw [if_pos hdeep, hall]
      exact Throws.forM fun record _ => throws_printRecord lazy record
    · rw [if_neg hdeep]
      exact Throws.pure ()
  obtain ⟨_, state', hrun⟩ := hthrows.returns state
  exact ⟨state', hrun⟩

/-- At a complete batch the loop prints it. -/
theorem dumpBatches_of_complete {frame : Frame} (h : CompleteAt buffer frame) (state : DumpState) :
    dumpBatches reader options path buffer frame.start state =
      match
        (decodeAndPrintBatch reader options path (frame.bytes buffer) frame.start).run state with
      | .ok _ state =>
        let walk := dumpBatches reader options path buffer (frame.start + frame.length) state
        { walk with frames := frame :: walk.frames }
      | .error error state =>
        { frames := [frame], stop := frame.start
          state := { state with out := state.out ++
            [s!"error decoding batch at position {frame.start}: " ++ error.text] } } := by
  obtain ⟨htwelve, hlow, htotal, hfits⟩ := h
  have hlength : signedBe (slice (buffer.drop frame.start) 8 12) =
      batchLengthAt buffer frame.start := by
    rw [slice_drop, batchLengthAt]
  rw [dumpBatches, if_pos (by omega), if_neg (by rw [List.length_drop]; omega)]
  simp only [hlength, Int.not_lt.2 hlow, if_false, ← htotal]
  rw [if_neg (by rw [List.length_drop]; omega)]
  rfl

/-- Where no complete batch stands the loop stops. -/
theorem dumpBatches_of_not_complete {start : Nat}
    (h : ∀ length, ¬ CompleteAt buffer ⟨start, length⟩) (state : DumpState) :
    dumpBatches reader options path buffer start state =
      { frames := [], stop := start, state } := by
  have hlength : signedBe (slice (buffer.drop start) 8 12) = batchLengthAt buffer start := by
    rw [slice_drop, batchLengthAt]
  rw [dumpBatches]
  simp only [hlength, List.length_drop]
  split_ifs with hcursor htwelve hlow hfits
  · rfl
  · rfl
  · rfl
  · exact absurd (completeAt_iff.2 ⟨by omega, Int.not_lt.1 hlow, rfl, by omega⟩) (h _)
  · rfl

/-- The loop visits the frames of a segment that all decode, and stops where they end. -/
theorem dumpBatches_of_framed (path : String) {start stop : Nat} {frames : List Frame}
    (h : Framed buffer start frames stop)
    (hdecodes : ∀ frame ∈ frames, Decodes reader options (frame.bytes buffer)) (state : DumpState) :
    (dumpBatches reader options path buffer start state).frames = frames ∧
      (dumpBatches reader options path buffer start state).stop = stop := by
  induction h generalizing state with
  | stop hnone =>
    rw [dumpBatches_of_not_complete hnone]
    exact ⟨rfl, rfl⟩
  | frame hframe _ ih =>
    obtain ⟨state', hrun⟩ := decodeAndPrintBatch_ok path (hdecodes _ List.mem_cons_self) _ state
    obtain ⟨hframes, hstop⟩ :=
      ih (fun frame hmem => hdecodes frame (List.mem_cons_of_mem _ hmem)) state'
    rw [dumpBatches_of_complete hframe, hrun]
    exact ⟨congrArg _ hframes, hstop⟩

end Dump

/-! ## The two walks -/

/-- **The two walks agree.** On a segment that the verifier parses and whose frames decode, the
dump visits the frames that the verifier pushes a batch for, and stops at the same offset; and the
verifier's last offset of each frame is that of the first batch of the bytes from there on. -/
theorem walks_agree (reader : BatchReader) (options : DumpOptions) (path : String)
    (records : List UInt8) (batches : List ParsedBatch) (state : DumpState)
    (hparse : parseRecordBatches records = .ok batches)
    (hdecodes : ∀ frame ∈ (parseTrace records).frames,
      Decodes reader options (frame.bytes records)) :
    (parseTrace records).pushed.map Prod.snd = batches ∧
      (dumpBatches reader options path records 0 state).frames = (parseTrace records).frames ∧
      (dumpBatches reader options path records 0 state).stop = (parseTrace records).stop ∧
      ∀ entry ∈ (parseTrace records).pushed,
        firstBatchLastOffset (records.drop entry.1.start) = some entry.2.lastOffset := by
  rw [parseRecordBatches, ← result_parseTraceFrom, ParseTrace.result] at hparse
  cases herror : (parseTraceFrom records 0).error with
  | some error => simp [herror] at hparse
  | none =>
    rw [herror] at hparse
    obtain ⟨hframes, hstop⟩ :=
      dumpBatches_of_framed path (framed_of_parse herror) hdecodes state
    exact ⟨Except.ok.inj hparse, hframes, hstop, fun entry hentry => lastOffset_of_pushed hentry⟩

/-! ## A batch whose records do not decode -/

/-- A batch of one record without compression, with its checksum. The record has the length 0, so
there is none of its fields to read. -/
def hollowBatch : List UInt8 :=
  [0, 0, 0, 0, 0, 0, 0, 0, 0, 0, 0, 50, 0, 0, 0, 0, 2, 17, 16, 220, 41, 0, 0, 0, 0, 0, 0, 0, 0, 0,
   0, 0, 0, 3, 232, 0, 0, 0, 0, 0, 0, 3, 232, 255, 255, 255, 255, 255, 255, 255, 255, 255, 255,
   255, 255, 255, 255, 0, 0, 0, 1, 0]

/-- Its header. -/
def hollowHeader : LazyRecordBatch where
  baseOffset := 0
  partitionLeaderEpoch := 0
  attributes :=
    { bits := 0, compression := .none, isTransactional := false, isControlBatch := false }
  lastOffsetDelta := 0
  baseTimestamp := 1000
  maxTimestamp := 1000
  producerId := -1
  producerEpoch := -1
  baseSequence := -1
  recordsCount := 1
  payload := [0]

/-- A reader of this batch. -/
def hollowReader : BatchReader where
  decode bytes := if bytes = hollowBatch then .ok hollowHeader else .error "CRC mismatch"
  decodeAll _ := .error "record is shorter than its fields"

def dumpStart : DumpState where
  lastOffset := -1
  nonConsecutive := ∅
  out := []

theorem parseTrace_hollowBatch : parseTrace hollowBatch =
    { pushed := [(⟨0, 62⟩, .ofLast 0 286317609)], stop := 62, error := none } := by
  have hlen : hollowBatch.length = 62 := by decide
  have hdone : parseTraceFrom hollowBatch 62 = { pushed := [], stop := 62, error := none } := by
    rw [parseTraceFrom, if_neg (by rw [hlen]; decide)]
  have hlength : signedBe (slice hollowBatch 8 12) = 50 := by decide
  have hmagic : hollowBatch.getD 16 0 = 2 := by decide
  have hlast : wrap64 (signedBe (slice hollowBatch 0 8) + signedBe (slice hollowBatch 23 27)) = 0 := by
    decide
  have hsum : unsignedBe (slice hollowBatch 17 21) = 286317609 := by decide
  rw [parseTrace, parseTraceFrom]
  simp only [Nat.zero_add, hlen, hlength, hmagic, hlast, hsum, Nat.reduceLeDiff, if_true,
    show ¬ (50 : Int) < 49 by decide, Int.reduceToNat, Nat.reduceAdd, Nat.lt_irrefl, if_false,
    ne_eq, not_true_eq_false, hdone]

theorem parseRecordBatches_hollowBatch :
    parseRecordBatches hollowBatch = .ok [.ofLast 0 286317609] := by
  rw [parseRecordBatches, ← result_parseTraceFrom, ← parseTrace, parseTrace_hollowBatch]
  rfl

/-- The one frame of the batch. -/
theorem bytes_hollowBatch :
    ∀ frame ∈ (parseTrace hollowBatch).frames, frame.bytes hollowBatch = hollowBatch := by
  rw [parseTrace_hollowBatch]
  intro frame hframe
  rw [List.mem_singleton.1 hframe]
  decide

theorem decode_hollowBatch : hollowReader.decode hollowBatch = .ok hollowHeader := by
  simp [hollowReader]

theorem walks_agree_hollowBatch :
    (parseTrace hollowBatch).pushed.map Prod.snd = [.ofLast 0 286317609] ∧
      (dumpBatches hollowReader ⟨false, false, false⟩ "0.log" hollowBatch 0 dumpStart).frames =
        (parseTrace hollowBatch).frames ∧
      (dumpBatches hollowReader ⟨false, false, false⟩ "0.log" hollowBatch 0 dumpStart).stop =
        (parseTrace hollowBatch).stop ∧
      ∀ entry ∈ (parseTrace hollowBatch).pushed,
        firstBatchLastOffset (hollowBatch.drop entry.1.start) = some entry.2.lastOffset := by
  refine walks_agree hollowReader ⟨false, false, false⟩ "0.log" hollowBatch _ dumpStart
    parseRecordBatches_hollowBatch ?_
  intro frame hframe
  rw [bytes_hollowBatch frame hframe]
  exact ⟨hollowHeader, decode_hollowBatch, by simp⟩

/-- With deep iteration the dump stops at this batch, although its header decodes. -/
theorem walks_differ_on_records : ¬ ∀ reader options path records batches state,
    parseRecordBatches records = .ok batches →
    (∀ frame ∈ (parseTrace records).frames, ∃ lazy,
      reader.decode (frame.bytes records) = .ok lazy) →
    (dumpBatches reader options path records 0 state).frames = (parseTrace records).frames ∧
      (dumpBatches reader options path records 0 state).stop = (parseTrace records).stop ∧
      ∀ entry ∈ (parseTrace records).pushed,
        firstBatchLastOffset (records.drop entry.1.start) = some entry.2.lastOffset := by
  intro h
  have hstop := (h hollowReader ⟨false, true, false⟩ "0.log" hollowBatch _ dumpStart
    parseRecordBatches_hollowBatch fun frame hframe =>
      ⟨hollowHeader, by rw [bytes_hollowBatch frame hframe, decode_hollowBatch]⟩).2.1
  have hcomplete : CompleteAt hollowBatch ⟨0, 62⟩ := ⟨by decide, by decide, by decide, by decide⟩
  have hbytes : (⟨0, 62⟩ : Frame).bytes hollowBatch = hollowBatch := by decide
  have hdeep : (⟨false, true, false⟩ : DumpOptions).deep = true := rfl
  obtain ⟨error, state, hrun⟩ := decodeAndPrintBatch_error "0.log" hdeep decode_hollowBatch rfl
    (⟨0, 62⟩ : Frame).start dumpStart
  rw [dumpBatches_of_complete hcomplete, hbytes, hrun, parseTrace_hollowBatch] at hstop
  simp at hstop

end KafkaCli.DumpLog
