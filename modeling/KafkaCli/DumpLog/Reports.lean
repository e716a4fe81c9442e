import KafkaCli.DumpLog.Framing
import KafkaCli.DumpLog.OffsetIndex
import KafkaCli.Lib.Checked
import KafkaCli.Lib.NestedMap

/-!
# What is reported at the end

`dump_log_segments` dumps file after file and then lists, by file, the gaps between record offsets
and the entries of an index that point to another batch than they say. It keeps both in maps: of a
gap the offset before it is the key, of a mismatch the offset of the entry.

**Theorem (`reportsAll_iff`).** Everything is listed exactly under `NothingReplaced`: an offset that
comes again, with another gap behind it, replaces its first gap.

`Noted` says what a stretch of a log leaves in the state: the gaps between its record offsets
(`gapsFrom`), with the last offset carried over from batch to batch. Files do not touch what is
noted of other files (`KeepsFile`, `KeepsIndex`).
-/

namespace KafkaCli.DumpLog

open NestedMap Run

/-! ## The run over the files -/

/-- A file of the command, with what it holds: a log, or an index and the log beside it. -/
inductive SegmentFile
  | log (path name : String) (file : Except String (List UInt8))
  | index (path name : String) (file : Except String (List UInt8))
      (log : Except String (Option (List UInt8)))

def SegmentFile.path : SegmentFile → String
  | log path .. => path
  | index path .. => path

structure SegmentsOptions where
  dump : DumpOptions
  maxBytes : Int
  index : IndexOptions

/-- What `dump_log_segments` remembers over all files. -/
structure SegmentsState where
  nonConsecutive : Std.TreeMap String (Std.TreeMap Int Int)
  mismatches : Std.TreeMap String (Std.TreeMap Int Int)
  out : List String

/-- One file of `dump_log_segments`. -/
def dumpFile (reader : BatchReader) (options : SegmentsOptions) (state : SegmentsState)
    (file : SegmentFile) : Result SegmentsState :=
  match file with
  | .log path name content =>
    match (dumpLogFile reader options.dump path name options.maxBytes content).run
        { lastOffset := -1, nonConsecutive := state.nonConsecutive, out := state.out } with
    | .ok _ dump => .ok { state with nonConsecutive := dump.nonConsecutive, out := dump.out }
    | .error error _ => .error error
  | .index path name content log =>
    match (dumpOffsetIndex options.index path name content log).run
        { mismatches := state.mismatches, out := state.out } with
    | .ok _ index => .ok { state with mismatches := index.mismatches, out := index.out }
    | .error error _ => .error error

/-- The files of `dump_log_segments`, one after the other. -/
def dumpFiles (reader : BatchReader) (options : SegmentsOptions) (files : List SegmentFile) :
    Result SegmentsState :=
  files.foldlM (dumpFile reader options) { nonConsecutive := ∅, mismatches := ∅, out := [] }

/-! ## Gaps -/

/-- The gaps between offsets that follow one another, the first of them after `last`, as
`decode_and_print_batch` finds them. -/
def gapsFrom : (last : Int) → List Int → List (Int × Int)
  | _, [] => []
  | last, offset :: offsets =>
    (if last ≥ 0 ∧ offset ≠ wrap64 (last + 1) then [(last, offset)] else []) ++
      gapsFrom offset offsets

theorem gapsFrom_append (last : Int) (offsets offsets' : List Int) :
    gapsFrom last (offsets ++ offsets') =
      gapsFrom last offsets ++ gapsFrom (offsets.getLast?.getD last) offsets' := by
  induction offsets generalizing last with
  | nil => rfl
  | cons offset offsets ih =>
    rw [List.cons_append, gapsFrom, ih, gapsFrom, List.append_assoc]
    congr 3
    cases offsets <;> simp [List.getLast?_cons]

/-- The record offsets were noted one after the other. -/
structure Noted (path : String) (offsets : List Int) (state state' : DumpState) : Prop where
  last : state'.lastOffset = offsets.getLast?.getD state.lastOffset
  gaps : state'.nonConsecutive =
    noteAll state.nonConsecutive path (gapsFrom state.lastOffset offsets)

theorem Noted.refl (path : String) (state : DumpState) : Noted path [] state state := ⟨rfl, rfl⟩

theorem Noted.trans {path : String} {offsets offsets' : List Int} {state state' state'' : DumpState}
    (h : Noted path offsets state state') (h' : Noted path offsets' state' state'') :
    Noted path (offsets ++ offsets') state state'' where
  last := by
    rw [h'.last, h.last]
    cases hlast : offsets'.getLast? with
    | none =>
      rw [List.getLast?_eq_none_iff.1 hlast, List.append_nil]
      rfl
    | some last => simp [List.getLast?_append, hlast]
  gaps := by rw [h'.gaps, h.gaps, h.last, ← noteAll_append, ← gapsFrom_append]

/-- The program notes the offsets, and does not fail. -/
def Notes (path : String) (offsets : List Int) (x : Dump Unit) : Prop :=
  ∀ state, ∃ state', x.run state = .ok () state' ∧ Noted path offsets state state'

section Notes

variable {path : String} {offsets offsets' : List Int} {x : Dump Unit} {y : Unit → Dump Unit}

theorem Notes.bind (hx : Notes path offsets x) (hy : Notes path offsets' (y ())) :
    Notes path (offsets ++ offsets') (x >>= y) := by
  intro state
  obtain ⟨state', hrun, hnoted⟩ := hx state
  obtain ⟨state'', hrun', hnoted'⟩ := hy state'
  exact ⟨state'', (bind_of_ok hrun y).trans hrun', hnoted.trans hnoted'⟩

theorem notes_printLine (path line : String) : Notes path [] (printLine line) :=
  fun _ => ⟨_, rfl, rfl, rfl⟩

theorem notes_noteOffset (path : String) (offset : Int) :
    Notes path [offset] (noteOffset path offset) := by
  intro state
  refine ⟨_, rfl, rfl, ?_⟩
  simp only [gapsFrom, List.append_nil]
  split_ifs with hgap
  · rfl
  · rfl

/-- The offset of a record. -/
def recordOffset (lazy : LazyRecordBatch) (record : Record) : Int :=
  wrap64 (lazy.baseOffset + record.offsetDelta)

theorem notes_printRecord (options : DumpOptions) (path : String) (lazy : LazyRecordBatch)
    (record : Record) :
    Notes path [recordOffset lazy record] (printRecord options path lazy record) := by
  have hnote := notes_noteOffset path (recordOffset lazy record)
  exact hnote.bind (notes_printLine path _)

theorem notes_printRecords (options : DumpOptions) (path : String) (lazy : LazyRecordBatch)
    (records : List Record) : Notes path (records.map (recordOffset lazy))
      (records.forM (printRecord options path lazy)) := by
  induction records with
  | nil => exact fun state => ⟨state, rfl, .refl path state⟩
  | cons record records ih =>
    exact (notes_printRecord options path lazy record).bind ih

end Notes

/-! ## The offsets of a segment -/

/-- The record offsets of a batch that decodes. -/
def frameOffsets (reader : BatchReader) (bytes : List UInt8) : Except String (List Int) := do
  let lazy ← reader.decode bytes
  let records ← reader.decodeAll lazy
  return records.map (recordOffset lazy)

/-- From an offset on, a segment is a sequence of batches that all decode, with these record
offsets. -/
inductive SegmentOffsets (reader : BatchReader) (buffer : List UInt8) : Nat → List Int → Prop
  | stop {start : Nat} (h : ∀ length, ¬ CompleteAt buffer ⟨start, length⟩) :
      SegmentOffsets reader buffer start []
  | batch {frame : Frame} {offsets rest : List Int} (h : CompleteAt buffer frame)
      (hoffsets : frameOffsets reader (frame.bytes buffer) = .ok offsets)
      (hrest : SegmentOffsets reader buffer (frame.start + frame.length) rest) :
      SegmentOffsets reader buffer frame.start (offsets ++ rest)

section Segment

variable {reader : BatchReader} {options : DumpOptions} {buffer : List UInt8}

theorem notes_decodeAndPrintBatch (hdeep : options.deep = true) (path : String)
    {bytes : List UInt8} {offsets : List Int} (h : frameOffsets reader bytes = .ok offsets)
    (position : Int) :
    Notes path offsets (decodeAndPrintBatch reader options path bytes position) := by
  obtain ⟨lazy, hlazy, hrest⟩ := Checked.bind_eq_ok.1 h
  obtain ⟨records, hrecords, hrest⟩ := Checked.bind_eq_ok.1 hrest
  cases hrest
  rw [decodeAndPrintBatch_eq hlazy, if_pos hdeep, hrecords]
  exact (notes_printLine path _).bind (notes_printRecords options path lazy records)

theorem noted_dumpBatches (hdeep : options.deep = true) (path : String) {start : Nat}
    {offsets : List Int} (h : SegmentOffsets reader buffer start offsets) (state : DumpState) :
    Noted path offsets state (dumpBatches reader options path buffer start state).state := by
  induction h generalizing state with
  | stop hnone =>
    rw [dumpBatches_of_not_complete hnone]
    exact .refl path state
  | @batch frame _ _ hframe hoffsets _ ih =>
    obtain ⟨state', hrun, hnoted⟩ :=
      notes_decodeAndPrintBatch hdeep path hoffsets frame.start state
    rw [dumpBatches_of_complete hframe, hrun]
    exact hnoted.trans (ih state')

/-- What is read of a log. -/
def dumpedBytes (maxBytes : Int) (content : List UInt8) : List UInt8 :=
  content.take (if maxBytes < 0 then content.length else min maxBytes.toNat content.length)

/-- The dump of a log keeps the gaps that its loop finds. -/
theorem run_dumpLogFile (reader : BatchReader) (options : DumpOptions) (path name : String)
    (maxBytes : Int) (content : List UInt8) (state : DumpState) :
    ∃ before after, before.lastOffset = -1 ∧ before.nonConsecutive = state.nonConsecutive ∧
      (dumpLogFile reader options path name maxBytes (.ok content)).run state = .ok () after ∧
      after.nonConsecutive = (dumpBatches reader options path (dumpedBytes maxBytes content) 0
        before).state.nonConsecutive := by
  have hline : Notes path [] ((fileLine name).forM printLine) := by
    cases fileLine name with
    | none => exact fun state => ⟨state, rfl, .refl path state⟩
    | some line => exact notes_printLine path line
  obtain ⟨first, hfirst, hnoted⟩ := hline state
  have hlast : ∀ (p : Prop) [Decidable p] (line : String),
      Notes path [] (if p then printLine line else return ()) := by
    intro p _ line
    split_ifs
    · exact notes_printLine path line
    · exact fun state => ⟨state, rfl, .refl path state⟩
  let limit := if maxBytes < 0 then content.length else min maxBytes.toNat content.length
  let walk := dumpBatches reader options path (content.take limit) 0 { first with lastOffset := -1 }
  let trailing := (content.take limit).length - walk.stop
  obtain ⟨after, hafter, hnoted'⟩ := hlast (trailing > 0 ∧ walk.stop < limit)
    (s!"Found invalid bytes at the end of {path} starting at byte offset {walk.stop}: " ++
      s!"{trailing} bytes remaining") walk.state
  refine ⟨{ first with lastOffset := -1 }, after, rfl, hnoted.gaps, ?_, hnoted'.gaps⟩
  rw [dumpLogFile, bind_of_ok hfirst]
  exact hafter

end Segment

/-! ## Other files -/

/-- What is noted of a file stays. -/
def KeepsFile (file : String) (state state' : DumpState) : Prop :=
  valueIn state'.nonConsecutive file = valueIn state.nonConsecutive file

instance (file : String) : IsPreorder DumpState (KeepsFile file) where
  refl _ := rfl
  trans _ _ _ h h' := Eq.trans h' h

section Other

variable {reader : BatchReader} {options : DumpOptions} {path file : String}

theorem moves_printLine (line : String) : Moves (KeepsFile file) (printLine line) :=
  .modify fun _ => rfl

theorem moves_noteOffset (h : file ≠ path) (offset : Int) :
    Moves (KeepsFile file) (noteOffset path offset) := by
  refine .modify fun state => ?_
  simp only [KeepsFile]
  split_ifs with hgap
  · exact valueIn_note_of_ne h (state.lastOffset, offset)
  · rfl

theorem moves_decodeAndPrintBatch (h : file ≠ path) (bytes : List UInt8) (position : Int) :
    Moves (KeepsFile file) (decodeAndPrintBatch reader options path bytes position) := by
  refine (Moves.ofExcept _).bind fun lazy => (moves_printLine _).bind fun _ => ?_
  refine .ite ((Moves.ofExcept _).bind fun records => .forM fun record _ => ?_) (.pure _)
  exact (moves_noteOffset h _).bind fun _ => moves_printLine _

theorem keepsFile_dumpBatches (reader : BatchReader) (options : DumpOptions)
    (buffer : List UInt8) (h : file ≠ path) (cursor : Nat) (state : DumpState) :
    KeepsFile file state (dumpBatches reader options path buffer cursor state).state := by
  fun_induction dumpBatches reader options path buffer cursor state with
  | case1 => exact refl_of _ _
  | case2 => exact refl_of _ _
  | case3 => exact refl_of _ _
  | case4 cursor state hcursor remaining htwelve batchLength hlow total hfits done next hrun walk
      ih =>
    exact trans_of (KeepsFile file) ((moves_decodeAndPrintBatch h _ _).of_ok hrun) ih
  | case5 cursor state hcursor remaining htwelve batchLength hlow total hfits error next hrun =>
    have hkeeps : KeepsFile file state next := (moves_decodeAndPrintBatch h _ _).of_error hrun
    exact hkeeps
  | case6 => exact refl_of _ _

theorem keepsFile_dumpLogFile (h : file ≠ path) (name : String) (maxBytes : Int)
    (content : List UInt8) {state state' : DumpState}
    (hrun : (dumpLogFile reader options path name maxBytes (.ok content)).run state =
      .ok () state') : KeepsFile file state state' := by
  obtain ⟨before, after, _, hbefore, hrun', hafter⟩ :=
    run_dumpLogFile reader options path name maxBytes content state
  cases hrun.symm.trans hrun'
  have hloop :=
    keepsFile_dumpBatches reader options (dumpedBytes maxBytes content) h 0 before
  rw [KeepsFile, hafter, hloop, hbefore]

end Other

/-! ## The gaps of a log -/

/-- The gaps between adjacent record offsets. -/
def gaps (offsets : List Int) : List (Int × Int) :=
  (offsets.zip offsets.tail).filter fun pair => pair.2 ≠ pair.1 + 1

theorem wrap64_lt (x : Int) : wrap64 x < 2 ^ 63 := (fits_wrap64 x).2

theorem SegmentOffsets.lt {reader : BatchReader} {buffer : List UInt8} {start : Nat}
    {offsets : List Int} (h : SegmentOffsets reader buffer start offsets) :
    ∀ offset ∈ offsets, offset < 2 ^ 63 := by
  induction h with
  | stop _ => simp
  | batch _ hoffsets _ ih =>
    obtain ⟨lazy, _, hrest⟩ := Checked.bind_eq_ok.1 hoffsets
    obtain ⟨records, _, hrest⟩ := Checked.bind_eq_ok.1 hrest
    cases hrest
    intro offset hoffset
    rcases List.mem_append.1 hoffset with hfirst | hrest
    · obtain ⟨record, _, rfl⟩ := List.mem_map.1 hfirst
      exact wrap64_lt _
    · exact ih offset hrest

/-- The next offset of an offset that is not negative is another one also where it overflows. -/
theorem ne_wrap64_iff {last offset : Int} (hlast : 0 ≤ last) (hlt : last < 2 ^ 63)
    (hoffset : 0 ≤ offset) (hoffset' : offset < 2 ^ 63) :
    offset ≠ wrap64 (last + 1) ↔ offset ≠ last + 1 := by
  by_cases hover : last + 1 < 2 ^ 63
  · have hsame : wrap64 (last + 1) = last + 1 := wrap64_of_fits ⟨by omega, by omega⟩
    rw [hsame]
  · obtain rfl : last = 2 ^ 63 - 1 := by omega
    have hwrapped : wrap64 (2 ^ 63 - 1 + 1) = -2 ^ 63 := by decide
    rw [hwrapped]
    omega

theorem gapsFrom_eq {last : Int} {offsets : List Int} (hlast : 0 ≤ last) (hlt : last < 2 ^ 63)
    (hoffsets : ∀ offset ∈ offsets, 0 ≤ offset ∧ offset < 2 ^ 63) :
    gapsFrom last offsets = gaps (last :: offsets) := by
  induction offsets generalizing last with
  | nil => rfl
  | cons offset offsets ih =>
    rw [List.forall_mem_cons] at hoffsets
    obtain ⟨⟨hlow, hhigh⟩, hrest⟩ := hoffsets
    have hzip : gaps (last :: offset :: offsets) =
        (if offset ≠ last + 1 then [(last, offset)] else []) ++ gaps (offset :: offsets) := by
      rw [gaps, List.tail_cons, List.zip_cons_cons, List.filter_cons]
      split_ifs with h h' h' <;> simp_all [gaps]
    rw [gapsFrom, ih hlow hhigh hrest, hzip]
    simp only [ge_iff_le, hlast, true_and, ne_wrap64_iff hlast hlt hlow hhigh]

/-- The dump finds all gaps between offsets that are not negative. -/
theorem gapsFrom_start {offsets : List Int}
    (hoffsets : ∀ offset ∈ offsets, 0 ≤ offset ∧ offset < 2 ^ 63) :
    gapsFrom (-1) offsets = gaps offsets := by
  cases offsets with
  | nil => rfl
  | cons offset offsets =>
    rw [List.forall_mem_cons] at hoffsets
    rw [gapsFrom, if_neg (by omega), List.nil_append,
      gapsFrom_eq hoffsets.1.1 hoffsets.1.2 hoffsets.2]

/-! ## The mismatches of an index -/

/-- An entry of an index points into the log, to a batch whose last offset is not the entry's. -/
structure Mismatch (base : Int) (log : List UInt8) (entry : IndexEntry) (last : Int) : Prop where
  nonneg : 0 ≤ entry.position
  inside : entry.position.toNat < log.length
  found : firstBatchLastOffset (log.drop entry.position.toNat) = some last
  differs : last ≠ entry.offset base

/-- The header of a batch is found in a part of the bytes that is as long as one. -/
theorem firstBatchLastOffset_take (bytes : List UInt8) (n : Nat) :
    firstBatchLastOffset (bytes.take n) =
      if 27 ≤ n then firstBatchLastOffset bytes else none := by
  by_cases hn : 27 ≤ n
  · have hslice : ∀ low high, high ≤ 27 → slice (bytes.take n) low high = slice bytes low high := by
      intro low high hhigh
      rw [slice, slice, List.drop_take, List.take_take]
      congr 1
      omega
    rw [if_pos hn, firstBatchLastOffset, firstBatchLastOffset, List.length_take,
      hslice 0 8 (by omega), hslice 23 27 (by omega)]
    by_cases hlength : bytes.length < 27
    · rw [if_pos hlength, if_pos (by omega)]
    · rw [if_neg hlength, if_neg (by omega)]
  · rw [if_neg hn, firstBatchLastOffset, if_pos]
    rw [List.length_take]
    omega

theorem mismatchOf_eq_some {options : IndexOptions} {log : List UInt8} {base last : Int}
    {entry : IndexEntry} :
    mismatchOf options (some log) (entry.offset base) entry.position = some last ↔
      Mismatch base log entry last ∧ 27 ≤ maxSize options := by
  have hslice : slice log entry.position.toNat
      (min (entry.position.toNat + maxSize options) log.length) =
        (log.drop entry.position.toNat).take (maxSize options) := by
    rw [slice, List.take_eq_take_iff, List.length_drop]
    omega
  rw [mismatchOf, Option.bind_eq_bind, Option.bind_some]
  by_cases hinside : 0 ≤ entry.position ∧ entry.position.toNat < log.length
  · simp only [if_pos hinside, hslice, firstBatchLastOffset_take, Option.bind_eq_bind,
      Option.bind_eq_some_iff]
    constructor
    · rintro ⟨found, hfound, hlast⟩
      split_ifs at hfound hlast with hsize hdiffers
      cases hlast
      exact ⟨⟨hinside.1, hinside.2, hfound, hdiffers⟩, hsize⟩
    · rintro ⟨hmismatch, hsize⟩
      exact ⟨last, by rw [if_pos hsize, hmismatch.found], if_pos hmismatch.differs⟩
  · rw [if_neg hinside]
    exact iff_of_false (Option.some_ne_none last).symm fun h => hinside ⟨h.1.nonneg, h.1.inside⟩

/-- What is noted of the entries. -/
def mismatchesOf (options : IndexOptions) (base : Int) (log : Option (List UInt8))
    (entries : List IndexEntry) : List (Int × Int) :=
  entries.filterMap fun entry =>
    (mismatchOf options log (entry.offset base) entry.position).map (entry.offset base, ·)

theorem mismatches_dumpEntry (options : IndexOptions) (path : String) (base : Int)
    (log : Option (List UInt8)) (state : IndexState) (entry : IndexEntry) :
    (dumpEntry options path base log state entry).mismatches =
      noteAll state.mismatches path (mismatchesOf options base log [entry]) := by
  rw [mismatchesOf, List.filterMap_cons, List.filterMap_nil, dumpEntry]
  cases mismatchOf options log (entry.offset base) entry.position with
  | none => cases options.verifyOnly <;> rfl
  | some last => cases options.verifyOnly <;> rfl

theorem mismatches_foldl_dumpEntry (options : IndexOptions) (path : String) (base : Int)
    (log : Option (List UInt8)) (entries : List IndexEntry) (state : IndexState) :
    (entries.foldl (dumpEntry options path base log) state).mismatches =
      noteAll state.mismatches path (mismatchesOf options base log entries) := by
  induction entries generalizing state with
  | nil => rfl
  | cons entry entries ih =>
    have hsplit : mismatchesOf options base log (entry :: entries) =
        mismatchesOf options base log [entry] ++ mismatchesOf options base log entries :=
      List.filterMap_append (l := [entry])
    rw [List.foldl_cons, ih, mismatches_dumpEntry, hsplit, noteAll_append]

/-- The dump of an index notes the mismatches of its entries. -/
theorem mismatches_dumpOffsetIndex {options : IndexOptions} {path name : String} {base : Int}
    {data : List UInt8} {log : Option (List UInt8)}
    (hbase : baseOffsetFromName path name = .ok base) (hsanity : options.sanityOnly = false)
    {state state' : IndexState}
    (hrun : (dumpOffsetIndex options path name (.ok data) (.ok log)).run state = .ok () state') :
    state'.mismatches = noteAll state.mismatches path
      (mismatchesOf options base log (logicalEntries (indexEntries data))) := by
  by_cases hdata : data = []
  · rw [dumpOffsetIndex, hbase] at hrun
    change ((if data = [] then _ else _) : IndexDump Unit).run state = _ at hrun
    rw [if_pos hdata] at hrun
    cases hrun
    rw [hdata]
    rfl
  · by_cases hlength : data.length % 8 = 0
    · cases hrun.symm.trans (run_dumpOffsetIndex hbase hdata hlength hsanity rfl state)
      exact mismatches_foldl_dumpEntry options path base log _ state
    · rw [dumpOffsetIndex, hbase] at hrun
      change ((if data = [] then _ else _) : IndexDump Unit).run state = _ at hrun
      rw [if_neg hdata, if_pos hlength] at hrun
      cases hrun

/-- What is noted of another index stays. -/
def KeepsIndex (file : String) (state state' : IndexState) : Prop :=
  valueIn state'.mismatches file = valueIn state.mismatches file

instance (file : String) : IsPreorder IndexState (KeepsIndex file) where
  refl _ := rfl
  trans _ _ _ h h' := Eq.trans h' h

theorem moves_dumpOffsetIndex {options : IndexOptions} {path file name : String} (h : file ≠ path)
    {content : Except String (List UInt8)} {log : Except String (Option (List UInt8))} :
    Moves (KeepsIndex file) (dumpOffsetIndex options path name content log) := by
  refine (Moves.ofExcept _).bind fun base => (Moves.ofExcept _).bind fun data => ?_
  refine .ite (.modify fun _ => rfl) (.ite (.throw _) (.ite ?_ ?_))
  · exact (Moves.ofExcept _).bind fun _ => .modify fun _ => rfl
  · refine (Moves.ofExcept _).bind fun log => .modify fun state => ?_
    rw [KeepsIndex, dumpEntries_eq_foldl, mismatches_foldl_dumpEntry, valueIn_noteAll_of_ne h]

/-! ## What is listed in the end -/

/-- Everything that was noted of a file is what is listed of it, once it was dumped. -/
def ListedAs (maps : Std.TreeMap String (Std.TreeMap Int Int)) (path : String)
    (entries : List (Int × Int)) : Prop :=
  ∀ key, valueIn maps path key = entries.reverse.lookup key

/-- Noting the same entries again changes nothing. -/
theorem listedAs_noteAll {maps : Std.TreeMap String (Std.TreeMap Int Int)} {path : String}
    {entries : List (Int × Int)}
    (h : (∀ key, valueIn maps path key = none) ∨ ListedAs maps path entries) :
    ListedAs (noteAll maps path entries) path entries := by
  intro key
  rw [valueIn_noteAll_self]
  rcases h with hnone | hlisted
  · rw [hnone, Option.or_none]
  · rw [hlisted, Option.or_self]

theorem ListedAs.iff {maps : Std.TreeMap String (Std.TreeMap Int Int)} {path : String}
    {entries : List (Int × Int)} (h : ListedAs maps path entries) :
    (∀ entry, Listed maps path entry ↔ entry ∈ entries) ↔ SingleValued entries := by
  rw [← lookup_reverse_iff]
  simp only [listed_iff, h _, Prod.forall]

section Run

variable {reader : BatchReader} {options : SegmentsOptions} {files : List SegmentFile}
  {state state' : SegmentsState} {path name : String} {content : List UInt8}

/-- What a log changes. -/
theorem dumpFile_log_eq_ok {content : Except String (List UInt8)} :
    dumpFile reader options state (.log path name content) = .ok state' ↔
      ∃ dump, (dumpLogFile reader options.dump path name options.maxBytes content).run
          { lastOffset := -1, nonConsecutive := state.nonConsecutive, out := state.out } =
            .ok ⟨⟩ dump ∧
        state' = { state with nonConsecutive := dump.nonConsecutive, out := dump.out } := by
  unfold dumpFile
  cases hrun : (dumpLogFile reader options.dump path name options.maxBytes content).run
      { lastOffset := -1, nonConsecutive := state.nonConsecutive, out := state.out } with
  | ok _ dump => simp [hrun, eq_comm]
  | error fault dump => simp [hrun]

/-- What an index changes. -/
theorem dumpFile_index_eq_ok {data : Except String (List UInt8)}
    {log : Except String (Option (List UInt8))} :
    dumpFile reader options state (.index path name data log) = .ok state' ↔
      ∃ index, (dumpOffsetIndex options.index path name data log).run
          { mismatches := state.mismatches, out := state.out } = .ok ⟨⟩ index ∧
        state' = { state with mismatches := index.mismatches, out := index.out } := by
  unfold dumpFile
  cases hrun : (dumpOffsetIndex options.index path name data log).run
      { mismatches := state.mismatches, out := state.out } with
  | ok _ index => simp [hrun, eq_comm]
  | error fault index => simp [hrun]

/-- One log of the run. -/
theorem nonConsecutive_dumpLog (hdeep : options.dump.deep = true) {offsets : List Int}
    (hsegment : SegmentOffsets reader (dumpedBytes options.maxBytes content) 0 offsets)
    (hoffsets : ∀ offset ∈ offsets, 0 ≤ offset)
    (h : dumpFile reader options state (.log path name (.ok content)) = .ok state') :
    state'.nonConsecutive = noteAll state.nonConsecutive path (gaps offsets) := by
  obtain ⟨dump, hdump, rfl⟩ := dumpFile_log_eq_ok.1 h
  obtain ⟨before, after, hlast, hbefore, hrun, hafter⟩ :=
    run_dumpLogFile reader options.dump path name options.maxBytes content
      { lastOffset := -1, nonConsecutive := state.nonConsecutive, out := state.out }
  cases hrun.symm.trans hdump
  have hnoted := (noted_dumpBatches hdeep path hsegment before).gaps
  rw [hlast, gapsFrom_start fun o ho => ⟨hoffsets o ho, hsegment.lt o ho⟩, hbefore] at hnoted
  exact hafter.trans hnoted

/-- Files of other paths leave what is noted of a log. -/
theorem valueIn_dumpFile {file : SegmentFile} (hpath : file.path ≠ path)
    (h : dumpFile reader options state file = .ok state') :
    valueIn state'.nonConsecutive path = valueIn state.nonConsecutive path := by
  cases file with
  | log path' name' content' =>
    obtain ⟨dump, hrun, rfl⟩ := dumpFile_log_eq_ok.1 h
    cases content' with
    | error fault =>
      rw [dumpLogFile] at hrun
      obtain ⟨_, _, _, hrest⟩ := Run.bind_eq_ok.1 hrun
      cases hrest
    | ok content' =>
      exact keepsFile_dumpLogFile (Ne.symm hpath) name' options.maxBytes content' hrun
  | index path' name' content' log =>
    obtain ⟨index, _, rfl⟩ := dumpFile_index_eq_ok.1 h
    rfl

/-- The same for an index. -/
theorem valueIn_mismatches_dumpFile {file : SegmentFile} (hpath : file.path ≠ path)
    (h : dumpFile reader options state file = .ok state') :
    valueIn state'.mismatches path = valueIn state.mismatches path := by
  cases file with
  | log path' name' content' =>
    obtain ⟨dump, _, rfl⟩ := dumpFile_log_eq_ok.1 h
    rfl
  | index path' name' content' log =>
    obtain ⟨index, hrun, rfl⟩ := dumpFile_index_eq_ok.1 h
    exact (moves_dumpOffsetIndex (Ne.symm hpath)).of_ok hrun

/-- Each path is the one of one file. -/
def OneFileEach (files : List SegmentFile) : Prop :=
  ∀ file ∈ files, ∀ other ∈ files, other.path = file.path → other = file

/-- What the dump of one file notes is listed of it at the end, if no other file notes anything of
it. -/
theorem listedAs_of_dumpFiles (maps : SegmentsState → Std.TreeMap String (Std.TreeMap Int Int))
    {file : SegmentFile} {entries : List (Int × Int)} (hone : OneFileEach files)
    (hmem : file ∈ files) (hstart : maps { nonConsecutive := ∅, mismatches := ∅, out := [] } = ∅)
    (hself : ∀ s s', dumpFile reader options s file = .ok s' →
      maps s' = noteAll (maps s) file.path entries)
    (hother : ∀ other s s', other.path ≠ file.path → dumpFile reader options s other = .ok s' →
      valueIn (maps s') file.path = valueIn (maps s) file.path)
    (hrun : dumpFiles reader options files = .ok state') :
    ListedAs (maps state') file.path entries := by
  have hnoted : ∀ s s', (∀ key, valueIn (maps s) file.path key = none) ∨
      ListedAs (maps s) file.path entries → dumpFile reader options s file = .ok s' →
      ListedAs (maps s') file.path entries := by
    intro s s' hs h
    rw [hself s s' h]
    exact listedAs_noteAll hs
  have hcases : ∀ other ∈ files, other = file ∨ other.path ≠ file.path := by
    intro other hmem'
    by_cases hpath : other.path = file.path
    · exact .inl (hone file hmem other hmem' hpath)
    · exact .inr hpath
  refine Checked.foldlM_reaches
    (P := fun s => (∀ key, valueIn (maps s) file.path key = none) ∨
      ListedAs (maps s) file.path entries)
    (Q := fun s => ListedAs (maps s) file.path entries) hmem ?_ ?_ hnoted (.inl ?_) hrun
  · intro other hmem' s s' hs h
    rcases hcases other hmem' with rfl | hpath
    · exact .inr (hnoted s s' hs h)
    · rwa [ListedAs, hother other s s' hpath h]
  · intro other hmem' s s' hs h
    rcases hcases other hmem' with rfl | hpath
    · exact hnoted s s' (.inr hs) h
    · rwa [ListedAs, hother other s s' hpath h]
  · intro key
    rw [hstart]
    simp [valueIn]

/-- **The gaps of a log** are listed, each offset with the last one that followed it. -/
theorem listedAs_gaps (hone : OneFileEach files) (hdeep : options.dump.deep = true)
    (hmem : .log path name (.ok content) ∈ files) {offsets : List Int}
    (hsegment : SegmentOffsets reader (dumpedBytes options.maxBytes content) 0 offsets)
    (hoffsets : ∀ offset ∈ offsets, 0 ≤ offset)
    (hrun : dumpFiles reader options files = .ok state') :
    ListedAs state'.nonConsecutive path (gaps offsets) :=
  listedAs_of_dumpFiles SegmentsState.nonConsecutive hone hmem rfl
    (fun _ _ h => nonConsecutive_dumpLog hdeep hsegment hoffsets h)
    (fun _ _ _ hpath h => valueIn_dumpFile hpath h) hrun

/-- **The mismatches of an index** are listed, each offset with the last one that was found. -/
theorem listedAs_mismatches (hone : OneFileEach files) (hsanity : options.index.sanityOnly = false)
    {data log : List UInt8} {base : Int}
    (hmem : .index path name (.ok data) (.ok (some log)) ∈ files)
    (hbase : baseOffsetFromName path name = .ok base)
    (hrun : dumpFiles reader options files = .ok state') :
    ListedAs state'.mismatches path
      (mismatchesOf options.index base (some log) (logicalEntries (indexEntries data))) := by
  refine listedAs_of_dumpFiles SegmentsState.mismatches hone hmem rfl (fun s s' h => ?_)
    (fun _ _ _ hpath h => valueIn_mismatches_dumpFile hpath h) hrun
  obtain ⟨index, hindex, rfl⟩ := dumpFile_index_eq_ok.1 h
  exact mismatches_dumpOffsetIndex hbase hsanity hindex

end Run

/-! ## The theorem -/

/-- All gaps of the logs are listed and nothing else, and all mismatches of the indices. -/
structure ReportsAll (reader : BatchReader) (options : SegmentsOptions) (files : List SegmentFile)
    (state : SegmentsState) : Prop where
  gaps : ∀ path name content offsets, .log path name (.ok content) ∈ files →
    SegmentOffsets reader (dumpedBytes options.maxBytes content) 0 offsets →
    (∀ offset ∈ offsets, 0 ≤ offset) →
    ∀ pair, Listed state.nonConsecutive path pair ↔ pair ∈ gaps offsets
  mismatches : ∀ path name base data log, .index path name (.ok data) (.ok (some log)) ∈ files →
    baseOffsetFromName path name = .ok base →
    ∀ entry ∈ logicalEntries (indexEntries data), ∀ last, Mismatch base log entry last →
      Listed state.mismatches path (entry.offset base, last)

/-- No offset is followed by two others over gaps. No two entries of an index with the same offset
point to batches with other last offsets that differ, and where an entry points to another batch
the largest message is as large as its header. -/
structure NothingReplaced (reader : BatchReader) (options : SegmentsOptions)
    (files : List SegmentFile) : Prop where
  gaps : ∀ path name content offsets, .log path name (.ok content) ∈ files →
    SegmentOffsets reader (dumpedBytes options.maxBytes content) 0 offsets →
    (∀ offset ∈ offsets, 0 ≤ offset) → SingleValued (gaps offsets)
  mismatches : ∀ path name base data log, .index path name (.ok data) (.ok (some log)) ∈ files →
    baseOffsetFromName path name = .ok base →
    ∀ entry ∈ logicalEntries (indexEntries data), ∀ last, Mismatch base log entry last →
      27 ≤ maxSize options.index ∧
      ∀ other ∈ logicalEntries (indexEntries data), ∀ last', Mismatch base log other last' →
        other.offset base = entry.offset base → last' = last

/-- An entry of an index is noted with its batch. -/
theorem mem_mismatchesOf {options : IndexOptions} {base : Int} {log : List UInt8}
    {entries : List IndexEntry} {pair : Int × Int} :
    pair ∈ mismatchesOf options base (some log) entries ↔
      ∃ entry ∈ entries, Mismatch base log entry pair.2 ∧ 27 ≤ maxSize options ∧
        entry.offset base = pair.1 := by
  rw [mismatchesOf, List.mem_filterMap]
  refine exists_congr fun entry => and_congr_right fun _ => ?_
  rw [Option.map_eq_some_iff]
  constructor
  · rintro ⟨last, hlast, rfl⟩
    obtain ⟨hmismatch, hsize⟩ := mismatchOf_eq_some.1 hlast
    exact ⟨hmismatch, hsize, rfl⟩
  · rintro ⟨hmismatch, hsize, hoffset⟩
    exact ⟨pair.2, mismatchOf_eq_some.2 ⟨hmismatch, hsize⟩, by rw [hoffset]⟩

/-- The mismatches of an index are all listed exactly where none replaces another. -/
theorem mismatches_listed_iff {maps : Std.TreeMap String (Std.TreeMap Int Int)} {path : String}
    {options : IndexOptions} {base : Int} {log : List UInt8} {entries : List IndexEntry}
    (h : ListedAs maps path (mismatchesOf options base (some log) entries)) :
    (∀ entry ∈ entries, ∀ last, Mismatch base log entry last →
      Listed maps path (entry.offset base, last)) ↔
      ∀ entry ∈ entries, ∀ last, Mismatch base log entry last →
        27 ≤ maxSize options ∧
        ∀ other ∈ entries, ∀ last', Mismatch base log other last' →
          other.offset base = entry.offset base → last' = last := by
  have hlisted : ∀ {pair : Int × Int}, Listed maps path pair →
      pair ∈ mismatchesOf options base (some log) entries := by
    intro pair hpair
    rw [listed_iff, h] at hpair
    obtain ⟨before, after, hsplit, _⟩ := List.lookup_eq_some_iff.1 hpair
    rw [← List.mem_reverse, hsplit]
    simp
  constructor
  · intro hall entry hentry last hmismatch
    have hentry' := hall entry hentry last hmismatch
    obtain ⟨_, _, _, hsize, _⟩ := mem_mismatchesOf.1 (hlisted hentry')
    refine ⟨hsize, fun other hother last' hmismatch' hoffset => ?_⟩
    have hother' := hall other hother last' hmismatch'
    rw [listed_iff] at hentry' hother'
    rw [hoffset] at hother'
    exact Option.some.inj (hother'.symm.trans hentry')
  · intro hall entry hentry last hmismatch
    have hsingle : SingleValued (mismatchesOf options base (some log) entries) := by
      intro key value value' hvalue hvalue'
      obtain ⟨e, he, hm, _, hkey⟩ := mem_mismatchesOf.1 hvalue
      obtain ⟨e', he', hm', _, hkey'⟩ := mem_mismatchesOf.1 hvalue'
      exact ((hall e he value hm).2 e' he' value' hm' (hkey'.trans hkey.symm)).symm
    refine (h.iff.2 hsingle _).2 (mem_mismatchesOf.2 ⟨entry, hentry, hmismatch, ?_, rfl⟩)
    exact (hall entry hentry last hmismatch).1

/-- **When everything is reported.** -/
theorem reportsAll_iff (reader : BatchReader) (options : SegmentsOptions)
    (files : List SegmentFile) (state : SegmentsState) (hone : OneFileEach files)
    (hdeep : options.dump.deep = true) (hsanity : options.index.sanityOnly = false)
    (hrun : dumpFiles reader options files = .ok state) :
    ReportsAll reader options files state ↔ NothingReplaced reader options files := by
  constructor
  · intro h
    refine ⟨fun path name content offsets hmem hsegment hoffsets => ?_,
      fun path name base data log hmem hbase => ?_⟩
    · exact (listedAs_gaps hone hdeep hmem hsegment hoffsets hrun).iff.1
        (h.gaps path name content offsets hmem hsegment hoffsets)
    · exact (mismatches_listed_iff (listedAs_mismatches hone hsanity hmem hbase hrun)).1
        (h.mismatches path name base data log hmem hbase)
  · intro h
    refine ⟨fun path name content offsets hmem hsegment hoffsets => ?_,
      fun path name base data log hmem hbase => ?_⟩
    · exact (listedAs_gaps hone hdeep hmem hsegment hoffsets hrun).iff.2
        (h.gaps path name content offsets hmem hsegment hoffsets)
    · exact (mismatches_listed_iff (listedAs_mismatches hone hsanity hmem hbase hrun)).2
        (h.mismatches path name base data log hmem hbase)

/-! ## A log with an offset that is followed twice -/

/-- A batch of four records without keys and values, at 5, 9, 5 and 12. -/
def gapBatch : List UInt8 :=
  [0, 0, 0, 0, 0, 0, 0, 0, 0, 0, 0, 77, 0, 0, 0, 0, 2, 214, 89, 21, 11, 0, 0, 0, 0, 0, 12, 0, 0, 0,
   0, 0, 0, 3, 232, 0, 0, 0, 0, 0, 0, 3, 232, 255, 255, 255, 255, 255, 255, 255, 255, 255, 255,
   255, 255, 255, 255, 0, 0, 0, 4, 12, 0, 0, 10, 1, 1, 0, 12, 0, 0, 18, 1, 1, 0, 12, 0, 0, 10, 1,
   1, 0, 12, 0, 0, 24, 1, 1, 0]

/-- Its header. -/
def gapHeader : LazyRecordBatch where
  baseOffset := 0
  partitionLeaderEpoch := 0
  attributes :=
    { bits := 0, compression := .none, isTransactional := false, isControlBatch := false }
  lastOffsetDelta := 12
  baseTimestamp := 1000
  maxTimestamp := 1000
  producerId := -1
  producerEpoch := -1
  baseSequence := -1
  recordsCount := 4
  payload := gapBatch.drop 61

/-- A record without a key and a value. -/
def emptyRecord (offsetDelta : Int) : Record where
  offsetDelta
  timestampDelta := 0
  key := none
  value := none
  headers := []

/-- A reader of this batch. -/
def gapReader : BatchReader where
  decode bytes := if bytes = gapBatch then .ok gapHeader else .error "CRC mismatch"
  decodeAll lazy :=
    if lazy = gapHeader then .ok ([5, 9, 5, 12].map emptyRecord) else .error "invalid record"

def deepOptions : SegmentsOptions where
  dump := { printContents := false, deep := true, skipRecordMetadata := false }
  maxBytes := 2 ^ 31 - 1
  index := { sanityOnly := false, verifyOnly := false, maxMessageSize := 5 * 1024 * 1024 }

def gapLog : SegmentFile := .log "0.log" "0.log" (.ok gapBatch)

theorem segmentOffsets_gapBatch : SegmentOffsets gapReader
    (dumpedBytes deepOptions.maxBytes gapBatch) 0 [5, 9, 5, 12] := by
  have hbytes : dumpedBytes deepOptions.maxBytes gapBatch = gapBatch := by decide
  have hframe : (⟨0, 89⟩ : Frame).bytes gapBatch = gapBatch := by decide
  have hoffsets : frameOffsets gapReader ((⟨0, 89⟩ : Frame).bytes gapBatch) =
      .ok [5, 9, 5, 12] := by
    rw [hframe]
    rfl
  have hcomplete : CompleteAt gapBatch ⟨0, 89⟩ := ⟨by decide, by decide, by decide, by decide⟩
  rw [hbytes]
  refine SegmentOffsets.batch hcomplete hoffsets (.stop fun length hmore => ?_)
  have htwelve : 89 + 12 ≤ gapBatch.length := hmore.1
  exact absurd htwelve (by decide)

theorem oneFileEach_gapLog : OneFileEach [gapLog] := by
  intro file hfile other hother _
  rw [List.mem_singleton.1 hfile, List.mem_singleton.1 hother]

theorem dumpFiles_gapLog : ∃ state, dumpFiles gapReader deepOptions [gapLog] = .ok state := by
  obtain ⟨_, after, _, _, hrun, _⟩ := run_dumpLogFile gapReader deepOptions.dump "0.log" "0.log"
    deepOptions.maxBytes gapBatch { lastOffset := -1, nonConsecutive := ∅, out := [] }
  have hfile : dumpFile gapReader deepOptions { nonConsecutive := ∅, mismatches := ∅, out := [] }
      gapLog = .ok { nonConsecutive := after.nonConsecutive, mismatches := ∅, out := after.out } :=
    dumpFile_log_eq_ok.2 ⟨after, hrun, rfl⟩
  refine ⟨{ nonConsecutive := after.nonConsecutive, mismatches := ∅, out := after.out }, ?_⟩
  rw [dumpFiles, List.foldlM_cons, hfile]
  rfl

theorem reportsAll_iff_gapLog : ∃ state, dumpFiles gapReader deepOptions [gapLog] = .ok state ∧
    (ReportsAll gapReader deepOptions [gapLog] state ↔
      NothingReplaced gapReader deepOptions [gapLog]) := by
  obtain ⟨state, hrun⟩ := dumpFiles_gapLog
  exact ⟨state, hrun, reportsAll_iff gapReader deepOptions [gapLog] state oneFileEach_gapLog rfl
    rfl hrun⟩

/-- That 5 was followed by 9 is not listed. -/
theorem not_reportsAll :
    ¬ ∀ (reader : BatchReader) (options : SegmentsOptions) (files : List SegmentFile)
      (state : SegmentsState), OneFileEach files → options.dump.deep = true →
      options.index.sanityOnly = false → dumpFiles reader options files = .ok state →
      ReportsAll reader options files state := by
  intro hall
  obtain ⟨state, hrun⟩ := dumpFiles_gapLog
  have hreports := hall gapReader deepOptions [gapLog] state oneFileEach_gapLog rfl rfl hrun
  have hmem : gapLog ∈ [gapLog] := List.mem_singleton_self gapLog
  have hnonneg : ∀ offset ∈ [5, 9, 5, 12], (0 : Int) ≤ offset := by decide
  have hsingle := (listedAs_gaps oneFileEach_gapLog rfl hmem segmentOffsets_gapBatch hnonneg
    hrun).iff.1 (hreports.gaps "0.log" "0.log" gapBatch _ hmem segmentOffsets_gapBatch hnonneg)
  exact absurd (hsingle 5 9 12 (by decide) (by decide)) (by decide)

end KafkaCli.DumpLog
