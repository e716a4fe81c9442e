import KafkaCli.DumpLog.Framing
import KafkaCli.DumpLog.Related
import KafkaCli.DumpLog.Reports
import KafkaCli.Lib.Checked
import KafkaCli.Lib.NestedMap

/-!
# Files that are dumped together

The command keeps one state over all its files. It dumps them as if each were dumped alone, though:
what it writes of a file does not depend on the files before it, and it lists of each file what it
would list of it alone.

**Theorem (`dumps_separate`).** For files of different paths the command returns exactly if it
returns for each file. Its output is that of the files one after the other, and its reports are
those of the files, sorted by path. If it fails, it is for the first file that fails alone, and no
file is reported.

A run in a state and a run from the start stay `Beside` each other: what the first one adds to its
state is what the second one has.
-/

namespace KafkaCli.DumpLog

open Checked NestedMap Run TwinRuns

/-! ## The states of the parts -/

/-- The dump of a log in a state, beside one that starts with nothing. -/
structure DumpBeside (path : String) (lines : List String)
    (maps : Std.TreeMap String (Std.TreeMap Int Int)) (state own : DumpState) : Prop where
  lastOffset : state.lastOffset = own.lastOffset
  out : state.out = lines ++ own.out
  gaps : OwnPart path maps state.nonConsecutive own.nonConsecutive

/-- The same for an index. -/
structure IndexBeside (path : String) (lines : List String)
    (maps : Std.TreeMap String (Std.TreeMap Int Int)) (state own : IndexState) : Prop where
  out : state.out = lines ++ own.out
  mismatches : OwnPart path maps state.mismatches own.mismatches

/-- The same for a dump that only writes. -/
structure LinesBeside (out err : List String) (state own : SnapshotState) : Prop where
  out : state.out = out ++ own.out
  err : state.err = err ++ own.err

/-- A run in the state `before` has come to `state`, and one from the start to `own`. -/
structure Beside (path : String) (before state own : FilesState) : Prop where
  out : state.out = before.out ++ own.out
  err : state.err = before.err ++ own.err
  mismatches : OwnPart path before.mismatches state.mismatches own.mismatches
  nonConsecutive : OwnPart path before.nonConsecutive state.nonConsecutive own.nonConsecutive

/-! ## Logs and indices -/

theorem keptByLogs_dumpBeside {path : String} {lines : List String}
    {maps : Std.TreeMap String (Std.TreeMap Int Int)} :
    KeptByLogs path (DumpBeside path lines maps) where
  print h line := ⟨h.lastOffset, by rw [h.out, List.append_assoc], h.gaps⟩
  note offset := by
    refine .modify fun state own h => ⟨rfl, h.out, ?_⟩
    simp only [h.lastOffset]
    split_ifs
    · exact h.gaps.note (own.lastOffset, offset)
    · exact h.gaps
  restart h := ⟨rfl, h.out, h.gaps⟩

theorem keptByIndices_indexBeside {path : String} {lines : List String}
    {maps : Std.TreeMap String (Std.TreeMap Int Int)} :
    KeptByIndices path (IndexBeside path lines maps) where
  print h line := ⟨by rw [h.out, List.append_assoc], h.mismatches⟩
  note h offset last := by
    cases last with
    | none => exact h
    | some last => exact ⟨h.out, h.mismatches.note (offset, last)⟩

/-! ## Dumps that only write -/

section Lines

variable {out err : List String}

theorem twins_printOut (line : String) :
    Twins (LinesBeside out err) (printOut line) (printOut line) := by
  refine .modify fun state own h => ⟨?_, h.err⟩
  simp only [h.out, List.append_assoc]

theorem twins_printErr (line : String) :
    Twins (LinesBeside out err) (printErr line) (printErr line) := by
  refine .modify fun state own h => ⟨h.out, ?_⟩
  simp only [h.err, List.append_assoc]

theorem twins_dumpTimeEntries (verifyOnly : Bool) (path : String) (base prevTs : Int)
    (entries : List TimeEntry) : Twins (LinesBeside out err)
      (dumpTimeEntries verifyOnly path base prevTs entries)
      (dumpTimeEntries verifyOnly path base prevTs entries) := by
  induction entries generalizing prevTs with
  | nil => exact .pure _
  | cons entry entries ih =>
    rw [dumpTimeEntries]
    refine .ite (.pure _) (.bind (.ite (twins_printErr _) (.pure _)) fun _ => ?_)
    exact .bind (.ite (.pure _) (twins_printOut _)) fun _ => ih _

theorem twins_dumpTimeIndex (sanityOnly verifyOnly : Bool) (path name : String)
    (content : Except String (List UInt8)) : Twins (LinesBeside out err)
      (dumpTimeIndex sanityOnly verifyOnly path name content)
      (dumpTimeIndex sanityOnly verifyOnly path name content) := by
  refine (Twins.ofExcept _).bind fun base => (Twins.ofExcept _).bind fun data => ?_
  refine .ite (twins_printOut _) (.ite (.throw _) (.ite (twins_printOut _) ?_))
  exact twins_dumpTimeEntries verifyOnly path base _ _

theorem twins_dumpTxnindex (path name : String) (content : Except String (List UInt8)) :
    Twins (LinesBeside out err) (dumpTxnindex path name content)
      (dumpTxnindex path name content) := by
  refine (Twins.ofExcept _).bind fun data => .ite (twins_printOut _) (.ite (.throw _) ?_)
  exact (twins_printOut _).bind fun _ => .forM fun txn _ => .ite (.throw _) (twins_printOut _)

theorem twins_dumpProducerSnapshot (path : String) (content : Except String (List UInt8)) :
    Twins (LinesBeside out err) (dumpProducerSnapshot path content)
      (dumpProducerSnapshot path content) := by
  refine (Twins.ofExcept _).bind fun data => .ite (twins_printOut _) (.ite (twins_printErr _) ?_)
  refine .ite (twins_printErr _) (.ite (twins_printErr _) (.ite (.throw _) ?_))
  refine .ite (twins_printErr _) ((twins_printOut _).bind fun _ => ?_)
  exact .forM fun entry _ => twins_printOut _

theorem twins_dumpNonBinaryBootstrapFile (path name : String)
    (content : Except String (List UInt8)) : Twins (LinesBeside out err)
      (dumpNonBinaryBootstrapFile path name content)
      (dumpNonBinaryBootstrapFile path name content) := by
  refine (Twins.ofExcept _).bind fun body => ?_
  have hbody : Twins (LinesBeside out err) (body.forM fun line => printOut ("  " ++ line))
      (body.forM fun line => printOut ("  " ++ line)) := .forM fun line _ => twins_printOut _
  refine .ite ((twins_printOut _).bind fun _ => hbody) (.ite ?_ ?_)
  · exact (twins_printErr _).bind fun _ => (twins_printOut _).bind fun _ => hbody
  · exact (twins_printOut _).bind fun _ => hbody

end Lines

/-! ## One file -/

section File

variable {path : String} {before : FilesState}

theorem twins_ofDump {x : Dump Unit}
    (h : Twins (DumpBeside path before.out before.nonConsecutive) x x) :
    Twins (Beside path before) (ofDump x) (ofDump x) := by
  intro state own hstate
  have hrun := h { lastOffset := -1, nonConsecutive := state.nonConsecutive, out := state.out }
    { lastOffset := -1, nonConsecutive := own.nonConsecutive, out := own.out }
    ⟨rfl, hstate.out, hstate.nonConsecutive⟩
  change Alike _ (ofDump x state) (ofDump x own)
  simp only [ofDump]
  generalize x.run _ = result at hrun ⊢
  generalize x.run _ = result' at hrun ⊢
  cases hrun with
  | ok _ hend => exact .ok () ⟨hend.out, hstate.err, hstate.mismatches, hend.gaps⟩
  | error error hend => exact .error error ⟨hend.out, hstate.err, hstate.mismatches, hend.gaps⟩

theorem twins_ofIndexDump {x : IndexDump Unit}
    (h : Twins (IndexBeside path before.out before.mismatches) x x) :
    Twins (Beside path before) (ofIndexDump x) (ofIndexDump x) := by
  intro state own hstate
  have hrun := h { mismatches := state.mismatches, out := state.out }
    { mismatches := own.mismatches, out := own.out } ⟨hstate.out, hstate.mismatches⟩
  change Alike _ (ofIndexDump x state) (ofIndexDump x own)
  simp only [ofIndexDump]
  generalize x.run _ = result at hrun ⊢
  generalize x.run _ = result' at hrun ⊢
  cases hrun with
  | ok _ hend => exact .ok () ⟨hend.out, hstate.err, hend.mismatches, hstate.nonConsecutive⟩
  | error error hend =>
    exact .error error ⟨hend.out, hstate.err, hend.mismatches, hstate.nonConsecutive⟩

theorem twins_ofSnapshotDump {x : SnapshotDump Unit}
    (h : Twins (LinesBeside before.out before.err) x x) :
    Twins (Beside path before) (ofSnapshotDump x) (ofSnapshotDump x) := by
  intro state own hstate
  have hrun := h { out := state.out, err := state.err } { out := own.out, err := own.err }
    ⟨hstate.out, hstate.err⟩
  change Alike _ (ofSnapshotDump x state) (ofSnapshotDump x own)
  simp only [ofSnapshotDump]
  generalize x.run _ = result at hrun ⊢
  generalize x.run _ = result' at hrun ⊢
  cases hrun with
  | ok _ hend => exact .ok () ⟨hend.out, hend.err, hstate.mismatches, hstate.nonConsecutive⟩
  | error error hend =>
    exact .error error ⟨hend.out, hend.err, hstate.mismatches, hstate.nonConsecutive⟩

variable (reader : BatchReader) (opts : DumpLogOptions) (file : InputFile)

theorem twins_dumpBySuffix (name suffix : String) :
    Twins (Beside file.path before) (dumpBySuffix reader opts file name suffix)
      (dumpBySuffix reader opts file name suffix) := by
  have hlog : Twins (Beside file.path before)
      (ofDump (dumpLogFile reader opts.dump file.path name opts.maxBytes file.content)) _ :=
    twins_ofDump (twins_dumpLogFile keptByLogs_dumpBeside _ _ _)
  have hresidual : Twins (Beside file.path before)
      (ofSnapshotDump (dumpNonBinaryBootstrapFile file.path name file.content)) _ :=
    twins_ofSnapshotDump (twins_dumpNonBinaryBootstrapFile _ _ _)
  have hunknown : Twins (Beside file.path before)
      (ofSnapshotDump (ignoreUnknown file.path)) _ := twins_ofSnapshotDump (twins_printErr _)
  unfold dumpBySuffix
  split
  · exact hlog
  · refine (Twins.ofExcept _).bind fun residual => ?_
    cases residual
    · exact hlog
    · exact hresidual
  · refine (Twins.ofExcept _).bind fun residual => ?_
    cases residual
    · exact hunknown
    · exact hresidual
  · exact twins_ofIndexDump (twins_dumpOffsetIndex keptByIndices_indexBeside _ _ _ _)
  · exact twins_ofSnapshotDump (twins_dumpTimeIndex _ _ _ _ _)
  · exact twins_ofSnapshotDump (twins_dumpTxnindex _ _ _)
  · split_ifs
    · exact hlog
    · exact twins_ofSnapshotDump (twins_dumpProducerSnapshot _ _)
  · exact hunknown

/-- **A file is dumped in any state as it is dumped alone.** -/
theorem twins_dumpInputFile : Twins (Beside file.path before) (dumpInputFile reader opts file)
    (dumpInputFile reader opts file) := by
  refine (twins_ofSnapshotDump (twins_printOut _)).bind fun _ => ?_
  have hunknown : Twins (Beside file.path before)
      (ofSnapshotDump (ignoreUnknown file.path)) _ := twins_ofSnapshotDump (twins_printErr _)
  cases file.name with
  | none => exact hunknown
  | some name =>
    cases hsplit : Text.rsplitOnce name '.' with
    | none =>
      simp only [hsplit]
      exact hunknown
    | some parts =>
      simp only [hsplit]
      exact twins_dumpBySuffix reader opts file name parts.2

end File

/-! ## All files -/

/-- What was written and noted in parts. -/
structure Joined (parts : List FilesState) (state : FilesState) : Prop where
  out : state.out = parts.flatMap (·.out)
  err : state.err = parts.flatMap (·.err)
  mismatches : state.mismatches.toList.Perm (parts.flatMap (·.mismatches.toList))
  nonConsecutive : state.nonConsecutive.toList.Perm (parts.flatMap (·.nonConsecutive.toList))

theorem Joined.single (state : FilesState) : Joined [state] state := by
  constructor <;> simp

theorem joined_start {parts : List FilesState} {state : FilesState} :
    Joined (.start :: parts) state ↔ Joined parts state := by
  constructor
  · rintro ⟨hout, herr, hmismatches, hgaps⟩
    exact ⟨hout, herr, hmismatches, hgaps⟩
  · rintro ⟨hout, herr, hmismatches, hgaps⟩
    exact ⟨hout, herr, hmismatches, hgaps⟩

/-- Nothing was noted of the path. -/
def Untouched (state : FilesState) (path : String) : Prop :=
  state.mismatches[path]? = none ∧ state.nonConsecutive[path]? = none

namespace Beside

variable {path : String} {before state own : FilesState}

theorem start (h : Untouched before path) : Beside path before before .start :=
  ⟨(List.append_nil _).symm, (List.append_nil _).symm, .refl path h.1, .refl path h.2⟩

theorem untouched (h : Beside path before state own) {other : String} (hne : other ≠ path)
    (hother : Untouched before other) : Untouched state other :=
  ⟨(h.mismatches.others other hne).1.trans hother.1,
    (h.nonConsecutive.others other hne).1.trans hother.2⟩

theorem joined (h : Beside path before state own) (hnone : Untouched before path)
    {rest : List FilesState} {final : FilesState} (hjoined : Joined (state :: rest) final) :
    Joined (before :: own :: rest) final := by
  refine ⟨?_, ?_, ?_, ?_⟩
  · simpa only [List.flatMap_cons, h.out, List.append_assoc] using hjoined.out
  · simpa only [List.flatMap_cons, h.err, List.append_assoc] using hjoined.err
  · have hparts := (h.mismatches.perm_toList hnone.1).append_right
      (rest.flatMap (·.mismatches.toList))
    simpa only [List.flatMap_cons, List.append_assoc] using hjoined.mismatches.trans hparts
  · have hparts := (h.nonConsecutive.perm_toList hnone.2).append_right
      (rest.flatMap (·.nonConsecutive.toList))
    simpa only [List.flatMap_cons, List.append_assoc] using hjoined.nonConsecutive.trans hparts

end Beside

section Files

variable (reader : BatchReader) (opts : DumpLogOptions)

/-- The end of a run over files in the state `before`, by the runs of each file from the start. -/
inductive SeparateEnd (before : FilesState) (files : List InputFile) :
    EStateM.Result Error FilesState PUnit → Prop
  | ok {parts : List FilesState} {state : FilesState}
      (alone : List.Forall₂ (fun file part => (dumpInputFile reader opts file).run .start =
        .ok () part) files parts)
      (joined : Joined (before :: parts) state) : SeparateEnd before files (.ok () state)
  | error {done rest : List InputFile} {file : InputFile} {parts : List FilesState}
      {part state : FilesState} {error : Error} (split : files = done ++ file :: rest)
      (alone : List.Forall₂ (fun file part => (dumpInputFile reader opts file).run .start =
        .ok () part) done parts)
      (failed : (dumpInputFile reader opts file).run .start = .error error part)
      (joined : Joined (before :: (parts ++ [part])) state) :
      SeparateEnd before files (.error error state)

theorem separateEnd_forM {files : List InputFile} (hpaths : (files.map (·.path)).Nodup)
    {before : FilesState} (hnone : ∀ file ∈ files, Untouched before file.path) :
    SeparateEnd reader opts before files
      ((forM files (dumpInputFile reader opts) : FilesDump PUnit).run before) := by
  induction files generalizing before with
  | nil => exact .ok .nil (.single before)
  | cons file files ih =>
    rw [List.map_cons, List.nodup_cons] at hpaths
    have hfresh := hnone file List.mem_cons_self
    have hfile := twins_dumpInputFile reader opts file before .start (Beside.start hfresh)
    rw [List.forM_cons, EStateM.run_bind]
    generalize (dumpInputFile reader opts file).run before = first at hfile ⊢
    generalize halone : (dumpInputFile reader opts file).run .start = own at hfile
    cases hfile with
    | error error hbeside =>
      have hsplit : file :: files = [] ++ file :: files := rfl
      exact .error hsplit .nil halone (hbeside.joined hfresh (.single _))
    | ok _ hbeside =>
      have hother : ∀ other ∈ files, other.path ≠ file.path := fun other hmem heq =>
        hpaths.1 (heq ▸ List.mem_map_of_mem hmem)
      have hrest := ih hpaths.2 fun other hmem =>
        hbeside.untouched (hother other hmem) (hnone other (List.mem_cons_of_mem file hmem))
      simp only
      generalize (forM files (dumpInputFile reader opts) : FilesDump PUnit).run _ = last at hrest ⊢
      cases hrest with
      | ok hparts hjoined => exact .ok (.cons halone hparts) (hbeside.joined hfresh hjoined)
      | error hsplit hparts hfailed hjoined =>
        exact .error (by rw [hsplit, List.cons_append]) (.cons halone hparts) hfailed
          (hbeside.joined hfresh hjoined)

end Files

/-! ## The command -/

/-- The state when the reports are listed. -/
def FilesState.reported (state : FilesState) : FilesState :=
  { state with err := state.err ++ reports state }

/-- The command for one of its files. -/
def DumpLogOptions.only (opts : DumpLogOptions) (file : InputFile) : DumpLogOptions :=
  { opts with files := [file] }

section Command

variable {reader : BatchReader} {opts : DumpLogOptions}

theorem dumpLogSegments_run (hvalid : validateOptions opts = .ok ()) (state : FilesState) :
    (dumpLogSegments reader opts).run state =
      match (dumpInputFiles reader opts).run state with
      | .ok _ final => .ok () final.reported
      | .error error final => .error error final := by
  rw [dumpLogSegments, hvalid]
  change ((dumpInputFiles reader opts >>= fun _ => _) : FilesDump Unit).run state = _
  rw [EStateM.run_bind]
  cases (dumpInputFiles reader opts).run state <;> rfl

theorem validateOptions_only (hvalid : validateOptions opts = .ok ()) (file : InputFile) :
    validateOptions (opts.only file) = .ok () := by
  unfold validateOptions at hvalid ⊢
  split at hvalid
  · cases hvalid
  · have hfiles : ¬ (opts.only file).files.isEmpty = true := Bool.false_ne_true
    rw [if_neg hfiles]
    exact hvalid

theorem dumpLogSegments_only (hvalid : validateOptions opts = .ok ()) (file : InputFile) :
    (dumpLogSegments reader (opts.only file)).run .start =
      match (dumpInputFile reader opts file).run .start with
      | .ok _ final => .ok () final.reported
      | .error error final => .error error final := by
  have hone : dumpInputFile reader (opts.only file) file = dumpInputFile reader opts file := rfl
  have hrun : (dumpInputFiles reader (opts.only file)).run .start =
      (dumpInputFile reader opts file).run .start := by
    have hfiles : (opts.only file).files = [file] := rfl
    rw [dumpInputFiles, hfiles, List.forM_cons, EStateM.run_bind, hone]
    cases (dumpInputFile reader opts file).run .start <;> rfl
  rw [dumpLogSegments_run (validateOptions_only hvalid file), hrun]

/-- **Files are dumped as if each were dumped alone.** For files of different paths the command
returns exactly if it returns for each of them. It writes then what it writes of the files, one
after the other, and reports what it notes of them. If it fails, it is for the first file that
fails alone: what is written of the files up to there stays, and nothing is reported. -/
theorem dumps_separate (reader : BatchReader) (opts : DumpLogOptions)
    (hvalid : validateOptions opts = .ok ()) (hpaths : (opts.files.map (·.path)).Nodup) :
    ((∃ state, (dumpLogSegments reader opts).run .start = .ok () state) ↔
      ∀ file ∈ opts.files, ∃ state, (dumpLogSegments reader (opts.only file)).run .start =
        .ok () state) ∧
    (∀ state, (dumpLogSegments reader opts).run .start = .ok () state →
      ∃ parts joined, List.Forall₂ (fun file part =>
          (dumpLogSegments reader (opts.only file)).run .start = .ok () part.reported)
          opts.files parts ∧
        Joined parts joined ∧ state = joined.reported) ∧
    ∀ error state, (dumpLogSegments reader opts).run .start = .error error state →
      ∃ done file rest parts part, opts.files = done ++ file :: rest ∧
        List.Forall₂ (fun file part =>
          (dumpLogSegments reader (opts.only file)).run .start = .ok () part.reported) done parts ∧
        (dumpLogSegments reader (opts.only file)).run .start = .error error part ∧
        Joined (parts ++ [part]) state := by
  have hseparate : SeparateEnd reader opts .start opts.files
      ((dumpInputFiles reader opts).run .start) :=
    separateEnd_forM reader opts hpaths fun file _ => ⟨by simp [FilesState.start],
      by simp [FilesState.start]⟩
  -- the command for one file, by the run of the file
  have hreported : ∀ {files parts}, List.Forall₂ (fun file part =>
      (dumpInputFile reader opts file).run .start = .ok () part) files parts →
      List.Forall₂ (fun file part => (dumpLogSegments reader (opts.only file)).run .start =
        .ok () part.reported) files parts := fun halone =>
    halone.imp fun file part hrun => by rw [dumpLogSegments_only hvalid, hrun]
  rw [dumpLogSegments_run hvalid]
  generalize (dumpInputFiles reader opts).run .start = result at hseparate ⊢
  cases hseparate with
  | @ok parts final halone hjoined =>
    refine ⟨⟨fun _ file hfile => ?_, fun _ => ⟨_, rfl⟩⟩, ?_, ?_⟩
    · obtain ⟨part, -, hrun⟩ := exists_of_forall₂ (hreported halone) hfile
      exact ⟨part.reported, hrun⟩
    · intro state hrun
      cases hrun
      exact ⟨parts, final, hreported halone, joined_start.1 hjoined, rfl⟩
    · intro error state hrun
      cases hrun
  | @error done rest file parts part final error hsplit halone hfailed hjoined =>
    have hcommand : (dumpLogSegments reader (opts.only file)).run .start = .error error part := by
      rw [dumpLogSegments_only hvalid, hfailed]
    refine ⟨⟨?_, fun hall => ?_⟩, ?_, ?_⟩
    · rintro ⟨state, hrun⟩
      cases hrun
    · obtain ⟨state, hrun⟩ := hall file (by simp [hsplit])
      rw [hcommand] at hrun
      cases hrun
    · intro state hrun
      cases hrun
    · intro error' state hrun
      cases hrun
      exact ⟨done, file, rest, parts, part, hsplit, hreported halone, hcommand,
        joined_start.1 hjoined⟩

/-- A log with offsets that do not follow one another. -/
def gapFile : InputFile := ⟨"a/0.log", some "0.log", .ok gapBatch, .ok none⟩

/-- An index of an offset that its batch does not end with. -/
def mismatchFile : InputFile :=
  ⟨"b/0.index", some "0.index", .ok [0, 0, 0, 3, 0, 0, 0, 0], .ok (some gapBatch)⟩

/-- Two files, of which one notes gaps and the other one a mismatch. -/
def twoFiles : DumpLogOptions where
  files := [gapFile, mismatchFile]
  printDataLog := false
  verifyIndexOnly := false
  indexSanityCheck := false
  maxMessageSize := 5 * 1024 * 1024
  maxBytes := 2 ^ 31 - 1
  deepIteration := true
  skipRecordMetadata := false
  keyDecoder := none
  valueDecoder := none
  offsetsDecoder := false
  transactionLogDecoder := false
  clusterMetadataDecoder := false
  remoteLogMetadataDecoder := false
  shareGroupStateDecoder := false

/-- The dump of the first file, before its batch. -/
def beforeBatch : DumpState := ⟨-1, ∅, ["Dumping a/0.log", "Log starting offset: 0"]⟩

/-- The dump of the first file, after its batch. -/
def afterBatch : DumpState :=
  final ((decodeAndPrintBatch gapReader twoFiles.dump "a/0.log" gapBatch 0).run beforeBatch)

theorem decodeAndPrintBatch_gapBatch :
    (decodeAndPrintBatch gapReader twoFiles.dump "a/0.log" gapBatch 0).run beforeBatch =
      .ok () afterBatch := by
  have hok : error? ((decodeAndPrintBatch gapReader twoFiles.dump "a/0.log" gapBatch 0).run
      beforeBatch) = none := by
    decide +kernel
  exact eq_ok_of_error? hok

theorem dumpBatches_gapBatch :
    dumpBatches gapReader twoFiles.dump "a/0.log" gapBatch 0 beforeBatch =
      ⟨[⟨0, 89⟩], 89, afterBatch⟩ := by
  have hsome : 0 < gapBatch.length := by decide
  have hprefix : ¬ (gapBatch.drop 0).length < 12 := by decide
  have hlength : signedBe (slice (gapBatch.drop 0) 8 12) = 77 := by decide +kernel
  have hminimum : ¬ (77 : Int) < 49 := by decide
  have hwhole : ¬ (gapBatch.drop 0).length < 12 + (77 : Int).toNat := by decide
  have hbatch : (gapBatch.drop 0).take (12 + (77 : Int).toNat) = gapBatch := by decide +kernel
  rw [dumpBatches]
  simp only [if_pos hsome, if_neg hprefix, hlength, if_neg hminimum, if_neg hwhole, hbatch,
    Int.natCast_zero, decodeAndPrintBatch_gapBatch]
  -- the batch is the whole buffer, so that the walk ends behind it
  rw [dumpBatches, if_neg (by decide)]
  rfl

theorem dumpLogFile_gapBatch :
    (dumpLogFile gapReader twoFiles.dump "a/0.log" "0.log" twoFiles.maxBytes (.ok gapBatch)).run
      { lastOffset := -1, nonConsecutive := ∅, out := ["Dumping a/0.log"] } =
    .ok () afterBatch := by
  have hbuffer : gapBatch.take (min (2 ^ 31 - 1) 89) = gapBatch := by decide
  show EStateM.run (do
    set (dumpBatches gapReader twoFiles.dump "a/0.log" (gapBatch.take (min (2 ^ 31 - 1) 89)) 0
      beforeBatch).state
    let walk := dumpBatches gapReader twoFiles.dump "a/0.log"
      (gapBatch.take (min (2 ^ 31 - 1) 89)) 0 beforeBatch
    if (gapBatch.take (min (2 ^ 31 - 1) 89)).length - walk.stop > 0 ∧
        walk.stop < min (2 ^ 31 - 1) 89 then
      printLine _
    else
      return ()) beforeBatch = _
  rw [hbuffer, dumpBatches_gapBatch]
  rfl

theorem dumpInputFile_gapFile :
    (dumpInputFile gapReader twoFiles gapFile).run .start =
      .ok () ⟨∅, afterBatch.nonConsecutive, afterBatch.out, []⟩ := by
  show (ofDump (dumpLogFile gapReader twoFiles.dump "a/0.log" "0.log" twoFiles.maxBytes
    (.ok gapBatch))).run ⟨∅, ∅, ["Dumping a/0.log"], []⟩ = _
  rw [EStateM.run, ofDump, dumpLogFile_gapBatch]

theorem dumpLogSegments_gapFile : ∃ state,
    (dumpLogSegments gapReader (twoFiles.only gapFile)).run .start = .ok () state := by
  rw [dumpLogSegments_only rfl gapFile, dumpInputFile_gapFile]
  exact ⟨_, rfl⟩

theorem error?_dumpLogSegments_mismatchFile :
    error? ((dumpLogSegments gapReader (twoFiles.only mismatchFile)).run .start) = none := by
  decide +kernel

theorem err_dumpLogSegments_twoFiles :
    (final ((dumpLogSegments gapReader twoFiles).run .start)).err =
      ["Mismatches in :b/0.index", "  Index offset: 3, log offset: 12",
        "Non-consecutive offsets in a/0.log", "  5 is followed by 12", "  9 is followed by 5"] := by
  have hfiles : (dumpInputFiles gapReader twoFiles).run .start =
      (dumpInputFile gapReader twoFiles mismatchFile).run
        ⟨∅, afterBatch.nonConsecutive, afterBatch.out, []⟩ := by
    have htwo : twoFiles.files = [gapFile, mismatchFile] := rfl
    rw [dumpInputFiles, htwo, List.forM_cons, bind_of_ok dumpInputFile_gapFile, List.forM_cons,
      List.forM_nil, bind_pure_unit]
  rw [dumpLogSegments_run rfl, hfiles]
  decide +kernel

theorem dumps_separate_twoFiles :
    ∃ state, (dumpLogSegments gapReader twoFiles).run .start = .ok () state ∧
      state.err =
        ["Mismatches in :b/0.index", "  Index offset: 3, log offset: 12",
          "Non-consecutive offsets in a/0.log", "  5 is followed by 12",
          "  9 is followed by 5"] := by
  have hvalid : validateOptions twoFiles = .ok () := rfl
  have hpaths : (twoFiles.files.map (·.path)).Nodup := by decide
  have halone : ∀ file ∈ twoFiles.files, ∃ state,
      (dumpLogSegments gapReader (twoFiles.only file)).run .start = .ok () state := by
    intro file hfile
    rcases List.mem_cons.1 hfile with rfl | hfile
    · exact dumpLogSegments_gapFile
    · rw [List.mem_singleton.1 hfile]
      exact ⟨_, eq_ok_of_error? error?_dumpLogSegments_mismatchFile⟩
  obtain ⟨state, hrun⟩ := (dumps_separate gapReader twoFiles hvalid hpaths).1.2 halone
  have herr := err_dumpLogSegments_twoFiles
  rw [hrun] at herr
  exact ⟨state, hrun, herr⟩

end Command

end KafkaCli.DumpLog
