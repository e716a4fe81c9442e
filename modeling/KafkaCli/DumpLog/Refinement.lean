import KafkaCli.DumpLog.Related
import KafkaCli.DumpLog.Reports

/-!
# Logs and indices in the command

`dumpFiles` runs over logs and offset indices, and notes what the reports list. It is the command on
files with these suffixes: both fail with the same error, or note the same (`dumpFiles_simulates`),
so what is reported of a run of `dumpFiles` is reported by the command.
-/

namespace KafkaCli.DumpLog

open Run Text TwinRuns

/-- The file as the command finds it. -/
def SegmentFile.input : SegmentFile → InputFile
  | .log path name content => ⟨path, some name, content, .ok none⟩
  | .index path name content beside => ⟨path, some name, content, beside⟩

/-- The name of the file has the suffix of its kind. -/
def SegmentFile.SuffixFits : SegmentFile → Prop
  | .log _ name .. => ∃ stem, rsplitOnce name '.' = some (stem, "log")
  | .index _ name .. => ∃ stem, rsplitOnce name '.' = some (stem, "index")

/-- The options for logs and indices. -/
def DumpLogOptions.segments (opts : DumpLogOptions) : SegmentsOptions where
  dump := opts.dump
  maxBytes := opts.maxBytes
  index := opts.index

section Segments

variable (opts : DumpLogOptions)

theorem segments_dump : opts.segments.dump = opts.dump := rfl

theorem segments_maxBytes : opts.segments.maxBytes = opts.maxBytes := rfl

theorem segments_index : opts.segments.index = opts.index := rfl

end Segments

/-! ## The same notes -/

/-- The same was noted of a log, whatever was written. -/
structure SameGaps (state own : DumpState) : Prop where
  lastOffset : state.lastOffset = own.lastOffset
  nonConsecutive : state.nonConsecutive = own.nonConsecutive

theorem keptByLogs_sameGaps (path : String) : KeptByLogs path SameGaps where
  print h _ := ⟨h.lastOffset, h.nonConsecutive⟩
  note offset := by
    refine .modify fun state own h => ⟨rfl, ?_⟩
    rw [h.lastOffset, h.nonConsecutive]
  restart h := ⟨rfl, h.nonConsecutive⟩

/-- The same was noted of an index. -/
def SameMismatches (state own : IndexState) : Prop := state.mismatches = own.mismatches

theorem keptByIndices_sameMismatches (path : String) : KeptByIndices path SameMismatches where
  print h _ := h
  note {state own} h offset last := by
    cases last with
    | none => exact h
    | some last =>
      have hsame : state.mismatches = own.mismatches := h
      simp only [SameMismatches, noteMismatch, hsame]

/-- The same was noted over all files. -/
structure SameNotes (state : SegmentsState) (command : FilesState) : Prop where
  nonConsecutive : state.nonConsecutive = command.nonConsecutive
  mismatches : state.mismatches = command.mismatches

/-- The command fails with the error of the run, or notes what the run notes. -/
inductive Simulates : Result SegmentsState → EStateM.Result Error FilesState PUnit → Prop
  | ok {state : SegmentsState} {command : FilesState} (h : SameNotes state command) :
      Simulates (.ok state) (.ok ⟨⟩ command)
  | error (error : Error) (command : FilesState) : Simulates (.error error) (.error error command)

/-! ## The run -/

section Runs

variable {reader : BatchReader} {opts : DumpLogOptions}

theorem dumpInputFile_run {file : InputFile} {name stem suffix : String}
    (hname : file.name = some name) (hsuffix : rsplitOnce name '.' = some (stem, suffix))
    (command : FilesState) :
    (dumpInputFile reader opts file).run command = (dumpBySuffix reader opts file name suffix).run
      { command with out := command.out ++ [s!"Dumping {file.path}"] } := by
  rw [dumpInputFile, EStateM.run_bind]
  simp only [hname, hsuffix]
  rfl

theorem alike_ofDump {x : Dump Unit} (hx : Twins SameGaps x x) {state : SegmentsState}
    {command : FilesState} (h : SameNotes state command) :
    Alike (fun dump => SameNotes
        { state with nonConsecutive := dump.nonConsecutive, out := dump.out })
      (x.run { lastOffset := -1, nonConsecutive := state.nonConsecutive, out := state.out })
      ((ofDump x).run command) := by
  have hrun := hx { lastOffset := -1, nonConsecutive := state.nonConsecutive, out := state.out }
    { lastOffset := -1, nonConsecutive := command.nonConsecutive, out := command.out }
    ⟨rfl, h.nonConsecutive⟩
  change Alike _ _ (ofDump x command)
  rw [ofDump]
  generalize x.run _ = result at hrun ⊢
  generalize x.run _ = result' at hrun ⊢
  cases hrun with
  | ok _ hend => exact Alike.ok (ε := Error) () ⟨hend.nonConsecutive, h.mismatches⟩
  | error error hend => exact .error error ⟨hend.nonConsecutive, h.mismatches⟩

theorem alike_ofIndexDump {x : IndexDump Unit} (hx : Twins SameMismatches x x)
    {state : SegmentsState} {command : FilesState} (h : SameNotes state command) :
    Alike (fun index => SameNotes { state with mismatches := index.mismatches, out := index.out })
      (x.run { mismatches := state.mismatches, out := state.out })
      ((ofIndexDump x).run command) := by
  have hrun := hx { mismatches := state.mismatches, out := state.out }
    { mismatches := command.mismatches, out := command.out } h.mismatches
  change Alike _ _ (ofIndexDump x command)
  rw [ofIndexDump]
  generalize x.run _ = result at hrun ⊢
  generalize x.run _ = result' at hrun ⊢
  cases hrun with
  | ok _ hend => exact Alike.ok (ε := Error) () ⟨h.nonConsecutive, hend⟩
  | error error hend => exact .error error ⟨h.nonConsecutive, hend⟩

theorem dumpFile_simulates {file : SegmentFile} (hfits : file.SuffixFits) {state : SegmentsState}
    {command : FilesState} (h : SameNotes state command) :
    Simulates (dumpFile reader opts.segments state file)
      ((dumpInputFile reader opts file.input).run command) := by
  cases file with
  | log path name content =>
    obtain ⟨stem, hsuffix⟩ := hfits
    let dump := dumpLogFile reader opts.dump path name opts.maxBytes content
    have hlog : dumpBySuffix reader opts (SegmentFile.log path name content).input name "log" =
        ofDump dump := rfl
    have hkept : Twins SameGaps dump dump :=
      twins_dumpLogFile (keptByLogs_sameGaps path) name opts.maxBytes content
    have hstart : SameNotes state { command with out := command.out ++ [s!"Dumping {path}"] } :=
      ⟨h.nonConsecutive, h.mismatches⟩
    have hrun := alike_ofDump hkept hstart
    rw [dumpInputFile_run rfl hsuffix, hlog]
    unfold dumpFile
    dsimp only [SegmentFile.input, segments_dump, segments_maxBytes]
    generalize dump.run _ = result at hrun ⊢
    generalize (ofDump dump).run _ = result' at hrun ⊢
    cases hrun with
    | ok _ hend => exact .ok hend
    | error error _ => exact .error error _
  | index path name content beside =>
    obtain ⟨stem, hsuffix⟩ := hfits
    let dump := dumpOffsetIndex opts.index path name content beside
    have hindex : dumpBySuffix reader opts (SegmentFile.index path name content beside).input name
        "index" = ofIndexDump dump := rfl
    have hkept : Twins SameMismatches dump dump :=
      twins_dumpOffsetIndex (keptByIndices_sameMismatches path) opts.index name content beside
    have hstart : SameNotes state { command with out := command.out ++ [s!"Dumping {path}"] } :=
      ⟨h.nonConsecutive, h.mismatches⟩
    have hrun := alike_ofIndexDump hkept hstart
    rw [dumpInputFile_run rfl hsuffix, hindex]
    unfold dumpFile
    dsimp only [SegmentFile.input, segments_index]
    generalize dump.run _ = result at hrun ⊢
    generalize (ofIndexDump dump).run _ = result' at hrun ⊢
    cases hrun with
    | ok _ hend => exact .ok hend
    | error error _ => exact .error error _

theorem foldlM_simulates {files : List SegmentFile} (hfits : ∀ file ∈ files, file.SuffixFits)
    {state : SegmentsState} {command : FilesState} (h : SameNotes state command) :
    Simulates (files.foldlM (dumpFile reader opts.segments) state)
      ((forM (files.map SegmentFile.input) (dumpInputFile reader opts) : FilesDump PUnit).run
        command) := by
  induction files generalizing state command with
  | nil => exact .ok h
  | cons file files ih =>
    have hfile : Simulates (dumpFile reader opts.segments state file)
        ((dumpInputFile reader opts file.input).run command) :=
      dumpFile_simulates (hfits file List.mem_cons_self) h
    rw [List.foldlM_cons, List.map_cons, List.forM_cons, EStateM.run_bind]
    generalize dumpFile reader opts.segments state file = first at hfile ⊢
    generalize (dumpInputFile reader opts file.input).run command = first' at hfile ⊢
    cases hfile with
    | ok hsame =>
      exact ih (fun other hother => hfits other (List.mem_cons_of_mem file hother)) hsame
    | error error _ => exact .error error _

/-- **The command on logs and offset indices is `dumpFiles`.** -/
theorem dumpFiles_simulates {files : List SegmentFile} (hfits : ∀ file ∈ files, file.SuffixFits)
    (hfiles : opts.files = files.map SegmentFile.input) :
    Simulates (dumpFiles reader opts.segments files)
      ((dumpInputFiles reader opts).run .start) := by
  rw [dumpFiles, dumpInputFiles, hfiles]
  exact foldlM_simulates hfits ⟨rfl, rfl⟩

end Runs

end KafkaCli.DumpLog
