import KafkaCli.Storage.Format

/-!
# One directory

What formatting one directory does to the files, said once. A directory that is skipped, or that
fails a check, leaves new directories only. A directory that is written gets its
`meta.properties`, or a first part of it where the writing breaks off; after that only residual
markers are replaced (`Residual`).
-/

namespace KafkaCli.Storage

open FileTree Tree Run

/-- The path of a residual marker. -/
def Residual (path : Path) : Prop := ∃ directory, path = residualPath directory

theorem not_residual_metaPath (path : Path) : ¬ Residual (metaPath path) := by
  intro ⟨directory, h⟩
  have hlast := congrArg List.getLast? h
  simp only [metaPath, residualPath, List.getLast?_concat, Option.some.injEq] at hlast
  revert hlast
  decide

/-- A relation between the files of two worlds. -/
def OnFiles (R : Tree → Tree → Prop) (world world' : World) : Prop := R world.files world'.files

instance (R : Tree → Tree → Prop) [IsPreorder Tree R] : IsPreorder World (OnFiles R) where
  refl world := refl_of R world.files
  trans _ _ _ h h' := trans_of R h h'

/-! ## Operations -/

theorem changeFiles_run {operation : Tree → Except IoError Tree} {world : World} {files : Tree}
    (h : operation world.files = .ok files) :
    (changeFiles operation).run world = .ok ⟨⟩ { world with files } := by
  simp [changeFiles, h, io, Except.mapError]

theorem changeFiles_run_error {operation : Tree → Except IoError Tree} {world : World}
    {error : IoError} (h : operation world.files = .error error) :
    (changeFiles operation).run world = .error (.io error.text) world := by
  simp [changeFiles, h, io, Except.mapError]

theorem Host.stops_eq_some {host : Host} {path : Path} {steps : ℕ} {stop : ℕ × String}
    (h : host.stops path steps = some stop) : host.breaksOff path ≠ none := by
  intro hnone
  rw [Host.stops, hnone] at h
  cases h

section Steps

variable {R : Tree → Tree → Prop} [IsPreorder Tree R]

theorem moves_say (line : String) : Moves (OnFiles R) (say line) :=
  .modify fun world => refl_of R world.files

theorem moves_printMeta (properties : MetaProperties) :
    Moves (OnFiles R) (printMeta properties) :=
  .forM fun line _ => moves_say line

theorem moves_changeFiles {operation : Tree → Except IoError Tree}
    (h : ∀ files files', operation files = .ok files' → R files files') :
    Moves (OnFiles R) (changeFiles operation) := by
  intro world
  cases hop : operation world.files with
  | error error =>
    rw [changeFiles_run_error hop]
    exact refl_of R world.files
  | ok files =>
    rw [changeFiles_run hop]
    exact h _ _ hop

end Steps

/-- A local I/O operation failed, perhaps in the JSON writer. -/
def IsIo (error : Error) : Prop := ∃ message, error = .io message ∨ error = .json message

theorem throws_say {P : Error → Prop} (line : String) : Throws P (say line) := .modify _

theorem throws_printMeta {P : Error → Prop} (properties : MetaProperties) :
    Throws P (printMeta properties) :=
  .forM fun line _ => throws_say line

theorem throws_changeFiles (operation : Tree → Except IoError Tree) :
    Throws IsIo (changeFiles operation) := by
  intro world error world' h
  cases hop : operation world.files with
  | error ioError =>
    rw [changeFiles_run_error hop] at h
    cases h
    exact ⟨_, .inl rfl⟩
  | ok files =>
    rw [changeFiles_run hop] at h
    cases h

/-! ## Operations that may break off -/

/-- Creating directories, also when it breaks off, creates directories on the way only. -/
theorem moves_createDirAll (host : Host) (path : Path) :
    Moves (OnFiles (OnlyDirectories (· <+: path))) (createDirAll host path) := by
  unfold createDirAll
  split
  · exact moves_changeFiles fun files files' h => onlyDirectories_of_createDirAll h
  · next made message hstops =>
    refine .bind (moves_changeFiles fun files files' h => ?_) fun _ => .throw _
    exact (onlyDirectories_of_createDirAll h).mono fun q hq => hq.trans (List.take_prefix made path)

theorem throws_createDirAll (host : Host) (path : Path) : Throws IsIo (createDirAll host path) := by
  unfold createDirAll
  split
  · exact throws_changeFiles _
  · exact .bind (throws_changeFiles _) fun _ => .throw ⟨_, .inl rfl⟩

/-- Directories that were created are there. -/
theorem createDirAll_ok {host : Host} {path : Path} {world world' : World}
    (h : (createDirAll host path).run world = .ok ⟨⟩ world') :
    ∃ files, world.files.createDirAll path = .ok files ∧ world' = { world with files } := by
  unfold createDirAll at h
  split at h
  · cases hop : world.files.createDirAll path with
    | error error =>
      rw [changeFiles_run_error hop] at h
      cases h
    | ok files =>
      rw [changeFiles_run hop] at h
      cases h
      exact ⟨files, rfl, rfl⟩
  · obtain ⟨_, middle, -, hthrow⟩ := bind_eq_ok.1 h
    cases hthrow

/-- Writing a file moves the files as any first part of the bytes does. -/
theorem moves_createFile {R : Tree → Tree → Prop} [IsPreorder Tree R] {host : Host} {path : Path}
    {bytes : List UInt8} {failed : ℕ → String → Error}
    (h : ∀ first files files', files.writeFile path first = .ok files' → R files files') :
    Moves (OnFiles R) (createFile host path bytes failed) := by
  unfold createFile
  split
  · exact moves_changeFiles (h bytes)
  · exact .throw _
  · exact .bind (moves_changeFiles (h _)) fun _ => .throw _

theorem throws_createFile {host : Host} {path : Path} {bytes : List UInt8}
    {failed : ℕ → String → Error} (h : ∀ step message, IsIo (failed step message)) :
    Throws IsIo (createFile host path bytes failed) := by
  unfold createFile
  split
  · exact throws_changeFiles _
  · exact .throw (h _ _)
  · exact .bind (throws_changeFiles _) fun _ => .throw (h _ _)

/-- What writing a new file does in a directory that is there: the bytes are written, or it fails
before the file is there, or it leaves a first part of the bytes. -/
theorem createFile_new {host : Host} {path : Path} {name : String} {bytes : List UInt8}
    {failed : ℕ → String → Error} {world : World}
    (hparent : world.files.node path = some .directory)
    (hnone : world.files.node (path ++ [name]) = none) :
    (∃ files, world.files.writeFile (path ++ [name]) bytes = .ok files ∧
        (createFile host (path ++ [name]) bytes failed).run world = .ok ⟨⟩ { world with files }) ∨
      (∃ message, (createFile host (path ++ [name]) bytes failed).run world =
        .error (failed 0 message) world) ∨
      host.breaksOff (path ++ [name]) ≠ none ∧ ∃ written message files,
        world.files.writeFile (path ++ [name]) (bytes.take written) = .ok files ∧
        (createFile host (path ++ [name]) bytes failed).run world =
          .error (failed (written + 1) message) { world with files } := by
  unfold createFile
  split
  · obtain ⟨files, hwrite⟩ := writeFile_eq_ok bytes hparent hnone
    exact .inl ⟨files, hwrite, changeFiles_run hwrite⟩
  · exact .inr (.inl ⟨_, rfl⟩)
  · next written message hstops =>
    obtain ⟨files, hwrite⟩ := writeFile_eq_ok (bytes.take written) hparent hnone
    refine .inr (.inr ⟨Host.stops_eq_some hstops, written, message, files, hwrite, ?_⟩)
    rw [bind_of_ok (changeFiles_run hwrite)]
    rfl

/-! ## Writing -/

section Write

variable (host : Host) (args : FormatArgs) (props : Properties) (nodeId : Int)

theorem moves_writeControllerBootstrapArtifacts (path : Path) :
    Moves (OnFiles (Keeps Residual)) (writeControllerBootstrapArtifacts host args nodeId path) := by
  refine .bind ((moves_createDirAll host _).mono fun _ _ h => h.keeps) fun _ => ?_
  refine .bind (moves_createFile fun first files files' h => ?_) fun _ => ?_
  · exact (keeps_of_writeFile h).mono fun q hq => ⟨path, hq⟩
  · exact .bind (moves_say _) fun _ => moves_say _

omit host args nodeId props in
/-- Breaking off in the residual marker is a failed operation. -/
theorem isIo_residual {length : ℕ} (step : ℕ) (message : String) :
    IsIo ((if 0 < step ∧ step ≤ length then Error.json else Error.io) message) := by
  split_ifs
  · exact ⟨message, .inr rfl⟩
  · exact ⟨message, .inl rfl⟩

theorem throws_writeControllerBootstrapArtifacts (path : Path) :
    Throws IsIo (writeControllerBootstrapArtifacts host args nodeId path) :=
  .bind (throws_createDirAll host _) fun _ => .bind (throws_createFile isIo_residual) fun _ =>
    .bind (throws_say _) fun _ => throws_say _

/-- Finishing a directory moves the files as its artifacts do. -/
theorem moves_finishDirectory {R : Tree → Tree → Prop} [IsPreorder Tree R] {directory : String}
    (h : Moves (OnFiles R)
      (writeControllerBootstrapArtifacts host args nodeId (host.resolve directory)))
    (properties : MetaProperties) :
    Moves (OnFiles R) (finishDirectory host args props nodeId directory properties) := by
  refine .bind (moves_say _) fun _ => .bind (moves_printMeta _) fun _ => ?_
  refine .bind (.forM fun _ _ => moves_say _) fun _ => ?_
  refine .bind (.forM fun _ _ => moves_say _) fun _ => ?_
  exact .ite h (.pure _)

theorem keeps_finishDirectory (directory : String) (properties : MetaProperties) :
    Moves (OnFiles (Keeps Residual))
      (finishDirectory host args props nodeId directory properties) :=
  moves_finishDirectory host args props nodeId
    (moves_writeControllerBootstrapArtifacts host args nodeId _) properties

theorem throws_finishDirectory (directory : String) (properties : MetaProperties) :
    Throws IsIo (finishDirectory host args props nodeId directory properties) := by
  refine .bind (throws_say _) fun _ => .bind (throws_printMeta _) fun _ => ?_
  refine .bind (.forM fun _ _ => throws_say _) fun _ => ?_
  refine .bind (.forM fun _ _ => throws_say _) fun _ => ?_
  exact .ite (throws_writeControllerBootstrapArtifacts host args nodeId _) (.pure _)

omit host args props nodeId in
/-- A file that is written where there was none leaves everything else alone. -/
theorem keeps_of_write {files files' : Tree} {path : Path} {bytes : List UInt8}
    (hnew : files.exists? path = false) (hwrite : files.writeFile path bytes = .ok files') :
    Keeps Residual files files' := by
  intro q node hnode
  refine .inl ((keeps_of_writeFile hwrite).node_eq hnode fun hq => ?_)
  rw [Tree.exists?, ← hq, hnode] at hnew
  cases hnew

/-- The text that a new directory gets. -/
def newMetaText (directory : String) : String :=
  metaText (formattedMeta args.clusterId nodeId (host.newV4 directory))

/-- What writing to a directory does: its file is written and the directory finished, or the file
is not created, or it is left with a first part of its text. -/
theorem writeDirectory_run {directory : String} {world : World}
    (hdir : world.files.node (host.resolve directory) = some .directory)
    (hnone : world.files.node (metaPath (host.resolve directory)) = none) :
    (∃ files, world.files.writeFile (metaPath (host.resolve directory))
          (Text.encodeUtf8 (newMetaText host args nodeId directory)) = .ok files ∧
        (writeDirectory host args props nodeId directory).run world =
          (finishDirectory host args props nodeId directory (formattedMeta args.clusterId nodeId
            (host.newV4 directory))).run { world with files }) ∨
      (∃ message, (writeDirectory host args props nodeId directory).run world =
        .error (.io message) world) ∨
      host.breaksOff (metaPath (host.resolve directory)) ≠ none ∧ ∃ written message files,
        world.files.writeFile (metaPath (host.resolve directory))
          ((Text.encodeUtf8 (newMetaText host args nodeId directory)).take written) = .ok files ∧
        (writeDirectory host args props nodeId directory).run world =
          .error (.io message) { world with files } := by
  rcases createFile_new hdir hnone with ⟨files, hwrite, hrun⟩ | ⟨message, hrun⟩ |
    ⟨hbreaks, written, message, files, hwrite, hrun⟩
  · exact .inl ⟨files, hwrite, bind_of_ok hrun _⟩
  · exact .inr (.inl ⟨message, bind_of_error hrun _⟩)
  · exact .inr (.inr ⟨hbreaks, written, message, files, hwrite, bind_of_error hrun _⟩)

/-! ## The step -/

/-- What a directory fails: it was formatted before, or its own check. -/
def Refused (files : Tree) (directory : String) (error : Error) : Prop :=
  let path := host.resolve directory
  (files.exists? (metaPath path) = true ∧ args.ignoreFormatted = false ∧
      error = alreadyFormatted directory) ∨
    (files.exists? (metaPath path) = false ∧
      checkDirectory props files directory path = .error error)

/-- What formatting a directory does, with the files that are there once it is created. -/
inductive DirectoryStep (directory : String) (world : World) :
    EStateM.Result Error World PUnit → Prop
  | failed (world' : World) (error : Error) (hio : IsIo error)
      (hcreating : OnlyDirectories (· <+: host.resolve directory) world.files world'.files) :
      DirectoryStep directory world (.error error world')
  | skipped (files : Tree) (world' : World)
      (hcreate : world.files.createDirAll (host.resolve directory) = .ok files)
      (hexists : files.exists? (metaPath (host.resolve directory)) = true)
      (hignore : args.ignoreFormatted = true) (hfiles : world'.files = files) :
      DirectoryStep directory world (.ok ⟨⟩ world')
  | refused (files : Tree) (world' : World) (error : Error)
      (hcreate : world.files.createDirAll (host.resolve directory) = .ok files)
      (hrefused : Refused host args props files directory error) (hfiles : world'.files = files) :
      DirectoryStep directory world (.error error world')
  | brokenOff (files : Tree) (world' : World) (error : Error) (first : List UInt8)
      (hio : IsIo error)
      (hcreate : world.files.createDirAll (host.resolve directory) = .ok files)
      (hnew : files.exists? (metaPath (host.resolve directory)) = false)
      (hbreaks : host.breaksOff (metaPath (host.resolve directory)) ≠ none)
      (hfirst : first <+: Text.encodeUtf8 (newMetaText host args nodeId directory))
      (hwrite : files.writeFile (metaPath (host.resolve directory)) first = .ok world'.files) :
      DirectoryStep directory world (.error error world')
  | written (files files' : Tree)
      (hcreate : world.files.createDirAll (host.resolve directory) = .ok files)
      (hnew : files.exists? (metaPath (host.resolve directory)) = false)
      (hcheck : checkDirectory props files directory (host.resolve directory) = .ok ())
      (hwrite : files.writeFile (metaPath (host.resolve directory))
        (Text.encodeUtf8 (newMetaText host args nodeId directory)) = .ok files') :
      DirectoryStep directory world
        ((finishDirectory host args props nodeId directory (formattedMeta args.clusterId nodeId
          (host.newV4 directory))).run { world with files := files' })

theorem formatDirectory_step (directory : String) (world : World) :
    DirectoryStep host args props nodeId directory world
      ((formatDirectory host args props nodeId directory).run world) := by
  have hcreating := moves_createDirAll host (host.resolve directory) world
  cases hrun : (createDirAll host (host.resolve directory)).run world with
  | error error world' =>
    rw [hrun] at hcreating
    have hfail : (formatDirectory host args props nodeId directory).run world =
        .error error world' := bind_of_error hrun _
    rw [hfail]
    exact .failed world' error (throws_createDirAll host _ _ _ _ hrun) hcreating
  | ok _ middle =>
    rw [hrun] at hcreating
    obtain ⟨files, hcreate, rfl⟩ := createDirAll_ok hrun
    have hrest : (formatDirectory host args props nodeId directory).run world =
        (formatCreated host args props nodeId directory).run { world with files } :=
      bind_of_ok hrun _
    rw [hrest]
    have hdir := isDirectory_of_createDirAll hcreate
    cases hexists : files.exists? (metaPath (host.resolve directory)) with
    | true =>
      cases hignore : args.ignoreFormatted with
      | true =>
        have hskip : (formatCreated host args props nodeId directory).run { world with files } =
            (say s!"Skipping already formatted directory {directory}").run
              { world with files } := by
          simp [formatCreated, currentFiles, hexists, hignore]
        rw [hskip]
        exact .skipped files _ hcreate hexists hignore rfl
      | false =>
        have hthrow : (formatCreated host args props nodeId directory).run { world with files } =
            .error (alreadyFormatted directory) { world with files } := by
          simp [formatCreated, currentFiles, hexists, hignore]
        rw [hthrow]
        exact .refused files _ _ hcreate (.inl ⟨hexists, hignore, rfl⟩) rfl
    | false =>
      cases hcheck : checkDirectory props files directory (host.resolve directory) with
      | error error =>
        have hthrow : (formatCreated host args props nodeId directory).run { world with files } =
            .error error { world with files } := by
          simp [formatCreated, currentFiles, hexists, hcheck]
        rw [hthrow]
        exact .refused files _ _ hcreate (.inr ⟨hexists, hcheck⟩) rfl
      | ok _ =>
        have hnone : ({ world with files } : World).files.node
            (metaPath (host.resolve directory)) = none := by simpa [Tree.exists?] using hexists
        have hwriting : (formatCreated host args props nodeId directory).run { world with files } =
            (writeDirectory host args props nodeId directory).run { world with files } := by
          simp [formatCreated, currentFiles, hexists, hcheck]
        rw [hwriting]
        rcases writeDirectory_run host args props nodeId hdir hnone with ⟨files', hwrite, hrun'⟩ |
            ⟨message, hrun'⟩ | ⟨hbreaks, written, message, files', hwrite, hrun'⟩
        · rw [hrun']
          exact .written files files' hcreate hexists hcheck hwrite
        · rw [hrun']
          exact .failed _ _ ⟨message, .inl rfl⟩ hcreating
        · rw [hrun']
          exact .brokenOff files _ _ _ ⟨message, .inl rfl⟩ hcreate hexists hbreaks
            (List.take_prefix _ _) hwrite

theorem keeps_formatDirectory (directory : String) :
    Moves (OnFiles (Keeps Residual)) (formatDirectory host args props nodeId directory) := by
  intro world
  have hcreated : ∀ {files : Tree},
      world.files.createDirAll (host.resolve directory) = .ok files →
      Keeps Residual world.files files := fun h => (onlyDirectories_of_createDirAll h).keeps
  have hstep := formatDirectory_step host args props nodeId directory world
  unfold OnFiles
  generalize (formatDirectory host args props nodeId directory).run world = result at hstep ⊢
  cases hstep with
  | failed world' error hio hcreating => exact hcreating.keeps
  | skipped files world' hcreate hexists hignore hfiles => exact hfiles ▸ hcreated hcreate
  | refused files world' error hcreate hrefused hfiles => exact hfiles ▸ hcreated hcreate
  | brokenOff files world' error first hio hcreate hnew hbreaks hfirst hwrite =>
    exact trans_of _ (hcreated hcreate) (keeps_of_write hnew hwrite)
  | written files files' hcreate hnew hcheck hwrite =>
    exact trans_of _ (hcreated hcreate) (trans_of _ (keeps_of_write hnew hwrite)
      (keeps_finishDirectory host args props nodeId directory _ { world with files := files' }))

end Write

/-! ## The run -/

theorem formatPlan_ok {args : FormatArgs} {props : Properties} {plan : Int × List String}
    (h : formatPlan args props = .ok plan) :
    configuredNodeId props = .ok plan.1 ∧ plan.2 = logDirectories props ∧ plan.2 ≠ [] := by
  simp only [formatPlan, Checked.bind_eq_ok, Checked.failIf_eq_ok, Checked.pure_eq_ok] at h
  obtain ⟨_, _, nodeId, hnode, _, _, _, _, _, hne, rfl⟩ := h
  exact ⟨hnode, rfl, hne⟩

/-- A run of `storage_format` is the loop over the directories, once the plan is made. -/
theorem storageFormat_run {host : Host} {args : FormatArgs} {props : Properties}
    {config : String} {plan : Int × List String} (world : World)
    (hload : host.loadProperties config = .ok props) (hplan : formatPlan args props = .ok plan) :
    (storageFormat host config args).run world =
      (forM plan.2 (formatDirectory host args props plan.1)).run world := by
  simp [storageFormat, hload, hplan]

/-- The host at which nothing breaks off. -/
def Host.unbroken (host : Host) : Host := { host with breaksOff := fun _ => none }

section Unbroken

variable (host : Host)

theorem unbroken_createDirAll (path : Path) :
    ReturnsAs (createDirAll host path) (createDirAll host.unbroken path) := by
  intro world _ world' h
  obtain ⟨files, hcreate, rfl⟩ := createDirAll_ok h
  show (changeFiles fun files => files.createDirAll path).run world = _
  exact changeFiles_run hcreate

theorem unbroken_createFile (path : Path) (bytes : List UInt8) (failed : ℕ → String → Error) :
    ReturnsAs (createFile host path bytes failed) (createFile host.unbroken path bytes failed) := by
  intro world _ world' h
  unfold createFile at h
  split at h
  · exact h
  · cases h
  · obtain ⟨_, middle, -, hthrow⟩ := bind_eq_ok.1 h
    cases hthrow

theorem unbroken_finishDirectory (args : FormatArgs) (props : Properties) (nodeId : Int)
    (directory : String) (properties : MetaProperties) :
    ReturnsAs (finishDirectory host args props nodeId directory properties)
      (finishDirectory host.unbroken args props nodeId directory properties) := by
  refine .bind (.refl _) fun _ => .bind (.refl _) fun _ => ?_
  refine .bind (.refl _) fun _ => .bind (.refl _) fun _ => .ite ?_ (.refl _)
  refine .bind (unbroken_createDirAll host _) fun _ => ?_
  exact .bind (unbroken_createFile host _ _ _) fun _ => .refl _

theorem unbroken_formatDirectory (args : FormatArgs) (props : Properties) (nodeId : Int)
    (directory : String) :
    ReturnsAs (formatDirectory host args props nodeId directory)
      (formatDirectory host.unbroken args props nodeId directory) := by
  refine .bind (unbroken_createDirAll host _) fun _ => .bind (.refl _) fun files => ?_
  refine .ite (.refl _) (.bind (.refl _) fun _ => ?_)
  exact .bind (unbroken_createFile host _ _ _) fun _ =>
    unbroken_finishDirectory host args props nodeId directory _

/-- A format that returns has met nothing that breaks off. -/
theorem unbroken_storageFormat (config : String) (args : FormatArgs) :
    ReturnsAs (storageFormat host config args) (storageFormat host.unbroken config args) := by
  refine .bind (.refl _) fun props => .bind (.refl _) fun plan => ?_
  exact .forM fun directory _ => unbroken_formatDirectory host args props plan.1 directory

end Unbroken

end KafkaCli.Storage
