import KafkaCli.Storage.AllOrNothing

/-!
# What a format leaves behind

After a format that returns, every configured directory is there with a `meta.properties`.
Where there was none before, the file holds the ids of the format, which the reader finds again.
A directory that was formatted before keeps its file, whatever ids it holds. `info_accepts_iff`
says when `storage_info` has nothing to report: all these ids are readable and the same.
-/

namespace KafkaCli.Storage

open FileTree Tree Run Text

variable (host : Host) (args : FormatArgs) (props : Properties) (nodeId : Int)

/-! ## The files of the directories -/

/-- A configured directory lies at this path or below it. -/
def AboveDirectory (path : Path) : Prop :=
  ∃ directory ∈ logDirectories props, path <+: host.resolve directory

/-- What a format leaves at a new `meta.properties`: a file with its text, or with a first part of
it where the writing breaks off. -/
def NewMeta (path : Path) (node : Node) : Prop :=
  ∃ directory bytes, node = .file bytes ∧
    bytes <+: encodeUtf8 (newMetaText host args nodeId directory) ∧
    (host.breaksOff path = none → bytes = encodeUtf8 (newMetaText host args nodeId directory))

/-- What a format does to the `meta.properties` of any directory: one that is there stays as it
is, and a new one is a new file, or a directory that was configured. -/
def MetaStep (files files' : Tree) : Prop :=
  ∀ path, files'.node (metaPath path) = files.node (metaPath path) ∨
    (files.node (metaPath path) = none ∧ ∃ node, files'.node (metaPath path) = some node ∧
      ((node = .directory ∧ AboveDirectory host props (metaPath path)) ∨
        NewMeta host args nodeId (metaPath path) node))

instance : IsPreorder Tree (MetaStep host args props nodeId) where
  refl _ _ := .inl rfl
  trans files₁ files₂ files₃ h h' path := by
    rcases h path with hsame | ⟨hnone, node, hnode, hkind⟩
    · rw [← hsame]
      exact h' path
    · rcases h' path with hsame' | ⟨hnone', -⟩
      · exact .inr ⟨hnone, node, hsame'.trans hnode, hkind⟩
      · rw [hnode] at hnone'
        cases hnone'

theorem metaStep_of_onlyDirectories {files files' : Tree} {path : Path}
    (h : OnlyDirectories (· <+: path) files files')
    (habove : ∀ q, metaPath q <+: path → AboveDirectory host props (metaPath q)) :
    MetaStep host args props nodeId files files' := by
  intro q
  rcases h (metaPath q) with hsame | ⟨hnone, hdir, hunder⟩
  · exact .inl hsame
  · exact .inr ⟨hnone, .directory, hdir, .inl ⟨rfl, habove q hunder⟩⟩

theorem metaStep_of_writeFile {files files' : Tree} {path : Path} {bytes : List UInt8}
    (h : files.writeFile path bytes = .ok files') (hpath : ∀ q, path ≠ metaPath q) :
    MetaStep host args props nodeId files files' := by
  intro q
  rw [(writeFile_ok h).2, Function.update_of_ne (hpath q).symm]
  exact .inl rfl

/-- Nothing that a controller's artifacts add is a `meta.properties`. -/
theorem moves_artifacts {directory : String} (hmem : directory ∈ logDirectories props) :
    Moves (OnFiles (MetaStep host args props nodeId))
      (writeControllerBootstrapArtifacts host args nodeId (host.resolve directory)) := by
  refine .bind ((moves_createDirAll host _).mono fun _ _ h => ?_) fun _ => ?_
  · refine metaStep_of_onlyDirectories host args props nodeId h fun q hunder => ?_
    rcases List.prefix_concat_iff.1 hunder with heq | hbelow
    · have hlast := congrArg List.getLast? heq
      simp only [metaPath, List.getLast?_concat, Option.some.injEq] at hlast
      exact absurd hlast (by decide)
    · exact ⟨directory, hmem, hbelow⟩
  · refine .bind (moves_createFile fun first files files' h => ?_) fun _ => ?_
    · refine metaStep_of_writeFile host args props nodeId h fun q heq => ?_
      exact not_residual_metaPath q ⟨_, heq.symm⟩
    · exact .bind (moves_say _) fun _ => moves_say _

theorem metaStep_of_creating {files files' : Tree} {directory : String}
    (hmem : directory ∈ logDirectories props)
    (h : OnlyDirectories (· <+: host.resolve directory) files files') :
    MetaStep host args props nodeId files files' :=
  metaStep_of_onlyDirectories host args props nodeId h fun _ hunder => ⟨directory, hmem, hunder⟩

/-- A new file with its text, or a first part of it where the writing breaks off. -/
theorem metaStep_of_newMeta {files files' : Tree} {directory : String} {bytes : List UInt8}
    (hnew : files.exists? (metaPath (host.resolve directory)) = false)
    (hwrite : files.writeFile (metaPath (host.resolve directory)) bytes = .ok files')
    (hfirst : bytes <+: encodeUtf8 (newMetaText host args nodeId directory))
    (hwhole : host.breaksOff (metaPath (host.resolve directory)) = none →
      bytes = encodeUtf8 (newMetaText host args nodeId directory)) :
    MetaStep host args props nodeId files files' := by
  intro q
  rw [(writeFile_ok hwrite).2]
  by_cases hq : metaPath q = metaPath (host.resolve directory)
  · rw [hq, Function.update_self]
    refine .inr ⟨?_, _, rfl, .inr ⟨directory, bytes, rfl, hfirst, hwhole⟩⟩
    simpa [Tree.exists?] using hnew
  · exact .inl (Function.update_of_ne hq _ _)

theorem metaStep_formatDirectory {directory : String} (hmem : directory ∈ logDirectories props) :
    Moves (OnFiles (MetaStep host args props nodeId))
      (formatDirectory host args props nodeId directory) := by
  intro world
  have hstep := formatDirectory_step host args props nodeId directory world
  have hcreated : ∀ {files : Tree}, world.files.createDirAll (host.resolve directory) = .ok files →
      MetaStep host args props nodeId world.files files := fun h =>
    metaStep_of_creating host args props nodeId hmem (onlyDirectories_of_createDirAll h)
  unfold OnFiles
  generalize (formatDirectory host args props nodeId directory).run world = result at hstep ⊢
  cases hstep with
  | failed world' error hio hcreating =>
    exact metaStep_of_creating host args props nodeId hmem hcreating
  | skipped files world' hcreate hexists hignore hfiles => exact hfiles ▸ hcreated hcreate
  | refused files world' error hcreate hrefused hfiles => exact hfiles ▸ hcreated hcreate
  | brokenOff files world' error first hio hcreate hnew hbreaks hfirst hwrite =>
    exact trans_of _ (hcreated hcreate) (metaStep_of_newMeta host args props nodeId hnew hwrite
      hfirst fun hnone => absurd hnone hbreaks)
  | written files files' hcreate hnew hcheck hwrite =>
    have hfile : MetaStep host args props nodeId files files' :=
      metaStep_of_newMeta host args props nodeId hnew hwrite List.prefix_rfl fun _ => rfl
    have hfinish := moves_finishDirectory host args props nodeId
      (moves_artifacts host args props nodeId hmem)
      (formattedMeta args.clusterId nodeId (host.newV4 directory)) { world with files := files' }
    exact trans_of _ (hcreated hcreate) (trans_of _ hfile hfinish)

/-- The directory is there and has its file. -/
def IsFormatted (files : Tree) (directory : String) : Prop :=
  files.node (host.resolve directory) = some .directory ∧
    ∃ node, files.node (metaPath (host.resolve directory)) = some node

theorem IsFormatted.keeps {host : Host} {files files' : Tree} {directory : String}
    (h : IsFormatted host files directory) (hkeeps : Keeps Residual files files') :
    IsFormatted host files' directory := by
  obtain ⟨hdir, node, hnode⟩ := h
  exact ⟨hkeeps.isDirectory hdir, node, hkeeps.node_eq hnode (not_residual_metaPath _)⟩

theorem isFormatted_of_ok {directory : String} {world world' : World}
    (h : (formatDirectory host args props nodeId directory).run world = .ok ⟨⟩ world') :
    IsFormatted host world'.files directory := by
  have hstep := formatDirectory_step host args props nodeId directory world
  generalize (formatDirectory host args props nodeId directory).run world = result at hstep h
  cases hstep with
  | failed world' error hio hcreating => cases h
  | brokenOff files world' error first hio hcreate hnew hbreaks hfirst hwrite => cases h
  | refused files world' error hcreate hrefused hfiles => cases h
  | skipped files _ hcreate hexists hignore hfiles =>
    cases h
    rw [hfiles]
    exact ⟨isDirectory_of_createDirAll hcreate, Option.isSome_iff_exists.1 hexists⟩
  | written files files' hcreate hnew hcheck hwrite =>
    have hfinish : Keeps Residual files' world'.files :=
      (keeps_finishDirectory host args props nodeId directory _).of_ok h
    refine IsFormatted.keeps
      ⟨?_, .file (encodeUtf8 (newMetaText host args nodeId directory)), ?_⟩ hfinish
    · exact (keeps_of_writeFile hwrite).isDirectory (isDirectory_of_createDirAll hcreate)
    · rw [(writeFile_ok hwrite).2, Function.update_self]

theorem isFormatted_of_forM_ok {directories : List String} {world world' : World}
    (h : (forM directories (formatDirectory host args props nodeId)).run world = .ok ⟨⟩ world') :
    ∀ directory ∈ directories, IsFormatted host world'.files directory := by
  induction directories generalizing world with
  | nil => simp
  | cons directory rest ih =>
    obtain ⟨middle, hfirst, hrest⟩ := forM_cons_eq_ok.1 h
    have hkeeps : Keeps Residual middle.files world'.files :=
      (Moves.forM fun d _ => keeps_formatDirectory host args props nodeId d).of_ok hrest
    refine List.forall_mem_cons.2 ⟨?_, ih hrest⟩
    exact (isFormatted_of_ok host args props nodeId hfirst).keeps hkeeps

/-! ## What is read afterwards -/

theorem readMetaProperties_congr {files files' : Tree} {path : Path}
    (h : files'.node path = files.node path) :
    readMetaProperties files' path = readMetaProperties files path := by
  rw [readMetaProperties, readMetaProperties, Tree.read, Tree.read, h]

/-- The ids of a new file are those of the format, once the reader has read the cluster id's
lines. -/
def NewIds (ids : Option String × Option Int) : Prop :=
  ∃ properties, readClusterLines args.clusterId = .ok properties ∧
    ids = (properties.clusterId, some nodeId)

theorem readMetaProperties_newMeta {files : Tree} {path : Path} {node : Node}
    (hnode : files.node path = some node) (hnew : NewMeta host args nodeId path node)
    (hwhole : host.breaksOff path = none)
    (hlow : -2 ^ 31 ≤ nodeId) (hhigh : nodeId < 2 ^ 31) (ids : Option String × Option Int) :
    (∃ properties, readMetaProperties files path = .ok properties ∧ properties.ids = ids) ↔
      NewIds args nodeId ids := by
  obtain ⟨directory, bytes, rfl, -, hbytes⟩ := hnew
  obtain rfl := hbytes hwhole
  have hread := readMetaText_metaText args.clusterId (host.newV4 directory) hlow hhigh
  have hfile : readMetaProperties files path =
      readMetaText (metaText (formattedMeta args.clusterId nodeId (host.newV4 directory))) := by
    simp only [readMetaProperties, Tree.read, hnode, io, Except.mapError, Checked.ok_bind,
      decodeUtf8_encodeUtf8, Option.elim_some, newMetaText]
  rw [hfile, hread, NewIds]
  cases readClusterLines args.clusterId with
  | error error => simp [Except.map]
  | ok properties =>
    simp only [Except.map, Except.ok.injEq, exists_eq_left', MetaProperties.ids]
    exact eq_comm

theorem readMetaProperties_directory {files : Tree} {path : Path} {properties : MetaProperties}
    (hnode : files.node path = some .directory) :
    readMetaProperties files path ≠ .ok properties := by
  intro h
  rw [readMetaProperties, Tree.read, hnode] at h
  cases h

/-! ## The inspection -/

theorem say_run (line : String) (world : World) :
    (say line).run world = .ok ⟨⟩ { world with stdout := world.stdout ++ [line] } := rfl

theorem printMeta_run (properties : MetaProperties) (world : World) :
    ∃ world', (printMeta properties).run world = .ok ⟨⟩ world' ∧ world'.files = world.files := by
  obtain ⟨_, world', hrun⟩ := Throws.returns (throws_printMeta properties) world
  have hfiles : world.files = world'.files := (moves_printMeta (R := Eq) properties).of_ok hrun
  exact ⟨world', hrun, hfiles.symm⟩

theorem inconsistencies_eq_nil {directory : String} {previous properties : MetaProperties} :
    inconsistencies directory previous properties = [] ↔ previous.ids = properties.ids := by
  simp [inconsistencies, MetaProperties.ids]

/-- The files of the directories can be read and hold the ids of the one before, and of each
other. -/
def Consistent (files : Tree) (prev : Option MetaProperties) (directories : List String) : Prop :=
  ∃ ids, (∀ previous, prev = some previous → previous.ids = ids) ∧
    ∀ directory ∈ directories, ∃ properties,
      readMetaProperties files (metaPath (host.resolve directory)) = .ok properties ∧
        properties.ids = ids

theorem inspectDirectory_run_error {directory : String} {world : World} {error : Error}
    (seen : Inspection) (h : IsFormatted host world.files directory)
    (hread : readMetaProperties world.files (metaPath (host.resolve directory)) = .error error) :
    (inspectDirectory host seen directory).run world = .error error world := by
  obtain ⟨hdir, node, hnode⟩ := h
  simp [inspectDirectory, currentFiles, Tree.isDirectory, Tree.exists?, hdir, hnode, hread]

theorem inspectDirectory_run {directory : String} {world : World} {properties : MetaProperties}
    (seen : Inspection) (h : IsFormatted host world.files directory)
    (hread : readMetaProperties world.files (metaPath (host.resolve directory)) =
      .ok properties) :
    ∃ world', (inspectDirectory host seen directory).run world =
        .ok (seen.next directory properties) world' ∧ world'.files = world.files := by
  obtain ⟨hdir, node, hnode⟩ := h
  obtain ⟨world', hprint, hfiles⟩ := printMeta_run properties
    { world with stdout := world.stdout ++ [s!"Found meta.properties file in {directory}:"] }
  refine ⟨world', ?_, hfiles⟩
  have hexists : world.files.exists? (metaPath (host.resolve directory)) = true := by
    simp [Tree.exists?, hnode]
  simp only [inspectDirectory, currentFiles, bind_assoc, EStateM.run_bind, EStateM.run_get,
    EStateM.run_pure, Tree.isDirectory, hdir, hexists, hread, Bool.not_true, decide_true,
    Bool.false_eq_true, if_false, run_ofExcept_ok, say_run, hprint]

theorem consistent_cons {host : Host} {files : Tree} {prev : Option MetaProperties}
    {directory : String} {rest : List String} {properties : MetaProperties}
    (hread : readMetaProperties files (metaPath (host.resolve directory)) = .ok properties) :
    Consistent host files prev (directory :: rest) ↔
      prev.elim [] (inconsistencies directory · properties) = [] ∧
        Consistent host files (some properties) rest := by
  have hprev : prev.elim [] (inconsistencies directory · properties) = [] ↔
      ∀ previous, prev = some previous → previous.ids = properties.ids := by
    cases prev with
    | none => simp
    | some previous => simp [inconsistencies_eq_nil]
  rw [hprev]
  refine ⟨?_, ?_⟩
  · intro ⟨ids, hids, hall⟩
    obtain ⟨⟨properties', hread', hids'⟩, hrest⟩ := List.forall_mem_cons.1 hall
    rw [hread, Except.ok.injEq] at hread'
    subst hread'
    refine ⟨fun previous hsome => (hids previous hsome).trans hids'.symm, ids, ?_, hrest⟩
    intro previous hsome
    cases hsome
    exact hids'
  · intro ⟨hsame, ids, hids, hrest⟩
    have hproperties := hids properties rfl
    refine ⟨ids, fun previous hsome => (hsame previous hsome).trans hproperties, ?_⟩
    exact List.forall_mem_cons.2 ⟨⟨properties, hread, hproperties⟩, hrest⟩

/-- The loop of an inspection. It fails on a file that cannot be read; otherwise it has found all
directories, and has no problem with them when they are consistent. -/
theorem foldlM_inspectDirectory {directories : List String} {world : World} (seen : Inspection)
    (h : ∀ directory ∈ directories, IsFormatted host world.files directory) :
    (∃ seen' world', (directories.foldlM (inspectDirectory host) seen).run world =
        .ok seen' world' ∧ seen'.found = seen.found ++ directories ∧
        (seen'.problems = [] ↔
          seen.problems = [] ∧ Consistent host world.files seen.prev directories)) ∨
      ((∃ error world', (directories.foldlM (inspectDirectory host) seen).run world =
        .error error world') ∧ ¬ Consistent host world.files seen.prev directories) := by
  induction directories generalizing seen world with
  | nil =>
    refine .inl ⟨seen, world, rfl, (List.append_nil _).symm, ?_⟩
    refine ⟨fun hproblems => ⟨hproblems, ?_⟩, fun hboth => hboth.1⟩
    cases hprev : seen.prev with
    | none => exact ⟨(none, none), fun _ hnone => (by cases hnone), by simp⟩
    | some previous => exact ⟨previous.ids, fun _ hsome => (by cases hsome; rfl), by simp⟩
  | cons directory rest ih =>
    have hfirst := h directory List.mem_cons_self
    cases hread : readMetaProperties world.files (metaPath (host.resolve directory)) with
    | error error =>
      refine .inr ⟨⟨error, world, ?_⟩, ?_⟩
      · rw [List.foldlM_cons]
        exact bind_of_error (inspectDirectory_run_error host seen hfirst hread) _
      · intro ⟨ids, _, hall⟩
        obtain ⟨properties, hproperties, _⟩ := hall directory List.mem_cons_self
        rw [hread] at hproperties
        cases hproperties
    | ok properties =>
      obtain ⟨middle, hrun, hfiles⟩ := inspectDirectory_run host seen hfirst hread
      have hstep : ((directory :: rest).foldlM (inspectDirectory host) seen).run world =
          (rest.foldlM (inspectDirectory host) (seen.next directory properties)).run middle := by
        rw [List.foldlM_cons]
        exact bind_of_ok hrun _
      have hrest := ih (seen.next directory properties) fun d hd =>
        hfiles ▸ h d (List.mem_cons_of_mem directory hd)
      rw [hfiles] at hrest
      rw [hstep, consistent_cons hread]
      rcases hrest with ⟨seen', world', hrun', hfound, hproblems⟩ | ⟨hfails, hnot⟩
      · refine .inl ⟨seen', world', hrun', ?_, ?_⟩
        · rw [hfound, Inspection.next, List.append_assoc, List.singleton_append]
        · rw [hproblems, Inspection.next, List.append_eq_nil_iff, and_assoc]
      · exact .inr ⟨hfails, fun hconsistent => hnot hconsistent.2⟩

theorem report_ok_iff {kraft : Bool} {seen : Inspection} {world : World} :
    (∃ world', (report kraft seen).run world = .ok ⟨⟩ world') ↔
      seen.problems = [] ∧ seen.found ≠ [] := by
  have hproblems : (seen.problems ++
      if seen.found = [] then ["No log directories found in the configuration"] else []) = [] ↔
        seen.problems = [] ∧ seen.found ≠ [] := by
    rw [List.append_eq_nil_iff]
    split_ifs with hfound <;> simp [hfound]
  rw [← hproblems, report, bind_of_ok (say_run _ world)]
  generalize seen.problems ++
    (if seen.found = [] then ["No log directories found in the configuration"] else []) = problems
  by_cases hnone : problems = []
  · rw [if_pos hnone]
    exact ⟨fun _ => hnone, fun _ => ⟨_, say_run _ _⟩⟩
  · rw [if_neg hnone]
    refine ⟨fun ⟨world', hrun⟩ => ?_, fun h => absurd h hnone⟩
    obtain ⟨_, _, -, hthrow⟩ := bind_eq_ok.1 hrun
    cases hthrow

/-- On formatted directories an inspection has nothing to report exactly when their files can be
read and hold the same ids. -/
theorem storageInfo_ok_iff {props : Properties} {config : String} {world : World}
    (hload : host.loadProperties config = .ok props) (hne : logDirectories props ≠ [])
    (h : ∀ directory ∈ logDirectories props, IsFormatted host world.files directory) :
    (∃ world', (storageInfo host config).run world = .ok ⟨⟩ world') ↔
      Consistent host world.files none (logDirectories props) := by
  have hrun : (storageInfo host config).run world =
      ((logDirectories props).foldlM (inspectDirectory host) ⟨[], [], none⟩ >>=
        report (processRoles props ≠ [])).run world := by
    simp [storageInfo, hload]
  rw [hrun]
  rcases foldlM_inspectDirectory host ⟨[], [], none⟩ h with
    ⟨seen, middle, hseen, hfound, hproblems⟩ | ⟨⟨error, middle, hfails⟩, hnot⟩
  · rw [bind_of_ok hseen, report_ok_iff, hfound, hproblems]
    simp [hne]
  · rw [bind_of_error hfails]
    exact ⟨fun ⟨_, h⟩ => (by cases h), fun h => absurd h hnot⟩

/-! ## Format, then inspect -/

/-- The ids that all directories have, judged before a format: those formatted before have them
in their files, and where a directory is new they are the ids of the format. A new directory
whose file has the path of a configured directory, or of one above it, has none. -/
structure Agreed (files : Tree) (ids : Option String × Option Int) : Prop where
  before : ∀ directory ∈ logDirectories props,
    files.exists? (metaPath (host.resolve directory)) = true → ∃ properties,
      readMetaProperties files (metaPath (host.resolve directory)) = .ok properties ∧
        properties.ids = ids
  fresh : ∀ directory ∈ logDirectories props,
    files.exists? (metaPath (host.resolve directory)) = false →
      (∃ nodeId, configuredNodeId props = .ok nodeId ∧ NewIds args nodeId ids) ∧
        ¬ AboveDirectory host props (metaPath (host.resolve directory))

variable {host args props nodeId}

theorem configuredNodeId_bounds (h : configuredNodeId props = .ok nodeId) :
    -2 ^ 31 ≤ nodeId ∧ nodeId < 2 ^ 31 := by
  obtain ⟨text, -, hparse⟩ := Checked.bind_eq_ok.1 h
  cases hid : Decimal.parseI32 text with
  | error error =>
    rw [hid] at hparse
    cases hparse
  | ok n =>
    rw [hid] at hparse
    cases hparse
    have hbounds := Decimal.parseSigned_bounds hid
    omega

/-- A file that was there before is read as before. -/
theorem readable_of_exists {files files' : Tree} {directory : String}
    (hstep : MetaStep host args props nodeId files files')
    (hexists : files.exists? (metaPath (host.resolve directory)) = true) :
    readMetaProperties files' (metaPath (host.resolve directory)) =
      readMetaProperties files (metaPath (host.resolve directory)) := by
  rcases hstep (host.resolve directory) with hsame | ⟨hnone, -⟩
  · exact readMetaProperties_congr hsame
  · rw [Tree.exists?, hnone] at hexists
    cases hexists

/-- What is new holds the new ids, unless a configured directory is in its place. -/
theorem readable_of_new {files files' : Tree} {directory : String}
    (hformatted : ∀ d ∈ logDirectories props, IsFormatted host files' d)
    (hmem : directory ∈ logDirectories props) (hlow : -2 ^ 31 ≤ nodeId) (hhigh : nodeId < 2 ^ 31)
    (hstep : MetaStep host args props nodeId files files')
    (hwhole : host.breaksOff (metaPath (host.resolve directory)) = none)
    (hnew : files.exists? (metaPath (host.resolve directory)) = false)
    (ids : Option String × Option Int) :
    (∃ properties, readMetaProperties files' (metaPath (host.resolve directory)) =
        .ok properties ∧ properties.ids = ids) ↔
      NewIds args nodeId ids ∧ ¬ AboveDirectory host props (metaPath (host.resolve directory)) := by
  obtain ⟨-, node, hnode⟩ := hformatted directory hmem
  rcases hstep (host.resolve directory) with hsame | ⟨-, node', hnode', hkind⟩
  · rw [Tree.exists?, ← hsame, hnode] at hnew
    cases hnew
  · rcases hkind with ⟨rfl, habove⟩ | hfile
    · refine ⟨fun h => ?_, fun h => absurd habove h.2⟩
      obtain ⟨properties, hread, -⟩ := h
      exact absurd hread (readMetaProperties_directory hnode')
    · rw [readMetaProperties_newMeta host args nodeId hnode' hfile hwhole hlow hhigh ids]
      refine ⟨fun hids => ⟨hids, ?_⟩, fun h => h.1⟩
      intro h
      obtain ⟨other, hother, hunder⟩ := h
      have hdir := (hformatted other hother).1
      have hsome : files'.node (host.resolve other) ≠ none := by simp [hdir]
      obtain ⟨_, bytes, rfl, -, -⟩ := hfile
      rcases node_of_prefix hunder hsome with heq | habove
      · rw [heq, hdir] at hnode'
        cases hnode'
      · rw [habove] at hnode'
        cases hnode'

/-- The directories agree after a format in which nothing breaks off exactly when they agreed
before it. -/
theorem consistent_iff_agreed {files files' : Tree} (hnode : configuredNodeId props = .ok nodeId)
    (hwhole : ∀ directory ∈ logDirectories props,
      host.breaksOff (metaPath (host.resolve directory)) = none)
    (hformatted : ∀ directory ∈ logDirectories props, IsFormatted host files' directory)
    (hstep : MetaStep host args props nodeId files files') :
    Consistent host files' none (logDirectories props) ↔
      ∃ ids, Agreed host args props files ids := by
  obtain ⟨hlow, hhigh⟩ := configuredNodeId_bounds hnode
  refine exists_congr fun ids => ⟨fun h => ⟨?_, ?_⟩, fun h => ⟨?_, ?_⟩⟩
  · intro directory hmem hexists
    rw [← readable_of_exists hstep hexists]
    exact h.2 directory hmem
  · intro directory hmem hnew
    obtain ⟨hids, habove⟩ := (readable_of_new hformatted hmem hlow hhigh hstep
      (hwhole directory hmem) hnew ids).1 (h.2 directory hmem)
    exact ⟨⟨nodeId, hnode, hids⟩, habove⟩
  · intro properties hnone
    cases hnone
  · intro directory hmem
    by_cases hexists : files.exists? (metaPath (host.resolve directory)) = true
    · rw [readable_of_exists hstep hexists]
      exact h.before directory hmem hexists
    · rw [Bool.not_eq_true] at hexists
      obtain ⟨⟨nodeId', hconfigured, hids⟩, habove⟩ := h.fresh directory hmem hexists
      obtain rfl : nodeId = nodeId' := Except.ok.inj (hnode.symm.trans hconfigured)
      exact (readable_of_new hformatted hmem hlow hhigh hstep (hwhole directory hmem) hexists
        ids).2 ⟨hids, habove⟩

/-- What the directories agree on depends only on where they are. -/
theorem agreed_congr {host host' : Host} {files : Tree} {ids : Option String × Option Int}
    (h : host'.resolve = host.resolve) :
    Agreed host' args props files ids ↔ Agreed host args props files ids := by
  cases host
  cases host'
  subst h
  exact ⟨fun h => ⟨h.before, h.fresh⟩, fun h => ⟨h.before, h.fresh⟩⟩

/-- **A format, and an inspection after it.** Every configured directory is found formatted. There
is nothing to report exactly when the directories agreed on their ids before the format. -/
theorem info_accepts_iff {config : String} {world world' : World}
    (hload : host.loadProperties config = .ok props)
    (hrun : (storageFormat host config args).run world = .ok ⟨⟩ world') :
    (∀ directory ∈ logDirectories props, IsFormatted host world'.files directory) ∧
      ((∃ world'', (storageInfo host config).run world' = .ok ⟨⟩ world'') ↔
        ∃ ids, Agreed host args props world.files ids) := by
  cases hplan : formatPlan args props with
  | error planError =>
    have hfail : (storageFormat host config args).run world = .error planError world := by
      simp [storageFormat, hload, hplan]
    rw [hfail] at hrun
    cases hrun
  | ok plan =>
    obtain ⟨hnode, hdirs, hne⟩ := formatPlan_ok hplan
    have hunbroken := unbroken_storageFormat host config args _ _ _ hrun
    have hload' : host.unbroken.loadProperties config = .ok props := hload
    rw [storageFormat_run world hload hplan, hdirs] at hrun
    rw [storageFormat_run world hload' hplan, hdirs] at hunbroken
    have hformatted := isFormatted_of_forM_ok host args props plan.1 hrun
    have hstep : MetaStep host.unbroken args props plan.1 world.files world'.files :=
      (Moves.forM fun d hd => metaStep_formatDirectory host.unbroken args props plan.1 hd).of_ok
        hunbroken
    refine ⟨hformatted, ?_⟩
    rw [storageInfo_ok_iff host hload (hdirs ▸ hne) hformatted]
    have hagreed : Consistent host.unbroken world'.files none (logDirectories props) ↔ _ :=
      consistent_iff_agreed hnode (fun _ _ => rfl) hformatted hstep
    exact hagreed.trans (exists_congr fun ids => agreed_congr rfl)

/-! ## A directory of another cluster -/

/-- The run that skips `/b`, which is of another cluster. -/
def skipOther : EStateM.Result Error World PUnit :=
  (storageFormat twoDirectories "" { clusterId := "c", ignoreFormatted := true }).run
    (formattedBefore "b")

theorem error?_skipOther : error? skipOther = none := by decide +kernel

theorem info_accepts_iff_skipped :
    (∀ directory ∈ logDirectories brokerProps,
        IsFormatted twoDirectories (final skipOther).files directory) ∧
      ((∃ world'', (storageInfo twoDirectories "").run (final skipOther) = .ok ⟨⟩ world'') ↔
        ∃ ids, Agreed twoDirectories { clusterId := "c", ignoreFormatted := true } brokerProps
          (formattedBefore "b").files ids) :=
  info_accepts_iff rfl (eq_ok_of_error? error?_skipOther)

/-- What an inspection has nothing to report about is not all that a format returns from. -/
theorem skipped_not_accepted :
    ¬ ∀ (host : Host) (args : FormatArgs) (props : Properties) (config : String)
      (world world' : World), host.loadProperties config = .ok props →
      (storageFormat host config args).run world = .ok ⟨⟩ world' →
      (∀ directory ∈ logDirectories props, IsFormatted host world'.files directory) ∧
        ∃ world'', (storageInfo host config).run world' = .ok ⟨⟩ world'' := by
  intro hall
  have hinfo : error? ((storageInfo twoDirectories "").run (final skipOther)) =
      some (.config "1 problem(s) found in log directories") := by decide +kernel
  obtain ⟨-, world'', hrun⟩ :=
    hall twoDirectories _ brokerProps "" _ _ rfl (eq_ok_of_error? error?_skipOther)
  have hnone : error? ((storageInfo twoDirectories "").run (final skipOther)) = none := by
    unfold skipOther
    rw [hrun]
    rfl
  rw [hnone] at hinfo
  cases hinfo

end KafkaCli.Storage
