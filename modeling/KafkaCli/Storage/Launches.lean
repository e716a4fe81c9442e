import KafkaCli.Storage.Accepted

/-!
# One launch after another

The storage tool is started again and again, at hosts and with arguments that may differ each
time, and a launch may fail halfway. `launches_sound` follows the files through any list of
launches. Nothing disappears, and only residual markers change their contents. A
`meta.properties` that is there at the end was there at the start, or one launch wrote it: a
format with this directory in its configuration, and the file has the ids of that format, or holds
a first part of its text where the writing broke off. What was written stays as it is, whatever
follows.
-/

namespace KafkaCli.Storage

open FileTree Tree Run Text

/-! ## The tool -/

inductive StorageAction
  | randomUuid
  | info (config : String)
  | format (config : String) (args : FormatArgs)
  | versionMapping (releaseVersion : Option String)
  | featureDependencies (feature : List String)

/-- A start of the tool: where it runs, the id that it would print, and what it is to do. -/
structure Launch where
  host : Host
  drawn : Uuid
  action : StorageAction

def versionMapping (releaseVersion : Option String) : Tool PUnit := do
  let version := releaseVersion.getD "latest production"
  say (s!"version-mapping for {version}: use `kafka features version-mapping` for the offline " ++
    "feature table; storage version-mapping is an alias of that offline map.")
  forM (releaseVersion.map fun release => s!"requested release-version: {release}").toList say

def featureDependencies (feature : List String) : Tool PUnit :=
  if feature = [] then throw (.usage "--feature is required for feature-dependencies")
  else do
    let requested := ", ".intercalate feature
    say ("feature-dependencies: use `kafka features feature-dependencies` for the offline " ++
      s!"dependency table; requested features: {requested}")

def storage (launch : Launch) : Tool PUnit :=
  match launch.action with
  | .randomUuid => say launch.drawn.hyphenated
  | .info config => storageInfo launch.host config
  | .format config args => storageFormat launch.host config args
  | .versionMapping releaseVersion => versionMapping releaseVersion
  | .featureDependencies feature => featureDependencies feature

/-- The world after some launches. A launch that fails leaves what it has done so far. -/
def afterLaunches (launches : List Launch) (world : World) : World :=
  launches.foldl (fun world launch => final ((storage launch).run world)) world

@[simp] theorem afterLaunches_nil (world : World) : afterLaunches [] world = world := rfl

@[simp] theorem afterLaunches_cons (launch : Launch) (launches : List Launch) (world : World) :
    afterLaunches (launch :: launches) world =
      afterLaunches launches (final ((storage launch).run world)) := rfl

/-! ## Launches that write nothing -/

section Quiet

variable {R : Tree → Tree → Prop} [IsPreorder Tree R]

theorem moves_complain (line : String) : Moves (OnFiles R) (complain line) :=
  .modify fun world => refl_of R world.files

theorem moves_inspectDirectory (host : Host) (seen : Inspection) (directory : String) :
    Moves (OnFiles R) (inspectDirectory host seen directory) := by
  refine .bind (.bind .get fun _ => .pure _) fun files => ?_
  refine .ite (.pure _) (.ite (.pure _) ?_)
  refine .bind (.ofExcept _) fun properties => ?_
  exact .bind (moves_say _) fun _ => .bind (moves_printMeta _) fun _ => .pure _

theorem moves_report (kraft : Bool) (seen : Inspection) :
    Moves (OnFiles R) (report kraft seen) := by
  refine .bind (moves_say _) fun _ => .ite (moves_say _) ?_
  exact .bind (.forM fun line _ => moves_complain line) fun _ => .throw _

/-- An inspection leaves the files alone. -/
theorem moves_storageInfo (host : Host) (config : String) :
    Moves (OnFiles R) (storageInfo host config) := by
  refine .bind (.ofExcept _) fun props => ?_
  refine .bind (.foldlM _ fun seen directory _ => moves_inspectDirectory host seen directory) ?_
  exact fun seen => moves_report _ seen

theorem moves_versionMapping (releaseVersion : Option String) :
    Moves (OnFiles R) (versionMapping releaseVersion) :=
  .bind (moves_say _) fun _ => .forM fun line _ => moves_say line

theorem moves_featureDependencies (feature : List String) :
    Moves (OnFiles R) (featureDependencies feature) := .ite (.throw _) (moves_say _)

/-- Only a format can change the files. -/
theorem moves_storage (launch : Launch)
    (hformat : ∀ config args, launch.action = .format config args →
      Moves (OnFiles R) (storageFormat launch.host config args)) :
    Moves (OnFiles R) (storage launch) := by
  unfold storage
  cases haction : launch.action with
  | randomUuid => exact moves_say _
  | info config => exact moves_storageInfo launch.host config
  | format config args => exact hformat config args haction
  | versionMapping releaseVersion => exact moves_versionMapping releaseVersion
  | featureDependencies feature => exact moves_featureDependencies feature

/-- A format moves the files as the loop over the planned directories does. -/
theorem moves_storageFormat (host : Host) (config : String) (args : FormatArgs)
    (h : ∀ props nodeId, host.loadProperties config = .ok props →
      formatPlan args props = .ok (nodeId, logDirectories props) →
      ∀ directory ∈ logDirectories props,
        Moves (OnFiles R) (formatDirectory host args props nodeId directory)) :
    Moves (OnFiles R) (storageFormat host config args) := by
  intro world
  cases hload : host.loadProperties config with
  | error error =>
    have hrun : (storageFormat host config args).run world = .error error world := by
      simp [storageFormat, hload]
    rw [hrun]
    exact refl_of R world.files
  | ok props =>
    cases hplan : formatPlan args props with
    | error error =>
      have hrun : (storageFormat host config args).run world = .error error world := by
        simp [storageFormat, hload, hplan]
      rw [hrun]
      exact refl_of R world.files
    | ok plan =>
      obtain ⟨nodeId, directories⟩ := plan
      obtain rfl : directories = logDirectories props := (formatPlan_ok hplan).2.1
      rw [storageFormat_run world hload hplan]
      exact Moves.forM (h props nodeId hload hplan) world

end Quiet

/-! ## Where a format writes -/

section Format

variable (host : Host) (args : FormatArgs) (props : Properties) (nodeId : Int)

/-- The path of a file that a format writes. -/
def FormatPath (path : Path) : Prop :=
  Residual path ∨ ∃ directory ∈ logDirectories props, path = metaPath (host.resolve directory)

theorem newFiles_artifacts (directory : String) :
    Moves (OnFiles (NewFiles (FormatPath host props)))
      (writeControllerBootstrapArtifacts host args nodeId (host.resolve directory)) := by
  refine .bind ((moves_createDirAll host _).mono fun _ _ h => h.newFiles) fun _ => ?_
  refine .bind (moves_createFile fun first files files' h => ?_) fun _ => ?_
  · exact newFiles_of_writeFile h (.inl ⟨_, rfl⟩)
  · exact .bind (moves_say _) fun _ => moves_say _

theorem newFiles_formatDirectory {directory : String} (hmem : directory ∈ logDirectories props) :
    Moves (OnFiles (NewFiles (FormatPath host props)))
      (formatDirectory host args props nodeId directory) := by
  intro world
  have hstep := formatDirectory_step host args props nodeId directory world
  unfold OnFiles
  generalize (formatDirectory host args props nodeId directory).run world = result at hstep ⊢
  cases hstep with
  | failed world' error hio hcreating => exact hcreating.newFiles
  | skipped files world' hcreate hexists hignore hfiles =>
    rw [final_ok, hfiles]
    exact (onlyDirectories_of_createDirAll hcreate).newFiles
  | refused files world' error hcreate hrefused hfiles =>
    rw [final_error, hfiles]
    exact (onlyDirectories_of_createDirAll hcreate).newFiles
  | brokenOff files world' error first hio hcreate hnew hbreaks hfirst hwrite =>
    have hcreated : NewFiles (FormatPath host props) world.files files :=
      (onlyDirectories_of_createDirAll hcreate).newFiles
    exact trans_of _ hcreated (newFiles_of_writeFile hwrite (.inr ⟨directory, hmem, rfl⟩))
  | written files files' hcreate hnew hcheck hwrite =>
    have hcreated : NewFiles (FormatPath host props) world.files files :=
      (onlyDirectories_of_createDirAll hcreate).newFiles
    have hfile : NewFiles (FormatPath host props) files files' :=
      newFiles_of_writeFile hwrite (.inr ⟨directory, hmem, rfl⟩)
    have hfinish := moves_finishDirectory host args props nodeId
      (newFiles_artifacts host args props nodeId directory)
      (formattedMeta args.clusterId nodeId (host.newV4 directory)) { world with files := files' }
    exact trans_of _ hcreated (trans_of _ hfile hfinish)

end Format

/-! ## What a launch writes -/

/-- The launch is a format that has a plan. -/
structure Launch.Formats (launch : Launch) (args : FormatArgs) (props : Properties)
    (nodeId : Int) : Prop where
  action : ∃ config, launch.action = .format config args ∧
    launch.host.loadProperties config = .ok props
  plan : formatPlan args props = .ok (nodeId, logDirectories props)

/-- What a format with a plan puts at the `meta.properties` of a directory: a file with its ids,
or a first part of it, if the directory is configured, or a directory if a configured one is there
or below. -/
def Launch.MayWrite (launch : Launch) (path : Path) (node : Node) : Prop :=
  ∃ args props nodeId, launch.Formats args props nodeId ∧
    ((node = .directory ∧ AboveDirectory launch.host props (metaPath path)) ∨
      ((∃ directory ∈ logDirectories props, path = launch.host.resolve directory) ∧
        NewMeta launch.host args nodeId (metaPath path) node))

theorem metaPath_injective {path path' : Path} (h : metaPath path = metaPath path') :
    path = path' := (List.append_left_inj _).1 h

/-- What a launch does to the files. -/
structure LaunchStep (launch : Launch) (files files' : Tree) : Prop where
  keeps : Keeps Residual files files'
  writes : ∀ path, files'.node (metaPath path) = files.node (metaPath path) ∨
    (files.node (metaPath path) = none ∧ ∃ node, files'.node (metaPath path) = some node ∧
      launch.MayWrite path node)

theorem keeps_storage (launch : Launch) : Moves (OnFiles (Keeps Residual)) (storage launch) :=
  moves_storage launch fun config args _ => moves_storageFormat launch.host config args
    fun props nodeId _ _ directory _ =>
      keeps_formatDirectory launch.host args props nodeId directory

/-- The `meta.properties` that a format with a plan writes. -/
theorem launchStep_format {launch : Launch} {args : FormatArgs} {props : Properties} {nodeId : Int}
    {files files' : Tree} (hformats : launch.Formats args props nodeId)
    (hkeeps : Keeps Residual files files')
    (hmeta : MetaStep launch.host args props nodeId files files')
    (hnew : NewFiles (FormatPath launch.host props) files files') :
    LaunchStep launch files files' := by
  refine ⟨hkeeps, fun path => ?_⟩
  rcases hmeta path with hsame | ⟨hnone, node, hnode, habove | hfile⟩
  · exact .inl hsame
  · exact .inr ⟨hnone, node, hnode, args, props, nodeId, hformats, .inl habove⟩
  · have hisFile : files'.isFile (metaPath path) = true := by
      obtain ⟨directory, bytes, rfl, -, -⟩ := hfile
      simp [isFile, hnode]
    refine .inr ⟨hnone, node, hnode, args, props, nodeId, hformats, .inr ⟨?_, hfile⟩⟩
    rcases hnew _ hisFile with hbefore | hresidual | ⟨directory, hmem, hpath⟩
    · simp [isFile, hnone] at hbefore
    · exact absurd hresidual (not_residual_metaPath path)
    · exact ⟨directory, hmem, metaPath_injective hpath⟩

/-- **One launch.** -/
theorem storage_step (launch : Launch) (world : World) :
    LaunchStep launch world.files (final ((storage launch).run world)).files := by
  have hkeeps := keeps_storage launch world
  by_cases hformats : ∃ args props nodeId, launch.Formats args props nodeId
  · obtain ⟨args, props, nodeId, hformats⟩ := hformats
    obtain ⟨config, haction, hload⟩ := hformats.action
    have hmoves : ∀ {R : Tree → Tree → Prop} [IsPreorder Tree R],
        (∀ directory ∈ logDirectories props,
          Moves (OnFiles R) (formatDirectory launch.host args props nodeId directory)) →
        Moves (OnFiles R) (storage launch) := by
      intro R _ h
      refine moves_storage launch fun config' args' haction' => ?_
      rw [haction, StorageAction.format.injEq] at haction'
      obtain ⟨rfl, rfl⟩ := haction'
      refine moves_storageFormat launch.host config args fun props' nodeId' hload' hplan' => ?_
      obtain rfl : props = props' := Except.ok.inj (hload.symm.trans hload')
      obtain rfl : nodeId = nodeId' :=
        (Prod.mk.inj (Except.ok.inj (hformats.plan.symm.trans hplan'))).1
      exact h
    exact launchStep_format hformats hkeeps
      (hmoves (fun directory hmem => metaStep_formatDirectory launch.host args props nodeId hmem)
        world)
      (hmoves (fun directory hmem => newFiles_formatDirectory launch.host args props nodeId hmem)
        world)
  · -- without a plan there is no loop over directories
    have hsame : Moves (OnFiles Eq) (storage launch) := by
      refine moves_storage launch fun config args haction => ?_
      refine moves_storageFormat launch.host config args fun props nodeId hload hplan => ?_
      exact absurd ⟨args, props, nodeId, ⟨config, haction, hload⟩, hplan⟩ hformats
    have hfiles : world.files = (final ((storage launch).run world)).files := hsame world
    exact ⟨hkeeps, fun path => .inl (by rw [← hfiles])⟩

/-! ## What launches write -/

/-- One of the launches found no `meta.properties` in the directory, and left this one. -/
def Wrote (launches : List Launch) (world : World) (path : Path) (node : Node) : Prop :=
  ∃ before launch after, launches = before ++ launch :: after ∧
    (afterLaunches before world).files.node (metaPath path) = none ∧
    (afterLaunches (before ++ [launch]) world).files.node (metaPath path) = some node ∧
    launch.MayWrite path node

theorem Wrote.cons {launches : List Launch} {launch : Launch} {world : World} {path : Path}
    {node : Node} (h : Wrote launches (final ((storage launch).run world)) path node) :
    Wrote (launch :: launches) world path node := by
  obtain ⟨before, writer, after, rfl, hnone, hnode, hmay⟩ := h
  exact ⟨launch :: before, writer, after, rfl, hnone, hnode, hmay⟩

theorem keeps_afterLaunches (launches : List Launch) (world : World) :
    Keeps Residual world.files (afterLaunches launches world).files := by
  induction launches generalizing world with
  | nil => exact refl_of _ world.files
  | cons launch launches ih => exact trans_of _ (keeps_storage launch world) (ih _)

theorem origin_afterLaunches (launches : List Launch) (world : World) (path : Path) :
    (afterLaunches launches world).files.node (metaPath path) =
        world.files.node (metaPath path) ∨
      (world.files.node (metaPath path) = none ∧ ∃ node,
        (afterLaunches launches world).files.node (metaPath path) = some node ∧
          Wrote launches world path node) := by
  induction launches generalizing world with
  | nil => exact .inl rfl
  | cons launch launches ih =>
    rw [afterLaunches_cons]
    have hrest := ih (final ((storage launch).run world))
    rcases (storage_step launch world).writes path with hsame | ⟨hnone, node, hnode, hmay⟩
    · rw [hsame] at hrest
      exact hrest.imp_right fun ⟨hnone, found, hnode, hwrote⟩ => ⟨hnone, found, hnode, hwrote.cons⟩
    · -- what this launch wrote stays
      have hstays := (keeps_afterLaunches launches _).node_eq hnode (not_residual_metaPath path)
      exact .inr ⟨hnone, node, hstays, [], launch, launches, rfl, hnone, hnode, hmay⟩

/-- **Any list of launches.** Nothing disappears, and only residual markers change. A
`meta.properties` that is there once stays as it is. One that is there at the end was there at
the start, or it is new and one of the launches wrote it. -/
theorem launches_sound (launches : List Launch) (world : World) :
    Keeps Residual world.files (afterLaunches launches world).files ∧
      ∀ path node, (afterLaunches launches world).files.node (metaPath path) = some node ↔
        world.files.node (metaPath path) = some node ∨ Wrote launches world path node := by
  refine ⟨keeps_afterLaunches launches world, fun path node => ⟨fun hnode => ?_, fun h => ?_⟩⟩
  · rcases origin_afterLaunches launches world path with hsame | ⟨-, node', hnode', hwrote⟩
    · exact .inl (hsame.symm.trans hnode)
    · rw [hnode', Option.some.injEq] at hnode
      exact .inr (hnode ▸ hwrote)
  · rcases h with hbefore | ⟨before, launch, after, rfl, -, hnode, -⟩
    · exact (keeps_afterLaunches launches world).node_eq hbefore (not_residual_metaPath path)
    · have hkeeps := keeps_afterLaunches after (afterLaunches (before ++ [launch]) world)
      have hsplit : afterLaunches (before ++ launch :: after) world =
          afterLaunches after (afterLaunches (before ++ [launch]) world) := by
        simp [afterLaunches]
      rw [hsplit]
      exact hkeeps.node_eq hnode (not_residual_metaPath path)

end KafkaCli.Storage
