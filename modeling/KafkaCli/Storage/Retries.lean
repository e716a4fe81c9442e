import KafkaCli.Storage.Launches

/-!
# Formatting until it works

A format that fails halfway leaves some directories formatted, and a second one with
`--ignore-formatted` goes on from there. `retried_format` is about any number of such attempts,
with inspections in between, of which none breaks off within a `meta.properties`: when one returns,
the directories are what a single format of the first files would have made of them, but for the
random ids (`retries_one_format`). A `meta.properties` that broke off would be skipped as it is.
-/

namespace KafkaCli.Storage

open FileTree Tree Run Text

/-- If the launch is a format, it formats the directories of this configuration for this cluster,
and does not break off within a `meta.properties`. -/
def Launch.Attempts (launch : Launch) (resolve : String → Path) (props : Properties)
    (clusterId : String) : Prop :=
  ∀ config args, launch.action = .format config args → launch.host.resolve = resolve ∧
    launch.host.loadProperties config = .ok props ∧ args.clusterId = clusterId ∧
    ∀ directory ∈ logDirectories props, launch.host.breaksOff (metaPath (resolve directory)) = none

variable {host : Host} {args : FormatArgs} {props : Properties} {nodeId : Int}

/-- What an attempt writes is what a format for the cluster writes, at a host that draws some
id. -/
theorem Launch.MayWrite.attempt {launch : Launch} {path : Path} {node : Node}
    (h : launch.MayWrite path node) (hattempts : launch.Attempts host.resolve props args.clusterId)
    (hnode : configuredNodeId props = .ok nodeId) :
    (node = .directory ∧ AboveDirectory host props (metaPath path)) ∨
      ((∃ directory ∈ logDirectories props, path = host.resolve directory) ∧
        ∃ id, node = .file (encodeUtf8 (metaText (formattedMeta args.clusterId nodeId id)))) := by
  obtain ⟨args', props', nodeId', hformats, hkind⟩ := h
  obtain ⟨config, haction, hload⟩ := hformats.action
  obtain ⟨hresolve, hload', hcluster, hwhole⟩ := hattempts config args' haction
  obtain rfl : props = props' := Except.ok.inj (hload'.symm.trans hload)
  obtain rfl : nodeId = nodeId' :=
    Except.ok.inj (hnode.symm.trans (formatPlan_ok hformats.plan).1)
  rcases hkind with ⟨hdir, habove⟩ | ⟨hpath, directory, bytes, hfile, -, hbytes⟩
  · refine .inl ⟨hdir, ?_⟩
    rwa [AboveDirectory, hresolve] at habove
  · rw [hresolve] at hpath
    obtain ⟨configured, hmem, rfl⟩ := hpath
    obtain rfl := hbytes (hwhole configured hmem)
    rw [newMetaText, hcluster] at hfile
    exact .inr ⟨⟨configured, hmem, rfl⟩, _, hfile⟩

/-- All the attempts together write what one format would at which nothing breaks off, with the
ids that they drew. -/
theorem retries_one_format {launches : List Launch}
    (hattempts : ∀ launch ∈ launches, launch.Attempts host.resolve props args.clusterId)
    (hnode : configuredNodeId props = .ok nodeId) (world : World) :
    ∃ newV4, MetaStep { host.unbroken with newV4 } args props nodeId world.files
      (afterLaunches launches world).files := by
  -- what is new in a directory
  have hwrites : ∀ path, (afterLaunches launches world).files.node (metaPath path) =
        world.files.node (metaPath path) ∨
      (world.files.node (metaPath path) = none ∧ ∃ node,
        (afterLaunches launches world).files.node (metaPath path) = some node ∧
        ((node = .directory ∧ AboveDirectory host props (metaPath path)) ∨
          ((∃ directory ∈ logDirectories props, path = host.resolve directory) ∧ ∃ id,
            node = .file (encodeUtf8 (metaText (formattedMeta args.clusterId nodeId id)))))) := by
    intro path
    have horigin := origin_afterLaunches launches world path
    refine horigin.imp_right fun ⟨hnone, found, hnew, hwrote⟩ => ?_
    obtain ⟨before, launch, after, rfl, -, -, hmay⟩ := hwrote
    exact ⟨hnone, found, hnew, hmay.attempt (hattempts launch (by simp)) hnode⟩
  -- the id that was drawn for a directory
  have hdrawn : ∀ directory, ∃ id : Uuid, ∀ id',
      (afterLaunches launches world).files.node (metaPath (host.resolve directory)) =
        some (.file (encodeUtf8 (metaText (formattedMeta args.clusterId nodeId id')))) →
      (afterLaunches launches world).files.node (metaPath (host.resolve directory)) =
        some (.file (encodeUtf8 (metaText (formattedMeta args.clusterId nodeId id)))) := by
    intro directory
    by_cases h : ∃ id, (afterLaunches launches world).files.node
        (metaPath (host.resolve directory)) =
      some (.file (encodeUtf8 (metaText (formattedMeta args.clusterId nodeId id))))
    · obtain ⟨id, hid⟩ := h
      exact ⟨id, fun _ _ => hid⟩
    · exact ⟨.nil, fun id' hid' => absurd ⟨id', hid'⟩ h⟩
  choose newV4 hnewV4 using hdrawn
  refine ⟨newV4, fun path => ?_⟩
  rcases hwrites path with hsame | ⟨hnone, node, hnew, habove | ⟨⟨directory, hmem, rfl⟩, id, rfl⟩⟩
  · exact .inl hsame
  · exact .inr ⟨hnone, node, hnew, .inl habove⟩
  · have hwhole := hnewV4 directory id hnew
    exact .inr ⟨hnone, _, hwhole, .inr ⟨directory, _, rfl, List.prefix_rfl, fun _ => rfl⟩⟩

/-! ## The errors of an attempt -/

/-- The error does not say that a directory is formatted. -/
def NotFormattedBefore (error : Error) : Prop := ∀ directory, error ≠ alreadyFormatted directory

theorem notFormattedBefore_of_isIo {error : Error} (h : IsIo error) : NotFormattedBefore error := by
  intro directory heq
  exact CheckError.not_io ⟨directory, .inl heq⟩ h

theorem notFormattedBefore_textReserved (directory : String) :
    NotFormattedBefore (textReserved directory) := by
  intro other heq
  have hl : (s!"log directory {other} is already formatted. Use --ignore-formatted to skip."
      : String).toList.head? = some 'l' := head?_append (head?_append (by decide) _) _
  have hr : ∃ text, textReserved directory = .config text ∧ text.toList.head? = some 'r' :=
    ⟨_, rfl, head?_append (head?_append (head?_append (head?_append (by decide) _) _) _) _⟩
  obtain ⟨text, htext, hhead⟩ := hr
  rw [heq, alreadyFormatted, Error.config.injEq] at htext
  rw [← htext, hl] at hhead
  cases hhead

theorem notFormattedBefore_of_checkDirectory {files : Tree} {directory : String} {path : Path}
    {error : Error} (h : checkDirectory props files directory path = .error error) :
    NotFormattedBefore error := by
  rw [checkDirectory, ensureNoTextReservedBootstrap] at h
  split_ifs at h
  swap
  · cases h
  rcases Checked.bind_eq_error.1 h with hread | ⟨bytes, -, htext⟩
  · cases hbytes : files.read (reservedPath path) with
    | ok bytes =>
      rw [hbytes] at hread
      cases hread
    | error ioError =>
      rw [hbytes] at hread
      cases hread
      exact notFormattedBefore_of_isIo ⟨_, .inl rfl⟩
  · rw [Checked.failIf_eq_error] at htext
    rw [← htext.2]
    exact notFormattedBefore_textReserved directory

/-- With `--ignore-formatted` no directory is in the way. -/
theorem throws_formatDirectory (hignore : args.ignoreFormatted = true) (directory : String) :
    Throws NotFormattedBefore (formatDirectory host args props nodeId directory) := by
  intro world error world' hrun
  have hstep := formatDirectory_step host args props nodeId directory world
  generalize (formatDirectory host args props nodeId directory).run world = result at hstep hrun
  cases hstep with
  | failed _ _ hio hcreating =>
    cases hrun
    exact notFormattedBefore_of_isIo hio
  | brokenOff files _ _ first hio hcreate hnew hbreaks hfirst hwrite =>
    cases hrun
    exact notFormattedBefore_of_isIo hio
  | skipped files _ hcreate hexists _ hfiles => cases hrun
  | refused files _ _ hcreate hrefused hfiles =>
    cases hrun
    rcases hrefused with ⟨-, hnot, -⟩ | ⟨-, hcheck⟩
    · rw [hignore] at hnot
      cases hnot
    · exact notFormattedBefore_of_checkDirectory hcheck
  | written files files' hcreate hnew hcheck hwrite =>
    exact notFormattedBefore_of_isIo (throws_finishDirectory host args props nodeId _ _ _ _ _ hrun)

/-! ## The attempt that returns -/

/-- An attempt that finds `/b` formatted once it has formatted `/a`. -/
def firstAttempt : Launch := ⟨twoDirectories, .nil, .format "" { clusterId := "other" }⟩

/-- The attempt after it. -/
def secondAttempt : EStateM.Result Error World PUnit :=
  (storageFormat twoDirectories "" { clusterId := "other", ignoreFormatted := true }).run
    (afterLaunches [firstAttempt] (formattedBefore "b"))

end KafkaCli.Storage
