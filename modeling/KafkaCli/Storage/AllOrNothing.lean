import KafkaCli.Storage.Step

/-!
# A format that fails its checks

`storage_format` checks a directory when its turn comes, after it has written the directories
before it. A run that ends with a failed check leaves the files as they were, but for empty
directories, exactly when the check that failed is the first one that mattered: every directory
before it was skipped (`format_checks_iff`).
-/

namespace KafkaCli.Storage

open FileTree Tree Run Text

/-- The errors of the checks of a directory. -/
def CheckError (error : Error) : Prop :=
  ∃ directory, error = alreadyFormatted directory ∨ error = textReserved directory

theorem CheckError.not_io {error : Error} (h : CheckError error) : ¬ IsIo error := by
  intro ⟨message, hio⟩
  obtain ⟨directory, rfl | rfl⟩ := h <;> rcases hio with hio | hio <;> cases hio

variable (host : Host) (args : FormatArgs) (props : Properties) (nodeId : Int)

/-- The first directory that is not skipped fails its check. -/
def FirstRefused : List String → Tree → Prop
  | [], _ => False
  | directory :: rest, files => ∃ created,
      files.createDirAll (host.resolve directory) = .ok created ∧
      ((created.exists? (metaPath (host.resolve directory)) = true ∧
          args.ignoreFormatted = true ∧ FirstRefused rest created) ∨
        ∃ error, CheckError error ∧ Refused host args props created directory error)

theorem firstRefused_cons {directory : String} {rest : List String} {files created : Tree}
    (hcreate : files.createDirAll (host.resolve directory) = .ok created) :
    FirstRefused host args props (directory :: rest) files ↔
      (created.exists? (metaPath (host.resolve directory)) = true ∧ args.ignoreFormatted = true ∧
          FirstRefused host args props rest created) ∨
        ∃ error, CheckError error ∧ Refused host args props created directory error := by
  rw [FirstRefused, hcreate]
  simp

/-- Nothing is there that was not before, but directories on the way to the configured ones. -/
def Untouched (files files' : Tree) : Prop :=
  OnlyDirectories (fun path => ∃ directory ∈ logDirectories props,
    path <+: host.resolve directory) files files'

theorem Untouched.trans {host : Host} {props : Properties} {files₁ files₂ files₃ : Tree}
    (h : Untouched host props files₁ files₂) (h' : Untouched host props files₂ files₃) :
    Untouched host props files₁ files₃ := trans_of (OnlyDirectories _) h h'

theorem untouched_of_createDirAll {files files' : Tree} {directory : String}
    (hmem : directory ∈ logDirectories props)
    (h : files.createDirAll (host.resolve directory) = .ok files') :
    Untouched host props files files' :=
  (onlyDirectories_of_createDirAll h).mono fun _ hpath => ⟨directory, hmem, hpath⟩

/-- A `meta.properties` that was written is new, and stays. -/
theorem not_untouched_of_written {files created written files' : Tree} {path : Path}
    {bytes : List UInt8} (hcreated : Keeps Residual files created)
    (hnew : created.exists? (metaPath path) = false)
    (hmeta : written.node (metaPath path) = some (.file bytes))
    (hrest : Keeps Residual written files') : ¬ Untouched host props files files' := by
  intro huntouched
  have hcreatedNone : created.node (metaPath path) = none := by
    simpa [Tree.exists?] using hnew
  have hnone : files.node (metaPath path) = none := by
    cases hnode : files.node (metaPath path) with
    | none => rfl
    | some node =>
      rw [hcreated.node_eq hnode (not_residual_metaPath path)] at hcreatedNone
      cases hcreatedNone
  have hfile := hrest.node_eq hmeta (not_residual_metaPath path)
  rcases huntouched (metaPath path) with hsame | ⟨-, hdir, -⟩
  · rw [hfile, hnone] at hsame
    cases hsame
  · rw [hfile] at hdir
    cases hdir

theorem firstRefused_of_refused {directory : String} {rest : List String} {files created : Tree}
    {error : Error} (hcreate : files.createDirAll (host.resolve directory) = .ok created)
    (hcheck : CheckError error) (hrefused : Refused host args props created directory error) :
    FirstRefused host args props (directory :: rest) files := by
  rw [firstRefused_cons host args props hcreate]
  exact .inr ⟨error, hcheck, hrefused⟩

/-- Behind a directory that is skipped, the rest decides. -/
theorem firstRefused_of_skipped {directory : String} {rest : List String} {files created : Tree}
    (hcreate : files.createDirAll (host.resolve directory) = .ok created)
    (hexists : created.exists? (metaPath (host.resolve directory)) = true)
    (hignore : args.ignoreFormatted = true) :
    FirstRefused host args props (directory :: rest) files ↔
      FirstRefused host args props rest created := by
  rw [firstRefused_cons host args props hcreate]
  simp [Refused, hexists, hignore]

/-- Behind a directory that passes, no check is the first one. -/
theorem not_firstRefused_of_passed {directory : String} {rest : List String}
    {files created : Tree}
    (hcreate : files.createDirAll (host.resolve directory) = .ok created)
    (hnew : created.exists? (metaPath (host.resolve directory)) = false)
    (hok : checkDirectory props created directory (host.resolve directory) = .ok ()) :
    ¬ FirstRefused host args props (directory :: rest) files := by
  rw [firstRefused_cons host args props hcreate]
  simp [Refused, hnew, hok]

/-- The loop over directories: a failed check leaves no trace exactly when it is the first that
was not skipped. -/
theorem forM_formatDirectory_checks {directories : List String}
    (hsub : directories ⊆ logDirectories props) {world world' : World} {error : Error}
    (hrun : (forM directories (formatDirectory host args props nodeId)).run world =
      .error error world') (hcheck : CheckError error) :
    Untouched host props world.files world'.files ↔
      FirstRefused host args props directories world.files := by
  induction directories generalizing world with
  | nil => cases hrun
  | cons directory rest ih =>
    have hmem := hsub List.mem_cons_self
    have hstep := formatDirectory_step host args props nodeId directory world
    rw [List.forM_cons, bind_eq_error] at hrun
    generalize (formatDirectory host args props nodeId directory).run world = result at hstep hrun
    rcases hrun with hfails | ⟨_, middle, hpasses, hrest⟩
    · -- the check of this directory fails
      cases hstep with
      | failed _ _ hio hcreating =>
        cases hfails
        exact absurd hio hcheck.not_io
      | skipped files _ hcreate hexists hignore hfiles => cases hfails
      | refused files _ _ hcreate hrefused hfiles =>
        cases hfails
        rw [hfiles]
        exact iff_of_true (untouched_of_createDirAll host props hmem hcreate)
          (firstRefused_of_refused host args props hcreate hcheck hrefused)
      | brokenOff files _ _ first hio hcreate hnew hbreaks hfirst hwrite =>
        cases hfails
        exact absurd hio hcheck.not_io
      | written files files' hcreate hnew hok hwrite =>
        exact absurd (throws_finishDirectory host args props nodeId _ _ _ _ _ hfails) hcheck.not_io
    · -- this directory passes
      have hafter : Keeps Residual middle.files world'.files :=
        (Moves.forM fun d _ => keeps_formatDirectory host args props nodeId d).of_error hrest
      cases hstep with
      | failed _ _ hio hcreating => cases hpasses
      | brokenOff files _ _ first hio hcreate hnew hbreaks hfirst hwrite => cases hpasses
      | refused files _ _ hcreate hrefused hfiles => cases hpasses
      | skipped files _ hcreate hexists hignore hfiles =>
        cases hpasses
        have hih := ih (fun d hd => hsub (List.mem_cons_of_mem directory hd)) hrest
        rw [hfiles] at hih hafter
        have hcreated := untouched_of_createDirAll host props hmem hcreate
        rw [firstRefused_of_skipped host args props hcreate hexists hignore, ← hih]
        refine ⟨?_, ?_⟩
        · intro h
          exact h.of_keeps hcreated hafter
        · intro h
          exact hcreated.trans h
      | written files files' hcreate hnew hok hwrite =>
        have hcreated : Keeps Residual world.files files :=
          (onlyDirectories_of_createDirAll hcreate).keeps
        have hfinish : Keeps Residual files' middle.files :=
          (keeps_finishDirectory host args props nodeId directory _).of_ok hpasses
        have hmeta : files'.node (metaPath (host.resolve directory)) =
            some (.file (encodeUtf8 (newMetaText host args nodeId directory))) := by
          rw [(writeFile_ok hwrite).2, Function.update_self]
        have htouched := not_untouched_of_written host props hcreated hnew hmeta
          (trans_of _ hfinish hafter)
        exact iff_of_false htouched (not_firstRefused_of_passed host args props hcreate hnew hok)

theorem CheckError.head {error : Error} (h : CheckError error) :
    ∃ text, error = .config text ∧
      (text.toList.head? = some 'l' ∨ text.toList.head? = some 'r') := by
  obtain ⟨directory, rfl | rfl⟩ := h
  · exact ⟨_, rfl, .inl (head?_append (head?_append (by decide) _) _)⟩
  · refine ⟨_, rfl, .inr ?_⟩
    exact head?_append (head?_append (head?_append (head?_append (by decide) _) _) _) _

theorem configuredNodeId_error {props : Properties} {error : Error}
    (h : configuredNodeId props = .error error) :
    ∃ text, error = .config text ∧
      (text.toList.head? = some 'n' ∨ text.toList.head? = some 'i') := by
  unfold configuredNodeId at h
  cases hid : (props "node.id").or (props "broker.id") with
  | none =>
    rw [hid] at h
    cases h
    exact ⟨_, rfl, .inl (by decide)⟩
  | some id =>
    simp only [hid, Option.elim_some, Checked.ok_bind] at h
    cases hparse : Decimal.parseI32 id with
    | ok n =>
      rw [hparse] at h
      cases h
    | error parseError =>
      rw [hparse] at h
      cases h
      exact ⟨_, rfl, .inr (head?_append (by decide) _)⟩

/-- What fails before the loop is not a check of a directory. -/
theorem not_checkError_of_formatPlan {args : FormatArgs} {props : Properties} {error : Error}
    (h : formatPlan args props = .error error) : ¬ CheckError error := by
  intro hcheck
  obtain ⟨text, rfl, hhead⟩ := hcheck.head
  have hconfig : ∀ {s : String} {c : Char}, s.toList.head? = some c → c ≠ 'l' → c ≠ 'r' →
      Error.config s ≠ Error.config text := by
    intro s c hs hl hr heq
    cases heq
    rw [hs] at hhead
    rcases hhead with h | h <;> cases h
    · exact hl rfl
    · exact hr rfl
  simp only [formatPlan, Checked.bind_eq_error, Checked.failIf_eq_error] at h
  rcases h with ⟨-, h⟩ | ⟨_, -, h | ⟨nodeId, -, ⟨-, h⟩ | ⟨_, -, ⟨-, h⟩ | ⟨_, -, h⟩⟩⟩⟩
  · cases h
  · obtain ⟨s, hs, hhead'⟩ := configuredNodeId_error h
    rw [Error.config.injEq] at hs
    subst hs
    rcases hhead' with hn | hi
    · exact hconfig hn (by decide) (by decide) rfl
    · exact hconfig hi (by decide) (by decide) rfl
  · cases h
  · cases h
  · rcases h with ⟨-, h⟩ | ⟨_, -, h⟩
    · exact hconfig (c := 'n') (by decide) (by decide) (by decide) h
    · cases h

variable {host args props}

/-- **A format that fails its checks.** A run that ends with a failed check leaves the files
untouched exactly when the first directory that was not skipped is the one that fails. -/
theorem format_checks_iff {config : String} {world world' : World} {error : Error}
    (hload : host.loadProperties config = .ok props)
    (hrun : (storageFormat host config args).run world = .error error world')
    (hcheck : CheckError error) :
    Untouched host props world.files world'.files ↔
      FirstRefused host args props (logDirectories props) world.files := by
  cases hplan : formatPlan args props with
  | error planError =>
    have hfail : (storageFormat host config args).run world = .error planError world := by
      simp [storageFormat, hload, hplan]
    rw [hfail] at hrun
    cases hrun
    exact absurd hcheck (not_checkError_of_formatPlan hplan)
  | ok plan =>
    rw [storageFormat_run world hload hplan, (formatPlan_ok hplan).2.1] at hrun
    exact forM_formatDirectory_checks host args props plan.1 (List.Subset.refl _) hrun hcheck

/-! ## Two directories -/

/-- A broker with log directories `/a` and `/b`. -/
def brokerProps : Properties := fun key =>
  if key = "process.roles" then some "broker"
  else if key = "node.id" then some "1"
  else if key = "log.dirs" then some "/a,/b"
  else none

/-- A host without links. -/
def twoDirectories : Host where
  resolve path := (split path '/').filter (· ≠ "")
  loadProperties _ := .ok brokerProps
  newV4 _ := .nil
  renderJson _ := ""

/-- One directory has been formatted. -/
def formattedBefore (directory : String) : World where
  files := (((Tree.empty.createDirAll [directory]).bind fun files =>
    files.writeFile [directory, "meta.properties"]
      (encodeUtf8 (metaText (formattedMeta "other" 1 .nil)))).toOption).getD .empty
  stdout := []
  stderr := []

theorem untouched_of_first_formatted :
    Untouched twoDirectories brokerProps (formattedBefore "a").files
      (final ((storageFormat twoDirectories "" { clusterId := "c" }).run
        (formattedBefore "a"))).files ↔
      FirstRefused twoDirectories { clusterId := "c" } brokerProps (logDirectories brokerProps)
        (formattedBefore "a").files :=
  format_checks_iff rfl
    (eq_error_of_error? (show _ = some (alreadyFormatted "/a") by decide +kernel))
    ⟨"/a", .inl rfl⟩

/-- The second directory is found to be formatted when the first one has been written. -/
theorem format_leaves_directory_formatted :
    ¬ ∀ (host : Host) (args : FormatArgs) (config : String) (props : Properties)
      (world world' : World) (error : Error), host.loadProperties config = .ok props →
      (storageFormat host config args).run world = .error error world' → CheckError error →
      Untouched host props world.files world'.files := by
  intro hall
  have huntouched := hall twoDirectories { clusterId := "c" } "" _ (formattedBefore "b") _
    (alreadyFormatted "/b") rfl (eq_error_of_error? (by decide +kernel)) ⟨"/b", .inl rfl⟩
  have hbefore : (formattedBefore "b").files.node ["a", "meta.properties"] = none := by
    decide +kernel
  have hafter : (final ((storageFormat twoDirectories "" { clusterId := "c" }).run
      (formattedBefore "b"))).files.isFile ["a", "meta.properties"] = true := by
    decide +kernel
  rcases huntouched ["a", "meta.properties"] with hsame | ⟨-, hdir, -⟩
  · rw [isFile, hsame, hbefore] at hafter
    cases hafter
  · rw [isFile, hdir] at hafter
    cases hafter

end KafkaCli.Storage
