import KafkaCli.Error
import KafkaCli.Lib.Checked
import KafkaCli.Lib.Decimal
import KafkaCli.Lib.SortedMap
import KafkaCli.Lib.Text
import Mathlib.Data.List.Nodup

/-!
# Feature levels

The levels of the features that belong to a release, and the requests that move a cluster to other
levels. `features upgrade` and `features downgrade` take the levels of a release, or a list of
`feature=level` arguments with `--metadata` for the metadata version; `features disable` takes the
names of features.

**Theorem (`featureUpdates_sound`).** Every request that is sent names at least one feature, each of
them once, and asks for levels that were given, in the direction that was asked for; nothing is
unsafe without `--unsafe`.
-/

namespace KafkaCli.Features

open Checked Decimal Text

/-! ## Versions -/

structure MetadataVersionSpec where
  level : Int
  release : String
  version : String
  production : Bool
  deriving DecidableEq, Repr

/-- `METADATA_VERSIONS`. -/
def metadataVersions : List MetadataVersionSpec :=
  [⟨7, "3.3", "3.3-IV3", true⟩, ⟨8, "3.4", "3.4-IV0", true⟩,
    ⟨9, "3.5", "3.5-IV0", true⟩, ⟨10, "3.5", "3.5-IV1", true⟩,
    ⟨11, "3.5", "3.5-IV2", true⟩, ⟨12, "3.6", "3.6-IV0", true⟩,
    ⟨13, "3.6", "3.6-IV1", true⟩, ⟨14, "3.6", "3.6-IV2", true⟩,
    ⟨15, "3.7", "3.7-IV0", true⟩, ⟨16, "3.7", "3.7-IV1", true⟩,
    ⟨17, "3.7", "3.7-IV2", true⟩, ⟨18, "3.7", "3.7-IV3", true⟩,
    ⟨19, "3.7", "3.7-IV4", true⟩, ⟨20, "3.8", "3.8-IV0", true⟩,
    ⟨21, "3.9", "3.9-IV0", true⟩, ⟨22, "4.0", "4.0-IV0", true⟩,
    ⟨23, "4.0", "4.0-IV1", true⟩, ⟨24, "4.0", "4.0-IV2", true⟩,
    ⟨25, "4.0", "4.0-IV3", true⟩, ⟨26, "4.1", "4.1-IV0", true⟩,
    ⟨27, "4.1", "4.1-IV1", true⟩, ⟨28, "4.2", "4.2-IV0", true⟩,
    ⟨29, "4.2", "4.2-IV1", true⟩, ⟨30, "4.3", "4.3-IV0", true⟩,
    ⟨31, "4.4", "4.4-IV0", false⟩, ⟨32, "4.4", "4.4-IV1", false⟩]

/-- `PRODUCTION_FEATURES`. -/
def productionFeatures : List String :=
  ["kraft.version", "transaction.version", "group.version", "eligible.leader.replicas.version",
    "share.version", "streams.version"]

/-- The version of this name, or the one of this release that is newest in production. -/
def metadataVersion (value : String) : Result MetadataVersionSpec :=
  match metadataVersions.find? (·.version = value) with
  | some version => .ok version
  | none =>
    let release := ".".intercalate ((split value '.').take 2)
    match metadataVersions.find? (·.version = release) with
    | some version => .ok version
    | none =>
      match metadataVersions.reverse.find? fun version =>
          version.production && version.release = release with
      | some version => .ok version
      | none => .error (.usage s!"unknown metadata.version '{value}'")

def metadataVersionLevel (level : Int) : Result MetadataVersionSpec :=
  match metadataVersions.find? (·.level = level) with
  | some version => .ok version
  | none => .error (.usage s!"unknown metadata.version {level}")

def featureDefaultLevel (feature : String) (metadataLevel : Int) : Int :=
  match feature with
  | "kraft.version" => if 21 ≤ metadataLevel then 1 else 0
  | "transaction.version" => if 24 ≤ metadataLevel then 2 else 0
  | "group.version" => if 22 ≤ metadataLevel then 1 else 0
  | "eligible.leader.replicas.version" => if 26 ≤ metadataLevel then 1 else 0
  | "share.version" => if 31 ≤ metadataLevel then 2 else if 28 ≤ metadataLevel then 1 else 0
  | "streams.version" => if 29 ≤ metadataLevel then 1 else 0
  | _ => 0

/-- The greatest level of a feature other than the metadata version. -/
def maximumLevel : String → Option Int
  | "kraft.version" | "group.version" | "eligible.leader.replicas.version" | "streams.version" =>
    some 1
  | "transaction.version" | "share.version" => some 2
  | _ => none

def validateKnownFeatureLevel (feature : String) (level : Int) : Result Unit :=
  match maximumLevel feature with
  | none => .error (.usage s!"unknown feature: {feature}")
  | some maximum =>
    if 0 ≤ level ∧ level ≤ maximum then .ok ()
    else .error (.usage s!"no feature {feature} with feature level {level}")

structure FeatureMappingRow where
  feature : String
  level : Int
  releaseVersion : Option String
  deriving DecidableEq, Repr

/-- The levels that belong to a metadata version. -/
def mappingRows (metadata : MetadataVersionSpec) : List FeatureMappingRow :=
  ⟨"metadata.version", metadata.level, some metadata.version⟩ ::
    productionFeatures.map fun feature =>
      ⟨feature, featureDefaultLevel feature metadata.level, none⟩

/-- `features version-mapping`. -/
def versionMapping (releaseVersion : Option String) : Result (List FeatureMappingRow) := do
  let metadata ← metadataVersion (releaseVersion.getD "4.3-IV0")
  return mappingRows metadata

/-! ## Arguments -/

def parseI16 : String → Except ParseIntError Int := parseSigned (2 ^ 15) (2 ^ 15 - 1)

/-- The levels by the names of their features. -/
abbrev FeatureLevels := Std.TreeMap String Int

/-- A `feature=level` argument. -/
def parseFeatureLevel (value : String) : Result (String × Int) :=
  match splitOnce value '=' with
  | none => .error (.usage s!"can't parse feature=level string {value}: equals sign not found")
  | some (name, level) =>
    match parseI16 (trim level) with
    | .error _ => .error (.usage s!"can't parse feature=level string {value}: invalid short level")
    | .ok level =>
      if trim name = "" then .error (.usage s!"feature name cannot be empty in {value}")
      else .ok (trim name, level)

/-- Insert a level, unless there is one. -/
def insertFeatureLevel (levels : FeatureLevels) (feature : String × Int) : Result FeatureLevels :=
  if feature.1 ∈ levels then
    .error (.usage s!"feature {feature.1} was specified more than once")
  else .ok (levels.insert feature.1 feature.2)

def parseFeatureLevels (values : List String) : Result FeatureLevels :=
  values.foldlM (fun levels value => do
    let feature ← parseFeatureLevel value
    insertFeatureLevel levels feature) ∅

structure FeatureDependencyRow where
  feature : String
  level : Int
  dependency : Option String
  dependencyLevel : Option Int
  dependencyRelease : Option String
  deriving DecidableEq, Repr

/-- The dependency of a feature at a level. -/
def featureDependency (feature : String) (level : Int) : Result FeatureDependencyRow :=
  if feature = "metadata.version" then do
    let metadata ← metadataVersionLevel level
    return ⟨feature, level, none, none, some metadata.version⟩
  else do
    validateKnownFeatureLevel feature level
    if feature = "eligible.leader.replicas.version" ∧ level = 1 then do
      let metadata ← metadataVersionLevel 23
      return ⟨feature, level, some "metadata.version", some 23, some metadata.version⟩
    else return ⟨feature, level, none, none, none⟩

/-- `features feature-dependencies`. -/
def featureDependencies (values : List String) : Result (List FeatureDependencyRow) := do
  let parsed ← parseFeatureLevels values
  parsed.toList.mapM fun (feature, level) => featureDependency feature level

/-! ## Requests -/

inductive FeatureUpdateKey
  | upgrade (feature : String) (level : Int)
  | safeDowngrade (feature : String) (level : Int)
  | unsafeDowngrade (feature : String) (level : Int)
  | delete (feature : String)
  deriving DecidableEq, Repr

def FeatureUpdateKey.feature : FeatureUpdateKey → String
  | .upgrade feature _ | .safeDowngrade feature _ | .unsafeDowngrade feature _ | .delete feature =>
    feature

/-- A deleted feature has the level 0. -/
def FeatureUpdateKey.maxVersionLevel : FeatureUpdateKey → Int
  | .upgrade _ level | .safeDowngrade _ level | .unsafeDowngrade _ level => level
  | .delete _ => 0

inductive FeatureAction
  | upgrade (metadata releaseVersion : Option String) (feature : List String) (dryRun : Bool)
  | downgrade (metadata releaseVersion : Option String) (feature : List String) (isUnsafe : Bool)
      (dryRun : Bool)
  | disable (feature : List String) (isUnsafe dryRun : Bool)
  deriving DecidableEq, Repr

/-- The updates of `features disable`, for the names that were seen. -/
def disableUpdates (isUnsafe : Bool) : List String → List String → Result (List FeatureUpdateKey)
  | _, [] => .ok []
  | seen, name :: names => do
    failIf (name ∈ seen) (.usage s!"feature {name} was specified more than once")
    let updates ← disableUpdates isUnsafe (name :: seen) names
    return (if isUnsafe then .unsafeDowngrade name 0 else .delete name) :: updates

/-- The features of a release besides the metadata version. An upgrade leaves out those whose level
is zero. -/
def releaseFeatures (isUpgrade : Bool) (metadata : MetadataVersionSpec) : List String :=
  productionFeatures.filter fun feature =>
    !isUpgrade || 0 < featureDefaultLevel feature metadata.level

/-- The levels of a release. -/
def releaseLevels (isUpgrade : Bool) (metadata : MetadataVersionSpec) : FeatureLevels :=
  .ofList (("metadata.version", metadata.level) ::
    (releaseFeatures isUpgrade metadata).map fun feature =>
      (feature, featureDefaultLevel feature metadata.level))

/-- The levels of the release, or those of the arguments. -/
def givenLevels (isUpgrade : Bool) (feature : List String) : Option String → Result FeatureLevels
  | some releaseVersion => do
    let metadata ← metadataVersion releaseVersion
    return releaseLevels isUpgrade metadata
  | none => parseFeatureLevels feature

/-- The levels with that of `--metadata`. -/
def addMetadata (levels : FeatureLevels) : Option String → Result FeatureLevels
  | none => .ok levels
  | some metadata => do
    let version ← metadataVersion metadata
    insertFeatureLevel levels ("metadata.version", version.level)

/-- The levels that are given for an upgrade or a downgrade. -/
def requestedLevels (isUpgrade : Bool) (metadata releaseVersion : Option String)
    (feature : List String) : Result FeatureLevels := do
  let given ← givenLevels isUpgrade feature releaseVersion
  let levels ← addMetadata given metadata
  failIf levels.isEmpty (.usage ("you must specify at least one feature to " ++
    if isUpgrade then "upgrade" else "downgrade"))
  return levels

/-- The operation, its updates, and whether it is a dry run. -/
def featureUpdates : FeatureAction → Result (String × List FeatureUpdateKey × Bool)
  | .upgrade metadata releaseVersion feature dryRun => do
    let levels ← requestedLevels true metadata releaseVersion feature
    return ("upgrade", levels.toList.map fun (name, level) => .upgrade name level, dryRun)
  | .downgrade metadata releaseVersion feature isUnsafe dryRun => do
    let levels ← requestedLevels false metadata releaseVersion feature
    return ("downgrade", levels.toList.map fun (name, level) =>
      if isUnsafe then .unsafeDowngrade name level else .safeDowngrade name level, dryRun)
  | .disable feature isUnsafe dryRun => do
    let updates ← disableUpdates isUnsafe [] feature
    return ("disable", updates, dryRun)

/-! ## What is asked for -/

/-- The arguments ask for this level. -/
def Requested (isUpgrade : Bool) (metadata releaseVersion : Option String) (feature : List String)
    (name : String) (level : Int) : Prop :=
  (∃ release spec, releaseVersion = some release ∧ metadataVersion release = .ok spec ∧
    ((name = "metadata.version" ∧ level = spec.level) ∨
      (name ∈ releaseFeatures isUpgrade spec ∧ level = featureDefaultLevel name spec.level))) ∨
  (releaseVersion = none ∧ ∃ value ∈ feature, parseFeatureLevel value = .ok (name, level)) ∨
  ∃ version spec, metadata = some version ∧ metadataVersion version = .ok spec ∧
    name = "metadata.version" ∧ level = spec.level

section Requested

variable {levels levels' : FeatureLevels} {feature : String × Int} {values : List String}
  {name : String} {level : Int}

theorem insertFeatureLevel_eq_ok :
    insertFeatureLevel levels feature = .ok levels' ↔
      feature.1 ∉ levels ∧ levels' = levels.insert feature.1 feature.2 := by
  unfold insertFeatureLevel
  by_cases hmem : feature.1 ∈ levels
  · simp [hmem]
  · simp [hmem, eq_comm]

/-- A new level stands beside the others. -/
theorem getElem?_insert_of_not_mem {key : String} {value : Int} (hmem : key ∉ levels) :
    (levels.insert key value)[name]? = some level ↔
      (key = name ∧ value = level) ∨ levels[name]? = some level := by
  rw [Std.TreeMap.getElem?_insert]
  by_cases hname : key = name
  · subst hname
    have hnone : levels[key]? = none := Std.TreeMap.getElem?_eq_none hmem
    simp [hnone]
  · have hne : ¬ compare key name = .eq := fun h => hname (Std.LawfulEqCmp.eq_of_compare h)
    rw [if_neg hne]
    exact ⟨.inr, fun h => h.resolve_left fun heq => hname heq.1⟩

/-- **The arguments** are the entries of the map. -/
theorem parseFeatureLevels_iff
    (h : values.foldlM (fun levels value => do
      let feature ← parseFeatureLevel value
      insertFeatureLevel levels feature) levels = .ok levels') :
    levels'[name]? = some level ↔
      levels[name]? = some level ∨ ∃ value ∈ values, parseFeatureLevel value = .ok (name, level) := by
  induction values generalizing levels with
  | nil =>
    obtain rfl := Except.ok.inj h
    simp
  | cons value values ih =>
    simp only [List.foldlM_cons, bind_eq_ok, insertFeatureLevel_eq_ok] at h
    obtain ⟨_, ⟨feature, hfeature, hmem, rfl⟩, hrest⟩ := h
    have hentry : (feature.1 = name ∧ feature.2 = level) ↔
        parseFeatureLevel value = .ok (name, level) := by
      rw [hfeature, Except.ok.injEq, Prod.ext_iff]
    rw [ih hrest, getElem?_insert_of_not_mem hmem, hentry, List.exists_mem_cons_iff,
      or_comm (b := levels[name]? = some level), or_assoc]

theorem nodup_releaseFeatures (isUpgrade : Bool) (spec : MetadataVersionSpec) :
    (releaseFeatures isUpgrade spec).Nodup ∧
      "metadata.version" ∉ releaseFeatures isUpgrade spec := by
  refine ⟨List.Nodup.filter _ (by decide), fun hmem => ?_⟩
  exact absurd (List.mem_of_mem_filter hmem) (by decide)

theorem getElem?_releaseLevels {isUpgrade : Bool} {spec : MetadataVersionSpec} :
    (releaseLevels isUpgrade spec)[name]? = some level ↔
      (name = "metadata.version" ∧ level = spec.level) ∨
        (name ∈ releaseFeatures isUpgrade spec ∧ level = featureDefaultLevel name spec.level) := by
  obtain ⟨hnodup, hmetadata⟩ := nodup_releaseFeatures isUpgrade spec
  have hdistinct : (("metadata.version", spec.level) ::
      (releaseFeatures isUpgrade spec).map fun feature =>
        (feature, featureDefaultLevel feature spec.level)).Pairwise
          fun a b => ¬ compare a.1 b.1 = .eq := by
    refine List.pairwise_cons.2 ⟨fun entry hmem heq => ?_, List.pairwise_map.2 (hnodup.imp ?_)⟩
    · obtain ⟨feature, hfeature, rfl⟩ := List.mem_map.1 hmem
      have hname : "metadata.version" = feature := Std.LawfulEqCmp.eq_of_compare heq
      exact hmetadata (hname ▸ hfeature)
    · exact fun hne heq => hne (Std.LawfulEqCmp.eq_of_compare heq)
  rw [releaseLevels, SortedMap.getElem?_ofList_eq_some hdistinct, List.mem_cons, List.mem_map]
  simp only [Prod.mk.injEq]
  refine or_congr Iff.rfl ⟨?_, ?_⟩
  · intro h
    obtain ⟨_, hmem, rfl, rfl⟩ := h
    exact ⟨hmem, rfl⟩
  · intro h
    exact ⟨name, h.1, rfl, h.2.symm⟩

theorem requestedLevels_ok {isUpgrade : Bool} {metadata releaseVersion : Option String}
    {feature : List String}
    (h : requestedLevels isUpgrade metadata releaseVersion feature = .ok levels) :
    levels.isEmpty = false ∧ ∀ name level, levels[name]? = some level ↔
      Requested isUpgrade metadata releaseVersion feature name level := by
  simp only [requestedLevels, bind_eq_ok, failIf_eq_ok, pure_eq_ok] at h
  obtain ⟨given, hgiven, all, hall, _, hempty, rfl⟩ := h
  refine ⟨by simpa using hempty, fun name level => ?_⟩
  have hbase : given[name]? = some level ↔
      (∃ release spec, releaseVersion = some release ∧ metadataVersion release = .ok spec ∧
        ((name = "metadata.version" ∧ level = spec.level) ∨
          (name ∈ releaseFeatures isUpgrade spec ∧
            level = featureDefaultLevel name spec.level))) ∨
      (releaseVersion = none ∧ ∃ value ∈ feature, parseFeatureLevel value = .ok (name, level)) := by
    cases releaseVersion with
    | some release =>
      simp only [givenLevels, bind_eq_ok, pure_eq_ok] at hgiven
      obtain ⟨spec, hspec, rfl⟩ := hgiven
      rw [getElem?_releaseLevels]
      simp [hspec]
    | none =>
      rw [parseFeatureLevels_iff hgiven]
      simp
  rw [Requested, ← or_assoc, ← hbase]
  cases metadata with
  | none =>
    obtain rfl := Except.ok.inj hall
    simp
  | some version =>
    simp only [addMetadata, bind_eq_ok, insertFeatureLevel_eq_ok] at hall
    obtain ⟨spec, hspec, hmem, rfl⟩ := hall
    rw [getElem?_insert_of_not_mem hmem, or_comm]
    refine or_congr Iff.rfl ?_
    simp [hspec, eq_comm]

theorem disableUpdates_ok {isUnsafe : Bool} {seen names : List String}
    {updates : List FeatureUpdateKey} (h : disableUpdates isUnsafe seen names = .ok updates) :
    names.Nodup ∧ (∀ name ∈ names, name ∉ seen) ∧
      updates = names.map fun name =>
        if isUnsafe then .unsafeDowngrade name 0 else .delete name := by
  induction names generalizing seen updates with
  | nil =>
    obtain rfl := Except.ok.inj h
    exact ⟨List.nodup_nil, fun _ h => absurd h List.not_mem_nil, rfl⟩
  | cons name names ih =>
    simp only [disableUpdates, bind_eq_ok, failIf_eq_ok, pure_eq_ok] at h
    obtain ⟨_, hname, rest, hrest, rfl⟩ := h
    obtain ⟨hnodup, hfresh, rfl⟩ := ih hrest
    refine ⟨List.nodup_cons.2 ⟨fun hmem => hfresh name hmem List.mem_cons_self, hnodup⟩, ?_, rfl⟩
    intro other hmem
    rcases List.mem_cons.1 hmem with rfl | hmem
    · exact hname
    · exact fun hseen => hfresh other hmem (List.mem_cons_of_mem _ hseen)

end Requested

/-- The update that is sent for a level. -/
def FeatureAction.key : FeatureAction → String → Int → FeatureUpdateKey
  | .upgrade _ _ _ _, name, level => .upgrade name level
  | .downgrade _ _ _ isUnsafe _, name, level =>
    if isUnsafe then .unsafeDowngrade name level else .safeDowngrade name level
  | .disable _ isUnsafe _, name, _ => if isUnsafe then .unsafeDowngrade name 0 else .delete name

/-- The action asks for this level. -/
def FeatureAction.Asks : FeatureAction → String → Int → Prop
  | .upgrade metadata releaseVersion feature _, name, level =>
    Requested true metadata releaseVersion feature name level
  | .downgrade metadata releaseVersion feature _ _, name, level =>
    Requested false metadata releaseVersion feature name level
  | .disable feature _ _, name, level => name ∈ feature ∧ level = 0

/-- Some feature is named. -/
def FeatureAction.Names : FeatureAction → Prop
  | .disable feature _ _ => feature ≠ []
  | _ => True

/-- What is sent for the levels of a map. -/
theorem updates_of_levels {levels : FeatureLevels} (hempty : levels.isEmpty = false)
    (key : String → Int → FeatureUpdateKey) (hkey : ∀ name level, (key name level).feature = name) :
    (levels.toList.map fun entry => key entry.1 entry.2) ≠ [] ∧
      ((levels.toList.map fun entry => key entry.1 entry.2).map FeatureUpdateKey.feature).Nodup ∧
      ∀ update, update ∈ levels.toList.map (fun entry => key entry.1 entry.2) ↔
        ∃ name level, levels[name]? = some level ∧ update = key name level := by
  refine ⟨?_, ?_, fun update => ?_⟩
  · rw [ne_eq, List.map_eq_nil_iff, ← List.isEmpty_iff, Std.TreeMap.isEmpty_toList, hempty]
    exact Bool.false_ne_true
  · rw [List.map_map]
    refine List.pairwise_map.2 ((SortedMap.increasing_toList levels).imp fun hlt heq => ?_)
    simp only [Function.comp_apply, hkey] at heq
    rw [heq] at hlt
    exact SortedMap.not_lt_self _ hlt
  · rw [List.mem_map]
    constructor
    · intro h
      obtain ⟨⟨name, level⟩, hmem, rfl⟩ := h
      exact ⟨name, level, Std.TreeMap.mem_toList_iff_getElem?_eq_some.1 hmem, rfl⟩
    · intro h
      obtain ⟨name, level, hget, rfl⟩ := h
      exact ⟨(name, level), Std.TreeMap.mem_toList_iff_getElem?_eq_some.2 hget, rfl⟩

/-- **What is sent** is what was asked for. -/
theorem featureUpdates_sound (action : FeatureAction) (hnames : action.Names)
    (operation : String) (updates : List FeatureUpdateKey) (dryRun : Bool)
    (hupdates : featureUpdates action = .ok (operation, updates, dryRun)) :
    updates ≠ [] ∧ (updates.map FeatureUpdateKey.feature).Nodup ∧
      ∀ update, update ∈ updates ↔
        ∃ name level, action.Asks name level ∧ update = action.key name level := by
  cases action with
  | upgrade metadata releaseVersion feature dryRun' =>
    simp only [featureUpdates, bind_eq_ok, pure_eq_ok, Prod.mk.injEq] at hupdates
    obtain ⟨levels, hlevels, -, rfl, -⟩ := hupdates
    obtain ⟨hempty, hrequested⟩ := requestedLevels_ok hlevels
    obtain ⟨hne, hnodup, hmem⟩ := updates_of_levels hempty .upgrade fun _ _ => rfl
    refine ⟨hne, hnodup, fun update => (hmem update).trans ?_⟩
    simp only [hrequested]
    rfl
  | downgrade metadata releaseVersion feature isUnsafe dryRun' =>
    simp only [featureUpdates, bind_eq_ok, pure_eq_ok, Prod.mk.injEq] at hupdates
    obtain ⟨levels, hlevels, -, rfl, -⟩ := hupdates
    obtain ⟨hempty, hrequested⟩ := requestedLevels_ok hlevels
    obtain ⟨hne, hnodup, hmem⟩ := updates_of_levels hempty
      (fun name level => if isUnsafe then .unsafeDowngrade name level else .safeDowngrade name level)
      fun _ _ => by split_ifs <;> rfl
    refine ⟨hne, hnodup, fun update => (hmem update).trans ?_⟩
    simp only [hrequested]
    rfl
  | disable feature isUnsafe dryRun' =>
    simp only [featureUpdates, bind_eq_ok, pure_eq_ok, Prod.mk.injEq] at hupdates
    obtain ⟨found, hfound, -, rfl, -⟩ := hupdates
    obtain ⟨hnodup, -, rfl⟩ := disableUpdates_ok hfound
    refine ⟨fun hnil => hnames (List.map_eq_nil_iff.1 hnil), ?_, fun update => ?_⟩
    · have hfeature : (FeatureUpdateKey.feature ∘ fun name : String =>
          if isUnsafe then FeatureUpdateKey.unsafeDowngrade name 0 else .delete name) = id := by
        funext name
        rw [Function.comp_apply]
        split_ifs <;> rfl
      rw [List.map_map, hfeature, List.map_id]
      exact hnodup
    · rw [List.mem_map]
      constructor
      · intro h
        obtain ⟨name, hmem, rfl⟩ := h
        exact ⟨name, 0, ⟨hmem, rfl⟩, rfl⟩
      · intro h
        obtain ⟨name, level, ⟨hmem, -⟩, rfl⟩ := h
        exact ⟨name, hmem, rfl⟩

theorem featureUpdates_sound_sample :
    ∃ updates, featureUpdates (.downgrade (some "4.0") none ["group.version = 0"] true false) =
        .ok ("downgrade", updates, false) ∧
      .unsafeDowngrade "metadata.version" 25 ∈ updates := by
  refine ⟨_, rfl, ?_⟩
  obtain ⟨-, -, hmem⟩ := featureUpdates_sound
    (.downgrade (some "4.0") none ["group.version = 0"] true false) trivial "downgrade" _ false rfl
  refine (hmem _).2 ⟨"metadata.version", 25, .inr (.inr ⟨"4.0", ⟨25, "4.0", "4.0-IV3", true⟩, rfl,
    by decide +kernel, rfl, rfl⟩), rfl⟩

end KafkaCli.Features
