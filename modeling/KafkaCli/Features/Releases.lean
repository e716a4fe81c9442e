import KafkaCli.Features.Levels
import Mathlib.Logic.Function.Basic

/-!
# From one release to another

A cluster with the feature levels of a release is upgraded to a later release, and downgraded again.

**Theorem (`release_roundTrip`).** The upgrade leads to exactly the levels that
`features version-mapping` prints for the later release, and the downgrade back to those that the
cluster had. Features outside the mapping keep their levels.

**Theorem (`mapping_dependencies`).** Each level of a mapping is a known level of its feature, and
the dependency of it that `features feature-dependencies` prints is met by the mapping.
-/

namespace KafkaCli.Features

open Checked

/-! ## The levels of a cluster -/

/-- The levels after an update; a feature without a level has the level 0. -/
def applyUpdate (levels : String → Int) (update : FeatureUpdateKey) : String → Int :=
  Function.update levels update.feature update.maxVersionLevel

section Apply

variable {updates : List FeatureUpdateKey} {levels : String → Int}

theorem foldl_applyUpdate_of_not_mem {name : String} (h : ∀ update ∈ updates, update.feature ≠ name) :
    updates.foldl applyUpdate levels name = levels name := by
  induction updates generalizing levels with
  | nil => rfl
  | cons update updates ih =>
    obtain ⟨hfirst, hrest⟩ := List.forall_mem_cons.1 h
    rw [List.foldl_cons, ih hrest, applyUpdate, Function.update_of_ne (Ne.symm hfirst)]

theorem foldl_applyUpdate_of_mem (levels : String → Int)
    (hnodup : (updates.map FeatureUpdateKey.feature).Nodup) {update : FeatureUpdateKey} (hmem : update ∈ updates) :
    updates.foldl applyUpdate levels update.feature = update.maxVersionLevel := by
  induction updates generalizing levels with
  | nil => cases hmem
  | cons first updates ih =>
    rw [List.map_cons, List.nodup_cons] at hnodup
    rw [List.foldl_cons]
    rcases List.mem_cons.1 hmem with rfl | hmem
    · have hfresh : ∀ other ∈ updates, other.feature ≠ update.feature := fun other hother heq =>
        hnodup.1 (List.mem_map.2 ⟨other, hother, heq⟩)
      rw [foldl_applyUpdate_of_not_mem hfresh, applyUpdate, Function.update_self]
    · exact ih _ hnodup.2 hmem

end Apply

/-! ## Releases -/

theorem metadataVersion_mem {value : String} {spec : MetadataVersionSpec}
    (h : metadataVersion value = .ok spec) : spec ∈ metadataVersions := by
  unfold metadataVersion at h
  split at h
  · obtain rfl := Except.ok.inj h
    exact List.mem_of_find?_eq_some ‹_›
  · dsimp only at h
    split at h
    · obtain rfl := Except.ok.inj h
      exact List.mem_of_find?_eq_some ‹_›
    · split at h
      · obtain rfl := Except.ok.inj h
        exact List.mem_reverse.1 (List.mem_of_find?_eq_some ‹_›)
      · cases h

/-- **Levels do not fall** from one release to a later one. -/
theorem featureDefaultLevel_mono (feature : String) {lower upper : Int} (h : lower ≤ upper) :
    0 ≤ featureDefaultLevel feature lower ∧
      featureDefaultLevel feature lower ≤ featureDefaultLevel feature upper := by
  unfold featureDefaultLevel
  split <;> (try split_ifs) <;> omega

theorem isEmpty_releaseLevels (isUpgrade : Bool) (spec : MetadataVersionSpec) :
    (releaseLevels isUpgrade spec).isEmpty = false := by
  rw [Std.TreeMap.isEmpty_eq_false_iff_exists_mem]
  refine ⟨"metadata.version", ?_⟩
  rw [Std.TreeMap.mem_iff_isSome_getElem?, getElem?_releaseLevels.2 (.inl ⟨rfl, rfl⟩)]
  rfl

/-- The levels of a release are sent. -/
theorem requestedLevels_release (isUpgrade : Bool) {release : String} {spec : MetadataVersionSpec}
    (h : metadataVersion release = .ok spec) :
    requestedLevels isUpgrade none (some release) [] = .ok (releaseLevels isUpgrade spec) := by
  simp [requestedLevels, givenLevels, addMetadata, h, isEmpty_releaseLevels, failIf]

/-- What the levels of a release make of a cluster. -/
theorem applied_releaseLevels (isUpgrade : Bool) (spec : MetadataVersionSpec)
    (levels : String → Int) (key : String → Int → FeatureUpdateKey)
    (hfeature : ∀ name level, (key name level).feature = name)
    (hlevel : ∀ name level, (key name level).maxVersionLevel = level) (name : String) :
    ((releaseLevels isUpgrade spec).toList.map fun entry => key entry.1 entry.2).foldl applyUpdate
        levels name =
      if name = "metadata.version" then spec.level
      else if name ∈ releaseFeatures isUpgrade spec then featureDefaultLevel name spec.level
      else levels name := by
  obtain ⟨-, hnodup, hmem⟩ :=
    updates_of_levels (isEmpty_releaseLevels isUpgrade spec) key hfeature
  have hset : ∀ level, (releaseLevels isUpgrade spec)[name]? = some level →
      ((releaseLevels isUpgrade spec).toList.map fun entry => key entry.1 entry.2).foldl applyUpdate
        levels name = level := by
    intro level hget
    have hupdate := foldl_applyUpdate_of_mem levels hnodup
      ((hmem _).2 ⟨name, level, hget, rfl⟩)
    rwa [hfeature, hlevel] at hupdate
  by_cases hmetadata : name = "metadata.version"
  · rw [if_pos hmetadata]
    exact hset _ (getElem?_releaseLevels.2 (.inl ⟨hmetadata, rfl⟩))
  · rw [if_neg hmetadata]
    by_cases hname : name ∈ releaseFeatures isUpgrade spec
    · rw [if_pos hname]
      exact hset _ (getElem?_releaseLevels.2 (.inr ⟨hname, rfl⟩))
    · rw [if_neg hname]
      refine foldl_applyUpdate_of_not_mem fun update hupdate heq => ?_
      obtain ⟨name', level, hget, rfl⟩ := (hmem update).1 hupdate
      rw [hfeature] at heq
      subst heq
      rcases getElem?_releaseLevels.1 hget with ⟨heq, -⟩ | ⟨hthere, -⟩
      · exact hmetadata heq
      · exact hname hthere

/-- The level of a feature in a mapping. -/
theorem mem_mappingRows {spec : MetadataVersionSpec} {levels : String → Int} :
    (∀ row ∈ mappingRows spec, levels row.feature = row.level) ↔
      levels "metadata.version" = spec.level ∧
        ∀ feature ∈ productionFeatures, levels feature = featureDefaultLevel feature spec.level := by
  rw [mappingRows, List.forall_mem_cons]
  refine and_congr Iff.rfl ⟨fun h feature hmem => ?_, fun h row hmem => ?_⟩
  · exact h ⟨feature, featureDefaultLevel feature spec.level, none⟩
      (List.mem_map.2 ⟨feature, hmem, rfl⟩)
  · obtain ⟨feature, hfeature, rfl⟩ := List.mem_map.1 hmem
    exact h feature hfeature

theorem mem_releaseFeatures {isUpgrade : Bool} {spec : MetadataVersionSpec} {name : String} :
    name ∈ releaseFeatures isUpgrade spec ↔
      name ∈ productionFeatures ∧
        (isUpgrade = true → 0 < featureDefaultLevel name spec.level) := by
  rw [releaseFeatures, List.mem_filter]
  cases isUpgrade <;> simp

/-- **There and back.** -/
theorem release_roundTrip (lower upper : String) (lowerSpec upperSpec : MetadataVersionSpec)
    (hlower : metadataVersion lower = .ok lowerSpec)
    (hupper : metadataVersion upper = .ok upperSpec) (hle : lowerSpec.level ≤ upperSpec.level)
    (levels : String → Int)
    (hlevels : ∀ row ∈ mappingRows lowerSpec, levels row.feature = row.level) (isUnsafe : Bool) :
    ∃ up down,
      featureUpdates (.upgrade none (some upper) [] false) = .ok ("upgrade", up, false) ∧
      featureUpdates (.downgrade none (some lower) [] isUnsafe false) =
        .ok ("downgrade", down, false) ∧
      (∀ row ∈ mappingRows upperSpec, up.foldl applyUpdate levels row.feature = row.level) ∧
      down.foldl applyUpdate (up.foldl applyUpdate levels) = levels := by
  obtain ⟨hmetadata, hproduction⟩ := mem_mappingRows.1 hlevels
  have hup := applied_releaseLevels true upperSpec levels .upgrade (fun _ _ => rfl) fun _ _ => rfl
  have hdown := fun levels => applied_releaseLevels false lowerSpec levels
    (fun name level => if isUnsafe then .unsafeDowngrade name level else .safeDowngrade name level)
    (fun _ _ => by split_ifs <;> rfl) fun _ _ => by split_ifs <;> rfl
  refine ⟨(releaseLevels true upperSpec).toList.map fun entry => .upgrade entry.1 entry.2,
    (releaseLevels false lowerSpec).toList.map fun entry =>
      if isUnsafe then .unsafeDowngrade entry.1 entry.2 else .safeDowngrade entry.1 entry.2,
    ?_, ?_, mem_mappingRows.2 ⟨?_, fun feature hmem => ?_⟩, ?_⟩
  · simp only [featureUpdates, requestedLevels_release true hupper, ok_bind]
    rfl
  · simp only [featureUpdates, requestedLevels_release false hlower, ok_bind]
    rfl
  · rw [hup, if_pos rfl]
  · have hne : feature ≠ "metadata.version" := fun heq => absurd (heq ▸ hmem) (by decide)
    obtain ⟨hnonneg, hmono⟩ := featureDefaultLevel_mono feature hle
    rw [hup, if_neg hne]
    by_cases hpositive : feature ∈ releaseFeatures true upperSpec
    · rw [if_pos hpositive]
    · -- a level that is left out is zero, and was zero before
      rw [if_neg hpositive, hproduction feature hmem]
      have hzero : ¬ 0 < featureDefaultLevel feature upperSpec.level := fun hlt =>
        hpositive (mem_releaseFeatures.2 ⟨hmem, fun _ => hlt⟩)
      omega
  · funext name
    rw [hdown]
    by_cases hname : name = "metadata.version"
    · rw [if_pos hname, hname, hmetadata]
    · rw [if_neg hname]
      by_cases hmem : name ∈ productionFeatures
      · rw [if_pos (mem_releaseFeatures.2 ⟨hmem, fun h => by cases h⟩), hproduction name hmem]
      · have hother : ∀ isUpgrade spec, name ∉ releaseFeatures isUpgrade spec :=
          fun _ _ h => hmem (mem_releaseFeatures.1 h).1
        rw [if_neg (hother false lowerSpec), hup, if_neg hname, if_neg (hother true upperSpec)]

theorem release_roundTrip_sample :
    ∃ up, featureUpdates (.upgrade none (some "4.1") [] false) = .ok ("upgrade", up, false) ∧
      ∀ row ∈ mappingRows ⟨27, "4.1", "4.1-IV1", true⟩, up.foldl applyUpdate
        (fun name => if name = "metadata.version" then 20 else 0) row.feature = row.level := by
  obtain ⟨up, down, hup, -, happlied, -⟩ := release_roundTrip "3.8" "4.1" ⟨20, "3.8", "3.8-IV0", true⟩
    ⟨27, "4.1", "4.1-IV1", true⟩ (by decide +kernel) (by decide +kernel) (by decide)
    (fun name => if name = "metadata.version" then 20 else 0) (by decide +kernel) false
  exact ⟨up, hup, happlied⟩

/-! ## Dependencies -/

/-- The default level of a feature is a level that the feature has. -/
theorem validate_featureDefaultLevel {feature : String} (h : feature ∈ productionFeatures)
    (level : Int) :
    validateKnownFeatureLevel feature (featureDefaultLevel feature level) = .ok () := by
  simp only [productionFeatures, List.mem_cons, List.not_mem_nil, or_false] at h
  rcases h with rfl | rfl | rfl | rfl | rfl | rfl <;>
    simp only [validateKnownFeatureLevel, maximumLevel, featureDefaultLevel] <;> split_ifs <;>
    first | rfl | omega

theorem metadataVersionLevel_of_mem (spec : MetadataVersionSpec) (h : spec ∈ metadataVersions) :
    metadataVersionLevel spec.level = .ok spec := by
  have hall : ∀ spec ∈ metadataVersions,
      metadataVersions.find? (·.level = spec.level) = some spec := by decide
  simp only [metadataVersionLevel, hall spec h]

/-- **The levels of a release** meet their own dependencies. -/
theorem mapping_dependencies {release : Option String} {rows : List FeatureMappingRow}
    (h : versionMapping release = .ok rows) (row : FeatureMappingRow) (hrow : row ∈ rows) :
    ∃ dependency, featureDependency row.feature row.level = .ok dependency ∧
      ∀ name level, dependency.dependency = some name → dependency.dependencyLevel = some level →
        ∃ mapped ∈ rows, mapped.feature = name ∧ level ≤ mapped.level := by
  simp only [versionMapping, bind_eq_ok, pure_eq_ok] at h
  obtain ⟨spec, hspec, rfl⟩ := h
  rcases List.mem_cons.1 hrow with rfl | hrow
  · refine ⟨⟨"metadata.version", spec.level, none, none, some spec.version⟩, ?_,
      fun _ _ hnone => by cases hnone⟩
    rw [featureDependency, if_pos rfl, metadataVersionLevel_of_mem spec (metadataVersion_mem hspec)]
    rfl
  obtain ⟨feature, hfeature, rfl⟩ := List.mem_map.1 hrow
  have hne : feature ≠ "metadata.version" := fun heq => absurd (heq ▸ hfeature) (by decide)
  simp only [featureDependency, if_neg hne, validate_featureDefaultLevel hfeature, ok_bind]
  by_cases heligible : feature = "eligible.leader.replicas.version" ∧
      featureDefaultLevel feature spec.level = 1
  · -- eligible leader replicas come with a metadata version that is newer than the one they need
    have hlevel : 26 ≤ spec.level := by
      by_contra hlt
      have hzero : featureDefaultLevel feature spec.level = 0 := by
        rw [heligible.1]
        exact if_neg hlt
      exact absurd (heligible.2.symm.trans hzero) (by decide)
    rw [if_pos heligible, metadataVersionLevel_of_mem ⟨23, "4.0", "4.0-IV1", true⟩ (by decide)]
    refine ⟨_, rfl, fun name level hname hneeded => ⟨_, List.mem_cons_self, ?_, ?_⟩⟩
    · exact Option.some.inj hname
    · have hthis : 23 = level := Option.some.inj hneeded
      show level ≤ spec.level
      omega
  · rw [if_neg heligible]
    exact ⟨_, rfl, fun _ _ hnone => by cases hnone⟩

end KafkaCli.Features
