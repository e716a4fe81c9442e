import KafkaCli.Storage.MetaProperties

/-!
# What survives in `meta.properties`

**Theorem (`meta_survives_iff`).** The metadata of a directory that is formatted is read back
exactly if the cluster id has no line break, and no white space at its ends.

The writer puts the cluster id behind `cluster.id=` as it is. The reader takes no more of it than
a line, so that a cluster id it finds has no line break (`OneLine`), and trims it.
-/

namespace KafkaCli.Storage

open Checked Text

/-- The cluster id that was found is part of a line. -/
def OneLine (properties : MetaProperties) : Prop :=
  ∀ id ∈ properties.clusterId, '\n' ∉ id.toList

theorem readMetaEntry_oneLine {properties properties' : MetaProperties} {key value : String}
    (h : readMetaEntry properties key value = .ok properties') (hvalue : '\n' ∉ value.toList)
    (hline : OneLine properties) : OneLine properties' := by
  unfold readMetaEntry at h
  split_ifs at h
  · split at h <;> cases h
    exact hline
  · cases h
    intro id hid
    cases hid
    exact hvalue
  · split at h <;> cases h
    exact hline
  · cases h
    exact hline
  · cases h
    exact hline

/-- A line adds nothing that is not in it. -/
theorem readMetaLine_oneLine {properties properties' : MetaProperties} {line : String}
    (h : readMetaLine properties line = .ok properties') (hnewline : '\n' ∉ line.toList)
    (hline : OneLine properties) : OneLine properties' := by
  simp only [readMetaLine] at h
  split_ifs at h
  · cases h
    exact hline
  · split at h
    · cases h
      exact hline
    · rename_i key value hsplit
      refine readMetaEntry_oneLine h (fun hmem => hnewline ?_) hline
      have htrim : trim line = key ++ (String.singleton '=' ++ value) :=
        (splitOnce_eq_some.1 hsplit).2
      have hvalue : '\n' ∈ (trim line).toList := by
        rw [htrim, String.toList_append, String.toList_append]
        exact List.mem_append_right _ (List.mem_append_right _ (mem_of_mem_trim hmem))
      exact mem_of_mem_trim hvalue

theorem foldlM_readMetaLine_oneLine {ls : List String} {properties properties' : MetaProperties}
    (h : ls.foldlM readMetaLine properties = .ok properties')
    (hls : ∀ line ∈ ls, '\n' ∉ line.toList) (hline : OneLine properties) :
    OneLine properties' := by
  induction ls generalizing properties with
  | nil =>
    cases h
    exact hline
  | cons line rest ih =>
    rw [List.forall_mem_cons] at hls
    rw [List.foldlM_cons, bind_eq_ok] at h
    obtain ⟨middle, hfirst, hrest⟩ := h
    exact ih hrest hls.2 (readMetaLine_oneLine hfirst hls.1 hline)

theorem readClusterLines_oneLine {clusterId : String} {properties : MetaProperties}
    (h : readClusterLines clusterId = .ok properties) : OneLine properties := by
  refine foldlM_readMetaLine_oneLine h (fun line hline => ?_) nofun
  obtain ⟨piece, hpiece, rfl⟩ := List.mem_map.1 hline
  exact fun hmem => not_mem_of_mem_split hpiece (mem_of_mem_stripCr hmem)

/-- **Which metadata is read back.** -/
theorem meta_survives_iff (clusterId : String) (nodeId : Int) (directoryId : Uuid)
    (hlow : -2 ^ 31 ≤ nodeId) (hhigh : nodeId < 2 ^ 31) :
    readMetaText (metaText (formattedMeta clusterId nodeId directoryId)) =
        .ok (formattedMeta clusterId nodeId directoryId) ↔
      '\n' ∉ clusterId.toList ∧ trim clusterId = clusterId := by
  rw [readMetaText_metaText clusterId directoryId hlow hhigh]
  by_cases hnewline : '\n' ∈ clusterId.toList
  · refine iff_of_false (fun h => ?_) fun h => h.1 hnewline
    cases hcluster : readClusterLines clusterId with
    | error error =>
      rw [hcluster] at h
      cases h
    | ok properties =>
      rw [hcluster] at h
      have hid : properties.clusterId = some clusterId :=
        congrArg MetaProperties.clusterId (Except.ok.inj h)
      exact readClusterLines_oneLine hcluster clusterId hid hnewline
  · rw [readClusterLines_of_not_mem hnewline]
    refine ⟨fun h => ⟨hnewline, ?_⟩, fun h => ?_⟩
    · exact Option.some.inj (congrArg MetaProperties.clusterId (Except.ok.inj h))
    · rw [h.2]
      rfl

/-- A usual cluster id is read back. -/
theorem meta_survives_plain :
    readMetaText (metaText (formattedMeta "c=1" 1 .nil)) = .ok (formattedMeta "c=1" 1 .nil) :=
  (meta_survives_iff "c=1" 1 .nil (by decide) (by decide)).2 (by decide)

/-- Of two lines only one is found. -/
theorem meta_survives_fails :
    readMetaText (metaText (formattedMeta "a\nb" 1 .nil)) = .ok (formattedMeta "a" 1 .nil) ∧
      formattedMeta "a" 1 .nil ≠ formattedMeta "a\nb" 1 .nil := by
  have hcluster : readClusterLines "a\nb" = .ok ⟨1, some "a", none, none⟩ := by decide +kernel
  refine ⟨?_, by decide⟩
  rw [readMetaText_metaText "a\nb" .nil (by decide) (by decide), hcluster]
  rfl

end KafkaCli.Storage
