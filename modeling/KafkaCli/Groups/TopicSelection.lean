import KafkaCli.Groups.ResetTarget
import KafkaCli.Lib.SortedMap

/-!
# The union of the selected topics

`parse_reset_topics` merges the values of `--topic` into one map. A value selects a whole topic or
some of its partitions (`Selects`), and the map is the union of what the values select, whatever
their order is and however often one of them occurs.

Main result: `parseResetTopics_spec`.
-/

namespace KafkaCli.Groups

open Checked Decimal Text

/-! ## One value -/

/-- A value selects a topic (`none`), or some of its partitions. -/
inductive Selects : String → String → Option (List Int) → Prop
  | topic {topic : String} (hne : topic ≠ "") (hsep : ':' ∉ topic.toList) :
    Selects topic topic none
  | partitions {topic list : String} {partitions : List Int}
    (hne : topic ≠ "") (hsep : ':' ∉ topic.toList) (hlist : list ≠ "") (hlist' : ':' ∉ list.toList)
    (hparse : List.Forall₂ (fun text partition => parseI32 text = .ok partition)
      (split list ',') partitions)
    (hnonneg : ∀ partition ∈ partitions, 0 ≤ partition) :
    Selects (topic ++ (String.singleton ':' ++ list)) topic (some partitions)

variable {value topic : String} {selection : Option (Std.TreeSet Int)}

theorem parseResetTopic_of_selects {partitions : Option (List Int)}
    (h : Selects value topic partitions) :
    parseResetTopic value = .ok (topic, partitions.map (.ofList ·)) := by
  cases h with
  | topic hne hsep =>
    rw [parseResetTopic, splitOnce_eq_none.2 hsep]
    simp only [bind_eq_ok, failIf_eq_ok, pure_eq_ok]
    exact ⟨(), hne, rfl⟩
  | @partitions _ list partitions hne hsep hlist hlist' hparse hnonneg =>
    rw [parseResetTopic, splitOnce_append hsep]
    simp only [bind_eq_ok, failIf_eq_ok, pure_eq_ok]
    refine ⟨(), by simp [hne, hlist, hlist'], partitions, ?_, (), ?_, rfl⟩
    · exact mapM_ok_of_forall₂ (hparse.imp fun _ _ hpiece => mapError_eq_ok.2 hpiece)
    · rintro ⟨partition, hmem, hneg⟩
      exact absurd (hnonneg partition hmem) (by omega)

theorem selects_of_parseResetTopic (h : parseResetTopic value = .ok (topic, selection)) :
    ∃ partitions, Selects value topic partitions ∧ selection = partitions.map (.ofList ·) := by
  rw [parseResetTopic] at h
  cases hsplit : splitOnce value ':' with
  | none =>
    simp only [hsplit, bind_eq_ok, failIf_eq_ok, pure_eq_ok] at h
    obtain ⟨-, hne, hvalue⟩ := h
    cases hvalue
    exact ⟨none, .topic hne (splitOnce_eq_none.1 hsplit), rfl⟩
  | some pieces =>
    obtain ⟨before, list⟩ := pieces
    obtain ⟨hsep, rfl⟩ := splitOnce_eq_some.1 hsplit
    simp only [hsplit, bind_eq_ok, failIf_eq_ok, pure_eq_ok, not_or] at h
    obtain ⟨-, ⟨hne, hlist, hlist'⟩, partitions, hparse, -, hnonneg, hvalue⟩ := h
    cases hvalue
    refine ⟨some partitions, .partitions hne hsep hlist hlist' ?_ ?_, rfl⟩
    · exact (forall₂_of_mapM_ok hparse).imp fun _ _ hpiece => mapError_eq_ok.1 hpiece
    · intro partition hmem
      have hpartition : ¬ partition < 0 := fun hneg => hnonneg ⟨partition, hmem, hneg⟩
      omega

/-- A value is accepted exactly when it selects something, and that is what it is read as. -/
theorem parseResetTopic_eq_ok : parseResetTopic value = .ok (topic, selection) ↔
    ∃ partitions, Selects value topic partitions ∧ selection = partitions.map (.ofList ·) := by
  refine ⟨selects_of_parseResetTopic, ?_⟩
  rintro ⟨partitions, hselects, rfl⟩
  exact parseResetTopic_of_selects hselects

/-! ## All values -/

/-- A topic with the partitions that are selected, or all of them. -/
abbrev Selected := String × Option (Std.TreeSet Int)

/-- Merge a selection into the map. -/
def addSelection (topics : ResetTopics) (selected : Selected) : ResetTopics :=
  topics.insert selected.1
    ((topics[selected.1]?).elim selected.2 fun current => mergeSelections current selected.2)

theorem foldlM_parseResetTopic (values : List String) (topics : ResetTopics) :
    values.foldlM (fun topics value => do
      let (topic, partitions) ← parseResetTopic value
      return topics.insert topic
        ((topics[topic]?).elim partitions fun current => mergeSelections current partitions))
      topics =
    (values.mapM parseResetTopic).map fun selections => selections.foldl addSelection topics := by
  induction values generalizing topics with
  | nil => rfl
  | cons value values ih =>
    rw [List.foldlM_cons, List.mapM_cons]
    cases hparse : parseResetTopic value with
    | error e => rfl
    | ok selected =>
      rw [ok_bind, ok_bind]
      refine (ih _).trans ?_
      cases values.mapM parseResetTopic with
      | error e => rfl
      | ok selections => rfl

/-- All the values are read before anything is merged. -/
theorem parseResetTopics_eq (values : List String) : parseResetTopics values =
    (values.mapM parseResetTopic).map fun selections => selections.foldl addSelection ∅ :=
  foldlM_parseResetTopic values ∅

/-- The map is the union of some selections. -/
structure IsUnion (selections : List Selected) (topics : ResetTopics) : Prop where
  mem_iff : ∀ topic, topic ∈ topics ↔ ∃ selection, (topic, selection) ∈ selections
  whole_iff : ∀ topic, topics[topic]? = some none ↔ (topic, none) ∈ selections
  partitions_iff : ∀ topic set, topics[topic]? = some (some set) → ∀ partition,
    partition ∈ set ↔ ∃ set', (topic, some set') ∈ selections ∧ partition ∈ set'

theorem isUnion_nil : IsUnion [] ∅ where
  mem_iff topic := by simp
  whole_iff topic := by simp
  partitions_iff topic set h := by simp at h

theorem getElem?_addSelection (topics : ResetTopics) (selected : Selected) (topic : String) :
    (addSelection topics selected)[topic]? =
      if selected.1 = topic then
        some ((topics[topic]?).elim selected.2 fun current => mergeSelections current selected.2)
      else topics[topic]? := by
  rw [addSelection, Std.TreeMap.getElem?_insert]
  by_cases h : selected.1 = topic
  · simp [h]
  · simp [h]

/-- What the map holds for a topic after a selection was merged into `current`. -/
theorem elim_mergeSelections_eq_none {current : Option (Option (Std.TreeSet Int))} :
    (current.elim selection fun old => mergeSelections old selection) = none ↔
      current = some none ∨ selection = none := by
  cases current with
  | none => simp
  | some old => cases old <;> cases selection <;> simp [mergeSelections]

theorem elim_mergeSelections_eq_some {current : Option (Option (Std.TreeSet Int))}
    {set : Std.TreeSet Int}
    (h : (current.elim selection fun old => mergeSelections old selection) = some set) :
    current ≠ some none ∧ ∃ new, selection = some new ∧ ∀ partition, partition ∈ set ↔
      (∃ old, current = some (some old) ∧ partition ∈ old) ∨ partition ∈ new := by
  cases current with
  | none => exact ⟨nofun, set, h, by simp⟩
  | some old =>
    cases old with
    | none => cases h
    | some old =>
      cases selection with
      | none => cases h
      | some new =>
        cases h
        exact ⟨nofun, new, rfl, by simp [Std.TreeSet.mem_insertMany_list]⟩

/-- Merging one more selection keeps the union. -/
theorem IsUnion.addSelection {selections : List Selected} {topics : ResetTopics}
    (h : IsUnion selections topics) (selected : Selected) :
    IsUnion (selections ++ [selected]) (addSelection topics selected) := by
  obtain ⟨name, new⟩ := selected
  have hother : ∀ {topic selection}, name ≠ topic →
      ((topic, selection) ∈ selections ++ [(name, new)] ↔ (topic, selection) ∈ selections) := by
    intro topic selection hne
    simp [Ne.symm hne]
  refine ⟨?_, ?_, ?_⟩
  · intro topic
    rw [Groups.addSelection, Std.TreeMap.mem_insert, h.mem_iff]
    by_cases hname : name = topic
    · simp [hname]
    · simp [hname, hother hname]
  · intro topic
    rw [getElem?_addSelection]
    by_cases hname : name = topic
    · rw [if_pos hname, Option.some.injEq, elim_mergeSelections_eq_none, h.whole_iff]
      simp [hname, eq_comm]
    · rw [if_neg hname, hother hname]
      exact h.whole_iff topic
  · intro topic set hset partition
    rw [getElem?_addSelection] at hset
    by_cases hname : name = topic
    · rw [if_pos hname, Option.some.injEq] at hset
      obtain ⟨hpart, set', hnew, hmem⟩ := elim_mergeSelections_eq_some hset
      -- what the map held before is the union of the selections before
      have hold : (∃ old, topics[topic]? = some (some old) ∧ partition ∈ old) ↔
          ∃ old, (topic, some old) ∈ selections ∧ partition ∈ old := by
        refine ⟨?_, ?_⟩
        · rintro ⟨old, hget, hold⟩
          exact (h.partitions_iff topic old hget partition).1 hold
        · rintro ⟨old, hselected, hold⟩
          obtain ⟨current, hget⟩ := Std.TreeMap.mem_iff_isSome_getElem?.1
            ((h.mem_iff topic).2 ⟨_, hselected⟩) |> Option.isSome_iff_exists.1
          cases current with
          | none => exact absurd hget hpart
          | some current =>
            exact ⟨current, hget, (h.partitions_iff topic current hget partition).2
              ⟨old, hselected, hold⟩⟩
      rw [hmem, hold, hname, show new = some set' from hnew]
      simp [or_and_right, exists_or, eq_comm]
    · rw [if_neg hname] at hset
      simp only [hother hname]
      exact h.partitions_iff topic set hset partition

/-- Merging a list of selections gives their union. -/
theorem isUnion_foldl (selections : List Selected) :
    IsUnion selections (selections.foldl addSelection ∅) := by
  induction selections using List.reverseRecOn with
  | nil => exact isUnion_nil
  | append_singleton selections selected ih =>
    rw [List.foldl_append]
    exact ih.addSelection selected

/-- A map as a list, in the order of its topics, with the partitions in theirs. -/
def ResetTopics.entries (topics : ResetTopics) : List (String × Option (List Int)) :=
  topics.toList.map fun (topic, set) => (topic, set.map (·.toList))

theorem ResetTopics.mem_entries {topics : ResetTopics} {topic : String}
    {partitions : Option (List Int)} : (topic, partitions) ∈ topics.entries ↔
      ∃ set, topics[topic]? = some set ∧ set.map (·.toList) = partitions := by
  simp only [entries, List.mem_map, Prod.exists, Std.TreeMap.mem_toList_iff_getElem?_eq_some,
    Prod.mk.injEq]
  refine ⟨?_, ?_⟩
  · rintro ⟨_, set, hget, rfl, hpartitions⟩
    exact ⟨set, hget, hpartitions⟩
  · rintro ⟨set, hget, hpartitions⟩
    exact ⟨topic, set, hget, rfl, hpartitions⟩

theorem IsUnion.getElem?_eq_some {selections selections' : List Selected}
    {topics topics' : ResetTopics} (h : IsUnion selections topics)
    (h' : IsUnion selections' topics') (hsame : ∀ selected, selected ∈ selections ↔
      selected ∈ selections') {set : Option (Std.TreeSet Int)} (hget : topics[topic]? = some set) :
    ∃ set', topics'[topic]? = some set' ∧ set'.map (·.toList) = set.map (·.toList) := by
  have hmem : topic ∈ topics' := by
    rw [h'.mem_iff]
    simp only [← hsame]
    rw [← h.mem_iff, Std.TreeMap.mem_iff_isSome_getElem?, hget]
    rfl
  obtain ⟨set', hget'⟩ := Option.isSome_iff_exists.1 (Std.TreeMap.mem_iff_isSome_getElem?.1 hmem)
  refine ⟨set', hget', ?_⟩
  have hwhole : set = none ↔ set' = none := by
    have hiff := h.whole_iff topic
    rw [hsame, ← h'.whole_iff, hget, hget', Option.some.injEq, Option.some.injEq] at hiff
    exact hiff
  cases set with
  | none => rw [hwhole.1 rfl]
  | some set =>
    cases set' with
    | none => cases hwhole.2 rfl
    | some set' =>
      have hpartitions : ∀ partition, partition ∈ set' ↔ partition ∈ set := by
        intro partition
        rw [h.partitions_iff topic set hget, h'.partitions_iff topic set' hget']
        simp only [hsame]
      have hequiv : set'.Equiv set := .of_forall_mem_iff hpartitions
      simp [hequiv.toList_eq]

/-- The union depends on which selections there are, and on nothing else. -/
theorem IsUnion.entries_eq {selections selections' : List Selected} {topics topics' : ResetTopics}
    (h : IsUnion selections topics) (h' : IsUnion selections' topics')
    (hsame : ∀ selected, selected ∈ selections ↔ selected ∈ selections') :
    topics.entries = topics'.entries := by
  have hincreasing : ∀ topics : ResetTopics, SortedMap.Increasing compare topics.entries :=
    fun topics => List.pairwise_map.2 (SortedMap.increasing_toList topics)
  refine (hincreasing topics).eq_of_mem_iff (hincreasing topics') ?_
  intro ⟨topic, partitions⟩
  rw [ResetTopics.mem_entries, ResetTopics.mem_entries]
  refine ⟨?_, ?_⟩
  · rintro ⟨set, hget, rfl⟩
    exact h.getElem?_eq_some h' hsame hget
  · rintro ⟨set, hget, rfl⟩
    exact h'.getElem?_eq_some h (fun selected => (hsame selected).symm) hget

/-! ## Main result -/

variable {values : List String} {selections : List Selected}

theorem mem_selections (h : values.mapM parseResetTopic = .ok selections) :
    (topic, selection) ∈ selections ↔ ∃ value ∈ values, ∃ partitions,
      Selects value topic partitions ∧ selection = partitions.map (.ofList ·) := by
  simp only [mem_mapM_ok h, parseResetTopic_eq_ok]

theorem parseResetTopics_eq_ok {topics : ResetTopics} (h : parseResetTopics values = .ok topics) :
    ∃ selections, values.mapM parseResetTopic = .ok selections ∧ IsUnion selections topics := by
  rw [parseResetTopics_eq] at h
  cases hparse : values.mapM parseResetTopic with
  | error e =>
    rw [hparse] at h
    cases h
  | ok selections =>
    rw [hparse] at h
    cases h
    exact ⟨selections, rfl, isUnion_foldl selections⟩

theorem exists_parseResetTopics_ok : (∃ topics, parseResetTopics values = .ok topics) ↔
    ∀ value ∈ values, ∃ topic partitions, Selects value topic partitions := by
  have haccepted : ∀ value, (∃ selected, parseResetTopic value = .ok selected) ↔
      ∃ topic partitions, Selects value topic partitions := by
    intro value
    simp [Prod.exists, parseResetTopic_eq_ok]
  have hmerge : (∃ topics, parseResetTopics values = .ok topics) ↔
      ∃ selections, values.mapM parseResetTopic = .ok selections := by
    rw [parseResetTopics_eq]
    cases values.mapM parseResetTopic <;> simp [Except.map]
  rw [hmerge, exists_mapM_ok_iff]
  simp only [haccepted]

theorem mem_parseResetTopics {topics : ResetTopics} (h : parseResetTopics values = .ok topics) :
    topic ∈ topics ↔ ∃ value ∈ values, ∃ partitions, Selects value topic partitions := by
  obtain ⟨selections, hparse, hunion⟩ := parseResetTopics_eq_ok h
  rw [hunion.mem_iff]
  simp only [mem_selections hparse]
  constructor
  · rintro ⟨_, value, hvalue, partitions, hselects, -⟩
    exact ⟨value, hvalue, partitions, hselects⟩
  · rintro ⟨value, hvalue, partitions, hselects⟩
    exact ⟨_, value, hvalue, partitions, hselects, rfl⟩

theorem parseResetTopics_whole_iff {topics : ResetTopics}
    (h : parseResetTopics values = .ok topics) :
    topics[topic]? = some none ↔ ∃ value ∈ values, Selects value topic none := by
  obtain ⟨selections, hparse, hunion⟩ := parseResetTopics_eq_ok h
  rw [hunion.whole_iff, mem_selections hparse]
  constructor
  · rintro ⟨value, hvalue, partitions, hselects, hnone⟩
    rw [Option.map_eq_none_iff.1 hnone.symm] at hselects
    exact ⟨value, hvalue, hselects⟩
  · rintro ⟨value, hvalue, hselects⟩
    exact ⟨value, hvalue, none, hselects, rfl⟩

theorem parseResetTopics_partitions_iff {topics : ResetTopics}
    (h : parseResetTopics values = .ok topics) {set : Std.TreeSet Int}
    (hset : topics[topic]? = some (some set)) (partition : Int) : partition ∈ set ↔
      ∃ value ∈ values, ∃ partitions, Selects value topic (some partitions) ∧
        partition ∈ partitions := by
  obtain ⟨selections, hparse, hunion⟩ := parseResetTopics_eq_ok h
  rw [hunion.partitions_iff topic set hset]
  simp only [mem_selections hparse]
  constructor
  · rintro ⟨_, ⟨value, hvalue, partitions, hselects, hsome⟩, hmem⟩
    obtain ⟨list, rfl, rfl⟩ := Option.map_eq_some_iff.1 hsome.symm
    exact ⟨value, hvalue, list, hselects, by simpa using hmem⟩
  · rintro ⟨value, hvalue, list, hselects, hmem⟩
    exact ⟨_, ⟨value, hvalue, some list, hselects, rfl⟩, by simpa using hmem⟩

/-- Values that differ in order and number only are merged to the same map. -/
theorem entries_eq_of_mem_iff {values' : List String} {topics topics' : ResetTopics}
    (h : parseResetTopics values = .ok topics) (h' : parseResetTopics values' = .ok topics')
    (hsame : ∀ value, value ∈ values' ↔ value ∈ values) : topics'.entries = topics.entries := by
  obtain ⟨selections, hparse, hunion⟩ := parseResetTopics_eq_ok h
  obtain ⟨selections', hparse', hunion'⟩ := parseResetTopics_eq_ok h'
  refine hunion'.entries_eq hunion fun ⟨topic, selection⟩ => ?_
  rw [mem_selections hparse, mem_selections hparse']
  simp only [hsame]

/-- They are accepted, or refused, alike. -/
theorem parseResetTopics_entries_eq {values' : List String}
    (hsame : ∀ value, value ∈ values' ↔ value ∈ values) :
    (parseResetTopics values').toOption.map ResetTopics.entries =
      (parseResetTopics values).toOption.map ResetTopics.entries := by
  have haccepted : (∃ topics, parseResetTopics values' = .ok topics) ↔
      ∃ topics, parseResetTopics values = .ok topics := by
    rw [exists_parseResetTopics_ok, exists_parseResetTopics_ok]
    simp only [hsame]
  by_cases hok : ∃ topics, parseResetTopics values = .ok topics
  · obtain ⟨topics, h⟩ := hok
    obtain ⟨topics', h'⟩ := haccepted.2 ⟨topics, h⟩
    rw [h, h']
    exact congrArg some (entries_eq_of_mem_iff h h' hsame)
  · have hrefused := mt haccepted.1 hok
    cases h : parseResetTopics values with
    | ok topics => exact absurd ⟨topics, h⟩ hok
    | error e =>
      cases h' : parseResetTopics values' with
      | ok topics' => exact absurd ⟨topics', h'⟩ hrefused
      | error e' => rfl

/-- **The topics are the union** of what the values select: all the values have to be well formed,
a topic is in the map where some value selects it, as a whole where some value does that, and
otherwise with the partitions of all the values. The values may come in any order, and again. -/
theorem parseResetTopics_spec (values : List String) :
    ((∃ topics, parseResetTopics values = .ok topics) ↔
      ∀ value ∈ values, ∃ topic partitions, Selects value topic partitions) ∧
    (∀ topics, parseResetTopics values = .ok topics → ∀ topic,
      (topic ∈ topics ↔ ∃ value ∈ values, ∃ partitions, Selects value topic partitions) ∧
      (topics[topic]? = some none ↔ ∃ value ∈ values, Selects value topic none) ∧
      ∀ set, topics[topic]? = some (some set) → ∀ partition, partition ∈ set ↔
        ∃ value ∈ values, ∃ partitions, Selects value topic (some partitions) ∧
          partition ∈ partitions) ∧
    ∀ values' : List String, (∀ value, value ∈ values' ↔ value ∈ values) →
      (parseResetTopics values').toOption.map ResetTopics.entries =
        (parseResetTopics values).toOption.map ResetTopics.entries := by
  refine ⟨exists_parseResetTopics_ok, ?_, fun values' => parseResetTopics_entries_eq⟩
  intro topics h topic
  refine ⟨mem_parseResetTopics h, parseResetTopics_whole_iff h, ?_⟩
  intro set hset partition
  exact parseResetTopics_partitions_iff h hset partition

end KafkaCli.Groups
