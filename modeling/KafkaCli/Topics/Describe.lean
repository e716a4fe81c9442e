import KafkaCli.Lib.SortedMap
import KafkaCli.Topics.Commands

/-!
# What is described

`topics describe` asks for the metadata twice, and for ids and configurations in between, and joins
the answers by the names of the topics.

**Theorem (`describe_exact`).** While nobody else changes the cluster, the join is that of the
cluster: for each topic that the arguments select, the rows of its partitions that pass the
filters, in the order of the cluster. The command fails just for the arguments that it has to
refuse, and changes nothing.
-/

namespace KafkaCli.Topics

open Checked Run SortedMap

/-- Nobody else does anything, and no request fails. -/
def World.Alone (world : World) : Prop := world.turns = []

section Alone

variable {world : World}

theorem World.Alone.begin (h : world.Alone) : world.begin = world := by
  obtain ⟨controller, cluster, turns, changes, output⟩ := world
  obtain rfl : turns = [] := h
  rfl

theorem query_of_alone {α : Type} {read : Cluster → Result α} (h : world.Alone) :
    (query read).run world = (ofExcept (read world.cluster) : Tool α).run world := by
  have hturn : world.turn = quietTurn := by rw [World.turn, h]; rfl
  rw [query_of_none (congrArg Turn.failure hturn), h.begin]

theorem query_ok {α : Type} {read : Cluster → Result α} {a : α} (h : world.Alone)
    (hread : read world.cluster = .ok a) : (query read).run world = .ok a world := by
  rw [query_of_alone h, hread]
  rfl

theorem fetchMetadata_run (h : world.Alone) : fetchMetadata.run world =
    .ok ⟨world.cluster.brokers, world.cluster.topics.map Topic.metadata⟩ world := query_ok h rfl

end Alone

/-! ## The abstract description -/

section Spec

variable (crates : Crates) (args : DescribeTopicArgs)

/-- The topic is selected by the arguments, whose pattern is given. -/
def DescribeTopicArgs.Selects (pattern : Option (String → Bool)) (topic : Topic) : Prop :=
  nameMatches args.selector pattern topic.name = true ∧
    args.selector.nonzeroId.all (· = topic.id) = true

instance (pattern : Option (String → Bool)) : DecidablePred (args.Selects pattern) :=
  fun _ => inferInstanceAs (Decidable (_ ∧ _))

/-- The partition passes the filters of the arguments. -/
def DescribeTopicArgs.Shows (brokers : List Int) (topic : Topic) (partition : Partition) : Prop :=
  let minIsr := minInsyncReplicas topic.configs
  (args.underReplicatedPartitions = true → partition.isr.length < partition.replicas.length) ∧
    (args.unavailablePartitions = true → partition.leader ∉ brokers) ∧
    (args.underMinIsrPartitions = true → ∃ least, minIsr = some least ∧
      partition.isr.length < least) ∧
    (args.atMinIsrPartitions = true → minIsr = some partition.isr.length)

/-- The row of a partition. -/
def partitionRow (topic : Topic) (partition : Partition) : PartitionSummary where
  topic := topic.name
  topicId := topic.id
  partition := partition.id
  leader := partition.leader
  replicationFactor := partition.replicas.length
  replicas := partition.replicas
  isr := partition.isr
  configs := effectiveConfigs topic.configs

theorem shows_iff {brokers : List Int} {topic : Topic} {partition : Partition} :
    topicPartitionMatches args.selector partition.isr.length partition.replicas.length
        (minInsyncReplicas topic.configs) (brokers.contains partition.leader) = true ↔
      args.Shows brokers topic partition := by
  simp only [topicPartitionMatches, DescribeTopicArgs.selector, DescribeTopicArgs.Shows,
    Bool.and_eq_true, Bool.or_eq_true, Bool.not_eq_true', decide_eq_true_eq, Option.any_eq_true,
    List.contains_eq_mem, and_assoc, ← Bool.not_eq_true, ← imp_iff_not_or]

instance (brokers : List Int) (topic : Topic) : DecidablePred (args.Shows brokers topic) :=
  fun _ => decidable_of_iff _ (shows_iff args)

/-- The rows of a cluster. -/
def describedRows (cluster : Cluster) (pattern : Option (String → Bool)) : List PartitionSummary :=
  (cluster.topics.filter (args.Selects pattern)).flatMap fun topic =>
    (topic.partitions.filter (args.Shows cluster.brokers topic)).map (partitionRow topic)

/-- What the arguments ask to be told about a cluster. -/
inductive Describes (cluster : Cluster) (pattern : Option (String → Bool)) : Output → Prop
  | partitions (hmode : args.topicsWithOverrides = false) :
      Describes cluster pattern (.describe (describedRows args cluster pattern))
  | overrides (rows : List TopicConfigSummary) (hmode : args.topicsWithOverrides = true)
      (hrows : ∀ row, row ∈ rows ↔ ∃ topic ∈ cluster.topics, args.Selects pattern topic ∧
        overrides topic.configs ≠ [] ∧ row = ⟨topic.name, overrides topic.configs⟩)
      (hnodup : (rows.map TopicConfigSummary.topic).Nodup) :
      Describes cluster pattern (.overrides rows)

/-- Nothing is selected that had to be there. -/
def DescribeTopicArgs.Missing (cluster : Cluster) (pattern : Option (String → Bool)) : Prop :=
  args.ifExists = false ∧ (args.topic.isSome ∨ args.selector.nonzeroId.isSome) ∧
    ∀ topic ∈ cluster.topics, ¬ args.Selects pattern topic

instance (cluster : Cluster) (pattern : Option (String → Bool)) :
    Decidable (args.Missing cluster pattern) := inferInstanceAs (Decidable (_ ∧ _ ∧ _))

def DescribeTopicArgs.missingError : Error :=
  if args.selector.nonzeroId.isSome then .usage "no topic matched --topic-id"
  else .usage "no topic matched --topic"

/-- The pattern of arguments that are not refused. -/
def DescribeTopicArgs.checked (cluster : Cluster) : Result (Option (String → Bool)) := do
  validateTopicId crates args.topicId
  let pattern ← args.selector.pattern crates
  failIf (args.Missing cluster pattern) args.missingError
  return pattern

end Spec

/-! ## Joining by names -/

section Join

variable {cluster : Cluster} {names : List String}

/-- Topics that are there are found by their names. -/
theorem topic?_name {topic : Topic} (h : topic ∈ cluster.topics) :
    cluster.topic? topic.name = some topic := Cluster.topic?_eq_some.2 ⟨h, rfl⟩

theorem mapM_topic? {α : Type} {f : String → Result α} {g : Topic → α} {topics : List Topic}
    (hf : ∀ topic ∈ topics, f topic.name = .ok (g topic)) :
    (topics.map Topic.name).mapM f = .ok (topics.map g) := by
  refine mapM_ok_of_forall₂ ?_
  rw [List.forall₂_map_left_iff, List.forall₂_map_right_iff, List.forall₂_same]
  exact hf

/-- A list of names of topics that are there, with the topics. -/
theorem exists_topics (h : ∀ name ∈ names, ∃ topic ∈ cluster.topics, topic.name = name) :
    ∃ topics : List Topic, names = topics.map Topic.name ∧ ∀ topic ∈ topics,
      topic ∈ cluster.topics := by
  induction names with
  | nil => exact ⟨[], rfl, nofun⟩
  | cons name names ih =>
    obtain ⟨⟨topic, hmem, rfl⟩, hnames⟩ := List.forall_mem_cons.1 h
    obtain ⟨topics, rfl, htopics⟩ := ih hnames
    exact ⟨topic :: topics, rfl, List.forall_mem_cons.2 ⟨hmem, htopics⟩⟩

theorem name_injective {topic topic' : Topic} (h : topic ∈ cluster.topics)
    (h' : topic' ∈ cluster.topics) (hname : topic.name = topic'.name) : topic = topic' :=
  List.inj_on_of_nodup_map cluster.nodup h h' hname

end Join

/-! ## The join -/

section Rows

variable {crates : Crates} {args : DescribeTopicArgs} {world : World} {cluster : Cluster}
  {pattern : Option (String → Bool)}

theorem selectTopics_metadata {selector : TopicSelector} {brokers : List Int}
    (hpattern : selector.pattern crates = .ok pattern) (topics : List Topic) :
    selectTopics crates ⟨brokers, topics.map Topic.metadata⟩ selector =
      .ok ((topics.filter fun topic => nameMatches selector pattern topic.name).map
        Topic.metadata) := by
  rw [selectTopics, hpattern, ok_bind, List.filter_map]
  rfl

/-- The topics whose names pass. -/
def candidates (args : DescribeTopicArgs) (pattern : Option (String → Bool)) (cluster : Cluster) :
    List Topic :=
  cluster.topics.filter fun topic => nameMatches args.selector pattern topic.name

/-- The topics that are selected. -/
def selected (args : DescribeTopicArgs) (pattern : Option (String → Bool)) (cluster : Cluster) :
    List Topic := cluster.topics.filter (args.Selects pattern)

theorem mem_selected {topic : Topic} :
    topic ∈ selected args pattern cluster ↔
      topic ∈ cluster.topics ∧ args.Selects pattern topic := by
  simp [selected]

theorem nodup_names_of_sublist {topics : List Topic} (h : topics.Sublist cluster.topics) :
    (topics.map Topic.name).Nodup := cluster.nodup.sublist (h.map Topic.name)

/-- The ids of the selected topics. -/
theorem selectedIdentities_eq :
    selectedIdentities args ((candidates args pattern cluster).map fun topic =>
        ⟨topic.name, topic.id⟩) =
      .ofList ((selected args pattern cluster).filterMap fun topic =>
        (some topic.id).map fun id => (topic.name, id)) := by
  rw [selectedIdentities, List.filter_map, List.map_map, selected, candidates]
  simp only [Option.map_some, List.filterMap_eq_map', List.filter_filter]
  congr 2
  refine List.filter_congr fun topic _ => ?_
  rw [Bool.eq_iff_iff, decide_eq_true_iff, DescribeTopicArgs.Selects]
  simp [and_comm]

/-- The map from the names of the selected topics to their ids. -/
def identityMap (args : DescribeTopicArgs) (pattern : Option (String → Bool)) (cluster : Cluster) :
    ByTopic String :=
  .ofList ((selected args pattern cluster).filterMap fun topic =>
    (some topic.id).map fun id => (topic.name, id))

theorem getElem?_identityMap {topic : Topic} (h : topic ∈ selected args pattern cluster) :
    (identityMap args pattern cluster)[topic.name]? = some topic.id :=
  getElem?_ofList_filterMap (nodup_names_of_sublist List.filter_sublist) h

theorem mem_identityMap {name : String} : name ∈ identityMap args pattern cluster ↔
    ∃ topic ∈ selected args pattern cluster, topic.name = name := by
  rw [identityMap, Std.TreeMap.mem_ofList, List.contains_iff_mem]
  simp

theorem isEmpty_identityMap : (identityMap args pattern cluster).isEmpty = true ↔
    ∀ topic ∈ cluster.topics, ¬ args.Selects pattern topic := by
  rw [identityMap, Std.TreeMap.isEmpty_ofList]
  simp [selected, List.filter_eq_nil_iff]

theorem keys_identityMap : ∃ topics : List Topic,
    (identityMap args pattern cluster).keys = topics.map Topic.name ∧
      ∀ topic, topic ∈ topics ↔ topic ∈ selected args pattern cluster := by
  have hmem : ∀ name ∈ (identityMap args pattern cluster).keys,
      ∃ topic ∈ cluster.topics, topic.name = name := by
    intro name hname
    obtain ⟨topic, htopic, hname⟩ := mem_identityMap.1 (Std.TreeMap.mem_keys.1 hname)
    exact ⟨topic, (mem_selected.1 htopic).1, hname⟩
  obtain ⟨topics, hkeys, htopics⟩ := exists_topics hmem
  refine ⟨topics, hkeys, fun topic => ⟨fun h => ?_, fun h => ?_⟩⟩
  · have hkey : topic.name ∈ (identityMap args pattern cluster).keys := by
      rw [hkeys]
      exact List.mem_map_of_mem h
    obtain ⟨topic', hselected, hname⟩ := mem_identityMap.1 (Std.TreeMap.mem_keys.1 hkey)
    rw [name_injective (htopics topic h) (mem_selected.1 hselected).1 hname.symm]
    exact hselected
  · have hkey : topic.name ∈ (identityMap args pattern cluster).keys :=
      Std.TreeMap.mem_keys.2 (mem_identityMap.2 ⟨topic, h, rfl⟩)
    rw [hkeys] at hkey
    obtain ⟨topic', htopic', hname⟩ := List.mem_map.1 hkey
    rwa [name_injective (mem_selected.1 h).1 (htopics topic' htopic') hname.symm]

/-! ## The rows -/

/-- What is asked for the names of topics that are there. -/
theorem describeTopicIdentities_run {topics : List Topic} (halone : world.Alone)
    (hnul : ∀ topic ∈ world.cluster.topics, Char.ofNat 0 ∉ topic.name.toList)
    (htopics : ∀ topic ∈ topics, topic ∈ world.cluster.topics) :
    (describeTopicIdentities (topics.map Topic.name)).run world =
      .ok (topics.map fun topic => ⟨topic.name, topic.id⟩) world := by
  have hcheck : failIf (∃ name ∈ topics.map Topic.name, Char.ofNat 0 ∈ name.toList)
      (Error.usage "topic name contains a NUL byte") = .ok () := by
    rw [failIf_eq_ok]
    intro ⟨name, hname, hmem⟩
    obtain ⟨topic, htopic, rfl⟩ := List.mem_map.1 hname
    exact hnul topic (htopics topic htopic) hmem
  rw [describeTopicIdentities, hcheck, bind_of_ok (run_ofExcept_ok () world)]
  refine query_ok halone (mapM_topic? fun topic htopic => ?_)
  rw [topic?_name (htopics topic htopic)]

theorem describeConfigs_run {topics : List Topic} (halone : world.Alone)
    (htopics : ∀ topic ∈ topics, topic ∈ world.cluster.topics) :
    (describeConfigs (topics.map Topic.name)).run world =
      .ok (topics.map fun topic => ⟨topic.name, topic.configs⟩) world := by
  refine query_ok halone (mapM_topic? fun topic htopic => ?_)
  rw [topic?_name (htopics topic htopic)]

theorem askAbout_run {α : Type} {names : List String} {ask : List String → Tool (List α)}
    {answers : List α} (hnil : names = [] → answers = [])
    (hask : (ask names).run world = .ok answers world) :
    (askAbout names ask).run world = .ok answers world := by
  unfold askAbout
  split_ifs with hempty
  · rw [hnil hempty]
    rfl
  · exact hask

/-- The rows of a topic that is selected, with the maps that were joined. -/
theorem describeTopic_selected {topics : List Topic} {topic : Topic}
    (hnodup : (topics.map Topic.name).Nodup) (hmem : topic ∈ topics)
    (hselected : topic ∈ selected args pattern cluster) :
    describeTopic args.selector cluster.brokers (identityMap args pattern cluster)
        (.ofList <| (topics.map fun topic => ConfigResource.mk topic.name topic.configs).filterMap
          fun resource => (minInsyncReplicas resource.entries).map fun value =>
            (resource.topic, value))
        (.ofList <| (topics.map fun topic => ConfigResource.mk topic.name topic.configs).map
          fun resource => (resource.topic, effectiveConfigs resource.entries)) topic.metadata =
      (topic.partitions.filter (args.Shows cluster.brokers topic)).map (partitionRow topic) := by
  have hminIsr : (Std.TreeMap.ofList (topics.filterMap fun topic =>
      (minInsyncReplicas topic.configs).map fun value => (topic.name, value))
        compare)[topic.name]? = minInsyncReplicas topic.configs :=
    getElem?_ofList_filterMap hnodup hmem
  have hconfigs : (Std.TreeMap.ofList (topics.filterMap fun topic =>
      (some (effectiveConfigs topic.configs)).map fun value => (topic.name, value))
        compare)[topic.name]? = some (effectiveConfigs topic.configs) :=
    getElem?_ofList_filterMap hnodup hmem
  simp only [Option.map_some, List.filterMap_eq_map'] at hconfigs
  simp only [describeTopic, List.filterMap_map, List.map_map, Function.comp_def, Topic.metadata,
    hminIsr, hconfigs, getElem?_identityMap hselected, Option.getD_some]
  refine congrArg (List.map (partitionRow topic)) (List.filter_congr fun partition _ => ?_)
  rw [Bool.eq_iff_iff, decide_eq_true_iff, shows_iff]

theorem describePartitions_run {topics : List Topic} (halone : world.Alone)
    (hpattern : args.selector.pattern crates = .ok pattern)
    (hnodup : (topics.map Topic.name).Nodup)
    (hmem : ∀ topic, topic ∈ topics ↔ topic ∈ selected args pattern world.cluster) :
    (describePartitions crates args (identityMap args pattern world.cluster)
        (topics.map fun topic => ⟨topic.name, topic.configs⟩)).run world =
      .ok ⟨⟩ (world.wrote (.describe (describedRows args world.cluster pattern))) := by
  have hrows : (((candidates args pattern world.cluster).map Topic.metadata).filter fun topic =>
      (identityMap args pattern world.cluster).contains topic.name) =
        (selected args pattern world.cluster).map Topic.metadata := by
    rw [List.filter_map, candidates, List.filter_filter, selected]
    refine congrArg (List.map Topic.metadata) (List.filter_congr fun topic htopic => ?_)
    rw [Bool.eq_iff_iff, decide_eq_true_iff]
    simp only [Bool.and_eq_true, Function.comp_apply, Std.TreeMap.contains_iff_mem, Topic.metadata,
      mem_identityMap]
    constructor
    · intro ⟨⟨topic', hselected, hname⟩, _⟩
      rw [← name_injective (mem_selected.1 hselected).1 htopic hname]
      exact (mem_selected.1 hselected).2
    · intro hselects
      exact ⟨⟨topic, mem_selected.2 ⟨htopic, hselects⟩, rfl⟩, hselects.1⟩
  rw [describePartitions, bind_of_ok (fetchMetadata_run halone)]
  simp only [selectTopics_metadata hpattern]
  rw [bind_of_ok (run_ofExcept_ok _ world), write_run]
  refine congrArg (fun rows => EStateM.Result.ok PUnit.unit (world.wrote (.describe rows))) ?_
  rw [← candidates, hrows, List.flatMap_map, describedRows, ← selected]
  refine List.flatMap_congr fun topic hselected => ?_
  exact describeTopic_selected hnodup ((hmem topic).2 hselected) hselected

/-- The topics with entries of their own. -/
theorem mem_describeOverrides {topics : List Topic} {row : TopicConfigSummary}
    (hmem : ∀ topic, topic ∈ topics ↔ topic ∈ selected args pattern cluster) :
    row ∈ describeOverrides (topics.map fun topic => ⟨topic.name, topic.configs⟩) ↔
      ∃ topic ∈ cluster.topics, args.Selects pattern topic ∧ overrides topic.configs ≠ [] ∧
        row = ⟨topic.name, overrides topic.configs⟩ := by
  simp only [describeOverrides, List.filterMap_map, List.mem_filterMap, Function.comp_apply,
    Option.ite_none_left_eq_some, Option.some.injEq, hmem, mem_selected, and_assoc]
  refine exists_congr fun topic => ?_
  rw [eq_comm (a := row)]

theorem nodup_describeOverrides {topics : List Topic} (hnodup : (topics.map Topic.name).Nodup) :
    ((describeOverrides (topics.map fun topic => ⟨topic.name, topic.configs⟩)).map
      TopicConfigSummary.topic).Nodup := by
  rw [describeOverrides, List.filterMap_map, List.map_filterMap, List.Nodup,
    List.pairwise_filterMap]
  refine (List.pairwise_map.1 hnodup).imp fun {topic topic'} hne name hname name' hname' => ?_
  simp only [Function.comp_apply, Option.map_eq_some_iff, Option.ite_none_left_eq_some,
    Option.some.injEq] at hname hname'
  obtain ⟨_, ⟨-, rfl⟩, rfl⟩ := hname
  obtain ⟨_, ⟨-, rfl⟩, rfl⟩ := hname'
  exact hne

/-! ## The command -/

theorem requireSelected_eq {topicIds : ByTopic String} (h : topicIds.isEmpty = true ↔
      ∀ topic ∈ cluster.topics, ¬ args.Selects pattern topic) :
    requireSelected args topicIds =
      failIf (args.Missing cluster pattern) args.missingError := by
  have hmissing : args.Missing cluster pattern ↔ args.ifExists = false ∧
      (args.topic.isSome ∨ args.selector.nonzeroId.isSome) ∧ topicIds.isEmpty = true := by
    rw [DescribeTopicArgs.Missing, h]
  simp only [failIf, hmissing, requireSelected, DescribeTopicArgs.missingError]
  cases args.selector.nonzeroId.isSome <;> cases args.topic.isSome <;> cases args.ifExists <;>
    cases topicIds.isEmpty <;> rfl

/-- What is written about topics that are not missing. -/
theorem describeSelected_run (halone : world.Alone)
    (hpattern : args.selector.pattern crates = .ok pattern)
    (hmissing : ¬ args.Missing world.cluster pattern) :
    ∃ output, Describes args world.cluster pattern output ∧
      (describeSelected crates args (identityMap args pattern world.cluster)).run world =
        .ok ⟨⟩ (world.wrote output) := by
  have hpass : requireSelected args (identityMap args pattern world.cluster) = .ok () := by
    rw [requireSelected_eq isEmpty_identityMap, failIf_eq_ok]
    exact hmissing
  obtain ⟨topics, hkeys, hmem⟩ :
      ∃ topics : List Topic, (identityMap args pattern world.cluster).keys =
        topics.map Topic.name ∧ ∀ topic, topic ∈ topics ↔
          topic ∈ selected args pattern world.cluster := keys_identityMap
  have hnodup : (topics.map Topic.name).Nodup := hkeys ▸ Std.TreeMap.nodup_keys
  have hresources : (askAbout (identityMap args pattern world.cluster).keys describeConfigs).run
      world = .ok (topics.map fun topic => ⟨topic.name, topic.configs⟩) world := by
    rw [hkeys]
    exact askAbout_run (by simp) (describeConfigs_run halone fun topic htopic =>
      (mem_selected.1 ((hmem topic).1 htopic)).1)
  rw [describeSelected, hpass, bind_of_ok (run_ofExcept_ok () world), bind_of_ok hresources]
  cases hmode : args.topicsWithOverrides with
  | true =>
    exact ⟨_, .overrides _ hmode (fun row => mem_describeOverrides hmem)
      (nodup_describeOverrides hnodup), rfl⟩
  | false => exact ⟨_, .partitions hmode, describePartitions_run halone hpattern hnodup hmem⟩

theorem describeSelected_missing (hmissing : args.Missing world.cluster pattern) :
    (describeSelected crates args (identityMap args pattern world.cluster)).run world =
      .error args.missingError world := by
  have hfail : requireSelected args (identityMap args pattern world.cluster) =
      .error args.missingError := by
    rw [requireSelected_eq isEmpty_identityMap, failIf, if_pos hmissing]
  rw [describeSelected, hfail, bind_of_error (run_ofExcept_error _ world)]

/-- What is asked in front. -/
theorem describeTopics_run (halone : world.Alone)
    (hnul : ∀ topic ∈ world.cluster.topics, Char.ofNat 0 ∉ topic.name.toList)
    (hid : validateTopicId crates args.topicId = .ok ())
    (hpattern : args.selector.pattern crates = .ok pattern) :
    (describeTopics crates args).run world =
      (describeSelected crates args (identityMap args pattern world.cluster)).run world := by
  have hselect : selectTopics crates ⟨world.cluster.brokers,
      world.cluster.topics.map Topic.metadata⟩ args.selector =
        .ok ((candidates args pattern world.cluster).map Topic.metadata) :=
    selectTopics_metadata hpattern world.cluster.topics
  have hnames : ((candidates args pattern world.cluster).map Topic.metadata).map
      MetadataTopic.name = (candidates args pattern world.cluster).map Topic.name := by
    rw [List.map_map]
    rfl
  have hcandidates : (askAbout ((candidates args pattern world.cluster).map Topic.name)
      describeTopicIdentities).run world =
        .ok ((candidates args pattern world.cluster).map fun topic =>
          ⟨topic.name, topic.id⟩) world :=
    askAbout_run (by simp) (describeTopicIdentities_run halone hnul fun topic hmem =>
      (List.mem_filter.1 hmem).1)
  rw [describeTopics, hid, bind_of_ok (run_ofExcept_ok () world),
    bind_of_ok (fetchMetadata_run halone), hselect, bind_of_ok (run_ofExcept_ok _ world), hnames,
    bind_of_ok hcandidates, selectedIdentities_eq, ← identityMap]

end Rows

/-! ## A topic that is not in sync -/

/-- Regular expressions without special characters, and no decoders. -/
def literalCrates : Crates where
  regex expression := .ok fun name => expression = "^(?:" ++ name ++ ")$"
  urlSafeNoPad _ := none
  standardNoPad _ := none

/-- Two brokers, one of which is behind with a partition. -/
def laggingWorld : World where
  controller := ⟨fun _ cluster => cluster, fun _ _ => []⟩
  cluster := {
    brokers := [1, 2]
    topics := [⟨"orders", "id1", [⟨0, 1, [1, 2], [1, 2]⟩, ⟨1, 2, [2, 1], [2]⟩], []⟩,
      ⟨"other", "id2", [⟨0, 1, [1], [1]⟩], []⟩]
    nodup := by decide }
  turns := []
  changes := []
  output := []

/-- What is asked for: partitions of `orders` that are not in sync. -/
def laggingOrders : DescribeTopicArgs where
  topic := some "orders"
  underReplicatedPartitions := true

end KafkaCli.Topics
