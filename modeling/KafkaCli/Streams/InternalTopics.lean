import KafkaCli.Groups.ResetTarget

/-!
# Internal topics

Kafka Streams names the topics that it makes for an application after the application. A name is
that of an internal topic of a group when it starts with the group's name and ends like one.
There are two ways to find the internal topics of a group: in the description of its topology,
and among the names of all topics.
-/

namespace KafkaCli.Streams

open Groups Text

def matchesStreamsInternalTopicFormat (host : Host) (topic : String) : Bool :=
  endsWith topic "-changelog" || endsWith topic "-repartition" ||
    endsWith topic "-subscription-registration-topic" ||
    endsWith topic "-subscription-response-topic" || host.isForeignKeyTopic topic

/-- The source topics of all subtopologies. -/
def sourceTopics (description : StreamsGroupDescription) : List String :=
  (description.topology.getD []).flatMap (·.sourceTopics)

/-- The internal topics that the topology of a group names. -/
def streamsInternalTopics (description : StreamsGroupDescription) : Std.TreeSet String :=
  .ofList (((description.topology.getD []).flatMap fun subtopology =>
      subtopology.repartitionSourceTopics ++ subtopology.stateChangelogTopics).filter fun topic =>
    topic ∉ sourceTopics description && startsWith topic (description.groupId ++ "-") &&
      (endsWith topic "-repartition" || endsWith topic "-changelog"))

/-- The topics whose names look like internal topics of the application. -/
def inferredStreamsInternalTopics (host : Host) (applicationId : String) (allTopics : List String)
    (inputTopics intermediateTopics : Std.TreeSet String) : Std.TreeSet String :=
  .ofList (allTopics.filter fun topic =>
    startsWith topic (applicationId ++ "-") && topic ∉ inputTopics && topic ∉ intermediateTopics &&
      matchesStreamsInternalTopicFormat host topic)

/-- The name is one of an internal topic of the group, and the group does not read it. -/
structure IsInternal (host : Host) (group : String) (read : List String) (topic : String) :
    Prop where
  startsWith_group : startsWith topic (group ++ "-") = true
  hasSuffix : matchesStreamsInternalTopicFormat host topic = true
  not_read : topic ∉ read

theorem isInternal_of_mem_streamsInternalTopics {host : Host}
    {description : StreamsGroupDescription} {topic : String}
    (h : topic ∈ streamsInternalTopics description) :
    IsInternal host description.groupId (sourceTopics description) topic := by
  have hmem := List.mem_filter.1 (List.contains_iff_mem.1 (Std.TreeSet.mem_ofList.1 h))
  simp only [Bool.and_eq_true, Bool.or_eq_true, decide_eq_true_eq] at hmem
  obtain ⟨-, ⟨hread, hstart⟩, hsuffix⟩ := hmem
  refine ⟨hstart, ?_, hread⟩
  rcases hsuffix with hrepartition | hchangelog
  · simp [matchesStreamsInternalTopicFormat, hrepartition]
  · simp [matchesStreamsInternalTopicFormat, hchangelog]

theorem isInternal_of_mem_inferred {host : Host} {applicationId : String} {allTopics : List String}
    {inputTopics intermediateTopics : Std.TreeSet String} {topic : String}
    (h : topic ∈ inferredStreamsInternalTopics host applicationId allTopics inputTopics
      intermediateTopics) :
    IsInternal host applicationId (inputTopics.toList ++ intermediateTopics.toList) topic := by
  have hmem := List.mem_filter.1 (List.contains_iff_mem.1 (Std.TreeSet.mem_ofList.1 h))
  simp only [Bool.and_eq_true, decide_eq_true_eq] at hmem
  obtain ⟨-, ⟨⟨hstart, hinput⟩, hintermediate⟩, hsuffix⟩ := hmem
  refine ⟨hstart, hsuffix, ?_⟩
  rw [List.mem_append, Std.TreeSet.mem_toList, Std.TreeSet.mem_toList]
  exact not_or.2 ⟨hinput, hintermediate⟩

end KafkaCli.Streams
