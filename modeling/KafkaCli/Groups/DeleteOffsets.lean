import KafkaCli.Groups.Calls
import KafkaCli.Groups.TopicSelection

/-!
# Deleting committed offsets

`groups delete-offsets` asks for the metadata of each topic that its values name. It sends then one
request for the partitions of all of them, or lists them where it is not to be executed.

**Theorem (`deleteOffsets_exact`).** The command names exactly the partitions that its values ask
for and that were there when their topic was asked for, each of them once, whatever the cluster
answers and whatever happens to it in between. What is listed without `--execute` is what is deleted
with it.
-/

namespace KafkaCli.Groups

open Run Session

structure DeleteOffsetRow where
  group : String
  topic : String
  partition : Int
  deriving DecidableEq, Repr

inductive DeletionCall
  | createConsumer
  | fetchMetadata (topic : String)
  | createAdmin
  | deleteOffsets (group : String) (partitions : List (String × Int)) (timeoutMs : Int)
  | print (rows : List DeleteOffsetRow)

/-- What comes back for a call. For a deletion these are the errors of the groups; those of the
partitions are not read. -/
@[reducible] def DeletionReply : DeletionCall → Type
  | .fetchMetadata _ => List TopicMetadata
  | .deleteOffsets _ _ _ => List (Option String)
  | .createConsumer | .createAdmin | .print _ => Unit

abbrev DeletionServer := Server DeletionReply Error

abbrev DeletionCommand := Client DeletionReply Error

/-! ## The partitions of a topic -/

/-- The topic in the metadata, where there is one without an error. -/
def describedIn (metadata : List TopicMetadata) (topic : String) : Option TopicMetadata :=
  metadata.find? fun candidate => candidate.name = topic && candidate.error.isNone

/-- The partitions that are selected, or all that exist. -/
def selectExisting (topic : String) (selected : Option (Std.TreeSet Int))
    (metadata : List TopicMetadata) : Result (List Int) := do
  let described ← (describedIn metadata topic).elim
    (.error (.usage s!"topic {topic} not found")) .ok
  let existing : Std.TreeSet Int := .ofList described.partitions
  let partitions := selected.getD existing
  -- the difference of the sets is walked in its order
  (partitions.toList.find? (· ∉ existing)).elim (.ok partitions.toList) fun missing =>
    .error (.usage s!"partition {topic}:{missing} does not exist")

variable (server : DeletionServer)

def resolveSelection (selection : Selected) : DeletionCommand (String × List Int) := do
  let metadata : List TopicMetadata ← ask server (.fetchMetadata selection.1)
  let partitions ← ofExcept (selectExisting selection.1 selection.2 metadata)
  return (selection.1, partitions)

def resolveTopicPartitionSelections (values : List String) :
    DeletionCommand (List (String × List Int)) := do
  let selections ← ofExcept (parseResetTopics values)
  ask server .createConsumer
  selections.toList.mapM (resolveSelection server)

/-! ## The command -/

/-- All selected partitions. -/
def selectedPartitions (selections : List (String × List Int)) : List (String × Int) :=
  selections.flatMap fun (topic, partitions) => partitions.map (topic, ·)

/-- The wrapper of the request. -/
def deleteGroupOffsets (group : String) (selections : List (String × List Int)) (timeout : Nat) :
    DeletionCommand Unit := do
  let timeoutMs ← ofExcept (durationMs timeout)
  ofExcept (checkNul group "group contains a NUL byte")
  ofExcept (Checked.failIf (¬ (selectedPartitions selections).length < 2 ^ 31)
    (.usage "too many partitions"))
  forM selections fun selection =>
    ofExcept (checkNul selection.1 "topic contains a NUL byte")
  let errors : List (Option String) ←
    ask server (.deleteOffsets group (selectedPartitions selections) timeoutMs)
  ofExcept ((errors.findSome? id).elim (.ok ()) fun error => .error (.config error))

def deleteOffsetRows (group : String) (partitions : List (String × Int)) : List DeleteOffsetRow :=
  partitions.map fun (topic, partition) => { group, topic, partition }

/-- `delete_group_offsets_command`. -/
def deleteGroupOffsetsCommand (group : String) (topics : List String) (execute : Bool)
    (timeout : Nat) : DeletionCommand Unit := do
  let selections ← resolveTopicPartitionSelections server topics
  if execute then do
    ask server .createAdmin
    deleteGroupOffsets server group selections timeout
  else ask server (.print (deleteOffsetRows group (selectedPartitions selections)))

/-! ## What is asked for -/

/-- The rows of a call that lists or deletes offsets. -/
def DeletionCall.rows? : DeletionCall → Option (List DeleteOffsetRow)
  | .deleteOffsets group partitions _ => some (deleteOffsetRows group partitions)
  | .print rows => some rows
  | _ => none

def DeletionCall.IsDeletion : DeletionCall → Prop
  | .deleteOffsets _ _ _ => True
  | _ => False

/-- A value names the whole topic. -/
def NamesWhole (values : List String) (topic : String) : Prop :=
  ∃ value ∈ values, Selects value topic none

/-- A value asks for the partition. -/
def Wanted (values : List String) (topic : String) (partition : Int) : Prop :=
  NamesWhole values topic ∨
    ∃ value ∈ values, ∃ partitions, Selects value topic (some partitions) ∧ partition ∈ partitions

/-- The partition was there when its topic was asked for. -/
def Existed (session : Transcript DeletionReply Error) (topic : String) (partition : Int) : Prop :=
  ∃ metadata described, ⟨.fetchMetadata topic, .ok metadata⟩ ∈ session ∧
    describedIn metadata topic = some described ∧ partition ∈ described.partitions

/-- The rows are those that the values ask for, sorted. A partition that is not there is left out
only of a topic that is named as a whole. -/
structure ExactRows (group : String) (values : List String)
    (session : Transcript DeletionReply Error) (rows : List DeleteOffsetRow) : Prop where
  mem_iff : ∀ row, row ∈ rows ↔ row.group = group ∧ Wanted values row.topic row.partition ∧
    Existed session row.topic row.partition
  increasing : rows.Pairwise fun row row' => compare row.topic row'.topic = .lt ∨
    row.topic = row'.topic ∧ row.partition < row'.partition
  existed : ∀ topic partition, Wanted values topic partition → ¬ NamesWhole values topic →
    Existed session topic partition

/-- What the command may ask for, after what it has asked. -/
def DeletionAllowed (group : String) (values : List String) (execute : Bool)
    (session : Transcript DeletionReply Error) (exchange : Exchange DeletionReply Error) : Prop :=
  ∀ rows, exchange.request.rows? = some rows →
    ExactRows group values session rows ∧ (exchange.request.IsDeletion ↔ execute = true) ∧
      ∀ earlier ∈ session, earlier.request.rows? = none

/-! ## Selected partitions -/

section Selections

variable {topic : String} {selected : Option (Std.TreeSet Int)} {metadata : List TopicMetadata}
  {partitions : List Int}

theorem mem_topics_iff {topics : ResetTopics} :
    topic ∈ topics ↔ ∃ selected, topics[topic]? = some selected := by
  rw [Std.TreeMap.mem_iff_isSome_getElem?, Option.isSome_iff_exists]

theorem selectExisting_eq_ok (h : selectExisting topic selected metadata = .ok partitions) :
    ∃ described, describedIn metadata topic = some described ∧
      partitions = (selected.getD (.ofList described.partitions)).toList ∧
      ∀ partition ∈ partitions, partition ∈ described.partitions := by
  rw [selectExisting] at h
  obtain ⟨described, hdescribed, hrest⟩ := Checked.bind_eq_ok.1 h
  have hfound : describedIn metadata topic = some described := by
    cases hfind : describedIn metadata topic with
    | none =>
      rw [hfind] at hdescribed
      cases hdescribed
    | some found =>
      rw [hfind] at hdescribed
      cases hdescribed
      rfl
  refine ⟨described, hfound, ?_⟩
  simp only at hrest
  cases hmissing : (selected.getD (.ofList described.partitions)).toList.find?
      (· ∉ (Std.TreeSet.ofList described.partitions : Std.TreeSet Int)) with
  | some missing =>
    rw [hmissing] at hrest
    cases hrest
  | none =>
    rw [hmissing] at hrest
    cases hrest
    refine ⟨rfl, fun partition hpartition => ?_⟩
    simpa using List.find?_eq_none.1 hmissing partition hpartition

theorem mem_selectExisting (h : selectExisting topic selected metadata = .ok partitions)
    {partition : Int} : partition ∈ partitions ↔ (∀ set, selected = some set → partition ∈ set) ∧
      ∃ described, describedIn metadata topic = some described ∧
        partition ∈ described.partitions := by
  obtain ⟨described, hfound, rfl, hexisting⟩ := selectExisting_eq_ok h
  simp only [hfound, Option.some.injEq, exists_eq_left']
  cases selected with
  | none => simp
  | some set =>
    simp only [Option.getD_some, Std.TreeSet.mem_toList, Option.some.injEq, forall_eq']
    exact ⟨fun hmem => ⟨hmem, hexisting partition (by simpa using hmem)⟩, And.left⟩

theorem increasing_selectExisting (h : selectExisting topic selected metadata = .ok partitions) :
    partitions.Pairwise (· < ·) := by
  obtain ⟨_, -, rfl, -⟩ := selectExisting_eq_ok h
  refine Std.TreeSet.ordered_toList.imp fun hlt => ?_
  simpa [Int.compare_eq_lt] using hlt

theorem selectExisting_of_existing {described : TopicMetadata}
    (hfound : describedIn metadata topic = some described)
    (hset : ∀ set, selected = some set → ∀ partition ∈ set, partition ∈ described.partitions) :
    ∃ partitions, selectExisting topic selected metadata = .ok partitions := by
  have hmissing : (selected.getD (.ofList described.partitions)).toList.find?
      (· ∉ (Std.TreeSet.ofList described.partitions : Std.TreeSet Int)) = none := by
    refine List.find?_eq_none.2 fun partition hpartition => ?_
    cases selected with
    | none => simpa using hpartition
    | some set => simpa using hset set rfl partition (by simpa using hpartition)
  refine ⟨(selected.getD (.ofList described.partitions)).toList, ?_⟩
  rw [selectExisting, hfound]
  simp only [Option.elim, Checked.ok_bind]
  rw [hmissing]

end Selections

/-! ## Exact rows -/

section Exact

variable {group : String} {values : List String} {session session' : Transcript DeletionReply Error}
  {rows rows' : List DeleteOffsetRow}

theorem ExactRows.nodup (h : ExactRows group values session rows) : rows.Nodup := by
  refine h.increasing.imp fun {row row'} hlt heq => ?_
  subst heq
  rcases hlt with hlt | ⟨-, hlt⟩
  · exact SortedMap.not_lt_self row.topic hlt
  · exact absurd hlt (Int.lt_irrefl _)

/-- The rows are a function of the values and of what existed. -/
theorem ExactRows.eq (h : ExactRows group values session rows)
    (h' : ExactRows group values session' rows')
    (hsame : ∀ topic partition, Existed session topic partition ↔
      Existed session' topic partition) : rows = rows' := by
  have hmem : ∀ row, row ∈ rows ↔ row ∈ rows' := by
    intro row
    rw [h.mem_iff, h'.mem_iff, hsame]
  refine List.Perm.eq_of_pairwise ?_ h.increasing h'.increasing
    ((List.perm_ext_iff_of_nodup h.nodup h'.nodup).2 hmem)
  rintro row row' _ _ (hlt | ⟨htopic, hlt⟩) (hgt | ⟨htopic', hgt⟩)
  · exact absurd (Std.TransCmp.lt_trans hlt hgt) (SortedMap.not_lt_self _)
  · rw [htopic'] at hlt
    exact absurd hlt (SortedMap.not_lt_self _)
  · rw [htopic] at hgt
    exact absurd hgt (SortedMap.not_lt_self _)
  · exact absurd hgt (by omega)

end Exact

/-! ## The answers for the topics -/

section Answers

variable {group : String} {values : List String} {execute : Bool}

theorem allowed_of_none {session : Transcript DeletionReply Error}
    {exchange : Exchange DeletionReply Error} (h : exchange.request.rows? = none) :
    DeletionAllowed group values execute session exchange := by
  intro rows hrows
  rw [h] at hrows
  cases hrows

/-- The exchange in which the metadata of a topic came. -/
def metadataOf (answers : String → List TopicMetadata) (selection : Selected) :
    Exchange DeletionReply Error :=
  ⟨.fetchMetadata selection.1, .ok (answers selection.1)⟩

/-- A selection is resolved by the metadata of its topic. -/
def ResolvedBy (answers : String → List TopicMetadata) (selection : Selected)
    (resolved : String × List Int) : Prop :=
  resolved.1 = selection.1 ∧
    selectExisting selection.1 selection.2 (answers selection.1) = .ok resolved.2

variable {server : DeletionServer}

theorem ends_resolveSelection (selection : Selected) (before : Transcript DeletionReply Error) :
    Ends (Follows (DeletionAllowed group values execute)) (fun resolved after =>
      ∃ metadata, after = before ++ [⟨.fetchMetadata selection.1, .ok metadata⟩] ∧
        resolved.1 = selection.1 ∧ selectExisting selection.1 selection.2 metadata = .ok resolved.2)
      before (resolveSelection server selection) := by
  refine ends_bind_ask (fun _ => allowed_of_none rfl) fun metadata => ?_
  refine .bind_ofExcept fun partitions hpartitions => ?_
  exact .pure ⟨metadata, rfl, rfl, hpartitions⟩

/-- Each topic is asked for once, and its partitions are selected by the answer. -/
theorem ends_mapM_resolveSelection {selections : List Selected}
    (hnodup : (selections.map Prod.fst).Nodup) (before : Transcript DeletionReply Error) :
    Ends (Follows (DeletionAllowed group values execute)) (fun resolved after =>
      ∃ answers, after = before ++ selections.map (metadataOf answers) ∧
        List.Forall₂ (ResolvedBy answers) selections resolved)
      before (selections.mapM (resolveSelection server)) := by
  induction selections generalizing before with
  | nil =>
    rw [List.mapM_nil]
    exact .pure ⟨fun _ => [], by simp, .nil⟩
  | cons selection selections ih =>
    rw [List.map_cons, List.nodup_cons] at hnodup
    rw [List.mapM_cons]
    refine (ends_resolveSelection selection before).bind ?_
    rintro first _ ⟨metadata, rfl, hfirst⟩
    refine (ih hnodup.2 _).bind ?_
    rintro rest _ ⟨answers, rfl, hrest⟩
    -- the topic is asked for only here, so the answers for the others stay
    have hother : ∀ other ∈ selections,
        (if other.1 = selection.1 then metadata else answers other.1) = answers other.1 := by
      intro other hmem
      have hne : other.1 ≠ selection.1 := fun heq => hnodup.1 (heq ▸ List.mem_map_of_mem hmem)
      exact if_neg hne
    refine .pure ⟨fun topic => if topic = selection.1 then metadata else answers topic, ?_, ?_⟩
    · have hmap : selections.map (metadataOf fun topic =>
          if topic = selection.1 then metadata else answers topic) =
            selections.map (metadataOf answers) :=
        List.map_congr_left fun other hmem => by simp only [metadataOf, hother other hmem]
      rw [List.map_cons, hmap]
      simp [metadataOf]
    · refine .cons ⟨hfirst.1, by simpa using hfirst.2⟩ ?_
      refine List.forall₂_iff_zip.2 ⟨hrest.length_eq, fun {other resolved} hmem => ?_⟩
      have hresolved := (List.forall₂_iff_zip.1 hrest).2 hmem
      rwa [ResolvedBy, hother other (List.of_mem_zip hmem).1]

end Answers

/-! ## The rows -/

section Rows

variable {group : String} {values : List String} {topics : ResetTopics}
  {answers : String → List TopicMetadata} {resolved : List (String × List Int)}
  {session : Transcript DeletionReply Error}

theorem mem_deleteOffsetRows {row : DeleteOffsetRow} :
    row ∈ deleteOffsetRows group (selectedPartitions resolved) ↔
      row.group = group ∧ ∃ entry ∈ resolved, entry.1 = row.topic ∧ row.partition ∈ entry.2 := by
  obtain ⟨group', topic, partition⟩ := row
  simp only [deleteOffsetRows, selectedPartitions, List.mem_map, List.mem_flatMap,
    DeleteOffsetRow.mk.injEq, Prod.exists]
  constructor
  · rintro ⟨_, _, ⟨name, partitions, hmem, _, hpartition, heq⟩, rfl, rfl, rfl⟩
    cases heq
    exact ⟨rfl, _, _, hmem, rfl, hpartition⟩
  · rintro ⟨rfl, _, _, hmem, rfl, hpartition⟩
    exact ⟨_, _, ⟨_, _, hmem, _, hpartition, rfl⟩, rfl, rfl, rfl⟩

/-- Selected partitions, by the selections that they come from. -/
theorem mem_resolved (hresolved : List.Forall₂ (ResolvedBy answers) topics.toList resolved)
    {topic : String} {partition : Int} :
    (∃ entry ∈ resolved, entry.1 = topic ∧ partition ∈ entry.2) ↔
      ∃ selected, topics[topic]? = some selected ∧
        (∀ set, selected = some set → partition ∈ set) ∧
        ∃ described, describedIn (answers topic) topic = some described ∧
          partition ∈ described.partitions := by
  constructor
  · rintro ⟨entry, hentry, rfl, hpartition⟩
    obtain ⟨selection, hselection, hname, hselect⟩ :=
      Checked.exists_of_forall₂ hresolved.flip hentry
    rw [← hname] at hselect
    refine ⟨selection.2, ?_, (mem_selectExisting hselect).1 hpartition⟩
    rw [← Std.TreeMap.mem_toList_iff_getElem?_eq_some, hname]
    exact hselection
  · rintro ⟨selected, hget, hexisting⟩
    obtain ⟨entry, hentry, hname, hselect⟩ :=
      Checked.exists_of_forall₂ hresolved (Std.TreeMap.mem_toList_iff_getElem?_eq_some.2 hget)
    exact ⟨entry, hentry, hname, (mem_selectExisting hselect).2 hexisting⟩

/-- The topics come in their order, and so do the partitions of each. -/
theorem increasing_deleteOffsetRows
    (hresolved : List.Forall₂ (ResolvedBy answers) topics.toList resolved) :
    (deleteOffsetRows group (selectedPartitions resolved)).Pairwise fun row row' =>
      compare row.topic row'.topic = .lt ∨
        row.topic = row'.topic ∧ row.partition < row'.partition := by
  have hnames : resolved.map Prod.fst = topics.toList.map Prod.fst := by
    rw [← List.forall₂_eq_eq_eq, List.forall₂_map_left_iff, List.forall₂_map_right_iff]
    exact hresolved.flip.imp fun _ _ h => h.1
  have hkeys : (resolved.map Prod.fst).Pairwise fun a b => compare a b = .lt := by
    rw [hnames, List.pairwise_map]
    exact SortedMap.increasing_toList topics
  rw [deleteOffsetRows, List.pairwise_map, selectedPartitions, List.pairwise_flatMap]
  refine ⟨fun entry hentry => ?_, ?_⟩
  · obtain ⟨_, -, _, hselect⟩ := Checked.exists_of_forall₂ hresolved.flip hentry
    rw [List.pairwise_map]
    exact (increasing_selectExisting hselect).imp fun hlt => .inr ⟨rfl, hlt⟩
  · refine (List.pairwise_map.1 hkeys).imp fun hlt => ?_
    simp only [List.mem_map]
    rintro _ ⟨_, _, rfl⟩ _ ⟨_, _, rfl⟩
    exact .inl hlt

/-- What the topics of a session resolve to is exact. -/
theorem exactRows_of_resolved (hparse : parseResetTopics values = .ok topics)
    (hanswers : ∀ topic metadata, ⟨.fetchMetadata topic, .ok metadata⟩ ∈ session ↔
      topic ∈ topics ∧ metadata = answers topic)
    (hresolved : List.Forall₂ (ResolvedBy answers) topics.toList resolved) :
    ExactRows group values session
      (deleteOffsetRows group (selectedPartitions resolved)) := by
  have hexisted : ∀ {topic partition}, Existed session topic partition ↔ topic ∈ topics ∧
      ∃ described, describedIn (answers topic) topic = some described ∧
        partition ∈ described.partitions := by
    intro topic partition
    simp only [Existed, hanswers]
    constructor
    · rintro ⟨_, described, ⟨hmem, rfl⟩, hfound, hpartition⟩
      exact ⟨hmem, described, hfound, hpartition⟩
    · rintro ⟨hmem, described, hfound, hpartition⟩
      exact ⟨_, described, ⟨hmem, rfl⟩, hfound, hpartition⟩
  refine ⟨fun row => ?_, increasing_deleteOffsetRows hresolved, ?_⟩
  · rw [mem_deleteOffsetRows, mem_resolved hresolved]
    refine and_congr_right fun _ => ⟨?_, ?_⟩
    · rintro ⟨selected, hget, hset, hdescribed⟩
      have hmem : row.topic ∈ topics := mem_topics_iff.2 ⟨selected, hget⟩
      refine ⟨?_, hexisted.2 ⟨hmem, hdescribed⟩⟩
      cases selected with
      | none => exact .inl ((parseResetTopics_whole_iff hparse).1 hget)
      | some set => exact .inr ((parseResetTopics_partitions_iff hparse hget _).1 (hset set rfl))
    · rintro ⟨hwanted, hthere⟩
      obtain ⟨hmem, hdescribed⟩ := hexisted.1 hthere
      obtain ⟨selected, hget⟩ := mem_topics_iff.1 hmem
      refine ⟨selected, hget, ?_, hdescribed⟩
      rintro set rfl
      rcases hwanted with hwhole | hlisted
      · rw [(parseResetTopics_whole_iff hparse).2 hwhole] at hget
        cases hget
      · exact (parseResetTopics_partitions_iff hparse hget _).2 hlisted
  · intro topic partition hwanted hwhole
    rcases hwanted with hnamed | ⟨value, hvalue, partitions, hselects, hpartition⟩
    · exact absurd hnamed hwhole
    have hmem : topic ∈ topics :=
      (mem_parseResetTopics hparse).2 ⟨value, hvalue, some partitions, hselects⟩
    obtain ⟨selected, hget⟩ := mem_topics_iff.1 hmem
    cases selected with
    | none => exact absurd ((parseResetTopics_whole_iff hparse).1 hget) hwhole
    | some set =>
      have hset : partition ∈ set := (parseResetTopics_partitions_iff hparse hget _).2
        ⟨value, hvalue, partitions, hselects, hpartition⟩
      obtain ⟨entry, -, -, hselect⟩ :=
        Checked.exists_of_forall₂ hresolved (Std.TreeMap.mem_toList_iff_getElem?_eq_some.2 hget)
      obtain ⟨described, hfound, hentry, hexisting⟩ := selectExisting_eq_ok hselect
      have hin : partition ∈ entry.2 := by simpa [hentry] using hset
      exact hexisted.2 ⟨hmem, described, hfound, hexisting partition hin⟩

end Rows

/-! ## Main result -/

section Main

variable {server : DeletionServer} {group : String} {values : List String} {execute : Bool}

/-- What has been asked when the topics are resolved. -/
structure Resolved (values : List String) (selections : List (String × List Int))
    (session : Transcript DeletionReply Error) : Prop where
  exact : ∀ group rest, (∀ exchange ∈ rest, exchange.request = .createAdmin) →
    ExactRows group values (session ++ rest)
      (deleteOffsetRows group (selectedPartitions selections))
  none : ∀ exchange ∈ session, exchange.request.rows? = none

theorem ends_resolveTopicPartitionSelections :
    Ends (Follows (DeletionAllowed group values execute)) (Resolved values) []
      (resolveTopicPartitionSelections server values) := by
  refine .bind_ofExcept fun topics hparse => ?_
  refine ends_bind_ask (fun _ => allowed_of_none rfl) fun _ => ?_
  have hnodup : (topics.toList.map Prod.fst).Nodup := by
    rw [Std.TreeMap.map_fst_toList_eq_keys]
    exact Std.TreeMap.nodup_keys
  refine (ends_mapM_resolveSelection hnodup _).mono ?_
  rintro resolved _ ⟨answers, rfl, hresolved⟩
  refine ⟨fun group rest hrest => exactRows_of_resolved hparse ?_ hresolved, ?_⟩
  · intro topic metadata
    simp only [List.nil_append, List.mem_append, List.mem_singleton, List.mem_map]
    constructor
    · rintro ((heq | ⟨selection, hselection, heq⟩) | hlast)
      · cases heq
      · cases heq
        have hget := Std.TreeMap.mem_toList_iff_getElem?_eq_some.1 hselection
        exact ⟨mem_topics_iff.2 ⟨_, hget⟩, rfl⟩
      · cases hrest _ hlast
    · rintro ⟨hmem, rfl⟩
      obtain ⟨selected, hget⟩ := mem_topics_iff.1 hmem
      exact .inl (.inr ⟨(topic, selected),
        Std.TreeMap.mem_toList_iff_getElem?_eq_some.2 hget, rfl⟩)
  · intro exchange hmem
    simp only [List.nil_append, List.mem_append, List.mem_singleton, List.mem_map] at hmem
    rcases hmem with rfl | ⟨_, _, rfl⟩ <;> rfl

/-- The last exchange is the one that lists the rows, or deletes them without an error. -/
def Completed (group : String) (session : Transcript DeletionReply Error) : Prop :=
  ∃ before, (∃ rows, session = before ++ [⟨.print rows, .ok ()⟩]) ∨
    ∃ partitions timeoutMs errors,
      session = before ++ [⟨.deleteOffsets group partitions timeoutMs, .ok errors⟩] ∧
        ∀ error ∈ errors, error = none

theorem ends_deleteGroupOffsetsCommand (timeout : Nat) :
    Ends (Follows (DeletionAllowed group values execute)) (fun _ after => Completed group after) []
      (deleteGroupOffsetsCommand server group values execute timeout) := by
  refine ends_resolveTopicPartitionSelections.bind ?_
  intro selections session hresolved
  refine .ite (fun hexecute => ?_) (fun hexecute => ?_)
  · refine ends_bind_ask (fun _ => allowed_of_none rfl) fun _ => ?_
    refine .bind_ofExcept fun timeoutMs _ => .bind_ofExcept fun _ _ => .bind_ofExcept fun _ _ => ?_
    have hchecks : Ends (Follows (DeletionAllowed group values execute))
        (fun _ after => after = session ++ [⟨.createAdmin, .ok ()⟩])
        (session ++ [⟨.createAdmin, .ok ()⟩])
        (forM selections fun selection =>
          ofExcept (checkNul selection.1 "topic contains a NUL byte")) :=
      ⟨(Moves.forM fun _ _ => Moves.ofExcept _).from _,
        fun _ _ hrun => ((Moves.forM fun _ _ => .ofExcept _ : Moves Eq _).of_ok hrun).symm⟩
    refine hchecks.bind ?_
    rintro _ _ rfl
    refine ends_bind_ask ?_ fun errors => ?_
    · intro answer rows hrows
      cases hrows
      refine ⟨hresolved.exact group [⟨.createAdmin, .ok ()⟩] (by simp),
        iff_of_true trivial hexecute, fun earlier hmem => ?_⟩
      rcases List.mem_append.1 hmem with hold | hlast
      · exact hresolved.none earlier hold
      · rw [List.mem_singleton.1 hlast]
        rfl
    · cases hfind : errors.findSome? id with
      | some error => exact .throw _
      | none =>
        exact .pure ⟨_, .inr ⟨_, _, errors, rfl, List.findSome?_eq_none_iff.1 hfind⟩⟩
  · refine ⟨movesFrom_ask fun answer rows hrows => ?_, fun _ _ hrun => ?_⟩
    · cases hrows
      have hexact := hresolved.exact group [] (by simp)
      rw [List.append_nil] at hexact
      exact ⟨hexact, iff_of_false id hexecute, hresolved.none⟩
    · exact ⟨session, .inl ⟨_, (ask_eq_ok.1 hrun).2⟩⟩

theorem exists_run_mapM {σ ι α ε : Type} {f : ι → EStateM ε σ α} {l : List ι}
    (hf : ∀ x ∈ l, ∀ s, ∃ a t, (f x).run s = .ok a t) (s : σ) :
    ∃ results t, (l.mapM f).run s = .ok results t := by
  induction l generalizing s with
  | nil => exact ⟨[], s, rfl⟩
  | cons x l ih =>
    obtain ⟨a, t, hfirst⟩ := hf x List.mem_cons_self s
    obtain ⟨results, t', hrest⟩ := ih (fun y hy => hf y (List.mem_cons_of_mem x hy)) t
    refine ⟨a :: results, t', ?_⟩
    rw [List.mapM_cons, bind_of_ok hfirst, bind_of_ok hrest]
    rfl

/-- The cluster answers everything, and has the topics and partitions that the values name. -/
structure Serves (server : DeletionServer) (values : List String) : Prop where
  answers : ∀ session call, ∃ reply, server session call = .ok reply
  exist : ∀ session topic metadata, server session (.fetchMetadata topic) = .ok metadata →
    (∃ value ∈ values, ∃ partitions, Selects value topic partitions) →
    ∃ described, describedIn metadata topic = some described ∧
      (¬ NamesWhole values topic → ∀ partition, Wanted values topic partition →
        partition ∈ described.partitions)

theorem exists_run_resolveSelection (hserves : Serves server values) {topics : ResetTopics}
    (hparse : parseResetTopics values = .ok topics) {selection : Selected}
    (hmem : selection ∈ topics.toList) (session : Transcript DeletionReply Error) :
    ∃ resolved after, (resolveSelection server selection).run session = .ok resolved after := by
  obtain ⟨metadata, hanswer⟩ := hserves.answers session (.fetchMetadata selection.1)
  have hget : topics[selection.1]? = some selection.2 :=
    Std.TreeMap.mem_toList_iff_getElem?_eq_some.1 hmem
  have htopic : selection.1 ∈ topics := mem_topics_iff.2 ⟨selection.2, hget⟩
  obtain ⟨described, hfound, hexisting⟩ :=
    hserves.exist session selection.1 metadata hanswer ((mem_parseResetTopics hparse).1 htopic)
  have hthere : ∀ set, selection.2 = some set →
      ∀ partition ∈ set, partition ∈ described.partitions := by
    intro set hset partition hin
    rw [hset] at hget
    refine hexisting (fun hwhole => ?_) partition
      (.inr ((parseResetTopics_partitions_iff hparse hget partition).1 hin))
    rw [(parseResetTopics_whole_iff hparse).2 hwhole] at hget
    cases hget
  obtain ⟨partitions, hselect⟩ := selectExisting_of_existing hfound hthere
  refine ⟨(selection.1, partitions), session ++ [⟨.fetchMetadata selection.1, .ok metadata⟩], ?_⟩
  rw [resolveSelection, bind_of_ok (ask_run_ok hanswer), hselect]
  rfl

/-- The rows are listed where nothing is missing. -/
theorem exists_run_preview (hserves : Serves server values)
    (hvalues : ∀ value ∈ values, ∃ topic partitions, Selects value topic partitions)
    (timeout : Nat) :
    ∃ after, (deleteGroupOffsetsCommand server group values false timeout).run [] =
      .ok () after := by
  obtain ⟨topics, hparse⟩ := exists_parseResetTopics_ok.2 hvalues
  obtain ⟨⟨⟩, hconsumer⟩ := hserves.answers [] .createConsumer
  obtain ⟨resolved, session, hresolve⟩ := exists_run_mapM
    (fun selection hmem => exists_run_resolveSelection hserves hparse hmem)
    ([] ++ [⟨.createConsumer, .ok ()⟩])
  have hselections : (resolveTopicPartitionSelections server values).run [] =
      .ok resolved session := by
    rw [resolveTopicPartitionSelections, hparse]
    exact (bind_of_ok (ask_run_ok hconsumer) _).trans hresolve
  obtain ⟨⟨⟩, hprint⟩ := hserves.answers session
    (.print (deleteOffsetRows group (selectedPartitions resolved)))
  refine ⟨session ++ [⟨.print (deleteOffsetRows group (selectedPartitions resolved)), .ok ()⟩], ?_⟩
  rw [deleteGroupOffsetsCommand, bind_of_ok hselections]
  exact ask_run_ok hprint

/-- **Offsets are deleted of exactly the partitions that the values ask for.** Whatever is answered,
the command lists or deletes at most once, and deletes only with `--execute`. The partitions are
those that the values ask for and that were there when their topic was asked for; one that was not
there is left out only of a topic that is named as a whole. Where the command returns, the rows were
listed, or no group had an error, and the rows are listed wherever nothing is missing. Two runs that
get the same metadata, one with `--execute` and one without, name the same rows. -/
theorem deleteOffsets_exact (server : DeletionServer) (group : String) (values : List String)
    (execute : Bool) (timeout : Nat) :
    (∀ session exchange, session ++ [exchange] <+:
        final ((deleteGroupOffsetsCommand server group values execute timeout).run []) →
      DeletionAllowed group values execute session exchange) ∧
    (∀ after, (deleteGroupOffsetsCommand server group values execute timeout).run [] =
      .ok () after → Completed group after) ∧
    (Serves server values →
      (∀ value ∈ values, ∃ topic partitions, Selects value topic partitions) →
      ∃ after, (deleteGroupOffsetsCommand server group values false timeout).run [] =
        .ok () after) ∧
    ∀ (server' : DeletionServer) (execute' : Bool) session exchange session' exchange' rows rows',
      session ++ [exchange] <+:
        final ((deleteGroupOffsetsCommand server group values execute timeout).run []) →
      session' ++ [exchange'] <+:
        final ((deleteGroupOffsetsCommand server' group values execute' timeout).run []) →
      exchange.request.rows? = some rows → exchange'.request.rows? = some rows' →
      (∀ topic metadata, ⟨.fetchMetadata topic, .ok metadata⟩ ∈ session ↔
        ⟨.fetchMetadata topic, .ok metadata⟩ ∈ session') → rows = rows' := by
  have hends : ∀ server execute, Ends (Follows (DeletionAllowed group values execute))
      (fun _ after => Completed group after) []
      (deleteGroupOffsetsCommand server group values execute timeout) := fun _ _ =>
    ends_deleteGroupOffsetsCommand timeout
  refine ⟨follows_nil_iff.1 (hends server execute).moves, (hends server execute).returns (),
    fun hserves hvalues => exists_run_preview hserves hvalues timeout, ?_⟩
  intro server' execute' session exchange session' exchange' rows rows' hsession hsession' hrows
    hrows' hsame
  have hexact := follows_nil_iff.1 (hends server execute).moves session exchange hsession rows hrows
  have hexact' :=
    follows_nil_iff.1 (hends server' execute').moves session' exchange' hsession' rows' hrows'
  refine hexact.1.eq hexact'.1 fun topic partition => ?_
  simp only [Existed, hsame]

end Main

end KafkaCli.Groups
