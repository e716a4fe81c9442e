import KafkaCli.Streams.ApplicationReset

/-!
# Which topics are deleted

All three workflows of Streams groups can delete topics. `deleted_topics_internal_iff` goes
through the requests of a run: the topics that are deleted for a group are internal topics of
that group wherever the workflow computes them or checks the names that it is given. The names of
`--delete-internal-topic` are not checked: there it holds exactly if they all are such topics.
-/

namespace KafkaCli.Streams

open Groups Run Session PlanExecute

variable (host : Host) (timeout : Nat)

/-! ## Deletions that are allowed -/

/-- The group was described, and these are the source topics of its topology. -/
def DescribedSources (before : Transcript Reply Error) (group : String) (read : List String) :
    Prop :=
  ∃ requested version includeTopology reply,
    ⟨.streamsGroupDescribe requested version includeTopology, .ok reply⟩ ∈ before ∧
      (StreamsGroupReply.description reply).groupId = group ∧
      sourceTopics (StreamsGroupReply.description reply) = read

theorem DescribedSources.mono {before after : Transcript Reply Error} {group : String}
    {read : List String} (h : DescribedSources before group read) (hgrow : before <+: after) :
    DescribedSources after group read := by
  obtain ⟨requested, version, includeTopology, reply, hmem, hreply⟩ := h
  exact ⟨requested, version, includeTopology, reply, hgrow.mem hmem, hreply⟩

/-- What `owner` reads, by the transcript of a run. -/
abbrev ReadBy := Transcript Reply Error → String → List String → Prop

section Allowed

variable (Reads : ReadBy) (unchecked : List String)

/-- An exchange whose deletions name internal topics of their owner only, or the topics that are
not checked. -/
def DeletionMay (before : Transcript Reply Error) (exchange : Exchange Reply Error) : Prop :=
  ∀ owner topics, exchange.request = .deleteTopics owner topics →
    ∃ read, Reads before owner read ∧
      ((unchecked = [] ∧ ∀ topic ∈ topics, IsInternal host owner read topic) ∨
        ∀ topic, topic ∈ topics ↔ topic ∈ unchecked)

/-- All deletions of the program are such exchanges. -/
abbrev Deletes {α : Type} (program : Command α) : Prop :=
  Moves (Follows (DeletionMay host Reads unchecked)) program

variable {host Reads unchecked}

theorem deletionMay_of_ne {before : Transcript Reply Error} {exchange : Exchange Reply Error}
    (h : ∀ owner topics, exchange.request ≠ .deleteTopics owner topics) :
    DeletionMay host Reads unchecked before exchange :=
  fun owner topics hrequest => absurd hrequest (h owner topics)

theorem deletes_of_readOnly {α : Type} {program : Command α} (h : ReadOnly program) :
    Deletes host Reads unchecked program := by
  refine h.moves fun _ exchange hread => deletionMay_of_ne ?_
  intro owner topics hrequest
  rw [hrequest] at hread
  exact hread trivial

/-! ## Offsets are no topics -/

variable (host)

theorem deletes_alterConsumerGroupOffsets (group : String) (offsets : List (String × Int × Int)) :
    Deletes host Reads unchecked (alterConsumerGroupOffsets host group offsets timeout) := by
  refine .bind (.ofExcept _) fun _ => .bind (.ofExcept _) fun _ => .bind (.ofExcept _) fun _ => ?_
  refine .bind (.forM fun _ _ => .ofExcept _) fun _ => moves_ask fun _ _ => ?_
  exact deletionMay_of_ne fun _ _ => nofun

theorem deletes_executeGroup (execute : Bool) (group : String) (planned : PlannedOffsets) :
    Deletes host Reads unchecked (executeGroup host timeout execute group planned) := by
  refine .ite (.bind ?_ fun _ => ?_) (.pure _)
  · exact deletes_of_readOnly (readOnly_admin host)
  · exact deletes_alterConsumerGroupOffsets host timeout _ _

theorem readOnly_readResetPlan (path : String) (groups : List String) (singleGroup : Bool) :
    ReadOnly (readResetPlan host path groups singleGroup) := by
  refine .bind (.ofExcept _) fun _ => .bind (readOnly_ask host not_false) fun _ => ?_
  refine .bind (.foldlM _ fun _ _ _ => ?_) fun _ => .bind (.ofExcept _) fun _ => .pure _
  refine .bind (.ofExcept _) fun _ => .bind (.ofExcept _) fun _ => .bind (.ofExcept _) fun _ => ?_
  exact .bind (readOnly_ask host not_false) fun _ => .pure _

theorem deletes_resetFromFile (command : String) (args : ResetOffsetsArgs) (path : String)
    (groups errors : List String) :
    Deletes host Reads unchecked (resetFromFile host timeout command args path groups errors) := by
  refine .bind (.ite (.pure _) ?_) fun rows => .bind (.ite (.bind ?_ fun _ => ?_) (.pure _)) ?_
  · exact deletes_of_readOnly (readOnly_readResetPlan host _ _ _)
  · exact deletes_of_readOnly (readOnly_admin host)
  · exact .forM fun _ _ => deletes_alterConsumerGroupOffsets host timeout _ _
  · exact fun _ => deletes_of_readOnly (readOnly_ask host not_false)

end Allowed

/-! ## Descriptions -/

variable {host}

theorem describedGroup_ok {groupId : String} {allowMissing : Bool} {reply : StreamsGroupReply}
    {description : StreamsGroupDescription}
    (h : describedGroup groupId allowMissing reply = .ok description) :
    description.groupId = reply.description.groupId ∧
      sourceTopics description = sourceTopics reply.description := by
  unfold describedGroup at h
  split_ifs at h
  · cases h
    exact ⟨rfl, rfl⟩
  · cases h
    exact ⟨rfl, rfl⟩

theorem describeStreamsGroup_ok {includeTopology allowMissing : Bool} {groupId : String}
    {before after : Transcript Reply Error} {description : StreamsGroupDescription}
    (h : (describeStreamsGroup host includeTopology allowMissing groupId).run before =
      .ok description after) :
    DescribedSources after description.groupId (sourceTopics description) := by
  obtain ⟨_, _, -, h₁⟩ := bind_eq_ok.1 h
  obtain ⟨version, _, -, h₂⟩ := bind_eq_ok.1 h₁
  obtain ⟨reply, _, hask, h₃⟩ := bind_eq_ok.1 h₂
  obtain ⟨hreply, rfl⟩ := eq_of_ofExcept_ok h₃
  obtain ⟨hid, hsources⟩ := describedGroup_ok hreply
  refine ⟨groupId, version, includeTopology, reply, ?_, hid.symm, hsources.symm⟩
  rw [(ask_eq_ok.1 hask).2]
  exact List.mem_append_right _ (List.mem_singleton_self _)

/-- All descriptions have been described. -/
def AllDescribed (t : Transcript Reply Error) (descriptions : List StreamsGroupDescription) :
    Prop :=
  ∀ description ∈ descriptions,
    DescribedSources t description.groupId (sourceTopics description)

theorem AllDescribed.follows {before after : Transcript Reply Error}
    {may : Transcript Reply Error → Exchange Reply Error → Prop}
    {descriptions : List StreamsGroupDescription} (h : AllDescribed before descriptions)
    (hfollows : Follows may before after) : AllDescribed after descriptions :=
  fun description hmem => (h description hmem).mono hfollows.isPrefix

theorem describeStreamsGroups_ok {includeTopology allowMissing : Bool} {groupIds : List String}
    {before after : Transcript Reply Error} {descriptions : List StreamsGroupDescription}
    (h : (describeStreamsGroups host groupIds includeTopology allowMissing).run before =
      .ok descriptions after) : AllDescribed after descriptions := by
  obtain ⟨found, _, hfound, hsorted⟩ := bind_eq_ok.1 h
  cases hsorted
  intro description hmem
  obtain ⟨groupId, -, t, t', hrun, hfollows⟩ := exists_of_mapM_ok
    (fun groupId _ => readOnly_describeStreamsGroup host _ _ groupId) hfound
    (List.mem_mergeSort.1 hmem)
  exact (describeStreamsGroup_ok hrun).mono hfollows.isPrefix

/-! ## Deleting groups -/

variable (host)

theorem movesFrom_deleteStreamsGroup {before : Transcript Reply Error} {group : String}
    {read internalTopics : List String} (hread : DescribedSources before group read)
    (hinternal : ∀ topic ∈ internalTopics, IsInternal host group read topic) :
    MovesFrom (Follows (DeletionMay host DescribedSources [])) before
      (deleteStreamsGroup host group internalTopics) := by
  have hdelete : Deletes host DescribedSources [] (deleteOneGroup host group) := by
    refine .bind ?_ fun _ => .bind ?_ fun _ => .bind (moves_ask fun _ _ => ?_) fun _ => .ofExcept _
    · exact deletes_of_readOnly (readOnly_groupCoordinatorConnection host group)
    · exact deletes_of_readOnly (readOnly_negotiateApiVersion host _ _ _ _)
    · exact deletionMay_of_ne fun _ _ => nofun
  refine (hdelete.from before).bind fun error t h => ?_
  by_cases hdeletes : error.isNone ∧ internalTopics ≠ []
  · rw [if_pos hdeletes]
    have hadmin : Deletes host DescribedSources [] (admin host) :=
      deletes_of_readOnly (readOnly_admin host)
    refine (hadmin.from t).bind fun _ t' h' => ?_
    refine MovesFrom.bind (movesFrom_ask fun _ => ?_) fun _ _ _ => .pure _
    intro owner topics hrequest
    cases hrequest
    have hgrow := (hdelete.of_ok h).isPrefix.trans (hadmin.of_ok h').isPrefix
    exact ⟨read, hread.mono hgrow, .inl ⟨rfl, hinternal⟩⟩
  · rw [if_neg hdeletes]
    exact .pure _

theorem movesFrom_deleteSelectedGroup {before : Transcript Reply Error}
    {descriptions : List StreamsGroupDescription} (h : AllDescribed before descriptions)
    (deleteAllInternalTopics execute : Bool) (group : String) :
    MovesFrom (Follows (DeletionMay host DescribedSources [])) before
      (deleteSelectedGroup host (byGroupId descriptions) deleteAllInternalTopics execute
        group) := by
  unfold deleteSelectedGroup
  split
  · rename_i description hdescription _
    obtain ⟨hmem, rfl⟩ := eq_of_byGroupId hdescription
    split_ifs
    · exact .pure _
    · refine movesFrom_deleteStreamsGroup host (h description hmem) fun topic htopic => ?_
      exact isInternal_of_mem_streamsInternalTopics (Std.TreeSet.mem_toList.1 htopic)
    · exact .pure _
    · refine movesFrom_deleteStreamsGroup host (h description hmem) fun topic htopic => ?_
      cases htopic
  · exact .pure _

theorem deletes_deleteStreamsGroups (requested : List String)
    (allGroups deleteAllInternalTopics execute : Bool) :
    Deletes host DescribedSources []
      (deleteStreamsGroups host requested allGroups deleteAllInternalTopics execute) := by
  refine .bind (deletes_of_readOnly (readOnly_groupIdsByType host _)) fun available => ?_
  refine .bind (.ofExcept _) fun _ t => ?_
  have hdescribe := readOnly_describeStreamsGroups host
  refine MovesFrom.bind ((deletes_of_readOnly (hdescribe _ _ _)).from t)
    fun descriptions t₁ h₁ => ?_
  refine MovesFrom.bind ?_ fun rows t₂ _ => ?_
  · refine MovesFrom.mapM (fun _ _ h hfollows => AllDescribed.follows h hfollows) ?_
      (describeStreamsGroups_ok h₁)
    exact fun group _ s hs => movesFrom_deleteSelectedGroup host hs _ _ group
  · refine Moves.from (.bind (deletes_of_readOnly ?_) fun _ => .ofExcept _) t₂
    exact readOnly_ask host not_false

/-! ## Resetting offsets -/

variable (args : StreamsGroupResetOffsetsArgs)

/-- The topics of `--delete-internal-topic`, which are deleted as they are given. -/
def uncheckedTopics : List String :=
  if args.deleteAllInternalTopics then [] else args.deleteInternalTopic

theorem selectStreamsGroups_ok {before after : Transcript Reply Error}
    {selected : Std.TreeMap String StreamsGroupDescription × List String}
    (h : (selectStreamsGroups host args).run before = .ok selected after) :
    ∃ descriptions, selected = inactiveGroups descriptions ∧ AllDescribed after descriptions := by
  obtain ⟨_, _, -, h₁⟩ := bind_eq_ok.1 h
  obtain ⟨_, _, -, h₂⟩ := bind_eq_ok.1 h₁
  obtain ⟨_, _, -, h₃⟩ := bind_eq_ok.1 h₂
  obtain ⟨descriptions, _, hdescribe, h₄⟩ := bind_eq_ok.1 h₃
  cases h₄
  exact ⟨descriptions, rfl, describeStreamsGroups_ok hdescribe⟩

theorem topicsToDelete_allowed (description : StreamsGroupDescription) :
    (uncheckedTopics args = [] ∧ ∀ topic ∈ topicsToDelete args description,
        IsInternal host description.groupId (sourceTopics description) topic) ∨
      ∀ topic, topic ∈ topicsToDelete args description ↔ topic ∈ uncheckedTopics args := by
  unfold uncheckedTopics topicsToDelete
  by_cases hall : args.deleteAllInternalTopics = true
  · rw [if_pos hall, if_pos hall]
    refine .inl ⟨rfl, fun topic htopic => ?_⟩
    exact isInternal_of_mem_streamsInternalTopics (Std.TreeSet.mem_toList.1 htopic)
  · rw [if_neg hall, if_neg hall]
    refine .inr fun topic => ?_
    rw [Std.TreeSet.mem_toList, Std.TreeSet.mem_ofList, List.contains_iff_mem]

theorem movesFrom_deleteGroupTopics {before : Transcript Reply Error}
    {description : StreamsGroupDescription}
    (h : DescribedSources before description.groupId (sourceTopics description)) :
    MovesFrom (Follows (DeletionMay host DescribedSources (uncheckedTopics args))) before
      (deleteGroupTopics host args (description.groupId, description)) := by
  by_cases hnone : topicsToDelete args description = []
  · rw [deleteGroupTopics, if_pos hnone]
    exact .pure _
  · rw [deleteGroupTopics, if_neg hnone]
    refine MovesFrom.bind (movesFrom_ask fun _ => ?_) fun _ _ _ => .pure _
    intro owner topics hrequest
    cases hrequest
    exact ⟨_, h, topicsToDelete_allowed host args description⟩

theorem movesFrom_deleteResetTopics {before : Transcript Reply Error}
    {descriptions : List StreamsGroupDescription} (h : AllDescribed before descriptions) :
    MovesFrom (Follows (DeletionMay host DescribedSources (uncheckedTopics args))) before
      (deleteResetTopics host args (inactiveGroups descriptions).1) := by
  have hadmin : Deletes host DescribedSources (uncheckedTopics args) (admin host) :=
    deletes_of_readOnly (readOnly_admin host)
  unfold deleteResetTopics
  by_cases hdeletes : args.execute ∧ (args.deleteInternalTopic ≠ [] ∨ args.deleteAllInternalTopics)
  · rw [if_pos hdeletes]
    refine (hadmin.from before).bind fun _ t ht => ?_
    refine MovesFrom.bind (MovesFrom.mapM (fun _ _ h hfollows => AllDescribed.follows h hfollows)
      ?_ (h.follows (hadmin.of_ok ht))) fun _ _ _ => .pure _
    intro ⟨group, description⟩ hentry s hs
    obtain ⟨hmem, rfl⟩ :=
      eq_of_byGroupId (Std.TreeMap.mem_toList_iff_getElem?_eq_some.1 hentry)
    exact movesFrom_deleteGroupTopics host args (hs description (List.mem_filter.1 hmem).1)
  · rw [if_neg hdeletes]
    exact .pure _

theorem deletes_resetStreamsGroupOffsets :
    Deletes host DescribedSources (uncheckedTopics args)
      (resetStreamsGroupOffsets host timeout args) := by
  intro t
  refine MovesFrom.bind ((deletes_of_readOnly (readOnly_selectStreamsGroups host args)).from t)
    fun selected t₁ h₁ => ?_
  obtain ⟨descriptions, rfl, hdescribed⟩ := selectStreamsGroups_ok host args h₁
  cases hfile : args.fromFile with
  | some path => exact (deletes_resetFromFile host timeout _ _ path _ _).from t₁
  | none =>
    have htimestamp : Deletes host DescribedSources (uncheckedTopics args)
        (resetTimestamp host args.toDatetime args.byDuration) :=
      deletes_of_readOnly (readOnly_resetTimestamp host _ _)
    refine (htimestamp.from t₁).bind fun timestamp t₂ h₂ => ?_
    have hplanned : Deletes host DescribedSources (uncheckedTopics args)
        (planExecute (planStreamsGroup host args timestamp)
          (fun group => executeGroup host timeout args.execute group.1)
          (inactiveGroups descriptions).1.toList) :=
      moves_planExecute _ _
        (fun group => deletes_of_readOnly (readOnly_planStreamsGroup host args timestamp group))
        fun group planned => deletes_executeGroup host timeout _ group.1 planned
    refine (hplanned.from t₂).bind fun planned t₃ h₃ => ?_
    have hdescribed₃ := (hdescribed.follows (htimestamp.of_ok h₂)).follows (hplanned.of_ok h₃)
    refine (movesFrom_deleteResetTopics host args hdescribed₃).bind fun errors t₄ _ => ?_
    refine Moves.from (deletes_of_readOnly ?_) t₄
    exact readOnly_ask host not_false

/-! ## Resetting an application -/

variable (app : StreamsApplicationResetArgs)

/-- The topics of an application that are not deleted. -/
def readTopics : List String :=
  (topicSet app.inputTopics).toList ++ (topicSet app.intermediateTopics).toList

/-- The application reads its input and intermediate topics. -/
def ApplicationReads : ReadBy := fun _ owner read =>
  owner = app.applicationId ∧ read = readTopics app

omit host in
theorem selectInternalTopics_ok {inferred selected : Std.TreeSet String}
    (h : selectInternalTopics app inferred = .ok selected) :
    ∀ topic ∈ selected, topic ∈ inferred := by
  unfold selectInternalTopics at h
  by_cases hall : app.internalTopics = []
  · rw [if_pos hall] at h
    cases h
    exact fun _ hmem => hmem
  · simp only [if_neg hall] at h
    split at h
    · cases h
    · rename_i hnone
      cases h
      intro topic hmem
      simpa using List.find?_eq_none.1 hnone topic (Std.TreeSet.mem_toList.2 hmem)

theorem prepareReset_ok {before after : Transcript Reply Error} {preparation : ResetPreparation}
    (h : (prepareReset host app).run before = .ok preparation after) :
    ∀ topic ∈ preparation.internalTopics,
      IsInternal host app.applicationId (readTopics app) topic := by
  obtain ⟨_, _, -, h₁⟩ := bind_eq_ok.1 h
  obtain ⟨_, _, -, h₂⟩ := bind_eq_ok.1 h₁
  obtain ⟨_, _, -, h₃⟩ := bind_eq_ok.1 h₂
  obtain ⟨selected, _, hselect, h₄⟩ := bind_eq_ok.1 h₃
  obtain ⟨_, _, -, h₅⟩ := bind_eq_ok.1 h₄
  obtain ⟨_, _, -, h₆⟩ := bind_eq_ok.1 h₅
  cases h₆
  intro topic hmem
  have hselected := selectInternalTopics_ok app (eq_of_ofExcept_ok hselect).1 topic
    (Std.TreeSet.mem_toList.1 hmem)
  exact isInternal_of_mem_inferred hselected

theorem deletes_forceRemove (group : String) (members : List ConsumerGroupMember) :
    Deletes host (ApplicationReads app) []
      (forceRemoveConsumerGroupMembers host group members) := by
  refine .bind ?_ fun _ => .bind ?_ fun _ => .bind (moves_ask fun _ _ => ?_) fun _ => .ofExcept _
  · exact deletes_of_readOnly (readOnly_groupCoordinatorConnection host group)
  · exact deletes_of_readOnly (readOnly_negotiateApiVersion host _ _ _ _)
  · exact deletionMay_of_ne fun _ _ => nofun

theorem deletes_ensureInactive :
    Deletes host (ApplicationReads app) [] (ensureInactive host timeout app) := by
  refine .bind ?_ fun _ => .ite (.bind ?_ fun _ => .bind (.ofExcept _) fun _ => ?_) (.pure _)
  · exact deletes_of_readOnly (readOnly_listConsumerGroups host timeout)
  · exact deletes_of_readOnly (readOnly_describeConsumerGroups host _ timeout)
  · refine .ite (.pure _) (.bind (.ofExcept _) fun _ => .bind ?_ fun _ => ?_)
    · exact deletes_of_readOnly (readOnly_ask host not_false)
    · exact deletes_forceRemove host app _ _

theorem deletes_applyReset {preparation : ResetPreparation}
    (hinternal : ∀ topic ∈ preparation.internalTopics,
      IsInternal host app.applicationId (readTopics app) topic) :
    Deletes host (ApplicationReads app) [] (applyReset host timeout app preparation) := by
  refine .bind (.mapM fun partition _ => ?_) fun _ => .bind (.ite ?_ (.pure _)) fun _ => ?_
  · exact deletes_of_readOnly (readOnly_newOffset host app _ partition)
  · exact deletes_alterConsumerGroupOffsets host timeout _ _
  · refine .bind (.ite (.pure _) (.ite (.pure _) (.bind ?_ fun _ => .pure _))) fun _ => .pure _
    refine moves_ask fun _ _ owner topics hrequest => ?_
    cases hrequest
    exact ⟨_, ⟨rfl, rfl⟩, .inl ⟨rfl, hinternal⟩⟩

theorem deletes_streamsApplicationReset :
    Deletes host (ApplicationReads app) [] (streamsApplicationReset host timeout app) := by
  refine .bind (deletes_of_readOnly (readOnly_admin host)) fun _ => ?_
  refine .bind (deletes_ensureInactive host timeout app) fun _ t => ?_
  refine MovesFrom.bind ((deletes_of_readOnly (readOnly_prepareReset host app)).from t)
    fun preparation t₁ h₁ => Moves.from ?_ t₁
  refine .bind (deletes_applyReset host timeout app (prepareReset_ok host app h₁)) fun _ => ?_
  exact .bind (deletes_of_readOnly (readOnly_ask host not_false)) fun _ => .ofExcept _

/-! ## All workflows -/

/-- A command that can delete topics, with its arguments. -/
inductive Workflow
  | deleteGroups (requested : List String) (allGroups deleteAllInternalTopics execute : Bool)
  | resetOffsets (args : StreamsGroupResetOffsetsArgs)
  | resetApplication (args : StreamsApplicationResetArgs)

def Workflow.program : Workflow → Command PUnit
  | .deleteGroups requested allGroups deleteAllInternalTopics execute =>
    deleteStreamsGroups host requested allGroups deleteAllInternalTopics execute
  | .resetOffsets args => resetStreamsGroupOffsets host timeout args
  | .resetApplication args => streamsApplicationReset host timeout args

/-- What the owner of deleted topics reads: the source topics of a group's topology, or the
topics that are given for an application. -/
def Workflow.Reads : Workflow → ReadBy
  | .deleteGroups _ _ _ _ | .resetOffsets _ => DescribedSources
  | .resetApplication args => ApplicationReads args

/-- The topics that are deleted without a check. -/
def Workflow.unchecked : Workflow → List String
  | .resetOffsets args => uncheckedTopics args
  | .deleteGroups _ _ _ _ | .resetApplication _ => []

/-- The workflow computes the topics that it deletes, or checks the names that it is given. -/
def Workflow.ChecksTopics : Workflow → Prop
  | .resetOffsets args => args.deleteAllInternalTopics = true
  | .deleteGroups _ _ _ _ | .resetApplication _ => True

theorem Workflow.ChecksTopics.unchecked_eq_nil {workflow : Workflow} (h : workflow.ChecksTopics) :
    workflow.unchecked = [] := by
  cases workflow with
  | deleteGroups requested allGroups deleteAllInternalTopics execute => rfl
  | resetOffsets args => exact if_pos h
  | resetApplication args => rfl

theorem deletes_workflow (workflow : Workflow) :
    Deletes host workflow.Reads workflow.unchecked (workflow.program host timeout) := by
  cases workflow with
  | deleteGroups requested allGroups deleteAllInternalTopics execute =>
    exact deletes_deleteStreamsGroups host requested allGroups deleteAllInternalTopics execute
  | resetOffsets args => exact deletes_resetStreamsGroupOffsets host timeout args
  | resetApplication args => exact deletes_streamsApplicationReset host timeout args

theorem Workflow.Reads.mono {workflow : Workflow} {before after : Transcript Reply Error}
    {owner : String} {read : List String} (h : workflow.Reads before owner read)
    (hgrow : before <+: after) : workflow.Reads after owner read := by
  cases workflow with
  | deleteGroups requested allGroups deleteAllInternalTopics execute =>
    exact DescribedSources.mono h hgrow
  | resetOffsets args => exact DescribedSources.mono h hgrow
  | resetApplication args => exact h

/-- The topics are internal topics of their owner. -/
def AllInternal (workflow : Workflow) (t : Transcript Reply Error) (owner : String)
    (topics : List String) : Prop :=
  ∃ read, workflow.Reads t owner read ∧ ∀ topic ∈ topics, IsInternal host owner read topic

/-- **Deleted topics.** The topics of a deletion request are internal topics of the group that
they are deleted for, exactly when the workflow checks what it deletes or the names that it takes
unchecked are such topics. -/
theorem deleted_topics_internal_iff {workflow : Workflow} {t : Transcript Reply Error}
    (hrun : final ((workflow.program host timeout).run []) = t) {owner : String}
    {topics : List String} (hmem : Call.deleteTopics owner topics ∈ t.map (·.request)) :
    AllInternal host workflow t owner topics ↔
      workflow.ChecksTopics ∨ AllInternal host workflow t owner workflow.unchecked := by
  obtain ⟨exchange, hexchange, hrequest⟩ := List.mem_map.1 hmem
  have hfollows := deletes_workflow host timeout workflow []
  rw [hrun] at hfollows
  rcases exists_of_follows hfollows hexchange with hnil | ⟨before, -, hgrow, hmay⟩
  · cases hnil
  · obtain ⟨read, hread, htopics⟩ := hmay owner topics hrequest
    have hread' := hread.mono ((List.prefix_append _ _).trans hgrow)
    rcases htopics with ⟨hnone, hinternal⟩ | hsame
    · rw [hnone]
      exact iff_of_true ⟨read, hread', hinternal⟩ (.inr ⟨read, hread', nofun⟩)
    · have hlisted : AllInternal host workflow t owner topics ↔
          AllInternal host workflow t owner workflow.unchecked := by
        simp only [AllInternal, hsame]
      rw [hlisted]
      refine ⟨.inr, ?_⟩
      rintro (hchecks | hinternal)
      · rw [hchecks.unchecked_eq_nil]
        exact ⟨read, hread', nofun⟩
      · exact hinternal

/-! ## A topic of someone else -/

/-- A cluster in which every topic that is asked for has one partition. -/
def anyTopic : Host := hostOf fun t call =>
  match call with
  | .fetchMetadata (some topic) => .ok [{ name := topic, error := none, partitions := [0] }]
  | call => emptyCluster t call

/-- Reset the group `app` and delete a topic. -/
def resetDeleting (topic : String) : Workflow := .resetOffsets
  { group := ["app"], inputTopic := ["orders"], toEarliest := true, execute := true
    deleteInternalTopic := [topic] }

def transcriptDeleting (topic : String) : Transcript Reply Error :=
  final (((resetDeleting topic).program anyTopic 1000).run [])

theorem deleted_topics_internal_iff_changelog :
    AllInternal anyTopic (resetDeleting "app-store-changelog")
        (transcriptDeleting "app-store-changelog") "app" ["app-store-changelog"] ↔
      (resetDeleting "app-store-changelog").ChecksTopics ∨
        AllInternal anyTopic (resetDeleting "app-store-changelog")
          (transcriptDeleting "app-store-changelog") "app"
          (resetDeleting "app-store-changelog").unchecked :=
  deleted_topics_internal_iff anyTopic 1000 rfl (by decide +kernel)

/-- A topic that has nothing to do with the group is deleted for it. -/
theorem foreign_topic_deleted :
    ¬ ∀ (host : Host) (timeout : Nat) (workflow : Workflow) (owner : String) (topics : List String),
      Call.deleteTopics owner topics ∈
        (final ((workflow.program host timeout).run [])).map (·.request) →
      AllInternal host workflow (final ((workflow.program host timeout).run [])) owner topics := by
  intro hall
  have hmem : Call.deleteTopics "app" ["payments"] ∈
      (transcriptDeleting "payments").map (·.request) := by decide +kernel
  obtain ⟨_, _, hinternal⟩ := hall anyTopic 1000 (resetDeleting "payments") _ _ hmem
  have hstart := (hinternal "payments" (List.mem_singleton_self _)).startsWith_group
  revert hstart
  decide

end KafkaCli.Streams
