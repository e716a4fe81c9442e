import KafkaCli.Topics.Describe

/-!
# What the commands change

**Theorem (`topics_changes`).** Whatever others do between the requests of a command, whatever
fails, and whichever parts of a request the controller carries out: the command sends one request
at most that changes the cluster, and that changes it only as the arguments say. Where `topics
alter` is given an assignment, each partition that is added has the replicas of its index there,
also if others have added partitions since the topics were counted. The rows that are printed say
what the controller answers about each topic.
-/

namespace KafkaCli.Topics

open Checked Run
open Groups (MutationRow)

/-! ## What is allowed -/

/-- The name matches an expression as a whole. -/
def Matches (crates : Crates) (expression name : String) : Prop :=
  ∃ pattern, (topicSelector expression).pattern crates = .ok pattern ∧
    nameMatches (topicSelector expression) pattern name = true

/-- The replicas that an argument gives for a partition. -/
def AssignedAt (value : String) (index : ℕ) (replicas : List Int) : Prop :=
  ∃ assignments, parseReplicaAssignment value = .ok assignments ∧
    assignments[index]? = some replicas

/-- A topic that `topics create` has made. -/
structure CreateTopicArgs.Made (args : CreateTopicArgs) (topic : Topic) : Prop where
  name : topic.name = args.topic
  assigned : ∀ value, args.replicaAssignment = some value →
    parseReplicaAssignment value = .ok (topic.partitions.map Partition.replicas)

/-- A topic that `topics alter` has given more partitions. -/
structure AlterTopicArgs.Grown (args : AlterTopicArgs) (topic topic' : Topic) : Prop where
  same : { topic' with partitions := topic.partitions } = topic
  kept : topic.partitions <+: topic'.partitions
  more : topic.partitions.length < topic'.partitions.length
  total : (topic'.partitions.length : Int) = args.partitions
  assigned : ∀ index partition, topic.partitions.length ≤ index →
    topic'.partitions[index]? = some partition → partition.id = index ∧
      ∀ value, args.replicaAssignment = some value → AssignedAt value index partition.replicas

/-- How a command may change the cluster. -/
def TopicAction.Allows (crates : Crates) (before after : Cluster) : TopicAction → Prop
  | .list _ | .describe _ => False
  | .create args => after = before ∨ (args.topic ∉ before.topics.map Topic.name ∧
      after.brokers = before.brokers ∧ ∃ topic, args.Made topic ∧
        after.topics = before.topics ++ [topic])
  | .alter args => after.brokers = before.brokers ∧
      List.Forall₂ (fun topic topic' => topic' = topic ∨
        (Matches crates args.topic topic.name ∧ args.Grown topic topic'))
        before.topics after.topics
  | .delete args => after.brokers = before.brokers ∧ ∃ keep : Topic → Bool,
      after.topics = before.topics.filter keep ∧
        ∀ topic ∈ before.topics, keep topic = false → Matches crates args.topic topic.name

/-- A topic that exists is no error. -/
def TopicAction.ignoresExisting : TopicAction → Bool
  | .create args => args.ifNotExists
  | _ => false

/-- The row of a topic says what the controller has answered about it. -/
structure Says (ignoreExists : Bool) (result : String × Option ErrorCode) (row : MutationRow) :
    Prop where
  resource : row.resource = result.1
  status : row.status = "OK" ↔ result.2 = none
  failed : row.error = none ↔
    result.2 = none ∨ ignoreExists = true ∧ result.2 = some .topicAlreadyExists
  text : ∀ error, row.error = some error → result.2.map ErrorCode.text = some error

/-- What a run of a command has done. -/
def Outcome (crates : Crates) (action : TopicAction) (world : World)
    (result : EStateM.Result Error World Unit) : Prop :=
  ∃ sent : List Change, (final result).changes = world.changes ++ sent ∧ sent.length ≤ 1 ∧
    (∀ change ∈ sent, action.Allows crates change.before change.after) ∧
    ∃ written : List Output, (final result).output = world.output ++ written ∧
      written.length ≤ 1 ∧ ∀ command rows, .mutation command rows ∈ written →
        (sent = [] ∧ rows.map MutationRow.status = ["NO_MATCH"]) ∨
          ∃ change, sent = [change] ∧ rows.map MutationRow.resource = change.request.names ∧
            List.Forall₂ (Says action.ignoresExisting)
              (world.controller.answer change.request change.before) rows ∧
            (error? result = none ↔ ∀ row ∈ rows, row.error = none)

/-! ## Runs that send nothing -/

/-- Nothing was sent or written in between. -/
structure Untouched (world world' : World) : Prop where
  controller : world'.controller = world.controller
  changes : world'.changes = world.changes
  output : world'.output = world.output

instance : IsPreorder World Untouched where
  refl _ := ⟨rfl, rfl, rfl⟩
  trans _ _ _ h h' := ⟨h'.1.trans h.1, h'.2.trans h.2, h'.3.trans h.3⟩

theorem untouched_query {α : Type} (read : Cluster → Result α) : Moves Untouched (query read) := by
  intro world
  cases hfailure : world.turn.failure with
  | some failure =>
    rw [query_of_some hfailure]
    exact ⟨rfl, rfl, rfl⟩
  | none =>
    rw [query_of_none hfailure]
    have hbegin : Untouched world world.begin := ⟨rfl, rfl, rfl⟩
    exact trans_of Untouched hbegin (Moves.ofExcept _ world.begin)

/-! ## One request -/

section Send

variable {request : Request} {world : World}

/-- The world behind a request, whether it fails or is answered. -/
def World.sent (world : World) (request : Request) : World :=
  world.begin.changed ⟨request, world.begin.cluster,
    world.controller.apply request world.begin.cluster⟩

theorem send_of_failure {failure : Error} (h : world.turn.failure = some failure) :
    (send request).run world = .error failure (world.sent request) := by
  have hget : (get : Tool World).run world = .ok world world := rfl
  have hset : (set (world.sent request) : Tool PUnit).run world = .ok ⟨⟩ (world.sent request) := rfl
  refine (bind_of_ok hget _).trans ((bind_of_ok hset _).trans ?_)
  rw [h]
  rfl

theorem send_of_answer (h : world.turn.failure = none) :
    (send request).run world =
      .ok (world.controller.answer request world.begin.cluster) (world.sent request) := by
  have hget : (get : Tool World).run world = .ok world world := rfl
  have hset : (set (world.sent request) : Tool PUnit).run world = .ok ⟨⟩ (world.sent request) := rfl
  refine (bind_of_ok hget _).trans ((bind_of_ok hset _).trans ?_)
  rw [h]
  rfl

end Send

section TopicResults

variable {command : String} {results : List (String × Option ErrorCode)} {ignoreExists : Bool}
  {total : ℕ}

/-- The end of a command. -/
theorem topicResults_run (world : World) :
    (topicResults command results ignoreExists total).run world =
      EStateM.run (ofExcept (failIf
        (((results.map (topicResult ignoreExists)).filter (·.error.isSome)).length ≠ 0)
        (.partialFailure ((results.map (topicResult ignoreExists)).filter
          (·.error.isSome)).length total)))
        (world.wrote (.mutation command (results.map (topicResult ignoreExists)))) := rfl

theorem final_topicResults (world : World) :
    final ((topicResults command results ignoreExists total).run world) =
      world.wrote (.mutation command (results.map (topicResult ignoreExists))) := by
  rw [topicResults_run, failIf]
  split_ifs <;> rfl

theorem error?_topicResults (world : World) :
    error? ((topicResults command results ignoreExists total).run world) = none ↔
      ∀ row ∈ results.map (topicResult ignoreExists), row.error = none := by
  have hnone : ((results.map (topicResult ignoreExists)).filter (·.error.isSome)).length = 0 ↔
      ∀ row ∈ results.map (topicResult ignoreExists), row.error = none := by
    rw [List.length_eq_zero_iff, List.filter_eq_nil_iff]
    simp
  rw [topicResults_run, failIf, ← hnone]
  split_ifs with h
  · simp [error?, h]
  · rw [not_not] at h
    simp [error?, h]

end TopicResults

/-! ## What the rows say -/

section Rows

variable {ignoreExists : Bool} (results : List (String × Option ErrorCode))

theorem says_of_topicResult (result : String × Option ErrorCode) :
    Says ignoreExists result (topicResult ignoreExists result) := by
  obtain ⟨name, error⟩ := result
  cases error with
  | none => exact ⟨rfl, by simp [topicResult], by simp [topicResult], by simp [topicResult]⟩
  | some code =>
    by_cases hexists : ignoreExists = true ∧ code = .topicAlreadyExists
    · exact ⟨rfl, by simp [topicResult, hexists], by simp [topicResult, hexists],
        by simp [topicResult, hexists]⟩
    · exact ⟨rfl, by simp [topicResult, hexists], by simp [topicResult, hexists],
        by simp [topicResult, hexists]⟩

theorem says_topicResult :
    List.Forall₂ (Says ignoreExists) results (results.map (topicResult ignoreExists)) := by
  rw [List.forall₂_map_right_iff, List.forall₂_same]
  exact fun result _ => says_of_topicResult result

theorem resources_topicResult {request : Request} (h : results.map Prod.fst = request.names) :
    (results.map (topicResult ignoreExists)).map MutationRow.resource = request.names := by
  rw [List.map_map, ← h]
  rfl

end Rows

section Outcomes

variable {crates : Crates} {action : TopicAction} {world world' : World}
  {result : EStateM.Result Error World Unit}

/-- A run that goes on from where nothing was touched. -/
theorem Outcome.from (h : Untouched world world') (houtcome : Outcome crates action world' result) :
    Outcome crates action world result := by
  rw [Outcome, ← h.changes, ← h.output, ← h.controller]
  exact houtcome

theorem Outcome.nothing (h : Untouched world (final result)) :
    Outcome crates action world result :=
  ⟨[], by rw [h.changes, List.append_nil], Nat.zero_le 1, nofun, [],
    by rw [h.output, List.append_nil], Nat.zero_le 1, nofun⟩

/-- First something that touches nothing. -/
theorem Outcome.bind {α : Type} {program : Tool α} {next : α → Tool Unit}
    (hprogram : Moves Untouched program)
    (hnext : ∀ a world', program.run world = .ok a world' → Untouched world world' →
      Outcome crates action world' ((next a).run world')) :
    Outcome crates action world ((program >>= next).run world) := by
  cases hrun : program.run world with
  | ok a world' =>
    rw [bind_of_ok hrun]
    have huntouched := hprogram.of_ok hrun
    exact .from huntouched (hnext a world' hrun huntouched)
  | error error world' =>
    rw [bind_of_error hrun]
    exact .nothing (hprogram.of_error hrun)

/-- One output that is not about changes. -/
theorem Outcome.write {output : Output} (h : ∀ command rows, output = .mutation command rows →
      rows.map MutationRow.status = ["NO_MATCH"]) :
    Outcome crates action world ((write output).run world) := by
  refine ⟨[], (List.append_nil _).symm, Nat.zero_le 1, nofun, [output], rfl, le_refl 1, ?_⟩
  intro command rows hmem
  exact .inl ⟨rfl, h command rows (List.mem_singleton.1 hmem).symm⟩

/-- A request, and the rows for its answer. -/
theorem Outcome.send {request : Request} {command : String} {total : ℕ}
    (hlawful : world.controller.Lawful)
    (hallows : action.Allows crates world.begin.cluster
      (world.controller.apply request world.begin.cluster)) :
    Outcome crates action world ((Topics.send request >>= fun results =>
      topicResults command results action.ignoresExisting total).run world) := by
  have hsent : ∀ change ∈ [(⟨request, world.begin.cluster,
      world.controller.apply request world.begin.cluster⟩ : Change)],
      action.Allows crates change.before change.after := by
    intro change hmem
    rw [List.mem_singleton.1 hmem]
    exact hallows
  cases hfailure : world.turn.failure with
  | some failure =>
    rw [bind_of_error (send_of_failure hfailure)]
    exact ⟨[_], rfl, le_refl 1, hsent, [], (List.append_nil _).symm, Nat.zero_le 1, nofun⟩
  | none =>
    rw [bind_of_ok (send_of_answer hfailure)]
    refine ⟨[_], by rw [final_topicResults]; rfl, le_refl 1, hsent, [_],
      by rw [final_topicResults]; rfl, le_refl 1, fun command' rows hmem => .inr ⟨_, rfl, ?_⟩⟩
    obtain ⟨-, rfl⟩ := Output.mutation.inj (List.mem_singleton.1 hmem)
    exact ⟨resources_topicResult _ (hlawful.answering request _), says_topicResult _,
      error?_topicResults _⟩

end Outcomes

/-! ## What is allowed -/

section Allows

variable {crates : Crates} {controller : Controller} {before : Cluster}

theorem parseAssignments_eq_ok {value : String} {assignments : Option (List (List Int))}
    (h : parseAssignments (some value) = .ok assignments) :
    ∃ items, parseReplicaAssignment value = .ok items ∧ assignments = some items := by
  rw [parseAssignments] at h
  cases hparse : parseReplicaAssignment value with
  | error error =>
    rw [hparse] at h
    cases h
  | ok items =>
    rw [hparse] at h
    cases h
    exact ⟨items, rfl, rfl⟩

theorem newTopic_eq_ok {args : CreateTopicArgs} {new : NewTopic} (h : newTopic args = .ok new) :
    new.name = args.topic ∧ ∀ value, args.replicaAssignment = some value →
      ∃ items, parseReplicaAssignment value = .ok items ∧ new.replication = .variable items := by
  simp only [newTopic, Checked.bind_eq_ok, Checked.pure_eq_ok] at h
  obtain ⟨assignments, hassignments, _, _, configs, _, rfl⟩ := h
  refine ⟨rfl, fun value hvalue => ?_⟩
  rw [hvalue] at hassignments
  obtain ⟨items, hparse, rfl⟩ := parseAssignments_eq_ok hassignments
  exact ⟨items, hparse, rfl⟩

theorem allows_create {args : CreateTopicArgs} {new : NewTopic} (hlawful : controller.Lawful)
    (hnew : newTopic args = .ok new) :
    TopicAction.Allows crates before (controller.apply (.createTopics new) before)
      (.create args) := by
  obtain ⟨hname, hreplication⟩ := newTopic_eq_ok hnew
  rcases hlawful.creating new before with hsame | ⟨hfree, hbrokers, topic, hcreated, htopics⟩
  · exact .inl hsame
  · have hmade : args.Made topic := by
      refine ⟨hcreated.name.trans hname, fun value hvalue => ?_⟩
      obtain ⟨items, hparse, hvariable⟩ := hreplication value hvalue
      rw [hparse, hcreated.assigned items hvariable]
    exact .inr ⟨hname ▸ hfree, hbrokers, topic, hmade, htopics⟩

/-- What is asked for is the arguments' total, and their replicas for what is missing. -/
structure AlterTopicArgs.Asks (args : AlterTopicArgs) (request : NewPartitions) : Prop where
  total : (request.newPartitionCount : Int) = args.partitions
  assigned : ∀ value, args.replicaAssignment = some value → ∃ items existing,
    parseReplicaAssignment value = .ok items ∧ items.length = request.newPartitionCount ∧
      existing < request.newPartitionCount ∧ request.assignment = some (items.drop existing)

theorem newPartitions_eq_ok {target : ℕ} {assignments : Option (List (List Int))}
    {topic : MetadataTopic} {request : NewPartitions} :
    newPartitions target assignments topic = .ok request ↔ topic.partitions.length < target ∧
      request = ⟨topic.name, target, assignments.map (·.drop topic.partitions.length)⟩ := by
  simp only [newPartitions, Checked.bind_eq_ok, Checked.failIf_eq_ok, Checked.pure_eq_ok, not_le,
    exists_const, ge_iff_le]
  exact and_congr_right' eq_comm

theorem partitionRequests_eq_ok {args : AlterTopicArgs} {selected : List MetadataTopic}
    {requests : List NewPartitions} (h : partitionRequests args selected = .ok requests) :
    requests.map NewPartitions.topic = selected.map MetadataTopic.name ∧
      ∀ request ∈ requests, args.Asks request := by
  simp only [partitionRequests, Checked.bind_eq_ok, Checked.failIf_eq_ok] at h
  obtain ⟨assignments, hassignments, _, hpositive, _, hlength, hrequests⟩ := h
  constructor
  · have hmap := mapM_ok_eq_map (fun _ _ hrequest => (newPartitions_eq_ok.1 hrequest).2) hrequests
    rw [hmap, List.map_map]
    rfl
  · intro request hmem
    obtain ⟨topic, -, hrequest⟩ := (mem_mapM_ok hrequests).1 hmem
    obtain ⟨hmore, rfl⟩ := newPartitions_eq_ok.1 hrequest
    refine ⟨Int.toNat_of_nonneg (by omega), fun value hvalue => ?_⟩
    rw [hvalue] at hassignments
    obtain ⟨items, hparse, rfl⟩ := parseAssignments_eq_ok hassignments
    refine ⟨items, topic.partitions.length, hparse, ?_, hmore, rfl⟩
    simpa using hlength

/-- A topic that got the partitions of a request has the replicas of its index at each new one.
The argument has as many entries as the topic has partitions now, and the request those behind
the partitions that were counted, so as many were there. -/
theorem grown_of_extends {args : AlterTopicArgs} {topic topic' : Topic} {request : NewPartitions}
    {added : List Partition} (hasks : args.Asks request)
    (h : request.Extends topic topic' added) : args.Grown topic topic' := by
  obtain ⟨hname, rfl, hmore, htotal, hids, hassigned⟩ := h
  have hlength : topic.partitions.length + added.length = request.newPartitionCount := by
    rw [← htotal, List.length_append]
  have hpositive := List.length_pos_of_ne_nil hmore
  refine ⟨rfl, List.prefix_append _ _, ?_, ?_, ?_⟩
  · show topic.partitions.length < (topic.partitions ++ added).length
    rw [List.length_append]
    omega
  · rw [htotal]
    exact hasks.total
  · intro index partition hindex hpartition
    replace hpartition : added[index - topic.partitions.length]? = some partition := by
      rwa [← List.getElem?_append_right hindex]
    have hid := hids _ partition hpartition
    rw [Nat.add_sub_cancel' hindex] at hid
    refine ⟨hid, fun value hvalue => ?_⟩
    obtain ⟨items, existing, hparse, hitems, hexisting, hassignment⟩ :=
      hasks.assigned value hvalue
    have hreplicas := hassigned _ hassignment
    have hcounted : existing = topic.partitions.length := by
      have hdropped := congrArg List.length hreplicas
      rw [List.length_map, List.length_drop] at hdropped
      omega
    refine ⟨items, hparse, ?_⟩
    have hget := congrArg (·[index - topic.partitions.length]?) hreplicas
    simpa [hpartition, hcounted, Nat.add_sub_cancel' hindex] using hget.symm

theorem allows_alter {args : AlterTopicArgs} {requests : List NewPartitions}
    (hlawful : controller.Lawful)
    (hmatches : ∀ request ∈ requests, Matches crates args.topic request.topic)
    (hasks : ∀ request ∈ requests, args.Asks request) :
    TopicAction.Allows crates before (controller.apply (.createPartitions requests) before)
      (.alter args) := by
  obtain ⟨hbrokers, htopics⟩ := hlawful.extending requests before
  refine ⟨hbrokers, htopics.imp fun topic topic' h => h.imp_right ?_⟩
  intro ⟨request, hmem, added, hextends⟩
  exact ⟨hextends.name ▸ hmatches request hmem, grown_of_extends (hasks request hmem) hextends⟩

theorem allows_delete {args : DeleteTopicArgs} {names : List String}
    (hlawful : controller.Lawful) (hmatches : ∀ name ∈ names, Matches crates args.topic name) :
    TopicAction.Allows crates before (controller.apply (.deleteTopics names) before)
      (.delete args) := by
  obtain ⟨hbrokers, keep, htopics, hgone⟩ := hlawful.deleting names before
  exact ⟨hbrokers, keep, htopics, fun topic hmem hkeep =>
    hmatches topic.name (hgone topic hmem hkeep)⟩

end Allows

/-! ## The commands -/

section Commands

variable {crates : Crates} {world : World}

/-- What is selected by an expression matches it. -/
theorem matches_of_selectTopics {metadata : Metadata} {expression : String}
    {selected : List MetadataTopic}
    (h : selectTopics crates metadata (topicSelector expression) = .ok selected) :
    ∀ topic ∈ selected, Matches crates expression topic.name := by
  obtain ⟨pattern, hpattern, heq⟩ := Checked.bind_eq_ok.1 h
  cases heq
  intro topic hmem
  exact ⟨pattern, hpattern, by simpa using (List.mem_filter.1 hmem).2⟩

theorem outcome_list (args : ListTopicArgs) :
    Outcome crates (.list args) world ((listTopics crates args).run world) := by
  refine .bind (untouched_query _) fun metadata world₁ _ _ => ?_
  refine .bind (.ofExcept _) fun topics world₂ _ _ => ?_
  exact .write nofun

theorem untouched_askAbout {α : Type} {names : List String} {ask : List String → Tool (List α)}
    (h : ∀ names, Moves Untouched (ask names)) : Moves Untouched (askAbout names ask) :=
  .ite (.pure _) (h names)

theorem outcome_describe (args : DescribeTopicArgs) :
    Outcome crates (.describe args) world ((describeTopics crates args).run world) := by
  refine .bind (.ofExcept _) fun _ world₁ _ _ => ?_
  refine .bind (untouched_query _) fun metadata world₂ _ _ => ?_
  refine .bind (.ofExcept _) fun candidates world₃ _ _ => ?_
  refine .bind (untouched_askAbout fun names => .bind (.ofExcept _) fun _ => untouched_query _)
    fun identities world₄ _ _ => ?_
  refine .bind (.ofExcept _) fun _ world₅ _ _ => ?_
  refine .bind (untouched_askAbout fun names => untouched_query _) fun resources world₆ _ _ => ?_
  split_ifs
  · exact .write nofun
  · refine .bind (untouched_query _) fun metadata world₇ _ _ => ?_
    exact .bind (.ofExcept _) fun topics world₈ _ _ => .write nofun

theorem outcome_create (args : CreateTopicArgs) (hlawful : world.controller.Lawful) :
    Outcome crates (.create args) world ((createTopics args).run world) := by
  refine .bind (.ofExcept _) fun new world₁ hrun _ => ?_
  obtain ⟨hnew, rfl⟩ := run_ofExcept_eq_ok.1 hrun
  exact .send hlawful (allows_create hlawful hnew)

/-- The program goes on from what an expression selects. -/
theorem outcome_selected {action : TopicAction} {expression : String}
    {next : List MetadataTopic → Tool Unit} (hlawful : world.controller.Lawful)
    (hnext : ∀ selected world', world'.controller.Lawful →
      (∀ topic ∈ selected, Matches crates expression topic.name) →
      Outcome crates action world' ((next selected).run world')) :
    Outcome crates action world ((do
      let metadata ← fetchMetadata
      let selected ← ofExcept (selectTopics crates metadata (topicSelector expression))
      next selected).run world) := by
  refine .bind (untouched_query _) fun metadata world₁ _ huntouched => ?_
  refine .bind (.ofExcept _) fun selected world₂ hrun _ => ?_
  obtain ⟨hselected, rfl⟩ := run_ofExcept_eq_ok.1 hrun
  exact hnext selected world₁ (huntouched.controller ▸ hlawful) (matches_of_selectTopics hselected)

theorem outcome_alter (args : AlterTopicArgs) (hlawful : world.controller.Lawful) :
    Outcome crates (.alter args) world ((alterTopics crates args).run world) := by
  refine outcome_selected hlawful fun selected world₁ hlawful hmatches => ?_
  split_ifs
  · refine .write fun command rows heq => ?_
    cases heq
    rfl
  · exact .nothing ((Moves.throw _ : Moves Untouched _) world₁)
  · refine .bind (.ofExcept _) fun requests world₂ hrun _ => ?_
    obtain ⟨hrequests, rfl⟩ := run_ofExcept_eq_ok.1 hrun
    obtain ⟨hnames, hasks⟩ := partitionRequests_eq_ok hrequests
    refine .send hlawful (allows_alter hlawful (fun request hmem => ?_) hasks)
    have hname : request.topic ∈ selected.map MetadataTopic.name :=
      hnames ▸ List.mem_map_of_mem hmem
    obtain ⟨topic, htopic, heq⟩ := List.mem_map.1 hname
    exact heq ▸ hmatches topic htopic

theorem outcome_delete (args : DeleteTopicArgs) (hlawful : world.controller.Lawful) :
    Outcome crates (.delete args) world ((removeTopics crates args).run world) := by
  refine outcome_selected hlawful fun selected world₁ hlawful hmatches => ?_
  split_ifs
  · refine .write fun command rows heq => ?_
    cases heq
    rfl
  · exact .nothing ((Moves.throw _ : Moves Untouched _) world₁)
  · refine .send hlawful (allows_delete hlawful fun name hname => ?_)
    obtain ⟨topic, htopic, rfl⟩ := List.mem_map.1 hname
    exact hmatches topic htopic

/-- **What the commands change.** Whatever happens between the requests of a command, it sends at
most one that changes topics; what that changes is what the arguments allow, and the rows that are
printed say what the controller answers. The command returns without an error just if no row has
one. -/
theorem topics_changes (crates : Crates) (action : TopicAction) {world : World}
    (hlawful : world.controller.Lawful) :
    Outcome crates action world ((topics crates action).run world) := by
  cases action with
  | list args => exact outcome_list args
  | describe args => exact outcome_describe args
  | create args => exact outcome_create args hlawful
  | alter args => exact outcome_alter args hlawful
  | delete args => exact outcome_delete args hlawful

end Commands

/-! ## Two partitions more -/

/-- The partitions that a request with an assignment of the right length adds. -/
def newPlaced (request : NewPartitions) (topic : Topic) : List Partition :=
  match request.assignment with
  | some assignment =>
    if topic.partitions.length + assignment.length = request.newPartitionCount then
      assignment.mapIdx fun index replicas =>
        ⟨topic.partitions.length + index, replicas.headD (-1), replicas, replicas⟩
    else []
  | none => []

/-- The topic behind the requests of which one may name it. -/
def withPlaced (requests : List NewPartitions) (topic : Topic) : Topic :=
  match requests.find? (·.topic = topic.name) with
  | some request => { topic with partitions := topic.partitions ++ newPlaced request topic }
  | none => topic

@[simp] theorem name_withPlaced (requests : List NewPartitions) (topic : Topic) :
    (withPlaced requests topic).name = topic.name := by
  unfold withPlaced
  split <;> rfl

theorem extends_newPlaced {request : NewPartitions} {topic : Topic}
    (hname : topic.name = request.topic) (hsome : newPlaced request topic ≠ []) :
    request.Extends topic { topic with partitions := topic.partitions ++ newPlaced request topic }
      (newPlaced request topic) := by
  unfold newPlaced at hsome ⊢
  cases hassignment : request.assignment with
  | none =>
    rw [hassignment] at hsome
    exact absurd rfl hsome
  | some assignment =>
    rw [hassignment] at hsome
    by_cases hlength : topic.partitions.length + assignment.length = request.newPartitionCount
    swap
    · exact absurd (if_neg hlength) hsome
    simp only [if_pos hlength] at hsome ⊢
    refine ⟨hname, rfl, hsome, by simpa using hlength, ?_, ?_⟩
    · intro index partition hpartition
      rw [List.getElem?_mapIdx, Option.map_eq_some_iff] at hpartition
      obtain ⟨replicas, -, rfl⟩ := hpartition
      rfl
    · intro assignment' heq
      obtain rfl := Option.some.inj (hassignment.symm.trans heq)
      refine List.ext_getElem? fun index => ?_
      simp [Function.comp_def]

/-- Creating and deleting is forbidden. -/
def forbidden (name : String) : String × Option ErrorCode :=
  (name, some (.other "TopicAuthorizationFailed (Broker: Topic authorization failed)"))

/-- A controller that lets nobody create or delete topics, but places partitions. -/
def placingController : Controller where
  apply
    | .createPartitions requests, cluster =>
      { cluster with
        topics := cluster.topics.map (withPlaced requests)
        nodup := by simpa [Function.comp_def] using cluster.nodup }
    | _, cluster => cluster
  answer
    | .createPartitions requests, cluster => requests.map fun request =>
      (request.topic, (cluster.topic? request.topic).elim (some unknownTopic) fun topic =>
        if newPlaced request topic = [] then
          some (.other "InvalidReplicaAssignment (Broker: Invalid replica assignment)")
        else none)
    | request, _ => request.names.map forbidden

theorem lawful_placingController : placingController.Lawful where
  creating _ _ := .inl rfl
  extending requests cluster := by
    refine ⟨rfl, ?_⟩
    show List.Forall₂ _ cluster.topics (cluster.topics.map (withPlaced requests))
    rw [List.forall₂_map_right_iff, List.forall₂_same]
    intro topic _
    unfold withPlaced
    cases hfind : requests.find? (·.topic = topic.name) with
    | none => exact .inl rfl
    | some request =>
      have hname : request.topic = topic.name := by simpa using List.find?_some hfind
      by_cases hnone : newPlaced request topic = []
      · simp [hnone]
      · exact .inr ⟨request, List.mem_of_find?_eq_some hfind, _, extends_newPlaced hname.symm hnone⟩
  deleting _ _ := ⟨rfl, fun _ => true, by simp [placingController], nofun⟩
  answering request cluster := by
    cases request <;> simp [placingController, Request.names, forbidden, Function.comp_def]

/-- A topic with one partition on two brokers. -/
def onePartition : World where
  controller := placingController
  cluster := {
    brokers := [1, 2]
    topics := [⟨"orders", "id1", [⟨0, 1, [1, 2], [1, 2]⟩], []⟩]
    nodup := by decide }
  turns := []
  changes := []
  output := []

/-- Three partitions are asked for, and where they are to be. -/
def threePartitions : AlterTopicArgs where
  topic := "orders"
  partitions := 3
  replicaAssignment := some "1:2,2:1,1:2"

theorem topics_changes_placed :
    (final ((topics literalCrates (.alter threePartitions)).run onePartition)).cluster.topics =
        [⟨"orders", "id1", [⟨0, 1, [1, 2], [1, 2]⟩, ⟨1, 2, [2, 1], [2, 1]⟩, ⟨2, 1, [1, 2], [1, 2]⟩],
          []⟩] ∧
      Outcome literalCrates (.alter threePartitions) onePartition
        ((topics literalCrates (.alter threePartitions)).run onePartition) := by
  refine ⟨by decide +kernel, ?_⟩
  exact topics_changes literalCrates (.alter threePartitions) lawful_placingController

end KafkaCli.Topics
