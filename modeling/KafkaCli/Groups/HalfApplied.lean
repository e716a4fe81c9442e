import KafkaCli.Streams.Workflows

/-!
# Resets that stop half-way

`reset_offsets` and `reset_streams_group_offsets` plan and execute in one loop. When the plan of a
group fails, the groups before it have their new offsets already. `failed_planning_iff` says when
nothing has been sent: when the group is the first one with anything to plan.
-/

namespace KafkaCli.Groups

open PlanExecute Run Session Streams

variable (host : Host) (timeout : Nat)

/-- No offsets have been sent. -/
def NoAlter (t : Transcript Reply Error) : Prop :=
  ∀ group offsets timeoutMs,
    Call.alterConsumerGroupOffsets group offsets timeoutMs ∉ t.map (·.request)

theorem noAlter_iff_of_follows {before after : Transcript Reply Error}
    (h : Follows Harmless before after) : NoAlter after ↔ NoAlter before := by
  refine ⟨?_, ?_⟩
  · intro hno group offsets timeoutMs hmem
    apply hno group offsets timeoutMs
    obtain ⟨exchange, hexchange, hrequest⟩ := List.mem_map.1 hmem
    exact List.mem_map.2 ⟨exchange, h.isPrefix.mem hexchange, hrequest⟩
  · intro hno group offsets timeoutMs hmem
    obtain ⟨exchange, hexchange, hrequest⟩ := List.mem_map.1 hmem
    rcases exists_of_follows h hexchange with hold | ⟨_, -, -, hread⟩
    · exact hno group offsets timeoutMs (List.mem_map.2 ⟨exchange, hold, hrequest⟩)
    · rw [Harmless, hrequest] at hread
      exact hread trivial

theorem ReadOnly.noAlter_iff {α : Type} {program : Command α} (h : ReadOnly program) :
    Moves (fun t t' => NoAlter t' ↔ NoAlter t) program :=
  Moves.mono h fun _ _ hfollows => noAlter_iff_of_follows hfollows

/-- A group that was executed has been sent its offsets. -/
theorem not_noAlter_of_executeGroup {group : String} {planned : PlannedOffsets}
    {before after : Transcript Reply Error}
    (h : (executeGroup host timeout true group planned).run before = .ok ⟨⟩ after) :
    ¬ NoAlter after := by
  obtain ⟨_, _, -, halter⟩ := bind_eq_ok.1 h
  obtain ⟨timeoutMs, rfl⟩ := alterConsumerGroupOffsets_ok halter
  intro hno
  apply hno group planned timeoutMs
  simp

/-! ## Runs whose planning fails -/

/-- The steps of a run that ends where the plan of an item fails. -/
structure FailedPlanning {α ι : Type} (select : Command α) (items : α → List ι)
    (timestamp : Command (Option Int)) (plan : Option Int → ι → Command (Option PlannedOffsets))
    (execute : ι → PlannedOffsets → Command PUnit) where
  selected : α
  millis : Option Int
  afterSelection : Transcript Reply Error
  start : Transcript Reply Error
  error : Error
  last : Transcript Reply Error
  selects : select.run [] = .ok selected afterSelection
  reads : timestamp.run afterSelection = .ok millis start
  fails : PlanningFails (plan millis) execute (items selected) start error last

theorem FailedPlanning.noAlter_iff {α ι : Type} {select : Command α} {items : α → List ι}
    {timestamp : Command (Option Int)} {plan : Option Int → ι → Command (Option PlannedOffsets)}
    {execute : ι → PlannedOffsets → Command PUnit}
    (failure : FailedPlanning select items timestamp plan execute) (hselect : ReadOnly select)
    (htimestamp : ReadOnly timestamp) (hplan : ∀ millis item, ReadOnly (plan millis item))
    (hexecute : ∀ item planned t t', (execute item planned).run t = .ok ⟨⟩ t' → ¬ NoAlter t') :
    NoAlter failure.last ↔
      FirstFails (plan failure.millis) (items failure.selected) failure.start := by
  have hstart : NoAlter failure.start := by
    rw [htimestamp.noAlter_iff.of_ok failure.reads, hselect.noAlter_iff.of_ok failure.selects]
    intro _ _ _ hmem
    cases hmem
  exact clean_iff (fun item => (hplan failure.millis item).noAlter_iff) hexecute failure.fails
    hstart

/-- A run of `reset_offsets` whose planning fails. -/
abbrev FailedReset (args : ResetOffsetsArgs) :=
  FailedPlanning (selectGroups host timeout args) (·.1)
    (resetTimestamp host args.toDatetime args.byDuration) (planGroup host timeout args)
    (executeGroup host timeout args.execute)

/-- A run of `reset_streams_group_offsets` whose planning fails. -/
abbrev FailedStreamsReset (args : StreamsGroupResetOffsetsArgs) :=
  FailedPlanning (selectStreamsGroups host args) (·.1.toList)
    (resetTimestamp host args.toDatetime args.byDuration) (planStreamsGroup host args)
    fun group => executeGroup host timeout args.execute group.1

/-! ## Groups that are skipped -/

/-- With `--all-topics`, the cluster lists no committed offsets for the group. -/
def Skipped (args : ResetOffsetsArgs) (group : String) (t t' : Transcript Reply Error) : Prop :=
  args.allTopics = true ∧ ∃ topics t₁,
    (host.ask (.createConsumer [("group.id", group)])).run t = .ok () t₁ ∧
      (committedTopics host timeout group).run t₁ = .ok topics t' ∧ topics.isEmpty = true

/-- The groups before the first one whose plan fails are skipped. -/
def OnlySkippedBefore (args : ResetOffsetsArgs) (timestamp : Option Int) :
    List String → Transcript Reply Error → Prop
  | [], _ => False
  | group :: rest, t =>
    (∃ error t', (planGroup host timeout args timestamp group).run t = .error error t') ∨
      ∃ t', Skipped host timeout args group t t' ∧ OnlySkippedBefore args timestamp rest t'

theorem map_some_ne_none {α : Type} {program : Command α} {t t' : Transcript Reply Error} :
    (some <$> program).run t ≠ .ok none t' := by
  intro h
  rw [map_eq_pure_bind] at h
  obtain ⟨_, _, -, hpure⟩ := bind_eq_ok.1 h
  cases hpure

theorem planGroup_eq_none {args : ResetOffsetsArgs} {timestamp : Option Int} {group : String}
    {t t' : Transcript Reply Error} :
    (planGroup host timeout args timestamp group).run t = .ok none t' ↔
      Skipped host timeout args group t t' := by
  refine ⟨?_, ?_⟩
  · intro h
    obtain ⟨_, t₁, hconsumer, hrest⟩ := bind_eq_ok.1 h
    by_cases hall : args.allTopics = true
    · rw [if_pos hall] at hrest
      obtain ⟨topics, t₂, htopics, hplan⟩ := bind_eq_ok.1 hrest
      by_cases hempty : topics.isEmpty = true
      · rw [if_pos hempty] at hplan
        cases hplan
        exact ⟨hall, topics, t₁, hconsumer, htopics, hempty⟩
      · rw [if_neg hempty] at hplan
        exact absurd hplan map_some_ne_none
    · rw [if_neg hall] at hrest
      obtain ⟨topics, t₂, -, hplan⟩ := bind_eq_ok.1 hrest
      exact absurd hplan map_some_ne_none
  · intro ⟨hall, topics, t₁, hconsumer, htopics, hempty⟩
    refine bind_eq_ok.2 ⟨(), t₁, hconsumer, ?_⟩
    rw [if_pos hall]
    refine bind_eq_ok.2 ⟨topics, t', htopics, ?_⟩
    rw [if_pos hempty]
    rfl

theorem firstFails_iff_onlySkippedBefore {args : ResetOffsetsArgs} {timestamp : Option Int}
    {groups : List String} {t : Transcript Reply Error} :
    FirstFails (planGroup host timeout args timestamp) groups t ↔
      OnlySkippedBefore host timeout args timestamp groups t := by
  induction groups generalizing t with
  | nil => exact Iff.rfl
  | cons group rest ih => simp only [FirstFails, OnlySkippedBefore, planGroup_eq_none, ih]

theorem planStreamsGroup_ne_none {args : StreamsGroupResetOffsetsArgs} {timestamp : Option Int}
    (group : String × StreamsGroupDescription) (t t' : Transcript Reply Error) :
    (planStreamsGroup host args timestamp group).run t ≠ .ok none t' := by
  intro h
  obtain ⟨_, _, -, hrest⟩ := bind_eq_ok.1 h
  obtain ⟨_, _, -, hplan⟩ := bind_eq_ok.1 hrest
  exact absurd hplan map_some_ne_none

/-! ## The commands -/

theorem FailedPlanning.resetOffsets_run {args : ResetOffsetsArgs}
    (failure : FailedReset host timeout args) (hfile : args.fromFile = none) :
    (resetOffsets host timeout args).run [] = .error failure.error failure.last := by
  refine (bind_of_ok failure.selects _).trans ?_
  simp only [hfile]
  refine (bind_of_ok failure.reads _).trans ?_
  exact bind_of_error failure.fails.run _

theorem FailedPlanning.resetStreamsGroupOffsets_run {args : StreamsGroupResetOffsetsArgs}
    (failure : FailedStreamsReset host timeout args) (hfile : args.fromFile = none) :
    (resetStreamsGroupOffsets host timeout args).run [] =
      .error failure.error failure.last := by
  refine (bind_of_ok failure.selects _).trans ?_
  simp only [hfile]
  refine (bind_of_ok failure.reads _).trans ?_
  exact bind_of_error failure.fails.run _

/-- **A reset that fails.** When the plan of a group fails the command fails. It has sent no
offsets exactly when the groups before that one were skipped; for Streams groups, which are never
skipped, when the group is the first one. -/
theorem failed_planning_iff :
    (∀ (args : ResetOffsetsArgs) (failure : FailedReset host timeout args),
      args.fromFile = none → args.execute = true →
        (resetOffsets host timeout args).run [] = .error failure.error failure.last ∧
          (NoAlter failure.last ↔ OnlySkippedBefore host timeout args failure.millis
            failure.selected.1 failure.start)) ∧
      ∀ (args : StreamsGroupResetOffsetsArgs) (failure : FailedStreamsReset host timeout args),
        args.fromFile = none → args.execute = true →
          (resetStreamsGroupOffsets host timeout args).run [] =
              .error failure.error failure.last ∧
            (NoAlter failure.last ↔ ∃ group rest error t,
              failure.selected.1.toList = group :: rest ∧
                (planStreamsGroup host args failure.millis group).run failure.start =
                  .error error t) := by
  refine ⟨fun args failure hfile hexecute => ⟨?_, ?_⟩, fun args failure hfile hexecute => ⟨?_, ?_⟩⟩
  · exact failure.resetOffsets_run host timeout hfile
  · rw [← firstFails_iff_onlySkippedBefore]
    refine failure.noAlter_iff (readOnly_selectGroups host timeout args)
      (readOnly_resetTimestamp host _ _) (readOnly_planGroup host timeout args) ?_
    rw [hexecute]
    exact fun _ _ _ _ => not_noAlter_of_executeGroup host timeout
  · exact failure.resetStreamsGroupOffsets_run host timeout hfile
  · rw [← firstFails_iff (planStreamsGroup_ne_none host)]
    refine failure.noAlter_iff (readOnly_selectStreamsGroups host args)
      (readOnly_resetTimestamp host _ _) (readOnly_planStreamsGroup host args) ?_
    rw [hexecute]
    exact fun _ _ _ _ => not_noAlter_of_executeGroup host timeout

/-! ## Two groups -/

/-- A cluster with the inactive groups `a` and `b` and the topic `orders`, for which only the group
`a` has an offset. Other topics are answered with an error. -/
def oneCommitted : Host := hostOf fun t call =>
  match call with
  | .listConsumerGroups _ =>
    .ok [{ group := "a", state := "Empty" }, { group := "b", state := "Empty" }]
  | .fetchMetadata (some topic) =>
    if topic = "orders" then .ok [{ name := topic, error := none, partitions := [0] }]
    else .ok [{ name := topic, error := some "UnknownTopicOrPartition", partitions := [] }]
  | .committedOffsets partitions =>
    -- the offsets are those of the group whose consumer was made last
    let ofB := t.any fun exchange => exchange.request = .createConsumer [("group.id", "b")]
    .ok (partitions.map fun (topic, partition) =>
      { topic, partition, offset := if ofB then none else some 5 })
  | call => emptyCluster t call

/-- Reset two groups to their current offsets. -/
def resetTwo : ResetOffsetsArgs where
  group := ["a", "b"]
  topic := ["orders"]
  toCurrent := true
  execute := true

/-- The transcript when both groups are selected. -/
def selectedTwo : Transcript Reply Error :=
  final ((selectGroups oneCommitted 1000 resetTwo).run [])

/-- The transcript when the group `a` is planned. -/
def plannedFirst : Transcript Reply Error :=
  final ((planGroup oneCommitted 1000 resetTwo none "a").run selectedTwo)

/-- The transcript when the group `a` has its new offsets. -/
def executedFirst : Transcript Reply Error :=
  final ((executeGroup oneCommitted 1000 true "a" [("orders", 0, 5)]).run plannedFirst)

def halfApplied : FailedReset oneCommitted 1000 resetTwo where
  selected := (["a", "b"], [])
  millis := none
  afterSelection := selectedTwo
  start := selectedTwo
  error := .usage "partition orders:0 has no committed offset"
  last := final ((planGroup oneCommitted 1000 resetTwo none "b").run executedFirst)
  selects := eq_ok_of_value? (by decide +kernel)
  reads := rfl
  fails := .executed (eq_ok_of_value? (a := some [("orders", 0, 5)]) (by decide +kernel))
    (eq_ok_of_value? (by decide +kernel)) (.fails (eq_error_of_error? (by decide +kernel)))

/-- The reset of a Streams group whose topic is gone. -/
def resetGone : StreamsGroupResetOffsetsArgs where
  group := ["b"]
  inputTopic := ["gone"]
  toEarliest := true
  execute := true

/-- The selection of the Streams group. -/
def selectedGone :
    EStateM.Result Error (Transcript Reply Error)
      (Std.TreeMap String StreamsGroupDescription × List String) :=
  (selectStreamsGroups oneCommitted resetGone).run []

theorem selectedGone_isSome : (value? selectedGone).isSome = true := by decide +kernel

/-- The group as the cluster describes it. -/
def goneGroup : String × StreamsGroupDescription :=
  ("b", { groupId := "b", groupState := "Empty", topology := none })

theorem selectedGone_toList :
    ((value? selectedGone).get selectedGone_isSome).1.toList = [goneGroup] := by
  decide +kernel

def nothingApplied : FailedStreamsReset oneCommitted 1000 resetGone where
  selected := (value? selectedGone).get selectedGone_isSome
  millis := none
  afterSelection := final selectedGone
  start := final selectedGone
  error := .usage "topic gone not found"
  last := final ((planStreamsGroup oneCommitted resetGone none goneGroup).run (final selectedGone))
  selects := eq_ok_of_isSome selectedGone_isSome
  reads := rfl
  fails := by
    rw [selectedGone_toList]
    exact .fails (eq_error_of_error? (by decide +kernel))

theorem failed_planning_iff_two :
    (NoAlter halfApplied.last ↔ OnlySkippedBefore oneCommitted 1000 resetTwo none ["a", "b"]
        halfApplied.start) ∧
      (NoAlter nothingApplied.last ↔ ∃ group rest error t,
        nothingApplied.selected.1.toList = group :: rest ∧
          (planStreamsGroup oneCommitted resetGone none group).run nothingApplied.start =
            .error error t) :=
  ⟨((failed_planning_iff oneCommitted 1000).1 resetTwo halfApplied rfl rfl).2,
    ((failed_planning_iff oneCommitted 1000).2 resetGone nothingApplied rfl rfl).2⟩

/-- The first group has its new offsets when the plan of the second one fails. -/
theorem first_group_altered :
    ¬ ∀ (host : Host) (timeout : Nat) (args : ResetOffsetsArgs)
      (failure : FailedReset host timeout args), args.fromFile = none → args.execute = true →
      (resetOffsets host timeout args).run [] = .error failure.error failure.last →
      NoAlter failure.last := by
  intro hall
  have hno := hall oneCommitted 1000 resetTwo halfApplied rfl rfl
    (halfApplied.resetOffsets_run oneCommitted 1000 rfl)
  apply hno "a" [("orders", 0, 5)] 1000
  decide +kernel

end KafkaCli.Groups
