import KafkaCli.Streams.ApplicationReset

/-!
# The dry run of an application reset

A dry run sends no offsets and deletes no topic. It does remove the members of an active group
when it is told to by `--force`, since the preview starts where the reset starts. `dryRun_follows`
says that this is all: the members are those of the application's own group, as the cluster
described them in this run.
-/

namespace KafkaCli.Streams

open Groups Run Session

variable (host : Host) (timeout : Nat) (args : StreamsApplicationResetArgs)

/-! ## What a dry run may do -/

/-- The application's group was listed. -/
def Listed (before : Transcript Reply Error) : Prop :=
  ∃ timeoutMs listings, ⟨.listConsumerGroups timeoutMs, .ok listings⟩ ∈ before ∧
    ∃ listing ∈ listings, ConsumerGroupListing.group listing = args.applicationId

/-- The application's group was described with these members. -/
def DescribedWith (before : Transcript Reply Error) (members : List ConsumerGroupMember) : Prop :=
  ∃ timeoutMs descriptions description,
    ⟨.describeConsumerGroups [args.applicationId] timeoutMs, .ok descriptions⟩ ∈ before ∧
      List.getLast? descriptions = some description ∧
      ConsumerGroupDescription.members description = members

/-- A change that a dry run may ask for: the members of the application's group leave it, by
force, once the group was found to be active. -/
def Eviction (before : Transcript Reply Error) (call : Call) : Prop :=
  args.force = true ∧ ∃ version members, members ≠ [] ∧ Listed args before ∧
    DescribedWith args before members ∧
    call = .leaveGroup args.applicationId version (leavingMembers version members)

/-- An exchange of a dry run. -/
def DryRunMay (before : Transcript Reply Error) (exchange : Exchange Reply Error) : Prop :=
  exchange.request.Mutating → Eviction args before exchange.request

variable {args}

theorem Listed.mono {before after : Transcript Reply Error} (h : Listed args before)
    (hgrow : before <+: after) : Listed args after := by
  obtain ⟨timeoutMs, listings, hmem, hlisting⟩ := h
  exact ⟨timeoutMs, listings, hgrow.mem hmem, hlisting⟩

theorem DescribedWith.mono {before after : Transcript Reply Error}
    {members : List ConsumerGroupMember} (h : DescribedWith args before members)
    (hgrow : before <+: after) : DescribedWith args after members := by
  obtain ⟨timeoutMs, descriptions, description, hmem, hlast⟩ := h
  exact ⟨timeoutMs, descriptions, description, hgrow.mem hmem, hlast⟩

variable (args)

theorem moves_of_readOnly {α : Type} {program : Command α} (h : ReadOnly program) :
    Moves (Follows (DryRunMay args)) program :=
  h.moves fun _ _ hread hmutating => absurd hmutating hread

/-! ## Members -/

theorem movesFrom_forceRemove {before : Transcript Reply Error}
    {members : List ConsumerGroupMember} (hforce : args.force = true) (hne : members ≠ [])
    (hlisted : Listed args before) (hdescribed : DescribedWith args before members) :
    MovesFrom (Follows (DryRunMay args)) before
      (forceRemoveConsumerGroupMembers host args.applicationId members) := by
  have hconnect := readOnly_groupCoordinatorConnection host args.applicationId
  refine ((moves_of_readOnly args hconnect).from before).bind fun _ t₁ h₁ => ?_
  have hnegotiate := readOnly_negotiateApiVersion host .leaveGroup 5 3
    "broker does not support batch LeaveGroup v3+"
  refine ((moves_of_readOnly args hnegotiate).from t₁).bind fun version t₂ h₂ => ?_
  have hgrow : before <+: t₂ :=
    (hconnect.of_ok h₁).isPrefix.trans (hnegotiate.of_ok h₂).isPrefix
  refine MovesFrom.bind (movesFrom_ask fun _ _ => ?_) fun _ t _ => (Moves.ofExcept _).from t
  exact ⟨hforce, version, members, hne, hlisted.mono hgrow, hdescribed.mono hgrow, rfl⟩

theorem movesFrom_evictMembers {before : Transcript Reply Error} (hlisted : Listed args before) :
    MovesFrom (Follows (DryRunMay args)) before (evictMembers host timeout args) := by
  have hdescribe := readOnly_describeConsumerGroups host [args.applicationId] timeout
  refine ((moves_of_readOnly args hdescribe).from before).bind fun descriptions t₁ h₁ => ?_
  obtain ⟨timeoutMs, rfl⟩ := describeConsumerGroups_ok h₁
  refine ((Moves.ofExcept _).from _).bind fun description t₂ h₂ => ?_
  obtain ⟨hdescription, rfl⟩ := eq_of_ofExcept_ok h₂
  have hlast : descriptions.getLast? = some description := by
    cases hlast : descriptions.getLast? with
    | none =>
      rw [hlast] at hdescription
      cases hdescription
    | some last =>
      rw [hlast] at hdescription
      cases hdescription
      rfl
  by_cases hnone : description.members = []
  · rw [if_pos hnone]
    exact .pure _
  · rw [if_neg hnone]
    refine ((Moves.ofExcept _).from _).bind fun _ t₃ h₃ => ?_
    obtain ⟨hcheck, rfl⟩ := eq_of_ofExcept_ok h₃
    have hforce : args.force = true := by simpa using hcheck
    have hadmin : ReadOnly (host.ask .protocolAdmin) := readOnly_ask host not_false
    refine ((moves_of_readOnly args hadmin).from _).bind fun _ t₄ h₄ => ?_
    have hgrow := (hadmin.of_ok h₄).isPrefix
    refine movesFrom_forceRemove host args hforce hnone ?_ ?_
    · exact hlisted.mono ((List.prefix_append _ _).trans hgrow)
    · refine ⟨timeoutMs, descriptions, description, hgrow.mem ?_, hlast, rfl⟩
      exact List.mem_append_right _ (List.mem_singleton_self _)

theorem movesFrom_ensureInactive (before : Transcript Reply Error) :
    MovesFrom (Follows (DryRunMay args)) before (ensureInactive host timeout args) := by
  have hlist := readOnly_listConsumerGroups host timeout
  refine ((moves_of_readOnly args hlist).from before).bind fun listings t₁ h₁ => ?_
  obtain ⟨timeoutMs, rfl⟩ := listConsumerGroups_ok h₁
  by_cases hlisted : ∃ listing ∈ listings, listing.group = args.applicationId
  · rw [if_pos hlisted]
    refine movesFrom_evictMembers host timeout args ⟨timeoutMs, listings, ?_, hlisted⟩
    exact List.mem_append_right _ (List.mem_singleton_self _)
  · rw [if_neg hlisted]
    exact .pure _

/-! ## Offsets and topics -/

theorem readOnly_applyReset_dryRun (hdry : args.dryRun = true) (preparation : ResetPreparation) :
    ReadOnly (applyReset host timeout args preparation) := by
  refine .bind (.mapM fun partition _ => readOnly_newOffset host args _ partition) fun changes => ?_
  refine .bind ?_ fun _ => .bind ?_ fun _ => .pure _
  · simp only [hdry, Bool.not_true, Bool.false_eq_true, false_and, if_false]
    exact .pure _
  · simp only [deleteInternalTopics, hdry, if_true]
    exact .ite (.pure _) (.pure _)

theorem moves_dryRun (hdry : args.dryRun = true) :
    Moves (Follows (DryRunMay args)) (streamsApplicationReset host timeout args) := by
  refine .bind (moves_of_readOnly args (readOnly_admin host)) fun _ => ?_
  refine .bind (movesFrom_ensureInactive host timeout args) fun _ => moves_of_readOnly args ?_
  refine .bind (readOnly_prepareReset host args) fun preparation => ?_
  refine .bind (readOnly_applyReset_dryRun host timeout args hdry preparation) fun _ => ?_
  exact .bind (readOnly_ask host not_false) fun _ => .ofExcept _

/-- **The dry run.** Whatever a dry run asks for that changes something is that the members of
the application's group leave it, by force and after the group was found to be active. In
particular no offsets are altered and no topics are deleted. -/
theorem dryRun_follows (hdry : args.dryRun = true) {exchange : Exchange Reply Error}
    (hmem : exchange ∈ final ((streamsApplicationReset host timeout args).run []))
    (hmutating : exchange.request.Mutating) :
    ∃ before, before ++ [exchange] <+:
        final ((streamsApplicationReset host timeout args).run []) ∧
      Eviction args before exchange.request := by
  rcases exists_of_follows (moves_dryRun host timeout args hdry []) hmem with
    hnil | ⟨before, -, hgrow, hmay⟩
  · cases hnil
  · exact ⟨before, hgrow, hmay hmutating⟩

/-! ## An active group -/

/-- A cluster in which the group `app` has a member. -/
def activeGroup : Host := hostOf fun t call =>
  match call with
  | .listConsumerGroups _ => .ok [{ group := "app", state := "Stable" }]
  | .describeConsumerGroups _ _ => .ok [{ members := [{ memberId := "m", instanceId := none }] }]
  | call => emptyCluster t call

/-- The transcript of a dry run with `--force`. -/
def forcedDryRun : Transcript Reply Error :=
  final ((streamsApplicationReset activeGroup 1000
    { applicationId := "app", dryRun := true, force := true }).run [])

theorem leaveGroup_mem_forcedDryRun :
    Call.leaveGroup "app" 5 [⟨"m", none, some "streams application reset --force"⟩] ∈
      forcedDryRun.map (·.request) := by
  decide +kernel

theorem dryRun_follows_forced : ∃ exchange ∈ forcedDryRun, ∃ before,
    before ++ [exchange] <+: forcedDryRun ∧
      Eviction { applicationId := "app", dryRun := true, force := true } before
        exchange.request := by
  obtain ⟨exchange, hexchange, hrequest⟩ := List.mem_map.1 leaveGroup_mem_forcedDryRun
  have hmutating : exchange.request.Mutating := by
    rw [hrequest]
    trivial
  exact ⟨exchange, hexchange, dryRun_follows activeGroup 1000 _ rfl hexchange hmutating⟩

/-- A dry run with `--force` makes the members of an active group leave. -/
theorem dryRun_evicts :
    ¬ ∀ (host : Host) (timeout : Nat) (args : StreamsApplicationResetArgs), args.dryRun = true →
      ∀ exchange ∈ final ((streamsApplicationReset host timeout args).run []),
        ¬ exchange.request.Mutating := by
  intro hall
  obtain ⟨exchange, hexchange, hrequest⟩ := List.mem_map.1 leaveGroup_mem_forcedDryRun
  have hread := hall activeGroup 1000 _ rfl exchange hexchange
  rw [hrequest] at hread
  exact hread trivial

end KafkaCli.Streams
