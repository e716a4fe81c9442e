import KafkaCli.Reassign.Execute

/-!
# Checks before changes

`reassign execute` checks a plan and its rates in several places, and some of them come after it
has changed the configuration of topics and brokers, or has started the movements.

`unchanged_iff`: a run that ends with a failed check has changed nothing exactly when a check fails
that is made before the first change (`FailsFirst`). The rate of log directories is not such a
check where the other rate is given too, and neither is the description of a broker.
-/

namespace KafkaCli.Reassign

open Checked Run Session
open Groups (durationMs)

/-! ## Changes -/

/-- Nothing was changed. -/
def Unchanged (t : Transcript Reply Failure) : Prop :=
  ∀ exchange ∈ t, ¬ exchange.request.Mutating

section Changes

variable {t t' : Transcript Reply Failure}

theorem Unchanged.of_follows (h : Unchanged t) (hfollows : Follows Harmless t t') :
    Unchanged t' := by
  intro exchange hmem
  rcases exists_of_follows hfollows hmem with hold | ⟨_, -, -, hharmless⟩
  · exact h exchange hold
  · exact hharmless

/-- What was changed stays changed. -/
theorem Unchanged.initial (h : Unchanged t') (hstart : t <+: t') : Unchanged t :=
  fun exchange hmem => h exchange (hstart.mem hmem)

end Changes

/-- The transcript of the program continues the one before it. -/
abbrev Continues {α : Type} (program : Command α) : Prop := Moves (· <+: ·) program

/-- The program makes none of the checks. -/
abbrev Unchecked {α : Type} (program : Command α) : Prop :=
  Throws (fun failure => ∀ failed, failure ≠ .check failed) program

variable (host : Host)

theorem continues_ask (call : Call) : Continues (host.ask call) := by
  intro t
  rw [Host.ask, final_ask]
  exact List.prefix_append _ _

theorem unchecked_ask (call : Call) : Unchecked (host.ask call) := by
  intro t failure t' h failed
  rw [Host.ask] at h
  cases hanswer : host.answer t call with
  | ok reply =>
    have hserver : host.server t call = .ok reply := by rw [Host.server, hanswer]; rfl
    rw [ask_run_ok hserver] at h
    cases h
  | error error =>
    have hserver : host.server t call = .error (.other error) := by
      rw [Host.server, hanswer]
      rfl
    rw [ask_run_error hserver] at h
    cases h
    simp

theorem unchecked_liftResult {α : Type} (result : Result α) :
    Unchecked (ofExcept (liftResult result)) := by
  refine .ofExcept fun failure h failed => ?_
  cases result with
  | ok a => cases h
  | error error =>
    cases h
    simp

/-- A change that was answered is in the transcript. -/
theorem changed_of_ask {call : Call} {reply : Reply call} {t t' : Transcript Reply Failure}
    (h : (host.ask call).run t = .ok reply t') (hcall : call.Mutating) : ¬ Unchanged t' := by
  rw [Host.ask, ask_eq_ok] at h
  obtain ⟨-, rfl⟩ := h
  intro hunchanged
  exact hunchanged _ (List.mem_append_right _ (List.mem_singleton_self _)) hcall

/-- Past a step that only reads and makes no check. -/
theorem past_reading {α β : Type} {program : Command α} {rest : α → Command β} {failed : Check}
    {t t' : Transcript Reply Failure} (hreads : ReadOnly program) (hunchecked : Unchecked program)
    (hunchanged : Unchanged t) (h : (program >>= rest).run t = .error (.check failed) t') :
    ∃ a s, program.run t = .ok a s ∧ Unchanged s ∧
      (rest a).run s = .error (.check failed) t' := by
  rcases Run.bind_eq_error.1 h with h | ⟨a, s, hrun, h⟩
  · exact absurd rfl (hunchecked _ _ _ h failed)
  · exact ⟨a, s, hrun, hunchanged.of_follows (hreads.of_ok hrun), h⟩

theorem past_asking (call : Call) {β : Type} {rest : Reply call → Command β} {failed : Check}
    {t t' : Transcript Reply Failure} (hcall : ¬ call.Mutating) (hunchanged : Unchanged t)
    (h : (host.ask call >>= rest).run t = .error (.check failed) t') :
    ∃ reply s, (host.ask call).run t = .ok reply s ∧ Unchanged s ∧
      (rest reply).run s = .error (.check failed) t' :=
  past_reading (readOnly_ask host hcall) (unchecked_ask host call) hunchanged h

section Wrappers

variable (resource : ResourceType) (name : String) (entries : List (String × String))
  (deletes : List String) (timeoutMs : Int)

theorem continues_incrementalAlterConfig :
    Continues (incrementalAlterConfig host resource name entries deletes timeoutMs) :=
  .bind (.ofExcept _) fun _ => continues_ask host _

theorem unchecked_incrementalAlterConfig :
    Unchecked (incrementalAlterConfig host resource name entries deletes timeoutMs) :=
  .bind (unchecked_liftResult _) fun _ => unchecked_ask host _

theorem changed_of_incrementalAlterConfig {t t' : Transcript Reply Failure} {u : Unit}
    (h : (incrementalAlterConfig host resource name entries deletes timeoutMs).run t = .ok u t') :
    ¬ Unchanged t' := by
  obtain ⟨_, _, -, hask⟩ := Run.bind_eq_ok.1 h
  exact changed_of_ask host hask trivial

end Wrappers

/-! ## There is something to throttle -/

theorem toList_insert_ne_nil {α β : Type} {cmp : α → α → Ordering} [Std.TransCmp cmp]
    (m : Std.TreeMap α β cmp) (key : α) (value : β) : (m.insert key value).toList ≠ [] := by
  rw [ne_eq, ← List.isEmpty_iff, Std.TreeMap.isEmpty_toList, Std.TreeMap.isEmpty_insert]
  exact Bool.false_ne_true

theorem moves_ne_nil {plan : ReassignmentFile} {running : List PartitionReassignmentInfo}
    {current : ReplicaMap} {moves : ReassignmentMoveMap} (hplan : plan.partitions ≠ [])
    (h : reassignmentMoveMap plan running current = .ok moves) : moves.toList ≠ [] := by
  rcases List.eq_nil_or_concat plan.partitions with hnil | ⟨before, last, hpartitions⟩
  · exact absurd hnil hplan
  · rw [reassignmentMoveMap, hpartitions, List.concat_eq_append, List.foldlM_append,
      Checked.bind_eq_ok] at h
    obtain ⟨moves', -, hlast⟩ := h
    simp only [List.foldlM_cons, List.foldlM_nil, bind_pure, addMove] at hlast
    cases hsources : moveSources current moves' last.target with
    | none => simp [hsources] at hlast
    | some sources =>
      rw [hsources] at hlast
      cases hlast
      exact toList_insert_ne_nil _ _ _

theorem topicValues_ne_nil {moves : ReassignmentMoveMap} (h : moves.toList ≠ []) :
    (topicValues moves).toList ≠ [] := by
  rcases List.eq_nil_or_concat moves.toList with hnil | ⟨before, last, hmoves⟩
  · exact absurd hnil h
  · rw [topicValues, hmoves, List.concat_eq_append, List.foldl_append]
    exact toList_insert_ne_nil _ _ _

/-! ## The throttles -/

theorem checkedThrottle_ok {rate : Nat} {option text : String}
    (h : checkedThrottle rate option = .ok text) : rate < 2 ^ 63 := by
  rw [checkedThrottle] at h
  by_cases hrate : rate < 2 ^ 63
  · exact hrate
  · rw [if_neg hrate] at h
    cases h

theorem checkedThrottle_error {rate : Nat} {option : String} {failure : Failure}
    (h : checkedThrottle rate option = .error failure) : 2 ^ 63 ≤ rate := by
  rw [checkedThrottle] at h
  by_cases hrate : rate < 2 ^ 63
  · rw [if_pos hrate] at h
    cases h
  · exact Nat.le_of_not_lt hrate

section Throttles

variable {moves : ReassignmentMoveMap} {plan : ReassignmentFile} {timeoutMs : Int} {rate : Nat}
  {failed : Check} {t t' : Transcript Reply Failure} {u : Unit}

/-- A loop that returned has changed what its first step changes. -/
theorem changed_of_forM {ι : Type} {f : ι → Command Unit} {l : List ι} (hne : l ≠ [])
    (hf : ∀ x, Continues (f x)) (hchanged : ∀ x s s', (f x).run s = .ok ⟨⟩ s' → ¬ Unchanged s')
    (h : (forM l f).run t = .ok u t') : ¬ Unchanged t' := by
  cases l with
  | nil => exact absurd rfl hne
  | cons x l =>
    obtain ⟨s, hfirst, hrest⟩ := forM_cons_eq_ok.1 h
    intro hunchanged
    exact hchanged x t s hfirst (hunchanged.initial ((Moves.forM fun y _ => hf y).of_ok hrest))

theorem no_check_of_forM {ι : Type} {f : ι → Command Unit} {l : List ι}
    (hf : ∀ x, Unchecked (f x)) (h : (forM l f).run t = .error (.check failed) t') : False :=
  Throws.forM (fun x _ => hf x) t _ t' h failed rfl

theorem throttleReplication_ok (hmoves : moves.toList ≠ [])
    (h : (throttleReplication host moves timeoutMs rate).run t = .ok u t') :
    rate < 2 ^ 63 ∧ ¬ Unchanged t' := by
  obtain ⟨text, _, hrate, h⟩ := Run.bind_eq_ok.1 h
  obtain ⟨⟨⟩, s, htopics, hbrokers⟩ := Run.bind_eq_ok.1 h
  rw [run_ofExcept_eq_ok] at hrate
  refine ⟨checkedThrottle_ok hrate.1, ?_⟩
  have hchanged : ¬ Unchanged s := changed_of_forM (topicValues_ne_nil hmoves)
    (fun _ => continues_incrementalAlterConfig host _ _ _ _ _)
    (fun _ _ _ => changed_of_incrementalAlterConfig host _ _ _ _ _) htopics
  intro hunchanged
  refine hchanged (hunchanged.initial ?_)
  exact (Moves.forM fun _ _ => continues_incrementalAlterConfig host _ _ _ _ _).of_ok hbrokers

/-- The only check is the one of the rate, before anything else. -/
theorem throttleReplication_error
    (h : (throttleReplication host moves timeoutMs rate).run t = .error (.check failed) t') :
    2 ^ 63 ≤ rate ∧ t = t' := by
  rcases Run.bind_eq_error.1 h with h | ⟨_, _, -, h⟩
  · rw [run_ofExcept_eq_error] at h
    exact ⟨checkedThrottle_error h.1, h.2⟩
  · rcases Run.bind_eq_error.1 h with h | ⟨_, _, -, h⟩
    · exact (no_check_of_forM (fun _ => unchecked_incrementalAlterConfig host _ _ _ _ _) h).elim
    · exact (no_check_of_forM (fun _ => unchecked_incrementalAlterConfig host _ _ _ _ _) h).elim

theorem throttleLogDirs_ok (h : (throttleLogDirs host plan timeoutMs rate).run t = .ok u t') :
    rate < 2 ^ 63 := by
  obtain ⟨_, _, hrate, -⟩ := Run.bind_eq_ok.1 h
  rw [run_ofExcept_eq_ok] at hrate
  exact checkedThrottle_ok hrate.1

theorem throttleLogDirs_error
    (h : (throttleLogDirs host plan timeoutMs rate).run t = .error (.check failed) t') :
    2 ^ 63 ≤ rate ∧ t = t' := by
  rcases Run.bind_eq_error.1 h with h | ⟨_, _, -, h⟩
  · rw [run_ofExcept_eq_error] at h
    exact ⟨checkedThrottle_error h.1, h.2⟩
  · exact (no_check_of_forM (fun _ => unchecked_incrementalAlterConfig host _ _ _ _ _) h).elim

end Throttles

/-! ## The checks of the throttles -/

/-- The running reassignments and the metadata stay the same while a command reads them. -/
structure Host.Answers (host : Host) (running : List PartitionReassignmentInfo)
    (metadata : Metadata) : Prop where
  listed : ∀ t answer, host.answer t .listPartitionReassignments = .ok answer → answer = running
  fetched : ∀ t answer, host.answer t .fetchMetadata = .ok answer → answer = metadata

/-- A check of the throttles fails before anything is changed: a target is unknown, or the first
rate that is given exceeds its range. -/
def ThrottlesFail (interBroker logDirs : Option Nat) (plan : ReassignmentFile)
    (running : List PartitionReassignmentInfo) (current : ReplicaMap) : Prop :=
  ∃ rate, interBroker.or logDirs = some rate ∧
    (¬ TargetsKnown plan running current ∨ 2 ^ 63 ≤ rate)

section Checks

variable {host} {plan : ReassignmentFile} {running : List PartitionReassignmentInfo}
  {metadata : Metadata} {timeout : Nat} {interBroker logDirs : Option Nat} {failed : Check}
  {t t' : Transcript Reply Failure} {u : Unit}

theorem answer_of_ask {call : Call} {reply : Reply call}
    (h : (host.ask call).run t = .ok reply t') : host.answer t call = .ok reply := by
  rw [Host.ask, ask_eq_ok, Host.server, mapError_eq_ok] at h
  exact h.1

theorem fetchCurrentReplicas_ok (hhost : host.Answers running metadata) {current : ReplicaMap}
    (h : (fetchCurrentReplicas host plan).run t = .ok current t') :
    current = currentReplicas plan metadata := by
  obtain ⟨_, s, -, h⟩ := Run.bind_eq_ok.1 h
  obtain ⟨answer, s', hanswer, h⟩ := Run.bind_eq_ok.1 h
  cases h
  rw [hhost.fetched s answer (answer_of_ask hanswer)]

theorem unchecked_fetchCurrentReplicas (host : Host) (plan : ReassignmentFile) :
    Unchecked (fetchCurrentReplicas host plan) :=
  .bind (unchecked_ask host _) fun _ => .bind (unchecked_ask host _) fun _ => .pure _

theorem applyReassignmentThrottles_ok (hplan : plan.Accepted)
    (hhost : host.Answers running metadata)
    (h : (applyReassignmentThrottles host timeout plan running interBroker logDirs).run t =
      .ok u t') :
    ¬ ThrottlesFail interBroker logDirs plan running (currentReplicas plan metadata) := by
  rintro ⟨rate, hrate, hfails⟩
  have hgiven : ¬ (interBroker = none ∧ logDirs = none) := by
    rintro ⟨rfl, rfl⟩
    cases hrate
  rw [applyReassignmentThrottles, if_neg hgiven] at h
  obtain ⟨current, _, hcurrent, h⟩ := Run.bind_eq_ok.1 h
  obtain ⟨moves, _, hmoves, h⟩ := Run.bind_eq_ok.1 h
  obtain ⟨_, _, -, h⟩ := Run.bind_eq_ok.1 h
  obtain ⟨timeoutMs, _, -, h⟩ := Run.bind_eq_ok.1 h
  obtain ⟨_, s, hreplication, hlogDirs⟩ := Run.bind_eq_ok.1 h
  rw [run_ofExcept_eq_ok, fetchCurrentReplicas_ok hhost hcurrent] at hmoves
  rcases hfails with hunknown | hlarge
  · exact hunknown ((reassignmentMoveMap_ok hplan).1 ⟨moves, hmoves.1⟩)
  · cases interBroker with
    | some interBroker =>
      cases hrate
      have hmovesNe := moves_ne_nil hplan.partitions_ne hmoves.1
      have hsmall := (throttleReplication_ok host hmovesNe hreplication).1
      exact absurd hlarge (Nat.not_le_of_lt hsmall)
    | none =>
      rw [Option.none_or] at hrate
      rw [hrate] at hlogDirs
      exact absurd hlarge (Nat.not_le_of_lt (throttleLogDirs_ok host hlogDirs))

/-- With the moves known, the throttles stop at a check without a change exactly when it is the
check of the first rate. -/
theorem withRates_error {moves : ReassignmentMoveMap} {timeoutMs : Int} (hmoves : moves.toList ≠ [])
    (hunchanged : Unchanged t)
    (h : (do withRate interBroker (throttleReplication host moves timeoutMs)
             withRate logDirs (throttleLogDirs host plan timeoutMs)).run t =
      .error (.check failed) t') :
    Unchanged t' ↔ ∃ rate, interBroker.or logDirs = some rate ∧ 2 ^ 63 ≤ rate := by
  rcases Run.bind_eq_error.1 h with h | ⟨_, s, hreplication, hlogDirs⟩
  · cases interBroker with
    | none => cases h
    | some rate =>
      obtain ⟨hlarge, rfl⟩ := throttleReplication_error host h
      exact iff_of_true hunchanged ⟨rate, rfl, hlarge⟩
  · cases logDirs with
    | none => cases hlogDirs
    | some rate =>
      obtain ⟨hlarge, rfl⟩ := throttleLogDirs_error host hlogDirs
      cases interBroker with
      | none =>
        cases hreplication
        exact iff_of_true hunchanged ⟨rate, rfl, hlarge⟩
      | some first =>
        obtain ⟨hsmall, hchanged⟩ := throttleReplication_ok host hmoves hreplication
        refine iff_of_false hchanged ?_
        rintro ⟨_, hfirst, hlarge'⟩
        cases hfirst
        exact absurd hlarge' (Nat.not_le_of_lt hsmall)

/-- The throttles that stop at a check have changed nothing exactly when it comes first. -/
theorem applyReassignmentThrottles_error (hplan : plan.Accepted)
    (hhost : host.Answers running metadata) (hunchanged : Unchanged t)
    (h : (applyReassignmentThrottles host timeout plan running interBroker logDirs).run t =
      .error (.check failed) t') :
    Unchanged t' ↔
      ThrottlesFail interBroker logDirs plan running (currentReplicas plan metadata) := by
  rw [applyReassignmentThrottles] at h
  by_cases hnone : interBroker = none ∧ logDirs = none
  · rw [if_pos hnone] at h
    cases h
  rw [if_neg hnone] at h
  obtain ⟨current, s, hcurrent, hread, h⟩ := past_reading
    (readOnly_fetchCurrentReplicas host plan) (unchecked_fetchCurrentReplicas host plan)
    hunchanged h
  rw [fetchCurrentReplicas_ok hhost hcurrent] at h
  rcases Run.bind_eq_error.1 h with h | ⟨moves, _, hmapped, h⟩
  · -- a target is unknown
    obtain ⟨herror, rfl⟩ := run_ofExcept_eq_error.1 h
    obtain ⟨rate, hrate⟩ : ∃ rate, interBroker.or logDirs = some rate := by
      rwa [← Option.ne_none_iff_exists', ne_eq, Option.or_eq_none_iff]
    refine iff_of_true hread ⟨rate, hrate, .inl fun hknown => ?_⟩
    obtain ⟨moves, hmoves⟩ := (reassignmentMoveMap_ok hplan).2 hknown
    rw [hmoves] at herror
    cases herror
  obtain ⟨hmoves, rfl⟩ := run_ofExcept_eq_ok.1 hmapped
  obtain ⟨_, _, -, hread, h⟩ := past_asking host .createAdmin not_false hread h
  obtain ⟨timeoutMs, _, -, hread, h⟩ := past_reading (.ofExcept _) (unchecked_liftResult _) hread h
  rw [withRates_error (moves_ne_nil hplan.partitions_ne hmoves) hread h, ThrottlesFail]
  have hknown := (reassignmentMoveMap_ok hplan).1 ⟨moves, hmoves⟩
  simp only [hknown, not_true_eq_false, false_or]

/-! ## The run of the command -/

/-- A check fails that is made before the first change. -/
def FailsFirst (args : ExecuteArgs) (plan : ReassignmentFile)
    (running : List PartitionReassignmentInfo) (current : ReplicaMap) : Prop :=
  (args.disallowReplicationFactorChange = true ∧ ¬ KeepsFactors plan current) ∨
    ThrottlesFail args.throttle args.replicaAlterLogDirsThrottle plan running current

theorem continues_alterReassignmentLogDirs (host : Host) (plan : ReassignmentFile) :
    Continues (alterReassignmentLogDirs host plan) := by
  rw [alterReassignmentLogDirs]
  refine .ite (.pure []) (.bind (continues_ask host _) fun cluster => .foldlM [] ?_)
  intro rows (brokerId, directories) _
  exact .bind (.ofExcept _) fun _ => .bind (continues_ask host _) fun _ =>
    .bind (.ofExcept _) fun _ => .bind (continues_ask host _) fun _ => .pure _

theorem continues_afterRequest (host : Host) (plan : ReassignmentFile)
    (result : AlterReassignmentsResult) : Continues (afterRequest host plan result) := by
  rw [afterRequest]
  refine .ite ?_ (.bind (continues_ask host _) fun _ => .throw _)
  refine .bind (continues_alterReassignmentLogDirs host plan) fun rows => ?_
  exact .ite (.bind (continues_ask host _) fun _ => .throw _) (continues_ask host _)

theorem rejectReplicationFactorChanges_ok (hhost : host.Answers running metadata)
    (h : (rejectReplicationFactorChanges host plan).run t = .ok u t') :
    KeepsFactors plan (currentReplicas plan metadata) := by
  obtain ⟨current, _, hcurrent, h⟩ := Run.bind_eq_ok.1 h
  rw [fetchCurrentReplicas_ok hhost hcurrent, run_ofExcept_eq_ok] at h
  exact validateReplicationFactors_ok.1 h.1

theorem rejectReplicationFactorChanges_error (hhost : host.Answers running metadata)
    (h : (rejectReplicationFactorChanges host plan).run t = .error (.check failed) t') :
    ¬ KeepsFactors plan (currentReplicas plan metadata) := by
  rcases Run.bind_eq_error.1 h with h | ⟨current, _, hcurrent, h⟩
  · exact absurd rfl (unchecked_fetchCurrentReplicas host plan _ _ _ h failed)
  · rw [fetchCurrentReplicas_ok hhost hcurrent, run_ofExcept_eq_error] at h
    intro hkeeps
    rw [(validateReplicationFactors_ok (u := ())).2 hkeeps] at h
    cases h.1

theorem readOnly_rejectReplicationFactorChanges (host : Host) (plan : ReassignmentFile) :
    ReadOnly (rejectReplicationFactorChanges host plan) :=
  .bind (readOnly_fetchCurrentReplicas host plan) fun _ => .ofExcept _

theorem startReassignment_unchanged_iff {args : ExecuteArgs} (hplan : plan.Accepted)
    (hhost : host.Answers running metadata) (hunchanged : Unchanged t)
    (h : (startReassignment host timeout args plan running).run t = .error (.check failed) t') :
    Unchanged t' ↔ ThrottlesFail args.throttle args.replicaAlterLogDirsThrottle plan running
      (currentReplicas plan metadata) := by
  rcases Run.bind_eq_error.1 h with h | ⟨_, s, hthrottles, h⟩
  · exact applyReassignmentThrottles_error hplan hhost hunchanged h
  · refine iff_of_false ?_ (applyReassignmentThrottles_ok hplan hhost hthrottles)
    rcases Run.bind_eq_error.1 h with h | ⟨result, middle, hrequest, h⟩
    · exact absurd rfl (unchecked_ask host _ _ _ _ h failed)
    · have hchanged := changed_of_ask host hrequest trivial
      have hlater := (continues_afterRequest host plan result).of_error h
      exact fun hunchanged => hchanged (hunchanged.initial hlater)

theorem executePlan_unchanged_iff {args : ExecuteArgs} (hplan : plan.Accepted)
    (hhost : host.Answers running metadata)
    (h : (executePlan host timeout args plan).run [] = .error (.check failed) t) :
    Unchanged t ↔ FailsFirst args plan running (currentReplicas plan metadata) := by
  have hnothing : Unchanged [] := by simp [Unchanged]
  obtain ⟨_, _, -, hread, h⟩ := past_asking host .protocolAdmin not_false hnothing h
  obtain ⟨active, _, hactive, hread, h⟩ :=
    past_asking host .listPartitionReassignments not_false hread h
  obtain rfl := hhost.listed _ active (answer_of_ask hactive)
  obtain ⟨_, s, -, hread, h⟩ := past_reading (.ofExcept _) (unchecked_liftResult _) hread h
  rw [FailsFirst]
  by_cases hdisallow : args.disallowReplicationFactorChange = true
  · rw [if_pos hdisallow] at h
    rcases Run.bind_eq_error.1 h with h | ⟨_, s', hreject, h⟩
    · have hreads := (readOnly_rejectReplicationFactorChanges host plan).of_error h
      exact iff_of_true (hread.of_follows hreads)
        (.inl ⟨hdisallow, rejectReplicationFactorChanges_error hhost h⟩)
    · have hreads := (readOnly_rejectReplicationFactorChanges host plan).of_ok hreject
      have hkeeps := rejectReplicationFactorChanges_ok hhost hreject
      rw [startReassignment_unchanged_iff hplan hhost (hread.of_follows hreads) h]
      simp only [hkeeps, not_true_eq_false, and_false, false_or]
  · rw [if_neg hdisallow] at h
    rw [startReassignment_unchanged_iff hplan hhost hread h]
    simp [hdisallow]

/-- **Checks first.** A run that ends with a failed check has changed nothing exactly when a check
fails that is made before the first change. -/
theorem unchanged_iff {args : ExecuteArgs}
    (hplan : readReassignment (host.readPlanFile args.reassignmentJsonFile) = .ok plan)
    (hhost : host.Answers running metadata)
    (h : (executeReassignment host timeout args).run [] = .error (.check failed) t) :
    Unchanged t ↔ FailsFirst args plan running (currentReplicas plan metadata) := by
  have hread : liftResult (readReassignment (host.readPlanFile args.reassignmentJsonFile)) =
      .ok plan := mapError_eq_ok.2 hplan
  rw [executeReassignment, hread, bind_of_ok (run_ofExcept_ok plan [])] at h
  by_cases hexecute : args.execute = true
  · rw [if_pos hexecute] at h
    exact executePlan_unchanged_iff (readReassignment_ok.1 hplan).2 hhost h
  · rw [if_neg hexecute] at h
    exact absurd rfl (unchecked_ask host _ _ _ _ h failed)

end Checks

/-! ## Rates that are too large -/

def moveOrders : ReassignmentFile where
  version := 1
  partitions :=
    [{ topic := "orders", partition := 0, replicas := [2, 3], logDirs := ["any", "/b"] }]

/-- Execute with the rates `--throttle` and `--replica-alter-log-dirs-throttle`. -/
def executeWith (throttle logDirs : Option Nat) : ExecuteArgs where
  reassignmentJsonFile := "plan.json"
  additional := false
  disallowReplicationFactorChange := true
  throttle
  replicaAlterLogDirsThrottle := logDirs
  execute := true

theorem answers_ordersHost (plan : ReassignmentFile) :
    (ordersHost plan).Answers [] ordersMetadata := by
  constructor
  · intro t answer h
    cases h
    rfl
  · intro t answer h
    cases h
    rfl

/-- What a command asks before it throttles. -/
def beforeThrottles : Transcript Reply Failure :=
  [⟨.protocolAdmin, .ok ()⟩, ⟨.listPartitionReassignments, .ok []⟩, ⟨.createConsumer, .ok ()⟩,
   ⟨.fetchMetadata, .ok ordersMetadata⟩, ⟨.createConsumer, .ok ()⟩,
   ⟨.fetchMetadata, .ok ordersMetadata⟩, ⟨.createAdmin, .ok ()⟩]

theorem unchanged_iff_first_rate :
    (executeReassignment (ordersHost moveOrders) 1000 (executeWith (some (2 ^ 63)) none)).run [] =
        .error (.check (.rate "--throttle")) beforeThrottles ∧
      (Unchanged beforeThrottles ↔ FailsFirst (executeWith (some (2 ^ 63)) none) moveOrders []
        (currentReplicas moveOrders ordersMetadata)) := by
  have hrun : (executeReassignment (ordersHost moveOrders) 1000
      (executeWith (some (2 ^ 63)) none)).run [] =
        .error (.check (.rate "--throttle")) beforeThrottles := rfl
  have hplan : readReassignment (.ok moveOrders) = .ok moveOrders := rfl
  exact ⟨hrun, unchanged_iff hplan (answers_ordersHost moveOrders) hrun⟩

/-- The topic and the brokers that are throttled before the second rate is looked at. -/
def throttledOrders : Transcript Reply Failure :=
  let rate := throttledRate "1000"
  beforeThrottles ++
    [⟨.incrementalAlterConfig .topic "orders" (throttledReplicas (.ofList ["0:1", "0:2"])
        (.ofList ["0:3"])) [] 1000, .ok ()⟩,
     ⟨.incrementalAlterConfig .broker "1" rate [] 1000, .ok ()⟩,
     ⟨.incrementalAlterConfig .broker "2" rate [] 1000, .ok ()⟩,
     ⟨.incrementalAlterConfig .broker "3" rate [] 1000, .ok ()⟩]

/-- A second rate that exceeds its range is noticed when the first one is in force already. -/
theorem second_rate_is_late : ¬ ∀ (host : Host) (timeout : Nat) (args : ExecuteArgs)
    (plan : ReassignmentFile) (running : List PartitionReassignmentInfo) (metadata : Metadata)
    (failed : Check) (t : Transcript Reply Failure),
    readReassignment (host.readPlanFile args.reassignmentJsonFile) = .ok plan →
    host.Answers running metadata →
    (executeReassignment host timeout args).run [] = .error (.check failed) t → Unchanged t := by
  intro hclaim
  have hrun : (executeReassignment (ordersHost moveOrders) 1000
      (executeWith (some 1000) (some (2 ^ 63)))).run [] =
        .error (.check (.rate "--replica-alter-log-dirs-throttle")) throttledOrders := rfl
  have hunchanged := hclaim (ordersHost moveOrders) 1000 (executeWith (some 1000) (some (2 ^ 63)))
    moveOrders [] ordersMetadata _ _ rfl (answers_ordersHost moveOrders) hrun
  exact hunchanged _ (List.mem_append_right _ List.mem_cons_self) trivial

end KafkaCli.Reassign
