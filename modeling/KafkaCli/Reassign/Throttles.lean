import KafkaCli.Reassign.Execute

/-!
# Throttles and their end

`reassign execute` throttles topics and brokers before the replicas move. `reassign cancel`, and
`reassign verify` once nothing goes on, delete throttles: those of the topics of the plan, of the
brokers in the description of the cluster and of the target replicas.

Main result: `clear_undoes_apply`. A throttle that was set is deleted exactly where it is one of
these.
-/

namespace KafkaCli.Reassign

open Checked Run Session
open Groups (durationMs)

variable (host : Host)

/-! ## Clearing -/

def topicDeletes : List String :=
  ["leader.replication.throttled.replicas", "follower.replication.throttled.replicas"]

def brokerDeletes : List String :=
  ["leader.replication.throttled.rate", "follower.replication.throttled.rate",
    "replica.alter.log.dirs.io.max.bytes.per.second"]

/-- The brokers whose throttles are cleared. -/
def clearedBrokers (plan : ReassignmentFile) (clusterBrokers : Std.TreeSet Int) : Std.TreeSet Int :=
  plan.partitions.foldl (fun brokers partition => brokers.insertMany partition.replicas)
    clusterBrokers

def clearReassignmentThrottles (timeout : Nat) (plan : ReassignmentFile)
    (clusterBrokers : Std.TreeSet Int) : Command Unit := do
  host.ask .createAdmin
  let timeoutMs ← ofExcept (liftResult (durationMs timeout))
  let topics : Std.TreeSet String := .ofList (plan.partitions.map (·.topic))
  forM topics.toList fun topic =>
    incrementalAlterConfig host .topic topic [] topicDeletes timeoutMs
  forM (clearedBrokers plan clusterBrokers).toList fun broker =>
    incrementalAlterConfig host .broker (toString broker) [] brokerDeletes timeoutMs

/-! ## Cancelling -/

structure CancelArgs where
  reassignmentJsonFile : String
  preserveThrottles : Bool
  execute : Bool

/-- `reassign cancel`, once the plan is read. -/
def cancelPlan (timeout : Nat) (args : CancelArgs) (plan : ReassignmentFile) : Command Unit := do
  host.ask .protocolAdmin
  let result : AlterReassignmentsResult ←
    host.ask (.alterPartitionReassignments (reassignmentTopics plan true))
  let cluster : List ClusterBroker ← host.ask .describeCluster
  let rows := reassignmentResultRows result "CANCELLED"
  if failedRows rows = 0 then
    if args.preserveThrottles then pure ()
      else clearReassignmentThrottles host timeout plan (.ofList (cluster.map (·.brokerId)))
    writeReassignmentMutationRows host "reassign.cancel" plan "CANCELLED"
  else
    host.ask (.print (.mutationRows "reassign.cancel" rows))
    throw (.other (.partialFailure (failedRows rows) plan.partitions.length))

/-- `reassign cancel`. -/
def cancelReassignment (timeout : Nat) (args : CancelArgs) : Command Unit := do
  let plan ← ofExcept (liftResult (readReassignment (host.readPlanFile args.reassignmentJsonFile)))
  if args.execute then cancelPlan host timeout args plan
  else writeReassignmentMutationRows host "reassign.cancel" plan "PREVIEW CANCEL"

/-! ## Verifying -/

/-- The partitions of each topic of a plan. -/
def reassignmentFilters (plan : ReassignmentFile) : List (String × List Int) :=
  let topics : Std.TreeMap String (List Int) := plan.partitions.foldl
    (fun topics partition => Multimap.push topics partition.topic partition.partition) ∅
  topics.toList

/-- The replicas of a plan that are to be in a log directory. -/
def logDirTargets (plan : ReassignmentFile) : List (TopicPartition × Int) :=
  plan.partitions.flatMap fun partition =>
    ((partition.replicas.zip partition.logDirs).filter (·.2 ≠ "any")).map
      fun (broker, _) => (partition.target, broker)

/-- A target is still on its way to a log directory. -/
def movesTarget (plan : ReassignmentFile) (directories : List LogDirDescription) : Bool :=
  directories.any fun directory => directory.topics.any fun (topic, partitions) =>
    partitions.any fun partition => partition.isFutureKey &&
      ((topic, partition.partitionIndex), directory.brokerId) ∈ logDirTargets plan

def reassignmentLogDirsOngoing (plan : ReassignmentFile) : Command Bool :=
  if logDirTargets plan = [] then pure false else do
    let directories : List LogDirDescription ←
      host.ask (.describeLogDirs (reassignmentFilters plan))
    return movesTarget plan directories

/-- The reassignment that is running for a target. -/
def activePartition (running : List PartitionReassignmentInfo) (target : ReassignmentPartition) :
    Option RunningPartition :=
  (running.find? (·.name = target.topic)).bind fun topic =>
    topic.partitions.find? (·.partitionIndex = target.partition)

def reassignmentStatuses (plan : ReassignmentFile) (running : List PartitionReassignmentInfo)
    (current : ReplicaMap) : List ReassignmentStatus :=
  plan.partitions.map fun target =>
    let active := activePartition running target
    let currentReplicas := current[target.target]?.getD []
    { topic := target.topic
      partition := target.partition
      replicas := active.elim currentReplicas (·.replicas)
      addingReplicas := active.elim [] (·.addingReplicas)
      removingReplicas := active.elim [] (·.removingReplicas)
      complete := active.isNone && currentReplicas == target.replicas }

structure VerifyArgs where
  reassignmentJsonFile : String
  preserveThrottles : Bool

/-- `reassign verify`, once the plan is read. -/
def verifyPlan (timeout : Nat) (args : VerifyArgs) (plan : ReassignmentFile) : Command Unit := do
  host.ask .protocolAdmin
  let running : List PartitionReassignmentInfo ← host.ask .listPartitionReassignments
  let logDirsOngoing ← reassignmentLogDirsOngoing host plan
  let cluster : List ClusterBroker ← host.ask .describeCluster
  let current ← fetchCurrentReplicas host plan
  if reassignmentCount running ≠ 0 ∨ logDirsOngoing ∨ args.preserveThrottles then pure ()
    else clearReassignmentThrottles host timeout plan (.ofList (cluster.map (·.brokerId)))
  host.ask (.print (.reassignmentStatuses (reassignmentStatuses plan running current)))

/-- `reassign verify`. -/
def verifyReassignment (timeout : Nat) (args : VerifyArgs) : Command Unit := do
  let plan ← ofExcept (liftResult (readReassignment (host.readPlanFile args.reassignmentJsonFile)))
  verifyPlan host timeout args plan

/-! ## Settings -/

/-- A setting of a resource. -/
structure Setting where
  resource : ResourceType
  name : String
  key : String
  deriving DecidableEq

def Call.sets : Call → List Setting
  | .incrementalAlterConfig resource name entries _ _ =>
    entries.map fun (key, _) => { resource, name, key }
  | _ => []

def Call.deletes : Call → List Setting
  | .incrementalAlterConfig resource name _ deletes _ =>
    deletes.map fun key => { resource, name, key }
  | _ => []

/-- The settings that were set in the course of some exchanges. -/
def settings (exchanges : Transcript Reply Failure) : List Setting :=
  exchanges.flatMap fun exchange => exchange.request.sets

/-- The settings that were deleted. -/
def deletions (exchanges : Transcript Reply Failure) : List Setting :=
  exchanges.flatMap fun exchange => exchange.request.deletes

/-- The topic is one of the plan; the broker is described, or has a target replica. -/
def Covered (plan : ReassignmentFile) (clusterBrokers : Std.TreeSet Int) (setting : Setting) :
    Prop :=
  match setting.resource with
  | .topic => ∃ target ∈ plan.partitions, target.topic = setting.name
  | .broker => ∃ broker, toString broker = setting.name ∧
    (broker ∈ clusterBrokers ∨ ∃ target ∈ plan.partitions, broker ∈ target.replicas)

/-- Nothing is being reassigned, and no target is on its way to a log directory, by the replies of a
verification. -/
def Finished (plan : ReassignmentFile) (running : List PartitionReassignmentInfo)
    (exchanges : Transcript Reply Failure) : Prop :=
  reassignmentCount running = 0 ∧ ∀ directories : List LogDirDescription,
    ⟨.describeLogDirs (reassignmentFilters plan), .ok directories⟩ ∈ exchanges →
      movesTarget plan directories = false

/-- The keys of the throttles of a resource. -/
def throttleKeys : ResourceType → List String
  | .topic => topicDeletes
  | .broker => brokerDeletes

/-- A throttle of the tool; those of log directories are for target replicas only. -/
structure Throttle (plan : ReassignmentFile) (setting : Setting) : Prop where
  key : setting.key ∈ throttleKeys setting.resource
  logDirs : setting.key = "replica.alter.log.dirs.io.max.bytes.per.second" →
    ∀ clusterBrokers, Covered plan clusterBrokers setting

/-! ## What is set -/

section Set

variable (plan : ReassignmentFile)

/-- The exchange sets throttles only. -/
def SetsThrottles (_ : Transcript Reply Failure) (exchange : Exchange Reply Failure) : Prop :=
  ∀ setting ∈ exchange.request.sets, Throttle plan setting

variable {host plan}

theorem throttles_ask {call : Call} (h : ∀ setting ∈ call.sets, Throttle plan setting) :
    Moves (Follows (SetsThrottles plan)) (host.ask call) := moves_ask fun _ _ => h

theorem throttles_incrementalAlterConfig {resource : ResourceType} {name : String}
    {entries : List (String × String)} {timeoutMs : Int}
    (h : ∀ key value, (key, value) ∈ entries → Throttle plan { resource, name, key }) :
    Moves (Follows (SetsThrottles plan))
      (incrementalAlterConfig host resource name entries [] timeoutMs) := by
  refine .bind (.ofExcept _) fun _ => throttles_ask ?_
  intro setting hsetting
  obtain ⟨⟨key, value⟩, hentry, rfl⟩ := List.mem_map.1 hsetting
  exact h key value hentry

/-- A key of replication is none of log directories. -/
theorem throttle_of_mem {resource : ResourceType} {name key : String}
    (hkey : key ∈ throttleKeys resource)
    (hlogDirs : key ≠ "replica.alter.log.dirs.io.max.bytes.per.second") :
    Throttle plan { resource, name, key } := ⟨hkey, fun heq => absurd heq hlogDirs⟩

theorem throttles_throttleReplication (moves : ReassignmentMoveMap) (timeoutMs : Int) (rate : Nat) :
    Moves (Follows (SetsThrottles plan)) (throttleReplication host moves timeoutMs rate) := by
  refine .bind (.ofExcept _) fun rate => .bind (.forM fun (topic, leaders, followers) _ => ?_)
    fun _ => .forM fun broker _ => ?_
  · refine throttles_incrementalAlterConfig fun key value hentry => ?_
    simp only [throttledReplicas, List.mem_cons, Prod.mk.injEq, List.not_mem_nil, or_false]
      at hentry
    rcases hentry with ⟨rfl, -⟩ | ⟨rfl, -⟩
    · exact throttle_of_mem (by decide) (by decide)
    · exact throttle_of_mem (by decide) (by decide)
  · refine throttles_incrementalAlterConfig fun key value hentry => ?_
    simp only [throttledRate, List.mem_cons, Prod.mk.injEq, List.not_mem_nil, or_false] at hentry
    rcases hentry with ⟨rfl, -⟩ | ⟨rfl, -⟩
    · exact throttle_of_mem (by decide) (by decide)
    · exact throttle_of_mem (by decide) (by decide)

/-- Replicas are moved to log directories of target brokers only. -/
theorem mem_replicas_of_mem_brokerLogDirPlan {broker : Int} (h : broker ∈ brokerLogDirPlan plan) :
    ∃ target ∈ plan.partitions, broker ∈ target.replicas := by
  have hstep : ∀ (target : ReassignmentPartition) (moves : BrokerLogDirPlan) (entry : Int × String),
      broker ∈ (if entry.2 ≠ "any" then
        addLogDir moves entry.1 entry.2 target.topic target.partition else moves) ↔
      broker ∈ moves ∨ (entry.1 = broker ∧ entry.2 ≠ "any") := by
    intro target moves entry
    by_cases hany : entry.2 = "any"
    · simp [hany]
    · simp [hany, addLogDir, or_comm]
  have htarget : ∀ (moves : BrokerLogDirPlan) (target : ReassignmentPartition),
      broker ∈ (target.replicas.zip target.logDirs).foldl (fun moves entry =>
        if entry.2 ≠ "any" then addLogDir moves entry.1 entry.2 target.topic target.partition
        else moves) moves ↔
      broker ∈ moves ∨ ∃ entry ∈ target.replicas.zip target.logDirs,
        entry.1 = broker ∧ entry.2 ≠ "any" := fun moves target =>
    SortedMap.foldl_iff (P := (broker ∈ ·)) (hstep target) _ moves
  obtain ⟨target, hmem, ⟨_, logDir⟩, hentry, rfl, -⟩ :=
    ((SortedMap.foldl_iff (P := (broker ∈ ·)) htarget plan.partitions ∅).1 h).resolve_left (by simp)
  exact ⟨target, hmem, (List.of_mem_zip hentry).1⟩

theorem throttles_throttleLogDirs (timeoutMs : Int) (rate : Nat) :
    Moves (Follows (SetsThrottles plan)) (throttleLogDirs host plan timeoutMs rate) := by
  refine .bind (.ofExcept _) fun rate => .forM fun broker hbroker => ?_
  refine throttles_incrementalAlterConfig fun key value hentry => ?_
  rw [List.mem_singleton, Prod.mk.injEq] at hentry
  rw [hentry.1]
  have htarget := mem_replicas_of_mem_brokerLogDirPlan (Std.TreeMap.mem_keys.1 hbroker)
  refine ⟨?_, fun _ clusterBrokers => ⟨broker, rfl, .inr htarget⟩⟩
  exact List.mem_cons_of_mem _ (List.mem_cons_of_mem _ List.mem_cons_self)

theorem throttles_withRate {rate : Option Nat} {throttle : Nat → Command Unit}
    (h : ∀ rate, Moves (Follows (SetsThrottles plan)) (throttle rate)) :
    Moves (Follows (SetsThrottles plan)) (withRate rate throttle) := by
  cases rate with
  | none => exact .pure _
  | some rate => exact h rate

/-- Whatever becomes of it, `apply_reassignment_throttles` sets throttles only. -/
theorem throttles_apply (timeout : Nat) (running : List PartitionReassignmentInfo)
    (interBroker logDirs : Option Nat) : Moves (Follows (SetsThrottles plan))
      (applyReassignmentThrottles host timeout plan running interBroker logDirs) := by
  refine .ite (.pure _) (.bind ?_ fun current => .bind (.ofExcept _) fun moves =>
    .bind (throttles_ask nofun) fun _ => .bind (.ofExcept _) fun timeoutMs =>
      .bind (throttles_withRate fun rate => throttles_throttleReplication moves timeoutMs rate)
        fun _ => throttles_withRate fun rate => throttles_throttleLogDirs timeoutMs rate)
  exact .bind (throttles_ask nofun) fun _ => .bind (throttles_ask nofun) fun _ => .pure _

end Set

/-! ## What is deleted -/

section Deleted

variable {host} {plan : ReassignmentFile} {clusterBrokers : Std.TreeSet Int} {timeout : Nat}
  {t t' cleared : Transcript Reply Failure} {setting : Setting}

theorem incrementalAlterConfig_ok {resource : ResourceType} {name : String}
    {entries : List (String × String)} {deletes : List String} {timeoutMs : Int} {u : Unit}
    (h : (incrementalAlterConfig host resource name entries deletes timeoutMs).run t = .ok u t') :
    t' = t ++ [⟨.incrementalAlterConfig resource name entries deletes timeoutMs, .ok ()⟩] := by
  obtain ⟨_, s, hcheck, hask⟩ := Run.bind_eq_ok.1 h
  obtain ⟨-, rfl⟩ := run_ofExcept_eq_ok.1 hcheck
  exact (ask_eq_ok.1 hask).2

theorem mem_clearedBrokers {broker : Int} : broker ∈ clearedBrokers plan clusterBrokers ↔
    broker ∈ clusterBrokers ∨ ∃ target ∈ plan.partitions, broker ∈ target.replicas := by
  refine SortedMap.foldl_iff (P := (broker ∈ ·)) (fun brokers target => ?_) _ _
  rw [Std.TreeSet.mem_insertMany_list, List.contains_iff_mem]

theorem mem_deletions_append :
    setting ∈ deletions (t ++ t') ↔ setting ∈ deletions t ∨ setting ∈ deletions t' := by
  rw [deletions, List.flatMap_append, List.mem_append]
  rfl

/-- What is deleted by a loop that deletes the same keys of many resources. -/
theorem mem_deletions_map {ι : Type} {l : List ι} {resource : ResourceType} {name : ι → String}
    {keys : List String} {timeoutMs : Int} :
    setting ∈ deletions (l.map fun x =>
        ⟨.incrementalAlterConfig resource (name x) [] keys timeoutMs, .ok ()⟩) ↔
      setting.resource = resource ∧ (∃ x ∈ l, name x = setting.name) ∧ setting.key ∈ keys := by
  rw [deletions, List.flatMap_map, List.mem_flatMap]
  constructor
  · rintro ⟨x, hx, hsetting⟩
    obtain ⟨key, hkey, rfl⟩ := List.mem_map.1 hsetting
    exact ⟨rfl, ⟨x, hx, rfl⟩, hkey⟩
  · rintro ⟨rfl, ⟨x, hx, hname⟩, hkey⟩
    refine ⟨x, hx, List.mem_map.2 ⟨setting.key, hkey, ?_⟩⟩
    rw [hname]

/-- **What is cleared**: the throttles of covered topics and brokers. -/
theorem clear_ok
    (h : (clearReassignmentThrottles host timeout plan clusterBrokers).run t = .ok () t') :
    ∃ cleared, t' = t ++ cleared ∧ ∀ setting, setting ∈ deletions cleared ↔
      setting.key ∈ throttleKeys setting.resource ∧ Covered plan clusterBrokers setting := by
  rw [clearReassignmentThrottles] at h
  obtain ⟨_, s₁, hadmin, h⟩ := Run.bind_eq_ok.1 h
  obtain ⟨timeoutMs, s₂, htimeout, h⟩ := Run.bind_eq_ok.1 h
  obtain ⟨_, s₃, htopics, hbrokers⟩ := Run.bind_eq_ok.1 h
  obtain ⟨-, rfl⟩ := run_ofExcept_eq_ok.1 htimeout
  have h₁ := (ask_eq_ok.1 hadmin).2
  have h₃ := forM_append_of_ok (fun topic _ t t' => incrementalAlterConfig_ok) htopics
  have h₄ := forM_append_of_ok (fun broker _ t t' => incrementalAlterConfig_ok) hbrokers
  rw [h₃, h₁, List.append_assoc, List.append_assoc] at h₄
  refine ⟨_, h₄, fun setting => ?_⟩
  have hnone : setting ∉ deletions [⟨.createAdmin, .ok ()⟩] := List.not_mem_nil
  rw [mem_deletions_append, mem_deletions_append, or_iff_right hnone, mem_deletions_map,
    mem_deletions_map]
  obtain ⟨resource, name, key⟩ := setting
  cases resource with
  | topic => simp [Covered, throttleKeys, and_comm]
  | broker => simp [Covered, throttleKeys, mem_clearedBrokers, and_comm]

/-- What a cancellation deletes, where it preserves no throttles. -/
theorem cancelPlan_ok {args : CancelArgs} (hpreserve : args.preserveThrottles = false)
    (h : (cancelPlan host timeout args plan).run t = .ok () t') :
    ∃ cancelled cluster, t' = t ++ cancelled ∧ ⟨.describeCluster, .ok cluster⟩ ∈ cancelled ∧
      ∀ setting, setting ∈ deletions cancelled ↔ setting.key ∈ throttleKeys setting.resource ∧
        Covered plan (.ofList (cluster.map (·.brokerId))) setting := by
  rw [cancelPlan] at h
  obtain ⟨_, s₁, hadmin, h⟩ := Run.bind_eq_ok.1 h
  obtain ⟨result, s₂, hresult, h⟩ := Run.bind_eq_ok.1 h
  obtain ⟨cluster, s₃, hcluster, h⟩ := Run.bind_eq_ok.1 h
  have h₁ := (ask_eq_ok.1 hadmin).2
  have h₂ := (ask_eq_ok.1 hresult).2
  have h₃ := (ask_eq_ok.1 hcluster).2
  by_cases hfailed : failedRows (reassignmentResultRows result "CANCELLED") = 0
  · simp only [hfailed, hpreserve, if_true, if_false, Bool.false_eq_true] at h
    obtain ⟨_, s₄, hclear, hprint⟩ := Run.bind_eq_ok.1 h
    obtain ⟨cleared, h₄, hcleared⟩ := clear_ok hclear
    have h₅ := (ask_eq_ok.1 hprint).2
    rw [h₄, h₃, h₂, h₁] at h₅
    simp only [List.append_assoc] at h₅
    refine ⟨_, cluster, h₅, by simp, fun setting => ?_⟩
    rw [← hcleared setting]
    simp [deletions, Call.deletes]
  · simp only [hfailed, if_false] at h
    obtain ⟨_, s₄, -, hthrow⟩ := Run.bind_eq_ok.1 h
    cases hthrow

/-- What only reads deletes nothing. -/
theorem not_mem_deletions {α : Type} {program : Command α} {a : α} (hread : ReadOnly program)
    (h : program.run t = .ok a t') :
    ∃ asked, t' = t ++ asked ∧ ∀ setting, setting ∉ deletions asked := by
  obtain ⟨asked, happend, hharmless⟩ := exists_append_of_follows (hread.of_ok h)
  refine ⟨asked, happend, fun setting hmem => ?_⟩
  obtain ⟨⟨call, reply⟩, hexchange, hdeletes⟩ := List.mem_flatMap.1 hmem
  obtain ⟨_, hmutating⟩ := hharmless _ hexchange
  cases call with
  | incrementalAlterConfig => exact hmutating trivial
  | _ => exact absurd hdeletes List.not_mem_nil

/-- A movement to a log directory that goes on is one that a broker told of. -/
theorem reassignmentLogDirsOngoing_ok {ongoing : Bool}
    (h : (reassignmentLogDirsOngoing host plan).run t = .ok ongoing t') :
    ∃ asked, t' = t ++ asked ∧ (∀ setting, setting ∉ deletions asked) ∧
      (ongoing = true → ∃ directories : List LogDirDescription,
        ⟨.describeLogDirs (reassignmentFilters plan), .ok directories⟩ ∈ asked ∧
          movesTarget plan directories = true) := by
  rw [reassignmentLogDirsOngoing] at h
  split_ifs at h with hnone
  · cases h
    exact ⟨[], by simp, fun _ => List.not_mem_nil, nofun⟩
  · obtain ⟨directories, s, hask, h⟩ := Run.bind_eq_ok.1 h
    cases h
    exact ⟨_, (ask_eq_ok.1 hask).2, fun _ => List.not_mem_nil,
      fun hmoves => ⟨directories, List.mem_singleton_self _, hmoves⟩⟩

/-- What a verification deletes that finds nothing going on, where it preserves no throttles. -/
theorem verifyPlan_ok {args : VerifyArgs} (hpreserve : args.preserveThrottles = false)
    (h : (verifyPlan host timeout args plan).run t = .ok () t') :
    ∃ verified running cluster, t' = t ++ verified ∧
      ⟨.listPartitionReassignments, .ok running⟩ ∈ verified ∧
      ⟨.describeCluster, .ok cluster⟩ ∈ verified ∧
      (Finished plan running verified → ∀ setting, setting ∈ deletions verified ↔
        setting.key ∈ throttleKeys setting.resource ∧
          Covered plan (.ofList (cluster.map (·.brokerId))) setting) := by
  rw [verifyPlan] at h
  obtain ⟨_, s₁, hadmin, h⟩ := Run.bind_eq_ok.1 h
  obtain ⟨running, s₂, hrunning, h⟩ := Run.bind_eq_ok.1 h
  obtain ⟨ongoing, s₃, hongoing, h⟩ := Run.bind_eq_ok.1 h
  obtain ⟨cluster, s₄, hcluster, h⟩ := Run.bind_eq_ok.1 h
  obtain ⟨current, s₅, hcurrent, h⟩ := Run.bind_eq_ok.1 h
  have h₁ := (ask_eq_ok.1 hadmin).2
  have h₂ := (ask_eq_ok.1 hrunning).2
  obtain ⟨described, h₃, hdescribed, hmoves⟩ := reassignmentLogDirsOngoing_ok hongoing
  have h₄ := (ask_eq_ok.1 hcluster).2
  obtain ⟨fetched, h₅, hfetched⟩ :=
    not_mem_deletions (readOnly_fetchCurrentReplicas host plan) hcurrent
  by_cases hgoing : reassignmentCount running ≠ 0 ∨ ongoing = true
  · have hguard : reassignmentCount running ≠ 0 ∨ ongoing = true ∨ args.preserveThrottles = true :=
      or_assoc.1 (.inl hgoing)
    simp only [hguard, if_true] at h
    have h₆ := (ask_eq_ok.1 h).2
    rw [h₅, h₄, h₃, h₂, h₁] at h₆
    simp only [List.append_assoc] at h₆
    refine ⟨_, running, cluster, h₆, by simp, by simp, fun hfinished => ?_⟩
    -- what goes on was told to the verification
    rcases hgoing with hcount | hongoing
    · exact absurd hfinished.1 hcount
    · obtain ⟨directories, hmem, htarget⟩ := hmoves hongoing
      have hdone := hfinished.2 directories (by simp [hmem])
      rw [htarget] at hdone
      cases hdone
  · rw [not_or, not_not, Bool.not_eq_true] at hgoing
    simp only [hgoing.1, hgoing.2, hpreserve, ne_eq, not_true_eq_false, Bool.false_eq_true, or_self,
      if_false] at h
    obtain ⟨_, s₆, hclear, hprint⟩ := Run.bind_eq_ok.1 h
    obtain ⟨cleared, h₆, hcleared⟩ := clear_ok hclear
    have h₇ := (ask_eq_ok.1 hprint).2
    rw [h₆, h₅, h₄, h₃, h₂, h₁] at h₇
    simp only [List.append_assoc] at h₇
    refine ⟨_, running, cluster, h₇, by simp, by simp, fun _ setting => ?_⟩
    rw [← hcleared setting]
    simp only [mem_deletions_append, hdescribed, hfetched]
    simp [deletions, Call.deletes]

end Deleted

/-! ## Main result -/

/-- **What is set and cleared.** A throttle that is set for a plan is deleted by a clearing for the
same plan exactly where its topic is one of the plan, or its broker is described or has a target
replica, and so it is by a cancellation, or by a verification that finds nothing going on. The
throttles of log directories are always deleted. -/
theorem clear_undoes_apply (plan : ReassignmentFile) (timeout : Nat)
    (running : List PartitionReassignmentInfo) (interBroker logDirs : Option Nat)
    (t set : Transcript Reply Failure)
    (hset : final ((applyReassignmentThrottles host timeout plan running interBroker logDirs).run
      t) = t ++ set)
    (setting : Setting) (hsetting : setting ∈ settings set) :
    (∀ (later : Host) (timeout : Nat) (clusterBrokers : Std.TreeSet Int)
      (t cleared : Transcript Reply Failure),
      (clearReassignmentThrottles later timeout plan clusterBrokers).run t =
        .ok () (t ++ cleared) →
      (setting ∈ deletions cleared ↔ Covered plan clusterBrokers setting)) ∧
    (∀ (later : Host) (timeout : Nat) (args : CancelArgs) (t cancelled : Transcript Reply Failure),
      readReassignment (later.readPlanFile args.reassignmentJsonFile) = .ok plan →
      args.execute = true → args.preserveThrottles = false →
      (cancelReassignment later timeout args).run t = .ok () (t ++ cancelled) →
      ∃ cluster, ⟨.describeCluster, .ok cluster⟩ ∈ cancelled ∧
        (setting ∈ deletions cancelled ↔
          Covered plan (.ofList (cluster.map (·.brokerId))) setting)) ∧
    (∀ (later : Host) (timeout : Nat) (args : VerifyArgs) (t verified : Transcript Reply Failure),
      readReassignment (later.readPlanFile args.reassignmentJsonFile) = .ok plan →
      args.preserveThrottles = false →
      (verifyReassignment later timeout args).run t = .ok () (t ++ verified) →
      ∃ running cluster, ⟨.listPartitionReassignments, .ok running⟩ ∈ verified ∧
        ⟨.describeCluster, .ok cluster⟩ ∈ verified ∧
        (Finished plan running verified → (setting ∈ deletions verified ↔
          Covered plan (.ofList (cluster.map (·.brokerId))) setting))) ∧
    (setting.key = "replica.alter.log.dirs.io.max.bytes.per.second" →
      ∀ clusterBrokers, Covered plan clusterBrokers setting) := by
  have hmoves : Follows (SetsThrottles plan) t (t ++ set) :=
    hset ▸ throttles_apply timeout running interBroker logDirs t
  obtain ⟨set', happend, hsets⟩ := exists_append_of_follows hmoves
  obtain rfl := List.append_cancel_left happend
  obtain ⟨exchange, hexchange, hmem⟩ := List.mem_flatMap.1 hsetting
  obtain ⟨before, hthrottles⟩ := hsets exchange hexchange
  have hthrottle : Throttle plan setting := hthrottles setting hmem
  refine ⟨?_, ?_, ?_, hthrottle.logDirs⟩
  · intro later timeout clusterBrokers t cleared hrun
    obtain ⟨cleared', happend, hcleared⟩ := clear_ok hrun
    obtain rfl := List.append_cancel_left happend
    rw [hcleared setting, and_iff_right hthrottle.key]
  · intro later timeout args t cancelled hplan hexecute hpreserve hrun
    rw [cancelReassignment, hplan] at hrun
    obtain ⟨_, s, hread, hrun⟩ := Run.bind_eq_ok.1 hrun
    obtain ⟨hread, rfl⟩ := run_ofExcept_eq_ok.1 hread
    cases hread
    rw [if_pos hexecute] at hrun
    obtain ⟨cancelled', cluster, happend, hcluster, hdeleted⟩ := cancelPlan_ok hpreserve hrun
    obtain rfl := List.append_cancel_left happend
    exact ⟨cluster, hcluster, by rw [hdeleted setting, and_iff_right hthrottle.key]⟩
  · intro later timeout args t verified hplan hpreserve hrun
    rw [verifyReassignment, hplan] at hrun
    obtain ⟨_, s, hread, hrun⟩ := Run.bind_eq_ok.1 hrun
    obtain ⟨hread, rfl⟩ := run_ofExcept_eq_ok.1 hread
    cases hread
    obtain ⟨verified', running, cluster, happend, hrunning, hcluster, hdeleted⟩ :=
      verifyPlan_ok hpreserve hrun
    obtain rfl := List.append_cancel_left happend
    refine ⟨running, cluster, hrunning, hcluster, fun hfinished => ?_⟩
    rw [hdeleted hfinished setting, and_iff_right hthrottle.key]

/-- A plan that moves a partition to broker 3. -/
def throttledPlan : ReassignmentFile := ⟨1, [⟨"orders", 0, [3], []⟩]⟩

/-- The throttle of the followers of a topic. -/
def throttledFollowers (topic : String) : Setting :=
  ⟨.topic, topic, "follower.replication.throttled.replicas"⟩

/-- The followers of the topic of the plan are throttled no longer once it is cancelled. -/
theorem clear_undoes_apply_cancel : throttledFollowers "orders" ∈ deletions
    (final ((cancelReassignment (ordersHost throttledPlan) 1000 ⟨"plan.json", false, true⟩).run
      [])) := by
  have hset : throttledFollowers "orders" ∈ settings (final ((applyReassignmentThrottles
      (ordersHost throttledPlan) 1000 throttledPlan [] (some 500) none).run [])) := by decide
  obtain ⟨-, hcancel, -⟩ := clear_undoes_apply (ordersHost throttledPlan) throttledPlan 1000 []
    (some 500) none [] _ rfl (throttledFollowers "orders") hset
  obtain ⟨cluster, -, hdeleted⟩ :=
    hcancel (ordersHost throttledPlan) 1000 ⟨"plan.json", false, true⟩ [] _ rfl rfl rfl rfl
  exact hdeleted.2 ⟨⟨"orders", 0, [3], []⟩, List.mem_cons_self, rfl⟩

/-- Another topic is being reassigned. Its replicas are throttled with those of the plan, and
what is cleared for the plan is none of them. -/
theorem clear_undoes_apply_running : ∃ set cleared,
    readReassignment (.ok throttledPlan) = .ok throttledPlan ∧
    (applyReassignmentThrottles (ordersHost throttledPlan) 1000 throttledPlan
      [⟨"payments", [⟨0, [1, 2], [2], [1]⟩]⟩] (some 500) none).run [] = .ok () set ∧
    (clearReassignmentThrottles (ordersHost throttledPlan) 1000 throttledPlan
      (.ofList (rackBrokers.map (·.brokerId)))).run [] = .ok () cleared ∧
    throttledFollowers "payments" ∈ settings set ∧
    throttledFollowers "payments" ∉ deletions cleared :=
  ⟨_, _, rfl, rfl, rfl, by decide, by decide⟩

end KafkaCli.Reassign
