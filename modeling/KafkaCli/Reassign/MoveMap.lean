import KafkaCli.Reassign.Moves

/-!
# Who sends and who receives

`reassignment_move_map` maps each partition that moves to the brokers its replicas come from and
the brokers they go to. The running reassignments are entered first, and then the targets of the
plan, whose sources are read from the map where they are in it already.

Main result: `reassignmentMoveMap_spec`.
-/

namespace KafkaCli.Reassign

open Checked SortedMap

/-! ## Running reassignments -/

/-- The reassignment that is running for a partition: the last one that is listed. -/
def runningPartition (running : List PartitionReassignmentInfo) (key : TopicPartition) :
    Option RunningPartition :=
  (running.flatMap fun topic =>
    topic.partitions.map fun partition =>
      ((topic.name, partition.partitionIndex), partition)).reverse.lookup key

variable {running : List PartitionReassignmentInfo} {current : ReplicaMap}
  {moves moves' : ReassignmentMoveMap} {key : TopicPartition} {broker : Int}

theorem getElem?_runningMoves (running : List PartitionReassignmentInfo) (key : TopicPartition) :
    (runningMoves running)[key]? = (runningPartition running key).map runningMove := by
  have hmap : (running.flatMap fun topic => topic.partitions.map fun partition =>
      ((topic.name, partition.partitionIndex), runningMove partition)) =
      (running.flatMap fun topic => topic.partitions.map fun partition =>
        ((topic.name, partition.partitionIndex), partition)).map (Prod.map id runningMove) := by
    simp [List.map_flatMap, Function.comp_def]
  rw [runningMoves, getElem?_ofList_eq_lookup, hmap, ← List.map_reverse, runningPartition]
  generalize (running.flatMap _).reverse = entries
  induction entries with
  | nil => rfl
  | cons entry entries ih =>
    obtain ⟨key', partition⟩ := entry
    by_cases h : key = key'
    · simp [h]
    · have hbeq : (key == key') = false := by simpa using h
      simp only [List.map_cons, Prod.map, id_eq, List.lookup_cons, hbeq, ih]

/-! ## The plan -/

/-- The movement of a target whose replicas are at some brokers. -/
def targetMove (target : ReassignmentPartition) (sources : Std.TreeSet Int) : PartitionMove where
  sources := sources
  destinations := .ofList (target.replicas.filter (· ∉ sources))

/-- Each target is entered with its sources as they were before the plan, and nothing else is. -/
theorem foldlM_addMove_eq {targets : List ReassignmentPartition}
    (hnodup : (targets.map ReassignmentPartition.target).Nodup)
    (h : targets.foldlM (addMove current) moves = .ok moves') :
    (∀ target ∈ targets, ∃ sources, moveSources current moves target.target = some sources ∧
      moves'[target.target]? = some (targetMove target sources)) ∧
    ∀ key ∉ targets.map ReassignmentPartition.target, moves'[key]? = moves[key]? := by
  induction targets generalizing moves with
  | nil =>
    cases h
    exact ⟨nofun, fun _ _ => rfl⟩
  | cons target targets ih =>
    rw [List.map_cons, List.nodup_cons] at hnodup
    rw [List.foldlM_cons, addMove] at h
    cases hsources : moveSources current moves target.target with
    | none =>
      rw [hsources] at h
      cases h
    | some sources =>
      rw [hsources] at h
      obtain ⟨htargets, hothers⟩ := ih hnodup.2 h
      have hinsert : ∀ key, target.target ≠ key →
          (moves.insert target.target (targetMove target sources))[key]? = moves[key]? := by
        intro key hne
        rw [Std.TreeMap.getElem?_insert, if_neg (by simpa using hne)]
      refine ⟨?_, ?_⟩
      · rw [List.forall_mem_cons]
        refine ⟨⟨sources, hsources, ?_⟩, ?_⟩
        · rw [hothers _ hnodup.1, Std.TreeMap.getElem?_insert_self]
          rfl
        · intro later hlater
          have hne : target.target ≠ later.target := fun heq =>
            hnodup.1 (heq ▸ List.mem_map_of_mem hlater)
          obtain ⟨sources', hsources', hmove⟩ := htargets later hlater
          rw [moveSources] at hsources'
          exact ⟨sources', by rwa [moveSources, ← hinsert _ hne], hmove⟩
      · intro key hkey
        rw [List.map_cons, List.mem_cons, not_or] at hkey
        rw [hothers key hkey.2]
        exact hinsert key (Ne.symm hkey.1)

/-! ## Sources and destinations -/

theorem mem_runningMove_sources {partition : RunningPartition} :
    broker ∈ (runningMove partition).sources ↔
      broker ∈ partition.replicas ∧ broker ∉ partition.addingReplicas := by
  simp [runningMove, Std.TreeSet.mem_ofList]

theorem mem_runningMove_destinations {partition : RunningPartition} :
    broker ∈ (runningMove partition).destinations ↔ broker ∈ partition.addingReplicas := by
  simp [runningMove, Std.TreeSet.mem_ofList]

theorem mem_targetMove_destinations {target : ReassignmentPartition} {sources : Std.TreeSet Int} :
    broker ∈ (targetMove target sources).destinations ↔
      broker ∈ target.replicas ∧ broker ∉ sources := by
  simp [targetMove, Std.TreeSet.mem_ofList]

/-- The brokers that have the replicas of a partition before it moves. -/
def SourceOf (running : List PartitionReassignmentInfo) (current : ReplicaMap)
    (key : TopicPartition) (broker : Int) : Prop :=
  match runningPartition running key with
  | some partition => broker ∈ partition.replicas ∧ broker ∉ partition.addingReplicas
  | none => ∃ replicas, current[key]? = some replicas ∧ broker ∈ replicas

theorem mem_moveSources {sources : Std.TreeSet Int}
    (h : moveSources current (runningMoves running) key = some sources) :
    broker ∈ sources ↔ SourceOf running current key broker := by
  rw [moveSources, getElem?_runningMoves] at h
  rw [SourceOf]
  cases hrunning : runningPartition running key with
  | some partition =>
    rw [hrunning] at h
    cases h
    exact mem_runningMove_sources
  | none =>
    rw [hrunning] at h
    obtain ⟨replicas, hreplicas, rfl⟩ := Option.map_eq_some_iff.1 h
    simp [hreplicas, Std.TreeSet.mem_ofList]

theorem mem_runningMoves : key ∈ runningMoves running ↔
    (runningPartition running key).isSome := by
  rw [Std.TreeMap.mem_iff_isSome_getElem?, getElem?_runningMoves, Option.isSome_map]

/-! ## The map -/

section Moves

variable {plan : ReassignmentFile}

/-- Each move of the map is one of a target, or one that is running. -/
theorem eq_targetMove_or_runningMove (hplan : plan.Accepted)
    (hmoves : reassignmentMoveMap plan running current = .ok moves) {move : PartitionMove}
    (hmove : moves[key]? = some move) :
    (∃ target sources, move = targetMove target sources) ∨
      ∃ partition, move = runningMove partition := by
  obtain ⟨htargets, hothers⟩ := foldlM_addMove_eq hplan.targets_nodup hmoves
  by_cases hkey : key ∈ plan.partitions.map ReassignmentPartition.target
  · obtain ⟨target, htarget, rfl⟩ := List.mem_map.1 hkey
    obtain ⟨sources, -, hmove'⟩ := htargets target htarget
    exact .inl ⟨target, sources, Option.some.inj (hmove.symm.trans hmove')⟩
  · rw [hothers key hkey, getElem?_runningMoves] at hmove
    obtain ⟨partition, -, rfl⟩ := Option.map_eq_some_iff.1 hmove
    exact .inr ⟨partition, rfl⟩

/-- No broker of the map is a source and a destination of the same partition. -/
theorem not_mem_destinations (hplan : plan.Accepted)
    (hmoves : reassignmentMoveMap plan running current = .ok moves) {move : PartitionMove}
    (hmove : moves[key]? = some move) (hsource : broker ∈ move.sources) :
    broker ∉ move.destinations := by
  intro hdestination
  rcases eq_targetMove_or_runningMove hplan hmoves hmove with ⟨_, _, rfl⟩ | ⟨_, rfl⟩
  · exact (mem_targetMove_destinations.1 hdestination).2 hsource
  · exact (mem_runningMove_sources.1 hsource).2 (mem_runningMove_destinations.1 hdestination)

/-- The keys of the map. -/
theorem mem_reassignmentMoveMap (hplan : plan.Accepted)
    (hmoves : reassignmentMoveMap plan running current = .ok moves) :
    key ∈ moves ↔ (runningPartition running key).isSome ∨
      key ∈ plan.partitions.map ReassignmentPartition.target := by
  obtain ⟨htargets, hothers⟩ := foldlM_addMove_eq hplan.targets_nodup hmoves
  by_cases hkey : key ∈ plan.partitions.map ReassignmentPartition.target
  · obtain ⟨target, htarget, rfl⟩ := List.mem_map.1 hkey
    obtain ⟨sources, -, hmove⟩ := htargets target htarget
    rw [Std.TreeMap.mem_iff_isSome_getElem?, hmove]
    simp [hkey]
  · rw [Std.TreeMap.mem_iff_isSome_getElem?, hothers key hkey,
      ← Std.TreeMap.mem_iff_isSome_getElem?, mem_runningMoves]
    simp [hkey]

end Moves

/-! ## Main result -/

/-- **The moves of a plan.** A target is moved from where its replicas are, or from where they were
before the reassignment that is running, to the replicas of the plan that are not there; the other
running reassignments are moved as they are. No broker is a source and a destination of the same
partition, and the map fails where a target is neither running nor in the metadata. -/
theorem reassignmentMoveMap_spec (plan : ReassignmentFile) (hplan : plan.Accepted)
    (running : List PartitionReassignmentInfo) (current : ReplicaMap) :
    (∀ moves, reassignmentMoveMap plan running current = .ok moves →
      (∀ target ∈ plan.partitions, ∃ move, moves[target.target]? = some move ∧
        (∀ broker, broker ∈ move.sources ↔ SourceOf running current target.target broker) ∧
        ∀ broker, broker ∈ move.destinations ↔
          broker ∈ target.replicas ∧ broker ∉ move.sources) ∧
      (∀ key ∉ plan.partitions.map ReassignmentPartition.target, ∀ partition,
        runningPartition running key = some partition → ∃ move, moves[key]? = some move ∧
          (∀ broker, broker ∈ move.sources ↔
            broker ∈ partition.replicas ∧ broker ∉ partition.addingReplicas) ∧
          ∀ broker, broker ∈ move.destinations ↔ broker ∈ partition.addingReplicas) ∧
      (∀ (key : TopicPartition) (move : PartitionMove), moves[key]? = some move →
        ∀ broker, broker ∈ move.sources → broker ∉ move.destinations) ∧
      ∀ key, key ∈ moves ↔ (runningPartition running key).isSome ∨
        key ∈ plan.partitions.map ReassignmentPartition.target) ∧
    ((∃ failure, reassignmentMoveMap plan running current = .error failure) ↔
      ∃ target ∈ plan.partitions, runningPartition running target.target = none ∧
        target.target ∉ current) := by
  refine ⟨?_, ?_⟩
  · intro moves hmoves
    obtain ⟨htargets, hothers⟩ := foldlM_addMove_eq hplan.targets_nodup hmoves
    refine ⟨?_, ?_, ?_, ?_⟩
    · intro target htarget
      obtain ⟨sources, hsources, hmove⟩ := htargets target htarget
      exact ⟨_, hmove, fun broker => mem_moveSources hsources,
        fun broker => mem_targetMove_destinations⟩
    · intro key hkey partition hpartition
      refine ⟨runningMove partition, ?_, fun broker => mem_runningMove_sources,
        fun broker => mem_runningMove_destinations⟩
      rw [hothers key hkey, getElem?_runningMoves, hpartition]
      rfl
    · intro key move hmove broker
      exact not_mem_destinations hplan hmoves hmove
    · intro key
      exact mem_reassignmentMoveMap hplan hmoves
  · have hfails : (∃ failure, reassignmentMoveMap plan running current = .error failure) ↔
        ¬ ∃ moves, reassignmentMoveMap plan running current = .ok moves := by
      cases reassignmentMoveMap plan running current <;> simp
    rw [hfails, reassignmentMoveMap_ok hplan, TargetsKnown]
    simp only [mem_runningMoves, not_forall, not_or, Bool.not_eq_true, Option.isSome_eq_false_iff,
      Option.isNone_iff_eq_none, exists_prop]

/-- A plan for a partition that is being moved from broker 1 to broker 2 already. -/
theorem reassignmentMoveMap_spec_running : ∃ move : PartitionMove,
    (∀ broker, broker ∈ move.sources ↔ broker ∈ [1, 2] ∧ broker ∉ [2]) ∧
      ∀ broker, broker ∈ move.destinations ↔ broker ∈ [3] ∧ broker ∉ move.sources := by
  let plan : ReassignmentFile := ⟨1, [⟨"t", 0, [3], []⟩]⟩
  let running : List PartitionReassignmentInfo := [⟨"t", [⟨0, [1, 2], [2], [1]⟩]⟩]
  have hplan : plan.Accepted := ⟨rfl, by simp [plan], by
    intro partition hpartition
    rw [List.mem_singleton.1 hpartition]
    exact ⟨by decide, by decide, by decide, by decide, nofun⟩, by decide⟩
  obtain ⟨hok, -⟩ := reassignmentMoveMap_spec plan hplan running ∅
  obtain ⟨move, -, hsources, hdestinations⟩ :=
    (hok _ (by rfl)).1 ⟨"t", 0, [3], []⟩ List.mem_cons_self
  exact ⟨move, hsources, hdestinations⟩

end KafkaCli.Reassign
