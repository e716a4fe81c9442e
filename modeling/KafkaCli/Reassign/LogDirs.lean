import KafkaCli.Reassign.Throttles

/-!
# Moves between log directories

`broker_log_dir_plan` sorts the log directories of a plan by broker, directory and topic, for the
requests that move the partitions there. `reassignment_log_dirs_ongoing` builds a flat set of what
it waits for.

**Theorem (`brokerLogDirPlan_routes`).** For an accepted plan the sorted plan has each partition
once for each of its replicas with a directory of its own, and nothing else; and the replicas in it
are those that verification waits for, with one directory each.
-/

namespace KafkaCli.Reassign

open Multimap

/-- A broker, one of its log directories, and a partition that moves there. -/
abbrev LogDirMove := Int × String × String × Int

/-- The moves to a directory. -/
def dirMoves (broker : Int) (logDir : String) (entry : String × List Int) : List LogDirMove :=
  entry.2.map fun partition => (broker, logDir, entry.1, partition)

/-- The moves on a broker. -/
def brokerMoves (broker : Int) (entry : String × Std.TreeMap String (List Int)) :
    List LogDirMove :=
  entry.2.toList.flatMap (dirMoves broker entry.1)

/-- The moves of a sorted plan. -/
def BrokerLogDirPlan.moves (plan : BrokerLogDirPlan) : List LogDirMove :=
  plan.toList.flatMap fun entry => entry.2.toList.flatMap (brokerMoves entry.1)

/-- The moves of a partition of a plan. -/
def partitionMoves (partition : ReassignmentPartition) : List LogDirMove :=
  ((partition.replicas.zip partition.logDirs).filter (·.2 ≠ "any")).map
    fun (broker, logDir) => (broker, logDir, partition.topic, partition.partition)

/-! ## Sorting loses nothing -/

theorem moves_addLogDir (plan : BrokerLogDirPlan) (broker : Int) (logDir topic : String)
    (partition : Int) : (addLogDir plan broker logDir topic partition).moves.Perm
      (plan.moves ++ [(broker, logDir, topic, partition)]) := by
  refine flatMap_insert_perm plan ∅ rfl ?_
  refine flatMap_insert_perm (plan.getD broker ∅) ∅ rfl ?_
  refine flatMap_insert_perm ((plan.getD broker ∅).getD logDir ∅) [] rfl ?_
  rw [dirMoves, List.map_append]
  exact .refl _

/-- The sorted plan has the moves of its partitions, as often as they have them. -/
theorem moves_brokerLogDirPlan (plan : ReassignmentFile) :
    (brokerLogDirPlan plan).moves.Perm (plan.partitions.flatMap partitionMoves) := by
  have hpartition : ∀ (moves : BrokerLogDirPlan) (partition : ReassignmentPartition),
      ((partition.replicas.zip partition.logDirs).foldl (fun moves (broker, logDir) =>
        if logDir ≠ "any" then addLogDir moves broker logDir partition.topic partition.partition
        else moves) moves).moves.Perm (moves.moves ++ partitionMoves partition) := by
    intro moves partition
    have hfold : (partition.replicas.zip partition.logDirs).foldl (fun moves (broker, logDir) =>
        if logDir ≠ "any" then addLogDir moves broker logDir partition.topic partition.partition
        else moves) moves =
        ((partition.replicas.zip partition.logDirs).filter (·.2 ≠ "any")).foldl
          (fun moves (broker, logDir) =>
            addLogDir moves broker logDir partition.topic partition.partition) moves := by
      rw [List.foldl_filter]
      simp only [decide_eq_true_eq]
    rw [hfold, partitionMoves, List.map_eq_flatMap]
    refine foldl_perm BrokerLogDirPlan.moves ?_ _ moves
    intro moves replica
    exact moves_addLogDir moves replica.1 replica.2 partition.topic partition.partition
  exact foldl_perm BrokerLogDirPlan.moves hpartition plan.partitions ∅

/-! ## Every move once -/

theorem mem_partitionMoves {partition : ReassignmentPartition} {move : LogDirMove} :
    move ∈ partitionMoves partition ↔ ∃ (i : ℕ) (hi : i < partition.replicas.length)
      (hi' : i < partition.logDirs.length), partition.logDirs[i] ≠ "any" ∧
        move = (partition.replicas[i], partition.logDirs[i], partition.topic,
          partition.partition) := by
  rw [partitionMoves, List.mem_map]
  refine ⟨?_, ?_⟩
  · rintro ⟨replica, hreplica, rfl⟩
    obtain ⟨hmem, hany⟩ := List.mem_filter.1 hreplica
    obtain ⟨i, hi, rfl⟩ := List.mem_iff_getElem.1 hmem
    rw [List.length_zip, Nat.lt_min] at hi
    refine ⟨i, hi.1, hi.2, by simpa using hany, ?_⟩
    simp
  · rintro ⟨i, hi, hi', hany, rfl⟩
    have hzip : i < (partition.replicas.zip partition.logDirs).length := by
      rw [List.length_zip, Nat.lt_min]
      exact ⟨hi, hi'⟩
    refine ⟨(partition.replicas[i], partition.logDirs[i]), List.mem_filter.2 ⟨?_, ?_⟩, rfl⟩
    · exact List.mem_iff_getElem.2 ⟨i, hzip, by simp⟩
    · simpa using hany

theorem map_fst_zip_sublist {α β : Type} (l : List α) (m : List β) :
    ((l.zip m).map Prod.fst).Sublist l := by
  induction l generalizing m with
  | nil => simp
  | cons a l ih =>
    cases m with
    | nil => simp
    | cons b m => exact (ih m).cons_cons a

/-- A partition whose replicas are distinct moves once on each of them. -/
theorem nodup_partitionMoves {partition : ReassignmentPartition}
    (h : partition.replicas.Nodup) : (partitionMoves partition).Nodup := by
  have hbrokers : ((partitionMoves partition).map Prod.fst).Nodup := by
    rw [partitionMoves, List.map_map]
    have hsub : (((partition.replicas.zip partition.logDirs).filter (·.2 ≠ "any")).map
        Prod.fst).Sublist partition.replicas :=
      (List.filter_sublist.map _).trans (map_fst_zip_sublist _ _)
    exact hsub.nodup h
  exact hbrokers.of_map _

theorem ReassignmentPartition.target_of_mem {partition : ReassignmentPartition}
    {move : LogDirMove} (h : move ∈ partitionMoves partition) :
    (move.2.2.1, move.2.2.2) = partition.target := by
  obtain ⟨i, _, _, _, rfl⟩ := mem_partitionMoves.1 h
  rfl

/-- The partitions of an accepted plan have no move in common. -/
theorem nodup_moves {plan : ReassignmentFile} (h : plan.Accepted) :
    (plan.partitions.flatMap partitionMoves).Nodup := by
  refine List.nodup_flatMap.2 ⟨?_, ?_⟩
  · intro partition hpartition
    exact nodup_partitionMoves (h.valid partition hpartition).replicas_nodup
  · refine (List.pairwise_map.1 h.targets_nodup).imp ?_
    intro a b hne move ha hb
    exact hne ((ReassignmentPartition.target_of_mem ha).symm.trans
      (ReassignmentPartition.target_of_mem hb))

/-- A replica of an accepted plan moves to one directory. -/
theorem logDir_unique {plan : ReassignmentFile} (h : plan.Accepted) {broker : Int}
    {logDir logDir' topic : String} {partition : Int}
    (hmove : (broker, logDir, topic, partition) ∈ plan.partitions.flatMap partitionMoves)
    (hmove' : (broker, logDir', topic, partition) ∈ plan.partitions.flatMap partitionMoves) :
    logDir = logDir' := by
  obtain ⟨entry, hentry, hmem⟩ := List.mem_flatMap.1 hmove
  obtain ⟨entry', hentry', hmem'⟩ := List.mem_flatMap.1 hmove'
  have htarget : (topic, partition) = entry.target := ReassignmentPartition.target_of_mem hmem
  have htarget' : (topic, partition) = entry'.target := ReassignmentPartition.target_of_mem hmem'
  obtain rfl : entry = entry' :=
    List.inj_on_of_nodup_map h.targets_nodup hentry hentry' (htarget.symm.trans htarget')
  obtain ⟨i, hi, hi', _, heq⟩ := mem_partitionMoves.1 hmem
  obtain ⟨j, hj, hj', _, heq'⟩ := mem_partitionMoves.1 hmem'
  simp only [Prod.mk.injEq] at heq heq'
  have hindex : i = j := (h.valid entry hentry).replicas_nodup.getElem_inj_iff.1
    (heq.1.symm.trans heq'.1)
  subst hindex
  exact heq.2.1.trans heq'.2.1.symm

/-- What verification waits for are the replicas that move. -/
theorem mem_logDirTargets {plan : ReassignmentFile} {topic : String} {partition broker : Int} :
    ((topic, partition), broker) ∈ logDirTargets plan ↔
      ∃ logDir, (broker, logDir, topic, partition) ∈ plan.partitions.flatMap partitionMoves := by
  simp only [logDirTargets, partitionMoves, List.mem_flatMap, List.mem_map, Prod.exists,
    Prod.mk.injEq, ReassignmentPartition.target]
  refine ⟨?_, ?_⟩
  · rintro ⟨entry, hentry, replica, logDir, hmem, ⟨rfl, rfl⟩, rfl⟩
    exact ⟨logDir, entry, hentry, _, _, hmem, rfl, rfl, rfl, rfl⟩
  · rintro ⟨logDir, entry, hentry, _, _, hmem, rfl, rfl, rfl, rfl⟩
    exact ⟨entry, hentry, _, _, hmem, ⟨rfl, rfl⟩, rfl⟩

/-! ## The theorem -/

/-- **Moves are routed once, and verification waits for them.** -/
theorem brokerLogDirPlan_routes (file : Result ReassignmentFile) (plan : ReassignmentFile)
    (h : readReassignment file = .ok plan) :
    (∀ entry ∈ plan.partitions, ∀ (i : ℕ) (hi : i < entry.replicas.length)
      (hi' : i < entry.logDirs.length), entry.logDirs[i] ≠ "any" →
        (brokerLogDirPlan plan).moves.count
          (entry.replicas[i], entry.logDirs[i], entry.topic, entry.partition) = 1) ∧
    (∀ move ∈ (brokerLogDirPlan plan).moves, ∃ entry ∈ plan.partitions, ∃ (i : ℕ)
      (hi : i < entry.replicas.length) (hi' : i < entry.logDirs.length),
        entry.logDirs[i] ≠ "any" ∧
          move = (entry.replicas[i], entry.logDirs[i], entry.topic, entry.partition)) ∧
    (∀ (topic : String) (partition broker : Int) (logDir logDir' : String),
      (broker, logDir, topic, partition) ∈ (brokerLogDirPlan plan).moves →
        (broker, logDir', topic, partition) ∈ (brokerLogDirPlan plan).moves → logDir = logDir') ∧
    ∀ (topic : String) (partition broker : Int),
      ((topic, partition), broker) ∈ logDirTargets plan ↔
        ∃ logDir, (broker, logDir, topic, partition) ∈ (brokerLogDirPlan plan).moves := by
  obtain ⟨_, haccepted⟩ := readReassignment_ok.1 h
  have hperm := moves_brokerLogDirPlan plan
  refine ⟨?_, ?_, ?_, ?_⟩
  · intro entry hentry i hi hi' hany
    rw [hperm.count_eq]
    refine List.count_eq_one_of_mem (nodup_moves haccepted) (List.mem_flatMap.2 ?_)
    exact ⟨entry, hentry, mem_partitionMoves.2 ⟨i, hi, hi', hany, rfl⟩⟩
  · intro move hmove
    obtain ⟨entry, hentry, hmem⟩ := List.mem_flatMap.1 (hperm.mem_iff.1 hmove)
    exact ⟨entry, hentry, mem_partitionMoves.1 hmem⟩
  · intro topic partition broker logDir logDir' hmove hmove'
    exact logDir_unique haccepted (hperm.mem_iff.1 hmove) (hperm.mem_iff.1 hmove')
  · intro topic partition broker
    rw [mem_logDirTargets]
    simp only [hperm.mem_iff]

/-- A plan that moves one of two replicas to a directory. -/
def oneLogDir : ReassignmentFile := ⟨1, [⟨"orders", 0, [1, 2], ["/data", "any"]⟩]⟩

theorem brokerLogDirPlan_routes_one :
    (brokerLogDirPlan oneLogDir).moves.count (1, "/data", "orders", 0) = 1 :=
  (brokerLogDirPlan_routes (.ok oneLogDir) oneLogDir (by decide)).1 ⟨"orders", 0, [1, 2],
    ["/data", "any"]⟩ List.mem_cons_self 0 (by decide) (by decide) (by decide)

end KafkaCli.Reassign
