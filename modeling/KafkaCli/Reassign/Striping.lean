import KafkaCli.Error
import KafkaCli.Lib.Checked
import KafkaCli.Lib.Multimap
import KafkaCli.Lib.Stripe
import Mathlib.Data.List.Rotate
import Mathlib.Data.List.Sort
import Std.Data.TreeMap.Lemmas
import Std.Data.TreeSet.Lemmas

/-!
# Striped assignments

`striped_replica_assignment` lays the brokers out in stripes, a broker of each rack in turn. The
replicas of a partition start at its place on this circle and go around it, first over racks that
are still unused and then over all brokers.

`stripedReplicaAssignment_ok`: each partition gets as many replicas as asked for, on different
brokers of the list.
-/

namespace KafkaCli.Reassign

open Checked Stripe

/-- A broker with its rack, if it has one. -/
abbrev BrokerRack := Int × Option String

/-- The brokers of each rack. -/
def groupByRack (brokers : List BrokerRack) : Std.TreeMap (Option String) (List Int) :=
  brokers.foldl (fun racks (broker, rack) => Multimap.push racks rack broker) ∅

/-- The brokers of each rack in the order of their numbers; the racks in the order of their
names. -/
def sortedRacks (brokers : List BrokerRack) : List (List Int) :=
  (groupByRack brokers).toList.map fun (_, rack) => rack.insertionSort (· ≤ ·)

def rackByBroker (brokers : List BrokerRack) : Std.TreeMap Int (Option String) :=
  .ofList brokers

def rackOf (brokers : List BrokerRack) (broker : Int) : Option String :=
  ((rackByBroker brokers)[broker]?).join

/-- The first loop over the candidates: take those whose rack is not used yet, while there are to
be more racks. -/
def takeRacks (rack : Int → Option String) (desiredDistinctRacks replicationFactor : Nat) :
    (candidates replicas : List Int) → (usedRacks : Std.TreeSet (Option String)) → List Int
  | [], replicas, _ => replicas
  | candidate :: candidates, replicas, usedRacks =>
    if usedRacks.size < desiredDistinctRacks ∧ rack candidate ∉ usedRacks then
      if (replicas ++ [candidate]).length = replicationFactor then replicas ++ [candidate]
      else takeRacks rack desiredDistinctRacks replicationFactor candidates
        (replicas ++ [candidate]) (usedRacks.insert (rack candidate))
    else takeRacks rack desiredDistinctRacks replicationFactor candidates replicas usedRacks

/-- The second loop: take whoever is not taken yet. -/
def takeOthers (replicationFactor : Nat) : (candidates replicas : List Int) → List Int
  | [], replicas => replicas
  | candidate :: candidates, replicas =>
    if candidate ∈ replicas then takeOthers replicationFactor candidates replicas
    else if (replicas ++ [candidate]).length = replicationFactor then replicas ++ [candidate]
    else takeOthers replicationFactor candidates (replicas ++ [candidate])

/-- The replicas of a partition, whose leader is the first one of the circle. -/
def replicasAround (rack : Int → Option String) (desiredDistinctRacks replicationFactor : Nat) :
    (circle : List Int) → List Int
  | [] => []
  | leader :: candidates =>
    let replicas := takeRacks rack desiredDistinctRacks replicationFactor candidates [leader]
      (.ofList [rack leader])
    if replicas.length < replicationFactor then takeOthers replicationFactor candidates replicas
    else replicas

/-- `striped_replica_assignment`. The circle of a partition is what its loops go through: from its
place on, `striped[(start + offset) % striped.len()]`. -/
def stripedReplicaAssignment (brokers : List BrokerRack)
    (partitionCount replicationFactor : Nat) : Result (List (List Int)) := do
  failIf (replicationFactor = 0) (.usage "replication factor must be positive")
  failIf (replicationFactor > brokers.length)
    (.usage s!"replication factor {replicationFactor} exceeds {brokers.length} available brokers")
  let striped := stripe (sortedRacks brokers)
  let desiredDistinctRacks := min replicationFactor (groupByRack brokers).size
  return (List.range partitionCount).map fun partition =>
    replicasAround (rackOf brokers) desiredDistinctRacks replicationFactor
      (striped.rotate (partition % striped.length))

/-! ## The brokers on the circle -/

/-- The racks together hold the brokers. -/
theorem flatMap_groupByRack_perm (brokers : List BrokerRack) :
    ((groupByRack brokers).toList.flatMap Prod.snd).Perm (brokers.map Prod.fst) := by
  induction brokers using List.reverseRecOn with
  | nil => exact .refl _
  | append_singleton brokers entry ih =>
    rw [groupByRack, List.foldl_append, List.map_append]
    exact (Multimap.flatMap_push_perm _ entry.2 entry.1).trans (ih.append_right _)

theorem striped_perm (brokers : List BrokerRack) :
    (stripe (sortedRacks brokers)).Perm (brokers.map Prod.fst) := by
  refine (stripe_perm _).trans (.trans ?_ (flatMap_groupByRack_perm brokers))
  rw [sortedRacks, ← List.flatMap_def]
  exact List.Perm.flatMap_left _ fun entry _ => List.perm_insertionSort _ _

/-! ## The replicas of a partition -/

section Replicas

variable {rack : Int → Option String} {desired factor : Nat} {candidates replicas : List Int}
  {used : Std.TreeSet (Option String)}

/-- The first loop appends some of the candidates, in their order. -/
theorem takeRacks_eq_append (rack : Int → Option String) (desired factor : Nat)
    (candidates replicas : List Int) (used : Std.TreeSet (Option String)) :
    ∃ taken, taken.Sublist candidates ∧
      takeRacks rack desired factor candidates replicas used = replicas ++ taken := by
  induction candidates generalizing replicas used with
  | nil => exact ⟨[], .slnil, by rw [takeRacks, List.append_nil]⟩
  | cons candidate candidates ih =>
    rw [takeRacks]
    split_ifs with hnew hfull
    · exact ⟨[candidate], by simp, rfl⟩
    · obtain ⟨taken, hsub, heq⟩ := ih (replicas ++ [candidate]) (used.insert (rack candidate))
      exact ⟨candidate :: taken, hsub.cons_cons candidate, by rw [heq, List.append_assoc]; rfl⟩
    · obtain ⟨taken, hsub, heq⟩ := ih replicas used
      exact ⟨taken, hsub.cons candidate, heq⟩

/-- The first loop takes as many replicas as racks, at most. -/
theorem length_takeRacks_le (hused : replicas.length = used.size) (hdesired : used.size ≤ desired) :
    (takeRacks rack desired factor candidates replicas used).length ≤ desired := by
  induction candidates generalizing replicas used with
  | nil =>
    rw [takeRacks]
    omega
  | cons candidate candidates ih =>
    rw [takeRacks]
    split_ifs with hnew hfull
    · rw [List.length_append, List.length_singleton]
      omega
    · have hsize : (used.insert (rack candidate)).size = used.size + 1 := by
        rw [Std.TreeSet.size_insert, if_neg (by simpa using hnew.2)]
      apply ih
      · rw [hsize, List.length_append, List.length_singleton, hused]
      · omega
    · exact ih hused hdesired

/-- What the second loop makes of the replicas: candidates are appended that were not taken, as
many as are missing or all of them. -/
structure Filled (factor : Nat) (candidates replicas result : List Int) : Prop where
  nodup : result.Nodup
  isPrefix : replicas <+: result
  mem : ∀ broker ∈ result, broker ∈ replicas ∨ broker ∈ candidates
  length : result.length = factor ∨
    result.length < factor ∧ ∀ broker ∈ candidates, broker ∈ result

theorem filled_takeOthers (hnodup : replicas.Nodup) (hshort : replicas.length < factor) :
    Filled factor candidates replicas (takeOthers factor candidates replicas) := by
  induction candidates generalizing replicas with
  | nil => exact ⟨hnodup, List.prefix_rfl, fun _ => .inl, .inr ⟨hshort, by simp⟩⟩
  | cons candidate candidates ih =>
    rw [takeOthers]
    by_cases hold : candidate ∈ replicas
    · have h := ih hnodup hshort
      rw [if_pos hold]
      refine ⟨h.nodup, h.isPrefix, ?_, ?_⟩
      · intro broker hbroker
        exact (h.mem broker hbroker).imp_right (List.mem_cons_of_mem _)
      · refine h.length.imp_right ?_
        intro ⟨hlength, hall⟩
        exact ⟨hlength, List.forall_mem_cons.2 ⟨h.isPrefix.mem hold, hall⟩⟩
    · have hgrown : (replicas ++ [candidate]).Nodup := by
        rw [← List.concat_eq_append]
        exact hnodup.concat hold
      have hfrom : ∀ broker ∈ replicas ++ [candidate],
          broker ∈ replicas ∨ broker ∈ candidate :: candidates := by
        intro broker hbroker
        rcases List.mem_append.1 hbroker with h | h
        · exact .inl h
        · exact .inr (List.mem_cons.2 (.inl (List.mem_singleton.1 h)))
      rw [if_neg hold]
      by_cases hfull : (replicas ++ [candidate]).length = factor
      · rw [if_pos hfull]
        exact ⟨hgrown, List.prefix_append _ _, hfrom, .inl hfull⟩
      · have hlength : (replicas ++ [candidate]).length < factor := by
          rw [List.length_append, List.length_singleton] at hfull ⊢
          omega
        have h := ih hgrown hlength
        rw [if_neg hfull]
        refine ⟨h.nodup, (List.prefix_append _ _).trans h.isPrefix, ?_, ?_⟩
        · intro broker hbroker
          rcases h.mem broker hbroker with htaken | hcandidate
          · exact hfrom broker htaken
          · exact .inr (List.mem_cons_of_mem _ hcandidate)
        · refine h.length.imp_right ?_
          intro ⟨hlength, hall⟩
          refine ⟨hlength, List.forall_mem_cons.2 ⟨h.isPrefix.mem ?_, hall⟩⟩
          exact List.mem_append_right _ (List.mem_singleton_self _)

/-- **The replicas** of a partition are as many different brokers of the circle as asked for. -/
theorem replicasAround_spec {circle : List Int} (hnodup : circle.Nodup) (hpos : 0 < factor)
    (hfactor : factor ≤ circle.length) (hdesired : desired ≤ factor) (hracks : 0 < desired) :
    (replicasAround rack desired factor circle).Nodup ∧
      (replicasAround rack desired factor circle).length = factor ∧
      replicasAround rack desired factor circle ⊆ circle := by
  cases circle with
  | nil =>
    rw [List.length_nil] at hfactor
    omega
  | cons leader candidates =>
    rw [replicasAround]
    obtain ⟨taken, hsub, htaken⟩ :=
      takeRacks_eq_append rack desired factor candidates [leader] (.ofList [rack leader])
    have hsublist : ([leader] ++ taken).Sublist (leader :: candidates) := hsub.cons_cons leader
    have hlength : ([leader] ++ taken).length ≤ factor := by
      have hone : (Std.TreeSet.ofList [rack leader]).size = 1 := by
        rw [Std.TreeSet.ofList_singleton, Std.TreeSet.size_insert]
        simp
      rw [← htaken]
      refine (length_takeRacks_le ?_ (hone.symm ▸ hracks)).trans hdesired
      rw [hone, List.length_singleton]
    simp only [htaken]
    split_ifs with hshort
    · have h : Filled factor candidates ([leader] ++ taken) _ :=
        filled_takeOthers (hsublist.nodup hnodup) hshort
      have hsubset : takeOthers factor candidates ([leader] ++ taken) ⊆ leader :: candidates := by
        intro broker hbroker
        rcases h.mem broker hbroker with htaken | hcandidate
        · exact hsublist.subset htaken
        · exact List.mem_cons_of_mem _ hcandidate
      refine ⟨h.nodup, ?_, hsubset⟩
      rcases h.length with heq | ⟨hless, hall⟩
      · exact heq
      · -- all brokers of the circle were taken, and there are enough of them
        have hmem : leader ∈ takeOthers factor candidates ([leader] ++ taken) :=
          h.isPrefix.mem (by simp)
        have hall : leader :: candidates ⊆ takeOthers factor candidates ([leader] ++ taken) :=
          List.cons_subset.2 ⟨hmem, hall⟩
        have hle := (List.subperm_of_subset hnodup hall).length_le
        omega
    · exact ⟨hsublist.nodup hnodup, by omega, hsublist.subset⟩

end Replicas

/-! ## The assignments -/

theorem groupByRack_ne_empty {brokers : List BrokerRack} (h : brokers ≠ []) :
    0 < (groupByRack brokers).size := by
  rw [← Std.TreeMap.length_toList, List.length_pos_iff]
  intro hnil
  have hperm := flatMap_groupByRack_perm brokers
  rw [hnil, List.flatMap_nil, List.nil_perm, List.map_eq_nil_iff] at hperm
  exact h hperm

/-- What is asked of the replicas of a partition. -/
structure Replicas (brokers : List Int) (replicationFactor : Nat) (replicas : List Int) : Prop where
  nodup : replicas.Nodup
  length_eq : replicas.length = replicationFactor
  subset : replicas ⊆ brokers

/-- **Striped assignments.** Each partition is assigned as many different brokers of the list as
asked for. -/
theorem stripedReplicaAssignment_ok {brokers : List BrokerRack} {partitionCount factor : Nat}
    {assignments : List (List Int)} (hnodup : (brokers.map Prod.fst).Nodup)
    (h : stripedReplicaAssignment brokers partitionCount factor = .ok assignments) :
    factor ≠ 0 ∧ assignments.length = partitionCount ∧
      ∀ replicas ∈ assignments, Replicas (brokers.map Prod.fst) factor replicas := by
  simp only [stripedReplicaAssignment, bind_eq_ok, failIf_eq_ok, pure_eq_ok, exists_const,
    Nat.not_lt, gt_iff_lt] at h
  obtain ⟨hpos, hfactor, rfl⟩ := h
  refine ⟨hpos, by simp, ?_⟩
  intro replicas hreplicas
  obtain ⟨partition, -, rfl⟩ := List.mem_map.1 hreplicas
  have hperm := striped_perm brokers
  have hrotate := (List.rotate_perm _ (partition % (stripe (sortedRacks brokers)).length)).trans
    hperm
  have hlength : factor ≤ ((stripe (sortedRacks brokers)).rotate
      (partition % (stripe (sortedRacks brokers)).length)).length := by
    rw [hrotate.length_eq, List.length_map]
    exact hfactor
  have hne : brokers ≠ [] := by
    intro hnil
    rw [hnil, List.length_nil] at hfactor
    omega
  obtain ⟨hnodup', hlength', hsubset⟩ := replicasAround_spec
    (hrotate.nodup_iff.2 hnodup) (Nat.pos_of_ne_zero hpos) hlength (Nat.min_le_left _ _)
    (Nat.lt_min.2 ⟨Nat.pos_of_ne_zero hpos, groupByRack_ne_empty hne⟩)
  exact ⟨hnodup', hlength', fun _ hmem => hrotate.subset (hsubset hmem)⟩

end KafkaCli.Reassign
