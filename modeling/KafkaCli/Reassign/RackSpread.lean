import KafkaCli.Lib.SortedMap
import KafkaCli.Reassign.Striping
import Mathlib.Data.Finset.Card

/-!
# Racks of an assignment

The replicas of a partition touch as many racks as they can. The first loop over the circle reaches
the number of racks that is asked for, since every rack has a broker on the circle, and the second
loop adds a rack only where not all are used yet.

Main result: `stripedReplicaAssignment_spec`, which also says that the order of the brokers in the
list does not matter, and when there is no assignment.
-/

namespace KafkaCli.Reassign

open Checked SortedMap Stripe

/-! ## The loops -/

section Loops

variable {rack : Int → Option String} {desired factor : Nat} {candidates replicas : List Int}
  {used : Std.TreeSet (Option String)}

/-- The racks in use are those of the replicas, one for each. -/
structure RacksUsed (rack : Int → Option String) (replicas : List Int)
    (used : Std.TreeSet (Option String)) : Prop where
  nodup : (replicas.map rack).Nodup
  size : used.size = replicas.length
  mem : ∀ r, r ∈ used ↔ r ∈ replicas.map rack

theorem RacksUsed.leader (rack : Int → Option String) (leader : Int) :
    RacksUsed rack [leader] (.ofList [rack leader]) where
  nodup := List.nodup_singleton _
  size := by
    rw [Std.TreeSet.ofList_singleton, Std.TreeSet.size_insert]
    simp
  mem r := by
    rw [Std.TreeSet.ofList_singleton, Std.TreeSet.mem_insert, Std.compare_eq_iff_eq]
    simp [eq_comm]

theorem RacksUsed.append (h : RacksUsed rack replicas used) {candidate : Int}
    (hnew : rack candidate ∉ used) :
    RacksUsed rack (replicas ++ [candidate]) (used.insert (rack candidate)) where
  nodup := by
    rw [List.map_append, List.map_singleton, ← List.concat_eq_append]
    exact h.nodup.concat (by rwa [← h.mem])
  size := by
    rw [Std.TreeSet.size_insert, if_neg (by simpa using hnew), h.size, List.length_append,
      List.length_singleton]
  mem r := by
    rw [Std.TreeSet.mem_insert, h.mem, List.map_append, List.mem_append, Std.compare_eq_iff_eq,
      List.map_singleton, List.mem_singleton, or_comm, eq_comm]

/-- The first loop takes replicas of different racks, as many as racks are to be, or of all the
racks. -/
theorem takeRacks_racks (candidates : List Int) (hused : RacksUsed rack replicas used)
    (hdesired : replicas.length ≤ desired) (hfactor : desired ≤ factor) :
    ((takeRacks rack desired factor candidates replicas used).map rack).Nodup ∧
      ((takeRacks rack desired factor candidates replicas used).length = desired ∨
        (takeRacks rack desired factor candidates replicas used).length < desired ∧
        ∀ candidate ∈ candidates,
          rack candidate ∈ (takeRacks rack desired factor candidates replicas used).map rack) := by
  induction candidates generalizing replicas used with
  | nil =>
    rw [takeRacks]
    refine ⟨hused.nodup, ?_⟩
    rcases Nat.lt_or_eq_of_le hdesired with hlt | heq
    · exact .inr ⟨hlt, List.forall_mem_nil _⟩
    · exact .inl heq
  | cons candidate candidates ih =>
    rw [takeRacks]
    split_ifs with hnew hfull
    · have happend := hused.append hnew.2
      refine ⟨happend.nodup, .inl ?_⟩
      have hlt := hnew.1
      rw [hused.size] at hlt
      rw [List.length_append, List.length_singleton] at hfull ⊢
      omega
    · have hlt := hnew.1
      rw [hused.size] at hlt
      have hlength : (replicas ++ [candidate]).length ≤ desired := by
        rw [List.length_append, List.length_singleton]
        omega
      obtain ⟨hnodup, hcount⟩ := ih (hused.append hnew.2) hlength
      refine ⟨hnodup, hcount.imp_right fun h => ⟨h.1, ?_⟩⟩
      obtain ⟨hless, hall⟩ := h
      obtain ⟨taken, -, htaken⟩ := takeRacks_eq_append rack desired factor candidates
        (replicas ++ [candidate]) (used.insert (rack candidate))
      refine List.forall_mem_cons.2 ⟨?_, hall⟩
      rw [htaken]
      simp
    · obtain ⟨hnodup, hcount⟩ := ih hused hdesired
      refine ⟨hnodup, hcount.imp_right fun h => ⟨h.1, ?_⟩⟩
      obtain ⟨hless, hall⟩ := h
      obtain ⟨taken, -, htaken⟩ :=
        takeRacks_eq_append rack desired factor candidates replicas used
      refine List.forall_mem_cons.2 ⟨?_, hall⟩
      -- there are fewer replicas than racks to be used, so the rack is in use
      have hlt : used.size < desired := by
        rw [htaken, List.length_append] at hless
        rw [hused.size]
        omega
      have hmem : rack candidate ∈ used := by
        by_contra hnot
        exact hnew ⟨hlt, hnot⟩
      rw [htaken, List.map_append]
      exact List.mem_append_left _ ((hused.mem _).1 hmem)

theorem card_racks_le {l l' : List Int} (h : ∀ broker ∈ l, rack broker ∈ l'.map rack) :
    (l.map rack).toFinset.card ≤ (l'.map rack).toFinset.card := by
  refine Finset.card_le_card fun r hr => ?_
  obtain ⟨broker, hbroker, rfl⟩ := List.mem_map.1 (List.mem_toFinset.1 hr)
  exact List.mem_toFinset.2 (h broker hbroker)

/-- **The racks of the replicas** are as many as there are on the circle, or as many as there are
replicas. -/
theorem replicasAround_racks {circle : List Int} (hnodup : circle.Nodup) (hne : circle ≠ [])
    (hpos : 0 < factor) (hdesired : desired = min factor (circle.map rack).toFinset.card) :
    ((replicasAround rack desired factor circle).map rack).toFinset.card = desired := by
  cases circle with
  | nil => exact absurd rfl hne
  | cons leader candidates =>
    have hone : 1 ≤ ((leader :: candidates).map rack).toFinset.card := by
      rw [Finset.one_le_card]
      exact ⟨rack leader, by simp⟩
    obtain ⟨hracks, hcount⟩ := takeRacks_racks candidates (RacksUsed.leader rack leader)
      (show [leader].length ≤ desired by simp; omega) (show desired ≤ factor by omega)
    obtain ⟨taken, hsub, htaken⟩ :=
      takeRacks_eq_append rack desired factor candidates [leader] (.ofList [rack leader])
    rw [replicasAround]
    rw [htaken] at hracks hcount ⊢
    have hsublist : ([leader] ++ taken).Sublist (leader :: candidates) := hsub.cons_cons leader
    have hcard := List.toFinset_card_of_nodup hracks
    rw [List.length_map] at hcard
    have hlength : ([leader] ++ taken).length = desired := by
      refine hcount.resolve_right ?_
      intro h
      obtain ⟨hless, hall⟩ := h
      -- the replicas touch all the racks of the circle
      have hle := card_racks_le (List.forall_mem_cons.2
        ⟨show rack leader ∈ ([leader] ++ taken).map rack by simp, hall⟩)
      omega
    split_ifs with hshort
    · have h : Filled factor candidates ([leader] ++ taken) _ :=
        filled_takeOthers (hsublist.nodup hnodup) hshort
      have hlower := card_racks_le fun broker hbroker =>
        List.mem_map_of_mem (f := rack) (h.isPrefix.subset hbroker)
      have hupper : ∀ broker ∈ takeOthers factor candidates ([leader] ++ taken),
          rack broker ∈ (leader :: candidates).map rack := by
        intro broker hbroker
        refine List.mem_map_of_mem ?_
        rcases h.mem broker hbroker with hold | hcandidate
        · exact hsublist.subset hold
        · exact List.mem_cons_of_mem _ hcandidate
      have hle := card_racks_le hupper
      omega
    · omega

end Loops

/-! ## Grouping by rack -/

variable {brokers brokers' : List BrokerRack} {partitionCount factor : Nat}

theorem groupByRack_concat (brokers : List BrokerRack) (entry : BrokerRack) :
    groupByRack (brokers ++ [entry]) = Multimap.push (groupByRack brokers) entry.2 entry.1 := by
  rw [groupByRack, List.foldl_append]
  rfl

theorem mem_groupByRack {r : Option String} :
    r ∈ groupByRack brokers ↔ r ∈ brokers.map Prod.snd := by
  induction brokers using List.reverseRecOn with
  | nil => simp [groupByRack]
  | append_singleton brokers entry ih =>
    rw [groupByRack_concat, Multimap.push, Std.TreeMap.mem_insert, ih, Std.compare_eq_iff_eq,
      List.map_append, List.mem_append, List.map_singleton, List.mem_singleton, or_comm, eq_comm]

theorem getD_groupByRack (brokers : List BrokerRack) (r : Option String) :
    (groupByRack brokers).getD r [] = (brokers.filter (·.2 = r)).map Prod.fst := by
  induction brokers using List.reverseRecOn with
  | nil => simp [groupByRack]
  | append_singleton brokers entry ih =>
    rw [groupByRack_concat, Multimap.getD_push, ih, List.filter_append, List.map_append]
    by_cases h : entry.2 = r
    · simp [h]
    · simp [h]

theorem getElem?_groupByRack {r : Option String} {rack : List Int} :
    (groupByRack brokers)[r]? = some rack ↔
      r ∈ brokers.map Prod.snd ∧ rack = (brokers.filter (·.2 = r)).map Prod.fst := by
  rw [← mem_groupByRack, ← getD_groupByRack, Std.TreeMap.mem_iff_isSome_getElem?,
    Std.TreeMap.getD_eq_getD_getElem?]
  cases (groupByRack brokers)[r]? with
  | none => simp
  | some rack' => simp [eq_comm]

/-- There is a group for each rack. -/
theorem size_groupByRack (brokers : List BrokerRack) :
    (groupByRack brokers).size = (brokers.map Prod.snd).toFinset.card := by
  have hkeys : (groupByRack brokers).keys.toFinset = (brokers.map Prod.snd).toFinset := by
    ext r
    rw [List.mem_toFinset, List.mem_toFinset, Std.TreeMap.mem_keys, mem_groupByRack]
  have hnodup : (groupByRack brokers).keys.Nodup :=
    Std.TreeMap.distinct_keys.imp fun hne heq => by simp [heq] at hne
  rw [← hkeys, List.toFinset_card_of_nodup hnodup, Std.TreeMap.length_keys]

theorem insertionSort_perm {l l' : List Int} (h : l'.Perm l) :
    l'.insertionSort (· ≤ ·) = l.insertionSort (· ≤ ·) :=
  (((List.perm_insertionSort _ l').trans h).trans (List.perm_insertionSort _ l).symm).eq_of_pairwise
    (fun _ _ _ _ => Int.le_antisymm) (List.pairwise_insertionSort _ l')
    (List.pairwise_insertionSort _ l)

/-- The racks with their brokers in order do not depend on the order of the list. -/
theorem mem_sortedGroups_of_perm (h : brokers'.Perm brokers) {r : Option String} {rack : List Int}
    (hmem : (r, rack) ∈ (groupByRack brokers').toList) :
    ∃ rack', (r, rack') ∈ (groupByRack brokers).toList ∧
      rack'.insertionSort (· ≤ ·) = rack.insertionSort (· ≤ ·) := by
  rw [Std.TreeMap.mem_toList_iff_getElem?_eq_some, getElem?_groupByRack] at hmem
  obtain ⟨hr, rfl⟩ := hmem
  refine ⟨(brokers.filter (·.2 = r)).map Prod.fst, ?_, ?_⟩
  · rw [Std.TreeMap.mem_toList_iff_getElem?_eq_some, getElem?_groupByRack]
    exact ⟨(h.map Prod.snd).subset hr, rfl⟩
  · exact (insertionSort_perm ((h.filter _).map Prod.fst)).symm

theorem sortedRacks_perm (h : brokers'.Perm brokers) :
    sortedRacks brokers' = sortedRacks brokers := by
  let sorted (entry : Option String × List Int) : Option String × List Int :=
    (entry.1, entry.2.insertionSort (· ≤ ·))
  have hincreasing : ∀ brokers : List BrokerRack,
      Increasing compare ((groupByRack brokers).toList.map sorted) := fun brokers =>
    List.pairwise_map.2 (increasing_toList _)
  have hsubset : ∀ {brokers brokers' : List BrokerRack}, brokers'.Perm brokers → ∀ entry,
      entry ∈ (groupByRack brokers').toList.map sorted →
        entry ∈ (groupByRack brokers).toList.map sorted := by
    intro brokers brokers' h entry hentry
    obtain ⟨⟨r, rack⟩, hmem, rfl⟩ := List.mem_map.1 hentry
    obtain ⟨rack', hmem', hsort⟩ := mem_sortedGroups_of_perm h hmem
    exact List.mem_map.2 ⟨(r, rack'), hmem', congrArg (Prod.mk r) hsort⟩
  have hsame := (hincreasing brokers').eq_of_mem_iff (hincreasing brokers) fun entry =>
    ⟨hsubset h entry, hsubset h.symm entry⟩
  have hsnd := congrArg (List.map Prod.snd) hsame
  rw [List.map_map, List.map_map] at hsnd
  exact hsnd

theorem distinct_ids (hnodup : (brokers.map Prod.fst).Nodup) :
    brokers.Pairwise fun a b => ¬ compare a.1 b.1 = .eq := by
  refine (List.pairwise_map.1 hnodup).imp ?_
  intro a b hne
  simpa using hne

theorem rackOf_eq (hnodup : (brokers.map Prod.fst).Nodup) {broker : Int} {r : Option String}
    (h : (broker, r) ∈ brokers) : rackOf brokers broker = r := by
  rw [rackOf, rackByBroker, (getElem?_ofList_eq_some (distinct_ids hnodup)).2 h]
  rfl

theorem rackOf_perm (hnodup : (brokers.map Prod.fst).Nodup) (h : brokers'.Perm brokers) :
    rackOf brokers' = rackOf brokers := by
  have hnodup' : (brokers'.map Prod.fst).Nodup := (h.map Prod.fst).nodup_iff.2 hnodup
  funext broker
  have hget : (rackByBroker brokers')[broker]? = (rackByBroker brokers)[broker]? := by
    refine Option.ext fun r => ?_
    rw [rackByBroker, rackByBroker, getElem?_ofList_eq_some (distinct_ids hnodup'),
      getElem?_ofList_eq_some (distinct_ids hnodup), h.mem_iff]
  rw [rackOf, rackOf, hget]

/-! ## Main result -/

/-- How many racks the brokers of a list are in. -/
def distinctRacks (brokers : List BrokerRack) : Nat := (brokers.map Prod.snd).toFinset.card

theorem stripedReplicaAssignment_perm (hnodup : (brokers.map Prod.fst).Nodup)
    (h : brokers'.Perm brokers) : stripedReplicaAssignment brokers' partitionCount factor =
      stripedReplicaAssignment brokers partitionCount factor := by
  have hsize : (groupByRack brokers').size = (groupByRack brokers).size := by
    rw [size_groupByRack, size_groupByRack, List.toFinset_eq_of_perm _ _ (h.map Prod.snd)]
  rw [stripedReplicaAssignment, stripedReplicaAssignment, h.length_eq, sortedRacks_perm h, hsize,
    rackOf_perm hnodup h]

/-- The racks of some of the brokers. -/
theorem map_rackOf_toFinset (hnodup : (brokers.map Prod.fst).Nodup) {replicas : List Int}
    (hsubset : replicas ⊆ brokers.map Prod.fst) : (replicas.map (rackOf brokers)).toFinset =
      ((brokers.filter (·.1 ∈ replicas)).map Prod.snd).toFinset := by
  ext r
  simp only [List.mem_toFinset, List.mem_map, List.mem_filter, decide_eq_true_eq, Prod.exists]
  refine ⟨?_, ?_⟩
  · rintro ⟨broker, hbroker, rfl⟩
    obtain ⟨⟨broker', r⟩, hmem, rfl⟩ := List.mem_map.1 (hsubset hbroker)
    exact ⟨broker', r, ⟨hmem, hbroker⟩, (rackOf_eq hnodup hmem).symm⟩
  · rintro ⟨broker, r', ⟨hmem, hbroker⟩, rfl⟩
    exact ⟨broker, hbroker, rackOf_eq hnodup hmem⟩

/-- The brokers as they are laid out. -/
def stripedBrokers (brokers : List BrokerRack) : List Int := stripe (sortedRacks brokers)

theorem rotate_stripedBrokers_perm (brokers : List BrokerRack) (partition : Nat) :
    ((stripedBrokers brokers).rotate partition).Perm (brokers.map Prod.fst) :=
  (List.rotate_perm _ _).trans (striped_perm brokers)

/-- The circle touches all the racks. -/
theorem card_racks_rotate (hnodup : (brokers.map Prod.fst).Nodup) (partition : Nat) :
    (((stripedBrokers brokers).rotate partition).map (rackOf brokers)).toFinset.card =
      distinctRacks brokers := by
  have hperm := rotate_stripedBrokers_perm brokers partition
  rw [map_rackOf_toFinset hnodup hperm.subset, distinctRacks, List.filter_eq_self.2]
  intro entry hentry
  rw [decide_eq_true_eq, hperm.mem_iff]
  exact List.mem_map_of_mem hentry

theorem stripedReplicaAssignment_eq {assignments : List (List Int)}
    (h : stripedReplicaAssignment brokers partitionCount factor = .ok assignments) :
    assignments = (List.range partitionCount).map fun partition =>
      replicasAround (rackOf brokers) (min factor (distinctRacks brokers)) factor
        ((stripedBrokers brokers).rotate partition) := by
  simp only [stripedReplicaAssignment, bind_eq_ok, failIf_eq_ok, pure_eq_ok, exists_const,
    List.rotate_mod, size_groupByRack] at h
  exact h.2.2.symm

theorem stripedReplicaAssignment_error :
    (∃ error, stripedReplicaAssignment brokers partitionCount factor = .error error) ↔
      factor = 0 ∨ brokers.length < factor := by
  rw [stripedReplicaAssignment]
  by_cases hzero : factor = 0
  · simp [failIf, hzero]
  · by_cases hlarge : brokers.length < factor
    · simp [failIf, hzero, hlarge]
    · simp [failIf, hzero, hlarge, pure, Except.pure]

/-- **Striped assignments are spread over the racks.** Each partition gets as many different
brokers as asked for, from as many racks as there are, or as replicas; the order in which the
brokers are listed does not matter, and there is no assignment exactly where no replica is asked
for or more than there are brokers. -/
theorem stripedReplicaAssignment_spec (brokers : List BrokerRack)
    (hnodup : (brokers.map Prod.fst).Nodup) (partitionCount factor : Nat) :
    (1 ≤ factor → factor ≤ brokers.length → ∃ assignments,
      stripedReplicaAssignment brokers partitionCount factor = .ok assignments ∧
        assignments.length = partitionCount ∧ ∀ replicas ∈ assignments,
          replicas.length = factor ∧ replicas.Nodup ∧ replicas ⊆ brokers.map Prod.fst ∧
            distinctRacks (brokers.filter (·.1 ∈ replicas)) = min factor (distinctRacks brokers)) ∧
    (∀ brokers' : List BrokerRack, brokers'.Perm brokers →
      stripedReplicaAssignment brokers' partitionCount factor =
        stripedReplicaAssignment brokers partitionCount factor) ∧
    ((∃ error, stripedReplicaAssignment brokers partitionCount factor = .error error) ↔
      factor = 0 ∨ brokers.length < factor) := by
  refine ⟨?_, fun brokers' => stripedReplicaAssignment_perm hnodup, stripedReplicaAssignment_error⟩
  intro hpos hfactor
  cases h : stripedReplicaAssignment brokers partitionCount factor with
  | error error =>
    have hinvalid := stripedReplicaAssignment_error.1 ⟨error, h⟩
    omega
  | ok assignments =>
    obtain ⟨-, hlength, hall⟩ := stripedReplicaAssignment_ok hnodup h
    refine ⟨assignments, rfl, hlength, ?_⟩
    intro replicas hreplicas
    have hreplicas' := hall replicas hreplicas
    refine ⟨hreplicas'.length_eq, hreplicas'.nodup, hreplicas'.subset, ?_⟩
    rw [distinctRacks, ← map_rackOf_toFinset hnodup hreplicas'.subset]
    rw [stripedReplicaAssignment_eq h] at hreplicas
    obtain ⟨partition, -, rfl⟩ := List.mem_map.1 hreplicas
    have hperm := rotate_stripedBrokers_perm brokers partition
    have hne : (stripedBrokers brokers).rotate partition ≠ [] := by
      intro hnil
      have hzero := hperm.length_eq
      rw [hnil, List.length_nil, List.length_map] at hzero
      omega
    exact replicasAround_racks (hperm.nodup_iff.2 hnodup) hne hpos
      (by rw [card_racks_rotate hnodup])

/-- Three brokers in two racks. -/
theorem stripedReplicaAssignment_spec_two_racks : ∃ assignments,
    stripedReplicaAssignment [(1, some "a"), (2, some "a"), (3, some "b")] 4 2 = .ok assignments ∧
      assignments.length = 4 := by
  obtain ⟨assignments, hok, hlength, -⟩ := (stripedReplicaAssignment_spec
    [(1, some "a"), (2, some "a"), (3, some "b")] (by decide) 4 2).1 (by decide) (by decide)
  exact ⟨assignments, hok, hlength⟩

end KafkaCli.Reassign
