import KafkaCli.Lib.RoundRobin
import KafkaCli.Reassign.RackSpread

/-!
# Balanced assignments

The partitions go around the circle of the brokers, so each broker leads as many of them as any
other, up to one. Where the racks are of the same size, neighbours on the circle are in different
racks for as long as there are unused ones. Then neither of the two loops passes over a broker,
and the replicas of a partition are consecutive brokers of the circle.

Main result: `stripedReplicaAssignment_balanced`.
-/

namespace KafkaCli.Reassign

open KafkaCli.Cycle Checked RoundRobin Stripe

/-! ## Windows of the circle -/

section Windows

variable {rack : Int → Option String} {desired factor : Nat} {candidates replicas : List Int}
  {used : Std.TreeSet (Option String)}

theorem takeRacks_of_full (hfull : ¬ used.size < desired) :
    takeRacks rack desired factor candidates replicas used = replicas := by
  induction candidates with
  | nil => rfl
  | cons candidate candidates ih =>
    rw [takeRacks, if_neg fun h => hfull h.1]
    exact ih

/-- The first loop takes the candidates as they come while their racks are new. -/
theorem takeRacks_of_nodup {fresh : List Int} (rest : List Int)
    (hused : RacksUsed rack replicas used) (hnodup : ((replicas ++ fresh).map rack).Nodup)
    (hlength : replicas.length + fresh.length = desired) (hfactor : desired ≤ factor) :
    takeRacks rack desired factor (fresh ++ rest) replicas used = replicas ++ fresh := by
  induction fresh generalizing replicas used with
  | nil =>
    rw [List.length_nil, Nat.add_zero, ← hused.size] at hlength
    rw [List.nil_append, List.append_nil, takeRacks_of_full (by omega)]
  | cons candidate fresh ih =>
    have hsplit : replicas ++ candidate :: fresh = replicas ++ [candidate] ++ fresh := by simp
    rw [hsplit] at hnodup ⊢
    have hnew : rack candidate ∉ used := by
      rw [hused.mem]
      rw [List.map_append, List.map_append, List.map_singleton, ← List.concat_eq_append] at hnodup
      exact (List.nodup_concat _ _).1 (List.nodup_append.1 hnodup).1 |>.1
    have hsize : used.size < desired := by
      rw [hused.size, ← hlength, List.length_cons]
      omega
    rw [List.cons_append, takeRacks, if_pos ⟨hsize, hnew⟩]
    split_ifs with hfull
    · have hnil : fresh = [] := by
        rw [← List.length_eq_zero_iff]
        rw [List.length_append, List.length_singleton] at hfull
        rw [List.length_cons] at hlength
        omega
      rw [hnil, List.append_nil]
    · refine ih (hused.append hnew) hnodup ?_
      rw [List.length_append, List.length_singleton, ← hlength, List.length_cons]
      omega

/-- The second loop passes over those that are taken, and takes the candidates after them. -/
theorem takeOthers_of_nodup {old fresh : List Int} (rest : List Int) (hold : old ⊆ replicas)
    (hnodup : (replicas ++ fresh).Nodup) (hne : fresh ≠ [])
    (hlength : replicas.length + fresh.length = factor) :
    takeOthers factor (old ++ (fresh ++ rest)) replicas = replicas ++ fresh := by
  induction old with
  | cons candidate old ih =>
    obtain ⟨hmem, hold⟩ := List.cons_subset.1 hold
    rw [List.cons_append, takeOthers, if_pos hmem]
    exact ih hold
  | nil =>
    clear hold
    rw [List.nil_append]
    induction fresh generalizing replicas with
    | nil => exact absurd rfl hne
    | cons candidate fresh ih =>
      have hsplit : replicas ++ candidate :: fresh = replicas ++ [candidate] ++ fresh := by simp
      rw [hsplit] at hnodup ⊢
      have hnew : candidate ∉ replicas := by
        rw [← List.concat_eq_append] at hnodup
        exact (List.nodup_concat _ _).1 (List.nodup_append.1 hnodup).1 |>.1
      rw [List.cons_append, takeOthers, if_neg hnew]
      split_ifs with hfull
      · have hnil : fresh = [] := by
          rw [← List.length_eq_zero_iff]
          rw [List.length_append, List.length_singleton] at hfull
          rw [List.length_cons] at hlength
          omega
        rw [hnil, List.append_nil]
      · have hne' : fresh ≠ [] := by
          rintro rfl
          exact hfull (by rw [List.length_append]; exact hlength)
        refine ih hnodup hne' ?_
        rw [List.length_append, List.length_singleton, ← hlength, List.length_cons]
        omega

/-- **A window of the circle**: the replicas of a partition where the first brokers of the circle
are in different racks. -/
theorem replicasAround_eq_take {circle : List Int} (hnodup : circle.Nodup)
    (hracks : ((circle.take desired).map rack).Nodup) (hpos : 0 < desired)
    (hdesired : desired ≤ factor) (hfactor : factor ≤ circle.length) :
    replicasAround rack desired factor circle = circle.take factor := by
  cases circle with
  | nil =>
    rw [List.length_nil] at hfactor
    omega
  | cons leader candidates =>
    obtain ⟨d, rfl⟩ : ∃ d, desired = d + 1 := ⟨desired - 1, by omega⟩
    obtain ⟨extra, rfl⟩ : ∃ extra, factor = d + 1 + extra := ⟨factor - (d + 1), by omega⟩
    rw [List.length_cons] at hfactor
    have hfirst : takeRacks rack (d + 1) (d + 1 + extra) candidates [leader] (.ofList [rack leader])
        = (leader :: candidates).take (d + 1) := by
      have h := takeRacks_of_nodup (candidates.drop d) (RacksUsed.leader rack leader)
        (show (([leader] ++ candidates.take d).map rack).Nodup from hracks) (by simp; omega)
        hdesired
      rwa [List.take_append_drop] at h
    have htake : (leader :: candidates).take (d + 1 + extra) =
        (leader :: candidates).take (d + 1) ++ (candidates.drop d).take extra := List.take_add
    rw [replicasAround, hfirst, htake]
    split_ifs with hshort
    · rw [List.length_take, List.length_cons] at hshort
      have hwindow := (List.take_sublist (d + 1 + extra) (leader :: candidates)).nodup hnodup
      rw [htake] at hwindow
      have hne : (candidates.drop d).take extra ≠ [] := by
        rw [← List.length_pos_iff, List.length_take, List.length_drop]
        omega
      have hlength : ((leader :: candidates).take (d + 1)).length +
          ((candidates.drop d).take extra).length = d + 1 + extra := by
        simp only [List.length_cons, List.length_take, List.length_drop]
        omega
      have hold : candidates.take d ⊆ (leader :: candidates).take (d + 1) :=
        List.subset_cons_self leader _
      have h := takeOthers_of_nodup ((candidates.drop d).drop extra) hold hwindow hne hlength
      rwa [List.take_append_drop, List.take_append_drop] at h
    · have hzero : extra = 0 := by
        rw [List.length_take, List.length_cons] at hshort
        omega
      rw [hzero, List.take_zero, List.append_nil]

end Windows

/-! ## Racks of the same size -/

variable {brokers : List BrokerRack} {partitionCount factor : Nat} {assignments : List (List Int)}

/-- The racks have the same number of brokers. -/
def EqualRacks (brokers : List BrokerRack) : Prop :=
  ∀ r ∈ brokers.map Prod.snd, ∀ r' ∈ brokers.map Prod.snd,
    (brokers.filter (·.2 = r)).length = (brokers.filter (·.2 = r')).length

instance (brokers : List BrokerRack) : Decidable (EqualRacks brokers) :=
  inferInstanceAs (Decidable (∀ r ∈ brokers.map Prod.snd, ∀ r' ∈ brokers.map Prod.snd,
    (brokers.filter (·.2 = r)).length = (brokers.filter (·.2 = r')).length))

theorem length_of_mem_sortedRacks (h : EqualRacks brokers) {rack : List Int}
    (hrack : rack ∈ sortedRacks brokers) : rack.length = maxLength (sortedRacks brokers) := by
  have hsize : ∀ rack ∈ sortedRacks brokers, ∃ r ∈ brokers.map Prod.snd,
      rack.length = (brokers.filter (·.2 = r)).length := by
    intro rack hrack
    obtain ⟨⟨r, group⟩, hentry, rfl⟩ := List.mem_map.1 hrack
    rw [Std.TreeMap.mem_toList_iff_getElem?_eq_some, getElem?_groupByRack] at hentry
    obtain ⟨hr, rfl⟩ := hentry
    exact ⟨r, hr, by rw [List.length_insertionSort, List.length_map]⟩
  obtain ⟨largest, hlargest, hmax⟩ := exists_length_eq_maxLength (List.ne_nil_of_mem hrack)
  obtain ⟨r, hr, hlength⟩ := hsize rack hrack
  obtain ⟨r', hr', hlength'⟩ := hsize largest hlargest
  rw [← hmax, hlength, hlength', h r hr r' hr']

/-- Around the circle, the racks come in the same order again and again. -/
theorem map_rackOf_stripedBrokers (hnodup : (brokers.map Prod.fst).Nodup) (h : EqualRacks brokers) :
    (stripedBrokers brokers).map (rackOf brokers) =
      (List.replicate (maxLength (sortedRacks brokers)) (groupByRack brokers).keys).flatten := by
  have hrow : ∀ index ∈ List.range (maxLength (sortedRacks brokers)),
      ((sortedRacks brokers).filterMap (·[index]?)).map (rackOf brokers) =
        (groupByRack brokers).keys := by
    intro index hindex
    rw [sortedRacks, List.filterMap_map, List.map_filterMap, ← Std.TreeMap.map_fst_toList_eq_keys,
      ← List.filterMap_eq_map]
    refine List.filterMap_congr fun entry hentry => ?_
    obtain ⟨r, group⟩ := entry
    have hlength : (group.insertionSort (· ≤ ·)).length = maxLength (sortedRacks brokers) :=
      length_of_mem_sortedRacks h (List.mem_map.2 ⟨(r, group), hentry, rfl⟩)
    have hlt : index < (group.insertionSort (· ≤ ·)).length :=
      hlength ▸ List.mem_range.1 hindex
    have hmem := (List.mem_insertionSort (· ≤ ·)).1 (List.getElem_mem hlt)
    rw [Std.TreeMap.mem_toList_iff_getElem?_eq_some, getElem?_groupByRack] at hentry
    obtain ⟨-, rfl⟩ := hentry
    obtain ⟨⟨broker, r'⟩, hbroker, heq⟩ := List.mem_map.1 hmem
    rw [List.mem_filter, decide_eq_true_eq] at hbroker
    have hget := List.getElem?_eq_getElem hlt
    rw [← heq] at hget
    exact (congrArg (Option.map (rackOf brokers)) hget).trans
      (congrArg some ((rackOf_eq hnodup hbroker.1).trans hbroker.2))
  rw [stripedBrokers, stripe, stripeTo, List.map_flatMap, List.flatMap_congr hrow,
    List.flatMap_def, List.map_const', List.length_range]

/-! ## Leaders -/

theorem head?_replicasAround {rack : Int → Option String} {desired : Nat} {circle : List Int}
    (hnodup : circle.Nodup) : (replicasAround rack desired factor circle).head? = circle.head? := by
  cases circle with
  | nil => rfl
  | cons leader candidates =>
    obtain ⟨taken, hsub, htaken⟩ :=
      takeRacks_eq_append rack desired factor candidates [leader] (.ofList [rack leader])
    have hsublist : ([leader] ++ taken).Sublist (leader :: candidates) := hsub.cons_cons leader
    rw [replicasAround, htaken]
    split_ifs with hshort
    · have h : Filled factor candidates ([leader] ++ taken) _ :=
        filled_takeOthers (hsublist.nodup hnodup) hshort
      obtain ⟨more, hmore⟩ := h.isPrefix
      rw [← hmore]
      rfl
    · rfl

/-- How many partitions a broker leads. -/
def led (assignments : List (List Int)) (broker : Int) : Nat :=
  assignments.countP (·.head? = some broker)

/-- How many replicas a broker holds. -/
def held (assignments : List (List Int)) (broker : Int) : Nat := assignments.flatten.count broker

theorem nodup_stripedBrokers (hnodup : (brokers.map Prod.fst).Nodup) :
    (stripedBrokers brokers).Nodup := (striped_perm brokers).nodup_iff.2 hnodup

/-- The partitions that a broker leads are those at whose step it has its turn. -/
theorem led_eq (hnodup : (brokers.map Prod.fst).Nodup)
    (h : stripedReplicaAssignment brokers partitionCount factor = .ok assignments) (broker : Int) :
    led assignments broker = (List.range partitionCount).countP fun partition =>
      at? (stripedBrokers brokers) (partition + 0) = some broker := by
  rw [led, stripedReplicaAssignment_eq h, List.countP_map]
  refine List.countP_congr fun partition _ => ?_
  have hperm := List.rotate_perm (stripedBrokers brokers) partition
  have hhead : ((stripedBrokers brokers).rotate partition).head? =
      at? (stripedBrokers brokers) (partition + 0) := by
    rw [at?, Nat.add_zero, ← List.rotate_mod]
    cases hstriped : stripedBrokers brokers with
    | nil => rfl
    | cons leader rest => exact List.head?_rotate (Nat.mod_lt _ (Nat.succ_pos _))
  rw [Function.comp_apply,
    head?_replicasAround (hperm.nodup_iff.2 (nodup_stripedBrokers hnodup)), hhead]

/-! ## Main result -/

theorem stripedReplicaAssignment_valid
    (h : stripedReplicaAssignment brokers partitionCount factor = .ok assignments) :
    0 < factor ∧ factor ≤ brokers.length := by
  by_contra hinvalid
  have hfails : ∃ error, stripedReplicaAssignment brokers partitionCount factor = .error error :=
    stripedReplicaAssignment_error.2 (by omega)
  obtain ⟨error, herror⟩ := hfails
  rw [h] at herror
  cases herror

/-- With racks of the same size, the replicas are windows of the circle. -/
theorem assignments_eq_windows (hnodup : (brokers.map Prod.fst).Nodup) (hequal : EqualRacks brokers)
    (h : stripedReplicaAssignment brokers partitionCount factor = .ok assignments) :
    assignments = (List.range partitionCount).map fun partition =>
      ((stripedBrokers brokers).rotate partition).take factor := by
  obtain ⟨hpos, hfactor⟩ := stripedReplicaAssignment_valid h
  have hne : brokers ≠ [] := by
    rintro rfl
    rw [List.length_nil] at hfactor
    omega
  have hracks : 0 < distinctRacks brokers := by
    rw [distinctRacks, ← size_groupByRack]
    exact groupByRack_ne_empty hne
  rw [stripedReplicaAssignment_eq h]
  refine List.map_congr_left fun partition _ => ?_
  have hperm := rotate_stripedBrokers_perm brokers partition
  refine replicasAround_eq_take (hperm.nodup_iff.2 hnodup) ?_ (by omega) (Nat.min_le_left _ _) ?_
  · have hkeys : (groupByRack brokers).keys.Nodup :=
      Std.TreeMap.distinct_keys.imp fun hne heq => by simp [heq] at hne
    rw [List.map_take, List.map_rotate, map_rackOf_stripedBrokers hnodup hequal]
    refine nodup_take_rotate_replicate hkeys _ _ ?_
    rw [Std.TreeMap.length_keys, size_groupByRack]
    exact Nat.min_le_right _ _
  · rw [hperm.length_eq, List.length_map]
    exact hfactor

/-- **Assignments are balanced.** Any two brokers lead equally many partitions, up to one. Where
the racks are of the same size, the replicas of a partition are consecutive brokers of the circle,
and over whole rounds each broker holds equally many of them. -/
theorem stripedReplicaAssignment_balanced (brokers : List BrokerRack)
    (hnodup : (brokers.map Prod.fst).Nodup) (partitionCount factor : Nat)
    (assignments : List (List Int))
    (h : stripedReplicaAssignment brokers partitionCount factor = .ok assignments) :
    (∀ broker ∈ brokers.map Prod.fst, ∀ broker' ∈ brokers.map Prod.fst,
      led assignments broker ≤ led assignments broker' + 1) ∧
    (EqualRacks brokers →
      assignments = (List.range partitionCount).map (fun partition =>
        ((stripedBrokers brokers).rotate partition).take factor) ∧
      (brokers.length ∣ partitionCount → ∀ broker ∈ brokers.map Prod.fst,
        held assignments broker = partitionCount * factor / brokers.length)) := by
  have hmem : ∀ {broker}, broker ∈ brokers.map Prod.fst → broker ∈ stripedBrokers brokers :=
    fun hbroker => (striped_perm brokers).mem_iff.2 hbroker
  have hstriped := nodup_stripedBrokers hnodup
  refine ⟨?_, fun hequal => ?_⟩
  · intro broker hbroker broker' hbroker'
    obtain ⟨extra, hextra, -, hcount⟩ :=
      exists_countP_at? hstriped (hmem hbroker) 0 partitionCount
    obtain ⟨extra', -, -, hcount'⟩ :=
      exists_countP_at? hstriped (hmem hbroker') 0 partitionCount
    rw [led_eq hnodup h, led_eq hnodup h, hcount, hcount']
    omega
  · have hwindows := assignments_eq_windows hnodup hequal h
    refine ⟨hwindows, fun hrounds broker hbroker => ?_⟩
    have hlength : (stripedBrokers brokers).length = brokers.length :=
      (striped_perm brokers).length_eq.trans (List.length_map _)
    rw [held, hwindows, ← hlength]
    exact count_windows hstriped (hmem hbroker)
      (hlength ▸ (stripedReplicaAssignment_valid h).2) (hlength ▸ hrounds)

/-- Three brokers without racks, six partitions of two replicas. -/
theorem stripedReplicaAssignment_balanced_six :
    held [[1, 2], [2, 3], [3, 1], [1, 2], [2, 3], [3, 1]] 3 = 6 * 2 / 3 := by
  have hok : stripedReplicaAssignment [(1, none), (2, none), (3, none)] 6 2 =
      .ok [[1, 2], [2, 3], [3, 1], [1, 2], [2, 3], [3, 1]] := by rfl
  exact ((stripedReplicaAssignment_balanced [(1, none), (2, none), (3, none)] (by decide) 6 2 _
    hok).2 (by decide)).2 (by decide) 3 (by decide)

end KafkaCli.Reassign
