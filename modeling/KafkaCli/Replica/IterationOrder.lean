import KafkaCli.Replica.Verify

/-!
# The verdict and the order of the replicas

The cursors of `verify_partition` come out of a `HashMap`, in an order that changes from run to
run. `advance_matching_batches` abandons a row at the first replica that has no batch below its
high watermark, and exits the process at the first replica that disagrees with the replicas
before it. A row with both kinds of replica ends one way or the other, depending on which
comes first.

`walkEnd_order_iff` — the verdict is the same in every order exactly when the first row that is
not full is not of that kind. Two replicas never make one: `not_racy_of_length_le_two`.
-/

namespace KafkaCli.Replica

open Lockstep

variable {key : TopicPartitionKey} {highWatermarks : Int → Option Int}
  {replicas replicas' : List (Int × List ParsedBatch)}
  {fetchOffsets : TopicPartitionKey → Option Int}

theorem lanes_perm (h : replicas.Perm replicas') :
    (lanes highWatermarks (cursorsOf replicas)).Perm
      (lanes highWatermarks (cursorsOf replicas')) :=
  (h.map _).map _

/-- The end of the loop over the rows, the lines left aside. -/
def replicasEnd (key : TopicPartitionKey) (highWatermarks : Int → Option Int)
    (replicas : List (Int × List ParsedBatch))
    (fetchOffsets : TopicPartitionKey → Option Int) : WalkEnd :=
  (verifyRows key highWatermarks (cursorsOf replicas) fetchOffsets).1

theorem replicasEnd_eq {k : Nat}
    (hk : FullPrefix (lanes highWatermarks (cursorsOf replicas)) k) :
    replicasEnd key highWatermarks replicas fetchOffsets =
      walkEnd key (lanes highWatermarks (cursorsOf replicas)) k fetchOffsets := by
  have hwalk := verifyRows_eq key fetchOffsets hk
  rw [cursorsOf_at] at hwalk
  rw [replicasEnd, hwalk]

theorem offsetAfter_perm {l l' : List (Lane Int)} {k : Nat} (hp : l.Perm l')
    (hk : ∀ i < k, Full l i) : offsetAfter l k = offsetAfter l' k := by
  cases k with
  | zero => rfl
  | succ j =>
    have hrow : (row l j).Perm (row l' j) := hp.map _
    simp only [offsetAfter, scan_perm (hk j (Nat.lt_succ_self j)).not_racyRow hrow]

/-- Away from racy rows the end of a walk does not depend on the order of the lanes. -/
theorem walkEnd_perm {l l' : List (Lane Int)} {k : Nat} (hp : l.Perm l')
    (hk : ∀ i < k, Full l i) (hrace : ¬ RacyRow (row l k)) :
    walkEnd key l k fetchOffsets = walkEnd key l' k fetchOffsets := by
  have hrow : (row l k).Perm (row l' k) := hp.map _
  simp only [walkEnd, scan_perm hrace hrow, offsetAfter_perm hp hk]

theorem replicasEnd_of_conflict (key : TopicPartitionKey)
    (fetchOffsets : TopicPartitionKey → Option Int) {k : Nat}
    (hk : FullPrefix (lanes highWatermarks (cursorsOf replicas)) k)
    (hscan : scan none (row (lanes highWatermarks (cursorsOf replicas)) k) = .conflict) :
    replicasEnd key highWatermarks replicas fetchOffsets = .exited 1 := by
  rw [replicasEnd_eq hk, walkEnd, hscan]

theorem replicasEnd_of_missing (key : TopicPartitionKey)
    (fetchOffsets : TopicPartitionKey → Option Int) {k : Nat}
    (hk : FullPrefix (lanes highWatermarks (cursorsOf replicas)) k)
    (hscan : scan none (row (lanes highWatermarks (cursorsOf replicas)) k) = .missing) :
    ∃ offsets, replicasEnd key highWatermarks replicas fetchOffsets = .stopped offsets := by
  rw [replicasEnd_eq hk, walkEnd, hscan]
  exact ⟨_, rfl⟩

/-- A row of the cursors, read off the replicas. -/
theorem row_cursorsOf (k : Nat) :
    row (lanes highWatermarks (cursorsOf replicas)) k =
      replicas.map fun (replicaId, batches) =>
        (Cursor.mk replicaId 0 batches).lane highWatermarks k := by
  simp only [row, lanes, cursorsOf, List.map_map]
  rfl

/-- **The verdict and the order.** All orders of the replicas give the same verdict — the
process exits, or the loop stops with the same fetch offsets — exactly when the first row that
is not full does not hold both a replica without a batch below its high watermark and two
replicas that disagree. -/
theorem walkEnd_order_iff (key : TopicPartitionKey) (highWatermarks : Int → Option Int)
    (replicas : List (Int × List ParsedBatch)) (fetchOffsets : TopicPartitionKey → Option Int) :
    (∀ replicas₁ replicas₂, replicas₁.Perm replicas → replicas₂.Perm replicas →
      replicasEnd key highWatermarks replicas₁ fetchOffsets =
        replicasEnd key highWatermarks replicas₂ fetchOffsets) ↔
      ¬ Racy (lanes highWatermarks (cursorsOf replicas)) := by
  constructor
  · rintro hsame ⟨k, hfull, hrace⟩
    rw [row_cursorsOf] at hrace
    have hpassed : ∀ {replicas₁}, replicas₁.Perm replicas →
        FullPrefix (lanes highWatermarks (cursorsOf replicas₁)) k := fun hp =>
      FullPrefix.perm ⟨hfull, RacyRow.not_full (by rwa [row_cursorsOf])⟩ (lanes_perm hp.symm)
    obtain ⟨replicas₁, hp₁, hmissing⟩ := exists_missing hrace.1
    obtain ⟨replicas₂, hp₂, hconflict⟩ := hrace.exists_conflict
    rw [← row_cursorsOf] at hmissing hconflict
    obtain ⟨offsets, hstop⟩ := replicasEnd_of_missing key fetchOffsets (hpassed hp₁) hmissing
    have hexit := replicasEnd_of_conflict key fetchOffsets (hpassed hp₂) hconflict
    have hends := hsame replicas₁ replicas₂ hp₁ hp₂
    rw [hstop, hexit] at hends
    cases hends
  · intro hrace
    obtain ⟨k, hk⟩ := exists_fullPrefix_lanes highWatermarks (cursorsOf replicas)
    have hrow : ¬ RacyRow (row (lanes highWatermarks (cursorsOf replicas)) k) :=
      fun h => hrace ⟨k, hk.1, h⟩
    have hend : ∀ {replicas₁}, replicas₁.Perm replicas →
        replicasEnd key highWatermarks replicas₁ fetchOffsets =
          walkEnd key (lanes highWatermarks (cursorsOf replicas)) k fetchOffsets := by
      intro replicas₁ hp
      rw [replicasEnd_eq (hk.perm (lanes_perm hp.symm)),
        walkEnd_perm (lanes_perm hp.symm) hk.1 hrow]
    intro replicas₁ replicas₂ hp₁ hp₂
    rw [hend hp₁, hend hp₂]

/-- Two replicas are never racy. -/
theorem not_racy_of_length_le_two (h : replicas.length ≤ 2) :
    ¬ Racy (lanes highWatermarks (cursorsOf replicas)) := by
  rintro ⟨k, -, hrace⟩
  have h3 := hrace.three_le_length
  rw [row_cursorsOf, List.length_map] at h3
  omega

/-- Replicas 1 and 3 have batches that end at different offsets; replica 2 has none. -/
def disagreeing : List (Int × List ParsedBatch) :=
  [(1, [.ofLast 5 0]), (2, []), (3, [.ofLast 7 0])]

/-- The same replicas, the two that disagree first. -/
def disagreeing' : List (Int × List ParsedBatch) :=
  [(1, [.ofLast 5 0]), (3, [.ofLast 7 0]), (2, [])]

/-- Three replicas whose verdict depends on the order: in one the loop stops, in the other the
process exits. -/
theorem walkEnd_depends_on_order :
    ¬ ∀ (key : TopicPartitionKey) (highWatermarks : Int → Option Int)
      (replicas₁ replicas₂ : List (Int × List ParsedBatch))
      (fetchOffsets : TopicPartitionKey → Option Int),
      2 ≤ replicas₁.length → (replicas₁.map Prod.fst).Nodup → replicas₁.Perm replicas₂ →
        replicasEnd key highWatermarks replicas₁ fetchOffsets =
          replicasEnd key highWatermarks replicas₂ fetchOffsets := by
  intro hsame
  have hnot : ∀ {replicas : List (Int × List ParsedBatch)},
      (∀ offset, scan none (row (lanes (fun _ => some 10) (cursorsOf replicas)) 0) ≠
        .full offset) →
      FullPrefix (lanes (fun _ => some 10) (cursorsOf replicas)) 0 := fun h =>
    fullPrefix_iff_scan.2 ⟨fun i hi => absurd hi (Nat.not_lt_zero i), h⟩
  have hmissing : scan none (row (lanes (fun _ => some 10) (cursorsOf disagreeing)) 0) =
      .missing := by decide
  have hconflict : scan none (row (lanes (fun _ => some 10) (cursorsOf disagreeing')) 0) =
      .conflict := by decide
  obtain ⟨offsets, hstop⟩ := replicasEnd_of_missing ⟨"a", 0⟩ (fun _ => none)
    (hnot (by simp [hmissing])) hmissing
  have hexit := replicasEnd_of_conflict ⟨"a", 0⟩ (fun _ => none)
    (hnot (by simp [hconflict])) hconflict
  have hends := hsame ⟨"a", 0⟩ (fun _ => some 10) disagreeing disagreeing' (fun _ => none)
    (by decide) (by decide) (by decide)
  rw [hstop, hexit] at hends
  cases hends

end KafkaCli.Replica
