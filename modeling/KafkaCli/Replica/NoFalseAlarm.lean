import KafkaCli.Lib.GrowingLog
import KafkaCli.Replica.Rounds
import Mathlib.Algebra.Order.Group.Int

/-!
# No false alarms

In a healthy cluster, of any two replicas of a partition one log begins as the other one, and the
brokers answer for the partitions that they are asked for, with batches that can be read.

**Theorem (`no_false_alarm`).** There the tool never reports a difference, exits or gives up on the
answers of a round, however far the replicas are behind each other: a run fails only where a fetch
does.

This needs the caches to be empty in front of each round (`Idle`), so that the replicas that are
counted are those of the partition.
-/

namespace KafkaCli.Replica

open Checked GrowingLog Lockstep

/-! ## Logs and answers -/

/-- The log of each replica of a partition. -/
abbrev Logs := TopicPartitionKey → Int → List ParsedBatch

/-- The batches in some data are the first ones of a log from an offset on. -/
def Reads (log : List ParsedBatch) (offset : Int) (data : ReplicaPartitionData) : Prop :=
  ∀ batches, parseRecordBatches data.records = .ok batches →
    batches <+: since ParsedBatch.lastOffset log offset

/-- What is answered for a partition that was asked for comes from the log of the broker. -/
def Serves (logs : Logs) (round : Round) : Prop :=
  ∀ broker address request responses,
    round.cluster broker address request = .answered responses →
    ∀ topic partitions, (topic, partitions) ∈ request.topics → ∀ asked ∈ partitions, ∀ data,
      (⟨topic, asked.partition⟩, data) ∈ answeredPartitions responses →
      Reads (logs ⟨topic, asked.partition⟩ broker) asked.fetchOffset data

theorem reads_noData (log : List ParsedBatch) (offset : Int) : Reads log offset noData := by
  intro batches hparsed
  obtain rfl := Except.ok.inj (parse_nil.symm.trans hparsed)
  exact List.nil_prefix

/-! ## Healthy clusters -/

/-- One of two lists begins as the other one. -/
def Comparable {α : Type*} (l l' : List α) : Prop := l <+: l' ∨ l' <+: l

/-- The answers of a round come from replicas that agree. -/
structure Healthy (logs : Logs) (round : Round) : Prop where
  comparable : ∀ key r s, Comparable (logs key r) (logs key s)
  serves : Serves logs round
  /-- Nothing is answered that was not asked for. -/
  asked : ∀ broker address request responses,
    round.cluster broker address request = .answered responses →
    ∀ key data, (key, data) ∈ answeredPartitions responses →
      ∃ listed, (key.topic, listed) ∈ request.topics ∧ ∃ asked ∈ listed,
        asked.partition = key.partition
  readable : ∀ broker address request responses,
    round.cluster broker address request = .answered responses →
    ∀ key data, (key, data) ∈ answeredPartitions responses →
      ∃ batches, parseRecordBatches data.records = .ok batches

/-- A fetch of the round fails. -/
def FetchFails (plan : ReplicaVerificationPlan) (round : Round) (error : Error) : Prop :=
  (∃ broker address request, round.cluster broker address request = .failed error) ∨
    ∃ broker, (plan.brokerPartitions.lookup broker).isSome ∧ plan.brokers.lookup broker = none ∧
      error = .config s!"broker {broker} is listed as a replica but missing from metadata"

/-- A line that reports no difference. -/
def ChecksumLine.Summary (line : ChecksumLine) : Prop := ∀ report, line ≠ .ofPartition report

theorem Comparable.symm {α : Type*} {l l' : List α} (h : Comparable l l') : Comparable l' l :=
  Or.symm h

theorem Comparable.prefixes {α : Type*} {l l' front front' : List α} (h : Comparable l l')
    (hfront : front <+: l) (hfront' : front' <+: l') : Comparable front front' := by
  rcases h with h | h
  · exact List.prefix_or_prefix_of_prefix (hfront.trans h) hfront'
  · exact List.prefix_or_prefix_of_prefix hfront (hfront'.trans h)

theorem Comparable.getElem? {α : Type*} {l l' : List α} (h : Comparable l l') {i : Nat} {a b : α}
    (ha : l[i]? = some a) (hb : l'[i]? = some b) : a = b := by
  rcases h with ⟨rest, rfl⟩ | ⟨rest, rfl⟩
  · rw [List.getElem?_append_left (List.getElem?_eq_some_iff.1 ha).1, ha] at hb
    exact Option.some.inj hb
  · rw [List.getElem?_append_left (List.getElem?_eq_some_iff.1 hb).1, hb] at ha
    exact (Option.some.inj ha).symm

theorem since_initial {log log' : List ParsedBatch} (h : log <+: log') (offset : Int) :
    since ParsedBatch.lastOffset log offset <+: since ParsedBatch.lastOffset log' offset := by
  obtain ⟨rest, rfl⟩ := h
  unfold since
  rw [List.dropWhile_append]
  split_ifs with hempty
  · rw [List.isEmpty_iff.1 hempty]
    exact List.nil_prefix
  · exact List.prefix_append _ _

/-- What two replicas return from one offset on. -/
theorem Comparable.of_reads {log log' : List ParsedBatch} (h : Comparable log log') {offset : Int}
    {data data' : ReplicaPartitionData} (hreads : Reads log offset data)
    (hreads' : Reads log' offset data') {batches batches' : List ParsedBatch}
    (hparsed : parseRecordBatches data.records = .ok batches)
    (hparsed' : parseRecordBatches data'.records = .ok batches') : Comparable batches batches' :=
  Comparable.prefixes (h.imp (since_initial · offset) (since_initial · offset))
    (hreads batches hparsed) (hreads' batches' hparsed')

/-! ## One partition -/

section Partition

variable {key : TopicPartitionKey} {highWatermarks : Int → Option Int} {cursors : List Cursor}

/-- Whatever is at a position is what any other cursor has there. -/
def Uniform (cursors : List Cursor) (i : Nat) : Prop :=
  ∀ a ∈ cursors, ∀ b ∈ cursors, ∀ batch batch', a.batches[i]? = some batch →
    b.batches[i]? = some batch' → batch = batch'

theorem lines_of_same {info : BatchMessageInfo} {i : Nat}
    (h : ∀ cursor ∈ cursors, ∀ batch, cursor.batches[i]? = some batch →
      info.lastOffset = batch.lastOffset ∧ info.checksum = batch.checksum) :
    (advanceMatchingBatches key highWatermarks (some info)
      (cursors.map (Cursor.at_ i))).lines = [] := by
  induction cursors with
  | nil => rfl
  | cons cursor rest ih =>
    have hrest := ih fun other hother => h other (List.mem_cons_of_mem cursor hother)
    rw [List.map_cons, advanceMatchingBatches]
    cases hget : cursor.batches[i]? with
    | none => simp [Cursor.at_, hget]
    | some batch =>
      obtain ⟨hlast, hchecksum⟩ := h cursor List.mem_cons_self batch hget
      by_cases hhw : (highWatermarks cursor.replicaId).getD (-1) ≤ batch.lastOffset
      · simp [Cursor.at_, hget, hhw]
      · simpa [Cursor.at_, hget, hhw, hlast, hchecksum, checksumLines] using hrest

/-- Nothing is printed for a row in which the batches are the same. -/
theorem rowLines_of_uniform {i : Nat} (h : Uniform cursors i) :
    rowLines key highWatermarks cursors i = [] := by
  unfold rowLines
  cases cursors with
  | nil => rfl
  | cons cursor rest =>
    rw [List.map_cons, advanceMatchingBatches]
    cases hget : cursor.batches[i]? with
    | none => simp [Cursor.at_, hget]
    | some batch =>
      by_cases hhw : (highWatermarks cursor.replicaId).getD (-1) ≤ batch.lastOffset
      · simp [Cursor.at_, hget, hhw]
      · have hrest : (advanceMatchingBatches key highWatermarks
            (some (.ofBatch cursor.replicaId batch)) (rest.map (Cursor.at_ i))).lines = [] := by
          refine lines_of_same fun other hother batch' hget' => ?_
          obtain rfl := h cursor List.mem_cons_self other (List.mem_cons_of_mem cursor hother)
            batch batch' hget hget'
          exact ⟨rfl, rfl⟩
        simpa [Cursor.at_, hget, hhw] using hrest

/-- It does not conflict either. -/
theorem scan_of_uniform {i : Nat} (h : Uniform cursors i) :
    scan none (row (lanes highWatermarks cursors) i) ≠ .conflict := by
  intro hconflict
  obtain ⟨j, k, hj, hk, hne⟩ := exists_of_scan_eq_conflict hconflict
  simp only [row, lanes, List.map_map, List.mem_map, Function.comp_apply] at hj hk
  obtain ⟨a, ha, hja⟩ := hj
  obtain ⟨b, hb, hkb⟩ := hk
  obtain ⟨batch, hget, hlast, -⟩ := lane_eq_some_iff.1 hja
  obtain ⟨batch', hget', hlast', -⟩ := lane_eq_some_iff.1 hkb
  obtain rfl := h a ha b hb batch batch' hget hget'
  exact hne (hlast.symm.trans hlast')

theorem parseResponses_of_readable {entries : List Response}
    (h : ∀ response ∈ entries, ∃ batches, parseRecordBatches response.2.records = .ok batches) :
    ∃ parsed, parseResponses entries = .ok parsed := by
  induction entries with
  | nil => exact ⟨[], rfl⟩
  | cons entry entries ih =>
    obtain ⟨batches, hbatches⟩ := h entry List.mem_cons_self
    obtain ⟨rest, hrest⟩ := ih fun response hmem => h response (List.mem_cons_of_mem entry hmem)
    exact ⟨_, parseResponses_cons_eq_ok.2 ⟨batches, rest, hbatches, hrest, rfl⟩⟩

/-- Responses that can be read and are comparable. -/
structure Harmonious (responses : FetchResponse) : Prop where
  readable : ∀ response ∈ responses.entries,
    ∃ batches, parseRecordBatches response.2.records = .ok batches
  comparable : ∀ r ∈ responses.entries, ∀ s ∈ responses.entries, ∀ batches batches',
    parseRecordBatches r.2.records = .ok batches →
      parseRecordBatches s.2.records = .ok batches' → Comparable batches batches'

/-- **The check of a partition raises no alarm.** -/
theorem verifyPartition_of_harmonious (order : IterOrder (Int × List ParsedBatch))
    {buffer : ReplicaBuffer} {responses : FetchResponse}
    (hcache : buffer.recordsCache key = some responses)
    (hcount : responses.entries.length = (buffer.expectedReplicas key).getD 0)
    (h : Harmonious responses) :
    ∃ after, verifyPartition order buffer key = (.ok after, []) := by
  obtain ⟨parsed, hparsed⟩ := parseResponses_of_readable h.readable
  have huniform : ∀ i, Uniform (startCursors order parsed) i := by
    intro i a ha b hb batch batch' hget hget'
    obtain ⟨-, data, hdata, hok⟩ := (mem_startCursors order hparsed a).1 ha
    obtain ⟨-, data', hdata', hok'⟩ := (mem_startCursors order hparsed b).1 hb
    exact (h.comparable _ hdata _ hdata' _ _ hok hok').getElem? hget hget'
  obtain ⟨k, hk⟩ := exists_fullPrefix_lanes (watermarks responses) (startCursors order parsed)
  have hlines : (List.range (k + 1)).flatMap
      (rowLines key (watermarks responses) (startCursors order parsed)) = [] :=
    List.flatMap_eq_nil_iff.2 fun i _ => rowLines_of_uniform (huniform i)
  rw [verifyPartition_eq hcache hcount hparsed, verifyRows_startCursors hk,
    walkEnd_eq_stopped (scan_of_uniform (huniform k)), hlines]
  exact ⟨_, rfl⟩

/-- Neither do the checks of several partitions. -/
theorem verifyPartitions_of_harmonious
    (orders : TopicPartitionKey → IterOrder (Int × List ParsedBatch))
    {keys : List TopicPartitionKey} {buffer : ReplicaBuffer} (hnodup : keys.Nodup)
    (h : ∀ key ∈ keys, ∃ responses, buffer.recordsCache key = some responses ∧
      responses.entries.length = (buffer.expectedReplicas key).getD 0 ∧ Harmonious responses) :
    ∃ after, verifyPartitions orders keys buffer = (.ok after, []) := by
  induction keys generalizing buffer with
  | nil => exact ⟨buffer, rfl⟩
  | cons key keys ih =>
    obtain ⟨hkey, hnodup⟩ := List.nodup_cons.1 hnodup
    obtain ⟨responses, hcache, hcount, hharmonious⟩ := h key List.mem_cons_self
    obtain ⟨next, hfirst⟩ := verifyPartition_of_harmonious (orders key) hcache hcount
      hharmonious
    obtain ⟨moved, -, hnext, -⟩ := verifyPartition_inv hcache hfirst
    have hothers : ∀ other ∈ keys, ∃ responses, next.recordsCache other = some responses ∧
        responses.entries.length = (next.expectedReplicas other).getD 0 ∧
          Harmonious responses := by
      intro other hother
      have hne : other ≠ key := fun heq => hkey (heq ▸ hother)
      rw [hnext, afterCheck_recordsCache, Function.update_of_ne hne, afterCheck_expectedReplicas]
      exact h other (List.mem_cons_of_mem key hother)
    obtain ⟨after, hrest⟩ := ih hnodup hothers
    refine ⟨after, ?_⟩
    rw [verifyPartitions, hfirst]
    dsimp only
    rw [hrest]
    rfl

end Partition

/-! ## One round -/

section Round

variable {plan : ReplicaVerificationPlan} {fetchSize maxWaitMs : Int} {round : Round}
  {partitions : List (TopicPartitionKey × List Int)} {logs : Logs}

theorem exists_of_mapM_error {ε α β : Type} {f : α → Except ε β} {l : List α} {e : ε}
    (h : l.mapM f = .error e) : ∃ a ∈ l, f a = .error e := by
  induction l with
  | nil => cases h
  | cons a l ih =>
    rw [List.mapM_cons, bind_eq_error] at h
    rcases h with hfirst | ⟨b, -, hrest⟩
    · exact ⟨a, List.mem_cons_self, hfirst⟩
    · rcases bind_eq_error.1 hrest with htail | ⟨_, _, hpure⟩
      · obtain ⟨x, hx, hfx⟩ := ih htail
        exact ⟨x, List.mem_cons_of_mem a hx, hfx⟩
      · cases hpure

/-- An error of the fetches comes from one of them. -/
theorem fetchFails_of_fetchAll {offsets : TopicPartitionKey → Int} {error : Error}
    (h : fetchAll plan fetchSize maxWaitMs round offsets = .error error) :
    FetchFails plan round error := by
  rw [fetchAll, bind_eq_error] at h
  rcases h with htasks | ⟨tasks, -, hjoin⟩
  · obtain ⟨⟨broker, partitions⟩, hmem, hbroker⟩ := exists_of_mapM_error htasks
    dsimp only at hbroker
    cases hlookup : plan.brokers.lookup broker with
    | some address => simp [hlookup] at hbroker
    | none =>
      rw [hlookup] at hbroker
      have hsome : plan.brokerPartitions.lookup broker = some partitions :=
        AList.mem_lookup_iff.2 ((round.brokers.perm _).mem_iff.1 hmem)
      exact .inr ⟨broker, by rw [hsome]; rfl, hlookup, (Except.error.inj hbroker).symm⟩
  · have hfailed : ∃ task ∈ tasks, fetchTask round offsets fetchSize maxWaitMs task =
        .error error := by
      unfold tryJoinAll at hjoin
      dsimp only at hjoin
      split at hjoin
      · rename_i first hfirst
        obtain ⟨result, hmem, hresult⟩ := List.exists_of_findSome?_eq_some hfirst
        obtain ⟨task, htask, rfl⟩ := List.mem_map.1 ((round.completion.perm _).mem_iff.1 hmem)
        refine ⟨task, htask, ?_⟩
        cases hrun : fetchTask round offsets fetchSize maxWaitMs task with
        | ok fetched => simp [hrun] at hresult
        | error error' =>
          simp only [hrun, Option.some.injEq] at hresult
          rw [hresult, Except.error.inj hjoin]
      · obtain ⟨result, hmem, hresult⟩ := exists_of_mapM_error hjoin
        obtain ⟨task, htask, rfl⟩ := List.mem_map.1 hmem
        exact ⟨task, htask, hresult⟩
    obtain ⟨⟨broker, address, asked⟩, -, htask⟩ := hfailed
    rw [fetchTask, bind_eq_error] at htask
    rcases htask with hfetch | ⟨_, _, hpure⟩
    · unfold fetchReplicaPartitions at hfetch
      split at hfetch
      · cases hfetch
      · cases hfetch
      · rename_i failure houtcome
        obtain rfl := Except.error.inj hfetch
        exact .inl ⟨_, _, _, houtcome⟩
    · cases hpure

/-- No partition is listed twice, and no replica of a partition. -/
structure Distinct (partitions : List (TopicPartitionKey × List Int)) : Prop where
  keys : (partitions.map Prod.fst).Nodup
  replicas : ∀ planned ∈ partitions, planned.2.Nodup

/-- What holds between two rounds: the caches are empty. -/
structure Idle (partitions : List (TopicPartitionKey × List Int)) (state : State) : Prop where
  visits : Visits state.buffer state.cached
  expected : ∀ key replicas, (key, replicas) ∈ partitions →
    state.buffer.expectedReplicas key = some replicas.length
  cached : ∀ key, key ∈ state.cached ↔ key ∈ partitions.map Prod.fst
  empty : ∀ key replica, state.buffer.response key replica = none

/-- The answers of a healthy round are for the replicas of the partitions. -/
theorem fetched_of_healthy {offsets : TopicPartitionKey → Int} {results : List (Int × Fetched)}
    (hhealthy : Healthy logs round)
    (hfetched : List.Forall₂ (FetchedFrom plan fetchSize maxWaitMs round offsets)
      (round.brokers.toFun plan.brokerPartitions.entries) results)
    {key : TopicPartitionKey} {broker : Int} {fetched : Fetched} {data : ReplicaPartitionData}
    (hresult : (broker, fetched) ∈ results) (hdata : fetched.lookup key = some data) :
    key ∈ plan.asked broker ∧ Reads (logs key broker) (offsets key) data ∧
      ∃ batches, parseRecordBatches data.records = .ok batches := by
  obtain ⟨address, hfetch⟩ := exists_fetched hfetched hresult
  rcases (fetchReplicaPartitions_eq_ok hfetch).2 key data hdata with
    ⟨hasked, rfl⟩ | ⟨responses, hanswered, hanswer⟩
  · exact ⟨hasked, reads_noData _ _, [], parse_nil⟩
  · obtain ⟨listed, hlisted, asked, hmem, hpartition⟩ :=
      hhealthy.asked _ _ _ _ hanswered key data hanswer
    obtain ⟨key', hkey', htopic, hrequest⟩ := mem_fetchRequest.1 ⟨listed, hlisted, hmem⟩
    have hkey : key' = key := by
      obtain ⟨topic, partition⟩ := key
      obtain ⟨topic', partition'⟩ := key'
      subst hrequest
      obtain rfl : topic' = topic := htopic
      obtain rfl : partition' = partition := hpartition
      rfl
    subst hkey
    refine ⟨hkey', ?_, hhealthy.readable _ _ _ _ hanswered key' data hanswer⟩
    subst hrequest
    exact hhealthy.serves _ _ _ _ hanswered _ _ hlisted _ hmem data hanswer

theorem Distinct.eq {key : TopicPartitionKey} {replicas replicas' : List Int}
    (h : Distinct partitions) (hmem : (key, replicas) ∈ partitions)
    (hmem' : (key, replicas') ∈ partitions) : replicas = replicas' :=
  (Prod.mk.inj (List.inj_on_of_nodup_map h.keys hmem hmem' rfl)).2

/-- What the buffer holds for a partition once the answers of a healthy round are in it. -/
theorem harmonious_of_filled {before filled : State} {results : List (Int × Fetched)}
    (hplan : Planned partitions plan) (hdistinct : Distinct partitions)
    (hhealthy : Healthy logs round) (hidle : Idle partitions before)
    (hfetched : List.Forall₂ (FetchedFrom plan fetchSize maxWaitMs round before.buffer.offset)
      (round.brokers.toFun plan.brokerPartitions.entries) results)
    (hfills : Filled (answers round results) before filled) {key : TopicPartitionKey}
    (hkey : key ∈ filled.cached) :
    key ∈ partitions.map Prod.fst ∧ ∃ responses, filled.buffer.recordsCache key = some responses ∧
      responses.entries.length = (filled.buffer.expectedReplicas key).getD 0 ∧
        Harmonious responses := by
  have hperm := brokers_perm hfetched
  have hnodup : (results.map Prod.fst).Nodup :=
    hperm.nodup_iff.2 plan.brokerPartitions.nodupKeys
  have hplanned : key ∈ partitions.map Prod.fst := by
    rcases (hfills.cached key).1 hkey with hbefore | ⟨replica, data, hanswer⟩
    · exact (hidle.cached key).1 hbefore
    · obtain ⟨fetched, hresult, hdata⟩ := mem_answers.1 hanswer
      obtain ⟨hasked, -⟩ := fetched_of_healthy hhealthy hfetched hresult hdata
      obtain ⟨replicas, hmem, -⟩ := hplan.mem_asked.1 hasked
      exact List.mem_map_of_mem hmem
  obtain ⟨responses, hcache⟩ : ∃ responses, filled.buffer.recordsCache key = some responses :=
    Option.isSome_iff_exists.1 (((hfills.visits hidle.visits).mem_iff key).1 hkey)
  -- a response is what a replica of the partition was good for
  have hresponse : ∀ replica data, responses.lookup replica = some data →
      ∃ fetched, (replica, fetched) ∈ results ∧ fetched.lookup key = some data := by
    intro replica data hdata
    have hbuffer : filled.buffer.response key replica = some data := by
      rw [ReplicaBuffer.response, hcache]
      exact hdata
    rw [hfills.response, hidle.empty, Option.or_none, List.lookup_eq_some_iff] at hbuffer
    obtain ⟨front, back, heq, -⟩ := hbuffer
    have hanswer : ((key, replica), data) ∈ answers round results := by
      rw [← List.mem_reverse, heq]
      exact List.mem_append_right front List.mem_cons_self
    exact mem_answers.1 hanswer
  refine ⟨hplanned, responses, hcache, ?_, fun response hmem => ?_, ?_⟩
  · obtain ⟨⟨_, replicas⟩, hmem, rfl⟩ := List.mem_map.1 hplanned
    have hsame : responses.keys.Perm replicas := by
      refine (List.perm_ext_iff_of_nodup responses.nodupKeys (hdistinct.replicas _ hmem)).2
        fun replica => ?_
      show replica ∈ responses ↔ _
      rw [← AList.lookup_isSome, Option.isSome_iff_exists]
      constructor
      · intro ⟨data, hdata⟩
        obtain ⟨fetched, hresult, hdata⟩ := hresponse replica data hdata
        obtain ⟨hasked, -⟩ := fetched_of_healthy hhealthy hfetched hresult hdata
        obtain ⟨replicas', hmem', hreplica⟩ := hplan.mem_asked.1 hasked
        rwa [hdistinct.eq hmem hmem']
      · intro hreplica
        have hbroker : replica ∈ results.map Prod.fst :=
          hperm.mem_iff.2 (AList.lookup_isSome.1 ((hplan.brokers replica).2 ⟨_, hmem, hreplica⟩))
        obtain ⟨⟨broker, fetched⟩, hresult, rfl⟩ := List.mem_map.1 hbroker
        obtain ⟨address, hfetch⟩ := exists_fetched hfetched hresult
        obtain ⟨data, hdata⟩ := Option.isSome_iff_exists.1
          ((fetchReplicaPartitions_eq_ok hfetch).1 _ (hplan.mem_asked.2 ⟨replicas, hmem, hreplica⟩))
        have hbuffer := hfills.of_fetched hnodup hresult hdata
        rw [ReplicaBuffer.response, hcache] at hbuffer
        exact ⟨data, hbuffer⟩
    rw [hfills.expected, hidle.expected _ replicas hmem, Option.getD_some, ← hsame.length_eq]
    exact (List.length_map _).symm
  · obtain ⟨fetched, hresult, hdata⟩ := hresponse _ _ (AList.mem_lookup_iff.2 hmem)
    exact (fetched_of_healthy hhealthy hfetched hresult hdata).2.2
  · intro r hr s hs batches batches' hparsed hparsed'
    obtain ⟨rFetched, hrResult, hrData⟩ := hresponse _ _ (AList.mem_lookup_iff.2 hr)
    obtain ⟨sFetched, hsResult, hsData⟩ := hresponse _ _ (AList.mem_lookup_iff.2 hs)
    exact (hhealthy.comparable key r.1 s.1).of_reads
      (fetched_of_healthy hhealthy hfetched hrResult hrData).2.1
      (fetched_of_healthy hhealthy hfetched hsResult hsData).2.1 hparsed hparsed'

/-- **One round raises no alarm.** -/
theorem round_of_healthy (fetchSize maxWaitMs : Int) {before : State} (hplan : Planned partitions plan)
    (hdistinct : Distinct partitions) (hhealthy : Healthy logs round)
    (hidle : Idle partitions before) :
    (∃ error, replicaVerificationRound plan fetchSize maxWaitMs round before = (.err error, []) ∧
      FetchFails plan round error) ∨
    ∃ after lines, replicaVerificationRound plan fetchSize maxWaitMs round before =
      (.ok after, lines) ∧ (∀ line ∈ lines, line.Summary) ∧ Idle partitions after := by
  cases hfetch : fetchAll plan fetchSize maxWaitMs round before.buffer.offset with
  | error error =>
    refine .inl ⟨error, ?_, fetchFails_of_fetchAll hfetch⟩
    rw [replicaVerificationRound, hfetch]
  | ok results =>
    have hfetched := fetchAll_eq_ok hfetch
    have hfills : Filled (answers round results) before (before.addAll round results) := by
      rw [addAll_eq]
      exact filled_foldl _ _
    have hkeys := hfills.visits hidle.visits
    have hcache := round.cache.perm (before.addAll round results).cached
    have hharmonious : ∀ key ∈ round.cache.toFun (before.addAll round results).cached,
        ∃ responses, (before.addAll round results).buffer.resetLag.recordsCache key =
          some responses ∧ responses.entries.length =
            ((before.addAll round results).buffer.resetLag.expectedReplicas key).getD 0 ∧
          Harmonious responses := fun key hkey =>
      (harmonious_of_filled hplan hdistinct hhealthy hidle hfetched hfills
        (hcache.mem_iff.1 hkey)).2
    obtain ⟨buffer, hchecks⟩ := verifyPartitions_of_harmonious round.cursors
      (hcache.nodup_iff.2 hkeys.nodup) hharmonious
    have hdone := verifyPartitions_inv (hcache.nodup_iff.2 hkeys.nodup) hchecks
    refine .inr ⟨{ before.addAll round results with buffer := buffer },
      maybeReportMaxLag round.due
        (round.cache.toFun (before.addAll round results).cached).length buffer,
      ?_, ?_, ?_, ?_, ?_, ?_⟩
    · rw [replicaVerificationRound, hfetch]
      dsimp only
      unfold verifyChecksum
      rw [ReplicaBuffer.resetLag] at hchecks
      simp only [hchecks, List.map_nil, List.nil_append]
    · intro line hline report heq
      subst heq
      unfold maybeReportMaxLag at hline
      split_ifs at hline
      · simp at hline
      · cases hline
    · exact ⟨hkeys.nodup, fun key => (hkeys.mem_iff key).trans (by rw [hdone.cache]; rfl)⟩
    · intro key replicas hmem
      rw [hdone.expected]
      exact (congrFun hfills.expected key).trans (hidle.expected key replicas hmem)
    · intro key
      refine ⟨fun hkey => (harmonious_of_filled hplan hdistinct hhealthy hidle hfetched hfills
        hkey).1, fun hkey => (hfills.cached key).2 (.inl ((hidle.cached key).2 hkey))⟩
    · intro key replica
      unfold ReplicaBuffer.response
      by_cases hkey : key ∈ (before.addAll round results).cached
      · obtain ⟨-, responses, hresponses, -⟩ :=
          harmonious_of_filled hplan hdistinct hhealthy hidle hfetched hfills hkey
        obtain ⟨-, -, -, hempty, -⟩ :=
          hdone.partition key (hcache.mem_iff.2 hkey) responses hresponses
        rw [hempty]
        rfl
      · have hnone : buffer.recordsCache key = none := by
          rw [← Option.not_isSome_iff_eq_none, hdone.cache]
          exact fun hsome => hkey ((hkeys.mem_iff key).2 hsome)
        rw [hnone]
        rfl

end Round

/-! ## A run -/

theorem idle_new {plan : ReplicaVerificationPlan}
    {partitions : List (TopicPartitionKey × List Int)} (hplan : Planned partitions plan)
    (hdistinct : Distinct partitions) (offsets : AList fun _ : TopicPartitionKey => Int) :
    Idle partitions (State.new plan offsets) where
  visits := visits_new plan offsets
  expected key replicas hmem := by
    obtain ⟨n, hn⟩ := Option.isSome_iff_exists.1
      (hplan.expected_isSome key (List.mem_map_of_mem hmem))
    obtain ⟨replicas', hmem', hlength⟩ := hplan.expected key n hn
    show plan.expectedReplicas.lookup key = _
    rw [hn, ← hlength, hdistinct.eq hmem hmem']
  cached key := by
    show key ∈ plan.expectedReplicas ↔ _
    rw [← AList.lookup_isSome]
    refine ⟨fun hsome => ?_, hplan.expected_isSome key⟩
    obtain ⟨n, hn⟩ := Option.isSome_iff_exists.1 hsome
    obtain ⟨replicas, hmem, -⟩ := hplan.expected key n hn
    exact List.mem_map_of_mem hmem
  empty key replica := by
    show (((plan.expectedReplicas.lookup key).map fun _ => (∅ : FetchResponse)).getD ∅).lookup
      replica = none
    cases plan.expectedReplicas.lookup key <;> rfl

/-- How a run ends in a healthy cluster. -/
def EndsQuietly (plan : ReplicaVerificationPlan) (rounds : List Round) (ending : Ending) : Prop :=
  (∃ state, ending = .ok state) ∨
    ∃ error, ending = .err error ∧ ∃ round ∈ rounds, FetchFails plan round error

theorem run_of_healthy {plan : ReplicaVerificationPlan} (fetchSize maxWaitMs : Int)
    {partitions : List (TopicPartitionKey × List Int)} {rounds : List Round} {state : State}
    (hplan : Planned partitions plan) (hdistinct : Distinct partitions)
    (hhealthy : ∀ round ∈ rounds, ∃ logs, Healthy logs round) (hidle : Idle partitions state) :
    ∃ ending lines,
      runReplicaVerificationLoop plan fetchSize maxWaitMs rounds state = (ending, lines) ∧
        EndsQuietly plan rounds ending ∧ ∀ line ∈ lines, line.Summary := by
  induction rounds generalizing state with
  | nil => exact ⟨.ok state, [], rfl, .inl ⟨state, rfl⟩, fun line h => absurd h List.not_mem_nil⟩
  | cons round rounds ih =>
    obtain ⟨logs, hround⟩ := hhealthy round List.mem_cons_self
    rw [runReplicaVerificationLoop]
    rcases round_of_healthy fetchSize maxWaitMs hplan hdistinct hround hidle with ⟨error, hrun, hfails⟩ | ⟨next, first, hrun, hsummary, hnext⟩
    · rw [hrun]
      exact ⟨_, _, rfl, .inr ⟨error, rfl, round, List.mem_cons_self, hfails⟩,
        fun line h => absurd h List.not_mem_nil⟩
    · obtain ⟨ending, rest, hrest, hquiet, hall⟩ := ih
        (fun other hother => hhealthy other (List.mem_cons_of_mem round hother)) hnext
      rw [hrun]
      dsimp only
      rw [hrest]
      refine ⟨ending, first ++ rest, rfl, hquiet.imp_right ?_, fun line hline => ?_⟩
      · intro ⟨error, hending, other, hother, hfails⟩
        exact ⟨error, hending, other, List.mem_cons_of_mem round hother, hfails⟩
      · exact (List.mem_append.1 hline).elim (hsummary line) (hall line)

/-- **No false alarms.** -/
theorem no_false_alarm (compile : String → Except String (String → Bool)) (metadata : Metadata)
    (topicsInclude : String) (plan : ReplicaVerificationPlan)
    (hplan : buildReplicaVerificationPlan compile metadata topicsInclude = .ok plan)
    (hdistinct : ∀ filter, Distinct (plannedPartitions filter metadata))
    (offsets : AList fun _ : TopicPartitionKey => Int) (fetchSize maxWaitMs : Int)
    (rounds : List Round) (hhealthy : ∀ round ∈ rounds, ∃ logs, Healthy logs round) :
    ∃ ending lines, runReplicaVerificationLoop plan fetchSize maxWaitMs rounds
        (State.new plan offsets) = (ending, lines) ∧
      EndsQuietly plan rounds ending ∧ ∀ line ∈ lines, line.Summary := by
  obtain ⟨filter, -, hplanned⟩ := planned_of_build hplan
  exact run_of_healthy fetchSize maxWaitMs hplanned (hdistinct filter) hhealthy
    (idle_new hplanned (hdistinct filter) offsets)

/-! ## Two replicas of one partition -/

def sampleMetadata : Metadata where
  brokers := [⟨1, "a", 9092⟩, ⟨2, "b", 9092⟩]
  topics := [⟨"a", none, [⟨0, none, [1, 2]⟩]⟩]

/-- Brokers that hold one batch up to the offset 9, and answer for one partition at a time. -/
def sampleCluster (broker : Int) (request : FetchRequest) : FetchOutcome :=
  match request.topics with
  | [(topic, [asked])] =>
    .answered [(topic, [⟨asked.partition, if broker = 1 then 20 else 10,
      if asked.fetchOffset ≤ 9 then some sampleRecords else none⟩])]
  | _ => .unreachable

def sampleRound : Round where
  cluster := fun broker _ request => sampleCluster broker request
  brokers := .id _
  completion := .id _
  fetched := fun _ => .id _
  cache := .id _
  cursors := fun _ => .id _
  due := true

def sampleLogs : Logs := fun _ _ => [.ofLast 9 7]

/-- What a broker of the sample answers. -/
theorem sampleCluster_answered {broker : Int} {request : FetchRequest}
    {responses : List (String × List FetchedPartition)}
    (h : sampleCluster broker request = .answered responses) {key : TopicPartitionKey}
    {data : ReplicaPartitionData} (hmem : (key, data) ∈ answeredPartitions responses) :
    ∃ asked, request.topics = [(key.topic, [asked])] ∧ asked.partition = key.partition ∧
      data.records = if asked.fetchOffset ≤ 9 then sampleRecords else [] := by
  unfold sampleCluster at h
  split at h
  · rename_i topic asked htopics
    rw [FetchOutcome.answered.injEq] at h
    subst h
    simp only [answeredPartitions, List.flatMap_cons, List.flatMap_nil, List.map_cons, List.map_nil,
      List.append_nil, List.mem_singleton, Prod.mk.injEq] at hmem
    obtain ⟨rfl, rfl⟩ := hmem
    refine ⟨asked, htopics, rfl, ?_⟩
    by_cases hoffset : asked.fetchOffset ≤ 9
    · simp [hoffset]
    · simp [hoffset]
  · cases h

theorem reads_sample {offset : Int} {data : ReplicaPartitionData}
    (h : data.records = if offset ≤ 9 then sampleRecords else []) :
    Reads [.ofLast 9 7] offset data := by
  intro batches hparsed
  by_cases hoffset : offset ≤ 9
  · rw [h, if_pos hoffset] at hparsed
    obtain rfl := Except.ok.inj (parse_sampleRecords.symm.trans hparsed)
    have hlast : ¬ (ParsedBatch.ofLast 9 7).lastOffset < offset := not_lt.2 hoffset
    simp [since, hlast]
  · rw [h, if_neg hoffset] at hparsed
    obtain rfl := Except.ok.inj (parse_nil.symm.trans hparsed)
    exact List.nil_prefix

theorem healthy_sample : Healthy sampleLogs sampleRound where
  comparable _ _ _ := .inl (List.prefix_refl _)
  serves broker _ request responses hanswered topic partitions hlisted asked hasked data hdata := by
    obtain ⟨asked', htopics, -, hrecords⟩ := sampleCluster_answered hanswered hdata
    rw [htopics, List.mem_singleton] at hlisted
    obtain ⟨-, rfl⟩ := Prod.mk.inj hlisted
    rw [List.mem_singleton] at hasked
    subst hasked
    exact reads_sample hrecords
  asked broker _ request responses hanswered key data hdata := by
    obtain ⟨asked, htopics, hpartition, -⟩ := sampleCluster_answered hanswered hdata
    exact ⟨[asked], by rw [htopics]; exact List.mem_cons_self, asked, List.mem_cons_self, hpartition⟩
  readable broker _ request responses hanswered key data hdata := by
    obtain ⟨asked, -, -, hrecords⟩ := sampleCluster_answered hanswered hdata
    rw [hrecords]
    split_ifs
    · exact ⟨_, parse_sampleRecords⟩
    · exact ⟨_, parse_nil⟩

theorem distinct_sample (filter : String → Bool) :
    Distinct (plannedPartitions filter sampleMetadata) := by
  cases h : filter "a" with
  | true => constructor <;> simp [plannedPartitions, sampleMetadata, h]
  | false => constructor <;> simp [plannedPartitions, sampleMetadata, h]

/-- Both brokers are asked for one partition. -/
def samplePlan : ReplicaVerificationPlan :=
  (ReplicaVerificationPlan.mk (collect [(1, "a:9092"), (2, "b:9092")]) ∅ ∅ []).add ⟨"a", 0⟩ [1, 2]

theorem no_false_alarm_sample :
    ∃ ending lines, runReplicaVerificationLoop samplePlan 100 0 [sampleRound]
        (State.new samplePlan ∅) = (ending, lines) ∧
      EndsQuietly samplePlan [sampleRound] ending ∧ ∀ line ∈ lines, line.Summary :=
  no_false_alarm (fun _ => .ok fun _ => true) sampleMetadata "a" samplePlan rfl distinct_sample ∅
    100 0 [sampleRound] (List.forall_mem_singleton.2 ⟨sampleLogs, healthy_sample⟩)

end KafkaCli.Replica
