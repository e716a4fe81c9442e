import KafkaCli.Replica.NoFalseAlarm

/-!
# What a run has verified

The replicas of a partition keep logs of batches, to which batches are appended while the tool
runs. A broker answers with the first few batches of its log from the offset on that it is asked
for.

**Theorem (`replicaVerification_agrees`).** When a run is interrupted, without having failed, the
logs of any two replicas of a verified partition hold batches with the same last offsets from where
the tool started up to its fetch offset, and wherever two checksums differ, a line at this offset
has been printed.

One round moves the fetch offset behind the last row of its answers (`Verified.round`); what was
compared before stays compared, since logs only grow.
-/

namespace KafkaCli.Replica

open Checked GrowingLog

/-! ## Logs that grow -/

/-- Last offsets increase, and there is one after each of them. -/
def LogSound (log : List ParsedBatch) : Prop :=
  Increasing ParsedBatch.lastOffset log ∧ ∀ batch ∈ log, Fits64 (batch.lastOffset + 1)

/-- Batches have been appended. -/
def Grown (before after : Logs) : Prop := ∀ key replica, before key replica <+: after key replica

/-- The rounds of a run, with the logs in front of them and at the end. -/
inductive ServedRun : Logs → List Round → Logs → Prop
  | interrupted {before after : Logs} (h : Grown before after) : ServedRun before [] after
  | round {before during after : Logs} {round : Round} {rounds : List Round}
      (hgrown : Grown before during) (hserves : Serves during round)
      (hrest : ServedRun during rounds after) : ServedRun before (round :: rounds) after

theorem ServedRun.grown {before after : Logs} {rounds : List Round}
    (h : ServedRun before rounds after) : Grown before after := by
  induction h with
  | interrupted h => exact h
  | round hgrown _ _ ih => exact fun key replica => (hgrown key replica).trans (ih key replica)

theorem LogSound.of_initial {log log' : List ParsedBatch} (h : LogSound log')
    (hinitial : log <+: log') : LogSound log :=
  ⟨h.1.of_initial hinitial, fun batch hbatch => h.2 batch (hinitial.subset hbatch)⟩

/-! ## What has been compared -/

/-- Two batches end at one offset, and a difference of their checksums has been printed. -/
def Compared (key : TopicPartitionKey) (lines : List ChecksumLine) (a b : ParsedBatch) : Prop :=
  a.lastOffset = b.lastOffset ∧ (a.checksum ≠ b.checksum →
    ∃ x cx y cy, cx ≠ cy ∧ .ofPartition (.unmatchedChecksum key a.lastOffset x cx y cy) ∈ lines)

/-- The logs of some replicas agree from one offset up to another. -/
def AgreeUpTo (logs : Logs) (key : TopicPartitionKey) (replicas : List Int) (lines : List ChecksumLine)
    (start offset : Int) : Prop :=
  ∀ r ∈ replicas, ∀ s ∈ replicas, List.Forall₂ (Compared key lines)
    (segment ParsedBatch.lastOffset (logs key r) start offset)
    (segment ParsedBatch.lastOffset (logs key s) start offset)

/-- The replicas of a partition have been verified up to an offset. -/
structure Verified (logs : Logs) (key : TopicPartitionKey) (replicas : List Int)
    (lines : List ChecksumLine) (start offset : Int) : Prop where
  start_le : start ≤ offset
  reached : offset = start ∨
    ∀ r ∈ replicas, ∃ batch ∈ logs key r, batch.lastOffset + 1 = offset
  agree : AgreeUpTo logs key replicas lines start offset

section Verified

variable {logs logs' : Logs} {key : TopicPartitionKey} {replicas : List Int}
  {lines lines' : List ChecksumLine} {start offset : Int}

/-- In front of the first round. -/
theorem verified_start (logs : Logs) (key : TopicPartitionKey) (replicas : List Int)
    (start : Int) : Verified logs key replicas [] start start := by
  refine ⟨le_rfl, .inl rfl, fun r _ s _ => ?_⟩
  rw [segment_self, segment_self]
  exact .nil

theorem Compared.mono {a b : ParsedBatch} (h : Compared key lines a b) (hsubset : lines ⊆ lines') :
    Compared key lines' a b := by
  refine ⟨h.1, fun hne => ?_⟩
  obtain ⟨x, cx, y, cy, hchecksums, hmem⟩ := h.2 hne
  exact ⟨x, cx, y, cy, hchecksums, hsubset hmem⟩

/-- Lines that are printed later change nothing. -/
theorem Verified.mono (h : Verified logs key replicas lines start offset)
    (hsubset : lines ⊆ lines') : Verified logs key replicas lines' start offset :=
  ⟨h.start_le, h.reached, fun r hr s hs => (h.agree r hr s hs).imp fun _ _ hab =>
    hab.mono hsubset⟩

/-- Neither do batches that are appended. -/
theorem Verified.grow (h : Verified logs key replicas lines start offset)
    (hgrown : Grown logs logs') (hsound : ∀ r ∈ replicas, LogSound (logs' key r)) :
    Verified logs' key replicas lines start offset := by
  have hsame : ∀ r ∈ replicas, segment ParsedBatch.lastOffset (logs' key r) start offset =
      segment ParsedBatch.lastOffset (logs key r) start offset := by
    intro r hr
    refine segment_of_initial (hsound r hr).1 (hgrown key r) (h.reached.imp le_of_eq fun hall => ?_)
    obtain ⟨batch, hmem, hlast⟩ := hall r hr
    exact ⟨batch, hmem, hlast.ge⟩
  refine ⟨h.start_le, h.reached.imp_right fun hall r hr => ?_, fun r hr s hs => ?_⟩
  · obtain ⟨batch, hmem, hlast⟩ := hall r hr
    exact ⟨batch, (hgrown key r).subset hmem, hlast⟩
  · rw [hsame r hr, hsame s hs]
    exact h.agree r hr s hs

/-- The batches of a replica in the rows up to one of them. -/
theorem exists_batch_of_rowAt {responses : FetchResponse} {replica : Int} {i : Nat} {last : Int}
    {data : ReplicaPartitionData} {log : List ParsedBatch}
    (hdata : responses.lookup replica = some data) (hreads : Reads log offset data)
    (hrow : RowAt responses i last) : ∃ batches batch,
      parseRecordBatches data.records = .ok batches ∧ batches[i]? = some batch ∧
        batch.lastOffset = last ∧ (since ParsedBatch.lastOffset log offset)[i]? = some batch := by
  obtain ⟨batches, batch, hok, hget, hlast, -⟩ := hrow ⟨replica, data⟩ (AList.mem_lookup_iff.1 hdata)
  refine ⟨batches, batch, hok, hget, hlast, ?_⟩
  obtain ⟨rest, hrest⟩ := hreads batches hok
  rw [← hrest, List.getElem?_append_left (List.getElem?_eq_some_iff.1 hget).1, hget]

/-- Two replicas in the rows up to one of them. -/
theorem forall₂_compared (key : TopicPartitionKey) {responses : FetchResponse} {r s : Int} {j : Nat} {last : Int}
    {rData sData : ReplicaPartitionData} {rLog sLog : List ParsedBatch}
    {checkLines : List ReportLine} (hr : responses.lookup r = some rData)
    (hrReads : Reads rLog offset rData) (hs : responses.lookup s = some sData)
    (hsReads : Reads sLog offset sData) (hfull : ∀ i ≤ j, FullRow responses i)
    (hlast : RowAt responses j last) (hreported : RowsReported key responses checkLines)
    (hlines : ∀ line ∈ checkLines, .ofPartition line ∈ lines) :
    List.Forall₂ (Compared key lines) ((since ParsedBatch.lastOffset rLog offset).take (j + 1))
      ((since ParsedBatch.lastOffset sLog offset).take (j + 1)) := by
  obtain ⟨_, _, _, _, _, hrj⟩ := exists_batch_of_rowAt hr hrReads hlast
  obtain ⟨_, _, _, _, _, hsj⟩ := exists_batch_of_rowAt hs hsReads hlast
  have hrlt := (List.getElem?_eq_some_iff.1 hrj).1
  have hslt := (List.getElem?_eq_some_iff.1 hsj).1
  rw [List.forall₂_iff_get]
  refine ⟨by rw [List.length_take, List.length_take]; omega, fun i hi hi' => ?_⟩
  have hij : i ≤ j := by
    rw [List.length_take] at hi
    omega
  obtain ⟨-, rowLast, hrow⟩ := hfull i hij
  obtain ⟨rBatches, rBatch, hrok, hrget, hrlast, hrsince⟩ := exists_batch_of_rowAt hr hrReads hrow
  obtain ⟨sBatches, sBatch, hsok, hsget, hslast, hssince⟩ := exists_batch_of_rowAt hs hsReads hrow
  rw [List.get_eq_getElem, List.get_eq_getElem, List.getElem_take, List.getElem_take,
    (List.getElem?_eq_some_iff.1 hrsince).2, (List.getElem?_eq_some_iff.1 hssince).2]
  refine ⟨hrlast.trans hslast.symm, fun hne => ?_⟩
  obtain ⟨x, cx, y, cy, hchecksums, hmem⟩ := hreported i rowLast
    (fun k hk => hfull k (hk.trans hij)) hrow ⟨⟨r, rData⟩, AList.mem_lookup_iff.1 hr, ⟨s, sData⟩,
      AList.mem_lookup_iff.1 hs, rBatches, rBatch, sBatches, sBatch, hrok, hrget, hsok, hsget, hne⟩
  exact ⟨x, cx, y, cy, hchecksums, hrlast ▸ hlines _ hmem⟩

/-- **One round.** The fetch offset moves behind the last row of the answers. -/
theorem Verified.round {responses : FetchResponse} {moved : Option Int}
    {checkLines : List ReportLine} (h : Verified logs key replicas lines start offset)
    (hne : replicas ≠ []) (hsound : ∀ r ∈ replicas, LogSound (logs key r))
    (hreads : ∀ r ∈ replicas, ∃ data, responses.lookup r = some data ∧
      Reads (logs key r) offset data)
    (hmoves : MovesTo responses moved) (hreported : RowsReported key responses checkLines)
    (hlines : ∀ line ∈ checkLines, .ofPartition line ∈ lines) :
    Verified logs key replicas lines start (moved.getD offset) := by
  cases moved with
  | none => exact h
  | some next =>
    obtain ⟨j, last, hfull, -, hlast, rfl⟩ := hmoves
    -- every replica has a batch that ends the last row
    have hreached : ∀ r ∈ replicas, ∃ batch,
        (since ParsedBatch.lastOffset (logs key r) offset)[j]? = some batch ∧
          batch.lastOffset = last ∧ batch ∈ logs key r ∧ offset ≤ last := by
      intro r hr
      obtain ⟨data, hdata, hread⟩ := hreads r hr
      obtain ⟨_, batch, _, _, rfl, hget⟩ := exists_batch_of_rowAt hdata hread hlast
      obtain ⟨hmem, hle⟩ := (mem_since (hsound r hr).1).1 (List.mem_of_getElem? hget)
      exact ⟨batch, hget, rfl, hmem, hle⟩
    have hbounds : offset ≤ last ∧ wrap64 (last + 1) = last + 1 := by
      obtain ⟨r, hr⟩ := List.exists_mem_of_ne_nil _ hne
      obtain ⟨batch, -, rfl, hmem, hle⟩ := hreached r hr
      exact ⟨hle, wrap64_of_fits ((hsound r hr).2 batch hmem)⟩
    rw [Option.getD_some, hbounds.2]
    refine ⟨h.start_le.trans (hbounds.1.trans (Int.lt_succ last).le), .inr fun r hr => ?_,
      fun r hr s hs => ?_⟩
    · obtain ⟨batch, -, hbatch, hmem, -⟩ := hreached r hr
      exact ⟨batch, hmem, by rw [hbatch]⟩
    · obtain ⟨rData, hrData, hrReads⟩ := hreads r hr
      obtain ⟨sData, hsData, hsReads⟩ := hreads s hs
      obtain ⟨rBatch, hrGet, hrLast, -⟩ := hreached r hr
      obtain ⟨sBatch, hsGet, hsLast, -⟩ := hreached s hs
      have hnew := forall₂_compared key hrData hrReads hsData hsReads hfull hlast hreported
        hlines
      have hstep := forall₂_segment_step (hsound r hr).1 (hsound s hs).1 h.start_le
        (h.agree r hr s hs) hrGet hsGet (hrLast.trans hsLast.symm) hnew
      rwa [hrLast] at hstep

end Verified

/-! ## A run -/

section Run

variable {plan : ReplicaVerificationPlan} {fetchSize maxWaitMs : Int} {round : Round}
  {partitions : List (TopicPartitionKey × List Int)} {logs : Logs}
  {key : TopicPartitionKey} {replicas : List Int} {replica : Int}

/-- A replica of a verified partition has returned something of its log. -/
theorem RoundDone.exists_response {before after filled : State} {lines : List ChecksumLine}
    {results : List (Int × Fetched)}
    (h : RoundDone plan fetchSize maxWaitMs round before after lines results filled)
    (hplan : Planned partitions plan) (hserves : Serves logs round)
    (hmem : (key, replicas) ∈ partitions) (hreplica : replica ∈ replicas) :
    ∃ data, filled.buffer.response key replica = some data ∧
      Reads (logs key replica) (before.buffer.offset key) data := by
  have hperm := brokers_perm h.fetched
  have hbroker : replica ∈ results.map Prod.fst := by
    rw [hperm.mem_iff]
    exact AList.lookup_isSome.1 ((hplan.brokers replica).2 ⟨_, hmem, hreplica⟩)
  obtain ⟨⟨broker, fetched⟩, hresult, rfl⟩ := List.mem_map.1 hbroker
  obtain ⟨address, hfetched⟩ := exists_fetched h.fetched hresult
  obtain ⟨hall, hdata⟩ := fetchReplicaPartitions_eq_ok hfetched
  have hasked : key ∈ plan.asked broker := hplan.mem_asked.2 ⟨replicas, hmem, hreplica⟩
  obtain ⟨data, hlookup⟩ := Option.isSome_iff_exists.1 (hall key hasked)
  refine ⟨data, h.fills.of_fetched (hperm.nodup_iff.2 plan.brokerPartitions.nodupKeys) hresult
    hlookup, ?_⟩
  rcases hdata key data hlookup with ⟨-, rfl⟩ | ⟨responses, hanswered, hanswer⟩
  · exact reads_noData _ _
  · obtain ⟨listed, hlisted, hrequest⟩ := mem_fetchRequest.2 ⟨key, hasked, rfl, rfl⟩
    exact hserves _ _ _ _ hanswered _ _ hlisted _ hrequest data hanswer

/-- What holds between two rounds. -/
structure RunInvariant (partitions : List (TopicPartitionKey × List Int)) (logs : Logs)
    (lines : List ChecksumLine) (start : TopicPartitionKey → Int) (state : State) : Prop where
  visits : Visits state.buffer state.cached
  verified : ∀ key replicas, (key, replicas) ∈ partitions →
    Verified logs key replicas lines (start key) (state.buffer.offset key)

theorem RunInvariant.step {before after : State} {lines roundLines : List ChecksumLine}
    {start : TopicPartitionKey → Int} {logs' : Logs}
    (h : RunInvariant partitions logs lines start before) (hplan : Planned partitions plan)
    (hne : ∀ planned ∈ partitions, planned.2 ≠ [])
    (hgrown : Grown logs logs') (hsound : ∀ key replica, LogSound (logs' key replica))
    (hserves : Serves logs' round)
    (hrun : replicaVerificationRound plan fetchSize maxWaitMs round before =
      (.ok after, roundLines)) :
    RunInvariant partitions logs' (lines ++ roundLines) start after := by
  obtain ⟨results, filled, hdone⟩ := replicaVerificationRound_inv h.visits hrun
  refine ⟨hdone.visits, fun key replicas hmem => ?_⟩
  obtain ⟨checkLines, hchecks, hlines⟩ := hdone.checked
  have hresponse := fun r (hr : r ∈ replicas) => hdone.exists_response hplan hserves hmem hr
  -- the partition is in the cache
  obtain ⟨r, hr⟩ := List.exists_mem_of_ne_nil _ (hne _ hmem)
  obtain ⟨responses, hcache⟩ : ∃ responses, filled.buffer.recordsCache key = some responses := by
    obtain ⟨data, hdata, -⟩ := hresponse r hr
    cases hcache : filled.buffer.recordsCache key with
    | none => simp [ReplicaBuffer.response, hcache] at hdata
    | some responses => exact ⟨responses, rfl⟩
  have hkey : key ∈ round.cache.toFun filled.cached := by
    rw [(round.cache.perm _).mem_iff, (hdone.fills.visits h.visits).mem_iff, hcache]
    rfl
  obtain ⟨moved, hmoves, hoffset, -, hreported⟩ := hchecks.partition key hkey responses hcache
  have hbefore : filled.buffer.offset key = before.buffer.offset key := by
    rw [ReplicaBuffer.offset, hdone.fills.offsets]
    rfl
  rw [hoffset, hbefore]
  have hgrow := ((h.verified key replicas hmem).grow hgrown fun r _ => hsound key r).mono
    (List.subset_append_left lines roundLines)
  refine hgrow.round (hne _ hmem) (fun r _ => hsound key r) (fun r hr => ?_) hmoves hreported
    fun line hline => List.mem_append_right lines (hlines line hline)
  obtain ⟨data, hdata, hreads⟩ := hresponse r hr
  rw [ReplicaBuffer.response, hcache] at hdata
  exact ⟨data, hdata, hreads⟩

/-- A run that is interrupted keeps the invariant. -/
theorem RunInvariant.run {rounds : List Round} {before after : State}
    {lines runLines : List ChecksumLine} {start : TopicPartitionKey → Int} {logs' : Logs}
    (h : RunInvariant partitions logs lines start before) (hplan : Planned partitions plan)
    (hne : ∀ planned ∈ partitions, planned.2 ≠ []) (hserved : ServedRun logs rounds logs')
    (hsound : ∀ key replica, LogSound (logs' key replica))
    (hrun : runReplicaVerificationLoop plan fetchSize maxWaitMs rounds before =
      (.ok after, runLines)) :
    RunInvariant partitions logs' (lines ++ runLines) start after := by
  induction hserved generalizing before lines runLines with
  | @interrupted logs logs' hgrown =>
    simp only [runReplicaVerificationLoop, Prod.mk.injEq, Ending.ok.injEq] at hrun
    obtain ⟨rfl, rfl⟩ := hrun
    rw [List.append_nil]
    exact ⟨h.visits, fun key replicas hmem =>
      (h.verified key replicas hmem).grow hgrown fun r _ => hsound key r⟩
  | @round logs during logs' round rounds hgrown hserves hrest ih =>
    rw [runReplicaVerificationLoop] at hrun
    cases hfirst : replicaVerificationRound plan fetchSize maxWaitMs round before with
    | mk ending first =>
    cases ending with
    | err error => simp [hfirst] at hrun
    | exited code => simp [hfirst] at hrun
    | ok next =>
      rw [hfirst] at hrun
      dsimp only at hrun
      obtain ⟨hending, hlines⟩ := Prod.mk.inj hrun
      have hnext := h.step hplan hne hgrown
        (fun key replica => (hsound key replica).of_initial (hrest.grown key replica)) hserves hfirst
      have hall := ih hnext hsound (Prod.ext hending rfl)
      rwa [List.append_assoc, hlines] at hall

end Run

/-! ## The tool -/

/-- The offset at which the verification of a partition starts. -/
def StartsAt (source : OffsetSource) (partitions : List TopicPartitionKey) (time : Int)
    (key : TopicPartitionKey) (start : Int) : Prop :=
  (time = -1 ∧ ∃ low, source.fetchWatermarks key = .ok (low, start)) ∨
    (time = -2 ∧ ∃ high, source.fetchWatermarks key = .ok (start, high)) ∨
    (0 ≤ time ∧ ∃ resolved, source.offsetsForTimes (partitions.map fun key => (key, time)) =
      .ok resolved ∧ resolved key = some (.offset start))

theorem collectOffsets_eq_ok {offsetOf : TopicPartitionKey → Result Int}
    {partitions : List TopicPartitionKey} {offsets : AList fun _ : TopicPartitionKey => Int}
    (h : collectOffsets offsetOf partitions = .ok offsets) {key : TopicPartitionKey}
    (hkey : key ∈ partitions) :
    ∃ start, offsetOf key = .ok start ∧ offsets.lookup key = some start := by
  induction partitions using List.reverseRecOn generalizing offsets with
  | nil => cases hkey
  | append_singleton partitions last ih =>
    rw [collectOffsets, List.foldlM_append, bind_eq_ok] at h
    obtain ⟨before, hbefore, hlast⟩ := h
    simp only [List.foldlM_cons, List.foldlM_nil, bind_eq_ok, pure_eq_ok] at hlast
    obtain ⟨_, ⟨start, hstart, rfl⟩, rfl⟩ := hlast
    by_cases heq : key = last
    · subst heq
      exact ⟨start, hstart, AList.lookup_insert _⟩
    · have hmem : key ∈ partitions := by simpa [heq] using hkey
      obtain ⟨start', hstart', hlookup⟩ := ih hbefore hmem
      exact ⟨start', hstart', by rw [AList.lookup_insert_ne heq, hlookup]⟩

theorem replicaInitialOffsets_eq_ok {source : OffsetSource}
    {partitions : List TopicPartitionKey} {time : Int}
    {offsets : AList fun _ : TopicPartitionKey => Int}
    (h : replicaInitialOffsets source partitions time = .ok offsets) {key : TopicPartitionKey}
    (hkey : key ∈ partitions) :
    ∃ start, StartsAt source partitions time key start ∧ offsets.lookup key = some start := by
  unfold replicaInitialOffsets at h
  split_ifs at h with hlatest hearliest htime
  · obtain ⟨start, hstart, hlookup⟩ := collectOffsets_eq_ok h hkey
    simp only [bind_eq_ok, pure_eq_ok] at hstart
    obtain ⟨⟨low, high⟩, hmarks, rfl⟩ := hstart
    exact ⟨_, .inl ⟨hlatest, low, hmarks⟩, hlookup⟩
  · obtain ⟨start, hstart, hlookup⟩ := collectOffsets_eq_ok h hkey
    simp only [bind_eq_ok, pure_eq_ok] at hstart
    obtain ⟨⟨low, high⟩, hmarks, rfl⟩ := hstart
    exact ⟨_, .inr (.inl ⟨hearliest, high, hmarks⟩), hlookup⟩
  · rw [bind_eq_ok] at h
    obtain ⟨resolved, hresolved, h⟩ := h
    obtain ⟨start, hstart, hlookup⟩ := collectOffsets_eq_ok h hkey
    refine ⟨start, .inr (.inr ⟨htime, resolved, hresolved, ?_⟩), hlookup⟩
    unfold resolvedOffset at hstart
    split at hstart
    · cases hstart
    · rename_i value hvalue
      rw [← Except.ok.inj hstart, hvalue]
    · cases hstart
    · cases hstart

/-- **What a run has verified.** -/
theorem replicaVerification_agrees (compile : String → Except String (String → Bool))
    (source : OffsetSource) (metadata : Metadata) (bootstrap : String)
    (args : ReplicaVerificationArgs) (rounds : List Round) (before after : Logs)
    (hserved : ServedRun before rounds after)
    (hsound : ∀ key replica, LogSound (after key replica)) (state : State)
    (lines : List ChecksumLine)
    (hrun : replicaVerification compile source metadata bootstrap args rounds =
      (.ok state, lines)) :
    ∃ filter, compile args.topicsInclude = .ok filter ∧
      ∀ key replicas, (key, replicas) ∈ plannedPartitions filter metadata →
        ∃ start, StartsAt source ((plannedPartitions filter metadata).map Prod.fst) args.time
            key start ∧
          start ≤ state.buffer.offset key ∧
          AgreeUpTo after key replicas lines start (state.buffer.offset key) := by
  unfold replicaVerification at hrun
  dsimp only at hrun
  split at hrun
  · cases hrun
  · rename_i plan first hprepared
    simp only [bind_eq_ok, pure_eq_ok, Prod.mk.injEq] at hprepared
    obtain ⟨-, -, plan', hplan, offsets, hoffsets, rfl, rfl⟩ := hprepared
    obtain ⟨filter, hfilter, hplanned⟩ := planned_of_build hplan
    rw [hplanned.keys] at hoffsets
    have hstart : RunInvariant (plannedPartitions filter metadata) before []
        (State.new plan' offsets).buffer.offset (State.new plan' offsets) :=
      ⟨visits_new plan' offsets, fun key replicas _ => verified_start _ _ _ _⟩
    have hend := hstart.run hplanned (fun planned hmem => ne_nil_of_planned hmem) hserved hsound hrun
    refine ⟨filter, hfilter, fun key replicas hmem => ?_⟩
    obtain ⟨start, hstarts, hlookup⟩ :=
      replicaInitialOffsets_eq_ok hoffsets (List.mem_map_of_mem hmem)
    have hoffset : (State.new plan' offsets).buffer.offset key = start := by
      show (offsets.lookup key).getD 0 = start
      rw [hlookup]
      rfl
    have hverified := hend.verified key replicas hmem
    rw [hoffset, List.nil_append] at hverified
    exact ⟨start, hstarts, hverified.start_le, hverified.agree⟩

def sampleArgs : ReplicaVerificationArgs := ⟨100, 0, "a", -1, 0⟩

/-- The partition begins at 0, and its high watermark is 4. -/
def sampleSource : OffsetSource where
  fetchWatermarks := fun _ => .ok (0, 4)
  offsetsForTimes := fun _ => .ok fun _ => none

theorem replicaVerification_sample : ∃ state lines,
    replicaVerification (fun _ => .ok fun _ => true) sampleSource sampleMetadata "a:9092" sampleArgs
      [sampleRound] = (.ok state, lines) := by
  have hbuild : buildReplicaVerificationPlan (fun _ => .ok fun _ => true) sampleMetadata "a" =
      .ok samplePlan := rfl
  obtain ⟨filter, -, hplanned⟩ := planned_of_build hbuild
  obtain ⟨ending, lines, hrun, hquiet, -⟩ := run_of_healthy 100 0 hplanned (distinct_sample filter)
    (List.forall_mem_singleton.2 ⟨sampleLogs, healthy_sample⟩)
    (idle_new hplanned (distinct_sample filter) (collect [(⟨"a", 0⟩, 4)]))
  rcases hquiet with ⟨state, rfl⟩ | ⟨error, -, round, hround, hfails⟩
  · exact ⟨state, lines, hrun⟩
  · rw [List.mem_singleton] at hround
    subst hround
    rcases hfails with ⟨broker, address, request, hfailed⟩ | ⟨broker, hasked, hbroker, -⟩
    · simp only [sampleRound, sampleCluster] at hfailed
      split at hfailed
      · cases hfailed
      · cases hfailed
    · have hkeys : broker ∈ samplePlan.brokerPartitions := AList.lookup_isSome.1 hasked
      have hlisted : ∀ broker ∈ samplePlan.brokerPartitions.keys,
          (samplePlan.brokers.lookup broker).isSome := by decide
      have hsome := hlisted broker hkeys
      rw [hbroker] at hsome
      cases hsome

/-- With a filter that takes every topic. -/
theorem replicaVerification_agrees_sample : ∃ state lines,
    replicaVerification (fun _ => .ok fun _ => true) sampleSource sampleMetadata "a:9092" sampleArgs
      [sampleRound] = (.ok state, lines) ∧
    ∀ key replicas, (key, replicas) ∈ plannedPartitions (fun _ => true) sampleMetadata →
      ∃ start, StartsAt sampleSource
          ((plannedPartitions (fun _ => true) sampleMetadata).map Prod.fst) (-1) key start ∧
        start ≤ state.buffer.offset key ∧
        AgreeUpTo sampleLogs key replicas lines start (state.buffer.offset key) := by
  obtain ⟨state, lines, hrun⟩ := replicaVerification_sample
  have hsound : ∀ key replica, LogSound (sampleLogs key replica) := fun _ _ =>
    ⟨List.pairwise_singleton _ _, List.forall_mem_singleton.2 ⟨by decide, by decide⟩⟩
  have hgrown : Grown sampleLogs sampleLogs := fun _ _ => List.prefix_refl _
  obtain ⟨filter, hfilter, hagree⟩ := replicaVerification_agrees (fun _ => .ok fun _ => true)
    sampleSource sampleMetadata "a:9092" sampleArgs [sampleRound] sampleLogs sampleLogs
    (.round hgrown healthy_sample.serves (.interrupted hgrown)) hsound state lines hrun
  obtain rfl := Except.ok.inj hfilter
  exact ⟨state, lines, hrun, hagree⟩

end KafkaCli.Replica
