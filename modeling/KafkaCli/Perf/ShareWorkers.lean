import KafkaCli.Lib.Interleaving
import KafkaCli.Perf.ProducerStats
import Mathlib.Algebra.Order.BigOperators.Group.List
import Mathlib.Algebra.Order.Group.Nat

/-!
# The workers of the share consumer test

`share_consumer_perf_test` runs one worker for each thread. They count the records they get, each
for itself and all of them in one number, and a worker goes on while this number is below the
target and its last record is not too long ago. Others may count between the moment when a worker
reads the number and the moment when it counts what it polled.

**Theorem (`shareWorkers_total`).** In every order of their steps, the shared number is the sum of
what the workers have counted. It exceeds the target by less than a batch for each worker, and if
it stays below the target at the end, every worker has waited too long for a record.
-/

namespace KafkaCli.Perf

open Interleaving

/-! ## The algorithm -/

/-- A record, of which only the lengths matter. -/
structure ShareRecord where
  keyLength : Option ℕ
  valueLength : Option ℕ
  deriving DecidableEq, Repr

/-- `SharePerfStats`. -/
structure SharePerfStats where
  records : ℕ
  bytes : ℕ
  deriving DecidableEq, Repr

def SharePerfStats.add (stats : SharePerfStats) (record : ShareRecord) : SharePerfStats where
  records := saturatingAdd stats.records 1
  bytes := saturatingAdd stats.bytes (record.keyLength.getD 0 + record.valueLength.getD 0)

structure SharePerfWorkerOptions where
  target : ℕ
  timeoutMs : ℕ
  deriving DecidableEq, Repr

/-- Where a worker is. -/
inductive WorkerPhase
  /-- In front of the condition of its loop. -/
  | checking
  | polling
  /-- In the loop over the records that it polled. -/
  | counting (rest : List ShareRecord)
  /-- It has left the loop, for the shared number and the time that it read. -/
  | done (total now : ℕ)
  | failed (error : Error)
  deriving DecidableEq, Repr

structure Worker where
  phase : WorkerPhase
  stats : SharePerfStats
  /-- When it got its last record, in nanoseconds. -/
  lastRecord : ℕ
  deriving DecidableEq, Repr

/-- What a worker is given for its next step. -/
inductive WorkerInput
  | clock (now : ℕ)
  | polled (now : ℕ) (records : Result (List ShareRecord))

/-- One step of `consume_share_perf_records`. A step for which a worker is not given what it waits
for does nothing. -/
def workerStep (options : SharePerfWorkerOptions) (total : ℕ) (worker : Worker) :
    WorkerInput → ℕ × Worker
  | .clock now =>
    match worker.phase with
    | .checking =>
      if total < options.target ∧ now - worker.lastRecord ≤ options.timeoutMs * 10 ^ 6 then
        (total, { worker with phase := .polling })
      else (total, { worker with phase := .done total now })
    | .counting [] => (total, { worker with phase := .checking })
    | .counting (record :: rest) =>
      ((total + 1) % 2 ^ 64,
        { worker with phase := .counting rest, stats := worker.stats.add record })
    | .polling | .done _ _ | .failed _ => (total, worker)
  | .polled now records =>
    match worker.phase, records with
    | .polling, .ok records =>
      (total, { worker with
        phase := .counting records
        lastRecord := if records = [] then worker.lastRecord else now })
    | .polling, .error error => (total, { worker with phase := .failed error })
    | _, _ => (total, worker)

/-- A worker in front of its loop. -/
def Worker.start (now : ℕ) : Worker := ⟨.checking, ⟨0, 0⟩, now⟩

/-- The workers in front of their loops, for the times when they start. -/
def startWorkers (starts : List ℕ) : Pool ℕ Worker := ⟨0, starts.map .start⟩

/-- The sum over the workers that is printed. -/
def totalStats (stats : List SharePerfStats) : SharePerfStats :=
  stats.foldl (fun total item =>
    ⟨saturatingAdd total.records item.records, saturatingAdd total.bytes item.bytes⟩) ⟨0, 0⟩

/-- What the workers return, once all of them have. -/
def workerResults (pool : Pool ℕ Worker) : Option (List SharePerfStats) :=
  pool.machines.mapM fun worker =>
    match worker.phase with
    | .done _ _ => some worker.stats
    | _ => none

/-- The warning of `share_consumer_perf_test` is printed. -/
def warns (options : SharePerfWorkerOptions) (results : List SharePerfStats) : Bool :=
  (totalStats results).records < options.target

/-! ## The shared number -/

/-- A batch that is polled has no more records than this. -/
def WithinBatch (maxBatch : ℕ) : WorkerInput → Prop
  | .clock _ => True
  | .polled _ (.ok records) => records.length ≤ maxBatch
  | .polled _ (.error _) => True

/-- How many records a worker may count before it looks at the number again. -/
def Worker.pending (maxBatch : ℕ) (worker : Worker) : ℕ :=
  match worker.phase with
  | .polling => maxBatch
  | .counting rest => rest.length
  | _ => 0

/-- The worker has waited too long for a record. -/
def Worker.TimedOut (options : SharePerfWorkerOptions) (worker : Worker) (now : ℕ) : Prop :=
  options.timeoutMs * 10 ^ 6 < now - worker.lastRecord

/-- A worker that has left its loop has seen the target, or waited too long. -/
def Worker.Left (options : SharePerfWorkerOptions) (total : ℕ) (worker : Worker) : Prop :=
  ∀ seen now, worker.phase = .done seen now →
    seen ≤ total ∧ (options.target ≤ seen ∨ worker.TimedOut options now)

/-- What holds in every order. -/
structure Counted (options : SharePerfWorkerOptions) (maxBatch : ℕ) (pool : Pool ℕ Worker) :
    Prop where
  total : pool.shared = (pool.machines.map (·.stats.records)).sum
  pending : pool.shared + (pool.machines.map (Worker.pending maxBatch)).sum = 0 ∨
    pool.shared + (pool.machines.map (Worker.pending maxBatch)).sum <
      options.target + pool.machines.length * maxBatch
  batches : ∀ worker ∈ pool.machines, worker.pending maxBatch ≤ maxBatch
  left : ∀ worker ∈ pool.machines, worker.Left options pool.shared

section Counted

variable {options : SharePerfWorkerOptions} {maxBatch : ℕ} {pool : Pool ℕ Worker} {i : ℕ}
  {worker worker' : Worker}

theorem Worker.Left.mono {total total' : ℕ} (h : worker.Left options total)
    (hle : total ≤ total') : worker.Left options total' := by
  intro seen now hphase
  obtain ⟨hseen, hreason⟩ := h seen now hphase
  exact ⟨hseen.trans hle, hreason⟩

theorem left_of_not_done {total : ℕ} (h : ∀ seen now, worker.phase ≠ .done seen now) :
    worker.Left options total := fun seen now hphase => absurd hphase (h seen now)

theorem sum_pending_le {machines : List Worker}
    (h : ∀ worker ∈ machines, worker.pending maxBatch ≤ maxBatch) :
    (machines.map (Worker.pending maxBatch)).sum ≤ machines.length * maxBatch := by
  induction machines with
  | nil => simp
  | cons worker machines ih =>
    obtain ⟨hfirst, hrest⟩ := List.forall_mem_cons.1 h
    rw [List.map_cons, List.sum_cons, List.length_cons, Nat.succ_mul]
    have := ih hrest
    omega

/-- A step that counts nothing. -/
theorem Counted.set (h : Counted options maxBatch pool) (hget : pool.machines[i]? = some worker)
    (hstats : worker'.stats = worker.stats) (hbatch : worker'.pending maxBatch ≤ maxBatch)
    (hleft : worker'.Left options pool.shared)
    (hpending : worker'.pending maxBatch ≤ worker.pending maxBatch ∨
      pool.shared < options.target) :
    Counted options maxBatch ⟨pool.shared, pool.machines.set i worker'⟩ := by
  have hrecords := sum_set (·.stats.records) hget worker'
  have hsum := sum_set (Worker.pending maxBatch) hget worker'
  have hbatches := forall_set h.batches hbatch i
  refine ⟨?_, ?_, hbatches, forall_set h.left hleft i⟩
  · have htotal := h.total
    simp only [hstats] at hrecords
    dsimp only
    omega
  · have hbound := h.pending
    dsimp only
    rw [List.length_set]
    rcases hpending with hle | hlt
    · omega
    · have hall := sum_pending_le hbatches
      rw [List.length_set] at hall
      omega

/-- A step that counts a record. -/
theorem Counted.count (h : Counted options maxBatch pool)
    (hget : pool.machines[i]? = some worker) {record : ShareRecord} {rest : List ShareRecord}
    (hphase : worker.phase = .counting (record :: rest))
    (hfits : options.target + pool.machines.length * maxBatch < 2 ^ 64) :
    Counted options maxBatch ⟨(pool.shared + 1) % 2 ^ 64, pool.machines.set i
      { worker with phase := .counting rest, stats := worker.stats.add record }⟩ := by
  generalize hworker : ({ worker with
    phase := .counting rest, stats := worker.stats.add record } : Worker) = worker'
  have hold : worker.pending maxBatch = rest.length + 1 := by
    rw [Worker.pending, hphase]
    rfl
  have hnew : worker'.pending maxBatch = rest.length := by
    rw [← hworker]
    rfl
  have hmem := List.mem_of_getElem? hget
  have hbatch := h.batches worker hmem
  have hbatches : ∀ worker ∈ pool.machines.set i worker', worker.pending maxBatch ≤ maxBatch :=
    forall_set h.batches (by omega) i
  have hrecords := sum_set (·.stats.records) hget worker'
  have hsum := sum_set (Worker.pending maxBatch) hget worker'
  have hbound := h.pending
  have htotal := h.total
  have hfew : pool.shared + 1 < 2 ^ 64 := by omega
  have hwrap : (pool.shared + 1) % 2 ^ 64 = pool.shared + 1 := Nat.mod_eq_of_lt hfew
  have hcount : worker'.stats.records = worker.stats.records + 1 := by
    have hle : worker.stats.records ≤ (pool.machines.map (·.stats.records)).sum :=
      List.single_le_sum (fun _ _ => Nat.zero_le _) _ (List.mem_map_of_mem hmem)
    have hadd : worker'.stats.records = saturatingAdd worker.stats.records 1 := by rw [← hworker]; rfl
    rw [hadd, saturatingAdd_of_lt (by omega)]
  rw [hwrap]
  refine ⟨?_, ?_, hbatches, ?_⟩
  · dsimp only
    omega
  · dsimp only
    rw [List.length_set]
    omega
  · refine forall_set (fun other hother => (h.left other hother).mono (Nat.le_succ _)) ?_ i
    rw [← hworker]
    exact left_of_not_done fun _ _ h => by cases h

/-- **One step** keeps the number right. -/
theorem Counted.step (h : Counted options maxBatch pool) (hget : pool.machines[i]? = some worker)
    {input : WorkerInput} (hinput : WithinBatch maxBatch input)
    (hfits : options.target + pool.machines.length * maxBatch < 2 ^ 64) :
    Counted options maxBatch ⟨(workerStep options pool.shared worker input).1,
      pool.machines.set i (workerStep options pool.shared worker input).2⟩ := by
  have hmem := List.mem_of_getElem? hget
  have hbatch := h.batches worker hmem
  -- a worker that is not given what it waits for
  have hsame : Counted options maxBatch ⟨pool.shared, pool.machines.set i worker⟩ :=
    h.set hget rfl hbatch (h.left worker hmem) (.inl le_rfl)
  cases input with
  | clock now =>
    simp only [workerStep]
    cases hphase : worker.phase with
    | checking =>
      dsimp only
      split_ifs with hgo
      · exact h.set hget rfl le_rfl (left_of_not_done fun _ _ h => by cases h) (.inr hgo.1)
      · refine h.set hget rfl (Nat.zero_le _) ?_ (.inl (Nat.zero_le _))
        intro seen now' hdone
        obtain ⟨rfl, rfl⟩ := WorkerPhase.done.inj hdone
        refine ⟨le_rfl, ?_⟩
        rw [Worker.TimedOut]
        show _ ∨ options.timeoutMs * 10 ^ 6 < now - worker.lastRecord
        omega
    | polling => exact hsame
    | counting rest =>
      cases rest with
      | nil =>
        exact h.set hget rfl (Nat.zero_le _) (left_of_not_done fun _ _ h => by cases h)
          (.inl (Nat.zero_le _))
      | cons record rest => exact h.count hget hphase hfits
    | done seen now' => exact hsame
    | failed error => exact hsame
  | polled now records =>
    simp only [workerStep]
    cases hphase : worker.phase with
    | polling =>
      have hpending : worker.pending maxBatch = maxBatch := by rw [Worker.pending, hphase]
      cases records with
      | ok records =>
        refine h.set hget rfl hinput (left_of_not_done fun _ _ h => by cases h) (.inl ?_)
        rw [hpending]
        exact hinput
      | error error =>
        exact h.set hget rfl (Nat.zero_le _) (left_of_not_done fun _ _ h => by cases h)
          (.inl (Nat.zero_le _))
    | checking => exact hsame
    | counting rest => exact hsame
    | done seen now' => exact hsame
    | failed error => exact hsame

end Counted

theorem counted_start (options : SharePerfWorkerOptions) (maxBatch : ℕ) (starts : List ℕ) :
    Counted options maxBatch (startWorkers starts) where
  total := by simp [startWorkers, Worker.start, Function.comp_def]
  pending := by simp [startWorkers, Worker.start, Worker.pending, Function.comp_def]
  batches := by
    intro worker hmem
    obtain ⟨now, -, rfl⟩ := List.mem_map.1 hmem
    exact Nat.zero_le _
  left := by
    intro worker hmem
    obtain ⟨now, -, rfl⟩ := List.mem_map.1 hmem
    exact left_of_not_done fun _ _ h => by cases h

/-- What the workers return. -/
theorem workerResults_eq_some {pool : Pool ℕ Worker} {results : List SharePerfStats}
    (h : workerResults pool = some results) : results = pool.machines.map (·.stats) ∧
      ∀ worker ∈ pool.machines, ∃ seen now, worker.phase = .done seen now := by
  unfold workerResults at h
  generalize pool.machines = workers at h
  induction workers generalizing results with
  | nil =>
    obtain rfl := Option.some.inj h
    exact ⟨rfl, fun _ h => absurd h List.not_mem_nil⟩
  | cons worker workers ih =>
    rw [List.mapM_cons] at h
    cases hphase : worker.phase with
    | done seen now =>
      cases hrest : (workers.mapM fun worker : Worker => match worker.phase with
        | .done _ _ => some worker.stats
        | _ => none) with
      | none => simp [hphase, hrest] at h
      | some rest =>
        simp only [hphase, hrest, Option.bind_eq_bind, Option.bind_some, Option.pure_def,
          Option.some.injEq] at h
        subst h
        obtain ⟨hstats, hall⟩ := ih hrest
        exact ⟨by rw [hstats, List.map_cons], List.forall_mem_cons.2 ⟨⟨seen, now, hphase⟩, hall⟩⟩
    | checking => simp [hphase] at h
    | polling => simp [hphase] at h
    | counting rest => simp [hphase] at h
    | failed error => simp [hphase] at h

/-- The sum that is printed. -/
theorem totalStats_records (stats : List SharePerfStats)
    (h : (stats.map (·.records)).sum < 2 ^ 64) :
    (totalStats stats).records = (stats.map (·.records)).sum := by
  induction stats using List.reverseRecOn with
  | nil => rfl
  | append_singleton stats item ih =>
    rw [List.map_append, List.sum_append, List.map_singleton, List.sum_singleton] at h ⊢
    rw [totalStats, List.foldl_append]
    show saturatingAdd (totalStats stats).records item.records = _
    rw [ih (by omega), saturatingAdd_of_lt h]

/-- **The shared number.** -/
theorem shareWorkers_total (options : SharePerfWorkerOptions) (maxBatch : ℕ) (starts : List ℕ)
    (schedule : List (ℕ × WorkerInput)) (hbatches : ∀ turn ∈ schedule, WithinBatch maxBatch turn.2)
    (hfits : options.target + starts.length * maxBatch < 2 ^ 64) (pool : Pool ℕ Worker)
    (hrun : (startWorkers starts).run (workerStep options) schedule = pool) :
    pool.shared = (pool.machines.map (·.stats.records)).sum ∧
      (pool.shared = 0 ∨ pool.shared < options.target + starts.length * maxBatch) ∧
      ∀ results, workerResults pool = some results →
        (totalStats results).records = pool.shared ∧
        (warns options results = true → ∀ worker ∈ pool.machines,
          ∃ seen now, worker.phase = .done seen now ∧ worker.TimedOut options now) := by
  have hcounted : Counted options maxBatch pool ∧ pool.machines.length = starts.length := by
    rw [← hrun]
    refine run_keeps (I := fun pool => Counted options maxBatch pool ∧
      pool.machines.length = starts.length) ?_
      ⟨counted_start options maxBatch starts, List.length_map ..⟩ hbatches
    intro pool i worker input h hget hinput
    obtain ⟨hcounted, hthreads⟩ := h
    exact ⟨hcounted.step hget hinput (hthreads ▸ hfits), (List.length_set ..).trans hthreads⟩
  obtain ⟨hcounted, hthreads⟩ := hcounted
  have hbound : pool.shared = 0 ∨ pool.shared < options.target + starts.length * maxBatch := by
    have hpending := hcounted.pending
    rw [hthreads] at hpending
    omega
  refine ⟨hcounted.total, hbound, fun results hresults => ?_⟩
  obtain ⟨rfl, hdone⟩ := workerResults_eq_some hresults
  have htotal : (totalStats (pool.machines.map (·.stats))).records = pool.shared := by
    have hsum : ((pool.machines.map (·.stats)).map (·.records)).sum = pool.shared := by
      rw [hcounted.total, List.map_map]
      rfl
    rw [totalStats_records _ (by omega), hsum]
  refine ⟨htotal, fun hwarns worker hmem => ?_⟩
  rw [warns, decide_eq_true_eq, htotal] at hwarns
  obtain ⟨seen, now, hphase⟩ := hdone worker hmem
  obtain ⟨hseen, hreason⟩ := hcounted.left worker hmem seen now hphase
  exact ⟨seen, now, hphase, hreason.resolve_left (by omega)⟩

/-- Two workers, of which both have polled when the first one counts. -/
theorem shareWorkers_total_sample :
    ∃ pool, (startWorkers [0, 0]).run (workerStep ⟨1, 5⟩)
        [(0, .clock 1), (1, .clock 1), (0, .polled 2 (.ok [⟨none, some 3⟩])),
          (1, .polled 2 (.ok [⟨some 1, some 4⟩])), (0, .clock 3), (1, .clock 3), (0, .clock 3),
          (1, .clock 3), (0, .clock 4), (1, .clock 4)] = pool ∧
      workerResults pool = some [⟨1, 3⟩, ⟨1, 5⟩] ∧
      (totalStats [⟨1, 3⟩, ⟨1, 5⟩]).records = pool.shared ∧
      (pool.shared = 0 ∨ pool.shared < 1 + 2 * 1) := by
  refine ⟨_, rfl, by decide, ?_⟩
  obtain ⟨-, hbound, hresults⟩ := shareWorkers_total ⟨1, 5⟩ 1 [0, 0]
    [(0, .clock 1), (1, .clock 1), (0, .polled 2 (.ok [⟨none, some 3⟩])),
      (1, .polled 2 (.ok [⟨some 1, some 4⟩])), (0, .clock 3), (1, .clock 3), (0, .clock 3),
      (1, .clock 3), (0, .clock 4), (1, .clock 4)] (by simp [WithinBatch]) (by decide) _ rfl
  exact ⟨(hresults [⟨1, 3⟩, ⟨1, 5⟩] (by decide)).1, hbound⟩

end KafkaCli.Perf
