import KafkaCli.Error
import Mathlib.Algebra.BigOperators.Group.List.Basic
import Mathlib.Algebra.Order.Ring.Nat
import Mathlib.Data.List.GetD
import Mathlib.Data.List.Induction
import Mathlib.Data.List.Sort

/-!
# The statistics of the producer test

`ProducerPerfStats` counts the records that were delivered, altogether and since the last report.
A report is due when a record comes after the reporting interval, and starts a new window.
Counters of 64 bits stop at their bound. Times are nanoseconds here, and a line has the numbers
that it prints, or computes its rates from.

* `Accounts` — what the counters are after some records: the windows cut the records into blocks
  (`accounts_record`).
* `percentile_rank` — how many samples lie on either side of a percentile.
-/

namespace KafkaCli.Perf

/-- `u64::saturating_add`. -/
def saturatingAdd (a b : ℕ) : ℕ := min (a + b) (2 ^ 64 - 1)

theorem saturatingAdd_of_lt {a b : ℕ} (h : a + b < 2 ^ 64) : saturatingAdd a b = a + b :=
  Nat.min_eq_left (Nat.le_sub_one_of_lt h)

/-- What a line of output says. -/
inductive PerfLine
  | inSteadyState
  | window (count bytes totalLatencyMs maxLatencyMs elapsedMs : ℕ)
  | total (steadyState : Bool) (count bytes totalLatencyMs maxLatencyMs elapsedMs : ℕ)
      (percentiles : List ℕ)
  deriving DecidableEq, Repr

structure ProducerPerfStats where
  started : ℕ
  windowStarted : ℕ
  reportingInterval : ℕ
  sampling : ℕ
  latencies : List ℕ
  count : ℕ
  bytes : ℕ
  totalLatencyMs : ℕ
  maxLatencyMs : ℕ
  windowCount : ℕ
  windowBytes : ℕ
  windowTotalLatencyMs : ℕ
  windowMaxLatencyMs : ℕ
  suppressPrinting : Bool
  steadyState : Bool
  deriving DecidableEq, Repr

def millisAtLeastOne (duration : ℕ) : ℕ := max (duration / 10 ^ 6) 1

namespace ProducerPerfStats

def new (now numRecords reportingInterval : ℕ) (steadyState : Bool) : ProducerPerfStats where
  started := now
  windowStarted := now
  reportingInterval := reportingInterval
  sampling := numRecords / min numRecords 500000
  latencies := []
  count := 0
  bytes := 0
  totalLatencyMs := 0
  maxLatencyMs := 0
  windowCount := 0
  windowBytes := 0
  windowTotalLatencyMs := 0
  windowMaxLatencyMs := 0
  suppressPrinting := false
  steadyState := steadyState

/-- The line of `print_window`. -/
def windowLine (stats : ProducerPerfStats) (now : ℕ) : PerfLine :=
  .window stats.windowCount stats.windowBytes stats.windowTotalLatencyMs stats.windowMaxLatencyMs
    (millisAtLeastOne (now - stats.windowStarted))

/-- A record is counted. -/
def add (stats : ProducerPerfStats) (latencyMs bytes : ℕ) : ProducerPerfStats :=
  { stats with
    latencies :=
      if stats.count % stats.sampling = 0 then stats.latencies ++ [latencyMs] else stats.latencies
    count := saturatingAdd stats.count 1
    bytes := saturatingAdd stats.bytes bytes
    totalLatencyMs := saturatingAdd stats.totalLatencyMs latencyMs
    maxLatencyMs := max stats.maxLatencyMs latencyMs
    windowCount := saturatingAdd stats.windowCount 1
    windowBytes := saturatingAdd stats.windowBytes bytes
    windowTotalLatencyMs := saturatingAdd stats.windowTotalLatencyMs latencyMs
    windowMaxLatencyMs := max stats.windowMaxLatencyMs latencyMs }

/-- What is printed at the end of a window. -/
def report (stats : ProducerPerfStats) (now : ℕ) : List PerfLine :=
  (if stats.steadyState ∧ stats.count = stats.windowCount then [.inSteadyState] else []) ++
    (if stats.suppressPrinting then [] else [stats.windowLine now])

/-- A new window. -/
def resetWindow (stats : ProducerPerfStats) (now : ℕ) : ProducerPerfStats :=
  { stats with
    windowStarted := now
    windowCount := 0
    windowBytes := 0
    windowTotalLatencyMs := 0
    windowMaxLatencyMs := 0 }

/-- `ProducerPerfStats::record`. -/
def record (stats : ProducerPerfStats) (latencyMs bytes now : ℕ) :
    ProducerPerfStats × List PerfLine :=
  let stats := stats.add latencyMs bytes
  if stats.reportingInterval ≤ now - stats.windowStarted then
    (stats.resetWindow now, stats.report now)
  else (stats, [])

end ProducerPerfStats

/-- `sampled_percentile`, for samples that are sorted. -/
def sampledPercentile (samples : List ℕ) (numerator denominator : ℕ) : ℕ :=
  samples.getD (min (samples.length * numerator / denominator) (samples.length - 1)) 0

/-- `ProducerPerfStats::total_line`. -/
def ProducerPerfStats.totalLine (stats : ProducerPerfStats) (now : ℕ) : PerfLine :=
  let samples := stats.latencies.mergeSort
  .total stats.steadyState stats.count stats.bytes stats.totalLatencyMs stats.maxLatencyMs
    (millisAtLeastOne (now - stats.started))
    ([(1, 2), (95, 100), (99, 100), (999, 1000)].map fun (numerator, denominator) =>
      sampledPercentile samples numerator denominator)

/-! ## What is counted -/

/-- A record that was delivered. -/
structure Delivered where
  latencyMs : ℕ
  bytes : ℕ
  now : ℕ
  deriving DecidableEq, Repr

/-- A sum of 64 bits that stops at its bound. -/
def saturatingSum (l : List ℕ) : ℕ := min l.sum (2 ^ 64 - 1)

/-- The largest number, zero if there is none. -/
def largest (l : List ℕ) : ℕ := l.foldl max 0

/-- The latencies at the places that are multiples of `sampling`. -/
def sampled (sampling : ℕ) (records : List Delivered) : List ℕ :=
  (records.zipIdx.filter fun record => record.2 % sampling = 0).map (·.1.latencyMs)

/-- A window that has ended. -/
structure ClosedWindow where
  records : List Delivered
  printed : Bool
  elapsedMs : ℕ
  deriving DecidableEq, Repr

/-- The line of some records. -/
def lineOf (records : List Delivered) (elapsedMs : ℕ) : PerfLine :=
  .window (saturatingSum (records.map fun _ => 1)) (saturatingSum (records.map (·.bytes)))
    (saturatingSum (records.map (·.latencyMs))) (largest (records.map (·.latencyMs))) elapsedMs

/-- What is printed for a window, `first` being the first one. -/
def ClosedWindow.lines (steadyState first : Bool) (window : ClosedWindow) : List PerfLine :=
  (if steadyState && first then [.inSteadyState] else []) ++
    (if window.printed then [lineOf window.records window.elapsedMs] else [])

/-- What is printed for some windows. -/
def windowLines (steadyState : Bool) : List ClosedWindow → List PerfLine
  | [] => []
  | window :: windows =>
    window.lines steadyState true ++ windows.flatMap (·.lines steadyState false)

/-- The counters after some records, of which the last ones are those of the current window. -/
structure Accounts (stats : ProducerPerfStats) (records : List Delivered)
    (windows : List ClosedWindow) (current : List Delivered) : Prop where
  cut : records = (windows.flatMap (·.records)) ++ current
  nonempty : ∀ window ∈ windows, window.records ≠ []
  count : stats.count = saturatingSum (records.map fun _ => 1)
  bytes : stats.bytes = saturatingSum (records.map (·.bytes))
  totalLatencyMs : stats.totalLatencyMs = saturatingSum (records.map (·.latencyMs))
  maxLatencyMs : stats.maxLatencyMs = largest (records.map (·.latencyMs))
  windowCount : stats.windowCount = saturatingSum (current.map fun _ => 1)
  windowBytes : stats.windowBytes = saturatingSum (current.map (·.bytes))
  windowTotalLatencyMs :
    stats.windowTotalLatencyMs = saturatingSum (current.map (·.latencyMs))
  windowMaxLatencyMs : stats.windowMaxLatencyMs = largest (current.map (·.latencyMs))
  latencies : stats.latencies = sampled stats.sampling records

section Accounts

theorem saturatingSum_concat (l : List ℕ) (n : ℕ) :
    saturatingSum (l ++ [n]) = saturatingAdd (saturatingSum l) n := by
  rw [saturatingSum, saturatingSum, saturatingAdd, List.sum_append, List.sum_singleton]
  omega

theorem largest_concat (l : List ℕ) (n : ℕ) : largest (l ++ [n]) = max (largest l) n := by
  rw [largest, List.foldl_append]
  rfl

theorem sampled_concat (sampling : ℕ) (records : List Delivered) (record : Delivered) :
    sampled sampling (records ++ [record]) = if records.length % sampling = 0 then
      sampled sampling records ++ [record.latencyMs] else sampled sampling records := by
  rw [sampled, List.zipIdx_append, List.filter_append, List.map_append]
  by_cases h : records.length % sampling = 0
  · simp [h, sampled]
  · simp [h, sampled]

theorem saturatingSum_ones {α : Type} (l : List α) :
    saturatingSum (l.map fun _ => 1) = min l.length (2 ^ 64 - 1) := by
  simp [saturatingSum]

theorem accounts_new (now numRecords reportingInterval : ℕ) (steadyState : Bool) :
    Accounts (.new now numRecords reportingInterval steadyState) [] [] [] := by
  constructor <;> first | rfl | simp

variable {stats : ProducerPerfStats} {records current : List Delivered}
  {windows : List ClosedWindow}

/-- A record that is counted. -/
theorem Accounts.add (h : Accounts stats records windows current) (record : Delivered)
    (hlength : records.length < 2 ^ 64) :
    Accounts (stats.add record.latencyMs record.bytes) (records ++ [record]) windows
      (current ++ [record]) where
  cut := by rw [h.cut, List.append_assoc]
  nonempty := h.nonempty
  count := by
    rw [List.map_append, List.map_singleton, saturatingSum_concat, ← h.count]
    rfl
  bytes := by
    rw [List.map_append, List.map_singleton, saturatingSum_concat, ← h.bytes]
    rfl
  totalLatencyMs := by
    rw [List.map_append, List.map_singleton, saturatingSum_concat, ← h.totalLatencyMs]
    rfl
  maxLatencyMs := by
    rw [List.map_append, List.map_singleton, largest_concat, ← h.maxLatencyMs]
    rfl
  windowCount := by
    rw [List.map_append, List.map_singleton, saturatingSum_concat, ← h.windowCount]
    rfl
  windowBytes := by
    rw [List.map_append, List.map_singleton, saturatingSum_concat, ← h.windowBytes]
    rfl
  windowTotalLatencyMs := by
    rw [List.map_append, List.map_singleton, saturatingSum_concat, ← h.windowTotalLatencyMs]
    rfl
  windowMaxLatencyMs := by
    rw [List.map_append, List.map_singleton, largest_concat, ← h.windowMaxLatencyMs]
    rfl
  latencies := by
    have hcount : stats.count = records.length := by
      rw [h.count, saturatingSum_ones]
      omega
    rw [sampled_concat, ← hcount]
    show (if stats.count % stats.sampling = 0 then stats.latencies ++ [record.latencyMs] else
      stats.latencies) = _
    rw [h.latencies]
    rfl

/-- Every counted record is in some window. -/
theorem Accounts.length_eq (h : Accounts stats records windows current) :
    records.length = (windows.map (·.records.length)).sum + current.length := by
  rw [h.cut, List.length_append, List.length_flatMap]

/-- A window that ends. -/
theorem Accounts.resetWindow (h : Accounts stats records windows current) (now : ℕ)
    (hne : current ≠ []) (printed : Bool) (elapsedMs : ℕ) :
    Accounts (stats.resetWindow now) records (windows ++ [⟨current, printed, elapsedMs⟩]) [] where
  cut := by simp [h.cut]
  nonempty := by
    intro window hwindow
    rcases List.mem_append.1 hwindow with hmem | hmem
    · exact h.nonempty window hmem
    · rw [List.mem_singleton.1 hmem]
      exact hne
  count := h.count
  bytes := h.bytes
  totalLatencyMs := h.totalLatencyMs
  maxLatencyMs := h.maxLatencyMs
  windowCount := rfl
  windowBytes := rfl
  windowTotalLatencyMs := rfl
  windowMaxLatencyMs := rfl
  latencies := h.latencies

/-- The first window is the one that has all records. -/
theorem Accounts.count_eq_windowCount (h : Accounts stats records windows current)
    (hlength : records.length < 2 ^ 64) : stats.count = stats.windowCount ↔ windows = [] := by
  have hsum := h.length_eq
  rw [h.count, h.windowCount, saturatingSum_ones, saturatingSum_ones]
  cases windows with
  | nil =>
    rw [List.map_nil, List.sum_nil] at hsum
    simp [hsum]
  | cons window windows =>
    have hpos := List.length_pos_of_ne_nil (h.nonempty window List.mem_cons_self)
    rw [List.map_cons, List.sum_cons] at hsum
    refine iff_of_false ?_ (List.cons_ne_nil _ _)
    omega

theorem windowLines_concat (steadyState : Bool) (windows : List ClosedWindow)
    (window : ClosedWindow) : windowLines steadyState (windows ++ [window]) =
      windowLines steadyState windows ++ window.lines steadyState windows.isEmpty := by
  cases windows with
  | nil => simp [windowLines]
  | cons first windows => simp [windowLines]

/-- What is printed at the end of a window is the line of its records. -/
theorem Accounts.report (h : Accounts stats records windows current)
    (hlength : records.length < 2 ^ 64) (now : ℕ) : stats.report now =
      (ClosedWindow.mk current (!stats.suppressPrinting)
        (millisAtLeastOne (now - stats.windowStarted))).lines stats.steadyState windows.isEmpty := by
  have hfirst := h.count_eq_windowCount hlength
  have hline : stats.windowLine now =
      lineOf current (millisAtLeastOne (now - stats.windowStarted)) := by
    rw [ProducerPerfStats.windowLine, h.windowCount, h.windowBytes, h.windowTotalLatencyMs,
      h.windowMaxLatencyMs]
    rfl
  rw [ProducerPerfStats.report, ClosedWindow.lines, hline]
  simp only [hfirst]
  congr 1
  · cases windows <;> simp
  · cases stats.suppressPrinting <;> simp

/-- **A record that is delivered.** Either the current window goes on, or it ends with the record
and is reported. -/
theorem accounts_record (h : Accounts stats records windows current) (record : Delivered)
    (hlength : records.length + 1 < 2 ^ 64) :
    ∃ windows' current', Accounts (stats.record record.latencyMs record.bytes record.now).1
        (records ++ [record]) windows' current' ∧
      windowLines stats.steadyState windows' = windowLines stats.steadyState windows ++
        (stats.record record.latencyMs record.bytes record.now).2 ∧
      (stats.record record.latencyMs record.bytes record.now).1.steadyState = stats.steadyState ∧
      (stats.record record.latencyMs record.bytes record.now).1.sampling = stats.sampling := by
  have hadd := h.add record (by omega)
  have hlength' : (records ++ [record]).length < 2 ^ 64 := by
    rw [List.length_append, List.length_singleton]
    exact hlength
  unfold ProducerPerfStats.record
  dsimp only
  split_ifs with hdue
  · refine ⟨_, [], hadd.resetWindow record.now (by simp)
      (!(stats.add record.latencyMs record.bytes).suppressPrinting)
      (millisAtLeastOne (record.now - (stats.add record.latencyMs record.bytes).windowStarted)),
      ?_, rfl, rfl⟩
    rw [windowLines_concat, hadd.report hlength']
    rfl
  · exact ⟨windows, _, hadd, (List.append_nil _).symm, rfl, rfl⟩

end Accounts

/-! ## Percentiles -/

section Percentiles

/-- Around an element of a sorted list. -/
theorem countP_of_sorted {samples : List ℕ} (hsorted : samples.Pairwise (· ≤ ·)) {k : ℕ}
    (hk : k < samples.length) :
    samples.countP (· < samples[k]) ≤ k ∧ k < samples.countP (· ≤ samples[k]) := by
  have hget := List.pairwise_iff_getElem.1 hsorted
  constructor
  · have hnone : (samples.drop k).countP (· < samples[k]) = 0 := by
      rw [List.countP_eq_zero]
      intro sample hsample
      obtain ⟨i, hi, rfl⟩ := List.mem_iff_getElem.1 hsample
      rw [List.getElem_drop, decide_eq_true_eq, not_lt]
      by_cases hzero : i = 0
      · simp [hzero]
      · exact hget k (k + i) hk _ (by omega)
    calc samples.countP (· < samples[k])
        = (samples.take k).countP (· < samples[k]) + (samples.drop k).countP (· < samples[k]) := by
          rw [← List.countP_append, List.take_append_drop]
      _ ≤ k := by
          rw [hnone, Nat.add_zero]
          exact List.countP_le_length.trans (List.length_take_le k samples)
  · have hall : (samples.take (k + 1)).countP (· ≤ samples[k]) = k + 1 := by
      rw [List.countP_eq_length.2, List.length_take, Nat.min_eq_left hk]
      intro sample hsample
      obtain ⟨i, hi, rfl⟩ := List.mem_iff_getElem.1 hsample
      rw [List.length_take] at hi
      rw [List.getElem_take, decide_eq_true_eq]
      by_cases heq : i = k
      · simp [heq]
      · exact hget i k (by omega) hk (by omega)
    calc k < (samples.take (k + 1)).countP (· ≤ samples[k]) := by
          rw [hall]
          exact Nat.lt_succ_self k
      _ ≤ samples.countP (· ≤ samples[k]) := (List.take_sublist _ _).countP_le

/-- The place of a percentile. -/
def percentilePlace (length numerator denominator : ℕ) : ℕ :=
  min (length * numerator / denominator) (length - 1)

/-- **Where a percentile lies** among the samples. -/
theorem percentile_rank {latencies : List ℕ} (hne : latencies ≠ []) (numerator denominator : ℕ) :
    sampledPercentile latencies.mergeSort numerator denominator ∈ latencies ∧
      latencies.countP (· < sampledPercentile latencies.mergeSort numerator denominator) ≤
        percentilePlace latencies.length numerator denominator ∧
      percentilePlace latencies.length numerator denominator <
        latencies.countP (· ≤ sampledPercentile latencies.mergeSort numerator denominator) := by
  have hperm : latencies.mergeSort.Perm latencies := List.mergeSort_perm latencies _
  have hsorted : latencies.mergeSort.Pairwise (· ≤ ·) := List.pairwise_mergeSort' (· ≤ ·) latencies
  have hpos := List.length_pos_of_ne_nil hne
  have hplace : percentilePlace latencies.length numerator denominator <
      latencies.mergeSort.length := by
    rw [hperm.length_eq, percentilePlace]
    omega
  have hvalue : sampledPercentile latencies.mergeSort numerator denominator =
      latencies.mergeSort[percentilePlace latencies.length numerator denominator] := by
    rw [sampledPercentile, hperm.length_eq, ← percentilePlace, List.getD_eq_getElem _ _ hplace]
  obtain ⟨hbelow, habove⟩ := countP_of_sorted hsorted hplace
  rw [hvalue]
  refine ⟨hperm.mem_iff.1 (List.getElem_mem _), ?_, ?_⟩
  · rwa [← hperm.countP_eq]
  · rwa [← hperm.countP_eq]

/-- A larger fraction has a larger percentile. -/
theorem sampledPercentile_mono {samples : List ℕ} (hsorted : samples.Pairwise (· ≤ ·))
    {n d n' d' : ℕ} (h : samples.length * n / d ≤ samples.length * n' / d') :
    sampledPercentile samples n d ≤ sampledPercentile samples n' d' := by
  by_cases hne : samples = []
  · rw [hne]
    rfl
  · have hpos := List.length_pos_of_ne_nil hne
    have hlt : ∀ i, min i (samples.length - 1) < samples.length := fun i => by omega
    have hle : min (samples.length * n / d) (samples.length - 1) ≤
        min (samples.length * n' / d') (samples.length - 1) := min_le_min_right _ h
    unfold sampledPercentile
    rw [List.getD_eq_getElem _ _ (hlt _), List.getD_eq_getElem _ _ (hlt _)]
    rcases Nat.eq_or_lt_of_le hle with heq | hless
    · exact (getElem_congr_idx heq).le
    · exact List.pairwise_iff_getElem.1 hsorted _ _ _ _ hless

theorem le_largest {l : List ℕ} {n : ℕ} (h : n ∈ l) : n ≤ largest l := by
  induction l using List.reverseRecOn with
  | nil => cases h
  | append_singleton l m ih =>
    rw [largest_concat]
    rcases List.mem_append.1 h with hmem | hlast
    · exact (ih hmem).trans (Nat.le_max_left _ _)
    · rw [List.mem_singleton.1 hlast]
      exact Nat.le_max_right _ _

theorem mem_of_sampled {sampling latency : ℕ} {records : List Delivered}
    (h : latency ∈ sampled sampling records) : latency ∈ records.map (·.latencyMs) := by
  obtain ⟨⟨record, i⟩, hmem, rfl⟩ := List.mem_map.1 h
  exact List.mem_map.2 ⟨record, (List.mem_zipIdx (List.mem_of_mem_filter hmem)).2.2 ▸
    List.getElem_mem _, rfl⟩

/-- **The percentiles of the summary** increase, up to the largest latency. -/
theorem totalLine_percentiles {stats : ProducerPerfStats} {records current : List Delivered}
    {windows : List ClosedWindow} (h : Accounts stats records windows current) (now : ℕ) :
    ∃ p50 p95 p99 p999, stats.totalLine now =
        .total stats.steadyState stats.count stats.bytes stats.totalLatencyMs stats.maxLatencyMs
          (millisAtLeastOne (now - stats.started)) [p50, p95, p99, p999] ∧
      p50 ≤ p95 ∧ p95 ≤ p99 ∧ p99 ≤ p999 ∧ p999 ≤ stats.maxLatencyMs := by
  have hsorted : stats.latencies.mergeSort.Pairwise (· ≤ ·) :=
    List.pairwise_mergeSort' (· ≤ ·) stats.latencies
  refine ⟨_, _, _, _, rfl, sampledPercentile_mono hsorted ?_, sampledPercentile_mono hsorted ?_,
    sampledPercentile_mono hsorted ?_, ?_⟩
  · omega
  · omega
  · omega
  · by_cases hne : stats.latencies = []
    · simp [hne, sampledPercentile]
    · have hmem := (percentile_rank hne 999 1000).1
      rw [h.latencies] at hmem
      rw [h.maxLatencyMs, h.latencies]
      exact le_largest (mem_of_sampled hmem)

end Percentiles

end KafkaCli.Perf
