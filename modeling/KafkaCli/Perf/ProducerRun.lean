import KafkaCli.Lib.Checked
import KafkaCli.Perf.ProducerStats
import Mathlib.Data.List.Range

/-!
# A run of the producer test

`run_producer_perf_test` sends one record after the other, and the producer calls back for a record
that was delivered, or was not, whenever the test polls it: while its queue is full, after each
record, and at the end of a transaction and of the run. What the cluster does in between is in a
`Turn`.

**Theorem (`producerPerf_accounts`).** At the end of a run every record has come back once. The
callbacks in their order (`runEvents`) make up the history of the run (`historyOf`): the counters
are those of the records that were delivered, the steady ones are those of the delivered records
behind the warmup, and the run fails exactly if some record was not delivered, with the error of the
first of them.

**Theorem (`producerPerf_transactions`).** With transactions, the calls of a run are transactions
that each hold at least one record; the records are sent in their order, and the transactions that
have begun are committed if the run gets to its end.
-/

namespace KafkaCli.Perf

open Checked

/-! ## The algorithm -/

structure PerfRecord where
  payload : List UInt8
  key : Option String
  deriving DecidableEq, Repr

/-- What the producer is asked to do. -/
inductive ProducerCall
  | initTransactions
  | beginTransaction
  | send (index : ℕ) (record : PerfRecord)
  | commitTransaction
  | flush
  deriving DecidableEq, Repr

/-- What the test remembers of a record that it has sent. -/
structure PerfOpaque where
  started : ℕ
  bytes : ℕ
  steadyState : Bool
  deriving DecidableEq, Repr

/-- The producer calls back for a record: it was delivered, or there is an error. -/
structure Delivery where
  index : ℕ
  now : ℕ
  error : Option String
  deriving DecidableEq, Repr

/-- `ProducerPerfShared`. -/
structure PerfShared where
  total : ProducerPerfStats
  steady : Option ProducerPerfStats
  failures : ℕ
  firstError : Option String
  deriving DecidableEq, Repr

/-- The run so far. -/
structure PerfRun where
  shared : PerfShared
  /-- The records that have not come back. -/
  outstanding : List (ℕ × PerfOpaque)
  transactionRecords : ℕ
  calls : List ProducerCall
  lines : List PerfLine
  deriving DecidableEq, Repr

/-- The arguments that the loop goes by. -/
structure PerfPlan where
  numRecords : ℕ
  warmupRecords : ℕ
  reportingInterval : ℕ
  transactionDuration : Option ℕ
  deriving DecidableEq, Repr

/-- What happens while one record is sent. -/
structure Turn where
  beginError : Option Error
  /-- When the warmup ended, if it did. -/
  steadyAt : ℕ
  /-- When the record was made. -/
  started : ℕ
  /-- The queue is full, and each poll brings these. -/
  full : List (List Delivery)
  sendError : Option Error
  polled : List Delivery
  /-- How long the transaction has been open. -/
  elapsed : ℕ
  committed : Result (List Delivery)

namespace PerfShared

/-- `ProducerPerfContext::delivery`. -/
def delivery (shared : PerfShared) (sent : PerfOpaque) (delivery : Delivery) :
    PerfShared × List PerfLine :=
  match delivery.error with
  | none =>
    let latency := (delivery.now - sent.started) / 10 ^ 6
    let (total, lines) := shared.total.record latency sent.bytes delivery.now
    match sent.steadyState, shared.steady with
    | true, some steady =>
      let (steady, steadyLines) := steady.record latency sent.bytes delivery.now
      ({ shared with total := total, steady := some steady }, lines ++ steadyLines)
    | _, _ => ({ shared with total := total }, lines)
  | some error =>
    ({ shared with
      failures := saturatingAdd shared.failures 1
      firstError := shared.firstError.or (some error) }, [])

end PerfShared

namespace PerfRun

variable (run : PerfRun)

/-- The producer calls back for a record that it has. -/
def deliver (delivery : Delivery) : PerfRun :=
  match run.outstanding.lookup delivery.index with
  | none => run
  | some sent =>
    let (shared, lines) := run.shared.delivery sent delivery
    { run with
      shared := shared
      outstanding := run.outstanding.filter fun entry => entry.1 ≠ delivery.index
      lines := run.lines ++ lines }

def deliverAll (deliveries : List Delivery) : PerfRun := deliveries.foldl deliver run

/-- The start of a transaction, in front of its first record. -/
def beginTransaction (plan : PerfPlan) (turn : Turn) : Result PerfRun :=
  if plan.transactionDuration.isSome ∧ run.transactionRecords = 0 then
    match turn.beginError with
    | some error => .error error
    | none => .ok { run with calls := run.calls ++ [.beginTransaction] }
  else .ok run

/-- The end of the warmup. -/
def enterSteadyState (plan : PerfPlan) (turn : Turn) (index : ℕ) : PerfRun :=
  if 0 < plan.warmupRecords ∧ index = plan.warmupRecords then
    { run with
      shared := { run.shared with
        total := { run.shared.total with suppressPrinting := true }
        steady := some (.new turn.steadyAt (plan.numRecords - plan.warmupRecords)
          plan.reportingInterval true) } }
  else run

def send (plan : PerfPlan) (turn : Turn) (index : ℕ) (record : PerfRecord) : PerfRun :=
  { run with
    outstanding := run.outstanding ++ [(index, ⟨turn.started, record.payload.length,
      plan.warmupRecords ≤ index ∧ 0 < plan.warmupRecords⟩)]
    calls := run.calls ++ [.send index record] }

/-- One more record of the transaction. -/
def countRecord : PerfRun :=
  { run with transactionRecords := saturatingAdd run.transactionRecords 1 }

/-- The end of a transaction that has been open for long. -/
def commitIfDue (plan : PerfPlan) (turn : Turn) : Result PerfRun :=
  if plan.transactionDuration.any (· ≤ turn.elapsed) then do
    let deliveries ← turn.committed
    let run := run.deliverAll deliveries
    return { run with transactionRecords := 0, calls := run.calls ++ [.commitTransaction] }
  else .ok run

end PerfRun

/-- One pass of the loop. -/
def sendRecord (plan : PerfPlan) (run : PerfRun) (index : ℕ) (record : PerfRecord) (turn : Turn) :
    Result PerfRun := do
  let run ← run.beginTransaction plan turn
  let run := run.enterSteadyState plan turn index
  let run := turn.full.foldl PerfRun.deliverAll run
  match turn.sendError with
  | some error => .error error
  | none =>
    let run := (run.send plan turn index record).deliverAll turn.polled
    run.countRecord.commitIfDue plan turn

/-- The loop over the records, from one of them on. -/
def sendRecords (plan : PerfPlan) : ℕ → List (PerfRecord × Turn) → PerfRun → Result PerfRun
  | _, [], run => .ok run
  | index, (record, turn) :: rest, run => do
    let run ← sendRecord plan run index record turn
    sendRecords plan (index + 1) rest run

/-- What happens after the last record. -/
structure LastTurn where
  committed : Result (List Delivery)
  flushed : Result (List Delivery)
  now : ℕ

/-- The end of the last transaction. -/
def PerfRun.commitLast (run : PerfRun) (plan : PerfPlan) (last : LastTurn) : Result PerfRun :=
  if plan.transactionDuration.isSome ∧ 0 < run.transactionRecords then do
    let deliveries ← last.committed
    let run := run.deliverAll deliveries
    return { run with calls := run.calls ++ [.commitTransaction] }
  else .ok run

def PerfRun.flush (run : PerfRun) (last : LastTurn) : Result PerfRun := do
  let deliveries ← last.flushed
  let run := run.deliverAll deliveries
  return { run with calls := run.calls ++ [.flush] }

/-- The start of a run: nothing has been sent. -/
def PerfRun.start (plan : PerfPlan) (now : ℕ) : PerfRun where
  shared :=
    { total := .new now plan.numRecords plan.reportingInterval false
      steady := none
      failures := 0
      firstError := none }
  outstanding := []
  transactionRecords := 0
  calls := if plan.transactionDuration.isSome then [.initTransactions] else []
  lines := []

/-- The run up to its summary. -/
def runRecords (plan : PerfPlan) (now : ℕ) (initError : Option Error)
    (turns : List (PerfRecord × Turn)) (last : LastTurn) : Result PerfRun :=
  match plan.transactionDuration, initError with
  | some _, some error => .error error
  | _, _ => do
    let run ← sendRecords plan 0 turns (.start plan now)
    let run ← run.commitLast plan last
    run.flush last

/-- The result of a run that has come to its summary. -/
def PerfRun.result (run : PerfRun) : Result Unit :=
  failIf (0 < run.shared.failures) (.config (s!"{run.shared.failures} record deliveries failed: " ++
    run.shared.firstError.getD "unknown error"))

/-- The lines of the summary. -/
def PerfRun.summary (run : PerfRun) (now : ℕ) : List PerfLine :=
  run.shared.total.totalLine now :: (run.shared.steady.map (·.totalLine now)).toList

/-! ## What has come back -/

/-- A record that has come back. -/
structure Returned where
  sent : PerfOpaque
  delivery : Delivery
  deriving DecidableEq, Repr

/-- The record as it is counted, if it was delivered. -/
def Returned.delivered (returned : Returned) : Option Delivered :=
  if returned.delivery.error = none then
    some ⟨(returned.delivery.now - returned.sent.started) / 10 ^ 6, returned.sent.bytes,
      returned.delivery.now⟩
  else none

/-- The records that were delivered. -/
def deliveredOf (history : List Returned) : List Delivered := history.filterMap Returned.delivered

/-- Those of them behind the warmup. -/
def steadyOf (history : List Returned) : List Delivered :=
  deliveredOf (history.filter fun returned => returned.sent.steadyState)

/-- The errors of the others. -/
def errorsOf (history : List Returned) : List String :=
  history.filterMap fun returned => returned.delivery.error

theorem deliveredOf_concat (history : List Returned) (returned : Returned) :
    deliveredOf (history ++ [returned]) = deliveredOf history ++ returned.delivered.toList := by
  rw [deliveredOf, List.filterMap_append]
  cases h : returned.delivered <;> simp [h, deliveredOf]

theorem steadyOf_concat (history : List Returned) (returned : Returned) :
    steadyOf (history ++ [returned]) = steadyOf history ++
      if returned.sent.steadyState then returned.delivered.toList else [] := by
  rw [steadyOf, List.filter_append]
  by_cases h : returned.sent.steadyState
  · rw [List.filter_singleton, h, if_pos rfl]
    exact deliveredOf_concat _ _
  · simp [h, steadyOf]

theorem errorsOf_concat (history : List Returned) (returned : Returned) :
    errorsOf (history ++ [returned]) = errorsOf history ++ returned.delivery.error.toList := by
  rw [errorsOf, List.filterMap_append]
  cases h : returned.delivery.error <;> simp [h, errorsOf]

/-- What a run goes through: a record is sent, or the producer calls back. -/
inductive PerfEvent
  | sent (index : ℕ) (sent : PerfOpaque)
  | back (delivery : Delivery)
  deriving DecidableEq, Repr

/-- The records that are on their way, and those that have come back. -/
structure Ledger where
  outstanding : List (ℕ × PerfOpaque)
  history : List Returned
  deriving DecidableEq, Repr

/-- A record has come back with the first delivery for it. -/
def Ledger.after (ledger : Ledger) : PerfEvent → Ledger
  | .sent index sent => { ledger with outstanding := ledger.outstanding ++ [(index, sent)] }
  | .back delivery =>
    match ledger.outstanding.lookup delivery.index with
    | none => ledger
    | some sent =>
      { outstanding := ledger.outstanding.filter fun entry => entry.1 ≠ delivery.index
        history := ledger.history ++ [⟨sent, delivery⟩] }

def Ledger.afterAll (ledger : Ledger) (events : List PerfEvent) : Ledger :=
  events.foldl Ledger.after ledger

/-- What has come back after some events, in its order. -/
def historyOf (events : List PerfEvent) : List Returned :=
  (Ledger.afterAll ⟨[], []⟩ events).history

/-- What a call brings back that has not failed. -/
def callbacks (deliveries : Result (List Delivery)) : List PerfEvent :=
  (deliveries.toOption.getD []).map .back

/-- The transaction is committed after the record. -/
def Turn.commits (plan : PerfPlan) (turn : Turn) : Bool :=
  plan.transactionDuration.any (· ≤ turn.elapsed)

/-- The events of one pass of the loop. -/
def Turn.events (plan : PerfPlan) (index : ℕ) (record : PerfRecord) (turn : Turn) :
    List PerfEvent :=
  turn.full.flatten.map .back ++
    .sent index ⟨turn.started, record.payload.length,
      plan.warmupRecords ≤ index ∧ 0 < plan.warmupRecords⟩ :: turn.polled.map .back ++
    if turn.commits plan then callbacks turn.committed else []

/-- The events of the loop, from one of the records on. -/
def loopEvents (plan : PerfPlan) : ℕ → List (PerfRecord × Turn) → List PerfEvent
  | _, [] => []
  | index, (record, turn) :: rest =>
    turn.events plan index record ++ loopEvents plan (index + 1) rest

/-- A transaction is open after the last record. -/
def endsOpen (plan : PerfPlan) (turns : List (PerfRecord × Turn)) : Bool :=
  plan.transactionDuration.isSome && turns.getLast?.any fun entry => !entry.2.commits plan

/-- The events of a run. -/
def runEvents (plan : PerfPlan) (turns : List (PerfRecord × Turn)) (last : LastTurn) :
    List PerfEvent :=
  loopEvents plan 0 turns ++
    (if endsOpen plan turns then callbacks last.committed else []) ++ callbacks last.flushed

/-- What is remembered of a record. -/
structure Remembers (plan : PerfPlan) (records : List PerfRecord) (index : ℕ)
    (sent : PerfOpaque) : Prop where
  bytes : ∃ record, records[index]? = some record ∧ sent.bytes = record.payload.length
  steadyState : sent.steadyState = decide (plan.warmupRecords ≤ index ∧ 0 < plan.warmupRecords)

/-- The steady counters after some records, once the warmup has ended. -/
def SteadyAccounts (steady : Option ProducerPerfStats) (reached : Prop)
    (records : List Delivered) (windows : List ClosedWindow) (current : List Delivered) : Prop :=
  match steady with
  | none => ¬ reached ∧ windows = []
  | some stats => reached ∧ stats.steadyState = true ∧ Accounts stats records windows current

/-- The run after some records were sent and some of them came back; `entered` counts the passes
of the loop that have come to the end of the warmup. -/
structure Accounted (plan : PerfPlan) (records : List PerfRecord) (entered : ℕ)
    (history : List Returned) (totalWindows : List ClosedWindow) (totalCurrent : List Delivered)
    (steadyWindows : List ClosedWindow) (steadyCurrent : List Delivered)
    (run : PerfRun) : Prop where
  once : (run.outstanding.map Prod.fst ++ history.map (·.delivery.index)).Perm
    (List.range records.length)
  outstanding : ∀ entry ∈ run.outstanding, Remembers plan records entry.1 entry.2
  returned : ∀ returned ∈ history,
    Remembers plan records returned.delivery.index returned.sent
  total : Accounts run.shared.total (deliveredOf history) totalWindows totalCurrent
  totalSteady : run.shared.total.steadyState = false
  steady : SteadyAccounts run.shared.steady
    (0 < plan.warmupRecords ∧ plan.warmupRecords < entered) (steadyOf history) steadyWindows
    steadyCurrent
  failures : run.shared.failures = saturatingSum ((errorsOf history).map fun _ => 1)
  firstError : run.shared.firstError = (errorsOf history).head?
  lines : run.lines.Perm (windowLines false totalWindows ++ windowLines true steadyWindows)

section Accounted

variable {plan : PerfPlan} {records : List PerfRecord} {entered : ℕ} {history : List Returned}
  {totalWindows steadyWindows : List ClosedWindow} {totalCurrent steadyCurrent : List Delivered}
  {run : PerfRun}

theorem Remembers.concat {index : ℕ} {sent : PerfOpaque} (h : Remembers plan records index sent)
    (record : PerfRecord) : Remembers plan (records ++ [record]) index sent := by
  obtain ⟨⟨found, hget, hbytes⟩, hsteady⟩ := h
  refine ⟨⟨found, ?_, hbytes⟩, hsteady⟩
  rw [List.getElem?_append_left (List.getElem?_eq_some_iff.1 hget).1, hget]

/-- Without the record that comes back. -/
theorem perm_of_lookup {outstanding : List (ℕ × PerfOpaque)} {index : ℕ} {sent : PerfOpaque}
    (hnodup : (outstanding.map Prod.fst).Nodup) (hlookup : outstanding.lookup index = some sent) :
    (outstanding.map Prod.fst).Perm
      ((outstanding.filter fun entry => entry.1 ≠ index).map Prod.fst ++ [index]) := by
  have hmem : index ∈ outstanding.map Prod.fst := by
    obtain ⟨front, back, heq, -⟩ := List.lookup_eq_some_iff.1 hlookup
    rw [heq]
    simp
  have hfilter : (outstanding.filter fun entry => entry.1 ≠ index).map Prod.fst =
      (outstanding.map Prod.fst).erase index := by
    rw [hnodup.erase_eq_filter, List.filter_map]
    congr 1
    refine List.filter_congr fun entry _ => ?_
    by_cases h : entry.1 = index <;> simp [h]
  rw [hfilter]
  exact (List.perm_cons_erase hmem).trans (List.perm_append_singleton index _).symm

section Deliver

variable {delivery : Delivery} {sent : PerfOpaque}
  (hlookup : run.outstanding.lookup delivery.index = some sent)

/-- The latency of a record. -/
def latencyMs (sent : PerfOpaque) (delivery : Delivery) : ℕ :=
  (delivery.now - sent.started) / 10 ^ 6

include hlookup

theorem deliver_failed {error : String} (herror : delivery.error = some error) :
    run.deliver delivery =
      { run with
        shared := { run.shared with
          failures := saturatingAdd run.shared.failures 1
          firstError := run.shared.firstError.or (some error) }
        outstanding := run.outstanding.filter fun entry => entry.1 ≠ delivery.index } := by
  simp only [PerfRun.deliver, hlookup, PerfShared.delivery, herror, List.append_nil]

theorem deliver_warmup (herror : delivery.error = none) (hsteady : sent.steadyState = false) :
    run.deliver delivery =
      { run with
        shared := { run.shared with
          total := (run.shared.total.record (latencyMs sent delivery) sent.bytes delivery.now).1 }
        outstanding := run.outstanding.filter fun entry => entry.1 ≠ delivery.index
        lines := run.lines ++
          (run.shared.total.record (latencyMs sent delivery) sent.bytes delivery.now).2 } := by
  simp only [PerfRun.deliver, hlookup, PerfShared.delivery, herror, hsteady]
  rfl

theorem deliver_steady (herror : delivery.error = none) (hsteady : sent.steadyState = true)
    {stats : ProducerPerfStats} (hstats : run.shared.steady = some stats) :
    run.deliver delivery =
      { run with
        shared := { run.shared with
          total := (run.shared.total.record (latencyMs sent delivery) sent.bytes delivery.now).1
          steady := some (stats.record (latencyMs sent delivery) sent.bytes delivery.now).1 }
        outstanding := run.outstanding.filter fun entry => entry.1 ≠ delivery.index
        lines := run.lines ++
          ((run.shared.total.record (latencyMs sent delivery) sent.bytes delivery.now).2 ++
            (stats.record (latencyMs sent delivery) sent.bytes delivery.now).2) } := by
  simp only [PerfRun.deliver, hlookup, PerfShared.delivery, herror, hsteady, hstats]
  rfl

end Deliver

/-- The counters are right for some records that have come back. -/
def AccountedFor (plan : PerfPlan) (records : List PerfRecord) (entered : ℕ)
    (history : List Returned) (run : PerfRun) : Prop :=
  ∃ totalWindows totalCurrent steadyWindows steadyCurrent, Accounted plan records entered history
    totalWindows totalCurrent steadyWindows steadyCurrent run

/-- **A record comes back.** -/
theorem Accounted.delivery (h : Accounted plan records entered history totalWindows totalCurrent
      steadyWindows steadyCurrent run) (hbound : records.length < 2 ^ 63)
    (hentered : records.length ≤ entered) (delivery : Delivery) {sent : PerfOpaque}
    (hlookup : run.outstanding.lookup delivery.index = some sent) :
    AccountedFor plan records entered (history ++ [⟨sent, delivery⟩]) (run.deliver delivery) := by
  have hnodup : (run.outstanding.map Prod.fst).Nodup :=
    (List.nodup_append.1 (h.once.nodup_iff.2 List.nodup_range)).1
  have hmem : (delivery.index, sent) ∈ run.outstanding := by
    obtain ⟨front, back, heq, -⟩ := List.lookup_eq_some_iff.1 hlookup
    rw [heq]
    simp
  have hsent := h.outstanding _ hmem
  have hindex : delivery.index < records.length := by
    obtain ⟨⟨record, hget, -⟩, -⟩ := hsent
    exact (List.getElem?_eq_some_iff.1 hget).1
  have hlength : history.length ≤ records.length := by
    have hperm := h.once.length_eq
    rw [List.length_append, List.length_map, List.length_map, List.length_range] at hperm
    omega
  have hdelivered : (deliveredOf history).length + 1 < 2 ^ 64 := by
    have hle : (deliveredOf history).length ≤ history.length := List.length_filterMap_le _ _
    omega
  -- what does not depend on the outcome
  have honce : ((run.outstanding.filter fun entry => entry.1 ≠ delivery.index).map Prod.fst ++
      (history ++ [Returned.mk sent delivery]).map (·.delivery.index)).Perm
        (List.range records.length) := by
    refine List.Perm.trans ?_ h.once
    rw [List.map_append, List.map_singleton]
    refine .trans ?_ ((perm_of_lookup hnodup hlookup).symm.append_right _)
    rw [List.append_assoc]
    exact (List.perm_append_comm).append_left _
  have houtstanding : ∀ entry ∈ run.outstanding.filter fun entry => entry.1 ≠ delivery.index,
      Remembers plan records entry.1 entry.2 := fun entry hentry =>
    h.outstanding entry (List.mem_of_mem_filter hentry)
  have hreturned : ∀ returned ∈ history ++ [⟨sent, delivery⟩],
      Remembers plan records returned.delivery.index returned.sent := by
    intro returned hmem
    rcases List.mem_append.1 hmem with hbefore | hlast
    · exact h.returned returned hbefore
    · rw [List.mem_singleton.1 hlast]
      exact hsent
  cases herror : delivery.error with
  | some error =>
    have hnone : (Returned.mk sent delivery).delivered = none := by simp [Returned.delivered, herror]
    rw [deliver_failed hlookup herror]
    refine ⟨totalWindows, totalCurrent, steadyWindows, steadyCurrent, honce, houtstanding,
      hreturned, ?_, h.totalSteady, ?_, ?_, ?_, ?_⟩
    · rw [deliveredOf_concat, hnone, Option.toList_none, List.append_nil]
      exact h.total
    · rw [steadyOf_concat, hnone, Option.toList_none, ite_self, List.append_nil]
      exact h.steady
    · rw [errorsOf_concat, herror, Option.toList_some, List.map_append, List.map_singleton,
        saturatingSum_concat, ← h.failures]
    · rw [errorsOf_concat, herror, Option.toList_some, List.head?_append, ← h.firstError]
      rfl
    · exact h.lines
  | none =>
    have hsome : (Returned.mk sent delivery).delivered =
        some ⟨latencyMs sent delivery, sent.bytes, delivery.now⟩ := by
      rw [Returned.delivered, if_pos herror]
      rfl
    have herrors : errorsOf (history ++ [⟨sent, delivery⟩]) = errorsOf history := by
      rw [errorsOf_concat, herror, Option.toList_none, List.append_nil]
    obtain ⟨totalWindows', totalCurrent', htotal, htotalLines, htotalSteady, -⟩ :=
      accounts_record h.total ⟨latencyMs sent delivery, sent.bytes, delivery.now⟩ hdelivered
    rw [h.totalSteady] at htotalLines htotalSteady
    have htotal' : Accounts
        (run.shared.total.record (latencyMs sent delivery) sent.bytes delivery.now).1
        (deliveredOf (history ++ [⟨sent, delivery⟩])) totalWindows' totalCurrent' := by
      rw [deliveredOf_concat, hsome, Option.toList_some]
      exact htotal
    cases hflag : sent.steadyState with
    | false =>
      have hsteady : steadyOf (history ++ [⟨sent, delivery⟩]) = steadyOf history := by
        rw [steadyOf_concat]
        simp [hflag]
      rw [deliver_warmup hlookup herror hflag]
      refine ⟨totalWindows', totalCurrent', steadyWindows, steadyCurrent, honce, houtstanding,
        hreturned, htotal', htotalSteady, ?_, ?_, ?_, ?_⟩
      · rw [hsteady]
        exact h.steady
      · rw [herrors]
        exact h.failures
      · rw [herrors]
        exact h.firstError
      · rw [htotalLines]
        refine (h.lines.append_right _).trans ?_
        rw [List.append_assoc, List.append_assoc]
        exact List.perm_append_comm.append_left _
    | true =>
      have hreached : 0 < plan.warmupRecords ∧ plan.warmupRecords < entered := by
        have hbehind := hsent.steadyState
        rw [hflag, eq_comm, decide_eq_true_eq] at hbehind
        exact ⟨hbehind.2, by omega⟩
      cases hstats : run.shared.steady with
      | none =>
        have hnone := h.steady
        rw [hstats] at hnone
        exact absurd hreached hnone.1
      | some stats =>
        have hsome' := h.steady
        rw [hstats] at hsome'
        obtain ⟨-, hstatsSteady, hstatsAccounts⟩ := hsome'
        have hsteadyLength : (steadyOf history).length + 1 < 2 ^ 64 := by
          have hle : (steadyOf history).length ≤ history.length :=
            (List.length_filterMap_le _ _).trans (List.length_filter_le _ _)
          omega
        obtain ⟨steadyWindows', steadyCurrent', hsteady, hsteadyLines, hsteadySteady, -⟩ :=
          accounts_record hstatsAccounts ⟨latencyMs sent delivery, sent.bytes, delivery.now⟩
            hsteadyLength
        rw [hstatsSteady] at hsteadyLines hsteadySteady
        rw [deliver_steady hlookup herror hflag hstats]
        refine ⟨totalWindows', totalCurrent', steadyWindows', steadyCurrent', honce, houtstanding,
          hreturned, htotal', htotalSteady, ⟨hreached, hsteadySteady, ?_⟩, ?_, ?_, ?_⟩
        · rw [steadyOf_concat, if_pos hflag, hsome, Option.toList_some]
          exact hsteady
        · rw [herrors]
          exact h.failures
        · rw [herrors]
          exact h.firstError
        · rw [htotalLines, hsteadyLines]
          refine (h.lines.append_right _).trans ?_
          rw [List.append_assoc, List.append_assoc]
          refine .append_left _ ?_
          rw [← List.append_assoc, ← List.append_assoc]
          exact List.perm_append_comm.append_right _

/-! ## The steps of a run -/

/-- The counters do not depend on the calls. -/
theorem AccountedFor.congr {run' : PerfRun} (h : AccountedFor plan records entered history run)
    (hshared : run'.shared = run.shared) (houtstanding : run'.outstanding = run.outstanding)
    (hlines : run'.lines = run.lines) : AccountedFor plan records entered history run' := by
  obtain ⟨totalWindows, totalCurrent, steadyWindows, steadyCurrent, h⟩ := h
  refine ⟨totalWindows, totalCurrent, steadyWindows, steadyCurrent, ?_, ?_, h.returned, ?_, ?_, ?_,
    ?_, ?_, ?_⟩
  · exact houtstanding ▸ h.once
  · exact houtstanding ▸ h.outstanding
  · exact hshared ▸ h.total
  · exact hshared ▸ h.totalSteady
  · exact hshared ▸ h.steady
  · exact hshared ▸ h.failures
  · exact hshared ▸ h.firstError
  · exact hlines ▸ h.lines

/-- The run agrees with a ledger, and its counters are right for it. -/
structure Balanced (plan : PerfPlan) (records : List PerfRecord) (entered : ℕ) (ledger : Ledger)
    (run : PerfRun) : Prop where
  outstanding : run.outstanding = ledger.outstanding
  accounted : AccountedFor plan records entered ledger.history run

variable {ledger : Ledger}

theorem Balanced.congr {run' : PerfRun} (h : Balanced plan records entered ledger run)
    (hshared : run'.shared = run.shared) (houtstanding : run'.outstanding = run.outstanding)
    (hlines : run'.lines = run.lines) : Balanced plan records entered ledger run' where
  outstanding := houtstanding.trans h.outstanding
  accounted := h.accounted.congr hshared houtstanding hlines

theorem Balanced.countRecord (h : Balanced plan records entered ledger run) :
    Balanced plan records entered ledger run.countRecord := h.congr rfl rfl rfl

theorem Balanced.deliver (h : Balanced plan records entered ledger run)
    (hbound : records.length < 2 ^ 63) (hentered : records.length ≤ entered)
    (delivery : Delivery) :
    Balanced plan records entered (ledger.after (.back delivery)) (run.deliver delivery) := by
  have hsame := h.outstanding
  cases hlookup : run.outstanding.lookup delivery.index with
  | none =>
    have hrun : run.deliver delivery = run := by simp only [PerfRun.deliver, hlookup]
    have hledger : ledger.after (.back delivery) = ledger := by
      simp only [Ledger.after, ← hsame, hlookup]
    rw [hrun, hledger]
    exact h
  | some sent =>
    have hledger : ledger.after (.back delivery) =
        ⟨ledger.outstanding.filter fun entry => entry.1 ≠ delivery.index,
          ledger.history ++ [⟨sent, delivery⟩]⟩ := by
      simp only [Ledger.after, ← hsame, hlookup]
    obtain ⟨totalWindows, totalCurrent, steadyWindows, steadyCurrent, haccounted⟩ := h.accounted
    rw [hledger]
    refine ⟨?_, haccounted.delivery hbound hentered delivery hlookup⟩
    simp only [PerfRun.deliver, hlookup]
    rw [hsame]

theorem Balanced.deliverAll (h : Balanced plan records entered ledger run)
    (hbound : records.length < 2 ^ 63) (hentered : records.length ≤ entered)
    (deliveries : List Delivery) :
    Balanced plan records entered (ledger.afterAll (deliveries.map .back))
      (run.deliverAll deliveries) := by
  induction deliveries generalizing ledger run with
  | nil => exact h
  | cons delivery deliveries ih => exact ih (h.deliver hbound hentered delivery)

/-- While the queue is full. -/
theorem Balanced.polls (h : Balanced plan records entered ledger run)
    (hbound : records.length < 2 ^ 63) (hentered : records.length ≤ entered)
    (full : List (List Delivery)) :
    Balanced plan records entered (ledger.afterAll (full.flatten.map .back))
      (full.foldl PerfRun.deliverAll run) := by
  have hflatten : full.foldl PerfRun.deliverAll run = run.deliverAll full.flatten :=
    List.foldl_flatten.symm
  rw [hflatten]
  exact h.deliverAll hbound hentered full.flatten

theorem accountedFor_start (plan : PerfPlan) (now : ℕ) :
    AccountedFor plan [] 0 [] (.start plan now) :=
  ⟨[], [], [], [], .refl _, fun _ h => absurd h List.not_mem_nil,
    fun _ h => absurd h List.not_mem_nil, accounts_new now plan.numRecords plan.reportingInterval
      false, rfl, ⟨fun h => absurd h.2 (Nat.not_lt_zero _), rfl⟩, rfl, rfl, .refl _⟩

/-- Nothing has come back from behind the end of the warmup, as long as it has not ended. -/
theorem Accounted.steadyOf_eq_nil (h : Accounted plan records entered history totalWindows
      totalCurrent steadyWindows steadyCurrent run)
    (hwarmup : records.length ≤ plan.warmupRecords) : steadyOf history = [] := by
  have hnone : (history.filter fun returned => returned.sent.steadyState) = [] := by
    rw [List.filter_eq_nil_iff]
    intro returned hmem hflag
    obtain ⟨⟨record, hget, -⟩, hsteady⟩ := h.returned returned hmem
    rw [hflag, eq_comm, decide_eq_true_eq] at hsteady
    have hlt := (List.getElem?_eq_some_iff.1 hget).1
    omega
  rw [steadyOf, hnone]
  rfl

/-- The end of the warmup. -/
theorem AccountedFor.enter (h : AccountedFor plan records records.length history run)
    (turn : Turn) : AccountedFor plan records (records.length + 1) history
      (run.enterSteadyState plan turn records.length) := by
  obtain ⟨totalWindows, totalCurrent, steadyWindows, steadyCurrent, h⟩ := h
  unfold PerfRun.enterSteadyState
  by_cases hend : 0 < plan.warmupRecords ∧ records.length = plan.warmupRecords
  · rw [if_pos hend]
    have hwindows : steadyWindows = [] := by
      have hsteady := h.steady
      cases hstats : run.shared.steady with
      | none =>
        rw [hstats] at hsteady
        exact hsteady.2
      | some stats =>
        rw [hstats] at hsteady
        exact absurd hsteady.1.2 (by omega)
    subst hwindows
    refine ⟨totalWindows, totalCurrent, [], [], h.once, h.outstanding, h.returned, ?_,
      h.totalSteady, ⟨⟨hend.1, by omega⟩, rfl, ?_⟩, h.failures, h.firstError, h.lines⟩
    · obtain ⟨hcut, hnonempty, hcount, hbytes, htotal, hmax, hwcount, hwbytes, hwtotal, hwmax,
        hlatencies⟩ := h.total
      exact ⟨hcut, hnonempty, hcount, hbytes, htotal, hmax, hwcount, hwbytes, hwtotal, hwmax,
        hlatencies⟩
    · rw [h.steadyOf_eq_nil hend.2.le]
      exact accounts_new _ _ _ _
  · rw [if_neg hend]
    have hreached : (0 < plan.warmupRecords ∧ plan.warmupRecords < records.length + 1) ↔
        0 < plan.warmupRecords ∧ plan.warmupRecords < records.length := by omega
    refine ⟨totalWindows, totalCurrent, steadyWindows, steadyCurrent, h.once, h.outstanding,
      h.returned, h.total, h.totalSteady, ?_, h.failures, h.firstError, h.lines⟩
    rw [hreached]
    exact h.steady

/-- A record is sent. -/
theorem AccountedFor.send (h : AccountedFor plan records (records.length + 1) history run)
    (turn : Turn) (record : PerfRecord) :
    AccountedFor plan (records ++ [record]) (records.length + 1) history
      (run.send plan turn records.length record) := by
  obtain ⟨totalWindows, totalCurrent, steadyWindows, steadyCurrent, h⟩ := h
  refine ⟨totalWindows, totalCurrent, steadyWindows, steadyCurrent, ?_, ?_, ?_, h.total,
    h.totalSteady, h.steady, h.failures, h.firstError, h.lines⟩
  · rw [List.length_append, List.length_singleton, List.range_succ]
    refine .trans ?_ (h.once.append_right [records.length])
    rw [PerfRun.send, List.map_append, List.append_assoc, List.append_assoc]
    exact List.perm_append_comm.append_left _
  · intro entry hentry
    rcases List.mem_append.1 hentry with hbefore | hlast
    · exact (h.outstanding entry hbefore).concat record
    · rw [List.mem_singleton.1 hlast]
      exact ⟨⟨record, List.getElem?_concat_length, rfl⟩, rfl⟩
  · exact fun returned hmem => (h.returned returned hmem).concat record

theorem Balanced.enter (h : Balanced plan records records.length ledger run) (turn : Turn) :
    Balanced plan records (records.length + 1) ledger
      (run.enterSteadyState plan turn records.length) := by
  refine ⟨?_, h.accounted.enter turn⟩
  rw [← h.outstanding, PerfRun.enterSteadyState]
  split_ifs <;> rfl

theorem Balanced.send (h : Balanced plan records (records.length + 1) ledger run) (turn : Turn)
    (record : PerfRecord) :
    Balanced plan (records ++ [record]) (records.length + 1)
      (ledger.after (.sent records.length ⟨turn.started, record.payload.length,
        plan.warmupRecords ≤ records.length ∧ 0 < plan.warmupRecords⟩))
      (run.send plan turn records.length record) where
  outstanding := by rw [Ledger.after, ← h.outstanding, PerfRun.send]
  accounted := h.accounted.send turn record

theorem Ledger.afterAll_append (ledger : Ledger) (events events' : List PerfEvent) :
    ledger.afterAll (events ++ events') = (ledger.afterAll events).afterAll events' :=
  List.foldl_append

theorem Ledger.afterAll_cons (ledger : Ledger) (event : PerfEvent) (events : List PerfEvent) :
    ledger.afterAll (event :: events) = (ledger.after event).afterAll events := rfl

/-- **One pass of the loop.** -/
theorem Balanced.sendRecord (h : Balanced plan records records.length ledger run)
    (hbound : records.length + 1 < 2 ^ 63) {record : PerfRecord} {turn : Turn} {after : PerfRun}
    (hrun : sendRecord plan run records.length record turn = .ok after) :
    Balanced plan (records ++ [record]) (records.length + 1)
      (ledger.afterAll (turn.events plan records.length record)) after := by
  rw [Perf.sendRecord, bind_eq_ok] at hrun
  obtain ⟨begun, hbegun, hrun⟩ := hrun
  have hbegin : Balanced plan records records.length ledger begun := by
    unfold PerfRun.beginTransaction at hbegun
    split_ifs at hbegun
    · split at hbegun
      · cases hbegun
      · obtain rfl := Except.ok.inj hbegun
        exact h.congr rfl rfl rfl
    · obtain rfl := Except.ok.inj hbegun
      exact h
  have hfull := (hbegin.enter turn).polls (by omega) (by omega) turn.full
  dsimp only at hrun
  split at hrun
  · cases hrun
  · have hlength : (records ++ [record]).length = records.length + 1 := by simp
    have hpolled := (hfull.send turn record).deliverAll (by omega) (by omega) turn.polled
    rw [Turn.events, List.append_assoc, List.cons_append, Ledger.afterAll_append,
      Ledger.afterAll_cons, Ledger.afterAll_append]
    unfold PerfRun.commitIfDue at hrun
    split_ifs at hrun with hdue
    · simp only [bind_eq_ok, pure_eq_ok] at hrun
      obtain ⟨deliveries, hcommitted, rfl⟩ := hrun
      rw [Turn.commits, if_pos hdue, hcommitted]
      exact (hpolled.countRecord.deliverAll (by omega) (by omega) deliveries).congr rfl rfl rfl
    · obtain rfl := Except.ok.inj hrun
      rw [Turn.commits, if_neg hdue]
      exact hpolled.countRecord

/-- The loop. -/
theorem Balanced.sendRecords {turns : List (PerfRecord × Turn)} {after : PerfRun}
    (h : Balanced plan records records.length ledger run)
    (hbound : records.length + turns.length < 2 ^ 63)
    (hrun : sendRecords plan records.length turns run = .ok after) :
    Balanced plan (records ++ turns.map Prod.fst) (records.length + turns.length)
      (ledger.afterAll (loopEvents plan records.length turns)) after := by
  induction turns generalizing records ledger run with
  | nil =>
    obtain rfl := Except.ok.inj hrun
    rw [List.map_nil, List.append_nil, List.length_nil, Nat.add_zero]
    exact h
  | cons entry turns ih =>
    obtain ⟨record, turn⟩ := entry
    rw [List.length_cons] at hbound
    rw [Perf.sendRecords, bind_eq_ok] at hrun
    obtain ⟨next, hfirst, hrest⟩ := hrun
    have hnext := h.sendRecord (by omega) hfirst
    have hlength : (records ++ [record]).length = records.length + 1 := by simp
    rw [← hlength] at hnext hrest
    have hafter := ih hnext (by omega) hrest
    rw [List.append_assoc, hlength, ← Ledger.afterAll_append] at hafter
    rw [List.map_cons, List.length_cons, Nat.add_comm turns.length, ← Nat.add_assoc]
    exact hafter

end Accounted

/-! ## The end of a run -/

theorem length_delivered_add_errors (history : List Returned) :
    (deliveredOf history).length + (errorsOf history).length = history.length := by
  induction history using List.reverseRecOn with
  | nil => rfl
  | append_singleton history returned ih =>
    rw [deliveredOf_concat, errorsOf_concat, List.length_append, List.length_append,
      List.length_append, List.length_singleton, ← ih, Returned.delivered]
    cases herror : returned.delivery.error with
    | none =>
      rw [if_pos rfl, Option.toList_some, Option.toList_none, List.length_singleton,
        List.length_nil]
      omega
    | some error =>
      rw [if_neg (by simp), Option.toList_none, Option.toList_some, List.length_singleton,
        List.length_nil]
      omega

/-- What a run ends with, for the errors of its records. -/
def resultOf : List String → Result Unit
  | [] => .ok ()
  | error :: errors =>
    .error (.config (s!"{errors.length + 1} record deliveries failed: " ++ error))

/-- Once every record has come back. -/
theorem AccountedFor.of_flushed {plan : PerfPlan} {records : List PerfRecord} {entered : ℕ}
    {history : List Returned} {run : PerfRun} (h : AccountedFor plan records entered history run)
    (hbound : records.length < 2 ^ 63) (hflushed : run.outstanding = []) :
    (history.map (·.delivery.index)).Perm (List.range records.length) ∧
      run.shared.total.count + run.shared.failures = records.length ∧
      run.result = resultOf (errorsOf history) := by
  obtain ⟨totalWindows, totalCurrent, steadyWindows, steadyCurrent, h⟩ := h
  have honce := h.once
  rw [hflushed, List.map_nil, List.nil_append] at honce
  have hhistory := honce.length_eq
  rw [List.length_map, List.length_range] at hhistory
  have hsum := length_delivered_add_errors history
  have hcount : run.shared.total.count = (deliveredOf history).length := by
    rw [h.total.count, saturatingSum_ones]
    omega
  have hfailures : run.shared.failures = (errorsOf history).length := by
    rw [h.failures, saturatingSum_ones]
    omega
  refine ⟨honce, by omega, ?_⟩
  rw [PerfRun.result, h.firstError, hfailures]
  cases errorsOf history with
  | nil => rfl
  | cons error errors => rfl

section Runs

variable {plan : PerfPlan} {now : ℕ} {initError : Option Error}
  {turns : List (PerfRecord × Turn)} {last : LastTurn} {run : PerfRun}

/-- A run that gets to its summary has sent its records, committed what was open, and flushed. -/
theorem runRecords_eq_ok (hrun : runRecords plan now initError turns last = .ok run) :
    ∃ sent committed, sendRecords plan 0 turns (.start plan now) = .ok sent ∧
      sent.commitLast plan last = .ok committed ∧ committed.flush last = .ok run := by
  unfold runRecords at hrun
  split at hrun
  · cases hrun
  · simp only [bind_eq_ok] at hrun
    obtain ⟨sent, hsent, committed, hcommitted, hflush⟩ := hrun
    exact ⟨sent, committed, hsent, hcommitted, hflush⟩

theorem commitIfDue_open {turn : Turn} {after : PerfRun}
    (hrun : run.countRecord.commitIfDue plan turn = .ok after) :
    0 < after.transactionRecords ↔ turn.commits plan = false := by
  rw [Turn.commits]
  rw [PerfRun.commitIfDue] at hrun
  split_ifs at hrun with hdue
  · simp only [bind_eq_ok, pure_eq_ok] at hrun
    obtain ⟨deliveries, -, rfl⟩ := hrun
    simp [hdue]
  · obtain rfl := Except.ok.inj hrun
    have hcount : 0 < run.countRecord.transactionRecords := by
      show 0 < saturatingAdd run.transactionRecords 1
      rw [saturatingAdd]
      omega
    simp [hdue, hcount]

theorem sendRecord_open {index : ℕ} {record : PerfRecord} {turn : Turn} {after : PerfRun}
    (hrun : sendRecord plan run index record turn = .ok after) :
    0 < after.transactionRecords ↔ turn.commits plan = false := by
  rw [sendRecord, bind_eq_ok] at hrun
  obtain ⟨begun, -, hrun⟩ := hrun
  dsimp only at hrun
  split at hrun
  · cases hrun
  · exact commitIfDue_open hrun

/-- The last record decides whether a transaction is open. -/
theorem sendRecords_open {index : ℕ} {after : PerfRun}
    (hrun : sendRecords plan index turns run = .ok after) : 0 < after.transactionRecords ↔
      turns.getLast?.elim (0 < run.transactionRecords) fun entry => entry.2.commits plan = false := by
  induction turns generalizing index run with
  | nil =>
    obtain rfl := Except.ok.inj hrun
    rfl
  | cons entry turns ih =>
    obtain ⟨record, turn⟩ := entry
    rw [sendRecords, bind_eq_ok] at hrun
    obtain ⟨next, hfirst, hrest⟩ := hrun
    rw [ih hrest, List.getLast?_cons]
    cases turns.getLast? with
    | none => exact sendRecord_open hfirst
    | some entry => rfl

theorem endsOpen_iff {after : PerfRun}
    (hrun : sendRecords plan 0 turns (.start plan now) = .ok after) :
    (plan.transactionDuration.isSome ∧ 0 < after.transactionRecords) ↔
      endsOpen plan turns = true := by
  rw [sendRecords_open hrun, endsOpen, Bool.and_eq_true]
  cases turns.getLast? <;> simp [PerfRun.start]

/-- The end of the last transaction, and the flush. -/
theorem Balanced.finish {records : List PerfRecord} {entered : ℕ} {ledger : Ledger}
    {sent committed : PerfRun} (h : Balanced plan records entered ledger sent)
    (hbound : records.length < 2 ^ 63) (hentered : records.length ≤ entered)
    (hopen : (plan.transactionDuration.isSome ∧ 0 < sent.transactionRecords) ↔
      endsOpen plan turns = true)
    (hcommitted : sent.commitLast plan last = .ok committed)
    (hflush : committed.flush last = .ok run) :
    Balanced plan records entered
      (ledger.afterAll ((if endsOpen plan turns then callbacks last.committed else []) ++
        callbacks last.flushed)) run := by
  have hclosed : Balanced plan records entered
      (ledger.afterAll (if endsOpen plan turns then callbacks last.committed else []))
      committed := by
    unfold PerfRun.commitLast at hcommitted
    split_ifs at hcommitted with hcommits
    · simp only [bind_eq_ok, pure_eq_ok] at hcommitted
      obtain ⟨deliveries, hlast, rfl⟩ := hcommitted
      rw [if_pos (hopen.1 hcommits), hlast]
      exact (h.deliverAll hbound hentered deliveries).congr rfl rfl rfl
    · obtain rfl := Except.ok.inj hcommitted
      rw [if_neg fun hends => hcommits (hopen.2 hends)]
      exact h
  simp only [PerfRun.flush, bind_eq_ok, pure_eq_ok] at hflush
  obtain ⟨deliveries, hflushed, rfl⟩ := hflush
  rw [Ledger.afterAll_append, hflushed]
  exact (hclosed.deliverAll hbound hentered deliveries).congr rfl rfl rfl

/-- **The counters of a run.** They are those of the callbacks of the producer, in their order, each
with what was remembered of its record when it was sent. -/
theorem producerPerf_accounts (plan : PerfPlan) (now : ℕ) (initError : Option Error)
    (turns : List (PerfRecord × Turn)) (last : LastTurn) (run : PerfRun)
    (hrecords : turns.length = plan.numRecords) (hbound : plan.numRecords < 2 ^ 63)
    (hrun : runRecords plan now initError turns last = .ok run) (hflushed : run.outstanding = []) :
    ((historyOf (runEvents plan turns last)).map (·.delivery.index)).Perm
        (List.range plan.numRecords) ∧
      AccountedFor plan (turns.map Prod.fst) plan.numRecords
        (historyOf (runEvents plan turns last)) run ∧
      run.shared.total.count + run.shared.failures = plan.numRecords ∧
      run.result = resultOf (errorsOf (historyOf (runEvents plan turns last))) := by
  obtain ⟨sent, committed, hsent, hcommitted, hflush⟩ := runRecords_eq_ok hrun
  have hlength : (turns.map Prod.fst).length = plan.numRecords := by rw [List.length_map, hrecords]
  have hstart : Balanced plan [] 0 ⟨[], []⟩ (.start plan now) := ⟨rfl, accountedFor_start plan now⟩
  have hloop := hstart.sendRecords
    (by rw [hrecords, List.length_nil, Nat.zero_add]; exact hbound) hsent
  rw [List.nil_append, List.length_nil, Nat.zero_add, hrecords] at hloop
  have hend := hloop.finish (by omega) (by omega) (endsOpen_iff hsent) hcommitted hflush
  rw [← Ledger.afterAll_append, ← List.append_assoc] at hend
  have haccounted : AccountedFor plan (turns.map Prod.fst) plan.numRecords
      (historyOf (runEvents plan turns last)) run := hend.accounted
  obtain ⟨honce, hsum, hresult⟩ := haccounted.of_flushed (by omega) hflushed
  rw [hlength] at honce hsum
  exact ⟨honce, haccounted, hsum, hresult⟩

end Runs

/-- Two records, of which the first one is the warmup. -/
def samplePerfPlan : PerfPlan where
  numRecords := 2
  warmupRecords := 1
  reportingInterval := 5
  transactionDuration := some 7

def samplePerfRecord : PerfRecord := ⟨[65], none⟩

/-- The first record comes back while the queue is full for the second one, which is lost. -/
def sampleTurns : List (PerfRecord × Turn) :=
  [(samplePerfRecord, ⟨none, 0, 1, [], none, [], 1, .ok []⟩),
    (samplePerfRecord, ⟨none, 2, 3, [[⟨0, 9, none⟩]], none, [], 8, .ok [⟨1, 9, some "lost"⟩]⟩)]

def sampleLast : LastTurn := ⟨.ok [], .ok [], 10⟩

/-- The run up to its summary, where it is one. -/
def samplePerfRun : PerfRun :=
  ((runRecords samplePerfPlan 0 none sampleTurns sampleLast).toOption).getD (.start samplePerfPlan 0)

/-- The first record comes back, and then the second one, each with when it was sent. -/
theorem producerPerf_accounts_sample :
    let history := historyOf (runEvents samplePerfPlan sampleTurns sampleLast)
    history.map (fun returned => (returned.sent.started, returned.delivery)) =
        [(1, ⟨0, 9, none⟩), (3, ⟨1, 9, some "lost"⟩)] ∧
      (history.map (·.delivery.index)).Perm (List.range 2) ∧
      AccountedFor samplePerfPlan (sampleTurns.map Prod.fst) 2 history samplePerfRun ∧
      samplePerfRun.shared.total.count + samplePerfRun.shared.failures = 2 ∧
      samplePerfRun.result = resultOf (errorsOf history) :=
  ⟨by decide, producerPerf_accounts samplePerfPlan 0 none sampleTurns sampleLast samplePerfRun rfl
    (by decide) rfl rfl⟩

example : samplePerfRun.result = .error (.config "1 record deliveries failed: lost") := rfl

/-! ## Transactions -/

/-- The call that sends a record with its index. -/
def sendCall (entry : PerfRecord × ℕ) : ProducerCall := .send entry.2 entry.1

/-- The calls of a transaction. -/
def transactionCalls (entries : List (PerfRecord × ℕ)) : List ProducerCall :=
  .beginTransaction :: entries.map sendCall ++ [.commitTransaction]

/-- The calls of a transaction that is still open. -/
def openCalls : List (PerfRecord × ℕ) → List ProducerCall
  | [] => []
  | entry :: entries => .beginTransaction :: sendCall entry :: entries.map sendCall

/-- The records are in transactions, of which the last one may be open. -/
structure Bracketed (records : List PerfRecord) (closed : List (List (PerfRecord × ℕ)))
    (current : List (PerfRecord × ℕ)) (run : PerfRun) : Prop where
  cut : closed.flatten ++ current = records.zipIdx
  nonempty : ∀ entries ∈ closed, entries ≠ []
  count : run.transactionRecords = current.length
  calls : run.calls = .initTransactions :: closed.flatMap transactionCalls ++ openCalls current

section Transactions

variable {plan : PerfPlan} {run after : PerfRun} {records : List PerfRecord}
  {closed : List (List (PerfRecord × ℕ))} {current : List (PerfRecord × ℕ)}

/-- What comes back is no call. -/
theorem deliver_calls (run : PerfRun) (delivery : Delivery) :
    (run.deliver delivery).calls = run.calls ∧
      (run.deliver delivery).transactionRecords = run.transactionRecords := by
  unfold PerfRun.deliver
  split
  · exact ⟨rfl, rfl⟩
  · exact ⟨rfl, rfl⟩

theorem deliverAll_calls (run : PerfRun) (deliveries : List Delivery) :
    (run.deliverAll deliveries).calls = run.calls ∧
      (run.deliverAll deliveries).transactionRecords = run.transactionRecords := by
  induction deliveries generalizing run with
  | nil => exact ⟨rfl, rfl⟩
  | cons delivery deliveries ih =>
    obtain ⟨hcalls, hcount⟩ := ih (run.deliver delivery)
    exact ⟨hcalls.trans (deliver_calls run delivery).1, hcount.trans (deliver_calls run delivery).2⟩

theorem polls_calls (run : PerfRun) (full : List (List Delivery)) :
    (full.foldl PerfRun.deliverAll run).calls = run.calls ∧
      (full.foldl PerfRun.deliverAll run).transactionRecords = run.transactionRecords := by
  induction full generalizing run with
  | nil => exact ⟨rfl, rfl⟩
  | cons deliveries full ih =>
    obtain ⟨hcalls, hcount⟩ := ih (run.deliverAll deliveries)
    exact ⟨hcalls.trans (deliverAll_calls run deliveries).1,
      hcount.trans (deliverAll_calls run deliveries).2⟩

theorem enterSteadyState_calls (plan : PerfPlan) (run : PerfRun) (turn : Turn) (index : ℕ) :
    (run.enterSteadyState plan turn index).calls = run.calls ∧
      (run.enterSteadyState plan turn index).transactionRecords = run.transactionRecords := by
  unfold PerfRun.enterSteadyState
  split_ifs
  · exact ⟨rfl, rfl⟩
  · exact ⟨rfl, rfl⟩

/-- The end of the transaction that is open. -/
theorem Bracketed.commit (h : Bracketed records closed current run) (hne : current ≠ [])
    (hcalls : after.calls = run.calls ++ [.commitTransaction])
    (hcount : after.transactionRecords = 0) : Bracketed records (closed ++ [current]) [] after where
  cut := by simp [← h.cut]
  nonempty := by
    intro entries hentries
    rcases List.mem_append.1 hentries with hmem | hmem
    · exact h.nonempty entries hmem
    · rw [List.mem_singleton.1 hmem]
      exact hne
  count := hcount
  calls := by
    rw [hcalls, h.calls, List.flatMap_append, List.flatMap_singleton]
    obtain ⟨entry, entries, rfl⟩ := List.exists_cons_of_ne_nil hne
    simp [openCalls, transactionCalls]

/-- What one pass of the loop asks of the producer. -/
theorem sendRecord_calls {index : ℕ} {record : PerfRecord} {turn : Turn}
    (hrun : sendRecord plan run index record turn = .ok after) :
    ∃ begun sent : List ProducerCall,
      (begun = if plan.transactionDuration.isSome ∧ run.transactionRecords = 0
        then [.beginTransaction] else []) ∧
      sent = run.calls ++ begun ++ [.send index record] ∧
      ((plan.transactionDuration.isSome ∧ after.calls = sent ++ [.commitTransaction] ∧
          after.transactionRecords = 0) ∨
        (after.calls = sent ∧
          after.transactionRecords = saturatingAdd run.transactionRecords 1)) := by
  rw [sendRecord, bind_eq_ok] at hrun
  obtain ⟨begun, hbegun, hrun⟩ := hrun
  have hbegin : begun.calls = run.calls ++ (if plan.transactionDuration.isSome ∧
      run.transactionRecords = 0 then [.beginTransaction] else []) ∧
        begun.transactionRecords = run.transactionRecords := by
    unfold PerfRun.beginTransaction at hbegun
    split_ifs at hbegun ⊢
    · split at hbegun
      · cases hbegun
      · obtain rfl := Except.ok.inj hbegun
        exact ⟨rfl, rfl⟩
    · obtain rfl := Except.ok.inj hbegun
      exact ⟨(List.append_nil _).symm, rfl⟩
  dsimp only at hrun
  split at hrun
  · cases hrun
  · generalize hfull : turn.full.foldl PerfRun.deliverAll
      (begun.enterSteadyState plan turn index) = polled at hrun
    have hpolled : polled.calls = begun.calls ∧
        polled.transactionRecords = begun.transactionRecords := by
      obtain ⟨hcalls, hcount⟩ := polls_calls (begun.enterSteadyState plan turn index) turn.full
      obtain ⟨hcalls', hcount'⟩ := enterSteadyState_calls plan begun turn index
      rw [← hfull]
      exact ⟨hcalls.trans hcalls', hcount.trans hcount'⟩
    generalize hsent : ((polled.send plan turn index record).deliverAll turn.polled).countRecord =
      sent at hrun
    have hcounted : sent.calls = polled.calls ++ [.send index record] ∧
        sent.transactionRecords = saturatingAdd polled.transactionRecords 1 := by
      obtain ⟨hcalls, hcount⟩ := deliverAll_calls (polled.send plan turn index record) turn.polled
      rw [← hsent]
      exact ⟨hcalls, congrArg (saturatingAdd · 1) hcount⟩
    rw [hpolled.1, hpolled.2, hbegin.1, hbegin.2] at hcounted
    refine ⟨_, _, rfl, rfl, ?_⟩
    unfold PerfRun.commitIfDue at hrun
    split_ifs at hrun with hdue
    · simp only [bind_eq_ok, pure_eq_ok] at hrun
      obtain ⟨deliveries, -, rfl⟩ := hrun
      have htransactions : plan.transactionDuration.isSome := by
        cases hduration : plan.transactionDuration with
        | none => simp [hduration] at hdue
        | some duration => rfl
      refine .inl ⟨htransactions, ?_, rfl⟩
      rw [← hcounted.1, ← (deliverAll_calls sent deliveries).1]
    · obtain rfl := Except.ok.inj hrun
      exact .inr hcounted

/-- **One pass of the loop** sends a record in a transaction. -/
theorem Bracketed.sendRecord (h : Bracketed records closed current run)
    (htransactions : plan.transactionDuration.isSome) (hbound : records.length + 1 < 2 ^ 63)
    {record : PerfRecord} {turn : Turn}
    (hrun : sendRecord plan run records.length record turn = .ok after) :
    ∃ closed' current', Bracketed (records ++ [record]) closed' current' after := by
  obtain ⟨begun, sent, rfl, rfl, hend⟩ := sendRecord_calls hrun
  have hlength : current.length ≤ records.length := by
    have hsum := congrArg List.length h.cut
    rw [List.length_append, List.length_zipIdx] at hsum
    omega
  have hnew : Bracketed (records ++ [record]) closed (current ++ [(record, records.length)])
      { run with
        calls := run.calls ++ (if plan.transactionDuration.isSome ∧ run.transactionRecords = 0
          then [.beginTransaction] else []) ++ [.send records.length record]
        transactionRecords := saturatingAdd run.transactionRecords 1 } := by
    refine ⟨?_, h.nonempty, ?_, ?_⟩
    · rw [← List.append_assoc, h.cut, List.zipIdx_append]
      simp
    · show saturatingAdd run.transactionRecords 1 = _
      rw [h.count, saturatingAdd, List.length_append, List.length_singleton]
      omega
    · show run.calls ++ _ ++ _ = _
      rw [h.calls, h.count]
      cases current with
      | nil => simp [htransactions, openCalls, sendCall]
      | cons entry entries => simp [openCalls, sendCall]
  rcases hend with ⟨-, hcalls, hcount⟩ | ⟨hcalls, hcount⟩
  · exact ⟨_, _, hnew.commit (by simp) hcalls hcount⟩
  · exact ⟨_, _, hnew.cut, hnew.nonempty, hcount.trans hnew.count, hcalls.trans hnew.calls⟩

/-- The loop. -/
theorem Bracketed.sendRecords {turns : List (PerfRecord × Turn)}
    (h : Bracketed records closed current run) (htransactions : plan.transactionDuration.isSome)
    (hbound : records.length + turns.length < 2 ^ 63)
    (hrun : sendRecords plan records.length turns run = .ok after) :
    ∃ closed' current', Bracketed (records ++ turns.map Prod.fst) closed' current' after := by
  induction turns generalizing records closed current run with
  | nil =>
    obtain rfl := Except.ok.inj hrun
    exact ⟨closed, current, by simpa using h⟩
  | cons entry turns ih =>
    obtain ⟨record, turn⟩ := entry
    rw [List.length_cons] at hbound
    rw [Perf.sendRecords, bind_eq_ok] at hrun
    obtain ⟨next, hfirst, hrest⟩ := hrun
    obtain ⟨closed', current', hnext⟩ := h.sendRecord htransactions (by omega) hfirst
    have hlength : (records ++ [record]).length = records.length + 1 := by simp
    rw [← hlength] at hrest
    obtain ⟨closed'', current'', hafter⟩ := ih hnext (by omega) hrest
    rw [List.append_assoc] at hafter
    exact ⟨closed'', current'', hafter⟩

/-- **The transactions of a run.** -/
theorem producerPerf_transactions (plan : PerfPlan) (now : ℕ) (initError : Option Error)
    (turns : List (PerfRecord × Turn)) (last : LastTurn) (run : PerfRun)
    (htransactions : plan.transactionDuration.isSome) (hbound : turns.length < 2 ^ 63)
    (hrun : runRecords plan now initError turns last = .ok run) :
    ∃ transactions : List (List (PerfRecord × ℕ)), (∀ entries ∈ transactions, entries ≠ []) ∧
      transactions.flatten = (turns.map Prod.fst).zipIdx ∧
      run.calls = .initTransactions :: transactions.flatMap transactionCalls ++ [.flush] := by
  obtain ⟨sent, committed, hsent, hcommitted, hflush⟩ := runRecords_eq_ok hrun
  have hstart : Bracketed [] [] [] (.start plan now) :=
    ⟨rfl, fun _ h => absurd h List.not_mem_nil, rfl,
      by simp [PerfRun.start, htransactions, openCalls]⟩
  obtain ⟨closed, current, h⟩ := hstart.sendRecords htransactions
    (by rwa [List.length_nil, Nat.zero_add]) hsent
  rw [List.nil_append] at h
  simp only [PerfRun.flush, bind_eq_ok, pure_eq_ok] at hflush
  obtain ⟨deliveries, -, rfl⟩ := hflush
  have hend : ∃ transactions, Bracketed (turns.map Prod.fst) transactions []
      { committed with transactionRecords := 0 } := by
    unfold PerfRun.commitLast at hcommitted
    split_ifs at hcommitted with hopen
    · simp only [bind_eq_ok, pure_eq_ok] at hcommitted
      obtain ⟨deliveries, -, rfl⟩ := hcommitted
      have hne : current ≠ [] := by
        intro hnil
        rw [h.count, hnil] at hopen
        exact absurd hopen.2 (Nat.lt_irrefl 0)
      exact ⟨_, h.commit hne
        (congrArg (· ++ [.commitTransaction]) (deliverAll_calls sent deliveries).1) rfl⟩
    · obtain rfl := Except.ok.inj hcommitted
      have hnil : current = [] := by
        by_contra hne
        exact hopen ⟨htransactions, h.count ▸ List.length_pos_of_ne_nil hne⟩
      subst hnil
      exact ⟨closed, h.cut, h.nonempty, rfl, h.calls⟩
  obtain ⟨transactions, hdone⟩ := hend
  refine ⟨transactions, hdone.nonempty, by simpa using hdone.cut, ?_⟩
  show (committed.deliverAll deliveries).calls ++ [.flush] = _
  have hcalls : committed.calls =
      .initTransactions :: transactions.flatMap transactionCalls ++ openCalls [] := hdone.calls
  rw [(deliverAll_calls committed deliveries).1, hcalls]
  simp [openCalls]

end Transactions

theorem producerPerf_transactions_sample :
    ∃ transactions : List (List (PerfRecord × ℕ)), (∀ entries ∈ transactions, entries ≠ []) ∧
      transactions.flatten = (sampleTurns.map Prod.fst).zipIdx ∧
      samplePerfRun.calls =
        .initTransactions :: transactions.flatMap transactionCalls ++ [.flush] :=
  producerPerf_transactions samplePerfPlan 0 none sampleTurns sampleLast samplePerfRun rfl (by decide)
    rfl

end KafkaCli.Perf
