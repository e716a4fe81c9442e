import KafkaCli.Error
import KafkaCli.Lib.MachineInt
import KafkaCli.Perf.ProducerStats
import Mathlib.Algebra.Order.Group.Int
import Mathlib.Data.List.Range

/-!
# The verifiable producer

`verifiable_producer` starts a task for each message, which sends it and writes an event about what
has become of it. The tasks end in any order and at any time; the main loop joins those that have
ended before it sends the next message, and all of them at the end. A signal may come whenever the
loop looks for it.

**Theorem (`verifiableProducer_accounts`).** Whatever the order is, no message is written about
twice. If the run gets to its end, there is one event for each message that was sent, between
`startup_complete` and `shutdown_complete`, and `tool_data` says how many were sent and how many of
the events are successes. Without a signal all the messages have been sent.
-/

namespace KafkaCli.Verifiable

open Perf (saturatingAdd saturatingAdd_of_lt)

/-! ## The algorithm -/

/-- The arguments that the loop uses. -/
structure VerifiableProducerArgs where
  topic : String
  maxMessages : Int
  throughput : Int
  messageCreateTime : Int
  valuePrefix : Option Int
  repeatingKeys : Option Int
  deriving DecidableEq, Repr

def verifiableValue (front : Option Int) (index : ℕ) : String :=
  match front with
  | none => toString index
  | some front => s!"{front}.{index}"

/-- The key of the next message, and the counter after it. -/
def verifiableKey (repeatingKeys : Option Int) (counter : Int) : Option String × Int :=
  match repeatingKeys with
  | none => (none, counter)
  | some limit =>
    let next := saturate32 (counter + 1)
    (some (toString counter), if next = limit then 0 else next)

/-- A message that a task sends. -/
structure Sending where
  key : Option String
  value : String
  timestamp : Option Int
  deriving DecidableEq, Repr

/-- What is written, apart from the time of it. -/
inductive ProducerEvent
  | startupComplete
  | sendSuccess (key : Option String) (value topic : String) (partition offset : Int)
  | sendError (key : Option String) (value topic message : String)
  | shutdownComplete
  | toolData (sent acked : ℕ) (targetThroughput : Int)
  deriving DecidableEq, Repr

/-- What becomes of a task: the message is delivered or not, and the event can be written or not;
or the task ends without a result. -/
inductive TaskOutcome
  | delivered (partition offset : Int) (written : Result Unit)
  | refused (message : String) (written : Result Unit)
  | lost (message : String)
  deriving DecidableEq, Repr

/-- `print_verifiable_delivery`, and what the loop reads when it joins the task. -/
def printVerifiableDelivery (topic : String) (sending : Sending) :
    TaskOutcome → List ProducerEvent × Result Bool
  | .delivered partition offset (.ok ()) =>
    ([.sendSuccess sending.key sending.value topic partition offset], .ok true)
  | .refused message (.ok ()) => ([.sendError sending.key sending.value topic message], .ok false)
  | .delivered _ _ (.error error) | .refused _ (.error error) => ([], .error error)
  | .lost message => ([], .error (.config ("verifiable producer task failed: " ++ message)))

/-- Where the main loop is. -/
inductive ProducerPhase
  /-- It joins what has ended before the message of this index. -/
  | joining (index : ℕ)
  /-- It looks for a signal. -/
  | selecting (index : ℕ)
  /-- It sleeps behind the message of this index. -/
  | pacing (index : ℕ)
  /-- It waits for a signal, since the throughput is 0. -/
  | waiting
  /-- It joins the rest. -/
  | draining
  | closing
  | reporting
  | done
  | failed (error : Error)
  deriving DecidableEq, Repr

structure ProducerRun where
  phase : ProducerPhase
  sent : ℕ
  acked : ℕ
  keyCounter : Int
  createTime : Option Int
  /-- The messages of the tasks that have not ended. -/
  running : List Sending
  /-- The tasks that have ended and are not joined. -/
  finished : List (Result Bool)
  events : List ProducerEvent
  deriving DecidableEq, Repr

/-- What happens next: a task ends, or the main loop takes a step, for the time, for whether a
signal has come, and for what comes of a write. -/
inductive ProducerInput
  | task (place : ℕ) (outcome : TaskOutcome)
  | main (now : Int) (signal : Bool) (written : Result Unit)

def ProducerInput.signals : ProducerInput → Bool
  | .task _ _ => false
  | .main _ signal _ => signal

/-- `max_messages` of the loop. -/
def maxMessages (args : VerifiableProducerArgs) : ℕ :=
  if args.maxMessages < 0 then 2 ^ 64 - 1 else args.maxMessages.toNat

/-- The run in front of its loop. -/
def ProducerRun.start (args : VerifiableProducerArgs) : ProducerRun where
  phase := .joining 0
  sent := 0
  acked := 0
  keyCounter := 0
  createTime := if args.messageCreateTime = -1 then none else some args.messageCreateTime
  running := []
  finished := []
  events := [.startupComplete]

/-- A task is joined. -/
def ProducerRun.join (run : ProducerRun) (rest : List (Result Bool)) :
    Result Bool → ProducerRun
  | .ok true => { run with finished := rest, acked := saturatingAdd run.acked 1 }
  | .ok false => { run with finished := rest }
  | .error error => { run with finished := rest, phase := .failed error }

/-- A task is started for the message of this index. -/
def ProducerRun.send (args : VerifiableProducerArgs) (startedMs now : Int) (index : ℕ)
    (run : ProducerRun) : ProducerRun :=
  { run with
    phase :=
      if args.throughput = 0 ∧ 0 < index then .waiting
      else if 0 < args.throughput then .pacing index
      else .joining (index + 1)
    sent := saturatingAdd run.sent 1
    keyCounter := (verifiableKey args.repeatingKeys run.keyCounter).2
    createTime := run.createTime.map fun time =>
      saturate64 (time + saturate64 (now - startedMs))
    running := run.running ++
      [⟨(verifiableKey args.repeatingKeys run.keyCounter).1,
        verifiableValue args.valuePrefix index, run.createTime⟩] }

/-- One step of the main loop. -/
def ProducerRun.advance (args : VerifiableProducerArgs) (startedMs : Int) (run : ProducerRun)
    (now : Int) (signal : Bool) (written : Result Unit) : ProducerRun :=
  match run.phase with
  | .joining index =>
    if maxMessages args ≤ index then { run with phase := .draining }
    else match run.finished with
      | [] => { run with phase := .selecting index }
      | result :: rest => run.join rest result
  | .selecting index =>
    if signal then { run with phase := .draining } else run.send args startedMs now index
  | .pacing index =>
    if signal then { run with phase := .draining }
    else { run with phase := .joining (index + 1) }
  | .waiting => if signal then { run with phase := .draining } else run
  | .draining =>
    match run.finished with
    | result :: rest => run.join rest result
    | [] => if run.running = [] then { run with phase := .closing } else run
  | .closing =>
    match written with
    | .ok () => { run with phase := .reporting, events := run.events ++ [.shutdownComplete] }
    | .error error => { run with phase := .failed error }
  | .reporting =>
    match written with
    | .ok () => { run with
        phase := .done
        events := run.events ++ [.toolData run.sent run.acked args.throughput] }
    | .error error => { run with phase := .failed error }
  | .done | .failed _ => run

/-- A task ends, if there is such a task. -/
def ProducerRun.endTask (args : VerifiableProducerArgs) (run : ProducerRun) (place : ℕ)
    (outcome : TaskOutcome) : ProducerRun :=
  match run.running[place]? with
  | none => run
  | some sending =>
    { run with
      running := run.running.eraseIdx place
      finished := run.finished ++ [(printVerifiableDelivery args.topic sending outcome).2]
      events := run.events ++ (printVerifiableDelivery args.topic sending outcome).1 }

def ProducerRun.step (args : VerifiableProducerArgs) (startedMs : Int) (run : ProducerRun) :
    ProducerInput → ProducerRun
  | .task place outcome => run.endTask args place outcome
  | .main now signal written => run.advance args startedMs now signal written

/-- `verifiable_producer` behind the event that it has started. -/
def verifiableProducer (args : VerifiableProducerArgs) (startedMs : Int)
    (inputs : List ProducerInput) : ProducerRun :=
  inputs.foldl (ProducerRun.step args startedMs) (.start args)

/-! ## Keys -/

/-- The number in the key of the message with this index. -/
def keyNumber (limit : Int) (index : ℕ) : Int :=
  if 0 < limit then index % limit else min index (2 ^ 31 - 1)

/-- **The keys go round** below a positive limit, and stop at the greatest number without one. -/
theorem verifiableKey_keyNumber {limit : Int} (hlimit : limit < 2 ^ 31) (index : ℕ) :
    verifiableKey (some limit) (keyNumber limit index) =
      (some (toString (keyNumber limit index)), keyNumber limit (index + 1)) := by
  rw [verifiableKey]
  refine congrArg (Prod.mk _) ?_
  by_cases hpos : 0 < limit
  · have hnonneg : 0 ≤ (index : Int) % limit := Int.emod_nonneg _ (by omega)
    have hbelow : (index : Int) % limit < limit := Int.emod_lt_of_pos _ hpos
    have hsaturate : saturate32 ((index : Int) % limit + 1) = (index : Int) % limit + 1 := by
      rw [saturate32]
      omega
    have hnext : ((index : Int) + 1) % limit = ((index : Int) % limit + 1) % limit :=
      (Int.emod_add_emod ..).symm
    rw [keyNumber, keyNumber, if_pos hpos, if_pos hpos, hsaturate, Int.natCast_succ, hnext]
    by_cases hlast : (index : Int) % limit + 1 = limit
    · rw [if_pos hlast, hlast, Int.emod_self]
    · rw [if_neg hlast]
      exact (Int.emod_eq_of_lt (by omega) (by omega)).symm
  · rw [keyNumber, keyNumber, if_neg hpos, if_neg hpos, saturate32, if_neg (by omega)]
    omega

/-- The key and the value of the message with this index. -/
def message (args : VerifiableProducerArgs) (index : ℕ) : Option String × String :=
  (args.repeatingKeys.map fun limit => toString (keyNumber limit index),
    verifiableValue args.valuePrefix index)

/-- The counter is that of the next message. -/
def CountsKeys (args : VerifiableProducerArgs) (run : ProducerRun) : Prop :=
  ∀ limit ∈ args.repeatingKeys, run.keyCounter = keyNumber limit run.sent

theorem verifiableKey_message {args : VerifiableProducerArgs} {run : ProducerRun}
    (hkeys : ∀ limit ∈ args.repeatingKeys, limit < 2 ^ 31) (h : CountsKeys args run) :
    ((verifiableKey args.repeatingKeys run.keyCounter).1,
        verifiableValue args.valuePrefix run.sent) = message args run.sent ∧
      ∀ limit ∈ args.repeatingKeys,
        (verifiableKey args.repeatingKeys run.keyCounter).2 = keyNumber limit (run.sent + 1) := by
  rw [message]
  cases hrepeating : args.repeatingKeys with
  | none => exact ⟨rfl, fun limit hlimit => by cases hlimit⟩
  | some limit =>
    rw [h limit hrepeating, verifiableKey_keyNumber (hkeys limit hrepeating)]
    refine ⟨rfl, fun limit' hlimit' => ?_⟩
    obtain rfl := Option.some.inj hlimit'
    rfl

/-! ## What becomes of the messages -/

/-- The message that an event is about. -/
def ProducerEvent.content : ProducerEvent → Option (Option String × String)
  | .sendSuccess key value _ _ _ | .sendError key value _ _ => some (key, value)
  | .startupComplete | .shutdownComplete | .toolData _ _ _ => none

def ProducerEvent.isSuccess : ProducerEvent → Bool
  | .sendSuccess _ _ _ _ _ => true
  | _ => false

def Sending.content (sending : Sending) : Option String × String := (sending.key, sending.value)

/-- The messages that there are events about. -/
def reported (events : List ProducerEvent) : List (Option String × String) :=
  events.filterMap ProducerEvent.content

theorem reported_append (events events' : List ProducerEvent) :
    reported (events ++ events') = reported events ++ reported events' :=
  List.filterMap_append

/-- The messages of the tasks that have ended without an event are `lost`. -/
structure Ledger (args : VerifiableProducerArgs) (run : ProducerRun) (lost : List Sending) :
    Prop where
  accounted : (reported run.events ++ (run.running ++ lost).map Sending.content).Perm
    ((List.range run.sent).map (message args))
  acked : run.acked + run.finished.count (.ok true) = run.events.countP ProducerEvent.isSuccess
  lost : (∃ error, run.phase = .failed error) ∨ (∃ error, .error error ∈ run.finished) ∨ lost = []

section Ledger

variable {args : VerifiableProducerArgs} {run : ProducerRun} {lost : List Sending}

theorem countP_isSuccess_le (events : List ProducerEvent) :
    events.countP ProducerEvent.isSuccess ≤ (reported events).length := by
  rw [reported, List.length_filterMap_eq_countP]
  refine List.countP_mono_left fun event _ hsuccess => ?_
  cases event with
  | sendSuccess key value topic partition offset => rfl
  | _ => cases hsuccess

theorem Ledger.reported_le (h : Ledger args run lost) :
    run.events.countP ProducerEvent.isSuccess ≤ run.sent := by
  have hlength := h.accounted.length_eq
  have hcount := countP_isSuccess_le run.events
  simp only [List.length_append, List.length_map, List.length_range] at hlength
  omega

/-- An ended task has an event, or it is lost with an error. -/
theorem printVerifiableDelivery_cases (topic : String) (sending : Sending)
    (outcome : TaskOutcome) :
    (∃ event acked, printVerifiableDelivery topic sending outcome = ([event], .ok acked) ∧
      event.content = some sending.content ∧ event.isSuccess = acked) ∨
    ∃ error, printVerifiableDelivery topic sending outcome = ([], .error error) := by
  cases outcome with
  | delivered partition offset written =>
    cases written with
    | ok written => exact .inl ⟨_, true, rfl, rfl, rfl⟩
    | error error => exact .inr ⟨error, rfl⟩
  | refused message written =>
    cases written with
    | ok written => exact .inl ⟨_, false, rfl, rfl, rfl⟩
    | error error => exact .inr ⟨error, rfl⟩
  | lost message => exact .inr ⟨_, rfl⟩

theorem Ledger.endTask (h : Ledger args run lost) (place : ℕ) (outcome : TaskOutcome) :
    ∃ lost', Ledger args (run.endTask args place outcome) lost' := by
  rw [ProducerRun.endTask]
  cases hget : run.running[place]? with
  | none => exact ⟨lost, h⟩
  | some sending =>
    have hsplit : run.running.Perm (sending :: run.running.eraseIdx place) := by
      obtain ⟨hplace, rfl⟩ := List.getElem?_eq_some_iff.1 hget
      exact (List.getElem_cons_eraseIdx_perm hplace).symm
    dsimp only
    rcases printVerifiableDelivery_cases args.topic sending outcome with
      ⟨event, acked, hprint, hcontent, hsuccess⟩ | ⟨error, hprint⟩
    · rw [hprint]
      refine ⟨lost, ⟨?_, ?_, ?_⟩⟩
      · refine List.Perm.trans ?_ h.accounted
        have hevent : reported [event] = [sending.content] := by
          rw [reported, List.filterMap_cons, hcontent]
          rfl
        rw [reported_append, hevent, List.append_assoc]
        refine List.Perm.append_left _ ?_
        rw [List.singleton_append, ← List.map_cons, ← List.cons_append]
        exact ((hsplit.append_right lost).map _).symm
      · have hacked := h.acked
        cases acked <;> simp [List.count_append, List.countP_append, hsuccess] <;> omega
      · rcases h.lost with hfailed | ⟨error, hmem⟩ | hnil
        · exact .inl hfailed
        · exact .inr (.inl ⟨error, List.mem_append_left _ hmem⟩)
        · exact .inr (.inr hnil)
    · rw [hprint]
      refine ⟨sending :: lost, ⟨?_, ?_, ?_⟩⟩
      · refine List.Perm.trans ?_ h.accounted
        rw [List.append_nil]
        refine List.Perm.append_left _ (List.Perm.map _ ?_)
        exact List.perm_middle.trans (hsplit.symm.append_right lost)
      · have hacked := h.acked
        simp [List.count_append] at hacked ⊢
        exact hacked
      · exact .inr (.inl ⟨error, List.mem_append_right _ (List.mem_singleton_self _)⟩)

theorem Ledger.join (h : Ledger args run lost) {result : Result Bool} {rest : List (Result Bool)}
    (hfinished : run.finished = result :: rest) (hbound : run.sent < 2 ^ 64) :
    Ledger args (run.join rest result) lost := by
  have hacked := h.acked
  have hreported := h.reported_le
  rw [hfinished, List.count_cons] at hacked
  cases result with
  | error error => exact ⟨h.accounted, by simpa [ProducerRun.join] using hacked, .inl ⟨error, rfl⟩⟩
  | ok acked =>
    have hlost : (∃ error, run.phase = .failed error) ∨ (∃ error, .error error ∈ rest) ∨
        lost = [] := by
      rcases h.lost with hfailed | ⟨error, hmem⟩ | hnil
      · exact .inl hfailed
      · rw [hfinished, List.mem_cons] at hmem
        rcases hmem with hmem | hmem
        · cases hmem
        · exact .inr (.inl ⟨error, hmem⟩)
      · exact .inr (.inr hnil)
    cases acked with
    | false => exact ⟨h.accounted, by simpa [ProducerRun.join] using hacked, hlost⟩
    | true =>
      refine ⟨h.accounted, ?_, hlost⟩
      rw [beq_self_eq_true, if_pos rfl] at hacked
      show saturatingAdd run.acked 1 + rest.count (.ok true) =
        run.events.countP ProducerEvent.isSuccess
      rw [saturatingAdd_of_lt (by omega)]
      omega

theorem Ledger.send (h : Ledger args run lost)
    (hkeys : ∀ limit ∈ args.repeatingKeys, limit < 2 ^ 31) (hcounts : CountsKeys args run)
    (startedMs now : Int) (hbound : run.sent + 1 < 2 ^ 64)
    (hopen : ∀ error, run.phase ≠ .failed error) :
    Ledger args (run.send args startedMs now run.sent) lost ∧
      CountsKeys args (run.send args startedMs now run.sent) := by
  obtain ⟨hmessage, hnext⟩ := verifiableKey_message hkeys hcounts
  obtain ⟨sending, hsending⟩ : ∃ sending : Sending, sending =
      ⟨(verifiableKey args.repeatingKeys run.keyCounter).1,
        verifiableValue args.valuePrefix run.sent, run.createTime⟩ := ⟨_, rfl⟩
  have hcontent : sending.content = message args run.sent := by
    rw [hsending]
    exact hmessage
  have hrunning : (run.send args startedMs now run.sent).running = run.running ++ [sending] := by
    rw [hsending]
    rfl
  have hsent : (run.send args startedMs now run.sent).sent = run.sent + 1 :=
    saturatingAdd_of_lt hbound
  refine ⟨⟨?_, h.acked, ?_⟩, ?_⟩
  · have hrange : (List.range (run.sent + 1)).map (message args) =
        (List.range run.sent).map (message args) ++ [message args run.sent] := by
      rw [List.range_succ, List.map_append, List.map_singleton]
    have hmoved : (((run.running ++ [sending]) ++ lost).map Sending.content).Perm
        ((run.running ++ lost).map Sending.content ++ [message args run.sent]) := by
      rw [← hcontent, List.append_assoc, List.map_append, List.map_append, List.map_append,
        List.append_assoc]
      exact List.Perm.append_left _ List.perm_append_comm
    rw [hsent, hrange, hrunning]
    refine List.Perm.trans ?_ (h.accounted.append_right _)
    rw [List.append_assoc (reported run.events)]
    exact hmoved.append_left _
  · rcases h.lost with ⟨error, hfailed⟩ | hrest
    · exact absurd hfailed (hopen error)
    · exact .inr hrest
  · intro limit hlimit
    rw [hsent]
    exact hnext limit hlimit

/-- An event about the run. -/
theorem Ledger.note (h : Ledger args run lost) {event : ProducerEvent}
    (hcontent : event.content = none) (hopen : ∀ error, run.phase ≠ .failed error)
    (phase : ProducerPhase) :
    Ledger args { run with phase, events := run.events ++ [event] } lost := by
  have hreported : reported (run.events ++ [event]) = reported run.events := by
    rw [reported_append]
    simp [reported, hcontent]
  have hsuccess : event.isSuccess = false := by cases event <;> simp_all [ProducerEvent.content,
    ProducerEvent.isSuccess]
  refine ⟨?_, ?_, ?_⟩
  · show (reported (run.events ++ [event]) ++ _).Perm _
    rw [hreported]
    exact h.accounted
  · rw [List.countP_append, List.countP_singleton, if_neg (by rw [hsuccess]; decide)]
    exact h.acked
  · rcases h.lost with ⟨error, hfailed⟩ | hrest
    · exact absurd hfailed (hopen error)
    · exact .inr hrest

end Ledger

/-! ## Where the loop is -/

/-- The loop has ended. -/
structure Stopped (args : VerifiableProducerArgs) (quiet : Prop) (run : ProducerRun) : Prop where
  bound : run.sent ≤ maxMessages args
  few : args.throughput = 0 → run.sent ≤ 2
  all : quiet → run.sent = maxMessages args

/-- How many messages have been sent, for where the loop is. -/
def Placed (args : VerifiableProducerArgs) (quiet : Prop) (run : ProducerRun) : Prop :=
  match run.phase with
  | .joining index =>
    run.sent = index ∧ index ≤ maxMessages args ∧ (args.throughput = 0 → index ≤ 1)
  | .selecting index =>
    run.sent = index ∧ index < maxMessages args ∧ (args.throughput = 0 → index ≤ 1)
  | .pacing index => run.sent = index + 1 ∧ index < maxMessages args ∧ args.throughput ≠ 0
  | .waiting => run.sent ≤ maxMessages args ∧ run.sent ≤ 2
  | .draining => Stopped args quiet run
  | .closing | .reporting | .done =>
    Stopped args quiet run ∧ run.running = [] ∧ run.finished = []
  | .failed _ => run.sent ≤ maxMessages args

/-- The events are about messages between those about the run. -/
def Told (args : VerifiableProducerArgs) (run : ProducerRun) : Prop :=
  ∃ reports, (∀ event ∈ reports, event.content.isSome = true) ∧
    match run.phase with
    | .failed _ => True
    | .reporting => run.events = .startupComplete :: reports ++ [.shutdownComplete]
    | .done => run.events = .startupComplete :: reports ++
        [.shutdownComplete, .toolData run.sent run.acked args.throughput]
    | _ => run.events = .startupComplete :: reports

/-- What holds in every order. -/
structure Kept (args : VerifiableProducerArgs) (quiet : Prop) (run : ProducerRun) : Prop where
  ledger : ∃ lost, Ledger args run lost
  counts : CountsKeys args run
  placed : Placed args quiet run
  told : Told args run

section Kept

variable {args : VerifiableProducerArgs} {quiet : Prop} {run : ProducerRun}

theorem maxMessages_lt (hmax : args.maxMessages < 2 ^ 31) : maxMessages args < 2 ^ 64 := by
  rw [maxMessages]
  split_ifs <;> omega

theorem Placed.bound (h : Placed args quiet run) : run.sent ≤ maxMessages args := by
  unfold Placed at h
  split at h
  · omega
  · omega
  · omega
  · exact h.1
  · exact h.bound
  · exact h.1.bound
  · exact h.1.bound
  · exact h.1.bound
  · exact h

/-- A step of the loop that changes only where it is, among the places where events are about
messages. -/
theorem Kept.move (h : Kept args quiet run) (phase : ProducerPhase)
    (hopen : ∀ error, run.phase ≠ .failed error)
    (hplaced : Placed args quiet { run with phase })
    (htold : Told args { run with phase }) : Kept args quiet { run with phase } := by
  obtain ⟨lost, hledger⟩ := h.ledger
  refine ⟨⟨lost, hledger.accounted, hledger.acked, ?_⟩, h.counts, hplaced, htold⟩
  rcases hledger.lost with ⟨error, hfailed⟩ | hrest
  · exact absurd hfailed (hopen error)
  · exact .inr hrest

/-- With a task that has not ended, the loop has not closed the run. -/
theorem Placed.open_of_running (h : Placed args quiet run) (hne : run.running ≠ []) :
    run.phase ≠ .closing ∧ run.phase ≠ .reporting ∧ run.phase ≠ .done := by
  unfold Placed at h
  refine ⟨?_, ?_, ?_⟩
  all_goals
    intro hphase
    rw [hphase] at h
    exact hne h.2.1

theorem Placed.endTask (h : Placed args quiet run) {running : List Sending}
    {finished : List (Result Bool)} {events : List ProducerEvent} (hne : run.running ≠ []) :
    Placed args quiet { run with running, finished, events } := by
  obtain ⟨hclosing, hreporting, hdone⟩ := h.open_of_running hne
  unfold Placed at h ⊢
  dsimp only
  split at h
  all_goals first
    | exact h
    | exact ⟨h.bound, h.few, h.all⟩
    | contradiction

theorem Told.more (h : Told args run) (hopen : run.phase ≠ .reporting ∧ run.phase ≠ .done)
    {running : List Sending} {finished : List (Result Bool)} {events : List ProducerEvent}
    (hevents : ∀ event ∈ events, event.content.isSome = true) :
    Told args { run with running, finished, events := run.events ++ events } := by
  obtain ⟨reports, hcontent, htold⟩ := h
  refine ⟨reports ++ events, fun event hmem => ?_, ?_⟩
  · rcases List.mem_append.1 hmem with hmem | hmem
    · exact hcontent event hmem
    · exact hevents event hmem
  · dsimp only
    split at htold
    · trivial
    · exact absurd ‹_› hopen.1
    · exact absurd ‹_› hopen.2
    · rw [htold]
      rfl

theorem Kept.endTask (h : Kept args quiet run) (place : ℕ) (outcome : TaskOutcome) :
    Kept args quiet (run.endTask args place outcome) := by
  obtain ⟨lost, hledger⟩ := h.ledger
  have hledger' := hledger.endTask place outcome
  rw [ProducerRun.endTask] at hledger' ⊢
  cases hget : run.running[place]? with
  | none => exact h
  | some sending =>
    rw [hget] at hledger'
    have hne : run.running ≠ [] := List.ne_nil_of_mem (List.mem_of_getElem? hget)
    refine ⟨hledger', h.counts, h.placed.endTask hne,
      h.told.more (h.placed.open_of_running hne).2 fun event hmem => ?_⟩
    rcases printVerifiableDelivery_cases args.topic sending outcome with
      ⟨event', acked, hprint, hsome, -⟩ | ⟨error, hprint⟩
    · rw [hprint, List.mem_singleton] at hmem
      rw [hmem, hsome]
      rfl
    · rw [hprint] at hmem
      cases hmem

theorem Kept.join (h : Kept args quiet run) (hmax : args.maxMessages < 2 ^ 31)
    {result : Result Bool} {rest : List (Result Bool)} (hfinished : run.finished = result :: rest)
    (hphase : (∃ index, run.phase = .joining index) ∨ run.phase = .draining) :
    Kept args quiet (run.join rest result) := by
  obtain ⟨lost, hledger⟩ := h.ledger
  have hbound := h.placed.bound
  have hfits := maxMessages_lt hmax
  have hledger' := hledger.join hfinished (by omega)
  obtain ⟨reports, hcontent, htold⟩ := h.told
  have hplaced := h.placed
  cases result with
  | error error => exact ⟨⟨lost, hledger'⟩, h.counts, hbound, reports, hcontent, trivial⟩
  | ok acked =>
    have hevents : run.events = .startupComplete :: reports := by
      rcases hphase with ⟨index, hphase⟩ | hphase
      · rw [hphase] at htold
        exact htold
      · rw [hphase] at htold
        exact htold
    have hkept : ∀ acked, Placed args quiet { run with finished := rest, acked } ∧
        Told args { run with finished := rest, acked } := by
      intro acked
      rw [Placed, Told]
      rw [Placed] at hplaced
      dsimp only
      rcases hphase with ⟨index, hphase⟩ | hphase
      · rw [hphase] at hplaced ⊢
        exact ⟨hplaced, reports, hcontent, hevents⟩
      · rw [hphase] at hplaced ⊢
        exact ⟨⟨hplaced.bound, hplaced.few, hplaced.all⟩, reports, hcontent, hevents⟩
    cases acked with
    | false => exact ⟨⟨lost, hledger'⟩, h.counts, (hkept _).1, (hkept _).2⟩
    | true => exact ⟨⟨lost, hledger'⟩, h.counts, (hkept _).1, (hkept _).2⟩

theorem Kept.send (h : Kept args quiet run)
    (hkeys : ∀ limit ∈ args.repeatingKeys, limit < 2 ^ 31) (hmax : args.maxMessages < 2 ^ 31)
    (startedMs now : Int) {index : ℕ} (hphase : run.phase = .selecting index) :
    Kept args quiet (run.send args startedMs now index) := by
  obtain ⟨lost, hledger⟩ := h.ledger
  obtain ⟨reports, hcontent, htold⟩ := h.told
  have hplaced := h.placed
  have hfits := maxMessages_lt hmax
  rw [Placed, hphase] at hplaced
  obtain ⟨rfl, hbelow, hfew⟩ := hplaced
  obtain ⟨hledger', hcounts⟩ := hledger.send hkeys h.counts startedMs now (by omega)
    (fun error hfailed => by rw [hphase] at hfailed; cases hfailed)
  have hsent : (run.send args startedMs now run.sent).sent = run.sent + 1 :=
    saturatingAdd_of_lt (by omega)
  have hevents : (run.send args startedMs now run.sent).events = .startupComplete :: reports := by
    rw [hphase] at htold
    exact htold
  have hnext : (run.send args startedMs now run.sent).phase =
      if args.throughput = 0 ∧ 0 < run.sent then .waiting
      else if 0 < args.throughput then .pacing run.sent
      else .joining (run.sent + 1) := rfl
  refine ⟨⟨lost, hledger'⟩, hcounts, ?_, reports, hcontent, ?_⟩
  · rw [Placed, hnext]
    by_cases hwait : args.throughput = 0 ∧ 0 < run.sent
    · rw [if_pos hwait]
      have hone := hfew hwait.1
      exact ⟨by omega, by omega⟩
    · rw [if_neg hwait]
      by_cases hpace : 0 < args.throughput
      · rw [if_pos hpace]
        exact ⟨hsent, hbelow, by omega⟩
      · rw [if_neg hpace]
        exact ⟨hsent, hbelow, fun hzero => by omega⟩
  · rw [hnext]
    split_ifs <;> exact hevents

/-- **One step** of the main loop. -/
theorem Kept.advance (h : Kept args quiet run)
    (hkeys : ∀ limit ∈ args.repeatingKeys, limit < 2 ^ 31) (hmax : args.maxMessages < 2 ^ 31)
    (startedMs now : Int) {signal : Bool} (hquiet : quiet → signal = false)
    (written : Result Unit) :
    Kept args quiet (run.advance args startedMs now signal written) := by
  have hplaced := h.placed
  have hbound := h.placed.bound
  obtain ⟨reports, hcontent, htold⟩ := h.told
  rw [Placed] at hplaced
  unfold ProducerRun.advance
  cases hphase : run.phase with
  | joining index =>
    rw [hphase] at hplaced htold
    obtain ⟨hsent, hle, hfew⟩ := hplaced
    have hopen : ∀ error, run.phase ≠ .failed error := fun error => by rw [hphase]; simp
    dsimp only
    by_cases hlast : maxMessages args ≤ index
    · rw [if_pos hlast]
      refine h.move .draining hopen ⟨hbound, fun hzero => ?_, fun _ => ?_⟩ ⟨reports, hcontent, htold⟩
      · have := hfew hzero
        dsimp only
        omega
      · dsimp only
        omega
    · rw [if_neg hlast]
      cases hfinished : run.finished with
      | nil =>
        have hmove := h.move (.selecting index) hopen ⟨hsent, by omega, hfew⟩
          ⟨reports, hcontent, htold⟩
        rwa [hfinished] at hmove
      | cons result rest => exact h.join hmax hfinished (.inl ⟨index, hphase⟩)
  | selecting index =>
    rw [hphase] at hplaced htold
    obtain ⟨hsent, hlt, hfew⟩ := hplaced
    dsimp only
    cases hsignal : signal with
    | false => exact h.send hkeys hmax startedMs now hphase
    | true =>
      refine h.move .draining (fun error => by rw [hphase]; simp) ⟨hbound, fun hzero => ?_, fun hq => ?_⟩
        ⟨reports, hcontent, htold⟩
      · have := hfew hzero
        dsimp only
        omega
      · rw [hquiet hq] at hsignal
        cases hsignal
  | pacing index =>
    rw [hphase] at hplaced htold
    obtain ⟨hsent, hlt, hpace⟩ := hplaced
    dsimp only
    cases hsignal : signal with
    | false =>
      exact h.move (.joining (index + 1)) (fun error => by rw [hphase]; simp)
        ⟨hsent, hlt, fun hzero => absurd hzero hpace⟩ ⟨reports, hcontent, htold⟩
    | true =>
      refine h.move .draining (fun error => by rw [hphase]; simp)
        ⟨hbound, fun hzero => absurd hzero hpace, fun hq => ?_⟩ ⟨reports, hcontent, htold⟩
      rw [hquiet hq] at hsignal
      cases hsignal
  | waiting =>
    rw [hphase] at hplaced htold
    dsimp only
    cases hsignal : signal with
    | false => exact h
    | true =>
      refine h.move .draining (fun error => by rw [hphase]; simp)
        ⟨hbound, fun _ => hplaced.2, fun hq => ?_⟩ ⟨reports, hcontent, htold⟩
      rw [hquiet hq] at hsignal
      cases hsignal
  | draining =>
    rw [hphase] at hplaced htold
    dsimp only
    cases hfinished : run.finished with
    | cons result rest => exact h.join hmax hfinished (.inr hphase)
    | nil =>
      dsimp only
      by_cases hrunning : run.running = []
      · rw [if_pos hrunning]
        have hmove := h.move .closing (fun error => by rw [hphase]; simp)
          ⟨⟨hplaced.bound, hplaced.few, hplaced.all⟩, hrunning, hfinished⟩
          ⟨reports, hcontent, htold⟩
        rwa [hfinished] at hmove
      · rw [if_neg hrunning]
        exact h
  | closing =>
    rw [hphase] at hplaced htold
    obtain ⟨hstopped, hrunning, hfinished⟩ := hplaced
    have hopen : ∀ error, run.phase ≠ .failed error := fun error => by rw [hphase]; simp
    obtain ⟨lost, hledger⟩ := h.ledger
    cases written with
    | error error => exact h.move (.failed error) hopen hbound ⟨reports, hcontent, trivial⟩
    | ok written =>
      refine ⟨⟨lost, hledger.note rfl hopen _⟩, h.counts,
        ⟨⟨hstopped.bound, hstopped.few, hstopped.all⟩, hrunning, hfinished⟩, reports, hcontent, ?_⟩
      dsimp only
      rw [htold]
  | reporting =>
    rw [hphase] at hplaced htold
    obtain ⟨hstopped, hrunning, hfinished⟩ := hplaced
    have hopen : ∀ error, run.phase ≠ .failed error := fun error => by rw [hphase]; simp
    obtain ⟨lost, hledger⟩ := h.ledger
    cases written with
    | error error => exact h.move (.failed error) hopen hbound ⟨reports, hcontent, trivial⟩
    | ok written =>
      refine ⟨⟨lost, hledger.note rfl hopen _⟩, h.counts,
        ⟨⟨hstopped.bound, hstopped.few, hstopped.all⟩, hrunning, hfinished⟩, reports, hcontent, ?_⟩
      dsimp only
      rw [htold, List.append_assoc]
      rfl
  | done => exact h
  | failed error => exact h

/-- **One step** of a run. -/
theorem Kept.step (h : Kept args quiet run)
    (hkeys : ∀ limit ∈ args.repeatingKeys, limit < 2 ^ 31) (hmax : args.maxMessages < 2 ^ 31)
    (startedMs : Int) {input : ProducerInput} (hquiet : quiet → input.signals = false) :
    Kept args quiet (run.step args startedMs input) := by
  cases input with
  | task place outcome => exact h.endTask place outcome
  | main now signal written => exact h.advance hkeys hmax startedMs now hquiet written

end Kept

theorem kept_start (args : VerifiableProducerArgs) (quiet : Prop) : Kept args quiet (.start args) where
  ledger := ⟨[], List.Perm.refl _, rfl, .inr (.inr rfl)⟩
  counts := by
    intro limit _
    show (0 : Int) = keyNumber limit 0
    rw [keyNumber]
    split_ifs <;> simp
  placed := ⟨rfl, Nat.zero_le _, fun _ => Nat.zero_le _⟩
  told := ⟨[], fun _ h => absurd h List.not_mem_nil, rfl⟩

theorem kept_run {args : VerifiableProducerArgs} {quiet : Prop}
    (hkeys : ∀ limit ∈ args.repeatingKeys, limit < 2 ^ 31) (hmax : args.maxMessages < 2 ^ 31)
    (startedMs : Int) {inputs : List ProducerInput}
    (hquiet : quiet → ∀ input ∈ inputs, input.signals = false) :
    Kept args quiet (verifiableProducer args startedMs inputs) := by
  induction inputs using List.reverseRecOn with
  | nil => exact kept_start args quiet
  | append_singleton inputs input ih =>
    rw [verifiableProducer, List.foldl_append]
    refine (ih fun hq input hmem => hquiet hq input (List.mem_append_left _ hmem)).step hkeys hmax
      startedMs fun hq => ?_
    exact hquiet hq input (List.mem_append_right _ (List.mem_singleton_self input))

theorem reported_of_isSome {reports : List ProducerEvent}
    (h : ∀ event ∈ reports, event.content.isSome = true) :
    (reported reports).map some = reports.map ProducerEvent.content := by
  induction reports with
  | nil => rfl
  | cons event reports ih =>
    obtain ⟨hfirst, hrest⟩ := List.forall_mem_cons.1 h
    obtain ⟨content, hcontent⟩ := Option.isSome_iff_exists.1 hfirst
    rw [List.map_cons, hcontent, ← ih hrest, reported, List.filterMap_cons, hcontent]
    rfl

/-- **Each message is accounted for.** -/
theorem verifiableProducer_accounts (args : VerifiableProducerArgs)
    (hkeys : ∀ limit ∈ args.repeatingKeys, limit < 2 ^ 31) (hmax : args.maxMessages < 2 ^ 31)
    (startedMs : Int) (inputs : List ProducerInput) (run : ProducerRun)
    (hrun : verifiableProducer args startedMs inputs = run) :
    (reported run.events).Subperm ((List.range run.sent).map (message args)) ∧
      run.sent ≤ maxMessages args ∧
      (run.phase = .done →
        (∃ reports, run.events = .startupComplete :: reports ++
            [.shutdownComplete, .toolData run.sent run.acked args.throughput] ∧
          (reports.map ProducerEvent.content).Perm
            ((List.range run.sent).map fun index => some (message args index)) ∧
          run.acked = reports.countP ProducerEvent.isSuccess) ∧
        (args.throughput = 0 → run.sent ≤ 2) ∧
        ((∀ input ∈ inputs, input.signals = false) → run.sent = maxMessages args)) := by
  have hkept : Kept args (∀ input ∈ inputs, input.signals = false) run := by
    rw [← hrun]
    exact kept_run hkeys hmax startedMs fun h => h
  obtain ⟨lost, hledger⟩ := hkept.ledger
  refine ⟨?_, hkept.placed.bound, fun hdone => ?_⟩
  · exact ((List.sublist_append_left _ _).subperm).trans hledger.accounted.subperm
  · have hplaced := hkept.placed
    obtain ⟨reports, hcontent, htold⟩ := hkept.told
    rw [Placed, hdone] at hplaced
    rw [hdone] at htold
    obtain ⟨hstopped, hrunning, hfinished⟩ := hplaced
    have hlost : lost = [] := by
      rcases hledger.lost with ⟨error, hfailed⟩ | ⟨error, hmem⟩ | hnil
      · rw [hdone] at hfailed
        cases hfailed
      · rw [hfinished] at hmem
        cases hmem
      · exact hnil
    have hreported : reported run.events = reported reports := by
      rw [htold, List.cons_append, reported, List.filterMap_cons]
      show reported (reports ++ _) = _
      rw [reported_append]
      exact List.append_nil _
    refine ⟨⟨reports, htold, ?_, ?_⟩, hstopped.few, hstopped.all⟩
    · have haccounted := hledger.accounted
      rw [hrunning, hlost, List.nil_append, List.map_nil, List.append_nil, hreported] at haccounted
      rw [← reported_of_isSome hcontent]
      have hmap := haccounted.map some
      rwa [List.map_map] at hmap
    · have hacked := hledger.acked
      rw [hfinished, htold] at hacked
      simpa [List.countP_append, List.countP_cons, ProducerEvent.isSuccess] using hacked

/-- Two messages, of which the second one comes back first. -/
theorem verifiableProducer_accounts_sample :
    ∃ run, verifiableProducer ⟨"t", 2, -1, -1, some 7, some 1⟩ 0
        [.main 0 false (.ok ()), .main 0 false (.ok ()), .main 1 false (.ok ()),
          .main 1 false (.ok ()), .task 1 (.delivered 0 5 (.ok ())), .task 0 (.refused "no" (.ok ())),
          .main 2 false (.ok ()), .main 2 false (.ok ()), .main 2 false (.ok ()),
          .main 2 false (.ok ()), .main 2 false (.ok ()), .main 2 false (.ok ())] = run ∧
      run.phase = .done ∧ run.events = [.startupComplete, .sendSuccess (some "0") "7.1" "t" 0 5,
        .sendError (some "0") "7.0" "t" "no", .shutdownComplete, .toolData 2 1 (-1)] ∧
      run.sent = maxMessages ⟨"t", 2, -1, -1, some 7, some 1⟩ := by
  refine ⟨_, rfl, by decide +kernel, by decide +kernel, ?_⟩
  exact ((verifiableProducer_accounts ⟨"t", 2, -1, -1, some 7, some 1⟩ (by simp) (by decide) 0
    [.main 0 false (.ok ()), .main 0 false (.ok ()), .main 1 false (.ok ()),
      .main 1 false (.ok ()), .task 1 (.delivered 0 5 (.ok ())), .task 0 (.refused "no" (.ok ())),
      .main 2 false (.ok ()), .main 2 false (.ok ()), .main 2 false (.ok ()),
      .main 2 false (.ok ()), .main 2 false (.ok ()), .main 2 false (.ok ())] _ rfl).2.2
      (by decide +kernel)).2.2 (by simp [ProducerInput.signals])

end KafkaCli.Verifiable
