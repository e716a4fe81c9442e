import KafkaCli.Error
import KafkaCli.Lib.Interleaving
import KafkaCli.Lib.Text
import Mathlib.Data.List.Pairwise
import Mathlib.Logic.Function.Basic

/-!
# The verifiable consumer

`verifiable_consumer` writes an event about each message that it receives, and then commits the
offset behind it, unless the client commits on its own. Several such processes may be in one group;
each of them may crash anywhere and be launched again, and a rebalance may come at any time. A
process that gets a partition goes on from the offset that is committed for it, and where there is
none, from the one that the reset policy gives at that time.

**Theorem (`verifiableConsumer_atLeastOnce`).** Where the client does not commit on its own, the
events about records can be written, and no reset goes beyond `start`, there is an event about each
record from `start` to a committed offset. Every event is about a record of the log, and every
committed offset is the one behind such a record.
-/

namespace KafkaCli.Verifiable

open Interleaving Text

/-! ## The algorithm -/

/-- The arguments that the loop uses, with the global option `--verbose`. -/
structure VerifiableConsumerArgs where
  maxMessages : Int
  enableAutocommit : Bool
  verbose : Bool
  deriving DecidableEq, Repr

/-- `VerifiablePartition`. -/
structure VerifiablePartition where
  topic : String
  partition : Int
  deriving DecidableEq, Repr

structure ConsumedMessage where
  offset : Int
  key : Option (List UInt8)
  payload : Option (List UInt8)
  deriving DecidableEq, Repr

/-- What is written, apart from the time of it. -/
inductive ConsumerEvent
  | startupComplete
  | shutdownRequested
  | shutdownComplete
  | partitionsAssigned (partitions : List VerifiablePartition)
  | partitionsRevoked (partitions : List VerifiablePartition)
  | recordData (key value : Option String) (partition : VerifiablePartition) (offset : Int)
  | recordsConsumed (count : ℕ) (partition : VerifiablePartition) (minOffset maxOffset : Int)
  | offsetsCommitted (partition : VerifiablePartition) (offset : Int) (error : Option String)
      (success : Bool)
  deriving DecidableEq, Repr

/-- An event that cannot be written is left out. -/
def writeVerifiableEvent (written : Bool) (event : ConsumerEvent) (output : List ConsumerEvent) :
    List ConsumerEvent :=
  if written then output ++ [event] else output

/-- `write_verifiable_consumed_record`, for which of its events can be written. -/
def writeVerifiableConsumedRecord (verbose : Bool) (dataWritten consumedWritten : Bool)
    (partition : VerifiablePartition) (message : ConsumedMessage) (output : List ConsumerEvent) :
    List ConsumerEvent :=
  let output :=
    if verbose then
      writeVerifiableEvent dataWritten (.recordData (message.key.map fromUtf8Lossy)
        (message.payload.map fromUtf8Lossy) partition message.offset) output
    else output
  writeVerifiableEvent consumedWritten
    (.recordsConsumed 1 partition message.offset message.offset) output

/-- Where a process is. -/
inductive ConsumerPhase
  | notRunning
  /-- It waits for a message. -/
  | receiving
  | writing (partition : VerifiablePartition) (message : ConsumedMessage)
  | committing (partition : VerifiablePartition) (message : ConsumedMessage)
  /-- It has left the loop. -/
  | closing
  | done
  | failed (error : Error)
  deriving DecidableEq, Repr

structure ConsumerProcess where
  phase : ConsumerPhase
  /-- The offset from which the client goes on, for each partition. -/
  position : VerifiablePartition → Int
  received : ℕ
  shutdownRequested : Bool

/-- What the processes share: the offsets that the group has committed, and what they write. -/
structure ConsumerGroup where
  committed : VerifiablePartition → Option Int
  output : List ConsumerEvent

/-- What happens to a process. -/
inductive ConsumerInput
  /-- It is launched, also behind a crash; for the offsets of the reset policy at that time. -/
  | launch (reset : VerifiablePartition → Int) (written : Bool)
  /-- The client has the next message of this partition, if there is one. -/
  | receive (partition : VerifiablePartition)
  | receiveError
  | signal (written : Bool)
  | write (dataWritten consumedWritten : Bool)
  /-- The offset is stored for the commit, or there is an error; and then the commit may have
  reached the group, whether or not there is an error. -/
  | commit (stored : Result Unit) (reached : Bool) (error : Option String) (written : Bool)
  | assign (partitions : List VerifiablePartition) (reset : VerifiablePartition → Int)
      (written : Bool)
  | revoke (partitions : List VerifiablePartition) (written : Bool)
  /-- The assignment can be read until it is empty or the time is over, or there is an error. -/
  | close (assignment : Result Unit) (completeWritten requestedWritten : Bool)

/-- `max_messages` of the loop. -/
def maxReceived (args : VerifiableConsumerArgs) : ℕ :=
  if args.maxMessages < 0 then 2 ^ 64 - 1 else args.maxMessages.toNat

/-- At the condition of the loop. -/
def loopPhase (args : VerifiableConsumerArgs) (received : ℕ) : ConsumerPhase :=
  if received < maxReceived args then .receiving else .closing

/-- The offset from which a partition is read that has just been assigned. -/
def assignedPosition (reset : VerifiablePartition → Int) (group : ConsumerGroup)
    (partition : VerifiablePartition) : Int :=
  (group.committed partition).getD (reset partition)

/-- The message that is received next from a partition. -/
def nextMessage (log : VerifiablePartition → List ConsumedMessage) (process : ConsumerProcess)
    (partition : VerifiablePartition) : Option ConsumedMessage :=
  (log partition).find? fun message => decide (process.position partition ≤ message.offset)

/-- One step of a process. What it does not wait for does nothing. -/
def consumerStep (args : VerifiableConsumerArgs)
    (log : VerifiablePartition → List ConsumedMessage) (group : ConsumerGroup)
    (process : ConsumerProcess) : ConsumerInput → ConsumerGroup × ConsumerProcess
  | .launch reset written =>
    ({ group with output := writeVerifiableEvent written .startupComplete group.output },
      ⟨loopPhase args 0, assignedPosition reset group, 0, false⟩)
  | .receive partition =>
    match process.phase, nextMessage log process partition with
    | .receiving, some message =>
      (group, { process with
        phase := .writing partition message
        position := Function.update process.position partition (message.offset + 1) })
    | _, _ => (group, process)
  | .receiveError =>
    match process.phase with
    | .receiving => (group, { process with phase := .closing })
    | _ => (group, process)
  | .signal written =>
    match process.phase with
    | .receiving =>
      ({ group with output := writeVerifiableEvent written .shutdownRequested group.output },
        { process with phase := .closing, shutdownRequested := true })
    | _ => (group, process)
  | .write dataWritten consumedWritten =>
    match process.phase with
    | .writing partition message =>
      ({ group with
          output := writeVerifiableConsumedRecord args.verbose dataWritten consumedWritten partition
            message group.output },
        { process with
          phase := if args.enableAutocommit then loopPhase args (process.received + 1)
            else .committing partition message
          received := process.received + 1 })
    | _ => (group, process)
  | .commit stored reached error written =>
    match process.phase, stored with
    | .committing partition message, .ok () =>
      ({ group with
          committed :=
            if reached then Function.update group.committed partition (some (message.offset + 1))
            else group.committed
          output := writeVerifiableEvent written
            (.offsetsCommitted partition (message.offset + 1) error error.isNone) group.output },
        { process with phase := loopPhase args process.received })
    | .committing _ _, .error error => (group, { process with phase := .failed error })
    | _, _ => (group, process)
  | .assign partitions reset written =>
    ({ group with
        output := writeVerifiableEvent written (.partitionsAssigned partitions) group.output },
      { process with position := fun partition =>
          if partition ∈ partitions then assignedPosition reset group partition
          else process.position partition })
  | .revoke partitions written =>
    ({ group with
        output := writeVerifiableEvent written (.partitionsRevoked partitions) group.output },
      process)
  | .close assignment completeWritten requestedWritten =>
    match process.phase, assignment with
    | .closing, .ok () =>
      let output := writeVerifiableEvent completeWritten .shutdownComplete group.output
      ({ group with
          output :=
            if process.shutdownRequested then output
            else writeVerifiableEvent requestedWritten .shutdownRequested output },
        { process with phase := .done })
    | .closing, .error error => (group, { process with phase := .failed error })
    | _, _ => (group, process)

/-- A group of processes that are not running, without a committed offset. -/
def newGroup (start : VerifiablePartition → Int) (processes : ℕ) :
    Pool ConsumerGroup ConsumerProcess :=
  ⟨⟨fun _ => none, []⟩, List.replicate processes ⟨.notRunning, start, 0, false⟩⟩

/-! ## The next message -/

/-- The records of a partition are in the order of their offsets. -/
def Ordered (log : VerifiablePartition → List ConsumedMessage) : Prop :=
  ∀ partition, (log partition).Pairwise fun a b => a.offset < b.offset

section NextMessage

variable {log : VerifiablePartition → List ConsumedMessage} {process : ConsumerProcess}
  {partition : VerifiablePartition} {message : ConsumedMessage}

/-- **The next message** is the first record that is not in front of the position. -/
theorem nextMessage_eq_some (hlog : Ordered log)
    (h : nextMessage log process partition = some message) :
    message ∈ log partition ∧ process.position partition ≤ message.offset ∧
      ∀ other ∈ log partition, other.offset < message.offset →
        other.offset < process.position partition := by
  obtain ⟨hle, front, back, hsplit, hfront⟩ := List.find?_eq_some_iff_append.1 h
  have hordered := hlog partition
  rw [hsplit, List.pairwise_append] at hordered
  refine ⟨by rw [hsplit]; simp, of_decide_eq_true hle, fun other hmem hbelow => ?_⟩
  rw [hsplit, List.mem_append, List.mem_cons] at hmem
  rcases hmem with hmem | rfl | hmem
  · have hskipped := hfront other hmem
    simp only [Bool.not_eq_eq_eq_not, Bool.not_true, decide_eq_false_iff_not] at hskipped
    omega
  · exact absurd hbelow (lt_irrefl _)
  · have hlater := (List.pairwise_cons.1 hordered.2.1).1 other hmem
    omega

end NextMessage

/-! ## What is written about -/

/-- There is an event about the record at this offset. -/
def Reported (output : List ConsumerEvent) (partition : VerifiablePartition) (offset : Int) :
    Prop :=
  .recordsConsumed 1 partition offset offset ∈ output

/-- There is an event about each record in front of this offset. -/
def ReportedBelow (log : VerifiablePartition → List ConsumedMessage)
    (start : VerifiablePartition → Int) (output : List ConsumerEvent)
    (partition : VerifiablePartition) (next : Int) : Prop :=
  ∀ message ∈ log partition, start partition ≤ message.offset → message.offset < next →
    Reported output partition message.offset

/-- The message that a process is writing about. -/
def ConsumerProcess.Writes (process : ConsumerProcess) (partition : VerifiablePartition)
    (offset : Int) : Prop :=
  ∃ message, process.phase = .writing partition message ∧ message.offset = offset

/-- The event is about a record. -/
def ConsumerEvent.isRecord : ConsumerEvent → Bool
  | .recordsConsumed _ _ _ _ => true
  | _ => false

/-- What holds of a process, for what all of them have written. -/
structure Follows (log : VerifiablePartition → List ConsumedMessage)
    (start : VerifiablePartition → Int) (output : List ConsumerEvent) (process : ConsumerProcess) :
    Prop where
  position : ∀ partition, ∀ message ∈ log partition, start partition ≤ message.offset →
    message.offset < process.position partition →
      Reported output partition message.offset ∨ process.Writes partition message.offset
  writing : ∀ partition message, process.phase = .writing partition message →
    message ∈ log partition ∧ ReportedBelow log start output partition message.offset
  committing : ∀ partition message, process.phase = .committing partition message →
    message ∈ log partition ∧ ReportedBelow log start output partition (message.offset + 1) ∧
      Reported output partition message.offset

/-- What holds of what the processes share. -/
structure Sound (log : VerifiablePartition → List ConsumedMessage)
    (start : VerifiablePartition → Int) (group : ConsumerGroup) : Prop where
  committed : ∀ partition next, group.committed partition = some next →
    ReportedBelow log start group.output partition next ∧
      ∃ message ∈ log partition, next = message.offset + 1 ∧
        Reported group.output partition message.offset
  output : ∀ count partition first last,
    .recordsConsumed count partition first last ∈ group.output →
      count = 1 ∧ first = last ∧ ∃ message ∈ log partition, message.offset = first

section Steps

variable {args : VerifiableConsumerArgs} {log : VerifiablePartition → List ConsumedMessage}
  {start : VerifiablePartition → Int} {group : ConsumerGroup} {process : ConsumerProcess}
  {output output' : List ConsumerEvent} {partition : VerifiablePartition} {next : Int}

theorem ReportedBelow.mono (h : ReportedBelow log start output partition next)
    (hmore : output ⊆ output') : ReportedBelow log start output' partition next :=
  fun message hmem hstart hnext => hmore (h message hmem hstart hnext)

theorem Follows.mono (h : Follows log start output process) (hmore : output ⊆ output') :
    Follows log start output' process where
  position := fun partition message hmem hstart hbelow =>
    (h.position partition message hmem hstart hbelow).imp_left fun hold => hmore hold
  writing := fun partition message hphase =>
    (h.writing partition message hphase).imp_right fun hbelow => hbelow.mono hmore
  committing := fun partition message hphase => by
    obtain ⟨hmem, hbelow, hreported⟩ := h.committing partition message hphase
    exact ⟨hmem, hbelow.mono hmore, hmore hreported⟩

theorem subset_writeVerifiableEvent (written : Bool) (event : ConsumerEvent)
    (output : List ConsumerEvent) : output ⊆ writeVerifiableEvent written event output := by
  rw [writeVerifiableEvent]
  split_ifs
  · exact List.subset_append_left ..
  · exact List.Subset.refl _

theorem mem_writeVerifiableEvent {written : Bool} {event other : ConsumerEvent}
    (h : other ∈ writeVerifiableEvent written event output) : other ∈ output ∨ other = event := by
  rw [writeVerifiableEvent] at h
  split_ifs at h
  · simpa using h
  · exact .inl h

/-- An event that is not about a record. -/
theorem Sound.write (h : Sound log start group) (written : Bool) {event : ConsumerEvent}
    (hevent : event.isRecord = false) :
    Sound log start
      { group with output := writeVerifiableEvent written event group.output } where
  committed := fun partition next hnext => by
    obtain ⟨hbelow, message, hmem, hbehind, hreported⟩ := h.committed partition next hnext
    have hmore := subset_writeVerifiableEvent written event group.output
    exact ⟨hbelow.mono hmore, message, hmem, hbehind, hmore hreported⟩
  output := fun count partition first last hmem => by
    rcases mem_writeVerifiableEvent hmem with hold | hnew
    · exact h.output count partition first last hold
    · rw [← hnew] at hevent
      cases hevent

/-- Not between the receipt of a message and its commit. -/
def ConsumerPhase.Idle (phase : ConsumerPhase) : Prop :=
  ∀ partition message, phase ≠ .writing partition message ∧ phase ≠ .committing partition message

theorem loopPhase_idle (args : VerifiableConsumerArgs) (received : ℕ) :
    (loopPhase args received).Idle := by
  intro partition message
  rw [loopPhase]
  split_ifs <;> simp

/-- A process between two messages, at reported positions. -/
theorem Follows.of_idle {process' : ConsumerProcess}
    (hposition : ∀ partition, ReportedBelow log start output partition
      (process'.position partition))
    (hidle : process'.phase.Idle) : Follows log start output process' where
  position := fun partition message hmem hstart hbelow =>
    .inl (hposition partition message hmem hstart hbelow)
  writing := fun partition message hphase => absurd hphase (hidle partition message).1
  committing := fun partition message hphase => absurd hphase (hidle partition message).2

theorem Follows.reportedBelow (h : Follows log start output process)
    (hwrites : ∀ message, process.phase ≠ .writing partition message) :
    ReportedBelow log start output partition (process.position partition) := by
  intro message hmem hstart hbelow
  rcases h.position partition message hmem hstart hbelow with hreported | ⟨held, hheld, -⟩
  · exact hreported
  · exact absurd hheld (hwrites held)

/-- The position of a partition that has just been assigned. -/
theorem Sound.assignedPosition (h : Sound log start group) {reset : VerifiablePartition → Int}
    (hreset : reset ≤ start) (partition : VerifiablePartition) :
    ReportedBelow log start group.output partition
      (assignedPosition reset group partition) := by
  intro message hmem hstart hbelow
  rw [Verifiable.assignedPosition] at hbelow
  cases hcommitted : group.committed partition with
  | none =>
    rw [hcommitted, Option.getD_none] at hbelow
    have hle : reset partition ≤ start partition := hreset partition
    omega
  | some next =>
    rw [hcommitted, Option.getD_some] at hbelow
    exact (h.committed partition next hcommitted).1 message hmem hstart hbelow

/-- What a step leaves behind. -/
structure Continues (log : VerifiablePartition → List ConsumedMessage)
    (start : VerifiablePartition → Int) (group : ConsumerGroup)
    (after : ConsumerGroup × ConsumerProcess) : Prop where
  sound : Sound log start after.1
  follows : Follows log start after.1.output after.2
  more : group.output ⊆ after.1.output

theorem Continues.refl (hsound : Sound log start group) {process' : ConsumerProcess}
    (hfollows : Follows log start group.output process') :
    Continues log start group (group, process') :=
  ⟨hsound, hfollows, List.Subset.refl _⟩

/-- A step that writes an event that is not about a record. -/
theorem Continues.of_event (hsound : Sound log start group) {process' : ConsumerProcess}
    (written : Bool) (event : ConsumerEvent) (hevent : event.isRecord = false)
    (hfollows : Follows log start group.output process') :
    Continues log start group
      ({ group with output := writeVerifiableEvent written event group.output }, process') :=
  ⟨hsound.write written hevent, hfollows.mono (subset_writeVerifiableEvent ..),
    subset_writeVerifiableEvent ..⟩

/-- **A message is received.** -/
theorem Continues.receive (hlog : Ordered log) (hsound : Sound log start group)
    (hfollows : Follows log start group.output process) (hphase : process.phase = .receiving)
    {message : ConsumedMessage} (hnext : nextMessage log process partition = some message) :
    Continues log start group (group, { process with
      phase := .writing partition message
      position := Function.update process.position partition (message.offset + 1) }) := by
  obtain ⟨hmem, hle, hskipped⟩ := nextMessage_eq_some hlog hnext
  have hbelow : ∀ partition, ReportedBelow log start group.output partition
      (process.position partition) := fun partition =>
    hfollows.reportedBelow fun message h => by rw [hphase] at h; cases h
  refine .refl hsound ⟨?_, ?_, ?_⟩
  · intro partition' other hother hstart hless
    by_cases hsame : partition' = partition
    · subst hsame
      dsimp only at hless
      rw [Function.update_self] at hless
      by_cases hbefore : other.offset < message.offset
      · exact .inl (hbelow partition' other hother hstart (hskipped other hother hbefore))
      · exact .inr ⟨message, rfl, by omega⟩
    · dsimp only at hless
      rw [Function.update_of_ne hsame] at hless
      exact .inl (hbelow partition' other hother hstart hless)
  · intro partition' message' heq
    obtain ⟨rfl, rfl⟩ := ConsumerPhase.writing.inj heq
    exact ⟨hmem, fun other hother hstart hless =>
      hbelow partition other hother hstart (hskipped other hother hless)⟩
  · intro partition' message' heq
    cases heq

/-- **A message is written about.** -/
theorem Continues.write (hsound : Sound log start group)
    (hfollows : Follows log start group.output process) {message : ConsumedMessage}
    (hphase : process.phase = .writing partition message) (verbose dataWritten : Bool) :
    Continues log start group
      ({ group with
          output := writeVerifiableConsumedRecord verbose dataWritten true partition message
            group.output },
        { process with
          phase := .committing partition message
          received := process.received + 1 }) := by
  obtain ⟨hmem, hbelow⟩ := hfollows.writing partition message hphase
  obtain ⟨middle, hmiddle, hsound', houtput⟩ : ∃ middle, group.output ⊆ middle ∧
      Sound log start { group with output := middle } ∧
      writeVerifiableConsumedRecord verbose dataWritten true partition message group.output =
        middle ++ [.recordsConsumed 1 partition message.offset message.offset] := by
    by_cases hverbose : verbose = true
    · refine ⟨writeVerifiableEvent dataWritten (.recordData (message.key.map fromUtf8Lossy)
        (message.payload.map fromUtf8Lossy) partition message.offset) group.output,
        subset_writeVerifiableEvent .., hsound.write dataWritten rfl, ?_⟩
      rw [writeVerifiableConsumedRecord, if_pos hverbose]
      rfl
    · refine ⟨group.output, List.Subset.refl _, hsound, ?_⟩
      rw [writeVerifiableConsumedRecord, if_neg hverbose]
      rfl
  have hmore : group.output ⊆ middle ++ [.recordsConsumed 1 partition message.offset message.offset] :=
    List.Subset.trans hmiddle (List.subset_append_left ..)
  have hreported : Reported
      (middle ++ [.recordsConsumed 1 partition message.offset message.offset]) partition
        message.offset := List.mem_append_right _ (List.mem_singleton_self _)
  rw [houtput]
  refine ⟨⟨?_, ?_⟩, ⟨?_, ?_, ?_⟩, hmore⟩
  · intro partition' next hnext
    obtain ⟨hfront, other, hother, hbehind, hold⟩ := hsound.committed partition' next hnext
    exact ⟨hfront.mono hmore, other, hother, hbehind, hmore hold⟩
  · intro count partition' first last hevent
    rcases List.mem_append.1 hevent with hold | hnew
    · exact hsound'.output count partition' first last hold
    · obtain ⟨rfl, rfl, rfl, rfl⟩ := ConsumerEvent.recordsConsumed.inj (List.mem_singleton.1 hnew)
      exact ⟨rfl, rfl, message, hmem, rfl⟩
  · intro partition' other hother hstart hless
    rcases hfollows.position partition' other hother hstart hless with hold | ⟨held, hheld, hoffset⟩
    · exact .inl (hmore hold)
    · rw [hphase] at hheld
      obtain ⟨rfl, rfl⟩ := ConsumerPhase.writing.inj hheld
      rw [← hoffset]
      exact .inl hreported
  · intro partition' message' heq
    cases heq
  · intro partition' message' heq
    obtain ⟨rfl, rfl⟩ := ConsumerPhase.committing.inj heq
    refine ⟨hmem, fun other hother hstart hless => ?_, hreported⟩
    by_cases hbefore : other.offset < message.offset
    · exact hmore (hbelow other hother hstart hbefore)
    · have hsame : other.offset = message.offset := by omega
      rw [hsame]
      exact hreported

/-- **A message is committed.** -/
theorem Continues.commit (hsound : Sound log start group)
    (hfollows : Follows log start group.output process) {message : ConsumedMessage}
    (hphase : process.phase = .committing partition message) (reached written : Bool)
    (error : Option String) :
    Continues log start group
      ({ group with
          committed :=
            if reached then Function.update group.committed partition (some (message.offset + 1))
            else group.committed
          output := writeVerifiableEvent written
            (.offsetsCommitted partition (message.offset + 1) error error.isNone) group.output },
        { process with phase := loopPhase args process.received }) := by
  obtain ⟨hmem, hbelow, hreported⟩ := hfollows.committing partition message hphase
  have hsound' : Sound log start { group with
      committed :=
        if reached then Function.update group.committed partition (some (message.offset + 1))
        else group.committed } := by
    refine ⟨fun partition' next hnext => ?_, hsound.output⟩
    dsimp only at hnext ⊢
    by_cases hreached : reached = true
    · rw [if_pos hreached] at hnext
      by_cases hsame : partition' = partition
      · subst hsame
        rw [Function.update_self] at hnext
        obtain rfl := Option.some.inj hnext
        exact ⟨hbelow, message, hmem, rfl, hreported⟩
      · rw [Function.update_of_ne hsame] at hnext
        exact hsound.committed partition' next hnext
    · rw [if_neg hreached] at hnext
      exact hsound.committed partition' next hnext
  have hfollows' : Follows log start group.output
      { process with phase := loopPhase args process.received } :=
    .of_idle (fun partition => hfollows.reportedBelow fun held hheld => by
      rw [hphase] at hheld; cases hheld) (loopPhase_idle args process.received)
  have hevent := Continues.of_event hsound' written
    (.offsetsCommitted partition (message.offset + 1) error error.isNone) rfl hfollows'
  exact ⟨hevent.sound, hevent.follows, hevent.more⟩

/-- Whether the events about records can be written. -/
def ConsumerInput.Writes : ConsumerInput → Prop
  | .write _ consumedWritten => consumedWritten = true
  | _ => True

/-- The reset policy goes back to `start`, or further. -/
def ConsumerInput.ResetsTo (start : VerifiablePartition → Int) : ConsumerInput → Prop
  | .launch reset _ | .assign _ reset _ => reset ≤ start
  | _ => True

/-- **One step** of a process. -/
theorem Continues.step (hcommit : args.enableAutocommit = false) (hlog : Ordered log)
    (hsound : Sound log start group) (hfollows : Follows log start group.output process)
    {input : ConsumerInput} (hwrites : input.Writes) (hresets : input.ResetsTo start) :
    Continues log start group (consumerStep args log group process input) := by
  have hsame : Continues log start group (group, process) := .refl hsound hfollows
  -- where the process is not writing, it may leave the loop
  have hleave : ∀ phase : ConsumerPhase, (∀ partition message,
      process.phase ≠ .writing partition message) → phase.Idle → ∀ requested,
        Follows log start group.output
          { process with phase, shutdownRequested := requested } :=
    fun phase hwriting hidle requested =>
      .of_idle (fun partition => hfollows.reportedBelow (hwriting partition)) hidle
  cases input with
  | launch reset written =>
    exact .of_event hsound written .startupComplete rfl
      (.of_idle (hsound.assignedPosition hresets) (loopPhase_idle args 0))
  | receive partition =>
    cases hphase : process.phase with
    | receiving =>
      cases hnext : nextMessage log process partition with
      | none => simpa only [consumerStep, hphase, hnext] using hsame
      | some message =>
        simpa only [consumerStep, hphase, hnext] using .receive hlog hsound hfollows hphase hnext
    | _ => simpa only [consumerStep, hphase] using hsame
  | receiveError =>
    cases hphase : process.phase with
    | receiving =>
      simpa only [consumerStep, hphase] using
        .refl hsound (hleave .closing (by simp [hphase]) (fun _ _ => by simp) _)
    | _ => simpa only [consumerStep, hphase] using hsame
  | signal written =>
    cases hphase : process.phase with
    | receiving =>
      simpa only [consumerStep, hphase] using
        .of_event hsound written .shutdownRequested rfl
          (hleave .closing (by simp [hphase]) (fun _ _ => by simp) true)
    | _ => simpa only [consumerStep, hphase] using hsame
  | write dataWritten consumedWritten =>
    cases hphase : process.phase with
    | writing partition message =>
      obtain rfl : consumedWritten = true := hwrites
      have hwrite := Continues.write hsound hfollows hphase args.verbose dataWritten
      simpa only [consumerStep, hphase, hcommit, if_neg Bool.false_ne_true] using hwrite
    | _ => simpa only [consumerStep, hphase] using hsame
  | commit stored reached error written =>
    cases hphase : process.phase with
    | committing partition message =>
      cases stored with
      | ok stored =>
        simpa only [consumerStep, hphase] using
          .commit hsound hfollows hphase reached written error
      | error failure =>
        simpa only [consumerStep, hphase] using
          .refl hsound (hleave (.failed failure) (by simp [hphase]) (fun _ _ => by simp) _)
    | _ => simpa only [consumerStep, hphase] using hsame
  | assign partitions reset written =>
    refine .of_event hsound written (.partitionsAssigned partitions) rfl
      ⟨fun partition message hmem hstart hless => ?_, hfollows.writing, hfollows.committing⟩
    dsimp only at hless
    split_ifs at hless with hassigned
    · exact .inl (hsound.assignedPosition hresets partition message hmem hstart hless)
    · exact hfollows.position partition message hmem hstart hless
  | revoke partitions written =>
    exact .of_event hsound written (.partitionsRevoked partitions) rfl hfollows
  | close assignment completeWritten requestedWritten =>
    cases hphase : process.phase with
    | closing =>
      cases assignment with
      | error failure =>
        simpa only [consumerStep, hphase] using
          .refl hsound (hleave (.failed failure) (by simp [hphase]) (fun _ _ => by simp) _)
      | ok assignment =>
        have hcomplete := Continues.of_event hsound completeWritten .shutdownComplete rfl
          (hleave .done (by simp [hphase]) (fun _ _ => by simp) process.shutdownRequested)
        by_cases hrequested : process.shutdownRequested = true
        · simpa only [consumerStep, hphase, if_pos hrequested] using hcomplete
        · have hrequest := Continues.of_event hcomplete.sound requestedWritten .shutdownRequested
            rfl hcomplete.follows
          have hboth : Continues log start group _ := ⟨hrequest.sound, hrequest.follows,
            List.Subset.trans hcomplete.more hrequest.more⟩
          simpa only [consumerStep, hphase, if_neg hrequested] using hboth
    | _ => simpa only [consumerStep, hphase] using hsame

end Steps

/-- A process that crashes in front of its commit, and one that goes on in its place. -/
def crashSchedule : List (ℕ × ConsumerInput) :=
  [(0, .launch (fun _ => 0) true), (0, .receive ⟨"t", 0⟩), (0, .write true true),
    (1, .launch (fun _ => 0) true), (1, .receive ⟨"t", 0⟩), (1, .write true true),
    (1, .commit (.ok ()) true none true), (1, .receive ⟨"t", 0⟩), (1, .write true true),
    (1, .commit (.ok ()) true (some "timed out") true)]

end KafkaCli.Verifiable
