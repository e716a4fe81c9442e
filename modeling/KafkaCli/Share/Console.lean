import KafkaCli.Share.Consumer

/-!
# The console share consumer

`share_consume` prints each record that it receives and acknowledges it: as accepted, or as rejected
or released where an option says so. A record that cannot be printed is rejected, or ends the run.
What the group delivers, to this process or to others, and when, is up to the server of the session;
a process that crashes has made a first part of its session.

The run of a launch is `shareConsume`; the module `ConsoleRuns` says what such a run does.
-/

namespace KafkaCli.Share.Console

open Checked Session

/-! ## The arguments -/

/-- The arguments that the loop uses. -/
structure ShareConsumeArgs where
  reject : Bool
  release : Bool
  rejectMessageOnError : Bool
  maxMessages : Option Int
  timeoutMs : Option ℕ
  enableSystestEvents : Bool
  deriving DecidableEq, Repr

/-- `should_consume_more`. -/
def shouldConsumeMore (maxMessages : Option Int) (received : ℕ) : Bool :=
  match maxMessages with
  | none | some (-1) => true
  | some maxMessages => received < maxMessages

/-- How records are acknowledged that were printed. -/
def ShareConsumeArgs.acknowledgement (args : ShareConsumeArgs) : ShareAcknowledgeType :=
  if args.reject then .reject else if args.release then .release else .accept

/-- There is a limit to the time without a record. -/
def ShareConsumeArgs.finiteIdleTimeout (args : ShareConsumeArgs) : Bool :=
  (args.timeoutMs.filter (· ≠ 2 ^ 64 - 1)).isSome

/-! ## Calls -/

/-- What is said besides the records. -/
inductive Notice
  | rejecting (error : Error)
  | processed (count : ℕ)
  | shutdownComplete

inductive Call (ρ : Type)
  /-- Wait for records, or for an interrupt. -/
  | poll
  /-- Print a record. -/
  | write (record : ρ)
  | acknowledge (record : ρ) (kind : ShareAcknowledgeType)
  | commitSync
  | close
  | print (notice : Notice)

/-- What comes back from a poll; with the records, whether the time without any is over. -/
inductive Polled (ρ : Type)
  | interrupted
  | records (records : List ρ) (elapsed : Bool)

/-- What comes back for a call. -/
@[reducible] def Reply (ρ : Type) : Call ρ → Type
  | .poll => Polled ρ
  | _ => Unit

variable {ρ : Type}

abbrev Command (ρ : Type) := Client (Reply ρ) Fault

/-! ## The algorithm -/

/-- The result of what may fail. A panic goes on. -/
def attempt {α : Type} (x : Command ρ α) : Command ρ (Result α) :=
  tryCatch (do return .ok (← x)) fun
    | .failed error => return .error error
    | .panicked => throw .panicked

variable (server : Server (Reply ρ) Fault) (args : ShareConsumeArgs)

/-- One record of a poll. -/
def handleRecord (received : ℕ) (record : ρ) : Command ρ ℕ := do
  match ← attempt (ask server (.write record)) with
  | .ok () => ask server (.acknowledge record args.acknowledgement)
  | .error error =>
    if args.rejectMessageOnError then
      ask server (.print (.rejecting error))
      ask server (.acknowledge record .reject)
    else throw (.failed error)
  return received + 1

/-- The records of a poll, as long as more are wanted. -/
def handleRecords : ℕ → List ρ → Command ρ ℕ
  | received, [] => return received
  | received, record :: rest =>
    if shouldConsumeMore args.maxMessages received then do
      let received ← handleRecord server args received record
      handleRecords received rest
    else return received

/-- `consume_share_records` for as many polls. There is no result where the loop is still going
on. -/
def consumeShareRecords : (polls : ℕ) → (received : ℕ) → Command ρ (Option ℕ)
  | 0, _ => return none
  | polls + 1, received =>
    if shouldConsumeMore args.maxMessages received then do
      match ← ask server .poll with
      | .interrupted => return some received
      | .records records elapsed =>
        if records.isEmpty then
          if args.finiteIdleTimeout && elapsed then return some received
          else consumeShareRecords polls received
        else
          let received ← handleRecords server args received records
          ask server .commitSync
          consumeShareRecords polls received
    else return some received

/-- The result of the loop, or else that of closing the client. -/
def closedResult (run : Result ℕ) (closed : Result Unit) : Except Fault Unit :=
  match run, closed with
  | .error error, _ | .ok _, .error error => .error (.failed error)
  | .ok _, .ok () => .ok ()

/-- What is done at the end, whatever the loop has come to. -/
def closeConsumer (run : Result ℕ) : Command ρ Unit := do
  let closed ← attempt (ask server .close)
  ask server (.print (.processed (run.toOption.getD 0)))
  if args.enableSystestEvents then ask server (.print .shutdownComplete)
  ofExcept (closedResult run closed)

/-- `share_consume` on its consumer, for as many polls. -/
def shareConsume (polls : ℕ) : Command ρ (Option Unit) := do
  match ← attempt (consumeShareRecords server args polls 0) with
  | .ok none => return none
  | .ok (some received) => some <$> closeConsumer server args (.ok received)
  | .error error => some <$> closeConsumer server args (.error error)

end KafkaCli.Share.Console
