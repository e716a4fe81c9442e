/-!
# Errors of the tool

The error type of `error.rs`. Errors that wrap one of another library keep the wrapped text.
-/

namespace KafkaCli

/-- Failures returned by command parsing, configuration, Kafka and I/O operations. -/
inductive Error
  /-- An invocation or input file is invalid. -/
  | usage (message : String)
  /-- Client configuration is invalid. -/
  | config (message : String)
  /-- Kafka returned an error. -/
  | kafka (message : String)
  /-- The protocol client returned an error. -/
  | krafka (message : String)
  /-- A local I/O operation failed. -/
  | io (message : String)
  /-- JSON input or output failed. -/
  | json (message : String)
  /-- The broker does not support the requested operation. -/
  | unsupported (message : String)
  /-- One or more members of a batch operation failed. -/
  | partialFailure (failed total : Nat)
  deriving DecidableEq, Repr, Inhabited

/-- What the user reads. -/
def Error.text : Error → String
  | .usage message => message
  | .config message => "configuration error: " ++ message
  | .kafka message => message
  | .krafka message => message
  | .io message => message
  | .json message => message
  | .unsupported message => "unsupported operation: " ++ message
  | .partialFailure failed total => s!"{failed} of {total} operations failed"

/-- The result type of the library. -/
abbrev Result (α : Type) := Except Error α

/-- What stops a function: an error that it returns, or a panic. -/
inductive Fault
  | failed (error : Error)
  | panicked
  deriving DecidableEq, Repr

end KafkaCli
