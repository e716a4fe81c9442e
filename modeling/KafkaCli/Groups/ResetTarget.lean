import KafkaCli.Groups.Calls
import KafkaCli.Lib.Decimal
import KafkaCli.Lib.MachineInt
import KafkaCli.Lib.Text
import Std.Data.TreeMap.Lemmas
import Std.Data.TreeSet.Lemmas

/-!
# Reset targets

The arguments of an offset reset: which topics and partitions are selected, and which offset a
partition is reset to.
-/

namespace KafkaCli.Groups

open Checked Decimal Text

structure ResetOffsetsArgs where
  group : List String := []
  allGroups : Bool := false
  topic : List String := []
  allTopics : Bool := false
  toEarliest : Bool := false
  toLatest : Bool := false
  toOffset : Option Int := none
  shiftBy : Option Int := none
  toCurrent : Bool := false
  toDatetime : Option String := none
  byDuration : Option String := none
  fromFile : Option String := none
  exportCsv : Bool := false
  execute : Bool := false
  dryRun : Bool := false

/-! ## Points in time -/

def parseDatetimeMillis (host : Host) (value : String) : Result Int :=
  (host.parseDatetime value).elim
    (.error (.usage "--to-datetime must be RFC 3339 or YYYY-MM-DDTHH:MM:SS.sss")) .ok

def durationTooLarge : Error := .usage "duration is too large"

/-- A 64-bit result of the arithmetic on a duration. -/
def durationSeconds (seconds : Int) : Result Int :=
  (checked64 seconds).elim (.error durationTooLarge) .ok

/-- The days of a duration, in front of its time. -/
def parseDurationDays (days : String) : Result Int :=
  if days = "" then .ok 0
  else
    match stripSuffix days "D" with
    | none => .error (.usage "unsupported ISO-8601 duration date component")
    | some digits =>
      (parseI64 digits).mapError fun _ => Error.usage "invalid ISO-8601 day duration"

/-- What is left of the time of a duration, whether there was a part, and the seconds so far. -/
structure DurationState where
  rest : String
  hadTime : Bool
  totalSeconds : Int

/-- Take the part with a suffix off the time. -/
def parseDurationPart (state : DurationState) (part : Char × Int) : Result DurationState :=
  match splitOnce state.rest part.1 with
  | none => .ok state
  | some (digits, rest) => do
    let amount ← (parseI64 digits).mapError fun _ =>
      Error.usage s!"invalid ISO-8601 {part.1} duration"
    let seconds ← durationSeconds (amount * part.2)
    let totalSeconds ← durationSeconds (state.totalSeconds + seconds)
    return { rest, hadTime := true, totalSeconds }

def parseIso8601DurationMillis (value : String) : Result Int := do
  let value ← (stripPrefix value "P").elim (.error (.usage "--by-duration must start with P")) .ok
  let (days, time) := (splitOnce value 'T').getD (value, "")
  let seconds ← parseDurationDays days
  let totalSeconds ← durationSeconds (seconds * 86400)
  let state ← [('H', 3600), ('M', 60), ('S', 1)].foldlM parseDurationPart
    { rest := time, hadTime := false, totalSeconds }
  failIf (days = "" ∧ state.hadTime = false)
    (.usage "ISO-8601 duration must include a day or time component (for example PT0S or P0D)")
  failIf (state.rest ≠ "" ∨ state.totalSeconds < 0) (.usage "invalid ISO-8601 duration")
  durationSeconds (state.totalSeconds * 1000)

/-- The point in time of a reset by datetime or duration. -/
def resetTimestamp (host : Host) (toDatetime byDuration : Option String) :
    Command (Option Int) :=
  match toDatetime, byDuration with
  | some datetime, _ => some <$> ofExcept (parseDatetimeMillis host datetime)
  | none, some duration => do
    let now : Int ← host.ask .now
    let millis ← ofExcept (parseIso8601DurationMillis duration)
    return some (saturate64 (now - millis))
  | none, none => return none

def chooseOneTarget : Error := .usage "choose one reset target"

def validateResetTarget (host : Host) (args : ResetOffsetsArgs) : Result Unit :=
  if args.toEarliest ∨ args.toLatest ∨ args.toOffset.isSome ∨ args.shiftBy.isSome ∨
      args.toCurrent ∨ args.toDatetime.isSome ∨ args.byDuration.isSome ∨
      args.fromFile.isSome then do
    let _ ← args.toDatetime.mapM (parseDatetimeMillis host)
    let _ ← args.byDuration.mapM parseIso8601DurationMillis
    return ()
  else .error chooseOneTarget

/-! ## Topics and partitions -/

/-- The partitions of each topic that are selected; all of them where there is no set. -/
abbrev ResetTopics := Std.TreeMap String (Option (Std.TreeSet Int))

/-- One argument: a topic, or a topic with some of its partitions. -/
def parseResetTopic (value : String) : Result (String × Option (Std.TreeSet Int)) :=
  match splitOnce value ':' with
  | some (topic, partitions) => do
    failIf (topic = "" ∨ partitions = "" ∨ ':' ∈ partitions.toList)
      (.usage s!"invalid reset topic {value}; expected topic:partition,partition")
    let partitions ← (split partitions ',').mapM fun partition =>
      (parseI32 partition).mapError fun _ =>
        Error.usage s!"invalid partition {partition} in {value}"
    failIf (∃ partition ∈ partitions, partition < 0)
      (.usage s!"partitions in {value} must be non-negative")
    return (topic, some (.ofList partitions))
  | none => do
    failIf (value = "") (.usage "reset topic must not be empty")
    return (value, none)

/-- Partitions that are selected twice. Selecting the whole topic wins. -/
def mergeSelections : Option (Std.TreeSet Int) → Option (Std.TreeSet Int) → Option (Std.TreeSet Int)
  | some current, some partitions => some (current.insertMany partitions.toList)
  | _, _ => none

def parseResetTopics (values : List String) : Result ResetTopics :=
  values.foldlM (fun topics value => do
    let (topic, partitions) ← parseResetTopic value
    return topics.insert topic
      ((topics[topic]?).elim partitions fun current => mergeSelections current partitions)) ∅

/-! ## Offsets -/

/-- The closest offset of the partition. -/
def Watermarks.clamp (watermarks : Watermarks) (offset : Int) : Int :=
  max watermarks.low (min offset watermarks.high)

def committedOffset (offsets : Option (List PartitionOffset)) (topic : String) (partition : Int) :
    Option Int :=
  (offsets.bind fun offsets =>
    (offsets.find? fun entry => entry.topic = topic ∧ entry.partition = partition).bind
      (·.offset)).filter (0 ≤ ·)

def shiftedOffset (current : Option Int) (shift : Int) (watermarks : Watermarks)
    (partition : Int) : Result Int :=
  current.elim (.error (.usage s!"cannot shift partition {partition}: no committed offset"))
    fun offset => .ok (watermarks.clamp (saturate64 (offset + shift)))

def resetTarget (args : ResetOffsetsArgs)
    (committed timestampOffsets : Option (List PartitionOffset)) (topic : String)
    (partition : Int) (watermarks : Watermarks) : Result Int :=
  if args.toEarliest then .ok watermarks.low
  else if args.toLatest then .ok watermarks.high
  else
    match args.toOffset, args.shiftBy with
    | some value, _ => .ok (watermarks.clamp value)
    | none, some shift =>
      shiftedOffset (committedOffset committed topic partition) shift watermarks partition
    | none, none =>
      if args.toCurrent then
        (committedOffset committed topic partition).elim
          (.error (.usage s!"partition {topic}:{partition} has no committed offset")) .ok
      else if timestampOffsets.isSome then
        .ok ((committedOffset timestampOffsets topic partition).getD watermarks.high)
      else .error chooseOneTarget

end KafkaCli.Groups
