import KafkaCli.Error
import KafkaCli.Lib.Checked
import KafkaCli.Lib.SortedMap
import KafkaCli.Lib.Text
import Mathlib.Algebra.Group.Int.Defs

/-!
# Records of the console tools

`consume --json` writes a record as one line of JSON, and `produce --json` reads such a line.
`produce` also reads plain lines, with the separators of its line reader.

The text of JSON is written and read by another library, a `Serde`. Its values are trees here; a
`BTreeMap` keeps one value for each key and lists them by their keys.
-/

namespace KafkaCli.Console

open Checked Text

/-- A header with its value, if any. -/
abbrev Header := String × Option String

abbrev HeaderMap := Std.TreeMap String (Option String)

/-! ## JSON -/

inductive Json
  | null
  | bool (b : Bool)
  | number (n : Int)
  | float (text : String)
  | string (s : String)
  | array (items : List Json)
  | object (members : List (String × Json))
  deriving Repr

/-- The writer and the reader of JSON text, with what the reader says about a value of the wrong
shape. -/
structure Serde where
  write : Json → String
  read : String → Except String Json
  fault : Json → String

def Json.ofOption {α : Type} (f : α → Json) : Option α → Json
  | none => .null
  | some a => f a

/-! ## Consuming -/

/-- A message as the consumer hands it over. -/
structure Message where
  topic : String
  partition : Int
  offset : Int
  timestamp : Option Int
  key : Option (List UInt8)
  payload : Option (List UInt8)
  headers : Option (List (String × Option (List UInt8)))

structure ConsumedRecord where
  topic : String
  partition : Int
  offset : Int
  timestamp : Option Int
  key : Option String
  value : Option String
  headers : HeaderMap

/-- `collect_headers`: a later header replaces an earlier one of its key. -/
def collectHeaders (headers : Option (List (String × Option (List UInt8)))) : HeaderMap :=
  (headers.getD []).foldl
    (fun result header => result.insert header.1 (header.2.map fromUtf8Lossy)) ∅

/-- The record that `consume` writes for a message. -/
def consumedRecord (message : Message) : ConsumedRecord where
  topic := message.topic
  partition := message.partition
  offset := message.offset
  timestamp := message.timestamp
  key := message.key.map fromUtf8Lossy
  value := message.payload.map fromUtf8Lossy
  headers := collectHeaders message.headers

def headersJson (headers : HeaderMap) : Json :=
  .object (headers.toList.map fun (key, value) => (key, .ofOption .string value))

/-- A record in the order of its fields. -/
def ConsumedRecord.json (record : ConsumedRecord) : Json :=
  .object [("topic", .string record.topic), ("partition", .number record.partition),
    ("offset", .number record.offset), ("timestamp", .ofOption .number record.timestamp),
    ("key", .ofOption .string record.key), ("value", .ofOption .string record.value),
    ("headers", headersJson record.headers)]

/-- The line of a message. -/
def consumeLine (serde : Serde) (message : Message) : String :=
  serde.write (consumedRecord message).json

/-! ## Producing -/

structure ProducerInput where
  key : Option String
  value : Option String
  partition : Option Int
  headers : List Header
  deriving DecidableEq, Repr

/-- An optional text. -/
def readString : Json → Option (Option String)
  | .null => some none
  | .string s => some (some s)
  | _ => none

/-- An optional 32-bit number. -/
def readI32 : Json → Option (Option Int)
  | .null => some none
  | .number n => if -2 ^ 31 ≤ n ∧ n < 2 ^ 31 then some (some n) else none
  | _ => none

/-- `deserialize_producer_headers`: the headers go through a map. -/
def deserializeProducerHeaders : Json → Option (List Header)
  | .object members => do
    let headers ← members.mapM fun (key, json) => (readString json).map fun value => (key, value)
    return (Std.TreeMap.ofList headers : HeaderMap).toList
  | _ => none

/-- A field of an object, the default where it is missing. It must not come twice. -/
def readField {α : Type} (members : List (String × Json)) (name : String) (missing : α)
    (read : Json → Option α) : Option α :=
  match members.filter fun member => member.1 = name with
  | [] => some missing
  | [member] => read member.2
  | _ => none

/-- A producer input from a tree: an object, whose other fields are ignored, or an array of its
fields in their order, of which the value must be there. -/
def ProducerInput.ofJson : Json → Option ProducerInput
  | .object members => do
    let key ← readField members "key" none readString
    let value ← readField members "value" none readString
    let partition ← readField members "partition" none readI32
    let headers ← readField members "headers" [] deserializeProducerHeaders
    return { key, value, partition, headers }
  | .array (key :: value :: rest) => do
    if rest.length > 2 then none
    else
      let key ← readString key
      let value ← readString value
      let partition ← rest[0]?.elim (some none) readI32
      let headers ← rest[1]?.elim (some []) deserializeProducerHeaders
      return { key, value, partition, headers }
  | _ => none

/-- The options of the line reader. `headersSeparator` splits at a regular expression. -/
structure LineReaderOptions where
  parseKey : Bool
  keySeparator : String
  parseHeaders : Bool
  headersDelimiter : String
  headersSeparator : String → List String
  headersKeySeparator : String
  ignoreError : Bool
  nullMarker : Option String

/-- `nullable_field`. -/
def nullableField (value marker : Option String) : Option String :=
  value.bind fun value => if some value ≠ marker then some value else none

/-- `parse_line_field`: what stands before the separator, and what stands after it. -/
def parseLineField (enabled : Bool) (line separator : String) (ignoreError : Bool)
    (name : String) : Result (Option String × String) :=
  if !enabled then .ok (none, line)
  else
    match splitOnceText line separator with
    | some (before, after) => .ok (some before, after)
    | none =>
      if ignoreError then .ok (none, line)
      else .error (.usage ("no " ++ name ++ " found in input line"))

/-- One pair of `parse_line_headers`. -/
def parseLineHeader (options : LineReaderOptions) (pair : String) : Result Header :=
  match splitOnceText pair options.headersKeySeparator with
  | some (key, value) =>
    if options.nullMarker = some key then
      .error (.usage "header key cannot equal null.marker")
    else .ok (key, nullableField (some value) options.nullMarker)
  | none =>
    if options.ignoreError then .ok (pair, none)
    else .error (.usage ("no header key separator found in pair '" ++ pair ++ "'"))

/-- `parse_line_headers`. -/
def parseLineHeaders (headers : String) (options : LineReaderOptions) : Result (List Header) :=
  if options.nullMarker = some headers then .ok []
  else (options.headersSeparator headers).mapM (parseLineHeader options)

/-- The branch of `producer_input` for plain lines. -/
def plainInput (line : String) (options : LineReaderOptions) : Result ProducerInput := do
  let (headers, remaining) ← parseLineField options.parseHeaders line options.headersDelimiter
    options.ignoreError "headers delimiter"
  let (key, value) ← parseLineField options.parseKey remaining options.keySeparator
    options.ignoreError "key separator"
  let headers ← headers.elim (.ok []) fun headers => parseLineHeaders headers options
  return { key := nullableField key options.nullMarker
           value := nullableField (some value) options.nullMarker
           partition := none, headers }

/-- The branch of `producer_input` for JSON. -/
def jsonInput (serde : Serde) (line : String) : Result ProducerInput := do
  let json ← (serde.read line).mapError Error.json
  let input ← (ProducerInput.ofJson json).elim (.error (.json (serde.fault json))) .ok
  failIf (input.partition.any (· < 0)) (.usage "partition must be non-negative")
  return input

/-- `producer_input`. -/
def producerInput (serde : Serde) (line : String) (json : Bool) (options : LineReaderOptions) :
    Result ProducerInput :=
  if json then jsonInput serde line else plainInput line options

end KafkaCli.Console
