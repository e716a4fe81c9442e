import KafkaCli.Console.Json

/-!
# Producing what was consumed

A record whose key, value and headers are text is written by `consume --json`, and the line is
read by `produce --json`.

**Theorem (`reproduced_iff`).** Key, value, partition and headers come back exactly when the
header keys increase strictly. The headers pass through a sorted map on both sides, so a repeated
key loses all but its last value and any other order is lost; the rest always comes back
(`jsonInput_consumeLine`).
-/

namespace KafkaCli.Console

open Checked SortedMap Text

/-- A record of text. Its partition is a partition number. -/
structure TextRecord where
  topic : String
  partition : Int
  partition_nonneg : 0 ≤ partition
  partition_lt : partition < 2 ^ 31
  offset : Int
  timestamp : Option Int
  key : Option String
  value : Option String
  headers : List Header

/-- The message of a record. One without headers has no list of them. -/
def TextRecord.message (record : TextRecord) : Message where
  topic := record.topic
  partition := record.partition
  offset := record.offset
  timestamp := record.timestamp
  key := record.key.map encodeUtf8
  payload := record.value.map encodeUtf8
  headers := if record.headers = [] then none
    else some (record.headers.map fun header => (header.1, header.2.map encodeUtf8))

/-- The line of the record is read back as a producer input with all its parts. -/
def Reproduced (serde : Serde) (options : LineReaderOptions) (record : TextRecord) : Prop :=
  ∃ input, producerInput serde (consumeLine serde record.message) true options = .ok input ∧
    input.key = record.key ∧ input.value = record.value ∧
    input.partition = some record.partition ∧ input.headers = record.headers

/-! ## What is written -/

theorem map_fromUtf8Lossy (text : Option String) :
    (text.map encodeUtf8).map fromUtf8Lossy = text := by
  cases text with
  | none => rfl
  | some s => rw [Option.map_some, Option.map_some, fromUtf8Lossy_encodeUtf8]

/-- The headers of a record as a map. -/
theorem collectHeaders_message (record : TextRecord) :
    collectHeaders record.message.headers = .ofList record.headers := by
  have hlist : record.message.headers.getD [] =
      record.headers.map fun header => (header.1, header.2.map encodeUtf8) := by
    rw [TextRecord.message]
    split_ifs with hempty
    · rw [hempty]
      rfl
    · rfl
  rw [collectHeaders, hlist, List.foldl_map, Std.TreeMap.ofList_eq_insertMany_empty]
  generalize (∅ : HeaderMap) = map
  induction record.headers generalizing map with
  | nil => simp
  | cons header headers ih =>
    rw [List.foldl_cons, ih, Std.TreeMap.insertMany_cons, map_fromUtf8Lossy]

/-! ## What is read -/

theorem readString_ofOption (text : Option String) :
    readString (.ofOption .string text) = some text := by
  cases text <;> rfl

/-- The headers of a map are read as the map lists them. -/
theorem deserializeProducerHeaders_headersJson (headers : HeaderMap) :
    deserializeProducerHeaders (headersJson headers) = some headers.toList := by
  have hread : (headers.toList.map fun header => (header.1, Json.ofOption .string header.2)).mapM
      (fun entry => (readString entry.2).map fun value => (entry.1, value)) =
        some headers.toList := by
    induction headers.toList with
    | nil => rfl
    | cons header rest ih =>
      simp only [List.map_cons, List.mapM_cons, readString_ofOption, ih]
      rfl
  have hsame : (Std.TreeMap.ofList headers.toList : HeaderMap).toList = headers.toList :=
    toList_ofList_eq_iff.2 (increasing_toList headers)
  have hheaders : deserializeProducerHeaders (headersJson headers) =
      (some headers.toList).map fun headers => (Std.TreeMap.ofList headers : HeaderMap).toList := by
    rw [← hread, Option.map_eq_bind]
    rfl
  exact hheaders.trans (congrArg some hsame)

theorem readI32_number {n : Int} (hnonneg : 0 ≤ n) (hlt : n < 2 ^ 31) :
    readI32 (.number n) = some (some n) := by
  have hlow : -2 ^ 31 ≤ n := by omega
  simp only [readI32, hlow, hlt, and_self, if_true]

/-- **What comes back.** The line of a record is read as its key, its value, its partition, and
its headers as a map lists them. -/
theorem jsonInput_consumeLine (serde : Serde) (record : TextRecord)
    (hline : serde.read (consumeLine serde record.message) =
      .ok (consumedRecord record.message).json) :
    jsonInput serde (consumeLine serde record.message) =
      .ok { key := record.key, value := record.value, partition := some record.partition
            headers := (Std.TreeMap.ofList record.headers : HeaderMap).toList } := by
  have htree : ProducerInput.ofJson (consumedRecord record.message).json =
      some { key := record.key, value := record.value, partition := some record.partition
             headers := (Std.TreeMap.ofList record.headers : HeaderMap).toList } := by
    have hkey : (consumedRecord record.message).key = record.key := map_fromUtf8Lossy record.key
    have hvalue : (consumedRecord record.message).value = record.value :=
      map_fromUtf8Lossy record.value
    have hheaders : (consumedRecord record.message).headers = .ofList record.headers :=
      collectHeaders_message record
    have hpartition : (consumedRecord record.message).partition = record.partition := rfl
    simp [ConsumedRecord.json, ProducerInput.ofJson, readField, hkey, hvalue, hheaders, hpartition,
      readString_ofOption, readI32_number record.partition_nonneg record.partition_lt,
      deserializeProducerHeaders_headersJson]
  have hnonneg := record.partition_nonneg
  have hpartition : ¬ (record.partition < 0) := by omega
  simp only [jsonInput, hline, htree, Except.mapError, ok_bind, Option.elim_some]
  simp [failIf, hpartition]

/-! ## The theorem -/

/-- **When a record is reproduced.** For a line that the reader of JSON reads as it was written,
this is so exactly when the header keys increase strictly. -/
theorem reproduced_iff (serde : Serde) (options : LineReaderOptions) (record : TextRecord)
    (hline : serde.read (consumeLine serde record.message) =
      .ok (consumedRecord record.message).json) :
    Reproduced serde options record ↔ Increasing compare record.headers := by
  have hinput : producerInput serde (consumeLine serde record.message) true options = _ :=
    jsonInput_consumeLine serde record hline
  rw [Reproduced, hinput, ← toList_ofList_eq_iff]
  refine ⟨?_, ?_⟩
  · intro ⟨input, hok, _, _, _, hheaders⟩
    rw [Except.ok.injEq] at hok
    rw [← hok] at hheaders
    exact hheaders
  · intro hheaders
    exact ⟨_, rfl, rfl, rfl, rfl, hheaders⟩

/-- A reader and a writer of one line. -/
def Serde.ofLine (line : String) (json : Json) : Serde where
  write _ := line
  read text := if text = line then .ok json else .error "expected value at line 1 column 1"
  fault _ := "invalid type"

/-- A record of partition 0 with some headers. -/
def recordWith (headers : List Header) : TextRecord where
  topic := "t"
  partition := 0
  partition_nonneg := by decide
  partition_lt := by decide
  offset := 5
  timestamp := none
  key := some "k"
  value := some "v"
  headers := headers

/-- The JSON text of such a record, given that of its headers. -/
def lineWith (headers : String) : String :=
  "\x7b\"topic\":\"t\",\"partition\":0,\"offset\":5,\"timestamp\":null,\"key\":\"k\"," ++
    "\"value\":\"v\",\"headers\":\x7b" ++ headers ++ "\x7d\x7d"

/-- The defaults of the line reader. -/
def defaultReader : LineReaderOptions where
  parseKey := false
  keySeparator := "\t"
  parseHeaders := false
  headersDelimiter := "\t"
  headersSeparator := fun headers => split headers ','
  headersKeySeparator := ":"
  ignoreError := false
  nullMarker := none

theorem Serde.read_ofLine (line : String) (json : Json) (message : Message) :
    (Serde.ofLine line json).read (consumeLine (Serde.ofLine line json) message) = .ok json :=
  if_pos rfl

theorem reproduced_two_headers :
    Reproduced (Serde.ofLine (lineWith "\"a\":\"1\",\"b\":null")
      (consumedRecord (recordWith [("a", some "1"), ("b", none)]).message).json) defaultReader
      (recordWith [("a", some "1"), ("b", none)]) :=
  (reproduced_iff _ _ _ (Serde.read_ofLine _ _ _)).2 (by decide)

/-- Two headers in the other order are sorted. -/
theorem not_reproduced_unsorted : ¬ ∀ serde options record,
    serde.read (consumeLine serde (TextRecord.message record)) =
      .ok (consumedRecord record.message).json → Reproduced serde options record := by
  intro h
  let record := recordWith [("b", some "1"), ("a", some "2")]
  let serde :=
    Serde.ofLine (lineWith "\"a\":\"2\",\"b\":\"1\"") (consumedRecord record.message).json
  have hline : serde.read (consumeLine serde record.message) =
      .ok (consumedRecord record.message).json := Serde.read_ofLine _ _ _
  obtain ⟨input, hinput, _, _, _, hheaders⟩ := h serde defaultReader record hline
  have hread : producerInput serde (consumeLine serde record.message) true defaultReader = _ :=
    jsonInput_consumeLine serde record hline
  rw [hread, Except.ok.injEq] at hinput
  rw [← hinput] at hheaders
  have hincreasing : Increasing compare [("b", some "1"), ("a", some "2")] :=
    toList_ofList_eq_iff.1 hheaders
  exact absurd hincreasing (by decide)

end KafkaCli.Console
