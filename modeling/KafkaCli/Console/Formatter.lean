import KafkaCli.Lib.Text
import Mathlib.Data.List.Infix

/-!
# The formatter of the console consumers

What `consume` and `share-consume` write for a record: the fields that are to be printed, in a
fixed order. The two commands have records of different libraries and a body each.

Main result: `writeFormattedMessage_iff`. What is written is one terminated line for each record
exactly where the value is printed, or no terminator is to be written, or there is no record.
-/

namespace KafkaCli.Console

open Text

/-! ## Options -/

inductive NativeDeserializer
  | raw | utf8String
  deriving DecidableEq, Repr

def deserializeForDisplay (bytes : Option (List UInt8)) (deserializer : NativeDeserializer)
    (nullLiteral : List UInt8) : List UInt8 :=
  match deserializer with
  | .raw => bytes.getD nullLiteral
  | .utf8String => encodeUtf8 (fromUtf8Lossy (bytes.getD nullLiteral))

structure MessageFormatterOptions where
  printTimestamp : Bool
  printPartition : Bool
  printOffset : Bool
  printDelivery : Bool
  printEpoch : Bool
  printHeaders : Bool
  printKey : Bool
  printValue : Bool
  keySeparator : List UInt8
  lineSeparator : List UInt8
  headersSeparator : List UInt8
  nullLiteral : List UInt8
  keyDeserializer : NativeDeserializer
  valueDeserializer : NativeDeserializer
  headersDeserializer : NativeDeserializer

/-! ## Records -/

inductive Timestamp
  | notAvailable
  | createTime (millis : Int)
  | logAppendTime (millis : Int)
  deriving DecidableEq, Repr

/-- A message of `consume`, with the leader epoch as the client library has it. -/
structure BorrowedMessage where
  timestamp : Timestamp
  partition : Int
  offset : Int
  leaderEpoch : Int
  headers : Option (List (String × Option (List UInt8)))
  key : Option (List UInt8)
  payload : Option (List UInt8)

def messageLeaderEpoch (message : BorrowedMessage) : Option Int :=
  if message.leaderEpoch ≥ 0 then some message.leaderEpoch else none

/-- A record of `share-consume`. -/
structure ConsumerRecord where
  timestampType : Int
  timestamp : Int
  partition : Int
  offset : Int
  deliveryCount : Option Int
  leaderEpoch : Option Int
  headers : List (List UInt8 × Option (List UInt8))
  key : Option (List UInt8)
  value : Option (List UInt8)

def ConsumerRecord.timestampKind (record : ConsumerRecord) : String :=
  if record.timestampType = 1 then "LogAppendTime" else "CreateTime"

/-! ## Writing -/

variable (options : MessageFormatterOptions)

/-- The items with a separator before each one but the first. -/
def separated {α : Type} (separator : List UInt8) (item : α → List UInt8) (items : List α) :
    List UInt8 :=
  items.zipIdx.flatMap fun entry => (if entry.2 > 0 then separator else []) ++ item entry.1

def formattedLeaderEpoch (epoch : Option Int) : List UInt8 :=
  epoch.elim (encodeUtf8 "Epoch:NOT_PRESENT") fun epoch => encodeUtf8 s!"Epoch:{epoch}"

/-- A header: its key, a colon and its value. -/
def headerText (key : List UInt8) (value : Option (List UInt8)) : List UInt8 :=
  key ++ encodeUtf8 ":" ++
    deserializeForDisplay value options.headersDeserializer options.nullLiteral

def formattedHeaders (headers : Option (List (String × Option (List UInt8)))) : List UInt8 :=
  match headers.filter fun headers => headers.length > 0 with
  | none => encodeUtf8 "NO_HEADERS"
  | some headers => separated options.headersSeparator
    (fun (key, value) => headerText options (encodeUtf8 key) value) headers

def formattedShareHeaders (headers : List (List UInt8 × Option (List UInt8))) : List UInt8 :=
  if headers.isEmpty then encodeUtf8 "NO_HEADERS"
  else separated options.headersSeparator (fun (key, value) => headerText options key value) headers

/-- A field, if it is to be printed. -/
def fieldIf (print : Bool) (field : List UInt8) : List (List UInt8) :=
  if print then [field] else []

/-- The fields of `write_formatted_message`. -/
def messageFields (message : BorrowedMessage) : List (List UInt8) :=
  fieldIf options.printTimestamp
    (match message.timestamp with
      | .notAvailable => encodeUtf8 "NO_TIMESTAMP"
      | .createTime timestamp => encodeUtf8 s!"CreateTime:{timestamp}"
      | .logAppendTime timestamp => encodeUtf8 s!"LogAppendTime:{timestamp}") ++
  fieldIf options.printPartition (encodeUtf8 s!"Partition:{message.partition}") ++
  fieldIf options.printOffset (encodeUtf8 s!"Offset:{message.offset}") ++
  fieldIf options.printDelivery (encodeUtf8 "Delivery:NOT_PRESENT") ++
  fieldIf options.printEpoch (formattedLeaderEpoch (messageLeaderEpoch message)) ++
  fieldIf options.printHeaders (formattedHeaders options message.headers) ++
  fieldIf options.printKey
    (deserializeForDisplay message.key options.keyDeserializer options.nullLiteral) ++
  fieldIf options.printValue
    (deserializeForDisplay message.payload options.valueDeserializer options.nullLiteral)

/-- The fields of `write_formatted_share_message`. -/
def shareMessageFields (record : ConsumerRecord) : List (List UInt8) :=
  fieldIf options.printTimestamp
    (encodeUtf8 s!"{record.timestampKind}:{record.timestamp}") ++
  fieldIf options.printPartition (encodeUtf8 s!"Partition:{record.partition}") ++
  fieldIf options.printOffset (encodeUtf8 s!"Offset:{record.offset}") ++
  fieldIf options.printDelivery (record.deliveryCount.elim (encodeUtf8 "Delivery:NOT_PRESENT")
    fun count => encodeUtf8 s!"Delivery:{count}") ++
  fieldIf options.printEpoch (formattedLeaderEpoch record.leaderEpoch) ++
  fieldIf options.printHeaders (formattedShareHeaders options record.headers) ++
  fieldIf options.printKey
    (deserializeForDisplay record.key options.keyDeserializer options.nullLiteral) ++
  fieldIf options.printValue
    (deserializeForDisplay record.value options.valueDeserializer options.nullLiteral)

/-- The end of both functions: the fields, and the line separator where the value is printed. -/
def writeFields (fields : List (List UInt8)) : List UInt8 :=
  separated options.keySeparator id fields ++
    if options.printValue then options.lineSeparator else []

def writeFormattedMessage (message : BorrowedMessage) : List UInt8 :=
  writeFields options (messageFields options message)

def writeFormattedShareMessage (record : ConsumerRecord) : List UInt8 :=
  writeFields options (shareMessageFields options record)

/-! ## Lines -/

/-- The data of a record that can be shown. -/
structure ShownRecord where
  timestamp : Timestamp
  partition : Int
  offset : Int
  delivery : Option Int
  epoch : Option Int
  headers : List (List UInt8 × Option (List UInt8))
  key : Option (List UInt8)
  value : Option (List UInt8)

inductive Field
  | timestamp | partition | offset | delivery | epoch | headers | key | value
  deriving DecidableEq, Repr

/-- The fields in the order of a line. -/
def Field.order : List Field :=
  [.timestamp, .partition, .offset, .delivery, .epoch, .headers, .key, .value]

/-- The field is printed. -/
def MessageFormatterOptions.prints (options : MessageFormatterOptions) : Field → Bool
  | .timestamp => options.printTimestamp
  | .partition => options.printPartition
  | .offset => options.printOffset
  | .delivery => options.printDelivery
  | .epoch => options.printEpoch
  | .headers => options.printHeaders
  | .key => options.printKey
  | .value => options.printValue

/-- A number with its label, or a text for none. -/
def labelled (label : String) (n : Option Int) : List UInt8 :=
  let value := n.elim "NOT_PRESENT" toString
  encodeUtf8 s!"{label}:{value}"

def timestampText : Timestamp → List UInt8
  | .notAvailable => encodeUtf8 "NO_TIMESTAMP"
  | .createTime millis => encodeUtf8 s!"CreateTime:{millis}"
  | .logAppendTime millis => encodeUtf8 s!"LogAppendTime:{millis}"

def headersText (headers : List (List UInt8 × Option (List UInt8))) : List UInt8 :=
  if headers = [] then encodeUtf8 "NO_HEADERS"
  else options.headersSeparator.intercalate
    (headers.map fun (key, value) => headerText options key value)

def ShownRecord.text (record : ShownRecord) : Field → List UInt8
  | .timestamp => timestampText record.timestamp
  | .partition => labelled "Partition" (some record.partition)
  | .offset => labelled "Offset" (some record.offset)
  | .delivery => labelled "Delivery" record.delivery
  | .epoch => labelled "Epoch" record.epoch
  | .headers => headersText options record.headers
  | .key => deserializeForDisplay record.key options.keyDeserializer options.nullLiteral
  | .value => deserializeForDisplay record.value options.valueDeserializer options.nullLiteral

/-- The printed fields of a record, joined by the key separator. -/
def ShownRecord.joined (record : ShownRecord) : List UInt8 :=
  options.keySeparator.intercalate
    ((Field.order.filter options.prints).map (record.text options))

/-- **The line of a record**, with its terminator. -/
def ShownRecord.line (record : ShownRecord) : List UInt8 :=
  record.joined options ++ options.lineSeparator

def BorrowedMessage.shown (message : BorrowedMessage) : ShownRecord where
  timestamp := message.timestamp
  partition := message.partition
  offset := message.offset
  delivery := none
  epoch := messageLeaderEpoch message
  headers := (message.headers.getD []).map fun (key, value) => (encodeUtf8 key, value)
  key := message.key
  value := message.payload

def ConsumerRecord.shown (record : ConsumerRecord) : ShownRecord where
  timestamp := if record.timestampType = 1 then .logAppendTime record.timestamp
    else .createTime record.timestamp
  partition := record.partition
  offset := record.offset
  delivery := record.deliveryCount
  epoch := record.leaderEpoch
  headers := record.headers
  key := record.key
  value := record.value

/-! ## What is written -/

variable {options}

theorem separated_eq_intercalate {α : Type} (separator : List UInt8) (item : α → List UInt8)
    (items : List α) : separated separator item items = separator.intercalate (items.map item) := by
  -- after the first item, each one follows a separator
  have hlater : ∀ (items : List α) (index : Nat), 0 < index →
      (items.zipIdx index).flatMap (fun entry =>
        (if entry.2 > 0 then separator else []) ++ item entry.1) =
      items.flatMap fun x => separator ++ item x := by
    intro items
    induction items with
    | nil => simp
    | cons x items ih =>
      intro index hindex
      rw [List.zipIdx_cons, List.flatMap_cons, List.flatMap_cons, ih _ (by omega), if_pos hindex]
  have hjoin : ∀ (items : List α) (x : α), item x ++ items.flatMap (fun x => separator ++ item x) =
      separator.intercalate ((x :: items).map item) := by
    intro items
    induction items with
    | nil => simp
    | cons y items ih =>
      intro x
      rw [List.map_cons, List.map_cons, List.intercalate_cons_cons, ← List.map_cons, ← ih y]
      simp
  cases items with
  | nil => rfl
  | cons x items =>
    rw [separated, List.zipIdx_cons, List.flatMap_cons, hlater _ _ (by omega), ← hjoin]
    rfl

theorem formattedHeaders_eq (headers : Option (List (String × Option (List UInt8)))) :
    formattedHeaders options headers = headersText options
      ((headers.getD []).map fun (key, value) => (encodeUtf8 key, value)) := by
  rw [formattedHeaders, headersText]
  rcases headers with _ | _ | ⟨header, headers⟩
  · rfl
  · rfl
  · rw [Option.filter_some_pos (by simp)]
    simp [separated_eq_intercalate, Function.comp_def]

theorem formattedShareHeaders_eq (headers : List (List UInt8 × Option (List UInt8))) :
    formattedShareHeaders options headers = headersText options headers := by
  rw [formattedShareHeaders, headersText]
  cases headers with
  | nil => rfl
  | cons header headers => simp [separated_eq_intercalate]

/-- The printed fields, one after another. -/
theorem map_filter_prints (text : Field → List UInt8) :
    (Field.order.filter options.prints).map text =
      Field.order.flatMap fun field => fieldIf (options.prints field) (text field) := by
  induction Field.order with
  | nil => rfl
  | cons field fields ih =>
    rw [List.flatMap_cons, ← ih, List.filter_cons, fieldIf]
    split_ifs <;> rfl

theorem formattedLeaderEpoch_eq (epoch : Option Int) :
    formattedLeaderEpoch epoch = labelled "Epoch" epoch := by
  cases epoch <;> rfl

theorem messageFields_eq (message : BorrowedMessage) : messageFields options message =
    (Field.order.filter options.prints).map (message.shown.text options) := by
  rw [map_filter_prints, messageFields, formattedLeaderEpoch_eq, formattedHeaders_eq]
  simp only [Field.order, List.flatMap_cons, List.flatMap_nil, List.append_nil, List.append_assoc]
  obtain ⟨timestamp, _⟩ := message
  cases timestamp <;> rfl

theorem shareMessageFields_eq (record : ConsumerRecord) : shareMessageFields options record =
    (Field.order.filter options.prints).map (record.shown.text options) := by
  have htimestamp : encodeUtf8 s!"{record.timestampKind}:{record.timestamp}" =
      timestampText record.shown.timestamp := by
    rw [ConsumerRecord.timestampKind, ConsumerRecord.shown]
    split_ifs <;> rfl
  rw [map_filter_prints, shareMessageFields, formattedLeaderEpoch_eq, formattedShareHeaders_eq,
    htimestamp]
  simp only [Field.order, List.flatMap_cons, List.flatMap_nil, List.append_nil, List.append_assoc]
  obtain ⟨_, _, _, _, delivery, _⟩ := record
  cases delivery <;> rfl

theorem writeFormattedMessage_eq (message : BorrowedMessage) :
    writeFormattedMessage options message = message.shown.joined options ++
      if options.printValue then options.lineSeparator else [] := by
  rw [writeFormattedMessage, writeFields, separated_eq_intercalate, List.map_id, messageFields_eq]
  rfl

theorem writeFormattedShareMessage_eq (record : ConsumerRecord) :
    writeFormattedShareMessage options record = record.shown.joined options ++
      if options.printValue then options.lineSeparator else [] := by
  rw [writeFormattedShareMessage, writeFields, separated_eq_intercalate, List.map_id,
    shareMessageFields_eq]
  rfl

/-! ## Terminators -/

/-- A list of texts keeps its bytes without their terminators only where there are none. -/
theorem flatMap_append_eq_iff {α : Type} {f : α → List UInt8} {terminator : List UInt8}
    {l : List α} : l.flatMap f = l.flatMap (fun x => f x ++ terminator) ↔
      terminator = [] ∨ l = [] := by
  constructor
  · intro h
    have hlength : (l.flatMap fun x => f x ++ terminator).length =
        (l.flatMap f).length + l.length * terminator.length := by
      clear h
      induction l with
      | nil => simp
      | cons x l ih =>
        rw [List.flatMap_cons, List.length_append, ih, List.flatMap_cons, List.length_append,
          List.length_append, List.length_cons, Nat.succ_mul]
        omega
    rw [← h] at hlength
    have hzero : l.length * terminator.length = 0 := by omega
    rcases Nat.mul_eq_zero.1 hzero with hl | hterminator
    · exact .inr (List.length_eq_zero_iff.1 hl)
    · exact .inl (List.length_eq_zero_iff.1 hterminator)
  · rintro (rfl | rfl)
    · simp
    · rfl

/-! ## The two commands -/

/-- The records of the two libraries have the same data, apart from the delivery count. -/
def SameData (message : BorrowedMessage) (record : ConsumerRecord) : Prop :=
  record.shown = { message.shown with delivery := record.deliveryCount }

/-- The delivery field of a line. -/
def deliveryField (options : MessageFormatterOptions) (delivery : Option Int) : List UInt8 :=
  if options.printDelivery then labelled "Delivery" delivery else []

/-- What stands around an item of a joined list does not depend on it. -/
theorem exists_intercalate_append_cons (separator : List UInt8) (before after : List (List UInt8)) :
    ∃ start rest, ∀ item, separator.intercalate (before ++ item :: after) =
      start ++ item ++ rest := by
  induction before with
  | nil =>
    by_cases hafter : after = []
    · exact ⟨[], [], fun item => by simp [hafter]⟩
    · exact ⟨[], separator ++ separator.intercalate after, fun item => by
        simp [List.intercalate_cons_of_ne_nil hafter]⟩
  | cons first before ih =>
    obtain ⟨start, rest, hitem⟩ := ih
    refine ⟨first ++ separator ++ start, rest, fun item => ?_⟩
    rw [List.cons_append, List.intercalate_cons_of_ne_nil (by simp), hitem]
    simp

theorem map_text_delivery (record : ShownRecord) (delivery : Option Int) {fields : List Field}
    (h : .delivery ∉ fields) : fields.map (({ record with delivery } : ShownRecord).text options) =
      fields.map (record.text options) := by
  refine List.map_congr_left fun field hfield => ?_
  cases field with
  | delivery => exact absurd hfield h
  | timestamp | partition | offset | epoch | headers | key | value => rfl

/-- What stands around the delivery field of a line does not depend on the delivery count. -/
theorem exists_joined (options : MessageFormatterOptions) (record : ShownRecord) :
    ∃ start rest, ∀ delivery, ({ record with delivery } : ShownRecord).joined options =
      start ++ deliveryField options delivery ++ rest := by
  by_cases hprint : options.printDelivery = true
  · obtain ⟨start, rest, hitem⟩ := exists_intercalate_append_cons options.keySeparator
      (([.timestamp, .partition, .offset].filter options.prints).map (record.text options))
      (([.epoch, .headers, .key, .value].filter options.prints).map (record.text options))
    have horder : Field.order = [.timestamp, .partition, .offset] ++
      .delivery :: [.epoch, .headers, .key, .value] := rfl
    have hprints : options.prints .delivery = true := hprint
    refine ⟨start, rest, fun delivery => ?_⟩
    have hafter : Field.delivery ∉
        ([.epoch, .headers, .key, .value] : List Field).filter options.prints := by simp
    rw [deliveryField, if_pos hprint, ← hitem, ShownRecord.joined, horder, List.filter_append,
      List.filter_cons_of_pos hprints, List.map_append, List.map_cons,
      map_text_delivery _ _ (by simp), map_text_delivery _ _ hafter]
    rfl
  · refine ⟨record.joined options, [], fun delivery => ?_⟩
    have hnone : Field.delivery ∉ Field.order.filter options.prints := fun hmem =>
      hprint (List.mem_filter.1 hmem).2
    rw [deliveryField, if_neg hprint, List.append_nil, List.append_nil, ShownRecord.joined,
      map_text_delivery _ _ hnone]
    rfl

/-! ## Main result -/

/-- **One line for each record.** What is written for some records is their lines exactly where the
value is printed, or the line separator is empty, or there is no record. What the two commands write
for the same data differs in the delivery field only. -/
theorem writeFormattedMessage_iff (options : MessageFormatterOptions)
    (messages : List BorrowedMessage) :
    (messages.flatMap (writeFormattedMessage options) =
        messages.flatMap (fun message => message.shown.line options) ∧
      ∀ message record, SameData message record → ∃ start rest,
        writeFormattedMessage options message = start ++ deliveryField options none ++ rest ∧
        writeFormattedShareMessage options record =
          start ++ deliveryField options record.deliveryCount ++ rest) ↔
      options.printValue ∨ options.lineSeparator = [] ∨ messages = [] := by
  have hdelivery : ∀ message record, SameData message record → ∃ start rest,
      writeFormattedMessage options message = start ++ deliveryField options none ++ rest ∧
      writeFormattedShareMessage options record =
        start ++ deliveryField options record.deliveryCount ++ rest := by
    intro message record hsame
    obtain ⟨start, rest, hjoined⟩ := exists_joined options message.shown
    refine ⟨start, rest ++ if options.printValue then options.lineSeparator else [], ?_, ?_⟩
    · rw [writeFormattedMessage_eq, ← List.append_assoc, ← hjoined]
      rfl
    · rw [writeFormattedShareMessage_eq, hsame, ← List.append_assoc, ← hjoined]
  rw [and_iff_left hdelivery]
  by_cases hvalue : options.printValue = true
  · rw [iff_true_right (.inl hvalue)]
    refine congrArg (List.flatMap · messages) (funext fun message => ?_)
    rw [writeFormattedMessage_eq, if_pos hvalue, ShownRecord.line]
  · have hwritten : writeFormattedMessage options =
        fun message => message.shown.joined options := by
      funext message
      rw [writeFormattedMessage_eq, if_neg hvalue, List.append_nil]
    rw [or_iff_right hvalue, hwritten]
    exact flatMap_append_eq_iff

/-- Keys only, a line for each. -/
def keyOptions : MessageFormatterOptions where
  printTimestamp := false
  printPartition := false
  printOffset := false
  printDelivery := false
  printEpoch := false
  printHeaders := false
  printKey := true
  printValue := false
  keySeparator := [0x09]
  lineSeparator := [0x0A]
  headersSeparator := [0x2C]
  nullLiteral := [0x2D]
  keyDeserializer := .raw
  valueDeserializer := .raw
  headersDeserializer := .raw

/-- A message with a key only. -/
def keyMessage (key : Option (List UInt8)) : BorrowedMessage where
  timestamp := .notAvailable
  partition := 0
  offset := 0
  leaderEpoch := -1
  headers := none
  key := key
  payload := none

/-- The keys of two messages run together. -/
theorem writeFormattedMessage_runs_together :
    let messages := [keyMessage (some [0x61]), keyMessage (some [0x62])]
    keyOptions.prints .key = true ∧
      messages.flatMap (writeFormattedMessage keyOptions) = [0x61, 0x62] ∧
      messages.flatMap (fun message => message.shown.line keyOptions) =
        [0x61, 0x0A, 0x62, 0x0A] := ⟨rfl, by decide, by decide⟩

end KafkaCli.Console
