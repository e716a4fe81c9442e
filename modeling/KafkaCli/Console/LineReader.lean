import KafkaCli.Console.Json

/-!
# The line reader of the producer

`produce` reads a plain line as headers, key and value. `line_reader_options` takes the separators
from the properties of the reader, `producer_input` cuts a line at them.

**Theorem (`producerInput_lines`).** A record with a header, or one without where the null marker
is the empty text, is read back from its line if every separator occurs first where it was put;
and the pieces that any line is cut into are the line again. Without a header there is an empty
header text in the line, which is read as a pair without a separator
(`not_producerInput_noHeaders`).
-/

namespace KafkaCli.Console

open Checked Text

/-! ## The options -/

/-- What the line reader uses of the arguments of `produce`. -/
structure ProduceArgs where
  lineReader : String := "org.apache.kafka.tools.LineMessageReader"
  keySeparator : Option Char := none
  parseKey : Bool := false
  readerProperties : List String := []
  deprecatedReaderProperties : List String := []
  readerConfig : Option String := none

/-- `ProduceArgs::reader_properties`. -/
def ProduceArgs.inlineProperties (args : ProduceArgs) : List String :=
  if args.readerProperties.isEmpty then args.deprecatedReaderProperties
  else args.readerProperties

/-- Properties by their keys. -/
abbrev PropertyMap := Std.TreeMap String String

/-- `parse_pairs`. -/
def parsePairs (values : List String) : Result (List (String × String)) :=
  values.mapM fun value =>
    (splitOnce value '=').elim (.error (.usage s!"expected key=value, got {value}")) .ok

/-- `component_properties`: a file, overridden by what is given inline. `load` reads a file. -/
def componentProperties (load : String → Result PropertyMap) (path : Option String)
    (inline : List String) : Result PropertyMap := do
  let properties ← path.elim (.ok ∅) load
  let pairs ← parsePairs inline
  return pairs.foldl (fun properties pair => properties.insert pair.1 pair.2) properties

/-- `bool_property`. -/
def boolProperty (value : String) : Bool := toAsciiLowercase (trim value) = "true"

/-- The expression that separates the headers. -/
def headersSeparatorValue (properties : PropertyMap) : String :=
  (properties["headers.separator"]?).getD ","

/-- Two separators must differ. -/
def checkDistinct (leftName left rightName right : String) : Result Unit :=
  failIf (left = right) (.usage s!"{leftName} and {rightName} may not be equal")

/-- The null marker must not be a separator. -/
def checkMarker (marker name separator : String) : Result Unit :=
  failIf (marker = separator) (.usage s!"null.marker and {name} may not be equal")

/-- `line_reader_options`. `compile` reads a regular expression and splits texts at it. -/
def lineReaderOptions (load : String → Result PropertyMap)
    (compile : String → Except String (String → List String)) (args : ProduceArgs) :
    Result LineReaderOptions := do
  failIf (args.lineReader ≠ "org.apache.kafka.tools.LineMessageReader") (.unsupported
    s!"Java line reader class {args.lineReader} cannot be loaded by the native client")
  let properties ← componentProperties load args.readerConfig args.inlineProperties
  let keySeparator :=
    ((properties["key.separator"]?).or (args.keySeparator.map String.singleton)).getD "\t"
  let headersDelimiter := (properties["headers.delimiter"]?).getD "\t"
  let headersSeparator ← (compile (headersSeparatorValue properties)).mapError fun error =>
    .usage s!"invalid headers.separator regular expression: {error}"
  let headersKeySeparator := (properties["headers.key.separator"]?).getD ":"
  let nullMarker := properties["null.marker"]?
  checkDistinct "headers.delimiter" headersDelimiter
    "headers.separator" (headersSeparatorValue properties)
  checkDistinct "headers.delimiter" headersDelimiter "headers.key.separator" headersKeySeparator
  checkDistinct "headers.separator" (headersSeparatorValue properties)
    "headers.key.separator" headersKeySeparator
  nullMarker.elim (.ok ()) fun marker => do
    checkMarker marker "key.separator" keySeparator
    checkMarker marker "headers.delimiter" headersDelimiter
    checkMarker marker "headers.separator" (headersSeparatorValue properties)
    checkMarker marker "headers.key.separator" headersKeySeparator
  return { parseKey := (properties["parse.key"]?).elim args.parseKey boolProperty
           keySeparator
           parseHeaders := (properties["parse.headers"]?).elim false boolProperty
           headersDelimiter, headersSeparator, headersKeySeparator
           ignoreError := (properties["ignore.error"]?).elim false boolProperty
           nullMarker }

/-- Accepted options split headers as their expression does. -/
theorem compile_of_lineReaderOptions {load : String → Result PropertyMap}
    {compile : String → Except String (String → List String)} {args : ProduceArgs}
    {options : LineReaderOptions} {properties : PropertyMap}
    (hoptions : lineReaderOptions load compile args = .ok options)
    (hproperties : componentProperties load args.readerConfig args.inlineProperties =
      .ok properties) :
    compile (headersSeparatorValue properties) = .ok options.headersSeparator := by
  simp only [lineReaderOptions, hproperties, ok_bind, bind_eq_ok, mapError_eq_ok,
    pure_eq_ok] at hoptions
  obtain ⟨_, _, split, hsplit, _, _, _, _, _, _, _, _, rfl⟩ := hoptions
  exact hsplit

/-! ## The line of a record -/

/-- What a plain line says. -/
structure LineRecord where
  headers : List Header
  key : Option String
  value : Option String

/-- A component as it is written. One that is missing is the null marker. -/
def renderComponent (options : LineReaderOptions) (component : Option String) : String :=
  component.getD (options.nullMarker.getD "")

def renderHeader (options : LineReaderOptions) (header : Header) : String :=
  header.1 ++ (options.headersKeySeparator ++ renderComponent options header.2)

def renderHeaders (separator : String) (options : LineReaderOptions) (headers : List Header) :
    String :=
  separator.intercalate (headers.map (renderHeader options))

/-- Headers, key and value, each behind the separator of the one before it. -/
def LineRecord.render (separator : String) (options : LineReaderOptions) (record : LineRecord) :
    String :=
  renderHeaders separator options record.headers ++ (options.headersDelimiter ++
    (renderComponent options record.key ++ (options.keySeparator ++
      renderComponent options record.value)))

/-- The parts of a record that are written one by one. -/
def LineRecord.components (record : LineRecord) : List (Option String) :=
  record.key :: record.value :: record.headers.flatMap fun header => [some header.1, header.2]

/-- No separator occurs in front of the place where it was put, and no part of the record is taken
for the null marker; a part that is missing has one to be written as. -/
structure LineRecord.Clear (separator : String) (options : LineReaderOptions)
    (record : LineRecord) : Prop where
  delimiter : ∀ n < (renderHeaders separator options record.headers).toList.length,
    ¬ OccursAt options.headersDelimiter (record.render separator options) n
  key : ∀ n < (renderComponent options record.key).toList.length,
    ¬ OccursAt options.keySeparator (renderComponent options record.key ++
      (options.keySeparator ++ renderComponent options record.value)) n
  headers : Separable separator (record.headers.map (renderHeader options))
  headerKeys : ∀ header ∈ record.headers, ∀ n < header.1.toList.length,
    ¬ OccursAt options.headersKeySeparator (renderHeader options header) n
  components : ∀ component ∈ record.components, component ≠ options.nullMarker
  marker : record.headers ≠ [] →
    some (renderHeaders separator options record.headers) ≠ options.nullMarker

/-- A component that is not the null marker is read as it was written. -/
theorem nullableField_renderComponent {options : LineReaderOptions} {component : Option String}
    (h : component ≠ options.nullMarker) :
    nullableField (some (renderComponent options component)) options.nullMarker = component := by
  cases component with
  | some text => simp [nullableField, renderComponent, h]
  | none =>
    cases hmarker : options.nullMarker with
    | none => exact absurd hmarker.symm h
    | some marker => simp [nullableField, renderComponent, hmarker]

/-- A field is cut at the place where its separator was put. -/
theorem parseLineField_render {before separator after name : String} {ignoreError : Bool}
    (hfirst : ∀ n < before.toList.length,
      ¬ OccursAt separator (before ++ (separator ++ after)) n) :
    parseLineField true (before ++ (separator ++ after)) separator ignoreError name =
      .ok (some before, after) := by
  rw [parseLineField, splitOnceText_eq_some.2 ⟨rfl, hfirst⟩]
  rfl

theorem parseLineHeader_render {options : LineReaderOptions} {header : Header}
    (hfirst : ∀ n < header.1.toList.length,
      ¬ OccursAt options.headersKeySeparator (renderHeader options header) n)
    (hkey : some header.1 ≠ options.nullMarker) (hvalue : header.2 ≠ options.nullMarker) :
    parseLineHeader options (renderHeader options header) = .ok header := by
  have hsplit : splitOnceText (renderHeader options header) options.headersKeySeparator =
      some (header.1, renderComponent options header.2) :=
    splitOnceText_eq_some.2 ⟨rfl, hfirst⟩
  simp only [parseLineHeader, hsplit, if_neg (Ne.symm hkey), nullableField_renderComponent hvalue]

/-- The headers of a record are read back from their text. -/
theorem parseLineHeaders_render {separator : String} {options : LineReaderOptions}
    {record : LineRecord}
    (hsplit : separator ≠ "" → SplitsAt separator options.headersSeparator)
    (hclear : record.Clear separator options)
    (hempty : record.headers = [] → options.nullMarker = some "") :
    parseLineHeaders (renderHeaders separator options record.headers) options =
      .ok record.headers := by
  rw [parseLineHeaders]
  by_cases hnil : record.headers = []
  · rw [if_pos (by simp [hnil, hempty hnil, renderHeaders]), hnil]
  · rw [if_neg (Ne.symm (hclear.marker hnil))]
    have hpairs : record.headers.map (renderHeader options) ≠ [] := by simpa using hnil
    have hsplit := hsplit (hclear.headers.ne_empty hpairs)
    rw [renderHeaders, hsplit.intercalate hpairs hclear.headers]
    refine mapM_ok_of_forall₂ (List.forall₂_map_left_iff.2 (List.forall₂_same.2 ?_))
    intro header hheader
    have hparts : ∀ component ∈ [some header.1, header.2], component ≠ options.nullMarker :=
      fun component hcomponent => hclear.components component
        (List.mem_cons_of_mem _ (List.mem_cons_of_mem _
          (List.mem_flatMap.2 ⟨header, hheader, hcomponent⟩)))
    exact parseLineHeader_render (hclear.headerKeys header hheader) (hparts _ (by simp))
      (hparts _ (by simp))

/-- A record is read back from its line. -/
theorem plainInput_render {separator : String} {options : LineReaderOptions} {record : LineRecord}
    (hheaders : options.parseHeaders = true) (hkey : options.parseKey = true)
    (hsplit : separator ≠ "" → SplitsAt separator options.headersSeparator)
    (hclear : record.Clear separator options)
    (hempty : record.headers = [] → options.nullMarker = some "") :
    plainInput (record.render separator options) options =
      .ok { key := record.key, value := record.value, partition := none
            headers := record.headers } := by
  have hread := parseLineHeaders_render hsplit hclear hempty
  rw [plainInput, hheaders, hkey, LineRecord.render, parseLineField_render hclear.delimiter,
    ok_bind]
  simp only [parseLineField_render hclear.key, ok_bind, Option.elim_some, hread]
  rw [nullableField_renderComponent (hclear.components _ (by simp [LineRecord.components])),
    nullableField_renderComponent (hclear.components _ (by simp [LineRecord.components]))]
  rfl

/-! ## The pieces of a line -/

/-- The pieces that a line is cut into, as they stand in it. -/
structure RawLine where
  headers : Option String
  key : Option String
  value : String

/-- The pieces with the separators behind them. -/
def RawLine.text (options : LineReaderOptions) (raw : RawLine) : String :=
  raw.headers.elim "" (· ++ options.headersDelimiter) ++
    (raw.key.elim "" (· ++ options.keySeparator) ++ raw.value)

/-- A field is there where it is enabled, unless errors are ignored and its separator is not in
the text. -/
def FieldOf (enabled ignoreError : Bool) (separator rest : String) : Option String → Prop
  | some _ => enabled = true
  | none => enabled = true → ignoreError = true ∧ ¬ separator.toList <:+: rest.toList

/-- The record is what the pieces say. -/
structure RawLine.Says (options : LineReaderOptions) (raw : RawLine) (input : ProducerInput) :
    Prop where
  fieldHeaders : FieldOf options.parseHeaders options.ignoreError options.headersDelimiter
    (raw.text options) raw.headers
  fieldKey : FieldOf options.parseKey options.ignoreError options.keySeparator
    (raw.key.elim "" (· ++ options.keySeparator) ++ raw.value) raw.key
  headers : raw.headers.elim (.ok []) (parseLineHeaders · options) = .ok input.headers
  key : input.key = nullableField raw.key options.nullMarker
  value : input.value = nullableField (some raw.value) options.nullMarker
  partition : input.partition = none

/-- A field that was read stands in front of its separator and what remains. -/
theorem of_parseLineField {enabled ignoreError : Bool} {line separator name remaining : String}
    {field : Option String}
    (h : parseLineField enabled line separator ignoreError name = .ok (field, remaining)) :
    field.elim "" (· ++ separator) ++ remaining = line ∧
      FieldOf enabled ignoreError separator line field := by
  rw [parseLineField] at h
  cases enabled with
  | false =>
    cases h
    simp [FieldOf]
  | true =>
    cases hsplit : splitOnceText line separator with
    | some pieces =>
      obtain ⟨before, after⟩ := pieces
      simp only [hsplit] at h
      cases h
      refine ⟨?_, rfl⟩
      rw [(splitOnceText_eq_some.1 hsplit).1, Option.elim_some, String.append_assoc]
    | none =>
      cases ignoreError with
      | false => simp [hsplit] at h
      | true =>
        simp only [hsplit] at h
        cases h
        exact ⟨by simp, fun _ => ⟨rfl, splitOnceText_eq_none.1 hsplit⟩⟩

/-- The pieces of a line that is read are the line. -/
theorem of_plainInput {options : LineReaderOptions} {line : String} {input : ProducerInput}
    (h : plainInput line options = .ok input) :
    ∃ raw : RawLine, raw.text options = line ∧ raw.Says options input := by
  rw [plainInput] at h
  simp only [bind_eq_ok, pure_eq_ok, Prod.exists] at h
  obtain ⟨headers, remaining, hline, key, value, hremaining, read, hread, rfl⟩ := h
  obtain ⟨hline, hheaders⟩ := of_parseLineField hline
  obtain ⟨hremaining, hkey⟩ := of_parseLineField hremaining
  have htext : RawLine.text options ⟨headers, key, value⟩ = line := by
    rw [RawLine.text, hremaining, hline]
  refine ⟨⟨headers, key, value⟩, htext, ?_⟩
  exact {
    fieldHeaders := htext ▸ hheaders
    fieldKey := hremaining ▸ hkey
    headers := hread
    key := rfl
    value := rfl
    partition := rfl }

/-! ## The theorem -/

/-- The characters that mean something else than themselves in a regular expression. -/
def metacharacters : List Char :=
  ['\\', '.', '+', '*', '?', '(', ')', '|', '[', ']', '{', '}', '^', '$']

/-- A text that stands for itself in a regular expression. -/
def Literal (separator : String) : Prop := ∀ c ∈ separator.toList, c ∉ metacharacters

instance (separator : String) : Decidable (Literal separator) :=
  inferInstanceAs (Decidable (∀ c ∈ separator.toList, c ∉ metacharacters))

/-- A literal expression splits at its own text. -/
def SplitsLiterals (compile : String → Except String (String → List String)) : Prop :=
  ∀ separator split, Literal separator → separator ≠ "" → compile separator = .ok split →
    SplitsAt separator split

/-- Accepted options that read headers and keys, separate headers at a literal and stop at an
error. -/
structure ReadsRecords (load : String → Result PropertyMap)
    (compile : String → Except String (String → List String)) (args : ProduceArgs)
    (separator : String) (options : LineReaderOptions) : Prop where
  accepted : lineReaderOptions load compile args = .ok options
  separator_eq : (componentProperties load args.readerConfig args.inlineProperties).map
    headersSeparatorValue = .ok separator
  literal : Literal separator
  parseHeaders : options.parseHeaders = true
  parseKey : options.parseKey = true
  stops : options.ignoreError = false

/-- The record is read back from its line. -/
def ReadBack (serde : Serde) (separator : String) (options : LineReaderOptions)
    (record : LineRecord) : Prop :=
  producerInput serde (record.render separator options) false options =
    .ok { key := record.key, value := record.value, partition := none, headers := record.headers }

/-- **Plain lines.** A record is read back from its line, where no separator occurs too early, no
part is taken for the null marker, and an empty header text is the null marker if there are no
headers. The pieces of every line that is read are the line. -/
theorem producerInput_lines (load : String → Result PropertyMap)
    (compile : String → Except String (String → List String)) (hcompile : SplitsLiterals compile) :
    (∀ args separator options, ReadsRecords load compile args separator options →
      ∀ (serde : Serde) (record : LineRecord), record.Clear separator options →
        (record.headers = [] → options.nullMarker = some "") →
          ReadBack serde separator options record) ∧
    ∀ (serde : Serde) (options : LineReaderOptions) (line : String) (input : ProducerInput),
      producerInput serde line false options = .ok input →
        ∃ raw : RawLine, raw.text options = line ∧ raw.Says options input := by
  refine ⟨?_, ?_⟩
  · intro args separator options hreads serde record hclear hempty
    have hsplit : separator ≠ "" → SplitsAt separator options.headersSeparator := by
      intro hne
      obtain ⟨properties, hproperties⟩ : ∃ properties,
          componentProperties load args.readerConfig args.inlineProperties = .ok properties := by
        cases hproperties : componentProperties load args.readerConfig args.inlineProperties with
        | ok properties => exact ⟨properties, rfl⟩
        | error e => simpa [hproperties, Except.map] using hreads.separator_eq
      have hseparator : headersSeparatorValue properties = separator := by
        simpa [hproperties, Except.map] using hreads.separator_eq
      have hcompiled := compile_of_lineReaderOptions hreads.accepted hproperties
      exact hcompile separator _ hreads.literal hne (hseparator ▸ hcompiled)
    exact plainInput_render hreads.parseHeaders hreads.parseKey hsplit hclear hempty
  · intro serde options line input hinput
    exact of_plainInput hinput

/-- The reader of literal expressions. -/
def compileLiteral (separator : String) : Except String (String → List String) :=
  .ok (splitText separator)

theorem splitsLiterals_compileLiteral : SplitsLiterals compileLiteral := by
  intro separator split _ hne hcompile
  cases hcompile
  exact splitsAt_splitText hne

/-- No JSON at all. -/
def noJson : Serde where
  write _ := ""
  read _ := .error "expected value at line 1 column 1"
  fault _ := "invalid type"

/-- Arguments that read keys and headers, which have two characters between them. -/
def readerArgs (marker : List String) : ProduceArgs where
  parseKey := true
  keySeparator := some '='
  readerProperties := ["parse.headers=true", "headers.separator=;;"] ++ marker

/-- The options of such arguments. -/
def readerOptions (marker : Option String) : LineReaderOptions where
  parseKey := true
  keySeparator := "="
  parseHeaders := true
  headersDelimiter := "\t"
  headersSeparator := splitText ";;"
  headersKeySeparator := ":"
  ignoreError := false
  nullMarker := marker

theorem readsRecords_marker : ReadsRecords (fun _ => .ok ∅) compileLiteral
    (readerArgs ["null.marker=NULL"]) ";;" (readerOptions (some "NULL")) where
  accepted := rfl
  separator_eq := rfl
  literal := by decide
  parseHeaders := rfl
  parseKey := rfl
  stops := rfl

/-- A record with a header that has no value, and no value itself. -/
def markedRecord : LineRecord where
  headers := [("a", some "1"), ("b", none)]
  key := some "k"
  value := none

theorem markedRecord_clear : markedRecord.Clear ";;" (readerOptions (some "NULL")) where
  delimiter := by decide
  key := by decide
  headers := by decide +kernel
  headerKeys := by decide
  components := by decide
  marker := by decide

theorem producerInput_lines_marker : ReadBack noJson ";;"
    (readerOptions (some "NULL")) markedRecord :=
  (producerInput_lines (fun _ => .ok ∅) compileLiteral splitsLiterals_compileLiteral).1 _ _ _
    readsRecords_marker _ _ markedRecord_clear (by simp [markedRecord])

/-! ## No headers -/

theorem readsRecords_plain : ReadsRecords (fun _ => .ok ∅) compileLiteral
    (readerArgs []) ";;" (readerOptions none) where
  accepted := rfl
  separator_eq := rfl
  literal := by decide
  parseHeaders := rfl
  parseKey := rfl
  stops := rfl

/-- A record without headers. -/
def bareRecord : LineRecord where
  headers := []
  key := some "k"
  value := some "v"

theorem bareRecord_clear : bareRecord.Clear ";;" (readerOptions none) where
  delimiter := by decide
  key := by decide
  headers := by decide +kernel
  headerKeys := by decide
  components := by decide
  marker := by decide

/-- An empty header text is no empty list of headers. -/
theorem not_producerInput_noHeaders : ¬ ∀ (load : String → Result PropertyMap)
    (compile : String → Except String (String → List String)), SplitsLiterals compile →
      ∀ args separator options, ReadsRecords load compile args separator options →
        ∀ (serde : Serde) (record : LineRecord), record.Clear separator options →
          ReadBack serde separator options record := by
  intro h
  have hread := h _ _ splitsLiterals_compileLiteral _ _ _ readsRecords_plain
    noJson bareRecord bareRecord_clear
  have hfails : producerInput noJson (bareRecord.render ";;" (readerOptions none))
      false (readerOptions none) =
        .error (.usage "no header key separator found in pair ''") := by decide +kernel
  rw [ReadBack, hfails] at hread
  cases hread

end KafkaCli.Console
