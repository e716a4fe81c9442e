import KafkaCli.Error
import KafkaCli.Lib.Base64

/-!
# UUIDs as text

The tool writes UUIDs in two conventions. The storage tool prints the hyphenated hexadecimal
form; the commands that speak to a controller read the base64 form of Kafka.
-/

namespace KafkaCli.Storage

/-- Sixteen bytes. -/
structure Uuid where
  bytes : List UInt8
  length_eq : bytes.length = 16
  deriving DecidableEq

def Uuid.nil : Uuid := ⟨List.replicate 16 0, rfl⟩

/-! ## The hyphenated form -/

def hexDigit (n : Nat) : Char := "0123456789abcdef".toList.getD n '0'

def hex (bytes : List UInt8) : List Char :=
  bytes.flatMap fun byte => [hexDigit (byte.toNat / 16), hexDigit (byte.toNat % 16)]

/-- The bytes in groups of 4, 2, 2, 2 and 6. -/
def Uuid.groups (id : Uuid) : List (List UInt8) :=
  [id.bytes.take 4, (id.bytes.drop 4).take 2, (id.bytes.drop 6).take 2, (id.bytes.drop 8).take 2,
    id.bytes.drop 10]

/-- The text of a UUID. -/
def Uuid.hyphenated (id : Uuid) : String :=
  String.ofList (['-'].intercalate (id.groups.map hex))

theorem length_hex (bytes : List UInt8) : (hex bytes).length = 2 * bytes.length := by
  induction bytes with
  | nil => rfl
  | cons byte bytes ih =>
    have hcons : hex (byte :: bytes) =
        hexDigit (byte.toNat / 16) :: hexDigit (byte.toNat % 16) :: hex bytes := rfl
    rw [hcons, List.length_cons, List.length_cons, ih, List.length_cons]
    omega

theorem Uuid.length_hyphenated (id : Uuid) : id.hyphenated.length = 36 := by
  have hlength := id.length_eq
  rw [hyphenated, String.length_ofList]
  simp [groups, List.intercalate, List.intersperse, length_hex]
  omega

theorem hexDigit_mem (n : Nat) : hexDigit n ∈ "0123456789abcdef".toList := by
  rw [hexDigit, List.getD_eq_getElem?_getD]
  cases hdigit : "0123456789abcdef".toList[n]? with
  | none => decide
  | some c => exact List.mem_of_getElem? hdigit

theorem mem_hex {bytes : List UInt8} {c : Char} (h : c ∈ hex bytes) :
    c ∈ "0123456789abcdef".toList := by
  obtain ⟨byte, -, hc⟩ := List.mem_flatMap.1 h
  simp only [List.mem_cons, List.not_mem_nil, or_false] at hc
  rcases hc with rfl | rfl
  · exact hexDigit_mem _
  · exact hexDigit_mem _

theorem Uuid.mem_hyphenated {id : Uuid} {c : Char} (h : c ∈ id.hyphenated.toList) :
    c = '-' ∨ c ∈ "0123456789abcdef".toList := by
  have hgroup : ∀ group : List UInt8, c ∈ hex group → c ∈ "0123456789abcdef".toList :=
    fun _ hc => mem_hex hc
  rw [hyphenated, String.toList_ofList] at h
  simp only [groups, List.map_cons, List.map_nil, List.intercalate, List.intersperse,
    List.flatten_cons, List.flatten_nil, List.mem_append, List.mem_singleton, List.not_mem_nil,
    or_false] at h
  grind

/-! ## The base64 form -/

def parseKafkaUuid (engine : Base64.Engine) (value field : String) : Result Uuid :=
  match engine.decode value with
  | .error error => .error (.usage s!"failed to parse {field}: {error}")
  | .ok decoded =>
    if h : decoded.length = 16 then .ok ⟨decoded, h⟩
    else .error (.usage s!"failed to parse {field}: expected a Kafka UUID")

/-- A UUID is read from a text of 22 digits only. -/
theorem parseKafkaUuid_ok {engine : Base64.Engine} {value field : String} {id : Uuid}
    (h : parseKafkaUuid engine value field = .ok id) :
    engine.decode value = .ok id.bytes ∧ value.length = 22 := by
  unfold parseKafkaUuid at h
  cases hdecode : engine.decode value with
  | error error => simp [hdecode] at h
  | ok decoded =>
    simp only [hdecode] at h
    split_ifs at h with hlength
    cases h
    have hdecoded := engine.length_of_decode hdecode
    exact ⟨rfl, by omega⟩

/-- The hyphenated form is never read as a UUID. -/
theorem parseKafkaUuid_hyphenated (engine : Base64.Engine) (id id' : Uuid) (field : String) :
    parseKafkaUuid engine id.hyphenated field ≠ .ok id' := by
  intro h
  have hlength := (parseKafkaUuid_ok h).2
  rw [id.length_hyphenated] at hlength
  cases hlength

end KafkaCli.Storage
