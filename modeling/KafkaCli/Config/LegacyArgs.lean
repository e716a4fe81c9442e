import KafkaCli.Config.Entities
import KafkaCli.Lib.Text

/-!
# Legacy entity arguments

The scripts of Kafka name entities by lists of types and of names. Where some of them are defaults
and some are named, `rewrite_legacy_config_entities` pairs the lists up and appends a flag of its
own for each pair.

A vector of arguments is made of segments here. The loop over the arguments collects what the
segments say, and marks their words (`scanEntities_words`).
-/

namespace KafkaCli.Config

open Text

/-! ## Arguments -/

/-- An argument: a text, or bytes that are none. -/
inductive OsString
  | text (s : String)
  | bytes (raw : List UInt8)
  deriving DecidableEq, Repr

def OsString.toStr : OsString → Option String
  | .text s => some s
  | .bytes _ => none

/-- What an argument says about entities: a type, or a selector, which is a default where it has no
name. -/
inductive EntityWord
  | type (kind : String)
  | selector (name : Option String)
  deriving DecidableEq, Repr

/-- What a text says, with the argument after it, and how many arguments it takes. -/
def entityWord (value : String) (next : Option OsString) : Option (EntityWord × Nat) :=
  if value = "--entity-type" ∧ next.isSome then
    (next.bind OsString.toStr).map fun kind => (.type kind, 2)
  else match stripPrefix value "--entity-type=" with
    | some kind => some (.type kind, 1)
    | none =>
      if value = "--entity-name" ∧ next.isSome then
        (next.bind OsString.toStr).map fun name => (.selector (some name), 2)
      else match stripPrefix value "--entity-name=" with
        | some name => some (.selector (some name), 1)
        | none => if value = "--entity-default" then some (.selector none, 1) else none

/-- What the loop has collected: the types, the selectors, and for each argument so far whether it
is to be removed. -/
structure EntityScan where
  types : List String
  selectors : List (Option String)
  remove : List Bool
  deriving DecidableEq, Repr

/-- Pass over an argument. -/
def EntityScan.keep (scan : EntityScan) : EntityScan :=
  { scan with remove := scan.remove ++ [false] }

def EntityScan.add (scan : EntityScan) (words : Nat) : EntityWord → EntityScan
  | .type kind =>
    { scan with
      types := scan.types ++ [kind]
      remove := scan.remove ++ List.replicate words true }
  | .selector name =>
    { scan with
      selectors := scan.selectors ++ [name]
      remove := scan.remove ++ List.replicate words true }

/-- The loop of `rewrite_legacy_config_entities`, over the arguments that are left after `skip` of
them, which are marked already. -/
def scanEntities : (skip : Nat) → List OsString → EntityScan → EntityScan
  | _, [], scan => scan
  | skip + 1, _ :: rest, scan => scanEntities skip rest scan
  | 0, arg :: rest, scan =>
    match arg.toStr.bind fun value => entityWord value rest.head? with
    | none => scanEntities 0 rest scan.keep
    | some (word, words) => scanEntities (words - 1) rest (scan.add words word)

/-- The flag that names an entity of a type. -/
def namedFlag : String → Option String
  | "topics" | "topic" => some "--topic"
  | "clients" | "client" => some "--client"
  | "users" | "user" => some "--user"
  | "brokers" | "broker" => some "--broker"
  | "broker-loggers" | "broker-logger" => some "--broker-logger"
  | "ips" | "ip" => some "--ip"
  | "client-metrics" | "client-metric" => some "--client-metrics"
  | "groups" | "group" => some "--group"
  | _ => none

/-- The flag of the default entity of a type. -/
def defaultsFlag : String → Option String
  | "clients" | "client" => some "--client-defaults"
  | "users" | "user" => some "--user-defaults"
  | "brokers" | "broker" => some "--broker-defaults"
  | "ips" | "ip" => some "--ip-defaults"
  | _ => none

/-- The words that replace a type and its selector. -/
def replacement (kind : String) (selector : Option String) : Option (List String) := do
  let named ← namedFlag kind
  match selector with
  | some name => return [named, name]
  | none =>
    let defaults ← defaultsFlag kind
    return [defaults]

/-- The replacements of all the pairs, unless a type has no flag. -/
def replacements (pairs : List (String × Option String)) : Option (List String) := do
  let words ← pairs.mapM fun (kind, selector) => replacement kind selector
  return words.flatten

def rewriteLegacyConfigEntities (args : List OsString) : List OsString :=
  let scan := scanEntities 0 args { types := [], selectors := [], remove := [] }
  if scan.types.length < 2 ∨ scan.types.length ≠ scan.selectors.length ∨
      none ∉ scan.selectors then args
  else match replacements (scan.types.zip scan.selectors) with
    | none => args
    | some words =>
      (args.zip scan.remove).filterMap (fun (arg, remove) => if remove then none else some arg) ++
        words.map .text

/-! ## Segments -/

/-- A part of a vector of arguments. -/
inductive Segment
  | typeWords (kind : String)
  | typeEquals (kind : String)
  | nameWords (name : String)
  | nameEquals (name : String)
  | default
  /-- A flag whose value is no text. -/
  | unread (flag : String) (raw : List UInt8)
  | other (arg : OsString)
  deriving DecidableEq, Repr

/-- The argument has none of the forms of a legacy entity argument. -/
def Plain : OsString → Prop
  | .text value =>
    value ∉ ["--entity-type", "--entity-name", "--entity-default"] ∧
      startsWith value "--entity-type=" = false ∧ startsWith value "--entity-name=" = false
  | .bytes _ => True

instance : (arg : OsString) → Decidable (Plain arg)
  | .text _ => inferInstanceAs (Decidable (_ ∧ _))
  | .bytes _ => inferInstanceAs (Decidable True)

namespace Segment

def words : Segment → List OsString
  | typeWords kind => [.text "--entity-type", .text kind]
  | typeEquals kind => [.text ("--entity-type=" ++ kind)]
  | nameWords name => [.text "--entity-name", .text name]
  | nameEquals name => [.text ("--entity-name=" ++ name)]
  | default => [.text "--entity-default"]
  | unread flag raw => [.text flag, .bytes raw]
  | other arg => [arg]

def kind : Segment → Option String
  | typeWords kind | typeEquals kind => some kind
  | _ => none

/-- The selector of a segment; one without a name is a default. -/
def selector : Segment → Option (Option String)
  | nameWords name | nameEquals name => some (some name)
  | default => some none
  | _ => none

/-- The arguments that are about something else. -/
def kept (segment : Segment) : List OsString :=
  match segment with
  | unread _ _ | other _ => segment.words
  | _ => []

def WellFormed : Segment → Prop
  | unread flag _ => flag ∈ ["--entity-type", "--entity-name"]
  | other arg => Plain arg
  | _ => True

instance : (segment : Segment) → Decidable segment.WellFormed
  | unread _ _ => inferInstanceAs (Decidable (_ ∈ _))
  | other _ => inferInstanceAs (Decidable (Plain _))
  | typeWords _ | typeEquals _ | nameWords _ | nameEquals _ | default =>
    inferInstanceAs (Decidable True)

/-- What is marked for removal. -/
def mask (segment : Segment) : List Bool :=
  match segment with
  | unread _ _ | other _ => List.replicate segment.words.length false
  | _ => List.replicate segment.words.length true

end Segment

variable {segments : List Segment}

/-! ## The loop -/

theorem entityWord_plain {value : String} {next : Option OsString} (h : Plain (.text value)) :
    entityWord value next = none := by
  obtain ⟨hvalue, htype, hname⟩ := h
  simp only [List.mem_cons, List.not_mem_nil, or_false, not_or] at hvalue
  simp [entityWord, stripPrefix, hvalue, htype, hname]

theorem entityWord_typeEquals (kind : String) (next : Option OsString) :
    entityWord ("--entity-type=" ++ kind) next = some (.type kind, 1) := by
  have hflag : "--entity-type=" ++ kind ≠ "--entity-type" := fun h => by
    simpa using congrArg (fun s => s.toList.length) h
  rw [entityWord, if_neg fun h => hflag h.1, stripPrefix_eq_some.2 rfl]

theorem entityWord_nameEquals (name : String) (next : Option OsString) :
    entityWord ("--entity-name=" ++ name) next = some (.selector (some name), 1) := by
  have htype : "--entity-name=" ++ name ≠ "--entity-type" := fun h => by
    simpa using congrArg String.toList h
  have hname : "--entity-name=" ++ name ≠ "--entity-name" := fun h => by
    simpa using congrArg (fun s => s.toList.length) h
  have hstrip : stripPrefix ("--entity-name=" ++ name) "--entity-type=" = none := by
    simp [stripPrefix, startsWith]
  rw [entityWord, if_neg fun h => htype h.1, hstrip]
  simp only []
  rw [if_neg fun h => hname h.1, stripPrefix_eq_some.2 rfl]

variable {value : String} {rest : List OsString} {scan : EntityScan}

theorem scanEntities_taken {word : EntityWord} {words : Nat}
    (h : entityWord value rest.head? = some (word, words)) :
    scanEntities 0 (.text value :: rest) scan =
      scanEntities (words - 1) rest (scan.add words word) := by
  simp only [scanEntities, OsString.toStr, Option.bind_some, h]

theorem scanEntities_passed (h : entityWord value rest.head? = none) :
    scanEntities 0 (.text value :: rest) scan = scanEntities 0 rest scan.keep := by
  simp only [scanEntities, OsString.toStr, Option.bind_some, h]

/-- One segment: its words are passed, and what it says is collected. -/
theorem scanEntities_segment {segment : Segment} (h : segment.WellFormed) (rest : List OsString)
    (scan : EntityScan) : scanEntities 0 (segment.words ++ rest) scan =
      scanEntities 0 rest
        { types := scan.types ++ segment.kind.toList
          selectors := scan.selectors ++ segment.selector.toList
          remove := scan.remove ++ segment.mask } := by
  cases segment with
  | typeWords kind =>
    have hword : entityWord "--entity-type" (some (.text kind)) = some (.type kind, 2) := rfl
    refine (scanEntities_taken hword).trans ?_
    simp [scanEntities, EntityScan.add, Segment.kind, Segment.selector, Segment.mask, Segment.words]
  | typeEquals kind =>
    refine (scanEntities_taken (entityWord_typeEquals kind _)).trans ?_
    simp [EntityScan.add, Segment.kind, Segment.selector, Segment.mask, Segment.words]
  | nameWords name =>
    have hword : entityWord "--entity-name" (some (.text name)) =
        some (.selector (some name), 2) := rfl
    refine (scanEntities_taken hword).trans ?_
    simp [scanEntities, EntityScan.add, Segment.kind, Segment.selector, Segment.mask, Segment.words]
  | nameEquals name =>
    refine (scanEntities_taken (entityWord_nameEquals name _)).trans ?_
    simp [EntityScan.add, Segment.kind, Segment.selector, Segment.mask, Segment.words]
  | default =>
    have hword : entityWord "--entity-default" rest.head? = some (.selector none, 1) := rfl
    refine (scanEntities_taken hword).trans ?_
    simp [EntityScan.add, Segment.kind, Segment.selector, Segment.mask, Segment.words]
  | unread flag raw =>
    have hword : entityWord flag (some (.bytes raw)) = none := by
      rcases List.mem_pair.1 h with rfl | rfl <;> rfl
    refine (scanEntities_passed hword).trans ?_
    simp [scanEntities, OsString.toStr, EntityScan.keep, Segment.kind, Segment.selector,
      Segment.mask, Segment.words]
  | other arg =>
    have hpassed : scanEntities 0 (arg :: rest) scan = scanEntities 0 rest scan.keep := by
      cases arg with
      | text value => exact scanEntities_passed (entityWord_plain h)
      | bytes raw => rfl
    refine hpassed.trans ?_
    simp [EntityScan.keep, Segment.kind, Segment.selector, Segment.mask, Segment.words]

/-- **What the loop collects.** -/
theorem scanEntities_words (h : ∀ segment ∈ segments, segment.WellFormed) (scan : EntityScan) :
    scanEntities 0 (segments.flatMap Segment.words) scan =
      { types := scan.types ++ segments.filterMap Segment.kind
        selectors := scan.selectors ++ segments.filterMap Segment.selector
        remove := scan.remove ++ segments.flatMap Segment.mask } := by
  induction segments generalizing scan with
  | nil => simp [scanEntities]
  | cons segment segments ih =>
    rw [List.forall_mem_cons] at h
    rw [List.flatMap_cons, scanEntities_segment h.1, ih h.2]
    cases hkind : segment.kind <;> cases hselector : segment.selector <;>
      simp [hkind, hselector]

/-- What is not marked is kept, in its order. -/
theorem kept_words (segments : List Segment) :
    ((segments.flatMap Segment.words).zip (segments.flatMap Segment.mask)).filterMap
      (fun (arg, remove) => if remove then none else some arg) =
    segments.flatMap Segment.kept := by
  induction segments with
  | nil => rfl
  | cons segment segments ih =>
    have hlength : segment.words.length = segment.mask.length := by
      cases segment <;> rfl
    rw [List.flatMap_cons, List.flatMap_cons, List.flatMap_cons, List.zip_append hlength,
      List.filterMap_append, ih]
    congr 1
    cases segment <;> rfl

end KafkaCli.Config
