import KafkaCli.Config.DefaultEntities
import KafkaCli.Config.LegacyArgs

/-!
# What rewritten entity arguments mean

Main result: `rewriteLegacyConfigEntities_iff`. The flags that replace types and selectors select
the same entities exactly where no name is empty and each one can be the value of an option: an
empty name is how a default entity is marked, and a name is a word of its own after its flag.

How words become flags is left to the parser of the command line, of which only this is used: it
reads the flags of some kinds, one for each kind, from their words.
-/

namespace KafkaCli.Config

open Checked

/-! ## Selections -/

/-- An entity that is selected: its kind, and its name unless it is the default. -/
abbrev Selection := ConfigEntityType × Option String

/-- The type of entity that a text names. -/
def configEntityType : String → Option ConfigEntityType
  | "topics" | "topic" => some .topic
  | "brokers" | "broker" => some .broker
  | "groups" | "group" => some .group
  | "users" | "user" => some .user
  | "clients" | "client" => some .client
  | "ips" | "ip" => some .ip
  | "broker-loggers" | "broker-logger" => some .brokerLogger
  | "client-metrics" | "client-metric" => some .clientMetrics
  | _ => none

/-- The option of the field that names an entity of a kind. -/
def nameOption : ConfigEntityType → String
  | .topic => "--topic"
  | .client => "--client"
  | .user => "--user"
  | .broker => "--broker"
  | .brokerLogger => "--broker-logger"
  | .ip => "--ip"
  | .clientMetrics => "--client-metrics"
  | .group => "--group"

/-- The option of the field that asks for the default of a kind. -/
def defaultsOption : ConfigEntityType → Option String
  | .client => some "--client-defaults"
  | .user => some "--user-defaults"
  | .broker => some "--broker-defaults"
  | .ip => some "--ip-defaults"
  | _ => none

/-- The words that select an entity, if there is an option for it. -/
def selectionWords : Selection → Option (List String)
  | (kind, some name) => some [nameOption kind, name]
  | (kind, none) => (defaultsOption kind).map fun option => [option]

/-- Set the field of a selection. -/
def ConfigEntityArgs.select (entity : ConfigEntityArgs) : Selection → ConfigEntityArgs
  | (.topic, some name) => { entity with topic := some name }
  | (.client, some name) => { entity with client := some name }
  | (.user, some name) => { entity with user := some name }
  | (.broker, some name) => { entity with broker := some name }
  | (.brokerLogger, some name) => { entity with brokerLogger := some name }
  | (.ip, some name) => { entity with ip := some name }
  | (.clientMetrics, some name) => { entity with clientMetrics := some name }
  | (.group, some name) => { entity with group := some name }
  | (.client, none) => { entity with clientDefaults := true }
  | (.user, none) => { entity with userDefaults := true }
  | (.broker, none) => { entity with brokerDefaults := true }
  | (.ip, none) => { entity with ipDefaults := true }
  | (_, none) => entity

def ConfigEntityArgs.ofSelections (selections : List Selection) : ConfigEntityArgs :=
  selections.foldl ConfigEntityArgs.select {}

/-- The command line parser reads options of different kinds into their fields, unless the value of
one is a word that it accepts as no value. -/
def ReadsOptions (accepts : String → Bool) (read : List String → Option ConfigEntityArgs) : Prop :=
  ∀ selections words, (selections.map Prod.fst).Nodup →
    selections.mapM selectionWords = some words →
    read words.flatten =
      if selections.all fun selection => selection.2.all accepts then
        some (.ofSelections selections)
      else none

/-- What resolved entities select. A default is an empty name, as it is for quotas. -/
def ResolvedConfigEntities.selected (resolved : ResolvedConfigEntities) : List Selection :=
  if resolved.entityDefault then resolved.types.map fun kind => (kind, none)
  else (resolved.types.zip resolved.names).map fun (kind, name) =>
    (kind, if name = "" then none else some name)

/-! ## The fields of selections -/

variable {entity : ConfigEntityArgs} {kind : ConfigEntityType} {selections : List Selection}
  {selection : Selection}

theorem generic_select : (entity.select selection).Generic ↔ entity.Generic := by
  obtain ⟨kind, name⟩ := selection
  cases kind <;> cases name <;> rfl

/-- The fields of other kinds stay as they are. -/
theorem select_of_ne (entity : ConfigEntityArgs) (h : selection.1 ≠ kind) :
    (entity.select selection).nameFlag kind = entity.nameFlag kind ∧
      (entity.select selection).defaultsFlag kind = entity.defaultsFlag kind := by
  obtain ⟨other, name⟩ := selection
  cases name <;> cases other <;> cases kind <;> first | exact ⟨rfl, rfl⟩ | exact absurd rfl h

theorem select_self (kind : ConfigEntityType) (name : Option String) :
    (entity.select (kind, name)).nameFlag kind = name.or (entity.nameFlag kind) ∧
      (entity.select (kind, name)).defaultsFlag kind =
        (entity.defaultsFlag kind || name.isNone && (defaultsOption kind).isSome) := by
  cases name <;> cases kind <;>
    simp [ConfigEntityArgs.select, ConfigEntityArgs.nameFlag, ConfigEntityArgs.defaultsFlag,
      defaultsOption]

theorem foldl_select_of_not_mem (entity : ConfigEntityArgs) (h : kind ∉ selections.map Prod.fst) :
    (selections.foldl ConfigEntityArgs.select entity).nameFlag kind = entity.nameFlag kind ∧
      (selections.foldl ConfigEntityArgs.select entity).defaultsFlag kind =
        entity.defaultsFlag kind := by
  induction selections generalizing entity with
  | nil => exact ⟨rfl, rfl⟩
  | cons selection selections ih =>
    rw [List.map_cons, List.mem_cons, not_or] at h
    obtain ⟨hname, hdefaults⟩ := select_of_ne entity (Ne.symm h.1)
    rw [List.foldl_cons, (ih _ h.2).1, (ih _ h.2).2]
    exact ⟨hname, hdefaults⟩

/-- The fields of a kind are those of its selection. -/
theorem foldl_select (hnodup : (selections.map Prod.fst).Nodup) {name : Option String}
    (hmem : (kind, name) ∈ selections) :
    (selections.foldl ConfigEntityArgs.select entity).nameFlag kind =
        name.or (entity.nameFlag kind) ∧
      (selections.foldl ConfigEntityArgs.select entity).defaultsFlag kind =
        (entity.defaultsFlag kind || name.isNone && (defaultsOption kind).isSome) := by
  induction selections generalizing entity with
  | nil => cases hmem
  | cons selection selections ih =>
    rw [List.map_cons, List.nodup_cons] at hnodup
    rw [List.foldl_cons]
    rcases List.mem_cons.1 hmem with rfl | hlater
    · obtain ⟨hname, hdefaults⟩ :=
        foldl_select_of_not_mem (entity.select (kind, name)) hnodup.1
      rw [hname, hdefaults]
      exact select_self kind name
    · have hne : selection.1 ≠ kind := fun heq =>
        hnodup.1 (heq ▸ List.mem_map_of_mem hlater)
      obtain ⟨hname, hdefaults⟩ := select_of_ne entity hne
      rw [(ih hnodup.2 hlater).1, (ih hnodup.2 hlater).2, hname, hdefaults]
      exact ⟨rfl, rfl⟩

theorem generic_foldl_select :
    (selections.foldl ConfigEntityArgs.select entity).Generic ↔ entity.Generic := by
  induction selections generalizing entity with
  | nil => rfl
  | cons selection selections ih => rw [List.foldl_cons, ih, generic_select]

theorem nameFlag_ofSelections (hnodup : (selections.map Prod.fst).Nodup) {name : String} :
    (ConfigEntityArgs.ofSelections selections).nameFlag kind = some name ↔
      (kind, some name) ∈ selections := by
  have hempty : ({} : ConfigEntityArgs).nameFlag kind = none := by cases kind <;> rfl
  constructor
  · intro h
    by_cases hmem : kind ∈ selections.map Prod.fst
    · obtain ⟨⟨_, name'⟩, hselection, rfl⟩ := List.mem_map.1 hmem
      rw [ConfigEntityArgs.ofSelections, (foldl_select hnodup hselection).1, hempty, Option.or_none]
        at h
      rwa [← h]
    · rw [ConfigEntityArgs.ofSelections, (foldl_select_of_not_mem _ hmem).1, hempty] at h
      cases h
  · intro h
    rw [ConfigEntityArgs.ofSelections, (foldl_select hnodup h).1]
    rfl

theorem defaultsFlag_ofSelections (hnodup : (selections.map Prod.fst).Nodup) :
    (ConfigEntityArgs.ofSelections selections).defaultsFlag kind = true ↔
      (kind, none) ∈ selections ∧ (defaultsOption kind).isSome := by
  have hempty : ({} : ConfigEntityArgs).defaultsFlag kind = false := by cases kind <;> rfl
  constructor
  · intro h
    by_cases hmem : kind ∈ selections.map Prod.fst
    · obtain ⟨⟨_, name⟩, hselection, rfl⟩ := List.mem_map.1 hmem
      rw [ConfigEntityArgs.ofSelections, (foldl_select hnodup hselection).2, hempty, Bool.false_or,
        Bool.and_eq_true, Option.isNone_iff_eq_none] at h
      rw [← h.1]
      exact ⟨hselection, h.2⟩
    · rw [ConfigEntityArgs.ofSelections, (foldl_select_of_not_mem _ hmem).2, hempty] at h
      cases h
  · intro ⟨h, hoption⟩
    rw [ConfigEntityArgs.ofSelections, (foldl_select hnodup h).2, hoption]
    simp

/-! ## Resolving -/

/-- The selections of the fields are those that were made, with an empty name for a default. -/
theorem mem_selections_ofSelections (hnodup : (selections.map Prod.fst).Nodup)
    (hoptions : ∀ selection ∈ selections, (selectionWords selection).isSome) {name : String} :
    (kind, name) ∈ (ConfigEntityArgs.ofSelections selections).selections ↔
      (kind, some name) ∈ selections ∨ (kind, none) ∈ selections ∧ name = "" := by
  rw [ConfigEntityArgs.selections, List.mem_append, mem_named, mem_defaults,
    nameFlag_ofSelections hnodup, defaultsFlag_ofSelections hnodup]
  refine or_congr_right (and_congr_left fun _ => and_iff_left_of_imp fun hmem => ?_)
  simpa [selectionWords] using hoptions _ hmem

/-- What is resolved from the fields of two selections or more. -/
theorem resolve_ofSelections (hnodup : (selections.map Prod.fst).Nodup)
    (hoptions : ∀ selection ∈ selections, (selectionWords selection).isSome)
    (htwo : 2 ≤ selections.length) :
    ∃ resolved, resolveConfigEntities (.ofSelections selections) = .ok resolved ∧
      ∀ kind name, (kind, name) ∈ resolved.selected ↔ ∃ text,
        ((kind, some text) ∈ selections ∨ (kind, none) ∈ selections ∧ text = "") ∧
        name = if text = "" then none else some text := by
  set entity := ConfigEntityArgs.ofSelections selections with hentity
  have hgeneric : ¬ entity.Generic := by
    rw [hentity, ConfigEntityArgs.ofSelections, generic_foldl_select]
    decide
  -- a selection of each kind is among those of the fields, so there is not only one
  have hkinds : selections.map Prod.fst ⊆ entity.selections.map Prod.fst := by
    intro kind hkind
    obtain ⟨⟨_, name⟩, hmem, rfl⟩ := List.mem_map.1 hkind
    refine List.mem_map.2 ⟨(_, name.getD ""), ?_, rfl⟩
    rw [hentity, mem_selections_ofSelections hnodup hoptions]
    cases name with
    | none => exact .inr ⟨hmem, rfl⟩
    | some name => exact .inl hmem
  have hlength : 2 ≤ entity.selections.length := by
    have hle := (List.subperm_of_subset hnodup hkinds).length_le
    rw [List.length_map, List.length_map] at hle
    omega
  have honly : ¬ OnlyDefault entity.selections := fun h => by
    have := h.1
    omega
  have hne : entity.selections ≠ [] := by
    rintro h
    rw [h] at hlength
    simp at hlength
  have hresolve : resolveConfigEntities entity = .ok
      { types := entity.selections.map Prod.fst, names := entity.selections.map Prod.snd
        entityDefault := false, embeddedDefaults := true } := by
    simp [resolveConfigEntities, hgeneric, hne, honly]
    rfl
  refine ⟨_, hresolve, fun kind name => ?_⟩
  have hzip : (entity.selections.map Prod.fst).zip (entity.selections.map Prod.snd) =
      entity.selections := by
    rw [← List.unzip_fst, ← List.unzip_snd, List.zip_unzip]
  simp only [ResolvedConfigEntities.selected, hzip, Bool.false_eq_true, if_false, List.mem_map,
    Prod.mk.injEq, Prod.exists]
  constructor
  · rintro ⟨_, text, hmem, rfl, rfl⟩
    exact ⟨text, (mem_selections_ofSelections hnodup hoptions).1 hmem, rfl⟩
  · rintro ⟨text, hmem, rfl⟩
    exact ⟨kind, text, (mem_selections_ofSelections hnodup hoptions).2 hmem, rfl, rfl⟩

/-- What is resolved is what was selected, unless a name is empty. -/
theorem resolve_ofSelections_iff (hnodup : (selections.map Prod.fst).Nodup)
    (hoptions : ∀ selection ∈ selections, (selectionWords selection).isSome)
    (htwo : 2 ≤ selections.length) :
    ∃ resolved, resolveConfigEntities (.ofSelections selections) = .ok resolved ∧
      ((∀ kind name, (kind, name) ∈ resolved.selected ↔ (kind, name) ∈ selections) ↔
        ∀ kind name, (kind, some name) ∈ selections → name ≠ "") := by
  obtain ⟨resolved, hresolve, hselected⟩ := resolve_ofSelections hnodup hoptions htwo
  refine ⟨resolved, hresolve, fun hsame kind name hmem => ?_, fun hnames kind name => ?_⟩
  · have hresolved := (hsame kind (some name)).2 hmem
    rw [hselected] at hresolved
    obtain ⟨text, -, htext⟩ := hresolved
    split_ifs at htext with hempty
    rwa [Option.some.inj htext]
  · rw [hselected]
    constructor
    · rintro ⟨text, hmem | ⟨hmem, rfl⟩, rfl⟩
      · rwa [if_neg (hnames kind text hmem)]
      · exact hmem
    · intro hmem
      cases name with
      | none => exact ⟨"", .inr ⟨hmem, rfl⟩, rfl⟩
      | some name => exact ⟨name, .inl hmem, (if_neg (hnames kind name hmem)).symm⟩

/-! ## Segments -/

/-- The types of some arguments with their selectors, in order. -/
def pairs (segments : List Segment) : List (String × Option String) :=
  (segments.filterMap Segment.kind).zip (segments.filterMap Segment.selector)

/-- There is an option for the entity of a type. -/
def HasOption (pair : String × Option String) : Prop :=
  ∃ kind, configEntityType pair.1 = some kind ∧ (pair.2 = none → (defaultsOption kind).isSome)

/-- Two types or more, with as many selectors, one of which is a default, and options for all. -/
structure Mixed (segments : List Segment) : Prop where
  length : (segments.filterMap Segment.kind).length = (segments.filterMap Segment.selector).length
  two : 2 ≤ (segments.filterMap Segment.kind).length
  default : none ∈ segments.filterMap Segment.selector
  options : ∀ pair ∈ pairs segments, HasOption pair

/-- The types are of different kinds. -/
def DistinctKinds (segments : List Segment) : Prop :=
  ((segments.filterMap Segment.kind).map configEntityType).Nodup

/-- Rewriting keeps the meaning of entity arguments: the pairs of types and selectors are what is
resolved from the words that are appended, and other vectors stay as they are. -/
structure KeepsMeaning (read : List String → Option ConfigEntityArgs)
    (segments : List Segment) : Prop where
  mixed : Mixed segments → ∃ words,
    rewriteLegacyConfigEntities (segments.flatMap Segment.words) =
      segments.flatMap Segment.kept ++ words.map .text ∧
    (DistinctKinds segments → ∃ entity resolved, read words = some entity ∧
      resolveConfigEntities entity = .ok resolved ∧
      ∀ kind name, (kind, name) ∈ resolved.selected ↔
        ∃ text, (text, name) ∈ pairs segments ∧ configEntityType text = some kind)
  unchanged : ¬ Mixed segments →
    rewriteLegacyConfigEntities (segments.flatMap Segment.words) = segments.flatMap Segment.words

/-! ## Replacements -/

theorem namedFlag_eq (text : String) :
    namedFlag text = (configEntityType text).map nameOption := by
  unfold namedFlag configEntityType
  split <;> simp [nameOption]

theorem defaultsFlag_eq (text : String) :
    defaultsFlag text = (configEntityType text).bind defaultsOption := by
  unfold configEntityType
  split <;> simp_all [defaultsFlag, defaultsOption]

/-- A type and its selector are replaced by the words of the selection. -/
theorem replacement_eq (text : String) (name : Option String) : replacement text name =
    (configEntityType text).bind fun kind => selectionWords (kind, name) := by
  rw [replacement, namedFlag_eq, defaultsFlag_eq]
  cases configEntityType text with
  | none => rfl
  | some kind =>
    cases name with
    | none => cases hoption : defaultsOption kind <;> simp [selectionWords, hoption]
    | some name => rfl

/-- The selections of some pairs, where their types are known. -/
def selectionsOf (pairs : List (String × Option String)) : List Selection :=
  pairs.filterMap fun (text, name) => (configEntityType text).map fun kind => (kind, name)

theorem mem_selectionsOf {pairs : List (String × Option String)} {name : Option String} :
    (kind, name) ∈ selectionsOf pairs ↔
      ∃ text, (text, name) ∈ pairs ∧ configEntityType text = some kind := by
  simp only [selectionsOf, List.mem_filterMap, Option.map_eq_some_iff, Prod.mk.injEq, Prod.exists]
  constructor
  · rintro ⟨text, _, hmem, _, hkind, rfl, rfl⟩
    exact ⟨text, hmem, hkind⟩
  · rintro ⟨text, hmem, hkind⟩
    exact ⟨text, name, hmem, kind, hkind, rfl, rfl⟩

/-- There is an option for a type exactly where there are words for the pair. -/
theorem hasOption_iff {text : String} {name : Option String} : HasOption (text, name) ↔
    ∃ kind words, configEntityType text = some kind ∧ selectionWords (kind, name) = some words := by
  refine exists_congr fun kind => ?_
  rw [exists_and_left]
  refine and_congr_right fun _ => ?_
  cases name with
  | none => simp [selectionWords, Option.isSome_iff_exists]
  | some name => simp [selectionWords]

/-- **The replacements** are the words of the selections, where there is an option for each. -/
theorem mapM_replacement (pairs : List (String × Option String)) :
    ((∀ pair ∈ pairs, HasOption pair) ∧
      ∃ words, (selectionsOf pairs).mapM selectionWords = some words ∧
        (pairs.mapM fun (text, name) => replacement text name) = some words) ∨
    ((¬ ∀ pair ∈ pairs, HasOption pair) ∧
      (pairs.mapM fun (text, name) => replacement text name) = none) := by
  induction pairs with
  | nil => exact .inl ⟨by simp, [], rfl, rfl⟩
  | cons pair pairs ih =>
    obtain ⟨text, name⟩ := pair
    rw [List.forall_mem_cons, List.mapM_cons]
    by_cases hhead : HasOption (text, name)
    · obtain ⟨kind, words, hkind, hwords⟩ := hasOption_iff.1 hhead
      have hreplacement : replacement text name = some words := by
        rw [replacement_eq, hkind]
        exact hwords
      have hselections : selectionsOf ((text, name) :: pairs) =
          (kind, name) :: selectionsOf pairs := by
        simp [selectionsOf, hkind]
      rcases ih with ⟨hall, later, hlater, hmapM⟩ | ⟨hnot, hmapM⟩
      · exact .inl ⟨⟨hhead, hall⟩, words :: later, by simp [hselections, hwords, hlater],
          by simp [hreplacement, hmapM]⟩
      · exact .inr ⟨fun h => hnot h.2, by simp [hreplacement, hmapM]⟩
    · have hreplacement : replacement text name = none := by
        rw [replacement_eq, Option.bind_eq_none_iff]
        intro kind hkind
        rw [Option.eq_none_iff_forall_not_mem]
        exact fun words hwords => hhead (hasOption_iff.2 ⟨kind, words, hkind, hwords⟩)
      exact .inr ⟨fun h => hhead h.1, by simp [hreplacement]⟩

/-! ## Rewriting -/

variable {segments : List Segment}

theorem rewrite_eq (h : ∀ segment ∈ segments, segment.WellFormed) :
    rewriteLegacyConfigEntities (segments.flatMap Segment.words) =
      if (segments.filterMap Segment.kind).length < 2 ∨
          (segments.filterMap Segment.kind).length ≠ (segments.filterMap Segment.selector).length ∨
          none ∉ segments.filterMap Segment.selector then segments.flatMap Segment.words
      else (replacements (pairs segments)).elim (segments.flatMap Segment.words)
        fun words => segments.flatMap Segment.kept ++ words.map .text := by
  rw [rewriteLegacyConfigEntities, scanEntities_words h]
  simp only [List.nil_append, kept_words]
  rw [← pairs]
  cases replacements (pairs segments) <;> rfl

/-- Mixed selectors are replaced by the words of their selections. -/
theorem rewrite_of_mixed (h : ∀ segment ∈ segments, segment.WellFormed) (hmixed : Mixed segments) :
    ∃ words, (selectionsOf (pairs segments)).mapM selectionWords = some words ∧
      rewriteLegacyConfigEntities (segments.flatMap Segment.words) =
        segments.flatMap Segment.kept ++ words.flatten.map .text := by
  rcases mapM_replacement (pairs segments) with ⟨-, words, hwords, hmapM⟩ | ⟨hnot, -⟩
  · refine ⟨words, hwords, ?_⟩
    rw [rewrite_eq h, if_neg, replacements, hmapM]
    · rfl
    · rintro (hfew | hlength | hnone)
      · exact absurd hmixed.two (by omega)
      · exact hlength hmixed.length
      · exact hnone hmixed.default
  · exact absurd hmixed.options hnot

/-- Other vectors of arguments stay as they are. -/
theorem rewrite_of_not_mixed (h : ∀ segment ∈ segments, segment.WellFormed)
    (hmixed : ¬ Mixed segments) :
    rewriteLegacyConfigEntities (segments.flatMap Segment.words) =
      segments.flatMap Segment.words := by
  rw [rewrite_eq h]
  split_ifs with hguard
  · rfl
  · rcases mapM_replacement (pairs segments) with ⟨hall, -⟩ | ⟨-, hmapM⟩
    · simp only [not_or, not_lt, not_not] at hguard
      exact absurd ⟨hguard.2.1, hguard.1, hguard.2.2, hall⟩ hmixed
    · rw [replacements, hmapM]
      rfl

/-! ## Main result -/

/-- The kinds of the selections are those of the types, in order. -/
theorem map_kind_selectionsOf {pairs : List (String × Option String)}
    (h : ∀ pair ∈ pairs, HasOption pair) :
    ((selectionsOf pairs).map Prod.fst).map some = (pairs.map Prod.fst).map configEntityType := by
  induction pairs with
  | nil => rfl
  | cons pair pairs ih =>
    rw [List.forall_mem_cons] at h
    obtain ⟨kind, hkind, -⟩ := h.1
    rw [List.map_cons, List.map_cons, ← ih h.2, hkind]
    simp [selectionsOf, hkind]

theorem map_kind_pairs (hmixed : Mixed segments) :
    ((selectionsOf (pairs segments)).map Prod.fst).map some =
      (segments.filterMap Segment.kind).map configEntityType := by
  rw [map_kind_selectionsOf hmixed.options, pairs, List.map_fst_zip hmixed.length.le]

/-- Each named selector is one of the selections. -/
theorem mem_selectors (hmixed : Mixed segments) {name : Option String} :
    name ∈ segments.filterMap Segment.selector ↔
      ∃ kind, (kind, name) ∈ selectionsOf (pairs segments) := by
  rw [← List.map_snd_zip hmixed.length.ge, ← pairs, List.mem_map]
  constructor
  · rintro ⟨⟨text, _⟩, hpair, rfl⟩
    obtain ⟨kind, hkind, -⟩ := hmixed.options _ hpair
    exact ⟨kind, mem_selectionsOf.2 ⟨text, hpair, hkind⟩⟩
  · rintro ⟨kind, hmem⟩
    obtain ⟨text, hpair, -⟩ := mem_selectionsOf.1 hmem
    exact ⟨_, hpair, rfl⟩

/-- There are words for each selection of a pair. -/
theorem isSome_selectionWords (hmixed : Mixed segments) {selection : Selection}
    (hmem : selection ∈ selectionsOf (pairs segments)) : (selectionWords selection).isSome := by
  obtain ⟨kind, name⟩ := selection
  obtain ⟨text, hpair, hkind⟩ := mem_selectionsOf.1 hmem
  obtain ⟨kind', _, hkind', hsome⟩ := hasOption_iff.1 (hmixed.options _ hpair)
  rw [hkind, Option.some.injEq] at hkind'
  rw [hkind', hsome]
  rfl

/-- The words of the selections are read and resolved to the pairs exactly where no name is empty
and the command line accepts each. -/
theorem resolved_pairs_iff {accepts : String → Bool} {read : List String → Option ConfigEntityArgs}
    (hread : ReadsOptions accepts read) (hmixed : Mixed segments)
    (hdistinct : DistinctKinds segments) {words : List (List String)}
    (hwords : (selectionsOf (pairs segments)).mapM selectionWords = some words) :
    (∃ entity resolved, read words.flatten = some entity ∧
      resolveConfigEntities entity = .ok resolved ∧
      ∀ kind name, (kind, name) ∈ resolved.selected ↔
        ∃ text, (text, name) ∈ pairs segments ∧ configEntityType text = some kind) ↔
      ∀ name, some name ∈ segments.filterMap Segment.selector →
        name ≠ "" ∧ accepts name = true := by
  have hkinds := map_kind_pairs hmixed
  have hnodup : ((selectionsOf (pairs segments)).map Prod.fst).Nodup :=
    List.Nodup.of_map some (hkinds ▸ hdistinct)
  have htwo : 2 ≤ (selectionsOf (pairs segments)).length := by
    have hlength := congrArg List.length hkinds
    simp only [List.length_map] at hlength
    exact hlength ▸ hmixed.two
  obtain ⟨resolved, hresolve, hselected⟩ :=
    resolve_ofSelections_iff hnodup (fun _ => isSome_selectionWords hmixed) htwo
  have hwordsRead := hread _ words hnodup hwords
  simp only [← mem_selectionsOf, mem_selectors hmixed]
  constructor
  · rintro ⟨entity, resolved', hentity, hresolved, hmem⟩ name ⟨kind, hselection⟩
    rw [hwordsRead] at hentity
    split_ifs at hentity with haccepts
    obtain rfl := Option.some.inj hentity
    obtain rfl := Except.ok.inj (hresolve.symm.trans hresolved)
    exact ⟨hselected.1 hmem kind name hselection, List.all_eq_true.1 haccepts _ hselection⟩
  · intro hnames
    have haccepts : (selectionsOf (pairs segments)).all fun selection =>
        selection.2.all accepts := by
      refine List.all_eq_true.2 fun (kind, name) hmem => ?_
      cases name with
      | none => rfl
      | some name => exact (hnames name ⟨kind, hmem⟩).2
    exact ⟨_, resolved, hwordsRead.trans (if_pos haccepts), hresolve,
      hselected.2 fun kind name hmem => (hnames name ⟨kind, hmem⟩).1⟩

/-- **Legacy entity arguments keep their meaning** exactly where, if they are rewritten and their
kinds are distinct, no name is empty and the command line accepts each as a value. -/
theorem rewriteLegacyConfigEntities_iff (accepts : String → Bool)
    (read : List String → Option ConfigEntityArgs) (hread : ReadsOptions accepts read)
    (segments : List Segment) (hsegments : ∀ segment ∈ segments, segment.WellFormed) :
    KeepsMeaning read segments ↔
      (Mixed segments → DistinctKinds segments →
        ∀ name, some name ∈ segments.filterMap Segment.selector →
          name ≠ "" ∧ accepts name = true) := by
  constructor
  · intro hkeeps hmixed hdistinct
    obtain ⟨words, hwords, hrewrite⟩ := rewrite_of_mixed hsegments hmixed
    obtain ⟨words', hrewrite', hmeaning⟩ := hkeeps.mixed hmixed
    have hsame : words' = words.flatten :=
      List.map_injective_iff.2 (fun _ _ h => OsString.text.inj h)
        (List.append_cancel_left (hrewrite'.symm.trans hrewrite))
    rw [hsame] at hmeaning
    exact (resolved_pairs_iff hread hmixed hdistinct hwords).1 (hmeaning hdistinct)
  · intro hnames
    refine ⟨fun hmixed => ?_, rewrite_of_not_mixed hsegments⟩
    obtain ⟨words, hwords, hrewrite⟩ := rewrite_of_mixed hsegments hmixed
    refine ⟨words.flatten, hrewrite, fun hdistinct => ?_⟩
    exact (resolved_pairs_iff hread hmixed hdistinct hwords).2 (hnames hmixed hdistinct)

/-! ## A command line -/

def configEntityTypes : List ConfigEntityType :=
  [.topic, .broker, .group, .user, .client, .ip, .brokerLogger, .clientMetrics]

/-- Words that start with a hyphen are options, a single hyphen apart. -/
def acceptsValue (word : String) : Bool := ¬ Text.startsWith word "-" ∨ word = "-"

/-- Read options, one word after another. -/
def readOptions (entity : ConfigEntityArgs) : List String → Option ConfigEntityArgs
  | [] => some entity
  | word :: rest =>
    match configEntityTypes.find? (defaultsOption · = some word) with
    | some kind => readOptions (entity.select (kind, none)) rest
    | none =>
      match configEntityTypes.find? (nameOption · = word), rest with
      | some kind, name :: rest =>
        if acceptsValue name then readOptions (entity.select (kind, some name)) rest else none
      | _, _ => none

theorem readOptions_defaults {option : String} (h : defaultsOption kind = some option)
    (rest : List String) :
    readOptions entity (option :: rest) = readOptions (entity.select (kind, none)) rest := by
  cases kind <;> cases h <;> rfl

theorem readOptions_name (kind : ConfigEntityType) (name : String) (rest : List String) :
    readOptions entity (nameOption kind :: name :: rest) =
      if acceptsValue name then readOptions (entity.select (kind, some name)) rest else none := by
  cases kind <;> rfl

theorem readOptions_words {words : List (List String)} (entity : ConfigEntityArgs)
    (h : selections.mapM selectionWords = some words) : readOptions entity words.flatten =
      if selections.all fun selection => selection.2.all acceptsValue then
        some (selections.foldl ConfigEntityArgs.select entity)
      else none := by
  induction selections generalizing entity words with
  | nil =>
    cases h
    rfl
  | cons selection selections ih =>
    simp only [List.mapM_cons, Option.bind_eq_bind, Option.bind_eq_some_iff, Option.pure_def,
      Option.some.injEq] at h
    obtain ⟨first, hfirst, later, hlater, rfl⟩ := h
    obtain ⟨kind, name⟩ := selection
    rw [List.flatten_cons, List.foldl_cons]
    cases name with
    | none =>
      obtain ⟨option, hoption, rfl⟩ := Option.map_eq_some_iff.1 hfirst
      exact (readOptions_defaults hoption _).trans (ih _ hlater)
    | some name =>
      obtain rfl := Option.some.inj hfirst
      rw [List.cons_append, List.cons_append, List.nil_append, readOptions_name, ih _ hlater]
      rw [List.all_cons, Option.all_some]
      cases acceptsValue name <;> rfl

theorem readsOptions : ReadsOptions acceptsValue (readOptions {}) := fun _ _ _ hwords =>
  readOptions_words {} hwords

/-- Two types of entities, the first with a name and the second a default. -/
def userAndClients (name : String) : List Segment :=
  [.other (.text "configs"), .typeWords "users", .nameWords name, .typeEquals "clients", .default]

theorem rewriteLegacyConfigEntities_iff_alice :
    KeepsMeaning (readOptions {}) (userAndClients "alice") := by
  refine (rewriteLegacyConfigEntities_iff acceptsValue (readOptions {}) readsOptions
    (userAndClients "alice") (by decide)).2 ?_
  intro _ _ name hname
  obtain rfl : "alice" = name := by simpa [userAndClients, Segment.selector] using hname
  decide

/-- An empty name becomes the default. -/
theorem rewriteLegacyConfigEntities_empty :
    rewriteLegacyConfigEntities ((userAndClients "").flatMap Segment.words) =
      ["configs", "--user", "", "--client-defaults"].map .text ∧
    ∃ entity resolved, readOptions {} ["--user", "", "--client-defaults"] = some entity ∧
      resolveConfigEntities entity = .ok resolved ∧
      (.user, none) ∈ resolved.selected ∧ (.user, some "") ∉ resolved.selected := by
  refine ⟨rfl, _, _, rfl, rfl, by decide, by decide⟩

end KafkaCli.Config
