import KafkaCli.Config.Entities

/-!
# Default entities that nobody asked for

**Theorem (`default_iff_asked_iff`).** For a kind that an accepted alteration selects, what is
sent to the cluster has the default of that kind exactly when a default was asked for, if and only
if the flag of that kind does not carry an empty name.

An empty name is how a default is marked, so the argument is about `MarkedDefault`: the resolved
entities mark a kind when a default was asked for or when its flag was empty
(`markedDefault_iff`), and both ways of sending keep the mark (`hasDefault_iff`,
`singleResourceEntity_empty_iff`).
-/

namespace KafkaCli.Config

open Checked

/-- The name that the flag of a kind gives it. -/
def ConfigEntityArgs.nameFlag (entity : ConfigEntityArgs) : ConfigEntityType → Option String
  | .topic => entity.topic
  | .broker => entity.broker
  | .group => entity.group
  | .user => entity.user
  | .client => entity.client
  | .ip => entity.ip
  | .brokerLogger => entity.brokerLogger
  | .clientMetrics => entity.clientMetrics

/-- The flag that asks for the default of a kind. -/
def ConfigEntityArgs.defaultsFlag (entity : ConfigEntityArgs) : ConfigEntityType → Bool
  | .broker => entity.brokerDefaults
  | .user => entity.userDefaults
  | .client => entity.clientDefaults
  | .ip => entity.ipDefaults
  | _ => false

/-- A default was asked for. -/
def AskedDefault (entity : ConfigEntityArgs) (kind : ConfigEntityType) : Prop :=
  entity.entityDefault = true ∨ entity.defaultsFlag kind = true

/-- An alteration gets past the checks of its entity flags. -/
structure Accepted (addresses : String → Option (List String)) (entity : ConfigEntityArgs)
    (resolved : ResolvedConfigEntities) : Prop where
  resolve : resolveConfigEntities entity = .ok resolved
  types : validateConfigEntityTypes resolved.types = .ok ()
  names : validateConfigEntityNames addresses resolved.types resolved.names true
    resolved.embeddedDefaults = .ok ()

/-- The resolved entities mark the default of a kind. -/
def MarkedDefault (resolved : ResolvedConfigEntities) (kind : ConfigEntityType) : Prop :=
  resolved.entityDefault = true ∨ (kind, "") ∈ resolved.types.zip resolved.names

/-- Quota entities contain the default of a kind. -/
def HasDefault (entities : List (String × Option String)) (kind : ConfigEntityType) : Prop :=
  ∃ label, quotaEntityName kind = some label ∧ (label, none) ∈ entities

variable {addresses : String → Option (List String)} {entity : ConfigEntityArgs}
  {resolved : ResolvedConfigEntities} {kind : ConfigEntityType}

/-! ## What is selected -/

theorem mem_named {name : String} :
    (kind, name) ∈ entity.named ↔ entity.nameFlag kind = some name := by
  cases kind <;> simp [ConfigEntityArgs.named, ConfigEntityArgs.nameFlag]

theorem mem_defaults {name : String} :
    (kind, name) ∈ entity.defaults ↔ entity.defaultsFlag kind = true ∧ name = "" := by
  have hcomm : name = "" ↔ "" = name := eq_comm
  rw [hcomm]
  cases kind <;> simp [ConfigEntityArgs.defaults, ConfigEntityArgs.defaultsFlag]

theorem mem_selections_empty : (kind, "") ∈ entity.selections ↔
    entity.nameFlag kind = some "" ∨ entity.defaultsFlag kind = true := by
  rw [ConfigEntityArgs.selections, List.mem_append, mem_named, mem_defaults]
  simp

/-- A kind that is named has no default selected next to it, where no kind comes twice. -/
theorem defaultsFlag_of_nameFlag (hnodup : (entity.selections.map Prod.fst).Nodup) {name : String}
    (hname : entity.nameFlag kind = some name) : entity.defaultsFlag kind = false := by
  rw [ConfigEntityArgs.selections, List.map_append, List.nodup_append] at hnodup
  obtain ⟨-, -, hdisjoint⟩ := hnodup
  by_contra hflag
  rw [Bool.not_eq_false] at hflag
  have hnamed := List.mem_map_of_mem (f := Prod.fst) (mem_named.2 hname)
  have hdefault := List.mem_map_of_mem (f := Prod.fst) (mem_defaults.2 ⟨hflag, rfl⟩)
  exact hdisjoint kind hnamed kind hdefault rfl

/-! ## The resolved entities -/

/-- Without the flags of single kinds, no kind is named or defaulted by one. -/
theorem flags_of_not_specific (kind : ConfigEntityType) (h : ¬ entity.Specific) :
    entity.nameFlag kind = none ∧ entity.defaultsFlag kind = false := by
  simp only [ConfigEntityArgs.Specific, not_or, Bool.not_eq_true, Option.isSome_eq_false_iff,
    Option.isNone_iff_eq_none] at h
  cases kind <;> simp [ConfigEntityArgs.nameFlag, ConfigEntityArgs.defaultsFlag, h]

theorem Accepted.nodup_types (h : Accepted addresses entity resolved) : resolved.types.Nodup := by
  have htypes := h.types
  simp only [validateConfigEntityTypes, bind_eq_ok, failIf_eq_ok, not_not] at htypes
  exact Multiset.toFinset_card_eq_card_iff_nodup.1 htypes.choose_spec.1

/-- A name that fits any kind is not empty. -/
theorem Accepted.names_ne_empty (h : Accepted addresses entity resolved)
    (hembedded : resolved.embeddedDefaults = false) : "" ∉ resolved.names := by
  have hnames := h.names
  simp only [validateConfigEntityNames, bind_eq_ok, failIf_eq_ok, hembedded] at hnames
  obtain ⟨-, -, -, hempty, -⟩ := hnames
  simpa using hempty

theorem resolve_of_generic (hgeneric : entity.Generic)
    (h : resolveConfigEntities entity = .ok resolved) :
    ¬ entity.Specific ∧ resolved = { types := entity.entityType, names := entity.entityName
                                     entityDefault := entity.entityDefault
                                     embeddedDefaults := false } := by
  simp only [resolveConfigEntities, hgeneric, bind_eq_ok, failIf_eq_ok, if_true, pure_eq_ok,
    true_and] at h
  obtain ⟨-, hspecific, -, -, hresolved⟩ := h
  exact ⟨hspecific, hresolved.symm⟩

theorem resolve_of_not_generic (hgeneric : ¬ entity.Generic)
    (h : resolveConfigEntities entity = .ok resolved) :
    resolved = { types := entity.selections.map Prod.fst
                 names := if OnlyDefault entity.selections then []
                   else entity.selections.map Prod.snd
                 entityDefault := OnlyDefault entity.selections
                 embeddedDefaults := ¬ OnlyDefault entity.selections } := by
  simp only [resolveConfigEntities, hgeneric, bind_eq_ok, failIf_eq_ok, if_false, pure_eq_ok] at h
  obtain ⟨-, -, -, -, hresolved⟩ := h
  exact hresolved.symm

/-- **The mark.** A selected kind is marked as a default when one was asked for, or when the name
of its flag was empty; and these do not come together. -/
theorem markedDefault_iff (h : Accepted addresses entity resolved) (hkind : kind ∈ resolved.types) :
    (MarkedDefault resolved kind ↔ AskedDefault entity kind ∨ entity.nameFlag kind = some "") ∧
      ¬ (AskedDefault entity kind ∧ entity.nameFlag kind = some "") := by
  by_cases hgeneric : entity.Generic
  · obtain ⟨hspecific, hresolved⟩ := resolve_of_generic hgeneric h.resolve
    obtain ⟨hname, hflag⟩ := flags_of_not_specific kind hspecific
    have hempty := h.names_ne_empty (by rw [hresolved])
    have hzip : (kind, "") ∉ resolved.types.zip resolved.names := fun hmem =>
      hempty (List.of_mem_zip hmem).2
    simp only [MarkedDefault, AskedDefault, hzip, hname, hflag, or_false, reduceCtorEq,
      Bool.false_eq_true, and_false, not_false_eq_true, and_true]
    rw [hresolved]
  · have hresolved := resolve_of_not_generic hgeneric h.resolve
    have hnodup := h.nodup_types
    have hdefault : entity.entityDefault = false := by
      by_contra hentity
      exact hgeneric (.inr (.inr (by simpa using hentity)))
    rw [hresolved] at hnodup hkind
    have hasked : AskedDefault entity kind ↔ entity.defaultsFlag kind = true := by
      simp [AskedDefault, hdefault]
    have hmarked : MarkedDefault resolved kind ↔ (kind, "") ∈ entity.selections := by
      rw [hresolved, MarkedDefault]
      by_cases honly : OnlyDefault entity.selections
      · -- the one selection is this kind, with an empty name
        obtain ⟨selection, hselection, hfst⟩ := List.mem_map.1 hkind
        have hmem : (kind, "") ∈ entity.selections := by
          rw [← hfst, ← honly.2 selection hselection]
          exact hselection
        simp [honly, hmem]
      · simp [honly, ← List.unzip_fst, ← List.unzip_snd, List.zip_unzip]
    rw [hmarked, mem_selections_empty, hasked]
    refine ⟨or_comm, ?_⟩
    intro ⟨hflag, hname⟩
    rw [defaultsFlag_of_nameFlag hnodup hname] at hflag
    exact absurd hflag (by simp)

/-! ## What is sent -/

theorem quotaEntity_eq_ok {name : Option String} {label : String} {sent : Option String} :
    quotaEntity kind name = .ok (label, sent) ↔ quotaEntityName kind = some label ∧
      sent = name.bind fun name => if name ≠ "" then some name else none := by
  unfold quotaEntity
  cases quotaEntityName kind <;> simp [eq_comm]

theorem quotaEntityName_inj {kind' : ConfigEntityType} {label : String}
    (h : quotaEntityName kind = some label) (h' : quotaEntityName kind' = some label) :
    kind = kind' := by
  rw [← h'] at h
  cases kind <;> cases kind' <;> simp [quotaEntityName] at h h' ⊢

theorem mem_zip_iff {α β : Type} {xs : List α} {ys : List β} {x : α} {y : β} :
    (x, y) ∈ xs.zip ys ↔ ∃ i : Nat, xs[i]? = some x ∧ ys[i]? = some y := by
  simp only [List.mem_iff_getElem?, List.getElem?_zip_eq_some]

theorem quotaEntities_default {types : List ConfigEntityType} {names : List String}
    {requireNames : Bool} {entities : List (String × Option String)}
    (h : quotaEntities types names true requireNames = .ok entities) :
    ∃ kind entity, types = [kind] ∧ quotaEntity kind none = .ok entity ∧ entities = [entity] := by
  simp only [quotaEntities, bind_eq_ok, if_true] at h
  obtain ⟨-, -, -, -, hone⟩ := h
  split at hone
  · simp only [bind_eq_ok, pure_eq_ok] at hone
    obtain ⟨entity, hentity, hentities⟩ := hone
    exact ⟨_, entity, rfl, hentity, hentities.symm⟩
  · exact absurd hone (by simp)

theorem quotaEntities_named {types : List ConfigEntityType} {names : List String}
    {entities : List (String × Option String)}
    (h : quotaEntities types names false true = .ok entities) :
    QuotaEntityTypes types ∧ names.length = types.length ∧
      types.zipIdx.mapM (fun (kind, index) => quotaEntity kind names[index]?) = .ok entities := by
  simp only [quotaEntities, bind_eq_ok, failIf_eq_ok, not_not] at h
  obtain ⟨-, hquota, -, -, hrest⟩ := h
  simp only [Bool.false_eq_true, if_false, bind_eq_ok, failIf_eq_ok, true_and, not_not] at hrest
  obtain ⟨-, hlength, -, -, hentities⟩ := hrest
  exact ⟨hquota, hlength, hentities⟩

theorem exists_quotaEntityName {types : List ConfigEntityType} (h : QuotaEntityTypes types)
    (hkind : kind ∈ types) : ∃ label, quotaEntityName kind = some label := by
  rcases h.2 kind hkind with hk | hk | hk
  · exact ⟨"user", by rw [hk]; rfl⟩
  · exact ⟨"client-id", by rw [hk]; rfl⟩
  · exact ⟨"ip", by rw [hk]; rfl⟩

/-- Quota entities contain a default exactly where it is marked. -/
theorem hasDefault_iff (hkind : kind ∈ resolved.types)
    {entities : List (String × Option String)}
    (h : quotaEntities resolved.types resolved.names resolved.entityDefault true = .ok entities) :
    HasDefault entities kind ↔ MarkedDefault resolved kind := by
  cases hdefault : resolved.entityDefault with
  | true =>
    rw [hdefault] at h
    obtain ⟨only, ⟨label, sent⟩, htypes, hentity, hentities⟩ := quotaEntities_default h
    rw [htypes, List.mem_singleton] at hkind
    obtain ⟨hlabel, hsent⟩ := quotaEntity_eq_ok.1 hentity
    have hhas : HasDefault entities kind :=
      ⟨label, by rw [hkind, hlabel], by rw [hentities, hsent]; exact List.mem_singleton_self _⟩
    exact iff_of_true hhas (.inl hdefault)
  | false =>
    rw [hdefault] at h
    obtain ⟨hquota, hlength, hentities⟩ := quotaEntities_named h
    obtain ⟨label, hlabel⟩ := exists_quotaEntityName hquota hkind
    have hmarked :
        MarkedDefault resolved kind ↔ (kind, "") ∈ resolved.types.zip resolved.names := by
      simp [MarkedDefault, hdefault]
    rw [hmarked, mem_zip_iff, HasDefault]
    refine ⟨?_, ?_⟩
    · intro ⟨label', hlabel', hmem⟩
      obtain ⟨⟨kind', i⟩, hi, hentity⟩ := (mem_mapM_ok hentities).1 hmem
      obtain ⟨hkind', hsent⟩ := quotaEntity_eq_ok.1 hentity
      rw [List.mk_mem_zipIdx_iff_getElem?, ← quotaEntityName_inj hlabel' hkind'] at hi
      refine ⟨i, hi, ?_⟩
      have hbound : i < resolved.names.length := by
        rw [hlength]
        exact (List.getElem?_eq_some_iff.1 hi).1
      rw [List.getElem?_eq_getElem hbound] at hsent ⊢
      simpa using hsent
    · intro ⟨i, hi, hname⟩
      refine ⟨label, hlabel, (mem_mapM_ok hentities).2 ⟨(kind, i), ?_, ?_⟩⟩
      · exact List.mk_mem_zipIdx_iff_getElem?.2 hi
      · exact quotaEntity_eq_ok.2 ⟨hlabel, by simp [hname]⟩

/-- A resource is sent without a name exactly where its default is marked. -/
theorem singleResourceEntity_empty_iff {name : Option String}
    (h : singleResourceEntity resolved.types resolved.names resolved.entityDefault true =
      .ok (kind, name)) : name = some "" ↔ MarkedDefault resolved kind := by
  unfold singleResourceEntity at h
  split at h
  case h_2 => exact absurd h (by simp)
  case h_1 only htypes =>
    rw [MarkedDefault, htypes]
    split_ifs at h with hdefault hbroker hnames
    · rw [Except.ok.injEq, Prod.mk.injEq] at h
      exact iff_of_true h.2.symm (.inl hdefault)
    · have hone : resolved.names.length = 1 := by
        by_contra hlength
        exact hnames (.inr ⟨rfl, hlength⟩)
      obtain ⟨single, hsingle⟩ := List.length_eq_one_iff.1 hone
      rw [Except.ok.injEq, Prod.mk.injEq, hsingle] at h
      rw [hsingle, ← h.1, ← h.2]
      simp [hdefault, eq_comm]

/-! ## The theorem -/

/-- A second cause that never comes with the first makes no difference only where it is absent. -/
theorem or_iff_left_iff_not {p q : Prop} (hapart : ¬ (p ∧ q)) : ((p ∨ q ↔ p) ↔ ¬ q) := by
  by_cases hp : p
  · have hq : ¬ q := fun hq => hapart ⟨hp, hq⟩
    simp [hp, hq]
  · simp [hp]

/-- **When defaults are only touched on request.** For a kind that an accepted alteration selects,
the quota entities contain its default, or its resource is sent without a name, exactly when a
default was asked for, if and only if the flag of the kind does not carry an empty name. -/
theorem default_iff_asked_iff (addresses : String → Option (List String))
    (entity : ConfigEntityArgs) (resolved : ResolvedConfigEntities)
    (h : Accepted addresses entity resolved) (kind : ConfigEntityType)
    (hkind : kind ∈ resolved.types) :
    (∀ entities, quotaEntities resolved.types resolved.names resolved.entityDefault true =
        .ok entities →
      ((HasDefault entities kind ↔ AskedDefault entity kind) ↔ entity.nameFlag kind ≠ some "")) ∧
    ∀ name, singleResourceEntity resolved.types resolved.names resolved.entityDefault true =
        .ok (kind, name) →
      ((name = some "" ↔ AskedDefault entity kind) ↔ entity.nameFlag kind ≠ some "") := by
  obtain ⟨hmarked, hapart⟩ := markedDefault_iff h hkind
  refine ⟨?_, ?_⟩
  · intro entities hentities
    rw [hasDefault_iff hkind hentities, hmarked]
    exact or_iff_left_iff_not hapart
  · intro name hname
    rw [singleResourceEntity_empty_iff hname, hmarked]
    exact or_iff_left_iff_not hapart

/-- A named client and the default user, which is asked for. -/
def clientAndDefaultUser : ConfigEntityArgs where
  client := some "billing"
  userDefaults := true

theorem default_iff_asked_clientAndDefaultUser :
    (HasDefault [("client-id", some "billing"), ("user", none)] .user ↔
      AskedDefault clientAndDefaultUser .user) ↔
        clientAndDefaultUser.nameFlag .user ≠ some "" :=
  (default_iff_asked_iff (fun _ => none) clientAndDefaultUser
    { types := [.client, .user], names := ["billing", ""], entityDefault := false
      embeddedDefaults := true } ⟨by rfl, by rfl, by rfl⟩ .user (by simp)).1 _ (by rfl)

/-- An empty user name selects the default of all users, which was not asked for. -/
theorem default_without_request : ¬ ∀ addresses entity resolved,
    Accepted addresses entity resolved → ∀ kind ∈ resolved.types,
    (∀ entities, quotaEntities resolved.types resolved.names resolved.entityDefault true =
        .ok entities → (HasDefault entities kind ↔ AskedDefault entity kind)) ∧
    ∀ name, singleResourceEntity resolved.types resolved.names resolved.entityDefault true =
        .ok (kind, name) → (name = some "" ↔ AskedDefault entity kind) := by
  intro h
  have hall := (h (fun _ => none) { user := some "" }
    { types := [.user], names := [], entityDefault := true, embeddedDefaults := false }
    ⟨by rfl, by rfl, by rfl⟩ .user (by simp)).1 [("user", none)] (by rfl)
  have hasked := hall.1 ⟨"user", rfl, by simp⟩
  simp [AskedDefault, ConfigEntityArgs.defaultsFlag] at hasked

end KafkaCli.Config
