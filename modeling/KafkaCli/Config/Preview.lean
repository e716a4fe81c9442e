import KafkaCli.Config.Alter
import KafkaCli.Lib.SendOnce

/-!
# Previews of altered configs

Without `--execute`, `configs alter` prints what it would change.

**Theorem (`configsAlter_previewed`).** For any arguments, either both runs fail with the same error
before they ask for anything; or the run without `--execute` prints a preview and does nothing else,
and there is one request that the preview shows, about the entities that the arguments select. The
run with `--execute` sends no other change: this one at most, whatever happens, and exactly once,
with an answer that has no error, if it succeeds.
-/

namespace KafkaCli.Config

open Checked Run Session Text
open Groups (MutationRow durationMs)

/-! ## What a preview shows -/

variable (host : Host)

/-- The row of an operation on a quota: its number is the one that the row has as a text. -/
structure ShowsQuota (row : ConfigChangeRow) (op : String × Option Float) : Prop where
  name : row.name = op.1
  operation : row.operation = if op.2.isSome then "SET" else "DELETE"
  value : row.value.bind host.parseF64 = op.2

/-- The preview shows what the request changes. -/
def Shows : Output → Call → Prop
  | .configChanges _ rows, .alterClientQuotas alteration =>
    List.Forall₂ (ShowsQuota host) rows alteration.ops
  | .mutationRows _ rows, .alterUserScramCredentials user changes _ =>
    rows = changes.map (scramRow user false)
  | .configChanges _ rows, .incrementalAlterConfigs _ _ configs =>
    rows = configs.map fun config =>
      { operation := if config.configOperation = .set then "SET" else "DELETE"
        name := config.name
        value := config.value }
  | .configChanges _ rows, .incrementalAlterConfig _ _ entries deletes _ =>
    rows = changeRows entries deletes
  | _, _ => False

/-- The request is about the entities. -/
def Call.About (resolved : ResolvedConfigEntities) : Call → Prop
  | .alterClientQuotas alteration =>
    quotaEntities resolved.types resolved.names resolved.entityDefault true = .ok alteration.entity
  | .alterUserScramCredentials user _ _ =>
    singleResourceEntity resolved.types resolved.names resolved.entityDefault true =
      .ok (.user, some user)
  | .incrementalAlterConfigs resource name _ => ∃ kind,
    singleResourceEntity resolved.types resolved.names resolved.entityDefault true =
      .ok (kind, some name) ∧ protocolConfigResourceType kind = some resource
  | .incrementalAlterConfig resource name _ _ _ => ∃ kind,
    singleResourceEntity resolved.types resolved.names resolved.entityDefault true =
      .ok (kind, some name) ∧ resource = nativeResourceType kind ∧ resource ≠ .unknown
  | _ => False

/-- The answer has no error. -/
def Succeeded : Exchange Reply Error → Prop
  | ⟨.alterClientQuotas _, .ok results⟩ => ∀ result ∈ results, result.error = none
  | ⟨.incrementalAlterConfigs _ _ _, .ok results⟩ => ∀ result ∈ results, result.errorCode = none
  | ⟨_, .ok _⟩ => True
  | ⟨_, .error _⟩ => False

/-- A request, and a preview of it. -/
structure Previewed where
  output : Output
  request : Call

/-- What the two runs of a command do. -/
structure Previewed.Covers (previewed : Previewed) (resolved : ResolvedConfigEntities)
    (preview execution : Command Unit) : Prop where
  mutating : previewed.request.mutating = true
  shows : Shows host previewed.output previewed.request
  about : previewed.request.About resolved
  preview : preview = host.ask (.print previewed.output)
  execution : SendsOnce Call.mutating (fun exchange => exchange.request = previewed.request)
    Succeeded execution

/-- Both runs fail alike before they ask for anything, or one is a preview of the other. -/
def Agree (resolved : ResolvedConfigEntities) (preview execution : Command Unit) : Prop :=
  (∃ e, preview = ofExcept (.error e) ∧ execution = ofExcept (.error e)) ∨
  ∃ previewed : Previewed, previewed.Covers host resolved preview execution

variable {host} {resolved : ResolvedConfigEntities}

/-! ## Composition -/

/-- A check that both runs make first. -/
theorem Agree.check {α : Type} {x : Result α} {preview execution : α → Command Unit}
    (h : ∀ a, x = .ok a → Agree host resolved (preview a) (execution a)) :
    Agree host resolved (ofExcept x >>= preview) (ofExcept x >>= execution) := by
  cases hx : x with
  | ok a => exact h a hx
  | error e => exact .inl ⟨e, rfl, rfl⟩

theorem quiet_print (output : Output) : Quiet Call.mutating (host.ask (.print output)) :=
  quiet_ask rfl

/-- Rows that are printed without failure have no error. -/
theorem writeResultRows_ok {command : String} {rows : List MutationRow}
    {t t' : Transcript Reply Error} {u : Unit}
    (h : (writeResultRows host command rows).run t = .ok u t') : ∀ row ∈ rows, row.error = none := by
  obtain ⟨_, _, -, hcheck⟩ := Run.bind_eq_ok.1 h
  obtain ⟨hfailures, -⟩ := run_ofExcept_eq_ok.1 hcheck
  have hnone := failIf_eq_ok.1 hfailures
  simp only [ne_eq, not_not, List.length_eq_zero_iff, List.filter_eq_nil_iff] at hnone
  intro row hrow
  simpa using hnone row hrow

theorem quiet_writeResultRows (command : String) (rows : List MutationRow) :
    Quiet Call.mutating (writeResultRows host command rows) :=
  .bind (quiet_print _) fun _ => .ofExcept _

/-! ## Quotas -/

theorem parseQuota_eq_ok {key value : String} {op : String × Option Float}
    (h : parseQuota host key value = .ok op) :
    ∃ rate, host.parseF64 value = some rate ∧ op = (key, some rate) := by
  unfold parseQuota at h
  split at h
  · cases h
  · split_ifs at h
    exact ⟨_, ‹_›, (Except.ok.inj h).symm⟩

/-- The rows of a change of quotas, and its operations. -/
theorem shows_quotas {add : List (String × String)} {delete : List String}
    {parsed : List (String × Option Float)}
    (h : (add.mapM fun (key, value) => parseQuota host key value) = .ok parsed) :
    List.Forall₂ (ShowsQuota host) (changeRows add delete)
      (parsed ++ delete.map fun key => (key, none)) := by
  refine List.rel_append ?_ ?_
  · rw [List.forall₂_map_left_iff]
    refine (forall₂_of_mapM_ok h).imp fun entry op hop => ?_
    obtain ⟨rate, hrate, rfl⟩ := parseQuota_eq_ok hop
    exact ⟨rfl, rfl, hrate⟩
  · rw [List.forall₂_map_left_iff, List.forall₂_map_right_iff, List.forall₂_same]
    intro key _
    exact ⟨rfl, rfl, rfl⟩

theorem sendsOnce_sendQuotaConfigs (alteration : QuotaAlteration) (delete : List String) :
    SendsOnce Call.mutating (fun exchange => exchange.request = .alterClientQuotas alteration)
      Succeeded (sendQuotaConfigs host alteration delete) := by
  refine .bind (quiet_ask rfl) fun _ => .bind (quiet_ask rfl) fun existing =>
    .bind (.ofExcept _) fun _ => .bind (.ofExcept _) fun _ =>
      .ask_bind rfl (fun _ => rfl) (fun results => quiet_writeResultRows _ _) ?_
  intro results t u t' hrun result hresult
  exact writeResultRows_ok hrun _ (List.mem_map.2 ⟨result, hresult, rfl⟩)

theorem agree_alterQuotaConfigs (resolved : ResolvedConfigEntities)
    (add : List (String × String)) (delete : List String) :
    Agree host resolved (alterQuotaConfigs host resolved add delete false)
      (alterQuotaConfigs host resolved add delete true) := by
  refine .check fun entities hentities => .check fun parsed hparsed => .inr ?_
  let alteration : QuotaAlteration :=
    { entity := entities, ops := parsed ++ delete.map fun key => (key, none) }
  exact ⟨⟨.configChanges "configs.alter.preview" (changeRows add delete),
      .alterClientQuotas alteration⟩,
    { mutating := rfl
      shows := shows_quotas hparsed
      about := hentities
      preview := rfl
      execution := sendsOnce_sendQuotaConfigs alteration delete }⟩

/-! ## Credentials -/

theorem durationMs_eq_ok {timeout : Nat} {timeoutMs : Int} (h : durationMs timeout = .ok timeoutMs) :
    timeoutMs = timeout := by
  unfold durationMs at h
  split_ifs at h
  exact (Except.ok.inj h).symm

theorem sendsOnce_alterUserScram (timeout : Nat) (user : String)
    (changes : List ScramCredentialAlteration) : SendsOnce Call.mutating
      (fun exchange => exchange.request = .alterUserScramCredentials user changes timeout) Succeeded
      (sendUserScram host timeout user changes) := by
  refine .bind (quiet_ask rfl) fun _ => .bind_ofExcept fun timeoutMs htimeout =>
    .bind (.ofExcept _) fun _ => ?_
  rw [durationMs_eq_ok htimeout]
  exact sendsOnce_ask rfl (fun _ => rfl) fun _ => trivial

theorem agree_alterUserScram (timeout : Nat) {user : String}
    (habout : singleResourceEntity resolved.types resolved.names resolved.entityDefault true =
      .ok (.user, some user)) (add : List (String × String)) (delete : List String) :
    Agree host resolved (alterUserScram host timeout user add delete false)
      (alterUserScram host timeout user add delete true) := by
  refine .check fun changes _ => .inr ?_
  exact ⟨⟨.mutationRows "configs.alter.scram" (changes.map (scramRow user false)),
      .alterUserScramCredentials user changes timeout⟩,
    { mutating := rfl
      shows := rfl
      about := habout
      preview := rfl
      execution := (sendsOnce_alterUserScram timeout user changes).then fun _ => quiet_print _ }⟩

/-! ## Resources -/

theorem shows_alterableConfigs (add : List (String × String)) (delete : List String) :
    changeRows add delete = (alterableConfigs add delete).map fun config =>
      { operation := if config.configOperation = .set then "SET" else "DELETE"
        name := config.name
        value := config.value } := by
  simp only [changeRows, alterableConfigs, List.map_append, List.map_map]
  rfl

theorem quiet_protocolConfigBroker (kind : ConfigEntityType) (name : String) :
    Quiet Call.mutating (protocolConfigBroker host kind name) :=
  .bind (quiet_ask rfl) fun _ => .bind (.ofExcept _) fun _ => .bind (.ofExcept _) fun _ => .pure _

theorem sendsOnce_alterProtocolConfig {kind : ConfigEntityType}
    {resource : ProtocolConfigResourceType}
    (hresource : protocolConfigResourceType kind = some resource) (command name : String)
    (add : List (String × String)) (delete : List String) : SendsOnce Call.mutating
      (fun exchange => exchange.request =
        .incrementalAlterConfigs resource name (alterableConfigs add delete)) Succeeded
      (alterProtocolConfig host command kind name add delete) := by
  rw [alterProtocolConfig, hresource]
  refine .bind_ofExcept fun _ hsome => ?_
  obtain rfl := Except.ok.inj hsome
  refine .bind (quiet_ask rfl) fun _ => .bind (quiet_protocolConfigBroker kind name) fun _ =>
    .bind (quiet_ask rfl) fun _ => .bind (quiet_ask rfl) fun _ => .bind (.ofExcept _) fun _ =>
      .ask_bind rfl (fun _ => rfl) (fun results => quiet_writeResultRows _ _) ?_
  intro results t u t' hrun result hresult
  have herror := writeResultRows_ok hrun _ (List.mem_map.2 ⟨result, hresult, rfl⟩)
  exact Option.map_eq_none_iff.1 herror

theorem sendsOnce_alterNativeConfig (timeout : Nat) (kind : ConfigEntityType) (name : String)
    (add : List (String × String)) (delete : List String) : SendsOnce Call.mutating
      (fun exchange => exchange.request =
        .incrementalAlterConfig (nativeResourceType kind) name add delete timeout) Succeeded
      (alterNativeConfig host timeout kind name add delete) := by
  refine .bind (quiet_ask rfl) fun _ => .bind_ofExcept fun timeoutMs htimeout =>
    .bind (.ofExcept _) fun _ => ?_
  rw [durationMs_eq_ok htimeout]
  exact sendsOnce_ask rfl (fun _ => rfl) fun _ => trivial

/-- A single resource that is altered has a name. -/
theorem singleResourceEntity_eq_ok {types : List ConfigEntityType} {names : List String}
    {entityDefault : Bool} {kind : ConfigEntityType} {name : Option String}
    (h : singleResourceEntity types names entityDefault true = .ok (kind, name)) :
    types = [kind] ∧ ∃ text, name = some text := by
  unfold singleResourceEntity at h
  split at h
  · split_ifs at h with hdefault hbroker hlength
    · obtain ⟨rfl, rfl⟩ := Prod.mk.inj (Except.ok.inj h)
      exact ⟨rfl, "", rfl⟩
    · obtain ⟨rfl, rfl⟩ := Prod.mk.inj (Except.ok.inj h)
      obtain ⟨text, rfl⟩ : ∃ text, names = [text] := by
        rw [← List.length_eq_one_iff]
        by_contra hne
        exact hlength (.inr ⟨rfl, hne⟩)
      exact ⟨rfl, text, rfl⟩
  · cases h

/-- Credentials are altered for a user only. -/
theorem scram_user {types : List ConfigEntityType} {add : List (String × String)}
    {delete : List String} (hquota : QuotaEntityTypes types) (hne : ¬ (add = [] ∧ delete = []))
    (hscram : onlyScramChanges add delete = true)
    (hvalid : validateQuotaChangeNames types add delete = .ok ()) : types = [.user] := by
  simp only [validateQuotaChangeNames, hquota, not_true_eq_false, if_false,
    Checked.bind_eq_ok, failIf_eq_ok] at hvalid
  obtain ⟨-, -, -, -, -, -, hlast⟩ := hvalid
  by_contra htypes
  refine hlast (.inl ⟨?_, htypes⟩)
  rw [List.filter_eq_self.2 (List.all_eq_true.1 hscram)]
  simpa [not_and_or] using hne

/-- What the library alters is a topic, a broker or a group. -/
theorem nativeResourceType_ne_unknown {kind : ConfigEntityType} (huser : kind ≠ .user)
    (hquota : ¬ QuotaEntityTypes [kind]) (hprotocol : (protocolConfigResourceType kind).isSome = true →
      kind = .broker) : nativeResourceType kind ≠ .unknown := by
  cases kind with
  | topic | broker | group => exact nofun
  | user => exact absurd rfl huser
  | client | ip => exact absurd (by decide) hquota
  | brokerLogger | clientMetrics => cases hprotocol rfl

theorem agree_alterSingleResource (timeout : Nat) {change : ConfigChange}
    (hquota : ∀ kind, change.resolved.types = [kind] → kind ≠ .user → ¬ QuotaEntityTypes [kind]) :
    Agree host change.resolved (alterSingleResource host timeout change false)
      (alterSingleResource host timeout change true) := by
  refine .check fun entity habout => ?_
  obtain ⟨kind, name⟩ := entity
  obtain ⟨htypes, name, rfl⟩ := singleResourceEntity_eq_ok habout
  by_cases huser : kind = .user
  · subst huser
    exact agree_alterUserScram timeout habout change.add change.delete
  simp only [if_neg huser]
  refine .inr ?_
  by_cases hprotocol : (protocolConfigResourceType kind).isSome = true ∧
      (kind ≠ .broker ∨ some name = some "")
  · obtain ⟨resource, hresource⟩ := Option.isSome_iff_exists.1 hprotocol.1
    refine ⟨⟨.configChanges "configs.alter.preview" (changeRows change.add change.delete),
        .incrementalAlterConfigs resource name (alterableConfigs change.add change.delete)⟩,
      { mutating := rfl
        shows := shows_alterableConfigs _ _
        about := ⟨kind, habout, hresource⟩
        preview := rfl
        execution := ?_ }⟩
    rw [if_true, alterResource, if_pos hprotocol]
    exact sendsOnce_alterProtocolConfig hresource "configs.alter" name change.add change.delete
  · have hnative : nativeResourceType kind ≠ .unknown :=
      nativeResourceType_ne_unknown huser (hquota kind htypes huser) fun hsome => by
        by_contra hbroker
        exact hprotocol ⟨hsome, .inl hbroker⟩
    refine ⟨⟨.configChanges "configs.alter.preview" (changeRows change.add change.delete),
        .incrementalAlterConfig (nativeResourceType kind) name change.add change.delete timeout⟩,
      { mutating := rfl
        shows := rfl
        about := ⟨kind, habout, rfl, hnative⟩
        preview := rfl
        execution := ?_ }⟩
    rw [if_true, alterResource, if_neg hprotocol]
    exact sendsOnce_alterNativeConfig timeout kind name change.add change.delete

/-! ## The command -/

theorem configChange_eq_ok {args : AlterArgs} {change : ConfigChange}
    (h : configChange host args = .ok change) :
    resolveConfigEntities args.entity = .ok change.resolved ∧
      ¬ (change.add = [] ∧ change.delete = []) ∧
      validateQuotaChangeNames change.resolved.types change.add change.delete = .ok () := by
  simp only [configChange, Checked.bind_eq_ok, pure_eq_ok, failIf_eq_ok] at h
  obtain ⟨resolved, hresolved, add, -, _, hne, _, -, _, -, _, -, _, hvalid, rfl⟩ := h
  exact ⟨hresolved, hne, hvalid⟩

/-- **The preview is what is executed.** -/
theorem configsAlter_previewed (host : Host) (timeout : Nat) (args : AlterArgs) :
    (∃ e, ∀ execute, (configsAlter host timeout { args with execute }).run [] = .error e []) ∨
    ∃ (resolved : ResolvedConfigEntities) (output : Output) (request : Call),
      resolveConfigEntities args.entity = .ok resolved ∧ request.About resolved ∧
      Shows host output request ∧
      configsAlter host timeout { args with execute := false } = host.ask (.print output) ∧
      SendsOnce Call.mutating (fun exchange => exchange.request = request) Succeeded
        (configsAlter host timeout { args with execute := true }) := by
  have hagree : ∀ change, configChange host args = .ok change → Agree host change.resolved
      (if QuotaEntityTypes change.resolved.types ∧ ¬ onlyScramChanges change.add change.delete then
        alterQuotaConfigs host change.resolved change.add change.delete false
      else alterSingleResource host timeout change false)
      (if QuotaEntityTypes change.resolved.types ∧ ¬ onlyScramChanges change.add change.delete then
        alterQuotaConfigs host change.resolved change.add change.delete true
      else alterSingleResource host timeout change true) := by
    intro change hchange
    obtain ⟨-, hne, hvalid⟩ := configChange_eq_ok hchange
    by_cases hquota : QuotaEntityTypes change.resolved.types ∧
        ¬ onlyScramChanges change.add change.delete
    · rw [if_pos hquota, if_pos hquota]
      exact agree_alterQuotaConfigs change.resolved change.add change.delete
    · rw [if_neg hquota, if_neg hquota]
      refine agree_alterSingleResource timeout fun kind htypes huser hkind => huser ?_
      rw [← htypes] at hkind
      have hscram : onlyScramChanges change.add change.delete = true := by
        by_contra hother
        exact hquota ⟨hkind, hother⟩
      have hone := scram_user hkind hne hscram hvalid
      rw [htypes] at hone
      exact List.singleton_inj.1 hone
  cases hchange : configChange host args with
  | error e =>
    refine .inl ⟨e, fun execute => ?_⟩
    have hsame : configChange host { args with execute } = .error e := hchange
    rw [configsAlter, hsame]
    rfl
  | ok change =>
    have hrun : ∀ execute, configsAlter host timeout { args with execute } =
        (if QuotaEntityTypes change.resolved.types ∧
            ¬ onlyScramChanges change.add change.delete then
          alterQuotaConfigs host change.resolved change.add change.delete execute
        else alterSingleResource host timeout change execute) := by
      intro execute
      have hsame : configChange host { args with execute } = .ok change := hchange
      rw [configsAlter, hsame]
      rfl
    rw [hrun, hrun]
    rcases hagree change hchange with ⟨e, hpreview, hexecution⟩ | ⟨previewed, hcovers⟩
    · refine .inl ⟨e, fun execute => ?_⟩
      rw [hrun]
      cases execute with
      | false => rw [hpreview, run_ofExcept_error]
      | true => rw [hexecution, run_ofExcept_error]
    · exact .inr ⟨change.resolved, previewed.output, previewed.request,
        (configChange_eq_ok hchange).1, hcovers.about, hcovers.shows, hcovers.preview,
        hcovers.execution⟩

end KafkaCli.Config
