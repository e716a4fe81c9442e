import KafkaCli.Acl.RoundTrip
import KafkaCli.Lib.Run
import Mathlib.Data.List.Nodup

/-!
# Adding to the entries of a broker

`acls add --execute` asks the broker which of the bindings are there already, with one request for
each resource, and then asks it to create the others. Others may change the entries of the broker
between two requests.

**Theorem (`aclsAdd_complete`).** If the command succeeds and nobody else has removed entries, every
binding is there. If nobody else changes them and no request fails or is refused, the command
succeeds: nothing but the bindings has been added, the numbers that are printed are those of the
bindings that were not there and that were, and the same command once more finds all of them and
sends no request to create any.
-/

namespace KafkaCli.Acl

open Checked Run Text

/-! ## The broker -/

/-- What happens at a request: others change the entries in front of it, and then it fails or not;
of the bindings to create, some may be refused. -/
structure AclTurn where
  added : List AclBinding
  removed : List AclBinding
  failure : Option Error
  refused : AclBinding → Option String

structure Broker where
  acls : List AclBinding
  turns : List AclTurn
  /-- The requests to create entries. -/
  creations : List (List AclBinding)

/-- The turn of the next request; nothing else happens where none is given. -/
def Broker.turn (broker : Broker) : AclTurn :=
  broker.turns.headD ⟨[], [], none, fun _ => none⟩

/-- The broker behind what others have changed. -/
def Broker.begin (broker : Broker) : Broker where
  acls := broker.turn.added ++ broker.acls.filter (· ∉ broker.turn.removed)
  turns := broker.turns.tail
  creations := broker.creations

/-- `AclBindingFilter.Matches` as a function. -/
def AclBindingFilter.accepts (filter : AclBindingFilter) (binding : AclBinding) : Bool :=
  (filter.resourceType = .any || filter.resourceType = binding.resourceType) &&
    filter.resourceName.all (· = binding.resourceName) &&
    (filter.patternType = .any || filter.patternType = binding.patternType) &&
    filter.principal.all (· = binding.principal) && filter.host.all (· = binding.host) &&
    (filter.operation = .any || filter.operation = binding.operation) &&
    (filter.permissionType = .any || filter.permissionType = binding.permissionType)

theorem accepts_iff_matches (filter : AclBindingFilter) (binding : AclBinding) :
    filter.accepts binding = true ↔ filter.Matches binding := by
  simp [AclBindingFilter.accepts, AclBindingFilter.Matches, Option.all_eq_true, and_assoc]

/-! ## The algorithm -/

/-- `AclMutationResult`. -/
structure AclMutationResult where
  matched : ℕ
  failures : ℕ
  errors : List String
  deriving DecidableEq, Repr

/-- The bindings that a filter matches. -/
def describeAcls (filter : AclBindingFilter) : EStateM Error Broker (List AclBinding) := do
  let broker ← get
  set broker.begin
  match broker.turn.failure with
  | some error => throw error
  | none => return broker.begin.acls.filter filter.accepts

def createAcls (bindings : List AclBinding) : EStateM Error Broker AclMutationResult := do
  let broker ← get
  set { broker.begin with
    acls := bindings.filter (broker.turn.refused · = none) ++ broker.begin.acls
    creations := broker.creations ++ [bindings] }
  match broker.turn.failure with
  | some error => throw error
  | none =>
    let errors := bindings.filterMap broker.turn.refused
    return ⟨bindings.length, errors.length, errors⟩

/-- A type, a name and a pattern. -/
abbrev AclResourceKey := AclResourceType × String × AclPatternType

def AclBinding.resource (binding : AclBinding) : AclResourceKey :=
  (binding.resourceType, binding.resourceName, binding.patternType)

/-- The filter for all bindings of a resource. -/
def resourceFilter (binding : AclBinding) : AclBindingFilter where
  resourceType := binding.resourceType
  resourceName := some binding.resourceName
  patternType := binding.patternType
  principal := none
  host := none
  operation := .any
  permissionType := .any

/-- Ask for the bindings of a resource, if it has not been asked for. -/
def queryResource (state : List AclResourceKey × List AclBinding) (binding : AclBinding) :
    EStateM Error Broker (List AclResourceKey × List AclBinding) :=
  if binding.resource ∈ state.1 then return state
  else do
    let found ← describeAcls (resourceFilter binding)
    return (binding.resource :: state.1, found ++ state.2)

def filterMissingAclBindings (requested existing : List AclBinding) : List AclBinding × ℕ :=
  let missing := requested.filter (· ∉ existing)
  (missing, requested.length - missing.length)

def missingAclBindings (requested : List AclBinding) :
    EStateM Error Broker (List AclBinding × ℕ) := do
  let (_, existing) ← requested.foldlM queryResource ([], [])
  return filterMissingAclBindings requested existing

/-- The row that is printed, and what the command returns. -/
structure AclAddOutput where
  status : String
  errors : List String
  result : Result Unit
  deriving DecidableEq

def aclAddStatus (created alreadyExists : ℕ) : String :=
  s!"CREATED {created}; ALREADY_EXISTS {alreadyExists}"

/-- Ask for what is missing, if anything is. -/
def createMissing (missing : List AclBinding) : EStateM Error Broker AclMutationResult :=
  if missing = [] then return ⟨0, 0, []⟩ else createAcls missing

def aclAddOutput (missing : List AclBinding) (alreadyExists : ℕ) (result : AclMutationResult) :
    AclAddOutput where
  status := aclAddStatus (result.matched - result.failures) alreadyExists
  errors := result.errors
  result :=
    if result.failures = 0 then .ok ()
    else .error (.partialFailure result.failures missing.length)

/-- `acls add --execute`. -/
def executeAclsAdd (mutation : AclMutationArgs) : EStateM Error Broker AclAddOutput := do
  let bindings ← ofExcept (aclsAdd mutation)
  let (missing, alreadyExists) ← missingAclBindings bindings
  let result ← createMissing missing
  return aclAddOutput missing alreadyExists result

/-! ## One request -/

/-- Nobody removes entries while the command runs. -/
def Broker.OnlyAdded (broker : Broker) : Prop := ∀ turn ∈ broker.turns, turn.removed = []

/-- Nobody else changes anything, the request does not fail, and no binding is refused. -/
structure AclTurn.Quiet (turn : AclTurn) : Prop where
  added : turn.added = []
  removed : turn.removed = []
  failure : turn.failure = none
  refused : ∀ binding, turn.refused binding = none

def Broker.Quiet (broker : Broker) : Prop := ∀ turn ∈ broker.turns, turn.Quiet

/-- Requests have been made to a quiet broker that have changed nothing. -/
structure Broker.Rests (broker after : Broker) : Prop where
  quiet : after.Quiet
  acls : after.acls = broker.acls
  creations : after.creations = broker.creations

section Requests

variable {broker after : Broker} {filter : AclBindingFilter} {bindings : List AclBinding}

theorem Broker.OnlyAdded.removed (h : broker.OnlyAdded) : broker.turn.removed = [] := by
  rw [Broker.turn]
  cases hturns : broker.turns with
  | nil => rfl
  | cons turn turns => exact h turn (by rw [hturns]; exact List.mem_cons_self)

theorem Broker.OnlyAdded.begin (h : broker.OnlyAdded) :
    broker.begin.OnlyAdded ∧ broker.acls ⊆ broker.begin.acls := by
  refine ⟨fun turn hmem => h turn (List.mem_of_mem_tail hmem), fun binding hmem => ?_⟩
  refine List.mem_append_right _ (List.mem_filter.2 ⟨hmem, ?_⟩)
  rw [h.removed]
  simp

theorem Broker.Quiet.turn (h : broker.Quiet) : broker.turn.Quiet := by
  rw [Broker.turn]
  cases hturns : broker.turns with
  | nil => exact ⟨rfl, rfl, rfl, fun _ => rfl⟩
  | cons turn turns => exact h turn (by rw [hturns]; exact List.mem_cons_self)

theorem Broker.Quiet.begin (h : broker.Quiet) : broker.Rests broker.begin where
  quiet turn hmem := h turn (List.mem_of_mem_tail hmem)
  acls := by simp [Broker.begin, h.turn.added, h.turn.removed]
  creations := rfl

theorem Broker.Rests.trans {middle : Broker} (h : broker.Rests middle) (h' : middle.Rests after) :
    broker.Rests after :=
  ⟨h'.quiet, h'.acls.trans h.acls, h'.creations.trans h.creations⟩

theorem describeAcls_eq_ok {found : List AclBinding} :
    (describeAcls filter).run broker = .ok found after ↔
      broker.turn.failure = none ∧ found = broker.begin.acls.filter filter.accepts ∧
        after = broker.begin := by
  have hrun : (describeAcls filter).run broker = EStateM.run (match broker.turn.failure with
      | some error => throw error
      | none => return broker.begin.acls.filter filter.accepts) broker.begin := rfl
  rw [hrun]
  cases broker.turn.failure with
  | none => simp [eq_comm]
  | some error => simp

theorem createAcls_eq_ok {result : AclMutationResult} :
    (createAcls bindings).run broker = .ok result after ↔
      broker.turn.failure = none ∧
        result = ⟨bindings.length, (bindings.filterMap broker.turn.refused).length,
          bindings.filterMap broker.turn.refused⟩ ∧
        after = { broker.begin with
          acls := bindings.filter (broker.turn.refused · = none) ++ broker.begin.acls
          creations := broker.creations ++ [bindings] } := by
  have hrun : (createAcls bindings).run broker = EStateM.run (match broker.turn.failure with
      | some error => throw error
      | none => return ⟨bindings.length, (bindings.filterMap broker.turn.refused).length,
          bindings.filterMap broker.turn.refused⟩)
      { broker.begin with
        acls := bindings.filter (broker.turn.refused · = none) ++ broker.begin.acls
        creations := broker.creations ++ [bindings] } := rfl
  rw [hrun]
  cases broker.turn.failure with
  | none => simp [eq_comm]
  | some error => simp

theorem createAcls_of_accepted (bindings : List AclBinding) (h : broker.turn.failure = none) :
    (createAcls bindings).run broker =
      .ok ⟨bindings.length, (bindings.filterMap broker.turn.refused).length,
        bindings.filterMap broker.turn.refused⟩ { broker.begin with
          acls := bindings.filter (broker.turn.refused · = none) ++ broker.begin.acls
          creations := broker.creations ++ [bindings] } :=
  createAcls_eq_ok.2 ⟨h, rfl, rfl⟩

/-- The filter of a resource matches all of its bindings. -/
theorem accepts_resourceFilter {binding other : AclBinding}
    (h : binding.resource = other.resource) : (resourceFilter binding).accepts other = true := by
  obtain ⟨htype, hname, hpattern⟩ : binding.resourceType = other.resourceType ∧
      binding.resourceName = other.resourceName ∧ binding.patternType = other.patternType := by
    simpa [AclBinding.resource] using h
  simp [AclBindingFilter.accepts, resourceFilter, htype, hname, hpattern]

theorem queryResource_eq_ok {state state' : List AclResourceKey × List AclBinding}
    {binding : AclBinding} :
    (queryResource state binding).run broker = .ok state' after ↔
      (binding.resource ∈ state.1 ∧ state' = state ∧ after = broker) ∨
      (binding.resource ∉ state.1 ∧ broker.turn.failure = none ∧ after = broker.begin ∧
        state' = (binding.resource :: state.1,
          broker.begin.acls.filter (resourceFilter binding).accepts ++ state.2)) := by
  unfold queryResource
  by_cases hasked : binding.resource ∈ state.1
  · simp [hasked, eq_comm]
  · rw [if_neg hasked, Run.bind_eq_ok]
    simp only [describeAcls_eq_ok, EStateM.run_pure, EStateM.Result.ok.injEq]
    constructor
    · intro h
      obtain ⟨found, middle, ⟨hfailure, rfl, rfl⟩, rfl, rfl⟩ := h
      exact .inr ⟨hasked, hfailure, rfl, rfl⟩
    · intro h
      rcases h with ⟨hmem, -⟩ | ⟨-, hfailure, rfl, rfl⟩
      · exact absurd hmem hasked
      · exact ⟨_, _, ⟨hfailure, rfl, rfl⟩, rfl, rfl⟩

end Requests

/-! ## Which bindings are missing -/

section Missing

variable {broker after : Broker} {requested : List AclBinding}
  {state state' : List AclResourceKey × List AclBinding}

theorem foldlM_cons_eq_ok {binding : AclBinding} :
    ((binding :: requested).foldlM queryResource state).run broker = .ok state' after ↔
      ∃ middle broker', (queryResource state binding).run broker = .ok middle broker' ∧
        (requested.foldlM queryResource middle).run broker' = .ok state' after := by
  rw [List.foldlM_cons, Run.bind_eq_ok]

/-- **Nobody removes entries:** what was found is still there. -/
theorem found_of_onlyAdded (honly : broker.OnlyAdded) (hstate : state.2 ⊆ broker.acls)
    (hrun : (requested.foldlM queryResource state).run broker = .ok state' after) :
    after.OnlyAdded ∧ broker.acls ⊆ after.acls ∧ state'.2 ⊆ after.acls := by
  induction requested generalizing state broker with
  | nil =>
    cases hrun
    exact ⟨honly, List.Subset.refl _, hstate⟩
  | cons binding requested ih =>
    obtain ⟨middle, broker', hquery, hrest⟩ := foldlM_cons_eq_ok.1 hrun
    rcases queryResource_eq_ok.1 hquery with ⟨-, rfl, rfl⟩ | ⟨-, -, rfl, rfl⟩
    · exact ih honly hstate hrest
    · obtain ⟨honly', hmore⟩ := honly.begin
      obtain ⟨hafter, hgrown, hfound⟩ := ih honly' (List.append_subset.2
        ⟨List.filter_subset_self _, List.Subset.trans hstate hmore⟩) hrest
      exact ⟨hafter, List.Subset.trans hmore hgrown, hfound⟩

/-- What has been asked for has been found. -/
def Asked (broker : Broker) (state : List AclResourceKey × List AclBinding) : Prop :=
  ∀ binding ∈ broker.acls, binding.resource ∈ state.1 → binding ∈ state.2

/-- **A quiet broker:** the requests change nothing, and find exactly what is there. -/
theorem found_of_quiet (requested : List AclBinding)
    (state : List AclResourceKey × List AclBinding) (hquiet : broker.Quiet)
    (hstate : Asked broker state) (hsound : state.2 ⊆ broker.acls) :
    ∃ state' after, (requested.foldlM queryResource state).run broker = .ok state' after ∧
      broker.Rests after ∧ state'.2 ⊆ broker.acls ∧ state.2 ⊆ state'.2 ∧
      ∀ binding ∈ requested, binding ∈ broker.acls → binding ∈ state'.2 := by
  induction requested generalizing state broker with
  | nil =>
    exact ⟨state, broker, rfl, ⟨hquiet, rfl, rfl⟩, hsound, List.Subset.refl _,
      fun _ h => absurd h List.not_mem_nil⟩
  | cons binding requested ih =>
    obtain ⟨middle, broker', hquery, hrests, hasked, hmiddle, hkept, hbinding⟩ : ∃ middle broker',
        (queryResource state binding).run broker = .ok middle broker' ∧ broker.Rests broker' ∧
          Asked broker middle ∧ middle.2 ⊆ broker.acls ∧ state.2 ⊆ middle.2 ∧
            (binding ∈ broker.acls → binding ∈ middle.2) := by
      by_cases hmem : binding.resource ∈ state.1
      · exact ⟨state, broker, queryResource_eq_ok.2 (.inl ⟨hmem, rfl, rfl⟩), ⟨hquiet, rfl, rfl⟩,
          hstate, hsound, List.Subset.refl _, fun h => hstate binding h hmem⟩
      · have hall : ∀ other ∈ broker.acls, binding.resource = other.resource →
            other ∈ broker.acls.filter (resourceFilter binding).accepts := fun other hother heq =>
          List.mem_filter.2 ⟨hother, accepts_resourceFilter heq⟩
        refine ⟨_, broker.begin, queryResource_eq_ok.2 (.inr ⟨hmem, hquiet.turn.failure, rfl, rfl⟩),
          hquiet.begin, ?_, ?_, ?_, ?_⟩
        · intro other hother hresource
          rw [hquiet.begin.acls]
          rcases List.mem_cons.1 hresource with heq | hold
          · exact List.mem_append_left _ (hall other hother heq.symm)
          · exact List.mem_append_right _ (hstate other hother hold)
        · rw [hquiet.begin.acls]
          exact List.append_subset.2 ⟨List.filter_subset_self _, hsound⟩
        · exact List.subset_append_right ..
        · intro hthere
          rw [hquiet.begin.acls]
          exact List.mem_append_left _ (hall binding hthere rfl)
    have hasked' : Asked broker' middle := by
      rw [Asked, hrests.acls]
      exact hasked
    obtain ⟨state', after, hrest, hrests', hsound', hkept', hfound⟩ := ih middle hrests.quiet hasked'
      (by rwa [hrests.acls])
    rw [hrests.acls] at hsound' hfound
    refine ⟨state', after, foldlM_cons_eq_ok.2 ⟨middle, broker', hquery, hrest⟩,
      hrests.trans hrests', hsound', List.Subset.trans hkept hkept', fun other hmem hthere => ?_⟩
    rcases List.mem_cons.1 hmem with rfl | hmem
    · exact hkept' (hbinding hthere)
    · exact hfound other hmem hthere

theorem missingAclBindings_of_quiet (requested : List AclBinding) (hquiet : broker.Quiet) :
    ∃ after, (missingAclBindings requested).run broker =
        .ok (requested.filter (· ∉ broker.acls), requested.countP (· ∈ broker.acls)) after ∧
      broker.Rests after := by
  obtain ⟨⟨asked, existing⟩, after, hrun, hrests, hsound, -, hfound⟩ :=
    found_of_quiet requested ([], []) hquiet
      (fun _ _ h => absurd h List.not_mem_nil) (List.nil_subset _)
  have hexisting : requested.filter (· ∉ existing) = requested.filter (· ∉ broker.acls) := by
    refine List.filter_congr fun binding hmem => decide_eq_decide.2 (not_congr ⟨?_, ?_⟩)
    · exact fun h => hsound h
    · exact hfound binding hmem
  have hcount : requested.length - (requested.filter (· ∉ broker.acls)).length =
      requested.countP (· ∈ broker.acls) := by
    rw [← List.countP_eq_length_filter,
      List.length_eq_countP_add_countP fun binding => decide (binding ∈ broker.acls)]
    simp only [decide_eq_true_eq]
    omega
  refine ⟨after, ?_, hrests⟩
  unfold missingAclBindings
  rw [bind_of_ok hrun]
  show EStateM.run (pure (filterMissingAclBindings requested existing)) after = _
  rw [filterMissingAclBindings, hexisting, hcount]
  rfl

end Missing

/-! ## Each binding once -/

theorem nodup_normalized (values : List String) : (normalized values).toList.Nodup := by
  refine List.Pairwise.imp ?_ Std.TreeSet.distinct_toList
  intro a b hne heq
  subst heq
  exact hne Std.ReflCmp.compare_self

theorem nodup_hosts (mutation : AclMutationArgs) (values : List String) :
    (mutation.hosts (normalized values)).Nodup := by
  unfold AclMutationArgs.hosts
  split_ifs
  · exact List.nodup_singleton _
  · exact nodup_normalized values

theorem nodup_bindingPrincipals {mutation : AclMutationArgs}
    {principals : List (String × AclPermissionType)}
    (h : bindingPrincipals mutation = .ok principals) : principals.Nodup := by
  have hpairs : ∀ (values : List String) (permission : AclPermissionType),
      ((normalized values).toList.map (·, permission)).Nodup := fun values permission =>
    (nodup_normalized values).map fun a b heq => (Prod.mk.inj heq).1
  rcases bindingPrincipals_ok h with ⟨-, rfl⟩ | ⟨-, -, rfl⟩
  · refine (hpairs _ _).append (hpairs _ _) fun entry hallow hdeny => ?_
    obtain ⟨_, -, rfl⟩ := List.mem_map.1 hallow
    obtain ⟨_, -, heq⟩ := List.mem_map.1 hdeny
    cases (Prod.mk.inj heq).2
  · exact hpairs _ _

theorem nodup_aclOperationsFrom {operations out : List AclOperation} {values : List String}
    (h : aclOperationsFrom operations values = .ok out) (hnodup : operations.Nodup) :
    out.Nodup := by
  induction values generalizing operations with
  | nil =>
    obtain rfl := Except.ok.inj h
    exact hnodup
  | cons value values ih =>
    rw [aclOperationsFrom, Checked.bind_eq_ok] at h
    obtain ⟨operation, -, h⟩ := h
    split_ifs at h with hmem
    · exact ih h hnodup
    · refine ih h (hnodup.append (List.nodup_singleton _) fun other hother hnew => hmem ?_)
      rwa [← List.mem_singleton.1 hnew]

theorem nodup_addOperations {mutation : AclMutationArgs} {operations : List AclOperation}
    (h : addOperations mutation = .ok operations) : operations.Nodup := by
  unfold addOperations at h
  split_ifs at h
  · obtain rfl := Except.ok.inj h
    exact List.nodup_singleton _
  · exact nodup_aclOperationsFrom h List.nodup_nil

/-- No two resources have the same type and name, and the operations on each differ. -/
structure Separate (resources : List AclResource) : Prop where
  named : (resources.map fun resource => (resource.1, resource.2.1)).Nodup
  operations : ∀ resource ∈ resources, resource.2.2.Nodup

/-- Named resources of each type. -/
theorem nodup_named (topics groups ids : List String) (clusters : List (AclResourceType × String))
    (htopics : topics.Nodup) (hgroups : groups.Nodup) (hids : ids.Nodup)
    (hclusters : clusters.Nodup) (hcluster : ∀ resource ∈ clusters, resource.1 = .cluster) :
    (topics.map (AclResourceType.topic, ·) ++ groups.map (AclResourceType.group, ·) ++
      (ids.map (AclResourceType.transactionalId, ·) ++ clusters)).Nodup := by
  have hmap : ∀ (type : AclResourceType) (names : List String), names.Nodup →
      (names.map (type, ·)).Nodup := fun type names h => h.map fun a b heq => (Prod.mk.inj heq).2
  refine ((hmap _ _ htopics).append (hmap _ _ hgroups) ?_).append
    ((hmap _ _ hids).append hclusters ?_) ?_
  · intro resource hleft hright
    simp only [List.mem_map] at hleft hright
    obtain ⟨_, -, rfl⟩ := hleft
    obtain ⟨_, -, heq⟩ := hright
    cases (Prod.mk.inj heq).1
  · intro resource hleft hright
    obtain ⟨_, -, rfl⟩ := List.mem_map.1 hleft
    cases hcluster _ hright
  · intro resource hleft hright
    simp only [List.mem_append, List.mem_map] at hleft hright
    rcases hright with ⟨_, -, rfl⟩ | hright
    · rcases hleft with ⟨_, -, heq⟩ | ⟨_, -, heq⟩ <;> cases (Prod.mk.inj heq).1
    · have htype := hcluster _ hright
      rcases hleft with ⟨_, -, rfl⟩ | ⟨_, -, rfl⟩ <;> cases htype

theorem nodup_aclResources {filter : AclFilterArgs} {resources : List (AclResourceType × String)}
    (h : aclResources filter = .ok resources) : resources.Nodup := by
  simp only [aclResources, Checked.bind_eq_ok, normalizedAclValues_eq_ok, pure_eq_ok] at h
  obtain ⟨_, ⟨_, rfl⟩, _, ⟨_, rfl⟩, _, ⟨_, rfl⟩, _, _, rfl⟩ := h
  have hnodup := nodup_named (normalized filter.topic).toList (normalized filter.group).toList
    (normalized filter.transactionalId).toList
    (if filter.cluster then [(.cluster, "kafka-cluster")] else []) (nodup_normalized _)
    (nodup_normalized _) (nodup_normalized _) (by split_ifs <;> simp) (by split_ifs <;> simp)
  refine (List.Perm.nodup_iff ?_).1 hnodup
  rw [List.append_assoc _ _ (List.map _ _)]
  exact List.perm_append_comm.append_left _

theorem separate_roleResources {mutation : AclMutationArgs} {resources : List AclResource}
    (h : roleResources mutation = .ok resources) : Separate resources := by
  simp only [roleResources, Checked.bind_eq_ok, normalizedAclValues_eq_ok, pure_eq_ok] at h
  obtain ⟨_, -, _, -, _, ⟨-, rfl⟩, _, -, groups, hgroups, ids, hids, rfl⟩ := h
  have hgroups' : groups.Nodup := by
    unfold roleGroups at hgroups
    split_ifs at hgroups
    · simp only [Checked.bind_eq_ok, normalizedAclValues_eq_ok, pure_eq_ok] at hgroups
      obtain ⟨_, ⟨-, rfl⟩, _, -, rfl⟩ := hgroups
      exact nodup_normalized _
    · obtain rfl := Except.ok.inj hgroups
      exact List.nodup_nil
  have hids' : ids.Nodup := by
    unfold roleTransactionalIds at hids
    split_ifs at hids
    · simp only [Checked.bind_eq_ok, normalizedAclValues_eq_ok, pure_eq_ok] at hids
      obtain ⟨_, ⟨-, rfl⟩, rfl⟩ := hids
      exact nodup_normalized _
    · obtain rfl := Except.ok.inj hids
      exact List.nodup_nil
  constructor
  · have hnodup := nodup_named (normalized mutation.filter.topic).toList groups ids
      (if mutation.idempotent then [(.cluster, "kafka-cluster")] else []) (nodup_normalized _)
      hgroups' hids' (by split_ifs <;> simp) (by split_ifs <;> simp)
    have hclusters : (if mutation.idempotent then
        [((AclResourceType.cluster, "kafka-cluster", [AclOperation.idempotentWrite]) : AclResource)]
        else []).map (fun resource => (resource.1, resource.2.1)) =
          if mutation.idempotent then [(.cluster, "kafka-cluster")] else [] := by
      split_ifs <;> rfl
    simpa only [List.map_append, List.map_map, Function.comp_def, hclusters, List.append_assoc]
      using hnodup
  · intro resource hmem
    simp only [List.mem_append, List.mem_map] at hmem
    rcases hmem with ((⟨_, -, rfl⟩ | ⟨_, -, rfl⟩) | ⟨_, -, rfl⟩) | hcluster
    · show (roleTopicOperations mutation.producer mutation.consumer).Nodup
      cases mutation.producer <;> cases mutation.consumer <;> decide
    · exact List.nodup_singleton _
    · show ([.write, .describe] : List AclOperation).Nodup
      decide
    · split_ifs at hcluster
      · rw [List.mem_singleton.1 hcluster]
        exact List.nodup_singleton _
      · cases hcluster

theorem separate_aclMutationResources {mutation : AclMutationArgs} {operations : List AclOperation}
    {resources : List AclResource} (h : aclMutationResources mutation operations = .ok resources)
    (hoperations : operations.Nodup) : Separate resources := by
  unfold aclMutationResources at h
  split_ifs at h
  · simp only [Checked.bind_eq_ok, pure_eq_ok] at h
    obtain ⟨named, hnamed, _, -, rfl⟩ := h
    refine ⟨?_, fun resource hmem => ?_⟩
    · rw [withOperations, List.map_map]
      exact (List.map_id named).symm ▸ nodup_aclResources hnamed
    · obtain ⟨_, -, rfl⟩ := List.mem_map.1 hmem
      exact hoperations
  · exact separate_roleResources h

/-- **Each binding is asked for once.** -/
theorem nodup_aclsAdd {mutation : AclMutationArgs} {bindings : List AclBinding}
    (h : aclsAdd mutation = .ok bindings) : bindings.Nodup := by
  simp only [aclsAdd, aclBindings, Checked.bind_eq_ok, failIf_eq_ok, normalizedAclValues_eq_ok,
    pure_eq_ok] at h
  obtain ⟨operations, hops, _, -, _, -, resources, hresources, _, -, principals, hprincipals, _, -,
    _, ⟨-, rfl⟩, _, ⟨-, rfl⟩, rfl⟩ := h
  have hseparate := separate_aclMutationResources hresources (nodup_addOperations hops)
  have hpairs := nodup_bindingPrincipals hprincipals
  have htrim : ∀ (permission : AclPermissionType), ∀ host ∈ mutation.hosts
      (if permission = .allow then normalized mutation.allowHost
        else normalized mutation.denyHost), trim host = host := by
    intro permission host hmem
    rw [← apply_ite normalized] at hmem
    exact trim_of_mem_hostsOf hmem
  refine List.nodup_flatMap.2 ⟨fun resource hresource => ?_, ?_⟩
  · refine List.nodup_flatMap.2 ⟨fun principal _ => ?_, ?_⟩
    · refine List.nodup_flatMap.2 ⟨fun host _ => ?_, ?_⟩
      · exact (hseparate.operations resource hresource).map fun a b heq =>
          congrArg AclBinding.operation heq
      · have hhosts : (mutation.hosts (if principal.2 = .allow then normalized mutation.allowHost
            else normalized mutation.denyHost)).Nodup := by
          rw [← apply_ite normalized]
          exact nodup_hosts mutation _
        refine hhosts.pairwise_of_forall_ne fun host hhost host' hhost' hne binding hleft hright =>
          hne ?_
        obtain ⟨_, -, rfl⟩ := List.mem_map.1 hleft
        obtain ⟨_, -, heq⟩ := List.mem_map.1 hright
        rw [← htrim _ host hhost, ← htrim _ host' hhost']
        exact (congrArg AclBinding.host heq).symm
    · refine hpairs.pairwise_of_forall_ne fun entry _ entry' _ hne binding hleft hright => hne ?_
      simp only [List.mem_flatMap, List.mem_map] at hleft hright
      obtain ⟨_, -, _, -, rfl⟩ := hleft
      obtain ⟨_, -, _, -, heq⟩ := hright
      exact Prod.ext (congrArg AclBinding.principal heq).symm
        (congrArg AclBinding.permissionType heq).symm
  · refine (List.pairwise_map.1 hseparate.named).imp fun hne binding hleft hright => hne ?_
    simp only [List.mem_flatMap, List.mem_map] at hleft hright
    obtain ⟨_, -, _, -, _, -, rfl⟩ := hleft
    obtain ⟨_, -, _, -, _, -, heq⟩ := hright
    exact Prod.ext (congrArg AclBinding.resourceType heq).symm
      (congrArg AclBinding.resourceName heq).symm

/-! ## The command -/

section Command

variable {mutation : AclMutationArgs} {bindings : List AclBinding} {broker after : Broker}

theorem refused_eq_none (turn : AclTurn) (missing : List AclBinding)
    (h : (missing.filterMap turn.refused).length = 0) :
    missing.filter (turn.refused · = none) = missing := by
  refine List.filter_eq_self.2 fun binding hmem => decide_eq_true ?_
  exact List.filterMap_eq_nil_iff.1 (List.eq_nil_of_length_eq_zero h) binding hmem

/-- What a command that succeeds has done. -/
theorem executeAclsAdd_ok (hbindings : aclsAdd mutation = .ok bindings) {output : AclAddOutput}
    (hrun : (executeAclsAdd mutation).run broker = .ok output after)
    (hok : output.result = .ok ()) (honly : broker.OnlyAdded) :
    bindings ⊆ after.acls ∧ broker.acls ⊆ after.acls := by
  unfold executeAclsAdd at hrun
  rw [hbindings, Run.bind_eq_ok] at hrun
  obtain ⟨bindings', start, hfirst, hrun⟩ := hrun
  obtain ⟨hbindings', rfl⟩ := run_ofExcept_eq_ok.1 hfirst
  obtain rfl := Except.ok.inj hbindings'
  rw [Run.bind_eq_ok] at hrun
  obtain ⟨⟨missing, alreadyExists⟩, middle, hmissing, hrun⟩ := hrun
  unfold missingAclBindings at hmissing
  rw [Run.bind_eq_ok] at hmissing
  obtain ⟨⟨asked, existing⟩, middle', hasked, hpure⟩ := hmissing
  obtain ⟨hfilter, rfl⟩ := EStateM.Result.ok.inj hpure
  obtain ⟨rfl, -⟩ := Prod.mk.inj hfilter
  obtain ⟨honly', hgrown, hfound⟩ := found_of_onlyAdded honly (List.nil_subset _) hasked
  dsimp only at hrun
  rw [Run.bind_eq_ok] at hrun
  obtain ⟨result, final, hcreate, hpure⟩ := hrun
  obtain ⟨rfl, rfl⟩ := EStateM.Result.ok.inj hpure
  -- what has been found is there, and the others have been created
  have hcover : ∀ binding ∈ bindings, binding ∈ existing ∨
      binding ∈ bindings.filter (· ∉ existing) := by
    intro binding hmem
    by_cases hexisting : binding ∈ existing
    · exact .inl hexisting
    · exact .inr (List.mem_filter.2 ⟨hmem, decide_eq_true hexisting⟩)
  unfold createMissing at hcreate
  split_ifs at hcreate with hnone
  · obtain ⟨-, rfl⟩ := EStateM.Result.ok.inj hcreate
    refine ⟨fun binding hmem => ?_, hgrown⟩
    rcases hcover binding hmem with hexisting | hmissing
    · exact hfound hexisting
    · rw [hnone] at hmissing
      cases hmissing
  · obtain ⟨-, rfl, rfl⟩ := createAcls_eq_ok.1 hcreate
    obtain ⟨-, hmore⟩ := honly'.begin
    have hall := refused_eq_none middle'.turn (bindings.filter (· ∉ existing))
      (by
        rw [aclAddOutput] at hok
        dsimp only at hok
        split_ifs at hok with hfailures
        exact hfailures)
    rw [hall]
    refine ⟨fun binding hmem => ?_, fun binding hmem =>
      List.mem_append_right _ (hmore (hgrown hmem))⟩
    rcases hcover binding hmem with hexisting | hmissing
    · exact List.mem_append_right _ (hmore (hfound hexisting))
    · exact List.mem_append_left _ hmissing

/-- What is missing is created, if anything is. -/
theorem createMissing_of_quiet (missing : List AclBinding) (hquiet : broker.Quiet) :
    ∃ after, (createMissing missing).run broker = .ok ⟨missing.length, 0, []⟩ after ∧
      after.Quiet ∧ after.acls = missing ++ broker.acls ∧
      (missing = [] → after.creations = broker.creations) := by
  by_cases hnone : missing = []
  · subst hnone
    exact ⟨broker, rfl, hquiet, rfl, fun _ => rfl⟩
  · have hrefused : broker.turn.refused = fun _ => none := funext hquiet.turn.refused
    have hcreate := createAcls_of_accepted missing hquiet.turn.failure
    rw [hrefused, List.filterMap_none, hquiet.begin.acls] at hcreate
    have hsame : createMissing missing = createAcls missing := if_neg hnone
    rw [← hsame] at hcreate
    exact ⟨_, hcreate, hquiet.begin.quiet, by simp, fun hnil => absurd hnil hnone⟩

/-- What a command does with a quiet broker. -/
theorem executeAclsAdd_of_quiet (hbindings : aclsAdd mutation = .ok bindings)
    (hquiet : broker.Quiet) :
    ∃ after, (executeAclsAdd mutation).run broker =
        .ok ⟨aclAddStatus (bindings.countP (· ∉ broker.acls)) (bindings.countP (· ∈ broker.acls)),
          [], .ok ()⟩ after ∧
      after.Quiet ∧ after.acls = bindings.filter (· ∉ broker.acls) ++ broker.acls ∧
      (bindings ⊆ broker.acls → after.creations = broker.creations) := by
  obtain ⟨middle, hmissing, hrests⟩ := missingAclBindings_of_quiet bindings hquiet
  obtain ⟨after, hcreate, hquiet', hacls, hsame⟩ :=
    createMissing_of_quiet (bindings.filter (· ∉ broker.acls)) hrests.quiet
  refine ⟨after, ?_, hquiet', ?_, fun hthere => ?_⟩
  · unfold executeAclsAdd
    rw [hbindings, bind_of_ok (run_ofExcept_eq_ok.2 ⟨rfl, rfl⟩), bind_of_ok hmissing]
    dsimp only
    rw [bind_of_ok hcreate, ← List.countP_eq_length_filter]
    rfl
  · rw [hacls, hrests.acls]
  · rw [← hrests.creations]
    refine hsame (List.filter_eq_nil_iff.2 fun binding hmem => ?_)
    simpa using hthere hmem

end Command

/-- **Adding is complete, exact and idempotent**: complete while others only add, and exact and
idempotent where the broker is quiet. -/
theorem aclsAdd_complete (mutation : AclMutationArgs) (bindings : List AclBinding)
    (hbindings : aclsAdd mutation = .ok bindings) (broker : Broker) :
    bindings.Nodup ∧
    (∀ output after, (executeAclsAdd mutation).run broker = .ok output after →
      output.result = .ok () → broker.OnlyAdded →
        bindings ⊆ after.acls ∧ broker.acls ⊆ after.acls) ∧
    (broker.Quiet → ∃ after,
      (executeAclsAdd mutation).run broker =
        .ok ⟨aclAddStatus (bindings.countP (· ∉ broker.acls)) (bindings.countP (· ∈ broker.acls)),
          [], .ok ()⟩ after ∧
      (∀ binding, binding ∈ after.acls ↔ binding ∈ bindings ∨ binding ∈ broker.acls) ∧
      ∃ again, (executeAclsAdd mutation).run after =
          .ok ⟨aclAddStatus 0 bindings.length, [], .ok ()⟩ again ∧
        again.creations = after.creations) := by
  refine ⟨nodup_aclsAdd hbindings, fun output after hrun hok honly =>
    executeAclsAdd_ok hbindings hrun hok honly, fun hquiet => ?_⟩
  obtain ⟨after, hrun, hquiet', hacls, -⟩ := executeAclsAdd_of_quiet hbindings hquiet
  have hthere : ∀ binding, binding ∈ after.acls ↔ binding ∈ bindings ∨ binding ∈ broker.acls := by
    intro binding
    rw [hacls, List.mem_append, List.mem_filter, decide_eq_true_eq]
    by_cases hold : binding ∈ broker.acls
    · simp [hold]
    · simp [hold]
  refine ⟨after, hrun, hthere, ?_⟩
  have hsubset : bindings ⊆ after.acls := fun binding hmem => (hthere binding).2 (.inl hmem)
  obtain ⟨again, hagain, -, -, hsame⟩ := executeAclsAdd_of_quiet hbindings hquiet'
  have hnone : bindings.countP (· ∉ after.acls) = 0 :=
    List.countP_eq_zero.2 fun binding hmem => by simpa using hsubset hmem
  have hevery : bindings.countP (· ∈ after.acls) = bindings.length :=
    List.countP_eq_length.2 fun binding hmem => decide_eq_true (hsubset hmem)
  rw [hnone, hevery] at hagain
  exact ⟨again, hagain, hsame hsubset⟩

/-- Two principals may read. -/
def sampleAddition : AclMutationArgs where
  filter := { topic := ["t"] }
  operation := ["read"]
  allowPrincipal := ["User:a", "User:b"]

/-- One of them may read already. -/
def sampleBroker : Broker where
  acls := [⟨.topic, "t", .literal, "User:b", "*", .read, .allow⟩]
  turns := []
  creations := []

theorem aclsAdd_complete_sample :
    ∃ after, (executeAclsAdd sampleAddition).run sampleBroker =
        .ok ⟨aclAddStatus 1 1, [], .ok ()⟩ after ∧
      ∃ again, (executeAclsAdd sampleAddition).run after =
          .ok ⟨aclAddStatus 0 2, [], .ok ()⟩ again ∧
        again.creations = after.creations := by
  obtain ⟨-, -, hexact⟩ := aclsAdd_complete sampleAddition
    [⟨.topic, "t", .literal, "User:a", "*", .read, .allow⟩,
      ⟨.topic, "t", .literal, "User:b", "*", .read, .allow⟩] (by decide +kernel) sampleBroker
  obtain ⟨after, hrun, -, hagain⟩ := hexact fun _ hmem => absurd hmem List.not_mem_nil
  exact ⟨after, hrun, hagain⟩

end KafkaCli.Acl
