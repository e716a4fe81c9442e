import KafkaCli.Acl.Mutation

/-!
# Removing what was added

`acls remove` is given the arguments of an earlier `acls add` and should delete the bindings
that were created, and, where principals are allowed or denied by name, no others.

Both commands expand the arguments over the same resources (`removalResources_of_add`) and, for
allowed and denied principals, over the same hosts. For the principals of `--principal` they
differ: the bindings are created for the hosts of `--allow-host`, and removed for the default
host only. `remove_undoes_add_iff` says that this is the only difference.
-/

namespace KafkaCli.Acl

open Checked Text

/-! ## Values -/

/-- The values as they are read: without white space around them, sorted, each once. -/
def normalized (values : List String) : Std.TreeSet String := .ofList (values.map trim)

@[simp] theorem normalizedAclValues_eq_ok {values : List String} {label : String}
    {set : Std.TreeSet String} :
    normalizedAclValues values label = .ok set ↔
      (∀ value ∈ values, trim value ≠ "") ∧ set = normalized values := by
  simp only [normalizedAclValues, bind_eq_ok, mapM_check, pure_eq_ok]
  refine ⟨?_, ?_⟩
  · intro h
    obtain ⟨trimmed, ⟨hvalues, htrimmed⟩, hset⟩ := h
    exact ⟨hvalues, by rw [← hset, htrimmed, normalized]⟩
  · intro h
    obtain ⟨hvalues, hset⟩ := h
    exact ⟨_, ⟨hvalues, rfl⟩, hset.symm⟩

@[simp] theorem mem_normalized {values : List String} {x : String} :
    x ∈ normalized values ↔ ∃ value ∈ values, trim value = x := by
  rw [normalized, Std.TreeSet.mem_ofList, List.contains_iff_mem, List.mem_map]

theorem mem_toList_normalized {values : List String} {x : String} :
    x ∈ (normalized values).toList ↔ ∃ value ∈ values, trim value = x := by
  rw [Std.TreeSet.mem_toList, mem_normalized]

@[simp] theorem toList_normalized_eq_nil {values : List String} :
    (normalized values).toList = [] ↔ values = [] := by
  simp only [List.eq_nil_iff_forall_not_mem, mem_toList_normalized]
  refine ⟨?_, ?_⟩
  · intro h value hvalue
    exact h (trim value) ⟨value, hvalue, rfl⟩
  · intro h x ⟨value, hvalue, _⟩
    exact h value hvalue

@[simp] theorem isEmpty_normalized {values : List String} :
    (normalized values).isEmpty = true ↔ values = [] := by
  rw [← toList_normalized_eq_nil, ← List.isEmpty_iff, Std.TreeSet.isEmpty_toList]

theorem aclOperation_ne_any {value : String} {operation : AclOperation}
    (h : aclOperation value = .ok operation) : operation ≠ .any := by
  have hwords : ∀ word ∈ aclOperationWords, word.2 ≠ .any := by decide
  unfold aclOperation at h
  cases hlookup : aclOperationWords.lookup (toAsciiLowercase (trim value)) with
  | none =>
    simp only [hlookup] at h
    split_ifs at h
  | some found =>
    simp only [hlookup, Except.ok.injEq] at h
    obtain ⟨before, after, hwords', -⟩ := List.lookup_eq_some_iff.1 hlookup
    exact h ▸ hwords _ (hwords' ▸ List.mem_append_right _ List.mem_cons_self)

/-- The operations that are read are the ones collected so far and no `any`; they are some if
there is anything to read. -/
theorem aclOperationsFrom_ok {values : List String} {operations out : List AclOperation}
    (h : aclOperationsFrom operations values = .ok out) :
    operations ⊆ out ∧ (∀ operation ∈ out, operation ∈ operations ∨ operation ≠ .any) ∧
      (values ≠ [] → out ≠ []) := by
  induction values generalizing operations with
  | nil =>
    simp only [aclOperationsFrom, Except.ok.injEq] at h
    subst h
    exact ⟨List.Subset.refl _, fun _ h => .inl h, fun h => absurd rfl h⟩
  | cons value values ih =>
    simp only [aclOperationsFrom, bind_eq_ok] at h
    obtain ⟨operation, hoperation, hrest⟩ := h
    by_cases hmem : operation ∈ operations
    · rw [if_pos hmem] at hrest
      obtain ⟨hsub, hany, -⟩ := ih hrest
      exact ⟨hsub, hany, fun _ => List.ne_nil_of_mem (hsub hmem)⟩
    · rw [if_neg hmem] at hrest
      obtain ⟨hsub, hany, -⟩ := ih hrest
      refine ⟨fun x hx => hsub (List.mem_append_left _ hx), fun x hx => ?_, fun _ => ?_⟩
      · rcases hany x hx with hx | hx
        · rcases List.mem_append.1 hx with hx | hx
          · exact .inl hx
          · rw [List.mem_singleton] at hx
            exact .inr (hx ▸ aclOperation_ne_any hoperation)
        · exact .inr hx
      · exact List.ne_nil_of_mem (hsub (List.mem_append_right _ (List.mem_singleton_self _)))

theorem aclOperations_ne_any {values : List String} {operations : List AclOperation}
    (h : aclOperations values = .ok operations) : .any ∉ operations := by
  intro hany
  rcases (aclOperationsFrom_ok h).2.1 _ hany with hmem | hne
  · exact List.not_mem_nil hmem
  · exact hne rfl

theorem aclOperations_ne_nil {values : List String} {operations : List AclOperation}
    (h : aclOperations values = .ok operations) (hvalues : values ≠ []) : operations ≠ [] :=
  (aclOperationsFrom_ok h).2.2 hvalues

/-! ## Resources -/

/-- What every resource of a mutation is: a named one, with operations to ask for. -/
structure Selected (resource : AclResource) : Prop where
  type_ne : resource.1 ≠ .any
  name_ne : resource.2.1 ≠ ""
  operations_ne : resource.2.2 ≠ []
  any_not_mem : .any ∉ resource.2.2

theorem validateAclResourceOperations_eq_ok {resources : List AclResource} {u : Unit} :
    validateAclResourceOperations resources = .ok u ↔
      ∀ resource ∈ resources, ∀ operation ∈ resource.2.2,
        aclOperationSupported resource.1 operation = true := by
  induction resources with
  | nil => simp [validateAclResourceOperations]
  | cons resource resources ih =>
    simp only [validateAclResourceOperations, List.forall_mem_cons]
    cases hfind : resource.2.2.find? fun operation =>
        !aclOperationSupported resource.1 operation with
    | none =>
      rw [List.find?_eq_none] at hfind
      simp only [ih]
      refine ⟨fun h => ⟨fun operation hmem => by simpa using hfind operation hmem, h⟩,
        fun h => h.2⟩
    | some operation =>
      have hmem := List.mem_of_find?_eq_some hfind
      have hbad := List.find?_some hfind
      simp only [reduceCtorEq, false_iff, not_and]
      intro h
      simp [h operation hmem] at hbad

theorem name_ne_of_mem_normalized {values : List String} {x : String}
    (hvalues : ∀ value ∈ values, trim value ≠ "") (hx : x ∈ (normalized values).toList) :
    x ≠ "" := by
  obtain ⟨value, hvalue, rfl⟩ := mem_toList_normalized.1 hx
  exact hvalues value hvalue

theorem aclResources_named {filter : AclFilterArgs} {resources : List (AclResourceType × String)}
    (h : aclResources filter = .ok resources) :
    ∀ resource ∈ resources, resource.1 ≠ .any ∧ resource.2 ≠ "" := by
  simp only [aclResources, bind_eq_ok, normalizedAclValues_eq_ok, failIf_eq_ok, pure_eq_ok] at h
  obtain ⟨_, ⟨htopics, rfl⟩, _, ⟨hgroups, rfl⟩, _, ⟨hids, rfl⟩, _, _, rfl⟩ := h
  intro resource hmem
  simp only [List.mem_append, List.mem_map] at hmem
  rcases hmem with ((⟨x, hx, rfl⟩ | ⟨x, hx, rfl⟩) | hcluster) | ⟨x, hx, rfl⟩
  · exact ⟨by simp, name_ne_of_mem_normalized htopics hx⟩
  · exact ⟨by simp, name_ne_of_mem_normalized hgroups hx⟩
  · split_ifs at hcluster
    · rw [List.mem_singleton] at hcluster
      exact hcluster ▸ ⟨by decide, by decide⟩
    · exact absurd hcluster List.not_mem_nil
  · exact ⟨by simp, name_ne_of_mem_normalized hids hx⟩

theorem roleTopicOperations_spec {producer consumer : Bool} (h : producer || consumer) :
    roleTopicOperations producer consumer ≠ [] ∧ .any ∉ roleTopicOperations producer consumer := by
  revert h
  cases producer <;> cases consumer <;> decide

theorem roleGroups_named {mutation : AclMutationArgs} {groups : List String}
    (h : roleGroups mutation = .ok groups) : ∀ group ∈ groups, group ≠ "" := by
  unfold roleGroups at h
  split_ifs at h
  · simp only [bind_eq_ok, normalizedAclValues_eq_ok, pure_eq_ok] at h
    obtain ⟨_, ⟨hvalues, rfl⟩, _, _, rfl⟩ := h
    exact fun _ hx => name_ne_of_mem_normalized hvalues hx
  · rw [pure_eq_ok] at h
    simp [← h]

theorem roleTransactionalIds_named {mutation : AclMutationArgs} {ids : List String}
    (h : roleTransactionalIds mutation = .ok ids) : ∀ id ∈ ids, id ≠ "" := by
  unfold roleTransactionalIds at h
  split_ifs at h
  · simp only [bind_eq_ok, normalizedAclValues_eq_ok, pure_eq_ok] at h
    obtain ⟨_, ⟨hvalues, rfl⟩, rfl⟩ := h
    exact fun _ hx => name_ne_of_mem_normalized hvalues hx
  · rw [pure_eq_ok] at h
    simp [← h]

theorem roleResources_selected {mutation : AclMutationArgs} {resources : List AclResource}
    (hrole : mutation.producer || mutation.consumer)
    (h : roleResources mutation = .ok resources) : ∀ resource ∈ resources, Selected resource := by
  simp only [roleResources, bind_eq_ok, normalizedAclValues_eq_ok, pure_eq_ok] at h
  obtain ⟨_, _, _, _, _, ⟨htopics, rfl⟩, _, _, groups, hgroups, ids, hids, rfl⟩ := h
  obtain ⟨hne, hany⟩ := roleTopicOperations_spec hrole
  intro resource hmem
  simp only [List.mem_append, List.mem_map] at hmem
  rcases hmem with ((⟨x, hx, rfl⟩ | ⟨x, hx, rfl⟩) | ⟨x, hx, rfl⟩) | hcluster
  · exact ⟨by simp, name_ne_of_mem_normalized htopics hx, hne, hany⟩
  · exact ⟨by simp, roleGroups_named hgroups x hx, by simp, by simp⟩
  · exact ⟨by simp, roleTransactionalIds_named hids x hx, by simp, by simp⟩
  · split_ifs at hcluster
    · rw [List.mem_singleton] at hcluster
      exact hcluster ▸ ⟨by decide, by decide, by simp, by simp⟩
    · exact absurd hcluster List.not_mem_nil

/-- The operations that a removal asks for on a resource. -/
def orAll (operations : List AclOperation) : List AclOperation :=
  if operations = [] then [.all] else operations

/-- A resource with the operations that a removal asks for on it. -/
def AclResource.orAll (resource : AclResource) : AclResource :=
  (resource.1, resource.2.1, Acl.orAll resource.2.2)

theorem Selected.orAll_eq {resource : AclResource} (h : Selected resource) :
    resource.orAll = resource := by
  simp [AclResource.orAll, Acl.orAll, h.operations_ne]

theorem map_orAll_of_selected {resources : List AclResource}
    (h : ∀ resource ∈ resources, Selected resource) :
    resources.map AclResource.orAll = resources :=
  (List.map_congr_left fun resource hmem => (h resource hmem).orAll_eq).trans (List.map_id' _)

theorem map_orAll_withOperations (operations : List AclOperation)
    (resources : List (AclResourceType × String)) :
    (withOperations operations resources).map AclResource.orAll =
      withOperations (orAll operations) resources := by
  simp only [withOperations, List.map_map]
  rfl

theorem validateAclResourceOperations_of_orAll {resources : List AclResource}
    (h : validateAclResourceOperations (resources.map AclResource.orAll) = .ok ()) :
    validateAclResourceOperations resources = .ok () := by
  rw [validateAclResourceOperations_eq_ok] at h ⊢
  intro resource hresource operation hoperation
  apply h resource.orAll (List.mem_map_of_mem hresource) operation
  simpa [AclResource.orAll, orAll, List.ne_nil_of_mem hoperation] using hoperation

/-- The operations of an addition are those a removal of the same arguments asks for. -/
theorem addOperations_eq_orAll {mutation : AclMutationArgs} {operations : List AclOperation}
    (h : addOperations mutation = .ok operations) :
    ∃ removed, aclOperations mutation.operation = .ok removed ∧ .any ∉ operations ∧
      ((!mutation.producer && !mutation.consumer) →
        operations = orAll removed ∧ operations ≠ []) := by
  unfold addOperations at h
  split_ifs at h with hnone
  · cases h
    exact ⟨[], by rw [hnone.1]; rfl, by simp, fun _ => ⟨rfl, by simp⟩⟩
  · refine ⟨operations, h, aclOperations_ne_any h, fun hrole => ?_⟩
    have hvalues : mutation.operation ≠ [] := by
      intro hnil
      simp only [Bool.and_eq_true] at hrole
      exact hnone ⟨hnil, hrole.1, hrole.2⟩
    have hne := aclOperations_ne_nil h hvalues
    exact ⟨by simp [orAll, hne], hne⟩

/-- The removal finds the resources of the addition. -/
theorem removalResources_of_add {mutation : AclMutationArgs}
    {operations removed : List AclOperation} {resources : List AclResource}
    (hany : .any ∉ operations)
    (hops : (!mutation.producer && !mutation.consumer) →
      operations = orAll removed ∧ operations ≠ [])
    (h : aclMutationResources mutation operations = .ok resources) :
    (∀ resource ∈ resources, Selected resource) ∧ resources ≠ [] ∧
      ∃ found, removalResources mutation removed = .ok found ∧
        found.map AclResource.orAll = resources := by
  unfold aclMutationResources at h
  split_ifs at h with hrole
  · obtain ⟨hremoved, hne⟩ := hops hrole
    simp only [bind_eq_ok, failIf_eq_ok, pure_eq_ok] at h
    obtain ⟨names, hnames, _, hsome, rfl⟩ := h
    have hnot : ¬ (mutation.producer || mutation.consumer) := by
      simpa [Bool.or_eq_true, Bool.and_eq_true] using hrole
    refine ⟨fun resource hmem => ?_, by simpa [withOperations] using hsome,
      withOperations removed names, ?_, ?_⟩
    · obtain ⟨name, hname, rfl⟩ := List.mem_map.1 hmem
      obtain ⟨htype, hnonempty⟩ := aclResources_named hnames name hname
      exact ⟨htype, hnonempty, hne, hany⟩
    · simp [removalResources, hnot, hnames, hsome]
    · rw [map_orAll_withOperations, hremoved]
  · have hsome : mutation.producer || mutation.consumer := by
      cases hproducer : mutation.producer <;> simp_all
    have hselected := roleResources_selected hsome h
    refine ⟨hselected, ?_, resources, ?_, map_orAll_of_selected hselected⟩
    · simp only [roleResources, bind_eq_ok, normalizedAclValues_eq_ok, failIf_eq_ok,
        pure_eq_ok] at h
      obtain ⟨_, _, _, _, _, ⟨_, rfl⟩, _, htopics, _, _, _, _, rfl⟩ := h
      simpa using fun hnil => absurd hnil (by simpa using htopics)
    · simp only [removalResources, hsome, if_true, aclMutationResources, hrole, h]
      rfl

/-! ## Principals and hosts -/

/-- The hosts of the entries with a permission. -/
def AclMutationArgs.hostsOf (mutation : AclMutationArgs) (permission : AclPermissionType) :
    List String :=
  mutation.hosts
    (normalized (if permission = .allow then mutation.allowHost else mutation.denyHost))

theorem mem_hosts {mutation : AclMutationArgs} {configured : List String} {host : String} :
    host ∈ mutation.hosts (normalized configured) ↔
      (configured = [] ∧ host = mutation.defaultHost) ∨
        ∃ value ∈ configured, trim value = host := by
  unfold AclMutationArgs.hosts
  by_cases hnil : configured = []
  · simp [hnil]
  · simp [hnil]

theorem trim_defaultHost (mutation : AclMutationArgs) :
    trim mutation.defaultHost = mutation.defaultHost := by
  unfold AclMutationArgs.defaultHost
  cases mutation.host with
  | none => decide
  | some host => exact trim_trim host

theorem trim_of_mem_hostsOf {mutation : AclMutationArgs} {permission : AclPermissionType}
    {host : String} (h : host ∈ mutation.hostsOf permission) : trim host = host := by
  rcases mem_hosts.1 h with ⟨-, rfl⟩ | ⟨value, -, rfl⟩
  · exact trim_defaultHost mutation
  · exact trim_trim value

/-- The mutation allows or denies principals by name. -/
def AclMutationArgs.Given (mutation : AclMutationArgs) : Prop :=
  mutation.allowPrincipal ≠ [] ∨ mutation.denyPrincipal ≠ []

/-- The principals that are allowed and denied by name. -/
def givenPrincipals (mutation : AclMutationArgs) : List (String × AclPermissionType) :=
  (normalized mutation.allowPrincipal).toList.map (·, .allow) ++
    (normalized mutation.denyPrincipal).toList.map (·, .deny)

theorem givenPrincipals_eq_nil {mutation : AclMutationArgs} :
    givenPrincipals mutation = [] ↔ ¬ mutation.Given := by
  simp [givenPrincipals, AclMutationArgs.Given]

/-- The entries of some principals: each with every host of its permission. -/
def entriesOf (mutation : AclMutationArgs) (principals : List (String × AclPermissionType)) :
    List AclEntry :=
  principals.flatMap fun (principal, permission) =>
    (mutation.hostsOf permission).map fun host => (principal, host, permission)

theorem permission_ne_any_of_given {mutation : AclMutationArgs} {entry : AclEntry}
    (h : entry ∈ entriesOf mutation (givenPrincipals mutation)) : entry.2.2 ≠ .any := by
  simp only [entriesOf, givenPrincipals, List.mem_flatMap, List.mem_append, List.mem_map] at h
  obtain ⟨_, ⟨_, _, rfl⟩ | ⟨_, _, rfl⟩, _, _, rfl⟩ := h <;> simp

theorem bindingPrincipals_ok {mutation : AclMutationArgs}
    {principals : List (String × AclPermissionType)}
    (h : bindingPrincipals mutation = .ok principals) :
    (mutation.Given ∧ principals = givenPrincipals mutation) ∨
      (¬ mutation.Given ∧ (∀ value ∈ mutation.filter.principal, trim value ≠ "") ∧
        principals = (normalized mutation.filter.principal).toList.map (·, .allow)) := by
  simp only [bindingPrincipals, bind_eq_ok, normalizedAclValues_eq_ok] at h
  obtain ⟨_, ⟨_, rfl⟩, _, ⟨_, rfl⟩, h⟩ := h
  change (if givenPrincipals mutation = [] then _ else _) = _ at h
  split_ifs at h with hgiven
  · simp only [bind_eq_ok, normalizedAclValues_eq_ok, pure_eq_ok] at h
    obtain ⟨_, ⟨hvalues, rfl⟩, rfl⟩ := h
    exact .inr ⟨givenPrincipals_eq_nil.1 hgiven, hvalues, rfl⟩
  · rw [pure_eq_ok] at h
    exact .inl ⟨not_not.1 (givenPrincipals_eq_nil.not.1 hgiven), h.symm⟩

theorem hosts_ne_nil (mutation : AclMutationArgs) (configured : Std.TreeSet String) :
    mutation.hosts configured ≠ [] := by
  unfold AclMutationArgs.hosts
  split_ifs with hempty
  · simp
  · rw [Ne, ← List.isEmpty_iff, Std.TreeSet.isEmpty_toList]
    exact hempty

theorem entriesOf_eq_nil {mutation : AclMutationArgs}
    {principals : List (String × AclPermissionType)} :
    entriesOf mutation principals = [] ↔ principals = [] := by
  rw [entriesOf, List.flatMap_eq_nil_iff, List.eq_nil_iff_forall_not_mem]
  simp only [List.map_eq_nil_iff, AclMutationArgs.hostsOf, hosts_ne_nil, imp_false]

/-- The values that a mutation gives are not blank. -/
def AclMutationArgs.NonBlank (mutation : AclMutationArgs) : Prop :=
  (∀ value ∈ mutation.allowPrincipal, trim value ≠ "") ∧
  (∀ value ∈ mutation.denyPrincipal, trim value ≠ "") ∧
  (∀ value ∈ mutation.allowHost, trim value ≠ "") ∧
  (∀ value ∈ mutation.denyHost, trim value ≠ "")

theorem nonBlank_of_validate {mutation : AclMutationArgs}
    (h : validateAclEntryValues mutation = .ok ()) : mutation.NonBlank := by
  simp only [validateAclEntryValues, bind_eq_ok, normalizedAclValues_eq_ok] at h
  obtain ⟨_, ⟨hallow, _⟩, _, ⟨hdeny, _⟩, _, ⟨hallowHost, _⟩, _, ⟨hdenyHost, _⟩, _⟩ := h
  exact ⟨hallow, hdeny, hallowHost, hdenyHost⟩

theorem aclRemovalEntries_ok {mutation : AclMutationArgs} (h : mutation.NonBlank) :
    aclRemovalEntries mutation = .ok (entriesOf mutation (givenPrincipals mutation)) := by
  obtain ⟨hallow, hdeny, hallowHost, hdenyHost⟩ := h
  simp only [aclRemovalEntries, bind_eq_ok, normalizedAclValues_eq_ok, pure_eq_ok]
  refine ⟨_, ⟨hallow, rfl⟩, _, ⟨hdeny, rfl⟩, _, ⟨hallowHost, rfl⟩, _, ⟨hdenyHost, rfl⟩, ?_⟩
  simp [entriesOf, givenPrincipals, List.flatMap_append, List.flatMap_map,
    AclMutationArgs.hostsOf]

/-- The entries that a removal has for the principals of `--principal`. -/
def namedEntries (mutation : AclMutationArgs) : List AclEntry :=
  (normalized mutation.filter.principal).toList.map fun principal =>
    (principal, mutation.defaultHost, .any)

theorem removalFilterEntries_of_given {mutation : AclMutationArgs} (h : mutation.NonBlank)
    (hgiven : mutation.Given) :
    removalFilterEntries mutation = .ok (entriesOf mutation (givenPrincipals mutation)) := by
  have hne : entriesOf mutation (givenPrincipals mutation) ≠ [] := fun hnil =>
    givenPrincipals_eq_nil.1 (entriesOf_eq_nil.1 hnil) hgiven
  rw [removalFilterEntries, aclRemovalEntries_ok h, ok_bind, if_neg hne]
  rfl

theorem removalFilterEntries_of_named {mutation : AclMutationArgs} (h : mutation.NonBlank)
    (hgiven : ¬ mutation.Given) (hvalues : ∀ value ∈ mutation.filter.principal, trim value ≠ "") :
    removalFilterEntries mutation = .ok (namedEntries mutation) := by
  have hnil : entriesOf mutation (givenPrincipals mutation) = [] :=
    entriesOf_eq_nil.2 (givenPrincipals_eq_nil.2 hgiven)
  rw [removalFilterEntries, aclRemovalEntries_ok h, ok_bind, if_pos hnil,
    normalizedAclValues_eq_ok.2 ⟨hvalues, rfl⟩]
  rfl

/-! ## Bindings and filters -/

/-- The binding for an operation on a resource. -/
def bindingOf (mutation : AclMutationArgs) (resource : AclResource) (entry : AclEntry)
    (operation : AclOperation) : AclBinding where
  resourceType := resource.1
  resourceName := resource.2.1
  patternType := aclWirePattern mutation.filter.resourcePatternType
  principal := entry.1
  host := entry.2.1
  operation := operation
  permissionType := entry.2.2

/-- The filter for an operation on a resource. -/
def filterOf (mutation : AclMutationArgs) (resource : AclResource) (entry : AclEntry)
    (operation : AclOperation) : AclBindingFilter where
  resourceType := resource.1
  resourceName := if resource.2.1 = "" then none else some resource.2.1
  patternType := aclWirePattern mutation.filter.resourcePatternType
  principal := some entry.1
  host := some entry.2.1
  operation := operation
  permissionType := entry.2.2

/-- A filter on a named resource matches its own bindings, and those with another permission
where it asks for any. -/
theorem matches_filterOf {mutation : AclMutationArgs} {resource : AclResource} {entry : AclEntry}
    {operation : AclOperation} {binding : AclBinding} (hresource : Selected resource)
    (hpattern : aclWirePattern mutation.filter.resourcePatternType ≠ .any)
    (hoperation : operation ∈ resource.2.2) :
    (filterOf mutation resource entry operation).Matches binding ↔
      ∃ permission, (entry.2.2 = .any ∨ entry.2.2 = permission) ∧
        binding = bindingOf mutation resource (entry.1, entry.2.1, permission) operation := by
  have hany : operation ≠ .any := fun h => hresource.any_not_mem (h ▸ hoperation)
  obtain ⟨resourceType, name, pattern, principal, host, op, permission⟩ := binding
  simp [AclBindingFilter.Matches, filterOf, bindingOf, hresource.type_ne, hresource.name_ne,
    hpattern, hany]
  grind

/-- What a successful `acls add` says about its arguments and about its bindings. -/
theorem aclsAdd_ok {mutation : AclMutationArgs} {bindings : List AclBinding}
    (h : aclsAdd mutation = .ok bindings) :
    ∃ operations resources principals,
      addOperations mutation = .ok operations ∧
      aclWirePattern mutation.filter.resourcePatternType ≠ .any ∧
      validateAclEntryValues mutation = .ok () ∧
      aclMutationResources mutation operations = .ok resources ∧
      validateAclResourceOperations resources = .ok () ∧
      bindingPrincipals mutation = .ok principals ∧ principals ≠ [] ∧
      ∀ binding, binding ∈ bindings ↔ ∃ resource ∈ resources,
        ∃ entry ∈ entriesOf mutation principals, ∃ operation ∈ resource.2.2,
          binding = bindingOf mutation resource entry operation := by
  simp only [aclsAdd, aclBindings, bind_eq_ok, failIf_eq_ok, normalizedAclValues_eq_ok,
    pure_eq_ok] at h
  obtain ⟨operations, hops, _, hpattern, _, hvalues, resources, hresources, _, hsupported,
    principals, hprincipals, _, hne, _, ⟨_, rfl⟩, _, ⟨_, rfl⟩, rfl⟩ := h
  refine ⟨operations, resources, principals, hops, ?_, hvalues, hresources, hsupported,
    hprincipals, hne, fun binding => ?_⟩
  · revert hpattern
    cases mutation.filter.resourcePatternType <;> simp [aclWirePattern]
  · simp only [List.mem_flatMap, List.mem_map, entriesOf]
    refine ⟨?_, ?_⟩
    · intro h
      obtain ⟨resource, hresource, ⟨principal, permission⟩, hprincipal, host, hhost, operation,
        hoperation, hbinding⟩ := h
      rw [← apply_ite normalized] at hhost
      refine ⟨resource, hresource, (principal, host, permission),
        ⟨_, hprincipal, host, hhost, rfl⟩, operation, hoperation, ?_⟩
      rw [← hbinding, trim_of_mem_hostsOf hhost, bindingOf]
    · intro h
      obtain ⟨resource, hresource, _, ⟨⟨principal, permission⟩, hprincipal, host, hhost, rfl⟩,
        operation, hoperation, hbinding⟩ := h
      refine ⟨resource, hresource, _, hprincipal, host, ?_, operation, hoperation, ?_⟩
      · rw [← apply_ite normalized]
        exact hhost
      · rw [hbinding, trim_of_mem_hostsOf hhost, bindingOf]

/-- What `acls remove` answers, given what it reads from its arguments. -/
theorem aclsRemove_eq {mutation : AclMutationArgs} {operations : List AclOperation}
    {found : List AclResource} {entries : List AclEntry}
    (hops : aclOperations mutation.operation = .ok operations)
    (hvalues : validateAclEntryValues mutation = .ok ())
    (hfound : removalResources mutation operations = .ok found)
    (hentries : removalFilterEntries mutation = .ok entries) (hne : entries ≠ [])
    (hsupported : validateAclResourceOperations found = .ok ()) :
    ∃ filters, aclsRemove mutation = .ok filters ∧
      ∀ filter, filter ∈ filters ↔ ∃ resource ∈ found.map AclResource.orAll,
        ∃ entry ∈ entries, ∃ operation ∈ resource.2.2,
          filter = filterOf mutation resource entry operation := by
  rw [aclsRemove, hops, ok_bind, aclRemovalFilters, hvalues, ok_bind, hfound, ok_bind, hentries,
    ok_bind, if_pos hne, hsupported, ok_bind]
  refine ⟨_, rfl, fun filter => ?_⟩
  simp only [if_neg hne, List.mem_flatMap, List.mem_map]
  refine ⟨?_, ?_⟩
  · intro ⟨resource, hresource, entry, hentry, operation, hoperation, hfilter⟩
    exact ⟨_, ⟨resource, hresource, rfl⟩, entry, hentry, operation, hoperation, hfilter.symm⟩
  · intro ⟨_, ⟨resource, hresource, rfl⟩, entry, hentry, operation, hoperation, hfilter⟩
    exact ⟨resource, hresource, entry, hentry, operation, hoperation, hfilter.symm⟩

/-! ## The round trip -/

/-- What `acls remove` should do to the bindings of `acls add` with the same arguments: each of
them is matched, and nothing else where principals are allowed or denied by name. -/
def Undoes (mutation : AclMutationArgs) (bindings : List AclBinding) : Prop :=
  ∃ filters, aclsRemove mutation = .ok filters ∧
    (∀ binding ∈ bindings, ∃ filter ∈ filters, filter.Matches binding) ∧
    (mutation.Given → ∀ filter ∈ filters, ∀ binding, filter.Matches binding → binding ∈ bindings)

/-- The principals of `--principal`, as new bindings allow them. -/
def namedPrincipals (mutation : AclMutationArgs) : List (String × AclPermissionType) :=
  (normalized mutation.filter.principal).toList.map (·, .allow)

theorem mem_entriesOf_named {mutation : AclMutationArgs} {principal host : String}
    {permission : AclPermissionType} :
    (principal, host, permission) ∈ entriesOf mutation (namedPrincipals mutation) ↔
      principal ∈ normalized mutation.filter.principal ∧ host ∈ mutation.hostsOf .allow ∧
        permission = .allow := by
  simp only [entriesOf, namedPrincipals, List.mem_flatMap, List.mem_map, Std.TreeSet.mem_toList,
    Prod.mk.injEq]
  refine ⟨?_, ?_⟩
  · intro h
    obtain ⟨_, ⟨_, hprincipal, rfl⟩, _, hhost, rfl, rfl, rfl⟩ := h
    exact ⟨hprincipal, hhost, rfl⟩
  · intro ⟨hprincipal, hhost, hpermission⟩
    exact ⟨_, ⟨principal, hprincipal, rfl⟩, host, hhost, rfl, rfl, hpermission.symm⟩

theorem mem_namedEntries {mutation : AclMutationArgs} {principal host : String}
    {permission : AclPermissionType} :
    (principal, host, permission) ∈ namedEntries mutation ↔
      principal ∈ normalized mutation.filter.principal ∧ host = mutation.defaultHost ∧
        permission = .any := by
  simp only [namedEntries, List.mem_map, Std.TreeSet.mem_toList, Prod.mk.injEq]
  refine ⟨?_, ?_⟩
  · intro h
    obtain ⟨_, hprincipal, rfl, rfl, rfl⟩ := h
    exact ⟨hprincipal, rfl, rfl⟩
  · intro ⟨hprincipal, hhost, hpermission⟩
    exact ⟨principal, hprincipal, rfl, hhost.symm, hpermission.symm⟩

/-- The bindings of `acls add` and the filters of `acls remove` for the same arguments: both run
over the same resources, with entries of their own. -/
structure Expansion (mutation : AclMutationArgs) (bindings : List AclBinding)
    (filters : List AclBindingFilter) (resources : List AclResource)
    (added removed : List AclEntry) : Prop where
  pattern_ne : aclWirePattern mutation.filter.resourcePatternType ≠ .any
  selected : ∀ resource ∈ resources, Selected resource
  resources_ne : resources ≠ []
  mem_bindings : ∀ binding, binding ∈ bindings ↔ ∃ resource ∈ resources,
    ∃ entry ∈ added, ∃ operation ∈ resource.2.2,
      binding = bindingOf mutation resource entry operation
  mem_filters : ∀ filter, filter ∈ filters ↔ ∃ resource ∈ resources,
    ∃ entry ∈ removed, ∃ operation ∈ resource.2.2,
      filter = filterOf mutation resource entry operation

theorem expansion_of_add {mutation : AclMutationArgs} {bindings : List AclBinding}
    (hadd : aclsAdd mutation = .ok bindings) :
    ∃ filters resources added removed, aclsRemove mutation = .ok filters ∧
      Expansion mutation bindings filters resources added removed ∧
      ((mutation.Given ∧ added = entriesOf mutation (givenPrincipals mutation) ∧
          removed = added) ∨
        (¬ mutation.Given ∧ namedPrincipals mutation ≠ [] ∧
          added = entriesOf mutation (namedPrincipals mutation) ∧
          removed = namedEntries mutation)) := by
  obtain ⟨operations, resources, principals, hops, hpattern, hvalues, hresources, hsupported,
    hprincipals, hne, hbindings⟩ := aclsAdd_ok hadd
  obtain ⟨removed, hremoved, hany, horAll⟩ := addOperations_eq_orAll hops
  obtain ⟨hselected, hsome, found, hfound, rfl⟩ :=
    removalResources_of_add hany horAll hresources
  have hfoundOk := validateAclResourceOperations_of_orAll hsupported
  have hnonBlank := nonBlank_of_validate hvalues
  rcases bindingPrincipals_ok hprincipals with ⟨hgiven, rfl⟩ | ⟨hgiven, hnamed, rfl⟩
  · obtain ⟨filters, hremove, hfilters⟩ := aclsRemove_eq hremoved hvalues hfound
      (removalFilterEntries_of_given hnonBlank hgiven) (entriesOf_eq_nil.not.2 hne) hfoundOk
    exact ⟨filters, _, _, _, hremove, ⟨hpattern, hselected, hsome, hbindings, hfilters⟩,
      .inl ⟨hgiven, rfl, rfl⟩⟩
  · have hnamedNe : namedEntries mutation ≠ [] := by simpa [namedEntries] using hne
    obtain ⟨filters, hremove, hfilters⟩ := aclsRemove_eq hremoved hvalues hfound
      (removalFilterEntries_of_named hnonBlank hgiven hnamed) hnamedNe hfoundOk
    exact ⟨filters, _, _, _, hremove, ⟨hpattern, hselected, hsome, hbindings, hfilters⟩,
      .inr ⟨hgiven, hne, rfl, rfl⟩⟩

section

variable {mutation : AclMutationArgs} {bindings : List AclBinding}
  {filters : List AclBindingFilter} {resources : List AclResource} {added removed : List AclEntry}

/-- A binding is matched exactly when the removal has its principal and host, with its
permission or with any. -/
theorem Expansion.matched_iff (h : Expansion mutation bindings filters resources added removed)
    {resource : AclResource} {entry : AclEntry} {operation : AclOperation}
    (hresource : resource ∈ resources) (hoperation : operation ∈ resource.2.2) :
    (∃ filter ∈ filters, filter.Matches (bindingOf mutation resource entry operation)) ↔
      ∃ permission, (permission = .any ∨ permission = entry.2.2) ∧
        (entry.1, entry.2.1, permission) ∈ removed := by
  refine ⟨?_, ?_⟩
  · intro ⟨filter, hfilter, hmatches⟩
    obtain ⟨resource', hresource', entry', hentry', operation', hoperation', rfl⟩ :=
      (h.mem_filters filter).1 hfilter
    obtain ⟨permission, hpermission, hbinding⟩ :=
      (matches_filterOf (h.selected resource' hresource') h.pattern_ne hoperation').1 hmatches
    simp only [bindingOf, AclBinding.mk.injEq] at hbinding
    obtain ⟨-, -, -, hprincipal, hhost, -, hpermission'⟩ := hbinding
    refine ⟨entry'.2.2, ?_, ?_⟩
    · rw [hpermission']
      exact hpermission
    · rw [hprincipal, hhost]
      exact hentry'
  · intro ⟨permission, hpermission, hentry⟩
    refine ⟨_, (h.mem_filters _).2 ⟨resource, hresource, _, hentry, operation, hoperation, rfl⟩, ?_⟩
    exact (matches_filterOf (h.selected resource hresource) h.pattern_ne hoperation).2
      ⟨entry.2.2, hpermission, rfl⟩

/-- A removal over the entries of the addition matches the bindings of the addition, and no
other one. -/
theorem Expansion.matches_iff_of_same
    (h : Expansion mutation bindings filters resources added added)
    (hany : ∀ entry ∈ added, entry.2.2 ≠ .any) (binding : AclBinding) :
    (∃ filter ∈ filters, filter.Matches binding) ↔ binding ∈ bindings := by
  refine ⟨?_, ?_⟩
  · intro ⟨filter, hfilter, hmatches⟩
    obtain ⟨resource, hresource, entry, hentry, operation, hoperation, rfl⟩ :=
      (h.mem_filters filter).1 hfilter
    obtain ⟨permission, hpermission, rfl⟩ :=
      (matches_filterOf (h.selected resource hresource) h.pattern_ne hoperation).1 hmatches
    rcases hpermission with hcontra | rfl
    · exact absurd hcontra (hany entry hentry)
    · exact (h.mem_bindings _).2 ⟨resource, hresource, entry, hentry, operation, hoperation, rfl⟩
  · intro hbinding
    obtain ⟨resource, hresource, entry, hentry, operation, hoperation, rfl⟩ :=
      (h.mem_bindings binding).1 hbinding
    exact (h.matched_iff hresource hoperation).2 ⟨entry.2.2, .inr rfl, hentry⟩

/-- A removal over the default host matches the bindings of `--principal` exactly when they have
no other host. -/
theorem Expansion.covers_named_iff
    (h : Expansion mutation bindings filters resources
      (entriesOf mutation (namedPrincipals mutation)) (namedEntries mutation))
    (hne : namedPrincipals mutation ≠ []) :
    (∀ binding ∈ bindings, ∃ filter ∈ filters, filter.Matches binding) ↔
      ∀ host ∈ mutation.allowHost, trim host = mutation.defaultHost := by
  refine ⟨?_, ?_⟩
  · intro hcovers host hhost
    obtain ⟨resource, hresource⟩ := List.exists_mem_of_ne_nil _ h.resources_ne
    obtain ⟨operation, hoperation⟩ :=
      List.exists_mem_of_ne_nil _ (h.selected resource hresource).operations_ne
    obtain ⟨principal, hprincipal⟩ :
        ∃ principal, principal ∈ normalized mutation.filter.principal := by
      obtain ⟨_, hmem⟩ := List.exists_mem_of_ne_nil _ hne
      obtain ⟨principal, hprincipal, -⟩ := List.mem_map.1 hmem
      exact ⟨principal, Std.TreeSet.mem_toList.1 hprincipal⟩
    have hentry : (principal, trim host, .allow) ∈ entriesOf mutation (namedPrincipals mutation) :=
      mem_entriesOf_named.2 ⟨hprincipal, mem_hosts.2 (.inr ⟨host, hhost, rfl⟩), rfl⟩
    have hbinding := (h.mem_bindings _).2
      ⟨resource, hresource, _, hentry, operation, hoperation, rfl⟩
    obtain ⟨_, _, hremoved⟩ := (h.matched_iff hresource hoperation).1 (hcovers _ hbinding)
    exact (mem_namedEntries.1 hremoved).2.1
  · intro hhosts binding hbinding
    obtain ⟨resource, hresource, ⟨principal, host, permission⟩, hentry, operation, hoperation,
      rfl⟩ := (h.mem_bindings binding).1 hbinding
    obtain ⟨hprincipal, hhost, -⟩ := mem_entriesOf_named.1 hentry
    refine (h.matched_iff hresource hoperation).2
      ⟨.any, .inl rfl, mem_namedEntries.2 ⟨hprincipal, ?_, rfl⟩⟩
    rcases mem_hosts.1 hhost with ⟨-, hdefault⟩ | ⟨value, hvalue, htrim⟩
    · exact hdefault
    · exact htrim.symm.trans (hhosts value hvalue)

end

/-- **Removing what was added.** The removal undoes the addition exactly when a principal is
allowed or denied by name, or no host other than the default one is allowed. -/
theorem remove_undoes_add_iff {mutation : AclMutationArgs} {bindings : List AclBinding}
    (hadd : aclsAdd mutation = .ok bindings) :
    Undoes mutation bindings ↔
      mutation.allowPrincipal ≠ [] ∨ mutation.denyPrincipal ≠ [] ∨
        ∀ host ∈ mutation.allowHost, trim host = mutation.defaultHost := by
  obtain ⟨filters, resources, added, removed, hremove, hexpand, hentries⟩ := expansion_of_add hadd
  rw [← or_assoc]
  rcases hentries with ⟨hgiven, rfl, rfl⟩ | ⟨hgiven, hne, rfl, rfl⟩
  · have hmatches := hexpand.matches_iff_of_same fun _ => permission_ne_any_of_given
    refine ⟨fun _ => .inl hgiven, fun _ => ⟨filters, hremove, ?_, fun _ => ?_⟩⟩
    · exact fun binding hbinding => (hmatches binding).2 hbinding
    · exact fun filter hfilter binding h => (hmatches binding).1 ⟨filter, hfilter, h⟩
  · have hcovers := hexpand.covers_named_iff hne
    refine ⟨?_, ?_⟩
    · intro ⟨filters', hremove', hmatched, _⟩
      rw [hremove, Except.ok.injEq] at hremove'
      exact .inr (hcovers.1 (hremove' ▸ hmatched))
    · intro h
      rcases h with h | h
      · exact absurd h hgiven
      · exact ⟨filters, hremove, hcovers.2 h, fun h => absurd h hgiven⟩

/-- Allow a principal on a topic from one host, naming it by `--allow-principal`. -/
def allowFromHost : AclMutationArgs where
  filter := { topic := ["orders"] }
  operation := ["Read"]
  allowPrincipal := ["User:alice"]
  allowHost := ["10.0.0.1"]

theorem remove_undoes_add_of_allowed :
    ∃ bindings, aclsAdd allowFromHost = .ok bindings ∧ Undoes allowFromHost bindings := by
  have hadd : aclsAdd allowFromHost = .ok [⟨.topic, "orders", .literal, "User:alice", "10.0.0.1",
    .read, .allow⟩] := by decide
  exact ⟨_, hadd, (remove_undoes_add_iff hadd).2 (.inl (by decide))⟩

/-- The same, naming the principal by `--principal`. -/
def principalFromHost : AclMutationArgs where
  filter := { topic := ["orders"], principal := ["User:alice"] }
  operation := ["Read"]
  allowHost := ["10.0.0.1"]

/-- A binding that the removal with the same arguments leaves in place. -/
theorem remove_leaves_binding :
    ¬ ∀ mutation bindings, aclsAdd mutation = .ok bindings → Undoes mutation bindings := by
  intro hundoes
  have hadd : aclsAdd principalFromHost = .ok [⟨.topic, "orders", .literal, "User:alice",
    "10.0.0.1", .read, .allow⟩] := by decide
  have hremove : aclsRemove principalFromHost = .ok [⟨.topic, some "orders", .literal,
    some "User:alice", some "*", .read, .any⟩] := by decide
  obtain ⟨filters, hfilters, hmatched, _⟩ := hundoes _ _ hadd
  rw [hremove, Except.ok.injEq] at hfilters
  obtain ⟨filter, hfilter, hmatches⟩ := hmatched _ (List.mem_singleton_self _)
  rw [← hfilters, List.mem_singleton] at hfilter
  have hhost : "*" = "10.0.0.1" := hmatches.2.2.2.2.1 "*" (by rw [hfilter])
  exact absurd hhost (by decide)

end KafkaCli.Acl
