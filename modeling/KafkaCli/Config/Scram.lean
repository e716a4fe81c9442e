import KafkaCli.Config.Additions
import KafkaCli.Lib.Decimal

/-!
# SCRAM credentials

A credential is added as the setting `SCRAM-SHA-256=[iterations=8192,password=secret]`. The setting
is read by `parse_config_additions`, its value by `parse_scram_changes`, which cuts it at the
commas and keeps the last of several properties with one name.

**Theorem (`keptOrRefused_iff`).** A password is stored as it was typed or refused, unless it has a
comma and goes on, behind it, as a text that is a credential itself: with further properties, or
with a bracket and further settings. The stored password is then another one.
-/

namespace KafkaCli.Config

open Checked Decimal SortedMap Text

/-! ## The algorithm -/

inductive ScramMechanism
  | sha256 | sha512
  deriving DecidableEq, Repr

/-- `scram_mechanism_name`. -/
def ScramMechanism.name : ScramMechanism → String
  | .sha256 => "SCRAM-SHA-256"
  | .sha512 => "SCRAM-SHA-512"

inductive ScramCredentialAlteration
  | upsert (mechanism : ScramMechanism) (iterations : Int) (password : List UInt8)
  | delete (mechanism : ScramMechanism)
  deriving DecidableEq, Repr

def parseScramMechanism (value : String) : Result ScramMechanism :=
  match toAsciiUppercase value with
  | "SCRAM-SHA-256" => .ok .sha256
  | "SCRAM-SHA-512" => .ok .sha512
  | _ => .error (.usage
      s!"unsupported user config {value}; expected SCRAM-SHA-256 or SCRAM-SHA-512")

/-- The properties of a credential. -/
def propertyNames : List String := ["iterations", "password"]

/-- One property of a credential. -/
def scramProperty (item : String) : Result (String × String) :=
  (splitOnce item '=').elim (.error (.usage s!"invalid SCRAM credential property: {item}")) .ok

def parseIterations (value : String) : Result Int :=
  (parseI32 value).mapError fun _ => .usage s!"invalid SCRAM iteration count: {value}"

/-- The password of a credential, which must not be empty. -/
def requirePassword (password : Option String) : Result String :=
  (password.filter (· ≠ "")).elim (.error (.usage "SCRAM credential requires password")) .ok

/-- The credential that a setting describes. -/
def parseCredential (mechanism : ScramMechanism) (value : String) :
    Result ScramCredentialAlteration := do
  let body := stripBrackets value
  let pairs ← (split body ',').mapM scramProperty
  let properties := Std.TreeMap.ofList pairs compare
  let password ← requirePassword properties["password"]?
  let iterations ← (properties["iterations"]?).elim (.ok 4096) parseIterations
  failIf (iterations < 4096) (.usage "SCRAM iteration count must be at least 4096")
  failIf (∃ key ∈ properties.keys, key ∉ propertyNames)
    (.usage "SCRAM credentials only accept iterations and password")
  return .upsert mechanism iterations (encodeUtf8 password)

/-- The mechanism of a name that was not used before. -/
def newMechanism (mechanisms : List ScramMechanism) (name : String) : Result ScramMechanism := do
  let mechanism ← parseScramMechanism name
  failIf (mechanism ∈ mechanisms) (.usage s!"duplicate SCRAM alteration for {mechanism.name}")
  return mechanism

/-- The loop over the settings. It returns the mechanisms that were used. -/
def addCredentials (mechanisms : List ScramMechanism) : List (String × String) →
    Result (List ScramMechanism × List ScramCredentialAlteration)
  | [] => .ok (mechanisms, [])
  | (name, value) :: add => do
    let mechanism ← newMechanism mechanisms name
    let change ← parseCredential mechanism value
    let (mechanisms, changes) ← addCredentials (mechanism :: mechanisms) add
    return (mechanisms, change :: changes)

/-- The loop over the names to delete. -/
def deleteCredentials (mechanisms : List ScramMechanism) : List String →
    Result (List ScramCredentialAlteration)
  | [] => .ok []
  | name :: delete => do
    let mechanism ← newMechanism mechanisms name
    let changes ← deleteCredentials (mechanism :: mechanisms) delete
    return .delete mechanism :: changes

def parseScramChanges (add : List (String × String)) (delete : List String) :
    Result (List ScramCredentialAlteration) := do
  let (mechanisms, added) ← addCredentials [] add
  let deleted ← deleteCredentials mechanisms delete
  return added ++ deleted

/-- What one argument of `--add-config` changes for a user. -/
def scramChanges (argument : String) : Result (List ScramCredentialAlteration) := do
  let add ← parseConfigAdditions [argument]
  parseScramChanges add []

/-! ## Credentials -/

/-- The value of the last item with a name. -/
def lastItem (name body : String) : Option String :=
  (split body ',').reverse.findSome? (stripPrefix · (name ++ "="))

/-- The text lists the properties of a credential: a password that is not empty last, and an
iteration count that is large enough, if any. -/
structure IsCredential (body : String) : Prop where
  items : ∀ item ∈ split body ',',
    startsWith item "iterations=" = true ∨ startsWith item "password=" = true
  password : ∃ password, lastItem "password" body = some password ∧ password ≠ ""
  iterations : ∀ text, lastItem "iterations" body = some text →
    ∃ iterations, parseI32 text = .ok iterations ∧ 4096 ≤ iterations

/-- A property with a name is found by its name. -/
theorem stripPrefix_of_splitOnce {name item : String} (hname : '=' ∉ name.toList)
    {pair : String × String} (h : splitOnce item '=' = some pair) :
    stripPrefix item (name ++ "=") = if pair.1 = name then some pair.2 else none := by
  obtain ⟨hkey, rfl⟩ := splitOnce_eq_some.1 h
  split_ifs with heq
  · rw [stripPrefix_eq_some, ← heq, String.append_assoc]
    rfl
  · cases hstrip : stripPrefix (pair.1 ++ (String.singleton '=' ++ pair.2)) (name ++ "=") with
    | none => rfl
    | some text =>
      have hitem := stripPrefix_eq_some.1 hstrip
      rw [String.append_assoc] at hitem
      have hsplit : splitOnce (name ++ ("=" ++ text)) '=' = some (name, text) :=
        splitOnce_append hname text
      rw [← hitem, splitOnce_append hkey, Option.some.injEq, Prod.mk.injEq] at hsplit
      exact absurd hsplit.1 heq

/-- The last item with a name is what a map of the properties has for it. -/
theorem getElem?_properties {name body : String} (hname : '=' ∉ name.toList)
    {pairs : List (String × String)}
    (h : List.Forall₂ (fun item pair => splitOnce item '=' = some pair) (split body ',') pairs) :
    (Std.TreeMap.ofList pairs compare)[name]? = lastItem name body := by
  rw [getElem?_ofList_eq_lookup, lastItem]
  have hreverse := List.forall₂_reverse_iff.2 h
  generalize (split body ',').reverse = items, pairs.reverse = pairs at hreverse
  induction hreverse with
  | nil => rfl
  | @cons _ pair _ _ hpair _ ih =>
    obtain ⟨key, value⟩ := pair
    rw [List.findSome?_cons, stripPrefix_of_splitOnce hname hpair, List.lookup_cons]
    by_cases heq : key = name
    · simp [heq]
    · simp [heq, beq_eq_false_iff_ne.2 (Ne.symm heq), ih]

theorem scramProperty_eq_ok {item : String} {pair : String × String} :
    scramProperty item = .ok pair ↔ splitOnce item '=' = some pair := by
  rw [scramProperty]
  cases splitOnce item '=' <;> simp

theorem requirePassword_eq_ok {password : Option String} {text : String} :
    requirePassword password = .ok text ↔ password = some text ∧ text ≠ "" := by
  cases password with
  | none => simp [requirePassword]
  | some password =>
    by_cases hempty : password = ""
    · simp only [requirePassword, hempty, Option.filter_some, ne_eq, not_true_eq_false,
        decide_false, Bool.false_eq_true, if_false, Option.elim_none, reduceCtorEq, false_iff,
        Option.some.injEq]
      intro ⟨htext, hne⟩
      exact hne htext.symm
    · simp only [requirePassword, hempty, Option.filter_some, ne_eq, not_false_eq_true,
        decide_true, if_true, Option.elim_some, Except.ok.injEq, Option.some.injEq]
      refine ⟨?_, fun h => h.1⟩
      rintro rfl
      exact ⟨rfl, hempty⟩

theorem startsWith_of_splitOnce {name item : String} {pair : String × String}
    (hname : '=' ∉ name.toList) (h : splitOnce item '=' = some pair) :
    startsWith item (name ++ "=") = true ↔ pair.1 = name := by
  have hstrip := stripPrefix_of_splitOnce hname h
  rw [stripPrefix] at hstrip
  split_ifs at hstrip <;> simp_all

/-- The keys of the properties are the names of the items. -/
theorem mem_keys_properties {pairs : List (String × String)} {key : String} :
    key ∈ (Std.TreeMap.ofList pairs compare).keys ↔ ∃ value, (key, value) ∈ pairs := by
  rw [Std.TreeMap.mem_keys, Std.TreeMap.mem_ofList, List.contains_iff_mem, List.mem_map]
  simp

/-- The keys are those of a credential exactly when the items start with its names. -/
theorem keys_properties_iff {items : List String} {pairs : List (String × String)}
    (h : List.Forall₂ (fun item pair => splitOnce item '=' = some pair) items pairs) :
    (¬ ∃ key ∈ (Std.TreeMap.ofList pairs compare).keys, key ∉ propertyNames) ↔
      ∀ item ∈ items,
        startsWith item "iterations=" = true ∨ startsWith item "password=" = true := by
  have hpairs : (¬ ∃ key ∈ (Std.TreeMap.ofList pairs compare).keys, key ∉ propertyNames) ↔
      ∀ pair ∈ pairs, pair.1 ∈ propertyNames := by
    simp only [mem_keys_properties, not_exists, not_and, not_not]
    exact ⟨fun h pair hpair => h pair.1 ⟨pair.2, hpair⟩, fun h key ⟨_, hmem⟩ => h _ hmem⟩
  rw [hpairs]
  clear hpairs
  induction h with
  | nil => simp
  | @cons item pair _ _ hpair _ ih =>
    have hiterations : startsWith item "iterations=" = true ↔ pair.1 = "iterations" :=
      startsWith_of_splitOnce (by decide : '=' ∉ "iterations".toList) hpair
    have hpassword : startsWith item "password=" = true ↔ pair.1 = "password" :=
      startsWith_of_splitOnce (by decide : '=' ∉ "password".toList) hpair
    rw [List.forall_mem_cons, List.forall_mem_cons, hiterations, hpassword]
    refine and_congr ?_ ih
    simp [propertyNames]

/-- What a credential says. -/
theorem of_parseCredential {mechanism : ScramMechanism} {value : String}
    {change : ScramCredentialAlteration} (h : parseCredential mechanism value = .ok change) :
    IsCredential (stripBrackets value) ∧ ∃ iterations password,
      change = .upsert mechanism iterations (encodeUtf8 password) ∧
        lastItem "password" (stripBrackets value) = some password ∧
        (lastItem "iterations" (stripBrackets value)).elim (.ok 4096) parseIterations =
          .ok iterations := by
  simp only [parseCredential, bind_eq_ok, failIf_eq_ok, pure_eq_ok, requirePassword_eq_ok] at h
  obtain ⟨pairs, hpairs, password, ⟨hpassword, hne⟩, iterations, hiterations, _, hlarge, _, hkeys,
    rfl⟩ := h
  have hitems : List.Forall₂ (fun item pair => splitOnce item '=' = some pair)
      (split (stripBrackets value) ',') pairs :=
    (forall₂_of_mapM_ok hpairs).imp fun _ _ => scramProperty_eq_ok.1
  rw [getElem?_properties (by decide) hitems] at hpassword hiterations
  refine ⟨{ items := (keys_properties_iff hitems).1 hkeys, password := ⟨password, hpassword, hne⟩
            iterations := ?_ }, iterations, password, rfl, hpassword, hiterations⟩
  intro text htext
  rw [htext, Option.elim_some, parseIterations, mapError_eq_ok] at hiterations
  exact ⟨iterations, hiterations, by omega⟩

/-- An item with a name in front of it is a property. -/
theorem exists_scramProperty {item : String} (name : String)
    (h : startsWith item (name ++ "=") = true) : ∃ pair, scramProperty item = .ok pair := by
  obtain ⟨rest, hrest⟩ := List.isPrefixOf_iff_prefix.1 h
  have hmem : '=' ∈ item.toList := by simp [← hrest]
  cases hsplit : splitOnce item '=' with
  | none => exact absurd hmem (splitOnce_eq_none.1 hsplit)
  | some pair => exact ⟨pair, scramProperty_eq_ok.2 hsplit⟩

/-- The iterations of a credential are read. -/
theorem IsCredential.exists_iterations {body : String} (h : IsCredential body) :
    ∃ iterations, (lastItem "iterations" body).elim (.ok 4096) parseIterations = .ok iterations ∧
      4096 ≤ iterations := by
  cases hlast : lastItem "iterations" body with
  | none => exact ⟨4096, rfl, by decide⟩
  | some text =>
    obtain ⟨iterations, hparse, hlarge⟩ := h.iterations text hlast
    exact ⟨iterations, mapError_eq_ok.2 hparse, hlarge⟩

/-- A credential is read. -/
theorem parseCredential_of_isCredential (mechanism : ScramMechanism) {value : String}
    (h : IsCredential (stripBrackets value)) :
    ∃ change, parseCredential mechanism value = .ok change := by
  obtain ⟨pairs, hpairs⟩ : ∃ pairs, (split (stripBrackets value) ',').mapM scramProperty =
      .ok pairs := by
    refine exists_mapM_ok_iff.2 fun item hitem => ?_
    rcases h.items item hitem with hstart | hstart
    · exact exists_scramProperty "iterations" hstart
    · exact exists_scramProperty "password" hstart
  have hitems : List.Forall₂ (fun item pair => splitOnce item '=' = some pair)
      (split (stripBrackets value) ',') pairs :=
    (forall₂_of_mapM_ok hpairs).imp fun _ _ => scramProperty_eq_ok.1
  obtain ⟨password, hpassword, hne⟩ := h.password
  obtain ⟨iterations, hiterations, hlarge⟩ := h.exists_iterations
  refine ⟨.upsert mechanism iterations (encodeUtf8 password), ?_⟩
  simp only [parseCredential, bind_eq_ok, failIf_eq_ok, pure_eq_ok, requirePassword_eq_ok]
  refine ⟨pairs, hpairs, password, ⟨?_, hne⟩, iterations, ?_, (), by omega, (),
    (keys_properties_iff hitems).2 h.items, rfl⟩
  · rw [getElem?_properties (by decide) hitems, hpassword]
  · rw [getElem?_properties (by decide) hitems, hiterations]

/-- The password of a credential has no comma. -/
theorem not_mem_of_lastItem {body password : String}
    (h : lastItem "password" body = some password) : ',' ∉ password.toList := by
  obtain ⟨item, hitem, hstrip⟩ := List.exists_of_findSome?_eq_some h
  have hsplit := not_mem_of_mem_split (List.mem_reverse.1 hitem)
  rw [stripPrefix_eq_some.1 hstrip] at hsplit
  simpa using hsplit

/-! ## Settings of a user -/

theorem parseScramMechanism_eq_ok {value : String} {mechanism : ScramMechanism} :
    parseScramMechanism value = .ok mechanism ↔ toAsciiUppercase value = mechanism.name := by
  rw [parseScramMechanism]
  split
  next h => cases mechanism <;> simp [ScramMechanism.name, h]
  next h => cases mechanism <;> simp [ScramMechanism.name, h]
  next h256 h512 =>
    refine iff_of_false (by simp) ?_
    cases mechanism with
    | sha256 => exact h256
    | sha512 => exact h512

theorem newMechanism_eq_ok {mechanisms : List ScramMechanism} {name : String}
    {mechanism : ScramMechanism} : newMechanism mechanisms name = .ok mechanism ↔
      toAsciiUppercase name = mechanism.name ∧ mechanism ∉ mechanisms := by
  simp only [newMechanism, bind_eq_ok, failIf_eq_ok, pure_eq_ok, parseScramMechanism_eq_ok]
  refine ⟨?_, ?_⟩
  · rintro ⟨_, hname, _, hnew, rfl⟩
    exact ⟨hname, hnew⟩
  · rintro ⟨hname, hnew⟩
    exact ⟨mechanism, hname, (), hnew, rfl⟩

theorem ScramMechanism.name_inj {a b : ScramMechanism} (h : a.name = b.name) : a = b := by
  cases a <;> cases b <;> simp_all [ScramMechanism.name]

/-- The first of some settings. -/
theorem exists_addCredentials_cons {mechanisms : List ScramMechanism} {name value : String}
    {add : List (String × String)} :
    (∃ result, addCredentials mechanisms ((name, value) :: add) = .ok result) ↔
      ∃ mechanism, (toAsciiUppercase name = mechanism.name ∧ mechanism ∉ mechanisms) ∧
        IsCredential (stripBrackets value) ∧
          ∃ result, addCredentials (mechanism :: mechanisms) add = .ok result := by
  simp only [addCredentials, bind_eq_ok, pure_eq_ok, newMechanism_eq_ok]
  refine ⟨?_, ?_⟩
  · intro h
    obtain ⟨_, mechanism, hnew, change, hchange, result, hresult, _⟩ := h
    exact ⟨mechanism, hnew, (of_parseCredential hchange).1, result, hresult⟩
  · intro h
    obtain ⟨mechanism, hnew, hcredential, result, hresult⟩ := h
    obtain ⟨change, hchange⟩ := parseCredential_of_isCredential mechanism hcredential
    exact ⟨_, mechanism, hnew, change, hchange, result, hresult, rfl⟩

/-- Settings are credentials of a user: each is one, of a mechanism that was not used before. -/
theorem exists_addCredentials_iff {mechanisms : List ScramMechanism}
    {add : List (String × String)} :
    (∃ result, addCredentials mechanisms add = .ok result) ↔
      (∀ entry ∈ add, (∃ mechanism : ScramMechanism,
        toAsciiUppercase entry.1 = mechanism.name ∧ mechanism ∉ mechanisms) ∧
          IsCredential (stripBrackets entry.2)) ∧
      add.Pairwise fun a b => toAsciiUppercase a.1 ≠ toAsciiUppercase b.1 := by
  induction add generalizing mechanisms with
  | nil => simp [addCredentials]
  | cons entry add ih =>
    obtain ⟨name, value⟩ := entry
    rw [exists_addCredentials_cons, List.forall_mem_cons, List.pairwise_cons]
    refine ⟨?_, ?_⟩
    · intro ⟨mechanism, hnew, hcredential, hrest⟩
      obtain ⟨hadd, hpairwise⟩ := ih.1 hrest
      refine ⟨⟨⟨⟨mechanism, hnew⟩, hcredential⟩, ?_⟩, ?_, hpairwise⟩
      · intro entry hentry
        obtain ⟨⟨other, hother, hunused⟩, hcredential⟩ := hadd entry hentry
        exact ⟨⟨other, hother, fun hmem => hunused (List.mem_cons_of_mem _ hmem)⟩, hcredential⟩
      · intro entry hentry heq
        obtain ⟨⟨other, hother, hunused⟩, _⟩ := hadd entry hentry
        have hsame : other = mechanism :=
          ScramMechanism.name_inj (hother.symm.trans (heq.symm.trans hnew.1))
        exact hunused (hsame ▸ List.mem_cons_self)
    · intro ⟨⟨⟨⟨mechanism, hnew⟩, hcredential⟩, hadd⟩, hdiffer, hpairwise⟩
      refine ⟨mechanism, hnew, hcredential, ih.2 ⟨?_, hpairwise⟩⟩
      intro entry hentry
      obtain ⟨⟨other, hother, hunused⟩, hcredential⟩ := hadd entry hentry
      refine ⟨⟨other, hother, ?_⟩, hcredential⟩
      rw [List.mem_cons, not_or]
      refine ⟨?_, hunused⟩
      rintro rfl
      exact hdiffer entry hentry (hnew.1.trans hother.symm)

/-- Every change stores the last password of some text. -/
theorem mem_addCredentials {mechanisms : List ScramMechanism} {add : List (String × String)}
    {result : List ScramMechanism × List ScramCredentialAlteration}
    (h : addCredentials mechanisms add = .ok result) :
    ∀ change ∈ result.2, ∃ mechanism iterations password body,
      change = .upsert mechanism iterations (encodeUtf8 password) ∧
        lastItem "password" body = some password := by
  induction add generalizing mechanisms result with
  | nil =>
    cases h
    simp
  | cons entry add ih =>
    obtain ⟨name, value⟩ := entry
    simp only [addCredentials, bind_eq_ok, pure_eq_ok] at h
    obtain ⟨mechanism, _, change, hchange, rest, hrest, rfl⟩ := h
    obtain ⟨-, iterations, password, hupsert, hlast, -⟩ := of_parseCredential hchange
    exact List.forall_mem_cons.2 ⟨⟨mechanism, iterations, password, _, hupsert, hlast⟩, ih hrest⟩

/-! ## What an argument is read as -/

/-- The argument is one credential or more: settings of which the last with a key counts, each for
a mechanism that no other key is for. -/
def ReadsAsCredentials (argument : String) : Prop :=
  ∃ settings, ListsSettings argument settings ∧
    (∀ key value, (settings.map readSetting).reverse.lookup key = some value →
      (∃ mechanism : ScramMechanism, toAsciiUppercase key = mechanism.name) ∧
        IsCredential (stripBrackets value)) ∧
    ∀ setting ∈ settings, ∀ other ∈ settings,
      toAsciiUppercase (trim setting.1) = toAsciiUppercase (trim other.1) →
        trim setting.1 = trim other.1

/-- The settings that a map keeps. -/
theorem mem_toList_ofList {additions : List (String × String)} {key value : String} :
    (key, value) ∈ (Std.TreeMap.ofList additions compare).toList ↔
      additions.reverse.lookup key = some value := by
  rw [Std.TreeMap.mem_toList_iff_getElem?_eq_some, getElem?_ofList_eq_lookup]

theorem exists_lookup_of_mem {additions : List (String × String)} {key : String}
    (h : key ∈ additions.map Prod.fst) : ∃ value, additions.reverse.lookup key = some value := by
  obtain ⟨entry, hentry, rfl⟩ := List.mem_map.1 h
  cases hlookup : additions.reverse.lookup entry.1 with
  | some value => exact ⟨value, rfl⟩
  | none =>
    have hne := List.lookup_eq_none_iff.1 hlookup entry (List.mem_reverse.2 hentry)
    simp at hne

theorem mem_of_lookup {additions : List (String × String)} {key value : String}
    (h : additions.reverse.lookup key = some value) : key ∈ additions.map Prod.fst := by
  obtain ⟨front, back, hreverse, _⟩ := List.lookup_eq_some_iff.1 h
  refine List.mem_map.2 ⟨(key, value), List.mem_reverse.1 ?_, rfl⟩
  simp [hreverse]

/-- Settings are credentials exactly when those that a map keeps are. -/
theorem exists_parseScramChanges_iff {additions : List (String × String)} :
    (∃ changes, parseScramChanges (Std.TreeMap.ofList additions compare).toList [] = .ok changes) ↔
      (∀ key value, additions.reverse.lookup key = some value →
        (∃ mechanism : ScramMechanism, toAsciiUppercase key = mechanism.name) ∧
          IsCredential (stripBrackets value)) ∧
      ∀ key ∈ additions.map Prod.fst, ∀ other ∈ additions.map Prod.fst,
        toAsciiUppercase key = toAsciiUppercase other → key = other := by
  have hadded : (∃ changes, parseScramChanges (Std.TreeMap.ofList additions compare).toList [] =
      .ok changes) ↔
      ∃ result, addCredentials [] (Std.TreeMap.ofList additions compare).toList = .ok result := by
    simp only [parseScramChanges, deleteCredentials, bind_eq_ok, pure_eq_ok]
    refine ⟨?_, ?_⟩
    · intro h
      obtain ⟨_, result, hresult, _⟩ := h
      exact ⟨result, hresult⟩
    · intro h
      obtain ⟨result, hresult⟩ := h
      exact ⟨_, result, hresult, [], rfl, rfl⟩
  have hmem : ∀ key value, (key, value) ∈ (Std.TreeMap.ofList additions compare).toList ↔
      additions.reverse.lookup key = some value := fun _ _ => mem_toList_ofList
  have hincreasing := increasing_toList (Std.TreeMap.ofList additions compare)
  rw [hadded, exists_addCredentials_iff]
  generalize (Std.TreeMap.ofList additions compare).toList = kept at hmem hincreasing
  refine and_congr ?_ ?_
  · simp [Prod.forall, hmem]
  · refine ⟨?_, ?_⟩
    · intro hdiffer key hkey other hother hsame
      obtain ⟨value, hvalue⟩ := exists_lookup_of_mem hkey
      obtain ⟨value', hvalue'⟩ := exists_lookup_of_mem hother
      let Alike (a b : String × String) : Prop :=
        toAsciiUppercase a.1 = toAsciiUppercase b.1 → a.1 = b.1
      have halike : ∀ a ∈ kept, ∀ b ∈ kept, Alike a b := fun a ha b hb =>
        List.Pairwise.forall_of_forall_of_flip (fun _ _ _ => rfl)
          (hdiffer.imp fun hne heq => absurd heq hne)
          (hdiffer.imp fun hne heq => absurd heq.symm hne) ha hb
      exact halike _ ((hmem _ _).2 hvalue) _ ((hmem _ _).2 hvalue') hsame
    · intro hsame
      refine hincreasing.imp_of_mem ?_
      intro a b ha hb hlt heq
      have hkey := hsame a.1 (mem_of_lookup ((hmem _ _).1 ha)) b.1
        (mem_of_lookup ((hmem _ _).1 hb)) heq
      rw [hkey] at hlt
      exact not_lt_self b.1 hlt

/-- What an argument that does not end in a comma needs to be read. -/
theorem exists_scramChanges_iff {argument : String}
    (hlast : argument.toList.getLast? ≠ some ',') :
    (∃ changes, scramChanges argument = .ok changes) ↔ ReadsAsCredentials argument := by
  have hread : (∃ changes, scramChanges argument = .ok changes) ↔
      ∃ additions, parseAdditions argument = .ok additions ∧ ∃ changes,
        parseScramChanges (Std.TreeMap.ofList additions compare).toList [] = .ok changes := by
    simp only [scramChanges, parseConfigAdditions, List.mapM_cons, List.mapM_nil, bind_eq_ok,
      pure_eq_ok]
    refine ⟨?_, ?_⟩
    · rintro ⟨changes, _, ⟨_, ⟨additions, hadditions, _, rfl, rfl⟩, rfl⟩, hchanges⟩
      exact ⟨additions, hadditions, changes, by simpa using hchanges⟩
    · intro h
      obtain ⟨additions, hadditions, changes, hchanges⟩ := h
      exact ⟨changes, _, ⟨_, ⟨additions, hadditions, _, rfl, rfl⟩, rfl⟩, by simpa using hchanges⟩
  rw [hread, ReadsAsCredentials]
  simp only [parseAdditions_eq_ok hlast, exists_parseScramChanges_iff]
  refine ⟨?_, ?_⟩
  · rintro ⟨_, ⟨settings, hsettings, rfl⟩, hkept, hsame⟩
    refine ⟨settings, hsettings, hkept, ?_⟩
    intro setting hsetting other hother
    have hkey : ∀ s ∈ settings, trim s.1 ∈ (settings.map readSetting).map Prod.fst := fun s hs =>
      List.mem_map.2 ⟨readSetting s, List.mem_map_of_mem hs, rfl⟩
    exact hsame _ (hkey setting hsetting) _ (hkey other hother)
  · intro h
    obtain ⟨settings, hsettings, hkept, hsame⟩ := h
    refine ⟨_, ⟨settings, hsettings, rfl⟩, hkept, ?_⟩
    intro key hkey other hother
    obtain ⟨setting, hsetting, rfl⟩ := List.mem_map.1 (List.map_map ▸ hkey)
    obtain ⟨setting', hsetting', rfl⟩ := List.mem_map.1 (List.map_map ▸ hother)
    exact hsame setting hsetting setting' hsetting'

/-! ## One credential -/

/-- The properties of a credential, as they are written. -/
def credentialBody (iterations : Int) (password : String) : String :=
  "iterations=" ++ (toString iterations ++ ("," ++ ("password=" ++ password)))

/-- The argument that adds a credential. -/
def scramArgument (mechanism : ScramMechanism) (iterations : Int) (password : String) : String :=
  mechanism.name ++ ("=" ++ ("[" ++ (credentialBody iterations password ++ "]")))

/-- The password is stored as it was typed, with its iteration count, or not at all. -/
def KeptOrRefused (mechanism : ScramMechanism) (iterations : Int) (password : String) : Prop :=
  ∀ changes, scramChanges (scramArgument mechanism iterations password) = .ok changes →
    changes = [.upsert mechanism iterations (encodeUtf8 password)]

theorem split_credentialBody {iterations : Int} {password : String} (h : ',' ∉ password.toList) :
    split (credentialBody iterations password) ',' =
      ["iterations=" ++ toString iterations, "password=" ++ password] := by
  have hnumber : ',' ∉ (toString iterations).toList := by
    intro hmem
    rcases isDigit_of_mem_toString hmem with hdigit | hminus
    · cases hdigit
    · cases hminus
  have hfirst : ',' ∉ ("iterations=" ++ toString iterations).toList := by
    rw [String.toList_append, List.mem_append, not_or]
    exact ⟨by decide, hnumber⟩
  have hsecond : ',' ∉ ("password=" ++ password).toList := by
    rw [String.toList_append, List.mem_append, not_or]
    exact ⟨by decide, h⟩
  rw [credentialBody, ← String.append_assoc]
  show split ("iterations=" ++ toString iterations ++
    (String.singleton ',' ++ ("password=" ++ password))) ',' = _
  rw [split_append_cons hfirst, split_eq_singleton hsecond]

theorem lastItem_credentialBody (iterations : Int) {password : String}
    (h : ',' ∉ password.toList) :
    lastItem "password" (credentialBody iterations password) = some password ∧
      lastItem "iterations" (credentialBody iterations password) = some (toString iterations) := by
  have hpassword : stripPrefix ("password=" ++ password) ("password" ++ "=") = some password :=
    stripPrefix_eq_some.2 rfl
  have hnone : stripPrefix ("password=" ++ password) ("iterations" ++ "=") = none := by
    rw [stripPrefix, if_neg]
    simp [startsWith]
  have hiterations : stripPrefix ("iterations=" ++ toString iterations) ("iterations" ++ "=") =
      some (toString iterations) := stripPrefix_eq_some.2 rfl
  rw [lastItem, lastItem, split_credentialBody h]
  refine ⟨?_, ?_⟩
  · simp only [List.reverse_cons, List.reverse_nil, List.nil_append, List.cons_append,
      List.findSome?_cons, hpassword]
  · simp only [List.reverse_cons, List.reverse_nil, List.nil_append, List.cons_append,
      List.findSome?_cons, hnone, hiterations]

theorem ScramMechanism.plain_name (mechanism : ScramMechanism) :
    ∀ c ∈ mechanism.name.toList, NoBracket c ∧ c ≠ ',' ∧ c ≠ '=' := by
  unfold NoBracket
  cases mechanism <;> decide

theorem plain_credentialStart (iterations : Int) :
    ∀ c ∈ "iterations=".toList ++ ((toString iterations).toList ++ ",password=".toList),
      NoBracket c := by
  have hnumber : ∀ c ∈ (toString iterations).toList, NoBracket c := by
    intro c hc
    rcases isDigit_of_mem_toString hc with hdigit | rfl
    · exact ⟨isDigit_ne hdigit (by decide), isDigit_ne hdigit (by decide)⟩
    · simp [NoBracket]
  intro c hc
  rw [List.mem_append, List.mem_append] at hc
  rcases hc with hc | hc | hc
  · exact (by decide : ∀ c ∈ "iterations=".toList, c ≠ '[' ∧ c ≠ ']') c hc
  · exact hnumber c hc
  · exact (by decide : ∀ c ∈ ",password=".toList, c ≠ '[' ∧ c ≠ ']') c hc

/-- Without a comma in the password the argument is one setting. -/
theorem parseAdditions_scramArgument {mechanism : ScramMechanism} {iterations : Int}
    {password : String} (hcomma : ',' ∉ password.toList) {additions : List (String × String)}
    (h : parseAdditions (scramArgument mechanism iterations password) = .ok additions) :
    additions = [(mechanism.name, credentialBody iterations password)] := by
  have hlist : (scramArgument mechanism iterations password).toList =
      (mechanism.name.toList ++ ['=']) ++ '[' ::
        (("iterations=".toList ++ ((toString iterations).toList ++ ",password=".toList)) ++
          (password.toList ++ [']'])) := by
    simp [scramArgument, credentialBody]
  have hbefore : ∀ c ∈ mechanism.name.toList ++ ['='], NoBracket c ∧ c ≠ ',' := by
    intro c hc
    rw [List.mem_append, List.mem_singleton] at hc
    rcases hc with hc | rfl
    · exact ⟨(mechanism.plain_name c hc).1, (mechanism.plain_name c hc).2.1⟩
    · simp [NoBracket]
  have hrest : ',' ∉ password.toList ++ [']'] := by simpa using hcomma
  simp only [parseAdditions, splitOutsideBrackets, bind_eq_ok, pure_eq_ok] at h
  obtain ⟨entries, ⟨parts, hparts, rfl⟩, hadditions⟩ := h
  rw [hlist] at hparts
  have hone := cutFrom_bracketed hbefore (plain_credentialStart iterations) hrest hparts
  rw [← hlist] at hone
  have hkey : Whole '=' false mechanism.name.toList := whole_of_plain fun c hc =>
    ⟨(mechanism.plain_name c hc).1, (mechanism.plain_name c hc).2.2⟩
  have hread : parseAddition (scramArgument mechanism iterations password) =
      .ok (mechanism.name, credentialBody iterations password) := by
    have htrim : trim mechanism.name = mechanism.name := by cases mechanism <;> decide
    rw [scramArgument, parseAddition_eq hkey, htrim, trim_enclosed, stripBrackets_enclosed]
  rw [hone] at hadditions
  simp only [List.map_singleton, String.ofList_toList, dropEmptyParts, List.rdropWhile_nil,
    List.mapM_cons, List.mapM_nil, hread, ok_bind] at hadditions
  cases hadditions
  rfl

/-- A password without a comma is kept or refused. -/
theorem keptOrRefused_of_no_comma {mechanism : ScramMechanism} {iterations : Int}
    (hlow : 4096 ≤ iterations) (hhigh : iterations < 2 ^ 31) {password : String}
    (hcomma : ',' ∉ password.toList) : KeptOrRefused mechanism iterations password := by
  intro changes h
  simp only [scramChanges, parseConfigAdditions, List.mapM_cons, List.mapM_nil, bind_eq_ok,
    pure_eq_ok] at h
  obtain ⟨_, ⟨_, ⟨additions, hadditions, _, rfl, rfl⟩, rfl⟩, hchanges⟩ := h
  have hone := parseAdditions_scramArgument hcomma hadditions
  have hmap : (Std.TreeMap.ofList [(mechanism.name, credentialBody iterations password)]
      compare).toList = [(mechanism.name, credentialBody iterations password)] :=
    toList_ofList_eq_iff.2 (List.pairwise_singleton _ _)
  rw [hone] at hchanges
  simp only [List.flatten_cons, List.flatten_nil, List.append_nil, hmap, parseScramChanges,
    addCredentials, deleteCredentials, bind_eq_ok, pure_eq_ok, Except.ok.injEq,
    newMechanism_eq_ok] at hchanges
  obtain ⟨_, ⟨mechanism', ⟨hname, _⟩, change, hchange, _, rfl, rfl⟩, _, rfl, rfl⟩ := hchanges
  have hsame : mechanism' = mechanism := by
    refine ScramMechanism.name_inj (hname.symm.trans ?_)
    cases mechanism <;> decide
  have hbody : stripBrackets (credentialBody iterations password) =
      credentialBody iterations password := by
    refine stripBrackets_eq_self ?_
    simp [credentialBody]
  obtain ⟨hpassword, hiterations⟩ := lastItem_credentialBody iterations hcomma
  obtain ⟨-, iterations', password', rfl, hpassword', hiterations'⟩ := of_parseCredential hchange
  have hparse : parseI32 (toString iterations) = .ok iterations :=
    parseSigned_toString (by omega) (by omega)
  rw [hbody, hpassword, Option.some.injEq] at hpassword'
  rw [hbody, hiterations, Option.elim_some, parseIterations, mapError_eq_ok, hparse,
    Except.ok.injEq] at hiterations'
  rw [hsame, ← hpassword', ← hiterations']
  rfl

/-! ## The theorem -/

/-- **When a password is stored as it was typed.** It is, or it is refused, exactly when it has no
comma, or the argument that it is in does not read as credentials. -/
theorem keptOrRefused_iff (mechanism : ScramMechanism) (iterations : Int)
    (hlow : 4096 ≤ iterations) (hhigh : iterations < 2 ^ 31) (password : String) :
    KeptOrRefused mechanism iterations password ↔
      (',' ∈ password.toList →
        ¬ ReadsAsCredentials (scramArgument mechanism iterations password)) := by
  have hlast : (scramArgument mechanism iterations password).toList.getLast? ≠ some ',' := by
    have hlist : (scramArgument mechanism iterations password).toList = (mechanism.name.toList ++
        '=' :: '[' :: (credentialBody iterations password).toList) ++ [']'] := by
      simp [scramArgument]
    rw [hlist, List.getLast?_concat]
    decide
  refine ⟨?_, ?_⟩
  · intro hkept hcomma hreads
    obtain ⟨changes, hchanges⟩ := (exists_scramChanges_iff hlast).2 hreads
    have hone := hkept changes hchanges
    simp only [scramChanges, parseScramChanges, deleteCredentials, bind_eq_ok, pure_eq_ok,
      Except.ok.injEq] at hchanges
    obtain ⟨_, _, result, hresult, _, rfl, rfl⟩ := hchanges
    rw [List.append_nil] at hone
    obtain ⟨_, _, stored, _, hupsert, hstored⟩ :=
      mem_addCredentials hresult _ (hone ▸ List.mem_singleton_self _)
    rw [ScramCredentialAlteration.upsert.injEq] at hupsert
    have hsame := congrArg decodeUtf8 hupsert.2.2
    rw [decodeUtf8_encodeUtf8, decodeUtf8_encodeUtf8, Option.some.injEq] at hsame
    exact not_mem_of_lastItem hstored (hsame ▸ hcomma)
  · intro h changes hchanges
    by_cases hcomma : ',' ∈ password.toList
    · exact absurd ((exists_scramChanges_iff hlast).1 ⟨changes, hchanges⟩) (h hcomma)
    · exact keptOrRefused_of_no_comma hlow hhigh hcomma changes hchanges

/-- A password with an equals sign and a bracket. -/
theorem keptOrRefused_iff_plain : KeptOrRefused .sha256 8192 "a=b]" :=
  (keptOrRefused_iff .sha256 8192 (by decide) (by decide) "a=b]").2
    fun hcomma => absurd hcomma (by decide)

/-- Only what follows the comma is stored. -/
theorem not_keptOrRefused : ¬ ∀ mechanism iterations password, 4096 ≤ iterations →
    iterations < 2 ^ 31 → KeptOrRefused mechanism iterations password := by
  intro h
  have hstored : scramChanges (scramArgument .sha256 8192 "a,password=b") =
      .ok [.upsert .sha256 8192 (encodeUtf8 "b")] := by decide +kernel
  have hone := h .sha256 8192 "a,password=b" (by decide) (by decide) _ hstored
  exact absurd hone (by decide +kernel)

end KafkaCli.Config
