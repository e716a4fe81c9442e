import KafkaCli.Error
import KafkaCli.Lib.Text
import Mathlib.Data.List.AList

/-!
# TLS settings of the two transports

Some commands talk to the cluster through librdkafka, others through the pure-Rust client. Both
are set up from the same properties file: `client_config` copies every property under the name
that librdkafka has for it, `protocol_auth` picks the ones it needs.

A `HashMap` is iterated in any order; an `Iteration` is one choice of it for every map. Two
properties that become the same setting are both set, and the later one stays.

**Theorem (`sameTls_iff`).** The two transports get the same CA and the same client certificate,
in every order, exactly when no two properties name a different CA, and no key store takes the
place of a certificate that has a key.
-/

namespace KafkaCli.Config

open Text

/-- The properties of a file. -/
abbrev Properties := AList fun _ : String => String

/-- One property with its value. -/
abbrev Entry := Sigma fun _ : String => String

/-- The order in which a run iterates each map. -/
abbrev Iteration := (values : Properties) → { order : List Entry // order.Perm values.entries }

/-! ## librdkafka -/

/-- The settings of a client. -/
abbrev ClientConfig := String → Option String

/-- `ClientConfig::set`: a setting has the value that was given to it last. -/
def ClientConfig.set (config : ClientConfig) (key value : String) : ClientConfig :=
  Function.update config key (some value)

/-- `normalize_key`. -/
def normalizeKey : String → String
  | "ssl.truststore.location" => "ssl.ca.location"
  | "ssl.keystore.location" => "ssl.certificate.location"
  | "ssl.key.location" => "ssl.key.location"
  | "ssl.key.password" => "ssl.key.password"
  | key => key

/-- Set every property, in this order. -/
def setAll (order : List Entry) : ClientConfig :=
  order.foldl (fun config entry => config.set (normalizeKey entry.1) entry.2) fun _ => none

/-- `client_config`, given what a properties file is read as. -/
def clientConfig (load : String → Result Properties) (iterate : Iteration) (bootstrap : String)
    (path : Option String) : Result ClientConfig := do
  let values ← path.elim (pure ∅) load
  let values := values.insert "bootstrap.servers" bootstrap
  return setAll (iterate values)

/-! ## The pure-Rust client -/

structure TlsConfig where
  nativeRoots : Bool
  caCert : Option String
  clientCert : Option (String × String)
  deriving DecidableEq, Repr

inductive AuthConfig
  | ssl (tls : TlsConfig)
  | saslPlain (username password : String)
  | saslScramSha256 (username password : String)
  | saslScramSha512 (username password : String)
  | saslPlainSsl (username password : String) (tls : TlsConfig)
  deriving DecidableEq, Repr

/-- A certificate and a key, where there are both. -/
def certificatePair : Option String → Option String → Option (String × String)
  | some cert, some key => some (cert, key)
  | _, _ => none

@[simp] theorem certificatePair_none (cert : Option String) : certificatePair cert none = none := by
  cases cert <;> rfl

/-- The closure `tls` of `protocol_auth`. -/
def tlsOf (values : Properties) : TlsConfig where
  nativeRoots := true
  caCert := (values.lookup "ssl.ca.location").or (values.lookup "ssl.truststore.location")
  clientCert := certificatePair (values.lookup "ssl.certificate.location")
    (values.lookup "ssl.key.location")

/-- The closure `credentials` of `protocol_auth`. -/
def credentials (values : Properties) : Result (String × String) := do
  let username ← (values.lookup "sasl.username").elim
    (.error (.config "sasl.username is required")) .ok
  let password ← (values.lookup "sasl.password").elim
    (.error (.config "sasl.password is required")) .ok
  return (username, password)

/-- The security protocol of the properties. -/
def securityOf (values : Properties) : String :=
  toAsciiUppercase ((values.lookup "security.protocol").getD "PLAINTEXT")

/-- `protocol_auth`. The client may refuse a user name and password for PLAIN. -/
def protocolAuth (acceptPlain : String → String → Result Unit) (values : Properties) :
    Result (Option AuthConfig) :=
  let mechanism := toAsciiUppercase ((values.lookup "sasl.mechanism").getD "PLAIN")
  match securityOf values, mechanism with
  | "PLAINTEXT", _ => return none
  | "SSL", _ => return some (.ssl (tlsOf values))
  | "SASL_PLAINTEXT", "PLAIN" => do
    let (username, password) ← credentials values
    acceptPlain username password
    return some (.saslPlain username password)
  | "SASL_PLAINTEXT", "SCRAM-SHA-256" => do
    let (username, password) ← credentials values
    return some (.saslScramSha256 username password)
  | "SASL_PLAINTEXT", "SCRAM-SHA-512" => do
    let (username, password) ← credentials values
    return some (.saslScramSha512 username password)
  | "SASL_SSL", "PLAIN" => do
    let (username, password) ← credentials values
    acceptPlain username password
    return some (.saslPlainSsl username password (tlsOf values))
  | "SASL_SSL", mechanism => .error (.config
      ("the pure-Rust admin transport does not yet support " ++ mechanism ++ " over TLS"))
  | protocol, _ => .error (.config ("unsupported security.protocol: " ++ protocol))

theorem protocolAuth_ssl {acceptPlain : String → String → Result Unit} {values : Properties}
    (h : securityOf values = "SSL") :
    protocolAuth acceptPlain values = .ok (some (.ssl (tlsOf values))) := by
  simp only [protocolAuth, h]
  rfl

/-! ## What is set -/

theorem setAll_append (order : List Entry) (entry : Entry) :
    setAll (order ++ [entry]) = (setAll order).set (normalizeKey entry.1) entry.2 := by
  rw [setAll, List.foldl_append]
  rfl

/-- What is set comes from a property of that name. -/
theorem exists_of_setAll {order : List Entry} {key value : String}
    (h : setAll order key = some value) :
    ∃ name, normalizeKey name = key ∧ (⟨name, value⟩ : Entry) ∈ order := by
  induction order using List.reverseRecOn with
  | nil => exact absurd h (by simp [setAll])
  | append_singleton order entry ih =>
    rw [setAll_append, ClientConfig.set, Function.update_apply] at h
    split_ifs at h with hkey
    · refine ⟨entry.1, hkey.symm, ?_⟩
      rw [← Option.some.inj h]
      simp
    · obtain ⟨name, hname, hmem⟩ := ih h
      exact ⟨name, hname, List.mem_append_left _ hmem⟩

/-- A property sets something. -/
theorem exists_setAll_of_mem {order : List Entry} {entry : Entry} (h : entry ∈ order) :
    ∃ value, setAll order (normalizeKey entry.1) = some value := by
  induction order using List.reverseRecOn with
  | nil => exact absurd h List.not_mem_nil
  | append_singleton order last ih =>
    rw [setAll_append, ClientConfig.set, Function.update_apply]
    split_ifs with hkey
    · exact ⟨last.2, rfl⟩
    · rcases List.mem_append.1 h with hold | hnew
      · exact ih hold
      · rw [List.mem_singleton.1 hnew] at hkey
        exact absurd rfl hkey

/-- Any property may be the one that stays. -/
theorem exists_order_last {entries : List Entry} {entry : Entry} (h : entry ∈ entries) :
    ∃ order, order.Perm entries ∧ setAll order (normalizeKey entry.1) = some entry.2 := by
  refine ⟨entries.erase entry ++ [entry], ?_, ?_⟩
  · exact (List.perm_append_comm).trans (List.perm_cons_erase h).symm
  · rw [setAll_append, ClientConfig.set, Function.update_self]

/-- The properties that become a setting. -/
theorem normalizeKey_eq_ca {name : String} : normalizeKey name = "ssl.ca.location" ↔
    name = "ssl.ca.location" ∨ name = "ssl.truststore.location" := by
  unfold normalizeKey
  split <;> simp_all

theorem normalizeKey_eq_certificate {name : String} :
    normalizeKey name = "ssl.certificate.location" ↔
      name = "ssl.certificate.location" ∨ name = "ssl.keystore.location" := by
  unfold normalizeKey
  split <;> simp_all

theorem normalizeKey_eq_key {name : String} :
    normalizeKey name = "ssl.key.location" ↔ name = "ssl.key.location" := by
  unfold normalizeKey
  split <;> simp_all

/-! ## One setting with two names -/

variable {values : Properties} {bootstrap : String} {order : List Entry}

/-- The properties that are iterated are those of the file, besides the bootstrap servers. -/
theorem mem_order_iff (horder : order.Perm (values.insert "bootstrap.servers" bootstrap).entries)
    {name value : String} (hname : name ≠ "bootstrap.servers") :
    (⟨name, value⟩ : Entry) ∈ order ↔ values.lookup name = some value := by
  rw [horder.mem_iff, ← AList.mem_lookup_iff, AList.lookup_insert_ne hname, Option.mem_def]

/-- A setting that two properties become has the value of either, as long as they agree. -/
theorem setAll_of_agree (horder : order.Perm (values.insert "bootstrap.servers" bootstrap).entries)
    {setting other : String} (hsetting : setting ≠ "bootstrap.servers")
    (hother : other ≠ "bootstrap.servers")
    (hnames : ∀ name, normalizeKey name = setting ↔ name = setting ∨ name = other)
    (hagree : ∀ v w, values.lookup setting = some v → values.lookup other = some w → v = w) :
    setAll order setting = (values.lookup setting).or (values.lookup other) := by
  cases hset : setAll order setting with
  | none =>
    have hnone : ∀ name, name = setting ∨ name = other → values.lookup name = none := by
      intro name hname
      rw [Option.eq_none_iff_forall_ne_some]
      intro value hvalue
      have hne : name ≠ "bootstrap.servers" := by
        rcases hname with h | h
        · rwa [h]
        · rwa [h]
      have hsome := exists_setAll_of_mem ((mem_order_iff horder hne).2 hvalue)
      rw [(hnames name).2 hname, hset] at hsome
      simp at hsome
    rw [hnone setting (.inl rfl), hnone other (.inr rfl)]
    rfl
  | some value =>
    obtain ⟨name, hname, hmem⟩ := exists_of_setAll hset
    rcases (hnames name).1 hname with h | h
    · subst h
      rw [(mem_order_iff horder hsetting).1 hmem]
      rfl
    · subst h
      have hvalue := (mem_order_iff horder hother).1 hmem
      rw [hvalue]
      cases hfirst : values.lookup setting with
      | none => rfl
      | some first => rw [Option.some_or, hagree first value hfirst hvalue]

/-- Each of the properties that become a setting may be the one that is kept. -/
theorem exists_order_of_lookup (bootstrap : String) {name value : String}
    (hname : name ≠ "bootstrap.servers") (h : values.lookup name = some value) :
    ∃ order, order.Perm (values.insert "bootstrap.servers" bootstrap).entries ∧
      setAll order (normalizeKey name) = some value :=
  exists_order_last ((mem_order_iff (.refl _) hname).2 h)

/-- The key of a client certificate has one name only. -/
theorem setAll_key (horder : order.Perm (values.insert "bootstrap.servers" bootstrap).entries) :
    setAll order "ssl.key.location" = values.lookup "ssl.key.location" := by
  have hnames : ∀ name, normalizeKey name = "ssl.key.location" ↔
      name = "ssl.key.location" ∨ name = "ssl.key.location" := by simp [normalizeKey_eq_key]
  rw [setAll_of_agree horder (by decide) (by decide) hnames]
  · simp
  · intro v w hv hw
    exact Option.some.inj (hv.symm.trans hw)

/-! ## The two transports -/

/-- An iteration that uses a given order for one map. -/
theorem exists_iteration {target : Properties} (horder : order.Perm target.entries) :
    ∃ iterate : Iteration, (iterate target : List Entry) = order := by
  classical
  exact ⟨fun values => if h : values = target then ⟨order, h ▸ horder⟩
    else ⟨values.entries, .refl _⟩, by simp⟩

/-- Both transports use the same CA and the same client certificate, whatever the order in which
the properties are iterated. -/
def SameTls (acceptPlain : String → String → Result Unit) (values : Properties) : Prop :=
  ∃ tls, protocolAuth acceptPlain values = .ok (some (.ssl tls)) ∧
    ∀ load iterate bootstrap path config, load path = .ok values →
      clientConfig load iterate bootstrap (some path) = .ok config →
      config "ssl.ca.location" = tls.caCert ∧
      tls.clientCert =
        certificatePair (config "ssl.certificate.location") (config "ssl.key.location")

/-- No two properties name a different CA, and a key store next to a key is named as the
certificate as well. -/
def Consistent (values : Properties) : Prop :=
  (∀ ca store, values.lookup "ssl.ca.location" = some ca →
    values.lookup "ssl.truststore.location" = some store → ca = store) ∧
  ∀ key store, values.lookup "ssl.key.location" = some key →
    values.lookup "ssl.keystore.location" = some store →
    values.lookup "ssl.certificate.location" = some store

/-- Same as `SameTls`, over the orders of the properties themselves. -/
theorem sameTls_iff_orders {acceptPlain : String → String → Result Unit}
    (hssl : securityOf values = "SSL") :
    SameTls acceptPlain values ↔ ∀ bootstrap order,
      order.Perm (values.insert "bootstrap.servers" bootstrap).entries →
      setAll order "ssl.ca.location" = (tlsOf values).caCert ∧
      (tlsOf values).clientCert = certificatePair (setAll order "ssl.certificate.location")
        (setAll order "ssl.key.location") := by
  refine ⟨?_, ?_⟩
  · intro ⟨tls, htls, hall⟩ bootstrap order horder
    rw [protocolAuth_ssl hssl, Except.ok.injEq, Option.some.injEq, AuthConfig.ssl.injEq] at htls
    subst htls
    obtain ⟨iterate, hiterate⟩ := exists_iteration horder
    apply hall (fun _ => .ok values) iterate bootstrap "" (setAll order) rfl
    rw [← hiterate]
    rfl
  · intro hall
    refine ⟨tlsOf values, protocolAuth_ssl hssl, ?_⟩
    intro load iterate bootstrap path config hload hconfig
    have hbuilt : clientConfig load iterate bootstrap (some path) =
        .ok (setAll (iterate (values.insert "bootstrap.servers" bootstrap))) := by
      simp only [clientConfig, Option.elim_some, hload]
      rfl
    rw [hbuilt, Except.ok.injEq] at hconfig
    rw [← hconfig]
    exact hall bootstrap _ (iterate _).2

theorem sameTls_of_consistent {acceptPlain : String → String → Result Unit}
    (hssl : securityOf values = "SSL") (h : Consistent values) : SameTls acceptPlain values := by
  obtain ⟨hca, hcert⟩ := h
  rw [sameTls_iff_orders hssl]
  intro bootstrap order horder
  refine ⟨setAll_of_agree horder (by decide) (by decide) (fun _ => normalizeKey_eq_ca) hca, ?_⟩
  rw [setAll_key horder, tlsOf]
  cases hkey : values.lookup "ssl.key.location" with
  | none => simp
  | some key =>
    -- with a key, the key store can only be the certificate itself
    have hagree : ∀ v w, values.lookup "ssl.certificate.location" = some v →
        values.lookup "ssl.keystore.location" = some w → v = w := by
      intro v w hv hw
      exact Option.some.inj (hv.symm.trans (hcert key w hkey hw))
    rw [setAll_of_agree horder (by decide) (by decide)
      (fun _ => normalizeKey_eq_certificate) hagree]
    cases hstore : values.lookup "ssl.keystore.location" with
    | none => rw [Option.or_none]
    | some store =>
      rw [hcert key store hkey hstore]
      rfl

theorem consistent_of_sameTls {acceptPlain : String → String → Result Unit}
    (hssl : securityOf values = "SSL") (h : SameTls acceptPlain values) : Consistent values := by
  rw [sameTls_iff_orders hssl] at h
  refine ⟨?_, ?_⟩
  · intro ca store hca hstore
    obtain ⟨order, horder, hset⟩ := exists_order_of_lookup "" (by decide) hstore
    have hsame := (h "" order horder).1
    rw [tlsOf, hca, Option.some_or] at hsame
    exact Option.some.inj (hsame.symm.trans hset)
  · intro key store hkey hstore
    obtain ⟨order, horder, hset⟩ := exists_order_of_lookup "" (by decide) hstore
    have hsame := (h "" order horder).2
    rw [setAll_key horder, hkey,
      show setAll order "ssl.certificate.location" = some store from hset,
      tlsOf, hkey] at hsame
    cases hcert : values.lookup "ssl.certificate.location" with
    | none => simp [hcert, certificatePair] at hsame
    | some cert => simpa [hcert, certificatePair] using hsame

/-- **When the transports agree.** With TLS, the CA and the client certificate of the two
transports are the same in every order exactly when the properties are consistent. -/
theorem sameTls_iff (acceptPlain : String → String → Result Unit) (values : Properties)
    (hssl : securityOf values = "SSL") : SameTls acceptPlain values ↔ Consistent values :=
  ⟨consistent_of_sameTls hssl, sameTls_of_consistent hssl⟩

/-- Properties with a trust store and no key. -/
def trustStoreOnly : Properties :=
  [⟨"security.protocol", "ssl"⟩, ⟨"ssl.truststore.location", "/ca.pem"⟩].toAList

theorem sameTls_trustStoreOnly : SameTls (fun _ _ => .ok ()) trustStoreOnly := by
  have hca : trustStoreOnly.lookup "ssl.ca.location" = none := by decide
  have hkey : trustStoreOnly.lookup "ssl.key.location" = none := by decide
  refine (sameTls_iff _ trustStoreOnly (by decide)).2 ⟨?_, ?_⟩
  · simp [hca]
  · simp [hkey]

/-- A CA and another trust store: which of them librdkafka gets depends on the order. -/
theorem not_sameTls_two_cas : ¬ ∀ acceptPlain values, securityOf values = "SSL" →
    SameTls acceptPlain values := by
  intro h
  have hsame := h (fun _ _ => .ok ()) [⟨"security.protocol", "SSL"⟩,
    ⟨"ssl.ca.location", "/ca.pem"⟩, ⟨"ssl.truststore.location", "/trust.pem"⟩].toAList (by decide)
  have hconsistent := consistent_of_sameTls (by decide) hsame
  exact absurd (hconsistent.1 "/ca.pem" "/trust.pem" (by decide) (by decide)) (by decide)

end KafkaCli.Config
