import Webhookd.Go.Time

/-!
# Configuration

`config.Load`: a sequence of typed lookups of environment variables, which
share one sticky error, and then the checks of `validate`.

A `Setting` is one lookup of the source: the name of the variable, the value it
falls back to, and how it is parsed. The loader is the state of `l.err`
(`Loader`): after a first error, every lookup gives its fallback. What it
computes is simpler than how: reading the settings in turn and stopping at the
first error (`load_eq`). An accepted configuration is thus made of the values of
its settings, one by one (`Parsed`), and passes `validate`.
-/

namespace Webhookd

open Go

/-- The environment: `os.LookupEnv`. -/
abbrev Env := GoString → Option GoString

/-- `slog.Level`, as far as it can be configured. -/
inductive Level
  | debug
  | info
  | warn
  | error
  deriving DecidableEq

/-- The errors of `Load`. -/
inductive LoadError
  /-- The parser of the variable `name` failed. -/
  | malformed (name : String)
  | unknownLevel (name : String) (v : GoString)
  | signingSecretRequired
  | sampleRatio (v : Float64)
  | logFormat (v : GoString)
  | maxBodyBytes (v : Int)
  | rateLimitRPS (v : Float64)
  | rateLimitBurst (v : Int)
  | syncTimeout (v : Duration)
  | syncTimeoutTooLong (sync shutdown : Duration)
  | jsmFieldsRequired
  | identityProviderIDRequired
  deriving DecidableEq

/-- The text of an error, up to the value it ends in. -/
def LoadError.text : LoadError → String
  | .malformed name => name ++ ": "
  | .unknownLevel name _ => name ++ ": unknown level "
  | .signingSecretRequired => "WEBHOOK_SIGNING_SECRET is required"
  | .sampleRatio _ => "WEBHOOK_TRACING_SAMPLE_RATIO out of range [0,1]: "
  | .logFormat _ => "WEBHOOK_LOG_FORMAT must be json or text: "
  | .maxBodyBytes _ => "WEBHOOK_MAX_BODY_BYTES must be positive: "
  | .rateLimitRPS _ => "WEBHOOK_RATE_LIMIT_RPS must be positive: "
  | .rateLimitBurst _ => "WEBHOOK_RATE_LIMIT_BURST must be positive: "
  | .syncTimeout _ => "WEBHOOK_CR_SYNC_TIMEOUT must be positive: "
  | .syncTimeoutTooLong _ _ =>
      "WEBHOOK_CR_SYNC_TIMEOUT must be less than WEBHOOK_SHUTDOWN_TIMEOUT: "
  | .jsmFieldsRequired => "WEBHOOK_JSM_FIELD_PROVIDER_GROUP_ID, WEBHOOK_JSM_FIELD_ROLE, " ++
      "and WEBHOOK_JSM_FIELD_PROJECT are required when JSM is enabled"
  | .identityProviderIDRequired =>
      "WEBHOOK_JSM_IDENTITY_PROVIDER_ID is required when JSM is enabled"

/-! ## Settings -/

/-- A lookup of the loader: the variable, its fallback and its parser. -/
structure Setting (α : Type) where
  name : String
  fallback : α
  parse : GoString → Except LoadError α

namespace Setting

/-- The result of a parser of the standard library. -/
def orMalformed {α : Type} (name : String) : Option α → Except LoadError α
  | some a => .ok a
  | none => .error (.malformed name)

/-- `loader.str`. -/
def str (name fallback : String) : Setting GoString := ⟨name, fallback, .ok⟩

/-- `loader.dur`. -/
def dur (name : String) (fallback : Duration) : Setting Duration :=
  ⟨name, fallback, fun v => orMalformed name (parseDuration v)⟩

/-- `loader.i64`. -/
def i64 (name : String) (fallback : Int) : Setting Int :=
  ⟨name, fallback, fun v => orMalformed name (parseInt v)⟩

/-- `loader.f64`. -/
def f64 (name : String) (fallback : Float64) : Setting Float64 :=
  ⟨name, fallback, fun v => orMalformed name (parseFloat v)⟩

/-- `loader.boolean`. -/
def boolean (name : String) (fallback : Bool) : Setting Bool :=
  ⟨name, fallback, fun v => orMalformed name (parseBool v)⟩

/-- The level of a name. -/
def levelOf (v : GoString) : Option Level :=
  if v = lit "debug" then some .debug else if v = lit "info" then some .info
  else if v = lit "warn" ∨ v = lit "warning" then some .warn
  else if v = lit "error" then some .error else none

/-- `loader.level`. -/
def level (name : String) (fallback : Level) : Setting Level :=
  ⟨name, fallback, fun v => ((levelOf (toLower v)).map .ok).getD (.error (.unknownLevel name v))⟩

/-- One round of the loop of `csv`: the entries `out` so far are also those seen. -/
def csvAdd (out : List GoString) (raw : GoString) : List GoString :=
  let entry := toLower (trimSpace raw)
  if entry = [] then out else if out.contains entry then out else out ++ [entry]

/-- The entries of a comma-separated list. -/
def csvEntries (v : GoString) : List GoString := (v.splitOn (ch ',')).foldl csvAdd []

/-- `loader.csv`. -/
def csv (name : String) (fallback : List GoString) : Setting (List GoString) :=
  ⟨name, fallback, fun v => .ok (csvEntries v)⟩

-- The lookups of `Load`, in its order.
def addr := str "WEBHOOK_ADDR" ":8080"
def adminAddr := str "WEBHOOK_ADMIN_ADDR" ":9090"
def readTimeout := dur "WEBHOOK_READ_TIMEOUT" (5 * second)
def readHeaderTimeout := dur "WEBHOOK_READ_HEADER_TIMEOUT" (2 * second)
def writeTimeout := dur "WEBHOOK_WRITE_TIMEOUT" (10 * second)
def idleTimeout := dur "WEBHOOK_IDLE_TIMEOUT" (60 * second)
def shutdownTimeout := dur "WEBHOOK_SHUTDOWN_TIMEOUT" (25 * second)
def maxBodyBytes := i64 "WEBHOOK_MAX_BODY_BYTES" (2 ^ 20)
def signatureHeader := str "WEBHOOK_SIGNATURE_HEADER" "X-Webhook-Signature"
def timestampHeader := str "WEBHOOK_TIMESTAMP_HEADER" "X-Webhook-Timestamp"
def timestampSkew := dur "WEBHOOK_TIMESTAMP_SKEW" (5 * minute)
def rateLimitRPS := f64 "WEBHOOK_RATE_LIMIT_RPS" (.fin 100)
def rateLimitBurst := i64 "WEBHOOK_RATE_LIMIT_BURST" 200
def logFormat := str "WEBHOOK_LOG_FORMAT" "json"
def logLevel := level "WEBHOOK_LOG_LEVEL" .info
def tracingEnabled := boolean "WEBHOOK_TRACING_ENABLED" true
def tracingSampleRatio := f64 "WEBHOOK_TRACING_SAMPLE_RATIO" (.fin 1)
def pprofEnabled := boolean "WEBHOOK_PPROF_ENABLED" true
def serviceName := str "OTEL_SERVICE_NAME" "webhookd"
def serviceVersion := str "OTEL_SERVICE_VERSION" ""
def enabledProviders := csv "WEBHOOK_PROVIDERS" ["jsm"]
def triggerStatus := str "WEBHOOK_JSM_TRIGGER_STATUS" "Ready to Provision"
def fieldProviderGroupID := str "WEBHOOK_JSM_FIELD_PROVIDER_GROUP_ID" ""
def fieldRole := str "WEBHOOK_JSM_FIELD_ROLE" ""
def fieldProject := str "WEBHOOK_JSM_FIELD_PROJECT" ""
def identityProviderID := str "WEBHOOK_JSM_IDENTITY_PROVIDER_ID" ""
def namespace_ := str "WEBHOOK_CR_NAMESPACE" "wiz-operator"
def apiGroup := str "WEBHOOK_CR_API_GROUP" "wiz.webhookd.io"
def apiVersion := str "WEBHOOK_CR_API_VERSION" "v1alpha1"
def fieldManager := str "WEBHOOK_CR_FIELD_MANAGER" "webhookd"
def syncTimeout := dur "WEBHOOK_CR_SYNC_TIMEOUT" (20 * second)
def kubeconfig := str "WEBHOOK_KUBECONFIG" ""

end Setting

/-- `config.JSMConfig`. -/
structure JSMConfig where
  triggerStatus : GoString
  fieldProviderGroupID : GoString
  fieldRole : GoString
  fieldProject : GoString
  identityProviderID : GoString

/-- `config.CRConfig`. -/
structure CRConfig where
  namespace_ : GoString
  apiGroup : GoString
  apiVersion : GoString
  fieldManager : GoString
  syncTimeout : Duration

/-- `config.Config`, less the build information that `main` adds to it. -/
structure Config where
  addr : GoString
  adminAddr : GoString
  readTimeout : Duration
  readHeaderTimeout : Duration
  writeTimeout : Duration
  idleTimeout : Duration
  shutdownTimeout : Duration
  maxBodyBytes : Int
  signingSecret : GoString
  signatureHeader : GoString
  timestampHeader : GoString
  timestampSkew : Duration
  rateLimitRPS : Float64
  rateLimitBurst : Int
  logLevel : Level
  logFormat : GoString
  tracingEnabled : Bool
  tracingSampleRatio : Float64
  pprofEnabled : Bool
  serviceName : GoString
  serviceVersion : GoString
  enabledProviders : List GoString
  jsm : JSMConfig
  cr : CRConfig
  kubeconfig : GoString

/-- `Config.ProviderEnabled`. -/
def Config.providerEnabled (cfg : Config) (name : GoString) : Prop := name ∈ cfg.enabledProviders

instance (cfg : Config) (name : GoString) : Decidable (cfg.providerEnabled name) :=
  inferInstanceAs (Decidable (_ ∈ _))

/-- The literal of `Load`: its lookups, in order, by any way `get` of looking up
    a setting. The signing secret is not one of them. -/
def readConfig {m : Type → Type} [Monad m] (get : ∀ {α : Type}, Setting α → m α) : m Config := do
  let addr ← get Setting.addr
  let adminAddr ← get Setting.adminAddr
  let readTimeout ← get Setting.readTimeout
  let readHeaderTimeout ← get Setting.readHeaderTimeout
  let writeTimeout ← get Setting.writeTimeout
  let idleTimeout ← get Setting.idleTimeout
  let shutdownTimeout ← get Setting.shutdownTimeout
  let maxBodyBytes ← get Setting.maxBodyBytes
  let signatureHeader ← get Setting.signatureHeader
  let timestampHeader ← get Setting.timestampHeader
  let timestampSkew ← get Setting.timestampSkew
  let rateLimitRPS ← get Setting.rateLimitRPS
  let rateLimitBurst ← get Setting.rateLimitBurst
  let logFormat ← get Setting.logFormat
  let logLevel ← get Setting.logLevel
  let tracingEnabled ← get Setting.tracingEnabled
  let tracingSampleRatio ← get Setting.tracingSampleRatio
  let pprofEnabled ← get Setting.pprofEnabled
  let serviceName ← get Setting.serviceName
  let serviceVersion ← get Setting.serviceVersion
  let enabledProviders ← get Setting.enabledProviders
  let triggerStatus ← get Setting.triggerStatus
  let fieldProviderGroupID ← get Setting.fieldProviderGroupID
  let fieldRole ← get Setting.fieldRole
  let fieldProject ← get Setting.fieldProject
  let identityProviderID ← get Setting.identityProviderID
  let namespace_ ← get Setting.namespace_
  let apiGroup ← get Setting.apiGroup
  let apiVersion ← get Setting.apiVersion
  let fieldManager ← get Setting.fieldManager
  let syncTimeout ← get Setting.syncTimeout
  let kubeconfig ← get Setting.kubeconfig
  pure
    { addr, adminAddr, readTimeout, readHeaderTimeout, writeTimeout, idleTimeout, shutdownTimeout,
      maxBodyBytes, signingSecret := [], signatureHeader, timestampHeader, timestampSkew,
      rateLimitRPS, rateLimitBurst, logLevel, logFormat, tracingEnabled, tracingSampleRatio,
      pprofEnabled, serviceName, serviceVersion, enabledProviders,
      jsm := { triggerStatus, fieldProviderGroupID, fieldRole, fieldProject, identityProviderID },
      cr := { namespace_, apiGroup, apiVersion, fieldManager, syncTimeout }, kubeconfig }

/-! ## Load -/

/-- `loader`: its state is the first error. -/
abbrev Loader := StateM (Option LoadError)

/-- A lookup of the loader. -/
def lookup (env : Env) {α : Type} (s : Setting α) : Loader α := fun l =>
  match l with
  -- After an error nothing is parsed any more, so that the first one is reported.
  | some e => (s.fallback, some e)
  | none =>
    match env s.name with
    | none => (s.fallback, none)
    | some v =>
      match s.parse v with
      | .ok a => (a, none)
      | .error e => (s.fallback, some e)

/-- `if bad { return e }`. -/
def failIf (bad : Prop) [Decidable bad] (e : LoadError) : Except LoadError Unit :=
  if bad then .error e else .ok ()

/-- `validate`. -/
def validate (cfg : Config) : Except LoadError Unit := do
  failIf (cfg.tracingSampleRatio.lt (.fin 0) ∨ Float64.lt (.fin 1) cfg.tracingSampleRatio)
    (.sampleRatio cfg.tracingSampleRatio)
  failIf (cfg.logFormat ≠ lit "json" ∧ cfg.logFormat ≠ lit "text") (.logFormat cfg.logFormat)
  failIf (cfg.maxBodyBytes ≤ 0) (.maxBodyBytes cfg.maxBodyBytes)
  failIf (cfg.rateLimitRPS.le (.fin 0)) (.rateLimitRPS cfg.rateLimitRPS)
  failIf (cfg.rateLimitBurst ≤ 0) (.rateLimitBurst cfg.rateLimitBurst)
  failIf (cfg.cr.syncTimeout ≤ 0) (.syncTimeout cfg.cr.syncTimeout)
  failIf (cfg.cr.syncTimeout ≥ cfg.shutdownTimeout)
    (.syncTimeoutTooLong cfg.cr.syncTimeout cfg.shutdownTimeout)
  if cfg.providerEnabled (lit "jsm") then
    failIf (cfg.jsm.fieldProviderGroupID = [] ∨ cfg.jsm.fieldRole = [] ∨ cfg.jsm.fieldProject = [])
      .jsmFieldsRequired
    failIf (cfg.jsm.identityProviderID = []) .identityProviderIDRequired

/-- What `Load` does once the lookups are done. -/
def finish (env : Env) (cfg : Config) : Except LoadError Config :=
  -- `os.Getenv`, for which unset and empty are the same.
  let secret := (env "WEBHOOK_SIGNING_SECRET").getD []
  if secret = [] then .error .signingSecretRequired
  else do
    let cfg := { cfg with signingSecret := secret }
    validate cfg
    pure cfg

/-- What a fresh loader ends with. -/
def Loader.result {α : Type} (m : Loader α) : Except LoadError α :=
  match m none with
  | (_, some e) => .error e
  | (a, none) => .ok a

/-- `Load`. -/
def load (env : Env) : Except LoadError Config :=
  Loader.result (readConfig (lookup env)) >>= finish env

/-! ## What Load computes -/

/-- The value of a setting in an environment. -/
def Setting.value (env : Env) {α : Type} (s : Setting α) : Except LoadError α :=
  match env s.name with
  | none => .ok s.fallback
  | some v => s.parse v

/-- A variable that is not set has its default. -/
theorem Setting.value_of_none {env : Env} {α : Type} {s : Setting α} (h : env s.name = none) :
    s.value env = .ok s.fallback := by
  rw [Setting.value, h]

/-- A variable that is set is parsed. -/
theorem Setting.value_of_some {env : Env} {α : Type} {s : Setting α} {v : GoString}
    (h : env s.name = some v) : s.value env = s.parse v := by
  rw [Setting.value, h]

/-- The loader computes `x`: it keeps an error, and otherwise ends with the
    value or with the error of `x`. -/
structure Refines {α : Type} (m : Loader α) (x : Except LoadError α) : Prop where
  sticky : ∀ e, (m (some e)).2 = some e
  ok : ∀ a, x = .ok a → m none = (a, none)
  error : ∀ e, x = .error e → (m none).2 = some e

namespace Refines

variable {α β : Type}

theorem pure (a : α) : Refines (Pure.pure a) (Pure.pure a) where
  sticky _ := rfl
  ok _ h := by cases h; rfl
  error _ h := by cases h

/-- A loader goes on after an error, but what it reads from then on does not count. -/
theorem bind {m : Loader α} {x : Except LoadError α} {k : α → Loader β}
    {f : α → Except LoadError β} (h : Refines m x) (hk : ∀ a, Refines (k a) (f a)) :
    Refines (m >>= k) (x >>= f) where
  -- The bind of a state monad goes on with the state, so also after an error.
  sticky e := by
    change (k (m (some e)).1 (m (some e)).2).2 = some e
    rw [h.sticky, (hk _).sticky]
  ok b hb := by
    cases x with
    | error e => cases hb
    | ok a =>
      change k (m none).1 (m none).2 = (b, none)
      rw [h.ok a rfl]
      exact (hk a).ok b hb
  error e he := by
    change (k (m none).1 (m none).2).2 = some e
    cases x with
    | error e' =>
      cases he
      rw [h.error e rfl, (hk _).sticky]
    | ok a =>
      rw [h.ok a rfl]
      exact (hk a).error e he

/-- A lookup remembers the error of the parser, unless there was one before. -/
theorem lookup (env : Env) (s : Setting α) : Refines (Webhookd.lookup env s) (s.value env) := by
  cases hv : env s.name with
  | none =>
    have hrun : Webhookd.lookup env s none = (s.fallback, none) := by
      simp only [Webhookd.lookup, hv]
    rw [Setting.value_of_none hv]
    refine ⟨fun _ => rfl, fun a h => ?_, fun e h => by cases h⟩
    rw [hrun, Except.ok.inj h]
  | some v =>
    rw [Setting.value_of_some hv]
    refine ⟨fun _ => rfl, fun a h => ?_, fun e h => ?_⟩
    · simp only [Webhookd.lookup, hv, h]
    · simp only [Webhookd.lookup, hv, h]

/-- What is loaded is the value, or the first error. -/
theorem result_eq {m : Loader α} {x : Except LoadError α} (h : Refines m x) : m.result = x := by
  unfold Loader.result
  cases x with
  | error e =>
    have he := h.error e rfl
    split <;> rename_i heq <;> rw [heq] at he <;> cases he
    rfl
  | ok a => rw [h.ok a rfl]

/-- Reading a configuration by the loader computes its reading by values. -/
theorem readConfig (env : Env) :
    Refines (Webhookd.readConfig (Webhookd.lookup env))
      (Webhookd.readConfig (Setting.value env)) := by
  unfold Webhookd.readConfig
  repeat refine bind (lookup env _) fun _ => ?_
  exact pure _

end Refines

/-- `Load` stops at the first setting without a value, in the order of the
    lookups, then reads the signing secret and validates. -/
theorem load_eq (env : Env) : load env = readConfig (Setting.value env) >>= finish env := by
  rw [load, (Refines.readConfig env).result_eq]

/-- The fields of a configuration are the values of their settings. -/
structure Parsed (env : Env) (cfg : Config) : Prop where
  addr : Setting.addr.value env = .ok cfg.addr
  adminAddr : Setting.adminAddr.value env = .ok cfg.adminAddr
  readTimeout : Setting.readTimeout.value env = .ok cfg.readTimeout
  readHeaderTimeout : Setting.readHeaderTimeout.value env = .ok cfg.readHeaderTimeout
  writeTimeout : Setting.writeTimeout.value env = .ok cfg.writeTimeout
  idleTimeout : Setting.idleTimeout.value env = .ok cfg.idleTimeout
  shutdownTimeout : Setting.shutdownTimeout.value env = .ok cfg.shutdownTimeout
  maxBodyBytes : Setting.maxBodyBytes.value env = .ok cfg.maxBodyBytes
  signatureHeader : Setting.signatureHeader.value env = .ok cfg.signatureHeader
  timestampHeader : Setting.timestampHeader.value env = .ok cfg.timestampHeader
  timestampSkew : Setting.timestampSkew.value env = .ok cfg.timestampSkew
  rateLimitRPS : Setting.rateLimitRPS.value env = .ok cfg.rateLimitRPS
  rateLimitBurst : Setting.rateLimitBurst.value env = .ok cfg.rateLimitBurst
  logFormat : Setting.logFormat.value env = .ok cfg.logFormat
  logLevel : Setting.logLevel.value env = .ok cfg.logLevel
  tracingEnabled : Setting.tracingEnabled.value env = .ok cfg.tracingEnabled
  tracingSampleRatio : Setting.tracingSampleRatio.value env = .ok cfg.tracingSampleRatio
  pprofEnabled : Setting.pprofEnabled.value env = .ok cfg.pprofEnabled
  serviceName : Setting.serviceName.value env = .ok cfg.serviceName
  serviceVersion : Setting.serviceVersion.value env = .ok cfg.serviceVersion
  enabledProviders : Setting.enabledProviders.value env = .ok cfg.enabledProviders
  triggerStatus : Setting.triggerStatus.value env = .ok cfg.jsm.triggerStatus
  fieldProviderGroupID : Setting.fieldProviderGroupID.value env = .ok cfg.jsm.fieldProviderGroupID
  fieldRole : Setting.fieldRole.value env = .ok cfg.jsm.fieldRole
  fieldProject : Setting.fieldProject.value env = .ok cfg.jsm.fieldProject
  identityProviderID : Setting.identityProviderID.value env = .ok cfg.jsm.identityProviderID
  namespace_ : Setting.namespace_.value env = .ok cfg.cr.namespace_
  apiGroup : Setting.apiGroup.value env = .ok cfg.cr.apiGroup
  apiVersion : Setting.apiVersion.value env = .ok cfg.cr.apiVersion
  fieldManager : Setting.fieldManager.value env = .ok cfg.cr.fieldManager
  syncTimeout : Setting.syncTimeout.value env = .ok cfg.cr.syncTimeout
  kubeconfig : Setting.kubeconfig.value env = .ok cfg.kubeconfig

theorem bind_eq_ok {ε α β : Type} {x : Except ε α} {f : α → Except ε β} {b : β}
    (h : x >>= f = .ok b) : ∃ a, x = .ok a ∧ f a = .ok b := by
  cases x with
  | error e => cases h
  | ok a => exact ⟨a, rfl, h⟩

/-- Two steps fail where the first or the second one does. -/
theorem bind_eq_error {ε α β : Type} {x : Except ε α} {f : α → Except ε β} {e : ε} :
    x >>= f = .error e ↔ x = .error e ∨ ∃ a, x = .ok a ∧ f a = .error e := by
  cases x with
  | error e' => simp [bind, Except.bind]
  | ok a => simp [bind, Except.bind]

/-- Each field of the configuration has the value of its variable. -/
theorem parsed_of_readConfig {env : Env} {cfg : Config}
    (h : readConfig (Setting.value env) = .ok cfg) : Parsed env cfg := by
  unfold readConfig at h
  obtain ⟨addr, h0, h⟩ := bind_eq_ok h
  obtain ⟨adminAddr, h1, h⟩ := bind_eq_ok h
  obtain ⟨readTimeout, h2, h⟩ := bind_eq_ok h
  obtain ⟨readHeaderTimeout, h3, h⟩ := bind_eq_ok h
  obtain ⟨writeTimeout, h4, h⟩ := bind_eq_ok h
  obtain ⟨idleTimeout, h5, h⟩ := bind_eq_ok h
  obtain ⟨shutdownTimeout, h6, h⟩ := bind_eq_ok h
  obtain ⟨maxBodyBytes, h7, h⟩ := bind_eq_ok h
  obtain ⟨signatureHeader, h8, h⟩ := bind_eq_ok h
  obtain ⟨timestampHeader, h9, h⟩ := bind_eq_ok h
  obtain ⟨timestampSkew, h10, h⟩ := bind_eq_ok h
  obtain ⟨rateLimitRPS, h11, h⟩ := bind_eq_ok h
  obtain ⟨rateLimitBurst, h12, h⟩ := bind_eq_ok h
  obtain ⟨logFormat, h13, h⟩ := bind_eq_ok h
  obtain ⟨logLevel, h14, h⟩ := bind_eq_ok h
  obtain ⟨tracingEnabled, h15, h⟩ := bind_eq_ok h
  obtain ⟨tracingSampleRatio, h16, h⟩ := bind_eq_ok h
  obtain ⟨pprofEnabled, h17, h⟩ := bind_eq_ok h
  obtain ⟨serviceName, h18, h⟩ := bind_eq_ok h
  obtain ⟨serviceVersion, h19, h⟩ := bind_eq_ok h
  obtain ⟨enabledProviders, h20, h⟩ := bind_eq_ok h
  obtain ⟨triggerStatus, h21, h⟩ := bind_eq_ok h
  obtain ⟨fieldProviderGroupID, h22, h⟩ := bind_eq_ok h
  obtain ⟨fieldRole, h23, h⟩ := bind_eq_ok h
  obtain ⟨fieldProject, h24, h⟩ := bind_eq_ok h
  obtain ⟨identityProviderID, h25, h⟩ := bind_eq_ok h
  obtain ⟨namespace_, h26, h⟩ := bind_eq_ok h
  obtain ⟨apiGroup, h27, h⟩ := bind_eq_ok h
  obtain ⟨apiVersion, h28, h⟩ := bind_eq_ok h
  obtain ⟨fieldManager, h29, h⟩ := bind_eq_ok h
  obtain ⟨syncTimeout, h30, h⟩ := bind_eq_ok h
  obtain ⟨kubeconfig, h31, h⟩ := bind_eq_ok h
  cases h
  exact ⟨h0, h1, h2, h3, h4, h5, h6, h7, h8, h9, h10, h11, h12, h13, h14, h15, h16,
    h17, h18, h19, h20, h21, h22, h23, h24, h25, h26, h27, h28, h29, h30, h31⟩

/-- An accepted configuration: its fields are the values of their settings, the
    signing secret is set, and `validate` passes. -/
theorem load_ok {env : Env} {cfg : Config} (h : load env = .ok cfg) :
    Parsed env cfg ∧ env "WEBHOOK_SIGNING_SECRET" = some cfg.signingSecret ∧
      cfg.signingSecret ≠ [] ∧ validate cfg = .ok () := by
  rw [load_eq] at h
  obtain ⟨c, hc, h⟩ := bind_eq_ok h
  have hp := parsed_of_readConfig hc
  unfold finish at h
  cases hs : env "WEBHOOK_SIGNING_SECRET" with
  | none => simp [hs] at h
  | some secret =>
    simp only [hs, Option.getD_some] at h
    split_ifs at h with hne
    obtain ⟨_, hv, h⟩ := bind_eq_ok h
    cases h
    exact ⟨{ hp with }, rfl, hne, hv⟩

theorem failIf_ok {bad : Prop} [Decidable bad] {e : LoadError} {u : Unit}
    (h : failIf bad e = .ok u) : ¬bad := by
  unfold failIf at h
  split_ifs at h with hb
  exact hb

/-- The checks of `validate`, as the source has them: each is the negation of a
    condition to fail on. -/
structure Validated (cfg : Config) : Prop where
  sampleRatio : ¬(cfg.tracingSampleRatio.lt (.fin 0) ∨ Float64.lt (.fin 1) cfg.tracingSampleRatio)
  logFormat : ¬(cfg.logFormat ≠ lit "json" ∧ cfg.logFormat ≠ lit "text")
  maxBodyBytes : ¬cfg.maxBodyBytes ≤ 0
  rateLimitRPS : ¬cfg.rateLimitRPS.le (.fin 0)
  rateLimitBurst : ¬cfg.rateLimitBurst ≤ 0
  syncTimeout : ¬cfg.cr.syncTimeout ≤ 0
  shutdownTimeout : ¬cfg.cr.syncTimeout ≥ cfg.shutdownTimeout
  jsm : cfg.providerEnabled (lit "jsm") →
    ¬(cfg.jsm.fieldProviderGroupID = [] ∨ cfg.jsm.fieldRole = [] ∨ cfg.jsm.fieldProject = []) ∧
      cfg.jsm.identityProviderID ≠ []

/-- A configuration that passes the checks is none of what they look for. -/
theorem validated_of_ok {cfg : Config} (h : validate cfg = .ok ()) : Validated cfg := by
  unfold validate at h
  obtain ⟨_, hratio, h⟩ := bind_eq_ok h
  obtain ⟨_, hformat, h⟩ := bind_eq_ok h
  obtain ⟨_, hbody, h⟩ := bind_eq_ok h
  obtain ⟨_, hrps, h⟩ := bind_eq_ok h
  obtain ⟨_, hburst, h⟩ := bind_eq_ok h
  obtain ⟨_, hsync, h⟩ := bind_eq_ok h
  obtain ⟨_, hshut, h⟩ := bind_eq_ok h
  refine ⟨failIf_ok hratio, failIf_ok hformat, failIf_ok hbody, failIf_ok hrps, failIf_ok hburst,
    failIf_ok hsync, failIf_ok hshut, fun hjsm => ?_⟩
  rw [if_pos hjsm] at h
  obtain ⟨_, hfields, h⟩ := bind_eq_ok h
  exact ⟨failIf_ok hfields, failIf_ok h⟩

/-- What the request handling relies on, among what is checked. -/
theorem validate_ok {cfg : Config} (h : validate cfg = .ok ()) :
    0 < cfg.maxBodyBytes ∧ 0 < cfg.cr.syncTimeout ∧ cfg.cr.syncTimeout < cfg.shutdownTimeout ∧
      (cfg.providerEnabled (lit "jsm") → cfg.jsm.fieldProviderGroupID ≠ [] ∧
        cfg.jsm.fieldRole ≠ [] ∧ cfg.jsm.fieldProject ≠ [] ∧ cfg.jsm.identityProviderID ≠ []) := by
  have hv := validated_of_ok h
  refine ⟨not_le.1 hv.maxBodyBytes, not_le.1 hv.syncTimeout, not_le.1 hv.shutdownTimeout,
    fun hjsm => ?_⟩
  obtain ⟨hfields, hidp⟩ := hv.jsm hjsm
  push Not at hfields
  exact ⟨hfields.1, hfields.2.1, hfields.2.2, hidp⟩

/-- An environment that sets what is required, and more. -/
def sampleEnv (more : List (GoString × GoString)) : Env :=
  GoMap.ofList ([(lit "WEBHOOK_SIGNING_SECRET", lit "secret"),
    (lit "WEBHOOK_JSM_FIELD_PROVIDER_GROUP_ID", lit "customfield_1"),
    (lit "WEBHOOK_JSM_FIELD_ROLE", lit "customfield_2"),
    (lit "WEBHOOK_JSM_FIELD_PROJECT", lit "customfield_3"),
    (lit "WEBHOOK_JSM_IDENTITY_PROVIDER_ID", lit "idp")] ++ more)

/-- The same variables, by their names. -/
def sampleVars (more : List (String × GoString)) : List (String × GoString) :=
  [("WEBHOOK_SIGNING_SECRET", lit "secret"),
    ("WEBHOOK_JSM_FIELD_PROVIDER_GROUP_ID", lit "customfield_1"),
    ("WEBHOOK_JSM_FIELD_ROLE", lit "customfield_2"),
    ("WEBHOOK_JSM_FIELD_PROJECT", lit "customfield_3"),
    ("WEBHOOK_JSM_IDENTITY_PROVIDER_ID", lit "idp")] ++ more

/-- The value of a setting among variables that are given by their names. -/
def Setting.among (vars : List (String × GoString)) {α : Type} (s : Setting α) :
    Except LoadError α :=
  match vars.lookup s.name with
  | none => .ok s.fallback
  | some v => s.parse v

/-- In a sample, a variable is looked up among those that are listed, the last one first.
    -/
theorem value_sampleEnv (more : List (String × GoString)) {α : Type} (s : Setting α) :
    s.value (sampleEnv (more.map fun e => (lit e.1, e.2))) =
      s.among (sampleVars more).reverse := by
  have henv : sampleEnv (more.map fun e => (lit e.1, e.2)) s.name =
      (sampleVars more).reverse.lookup s.name := by
    rw [← GoMap.ofList_lit, sampleVars, List.map_append]
    rfl
  rw [Setting.value, henv, Setting.among]

/-- The configuration of a sample, which is evaluated without encoding the names. -/
theorem load_of_any (more : List (String × GoString)) (p : Config → Bool)
    (h : (readConfig (Setting.among (sampleVars more).reverse) >>=
      finish (sampleEnv (more.map fun e => (lit e.1, e.2)))).toOption.any p = true) :
    ∃ cfg, load (sampleEnv (more.map fun e => (lit e.1, e.2))) = .ok cfg ∧ p cfg = true := by
  have hget : (fun α => Setting.value (sampleEnv (more.map fun e => (lit e.1, e.2))) (α := α)) =
      fun α => Setting.among (sampleVars more).reverse (α := α) := by
    ext α s
    rw [value_sampleEnv]
  have hload := (load_eq _).trans (congrArg (fun get => readConfig (get _) >>=
    finish (sampleEnv (more.map fun e => (lit e.1, e.2)))) hget)
  rw [← hload] at h
  cases hl : load (sampleEnv (more.map fun e => (lit e.1, e.2))) with
  | error e =>
    rw [hl] at h
    cases h
  | ok cfg =>
    rw [hl] at h
    exact ⟨cfg, rfl, h⟩

/-- The sample is loaded, with the defaults. -/
theorem load_sampleEnv :
    ∃ cfg, load (sampleEnv []) = .ok cfg ∧ cfg.enabledProviders = [lit "jsm"] ∧
      cfg.writeTimeout = 10 * second ∧ cfg.cr.syncTimeout = 20 * second := by
  obtain ⟨cfg, hl, hp⟩ := load_of_any [] (fun cfg =>
    cfg.enabledProviders = [lit "jsm"] ∧ cfg.writeTimeout = 10 * second ∧
      cfg.cr.syncTimeout = 20 * second) (by decide +kernel)
  exact ⟨cfg, hl, of_decide_eq_true hp⟩

end Webhookd
