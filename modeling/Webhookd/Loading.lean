import Webhookd.Config

/-!
# The soundness of Load

What is known of a configuration that `Load` returns, and which error it returns
when there is none.

* The lookups fail at the first malformed variable, in the order in which they
  are declared (`declared`), and with an error that names it.
* Their fallbacks are the defaults that the README documents (`documented`).
* The conditions that `validate` fails on are comparisons, all of them false of a
  float that is not a number. An accepted configuration is in range (`InRange`)
  if and only if neither of its two floats is given as one (`load_sound`).
-/

namespace Webhookd

open Go

/-! ## The first malformed variable -/

namespace Setting

variable {α : Type}

theorem orMalformed_eq_ok {name : String} {o : Option α} {a : α} :
    orMalformed name o = .ok a ↔ o = some a := by
  cases o <;> simp [orMalformed]

/-- The variable is set to a text that cannot be parsed. -/
def Malformed (env : Env) (s : Setting α) : Prop :=
  ∃ v e, env s.name = some v ∧ s.parse v = .error e

/-- The error of a lookup. -/
def error (env : Env) (s : Setting α) : Option LoadError :=
  match s.value env with
  | .ok _ => none
  | .error e => some e

/-- A lookup fails if its variable is set to what its parser refuses. -/
theorem error_eq_some {env : Env} {s : Setting α} {e : LoadError} :
    s.error env = some e ↔ ∃ v, env s.name = some v ∧ s.parse v = .error e := by
  cases hv : env s.name with
  | none => simp [error, value_of_none hv]
  | some v => cases hp : s.parse v <;> simp [error, value_of_some hv, hp]

/-- This is what it means to be malformed. -/
theorem malformed_iff {env : Env} {s : Setting α} :
    s.Malformed env ↔ ∃ e, s.error env = some e := by
  simp only [error_eq_some, Malformed]
  exact exists_comm

end Setting

/-- The settings of `Load`, in the order of its lookups. -/
def declared : List ((α : Type) × Setting α) :=
  [⟨_, Setting.addr⟩, ⟨_, Setting.adminAddr⟩, ⟨_, Setting.readTimeout⟩,
    ⟨_, Setting.readHeaderTimeout⟩, ⟨_, Setting.writeTimeout⟩, ⟨_, Setting.idleTimeout⟩,
    ⟨_, Setting.shutdownTimeout⟩, ⟨_, Setting.maxBodyBytes⟩, ⟨_, Setting.signatureHeader⟩,
    ⟨_, Setting.timestampHeader⟩, ⟨_, Setting.timestampSkew⟩, ⟨_, Setting.rateLimitRPS⟩,
    ⟨_, Setting.rateLimitBurst⟩, ⟨_, Setting.logFormat⟩, ⟨_, Setting.logLevel⟩,
    ⟨_, Setting.tracingEnabled⟩, ⟨_, Setting.tracingSampleRatio⟩, ⟨_, Setting.pprofEnabled⟩,
    ⟨_, Setting.serviceName⟩, ⟨_, Setting.serviceVersion⟩, ⟨_, Setting.enabledProviders⟩,
    ⟨_, Setting.triggerStatus⟩, ⟨_, Setting.fieldProviderGroupID⟩, ⟨_, Setting.fieldRole⟩,
    ⟨_, Setting.fieldProject⟩, ⟨_, Setting.identityProviderID⟩, ⟨_, Setting.namespace_⟩,
    ⟨_, Setting.apiGroup⟩, ⟨_, Setting.apiVersion⟩, ⟨_, Setting.fieldManager⟩,
    ⟨_, Setting.syncTimeout⟩, ⟨_, Setting.kubeconfig⟩]

/-- The first error of some lookups. -/
def firstError (env : Env) (l : List ((α : Type) × Setting α)) : Option LoadError :=
  l.findSome? fun s => s.2.error env

/-- A computation fails with the first error of some lookups. -/
def Stops (env : Env) {α : Type} (x : Except LoadError α) (l : List ((α : Type) × Setting α)) :
    Prop :=
  ∀ e, firstError env l = some e → x = .error e

namespace Stops

variable {α β : Type} {env : Env}

theorem pure (a : α) : Stops env (Pure.pure a) [] := by
  intro e h
  cases h

/-- A lookup that fails stops the rest. -/
theorem bind {s : Setting α} {k : α → Except LoadError β} {l : List ((α : Type) × Setting α)}
    (hk : ∀ a, Stops env (k a) l) : Stops env (s.value env >>= k) (⟨α, s⟩ :: l) := by
  intro e h
  rw [firstError, List.findSome?_cons] at h
  simp only [Setting.error] at h
  cases hv : s.value env with
  | error e' =>
    simp only [hv, Option.some.injEq] at h
    rw [h]
    rfl
  | ok a =>
    simp only [hv] at h
    exact hk a e h

/-- Reading a configuration fails with the first error of its lookups. -/
theorem readConfig (env : Env) :
    Stops env (Webhookd.readConfig (Setting.value env)) declared := by
  unfold Webhookd.readConfig declared
  repeat refine bind fun _ => ?_
  exact pure _

end Stops

/-- So does loading it. -/
theorem load_error {env : Env} {e : LoadError} (h : firstError env declared = some e) :
    load env = .error e := by
  rw [load_eq, Stops.readConfig env e h]
  rfl

/-- The text of the error starts with the name of a variable. -/
def LoadError.Names (e : LoadError) (name : String) : Prop := ∃ rest, e.text = name ++ ": " ++ rest

namespace Setting

variable {α : Type}

/-- The errors of the parser name the variable. -/
def NamesErrors (s : Setting α) : Prop := ∀ v e, s.parse v = .error e → e.Names s.name

/-- A parser that does not fail has no errors. -/
theorem namesErrors_of_ok {s : Setting α} (f : GoString → α) (hs : s.parse = fun v => .ok (f v)) :
    s.NamesErrors := by
  intro v e h
  rw [hs] at h
  cases h

/-- A parser whose failure is `malformed` names its variable. -/
theorem namesErrors_of_orMalformed {s : Setting α} (f : GoString → Option α)
    (hs : s.parse = fun v => orMalformed s.name (f v)) : s.NamesErrors := by
  intro v e h
  rw [hs] at h
  cases hf : f v with
  | some a =>
    simp only [hf, orMalformed] at h
    cases h
  | none =>
    simp only [hf, orMalformed, Except.error.injEq] at h
    subst h
    exact ⟨"", String.append_empty.symm⟩

theorem namesErrors_level (name : String) (fallback : Level) :
    (level name fallback).NamesErrors := by
  intro v e h
  cases hl : levelOf (toLower v) with
  | some l =>
    simp only [level, hl, Option.map_some, Option.getD_some] at h
    cases h
  | none =>
    simp only [level, hl, Option.map_none, Option.getD_none, Except.error.injEq] at h
    subst h
    exact ⟨"unknown level ", by rw [String.append_assoc]; rfl⟩

end Setting

/-- All errors of the lookups name their variable. -/
theorem namesErrors_declared : ∀ s ∈ declared, s.2.NamesErrors := by
  have hstr (name fallback : String) : (Setting.str name fallback).NamesErrors :=
    Setting.namesErrors_of_ok id rfl
  have hdur (name : String) (fallback : Duration) : (Setting.dur name fallback).NamesErrors :=
    Setting.namesErrors_of_orMalformed _ rfl
  have hint (name : String) (fallback : Int) : (Setting.i64 name fallback).NamesErrors :=
    Setting.namesErrors_of_orMalformed _ rfl
  have hfloat (name : String) (fallback : Float64) : (Setting.f64 name fallback).NamesErrors :=
    Setting.namesErrors_of_orMalformed _ rfl
  have hbool (name : String) (fallback : Bool) : (Setting.boolean name fallback).NamesErrors :=
    Setting.namesErrors_of_orMalformed _ rfl
  have hcsv (name : String) (fallback : List GoString) :
      (Setting.csv name fallback).NamesErrors :=
    Setting.namesErrors_of_ok Setting.csvEntries rfl
  simp only [declared, List.forall_mem_cons]
  exact ⟨hstr _ _, hstr _ _, hdur _ _, hdur _ _, hdur _ _, hdur _ _, hdur _ _, hint _ _, hstr _ _,
    hstr _ _, hdur _ _, hfloat _ _, hint _ _, hstr _ _, Setting.namesErrors_level _ _, hbool _ _,
    hfloat _ _, hbool _ _, hstr _ _, hstr _ _, hcsv _ _, hstr _ _, hstr _ _, hstr _ _, hstr _ _,
    hstr _ _, hstr _ _, hstr _ _, hstr _ _, hstr _ _, hdur _ _, hstr _ _, List.forall_mem_nil _⟩

/-- With a malformed variable, `Load` fails and names the first one. -/
theorem load_malformed {env : Env} {s : (α : Type) × Setting α} (hs : s ∈ declared)
    (hm : s.2.Malformed env) :
    ∃ before first after e, declared = before ++ first :: after ∧
      (∀ t ∈ before, ¬t.2.Malformed env) ∧ first.2.Malformed env ∧ load env = .error e ∧
      e.Names first.2.name := by
  obtain ⟨e₀, he₀⟩ := Setting.malformed_iff.mp hm
  have hsome : (firstError env declared).isSome :=
    List.findSome?_isSome_iff.mpr ⟨s, hs, by rw [he₀]; rfl⟩
  obtain ⟨e, he⟩ := Option.isSome_iff_exists.mp hsome
  obtain ⟨before, first, after, hl, hfirst, hbefore⟩ := List.findSome?_eq_some_iff.mp he
  refine ⟨before, first, after, e, hl, ?_, Setting.malformed_iff.mpr ⟨e, hfirst⟩, load_error he, ?_⟩
  · intro t ht hmal
    obtain ⟨e', he'⟩ := Setting.malformed_iff.mp hmal
    rw [hbefore t ht] at he'
    cases he'
  · obtain ⟨v, -, hv⟩ := Setting.error_eq_some.mp hfirst
    have hmem : first ∈ declared := by
      rw [hl]
      exact List.mem_append_right _ List.mem_cons_self
    exact namesErrors_declared first hmem v e hv

/-! ## Documented defaults -/

/-- The defaults in the table of the README. The identifiers that are required
    with JSM have none there; unset, they are empty. -/
def documented : List (String × String) :=
  [("WEBHOOK_ADDR", ":8080"), ("WEBHOOK_ADMIN_ADDR", ":9090"), ("WEBHOOK_READ_TIMEOUT", "5s"),
    ("WEBHOOK_READ_HEADER_TIMEOUT", "2s"), ("WEBHOOK_WRITE_TIMEOUT", "10s"),
    ("WEBHOOK_IDLE_TIMEOUT", "60s"), ("WEBHOOK_SHUTDOWN_TIMEOUT", "25s"),
    ("WEBHOOK_MAX_BODY_BYTES", "1048576"), ("WEBHOOK_SIGNATURE_HEADER", "X-Webhook-Signature"),
    ("WEBHOOK_TIMESTAMP_HEADER", "X-Webhook-Timestamp"), ("WEBHOOK_TIMESTAMP_SKEW", "5m"),
    ("WEBHOOK_RATE_LIMIT_RPS", "100"), ("WEBHOOK_RATE_LIMIT_BURST", "200"),
    ("WEBHOOK_LOG_LEVEL", "info"), ("WEBHOOK_LOG_FORMAT", "json"),
    ("WEBHOOK_TRACING_ENABLED", "true"), ("WEBHOOK_TRACING_SAMPLE_RATIO", "1.0"),
    ("WEBHOOK_PPROF_ENABLED", "true"), ("OTEL_SERVICE_NAME", "webhookd"),
    ("OTEL_SERVICE_VERSION", ""), ("WEBHOOK_PROVIDERS", "jsm"), ("WEBHOOK_KUBECONFIG", ""),
    ("WEBHOOK_JSM_TRIGGER_STATUS", "Ready to Provision"),
    ("WEBHOOK_JSM_FIELD_PROVIDER_GROUP_ID", ""), ("WEBHOOK_JSM_FIELD_ROLE", ""),
    ("WEBHOOK_JSM_FIELD_PROJECT", ""), ("WEBHOOK_CR_NAMESPACE", "wiz-operator"),
    ("WEBHOOK_CR_API_GROUP", "wiz.webhookd.io"), ("WEBHOOK_CR_API_VERSION", "v1alpha1"),
    ("WEBHOOK_CR_FIELD_MANAGER", "webhookd"), ("WEBHOOK_CR_SYNC_TIMEOUT", "20s"),
    ("WEBHOOK_JSM_IDENTITY_PROVIDER_ID", "")]

/-- The fallback of a setting is its documented default, parsed. -/
def Setting.Documented {α : Type} (s : Setting α) : Prop :=
  ∃ text, documented.lookup s.name = some text ∧ s.parse text = .ok s.fallback

/-- All defaults are those of the README. -/
theorem documented_declared : ∀ s ∈ declared, s.2.Documented := by
  simp only [declared, List.forall_mem_cons]
  and_intros
  on_goal 33 => exact List.forall_mem_nil _
  all_goals refine ⟨_, rfl, ?_⟩
  all_goals decide +kernel

/-! ## Ranges -/

/-- What is wanted of a configuration: a secret to verify with, and each setting
    in its range. -/
structure InRange (cfg : Config) : Prop where
  signingSecret : cfg.signingSecret ≠ []
  sampleRatio : Float64.le (.fin 0) cfg.tracingSampleRatio ∧ cfg.tracingSampleRatio.le (.fin 1)
  rateLimitRPS : Float64.lt (.fin 0) cfg.rateLimitRPS
  rateLimitBurst : 0 < cfg.rateLimitBurst
  maxBodyBytes : 0 < cfg.maxBodyBytes
  logFormat : cfg.logFormat = lit "json" ∨ cfg.logFormat = lit "text"
  syncTimeout : 0 < cfg.cr.syncTimeout ∧ cfg.cr.syncTimeout < cfg.shutdownTimeout
  jsm : lit "jsm" ∈ cfg.enabledProviders → cfg.jsm.fieldProviderGroupID ≠ [] ∧
    cfg.jsm.fieldRole ≠ [] ∧ cfg.jsm.fieldProject ≠ [] ∧ cfg.jsm.identityProviderID ≠ []

/-- A configuration that passes the checks is in range, but for a float that is
    not a number. -/
theorem inRange_iff {cfg : Config} (hsecret : cfg.signingSecret ≠ [])
    (hv : validate cfg = .ok ()) :
    InRange cfg ↔ cfg.tracingSampleRatio ≠ .nan ∧ cfg.rateLimitRPS ≠ .nan := by
  have hc := validated_of_ok hv
  obtain ⟨hbody, hsync, hshut, hjsm⟩ := validate_ok hv
  constructor
  · intro h
    constructor
    · intro hnan
      have hle := h.sampleRatio.1
      rw [hnan, Float64.le_nan] at hle
      cases hle
    · intro hnan
      have hlt := h.rateLimitRPS
      rw [hnan, Float64.lt_nan] at hlt
      cases hlt
  · rintro ⟨hratio, hrps⟩
    have hfin (q : ℚ) : Float64.fin q ≠ .nan := by
      intro h
      cases h
    have hrange := not_or.mp hc.sampleRatio
    refine ⟨hsecret, ⟨?_, ?_⟩, ?_, not_le.mp hc.rateLimitBurst, hbody, ?_, ⟨hsync, hshut⟩, hjsm⟩
    · rw [Float64.le_eq_not_lt (hfin 0) hratio, Bool.eq_false_of_not_eq_true hrange.1]
      rfl
    · rw [Float64.le_eq_not_lt hratio (hfin 1), Bool.eq_false_of_not_eq_true hrange.2]
      rfl
    · rw [Float64.lt_eq_not_le (hfin 0) hrps, Bool.eq_false_of_not_eq_true hc.rateLimitRPS]
      rfl
    · exact or_iff_not_and_not.mpr hc.logFormat

/-- A variable is not set to a text that is read as not a number. -/
def Numeric (env : Env) (name : String) : Prop := ∀ v, env name = some v → lowerASCII v ≠ lit "nan"

/-- A variable that is not set is no NaN text. -/
theorem numeric_of_unset {env : Env} {name : String} (h : env name = none) : Numeric env name := by
  intro v hv
  rw [h] at hv
  cases hv

/-- A number is no NaN if it is not spelled as one. -/
theorem numeric_iff {env : Env} {name : String} {fallback x : Float64} (hf : fallback ≠ .nan)
    (h : (Setting.f64 name fallback).value env = .ok x) : x ≠ .nan ↔ Numeric env name := by
  cases hv : env name with
  | none =>
    rw [Setting.value_of_none (s := Setting.f64 name fallback) hv] at h
    obtain rfl : fallback = x := Except.ok.inj h
    exact iff_of_true hf (numeric_of_unset hv)
  | some v =>
    rw [Setting.value_of_some (s := Setting.f64 name fallback) hv] at h
    have hp : parseFloat v = some x := Setting.orMalformed_eq_ok.mp h
    simp [Numeric, hv, ← parseFloat_eq_nan, hp]

/-- A configuration that `Load` returns has the values of its settings, the unset ones
    their documented defaults, and is in range unless a float is given as not a number.
    With a malformed variable there is none, and the error names the first one. -/
theorem load_sound (env : Env) :
    (∀ cfg, load env = .ok cfg →
      Parsed env cfg ∧ env "WEBHOOK_SIGNING_SECRET" = some cfg.signingSecret ∧
        (InRange cfg ↔ Numeric env "WEBHOOK_TRACING_SAMPLE_RATIO" ∧
          Numeric env "WEBHOOK_RATE_LIMIT_RPS")) ∧
    (∀ s ∈ declared, s.2.Documented) ∧
    (∀ s ∈ declared, s.2.Malformed env → ∃ before first after e,
      declared = before ++ first :: after ∧ (∀ t ∈ before, ¬t.2.Malformed env) ∧
        first.2.Malformed env ∧ load env = .error e ∧ e.Names first.2.name) := by
  refine ⟨fun cfg hload => ?_, documented_declared, fun s hs hm => load_malformed hs hm⟩
  obtain ⟨hp, hsecret, hne, hv⟩ := load_ok hload
  have hratio := numeric_iff (by decide) hp.tracingSampleRatio
  have hrps := numeric_iff (by decide) hp.rateLimitRPS
  exact ⟨hp, hsecret, (inRange_iff hne hv).trans (and_congr hratio hrps)⟩

theorem load_sound_sample :
    (∃ cfg, load (sampleEnv []) = .ok cfg ∧ InRange cfg) ∧
    ∃ first ∈ declared, ∃ e,
      load (sampleEnv [(lit "WEBHOOK_RATE_LIMIT_BURST", lit "many")]) = .error e ∧
      e.Names first.2.name := by
  constructor
  · obtain ⟨cfg, hl, -⟩ := load_sampleEnv
    obtain ⟨-, -, hrange⟩ := (load_sound (sampleEnv [])).1 cfg hl
    exact ⟨cfg, hl, hrange.mpr ⟨numeric_of_unset (by decide +kernel),
      numeric_of_unset (by decide +kernel)⟩⟩
  · obtain ⟨before, first, after, e, hd, -, -, hl, hn⟩ :=
      (load_sound (sampleEnv [(lit "WEBHOOK_RATE_LIMIT_BURST", lit "many")])).2.2
        ⟨_, Setting.rateLimitBurst⟩ (by simp [declared])
        ⟨lit "many", .malformed "WEBHOOK_RATE_LIMIT_BURST", by decide +kernel, rfl⟩
    refine ⟨first, ?_, e, hl, hn⟩
    rw [hd]
    exact List.mem_append_right _ List.mem_cons_self

/-- A text that is not a number passes both checks of a float. -/
theorem load_nan :
    ∃ cfg, load (sampleEnv [(lit "WEBHOOK_TRACING_SAMPLE_RATIO", lit "NaN"),
        (lit "WEBHOOK_RATE_LIMIT_RPS", lit "nan")]) = .ok cfg ∧
      cfg.tracingSampleRatio = .nan ∧ cfg.rateLimitRPS = .nan ∧ ¬InRange cfg := by
  obtain ⟨cfg, hl, hp⟩ := load_of_any
    [("WEBHOOK_TRACING_SAMPLE_RATIO", lit "NaN"), ("WEBHOOK_RATE_LIMIT_RPS", lit "nan")]
    (fun cfg => cfg.tracingSampleRatio = .nan ∧ cfg.rateLimitRPS = .nan) (by decide +kernel)
  obtain ⟨hratio, hrps⟩ := of_decide_eq_true hp
  refine ⟨cfg, hl, hratio, hrps, fun h => ?_⟩
  have hle := h.sampleRatio.1
  rw [hratio, Float64.le_nan] at hle
  cases hle

end Webhookd
