import Webhookd.Startup

/-!
# Booting

`run` in `main.go`, up to the start of the servers: the configuration is loaded,
the tracer provider is made and, if there are providers on the allow-list, the
clients for the API server and the dispatcher. What is asked of the libraries
for traces and for the API server either fails or does not (`Surroundings`).

* `build_defaultRegistry` is what the registry of the program builds;
* `boot_outcome`: which environments start the service, with which dispatcher,
  and which only start it disabled.
-/

namespace Webhookd

open Go

/-! ## The steps of `run` -/

/-- `wizapi.GroupVersion.Group`. -/
def groupVersionGroup : GoString := lit "wiz.webhookd.io"

/-- What is asked of the libraries. An error is its text. -/
structure Surroundings where
  /-- `resource.New` -/
  newResource : Config → Except GoString Unit
  /-- `otlptracehttp.New` -/
  newExporter : Except GoString Unit
  /-- `clientcmd.BuildConfigFromFlags("", kubeconfigPath)` -/
  buildConfigFromFlags : GoString → Except GoString Unit
  /-- `ctrl.GetConfig` -/
  getConfig : Except GoString Unit
  /-- `client.NewWithWatch` -/
  newWithWatch : Except GoString Unit
  /-- `kubernetes.NewForConfig` -/
  newForConfig : Except GoString Unit

/-- The errors of `run` before a server is started. -/
inductive BootError
  | config (e : LoadError)
  | newResource (err : GoString)
  | exporter (err : GoString)
  | apiGroup (got : GoString)
  | restConfig (err : GoString)
  | ctrlClient (err : GoString)
  | clientset (err : GoString)
  | dispatcher (e : BuildError)

/-- `NewTracerProvider`. Without tracing there is no exporter. -/
def newTracerProvider (w : Surroundings) (cfg : Config) : Except BootError Unit := do
  (w.newResource cfg).mapError .newResource
  if cfg.tracingEnabled then w.newExporter.mapError .exporter

/-- `loadRESTConfig`. -/
def loadRESTConfig (w : Surroundings) (kubeconfigPath : GoString) : Except GoString Unit :=
  if kubeconfigPath ≠ [] then w.buildConfigFromFlags kubeconfigPath else w.getConfig

/-- `NewClients`. -/
def newClients (w : Surroundings) (cfg : Config) : Except BootError Unit := do
  if cfg.cr.apiGroup ≠ groupVersionGroup then throw (.apiGroup cfg.cr.apiGroup)
  (loadRESTConfig w cfg.kubeconfig).mapError .restConfig
  w.newWithWatch.mapError .ctrlClient
  w.newForConfig.mapError .clientset

/-- What the servers are started with. Without a dispatcher, webhooks are answered with
    status 503. -/
structure Booted where
  cfg : Config
  dispatcher : Option Dispatcher

/-- `run`, up to the servers. It is `none` if `NewDispatcher` panics. -/
def boot (hmac : HMAC) (w : Surroundings) (env : Env) : Except BootError (Option Booted) := do
  let cfg ← (load env).mapError .config
  newTracerProvider w cfg
  if cfg.enabledProviders = [] then return some ⟨cfg, none⟩
  newClients w cfg
  let d ← (buildDispatcher (defaultRegistry hmac) cfg).mapError .dispatcher
  return d.map fun d => ⟨cfg, some d⟩

/-! ## What they do -/

theorem mapError_eq_ok {ε ε' α : Type} {f : ε → ε'} {x : Except ε α} {a : α} :
    x.mapError f = .ok a ↔ x = .ok a := by
  cases x <;> simp [Except.mapError]

theorem bind_unit_eq_ok {ε β : Type} {x : Except ε Unit} {f : Unit → Except ε β} {b : β} :
    x >>= f = .ok b ↔ x = .ok () ∧ f () = .ok b := by
  constructor
  · intro h
    obtain ⟨_, hx, hf⟩ := bind_eq_ok h
    exact ⟨hx, hf⟩
  · rintro ⟨rfl, h⟩
    exact h

section

variable {hmac : HMAC} {w : Surroundings} {env : Env} {cfg : Config}

/-- The exporter is only made if tracing is enabled. -/
theorem newTracerProvider_eq_ok :
    newTracerProvider w cfg = .ok () ↔
      w.newResource cfg = .ok () ∧ (cfg.tracingEnabled = true → w.newExporter = .ok ()) := by
  rw [newTracerProvider, bind_unit_eq_ok, mapError_eq_ok]
  cases cfg.tracingEnabled <;> simp [mapError_eq_ok, pure, Except.pure]

/-- The clients are made for the API group that was compiled, if all of their set-up
    succeeds. -/
theorem newClients_eq_ok :
    newClients w cfg = .ok () ↔ cfg.cr.apiGroup = groupVersionGroup ∧
      loadRESTConfig w cfg.kubeconfig = .ok () ∧ w.newWithWatch = .ok () ∧
      w.newForConfig = .ok () := by
  by_cases hg : cfg.cr.apiGroup = groupVersionGroup
  · simp [newClients, hg, bind_unit_eq_ok, mapError_eq_ok]
  · simp only [newClients, ne_eq, hg, not_false_eq_true, if_true, false_and, iff_false]
    exact nofun

/-- The registry of the program has one provider, and the first other name on the
    allow-list is the error. -/
theorem build_defaultRegistry (hmac : HMAC) (cfg : Config) :
    (defaultRegistry hmac).build cfg =
      match cfg.enabledProviders.find? (· ≠ lit "jsm") with
      | some name => .error (.notRegistered name)
      | none => .ok (cfg.enabledProviders.map fun _ => Jsm.provider hmac (.ofConfig cfg)) := by
  have hjsm : (defaultRegistry hmac).resolve cfg (lit "jsm") =
      .ok (Jsm.provider hmac (.ofConfig cfg)) := rfl
  have hother : ∀ name, name ≠ lit "jsm" →
      (defaultRegistry hmac).resolve cfg name = .error (.notRegistered name) := by
    intro name hname
    have hnone : (defaultRegistry hmac).providers name = none :=
      GoMap.insert_of_ne ∅ hname (Jsm.factory hmac)
    rw [ProviderRegistry.resolve, hnone]
  rw [ProviderRegistry.build]
  induction cfg.enabledProviders with
  | nil => rfl
  | cons name l ih =>
    rw [List.mapM_cons, ih]
    by_cases hname : name = lit "jsm"
    · subst hname
      rw [hjsm, List.find?_cons_of_neg (by simp)]
      cases l.find? (· ≠ lit "jsm") <;> rfl
    · rw [hother name hname, List.find?_cons_of_pos (by simpa using hname)]
      rfl

/-- The dispatcher of the program. -/
def jsmDispatcher (hmac : HMAC) (cfg : Config) : Dispatcher where
  providers := .ofList [(lit "jsm", Jsm.provider hmac (.ofConfig cfg))]
  executor := newExecutor cfg.cr.fieldManager cfg.cr.syncTimeout
  maxBodyBytes := cfg.maxBodyBytes

/-- What `buildDispatcher` makes of a configuration that was loaded. -/
theorem buildDispatcher_of_load (hmac : HMAC) (hload : load env = .ok cfg)
    (hne : cfg.enabledProviders ≠ []) :
    (buildDispatcher (defaultRegistry hmac) cfg = .ok (some (jsmDispatcher hmac cfg)) ∧
      allowList env = {lit "jsm"}) ∨
    ∃ name ∈ allowList env, name ≠ lit "jsm" ∧
      buildDispatcher (defaultRegistry hmac) cfg = .error (.notRegistered name) := by
  obtain ⟨hp, -, -, hv⟩ := load_ok hload
  obtain ⟨hn, hmem⟩ := Setting.enabledProviders_value hp.enabledProviders
  rw [buildDispatcher, build_defaultRegistry]
  cases hf : cfg.enabledProviders.find? (· ≠ lit "jsm") with
  | some name =>
    exact .inr ⟨name, (hmem name).mp (List.mem_of_find?_eq_some hf),
      by simpa using List.find?_some hf, rfl⟩
  | none =>
    have hall : ∀ x ∈ cfg.enabledProviders, x = lit "jsm" := by
      intro x hx
      simpa using List.find?_eq_none.mp hf x hx
    -- The loader keeps each entry once, so there is no second one to panic on.
    have hl : cfg.enabledProviders = [lit "jsm"] := by
      have hrep := List.eq_replicate_of_mem hall
      have hle : cfg.enabledProviders.length ≤ 1 := List.nodup_replicate.mp (hrep ▸ hn)
      have hlen : cfg.enabledProviders.length = 1 :=
        le_antisymm hle (List.length_pos_iff.mpr hne)
      rwa [hlen] at hrep
    have hpos := (validate_ok hv).1
    refine .inl ⟨?_, ?_⟩
    · rw [hl]
      simp only [List.map_cons, List.map_nil, Except.map, newDispatcher,
        if_neg (not_le.mpr hpos), if_pos (List.nodup_singleton _)]
      rfl
    · ext x
      rw [← hmem, hl]
      simp

/-- Without providers the service is started disabled. -/
theorem enabledProviders_eq_nil (hload : load env = .ok cfg) :
    cfg.enabledProviders = [] ↔ allowList env = ∅ := by
  obtain ⟨-, hmem⟩ := Setting.enabledProviders_value (load_ok hload).1.enabledProviders
  rw [List.eq_nil_iff_forall_not_mem, Set.eq_empty_iff_forall_notMem]
  exact forall_congr' fun x => not_congr (hmem x)

/-- No error of the tracer is one of building providers. -/
theorem newTracerProvider_ne (e : BuildError) :
    newTracerProvider w cfg ≠ .error (.dispatcher e) := by
  rw [newTracerProvider]
  cases w.newResource cfg with
  | error err => exact nofun
  | ok u =>
    cases cfg.tracingEnabled with
    | false => exact nofun
    | true => cases w.newExporter <;> exact nofun

/-- Nor is one of the clients. -/
theorem newClients_ne (e : BuildError) : newClients w cfg ≠ .error (.dispatcher e) := by
  rw [newClients]
  by_cases hg : cfg.cr.apiGroup = groupVersionGroup
  · rw [if_neg (not_not.mpr hg)]
    cases loadRESTConfig w cfg.kubeconfig with
    | error err => exact nofun
    | ok u =>
      cases w.newWithWatch with
      | error err => exact nofun
      | ok u => cases w.newForConfig <;> exact nofun
  · rw [if_pos hg]
    exact nofun

end

/-- The outcomes of `boot`, one by one. -/
inductive Boots (hmac : HMAC) (w : Surroundings) (env : Env) :
    Except BootError (Option Booted) → Prop
  | config {e} (hload : load env = .error e) : Boots hmac w env (.error (.config e))
  | tracer {cfg e} (hload : load env = .ok cfg) (h : newTracerProvider w cfg = .error e) :
      Boots hmac w env (.error e)
  | disabled {cfg} (hload : load env = .ok cfg) (ht : newTracerProvider w cfg = .ok ())
      (hE : allowList env = ∅) : Boots hmac w env (.ok (some ⟨cfg, none⟩))
  | clients {cfg e} (hload : load env = .ok cfg) (hE : allowList env ≠ ∅)
      (h : newClients w cfg = .error e) : Boots hmac w env (.error e)
  | unregistered {cfg name} (hload : load env = .ok cfg) (hE : name ∈ allowList env)
      (hname : name ≠ lit "jsm") : Boots hmac w env (.error (.dispatcher (.notRegistered name)))
  | enabled {cfg} (hload : load env = .ok cfg) (ht : newTracerProvider w cfg = .ok ())
      (hc : newClients w cfg = .ok ()) (hE : allowList env = {lit "jsm"}) :
      Boots hmac w env (.ok (some ⟨cfg, some (jsmDispatcher hmac cfg)⟩))

/-- Every start is one of those that `Boots` lists. -/
theorem boots (hmac : HMAC) (w : Surroundings) (env : Env) :
    Boots hmac w env (boot hmac w env) := by
  cases hload : load env with
  | error e =>
    rw [boot, hload]
    exact .config hload
  | ok cfg =>
    have hboot : boot hmac w env = (newTracerProvider w cfg >>= fun _ =>
        if cfg.enabledProviders = [] then return some ⟨cfg, none⟩
        else newClients w cfg >>= fun _ =>
          (buildDispatcher (defaultRegistry hmac) cfg).mapError .dispatcher >>= fun d =>
            return d.map fun d => ⟨cfg, some d⟩) := by
      rw [boot, hload]
      rfl
    rw [hboot]
    cases ht : newTracerProvider w cfg with
    | error e => exact .tracer hload ht
    | ok u =>
      by_cases hne : cfg.enabledProviders = []
      · rw [if_pos hne]
        exact .disabled hload ht ((enabledProviders_eq_nil hload).mp hne)
      · rw [if_neg hne]
        cases hc : newClients w cfg with
        | error e => exact .clients hload (mt (enabledProviders_eq_nil hload).mpr hne) hc
        | ok u =>
          rcases buildDispatcher_of_load hmac hload hne with ⟨hd, hE⟩ | ⟨name, hE, hname, hd⟩
          · rw [hd]
            exact .enabled hload ht hc hE
          · rw [hd]
            exact .unregistered hload hE hname

section

variable {hmac : HMAC} {w : Surroundings} {env : Env} {cfg : Config} {d : Dispatcher}

/-- The servers start disabled exactly when the allow-list is empty. -/
theorem boot_eq_disabled :
    boot hmac w env = .ok (some ⟨cfg, none⟩) ↔
      load env = .ok cfg ∧ newTracerProvider w cfg = .ok () ∧ allowList env = ∅ := by
  have hb := boots hmac w env
  generalize boot hmac w env = o at hb
  constructor
  · rintro rfl
    cases hb with
    | disabled hload ht hE => exact ⟨hload, ht, hE⟩
  · rintro ⟨hload, ht, hE⟩
    cases hb with
    | config hload' => cases hload.symm.trans hload'
    | tracer hload' ht' =>
      obtain rfl := Except.ok.inj (hload.symm.trans hload')
      cases ht.symm.trans ht'
    | disabled hload' => rw [Except.ok.inj (hload.symm.trans hload')]
    | clients _ hE' => exact absurd hE hE'
    | unregistered _ hmem => exact absurd (hE ▸ hmem) (Set.notMem_empty _)
    | enabled _ _ _ hE' => exact absurd (hE.symm.trans hE') (Set.singleton_ne_empty _).symm

/-- They start with a dispatcher exactly when the allow-list is `jsm` alone. -/
theorem boot_eq_enabled :
    boot hmac w env = .ok (some ⟨cfg, some d⟩) ↔
      load env = .ok cfg ∧ newTracerProvider w cfg = .ok () ∧ newClients w cfg = .ok () ∧
        allowList env = {lit "jsm"} ∧ d = jsmDispatcher hmac cfg := by
  have hb := boots hmac w env
  generalize boot hmac w env = o at hb
  constructor
  · rintro rfl
    cases hb with
    | enabled hload ht hc hE => exact ⟨hload, ht, hc, hE, rfl⟩
  · rintro ⟨hload, ht, hc, hE, rfl⟩
    cases hb with
    | config hload' => cases hload.symm.trans hload'
    | tracer hload' ht' =>
      obtain rfl := Except.ok.inj (hload.symm.trans hload')
      cases ht.symm.trans ht'
    | disabled _ _ hE' => exact absurd (hE'.symm.trans hE) (Set.singleton_ne_empty _).symm
    | clients hload' _ hc' =>
      obtain rfl := Except.ok.inj (hload.symm.trans hload')
      cases hc.symm.trans hc'
    | unregistered _ hmem hname => exact absurd (Set.mem_singleton_iff.mp (hE ▸ hmem)) hname
    | enabled hload' => rw [Except.ok.inj (hload.symm.trans hload')]

end

/-- Whatever the environment and the surroundings, `run` does not panic before the servers
    start. It starts them disabled exactly when the allow-list is empty, and with a
    dispatcher exactly when `jsm` is its one entry, the API group is the one of the
    imported types and the clients can be made; the dispatcher is then determined. A
    name that is not registered is the only error of building the providers. -/
theorem boot_outcome (hmac : HMAC) (w : Surroundings) (env : Env) :
    boot hmac w env ≠ .ok none ∧
    (∀ cfg, boot hmac w env = .ok (some ⟨cfg, none⟩) ↔
      load env = .ok cfg ∧ w.newResource cfg = .ok () ∧
        (cfg.tracingEnabled = true → w.newExporter = .ok ()) ∧ allowList env = ∅) ∧
    (∀ cfg d, boot hmac w env = .ok (some ⟨cfg, some d⟩) ↔
      load env = .ok cfg ∧ w.newResource cfg = .ok () ∧
        (cfg.tracingEnabled = true → w.newExporter = .ok ()) ∧
        cfg.cr.apiGroup = groupVersionGroup ∧ loadRESTConfig w cfg.kubeconfig = .ok () ∧
        w.newWithWatch = .ok () ∧ w.newForConfig = .ok () ∧ allowList env = {lit "jsm"} ∧
        d = jsmDispatcher hmac cfg) ∧
    ∀ e, boot hmac w env = .error (.dispatcher e) →
      ∃ name ∈ allowList env, name ≠ lit "jsm" ∧ e = .notRegistered name := by
  refine ⟨?_, fun cfg => ?_, fun cfg d => ?_, ?_⟩
  · have hb := boots hmac w env
    intro h
    rw [h] at hb
    cases hb
  · rw [boot_eq_disabled, newTracerProvider_eq_ok, and_assoc]
  · rw [boot_eq_enabled, newTracerProvider_eq_ok, newClients_eq_ok]
    simp only [and_assoc]
  · intro e h
    have hb := boots hmac w env
    rw [h] at hb
    cases hb with
    | tracer _ ht => exact absurd ht (newTracerProvider_ne e)
    | clients _ _ hc => exact absurd hc (newClients_ne e)
    | @unregistered _ name _ hmem hname => exact ⟨name, hmem, hname, rfl⟩

/-- Surroundings in which nothing fails. -/
def sampleSurroundings : Surroundings where
  newResource _ := .ok ()
  newExporter := .ok ()
  buildConfigFromFlags _ := .ok ()
  getConfig := .ok ()
  newWithWatch := .ok ()
  newForConfig := .ok ()

/-- The settings of the tenant, where they are not the defaults. -/
def sampleTenant : List (String × GoString) :=
  [("WEBHOOK_MAX_BODY_BYTES", lit "1000"), ("WEBHOOK_SIGNATURE_HEADER", lit "X-Signature"),
    ("WEBHOOK_TIMESTAMP_HEADER", lit "X-Timestamp"), ("WEBHOOK_JSM_TRIGGER_STATUS", lit "Ready"),
    ("WEBHOOK_CR_NAMESPACE", lit "wiz")]

/-- The environment of the tenant starts its dispatcher. -/
theorem boot_sampleTenant :
    ∃ cfg, boot sampleHMAC sampleSurroundings
        (sampleEnv (sampleTenant.map fun e => (lit e.1, e.2))) =
        .ok (some ⟨cfg, some sampleDispatcher⟩) ∧ cfg.cr.namespace_ = lit "wiz" := by
  obtain ⟨cfg, hl, hp⟩ := load_of_any sampleTenant (fun cfg =>
    (cfg.jsm.triggerStatus = lit "Ready" ∧ cfg.jsm.fieldProviderGroupID = lit "customfield_1" ∧
      cfg.jsm.fieldRole = lit "customfield_2" ∧ cfg.jsm.fieldProject = lit "customfield_3" ∧
      cfg.jsm.identityProviderID = lit "idp" ∧ cfg.cr.namespace_ = lit "wiz") ∧
    (cfg.signingSecret = lit "secret" ∧ cfg.signatureHeader = lit "X-Signature" ∧
      cfg.timestampHeader = lit "X-Timestamp" ∧ cfg.timestampSkew = 300 * second) ∧
    cfg.cr.apiGroup = groupVersionGroup ∧ cfg.cr.fieldManager = lit "webhookd" ∧
      cfg.cr.syncTimeout = 20 * second ∧ cfg.maxBodyBytes = 1000) (by decide +kernel)
  obtain ⟨⟨h₁, h₂, h₃, h₄, h₅, h₆⟩, ⟨h₇, h₈, h₉, h₁₀⟩, hgroup, hmanager, hsync, hmax⟩ :=
    of_decide_eq_true hp
  have hcfg : Jsm.Config.ofConfig cfg = Jsm.sampleConfig := by
    rw [Jsm.Config.ofConfig, h₁, h₂, h₃, h₄, h₅, h₆, h₇, h₈, h₉, h₁₀]
    rfl
  refine ⟨cfg, boot_eq_enabled.mpr ⟨hl, newTracerProvider_eq_ok.mpr ⟨rfl, fun _ => rfl⟩,
    newClients_eq_ok.mpr ⟨hgroup, ite_self _, rfl, rfl⟩, rfl, ?_⟩, h₆⟩
  rw [jsmDispatcher, hcfg, hmanager, hsync, hmax]
  rfl

end Webhookd
