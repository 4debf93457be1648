import Webhookd.Config
import Webhookd.Dispatcher

/-!
# Startup

`registry.go` and `buildDispatcher`: providers are registered under their names,
those on the allow-list `WEBHOOK_PROVIDERS` are built by their factories, and the
dispatcher routes to them by name. The clients for the API server are left out.

* `mem_csvEntries` and `nodup_csvEntries`: the allow-list as the loader reads it
  is a set, however its entries are written;
* `build_eq_ok` inverts the loop that builds the providers;
* `startup_routes`: the providers that are routed to are those on the allow-list.
-/

namespace Webhookd

open Go

/-! ## The registry -/

/-- `ProviderFactory`. Of the dependencies only the configuration is modelled; an
    error is its text. -/
abbrev ProviderFactory := Config → Except GoString Provider

/-- `Registry`. -/
structure ProviderRegistry where
  providers : GoMap ProviderFactory

/-- The errors of `Build`. -/
inductive BuildError
  | notRegistered (name : GoString)
  | factory (name : GoString) (err : GoString)

namespace ProviderRegistry

/-- `NewRegistry`. -/
def new : ProviderRegistry := ⟨∅⟩

/-- `Register`, which panics if the name is taken. -/
def register (r : ProviderRegistry) (name : GoString) (factory : ProviderFactory) :
    Option ProviderRegistry :=
  match r.providers name with
  | some _ => none
  | none => some ⟨r.providers.insert name factory⟩

/-- One round of the loop of `Build`. -/
def resolve (r : ProviderRegistry) (cfg : Config) (name : GoString) :
    Except BuildError Provider :=
  match r.providers name with
  | none => .error (.notRegistered name)
  | some f =>
    match f cfg with
    | .error err => .error (.factory name err)
    | .ok prov => .ok prov

/-- `Build`. -/
def build (r : ProviderRegistry) (cfg : Config) : Except BuildError (List Provider) :=
  cfg.enabledProviders.mapM (r.resolve cfg)

/-- The contract of `Provider.Name`: it is the name that the factory is registered
    under. -/
def Lawful (r : ProviderRegistry) : Prop :=
  ∀ name f cfg prov, r.providers name = some f → f cfg = .ok prov → prov.name = name

end ProviderRegistry

/-- `jsm.factory`. -/
def Jsm.factory (hmac : HMAC) : ProviderFactory := fun cfg => .ok (provider hmac (.ofConfig cfg))

/-- `DefaultRegistry`, after the initialisation of the package `jsm`. -/
def defaultRegistry (hmac : HMAC) : ProviderRegistry :=
  (ProviderRegistry.new.register (lit "jsm") (Jsm.factory hmac)).getD .new

/-- `buildDispatcher`, with clients for the API server: an error, or a dispatcher
    unless `NewDispatcher` panics. -/
def buildDispatcher (r : ProviderRegistry) (cfg : Config) : Except BuildError (Option Dispatcher) :=
  (r.build cfg).map fun providers =>
    newDispatcher providers (newExecutor cfg.cr.fieldManager cfg.cr.syncTimeout) cfg.maxBodyBytes

/-! ## The allow-list -/

/-- The entries of the allow-list, or those of the default. -/
def allowList (env : Env) : Set GoString :=
  match env (lit "WEBHOOK_PROVIDERS") with
  | none => {lit "jsm"}
  | some v => {e | e ≠ [] ∧ ∃ raw ∈ v.splitOn (ch ','), toLower (trimSpace raw) = e}

namespace Setting

theorem mem_csvAdd {out : List GoString} {raw e : GoString} :
    e ∈ csvAdd out raw ↔ e ∈ out ∨ e ≠ [] ∧ toLower (trimSpace raw) = e := by
  simp only [csvAdd, List.contains_iff_mem]
  split_ifs with hnil hmem
  · rw [hnil]
    exact ⟨.inl, fun h => h.elim id fun ⟨hne, he⟩ => absurd he.symm hne⟩
  · exact ⟨.inl, fun h => h.elim id fun ⟨_, he⟩ => he ▸ hmem⟩
  · rw [List.mem_append, List.mem_singleton]
    exact or_congr_right ⟨fun he => ⟨he ▸ hnil, he.symm⟩, fun h => h.2.symm⟩

theorem nodup_csvAdd {out : List GoString} (raw : GoString) (h : out.Nodup) :
    (csvAdd out raw).Nodup := by
  simp only [csvAdd, List.contains_iff_mem]
  split_ifs with hnil hmem
  · exact h
  · exact h
  · rw [← List.concat_eq_append]
    exact h.concat hmem

theorem mem_foldl_csvAdd {raws out : List GoString} {e : GoString} :
    e ∈ raws.foldl csvAdd out ↔ e ∈ out ∨ e ≠ [] ∧ ∃ raw ∈ raws, toLower (trimSpace raw) = e := by
  induction raws generalizing out with
  | nil => simp
  | cons raw raws ih =>
    rw [List.foldl_cons, ih, mem_csvAdd, List.exists_mem_cons_iff]
    tauto

theorem mem_csvEntries {v e : GoString} :
    e ∈ csvEntries v ↔ e ≠ [] ∧ ∃ raw ∈ v.splitOn (ch ','), toLower (trimSpace raw) = e := by
  rw [csvEntries, mem_foldl_csvAdd]
  simp

theorem nodup_csvEntries (v : GoString) : (csvEntries v).Nodup := by
  rw [csvEntries]
  generalize v.splitOn (ch ',') = raws
  have h : ([] : List GoString).Nodup := List.nodup_nil
  generalize ([] : List GoString) = out at h
  induction raws generalizing out with
  | nil => exact h
  | cons raw raws ih => exact ih _ (nodup_csvAdd raw h)

/-- The allow-list as the loader reads it is a list of its entries, each one once. -/
theorem enabledProviders_value {env : Env} {l : List GoString}
    (h : enabledProviders.value env = .ok l) : l.Nodup ∧ ∀ e, e ∈ l ↔ e ∈ allowList env := by
  have hname : enabledProviders.name = "WEBHOOK_PROVIDERS" := rfl
  rw [Setting.value, hname] at h
  rcases hv : env (lit "WEBHOOK_PROVIDERS") with _ | v
  · rw [hv] at h
    obtain rfl := Except.ok.inj h
    exact ⟨by decide, fun e => by simp [allowList, hv, enabledProviders, csv]⟩
  · rw [hv] at h
    obtain rfl := Except.ok.inj h
    exact ⟨nodup_csvEntries v, fun e => by rw [allowList, hv]; exact mem_csvEntries⟩

end Setting

/-! ## What is routed -/

theorem mapM_eq_ok {α β ε : Type} {f : α → Except ε β} {l : List α} {bs : List β} :
    l.mapM f = .ok bs ↔ List.Forall₂ (fun a b => f a = .ok b) l bs := by
  induction l generalizing bs with
  | nil => simp [pure, Except.pure, eq_comm]
  | cons a l ih =>
    rw [List.mapM_cons, List.forall₂_cons_left_iff]
    constructor
    · intro h
      obtain ⟨b, hb, h⟩ := bind_eq_ok h
      obtain ⟨bs', hbs, h⟩ := bind_eq_ok h
      exact ⟨b, bs', hb, ih.mp hbs, (Except.ok.inj h).symm⟩
    · rintro ⟨b, bs', hb, hbs, rfl⟩
      rw [hb, ih.mpr hbs]
      rfl

namespace ProviderRegistry

variable {r : ProviderRegistry} {cfg cfg' : Config} {name : GoString} {prov : Provider}
  {ps ps' : List Provider}

theorem resolve_eq_ok :
    r.resolve cfg name = .ok prov ↔ ∃ f, r.providers name = some f ∧ f cfg = .ok prov := by
  rw [resolve]
  rcases r.providers name with _ | f
  · simp
  · rcases hf : f cfg with err | prov' <;> simp [hf]

/-- The providers are built in the order of the allow-list. -/
theorem build_eq_ok :
    r.build cfg = .ok ps ↔
      List.Forall₂ (fun name prov => r.resolve cfg name = .ok prov) cfg.enabledProviders ps :=
  mapM_eq_ok

theorem exists_build_iff :
    (∃ ps, r.build cfg = .ok ps) ↔
      ∀ name ∈ cfg.enabledProviders, ∃ prov, r.resolve cfg name = .ok prov := by
  simp only [build_eq_ok]
  generalize cfg.enabledProviders = l
  induction l with
  | nil => simp
  | cons name l ih =>
    simp only [List.forall₂_cons_left_iff, List.forall_mem_cons, ← ih]
    constructor
    · rintro ⟨_, prov, ps, hp, hps, rfl⟩
      exact ⟨⟨prov, hp⟩, ps, hps⟩
    · rintro ⟨⟨prov, hp⟩, ps, hps⟩
      exact ⟨_, prov, ps, hp, hps, rfl⟩

/-- The providers that were built have the names on the allow-list. -/
theorem Lawful.map_name (hr : r.Lawful) (h : r.build cfg = .ok ps) :
    ps.map (·.name) = cfg.enabledProviders := by
  rw [build_eq_ok] at h
  generalize cfg.enabledProviders = l at h
  induction h with
  | nil => rfl
  | cons hp _ ih =>
    obtain ⟨f, hf, hok⟩ := resolve_eq_ok.mp hp
    rw [List.map_cons, ih, hr _ _ _ _ hf hok]

theorem Lawful.mem_iff (hr : r.Lawful) (h : r.build cfg = .ok ps) :
    prov ∈ ps ∧ prov.name = name ↔
      name ∈ cfg.enabledProviders ∧ r.resolve cfg name = .ok prov := by
  rw [build_eq_ok] at h
  generalize cfg.enabledProviders = l at h
  induction h with
  | nil => simp
  | @cons name' prov' l ps hp _ ih =>
    obtain ⟨f, hf, hok⟩ := resolve_eq_ok.mp hp
    have hname := hr _ _ _ _ hf hok
    rw [List.mem_cons, List.mem_cons, or_and_right, or_and_right, ih]
    refine or_congr_left ⟨?_, ?_⟩
    · rintro ⟨rfl, rfl⟩
      exact ⟨hname, hname.symm ▸ hp⟩
    · rintro ⟨rfl, hp'⟩
      obtain rfl := Except.ok.inj (hp'.symm.trans hp)
      exact ⟨rfl, hname⟩

end ProviderRegistry

/-- A dispatcher of providers with distinct names routes to each by its name. -/
theorem newDispatcher_eq_some {providers : List Provider} {e : Executor} {n : Int}
    (h : (providers.map (·.name)).Nodup) :
    ∃ d, newDispatcher providers e n = some d ∧
      ∀ {name prov}, d.providers name = some prov ↔ prov ∈ providers ∧ prov.name = name := by
  refine ⟨_, if_pos h, fun {name prov} => ⟨fun hp => ?_, ?_⟩⟩
  · obtain ⟨prov', hmem, heq⟩ := List.mem_map.mp (GoMap.mem_of_ofList hp)
    obtain ⟨rfl, rfl⟩ := Prod.mk.inj heq
    exact ⟨hmem, rfl⟩
  · rintro ⟨hmem, rfl⟩
    exact GoMap.ofList_of_mem (by rwa [List.map_map]) (List.mem_map.mpr ⟨prov, hmem, rfl⟩)

section

variable {env : Env} {cfg : Config} {r : ProviderRegistry} {ps : List Provider}

/-- All providers are built exactly when all factories on the allow-list succeed. -/
theorem exists_build_iff_allowList
    (hcfg : Setting.enabledProviders.value env = .ok cfg.enabledProviders) :
    (∃ ps, r.build cfg = .ok ps) ↔
      ∀ name ∈ allowList env, ∃ f prov, r.providers name = some f ∧ f cfg = .ok prov := by
  simp only [ProviderRegistry.exists_build_iff, (Setting.enabledProviders_value hcfg).2,
    ProviderRegistry.resolve_eq_ok]
  exact forall₂_congr fun name _ => exists_comm

/-- Providers that were built are routed to by the entries of the allow-list. -/
theorem ProviderRegistry.Lawful.exists_dispatcher (hr : r.Lawful)
    (hcfg : Setting.enabledProviders.value env = .ok cfg.enabledProviders)
    (hps : r.build cfg = .ok ps) (e : Executor) (n : Int) :
    ∃ d, newDispatcher ps e n = some d ∧ ∀ p prov, d.providers p = some prov ↔
      p ∈ allowList env ∧ ∃ f, r.providers p = some f ∧ f cfg = .ok prov := by
  obtain ⟨hn, hmem⟩ := Setting.enabledProviders_value hcfg
  obtain ⟨d, hd, hp⟩ := newDispatcher_eq_some (e := e) (n := n) (hr.map_name hps ▸ hn)
  refine ⟨d, hd, fun p prov => ?_⟩
  rw [hp, hr.mem_iff hps, hmem, ProviderRegistry.resolve_eq_ok]

end

/-- The service starts exactly when all providers on the allow-list can be built, and
    then routes to these alone. Allow-lists with the same entries start the same
    service, as far as the factories do not tell them apart. -/
theorem startup_routes {env : Env} {cfg : Config} {r : ProviderRegistry} (hr : r.Lawful)
    (hcfg : Setting.enabledProviders.value env = .ok cfg.enabledProviders) :
    ((∃ ps, r.build cfg = .ok ps) ↔
      ∀ name ∈ allowList env, ∃ f prov, r.providers name = some f ∧ f cfg = .ok prov) ∧
    (∀ ps e n, r.build cfg = .ok ps → ∃ d, newDispatcher ps e n = some d ∧
      (∀ p, (∃ prov, d.providers p = some prov) ↔ p ∈ allowList env) ∧
      ∀ p prov, d.providers p = some prov ↔
        p ∈ allowList env ∧ ∃ f, r.providers p = some f ∧ f cfg = .ok prov) ∧
    (∀ env' cfg', Setting.enabledProviders.value env' = .ok cfg'.enabledProviders →
      allowList env' = allowList env →
      (∀ name ∈ allowList env, ∀ f, r.providers name = some f → f cfg' = f cfg) →
      ((∃ ps, r.build cfg' = .ok ps) ↔ ∃ ps, r.build cfg = .ok ps) ∧
      ∀ ps ps' e e' n n' d d', r.build cfg = .ok ps → r.build cfg' = .ok ps' →
        newDispatcher ps e n = some d → newDispatcher ps' e' n' = some d' →
        d'.providers = d.providers) := by
  refine ⟨exists_build_iff_allowList hcfg, fun ps e n hps => ?_,
    fun env' cfg' hcfg' hE hf => ⟨?_, ?_⟩⟩
  · obtain ⟨d, hd, hp⟩ := hr.exists_dispatcher hcfg hps e n
    refine ⟨d, hd, fun p => ⟨fun ⟨prov, hprov⟩ => ((hp p prov).mp hprov).1, fun hmem => ?_⟩, hp⟩
    -- As the service has started, the factory of an entry succeeds.
    obtain ⟨f, prov, hf, hok⟩ := (exists_build_iff_allowList hcfg).mp ⟨ps, hps⟩ p hmem
    exact ⟨prov, (hp p prov).mpr ⟨hmem, f, hf, hok⟩⟩
  · rw [exists_build_iff_allowList hcfg, exists_build_iff_allowList hcfg', hE]
    refine forall₂_congr fun name hname => exists_congr fun f => exists_congr fun prov => ?_
    exact and_congr_right fun hreg => by rw [hf name hname f hreg]
  · intro ps ps' e e' n n' d d' hps hps' hd hd'
    obtain ⟨d₁, hd₁, hp⟩ := hr.exists_dispatcher hcfg hps e n
    obtain ⟨d₂, hd₂, hp'⟩ := hr.exists_dispatcher hcfg' hps' e' n'
    obtain rfl := Option.some.inj (hd.symm.trans hd₁)
    obtain rfl := Option.some.inj (hd'.symm.trans hd₂)
    ext p prov
    rw [hp, hp', hE]
    refine and_congr_right fun hname => exists_congr fun f => ?_
    exact and_congr_right fun hreg => by rw [hf p hname f hreg]

theorem lawful_defaultRegistry (hmac : HMAC) : (defaultRegistry hmac).Lawful := by
  intro name f cfg prov hf hok
  by_cases hname : name = lit "jsm"
  · obtain rfl : Jsm.factory hmac = f := by
      rw [hname] at hf
      exact Option.some.inj hf
    obtain rfl := Except.ok.inj hok
    exact hname.symm
  · rw [show (defaultRegistry hmac).providers = GoMap.insert ∅ (lit "jsm") (Jsm.factory hmac) from
      rfl, GoMap.insert_of_ne _ hname] at hf
    cases hf

/-- An allow-list that has `jsm` three times, in two cases, and an empty entry. -/
theorem startup_routes_jsm :
    ∃ cfg d, load (sampleEnv [(lit "WEBHOOK_PROVIDERS", lit " JSM, jsm,,Jsm ")]) = .ok cfg ∧
      buildDispatcher (defaultRegistry sampleHMAC) cfg = .ok (some d) ∧
      d.providers (lit "jsm") = some (Jsm.provider sampleHMAC (.ofConfig cfg)) ∧
      ∀ p, p ≠ lit "jsm" → d.providers p = none := by
  obtain ⟨cfg, hload, hp⟩ := load_of_any [("WEBHOOK_PROVIDERS", lit " JSM, jsm,,Jsm ")]
    (fun cfg => cfg.enabledProviders = [lit "jsm"]) (by decide +kernel)
  have hcfg := (load_ok hload).1.enabledProviders
  obtain ⟨hbuild, hroute, -⟩ := startup_routes (lawful_defaultRegistry sampleHMAC) hcfg
  have hE : allowList (sampleEnv [(lit "WEBHOOK_PROVIDERS", lit " JSM, jsm,,Jsm ")]) =
      {lit "jsm"} := by
    ext e
    rw [Set.mem_singleton_iff, ← List.mem_singleton, ← of_decide_eq_true hp]
    exact ((Setting.enabledProviders_value hcfg).2 e).symm
  have hreg : (defaultRegistry sampleHMAC).providers (lit "jsm") = some (Jsm.factory sampleHMAC) :=
    rfl
  obtain ⟨ps, hps⟩ := hbuild.mpr fun name hname => by
    obtain rfl := Set.mem_singleton_iff.mp (hE ▸ hname)
    exact ⟨_, _, hreg, rfl⟩
  obtain ⟨d, hd, hfound, hprov⟩ := hroute ps
    (newExecutor cfg.cr.fieldManager cfg.cr.syncTimeout) cfg.maxBodyBytes hps
  refine ⟨cfg, d, hload, ?_, (hprov _ _).mpr ⟨hE ▸ rfl, _, hreg, rfl⟩, fun p hne => ?_⟩
  · rw [buildDispatcher, hps, ← hd]
    rfl
  · refine Option.eq_none_iff_forall_ne_some.mpr fun prov hsome => hne ?_
    exact Set.mem_singleton_iff.mp (hE ▸ (hfound p).mp ⟨prov, hsome⟩)

/-- Two providers, of which `a` can only be built if it comes first. -/
def sampleRegistry : ProviderRegistry where
  providers := .ofList [
    (lit "a", fun cfg =>
      if cfg.enabledProviders.head? = some (lit "a")
      then .ok { Jsm.provider sampleHMAC Jsm.sampleConfig with name := lit "a" }
      else .error (lit "not the first one")),
    (lit "b", fun _ => .ok { Jsm.provider sampleHMAC Jsm.sampleConfig with name := lit "b" })]

/-- A factory is given the allow-list, and may tell its order. -/
theorem startup_order :
    sampleRegistry.Lawful ∧ ∃ (cfg : Config) (env env' : Env),
      Setting.enabledProviders.value env = .ok [lit "a", lit "b"] ∧
      Setting.enabledProviders.value env' = .ok [lit "b", lit "a"] ∧
      allowList env' = allowList env ∧
      (∃ ps, sampleRegistry.build { cfg with enabledProviders := [lit "a", lit "b"] } = .ok ps) ∧
      ¬∃ ps, sampleRegistry.build { cfg with enabledProviders := [lit "b", lit "a"] } = .ok ps := by
  refine ⟨fun name f cfg prov hf hok => ?_, ?_⟩
  · have hmem := GoMap.mem_of_ofList hf
    simp only [List.mem_cons, List.not_mem_nil, or_false, Prod.mk.injEq] at hmem
    rcases hmem with ⟨rfl, rfl⟩ | ⟨rfl, rfl⟩
    · simp only at hok
      split_ifs at hok
      obtain rfl := Except.ok.inj hok
      rfl
    · obtain rfl := Except.ok.inj hok
      rfl
  · obtain ⟨cfg, -⟩ := load_sampleEnv
    let env (v : GoString) : Env := GoMap.ofList [(lit "WEBHOOK_PROVIDERS", v)]
    have hab : Setting.enabledProviders.value (env (lit "a,b")) = .ok [lit "a", lit "b"] := rfl
    have hba : Setting.enabledProviders.value (env (lit "b,a")) = .ok [lit "b", lit "a"] := rfl
    refine ⟨cfg, env (lit "a,b"), env (lit "b,a"), hab, hba, ?_, ⟨_, rfl⟩, ?_⟩
    · ext e
      rw [← (Setting.enabledProviders_value hab).2, ← (Setting.enabledProviders_value hba).2]
      simp [or_comm]
    · rintro ⟨ps, hps⟩
      cases hps

end Webhookd
