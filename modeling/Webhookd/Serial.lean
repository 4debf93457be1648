import Webhookd.RateLimit

/-!
# Rate limiting of requests that are served alone

Where requests are served one after the other, the limiters are a map, and
`RateLimit` is a function of it (`limit`). It is what the concurrent model does
when the steps of a request are not interleaved with those of others
(`limit_run`).
-/

namespace Webhookd

open Go

/-- The instants at which a request calls its limiter. -/
structure Instants where
  allow : Int
  reserve : Int
  delay : Int
  cancel : Int

/-- The verdict on a request that has got a limiter, and what it leaves of it. -/
def judge (R : Rate) (provider : GoString) (lim : R.Limiter) (t : Instants) :
    Verdict × R.Limiter :=
  let allowed := R.allow lim t.allow
  if allowed.1 then (.next, allowed.2)
  else if ValidString provider then
    let reserved := R.reserve allowed.2 t.reserve
    (.limited (retryAfter (R.delay reserved.1 t.delay)),
      R.cancel reserved.2 reserved.1 t.cancel)
  else (.panicked, allowed.2)

/-- `RateLimit`: the verdict on a request, and the limiters that it leaves. -/
def limit (R : Rate) (cfg : RateLimitConfig) (path : GoString) (t : Instants)
    (limiters : GoMap R.Limiter) : Verdict × GoMap R.Limiter :=
  let provider := providerFromPath path
  if provider = [] then (.next, limiters)
  else
    let lim := (limiters provider).getD (R.newLimiter cfg.rps cfg.burst)
    ((judge R provider lim t).1, limiters.insert provider (judge R provider lim t).2)

variable {R : Rate} {cfg : RateLimitConfig}

/-- A request is passed on if it has no provider, or the limiter of its provider admits
    it. -/
theorem limit_next_iff {path : GoString} {t : Instants} {limiters : GoMap R.Limiter} :
    (limit R cfg path t limiters).1 = .next ↔ providerFromPath path = [] ∨
      (R.allow ((limiters (providerFromPath path)).getD (R.newLimiter cfg.rps cfg.burst))
        t.allow).1 = true := by
  simp only [limit, judge]
  split_ifs with hp hok hv <;> simp [*]

/-- The limiters by their keys. -/
def Limiters.byKey (g : Limiters R) : GoMap R.Limiter :=
  fun p => (g.registry.table p).bind g.registry.heap

/-- The steps of request `i` at the given instants, without those of others. -/
def Limiting.steps (cfg : RateLimitConfig) (i : Nat) (ts : List Int)
    (x : Limiting R × Limiters R) : Option (Limiting R × Limiters R) :=
  ts.foldlM (fun (q, g) t => q.step cfg i t g) x

section

variable {i lim : Nat} {g g' : Limiters R} {q q' : Limiting R} {p : GoString} {o : R.Limiter}
  {op : LimiterOp R} {out : LimiterOut R}

theorem Limiting.steps_cons {t : Int} {ts : List Int} (h : q.step cfg i t g = some (q', g')) :
    Limiting.steps cfg i (t :: ts) (q, g) = Limiting.steps cfg i ts (q', g') := by
  simp only [Limiting.steps, List.foldlM_cons, h]
  rfl

theorem Limiting.steps_append {ts ts' : List Int} {x y z : Limiting R × Limiters R}
    (h : Limiting.steps cfg i ts x = some y) (h' : Limiting.steps cfg i ts' y = some z) :
    Limiting.steps cfg i (ts ++ ts') x = some z := by
  rw [Limiting.steps, List.foldlM_append]
  exact Option.bind_eq_some_iff.mpr ⟨y, h, h'⟩

theorem run_steps {s : Pool.State (Limiters R) (Limiting R)} {ts : List Int}
    (hq : s.procs i = some q) (h : Limiting.steps cfg i ts (q, s.shared) = some (q', g')) :
    ∃ s', (rateLimit R cfg).machine.run s (ts.map (.step i ·)) = some s' ∧
      s'.procs i = some q' ∧ s'.shared = g' := by
  induction ts generalizing s q with
  | nil =>
    obtain ⟨rfl, rfl⟩ := Prod.mk.inj (Option.some.inj h)
    exact ⟨s, rfl, hq, rfl⟩
  | cons t ts ih =>
    simp only [Limiting.steps, List.foldlM_cons] at h
    obtain ⟨⟨q₁, g₁⟩, hstep, h⟩ := Option.bind_eq_some_iff.mp h
    obtain ⟨s', hr, hs'⟩ := ih (s := ⟨g₁, Function.update s.procs i (some q₁)⟩)
      (Function.update_self ..) h
    exact ⟨s', Machine.run_cons_eq_some.mpr
      ⟨_, Pool.step_step.mpr ⟨q, hq, q₁, g₁, hstep, rfl⟩, hr⟩, hs'⟩

/-- An operation changes the limiter of its key only. -/
theorem use_byKey (hco : g.registry.Coherent (limiter R cfg)) (hk : g.registry.table p = some lim)
    (ho : g.byKey p = some o) (op : LimiterOp R) :
    ∃ g', g.use cfg p lim op = some (((limiter R cfg).apply o op).1, g') ∧
      g'.registry.Coherent (limiter R cfg) ∧ g'.registry.table p = some lim ∧
      g'.byKey = g.byKey.insert p ((limiter R cfg).apply o op).2 := by
  rw [Limiters.byKey, hk, Option.bind_some] at ho
  have hu : g.use cfg p lim op = some (((limiter R cfg).apply o op).1, _) :=
    Limiters.use_of_heap ho
  obtain ⟨reg, hreg, heq⟩ := Limiters.use_eq_some hu
  refine ⟨_, hu, heq ▸ hco.use hk hreg, hk, ?_⟩
  ext p' : 1
  by_cases hp : p' = p
  · subst hp
    simp [Limiters.byKey, hk]
  · rw [GoMap.insert_of_ne _ hp]
    simp only [Limiters.byKey]
    rcases hk' : g.registry.table p' with _ | lim'
    · rfl
    · refine Function.update_of_ne ?_ ..
      rintro rfl
      exact hp (hco.inj hk' hk)

/-- A fresh limiter that is stored is there for its key. -/
theorem store_byKey (hi : g.registry.Absent i) (p : GoString) :
    Limiters.byKey { g with registry := (g.registry.create (limiter R cfg) i).store p i } =
      g.byKey.insert p (R.newLimiter cfg.rps cfg.burst) := by
  ext p' : 1
  by_cases hp : p' = p
  · subst hp
    simp [Limiters.byKey, Registry.store, Registry.create, limiter]
  · rw [GoMap.insert_of_ne _ hp]
    simp only [Limiters.byKey, Registry.store, Registry.create, Function.update_of_ne hp]
    rcases hk : g.registry.table p' with _ | lim
    · rfl
    · refine Function.update_of_ne ?_ ..
      rintro rfl
      exact hi p' hk

/-- The limiter of a key is found, or a fresh one is stored for it. -/
theorem exists_limiter (hco : g.registry.Coherent (limiter R cfg)) (hi : g.registry.Absent i)
    (p : GoString) : ∃ ts lim g', Limiting.steps cfg i ts (.load p, g) = some (.allow p lim, g') ∧
      g'.registry.Coherent (limiter R cfg) ∧ g'.registry.table p = some lim ∧
      g'.byKey = g.byKey.insert p ((g.byKey p).getD (R.newLimiter cfg.rps cfg.burst)) := by
  rcases hk : g.registry.table p with _ | lim
  · have hst : (g.registry.create (limiter R cfg) i).loadOrStore p i =
        (i, (g.registry.create (limiter R cfg) i).store p i) := by
      simp only [Registry.loadOrStore, Registry.create, hk]
    refine ⟨[0, 0], i, { g with registry := (g.registry.create (limiter R cfg) i).store p i }, ?_,
      (hco.create hi).loadOrStore (Registry.candidate_create hi) hst,
      Registry.loadOrStore_table hst, ?_⟩
    · rw [Limiting.steps_cons (Limiting.step_load_of_none cfg hk 0),
        Limiting.steps_cons (Limiting.step_loadOrStore cfg hst 0)]
      rfl
    · rw [store_byKey hi, Limiters.byKey, hk]
      rfl
  · obtain ⟨o, ho, -⟩ := hco.object hk
    have hkey : g.byKey p = some o := by
      rw [Limiters.byKey, hk, Option.bind_some, ho]
    refine ⟨[0], lim, g, ?_, hco, hk, ?_⟩
    · rw [Limiting.steps_cons (by simp only [Limiting.step, hk]; rfl)]
      rfl
    · rw [hkey]
      exact (Function.update_eq_self_iff.mpr hkey.symm).symm

/-- A request that has got a limiter is answered by its calls on it. -/
theorem exists_verdict (hco : g.registry.Coherent (limiter R cfg))
    (hk : g.registry.table p = some lim) (ho : g.byKey p = some o) (t : Instants) :
    ∃ ts g', Limiting.steps cfg i ts (.allow p lim, g) = some (.done (judge R p o t).1, g') ∧
      g'.byKey = g.byKey.insert p (judge R p o t).2 := by
  obtain ⟨g₁, hu₁, hco₁, hk₁, hb₁⟩ := use_byKey hco hk ho (.allow t.allow)
  by_cases hok : (R.allow o t.allow).1 = true
  · simp only [judge, if_pos hok]
    refine ⟨[t.allow], g₁, ?_, hb₁⟩
    rw [Limiting.steps_cons (by simp only [Limiting.step, hu₁, limiter, hok]; rfl)]
    rfl
  have hallow : (Limiting.allow p lim).step cfg i t.allow g = some (.count p lim, g₁) := by
    simp only [Limiting.step, hu₁, limiter, Bool.not_eq_true _ ▸ hok]
    rfl
  simp only [judge, if_neg hok]
  by_cases hv : ValidString p
  · simp only [if_pos hv]
    obtain ⟨g₂, hcount, hco₂, hk₂, hb₂⟩ : ∃ g₂,
        (Limiting.count p lim).step cfg i 0 g₁ = some (.reserve p lim, g₂) ∧
        g₂.registry.Coherent (limiter R cfg) ∧ g₂.registry.table p = some lim ∧
        g₂.byKey = g.byKey.insert p (R.allow o t.allow).2 :=
      ⟨{ g₁ with labels := insert p g₁.labels }, by simp only [Limiting.step, if_pos hv], hco₁, hk₁,
        hb₁⟩
    have ho₂ := (congrFun hb₂ p).trans (GoMap.insert_self ..)
    obtain ⟨g₃, hu₃, hco₃, hk₃, hb₃⟩ := use_byKey hco₂ hk₂ ho₂ (.reserve t.reserve)
    have ho₃ := (congrFun hb₃ p).trans (GoMap.insert_self ..)
    obtain ⟨g₄, hu₄, -, -, hb₄⟩ := use_byKey hco₃ hk₃ ho₃
      (.cancel (R.reserve (R.allow o t.allow).2 t.reserve).1 t.cancel)
    refine ⟨[t.allow, 0, t.reserve, t.delay, t.cancel], g₄, ?_, ?_⟩
    · rw [Limiting.steps_cons hallow, Limiting.steps_cons hcount,
        Limiting.steps_cons (by simp only [Limiting.step, hu₃, limiter]; rfl),
        Limiting.steps_cons (by simp only [Limiting.step]; rfl),
        Limiting.steps_cons (by simp only [Limiting.step, hu₄]; rfl)]
      rfl
    · rw [hb₄, hb₃, hb₂]
      simp only [GoMap.insert, Function.update_idem]
      rfl
  · simp only [if_neg hv]
    refine ⟨[t.allow, 0], g₁, ?_, hb₁⟩
    rw [Limiting.steps_cons hallow,
      Limiting.steps_cons (by simp only [Limiting.step, if_neg hv]; rfl)]
    rfl

/-- A request that is served alone has the verdict of `limit`, and leaves the same
    limiters. -/
theorem limit_run {s : Pool.State (Limiters R) (Limiting R)}
    (hs : (rateLimit R cfg).machine.Reachable s) (hi : s.procs i = none) (path : GoString)
    (t : Instants) :
    ∃ (ts : List Int) (s' : _),
      (rateLimit R cfg).machine.run s (.start i path :: ts.map (.step i ·)) = some s' ∧
      s'.procs i = some (.done (limit R cfg path t s.shared.byKey).1) ∧
      s'.shared.byKey = (limit R cfg path t s.shared.byKey).2 := by
  obtain ⟨hco, hP⟩ := (limits_invariant R cfg).reachable Registry.coherent_empty
    (fun i k => nofun) hs
  have habs : s.shared.registry.Absent i := by
    have := hP i
    rwa [hi] at this
  have hstart := rateLimit_start cfg hi path
  rw [limit]
  by_cases hp : providerFromPath path = []
  · rw [if_pos hp] at hstart ⊢
    exact ⟨[], _, Machine.run_cons_eq_some.mpr ⟨_, hstart, rfl⟩, Function.update_self .., rfl⟩
  · rw [if_neg hp] at hstart ⊢
    obtain ⟨ts₁, lim, g₁, hs₁, hco₁, hk₁, hb₁⟩ := exists_limiter hco habs (providerFromPath path)
    have ho₁ := (congrFun hb₁ (providerFromPath path)).trans (GoMap.insert_self ..)
    obtain ⟨ts₂, g₂, hs₂, hb₂⟩ := exists_verdict (i := i) hco₁ hk₁ ho₁ t
    obtain ⟨s', hr, hq, hg⟩ := run_steps
      (s := ⟨s.shared, Function.update s.procs i (some (.load (providerFromPath path)))⟩)
      (Function.update_self ..) (Limiting.steps_append hs₁ hs₂)
    refine ⟨ts₁ ++ ts₂, s', Machine.run_cons_eq_some.mpr ⟨_, hstart, hr⟩, hq, ?_⟩
    rw [hg, hb₂, hb₁]
    simp only [GoMap.insert, Function.update_idem]

end

end Webhookd
