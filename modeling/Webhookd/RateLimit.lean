import Mathlib.Data.Set.Card
import Webhookd.Config
import Webhookd.Go.Rate
import Webhookd.Machine.Pool
import Webhookd.Machine.Registry

/-!
# Rate limiting

The middleware `RateLimit`, which runs before routing and before any signature
is verified. A request is cut into its atomic steps: the lookup of a limiter by
the first segment of its path, the creation of a new one, and the operations
on the one it got; requests take them in any order.

* `limiters_independent`: for each key all operations are on one limiter, and
  answer as if there were no other key;
* `entries_bounded_iff`: whatever requests are made, their limiters and labels
  are at most as many as there are enabled providers exactly when their keys
  are;
* `entries_unbounded`: two requests for unknown providers break this.
-/

namespace Webhookd

open Go

/-! ## The middleware -/

/-- `webhookPathPrefix`. -/
def webhookPathPrefix : GoString := "/webhook/"

/-- `providerFromPath`: what follows the prefix, up to a slash. -/
def providerFromPath (p : GoString) : GoString :=
  match webhookPathPrefix.isPrefixOf? p with
  | none => []
  | some rest => rest.takeWhile (· ≠ ch '/')

/-- `RateLimitConfig`. -/
structure RateLimitConfig where
  rps : Float64
  burst : Int

/-- The configuration that `buildPublicHandler` passes on. -/
def Config.rateLimit (cfg : Config) : RateLimitConfig := ⟨cfg.rateLimitRPS, cfg.rateLimitBurst⟩

/-- The seconds of `retryAfter`, from the delay of a reservation. -/
def retryAfter (d : Duration) : Int :=
  if d ≤ 0 then 1
  else
    let secs := d / second
    let secs := if 0 < d % second then secs + 1 else secs
    if secs < 1 then 1 else secs

/-- The operations on a limiter, each at an instant. -/
inductive LimiterOp (R : Rate)
  | allow (t : Int)
  | reserve (t : Int)
  | cancel (r : R.Reservation) (t : Int)

/-- Their answers. -/
inductive LimiterOut (R : Rate)
  | allowed (ok : Bool)
  | reserved (r : R.Reservation)
  | cancelled

/-- The decision about an event. -/
def LimiterOut.decision {R : Rate} : LimiterOut R → Option Bool
  | .allowed ok => some ok
  | .reserved _ | .cancelled => none

/-- `rate.NewLimiter(limit, burst)`, and its operations. -/
def limiter (R : Rate) (cfg : RateLimitConfig) : Object R.Limiter (LimiterOp R) (LimiterOut R) where
  fresh := R.newLimiter cfg.rps cfg.burst
  apply lim
    | .allow t => (.allowed (R.allow lim t).1, (R.allow lim t).2)
    | .reserve t => (.reserved (R.reserve lim t).1, (R.reserve lim t).2)
    | .cancel r t => (.cancelled, R.cancel lim r t)

/-- What becomes of a request: it is passed on, or answered with status 429 and a
    `Retry-After`. The metric panics on a label that is not valid UTF-8. -/
inductive Verdict
  | next
  | limited (retryAfter : Int)
  | panicked
  deriving DecidableEq

/-- Where a request is. `lim` is the address of the limiter that it got. -/
inductive Limiting (R : Rate)
  /-- `limiters.Load(provider)` -/
  | load (provider : GoString)
  /-- `limiters.LoadOrStore(provider, newLim)` -/
  | loadOrStore (provider : GoString)
  /-- `lim.Allow()` -/
  | allow (provider : GoString) (lim : Nat)
  /-- `m.HTTPRateLimited.WithLabelValues(provider).Inc()` -/
  | count (provider : GoString) (lim : Nat)
  /-- `lim.Reserve()` -/
  | reserve (provider : GoString) (lim : Nat)
  /-- `r.Delay()` -/
  | delay (provider : GoString) (lim : Nat) (r : R.Reservation)
  /-- `r.Cancel()` -/
  | cancel (provider : GoString) (lim : Nat) (r : R.Reservation) (retry : Int)
  | done (v : Verdict)

/-- The limiters, and the labels that were created on `HTTPRateLimited`. -/
structure Limiters (R : Rate) where
  registry : Registry GoString R.Limiter (LimiterOp R) (LimiterOut R)
  labels : Finset GoString

variable {R : Rate} {cfg : RateLimitConfig}

/-- An operation of a request on its limiter. -/
def Limiters.use (cfg : RateLimitConfig) (g : Limiters R) (provider : GoString) (lim : Nat)
    (op : LimiterOp R) : Option (LimiterOut R × Limiters R) :=
  (g.registry.use (limiter R cfg) provider lim op).map fun (out, reg) =>
    (out, { g with registry := reg })

/-- A step of request `i`, at an instant. -/
def Limiting.step (cfg : RateLimitConfig) (i : Nat) (t : Int) (g : Limiters R) :
    Limiting R → Option (Limiting R × Limiters R)
  | .load provider =>
    match g.registry.table provider with
    | some lim => some (.allow provider lim, g)
    -- The new limiter is allocated before the table is asked again.
    | none => some (.loadOrStore provider,
        { g with registry := g.registry.create (limiter R cfg) i })
  | .loadOrStore provider =>
    let (lim, reg) := g.registry.loadOrStore provider i
    some (.allow provider lim, { g with registry := reg })
  | .allow provider lim => do
    match ← g.use cfg provider lim (.allow t) with
    | (.allowed true, g) => some (.done .next, g)
    | (.allowed false, g) => some (.count provider lim, g)
    | _ => none
  | .count provider lim =>
    if ValidString provider then
      some (.reserve provider lim, { g with labels := insert provider g.labels })
    else some (.done .panicked, g)
  | .reserve provider lim => do
    match ← g.use cfg provider lim (.reserve t) with
    | (.reserved r, g) => some (.delay provider lim r, g)
    | _ => none
  | .delay provider lim r => some (.cancel provider lim r (retryAfter (R.delay r t)), g)
  | .cancel provider lim r retry => do
    let (_, g) ← g.use cfg provider lim (.cancel r t)
    some (.done (.limited retry), g)
  | .done _ => none

/-- `RateLimit`, on requests with the given paths. -/
def rateLimit (R : Rate) (cfg : RateLimitConfig) :
    Pool (Limiters R) (Limiting R) GoString Int Empty where
  init := ⟨.empty, ∅⟩
  start _ path g :=
    let provider := providerFromPath path
    some (if provider = [] then .done .next else .load provider, g)
  step i q t g := q.step cfg i t g
  env x _ := x.elim

/-! ## What a request can do -/

/-- The steps of request `i`, one by one. -/
inductive Limits (cfg : RateLimitConfig) (i : Nat) (t : Int) (g : Limiters R) :
    Limiting R → Limiting R → Limiters R → Prop
  | found {p lim} (h : g.registry.table p = some lim) :
      Limits cfg i t g (.load p) (.allow p lim) g
  | missed {p} (h : g.registry.table p = none) : Limits cfg i t g (.load p) (.loadOrStore p)
      { g with registry := g.registry.create (limiter R cfg) i }
  | stored {p lim reg} (h : g.registry.loadOrStore p i = (lim, reg)) :
      Limits cfg i t g (.loadOrStore p) (.allow p lim) { g with registry := reg }
  | admitted {p lim reg}
      (h : g.registry.use (limiter R cfg) p lim (.allow t) = some (.allowed true, reg)) :
      Limits cfg i t g (.allow p lim) (.done .next) { g with registry := reg }
  | refused {p lim reg}
      (h : g.registry.use (limiter R cfg) p lim (.allow t) = some (.allowed false, reg)) :
      Limits cfg i t g (.allow p lim) (.count p lim) { g with registry := reg }
  | counted {p lim} (h : ValidString p) : Limits cfg i t g (.count p lim) (.reserve p lim)
      { g with labels := insert p g.labels }
  | panicked {p lim} (h : ¬ValidString p) : Limits cfg i t g (.count p lim) (.done .panicked) g
  | reserved {p lim r reg}
      (h : g.registry.use (limiter R cfg) p lim (.reserve t) = some (.reserved r, reg)) :
      Limits cfg i t g (.reserve p lim) (.delay p lim r) { g with registry := reg }
  | delayed {p lim r} : Limits cfg i t g (.delay p lim r)
      (.cancel p lim r (retryAfter (R.delay r t))) g
  | cancelled {p lim r n out reg}
      (h : g.registry.use (limiter R cfg) p lim (.cancel r t) = some (out, reg)) :
      Limits cfg i t g (.cancel p lim r n) (.done (.limited n)) { g with registry := reg }

section

variable {i : Nat} {t : Int} {g g' : Limiters R} {q q' : Limiting R} {p : GoString} {lim : Nat}
  {op : LimiterOp R} {out : LimiterOut R}

/-- An operation on a limiter is one on the registry. -/
theorem Limiters.use_eq_some (h : g.use cfg p lim op = some (out, g')) :
    ∃ reg, g.registry.use (limiter R cfg) p lim op = some (out, reg) ∧
      g' = { g with registry := reg } := by
  obtain ⟨⟨out', reg⟩, hu, heq⟩ := Option.map_eq_some_iff.mp h
  obtain ⟨rfl, rfl⟩ := Prod.mk.inj heq
  exact ⟨reg, hu, rfl⟩

theorem Limiters.use_of_heap {o : R.Limiter} (h : g.registry.heap lim = some o) :
    g.use cfg p lim op = some (((limiter R cfg).apply o op).1, { g with registry :=
      { g.registry with
        heap := Function.update g.registry.heap lim (some ((limiter R cfg).apply o op).2)
        history := g.registry.history ++ [⟨p, lim, op, ((limiter R cfg).apply o op).1⟩] } }) := by
  rw [Limiters.use, Registry.use, h]
  rfl

/-- The steps of a request are those that `Limits` lists. -/
theorem Limiting.step_eq_some (h : q.step cfg i t g = some (q', g')) :
    Limits cfg i t g q q' g' := by
  cases q with
  | load p =>
    simp only [Limiting.step] at h
    split at h
    · obtain ⟨rfl, rfl⟩ := Prod.mk.inj (Option.some.inj h)
      exact .found ‹_›
    · obtain ⟨rfl, rfl⟩ := Prod.mk.inj (Option.some.inj h)
      exact .missed ‹_›
  | loadOrStore p =>
    obtain ⟨rfl, rfl⟩ := Prod.mk.inj (Option.some.inj h)
    exact .stored rfl
  | allow p lim =>
    obtain ⟨⟨out, g₁⟩, hu, h⟩ := Option.bind_eq_some_iff.mp h
    obtain ⟨reg, hreg, rfl⟩ := Limiters.use_eq_some hu
    rcases out with ok | r | _
    · cases ok
      · obtain ⟨rfl, rfl⟩ := Prod.mk.inj (Option.some.inj h)
        exact .refused hreg
      · obtain ⟨rfl, rfl⟩ := Prod.mk.inj (Option.some.inj h)
        exact .admitted hreg
    · cases h
    · cases h
  | count p lim =>
    simp only [Limiting.step] at h
    split_ifs at h with hv
    · obtain ⟨rfl, rfl⟩ := Prod.mk.inj (Option.some.inj h)
      exact .counted hv
    · obtain ⟨rfl, rfl⟩ := Prod.mk.inj (Option.some.inj h)
      exact .panicked hv
  | reserve p lim =>
    obtain ⟨⟨out, g₁⟩, hu, h⟩ := Option.bind_eq_some_iff.mp h
    obtain ⟨reg, hreg, rfl⟩ := Limiters.use_eq_some hu
    rcases out with ok | r | _
    · cases h
    · obtain ⟨rfl, rfl⟩ := Prod.mk.inj (Option.some.inj h)
      exact .reserved hreg
    · cases h
  | delay p lim r =>
    obtain ⟨rfl, rfl⟩ := Prod.mk.inj (Option.some.inj h)
    exact .delayed
  | cancel p lim r n =>
    obtain ⟨⟨out, g₁⟩, hu, h⟩ := Option.bind_eq_some_iff.mp h
    obtain ⟨reg, hreg, rfl⟩ := Limiters.use_eq_some hu
    obtain ⟨rfl, rfl⟩ := Prod.mk.inj (Option.some.inj h)
    exact .cancelled hreg
  | done v => cases h

end

/-! ## One limiter for each key -/

/-- The key of a request, and the limiter that it got. -/
def Limiting.limiter? : Limiting R → Option (GoString × Nat)
  | .load _ | .loadOrStore _ | .done _ => none
  | .allow p lim | .count p lim | .reserve p lim | .delay p lim _ | .cancel p lim _ _ =>
    some (p, lim)

/-- What a request relies on: its own limiter is not in the table before it is
    stored, and the one it got is. -/
def Limiting.Relies (cfg : RateLimitConfig) (i : Nat) (g : Limiters R) :
    Option (Limiting R) → Prop
  | none | some (.load _) => g.registry.Absent i
  | some (.loadOrStore _) => g.registry.Candidate (limiter R cfg) i
  | some q => ∀ p lim, q.limiter? = some (p, lim) → g.registry.table p = some lim

section

variable {i j : Nat} {t : Int} {g g' : Limiters R} {q q' : Limiting R} {x : Option (Limiting R)}

/-- What a request relies on is not changed by another. -/
theorem Limiting.Relies.stable (h : Relies cfg i g x) (hij : i ≠ j)
    (he : g.registry.Extends (limiter R cfg) j g'.registry) : Relies cfg i g' x := by
  cases x with
  | none => exact he.absent hij h
  | some q =>
    cases q with
    | load p => exact he.absent hij h
    | loadOrStore p => exact he.candidate hij h
    | _ => exact fun p lim hq => he.table (h p lim hq)

/-- A step of a request keeps the limiters coherent, and what all requests rely on. -/
theorem Limiting.Relies.step (hco : g.registry.Coherent (limiter R cfg))
    (h : Relies cfg i g (some q)) (hs : Limits cfg i t g q q' g') :
    g'.registry.Coherent (limiter R cfg) ∧ Relies cfg i g' (some q') ∧
      g.registry.Extends (limiter R cfg) i g'.registry := by
  cases hs with
  | found hk =>
    refine ⟨hco, fun p lim hq => ?_, .refl ..⟩
    obtain ⟨rfl, rfl⟩ := Prod.mk.inj (Option.some.inj hq)
    exact hk
  -- The address is fresh because a request creates at most one limiter.
  | missed => exact ⟨hco.create h, Registry.candidate_create h, Registry.extends_create ..⟩
  | stored hst =>
    refine ⟨hco.loadOrStore h hst, fun p lim hq => ?_, Registry.extends_loadOrStore hst⟩
    obtain ⟨rfl, rfl⟩ := Prod.mk.inj (Option.some.inj hq)
    exact Registry.loadOrStore_table hst
  | admitted hu =>
    have hk := h _ _ rfl
    exact ⟨hco.use hk hu, nofun, Registry.extends_use hk hu i⟩
  | refused hu =>
    have hk := h _ _ rfl
    have he := Registry.extends_use hk hu i
    exact ⟨hco.use hk hu, fun p lim hq => he.table (h p lim hq), he⟩
  | counted => exact ⟨hco, h, .refl ..⟩
  | panicked => exact ⟨hco, nofun, .refl ..⟩
  | reserved hu =>
    have hk := h _ _ rfl
    have he := Registry.extends_use hk hu i
    exact ⟨hco.use hk hu, fun p lim hq => he.table (h p lim hq), he⟩
  | delayed => exact ⟨hco, h, .refl ..⟩
  | cancelled hu =>
    have hk := h _ _ rfl
    exact ⟨hco.use hk hu, nofun, Registry.extends_use hk hu i⟩

end

/-- Each key has one limiter, however requests race for it. -/
theorem limits_invariant (R : Rate) (cfg : RateLimitConfig) :
    (rateLimit R cfg).Invariant (fun _ => True) (fun g => g.registry.Coherent (limiter R cfg))
      (fun i x g => Limiting.Relies cfg i g x)
      (fun j g g' => ∃ i, j = some i ∧ g.registry.Extends (limiter R cfg) i g'.registry) where
  start {i path g q g'} _ hco h hs := by
    obtain ⟨rfl, rfl⟩ := Prod.mk.inj (Option.some.inj hs)
    refine ⟨hco, ?_, i, rfl, .refl ..⟩
    split_ifs
    · exact nofun
    · exact h
  step {i t g q q' g'} _ hco h hs := by
    obtain ⟨hco', h', he⟩ := h.step hco (Limiting.step_eq_some hs)
    exact ⟨hco', h', i, rfl, he⟩
  env {x} := x.elim
  stable {i j x g g'} hij _ h hr := by
    obtain ⟨j, rfl, he⟩ := hr
    exact h.stable (fun hji => hij (congrArg some hji)) he

/-- The limiters refine independent buckets: in whatever order requests take their
    steps, all operations for a key are on one limiter, which is the one that any
    request with that key has got, and they answer like those of a fresh limiter
    that gets no others. -/
theorem limiters_independent (R : Rate) (cfg : RateLimitConfig)
    {s : Pool.State (Limiters R) (Limiting R)} (hs : (rateLimit R cfg).machine.Reachable s) :
    (∀ u ∈ s.shared.registry.history, ∀ v ∈ s.shared.registry.history, u.key = v.key →
      u.addr = v.addr) ∧
    (∀ i q p lim, s.procs i = some q → q.limiter? = some (p, lim) →
      s.shared.registry.table p = some lim ∧
      ∀ u ∈ s.shared.registry.history, u.key = p → u.addr = lim) ∧
    ∀ p, (s.shared.registry.uses p).map Use.out =
      ((limiter R cfg).run (R.newLimiter cfg.rps cfg.burst)
        ((s.shared.registry.uses p).map Use.op)).1 := by
  obtain ⟨hco, hP⟩ := (limits_invariant R cfg).reachable Registry.coherent_empty
    (fun i k => nofun) hs
  refine ⟨fun u hu v hv => hco.addr_eq hu hv, fun i q p lim hq hlim => ?_, hco.outs_eq⟩
  have hk : s.shared.registry.table p = some lim := by
    have := hP i
    rw [hq] at this
    cases q with
    | load => cases hlim
    | loadOrStore => cases hlim
    | _ => exact this p lim hlim
  refine ⟨hk, ?_⟩
  rintro u hu rfl
  exact Option.some.inj ((hco.mem hu).symm.trans hk)

/-- Two requests that both find no limiter, for one that allows a single event. -/
def sampleRace : List (Pool.Label GoString Int Empty) :=
  [.start 0 (lit "/webhook/jsm"), .start 1 (lit "/webhook/jsm"), .step 0 0, .step 1 0, .step 1 0,
    .step 0 0, .step 0 0, .step 1 0]

theorem limiters_independent_sampleRace :
    ∃ s u v, (rateLimit exactRate ⟨.fin 1, 1⟩).machine.Reachable s ∧
      u ∈ s.shared.registry.history ∧ v ∈ s.shared.registry.history ∧
      u.out.decision = some true ∧ v.out.decision = some false ∧ u.addr = v.addr := by
  let m := (rateLimit exactRate ⟨.fin 1, 1⟩).machine
  have h : (m.run m.init sampleRace).any (fun s =>
      s.shared.registry.history.map (fun u => (u.key, u.out.decision)) =
        [(lit "jsm", some true), (lit "jsm", some false)]) = true := by decide +kernel
  obtain ⟨s, hs, h⟩ := (Option.any_eq_true ..).mp h
  have hmap := of_decide_eq_true h
  have hr : m.Reachable s := ⟨sampleRace, hs⟩
  obtain ⟨u, hu, huk⟩ := List.mem_map.mp (hmap ▸ List.mem_cons_self)
  obtain ⟨v, hv, hvk⟩ := List.mem_map.mp (hmap ▸ List.mem_cons_of_mem _ List.mem_cons_self)
  obtain ⟨huk, hud⟩ := Prod.mk.inj huk
  obtain ⟨hvk, hvd⟩ := Prod.mk.inj hvk
  exact ⟨s, u, v, hr, hu, hv, hud, hvd,
    (limiters_independent exactRate ⟨.fin 1, 1⟩ hr).1 u hu v hv (huk.trans hvk.symm)⟩

/-! ## How many limiters there are -/

/-- The keys of requests with the given paths. -/
def keys (paths : List GoString) : Finset GoString := (paths.map providerFromPath).toFinset.erase []

/-- The path of the request that a step starts. -/
def startedPath : Pool.Label GoString Int Empty → Option GoString
  | .start _ path => some path
  | _ => none

/-- There are at most `n` limiters and `n` labels. -/
def Limiters.Bounded (n : Nat) (g : Limiters R) : Prop :=
  {p | g.registry.table p ≠ none}.encard ≤ n ∧ g.labels.card ≤ n

/-- The key of a request that needs a limiter. -/
def Limiting.key? : Limiting R → Option GoString
  | .load p | .loadOrStore p | .allow p _ | .count p _ | .reserve p _ | .delay p _ _
  | .cancel p _ _ _ => some p
  | .done _ => none

/-- All limiters and labels have keys in `S`. -/
def Limiters.Within (S : Finset GoString) (g : Limiters R) : Prop :=
  (∀ p, g.registry.table p ≠ none → p ∈ S) ∧ g.labels ⊆ S

section

variable {S : Finset GoString} {i : Nat} {t : Int} {g g' : Limiters R} {q q' : Limiting R}

/-- A request does not change its key. -/
theorem Limits.key_eq {p : GoString} (h : Limits cfg i t g q q' g') (hq : q'.key? = some p) :
    q.key? = some p := by
  cases h with
  | admitted | panicked | cancelled => cases hq
  | _ => exact hq

/-- A step of a request with a key in `S`. -/
theorem Limiters.Within.step (hg : g.Within S) (hq : ∀ p, q.key? = some p → p ∈ S)
    (h : Limits cfg i t g q q' g') : g'.Within S := by
  cases h with
  | stored hst =>
    refine ⟨fun p hp => ?_, hg.2⟩
    rcases Registry.loadOrStore_cases hst with ⟨-, rfl⟩ | ⟨-, -, rfl⟩
    · exact hg.1 p hp
    · obtain ⟨lim, hlim⟩ := Option.ne_none_iff_exists'.mp hp
      rcases Registry.store_table_eq_some.mp hlim with ⟨rfl, -⟩ | ⟨-, hlim⟩
      · exact hq _ rfl
      · exact hg.1 p (Option.ne_none_iff_exists'.mpr ⟨lim, hlim⟩)
  | counted => exact ⟨hg.1, Finset.insert_subset (hq _ rfl) hg.2⟩
  | admitted hu | refused hu | reserved hu | cancelled hu =>
    obtain ⟨o, -, -, rfl⟩ := Registry.use_eq_some hu
    exact hg
  | _ => exact hg

/-- Keys in a finite set are bounded by its size. -/
theorem Limiters.Within.bounded (h : g.Within S) : g.Bounded S.card := by
  refine ⟨?_, Finset.card_le_card h.2⟩
  rw [← Set.encard_coe_eq_coe_finsetCard]
  exact Set.encard_le_encard fun p hp => h.1 p hp

end

/-- The limiters and the labels have keys of requests. -/
theorem within_invariant (R : Rate) (cfg : RateLimitConfig) (S : Finset GoString) :
    (rateLimit R cfg).Invariant
      (fun l => ∀ path, startedPath l = some path → providerFromPath path ≠ [] →
        providerFromPath path ∈ S)
      (Limiters.Within S) (fun _ x _ => ∀ q p, x = some q → q.key? = some p → p ∈ S)
      (fun _ _ _ => True) where
  start {i path g x g'} hG hI _ hs := by
    obtain ⟨rfl, rfl⟩ := Prod.mk.inj (Option.some.inj hs)
    refine ⟨hI, fun q p hq hp => ?_, trivial⟩
    obtain rfl := Option.some.inj hq
    split_ifs at hp with hne
    · cases hp
    · obtain rfl := Option.some.inj hp
      exact hG path rfl hne
  step {i t g q q' g'} _ hI hP hs := by
    have hl := Limiting.step_eq_some hs
    refine ⟨hI.step (fun p => hP q p rfl) hl, fun q₁ p hq hp => ?_, trivial⟩
    obtain rfl := Option.some.inj hq
    exact hP q p rfl (hl.key_eq hp)
  env {x} := x.elim
  stable _ _ hP _ := hP

/-- The keys of paths are their first segments, if these are not empty. -/
theorem mem_keys {paths : List GoString} {p : GoString} :
    p ∈ keys paths ↔ p ≠ [] ∧ ∃ path ∈ paths, providerFromPath path = p := by
  simp [keys]

/-- A run has no more limiters than the keys of its paths. -/
theorem run_bounded {ls : List (Pool.Label GoString Int Empty)}
    {s : Pool.State (Limiters R) (Limiting R)}
    (hs : (rateLimit R cfg).machine.run (rateLimit R cfg).machine.init ls = some s) :
    s.shared.Bounded (keys (ls.filterMap startedPath)).card := by
  refine ((within_invariant R cfg _).run (fun l hl path hpath hne => ?_)
    (Pool.holds_init ⟨fun p hp => absurd rfl hp, Finset.empty_subset _⟩ fun _ _ _ h => nomatch h)
    hs).1.bounded
  exact mem_keys.mpr ⟨hne, path, List.mem_filterMap.mpr ⟨l, hl, hpath⟩, rfl⟩

theorem rateLimit_start (cfg : RateLimitConfig) {s : Pool.State (Limiters R) (Limiting R)}
    {i : Nat} (hi : s.procs i = none) (path : GoString) :
    (rateLimit R cfg).machine.step s (.start i path) = some ⟨s.shared,
      Function.update s.procs i (some (if providerFromPath path = [] then .done .next
        else .load (providerFromPath path)))⟩ :=
  Pool.step_start.mpr ⟨hi, _, _, rfl, rfl⟩

theorem Limiting.step_load_of_none (cfg : RateLimitConfig) {p : GoString} {i : Nat}
    {g : Limiters R} (hk : g.registry.table p = none) (t : Int) :
    (Limiting.load p).step cfg i t g = some (.loadOrStore p,
      { g with registry := g.registry.create (limiter R cfg) i }) := by
  simp only [Limiting.step, hk]

theorem Limiting.step_loadOrStore (cfg : RateLimitConfig) {p : GoString} {i lim : Nat}
    {g : Limiters R} {reg : Registry GoString R.Limiter (LimiterOp R) (LimiterOut R)}
    (hst : g.registry.loadOrStore p i = (lim, reg)) (t : Int) :
    (Limiting.loadOrStore p).step cfg i t g = some (.allow p lim, { g with registry := reg }) := by
  simp only [Limiting.step, hst]

/-- A request that is served alone leaves a limiter for its key. -/
theorem exists_run_one (cfg : RateLimitConfig) (s : Pool.State (Limiters R) (Limiting R))
    {n : Nat} (path : GoString) (hn : s.procs n = none) :
    ∃ ls s', (rateLimit R cfg).machine.run s ls = some s' ∧ ls.filterMap startedPath = [path] ∧
      (providerFromPath path ≠ [] → s'.shared.registry.table (providerFromPath path) ≠ none) ∧
      (∀ p, s.shared.registry.table p ≠ none → s'.shared.registry.table p ≠ none) ∧
      ∀ j, j ≠ n → s'.procs j = s.procs j := by
  have hstart := rateLimit_start cfg hn path
  -- If there is no limiter for its key yet, two more steps create and store one.
  by_cases hp : providerFromPath path ≠ [] ∧ s.shared.registry.table (providerFromPath path) = none
  · obtain ⟨hne, hk⟩ := hp
    rw [if_neg hne] at hstart
    obtain ⟨lim, reg, hst⟩ : ∃ lim reg, (s.shared.registry.create (limiter R cfg) n).loadOrStore
        (providerFromPath path) n = (lim, reg) := ⟨_, _, rfl⟩
    refine ⟨[.start n path, .step n 0, .step n 0], _, Machine.run_cons_eq_some.mpr ⟨_, hstart,
      Machine.run_cons_eq_some.mpr ⟨_, Pool.step_step.mpr ⟨_, Function.update_self .., _, _,
          Limiting.step_load_of_none cfg hk 0, rfl⟩,
        Machine.run_cons_eq_some.mpr ⟨_, Pool.step_step.mpr ⟨_, Function.update_self .., _, _,
          Limiting.step_loadOrStore cfg hst 0, rfl⟩, rfl⟩⟩⟩, rfl,
      fun _ => ?_, fun p hp => ?_, fun j hj => ?_⟩
    · exact Option.ne_none_iff_exists'.mpr ⟨lim, Registry.loadOrStore_table hst⟩
    · obtain ⟨lim', hlim⟩ := Option.ne_none_iff_exists'.mp hp
      have he := Registry.extends_loadOrStore (b := limiter R cfg) hst
      exact Option.ne_none_iff_exists'.mpr ⟨lim', he.table hlim⟩
    · simp only [Function.update_of_ne hj]
  · refine ⟨[.start n path], _, Machine.run_cons_eq_some.mpr ⟨_, hstart, rfl⟩, rfl,
      fun hne hk => hp ⟨hne, hk⟩, fun _ => id, fun j hj => Function.update_of_ne hj ..⟩

/-- Requests that are served one after the other leave limiters for all their keys. -/
theorem exists_run (cfg : RateLimitConfig) (paths : List GoString)
    (s : Pool.State (Limiters R) (Limiting R)) (n : Nat) (hn : ∀ j, n ≤ j → s.procs j = none) :
    ∃ ls s', (rateLimit R cfg).machine.run s ls = some s' ∧ ls.filterMap startedPath = paths ∧
      (∀ p, s.shared.registry.table p ≠ none → s'.shared.registry.table p ≠ none) ∧
      ∀ p ∈ keys paths, s'.shared.registry.table p ≠ none := by
  -- On the requests: the next one takes number `n`, and those from `n + 1` on stay free.
  induction paths generalizing s n with
  | nil => exact ⟨[], s, rfl, rfl, fun _ => id, nofun⟩
  | cons path paths ih =>
    obtain ⟨ls₁, s₁, hr₁, hl₁, hk, ht₁, hj⟩ := exists_run_one cfg s path (hn n le_rfl)
    obtain ⟨ls₂, s₂, hr₂, hl₂, ht₂, hks⟩ := ih s₁ (n + 1) fun j hle =>
      (hj j (Nat.ne_of_gt hle)).trans (hn j (Nat.le_of_succ_le hle))
    refine ⟨ls₁ ++ ls₂, s₂, Machine.run_append_eq_some.mpr ⟨s₁, hr₁, hr₂⟩, ?_,
      fun p hp => ht₂ p (ht₁ p hp), fun p hp => ?_⟩
    · rw [List.filterMap_append, hl₁, hl₂]
      rfl
    · obtain ⟨hne, path', hm, rfl⟩ := mem_keys.mp hp
      rcases List.mem_cons.mp hm with rfl | hm
      · exact ht₂ _ (hk hne)
      · exact hks _ (mem_keys.mpr ⟨hne, path', hm, rfl⟩)

/-- The limiters and the labels that requests leave, in whatever order they take their
    steps, are at most as many as there are enabled providers exactly when the
    requests have at most that many keys. -/
theorem entries_bounded_iff (R : Rate) (cfg : Config) (paths : List GoString) :
    (∀ ls s, (rateLimit R cfg.rateLimit).machine.run (rateLimit R cfg.rateLimit).machine.init ls =
        some s → ls.filterMap startedPath = paths →
      s.shared.Bounded cfg.enabledProviders.length) ↔
    (keys paths).card ≤ cfg.enabledProviders.length := by
  constructor
  · -- Served one after the other, the requests leave a limiter for every key.
    intro h
    obtain ⟨ls, s, hs, hl, -, hk⟩ := exists_run cfg.rateLimit paths
      (rateLimit R cfg.rateLimit).machine.init 0 fun _ _ => rfl
    have hle : (keys paths : Set GoString).encard ≤ cfg.enabledProviders.length :=
      (Set.encard_le_encard fun p hp => hk p hp).trans (h ls s hs hl).1
    rw [Set.encard_coe_eq_coe_finsetCard] at hle
    exact_mod_cast hle
  · rintro h ls s hs rfl
    obtain ⟨he, hl⟩ := run_bounded hs
    exact ⟨he.trans (by exact_mod_cast h), hl.trans h⟩

/-- Two requests for unknown providers leave two limiters, though a single provider is
    enabled. -/
theorem entries_unbounded :
    ∃ cfg ls s, load (sampleEnv []) = .ok cfg ∧ cfg.enabledProviders.length = 1 ∧
      (rateLimit exactRate cfg.rateLimit).machine.run
        (rateLimit exactRate cfg.rateLimit).machine.init ls = some s ∧
      ¬s.shared.Bounded cfg.enabledProviders.length := by
  obtain ⟨cfg, hl, hjsm, -⟩ := load_sampleEnv
  have hone : cfg.enabledProviders.length = 1 := congrArg List.length hjsm
  refine ⟨cfg, [.start 0 (lit "/webhook/a"), .step 0 0, .step 0 0, .start 1 (lit "/webhook/b"),
    .step 1 0, .step 1 0], _, hl, hone, rfl, fun h => ?_⟩
  have hsub : ({lit "a", lit "b"} : Set GoString).encard ≤ 1 := by
    rw [hone] at h
    refine le_trans (Set.encard_le_encard ?_) h.1
    rintro p (rfl | rfl) hp
    · cases hp
    · cases hp
  rw [Set.encard_pair (by decide)] at hsub
  exact absurd hsub (by decide)

end Webhookd
