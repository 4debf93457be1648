import Mathlib.Data.List.TakeWhile
import Webhookd.Dispatcher
import Webhookd.Go.Mux
import Webhookd.RateLimit

/-!
# Intake

A request on its way through the handler of `buildPublicHandler`: past the rate
limiter, which reads the provider from the decoded path, and through the mux,
which reads it from the path as it was sent, to the dispatcher. Requests take
their steps in any order, and what they do is recorded in a journal.

* `providerFromPath_routed`: the limiter and the mux read the same provider;
* `Trace` is what a request has done when it is somewhere in the limiter, and
  holds along every run (`intake_invariant`);
* `verified_after_allow`: no signature is verified without a token of the
  limiter of its provider;
* `answers_iff`: the limiter answers a request unless it refuses one for a
  provider that is not valid UTF-8, on which the metric panics.
-/

namespace Webhookd

open Go

/-! ## Routing -/

/-- The pattern of the public listener. -/
def publicPattern : Pattern where
  method := lit "POST"
  segments := [.literal (lit "webhook"), .wildcard (lit "provider")]
  text := lit "POST /webhook/\x7bprovider\x7d"

def publicMux : ServeMux := [publicPattern]

/-- `r.PathValue("provider")`, of a request that is dispatched. -/
def routedProvider (r : Target) : Option GoString :=
  match publicMux.findHandler r with
  | .matched p values => some (p.pathValue values (lit "provider"))
  | _ => none

/-- A request that is dispatched has two segments, and the last one is the value. -/
theorem segments_of_routedProvider {r : Target} {p : GoString} (h : routedProvider r = some p) :
    segments r.escapedPath = [lit "webhook", p] ∧ p ≠ lit "/" ∧
      ∃ e, r.escapedPath = ch '/' :: e := by
  rw [routedProvider] at h
  split at h
  · rename_i q values hfind
    obtain ⟨hq, hmethod, hmat, hclean⟩ := ServeMux.matches_of_findHandler hfind
    obtain rfl := List.mem_singleton.mp hq
    have hpost : r.method ≠ lit "CONNECT" := by
      rintro hc
      rw [hc] at hmethod
      exact absurd hmethod (by decide)
    obtain ⟨e, he⟩ := cleanPath_head r.escapedPath
    have hsegs : publicPattern.segments = [.literal (lit "webhook"), .wildcard (lit "provider")] :=
      rfl
    rw [hsegs] at hmat
    generalize segments r.escapedPath = ss at hmat
    rcases hmat with _ | hmat
    rename_i hmat
    rcases hmat with _ | _ | ⟨hs, hmat⟩
    cases hmat
    obtain rfl := Option.some.inj h
    exact ⟨rfl, hs, e, (hclean hpost).symm.trans he⟩
  · cases h

/-- The limiter and the mux read the same provider. -/
theorem providerFromPath_routed {r : Target} {p : GoString} (h : routedProvider r = some p)
    (hslash : ch '/' ∉ p) : providerFromPath r.path = p := by
  obtain ⟨hsegs, hp, e, he⟩ := segments_of_routedProvider h
  have hdec := r.unescape_eq
  rw [he, unescape_cons_of_ne (by decide)] at hdec
  obtain ⟨path, hpath, hr⟩ := Option.map_eq_some_iff.mp hdec
  rw [he] at hsegs
  have hmid := path_of_segments_pair hsegs hp hpath
  have hfull : r.path = webhookPathPrefix ++ p := by
    rw [← hr, hmid]
    rfl
  rw [providerFromPath, hfull, List.isPrefixOf?_eq_some_iff_append_eq.mpr rfl]
  exact List.takeWhile_eq_self_iff.mpr fun b hb => decide_eq_true fun heq => hslash (heq ▸ hb)

/-! ## The dispatcher -/

/-- The provider whose `VerifySignature` the dispatcher calls. -/
def Dispatcher.verifier (d : Dispatcher) (r : Request) : Option Provider :=
  match d.providers r.provider, readAll d.maxBodyBytes r.body with
  | some prov, .ok _ => some prov
  | _, _ => none

/-- A bad signature is refused by the provider that the request is for. -/
theorem serveHTTP_of_verifier_some {d : Dispatcher} {r : Request} {prov : Provider}
    (h : d.verifier r = some prov) (now : Time) :
    d.providers r.provider = some prov ∧
      ((∃ e, prov.verifySignature r.header r.body.data now = .error e) →
        serveHTTP d r now = .responded ⟨401, .text "invalid signature"⟩) := by
  rw [Dispatcher.verifier] at h
  split at h
  · rename_i prov' body hp hb
    obtain rfl := Option.some.inj h
    obtain ⟨rfl, -⟩ := readAll_ok.mp hb
    refine ⟨hp, ?_⟩
    rintro ⟨e, he⟩
    simp only [serveHTTP, hp, hb, he]
  · cases h

/-! ## The way of a request -/

/-- A request as it arrives. -/
structure Arrival extends Target where
  header : Header
  body : Body
  ctx : RequestContext

/-- What the dispatcher reads of a request. -/
def Arrival.request (a : Arrival) (provider : GoString) : Request :=
  ⟨provider, a.header, a.body, a.ctx⟩

/-- What a request does. -/
inductive Effect
  /-- `lim.Allow()`, on the limiter at an address. -/
  | allow (provider : GoString) (lim : Nat) (ok : Bool)
  /-- `next.ServeHTTP(w, r)` -/
  | next
  /-- `m.HTTPRateLimited.WithLabelValues(provider).Inc()` -/
  | increment (provider : GoString)
  /-- Status 429 with a `Retry-After`. -/
  | tooManyRequests (retryAfter : Int)
  | panic
  /-- `prov.VerifySignature(r, body)`, for the path value that routes to `prov`. -/
  | verifySignature (provider : GoString)
  deriving DecidableEq

/-- What the middleware does when a request arrives. -/
def Limiting.began {R : Rate} : Limiting R → List Effect
  | .done .next => [.next]
  | _ => []

/-- What a step of the middleware does. -/
def Limiting.effects {R : Rate} : Limiting R → Limiting R → List Effect
  | .allow p lim, .done .next => [.allow p lim true, .next]
  | .allow p lim, .count _ _ => [.allow p lim false]
  | .count p _, .reserve _ _ => [.increment p]
  | .count _ _, .done .panicked => [.panic]
  | .cancel _ _ _ _, .done (.limited n) => [.tooManyRequests n]
  | _, _ => []

/-- What the mux and the dispatcher do with a request that was passed on. -/
def Arrival.served (a : Arrival) (d : Dispatcher) : List Effect :=
  match routedProvider a.toTarget with
  | none => []
  | some p => (d.verifier (a.request p)).toList.map fun _ => .verifySignature p

/-- A request that has arrived, where it is in the middleware, and whether the
    handlers behind it have run. -/
structure Passage (R : Rate) where
  arrival : Arrival
  limiting : Limiting R
  served : Bool

/-- The limiters, and what all requests did. -/
structure Gate (R : Rate) where
  limiters : Limiters R
  journal : Journal Effect

/-- The requests to the public listener. -/
def intake (R : Rate) (cfg : RateLimitConfig) (d : Dispatcher) :
    Pool (Gate R) (Passage R) Arrival Int Empty where
  init := ⟨(rateLimit R cfg).init, []⟩
  start i a g :=
    ((rateLimit R cfg).start i a.path g.limiters).map fun (q, l) =>
      (⟨a, q, false⟩, ⟨l, g.journal.record i q.began⟩)
  step i x t g :=
    match x.limiting, x.served with
    | .done .next, false => some ({ x with served := true },
        { g with journal := g.journal.record i (x.arrival.served d) })
    | q, _ =>
      ((rateLimit R cfg).step i q t g.limiters).map fun (q', l) =>
        ({ x with limiting := q' }, ⟨l, g.journal.record i (q.effects q')⟩)
  env x _ := x.elim

/-! ## What a request has done -/

variable {R : Rate} {cfg : RateLimitConfig} {d : Dispatcher}

/-- What a request for provider `p` has done, by where it is in the middleware. -/
inductive Trace (p : GoString) : Limiting R → List Effect → Prop
  | bypassed (hp : p = []) : Trace p (.done .next) [.next]
  | load (hp : p ≠ []) : Trace p (.load p) []
  | loadOrStore (hp : p ≠ []) : Trace p (.loadOrStore p) []
  | allow {lim} (hp : p ≠ []) : Trace p (.allow p lim) []
  | admitted {lim} (hp : p ≠ []) : Trace p (.done .next) [.allow p lim true, .next]
  | count {lim} (hp : p ≠ []) : Trace p (.count p lim) [.allow p lim false]
  | panicked {lim} (hp : p ≠ []) (hv : ¬ValidString p) :
      Trace p (.done .panicked) [.allow p lim false, .panic]
  | reserve {lim} (hp : p ≠ []) (hv : ValidString p) :
      Trace p (.reserve p lim) [.allow p lim false, .increment p]
  | delay {lim r} (hp : p ≠ []) (hv : ValidString p) :
      Trace p (.delay p lim r) [.allow p lim false, .increment p]
  | cancel {lim r n} (hp : p ≠ []) (hv : ValidString p) (hn : 1 ≤ n) :
      Trace p (.cancel p lim r n) [.allow p lim false, .increment p]
  | limited {lim n} (hp : p ≠ []) (hv : ValidString p) (hn : 1 ≤ n) :
      Trace p (.done (.limited n)) [.allow p lim false, .increment p, .tooManyRequests n]

theorem one_le_retryAfter (t : Duration) : 1 ≤ retryAfter t := by
  simp only [retryAfter]
  split_ifs with hd hr hs hs
  · rfl
  · rfl
  · exact not_lt.mp hs
  · rfl
  · exact not_lt.mp hs

section

variable {p : GoString} {i : Nat} {t : Int} {g g' : Limiters R} {q q' : Limiting R}
  {es : List Effect}

theorem trace_start (p : GoString) :
    Trace (R := R) p (if p = [] then .done .next else .load p)
      (Limiting.began (R := R) (if p = [] then .done .next else .load p)) := by
  by_cases hp : p = []
  · rw [if_pos hp]
    exact .bypassed hp
  · rw [if_neg hp]
    exact .load hp

/-- A step of the middleware goes on with what was done. -/
theorem Trace.step (h : Trace p q es) (hs : Limits cfg i t g q q' g') :
    Trace p q' (es ++ q.effects q') := by
  cases hs with
  | found => cases h with | load hp => exact .allow hp
  | missed => cases h with | load hp => exact .loadOrStore hp
  | stored => cases h with | loadOrStore hp => exact .allow hp
  | admitted => cases h with | allow hp => exact .admitted hp
  | refused => cases h with | allow hp => exact .count hp
  | counted hv => cases h with | count hp => exact .reserve hp hv
  | panicked hv => cases h with | count hp => exact .panicked hp hv
  | reserved => cases h with | reserve hp hv => exact .delay hp hv
  | delayed => cases h with | delay hp hv => exact .cancel hp hv (one_le_retryAfter _)
  | cancelled => cases h with | cancel hp hv hn => exact .limited hp hv hn

theorem allow_notMem_began {p : GoString} {lim : Nat} {ok : Bool} :
    .allow p lim ok ∉ q.began := by
  simp only [Limiting.began]
  split <;> simp

/-- An entry about a limiter is made when it is asked. -/
theorem mem_effects_allow {p' : GoString} {lim : Nat} {ok : Bool}
    (h : .allow p' lim ok ∈ q.effects q') : q.limiter? = some (p', lim) := by
  rcases q with _ | _ | ⟨p, lim'⟩ | ⟨p, lim'⟩ | _ | _ | _ | _ <;>
    rcases q' with _ | _ | _ | _ | _ | _ | _ | ⟨_ | _ | _⟩ <;> simp [Limiting.effects] at h
  · obtain ⟨rfl, rfl, -⟩ := h
    rfl
  · obtain ⟨rfl, rfl, -⟩ := h
    rfl

end

/-- The handlers behind the middleware verify at most one signature, for the provider
    that the mux has read. -/
theorem served_cases (a : Arrival) (d : Dispatcher) :
    a.served d = [] ∨ ∃ p, routedProvider a.toTarget = some p ∧ d.providers p ≠ none ∧
      a.served d = [.verifySignature p] := by
  rw [Arrival.served]
  split
  · exact .inl rfl
  · rename_i p hp
    rcases hv : d.verifier (a.request p) with _ | prov
    · exact .inl rfl
    · have hprov : d.providers p = some prov :=
        (serveHTTP_of_verifier_some hv ⟨0, 0, by decide⟩).1
      exact .inr ⟨p, hp, by simp [hprov], rfl⟩

theorem allow_notMem_served {a : Arrival} {p : GoString} {lim : Nat} {ok : Bool} :
    .allow p lim ok ∉ a.served d := by
  rcases served_cases a d with hnil | ⟨p', -, -, hone⟩
  · rw [hnil]
    exact List.not_mem_nil
  · rw [hone]
    simp

/-- What a request has done, also behind the middleware. -/
def Did (d : Dispatcher) : Option (Passage R) → List Effect → Prop
  | none, es => es = []
  | some x, es => ∃ es₁, Trace (providerFromPath x.arrival.path) x.limiting es₁ ∧
      es = es₁ ++ (if x.served then x.arrival.served d else []) ∧
      (x.served → x.limiting = .done .next)

/-- All limiters that were asked for a provider are the one stored for it. -/
def Gate.Own (g : Gate R) : Prop :=
  ∀ i p lim ok, (i, Effect.allow p lim ok) ∈ g.journal → g.limiters.registry.table p = some lim

theorem Gate.Own.record {g : Gate R} (h : g.Own) {l : Limiters R} {i : Nat} {es : List Effect}
    (hext : ∀ {p lim}, g.limiters.registry.table p = some lim → l.registry.table p = some lim)
    (hes : ∀ {p lim ok}, .allow p lim ok ∈ es → l.registry.table p = some lim) :
    Gate.Own ⟨l, g.journal.record i es⟩ := by
  intro j p lim ok hmem
  rcases Journal.mem_record.mp hmem with hold | ⟨-, hnew⟩
  · exact hext (h j p lim ok hold)
  · exact hes hnew

/-- A request that arrives changes no limiter. -/
theorem intake_start {i : Nat} {a : Arrival} {x : Passage R} {g g' : Gate R}
    (h : (intake R cfg d).start i a g = some (x, g')) :
    ∃ q, (rateLimit R cfg).start i a.path g.limiters = some (q, g.limiters) ∧
      q = (if providerFromPath a.path = [] then .done .next else .load (providerFromPath a.path)) ∧
      x = ⟨a, q, false⟩ ∧ g' = ⟨g.limiters, g.journal.record i q.began⟩ := by
  simp only [intake] at h
  obtain ⟨⟨q, l⟩, hq, heq⟩ := Option.map_eq_some_iff.mp h
  obtain ⟨rfl, rfl⟩ := Prod.mk.inj heq
  obtain ⟨rfl, rfl⟩ := Prod.mk.inj (Option.some.inj hq)
  exact ⟨_, hq, rfl, rfl, rfl⟩

/-- A step of a request either runs the handlers behind the middleware, or is one of
    the middleware. -/
theorem intake_step {i : Nat} {x x' : Passage R} {t : Int} {g g' : Gate R}
    (h : (intake R cfg d).step i x t g = some (x', g')) :
    (x.limiting = .done .next ∧ x.served = false ∧ x' = { x with served := true } ∧
      g' = { g with journal := g.journal.record i (x.arrival.served d) }) ∨
    ∃ q' l, x.limiting.step cfg i t g.limiters = some (q', l) ∧
      x' = { x with limiting := q' } ∧ g' = ⟨l, g.journal.record i (x.limiting.effects q')⟩ := by
  simp only [intake] at h
  split at h
  · obtain ⟨rfl, rfl⟩ := Prod.mk.inj (Option.some.inj h)
    exact .inl ⟨‹_›, ‹_›, rfl, rfl⟩
  · obtain ⟨⟨q', l⟩, hs, heq⟩ := Option.map_eq_some_iff.mp h
    obtain ⟨rfl, rfl⟩ := Prod.mk.inj heq
    exact .inr ⟨q', l, hs, rfl, rfl⟩

theorem intake_invariant (R : Rate) (cfg : RateLimitConfig) (d : Dispatcher) :
    (intake R cfg d).Invariant (fun _ => True)
      (fun g => g.limiters.registry.Coherent (limiter R cfg) ∧ g.Own)
      (fun i x g => Limiting.Relies cfg i g.limiters (x.map (·.limiting)) ∧
        Did d x (g.journal.entries i))
      (fun j g g' => ∃ i es, j = some i ∧
        g.limiters.registry.Extends (limiter R cfg) i g'.limiters.registry ∧
        g'.journal = g.journal.record i es) where
  start {i a g x g'} _ hI hP hs := by
    obtain ⟨hco, hown⟩ := hI
    obtain ⟨hrel, hdid⟩ := hP
    obtain ⟨q, hstart, hq, rfl, rfl⟩ := intake_start hs
    obtain ⟨hco', hrel', -⟩ := (limits_invariant R cfg).start trivial hco hrel hstart
    refine ⟨⟨hco', hown.record id fun hmem => absurd hmem allow_notMem_began⟩, ⟨hrel', ?_⟩, i, _,
      rfl, .refl .., rfl⟩
    rw [Journal.entries_record_self, show g.journal.entries i = [] from hdid, hq]
    exact ⟨_, trace_start _, (List.append_nil _).symm, nofun⟩
  step {i t g x x' g'} _ hI hP hs := by
    obtain ⟨hco, hown⟩ := hI
    obtain ⟨hrel, es, htr, hes, hserved⟩ := hP
    rcases intake_step hs with ⟨hdone, hns, rfl, rfl⟩ | ⟨q', l, hstep, rfl, rfl⟩
    · refine ⟨⟨hco, hown.record id fun hmem => absurd hmem allow_notMem_served⟩,
        ⟨hrel, es, htr, ?_, fun _ => hdone⟩, i, _, rfl, .refl .., rfl⟩
      rw [Journal.entries_record_self, hes, hns]
      simp
    · have hl := Limiting.step_eq_some hstep
      obtain ⟨hco', hrel', hext⟩ := Limiting.Relies.step hco hrel hl
      refine ⟨⟨hco', hown.record hext.table fun {p lim ok} hnew => hext.table ?_⟩,
        ⟨hrel', es ++ _, htr.step hl, ?_, fun hx => ?_⟩, i, _, rfl, hext, rfl⟩
      · -- The limiter that was asked is the one the request had got.
        have hlim := mem_effects_allow hnew
        cases hq : x.limiting with
        | load => rw [hq] at hlim; cases hlim
        | loadOrStore => rw [hq] at hlim; cases hlim
        | _ =>
          rw [Option.map_some, hq] at hrel
          exact hrel p lim (hq ▸ hlim)
      · have hns : x.served = false := by
          by_contra hx
          rw [hserved (Bool.not_eq_false _ ▸ hx)] at hstep
          cases hstep
        rw [Journal.entries_record_self, hes, hns]
        simp
      · rw [hserved hx] at hstep
        cases hstep
  env {x} := x.elim
  stable {i j x g g'} hij _ hP hr := by
    obtain ⟨j, es, rfl, hext, hj⟩ := hr
    have hne : i ≠ j := fun e => hij (congrArg some e)
    refine ⟨hP.1.stable hne hext, ?_⟩
    rw [hj, Journal.entries_record_of_ne _ hne]
    exact hP.2

theorem intake_reachable {s : Pool.State (Gate R) (Passage R)}
    (hs : (intake R cfg d).machine.Reachable s) :
    (s.shared.limiters.registry.Coherent (limiter R cfg) ∧ s.shared.Own) ∧
      ∀ i, Limiting.Relies cfg i s.shared.limiters ((s.procs i).map (·.limiting)) ∧
        Did d (s.procs i) (s.shared.journal.entries i) :=
  (intake_invariant R cfg d).reachable ⟨Registry.coherent_empty, nofun⟩
    (fun _ => ⟨fun _ => nofun, rfl⟩) hs

/-! ## No signature without a token -/

/-- A trace of the middleware verifies no signature. -/
theorem Trace.verifySignature_notMem {p p' : GoString} {q : Limiting R} {es : List Effect}
    (h : Trace p q es) : .verifySignature p' ∉ es := by
  cases h <;> simp

/-- A request whose signature was verified took a token for its provider first. -/
theorem Did.of_verified {x : Option (Passage R)} {es : List Effect} {p : GoString}
    (h : Did d x es) (hnames : ∀ p, d.providers p ≠ none → p ≠ [] ∧ ch '/' ∉ p)
    (hmem : .verifySignature p ∈ es) :
    ∃ lim, es = [.allow p lim true, .next, .verifySignature p] := by
  rcases x with _ | x
  · rw [show es = [] from h] at hmem
    cases hmem
  obtain ⟨es₁, htr, hes, hserved⟩ := h
  rw [hes, List.mem_append] at hmem
  have hmem := hmem.resolve_left htr.verifySignature_notMem
  split_ifs at hmem hes with hsv
  · rcases served_cases x.arrival d with hnil | ⟨p', hr, hp', hone⟩
    · rw [hnil] at hmem
      cases hmem
    · rw [hone, List.mem_singleton] at hmem
      obtain rfl := Effect.verifySignature.inj hmem
      rw [hserved hsv, providerFromPath_routed hr (hnames p hp').2] at htr
      rw [hone] at hes
      -- A request that was passed on without a token has no provider.
      cases htr with
      | bypassed hp => exact absurd hp (hnames p hp').1
      | @admitted lim _ => exact ⟨lim, hes⟩
  · cases hmem

/-- The limiter reads the provider that the mux dispatches to, and every signature is
    verified after a token was taken, in the same request, from the limiter of its
    provider. -/
theorem verified_after_allow (R : Rate) (cfg : RateLimitConfig) (d : Dispatcher)
    (hnames : ∀ p, d.providers p ≠ none → p ≠ [] ∧ ch '/' ∉ p) :
    (∀ r p, routedProvider r = some p → d.providers p ≠ none → providerFromPath r.path = p) ∧
    ∀ s, (intake R cfg d).machine.Reachable s → ∀ (pre post : Journal Effect) i p,
      s.shared.journal = pre ++ (i, .verifySignature p) :: post →
      ∃ lim, (i, .allow p lim true) ∈ pre ∧ s.shared.limiters.registry.table p = some lim ∧
        ∀ p', s.shared.limiters.registry.table p' = some lim → p' = p := by
  refine ⟨fun r p hr hp => providerFromPath_routed hr (hnames p hp).2,
    fun s hs pre post i p hj => ?_⟩
  obtain ⟨⟨hco, hown⟩, hdid⟩ := intake_reachable hs
  have hent : s.shared.journal.entries i =
      pre.entries i ++ .verifySignature p :: post.entries i := by
    rw [hj, Journal.entries_append, Journal.entries_cons_self]
  have hmem : Effect.verifySignature p ∈ s.shared.journal.entries i := by
    rw [hent]
    exact List.mem_append_right _ List.mem_cons_self
  obtain ⟨lim, hes⟩ := (hdid i).2.of_verified hnames hmem
  have hpre : (i, Effect.allow p lim true) ∈ pre := by
    rw [hent] at hes
    rcases hl : pre.entries i with _ | ⟨e, l⟩
    · rw [hl] at hes
      cases hes
    · rw [hl] at hes
      obtain ⟨rfl, -⟩ := List.cons.inj hes
      exact Journal.mem_entries.mp (hl ▸ List.mem_cons_self)
  have hk := hown i p lim true (hj ▸ List.mem_append_left _ hpre)
  exact ⟨lim, hpre, hk, fun p' hk' => hco.inj hk' hk⟩

/-- A delivery to a path that is percent-encoded. -/
def sampleArrival : Arrival where
  method := lit "POST"
  requestURI := lit "/webhook/%6Asm"
  escapedPath := lit "/webhook/%6Asm"
  path := lit "/webhook/jsm"
  unescape_eq := by decide +kernel
  header := sampleRequest.header
  body := sampleRequest.body
  ctx := sampleRequest.ctx

theorem providers_sampleDispatcher {p : GoString} (h : sampleDispatcher.providers p ≠ none) :
    p = lit "jsm" := by
  obtain ⟨prov, hp⟩ := Option.ne_none_iff_exists'.mp h
  have hmem : (p, prov) ∈ [(lit "jsm", Jsm.provider sampleHMAC Jsm.sampleConfig)] :=
    GoMap.mem_of_ofList hp
  exact (Prod.mk.inj (List.mem_singleton.mp hmem)).1

theorem verified_after_allow_sample :
    ∃ s lim, (intake exactRate ⟨.fin 1, 1⟩ sampleDispatcher).machine.Reachable s ∧
      (0, .verifySignature (lit "jsm")) ∈ s.shared.journal ∧
      (0, .allow (lit "jsm") lim true) ∈ s.shared.journal := by
  let m := (intake exactRate ⟨.fin 1, 1⟩ sampleDispatcher).machine
  let ls : List (Pool.Label Arrival Int Empty) :=
    [.start 0 sampleArrival, .step 0 0, .step 0 0, .step 0 0, .step 0 0]
  have h : (m.run m.init ls).any (fun s => s.shared.journal.getLast? =
      some (0, .verifySignature (lit "jsm"))) = true := by decide +kernel
  obtain ⟨s, hs, h⟩ := (Option.any_eq_true ..).mp h
  obtain ⟨pre, hpre⟩ := List.getLast?_eq_some_iff.mp (of_decide_eq_true h)
  have hnames : ∀ p, sampleDispatcher.providers p ≠ none → p ≠ [] ∧ ch '/' ∉ p := fun p hp => by
    rw [providers_sampleDispatcher hp]
    decide
  obtain ⟨lim, hlim, -⟩ := (verified_after_allow exactRate ⟨.fin 1, 1⟩ sampleDispatcher hnames).2
    s ⟨ls, hs⟩ pre [] 0 (lit "jsm") hpre
  exact ⟨s, lim, ⟨ls, hs⟩, hpre ▸ List.mem_append_right _ List.mem_cons_self,
    hpre ▸ List.mem_append_left _ hlim⟩

/-! ## Every request is answered -/

def Effect.isAnswer : Effect → Bool
  | .next | .increment _ | .tooManyRequests _ | .panic => true
  | .allow _ _ _ | .verifySignature _ => false

/-- Either the next handler is called once, or the request is counted for its provider
    and answered with status 429, once each; nothing else is done. -/
def Answers (p : GoString) (es : List Effect) : Prop :=
  es.filter Effect.isAnswer = [.next] ∨
    ∃ n, 1 ≤ n ∧ es.filter Effect.isAnswer = [.increment p, .tooManyRequests n]

/-- How many steps a request may still take in the middleware. -/
def Limiting.remaining : Limiting R → Nat
  | .load _ => 7
  | .loadOrStore _ => 6
  | .allow _ _ => 5
  | .count _ _ => 4
  | .reserve _ _ => 3
  | .delay _ _ _ => 2
  | .cancel _ _ _ _ => 1
  | .done _ => 0

section

variable {i : Nat} {t : Int} {g g' : Limiters R} {q q' : Limiting R}

theorem Limits.remaining_lt (h : Limits cfg i t g q q' g') : q'.remaining < q.remaining := by
  cases h <;> simp only [Limiting.remaining] <;> omega

/-- A request in the middleware is never stuck. -/
theorem Limiting.Relies.exists_step (h : Relies cfg i g (some q))
    (hco : g.registry.Coherent (limiter R cfg)) (t : Int) (hq : ∀ v, q ≠ .done v) :
    ∃ q' g', q.step cfg i t g = some (q', g') := by
  cases q with
  | load p =>
    simp only [Limiting.step]
    split
    · exact ⟨_, _, rfl⟩
    · exact ⟨_, _, rfl⟩
  | loadOrStore p => exact ⟨_, _, rfl⟩
  | allow p lim =>
    obtain ⟨o, ho, -⟩ := hco.object (h p lim rfl)
    simp only [Limiting.step, Limiters.use_of_heap ho, limiter]
    rcases (R.allow o t).1
    · exact ⟨_, _, rfl⟩
    · exact ⟨_, _, rfl⟩
  | count p lim =>
    simp only [Limiting.step]
    split_ifs
    · exact ⟨_, _, rfl⟩
    · exact ⟨_, _, rfl⟩
  | reserve p lim =>
    obtain ⟨o, ho, -⟩ := hco.object (h p lim rfl)
    exact ⟨_, _, by simp only [Limiting.step, Limiters.use_of_heap ho, limiter]; rfl⟩
  | delay p lim r => exact ⟨_, _, rfl⟩
  | cancel p lim r n =>
    obtain ⟨o, ho, -⟩ := hco.object (h p lim rfl)
    exact ⟨_, _, by simp only [Limiting.step, Limiters.use_of_heap ho]; rfl⟩
  | done v => exact absurd rfl (hq v)

/-- A limiter answers when it is asked, in the state it has then. -/
theorem Limits.allow_eq {p : GoString} {lim : Nat} {ok : Bool} (h : Limits cfg i t g q q' g')
    (hmem : .allow p lim ok ∈ q.effects q') :
    q = .allow p lim ∧ ∃ o, g.registry.heap lim = some o ∧ (R.allow o t).1 = ok := by
  cases h with
  | admitted hu | refused hu =>
    obtain ⟨o, ho, hout, -⟩ := Registry.use_eq_some hu
    simp only [Limiting.effects, List.mem_cons, List.not_mem_nil, or_false, reduceCtorEq,
      Effect.allow.injEq] at hmem
    obtain ⟨rfl, rfl, rfl⟩ := hmem
    exact ⟨rfl, o, ho, (LimiterOut.allowed.inj hout).symm⟩
  | _ => simp [Limiting.effects] at hmem

end

section

variable {s : Pool.State (Gate R) (Passage R)} {i : Nat}

/-- Each step that a request takes in the middleware brings it closer to its answer. -/
theorem exists_run_done (hs : (intake R cfg d).machine.Reachable s) {x : Passage R}
    (hx : s.procs i = some x) (t : Int) :
    ∃ n s' x' v, (intake R cfg d).machine.run s (List.replicate n (.step i t)) = some s' ∧
      s'.procs i = some x' ∧ x'.limiting = .done v := by
  induction hn : x.limiting.remaining using Nat.strongRecOn generalizing s x with
  | ind n ih =>
    subst hn
    by_cases hq : ∃ v, x.limiting = .done v
    · obtain ⟨v, hv⟩ := hq
      exact ⟨0, s, x, v, rfl, hx, hv⟩
    · obtain ⟨⟨hco, -⟩, hP⟩ := intake_reachable hs
      have hrel := (hP i).1
      rw [hx, Option.map_some] at hrel
      obtain ⟨q', g', hstep⟩ := hrel.exists_step hco t fun v hv => hq ⟨v, hv⟩
      have hpool : (intake R cfg d).step i x t s.shared = some ({ x with limiting := q' },
          ⟨g', s.shared.journal.record i (x.limiting.effects q')⟩) := by
        simp only [intake]
        split
        · exact absurd ⟨_, ‹_›⟩ hq
        · rw [show (rateLimit R cfg).step i x.limiting t s.shared.limiters = some (q', g')
            from hstep]
          rfl
      have hm := Pool.step_step.mpr ⟨x, hx, _, _, hpool, rfl⟩
      obtain ⟨n, s', x', v, hrun, hx', hv⟩ := ih _ (Limiting.step_eq_some hstep).remaining_lt
        (hs.step hm) (Function.update_self ..) rfl
      exact ⟨n + 1, s', x', v, Machine.run_cons_eq_some.mpr ⟨_, hm, hrun⟩, hx', hv⟩

/-- An entry about a limiter was made by a step that asked it. -/
theorem exists_step_of_allow {ls : List (Pool.Label Arrival Int Empty)} {p : GoString} {lim : Nat}
    {ok : Bool} (hs : (intake R cfg d).machine.run (intake R cfg d).machine.init ls = some s)
    (h : (i, .allow p lim ok) ∈ s.shared.journal) :
    ∃ ls₁ t ls₂ s₁ x o, ls = ls₁ ++ .step i t :: ls₂ ∧
      (intake R cfg d).machine.run (intake R cfg d).machine.init ls₁ = some s₁ ∧
      s₁.procs i = some x ∧ x.limiting = .allow p lim ∧
      s₁.shared.limiters.registry.heap lim = some o ∧ (R.allow o t).1 = ok := by
  obtain ⟨ls₁, l, ls₂, s₁, s₂, rfl, hs₁, hn, hl, hm⟩ := Machine.exists_step_of_run
    (P := fun s => (i, .allow p lim ok) ∈ s.shared.journal) List.not_mem_nil hs h
  cases l with
  | start j a =>
    obtain ⟨-, x, g, hst, rfl⟩ := Pool.step_start.mp hl
    obtain ⟨q, -, -, rfl, rfl⟩ := intake_start hst
    obtain ⟨-, hmem⟩ := (Journal.mem_record.mp hm).resolve_left hn
    exact absurd hmem allow_notMem_began
  | step j t =>
    obtain ⟨x, hx, x', g, hst, rfl⟩ := Pool.step_step.mp hl
    rcases intake_step hst with ⟨-, -, rfl, rfl⟩ | ⟨q', l, hstep, rfl, rfl⟩
    · obtain ⟨-, hmem⟩ := (Journal.mem_record.mp hm).resolve_left hn
      exact absurd hmem allow_notMem_served
    · obtain ⟨rfl, hmem⟩ := (Journal.mem_record.mp hm).resolve_left hn
      obtain ⟨hq, o, ho, hok⟩ := (Limiting.step_eq_some hstep).allow_eq hmem
      exact ⟨ls₁, t, ls₂, s₁, x, o, rfl, hs₁, hx, hq, ho, hok⟩
  | env x => exact x.elim

/-- The handlers behind the middleware do not answer for it. -/
theorem filter_isAnswer_served (a : Arrival) (d : Dispatcher) :
    (a.served d).filter Effect.isAnswer = [] := by
  rcases served_cases a d with hnil | ⟨p, -, -, hone⟩
  · rw [hnil]
    rfl
  · rw [hone]
    rfl

end

/-- Every request is answered by the middleware, whatever the others do. One that has no
    provider is passed on, and one that has is answered as it should be exactly when
    the limiter admits it, in the state that it has when it is asked, or the provider is
    valid UTF-8. -/
theorem answers_iff (R : Rate) (cfg : RateLimitConfig) (d : Dispatcher) :
    (∀ s, (intake R cfg d).machine.Reachable s → ∀ i, s.procs i ≠ none → ∀ t,
      ∃ n s' x v, (intake R cfg d).machine.run s (List.replicate n (.step i t)) = some s' ∧
        s'.procs i = some x ∧ x.limiting = .done v) ∧
    ∀ ls s, (intake R cfg d).machine.run (intake R cfg d).machine.init ls = some s →
      ∀ i x v, s.procs i = some x → x.limiting = .done v →
        providerFromPath x.arrival.path = [] ∧ Answers [] (s.shared.journal.entries i) ∨
        providerFromPath x.arrival.path ≠ [] ∧ ∃ ls₁ t ls₂ s₁ x₁ lim o,
          ls = ls₁ ++ .step i t :: ls₂ ∧
          (intake R cfg d).machine.run (intake R cfg d).machine.init ls₁ = some s₁ ∧
          s₁.procs i = some x₁ ∧ x₁.limiting = .allow (providerFromPath x.arrival.path) lim ∧
          s₁.shared.limiters.registry.heap lim = some o ∧
          (Answers (providerFromPath x.arrival.path) (s.shared.journal.entries i) ↔
            (R.allow o t).1 = true ∨ ValidString (providerFromPath x.arrival.path)) := by
  refine ⟨fun s hs i hi t => ?_, fun ls s hs i x v hx hv => ?_⟩
  · obtain ⟨x, hx⟩ := Option.ne_none_iff_exists'.mp hi
    exact exists_run_done hs hx t
  · obtain ⟨es, htr, hes, -⟩ := hx ▸ ((intake_reachable ⟨ls, hs⟩).2 i).2
    have hfilter : (s.shared.journal.entries i).filter Effect.isAnswer =
        es.filter Effect.isAnswer := by
      rw [hes, List.filter_append]
      split_ifs
      · rw [filter_isAnswer_served, List.append_nil]
      · exact List.append_nil _
    have hsplit : ∀ lim ok, .allow (providerFromPath x.arrival.path) lim ok ∈ es → _ :=
      fun lim ok hmem => exists_step_of_allow hs
        (Journal.mem_entries.mp (hes ▸ List.mem_append_left _ hmem))
    simp only [Answers, hfilter]
    rw [hv] at htr
    generalize providerFromPath x.arrival.path = p at htr hsplit ⊢
    -- What the limiter has said is in the trace; what is left is what follows from it.
    have hasked : ∀ lim ok, .allow p lim ok ∈ es → p ≠ [] → ∀ A : Prop,
        (A ↔ ok = true ∨ ValidString p) → p ≠ [] ∧ ∃ ls₁ t ls₂ s₁ x₁ lim o,
          ls = ls₁ ++ .step i t :: ls₂ ∧
          (intake R cfg d).machine.run (intake R cfg d).machine.init ls₁ = some s₁ ∧
          s₁.procs i = some x₁ ∧ x₁.limiting = .allow p lim ∧
          s₁.shared.limiters.registry.heap lim = some o ∧
          (A ↔ (R.allow o t).1 = true ∨ ValidString p) := by
      intro lim ok hmem hp A hA
      obtain ⟨ls₁, t, ls₂, s₁, x₁, o, hls, hs₁, hx₁, hq, ho, hok⟩ := hsplit lim ok hmem
      exact ⟨hp, ls₁, t, ls₂, s₁, x₁, lim, o, hls, hs₁, hx₁, hq, ho, by rw [hok, hA]⟩
    cases htr with
    | bypassed hp => exact .inl ⟨hp, .inl rfl⟩
    | @admitted lim hp =>
      exact .inr (hasked lim true List.mem_cons_self hp _ (iff_of_true (.inl rfl) (.inl rfl)))
    | @panicked lim hp hvalid =>
      refine .inr (hasked lim false List.mem_cons_self hp _ (iff_of_false ?_ ?_))
      · simp [List.filter_cons, Effect.isAnswer]
      · simp [hvalid]
    | @limited lim n hp hvalid hn =>
      exact .inr (hasked lim false List.mem_cons_self hp _
        (iff_of_true (.inr ⟨n, hn, rfl⟩) (.inr hvalid)))

/-- Two deliveries, of which the limiter refuses the second one. -/
def sampleDeliveries : List (Pool.Label Arrival Int Empty) :=
  [.start 0 sampleArrival, .step 0 0, .step 0 0, .step 0 0, .start 1 sampleArrival, .step 1 0,
    .step 1 0, .step 1 0, .step 1 0, .step 1 0, .step 1 0]

theorem answers_iff_sample :
    ∃ s, (intake exactRate ⟨.fin 1, 1⟩ sampleDispatcher).machine.Reachable s ∧
      (1, .tooManyRequests 1) ∈ s.shared.journal ∧
      Answers (lit "jsm") (s.shared.journal.entries 1) := by
  let m := (intake exactRate ⟨.fin 1, 1⟩ sampleDispatcher).machine
  have h : (m.run m.init sampleDeliveries).any (fun s =>
      (1, .tooManyRequests 1) ∈ s.shared.journal ∧ (s.procs 1).any fun x =>
        x.limiting.remaining = 0 ∧ providerFromPath x.arrival.path = lit "jsm") = true := by
    decide +kernel
  obtain ⟨s, hs, h⟩ := (Option.any_eq_true ..).mp h
  obtain ⟨hmem, hx⟩ := of_decide_eq_true h
  obtain ⟨x, hx, h⟩ := (Option.any_eq_true ..).mp hx
  obtain ⟨hzero, hp⟩ := of_decide_eq_true h
  obtain ⟨v, hv⟩ : ∃ v, x.limiting = .done v := by
    cases hq : x.limiting with
    | done v => exact ⟨v, rfl⟩
    | _ =>
      rw [hq] at hzero
      cases hzero
  refine ⟨s, ⟨_, hs⟩, hmem, ?_⟩
  rcases (answers_iff exactRate ⟨.fin 1, 1⟩ sampleDispatcher).2 _ s hs 1 x v hx hv with
    ⟨hnil, -⟩ | ⟨-, _, _, _, _, _, _, _, -, -, -, -, -, hiff⟩
  · rw [hp] at hnil
    cases hnil
  · rw [hp] at hiff
    exact hiff.mpr (.inr (by decide))

/-- A request for the provider with the byte 255 as its name. -/
def sampleInvalid : Arrival :=
  { sampleArrival with
    requestURI := lit "/webhook/%FF"
    escapedPath := lit "/webhook/%FF"
    path := lit "/webhook/" ++ [255]
    unescape_eq := by decide +kernel }

/-- The second of two such requests is neither passed on nor answered. -/
theorem answers_panic :
    ∃ s, (intake exactRate ⟨.fin 1, 1⟩ sampleDispatcher).machine.Reachable s ∧
      providerFromPath sampleInvalid.path = [255] ∧
      s.shared.journal.entries 1 = [.allow [255] 0 false, .panic] ∧
      ¬Answers [255] (s.shared.journal.entries 1) := by
  let m := (intake exactRate ⟨.fin 1, 1⟩ sampleDispatcher).machine
  let ls : List (Pool.Label Arrival Int Empty) :=
    [.start 0 sampleInvalid, .step 0 0, .step 0 0, .step 0 0, .start 1 sampleInvalid, .step 1 0,
      .step 1 0, .step 1 0]
  have h : (m.run m.init ls).any (fun s => s.shared.journal.entries 1 =
      [.allow [255] 0 false, .panic]) = true := by decide +kernel
  obtain ⟨s, hs, h⟩ := (Option.any_eq_true ..).mp h
  have hes := of_decide_eq_true h
  refine ⟨s, ⟨ls, hs⟩, by decide, hes, ?_⟩
  rw [hes]
  simp [Answers, List.filter_cons, Effect.isAnswer]

end Webhookd
