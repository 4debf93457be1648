import Webhookd.Boot
import Webhookd.Go.Bookings
import Webhookd.Intake

/-!
# How much the rate limit lets through

A request that `RateLimit` refuses asks for the delay of a reservation, and
gives the reservation back. The reservations of other requests come between, so
a token may be given back late, or not at all.

Whatever a limiter does, the program verifies no more signatures for a provider
than its limiter has let requests through (`verifications_admitted`).

How many these are is shown in exact arithmetic, where no wait is cut to
nanoseconds, for a rate that is a finite number, and for operations that take
the lock of the limiter in the order of the instants they have read (`Paced`).
A limiter then follows a bucket with reservations step by step (`Mirrors`), and
lets through no more than a bucket on which nothing is reserved:

* `admissions_plain`: a plain token bucket would let the same requests through;
* `admissions_window`: no more are let through in any interval of time than the
  burst, and what accrues at the configured rate;
* `verifications_bounded`: and so no more signatures are verified.
-/

namespace Webhookd

open Go

/-! ## Operations in time -/

/-- The instant of an operation. -/
def LimiterOp.instant {R : Rate} : LimiterOp R → Int
  | .allow t | .reserve t | .cancel _ t => t

/-- The operations on limiters, by the keys of these. -/
abbrev LimiterUse (R : Rate) := Use GoString (LimiterOp R) (LimiterOut R)

/-- The instant at which an operation has let a request through. -/
def LimiterUse.admission {R : Rate} (u : LimiterUse R) : Option Int :=
  match u.op, u.out with
  | .allow t, .allowed true => some t
  | _, _ => none

theorem LimiterUse.instant_of_admission {R : Rate} {u : LimiterUse R} {t : Int}
    (h : u.admission = some t) : u.op.instant = t := by
  obtain ⟨key, addr, op, out⟩ := u
  rw [LimiterUse.admission] at h
  split at h
  · rename_i t' hop _
    obtain rfl : op = .allow t' := hop
    exact Option.some.inj h
  · cases h

/-- An operation that has made a reservation. -/
def LimiterUse.reserves {R : Rate} (u : LimiterUse R) : Bool :=
  match u.op with
  | .reserve _ => true
  | _ => false

/-- The operations on a limiter come in the order of the instants they have read, and a
    reservation is cancelled at a later instant than it was made. As the clock is read
    before the lock is taken, this is an assumption about a run. -/
structure Paced (us : List (LimiterUse exactRate)) : Prop where
  nonneg : ∀ u ∈ us, 0 ≤ u.op.instant
  ordered : us.Pairwise fun u v => u.op.instant ≤ v.op.instant
  apart : us.Pairwise fun u v =>
    ∀ r t, u.out = .reserved r → v.op = .cancel r t → u.op.instant < t

theorem Paced.of_prefix {us vs : List (LimiterUse exactRate)} (h : Paced vs) (hp : us <+: vs) :
    Paced us :=
  ⟨fun u hu => h.nonneg u (hp.subset hu), h.ordered.sublist hp.sublist, h.apart.sublist hp.sublist⟩

theorem Paced.of_concat {us : List (LimiterUse exactRate)} {v : LimiterUse exactRate}
    (h : Paced (us ++ [v])) :
    0 ≤ v.op.instant ∧ ∀ u ∈ us, u.op.instant ≤ v.op.instant ∧
      ∀ r t, u.out = .reserved r → v.op = .cancel r t → u.op.instant < t := by
  obtain ⟨-, -, ho⟩ := List.pairwise_append.mp h.ordered
  obtain ⟨-, -, ha⟩ := List.pairwise_append.mp h.apart
  exact ⟨h.nonneg v (List.mem_append_right _ List.mem_cons_self),
    fun u hu => ⟨ho u hu v List.mem_cons_self, ha u hu v List.mem_cons_self⟩⟩

/-! ## A limiter and its reservations -/

/-- The reservation for key `p` that a request has and has not yet given back. -/
def Limiting.held (p : GoString) : Limiting exactRate → Option BucketReservation
  | .delay p' _ r | .cancel p' _ r _ => if p' = p then some r else none
  | _ => none

/-- The state of the limiters, and of the requests. -/
abbrev LimitersState := Pool.State (Limiters exactRate) (Limiting exactRate)

/-- The operations for a key. -/
def LimitersState.uses (s : LimitersState) (p : GoString) : List (LimiterUse exactRate) :=
  s.shared.registry.uses p

/-- The limiter for key `p` is a bucket with reservations, which the requests hold. -/
structure Mirrors (cfg : RateLimitConfig) (p : GoString) (s : LimitersState) (b : Bookings) :
    Prop where
  bucket : b.bucket = ((limiter exactRate cfg).run (limiter exactRate cfg).fresh
    ((s.uses p).map Use.op)).2
  now : b.now = 0 ∨ ∃ u ∈ s.uses p, u.op.instant = b.now
  admitted : b.admitted = (s.uses p).filterMap LimiterUse.admission
  held : ∀ i, (b.held i).map Prod.fst = (s.procs i).bind (Limiting.held p)
  made : ∀ i r t, b.held i = some (r, t) → ∃ u ∈ s.uses p, u.op = .reserve t ∧ u.out = .reserved r
  reserves : b.reserves = (s.uses p).countP LimiterUse.reserves

section

variable {cfg : RateLimitConfig} {p : GoString} {s : LimitersState} {b : Bookings} {i lim : Nat}
  {t : Int} {g' : Limiters exactRate} {x : Option (Limiting exactRate)} {q q' : Limiting exactRate}
  {op : LimiterOp exactRate} {out : LimiterOut exactRate}
  {reg : Registry GoString exactRate.Limiter (LimiterOp exactRate) (LimiterOut exactRate)}

/-- What the requests hold after one of them took a step. -/
theorem Mirrors.held_update (h : Mirrors cfg p s b)
    {held : Nat → Option (BucketReservation × Int)} (hne : ∀ j, j ≠ i → held j = b.held j)
    (hi : (held i).map Prod.fst = q'.held p) (j : Nat) :
    (held j).map Prod.fst = (Function.update s.procs i (some q') j).bind (Limiting.held p) := by
  by_cases hj : j = i
  · subst hj
    rw [Function.update_self, Option.bind_some, hi]
  · rw [Function.update_of_ne hj, hne j hj, h.held j]

/-- A step of a request that does not use the limiter. -/
theorem Mirrors.frame (h : Mirrors cfg p s b) (huses : g'.registry.uses p = s.uses p)
    (hq : s.procs i = x) (hheld : q'.held p = x.bind (Limiting.held p)) :
    Mirrors cfg p ⟨g', Function.update s.procs i (some q')⟩ b := by
  have hu : LimitersState.uses ⟨g', Function.update s.procs i (some q')⟩ p = s.uses p := huses
  exact ⟨hu ▸ h.bucket, hu ▸ h.now, hu ▸ h.admitted,
    h.held_update (fun _ _ => rfl) (by rw [hheld, h.held i, hq]), hu ▸ h.made, hu ▸ h.reserves⟩

/-- An operation on the limiter is one on the bucket. -/
theorem Mirrors.use (h : Mirrors cfg p s b)
    (hco : s.shared.registry.Coherent (limiter exactRate cfg))
    (hk : s.shared.registry.table p = some lim)
    (hu : s.shared.registry.use (limiter exactRate cfg) p lim op = some (out, reg)) :
    out = ((limiter exactRate cfg).apply b.bucket op).1 ∧
      ((limiter exactRate cfg).run (limiter exactRate cfg).fresh
        ((reg.uses p).map Use.op)).2 = ((limiter exactRate cfg).apply b.bucket op).2 := by
  obtain ⟨o, ho, hrun⟩ := hco.object hk
  obtain ⟨o', ho', hout, -⟩ := Registry.use_eq_some hu
  obtain rfl := Option.some.inj (ho.symm.trans ho')
  have hb : b.bucket = o := h.bucket.trans (congrArg Prod.snd hrun)
  refine ⟨hb ▸ hout, ?_⟩
  rw [Registry.uses_use hu, List.map_append, List.map_singleton, Object.run_concat, hrun, hb]

/-- The clock has not gone back since the last operation. -/
theorem Mirrors.now_le (h : Mirrors cfg p s b) {v : LimiterUse exactRate}
    (hc : Paced (s.uses p ++ [v])) : b.now ≤ v.op.instant := by
  obtain ⟨h0, hle⟩ := hc.of_concat
  rcases h.now with hn | ⟨u, hu, hn⟩
  · rwa [hn]
  · rw [← hn]
    exact (hle u hu).1

/-- A step of a request that uses the limiter: the bucket takes it as well. -/
theorem Mirrors.advance {b' : Bookings} (h : Mirrors cfg p s b)
    (hu : s.shared.registry.use (limiter exactRate cfg) p lim op = some (out, reg))
    (hbucket : b'.bucket = ((limiter exactRate cfg).run (limiter exactRate cfg).fresh
      ((reg.uses p).map Use.op)).2)
    (hnow : b'.now = op.instant)
    (hadmitted : b'.admitted = b.admitted ++ (LimiterUse.admission ⟨p, lim, op, out⟩).toList)
    (hreserves : b'.reserves =
      b.reserves + if LimiterUse.reserves ⟨p, lim, op, out⟩ then 1 else 0)
    (hne : ∀ j, j ≠ i → b'.held j = b.held j) (hi : (b'.held i).map Prod.fst = q'.held p)
    (hmade : ∀ r t, b'.held i = some (r, t) →
      b.held i = some (r, t) ∨ op = .reserve t ∧ out = .reserved r) :
    Mirrors cfg p ⟨{ s.shared with registry := reg }, Function.update s.procs i (some q')⟩ b' := by
  have huses : LimitersState.uses ⟨{ s.shared with registry := reg },
      Function.update s.procs i (some q')⟩ p = s.uses p ++ [⟨p, lim, op, out⟩] :=
    Registry.uses_use hu
  have hnew : (⟨p, lim, op, out⟩ : LimiterUse exactRate) ∈ s.uses p ++ [⟨p, lim, op, out⟩] :=
    List.mem_append_right _ List.mem_cons_self
  refine ⟨hbucket, .inr ⟨_, huses ▸ hnew, hnow.symm⟩, ?_, h.held_update hne hi,
    fun j r t hj => ?_, ?_⟩
  · rw [huses, List.filterMap_append, hadmitted, h.admitted]
    cases hadm : LimiterUse.admission ⟨p, lim, op, out⟩ <;> simp [hadm]
  · rw [huses]
    by_cases hji : j = i
    · subst hji
      rcases hmade r t hj with hj | ⟨rfl, rfl⟩
      · obtain ⟨u, hu, hr⟩ := h.made j r t hj
        exact ⟨u, List.mem_append_left _ hu, hr⟩
      · exact ⟨_, hnew, rfl, rfl⟩
    · rw [hne j hji] at hj
      obtain ⟨u, hu, hr⟩ := h.made j r t hj
      exact ⟨u, List.mem_append_left _ hu, hr⟩
  · rw [huses, List.countP_append, List.countP_singleton, hreserves, h.reserves]

/-- The limiter after a step of a request follows the bucket after one of its own, or
    the same bucket. -/
def Advances (cfg : RateLimitConfig) (p : GoString) (b : Bookings) (s : LimitersState) : Prop :=
  Mirrors cfg p s b ∨ ∃ op b', b.step op = some b' ∧ Mirrors cfg p s b'

/-- `lim.Allow()`. -/
theorem Mirrors.allow {ok : Bool} (h : Mirrors cfg p s b)
    (hco : s.shared.registry.Coherent (limiter exactRate cfg))
    (hk : s.shared.registry.table p = some lim)
    (hu : s.shared.registry.use (limiter exactRate cfg) p lim (.allow t) = some (.allowed ok, reg))
    (hq : s.procs i = some (.allow p lim)) (hq' : q'.held p = none)
    (hc : Paced (reg.uses p)) :
    Advances cfg p b ⟨{ s.shared with registry := reg }, Function.update s.procs i (some q')⟩ := by
  obtain ⟨hout, hb⟩ := h.use hco hk hu
  obtain rfl : ok = (b.bucket.reserveN t 1 0).1.ok := LimiterOut.allowed.inj hout
  rw [Registry.uses_use hu] at hc
  have hi := h.held i
  rw [hq] at hi
  refine .inr ⟨.allow t, _, Bookings.step_allow.mpr ⟨h.now_le hc, rfl⟩,
    h.advance hu hb.symm rfl ?_ rfl (fun _ _ => rfl) (hi.trans hq'.symm) fun _ _ => .inl⟩
  show (if (b.bucket.reserveN t 1 0).1.ok = true then _ else _) = _
  cases (b.bucket.reserveN t 1 0).1.ok
  · exact (List.append_nil _).symm
  · rfl

/-- `lim.Reserve()`. -/
theorem Mirrors.reserve {r : BucketReservation} (h : Mirrors cfg p s b)
    (hco : s.shared.registry.Coherent (limiter exactRate cfg))
    (hk : s.shared.registry.table p = some lim)
    (hu : s.shared.registry.use (limiter exactRate cfg) p lim (.reserve t) =
      some (.reserved r, reg))
    (hq : s.procs i = some (.reserve p lim)) (hc : Paced (reg.uses p)) :
    Advances cfg p b ⟨{ s.shared with registry := reg },
      Function.update s.procs i (some (.delay p lim r))⟩ := by
  obtain ⟨hout, hb⟩ := h.use hco hk hu
  obtain rfl : r = (b.bucket.reserveN t 1 maxDuration).1 := LimiterOut.reserved.inj hout
  rw [Registry.uses_use hu] at hc
  have hi := h.held i
  rw [hq] at hi
  refine .inr ⟨.reserve i t, _,
    Bookings.step_reserve.mpr ⟨⟨h.now_le hc, Option.map_eq_none_iff.mp hi⟩, rfl⟩,
    h.advance hu hb.symm rfl (List.append_nil _).symm rfl
      (fun j hj => Function.update_of_ne hj ..) ?_ fun r t hr => .inr ?_⟩
  · simp [Limiting.held]
  · simp only [Function.update_self, Option.some_inj, Prod.mk.injEq] at hr
    obtain ⟨rfl, rfl⟩ := hr
    exact ⟨rfl, rfl⟩

/-- `r.Cancel()`. -/
theorem Mirrors.cancel {r : BucketReservation} {n : Int} (h : Mirrors cfg p s b)
    (hco : s.shared.registry.Coherent (limiter exactRate cfg))
    (hk : s.shared.registry.table p = some lim)
    (hu : s.shared.registry.use (limiter exactRate cfg) p lim (.cancel r t) = some (out, reg))
    (hq : s.procs i = some (.cancel p lim r n)) (hc : Paced (reg.uses p)) :
    Advances cfg p b ⟨{ s.shared with registry := reg },
      Function.update s.procs i (some (.done (.limited n)))⟩ := by
  obtain ⟨rfl, hb⟩ := h.use hco hk hu
  rw [Registry.uses_use hu] at hc
  obtain ⟨⟨r', t₀⟩, hi, rfl⟩ : ∃ x, b.held i = some x ∧ x.1 = r := by
    have hi := h.held i
    rw [hq] at hi
    exact Option.map_eq_some_iff.mp (hi.trans (if_pos rfl))
  obtain ⟨u, hu', hop, hres⟩ := h.made i _ _ hi
  have ht : t₀ < t := by
    have := (hc.of_concat.2 u hu').2 _ t hres rfl
    rwa [hop] at this
  refine .inr ⟨.cancel i t, _, Bookings.step_cancel.mpr ⟨_, _, hi, ⟨h.now_le hc, ht⟩, rfl⟩,
    h.advance hu hb.symm rfl (List.append_nil _).symm rfl
      (fun j hj => Function.update_of_ne hj ..) ?_ fun r t hr => ?_⟩
  · simp [Limiting.held]
  · simp only [Function.update_self] at hr
    cases hr

/-- A step adds an operation for a key, or none. -/
theorem Limits.uses_prefix (hl : Limits cfg i t s.shared q q' g') :
    s.uses p <+: g'.registry.uses p := by
  cases hl with
  | stored hst =>
    rw [Registry.uses_loadOrStore hst]
    exact List.prefix_rfl
  | admitted hu | refused hu | reserved hu | cancelled hu => exact Registry.uses_prefix_use hu p
  | _ => exact List.prefix_rfl

/-- A step of a request, for this key or another one. -/
theorem Mirrors.step (h : Mirrors cfg p s b)
    (hco : s.shared.registry.Coherent (limiter exactRate cfg)) (hq : s.procs i = some q)
    (hr : Limiting.Relies cfg i s.shared (some q)) (hl : Limits cfg i t s.shared q q' g')
    (hc : Paced (g'.registry.uses p)) :
    Advances cfg p b ⟨g', Function.update s.procs i (some q')⟩ := by
  cases hl with
  | found hk => exact .inl (h.frame rfl hq rfl)
  | missed hk => exact .inl (h.frame rfl hq rfl)
  | stored hst => exact .inl (h.frame (Registry.uses_loadOrStore hst) hq rfl)
  | counted hv => exact .inl (h.frame rfl hq rfl)
  | panicked hv => exact .inl (h.frame rfl hq rfl)
  | delayed => exact .inl (h.frame rfl hq rfl)
  | admitted hu =>
    rename_i p' lim reg
    by_cases hp : p = p'
    · subst hp
      exact h.allow hco (hr _ _ rfl) hu hq rfl hc
    · exact .inl (h.frame (Registry.uses_use_of_ne hu hp) hq rfl)
  | refused hu =>
    rename_i p' lim reg
    by_cases hp : p = p'
    · subst hp
      exact h.allow hco (hr _ _ rfl) hu hq rfl hc
    · exact .inl (h.frame (Registry.uses_use_of_ne hu hp) hq rfl)
  | reserved hu =>
    rename_i p' lim r reg
    by_cases hp : p = p'
    · subst hp
      exact h.reserve hco (hr _ _ rfl) hu hq hc
    · exact .inl (h.frame (Registry.uses_use_of_ne hu hp) hq (if_neg (Ne.symm hp)))
  | cancelled hu =>
    rename_i p' lim r n out reg
    by_cases hp : p = p'
    · subst hp
      exact h.cancel hco (hr _ _ rfl) hu hq hc
    · exact .inl (h.frame (Registry.uses_use_of_ne hu hp) hq (if_neg (Ne.symm hp)).symm)

/-- The limiters and the requests are as they rely on each other to be, and if the clock
    goes on, the limiter for `p` follows a bucket. -/
def Mirrored (cfg : RateLimitConfig) (p : GoString) (s : LimitersState) : Prop :=
  Pool.Holds (fun g => g.registry.Coherent (limiter exactRate cfg))
    (fun i x g => Limiting.Relies cfg i g x) s ∧
  (Paced (s.uses p) → ∃ b,
    (Bookings.machine (limiter exactRate cfg).fresh).Reachable b ∧ Mirrors cfg p s b)

theorem mirrored_init (cfg : RateLimitConfig) (p : GoString) :
    Mirrored cfg p (rateLimit exactRate cfg).machine.init :=
  ⟨Pool.holds_init Registry.coherent_empty fun _ _ => nofun, fun _ =>
    ⟨_, ⟨[], rfl⟩, rfl, .inl rfl, rfl, fun _ => rfl, nofun, rfl⟩⟩

theorem Mirrored.step {s' : LimitersState} {l : Pool.Label GoString Int Empty}
    (h : Mirrored cfg p s) (hl : (rateLimit exactRate cfg).machine.step s l = some s') :
    Mirrored cfg p s' := by
  obtain ⟨hI, ih⟩ := h
  refine ⟨(limits_invariant exactRate cfg).machine_step trivial hI hl, fun hc => ?_⟩
  cases l with
  | start i path =>
    obtain ⟨hi, q, g, hq, rfl⟩ := Pool.step_start.mp hl
    obtain ⟨rfl, rfl⟩ := Prod.mk.inj (Option.some.inj hq)
    obtain ⟨b, hb, h⟩ := ih hc
    refine ⟨b, hb, h.frame rfl hi ?_⟩
    split_ifs
    · rfl
    · rfl
  | step i t =>
    obtain ⟨q, hi, q', g, hq, rfl⟩ := Pool.step_step.mp hl
    have hq := Limiting.step_eq_some hq
    obtain ⟨b, hb, h⟩ := ih (hc.of_prefix hq.uses_prefix)
    rcases h.step hI.1 hi (hi ▸ hI.2 i) hq hc with h' | ⟨op, b', hop, h'⟩
    · exact ⟨b, hb, h'⟩
    · exact ⟨b', hb.step hop, h'⟩
  | env x => exact x.elim

/-- The limiter for a key follows a bucket with reservations along every run, as long
    as the clock goes on. -/
theorem mirrors_of_reachable (hs : (rateLimit exactRate cfg).machine.Reachable s)
    (hc : Paced (s.uses p)) :
    ∃ b, (Bookings.machine (limiter exactRate cfg).fresh).Reachable b ∧ Mirrors cfg p s b := by
  obtain ⟨ls, hs⟩ := hs
  exact (Machine.run_invariant (G := fun _ => True) (fun _ h => h.step) (fun _ _ => trivial)
    (mirrored_init cfg p) hs).2 hc

end

/-! ## What is let through -/

/-- A clock that goes on with every operation. -/
theorem paced_of_lt {us : List (LimiterUse exactRate)} (h0 : ∀ t ∈ us.map (·.op.instant), 0 ≤ t)
    (h : (us.map (·.op.instant)).Pairwise (· < ·)) : Paced us := by
  rw [List.pairwise_map] at h
  refine ⟨fun u hu => h0 _ (List.mem_map_of_mem hu), h.imp fun hlt => hlt.le,
    h.imp fun {u v} hlt r t _ hop => ?_⟩
  rw [hop] at hlt
  exact hlt

/-- A request that is let through, one that is refused and gives its reservation back,
    and one that is let through when a second is over. -/
def sampleWindow : List (Pool.Label GoString Int Empty) :=
  [.start 0 (lit "/webhook/jsm"), .step 0 0, .step 0 0, .step 0 0,
    .start 1 (lit "/webhook/jsm"), .step 1 1, .step 1 1, .step 1 2, .step 1 2, .step 1 2,
    .step 1 3,
    .start 2 (lit "/webhook/jsm"), .step 2 second, .step 2 second]

theorem run_sampleWindow :
    ∃ env cfg, ∃ s : LimitersState,
      load env = .ok cfg ∧ cfg.rateLimitRPS = .fin 1 ∧ cfg.rateLimitBurst = 1 ∧
      (rateLimit exactRate cfg.rateLimit).machine.Reachable s ∧ Paced (s.uses (lit "jsm")) ∧
      ((s.uses (lit "jsm")).countP LimiterUse.reserves : ℚ) * second ≤ 1 * maxDuration ∧
      (s.uses (lit "jsm")).filterMap LimiterUse.admission = [0, second] := by
  obtain ⟨cfg, hl, hp⟩ := load_of_any
    [("WEBHOOK_RATE_LIMIT_RPS", lit "1"), ("WEBHOOK_RATE_LIMIT_BURST", lit "1")]
    (fun cfg => cfg.rateLimitRPS = .fin 1 ∧ cfg.rateLimitBurst = 1) (by decide +kernel)
  obtain ⟨hrps, hburst⟩ := of_decide_eq_true hp
  have hcfg : cfg.rateLimit = ⟨.fin 1, 1⟩ := by rw [Config.rateLimit, hrps, hburst]
  let m := (rateLimit exactRate ⟨.fin 1, 1⟩).machine
  have h : (m.run m.init sampleWindow).any (fun s =>
      ((LimitersState.uses s (lit "jsm")).map (·.op.instant) = [0, 1, 2, 3, second] ∧
        (LimitersState.uses s (lit "jsm")).countP LimiterUse.reserves = 1) ∧
      (LimitersState.uses s (lit "jsm")).filterMap LimiterUse.admission = [0, second]) = true := by
    decide +kernel
  obtain ⟨s, hs, h⟩ := (Option.any_eq_true ..).mp h
  obtain ⟨⟨hinst, hcount⟩, hadm⟩ := of_decide_eq_true h
  refine ⟨_, cfg, s, hl, hrps, hburst, ?_, paced_of_lt ?_ ?_, ?_, hadm⟩
  · rw [hcfg]
    exact ⟨sampleWindow, hs⟩
  · rw [hinst]
    decide
  · rw [hinst]
    decide
  · rw [hcount]
    norm_num [second, maxDuration]

/-- A limiter of a configuration that was loaded starts with a rate and a full burst. -/
theorem opening_of_load {env : Env} {cfg : Config} {q : ℚ} (hload : load env = .ok cfg)
    (hq : cfg.rateLimitRPS = .fin q) :
    (exactRate.newLimiter cfg.rateLimitRPS cfg.rateLimitBurst : Bucket).Opening := by
  obtain ⟨-, -, -, hv⟩ := load_ok hload
  have hc := validated_of_ok hv
  have hburst : 1 ≤ cfg.rateLimitBurst := not_le.mp hc.rateLimitBurst
  have hpos : 0 < q := by simpa [hq, Float64.le, Float64.lt] using hc.rateLimitRPS
  have htokens : (0 : ℚ) ≤ cfg.rateLimitBurst := by exact_mod_cast zero_le_one.trans hburst
  rw [hq]
  exact ⟨hpos, hburst, htokens, le_rfl⟩

theorem limit_newLimiter {cfg : Config} {q : ℚ} (hq : cfg.rateLimitRPS = .fin q) :
    (exactRate.newLimiter cfg.rateLimitRPS cfg.rateLimitBurst : Bucket).limit = q := by
  rw [hq]
  rfl

section

variable {env : Env} {cfg : Config} {q : ℚ} {s : LimitersState} {p : GoString}

/-- The bucket that the limiter for a key follows is within the plain one, as long as the
    operations are paced and no wait is longer than durations are. -/
theorem sound_of_reachable (hload : load env = .ok cfg) (hq : cfg.rateLimitRPS = .fin q)
    (hs : (rateLimit exactRate cfg.rateLimit).machine.Reachable s) (hc : Paced (s.uses p))
    (hcap : (s.uses p).countP LimiterUse.reserves * second ≤ q * maxDuration) :
    ∃ c b, Bookings.Sound (exactRate.newLimiter cfg.rateLimitRPS cfg.rateLimitBurst) c b ∧
      b.admitted = (s.uses p).filterMap LimiterUse.admission := by
  obtain ⟨b, hb, h⟩ := mirrors_of_reachable hs hc
  obtain ⟨c, hsound⟩ := Bookings.sound (opening_of_load hload hq) hb (by
    rwa [limit_newLimiter hq, h.reserves])
  exact ⟨c, b, hsound, h.admitted⟩

/-- Under the same assumptions, no more requests for a key are let through in any interval
    of time than the burst, and what accrues in the interval at the configured rate. -/
theorem admissions_window (hload : load env = .ok cfg) (hq : cfg.rateLimitRPS = .fin q)
    (hs : (rateLimit exactRate cfg.rateLimit).machine.Reachable s) (hc : Paced (s.uses p))
    (hcap : (s.uses p).countP LimiterUse.reserves * second ≤ q * maxDuration) {a z : Int}
    (haz : a ≤ z) :
    (((s.uses p).filterMap LimiterUse.admission).countP (fun t => a ≤ t ∧ t ≤ z) : ℚ) ≤
      cfg.rateLimitBurst + (z - a) / second * q := by
  obtain ⟨c, b, h, hb⟩ := sound_of_reachable hload hq hs hc hcap
  have hw := h.window (opening_of_load hload hq) haz
  rwa [hb, limit_newLimiter hq] at hw

theorem admissions_window_sampleWindow :
    ∃ cfg : Config, ∃ s : LimitersState, cfg.rateLimitBurst = 1 ∧
      (rateLimit exactRate cfg.rateLimit).machine.Reachable s ∧
      (s.uses (lit "jsm")).filterMap LimiterUse.admission = [0, second] ∧
      (((s.uses (lit "jsm")).filterMap LimiterUse.admission).countP
        (fun t => 0 ≤ t ∧ t ≤ second) : ℚ) ≤
        cfg.rateLimitBurst + ((second : Int) - (0 : Int)) / second * 1 := by
  obtain ⟨env, cfg, s, hl, hq, hburst, hs, hc, hcap, hadm⟩ := run_sampleWindow
  exact ⟨cfg, s, hburst, hs, hadm, admissions_window hl hq hs hc hcap (by decide)⟩

end

/-! ## Signatures -/

/-- The limiters behind the intake are those of the middleware alone. -/
theorem rateLimit_of_intake {R : Rate} {cfg : RateLimitConfig} {d : Dispatcher}
    {s : Pool.State (Gate R) (Passage R)} (h : (intake R cfg d).machine.Reachable s) :
    (rateLimit R cfg).machine.Reachable (s.map Gate.limiters Passage.limiting) := by
  refine Pool.reachable_simulated (f := Gate.limiters) (g := Passage.limiting) rfl ?_ ?_ ?_ h
  · intro i a g x g' hs
    obtain ⟨q, hq, -, rfl, rfl⟩ := intake_start hs
    exact ⟨a.path, hq⟩
  · intro i x t g x' g' hs
    rcases intake_step hs with ⟨-, -, rfl, rfl⟩ | ⟨q', l, hq, rfl, rfl⟩
    · exact .inl ⟨rfl, rfl⟩
    · exact .inr ⟨t, hq⟩
  · intro e
    exact e.elim

/-- A token that is taken for a provider. -/
def Effect.admits (p : GoString) : Effect → Bool
  | .allow p' _ ok => p' = p && ok
  | _ => false

section

variable {R : Rate} {cfg : RateLimitConfig} {d : Dispatcher} {p : GoString} {i : Nat} {t : Int}
  {g g' : Limiters R} {q q' : Limiting R}

/-- The requests for a provider that were let through, by its limiter. -/
def Limiters.admitted (g : Limiters R) (p : GoString) : List Int :=
  (g.registry.uses p).filterMap LimiterUse.admission

theorem Limiters.admitted_use {p' : GoString} {lim : Nat} {op : LimiterOp R}
    {out : LimiterOut R}
    {reg : Registry GoString R.Limiter (LimiterOp R) (LimiterOut R)}
    (h : g.registry.use (limiter R cfg) p' lim op = some (out, reg)) (p : GoString) :
    Limiters.admitted { g with registry := reg } p = g.admitted p ++
      if p' = p then (LimiterUse.admission ⟨p', lim, op, out⟩).toList else [] := by
  by_cases hp : p = p'
  · subst hp
    rw [if_pos rfl, Limiters.admitted, Registry.uses_use h, List.filterMap_append]
    cases hadm : LimiterUse.admission ⟨p, lim, op, out⟩ <;> simp [hadm, Limiters.admitted]
  · rw [if_neg (Ne.symm hp), List.append_nil, Limiters.admitted, Registry.uses_use_of_ne h hp]
    rfl

/-- A step takes a token for a provider when its limiter lets a request through. -/
theorem Limits.length_admitted (h : Limits cfg i t g q q' g') (p : GoString) :
    (g'.admitted p).length = (g.admitted p).length + (q.effects q').countP (Effect.admits p) := by
  cases h with
  | stored hst =>
    rw [Limiters.admitted, Registry.uses_loadOrStore hst]
    rfl
  | admitted hu =>
    rename_i p' lim reg
    rw [Limiters.admitted_use hu, List.length_append]
    by_cases hp : p' = p <;> simp [hp, LimiterUse.admission, Limiting.effects, Effect.admits]
  | refused hu =>
    rw [Limiters.admitted_use hu]
    simp [LimiterUse.admission, Limiting.effects, Effect.admits]
  | reserved hu =>
    rw [Limiters.admitted_use hu]
    simp [LimiterUse.admission, Limiting.effects]
  | cancelled hu =>
    rw [Limiters.admitted_use hu]
    simp [LimiterUse.admission, Limiting.effects, Effect.admits]
  | counted | panicked => simp [Limiters.admitted, Limiting.effects, Effect.admits]
  | found | missed | delayed => rfl

/-- The tokens that requests have taken for a provider are those its limiter has given. -/
theorem tally_admits {s : Pool.State (Gate R) (Passage R)}
    (hs : (intake R cfg d).machine.Reachable s) (p : GoString) :
    s.shared.journal.tally (Effect.admits p) = (s.shared.limiters.admitted p).length := by
  obtain ⟨ls, hs⟩ := hs
  refine Machine.run_invariant (G := fun _ => True)
    (P := fun s : Pool.State (Gate R) (Passage R) =>
      s.shared.journal.tally (Effect.admits p) = (s.shared.limiters.admitted p).length)
    ?_ (fun _ _ => trivial) rfl hs
  intro s l s' _ h hl
  cases l with
  | start i a =>
    obtain ⟨-, x, g, hx, rfl⟩ := Pool.step_start.mp hl
    obtain ⟨q, -, -, rfl, rfl⟩ := intake_start hx
    have hbegan : q.began.countP (Effect.admits p) = 0 := by
      cases q with
      | done v => cases v <;> rfl
      | _ => rfl
    rw [Journal.tally_record, hbegan, h]
    rfl
  | step i t =>
    obtain ⟨x, -, x', g, hx, rfl⟩ := Pool.step_step.mp hl
    rcases intake_step hx with ⟨-, -, rfl, rfl⟩ | ⟨q', l, hq, rfl, rfl⟩
    · have hserved : (x.arrival.served d).countP (Effect.admits p) = 0 := by
        rcases served_cases x.arrival d with hnil | ⟨p', -, -, hone⟩
        · rw [hnil]
          rfl
        · rw [hone]
          rfl
      rw [Journal.tally_record, hserved, h]
      rfl
    · rw [Journal.tally_record, h, (Limiting.step_eq_some hq).length_admitted p]
  | env e => exact e.elim

/-- Each signature that was verified for a provider has a token of its own. -/
theorem tally_verified_le {s : Pool.State (Gate R) (Passage R)}
    (hs : (intake R cfg d).machine.Reachable s)
    (hnames : ∀ p, d.providers p ≠ none → p ≠ [] ∧ ch '/' ∉ p) (p : GoString) :
    s.shared.journal.tally (· = .verifySignature p) ≤
      s.shared.journal.tally (Effect.admits p) := by
  let S := (s.shared.journal.map (·.1)).toFinset
  have hS : ∀ e ∈ s.shared.journal, e.1 ∈ S := fun e he =>
    List.mem_toFinset.mpr (List.mem_map_of_mem he)
  rw [Journal.tally_eq_sum hS, Journal.tally_eq_sum hS]
  refine Finset.sum_le_sum fun i _ => ?_
  have hdid := ((intake_reachable hs).2 i).2
  by_cases hmem : Effect.verifySignature p ∈ s.shared.journal.entries i
  · obtain ⟨lim, hes⟩ := hdid.of_verified hnames hmem
    rw [hes]
    simp [Effect.admits]
  · have hz : (s.shared.journal.entries i).countP (· = .verifySignature p) = 0 := by
      rw [List.countP_eq_zero]
      intro e he heq
      exact hmem (of_decide_eq_true heq ▸ he)
    rw [hz]
    exact Nat.zero_le _

end

theorem names_jsmDispatcher {hmac : HMAC} {cfg : Config} (p : GoString)
    (h : (jsmDispatcher hmac cfg).providers p ≠ none) : p ≠ [] ∧ ch '/' ∉ p := by
  obtain ⟨prov, hp⟩ := Option.ne_none_iff_exists'.mp h
  have hmem : (p, prov) ∈ [(lit "jsm", Jsm.provider hmac (.ofConfig cfg))] :=
    GoMap.mem_of_ofList hp
  rw [(Prod.mk.inj (List.mem_singleton.mp hmem)).1]
  decide

/-- The first request for a provider is let through, and served. -/
theorem intake_first {R : Rate} (cfg : RateLimitConfig) (d : Dispatcher) (a : Arrival)
    {p : GoString} (hp : providerFromPath a.path = p) (hne : p ≠ [])
    (hok : (R.allow (R.newLimiter cfg.rps cfg.burst) 0).1 = true) :
    ∃ s, (intake R cfg d).machine.Reachable s ∧
      s.shared.journal = Journal.record [] 0 ([.allow p 0 true, .next] ++ a.served d) ∧
      s.shared.limiters.registry.uses p = [⟨p, 0, .allow 0, .allowed true⟩] := by
  let reg := (Registry.empty.create (limiter R cfg) 0).store p 0
  let reg' : Registry GoString R.Limiter (LimiterOp R) (LimiterOut R) :=
    { reg with
      heap := Function.update reg.heap 0
        (some (R.allow (R.newLimiter cfg.rps cfg.burst) 0).2)
      history := [⟨p, 0, .allow 0, .allowed true⟩] }
  have hlim : (Limiting.allow p 0).step cfg 0 0 ⟨reg, ∅⟩ = some (.done .next, ⟨reg', ∅⟩) := by
    have ho : reg.heap 0 = some (R.newLimiter cfg.rps cfg.burst) := rfl
    simp only [Limiting.step, Limiters.use_of_heap (g := ⟨reg, ∅⟩) ho, limiter, hok]
    rfl
  have hstart : (intake R cfg d).start 0 a ⟨⟨.empty, ∅⟩, []⟩ =
      some (⟨a, .load p, false⟩, ⟨⟨.empty, ∅⟩, []⟩) := by
    simp only [intake, rateLimit, hp, if_neg hne]
    rfl
  have hallow : (intake R cfg d).step 0 ⟨a, .allow p 0, false⟩ 0 ⟨⟨reg, ∅⟩, []⟩ =
      some (⟨a, .done .next, false⟩,
        ⟨⟨reg', ∅⟩, Journal.record [] 0 [.allow p 0 true, .next]⟩) := by
    simp only [intake, rateLimit, hlim]
    rfl
  refine ⟨_, ⟨[.start 0 a, .step 0 0, .step 0 0, .step 0 0, .step 0 0],
    Machine.run_cons_eq_some.mpr ⟨_, Pool.step_start.mpr ⟨rfl, _, _, hstart, rfl⟩,
    Machine.run_cons_eq_some.mpr ⟨_, Pool.step_step.mpr ⟨_, rfl, _, _, rfl, rfl⟩,
    Machine.run_cons_eq_some.mpr ⟨_, Pool.step_step.mpr ⟨_, rfl, _, _, rfl, rfl⟩,
    Machine.run_cons_eq_some.mpr ⟨_, Pool.step_step.mpr ⟨_, rfl, _, _, hallow, rfl⟩,
    Machine.run_cons_eq_some.mpr ⟨_, Pool.step_step.mpr ⟨_, rfl, _, _, rfl, rfl⟩, rfl⟩⟩⟩⟩⟩⟩,
    ?_, ?_⟩
  · simp [Journal.record]
  · simp [reg', Registry.uses]

/-- The program that was started verifies no more signatures for a provider than its
    limiter has let requests through, whatever the limiter does, and whatever requests
    are made in whatever order. -/
theorem verifications_admitted {R : Rate} {hmac : HMAC} {w : Surroundings} {env : Env}
    {cfg : Config} {d : Dispatcher} {s : Pool.State (Gate R) (Passage R)}
    (hboot : boot hmac w env = .ok (some ⟨cfg, some d⟩))
    (hs : (intake R cfg.rateLimit d).machine.Reachable s) (p : GoString) :
    s.shared.journal.tally (· = .verifySignature p) ≤ (s.shared.limiters.admitted p).length := by
  obtain ⟨-, -, -, -, rfl⟩ := boot_eq_enabled.mp hboot
  exact (tally_verified_le hs names_jsmDispatcher p).trans_eq (tally_admits hs p)

theorem verifications_admitted_sampleArrival :
    ∃ cfg d s, boot sampleHMAC sampleSurroundings (sampleEnv
        [(lit "WEBHOOK_RATE_LIMIT_RPS", lit "1"), (lit "WEBHOOK_RATE_LIMIT_BURST", lit "1")]) =
        .ok (some ⟨cfg, some d⟩) ∧
      (intake exactRate cfg.rateLimit d).machine.Reachable s ∧
      (0, .verifySignature (lit "jsm")) ∈ s.shared.journal ∧
      s.shared.limiters.admitted (lit "jsm") = [0] ∧
      s.shared.journal.tally (· = .verifySignature (lit "jsm")) ≤
        (s.shared.limiters.admitted (lit "jsm")).length := by
  obtain ⟨cfg, hl, hp⟩ := load_of_any
    [("WEBHOOK_RATE_LIMIT_RPS", lit "1"), ("WEBHOOK_RATE_LIMIT_BURST", lit "1")]
    (fun cfg => (cfg.rateLimitRPS = .fin 1 ∧ cfg.rateLimitBurst = 1) ∧
      cfg.cr.apiGroup = groupVersionGroup ∧ cfg.maxBodyBytes = 2 ^ 20) (by decide +kernel)
  obtain ⟨⟨hrps, hburst⟩, hgroup, hmax⟩ := of_decide_eq_true hp
  have hboot : boot sampleHMAC sampleSurroundings _ =
      .ok (some ⟨cfg, some (jsmDispatcher sampleHMAC cfg)⟩) := boot_eq_enabled.mpr
    ⟨hl, newTracerProvider_eq_ok.mpr ⟨rfl, fun _ => rfl⟩,
      newClients_eq_ok.mpr ⟨hgroup, ite_self _, rfl, rfl⟩, rfl, rfl⟩
  have hok : (exactRate.allow (exactRate.newLimiter cfg.rateLimitRPS cfg.rateLimitBurst) 0).1 =
      true := by
    rw [hrps, hburst]
    decide +kernel
  obtain ⟨s, hs, hj, hu⟩ := intake_first cfg.rateLimit (jsmDispatcher sampleHMAC cfg)
    sampleArrival (p := lit "jsm") (by decide +kernel) (by decide) hok
  have hserved : sampleArrival.served (jsmDispatcher sampleHMAC cfg) =
      [.verifySignature (lit "jsm")] := by
    have hr : routedProvider sampleArrival.toTarget = some (lit "jsm") := by decide +kernel
    have hread : readAll (jsmDispatcher sampleHMAC cfg).maxBodyBytes sampleArrival.body =
        .ok sampleArrival.body.data :=
      readAll_ok.mpr ⟨rfl, rfl, (show (sampleArrival.body.data.length : Int) ≤ 2 ^ 20 by
        decide +kernel).trans_eq hmax.symm⟩
    have hv : (jsmDispatcher sampleHMAC cfg).verifier (sampleArrival.request (lit "jsm")) =
        some (Jsm.provider sampleHMAC (.ofConfig cfg)) := by
      have hprov : (jsmDispatcher sampleHMAC cfg).providers (lit "jsm") =
          some (Jsm.provider sampleHMAC (.ofConfig cfg)) := rfl
      simp only [Dispatcher.verifier, Arrival.request, hprov, hread]
    simp only [Arrival.served, hr, hv]
    rfl
  refine ⟨cfg, _, s, hboot, hs, ?_, ?_, verifications_admitted hboot hs _⟩
  · rw [hj, hserved]
    decide
  · rw [Limiters.admitted, hu]
    rfl

/-- Under the assumptions of `sound_of_reachable`, these are no more than the burst of the
    limiter, and what accrues up to the last instant at which it was asked. -/
theorem verifications_bounded {hmac : HMAC} {w : Surroundings} {env : Env} {cfg : Config}
    {d : Dispatcher} {q : ℚ} {s : Pool.State (Gate exactRate) (Passage exactRate)} {p : GoString}
    (hboot : boot hmac w env = .ok (some ⟨cfg, some d⟩)) (hq : cfg.rateLimitRPS = .fin q)
    (hs : (intake exactRate cfg.rateLimit d).machine.Reachable s)
    (hc : Paced (s.shared.limiters.registry.uses p))
    (hcap : (s.shared.limiters.registry.uses p).countP LimiterUse.reserves * second ≤
      q * maxDuration)
    {z : Int} (h0 : 0 ≤ z) (hz : ∀ u ∈ s.shared.limiters.registry.uses p, u.op.instant ≤ z) :
    (s.shared.journal.tally (· = .verifySignature p) : ℚ) ≤
      cfg.rateLimitBurst + z / second * q := by
  obtain ⟨hload, -, -, -, rfl⟩ := boot_eq_enabled.mp hboot
  obtain ⟨c, b, h, hb⟩ := sound_of_reachable hload hq (rateLimit_of_intake hs) hc hcap
  have hw := h.window (opening_of_load hload hq) h0
  rw [limit_newLimiter hq] at hw
  -- All that were let through are in the interval.
  have hall : b.admitted.countP (fun t => 0 ≤ t ∧ t ≤ z) = b.admitted.length := by
    rw [List.countP_eq_length]
    intro t ht
    refine decide_eq_true ⟨(h.admitted t ht).1, ?_⟩
    rw [hb] at ht
    obtain ⟨u, hu, hadm⟩ := List.mem_filterMap.mp ht
    exact LimiterUse.instant_of_admission hadm ▸ hz u hu
  have hle := tally_verified_le hs names_jsmDispatcher p
  rw [tally_admits hs, Limiters.admitted] at hle
  calc (s.shared.journal.tally (· = .verifySignature p) : ℚ)
      ≤ ((s.shared.limiters.registry.uses p).filterMap LimiterUse.admission).length := by
        exact_mod_cast hle
    _ = b.admitted.countP (fun t => 0 ≤ t ∧ t ≤ z) := by
        rw [hall, hb]
        rfl
    _ ≤ cfg.rateLimitBurst + z / second * q := by
        rw [Int.cast_zero, sub_zero] at hw
        exact hw

end Webhookd
