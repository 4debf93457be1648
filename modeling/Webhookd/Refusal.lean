import Webhookd.RateLimit

/-!
# Refused requests

A request that is refused reserves a token to learn how long it has to wait,
and cancels the reservation. On an exact token bucket this costs the requests
that follow nothing as long as no two refused requests do so at once, and each
is done when its token is due; otherwise a token may be lost.

* `refusals_free`: along every run on such calls, in whatever state the bucket
  was at first, it decides as if refused requests had only asked;
* `refusals_cost`: two requests that are refused together delay a third one.
-/

namespace Webhookd

open Go

/-- The packages with an exact bucket, in a given state at first. -/
abbrev exactRateAt (b : Bucket) : Rate := exactRate.startingAt b

/-- A call on the limiter of a provider. -/
abbrev Call (b : Bucket) :=
  Use GoString (LimiterOp (exactRateAt b)) (LimiterOut (exactRateAt b))

def LimiterOp.isAllow {R : Rate} : LimiterOp R → Bool
  | .allow _ => true
  | .reserve _ | .cancel _ _ => false

/-- What is owed to the bucket for a reservation. -/
def owed (r : BucketReservation) : Option BucketReservation := if r.ok then some r else none

variable {b : Bucket}

/-- Calls that do not disturb each other, from an instant on at which a reservation may be
    held: they come in the order of their instants, one reservation is held at a
    time, and before its token is due, or at the latest then for its cancellation. -/
def Undisturbed : ℚ → Option BucketReservation → List (Call b) → Prop
  | _, _, [] => True
  | now, held, ⟨_, _, .allow t, _⟩ :: us =>
    now ≤ t ∧ held.all (fun r => (t : ℚ) < r.timeToAct) ∧ Undisturbed t held us
  | now, held, ⟨_, _, .reserve t, .reserved r⟩ :: us =>
    now ≤ t ∧ held = none ∧ Undisturbed t (owed r) us
  | now, held, ⟨_, _, .cancel r t, _⟩ :: us =>
    now ≤ t ∧ held = owed r ∧ held.all (fun r => (t : ℚ) ≤ r.timeToAct) ∧ Undisturbed t none us
  | _, _, _ :: _ => False

instance : ∀ now held (us : List (Call b)), Decidable (Undisturbed now held us)
  | _, _, [] => inferInstanceAs (Decidable True)
  | now, held, ⟨_, _, .allow t, _⟩ :: us =>
    have := instDecidableUndisturbed t held us
    inferInstanceAs (Decidable (now ≤ t ∧ held.all (fun r => (t : ℚ) < r.timeToAct) ∧
      Undisturbed t held us))
  | now, held, ⟨_, _, .reserve t, .reserved r⟩ :: us =>
    have := instDecidableUndisturbed t (owed r) us
    inferInstanceAs (Decidable (now ≤ t ∧ held = none ∧ Undisturbed t (owed r) us))
  | now, held, ⟨_, _, .cancel r t, _⟩ :: us =>
    have := instDecidableUndisturbed t none us
    inferInstanceAs (Decidable (now ≤ t ∧ held = owed r ∧
      held.all (fun r => (t : ℚ) ≤ r.timeToAct) ∧ Undisturbed t none us))
  | _, _, ⟨_, _, .reserve _, .allowed _⟩ :: _ => inferInstanceAs (Decidable False)
  | _, _, ⟨_, _, .reserve _, .cancelled⟩ :: _ => inferInstanceAs (Decidable False)

/-- The bucket after some calls has the same tokens as one that got only those that ask,
    once it has what it is owed. -/
def Follows (now : ℚ) : Option BucketReservation → Bucket → Bucket → Prop
  | none => Bucket.Agree now
  | some r => Bucket.Owes now r

section

variable {now : ℚ} {t : Int} {held : Option BucketReservation} {o c : Bucket}

theorem Follows.allow (h : Follows now held o c) (ht : now ≤ t)
    (hheld : held.all (fun r => (t : ℚ) < r.timeToAct) = true) :
    (o.reserveN t 1 0).1.ok = (c.reserveN t 1 0).1.ok ∧
      Follows t held (o.reserveN t 1 0).2 (c.reserveN t 1 0).2 := by
  cases held with
  | none => exact Bucket.Agree.allow h ht
  | some r => exact Bucket.Owes.allow h ht (of_decide_eq_true hheld)

theorem Follows.reserve (h : Follows now none o c) (ht : now ≤ t) :
    Follows t (owed (o.reserveN t 1 maxDuration).1) (o.reserveN t 1 maxDuration).2 c := by
  have hr := Bucket.Agree.reserve h ht
  rw [owed]
  split_ifs at hr ⊢
  · exact hr
  · exact hr

theorem Follows.cancel {r : BucketReservation} (h : Follows now (owed r) o c) (ht : now ≤ t)
    (hheld : (owed r).all (fun r => (t : ℚ) ≤ r.timeToAct) = true) :
    Follows t none (o.cancelAt r t) c := by
  rw [owed] at h hheld
  split_ifs at h hheld with hok
  · exact Bucket.Owes.cancel h ht (of_decide_eq_true hheld)
  · rw [Bucket.cancelAt, if_pos (.inl hok)]
    exact Bucket.Agree.mono h ht

end

/-- Undisturbed calls decide as if only those that ask were made. -/
theorem decisions_of_undisturbed (cfg : RateLimitConfig) (us : List (Call b)) {now : ℚ}
    {held : Option BucketReservation} {o c : Bucket} (h : Follows now held o c)
    (hrun : ((limiter (exactRateAt b) cfg).run o (us.map Use.op)).1 = us.map Use.out)
    (hus : Undisturbed now held us) :
    us.filterMap (·.out.decision) = ((limiter (exactRateAt b) cfg).run c
      ((us.map Use.op).filter LimiterOp.isAllow)).1.filterMap LimiterOut.decision := by
  -- On the calls: the bucket goes on from what the first of them leaves.
  induction us generalizing now held o c with
  | nil => rfl
  | cons u us ih =>
    obtain ⟨k, a, op, out⟩ := u
    obtain ⟨rfl, htail⟩ : ((limiter (exactRateAt b) cfg).apply o op).1 = out ∧
        ((limiter (exactRateAt b) cfg).run ((limiter (exactRateAt b) cfg).apply o op).2
          (us.map Use.op)).1 = us.map Use.out := List.cons.inj hrun
    cases op with
    | allow t =>
      obtain ⟨ht, hheld, hus⟩ := hus
      obtain ⟨hok, h⟩ := h.allow ht hheld
      exact congrArg₂ List.cons hok (ih h htail hus)
    | reserve t =>
      obtain ⟨ht, rfl, hus⟩ := hus
      exact ih (h.reserve ht) htail hus
    | cancel r t =>
      obtain ⟨ht, rfl, hheld, hus⟩ := hus
      exact ih (h.cancel ht hheld) htail hus

/-- In whatever state the bucket is at first, and in whatever order requests take their
    steps: as long as the calls for a provider do not disturb each other, the
    limiter decides as if the requests that it refused had only asked. -/
theorem refusals_free (b : Bucket) (cfg : RateLimitConfig)
    {s : Pool.State (Limiters (exactRateAt b)) (Limiting (exactRateAt b))}
    (hs : (rateLimit (exactRateAt b) cfg).machine.Reachable s) (p : GoString)
    (hp : Undisturbed b.last none (s.shared.registry.uses p)) :
    (s.shared.registry.uses p).filterMap (·.out.decision) = ((limiter (exactRateAt b) cfg).run b
      (((s.shared.registry.uses p).map Use.op).filter LimiterOp.isAllow)).1.filterMap
        LimiterOut.decision := by
  obtain ⟨hco, -⟩ := (limits_invariant (exactRateAt b) cfg).reachable Registry.coherent_empty
    (fun i k => nofun) hs
  have h : Follows b.last none b b := Bucket.Agree.refl le_rfl
  exact decisions_of_undisturbed cfg _ h (hco.outs_eq p).symm hp

/-- A bucket for one event a second. -/
def sampleBucket : Bucket := exactRate.newLimiter (.fin 1) 1

/-- A request that is refused, and takes all its steps at an instant. -/
def sampleRefusal (i : Nat) (t : Int) : List (Pool.Label GoString Int Empty) :=
  .start i (lit "/webhook/jsm") :: List.replicate 6 (.step i t)

theorem refusals_free_sample :
    ∃ s, (rateLimit (exactRateAt sampleBucket) ⟨.fin 1, 1⟩).machine.Reachable s ∧
      (s.shared.registry.uses (lit "jsm")).filterMap (·.out.decision) = [true, false, true] ∧
      ((limiter (exactRateAt sampleBucket) ⟨.fin 1, 1⟩).run sampleBucket
        (((s.shared.registry.uses (lit "jsm")).map Use.op).filter LimiterOp.isAllow)).1.filterMap
          LimiterOut.decision = [true, false, true] := by
  let m := (rateLimit (exactRateAt sampleBucket) ⟨.fin 1, 1⟩).machine
  let ls := [.start 0 (lit "/webhook/jsm"), .step 0 0, .step 0 0, .step 0 0] ++ sampleRefusal 1 0 ++
    [.start 2 (lit "/webhook/jsm"), .step 2 second, .step 2 second]
  have h : (m.run m.init ls).any (fun s =>
      Undisturbed sampleBucket.last none (s.shared.registry.uses (lit "jsm")) ∧
        (s.shared.registry.uses (lit "jsm")).filterMap (·.out.decision) = [true, false, true]) =
      true := by decide +kernel
  obtain ⟨s, hs, h⟩ := (Option.any_eq_true ..).mp h
  obtain ⟨hu, hd⟩ := of_decide_eq_true h
  refine ⟨s, ⟨ls, hs⟩, hd, ?_⟩
  rw [← hd]
  exact (refusals_free sampleBucket ⟨.fin 1, 1⟩ ⟨ls, hs⟩ (lit "jsm") hu).symm

/-- Two requests are refused together and reserve a token each, of which only one comes
    back: a second later the next request is refused, where a limiter that was only
    asked allows it. -/
theorem refusals_cost :
    ∃ s, (rateLimit (exactRateAt sampleBucket) ⟨.fin 1, 1⟩).machine.Reachable s ∧
      (s.shared.registry.uses (lit "jsm")).filterMap (·.out.decision) =
        [true, false, false, false] ∧
      ((limiter (exactRateAt sampleBucket) ⟨.fin 1, 1⟩).run sampleBucket
        (((s.shared.registry.uses (lit "jsm")).map Use.op).filter LimiterOp.isAllow)).1.filterMap
          LimiterOut.decision = [true, false, false, true] := by
  let m := (rateLimit (exactRateAt sampleBucket) ⟨.fin 1, 1⟩).machine
  let ls : List (Pool.Label GoString Int Empty) :=
    [.start 0 (lit "/webhook/jsm"), .step 0 0, .step 0 0, .step 0 0,
      .start 1 (lit "/webhook/jsm"), .step 1 0, .step 1 0, .step 1 0,
      .start 2 (lit "/webhook/jsm"), .step 2 0, .step 2 0, .step 2 0,
      .step 1 0, .step 2 0, .step 1 0, .step 2 0, .step 1 0, .step 2 0,
      .start 3 (lit "/webhook/jsm"), .step 3 second, .step 3 second]
  have h : (m.run m.init ls).any (fun s =>
      (s.shared.registry.uses (lit "jsm")).filterMap (·.out.decision) =
        [true, false, false, false] ∧
      ((limiter (exactRateAt sampleBucket) ⟨.fin 1, 1⟩).run sampleBucket
        (((s.shared.registry.uses (lit "jsm")).map Use.op).filter LimiterOp.isAllow)).1.filterMap
          LimiterOut.decision = [true, false, false, true]) = true := by decide +kernel
  obtain ⟨s, hs, h⟩ := (Option.any_eq_true ..).mp h
  exact ⟨s, ⟨ls, hs⟩, of_decide_eq_true h⟩

end Webhookd
