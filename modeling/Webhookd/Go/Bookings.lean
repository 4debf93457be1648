import Webhookd.Go.Rate
import Webhookd.Machine.Basic

/-!
# How much a rate limiter lets through

A token bucket on which events are allowed, and on which tokens are also
reserved and given back. The reference is a bucket on which events are allowed
and nothing is reserved (`Bucket.allows`): it lets through at most the burst,
and what accrues, in any interval of time (`Bucket.allows_window`).

A bucket with reservations lets through no more than that, as long as a
reservation is not given back at the instant it was made, and no wait exceeds
the longest duration (`Bookings.sound`): while a reservation can still be given
back, the bucket has no token to allow an event with, and what is given back is
not more than the reference has.
-/

namespace Go

namespace Bucket

variable {b c : Bucket} {t u v x y : ℚ}

/-! ## Tokens and durations -/

theorem tokensFromDuration_sub (limit d e : ℚ) :
    tokensFromDuration limit (d - e) =
      tokensFromDuration limit d - tokensFromDuration limit e := by
  have h := tokensFromDuration_add limit (d - e) e
  rw [sub_add_cancel] at h
  linarith

theorem tokensFromDuration_zero (limit : ℚ) : tokensFromDuration limit 0 = 0 := by
  simp [tokensFromDuration]

theorem tokensFromDuration_mono (limit : ℚ) (h : x ≤ y) :
    tokensFromDuration limit x ≤ tokensFromDuration limit y := by
  have := tokensFromDuration_nonneg limit (sub_nonneg.mpr h)
  rw [tokensFromDuration_sub] at this
  linarith

theorem tokensFromDuration_strictMono {limit : ℚ} (hl : 0 < limit) (h : x < y) :
    tokensFromDuration limit x < tokensFromDuration limit y := by
  simp only [tokensFromDuration, if_neg (not_le.mpr hl)]
  have hs : (0 : ℚ) < second := by norm_num [second]
  gcongr

/-- The duration that pays for some tokens, if it is not longer than all durations. -/
theorem tokensFromDuration_durationFromTokens {limit : ℚ} (hl : 0 < limit)
    (h : x * second ≤ limit * maxDuration) :
    tokensFromDuration limit (durationFromTokens limit x) = x := by
  have hs : (0 : ℚ) < second := by norm_num [second]
  have hle : x / limit * second ≤ maxDuration := by
    rw [div_mul_eq_mul_div, div_le_iff₀ hl]
    linarith
  rw [durationFromTokens, if_neg (not_le.mpr hl), min_eq_right hle, tokensFromDuration,
    if_neg (not_le.mpr hl)]
  field_simp

theorem advance_le_burst (b : Bucket) (t : ℚ) : b.advance t ≤ b.burst := min_le_left ..

/-- From one instant to a later one. -/
theorem advance_eq (hb : b.last ≤ t) (h : t ≤ u) :
    b.advance u = min ↑b.burst (b.advance t + (tokensFromDuration b.limit u -
      tokensFromDuration b.limit t)) := by
  rw [← min_advance_add hb h, tokensFromDuration_sub]

/-! ## The reference -/

/-- The bucket after events at some instants, if it allows them all. -/
def allows (b : Bucket) (ts : List Int) : Option Bucket :=
  ts.foldlM (fun b (t : Int) => if 1 ≤ b.advance t then some (b.take t) else none) b

theorem allows_concat {ts : List Int} {t : Int} :
    b.allows (ts ++ [t]) = some c ↔
      ∃ b', b.allows ts = some b' ∧ 1 ≤ b'.advance t ∧ c = b'.take t := by
  simp only [allows, List.foldlM_append, List.foldlM_cons, List.foldlM_nil, Option.bind_eq_bind,
    Option.bind_eq_some_iff]
  constructor
  · rintro ⟨b', hb', c', hc, hc'⟩
    obtain rfl := Option.some.inj hc'
    split_ifs at hc with h
    exact ⟨b', hb', h, (Option.some.inj hc).symm⟩
  · rintro ⟨b', hb', h, rfl⟩
    exact ⟨b', hb', _, if_pos h, rfl⟩

/-- Events in order allow a bucket to keep its rate: since any instant, what it has
    left and what it has allowed is no more than the burst and what has accrued. -/
theorem allows_credit {fresh : Bucket} {ts : List Int} (hfresh : ∀ t ∈ ts, fresh.last ≤ t)
    (hts : ts.Pairwise (· ≤ ·)) (h : fresh.allows ts = some c) :
    c.limit = fresh.limit ∧ c.burst = fresh.burst ∧ (∀ u : ℚ, fresh.last ≤ u →
      (∀ t ∈ ts, (t : ℚ) ≤ u) → c.last ≤ u) ∧
    ∀ (a : Int) (u : ℚ), (a : ℚ) ≤ u → fresh.last ≤ u → (∀ t ∈ ts, (t : ℚ) ≤ u) →
      c.advance u + ts.countP (a ≤ ·) ≤
        fresh.burst + tokensFromDuration fresh.limit (u - a) := by
  induction ts using List.reverseRecOn generalizing c with
  | nil =>
    obtain rfl := Option.some.inj h
    refine ⟨rfl, rfl, fun u hu _ => hu, fun a u ha hu _ => ?_⟩
    have := tokensFromDuration_nonneg fresh.limit (sub_nonneg.mpr ha)
    have := fresh.advance_le_burst u
    simp only [List.countP_nil, Nat.cast_zero]
    linarith
  | append_singleton ts t ih =>
    obtain ⟨b, hb, h1, rfl⟩ := allows_concat.mp h
    obtain ⟨hpre, -, hlt⟩ := List.pairwise_append.mp hts
    have hle : ∀ t' ∈ ts, (t' : ℚ) ≤ t := fun t' ht' => by
      exact_mod_cast hlt t' ht' t List.mem_cons_self
    have hft : fresh.last ≤ t := hfresh t (by simp)
    obtain ⟨hlim, hburst, hlast, hcredit⟩ :=
      ih (fun t' ht' => hfresh t' (List.mem_append_left _ ht')) hpre hb
    refine ⟨hlim, hburst, fun u _ hu => hu t (by simp), fun a u ha _ hu => ?_⟩
    have htu : (t : ℚ) ≤ u := hu t (by simp)
    have hadv : (b.take t).advance u ≤ b.advance t - 1 +
        tokensFromDuration b.limit (u - t) := by
      rw [advance_take b htu]
      exact min_le_right ..
    rw [hlim] at hadv
    by_cases hat : a ≤ t
    · have hc := hcredit a t (by exact_mod_cast hat) hft hle
      rw [List.countP_append, List.countP_singleton, if_pos (by simpa using hat)]
      rw [tokensFromDuration_sub] at *
      push_cast
      linarith
    · -- No event is as late as the start of the interval.
      have hz : (ts ++ [t]).countP (a ≤ ·) = 0 := by
        rw [List.countP_eq_zero]
        intro t' ht'
        have : t' ≤ t := by
          rcases List.mem_append.mp ht' with ht' | ht'
          · exact hlt t' ht' t List.mem_cons_self
          · exact (List.mem_singleton.mp ht').le
        simp only [decide_eq_true_eq]
        omega
      have := tokensFromDuration_nonneg fresh.limit (sub_nonneg.mpr ha)
      have := (b.take t).advance_le_burst u
      have hbu : (b.take t).burst = fresh.burst := hburst
      rw [hz, ← hbu]
      push_cast
      linarith

/-- In any interval, no more events are allowed than the burst, and what accrues. -/
theorem allows_window {fresh : Bucket} {ts : List Int} (hfresh : ∀ t ∈ ts, fresh.last ≤ t)
    (hts : ts.Pairwise (· ≤ ·)) (h : fresh.allows ts = some c) (hburst : 0 ≤ fresh.burst)
    {a z : Int} (haz : a ≤ z) :
    (ts.countP fun t => a ≤ t ∧ t ≤ z : ℚ) ≤
      fresh.burst + tokensFromDuration fresh.limit (z - a) := by
  induction ts using List.reverseRecOn generalizing c with
  | nil =>
    have := tokensFromDuration_nonneg fresh.limit
      (sub_nonneg.mpr (show (a : ℚ) ≤ z by exact_mod_cast haz))
    have hb : (0 : ℚ) ≤ fresh.burst := by exact_mod_cast hburst
    simp only [List.countP_nil, Nat.cast_zero]
    linarith
  | append_singleton ts t ih =>
    obtain ⟨b, hb, h1, rfl⟩ := allows_concat.mp h
    obtain ⟨hpre, -, hlt⟩ := List.pairwise_append.mp hts
    have hfr : ∀ t' ∈ ts, fresh.last ≤ t' := fun t' ht' => hfresh t' (List.mem_append_left _ ht')
    rw [List.countP_append, List.countP_singleton]
    by_cases hin : a ≤ t ∧ t ≤ z
    · have hle : ∀ t' ∈ ts, (t' : ℚ) ≤ t := fun t' ht' => by
        exact_mod_cast hlt t' ht' t List.mem_cons_self
      have hc := (allows_credit hfr hpre hb).2.2.2 a t (by exact_mod_cast hin.1)
        (hfresh t (by simp)) hle
      have hcount : ts.countP (fun t => decide (a ≤ t ∧ t ≤ z)) ≤ ts.countP (a ≤ ·) :=
        List.countP_mono_left fun t' _ h => by
          simp only [decide_eq_true_eq] at h ⊢
          exact h.1
      have hcount : (ts.countP (fun t => decide (a ≤ t ∧ t ≤ z)) : ℚ) ≤ ts.countP (a ≤ ·) := by
        exact_mod_cast hcount
      have hz := tokensFromDuration_mono fresh.limit
        (sub_le_sub_right (show (t : ℚ) ≤ z by exact_mod_cast hin.2) (a : ℚ))
      rw [if_pos (by simpa using hin)]
      push_cast
      linarith
    · rw [if_neg (by simpa using hin)]
      exact ih hfr hpre hb

theorem wait_nonneg (b : Bucket) (t : ℚ) : 0 ≤ b.wait t := by
  rw [wait]
  split_ifs with h
  · exact (durationFromTokens_pos b.limit (neg_pos.mpr h)).le
  · rfl

theorem advance_take_self (b : Bucket) (t : ℚ) : (b.take t).advance t = b.advance t - 1 := by
  have := b.advance_le_burst t
  rw [advance_take b le_rfl, sub_self, tokensFromDuration_zero, add_zero, min_eq_right]
  linarith

end Bucket

/-- A bucket to start with: it has a rate and a burst, and no debt. -/
structure Bucket.Opening (b : Bucket) : Prop where
  limit : 0 < b.limit
  burst : 1 ≤ b.burst
  tokens : 0 ≤ b.tokens
  last : b.last ≤ 0

/-! ## Buckets with reservations -/

/-- A bucket, the instant of its last operation, the events that it has allowed, the
    reservations that are held, with the instant they were made, and how many were
    made. -/
structure Bookings where
  bucket : Bucket
  now : Int
  admitted : List Int
  held : Nat → Option (BucketReservation × Int)
  reserves : Nat

/-- The operations on a bucket, at an instant: `allow` an event, `reserve` a token for
    `i`, and give back the one that `i` holds. -/
inductive BookingOp
  | allow (t : Int)
  | reserve (i : Nat) (t : Int)
  | cancel (i : Nat) (t : Int)

namespace Bookings

/-- An operation is not before the last one, and a token is not given back at the
    instant it was reserved. -/
def step (s : Bookings) : BookingOp → Option Bookings
  | .allow t =>
    if s.now ≤ t then
      let (r, b) := s.bucket.reserveN t 1 0
      some { s with
        bucket := b
        now := t
        admitted := if r.ok then s.admitted ++ [t] else s.admitted }
    else none
  | .reserve i t =>
    if s.now ≤ t ∧ s.held i = none then
      let (r, b) := s.bucket.reserveN t 1 maxDuration
      some { s with
        bucket := b
        now := t
        held := Function.update s.held i (some (r, t))
        reserves := s.reserves + 1 }
    else none
  | .cancel i t =>
    match s.held i with
    | none => none
    | some (r, t₀) =>
      if s.now ≤ t ∧ t₀ < t then
        some { s with
          bucket := s.bucket.cancelAt r t
          now := t
          held := Function.update s.held i none }
      else none

theorem step_allow {s s' : Bookings} {t : Int} :
    s.step (.allow t) = some s' ↔ s.now ≤ t ∧ s' =
      { s with
        bucket := (s.bucket.reserveN t 1 0).2
        now := t
        admitted := if (s.bucket.reserveN t 1 0).1.ok then s.admitted ++ [t] else s.admitted } := by
  simp only [step, Option.ite_none_right_eq_some, Option.some_inj, @eq_comm _ _ s']

theorem step_reserve {s s' : Bookings} {i : Nat} {t : Int} :
    s.step (.reserve i t) = some s' ↔ (s.now ≤ t ∧ s.held i = none) ∧ s' =
      { s with
        bucket := (s.bucket.reserveN t 1 maxDuration).2
        now := t
        held := Function.update s.held i (some ((s.bucket.reserveN t 1 maxDuration).1, t))
        reserves := s.reserves + 1 } := by
  simp only [step, Option.ite_none_right_eq_some, Option.some_inj, @eq_comm _ _ s']

theorem step_cancel {s s' : Bookings} {i : Nat} {t : Int} :
    s.step (.cancel i t) = some s' ↔
      ∃ r t₀, s.held i = some (r, t₀) ∧ (s.now ≤ t ∧ t₀ < t) ∧ s' =
        { s with
          bucket := s.bucket.cancelAt r t
          now := t
          held := Function.update s.held i none } := by
  simp only [step]
  split
  · rename_i hi
    simp [hi]
  · rename_i r t₀ hi
    rw [hi, Option.ite_none_right_eq_some, Option.some_inj]
    constructor
    · rintro ⟨ht, rfl⟩
      exact ⟨r, t₀, rfl, ht, rfl⟩
    · rintro ⟨_, _, hr, ht, rfl⟩
      obtain ⟨rfl, rfl⟩ := Prod.mk.inj (Option.some.inj hr)
      exact ⟨ht, rfl⟩

/-- A bucket from its start, on which nothing is reserved. -/
def machine (fresh : Bucket) : Machine Bookings BookingOp where
  init := ⟨fresh, 0, [], fun _ => none, 0⟩
  step := step

/-- The reservation of `i` is due at `a`, after it was made, and can still be given
    back. -/
def Pending (s : Bookings) (i : Nat) (a : ℚ) : Prop :=
  ∃ r t, s.held i = some (r, t) ∧ r.timeToAct = a ∧ (t : ℚ) < a ∧ (s.now : ℚ) ≤ a

/-- What holds of a reservation that can still be given back, where `c` is the
    reference: until it is due there is no token, and then the reference has one. -/
structure Due (fresh c : Bucket) (s : Bookings) (a : ℚ) : Prop where
  last : a ≤ s.bucket.lastEvent
  spent : s.bucket.advance s.now + (Bucket.tokensFromDuration fresh.limit a -
    Bucket.tokensFromDuration fresh.limit s.now) ≤ 0
  covered : 1 ≤ c.advance s.now + (Bucket.tokensFromDuration fresh.limit a -
    Bucket.tokensFromDuration fresh.limit s.now)

/-- The bucket has no more tokens than the reference, which has allowed the same
    events. -/
structure Sound (fresh c : Bucket) (s : Bookings) : Prop where
  limit : s.bucket.limit = fresh.limit
  burst : s.bucket.burst = fresh.burst
  last : s.bucket.last ≤ s.now
  nonneg : 0 ≤ s.now
  admitted : ∀ t ∈ s.admitted, 0 ≤ t ∧ t ≤ s.now
  ordered : s.admitted.Pairwise (· ≤ ·)
  reference : fresh.allows s.admitted = some c
  dominated : s.bucket.advance s.now ≤ c.advance s.now
  floor : -(s.reserves : ℚ) ≤ s.bucket.advance s.now
  held : ∀ i r t, s.held i = some (r, t) → r.ok = true ∧ r.tokens = 1 ∧ r.limit = fresh.limit ∧
    (t : ℚ) ≤ r.timeToAct
  due : ∀ i a, s.Pending i a → Due fresh c s a
  apart : ∀ i j a a', i ≠ j → s.Pending i a → s.Pending j a' →
    1 ≤ |Bucket.tokensFromDuration fresh.limit a - Bucket.tokensFromDuration fresh.limit a'|

section

variable {fresh c : Bucket} {s : Bookings} {i j : Nat} {a : ℚ} {t : Int}

/-- The reference, at the instant of the last operation. -/
theorem Sound.reference_eq (h : Sound fresh c s) (hfresh : fresh.last ≤ 0) :
    c.limit = fresh.limit ∧ c.burst = fresh.burst ∧ c.last ≤ s.now := by
  obtain ⟨hl, hb, hlast, -⟩ := Bucket.allows_credit
    (fun t ht => hfresh.trans (by exact_mod_cast (h.admitted t ht).1)) h.ordered h.reference
  refine ⟨hl, hb, hlast _ (hfresh.trans (by exact_mod_cast h.nonneg)) fun t ht => ?_⟩
  exact_mod_cast (h.admitted t ht).2

theorem Pending.of_le (h : Pending { s with now := t } i a) (ht : s.now ≤ t) : s.Pending i a := by
  obtain ⟨r, t₀, hi, hr, hlt, hle⟩ := h
  have : (s.now : ℚ) ≤ t := by exact_mod_cast ht
  exact ⟨r, t₀, hi, hr, hlt, this.trans hle⟩

/-- Time passes. -/
theorem Sound.tick (h : Sound fresh c s) (hfresh : fresh.last ≤ 0) (hburst : 1 ≤ fresh.burst)
    (ht : s.now ≤ t) : Sound fresh c { s with now := t } := by
  obtain ⟨hl, hb, hlast⟩ := h.reference_eq hfresh
  have htq : (s.now : ℚ) ≤ t := by exact_mod_cast ht
  have hbq : (1 : ℚ) ≤ fresh.burst := by exact_mod_cast hburst
  have hadv := Bucket.advance_eq h.last htq
  have hadvc := Bucket.advance_eq hlast htq
  rw [h.limit, h.burst] at hadv
  rw [hl, hb] at hadvc
  have hmono := Bucket.tokensFromDuration_mono fresh.limit htq
  have hdom := h.dominated
  have hfloor := h.floor
  have hn : (0 : ℚ) ≤ s.reserves := Nat.cast_nonneg _
  refine
    { h with
      last := h.last.trans htq
      nonneg := h.nonneg.trans ht
      admitted := fun t' ht' => ⟨(h.admitted t' ht').1, (h.admitted t' ht').2.trans ht⟩
      dominated := ?_
      floor := ?_
      due := fun i a hp => ?_
      apart := fun i j a a' hij hp hp' => h.apart i j a a' hij (hp.of_le ht) (hp'.of_le ht) }
  · show s.bucket.advance t ≤ c.advance t
    rw [hadv, hadvc]
    exact min_le_min le_rfl (by linarith)
  · show -(s.reserves : ℚ) ≤ s.bucket.advance t
    rw [hadv]
    exact le_min (by linarith) (by linarith)
  · obtain ⟨hle, hs, hc⟩ := h.due i a (hp.of_le ht)
    obtain ⟨r, t₀, -, -, -, hta⟩ := hp
    have hta' := Bucket.tokensFromDuration_mono fresh.limit (show (t : ℚ) ≤ a from hta)
    refine ⟨hle, ?_, ?_⟩
    · show s.bucket.advance t + _ ≤ 0
      have : s.bucket.advance t ≤ _ := hadv.trans_le (min_le_right ..)
      linarith
    · show 1 ≤ c.advance t + (Bucket.tokensFromDuration fresh.limit a -
        Bucket.tokensFromDuration fresh.limit t)
      rw [hadvc, ← min_add_add_right]
      exact le_min (by linarith) (by linarith)

/-- As long as a token can be given back, there is none to allow an event with. -/
theorem Sound.advance_nonpos (h : Sound fresh c s) (hp : s.Pending i a) :
    s.bucket.advance s.now ≤ 0 := by
  have hs := (h.due i a hp).spent
  obtain ⟨r, t₀, -, -, -, hta⟩ := hp
  have := Bucket.tokensFromDuration_mono fresh.limit hta
  linarith

/-- An event is allowed. -/
theorem Sound.allow (h : Sound fresh c s) (h1 : 1 ≤ s.bucket.advance s.now) :
    Sound fresh (c.take s.now)
      { s with bucket := s.bucket.take s.now, admitted := s.admitted ++ [s.now] } := by
  have hno : ∀ i a, ¬s.Pending i a := fun i a hp => by
    have := h.advance_nonpos hp
    linarith
  refine
    { h with
      last := le_rfl
      admitted := fun t ht => ?_
      ordered := ?_
      reference := Bucket.allows_concat.mpr ⟨c, h.reference, h1.trans h.dominated, rfl⟩
      dominated := ?_
      floor := ?_
      due := fun i a hp => absurd hp (hno i a)
      apart := fun i j a a' _ hp => absurd hp (hno i a) }
  · rcases List.mem_append.mp ht with ht | ht
    · exact h.admitted t ht
    · rw [List.mem_singleton.mp ht]
      exact ⟨h.nonneg, le_rfl⟩
  · refine List.pairwise_append.mpr ⟨h.ordered, List.pairwise_singleton _ _, fun t ht t' ht' => ?_⟩
    rw [List.mem_singleton.mp ht']
    exact (h.admitted t ht).2
  · show (s.bucket.take s.now).advance s.now ≤ (c.take s.now).advance s.now
    rw [Bucket.advance_take_self, Bucket.advance_take_self]
    linarith [h.dominated]
  · show -(s.reserves : ℚ) ≤ (s.bucket.take s.now).advance s.now
    have : (0 : ℚ) ≤ s.reserves := Nat.cast_nonneg _
    rw [Bucket.advance_take_self]
    linarith

/-- The reservation that is made now. -/
def reservation (s : Bookings) : BucketReservation :=
  ⟨true, 1, s.now + s.bucket.wait s.now, s.bucket.limit⟩

/-- After it. -/
def reserve (s : Bookings) (i : Nat) : Bookings :=
  { s with
    bucket := s.bucket.take s.now
    held := Function.update s.held i (some (s.reservation, s.now))
    reserves := s.reserves + 1 }

theorem held_reserve_self (s : Bookings) (i : Nat) :
    (s.reserve i).held i = some (s.reservation, s.now) := Function.update_self ..

theorem held_reserve_of_ne (s : Bookings) (h : j ≠ i) : (s.reserve i).held j = s.held j :=
  Function.update_of_ne h ..

/-- A reservation is pending from before, or it is the one that is made now. -/
theorem Pending.of_reserve (h : (s.reserve i).Pending j a) :
    (j ≠ i ∧ s.Pending j a) ∨
      j = i ∧ a = s.now + s.bucket.wait s.now ∧ 0 < s.bucket.wait s.now := by
  obtain ⟨r, t, hj, hr, hlt, hle⟩ := h
  by_cases hji : j = i
  · subst hji
    rw [held_reserve_self] at hj
    obtain ⟨rfl, rfl⟩ := Prod.mk.inj (Option.some.inj hj)
    refine .inr ⟨rfl, hr.symm, ?_⟩
    rw [← hr] at hlt
    simpa [reservation] using hlt
  · rw [held_reserve_of_ne s hji] at hj
    exact .inl ⟨hji, r, t, hj, hr, hlt, hle⟩

/-- A wait is for the tokens that are missing. -/
theorem Sound.wait_eq (h : Sound fresh c s) (hl : 0 < fresh.limit)
    (hcap : (s.reserves + 1) * second ≤ fresh.limit * maxDuration)
    (h1 : s.bucket.advance s.now < 1) :
    Bucket.tokensFromDuration fresh.limit (s.now + s.bucket.wait s.now) =
      Bucket.tokensFromDuration fresh.limit s.now + (1 - s.bucket.advance s.now) := by
  have hs : (0 : ℚ) < second := by norm_num [second]
  have hle : -(s.bucket.advance s.now - 1) * second ≤ fresh.limit * maxDuration := by
    refine le_trans ?_ hcap
    have := h.floor
    gcongr
    linarith
  rw [Bucket.tokensFromDuration_add, Bucket.wait, if_pos (by linarith), h.limit,
    Bucket.tokensFromDuration_durationFromTokens hl hle]
  ring

/-- What is pending is due a token before a reservation that is made now. -/
theorem Sound.before_reservation (h : Sound fresh c s) (hl : 0 < fresh.limit)
    (hcap : (s.reserves + 1) * second ≤ fresh.limit * maxDuration) (hp : s.Pending i a) :
    Bucket.tokensFromDuration fresh.limit a + 1 ≤
      Bucket.tokensFromDuration fresh.limit (s.now + s.bucket.wait s.now) := by
  have h0 := h.advance_nonpos hp
  have hs := (h.due i a hp).spent
  rw [h.wait_eq hl hcap (by linarith)]
  linarith

/-- A token is reserved. -/
theorem Sound.reserve (h : Sound fresh c s) (hl : 0 < fresh.limit)
    (hcap : (s.reserves + 1) * second ≤ fresh.limit * maxDuration) :
    Sound fresh c (s.reserve i) := by
  have hdom := h.dominated
  have hfloor := h.floor
  have hadv : (s.reserve i).bucket.advance (s.reserve i).now = s.bucket.advance s.now - 1 :=
    Bucket.advance_take_self ..
  have hnew : 0 < s.bucket.wait s.now → s.bucket.advance s.now < 1 := fun hw => by
    by_contra hge
    exact absurd (Bucket.wait_le_zero.mpr (not_lt.mp hge)) (not_le.mpr hw)
  refine
    { h with
      last := le_rfl
      dominated := by
        rw [hadv]
        exact (sub_one_lt _).le.trans hdom
      floor := ?_
      held := fun j r t hj => ?_
      due := fun j a hp => ?_
      apart := fun j k a a' hjk hp hp' => ?_ }
  · rw [hadv]
    show -((s.reserves + 1 : Nat) : ℚ) ≤ _
    push_cast
    linarith
  · by_cases hji : j = i
    · subst hji
      rw [held_reserve_self] at hj
      obtain ⟨rfl, rfl⟩ := Prod.mk.inj (Option.some.inj hj)
      refine ⟨rfl, rfl, h.limit, ?_⟩
      show (s.now : ℚ) ≤ s.now + s.bucket.wait s.now
      linarith [s.bucket.wait_nonneg s.now]
    · rw [held_reserve_of_ne s hji] at hj
      exact h.held j r t hj
  · rcases hp.of_reserve with ⟨-, hp⟩ | ⟨-, rfl, hw⟩
    · obtain ⟨-, hs, hc⟩ := h.due j a hp
      have hb := h.before_reservation hl hcap hp
      refine ⟨?_, ?_, hc⟩
      · show a ≤ s.now + s.bucket.wait s.now
        by_contra hlt
        have := Bucket.tokensFromDuration_strictMono hl (not_le.mp hlt)
        linarith
      · rw [hadv]
        show _ + (_ - Bucket.tokensFromDuration fresh.limit s.now) ≤ 0
        linarith
    · have hwait := h.wait_eq hl hcap (hnew hw)
      refine ⟨le_rfl, ?_, ?_⟩
      · rw [hadv, hwait]
        show _ + (_ - Bucket.tokensFromDuration fresh.limit s.now) ≤ 0
        linarith
      · rw [hwait]
        show 1 ≤ c.advance s.now + (_ - Bucket.tokensFromDuration fresh.limit s.now)
        linarith
  · rcases hp.of_reserve with ⟨-, hp⟩ | ⟨hj, rfl, -⟩
    · rcases hp'.of_reserve with ⟨-, hp'⟩ | ⟨-, rfl, -⟩
      · exact h.apart j k a a' hjk hp hp'
      · have := h.before_reservation hl hcap hp
        exact le_abs.mpr (.inr (by linarith))
    · rcases hp'.of_reserve with ⟨-, hp'⟩ | ⟨hk, -, -⟩
      · have := h.before_reservation hl hcap hp'
        exact le_abs.mpr (.inl (by linarith))
      · exact absurd (hj.trans hk.symm) hjk

/-- After `i` gave back its reservation `r`. -/
def cancel (s : Bookings) (i : Nat) (r : BucketReservation) : Bookings :=
  { s with bucket := s.bucket.cancelAt r s.now, held := Function.update s.held i none }

theorem held_cancel {r r' : BucketReservation} (h : (s.cancel i r).held j = some (r', t)) :
    j ≠ i ∧ s.held j = some (r', t) := by
  have hji : j ≠ i := by
    rintro rfl
    cases (Function.update_self ..).symm.trans h
  exact ⟨hji, (Function.update_of_ne hji ..).symm.trans h⟩

theorem Pending.of_cancel {r : BucketReservation} (h : (s.cancel i r).Pending j a) :
    j ≠ i ∧ s.Pending j a := by
  obtain ⟨r', t, hj, h⟩ := h
  obtain ⟨hji, hj⟩ := held_cancel hj
  exact ⟨hji, r', t, hj, h⟩

/-- A reservation that is late or covered by later ones is not given back. -/
theorem Sound.cancel_of_eq {r : BucketReservation} (h : Sound fresh c s)
    (hb : s.bucket.cancelAt r s.now = s.bucket) : Sound fresh c (s.cancel i r) := by
  have hs : s.cancel i r = { s with held := Function.update s.held i none } := by
    rw [cancel, hb]
  refine
    { limit := by rw [hs]; exact h.limit
      burst := by rw [hs]; exact h.burst
      last := by rw [hs]; exact h.last
      nonneg := h.nonneg
      admitted := h.admitted
      ordered := h.ordered
      reference := h.reference
      dominated := by rw [hs]; exact h.dominated
      floor := by rw [hs]; exact h.floor
      held := fun j r t hj => h.held j r t (held_cancel hj).2
      due := fun j a hp => ?_
      apart := fun j k a a' hjk hp hp' => h.apart j k a a' hjk hp.of_cancel.2 hp'.of_cancel.2 }
  obtain ⟨hl, hsp, hc⟩ := h.due j a hp.of_cancel.2
  rw [hs]
  exact ⟨hl, hsp, hc⟩

/-- What giving back a token does, if it does anything. -/
theorem cancelAt_cases {b : Bucket} {r : BucketReservation} (hok : r.ok = true)
    (hr : r.tokens = 1) (u : ℚ) :
    b.cancelAt r u = b ∨
      u ≤ r.timeToAct ∧
        0 < 1 - Bucket.tokensFromDuration r.limit (b.lastEvent - r.timeToAct) ∧
        b.cancelAt r u =
          { b with
            tokens := min b.burst (b.advance u +
              (1 - Bucket.tokensFromDuration r.limit (b.lastEvent - r.timeToAct)))
            last := u
            lastEvent :=
              if r.timeToAct = b.lastEvent ∧
                  u ≤ r.timeToAct + Bucket.durationFromTokens r.limit (-1)
              then r.timeToAct + Bucket.durationFromTokens r.limit (-1)
              else b.lastEvent } := by
  by_cases hlate : r.timeToAct < u
  · exact .inl (if_pos (.inr (.inr hlate)))
  · have hin : ¬(¬r.ok = true ∨ r.tokens = 0 ∨ r.timeToAct < u) := by
      simp [hok, hr, hlate]
    rw [Bucket.cancelAt, if_neg hin]
    simp only [hr, Int.cast_one]
    by_cases hre : 1 - Bucket.tokensFromDuration r.limit (b.lastEvent - r.timeToAct) ≤ 0
    · exact .inl (if_pos hre)
    · exact .inr ⟨not_lt.mp hlate, not_le.mp hre, if_neg hre⟩

/-- A token is given back, after the instant it was reserved. -/
theorem Sound.cancel {r : BucketReservation} (h : Sound fresh c s) (hl : 0 < fresh.limit)
    (hi : s.held i = some (r, t)) (ht : t < s.now) : Sound fresh c (s.cancel i r) := by
  obtain ⟨hok, hone, hlim, -⟩ := h.held i r t hi
  rcases cancelAt_cases hok hone (b := s.bucket) (s.now : ℚ) with hb | ⟨hle, hpos, hb⟩
  · exact h.cancel_of_eq hb
  rw [hlim, Bucket.tokensFromDuration_sub] at hpos hb
  have hpend : s.Pending i r.timeToAct :=
    ⟨r, t, hi, rfl, lt_of_lt_of_le (by exact_mod_cast ht) hle, hle⟩
  obtain ⟨hlast, hspent, hcov⟩ := h.due i _ hpend
  -- No other one is due later: they are a token apart.
  have hothers : ∀ j a, j ≠ i → s.Pending j a →
      Bucket.tokensFromDuration fresh.limit a + 1 ≤
        Bucket.tokensFromDuration fresh.limit r.timeToAct := by
    intro j a hji hp
    have hlast' := Bucket.tokensFromDuration_mono fresh.limit (h.due j a hp).last
    rcases le_abs.mp (h.apart j i a _ hji hp hpend) with hap | hap
    · linarith
    · linarith
  have hmono := Bucket.tokensFromDuration_mono fresh.limit hlast
  have hburst := s.bucket.advance_le_burst s.now
  have hdom := h.dominated
  have hfloor := h.floor
  have hadv : (s.cancel i r).bucket.advance s.now =
      min ↑s.bucket.burst (s.bucket.advance s.now +
        (1 - (Bucket.tokensFromDuration fresh.limit s.bucket.lastEvent -
          Bucket.tokensFromDuration fresh.limit r.timeToAct))) := by
    show (s.bucket.cancelAt r s.now).advance s.now = _
    rw [hb, Bucket.advance_of_le le_rfl, sub_self, Bucket.tokensFromDuration_zero, add_zero]
    exact min_eq_right (min_le_left ..)
  have hgain : (s.cancel i r).bucket.advance s.now ≤ s.bucket.advance s.now + 1 := by
    rw [hadv]
    exact (min_le_right ..).trans (by linarith)
  refine
    { limit := (congrArg Bucket.limit hb).trans h.limit
      burst := (congrArg Bucket.burst hb).trans h.burst
      last := (congrArg Bucket.last hb).le
      nonneg := h.nonneg
      admitted := h.admitted
      ordered := h.ordered
      reference := h.reference
      dominated := show (s.cancel i r).bucket.advance s.now ≤ c.advance s.now by linarith
      floor := ?_
      held := fun j r t hj => h.held j r t (held_cancel hj).2
      due := fun j a hp => ?_
      apart := fun j k a a' hjk hp hp' => h.apart j k a a' hjk hp.of_cancel.2 hp'.of_cancel.2 }
  · show -(s.reserves : ℚ) ≤ (s.cancel i r).bucket.advance s.now
    rw [hadv]
    exact le_min (hfloor.trans hburst) (by linarith)
  · obtain ⟨hji, hp⟩ := hp.of_cancel
    obtain ⟨hl', hs', hc'⟩ := h.due j a hp
    have hj := hothers j a hji hp
    refine ⟨?_, ?_, hc'⟩
    · show a ≤ (s.bucket.cancelAt r s.now).lastEvent
      have hback : Bucket.tokensFromDuration fresh.limit
          (r.timeToAct + Bucket.durationFromTokens fresh.limit (-1)) =
            Bucket.tokensFromDuration fresh.limit r.timeToAct - 1 := by
        have hm : (-1 : ℚ) * second ≤ fresh.limit * maxDuration := by
          have : (0 : ℚ) ≤ fresh.limit * maxDuration :=
            mul_nonneg hl.le (by norm_num [maxDuration])
          have : (0 : ℚ) < second := by norm_num [second]
          linarith
        rw [Bucket.tokensFromDuration_add, Bucket.tokensFromDuration_durationFromTokens hl hm]
        ring
      rw [hb]
      dsimp only
      split_ifs
      · by_contra hlt
        have := Bucket.tokensFromDuration_strictMono hl (not_le.mp hlt)
        linarith
      · exact hl'
    · show (s.cancel i r).bucket.advance s.now +
        (_ - Bucket.tokensFromDuration fresh.limit s.now) ≤ 0
      linarith

/-- The operations keep the bucket within the reference. -/
theorem Sound.step {s' : Bookings} {op : BookingOp} (h : Sound fresh c s) (hf : fresh.Opening)
    (hcap : s'.reserves * second ≤ fresh.limit * maxDuration) (hs : s.step op = some s') :
    ∃ c', Sound fresh c' s' := by
  cases op with
  | allow t =>
    obtain ⟨ht, rfl⟩ := step_allow.mp hs
    rw [Bucket.reserveN_zero]
    by_cases hb : 1 ≤ s.bucket.burst ∧ 1 ≤ s.bucket.advance t
    · rw [if_pos hb]
      exact ⟨_, (h.tick hf.last hf.burst ht).allow hb.2⟩
    · rw [if_neg hb]
      exact ⟨c, h.tick hf.last hf.burst ht⟩
  | reserve i t =>
    have hb : 1 ≤ s.bucket.burst := h.burst.symm ▸ hf.burst
    obtain ⟨⟨ht, -⟩, rfl⟩ := step_reserve.mp hs
    rw [Bucket.reserveN_maxDuration, if_pos hb]
    push_cast at hcap
    exact ⟨c, (h.tick hf.last hf.burst ht).reserve hf.limit hcap⟩
  | cancel i t =>
    obtain ⟨r, t₀, hi, ⟨ht, ht₀⟩, rfl⟩ := step_cancel.mp hs
    exact ⟨c, (h.tick hf.last hf.burst ht).cancel hf.limit hi ht₀⟩

theorem reserves_le {s' : Bookings} {op : BookingOp} (hs : s.step op = some s') :
    s.reserves ≤ s'.reserves := by
  cases op with
  | allow t =>
    obtain ⟨-, rfl⟩ := step_allow.mp hs
    exact le_rfl
  | reserve i t =>
    obtain ⟨-, rfl⟩ := step_reserve.mp hs
    exact Nat.le_succ _
  | cancel i t =>
    obtain ⟨r, t₀, -, -, rfl⟩ := step_cancel.mp hs
    exact le_rfl

theorem sound_init (hf : fresh.Opening) : Sound fresh fresh (machine fresh).init where
  limit := rfl
  burst := rfl
  last := by exact_mod_cast hf.last
  nonneg := le_rfl
  admitted := nofun
  ordered := .nil
  reference := rfl
  dominated := le_rfl
  floor := by
    have hb : (1 : ℚ) ≤ fresh.burst := by exact_mod_cast hf.burst
    have hz := Bucket.tokensFromDuration_nonneg fresh.limit
      (sub_nonneg.mpr (min_le_right fresh.last 0))
    have ht := hf.tokens
    show -((0 : Nat) : ℚ) ≤ fresh.advance ((0 : Int) : ℚ)
    rw [Nat.cast_zero, neg_zero, Int.cast_zero]
    exact le_min (by linarith) (by linarith)
  held := nofun
  due := by
    rintro i a ⟨r, t, hi, -⟩
    cases hi
  apart := by
    rintro i j a a' - ⟨r, t, hi, -⟩
    cases hi

/-- In every order of the operations, the events that are allowed are events that the
    reference allows. -/
theorem sound (hf : fresh.Opening) (hs : (machine fresh).Reachable s)
    (hcap : s.reserves * second ≤ fresh.limit * maxDuration) : ∃ c, Sound fresh c s := by
  obtain ⟨ls, hs⟩ := hs
  refine Machine.run_invariant (m := machine fresh) (G := fun _ => True)
    (P := fun s => s.reserves * second ≤ fresh.limit * maxDuration → ∃ c, Sound fresh c s)
    ?_ (fun _ _ => trivial) (fun _ => ⟨fresh, sound_init hf⟩) hs hcap
  intro s op s' _ ih hs' hcap
  have hle : (s.reserves : ℚ) ≤ s'.reserves := by exact_mod_cast reserves_le hs'
  have hsec : (0 : ℚ) ≤ second := by norm_num [second]
  obtain ⟨c, h⟩ := ih ((mul_le_mul_of_nonneg_right hle hsec).trans hcap)
  exact h.step hf hcap hs'

/-- In any interval, no more events are allowed than the burst, and what accrues. -/
theorem Sound.window (h : Sound fresh c s) (hf : fresh.Opening) {a z : Int} (haz : a ≤ z) :
    (s.admitted.countP fun t => a ≤ t ∧ t ≤ z : ℚ) ≤
      fresh.burst + (z - a) / second * fresh.limit := by
  have hw := Bucket.allows_window
    (fun t ht => hf.last.trans (by exact_mod_cast (h.admitted t ht).1)) h.ordered h.reference
    (zero_le_one.trans hf.burst) haz
  rwa [Bucket.tokensFromDuration, if_neg (not_le.mpr hf.limit)] at hw

end

end Bookings

end Go
