import Webhookd.Go.Time

/-!
# Rate limiters

What is used of the package `rate`: limiters are created, and then allow or
reserve events at an instant, in nanoseconds. Each operation locks the limiter,
so it is one step on its state. `exactRate` is the token bucket of the package
in exact arithmetic: tokens accrue with time up to the burst, and a reservation
that is cancelled in time gives back what no later one has taken. The package
itself computes with floating-point numbers, and cuts a wait to nanoseconds.
-/

namespace Go

/-- A package of rate limiters. -/
structure Rate where
  Limiter : Type
  Reservation : Type
  newLimiter : Float64 → Int → Limiter
  /-- `lim.Allow()` -/
  allow : Limiter → Int → Bool × Limiter
  /-- `lim.Reserve()` -/
  reserve : Limiter → Int → Reservation × Limiter
  /-- `r.Delay()` -/
  delay : Reservation → Int → Duration
  /-- `r.Cancel()` -/
  cancel : Limiter → Reservation → Int → Limiter

/-- The same package, with limiters that start in a given state. -/
def Rate.startingAt (R : Rate) (lim : R.Limiter) : Rate := { R with newLimiter := fun _ _ => lim }

/-- A token bucket: events per second, and the largest number of tokens. -/
structure Bucket where
  limit : ℚ
  burst : Int
  tokens : ℚ
  last : ℚ := 0
  lastEvent : ℚ := 0

/-- A number of tokens that can be spent from an instant on. -/
structure BucketReservation where
  ok : Bool
  tokens : Int := 0
  timeToAct : ℚ := 0
  limit : ℚ
  deriving DecidableEq

namespace Bucket

/-- `tokensFromDuration`. -/
def tokensFromDuration (limit d : ℚ) : ℚ := if limit ≤ 0 then 0 else d / second * limit

/-- `durationFromTokens`. -/
def durationFromTokens (limit tokens : ℚ) : ℚ :=
  if limit ≤ 0 then maxDuration else min maxDuration (tokens / limit * second)

/-- `advance`: the tokens at an instant. -/
def advance (b : Bucket) (t : ℚ) : ℚ :=
  min b.burst (b.tokens + tokensFromDuration b.limit (t - min b.last t))

/-- `reserveN`, which only waits for tokens up to a duration. -/
def reserveN (b : Bucket) (t : ℚ) (n : Int) (maxFutureReserve : ℚ) : BucketReservation × Bucket :=
  let tokens := b.advance t - n
  -- A negative number of tokens is a debt that time has to pay.
  let waitDuration := if tokens < 0 then durationFromTokens b.limit (-tokens) else 0
  if n ≤ b.burst ∧ waitDuration ≤ maxFutureReserve then
    (⟨true, n, t + waitDuration, b.limit⟩,
      { b with tokens, last := t, lastEvent := t + waitDuration })
  else ({ ok := false, limit := b.limit }, b)

/-- `DelayFrom`. -/
def delayFrom (r : BucketReservation) (t : ℚ) : Duration :=
  if r.ok then max 0 ⌊r.timeToAct - t⌋ else maxDuration

/-- `CancelAt`. -/
def cancelAt (b : Bucket) (r : BucketReservation) (t : ℚ) : Bucket :=
  if ¬r.ok ∨ r.tokens = 0 ∨ r.timeToAct < t then b
  else
    -- What was reserved after `r` is not given back.
    let restore := r.tokens - tokensFromDuration r.limit (b.lastEvent - r.timeToAct)
    if restore ≤ 0 then b
    else
      let prevEvent := r.timeToAct + durationFromTokens r.limit (-r.tokens)
      { b with
        tokens := min b.burst (b.advance t + restore)
        last := t
        lastEvent := if r.timeToAct = b.lastEvent ∧ t ≤ prevEvent then prevEvent else b.lastEvent }

end Bucket

/-- The limiters of the package, for a limit that is a finite number. Any other is taken
    as zero here. -/
def exactRate : Rate where
  Limiter := Bucket
  Reservation := BucketReservation
  newLimiter r b :=
    let limit := match r with
      | .fin q => q
      | _ => 0
    { limit, burst := b, tokens := b }
  allow b t := let (r, b) := b.reserveN t 1 0; (r.ok, b)
  reserve b t := b.reserveN t 1 maxDuration
  delay r t := Bucket.delayFrom r t
  cancel b r t := b.cancelAt r t

/-! ## Buckets that cannot be told apart -/

namespace Bucket

variable {b c : Bucket} {r : BucketReservation} {limit now t u x : ℚ}

theorem tokensFromDuration_add (limit d e : ℚ) :
    tokensFromDuration limit (d + e) =
      tokensFromDuration limit d + tokensFromDuration limit e := by
  simp only [tokensFromDuration]
  split_ifs
  · rw [add_zero]
  · ring

theorem tokensFromDuration_nonneg (limit : ℚ) {d : ℚ} (h : 0 ≤ d) :
    0 ≤ tokensFromDuration limit d := by
  simp only [tokensFromDuration]
  split_ifs with hl
  · rfl
  · exact mul_nonneg (div_nonneg h (by norm_num [second])) (not_le.mp hl).le

theorem durationFromTokens_le (limit x : ℚ) : durationFromTokens limit x ≤ maxDuration := by
  simp only [durationFromTokens]
  split_ifs
  · rfl
  · exact min_le_left ..

theorem durationFromTokens_pos (limit : ℚ) (h : 0 < x) : 0 < durationFromTokens limit x := by
  simp only [durationFromTokens]
  split_ifs with hl
  · norm_num [maxDuration]
  · exact lt_min (by norm_num [maxDuration])
      (mul_pos (div_pos h (not_le.mp hl)) (by norm_num [second]))

/-- In less than the duration that pays for some tokens, fewer accrue. -/
theorem tokensFromDuration_lt {d : ℚ} (hx : 0 < x) (h : d < durationFromTokens limit x) :
    tokensFromDuration limit d < x := by
  simp only [tokensFromDuration, durationFromTokens] at h ⊢
  split_ifs at h ⊢ with hl
  · exact hx
  · have hs : (0 : ℚ) < second := by norm_num [second]
    have hl := not_le.mp hl
    calc d / second * limit < x / limit * second / second * limit := by
          gcongr
          exact h.trans_le (min_le_right ..)
      _ = x := by field_simp

/-- Tokens accrue from the last update on, up to the burst. -/
theorem advance_of_le (h : b.last ≤ t) :
    b.advance t = min ↑b.burst (b.tokens + tokensFromDuration b.limit (t - b.last)) := by
  rw [advance, min_eq_left h]

/-- What exceeds the burst is lost at once. -/
theorem min_min_add {B y z : ℚ} (hz : 0 ≤ z) : min B (min B y + z) = min B (y + z) := by
  rw [← min_add_add_right, ← min_assoc, min_eq_left (le_add_of_nonneg_right hz)]

/-- A bucket that is updated goes on as if it was not. -/
theorem min_advance_add (hb : b.last ≤ t) (ht : t ≤ u) :
    min ↑b.burst (b.advance t + tokensFromDuration b.limit (u - t)) = b.advance u := by
  rw [advance_of_le hb, min_min_add (tokensFromDuration_nonneg _ (sub_nonneg.mpr ht)), add_assoc,
    ← tokensFromDuration_add, sub_add_sub_cancel', advance_of_le (hb.trans ht)]

/-- How long an event at an instant has to wait for its token. -/
def wait (b : Bucket) (t : ℚ) : ℚ :=
  if b.advance t - 1 < 0 then durationFromTokens b.limit (-(b.advance t - 1)) else 0

/-- The bucket after an event. -/
def take (b : Bucket) (t : ℚ) : Bucket :=
  { b with tokens := b.advance t - 1, last := t, lastEvent := t + b.wait t }

theorem wait_le (b : Bucket) (t : ℚ) : b.wait t ≤ maxDuration := by
  rw [wait]
  split_ifs
  · exact durationFromTokens_le ..
  · norm_num [maxDuration]

theorem wait_le_zero : b.wait t ≤ 0 ↔ 1 ≤ b.advance t := by
  rw [wait]
  split_ifs with h
  · have hpos := durationFromTokens_pos b.limit (neg_pos.mpr h)
    exact iff_of_false hpos.not_ge (by linarith)
  · exact iff_of_true le_rfl (by linarith)

theorem reserveN_one (b : Bucket) (t m : ℚ) :
    b.reserveN t 1 m = if 1 ≤ b.burst ∧ b.wait t ≤ m
      then (⟨true, 1, t + b.wait t, b.limit⟩, b.take t)
      else ({ ok := false, limit := b.limit }, b) := by
  simp only [reserveN, Int.cast_one]
  rfl

/-- An event is allowed if there is a token for it. -/
theorem reserveN_zero (b : Bucket) (t : ℚ) :
    b.reserveN t 1 0 = if 1 ≤ b.burst ∧ 1 ≤ b.advance t
      then (⟨true, 1, t + b.wait t, b.limit⟩, b.take t)
      else ({ ok := false, limit := b.limit }, b) := by
  rw [reserveN_one]
  exact if_congr (and_congr_right' wait_le_zero) rfl rfl

/-- A token is reserved whether there is one or not. -/
theorem reserveN_maxDuration (b : Bucket) (t : ℚ) :
    b.reserveN t 1 maxDuration = if 1 ≤ b.burst
      then (⟨true, 1, t + b.wait t, b.limit⟩, b.take t)
      else ({ ok := false, limit := b.limit }, b) := by
  rw [reserveN_one]
  exact if_congr (and_iff_left (b.wait_le t)) rfl rfl

/-- Before the wait is over, there is no token. -/
theorem advance_lt_one (hb : b.last ≤ t) (ht : t ≤ u) (hu : u < t + b.wait t) :
    b.advance u < 1 := by
  rw [wait] at hu
  split_ifs at hu with h
  · have hlt := tokensFromDuration_lt (neg_pos.mpr h) (sub_left_lt_of_lt_add hu)
    rw [← min_advance_add hb ht]
    exact (min_le_right ..).trans_lt (by linarith)
  · linarith

theorem advance_take (b : Bucket) (h : t ≤ u) :
    (b.take t).advance u = min ↑b.burst (b.advance t - 1 + tokensFromDuration b.limit (u - t)) :=
  advance_of_le h

/-- From an instant on, two buckets have the same tokens. -/
structure Agree (now : ℚ) (b c : Bucket) : Prop where
  limit : b.limit = c.limit
  burst : b.burst = c.burst
  last : b.last ≤ now
  last_right : c.last ≤ now
  advance : ∀ u, now ≤ u → b.advance u = c.advance u

/-- From an instant on, they do so after the token of a reservation, which was the last
    one on the first of them, is given back; and there is none before it is due. -/
structure Owes (now : ℚ) (r : BucketReservation) (b c : Bucket) : Prop where
  limit : b.limit = c.limit
  burst : b.burst = c.burst
  last : b.last ≤ now
  last_right : c.last ≤ now
  advance : ∀ u, now ≤ u → min ↑b.burst (b.advance u + 1) = c.advance u
  short : ∀ u, now ≤ u → u < r.timeToAct → c.advance u < 1
  ok : r.ok = true
  tokens : r.tokens = 1
  limit_eq : r.limit = b.limit
  timeToAct : r.timeToAct = b.lastEvent

theorem Agree.refl (h : b.last ≤ now) : Agree now b b := ⟨rfl, rfl, h, h, fun _ _ => rfl⟩

theorem Agree.mono (h : Agree now b c) (ht : now ≤ t) : Agree t b c :=
  ⟨h.limit, h.burst, h.last.trans ht, h.last_right.trans ht, fun u hu => h.advance u (ht.trans hu)⟩

theorem Owes.mono (h : Owes now r b c) (ht : now ≤ t) : Owes t r b c :=
  { h with
    last := h.last.trans ht
    last_right := h.last_right.trans ht
    advance := fun u hu => h.advance u (ht.trans hu)
    short := fun u hu => h.short u (ht.trans hu) }

/-- Buckets with the same tokens allow the same events. -/
theorem Agree.allow (h : Agree now b c) (ht : now ≤ t) :
    (b.reserveN t 1 0).1.ok = (c.reserveN t 1 0).1.ok ∧
      Agree t (b.reserveN t 1 0).2 (c.reserveN t 1 0).2 := by
  rw [reserveN_zero, reserveN_zero, h.burst, h.advance t ht]
  split_ifs
  · refine ⟨rfl, h.limit, h.burst, le_rfl, le_rfl, fun u hu => ?_⟩
    rw [advance_take b hu, advance_take c hu, h.limit, h.burst, h.advance t ht]
  · exact ⟨rfl, h.mono ht⟩

/-- A reservation is owed. -/
theorem Agree.reserve (h : Agree now b c) (ht : now ≤ t) :
    if (b.reserveN t 1 maxDuration).1.ok
      then Owes t (b.reserveN t 1 maxDuration).1 (b.reserveN t 1 maxDuration).2 c
      else Agree t (b.reserveN t 1 maxDuration).2 c := by
  rw [reserveN_maxDuration]
  by_cases hburst : 1 ≤ b.burst
  · rw [if_pos hburst, if_pos rfl]
    refine ⟨h.limit, h.burst, le_rfl, h.last_right.trans ht, fun u hu => ?_, fun u hu hlt => ?_,
      rfl, rfl, rfl, rfl⟩
    · rw [advance_take b hu, ← h.advance u (ht.trans hu), ← min_advance_add (h.last.trans ht) hu]
      refine (min_min_add zero_le_one).trans ?_
      congr 1
      ring
    · rw [← h.advance u (ht.trans hu)]
      exact advance_lt_one (h.last.trans ht) hu hlt
  · rw [if_neg hburst]
    exact h.mono ht

/-- Until it is due, neither bucket allows an event. -/
theorem Owes.allow (h : Owes now r b c) (ht : now ≤ t) (hlt : t < r.timeToAct) :
    (b.reserveN t 1 0).1.ok = (c.reserveN t 1 0).1.ok ∧
      Owes t r (b.reserveN t 1 0).2 (c.reserveN t 1 0).2 := by
  have hc := h.short t ht hlt
  have hb : ¬(1 ≤ b.burst ∧ 1 ≤ b.advance t) := by
    rintro ⟨hburst, hadv⟩
    have hburst : (1 : ℚ) ≤ b.burst := by exact_mod_cast hburst
    rw [← h.advance t ht] at hc
    exact absurd hc (not_lt.mpr (le_min hburst (by linarith)))
  rw [reserveN_zero, reserveN_zero, if_neg hb, if_neg fun hc' => absurd hc'.2 (not_le.mpr hc)]
  exact ⟨rfl, h.mono ht⟩

/-- A cancellation that is not late gives all of it back. -/
theorem Owes.cancel (h : Owes now r b c) (ht : now ≤ t) (hle : t ≤ r.timeToAct) :
    Agree t (b.cancelAt r t) c := by
  have hr : ¬(¬r.ok = true ∨ r.tokens = 0 ∨ r.timeToAct < t) := by
    simp [h.ok, h.tokens, not_lt.mpr hle]
  have hrestore : (r.tokens : ℚ) - tokensFromDuration r.limit (b.lastEvent - r.timeToAct) = 1 := by
    rw [h.timeToAct, sub_self, h.tokens]
    simp [tokensFromDuration]
  simp only [cancelAt, if_neg hr, hrestore, if_neg (not_le.mpr (zero_lt_one' ℚ)), h.advance t ht]
  refine ⟨h.limit, h.burst, le_rfl, h.last_right.trans ht, fun u hu => ?_⟩
  rw [advance_of_le (show _ ≤ u from hu), ← min_advance_add (h.last_right.trans ht) hu]
  simp only [h.limit, h.burst]

end Bucket

end Go
