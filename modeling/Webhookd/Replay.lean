import Webhookd.Signature

/-!
# Replays

What keeps an old delivery from being accepted again: its timestamp has to be in
a window around the clock, and the signature is that of the timestamp and body.

* `verifyTimestamp_exact_iff`: the window is judged exactly for the timestamps
  that are `Judgeable`. It is not for those so far ahead that the difference to
  them saturates, as the smallest duration is its own negation, nor for those
  whose seconds wrap around;
* `verify_delivery`: as a timestamp has no colon in it, the signed message
  determines the delivery, and no signature is that of another one, short of a
  collision.
-/

namespace Webhookd

open Go

variable {hmac : HMAC} {secret sigHeader tsHeader tsHeader' body body' headerVal : GoString}
  {now now' : Time} {skew skew' : Int} {n : Int}

/-! ## The window -/

/-- The magnitude of a difference, as the code computes it: when the difference
    saturates, its negation wraps around. -/
theorem magnitude_le_iff {t u : Time} (hskew : 0 ≤ skew) (hmax : skew < 2 ^ 63) :
    (if t.sub u < 0 then int64 (-t.sub u) else t.sub u) ≤ skew ↔
      |t.diff u| ≤ skew ∨ t.diff u ≤ -2 ^ 63 ∨ skew = 2 ^ 63 - 1 := by
  have hwrap : int64 (-minDuration) = minDuration := by decide
  rcases le_or_gt (t.diff u) (-2 ^ 63) with hd | hd
  · rw [Time.sub_of_le hd, if_pos (by decide), hwrap]
    exact iff_of_true ((by decide : minDuration ≤ 0).trans hskew) (.inr (.inl hd))
  · rcases lt_or_ge (t.diff u) (2 ^ 63) with hlt | hge
    · rw [Time.sub_of_range hd.le (Int.le_sub_one_of_lt hlt)]
      generalize t.diff u = d at *
      split_ifs with hneg
      · rw [int64_of_range (by omega) (by omega), abs_of_neg hneg]
        omega
      · rw [abs_of_nonneg (not_lt.mp hneg)]
        omega
    · rw [Time.sub_of_ge ((by decide : maxDuration ≤ 2 ^ 63).trans hge), if_neg (by decide),
        abs_of_nonneg (by omega)]
      show (2 ^ 63 - 1 : Int) ≤ skew ↔ _
      omega

/-- A timestamp is accepted in the window, so far ahead that the difference
    saturates, or when the window is the largest one. -/
theorem verifyTimestamp_eq (hn : parseInt headerVal = some n) (hskew : 0 ≤ skew)
    (hmax : skew < 2 ^ 63) :
    verifyTimestamp headerVal now skew =
      if |now.sinceUnix (unixSecond n)| ≤ skew ∨ now.sinceUnix (unixSecond n) ≤ -2 ^ 63 ∨
        skew = 2 ^ 63 - 1 then .ok () else .error .timestampSkewed := by
  have hne : headerVal ≠ [] := by
    rintro rfl
    cases hn
  have hiff := magnitude_le_iff (t := now) (u := .unix n) hskew hmax
  rw [Time.diff_unix] at hiff
  simp only [verifyTimestamp, if_neg hne, hn]
  by_cases hin : |now.sinceUnix (unixSecond n)| ≤ skew ∨
    now.sinceUnix (unixSecond n) ≤ -2 ^ 63 ∨ skew = 2 ^ 63 - 1
  · rw [if_pos hin, if_neg (not_lt.mpr (hiff.mpr hin))]
  · rw [if_neg hin, if_pos (not_le.mp (hiff.not.mpr hin))]

/-- A timestamp for which the arithmetic of the window does not overflow. -/
def Judgeable (n : Int) (now : Time) (skew : Int) : Prop :=
  if n + unixToInternal < 2 ^ 63 then
    -- The smallest duration is its own negation, and all the differences that
    -- saturate are in the largest window.
    -2 ^ 63 < now.sinceUnix n ∧ (now.sinceUnix n < 2 ^ 63 ∨ skew < 2 ^ 63 - 1)
  else if skew < 2 ^ 63 - 1 then
    -- The seconds wrap around: neither `n` nor what it wraps to is in the window.
    skew < |now.sinceUnix n| ∧ skew < |now.sinceUnix (n - 2 ^ 64)| ∧
      -2 ^ 63 < now.sinceUnix (n - 2 ^ 64)
  else |now.sinceUnix n| ≤ skew

instance : Decidable (Judgeable n now skew) := by
  unfold Judgeable
  infer_instance

/-- A verdict that is one of two ones is the right one. -/
theorem ite_eq_ite_iff {p q : Prop} [Decidable p] [Decidable q] :
    ((if p then .ok () else .error .timestampSkewed : Except SignatureError Unit) =
      if q then .ok () else .error .timestampSkewed) ↔ (p ↔ q) := by
  by_cases hp : p <;> by_cases hq : q <;> simp [hp, hq]

/-- The window is judged exactly for the timestamps for which its arithmetic
    does not overflow. -/
theorem verifyTimestamp_exact_iff (hn : parseInt headerVal = some n) (hskew : 0 ≤ skew)
    (hmax : skew < 2 ^ 63) :
    verifyTimestamp headerVal now skew =
      (if |now.sinceUnix n| ≤ skew then .ok () else .error .timestampSkewed) ↔
      Judgeable n now skew := by
  obtain ⟨hge, hlt⟩ := parseInt_range hn
  rw [verifyTimestamp_eq hn hskew hmax, ite_eq_ite_iff, Judgeable]
  by_cases hwrap : n + unixToInternal < 2 ^ 63
  · rw [unixSecond_of_lt hge hwrap, if_pos hwrap, abs_le]
    generalize now.sinceUnix n = d
    omega
  · -- The wrapped instant is `2 ^ 64` seconds before: only one of them can be near.
    have hsince : now.sinceUnix (n - 2 ^ 64) = now.sinceUnix n + 2 ^ 64 * second := by
      simp only [Time.sinceUnix]
      ring
    have hsecond : (10 ^ 9 : Int) = second := rfl
    rw [unixSecond_of_le hlt (not_lt.mp hwrap), if_neg hwrap, hsince, ← hsecond]
    generalize now.sinceUnix n = d
    simp only [abs_le, lt_abs]
    split_ifs <;> omega

/-- A timestamp of the current second, in a window of five minutes. -/
theorem verifyTimestamp_exact_now :
    verifyTimestamp (lit "1700000000") (.unix 1700000000) (5 * minute) = .ok () :=
  ((verifyTimestamp_exact_iff (by decide) (by decide) (by decide)).mpr
    (by decide : Judgeable 1700000000 (.unix 1700000000) (5 * minute))).trans (by decide)

/-- A timestamp of the year 2316 is accepted in 2023. -/
theorem verifyTimestamp_overflow :
    parseInt (lit "10923372037") = some 10923372037 ∧
      verifyTimestamp (lit "10923372037") (.unix 1700000000) (5 * minute) = .ok () ∧
      ¬ |(Time.unix 1700000000).sinceUnix 10923372037| ≤ 5 * minute := by
  decide

/-! ## The signed message -/

/-- An accepted timestamp is a number, so it has no colon in it. -/
theorem colon_notMem_of_verifyTimestamp (h : verifyTimestamp tsHeader now skew = .ok ()) :
    ch ':' ∉ tsHeader := by
  intro hmem
  rcases hn : parseInt tsHeader with _ | n
  · have hne : tsHeader ≠ [] := List.ne_nil_of_mem hmem
    rw [verifyTimestamp, if_neg hne, hn] at h
    cases h
  · rcases mem_of_parseInt hn hmem with hb | hb | hb <;> revert hb <;> decide

/-- The first colon after the version ends the timestamp. -/
theorem canonicalMessage_inj (h : ch ':' ∉ tsHeader) (h' : ch ':' ∉ tsHeader')
    (heq : canonicalMessage tsHeader body = canonicalMessage tsHeader' body') :
    tsHeader = tsHeader' ∧ body = body' := by
  simp only [canonicalMessage, List.append_assoc, List.append_cancel_left_eq] at heq
  -- Neither timestamp can go on past the colon of the other one.
  rcases List.append_eq_append_iff.mp heq with ⟨rest, hts, hrest⟩ | ⟨rest, hts, hrest⟩
  · rcases rest with _ | ⟨b, rest⟩
    · exact ⟨by simpa using hts.symm, List.append_cancel_left hrest⟩
    · obtain rfl : ch ':' = b := (List.cons.inj hrest).1
      exact absurd (hts ▸ by simp) h'
  · rcases rest with _ | ⟨b, rest⟩
    · exact ⟨by simpa using hts, (List.append_cancel_left hrest).symm⟩
    · obtain rfl : ch ':' = b := (List.cons.inj hrest).1
      exact absurd (hts ▸ by simp) h

/-- Among the messages of `S` no two have one sum. -/
def HMAC.CollisionFree (hmac : HMAC) (secret : GoString) (S : Set GoString) : Prop :=
  S.InjOn (hmac.sum secret)

/-- The signed message determines the delivery, and so does the signature, as
    long as the messages of both deliveries are free of collisions. -/
theorem verify_delivery :
    (verifyTimestamp tsHeader now skew = .ok () → verifyTimestamp tsHeader' now' skew' = .ok () →
      canonicalMessage tsHeader body = canonicalMessage tsHeader' body' →
      tsHeader = tsHeader' ∧ body = body') ∧
    (∀ S, hmac.CollisionFree secret S → canonicalMessage tsHeader body ∈ S →
      canonicalMessage tsHeader' body' ∈ S →
      verify hmac secret sigHeader tsHeader body now skew = .ok () →
      verify hmac secret sigHeader tsHeader' body' now' skew' = .ok () →
      tsHeader = tsHeader' ∧ body = body') := by
  constructor
  · intro hts hts'
    exact canonicalMessage_inj (colon_notMem_of_verifyTimestamp hts)
      (colon_notMem_of_verifyTimestamp hts')
  · intro S hS hmem hmem' hv hv'
    obtain ⟨hts, hexSig, rfl, hdec⟩ := verify_ok.mp hv
    obtain ⟨hts', hexSig', hsig, hdec'⟩ := verify_ok.mp hv'
    obtain rfl := List.append_cancel_left hsig
    have hsum := Option.some.inj (hdec.symm.trans hdec')
    exact canonicalMessage_inj (colon_notMem_of_verifyTimestamp hts)
      (colon_notMem_of_verifyTimestamp hts') (hS hmem hmem' hsum)

/-- The first bytes of the message, without the version, instead of a hash. -/
def truncation : HMAC :=
  ⟨fun _ msg => ((msg.drop 3) ++ List.replicate 32 0).take 32, fun _ msg => by simp⟩

/-- A delivery whose body could have been read as part of the timestamp. -/
theorem verify_delivery_shifted :
    verify truncation [] (sign truncation [] (lit "17") (lit "00:x")) (lit "17") (lit "00:x")
      (.unix 17) minute = .ok () ∧
    verify truncation [] (sign truncation [] (lit "17") (lit "00:x")) (lit "1700") (lit "x")
      (.unix 1700) minute ≠ .ok () := by
  refine ⟨by decide +kernel, fun h => ?_⟩
  have hfree : truncation.CollisionFree []
      {canonicalMessage (lit "17") (lit "00:x"), canonicalMessage (lit "1700") (lit "x")} :=
    Set.injOn_pair.mpr fun e => absurd e (by decide +kernel)
  have := (@verify_delivery truncation [] _ (lit "17") (lit "1700") (lit "00:x") (lit "x")
    (.unix 17) (.unix 1700) minute minute).2 _ hfree (by simp) (by simp) (by decide +kernel) h
  exact absurd this.1 (by decide)

end Webhookd
