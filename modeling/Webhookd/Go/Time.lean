import Webhookd.Go.Strconv

/-!
# Instants and durations

`time.Time` without a monotonic reading, `time.Duration` (nanoseconds in an
`int64`) and `time.ParseDuration`. Arithmetic on an `int64` wraps around
(`int64`), except the difference of two instants, which saturates (`Time.sub`).
-/

namespace Go

/-- The `int64` an integer wraps around to. -/
def int64 (n : Int) : Int := n.bmod (2 ^ 64)

/-- A number in the range of `int64` does not wrap around. -/
theorem int64_of_range {n : Int} (h : -2 ^ 63 ≤ n) (hlt : n < 2 ^ 63) : int64 n = n :=
  Int.bmod_eq_of_le h hlt

/-- Nanoseconds. -/
abbrev Duration := Int

def second : Duration := 10 ^ 9
def minute : Duration := 60 * second

def minDuration : Duration := -2 ^ 63
def maxDuration : Duration := 2 ^ 63 - 1

/-- An instant: whole seconds since the year 1, and nanoseconds. -/
structure Time where
  sec : Int
  nsec : Nat
  nsec_lt : nsec < 10 ^ 9

/-- The seconds from the year 1 to the Unix epoch. -/
def unixToInternal : Int := 62135596800

namespace Time

/-- `time.Unix(n, 0)`. -/
def unix (n : Int) : Time := ⟨int64 (n + unixToInternal), 0, by norm_num⟩

/-- The nanoseconds from `u` to `t`, without a bound. -/
def diff (t u : Time) : Int := (t.sec - u.sec) * second + (t.nsec - u.nsec)

/-- `t.Sub(u)`, which saturates. -/
def sub (t u : Time) : Duration := max minDuration (min maxDuration (t.diff u))

/-- A difference below all durations saturates. -/
theorem sub_of_le {t u : Time} (h : t.diff u ≤ minDuration) : t.sub u = minDuration := by
  rw [sub, min_eq_right (h.trans (by decide)), max_eq_left h]

/-- A difference that is a duration is exact. -/
theorem sub_of_range {t u : Time} (h : minDuration ≤ t.diff u) (hle : t.diff u ≤ maxDuration) :
    t.sub u = t.diff u := by
  rw [sub, min_eq_right hle, max_eq_right h]

/-- A difference above all durations saturates. -/
theorem sub_of_ge {t u : Time} (h : maxDuration ≤ t.diff u) : t.sub u = maxDuration := by
  rw [sub, min_eq_left h, max_eq_right (by decide)]

/-- The nanoseconds from the Unix second `n` to `t`, without a bound. -/
def sinceUnix (t : Time) (n : Int) : Int := (t.sec - (n + unixToInternal)) * second + t.nsec

end Time

/-- The Unix second that `time.Unix(n, 0)` is, as its seconds wrap around. -/
def unixSecond (n : Int) : Int := int64 (n + unixToInternal) - unixToInternal

theorem Time.diff_unix (t : Time) (n : Int) : t.diff (.unix n) = t.sinceUnix (unixSecond n) := by
  simp [Time.diff, Time.unix, Time.sinceUnix, unixSecond]

/-- Up to some instant, the seconds since 1970 are exact. -/
theorem unixSecond_of_lt {n : Int} (h : -2 ^ 63 ≤ n) (hlt : n + unixToInternal < 2 ^ 63) :
    unixSecond n = n := by
  have hU : 0 ≤ unixToInternal := by decide
  rw [unixSecond, int64_of_range (h.trans (le_add_of_nonneg_right hU)) hlt, add_sub_cancel_right]

/-- After it, the seconds since the year 1 wrap around. -/
theorem unixSecond_of_le {n : Int} (h : n < 2 ^ 63) (hle : 2 ^ 63 ≤ n + unixToInternal) :
    unixSecond n = n - 2 ^ 64 := by
  have hwrap : int64 (n + unixToInternal) = int64 (n + unixToInternal - 2 ^ 64) := by
    rw [int64, int64, ← Int.sub_bmod_right]
    norm_num
  have hU : unixToInternal < 2 ^ 63 := by decide
  rw [unixSecond, hwrap, int64_of_range (by omega) (by omega)]
  omega

/-! ## Durations in texts -/

/-- The nanoseconds of a unit. -/
def unitMap (u : GoString) : Option Nat :=
  if u = lit "ns" then some 1
  else if u = lit "us" ∨ u = lit "µs" ∨ u = lit "μs" then some 1000
  else if u = lit "ms" then some (10 ^ 6)
  else if u = lit "s" then some (10 ^ 9)
  else if u = lit "m" then some (60 * 10 ^ 9)
  else if u = lit "h" then some (3600 * 10 ^ 9)
  else none

/-- The digits of a fraction, as many as fit in an `int64`, and the power of ten
    that scales them, which is a double. -/
def leadingFraction : Nat × ℚ → GoString → Nat × ℚ
  | (x, scale), [] => (x, scale)
  | (x, scale), b :: bs =>
    let y := x * 10 + digitValue b
    if (2 ^ 63 - 1) / 10 < x ∨ 2 ^ 63 < y then (x, scale)
    else leadingFraction (y, roundFloat64 (scale * 10)) bs

/-- One number of a duration, with its unit, and what follows it. -/
def durationPart (s : GoString) : Option (Nat × GoString) :=
  let (whole, s) := s.span isDigit
  let (frac, s) := if s.head? = some (ch '.') then s.tail.span isDigit else ([], s)
  let (u, s) := s.span fun b => !(b == ch '.' || isDigit b)
  if whole ++ frac = [] then none
  else do
    let unit ← unitMap u
    let v := digitsValue 10 whole
    let (f, scale) := leadingFraction (0, 1) frac
    if 2 ^ 63 / unit < v then none
    else
      -- The fraction is computed in doubles, and truncated.
      let ns := v * unit + ⌊roundFloat64 (roundFloat64 f * roundFloat64 (unit / scale))⌋.toNat
      if 2 ^ 63 < ns then none else some (ns, s)

/-- The sum of the numbers of a duration, reading at most `n` of them. -/
def durationParts : Nat → Nat → GoString → Option Nat
  | _, d, [] => some d
  | 0, _, _ => none
  | n + 1, d, s => do
    let (ns, s) ← durationPart s
    if 2 ^ 63 < d + ns then none else durationParts n (d + ns) s

/-- `time.ParseDuration`. -/
def parseDuration (s : GoString) : Option Duration :=
  let (neg, s) := cutSign s
  if s = lit "0" then some 0
  else if s = [] then none
  else do
    let d ← durationParts s.length 0 s
    if neg then some (-d) else if d < 2 ^ 63 then some d else none

/-- A sum of parts that would exceed `2 ^ 63` is an error. -/
theorem durationParts_le {n d r : Nat} {s : GoString} (hd : d ≤ 2 ^ 63)
    (h : durationParts n d s = some r) : r ≤ 2 ^ 63 := by
  induction n generalizing d s with
  | zero =>
    cases s with
    | nil => exact Option.some.inj h ▸ hd
    | cons => cases h
  | succ n ih =>
    cases s with
    | nil => exact Option.some.inj h ▸ hd
    | cons b bs =>
      obtain ⟨⟨ns, s⟩, -, h⟩ := Option.bind_eq_some_iff.mp h
      simp only at h
      split_ifs at h with hle
      exact ih (not_lt.mp hle) h

/-- What is parsed is in the range of durations. -/
theorem minDuration_le_parseDuration {s : GoString} {d : Duration}
    (h : parseDuration s = some d) : minDuration ≤ d := by
  simp only [parseDuration] at h
  split_ifs at h
  · obtain rfl := Option.some.inj h
    decide
  · obtain ⟨n, hn, h⟩ := Option.bind_eq_some_iff.mp h
    have hle := durationParts_le (Nat.zero_le _) hn
    obtain rfl := Option.some.inj h
    show -2 ^ 63 ≤ (-n : Int)
    omega
  · obtain ⟨n, hn, h⟩ := Option.bind_eq_some_iff.mp h
    split_ifs at h
    obtain rfl := Option.some.inj h
    show -2 ^ 63 ≤ (n : Int)
    omega

end Go
