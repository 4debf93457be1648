import Mathlib.Data.Int.Log
import Webhookd.Go.Json

/-!
# Numbers in texts

`strconv.ParseInt`, `strconv.ParseFloat` and `strconv.ParseBool`. A
floating-point number is one of the classes of IEEE 754: not a number, an
infinity, or a finite number, which is a rational (`Float64`). Rationals are
rounded to the nearest double, ties to even (`roundFloat64`).
-/

namespace Go

/-! ## Integers -/

/-- The value of a digit, in base sixteen or less. -/
def digitValue (b : UInt8) : Nat := (fromHexChar b).getD 0

/-- The value of some digits in a base, the most significant one first. -/
def digitsValue (base : Nat) (ds : GoString) : Nat :=
  ds.foldl (fun n b => n * base + digitValue b) 0

/-- A leading sign, and what follows it. -/
def cutSign (s : GoString) : Bool × GoString :=
  match s with
  | [] => (false, [])
  | b :: bs => if b = ch '-' then (true, bs) else if b = ch '+' then (false, bs) else (false, s)

/-- `strconv.ParseInt(s, 10, 64)`. -/
def parseInt (s : GoString) : Option Int :=
  let (neg, ds) := cutSign s
  let n := digitsValue 10 ds
  if ds ≠ [] ∧ ds.all isDigit then
    if neg then if n ≤ 2 ^ 63 then some (-n) else none
    else if n < 2 ^ 63 then some n else none
  else none

/-- What is read as an integer fits in an `int64`. -/
theorem parseInt_range {s : GoString} {n : Int} (h : parseInt s = some n) :
    -2 ^ 63 ≤ n ∧ n < 2 ^ 63 := by
  simp only [parseInt] at h
  split_ifs at h <;> obtain rfl := Option.some.inj h <;> omega

theorem mem_cutSign {s : GoString} {b : UInt8} (hb : b ∈ s) :
    b = ch '-' ∨ b = ch '+' ∨ b ∈ (cutSign s).2 := by
  rcases s with _ | ⟨a, s⟩
  · cases hb
  · simp only [cutSign]
    split_ifs with hm hp <;> rcases List.mem_cons.mp hb with rfl | hb <;> simp_all

/-- What is read as an integer has only digits after its sign. -/
theorem mem_of_parseInt {s : GoString} {n : Int} (h : parseInt s = some n) {b : UInt8}
    (hb : b ∈ s) : b = ch '-' ∨ b = ch '+' ∨ isDigit b := by
  rcases mem_cutSign hb with hb | hb | hb
  · exact .inl hb
  · exact .inr (.inl hb)
  · by_cases hds : (cutSign s).2 ≠ [] ∧ (cutSign s).2.all isDigit
    · exact .inr (.inr (List.all_eq_true.mp hds.2 b hb))
    · simp only [parseInt, if_neg hds] at h
      cases h

/-! ## Floating-point numbers -/

/-- A double: one of the classes of IEEE 754. The two zeros are one rational. -/
inductive Float64
  | nan
  | inf (neg : Bool)
  | fin (q : ℚ)
  deriving DecidableEq

namespace Float64

/-- `a < b`; false when one of them is not a number. -/
def lt : Float64 → Float64 → Bool
  | .fin p, .fin q => p < q
  | .inf true, .fin _ => true
  | .inf true, .inf false => true
  | .fin _, .inf false => true
  | _, _ => false

/-- `a ≤ b`; false when one of them is not a number. -/
def le : Float64 → Float64 → Bool
  | .nan, _ => false
  | _, .nan => false
  | a, b => !lt b a

theorem lt_nan (a : Float64) : lt a .nan = false := by
  simp only [lt]

theorem le_nan (a : Float64) : le a .nan = false := by
  cases a <;> rfl

/-- The order is total on what is a number. -/
theorem le_eq_not_lt {a b : Float64} (ha : a ≠ .nan) (hb : b ≠ .nan) : le a b = !lt b a := by
  cases a <;> cases b <;> first | contradiction | rfl

theorem lt_eq_not_le {a b : Float64} (ha : a ≠ .nan) (hb : b ≠ .nan) : lt a b = !le b a := by
  rw [le_eq_not_lt hb ha, Bool.not_not]

end Float64

/-- The integer nearest to a nonnegative rational, ties to even. -/
def roundHalfEven (q : ℚ) : Nat :=
  let n := ⌊q⌋.toNat
  if q - n < 1 / 2 then n else if q - n = 1 / 2 ∧ n % 2 = 0 then n else n + 1

/-- The double nearest to a rational, without a bound on the exponent. -/
def roundFloat64 (q : ℚ) : ℚ :=
  let e := max (Int.log 2 |q| - 52) (-1074)
  (if q < 0 then -1 else 1) * (roundHalfEven (|q| / 2 ^ e) * 2 ^ e)

/-- Underscores separate digits: each one follows a digit and precedes one. -/
def underscoresOK (digit : UInt8 → Bool) : Bool → GoString → Bool
  | _, [] => true
  | afterDigit, b :: bs =>
    if b = ch '_' then afterDigit && bs.head?.any digit && underscoresOK digit false bs
    else underscoresOK digit (digit b) bs

/-- The exponent of a number after its letter: a sign, a digit, and digits and
    underscores up to the end. -/
def parseExponent (s : GoString) : Option Int :=
  let (neg, ds) := cutSign s
  if ds.head?.any isDigit ∧ ds.all (fun b => isDigit b || b == ch '_') then
    let e := digitsValue 10 (ds.filter isDigit)
    some (if neg then -e else e)
  else none

/-- A number without its sign: digits of the base, with at most one point among
    them, and an exponent of ten or two (which may only be left out in base ten). -/
def parseMantissa (base : Nat) (digit : UInt8 → Bool) (expChar : Char) (s : GoString) : Option ℚ :=
  let (m, rest) := s.span fun b => digit b || b == ch '.' || b == ch '_'
  let ds := m.filter (· != ch '_')
  let (whole, frac) := ds.span (· != ch '.')
  let frac := frac.tail
  if (whole ++ frac).all digit ∧ whole ++ frac ≠ [] ∧ (rest ≠ [] ∨ base = 10) then do
    let e ←
      match rest with
      | [] => some 0
      | b :: rest =>
        if b = ch expChar ∨ b = ch expChar.toUpper then parseExponent rest else none
    pure (digitsValue base (whole ++ frac) / base ^ frac.length *
      (if base = 10 then 10 else 2) ^ e)
  else none

/-- `strconv.ParseFloat(s, 64)`: a number too large for a double is an error. -/
def parseFloat (s : GoString) : Option Float64 :=
  let (neg, u) := cutSign s
  let name := lowerASCII u
  if name = lit "inf" ∨ name = lit "infinity" then some (.inf neg)
  -- What is not a number has no sign.
  else if lowerASCII s = lit "nan" then some .nan
  else do
    let q ←
      match (lit "0x").isPrefixOf? name with
      | some (_ :: _) =>
        let digit := fun b => (fromHexChar b).isSome
        if underscoresOK digit true (u.drop 2) then parseMantissa 16 digit 'p' (u.drop 2) else none
      | _ => if underscoresOK isDigit false u then parseMantissa 10 isDigit 'e' u else none
    let r := roundFloat64 (if neg then -q else q)
    if |r| < 2 ^ 1024 then some (.fin r) else none

/-- A text without a sign is cut into itself. -/
theorem cutSign_of_head {s : GoString} (h : ∀ b ∈ s.head?, b ≠ ch '-' ∧ b ≠ ch '+') :
    cutSign s = (false, s) := by
  rcases s with _ | ⟨b, s⟩
  · rfl
  · obtain ⟨hm, hp⟩ := h b rfl
    rw [cutSign, if_neg hm, if_neg hp]

/-- The texts that are read as not a number: `nan`, in any case and without a sign. -/
theorem parseFloat_eq_nan {s : GoString} :
    parseFloat s = some .nan ↔ lowerASCII s = lit "nan" := by
  constructor
  · intro h
    by_contra hne
    -- What is rounded is a number, whichever digits it comes from.
    have hfin (x : Option ℚ) (f : ℚ → ℚ) :
        (x.bind fun q => if |f q| < 2 ^ 1024 then some (Float64.fin (f q)) else none) ≠
          some .nan := by
      intro h
      obtain ⟨q, -, h⟩ := Option.bind_eq_some_iff.mp h
      split_ifs at h
      cases h
    simp only [parseFloat, if_neg hne] at h
    rcases ite_eq_iff.mp h with ⟨-, h⟩ | ⟨-, h⟩
    · cases h
    · split at h <;> split at h <;> exact hfin _ _ h
  · intro h
    have hcut : cutSign s = (false, s) := by
      refine cutSign_of_head fun b hb => ?_
      rcases s with _ | ⟨a, s⟩
      · cases hb
      · obtain rfl := Option.some.inj hb
        have ha : lowerByte a = ch 'n' := (List.cons.inj h).1
        constructor <;> rintro rfl <;> revert ha <;> decide
    have hinf : ¬(lit "nan" = lit "inf" ∨ lit "nan" = lit "infinity") := by decide
    simp only [parseFloat, hcut, h, if_neg hinf, if_true]

/-! ## Truth values -/

/-- `strconv.ParseBool`. -/
def parseBool (s : GoString) : Option Bool :=
  if s ∈ [lit "1", lit "t", lit "T", lit "TRUE", lit "true", lit "True"] then some true
  else if s ∈ [lit "0", lit "f", lit "F", lit "FALSE", lit "false", lit "False"] then some false
  else none

end Go
