import Mathlib.Data.Nat.Digits.Lemmas
import Webhookd.Go.Render
import Webhookd.Go.Strconv

/-!
# Encoding JSON

`json.Encoder` for structures of strings and integers: what the encoder escapes
(`appendString`), how it writes an integer (`formatInt`), and the loop over the
fields of a structure, which leaves out the empty ones that are tagged so
(`structEncoder`).

* The decoder reads back what was encoded (`parse_encode`): the fields that are
  not left out, in order, where a byte that is no part of a rune is replaced;
* what is encoded is one line of valid UTF-8, in which no byte opens a tag or an
  entity (`clean_encode`).
-/

namespace Go

/-! ## Integers -/

/-- The decimal digits of a natural number. -/
def formatNat (n : Nat) : GoString :=
  if n = 0 then [ch '0'] else ((Nat.digits 10 n).map fun d => .ofNat (48 + d)).reverse

/-- `strconv.FormatInt(n, 10)`. -/
def formatInt (n : Int) : GoString :=
  if n < 0 then ch '-' :: formatNat n.natAbs else formatNat n.natAbs

theorem digitValue_ofNat : ∀ d < 10, digitValue (.ofNat (48 + d)) = d := by decide

theorem isDigit_ofNat : ∀ d < 10, isDigit (.ofNat (48 + d)) = true := by decide

/-- A number is written in digits. -/
theorem isDigit_formatNat (n : Nat) : ∀ b ∈ formatNat n, isDigit b = true := by
  rw [formatNat]
  split_ifs
  · simp only [List.mem_singleton, forall_eq]
    decide
  · intro b hb
    obtain ⟨d, hd, rfl⟩ := List.mem_map.mp (List.mem_reverse.mp hb)
    exact isDigit_ofNat d (Nat.digits_lt_base (by omega) hd)

/-- There is always one. -/
theorem formatNat_ne_nil (n : Nat) : formatNat n ≠ [] := by
  rw [formatNat]
  split_ifs with h
  · simp
  · simp [Nat.digits_eq_nil_iff_eq_zero, h]

/-- Their value is the number. -/
theorem digitsValue_formatNat (n : Nat) : digitsValue 10 (formatNat n) = n := by
  rw [formatNat]
  split_ifs with h
  · rw [h]
    decide
  · have hv : ∀ ds : List Nat, (∀ d ∈ ds, d < 10) →
        digitsValue 10 (ds.map fun d => UInt8.ofNat (48 + d)).reverse = Nat.ofDigits 10 ds := by
      intro ds hds
      rw [digitsValue, List.foldl_reverse, List.foldr_map, Nat.ofDigits_eq_foldr]
      induction ds with
      | nil => rfl
      | cons d ds ih =>
        obtain ⟨hd, hds⟩ := List.forall_mem_cons.mp hds
        rw [List.foldr_cons, List.foldr_cons, ih hds, digitValue_ofNat d hd]
        simp [Nat.add_comm, Nat.mul_comm]
    rw [hv _ fun d hd => Nat.digits_lt_base (by omega) hd, Nat.ofDigits_digits]

/-- There is no sign before them. -/
theorem cutSign_formatNat (n : Nat) : cutSign (formatNat n) = (false, formatNat n) := by
  refine cutSign_of_head fun b hb => ?_
  have hd : isDigit b = true := isDigit_formatNat n b (List.mem_of_mem_head? hb)
  constructor
  · rintro rfl
    cases hd
  · rintro rfl
    cases hd

/-- Reading an integer gives it back, if it is one of 64 bits. -/
theorem parseInt_formatInt {n : Int} (h : -2 ^ 63 ≤ n) (hlt : n < 2 ^ 63) :
    parseInt (formatInt n) = some n := by
  have hall : (formatNat n.natAbs).all isDigit := List.all_eq_true.mpr (isDigit_formatNat _)
  have hcond : formatNat n.natAbs ≠ [] ∧ (formatNat n.natAbs).all isDigit :=
    ⟨formatNat_ne_nil _, hall⟩
  rw [formatInt]
  split_ifs with hneg
  · have hcut : cutSign (ch '-' :: formatNat n.natAbs) = (true, formatNat n.natAbs) := by
      simp [cutSign]
    rw [parseInt, hcut]
    simp only [if_pos hcond, digitsValue_formatNat, if_true]
    rw [if_pos (by omega)]
    congr 1
    omega
  · rw [parseInt, cutSign_formatNat]
    simp only [if_pos hcond, digitsValue_formatNat, Bool.false_eq_true, if_false]
    rw [if_pos (by omega)]
    congr 1
    omega

/-- What follows a value in an object. -/
def Ends (rest : GoString) : Prop := ∃ b bs, rest = b :: bs ∧ (b = ch ',' ∨ b = ch '}')

/-- The digits of a number are read up to its end. -/
theorem skipDigits_append {ds rest : GoString} (hds : ds ≠ []) (hd : ∀ b ∈ ds, isDigit b = true)
    (hr : Ends rest) : skipDigits (ds ++ rest) = some rest := by
  obtain ⟨b, bs, rfl, hb⟩ := hr
  have hb : isDigit b = false := by rcases hb with rfl | rfl <;> decide
  obtain ⟨d, ds, rfl⟩ := List.exists_cons_of_ne_nil hds
  rw [skipDigits, List.dropWhile_append_of_pos hd, List.dropWhile_cons_of_neg (by simp [hb])]
  simp [hd d List.mem_cons_self]

/-- No zero leads the digits of a number but those of zero. -/
theorem head_formatNat {n : Nat} (h : n ≠ 0) : (formatNat n).head? ≠ some (ch '0') := by
  rw [formatNat, if_neg h]
  intro hh
  rw [List.head?_reverse, List.getLast?_map, Option.map_eq_some_iff] at hh
  obtain ⟨d, hd, he⟩ := hh
  have hne : Nat.digits 10 n ≠ [] := by simp [Nat.digits_eq_nil_iff_eq_zero, h]
  have hd' : d ≠ 0 := by
    rw [List.getLast?_eq_getLast_of_ne_nil hne, Option.some.injEq] at hd
    exact hd ▸ Nat.getLast_digit_ne_zero 10 h
  have hlt : d < 10 := Nat.digits_lt_base (by omega) (List.mem_of_getLast? hd)
  have := congrArg UInt8.toNat he
  rw [toNat_ofNat (by omega)] at this
  simp [ch] at this
  omega

/-- A number has no leading zero, so all of it is read. -/
theorem skipInteger_formatNat (n : Nat) {rest : GoString} (hr : Ends rest) :
    skipInteger (formatNat n ++ rest) = some rest := by
  by_cases h : n = 0
  · subst h
    simp [formatNat, skipInteger]
  · have hs := skipDigits_append (formatNat_ne_nil n) (isDigit_formatNat n) hr
    have hh := head_formatNat h
    obtain ⟨b, bs, hb⟩ := List.exists_cons_of_ne_nil (formatNat_ne_nil n)
    rw [hb] at hs hh ⊢
    rw [List.cons_append, skipInteger, if_neg fun e => hh (congrArg some e)]
    exact hs

/-- Reading an integer stops at what follows it. -/
theorem number_formatInt (n : Int) {rest : GoString} (hr : Ends rest) :
    number (formatInt n ++ rest) = some (formatInt n, rest) := by
  have hi := skipInteger_formatNat n.natAbs hr
  have hfrac : skipFraction rest = some rest := by
    obtain ⟨b, bs, rfl, rfl | rfl⟩ := hr <;> rfl
  have hexp : skipExponent rest = some rest := by
    obtain ⟨b, bs, rfl, rfl | rfl⟩ := hr <;> rfl
  -- The sign is skipped, and there is none before the digits.
  have hsign : (if (formatInt n ++ rest).head? = some (ch '-') then (formatInt n ++ rest).tail
      else formatInt n ++ rest) = formatNat n.natAbs ++ rest := by
    rw [formatInt]
    split_ifs with hneg hh hh
    · rfl
    · exact absurd rfl hh
    · obtain ⟨b, bs, hb⟩ := List.exists_cons_of_ne_nil (formatNat_ne_nil n.natAbs)
      have hd : isDigit b = true := isDigit_formatNat n.natAbs b (by simp [hb])
      rw [hb] at hh
      obtain rfl : b = ch '-' := Option.some.inj hh
      cases hd
    · rfl
  simp only [number, hsign, hi, hfrac, hexp, Option.bind_eq_bind, Option.bind_some,
    Option.pure_def, List.length_append, Nat.add_sub_cancel, List.take_left]

/-! ## Strings -/

/-- What the encoder writes for a byte of ASCII. -/
def escapeByte (b : UInt8) : GoString :=
  if b = ch '\\' ∨ b = ch '"' then [ch '\\', b]
  else if b = ch '\x08' then [ch '\\', ch 'b']
  else if b = ch '\x0c' then [ch '\\', ch 'f']
  else if b = ch '\n' then [ch '\\', ch 'n']
  else if b = ch '\r' then [ch '\\', ch 'r']
  else if b = ch '\t' then [ch '\\', ch 't']
  else if b.toNat < 0x20 ∨ b = ch '<' ∨ b = ch '>' ∨ b = ch '&' then
    [ch '\\', ch 'u', ch '0', ch '0', hexDigit (b.toNat / 16), hexDigit (b.toNat % 16)]
  else [b]

/-- What the encoder writes for a string, reading it at most `n` times. -/
def escapeAux : Nat → GoString → GoString
  | n + 1, b :: bs =>
    if b.toNat < 0x80 then escapeByte b ++ escapeAux n bs
    else
      match decodeLong b bs with
      | none => lit "\\ufffd" ++ escapeAux n bs
      | some (c, rest) =>
        -- The separators of lines and paragraphs are escaped; other runes are copied.
        (if c = '\u2028' ∨ c = '\u2029' then lit "\\u202" ++ [hexDigit (c.toNat % 16)]
          else (b :: bs).take (bs.length + 1 - rest.length)) ++ escapeAux n rest
  | _, _ => []

/-- `appendString`, with `escapeHTML`. -/
def appendString (s : GoString) : GoString := ch '"' :: (escapeAux s.length s ++ [ch '"'])

/-- Inside a string, the decoder reads the bytes `x` as the rune `c`. -/
def Escapes (x : GoString) (c : Char) : Prop :=
  ∀ rest, ∃ b bs, x ++ rest = b :: bs ∧ b ≠ ch '"' ∧ stringRune b bs = some (c, rest)

theorem eq_ofNat {b : UInt8} {n : Nat} (h : b.toNat = n) : b = .ofNat n := by
  rw [← h, UInt8.ofNat_toNat]

/-- A rune is not below the least one of its length. -/
theorem scalar_eq_some {lo v : Nat} {c : Char} (h : scalar lo v = some c) :
    c.toNat = v ∧ lo ≤ v := by
  unfold scalar at h
  by_cases hv : v.isValidChar
  · rw [dif_pos hv] at h
    by_cases hlo : lo ≤ v
    · rw [if_pos hlo] at h
      obtain rfl := Option.some.inj h
      exact ⟨rfl, hlo⟩
    · rw [if_neg hlo] at h
      cases h
  · rw [dif_neg hv] at h
    cases h

/-- A byte that continues a rune has six bits of it. -/
theorem tailBits_eq_some {b : UInt8} {v : Nat} (h : tailBits b = some v) :
    b = .ofNat (0x80 + v) ∧ v < 64 := by
  unfold tailBits at h
  split_ifs at h with hb
  obtain rfl := Option.some.inj h
  exact ⟨eq_ofNat (by omega), by omega⟩

section

variable {n : Nat} {bs rest : GoString} {c : Char}

/-- A rune that is decoded from two bytes is encoded by them. -/
theorem decode2_eq_some (hn : n < 32) (h : decode2 n bs = some (c, rest)) :
    .ofNat (0xC0 + n) :: bs = encodeRune c ++ rest ∧ 0x80 ≤ c.toNat := by
  rcases bs with _ | ⟨b₁, bs⟩
  · cases h
  simp only [decode2, Option.bind_eq_bind, Option.bind_eq_some_iff, Option.pure_def,
    Option.some.injEq, Prod.mk.injEq] at h
  obtain ⟨v, hv, c, hc, rfl, rfl⟩ := h
  obtain ⟨rfl, hv⟩ := tailBits_eq_some hv
  obtain ⟨hc, hlo⟩ := scalar_eq_some hc
  have h₁ : c.toNat / 64 = n := by omega
  have h₂ : c.toNat % 64 = v := by omega
  rw [encodeRune, if_neg (by omega), if_pos (by omega), h₁, h₂]
  exact ⟨rfl, by omega⟩

/-- A rune that is decoded from three bytes is encoded by them. -/
theorem decode3_eq_some (hn : n < 16) (h : decode3 n bs = some (c, rest)) :
    .ofNat (0xE0 + n) :: bs = encodeRune c ++ rest ∧ 0x80 ≤ c.toNat := by
  rcases bs with _ | ⟨b₁, _ | ⟨b₂, bs⟩⟩
  · cases h
  · cases h
  simp only [decode3, Option.bind_eq_bind, Option.bind_eq_some_iff, Option.pure_def,
    Option.some.injEq, Prod.mk.injEq] at h
  obtain ⟨v, hv, w, hw, c, hc, rfl, rfl⟩ := h
  obtain ⟨rfl, hv⟩ := tailBits_eq_some hv
  obtain ⟨rfl, hw⟩ := tailBits_eq_some hw
  obtain ⟨hc, hlo⟩ := scalar_eq_some hc
  have h₁ : c.toNat / 4096 = n := by omega
  have h₂ : c.toNat / 64 % 64 = v := by omega
  have h₃ : c.toNat % 64 = w := by omega
  rw [encodeRune, if_neg (by omega), if_neg (by omega), if_pos (by omega), h₁, h₂, h₃]
  exact ⟨rfl, by omega⟩

/-- A rune that is decoded from four bytes is encoded by them. -/
theorem decode4_eq_some (h : decode4 n bs = some (c, rest)) :
    .ofNat (0xF0 + n) :: bs = encodeRune c ++ rest ∧ 0x80 ≤ c.toNat := by
  rcases bs with _ | ⟨b₁, _ | ⟨b₂, _ | ⟨b₃, bs⟩⟩⟩
  · cases h
  · cases h
  · cases h
  simp only [decode4, Option.bind_eq_bind, Option.bind_eq_some_iff, Option.pure_def,
    Option.some.injEq, Prod.mk.injEq] at h
  obtain ⟨v, hv, w, hw, x, hx, c, hc, rfl, rfl⟩ := h
  obtain ⟨rfl, hv⟩ := tailBits_eq_some hv
  obtain ⟨rfl, hw⟩ := tailBits_eq_some hw
  obtain ⟨rfl, hx⟩ := tailBits_eq_some hx
  obtain ⟨hc, hlo⟩ := scalar_eq_some hc
  have h₁ : c.toNat / 262144 = n := by omega
  have h₂ : c.toNat / 4096 % 64 = v := by omega
  have h₃ : c.toNat / 64 % 64 = w := by omega
  have h₄ : c.toNat % 64 = x := by omega
  rw [encodeRune, if_neg (by omega), if_neg (by omega), if_neg (by omega), h₁, h₂, h₃, h₄]
  exact ⟨rfl, by omega⟩

/-- A rune of two or more bytes is read from its encoding. -/
theorem decodeLong_eq_some {b : UInt8} (h : decodeLong b bs = some (c, rest)) :
    b :: bs = encodeRune c ++ rest ∧ 0x80 ≤ c.toNat := by
  unfold decodeLong at h
  split_ifs at h with h₁ h₂ h₃
  · rw [eq_ofNat (b := b) (n := 0xC0 + (b.toNat - 0xC0)) (by omega)]
    exact decode2_eq_some (by omega) h
  · rw [eq_ofNat (b := b) (n := 0xE0 + (b.toNat - 0xE0)) (by omega)]
    exact decode3_eq_some (by omega) h
  · rw [eq_ofNat (b := b) (n := 0xF0 + (b.toNat - 0xF0)) (by omega)]
    exact decode4_eq_some h

end

theorem escapes_escapeRune (c : Char) : Escapes (escapeRune c) c := stringRune_escapeRune c

/-- Four hexadecimal digits stand for a rune. -/
theorem escapes_unicode {ds : GoString} {c : Char}
    (h : ∀ rest, hex4 (ds ++ rest) = some (c.toNat, rest)) :
    Escapes (ch '\\' :: ch 'u' :: ds) c := by
  intro rest
  refine ⟨ch '\\', ch 'u' :: (ds ++ rest), rfl, by decide, ?_⟩
  have hn : ¬(0xD800 ≤ c.toNat ∧ c.toNat < 0xE000) := by
    have := c.valid
    simp only [UInt32.isValidChar, Nat.isValidChar] at this
    rw [Char.toNat]
    omega
  simp only [stringRune, if_true, unicodeEscape, h, Option.bind_eq_bind, Option.bind_some,
    if_neg hn, Char.ofNat_toNat, Option.pure_def]

/-- The decoder reads a rune, and then the rest of the string. -/
theorem Escapes.stringAux {x y rest : GoString} {c : Char} {cs : List Char} (h : Escapes x c)
    (hy : ∀ n, y.length ≤ n → stringAux n y = some (cs, rest)) :
    ∀ n, (x ++ y).length ≤ n → Go.stringAux n (x ++ y) = some (c :: cs, rest) := by
  intro n hn
  obtain ⟨b, bs, hx, hb, hr⟩ := h y
  rw [hx] at hn ⊢
  obtain ⟨n, rfl⟩ := Nat.exists_eq_succ_of_ne_zero (show n ≠ 0 by rintro rfl; simp at hn)
  have hl := length_stringRune hr
  simp only [List.length_cons] at hn
  rw [Go.stringAux, if_neg hb, hr]
  simp [hy n (by omega)]

/-- A byte of ASCII is read back, escaped or not. -/
theorem escapes_escapeByte {b : UInt8} (hb : b.toNat < 0x80) :
    Escapes (escapeByte b) (.ofNat b.toNat) := by
  have hc : (Char.ofNat b.toNat).toNat = b.toNat := toNat_ofNat_of_isValidChar (.inl (by omega))
  have simple : ∀ e, simpleEscape e = some (.ofNat b.toNat) → e ≠ ch 'u' →
      Escapes [ch '\\', e] (.ofNat b.toNat) := by
    intro e he hu rest
    refine ⟨ch '\\', e :: rest, rfl, by decide, ?_⟩
    simp [stringRune, hu, he]
  unfold escapeByte
  split_ifs with h₁ h₂ h₃ h₄ h₅ h₆ h₇
  · rcases h₁ with rfl | rfl
    · exact simple _ (by decide) (by decide)
    · exact simple _ (by decide) (by decide)
  · exact simple _ (by rw [h₂]; decide) (by decide)
  · exact simple _ (by rw [h₃]; decide) (by decide)
  · exact simple _ (by rw [h₄]; decide) (by decide)
  · exact simple _ (by rw [h₅]; decide) (by decide)
  · exact simple _ (by rw [h₆]; decide) (by decide)
  · refine escapes_unicode fun rest => ?_
    have h0 : fromHexChar (ch '0') = some 0 := by decide
    have e : ((0 * 16 + 0) * 16 + b.toNat / 16) * 16 + b.toNat % 16 = b.toNat := by omega
    simp only [List.cons_append, List.nil_append, hex4, h0,
      fromHexChar_hexDigit _ (show b.toNat / 16 < 16 by omega),
      fromHexChar_hexDigit _ (show b.toNat % 16 < 16 by omega), Option.bind_eq_bind,
      Option.bind_some, Option.pure_def, e, hc]
  · -- The byte is the rune, which is not escaped.
    push Not at h₁ h₇
    refine fun rest => ⟨b, rest, rfl, h₁.2, ?_⟩
    rw [stringRune.eq_def, if_neg h₁.1, if_neg (by omega), decodeRune, if_pos hb]

/-- So is any other rune. -/
theorem escapes_encodeRune {c : Char} (h : 0x80 ≤ c.toNat) : Escapes (encodeRune c) c := by
  have hq : ¬(c = '"' ∨ c = '\\') := by
    rintro (rfl | rfl)
    · exact absurd h (by decide)
    · exact absurd h (by decide)
  have hc := escapes_escapeRune c
  rwa [escapeRune, if_neg hq, if_neg (by omega)] at hc

/-- The rune of two or more bytes is escaped, or copied. -/
theorem escapes_long {b : UInt8} {bs rest : GoString} {c : Char}
    (h : decodeLong b bs = some (c, rest)) :
    Escapes (if c = '\u2028' ∨ c = '\u2029' then lit "\\u202" ++ [hexDigit (c.toNat % 16)]
      else (b :: bs).take (bs.length + 1 - rest.length)) c := by
  obtain ⟨he, hc⟩ := decodeLong_eq_some h
  split_ifs with hs
  · rcases hs with rfl | rfl
    · exact escapes_unicode fun rest => rfl
    · exact escapes_unicode fun rest => rfl
  · have hl := congrArg List.length he
    rw [List.length_cons, List.length_append] at hl
    rw [he, hl, Nat.add_sub_cancel, List.take_left]
    exact escapes_encodeRune hc

theorem decodeRune_of_decodeLong {b : UInt8} {bs : GoString} (hb : ¬b.toNat < 0x80) :
    decodeRune b bs = (decodeLong b bs).getD (runeError, bs) := if_neg hb

/-- Reading what was written for a string gives its runes. -/
theorem stringAux_escapeAux (rest : GoString) : ∀ (m : Nat) (s : GoString), s.length ≤ m →
    ∀ n, (escapeAux m s ++ ch '"' :: rest).length ≤ n →
      stringAux n (escapeAux m s ++ ch '"' :: rest) = some (runesAux m s, rest) := by
  intro m
  have done : ∀ n, (ch '"' :: rest).length ≤ n →
      stringAux n (ch '"' :: rest) = some ([], rest) := by
    intro n hn
    obtain ⟨n, rfl⟩ := Nat.exists_eq_succ_of_ne_zero (show n ≠ 0 by rintro rfl; simp at hn)
    simp [stringAux]
  induction m with
  | zero =>
    intro s hs
    obtain rfl := List.length_eq_zero_iff.mp (Nat.le_zero.mp hs)
    exact done
  | succ m ih =>
    intro s hs
    rcases s with _ | ⟨b, bs⟩
    · exact done
    rw [List.length_cons, Nat.succ_le_succ_iff] at hs
    rw [escapeAux, runesAux]
    split_ifs with hb
    · rw [decodeRune, if_pos hb, List.append_assoc]
      exact (escapes_escapeByte hb).stringAux (ih bs hs)
    · rw [decodeRune_of_decodeLong hb]
      cases hd : decodeLong b bs with
      | none =>
        rw [List.append_assoc]
        exact Escapes.stringAux (escapes_unicode fun rest => rfl) (ih bs hs)
      | some x =>
        obtain ⟨c, bs'⟩ := x
        have hl : bs'.length ≤ bs.length := by
          have := length_decodeRune_le b bs
          rwa [decodeRune_of_decodeLong hb, hd] at this
        rw [List.append_assoc]
        exact (escapes_long hd).stringAux (ih bs' (hl.trans hs))

/-- The string with every byte that is no part of a rune replaced. -/
def toValidUTF8 (s : GoString) : GoString := encodeRunes (runes s)

/-- A string is read back, up to the quote that ends it. -/
theorem string_escapeAux (s rest : GoString) :
    string (escapeAux s.length s ++ ch '"' :: rest) = some (toValidUTF8 s, rest) := by
  rw [string, stringAux_escapeAux rest s.length s le_rfl _ le_rfl]
  rfl

/-! ## Structures -/

/-- The value of a field. -/
inductive Scalar
  | str (s : GoString)
  | int (n : Int)

namespace Scalar

def encode : Scalar → GoString
  | .str s => appendString s
  | .int n => formatInt n

/-- `isEmptyValue`. -/
def isEmpty : Scalar → Bool
  | .str s => s = []
  | .int n => n = 0

/-- What the decoder sees. -/
def toJson : Scalar → Json
  | .str s => .str (toValidUTF8 s)
  | .int n => .num (formatInt n)

end Scalar

/-- A field of a structure, by its tag. -/
structure StructField where
  name : GoString
  omitEmpty : Bool
  value : Scalar

namespace StructField

/-- The field is written. -/
def present (f : StructField) : Bool := !(f.omitEmpty && f.value.isEmpty)

def encode (f : StructField) : GoString := appendString f.name ++ ch ':' :: f.value.encode

end StructField

/-- The loop of `structEncoder` from a field on, where `next` is what is written
    before the next one. -/
def structEncoder (next : UInt8) : List StructField → GoString
  | [] => if next = ch '{' then [ch '{', ch '}'] else [ch '}']
  | f :: fs =>
    if f.omitEmpty && f.value.isEmpty then structEncoder next fs
    else next :: (f.encode ++ structEncoder (ch ',') fs)

/-- `Encoder.Encode`. -/
def encode (fs : List StructField) : GoString := structEncoder (ch '{') fs ++ [ch '\n']

/-- What the decoder sees of the fields. -/
def members (fs : List StructField) : List (GoString × Json) :=
  (fs.filter StructField.present).map fun f => (toValidUTF8 f.name, f.value.toJson)

/-! ## The round trip -/

/-- The bytes that a number starts with. -/
theorem formatInt_head (n : Int) :
    ∃ b bs, formatInt n = b :: bs ∧ (b = ch '-' ∨ isDigit b = true) := by
  obtain ⟨b, bs, hb⟩ := List.exists_cons_of_ne_nil (formatNat_ne_nil n.natAbs)
  rw [formatInt]
  split_ifs
  · exact ⟨_, _, rfl, .inl rfl⟩
  · exact ⟨b, bs, hb, .inr (isDigit_formatNat n.natAbs b (by simp [hb]))⟩

/-- A byte that starts a number starts nothing else. -/
theorem starts_number {b : UInt8} (h : b = ch '-' ∨ isDigit b = true) :
    (b == ch ' ' || b == ch '\t' || b == ch '\r' || b == ch '\n') = false ∧
      b ∉ [ch '{', ch '[', ch '"', ch 'n', ch 't', ch 'f'] := by
  have hall : ∀ n < 256, (UInt8.ofNat n = ch '-' ∨ isDigit (.ofNat n) = true) →
      (UInt8.ofNat n == ch ' ' || UInt8.ofNat n == ch '\t' || UInt8.ofNat n == ch '\r' ||
        UInt8.ofNat n == ch '\n') = false ∧
      UInt8.ofNat n ∉ [ch '{', ch '[', ch '"', ch 'n', ch 't', ch 'f'] := by
    decide +kernel
  exact forall_byte (P := fun b => (b = ch '-' ∨ isDigit b = true) →
    (b == ch ' ' || b == ch '\t' || b == ch '\r' || b == ch '\n') = false ∧
      b ∉ [ch '{', ch '[', ch '"', ch 'n', ch 't', ch 'f']) hall b h

namespace Scalar

variable {rest : GoString}

theorem skipSpace_encode (v : Scalar) : skipSpace (v.encode ++ rest) = v.encode ++ rest := by
  cases v with
  | str s => exact skipSpace_cons (c := '"') (by decide) _
  | int n =>
    obtain ⟨b, bs, hb, hn⟩ := formatInt_head n
    rw [encode, hb, List.cons_append, skipSpace, List.dropWhile_cons_of_neg]
    simp [(starts_number hn).1]

/-- A value is read back, up to the end of its field. -/
theorem scalarValue_encode (v : Scalar) (hr : Ends rest) :
    scalarValue (v.encode ++ rest) = some (v.toJson, rest) := by
  cases v with
  | str s =>
    have hs := string_escapeAux s rest
    simp [encode, appendString, scalarValue, hs, toJson]
  | int n =>
    have hnum := number_formatInt n hr
    obtain ⟨b, bs, hb, hn⟩ := formatInt_head n
    have hne := (starts_number hn).2
    simp only [List.mem_cons, List.not_mem_nil, or_false, not_or] at hne
    obtain ⟨-, -, hq, hn, ht, hf⟩ := hne
    rw [hb, List.cons_append] at hnum
    rw [encode, toJson, hb, List.cons_append]
    simp only [scalarValue, if_neg hq, if_neg hn, if_neg ht, if_neg hf, hnum, Option.map_some]

/-- So it is at any depth. -/
theorem value_encode (v : Scalar) (hr : Ends rest) (n : Nat) :
    value n (v.encode ++ rest) = some (v.toJson, rest) := by
  have hs := scalarValue_encode v hr
  cases n with
  | zero => exact hs
  | succ n =>
    obtain ⟨b, bs, hb, hbrace, hbracket⟩ : ∃ b bs, v.encode ++ rest = b :: bs ∧ b ≠ ch '{' ∧
        b ≠ ch '[' := by
      cases v with
      | str s => exact ⟨_, _, rfl, by decide, by decide⟩
      | int n =>
        obtain ⟨b, bs, hb, hn⟩ := formatInt_head n
        have hne := (starts_number hn).2
        simp only [List.mem_cons, List.not_mem_nil, or_false, not_or] at hne
        exact ⟨b, bs ++ rest, by rw [encode, hb, List.cons_append], hne.1, hne.2.1⟩
    rw [hb] at hs ⊢
    rw [value, if_neg hbrace, if_neg hbracket, hs]

end Scalar

/-- A field is read back as its name and its value. -/
theorem member_encode (f : StructField) {rest : GoString} (hr : Ends rest) (n : Nat) :
    member (value n) (f.encode ++ rest) = some ((toValidUTF8 f.name, f.value.toJson), rest) := by
  have he : f.encode ++ rest = ch '"' :: (escapeAux f.name.length f.name ++
      ch '"' :: (ch ':' :: (f.value.encode ++ rest))) := by
    simp [StructField.encode, appendString]
  rw [he]
  simp only [member, if_true, string_escapeAux, Option.bind_eq_bind, Option.bind_some,
    skipSpace_cons (c := ':') (by decide), Scalar.skipSpace_encode, Scalar.value_encode _ hr,
    Option.pure_def]

theorem skipSpace_encode (f : StructField) (rest : GoString) :
    skipSpace (f.encode ++ rest) = f.encode ++ rest :=
  skipSpace_cons (c := '"') (by decide) _

/-- After a field, there is another one or the end. -/
theorem ends_structEncoder (fs : List StructField) (rest : GoString) :
    Ends (structEncoder (ch ',') fs ++ rest) := by
  induction fs with
  | nil => exact ⟨_, _, rfl, .inr rfl⟩
  | cons f fs ih =>
    rw [structEncoder]
    split_ifs
    · exact ih
    · exact ⟨_, _, rfl, .inl rfl⟩

theorem members_cons_of_present {f : StructField} (h : f.present) (fs : List StructField) :
    members (f :: fs) = (toValidUTF8 f.name, f.value.toJson) :: members fs := by
  simp [members, h]

theorem members_cons_of_not_present {f : StructField} (h : f.present = false)
    (fs : List StructField) :
    members (f :: fs) = members fs := by
  simp [members, h]

theorem present_eq_false {f : StructField} :
    f.present = false ↔ (f.omitEmpty && f.value.isEmpty) := by
  simp [StructField.present]

theorem present_of_not {f : StructField} (h : ¬(f.omitEmpty && f.value.isEmpty)) : f.present := by
  rwa [← present_eq_false, Bool.not_eq_false] at h

/-- The fields that are present are read back one by one. -/
theorem sepBy_structEncoder (n : Nat) (rest : GoString) (fs : List StructField) :
    ∀ (f : StructField) (fuel : Nat), f.present →
    (f.encode ++ (structEncoder (ch ',') fs ++ rest)).length ≤ fuel →
    sepBy (member (value n)) (ch '}') fuel (f.encode ++ (structEncoder (ch ',') fs ++ rest)) =
      some (members (f :: fs), rest) := by
  -- A field that is left out leaves no trace; one that is written follows a comma.
  induction fs with
  | nil =>
    intro f fuel hf hl
    obtain ⟨fuel, rfl⟩ := Nat.exists_eq_succ_of_ne_zero
      (show fuel ≠ 0 by rintro rfl; simp [StructField.encode, appendString] at hl)
    rw [sepBy, skipSpace_encode, member_encode f (ends_structEncoder [] rest),
      members_cons_of_present hf]
    rfl
  | cons g fs ih =>
    intro f fuel hf hl
    by_cases hg : g.omitEmpty && g.value.isEmpty
    · rw [structEncoder, if_pos hg] at hl ⊢
      rw [ih f fuel hf hl, members_cons_of_present hf, members_cons_of_present hf,
        members_cons_of_not_present (present_eq_false.mpr hg)]
    · obtain ⟨fuel, rfl⟩ := Nat.exists_eq_succ_of_ne_zero
        (show fuel ≠ 0 by rintro rfl; simp [StructField.encode, appendString] at hl)
      have hg' := present_of_not hg
      have hs := ends_structEncoder (g :: fs) rest
      rw [structEncoder, if_neg hg] at hl hs ⊢
      have hl' : (g.encode ++ (structEncoder (ch ',') fs ++ rest)).length ≤ fuel := by
        simp only [List.length_append, List.length_cons] at hl ⊢
        omega
      rw [sepBy, skipSpace_encode, member_encode f hs, members_cons_of_present hf]
      simp only [List.cons_append, Option.bind_eq_bind, Option.bind_some,
        skipSpace_cons (c := ',') (by decide), if_true, List.append_assoc, ih g fuel hg' hl',
        Option.pure_def]

/-- Reading the text of a structure gives its fields, and leaves what follows. -/
theorem value_structEncoder (fs : List StructField) (n : Nat) (rest : GoString) :
    value (n + 1) (structEncoder (ch '{') fs ++ rest) = some (.obj (members fs), rest) := by
  induction fs with
  | nil => rfl
  | cons f fs ih =>
    by_cases hf : f.omitEmpty && f.value.isEmpty
    · rw [structEncoder, if_pos hf, ih, members_cons_of_not_present (present_eq_false.mpr hf)]
    · have hf' := present_of_not hf
      have hs := sepBy_structEncoder n rest fs f _ hf' le_rfl
      obtain ⟨bs, hbs⟩ : ∃ bs, f.encode ++ (structEncoder (ch ',') fs ++ rest) = ch '"' :: bs :=
        ⟨_, rfl⟩
      rw [structEncoder, if_neg hf, List.cons_append, List.append_assoc, value, if_pos rfl, items]
      rw [hbs] at hs ⊢
      rw [skipSpace_cons (c := '"') (by decide)]
      simp only [if_neg (show ch '"' ≠ ch '}' by decide), hs, Option.map_some]

/-- A brace opens the object. -/
theorem structEncoder_head (fs : List StructField) :
    ∃ bs, structEncoder (ch '{') fs = ch '{' :: bs := by
  induction fs with
  | nil => exact ⟨_, rfl⟩
  | cons f fs ih =>
    rw [structEncoder]
    split_ifs
    · exact ih
    · exact ⟨_, rfl⟩

/-- The decoder reads back what was encoded. -/
theorem parse_encode (fs : List StructField) : parse (encode fs) = some (.obj (members fs)) := by
  have hs : skipSpace (encode fs) = encode fs := by
    obtain ⟨bs, hbs⟩ := structEncoder_head fs
    rw [encode, hbs]
    exact skipSpace_cons (c := '{') (by decide) _
  rw [parse, hs, encode, maxNestingDepth, value_structEncoder]
  rfl

/-- The names that are read are those of the fields that are present. -/
theorem keys_members {fs : List StructField} (hv : ∀ f ∈ fs, ValidString f.name) :
    (members fs).map (·.1) = (fs.filter StructField.present).map (·.name) := by
  rw [members, List.map_map]
  exact List.map_congr_left fun f hf => hv f (List.mem_of_mem_filter hf)

/-- Where the names of the fields are distinct, the decoder sees each field that is
    not left out under its name, and nothing under the name of another. -/
theorem ofList_members {fs : List StructField} (hv : ∀ f ∈ fs, ValidString f.name)
    (hn : (fs.map (·.name)).Nodup) {f : StructField} (hf : f ∈ fs) :
    GoMap.ofList (members fs) f.name = if f.present then some f.value.toJson else none := by
  split_ifs with hp
  · refine GoMap.ofList_of_mem ?_ ?_
    · rw [keys_members hv]
      exact hn.sublist (List.filter_sublist.map _)
    · exact List.mem_map.mpr ⟨f, List.mem_filter.mpr ⟨hf, hp⟩, by rw [toValidUTF8, hv f hf]⟩
  · refine GoMap.ofList_of_notMem ?_
    rw [keys_members hv]
    intro h
    obtain ⟨g, hg, he⟩ := List.mem_map.mp h
    obtain ⟨hg, hgp⟩ := List.mem_filter.mp hg
    obtain rfl := List.inj_on_of_nodup_map hn hg hf he
    exact hp hgp

/-! ## What is written -/

/-- No byte below `0x20`, and none that opens or closes a tag or opens an entity. -/
def plain (b : UInt8) : Bool := 0x20 ≤ b.toNat && !(b == ch '<' || b == ch '>' || b == ch '&')

/-- Valid UTF-8, of plain bytes. -/
def Clean (x : GoString) : Prop := ValidString x ∧ ∀ b ∈ x, plain b

/-- Clean texts may be joined. -/
theorem Clean.append {x y : GoString} (hx : Clean x) (hy : Clean y) : Clean (x ++ y) := by
  obtain ⟨cs, rfl⟩ := validString_iff.mp hx.1
  obtain ⟨ds, rfl⟩ := validString_iff.mp hy.1
  refine ⟨validString_iff.mpr ⟨cs ++ ds, (List.flatMap_append ..).symm⟩, ?_⟩
  intro b hb
  exact (List.mem_append.mp hb).elim (hx.2 b) (hy.2 b)

theorem Clean.cons {b : UInt8} {x : GoString} (hb : Clean [b]) (hx : Clean x) : Clean (b :: x) :=
  hb.append hx

/-- Plain bytes of ASCII are clean. -/
theorem clean_of_ascii {x : GoString} (h : ∀ b ∈ x, b.toNat < 0x80 ∧ plain b) : Clean x :=
  ⟨validString_of_ascii fun b hb => (h b hb).1, fun b hb => (h b hb).2⟩

theorem clean_of_all {x : GoString} (h : x.all fun b => b.toNat < 0x80 && plain b) : Clean x := by
  refine clean_of_ascii fun b hb => ?_
  have := List.all_eq_true.mp h b hb
  simpa using this

/-- What is not plain is escaped. -/
theorem clean_escapeByte {b : UInt8} (hb : b.toNat < 0x80) : Clean (escapeByte b) := by
  have hall : ∀ n < 0x80, (escapeByte (.ofNat n)).all fun b => b.toNat < 0x80 && plain b := by
    decide +kernel
  have := hall b.toNat hb
  rw [UInt8.ofNat_toNat] at this
  exact clean_of_all this

/-- The bytes of a rune above ASCII are all above ASCII. -/
theorem le_toNat_of_mem_encodeRune {c : Char} (h : 0x80 ≤ c.toNat) :
    ∀ b ∈ encodeRune c, 0x80 ≤ b.toNat := by
  have hc := toNat_lt c
  have byte : ∀ n, 0x80 ≤ n → n < 256 → 0x80 ≤ (UInt8.ofNat n).toNat := by
    intro n hn hlt
    rwa [toNat_ofNat hlt]
  rw [encodeRune, if_neg (by omega)]
  split_ifs with h₂ h₃
  · simp only [List.mem_cons, List.not_mem_nil, or_false, forall_eq_or_imp, forall_eq]
    exact ⟨byte _ (by omega) (by omega), byte _ (by omega) (by omega)⟩
  · simp only [List.mem_cons, List.not_mem_nil, or_false, forall_eq_or_imp, forall_eq]
    exact ⟨byte _ (by omega) (by omega), byte _ (by omega) (by omega),
      byte _ (by omega) (by omega)⟩
  · simp only [List.mem_cons, List.not_mem_nil, or_false, forall_eq_or_imp, forall_eq]
    exact ⟨byte _ (by omega) (by omega), byte _ (by omega) (by omega),
      byte _ (by omega) (by omega), byte _ (by omega) (by omega)⟩

theorem plain_of_le {b : UInt8} (h : 0x80 ≤ b.toNat) : plain b := by
  have hne : ∀ c : Char, c.toNat < 0x80 → b ≠ ch c := by
    rintro c hc rfl
    rw [ch, toNat_ofNat (by omega)] at h
    omega
  simp [plain, hne '<' (by decide), hne '>' (by decide), hne '&' (by decide)]
  omega

/-- A rune of several bytes is written as it is, or escaped. -/
theorem clean_long {b : UInt8} {bs rest : GoString} {c : Char}
    (h : decodeLong b bs = some (c, rest)) :
    Clean (if c = '\u2028' ∨ c = '\u2029' then lit "\\u202" ++ [hexDigit (c.toNat % 16)]
      else (b :: bs).take (bs.length + 1 - rest.length)) := by
  obtain ⟨he, hc⟩ := decodeLong_eq_some h
  split_ifs with hs
  · rcases hs with rfl | rfl
    · exact clean_of_all (by decide)
    · exact clean_of_all (by decide)
  · have hl := congrArg List.length he
    rw [List.length_cons, List.length_append] at hl
    rw [he, hl, Nat.add_sub_cancel, List.take_left]
    refine ⟨validString_iff.mpr ⟨[c], by simp [encodeRunes]⟩, ?_⟩
    exact fun b hb => plain_of_le (le_toNat_of_mem_encodeRune hc b hb)

/-- What is written of a string is clean, whatever bytes it has. -/
theorem clean_escapeAux (n : Nat) (s : GoString) : Clean (escapeAux n s) := by
  induction n generalizing s with
  | zero => exact clean_of_all (by simp [escapeAux])
  | succ n ih =>
    rcases s with _ | ⟨b, bs⟩
    · exact clean_of_all (by simp [escapeAux])
    rw [escapeAux]
    split_ifs with hb
    · exact (clean_escapeByte hb).append (ih bs)
    · cases hd : decodeLong b bs with
      | none => exact Clean.append (clean_of_all (by decide)) (ih bs)
      | some x => exact (clean_long hd).append (ih x.2)

theorem clean_appendString (s : GoString) : Clean (appendString s) :=
  .cons (clean_of_all (by decide)) ((clean_escapeAux _ s).append (clean_of_all (by decide)))

/-- A number is clean. -/
theorem clean_formatInt (n : Int) : Clean (formatInt n) := by
  have hdigit : ∀ n < 256, isDigit (.ofNat n) → (UInt8.ofNat n).toNat < 0x80 ∧
      plain (.ofNat n) := by decide +kernel
  have hn : Clean (formatNat n.natAbs) := clean_of_ascii fun b hb =>
    forall_byte (P := fun b => isDigit b → b.toNat < 0x80 ∧ plain b) hdigit b
      (isDigit_formatNat _ b hb)
  rw [formatInt]
  split_ifs
  · exact .cons (clean_of_all (by decide)) hn
  · exact hn

/-- A field is its name, a colon and its value. -/
theorem clean_field (f : StructField) : Clean f.encode := by
  refine (clean_appendString f.name).append (.cons (clean_of_all (by decide)) ?_)
  cases f.value with
  | str s => exact clean_appendString s
  | int n => exact clean_formatInt n

/-- An object is clean. -/
theorem clean_structEncoder (fs : List StructField) {next : UInt8} (h : Clean [next]) :
    Clean (structEncoder next fs) := by
  induction fs generalizing next with
  | nil =>
    rw [structEncoder]
    split_ifs
    · exact clean_of_all (by decide)
    · exact clean_of_all (by decide)
  | cons f fs ih =>
    rw [structEncoder]
    split_ifs
    · exact ih h
    · exact .cons h ((clean_field f).append (ih (clean_of_all (by decide))))

/-- What is encoded is a clean text, and a newline. -/
theorem clean_encode (fs : List StructField) : ∃ x, encode fs = x ++ [ch '\n'] ∧ Clean x :=
  ⟨_, rfl, clean_structEncoder fs (clean_of_all (by decide))⟩

end Go
