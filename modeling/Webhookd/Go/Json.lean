import Webhookd.Go.Strings

/-!
# JSON texts

The texts `encoding/json` accepts, and the values it sees in them. A string,
also the name of a member, is kept as the decoder delivers it: escapes are
resolved, and what is not a rune (a byte outside UTF-8, half of a surrogate
pair) is replaced, so that it is always valid UTF-8 (`parse_wf`). A number is
kept as it is written, as nothing reads it.

The parser is by recursion on the depth the decoder allows, `maxNestingDepth`;
within an array or an object it goes on as long as there are bytes to read,
and giving it more reads than there are bytes changes nothing (`sepBy_fuel`,
`stringAux_fuel`).
-/

namespace Go

/-- A JSON value. -/
inductive Json
  | null
  | bool (b : Bool)
  | num (literal : GoString)
  | str (s : GoString)
  | arr (vs : List Json)
  | obj (ms : List (GoString × Json))

/-- The byte of an ASCII character. -/
def ch (c : Char) : UInt8 := .ofNat c.toNat

/-- Skips the white space of JSON. -/
def skipSpace (bs : GoString) : GoString :=
  bs.dropWhile fun b => b == ch ' ' || b == ch '\t' || b == ch '\r' || b == ch '\n'

/-! ## Strings -/

/-- Four hexadecimal digits, and what follows them. -/
def hex4 : GoString → Option (Nat × GoString)
  | a :: b :: c :: d :: bs => do
    let n := ((← fromHexChar a) * 16 + (← fromHexChar b)) * 16 + (← fromHexChar c)
    pure (n * 16 + (← fromHexChar d), bs)
  | _ => none

/-- An escape `\uXXXX`, and what follows it. -/
def getu4 : GoString → Option (Nat × GoString)
  | a :: b :: bs => if a = ch '\\' ∧ b = ch 'u' then hex4 bs else none
  | _ => none

/-- The rune of an escape `\u`: surrogates stand for one rune in pairs, and for
    the replacement character otherwise. -/
def unicodeEscape (bs : GoString) : Option (Char × GoString) := do
  let (r, bs) ← hex4 bs
  if 0xD800 ≤ r ∧ r < 0xE000 then
    match getu4 bs with
    | some (r', bs') =>
      if r < 0xDC00 ∧ 0xDC00 ≤ r' ∧ r' < 0xE000 then
        pure (.ofNat (0x10000 + (r - 0xD800) * 1024 + (r' - 0xDC00)), bs')
      -- The second escape is not part of a pair, so it is read again by itself.
      else pure (runeError, bs)
    | none => pure (runeError, bs)
  else pure (.ofNat r, bs)

/-- The rune of an escape of one character. -/
def simpleEscape (b : UInt8) : Option Char :=
  if b = ch '"' then some '"' else if b = ch '\\' then some '\\' else if b = ch '/' then some '/'
  else if b = ch 'b' then some '\x08' else if b = ch 'f' then some '\x0c'
  else if b = ch 'n' then some '\n' else if b = ch 'r' then some '\r'
  else if b = ch 't' then some '\t' else none

/-- The next rune of a string that goes on with `b :: bs`. -/
def stringRune (b : UInt8) (bs : GoString) : Option (Char × GoString) :=
  if b = ch '\\' then
    match bs with
    | [] => none
    | e :: bs => if e = ch 'u' then unicodeEscape bs else (simpleEscape e).map (·, bs)
  else if b.toNat < 0x20 then none
  else some (decodeRune b bs)

/-- The runes of a string up to its closing quote, reading at most `n` of them. -/
def stringAux : Nat → GoString → Option (List Char × GoString)
  | n + 1, b :: bs =>
    if b = ch '"' then some ([], bs)
    else do
      let (c, bs) ← stringRune b bs
      let (cs, bs) ← stringAux n bs
      pure (c :: cs, bs)
  | _, _ => none

/-- A string after its opening quote. -/
def string (bs : GoString) : Option (GoString × GoString) :=
  (stringAux bs.length bs).map fun (cs, bs) => (encodeRunes cs, bs)

/-! ## Numbers -/

/-- An ASCII digit. -/
def isDigit (b : UInt8) : Bool := 48 ≤ b.toNat && b.toNat ≤ 57

/-- Skips one or more digits. -/
def skipDigits (bs : GoString) : Option GoString :=
  if bs.head?.any isDigit then some (bs.dropWhile isDigit) else none

/-- Skips a fraction, if there is one. -/
def skipFraction : GoString → Option GoString
  | b :: bs => if b = ch '.' then skipDigits bs else some (b :: bs)
  | [] => some []

/-- Skips an exponent, if there is one. -/
def skipExponent : GoString → Option GoString
  | e :: bs =>
    if e = ch 'e' ∨ e = ch 'E' then
      match bs with
      | s :: bs' => if s = ch '+' ∨ s = ch '-' then skipDigits bs' else skipDigits bs
      | [] => none
    else some (e :: bs)
  | [] => some []

/-- Skips the integer part of a number: no digit follows a leading zero. -/
def skipInteger : GoString → Option GoString
  | b :: bs => if b = ch '0' then some bs else skipDigits (b :: bs)
  | [] => none

/-- A number, as it is written, and what follows it. -/
def number (bs : GoString) : Option (GoString × GoString) := do
  let rest ← skipInteger (if bs.head? = some (ch '-') then bs.tail else bs)
  let rest ← skipFraction rest
  let rest ← skipExponent rest
  pure (bs.take (bs.length - rest.length), rest)

/-! ## Values -/

/-- The values that hold no others. -/
def scalarValue (bs : GoString) : Option (Json × GoString) :=
  match bs with
  | [] => none
  | b :: rest =>
    if b = ch '"' then (string rest).map fun (s, bs) => (.str s, bs)
    else if b = ch 'n' then ((lit "null").isPrefixOf? bs).map (.null, ·)
    else if b = ch 't' then ((lit "true").isPrefixOf? bs).map (.bool true, ·)
    else if b = ch 'f' then ((lit "false").isPrefixOf? bs).map (.bool false, ·)
    else (number bs).map fun (n, bs) => (.num n, bs)

section SepBy

variable {α : Type} (item : GoString → Option (α × GoString)) (close : UInt8)

/-- One or more items separated by commas, up to a closing byte, reading at most
    `n` of them. -/
def sepBy : Nat → GoString → Option (List α × GoString)
  | 0, _ => none
  | n + 1, bs => do
    let (v, bs) ← item (skipSpace bs)
    match skipSpace bs with
    | [] => none
    | b :: bs =>
      if b = ch ',' then do
        let (vs, bs) ← sepBy n bs
        pure (v :: vs, bs)
      else if b = close then some ([v], bs) else none

/-- The items between an opening byte and `close`. -/
def items (bs : GoString) : Option (List α × GoString) :=
  match skipSpace bs with
  | [] => none
  | b :: rest => if b = close then some ([], rest) else sepBy item close bs.length bs

end SepBy

/-- A member of an object: its name, a colon and its value. -/
def member (value : GoString → Option (Json × GoString)) (bs : GoString) :
    Option ((GoString × Json) × GoString) :=
  match bs with
  | [] => none
  | b :: bs =>
    if b = ch '"' then do
      let (name, bs) ← string bs
      match skipSpace bs with
      | [] => none
      | b :: bs =>
        if b = ch ':' then do
          let (v, bs) ← value (skipSpace bs)
          pure ((name, v), bs)
        else none
    else none

/-- A value, with at most `d` arrays and objects around another. -/
def value : Nat → GoString → Option (Json × GoString)
  | 0, bs => scalarValue bs
  | d + 1, bs =>
    match bs with
    | [] => none
    | b :: rest =>
      if b = ch '{' then
        (items (member (value d)) (ch '}') rest).map fun (ms, bs) => (.obj ms, bs)
      else if b = ch '[' then (items (value d) (ch ']') rest).map fun (vs, bs) => (.arr vs, bs)
      else scalarValue bs

/-- How deep the decoder lets arrays and objects nest. -/
def maxNestingDepth : Nat := 10000

/-- The value of a JSON text, if it is one. -/
def parse (body : GoString) : Option Json := do
  let (v, rest) ← value maxNestingDepth (skipSpace body)
  if skipSpace rest = [] then some v else none

/-! ## Reading makes progress -/

/-- The reader `p` leaves less than it is given. -/
def Consumes {α : Type} (p : GoString → Option (α × GoString)) : Prop :=
  ∀ {bs a rest}, p bs = some (a, rest) → rest.length < bs.length

/-- Skipping white space does not add to what is left. -/
theorem length_skipSpace_le (bs : GoString) : (skipSpace bs).length ≤ bs.length :=
  (List.dropWhile_sublist _).length_le

theorem length_decodeRune_le (b : UInt8) (bs : GoString) :
    (decodeRune b bs).2.length ≤ bs.length := by
  -- An encoding of two, three or four bytes takes its tail from `bs`.
  have long : ∀ x, decodeLong b bs = some x → x.2.length ≤ bs.length := by
    intro x hx
    unfold decodeLong at hx
    split_ifs at hx
    · unfold decode2 at hx
      split at hx
      · simp only [Option.bind_eq_bind, Option.bind_eq_some_iff] at hx
        grind
      · exact absurd hx (by simp)
    · unfold decode3 at hx
      split at hx
      · simp only [Option.bind_eq_bind, Option.bind_eq_some_iff] at hx
        grind
      · exact absurd hx (by simp)
    · unfold decode4 at hx
      split at hx
      · simp only [Option.bind_eq_bind, Option.bind_eq_some_iff] at hx
        grind
      · exact absurd hx (by simp)
  unfold decodeRune
  split_ifs
  · exact le_rfl
  · cases h : decodeLong b bs with
    | none => simp
    | some x => simpa using long x h

/-- Four digits are read. -/
theorem length_hex4 {bs rest : GoString} {n : Nat} (h : hex4 bs = some (n, rest)) :
    rest.length < bs.length := by
  unfold hex4 at h
  split at h
  · simp only [Option.bind_eq_bind, Option.bind_eq_some_iff, Option.pure_def, Option.some.injEq,
      Prod.mk.injEq] at h
    obtain ⟨_, _, _, _, _, _, _, _, -, rfl⟩ := h
    simp only [List.length_cons]
    omega
  · exact absurd h (by simp)

theorem length_getu4 {bs rest : GoString} {n : Nat} (h : getu4 bs = some (n, rest)) :
    rest.length < bs.length := by
  unfold getu4 at h
  split at h
  · split_ifs at h
    have := length_hex4 h
    simp only [List.length_cons]
    omega
  · exact absurd h (by simp)

/-- An escape is read, or two of them for a surrogate pair. -/
theorem length_unicodeEscape {bs rest : GoString} {c : Char}
    (h : unicodeEscape bs = some (c, rest)) : rest.length < bs.length := by
  simp only [unicodeEscape, Option.bind_eq_bind, Option.bind_eq_some_iff] at h
  obtain ⟨⟨r, bs'⟩, h4, h⟩ := h
  have hl := length_hex4 h4
  split_ifs at h
  · split at h
    · rename_i r' bs'' h4'
      have hl' : bs''.length < bs'.length := length_getu4 h4'
      split_ifs at h <;> simp only [Option.pure_def, Option.some.injEq, Prod.mk.injEq] at h <;>
        obtain ⟨-, rfl⟩ := h <;> omega
    · simp only [Option.pure_def, Option.some.injEq, Prod.mk.injEq] at h
      exact h.2 ▸ hl
  · simp only [Option.pure_def, Option.some.injEq, Prod.mk.injEq] at h
    exact h.2 ▸ hl

/-- Inside a string, a rune is read from its first byte on. -/
theorem length_stringRune {b : UInt8} {bs rest : GoString} {c : Char}
    (h : stringRune b bs = some (c, rest)) : rest.length ≤ bs.length := by
  unfold stringRune at h
  split_ifs at h
  · cases bs with
    | nil => exact absurd h (by simp)
    | cons e bs =>
      simp only at h
      split_ifs at h
      · have := length_unicodeEscape h
        simp only [List.length_cons]
        omega
      · simp only [Option.map_eq_some_iff, Prod.mk.injEq] at h
        obtain ⟨_, _, -, rfl⟩ := h
        simp
  · simp only [Option.some.injEq] at h
    have := length_decodeRune_le b bs
    rwa [h] at this

/-- A string is read to the quote that ends it. -/
theorem length_stringAux : ∀ (n : Nat) {bs : GoString} {cs : List Char} {rest : GoString},
    stringAux n bs = some (cs, rest) → rest.length < bs.length
  | 0, _, _, _, h => by simp [stringAux] at h
  | _ + 1, [], _, _, h => by simp [stringAux] at h
  | n + 1, b :: bs, _, _, h => by
    rw [stringAux] at h
    split_ifs at h
    · simp only [Option.some.injEq, Prod.mk.injEq] at h
      simp [h.2]
    · simp only [Option.bind_eq_bind, Option.bind_eq_some_iff, Option.pure_def, Option.some.injEq,
        Prod.mk.injEq] at h
      obtain ⟨⟨_, bs₁⟩, h₁, ⟨_, bs₂⟩, h₂, -, rfl⟩ := h
      have hl₁ : bs₁.length ≤ bs.length := length_stringRune h₁
      have hl₂ : bs₂.length < bs₁.length := length_stringAux n h₂
      simp only [List.length_cons]
      omega

/-- Reading a string more often than it has bytes changes nothing. -/
theorem stringAux_fuel : ∀ (n : Nat) {m : Nat} {bs : GoString}, bs.length ≤ n → bs.length ≤ m →
    stringAux n bs = stringAux m bs
  | n, m, [], _, _ => by cases n <;> cases m <;> rfl
  | n + 1, m + 1, b :: bs, hn, hm => by
    rw [stringAux, stringAux]
    split_ifs
    · rfl
    · cases h : stringRune b bs with
      | none => rfl
      | some x =>
        obtain ⟨c, rest⟩ := x
        have := length_stringRune h
        simp only [List.length_cons] at hn hm
        simp only [Option.bind_eq_bind, Option.bind_some]
        rw [stringAux_fuel n (m := m) (by omega) (by omega)]

/-- A string has at least its quotes. -/
theorem consumes_string : Consumes string := by
  intro bs s rest h
  simp only [string, Option.map_eq_some_iff, Prod.mk.injEq] at h
  obtain ⟨⟨cs, r⟩, h, -, rfl⟩ := h
  exact length_stringAux _ h

/-- A literal is read. -/
theorem consumes_prefix {α : Type} {p : GoString} (hp : p ≠ []) (a : α) :
    Consumes fun bs => (p.isPrefixOf? bs).map (a, ·) := by
  intro bs a' rest h
  simp only [Option.map_eq_some_iff, Prod.mk.injEq, List.isPrefixOf?_eq_some_iff_append_eq] at h
  obtain ⟨r, rfl, -, rfl⟩ := h
  have := List.length_pos_iff.2 hp
  rw [List.length_append]
  omega

/-- At least one digit is read. -/
theorem length_skipDigits {bs rest : GoString} (h : skipDigits bs = some rest) :
    rest.length < bs.length := by
  unfold skipDigits at h
  split_ifs at h with hd
  simp only [Option.some.injEq] at h
  cases bs with
  | nil => simp at hd
  | cons b bs =>
    have hb : isDigit b = true := by simpa using hd
    rw [List.dropWhile_cons_of_pos hb] at h
    have := (List.dropWhile_sublist (l := bs) isDigit).length_le
    rw [h] at this
    simp only [List.length_cons]
    omega

/-- There may be no fraction. -/
theorem length_skipFraction {bs rest : GoString} (h : skipFraction bs = some rest) :
    rest.length ≤ bs.length := by
  unfold skipFraction at h
  split at h
  · split_ifs at h
    · have := length_skipDigits h
      simp only [List.length_cons]
      omega
    · simp only [Option.some.injEq] at h
      rw [← h]
  · simp only [Option.some.injEq] at h
    simp [← h]

/-- There may be no exponent. -/
theorem length_skipExponent {bs rest : GoString} (h : skipExponent bs = some rest) :
    rest.length ≤ bs.length := by
  unfold skipExponent at h
  split at h
  · split_ifs at h
    · split at h
      · split_ifs at h
        all_goals
          have hle := length_skipDigits h
          simp only [List.length_cons] at *
          omega
      · exact absurd h (by simp)
    · simp only [Option.some.injEq] at h
      rw [← h]
  · simp only [Option.some.injEq] at h
    simp [← h]

/-- There is an integer. -/
theorem length_skipInteger {bs rest : GoString} (h : skipInteger bs = some rest) :
    rest.length < bs.length := by
  unfold skipInteger at h
  split at h
  · split_ifs at h
    · simp only [Option.some.injEq] at h
      simp [h]
    · exact length_skipDigits h
  · exact absurd h (by simp)

/-- A number has at least one digit. -/
theorem consumes_number : Consumes number := by
  intro bs n rest h
  simp only [number, Option.bind_eq_bind, Option.bind_eq_some_iff, Option.pure_def,
    Option.some.injEq, Prod.mk.injEq] at h
  obtain ⟨r₁, h₁, r₂, h₂, r₃, h₃, -, rfl⟩ := h
  have hl₁ := length_skipInteger h₁
  have hl₂ := length_skipFraction h₂
  have hl₃ := length_skipExponent h₃
  have : (if bs.head? = some (ch '-') then bs.tail else bs).length ≤ bs.length := by
    split_ifs <;> simp
  omega

/-- A value that has no others inside is read. -/
theorem consumes_scalarValue : Consumes scalarValue := by
  intro bs v rest h
  cases bs with
  | nil => exact absurd h (by simp [scalarValue])
  | cons b bs =>
    simp only [scalarValue] at h
    split_ifs at h
    · simp only [Option.map_eq_some_iff, Prod.mk.injEq] at h
      obtain ⟨⟨s, r⟩, h, -, rfl⟩ := h
      exact lt_trans (consumes_string h) (by simp)
    · exact consumes_prefix (by decide) _ h
    · exact consumes_prefix (by decide) _ h
    · exact consumes_prefix (by decide) _ h
    · simp only [Option.map_eq_some_iff, Prod.mk.injEq] at h
      obtain ⟨⟨n, r⟩, h, -, rfl⟩ := h
      exact consumes_number h

section SepBy

variable {α : Type} {item : GoString → Option (α × GoString)} {close : UInt8}

/-- What the items of a list are read with, and what is left after them. -/
theorem sepBy_spec {P : α → Prop} (hP : ∀ {bs a rest}, item bs = some (a, rest) → P a)
    (hc : Consumes item) : ∀ (n : Nat) {bs : GoString} {vs : List α} {rest : GoString},
    sepBy item close n bs = some (vs, rest) → (∀ v ∈ vs, P v) ∧ rest.length < bs.length
  | 0, _, _, _, h => by simp [sepBy] at h
  | n + 1, bs, _, _, h => by
    simp only [sepBy, Option.bind_eq_bind, Option.bind_eq_some_iff] at h
    obtain ⟨⟨v, bs₁⟩, h₁, h⟩ := h
    have hl₁ : bs₁.length < (skipSpace bs).length := hc h₁
    have hs := length_skipSpace_le bs
    have hs₁ := length_skipSpace_le bs₁
    split at h
    · exact absurd h (by simp)
    · rename_i b bs₂ h₂
      have hl₂ : bs₂.length < (skipSpace bs₁).length := by simp [h₂]
      split_ifs at h
      · simp only [Option.bind_eq_some_iff, Option.pure_def, Option.some.injEq, Prod.mk.injEq] at h
        obtain ⟨⟨vs, bs₃⟩, h₃, rfl, rfl⟩ := h
        obtain ⟨hvs, hl₃ : bs₃.length < bs₂.length⟩ := sepBy_spec hP hc n h₃
        exact ⟨by simpa [hP h₁] using hvs, by dsimp only; omega⟩
      · simp only [Option.some.injEq, Prod.mk.injEq] at h
        obtain ⟨rfl, rfl⟩ := h
        exact ⟨by simpa using hP h₁, by omega⟩

/-- Reading a list more often than it has bytes changes nothing. -/
theorem sepBy_fuel (hc : Consumes item) : ∀ (n : Nat) {m : Nat} {bs : GoString}, bs.length ≤ n →
    bs.length ≤ m → sepBy item close n bs = sepBy item close m bs := by
  -- Without bytes there is no item, as an item takes some.
  have nil : ∀ n, sepBy item close n [] = none := by
    intro n
    cases n with
    | zero => rfl
    | succ n =>
      cases h : item [] with
      | none => simp [sepBy, skipSpace, h]
      | some x =>
        obtain ⟨a, rest⟩ := x
        exact absurd (hc h) (by simp)
  intro n
  induction n with
  | zero =>
    intro m bs hn _
    rw [List.length_eq_zero_iff.1 (Nat.le_zero.1 hn), nil, nil]
  | succ n ih =>
    intro m bs hn hm
    cases m with
    | zero => rw [List.length_eq_zero_iff.1 (Nat.le_zero.1 hm), nil, nil]
    | succ m =>
      have hs := length_skipSpace_le bs
      rw [sepBy, sepBy]
      cases h₁ : item (skipSpace bs) with
      | none => rfl
      | some x =>
        have hl₁ : x.2.length < (skipSpace bs).length := hc (a := x.1) h₁
        have hs₁ := length_skipSpace_le x.2
        simp only [Option.bind_eq_bind, Option.bind_some]
        split
        · rfl
        · rename_i b bs₂ h₂
          have hl₂ : bs₂.length < (skipSpace x.2).length := by simp [h₂]
          rw [ih (m := m) (by omega) (by omega)]

/-- What holds of each item holds of all, and the items are read. -/
theorem items_spec {P : α → Prop} (hP : ∀ {bs a rest}, item bs = some (a, rest) → P a)
    (hc : Consumes item) {bs : GoString} {vs : List α} {rest : GoString}
    (h : items item close bs = some (vs, rest)) : (∀ v ∈ vs, P v) ∧ rest.length < bs.length := by
  unfold items at h
  have hs := length_skipSpace_le bs
  split at h
  · exact absurd h (by simp)
  · rename_i b rest' hb
    split_ifs at h
    · simp only [Option.some.injEq, Prod.mk.injEq] at h
      obtain ⟨rfl, rfl⟩ := h
      have : rest'.length < (skipSpace bs).length := by simp [hb]
      exact ⟨by simp, by omega⟩
    · exact sepBy_spec hP hc _ h

end SepBy

/-! ## Parsed values -/

/-- The strings of a value are valid UTF-8. -/
inductive Json.Wf : Json → Prop
  | null : Wf .null
  | bool (b : Bool) : Wf (.bool b)
  | num (n : GoString) : Wf (.num n)
  | str {s : GoString} : ValidString s → Wf (.str s)
  | arr {vs : List Json} : (∀ v ∈ vs, Wf v) → Wf (.arr vs)
  | obj {ms : List (GoString × Json)} : (∀ m ∈ ms, ValidString m.1) → (∀ m ∈ ms, Wf m.2) →
      Wf (.obj ms)

/-- A string that was read is valid UTF-8. -/
theorem validString_string {bs s rest : GoString} (h : string bs = some (s, rest)) :
    ValidString s := by
  simp only [string, Option.map_eq_some_iff, Prod.mk.injEq] at h
  obtain ⟨⟨cs, r⟩, -, rfl, -⟩ := h
  exact validString_iff.2 ⟨cs, rfl⟩

/-- A value that has no others inside is well formed. -/
theorem scalarValue_wf {bs rest : GoString} {v : Json} (h : scalarValue bs = some (v, rest)) :
    v.Wf := by
  cases bs with
  | nil => exact absurd h (by simp [scalarValue])
  | cons b bs =>
    simp only [scalarValue] at h
    split_ifs at h <;> simp only [Option.map_eq_some_iff, Prod.mk.injEq] at h <;>
      obtain ⟨_, h, rfl, -⟩ := h
    · exact .str (validString_string h)
    · exact .null
    · exact .bool _
    · exact .bool _
    · exact .num _

/-- A name and a value are read, and are well formed. -/
theorem member_spec {value : GoString → Option (Json × GoString)}
    (hv : ∀ {bs v rest}, value bs = some (v, rest) → v.Wf) (hc : Consumes value)
    {bs rest : GoString} {m : GoString × Json} (h : member value bs = some (m, rest)) :
    (ValidString m.1 ∧ m.2.Wf) ∧ rest.length < bs.length := by
  cases bs with
  | nil => exact absurd h (by simp [member])
  | cons b bs =>
    simp only [member] at h
    split_ifs at h
    simp only [Option.bind_eq_bind, Option.bind_eq_some_iff] at h
    obtain ⟨⟨name, bs₁⟩, h₁, h⟩ := h
    have hl₁ : bs₁.length < bs.length := consumes_string h₁
    have hs₁ := length_skipSpace_le bs₁
    split at h
    · exact absurd h (by simp)
    · rename_i b' bs₂ h₂
      have hl₂ : bs₂.length < (skipSpace bs₁).length := by simp [h₂]
      have hs₂ := length_skipSpace_le bs₂
      split_ifs at h
      simp only [Option.bind_eq_some_iff, Option.pure_def, Option.some.injEq, Prod.mk.injEq] at h
      obtain ⟨⟨v, bs₃⟩, h₃, rfl, rfl⟩ := h
      have hl₃ : bs₃.length < (skipSpace bs₂).length := hc h₃
      exact ⟨⟨validString_string h₁, hv h₃⟩, by simp only [List.length_cons]; omega⟩

/-- At every depth, a value that was read is well formed. -/
theorem value_spec : ∀ (d : Nat) {bs rest : GoString} {v : Json},
    value d bs = some (v, rest) → v.Wf ∧ rest.length < bs.length
  | 0, _, _, _, h => ⟨scalarValue_wf h, consumes_scalarValue h⟩
  | _ + 1, [], _, _, h => by simp [value] at h
  | d + 1, b :: bs, _, _, h => by
    -- The values inside are one level less deep.
    have hv : ∀ {bs v rest}, value d bs = some (v, rest) → v.Wf := fun h => (value_spec d h).1
    have hc : Consumes (value d) := fun h => (value_spec d h).2
    simp only [value] at h
    split_ifs at h
    · simp only [Option.map_eq_some_iff, Prod.mk.injEq] at h
      obtain ⟨⟨ms, r⟩, h, rfl, rfl⟩ := h
      obtain ⟨hms, hl⟩ := items_spec (fun h => (member_spec hv hc h).1)
        (fun h => (member_spec hv hc h).2) h
      refine ⟨.obj (fun m hm => (hms m hm).1) fun m hm => (hms m hm).2, ?_⟩
      simp only [List.length_cons]
      omega
    · simp only [Option.map_eq_some_iff, Prod.mk.injEq] at h
      obtain ⟨⟨vs, r⟩, h, rfl, rfl⟩ := h
      obtain ⟨hvs, hl⟩ := items_spec hv hc h
      exact ⟨.arr hvs, by simp only [List.length_cons]; omega⟩
    · exact ⟨scalarValue_wf h, consumes_scalarValue h⟩

/-- The strings of a parsed text are valid UTF-8, whatever the bytes of the text. -/
theorem parse_wf {body : GoString} {v : Json} (h : parse body = some v) : v.Wf := by
  simp only [parse, Option.bind_eq_bind, Option.bind_eq_some_iff] at h
  obtain ⟨⟨v', rest⟩, h, h'⟩ := h
  split_ifs at h'
  simp only [Option.some.injEq] at h'
  exact h' ▸ (value_spec _ h).1

end Go
