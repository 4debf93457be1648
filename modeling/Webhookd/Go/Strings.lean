import Mathlib.Data.List.Basic
import Mathlib.Tactic

/-!
# Go strings

A Go string is a sequence of bytes, usually but not necessarily UTF-8. This
file has the parts of `unicode/utf8`, `strings` and `encoding/hex` that bytes
are read and written with, and maps with strings for keys:

* runes: `encodeRune` and `decodeRune` (a byte that starts no rune decodes to
  the replacement character and has width one), inverse to each other on
  scalar values (`decodeRune_encodeRune`);
* `ValidString`: the strings that are the encoding of some runes;
* `trimSpace`, `toLower` and `foldName` (the case folding of `encoding/json`);
* hexadecimal digits: `hexDecode` is a left inverse of `hexEncode`
  (`hexDecode_hexEncode`), fails on an odd length and on what is no digit
  (`hexDecode_eq_none`), and reads the texts that encode up to case
  (`hexDecode_eq_some`);
* `GoMap`: maps, up to the order of their entries.
-/

namespace Go

/-- A Go string, or a byte slice. -/
abbrev GoString := List UInt8

/-! ## Runes -/

/-- The UTF-8 encoding of a rune. -/
def encodeRune (c : Char) : GoString :=
  if c.toNat < 0x80 then [.ofNat c.toNat]
  else if c.toNat < 0x800 then [.ofNat (0xC0 + c.toNat / 64), .ofNat (0x80 + c.toNat % 64)]
  else if c.toNat < 0x10000 then
    [.ofNat (0xE0 + c.toNat / 4096), .ofNat (0x80 + c.toNat / 64 % 64),
      .ofNat (0x80 + c.toNat % 64)]
  else
    [.ofNat (0xF0 + c.toNat / 262144), .ofNat (0x80 + c.toNat / 4096 % 64),
      .ofNat (0x80 + c.toNat / 64 % 64), .ofNat (0x80 + c.toNat % 64)]

/-- The encoding of a sequence of runes. -/
def encodeRunes (cs : List Char) : GoString := cs.flatMap encodeRune

@[simp] theorem encodeRunes_cons (c : Char) (cs : List Char) :
    encodeRunes (c :: cs) = encodeRune c ++ encodeRunes cs := rfl

/-- A string literal of the source. -/
def lit (s : String) : GoString := encodeRunes s.toList

instance : Coe String GoString := ⟨lit⟩

/-- The replacement character, which stands for a byte that starts no rune. -/
def runeError : Char := '�'

/-- The scalar value `v`, if it is one and not below `lo` (an overlong form). -/
def scalar (lo v : Nat) : Option Char :=
  if h : v.isValidChar then if lo ≤ v then some (.ofNatAux v h) else none else none

/-- The six bits of a continuation byte. -/
def tailBits (b : UInt8) : Option Nat :=
  if 0x80 ≤ b.toNat ∧ b.toNat < 0xC0 then some (b.toNat - 0x80) else none

/-- The runes of two, three and four bytes whose first byte, less its marker
    bits, is `n`. -/
def decode2 (n : Nat) : GoString → Option (Char × GoString)
  | b₁ :: bs => do
    let c ← scalar 0x80 (n * 64 + (← tailBits b₁))
    pure (c, bs)
  | _ => none

@[inherit_doc decode2]
def decode3 (n : Nat) : GoString → Option (Char × GoString)
  | b₁ :: b₂ :: bs => do
    let c ← scalar 0x800 ((n * 64 + (← tailBits b₁)) * 64 + (← tailBits b₂))
    pure (c, bs)
  | _ => none

@[inherit_doc decode2]
def decode4 (n : Nat) : GoString → Option (Char × GoString)
  | b₁ :: b₂ :: b₃ :: bs => do
    let c ← scalar 0x10000
      (((n * 64 + (← tailBits b₁)) * 64 + (← tailBits b₂)) * 64 + (← tailBits b₃))
    pure (c, bs)
  | _ => none

/-- The rune of two or more bytes whose first byte is `b`. -/
def decodeLong (b : UInt8) (bs : GoString) : Option (Char × GoString) :=
  if b.toNat < 0xC0 then none
  else if b.toNat < 0xE0 then decode2 (b.toNat - 0xC0) bs
  else if b.toNat < 0xF0 then decode3 (b.toNat - 0xE0) bs
  else decode4 (b.toNat - 0xF0) bs

/-- The first rune of a nonempty string `b :: bs`, and what follows it. -/
def decodeRune (b : UInt8) (bs : GoString) : Char × GoString :=
  if b.toNat < 0x80 then (.ofNat b.toNat, bs)
  else (decodeLong b bs).getD (runeError, bs)

theorem toNat_lt (c : Char) : c.toNat < 0x110000 := by
  have h := c.valid
  simp only [UInt32.isValidChar, Nat.isValidChar] at h
  rw [Char.toNat]
  omega

theorem toNat_ofNat {n : Nat} (h : n < 256) : (UInt8.ofNat n).toNat = n := by
  rw [UInt8.toNat_ofNat', Nat.mod_eq_of_lt h]

/-- A rune is that of its number. -/
theorem scalar_toNat {lo : Nat} (c : Char) (h : lo ≤ c.toNat) : scalar lo c.toNat = some c := by
  have hv : c.toNat.isValidChar := c.valid
  rw [scalar, dif_pos hv, if_pos h]
  exact congrArg some (Char.ext (UInt32.toNat_inj.1 rfl))

/-- The six bits of a byte that continues a rune. -/
theorem tailBits_ofNat {n : Nat} (h : n < 64) : tailBits (.ofNat (0x80 + n)) = some n := by
  have e : (UInt8.ofNat (0x80 + n)).toNat = 0x80 + n := by
    exact toNat_ofNat (by omega)
  rw [tailBits, e, if_pos (by omega), Nat.add_sub_cancel_left]

section Decode

variable {c : Char} {rest : GoString}

/-- A rune of one byte is decoded. -/
theorem decodeRune_one (h : c.toNat < 0x80) : decodeRune (.ofNat c.toNat) rest = (c, rest) := by
  rw [decodeRune, toNat_ofNat (by omega), if_pos h, Char.ofNat_toNat]

/-- A rune of two bytes is decoded. -/
theorem decodeRune_two (h : ¬c.toNat < 0x80) (h' : c.toNat < 0x800) :
    decodeRune (.ofNat (0xC0 + c.toNat / 64)) (.ofNat (0x80 + c.toNat % 64) :: rest) =
      (c, rest) := by
  have ec : c.toNat / 64 * 64 + c.toNat % 64 = c.toNat := by omega
  rw [decodeRune, decodeLong, toNat_ofNat (by omega), if_neg (by omega), if_neg (by omega),
    if_pos (by omega), decode2, tailBits_ofNat (by omega), Nat.add_sub_cancel_left]
  simp only [Option.bind_eq_bind, Option.bind_some, ec, scalar_toNat c (Nat.not_lt.1 h),
    Option.pure_def, Option.getD_some]

/-- A rune of three bytes is decoded. -/
theorem decodeRune_three (h : ¬c.toNat < 0x800) (h' : c.toNat < 0x10000) :
    decodeRune (.ofNat (0xE0 + c.toNat / 4096))
      (.ofNat (0x80 + c.toNat / 64 % 64) :: .ofNat (0x80 + c.toNat % 64) :: rest) = (c, rest) := by
  have ec : (c.toNat / 4096 * 64 + c.toNat / 64 % 64) * 64 + c.toNat % 64 = c.toNat := by omega
  rw [decodeRune, decodeLong, toNat_ofNat (by omega), if_neg (by omega), if_neg (by omega),
    if_neg (by omega), if_pos (by omega), decode3, tailBits_ofNat (by omega),
    tailBits_ofNat (by omega), Nat.add_sub_cancel_left]
  simp only [Option.bind_eq_bind, Option.bind_some, ec, scalar_toNat c (Nat.not_lt.1 h),
    Option.pure_def, Option.getD_some]

/-- A rune of four bytes is decoded. -/
theorem decodeRune_four (h : ¬c.toNat < 0x10000) :
    decodeRune (.ofNat (0xF0 + c.toNat / 262144))
      (.ofNat (0x80 + c.toNat / 4096 % 64) :: .ofNat (0x80 + c.toNat / 64 % 64) ::
        .ofNat (0x80 + c.toNat % 64) :: rest) = (c, rest) := by
  have hc := toNat_lt c
  have ec : ((c.toNat / 262144 * 64 + c.toNat / 4096 % 64) * 64 + c.toNat / 64 % 64) * 64 +
      c.toNat % 64 = c.toNat := by omega
  rw [decodeRune, decodeLong, toNat_ofNat (by omega), if_neg (by omega), if_neg (by omega),
    if_neg (by omega), if_neg (by omega), decode4, tailBits_ofNat (by omega),
    tailBits_ofNat (by omega), tailBits_ofNat (by omega), Nat.add_sub_cancel_left]
  simp only [Option.bind_eq_bind, Option.bind_some, ec, scalar_toNat c (Nat.not_lt.1 h),
    Option.pure_def, Option.getD_some]

variable (c rest) in
/-- Decoding the encoding of a rune gives it back, and leaves what follows. -/
theorem decodeRune_encodeRune :
    ∃ b bs, encodeRune c ++ rest = b :: bs ∧ decodeRune b bs = (c, rest) := by
  unfold encodeRune
  split_ifs with h₁ h₂ h₃
  · exact ⟨_, _, rfl, decodeRune_one h₁⟩
  · exact ⟨_, _, rfl, decodeRune_two h₁ h₂⟩
  · exact ⟨_, _, rfl, decodeRune_three h₂ h₃⟩
  · exact ⟨_, _, rfl, decodeRune_four h₃⟩

end Decode

theorem encodeRune_ne_nil (c : Char) : encodeRune c ≠ [] := by
  obtain ⟨b, bs, h, -⟩ := decodeRune_encodeRune c []
  rw [List.append_nil] at h
  simp [h]

/-- A rune has four bytes at most. -/
theorem length_encodeRune_le (c : Char) : (encodeRune c).length ≤ 4 := by
  unfold encodeRune
  split_ifs <;> simp

/-- The runes of a string, reading it at most `n` times. -/
def runesAux : Nat → GoString → List Char
  | n + 1, b :: bs => (decodeRune b bs).1 :: runesAux n (decodeRune b bs).2
  | _, _ => []

/-- The runes of a string, as ranging over it yields them. -/
def runes (s : GoString) : List Char := runesAux s.length s

theorem length_runesAux_le : ∀ (n : Nat) (s : GoString), (runesAux n s).length ≤ n
  | 0, _ => by simp [runesAux]
  | _ + 1, [] => by simp [runesAux]
  | n + 1, b :: bs => Nat.succ_le_succ (length_runesAux_le n (decodeRune b bs).2)

/-- A string has at most as many runes as bytes. -/
theorem length_runes_le (s : GoString) : (runes s).length ≤ s.length := length_runesAux_le ..

/-- Runes that are encoded are decoded, if there is fuel for their bytes. -/
theorem runesAux_encodeRunes (cs : List Char) :
    ∀ n, (encodeRunes cs).length ≤ n → runesAux n (encodeRunes cs) = cs := by
  -- On the runes: each takes at least one byte, so `n` reads are enough for the rest.
  induction cs with
  | nil => intro n _; cases n <;> rfl
  | cons c cs ih =>
    intro n hn
    obtain ⟨b, bs, h, hd⟩ := decodeRune_encodeRune c (encodeRunes cs)
    have hl : (encodeRunes cs).length < (encodeRunes (c :: cs)).length := by
      have := List.length_pos_iff.2 (encodeRune_ne_nil c)
      rw [encodeRunes_cons, List.length_append]
      omega
    obtain ⟨n, rfl⟩ := Nat.exists_eq_succ_of_ne_zero (show n ≠ 0 by omega)
    rw [encodeRunes_cons, h, runesAux, hd, ih n (by omega)]

/-- Ranging over the encoding of some runes yields them. -/
theorem runes_encodeRunes (cs : List Char) : runes (encodeRunes cs) = cs :=
  runesAux_encodeRunes cs _ le_rfl

/-- The string is valid UTF-8: it is the encoding of its runes. -/
def ValidString (s : GoString) : Prop := encodeRunes (runes s) = s

instance : DecidablePred ValidString := fun s => inferInstanceAs (Decidable (_ = s))

/-- A string is valid if it is the encoding of some runes. -/
theorem validString_iff {s : GoString} : ValidString s ↔ ∃ cs, s = encodeRunes cs :=
  ⟨fun h => ⟨_, h.symm⟩, fun ⟨cs, h⟩ => by rw [ValidString, h, runes_encodeRunes]⟩

/-- Literals are valid. -/
theorem validString_lit (s : String) : ValidString (lit s) := validString_iff.2 ⟨_, rfl⟩

/-- Different literals are different strings. -/
theorem lit_injective : Function.Injective lit := by
  intro s t h
  have hr : runes (lit s) = runes (lit t) := congrArg runes h
  rw [lit, lit, runes_encodeRunes, runes_encodeRunes] at hr
  exact String.toList_injective hr

theorem toNat_ofNat_of_isValidChar {n : Nat} (h : n.isValidChar) : (Char.ofNat n).toNat = n := by
  rw [Char.ofNat, dif_pos h]
  rfl

/-- A fact about each element of a list, by evaluation. -/
theorem forall_mem_of_all {α : Type} {p : α → Prop} [DecidablePred p] {l : List α}
    (h : l.all p = true) : ∀ a ∈ l, p a :=
  fun a ha => of_decide_eq_true (List.all_eq_true.mp h a ha)

/-- What holds of all numbers below 256 holds of all bytes. -/
theorem forall_byte {P : UInt8 → Prop} (h : ∀ n < 256, P (.ofNat n)) (b : UInt8) : P b := by
  have hb := h b.toNat b.toNat_lt
  rwa [UInt8.ofNat_toNat] at hb

/-- What holds of the characters of ASCII can be checked one by one. -/
theorem forall_ascii {P : Char → Prop} (h : ∀ n < 0x80, P (.ofNat n)) {c : Char}
    (hc : c.toNat < 0x80) : P c := by
  have hp := h c.toNat hc
  rwa [Char.ofNat_toNat] at hp

theorem encodeRune_of_ascii {c : Char} (h : c.toNat < 0x80) : encodeRune c = [.ofNat c.toNat] :=
  if_pos h

/-- The bytes of ASCII are the encodings of runes. -/
theorem encodeRunes_of_ascii {s : GoString} (h : ∀ b ∈ s, b.toNat < 0x80) :
    encodeRunes (s.map fun b => Char.ofNat b.toNat) = s := by
  induction s with
  | nil => rfl
  | cons b s ih =>
    obtain ⟨hb, hs⟩ := List.forall_mem_cons.mp h
    have hc : (Char.ofNat b.toNat).toNat = b.toNat :=
      toNat_ofNat_of_isValidChar (.inl (by omega))
    rw [List.map_cons, encodeRunes_cons, ih hs, encodeRune_of_ascii (by rwa [hc]), hc,
      UInt8.ofNat_toNat]
    rfl

/-- A string of ASCII is valid. -/
theorem validString_of_ascii {s : GoString} (h : ∀ b ∈ s, b.toNat < 0x80) : ValidString s :=
  validString_iff.2 ⟨_, (encodeRunes_of_ascii h).symm⟩

/-- The encoding of a rune outside ASCII has a byte outside ASCII. -/
theorem exists_high_byte {c : Char} (h : 0x80 ≤ c.toNat) : ∃ b ∈ encodeRune c, 0x80 ≤ b.toNat := by
  -- The last one, which has the lowest six bits.
  refine ⟨.ofNat (0x80 + c.toNat % 64), ?_, ?_⟩
  · unfold encodeRune
    split_ifs <;> first | omega | simp
  · rw [toNat_ofNat (by omega)]
    omega

/-! ## Trimming and case -/

/-- The white space of `unicode.IsSpace`. -/
def spaces : List Char :=
  ['\t', '\n', '\x0b', '\x0c', '\r', ' ', '\u0085', '\u00a0', '\u1680', '\u2000', '\u2001',
    '\u2002', '\u2003', '\u2004', '\u2005', '\u2006', '\u2007', '\u2008', '\u2009', '\u200a',
    '\u2028', '\u2029', '\u202f', '\u205f', '\u3000']

/-- What is left of `s` after one of the prefixes `ps`, if it has one. -/
def cutAny (ps : List GoString) (s : GoString) : Option GoString := ps.findSome? (·.isPrefixOf? s)

/-- Drops prefixes among `ps` from `s`, at most `n` times. -/
def trimPrefixes (ps : List GoString) : Nat → GoString → GoString
  | 0, s => s
  | n + 1, s =>
    match cutAny ps s with
    | some s' => trimPrefixes ps n s'
    | none => s

/-- `strings.TrimSpace`: a rune is cut off an end exactly when the string
    starts (or ends) with its encoding. -/
def trimSpace (s : GoString) : GoString :=
  let l := trimPrefixes (spaces.map encodeRune) s.length s
  (trimPrefixes (spaces.map fun c => (encodeRune c).reverse) l.length l.reverse).reverse

/-- The lower case of the runes that have one, outside ASCII: the runes from
    `lo` to `hi` by steps of `stride`, and the distance to their lower case. -/
def caseRanges : List (Nat × Nat × Nat × Int) :=
  [(0xC0, 0xD6, 1, 32), (0xD8, 0xDE, 1, 32), (0x100, 0x12E, 2, 1), (0x130, 0x130, 1, -199),
   (0x132, 0x136, 2, 1), (0x139, 0x147, 2, 1), (0x14A, 0x176, 2, 1), (0x178, 0x178, 1, -121),
   (0x179, 0x17D, 2, 1), (0x181, 0x181, 1, 210), (0x182, 0x184, 2, 1), (0x186, 0x186, 1, 206),
   (0x187, 0x187, 1, 1), (0x189, 0x18A, 1, 205), (0x18B, 0x18B, 1, 1), (0x18E, 0x18E, 1, 79),
   (0x18F, 0x18F, 1, 202), (0x190, 0x190, 1, 203), (0x191, 0x191, 1, 1), (0x193, 0x193, 1, 205),
   (0x194, 0x194, 1, 207), (0x196, 0x196, 1, 211), (0x197, 0x197, 1, 209), (0x198, 0x198, 1, 1),
   (0x19C, 0x19C, 1, 211), (0x19D, 0x19D, 1, 213), (0x19F, 0x19F, 1, 214), (0x1A0, 0x1A4, 2, 1),
   (0x1A6, 0x1A6, 1, 218), (0x1A7, 0x1A7, 1, 1), (0x1A9, 0x1A9, 1, 218), (0x1AC, 0x1AC, 1, 1),
   (0x1AE, 0x1AE, 1, 218), (0x1AF, 0x1AF, 1, 1), (0x1B1, 0x1B2, 1, 217), (0x1B3, 0x1B5, 2, 1),
   (0x1B7, 0x1B7, 1, 219), (0x1B8, 0x1B8, 1, 1), (0x1BC, 0x1BC, 1, 1), (0x1C4, 0x1C4, 1, 2),
   (0x1C5, 0x1C5, 1, 1), (0x1C7, 0x1C7, 1, 2), (0x1C8, 0x1C8, 1, 1), (0x1CA, 0x1CA, 1, 2),
   (0x1CB, 0x1DB, 2, 1), (0x1DE, 0x1EE, 2, 1), (0x1F1, 0x1F1, 1, 2), (0x1F2, 0x1F4, 2, 1),
   (0x1F6, 0x1F6, 1, -97), (0x1F7, 0x1F7, 1, -56), (0x1F8, 0x21E, 2, 1), (0x220, 0x220, 1, -130),
   (0x222, 0x232, 2, 1), (0x23A, 0x23A, 1, 10795), (0x23B, 0x23B, 1, 1), (0x23D, 0x23D, 1, -163),
   (0x23E, 0x23E, 1, 10792), (0x241, 0x241, 1, 1), (0x243, 0x243, 1, -195), (0x244, 0x244, 1, 69),
   (0x245, 0x245, 1, 71), (0x246, 0x24E, 2, 1), (0x370, 0x372, 2, 1), (0x376, 0x376, 1, 1),
   (0x37F, 0x37F, 1, 116), (0x386, 0x386, 1, 38), (0x388, 0x38A, 1, 37), (0x38C, 0x38C, 1, 64),
   (0x38E, 0x38F, 1, 63), (0x391, 0x3A1, 1, 32), (0x3A3, 0x3AB, 1, 32), (0x3CF, 0x3CF, 1, 8),
   (0x3D8, 0x3EE, 2, 1), (0x3F4, 0x3F4, 1, -60), (0x3F7, 0x3F7, 1, 1), (0x3F9, 0x3F9, 1, -7),
   (0x3FA, 0x3FA, 1, 1), (0x3FD, 0x3FF, 1, -130), (0x400, 0x40F, 1, 80), (0x410, 0x42F, 1, 32),
   (0x460, 0x480, 2, 1), (0x48A, 0x4BE, 2, 1), (0x4C0, 0x4C0, 1, 15), (0x4C1, 0x4CD, 2, 1),
   (0x4D0, 0x52E, 2, 1), (0x531, 0x556, 1, 48), (0x10A0, 0x10C5, 1, 7264),
   (0x10C7, 0x10C7, 1, 7264), (0x10CD, 0x10CD, 1, 7264), (0x13A0, 0x13EF, 1, 38864),
   (0x13F0, 0x13F5, 1, 8), (0x1C90, 0x1CBA, 1, -3008), (0x1CBD, 0x1CBF, 1, -3008),
   (0x1E00, 0x1E94, 2, 1), (0x1E9E, 0x1E9E, 1, -7615), (0x1EA0, 0x1EFE, 2, 1),
   (0x1F08, 0x1F0F, 1, -8), (0x1F18, 0x1F1D, 1, -8), (0x1F28, 0x1F2F, 1, -8),
   (0x1F38, 0x1F3F, 1, -8), (0x1F48, 0x1F4D, 1, -8), (0x1F59, 0x1F5F, 2, -8),
   (0x1F68, 0x1F6F, 1, -8), (0x1F88, 0x1F8F, 1, -8), (0x1F98, 0x1F9F, 1, -8),
   (0x1FA8, 0x1FAF, 1, -8), (0x1FB8, 0x1FB9, 1, -8), (0x1FBA, 0x1FBB, 1, -74),
   (0x1FBC, 0x1FBC, 1, -9), (0x1FC8, 0x1FCB, 1, -86), (0x1FCC, 0x1FCC, 1, -9),
   (0x1FD8, 0x1FD9, 1, -8), (0x1FDA, 0x1FDB, 1, -100), (0x1FE8, 0x1FE9, 1, -8),
   (0x1FEA, 0x1FEB, 1, -112), (0x1FEC, 0x1FEC, 1, -7), (0x1FF8, 0x1FF9, 1, -128),
   (0x1FFA, 0x1FFB, 1, -126), (0x1FFC, 0x1FFC, 1, -9), (0x2126, 0x2126, 1, -7517),
   (0x212A, 0x212A, 1, -8383), (0x212B, 0x212B, 1, -8262), (0x2132, 0x2132, 1, 28),
   (0x2160, 0x216F, 1, 16), (0x2183, 0x2183, 1, 1), (0x24B6, 0x24CF, 1, 26),
   (0x2C00, 0x2C2F, 1, 48), (0x2C60, 0x2C60, 1, 1), (0x2C62, 0x2C62, 1, -10743),
   (0x2C63, 0x2C63, 1, -3814), (0x2C64, 0x2C64, 1, -10727), (0x2C67, 0x2C6B, 2, 1),
   (0x2C6D, 0x2C6D, 1, -10780), (0x2C6E, 0x2C6E, 1, -10749), (0x2C6F, 0x2C6F, 1, -10783),
   (0x2C70, 0x2C70, 1, -10782), (0x2C72, 0x2C72, 1, 1), (0x2C75, 0x2C75, 1, 1),
   (0x2C7E, 0x2C7F, 1, -10815), (0x2C80, 0x2CE2, 2, 1), (0x2CEB, 0x2CED, 2, 1),
   (0x2CF2, 0x2CF2, 1, 1), (0xA640, 0xA66C, 2, 1), (0xA680, 0xA69A, 2, 1), (0xA722, 0xA72E, 2, 1),
   (0xA732, 0xA76E, 2, 1), (0xA779, 0xA77B, 2, 1), (0xA77D, 0xA77D, 1, -35332),
   (0xA77E, 0xA786, 2, 1), (0xA78B, 0xA78B, 1, 1), (0xA78D, 0xA78D, 1, -42280),
   (0xA790, 0xA792, 2, 1), (0xA796, 0xA7A8, 2, 1), (0xA7AA, 0xA7AA, 1, -42308),
   (0xA7AB, 0xA7AB, 1, -42319), (0xA7AC, 0xA7AC, 1, -42315), (0xA7AD, 0xA7AD, 1, -42305),
   (0xA7AE, 0xA7AE, 1, -42308), (0xA7B0, 0xA7B0, 1, -42258), (0xA7B1, 0xA7B1, 1, -42282),
   (0xA7B2, 0xA7B2, 1, -42261), (0xA7B3, 0xA7B3, 1, 928), (0xA7B4, 0xA7C2, 2, 1),
   (0xA7C4, 0xA7C4, 1, -48), (0xA7C5, 0xA7C5, 1, -42307), (0xA7C6, 0xA7C6, 1, -35384),
   (0xA7C7, 0xA7C9, 2, 1), (0xA7D0, 0xA7D0, 1, 1), (0xA7D6, 0xA7D8, 2, 1), (0xA7F5, 0xA7F5, 1, 1),
   (0xFF21, 0xFF3A, 1, 32), (0x10400, 0x10427, 1, 40), (0x104B0, 0x104D3, 1, 40),
   (0x10570, 0x1057A, 1, 39), (0x1057C, 0x1058A, 1, 39), (0x1058C, 0x10592, 1, 39),
   (0x10594, 0x10595, 1, 39), (0x10C80, 0x10CB2, 1, 64), (0x118A0, 0x118BF, 1, 32),
   (0x16E40, 0x16E5F, 1, 32), (0x1E900, 0x1E921, 1, 34)]

/-- `unicode.ToLower`. -/
def toLowerRune (c : Char) : Char :=
  if c.toNat < 0x80 then c.toLower
  else
    match caseRanges.find? fun (lo, hi, stride, _) =>
      lo ≤ c.toNat ∧ c.toNat ≤ hi ∧ (c.toNat - lo) % stride = 0 with
    | some (_, _, _, delta) => .ofNat (c.toNat + delta).toNat
    | none => c

/-- `strings.ToLower`. -/
def toLower (s : GoString) : GoString := encodeRunes ((runes s).map toLowerRune)

/-- The rune a rune folds to, as `encoding/json` compares member names with the
    names of struct fields. Two runes outside ASCII fold to a letter of it; the
    others are left alone here, as they never fold to a letter of a field name. -/
def foldRune (c : Char) : Char :=
  if c = '\u017f' then 'S' else if c = '\u212a' then 'K' else c.toUpper

/-- The folding of a member name. -/
def foldName (s : GoString) : List Char := (runes s).map foldRune

/-- A letter of ASCII in lower case, and any other byte. -/
def lowerByte (b : UInt8) : UInt8 :=
  if 65 ≤ b.toNat ∧ b.toNat ≤ 90 then .ofNat (b.toNat + 32) else b

/-- The letters of ASCII in lower case. -/
def lowerASCII (s : GoString) : GoString := s.map lowerByte

/-- Two runes outside ASCII have their lower case in ASCII: the capital `I` with a dot,
    and the sign of the kelvin. -/
theorem toLowerRune_cases {c : Char} (h : 0x80 ≤ c.toNat) :
    0x80 ≤ (toLowerRune c).toNat ∨ c = '\u0130' ∨ c = '\u212a' := by
  have table : ∀ r ∈ caseRanges,
      0x80 ≤ r.1 + r.2.2.2 ∧ (r.2.1 + r.2.2.2 < 0xD800 ∨
          0xE000 ≤ r.1 + r.2.2.2 ∧ r.2.1 + r.2.2.2 < 0x110000) ∨
        r = (0x130, 0x130, 1, -199) ∨ r = (0x212A, 0x212A, 1, -8383) := by decide +kernel
  rw [toLowerRune, if_neg (by omega)]
  split
  · rename_i lo hi stride delta hf
    have hp := List.find?_some hf
    obtain ⟨hlo, hhi, -⟩ := of_decide_eq_true hp
    rcases table _ (List.mem_of_find?_eq_some hf) with ⟨hge, hlt⟩ | e | e
    · left
      simp only at hge hlt
      rw [toNat_ofNat_of_isValidChar]
      · omega
      · rcases hlt with hlt | hlt
        · left
          omega
        · right
          omega
    · cases e
      rw [← Char.ofNat_toNat c, Nat.le_antisymm hhi hlo]
      exact .inr (.inl rfl)
    · cases e
      rw [← Char.ofNat_toNat c, Nat.le_antisymm hhi hlo]
      exact .inr (.inr rfl)
  · exact .inl h

/-- On ASCII, the lower case of a rune is that of its byte. -/
theorem encodeRune_toLowerRune {c : Char} (h : c.toNat < 0x80) :
    encodeRune (toLowerRune c) = [lowerByte (.ofNat c.toNat)] :=
  forall_ascii (P := fun c => encodeRune (toLowerRune c) = [lowerByte (.ofNat c.toNat)])
    (by decide +kernel) h

/-- On ASCII, the lower case of a string is that of its bytes. -/
theorem toLower_of_ascii {s : GoString} (h : ∀ b ∈ s, b.toNat < 0x80) :
    toLower s = lowerASCII s := by
  have hr : runes s = s.map fun b => Char.ofNat b.toNat := by
    nth_rewrite 1 [← encodeRunes_of_ascii h]
    exact runes_encodeRunes _
  rw [toLower, hr]
  clear hr
  induction s with
  | nil => rfl
  | cons b s ih =>
    obtain ⟨hb, hs⟩ := List.forall_mem_cons.mp h
    have hc : (Char.ofNat b.toNat).toNat = b.toNat :=
      toNat_ofNat_of_isValidChar (.inl (by omega))
    rw [List.map_cons, List.map_cons, encodeRunes_cons, ih hs,
      encodeRune_toLowerRune (by rwa [hc]), hc, UInt8.ofNat_toNat]
    rfl

/-! ## Hexadecimal -/

/-- The value of a hexadecimal digit, in either case. -/
def fromHexChar (c : UInt8) : Option Nat :=
  if 48 ≤ c.toNat ∧ c.toNat ≤ 57 then some (c.toNat - 48)
  else if 97 ≤ c.toNat ∧ c.toNat ≤ 102 then some (c.toNat - 87)
  else if 65 ≤ c.toNat ∧ c.toNat ≤ 70 then some (c.toNat - 55)
  else none

/-- `hex.DecodeString`: an odd number of characters, or one that is not a
    digit, is an error. -/
def hexDecode : GoString → Option GoString
  | [] => some []
  | [_] => none
  | a :: b :: s => do
    let x ← fromHexChar a
    let y ← fromHexChar b
    let bs ← hexDecode s
    pure (.ofNat (16 * x + y) :: bs)

/-- The lower-case digit of a value below sixteen. -/
def hexDigit (n : Nat) : UInt8 := if n < 10 then .ofNat (48 + n) else .ofNat (87 + n)

/-- `hex.EncodeToString`. -/
def hexEncode (bs : GoString) : GoString :=
  bs.flatMap fun b => [hexDigit (b.toNat / 16), hexDigit (b.toNat % 16)]

theorem fromHexChar_hexDigit : ∀ n < 16, fromHexChar (hexDigit n) = some n := by decide

theorem hexEncode_cons (b : UInt8) (bs : GoString) :
    hexEncode (b :: bs) = hexDigit (b.toNat / 16) :: hexDigit (b.toNat % 16) :: hexEncode bs := rfl

/-- Each byte has two digits. -/
theorem length_hexEncode (bs : GoString) : (hexEncode bs).length = 2 * bs.length := by
  induction bs with
  | nil => rfl
  | cons b bs ih =>
    rw [hexEncode_cons, List.length_cons, List.length_cons, ih, List.length_cons]
    omega

/-- Decoding what was encoded gives it back. -/
theorem hexDecode_hexEncode (bs : GoString) : hexDecode (hexEncode bs) = some bs := by
  induction bs with
  | nil => rfl
  | cons b bs ih =>
    have hb := b.toNat_lt
    have e : 16 * (b.toNat / 16) + b.toNat % 16 = b.toNat := Nat.div_add_mod _ _
    rw [hexEncode_cons, hexDecode, fromHexChar_hexDigit _ (by omega),
      fromHexChar_hexDigit _ (by omega), ih]
    simp only [Option.bind_eq_bind, Option.bind_some, e, UInt8.ofNat_toNat, Option.pure_def]

/-- A hexadecimal digit, in either case. -/
def HexDigit (c : UInt8) : Prop :=
  48 ≤ c.toNat ∧ c.toNat ≤ 57 ∨ 97 ≤ c.toNat ∧ c.toNat ≤ 102 ∨ 65 ≤ c.toNat ∧ c.toNat ≤ 70

/-- What is not decoded is no hexadecimal digit. -/
theorem fromHexChar_eq_none {c : UInt8} : fromHexChar c = none ↔ ¬HexDigit c := by
  unfold fromHexChar HexDigit
  split_ifs <;> simp <;> omega

/-- A character with a value is its lower-case digit, up to case. -/
theorem lowerByte_of_fromHexChar {c : UInt8} {n : Nat} (h : fromHexChar c = some n) :
    n < 16 ∧ lowerByte c = hexDigit n :=
  forall_byte (P := fun c => ∀ n ∈ fromHexChar c, n < 16 ∧ lowerByte c = hexDigit n)
    (by decide +kernel) c n h

theorem fromHexChar_lowerByte (c : UInt8) : fromHexChar (lowerByte c) = fromHexChar c :=
  forall_byte (P := fun c => fromHexChar (lowerByte c) = fromHexChar c) (by decide +kernel) c

/-- Digits in upper and lower case are decoded to the same bytes. -/
theorem hexDecode_lowerASCII (s : GoString) : hexDecode (lowerASCII s) = hexDecode s := by
  induction s using hexDecode.induct with
  | case1 => rfl
  | case2 c => rfl
  | case3 a b s ih =>
    rw [lowerASCII, List.map_cons, List.map_cons, ← lowerASCII, hexDecode, hexDecode,
      fromHexChar_lowerByte, fromHexChar_lowerByte, ih]

/-- Decoding reads the texts that are the encoding, up to case. -/
theorem hexDecode_eq_some {s bs : GoString} :
    hexDecode s = some bs ↔ lowerASCII s = hexEncode bs := by
  constructor
  · intro h
    induction s using hexDecode.induct generalizing bs with
    | case1 => cases h; rfl
    | case2 c => cases h
    | case3 a b s ih =>
      rw [hexDecode] at h
      obtain ⟨x, hx, h⟩ := Option.bind_eq_some_iff.mp h
      obtain ⟨y, hy, h⟩ := Option.bind_eq_some_iff.mp h
      obtain ⟨cs, hs, h⟩ := Option.bind_eq_some_iff.mp h
      cases h
      obtain ⟨hx16, ha⟩ := lowerByte_of_fromHexChar hx
      obtain ⟨hy16, hb⟩ := lowerByte_of_fromHexChar hy
      have e : (UInt8.ofNat (16 * x + y)).toNat = 16 * x + y :=
        UInt8.toNat_ofNat_of_lt' (by simp only [UInt8.size]; omega)
      rw [lowerASCII, List.map_cons, List.map_cons, ← lowerASCII, hexEncode_cons, e, ih hs, ha, hb]
      congr 3 <;> omega
  · intro h
    rw [← hexDecode_lowerASCII, h, hexDecode_hexEncode]

/-- Decoding fails on an odd number of characters, and on one that is no digit. -/
theorem hexDecode_eq_none {s : GoString} :
    hexDecode s = none ↔ s.length % 2 = 1 ∨ ∃ c ∈ s, ¬HexDigit c := by
  induction s using hexDecode.induct with
  | case1 => simp [hexDecode]
  | case2 c => simp [hexDecode]
  | case3 a b s ih =>
    have hlen : (a :: b :: s).length % 2 = s.length % 2 := by
      simp only [List.length_cons]
      omega
    simp only [hlen, List.mem_cons, exists_eq_or_imp, ← fromHexChar_eq_none] at ih ⊢
    rw [hexDecode]
    cases ha : fromHexChar a with
    | none => simp
    | some x =>
      cases hb : fromHexChar b with
      | none => simp
      | some y =>
        -- Two digits are a byte, so the rest decides.
        simp only [Option.bind_eq_bind, Option.bind_some, Option.pure_def, reduceCtorEq, false_or,
          ← ih]
        cases hexDecode s <;> simp

/-- What decodes is two digits for each byte. -/
theorem digits_of_hexDecode {s bs : GoString} (h : hexDecode s = some bs) :
    s.length = 2 * bs.length ∧ ∀ c ∈ s, HexDigit c := by
  constructor
  · rw [← length_hexEncode, ← hexDecode_eq_some.mp h, lowerASCII, List.length_map]
  · intro c hc
    by_contra hn
    rw [hexDecode_eq_none.mpr (.inr ⟨c, hc, hn⟩)] at h
    cases h

/-! ## Maps -/

/-- A map with strings for keys. -/
abbrev GoMap (α : Type) := GoString → Option α

namespace GoMap

variable {α : Type}

instance : EmptyCollection (GoMap α) := ⟨fun _ => none⟩

/-- `m[k] = v`. -/
def insert (m : GoMap α) (k : GoString) (v : α) : GoMap α := Function.update m k (some v)

/-- `delete(m, k)`. -/
def erase (m : GoMap α) (k : GoString) : GoMap α := Function.update m k none

/-- `maps.Copy(m, src)`. -/
def copy (m src : GoMap α) : GoMap α := fun k => (src k).or (m k)

/-- The map with the given entries, of which the last one for a key counts. -/
def ofList : List (GoString × α) → GoMap α
  | [] => ∅
  | e :: es => (insert ∅ e.1 e.2).copy (ofList es)

@[ext] theorem ext {m m' : GoMap α} (h : ∀ k, m k = m' k) : m = m' := funext h

@[simp] theorem empty_apply (k : GoString) : (∅ : GoMap α) k = none := rfl

@[simp] theorem insert_self (m : GoMap α) (k : GoString) (v : α) : m.insert k v k = some v :=
  Function.update_self ..

/-- Another key is not touched. -/
theorem insert_of_ne (m : GoMap α) {k k' : GoString} (h : k' ≠ k) (v : α) :
    m.insert k v k' = m k' := Function.update_of_ne h ..

@[simp] theorem erase_self (m : GoMap α) (k : GoString) : m.erase k k = none :=
  Function.update_self ..

/-- Another key is not touched. -/
theorem erase_of_ne (m : GoMap α) {k k' : GoString} (h : k' ≠ k) : m.erase k k' = m k' :=
  Function.update_of_ne h ..

@[simp] theorem copy_apply (m src : GoMap α) (k : GoString) :
    m.copy src k = (src k).or (m k) := rfl

theorem ofList_cons (e : GoString × α) (es : List (GoString × α)) (k : GoString) :
    ofList (e :: es) k = (ofList es k).or (insert ∅ e.1 e.2 k) := rfl

/-- With keys that are written out, a map can be read without encoding them. -/
theorem ofList_lit (es : List (String × α)) (name : String) :
    ofList (es.map fun e => (lit e.1, e.2)) (lit name) = es.reverse.lookup name := by
  induction es with
  | nil => rfl
  | cons e es ih =>
    rw [List.map_cons, ofList_cons, ih, List.reverse_cons, List.lookup_append]
    congr 1
    by_cases h : name = e.1
    · rw [h, insert_self, List.lookup_cons, beq_self_eq_true]
    · rw [insert_of_ne _ (lit_injective.ne h), List.lookup_cons, beq_false_of_ne h]
      rfl

/-- A key that is not listed is not in the map. -/
theorem ofList_of_notMem {k : GoString} {es : List (GoString × α)} (h : k ∉ es.map (·.1)) :
    ofList es k = none := by
  induction es with
  | nil => rfl
  | cons e es ih =>
    rw [List.map_cons, List.mem_cons, not_or] at h
    rw [ofList_cons, ih h.2, insert_of_ne _ h.1, empty_apply, Option.or_none]

/-- What is in the map is listed. -/
theorem mem_of_ofList {k : GoString} {v : α} {es : List (GoString × α)}
    (h : ofList es k = some v) : (k, v) ∈ es := by
  induction es with
  | nil => cases h
  | cons e es ih =>
    rw [ofList_cons, Option.or_eq_some_iff] at h
    rcases h with h | ⟨-, h⟩
    · exact List.mem_cons_of_mem _ (ih h)
    · by_cases hk : k = e.1
      · rw [hk, insert_self] at h
        rw [hk, ← Option.some.inj h]
        exact List.mem_cons_self
      · rw [insert_of_ne _ hk] at h
        cases h

/-- What is listed is in the map, if no key is listed twice. -/
theorem ofList_of_mem {k : GoString} {v : α} {es : List (GoString × α)}
    (hn : (es.map (·.1)).Nodup) (h : (k, v) ∈ es) : ofList es k = some v := by
  induction es with
  | nil => cases h
  | cons e es ih =>
    rw [List.map_cons, List.nodup_cons] at hn
    rw [ofList_cons]
    rcases List.mem_cons.mp h with rfl | h
    · rw [ofList_of_notMem hn.1, Option.none_or, insert_self]
    · rw [ih hn.2 h, Option.some_or]

end GoMap

end Go
