import Webhookd.Go.Http
import Webhookd.Go.Time

/-!
# Signatures

`signature.go`: a request is signed by the HMAC of its timestamp and body. The
hash itself is a parameter (`HMAC`), of which only the length of a sum is known.

* `verifyHMAC_language`: the headers that are accepted, those that are malformed
  and those that are refused;
* `verify_ok` says which requests are accepted, and `verify_signed` that a signer
  who knows the secret is accepted in the window of the timestamp.
-/

namespace Webhookd

open Go

/-- HMAC-SHA256, as a function of the secret and the message. -/
structure HMAC where
  sum : GoString → GoString → GoString
  length_sum : ∀ secret msg, (sum secret msg).length = 32

/-- The sentinels of `signature.go`. -/
inductive SignatureError
  | malformed
  | invalidSignature
  | timestampMissing
  | timestampMalformed
  | timestampSkewed
  deriving DecidableEq

def signaturePrefix : GoString := lit "sha256="

def canonicalVersion : GoString := lit "v0"

/-- `canonicalMessage`. -/
def canonicalMessage (tsHeader body : GoString) : GoString :=
  canonicalVersion ++ lit ":" ++ tsHeader ++ lit ":" ++ body

/-- `VerifyTimestamp`. -/
def verifyTimestamp (headerVal : GoString) (now : Time) (skew : Duration) :
    Except SignatureError Unit :=
  if headerVal = [] then .error .timestampMissing
  else
    match parseInt headerVal with
    | none => .error .timestampMalformed
    | some secs =>
      let delta := now.sub (.unix secs)
      -- The negation of the smallest duration is itself.
      let delta := if delta < 0 then int64 (-delta) else delta
      if delta > skew then .error .timestampSkewed else .ok ()

section

variable (hmac : HMAC)

/-- `VerifyHMAC`. -/
def verifyHMAC (secret canonical received : GoString) : Except SignatureError Unit :=
  match signaturePrefix.isPrefixOf? received with
  | none => .error .malformed
  | some hexSig =>
    if hexSig = [] then .error .malformed
    else
      match hexDecode hexSig with
      | none => .error .malformed
      | some want =>
        if hmac.sum secret canonical = want then .ok () else .error .invalidSignature

/-- `Verify`. -/
def verify (secret sigHeader tsHeader body : GoString) (now : Time) (skew : Duration) :
    Except SignatureError Unit := do
  verifyTimestamp tsHeader now skew
  verifyHMAC hmac secret (canonicalMessage tsHeader body) sigHeader

end

variable {hmac : HMAC} {secret canonical received sigHeader tsHeader body : GoString}
  {now : Time} {skew : Duration}

theorem HMAC.sum_ne_nil (hmac : HMAC) (secret msg : GoString) : hmac.sum secret msg ≠ [] := by
  have := hmac.length_sum secret msg
  rintro e
  simp [e] at this

theorem verifyHMAC_append (digits : GoString) :
    verifyHMAC hmac secret canonical (signaturePrefix ++ digits) =
      if digits = [] then .error .malformed
      else
        match hexDecode digits with
        | none => .error .malformed
        | some want =>
          if hmac.sum secret canonical = want then .ok () else .error .invalidSignature := by
  rw [verifyHMAC, List.isPrefixOf?_eq_some_iff_append_eq.mpr rfl]

theorem verifyHMAC_of_foreign (h : ¬signaturePrefix <+: received) :
    verifyHMAC hmac secret canonical received = .error .malformed := by
  have hnone : signaturePrefix.isPrefixOf? received = none := by
    rw [Option.eq_none_iff_forall_ne_some]
    intro digits hd
    exact h ⟨digits, List.isPrefixOf?_eq_some_iff_append_eq.mp hd⟩
  rw [verifyHMAC, hnone]

/-- The header has no prefix, or nothing after it, or an odd number of
    characters, or one that is no digit. -/
def HeaderMalformed (received : GoString) : Prop :=
  ¬signaturePrefix <+: received ∨
    ∃ digits, received = signaturePrefix ++ digits ∧
      (digits = [] ∨ digits.length % 2 = 1 ∨ ∃ c ∈ digits, ¬HexDigit c)

theorem headerMalformed_append {digits : GoString} :
    HeaderMalformed (signaturePrefix ++ digits) ↔ digits = [] ∨ hexDecode digits = none := by
  rw [hexDecode_eq_none]
  constructor
  · rintro (h | ⟨digits', e, h⟩)
    · exact absurd (List.prefix_append _ _) h
    · cases List.append_cancel_left e
      exact h
  · intro h
    exact .inr ⟨digits, rfl, h⟩

/-- The verdict on a header that is `sha256=` and digits, by what they decode to. -/
theorem verifyHMAC_cases (hmac : HMAC) (secret canonical received : GoString) :
    HeaderMalformed received ∧ verifyHMAC hmac secret canonical received = .error .malformed ∨
      ∃ digits bytes, received = signaturePrefix ++ digits ∧ hexDecode digits = some bytes ∧
        ¬HeaderMalformed received ∧
        verifyHMAC hmac secret canonical received =
          if hmac.sum secret canonical = bytes then .ok () else .error .invalidSignature := by
  by_cases hp : signaturePrefix <+: received
  · obtain ⟨digits, rfl⟩ := hp
    rw [headerMalformed_append, verifyHMAC_append]
    by_cases hne : digits = []
    · exact .inl ⟨.inl hne, if_pos hne⟩
    · cases hd : hexDecode digits with
      | none => exact .inl ⟨.inr rfl, if_neg hne⟩
      | some bytes => exact .inr ⟨digits, bytes, rfl, hd, by simp [hne], if_neg hne⟩
  · exact .inl ⟨.inl hp, verifyHMAC_of_foreign hp⟩

/-- The received signature is accepted when it is that of the message. -/
theorem verifyHMAC_ok :
    verifyHMAC hmac secret canonical received = .ok () ↔
      ∃ hexSig, received = signaturePrefix ++ hexSig ∧
        hexDecode hexSig = some (hmac.sum secret canonical) := by
  constructor
  · intro h
    obtain ⟨-, e⟩ | ⟨digits, bytes, rfl, hd, -, e⟩ :=
      verifyHMAC_cases hmac secret canonical received
    · rw [e] at h
      cases h
    · rw [e] at h
      split_ifs at h with hsum
      exact ⟨digits, rfl, hsum ▸ hd⟩
  · rintro ⟨hexSig, rfl, hd⟩
    have hne : hexSig ≠ [] := by
      -- The empty text decodes to no bytes, and a sum has some.
      rintro rfl
      exact hmac.sum_ne_nil secret canonical (Option.some.inj hd).symm
    rw [verifyHMAC_append]
    simp only [if_neg hne, hd, ↓reduceIte]

/-- A header is refused as malformed or for its signature. -/
theorem verifyHMAC_error :
    (verifyHMAC hmac secret canonical received = .error .malformed ↔ HeaderMalformed received) ∧
    (verifyHMAC hmac secret canonical received = .error .invalidSignature ↔
      verifyHMAC hmac secret canonical received ≠ .ok () ∧ ¬HeaderMalformed received) := by
  obtain ⟨hm, e⟩ | ⟨digits, bytes, -, -, hm, e⟩ := verifyHMAC_cases hmac secret canonical received
  · simp [e, hm]
  · rw [e]
    split <;> simp [hm]

/-- The headers of `VerifyHMAC`: it accepts `sha256=` and the digits of the sum,
    in any case, finds malformed what has no such form, and refuses all others,
    like the digits of more or fewer bytes. So it accepts what a signer sends,
    and two headers that it accepts differ in the case of their digits only. -/
theorem verifyHMAC_language (hmac : HMAC) (secret canonical received : GoString) :
    (verifyHMAC hmac secret canonical received = .ok () ↔
      ∃ digits, received = signaturePrefix ++ digits ∧ digits.length = 64 ∧
        (∀ c ∈ digits, HexDigit c) ∧ hexDecode digits = some (hmac.sum secret canonical)) ∧
    (verifyHMAC hmac secret canonical received = .error .malformed ↔ HeaderMalformed received) ∧
    (verifyHMAC hmac secret canonical received = .error .invalidSignature ↔
      verifyHMAC hmac secret canonical received ≠ .ok () ∧ ¬HeaderMalformed received) ∧
    (∀ bytes, bytes ≠ [] → bytes ≠ hmac.sum secret canonical →
      verifyHMAC hmac secret canonical (signaturePrefix ++ hexEncode bytes) =
        .error .invalidSignature) ∧
    verifyHMAC hmac secret canonical (signaturePrefix ++ hexEncode (hmac.sum secret canonical)) =
      .ok () ∧
    (∀ other, verifyHMAC hmac secret canonical received = .ok () →
      verifyHMAC hmac secret canonical other = .ok () →
      ∃ digits digits', received = signaturePrefix ++ digits ∧
        other = signaturePrefix ++ digits' ∧ lowerASCII digits = lowerASCII digits') := by
  refine ⟨⟨fun h => ?_, ?_⟩, verifyHMAC_error.1, verifyHMAC_error.2, fun bytes hne hsum => ?_,
    verifyHMAC_ok.mpr ⟨_, rfl, hexDecode_hexEncode _⟩, fun other h h' => ?_⟩
  · obtain ⟨digits, rfl, hd⟩ := verifyHMAC_ok.mp h
    obtain ⟨hlen, hdigits⟩ := digits_of_hexDecode hd
    rw [hmac.length_sum] at hlen
    exact ⟨digits, rfl, hlen, hdigits, hd⟩
  · rintro ⟨digits, rfl, -, -, hd⟩
    exact verifyHMAC_ok.mpr ⟨digits, rfl, hd⟩
  · have hdigits : hexEncode bytes ≠ [] := by
      intro e
      have hlen := length_hexEncode bytes
      rw [e, List.length_nil] at hlen
      exact hne (List.length_eq_zero_iff.mp (by omega))
    rw [verifyHMAC_append, if_neg hdigits, hexDecode_hexEncode]
    exact if_neg hsum.symm
  · obtain ⟨digits, rfl, hd⟩ := verifyHMAC_ok.mp h
    obtain ⟨digits', rfl, hd'⟩ := verifyHMAC_ok.mp h'
    refine ⟨digits, digits', rfl, rfl, ?_⟩
    rw [hexDecode_eq_some.mp hd, hexDecode_eq_some.mp hd']

theorem verifyHMAC_language_upper :
    let hmac : HMAC := ⟨fun _ _ => List.replicate 32 0xab, fun _ _ => rfl⟩
    let upper := signaturePrefix ++ (List.replicate 32 (lit "AB")).flatten
    let lower := signaturePrefix ++ hexEncode (hmac.sum (lit "secret") (lit "v0:0:"))
    verifyHMAC hmac (lit "secret") (lit "v0:0:") upper = .ok () ∧
      ∃ digits digits', upper = signaturePrefix ++ digits ∧ lower = signaturePrefix ++ digits' ∧
        lowerASCII digits = lowerASCII digits' := by
  intro hmac upper lower
  have hupper : verifyHMAC hmac (lit "secret") (lit "v0:0:") upper = .ok () := by decide +kernel
  obtain ⟨-, -, -, -, hlower, hcase⟩ := verifyHMAC_language hmac (lit "secret") (lit "v0:0:") upper
  exact ⟨hupper, hcase lower hupper hlower⟩

/-- A request is accepted when its timestamp is and its signature is that of
    the timestamp and the body. -/
theorem verify_ok :
    verify hmac secret sigHeader tsHeader body now skew = .ok () ↔
      verifyTimestamp tsHeader now skew = .ok () ∧
        ∃ hexSig, sigHeader = signaturePrefix ++ hexSig ∧
          hexDecode hexSig = some (hmac.sum secret (canonicalMessage tsHeader body)) := by
  rw [← verifyHMAC_ok, verify]
  cases verifyTimestamp tsHeader now skew with
  | error e => simp [bind, Except.bind]
  | ok _ => simp [bind, Except.bind]

/-- The signature header that a signer sends. -/
def sign (hmac : HMAC) (secret tsHeader body : GoString) : GoString :=
  signaturePrefix ++ hexEncode (hmac.sum secret (canonicalMessage tsHeader body))

theorem verify_signed (h : verifyTimestamp tsHeader now skew = .ok ()) :
    verify hmac secret (sign hmac secret tsHeader body) tsHeader body now skew = .ok () :=
  verify_ok.mpr ⟨h, _, rfl, hexDecode_hexEncode _⟩

end Webhookd
