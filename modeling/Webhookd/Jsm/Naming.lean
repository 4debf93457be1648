import Webhookd.Executor
import Webhookd.Jsm.Passes

/-!
# The names of custom resources

`CRName` derives the name of a custom resource from the key of a ticket, which is
any text that is not empty: it is put in lower case, with a prefix, and sent.

* `validName_crName`: the name is valid exactly for keys of certain characters, not
  too long, that do not end in punctuation (`Nameable`);
* `name_valid_iff`: so is the name of the object that is sent for a body, by what
  the body has as its key;
* `name_underscore`: a key with an underscore is sent, with a name that is not valid;
* `crName_inj`: the keys of the documented form have different names.
-/

namespace Webhookd.Jsm

open Go

/-! ## Names -/

/-- A lower-case letter or a digit. -/
def Alphanumeric (b : UInt8) : Prop := ch 'a' ≤ b ∧ b ≤ ch 'z' ∨ ch '0' ≤ b ∧ b ≤ ch '9'

instance (b : UInt8) : Decidable (Alphanumeric b) := inferInstanceAs (Decidable (_ ∨ _))

def NameByte (b : UInt8) : Prop := Alphanumeric b ∨ b = ch '.' ∨ b = ch '-'

instance (b : UInt8) : Decidable (NameByte b) := inferInstanceAs (Decidable (_ ∨ _))

/-- The length, the bytes and the ends of a name by RFC 1123. That each part between two
    dots has such ends as well is not said here. -/
structure ValidName (s : GoString) : Prop where
  nonempty : 1 ≤ s.length
  length : s.length ≤ 253
  bytes : ∀ b ∈ s, NameByte b
  first : ∀ b ∈ s.head?, Alphanumeric b
  last : ∀ b ∈ s.getLast?, Alphanumeric b

/-- A letter or digit of ASCII, a dot or a hyphen; or one of the two other runes that
    have a letter of ASCII as their lower case. -/
def KeyRune (c : Char) : Prop :=
  c.isAlphanum ∨ c = '.' ∨ c = '-' ∨ c = '\u0130' ∨ c = '\u212a'

instance (c : Char) : Decidable (KeyRune c) := inferInstanceAs (Decidable (_ ∨ _))

/-- The keys of which the name is valid. -/
structure Nameable (key : GoString) : Prop where
  runes : ∀ c ∈ runes key, KeyRune c
  length : (Go.runes key).length ≤ 249
  last : ∀ c ∈ (Go.runes key).getLast?, c ≠ '.' ∧ c ≠ '-'

theorem KeyRune.eq_of_high {c : Char} (h : KeyRune c) (hc : 0x80 ≤ c.toNat) :
    c = '\u0130' ∨ c = '\u212a' := by
  rcases h with h | rfl | rfl | h
  · delta Char.isAlphanum Char.isAlpha Char.isUpper Char.isLower Char.isDigit at h
    simp only [Bool.or_eq_true, Bool.and_eq_true, decide_eq_true_eq, ge_iff_le,
      UInt32.le_iff_toNat_le, Char.reduceVal, UInt32.reduceToNat] at h
    have hval : c.val.toNat = c.toNat := rfl
    omega
  · exact absurd hc (by decide)
  · exact absurd hc (by decide)
  · exact h

/-- Such a rune is one character of the name. -/
theorem KeyRune.encodeRune {c : Char} (h : KeyRune c) :
    ∃ b, encodeRune (toLowerRune c) = [b] ∧ NameByte b ∧
      (Alphanumeric b ↔ c ≠ '.' ∧ c ≠ '-') := by
  by_cases hc : c.toNat < 0x80
  · have hb := forall_ascii (P := fun c => KeyRune c → NameByte (lowerByte (ch c)) ∧
      (Alphanumeric (lowerByte (ch c)) ↔ c ≠ '.' ∧ c ≠ '-')) (by decide +kernel) hc h
    exact ⟨_, encodeRune_toLowerRune hc, hb⟩
  · rcases h.eq_of_high (not_lt.mp hc) with rfl | rfl
    · exact ⟨ch 'i', by decide +kernel, by decide, by decide⟩
    · exact ⟨ch 'k', by decide +kernel, by decide, by decide⟩

/-- No other rune becomes characters of a name. -/
theorem keyRune_of_nameByte {c : Char} (h : ∀ b ∈ encodeRune (toLowerRune c), NameByte b) :
    KeyRune c := by
  by_cases hc : c.toNat < 0x80
  · rw [encodeRune_toLowerRune hc] at h
    exact forall_ascii (P := fun c => NameByte (lowerByte (ch c)) → KeyRune c) (by decide +kernel)
      hc (h _ (.head _))
  · rcases toLowerRune_cases (not_lt.mp hc) with hl | rfl | rfl
    · -- A byte outside ASCII is in no name.
      obtain ⟨b, hb, hge⟩ := exists_high_byte hl
      have hlt := forall_byte (P := fun b => NameByte b → b.toNat < 0x80) (by decide +kernel) b
      exact absurd (hlt (h b hb)) (not_lt.mpr hge)
    · decide
    · decide

/-- The runes of a key are one character of the name each. -/
theorem encodeRunes_of_keyRune {cs : List Char} (h : ∀ c ∈ cs, KeyRune c) :
    (encodeRunes (cs.map toLowerRune)).length = cs.length ∧
      ∀ b ∈ encodeRunes (cs.map toLowerRune), NameByte b := by
  induction cs with
  | nil => exact ⟨rfl, List.forall_mem_nil _⟩
  | cons c cs ih =>
    obtain ⟨hc, hcs⟩ := List.forall_mem_cons.mp h
    obtain ⟨b, he, hb, -⟩ := hc.encodeRune
    obtain ⟨hlen, hbytes⟩ := ih hcs
    rw [List.map_cons, encodeRunes_cons, he]
    exact ⟨congrArg Nat.succ hlen, List.forall_mem_cons.mpr ⟨hb, hbytes⟩⟩

theorem mem_encodeRunes {cs : List Char} {c : Char} (hc : c ∈ cs) {b : UInt8}
    (hb : b ∈ encodeRune c) : b ∈ encodeRunes cs :=
  List.mem_flatMap.mpr ⟨c, hc, hb⟩

theorem runes_ne_nil {s : GoString} (h : s ≠ []) : runes s ≠ [] := by
  cases s with
  | nil => exact absurd rfl h
  | cons b s => exact List.cons_ne_nil _ _

theorem length_crName {key : GoString} (h : ∀ c ∈ runes key, KeyRune c) :
    (crName key).length = 4 + (runes key).length := by
  rw [crName, toLower, List.length_append, (encodeRunes_of_keyRune h).1]
  rfl

/-- A name ends as its key does. -/
theorem getLast_crName {key : GoString} {cs : List Char} {c : Char} (hr : runes key = cs ++ [c])
    (h : KeyRune c) :
    ∃ b, (crName key).getLast? = some b ∧ (Alphanumeric b ↔ c ≠ '.' ∧ c ≠ '-') := by
  obtain ⟨b, he, -, hb⟩ := h.encodeRune
  refine ⟨b, ?_, hb⟩
  have hlast : (encodeRunes ((runes key).map toLowerRune)).getLast? = some b := by
    rw [hr, List.map_append, List.map_singleton, encodeRunes, List.flatMap_append,
      List.flatMap_singleton, he, List.getLast?_concat]
  rw [crName, toLower, List.getLast?_append, hlast]
  rfl

/-- The name of a key is valid for these keys, and no others. -/
theorem validName_crName {key : GoString} (hkey : key ≠ []) :
    ValidName (crName key) ↔ Nameable key := by
  obtain ⟨cs, c, hr⟩ : ∃ cs c, runes key = cs ++ [c] := by
    simpa [runes_ne_nil hkey] using List.eq_nil_or_concat (runes key)
  have hc : c ∈ runes key := hr ▸ List.mem_append_right _ (.head _)
  constructor
  · intro h
    have hkeys : ∀ c ∈ runes key, KeyRune c := by
      intro c hc
      refine keyRune_of_nameByte fun b hb => h.bytes b (List.mem_append_right _ ?_)
      exact mem_encodeRunes (List.mem_map_of_mem hc) hb
    obtain ⟨b, hb, hiff⟩ := getLast_crName hr (hkeys c hc)
    refine ⟨hkeys, ?_, ?_⟩
    · have hle := h.length
      rw [length_crName hkeys] at hle
      omega
    · rw [hr, List.getLast?_concat]
      rintro _ ⟨⟩
      exact hiff.mp (h.last b hb)
  · intro h
    obtain ⟨b, hb, hiff⟩ := getLast_crName hr (h.runes c hc)
    have hjsm : ∀ b ∈ lit "jsm-", NameByte b := forall_mem_of_all (by decide)
    have hle := h.length
    have hn := length_crName h.runes
    refine ⟨by omega, by omega,
      List.forall_mem_append.mpr ⟨hjsm, (encodeRunes_of_keyRune h.runes).2⟩, ?_, ?_⟩
    · rintro _ ⟨⟩
      decide
    · rw [hb]
      rintro _ ⟨⟩
      refine hiff.mpr (h.last c ?_)
      rw [hr, List.getLast?_concat]
      rfl

/-! ## The name that is sent for a body -/

/-- What a body has as its key: the last text under the `key` of an `issue`, where these
    names match up to case. -/
def bodyKey (body : GoString) : Option GoString :=
  (parse body).bind fun t => lastText (foldPath [lit "issue", lit "key"] t)

/-- The key of a ticket that is decoded is that of the body. -/
theorem bodyKey_of_decode {body : GoString} {payload : Payload}
    (h : decode body = .ok payload) :
    bodyKey body = some payload.issueKey ∧ payload.issueKey ≠ [] := by
  obtain ⟨t, ht, hd⟩ := exists_parse_of_decode h
  obtain ⟨-, hu, hk, -⟩ := decodeTree_inv.mp hd
  obtain ⟨hkey, -⟩ := Payload.unmarshal_members hu
  refine ⟨?_, hk⟩
  rw [bodyKey, ht, Option.bind_some]
  exact lastText_of_getD hk hkey

/-- For every body that is applied, the object that is sent has a valid name exactly when
    the key of the body is of the characters of names, of at most 249 of them, and does
    not end in a dot or a hyphen. -/
theorem name_valid_iff {cfg : Config} {body : GoString} {act : ApplyAction}
    (h : handle cfg body = .ok (.apply act)) (ctx : RequestContext) :
    ValidName (prepare ctx act).name ↔ ∃ key, bodyKey body = some key ∧ Nameable key := by
  obtain ⟨payload, g, r, p, hd, -, -, -, -, rfl⟩ := handle_apply.mp h
  obtain ⟨hkey, hne⟩ := bodyKey_of_decode hd
  have hname : (prepare ctx (applyAction cfg payload.issueKey g r p)).name =
      crName payload.issueKey := rfl
  rw [hname, validName_crName hne, hkey]
  constructor
  · intro hn
    exact ⟨_, rfl, hn⟩
  · rintro ⟨key, ⟨⟩, hn⟩
    exact hn

theorem name_valid_sampleTicket :
    ∃ act, handle sampleConfig sampleTicket.render = .ok (.apply act) ∧
      ValidName (prepare ⟨[], [], []⟩ act).name := by
  have hp : parse sampleTicket.render = some sampleTicket.toJson := parse_render (by decide)
  have hh : handle sampleConfig sampleTicket.render = .ok (.apply
      (applyAction sampleConfig (lit "SEC-1") (lit "group") (lit "admin") (lit "core"))) := by
    rw [handle, decode_of_parse hp]
    rfl
  refine ⟨_, hh, (name_valid_iff hh _).mpr ⟨lit "SEC-1", ?_, ?_⟩⟩
  · rw [bodyKey, hp]
    rfl
  · refine ⟨forall_mem_of_all (by decide), by decide, ?_⟩
    rintro _ ⟨⟩
    decide

/-- A ticket whose key has an underscore. -/
def sampleUnderscore : Doc :=
  .obj [("issue".toList, .obj [("key".toList, .str "SEC_1".toList),
    ("fields".toList, .obj [("status".toList, .obj [("name".toList, .str "Ready".toList)]),
      ("customfield_1".toList, .str "group".toList),
      ("customfield_2".toList, .str "admin".toList),
      ("customfield_3".toList, .str "core".toList)])])]

/-- It is applied, under a name that the API server does not accept. -/
theorem name_underscore :
    ∃ act, handle sampleConfig sampleUnderscore.render = .ok (.apply act) ∧
      (prepare ⟨[], [], []⟩ act).name = lit "jsm-sec_1" ∧
      ¬ValidName (prepare ⟨[], [], []⟩ act).name := by
  have hh : handle sampleConfig sampleUnderscore.render = .ok (.apply
      (applyAction sampleConfig (lit "SEC_1") (lit "group") (lit "admin") (lit "core"))) := by
    rw [handle, decode_of_parse (parse_render (by decide))]
    rfl
  refine ⟨_, hh, by decide +kernel, fun h => ?_⟩
  exact absurd (h.bytes (ch '_') (by decide +kernel)) (by decide)

/-! ## The names of keys of the documented form -/

/-- A key of the documented form: capital letters, a hyphen and digits. -/
def IssueKey (key : GoString) : Prop :=
  ∃ project number, key = project ++ ch '-' :: number ∧ project ≠ [] ∧ number ≠ [] ∧
    (∀ b ∈ project, ch 'A' ≤ b ∧ b ≤ ch 'Z') ∧ ∀ b ∈ number, ch '0' ≤ b ∧ b ≤ ch '9'

/-- The characters of such keys. -/
def IssueKeyByte (b : UInt8) : Prop :=
  ch 'A' ≤ b ∧ b ≤ ch 'Z' ∨ b = ch '-' ∨ ch '0' ≤ b ∧ b ≤ ch '9'

instance (b : UInt8) : Decidable (IssueKeyByte b) := inferInstanceAs (Decidable (_ ∨ _))

theorem IssueKey.bytes {key : GoString} (h : IssueKey key) : ∀ b ∈ key, IssueKeyByte b := by
  obtain ⟨project, number, rfl, -, -, hp, hn⟩ := h
  intro b hb
  rcases List.mem_append.mp hb with hb | hb
  · exact .inl (hp b hb)
  · rcases List.mem_cons.mp hb with rfl | hb
    · exact .inr (.inl rfl)
    · exact .inr (.inr (hn b hb))

/-- They are in ASCII, and can be told from their lower case. -/
theorem IssueKeyByte.lower {b b' : UInt8} (h : IssueKeyByte b) (h' : IssueKeyByte b')
    (e : lowerByte b = lowerByte b') : b = b' := by
  have raise : ∀ b, IssueKeyByte b →
      (if lowerByte b < ch 'a' then lowerByte b else lowerByte b - 32) = b :=
    forall_byte (by decide +kernel)
  rw [← raise b h, ← raise b' h', e]

theorem crName_of_issueKey {key : GoString} (h : IssueKey key) :
    crName key = lit "jsm-" ++ lowerASCII key := by
  have hascii : ∀ b, IssueKeyByte b → b.toNat < 0x80 := forall_byte (by decide +kernel)
  rw [crName, toLower_of_ascii fun b hb => hascii b (h.bytes b hb)]

/-- Different keys have different names. -/
theorem crName_inj {key key' : GoString} (h : IssueKey key) (h' : IssueKey key')
    (e : crName key = crName key') : key = key' := by
  rw [crName_of_issueKey h, crName_of_issueKey h'] at e
  have he := List.append_cancel_left e
  have hb := h.bytes
  have hb' := h'.bytes
  clear h h' e
  induction key generalizing key' with
  | nil => exact (List.map_eq_nil_iff.mp he.symm).symm
  | cons b key ih =>
    cases key' with
    | nil => cases he
    | cons b' key' =>
      obtain ⟨e₁, e₂⟩ := List.cons.inj he
      rw [List.forall_mem_cons] at hb hb'
      rw [hb.1.lower hb'.1 e₁, ih e₂ hb.2 hb'.2]

end Webhookd.Jsm
