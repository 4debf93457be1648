import Mathlib.Data.List.TakeWhile
import Webhookd.Dispatcher
import Webhookd.Go.Encode

/-!
# Inert configurations

A configuration under which no request at all can provision anything is inert.
`Load` accepts some of these: the trigger status may be set but empty, a custom
field may have the name of the status, and the two headers may have one name, a
name that no header can have, or one whose values `net/http` interprets. A request
is one that `net/http` delivers to a handler (`Header.Delivered`).

* `Jsm.serves_iff`: a provider serves some request exactly when none of this is
  the case (`Jsm.Config.Usable`);
* `provisions_iff` is the same about the environment (`Provisions`);
* `empty_trigger_inert` is an accepted configuration that is inert.

The window for the timestamp never matters, as an instant in the far future is
within every window: the difference to it saturates, and is its own negation. So
the timestamp can even be the length of the body, which white space makes as long
as needed.
-/

namespace Webhookd

open Go

namespace Jsm

/-- A provider serves a request: it accepts the signature, and has an object to
    apply. -/
def Serves (hmac : HMAC) (cfg : Config) (now : Time) (header : Header) (body : GoString) : Prop :=
  (provider hmac cfg).verifySignature header body now = .ok () ∧
    ∃ act, (provider hmac cfg).handle body = .ok (.apply act)

/-- A header can hold a signature, which is neither a length nor an expectation. -/
def CanSign (name : GoString) : Prop :=
  HeaderKey (canonicalMIMEHeaderKey name) ∧
    canonicalMIMEHeaderKey name ∉ [lit "Content-Length", lit "Expect"]

instance (name : GoString) : Decidable (CanSign name) := inferInstanceAs (Decidable (_ ∧ _))

/-- A header can hold a timestamp, which is no expectation, but may be a length. -/
def CanStamp (name : GoString) : Prop :=
  HeaderKey (canonicalMIMEHeaderKey name) ∧ canonicalMIMEHeaderKey name ≠ lit "Expect"

instance (name : GoString) : Decidable (CanStamp name) := inferInstanceAs (Decidable (_ ∧ _))

/-- A ticket can be in the trigger status and have the fields, and a request can have
    both the signature and the timestamp. -/
structure Config.Usable (cfg : Config) : Prop where
  trigger : cfg.triggerStatus ≠ [] ∧ ValidString cfg.triggerStatus
  field : ∀ id ∈ cfg.fieldIDs, ValidString id ∧ id ≠ lit "status"
  sigHeader : CanSign cfg.signature.sigHeader
  tsHeader : CanStamp cfg.signature.tsHeader
  header_ne : canonicalMIMEHeaderKey cfg.signature.sigHeader ≠
    canonicalMIMEHeaderKey cfg.signature.tsHeader

variable {hmac : HMAC} {cfg : Config} {now : Time} {header : Header} {body : GoString}

/-! ## What is served -/

/-- A signature is no number, so it is no timestamp. -/
theorem parseInt_signature (hexSig : GoString) : parseInt (signaturePrefix ++ hexSig) = none := by
  rfl

/-- What is accepted as a timestamp is a number. -/
theorem parseInt_of_verifyTimestamp {v : GoString} {skew : Duration}
    (h : verifyTimestamp v now skew = .ok ()) : v ≠ [] ∧ ∃ secs, parseInt v = some secs := by
  unfold verifyTimestamp at h
  split_ifs at h with hv
  cases hp : parseInt v with
  | none =>
    rw [hp] at h
    cases h
  | some secs => exact ⟨hv, secs, rfl⟩

theorem get_eq_of_canonical {name name' : GoString} (hc : canonicalMIMEHeaderKey name = name')
    (hc' : canonicalMIMEHeaderKey name' = name') : header.get name = header.get name' := by
  rw [Header.get, Header.get, hc, hc']

/-- A header of a delivered request with a signature can hold one. -/
theorem canSign_of_get {name hexSig sum : GoString} (hd : header.Delivered body)
    (hget : header.get name = signaturePrefix ++ hexSig) (hx : hexDecode hexSig = some sum) :
    CanSign name := by
  refine ⟨?_, fun hmem => ?_⟩
  · by_contra hk
    rw [header.get_of_not_headerKey hk] at hget
    cases hget
  · rcases List.mem_cons.mp hmem with hc | hmem
    · -- A length has no letters.
      rw [get_eq_of_canonical hc (by decide)] at hget
      have hs := hd.contentLength_digit (ch 's') (hget ▸ List.mem_cons_self)
      revert hs
      decide
    · rw [get_eq_of_canonical (List.mem_singleton.mp hmem) (by decide)] at hget
      obtain ⟨b, hb, hn⟩ := hd.expect_token (by rw [hget]; exact List.cons_ne_nil _ _)
      rw [hget] at hb
      rcases List.mem_append.mp hb with hb | hb
      · exact forall_mem_of_all (p := fun b => lowerByte b ≠ ch 'n') (by decide) b hb hn
      · have hhex := (digits_of_hexDecode hx).2 b hb
        exact forall_byte (P := fun b => fromHexChar b ≠ none → lowerByte b ≠ ch 'n')
          (by decide +kernel) b (fun e => fromHexChar_eq_none.mp e hhex) hn

/-- A header of a delivered request with a number can hold a timestamp. -/
theorem canStamp_of_get {name : GoString} {secs : Int} (hd : header.Delivered body)
    (hne : header.get name ≠ []) (hp : parseInt (header.get name) = some secs) :
    CanStamp name := by
  refine ⟨?_, fun hc => ?_⟩
  · by_contra hk
    exact hne (header.get_of_not_headerKey hk)
  · rw [get_eq_of_canonical hc (by decide)] at hne hp
    obtain ⟨b, hb, hn⟩ := hd.expect_token hne
    rcases mem_of_parseInt hp hb with rfl | rfl | hdig
    · revert hn
      decide
    · revert hn
      decide
    · exact forall_byte (P := fun b => isDigit b = true → lowerByte b ≠ ch 'n')
        (by decide +kernel) b hdig hn

/-- What is applied is a ticket in the trigger status, with the fields. -/
theorem Serves.ticket (h : Serves hmac cfg now header body) :
    (cfg.triggerStatus ≠ [] ∧ ValidString cfg.triggerStatus) ∧
      ∀ id ∈ cfg.fieldIDs, ValidString id ∧ id ≠ lit "status" := by
  obtain ⟨-, act, hh⟩ := h
  rw [provider_handle] at hh
  obtain ⟨payload, g, r, p, hd, hs, hg, hr, hp, -⟩ := handle_apply.mp hh
  -- What was decoded is valid UTF-8, and `status` is no custom field.
  obtain ⟨hdec, hne⟩ := decode_decoded hd
  have hfield : ∀ {id v}, extractString payload id = .ok v →
      ValidString id ∧ id ≠ lit "status" := by
    intro id v he
    obtain ⟨s, hs, -⟩ := extractString_eq_ok.mp he
    exact hdec.2 id (Option.ne_none_iff_exists'.mpr ⟨_, hs⟩)
  refine ⟨hs ▸ ⟨hne, hdec.1⟩, ?_⟩
  simp only [Config.fieldIDs, List.forall_mem_cons, List.not_mem_nil, false_imp_iff,
    implies_true, and_true]
  exact ⟨hfield hg, hfield hr, hfield hp⟩

/-- A provider that serves a delivered request is usable. -/
theorem Serves.usable (h : Serves hmac cfg now header body) (hdel : header.Delivered body) :
    cfg.Usable := by
  obtain ⟨hts, hexSig, hsig, hhex⟩ := verify_ok.mp h.1
  obtain ⟨htsne, secs, hsecs⟩ := parseInt_of_verifyTimestamp hts
  refine ⟨h.ticket.1, h.ticket.2, canSign_of_get hdel hsig hhex,
    canStamp_of_get hdel htsne hsecs, fun he => ?_⟩
  -- One header cannot be both: a signature is no number.
  have hget : header.get cfg.signature.tsHeader = header.get cfg.signature.sigHeader := by
    rw [Header.get, Header.get, he]
  rw [hget, hsig, parseInt_signature] at hsecs
  cases hsecs

/-! ## What can be served -/

/-- The fields of a ticket in the trigger status. -/
def ticketFields (cfg : Config) : List (GoString × Json) :=
  (lit "status", .obj [(lit "name", .str cfg.triggerStatus)]) ::
    -- Settings may name one custom field twice.
    cfg.fieldIDs.dedup.map fun id => (id, .str (lit "x"))

/-- A ticket in the trigger status, with all the fields. -/
def filledTicket (cfg : Config) : Doc :=
  .obj [("issue".toList, .obj [("key".toList, .str "K-1".toList),
    ("fields".toList, .obj
      (("status".toList, .obj [("name".toList, .str (runes cfg.triggerStatus))]) ::
        cfg.fieldIDs.dedup.map fun id => (runes id, .str "x".toList)))])]

/-- The fields that are filled are read as texts. -/
theorem membersToJson_fields {ids : List GoString} (h : ∀ id ∈ ids, ValidString id) :
    membersToJson (ids.map fun id => (runes id, .str "x".toList)) =
      ids.map fun id => (id, .str (lit "x")) := by
  induction ids with
  | nil => rfl
  | cons id ids ih =>
    obtain ⟨hid, hids⟩ := List.forall_mem_cons.mp h
    rw [List.map_cons, List.map_cons, membersToJson, ih hids, hid]
    rfl

theorem membersDepth_fields (ids : List GoString) :
    membersDepth (ids.map fun id => (runes id, .str "x".toList)) = 0 := by
  induction ids with
  | nil => rfl
  | cons id ids ih => rw [List.map_cons, membersDepth, ih]; rfl

/-- The value of the ticket. -/
def filledJson (cfg : Config) : Json :=
  .obj [(lit "issue", .obj [(lit "key", .str (lit "K-1")),
    (lit "fields", .obj (ticketFields cfg))])]

/-- The ticket that is rendered is the one that is read. -/
theorem filledTicket_toJson (h : cfg.Usable) : (filledTicket cfg).toJson = filledJson cfg := by
  have hids := membersToJson_fields fun id (hid : id ∈ cfg.fieldIDs.dedup) =>
    (h.field id (List.mem_dedup.mp hid)).1
  have htr : encodeRunes (runes cfg.triggerStatus) = cfg.triggerStatus := h.trigger.2
  simp only [filledTicket, Doc.toJson, membersToJson, hids, htr]
  rfl

/-- No field is filled twice. -/
theorem ticketFields_nodup (h : cfg.Usable) : ((ticketFields cfg).map (·.1)).Nodup := by
  rw [ticketFields, List.map_cons, List.map_map, List.nodup_cons]
  have hid : ((fun m : GoString × Json => m.1) ∘ fun id => (id, .str (lit "x"))) = id := rfl
  rw [hid, List.map_id]
  exact ⟨fun hm => (h.field _ (List.mem_dedup.mp hm)).2 rfl, List.nodup_dedup _⟩

theorem status_mem (h : cfg.Usable) : GoMap.ofList (ticketFields cfg) (lit "status") =
    some (.obj [(lit "name", .str cfg.triggerStatus)]) :=
  GoMap.ofList_of_mem (ticketFields_nodup h) List.mem_cons_self

theorem path_status (h : cfg.Usable) (rest : List GoString) :
    path (lit "issue" :: lit "fields" :: lit "status" :: rest) (filledJson cfg) =
      path rest (.obj [(lit "name", .str cfg.triggerStatus)]) := by
  have hp : path (lit "issue" :: lit "fields" :: lit "status" :: rest) (filledJson cfg) =
      (GoMap.ofList (ticketFields cfg) (lit "status")).bind (path rest) := rfl
  rw [hp, status_mem h, Option.bind_some]

/-- No member of the ticket is taken for another one. -/
theorem filledJson_unambiguous (h : cfg.Usable) : Unambiguous (filledJson cfg) where
  top ms hms := by
    obtain rfl := Json.obj.inj (Option.some.inj hms)
    have hp : Plain fieldNames [(lit "issue", .null)] := by decide
    exact hp.congr rfl
  issue ms hms := by
    obtain rfl := Json.obj.inj (Option.some.inj hms)
    have hp : Plain fieldNames [(lit "key", .null), (lit "fields", .null)] := by decide
    exact hp.congr rfl
  status ms hms := by
    rw [path_status h] at hms
    obtain rfl := Json.obj.inj (Option.some.inj hms)
    have hp : Plain fieldNames [(lit "name", .null)] := by decide
    exact hp.congr rfl
  fields ms hms := by
    obtain rfl := Json.obj.inj (Option.some.inj hms)
    exact ticketFields_nodup h

/-- It is a ticket in the trigger status. -/
theorem filledJson_ticket (h : cfg.Usable) :
    Ticket (filledJson cfg) (lit "K-1") cfg.triggerStatus (ticketFields cfg) where
  has_key := rfl
  key_ne := by decide
  has_fields := rfl
  has_status := by
    rw [path_status h]
    rfl
  status_ne := h.trigger.1

/-- All fields that are looked for are filled. -/
theorem filled_field (h : cfg.Usable) {id : GoString} (hid : id ∈ cfg.fieldIDs) :
    Filled (ticketFields cfg) id (lit "x") := by
  refine ⟨lit "x", ?_, by decide, by decide⟩
  rw [customField, if_neg (h.field id hid).2]
  exact GoMap.ofList_of_mem (ticketFields_nodup h)
    (List.mem_cons_of_mem _ (List.mem_map.mpr ⟨id, List.mem_dedup.mpr hid, rfl⟩))

/-- `Handle` applies the ticket, whatever white space is after it. -/
theorem handle_filledTicket (h : cfg.Usable) {space : GoString} (hs : skipSpace space = []) :
    ∃ act, handle cfg ((filledTicket cfg).render ++ space) = .ok (.apply act) := by
  have hdepth : (filledTicket cfg).depth ≤ maxNestingDepth := by
    simp only [filledTicket, Doc.depth, membersDepth, membersDepth_fields]
    decide
  -- The text of the ticket is parsed back, so it is enough to look at its value.
  have hp : parse ((filledTicket cfg).render ++ space) = some (filledJson cfg) :=
    (parse_render_append hdepth hs).trans (congrArg some (filledTicket_toJson h))
  refine ⟨_, (handle_apply_iff hp (filledJson_unambiguous h)).mpr ⟨_, _, _, _, _,
    filledJson_ticket h, filled_field h ?_, filled_field h ?_, filled_field h ?_, rfl⟩⟩ <;>
    simp [Config.fieldIDs]

/-- No text of the configuration that gets into a ticket is longer than `n`. -/
def Config.Short (n : Nat) (cfg : Config) : Prop :=
  cfg.triggerStatus.length ≤ n ∧ ∀ id ∈ cfg.fieldIDs, id.length ≤ n

/-- A rune is escaped by six bytes at most. -/
theorem length_quoted_runes_le {s : GoString} {n : Nat} (h : s.length ≤ n) :
    (quoted (runes s)).length ≤ 6 * n + 1 := by
  have := length_quoted_le (runes s)
  have := length_runes_le s
  omega

/-- How long the fields are, by how long their names are. -/
theorem length_renderTail_fields_le {n : Nat} {ids : List GoString}
    (h : ∀ id ∈ ids, id.length ≤ n) :
    (renderTail (ids.map fun id => (runes id, .str "x".toList))).length ≤
      ids.length * (6 * n + 8) + 1 := by
  induction ids with
  | nil => simp [renderTail]
  | cons id ids ih =>
    obtain ⟨hid, hids⟩ := List.forall_mem_cons.mp h
    have hq := length_quoted_runes_le hid
    have hx : (quoted "x".toList).length = 2 := by decide
    have ih := ih hids
    simp only [List.map_cons, renderTail, Doc.render, List.length_append, List.length_cons, hx,
      Nat.succ_mul] at ih ⊢
    omega

/-- So the ticket is not too long. -/
theorem length_filledTicket_le {n : Nat} (h : cfg.Short n) :
    (filledTicket cfg).render.length ≤ 24 * n + 120 := by
  have htail := length_renderTail_fields_le fun id hid => h.2 id (List.mem_dedup.mp hid)
  have hids : cfg.fieldIDs.dedup.length * (6 * n + 8) ≤ 3 * (6 * n + 8) :=
    Nat.mul_le_mul_right _ (List.dedup_sublist cfg.fieldIDs).length_le
  have hq := length_quoted_runes_le h.1
  have hissue : (quoted "issue".toList).length = 6 := by decide
  have hkey : (quoted "key".toList).length = 4 := by decide
  have hk1 : (quoted "K-1".toList).length = 4 := by decide
  have hfields : (quoted "fields".toList).length = 7 := by decide
  have hstatus : (quoted "status".toList).length = 7 := by decide
  have hname : (quoted "name".toList).length = 5 := by decide
  simp only [filledTicket, Doc.render, renderMembers, renderTail, List.length_append,
    List.length_cons, List.length_nil, hissue, hkey, hk1, hfields, hstatus, hname]
  omega

/-- An instant in the far future, in Unix seconds. -/
def farFuture : GoString := lit "9223371974719179007"

/-- It is within every window, as the difference to it saturates at the smallest
    duration, whose negation is itself. -/
theorem verifyTimestamp_farFuture {skew : Duration} (hnow : now.sec < 2 ^ 62)
    (hskew : minDuration ≤ skew) : verifyTimestamp farFuture now skew = .ok () := by
  have hparse : parseInt farFuture = some 9223371974719179007 := by decide
  have hsec : (Time.unix 9223371974719179007).sec = 2 ^ 63 - 1 := by decide
  have hdiff : now.diff (.unix 9223371974719179007) ≤ minDuration := by
    have hnsec := now.nsec_lt
    rw [Time.diff, hsec]
    show (now.sec - (2 ^ 63 - 1)) * 10 ^ 9 + ((now.nsec : Int) - (0 : Nat)) ≤ -2 ^ 63
    omega
  have hneg : (if minDuration < 0 then int64 (-minDuration) else minDuration) = minDuration := by
    decide
  rw [verifyTimestamp, if_neg (by decide), hparse]
  simp only [Time.sub_of_le hdiff, hneg]
  rw [if_neg (not_lt.mpr hskew)]

/-- The fields of a request with a signature, a timestamp and the length of the body. -/
def signedFields (hmac : HMAC) (cfg : Config) (ts body : GoString) : List (GoString × GoString) :=
  (cfg.signature.sigHeader, sign hmac cfg.signature.secretBytes ts body) ::
    (cfg.signature.tsHeader, ts) ::
    -- The timestamp may be the length.
    if canonicalMIMEHeaderKey cfg.signature.tsHeader = lit "Content-Length" then []
    else [(lit "Content-Length", formatNat body.length)]

/-- Digits may be sent in a header. -/
theorem validHeaderFieldValue_of_digit {v : GoString} (h : ∀ b ∈ v, isDigit b = true) :
    validHeaderFieldValue v = true :=
  List.all_eq_true.mpr fun b hb => forall_byte (P := fun b => isDigit b = true →
    (b == ch '\t' || (0x20 ≤ b && b != 0x7f)) = true) (by decide +kernel) b (h b hb)

/-- So may a signature. -/
theorem validHeaderFieldValue_sign (secret ts body : GoString) :
    validHeaderFieldValue (sign hmac secret ts body) = true := by
  rw [sign, validHeaderFieldValue, List.all_append, Bool.and_eq_true]
  refine ⟨by decide, List.all_eq_true.mpr fun b hb => ?_⟩
  have hhex := (digits_of_hexDecode (hexDecode_hexEncode _)).2 b hb
  exact forall_byte (P := fun b => fromHexChar b ≠ none →
    (b == ch '\t' || (0x20 ≤ b && b != 0x7f)) = true) (by decide +kernel) b
    fun e => fromHexChar_eq_none.mp e hhex

section

variable {ts : GoString} (h : cfg.Usable)

include h

/-- The signature is found under its name. -/
theorem get_sigHeader :
    (Header.ofPairs (signedFields hmac cfg ts body)).get cfg.signature.sigHeader =
      sign hmac cfg.signature.secretBytes ts body := by
  rw [Header.get_ofPairs _ h.sigHeader.1, signedFields, List.find?_cons_of_pos (by simp)]
  rfl

/-- So is the timestamp. -/
theorem get_tsHeader :
    (Header.ofPairs (signedFields hmac cfg ts body)).get cfg.signature.tsHeader = ts := by
  rw [Header.get_ofPairs _ h.tsHeader.1, signedFields,
    List.find?_cons_of_neg (by simpa using h.header_ne), List.find?_cons_of_pos (by simp)]
  rfl

/-- Nothing is expected of the server. -/
theorem get_expect : (Header.ofPairs (signedFields hmac cfg ts body)).get (lit "Expect") = [] := by
  have hkey : canonicalMIMEHeaderKey (lit "Expect") = lit "Expect" := by decide
  have hsig : canonicalMIMEHeaderKey cfg.signature.sigHeader ≠ lit "Expect" := fun e =>
    h.sigHeader.2 (e ▸ List.mem_cons_of_mem _ (List.mem_singleton_self _))
  have hlen : canonicalMIMEHeaderKey (lit "Content-Length") ≠ lit "Expect" := by decide
  rw [Header.get_ofPairs _ (by decide), hkey, signedFields,
    List.find?_cons_of_neg (by simpa using hsig),
    List.find?_cons_of_neg (by simpa using h.tsHeader.2)]
  split_ifs
  · rfl
  · rw [List.find?_cons_of_neg (by simpa using hlen)]
    rfl

/-- The length that is sent is that of the body, or the timestamp in its place. -/
theorem values_contentLength :
    (Header.ofPairs (signedFields hmac cfg ts body)).values (lit "Content-Length") =
      [if canonicalMIMEHeaderKey cfg.signature.tsHeader = lit "Content-Length" then ts
        else formatNat body.length] := by
  have hsig : canonicalMIMEHeaderKey cfg.signature.sigHeader ≠ lit "Content-Length" := fun e =>
    h.sigHeader.2 (e ▸ List.mem_cons_self)
  have hlen : canonicalMIMEHeaderKey (lit "Content-Length") = lit "Content-Length" := by decide
  have hkey : HeaderKey (lit "Content-Length") := by decide
  rw [Header.ofPairs]
  simp only [if_pos hkey, signedFields, List.filter_cons, hsig, decide_false]
  split_ifs <;> simp_all

/-- The server delivers a signed request. -/
theorem delivered_signed (hb : body.length < 2 ^ 63) (hts : ∀ b ∈ ts, isDigit b = true)
    (hne : ts ≠ []) (hlen : canonicalMIMEHeaderKey cfg.signature.tsHeader = lit "Content-Length" →
      digitsValue 10 ts = body.length) :
    (Header.ofPairs (signedFields hmac cfg ts body)).Delivered body where
  value {k v} hv := by
    obtain ⟨f, hf, rfl⟩ := Header.exists_mem_of_mem_ofPairs hv
    rw [signedFields, List.mem_cons, List.mem_cons] at hf
    rcases hf with rfl | rfl | hf
    · exact validHeaderFieldValue_sign ..
    · exact validHeaderFieldValue_of_digit hts
    · split_ifs at hf
      · cases hf
      · obtain rfl := List.mem_singleton.mp hf
        exact validHeaderFieldValue_of_digit (isDigit_formatNat _)
  expect := .inl (get_expect h)
  framed := by
    refine .length (values_contentLength h) ?_ ?_ hb
    · split_ifs
      · exact ⟨hne, List.all_eq_true.mpr hts⟩
      · exact ⟨formatNat_ne_nil _, List.all_eq_true.mpr (isDigit_formatNat _)⟩
    · split_ifs with hc
      · exact hlen hc
      · exact digitsValue_formatNat _

/-- A provider that is usable serves a request, whatever the clock says. -/
theorem Config.Usable.serves (hmac : HMAC) (hnow : now.sec < 2 ^ 62)
    (hskew : minDuration ≤ cfg.signature.skew) (hshort : cfg.Short (2 ^ 17)) :
    ∃ header body, header.Delivered body ∧ Serves hmac cfg now header body := by
  have hticket := length_filledTicket_le hshort
  have hdigit : ∀ b ∈ farFuture, isDigit b = true := forall_mem_of_all (by decide)
  have hvalue : digitsValue 10 farFuture = 9223371974719179007 := by decide
  -- The body has white space only where its length is the timestamp.
  obtain ⟨space, hspace, hb, hlen⟩ : ∃ space, skipSpace space = [] ∧
      ((filledTicket cfg).render ++ space).length < 2 ^ 63 ∧
      (canonicalMIMEHeaderKey cfg.signature.tsHeader = lit "Content-Length" →
        digitsValue 10 farFuture = ((filledTicket cfg).render ++ space).length) := by
    by_cases hc : canonicalMIMEHeaderKey cfg.signature.tsHeader = lit "Content-Length"
    · refine ⟨List.replicate (9223371974719179007 - (filledTicket cfg).render.length) (ch ' '),
        ?_, ?_, fun _ => ?_⟩
      · rw [skipSpace, List.dropWhile_eq_nil_iff]
        intro b hb
        rw [List.eq_of_mem_replicate hb]
        decide
      · rw [List.length_append, List.length_replicate]
        omega
      · rw [List.length_append, List.length_replicate, hvalue]
        omega
    · refine ⟨[], rfl, ?_, fun e => absurd e hc⟩
      rw [List.append_nil]
      omega
  obtain ⟨act, hact⟩ := handle_filledTicket h hspace
  refine ⟨.ofPairs (signedFields hmac cfg farFuture ((filledTicket cfg).render ++ space)), _,
    delivered_signed h hb hdigit (by decide) hlen, ?_, act, by rw [provider_handle, hact]⟩
  show verify _ _ (Header.get _ _) (Header.get _ _) _ _ _ = _
  rw [get_sigHeader h, get_tsHeader h]
  exact verify_signed (verifyTimestamp_farFuture hnow hskew)

end

/-- A provider serves some request exactly when it is usable. -/
theorem serves_iff (hmac : HMAC) (hnow : now.sec < 2 ^ 62)
    (hskew : minDuration ≤ cfg.signature.skew) (hshort : cfg.Short (2 ^ 17)) :
    (∃ header body, header.Delivered body ∧ Serves hmac cfg now header body) ↔ cfg.Usable := by
  constructor
  · rintro ⟨header, body, hdel, h⟩
    exact h.usable hdel
  · exact fun h => h.serves hmac hnow hskew hshort

end Jsm

/-! ## Accepted configurations -/

/-- The values of the variables that the provider depends on. -/
structure Provisions (env : Env) : Prop where
  trigger : ∃ v, Setting.triggerStatus.value env = .ok v ∧ v ≠ [] ∧ ValidString v
  field : ∀ s ∈ [Setting.fieldProviderGroupID, Setting.fieldRole, Setting.fieldProject],
    ∃ v, s.value env = .ok v ∧ ValidString v ∧ v ≠ lit "status"
  header : ∃ sig ts, Setting.signatureHeader.value env = .ok sig ∧
    Setting.timestampHeader.value env = .ok ts ∧ Jsm.CanSign sig ∧ Jsm.CanStamp ts ∧
    canonicalMIMEHeaderKey sig ≠ canonicalMIMEHeaderKey ts

/-- The condition on the environment is one on the configuration that is read from it. -/
theorem Parsed.usable_iff {env : Env} {cfg : Config} (h : Parsed env cfg) :
    Provisions env ↔ (Jsm.Config.ofConfig cfg).Usable := by
  have hfield : (∀ s ∈ [Setting.fieldProviderGroupID, Setting.fieldRole, Setting.fieldProject],
      ∃ v, s.value env = .ok v ∧ ValidString v ∧ v ≠ lit "status") ↔
      ∀ id ∈ (Jsm.Config.ofConfig cfg).fieldIDs, ValidString id ∧ id ≠ lit "status" := by
    simp only [Jsm.Config.fieldIDs, Jsm.Config.ofConfig, List.forall_mem_cons,
      h.fieldProviderGroupID, h.fieldRole, h.fieldProject, Except.ok.injEq, exists_eq_left',
      List.not_mem_nil, false_imp_iff, implies_true]
  constructor
  · rintro ⟨⟨v, hv, htr⟩, hf, sig, ts, hsig, hts, hks, hkt, hne⟩
    obtain rfl := Except.ok.inj (h.triggerStatus.symm.trans hv)
    obtain rfl := Except.ok.inj (h.signatureHeader.symm.trans hsig)
    obtain rfl := Except.ok.inj (h.timestampHeader.symm.trans hts)
    exact ⟨htr, hfield.mp hf, hks, hkt, hne⟩
  · intro hu
    exact ⟨⟨_, h.triggerStatus, hu.trigger⟩, hfield.mpr hu.field, _, _, h.signatureHeader,
      h.timestampHeader, hu.sigHeader, hu.tsHeader, hu.header_ne⟩

/-- A skew that was parsed is a duration. -/
theorem Parsed.minDuration_le_skew {env : Env} {cfg : Config} (h : Parsed env cfg) :
    minDuration ≤ cfg.timestampSkew := by
  have hv := h.timestampSkew
  unfold Setting.value at hv
  split at hv
  · obtain hv := Except.ok.inj hv
    rw [← hv]
    decide
  · case _ v _ =>
    change Setting.orMalformed _ (parseDuration v) = _ at hv
    cases hp : parseDuration v with
    | none =>
      rw [hp] at hv
      cases hv
    | some d =>
      rw [hp] at hv
      exact Except.ok.inj hv ▸ minDuration_le_parseDuration hp

/-- No variable is longer than the kernel lets a process have it. -/
def Env.Fits (env : Env) : Prop := ∀ {name v}, env name = some v → v.length ≤ 2 ^ 17

/-- Nor is then the value of a setting that is a text. -/
theorem Env.Fits.length_str {env : Env} (henv : env.Fits) {name fallback : String} {v : GoString}
    (h : (Setting.str name fallback).value env = .ok v)
    (hf : (lit fallback).length ≤ 2 ^ 17) : v.length ≤ 2 ^ 17 := by
  unfold Setting.value at h
  split at h
  · exact Except.ok.inj h ▸ hf
  · exact Except.ok.inj h ▸ henv ‹_›

/-- What is read from variables of bounded length is of bounded length. -/
theorem Parsed.short {env : Env} {cfg : Config} (h : Parsed env cfg) (henv : env.Fits) :
    (Jsm.Config.ofConfig cfg).Short (2 ^ 17) := by
  refine ⟨henv.length_str h.triggerStatus (by decide), ?_⟩
  simp only [Jsm.Config.fieldIDs, Jsm.Config.ofConfig, List.forall_mem_cons]
  exact ⟨henv.length_str h.fieldProviderGroupID (by decide),
    henv.length_str h.fieldRole (by decide), henv.length_str h.fieldProject (by decide),
    List.forall_mem_nil _⟩

/-- The provider of an accepted configuration serves some request that `net/http` delivers,
    whatever the clock says, exactly when the trigger status and the custom fields can
    occur in a ticket, and the two headers in such a request. -/
theorem provisions_iff (hmac : HMAC) {env : Env} {cfg : Config} (h : load env = .ok cfg)
    (henv : env.Fits) {now : Time} (hnow : now.sec < 2 ^ 62) :
    (∃ header body, header.Delivered body ∧ Jsm.Serves hmac (.ofConfig cfg) now header body) ↔
      Provisions env := by
  obtain ⟨hp, -⟩ := load_ok h
  rw [Jsm.serves_iff hmac hnow hp.minDuration_le_skew (hp.short henv), hp.usable_iff]

theorem provisions_iff_sampleEnv :
    ∃ cfg, load (sampleEnv []) = .ok cfg ∧ ∃ header body, header.Delivered body ∧
      Jsm.Serves sampleHMAC (.ofConfig cfg) (.unix 0) header body := by
  obtain ⟨cfg, hl, -⟩ := load_sampleEnv
  have henv : (sampleEnv []).Fits := fun {name v} hv => by
    have hmem := List.mem_map_of_mem (f := Prod.snd) (GoMap.mem_of_ofList hv)
    exact forall_mem_of_all (p := fun v : GoString => v.length ≤ 2 ^ 17) (by decide) v hmem
  refine ⟨cfg, hl, (provisions_iff sampleHMAC hl henv (by decide)).mpr
    ⟨⟨_, rfl, by decide⟩, ?_, _, _, rfl, rfl, by decide⟩⟩
  simp only [List.forall_mem_cons]
  exact ⟨⟨_, rfl, by decide⟩, ⟨_, rfl, by decide⟩, ⟨_, rfl, by decide⟩, nofun⟩

/-- The trigger status may be set, but empty. -/
theorem empty_trigger_inert :
    ∃ cfg, load (sampleEnv [(lit "WEBHOOK_JSM_TRIGGER_STATUS", [])]) = .ok cfg ∧
      cfg.providerEnabled (lit "jsm") ∧
      ∀ now header body, ¬Jsm.Serves sampleHMAC (.ofConfig cfg) now header body := by
  obtain ⟨cfg, hl, hp⟩ := load_of_any [("WEBHOOK_JSM_TRIGGER_STATUS", [])]
    (fun cfg => cfg.providerEnabled (lit "jsm") ∧ cfg.jsm.triggerStatus = []) (by decide +kernel)
  obtain ⟨hjsm, htr⟩ := of_decide_eq_true hp
  exact ⟨cfg, hl, hjsm, fun now header body h => h.ticket.1.1 htr⟩

end Webhookd
