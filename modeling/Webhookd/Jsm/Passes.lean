import Webhookd.Jsm.Provider

/-!
# The two passes over a body

`Decode` reads a body into a map, where names are exact and of repeated members
the last one counts, and then into a struct, where names match up to case and
repeated members are decoded into the same value. `readExact` is the reading
the first pass suggests, with exact names all the way down.

* `Payload.unmarshal_members`: the second pass takes the key and the status from
  the last text among *all* the members of these names up to case, and the
  custom fields from the last of all `fields`.
* `decode_exact_iff`: so it gives the payload of the exact reading exactly when
  these are the same as those of the exact names.
-/

namespace Webhookd.Jsm

open Go

/-! ## Reading exact names -/

/-- The status, by its exact name. -/
def Status.read (v : Json) : Option Status := do
  let raw ← decodeRawMap v
  let name ← storeLookup (raw (lit "name")) decodeString []
  pure { name }

/-- The fields, with the status by its exact name, and the others as custom fields. -/
def IssueFields.read (v : Json) : Option IssueFields := do
  let raw ← decodeRawMap v
  let status ← storeLookup (raw (lit "status")) (fun v _ => Status.read v) {}
  pure { status, customFields := raw.erase (lit "status") }

/-- The issue, by exact names. -/
def Issue.read (v : Json) : Option Issue := do
  let raw ← decodeRawMap v
  let key ← storeLookup (raw (lit "key")) decodeString []
  let fields ← storeLookup (raw (lit "fields")) (fun v _ => IssueFields.read v) {}
  pure { key, fields }

/-- The payload, by exact names: what the probe has as the issue. -/
def Payload.read (t : Json) : Option Payload := do
  let probe ← decodeRawMap t
  let issue ← storeLookup (probe (lit "issue")) (fun v _ => Issue.read v) {}
  pure { issue }

/-- Reads a body by exact names, of repeated members the last. -/
def readExact (body : GoString) : Option Payload := parse body >>= Payload.read

/-! ## The condition -/

/-- What the status is decoded from, in every `fields` of every issue up to case. -/
def statusNames (t : Json) : List Json :=
  (foldPath [lit "issue", lit "fields"] t).flatMap fun v =>
    (path [lit "status"] v).toList.flatMap (foldMembers (lit "name"))

/-- The members other than the status. -/
def otherFields (v : Json) : GoMap Json := ((decodeRawMap v).getD ∅).erase (lit "status")

/-- Up to case, the body ends up with the key, the status and the custom fields that
    it has under the exact names. -/
structure Concordant (t : Json) : Prop where
  key : ∃ s, path [lit "issue", lit "key"] t = some (.str s) ∧
    lastText (foldPath [lit "issue", lit "key"] t) = some s
  status : ∃ s, path [lit "issue", lit "fields", lit "status", lit "name"] t = some (.str s) ∧
    lastText (statusNames t) = some s
  fields : ∃ v w, path [lit "issue", lit "fields"] t = some v ∧
    (foldPath [lit "issue", lit "fields"] t).getLast? = some w ∧ otherFields v = otherFields w

/-! ## What is read by exact names -/

theorem decodeRawMap_eq_path {v : Json} {raw : GoMap Json} (h : decodeRawMap v = some raw) :
    raw = fun n => path [n] v := by
  cases v with
  | null => exact (Option.some.inj h).symm
  | obj ms =>
    obtain rfl := Option.some.inj h
    funext n
    rw [path_singleton]
  | _ => cases h

/-- A member that is read on its own, and is not the zero value, is there. -/
theorem storeLookup_read {α : Type} {read : Json → Option α} {z a : α} {v : Option Json}
    (ha : a ≠ z) :
    storeLookup v (fun v _ => read v) z = some a ↔ ∃ w, v = some w ∧ read w = some a := by
  cases v with
  | none => simp [storeLookup, ha.symm]
  | some w => simp [storeLookup]

theorem Status.read_eq_some {v : Json} {st : Status} (hn : st.name ≠ []) :
    Status.read v = some st ↔ path [lit "name"] v = some (.str st.name) := by
  constructor
  · intro h
    obtain ⟨raw, hraw, h⟩ := Option.bind_eq_some_iff.mp h
    obtain ⟨name, hname, h⟩ := Option.bind_eq_some_iff.mp h
    obtain rfl := Option.some.inj h
    rwa [storeLookup_string hn, decodeRawMap_eq_path hraw] at hname
  · intro h
    obtain ⟨ms, rfl, hname⟩ := path_singleton_eq_some.mp h
    simp only [Status.read, decodeRawMap, Option.bind_eq_bind, Option.bind_some, hname]
    rfl

theorem IssueFields.read_eq_some {v : Json} {f : IssueFields} (hn : f.status.name ≠ []) :
    IssueFields.read v = some f ↔
      path [lit "status", lit "name"] v = some (.str f.status.name) ∧
        otherFields v = f.customFields := by
  have hz : f.status ≠ {} := fun h => hn (h ▸ rfl)
  constructor
  · intro h
    obtain ⟨raw, hraw, h⟩ := Option.bind_eq_some_iff.mp h
    obtain ⟨status, hstatus, h⟩ := Option.bind_eq_some_iff.mp h
    obtain rfl := Option.some.inj h
    obtain ⟨w, hw, hread⟩ := (storeLookup_read hz).mp hstatus
    rw [decodeRawMap_eq_path hraw] at hw
    refine ⟨path_cons_eq_some.mpr ⟨w, hw, (Status.read_eq_some hn).mp hread⟩, ?_⟩
    rw [otherFields, hraw, Option.getD_some]
  · rintro ⟨h, ho⟩
    obtain ⟨w, hw, hname⟩ := path_cons_eq_some.mp h
    obtain ⟨ms, rfl, hstatus⟩ := path_singleton_eq_some.mp hw
    have hread : Status.read w = some f.status := (Status.read_eq_some hn).mpr hname
    simp only [IssueFields.read, decodeRawMap, Option.bind_eq_bind, Option.bind_some, hstatus,
      storeLookup, hread]
    exact congrArg (fun c => some (⟨f.status, c⟩ : IssueFields)) ho

theorem Issue.read_eq_some {v : Json} {i : Issue} (hk : i.key ≠ [])
    (hn : i.fields.status.name ≠ []) :
    Issue.read v = some i ↔
      path [lit "key"] v = some (.str i.key) ∧
        path [lit "fields", lit "status", lit "name"] v = some (.str i.fields.status.name) ∧
        ∃ w, path [lit "fields"] v = some w ∧ otherFields w = i.fields.customFields := by
  have hz : i.fields ≠ {} := fun h => hn (h ▸ rfl)
  constructor
  · intro h
    obtain ⟨raw, hraw, h⟩ := Option.bind_eq_some_iff.mp h
    obtain ⟨key, hkey, h⟩ := Option.bind_eq_some_iff.mp h
    obtain ⟨fields, hfields, h⟩ := Option.bind_eq_some_iff.mp h
    obtain rfl := Option.some.inj h
    obtain ⟨w, hw, hread⟩ := (storeLookup_read hz).mp hfields
    obtain ⟨hname, ho⟩ := (IssueFields.read_eq_some hn).mp hread
    rw [storeLookup_string hk] at hkey
    rw [decodeRawMap_eq_path hraw] at hkey hw
    exact ⟨hkey, path_cons_eq_some.mpr ⟨w, hw, hname⟩, w, hw, ho⟩
  · rintro ⟨hkey, hname, w, hw, ho⟩
    obtain ⟨w', hw', hstatus⟩ := path_cons_eq_some.mp hname
    obtain rfl := Option.some.inj (hw.symm.trans hw')
    obtain ⟨ms, rfl, hfields⟩ := path_singleton_eq_some.mp hw
    have hread : IssueFields.read w = some i.fields :=
      (IssueFields.read_eq_some hn).mpr ⟨hstatus, ho⟩
    rw [path_singleton] at hkey
    simp only [Issue.read, decodeRawMap, Option.bind_eq_bind, Option.bind_some, hkey, hfields,
      storeLookup, hread]
    rfl

/-- A payload with a key and a status is read from a body that has them, and only from it. -/
theorem Payload.read_eq_some {t : Json} {p : Payload} (hk : p.issueKey ≠ [])
    (hn : p.status ≠ []) :
    Payload.read t = some p ↔
      path [lit "issue", lit "key"] t = some (.str p.issueKey) ∧
        path [lit "issue", lit "fields", lit "status", lit "name"] t = some (.str p.status) ∧
        ∃ w, path [lit "issue", lit "fields"] t = some w ∧
          otherFields w = p.issue.fields.customFields := by
  have hz : p.issue ≠ {} := fun h => hk (congrArg Issue.key h)
  constructor
  · intro h
    obtain ⟨probe, hprobe, h⟩ := Option.bind_eq_some_iff.mp h
    obtain ⟨issue, hissue, h⟩ := Option.bind_eq_some_iff.mp h
    obtain rfl := Option.some.inj h
    obtain ⟨v, hv, hread⟩ := (storeLookup_read hz).mp hissue
    rw [decodeRawMap_eq_path hprobe] at hv
    obtain ⟨hkey, hname, w, hw, ho⟩ := (Issue.read_eq_some hk hn).mp hread
    exact ⟨path_cons_eq_some.mpr ⟨v, hv, hkey⟩, path_cons_eq_some.mpr ⟨v, hv, hname⟩, w,
      path_cons_eq_some.mpr ⟨v, hv, hw⟩, ho⟩
  · rintro ⟨hkey, hname, w, hw, ho⟩
    -- All three paths go through the one issue.
    obtain ⟨v, hv, -⟩ := path_cons_eq_some.mp hkey
    obtain ⟨ms, rfl, hissue⟩ := path_singleton_eq_some.mp hv
    rw [path_of_ofList hissue] at hkey hname hw
    have hread : Issue.read v = some p.issue :=
      (Issue.read_eq_some hk hn).mpr ⟨hkey, hname, w, hw, ho⟩
    simp only [Payload.read, decodeRawMap, Option.bind_eq_bind, Option.bind_some, hissue,
      storeLookup, hread]
    rfl

/-! ## What the second pass takes -/

/-- Stores a string over another one. -/
abbrev storeString (s : GoString) (v : Json) : Option GoString := decodeString v s

theorem Status.unmarshal_members {v : Json} {st st' : Status}
    (h : Status.unmarshal v st = some st') :
    (foldMembers (lit "name") v).foldlM storeString st.name = some st'.name := by
  refine decodeStruct_field (by decide) ?_ ?_ h
  · simp only [List.forall_mem_singleton]
    intro _ v a a' ha
    obtain ⟨name, hname, rfl⟩ := Option.map_eq_some_iff.mp ha
    exact hname
  · simp

/-- A `fields` adds to the names that the status had, and replaces the custom fields. -/
theorem IssueFields.unmarshalJSON_members {v : Json} {f f' : IssueFields}
    (h : f.unmarshalJSON v = some f') :
    ((path [lit "status"] v).toList.flatMap (foldMembers (lit "name"))).foldlM storeString
        f.status.name = some f'.status.name ∧
      (decodeRawMap v).map (·.erase (lit "status")) = some f'.customFields := by
  obtain ⟨raw, hraw, h⟩ := Option.bind_eq_some_iff.mp h
  have hp : path [lit "status"] v = raw (lit "status") := by rw [decodeRawMap_eq_path hraw]
  rw [hp, hraw]
  cases hs : raw (lit "status") with
  | none =>
    rw [hs] at h
    obtain rfl := Option.some.inj h
    exact ⟨rfl, congrArg some (Function.update_eq_self_iff.mpr hs.symm)⟩
  | some rawStatus =>
    rw [hs] at h
    obtain ⟨st, hst, h⟩ := Option.bind_eq_some_iff.mp h
    obtain rfl := Option.some.inj h
    refine ⟨?_, rfl⟩
    rw [Option.toList_some, List.flatMap_singleton]
    exact Status.unmarshal_members hst

/-- The key of an issue and its fields are decoded from the members of these names. -/
theorem Issue.unmarshal_members {v : Json} {i i' : Issue} (h : Issue.unmarshal v i = some i') :
    (foldMembers (lit "key") v).foldlM storeString i.key = some i'.key ∧
      (foldMembers (lit "fields") v).foldlM (fun f v => IssueFields.unmarshalJSON v f) i.fields =
        some i'.fields := by
  have hkey : ∀ v (i i' : Issue), (decodeString v i.key).map ({ i with key := · }) = some i' →
      decodeString v i.key = some i'.key ∧ i'.fields = i.fields := by
    intro v i i' h
    obtain ⟨key, hkey, rfl⟩ := Option.map_eq_some_iff.mp h
    exact ⟨hkey, rfl⟩
  have hfields : ∀ v (i i' : Issue),
      (i.fields.unmarshalJSON v).map ({ i with fields := · }) = some i' →
      i.fields.unmarshalJSON v = some i'.fields ∧ i'.key = i.key := by
    intro v i i' h
    obtain ⟨fields, hfields, rfl⟩ := Option.map_eq_some_iff.mp h
    exact ⟨hfields, rfl⟩
  have hne : foldName (lit "fields") ≠ foldName (lit "key") := by decide
  constructor
  · refine decodeStruct_field (by decide) ?_ ?_ h
    · simp only [List.forall_mem_cons, List.not_mem_nil, false_imp_iff, implies_true, and_true]
      exact ⟨fun _ v a a' ha => (hkey v a a' ha).1, fun he => absurd he hne⟩
    · simp only [List.forall_mem_cons, List.not_mem_nil, false_imp_iff, implies_true, and_true]
      exact ⟨fun he => absurd rfl he, fun _ v a a' ha => (hfields v a a' ha).2⟩
  · refine decodeStruct_field (by decide) ?_ ?_ h
    · simp only [List.forall_mem_cons, List.not_mem_nil, false_imp_iff, implies_true, and_true]
      exact ⟨fun he => absurd he.symm hne, fun _ v a a' ha => (hfields v a a' ha).1⟩
    · simp only [List.forall_mem_cons, List.not_mem_nil, false_imp_iff, implies_true, and_true]
      exact ⟨fun _ v a a' ha => (hkey v a a' ha).2, fun he => absurd rfl he⟩

theorem Payload.unmarshal_issue {t : Json} {p p' : Payload}
    (h : Payload.unmarshal t p = some p') :
    (foldMembers (lit "issue") t).foldlM (fun i v => Issue.unmarshal v i) p.issue =
      some p'.issue := by
  refine decodeStruct_field (by decide) ?_ ?_ h
  · simp only [List.forall_mem_singleton]
    intro _ v a a' ha
    obtain ⟨i, hi, rfl⟩ := Option.map_eq_some_iff.mp ha
    exact hi
  · simp

/-- The second pass takes the last text under the key, the last one under a status, and
    the last `fields`, of all the members that have these names up to case. -/
theorem Payload.unmarshal_members {t : Json} {p : Payload} (h : Payload.unmarshal t {} = some p) :
    p.issueKey = (lastText (foldPath [lit "issue", lit "key"] t)).getD [] ∧
      p.status = (lastText (statusNames t)).getD [] ∧
      (foldPath [lit "issue", lit "fields"] t).getLast?.elim (some ∅)
          (fun v => (decodeRawMap v).map (·.erase (lit "status"))) =
        some p.issue.fields.customFields := by
  have hissue := Payload.unmarshal_issue h
  have hfields : (foldPath [lit "issue", lit "fields"] t).foldlM
      (fun f v => IssueFields.unmarshalJSON v f) {} = some p.issue.fields := by
    rw [foldPath_pair]
    exact foldlM_flatMap (fun v i i' hi => (Issue.unmarshal_members hi).2) hissue
  refine ⟨?_, ?_, ?_⟩
  · rw [foldPath_pair]
    exact foldlM_decodeString
      (foldlM_flatMap (fun v i i' hi => (Issue.unmarshal_members hi).1) hissue)
  · exact foldlM_decodeString
      (foldlM_flatMap (fun v f f' hf => (IssueFields.unmarshalJSON_members hf).1) hfields)
  · refine foldlM_replace ?_
    rw [← List.flatMap_singleton' (foldPath _ t)]
    show List.foldlM _ (IssueFields.customFields {}) _ = _
    refine foldlM_flatMap (fun v f f' hf => ?_) hfields
    rw [List.foldlM_cons, (IssueFields.unmarshalJSON_members hf).2]
    rfl

/-! ## The passes compared -/

/-- A text that is not the default was there. -/
theorem lastText_of_getD {vs : List Json} {s : GoString} (hs : s ≠ [])
    (h : s = (lastText vs).getD []) : lastText vs = some s := by
  rcases hl : lastText vs with _ | s'
  · exact absurd (by rw [h, hl, Option.getD_none]) hs
  · rw [h, hl, Option.getD_some]

/-- The second pass gives the payload of the exact reading only when they agree on what
    there is up to case. -/
theorem read_iff_concordant {t : Json} {p : Payload} (h : decodeTree t = .ok p) :
    Payload.read t = some p ↔ Concordant t := by
  obtain ⟨-, hu, hk, hn⟩ := decodeTree_inv.mp h
  obtain ⟨hkey, hname, hfields⟩ := Payload.unmarshal_members hu
  -- Neither text is empty, so there is one.
  have hkey := lastText_of_getD hk hkey
  have hname := lastText_of_getD hn hname
  rw [Payload.read_eq_some hk hn]
  constructor
  · rintro ⟨hk', hn', v, hv, ho⟩
    refine ⟨⟨_, hk', hkey⟩, ⟨_, hn', hname⟩, ?_⟩
    rcases hw : (foldPath [lit "issue", lit "fields"] t).getLast? with _ | w
    · -- Without any fields there would be no status.
      rw [statusNames, List.getLast?_eq_none_iff.mp hw] at hname
      cases hname
    · rw [hw] at hfields
      obtain ⟨raw, hraw, he⟩ := Option.map_eq_some_iff.mp hfields
      refine ⟨v, w, hv, rfl, ?_⟩
      rw [ho, ← he, otherFields, hraw, Option.getD_some]
  · rintro ⟨⟨s, hs, hs'⟩, ⟨r, hr, hr'⟩, v, w, hv, hw, ho⟩
    obtain rfl := Option.some.inj (hkey.symm.trans hs')
    obtain rfl := Option.some.inj (hname.symm.trans hr')
    rw [hw] at hfields
    obtain ⟨raw, hraw, he⟩ := Option.map_eq_some_iff.mp hfields
    refine ⟨hs, hr, v, hv, ?_⟩
    rw [ho, ← he, otherFields, hraw, Option.getD_some]

/-- From a body that is accepted, the payload of the exact reading is returned exactly when
    the last of the key, the status and the fields up to case are those of the exact names. -/
theorem decode_exact_iff {body : GoString} {p : Payload} (h : decode body = .ok p) :
    readExact body = some p ↔ ∃ t, parse body = some t ∧ Concordant t := by
  obtain ⟨t, ht, h⟩ := exists_parse_of_decode h
  rw [readExact, ht, Option.bind_eq_bind, Option.bind_some, read_iff_concordant h]
  exact ⟨fun hc => ⟨t, rfl, hc⟩, fun ⟨_, he, hc⟩ => Option.some.inj he ▸ hc⟩

theorem decode_exact_sampleTicket :
    ∃ p, decode sampleTicket.render = .ok p ∧ readExact sampleTicket.render = some p := by
  have hp : parse sampleTicket.render = some sampleTicket.toJson := parse_render (by decide)
  have hd : decode sampleTicket.render = .ok (Ticket.payload (lit "SEC-1") (lit "Ready") _) :=
    (decode_ok hp sampleTicket_unambiguous).mpr
      ⟨_, _, _, ⟨rfl, by decide, rfl, rfl, by decide⟩, rfl⟩
  exact ⟨_, hd, (decode_exact_iff hd).mpr
    ⟨_, hp, ⟨⟨_, rfl, rfl⟩, ⟨_, rfl, rfl⟩, _, _, rfl, rfl, rfl⟩⟩⟩

/-- An issue with nothing in it, and another one whose name is in capitals. -/
def sampleShadow : Doc :=
  .obj [("issue".toList, .obj []),
    ("ISSUE".toList, .obj [("key".toList, .str "SEC-2".toList),
      ("fields".toList, .obj [("status".toList, .obj [("name".toList, .str "Ready".toList)])])])]

/-- A body is accepted, with a key and a status, although its issue has neither. -/
theorem decode_shadow :
    ∃ p, decode sampleShadow.render = .ok p ∧ readExact sampleShadow.render = some {} ∧ p ≠ {} := by
  have hp : parse sampleShadow.render = some sampleShadow.toJson := parse_render (by decide)
  rw [decode_of_parse hp, readExact, hp]
  refine ⟨_, rfl, rfl, fun h => ?_⟩
  exact absurd (congrArg Payload.issueKey h) (by decide)

end Webhookd.Jsm
