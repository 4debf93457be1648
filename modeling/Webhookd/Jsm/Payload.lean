import Webhookd.Action
import Webhookd.Go.Unmarshal

/-!
# The payload of a ticket

`payload.go` and `extract.go`: decoding a JSM webhook body, and extracting the
values of custom fields from it.

A body is decoded twice, into a map to see whether it has an issue and into a
struct, where names match up to case. `decodeTree_ok` says what is decoded
from an `Unambiguous` body: a payload exactly when the body is a `Ticket`.
-/

namespace Webhookd.Jsm

open Go

/-! ## Decoding -/

/-- `Status`. -/
structure Status where
  name : GoString := []

/-- `IssueFields`. -/
structure IssueFields where
  status : Status := {}
  customFields : GoMap Json := ∅

/-- `Issue`. -/
structure Issue where
  key : GoString := []
  fields : IssueFields := {}

/-- `Payload`. -/
structure Payload where
  issue : Issue := {}

namespace Payload

/-- `Payload.Status`. -/
abbrev status (p : Payload) : GoString := p.issue.fields.status.name

/-- `Payload.IssueKey`. -/
abbrev issueKey (p : Payload) : GoString := p.issue.key

end Payload

/-- Decodes into a `Status`. -/
def Status.unmarshal : Json → Status → Option Status :=
  decodeStruct [(lit "name", fun v s => (decodeString v s.name).map ({ s with name := · }))]

/-- `IssueFields.UnmarshalJSON`. -/
def IssueFields.unmarshalJSON (b : Json) (f : IssueFields) : Option IssueFields := do
  let raw ← decodeRawMap b
  -- A repeated `fields` keeps the status of an earlier one, but not its fields.
  match raw (lit "status") with
  | some rawStatus =>
    let status ← Status.unmarshal rawStatus f.status
    pure { status, customFields := raw.erase (lit "status") }
  | none => pure { f with customFields := raw }

/-- Decodes into an `Issue`. -/
def Issue.unmarshal : Json → Issue → Option Issue :=
  decodeStruct
    [(lit "key", fun v i => (decodeString v i.key).map ({ i with key := · })),
      (lit "fields", fun v i => (i.fields.unmarshalJSON v).map ({ i with fields := · }))]

/-- Decodes into a `Payload`. -/
def Payload.unmarshal : Json → Payload → Option Payload :=
  decodeStruct
    [(lit "issue", fun v p => (Issue.unmarshal v p.issue).map ({ p with issue := · }))]

/-- `Decode`, of the value a body has. -/
def decodeTree (t : Json) : Except JsmError Payload :=
  match decodeRawMap t with
  | none => .error .invalidJSON
  | some probe =>
    match probe (lit "issue") with
    | none | some .null => .error .missingIssue
    | some _ =>
      match Payload.unmarshal t {} with
      | none => .error .invalidJSON
      | some p =>
        if p.issue.key = [] then .error .missingIssueKey
        else if p.issue.fields.status.name = [] then .error .missingStatus
        else .ok p

/-- `Decode`. -/
def decode (body : GoString) : Except JsmError Payload :=
  if body = [] then .error .invalidJSON
  else
    match parse body with
    | none => .error .invalidJSON
    | some t => decodeTree t

/-- `ExtractString`. -/
def extractString (p : Payload) (fieldID : GoString) : Except JsmError GoString :=
  match p.issue.fields.customFields fieldID with
  | none | some .null => .error (.fieldMissing fieldID)
  | some (.str s) =>
    let trimmed := trimSpace s
    if trimmed = [] then .error (.fieldEmpty fieldID) else .ok trimmed
  | some _ => .error (.fieldType fieldID)

/-! ## Tickets -/

/-- What a value has under a path of member names. -/
def path : List GoString → Json → Option Json
  | [], v => some v
  | n :: ns, .obj ms => GoMap.ofList ms n >>= path ns
  | _, _ => none

/-- The names of the fields that are decoded into. -/
def fieldNames : List GoString := [lit "issue", lit "key", lit "fields", lit "name"]

/-- No member name can be taken for another one, in the objects that are decoded
    into structs, and no field of the issue is repeated. -/
structure Unambiguous (t : Json) : Prop where
  top : ∀ ms, path [] t = some (.obj ms) → Plain fieldNames ms
  issue : ∀ ms, path [lit "issue"] t = some (.obj ms) → Plain fieldNames ms
  status : ∀ ms, path [lit "issue", lit "fields", lit "status"] t = some (.obj ms) →
    Plain fieldNames ms
  fields : ∀ ms, path [lit "issue", lit "fields"] t = some (.obj ms) → (ms.map (·.1)).Nodup

/-- The value is that of a ticket with an issue key, a status and some fields. -/
structure Ticket (t : Json) (key status : GoString) (fields : List (GoString × Json)) : Prop where
  has_key : path [lit "issue", lit "key"] t = some (.str key)
  key_ne : key ≠ []
  has_fields : path [lit "issue", lit "fields"] t = some (.obj fields)
  has_status : path [lit "issue", lit "fields", lit "status", lit "name"] t = some (.str status)
  status_ne : status ≠ []

/-- A field of a ticket, other than its status. -/
def customField (fields : List (GoString × Json)) (fieldID : GoString) : Option Json :=
  if fieldID = lit "status" then none else GoMap.ofList fields fieldID

/-- A field has a text, up to the space around it. -/
def Filled (fields : List (GoString × Json)) (fieldID v : GoString) : Prop :=
  ∃ s, customField fields fieldID = some (.str s) ∧ trimSpace s = v ∧ v ≠ []

/-- A field has a value that is not a text. -/
def WrongType (fields : List (GoString × Json)) (fieldID : GoString) : Prop :=
  ∃ v, customField fields fieldID = some v ∧ v ≠ .null ∧ ∀ s, v ≠ .str s

/-! ## What is decoded -/

theorem path_nil : path [] = some := funext fun _ => rfl

theorem path_cons_obj (n : GoString) (ns : List GoString) (ms : List (GoString × Json)) :
    path (n :: ns) (.obj ms) = (GoMap.ofList ms n).bind (path ns) := rfl

/-- A path goes on from the last member of its name. -/
theorem path_of_ofList {n : GoString} {ns : List GoString} {ms : List (GoString × Json)} {v : Json}
    (h : GoMap.ofList ms n = some v) : path (n :: ns) (.obj ms) = path ns v := by
  rw [path_cons_obj, h, Option.bind_some]

@[simp] theorem path_singleton (n : GoString) (ms : List (GoString × Json)) :
    path [n] (.obj ms) = GoMap.ofList ms n := Option.bind_fun_some _

/-- Only objects have members. -/
theorem path_singleton_eq_some {n : GoString} {t v : Json} :
    path [n] t = some v ↔ ∃ ms, t = .obj ms ∧ GoMap.ofList ms n = some v := by
  cases t <;> simp [path]

/-- A path is followed step by step. -/
theorem path_cons_eq_some {n : GoString} {ns : List GoString} {t v : Json} :
    path (n :: ns) t = some v ↔ ∃ w, path [n] t = some w ∧ path ns w = some v := by
  cases t <;> simp [path, Option.bind_eq_some_iff]

/-- Storing into a field of a struct. -/
theorem storeLookup_field {α β : Type} (dec : Json → β → Option β) (get : α → β)
    (set : α → β → α) (hs : ∀ a, set a (get a) = a) (v : Option Json) (a : α) :
    storeLookup v (fun v a => (dec v (get a)).map (set a)) a =
      (storeLookup v dec (get a)).map (set a) := by
  cases v with
  | none => simp [storeLookup, hs]
  | some v => rfl

/-- A string that is decoded from an optional member, and not empty, is there. -/
theorem storeLookup_string {v : Option Json} {s : GoString} (hs : s ≠ []) :
    storeLookup v decodeString [] = some s ↔ v = some (.str s) := by
  cases v with
  | none => simp [storeLookup, hs.symm]
  | some v => cases v <;> simp [storeLookup, decodeString, hs.symm]

/-- A status with a name is decoded from an object that has it. -/
theorem Status.unmarshal_eq_some {j : Json} {st : Status}
    (hp : ∀ ms, j = .obj ms → Plain fieldNames ms) (hn : st.name ≠ []) :
    Status.unmarshal j {} = some st ↔ path [lit "name"] j = some (.str st.name) := by
  obtain ⟨n⟩ := st
  cases j with
  | obj ms =>
    have hp : Plain [lit "name"] ms := (hp ms rfl).mono (by decide)
    rw [Status.unmarshal, decodeStruct_one hp,
      storeLookup_field decodeString Status.name _ fun _ => rfl]
    simp [storeLookup_string hn]
  | null => simpa [Status.unmarshal, decodeStruct, path] using hn.symm
  | _ => simp [Status.unmarshal, decodeStruct, path]

/-- Fields with a status are decoded from an object that has it. -/
theorem IssueFields.unmarshalJSON_eq_some {j : Json} {f : IssueFields}
    (hp : ∀ ms, path [lit "status"] j = some (.obj ms) → Plain fieldNames ms)
    (hn : f.status.name ≠ []) :
    IssueFields.unmarshalJSON j {} = some f ↔
      ∃ ms, j = .obj ms ∧ f.customFields = (GoMap.ofList ms).erase (lit "status") ∧
        path [lit "status", lit "name"] j = some (.str f.status.name) := by
  obtain ⟨st, cf⟩ := f
  cases j with
  | obj ms =>
    simp only [path_singleton] at hp
    simp only [IssueFields.unmarshalJSON, decodeRawMap, Option.bind_eq_bind, Option.bind_some,
      path_cons_obj, Json.obj.injEq, exists_eq_left']
    cases hs : GoMap.ofList ms (lit "status") with
    | none =>
      simp only [Option.pure_def, Option.some.injEq, IssueFields.mk.injEq, Option.bind_none]
      exact ⟨fun ⟨h, _⟩ => absurd (h ▸ rfl) hn, fun ⟨_, h⟩ => nomatch h⟩
    | some j =>
      have hst : Status.unmarshal j {} = some st ↔ _ :=
        Status.unmarshal_eq_some (fun ms' e => hp ms' (by rw [hs, e])) hn
      simp only [Option.bind_some, Option.bind_eq_some_iff, Option.pure_def, Option.some.injEq,
        IssueFields.mk.injEq, ← hst]
      constructor
      · rintro ⟨_, h, rfl, rfl⟩
        exact ⟨rfl, h⟩
      · rintro ⟨rfl, h⟩
        exact ⟨_, h, rfl, rfl⟩
  | null =>
    simp only [IssueFields.unmarshalJSON, decodeRawMap, Option.bind_eq_bind, Option.bind_some,
      GoMap.empty_apply, Option.pure_def, Option.some.injEq, IssueFields.mk.injEq]
    exact ⟨fun ⟨h, _⟩ => absurd (h ▸ rfl) hn, fun ⟨_, h, _⟩ => nomatch h⟩
  | _ => simp [IssueFields.unmarshalJSON, decodeRawMap]

/-- The fields of an issue, where no name is spelled in two cases. -/
theorem storeLookup_fields {v : Option Json} {f : IssueFields}
    (hp : ∀ ms, v.bind (path [lit "status"]) = some (.obj ms) → Plain fieldNames ms)
    (hn : f.status.name ≠ []) :
    storeLookup v IssueFields.unmarshalJSON {} = some f ↔
      ∃ ms, v = some (.obj ms) ∧ f.customFields = (GoMap.ofList ms).erase (lit "status") ∧
        path [lit "status", lit "name"] (.obj ms) = some (.str f.status.name) := by
  cases v with
  | none =>
    simp only [storeLookup, Option.some.injEq]
    constructor
    · intro h
      exact absurd (h ▸ rfl) hn
    · rintro ⟨_, h, _⟩
      cases h
  | some j =>
    rw [storeLookup, IssueFields.unmarshalJSON_eq_some hp hn]
    constructor
    · rintro ⟨ms, rfl, h⟩
      exact ⟨ms, rfl, h⟩
    · rintro ⟨ms, h, h'⟩
      obtain rfl := Option.some.inj h
      exact ⟨ms, rfl, h'⟩

/-- An issue with a key and a status is decoded from an object that has them. -/
theorem Issue.unmarshal_eq_some {j : Json} {i : Issue}
    (hp : ∀ ms, j = .obj ms → Plain fieldNames ms)
    (hp' : ∀ ms, path [lit "fields", lit "status"] j = some (.obj ms) → Plain fieldNames ms)
    (hk : i.key ≠ []) (hn : i.fields.status.name ≠ []) :
    Issue.unmarshal j {} = some i ↔
      path [lit "key"] j = some (.str i.key) ∧
        ∃ ms, path [lit "fields"] j = some (.obj ms) ∧
          i.fields.customFields = (GoMap.ofList ms).erase (lit "status") ∧
          path [lit "status", lit "name"] (.obj ms) = some (.str i.fields.status.name) := by
  obtain ⟨k, f⟩ := i
  cases j with
  | obj ms =>
    have hp : Plain [lit "key", lit "fields"] ms := (hp ms rfl).mono (by decide)
    rw [Issue.unmarshal, decodeStruct_two hp (by decide)]
    · have hf : storeLookup (GoMap.ofList ms (lit "fields")) IssueFields.unmarshalJSON {} =
          some f ↔ _ := storeLookup_fields hp' hn
      rw [storeLookup_field decodeString Issue.key _ fun _ => rfl]
      simp only [storeLookup_field IssueFields.unmarshalJSON Issue.fields
        (fun i f => { i with fields := f }) fun _ => rfl, Option.bind_eq_some_iff,
        Option.map_eq_some_iff, exists_exists_and_eq_and, Issue.mk.injEq, path_singleton,
        ← storeLookup_string hk]
      constructor
      · rintro ⟨_, h, _, h', rfl, rfl⟩
        exact ⟨h, hf.mp h'⟩
      · rintro ⟨h, h'⟩
        exact ⟨_, h, _, hf.mpr h', rfl, rfl⟩
    · -- Key and fields are stored independently of each other.
      intro v v' a
      cases h : decodeString v a.key <;> cases h' : a.fields.unmarshalJSON v' <;> simp [h, h']
  | null =>
    simp only [Issue.unmarshal, decodeStruct, Option.some.injEq, Issue.mk.injEq]
    exact ⟨fun ⟨h, _⟩ => absurd h.symm hk, fun ⟨h, _⟩ => nomatch h⟩
  | _ => simp [Issue.unmarshal, decodeStruct, path]

/-- A payload is read from its paths, if no name on them is ambiguous. -/
theorem Payload.unmarshal_eq_some {ms : List (GoString × Json)} {v : Json} {p : Payload}
    (hu : Unambiguous (.obj ms)) (hv : GoMap.ofList ms (lit "issue") = some v)
    (hk : p.issueKey ≠ []) (hn : p.status ≠ []) :
    Payload.unmarshal (.obj ms) {} = some p ↔
      path [lit "key"] v = some (.str p.issueKey) ∧
        ∃ fs, path [lit "fields"] v = some (.obj fs) ∧
          p.issue.fields.customFields = (GoMap.ofList fs).erase (lit "status") ∧
          path [lit "status", lit "name"] (.obj fs) = some (.str p.status) := by
  obtain ⟨i⟩ := p
  have hp : Plain [lit "issue"] ms := (hu.top ms rfl).mono (by decide)
  rw [Payload.unmarshal, decodeStruct_one hp, hv,
    storeLookup_field Issue.unmarshal Payload.issue _ fun _ => rfl, storeLookup,
    ← Issue.unmarshal_eq_some (fun ms' e => hu.issue ms' (by rw [path_of_ofList hv, e, path_nil]))
      (fun ms' e => hu.status ms' (by rw [path_of_ofList hv, e])) hk hn]
  simp

/-- What `Decode` requires. -/
theorem decodeTree_inv {t : Json} {p : Payload} :
    decodeTree t = .ok p ↔
      (∃ ms v, t = .obj ms ∧ GoMap.ofList ms (lit "issue") = some v ∧ v ≠ .null) ∧
        Payload.unmarshal t {} = some p ∧ p.issueKey ≠ [] ∧ p.status ≠ [] := by
  cases t with
  | obj ms =>
    cases hv : GoMap.ofList ms (lit "issue") with
    | none => simp [decodeTree, decodeRawMap, hv]
    | some v =>
      by_cases hn : v = .null
      · simp [decodeTree, decodeRawMap, hv, hn]
      · -- With an issue that is not null, the second pass decides.
        have he : decodeTree (.obj ms) =
            match Payload.unmarshal (.obj ms) {} with
            | none => .error .invalidJSON
            | some p =>
              if p.issue.key = [] then .error .missingIssueKey
              else if p.issue.fields.status.name = [] then .error .missingStatus
              else .ok p := by
          cases v <;> simp [decodeTree, decodeRawMap, hv] at hn ⊢
        rw [he]
        cases Payload.unmarshal (.obj ms) {} with
        | none => simp
        | some q =>
          simp only [Option.some.injEq]
          constructor
          · intro h
            split_ifs at h with hk hs
            cases h
            exact ⟨⟨ms, v, rfl, hv, hn⟩, rfl, hk, hs⟩
          · rintro ⟨-, rfl, hk, hs⟩
            rw [if_neg hk, if_neg hs]
  | _ => simp [decodeTree, decodeRawMap]

/-- A payload is decoded exactly from a ticket. -/
theorem decodeTree_ok {t : Json} {p : Payload} (hu : Unambiguous t) :
    decodeTree t = .ok p ↔
      ∃ fields, Ticket t p.issueKey p.status fields ∧
        p.issue.fields.customFields = (GoMap.ofList fields).erase (lit "status") := by
  rw [decodeTree_inv]
  constructor
  · rintro ⟨⟨ms, v, rfl, hv, -⟩, h, hk, hs⟩
    obtain ⟨hkey, fs, hfs, hcf, hst⟩ := (Payload.unmarshal_eq_some hu hv hk hs).mp h
    refine ⟨fs, ⟨?_, hk, ?_, ?_, hs⟩, hcf⟩
    · rw [path_of_ofList hv, hkey]
    · rw [path_of_ofList hv, hfs]
    · rw [path_of_ofList hv, path_cons_eq_some]
      exact ⟨_, hfs, hst⟩
  · -- All paths of a ticket go through its issue `v`.
    rintro ⟨fs, ht, hcf⟩
    obtain ⟨v, hi, hkey⟩ := path_cons_eq_some.mp ht.has_key
    obtain ⟨ms, rfl, hv⟩ := path_singleton_eq_some.mp hi
    have hfs : path [lit "fields"] v = some (.obj fs) := path_of_ofList hv ▸ ht.has_fields
    have hst : path [lit "fields", lit "status", lit "name"] v = some (.str p.status) :=
      path_of_ofList hv ▸ ht.has_status
    obtain ⟨_, hfs', hst⟩ := path_cons_eq_some.mp hst
    obtain rfl := Option.some.inj (hfs.symm.trans hfs')
    refine ⟨⟨ms, v, rfl, hv, ?_⟩, (Payload.unmarshal_eq_some hu hv ht.key_ne
      ht.status_ne).mpr ⟨hkey, fs, hfs, hcf, hst⟩, ht.key_ne, ht.status_ne⟩
    rintro rfl
    cases hkey

/-- A body that is JSON is decoded from its tree. -/
theorem decode_of_parse {body : GoString} {t : Json} (h : parse body = some t) :
    decode body = decodeTree t := by
  have hne : body ≠ [] := by
    rintro rfl
    cases h
  rw [decode, if_neg hne, h]

/-- A body that is decoded is JSON. -/
theorem exists_parse_of_decode {body : GoString} {p : Payload} (h : decode body = .ok p) :
    ∃ t, parse body = some t ∧ decodeTree t = .ok p := by
  unfold decode at h
  split_ifs at h
  cases ht : parse body with
  | none => simp [ht] at h
  | some t =>
    rw [ht] at h
    exact ⟨t, rfl, h⟩

/-- The payload of a ticket. -/
def Ticket.payload (key status : GoString) (fields : List (GoString × Json)) : Payload :=
  ⟨⟨key, ⟨⟨status⟩, (GoMap.ofList fields).erase (lit "status")⟩⟩⟩

/-- An unambiguous body is decoded exactly when it is a ticket. -/
theorem decode_ok {body : GoString} {t : Json} {p : Payload} (h : parse body = some t)
    (hu : Unambiguous t) :
    decode body = .ok p ↔
      ∃ key status fields, Ticket t key status fields ∧ p = Ticket.payload key status fields := by
  rw [decode_of_parse h, decodeTree_ok hu]
  constructor
  · rintro ⟨fields, ht, hp⟩
    refine ⟨_, _, fields, ht, ?_⟩
    rw [Ticket.payload, ← hp]
  · rintro ⟨key, status, fields, ht, rfl⟩
    exact ⟨fields, ht, rfl⟩

/-- A document is one ticket at most. -/
theorem Ticket.unique {t : Json} {key key' status status' : GoString}
    {fields fields' : List (GoString × Json)} (h : Ticket t key status fields)
    (h' : Ticket t key' status' fields') : key = key' ∧ status = status' ∧ fields = fields' :=
  ⟨Json.str.inj (Option.some.inj (h.has_key.symm.trans h'.has_key)),
    Json.str.inj (Option.some.inj (h.has_status.symm.trans h'.has_status)),
    Json.obj.inj (Option.some.inj (h.has_fields.symm.trans h'.has_fields))⟩

/-! ## What is extracted -/

section

variable {key status fieldID v : GoString} {fields : List (GoString × Json)} {e : JsmError}

/-- A custom field is a text, up to the space around it. -/
def Payload.TrimmedField (p : Payload) (fieldID v : GoString) : Prop :=
  ∃ s, p.issue.fields.customFields fieldID = some (.str s) ∧ trimSpace s = v ∧ v ≠ []

/-- A field is extracted if it is a text that is not blank. -/
theorem extractString_eq_ok {p : Payload} :
    extractString p fieldID = .ok v ↔ p.TrimmedField fieldID v := by
  rw [extractString, Payload.TrimmedField]
  rcases p.issue.fields.customFields fieldID with _ | (_ | _ | _ | s | _ | _) <;> simp
  split_ifs with hs
  · simp only [false_iff, not_and, not_not]
    exact fun h => h ▸ hs
  · simp only [Except.ok.injEq]
    exact ⟨fun h => ⟨h, h ▸ hs⟩, And.left⟩

/-- The payload has all fields of the ticket but its status. -/
theorem customFields_payload :
    (Ticket.payload key status fields).issue.fields.customFields fieldID =
      customField fields fieldID := by
  show (GoMap.ofList fields).erase (lit "status") fieldID = _
  rw [customField]
  split_ifs with h
  · rw [h, GoMap.erase_self]
  · rw [GoMap.erase_of_ne _ h]

/-- The fields that are extracted are those that are filled. -/
theorem extractString_ok :
    extractString (Ticket.payload key status fields) fieldID = .ok v ↔
      Filled fields fieldID v := by
  rw [extractString_eq_ok, Payload.TrimmedField, customFields_payload, Filled]

/-- The others fail, and the error tells whether there is a value of another type. -/
theorem extractString_error
    (h : extractString (Ticket.payload key status fields) fieldID = .error e) :
    (e = .fieldType fieldID ∧ WrongType fields fieldID) ∨
      ((e = .fieldMissing fieldID ∨ e = .fieldEmpty fieldID) ∧ ¬WrongType fields fieldID) := by
  revert h
  rw [extractString, customFields_payload, WrongType]
  rcases customField fields fieldID with _ | (_ | _ | _ | s | _ | _) <;> simp +contextual [eq_comm]
  -- A text fails when it is empty, and is no other value.
  split_ifs <;> simp +contextual

/-- A field of another type is an error of its own. -/
theorem extractString_wrongType (h : WrongType fields fieldID) :
    extractString (Ticket.payload key status fields) fieldID = .error (.fieldType fieldID) := by
  obtain ⟨v, hv, hn, hs⟩ := h
  rw [extractString, customFields_payload, hv]
  cases v with
  | null => exact absurd rfl hn
  | str s => exact absurd rfl (hs s)
  | _ => rfl

end

/-! ## What can be decoded at all -/

/-- What is decoded is valid UTF-8, and the status is not among the custom fields. -/
def IssueFields.Decoded (f : IssueFields) : Prop :=
  ValidString f.status.name ∧
    ∀ k, f.customFields k ≠ none → ValidString k ∧ k ≠ lit "status"

/-- The name of a status is valid UTF-8. -/
theorem Status.unmarshal_valid {v : Json} {st st' : Status} (hv : v.Wf)
    (h : ValidString st.name) (hs : Status.unmarshal v st = some st') : ValidString st'.name := by
  refine decodeStruct_keeps (P := fun st : Status => ValidString st.name) ?_ hv h hs
  simp only [List.forall_mem_singleton]
  rintro v st st' hv h hs
  obtain ⟨n, hn, rfl⟩ := Option.map_eq_some_iff.mp hs
  cases hv with
  | null => exact Option.some.inj hn ▸ h
  | str hstr => exact Option.some.inj hn ▸ hstr
  | _ => cases hn

/-- The keys of a map that was read are valid UTF-8. -/
theorem validString_of_ofList {ms : List (GoString × Json)} {k : GoString}
    (hms : ∀ m ∈ ms, ValidString m.1) (h : GoMap.ofList ms k ≠ none) : ValidString k := by
  obtain ⟨v, hv⟩ := Option.ne_none_iff_exists'.mp h
  exact hms (k, v) (GoMap.mem_of_ofList hv)

/-- What is read into the fields is as the decoder leaves it. -/
theorem IssueFields.unmarshalJSON_decoded {v : Json} {f f' : IssueFields} (hv : v.Wf)
    (h : f.Decoded) (hf : f.unmarshalJSON v = some f') : f'.Decoded := by
  obtain ⟨raw, hraw, hf⟩ := Option.bind_eq_some_iff.mp hf
  have hkeys : ∀ k, raw k ≠ none → ValidString k := by
    cases hv with
    | null =>
      obtain rfl := Option.some.inj hraw
      exact fun k hk => absurd rfl hk
    | obj hns _ =>
      obtain rfl := Option.some.inj hraw
      exact fun k hk => validString_of_ofList hns hk
    | _ => cases hraw
  split at hf
  · case _ rawStatus hst =>
    obtain ⟨st, hs, hf⟩ := Option.bind_eq_some_iff.mp hf
    obtain rfl := Option.some.inj hf
    have hw : rawStatus.Wf := by
      cases hv with
      | null =>
        obtain rfl := Option.some.inj hraw
        cases hst
      | obj _ hms =>
        obtain rfl := Option.some.inj hraw
        exact hms _ (GoMap.mem_of_ofList hst)
      | _ => cases hraw
    refine ⟨Status.unmarshal_valid hw h.1 hs, fun k hk => ?_⟩
    have hne : k ≠ lit "status" := by
      rintro rfl
      exact hk (GoMap.erase_self raw (lit "status"))
    exact ⟨hkeys k (GoMap.erase_of_ne raw hne ▸ hk), hne⟩
  · case _ hst =>
    obtain rfl := Option.some.inj hf
    refine ⟨h.1, fun k hk => ⟨hkeys k hk, ?_⟩⟩
    rintro rfl
    exact hk hst

/-- So it is for all of a payload. -/
theorem decode_decoded {body : GoString} {p : Payload} (h : decode body = .ok p) :
    p.issue.fields.Decoded ∧ p.status ≠ [] := by
  obtain ⟨t, ht, h⟩ := exists_parse_of_decode h
  obtain ⟨-, hu, -, hs⟩ := decodeTree_inv.mp h
  refine ⟨?_, hs⟩
  -- Through the struct of the payload, and then through that of the issue.
  refine decodeStruct_keeps (P := fun p : Payload => p.issue.fields.Decoded) ?_ (parse_wf ht)
    ⟨validString_lit "", fun k hk => absurd rfl hk⟩ hu
  simp only [List.forall_mem_singleton]
  rintro v p p' hv hp hs
  obtain ⟨i, hi, rfl⟩ := Option.map_eq_some_iff.mp hs
  refine decodeStruct_keeps (P := fun i : Issue => i.fields.Decoded) ?_ hv hp hi
  simp only [List.forall_mem_cons, List.not_mem_nil, false_imp_iff, implies_true, and_true]
  refine ⟨fun v i i' _ hi hs => ?_, fun v i i' hv hi hs => ?_⟩
  · obtain ⟨key, -, rfl⟩ := Option.map_eq_some_iff.mp hs
    exact hi
  · obtain ⟨f, hf, rfl⟩ := Option.map_eq_some_iff.mp hs
    exact IssueFields.unmarshalJSON_decoded hv hi hf

end Webhookd.Jsm
