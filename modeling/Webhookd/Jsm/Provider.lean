import Webhookd.Config
import Webhookd.Go.Render
import Webhookd.Jsm.Payload

/-!
# The JSM provider

`provider.go`, `cr.go`, `response.go` and `init.go` of the package `jsm`: what a
verified body makes the service do. A ticket in the trigger status is applied
as a `SAMLGroupMapping`, whose fields are those of the ticket (`applyAction`);
one in another status is acknowledged, and anything else is refused.

* `handle_apply` and `handle_noop` invert `Handle`;
* `handle_exact` says what it does with every unambiguous JSON body.
-/

namespace Webhookd.Jsm

open Go

/-! ## Configuration -/

/-- `SignatureConfig`, less the clock. -/
structure SignatureConfig where
  secretBytes : GoString
  sigHeader : GoString
  tsHeader : GoString
  skew : Duration

/-- `jsm.Config`. -/
structure Config where
  triggerStatus : GoString
  fieldProviderGroupID : GoString
  fieldRole : GoString
  fieldProject : GoString
  identityProviderID : GoString
  namespace_ : GoString
  signature : SignatureConfig

/-- The configuration that `factory` builds the provider from. -/
def Config.ofConfig (cfg : Webhookd.Config) : Config where
  triggerStatus := cfg.jsm.triggerStatus
  fieldProviderGroupID := cfg.jsm.fieldProviderGroupID
  fieldRole := cfg.jsm.fieldRole
  fieldProject := cfg.jsm.fieldProject
  identityProviderID := cfg.jsm.identityProviderID
  namespace_ := cfg.cr.namespace_
  signature :=
    { secretBytes := cfg.signingSecret
      sigHeader := cfg.signatureHeader
      tsHeader := cfg.timestampHeader
      skew := cfg.timestampSkew }

/-! ## The custom resource -/

def annotationIssue : GoString := lit "webhookd.io/jsm-issue-key"

def conditionTypeReady : GoString := lit "Ready"

/-- `BuildSpec`. -/
def buildSpec (providerGroupID role project identityProviderID description : GoString) :
    SAMLGroupMappingSpec where
  identityProviderID := identityProviderID
  providerGroupID := providerGroupID
  description := description
  roleRef := role
  projectRefs := [project]

/-- `BuildDescription`. -/
def buildDescription (issueKey : GoString) : GoString := lit "Provisioned from JSM " ++ issueKey

/-- `BuildSAMLGroupMapping`. -/
def buildSAMLGroupMapping (name namespace_ : GoString) (spec : SAMLGroupMappingSpec) :
    SAMLGroupMapping where
  apiVersion := lit "wiz.webhookd.io/v1alpha1"
  kind := lit "SAMLGroupMapping"
  metadata := { name, namespace_ }
  spec := spec

/-- `CRName`. -/
def crName (issueKey : GoString) : GoString := lit "jsm-" ++ toLower issueKey

/-- Some condition says that the object is ready. -/
def conditionReady (cs : List Condition) : Bool :=
  cs.any fun c => c.type = conditionTypeReady ∧ c.status = .true

/-- `IsReady`. -/
def isReady (obj : ClientObject) (applyGen : Int) : Bool × Int :=
  match obj with
  | .other _ => (false, 0)
  | .samlGroupMapping cr =>
    if cr.status.observedGeneration < applyGen then (false, cr.status.observedGeneration)
    else (conditionReady cr.status.conditions, cr.status.observedGeneration)

/-! ## Handling -/

/-- `classifyExtractErr`. -/
def classifyExtractErr : JsmError → HandleError
  | e@(.fieldMissing _) | e@(.fieldEmpty _) => ⟨some .badRequest, e⟩
  | e@(.fieldType _) => ⟨some .unprocessable, e⟩
  | e => ⟨none, e⟩

/-- Extracts a field, or says how its error is answered. -/
def extract (p : Payload) (fieldID : GoString) : Except HandleError GoString :=
  (extractString p fieldID).mapError classifyExtractErr

/-- The action that `Handle` returns for the values of a ticket. -/
def applyAction (cfg : Config) (key providerGroupID role project : GoString) : ApplyAction where
  object := .samlGroupMapping <| buildSAMLGroupMapping (crName key) cfg.namespace_ <|
    buildSpec providerGroupID role project cfg.identityProviderID (buildDescription key)
  listObject := lit "SAMLGroupMappingList"
  readyCheck := isReady
  annotations := .ofList [(annotationIssue, key)]
  kind := lit "SAMLGroupMapping"
  source := lit "jsm"

/-- What `Handle` does with a ticket in the trigger status. -/
def applyTicket (cfg : Config) (payload : Payload) : Except HandleError Action := do
  let providerGroupID ← extract payload cfg.fieldProviderGroupID
  let role ← extract payload cfg.fieldRole
  let project ← extract payload cfg.fieldProject
  return .apply (applyAction cfg payload.issueKey providerGroupID role project)

/-- `Provider.Handle`. -/
def handle (cfg : Config) (body : GoString) : Except HandleError Action :=
  match decode body with
  | .error e => .error ⟨some .badRequest, e⟩
  | .ok payload =>
    if payload.status ≠ cfg.triggerStatus then
      .ok (.noop (.statusMismatch payload.issueKey payload.status cfg.triggerStatus))
    else applyTicket cfg payload

/-- `Build`. -/
def build (res : ExecResult) (traceID requestID : GoString) : ResponseBody where
  status :=
    match res.kind with
    | .noop => .noop
    | .ready => .success
    | _ => .failure
  reason := res.reason
  crName := res.crName
  namespace_ := res.namespace_
  observedGeneration := res.observedGeneration
  traceID := traceID
  requestID := requestID

/-- `VerifySignature`, at a reading of the clock. -/
def verifySignature (hmac : HMAC) (cfg : SignatureConfig) (header : Header) (body : GoString)
    (now : Time) : Except SignatureError Unit :=
  verify hmac cfg.secretBytes (header.get cfg.sigHeader) (header.get cfg.tsHeader) body now cfg.skew

/-- The provider that `New` builds. -/
def provider (hmac : HMAC) (cfg : Config) : Provider where
  name := lit "jsm"
  verifySignature := verifySignature hmac cfg.signature
  handle := handle cfg
  buildResponse := build

theorem provider_handle (hmac : HMAC) (cfg : Config) : (provider hmac cfg).handle = handle cfg :=
  rfl

/-! ## What is handled -/

variable {cfg : Config} {body : GoString} {payload : Payload} {fieldID v : GoString}

theorem extract_ok : extract payload fieldID = .ok v ↔ extractString payload fieldID = .ok v := by
  rw [extract]
  cases extractString payload fieldID <;> simp [Except.mapError]

/-- An error of a field is wrapped. -/
theorem extract_error {e : HandleError} :
    extract payload fieldID = .error e ↔
      ∃ e', extractString payload fieldID = .error e' ∧ e = classifyExtractErr e' := by
  rw [extract]
  cases extractString payload fieldID <;> simp [Except.mapError, eq_comm]

/-- The fields that are extracted, in order. -/
def Config.fieldIDs (cfg : Config) : List GoString :=
  [cfg.fieldProviderGroupID, cfg.fieldRole, cfg.fieldProject]

/-- An object is applied if all three fields are there. -/
theorem applyTicket_ok {a : Action} :
    applyTicket cfg payload = .ok a ↔
      ∃ g r p, extractString payload cfg.fieldProviderGroupID = .ok g ∧
        extractString payload cfg.fieldRole = .ok r ∧
        extractString payload cfg.fieldProject = .ok p ∧
        a = .apply (applyAction cfg payload.issueKey g r p) := by
  constructor
  · intro h
    obtain ⟨g, hg, h⟩ := bind_eq_ok h
    obtain ⟨r, hr, h⟩ := bind_eq_ok h
    obtain ⟨p, hp, h⟩ := bind_eq_ok h
    cases h
    exact ⟨g, r, p, extract_ok.mp hg, extract_ok.mp hr, extract_ok.mp hp, rfl⟩
  · rintro ⟨g, r, p, hg, hr, hp, rfl⟩
    rw [applyTicket, extract_ok.mpr hg, extract_ok.mpr hr, extract_ok.mpr hp]
    rfl

/-- A failure is that of the first field that cannot be extracted. -/
theorem applyTicket_error {e : HandleError} :
    applyTicket cfg payload = .error e ↔
      ∃ pre id post, cfg.fieldIDs = pre ++ id :: post ∧
        (∀ i ∈ pre, ∃ v, extractString payload i = .ok v) ∧
        ∃ e', extractString payload id = .error e' ∧ e = classifyExtractErr e' := by
  simp only [← extract_error, ← extract_ok, applyTicket, bind_eq_error]
  constructor
  · rintro (hg | ⟨g, hg, hr | ⟨r, hr, hp | ⟨p, hp, h⟩⟩⟩)
    · exact ⟨[], _, _, rfl, by simp, hg⟩
    · exact ⟨[_], _, _, rfl, by simp [hg], hr⟩
    · exact ⟨[_, _], _, _, rfl, by simp [hg, hr], hp⟩
    · cases h
  · rintro ⟨pre, id, post, h, hpre, he⟩
    -- The field that fails is the first, the second or the third.
    rcases pre with _ | ⟨i, _ | ⟨j, _ | ⟨k, pre⟩⟩⟩
    · obtain ⟨rfl, -⟩ := List.cons.inj h
      exact .inl he
    · obtain ⟨rfl, h'⟩ := List.cons.inj h
      obtain ⟨rfl, -⟩ := List.cons.inj h'
      obtain ⟨g, hg⟩ := hpre _ List.mem_cons_self
      exact .inr ⟨g, hg, .inl he⟩
    · obtain ⟨rfl, h'⟩ := List.cons.inj h
      obtain ⟨rfl, h''⟩ := List.cons.inj h'
      obtain ⟨rfl, -⟩ := List.cons.inj h''
      obtain ⟨g, hg⟩ := hpre _ List.mem_cons_self
      obtain ⟨r, hr⟩ := hpre _ (List.mem_cons_of_mem _ List.mem_cons_self)
      exact .inr ⟨g, hg, .inr ⟨r, hr, .inl he⟩⟩
    · simp [Config.fieldIDs] at h

/-- `Handle` applies the objects of tickets in the trigger status. -/
theorem handle_apply {act : ApplyAction} :
    handle cfg body = .ok (.apply act) ↔
      ∃ payload g r p, decode body = .ok payload ∧ payload.status = cfg.triggerStatus ∧
        extractString payload cfg.fieldProviderGroupID = .ok g ∧
        extractString payload cfg.fieldRole = .ok r ∧
        extractString payload cfg.fieldProject = .ok p ∧
        act = applyAction cfg payload.issueKey g r p := by
  rw [handle]
  cases decode body with
  | error e => simp
  | ok payload =>
    by_cases hs : payload.status = cfg.triggerStatus
    · simp [hs, applyTicket_ok]
    · simp [hs]

/-- `Handle` acknowledges tickets in another status. -/
theorem handle_noop {reason : Reason} :
    handle cfg body = .ok (.noop reason) ↔
      ∃ payload, decode body = .ok payload ∧ payload.status ≠ cfg.triggerStatus ∧
        reason = .statusMismatch payload.issueKey payload.status cfg.triggerStatus := by
  rw [handle]
  cases decode body with
  | error e => simp
  | ok payload =>
    by_cases hs : payload.status = cfg.triggerStatus
    · simp [hs, applyTicket_ok]
    · simp [hs, @eq_comm _ reason]

/-- `Handle` fails on what is no ticket, and on a field that cannot be extracted. -/
theorem handle_error {e : HandleError} :
    handle cfg body = .error e ↔
      (∃ e', decode body = .error e' ∧ e = ⟨some .badRequest, e'⟩) ∨
        ∃ payload, decode body = .ok payload ∧ payload.status = cfg.triggerStatus ∧
          applyTicket cfg payload = .error e := by
  rw [handle]
  cases decode body with
  | error e => simp [eq_comm]
  | ok payload =>
    by_cases hs : payload.status = cfg.triggerStatus
    · simp [hs]
    · simp [hs]

/-! ## What is done with an unambiguous body -/

section

variable {t : Json} (ht : parse body = some t) (hu : Unambiguous t)

include ht hu

/-- An object is applied for a ticket in the trigger status whose fields are filled. -/
theorem handle_apply_iff {act : ApplyAction} :
    handle cfg body = .ok (.apply act) ↔
      ∃ key fields g r p, Ticket t key cfg.triggerStatus fields ∧
        Filled fields cfg.fieldProviderGroupID g ∧ Filled fields cfg.fieldRole r ∧
        Filled fields cfg.fieldProject p ∧ act = applyAction cfg key g r p := by
  rw [handle_apply]
  constructor
  · rintro ⟨payload, g, r, p, hd, hs, hg, hr, hp, rfl⟩
    obtain ⟨key, status, fields, hk, rfl⟩ := (decode_ok ht hu).mp hd
    obtain rfl : status = cfg.triggerStatus := hs
    exact ⟨key, fields, g, r, p, hk, extractString_ok.mp hg, extractString_ok.mp hr,
      extractString_ok.mp hp, rfl⟩
  · rintro ⟨key, fields, g, r, p, hk, hg, hr, hp, rfl⟩
    exact ⟨_, g, r, p, (decode_ok ht hu).mpr ⟨_, _, _, hk, rfl⟩, rfl, extractString_ok.mpr hg,
      extractString_ok.mpr hr, extractString_ok.mpr hp, rfl⟩

/-- Nothing is done for a ticket in another status. -/
theorem handle_noop_iff :
    (∃ reason, handle cfg body = .ok (.noop reason)) ↔
      ∃ key status fields, Ticket t key status fields ∧ status ≠ cfg.triggerStatus := by
  simp only [handle_noop]
  constructor
  · rintro ⟨_, payload, hd, hs, -⟩
    obtain ⟨key, status, fields, hk, rfl⟩ := (decode_ok ht hu).mp hd
    exact ⟨key, status, fields, hk, hs⟩
  · rintro ⟨key, status, fields, hk, hs⟩
    exact ⟨_, _, (decode_ok ht hu).mpr ⟨_, _, _, hk, rfl⟩, hs, rfl⟩

/-- The first field that is not filled has a value that is not a text. -/
def FirstWrongType (cfg : Config) (fields : List (GoString × Json)) : Prop :=
  ∃ pre id post, cfg.fieldIDs = pre ++ id :: post ∧ (∀ i ∈ pre, ∃ v, Filled fields i v) ∧
    WrongType fields id

omit ht hu in
/-- A field of the wrong type is unprocessable if it is the first that is wrong. -/
theorem wraps_of_applyTicket_error {key status : GoString} {fields : List (GoString × Json)}
    {e : HandleError} (h : applyTicket cfg (Ticket.payload key status fields) = .error e) :
    (e.wraps = some .unprocessable ∧ FirstWrongType cfg fields) ∨
      (e.wraps = some .badRequest ∧ ¬FirstWrongType cfg fields) := by
  by_cases hw : FirstWrongType cfg fields
  · obtain ⟨pre, id, post, hids, hpre, hid⟩ := hw
    have h' : applyTicket cfg (Ticket.payload key status fields) = .error _ :=
      applyTicket_error.mpr ⟨pre, id, post, hids,
        fun i hi => (hpre i hi).imp fun _ => extractString_ok.mpr, _,
        extractString_wrongType hid, rfl⟩
    obtain rfl := Except.error.inj (h.symm.trans h')
    exact .inl ⟨rfl, pre, id, post, hids, hpre, hid⟩
  · obtain ⟨pre, id, post, hids, hpre, e', he', rfl⟩ := applyTicket_error.mp h
    have hpre' : ∀ i ∈ pre, ∃ v, Filled fields i v :=
      fun i hi => (hpre i hi).imp fun _ => extractString_ok.mp
    rcases extractString_error he' with ⟨rfl, hid⟩ | ⟨rfl | rfl, -⟩
    · exact absurd ⟨pre, id, post, hids, hpre', hid⟩ hw
    · exact .inr ⟨rfl, hw⟩
    · exact .inr ⟨rfl, hw⟩

/-- All other errors are bad requests. -/
theorem handle_error_wraps {e : HandleError} (h : handle cfg body = .error e) :
    (e.wraps = some .unprocessable ∧
        ∃ key fields, Ticket t key cfg.triggerStatus fields ∧ FirstWrongType cfg fields) ∨
      (e.wraps = some .badRequest ∧
        ¬∃ key fields, Ticket t key cfg.triggerStatus fields ∧ FirstWrongType cfg fields) := by
  rcases handle_error.mp h with ⟨e', hd, rfl⟩ | ⟨payload, hd, hs, h⟩
  · refine .inr ⟨rfl, ?_⟩
    rintro ⟨key, fields, hk, -⟩
    have hd' := (decode_ok ht hu).mpr ⟨_, _, _, hk, rfl⟩
    rw [hd] at hd'
    cases hd'
  · obtain ⟨key, status, fields, hk, rfl⟩ := (decode_ok ht hu).mp hd
    obtain rfl : status = cfg.triggerStatus := hs
    rcases wraps_of_applyTicket_error h with ⟨hw, hf⟩ | ⟨hw, hf⟩
    · exact .inl ⟨hw, key, fields, hk, hf⟩
    · refine .inr ⟨hw, ?_⟩
      rintro ⟨_, fields', hk', hf'⟩
      obtain ⟨-, -, rfl⟩ := hk.unique hk'
      exact hf hf'

end

/-- What `Handle` does with an unambiguous body. It applies a ticket in the
    trigger status that has a text in each of the three fields, with the texts in
    their places; it acknowledges a ticket in another status; and it refuses the
    rest, as unprocessable when the first field of a ticket in the trigger status
    that is not filled has a value of another type, and as a bad request
    otherwise. -/
theorem handle_exact (cfg : Config) {body : GoString} {t : Json} (ht : parse body = some t)
    (hu : Unambiguous t) :
    ((∃ act, handle cfg body = .ok (.apply act)) ↔
      ∃ key fields g r p, Ticket t key cfg.triggerStatus fields ∧
        Filled fields cfg.fieldProviderGroupID g ∧ Filled fields cfg.fieldRole r ∧
        Filled fields cfg.fieldProject p) ∧
    (∀ act key fields g r p, handle cfg body = .ok (.apply act) →
      Ticket t key cfg.triggerStatus fields → Filled fields cfg.fieldProviderGroupID g →
      Filled fields cfg.fieldRole r → Filled fields cfg.fieldProject p →
      ∃ cr, act.object = .samlGroupMapping cr ∧ cr.spec.providerGroupID = g ∧
        cr.spec.roleRef = r ∧ cr.spec.projectRefs = [p]) ∧
    ((∃ reason, handle cfg body = .ok (.noop reason)) ↔
      ∃ key status fields, Ticket t key status fields ∧ status ≠ cfg.triggerStatus) ∧
    ∀ e, handle cfg body = .error e →
      (e.wraps = some .unprocessable ↔
        ∃ key fields, Ticket t key cfg.triggerStatus fields ∧ FirstWrongType cfg fields) ∧
      (e.wraps = some .badRequest ↔
        ¬∃ key fields, Ticket t key cfg.triggerStatus fields ∧ FirstWrongType cfg fields) := by
  refine ⟨?_, ?_, handle_noop_iff ht hu, ?_⟩
  · simp only [handle_apply_iff ht hu]
    constructor
    · rintro ⟨_, key, fields, g, r, p, hk, hg, hr, hp, -⟩
      exact ⟨key, fields, g, r, p, hk, hg, hr, hp⟩
    · rintro ⟨key, fields, g, r, p, hk, hg, hr, hp⟩
      exact ⟨_, key, fields, g, r, p, hk, hg, hr, hp, rfl⟩
  · intro act key fields g r p h hk hg hr hp
    have h' := (handle_apply_iff ht hu).mpr ⟨key, fields, g, r, p, hk, hg, hr, hp, rfl⟩
    obtain rfl := Action.apply.inj (Except.ok.inj (h.symm.trans h'))
    exact ⟨_, rfl, rfl, rfl, rfl⟩
  · intro e h
    rcases handle_error_wraps ht hu h with ⟨hw, hf⟩ | ⟨hw, hf⟩
    · simp [hw, hf]
    · simp [hw, hf]

/-- The configuration of a tenant. -/
def sampleConfig : Config where
  triggerStatus := lit "Ready"
  fieldProviderGroupID := lit "customfield_1"
  fieldRole := lit "customfield_2"
  fieldProject := lit "customfield_3"
  identityProviderID := lit "idp"
  namespace_ := lit "wiz"
  signature := ⟨lit "secret", lit "X-Signature", lit "X-Timestamp", 300 * second⟩

/-- A ticket of that tenant. -/
def sampleTicket : Doc :=
  .obj [("issue".toList, .obj [("key".toList, .str "SEC-1".toList),
    ("fields".toList, .obj [("status".toList, .obj [("name".toList, .str "Ready".toList)]),
      ("customfield_1".toList, .str " group ".toList),
      ("customfield_2".toList, .str "admin".toList),
      ("customfield_3".toList, .str "core".toList)])])]

theorem sampleTicket_unambiguous : Unambiguous sampleTicket.toJson where
  top ms h := by
    obtain rfl := Json.obj.inj (Option.some.inj h)
    decide
  issue ms h := by
    obtain rfl := Json.obj.inj (Option.some.inj h)
    decide
  status ms h := by
    obtain rfl := Json.obj.inj (Option.some.inj h)
    decide
  fields ms h := by
    obtain rfl := Json.obj.inj (Option.some.inj h)
    decide

theorem handle_exact_sampleTicket :
    parse sampleTicket.render = some sampleTicket.toJson ∧
      ∃ act, handle sampleConfig sampleTicket.render = .ok (.apply act) := by
  have hp : parse sampleTicket.render = some sampleTicket.toJson := parse_render (by decide)
  refine ⟨hp, (handle_exact sampleConfig hp sampleTicket_unambiguous).1.mpr
    ⟨lit "SEC-1", _, lit "group", lit "admin", lit "core", ⟨rfl, by decide, rfl, rfl, by decide⟩,
      ⟨_, rfl, by decide, by decide⟩, ⟨_, rfl, by decide, by decide⟩,
      ⟨_, rfl, by decide, by decide⟩⟩⟩

end Webhookd.Jsm
