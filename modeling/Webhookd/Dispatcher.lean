import Webhookd.Executor
import Webhookd.Jsm.Provider
import Webhookd.Machine.Pool

/-!
# The dispatcher

`dispatcher.go`: a request is routed to its provider, its body is read and
verified, the provider decides on an action, and the executor performs it. The
service is the pool of the requests that have arrived, each going on from the
replies it gets, in any interleaving; the API calls are logged, each under the
number of the request that makes it.

* `serveHTTP_executing` inverts the dispatcher: what a request passed before it
  makes a call;
* `Sound` is what the log says of a request, and holds along every run of the
  service (`sound_invariant`);
* `patch_authorised` is the trust boundary: every object that is ever sent is
  the one that a signed ticket in the trigger status determines.
-/

namespace Webhookd

open Go

/-! ## Requests and responses -/

/-- What the dispatcher reads of a `http.Request`: the path value `provider`, the
    header, the body and the context. -/
structure Request where
  provider : GoString
  header : Header
  body : Body
  ctx : RequestContext

/-- The body of a response: that of `http.Error`, or an encoded one. -/
inductive Content
  | text (msg : String)
  | json (body : ResponseBody)

/-- A response. -/
structure Response where
  status : Nat
  content : Content

/-- `Dispatcher`. -/
structure Dispatcher where
  providers : GoMap Provider
  executor : Executor
  maxBodyBytes : Int

/-- `NewDispatcher`, which panics if two providers have the same name. -/
def newDispatcher (providers : List Provider) (executor : Executor) (maxBodyBytes : Int) :
    Option Dispatcher :=
  if (providers.map (·.name)).Nodup then
    some
      { providers := .ofList (providers.map fun p => (p.name, p))
        executor
        maxBodyBytes := if maxBodyBytes ≤ 0 then 2 ^ 20 else maxBodyBytes }
  else none

/-- `classifyProviderErr`. -/
def classifyProviderErr (e : HandleError) : ExecResult :=
  match e.wraps with
  | some .badRequest => { kind := .badRequest, reason := .provider e }
  | some .unprocessable => { kind := .unprocessable, reason := .provider e }
  | none => { kind := .internalError, reason := .provider e }

/-- `writeResponse`. -/
def writeResponse (prov : Provider) (ctx : RequestContext) (res : ExecResult) : Response where
  status := res.kind.httpStatus
  content := .json (prov.buildResponse res ctx.traceID ctx.requestID)

/-- How far a request is: answered, or in an execution for its provider. -/
inductive Served
  | responded (resp : Response)
  | executing (prov : Provider) (p : Phase)

/-- Answers a request whose execution has returned. -/
def settle (prov : Provider) (ctx : RequestContext) : Phase → Served
  | .done res => .responded (writeResponse prov ctx res)
  | p => .executing prov p

/-- `ServeHTTP`, up to the first call of the execution. -/
def serveHTTP (d : Dispatcher) (r : Request) (now : Time) : Served :=
  match d.providers r.provider with
  | none => .responded ⟨404, .text "unknown provider"⟩
  | some prov =>
    match readAll d.maxBodyBytes r.body with
    | .error .tooLarge => .responded ⟨413, .text "request body too large"⟩
    | .error .failed => .responded ⟨400, .text "read body failed"⟩
    | .ok body =>
      match prov.verifySignature r.header body now with
      | .error _ => .responded ⟨401, .text "invalid signature"⟩
      | .ok () =>
        match prov.handle body with
        | .error e => .responded (writeResponse prov r.ctx (classifyProviderErr e))
        | .ok action => settle prov r.ctx (execute r.ctx action)

/-! ## The service -/

/-- A request that has arrived, when it was verified, and how far it is. -/
structure Exchange where
  request : Request
  now : Time
  served : Served

/-- The API calls of all requests, each under the number of its request. -/
abbrev Log := List (Nat × ApiCall)

/-- The call that a request waits for. -/
def Served.call (e : Executor) : Served → Option ApiCall
  | .executing _ p => p.call e
  | .responded _ => none

/-- Logs the call that a request waits for, if any. -/
def Log.record (log : Log) (i : Nat) (c : Option ApiCall) : Log := log ++ c.toList.map (i, ·)

/-- The requests that are served, concurrently. -/
def service (d : Dispatcher) : Pool Log Exchange (Request × Time) Reply Empty where
  init := []
  start i a log :=
    let served := serveHTTP d a.1 a.2
    some (⟨a.1, a.2, served⟩, log.record i (served.call d.executor))
  step i x r log :=
    match x.served with
    | .responded _ => none
    | .executing prov p =>
      (p.resume d.executor r).map fun p' =>
        let served := settle prov x.request.ctx p'
        ({ x with served }, log.record i (served.call d.executor))
  env x := nomatch x

/-- The calls of a request. -/
def Log.calls (log : Log) (i : Nat) : List ApiCall := (log.filter (·.1 = i)).map (·.2)

@[simp] theorem Log.calls_record_self (log : Log) (i : Nat) (c : Option ApiCall) :
    (log.record i c).calls i = log.calls i ++ c.toList :=
  Journal.entries_record_self log i c.toList

/-- A call by one request is none by another. -/
theorem Log.calls_record_of_ne (log : Log) {i j : Nat} (h : i ≠ j) (c : Option ApiCall) :
    (log.record j c).calls i = log.calls i :=
  Journal.entries_record_of_ne log h c.toList

theorem Log.mem_calls {log : Log} {i : Nat} {c : ApiCall} : c ∈ log.calls i ↔ (i, c) ∈ log :=
  Journal.mem_entries

/-! ## What a request does -/

def ApiCall.isPatch : ApiCall → Bool
  | .patch .. => true
  | _ => false

variable {d : Dispatcher} {r : Request} {now : Time} {prov : Provider} {p : Phase}

/-- A request that makes calls was read, verified and handled, and its first call
    sends the object of the action. -/
theorem serveHTTP_executing (h : serveHTTP d r now = .executing prov p) :
    d.providers r.provider = some prov ∧ r.body.complete ∧
      r.body.data.length ≤ d.maxBodyBytes ∧
      prov.verifySignature r.header r.body.data now = .ok () ∧
      ∃ act, prov.handle r.body.data = .ok (.apply act) ∧ p = .patch act (prepare r.ctx act) := by
  -- Every branch but the last one has responded.
  unfold serveHTTP at h
  split at h
  · cases h
  rename_i prov' hprov
  split at h
  · cases h
  · cases h
  rename_i body hbody
  obtain ⟨rfl, hc, hl⟩ := readAll_ok.mp hbody
  split at h
  · cases h
  rename_i hv
  split at h
  · cases h
  rename_i action ha
  cases action with
  | noop reason => cases h
  | apply act =>
    cases h
    exact ⟨hprov, hc, hl, hv, act, ha, rfl⟩

/-- What the calls of a request say about it: it was refused and made none, or it
    makes those of an execution, of which the first alone sends an object. -/
inductive Sound (d : Dispatcher) (x : Exchange) (calls : List ApiCall) : Prop
  | refused {resp} (h : serveHTTP d x.request x.now = .responded resp)
      (hs : x.served = .responded resp) (hc : calls = [])
  | executed {prov p rest} (h : serveHTTP d x.request x.now = .executing prov p)
      (hc : calls = (p.call d.executor).toList ++ rest) (hrest : ∀ c ∈ rest, c.isPatch = false)
      (hs : (∃ p', x.served = .executing prov p') ∨
        ∃ res : ExecResult, res.Executed ∧
          x.served = .responded (writeResponse prov x.request.ctx res))

/-- What the calls say about a request that may not have arrived. -/
def SoundAt (d : Dispatcher) : Option Exchange → List ApiCall → Prop
  | none, calls => calls = []
  | some x, calls => Sound d x calls

/-- A request that was just served has made the call of its first phase, if any. -/
theorem sound_start (d : Dispatcher) (r : Request) (now : Time) :
    Sound d ⟨r, now, serveHTTP d r now⟩ ((serveHTTP d r now).call d.executor).toList := by
  cases h : serveHTTP d r now with
  | responded resp => exact .refused h rfl rfl
  | executing prov p =>
    exact .executed h (List.append_nil _).symm (by simp) (.inl ⟨p, rfl⟩)

/-- After the first phase there is no Patch. -/
theorem isPatch_of_resume {e : Executor} {p p' : Phase} {rep : Reply}
    (h : p.resume e rep = some p') : ∀ c ∈ (p'.call e).toList, c.isPatch = false := by
  intro c hc
  cases c with
  | patch obj fo force =>
    exact absurd (by simpa using hc) (Phase.call_resume_ne_patch h obj fo force)
  | _ => rfl

/-- A request that goes on adds the call of its next phase, which is no Patch. -/
theorem sound_resume {x : Exchange} {calls : List ApiCall} {p' : Phase} {rep : Reply}
    (h : Sound d x calls) (hx : x.served = .executing prov p)
    (hp : p.resume d.executor rep = some p') :
    Sound d { x with served := settle prov x.request.ctx p' }
      (calls ++ ((settle prov x.request.ctx p').call d.executor).toList) := by
  cases h with
  | refused _ hs _ =>
    rw [hx] at hs
    cases hs
  | executed h hc hrest hs =>
    obtain ⟨q, hq⟩ | ⟨res, _, hq⟩ := hs
    · rw [hx] at hq
      cases hq
      refine .executed h (by rw [hc, List.append_assoc]) ?_ ?_
      · -- The new call is one of the execution that goes on, so it sends nothing.
        intro c hc'
        rcases List.mem_append.mp hc' with hc' | hc'
        · exact hrest c hc'
        · cases p' with
          | done res => simp [settle, Served.call] at hc'
          | _ => exact isPatch_of_resume hp c hc'
      · cases p' with
        | done res => exact .inr ⟨res, Phase.executed_of_resume hp, rfl⟩
        | _ => exact .inl ⟨_, rfl⟩
    · rw [hx] at hq
      cases hq

/-- The calls of every request are sound, along every run of the service. -/
theorem sound_invariant (d : Dispatcher) :
    (service d).Invariant (fun _ => True) (fun _ => True)
      (fun i x log => SoundAt d x (log.calls i))
      (fun j log log' => ∃ i c, j = some i ∧ log' = log.record i c) where
  start {i a log x log'} _ _ h hs := by
    obtain ⟨rfl, rfl⟩ := Prod.mk.inj (Option.some.inj hs)
    refine ⟨trivial, ?_, i, _, rfl, rfl⟩
    show Sound d _ _
    rw [Log.calls_record_self, show log.calls i = [] from h]
    exact sound_start d a.1 a.2
  step {i rep log x x' log'} _ _ h hs := by
    simp only [service] at hs
    split at hs
    · cases hs
    · rename_i prov p hx
      obtain ⟨p', hp, hs⟩ := Option.map_eq_some_iff.mp hs
      obtain ⟨rfl, rfl⟩ := Prod.mk.inj hs
      refine ⟨trivial, ?_, i, _, rfl, rfl⟩
      show Sound d _ _
      rw [Log.calls_record_self]
      exact sound_resume h hx hp
  env {x} := nomatch x
  stable {i j x log log'} hij _ h hr := by
    obtain ⟨k, c, rfl, rfl⟩ := hr
    rwa [Log.calls_record_of_ne _ fun e => hij (congrArg some e)]

/-! ## The trust boundary -/

/-- The object is the one that a signed ticket in the trigger status, which is the
    body of the request, determines. -/
structure Authorised (hmac : HMAC) (cfg : Jsm.Config) (maxBodyBytes : Int) (r : Request)
    (obj : ClientObject) : Prop where
  complete : r.body.complete
  length_le : r.body.data.length ≤ maxBodyBytes
  signed : ∃ hex, r.header.get cfg.signature.sigHeader = lit "sha256=" ++ hex ∧
    hexDecode hex = some (hmac.sum cfg.signature.secretBytes
      (lit "v0:" ++ r.header.get cfg.signature.tsHeader ++ lit ":" ++ r.body.data))
  determined : ∃ payload g ro pr, Jsm.decode r.body.data = .ok payload ∧
    payload.status = cfg.triggerStatus ∧
    payload.TrimmedField cfg.fieldProviderGroupID g ∧
    payload.TrimmedField cfg.fieldRole ro ∧
    payload.TrimmedField cfg.fieldProject pr ∧
    ∃ cr, obj = .samlGroupMapping cr ∧ cr.metadata.namespace_ = cfg.namespace_ ∧
      cr.metadata.name = Jsm.crName payload.issueKey ∧
      cr.spec = Jsm.buildSpec g ro pr cfg.identityProviderID
        (Jsm.buildDescription payload.issueKey) ∧
      cr.metadata.annotations Jsm.annotationIssue = some payload.issueKey ∧
      cr.metadata.labels = .ofList [(labelManagedBy, lit "webhookd"), (labelSource, lit "jsm")]

/-- The responses to requests that have no effect: an unknown provider, a body
    that is too long or cannot be read, a bad signature, an error of the provider,
    and an acknowledgement. -/
def Response.Harmless (resp : Response) : Prop :=
  resp.status ∈ [404, 413, 401, 400] ∨
    (resp.status = 422 ∧ ∃ b err, resp.content = .json b ∧ b.reason = .provider err) ∨
    (resp.status = 200 ∧ ∃ b, resp.content = .json b ∧ b.status = .noop)

/-- A request that starts an execution is authorised to send its object. -/
theorem authorised_of_serveHTTP {hmac : HMAC} {cfg : Jsm.Config}
    (hd : d.providers r.provider = some prov → prov = Jsm.provider hmac cfg)
    (h : serveHTTP d r now = .executing prov p) :
    ∃ obj, p.call d.executor = some (.patch obj d.executor.fieldManager true) ∧
      Authorised hmac cfg d.maxBodyBytes r obj := by
  obtain ⟨hprov, hc, hl, hv, act, ha, rfl⟩ := serveHTTP_executing h
  obtain rfl := hd hprov
  obtain ⟨payload, g, ro, pr, hdec, hst, hg, hro, hpr, rfl⟩ := Jsm.handle_apply.mp ha
  refine ⟨_, rfl, hc, hl, (verify_ok.mp hv).2, payload, g, ro, pr, hdec, hst,
    Jsm.extractString_eq_ok.mp hg, Jsm.extractString_eq_ok.mp hro, Jsm.extractString_eq_ok.mp hpr,
    _, rfl, rfl, rfl, rfl, ?_, ?_⟩
  · exact mergeAnnotations_system _ _ _ (by decide)
  · exact mergeLabels_empty _

/-- What an execution that made a call returns is not answered as one of those. -/
theorem not_harmless_of_executed {hmac : HMAC} {cfg : Jsm.Config} {ctx : RequestContext}
    {res : ExecResult} (h : res.Executed) :
    ¬(writeResponse (Jsm.provider hmac cfg) ctx res).Harmless := by
  obtain ⟨hn, hb, hp⟩ := h
  rintro (hs | ⟨-, b, err, hc, hr⟩ | ⟨-, b, hc, hs⟩)
  · -- Of the results that are left, none has a status of the list.
    revert hs hn hb
    rw [writeResponse]
    cases res.kind <;> simp [ResultKind.httpStatus]
  · obtain rfl := Content.json.inj hc
    exact hp err hr
  · obtain rfl := Content.json.inj hc
    revert hs hn
    simp only [Jsm.provider, Jsm.build]
    cases res.kind <;> simp

theorem count_isPatch_le_one {c : Option ApiCall} {rest : List ApiCall}
    (h : ∀ c ∈ rest, c.isPatch = false) : (c.toList ++ rest).countP ApiCall.isPatch ≤ 1 := by
  have hz : rest.countP ApiCall.isPatch = 0 := by
    rw [List.countP_eq_zero]
    exact fun c hc => by simp [h c hc]
  rw [List.countP_append, hz, Nat.add_zero]
  exact (List.countP_le_length).trans (by cases c <;> simp)

/-- A dispatcher routes to the providers that it was given. -/
theorem mem_of_newDispatcher {provs : List Provider} {e : Executor} {maxBodyBytes : Int}
    {n : GoString} (hd : newDispatcher provs e maxBodyBytes = some d)
    (h : d.providers n = some prov) : prov ∈ provs := by
  unfold newDispatcher at hd
  split at hd
  · obtain rfl := Option.some.inj hd
    obtain ⟨q, hq, e⟩ := List.mem_map.mp (GoMap.mem_of_ofList h)
    exact (Prod.mk.inj e).2 ▸ hq
  · cases hd

namespace SoundAt

variable {hmac : HMAC} {cfg : Jsm.Config} {x : Option Exchange} {calls : List ApiCall}

/-- A request makes one Patch at most. -/
theorem countP_isPatch_le_one (h : SoundAt d x calls) : calls.countP ApiCall.isPatch ≤ 1 := by
  cases x with
  | none => simp [show calls = [] from h]
  | some x =>
    cases h with
    | refused _ _ hc => simp [hc]
    | executed _ hc hrest _ => exact hc ▸ count_isPatch_le_one hrest

/-- A request that has made a Patch was authorised to. -/
theorem authorised (hd : ∀ {n prov}, d.providers n = some prov → prov = Jsm.provider hmac cfg)
    (h : SoundAt d x calls) {obj : ClientObject} {fieldOwner : GoString} {force : Bool}
    (hc : ApiCall.patch obj fieldOwner force ∈ calls) :
    ∃ y, x = some y ∧ Authorised hmac cfg d.maxBodyBytes y.request obj := by
  cases x with
  | none => simp [show calls = [] from h] at hc
  | some x =>
    refine ⟨x, rfl, ?_⟩
    cases h with
    | refused _ _ h => simp [h] at hc
    | executed hserve h hrest _ =>
      obtain ⟨obj', hcall, hauth⟩ := authorised_of_serveHTTP hd hserve
      rw [h, hcall, List.mem_append] at hc
      rcases hc with hc | hc
      · obtain ⟨rfl, -, -⟩ := ApiCall.patch.inj (List.mem_singleton.mp hc)
        exact hauth
      · cases hrest _ hc

/-- A request that was refused, or ignored, has made no call. -/
theorem eq_nil_of_harmless
    (hd : ∀ {n prov}, d.providers n = some prov → prov = Jsm.provider hmac cfg)
    {y : Exchange} {resp : Response} (h : SoundAt d (some y) calls)
    (hy : y.served = .responded resp) (hr : resp.Harmless) : calls = [] := by
  cases h with
  | refused _ _ h => exact h
  | executed hserve _ _ hs =>
    rw [hy] at hs
    obtain ⟨q, hq⟩ | ⟨res, hres, hq⟩ := hs
    · cases hq
    · obtain rfl := Served.responded.inj hq
      obtain rfl := hd (serveHTTP_executing hserve).1
      exact absurd hr (not_harmless_of_executed hres)

end SoundAt

/-- Over every run of the service, whatever requests arrive and whatever the API
    server replies: an object is sent for one request, and is the one that the
    request authorises; no request sends two; and one that is answered as
    harmless makes no call at all. -/
theorem patch_authorised (hmac : HMAC) (cfg : Jsm.Config) (e : Executor) (maxBodyBytes : Int)
    {d : Dispatcher} (hd : newDispatcher [Jsm.provider hmac cfg] e maxBodyBytes = some d)
    {s : Pool.State Log Exchange} (hs : (service d).machine.Reachable s) :
    (∀ i obj fieldOwner force, (i, ApiCall.patch obj fieldOwner force) ∈ s.shared →
      ∃ x, s.procs i = some x ∧ Authorised hmac cfg d.maxBodyBytes x.request obj) ∧
    (∀ i, (s.shared.calls i).countP ApiCall.isPatch ≤ 1) ∧
    ∀ i x resp, s.procs i = some x → x.served = .responded resp → resp.Harmless →
      ∀ c, (i, c) ∉ s.shared := by
  have hprov : ∀ {n prov}, d.providers n = some prov → prov = Jsm.provider hmac cfg :=
    fun h => List.mem_singleton.mp (mem_of_newDispatcher hd h)
  have hsound := ((sound_invariant d).reachable trivial (fun _ => rfl) hs).2
  refine ⟨?_, fun i => (hsound i).countP_isPatch_le_one, ?_⟩
  · intro i obj fieldOwner force h
    exact (hsound i).authorised hprov (Log.mem_calls.mpr h)
  · intro i x resp hx hresp hharm c hc
    have hi := hsound i
    rw [hx] at hi
    rw [← Log.mem_calls, hi.eq_nil_of_harmless hprov hresp hharm] at hc
    cases hc

/-- A hash with the same sum for all messages. -/
def sampleHMAC : HMAC := ⟨fun _ _ => List.replicate 32 0, fun _ _ => rfl⟩

/-- A delivery of the ticket of the tenant, signed with its secret. -/
def sampleRequest : Request where
  provider := lit "jsm"
  header := .ofPairs
    [(lit "x-signature", sign sampleHMAC (lit "secret") (lit "0") Jsm.sampleTicket.render),
      (lit "x-timestamp", lit "0")]
  body := ⟨Jsm.sampleTicket.render, true⟩
  ctx := ⟨lit "req-1", [], lit "1970-01-01T00:00:00Z"⟩

def sampleDispatcher : Dispatcher where
  providers := .ofList [(lit "jsm", Jsm.provider sampleHMAC Jsm.sampleConfig)]
  executor := newExecutor [] (20 * second)
  maxBodyBytes := 1000

def sampleAction : ApplyAction :=
  Jsm.applyAction Jsm.sampleConfig (lit "SEC-1") (lit "group") (lit "admin") (lit "core")

theorem handle_sampleTicket :
    Jsm.handle Jsm.sampleConfig Jsm.sampleTicket.render = .ok (.apply sampleAction) :=
  (Jsm.handle_apply_iff (parse_render (by decide)) Jsm.sampleTicket_unambiguous).mpr
    ⟨lit "SEC-1", _, lit "group", lit "admin", lit "core", ⟨rfl, by decide, rfl, rfl, by decide⟩,
      ⟨_, rfl, by decide, by decide⟩, ⟨_, rfl, by decide, by decide⟩,
      ⟨_, rfl, by decide, by decide⟩, rfl⟩

theorem serveHTTP_sampleRequest :
    serveHTTP sampleDispatcher sampleRequest (.unix 0) =
      .executing (Jsm.provider sampleHMAC Jsm.sampleConfig)
        (.patch sampleAction (prepare sampleRequest.ctx sampleAction)) := by
  have hprov : sampleDispatcher.providers sampleRequest.provider =
      some (Jsm.provider sampleHMAC Jsm.sampleConfig) := rfl
  have hbody : readAll sampleDispatcher.maxBodyBytes sampleRequest.body =
      .ok Jsm.sampleTicket.render := readAll_ok.mpr ⟨rfl, rfl, by decide +kernel⟩
  have hsig : sampleRequest.header.get (lit "X-Signature") =
      sign sampleHMAC (lit "secret") (lit "0") Jsm.sampleTicket.render := by decide
  have hts : sampleRequest.header.get (lit "X-Timestamp") = lit "0" := by decide
  have hv : (Jsm.provider sampleHMAC Jsm.sampleConfig).verifySignature sampleRequest.header
      Jsm.sampleTicket.render (.unix 0) = .ok () := by
    show verify _ _ (sampleRequest.header.get (lit "X-Signature"))
      (sampleRequest.header.get (lit "X-Timestamp")) _ _ _ = _
    rw [hsig, hts]
    exact verify_signed (by decide +kernel)
  have hh : (Jsm.provider sampleHMAC Jsm.sampleConfig).handle Jsm.sampleTicket.render =
      .ok (.apply sampleAction) := by
    rw [Jsm.provider_handle, handle_sampleTicket]
  simp only [serveHTTP, hprov, hbody, hv, hh, execute, settle]

theorem patch_authorised_sampleRequest :
    ∃ s x, (service sampleDispatcher).machine.Reachable s ∧ s.procs 0 = some x ∧
      x.request = sampleRequest ∧
      Authorised sampleHMAC Jsm.sampleConfig 1000 sampleRequest
        (prepare sampleRequest.ctx sampleAction) := by
  have hs : (service sampleDispatcher).machine.Reachable
      ⟨Log.record [] 0 ((serveHTTP sampleDispatcher sampleRequest (.unix 0)).call
        sampleDispatcher.executor), Function.update (fun _ => none) 0
        (some ⟨sampleRequest, .unix 0, serveHTTP sampleDispatcher sampleRequest (.unix 0)⟩)⟩ :=
    ⟨[.start 0 (sampleRequest, .unix 0)], rfl⟩
  obtain ⟨x, hx, ha⟩ := (patch_authorised sampleHMAC Jsm.sampleConfig (newExecutor [] (20 * second))
    1000 rfl hs).1 0 (prepare sampleRequest.ctx sampleAction) (lit "webhookd") true (by
      rw [serveHTTP_sampleRequest]
      exact List.mem_singleton.mpr rfl)
  have hr : x.request = sampleRequest := by
    dsimp only at hx
    rw [Function.update_self] at hx
    rw [← Option.some.inj hx]
  exact ⟨_, x, hs, hx, hr, hr ▸ ha⟩

end Webhookd
