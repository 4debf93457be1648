import Webhookd.Go.Encode
import Webhookd.Telemetry

/-!
# Responses on the wire

What the dispatcher writes, byte by byte, and what the automation rule of the
tenant reads from it: `ResponseBody` of `jsm/response.go` through
`json.NewEncoder`, and the texts of `http.Error`. The text of a reason is
whatever the format strings make of it: it may hold any bytes, as it repeats
parts of the ticket and the errors of the API server.

* `response_roundtrip`: the rule reads back every field, and nothing that a text
  holds changes another field;
* `answered` says what a request was answered, along every run of the service;
* `response_clean`: a response is one line of valid UTF-8, with no byte below 0x20
  before the newline at its end, and none of `<`, `>` and `&`.
-/

namespace Webhookd

open Go

/-- The texts of `ResponseBody.Status`. -/
def ResponseStatus.text : ResponseStatus → GoString
  | .success => lit "success"
  | .noop => lit "noop"
  | .failure => lit "failure"

/-- The fields of `ResponseBody`, by their tags; `text` is the text of a reason. -/
def ResponseBody.fields (text : Reason → GoString) (b : ResponseBody) : List StructField :=
  [⟨lit "status", false, .str b.status.text⟩,
    ⟨lit "reason", true, .str (text b.reason)⟩,
    ⟨lit "crName", true, .str b.crName⟩,
    ⟨lit "namespace", true, .str b.namespace_⟩,
    ⟨lit "observedGeneration", true, .int b.observedGeneration⟩,
    ⟨lit "traceId", true, .str b.traceID⟩,
    ⟨lit "requestId", true, .str b.requestID⟩]

/-- What is written for the body of a response, by `http.Error` or the encoder. -/
def Content.bytes (text : Reason → GoString) : Content → GoString
  | .text msg => lit msg ++ [ch '\n']
  | .json b => encode (b.fields text)

/-- What the decoder sees of a text that is left out when it is empty. -/
def optional (s : GoString) : Option Json := if s = [] then none else some (.str (toValidUTF8 s))

section

variable (text : Reason → GoString) (b : ResponseBody)

/-- The names of the fields are valid UTF-8. -/
theorem validString_fields : ∀ f ∈ b.fields text, ValidString f.name := by
  intro f hf
  simp only [ResponseBody.fields, List.mem_cons, List.not_mem_nil, or_false] at hf
  rcases hf with rfl | rfl | rfl | rfl | rfl | rfl | rfl <;> exact validString_lit _

/-- They are different. -/
theorem nodup_fields : ((b.fields text).map (·.name)).Nodup := by
  show [lit "status", lit "reason", lit "crName", lit "namespace", lit "observedGeneration",
    lit "traceId", lit "requestId"].Nodup
  decide

/-- A field with `omitempty` is absent if it is empty. -/
theorem optional_eq (name s : GoString) :
    (if (StructField.mk name true (.str s)).present then some (Scalar.str s).toJson else none) =
      optional s := by
  by_cases hs : s = [] <;> simp [StructField.present, Scalar.isEmpty, Scalar.toJson, optional, hs]

theorem toValidUTF8_text (s : ResponseStatus) : toValidUTF8 s.text = s.text := by
  cases s <;> exact validString_lit _

/-- The integer that a number is read as. -/
def readInt : Json → Option Int
  | .num literal => parseInt literal
  | _ => none

/-- What the rule reads under the names of the fields. -/
structure ResponseBody.ReadFrom (text : Reason → GoString) (b : ResponseBody)
    (ms : GoMap Json) : Prop where
  status : ms (lit "status") = some (.str b.status.text)
  reason : ms (lit "reason") = optional (text b.reason)
  crName : ms (lit "crName") = optional b.crName
  namespace_ : ms (lit "namespace") = optional b.namespace_
  observedGeneration : (ms (lit "observedGeneration")).bind readInt =
    if b.observedGeneration = 0 then none else some b.observedGeneration
  traceID : ms (lit "traceId") = optional b.traceID
  requestID : ms (lit "requestId") = optional b.requestID

/-- The status is always there. -/
theorem ofList_status :
    GoMap.ofList (members (b.fields text)) (lit "status") = some (.str b.status.text) := by
  have hs := ofList_members (validString_fields text b) (nodup_fields text b)
    (f := ⟨lit "status", false, .str b.status.text⟩) (by simp [ResponseBody.fields])
  rwa [Scalar.toJson, toValidUTF8_text] at hs

variable {text b} in
/-- A text is read back from its name. -/
theorem ofList_text {name s : GoString}
    (h : (⟨name, true, .str s⟩ : StructField) ∈ b.fields text) :
    GoMap.ofList (members (b.fields text)) name = optional s :=
  (ofList_members (validString_fields text b) (nodup_fields text b) h).trans (optional_eq _ _)

/-- A generation is read back as the number it is. -/
theorem ofList_observedGeneration (hlo : -2 ^ 63 ≤ b.observedGeneration)
    (hhi : b.observedGeneration < 2 ^ 63) :
    (GoMap.ofList (members (b.fields text)) (lit "observedGeneration")).bind readInt =
      if b.observedGeneration = 0 then none else some b.observedGeneration := by
  have hg := ofList_members (validString_fields text b) (nodup_fields text b)
    (f := ⟨lit "observedGeneration", true, .int b.observedGeneration⟩) (by
      simp [ResponseBody.fields])
  rw [hg]
  by_cases h0 : b.observedGeneration = 0
  · simp [StructField.present, Scalar.isEmpty, h0]
  · simp [StructField.present, Scalar.isEmpty, h0, Scalar.toJson, readInt,
      parseInt_formatInt hlo hhi]

/-- All fields are read back from their names. -/
theorem readFrom_fields (hlo : -2 ^ 63 ≤ b.observedGeneration)
    (hhi : b.observedGeneration < 2 ^ 63) :
    b.ReadFrom text (GoMap.ofList (members (b.fields text))) where
  status := ofList_status text b
  reason := ofList_text (by simp [ResponseBody.fields])
  crName := ofList_text (by simp [ResponseBody.fields])
  namespace_ := ofList_text (by simp [ResponseBody.fields])
  observedGeneration := ofList_observedGeneration text b hlo hhi
  traceID := ofList_text (by simp [ResponseBody.fields])
  requestID := ofList_text (by simp [ResponseBody.fields])

end

/-- The body of a response is read back: every field under its name, whatever bytes
    the other fields hold, and nothing else. A byte that is no part of a rune is
    replaced, and an empty field is not there. -/
theorem response_roundtrip (text : Reason → GoString) (b : ResponseBody)
    (hlo : -2 ^ 63 ≤ b.observedGeneration) (hhi : b.observedGeneration < 2 ^ 63) :
    ∃ ms, parse ((Content.json b).bytes text) = some (.obj ms) ∧
      b.ReadFrom text (GoMap.ofList ms) ∧ (ms.map (·.1)).Nodup ∧
      ∀ m ∈ ms, m.1 ∈ (b.fields text).map (·.name) := by
  refine ⟨_, parse_encode _, readFrom_fields text b hlo hhi, ?_, ?_⟩
  · rw [keys_members (validString_fields text b)]
    exact (nodup_fields text b).sublist (List.filter_sublist.map _)
  · intro m hm
    have hk : m.1 ∈ (members (b.fields text)).map (·.1) := List.mem_map_of_mem hm
    rw [keys_members (validString_fields text b)] at hk
    exact (List.filter_sublist.map _).subset hk

/-- The response to a ticket whose object is ready, with a request id that looks like
    another field. -/
def sampleBody : ResponseBody :=
  Jsm.build { kind := .ready, crName := lit "jsm-sec-1", observedGeneration := 3 } []
    (lit "\",\"status\":\"failure")

theorem response_roundtrip_sampleBody :
    ∃ ms, parse ((Content.json sampleBody).bytes fun _ => []) = some (.obj ms) ∧
      GoMap.ofList ms (lit "status") = some (.str (lit "success")) := by
  obtain ⟨ms, hp, hr, -⟩ := response_roundtrip (fun _ => []) sampleBody (by decide) (by decide)
  exact ⟨ms, hp, hr.status⟩

/-! ## What was answered, along the runs of the service -/

section

variable {hmac : HMAC} {cfg : Jsm.Config} {d : Dispatcher}

/-- What a request was answered, by the calls that it has made: it was refused, it
    was declined by the provider, or it was executed. -/
inductive Answered (hmac : HMAC) (cfg : Jsm.Config) (d : Dispatcher) (x : Exchange) :
    Response → List ApiCall → Prop
  | refused {status msg} (h : (status, msg) ∈ refusals) :
      Answered hmac cfg d x ⟨status, .text msg⟩ []
  | declined {res} (hk : res.kind ∈ [.noop, .badRequest, .unprocessable, .internalError])
      (hn : res.crName = []) :
      Answered hmac cfg d x (writeResponse (Jsm.provider hmac cfg) x.request.ctx res) []
  | executed {res act rest} (ha : Jsm.handle cfg x.request.body.data = .ok (.apply act))
      (hr : res.Executed) (hrest : ∀ c ∈ rest, ApiCall.isPatch c = false) :
      Answered hmac cfg d x (writeResponse (Jsm.provider hmac cfg) x.request.ctx res)
        (.patch (prepare x.request.ctx act) d.executor.fieldManager true :: rest)

/-- An error of a provider is answered without the name of an object. -/
theorem classifyProviderErr_kind (e : HandleError) :
    (classifyProviderErr e).kind ∈ [.noop, .badRequest, .unprocessable, .internalError] ∧
      (classifyProviderErr e).crName = [] := by
  rw [classifyProviderErr]
  rcases e.wraps with _ | _ | _ <;> simp

/-- A request that is answered at once has made no call. -/
theorem answered_at_once (hd : Serving hmac cfg d) {x : Exchange} {resp : Response}
    (h : serveHTTP d x.request x.now = .responded resp) : Answered hmac cfg d x resp [] := by
  have hs := serves (fun _ _ => []) d x.request x.now
  rw [← serveHTTPRecorded_snd (fun _ _ => [])] at h
  generalize serveHTTPRecorded _ d x.request x.now = sr at hs h
  cases hs with
  | refused hm =>
    obtain rfl := Served.responded.inj h
    exact .refused hm
  | @rejected prov e ha hh =>
    obtain rfl := hd ha.provider
    obtain rfl := Served.responded.inj h
    exact .declined (classifyProviderErr_kind e).1 (classifyProviderErr_kind e).2
  | @handled prov action ha hh =>
    obtain rfl := hd ha.provider
    cases action with
    | noop reason =>
      obtain rfl := Served.responded.inj h
      exact .declined (by simp) rfl
    | apply act => cases h

/-- Every answer of the service is one of those that `Answered` lists. -/
theorem answered (hd : Serving hmac cfg d) {s : Pool.State Log Exchange}
    (hs : (service d).machine.Reachable s) {i : Nat} {x : Exchange} {resp : Response}
    (hx : s.procs i = some x) (hr : x.served = .responded resp) :
    Answered hmac cfg d x resp (s.shared.calls i) := by
  have hi := ((sound_invariant d).reachable trivial (fun _ => rfl) hs).2 i
  rw [hx] at hi
  cases hi with
  | refused h hs hc =>
    obtain rfl := Served.responded.inj (hr.symm.trans hs)
    rw [hc]
    exact answered_at_once hd h
  | executed h hc hrest hserved =>
    obtain ⟨hprov, -, -, -, act, ha, rfl⟩ := serveHTTP_executing h
    obtain rfl := hd hprov
    rcases hserved with ⟨p', hp⟩ | ⟨res, hres, hp⟩
    · cases hr.symm.trans hp
    · obtain rfl := Served.responded.inj (hr.symm.trans hp)
      rw [hc]
      exact .executed ha hres hrest

end

/-- The response of every request, along every run, is one line of valid UTF-8 with no
    byte below 0x20 before the newline at its end, and no byte that opens or closes a tag
    or opens an entity, whatever was sent. -/
theorem response_clean (hmac : HMAC) (cfg : Jsm.Config) (e : Executor) (maxBodyBytes : Int)
    (text : Reason → GoString) {d : Dispatcher}
    (hd : newDispatcher [Jsm.provider hmac cfg] e maxBodyBytes = some d)
    {s : Pool.State Log Exchange} (hs : (service d).machine.Reachable s) {i : Nat} {x : Exchange}
    {resp : Response} (hx : s.procs i = some x) (hr : x.served = .responded resp) :
    ∃ line, resp.content.bytes text = line ++ [ch '\n'] ∧ ValidString line ∧
      ∀ b ∈ line, 0x20 ≤ b.toNat ∧ b ∉ [ch '<', ch '>', ch '&'] := by
  suffices h : ∃ line, resp.content.bytes text = line ++ [ch '\n'] ∧ Clean line by
    obtain ⟨line, hl, hc⟩ := h
    refine ⟨line, hl, hc.1, fun b hb => ?_⟩
    have := hc.2 b hb
    simpa [plain, and_assoc] using this
  have ha := answered (serving_of_newDispatcher hd) hs hx hr
  generalize s.shared.calls i = calls at ha
  cases ha with
  | refused h =>
    simp only [refusals, List.mem_cons, List.not_mem_nil, or_false, Prod.mk.injEq] at h
    rcases h with ⟨-, rfl⟩ | ⟨-, rfl⟩ | ⟨-, rfl⟩ | ⟨-, rfl⟩ <;>
      exact ⟨_, rfl, clean_of_all (by decide)⟩
  | declined => exact clean_encode _
  | executed => exact clean_encode _

/-- The delivery of the ticket of the tenant, which the API server rejects. -/
theorem run_sampleRejected :
    ∃ s x, (service sampleDispatcher).machine.Reachable s ∧ s.procs 0 = some x ∧
      x.served = .responded (writeResponse (Jsm.provider sampleHMAC Jsm.sampleConfig)
        sampleRequest.ctx (classifyK8sErr ((⟨.forbidden, []⟩ : K8sError).wrap "ssa patch: ")
          (lit "wiz") (lit "jsm-sec-1"))) := by
  have hstart : (service sampleDispatcher).machine.step (service sampleDispatcher).machine.init
      (.start 0 (sampleRequest, .unix 0)) =
        some ⟨[(0, .patch (prepare sampleRequest.ctx sampleAction) (lit "webhookd") true)],
          Function.update (fun _ => none) 0 (some ⟨sampleRequest, .unix 0,
            .executing (Jsm.provider sampleHMAC Jsm.sampleConfig)
              (.patch sampleAction (prepare sampleRequest.ctx sampleAction))⟩)⟩ := by
    simp only [Pool.machine, service, serveHTTP_sampleRequest]
    rfl
  refine ⟨_, _, ⟨[.start 0 (sampleRequest, .unix 0), .step 0 (.failed ⟨.forbidden, []⟩)],
    Machine.run_cons_eq_some.mpr ⟨_, hstart, rfl⟩⟩, rfl, rfl⟩

theorem response_clean_sampleRejected :
    ∃ resp : Response, resp.status = 500 ∧
      ∃ line, resp.content.bytes (fun _ => []) = line ++ [ch '\n'] ∧ ValidString line := by
  obtain ⟨s, x, hs, hx, hr⟩ := run_sampleRejected
  obtain ⟨line, hl, hv, -⟩ := response_clean sampleHMAC Jsm.sampleConfig _ 1000 (fun _ => [])
    serving_sampleDispatcher hs hx hr
  exact ⟨_, rfl, line, hl, hv⟩

end Webhookd
