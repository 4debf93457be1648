import Webhookd.Dispatcher

/-!
# The counters of the domain

What the provider, the executor and the dispatcher record while they serve
requests: `recordNoop` and `recordParseErr` of `jsm/provider.go`, `observeApply`
and `observeSync` of `executor.go`, and the response counter of
`writeResponse`. A request is served as in `service`, and has increments that it
is about to make; each is a step of its own, so that the increments of different
requests interleave in any way.

* `handleRecorded` and `serveHTTPRecorded` are `Handle` and `ServeHTTP` with what
  they record; without it they are those functions;
* `Ledger` is everything that one request records, by how far it is, and holds
  along every run (`ledger_invariant`);
* `counters_reconcile` says how the counters add up when all requests are
  answered, and `series_bounded` that whatever is received, there are seventeen
  time series at most.
-/

namespace Webhookd

open Go

/-! ## Instruments -/

/-- The labels of `JSMPayloadParseErrors`. -/
inductive ParseReason
  | invalidJSON
  | missingField
  | emptyField
  | wrongType
  deriving DecidableEq

/-- The labels of `K8sApplyTotal`, next to the kind. -/
inductive ApplyOutcome
  | created
  | updated
  | error
  deriving DecidableEq

/-- The labels of `K8sSyncDuration`, next to the kind. -/
inductive SyncOutcome
  | ready
  | timeout
  | transient
  deriving DecidableEq

/-- The time series that are incremented, an instrument with its labels. Of the
    histogram of `K8sSyncDuration`, only the number of observations is counted. -/
inductive Metric
  | jsmNoopTotal
  | jsmPayloadParseErrors (reason : ParseReason)
  | k8sApplyTotal (kind : GoString) (outcome : ApplyOutcome)
  | k8sSyncDuration (kind : GoString) (outcome : SyncOutcome)
  | jsmResponseTotal (status : Nat)
  deriving DecidableEq

/-! ## What is recorded -/

namespace Jsm

/-- `recordNoop`. -/
def recordNoop : List Metric := [.jsmNoopTotal]

/-- `recordParseErr`. -/
def recordParseErr (reason : ParseReason) : List Metric := [.jsmPayloadParseErrors reason]

/-- `decodeReason`. -/
def decodeReason : JsmError → ParseReason
  | .missingIssue | .missingIssueKey | .missingStatus => .missingField
  | _ => .invalidJSON

/-- `extractReason`. -/
def extractReason : JsmError → ParseReason
  | .fieldMissing _ => .missingField
  | .fieldEmpty _ => .emptyField
  | .fieldType _ => .wrongType
  | _ => .missingField

/-- `Provider.Handle`, with what it records. -/
def handleRecorded (cfg : Config) (body : GoString) : List Metric × Except HandleError Action :=
  match decode body with
  | .error e => (recordParseErr (decodeReason e), .error ⟨some .badRequest, e⟩)
  | .ok payload =>
    if payload.status ≠ cfg.triggerStatus then
      (recordNoop,
        .ok (.noop (.statusMismatch payload.issueKey payload.status cfg.triggerStatus)))
    else
      match extractString payload cfg.fieldProviderGroupID with
      | .error e => (recordParseErr (extractReason e), .error (classifyExtractErr e))
      | .ok providerGroupID =>
        match extractString payload cfg.fieldRole with
        | .error e => (recordParseErr (extractReason e), .error (classifyExtractErr e))
        | .ok role =>
          match extractString payload cfg.fieldProject with
          | .error e => (recordParseErr (extractReason e), .error (classifyExtractErr e))
          | .ok project =>
            ([], .ok (.apply (applyAction cfg payload.issueKey providerGroupID role project)))

end Jsm

/-- `applyOutcome`. -/
def applyOutcome (obj : ClientObject) : ApplyOutcome :=
  if obj.generation = 0 then .error
  else if obj.generation = 1 then .created
  else .updated

/-- `syncOutcome`. -/
def syncOutcome : ResultKind → SyncOutcome
  | .ready => .ready
  | .timeout => .timeout
  | _ => .transient

/-- `observeApply`. -/
def observeApply (kind : GoString) (outcome : ApplyOutcome) : List Metric :=
  [.k8sApplyTotal kind outcome]

/-- `observeSync`. -/
def observeSync (kind : GoString) (outcome : SyncOutcome) : List Metric :=
  [.k8sSyncDuration kind outcome]

/-- What `Execute` records on its way from one phase to the next. -/
def Phase.recorded : Phase → Phase → List Metric
  -- `apply` has returned an error, or the object.
  | .patch act _, .done _ | .refetch act _, .done _ => observeApply act.kind .error
  | .refetch act _, .probe _ applied => observeApply act.kind (applyOutcome applied)
  -- The deferred call of `waitForSync`.
  | .probe act _, .done res | .establish act _, .done res | .select act _, .done res =>
    observeSync act.kind (syncOutcome res.kind)
  | _, _ => []

/-- What `writeResponse` records. -/
def recordResponse (res : ExecResult) : List Metric := [.jsmResponseTotal res.kind.httpStatus]

/-- What is recorded when an execution has returned. -/
def settleRecorded : Phase → List Metric
  | .done res => recordResponse res
  | _ => []

/-- `ServeHTTP`, up to the first call of the execution, with what it records;
    `records` is what the `Handle` of a provider records for a body. -/
def serveHTTPRecorded (records : Provider → GoString → List Metric) (d : Dispatcher) (r : Request)
    (now : Time) : List Metric × Served :=
  match d.providers r.provider with
  | none => ([], .responded ⟨404, .text "unknown provider"⟩)
  | some prov =>
    match readAll d.maxBodyBytes r.body with
    | .error .tooLarge => ([], .responded ⟨413, .text "request body too large"⟩)
    | .error .failed => ([], .responded ⟨400, .text "read body failed"⟩)
    | .ok body =>
      match prov.verifySignature r.header body now with
      | .error _ => ([], .responded ⟨401, .text "invalid signature"⟩)
      | .ok () =>
        match prov.handle body with
        | .error e =>
          (records prov body ++ recordResponse (classifyProviderErr e),
            .responded (writeResponse prov r.ctx (classifyProviderErr e)))
        | .ok action =>
          (records prov body ++ settleRecorded (execute r.ctx action),
            settle prov r.ctx (execute r.ctx action))

/-! ## The service, with its counters -/

/-- The calls and the increments that were made. -/
structure Telemetry where
  log : Log
  metrics : Journal Metric

/-- A request, and the increments that it is about to make. -/
structure Metered where
  exchange : Exchange
  pending : List Metric

/-- What a request does: it makes the next increment, or goes on from a reply. -/
inductive MeteredStep
  | inc
  | reply (r : Reply)

/-- The requests that are served, concurrently, with what they record. -/
def metered (records : Provider → GoString → List Metric) (d : Dispatcher) :
    Pool Telemetry Metered (Request × Time) MeteredStep Empty where
  init := ⟨[], []⟩
  start i a g :=
    let (pending, served) := serveHTTPRecorded records d a.1 a.2
    some (⟨⟨a.1, a.2, served⟩, pending⟩, { g with log := g.log.record i (served.call d.executor) })
  step i x
    | .inc, g =>
      match x.pending with
      | [] => none
      | m :: pending => some ({ x with pending }, { g with metrics := g.metrics.record i [m] })
    | .reply r, g =>
      match x.pending, x.exchange.served with
      | [], .executing prov p =>
        (p.resume d.executor r).map fun p' =>
          let served := settle prov x.exchange.request.ctx p'
          (⟨{ x.exchange with served }, p.recorded p' ++ settleRecorded p'⟩,
            { g with log := g.log.record i (served.call d.executor) })
      | _, _ => none
  env x := nomatch x

/-- What the provider of a tenant records. -/
def Jsm.records (cfg : Jsm.Config) (_ : Provider) (body : GoString) : List Metric :=
  (Jsm.handleRecorded cfg body).1

/-! ## What is recorded does not change what is done -/

/-- A request is served at once, and its increments are pending. -/
theorem metered_start {records : Provider → GoString → List Metric} {d : Dispatcher} {i : Nat}
    {a : Request × Time} {x : Metered} {g g' : Telemetry} :
    (metered records d).start i a g = some (x, g') ↔
      x = ⟨⟨a.1, a.2, (serveHTTPRecorded records d a.1 a.2).2⟩,
        (serveHTTPRecorded records d a.1 a.2).1⟩ ∧
      g' = ⟨g.log.record i ((serveHTTPRecorded records d a.1 a.2).2.call d.executor),
        g.metrics⟩ := by
  simp [metered, eq_comm]

/-- A request makes an increment, or goes on from a reply. -/
theorem metered_step {records : Provider → GoString → List Metric} {d : Dispatcher} {i : Nat}
    {x x' : Metered} {l : MeteredStep} {g g' : Telemetry} :
    (metered records d).step i x l g = some (x', g') ↔
      (∃ m pending, l = .inc ∧ x.pending = m :: pending ∧ x' = ⟨x.exchange, pending⟩ ∧
        g' = ⟨g.log, g.metrics.record i [m]⟩) ∨
      ∃ r prov p p', l = .reply r ∧ x.pending = [] ∧ x.exchange.served = .executing prov p ∧
        p.resume d.executor r = some p' ∧
        x' = ⟨⟨x.exchange.request, x.exchange.now, settle prov x.exchange.request.ctx p'⟩,
          p.recorded p' ++ settleRecorded p'⟩ ∧
        g' = ⟨g.log.record i ((settle prov x.exchange.request.ctx p').call d.executor),
          g.metrics⟩ := by
  obtain ⟨exchange, pending⟩ := x
  cases l with
  | inc => cases pending <;> simp [metered, eq_comm]
  | reply r =>
    obtain ⟨request, now, served⟩ := exchange
    cases pending <;> cases served <;> simp [metered, eq_comm]

section

variable {d : Dispatcher} {r : Request} {now : Time} {prov : Provider}
  {records : Provider → GoString → List Metric}

/-- The request was read, and its signature verified. -/
structure Admits (d : Dispatcher) (r : Request) (now : Time) (prov : Provider) : Prop where
  provider : d.providers r.provider = some prov
  complete : r.body.complete
  length_le : r.body.data.length ≤ d.maxBodyBytes
  verified : prov.verifySignature r.header r.body.data now = .ok ()

/-- The status and the text that requests are refused with. -/
def refusals : List (Nat × String) :=
  [(404, "unknown provider"), (413, "request body too large"), (400, "read body failed"),
    (401, "invalid signature")]

/-- How `ServeHTTP` goes: a request is refused and nothing recorded, or it is
    admitted and handled. -/
inductive Serves (records : Provider → GoString → List Metric) (d : Dispatcher) (r : Request)
    (now : Time) : List Metric × Served → Prop
  | refused {status msg} (h : (status, msg) ∈ refusals) :
      Serves records d r now ([], .responded ⟨status, .text msg⟩)
  | rejected {prov e} (ha : Admits d r now prov) (h : prov.handle r.body.data = .error e) :
      Serves records d r now
        (records prov r.body.data ++ recordResponse (classifyProviderErr e),
          .responded (writeResponse prov r.ctx (classifyProviderErr e)))
  | handled {prov action} (ha : Admits d r now prov) (h : prov.handle r.body.data = .ok action) :
      Serves records d r now
        (records prov r.body.data ++ settleRecorded (execute r.ctx action),
          settle prov r.ctx (execute r.ctx action))

/-- Every request is served in one of the ways that `Serves` lists. -/
theorem serves (records : Provider → GoString → List Metric) (d : Dispatcher) (r : Request)
    (now : Time) : Serves records d r now (serveHTTPRecorded records d r now) := by
  unfold serveHTTPRecorded
  split
  · exact .refused (by simp [refusals])
  rename_i prov hprov
  split
  · exact .refused (by simp [refusals])
  · exact .refused (by simp [refusals])
  rename_i body hbody
  obtain ⟨rfl, hc, hl⟩ := readAll_ok.mp hbody
  split
  · exact .refused (by simp [refusals])
  rename_i hv
  split
  · exact .rejected ⟨hprov, hc, hl, hv⟩ ‹_›
  · exact .handled ⟨hprov, hc, hl, hv⟩ ‹_›

/-- Recording changes nothing about how a request is served. -/
theorem serveHTTPRecorded_snd (records : Provider → GoString → List Metric) (d : Dispatcher)
    (r : Request) (now : Time) : (serveHTTPRecorded records d r now).2 = serveHTTP d r now := by
  unfold serveHTTPRecorded serveHTTP
  repeat' split
  all_goals simp_all

end

/-- The service with its counters does what the service does. -/
theorem service_of_metered {records : Provider → GoString → List Metric} {d : Dispatcher}
    {s : Pool.State Telemetry Metered} (h : (metered records d).machine.Reachable s) :
    (service d).machine.Reachable (s.map Telemetry.log Metered.exchange) := by
  refine Pool.reachable_simulated (f := Telemetry.log) (g := Metered.exchange) rfl ?_ ?_ ?_ h
  · intro i a g x g' hs
    obtain ⟨rfl, rfl⟩ := metered_start.mp hs
    refine ⟨a, ?_⟩
    rw [serveHTTPRecorded_snd]
    rfl
  · intro i x l g x' g' hs
    rcases metered_step.mp hs with ⟨m, pending, -, -, rfl, rfl⟩ |
      ⟨r, prov, p, p', -, -, hx, hp, rfl, rfl⟩
    · exact .inl ⟨rfl, rfl⟩
    · refine .inr ⟨r, ?_⟩
      simp only [service, hx, hp, Option.map_some]
  · intro e
    exact e.elim

/-! ## What the provider records -/

namespace Jsm

/-- The kind of the result of a body that is recorded as rejected. -/
def ParseReason.kind : ParseReason → ResultKind
  | .wrongType => .unprocessable
  | _ => .badRequest

/-- What `Handle` records says what it returns: nothing for an object that is
    applied, and one increment otherwise. -/
inductive Handled : List Metric → Except HandleError Action → Prop
  | noop {reason} : Handled [.jsmNoopTotal] (.ok (.noop reason))
  | apply {act} (hk : act.kind = lit "SAMLGroupMapping") : Handled [] (.ok (.apply act))
  | rejected {reason e} (h : (classifyProviderErr e).kind = ParseReason.kind reason) :
      Handled [.jsmPayloadParseErrors reason] (.error e)

variable {cfg : Config} {payload : Payload} {fieldID : GoString} {e : JsmError}

theorem kind_decodeReason (e : JsmError) : ParseReason.kind (decodeReason e) = .badRequest := by
  cases e <;> rfl

/-- A field that cannot be extracted is answered by the reason it is recorded
    under. -/
theorem kind_extractReason (h : extractString payload fieldID = .error e) :
    (classifyProviderErr (classifyExtractErr e)).kind = ParseReason.kind (extractReason e) := by
  unfold extractString at h
  split at h
  · cases h
    rfl
  · cases h
    rfl
  · simp only at h
    split_ifs at h
    cases h
    rfl
  · cases h
    rfl

/-- Nor about how a body is handled. -/
theorem handleRecorded_snd (cfg : Config) (body : GoString) :
    (handleRecorded cfg body).2 = handle cfg body := by
  rw [handleRecorded, handle]
  cases decode body with
  | error e => rfl
  | ok payload =>
    dsimp only
    split_ifs
    · rfl
    -- The first field that cannot be extracted decides.
    rw [applyTicket, extract, extract, extract]
    cases extractString payload cfg.fieldProviderGroupID with
    | error e => rfl
    | ok providerGroupID =>
      cases extractString payload cfg.fieldRole with
      | error e => rfl
      | ok role => cases extractString payload cfg.fieldProject <;> rfl

/-- What is recorded of a body goes with what is returned. -/
theorem handled (cfg : Config) (body : GoString) :
    Handled (handleRecorded cfg body).1 (handleRecorded cfg body).2 := by
  unfold handleRecorded
  split
  · exact .rejected (kind_decodeReason _).symm
  split_ifs
  · exact .noop
  split
  · exact .rejected (kind_extractReason ‹_›)
  split
  · exact .rejected (kind_extractReason ‹_›)
  split
  · exact .rejected (kind_extractReason ‹_›)
  · exact .apply rfl

end Jsm

/-! ## What a request records -/

/-- What a request has recorded when it is answered, before the response itself:
    by the kind of its result, and the number of objects that it has sent. -/
inductive Recorded : ResultKind → Nat → List Metric → Prop
  | noop : Recorded .noop 0 [.jsmNoopTotal]
  | rejected (reason : ParseReason) :
      Recorded (Jsm.ParseReason.kind reason) 0 [.jsmPayloadParseErrors reason]
  | unapplied {k} (hk : k ∈ [.unprocessable, .internalError, .transientFailure]) :
      Recorded k 1 [.k8sApplyTotal (lit "SAMLGroupMapping") .error]
  | synced {k} (outcome : ApplyOutcome) (hk : k ∈ [.ready, .timeout, .transientFailure]) :
      Recorded k 1 [.k8sApplyTotal (lit "SAMLGroupMapping") outcome,
        .k8sSyncDuration (lit "SAMLGroupMapping") (syncOutcome k)]

/-- The execution is in `apply`. -/
def Phase.Sending : Phase → Prop
  | .patch act _ | .refetch act _ => act.kind = lit "SAMLGroupMapping"
  | _ => False

/-- The execution is in `waitForSync`. -/
def Phase.Waiting : Phase → Prop
  | .probe act _ | .establish act _ | .select act _ => act.kind = lit "SAMLGroupMapping"
  | _ => False

/-- What a request has recorded, or is about to, by how far it is, and the number
    of objects that it has sent. -/
inductive Ledger : Served → Nat → List Metric → Prop
  | refused {status msg} : Ledger (.responded ⟨status, .text msg⟩) 0 []
  | answered {prov ctx res n ms} (h : Recorded res.kind n ms) :
      Ledger (.responded (writeResponse prov ctx res)) n (ms ++ recordResponse res)
  | sending {prov p} (h : p.Sending) : Ledger (.executing prov p) 1 []
  | waiting {prov p} (outcome : ApplyOutcome) (h : p.Waiting) :
      Ledger (.executing prov p) 1 [.k8sApplyTotal (lit "SAMLGroupMapping") outcome]

/-- The kinds of the errors of the API server. -/
theorem classifyK8sErr_kind (e : K8sError) (namespace_ name : GoString) :
    (classifyK8sErr e namespace_ name).kind ∈
      [.unprocessable, .internalError, .transientFailure] := by
  rw [classifyK8sErr]
  cases e.reason <;> simp

section

variable {prov : Provider} {ctx : RequestContext} {act : ApplyAction} {res : ExecResult}
  {outcome : ApplyOutcome} {p p' : Phase} {n : Nat} {ms : List Metric}

/-- An object that was not applied is counted as an error, and answered. -/
theorem Ledger.unapplied (hk : act.kind = lit "SAMLGroupMapping")
    (hr : res.kind ∈ [.unprocessable, .internalError, .transientFailure]) :
    Ledger (.responded (writeResponse prov ctx res)) 1
      (observeApply act.kind .error ++ recordResponse res) := by
  rw [hk]
  exact .answered (.unapplied hr)

/-- An object that was applied is counted with how its sync went, and answered. -/
theorem Ledger.synced (hk : act.kind = lit "SAMLGroupMapping")
    (hr : res.kind ∈ [.ready, .timeout, .transientFailure]) :
    Ledger (.responded (writeResponse prov ctx res)) 1
      (.k8sApplyTotal (lit "SAMLGroupMapping") outcome ::
        (observeSync act.kind (syncOutcome res.kind) ++ recordResponse res)) := by
  rw [hk]
  exact .answered (.synced outcome hr)

/-- A reply adds to what an execution has recorded. -/
theorem Ledger.resume {e : Executor} {r : Reply} (h : Ledger (.executing prov p) n ms)
    (hp : Resumes e p r p') :
    Ledger (settle prov ctx p') n (ms ++ (p.recorded p' ++ settleRecorded p')) := by
  cases h with
  | sending h =>
    cases hp with
    | patched => exact .sending h
    | patchFailed | refetchFailed => exact .unapplied h (classifyK8sErr_kind _ _ _)
    | @refetched act obj applied =>
      have hk : act.kind = lit "SAMLGroupMapping" := h
      have hw : Ledger (.executing prov (.probe act applied)) 1
          [.k8sApplyTotal (lit "SAMLGroupMapping") (applyOutcome applied)] :=
        .waiting (applyOutcome applied) hk
      rwa [← hk] at hw
    | _ => cases h
  | waiting outcome h =>
    cases hp with
    | patched | patchFailed | refetched | refetchFailed => cases h
    | probedPending | probeFailed | watching | eventPending => exact .waiting outcome h
    | _ => exact .synced h (by simp [syncResult])

end

/-- All providers of the dispatcher are that of a tenant. -/
def Serving (hmac : HMAC) (cfg : Jsm.Config) (d : Dispatcher) : Prop :=
  ∀ {n prov}, d.providers n = some prov → prov = Jsm.provider hmac cfg

/-- A dispatcher for `jsm` alone serves it. -/
theorem serving_of_newDispatcher {hmac : HMAC} {cfg : Jsm.Config} {e : Executor}
    {maxBodyBytes : Int} {d : Dispatcher}
    (hd : newDispatcher [Jsm.provider hmac cfg] e maxBodyBytes = some d) : Serving hmac cfg d :=
  fun h => List.mem_singleton.mp (mem_of_newDispatcher hd h)

section

variable {hmac : HMAC} {cfg : Jsm.Config} {d : Dispatcher}

/-- An admitted body is recorded as the provider of `jsm` does. -/
theorem Admits.handled (hd : Serving hmac cfg d) {r : Request} {now : Time} {prov : Provider}
    (ha : Admits d r now prov) :
    Jsm.Handled (Jsm.records cfg prov r.body.data) (prov.handle r.body.data) := by
  obtain rfl := hd ha.provider
  rw [Jsm.provider_handle, ← Jsm.handleRecorded_snd]
  exact Jsm.handled cfg r.body.data

/-- A request that was just served has its books in order. -/
theorem Serves.ledger (hd : Serving hmac cfg d) {r : Request} {now : Time}
    {sr : List Metric × Served} (h : Serves (Jsm.records cfg) d r now sr) :
    Ledger sr.2 ((sr.2.call d.executor).toList.countP ApiCall.isPatch) sr.1 := by
  cases h with
  | refused => exact .refused
  | @rejected prov e ha h =>
    have hb := ha.handled hd
    rw [h] at hb
    generalize Jsm.records cfg prov r.body.data = ms at hb ⊢
    cases hb with
    | rejected h => exact .answered (h ▸ .rejected _)
  | @handled prov action ha h =>
    have hb := ha.handled hd
    rw [h] at hb
    generalize Jsm.records cfg prov r.body.data = ms at hb ⊢
    cases hb with
    | noop => exact .answered .noop
    | apply hk => exact .sending hk

/-- What was called and recorded for a request: it has a ledger, and records
    nothing, or was admitted. -/
def Kept (d : Dispatcher) (calls : List ApiCall) (ms : List Metric) : Option Metered → Prop
  | none => calls = [] ∧ ms = []
  | some x =>
    Ledger x.exchange.served (calls.countP ApiCall.isPatch) (ms ++ x.pending) ∧
      ((ms ++ x.pending = [] ∧ ∃ resp, x.exchange.served = .responded resp) ∨
        ∃ prov, Admits d x.exchange.request x.exchange.now prov)

/-- So it has when nothing of them was recorded yet. -/
theorem Serves.kept (hd : Serving hmac cfg d) {r : Request} {now : Time}
    {sr : List Metric × Served} (h : Serves (Jsm.records cfg) d r now sr) :
    Kept d (sr.2.call d.executor).toList [] (some ⟨⟨r, now, sr.2⟩, sr.1⟩) := by
  refine ⟨h.ledger hd, ?_⟩
  cases h with
  | refused => exact .inl ⟨rfl, _, rfl⟩
  | rejected ha => exact .inr ⟨_, ha⟩
  | handled ha => exact .inr ⟨_, ha⟩

/-- An increment is recorded. -/
theorem Kept.inc {x : Exchange} {calls : List ApiCall} {ms pending : List Metric} {m : Metric}
    (h : Kept d calls ms (some ⟨x, m :: pending⟩)) :
    Kept d calls (ms ++ [m]) (some ⟨x, pending⟩) := by
  rwa [Kept, List.append_assoc, List.singleton_append]

/-- A reply adds to the books what the execution records about it. -/
theorem Kept.reply {x : Exchange} {calls : List ApiCall} {ms : List Metric} {prov : Provider}
    {p p' : Phase} {r : Reply} (h : Kept d calls ms (some ⟨x, []⟩))
    (hx : x.served = .executing prov p) (hp : p.resume d.executor r = some p') :
    Kept d (calls ++ ((settle prov x.request.ctx p').call d.executor).toList) ms
      (some ⟨⟨x.request, x.now, settle prov x.request.ctx p'⟩,
        p.recorded p' ++ settleRecorded p'⟩) := by
  obtain ⟨hl, ha⟩ := h
  -- The call that the execution makes next sends nothing.
  have hz : ((settle prov x.request.ctx p').call d.executor).toList.countP ApiCall.isPatch = 0 := by
    rw [List.countP_eq_zero]
    intro c hc
    cases p' with
    | done res => simp [settle, Served.call] at hc
    | _ => simp [isPatch_of_resume hp c hc]
  refine ⟨?_, ?_⟩
  · rw [List.countP_append, hz, Nat.add_zero]
    rw [List.append_nil, hx] at hl
    exact hl.resume (Phase.resume_eq_some.mp hp)
  · rcases ha with ⟨-, resp, hr⟩ | ha
    · rw [hx] at hr
      cases hr
    · exact .inr ha

/-- What is called and recorded for every request is kept, along every run. -/
theorem ledger_invariant (hd : Serving hmac cfg d) :
    (metered (Jsm.records cfg) d).Invariant (fun _ => True) (fun _ => True)
      (fun i x g => Kept d (g.log.calls i) (g.metrics.entries i) x)
      (fun j g g' => ∀ i, some i ≠ j →
        g'.log.calls i = g.log.calls i ∧ g'.metrics.entries i = g.metrics.entries i) where
  start {i a g x g'} _ _ h hs := by
    obtain ⟨rfl, rfl⟩ := metered_start.mp hs
    obtain ⟨hc, hm⟩ := h
    refine ⟨trivial, ?_, ?_⟩
    · rw [Log.calls_record_self, hc, hm]
      exact (serves _ d a.1 a.2).kept hd
    · intro j hj
      exact ⟨Log.calls_record_of_ne _ (fun e => hj (congrArg some e)) _, rfl⟩
  step {i l g x x' g'} _ _ h hs := by
    rcases metered_step.mp hs with ⟨m, pending, -, hp, rfl, rfl⟩ |
      ⟨r, prov, p, p', -, hp, hx, hr, rfl, rfl⟩
    · refine ⟨trivial, ?_, ?_⟩
      · rw [Journal.entries_record_self]
        obtain ⟨exchange, _⟩ := x
        obtain rfl := hp
        exact h.inc
      · intro j hj
        exact ⟨rfl, Journal.entries_record_of_ne _ (fun e => hj (congrArg some e)) _⟩
    · refine ⟨trivial, ?_, ?_⟩
      · rw [Log.calls_record_self]
        obtain ⟨exchange, _⟩ := x
        obtain rfl := hp
        exact h.reply hx hr
      · intro j hj
        exact ⟨Log.calls_record_of_ne _ (fun e => hj (congrArg some e)) _, rfl⟩
  env {x} := nomatch x
  stable {i j x g g'} hij _ h hr := by
    obtain ⟨hc, hm⟩ := hr i hij
    rwa [hc, hm]

end

/-! ## How the counters add up -/

namespace Metric

def isParseError : Metric → Bool
  | .jsmPayloadParseErrors _ => true
  | _ => false

def isApply : Metric → Bool
  | .k8sApplyTotal .. => true
  | _ => false

def isSync : Metric → Bool
  | .k8sSyncDuration .. => true
  | _ => false

def isResponse : Metric → Bool
  | .jsmResponseTotal _ => true
  | _ => false

end Metric

/-- The books of answered requests: how many objects were sent, and how often the
    increments that satisfy a predicate were made. -/
structure Balanced (patches : Nat) (count : (Metric → Bool) → Nat) : Prop where
  /-- A response is one to a ticket in another status, to a body that was rejected,
      or to an apply. -/
  responses : count Metric.isResponse =
    count (· = .jsmNoopTotal) + count Metric.isParseError + count Metric.isApply
  /-- Every object that was sent is counted as an apply. -/
  applies : patches = count Metric.isApply
  successes : count (· = .jsmResponseTotal 200) =
    count (· = .jsmNoopTotal) + count (· = .k8sSyncDuration (lit "SAMLGroupMapping") .ready)
  timeouts : count (· = .jsmResponseTotal 504) =
    count (· = .k8sSyncDuration (lit "SAMLGroupMapping") .timeout)
  badRequests : count (· = .jsmResponseTotal 400) =
    count (· = .jsmPayloadParseErrors .invalidJSON) +
      count (· = .jsmPayloadParseErrors .missingField) +
      count (· = .jsmPayloadParseErrors .emptyField)
  /-- The other responses are to a field of another type, to an apply that failed,
      and to a watch that did. -/
  failures : count (· = .jsmResponseTotal 422) + count (· = .jsmResponseTotal 500) +
      count (· = .jsmResponseTotal 503) + count Metric.isSync =
    count (· = .jsmPayloadParseErrors .wrongType) + count Metric.isApply +
      count (· = .k8sSyncDuration (lit "SAMLGroupMapping") .transient)
  wrongTypes : count (· = .jsmPayloadParseErrors .wrongType) ≤ count (· = .jsmResponseTotal 422)
  transients : count (· = .k8sSyncDuration (lit "SAMLGroupMapping") .transient) ≤
    count (· = .jsmResponseTotal 503)

/-- Books that are balanced one by one are balanced together. -/
theorem Balanced.sum {S : Finset Nat} {n : Nat → Nat} {count : Nat → (Metric → Bool) → Nat}
    (h : ∀ i ∈ S, Balanced (n i) (count i)) :
    Balanced (∑ i ∈ S, n i) fun p => ∑ i ∈ S, count i p where
  responses := by
    simp only [← Finset.sum_add_distrib]
    exact Finset.sum_congr rfl fun i hi => (h i hi).responses
  applies := Finset.sum_congr rfl fun i hi => (h i hi).applies
  successes := by
    simp only [← Finset.sum_add_distrib]
    exact Finset.sum_congr rfl fun i hi => (h i hi).successes
  timeouts := Finset.sum_congr rfl fun i hi => (h i hi).timeouts
  badRequests := by
    simp only [← Finset.sum_add_distrib]
    exact Finset.sum_congr rfl fun i hi => (h i hi).badRequests
  failures := by
    simp only [← Finset.sum_add_distrib]
    exact Finset.sum_congr rfl fun i hi => (h i hi).failures
  wrongTypes := Finset.sum_le_sum fun i hi => (h i hi).wrongTypes
  transients := Finset.sum_le_sum fun i hi => (h i hi).transients

theorem balanced_nil : Balanced 0 fun p => ([] : List Metric).countP p := by
  constructor <;> simp

/-- The books of one answered request are balanced. -/
theorem Recorded.balanced {k : ResultKind} {n : Nat} {ms : List Metric} (h : Recorded k n ms) :
    Balanced n fun p => (ms ++ [Metric.jsmResponseTotal k.httpStatus]).countP p := by
  cases h with
  | noop => constructor <;> decide
  | rejected reason => cases reason <;> constructor <;> decide
  | unapplied hk => fin_cases hk <;> constructor <;> decide
  | synced outcome hk => fin_cases hk <;> cases outcome <;> constructor <;> decide

/-- All requests that have arrived are answered, and have made their increments. -/
def AllAnswered (s : Pool.State Telemetry Metered) : Prop :=
  ∀ i x, s.procs i = some x → x.pending = [] ∧ ∃ resp, x.exchange.served = .responded resp

/-- So are those of a request that was refused, or was never made. -/
theorem Kept.balanced {d : Dispatcher} {calls : List ApiCall} {ms : List Metric}
    {x : Option Metered} (h : Kept d calls ms x)
    (hx : ∀ y, x = some y → y.pending = [] ∧ ∃ resp, y.exchange.served = .responded resp) :
    Balanced (calls.countP ApiCall.isPatch) fun p => ms.countP p := by
  cases x with
  | none =>
    obtain ⟨rfl, rfl⟩ := h
    exact balanced_nil
  | some x =>
    obtain ⟨hp, resp, hr⟩ := hx x rfl
    have hl := h.1
    rw [hp, List.append_nil, hr] at hl
    generalize calls.countP ApiCall.isPatch = n at hl ⊢
    cases hl with
    | refused => exact balanced_nil
    | answered hr => exact hr.balanced

section

variable {hmac : HMAC} {cfg : Jsm.Config} {d : Dispatcher} {s : Pool.State Telemetry Metered}

/-- Along every run, all requests have their books in order. -/
theorem kept_reachable (hd : Serving hmac cfg d)
    (hs : (metered (Jsm.records cfg) d).machine.Reachable s) (i : Nat) :
    Kept d (s.shared.log.calls i) (s.shared.metrics.entries i) (s.procs i) :=
  ((ledger_invariant hd).reachable trivial (fun _ => ⟨rfl, rfl⟩) hs).2 i

end

/-- Whenever all requests are answered, whatever they were and in whatever order
    they and the API server went on, the counters add up: responses to tickets in
    another status, to rejected bodies and to applies are all responses, by status
    code; and every object that was sent is an apply that was counted. -/
theorem counters_reconcile (hmac : HMAC) (cfg : Jsm.Config) (e : Executor) (maxBodyBytes : Int)
    {d : Dispatcher} (hd : newDispatcher [Jsm.provider hmac cfg] e maxBodyBytes = some d)
    {s : Pool.State Telemetry Metered} (hs : (metered (Jsm.records cfg) d).machine.Reachable s)
    (hq : AllAnswered s) :
    Balanced (Journal.tally s.shared.log ApiCall.isPatch) s.shared.metrics.tally := by
  have hb := fun i => (kept_reachable (serving_of_newDispatcher hd) hs i).balanced (hq i)
  let S : Finset Nat := ((s.shared.log.map (·.1)) ++ s.shared.metrics.map (·.1)).toFinset
  have hm : ∀ p, s.shared.metrics.tally p = ∑ i ∈ S, (s.shared.metrics.entries i).countP p := by
    refine Journal.tally_eq_sum fun e he => ?_
    simp only [S, List.mem_toFinset, List.mem_append, List.mem_map]
    exact .inr ⟨e, he, rfl⟩
  have hl : Journal.tally s.shared.log ApiCall.isPatch =
      ∑ i ∈ S, (s.shared.log.calls i).countP ApiCall.isPatch := by
    refine Journal.tally_eq_sum (fun e he => ?_) _
    simp only [S, List.mem_toFinset, List.mem_append, List.mem_map]
    exact .inl ⟨e, he, rfl⟩
  rw [hl, funext hm]
  exact .sum fun i _ => hb i

/-- A delivery of the ticket of the tenant that the API server rejects, up to its
    answer, with the increments. -/
def sampleMetered : List (Pool.Label (Request × Time) MeteredStep Empty) :=
  [.start 0 (sampleRequest, .unix 0), .step 0 (.reply (.failed ⟨.forbidden, []⟩)), .step 0 .inc,
    .step 0 .inc]

theorem serving_sampleDispatcher :
    newDispatcher [Jsm.provider sampleHMAC Jsm.sampleConfig] sampleDispatcher.executor 1000 =
      some sampleDispatcher := rfl

theorem serveHTTPRecorded_sampleRequest :
    serveHTTPRecorded (Jsm.records Jsm.sampleConfig) sampleDispatcher sampleRequest (.unix 0) =
      ([], .executing (Jsm.provider sampleHMAC Jsm.sampleConfig)
        (.patch sampleAction (prepare sampleRequest.ctx sampleAction))) := by
  have hl := (serves (Jsm.records Jsm.sampleConfig) sampleDispatcher sampleRequest
    (.unix 0)).ledger (serving_of_newDispatcher serving_sampleDispatcher)
  have h2 := serveHTTPRecorded_snd (Jsm.records Jsm.sampleConfig) sampleDispatcher sampleRequest
    (.unix 0)
  rw [serveHTTP_sampleRequest] at h2
  rw [h2] at hl
  refine Prod.ext ?_ h2
  generalize (serveHTTPRecorded _ _ _ _).1 = ms at hl ⊢
  generalize List.countP _ _ = n at hl
  cases hl with
  | sending => rfl
  | waiting _ h => cases h

theorem run_sampleMetered :
    ∃ s, (metered (Jsm.records Jsm.sampleConfig) sampleDispatcher).machine.run
        (metered (Jsm.records Jsm.sampleConfig) sampleDispatcher).machine.init sampleMetered =
          some s ∧
      s.shared.metrics =
        [(0, .k8sApplyTotal (lit "SAMLGroupMapping") .error), (0, .jsmResponseTotal 500)] ∧
      AllAnswered s := by
  have hstart : (metered (Jsm.records Jsm.sampleConfig) sampleDispatcher).machine.step
      (metered (Jsm.records Jsm.sampleConfig) sampleDispatcher).machine.init
      (.start 0 (sampleRequest, .unix 0)) =
        some ⟨⟨[(0, .patch (prepare sampleRequest.ctx sampleAction) (lit "webhookd") true)], []⟩,
          Function.update (fun _ => none) 0 (some ⟨⟨sampleRequest, .unix 0,
            .executing (Jsm.provider sampleHMAC Jsm.sampleConfig)
              (.patch sampleAction (prepare sampleRequest.ctx sampleAction))⟩, []⟩)⟩ := by
    simp only [Pool.machine, metered, serveHTTPRecorded_sampleRequest]
    rfl
  refine ⟨_, Machine.run_cons_eq_some.mpr ⟨_, hstart, rfl⟩, rfl, ?_⟩
  intro i x hx
  by_cases hi : i = 0
  · subst hi
    obtain rfl := Option.some.inj hx
    exact ⟨rfl, _, rfl⟩
  · simp [Function.update_of_ne hi] at hx

theorem counters_reconcile_sampleMetered :
    ∃ s, (metered (Jsm.records Jsm.sampleConfig) sampleDispatcher).machine.Reachable s ∧
      AllAnswered s ∧ s.shared.metrics.length = 2 ∧
      Journal.tally s.shared.log ApiCall.isPatch = s.shared.metrics.tally Metric.isApply := by
  obtain ⟨s, hs, hm, ha⟩ := run_sampleMetered
  exact ⟨s, ⟨_, hs⟩, ha, by rw [hm]; rfl, (counters_reconcile sampleHMAC Jsm.sampleConfig _ 1000
    serving_sampleDispatcher ⟨_, hs⟩ ha).applies⟩

/-- The time series there are, whatever is received. -/
def series : List Metric :=
  .jsmNoopTotal ::
    ([.invalidJSON, .missingField, .emptyField, .wrongType].map Metric.jsmPayloadParseErrors ++
      [.created, .updated, .error].map (.k8sApplyTotal (lit "SAMLGroupMapping")) ++
      [.ready, .timeout, .transient].map (.k8sSyncDuration (lit "SAMLGroupMapping")) ++
      [200, 400, 422, 500, 503, 504].map .jsmResponseTotal)

/-- An answered request adds to the listed series. -/
theorem Recorded.mem_series {k : ResultKind} {n : Nat} {ms : List Metric} (h : Recorded k n ms) :
    ∀ m ∈ ms, m ∈ series := by
  cases h with
  | noop => decide
  | rejected reason => cases reason <;> decide
  | unapplied hk => decide
  | synced outcome hk => fin_cases hk <;> cases outcome <;> decide

/-- So does every request on its way. -/
theorem Ledger.mem_series {served : Served} {n : Nat} {ms : List Metric} (h : Ledger served n ms) :
    ∀ m ∈ ms, m ∈ series := by
  cases h with
  | refused | sending => simp
  | @answered prov ctx res n ms h =>
    intro m hm
    rcases List.mem_append.mp hm with hm | hm
    · exact h.mem_series m hm
    · rw [List.mem_singleton.mp hm]
      cases res.kind <;> decide
  | waiting outcome h => cases outcome <;> decide

/-- A request that has recorded something was admitted, and has recorded what there
    is to record. -/
theorem Kept.of_mem {d : Dispatcher} {calls : List ApiCall} {ms : List Metric} {m : Metric}
    {x : Option Metered} (h : Kept d calls ms x) (hm : m ∈ ms) :
    ∃ y, x = some y ∧ m ∈ series ∧ ∃ prov, Admits d y.exchange.request y.exchange.now prov := by
  cases x with
  | none =>
    obtain ⟨-, rfl⟩ := h
    cases hm
  | some x =>
    refine ⟨x, rfl, h.1.mem_series _ (List.mem_append_left _ hm), ?_⟩
    rcases h.2 with ⟨hn, -⟩ | ha
    · rw [(List.append_eq_nil_iff.mp hn).1] at hm
      cases hm
    · exact ha

/-- Before a response, none is counted. -/
theorem Recorded.filter_isResponse {k : ResultKind} {n : Nat} {ms : List Metric}
    (h : Recorded k n ms) : ms.filter Metric.isResponse = [] := by
  cases h <;> rfl

/-- A response is counted once if it is JSON. -/
theorem Ledger.filter_isResponse {resp : Response} {n : Nat} {ms : List Metric}
    (h : Ledger (.responded resp) n ms) :
    ms.filter Metric.isResponse =
      match resp.content with
      | .text _ => []
      | .json _ => [.jsmResponseTotal resp.status] := by
  cases h with
  | refused => rfl
  | answered h =>
    rw [List.filter_append, h.filter_isResponse]
    rfl

/-- Nobody can make the service keep more than seventeen time series: in every
    reachable state, whatever the requests were and whatever the API server
    answered, all that was recorded is in `series`, which does not depend on the
    configuration. -/
theorem series_bounded (hmac : HMAC) (cfg : Jsm.Config) (e : Executor) (maxBodyBytes : Int)
    {d : Dispatcher} (hd : newDispatcher [Jsm.provider hmac cfg] e maxBodyBytes = some d)
    {s : Pool.State Telemetry Metered} (hs : (metered (Jsm.records cfg) d).machine.Reachable s) :
    (∀ r ∈ s.shared.metrics, r.2 ∈ series) ∧ series.length = 17 := by
  refine ⟨?_, rfl⟩
  intro r hr
  obtain ⟨-, -, hm, -⟩ := (kept_reachable (serving_of_newDispatcher hd) hs r.1).of_mem
    (Journal.mem_entries.mpr hr)
  exact hm

theorem series_bounded_sampleMetered :
    ∃ s, (metered (Jsm.records Jsm.sampleConfig) sampleDispatcher).machine.Reachable s ∧
      s.shared.metrics ≠ [] ∧ (∀ r ∈ s.shared.metrics, r.2 ∈ series) := by
  obtain ⟨s, hs, hm, -⟩ := run_sampleMetered
  exact ⟨s, ⟨_, hs⟩, by rw [hm]; simp, (series_bounded sampleHMAC Jsm.sampleConfig _ 1000
    serving_sampleDispatcher ⟨_, hs⟩).1⟩

/-- Only requests whose signature was verified are counted; and when a request is
    answered, its response is counted once under the status code that was sent, if
    it was encoded as JSON, and not at all otherwise. -/
theorem counted_admitted (hmac : HMAC) (cfg : Jsm.Config) (e : Executor) (maxBodyBytes : Int)
    {d : Dispatcher} (hd : newDispatcher [Jsm.provider hmac cfg] e maxBodyBytes = some d)
    {s : Pool.State Telemetry Metered} (hs : (metered (Jsm.records cfg) d).machine.Reachable s) :
    (∀ i m, (i, m) ∈ s.shared.metrics → ∃ x, s.procs i = some x ∧
      Admits d x.exchange.request x.exchange.now (Jsm.provider hmac cfg)) ∧
    ∀ i x resp, s.procs i = some x → x.pending = [] → x.exchange.served = .responded resp →
      (s.shared.metrics.entries i).filter Metric.isResponse =
        match resp.content with
        | .text _ => []
        | .json _ => [.jsmResponseTotal resp.status] := by
  have hk := kept_reachable (serving_of_newDispatcher hd) hs
  constructor
  · intro i m hm
    obtain ⟨x, hx, -, prov, ha⟩ := (hk i).of_mem (Journal.mem_entries.mpr hm)
    obtain rfl := serving_of_newDispatcher hd ha.provider
    exact ⟨x, hx, ha⟩
  · intro i x resp hx hp hr
    have hki := hk i
    rw [hx] at hki
    have hl := hki.1
    rw [hp, List.append_nil, hr] at hl
    exact hl.filter_isResponse

theorem counted_admitted_sampleMetered :
    ∃ s x, (metered (Jsm.records Jsm.sampleConfig) sampleDispatcher).machine.Reachable s ∧
      s.procs 0 = some x ∧
      Admits sampleDispatcher x.exchange.request x.exchange.now
        (Jsm.provider sampleHMAC Jsm.sampleConfig) := by
  obtain ⟨s, hs, hm, -⟩ := run_sampleMetered
  obtain ⟨x, hx, ha⟩ := (counted_admitted sampleHMAC Jsm.sampleConfig _ 1000
    serving_sampleDispatcher ⟨_, hs⟩).1 0 (.jsmResponseTotal 500) (by rw [hm]; simp)
  exact ⟨s, x, ⟨_, hs⟩, hx, ha⟩

end Webhookd
