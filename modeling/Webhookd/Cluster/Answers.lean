import Webhookd.Cluster.Deployment

/-!
# The answers of the service in a cluster

What the automation rule of the tenant can rely on: that it gets an answer, and that
the answer tells what was done.

* `service_of_deployment`: seen from the requests, a run in a cluster is one of
  `service`, with the replies that the API server gives;
* `response_tells`: what the rule reads agrees with the status code, with what was
  done, and with the name and the annotations of the object that was sent;
* `answered_after_five`: every request is answered.
-/

namespace Webhookd

open Go

/-! ## The service, whatever the API server replies -/

/-- A request as `service` sees it. -/
def Job.exchange (x : Job) : Exchange := ⟨x.request, x.now, x.served⟩

/-- An execution that goes on is not done. -/
theorem Resumes.settle {e : Executor} {p p' : Phase} {r : Reply} (h : Resumes e p r p')
    (prov : Provider) (ctx : RequestContext) : settle prov ctx p = .executing prov p := by
  cases h <;> rfl

/-- Seen from the requests, a run in a cluster is one of `service`. -/
theorem service_of_deployment {d : Dispatcher} {s : Pool.State Backend Job}
    (hs : (deployment d).machine.Reachable s) :
    (service d).machine.Reachable (s.map Backend.log Job.exchange) := by
  refine Pool.reachable_simulated (p := deployment d) rfl ?_ ?_ ?_ hs
  · intro i a g x g' hst
    obtain ⟨rfl, ⟨resp, hserve, rfl⟩ | ⟨prov, act, hserve, rfl⟩⟩ := deployment_start hst
    · exact ⟨a, by simp only [service, hserve]; rfl⟩
    · exact ⟨a, by simp only [service, hserve]; rfl⟩
  · intro i x o g x' g' hst
    obtain ⟨prov, y, y', c, hy, hstep, rfl, rfl⟩ := deployment_step.mp hst
    obtain ⟨r, p, -, hp, rfl⟩ := executions_step hstep
    refine .inr ⟨r, ?_⟩
    have hserved : x.exchange.served = .executing prov y.phase := by
      simp only [Job.exchange, Job.served, hy, hp.settle]
    simp only [service, hserved, Phase.resume_eq_some.mpr hp, Option.map_some]
    rfl
  · intro e g g' hst
    obtain ⟨c, -, rfl⟩ := deployment_env.mp hst
    exact .inl rfl

/-! ## What an answer tells -/

theorem systemAnnotations_reqID (ctx : RequestContext) :
    systemAnnotations ctx annotationReqID =
      if ctx.requestID = [] then none else some ctx.requestID := by
  have ha : GoMap.ofList [(annotationApplied, ctx.appliedAt)] annotationReqID = none :=
    GoMap.ofList_of_notMem (by
      simp only [List.map_cons, List.map_nil, List.mem_singleton]
      decide)
  have ht : annotationReqID ≠ annotationTraceID := by decide
  by_cases hr : ctx.requestID = [] <;> by_cases hi : ctx.traceID = [] <;>
    simp [systemAnnotations, hr, hi, ha, GoMap.insert_of_ne _ ht]

theorem systemAnnotations_traceID (ctx : RequestContext) :
    systemAnnotations ctx annotationTraceID =
      if ctx.traceID = [] then none else some ctx.traceID := by
  have ha : GoMap.ofList [(annotationApplied, ctx.appliedAt)] annotationTraceID = none :=
    GoMap.ofList_of_notMem (by
      simp only [List.map_cons, List.map_nil, List.mem_singleton]
      decide)
  have hq : annotationTraceID ≠ annotationReqID := by decide
  by_cases hr : ctx.requestID = [] <;> by_cases hi : ctx.traceID = [] <;>
    simp [systemAnnotations, hr, hi, ha, GoMap.insert_of_ne _ hq]

/-- The provider annotates an object with the key of its ticket alone. -/
theorem annotations_prepare {cfg : Jsm.Config} {body k : GoString} {act : ApplyAction}
    (h : Jsm.handle cfg body = .ok (.apply act)) (hk : k ≠ Jsm.annotationIssue)
    (ctx : RequestContext) :
    (prepare ctx act).metadata.annotations k = systemAnnotations ctx k := by
  obtain ⟨payload, g, ro, pr, -, -, -, -, -, rfl⟩ := Jsm.handle_apply.mp h
  have hi : GoMap.ofList [(Jsm.annotationIssue, payload.issueKey)] k = none :=
    GoMap.ofList_of_notMem (by simpa using hk)
  show mergeAnnotations ∅ (GoMap.ofList [(Jsm.annotationIssue, payload.issueKey)])
    (systemAnnotations ctx) k = _
  simp [mergeAnnotations, hi]

/-- The objects of tickets have names. -/
theorem name_prepare_ne_nil {cfg : Jsm.Config} {body : GoString} {act : ApplyAction}
    (h : Jsm.handle cfg body = .ok (.apply act)) (ctx : RequestContext) :
    (prepare ctx act).name ≠ [] := by
  obtain ⟨payload, g, ro, pr, -, -, -, -, -, rfl⟩ := Jsm.handle_apply.mp h
  exact List.cons_ne_nil _ _

/-- What the rule of the tenant reads from the response to a request, and what was
    done for it. -/
structure Tells (status : Nat) (ms : GoMap Json) (calls : List ApiCall) : Prop where
  noop : ms (lit "status") = some (.str (lit "noop")) ↔ status = 200 ∧ calls = []
  success : ms (lit "status") = some (.str (lit "success")) ↔ status = 200 ∧ calls ≠ []
  failure : ms (lit "status") = some (.str (lit "failure")) ↔ status ≠ 200
  /-- What is named is the object that was sent. -/
  crName : ∀ v, ms (lit "crName") = some v ↔
    ∃ obj fieldOwner force, .patch obj fieldOwner force ∈ calls ∧ v = .str (toValidUTF8 obj.name)
  /-- The ids of the response are those that the object was annotated with. -/
  ids : ∀ obj fieldOwner force, .patch obj fieldOwner force ∈ calls →
    ms (lit "requestId") = (obj.metadata.annotations annotationReqID).map (.str ∘ toValidUTF8) ∧
      ms (lit "traceId") = (obj.metadata.annotations annotationTraceID).map (.str ∘ toValidUTF8)

theorem text_injective : Function.Injective ResponseStatus.text := by
  intro a b h
  revert h
  cases a <;> cases b <;> decide

theorem status_eq_iff (text : Reason → GoString) (b : ResponseBody) (s : ResponseStatus) :
    GoMap.ofList (members (b.fields text)) (lit "status") = some (.str s.text) ↔
      b.status = s := by
  rw [ofList_status, Option.some.injEq, Json.str.injEq, text_injective.eq_iff]

/-- The status of the body is that of the status code, and says if a call was made. -/
theorem tells_status (res : ExecResult) (traceID requestID : GoString) (calls : List ApiCall)
    (h : res.kind = .ready → calls ≠ []) (h' : res.kind = .noop → calls = []) :
    ((Jsm.build res traceID requestID).status = .noop ↔
        res.kind.httpStatus = 200 ∧ calls = []) ∧
      ((Jsm.build res traceID requestID).status = .success ↔
        res.kind.httpStatus = 200 ∧ calls ≠ []) ∧
      ((Jsm.build res traceID requestID).status = .failure ↔ res.kind.httpStatus ≠ 200) := by
  rw [Jsm.build]
  cases hk : res.kind <;> simp_all [ResultKind.httpStatus]

/-- An answer tells what was done, if the result of an execution is about the object that
    was sent. -/
theorem Answered.tells {hmac : HMAC} {cfg : Jsm.Config} {d : Dispatcher} {x : Exchange}
    {resp : Response} {calls : List ApiCall} {b : ResponseBody}
    (h : Answered hmac cfg d x resp calls) (hb : resp.content = .json b)
    (hname : ∀ {obj fieldOwner force}, .patch obj fieldOwner force ∈ calls → b.crName = obj.name)
    (text : Reason → GoString) :
    Tells resp.status (GoMap.ofList (members (b.fields text))) calls := by
  cases h with
  | refused => cases hb
  | @declined res hk hn =>
    obtain rfl := Content.json.inj hb
    obtain ⟨h₁, h₂, h₃⟩ := tells_status res x.request.ctx.traceID x.request.ctx.requestID [] (by
      intro hr
      simp [hr] at hk) (fun _ => rfl)
    refine ⟨(status_eq_iff text _ .noop).trans h₁, (status_eq_iff text _ .success).trans h₂,
      (status_eq_iff text _ .failure).trans h₃, fun v => ?_, ?_⟩
    · rw [ofList_text (s := res.crName) (by simp [ResponseBody.fields, Jsm.provider, Jsm.build]),
        hn]
      simp [optional]
    · intro obj fo force hm
      cases hm
  | @executed res act rest ha hr hrest =>
    obtain rfl := Content.json.inj hb
    obtain ⟨h₁, h₂, h₃⟩ := tells_status res x.request.ctx.traceID x.request.ctx.requestID
      (.patch (prepare x.request.ctx act) d.executor.fieldManager true :: rest)
      (fun _ => by simp) (fun h => absurd h hr.1)
    -- The first call alone sends an object.
    have hsent : ∀ {obj fo force}, .patch obj fo force ∈
        .patch (prepare x.request.ctx act) d.executor.fieldManager true :: rest →
          obj = prepare x.request.ctx act := fun hm => by
      rcases List.mem_cons.mp hm with hm | hm
      · exact (ApiCall.patch.inj hm).1
      · cases hrest _ hm
    have hcr : res.crName = (prepare x.request.ctx act).name := hname List.mem_cons_self
    refine ⟨(status_eq_iff text _ .noop).trans h₁, (status_eq_iff text _ .success).trans h₂,
      (status_eq_iff text _ .failure).trans h₃, fun v => ?_, ?_⟩
    · rw [ofList_text (s := res.crName) (by simp [ResponseBody.fields, Jsm.provider, Jsm.build]),
        hcr, optional, if_neg (name_prepare_ne_nil ha _), Option.some.injEq]
      constructor
      · rintro rfl
        exact ⟨_, _, _, List.mem_cons_self, rfl⟩
      · rintro ⟨obj, fo, force, hm, rfl⟩
        rw [hsent hm]
    · intro obj fo force hm
      rw [hsent hm, annotations_prepare ha (by decide), annotations_prepare ha (by decide),
        systemAnnotations_reqID, systemAnnotations_traceID,
        ofList_text (s := x.request.ctx.requestID) (by
          simp [ResponseBody.fields, Jsm.provider, Jsm.build]),
        ofList_text (s := x.request.ctx.traceID) (by
          simp [ResponseBody.fields, Jsm.provider, Jsm.build]), optional, optional]
      constructor <;> split_ifs <;> rfl

/-- In a cluster, the result of an execution is about the object that was sent. -/
theorem Job.Conforms.crName {hmac : HMAC} {cfg : Jsm.Config} {d : Dispatcher} {x : Job}
    {calls : List ApiCall} {resp : Response} {b : ResponseBody} (hd : Serving hmac cfg d)
    (h : x.Conforms d calls) (hr : x.served = .responded resp) (hb : resp.content = .json b)
    {obj : ClientObject} {fieldOwner : GoString} {force : Bool}
    (hm : .patch obj fieldOwner force ∈ calls) : b.crName = obj.name := by
  obtain ⟨request, now, progress⟩ := x
  cases progress with
  | refused =>
    rw [h.2] at hm
    cases hm
  | executed prov y =>
    obtain ⟨act, hserve, -, hscript⟩ := h
    obtain ⟨rfl, -⟩ := applyAction_of_serveHTTP hd hserve
    obtain ⟨res, hdone, rfl⟩ := response_of_done hr
    obtain rfl := Content.json.inj hb
    rw [hscript.eq_of_patch_mem hm]
    exact (Prod.mk.inj (hscript.key_of_done hdone)).2

/-- Along every run of the started service in a cluster, the rule of the tenant can trust
    the JSON that it reads: it says success, or that there was nothing to do, exactly when
    the status code is 200, and which of the two by whether anything was done; what it
    names is the object that was sent, and nothing if none was; and its ids are those that
    the object was annotated with. -/
theorem response_tells {hmac : HMAC} {w : Surroundings} {env : Env} {cfg : Config}
    {d : Dispatcher} (hboot : boot hmac w env = .ok (some ⟨cfg, some d⟩))
    (text : Reason → GoString) {s : Pool.State Backend Job}
    (hs : (deployment d).machine.Reachable s) {i : Nat} {x : Job} {resp : Response}
    {b : ResponseBody} (hi : s.procs i = some x) (hr : x.served = .responded resp)
    (hb : resp.content = .json b) :
    ∃ ms, parse (resp.content.bytes text) = some (.obj ms) ∧
      Tells resp.status (GoMap.ofList ms) (s.shared.log.calls i) := by
  obtain ⟨hd, -⟩ := serving_of_boot hboot
  have hx : (s.map Backend.log Job.exchange).procs i = some x.exchange := by
    simp [Pool.State.map, hi]
  have ha := answered hd (service_of_deployment hs) hx hr
  obtain ⟨tr, hrun⟩ := hs
  have hconf := (conforms_run hrun).2.2 i
  rw [hi] at hconf
  refine ⟨members (b.fields text), ?_, ha.tells hb (fun hm => ?_) text⟩
  · rw [hb]
    exact parse_encode _
  · exact Job.Conforms.crName hd hconf hr hb hm

theorem response_tells_sampleDelivered :
    ∃ s ms, (deployment sampleDispatcher).machine.Reachable s ∧
      Tells 200 ms (s.shared.log.calls 0) ∧ ms (lit "status") = some (.str (lit "success")) ∧
      ∃ v, ms (lit "crName") = some v := by
  obtain ⟨cfg, hboot, -⟩ := boot_sampleTenant
  obtain ⟨s, x, b, hs, hi, -, hr, -, hlen, -⟩ := run_sampleDelivered
  obtain ⟨ms, -, ht⟩ := response_tells hboot (fun _ => []) ⟨_, hs⟩ hi hr rfl
  have hcalls : s.shared.log.calls 0 ≠ [] := by
    intro hnil
    rw [hnil] at hlen
    cases hlen
  have hconf := (conforms_run hs).2.2 0
  rw [hi] at hconf
  refine ⟨s, _, ⟨_, hs⟩, ht, ht.success.mpr ⟨rfl, hcalls⟩, ?_⟩
  obtain ⟨request, now, progress⟩ := x
  cases progress with
  | refused => exact absurd hconf.2 hcalls
  | executed prov y =>
    obtain ⟨act, -, -, hscript⟩ := hconf
    exact ⟨_, (ht.crName _).mpr ⟨_, _, _, hscript.patch_mem, rfl⟩⟩

/-! ## Every request is answered -/

/-- How many answers an execution waits for, at most. -/
def Phase.rank : Phase → Nat
  | .patch _ _ => 5
  | .refetch _ _ => 4
  | .probe _ _ => 3
  | .establish _ _ => 2
  | .select _ _ => 1
  | .done _ => 0

/-- The same of a request. -/
def Job.rank (x : Job) : Nat :=
  match x.progress with
  | .refused _ => 0
  | .executed _ y => y.phase.rank

/-- An event of a watch, of which there can be any number. -/
def Outcome.isEvent : Outcome → Bool
  | .deliver _ | .deliverOther _ => true
  | _ => false

/-- Request `i` is answered by the API server, or its watch or its context ends. -/
def answers (i : Nat) : DeploymentLabel → Bool
  | .step j o => j = i && !o.isEvent
  | _ => false

section

variable {d : Dispatcher} {e : Executor} {g g' : Cluster} {p p' : Phase} {o : Outcome} {r : Reply}
  {i : Nat} {x : Job} {tr : List DeploymentLabel} {s : Pool.State Backend Job}

/-- Every reply takes an execution further, but for events that it skips. -/
theorem Resumes.rank (hp : Resumes e p r p') (hr : Replies g p o g' r) :
    p'.rank + (if o.isEvent then 0 else 1) ≤ p.rank := by
  cases hp with
  | eventPending => cases hr <;> simp [Phase.rank, Outcome.isEvent]
  | _ =>
    simp only [Phase.rank]
    split_ifs <;> omega

theorem Job.rank_eq_zero : x.rank = 0 ↔ ∃ resp, x.served = .responded resp := by
  obtain ⟨request, now, progress⟩ := x
  cases progress with
  | refused resp => exact ⟨fun _ => ⟨resp, rfl⟩, fun _ => rfl⟩
  | executed prov y =>
    simp only [Job.rank, Job.served]
    cases y.phase <;> simp [Phase.rank, settle]

theorem Job.rank_le_five (x : Job) : x.rank ≤ 5 := by
  obtain ⟨request, now, progress⟩ := x
  cases progress with
  | refused resp => exact Nat.zero_le 5
  | executed prov y =>
    simp only [Job.rank]
    cases y.phase <;> simp [Phase.rank]

/-- The answers that a request got, and those that it waits for, are five at most. -/
theorem countP_answers_add_rank
    (hs : (deployment d).machine.run (deployment d).machine.init tr = some s) (i : Nat) :
    tr.countP (answers i) + (s.procs i).elim 5 Job.rank ≤ 5 := by
  have hinit : ([] : List DeploymentLabel).countP (answers i) +
      ((deployment d).machine.init.procs i).elim 5 Job.rank ≤ 5 := le_rfl
  refine Machine.run_trace (P := fun ls (s : Pool.State Backend Job) =>
    ls.countP (answers i) + (s.procs i).elim 5 Job.rank ≤ 5) ?_ hinit hs
  intro ls s l s' h hst
  rw [List.countP_append, List.countP_singleton]
  cases l with
  | start j a =>
    obtain ⟨hn, y, g, -, rfl⟩ := Pool.step_start.mp hst
    simp only [answers, Bool.false_eq_true, if_false, Nat.add_zero]
    by_cases hj : i = j
    · subst hj
      rw [hn, Option.elim_none] at h
      rw [Function.update_self, Option.elim_some]
      have := y.rank_le_five
      omega
    · rwa [Function.update_of_ne hj]
  | step j o =>
    obtain ⟨q, hq, q', g, hstep, rfl⟩ := Pool.step_step.mp hst
    by_cases hj : i = j
    · subst hj
      obtain ⟨prov, y, y', c, hy, hx, rfl, rfl⟩ := deployment_step.mp hstep
      obtain ⟨r, p, hr, hp, rfl⟩ := executions_step hx
      have hrank := hp.rank hr
      have hq' : q.rank = y.phase.rank := by rw [Job.rank, hy]
      rw [hq, Option.elim_some, hq'] at h
      simp only [Function.update_self, Option.elim_some]
      have hnew : Job.rank ⟨q.request, q.now, .executed prov (y.after r p)⟩ = p.rank := rfl
      rw [hnew]
      cases hev : o.isEvent <;> simp [answers, hev] at hrank ⊢ <;> omega
    · have hne : answers i (.step j o) = false := by simp [answers, Ne.symm hj]
      simpa only [hne, Function.update_of_ne hj, Bool.false_eq_true, if_false, Nat.add_zero] using h
  | env e =>
    obtain ⟨g, -, rfl⟩ := Pool.step_env.mp hst
    exact h

/-- What an execution waits for: an answer to its call, or the end of its watch or of its
    context. -/
def Phase.Awaits (e : Executor) (p : Phase) (o : Outcome) : Prop :=
  if p.call e = none then o = .closed ∨ o = .done else o = .ok ∨ ∃ err, o = .fail err

theorem Cluster.exists_serve_get (g : Cluster) (ns name : GoString) :
    ∃ r, g.serve (.get ns name) = some (g, r) ∧
      ((∃ obj, r = .object obj) ∨ ∃ err, r = .failed err) := by
  rw [serve]
  cases g.store (ns, name) with
  | none => exact ⟨_, rfl, .inr ⟨_, rfl⟩⟩
  | some cr => exact ⟨_, rfl, .inl ⟨_, rfl⟩⟩

/-- No execution is stuck: it goes on from all that it waits for. -/
theorem executions_enabled {y : Execution} {act : ApplyAction} {cr : SAMLGroupMapping}
    {calls : List ApiCall} (hscript : Scripted e act (.samlGroupMapping cr) y.phase calls)
    (hp : ∀ res, y.phase ≠ .done res) (ho : y.phase.Awaits e o) :
    ∃ y' g', (executions e).step i y o g = some (y', g') := by
  suffices h : ∃ g' r p, g.reply e y.phase o = some (g', r) ∧ y.phase.resume e r = some p by
    obtain ⟨g', r, p, hr, hres⟩ := h
    exact ⟨_, g', executions_step_of hr hres⟩
  generalize y.phase = p at hscript hp ho
  cases hscript with
  | patch => rcases ho with rfl | ⟨err, rfl⟩ <;> exact ⟨_, _, _, rfl, rfl⟩
  | @refetch obj =>
    rcases ho with rfl | ⟨err, rfl⟩
    · obtain ⟨r, hr, ⟨obj', rfl⟩ | ⟨err, rfl⟩⟩ := g.exists_serve_get obj.namespace_ obj.name <;>
        exact ⟨g, _, _, hr, rfl⟩
    · exact ⟨_, _, _, rfl, rfl⟩
  | @probe obj =>
    rcases ho with rfl | ⟨err, rfl⟩
    · obtain ⟨r, hr, ⟨obj', rfl⟩ | ⟨err, rfl⟩⟩ := g.exists_serve_get obj.namespace_ obj.name <;>
        exact ⟨g, _, _, hr, rfl⟩
    · exact ⟨_, _, _, rfl, rfl⟩
  | establish => rcases ho with rfl | ⟨err, rfl⟩ <;> exact ⟨_, _, _, rfl, rfl⟩
  | select => rcases ho with rfl | rfl <;> exact ⟨_, _, _, rfl, rfl⟩
  | done => exact absurd rfl (hp _)

/-- A delivery whose record does not get ready in time. -/
def sampleTimeout : List DeploymentLabel :=
  [.start 0 (sampleRequest, .unix 0), .step 0 .ok, .step 0 .ok, .step 0 .ok, .step 0 .ok,
    .step 0 .done]

theorem run_sampleTimeout :
    ∃ s x, (deployment sampleDispatcher).machine.run (deployment sampleDispatcher).machine.init
        sampleTimeout = some s ∧ s.procs 0 = some x :=
  ⟨_, _, Machine.run_cons_eq_some.mpr ⟨_, Pool.step_start.mpr
    ⟨rfl, _, _, start_sampleRequest, rfl⟩, rfl⟩, rfl⟩

/-- Every request to the started service is answered. Once the API server has answered it,
    or its watch or its context has ended, five times in all, it is; until then it goes on
    from whatever answer it waits for. Events of its watch, and what others do, change
    nothing about that. -/
theorem answered_after_five {hmac : HMAC} {w : Surroundings} {env : Env} {cfg : Config}
    (hboot : boot hmac w env = .ok (some ⟨cfg, some d⟩))
    (hs : (deployment d).machine.run (deployment d).machine.init tr = some s)
    (hi : s.procs i = some x) :
    (5 ≤ tr.countP (answers i) → ∃ resp, x.served = .responded resp) ∧
    ∀ prov p, x.served = .executing prov p → ∀ o, p.Awaits d.executor o →
      ∃ s', (deployment d).machine.step s (.step i o) = some s' := by
  obtain ⟨hd, -⟩ := serving_of_boot hboot
  refine ⟨fun h5 => ?_, fun prov p hx o ho => ?_⟩
  · have hle := countP_answers_add_rank hs i
    rw [hi, Option.elim_some] at hle
    exact Job.rank_eq_zero.mp (by omega)
  · have hc := (conforms_run hs).2.2 i
    rw [hi] at hc
    obtain ⟨request, now, progress⟩ := x
    cases progress with
    | refused resp => cases hx
    | executed prov' y =>
      obtain ⟨act, hserve, -, hscript⟩ := hc
      obtain ⟨-, key, group, ro, pr, rfl⟩ := applyAction_of_serveHTTP hd hserve
      have hph : y.phase = p ∧ ∀ res, y.phase ≠ .done res := by
        simp only [Job.served] at hx
        cases hp : y.phase with
        | done res =>
          rw [hp] at hx
          cases hx
        | _ =>
          rw [hp] at hx
          exact ⟨(Served.executing.inj hx).2, by simp⟩
      obtain ⟨y', c, hstep⟩ := executions_enabled (g := s.shared.cluster) (i := i) hscript hph.2
        (hph.1 ▸ ho)
      exact ⟨_, Pool.step_step.mpr ⟨_, hi, _, _,
        deployment_step.mpr ⟨prov', y, y', c, rfl, hstep, rfl, rfl⟩, rfl⟩⟩

theorem answered_after_five_sampleTimeout :
    ∃ s x, (deployment sampleDispatcher).machine.run
        (deployment sampleDispatcher).machine.init sampleTimeout = some s ∧
      s.procs 0 = some x ∧ ∃ resp, x.served = .responded resp := by
  obtain ⟨cfg, hboot, -⟩ := boot_sampleTenant
  obtain ⟨s, x, hs, hi⟩ := run_sampleTimeout
  exact ⟨s, x, hs, hi, (answered_after_five hboot hs hi).1 (by decide)⟩

end

end Webhookd
