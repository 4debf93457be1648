import Webhookd.Boot
import Webhookd.Cluster.Success
import Webhookd.Cluster.Versions
import Webhookd.Wire

/-!
# The service in a cluster

The service, as it was started, against one API server: requests are served in any
interleaving with each other, the operator and other clients. A request is served
as in `service`, its execution goes on as in `executions`, and the calls are logged.

* `executions_of_deployment`: seen from the API server, a run of the service is one
  of executions, and keeps their invariants;
* `Scripted` is what a request does, call by call, if the server answers a call for
  the record that it was asked for, as it does (`conforms_invariant`).

The results go from the environment of the process to the records:
`calls_confined`, `records_authorised`, `success_confirmed`.
-/

namespace Webhookd

open Go

/-! ## Requests in a cluster -/

/-- How far a request is: answered at once, or in an execution for its provider. -/
inductive Progress
  | refused (resp : Response)
  | executed (prov : Provider) (y : Execution)

/-- A request that has arrived, when it was verified, and how far it is. -/
structure Job where
  request : Request
  now : Time
  progress : Progress

namespace Job

/-- The request, as it is begun by `ServeHTTP`. -/
def new (r : Request) (now : Time) : Served → Option Job
  | .responded resp => some ⟨r, now, .refused resp⟩
  | .executing prov (.patch act _) => some ⟨r, now, .executed prov (.new r.ctx act)⟩
  -- An execution begins with its Patch.
  | .executing _ _ => none

/-- How far a request is, as `service` sees it. -/
def served (x : Job) : Served :=
  match x.progress with
  | .refused resp => .responded resp
  | .executed prov y => settle prov x.request.ctx y.phase

/-- The execution of a request, as `executions` sees it. -/
def execution (x : Job) : Option Execution :=
  match x.progress with
  | .refused _ => none
  | .executed _ y => some y

end Job

/-- The API server, and the calls it got. -/
structure Backend where
  cluster : Cluster
  log : Log

/-- The requests that are served in a cluster. -/
def deployment (d : Dispatcher) :
    Pool Backend Job (Request × Time) Outcome Disturbance where
  init := ⟨.empty, []⟩
  start i a g :=
    (Job.new a.1 a.2 (serveHTTP d a.1 a.2)).map fun x =>
      (x, { g with log := g.log.record i (x.served.call d.executor) })
  step i x o g :=
    match x.progress with
    | .refused _ => none
    | .executed prov y =>
      ((executions d.executor).step i y o g.cluster).map fun (y', cluster) =>
        let x' : Job := { x with progress := .executed prov y' }
        (x', ⟨cluster, g.log.record i (x'.served.call d.executor)⟩)
  env e g := ((executions d.executor).env e g.cluster).map fun cluster => { g with cluster }

/-- Who takes a step of the service in a cluster, and which. -/
abbrev DeploymentLabel := Pool.Label (Request × Time) Outcome Disturbance

section

variable {d : Dispatcher} {i : Nat} {a : Request × Time} {x x' : Job} {o : Outcome}
  {g g' : Backend}

/-- A request is answered at once, or begins with the Patch of its action. -/
theorem deployment_start (h : (deployment d).start i a g = some (x, g')) :
    g' = ⟨g.cluster, g.log.record i (x.served.call d.executor)⟩ ∧
    ((∃ resp, serveHTTP d a.1 a.2 = .responded resp ∧ x = ⟨a.1, a.2, .refused resp⟩) ∨
      ∃ prov act, serveHTTP d a.1 a.2 = .executing prov (.patch act (prepare a.1.ctx act)) ∧
        x = ⟨a.1, a.2, .executed prov (.new a.1.ctx act)⟩) := by
  obtain ⟨y, hy, h⟩ := Option.map_eq_some_iff.mp h
  obtain ⟨rfl, rfl⟩ := Prod.mk.inj h
  refine ⟨rfl, ?_⟩
  cases hs : serveHTTP d a.1 a.2 with
  | responded resp =>
    rw [hs] at hy
    exact .inl ⟨resp, rfl, (Option.some.inj hy).symm⟩
  | executing prov p =>
    obtain ⟨-, -, -, -, act, -, rfl⟩ := serveHTTP_executing hs
    rw [hs] at hy
    exact .inr ⟨prov, act, rfl, (Option.some.inj hy).symm⟩

/-- A step of a request is one of its execution. -/
theorem deployment_step :
    (deployment d).step i x o g = some (x', g') ↔
      ∃ prov y y' c, x.progress = .executed prov y ∧
        (executions d.executor).step i y o g.cluster = some (y', c) ∧
        x' = ⟨x.request, x.now, .executed prov y'⟩ ∧
        g' = ⟨c, g.log.record i ((settle prov x.request.ctx y'.phase).call d.executor)⟩ := by
  obtain ⟨request, now, progress⟩ := x
  cases progress with
  | refused resp => simp [deployment]
  | executed prov y =>
    simp only [deployment, Option.map_eq_some_iff, Prod.exists, Prod.mk.injEq,
      Progress.executed.injEq, @eq_comm _ _ x', @eq_comm _ _ g']
    constructor
    · rintro ⟨y', c, h, rfl, rfl⟩
      exact ⟨prov, y, y', c, ⟨rfl, rfl⟩, h, rfl, rfl⟩
    · rintro ⟨_, _, y', c, ⟨rfl, rfl⟩, h, rfl, rfl⟩
      exact ⟨y', c, h, rfl, rfl⟩

theorem deployment_env {e : Disturbance} :
    (deployment d).env e g = some g' ↔
      ∃ c, (executions d.executor).env e g.cluster = some c ∧ g' = ⟨c, g.log⟩ := by
  simp [deployment, @eq_comm _ _ g']

end

/-! ## What a request does -/

/-- The calls of an execution that nothing cuts short. -/
def script (e : Executor) (act : ApplyAction) (obj : ClientObject) : List ApiCall :=
  [.patch obj e.fieldManager true, .get obj.namespace_ obj.name, .get obj.namespace_ obj.name,
    .watch act.listObject obj.namespace_]

/-- Where an execution is, and the calls it has made: it follows the script, what it has in
    hand is the record that it sent, and so is what it returns about. -/
inductive Scripted (e : Executor) (act : ApplyAction) (obj : ClientObject) :
    Phase → List ApiCall → Prop
  | patch : Scripted e act obj (.patch act obj) ((script e act obj).take 1)
  | refetch {o} (h : o.key = obj.key) :
      Scripted e act obj (.refetch act o) ((script e act obj).take 2)
  | probe {o} (h : o.key = obj.key) : Scripted e act obj (.probe act o) ((script e act obj).take 3)
  | establish {o} (h : o.key = obj.key) :
      Scripted e act obj (.establish act o) ((script e act obj).take 4)
  | select {o} (h : o.key = obj.key) :
      Scripted e act obj (.select act o) ((script e act obj).take 4)
  | done {res n} (h : (res.namespace_, res.crName) = obj.key) :
      Scripted e act obj (.done res) ((script e act obj).take (n + 1))

theorem classifyK8sErr_key (err : K8sError) (namespace_ name : GoString) :
    ((classifyK8sErr err namespace_ name).namespace_,
      (classifyK8sErr err namespace_ name).crName) = (namespace_, name) := by
  rw [classifyK8sErr]
  cases err.reason <;> rfl

section

variable {e : Executor} {act : ApplyAction} {obj : ClientObject} {g g' : Cluster} {p p' : Phase}
  {o : Outcome} {r : Reply} {calls : List ApiCall}

/-- A Patch is answered with the record that was sent. -/
theorem Replies.key_patch {obj' : ClientObject} (hw : g.Wf)
    (h : Replies g (.patch act obj) o g' (.object obj')) : obj'.key = obj.key := by
  cases h with
  | patched => exact g.applied_key hw _

/-- A Get is answered with the record that was asked for. -/
theorem Replies.key_refetch {obj' : ClientObject} (hw : g.Wf)
    (h : Replies g (.refetch act obj) o g' (.object obj')) : obj'.key = obj.key := by
  cases h with
  | refetched h => exact hw.key_eq h

/-- An execution that goes on makes the next call of the script. -/
theorem Scripted.resume (h : Scripted e act obj p calls) (hw : g.Wf) (hr : Replies g p o g' r)
    (hp : Resumes e p r p') : Scripted e act obj p' (calls ++ (p'.call e).toList) := by
  cases h with
  | patch =>
    cases hp with
    | patched =>
      have hk := hr.key_patch hw
      obtain ⟨hns, hn⟩ := Prod.mk.inj hk
      rw [Phase.call, hns, hn]
      exact .refetch hk
    | patchFailed =>
      rw [Phase.call, Option.toList_none, List.append_nil]
      exact .done (classifyK8sErr_key _ _ _)
  | refetch h =>
    cases hp with
    | refetched =>
      have hk := (hr.key_refetch hw).trans h
      obtain ⟨hns, hn⟩ := Prod.mk.inj hk
      rw [Phase.call, hns, hn]
      exact .probe hk
    | refetchFailed =>
      rw [Phase.call, Option.toList_none, List.append_nil]
      exact .done ((classifyK8sErr_key _ _ _).trans h)
  | probe h =>
    obtain ⟨hns, -⟩ := Prod.mk.inj h
    cases hp with
    | probedReady =>
      rw [Phase.call, Option.toList_none, List.append_nil]
      exact .done h
    | probedPending =>
      rw [Phase.call, hns]
      exact .establish h
    | probeFailed =>
      rw [Phase.call, hns]
      exact .establish h
  | establish h =>
    cases hp with
    | watching =>
      rw [Phase.call, Option.toList_none, List.append_nil]
      exact .select h
    | watchFailed =>
      rw [Phase.call, Option.toList_none, List.append_nil]
      exact .done h
  | select h =>
    cases hp with
    | eventPending =>
      rw [Phase.call, Option.toList_none, List.append_nil]
      exact .select h
    | _ =>
      rw [Phase.call, Option.toList_none, List.append_nil]
      exact .done h
  | done h => cases hp

theorem Scripted.isPrefix (h : Scripted e act obj p calls) : calls <+: script e act obj := by
  cases h <;> exact List.take_prefix _ _

theorem Scripted.patch_mem (h : Scripted e act obj p calls) :
    .patch obj e.fieldManager true ∈ calls := by
  cases h <;> simp [script]

/-- No other object is sent. -/
theorem Scripted.eq_of_patch_mem {obj' : ClientObject} {fieldOwner : GoString} {force : Bool}
    (h : Scripted e act obj p calls) (hm : .patch obj' fieldOwner force ∈ calls) : obj' = obj := by
  have hm := h.isPrefix.subset hm
  simp only [script, List.mem_cons, List.not_mem_nil, or_false, reduceCtorEq] at hm
  exact (ApiCall.patch.inj hm).1

theorem Scripted.key_of_done {res : ExecResult} (h : Scripted e act obj p calls)
    (hp : p = .done res) : (res.namespace_, res.crName) = obj.key := by
  cases h with
  | done h => exact Phase.done.inj hp ▸ h
  | _ => cases hp

theorem Scripted.eq_of_patch {act' : ApplyAction} {obj' : ClientObject}
    (h : Scripted e act obj (.patch act' obj') calls) : obj' = obj := by
  cases h
  rfl

end

/-- An answer makes no call. -/
theorem call_settle (e : Executor) (prov : Provider) (ctx : RequestContext) (p : Phase) :
    (settle prov ctx p).call e = p.call e := by
  cases p <;> rfl

/-- A request was answered at once and has made no call, or follows the script of its
    action. -/
def Job.Conforms (d : Dispatcher) (x : Job) (calls : List ApiCall) : Prop :=
  match x.progress with
  | .refused resp => serveHTTP d x.request x.now = .responded resp ∧ calls = []
  | .executed prov y => ∃ act,
    serveHTTP d x.request x.now = .executing prov (.patch act (prepare x.request.ctx act)) ∧
    y.sent = prepare x.request.ctx act ∧
    Scripted d.executor act (prepare x.request.ctx act) y.phase calls

/-- The same of one that may not have arrived. -/
def ConformsAt (d : Dispatcher) : Option Job → List ApiCall → Prop
  | none, calls => calls = []
  | some x, calls => x.Conforms d calls

/-- The record was sent by a request, or applied by another client. -/
def Wrote (tr : List DeploymentLabel) (log : Log) (cr : SAMLGroupMapping) : Prop :=
  (∃ i fieldOwner force, (i, .patch (.samlGroupMapping cr) fieldOwner force) ∈ log) ∨
    .env (.apply cr) ∈ tr

theorem Wrote.record {tr : List DeploymentLabel} {log : Log} {cr : SAMLGroupMapping}
    (h : Wrote tr log cr) (i : Nat) (c : Option ApiCall) : Wrote tr (log.record i c) cr := by
  rcases h with ⟨j, fo, force, hm⟩ | h
  · exact .inl ⟨j, fo, force, List.mem_append_left _ hm⟩
  · exact .inr h

/-- Along a run, every request conforms, and every spec was written by a request or another
    client. -/
theorem conforms_invariant (d : Dispatcher) (tr : List DeploymentLabel) :
    (deployment d).Invariant (· ∈ tr)
      (fun g => g.cluster.Wf ∧ g.cluster.WrittenBy (Wrote tr g.log))
      (fun i x g => ConformsAt d x (g.log.calls i))
      (fun j g g' => ∀ i, some i ≠ j → g'.log.calls i = g.log.calls i) where
  start {i a g x g'} _ hI hP hs := by
    obtain ⟨rfl, hx⟩ := deployment_start hs
    refine ⟨⟨hI.1, hI.2.mono fun h => h.record i _⟩, ?_,
      fun j hj => Log.calls_record_of_ne _ (fun e => hj (congrArg some e)) _⟩
    have hnil : g.log.calls i = [] := hP
    show x.Conforms d _
    rw [Log.calls_record_self, hnil, List.nil_append]
    rcases hx with ⟨resp, hserve, rfl⟩ | ⟨prov, act, hserve, rfl⟩
    · exact ⟨hserve, rfl⟩
    · exact ⟨act, hserve, rfl, .patch⟩
  step {i o g x x' g'} _ hI hP hs := by
    obtain ⟨prov, y, y', c, hy, hstep, rfl, rfl⟩ := deployment_step.mp hs
    obtain ⟨r, p, hr, hp, rfl⟩ := executions_step hstep
    have hx : x.Conforms d (g.log.calls i) := hP
    rw [Job.Conforms, hy] at hx
    obtain ⟨act, hserve, hsent, hscript⟩ := hx
    refine ⟨⟨?_, ?_⟩, ?_, fun j hj => Log.calls_record_of_ne _ (fun e => hj (congrArg some e)) _⟩
    · rcases hr.cluster with rfl | ⟨cr, rfl⟩
      · exact hI.1
      · exact hI.1.apply cr
    · refine Cluster.WrittenBy.mono (W := Wrote tr g.log) ?_ fun h => h.record i _
      rcases hr.cluster_of_patch with rfl | ⟨act', cr, hph, rfl⟩
      · exact hI.2
      · rw [hph] at hscript
        refine hI.2.apply hI.1 (.inl ⟨i, d.executor.fieldManager, true, ?_⟩)
        rw [hscript.eq_of_patch]
        exact Log.mem_calls.mp hscript.patch_mem
    · have hnext := hscript.resume hI.1 hr hp
      show ∃ act, _
      rw [Log.calls_record_self]
      rw [call_settle]
      exact ⟨act, hserve, hsent, hnext⟩
  env {e g g'} hG hI hs := by
    obtain ⟨c, hc, rfl⟩ := deployment_env.mp hs
    refine ⟨?_, fun _ _ => rfl⟩
    cases e with
    | setStatus k st => exact ⟨hI.1.setStatus hc, hI.2.setStatus hI.1 hc⟩
    | apply cr =>
      obtain rfl := Option.some.inj hc
      exact ⟨hI.1.apply cr, hI.2.apply hI.1 (.inr hG)⟩
    | delete k => exact ⟨hI.1.delete hc, hI.2.delete hI.1 hc⟩
  stable {i j x g g'} hij _ hP hr := by
    rwa [hr i hij]

/-- What holds after a run of the service. -/
theorem conforms_run {d : Dispatcher} {tr : List DeploymentLabel} {s : Pool.State Backend Job}
    (hs : (deployment d).machine.run (deployment d).machine.init tr = some s) :
    s.shared.cluster.Wf ∧ s.shared.cluster.WrittenBy (Wrote tr s.shared.log) ∧
      ∀ i, ConformsAt d (s.procs i) (s.shared.log.calls i) := by
  have h := (conforms_invariant d tr).run (fun _ => id)
    (Pool.holds_init (p := deployment d) ⟨Cluster.wf_empty, fun _ h => nomatch h⟩ fun _ => rfl) hs
  exact ⟨h.1.1, h.1.2, h.2⟩

/-! ## The service that was started -/

section

variable {hmac : HMAC} {cfg : Jsm.Config} {d : Dispatcher} {r : Request} {now : Time}
  {prov : Provider} {act : ApplyAction} {obj : ClientObject}

/-- The actions that are executed are those of tickets. -/
theorem applyAction_of_serveHTTP (hd : Serving hmac cfg d)
    (h : serveHTTP d r now = .executing prov (.patch act obj)) :
    prov = Jsm.provider hmac cfg ∧ ∃ key g ro pr, act = Jsm.applyAction cfg key g ro pr := by
  obtain ⟨hprov, -, -, -, act', ha, hp⟩ := serveHTTP_executing h
  obtain ⟨rfl, -⟩ := Phase.patch.inj hp
  obtain rfl := hd hprov
  obtain ⟨payload, g, ro, pr, -, -, -, -, -, rfl⟩ := Jsm.handle_apply.mp ha
  exact ⟨rfl, payload.issueKey, g, ro, pr, rfl⟩

/-- The object that is sent is authorised. -/
theorem authorised_prepare (hd : Serving hmac cfg d)
    (h : serveHTTP d r now = .executing prov (.patch act (prepare r.ctx act))) :
    Authorised hmac cfg d.maxBodyBytes r (prepare r.ctx act) := by
  obtain ⟨obj, hcall, ha⟩ := authorised_of_serveHTTP hd h
  obtain ⟨rfl, -, -⟩ := ApiCall.patch.inj (Option.some.inj hcall)
  exact ha

/-- Seen from the API server, the service takes a run of executions that wait for
    `IsReady`, and deletes nothing. -/
theorem executions_of_deployment (hd : Serving hmac cfg d) {D : Key → Prop}
    {tr : List DeploymentLabel} {s : Pool.State Backend Job}
    (htr : ∀ k, D k → .env (.delete k) ∉ tr)
    (hs : (deployment d).machine.run (deployment d).machine.init tr = some s) :
    ∃ ls, (∀ l ∈ ls, Undeleted D l) ∧
      (executions d.executor).machine.run (executions d.executor).machine.init ls =
        some (s.filterMap Backend.cluster Job.execution) := by
  refine Pool.run_simulated (p := deployment d)
    (G := fun l => ∀ k, l = .env (.delete k) → ¬D k) rfl ?_ ?_ ?_ ?_ hs
  · intro i a g x g' _ hst
    obtain ⟨rfl, ⟨resp, -, rfl⟩ | ⟨prov, act, hserve, rfl⟩⟩ := deployment_start hst
    · exact .inl ⟨rfl, rfl⟩
    · have hready : act.readyCheck = Jsm.isReady := by
        obtain ⟨-, key, group, ro, pr, rfl⟩ := applyAction_of_serveHTTP hd hserve
        rfl
      exact .inr ⟨(a.1.ctx, act), _, hready, rfl, rfl⟩
  · intro i x o g x' g' _ hst
    obtain ⟨prov, y, y', c, hy, hstep, rfl, rfl⟩ := deployment_step.mp hst
    exact .inr ⟨o, y, y', trivial, by rw [Job.execution, hy], rfl, hstep⟩
  · intro e g g' hG hst
    obtain ⟨c, hc, rfl⟩ := deployment_env.mp hst
    refine .inr ⟨e, ?_, hc⟩
    cases e with
    | delete k => exact hG k rfl
    | _ => trivial
  · rintro l hl k rfl hD
    exact htr k hD hl

end

theorem serving_of_boot {hmac : HMAC} {w : Surroundings} {env : Env} {cfg : Config}
    {d : Dispatcher} (hboot : boot hmac w env = .ok (some ⟨cfg, some d⟩)) :
    Serving hmac (.ofConfig cfg) d ∧ d.maxBodyBytes = cfg.maxBodyBytes := by
  obtain ⟨-, -, -, -, rfl⟩ := boot_eq_enabled.mp hboot
  refine ⟨fun h => ?_, rfl⟩
  exact (Prod.mk.inj (List.mem_singleton.mp (GoMap.mem_of_ofList h))).2

/-- A delivery of the tenant's ticket that finds its record ready. -/
def sampleDelivered : List DeploymentLabel :=
  [.start 0 (sampleRequest, .unix 0), .step 0 .ok, .step 0 .ok,
    .env (.setStatus sampleKey sampleReady), .step 0 .ok]

theorem start_sampleRequest :
    (deployment sampleDispatcher).start 0 (sampleRequest, .unix 0) ⟨.empty, []⟩ =
      some (⟨sampleRequest, .unix 0, .executed (Jsm.provider sampleHMAC Jsm.sampleConfig)
        (.new sampleRequest.ctx sampleAction)⟩, ⟨.empty, Log.record [] 0
        (some (.patch (prepare sampleRequest.ctx sampleAction) (lit "webhookd") true))⟩) := by
  simp only [deployment, serveHTTP_sampleRequest]
  rfl

theorem run_sampleDelivered :
    ∃ s x b, (deployment sampleDispatcher).machine.run (deployment sampleDispatcher).machine.init
        sampleDelivered = some s ∧ s.procs 0 = some x ∧ x.request = sampleRequest ∧
      x.served = .responded ⟨200, .json b⟩ ∧ b.status = .success ∧
      (s.shared.log.calls 0).length = 3 ∧ s.shared.cluster.store sampleKey ≠ none :=
  ⟨_, _, _, Machine.run_cons_eq_some.mpr ⟨_, Pool.step_start.mpr
    ⟨rfl, _, _, start_sampleRequest, rfl⟩, rfl⟩, rfl, rfl, rfl, rfl, rfl, nofun⟩

section

variable {hmac : HMAC} {w : Surroundings} {env : Env} {cfg : Config} {d : Dispatcher}
  {tr : List DeploymentLabel} {s : Pool.State Backend Job} {i : Nat} {x : Job} {resp : Response}

/-- A request that was executed is answered with the result. -/
theorem response_of_done {prov : Provider} {y : Execution} {ctx : RequestContext}
    (h : settle prov ctx y.phase = .responded resp) :
    ∃ res, y.phase = .done res ∧ resp = writeResponse prov ctx res := by
  cases hp : y.phase with
  | done res =>
    rw [hp] at h
    exact ⟨res, rfl, (Served.responded.inj h).symm⟩
  | _ =>
    rw [hp] at h
    cases h

theorem Jsm.build_success_iff {res : ExecResult} {traceID requestID : GoString} :
    (Jsm.build res traceID requestID).status = .success ↔ res.kind = .ready := by
  rw [Jsm.build]
  cases res.kind <;> simp

/-- What is answered without a call is no success. -/
theorem Answered.status_ne_success {cfg : Jsm.Config} {x : Exchange} {calls : List ApiCall}
    {b : ResponseBody} (h : Answered hmac cfg d x resp calls) (hc : calls = [])
    (hb : resp.content = .json b) : b.status ≠ .success := by
  cases h with
  | refused => cases hb
  | declined hk =>
    obtain rfl := Content.json.inj hb
    intro hs
    rw [Jsm.build_success_iff.mp hs] at hk
    simp at hk
  | executed => cases hc

/-- What a request can make the started service do in the cluster, whatever else happens.
    It is answered without a call; or it authorises one object, and the calls for it are
    the first of four: an apply of that object, two reads of it, and a watch of its
    namespace, which is the configured one. The answer is then about that object. -/
theorem calls_confined (hboot : boot hmac w env = .ok (some ⟨cfg, some d⟩))
    (hs : (deployment d).machine.Reachable s) (hi : s.procs i = some x) :
    (s.shared.log.calls i = [] ∧ ∃ resp, x.served = .responded resp) ∨
    ∃ obj, Authorised hmac (.ofConfig cfg) cfg.maxBodyBytes x.request obj ∧
      s.shared.log.calls i ≠ [] ∧
      s.shared.log.calls i <+:
        [.patch obj d.executor.fieldManager true, .get cfg.cr.namespace_ obj.name,
          .get cfg.cr.namespace_ obj.name,
          .watch (lit "SAMLGroupMappingList") cfg.cr.namespace_] ∧
      ∀ resp, x.served = .responded resp → ∃ b, resp.content = .json b ∧
        b.namespace_ = cfg.cr.namespace_ ∧ b.crName = obj.name := by
  obtain ⟨hd, hmax⟩ := serving_of_boot hboot
  obtain ⟨tr, hs⟩ := hs
  have hx := (conforms_run hs).2.2 i
  rw [hi] at hx
  obtain ⟨request, now, progress⟩ := x
  cases progress with
  | refused resp => exact .inl ⟨hx.2, resp, rfl⟩
  | executed prov y =>
    obtain ⟨act, hserve, -, hscript⟩ := hx
    have hauth := authorised_prepare hd hserve
    obtain ⟨rfl, key, g, ro, pr, rfl⟩ := applyAction_of_serveHTTP hd hserve
    refine .inr ⟨_, hmax ▸ hauth, List.ne_nil_of_mem hscript.patch_mem, hscript.isPrefix, ?_⟩
    intro resp hresp
    obtain ⟨res, hdone, rfl⟩ := response_of_done hresp
    exact ⟨_, rfl, Prod.mk.inj (hscript.key_of_done hdone)⟩

theorem calls_confined_sampleDelivered :
    ∃ s x, (deployment sampleDispatcher).machine.Reachable s ∧ s.procs 0 = some x ∧
      x.request = sampleRequest ∧ (s.shared.log.calls 0).length = 3 ∧
      ∃ obj, s.shared.log.calls 0 <+:
        [.patch obj (lit "webhookd") true, .get (lit "wiz") obj.name, .get (lit "wiz") obj.name,
          .watch (lit "SAMLGroupMappingList") (lit "wiz")] := by
  obtain ⟨cfg, hboot, hns⟩ := boot_sampleTenant
  obtain ⟨s, x, b, hs, hi, hreq, -, -, hlen, -⟩ := run_sampleDelivered
  refine ⟨s, x, ⟨_, hs⟩, hi, hreq, hlen, ?_⟩
  rcases calls_confined hboot ⟨_, hs⟩ hi with ⟨hnil, -⟩ | ⟨obj, -, -, hcalls, -⟩
  · rw [hnil] at hlen
    cases hlen
  · rw [hns] at hcalls
    exact ⟨obj, hcalls⟩

/-- Every record that is or ever was in the cluster of the started service has the spec
    that a signed ticket in the trigger status determines, at the key of that ticket, or
    was written by another client. -/
theorem records_authorised (hboot : boot hmac w env = .ok (some ⟨cfg, some d⟩))
    (hs : (deployment d).machine.run (deployment d).machine.init tr = some s) :
    (∀ k cr, s.shared.cluster.store k = some cr →
      cr.key = k ∧ ∃ t, (t, cr) ∈ s.shared.cluster.history) ∧
    ∀ t cr, (t, cr) ∈ s.shared.cluster.history →
      (∃ i x obj, s.procs i = some x ∧
        Authorised hmac (.ofConfig cfg) cfg.maxBodyBytes x.request (.samlGroupMapping obj) ∧
        obj.key = cr.key ∧ obj.spec = cr.spec) ∨
      ∃ cr', .env (.apply cr') ∈ tr ∧ cr'.key = cr.key ∧ cr'.spec = cr.spec := by
  obtain ⟨hd, hmax⟩ := serving_of_boot hboot
  obtain ⟨hw, hby, hconf⟩ := conforms_run hs
  refine ⟨fun k cr h => ⟨hw.key_eq h, hw.mem_history h⟩, fun t cr hm => ?_⟩
  obtain ⟨obj, ⟨i, fo, force, hsent⟩ | henv, hk, hspec⟩ := hby _ hm
  · refine .inl ?_
    have hx := hconf i
    have hmem := Log.mem_calls.mpr hsent
    cases hi : s.procs i with
    | none =>
      rw [hi] at hx
      rw [show s.shared.log.calls i = [] from hx] at hmem
      cases hmem
    | some x =>
      rw [hi] at hx
      obtain ⟨request, now, progress⟩ := x
      cases progress with
      | refused resp =>
        rw [hx.2] at hmem
        cases hmem
      | executed prov y =>
        obtain ⟨act, hserve, -, hscript⟩ := hx
        refine ⟨i, _, obj, hi, ?_, hk, hspec⟩
        rw [hscript.eq_of_patch_mem hmem, ← hmax]
        exact authorised_prepare hd hserve
  · exact .inr ⟨obj, henv, hk, hspec⟩

theorem records_authorised_sampleDelivered :
    ∃ cfg s cr, (deployment sampleDispatcher).machine.run
        (deployment sampleDispatcher).machine.init sampleDelivered = some s ∧
      s.shared.cluster.store sampleKey = some cr ∧
      ∃ i x obj, s.procs i = some x ∧
        Authorised sampleHMAC (.ofConfig cfg) cfg.maxBodyBytes x.request
          (.samlGroupMapping obj) ∧ obj.key = cr.key ∧ obj.spec = cr.spec := by
  obtain ⟨cfg, hboot, -⟩ := boot_sampleTenant
  obtain ⟨s, x, b, hs, -, -, -, -, -, hst⟩ := run_sampleDelivered
  obtain ⟨cr, hcr⟩ := Option.ne_none_iff_exists'.mp hst
  obtain ⟨hstore, hrecords⟩ := records_authorised hboot hs
  obtain ⟨-, t, hm⟩ := hstore _ _ hcr
  -- Nobody else applies anything in this run.
  rcases hrecords t cr hm with h | ⟨cr', hmem, -⟩
  · exact ⟨cfg, s, cr, hs, hcr, h⟩
  · simp [sampleDelivered] at hmem

/-- A success that the started service reports is one. If nobody deletes the record that the
    answer names, the request authorises an object with that name; its Patch left the
    record of that object with its spec; and what the execution looked at last is that
    record, and no other one, ready for the generation of the Patch or a later one. If the
    generation is still the same, what is ready is the spec of the ticket. -/
theorem success_confirmed (hboot : boot hmac w env = .ok (some ⟨cfg, some d⟩))
    (hs : (deployment d).machine.run (deployment d).machine.init tr = some s)
    (hi : s.procs i = some x) (hr : x.served = .responded resp) {b : ResponseBody}
    (hb : resp.content = .json b) (hok : b.status = .success)
    (htr : .env (.delete (cfg.cr.namespace_, b.crName)) ∉ tr) :
    ∃ obj y t cr t' st,
      Authorised hmac (.ofConfig cfg) cfg.maxBodyBytes x.request (.samlGroupMapping obj) ∧
      obj.key = (cfg.cr.namespace_, b.crName) ∧ x.execution = some y ∧ y.patched = some cr ∧
      (t, cr) ∈ s.shared.cluster.history ∧ cr.key = obj.key ∧ cr.spec = obj.spec ∧
      (∃ obs, y.observed = some obs ∧ obs.record = st) ∧
      (t', st) ∈ s.shared.cluster.history ∧ st.key = obj.key ∧
      st.metadata.uid = cr.metadata.uid ∧
      (∃ c ∈ st.status.conditions, c.type = lit "Ready" ∧ c.status = .true) ∧
      cr.metadata.generation ≤ st.status.observedGeneration ∧
      st.status.observedGeneration ≤ st.metadata.generation ∧
      (st.metadata.generation = cr.metadata.generation → st.spec = obj.spec) := by
  obtain ⟨hd, hmax⟩ := serving_of_boot hboot
  have hx := (conforms_run hs).2.2 i
  rw [hi] at hx
  obtain ⟨request, now, progress⟩ := x
  cases progress with
  | refused resp' =>
    obtain rfl := Served.responded.inj hr
    have ha := answered_at_once (x := ⟨request, now, .responded resp'⟩) hd hx.1
    exact absurd hok (ha.status_ne_success rfl hb)
  | executed prov y =>
    obtain ⟨act, hserve, hsent, hscript⟩ := hx
    have hauth := authorised_prepare hd hserve
    obtain ⟨rfl, key, group, ro, pr, rfl⟩ := applyAction_of_serveHTTP hd hserve
    obtain ⟨res, hdone, rfl⟩ := response_of_done hr
    obtain rfl := Content.json.inj hb
    have hkey := hscript.key_of_done hdone
    have hname := (Prod.mk.inj hkey).2
    -- The execution knows the record, as nobody deletes it.
    obtain ⟨ls, hG, hrun⟩ := executions_of_deployment (D := (· = y.sent.key)) hd (by
      rintro k rfl
      rw [hsent, ← hkey, (Prod.mk.inj hkey).1]
      exact htr) hs
    have hproc : (s.filterMap Backend.cluster Job.execution).procs i = some y := by
      simp [Pool.State.filterMap, hi, Job.execution]
    obtain ⟨hw, htracks⟩ := tracks_run hG hrun
    have ht := htracks i y hproc rfl
    rw [Tracks, hdone] at ht
    obtain ⟨cr, ap, obs, ha, ho, hj⟩ := ht (Jsm.build_success_iff.mp hok)
    obtain ⟨⟨-, hver⟩, hland⟩ := (landed_invariant d.executor).reachable
      ⟨Cluster.wf_empty, Cluster.versioned_empty⟩ (by rintro _ _ ⟨⟩) ⟨ls, hrun⟩
    obtain ⟨obj, t, hobj, hm, hk, hspec⟩ := (hland i y hproc).patched ha.patched
    obtain ⟨t', hm'⟩ := hj.mem_history
    have huid := hj.uid_eq.trans ha.uid_eq
    have hkey' : y.sent.key = obj.key := by rw [hobj]; rfl
    rw [← hsent, hobj] at hauth
    refine ⟨obj, y, t, cr, t', obs.record, hmax ▸ hauth, ?_, rfl, ha.patched, hm, hk, hspec,
      ⟨obs, ho, rfl⟩, hm', hj.key_eq.trans (ha.key_ap.trans hkey'), huid,
      Jsm.conditionReady_iff.mp hj.ready, ha.generation_le.trans hj.observed,
      hw.observed_le hm', ?_⟩
    · rw [← hkey', hsent, ← hkey, (Prod.mk.inj hkey).1]
      rfl
    · intro hgen
      exact ((hver.agrees hm' hm huid).2 hgen).trans hspec

theorem success_confirmed_sampleDelivered :
    ∃ (cfg : Config) (s : Pool.State Backend Job) (x : Job) (b : ResponseBody)
        (cr : SAMLGroupMapping), (deployment sampleDispatcher).machine.run
        (deployment sampleDispatcher).machine.init sampleDelivered = some s ∧
      s.procs 0 = some x ∧ x.served = .responded ⟨200, .json b⟩ ∧ b.status = .success ∧
      cr.key = (cfg.cr.namespace_, b.crName) ∧ ∃ t, (t, cr) ∈ s.shared.cluster.history := by
  obtain ⟨cfg, hboot, -⟩ := boot_sampleTenant
  obtain ⟨s, x, b, hs, hi, -, hr, hok, -⟩ := run_sampleDelivered
  obtain ⟨obj, y, t, cr, -, -, -, hkey, -, -, hm, hk, -⟩ := success_confirmed hboot hs hi hr rfl hok
    (by simp [sampleDelivered])
  exact ⟨cfg, s, x, b, cr, hs, hi, hr, hok, hk.trans hkey, t, hm⟩

end

/-! ## Requests that are not authenticated -/

/-- The request is for a provider that is registered, can be read, and is signed for it. -/
def Dispatcher.authenticates (d : Dispatcher) (a : Request × Time) : Bool :=
  match d.providers a.1.provider with
  | none => false
  | some prov =>
    match readAll d.maxBodyBytes a.1.body with
    | .error _ => false
    | .ok body => (prov.verifySignature a.1.header body a.2).isOk

theorem Admits.authenticates {d : Dispatcher} {a : Request × Time} {prov : Provider}
    (h : Admits d a.1 a.2 prov) : d.authenticates a = true := by
  have hread : readAll d.maxBodyBytes a.1.body = .ok a.1.body.data :=
    readAll_ok.mpr ⟨rfl, h.complete, h.length_le⟩
  simp only [Dispatcher.authenticates, h.provider, hread, h.verified]
  rfl

theorem Log.record_none (log : Log) (i : Nat) : log.record i none = log := List.append_nil log

/-- One that is not is answered at once, and records nothing. -/
theorem serveHTTPRecorded_of_not_authenticates (records : Provider → GoString → List Metric)
    {d : Dispatcher} {a : Request × Time} (h : d.authenticates a = false) :
    ∃ resp, serveHTTPRecorded records d a.1 a.2 = ([], .responded resp) := by
  have hs := serves records d a.1 a.2
  generalize serveHTTPRecorded records d a.1 a.2 = sr at hs
  cases hs with
  | refused => exact ⟨_, rfl⟩
  | rejected ha => exact absurd (h.symm.trans ha.authenticates) Bool.false_ne_true
  | handled ha => exact absurd (h.symm.trans ha.authenticates) Bool.false_ne_true

/-- Requests that are not authenticated are invisible, in the cluster and in the counters.
    Without them, any run leads to the same records, calls and increments, and all
    other requests are just as far and have the same answers. -/
theorem unauthenticated_invisible (records : Provider → GoString → List Metric) (d : Dispatcher) :
    (∀ ls s, (metered records d).machine.run (metered records d).machine.init ls = some s →
      (metered records d).machine.run (metered records d).machine.init
          (ls.filter (Pool.Label.kept d.authenticates)) =
        some (s.purge fun x => d.authenticates (x.exchange.request, x.exchange.now))) ∧
    ∀ tr s, (deployment d).machine.run (deployment d).machine.init tr = some s →
      (deployment d).machine.run (deployment d).machine.init
          (tr.filter (Pool.Label.kept d.authenticates)) =
        some (s.purge fun x => d.authenticates (x.request, x.now)) := by
  constructor
  · intro ls s hs
    refine Pool.run_purge (p := metered records d) (P := fun x =>
      d.authenticates (x.exchange.request, x.exchange.now) = false →
        x.pending = [] ∧ ∃ resp, x.exchange.served = .responded resp) ?_ ?_ (by rintro _ _ ⟨⟩) hs
    · intro i a g x g' hst
      obtain ⟨rfl, rfl⟩ := metered_start.mp hst
      refine ⟨fun h => ?_, rfl, fun h => ?_⟩
      · obtain ⟨resp, hr⟩ := serveHTTPRecorded_of_not_authenticates records h
        rw [hr]
        exact ⟨rfl, resp, rfl⟩
      · obtain ⟨resp, hr⟩ := serveHTTPRecorded_of_not_authenticates records h
        rw [hr, Served.call, Log.record_none]
    · intro i x l g x' g' hP hst
      have hk : d.authenticates (x.exchange.request, x.exchange.now) = true := by
        by_contra hk
        obtain ⟨hpend, resp, hserved⟩ := hP (Bool.not_eq_true _ ▸ hk)
        rcases metered_step.mp hst with ⟨m, pending, -, hm, -⟩ | ⟨_, prov, p, _, -, -, hx, -⟩
        · cases hpend.symm.trans hm
        · cases hserved.symm.trans hx
      rcases metered_step.mp hst with ⟨_, _, -, -, rfl, -⟩ | ⟨_, _, _, _, -, -, -, -, rfl, -⟩ <;>
        exact ⟨fun h => absurd (h.symm.trans hk) Bool.false_ne_true, hk, hk⟩
  · intro tr s hs
    refine Pool.run_purge (p := deployment d) (P := fun x =>
      d.authenticates (x.request, x.now) = false → ∃ resp, x.progress = .refused resp) ?_ ?_
      (by rintro _ _ ⟨⟩) hs
    · intro i a g x g' hst
      obtain ⟨rfl, ⟨resp, -, rfl⟩ | ⟨prov, act, hserve, rfl⟩⟩ := deployment_start hst
      · refine ⟨fun _ => ⟨resp, rfl⟩, rfl, fun _ => ?_⟩
        rw [Job.served, Served.call, Log.record_none]
      · have hk : d.authenticates a = true := by
          by_contra hk
          obtain ⟨resp, hr⟩ := serveHTTPRecorded_of_not_authenticates (fun _ _ => [])
            (Bool.not_eq_true _ ▸ hk)
          rw [← serveHTTPRecorded_snd (fun _ _ => []), hr] at hserve
          cases hserve
        exact ⟨fun h => absurd (h.symm.trans hk) Bool.false_ne_true, rfl,
          fun h => absurd (h.symm.trans hk) Bool.false_ne_true⟩
    · intro i x o g x' g' hP hst
      obtain ⟨prov, y, y', c, hy, -, rfl, rfl⟩ := deployment_step.mp hst
      have hk : d.authenticates (x.request, x.now) = true := by
        by_contra hk
        obtain ⟨resp, hresp⟩ := hP (Bool.not_eq_true _ ▸ hk)
        cases hy.symm.trans hresp
      exact ⟨fun h => absurd (h.symm.trans hk) Bool.false_ne_true, hk, hk⟩

end Webhookd
