import Webhookd.Action

/-!
# The executor

`executor.go`: an action is applied to the cluster by server-side apply, and
then watched until the object is ready. An execution is cut at the calls it
makes and the channel it reads: a `Phase` is where it waits, `Phase.call` the
API call that it waits for, and `Phase.resume` how it goes on from a reply.

* `prepare` is the object that is sent: the one of the action, with labels and
  annotations merged in;
* `Resumes` lists the ways in which an execution goes on, and
  `Phase.resume_eq_some` says that there are no others;
* an execution sends one object (`Phase.call_resume_ne_patch`).
-/

namespace Webhookd

open Go

/-! ## Labels and annotations -/

def labelManagedBy : GoString := lit "webhookd.io/managed-by"
def labelSource : GoString := lit "webhookd.io/source"
def annotationTraceID : GoString := lit "webhookd.io/trace-id"
def annotationReqID : GoString := lit "webhookd.io/request-id"
def annotationApplied : GoString := lit "webhookd.io/applied-at"

/-- What the executor reads from the context of a request, where a missing id is
    empty, and its clock at the time of the apply, as a text. -/
structure RequestContext where
  requestID : GoString
  traceID : GoString
  appliedAt : GoString

/-- `systemLabels`. -/
def systemLabels (source : GoString) : GoMap GoString :=
  .ofList [(labelManagedBy, lit "webhookd"), (labelSource, source)]

/-- `systemAnnotations`. -/
def systemAnnotations (ctx : RequestContext) : GoMap GoString :=
  let out : GoMap GoString := .ofList [(annotationApplied, ctx.appliedAt)]
  let out := if ctx.requestID ≠ [] then out.insert annotationReqID ctx.requestID else out
  if ctx.traceID ≠ [] then out.insert annotationTraceID ctx.traceID else out

/-- `mergeLabels`. -/
def mergeLabels (provider executor : GoMap GoString) : GoMap GoString :=
  (GoMap.copy ∅ provider).copy executor

/-- `mergeAnnotations`. -/
def mergeAnnotations (provider providerExtra executor : GoMap GoString) : GoMap GoString :=
  ((GoMap.copy ∅ provider).copy providerExtra).copy executor

/-- The object that `apply` sends. -/
def prepare (ctx : RequestContext) (act : ApplyAction) : ClientObject :=
  let m := act.object.metadata
  act.object.withMetadata
    { m with
      labels := mergeLabels m.labels (systemLabels act.source)
      annotations := mergeAnnotations m.annotations act.annotations (systemAnnotations ctx) }

theorem mergeLabels_empty (m : GoMap GoString) : mergeLabels ∅ m = m := by
  ext k
  simp [mergeLabels]

/-- The keys of the annotations that depend on the request. -/
def requestAnnotations : List GoString := [annotationApplied, annotationReqID, annotationTraceID]

/-- No other annotations are set. -/
theorem systemAnnotations_of_notMem (ctx : RequestContext) {k : GoString}
    (h : k ∉ requestAnnotations) : systemAnnotations ctx k = none := by
  simp only [requestAnnotations, List.mem_cons, List.not_mem_nil, or_false, not_or] at h
  obtain ⟨ha, hr, ht⟩ := h
  have hk : GoMap.ofList [(annotationApplied, ctx.appliedAt)] k = none :=
    GoMap.ofList_of_notMem (by simpa using ha)
  rw [systemAnnotations]
  -- The ids may be missing, so there are four maps; none has another key.
  split_ifs <;> simp [GoMap.insert_of_ne, *]

/-- The other annotations are those of the provider. -/
theorem mergeAnnotations_system (provider providerExtra : GoMap GoString) (ctx : RequestContext)
    {k : GoString} (h : k ∉ requestAnnotations) :
    mergeAnnotations provider providerExtra (systemAnnotations ctx) k =
      (providerExtra k).or (provider k) := by
  simp [mergeAnnotations, systemAnnotations_of_notMem ctx h]

/-! ## Executions -/

/-- A call to the API server. -/
inductive ApiCall
  /-- A server-side apply. -/
  | patch (obj : ClientObject) (fieldOwner : GoString) (forceOwnership : Bool)
  | get (namespace_ name : GoString)
  | watch (list namespace_ : GoString)

/-- What an execution waits for: the answer to a call, or what its `select` finds. -/
inductive Reply
  /-- A Patch or a Get succeeded and left this object. -/
  | object (obj : ClientObject)
  | failed (e : K8sError)
  /-- A Watch was established. -/
  | watching
  | event (ev : WatchEvent)
  /-- The channel of the watch is closed. -/
  | closed
  /-- The context is done. -/
  | done

/-- Where an execution waits. -/
inductive Phase
  /-- For the Patch of an object. -/
  | patch (act : ApplyAction) (obj : ClientObject)
  /-- For the Get after the Patch, which left `obj`. -/
  | refetch (act : ApplyAction) (obj : ClientObject)
  /-- For the initial Get of `waitForSync`. -/
  | probe (act : ApplyAction) (applied : ClientObject)
  /-- For the Watch. -/
  | establish (act : ApplyAction) (applied : ClientObject)
  /-- In the `select` of the loop. -/
  | select (act : ApplyAction) (applied : ClientObject)
  /-- For nothing: it has returned. -/
  | done (res : ExecResult)

/-- `Executor`, with its configuration. -/
structure Executor where
  fieldManager : GoString
  syncTimeout : Duration

/-- `NewExecutor`. -/
def newExecutor (fieldManager : GoString) (syncTimeout : Duration) : Executor where
  fieldManager := if fieldManager = [] then lit "webhookd" else fieldManager
  syncTimeout := syncTimeout

/-- `classifyK8sErr`. -/
def classifyK8sErr (e : K8sError) (namespace_ name : GoString) : ExecResult :=
  match e.reason with
  | .forbidden => { kind := .internalError, reason := .forbidden e, crName := name, namespace_ }
  | .invalid => { kind := .unprocessable, reason := .invalidSpec e, crName := name, namespace_ }
  | .serverTimeout | .serviceUnavailable | .tooManyRequests | .conflict =>
    { kind := .transientFailure, reason := .k8s e, crName := name, namespace_ }
  | .unknown => { kind := .internalError, reason := .k8s e, crName := name, namespace_ }

/-- The results of `waitForSync`. -/
def syncResult (applied : ClientObject) (kind : ResultKind) (reason : Reason)
    (observedGeneration : Int) : ExecResult :=
  { kind, reason, crName := applied.name, namespace_ := applied.namespace_, observedGeneration }

/-- `Execute`, up to its first call. -/
def execute (ctx : RequestContext) : Action → Phase
  | .noop reason => .done { kind := .noop, reason }
  | .apply act => .patch act (prepare ctx act)

namespace Phase

/-- The call that an execution waits for. -/
def call (e : Executor) : Phase → Option ApiCall
  | .patch _ obj => some (.patch obj e.fieldManager true)
  | .refetch _ obj => some (.get obj.namespace_ obj.name)
  | .probe _ applied => some (.get applied.namespace_ applied.name)
  | .establish act applied => some (.watch act.listObject applied.namespace_)
  | .select _ _ | .done _ => none

/-- Returns success if an object is ready, and goes on otherwise. -/
def check (act : ApplyAction) (applied obj : ClientObject) (next : Phase) : Phase :=
  let (ready, observedGen) := act.readyCheck obj applied.generation
  if ready then .done (syncResult applied .ready .none observedGen) else next

/-- The loop skips what is no object or has another name. -/
def onEvent (act : ApplyAction) (applied : ClientObject) (ev : WatchEvent) : Phase :=
  match ev.object with
  | none => .select act applied
  | some obj =>
    if obj.name ≠ applied.name then .select act applied
    else check act applied obj (.select act applied)

/-- How an execution goes on from a reply. -/
def resume (e : Executor) : Phase → Reply → Option Phase
  | .patch act _, .object obj => some (.refetch act obj)
  | .patch _ obj, .failed err =>
    some (.done (classifyK8sErr (err.wrap "ssa patch: ") obj.namespace_ obj.name))
  | .refetch act _, .object applied => some (.probe act applied)
  | .refetch _ obj, .failed err =>
    some (.done (classifyK8sErr (err.wrap "post-apply get: ") obj.namespace_ obj.name))
  | .probe act applied, .object cur => some (check act applied cur (.establish act applied))
  -- An error of the initial Get is left to the watch.
  | .probe act applied, .failed _ => some (.establish act applied)
  | .establish act applied, .watching => some (.select act applied)
  | .establish _ applied, .failed err =>
    some (.done (syncResult applied .transientFailure (.watch err) 0))
  | .select _ applied, .done =>
    some (.done (syncResult applied .timeout (.notReadyWithin e.syncTimeout) 0))
  | .select _ applied, .closed =>
    some (.done (syncResult applied .transientFailure .watchClosed 0))
  | .select act applied, .event ev => some (onEvent act applied ev)
  | _, _ => none

end Phase

/-! ## What an execution can do -/

/-- The ways in which an execution goes on, one by one. -/
inductive Resumes (e : Executor) : Phase → Reply → Phase → Prop
  | patched {act obj obj'} : Resumes e (.patch act obj) (.object obj') (.refetch act obj')
  | patchFailed {act obj err} : Resumes e (.patch act obj) (.failed err)
      (.done (classifyK8sErr (err.wrap "ssa patch: ") obj.namespace_ obj.name))
  | refetched {act obj applied} : Resumes e (.refetch act obj) (.object applied)
      (.probe act applied)
  | refetchFailed {act obj err} : Resumes e (.refetch act obj) (.failed err)
      (.done (classifyK8sErr (err.wrap "post-apply get: ") obj.namespace_ obj.name))
  | probedReady {act applied cur g} (h : act.readyCheck cur applied.generation = (true, g)) :
      Resumes e (.probe act applied) (.object cur) (.done (syncResult applied .ready .none g))
  | probedPending {act applied cur} (h : (act.readyCheck cur applied.generation).1 = false) :
      Resumes e (.probe act applied) (.object cur) (.establish act applied)
  | probeFailed {act applied err} : Resumes e (.probe act applied) (.failed err)
      (.establish act applied)
  | watching {act applied} : Resumes e (.establish act applied) .watching (.select act applied)
  | watchFailed {act applied err} : Resumes e (.establish act applied) (.failed err)
      (.done (syncResult applied .transientFailure (.watch err) 0))
  | timeout {act applied} : Resumes e (.select act applied) .done
      (.done (syncResult applied .timeout (.notReadyWithin e.syncTimeout) 0))
  | closed {act applied} : Resumes e (.select act applied) .closed
      (.done (syncResult applied .transientFailure .watchClosed 0))
  | eventReady {act applied ev obj g} (ho : ev.object = some obj) (hn : obj.name = applied.name)
      (h : act.readyCheck obj applied.generation = (true, g)) :
      Resumes e (.select act applied) (.event ev) (.done (syncResult applied .ready .none g))
  | eventPending {act applied ev}
      (h : ∀ obj, ev.object = some obj → obj.name = applied.name →
        (act.readyCheck obj applied.generation).1 = false) :
      Resumes e (.select act applied) (.event ev) (.select act applied)

/-- No execution waits for a Patch again. -/
theorem Resumes.ne_patch {e : Executor} {p p' : Phase} {r : Reply} (h : Resumes e p r p')
    (act : ApplyAction) (obj : ClientObject) : p' ≠ .patch act obj := by
  cases h <;> simp

namespace Phase

variable {e : Executor} {p p' : Phase} {r : Reply} {act : ApplyAction}
  {applied obj : ClientObject} {next : Phase}

/-- An object that is ready ends the execution. -/
theorem check_ready {g : Int} (h : act.readyCheck obj applied.generation = (true, g)) :
    check act applied obj next = .done (syncResult applied .ready .none g) := by
  rw [check, h]
  rfl

/-- Any other does not. -/
theorem check_pending (h : (act.readyCheck obj applied.generation).1 = false) :
    check act applied obj next = next := by
  rw [check]
  simp [h]

theorem check_cases (act : ApplyAction) (applied obj : ClientObject) :
    (∃ g, act.readyCheck obj applied.generation = (true, g)) ∨
      (act.readyCheck obj applied.generation).1 = false := by
  rcases act.readyCheck obj applied.generation with ⟨_ | _, g⟩
  · exact .inr rfl
  · exact .inl ⟨g, rfl⟩

/-- An event that shows the applied object ready ends the execution. -/
theorem onEvent_ready {ev : WatchEvent} {g : Int} (ho : ev.object = some obj)
    (hn : obj.name = applied.name) (h : act.readyCheck obj applied.generation = (true, g)) :
    onEvent act applied ev = .done (syncResult applied .ready .none g) := by
  simp only [onEvent, ho, hn, ne_eq, not_true_eq_false, if_false, check_ready h]

/-- Any other event does not. -/
theorem onEvent_pending {ev : WatchEvent}
    (h : ∀ obj, ev.object = some obj → obj.name = applied.name →
      (act.readyCheck obj applied.generation).1 = false) :
    onEvent act applied ev = .select act applied := by
  rw [onEvent]
  split
  · rfl
  · split_ifs with hn
    · rfl
    · exact check_pending (h _ ‹_› (not_not.mp hn))

/-- An event shows the applied object ready, or it does not. -/
theorem onEvent_cases (act : ApplyAction) (applied : ClientObject) (ev : WatchEvent) :
    (∃ obj g, ev.object = some obj ∧ obj.name = applied.name ∧
        act.readyCheck obj applied.generation = (true, g)) ∨
      ∀ obj, ev.object = some obj → obj.name = applied.name →
        (act.readyCheck obj applied.generation).1 = false := by
  by_contra! h
  obtain ⟨obj, ho, hn, hr⟩ := h.2
  obtain ⟨g, hg⟩ := (check_cases act applied obj).resolve_right hr
  exact h.1 obj g ho hn hg

/-- `resume` goes on in these ways, and no others. -/
theorem resume_eq_some : p.resume e r = some p' ↔ Resumes e p r p' := by
  constructor
  · intro h
    unfold resume at h
    split at h
    -- Only the branches that ask `readyCheck` have two ways to go on.
    case h_5 act applied cur =>
      obtain rfl := Option.some.inj h
      rcases check_cases act applied cur with ⟨g, hr⟩ | hr
      · rw [check_ready hr]
        exact .probedReady hr
      · rw [check_pending hr]
        exact .probedPending hr
    case h_11 act applied ev =>
      obtain rfl := Option.some.inj h
      rcases onEvent_cases act applied ev with ⟨obj, g, ho, hn, hr⟩ | hr
      · rw [onEvent_ready ho hn hr]
        exact .eventReady ho hn hr
      · rw [onEvent_pending hr]
        exact .eventPending hr
    case h_12 => cases h
    all_goals
      obtain rfl := Option.some.inj h
      constructor
  · intro h
    cases h with
    | probedReady h => exact congrArg some (check_ready h)
    | probedPending h => exact congrArg some (check_pending h)
    | eventReady ho hn h => exact congrArg some (onEvent_ready ho hn h)
    | eventPending h => exact congrArg some (onEvent_pending h)
    | _ => rfl

/-- After the first one, no object is sent. -/
theorem call_resume_ne_patch (h : p.resume e r = some p') (obj : ClientObject)
    (fieldOwner : GoString) (force : Bool) : p'.call e ≠ some (.patch obj fieldOwner force) := by
  have hne := (resume_eq_some.mp h).ne_patch
  cases p' with
  | patch act obj => exact absurd rfl (hne act obj)
  | _ => simp [call]

end Phase

/-- The result of an execution that has made a call: neither an acknowledgement
    nor an error of the provider. -/
def ExecResult.Executed (res : ExecResult) : Prop :=
  res.kind ≠ .noop ∧ res.kind ≠ .badRequest ∧ ∀ err, res.reason ≠ .provider err

/-- An error of the API server has a kind that executions have. -/
theorem classifyK8sErr_executed (err : K8sError) (namespace_ name : GoString) :
    (classifyK8sErr err namespace_ name).Executed := by
  rw [classifyK8sErr, ExecResult.Executed]
  cases err.reason <;> simp

/-- So has every result of an execution. -/
theorem Phase.executed_of_resume {e : Executor} {p : Phase} {r : Reply} {res : ExecResult}
    (h : p.resume e r = some (.done res)) : res.Executed := by
  cases resume_eq_some.mp h with
  | patchFailed => exact classifyK8sErr_executed _ _ _
  | refetchFailed => exact classifyK8sErr_executed _ _ _
  | _ => simp [ExecResult.Executed, syncResult]

end Webhookd
