import Webhookd.Deadline

/-!
# Cancellation

The context of a request is cancelled at some instant: the client is gone, or the
server shuts down. A call that is under way then fails, with an error that no
predicate of `apierrors` matches (`FailsByContext`).

* `apply_call`: if this is a call of `apply`, the result is `ResultInternalError`;
* `cancelled_iff`: so a cancellation is reported as a permanent fault exactly when
  it comes before the Patch and the Get after it are answered;
* `cancelled_apply`: a cancelled Patch is answered with 500.
-/

namespace Webhookd

open Go

/-- The results that are not to be retried: HTTP 500 and 4xx. -/
def ResultKind.Permanent (k : ResultKind) : Prop :=
  k = .internalError ∨ 400 ≤ k.httpStatus ∧ k.httpStatus < 500

instance (k : ResultKind) : Decidable k.Permanent := inferInstanceAs (Decidable (_ ∨ _))

/-- Along a run, a call fails only when its context has ended, and then with an error
    that no predicate of `apierrors` matches: all replies of the server are successes. -/
def FailsByContext (e : Executor) (cancel : Option Int) : Clocked → List (Int × Reply) → Prop
  | _, [] => True
  | x, (t, r) :: tr =>
    (∀ err, r = .failed err → ended cancel x.deadline t = true ∧ err.reason = .unknown) ∧
      ∀ x', x.step e cancel (t, r) = some x' → FailsByContext e cancel x' tr

/-- An execution waits for one of the two calls of `apply`. -/
inductive Applying : Phase → Prop
  | patch {act obj} : Applying (.patch act obj)
  | refetch {act obj} : Applying (.refetch act obj)

section

variable {e : Executor} {cancel : Option Int} {x x' : Clocked} {t c : Int} {r : Reply}

theorem Clocked.canCome_of_step (h : x.step e cancel (t, r) = some x') :
    r.canCome (ended cancel x.deadline t) = true := by
  simp only [Clocked.step] at h
  split_ifs at h with hc
  exact hc.2

theorem ended_some {c : Int} : ended (some c) none t = true ↔ c ≤ t := by
  simp [ended]

theorem classifyK8sErr_unknown {err : K8sError} (h : err.reason = .unknown) (step : String)
    (namespace_ name : GoString) :
    (classifyK8sErr (err.wrap step) namespace_ name).kind = .internalError := by
  have hw : (err.wrap step).reason = .unknown := h
  rw [classifyK8sErr, hw]

/-- A call of `apply` succeeds before the cancellation, and makes the execution return
    a permanent fault after it. -/
theorem apply_call (hp : Applying x.phase) (hdl : x.deadline = none)
    (hf : ∀ err, r = .failed err → ended (some c) x.deadline t = true ∧ err.reason = .unknown)
    (h : x.step e (some c) (t, r) = some x') :
    (t < c ∧ ∃ obj, r = .object obj) ∨
      c ≤ t ∧ ∃ res, x'.phase = .done res ∧ res.kind = .internalError := by
  have hcome := Clocked.canCome_of_step h
  obtain ⟨hr, -⟩ := Clocked.step_eq_some h
  rw [hdl] at hf hcome
  obtain ⟨p, now, dl⟩ := x
  obtain ⟨p', now', dl'⟩ := x'
  have alive : ∀ obj, r = .object obj → t < c := by
    rintro obj rfl
    rw [Reply.canCome, Bool.not_eq_true', ← Bool.not_eq_true, ended_some] at hcome
    exact not_le.mp hcome
  cases hr with
  | patched => exact .inl ⟨alive _ rfl, _, rfl⟩
  | patchFailed =>
    obtain ⟨hend, hunknown⟩ := hf _ rfl
    exact .inr ⟨ended_some.mp hend, _, rfl, classifyK8sErr_unknown hunknown _ _ _⟩
  | refetched => exact .inl ⟨alive _ rfl, _, rfl⟩
  | refetchFailed =>
    obtain ⟨hend, hunknown⟩ := hf _ rfl
    exact .inr ⟨ended_some.mp hend, _, rfl, classifyK8sErr_unknown hunknown _ _ _⟩
  | _ => cases hp

end

/-- After a Patch, the execution waits for the Get, still without a deadline. -/
theorem patched_refetches {e : Executor} {cancel : Option Int} {ctx : RequestContext}
    {act : ApplyAction} {start t : Int} {sent : ClientObject} {x : Clocked}
    (h : (clocked e cancel start (execute ctx (.apply act))).init.step e cancel
      (t, .object sent) = some x) :
    x.phase = .refetch act sent ∧ x.deadline = none := by
  obtain ⟨hr, -, hdl⟩ := Clocked.step_eq_some h
  obtain ⟨p, now, dl⟩ := x
  cases hr
  exact ⟨rfl, hdl⟩

/-- No wait ends with a permanent fault. -/
theorem Ends.not_permanent {act : ApplyAction} {applied : ClientObject} {n : Nat} {r : Reply}
    {kind : ResultKind} (h : Ends act applied n r kind) : ¬kind.Permanent := by
  cases h <;> decide

/-- An execution that has returned a fault ends there. -/
theorem permanent_of_done {e : Executor} {cancel : Option Int} {start : Int} {p₀ : Phase}
    {tr : List (Int × Reply)} {x x' : Clocked} {res res' : ExecResult}
    (hdone : x.phase = .done res) (hkind : res.kind = .internalError)
    (h : (clocked e cancel start p₀).run x tr = some x') (hx : x'.phase = .done res') :
    tr = [] ∧ res'.kind.Permanent := by
  obtain ⟨rfl, rfl⟩ := run_done hdone h
  obtain rfl := Phase.done.inj (hdone.symm.trans hx)
  exact ⟨rfl, .inl hkind⟩

/-- Whatever the action, and whenever the context of the request is cancelled, if all
    replies of the server are successes, then the result is not a permanent fault exactly
    when the Patch and the Get after it were answered before the cancellation. -/
theorem cancelled_iff (e : Executor) (ctx : RequestContext) (act : ApplyAction) {start c : Int}
    {tr : List (Int × Reply)} {x : Clocked} {res : ExecResult}
    (h : (clocked e (some c) start (execute ctx (.apply act))).run
      (clocked e (some c) start (execute ctx (.apply act))).init tr = some x)
    (hx : x.phase = .done res)
    (hf : FailsByContext e (some c)
      (clocked e (some c) start (execute ctx (.apply act))).init tr) :
    ¬res.kind.Permanent ↔ ∃ l₁ l₂ rest, tr = l₁ :: l₂ :: rest ∧ l₁.1 < c ∧ l₂.1 < c := by
  rcases tr with _ | ⟨⟨t₁, r₁⟩, tr⟩
  · obtain rfl := Option.some.inj h
    cases hx
  obtain ⟨x₁, h₁, hrun⟩ := Machine.run_cons_eq_some.mp h
  obtain ⟨hf₁, hf⟩ := hf
  rcases apply_call .patch rfl hf₁ h₁ with ⟨hlt₁, sent, rfl⟩ | ⟨hle, res', hdone, hkind⟩
  · obtain ⟨hp₁, hdl₁⟩ := patched_refetches h₁
    rcases tr with _ | ⟨⟨t₂, r₂⟩, tr⟩
    · obtain rfl := Option.some.inj hrun
      rw [hp₁] at hx
      cases hx
    obtain ⟨x₂, h₂, hrun₂⟩ := Machine.run_cons_eq_some.mp hrun
    obtain ⟨hf₂, -⟩ := hf _ h₁
    rcases apply_call (hp₁ ▸ .refetch) hdl₁ hf₂ h₂ with
      ⟨hlt₂, applied, rfl⟩ | ⟨hle, res', hdone, hkind⟩
    · -- The object is applied, and no wait ends with a permanent fault.
      obtain ⟨hp, -⟩ := applied_waits h₁ h₂
      obtain ⟨-, before, r, -, -, he⟩ := wait_ends hp hrun₂ hx
      exact ⟨fun _ => ⟨_, _, _, rfl, hlt₁, hlt₂⟩, fun _ => he.not_permanent⟩
    · obtain ⟨-, hperm⟩ := permanent_of_done hdone hkind hrun₂ hx
      refine iff_of_false (not_not.mpr hperm) ?_
      rintro ⟨l₁, l₂, rest, htr, -, hlt₂⟩
      cases htr
      exact absurd hlt₂ (not_lt.mpr hle)
  · obtain ⟨rfl, hperm⟩ := permanent_of_done hdone hkind hrun hx
    refine iff_of_false (not_not.mpr hperm) ?_
    rintro ⟨l₁, l₂, rest, htr, -⟩
    cases htr

theorem failsByContext_of_none {e : Executor} {cancel : Option Int} {tr : List (Int × Reply)}
    (h : ∀ l ∈ tr, ∀ err, l.2 ≠ .failed err) (x : Clocked) : FailsByContext e cancel x tr := by
  induction tr generalizing x with
  | nil => trivial
  | cons l tr ih =>
    obtain ⟨hl, htr⟩ := List.forall_mem_cons.mp h
    exact ⟨fun err he => absurd he (hl err), fun x' _ => ih htr x'⟩

/-- The context is cancelled while the loop waits for an event. -/
theorem cancelled_iff_sampleWait :
    ∃ x res, (sampleClock (some 2)).run (sampleClock (some 2)).init
        (sampleApplied ++ [(0, .object sampleAction.object), (1, .watching), (2, .done)]) = some x ∧
      x.phase = .done res ∧ ¬res.kind.Permanent := by
  have hrun : (sampleClock (some 2)).run (sampleClock (some 2)).init
      (sampleApplied ++ [(0, .object sampleAction.object), (1, .watching), (2, .done)]) =
    some ⟨.done (syncResult sampleAction.object .timeout (.notReadyWithin second) 0), 2,
      some second⟩ := rfl
  refine ⟨_, _, hrun, rfl, ?_⟩
  refine (cancelled_iff (newExecutor [] second) sampleRequest.ctx sampleAction hrun rfl
    (failsByContext_of_none ?_ _)).mpr ⟨_, _, _, rfl, by decide, by decide⟩
  simp [sampleApplied]

/-- The context is cancelled during the Patch, or during the Get after it, and a fault is
    reported that is not to be retried. -/
theorem cancelled_apply :
    let e := newExecutor [] second
    let m := sampleClock (some 1)
    let patch : List (Int × Reply) := [(1, .failed ⟨.unknown, lit "context canceled"⟩)]
    let get := (0, .object sampleAction.object) :: patch
    (FailsByContext e (some 1) m.init patch ∧ ∃ x res, m.run m.init patch = some x ∧
      x.phase = .done res ∧ res.kind = .internalError ∧ res.kind.httpStatus = 500) ∧
    (FailsByContext e (some 1) m.init get ∧ ∃ x res, m.run m.init get = some x ∧
      x.phase = .done res ∧ res.kind = .internalError ∧ res.kind.httpStatus = 500) := by
  intro e m patch get
  have hfail (x : Clocked) : FailsByContext e (some 1) x patch := by
    refine ⟨?_, fun _ _ => trivial⟩
    rintro err ⟨⟩
    exact ⟨by simp [ended], rfl⟩
  refine ⟨⟨hfail _, _, _, rfl, rfl, rfl, rfl⟩, ⟨?_, fun x _ => hfail x⟩, _, _, rfl, rfl, rfl, rfl⟩
  rintro err ⟨⟩

end Webhookd
