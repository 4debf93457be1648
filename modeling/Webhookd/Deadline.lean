import Webhookd.Config
import Webhookd.Dispatcher

/-!
# Deadlines

Executions on a clock (`clocked`). Every reply comes at an instant. The context
of `waitForSync` ends at its own deadline or when the parent context is
cancelled, whatever is first: from then on its calls fail and `ctx.Done()` is
ready, while the channel of a watch may still deliver what it holds, or be
found closed.

* `timeout_iff`: a result tells what happened to the deadline exactly when
  `ctx.Done()` is not taken before it, and nothing else ends the wait after it;
* `timeout_misread`: both go wrong;
* `delivered_iff`: an answer is always written in time exactly when the
  configured sync timeout is less than the configured write timeout;
* `default_undelivered`: by default it is not.
-/

namespace Webhookd

open Go

/-! ## Executions on a clock -/

/-- An execution, the instant of its last reply in nanoseconds, and the deadline of
    `waitForSync`, once that has started. -/
structure Clocked where
  phase : Phase
  now : Int
  deadline : Option Int

/-- The context has ended: the parent was cancelled, or the deadline has passed. -/
def ended (cancel deadline : Option Int) (t : Int) : Bool :=
  cancel.any (· ≤ t) || deadline.any (· ≤ t)

/-- A reply can come under a context that has ended, or not. -/
def Reply.canCome (ended : Bool) : Reply → Bool
  -- Calls succeed only while the context is alive.
  | .object _ | .watching => !ended
  | .done => ended
  -- The channel may still hold events that `select` prefers to `ctx.Done()`.
  | .failed _ | .event _ | .closed => true

/-- A reply at an instant. The parent context is cancelled at `cancel`, if ever, and
    `context.WithTimeout` sets the deadline when `waitForSync` starts. -/
def Clocked.step (e : Executor) (cancel : Option Int) (x : Clocked) :
    Int × Reply → Option Clocked
  | (t, r) =>
    if x.now ≤ t ∧ r.canCome (ended cancel x.deadline t) then
      (x.phase.resume e r).map fun
        | .probe act applied => ⟨.probe act applied, t, some (t + e.syncTimeout)⟩
        | p => ⟨p, t, x.deadline⟩
    else none

/-- Executions from a phase at an instant. -/
def clocked (e : Executor) (cancel : Option Int) (start : Int) (p : Phase) :
    Machine Clocked (Int × Reply) where
  init := ⟨p, start, none⟩
  step := Clocked.step e cancel

section

variable {e : Executor} {cancel : Option Int} {x x' : Clocked} {t : Int} {r : Reply}

theorem Clocked.step_eq_some (h : x.step e cancel (t, r) = some x') :
    Resumes e x.phase r x'.phase ∧ x'.now = t ∧
      x'.deadline = match x'.phase with
        | .probe _ _ => some (t + e.syncTimeout)
        | _ => x.deadline := by
  simp only [Clocked.step] at h
  split_ifs at h
  obtain ⟨p, hp, rfl⟩ := Option.map_eq_some_iff.mp h
  have hr := Phase.resume_eq_some.mp hp
  cases p <;> exact ⟨hr, rfl, rfl⟩

end

/-! ## How a wait ends -/

section

variable (act : ApplyAction) (applied : ClientObject)

/-- A reply shows that the applied object is ready. -/
def Reply.ShowsReady : Reply → Prop
  | .object cur => (act.readyCheck cur applied.generation).1 = true
  | .event ev => ∃ obj, ev.object = some obj ∧ obj.name = applied.name ∧
    (act.readyCheck obj applied.generation).1 = true
  | _ => False

/-- A reply that a wait goes on after. -/
def Reply.Quiet (r : Reply) : Prop := r ≠ .done ∧ r ≠ .closed ∧ ¬r.ShowsReady act applied

/-- The phase of a wait after a number of replies. -/
def waitPhase : Nat → Phase
  | 0 => .probe act applied
  | 1 => .establish act applied
  | _ => .select act applied

/-- A reply ends a wait, after a number of others, with a kind of result. -/
inductive Ends : Nat → Reply → ResultKind → Prop
  | ready {n r} (h : r.ShowsReady act applied) : Ends n r .ready
  | done {n} : Ends n .done .timeout
  | closed {n} : Ends n .closed .transientFailure
  | watchFailed {err} : Ends 1 (.failed err) .transientFailure

end

section

variable {e : Executor} {cancel : Option Int} {start : Int} {p p' : Phase} {x y : Clocked}
  {tr : List (Int × Reply)} {act : ApplyAction} {applied : ClientObject} {res : ExecResult}
  {r : Reply} {n : Nat}

/-- Once the object was applied, the wait starts, and has a deadline. -/
theorem applied_waits {ctx : RequestContext} {t₁ t₂ : Int} {sent : ClientObject}
    (h₁ : (clocked e cancel start (execute ctx (.apply act))).init.step e cancel
      (t₁, .object sent) = some x)
    (h₂ : x.step e cancel (t₂, .object applied) = some y) :
    y.phase = waitPhase act applied 0 ∧ y.deadline = some (t₂ + e.syncTimeout) := by
  obtain ⟨hr, -⟩ := Clocked.step_eq_some h₁
  obtain ⟨hr', -, hdl⟩ := Clocked.step_eq_some h₂
  obtain ⟨p, now, dl⟩ := x
  obtain ⟨p', now', dl'⟩ := y
  cases hr
  cases hr'
  exact ⟨rfl, hdl⟩

/-- A reply either ends a wait, or the wait goes on. -/
theorem waitPhase_resumes (h : Resumes e (waitPhase act applied n) r p') :
    (r.Quiet act applied ∧ p' = waitPhase act applied (n + 1)) ∨
      ∃ res, p' = .done res ∧ Ends act applied n r res.kind := by
  match n, h with
  | 0, .probedReady h => exact .inr ⟨_, rfl, .ready (congrArg Prod.fst h)⟩
  | 0, .probedPending h => exact .inl ⟨⟨nofun, nofun, Bool.eq_false_iff.mp h⟩, rfl⟩
  | 0, .probeFailed => exact .inl ⟨⟨nofun, nofun, id⟩, rfl⟩
  | 1, .watching => exact .inl ⟨⟨nofun, nofun, id⟩, rfl⟩
  | 1, .watchFailed => exact .inr ⟨_, rfl, .watchFailed⟩
  | _ + 2, .timeout => exact .inr ⟨_, rfl, .done⟩
  | _ + 2, .closed => exact .inr ⟨_, rfl, .closed⟩
  | _ + 2, .eventReady ho hn h => exact .inr ⟨_, rfl, .ready ⟨_, ho, hn, congrArg Prod.fst h⟩⟩
  | _ + 2, .eventPending h =>
    refine .inl ⟨⟨nofun, nofun, ?_⟩, rfl⟩
    rintro ⟨obj, ho, hn, hr⟩
    rw [h obj ho hn] at hr
    cases hr

theorem run_done (hx : x.phase = .done res) (h : (clocked e cancel start p).run x tr = some y) :
    tr = [] ∧ y = x := by
  cases tr with
  | nil => exact ⟨rfl, (Option.some.inj h).symm⟩
  | cons l tr =>
    obtain ⟨x', hst, -⟩ := Machine.run_cons_eq_some.mp h
    obtain ⟨hr, -⟩ := Clocked.step_eq_some hst
    rw [hx] at hr
    cases hr

/-- A wait that has returned did so at its last reply, with the deadline it started
    with. -/
theorem wait_ends (hx : x.phase = waitPhase act applied n)
    (h : (clocked e cancel start p).run x tr = some y) (hy : y.phase = .done res) :
    y.deadline = x.deadline ∧
      ∃ before r, tr = before ++ [(y.now, r)] ∧ (∀ l ∈ before, l.2.Quiet act applied) ∧
        Ends act applied (n + before.length) r res.kind := by
  -- On the replies: one that does not end the wait takes it to its next phase.
  induction tr generalizing x n with
  | nil =>
    obtain rfl := Option.some.inj h
    rw [hx] at hy
    match n with
    | 0 | 1 | _ + 2 => cases hy
  | cons l tr ih =>
    obtain ⟨x', hst, hrun⟩ := Machine.run_cons_eq_some.mp h
    obtain ⟨hr, hnow, hdl⟩ := Clocked.step_eq_some hst
    rw [hx] at hr
    rcases waitPhase_resumes hr with ⟨hq, hp⟩ | ⟨res', hp, he⟩
    · obtain ⟨hdl', before, r, rfl, hb, he⟩ := ih hp hrun
      have hdl : x'.deadline = x.deadline := by
        rw [hdl, hp]
        cases n <;> rfl
      refine ⟨hdl'.trans hdl, l :: before, r, rfl, List.forall_mem_cons.mpr ⟨hq, hb⟩, ?_⟩
      rwa [List.length_cons, Nat.add_comm before.length, ← Nat.add_assoc]
    · obtain ⟨rfl, rfl⟩ := run_done hp hrun
      obtain rfl := Phase.done.inj (hp.symm.trans hy)
      rw [hp] at hdl
      exact ⟨hdl, [], l.2, by rw [hnow]; rfl, nofun, he⟩

end

/-! ## What a result tells about the deadline -/

section

variable (T : Int) (act : ApplyAction) (applied : ClientObject) (tr : List (Int × Reply))

/-- The deadline `T` passed before any reply showed the object ready. -/
def Elapsed (finish : Int) : Prop :=
  T ≤ finish ∧ ∀ t r, (t, r) ∈ tr → r.ShowsReady act applied → T ≤ t

/-- `ResultTimeout` is returned exactly when the deadline has passed without the
    object being ready, and `ResultTransientFailure` only if the watch failed or
    was closed before. -/
def TellsDeadline (finish : Int) (kind : ResultKind) : Prop :=
  (kind = .timeout ↔ Elapsed T act applied tr finish) ∧
  (kind = .transientFailure → (∃ l t err, tr = [l, (t, .failed err)] ∧ t < T) ∨
    ∃ t, (t, .closed) ∈ tr ∧ t < T)

/-- `ctx.Done()` is not taken before the deadline; and no failure to watch, closed
    channel or ready object is taken after it. -/
structure Punctual : Prop where
  done : ∀ t, (t, .done) ∈ tr → T ≤ t
  watch : ∀ l t err, tr = [l, (t, .failed err)] → t < T
  closed : ∀ t, (t, .closed) ∈ tr → t < T
  ready : ∀ t r, (t, r) ∈ tr → r.ShowsReady act applied → t < T

end

section

variable {T : Int} {act : ApplyAction} {applied : ClientObject} {before : List (Int × Reply)}
  {finish t : Int} {r r' : Reply} {kind : ResultKind}

/-- A reply that is not quiet is the last one. -/
theorem eq_last (hb : ∀ l ∈ before, l.2.Quiet act applied)
    (hm : (t, r') ∈ before ++ [(finish, r)]) (hq : ¬r'.Quiet act applied) :
    t = finish ∧ r' = r := by
  rcases List.mem_append.mp hm with hm | hm
  · exact absurd (hb _ hm) hq
  · exact Prod.mk.inj (List.mem_singleton.mp hm)

theorem elapsed_iff (hb : ∀ l ∈ before, l.2.Quiet act applied) :
    Elapsed T act applied (before ++ [(finish, r)]) finish ↔ T ≤ finish := by
  refine ⟨And.left, fun h => ⟨h, fun t r' hm hr => ?_⟩⟩
  rwa [(eq_last hb hm fun hq => hq.2.2 hr).1]

/-- If all replies but the last are quiet, only the last one matters. -/
theorem punctual_iff (hb : ∀ l ∈ before, l.2.Quiet act applied)
    (he : Ends act applied before.length r kind) :
    Punctual T act applied (before ++ [(finish, r)]) ↔ (r = .done ↔ T ≤ finish) := by
  have hlast : (finish, r) ∈ before ++ [(finish, r)] := List.mem_append_right _ (.head _)
  constructor
  · intro h
    refine ⟨fun hd => h.done _ (hd ▸ hlast), fun hT => ?_⟩
    -- After the deadline, every way to end but `ctx.Done()` is excluded.
    generalize hn : before.length = n at he
    cases he with
    | ready hr => exact absurd (h.ready _ _ hlast hr) (not_lt.mpr hT)
    | done => rfl
    | closed => exact absurd (h.closed _ hlast) (not_lt.mpr hT)
    | watchFailed =>
      obtain ⟨l, rfl⟩ := List.length_eq_one_iff.mp hn
      exact absurd (h.watch _ _ _ rfl) (not_lt.mpr hT)
  · intro h
    have hlt : r ≠ .done → finish < T := fun hd => not_le.mp fun hT => hd (h.mpr hT)
    refine ⟨fun t hm => ?_, fun l t err hl => ?_, fun t hm => ?_, fun t r' hm hr => ?_⟩
    · obtain ⟨rfl, rfl⟩ := eq_last hb hm fun hq => hq.1 rfl
      exact h.mp rfl
    · have hl' : before ++ [(finish, r)] = [l] ++ [(t, .failed err)] := hl
      obtain ⟨rfl, rfl⟩ := Prod.mk.inj (List.singleton_inj.mp (List.append_inj' hl' rfl).2)
      exact hlt nofun
    · obtain ⟨rfl, rfl⟩ := eq_last hb hm fun hq => hq.2.1 rfl
      exact hlt nofun
    · obtain ⟨rfl, rfl⟩ := eq_last hb hm fun hq => hq.2.2 hr
      refine hlt ?_
      rintro rfl
      exact hr

theorem tellsDeadline_iff (hb : ∀ l ∈ before, l.2.Quiet act applied)
    (he : Ends act applied before.length r kind) :
    TellsDeadline T act applied (before ++ [(finish, r)]) finish kind ↔
      Punctual T act applied (before ++ [(finish, r)]) := by
  -- Both sides come down to whether the last reply is `ctx.Done()`.
  rw [punctual_iff hb he, TellsDeadline, elapsed_iff hb]
  have hlast : (finish, r) ∈ before ++ [(finish, r)] := List.mem_append_right _ (.head _)
  generalize hn : before.length = n at he
  cases he with
  | ready hr =>
    have hd : r ≠ .done := by
      rintro rfl
      exact hr
    simp [hd]
  | done => simp
  | closed =>
    simp only [reduceCtorEq, false_iff, not_le, true_imp_iff, and_iff_left_iff_imp]
    exact fun h => .inr ⟨finish, hlast, h⟩
  | watchFailed =>
    obtain ⟨l, rfl⟩ := List.length_eq_one_iff.mp hn
    simp only [reduceCtorEq, false_iff, not_le, true_imp_iff, and_iff_left_iff_imp]
    exact fun h => .inl ⟨l, finish, _, rfl, h⟩

end

/-- Whatever the replies, the choices of the loop and the cancellation of the parent
    context are, the result of an execution that was applied tells what happened
    to the deadline exactly when the replies are punctual. -/
theorem timeout_iff (e : Executor) (ctx : RequestContext) (act : ApplyAction)
    (cancel : Option Int) {start t₁ t₂ : Int} {sent applied : ClientObject}
    {tr : List (Int × Reply)} {x : Clocked} {res : ExecResult}
    (h : (clocked e cancel start (execute ctx (.apply act))).run
      (clocked e cancel start (execute ctx (.apply act))).init
      ((t₁, .object sent) :: (t₂, .object applied) :: tr) = some x)
    (hx : x.phase = .done res) :
    ∃ T, x.deadline = some T ∧ T = t₂ + e.syncTimeout ∧
      (TellsDeadline T act applied tr x.now res.kind ↔ Punctual T act applied tr) := by
  obtain ⟨x₁, h₁, h⟩ := Machine.run_cons_eq_some.mp h
  obtain ⟨x₂, h₂, h⟩ := Machine.run_cons_eq_some.mp h
  obtain ⟨hp, hdl⟩ := applied_waits h₁ h₂
  obtain ⟨hdl', before, r, rfl, hb, he⟩ := wait_ends hp h hx
  rw [Nat.zero_add] at he
  exact ⟨_, hdl'.trans hdl, rfl, tellsDeadline_iff hb he⟩

/-- Deliveries with a sync timeout of one second, applied at once. -/
def sampleClock (cancel : Option Int) : Machine Clocked (Int × Reply) :=
  clocked (newExecutor [] second) cancel 0 (execute sampleRequest.ctx (.apply sampleAction))

def sampleApplied : List (Int × Reply) :=
  [(0, .object sampleAction.object), (0, .object sampleAction.object)]

/-- The record is not ready, and the deadline is seen. -/
def sampleWait : List (Int × Reply) :=
  [(0, .object sampleAction.object), (1, .watching), (second, .done)]

theorem punctual_sampleWait :
    Punctual second sampleAction sampleAction.object sampleWait where
  done t hm := by
    simp only [sampleWait, List.mem_cons, Prod.mk.injEq, reduceCtorEq, and_false, and_true,
      List.not_mem_nil, or_false, false_or] at hm
    exact hm.ge
  watch l t err hl := by cases hl
  closed t hm := by simp [sampleWait] at hm
  ready t r hm hr := by
    simp only [sampleWait, List.mem_cons, Prod.mk.injEq, List.not_mem_nil, or_false] at hm
    rcases hm with ⟨rfl, -⟩ | ⟨rfl, -⟩ | ⟨-, rfl⟩
    · decide
    · decide
    · exact hr.elim

theorem timeout_iff_sampleWait :
    ∃ x res, (sampleClock none).run (sampleClock none).init (sampleApplied ++ sampleWait) = some x ∧
      x.phase = .done res ∧
      TellsDeadline second sampleAction sampleAction.object sampleWait second res.kind := by
  have hrun : (sampleClock none).run (sampleClock none).init (sampleApplied ++ sampleWait) =
    some ⟨.done (syncResult sampleAction.object .timeout (.notReadyWithin second) 0), second,
      some second⟩ := rfl
  refine ⟨_, _, hrun, rfl, ?_⟩
  obtain ⟨T, -, hT, h⟩ := timeout_iff (newExecutor [] second) sampleRequest.ctx sampleAction none
    hrun rfl
  obtain rfl : T = second := hT
  exact h.mpr punctual_sampleWait

/-- The parent context is cancelled before the deadline, and the deadline passes
    during the calls of the wait. -/
theorem timeout_misread :
    (∃ x res, (sampleClock (some 2)).run (sampleClock (some 2)).init
        (sampleApplied ++ [(0, .object sampleAction.object), (1, .watching), (2, .done)]) = some x ∧
      x.phase = .done res ∧ res.kind = .timeout ∧ x.now = 2 ∧
      ¬TellsDeadline second sampleAction sampleAction.object
        [(0, .object sampleAction.object), (1, .watching), (2, .done)] 2 res.kind) ∧
    ∃ x res, (sampleClock none).run (sampleClock none).init
        (sampleApplied ++ [(second, .failed ⟨.unknown, lit "context deadline exceeded"⟩),
          (second, .failed ⟨.unknown, lit "context deadline exceeded"⟩)]) = some x ∧
      x.phase = .done res ∧ res.kind = .transientFailure ∧ x.now = second ∧
      ¬TellsDeadline second sampleAction sampleAction.object
        [(second, .failed ⟨.unknown, lit "context deadline exceeded"⟩),
          (second, .failed ⟨.unknown, lit "context deadline exceeded"⟩)] second res.kind := by
  refine ⟨⟨_, _, rfl, rfl, rfl, rfl, fun h => ?_⟩, _, _, rfl, rfl, rfl, rfl, fun h => ?_⟩
  · -- A timeout, but the deadline is not reached.
    exact absurd (h.1.mp rfl).1 (by decide)
  · -- The deadline has passed, but this is no timeout.
    have hel : Elapsed second sampleAction sampleAction.object
        [(second, .failed ⟨.unknown, lit "context deadline exceeded"⟩),
          (second, .failed ⟨.unknown, lit "context deadline exceeded"⟩)] second := by
      refine ⟨le_refl _, fun t r hm hr => ?_⟩
      simp only [List.mem_cons, Prod.mk.injEq, List.not_mem_nil, or_false, or_self] at hm
      exact hm.1.ge
    cases h.1.mpr hel

/-! ## The write deadline -/

/-- `http.Server`, as far as `NewServer` sets it. -/
structure Server where
  addr : GoString
  readTimeout : Duration
  readHeaderTimeout : Duration
  writeTimeout : Duration
  idleTimeout : Duration

/-- `NewServer`. -/
def newServer (addr : GoString) (cfg : Config) : Server where
  addr
  readTimeout := cfg.readTimeout
  readHeaderTimeout := cfg.readHeaderTimeout
  writeTimeout := cfg.writeTimeout
  idleTimeout := cfg.idleTimeout

/-- The instant from which on a response is discarded, for a request whose header was
    read at `headerRead`. A server without a positive timeout has none. -/
def Server.writeDeadline (srv : Server) (headerRead : Int) : Option Int :=
  if 0 < srv.writeTimeout then some (headerRead + srv.writeTimeout) else none

/-- The executor that `buildDispatcher` makes. -/
def Config.executor (cfg : Config) : Executor :=
  newExecutor cfg.cr.fieldManager cfg.cr.syncTimeout

/-- Every result of a delivery that is applied at once and returns by the deadline of
    its wait comes before the write deadline. -/
def Delivered (cfg : Config) (ctx : RequestContext) (act : ApplyAction) : Prop :=
  ∀ cancel start sent applied tr x res,
    (clocked cfg.executor cancel start (execute ctx (.apply act))).run
      (clocked cfg.executor cancel start (execute ctx (.apply act))).init
      ((start, .object sent) :: (start, .object applied) :: tr) = some x →
    x.phase = .done res → x.now ≤ start + cfg.cr.syncTimeout →
    ∀ d, (newServer cfg.addr cfg).writeDeadline start = some d → x.now < d

/-- A delivery may wait until its deadline. -/
theorem run_until_deadline (e : Executor) (ctx : RequestContext) (act : ApplyAction)
    (obj : ClientObject) (he : 0 < e.syncTimeout) :
    ∃ x res, (clocked e none 0 (execute ctx (.apply act))).run
        (clocked e none 0 (execute ctx (.apply act))).init
        [(0, .object obj), (0, .object obj), (0, .failed ⟨.unknown, []⟩), (0, .watching),
          (e.syncTimeout, .done)] = some x ∧
      x.phase = .done res ∧ x.now = e.syncTimeout := by
  have halive : ended none (some (0 + e.syncTimeout)) 0 = false := by simp [ended, he]
  have hended : ended none (some (0 + e.syncTimeout)) e.syncTimeout = true := by simp [ended]
  refine ⟨_, _, Machine.run_cons_eq_some.mpr ⟨_, rfl, Machine.run_cons_eq_some.mpr ⟨_, rfl,
    Machine.run_cons_eq_some.mpr ⟨_, rfl, Machine.run_cons_eq_some.mpr ⟨_, if_pos ⟨le_refl _, ?_⟩,
      Machine.run_cons_eq_some.mpr ⟨_, if_pos ⟨he.le, hended⟩, rfl⟩⟩⟩⟩⟩, rfl, rfl⟩
  exact congrArg (!·) halive

theorem delivered_iff_lt {cfg : Config} (hw : 0 < cfg.writeTimeout) (hs : 0 < cfg.cr.syncTimeout)
    (ctx : RequestContext) (act : ApplyAction) :
    Delivered cfg ctx act ↔ cfg.cr.syncTimeout < cfg.writeTimeout := by
  have hd : ∀ start, (newServer cfg.addr cfg).writeDeadline start =
      some (start + cfg.writeTimeout) := fun _ => if_pos hw
  constructor
  · -- The run that waits until its deadline is the latest one.
    intro h
    obtain ⟨x, res, hrun, hx, hnow⟩ := run_until_deadline cfg.executor ctx act act.object hs
    have hle : x.now ≤ 0 + cfg.cr.syncTimeout := by
      rw [hnow, Int.zero_add]
      rfl
    have := h none 0 _ _ _ x res hrun hx hle _ (hd 0)
    rwa [hnow, Int.zero_add] at this
  · intro h cancel start sent applied tr x res _ _ hle d hd'
    obtain rfl := Option.some.inj ((hd start).symm.trans hd')
    exact lt_of_le_of_lt hle (Int.add_lt_add_left h start)

/-- For an accepted configuration with a write timeout, every answer is delivered
    exactly when the value of `WEBHOOK_CR_SYNC_TIMEOUT` is less than that of
    `WEBHOOK_WRITE_TIMEOUT`. -/
theorem delivered_iff {env : Env} {cfg : Config} (h : load env = .ok cfg)
    (hw : 0 < cfg.writeTimeout) (ctx : RequestContext) (act : ApplyAction) :
    Delivered cfg ctx act ↔ ∃ sync write, Setting.syncTimeout.value env = .ok sync ∧
      Setting.writeTimeout.value env = .ok write ∧ sync < write := by
  obtain ⟨hp, -, -, hv⟩ := load_ok h
  obtain ⟨-, hs, -⟩ := validate_ok hv
  rw [delivered_iff_lt hw hs]
  constructor
  · exact fun hlt => ⟨_, _, hp.syncTimeout, hp.writeTimeout, hlt⟩
  · rintro ⟨sync, write, hsync, hwrite, hlt⟩
    obtain rfl := Except.ok.inj (hp.syncTimeout.symm.trans hsync)
    obtain rfl := Except.ok.inj (hp.writeTimeout.symm.trans hwrite)
    exact hlt

theorem delivered_iff_sampleEnv :
    ∃ cfg, load (sampleEnv [(lit "WEBHOOK_CR_SYNC_TIMEOUT", lit "5s")]) = .ok cfg ∧
      cfg.providerEnabled (lit "jsm") ∧ 0 < cfg.writeTimeout ∧
      Delivered cfg sampleRequest.ctx sampleAction := by
  obtain ⟨cfg, hl, hp⟩ := load_of_any [("WEBHOOK_CR_SYNC_TIMEOUT", lit "5s")]
    (fun cfg => cfg.providerEnabled (lit "jsm") ∧ 0 < cfg.writeTimeout) (by decide +kernel)
  obtain ⟨hjsm, hw⟩ := of_decide_eq_true hp
  exact ⟨cfg, hl, hjsm, hw, (delivered_iff hl hw _ _).mpr
    ⟨5 * second, 10 * second, by decide +kernel, by decide +kernel, by decide⟩⟩

/-- By default an answer may come too late. -/
theorem default_undelivered :
    ∃ cfg, load (sampleEnv []) = .ok cfg ∧ cfg.providerEnabled (lit "jsm") ∧
      0 < cfg.writeTimeout ∧ ¬Delivered cfg sampleRequest.ctx sampleAction ∧
      cfg.writeTimeout ≤ cfg.cr.syncTimeout := by
  obtain ⟨cfg, hl, hjsm, hw, hs⟩ := load_sampleEnv
  have hle : cfg.writeTimeout ≤ cfg.cr.syncTimeout := by
    rw [hw, hs]
    decide
  have hpos : 0 < cfg.writeTimeout := by
    rw [hw]
    decide
  have hmem : lit "jsm" ∈ cfg.enabledProviders := hjsm ▸ List.mem_singleton.mpr rfl
  refine ⟨cfg, hl, hmem, hpos, fun h => ?_, hle⟩
  exact absurd ((delivered_iff_lt hpos (hpos.trans_le hle) _ _).mp h) (not_lt.mpr hle)

end Webhookd
