import Webhookd.Cancellation
import Webhookd.Lifecycle.Process

/-!
# The process and its requests

The process is the shared state of a pool, and its goroutines are the environment
of the requests. Both servers serve requests meanwhile: those of the public server
run with their own clock (`Clocked`), under a context that the signal cancels; of
those of the admin server only where they are is kept.

A request is over for its server when its handler has returned. Whether the client
still gets the response is not said here: `net/http` may have given up on the
connection before (`WriteTimeout`).

* `Handles` lists the steps of a request;
* `Tracked` says that a server counts a request exactly as long as it is in
  progress;
* `listener_reports`: a listener that has stopped is never blocked;
* `readiness_window`: readiness comes once and goes once.
-/

namespace Webhookd

open Go

/-! ## Requests in progress -/

/-- Where a request is. -/
inductive Handling
  /-- Its connection is open, and it is still to be read. -/
  | reading (srv : ServerName)
  /-- In `Execute`. The context was cancelled on its own at `gone`, if the client left. -/
  | executing (prov : Provider) (ctx : RequestContext) (gone : Option Int) (x : Clocked)
  /-- In a handler of the admin server. -/
  | serving
  /-- The handler of the public server has returned. -/
  | returned (resp : Response)
  /-- The handler of the admin server has returned. -/
  | served
  /-- The connection was closed before the request was read. -/
  | dropped

/-- The server at which a request is in progress. -/
def Handling.server? : Handling → Option ServerName
  | .reading srv => some srv
  | .executing .. => some .publicSrv
  | .serving => some .adminSrv
  | .returned _ | .served | .dropped => none

/-- Nothing is left to do for the request. -/
def Handling.over (x : Handling) : Bool := x.server?.isNone

/-- What happens to a request next. -/
inductive HandlingStep
  /-- It was read, and is dispatched. The signature is verified by the wall clock. -/
  | dispatch (r : Request) (wall : Time)
  /-- It was read, and does not reach the dispatcher: the handlers before it respond. -/
  | respond (resp : Response)
  /-- It was read, and a handler of the admin server is called. -/
  | serve
  /-- The handler of the admin server returns. -/
  | return
  /-- Its connection is closed before it was read. -/
  | drop
  /-- The client leaves, which cancels its context. -/
  | leave
  | reply (r : Reply)

namespace Process

/-- A server counts a request in. -/
def begin (g : Process) (srv : ServerName) (i : Nat) : Process :=
  { g with active := Function.update g.active srv (insert i (g.active srv)) }

/-- A server counts a request out. -/
def finish (g : Process) (srv : ServerName) (i : Nat) : Process :=
  { g with active := Function.update g.active srv ((g.active srv).erase i) }

/-- One more request is in progress. -/
theorem mem_begin {g : Process} {srv srv' : ServerName} {i j : Nat} :
    j ∈ (g.begin srv i).active srv' ↔ j = i ∧ srv' = srv ∨ j ∈ g.active srv' := by
  rcases eq_or_ne srv' srv with rfl | h
  · simp [begin]
  · simp [begin, h]

/-- One less is. -/
theorem mem_finish {g : Process} {srv srv' : ServerName} {i j : Nat} :
    j ∈ (g.finish srv i).active srv' ↔ ¬(j = i ∧ srv' = srv) ∧ j ∈ g.active srv' := by
  rcases eq_or_ne srv' srv with rfl | h
  · simp [finish]
  · simp [finish, h]

end Process

/-- The process while it serves: `d` is the dispatcher, and `timeout` the budget of the
    drain and of the flush. All ends when `run` has returned. -/
def lifecycle (d : Dispatcher) (timeout : Duration) (start : Int) :
    Pool Process Handling ServerName HandlingStep ProcessStep where
  init := { now := start }
  start i srv g :=
    match g.main with
    | .exited _ => none
    | _ =>
      if g.listener srv = .idle ∨ g.quiescent srv then none
      else some (.reading srv, g.begin srv i)
  step i x l g :=
    match g.main, x, l with
    | .exited _, _, _ => none
    | _, .reading srv, .drop => some (.dropped, g.finish srv i)
    | _, .reading .publicSrv, .respond resp => some (.returned resp, g.finish .publicSrv i)
    | _, .reading .publicSrv, .dispatch r wall =>
      match serveHTTP d r wall with
      | .responded resp => some (.returned resp, g.finish .publicSrv i)
      | .executing prov p => some (.executing prov r.ctx none ⟨p, g.now, none⟩, g)
    | _, .executing prov ctx gone x, .leave =>
      some (.executing prov ctx (gone.or (some g.now)) x, g)
    | _, .executing prov ctx gone x, .reply r =>
      (x.step d.executor (Option.merge min g.cancelled gone) (g.now, r)).map fun x' =>
        match x'.phase with
        | .done res => (.returned (writeResponse prov ctx res), g.finish .publicSrv i)
        | _ => (.executing prov ctx gone x', g)
    | _, .reading .adminSrv, .serve => some (.serving, g)
    | _, .serving, .return => some (.served, g.finish .adminSrv i)
    | _, _, _ => none
  env l g :=
    match g.main with
    | .exited _ => none
    | _ => g.step timeout l

/-- The steps of a request, one by one. -/
inductive Handles (d : Dispatcher) (i : Nat) (g : Process) :
    Handling → HandlingStep → Handling → Process → Prop
  | dropped {srv} : Handles d i g (.reading srv) .drop .dropped (g.finish srv i)
  | refused {resp} : Handles d i g (.reading .publicSrv) (.respond resp) (.returned resp)
      (g.finish .publicSrv i)
  | responded {r wall resp} (h : serveHTTP d r wall = .responded resp) :
      Handles d i g (.reading .publicSrv) (.dispatch r wall) (.returned resp)
        (g.finish .publicSrv i)
  | dispatched {r wall prov p} (h : serveHTTP d r wall = .executing prov p) :
      Handles d i g (.reading .publicSrv) (.dispatch r wall)
        (.executing prov r.ctx none ⟨p, g.now, none⟩) g
  | left {prov ctx gone x} : Handles d i g (.executing prov ctx gone x) .leave
      (.executing prov ctx (gone.or (some g.now)) x) g
  | returned {prov ctx gone x x' r res}
      (h : x.step d.executor (Option.merge min g.cancelled gone) (g.now, r) = some x')
      (hd : x'.phase = .done res) : Handles d i g (.executing prov ctx gone x) (.reply r)
        (.returned (writeResponse prov ctx res)) (g.finish .publicSrv i)
  | resumed {prov ctx gone x x' r}
      (h : x.step d.executor (Option.merge min g.cancelled gone) (g.now, r) = some x')
      (hd : ∀ res, x'.phase ≠ .done res) : Handles d i g (.executing prov ctx gone x) (.reply r)
        (.executing prov ctx gone x') g
  | called : Handles d i g (.reading .adminSrv) .serve .serving g
  | served : Handles d i g .serving .return .served (g.finish .adminSrv i)

section

variable {d : Dispatcher} {timeout : Duration} {start : Int}

section

variable {i : Nat} {g g' : Process} {x x' : Handling}

/-- A request is begun on a server that is not quiescent. -/
theorem lifecycle_start {srv : ServerName}
    (h : (lifecycle d timeout start).start i srv g = some (x, g')) :
    g.quiescent srv = false ∧ x = .reading srv ∧ g' = g.begin srv i := by
  simp only [lifecycle] at h
  split at h
  · cases h
  · split_ifs at h with hq
    obtain ⟨rfl, rfl⟩ := Prod.mk.inj (Option.some.inj h)
    exact ⟨Bool.eq_false_iff.mpr fun e => hq (.inr e), rfl, rfl⟩

/-- The steps of a request are those that `Handles` lists. -/
theorem lifecycle_step {l : HandlingStep}
    (h : (lifecycle d timeout start).step i x l g = some (x', g')) : Handles d i g x l x' g' := by
  simp only [lifecycle] at h
  split at h
  · cases h
  · obtain ⟨rfl, rfl⟩ := Prod.mk.inj (Option.some.inj h)
    exact .dropped
  · obtain ⟨rfl, rfl⟩ := Prod.mk.inj (Option.some.inj h)
    exact .refused
  · split at h
    · obtain ⟨rfl, rfl⟩ := Prod.mk.inj (Option.some.inj h)
      exact .responded ‹_›
    · obtain ⟨rfl, rfl⟩ := Prod.mk.inj (Option.some.inj h)
      exact .dispatched ‹_›
  · obtain ⟨rfl, rfl⟩ := Prod.mk.inj (Option.some.inj h)
    exact .left
  · obtain ⟨x', hx, h⟩ := Option.map_eq_some_iff.mp h
    split at h
    · obtain ⟨rfl, rfl⟩ := Prod.mk.inj h
      exact .returned hx ‹_›
    · obtain ⟨rfl, rfl⟩ := Prod.mk.inj h
      exact .resumed hx ‹_›
  · obtain ⟨rfl, rfl⟩ := Prod.mk.inj (Option.some.inj h)
    exact .called
  · obtain ⟨rfl, rfl⟩ := Prod.mk.inj (Option.some.inj h)
    exact .served
  · cases h

/-- The process goes on until it has exited. -/
theorem lifecycle_env {l : ProcessStep} (h : (lifecycle d timeout start).env l g = some g') :
    (∀ err, g.main ≠ .exited err) ∧ g.Steps timeout l g' := by
  simp only [lifecycle] at h
  split at h
  · cases h
  · exact ⟨‹_›, Process.step_eq_some h⟩

theorem lifecycle_env_of (hm : ∀ err, g.main ≠ .exited err) (l : ProcessStep) :
    (lifecycle d timeout start).env l g = g.step timeout l := by
  simp only [lifecycle]

/-- A step of a request leaves the process alone, unless the request is over then: its
    server counts it out. -/
theorem Handles.process {l : HandlingStep} (h : Handles d i g x l x' g') :
    (g' = g ∧ x'.server? = x.server?) ∨
      ∃ srv, x.server? = some srv ∧ x'.server? = none ∧ g' = g.finish srv i := by
  cases h with
  | dropped | refused | responded | returned | served => exact .inr ⟨_, rfl, rfl, rfl⟩
  | dispatched | left | resumed | called => exact .inl ⟨rfl, rfl⟩

/-- It does not touch where `run` is, nor the clock. -/
theorem Handles.main_eq {l : HandlingStep} (h : Handles d i g x l x' g') :
    g'.main = g.main ∧ g'.now = g.now := by
  rcases h.process with ⟨rfl, -⟩ | ⟨srv, -, -, rfl⟩ <;> exact ⟨rfl, rfl⟩

end

/-! ## What holds of a request -/

/-- An execution is applying, or has a deadline. -/
def Clocked.Timed (e : Executor) (now : Int) (x : Clocked) : Prop :=
  Applying x.phase ∨ ∃ dl, x.deadline = some dl ∧ dl ≤ now + e.syncTimeout

/-- A deadline only comes closer. -/
theorem Clocked.Timed.mono {e : Executor} {now now' : Int} {x : Clocked} (h : x.Timed e now)
    (hle : now ≤ now') : x.Timed e now' := by
  rcases h with h | ⟨dl, hdl, hd⟩
  · exact .inl h
  · exact .inr ⟨dl, hdl, hd.trans (Int.add_le_add_right hle _)⟩

/-- The deadline is set when `waitForSync` begins, and then stays. -/
theorem Clocked.Timed.step {e : Executor} {cancel : Option Int} {t : Int} {r : Reply}
    {x x' : Clocked} (h : x.Timed e t) (hs : x.step e cancel (t, r) = some x')
    (hd : ∀ res, x'.phase ≠ .done res) : x'.Timed e t := by
  obtain ⟨hr, -, hdl⟩ := Clocked.step_eq_some hs
  obtain ⟨p, now, dl⟩ := x
  obtain ⟨p', now', dl'⟩ := x'
  cases hr with
  | patched => exact .inl .refetch
  | refetched => exact .inr ⟨_, hdl, le_rfl⟩
  | probedPending | probeFailed | watching | eventPending =>
    refine .inr ?_
    rw [show dl' = dl from hdl]
    exact h.resolve_left nofun
  | _ => exact absurd rfl (hd _)

/-- A server counts a request exactly as long as it is in progress there, and its
    execution is timed. -/
structure Tracked (e : Executor) (i : Nat) (x : Option Handling) (g : Process) : Prop where
  active : ∀ srv, i ∈ g.active srv ↔ ∃ h, x = some h ∧ h.server? = some srv
  timed : ∀ prov ctx gone c, x = some (.executing prov ctx gone c) → c.Timed e g.now

variable {i : Nat} {g g' : Process} {x x' : Handling} {l : HandlingStep}

/-- The servers still count a request as they should. -/
theorem Handles.active (hs : Handles d i g x l x' g')
    (h : ∀ srv, i ∈ g.active srv ↔ x.server? = some srv) (srv : ServerName) :
    i ∈ g'.active srv ↔ x'.server? = some srv := by
  rcases hs.process with ⟨rfl, hx⟩ | ⟨srv', hx, hx', rfl⟩
  · rw [h, hx]
  · rw [Process.mem_finish, h, hx, hx']
    refine iff_of_false (fun ⟨hne, he⟩ => hne ⟨rfl, ?_⟩) nofun
    exact (Option.some.inj he).symm

/-- An execution stays timed, whatever step its request takes. -/
theorem Handles.timed (hs : Handles d i g x l x' g')
    (h : ∀ prov ctx gone c, x = .executing prov ctx gone c → c.Timed d.executor g.now)
    {prov : Provider} {ctx : RequestContext} {gone : Option Int} {c : Clocked}
    (hx : x' = .executing prov ctx gone c) : c.Timed d.executor g.now := by
  cases hs with
  | dispatched hserve =>
    obtain ⟨rfl, rfl, rfl, rfl⟩ := Handling.executing.inj hx
    obtain ⟨-, -, -, -, act, -, rfl⟩ := serveHTTP_executing hserve
    exact .inl .patch
  | left =>
    obtain ⟨rfl, rfl, rfl, rfl⟩ := Handling.executing.inj hx
    exact h _ _ _ _ rfl
  | resumed hstep hd =>
    obtain ⟨rfl, rfl, rfl, rfl⟩ := Handling.executing.inj hx
    exact (h _ _ _ _ rfl).step hstep hd
  | _ => cases hx

/-- A request is in progress on its server until it is over. -/
theorem Tracked.step (h : Tracked d.executor i (some x) g) (hs : Handles d i g x l x' g') :
    Tracked d.executor i (some x') g' where
  active srv := by
    have hx := hs.active (fun srv => by simpa using h.active srv) srv
    simpa using hx
  timed prov ctx gone c hx := by
    rw [hs.main_eq.2]
    exact hs.timed (fun _ _ _ _ e => h.timed _ _ _ _ (congrArg some e)) (Option.some.inj hx)

/-- A server without requests is quiescent still when a request is counted out. -/
theorem Process.Good.finish {srv : ServerName} (hg : g.Good timeout) :
    (g.finish srv i).Good timeout :=
  { hg with
    quiet := fun name hq => by
      refine Finset.eq_empty_of_forall_notMem fun j hj => ?_
      have hin := (Process.mem_finish.mp hj).2
      rw [hg.quiet name hq] at hin
      exact Finset.notMem_empty j hin }

/-- Only a server that is not quiescent counts a request in. -/
theorem Process.Good.begin {srv : ServerName} (hg : g.Good timeout)
    (hq : g.quiescent srv = false) : (g.begin srv i).Good timeout :=
  { hg with
    quiet := fun name hn => by
      have hne : name ≠ srv := by
        rintro rfl
        exact Bool.false_ne_true (hq.symm.trans hn)
      refine Finset.eq_empty_of_forall_notMem fun j hj => ?_
      have hin := (Process.mem_begin.mp hj).resolve_left fun h => hne h.2
      rw [hg.quiet name hn] at hin
      exact Finset.notMem_empty j hin }

/-- The process is good, and its requests are tracked. -/
theorem lifecycle_invariant (d : Dispatcher) (timeout : Duration) (start : Int) :
    (lifecycle d timeout start).Invariant (fun _ => True) (Process.Good timeout)
      (Tracked d.executor)
      (fun j g g' => g.now ≤ g'.now ∧
        ∀ i, some i ≠ j → ∀ srv, i ∈ g'.active srv ↔ i ∈ g.active srv) where
  start {i srv g x g'} _ hg h hs := by
    obtain ⟨hq, rfl, rfl⟩ := lifecycle_start hs
    refine ⟨hg.begin hq, ⟨fun srv' => ?_, ?_⟩, le_rfl, fun j hj srv' => ?_⟩
    · -- It was not counted before, as it was not there.
      have hnot : i ∉ g.active srv' := fun hin => by
        obtain ⟨_, hn, -⟩ := (h.active srv').mp hin
        cases hn
      simp [Process.mem_begin, hnot, Handling.server?, eq_comm]
    · rintro _ _ _ _ ⟨⟩
    · exact Process.mem_begin.trans (or_iff_right fun e => hj (congrArg some e.1))
  step {i l g x x' g'} _ hg h hs := by
    have hh := lifecycle_step hs
    have ht := h.step hh
    rcases hh.process with ⟨rfl, -⟩ | ⟨srv, -, -, rfl⟩
    · exact ⟨hg, ht, le_rfl, fun _ _ _ => Iff.rfl⟩
    · refine ⟨hg.finish, ht, le_rfl, fun j hj srv' => ?_⟩
      exact Process.mem_finish.trans (and_iff_right fun e => hj (congrArg some e.1))
  env {l g g'} _ hg hs := by
    obtain ⟨-, hst⟩ := lifecycle_env hs
    refine ⟨hst.good hg, hst.now, fun i _ srv => ?_⟩
    rw [hst.active]
  stable {i j x g g'} hij _ h hr := by
    refine ⟨fun srv => (hr.2 i hij srv).trans (h.active srv), fun prov ctx gone c hx => ?_⟩
    exact (h.timed prov ctx gone c hx).mono hr.1

/-! ## What holds of every run -/

section

variable {s s' : Pool.State Process Handling}

/-- So it is in every state that it reaches. -/
theorem lifecycle_reachable (hs : (lifecycle d timeout start).machine.Reachable s) :
    s.shared.Good timeout ∧ ∀ i, Tracked d.executor i (s.procs i) s.shared := by
  have hi : ∀ i, Tracked d.executor i none { now := start } := fun i =>
    ⟨fun srv => iff_of_false (Finset.notMem_empty i) (by simp), fun _ _ _ _ h => by cases h⟩
  exact (lifecycle_invariant d timeout start).reachable (Process.good_init timeout start) hi hs

/-- `run` only goes on. -/
theorem stage_le_of_run {ls : List (Pool.Label ServerName HandlingStep ProcessStep)}
    (h : (lifecycle d timeout start).machine.run s ls = some s') :
    s.shared.main.stage ≤ s'.shared.main.stage := by
  have inv : (lifecycle d timeout start).Invariant (fun _ => True)
      (fun g => s.shared.main.stage ≤ g.main.stage) (fun _ _ _ => True) (fun _ _ _ => True) :=
    { start := fun _ hg _ hs => by
        obtain ⟨-, -, rfl⟩ := lifecycle_start hs
        exact ⟨hg, trivial, trivial⟩
      step := fun _ hg _ hs => by
        rw [← (lifecycle_step hs).main_eq.1] at hg
        exact ⟨hg, trivial, trivial⟩
      env := fun _ hg hs => ⟨hg.trans (lifecycle_env hs).2.stage, trivial⟩
      stable := fun _ _ _ _ => trivial }
  exact (inv.run (fun _ _ => trivial) ⟨le_rfl, fun _ => trivial⟩ h).1

theorem reachable_of_run {ls : List (Pool.Label ServerName HandlingStep ProcessStep)}
    (hs : (lifecycle d timeout start).machine.Reachable s)
    (h : (lifecycle d timeout start).machine.run s ls = some s') :
    (lifecycle d timeout start).machine.Reachable s' := by
  obtain ⟨ls₀, h₀⟩ := hs
  exact ⟨ls₀ ++ ls, Machine.run_append_eq_some.mpr ⟨s, h₀, h⟩⟩

/-- Until the process exits, a listener that has stopped never blocks: it can report at
    once, whatever the rest of the process does. Unless `Shutdown` was called on its
    server, it reports an error. -/
theorem listener_reports (hs : (lifecycle d timeout start).machine.Reachable s)
    (hm : ∀ err, s.shared.main ≠ .exited err) {name : ServerName} {err : Option GoString}
    (hl : s.shared.listener name = .sending err) :
    (∃ s', (lifecycle d timeout start).machine.step s (.env (.send name)) = some s' ∧
      s'.shared.listener name = .finished) ∧
    (s.shared.main.closing name = false → err ≠ none) := by
  obtain ⟨hg, -⟩ := lifecycle_reachable hs
  refine ⟨?_, fun hc herr => hg.sends name hc (herr ▸ hl)⟩
  have hset := s.shared.unreported_setListener name .finished
  have hroom : s.shared.errCh.Room ((s.shared.setListener name .finished).unreported + 1) :=
    hg.room.mono (by simp only [hl, ListenerState.unreported] at hset; omega)
  obtain ⟨errCh, hsend⟩ := hroom.exists_send err
  refine ⟨_, Pool.step_env.mpr ⟨{ s.shared.setListener name .finished with errCh }, ?_, rfl⟩, ?_⟩
  · simp only [lifecycle_env_of hm, Process.step, hl, hsend, Option.map_some]
  · exact Function.update_self ..

/-- The admin listener fails while the public server is being drained, and has not
    reported it yet. -/
def sampleUnbound : List (Pool.Label ServerName HandlingStep ProcessStep) :=
  [.env .main, .env .main, .env .main, .env .signal, .env .ctxDone, .env .main, .env .main,
    .env (.listen .adminSrv (some (lit "too many open files")))]

theorem listener_reports_sampleUnbound :
    ∃ s err, (lifecycle sampleDispatcher (25 * second) 0).machine.Reachable s ∧
      s.shared.main.closing .publicSrv = true ∧
      s.shared.listener .adminSrv = .sending err ∧ err ≠ none ∧
      ∃ s', (lifecycle sampleDispatcher (25 * second) 0).machine.step s (.env (.send .adminSrv)) =
        some s' := by
  obtain ⟨s, hs, hm, hl⟩ : ∃ s, (lifecycle sampleDispatcher (25 * second) 0).machine.run
      (lifecycle sampleDispatcher (25 * second) 0).machine.init sampleUnbound = some s ∧
      s.shared.main = .shutdownPublic none (25 * second) ∧ s.shared.listener .adminSrv =
        .sending (some (lit "admin listener: too many open files")) := ⟨_, rfl, rfl, rfl⟩
  obtain ⟨⟨s', hs', -⟩, hne⟩ := listener_reports ⟨_, hs⟩ (by simp [hm]) hl
  exact ⟨s, _, ⟨_, hs⟩, by rw [hm]; rfl, hl, hne (by rw [hm]; rfl), s', hs'⟩

/-- Readiness comes once and goes once. While the process is ready, both listeners were
    started and `Shutdown` was called on none; and once it has withdrawn its readiness, it
    is never ready again. -/
theorem readiness_window (hs : (lifecycle d timeout start).machine.Reachable s)
    (hr : s.shared.ready = true) :
    (∀ name, s.shared.listener name ≠ .idle ∧ s.shared.main.closing name = false) ∧
    ∀ {ls ls' s₁ s₂}, (lifecycle d timeout start).machine.run s ls = some s₁ →
      s₁.shared.ready = false → (lifecycle d timeout start).machine.run s₁ ls' = some s₂ →
      s₂.shared.ready = false := by
  obtain ⟨hg, -⟩ := lifecycle_reachable hs
  have hst := hg.ready.mp hr
  refine ⟨fun name => ⟨fun hidle => ?_, Bool.eq_false_iff.mpr fun hc => ?_⟩, ?_⟩
  · have := (hg.idle name).mp hidle
    cases name <;> simp only [ServerName.stage] at this <;> omega
  · have := Main.closing_eq_true.mp hc
    have := Main.six_le_closedAt name
    omega
  · intro ls ls' s₁ s₂ h₁ hr₁ h₂
    have hs₁ := reachable_of_run hs h₁
    have hg₁ := (lifecycle_reachable hs₁).1
    have hg₂ := (lifecycle_reachable (reachable_of_run hs₁ h₂)).1
    rw [← Bool.not_eq_true, hg₁.ready] at hr₁
    rw [← Bool.not_eq_true, hg₂.ready]
    have := stage_le_of_run h₁
    have := stage_le_of_run h₂
    omega

theorem readiness_window_sampleLife :
    ∃ s s', (lifecycle sampleDispatcher (25 * second) 0).machine.Reachable s ∧
      s.shared.ready = true ∧
      (lifecycle sampleDispatcher (25 * second) 0).machine.run s
        [.env .signal, .env .ctxDone, .env .main, .env .main] = some s' ∧
      s'.shared.ready = false := by
  obtain ⟨s, s₁, s', hs, hr, h₁, hr₁, h₂⟩ :
      ∃ s s₁ s', (lifecycle sampleDispatcher (25 * second) 0).machine.run
        (lifecycle sampleDispatcher (25 * second) 0).machine.init
        [.env .main, .env .main, .env .main] = some s ∧ s.shared.ready = true ∧
      (lifecycle sampleDispatcher (25 * second) 0).machine.run s
        [.env .signal, .env .ctxDone, .env .main] = some s₁ ∧ s₁.shared.ready = false ∧
      (lifecycle sampleDispatcher (25 * second) 0).machine.run s₁ [.env .main] = some s' :=
    ⟨_, _, _, rfl, rfl, rfl, rfl, rfl⟩
  exact ⟨s, s', ⟨_, hs⟩, hr, Machine.run_append_eq_some.mpr ⟨s₁, h₁, h₂⟩,
    (readiness_window ⟨_, hs⟩ hr).2 h₁ hr₁ h₂⟩

end

end

end Webhookd
