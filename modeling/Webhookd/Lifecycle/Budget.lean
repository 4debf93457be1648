import Webhookd.Lifecycle.Requests

/-!
# The budget of the drain

`validate` makes the timeout of the drain longer than that of a wait for an object.
So a request that already waits when the drain begins has its deadline before that of
the drain.

* `drain_invariant`: during the drain of the public server, a wait keeps its
  deadline, and so does the drain;
* `drain_within_budget`: when the drain fails at its deadline, such a request is
  overdue by the difference of the two, if it is still in progress.
-/

namespace Webhookd

open Go

variable {d : Dispatcher} {timeout : Duration} {start : Int} {s : Pool.State Process Handling}

/-- A request whose object was applied, and which waits for it to become ready. -/
def Handling.Waits : Handling → Prop
  | .executing _ _ _ c => ¬Applying c.phase
  | _ => False

/-- The deadline of a request has passed for a while. -/
def Handling.Overdue (slack now : Int) : Handling → Prop
  | .executing _ _ _ c => ∃ dl, c.deadline = some dl ∧ dl + slack ≤ now
  | _ => False

/-- A wait that goes on keeps its deadline. -/
theorem Clocked.step_waits {e : Executor} {cancel : Option Int} {t : Int} {r : Reply}
    {x x' : Clocked} (h : x.step e cancel (t, r) = some x') (hx : ¬Applying x.phase)
    (hd : ∀ res, x'.phase ≠ .done res) : ¬Applying x'.phase ∧ x'.deadline = x.deadline := by
  obtain ⟨hr, -, hdl⟩ := Clocked.step_eq_some h
  obtain ⟨p, now, dl⟩ := x
  obtain ⟨p', now', dl'⟩ := x'
  cases hr with
  | patched | refetched => exact absurd (by constructor) hx
  | probedPending | probeFailed | watching | eventPending => exact ⟨nofun, hdl⟩
  | _ => exact absurd rfl (hd _)

/-- A request that waits with a deadline, unless it is over. -/
def WaitsUntil (dl : Int) (x : Handling) : Prop :=
  x.over = true ∨ ∃ prov ctx gone c, x = .executing prov ctx gone c ∧ ¬Applying c.phase ∧
    c.deadline = some dl

theorem WaitsUntil.step {i : Nat} {g g' : Process} {x x' : Handling} {l : HandlingStep} {dl : Int}
    (h : WaitsUntil dl x) (hs : Handles d i g x l x' g') : WaitsUntil dl x' := by
  rcases h with hover | ⟨prov, ctx, gone, c, rfl, hc, hdl⟩
  · cases hs <;> cases hover
  · cases hs with
    | left => exact .inr ⟨_, _, _, _, rfl, hc, hdl⟩
    | returned => exact .inl rfl
    | resumed hstep hd =>
      obtain ⟨hc', hdl'⟩ := Clocked.step_waits hstep hc hd
      exact .inr ⟨_, _, _, _, rfl, hc', hdl'.trans hdl⟩

/-- During the drain of the public server, a wait keeps its deadline, and so does the
    drain. -/
theorem drain_invariant (d : Dispatcher) (timeout : Duration) (start : Int) (i : Nat)
    (dl D : Int) :
    (lifecycle d timeout start).Invariant (fun _ => True)
      (fun g => 6 ≤ g.main.stage ∧ ∀ err dl, g.main = .shutdownPublic err dl → dl = D)
      (fun j x _ => j = i → ∃ h, x = some h ∧ WaitsUntil dl h) (fun _ _ _ => True) where
  start _ hg h hs := by
    obtain ⟨-, -, rfl⟩ := lifecycle_start hs
    refine ⟨hg, fun hj => ?_, trivial⟩
    obtain ⟨_, hn, -⟩ := h hj
    cases hn
  step _ hg h hs := by
    have hh := lifecycle_step hs
    refine ⟨?_, fun hj => ?_, trivial⟩
    · rwa [hh.main_eq.1]
    · obtain ⟨_, hx, hw⟩ := h hj
      exact ⟨_, rfl, (Option.some.inj hx ▸ hw).step hh⟩
  env {l g g'} _ hg hs := by
    have hst := (lifecycle_env hs).2
    refine ⟨⟨hg.1.trans hst.stage, fun err t hm => ?_⟩, trivial⟩
    cases hst with
    | tick | signal | listen | send => exact hg.2 err t hm
    | drain hd => exact absurd hg.1 (by simp [hd])
    | _ => cases hm
  stable _ _ h _ := h

/-- If the drain of the public server fails at its deadline, then the requests that waited
    for their objects when it began, and are still in progress, have been overdue for as
    long as the configuration leaves between the two timeouts. -/
theorem drain_within_budget {env : Env} {cfg : Config} (hcfg : load env = .ok cfg)
    (hd : d.executor = cfg.executor) {s₀ s₁ s' : Pool.State Process Handling}
    {ls : List (Pool.Label ServerName HandlingStep ProcessStep)} {err₀ err : Option GoString}
    {dl : Int}
    (h₀ : (lifecycle d cfg.shutdownTimeout start).machine.Reachable s₀)
    (hm₀ : s₀.shared.main = .drain err₀)
    (h₁ : (lifecycle d cfg.shutdownTimeout start).machine.step s₀ (.env .main) = some s₁)
    (hrun : (lifecycle d cfg.shutdownTimeout start).machine.run s₁ ls = some s)
    (hm : s.shared.main = .shutdownPublic err dl)
    (hexp : (lifecycle d cfg.shutdownTimeout start).machine.step s (.env .expire) = some s') :
    0 < cfg.shutdownTimeout - cfg.cr.syncTimeout ∧
    ∀ i x₀ x, s₀.procs i = some x₀ → x₀.Waits → s.procs i = some x → x.over = false →
      x.Overdue (cfg.shutdownTimeout - cfg.cr.syncTimeout) s.shared.now := by
  obtain ⟨-, hsync, hlt, -⟩ := validate_ok (load_ok hcfg).2.2.2
  have hle : dl ≤ s.shared.now := by
    obtain ⟨g, hg, -⟩ := Pool.step_env.mp hexp
    cases (lifecycle_env hg).2 with
    | expired hm' ht =>
      obtain ⟨-, rfl⟩ := Main.shutdownPublic.inj (hm.symm.trans hm')
      exact ht
    | expiredAdmin hm' => cases hm.symm.trans hm'
  refine ⟨sub_pos.mpr hlt, fun i x₀ x hx₀ hw hx hover => ?_⟩
  cases x₀ with
  | executing prov ctx gone c =>
    -- The wait had a deadline when the drain began, and both deadlines stay.
    obtain ⟨dl₀, hdl₀, hdle⟩ := (((lifecycle_reachable h₀).2 i).timed _ _ _ _ hx₀).resolve_left hw
    obtain ⟨g₁, hg₁, rfl⟩ := Pool.step_env.mp h₁
    obtain ⟨err₁, rfl⟩ : ∃ err, g₁ = { s₀.shared with
        main := .shutdownPublic err (s₀.shared.now + cfg.shutdownTimeout) } := by
      cases (lifecycle_env hg₁).2 with
      | drain => exact ⟨_, rfl⟩
      | startPublic h | startAdmin h | storeReady h | storeNotReady h => cases hm₀.symm.trans h
    have hinv := (drain_invariant d cfg.shutdownTimeout start i dl₀
      (s₀.shared.now + cfg.shutdownTimeout)).run (fun _ _ => trivial)
      ⟨⟨by simp, fun _ _ h => (Main.shutdownPublic.inj h).2.symm⟩, fun j hj =>
        ⟨_, hj ▸ hx₀, .inr ⟨_, _, _, _, rfl, hw, hdl₀⟩⟩⟩ hrun
    obtain ⟨_, hx', hwaits⟩ := hinv.2 i rfl
    obtain rfl := Option.some.inj (hx.symm.trans hx')
    obtain hover' | ⟨_, _, _, _, rfl, -, hdl⟩ := hwaits
    · exact absurd hover (by simp [hover'])
    · refine ⟨dl₀, hdl, ?_⟩
      have hD := hinv.1.2 _ _ hm
      have hdle : dl₀ ≤ s₀.shared.now + cfg.cr.syncTimeout := by rwa [hd] at hdle
      omega
  | _ => exact absurd hw id

/-- A request is dispatched. -/
theorem step_dispatch {i : Nat} {r : Request} {wall : Time} {prov : Provider} {p : Phase}
    (hm : ∀ err, s.shared.main ≠ .exited err) (hx : s.procs i = some (.reading .publicSrv))
    (h : serveHTTP d r wall = .executing prov p) :
    (lifecycle d timeout start).machine.step s (.step i (.dispatch r wall)) =
      some ⟨s.shared, Function.update s.procs i
        (some (.executing prov r.ctx none ⟨p, s.shared.now, none⟩))⟩ := by
  refine Pool.step_step.mpr ⟨_, hx, _, _, ?_, rfl⟩
  simp only [lifecycle, h]

/-- A request waits for its object, and does not go on. -/
theorem run_sampleWaiting :
    ∃ s₀ s₁ s s' err dl x₀ x, (lifecycle sampleDispatcher (25 * second) 0).machine.Reachable s₀ ∧
      s₀.shared.main = .drain err ∧
      (lifecycle sampleDispatcher (25 * second) 0).machine.step s₀ (.env .main) = some s₁ ∧
      (lifecycle sampleDispatcher (25 * second) 0).machine.run s₁ [.env (.tick (25 * second))] =
        some s ∧
      s.shared.main = .shutdownPublic err dl ∧
      (lifecycle sampleDispatcher (25 * second) 0).machine.step s (.env .expire) = some s' ∧
      s₀.procs 0 = some x₀ ∧ x₀.Waits ∧ s.procs 0 = some x ∧ x.over = false := by
  refine ⟨_, _, _, _, _, _, _, _, ⟨[.env .main, .env .main, .env .main, .start 0 .publicSrv,
    .step 0 (.dispatch sampleRequest (.unix 0)), .step 0 (.reply (.object sampleAction.object)),
    .step 0 (.reply (.object sampleAction.object)),
    .env (.listen .adminSrv (some (lit "address in use"))), .env (.send .adminSrv), .env .recv,
    .env .main], Machine.run_cons_eq_some.mpr ⟨_, rfl, Machine.run_cons_eq_some.mpr ⟨_, rfl,
      Machine.run_cons_eq_some.mpr ⟨_, rfl, Machine.run_cons_eq_some.mpr ⟨_, rfl,
        Machine.run_cons_eq_some.mpr ⟨_, step_dispatch nofun rfl serveHTTP_sampleRequest,
          rfl⟩⟩⟩⟩⟩⟩, rfl, rfl, rfl, rfl, rfl, rfl, nofun, rfl, rfl⟩

theorem drain_within_budget_sampleWaiting :
    ∃ cfg s x, load (sampleEnv []) = .ok cfg ∧
      (lifecycle sampleDispatcher cfg.shutdownTimeout 0).machine.Reachable s ∧
      s.procs 0 = some x ∧ x.over = false ∧
      x.Overdue (cfg.shutdownTimeout - cfg.cr.syncTimeout) s.shared.now := by
  obtain ⟨cfg, hl, hp⟩ := load_of_any [] (fun cfg => cfg.shutdownTimeout = 25 * second ∧
    cfg.cr.syncTimeout = 20 * second ∧ cfg.cr.fieldManager = lit "webhookd") (by decide +kernel)
  obtain ⟨hshut, hsync, hfm⟩ := of_decide_eq_true hp
  have hd : sampleDispatcher.executor = cfg.executor := by
    rw [Config.executor, hsync, hfm]
    rfl
  obtain ⟨s₀, s₁, s, s', err, dl, x₀, x, h₀, hm₀, h₁, hrun, hm, hexp, hx₀, hw, hx, hover⟩ :=
    run_sampleWaiting
  rw [← hshut] at h₀ h₁ hrun hexp
  exact ⟨cfg, s, x, hl, reachable_of_run (h₀.step h₁) hrun, hx, hover,
    (drain_within_budget hl hd h₀ hm₀ h₁ hrun hm hexp).2 0 x₀ x hx₀ hw hx hover⟩

end Webhookd
