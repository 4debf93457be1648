import Webhookd.Lifecycle.Requests

/-!
# Termination

Once there is a reason to shut down, `run` comes to its end. It depends on no one:
`drainServers` and `shutdownTracerProvider` each wait for a deadline at the latest,
one after the other.

* `CanExit` says that `run` can go on by itself to its end, by an instant;
* `shutdown_terminates`: it can, within twice the timeout.
-/

namespace Webhookd

open Go

variable {d : Dispatcher} {timeout : Duration} {start : Int} {s : Pool.State Process Handling}

/-- The steps that `run` takes with nothing but the clock: where it waits, it waits for the
    deadline. -/
def ProcessStep.own : ProcessStep → Bool
  | .tick _ | .main | .ctxDone | .recv | .expire | .flushExpire => true
  | .signal | .shutdown _ | .flushed | .listen _ _ | .send _ => false

/-- `run` can go on by itself to its end, which it comes to by an instant. -/
inductive CanExit (timeout : Duration) (bound : Int) : Process → Prop
  | exited {g err} (h : g.main = .exited err) (hb : g.now ≤ bound) : CanExit timeout bound g
  | step {g g' x} (hm : ∀ err, g.main ≠ .exited err) (hx : x.own = true)
      (hs : g.step timeout x = some g') (h : CanExit timeout bound g') : CanExit timeout bound g

namespace CanExit

variable {g : Process} {bound : Int}

theorem exists_run (h : CanExit timeout bound s.shared) :
    ∃ (xs : List ProcessStep) (s' : _) (err : Option GoString), (∀ x ∈ xs, x.own = true) ∧
      (lifecycle d timeout start).machine.run s (xs.map .env) = some s' ∧
      s'.shared.main = .exited err ∧ s'.shared.now ≤ bound := by
  obtain ⟨g, procs⟩ := s
  simp only at h
  induction h with
  | exited h hb => exact ⟨[], _, _, nofun, rfl, h, hb⟩
  | @step g g' x hm hx hs _ ih =>
    obtain ⟨xs, s', err, hown, hrun, hexit⟩ := ih
    refine ⟨x :: xs, s', err, List.forall_mem_cons.mpr ⟨hx, hown⟩, ?_, hexit⟩
    exact Machine.run_cons_eq_some.mpr
      ⟨_, Pool.step_env.mpr ⟨g', (lifecycle_env_of hm x).trans hs, rfl⟩, hrun⟩

/-- A step that `run` takes without a choice. -/
theorem goOn {g' : Process} (hm : ∀ err, g.main ≠ .exited err) (hs : g.goOn timeout = some g')
    (h : CanExit timeout bound g') : CanExit timeout bound g :=
  .step (x := .main) hm rfl hs h

/-- The flush ends at its deadline at the latest. -/
theorem of_flush {err : Option GoString} {dl : Int} (hm : g.main = .flush err dl)
    (hb : g.now ≤ bound) (hdl : dl ≤ bound) : CanExit timeout bound g := by
  obtain ⟨now, cancelled, ready, errCh, listener, main, active, quiescent⟩ := g
  obtain rfl := hm
  refine .step (x := .tick (max now dl)) nofun rfl (if_pos (le_max_left ..)) ?_
  refine .step (x := .flushExpire) nofun rfl (if_pos (le_max_right ..)) ?_
  exact .exited rfl (max_le hb hdl)

/-- The drain of a server ends at the deadline at the latest, and the flush comes then. -/
theorem of_shutdownAdmin {err pubErr : Option GoString} {dl : Int}
    (hm : g.main = .shutdownAdmin err pubErr dl) (ht : 0 ≤ timeout)
    (hb : g.now + timeout ≤ bound) (hdl : dl + timeout ≤ bound) : CanExit timeout bound g := by
  obtain ⟨now, cancelled, ready, errCh, listener, main, active, quiescent⟩ := g
  obtain rfl := hm
  have hmax : max now dl + timeout ≤ bound := by
    simp only at hb
    omega
  refine .step (x := .tick (max now dl)) nofun rfl (if_pos (le_max_left ..)) ?_
  refine .step (x := .expire) nofun rfl (if_pos (le_max_right ..)) ?_
  exact of_flush rfl ((le_add_of_nonneg_right ht).trans hmax) hmax

theorem of_shutdownPublic {err : Option GoString} {dl : Int}
    (hm : g.main = .shutdownPublic err dl) (ht : 0 ≤ timeout)
    (hb : g.now + timeout ≤ bound) (hdl : dl + timeout ≤ bound) : CanExit timeout bound g := by
  obtain ⟨now, cancelled, ready, errCh, listener, main, active, quiescent⟩ := g
  obtain rfl := hm
  have hmax : max now dl + timeout ≤ bound := by
    simp only at hb
    omega
  refine .step (x := .tick (max now dl)) nofun rfl (if_pos (le_max_left ..)) ?_
  refine .step (x := .expire) nofun rfl (if_pos (le_max_right ..)) ?_
  exact of_shutdownAdmin rfl ht hmax hdl

theorem of_drain {err : Option GoString} (hm : g.main = .drain err) (ht : 0 ≤ timeout)
    (hb : g.now + timeout + timeout ≤ bound) : CanExit timeout bound g := by
  obtain ⟨now, cancelled, ready, errCh, listener, main, active, quiescent⟩ := g
  obtain rfl := hm
  exact .goOn nofun rfl (of_shutdownPublic rfl ht ((le_add_of_nonneg_right ht).trans hb) hb)

theorem of_storeNotReady {err : Option GoString} (hm : g.main = .storeNotReady err)
    (ht : 0 ≤ timeout) (hb : g.now + timeout + timeout ≤ bound) : CanExit timeout bound g := by
  obtain ⟨now, cancelled, ready, errCh, listener, main, active, quiescent⟩ := g
  obtain rfl := hm
  exact .goOn nofun rfl (of_drain rfl ht hb)

/-- The `select` goes on if there is a reason to. -/
theorem of_select (hm : g.main = .select)
    (hcause : g.cancelled.isSome = true ∨ g.errCh.buf ≠ []) (ht : 0 ≤ timeout)
    (hb : g.now + timeout + timeout ≤ bound) : CanExit timeout bound g := by
  obtain ⟨now, cancelled, ready, ⟨cap, buf⟩, listener, main, active, quiescent⟩ := g
  obtain rfl := hm
  rcases hcause with hc | hbuf
  · exact .step (x := .ctxDone) nofun rfl (if_pos hc) (of_storeNotReady rfl ht hb)
  · obtain ⟨err, buf, rfl⟩ := List.exists_cons_of_ne_nil hbuf
    exact .step (x := .recv) nofun rfl rfl (of_storeNotReady rfl ht hb)

end CanExit

/-- Once there is a reason to shut down, `run` can come to its end by itself within the
    budgets of the drain and of the flush, even if no request, no listener and no exporter
    ever goes on. -/
theorem shutdown_terminates (ht : 0 ≤ timeout)
    (hs : (lifecycle d timeout start).machine.Reachable s)
    (hrun : ∀ err, s.shared.main ≠ .exited err)
    (hcause : s.shared.cancelled.isSome = true ∨ s.shared.errCh.buf ≠ [] ∨
      3 < s.shared.main.stage) :
    ∃ (xs : List ProcessStep) (s' : _) (err : Option GoString), (∀ x ∈ xs, x.own = true) ∧
      (lifecycle d timeout start).machine.run s (xs.map .env) = some s' ∧
      s'.shared.main = .exited err ∧ s'.shared.now ≤ s.shared.now + 2 * timeout := by
  obtain ⟨hg, -⟩ := lifecycle_reachable hs
  rw [two_mul, ← add_assoc]
  refine CanExit.exists_run ?_
  obtain ⟨⟨now, cancelled, ready, errCh, listener, main, active, quiescent⟩, procs⟩ := s
  have hb : now + timeout ≤ now + timeout + timeout := le_add_of_nonneg_right ht
  -- There is a reason for the `select` to go on, if it is still to come.
  have hc : main.stage ≤ 3 → cancelled.isSome = true ∨ errCh.buf ≠ [] := fun hst =>
    hcause.imp_right fun h => h.resolve_right (not_lt.mpr hst)
  have hdl : ∀ dl, main.deadline? = some dl → dl + timeout ≤ now + timeout + timeout :=
    fun dl h => Int.add_le_add_right (hg.deadline dl h) timeout
  cases main with
  | startPublic =>
    exact .goOn nofun rfl (.goOn nofun rfl (.goOn nofun rfl
      (.of_select rfl (hc (by simp)) ht le_rfl)))
  | startAdmin =>
    exact .goOn nofun rfl (.goOn nofun rfl (.of_select rfl (hc (by simp)) ht le_rfl))
  | storeReady => exact .goOn nofun rfl (.of_select rfl (hc (by simp)) ht le_rfl)
  | select => exact .of_select rfl (hc (by simp)) ht le_rfl
  | storeNotReady err => exact .of_storeNotReady rfl ht le_rfl
  | drain err => exact .of_drain rfl ht le_rfl
  | shutdownPublic err dl => exact .of_shutdownPublic rfl ht hb (hdl dl rfl)
  | shutdownAdmin err pubErr dl => exact .of_shutdownAdmin rfl ht hb (hdl dl rfl)
  | flush err dl =>
    have hle : dl ≤ dl + timeout := le_add_of_nonneg_right ht
    exact .of_flush rfl ((le_add_of_nonneg_right ht).trans hb) (hle.trans (hdl dl rfl))
  | exited err => exact absurd rfl (hrun err)

/-- Requests that are never read do not keep the process. -/
theorem shutdown_terminates_sample :
    ∃ s s' err, (lifecycle sampleDispatcher (25 * second) 0).machine.run
        (lifecycle sampleDispatcher (25 * second) 0).machine.init
        [.env .main, .start 0 .publicSrv, .env .signal] = some s ∧
      s.procs 0 = some (.reading .publicSrv) ∧ ∃ xs : List ProcessStep,
        (lifecycle sampleDispatcher (25 * second) 0).machine.run s (xs.map .env) = some s' ∧
        s'.shared.main = .exited err ∧ s'.shared.now ≤ s.shared.now + 2 * (25 * second) := by
  obtain ⟨s, hs, hm, hc, hx⟩ : ∃ s, (lifecycle sampleDispatcher (25 * second) 0).machine.run
      (lifecycle sampleDispatcher (25 * second) 0).machine.init
      [.env .main, .start 0 .publicSrv, .env .signal] = some s ∧ s.shared.main = .startAdmin ∧
      s.shared.cancelled = some 0 ∧ s.procs 0 = some (.reading .publicSrv) :=
    ⟨_, rfl, rfl, rfl, rfl⟩
  obtain ⟨xs, s', err, -, hrun, hexit, hnow⟩ :=
    shutdown_terminates (by decide) ⟨_, hs⟩ (by simp [hm]) (.inl (by rw [hc]; rfl))
  exact ⟨s, s', err, hs, hx, xs, hrun, hexit, hnow⟩

end Webhookd
