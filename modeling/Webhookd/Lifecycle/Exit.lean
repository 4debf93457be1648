import Webhookd.Lifecycle.Requests

/-!
# The exit code

`realMain` exits with code 0 if `run` returns no error. What comes to it is the
error that the `select` of `waitForShutdown` receives, or an error of one of the
calls of `Shutdown`. An error of a listener that the `select` does not receive,
since the signal came first, is left in the channel.

* `exit_clean_iff`: the code is 0 exactly when the signal was taken, and both
  servers were shut down without an error;
* `exit_handlers_returned`: no handler of either server runs then.
-/

namespace Webhookd

open Go

variable {d : Dispatcher} {timeout : Duration} {start : Int}
  {ls : List (Pool.Label ServerName HandlingStep ProcessStep)}
  {l : Pool.Label ServerName HandlingStep ProcessStep} {s : Pool.State Process Handling}

/-- Both servers were shut down without an error. -/
def NoFailure (ls : List (Pool.Label ServerName HandlingStep ProcessStep)) : Prop :=
  (∀ e, .env (.shutdown (some e)) ∉ ls) ∧ .env .expire ∉ ls

/-- What the steps so far say about where `run` is. -/
def Explains (ls : List (Pool.Label ServerName HandlingStep ProcessStep)) : Main → Prop
  | .startPublic | .startAdmin | .storeReady | .select => .env .ctxDone ∉ ls ∧ NoFailure ls
  | .storeNotReady err | .drain err | .shutdownPublic err _ =>
    (err = none ↔ .env .ctxDone ∈ ls) ∧ NoFailure ls
  | .shutdownAdmin err pubErr _ =>
    (err = none ↔ .env .ctxDone ∈ ls) ∧ (pubErr = none ↔ NoFailure ls)
  | .flush err _ | .exited err => err = none ↔ .env .ctxDone ∈ ls ∧ NoFailure ls

/-- A run without failures goes on with a step that is none. -/
theorem noFailure_concat :
    NoFailure (ls ++ [l]) ↔
      NoFailure ls ∧ (∀ e, l ≠ .env (.shutdown (some e))) ∧ l ≠ .env .expire := by
  simp only [NoFailure, List.mem_append, List.mem_singleton, not_or, forall_and, ne_comm (b := l)]
  tauto

/-- Steps that neither take `ctx.Done()` nor shut a server down explain nothing new. -/
theorem Explains.concat {m : Main} (h : Explains ls m) (hc : l ≠ .env .ctxDone)
    (hs : ∀ e, l ≠ .env (.shutdown (some e))) (he : l ≠ .env .expire) :
    Explains (ls ++ [l]) m := by
  have hmem : .env .ctxDone ∈ ls ++ [l] ↔ .env .ctxDone ∈ ls := by simp [hc.symm]
  have hnf : NoFailure (ls ++ [l]) ↔ NoFailure ls := by simp [noFailure_concat, hs, he]
  cases m <;> simpa only [Explains, hmem, hnf] using h

/-- A step of the process is explained by the run up to it. -/
theorem Explains.step {g g' : Process} {l : ProcessStep} (h : Explains ls g.main)
    (hg : g.Good timeout) (hs : g.Steps timeout l g') : Explains (ls ++ [.env l]) g'.main := by
  cases hs with
  | tick | signal | listen | send => exact h.concat (by simp) (by simp) (by simp)
  | startPublic hm | startAdmin hm | storeReady hm | storeNotReady hm | drain hm | flushed hm
  | flushExpired hm =>
    rw [hm] at h
    exact Explains.concat h (by simp) (by simp) (by simp)
  | ctxDone hm =>
    rw [hm] at h
    exact ⟨by simp, noFailure_concat.mpr ⟨h.2, by simp⟩⟩
  | @recv err errCh hm hr =>
    rw [hm] at h
    -- What is received comes from a listener, before `Shutdown` is called.
    have herr : err ≠ none := by
      rintro rfl
      refine hg.received (by simp [hm]) ?_
      rw [(Chan.recv_eq_some.mp hr).1]
      exact List.mem_cons_self
    exact ⟨iff_of_false herr (by simpa using h.1), noFailure_concat.mpr ⟨h.2, by simp⟩⟩
  | drained hm =>
    rw [hm] at h
    refine ⟨h.1.trans (by simp), ?_⟩
    simp [noFailure_concat, h.2, Option.eq_none_iff_forall_ne_some]
  | @drainedAdmin err pubErr lnerr dl hm =>
    rw [hm] at h
    obtain ⟨herr, hpub⟩ := h
    refine shutdownErr_eq_none.trans ?_
    rw [herr, hpub, noFailure_concat]
    cases lnerr <;> simp [and_comm]
  | expired hm =>
    rw [hm] at h
    exact ⟨h.1.trans (by simp), iff_of_false nofun (by simp [noFailure_concat])⟩
  | expiredAdmin hm =>
    rw [hm] at h
    exact iff_of_false (by simp [shutdownErr_eq_none]) (by simp [noFailure_concat])

/-- Every state is explained by the run that has led to it. -/
theorem explains_run
    (h : (lifecycle d timeout start).machine.run (lifecycle d timeout start).machine.init ls =
      some s) : Explains ls s.shared.main := by
  have hinit : Explains [] (lifecycle d timeout start).machine.init.shared.main :=
    ⟨List.not_mem_nil, fun _ => List.not_mem_nil, List.not_mem_nil⟩
  refine (Machine.run_trace
    (P := fun ls s => (lifecycle d timeout start).machine.Reachable s ∧ Explains ls s.shared.main)
    (fun {ls s l s'} hs hst => ⟨hs.1.step hst, ?_⟩) ⟨⟨[], rfl⟩, hinit⟩ h).2
  obtain ⟨hr, he⟩ := hs
  cases l with
  | start i a =>
    obtain ⟨-, x, g, hx, rfl⟩ := Pool.step_start.mp hst
    obtain ⟨-, -, rfl⟩ := lifecycle_start hx
    exact he.concat (by simp) (by simp) (by simp)
  | step i l =>
    obtain ⟨x, -, x', g, hx, rfl⟩ := Pool.step_step.mp hst
    simp only [(lifecycle_step hx).main_eq.1]
    exact he.concat (by simp) (by simp) (by simp)
  | env l =>
    obtain ⟨g, hg, rfl⟩ := Pool.step_env.mp hst
    exact he.step (lifecycle_reachable hr).1 (lifecycle_env hg).2

/-- The process exits with code 0 exactly when its `select` took the signal, and both
    servers were shut down without an error: an error that the `select` receives from a
    listener ends in code 1. -/
theorem exit_clean_iff {err : Option GoString}
    (h : (lifecycle d timeout start).machine.run (lifecycle d timeout start).machine.init ls =
      some s) (hs : s.shared.main = .exited err) :
    realMain err = 0 ↔ .env .ctxDone ∈ ls ∧ NoFailure ls := by
  have he := explains_run h
  rw [hs] at he
  exact realMain_eq_zero.trans he

/-- The process serves a request for an unknown provider and one for its metrics, and is
    stopped by the signal. The admin listener fails on the way, unnoticed. -/
def sampleLife : List (Pool.Label ServerName HandlingStep ProcessStep) :=
  [.env .main, .env .main, .env .main, .start 0 .publicSrv, .start 1 .adminSrv,
    .step 0 (.dispatch { sampleRequest with provider := lit "x" } (.unix 0)), .step 1 .serve,
    .env .signal, .env .ctxDone, .env (.listen .adminSrv (some (lit "too many open files"))),
    .env (.send .adminSrv), .env .main, .env .main, .env (.shutdown none),
    .env (.listen .publicSrv none), .step 1 .return, .env (.shutdown none), .env .flushed]

theorem run_sampleLife :
    ∃ s, (lifecycle sampleDispatcher (25 * second) 0).machine.run
        (lifecycle sampleDispatcher (25 * second) 0).machine.init sampleLife = some s ∧
      s.shared.main = .exited none ∧
      s.procs 0 = some (.returned ⟨404, .text "unknown provider"⟩) := ⟨_, rfl, rfl, rfl⟩

theorem exit_clean_iff_sampleLife :
    ∃ s, (lifecycle sampleDispatcher (25 * second) 0).machine.run
        (lifecycle sampleDispatcher (25 * second) 0).machine.init sampleLife = some s ∧
      s.shared.main = .exited none ∧ .env .ctxDone ∈ sampleLife ∧ NoFailure sampleLife := by
  obtain ⟨s, hs, hm, -⟩ := run_sampleLife
  exact ⟨s, hs, hm, (exit_clean_iff hs hm).mp rfl⟩

/-- When the process exits with code 0, no handler is cut off: of each request to either
    server, the handler has returned, unless the connection was closed before the request
    was read. -/
theorem exit_handlers_returned (hs : (lifecycle d timeout start).machine.Reachable s)
    {err : Option GoString} (hm : s.shared.main = .exited err) (hcode : realMain err = 0)
    {i : Nat} {x : Handling} (hx : s.procs i = some x) :
    x = .dropped ∨ x = .served ∨ ∃ resp, x = .returned resp := by
  obtain ⟨hg, ht⟩ := lifecycle_reachable hs
  have hempty : ∀ srv, s.shared.active srv = ∅ := fun srv =>
    hg.quiet srv (hg.drained srv (by rw [hm, realMain_eq_zero.mp hcode]; cases srv <;> rfl))
  have hover : ∀ srv, x.server? ≠ some srv := fun srv hsrv => by
    have hin := ((ht i).active srv).mpr ⟨x, hx, hsrv⟩
    rw [hempty srv] at hin
    exact Finset.notMem_empty i hin
  cases x with
  | reading srv => exact absurd rfl (hover srv)
  | executing => exact absurd rfl (hover .publicSrv)
  | serving => exact absurd rfl (hover .adminSrv)
  | returned resp => exact .inr (.inr ⟨resp, rfl⟩)
  | served => exact .inr (.inl rfl)
  | dropped => exact .inl rfl

theorem exit_handlers_returned_sampleLife :
    ∃ s x, (lifecycle sampleDispatcher (25 * second) 0).machine.Reachable s ∧
      s.shared.main = .exited none ∧ s.procs 0 = some x ∧
      (x = .dropped ∨ x = .served ∨ ∃ resp, x = .returned resp) := by
  obtain ⟨s, hs, hm, hx⟩ := run_sampleLife
  exact ⟨s, _, ⟨_, hs⟩, hm, hx, exit_handlers_returned ⟨_, hs⟩ hm rfl hx⟩

end Webhookd
