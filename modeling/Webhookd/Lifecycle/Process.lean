import Mathlib.Data.Finset.Insert
import Webhookd.Go.Chan
import Webhookd.Go.Time

/-!
# The process

`main.go`, from the start of the listeners on: `startServer` runs each of them in
a goroutine that reports on `errCh` when it ends, `waitForShutdown` waits for the
signal or such a report, withdraws readiness and drains the servers, and
`realMain` turns the error into an exit code. The spans are flushed before `run`
returns, with a deadline of their own.

Of `net/http` it is assumed that `ListenAndServe` returns `ErrServerClosed` only
after `Shutdown` was called; that `Shutdown` returns the error of closing the
listeners when it finds no request left and none can come, or the error of its
context once that has ended. It looks for requests from time to time only, so that
it may return the error of its context although none is left. Of the tracer
provider it is assumed that its `Shutdown` returns when its context has ended.

* `Process.Steps` lists the steps of the goroutines, and `Process.step_eq_some`
  says that there are no others;
* `Process.Good` is what holds of the process at any time, and `Process.Steps.good`
  says that every step keeps it.
-/

namespace Webhookd

open Go

/-! ## Where the goroutines are -/

/-- The two servers. -/
inductive ServerName
  | publicSrv
  | adminSrv
  deriving DecidableEq

/-- The name in the errors of a listener. -/
def ServerName.text : ServerName → GoString
  | .publicSrv => lit "public"
  | .adminSrv => lit "admin"

/-- Where the goroutine of `startServer` is. An error is its text, and `none` is `nil`. -/
inductive ListenerState
  | idle
  /-- In `ListenAndServe`. -/
  | serving
  /-- At `errCh <- err`. -/
  | sending (err : Option GoString)
  | finished
  deriving DecidableEq

/-- Where `run` is, once the handlers are built. -/
inductive Main
  /-- `startServer(publicSrv, ...)` -/
  | startPublic
  /-- `startServer(adminSrv, ...)` -/
  | startAdmin
  /-- `ready.Store(true)` -/
  | storeReady
  /-- The `select` of `waitForShutdown`. -/
  | select
  /-- `ready.Store(false)` -/
  | storeNotReady (listenErr : Option GoString)
  /-- `drainServers`, up to its first call. -/
  | drain (listenErr : Option GoString)
  /-- In `publicSrv.Shutdown`, with the deadline of the context. -/
  | shutdownPublic (listenErr : Option GoString) (deadline : Int)
  /-- In `adminSrv.Shutdown`. -/
  | shutdownAdmin (listenErr pubErr : Option GoString) (deadline : Int)
  /-- In the deferred `shutdownTracerProvider`, whose error is only logged. -/
  | flush (err : Option GoString) (deadline : Int)
  | exited (err : Option GoString)
  deriving DecidableEq

/-- `Shutdown` was called on a server. -/
def Main.closing : Main → ServerName → Bool
  | .shutdownPublic _ _, .publicSrv => true
  | .shutdownAdmin _ _ _, _ | .flush _ _, _ | .exited _, _ => true
  | _, _ => false

/-- The error of `waitForShutdown`. -/
def shutdownErr (pubErr admErr listenErr : Option GoString) : Option GoString :=
  match pubErr, admErr with
  | some e, _ => some (lit "public shutdown: " ++ e)
  | none, some e => some (lit "admin shutdown: " ++ e)
  | none, none => listenErr

/-- It is `nil` if nothing went wrong. -/
theorem shutdownErr_eq_none {pubErr admErr listenErr : Option GoString} :
    shutdownErr pubErr admErr listenErr = none ↔
      pubErr = none ∧ admErr = none ∧ listenErr = none := by
  cases pubErr <;> cases admErr <;> simp [shutdownErr]

/-- `realMain`: the exit code of an error of `run`. -/
def realMain : Option GoString → Nat
  | some _ => 1
  | none => 0

theorem realMain_eq_zero {err : Option GoString} : realMain err = 0 ↔ err = none := by
  cases err <;> simp [realMain]

/-- `ctx.Err()` of a context whose deadline has passed. -/
def deadlineExceeded : GoString := lit "context deadline exceeded"

/-- What the goroutines share: the clock, the instant at which the signal cancelled the
    context, the readiness, the channel, and which requests of a server are in progress.
    A server is `quiescent` when its `Shutdown` has found it without connections. -/
structure Process where
  now : Int
  cancelled : Option Int := none
  ready : Bool := false
  errCh : Chan (Option GoString) := { cap := 2 }
  listener : ServerName → ListenerState := fun _ => .idle
  main : Main := .startPublic
  active : ServerName → Finset Nat := fun _ => ∅
  quiescent : ServerName → Bool := fun _ => false

/-- What the goroutines do next. -/
inductive ProcessStep
  | tick (t : Int)
  /-- SIGTERM or SIGINT. -/
  | signal
  /-- `run` goes on, where it neither waits nor chooses. -/
  | main
  /-- The `select` takes `<-ctx.Done()`. -/
  | ctxDone
  /-- The `select` takes `<-errCh`. -/
  | recv
  /-- `Shutdown` returns, with the error of closing the listeners. -/
  | shutdown (lnerr : Option GoString)
  /-- `Shutdown` returns the error of its context. -/
  | expire
  /-- `tp.Shutdown` returns before its context has ended. -/
  | flushed
  /-- `tp.Shutdown` returns as its context has ended. -/
  | flushExpire
  /-- `ListenAndServe` returns an error, where `none` is `ErrServerClosed`. -/
  | listen (name : ServerName) (err : Option GoString)
  /-- `errCh <- err` -/
  | send (name : ServerName)
  deriving DecidableEq

namespace Process

def setListener (g : Process) (name : ServerName) (l : ListenerState) : Process :=
  { g with listener := Function.update g.listener name l }

/-- `Shutdown` of a server found no connection. -/
def quiesce (g : Process) (name : ServerName) : Process :=
  { g with quiescent := Function.update g.quiescent name true }

/-- `run` goes on, where it neither waits nor chooses. -/
def goOn (timeout : Duration) (g : Process) : Option Process :=
  match g.main with
  | .startPublic => some { g.setListener .publicSrv .serving with main := .startAdmin }
  | .startAdmin => some { g.setListener .adminSrv .serving with main := .storeReady }
  | .storeReady => some { g with ready := true, main := .select }
  | .storeNotReady listenErr => some { g with ready := false, main := .drain listenErr }
  | .drain listenErr => some { g with main := .shutdownPublic listenErr (g.now + timeout) }
  | _ => none

/-- A step of the goroutines, where `timeout` is the budget of the drain, and that of the
    flush. -/
def step (timeout : Duration) (g : Process) : ProcessStep → Option Process
  | .tick t => if g.now ≤ t then some { g with now := t } else none
  | .signal => some { g with cancelled := g.cancelled.or (some g.now) }
  | .main => g.goOn timeout
  | .ctxDone =>
    match g.main with
    | .select => if g.cancelled.isSome then some { g with main := .storeNotReady none } else none
    | _ => none
  | .recv =>
    match g.main with
    | .select => g.errCh.recv.map fun (listenErr, errCh) =>
        { g with errCh, main := .storeNotReady listenErr }
    | _ => none
  | .shutdown lnerr =>
    match g.main with
    | .shutdownPublic listenErr deadline =>
      if g.active .publicSrv = ∅ then
        some { g.quiesce .publicSrv with main := .shutdownAdmin listenErr lnerr deadline }
      else none
    | .shutdownAdmin listenErr pubErr _ =>
      if g.active .adminSrv = ∅ then
        some { g.quiesce .adminSrv with
          main := .flush (shutdownErr pubErr lnerr listenErr) (g.now + timeout) }
      else none
    | _ => none
  | .expire =>
    match g.main with
    | .shutdownPublic listenErr deadline =>
      if deadline ≤ g.now then
        some { g with main := .shutdownAdmin listenErr (some deadlineExceeded) deadline }
      else none
    | .shutdownAdmin listenErr pubErr deadline =>
      if deadline ≤ g.now then
        some { g with
          main := .flush (shutdownErr pubErr (some deadlineExceeded) listenErr)
            (g.now + timeout) }
      else none
    | _ => none
  | .flushed =>
    match g.main with
    | .flush err _ => some { g with main := .exited err }
    | _ => none
  | .flushExpire =>
    match g.main with
    | .flush err deadline => if deadline ≤ g.now then some { g with main := .exited err } else none
    | _ => none
  | .listen name err =>
    if g.listener name = .serving ∧ (err = none → g.main.closing name) then
      some (g.setListener name (.sending (err.map (name.text ++ lit " listener: " ++ ·))))
    else none
  | .send name =>
    match g.listener name with
    | .sending err => (g.errCh.send err).map fun errCh =>
        { g.setListener name .finished with errCh }
    | _ => none

/-! ## What they can do -/

/-- The steps of the goroutines, one by one. -/
inductive Steps (timeout : Duration) (g : Process) : ProcessStep → Process → Prop
  | tick {t} (h : g.now ≤ t) : Steps timeout g (.tick t) { g with now := t }
  | signal : Steps timeout g .signal { g with cancelled := g.cancelled.or (some g.now) }
  | startPublic (h : g.main = .startPublic) : Steps timeout g .main
      { g.setListener .publicSrv .serving with main := .startAdmin }
  | startAdmin (h : g.main = .startAdmin) : Steps timeout g .main
      { g.setListener .adminSrv .serving with main := .storeReady }
  | storeReady (h : g.main = .storeReady) : Steps timeout g .main
      { g with ready := true, main := .select }
  | storeNotReady {err} (h : g.main = .storeNotReady err) : Steps timeout g .main
      { g with ready := false, main := .drain err }
  | drain {err} (h : g.main = .drain err) : Steps timeout g .main
      { g with main := .shutdownPublic err (g.now + timeout) }
  | ctxDone (h : g.main = .select) (hc : g.cancelled.isSome) : Steps timeout g .ctxDone
      { g with main := .storeNotReady none }
  | recv {err errCh} (h : g.main = .select) (hr : g.errCh.recv = some (err, errCh)) :
      Steps timeout g .recv { g with errCh, main := .storeNotReady err }
  | drained {err lnerr dl} (h : g.main = .shutdownPublic err dl) (ha : g.active .publicSrv = ∅) :
      Steps timeout g (.shutdown lnerr)
        { g.quiesce .publicSrv with main := .shutdownAdmin err lnerr dl }
  | drainedAdmin {err pubErr lnerr dl} (h : g.main = .shutdownAdmin err pubErr dl)
      (ha : g.active .adminSrv = ∅) : Steps timeout g (.shutdown lnerr)
        { g.quiesce .adminSrv with
          main := .flush (shutdownErr pubErr lnerr err) (g.now + timeout) }
  | expired {err dl} (h : g.main = .shutdownPublic err dl) (ht : dl ≤ g.now) :
      Steps timeout g .expire { g with main := .shutdownAdmin err (some deadlineExceeded) dl }
  | expiredAdmin {err pubErr dl} (h : g.main = .shutdownAdmin err pubErr dl) (ht : dl ≤ g.now) :
      Steps timeout g .expire
        { g with main := .flush (shutdownErr pubErr (some deadlineExceeded) err) (g.now + timeout) }
  | flushed {err dl} (h : g.main = .flush err dl) :
      Steps timeout g .flushed { g with main := .exited err }
  | flushExpired {err dl} (h : g.main = .flush err dl) (ht : dl ≤ g.now) :
      Steps timeout g .flushExpire { g with main := .exited err }
  | listen {name err} (h : g.listener name = .serving)
      (hc : err = none → g.main.closing name = true) : Steps timeout g (.listen name err)
        (g.setListener name (.sending (err.map (name.text ++ lit " listener: " ++ ·))))
  | send {name err errCh} (h : g.listener name = .sending err)
      (hs : g.errCh.send err = some errCh) : Steps timeout g (.send name)
        { g.setListener name .finished with errCh }

/-- There are no other steps. -/
theorem step_eq_some {timeout : Duration} {g g' : Process} {l : ProcessStep}
    (h : g.step timeout l = some g') : g.Steps timeout l g' := by
  cases l with
  | tick t =>
    simp only [step] at h
    split_ifs at h with ht
    exact Option.some.inj h ▸ .tick ht
  | signal => exact Option.some.inj h ▸ .signal
  | main =>
    simp only [step, goOn] at h
    split at h
    · exact Option.some.inj h ▸ .startPublic ‹_›
    · exact Option.some.inj h ▸ .startAdmin ‹_›
    · exact Option.some.inj h ▸ .storeReady ‹_›
    · exact Option.some.inj h ▸ .storeNotReady ‹_›
    · exact Option.some.inj h ▸ .drain ‹_›
    · cases h
  | ctxDone =>
    simp only [step] at h
    split at h
    · split_ifs at h with hc
      exact Option.some.inj h ▸ .ctxDone ‹_› hc
    · cases h
  | recv =>
    simp only [step] at h
    split at h
    · obtain ⟨⟨err, errCh⟩, hr, rfl⟩ := Option.map_eq_some_iff.mp h
      exact .recv ‹_› hr
    · cases h
  | shutdown lnerr =>
    simp only [step] at h
    split at h
    · split_ifs at h with ha
      exact Option.some.inj h ▸ .drained ‹_› ha
    · split_ifs at h with ha
      exact Option.some.inj h ▸ .drainedAdmin ‹_› ha
    · cases h
  | expire =>
    simp only [step] at h
    split at h
    · split_ifs at h with ht
      exact Option.some.inj h ▸ .expired ‹_› ht
    · split_ifs at h with ht
      exact Option.some.inj h ▸ .expiredAdmin ‹_› ht
    · cases h
  | flushed =>
    simp only [step] at h
    split at h
    · exact Option.some.inj h ▸ .flushed ‹_›
    · cases h
  | flushExpire =>
    simp only [step] at h
    split at h
    · split_ifs at h with ht
      exact Option.some.inj h ▸ .flushExpired ‹_› ht
    · cases h
  | listen name err =>
    simp only [step] at h
    split_ifs at h with hl
    exact Option.some.inj h ▸ .listen hl.1 hl.2
  | send name =>
    simp only [step] at h
    split at h
    · obtain ⟨errCh, hs, rfl⟩ := Option.map_eq_some_iff.mp h
      exact .send ‹_› hs
    · cases h

end Process

/-! ## How far `run` is -/

/-- How far `run` is. -/
def Main.stage : Main → Nat
  | .startPublic => 0
  | .startAdmin => 1
  | .storeReady => 2
  | .select => 3
  | .storeNotReady _ => 4
  | .drain _ => 5
  | .shutdownPublic _ _ => 6
  | .shutdownAdmin _ _ _ => 7
  | .flush _ _ => 8
  | .exited _ => 9

namespace Main

@[simp] theorem stage_startPublic : stage .startPublic = 0 := rfl
@[simp] theorem stage_startAdmin : stage .startAdmin = 1 := rfl
@[simp] theorem stage_storeReady : stage .storeReady = 2 := rfl
@[simp] theorem stage_select : stage .select = 3 := rfl
@[simp] theorem stage_storeNotReady (e : Option GoString) : stage (.storeNotReady e) = 4 := rfl
@[simp] theorem stage_drain (e : Option GoString) : stage (.drain e) = 5 := rfl
@[simp] theorem stage_shutdownPublic (e : Option GoString) (t : Int) :
    stage (.shutdownPublic e t) = 6 := rfl
@[simp] theorem stage_shutdownAdmin (e p : Option GoString) (t : Int) :
    stage (.shutdownAdmin e p t) = 7 := rfl
@[simp] theorem stage_flush (e : Option GoString) (t : Int) : stage (.flush e t) = 8 := rfl
@[simp] theorem stage_exited (e : Option GoString) : stage (.exited e) = 9 := rfl

/-- The stage in which `Shutdown` is called on a server. -/
def closedAt : ServerName → Nat
  | .publicSrv => 6
  | .adminSrv => 7

/-- A server is closing from that stage on. -/
theorem closing_eq_true {m : Main} {name : ServerName} :
    m.closing name = true ↔ closedAt name ≤ m.stage := by
  cases m <;> cases name <;> simp [closing, closedAt]

theorem six_le_closedAt (name : ServerName) : 6 ≤ closedAt name := by
  cases name <;> decide

/-- Both servers were drained without an error, or the public one was and the other is
    still to come. -/
def drained : Main → ServerName → Bool
  | .shutdownAdmin _ err _, .publicSrv => err.isNone
  | .flush err _, _ | .exited err, _ => err.isNone
  | _, _ => false

/-- The deadline that `run` waits for at the latest. -/
def deadline? : Main → Option Int
  | .shutdownPublic _ dl | .shutdownAdmin _ _ dl | .flush _ dl => some dl
  | _ => none

end Main

/-- The stage at which a listener is started. -/
def ServerName.stage : ServerName → Nat
  | .publicSrv => 0
  | .adminSrv => 1

/-- The reports that are still to come. -/
def ListenerState.unreported : ListenerState → Nat
  | .finished => 0
  | _ => 1

/-! ## What holds at any time -/

namespace Process

def unreported (g : Process) : Nat :=
  (g.listener .publicSrv).unreported + (g.listener .adminSrv).unreported

/-- How many ends are unreported, after one listener has changed. -/
theorem unreported_setListener (g : Process) (name : ServerName) (l : ListenerState) :
    (g.setListener name l).unreported + (g.listener name).unreported =
      g.unreported + l.unreported := by
  cases name <;> simp [setListener, unreported, Function.update] <;> omega

/-- The listeners are in a state as before, unless one comes to it or leaves it. -/
theorem setListener_eq_iff {g : Process} {name : ServerName} {l l' : ListenerState}
    (hl : l ≠ l') (hg : g.listener name ≠ l') (n : ServerName) :
    (g.setListener name l).listener n = l' ↔ g.listener n = l' := by
  rcases eq_or_ne n name with rfl | hn
  · simp only [setListener, Function.update_self]
    exact iff_of_false hl hg
  · simp only [setListener, Function.update_of_ne hn]

/-- The other server is as quiescent as before. -/
theorem quiesce_eq_true (g : Process) (name : ServerName) {n : ServerName} :
    (g.quiesce name).quiescent n = true ↔ n = name ∨ g.quiescent n = true := by
  rcases eq_or_ne n name with rfl | hn
  · simp [quiesce]
  · simp [quiesce, hn]

/-- What holds of the process at any time. -/
structure Good (timeout : Duration) (g : Process) : Prop where
  room : g.errCh.Room g.unreported
  ready : g.ready = true ↔ g.main.stage = 3 ∨ g.main.stage = 4
  idle : ∀ name, g.listener name = .idle ↔ g.main.stage ≤ name.stage
  /-- Before `Shutdown` is called on it, a listener only reports errors. -/
  sends : ∀ name, g.main.closing name = false → g.listener name ≠ .sending none
  received : g.main.stage < 6 → none ∉ g.errCh.buf
  quiet : ∀ name, g.quiescent name = true → g.active name = ∅
  drained : ∀ name, g.main.drained name = true → g.quiescent name = true
  deadline : ∀ dl, g.main.deadline? = some dl → dl ≤ g.now + timeout

/-- A process starts good. -/
theorem good_init (timeout : Duration) (start : Int) : Good timeout { now := start } where
  room := le_refl 2
  ready := iff_of_false nofun (by rintro (h | h) <;> cases h)
  idle _ := iff_of_true rfl (Nat.zero_le _)
  sends _ _ := nofun
  received _ := List.not_mem_nil
  quiet _ := nofun
  drained name h := by cases name <;> cases h
  deadline := nofun

namespace Steps

variable {timeout : Duration} {g g' : Process} {l : ProcessStep}

/-- `run` only goes on. -/
theorem stage (h : g.Steps timeout l g') : g.main.stage ≤ g'.main.stage := by
  cases h <;> simp_all [setListener]

theorem active (h : g.Steps timeout l g') : g'.active = g.active := by
  cases h <;> rfl

theorem now (h : g.Steps timeout l g') : g.now ≤ g'.now := by
  cases h with
  | tick ht => exact ht
  | _ => exact le_rfl

/-- A listener that goes on without sending has as much left to report. -/
theorem room_setListener {name : ServerName} {l' : ListenerState}
    (hr : g.errCh.Room g.unreported) (hl : (g.listener name).unreported = l'.unreported) :
    (g.setListener name l').errCh.Room (g.setListener name l').unreported := by
  have := g.unreported_setListener name l'
  exact hr.mono (by omega)

/-- There is room in `errCh` for all that is not reported yet. -/
theorem room (h : g.Steps timeout l g') (hg : g.Good timeout) : g'.errCh.Room g'.unreported := by
  cases h with
  | recv _ hrecv => exact hg.room.recv hrecv
  | @send name err errCh hl hs =>
    have hset := g.unreported_setListener name .finished
    rw [hl] at hset
    have hroom : g.errCh.Room ((g.setListener name .finished).unreported + 1) :=
      hg.room.mono (by simp only [ListenerState.unreported] at hset; omega)
    exact hroom.send hs
  | listen hl => exact room_setListener hg.room (by rw [hl]; rfl)
  | startPublic hm =>
    have hidle := (hg.idle .publicSrv).mpr (by simp [hm])
    exact room_setListener hg.room (congrArg _ hidle)
  | startAdmin hm =>
    have hidle := (hg.idle .adminSrv).mpr (by simp [hm, ServerName.stage])
    exact room_setListener hg.room (congrArg _ hidle)
  | _ => exact hg.room

/-- Readiness is stored at one stage, and withdrawn at another. -/
theorem ready (h : g.Steps timeout l g') (hg : g.Good timeout) :
    g'.ready = true ↔ g'.main.stage = 3 ∨ g'.main.stage = 4 := by
  have := hg.ready
  cases h <;> simp_all [setListener, quiesce]

/-- A listener is idle until it is started. -/
theorem idle (h : g.Steps timeout l g') (hg : g.Good timeout) (name : ServerName) :
    g'.listener name = .idle ↔ g'.main.stage ≤ name.stage := by
  have := hg.idle name
  cases h with
  | listen hl => exact (setListener_eq_iff (by simp) (by simp [hl]) name).trans this
  | send hl => exact (setListener_eq_iff (by simp) (by simp [hl]) name).trans this
  | startPublic hm => cases name <;> simp_all [setListener, ServerName.stage]
  | startAdmin hm => cases name <;> simp_all [setListener, ServerName.stage]
  | _ => cases name <;> simp_all [ServerName.stage, quiesce]

/-- A server on which `Shutdown` is still to be called was open before. -/
theorem closing (h : g.Steps timeout l g') {name : ServerName}
    (hc : g'.main.closing name = false) : g.main.closing name = false := by
  rw [← Bool.not_eq_true, Main.closing_eq_true] at hc ⊢
  exact fun hle => hc (hle.trans h.stage)

/-- A listener that is not being closed does not stop without an error. -/
theorem sends (h : g.Steps timeout l g') (hg : g.Good timeout) (name : ServerName)
    (hc : g'.main.closing name = false) : g'.listener name ≠ .sending none := by
  have hs := hg.sends name (h.closing hc)
  cases h with
  | @listen n err hl hn =>
    rcases eq_or_ne name n with rfl | hne
    · -- `ErrServerClosed` needs a call of `Shutdown`, which comes later.
      have herr : err ≠ none := fun he => Bool.false_ne_true (hc.symm.trans (hn he))
      simpa [setListener] using herr
    · simpa [setListener, hne] using hs
  | @send n _ _ _ =>
    rcases eq_or_ne name n with rfl | hne
    · simp [setListener]
    · simpa [setListener, hne] using hs
  | startPublic => cases name <;> simp_all [setListener]
  | startAdmin => cases name <;> simp_all [setListener]
  | _ => exact hs

/-- Before the drain, what is in `errCh` is errors. -/
theorem received (h : g.Steps timeout l g') (hg : g.Good timeout) (hst : g'.main.stage < 6) :
    none ∉ g'.errCh.buf := by
  have hbuf := hg.received (h.stage.trans_lt hst)
  cases h with
  | recv _ hr =>
    rw [(Chan.recv_eq_some.mp hr).1] at hbuf
    exact fun hm => hbuf (List.mem_cons_of_mem _ hm)
  | @send name err errCh hl hs =>
    obtain rfl := Chan.send_eq_some hs
    intro hm
    rcases List.mem_append.mp hm with hm | hm
    · exact hbuf hm
    · have hopen : g.main.closing name = false := by
        rw [← Bool.not_eq_true, Main.closing_eq_true, not_le]
        exact lt_of_lt_of_le hst (Main.six_le_closedAt name)
      exact hg.sends name hopen (hl.trans (congrArg _ (List.mem_singleton.mp hm).symm))
  | _ => exact hbuf

/-- No request is in progress on a server that is quiescent. -/
theorem quiet (h : g.Steps timeout l g') (hg : g.Good timeout) (name : ServerName)
    (hq : g'.quiescent name = true) : g'.active name = ∅ := by
  rw [h.active]
  cases h with
  | drained _ ha =>
    rcases (quiesce_eq_true g _).mp hq with rfl | hq
    · exact ha
    · exact hg.quiet name hq
  | drainedAdmin _ ha =>
    rcases (quiesce_eq_true g _).mp hq with rfl | hq
    · exact ha
    · exact hg.quiet name hq
  | _ => exact hg.quiet name hq

/-- A drain without an error leaves a server without connections. -/
theorem drained_quiescent (h : g.Steps timeout l g') (hg : g.Good timeout) (name : ServerName)
    (hd : g'.main.drained name = true) : g'.quiescent name = true := by
  have hprev := hg.drained name
  cases h with
  | drained hm =>
    cases name with
    | publicSrv => exact (quiesce_eq_true g .publicSrv).mpr (.inl rfl)
    | adminSrv => cases hd
  | @drainedAdmin err pubErr lnerr dl hm =>
    have herr := shutdownErr_eq_none.mp (Option.isNone_iff_eq_none.mp hd)
    cases name with
    | publicSrv =>
      have hpub := hprev (by rw [hm, herr.1]; rfl)
      exact (quiesce_eq_true g .adminSrv).mpr (.inr hpub)
    | adminSrv => exact (quiesce_eq_true g .adminSrv).mpr (.inl rfl)
  | expiredAdmin hm =>
    have herr := shutdownErr_eq_none.mp (Option.isNone_iff_eq_none.mp hd)
    cases herr.2.1
  | flushed hm => exact hprev (by rw [hm]; exact hd)
  | flushExpired hm => exact hprev (by rw [hm]; exact hd)
  | tick | signal | listen | send => exact hprev hd
  | _ => cases name <;> cases hd

/-- No deadline is further away than the timeout. -/
theorem deadline (h : g.Steps timeout l g') (hg : g.Good timeout) (dl : Int)
    (hdl : g'.main.deadline? = some dl) : dl ≤ g'.now + timeout := by
  cases h with
  | tick ht => exact (hg.deadline dl hdl).trans (Int.add_le_add_right ht timeout)
  | drain | drainedAdmin | expiredAdmin => exact (Option.some.inj hdl).ge
  | drained hm => exact hg.deadline dl (by rw [hm]; exact hdl)
  | expired hm => exact hg.deadline dl (by rw [hm]; exact hdl)
  | signal | listen | send => exact hg.deadline dl hdl
  | _ => cases hdl

/-- Every step keeps all of it. -/
theorem good (h : g.Steps timeout l g') (hg : g.Good timeout) : g'.Good timeout where
  room := h.room hg
  ready := h.ready hg
  idle := h.idle hg
  sends := h.sends hg
  received := h.received hg
  quiet := h.quiet hg
  drained := h.drained_quiescent hg
  deadline := h.deadline hg

end Steps

end Process

end Webhookd
