import Webhookd.Middleware

/-!
# Nested status recorders

`SLog` and `Metrics` each put a `statusRecorder` around the writer they are given,
so the calls of a handler go through a stack of them (`Stack`) to the writer of
the server.

* `Stack.run_settled`: once a status is settled, a call reaches the server as if
  there were no recorders, or makes no difference there;
* `transparent_iff`: recorders observe without interfering, unless the first call
  announces an informational status;
* `transparent_early_hints`: then they drop the status that follows;
* `slog_metrics_stack`: the two middlewares are a stack of two recorders.
-/

namespace Webhookd

open Go

variable {σ : Type}

/-- The states of `n` recorders, each around the next one, and of the writer inside. -/
def Stack (σ : Type) : Nat → Type
  | 0 => σ
  | n + 1 => StatusRecorder (Stack σ n)

namespace Stack

def writer (w : ResponseWriter σ) : (n : Nat) → ResponseWriter (Stack σ n)
  | 0 => w
  | n + 1 => StatusRecorder.writer (writer w n)

/-- `newStatusRecorder`, `n` times. -/
def new (s : σ) : (n : Nat) → Stack σ n
  | 0 => s
  | n + 1 => ⟨new s n, 200, 0, false⟩

/-- The calls of a handler through `n` new recorders, and whether one panicked. -/
def run (w : ServerWriter σ) (n : Nat) (cs : List WriterCall) (s : σ) : Bool × Stack σ n :=
  (writer w.toResponseWriter n).run cs (new s n)

/-- The state of the writer inside. -/
def underlying : (n : Nat) → Stack σ n → σ
  | 0, s => s
  | n + 1, s => underlying n s.inner

/-- The status and the bytes that each recorder has seen. -/
def recorded : (n : Nat) → Stack σ n → List (Int × Nat)
  | 0, _ => []
  | n + 1, s => (s.status, s.bytes) :: recorded n s.inner

section

variable (w : ServerWriter σ)

/-- Nothing was sent, and no recorder has seen a call. -/
def Fresh : (n : Nat) → Stack σ n → Prop
  | 0, s => w.status s = none ∧ w.accepted s = 0
  | n + 1, s => s.status = 200 ∧ s.bytes = 0 ∧ s.wroteHeader = false ∧ Fresh n s.inner

/-- The status was sent, and all recorders have seen it, and the bytes accepted. -/
def Settled (code : Int) : (n : Nat) → Stack σ n → Prop
  | 0, s => w.status s = some code
  | n + 1, s => s.status = code ∧ s.bytes = w.accepted (underlying n s.inner) ∧
    s.wroteHeader = true ∧ Settled code n s.inner

end

variable {w : ServerWriter σ} {n : Nat} {s : Stack σ n} {code : Int}

theorem fresh_new {s : σ} (hs : w.status s = none) (hacc : w.accepted s = 0) (n : Nat) :
    Fresh w n (new s n) := by
  induction n with
  | zero => exact ⟨hs, hacc⟩
  | succ n ih => exact ⟨rfl, rfl, rfl, ih⟩

theorem underlying_new (s : σ) (n : Nat) : underlying n (new s n) = s := by
  induction n with
  | zero => rfl
  | succ n ih => exact ih

theorem Fresh.underlying (h : Fresh w n s) :
    w.status (underlying n s) = none ∧ w.accepted (Stack.underlying n s) = 0 := by
  induction n with
  | zero => exact h
  | succ n ih => exact ih h.2.2.2

theorem Settled.underlying (h : Settled w code n s) :
    w.status (underlying n s) = some code := by
  induction n with
  | zero => exact h
  | succ n ih => exact ih h.2.2.2

/-- What is written reaches the writer inside, and it is known what it accepts. -/
theorem write_underlying (b : GoString) (s : Stack σ n) :
    ((writer w.toResponseWriter n).write b s).1 = (w.write b (underlying n s)).1 ∧
      underlying n ((writer w.toResponseWriter n).write b s).2 =
        (w.write b (underlying n s)).2 := by
  induction n with
  | zero => exact ⟨rfl, rfl⟩
  | succ n ih => exact ih s.inner

theorem accepted_write (b : GoString) (s : Stack σ n) :
    w.accepted (underlying n ((writer w.toResponseWriter n).write b s).2) =
      w.accepted (underlying n s) + ((writer w.toResponseWriter n).write b s).1 := by
  obtain ⟨hn, hs⟩ := write_underlying (w := w) b s
  rw [hs, hn, w.accepted_write]

/-- A recorder goes on counting what is accepted. -/
theorem bytes_write {s : Stack σ (n + 1)} (h : s.bytes = w.accepted (underlying n s.inner))
    (b : GoString) :
    ((writer w.toResponseWriter (n + 1)).write b s).2.bytes =
      w.accepted (underlying (n + 1) ((writer w.toResponseWriter (n + 1)).write b s).2) := by
  have hacc := accepted_write (w := w) b s.inner
  rw [← h] at hacc
  exact hacc.symm

/-- A status that the next recorder passes on is recorded, if it is the first one. -/
theorem writeHeader_of_inner {s : Stack σ (n + 1)} {inner : Stack σ n}
    (hw : s.wroteHeader = false)
    (h : (writer w.toResponseWriter n).writeHeader code s.inner = some inner) :
    (writer w.toResponseWriter (n + 1)).writeHeader code s =
      some { s with inner, status := code, wroteHeader := true } := by
  simp only [writer, StatusRecorder.writer, StatusRecorder.writeHeader, hw, h]
  rfl

theorem Fresh.write (h : Fresh w n s) (b : GoString) :
    Settled w 200 n ((writer w.toResponseWriter n).write b s).2 := by
  induction n with
  | zero =>
    have hst := w.status_write b s
    rwa [h.1] at hst
  | succ n ih =>
    obtain ⟨hst, hbytes, -, hin⟩ := h
    exact ⟨hst, bytes_write (hbytes.trans hin.underlying.2.symm) b, rfl, ih hin⟩

theorem Settled.write (h : Settled w code n s) (b : GoString) :
    Settled w code n ((writer w.toResponseWriter n).write b s).2 := by
  induction n with
  | zero =>
    have hst := w.status_write b s
    rwa [show w.status s = some code from h] at hst
  | succ n ih =>
    obtain ⟨hst, hbytes, -, hin⟩ := h
    exact ⟨hst, bytes_write hbytes b, rfl, ih hin⟩

/-- A status that ends the header goes through all recorders. -/
theorem Fresh.writeHeader (h : Fresh w n s) (hc : ValidCode code) (hi : ¬Informational code) :
    ∃ s', (writer w.toResponseWriter n).writeHeader code s = some s' ∧
      w.writeHeader code (Stack.underlying n s) = some (Stack.underlying n s') ∧
      Settled w code n s' ∧ w.accepted (Stack.underlying n s') = 0 := by
  induction n with
  | zero =>
    obtain ⟨s', hs', hst, -, hacc⟩ := w.ends h.1 hc hi
    exact ⟨s', hs', hs', hst, hacc.trans h.2⟩
  | succ n ih =>
    obtain ⟨hst, hbytes, hw, hin⟩ := h
    obtain ⟨inner, hinner, hund, hset, hacc⟩ := ih hin
    exact ⟨_, writeHeader_of_inner hw hinner, hund, ⟨rfl, hbytes.trans hacc.symm, rfl, hset⟩, hacc⟩

/-- An informational status goes through all recorders, and ends nothing. -/
theorem Fresh.writeHeader_informational (h : Fresh w n s) (hi : Informational code) :
    ∃ s', (writer w.toResponseWriter n).writeHeader code s = some s' ∧
      w.status (Stack.underlying n s') = none := by
  induction n with
  | zero =>
    obtain ⟨s', hs', hst, -⟩ := w.informational h.1 hi
    exact ⟨s', hs', hst⟩
  | succ n ih =>
    obtain ⟨-, -, hw, hin⟩ := h
    obtain ⟨inner, hinner, hst⟩ := ih hin
    exact ⟨_, writeHeader_of_inner hw hinner, hst⟩

theorem Settled.writeHeader (h : Settled w code n s) (c : Int) :
    (writer w.toResponseWriter n).writeHeader c s = some s := by
  cases n with
  | zero => exact w.superfluous h
  | succ n => exact if_pos h.2.2.1

/-- After the status is settled, the calls leave the writer inside as they do without
    the recorders. -/
theorem run_settled (cs : List WriterCall) (h : Settled w code n s) :
    ∃ s', (writer w.toResponseWriter n).run cs s = (false, s') ∧
      w.run cs (underlying n s) = (false, underlying n s') ∧ Settled w code n s' := by
  induction cs generalizing s with
  | nil => exact ⟨s, rfl, rfl, h⟩
  | cons c cs ih =>
    cases c with
    | writeHeader c =>
      -- The outermost recorder drops it, as the server would.
      rw [ResponseWriter.run_writeHeader cs (h.writeHeader c),
        ResponseWriter.run_writeHeader cs (w.superfluous h.underlying)]
      exact ih h
    | write b =>
      obtain ⟨s', hrun, hraw, hset⟩ := ih (h.write b)
      rw [(write_underlying b s).2] at hraw
      exact ⟨s', hrun, hraw, hset⟩

/-- So they do from the first call on, if that ends the header. -/
theorem run_fresh {cs : List WriterCall} (h : Fresh w n s) (hc : ValidCode (announced cs))
    (hi : ¬Informational (announced cs)) :
    ∃ s', (writer w.toResponseWriter n).run cs s = (false, s') ∧
      w.run cs (underlying n s) = (false, underlying n s') ∧
      (Settled w (announced cs) n s' ∨ announced cs = 200 ∧ Fresh w n s') := by
  rcases cs with _ | ⟨code | b, cs⟩
  · exact ⟨s, rfl, rfl, .inr ⟨rfl, h⟩⟩
  · obtain ⟨s₁, hs₁, hraw₁, hset, -⟩ := h.writeHeader hc hi
    obtain ⟨s', hrun, hraw, hset⟩ := run_settled cs hset
    refine ⟨s', ?_, ?_, .inl hset⟩
    · exact (ResponseWriter.run_writeHeader cs hs₁).trans hrun
    · exact (ResponseWriter.run_writeHeader cs hraw₁).trans hraw
  · obtain ⟨s', hrun, hraw, hset⟩ := run_settled cs (h.write b)
    rw [(write_underlying b s).2] at hraw
    exact ⟨s', hrun, hraw, .inl hset⟩

theorem recorded_of_settled (h : Settled w code n s) :
    ∀ x ∈ recorded n s, x = (code, w.accepted (underlying n s)) := by
  induction n with
  | zero => exact List.forall_mem_nil _
  | succ n ih =>
    obtain ⟨hst, hbytes, -, hin⟩ := h
    exact List.forall_mem_cons.mpr ⟨Prod.ext hst hbytes, ih hin⟩

theorem recorded_of_fresh (h : Fresh w n s) :
    ∀ x ∈ recorded n s, x = (200, w.accepted (underlying n s)) := by
  induction n with
  | zero => exact List.forall_mem_nil _
  | succ n ih =>
    obtain ⟨hst, hbytes, -, hin⟩ := h
    exact List.forall_mem_cons.mpr ⟨Prod.ext hst (hbytes.trans hin.underlying.2.symm), ih hin⟩

/-- A recorder that has seen a status keeps it, and the one that is sent does not
    change either. -/
theorem run_wroteHeader (cs : List WriterCall) {s : Stack σ (n + 1)} (h : s.wroteHeader = true) :
    ∃ s', (writer w.toResponseWriter (n + 1)).run cs s = (false, s') ∧ s'.status = s.status ∧
      w.final (underlying (n + 1) s') = w.final (underlying (n + 1) s) := by
  induction cs generalizing s with
  | nil => exact ⟨s, rfl, rfl, rfl⟩
  | cons c cs ih =>
    cases c with
    | writeHeader c =>
      have hskip : (writer w.toResponseWriter (n + 1)).writeHeader c s = some s := if_pos h
      rw [ResponseWriter.run_writeHeader cs hskip]
      exact ih h
    | write b =>
      obtain ⟨s', hrun, hst, hfinal⟩ :=
        @ih ((writer w.toResponseWriter (n + 1)).write b s).2 rfl
      refine ⟨s', hrun, hst, hfinal.trans ?_⟩
      rw [(write_underlying b s).2, ServerWriter.final, w.status_write]
      rfl

end Stack

/-- Through `n` recorders, a response is what it is without them, and each recorder ends
    with its status and the number of bytes that were accepted. -/
structure Transparent (w : ServerWriter σ) (n : Nat) (cs : List WriterCall) (s : σ) : Prop where
  panicked : (Stack.run w n cs s).1 = (w.run cs s).1
  final : w.final (Stack.underlying n (Stack.run w n cs s).2) = w.final (w.run cs s).2
  body : w.body (Stack.underlying n (Stack.run w n cs s).2) = w.body (w.run cs s).2
  recorded : ∀ x ∈ Stack.recorded n (Stack.run w n cs s).2,
    x = (w.final (Stack.underlying n (Stack.run w n cs s).2),
      w.accepted (Stack.underlying n (Stack.run w n cs s).2))

theorem transparent_of_not_informational {w : ServerWriter σ} {s : σ} {cs : List WriterCall}
    (hs : w.status s = none) (hacc : w.accepted s = 0) (n : Nat) (hc : ValidCode (announced cs))
    (hi : ¬Informational (announced cs)) : Transparent w n cs s := by
  have hfresh := Stack.fresh_new hs hacc n
  obtain ⟨s', hrun, hraw, hend⟩ := Stack.run_fresh hfresh hc hi
  rw [Stack.underlying_new] at hraw
  have hfinal : w.final (Stack.underlying n s') = announced cs := by
    rcases hend with hset | ⟨h200, hf⟩
    · rw [ServerWriter.final, hset.underlying]
      rfl
    · rw [ServerWriter.final, hf.underlying.1, h200]
      rfl
  constructor
  · rw [Stack.run, hrun, hraw]
  · rw [Stack.run, hrun, hraw]
  · rw [Stack.run, hrun, hraw]
  · rw [Stack.run, hrun, hfinal]
    rcases hend with hset | ⟨h200, hf⟩
    · exact Stack.recorded_of_settled hset
    · rw [h200]
      exact Stack.recorded_of_fresh hf

/-- A recorder takes an informational status for the one that is sent. -/
theorem not_transparent_of_informational {w : ServerWriter σ} {s : σ} {cs : List WriterCall}
    (hs : w.status s = none) (hacc : w.accepted s = 0) (n : Nat)
    (hi : Informational (announced cs)) : ¬Transparent w (n + 1) cs s := by
  intro h
  rcases cs with _ | ⟨code | b, cs⟩
  · exact absurd hi (by decide)
  · obtain ⟨inner, hinner, hst⟩ := (Stack.fresh_new hs hacc n).writeHeader_informational hi
    have hfirst : (Stack.writer w.toResponseWriter (n + 1)).writeHeader code (Stack.new s (n + 1)) =
        some ⟨inner, code, 0, true⟩ := Stack.writeHeader_of_inner rfl hinner
    obtain ⟨s', hrun, hstatus, hfinal⟩ := Stack.run_wroteHeader (w := w) (n := n) cs
      (s := ⟨inner, code, 0, true⟩) rfl
    have hall := (ResponseWriter.run_writeHeader cs hfirst).trans hrun
    have h200 : w.final (Stack.underlying (n + 1) s') = 200 := by
      rw [hfinal]
      exact congrArg (Option.getD · 200) hst
    -- What the recorder has seen is informational, and what is sent is not.
    have hrec := congrArg Prod.fst (h.recorded _ (List.mem_cons_self ..))
    rw [Stack.run, hall, h200] at hrec
    have hcode : code = 200 := hstatus.symm.trans hrec
    rw [announced, hcode] at hi
    exact absurd hi (by decide)
  · rw [announced] at hi
    exact absurd hi (by decide)

theorem validCode_announced {cs : List WriterCall}
    (hcs : ∀ code, .writeHeader code ∈ cs → ValidCode code) : ValidCode (announced cs) := by
  rcases cs with _ | ⟨code | b, cs⟩
  · decide
  · exact hcs code (.head _)
  · rw [announced]
    decide

/-- Whatever calls a handler makes, with codes that `net/http` allows, any number of
    recorders observes without interfering exactly when there is none or the first
    call does not announce an informational status. -/
theorem transparent_iff (w : ServerWriter σ) {s : σ} (hs : w.status s = none)
    (hacc : w.accepted s = 0) (n : Nat) {cs : List WriterCall}
    (hcs : ∀ code, .writeHeader code ∈ cs → ValidCode code) :
    Transparent w n cs s ↔ n = 0 ∨ ¬Informational (announced cs) := by
  cases n with
  | zero => exact ⟨fun _ => .inl rfl, fun _ => ⟨rfl, rfl, rfl, List.forall_mem_nil _⟩⟩
  | succ n =>
    constructor
    · intro h
      exact .inr fun hi => not_transparent_of_informational hs hacc n hi h
    · rintro (h | hi)
      · cases h
      · exact transparent_of_not_informational hs hacc (n + 1) (validCode_announced hcs) hi

/-- A handler that answers, and then sets another status, of a response of which four
    bytes are taken. -/
theorem transparent_iff_sample :
    Transparent ServerResponse.serverWriter 2
      [.writeHeader 404, .write (lit "absent"), .writeHeader 103] ⟨false, 0, [], [], 4⟩ :=
  (transparent_iff ServerResponse.serverWriter rfl rfl 2 (by
    intro code hm
    simp only [List.mem_cons, WriterCall.writeHeader.injEq, reduceCtorEq, List.not_mem_nil,
      or_false, false_or] at hm
    rcases hm with rfl | rfl <;> decide)).mpr (.inr (by decide))

/-- After early hints, the status of the response is dropped, and the recorder reports
    that of the hints. -/
theorem transparent_early_hints :
    let s : ServerResponse := ⟨false, 0, [], [], 4⟩
    let cs : List WriterCall := [.writeHeader 103, .writeHeader 404]
    let w := ServerResponse.serverWriter
    ¬Transparent w 1 cs s ∧ w.final (w.run cs s).2 = 404 ∧
      w.final (Stack.underlying 1 (Stack.run w 1 cs s).2) = 200 ∧
      Stack.recorded 1 (Stack.run w 1 cs s).2 = [(103, 0)] := by
  intro s cs w
  refine ⟨fun h => ?_, by decide, by decide, by decide⟩
  exact absurd h.final (by decide)

section

variable {R : Rate} {w : ResponseWriter σ} {s : σ} {ps : ServeMux}
  {f : Pattern → HttpRequest → Script} {r : HttpRequest} {id : GoString} {g : World R}
  {res : Handled σ R}

/-- `Metrics` reports what its recorder has seen, of a request that returns. -/
theorem metrics_stack (hres : (Httpx.metrics (mux ps f)).serveHTTP w s r id g = res) :
    let stack := ((Stack.writer w 1).run (muxScript ps f r).calls (Stack.new s 1)).2
    res.writer = Stack.underlying 1 stack ∧ res.world.accessLog = g.accessLog ∧
      (res.panicked = false → ∃ (labels : Labels) (size : Nat),
        res.world.httpRequests = g.httpRequests ++ [labels] ∧
        res.world.httpResponseSize =
          g.httpResponseSize ++ [(labels.method, labels.route, size)] ∧
        Stack.recorded 1 stack = [(labels.status, size)]) := by
  intro stack
  obtain ⟨-, rfl⟩ | ⟨-, rfl⟩ := ite_eq_iff.mp hres
  · exact ⟨rfl, rfl, fun h => by cases h⟩
  · exact ⟨rfl, rfl, fun _ => ⟨_, _, rfl, rfl, rfl⟩⟩

/-- `SLog` around `Metrics` is a stack of two recorders. -/
theorem slog_metrics_stack
    (hres : (Httpx.slog (Httpx.metrics (mux ps f))).serveHTTP w s r id g = res) :
    let stack := ((Stack.writer w 2).run (muxScript ps f r).calls (Stack.new s 2)).2
    res.writer = Stack.underlying 2 stack ∧
      (res.panicked = false → ∃ (line : AccessLine) (labels : Labels) (size : Nat),
        res.world.accessLog = g.accessLog ++ [line] ∧
        res.world.httpRequests = g.httpRequests ++ [labels] ∧
        res.world.httpResponseSize =
          g.httpResponseSize ++ [(labels.method, labels.route, size)] ∧
        Stack.recorded 2 stack = [(labels.status, size), (line.status, line.bytesOut)]) := by
  intro stack
  obtain ⟨hw, hlog, hmet⟩ := metrics_stack (Eq.refl ((Httpx.metrics (mux ps f)).serveHTTP
    (StatusRecorder.writer w) ⟨s, 200, 0, false⟩ r id g))
  obtain ⟨-, rfl⟩ | ⟨hp, rfl⟩ := ite_eq_iff.mp hres
  · exact ⟨congrArg StatusRecorder.inner hw, fun h => by cases h⟩
  · refine ⟨congrArg StatusRecorder.inner hw, fun _ => ?_⟩
    obtain ⟨labels, size, hreq, hsize, hrec⟩ := hmet (Bool.not_eq_true _ ▸ hp)
    refine ⟨_, labels, size, congrArg (· ++ _) hlog, hreq, hsize, ?_⟩
    have hst : (stack.status, stack.bytes) = (labels.status, size) := (List.cons.inj hrec).1
    rw [hw, ← hst]
    rfl

end

end Webhookd
