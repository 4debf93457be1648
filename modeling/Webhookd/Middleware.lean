import Webhookd.Go.Http
import Webhookd.Go.Mux
import Webhookd.Go.Writer
import Webhookd.Intake
import Webhookd.Serial

/-!
# Middleware

The handlers of the two listeners: `buildPublicHandler` and `NewAdminMux` wrap
a mux into the middlewares of `httpx`. A handler is given a request and a writer,
whatever the states of that are; it may panic, and changes the world: the
limiters, the log and the metrics.

What the handlers behind the mux do comes with the request, as does all else
that is left to chance (`Chance`). Of `otelhttp` it is assumed that it passes the
request and the calls on the writer through (`OTel.transparent`), and durations
are left out.

* `StatusRecorder.run_fresh`: what a recorder has seen after any calls;
* `metrics_mux`, `slog_mux`, `rateLimit_mux`, `recover_server`: what a request
  leaves in the metrics and the log, from the inside out.
-/

namespace Webhookd

open Go

/-! ## Requests and the world -/

/-- What a handler does: its calls, and whether it panics after them. -/
structure Script where
  calls : List WriterCall
  panics : Bool := false

/-- What is left to chance: a new request ID, the instants at which the limiter is
    called, what a handler that is not modelled does, how many bytes the connection
    takes, and whether the process is ready. -/
structure Chance where
  newID : GoString
  instants : Instants
  script : Script
  capacity : Nat
  ready : Bool := true

/-- `http.Request`. The server refuses a method that is not a token. -/
structure HttpRequest extends Target where
  token : validHeaderFieldName method
  header : Header
  contentLength : Int
  chance : Chance

/-- A line of the access log, "http request". -/
structure AccessLine where
  method : GoString
  route : GoString
  status : Int
  bytesIn : Int
  bytesOut : Nat
  requestID : GoString
  deriving DecidableEq

/-- The labels of `HTTPRequests` and `HTTPDuration`. -/
structure Labels where
  method : GoString
  route : GoString
  status : Int
  deriving DecidableEq

/-- What requests share: the limiters, the lines that were logged, and what was recorded
    in the metrics. -/
structure World (R : Rate) where
  limiters : GoMap R.Limiter := ∅
  accessLog : List AccessLine := []
  panicLog : List (GoString × GoString) := []
  httpRequests : List Labels := []
  httpRequestSize : List (GoString × GoString × Int) := []
  httpResponseSize : List (GoString × GoString × Nat) := []
  httpInflight : Int := 0
  httpPanics : Nat := 0
  httpRateLimited : List GoString := []

/-- What a handler has left: whether it panicked, its writer, `r.Pattern` and the world. -/
structure Handled (σ : Type) (R : Rate) where
  panicked : Bool
  writer : σ
  pattern : GoString
  world : World R

/-- `http.Handler`. The request ID is the one in the context of the request. -/
structure Handler (R : Rate) where
  serveHTTP {σ : Type} (w : ResponseWriter σ) (s : σ) (r : HttpRequest) (requestID : GoString)
    (g : World R) : Handled σ R

/-! ## The status recorder -/

/-- `statusRecorder`, over the states of the writer that it wraps. -/
structure StatusRecorder (σ : Type) where
  inner : σ
  status : Int := 200
  bytes : Nat := 0
  wroteHeader : Bool := false

namespace StatusRecorder

variable {σ : Type}

def writeHeader (w : ResponseWriter σ) (code : Int) (s : StatusRecorder σ) :
    Option (StatusRecorder σ) :=
  if s.wroteHeader then some s
  else (w.writeHeader code s.inner).map fun inner =>
    { s with inner, status := code, wroteHeader := true }

def write (w : ResponseWriter σ) (b : GoString) (s : StatusRecorder σ) :
    Nat × StatusRecorder σ :=
  let (n, inner) := w.write b s.inner
  (n, { s with inner, wroteHeader := true, bytes := s.bytes + n })

def writer (w : ResponseWriter σ) : ResponseWriter (StatusRecorder σ) := ⟨writeHeader w, write w⟩

/-- A recorder that has seen no call. -/
def Fresh (fresh : σ → Prop) (s : StatusRecorder σ) : Prop :=
  fresh s.inner ∧ s.status = 200 ∧ s.wroteHeader = false

/-- A recorder that has seen a status announced. -/
def Settled (settled : Int → σ → Prop) (code : Int) (s : StatusRecorder σ) : Prop :=
  settled code s.inner ∧ s.status = code ∧ s.wroteHeader = true

variable {w : ResponseWriter σ} {fresh : σ → Prop} {settled : Int → σ → Prop}
  {s : StatusRecorder σ} {code : Int}

/-- A recorder passes through the phases of the writer that it wraps. -/
theorem phases (h : w.Phases fresh settled) :
    (writer w).Phases (Fresh fresh) (Settled settled) where
  writeHeader {code s} hs hc := by
    obtain ⟨hf, -, hw⟩ := hs
    obtain ⟨inner, hin, hset⟩ := h.writeHeader hf hc
    refine ⟨{ s with inner, status := code, wroteHeader := true }, ?_, hset, rfl, rfl⟩
    simp [writer, writeHeader, hw, hin]
  panic {code s} hs hc := by
    obtain ⟨hf, -, hw⟩ := hs
    simp [writer, writeHeader, hw, h.panic hf hc]
  write {b s} hs := ⟨h.write hs.1, hs.2.1, rfl⟩
  write_settled {code b s} hs := ⟨h.write_settled hs.1, hs.2.1, rfl⟩

/-- After a status was announced, no call changes it, and none panics. -/
theorem run_settled (h : w.Phases fresh settled) (cs : List WriterCall)
    (hs : Settled settled code s) :
    ∃ s', (writer w).run cs s = (false, s') ∧ Settled settled code s' := by
  induction cs generalizing s with
  | nil => exact ⟨s, rfl, hs⟩
  | cons c cs ih =>
    cases c with
    | writeHeader code' =>
      have hskip : (writer w).writeHeader code' s = some s := if_pos hs.2.2
      simp only [ResponseWriter.run, hskip]
      exact ih hs
    | write b => exact ih ((phases h).write_settled hs)

/-- The first call of a handler decides whether it panics, and which status is seen. -/
theorem run_fresh (h : w.Phases fresh settled) (cs : List WriterCall) (hs : Fresh fresh s) :
    if ValidCode (announced cs) then ∃ s', (writer w).run cs s = (false, s') ∧
      ResponseWriter.Ended (Fresh fresh) (Settled settled) (announced cs) s'
    else ∃ s', (writer w).run cs s = (true, s') := by
  rcases cs with _ | ⟨code | b, cs⟩
  · exact ⟨s, rfl, .inr ⟨rfl, hs⟩⟩
  · rw [announced]
    split_ifs with hc
    · obtain ⟨s₁, hs₁, hset⟩ := (phases h).writeHeader hs hc
      obtain ⟨s', hrun, hset⟩ := run_settled h cs hset
      exact ⟨s', by simp only [ResponseWriter.run, hs₁, hrun], .inl hset⟩
    · exact ⟨s, by simp only [ResponseWriter.run, (phases h).panic hs hc]⟩
  · obtain ⟨s', hrun, hset⟩ := run_settled h cs ((phases h).write (b := b) hs)
    exact ⟨s', hrun, .inl hset⟩

theorem ended_inner
    (h : ResponseWriter.Ended (Fresh fresh) (Settled settled) code s) :
    s.status = code ∧ ResponseWriter.Ended fresh settled code s.inner := by
  rcases h with ⟨hset, hst, -⟩ | ⟨rfl, hf, hst, -⟩
  · exact ⟨hst, .inl hset⟩
  · exact ⟨hst, .inr ⟨rfl, hf⟩⟩

end StatusRecorder

/-! ## The middlewares -/

/-- `httpx.OTel`, with the middleware of `otelhttp`: whatever it records of a request, it
    passes it on, and the calls on the writer too. The request that is passed on is a
    copy, so the pattern is not seen outside. -/
structure OTel where
  middleware : {R : Rate} → Handler R → Handler R
  transparent : ∀ {R : Rate} (next : Handler R) {σ : Type} (w : ResponseWriter σ) (s : σ)
    (r : HttpRequest) (requestID : GoString) (g : World R),
    (middleware next).serveHTTP w s r requestID g =
      { next.serveHTTP w s r requestID g with pattern := [] }

namespace Httpx

variable {R : Rate}

/-- `Chain`. -/
def chain (h : Handler R) (mws : List (Handler R → Handler R)) : Handler R :=
  mws.foldr (fun mw h => mw h) h

/-- `routeOf`. -/
def routeOf (pattern : GoString) : GoString :=
  if pattern ≠ [] then pattern else lit "__unmatched__"

/-- `Recover`. -/
def recover (next : Handler R) : Handler R where
  serveHTTP w s r requestID g :=
    let res := next.serveHTTP w s r requestID g
    if res.panicked then
      let g := { res.world with
        httpPanics := res.world.httpPanics + 1
        panicLog := res.world.panicLog ++ [(r.method, routeOf res.pattern)] }
      match w.writeHeader 500 res.writer with
      | some s => ⟨false, s, res.pattern, g⟩
      | none => ⟨true, res.writer, res.pattern, g⟩
    else res

def requestIDHeader : GoString := lit "X-Request-ID"

/-- `RequestID`. The request that is passed on is a copy. -/
def requestID (next : Handler R) : Handler R where
  serveHTTP w s r _ g :=
    let id := r.header.get requestIDHeader
    let id := if id = [] then r.chance.newID else id
    { next.serveHTTP w s r id g with pattern := [] }

/-- `RateLimit`. -/
def rateLimit (cfg : RateLimitConfig) (next : Handler R) : Handler R where
  serveHTTP w s r requestID g :=
    let (verdict, limiters) := limit R cfg r.path r.chance.instants g.limiters
    let g := { g with limiters }
    match verdict with
    | .next => next.serveHTTP w s r requestID g
    | .panicked => ⟨true, s, [], g⟩
    | .limited _ =>
      let g := { g with httpRateLimited := g.httpRateLimited ++ [providerFromPath r.path] }
      match w.writeHeader 429 s with
      | some s => ⟨false, s, [], g⟩
      | none => ⟨true, s, [], g⟩

/-- `SLog`. -/
def slog (next : Handler R) : Handler R where
  serveHTTP w s r requestID g :=
    let res := next.serveHTTP (StatusRecorder.writer w) ⟨s, 200, 0, false⟩ r requestID g
    if res.panicked then ⟨true, res.writer.inner, res.pattern, res.world⟩
    else
      let line : AccessLine := {
        method := r.method
        route := routeOf res.pattern
        status := res.writer.status
        bytesIn := r.contentLength
        bytesOut := res.writer.bytes
        requestID }
      ⟨false, res.writer.inner, res.pattern,
        { res.world with accessLog := res.world.accessLog ++ [line] }⟩

/-- `Metrics`. A metric panics on a label that is not valid UTF-8. -/
def metrics (next : Handler R) : Handler R where
  serveHTTP w s r requestID g :=
    let g := { g with httpInflight := g.httpInflight + 1 }
    let res := next.serveHTTP (StatusRecorder.writer w) ⟨s, 200, 0, false⟩ r requestID g
    -- The decrement is deferred.
    let g := { res.world with httpInflight := res.world.httpInflight - 1 }
    let route := routeOf res.pattern
    if res.panicked ∨ ¬(ValidString r.method ∧ ValidString route) then
      ⟨true, res.writer.inner, res.pattern, g⟩
    else
      ⟨false, res.writer.inner, res.pattern, { g with
        httpRequests := g.httpRequests ++ [⟨r.method, route, res.writer.status⟩]
        httpRequestSize := g.httpRequestSize ++
          (if 0 < r.contentLength then [(r.method, route, r.contentLength)] else [])
        httpResponseSize := g.httpResponseSize ++ [(r.method, route, res.writer.bytes)] }⟩

end Httpx

variable {R : Rate}

/-! ## The handlers of the listeners -/

/-- `http.Error`. -/
def httpError (text : GoString) (code : Int) : Script where
  calls := [.writeHeader code, .write (text ++ lit "\n")]

/-- What the handler that the mux has found does; those of its patterns are given. The
    one that redirects is not modelled. -/
def muxScript (ps : ServeMux) (f : Pattern → HttpRequest → Script) (r : HttpRequest) : Script :=
  match ps.findHandler r.toTarget with
  | .badRequest => { calls := [.writeHeader 400] }
  | .redirect _ => r.chance.script
  | .matched p _ => f p r
  | .methodNotAllowed => httpError (lit "Method Not Allowed") 405
  | .notFound => httpError (lit "404 page not found") 404

/-- `mux.ServeHTTP`. -/
def mux (ps : ServeMux) (f : Pattern → HttpRequest → Script) : Handler R where
  serveHTTP w s r _ g :=
    let script := muxScript ps f r
    let (panicked, s) := w.run script.calls s
    ⟨panicked || script.panics, s, (ps.findHandler r.toTarget).pattern, g⟩

/-- The public listener, whose dispatcher may be disabled. -/
def publicScript (dispatcher : Bool) (_ : Pattern) (r : HttpRequest) : Script :=
  if dispatcher then r.chance.script else httpError (lit "webhook dispatcher disabled") 503

/-- `buildPublicHandler`. -/
def buildPublicHandler (R : Rate) (otel : OTel) (cfg : RateLimitConfig) (dispatcher : Bool) :
    Handler R :=
  Httpx.chain (mux publicMux (publicScript dispatcher))
    [Httpx.recover, otel.middleware, Httpx.requestID, Httpx.rateLimit cfg, Httpx.slog,
      Httpx.metrics]

/-- The pattern `GET path`, of which the segments are given. -/
def getPattern (path : GoString) (segments : List PatternSegment) : Pattern :=
  ⟨lit "GET", segments, lit "GET " ++ path⟩

def healthz : Pattern := getPattern (lit "/healthz") [.literal (lit "healthz")]

def readyz : Pattern := getPattern (lit "/readyz") [.literal (lit "readyz")]

/-- The patterns of `registerPProf`. -/
def pprofPatterns : List Pattern :=
  getPattern (lit "/debug/pprof/") [.literal (lit "debug"), .literal (lit "pprof"), .rest] ::
    [lit "cmdline", lit "profile", lit "symbol", lit "trace"].map fun name =>
      getPattern (lit "/debug/pprof/" ++ name)
        [.literal (lit "debug"), .literal (lit "pprof"), .literal name]

def adminMux (pprofEnabled : Bool) : ServeMux :=
  [healthz, readyz, getPattern (lit "/metrics") [.literal (lit "metrics")]] ++
    if pprofEnabled then pprofPatterns else []

/-- The handlers of the admin listener. Those of `promhttp` and `pprof` are not modelled. -/
def adminScript (p : Pattern) (r : HttpRequest) : Script :=
  if p = healthz then { calls := [.writeHeader 200, .write (lit "ok")] }
  else if p = readyz then
    if r.chance.ready then { calls := [.writeHeader 200, .write (lit "ready")] }
    else { calls := [.writeHeader 503, .write (lit "not ready")] }
  else r.chance.script

/-- `NewAdminMux`. -/
def newAdminMux (R : Rate) (pprofEnabled : Bool) : Handler R :=
  Httpx.chain (mux (adminMux pprofEnabled) adminScript) [Httpx.recover, Httpx.metrics]

/-! ## What a request leaves -/

/-- The lines of the access log and the increments of `HTTPRequests` that are new. -/
structure Leaves (g g' : World R) (lines : List AccessLine) (labels : List Labels) : Prop where
  accessLog : g'.accessLog = g.accessLog ++ lines
  httpRequests : g'.httpRequests = g.httpRequests ++ labels

theorem Leaves.of_eq {g g' : World R} (hlog : g'.accessLog = g.accessLog)
    (hreq : g'.httpRequests = g.httpRequests) : Leaves g g' [] [] :=
  ⟨hlog.trans (List.append_nil _).symm, hreq.trans (List.append_nil _).symm⟩

theorem Leaves.log {g g' : World R} {labels : List Labels} (h : Leaves g g' [] labels)
    (line : AccessLine) :
    Leaves g { g' with accessLog := g'.accessLog ++ [line] } [line] labels :=
  ⟨by rw [h.accessLog, List.append_nil], h.httpRequests⟩

/-- A handler that returns, as far as its first call and its end are concerned. -/
def Script.Returns (s : Script) : Prop := ValidCode (announced s.calls) ∧ s.panics = false

instance (s : Script) : Decidable s.Returns := inferInstanceAs (Decidable (_ ∧ _))

section

variable {σ : Type} {w : ResponseWriter σ} {fresh : σ → Prop} {settled : Int → σ → Prop} {s : σ}
  {cfg : RateLimitConfig} {ps : ServeMux} {f : Pattern → HttpRequest → Script} {r : HttpRequest}
  {id : GoString} {g : World R}

/-- The labels of a request that is counted. -/
def countedLabels (ps : ServeMux) (f : Pattern → HttpRequest → Script) (r : HttpRequest) :
    Labels where
  method := r.method
  route := Httpx.routeOf (ps.findHandler r.toTarget).pattern
  status := announced (muxScript ps f r).calls

/-- A mux behind a recorder. -/
theorem mux_recorded (h : w.Phases fresh settled) (hs : fresh s) :
    if (muxScript ps f r).Returns
    then ∃ s', (mux ps f).serveHTTP (StatusRecorder.writer w) ⟨s, 200, 0, false⟩ r id g =
        ⟨false, s', (ps.findHandler r.toTarget).pattern, g⟩ ∧
      s'.status = announced (muxScript ps f r).calls ∧
      ResponseWriter.Ended fresh settled (announced (muxScript ps f r).calls) s'.inner
    else ∃ s', (mux ps f).serveHTTP (StatusRecorder.writer w) ⟨s, 200, 0, false⟩ r id g =
      ⟨true, s', (ps.findHandler r.toTarget).pattern, g⟩ := by
  have hrun := StatusRecorder.run_fresh h (muxScript ps f r).calls
    (s := ⟨s, 200, 0, false⟩) ⟨hs, rfl, rfl⟩
  by_cases hret : (muxScript ps f r).Returns
  · rw [if_pos hret]
    obtain ⟨hc, hp⟩ := hret
    rw [if_pos hc] at hrun
    obtain ⟨s', hrun, hend⟩ := hrun
    obtain ⟨hst, hend⟩ := StatusRecorder.ended_inner hend
    exact ⟨s', by simp only [mux, hrun, hp]; rfl, hst, hend⟩
  · rw [if_neg hret]
    by_cases hc : ValidCode (announced (muxScript ps f r).calls)
    · rw [if_pos hc] at hrun
      obtain ⟨s', hrun, -⟩ := hrun
      have hp : (muxScript ps f r).panics = true := by
        by_contra hp
        exact hret ⟨hc, Bool.not_eq_true _ ▸ hp⟩
      exact ⟨s', by simp only [mux, hrun, hp]; rfl⟩
    · rw [if_neg hc] at hrun
      obtain ⟨s', hrun⟩ := hrun
      exact ⟨s', by simp only [mux, hrun]; rfl⟩

/-- `Metrics` counts a request whose handler returns, with the status announced. -/
theorem metrics_mux {res : Handled σ R} (h : w.Phases fresh settled) (hs : fresh s)
    (hroute : ValidString (Httpx.routeOf (ps.findHandler r.toTarget).pattern))
    (hres : (Httpx.metrics (mux ps f)).serveHTTP w s r id g = res) :
    if (muxScript ps f r).Returns
    then res.panicked = false ∧
      ResponseWriter.Ended fresh settled (announced (muxScript ps f r).calls) res.writer ∧
      Leaves g res.world [] [countedLabels ps f r]
    else res.panicked = true ∧ Leaves g res.world [] [] := by
  subst hres
  have hmux := @mux_recorded R σ w fresh settled s ps f r id
    { g with httpInflight := g.httpInflight + 1 } h hs
  by_cases hret : (muxScript ps f r).Returns
  · rw [if_pos hret] at hmux ⊢
    obtain ⟨s', hmux, hst, hend⟩ := hmux
    simp only [Httpx.metrics, hmux]
    rw [if_neg (by simp [validString_of_token r.token, hroute]), hst]
    exact ⟨rfl, hend, (List.append_nil _).symm, rfl⟩
  · rw [if_neg hret] at hmux ⊢
    obtain ⟨s', hmux⟩ := hmux
    simp only [Httpx.metrics, hmux]
    rw [if_pos (.inl trivial)]
    exact ⟨rfl, .of_eq rfl rfl⟩

/-- `SLog` logs it, with the same status. -/
theorem slog_mux {res : Handled σ R} (h : w.Phases fresh settled) (hs : fresh s)
    (hroute : ValidString (Httpx.routeOf (ps.findHandler r.toTarget).pattern))
    (hres : (Httpx.slog (Httpx.metrics (mux ps f))).serveHTTP w s r id g = res) :
    if (muxScript ps f r).Returns
    then res.panicked = false ∧
      ResponseWriter.Ended fresh settled (announced (muxScript ps f r).calls) res.writer ∧
      ∃ line : AccessLine, line.status = announced (muxScript ps f r).calls ∧
        Leaves g res.world [line] [countedLabels ps f r]
    else res.panicked = true ∧ Leaves g res.world [] [] := by
  subst hres
  obtain ⟨res, hres⟩ : ∃ res, (Httpx.metrics (mux ps f)).serveHTTP (StatusRecorder.writer w)
      ⟨s, 200, 0, false⟩ r id g = res := ⟨_, rfl⟩
  have hmet := metrics_mux (StatusRecorder.phases h) ⟨hs, rfl, rfl⟩ hroute hres
  by_cases hret : (muxScript ps f r).Returns
  · rw [if_pos hret] at hmet ⊢
    obtain ⟨hpan, hend, hl⟩ := hmet
    obtain ⟨hst, hend⟩ := StatusRecorder.ended_inner hend
    simp only [Httpx.slog, hres]
    rw [if_neg (by simp [hpan])]
    refine ⟨rfl, hend, _, ?_, hl.log _⟩
    exact hst
  · rw [if_neg hret] at hmet ⊢
    obtain ⟨hpan, hl⟩ := hmet
    simp only [Httpx.slog, hres]
    rw [if_pos hpan]
    exact ⟨rfl, hl⟩

/-- The limiter passes a request on, in the state that it finds. -/
def Admitted (cfg : RateLimitConfig) (g : World R) (r : HttpRequest) : Prop :=
  providerFromPath r.path = [] ∨
    (R.allow ((g.limiters (providerFromPath r.path)).getD (R.newLimiter cfg.rps cfg.burst))
      r.chance.instants.allow).1 = true

instance (cfg : RateLimitConfig) (g : World R) (r : HttpRequest) : Decidable (Admitted cfg g r) :=
  inferInstanceAs (Decidable (_ ∨ _))

/-- A request that `RateLimit` does not pass on leaves nothing. -/
theorem rateLimit_mux {res : Handled σ R} (h : w.Phases fresh settled) (hs : fresh s)
    (hroute : ValidString (Httpx.routeOf (ps.findHandler r.toTarget).pattern))
    (hres : (Httpx.rateLimit cfg (Httpx.slog (Httpx.metrics (mux ps f)))).serveHTTP w s r id g =
      res) :
    if Admitted cfg g r ∧ (muxScript ps f r).Returns
    then res.panicked = false ∧
      ResponseWriter.Ended fresh settled (announced (muxScript ps f r).calls) res.writer ∧
      ∃ line : AccessLine, line.status = announced (muxScript ps f r).calls ∧
        Leaves g res.world [line] [countedLabels ps f r]
    else Leaves g res.world [] [] := by
  subst hres
  simp only [Httpx.rateLimit]
  by_cases hadm : Admitted cfg g r
  · have hnext := limit_next_iff.mpr hadm
    simp only [hnext]
    have hslog := slog_mux h hs hroute
      (Eq.refl ((Httpx.slog (Httpx.metrics (mux ps f))).serveHTTP w s r id
        { g with limiters := (limit R cfg r.path r.chance.instants g.limiters).2 }))
    by_cases hret : (muxScript ps f r).Returns
    · rw [if_pos hret] at hslog
      rw [if_pos ⟨hadm, hret⟩]
      obtain ⟨hpan, hend, line, hst, hl⟩ := hslog
      exact ⟨hpan, hend, line, hst, hl.accessLog, hl.httpRequests⟩
    · rw [if_neg hret] at hslog
      rw [if_neg fun h => hret h.2]
      exact ⟨hslog.2.accessLog, hslog.2.httpRequests⟩
  · rw [if_neg fun h => hadm h.1]
    rcases hv : (limit R cfg r.path r.chance.instants g.limiters).1 with _ | n | _
    · exact absurd (limit_next_iff.mp hv) hadm
    · obtain ⟨s', hs', -⟩ := h.writeHeader hs (show ValidCode 429 by decide)
      simp only [hs']
      exact .of_eq rfl rfl
    · exact .of_eq rfl rfl

end

/-- `Recover` answers for a handler that panics, and changes no entry. -/
theorem recover_server {next : Handler R} {s : ServerResponse} {r : HttpRequest} {id : GoString}
    {g : World R} {res res' : Handled ServerResponse R}
    (hres : next.serveHTTP ServerResponse.writer s r id g = res)
    (hres' : (Httpx.recover next).serveHTTP ServerResponse.writer s r id g = res') :
    res'.panicked = false ∧ res'.world.accessLog = res.world.accessLog ∧
      res'.world.httpRequests = res.world.httpRequests ∧
      (res.panicked = false → res'.writer = res.writer) := by
  subst hres'
  simp only [Httpx.recover, hres]
  by_cases hp : res.panicked = true
  · obtain ⟨s', hs'⟩ := ServerResponse.exists_writeHeader (show ValidCode 500 by decide) res.writer
    rw [if_pos hp]
    simp only [hs', true_and]
    exact fun hn => absurd (hp.symm.trans hn) (by decide)
  · rw [if_neg hp]
    exact ⟨Bool.not_eq_true _ ▸ hp, rfl, rfl, fun _ => rfl⟩

end Webhookd
