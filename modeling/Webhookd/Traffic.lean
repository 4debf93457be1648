import Webhookd.Accounting

/-!
# Traffic

What every request to the two listeners leaves in the metrics and in both logs,
however its handler ends: it is counted, limited, or it has panicked (`Fate`). One
of the three happens to each request, whatever its handler writes before, so the
counters add up to the requests (`traffic_conserved`).

* On the listener for webhooks, a panic is logged without its route: the patterns
  are set on copies of the request that `Recover` does not see.
* A recorder passes on the first status only, so a handler that starts with an
  informational one sends 200 if it writes, and otherwise nothing (`sentStatus`). A
  request that has panicked is answered with status 500 if nothing was sent.
* The bytes in the access log and in the metrics are those that the connection takes
  (`Script.sentBytes`).
-/

namespace Webhookd

open Go

variable {R : Rate}

/-! ## Recorders -/

namespace StatusRecorder

variable {σ : Type} {w : ResponseWriter σ} {fresh : σ → Prop} {settled : Int → σ → Prop}

/-- A new recorder, after the calls of a handler. -/
def after (w : ResponseWriter σ) (s : σ) (cs : List WriterCall) : StatusRecorder σ :=
  ((writer w).run cs ⟨s, 200, 0, false⟩).2

variable {fresh' : Nat → σ → Prop} {sees : Option Int → Nat → σ → Prop} {cap : Nat}

end StatusRecorder

namespace StatusRecorder

variable {σ : Type} {w : ResponseWriter σ} {fresh' : Nat → σ → Prop}
  {sees : Option Int → Nat → σ → Prop} {cap : Nat}

end StatusRecorder

/-! ## The chains -/

/-- `Metrics` counts a request. -/
def World.counted (g : World R) (labels : Labels) (contentLength : Int) (bytes : Nat) : World R :=
  { g with
    httpRequests := g.httpRequests ++ [labels]
    httpRequestSize := g.httpRequestSize ++
      (if 0 < contentLength then [(labels.method, labels.route, contentLength)] else [])
    httpResponseSize := g.httpResponseSize ++ [(labels.method, labels.route, bytes)] }

section

variable {σ : Type} {w : ResponseWriter σ} {fresh : σ → Prop} {settled : Int → σ → Prop} {s : σ}
  {cfg : RateLimitConfig} {ps : ServeMux} {f : Pattern → HttpRequest → Script} {r : HttpRequest}
  {g : World R} (id : GoString)

/-- The writer behind the recorders of `SLog` and `Metrics`, after the calls of a handler. -/
def logged (w : ResponseWriter σ) (s : σ) (cs : List WriterCall) : σ :=
  (StatusRecorder.after (StatusRecorder.writer w) ⟨s, 200, 0, false⟩ cs).inner.inner

end

/-! ## How a request ends -/

/-- The route that a request is counted under. -/
def Site.route (site : Site) (x : Listener × HttpRequest) : GoString :=
  Httpx.routeOf ((site.mux x.1).findHandler x.2.toTarget).pattern

/-- The ID that `RequestID` puts into the context of a request. -/
def HttpRequest.requestID (r : HttpRequest) : GoString :=
  if r.header.get Httpx.requestIDHeader = [] then r.chance.newID
  else r.header.get Httpx.requestIDHeader

/-- The limiters after a request, which are asked for webhooks only. -/
def Site.limiters (site : Site) (g : World R) (x : Listener × HttpRequest) : GoMap R.Limiter :=
  match x.1 with
  | .webhooks => (limit R site.rateLimit x.2.path x.2.chance.instants g.limiters).2
  | .admin => g.limiters

/-- How the metrics and the logs after `n` requests add up. -/
structure Reconciles (n : Nat) (g g' : World R) : Prop where
  total : g'.httpRequests.length + g'.httpRateLimited.length + g'.httpPanics =
    g.httpRequests.length + g.httpRateLimited.length + g.httpPanics + n
  inflight : g'.httpInflight = g.httpInflight
  sizes : g'.httpResponseSize.length + g.httpRequests.length =
    g.httpResponseSize.length + g'.httpRequests.length
  panics : g'.panicLog.length + g.httpPanics = g.panicLog.length + g'.httpPanics
  logged : g'.accessLog.length + g.httpRequests.length ≤
    g.accessLog.length + g'.httpRequests.length

theorem Reconciles.trans {m n : Nat} {g g' g'' : World R} (h : Reconciles m g g')
    (h' : Reconciles n g' g'') : Reconciles (m + n) g g'' where
  total := by rw [h'.total, h.total, Nat.add_assoc]
  inflight := h'.inflight.trans h.inflight
  sizes := by have := h.sizes; have := h'.sizes; omega
  panics := by have := h.panics; have := h'.panics; omega
  logged := by have := h.logged; have := h'.logged; omega

end Webhookd
