import Webhookd.Middleware

/-!
# Accounting for requests

The requests to both listeners, one after the other, and what they leave in the
access log and the metrics.

* `accounted_iff`: a webhook request is logged and counted with the status on
  the wire exactly when the limiter passes it on, its handler returns, and that
  does not begin with an informational status;
* `labels_bounded_iff`: the labels of `HTTPRequests` are bounded in number
  exactly when the methods of the requests are.
-/

namespace Webhookd

open Go

/-! ## Requests to both listeners -/

inductive Listener
  | webhooks
  | admin
  deriving DecidableEq

/-- What the process is configured with. -/
structure Site where
  rateLimit : RateLimitConfig
  dispatcher : Bool
  pprofEnabled : Bool
  otel : OTel

variable {R : Rate}

/-- The handlers that `run` serves. -/
def Site.handler (R : Rate) (site : Site) : Listener → Handler R
  | .webhooks => buildPublicHandler R site.otel site.rateLimit site.dispatcher
  | .admin => newAdminMux R site.pprofEnabled

/-- A request, the response to it, and the world before and after. -/
structure RoundTrip (R : Rate) where
  listener : Listener
  request : HttpRequest
  before : World R
  response : ServerResponse
  after : World R

/-- The server serves a request. -/
def Site.roundTrip (site : Site) (g : World R) (x : Listener × HttpRequest) : RoundTrip R :=
  let res := (site.handler R x.1).serveHTTP ServerResponse.writer
    { capacity := x.2.chance.capacity } x.2 [] g
  ⟨x.1, x.2, g, res.writer, res.world⟩

/-- Requests that are served one after the other. -/
def Site.serveAll (site : Site) : World R → List (Listener × HttpRequest) → List (RoundTrip R)
  | _, [] => []
  | g, x :: xs => site.roundTrip g x :: site.serveAll (site.roundTrip g x).after xs

/-- The world that they leave. -/
def Site.final (site : Site) (g : World R) (xs : List (Listener × HttpRequest)) : World R :=
  xs.foldl (fun g x => (site.roundTrip g x).after) g

theorem Site.final_cons (site : Site) (g : World R) (x : Listener × HttpRequest)
    (xs : List (Listener × HttpRequest)) :
    site.final g (x :: xs) = site.final (site.roundTrip g x).after xs := rfl

/-! ## Routes and labels -/

/-- The mux behind a listener. -/
def Site.mux (site : Site) : Listener → ServeMux
  | .webhooks => publicMux
  | .admin => adminMux site.pprofEnabled

/-- What the handlers of its patterns do. -/
def Site.handlers (site : Site) : Listener → Pattern → HttpRequest → Script
  | .webhooks => publicScript site.dispatcher
  | .admin => adminScript

/-- What the handler of a request does. -/
def Site.script (site : Site) (x : Listener × HttpRequest) : Script :=
  muxScript (site.mux x.1) (site.handlers x.1) x.2

/-- The labels of a request. -/
def Site.labels (site : Site) (x : Listener × HttpRequest) : Labels :=
  countedLabels (site.mux x.1) (site.handlers x.1) x.2

/-- The routes that requests can be counted under. -/
def Site.routes (site : Site) : List GoString :=
  lit "__unmatched__" :: (site.mux .webhooks ++ site.mux .admin).map (·.text)

theorem routeOf_mem (site : Site) (l : Listener) (r : Target) :
    Httpx.routeOf ((site.mux l).findHandler r).pattern ∈ site.routes := by
  rw [Httpx.routeOf]
  split_ifs with h
  · refine List.mem_cons_of_mem _ ?_
    rw [List.map_append, List.mem_append]
    cases l with
    | webhooks => exact .inl ((ServeMux.pattern_findHandler _ r).resolve_left h)
    | admin => exact .inr ((ServeMux.pattern_findHandler _ r).resolve_left h)
  · exact List.mem_cons_self

theorem validString_routes (site : Site) : ∀ t ∈ site.routes, ValidString t := by
  simp only [Site.routes, Site.mux]
  rcases site.pprofEnabled
  · decide +kernel
  · decide +kernel

theorem validString_routeOf (site : Site) (l : Listener) (r : Target) :
    ValidString (Httpx.routeOf ((site.mux l).findHandler r).pattern) :=
  validString_routes site _ (routeOf_mem site l r)

/-! ## What a request leaves -/

/-- A request is counted: its handler returns and, if it is a webhook request, the limiter
    passes it on. -/
def Site.Counts (site : Site) (g : World R) (x : Listener × HttpRequest) : Prop :=
  (x.1 = .webhooks → Admitted site.rateLimit g x.2) ∧ (site.script x).Returns

instance (site : Site) (g : World R) (x : Listener × HttpRequest) : Decidable (site.Counts g x) :=
  inferInstanceAs (Decidable (_ ∧ _))

/-- A webhook request is logged if it is counted, with the status that is announced. -/
theorem webhooks_leaves (site : Site) (g : World R) (r : HttpRequest) :
    if site.Counts g (.webhooks, r)
    then (site.roundTrip g (.webhooks, r)).response.final =
        (if Informational (announced (site.script (.webhooks, r)).calls) then 200
          else announced (site.script (.webhooks, r)).calls) ∧
      ∃ line : AccessLine, line.status = announced (site.script (.webhooks, r)).calls ∧
        Leaves g (site.roundTrip g (.webhooks, r)).after [line] [site.labels (.webhooks, r)]
    else Leaves g (site.roundTrip g (.webhooks, r)).after [] [] := by
  obtain ⟨id, hid⟩ : ∃ id, id = if r.header.get Httpx.requestIDHeader = [] then r.chance.newID
    else r.header.get Httpx.requestIDHeader := ⟨_, rfl⟩
  obtain ⟨res, hres⟩ : ∃ res, (Httpx.rateLimit site.rateLimit (Httpx.slog (Httpx.metrics
    (mux (site.mux .webhooks) (site.handlers .webhooks))))).serveHTTP ServerResponse.writer
      { capacity := r.chance.capacity } r id g = res := ⟨_, rfl⟩
  have hlim := rateLimit_mux ServerResponse.phases rfl
    (validString_routeOf site .webhooks r.toTarget) hres
  -- Between the limiter and `Recover`, only the pattern is forgotten.
  have hotel : (site.otel.middleware (Httpx.requestID (Httpx.rateLimit site.rateLimit (Httpx.slog
      (Httpx.metrics (mux (site.mux .webhooks) (site.handlers .webhooks))))))).serveHTTP
        ServerResponse.writer { capacity := r.chance.capacity } r [] g =
      { res with pattern := [] } := by
    simp only [site.otel.transparent, Httpx.requestID, ← hid, hres]
  obtain ⟨res', hres'⟩ : ∃ res', (site.handler R .webhooks).serveHTTP ServerResponse.writer
    { capacity := r.chance.capacity } r [] g = res' := ⟨_, rfl⟩
  have htrip : site.roundTrip g (.webhooks, r) = ⟨.webhooks, r, g, res'.writer, res'.world⟩ := by
    rw [← hres', Site.roundTrip]
  obtain ⟨-, hlog, hreq, hwriter⟩ := recover_server hotel hres'
  rw [htrip]
  by_cases hc : site.Counts g (.webhooks, r)
  · rw [if_pos hc]
    rw [if_pos ⟨hc.1 rfl, hc.2⟩] at hlim
    obtain ⟨hpan, hend, line, hst, hl⟩ := hlim
    refine ⟨?_, line, hst, hlog.trans hl.accessLog, hreq.trans hl.httpRequests⟩
    exact (congrArg ServerResponse.final (hwriter hpan)).trans (ServerResponse.final_of_ended hend)
  · rw [if_neg hc]
    rw [if_neg fun h => hc ⟨fun _ => h.1, h.2⟩] at hlim
    exact ⟨hlog.trans hlim.accessLog, hreq.trans hlim.httpRequests⟩

/-- The increments of a request: at most one. -/
theorem roundTrip_httpRequests (site : Site) (g : World R) (x : Listener × HttpRequest) :
    (site.roundTrip g x).after.httpRequests =
      g.httpRequests ++ if site.Counts g x then [site.labels x] else [] := by
  obtain ⟨l, r⟩ := x
  cases l with
  | webhooks =>
    have h := webhooks_leaves site g r
    by_cases hc : site.Counts g (.webhooks, r)
    · rw [if_pos hc] at h ⊢
      obtain ⟨-, line, -, hl⟩ := h
      exact hl.httpRequests
    · rw [if_neg hc] at h ⊢
      exact h.httpRequests
  | admin =>
    obtain ⟨res, hres⟩ : ∃ res, (Httpx.metrics (mux (site.mux .admin)
      (site.handlers .admin))).serveHTTP ServerResponse.writer
        { capacity := r.chance.capacity } r [] g = res := ⟨_, rfl⟩
    have hmet := metrics_mux ServerResponse.phases rfl
      (validString_routeOf site .admin r.toTarget) hres
    obtain ⟨-, -, hreq, -⟩ := recover_server hres rfl
    by_cases hret : (muxScript (site.mux .admin) (site.handlers .admin) r).Returns
    · rw [if_pos hret] at hmet
      rw [if_pos ⟨nofun, hret⟩]
      exact hreq.trans hmet.2.2.httpRequests
    · rw [if_neg hret] at hmet
      rw [if_neg fun h => hret h.2]
      exact hreq.trans hmet.2.httpRequests

/-! ## Accounting -/

/-- A request is logged once and counted once, both with the status on the wire. -/
def RoundTrip.Accounted (e : RoundTrip R) : Prop :=
  ∃ line labels, Leaves e.before e.after [line] [labels] ∧
    line.status = e.response.final ∧ labels.status = e.response.final

/-- A webhook request is accounted for exactly when it is counted, and its handler does not
    begin with an informational status. -/
theorem accounted_webhooks (site : Site) (g : World R) (r : HttpRequest) :
    (site.roundTrip g (.webhooks, r)).Accounted ↔ site.Counts g (.webhooks, r) ∧
      ¬Informational (announced (site.script (.webhooks, r)).calls) := by
  have h := webhooks_leaves site g r
  by_cases hc : site.Counts g (.webhooks, r)
  · rw [if_pos hc] at h
    obtain ⟨hfinal, line, hst, hl⟩ := h
    rw [RoundTrip.Accounted, hfinal]
    constructor
    · rintro ⟨line', labels, hl', hst', -⟩
      refine ⟨hc, fun hi => ?_⟩
      have hline : line' = line :=
        List.singleton_inj.mp (List.append_cancel_left (hl'.accessLog.symm.trans hl.accessLog))
      rw [if_pos hi, hline, hst] at hst'
      rw [hst'] at hi
      exact absurd hi (by decide)
    · rintro ⟨-, hi⟩
      rw [if_neg hi]
      exact ⟨line, _, hl, hst, rfl⟩
  · rw [if_neg hc] at h
    refine iff_of_false ?_ fun h => hc h.1
    rintro ⟨line, labels, hl, -⟩
    have hnil : [line] = [] := List.append_cancel_left (hl.accessLog.symm.trans h.accessLog)
    cases hnil

theorem exists_of_mem_serveAll {site : Site} {g : World R} {xs : List (Listener × HttpRequest)}
    {e : RoundTrip R} (h : e ∈ site.serveAll g xs) : ∃ g' x, e = site.roundTrip g' x := by
  induction xs generalizing g with
  | nil => cases h
  | cons x xs ih =>
    rcases List.mem_cons.mp h with rfl | h
    · exact ⟨g, x, rfl⟩
    · exact ih h

/-- As many requests are counted as were made exactly when each of them is. -/
theorem length_httpRequests (site : Site) (g : World R) (xs : List (Listener × HttpRequest)) :
    (site.final g xs).httpRequests.length ≤ g.httpRequests.length + xs.length ∧
    ((site.final g xs).httpRequests.length = g.httpRequests.length + xs.length ↔
      ∀ e ∈ site.serveAll g xs, site.Counts e.before (e.listener, e.request)) := by
  induction xs generalizing g with
  | nil => exact ⟨le_rfl, iff_of_true rfl fun e he => absurd he List.not_mem_nil⟩
  | cons x xs ih =>
    obtain ⟨hle, hiff⟩ := ih (site.roundTrip g x).after
    have hlen := congrArg List.length (roundTrip_httpRequests site g x)
    rw [Site.serveAll, List.forall_mem_cons, ← hiff, List.length_cons, Site.final_cons,
      show (site.roundTrip g x).before = g from rfl,
      show ((site.roundTrip g x).listener, (site.roundTrip g x).request) = x from rfl]
    rw [List.length_append] at hlen
    by_cases hc : site.Counts g x
    · rw [if_pos hc, List.length_singleton] at hlen
      rw [and_iff_right hc]
      omega
    · rw [if_neg hc, List.length_nil] at hlen
      exact ⟨by omega, iff_of_false (by omega) fun h => hc h.1⟩

/-- Along every sequence of requests, from any state of the limiters: a webhook request is
    logged and counted once, with the status on the wire, exactly when the limiter
    passes it on, its handler returns, and that does not begin with an informational
    status. The counter is the number of requests exactly when all of them are
    passed on and return. -/
theorem accounted_iff (R : Rate) (site : Site) (g : World R)
    (xs : List (Listener × HttpRequest)) :
    (∀ e ∈ site.serveAll g xs, e.listener = .webhooks →
      (e.Accounted ↔ Admitted site.rateLimit e.before e.request ∧
        (site.script (.webhooks, e.request)).Returns ∧
        ¬Informational (announced (site.script (.webhooks, e.request)).calls))) ∧
    ((site.final g xs).httpRequests.length = g.httpRequests.length + xs.length ↔
      ∀ e ∈ site.serveAll g xs, (e.listener = .webhooks →
        Admitted site.rateLimit e.before e.request) ∧
        (site.script (e.listener, e.request)).Returns) := by
  refine ⟨fun e he hl => ?_, (length_httpRequests site g xs).2⟩
  obtain ⟨g', ⟨l, r⟩, rfl⟩ := exists_of_mem_serveAll he
  obtain rfl : l = .webhooks := hl
  rw [accounted_webhooks, Site.Counts, and_assoc, forall_prop_of_true rfl]
  rfl

/-- A middleware that only passes requests on. -/
def sampleOTel : OTel where
  middleware next :=
    ⟨fun w s r requestID g => { next.serveHTTP w s r requestID g with pattern := [] }⟩
  transparent _ _ _ _ _ _ _ := rfl

/-- A process whose limiters allow one request a second. -/
def sampleSite : Site := ⟨⟨.fin 1, 1⟩, true, false, sampleOTel⟩

/-- A delivery that is accepted. -/
def sampleDelivery : HttpRequest where
  toTarget := sampleArrival.toTarget
  token := by decide
  header := .ofPairs []
  contentLength := 2
  chance := ⟨lit "id", ⟨0, 0, 0, 0⟩, ⟨[.writeHeader 202, .write (lit "ok")], false⟩, 1000, true⟩

theorem accounted_sample :
    (sampleSite.roundTrip ({} : World exactRate) (.webhooks, sampleDelivery)).Accounted :=
  ((accounted_iff exactRate sampleSite {} [(.webhooks, sampleDelivery)]).1 _ List.mem_cons_self
    rfl).mpr (by decide +kernel)

/-- The second of two deliveries is answered with status 429, and neither logged nor
    counted. -/
theorem unaccounted_limited :
    ∃ e ∈ sampleSite.serveAll ({} : World exactRate)
        [(.webhooks, sampleDelivery), (.webhooks, sampleDelivery)],
      e.listener = .webhooks ∧ e.response.final = 429 ∧ Leaves e.before e.after [] [] ∧
        ¬e.Accounted := by
  have hc : ¬sampleSite.Counts
      (sampleSite.roundTrip ({} : World exactRate) (.webhooks, sampleDelivery)).after
        (.webhooks, sampleDelivery) := by decide +kernel
  have hl := webhooks_leaves sampleSite
    (sampleSite.roundTrip ({} : World exactRate) (.webhooks, sampleDelivery)).after sampleDelivery
  rw [if_neg hc] at hl
  refine ⟨_, List.mem_cons_of_mem _ List.mem_cons_self, rfl, by decide +kernel, hl, ?_⟩
  rw [accounted_webhooks]
  exact fun h => hc h.1

/-! ## How many labels there are -/

/-- All that was counted has a method in `M`. -/
def World.Labelled (site : Site) (M : Set GoString) (g : World R) : Prop :=
  ∀ l ∈ g.httpRequests, l.method ∈ M ∧ l.route ∈ site.routes ∧ ValidCode l.status

theorem labelled_final {site : Site} {M : Set GoString} {g : World R}
    {xs : List (Listener × HttpRequest)} (hxs : ∀ x ∈ xs, x.2.method ∈ M)
    (hg : g.Labelled site M) : (site.final g xs).Labelled site M := by
  induction xs generalizing g with
  | nil => exact hg
  | cons x xs ih =>
    rw [Site.final_cons]
    refine ih (fun y hy => hxs y (List.mem_cons_of_mem _ hy)) fun l hl => ?_
    rw [roundTrip_httpRequests, List.mem_append] at hl
    rcases hl with hl | hl
    · exact hg l hl
    · split_ifs at hl with hc
      · rw [List.mem_singleton.mp hl]
        exact ⟨hxs x List.mem_cons_self, routeOf_mem site x.1 x.2.toTarget, hc.2.1⟩
      · cases hl

/-- There are at most as many labels as methods, routes and status codes allow. -/
theorem card_labels_le {site : Site} {F : Finset GoString} {g : World R}
    (hg : g.Labelled site F) :
    g.httpRequests.toFinset.card ≤ F.card * site.routes.toFinset.card * 900 := by
  have hsub : g.httpRequests.toFinset ⊆
      ((F ×ˢ site.routes.toFinset) ×ˢ Finset.Icc (100 : ℤ) 999).image fun x =>
        (⟨x.1.1, x.1.2, x.2⟩ : Labels) := by
    intro l hl
    obtain ⟨hm, hr, hs⟩ := hg l (List.mem_toFinset.mp hl)
    refine Finset.mem_image.mpr ⟨((l.method, l.route), l.status), ?_, rfl⟩
    simp only [Finset.mem_product, List.mem_toFinset, Finset.mem_Icc]
    exact ⟨⟨hm, hr⟩, hs⟩
  calc g.httpRequests.toFinset.card
      ≤ ((F ×ˢ site.routes.toFinset) ×ˢ Finset.Icc (100 : ℤ) 999).card :=
        (Finset.card_le_card hsub).trans Finset.card_image_le
    _ = F.card * site.routes.toFinset.card * 900 := by
        rw [Finset.card_product, Finset.card_product, Int.card_Icc]
        rfl

/-- A request for the root, with some method. -/
def unmatched (m : GoString) (h : validHeaderFieldName m = true) : HttpRequest where
  method := m
  requestURI := lit "/"
  escapedPath := lit "/"
  path := lit "/"
  unescape_eq := by decide
  token := h
  header := .ofPairs []
  contentLength := 0
  chance := ⟨lit "id", ⟨0, 0, 0, 0⟩, ⟨[], false⟩, 0, true⟩

theorem startsLiteral_mux (site : Site) (l : Listener) :
    ∀ p ∈ site.mux l, p.startsLiteral = true := by
  cases l with
  | webhooks => exact (show ∀ p ∈ publicMux, p.startsLiteral = true by decide)
  | admin =>
    simp only [Site.mux]
    rcases site.pprofEnabled
    · decide
    · decide

/-- It is counted with its method. -/
theorem roundTrip_unmatched (site : Site) (g : World R) (l : Listener) {m : GoString}
    (h : validHeaderFieldName m = true) :
    (site.roundTrip g (l, unmatched m h)).after.httpRequests =
      g.httpRequests ++ [⟨m, lit "__unmatched__", 404⟩] := by
  have hfind : (site.mux l).findHandler (unmatched m h).toTarget = .notFound :=
    ServeMux.findHandler_root (startsLiteral_mux site l) (show lit "/" ≠ lit "*" by decide) rfl
  have hscript : site.script (l, unmatched m h) = httpError (lit "404 page not found") 404 := by
    simp only [Site.script, muxScript, hfind]
  have hlabels : site.labels (l, unmatched m h) =
      ⟨m, Httpx.routeOf ((site.mux l).findHandler (unmatched m h).toTarget).pattern,
        announced (site.script (l, unmatched m h)).calls⟩ := rfl
  have hc : site.Counts g (l, unmatched m h) :=
    ⟨fun _ => .inl (show providerFromPath (lit "/") = [] by decide), hscript ▸ by decide⟩
  rw [roundTrip_httpRequests, if_pos hc, hlabels, hfind, hscript]
  rfl

theorem final_unmatched (site : Site) (g : World R) (l : Listener) (ms : List GoString)
    (hms : ∀ m ∈ ms, validHeaderFieldName m = true) :
    (site.final g (ms.pmap (fun m h => (l, unmatched m h)) hms)).httpRequests =
      g.httpRequests ++ ms.map (⟨·, lit "__unmatched__", 404⟩) := by
  induction ms generalizing g with
  | nil => exact (List.append_nil _).symm
  | cons m ms ih =>
    rw [List.pmap_cons, Site.final_cons, ih, roundTrip_unmatched, List.append_assoc]
    rfl

/-- Requests that match no pattern are counted under as many labels as they have methods. -/
theorem exists_labels (R : Rate) (site : Site) (l : Listener) (F : Finset GoString)
    (hF : ∀ m ∈ F, validHeaderFieldName m = true) :
    ∃ xs, (∀ x ∈ xs, x.1 = l ∧ x.2.method ∈ F) ∧
      (site.final ({} : World R) xs).httpRequests.toFinset.card = F.card := by
  have hms : ∀ m ∈ F.toList, validHeaderFieldName m = true := fun m hm =>
    hF m (Finset.mem_toList.mp hm)
  refine ⟨F.toList.pmap (fun m h => (l, unmatched m h)) hms, fun x hx => ?_, ?_⟩
  · obtain ⟨m, hm, rfl⟩ := List.mem_pmap.mp hx
    exact ⟨rfl, Finset.mem_toList.mp hm⟩
  · rw [final_unmatched, List.nil_append, List.toFinset_card_of_nodup, List.length_map,
      Finset.length_toList]
    exact F.nodup_toList.map fun m m' h => congrArg Labels.method h

/-- Of requests to some of the listeners with methods from a given set, the labels are
    bounded in number, whatever the requests are, exactly when the set is finite. -/
theorem labels_bounded_iff (R : Rate) (site : Site) {L : Set Listener} (hL : L.Nonempty)
    {M : Set GoString} (hM : ∀ m ∈ M, validHeaderFieldName m = true) :
    (∃ N, ∀ xs : List (Listener × HttpRequest), (∀ x ∈ xs, x.1 ∈ L ∧ x.2.method ∈ M) →
      (site.final ({} : World R) xs).httpRequests.toFinset.card ≤ N) ↔ M.Finite := by
  constructor
  · rintro ⟨N, hN⟩
    by_contra hinf
    obtain ⟨l, hl⟩ := hL
    obtain ⟨F, hFM, hcard⟩ := Set.Infinite.exists_subset_card_eq hinf (N + 1)
    obtain ⟨xs, hxs, hx⟩ := exists_labels R site l F fun m hm => hM m (hFM hm)
    have hle := hN xs fun x hmem => ⟨(hxs x hmem).1 ▸ hl, hFM (hxs x hmem).2⟩
    omega
  · intro hfin
    refine ⟨hfin.toFinset.card * site.routes.toFinset.card * 900, fun xs hxs => ?_⟩
    refine card_labels_le (labelled_final (fun x hx => ?_) fun l hl => absurd hl List.not_mem_nil)
    exact hfin.mem_toFinset.mpr (hxs x hx).2

theorem labels_bounded_post :
    ∃ N, ∀ xs : List (Listener × HttpRequest),
      (∀ x ∈ xs, x.1 ∈ ({.webhooks} : Set Listener) ∧ x.2.method ∈ ({lit "POST"} : Set GoString)) →
      (sampleSite.final ({} : World exactRate) xs).httpRequests.toFinset.card ≤ N :=
  (labels_bounded_iff exactRate sampleSite (Set.singleton_nonempty _) fun m hm => by
    rw [Set.mem_singleton_iff.mp hm]
    decide).mpr (Set.finite_singleton _)

/-- Whatever the bound, requests with ever longer methods exceed it. -/
theorem labels_unbounded :
    ¬∃ N, ∀ xs : List (Listener × HttpRequest),
      (sampleSite.final ({} : World exactRate) xs).httpRequests.toFinset.card ≤ N := by
  rintro ⟨N, hN⟩
  let F : Finset GoString := (Finset.range (N + 1)).image fun n => List.replicate (n + 1) (ch 'A')
  have hcard : F.card = N + 1 := by
    rw [Finset.card_image_of_injective, Finset.card_range]
    intro n n' h
    simpa using congrArg List.length h
  obtain ⟨xs, -, hx⟩ := exists_labels exactRate sampleSite .webhooks F fun m hm => by
    obtain ⟨n, -, rfl⟩ := Finset.mem_image.mp hm
    rw [validHeaderFieldName, List.all_replicate, if_neg n.succ_ne_zero]
    rfl
  have hle := hN xs
  omega

end Webhookd
