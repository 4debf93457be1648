import Webhookd.Cluster.Success

/-!
# Redelivery

The same ticket may be delivered any number of times, by any replicas. All
deliveries send the same object, up to annotations about the request
(`SamePatch`), so once the first one has landed the record keeps its spec and
its generation (`Settled`); and once the operator has marked it ready for that
generation, a delivery finds that in its initial Get, unless the operator
takes it back before (`Fast`).

* `redelivery_idempotent` is all of this, over runs of deliveries of a ticket
  that follow any history of the cluster;
* `redelivery_withdrawn` is a delivery that waits for a watch, because the
  operator took the status back.
-/

namespace Webhookd

open Go

/-! ## Deliveries of a ticket -/

/-- An issue key, and the values of the three fields. -/
structure TicketValues where
  key : GoString
  providerGroupID : GoString
  role : GoString
  project : GoString

section

variable (cfg : Jsm.Config) (v : TicketValues)

/-- The action of a ticket with the given values. -/
def ticketAction : ApplyAction :=
  Jsm.applyAction cfg v.key v.providerGroupID v.role v.project

/-- The spec of a ticket with the given values. -/
def ticketSpec : SAMLGroupMappingSpec :=
  Jsm.buildSpec v.providerGroupID v.role v.project cfg.identityProviderID
    (Jsm.buildDescription v.key)

/-- The key of the record of a ticket. -/
def ticketKey : Key := (cfg.namespace_, Jsm.crName v.key)

/-- `Handle` maps some body with the given values to an action. -/
def Delivers (act : ApplyAction) : Prop :=
  ∃ body payload, Jsm.decode body = .ok payload ∧ payload.issueKey = v.key ∧
    payload.TrimmedField cfg.fieldProviderGroupID v.providerGroupID ∧
    payload.TrimmedField cfg.fieldRole v.role ∧ payload.TrimmedField cfg.fieldProject v.project ∧
    Jsm.handle cfg body = .ok (.apply act)

/-- The steps of deliveries of a ticket whose calls succeed, and of the operator. -/
def Redelivers : ClusterLabel → Prop
  | .start _ a => Delivers cfg v a.2
  | .step _ (.fail _) => False
  | .step _ _ => True
  | .env (.setStatus _ _) => True
  | .env _ => False

end

variable {cfg : Jsm.Config} {v : TicketValues}

/-- An action of a ticket is determined by the values of the ticket. -/
theorem Delivers.eq {act : ApplyAction} (h : Delivers cfg v act) : act = ticketAction cfg v := by
  obtain ⟨body, payload, hd, hk, hg, hr, hp, hh⟩ := h
  obtain ⟨payload', g, r, p, hd', -, hg', hr', hp', rfl⟩ := Jsm.handle_apply.mp hh
  obtain rfl := Except.ok.inj (hd.symm.trans hd')
  rw [← Jsm.extractString_eq_ok] at hg hr hp
  rw [ticketAction, ← hk, Except.ok.inj (hg.symm.trans hg'), Except.ok.inj (hr.symm.trans hr'),
    Except.ok.inj (hp.symm.trans hp')]

/-- Two objects that are sent agree on all but the annotations of the request. -/
def SamePatch (a b : ClientObject) : Prop :=
  ∃ ca cb, a = .samlGroupMapping ca ∧ b = .samlGroupMapping cb ∧
    ca.metadata.name = cb.metadata.name ∧ ca.metadata.namespace_ = cb.metadata.namespace_ ∧
    ca.spec = cb.spec ∧ ca.metadata.labels = cb.metadata.labels ∧
    ∀ n, n ∉ requestAnnotations → ca.metadata.annotations n = cb.metadata.annotations n

/-- The object that a delivery of a ticket sends. -/
def ticketObject (cfg : Jsm.Config) (v : TicketValues) (ctx : RequestContext) : SAMLGroupMapping :=
  let cr := Jsm.buildSAMLGroupMapping (Jsm.crName v.key) cfg.namespace_ (ticketSpec cfg v)
  { cr with metadata :=
    { cr.metadata with
      labels := mergeLabels cr.metadata.labels (systemLabels (ticketAction cfg v).source)
      annotations := mergeAnnotations cr.metadata.annotations (ticketAction cfg v).annotations
        (systemAnnotations ctx) } }

theorem samePatch_ticketObject (cfg : Jsm.Config) (v : TicketValues) (ctx ctx' : RequestContext) :
    SamePatch (.samlGroupMapping (ticketObject cfg v ctx))
      (.samlGroupMapping (ticketObject cfg v ctx')) := by
  refine ⟨_, _, rfl, rfl, rfl, rfl, rfl, rfl, fun n hn => ?_⟩
  exact (mergeAnnotations_system _ _ ctx hn).trans (mergeAnnotations_system _ _ ctx' hn).symm

/-! ## The record of a ticket -/

/-- The status says that the record is ready for a generation. -/
def ReadyFor (gen : Int) (st : SAMLGroupMappingStatus) : Prop :=
  gen ≤ st.observedGeneration ∧ ∃ c ∈ st.conditions, c.type = lit "Ready" ∧ c.status = .true

/-- The record of a ticket has its spec, is at a generation, and has a status with
    `Q`. -/
def Settled (cfg : Jsm.Config) (v : TicketValues) (gen : Int) (Q : SAMLGroupMappingStatus → Prop)
    (g : Cluster) : Prop :=
  ∃ cr, g.store (ticketKey cfg v) = some cr ∧ cr.spec = ticketSpec cfg v ∧
    cr.metadata.generation = gen ∧ Q cr.status

/-- The status writes for the record of a ticket have `Q`. -/
def Writes (cfg : Jsm.Config) (v : TicketValues) (Q : SAMLGroupMappingStatus → Prop) :
    ClusterLabel → Prop
  | .env (.setStatus k st) => k = ticketKey cfg v → Q st
  | _ => True

variable {g g' : Cluster} {gen : Int} {Q : SAMLGroupMappingStatus → Prop} {k : Key}
  {st : SAMLGroupMappingStatus}

/-- Applying a ticket whose record has its spec leaves all but the labels and the
    annotations alone. -/
theorem applied_ticketObject {old : SAMLGroupMapping}
    (h : g.store (ticketKey cfg v) = some old) (hs : old.spec = ticketSpec cfg v)
    (ctx : RequestContext) :
    (g.applied (ticketObject cfg v ctx)).spec = old.spec ∧
      (g.applied (ticketObject cfg v ctx)).metadata.generation = old.metadata.generation ∧
      (g.applied (ticketObject cfg v ctx)).status = old.status := by
  have hk : g.store (ticketObject cfg v ctx).key = some old := h
  have hs' : old.spec = (ticketObject cfg v ctx).spec := hs
  rw [Cluster.applied, hk]
  exact ⟨hs'.symm, by simp [hs'], rfl⟩

theorem Settled.apply (h : Settled cfg v gen Q g) (ctx : RequestContext) :
    Settled cfg v gen Q (g.apply (ticketObject cfg v ctx)) := by
  obtain ⟨old, hold, hs, hg, hQ⟩ := h
  obtain ⟨hs', hg', hst⟩ := applied_ticketObject hold hs ctx
  exact ⟨_, g.apply_store_self _, hs'.trans hs, hg'.trans hg, hst ▸ hQ⟩

/-- A delivery that lands settles the record. -/
theorem settled_apply (g : Cluster) (ctx : RequestContext) :
    ∃ gen, Settled cfg v gen (fun _ => True) (g.apply (ticketObject cfg v ctx)) :=
  ⟨_, _, g.apply_store_self _, g.applied_spec _, rfl, trivial⟩

theorem Settled.setStatus (h : Settled cfg v gen Q g)
    (hw : Writes cfg v Q (.env (.setStatus k st))) (hs : g.setStatus k st = some g') :
    Settled cfg v gen Q g' := by
  obtain ⟨cr, hcr, -, rfl⟩ := Cluster.setStatus_eq_some hs
  obtain ⟨old, hold, hspec, hg, hQ⟩ := h
  rcases eq_or_ne (ticketKey cfg v) k with rfl | hne
  · obtain rfl := Option.some.inj (hold.symm.trans hcr)
    exact ⟨_, Cluster.put_store_self .., hspec, hg, hw rfl⟩
  · exact ⟨old, (Cluster.put_store_of_ne g hne ..).trans hold, hspec, hg, hQ⟩

/-! ## Executions of deliveries -/

/-- An execution sends the object of the ticket, and is about to do so if it waits
    for its Patch. -/
structure Delivery (cfg : Jsm.Config) (v : TicketValues) (x : Execution) : Prop where
  sent : ∃ ctx, x.sent = .samlGroupMapping (ticketObject cfg v ctx)
  patch : ∀ {act obj}, x.phase = .patch act obj → obj = x.sent

variable {e : Executor} {x : Execution} {o : Outcome} {r : Reply} {p : Phase}

theorem delivery_new {ctx : RequestContext} {act : ApplyAction} (h : Delivers cfg v act) :
    Delivery cfg v (.new ctx act) := by
  obtain rfl := h.eq
  exact ⟨⟨ctx, rfl⟩, fun h => (Phase.patch.inj h).2.symm⟩

theorem Delivery.after (h : Delivery cfg v x) (hp : Resumes e x.phase r p) :
    Delivery cfg v (x.after r p) :=
  ⟨h.sent, fun hph => absurd hph (hp.ne_patch _ _)⟩

/-- Only a Patch changes the cluster, and that of a delivery sends the object of the
    ticket. -/
theorem Delivery.cluster (hx : Delivery cfg v x) (hr : Replies g x.phase o g' r) :
    g' = g ∨ ∃ ctx, g' = g.apply (ticketObject cfg v ctx) := by
  obtain ⟨sent, phase, replies, patched, applied, observed⟩ := x
  obtain ⟨⟨ctx, hsent⟩, hpatch⟩ := hx
  cases hr with
  | patched =>
    obtain rfl := ClientObject.samlGroupMapping.inj ((hpatch rfl).trans hsent)
    exact .inr ⟨ctx, rfl⟩
  | _ => exact .inl rfl

/-- A step of a delivery leaves the record settled. -/
theorem Settled.step (h : Settled cfg v gen Q g) (hx : Delivery cfg v x)
    (hr : Replies g x.phase o g' r) : Settled cfg v gen Q g' := by
  rcases hx.cluster hr with rfl | ⟨ctx, rfl⟩
  · exact h
  · exact h.apply ctx

theorem Replies.wf (hw : g.Wf) (hr : Replies g p o g' r) : g'.Wf := by
  rcases hr.cluster with rfl | ⟨cr, rfl⟩
  · exact hw
  · exact hw.apply cr

/-- Only an object is remembered as what the Patch left. -/
theorem Execution.ne_none_of_patchedBy {old : Option SAMLGroupMapping}
    (h : ∀ obj, r ≠ .object obj) (hp : patchedBy p r old ≠ none) : old ≠ none := by
  unfold patchedBy at hp
  split at hp
  · exact absurd rfl (h _)
  · exact hp

/-- A delivery that has landed has settled the record. -/
theorem landed_step (hx : Delivery cfg v x) (hr : Replies g x.phase o g' r)
    (hl : x.patched ≠ none → ∃ gen, Settled cfg v gen (fun _ => True) g)
    (hpat : (x.after r p).patched ≠ none) : ∃ gen, Settled cfg v gen (fun _ => True) g' := by
  obtain ⟨sent, phase, replies, patched, applied, observed⟩ := x
  obtain ⟨⟨ctx, hsent⟩, hpatch⟩ := hx
  simp only [Execution.after] at hpat
  cases hr with
  | patched =>
    obtain rfl := ClientObject.samlGroupMapping.inj ((hpatch rfl).trans hsent)
    exact settled_apply g ctx
  | failed => exact hl (Execution.ne_none_of_patchedBy (by simp) hpat)
  | deliveredOther => exact hl (Execution.ne_none_of_patchedBy (by simp) hpat)
  | closed => exact hl (Execution.ne_none_of_patchedBy (by simp) hpat)
  | done => exact hl (Execution.ne_none_of_patchedBy (by simp) hpat)
  -- In the phases of the other replies nothing is remembered of them.
  | _ => exact hl hpat

/-- Deliveries keep what they send, and one that has landed has settled the
    record. -/
theorem delivery_invariant (e : Executor) (cfg : Jsm.Config) (v : TicketValues) :
    (executions e).Invariant (Redelivers cfg v) Cluster.Wf
      (fun _ x g => ∀ y, x = some y → Delivery cfg v y ∧
        (y.patched ≠ none → ∃ gen, Settled cfg v gen (fun _ => True) g))
      (fun _ g g' => ∀ gen, Settled cfg v gen (fun _ => True) g →
        Settled cfg v gen (fun _ => True) g') where
  start {i a g x g'} hG hw _ hs := by
    obtain ⟨rfl, rfl⟩ := Prod.mk.inj (Option.some.inj hs)
    refine ⟨hw, fun y hy => ?_, fun _ => id⟩
    obtain rfl := Option.some.inj hy
    exact ⟨delivery_new hG, fun h => absurd rfl h⟩
  step {i o g x x' g'} _ hw hP hs := by
    obtain ⟨r, p, hr, hp, rfl⟩ := executions_step hs
    obtain ⟨hx, hl⟩ := hP x rfl
    refine ⟨hr.wf hw, fun y hy => ?_, fun gen h => h.step hx hr⟩
    obtain rfl := Option.some.inj hy
    exact ⟨hx.after hp, landed_step hx hr hl⟩
  env {d g g'} hG hw hs := by
    cases d with
    | setStatus k st => exact ⟨hw.setStatus hs, fun gen h => h.setStatus (fun _ => trivial) hs⟩
    | apply cr => exact hG.elim
    | delete k => exact hG.elim
  stable {i j x g g'} _ _ hP hr y hy :=
    ⟨(hP y hy).1, fun h => ((hP y hy).2 h).imp fun gen => hr gen⟩

/-- Deliveries leave a settled record settled, if the operator writes statuses with
    `Q`. -/
theorem settled_invariant (e : Executor) (cfg : Jsm.Config) (v : TicketValues) (gen : Int)
    (Q : SAMLGroupMappingStatus → Prop) :
    (executions e).Invariant (fun l => Redelivers cfg v l ∧ Writes cfg v Q l)
      (Settled cfg v gen Q) (fun _ x _ => ∀ y, x = some y → Delivery cfg v y)
      (fun _ _ _ => True) where
  start {i a g x g'} hG hI _ hs := by
    obtain ⟨rfl, rfl⟩ := Prod.mk.inj (Option.some.inj hs)
    refine ⟨hI, fun y hy => ?_, trivial⟩
    obtain rfl := Option.some.inj hy
    exact delivery_new hG.1
  step {i o g x x' g'} _ hI hP hs := by
    obtain ⟨r, p, hr, hp, rfl⟩ := executions_step hs
    refine ⟨hI.step (hP x rfl) hr, fun y hy => ?_, trivial⟩
    obtain rfl := Option.some.inj hy
    exact (hP x rfl).after hp
  env {d g g'} hG hI hs := by
    cases d with
    | setStatus k st => exact ⟨hI.setStatus hG.2 hs, trivial⟩
    | apply cr => exact hG.1.elim
    | delete k => exact hG.1.elim
  stable _ _ hP _ := hP

/-! ## Deliveries that find their record ready -/

/-- How far a delivery is that finds its record ready: it never waits for a watch. -/
def Fast (cfg : Jsm.Config) (v : TicketValues) (gen : Int) (x : Execution) : Prop :=
  match x.phase with
  | .patch act _ => x.replies = 0 ∧ act.readyCheck = Jsm.isReady
  | .refetch act obj => x.replies = 1 ∧ act.readyCheck = Jsm.isReady ∧ obj.key = ticketKey cfg v
  | .probe act applied => x.replies = 2 ∧ act.readyCheck = Jsm.isReady ∧
    applied.key = ticketKey cfg v ∧ applied.generation = gen
  | .done res => 3 ≤ x.replies ∧ res.kind = .ready
  | .establish _ _ | .select _ _ => False

theorem Jsm.isReady_of_readyFor {cr : SAMLGroupMapping} (h : ReadyFor gen cr.status) :
    Jsm.isReady (.samlGroupMapping cr) gen = (true, cr.status.observedGeneration) := by
  rw [Jsm.isReady, if_neg (not_lt.mpr h.1), Jsm.conditionReady_iff.mpr h.2]

/-- A step of such a delivery, in which its call succeeds. -/
theorem Fast.step (h : Fast cfg v gen x) (hw : g.Wf) (hx : Delivery cfg v x)
    (hs : Settled cfg v gen (ReadyFor gen) g) (ho : ∀ err, o ≠ .fail err)
    (hr : Replies g x.phase o g' r) (hp : Resumes e x.phase r p) :
    Fast cfg v gen (x.after r p) := by
  obtain ⟨sent, phase, replies, patched, applied, observed⟩ := x
  obtain ⟨cr, hcr, -, hgen, hready⟩ := hs
  -- The three calls find the settled record; a fast delivery waits for no others.
  cases hr with
  | patched =>
    cases hp
    obtain ⟨⟨ctx, hsent⟩, hpatch⟩ := hx
    obtain rfl := ClientObject.samlGroupMapping.inj ((hpatch rfl).trans hsent)
    exact ⟨congrArg (· + 1) h.1, h.2, g.applied_key hw _⟩
  | refetched hst =>
    cases hp
    obtain ⟨hn, hact, hk⟩ := h
    rw [hk] at hst
    obtain rfl := Option.some.inj (hst.symm.trans hcr)
    exact ⟨congrArg (· + 1) hn, hact, hw.key_eq hst, hgen⟩
  | refetchedNone hst =>
    rw [h.2.2, hcr] at hst
    cases hst
  | probed hst =>
    obtain ⟨hn, hact, hk, hg⟩ := h
    rw [hk] at hst
    obtain rfl := Option.some.inj (hst.symm.trans hcr)
    cases hp with
    | probedReady => exact ⟨(congrArg (· + 1) hn).ge, rfl⟩
    | probedPending hnot =>
      rw [hact, hg, Jsm.isReady_of_readyFor hready] at hnot
      cases hnot
  | probedNone hst =>
    rw [h.2.2.1, hcr] at hst
    cases hst
  | failed => exact absurd rfl (ho _)
  | watching => exact h.elim
  | delivered => exact h.elim
  | deliveredOther => cases hp <;> exact h.elim
  | closed =>
    cases hp
    exact h.elim
  | done =>
    cases hp
    exact h.elim

/-- A delivery that starts when its record is ready stays fast, if the operator
    does not take that back. -/
theorem fast_invariant (e : Executor) (cfg : Jsm.Config) (v : TicketValues) (gen : Int) (i : Nat) :
    (executions e).Invariant
      (fun l => Redelivers cfg v l ∧ Writes cfg v (ReadyFor gen) l)
      (fun g => g.Wf ∧ Settled cfg v gen (ReadyFor gen) g)
      (fun j x _ => ∀ y, x = some y → Delivery cfg v y ∧ (j = i → Fast cfg v gen y))
      (fun _ _ _ => True) where
  start {j a g x g'} hG hI _ hs := by
    obtain ⟨rfl, rfl⟩ := Prod.mk.inj (Option.some.inj hs)
    refine ⟨hI, fun y hy => ?_, trivial⟩
    obtain rfl := Option.some.inj hy
    refine ⟨delivery_new hG.1, fun _ => ⟨rfl, ?_⟩⟩
    rw [show a.2 = ticketAction cfg v from Delivers.eq hG.1]
    rfl
  step {j o g x x' g'} hG hI hP hs := by
    obtain ⟨r, p, hr, hp, rfl⟩ := executions_step hs
    obtain ⟨hx, hfast⟩ := hP x rfl
    refine ⟨⟨hr.wf hI.1, hI.2.step hx hr⟩, fun y hy => ?_, trivial⟩
    obtain rfl := Option.some.inj hy
    refine ⟨hx.after hp, fun hj => (hfast hj).step hI.1 hx hI.2 ?_ hr hp⟩
    rintro err rfl
    exact hG.1
  env {d g g'} hG hI hs := by
    cases d with
    | setStatus k st => exact ⟨⟨hI.1.setStatus hs, hI.2.setStatus hG.2 hs⟩, trivial⟩
    | apply cr => exact hG.1.elim
    | delete k => exact hG.1.elim
  stable _ _ hP _ := hP

/-- Its next call can be answered, until it has returned. -/
theorem Fast.enabled (h : Fast cfg v gen x) (hx : Delivery cfg v x)
    (hs : Settled cfg v gen Q g) (hn : x.replies < 3) (i : Nat) :
    ∃ x' g', (executions e).step i x .ok g = some (x', g') := by
  obtain ⟨sent, phase, replies, patched, applied, observed⟩ := x
  obtain ⟨cr, hcr, -⟩ := hs
  cases phase with
  | patch act obj =>
    obtain ⟨⟨ctx, hsent⟩, hpatch⟩ := hx
    obtain rfl := (hpatch rfl).trans hsent
    exact ⟨_, _, rfl⟩
  | refetch act obj =>
    have hst : g.store (obj.namespace_, obj.name) = some cr := (congrArg g.store h.2.2).trans hcr
    exact ⟨_, _, executions_step_of (Cluster.serve_get_of_some hst) rfl⟩
  | probe act obj =>
    have hst : g.store (obj.namespace_, obj.name) = some cr :=
      (congrArg g.store h.2.2.1).trans hcr
    exact ⟨_, _, executions_step_of (Cluster.serve_get_of_some hst) rfl⟩
  | done res => exact absurd h.1 (not_le.mpr hn)
  | establish => exact h.elim
  | select => exact h.elim

theorem Fast.not_waiting (h : Fast cfg v gen x) (act : ApplyAction) (obj : ClientObject) :
    x.phase ≠ .establish act obj ∧ x.phase ≠ .select act obj := by
  constructor <;> intro hp <;> rw [Fast, hp] at h <;> exact h

/-- It has returned after three replies. -/
theorem Fast.returned (h : Fast cfg v gen x) (hn : 3 ≤ x.replies) :
    ∃ res, x.phase = .done res ∧ res.kind = .ready := by
  unfold Fast at h
  split at h
  · omega
  · omega
  · omega
  · case _ res hp => exact ⟨res, hp, h.2⟩
  · exact h.elim
  · exact h.elim

/-! ## Runs of deliveries -/

section

variable {pre ls : List ClusterLabel} {s : Pool.State Cluster Execution}

/-- Before the deliveries start, anything may have happened to the cluster. -/
theorem run_env (hpre : ∀ l ∈ pre, ∃ d, l = .env d)
    (hs : (executions e).machine.run (executions e).machine.init pre = some s) :
    s.shared.Wf ∧ ∀ i, s.procs i = none := by
  refine Machine.run_invariant (P := fun s : Pool.State Cluster Execution =>
    s.shared.Wf ∧ ∀ i, s.procs i = none) ?_ hpre ⟨Cluster.wf_empty, fun _ => rfl⟩ hs
  rintro s l s' ⟨d, rfl⟩ ⟨hw, hn⟩ hst
  obtain ⟨g, hg, rfl⟩ := Pool.step_env.mp hst
  refine ⟨?_, hn⟩
  cases d with
  | setStatus k st => exact hw.setStatus hg
  | apply cr =>
    obtain rfl := Option.some.inj hg
    exact hw.apply cr
  | delete k => exact hw.delete hg

/-- What holds of the deliveries after a run. -/
theorem run_delivery (hpre : ∀ l ∈ pre, ∃ d, l = .env d) (hls : ∀ l ∈ ls, Redelivers cfg v l)
    (hs : (executions e).machine.run (executions e).machine.init (pre ++ ls) = some s) :
    s.shared.Wf ∧ ∀ i x, s.procs i = some x → Delivery cfg v x ∧
      (x.patched ≠ none → ∃ gen, Settled cfg v gen (fun _ => True) s.shared) := by
  obtain ⟨s₀, hs₀, hs⟩ := Machine.run_append_eq_some.mp hs
  obtain ⟨hw, hn⟩ := run_env hpre hs₀
  refine (delivery_invariant e cfg v).run hls ⟨hw, fun i y hy => ?_⟩ hs
  rw [hn i] at hy
  cases hy

/-- A record that is settled stays so, along a run of deliveries. -/
theorem run_settled {s₁ : Pool.State Cluster Execution} (hls : ∀ l ∈ ls, Redelivers cfg v l)
    (hd : ∀ i x, s₁.procs i = some x → Delivery cfg v x)
    (hset : Settled cfg v gen (fun _ => True) s₁.shared)
    (hs : (executions e).machine.run s₁ ls = some s) :
    Settled cfg v gen (fun _ => True) s.shared := by
  refine ((settled_invariant e cfg v gen fun _ => True).run (fun l hl => ⟨hls l hl, ?_⟩)
    ⟨hset, hd⟩ hs).1
  rcases l with _ | _ | (_ | _ | _) <;> first | trivial | exact fun _ => trivial

/-- A delivery that starts when its record is ready is fast, after any run in which the
    operator does not take that back. -/
theorem run_fast {s₁ : Pool.State Cluster Execution} {i : Nat} {a : RequestContext × ApplyAction}
    (hls : ∀ l ∈ .start i a :: ls, Redelivers cfg v l)
    (hwr : ∀ l ∈ ls, Writes cfg v (ReadyFor gen) l) (hw : s₁.shared.Wf)
    (hd : ∀ i x, s₁.procs i = some x → Delivery cfg v x)
    (hset : Settled cfg v gen (ReadyFor gen) s₁.shared)
    (hs : (executions e).machine.run s₁ (.start i a :: ls) = some s) :
    Settled cfg v gen (ReadyFor gen) s.shared ∧
      ∃ x, s.procs i = some x ∧ Delivery cfg v x ∧ Fast cfg v gen x := by
  obtain ⟨_, hst, hrun⟩ := Machine.run_cons_eq_some.mp hs
  obtain ⟨hfresh, q, g, -, rfl⟩ := Pool.step_start.mp hst
  have hG : ∀ l ∈ .start i a :: ls, Redelivers cfg v l ∧ Writes cfg v (ReadyFor gen) l :=
    fun l hl => ⟨hls l hl, (List.mem_cons.mp hl).elim (fun h => h ▸ trivial) (hwr l)⟩
  -- Before it starts, there is no delivery under its number that could be slow.
  have hd' : ∀ j y, s₁.procs j = some y → Delivery cfg v y ∧ (j = i → Fast cfg v gen y) := by
    refine fun j y hy => ⟨hd j y hy, ?_⟩
    rintro rfl
    rw [hfresh] at hy
    cases hy
  obtain ⟨⟨-, hset'⟩, hfast⟩ := (fast_invariant e cfg v gen i).run hG ⟨⟨hw, hset⟩, hd'⟩ hs
  obtain ⟨x, hx⟩ := Option.ne_none_iff_exists'.mp (Pool.run_started (i := i) (by simp) hrun)
  obtain ⟨hdel, hf⟩ := hfast i x hx
  exact ⟨hset', x, hx, hdel, hf rfl⟩

end

/-- Redelivery is idempotent. Whatever happened to the cluster before, the
    deliveries of a ticket, in any interleaving with each other and with the
    operator, if their calls succeed: all send the same object, up to annotations
    about the request; once one has landed, the record keeps its spec and its
    generation; and one that starts when the record is ready for its generation
    returns `ResultReady` after three replies, without waiting for a watch, if the
    operator does not take that back before. -/
theorem redelivery_idempotent (e : Executor) (cfg : Jsm.Config) (v : TicketValues)
    {pre ls : List ClusterLabel} {s : Pool.State Cluster Execution}
    (hpre : ∀ l ∈ pre, ∃ d, l = .env d) (hls : ∀ l ∈ ls, Redelivers cfg v l)
    (hs : (executions e).machine.run (executions e).machine.init (pre ++ ls) = some s) :
    (∀ i x act obj, s.procs i = some x → x.phase = .patch act obj → obj = x.sent) ∧
    (∀ i j x y, s.procs i = some x → s.procs j = some y → SamePatch x.sent y.sent) ∧
    (∀ ls₁ ls₂ s₁ i x, ls = ls₁ ++ ls₂ →
      (executions e).machine.run (executions e).machine.init (pre ++ ls₁) = some s₁ →
      s₁.procs i = some x → x.patched ≠ none →
      ∃ cr cr', s₁.shared.store (ticketKey cfg v) = some cr ∧
        s.shared.store (ticketKey cfg v) = some cr' ∧ cr'.spec = cr.spec ∧
        cr'.metadata.generation = cr.metadata.generation) ∧
    ∀ ls₁ i a ls₂ s₁ gen, ls = ls₁ ++ .start i a :: ls₂ →
      (executions e).machine.run (executions e).machine.init (pre ++ ls₁) = some s₁ →
      Settled cfg v gen (ReadyFor gen) s₁.shared →
      (∀ l ∈ ls₂, Writes cfg v (ReadyFor gen) l) →
      ∃ x, s.procs i = some x ∧
        (∀ act applied, x.phase ≠ .establish act applied ∧ x.phase ≠ .select act applied) ∧
        (x.replies < 3 → ∃ s', (executions e).machine.step s (.step i .ok) = some s') ∧
        (3 ≤ x.replies → ∃ res, x.phase = .done res ∧ res.kind = .ready) := by
  obtain ⟨hw, hd⟩ := run_delivery hpre hls hs
  refine ⟨fun i x act obj hx hph => (hd i x hx).1.patch hph, fun i j x y hx hy => ?_, ?_, ?_⟩
  · obtain ⟨ctx, hx⟩ := (hd i x hx).1.sent
    obtain ⟨ctx', hy⟩ := (hd j y hy).1.sent
    rw [hx, hy]
    exact samePatch_ticketObject cfg v ctx ctx'
  · rintro ls₁ ls₂ s₁ i x rfl hs₁ hx hp
    have hls₁ : ∀ l ∈ ls₁, Redelivers cfg v l := fun l hl => hls l (List.mem_append_left _ hl)
    obtain ⟨-, hd₁⟩ := run_delivery hpre hls₁ hs₁
    obtain ⟨gen, hset⟩ := (hd₁ i x hx).2 hp
    rw [← List.append_assoc] at hs
    have hs₂ := Machine.run_of_run_append hs₁ hs
    obtain ⟨cr, hcr, hsp, hg, -⟩ := hset
    obtain ⟨cr', hcr', hsp', hg', -⟩ := run_settled (fun l hl => hls l (List.mem_append_right _ hl))
      (fun i x hx => (hd₁ i x hx).1) ⟨cr, hcr, hsp, hg, trivial⟩ hs₂
    exact ⟨cr, cr', hcr, hcr', hsp'.trans hsp.symm, hg'.trans hg.symm⟩
  · rintro ls₁ i a ls₂ s₁ gen rfl hs₁ hset hwr
    have hls₁ : ∀ l ∈ ls₁, Redelivers cfg v l := fun l hl => hls l (List.mem_append_left _ hl)
    obtain ⟨hw₁, hd₁⟩ := run_delivery hpre hls₁ hs₁
    rw [← List.append_assoc] at hs
    have hs₂ := Machine.run_of_run_append hs₁ hs
    obtain ⟨hset', x, hx, hdel, hfast⟩ := run_fast
      (fun l hl => hls l (List.mem_append_right _ hl)) hwr hw₁ (fun i x hx => (hd₁ i x hx).1)
      hset hs₂
    refine ⟨x, hx, hfast.not_waiting, fun hn => ?_, hfast.returned⟩
    obtain ⟨x', g', hst⟩ := hfast.enabled hdel hset' hn i
    exact ⟨_, Pool.step_step.mpr ⟨x, hx, x', g', hst, rfl⟩⟩

def sampleValues : TicketValues := ⟨lit "SEC-1", lit "group", lit "admin", lit "core"⟩

theorem delivers_sampleAction : Delivers Jsm.sampleConfig sampleValues sampleAction := by
  have hd := (Jsm.decode_ok (parse_render (by decide)) Jsm.sampleTicket_unambiguous).mpr
    ⟨lit "SEC-1", _, _, ⟨rfl, by decide, rfl, rfl, by decide⟩, rfl⟩
  refine ⟨Jsm.sampleTicket.render, _, hd, rfl, ?_, ?_, ?_, handle_sampleTicket⟩ <;>
    exact ⟨_, rfl, by decide, by decide⟩

/-- A second delivery of the ticket, after the first one has succeeded. -/
def sampleRedelivery : List ClusterLabel :=
  sampleSync ++ [.start 1 (⟨lit "req-2", lit "trace", lit "1970-01-01T00:01:00Z"⟩, sampleAction),
    .step 1 .ok, .step 1 .ok]

theorem redelivers_sampleRedelivery :
    ∀ l ∈ sampleRedelivery, Redelivers Jsm.sampleConfig sampleValues l := by
  simp only [sampleRedelivery, sampleSync, List.cons_append, List.nil_append, List.forall_mem_cons,
    Redelivers, delivers_sampleAction, true_and]
  exact fun l hl => absurd hl List.not_mem_nil

theorem redelivery_idempotent_sampleRedelivery :
    ∃ s x, (executions (newExecutor [] second)).machine.run
        (executions (newExecutor [] second)).machine.init
          (sampleRedelivery ++ [.step 1 .ok]) = some s ∧
      s.procs 1 = some x ∧ ∃ res, x.phase = .done res ∧ res.kind = .ready := by
  have hls : ∀ l ∈ sampleRedelivery ++ [.step 1 .ok],
      Redelivers Jsm.sampleConfig sampleValues l := fun l hl =>
    (List.mem_append.mp hl).elim (redelivers_sampleRedelivery l) fun h =>
      List.mem_singleton.mp h ▸ trivial
  refine ⟨_, _, rfl, rfl, ?_⟩
  have hpre : ∀ l ∈ ([] : List ClusterLabel), ∃ d, l = .env d := nofun
  obtain ⟨x, hx, -, -, hdone⟩ := (redelivery_idempotent (newExecutor [] second)
    Jsm.sampleConfig sampleValues hpre hls rfl).2.2.2 sampleSync 1 _
    [.step 1 .ok, .step 1 .ok, .step 1 .ok] _ 1 rfl rfl
    ⟨_, rfl, rfl, rfl, by decide, _, List.mem_singleton.mpr rfl, rfl, rfl⟩ (by
      simp only [List.forall_mem_cons, Writes, true_and]
      exact nofun)
  obtain rfl := Option.some.inj hx
  exact hdone (le_refl 3)

def sampleWithdrawn : SAMLGroupMappingStatus := ⟨1, [⟨lit "Ready", .false⟩]⟩

/-- The operator takes the status back before the initial Get of the second
    delivery, which then waits for a watch. -/
theorem redelivery_withdrawn :
    (∀ l ∈ sampleRedelivery ++ [.env (.setStatus sampleKey sampleWithdrawn), .step 1 .ok],
      Redelivers Jsm.sampleConfig sampleValues l) ∧
    (∃ s, (executions (newExecutor [] second)).machine.run
        (executions (newExecutor [] second)).machine.init sampleSync = some s ∧
      Settled Jsm.sampleConfig sampleValues 1 (ReadyFor 1) s.shared) ∧
    ∃ s x act obj, (executions (newExecutor [] second)).machine.run
        (executions (newExecutor [] second)).machine.init
          (sampleRedelivery ++ [.env (.setStatus sampleKey sampleWithdrawn), .step 1 .ok]) =
            some s ∧
      s.procs 1 = some x ∧ x.phase = .establish act obj := by
  refine ⟨fun l hl => ?_, ?_, ⟨_, _, _, _, rfl, rfl, rfl⟩⟩
  · rcases List.mem_append.mp hl with hl | hl
    · exact redelivers_sampleRedelivery l hl
    · simp only [List.mem_cons, List.not_mem_nil, or_false] at hl
      rcases hl with rfl | rfl <;> trivial
  · exact ⟨_, rfl, _, rfl, rfl, rfl, by decide, _, List.mem_singleton.mpr rfl, rfl, rfl⟩

end Webhookd
