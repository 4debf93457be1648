import Webhookd.Cluster.Redelivery
import Webhookd.Jsm.Naming

/-!
# Tickets and records

Deliveries of any number of tickets, interleaved in any way with each other, the
operator and other clients. For keys of the documented form, the record of a
ticket is its own: its name tells its key (`recordKey_inj`), deliveries of other
tickets leave it alone (`Confined`), and its spec is one that was sent for this
ticket, unless another client wrote it (`Written`).

`tickets_one_to_one` is all of this, for any two bodies and over any run.
-/

namespace Webhookd

open Go

variable {cfg : Jsm.Config} {v : TicketValues} {key : GoString}

/-- The key of the record of the ticket with an issue key. -/
def recordKey (cfg : Jsm.Config) (key : GoString) : Key := (cfg.namespace_, Jsm.crName key)

/-- Different tickets have different records. -/
theorem recordKey_inj {key' : GoString} (h : Jsm.IssueKey key) (h' : Jsm.IssueKey key') :
    recordKey cfg key = recordKey cfg key' ↔ key = key' := by
  constructor
  · intro e
    exact Jsm.crName_inj h h' (Prod.mk.inj e).2
  · rintro rfl
    rfl

/-- A body that is applied delivers the values of some ticket, with its key. -/
theorem exists_delivers {body : GoString} {payload : Jsm.Payload} {act : ApplyAction}
    (hd : Jsm.decode body = .ok payload) (hh : Jsm.handle cfg body = .ok (.apply act)) :
    ∃ v, v.key = payload.issueKey ∧ Delivers cfg v act := by
  obtain ⟨payload', g, r, p, hd', -, hg, hr, hp, -⟩ := Jsm.handle_apply.mp hh
  obtain rfl := Except.ok.inj (hd.symm.trans hd')
  exact ⟨⟨payload.issueKey, g, r, p⟩, rfl, body, payload, hd, rfl, Jsm.extractString_eq_ok.mp hg,
    Jsm.extractString_eq_ok.mp hr, Jsm.extractString_eq_ok.mp hp, hh⟩

/-- What is started is deliveries of tickets with keys of the documented form; all else
    may happen. -/
def DeliversTickets (cfg : Jsm.Config) : ClusterLabel → Prop
  | .start _ a => ∃ body payload, Jsm.decode body = .ok payload ∧
    Jsm.IssueKey payload.issueKey ∧ Jsm.handle cfg body = .ok (.apply a.2)
  | _ => True

/-- A step of a delivery changes nothing, or writes the spec of the ticket to its record;
    the records of other tickets stay as they are. -/
def Confined (cfg : Jsm.Config) (v : TicketValues) (g g' : Cluster) : Prop :=
  (g'.store = g.store ∨ ∃ cr, cr.spec = ticketSpec cfg v ∧
    g'.store = Function.update g.store (recordKey cfg v.key) (some cr)) ∧
  ∀ key, Jsm.IssueKey key → key ≠ v.key →
    g'.store (recordKey cfg key) = g.store (recordKey cfg key)

/-- The spec was sent by a delivery of the ticket, or written by another client. -/
def Written (cfg : Jsm.Config) (tr : List ClusterLabel) (key : GoString)
    (spec : SAMLGroupMappingSpec) : Prop :=
  (∃ i ctx v, v.key = key ∧ .start i (ctx, ticketAction cfg v) ∈ tr ∧ spec = ticketSpec cfg v) ∨
  ∃ cr, .env (.apply cr) ∈ tr ∧ cr.key = recordKey cfg key ∧ spec = cr.spec

/-- A step of a delivery is confined to the record of its ticket. -/
theorem confined_of_delivery {g g' : Cluster} {x : Execution} {o : Outcome} {r : Reply}
    (hv : Jsm.IssueKey v.key) (hx : Delivery cfg v x) (hr : Replies g x.phase o g' r) :
    Confined cfg v g g' := by
  rcases hx.cluster hr with rfl | ⟨ctx, rfl⟩
  · exact ⟨.inl rfl, fun _ _ _ => rfl⟩
  · refine ⟨.inr ⟨_, g.applied_spec _, rfl⟩, fun key hk hne => g.apply_store_of_ne ?_⟩
    exact fun e => hne ((recordKey_inj hk hv).mp e)

/-- A Patch that is served leaves the spec of the ticket in its record. -/
theorem landed_of_patch {g g' : Cluster} {x : Execution} {r : Reply} {act : ApplyAction}
    {obj : ClientObject} (hx : Delivery cfg v x) (hp : x.phase = .patch act obj)
    (hr : Replies g x.phase .ok g' r) :
    ∃ cr, g'.store (recordKey cfg v.key) = some cr ∧ cr.spec = ticketSpec cfg v := by
  obtain ⟨ctx, hsent⟩ := hx.sent
  have hobj : obj = .samlGroupMapping (ticketObject cfg v ctx) := (hx.patch hp).trans hsent
  rw [hp, hobj] at hr
  cases hr with
  | patched => exact ⟨_, g.apply_store_self _, g.applied_spec _⟩

/-- All specs in the records of tickets were written for them. -/
def AllWritten (cfg : Jsm.Config) (tr : List ClusterLabel) (g : Cluster) : Prop :=
  ∀ key cr, Jsm.IssueKey key → g.store (recordKey cfg key) = some cr → Written cfg tr key cr.spec

section

variable {tr : List ClusterLabel} {g g' : Cluster}

/-- What a delivery writes was written for its ticket. -/
theorem AllWritten.confined {i : Nat} {ctx : RequestContext} (h : AllWritten cfg tr g)
    (hs : .start i (ctx, ticketAction cfg v) ∈ tr) (hc : Confined cfg v g g') :
    AllWritten cfg tr g' := by
  intro key cr hk hcr
  obtain ⟨hsame | ⟨cr', hspec, hupd⟩, hother⟩ := hc
  · rw [hsame] at hcr
    exact h key cr hk hcr
  · by_cases hkey : key = v.key
    · subst hkey
      rw [hupd, Function.update_self] at hcr
      obtain rfl := Option.some.inj hcr
      exact .inl ⟨i, ctx, v, rfl, hs, hspec⟩
    · rw [hother key hk hkey] at hcr
      exact h key cr hk hcr

/-- What others write was written by another client. -/
theorem AllWritten.env {d : Disturbance} {e : Executor} (h : AllWritten cfg tr g)
    (hl : .env d ∈ tr) (hs : (executions e).env d g = some g') : AllWritten cfg tr g' := by
  intro key cr hk hcr
  cases d with
  | setStatus k st =>
    -- A status is written next to the spec.
    obtain ⟨old, hold, -, rfl⟩ := Cluster.setStatus_eq_some hs
    rcases Cluster.put_store_cases hcr with ⟨rfl, rfl⟩ | hcr
    · exact h key old hk hold
    · exact h key cr hk hcr
  | apply cr' =>
    obtain rfl := Option.some.inj hs
    rcases eq_or_ne (recordKey cfg key) cr'.key with hkey | hne
    · rw [hkey, Cluster.apply_store_self] at hcr
      obtain rfl := Option.some.inj hcr
      exact .inr ⟨cr', hl, hkey.symm, g.applied_spec cr'⟩
    · rw [Cluster.apply_store_of_ne g hne] at hcr
      exact h key cr hk hcr
  | delete k => exact h key cr hk (Cluster.store_of_delete hs hcr)

/-- An execution is a delivery of a ticket that was started. -/
def DeliveryOf (cfg : Jsm.Config) (tr : List ClusterLabel) (i : Nat) (x : Execution)
    (v : TicketValues) : Prop :=
  Jsm.IssueKey v.key ∧ (∃ ctx, .start i (ctx, ticketAction cfg v) ∈ tr) ∧ Delivery cfg v x

/-- Along a run, executions stay deliveries of their tickets, and the specs in the
    records were written for them. -/
theorem tickets_invariant (e : Executor) (cfg : Jsm.Config) (tr : List ClusterLabel) :
    (executions e).Invariant (fun l => DeliversTickets cfg l ∧ l ∈ tr) (AllWritten cfg tr)
      (fun i x _ => ∀ y, x = some y → ∃ v, DeliveryOf cfg tr i y v) (fun _ _ _ => True) where
  start {i a g x g'} hG hI _ hs := by
    obtain ⟨rfl, rfl⟩ := Prod.mk.inj (Option.some.inj hs)
    refine ⟨hI, fun y hy => ?_, trivial⟩
    obtain rfl := Option.some.inj hy
    obtain ⟨ctx, act⟩ := a
    obtain ⟨⟨body, payload, hd, hk, hh⟩, hmem⟩ := hG
    obtain ⟨v, hv, hdel⟩ := exists_delivers hd hh
    refine ⟨v, hv ▸ hk, ⟨ctx, ?_⟩, delivery_new hdel⟩
    rwa [← hdel.eq]
  step {i o g x x' g'} _ hI hP hs := by
    obtain ⟨r, p, hr, hp, rfl⟩ := executions_step hs
    obtain ⟨v, hv, ⟨ctx, hst⟩, hx⟩ := hP x rfl
    refine ⟨hI.confined hst (confined_of_delivery hv hx hr), fun y hy => ?_, trivial⟩
    obtain rfl := Option.some.inj hy
    exact ⟨v, hv, ⟨ctx, hst⟩, hx.after hp⟩
  env hG hI hs := ⟨hI.env hG.2 hs, trivial⟩
  stable _ _ hP _ := hP

end

/-- Tickets with keys of the documented form map one-to-one to records. Two bodies that are
    applied are sent to the same record exactly when their keys are equal. Over any run of
    deliveries of such tickets, whatever else happens, every execution is a delivery of a
    ticket that was started; what it does is confined to the one record of that ticket, where
    its Patch leaves its spec; and the spec of that record is one that was sent for this
    ticket, unless another client wrote it. -/
theorem tickets_one_to_one (cfg : Jsm.Config) :
    (∀ body body' payload payload' act act', Jsm.decode body = .ok payload →
      Jsm.decode body' = .ok payload' → Jsm.handle cfg body = .ok (.apply act) →
      Jsm.handle cfg body' = .ok (.apply act') → Jsm.IssueKey payload.issueKey →
      Jsm.IssueKey payload'.issueKey →
      (act.object.key = act'.object.key ↔ payload.issueKey = payload'.issueKey)) ∧
    ∀ e tr s, (executions e).machine.run (executions e).machine.init tr = some s →
      (∀ l ∈ tr, DeliversTickets cfg l) →
      (∀ i x, s.procs i = some x → ∃ ctx v, Jsm.IssueKey v.key ∧
        .start i (ctx, ticketAction cfg v) ∈ tr ∧
        ∀ o s', (executions e).machine.step s (.step i o) = some s' →
          Confined cfg v s.shared s'.shared ∧
          (∀ act obj, x.phase = .patch act obj → o = .ok →
            ∃ cr, s'.shared.store (recordKey cfg v.key) = some cr ∧
              cr.spec = ticketSpec cfg v)) ∧
      ∀ key cr, Jsm.IssueKey key → s.shared.store (recordKey cfg key) = some cr →
        Written cfg tr key cr.spec := by
  refine ⟨fun body body' payload payload' act act' hd hd' hh hh' hk hk' => ?_,
    fun e tr s hrun htr => ?_⟩
  · obtain ⟨v, hv, hdel⟩ := exists_delivers hd hh
    obtain ⟨v', hv', hdel'⟩ := exists_delivers hd' hh'
    rw [hdel.eq, hdel'.eq, ← recordKey_inj hk hk', ← hv, ← hv']
    rfl
  · obtain ⟨hI, hP⟩ := (tickets_invariant e cfg tr).run (fun l hl => ⟨htr l hl, hl⟩)
      ⟨fun _ _ _ h => (by cases h), fun i y h => (by cases h)⟩ hrun
    refine ⟨fun i x hx => ?_, hI⟩
    obtain ⟨v, hv, ⟨ctx, hst⟩, hdel⟩ := hP i x hx
    refine ⟨ctx, v, hv, hst, fun o s' hs' => ?_⟩
    obtain ⟨x', hx', y, g, hst', rfl⟩ := Pool.step_step.mp hs'
    obtain rfl := Option.some.inj (hx.symm.trans hx')
    obtain ⟨r, p, hr, -, -⟩ := executions_step hst'
    refine ⟨confined_of_delivery hv hdel hr, fun act obj hp ho => ?_⟩
    subst ho
    exact landed_of_patch hdel hp hr

theorem issueKey_sample : Jsm.IssueKey (lit "SEC-1") :=
  ⟨lit "SEC", lit "1", rfl, by decide, by decide, forall_mem_of_all (by decide),
    forall_mem_of_all (by decide)⟩

theorem tickets_one_to_one_sample :
    ∃ s s' x, (executions (newExecutor [] second)).machine.run
        (executions (newExecutor [] second)).machine.init
          [.start 0 (sampleRequest.ctx, sampleAction)] = some s ∧ s.procs 0 = some x ∧
      (executions (newExecutor [] second)).machine.step s (.step 0 .ok) = some s' ∧
      ∃ v, Confined Jsm.sampleConfig v s.shared s'.shared := by
  have htr : ∀ l ∈ [.start 0 (sampleRequest.ctx, sampleAction)],
      DeliversTickets Jsm.sampleConfig l := by
    obtain ⟨body, payload, hd, hk, -, -, -, hh⟩ := delivers_sampleAction
    rw [List.forall_mem_singleton]
    exact ⟨body, payload, hd, hk ▸ issueKey_sample, hh⟩
  refine ⟨_, _, _, rfl, rfl, rfl, ?_⟩
  obtain ⟨hproc, -⟩ := (tickets_one_to_one Jsm.sampleConfig).2 (newExecutor [] second) _ _ rfl htr
  obtain ⟨-, v, -, -, hstep⟩ := hproc 0 _ rfl
  exact ⟨v, (hstep .ok _ rfl).1⟩

end Webhookd
