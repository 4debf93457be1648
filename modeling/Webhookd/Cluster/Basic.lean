import Webhookd.Jsm.Provider
import Webhookd.Executor
import Webhookd.Machine.Pool

/-!
# Executions in a cluster

Any number of executions against one API server, which holds a record for each
namespace and name, interleaved with the operator, which writes statuses, and
with other clients, which write and delete records.

An apply creates a record at generation 1, or replaces the spec and adds one to
the generation exactly when the spec changes; it never touches the status. A
status never runs ahead of the generation (`Cluster.setStatus`). A watch
delivers faithful copies of past or current records of its namespace, in any
order and any number of times, unless it closes.

It is an assumption of the model that a call which fails has no effect. An apply
whose reply is lost is then one of another client, followed by a failure.

An `Execution` also remembers what its apply left, and what `waitForSync` last
looked at, for the theorems about it. `executions_step` says what a step of an
execution can do, and `Cluster.Wf` and `Cluster.Grows` what every step keeps.
-/

namespace Webhookd

open Go

/-! ## The API server -/

/-- A namespace and a name. -/
abbrev Key := GoString × GoString

def SAMLGroupMapping.key (cr : SAMLGroupMapping) : Key :=
  (cr.metadata.namespace_, cr.metadata.name)

def ClientObject.key (o : ClientObject) : Key := (o.namespace_, o.name)

/-- The records of the API server, all that they ever were, and the next UID. -/
structure Cluster where
  store : Key → Option SAMLGroupMapping
  history : List (EventType × SAMLGroupMapping)
  nextUID : Nat

namespace Cluster

/-- A cluster without records. -/
def empty : Cluster := ⟨fun _ => none, [], 0⟩

/-- The record that an apply leaves. Labels and annotations of other managers
    stay. -/
def applied (g : Cluster) (cr : SAMLGroupMapping) : SAMLGroupMapping :=
  match g.store cr.key with
  | none =>
    { cr with metadata := { cr.metadata with uid := g.nextUID, generation := 1 }, status := {} }
  | some old =>
    { old with
      spec := cr.spec
      metadata :=
        { old.metadata with
          generation := old.metadata.generation + if old.spec = cr.spec then 0 else 1
          labels := old.metadata.labels.copy cr.metadata.labels
          annotations := old.metadata.annotations.copy cr.metadata.annotations } }

/-- Stores a record at a key, and remembers the event of it. -/
def put (g : Cluster) (k : Key) (t : EventType) (cr : SAMLGroupMapping) : Cluster :=
  { g with store := Function.update g.store k (some cr), history := g.history ++ [(t, cr)] }

/-- A server-side apply. -/
def apply (g : Cluster) (cr : SAMLGroupMapping) : Cluster :=
  { g.put cr.key (if (g.store cr.key).isNone then .added else .modified) (g.applied cr) with
    -- A UID only has to be fresh, so one is spent on every apply.
    nextUID := g.nextUID + 1 }

/-- A status write, for a generation that exists. -/
def setStatus (g : Cluster) (k : Key) (st : SAMLGroupMappingStatus) : Option Cluster :=
  match g.store k with
  | none => none
  | some cr =>
    if st.observedGeneration ≤ cr.metadata.generation then
      some (g.put k .modified { cr with status := st })
    else none

/-- A delete, whose event has the last state of the record. -/
def delete (g : Cluster) (k : Key) : Option Cluster :=
  match g.store k with
  | none => none
  | some cr =>
    some { g with
      store := Function.update g.store k none
      history := g.history ++ [(.deleted, cr)] }

/-- The error of a Get that finds nothing. -/
def notFound : K8sError := ⟨.unknown, lit "not found"⟩

/-- A call that the server answers. -/
def serve (g : Cluster) : ApiCall → Option (Cluster × Reply)
  | .patch (.samlGroupMapping cr) _ _ =>
    some (g.apply cr, .object (.samlGroupMapping (g.applied cr)))
  | .patch (.other _) _ _ => none
  | .get ns name =>
    match g.store (ns, name) with
    | some cr => some (g, .object (.samlGroupMapping cr))
    | none => some (g, .failed notFound)
  | .watch _ _ => some (g, .watching)

end Cluster

/-! ## Executions -/

/-- What `waitForSync` looked at. -/
inductive Observation
  | got (cr : SAMLGroupMapping)
  | event (type : EventType) (cr : SAMLGroupMapping)

/-- The record that was looked at. -/
def Observation.record : Observation → SAMLGroupMapping
  | .got cr => cr
  | .event _ cr => cr

/-- An execution: the object it sends and where it is, with the number of replies
    it got, the record its Patch left, the one that `apply` returned and the one
    that `waitForSync` last looked at. -/
structure Execution where
  sent : ClientObject
  phase : Phase
  replies : Nat
  patched : Option SAMLGroupMapping
  applied : Option SAMLGroupMapping
  observed : Option Observation

namespace Execution

/-- `Execute` of an apply action. -/
def new (ctx : RequestContext) (act : ApplyAction) : Execution :=
  ⟨prepare ctx act, execute ctx (.apply act), 0, none, none, none⟩

/-- What is remembered of the reply to the Patch. -/
def patchedBy : Phase → Reply → Option SAMLGroupMapping → Option SAMLGroupMapping
  | .patch _ _, .object (.samlGroupMapping cr), _ => some cr
  | _, _, old => old

/-- What is remembered of the reply to the Get after it. -/
def appliedBy : Phase → Reply → Option SAMLGroupMapping → Option SAMLGroupMapping
  | .refetch _ _, .object (.samlGroupMapping cr), _ => some cr
  | _, _, old => old

/-- What is remembered of the replies to `waitForSync`. -/
def observedBy : Phase → Reply → Option Observation → Option Observation
  | .probe _ _, .object (.samlGroupMapping cr), _ => some (.got cr)
  | .select _ _, .event ⟨t, some (.samlGroupMapping cr)⟩, _ => some (.event t cr)
  | _, _, old => old

/-- The execution after a reply, from which it goes on to `p`. -/
def after (x : Execution) (r : Reply) (p : Phase) : Execution where
  sent := x.sent
  phase := p
  replies := x.replies + 1
  patched := patchedBy x.phase r x.patched
  applied := appliedBy x.phase r x.applied
  observed := observedBy x.phase r x.observed

end Execution

/-- What happens to an execution next. -/
inductive Outcome
  /-- The server answers its call. -/
  | ok
  /-- Its call fails. -/
  | fail (err : K8sError)
  /-- Its watch delivers a copy of a record. -/
  | deliver (n : Nat)
  /-- Its watch delivers an event that has no record. -/
  | deliverOther (t : EventType)
  | closed
  | done

/-- What the operator and other clients do. -/
inductive Disturbance
  | setStatus (k : Key) (st : SAMLGroupMappingStatus)
  | apply (cr : SAMLGroupMapping)
  | delete (k : Key)

/-- Who takes a step in a cluster, and which. -/
abbrev ClusterLabel := Pool.Label (RequestContext × ApplyAction) Outcome Disturbance

/-- The reply to an execution, and the cluster after it, which a failed call leaves as
    it was. -/
def Cluster.reply (e : Executor) (g : Cluster) (p : Phase) : Outcome → Option (Cluster × Reply)
  | .ok => p.call e >>= g.serve
  | .fail err => (p.call e).map fun _ => (g, .failed err)
  | .deliver n =>
    match p, g.history[n]? with
    | .select _ applied, some (t, cr) =>
      if cr.metadata.namespace_ = applied.namespace_ then
        some (g, .event ⟨t, some (.samlGroupMapping cr)⟩)
      else none
    | _, _ => none
  | .deliverOther t => some (g, .event ⟨t, none⟩)
  | .closed => some (g, .closed)
  | .done => some (g, .done)

/-- Executions over a cluster. -/
def executions (e : Executor) :
    Pool Cluster Execution (RequestContext × ApplyAction) Outcome Disturbance where
  init := .empty
  start _ a g := some (.new a.1 a.2, g)
  step _ x o g := do
    let (g', r) ← g.reply e x.phase o
    let p ← x.phase.resume e r
    return (x.after r p, g')
  env
    | .setStatus k st, g => g.setStatus k st
    | .apply cr, g => some (g.apply cr)
    | .delete k, g => g.delete k

/-! ## What can happen -/

/-- The replies that an execution can get, one by one. -/
inductive Replies (g : Cluster) : Phase → Outcome → Cluster → Reply → Prop
  | patched {act cr} : Replies g (.patch act (.samlGroupMapping cr)) .ok (g.apply cr)
      (.object (.samlGroupMapping (g.applied cr)))
  | refetched {act obj cr} (h : g.store obj.key = some cr) :
      Replies g (.refetch act obj) .ok g (.object (.samlGroupMapping cr))
  | refetchedNone {act obj} (h : g.store obj.key = none) :
      Replies g (.refetch act obj) .ok g (.failed Cluster.notFound)
  | probed {act applied cr} (h : g.store applied.key = some cr) :
      Replies g (.probe act applied) .ok g (.object (.samlGroupMapping cr))
  | probedNone {act applied} (h : g.store applied.key = none) :
      Replies g (.probe act applied) .ok g (.failed Cluster.notFound)
  | watching {act applied} : Replies g (.establish act applied) .ok g .watching
  | failed {p err} : Replies g p (.fail err) g (.failed err)
  | delivered {act applied n t cr} (h : (t, cr) ∈ g.history)
      (hns : cr.metadata.namespace_ = applied.namespace_) :
      Replies g (.select act applied) (.deliver n) g (.event ⟨t, some (.samlGroupMapping cr)⟩)
  | deliveredOther {p t} : Replies g p (.deliverOther t) g (.event ⟨t, none⟩)
  | closed {p} : Replies g p .closed g .closed
  | done {p} : Replies g p .done g .done

/-- Only a Patch changes the cluster. -/
theorem Replies.cluster {g g' : Cluster} {p : Phase} {o : Outcome} {r : Reply}
    (h : Replies g p o g' r) : g' = g ∨ ∃ cr, g' = g.apply cr := by
  cases h with
  | patched => exact .inr ⟨_, rfl⟩
  | _ => exact .inl rfl

/-- A Get changes nothing, and returns the record or an error. -/
theorem Cluster.serve_get {g g' : Cluster} {ns name : GoString} {r : Reply}
    (h : g.serve (.get ns name) = some (g', r)) :
    g' = g ∧ ((∃ cr, g.store (ns, name) = some cr ∧ r = .object (.samlGroupMapping cr)) ∨
      (g.store (ns, name) = none ∧ r = .failed notFound)) := by
  simp only [serve] at h
  cases hs : g.store (ns, name) with
  | none =>
    rw [hs] at h
    obtain ⟨rfl, rfl⟩ := Prod.mk.inj (Option.some.inj h)
    exact ⟨rfl, .inr ⟨rfl, rfl⟩⟩
  | some cr =>
    rw [hs] at h
    obtain ⟨rfl, rfl⟩ := Prod.mk.inj (Option.some.inj h)
    exact ⟨rfl, .inl ⟨cr, rfl, rfl⟩⟩

theorem Cluster.serve_get_of_some {g : Cluster} {ns name : GoString} {cr : SAMLGroupMapping}
    (h : g.store (ns, name) = some cr) :
    g.serve (.get ns name) = some (g, .object (.samlGroupMapping cr)) := by
  simp only [serve, h]

/-- The replies are those that `Replies` lists. -/
theorem Cluster.replies_of_reply {e : Executor} {g g' : Cluster} {p : Phase} {o : Outcome}
    {r : Reply} (h : g.reply e p o = some (g', r)) : Replies g p o g' r := by
  cases o with
  | ok =>
    obtain ⟨c, hc, h⟩ := Option.bind_eq_some_iff.mp h
    cases p with
    | patch act obj =>
      obtain rfl := Option.some.inj hc
      cases obj with
      | samlGroupMapping cr =>
        obtain ⟨rfl, rfl⟩ := Prod.mk.inj (Option.some.inj h)
        exact .patched
      | other m => cases h
    | refetch act obj =>
      obtain rfl := Option.some.inj hc
      obtain ⟨rfl, ⟨cr, hcr, rfl⟩ | ⟨hn, rfl⟩⟩ := serve_get h
      · exact .refetched hcr
      · exact .refetchedNone hn
    | probe act applied =>
      obtain rfl := Option.some.inj hc
      obtain ⟨rfl, ⟨cr, hcr, rfl⟩ | ⟨hn, rfl⟩⟩ := serve_get h
      · exact .probed hcr
      · exact .probedNone hn
    | establish act applied =>
      obtain rfl := Option.some.inj hc
      obtain ⟨rfl, rfl⟩ := Prod.mk.inj (Option.some.inj h)
      exact .watching
    | select act applied => cases hc
    | done res => cases hc
  | fail err =>
    obtain ⟨_, -, h⟩ := Option.map_eq_some_iff.mp h
    obtain ⟨rfl, rfl⟩ := Prod.mk.inj h
    exact .failed
  | deliver n =>
    simp only [reply] at h
    split at h
    · rename_i act applied t cr hn
      split at h
      · rename_i hns
        obtain ⟨rfl, rfl⟩ := Prod.mk.inj (Option.some.inj h)
        exact .delivered (List.mem_of_getElem? hn) hns
      · cases h
    · cases h
  | deliverOther t =>
    obtain ⟨rfl, rfl⟩ := Prod.mk.inj (Option.some.inj h)
    exact .deliveredOther
  | closed =>
    obtain ⟨rfl, rfl⟩ := Prod.mk.inj (Option.some.inj h)
    exact .closed
  | done =>
    obtain ⟨rfl, rfl⟩ := Prod.mk.inj (Option.some.inj h)
    exact .done

/-- A step of an execution: a reply from the cluster, from which it goes on. -/
theorem executions_step {e : Executor} {i : Nat} {x x' : Execution} {o : Outcome}
    {g g' : Cluster} (h : (executions e).step i x o g = some (x', g')) :
    ∃ r p, Replies g x.phase o g' r ∧ Resumes e x.phase r p ∧ x' = x.after r p := by
  obtain ⟨⟨g₁, r⟩, hr, h⟩ := Option.bind_eq_some_iff.mp h
  obtain ⟨p, hp, h⟩ := Option.bind_eq_some_iff.mp h
  obtain ⟨rfl, rfl⟩ := Prod.mk.inj (Option.some.inj h)
  exact ⟨r, p, Cluster.replies_of_reply hr, Phase.resume_eq_some.mp hp, rfl⟩

/-- An execution goes on with the reply that the cluster gives. -/
theorem executions_step_of {e : Executor} {i : Nat} {x : Execution} {o : Outcome} {g g' : Cluster}
    {r : Reply} {p : Phase} (hr : g.reply e x.phase o = some (g', r))
    (hp : x.phase.resume e r = some p) :
    (executions e).step i x o g = some (x.after r p, g') :=
  Option.bind_eq_some_iff.mpr ⟨_, hr, Option.bind_eq_some_iff.mpr ⟨p, hp, rfl⟩⟩

/-! ## Clusters -/

namespace Cluster

variable {g g' : Cluster} {k k' : Key} {cr : SAMLGroupMapping} {st : SAMLGroupMappingStatus}

/-- What holds of every cluster: a record is stored at its key and remembered, and
    no status runs ahead of its generation. -/
structure Wf (g : Cluster) : Prop where
  key_eq : ∀ {k cr}, g.store k = some cr → cr.key = k
  mem_history : ∀ {k cr}, g.store k = some cr → ∃ t, (t, cr) ∈ g.history
  observed_le : ∀ {t cr}, (t, cr) ∈ g.history →
    cr.status.observedGeneration ≤ cr.metadata.generation

theorem wf_empty : empty.Wf where
  key_eq h := nomatch h
  mem_history h := nomatch h
  observed_le h := nomatch h

@[simp] theorem put_store_self (g : Cluster) (k : Key) (t : EventType) (cr : SAMLGroupMapping) :
    (g.put k t cr).store k = some cr := Function.update_self ..

/-- A record under another key stays. -/
theorem put_store_of_ne (g : Cluster) (h : k' ≠ k) (t : EventType) (cr : SAMLGroupMapping) :
    (g.put k t cr).store k' = g.store k' := Function.update_of_ne h ..

/-- What is in the store was put there now, or before. -/
theorem put_store_cases {t : EventType} {cr' : SAMLGroupMapping}
    (h : (g.put k t cr).store k' = some cr') :
    (k' = k ∧ cr' = cr) ∨ g.store k' = some cr' := by
  rcases eq_or_ne k' k with rfl | hne
  · rw [put_store_self] at h
    exact .inl ⟨rfl, (Option.some.inj h).symm⟩
  · rw [put_store_of_ne g hne] at h
    exact .inr h

/-- The history has one more entry. -/
theorem mem_put_history {t t' : EventType} {cr' : SAMLGroupMapping} :
    (t', cr') ∈ (g.put k t cr).history ↔ (t', cr') ∈ g.history ∨ (t' = t ∧ cr' = cr) := by
  rw [put, List.mem_append, List.mem_singleton, Prod.mk.injEq]

/-- A record under its own key, whose status is not ahead, may be put. -/
theorem Wf.put {t : EventType} (h : g.Wf) (hk : cr.key = k)
    (ho : cr.status.observedGeneration ≤ cr.metadata.generation) : (g.put k t cr).Wf where
  key_eq hs := by
    rcases put_store_cases hs with ⟨rfl, rfl⟩ | hs
    · exact hk
    · exact h.key_eq hs
  mem_history hs := by
    rcases put_store_cases hs with ⟨rfl, rfl⟩ | hs
    · exact ⟨t, mem_put_history.mpr (.inr ⟨rfl, rfl⟩)⟩
    · exact (h.mem_history hs).imp fun _ hm => mem_put_history.mpr (.inl hm)
  observed_le hm := by
    rcases mem_put_history.mp hm with hm | ⟨-, rfl⟩
    · exact h.observed_le hm
    · exact ho

/-- An apply does not move a record. -/
theorem applied_key (g : Cluster) (h : g.Wf) (cr : SAMLGroupMapping) :
    (g.applied cr).key = cr.key := by
  unfold applied
  split
  · rfl
  · rename_i old hold
    exact (h.key_eq hold : old.key = cr.key)

theorem applied_spec (g : Cluster) (cr : SAMLGroupMapping) : (g.applied cr).spec = cr.spec := by
  unfold applied
  split <;> rfl

@[simp] theorem apply_store_self (g : Cluster) (cr : SAMLGroupMapping) :
    (g.apply cr).store cr.key = some (g.applied cr) := Function.update_self ..

/-- An apply to one key leaves the others. -/
theorem apply_store_of_ne (g : Cluster) (h : k ≠ cr.key) : (g.apply cr).store k = g.store k :=
  Function.update_of_ne h ..

/-- An apply keeps the status, and never lowers the generation that it is about. -/
theorem Wf.apply (h : g.Wf) (cr : SAMLGroupMapping) : (g.apply cr).Wf := by
  have ho : (g.applied cr).status.observedGeneration ≤ (g.applied cr).metadata.generation := by
    -- A new record has no status yet, and an old one keeps its status.
    unfold applied
    split
    · exact Int.zero_le_ofNat 1
    · rename_i old hold
      obtain ⟨t, ht⟩ := h.mem_history hold
      have := h.observed_le ht
      dsimp only
      split_ifs <;> omega
  exact { h.put (g.applied_key h cr) ho with }

/-- A status is written to a record that exists, and not ahead of its generation. -/
theorem setStatus_eq_some (h : g.setStatus k st = some g') :
    ∃ cr, g.store k = some cr ∧ st.observedGeneration ≤ cr.metadata.generation ∧
      g' = g.put k .modified { cr with status := st } := by
  unfold setStatus at h
  split at h
  · cases h
  · split_ifs at h with hle
    exact ⟨_, ‹_›, hle, (Option.some.inj h).symm⟩

theorem Wf.setStatus (h : g.Wf) (hs : g.setStatus k st = some g') : g'.Wf := by
  obtain ⟨cr, hcr, hle, rfl⟩ := setStatus_eq_some hs
  exact h.put (h.key_eq hcr : cr.key = k) hle

/-- A record that is deleted stays in the history. -/
theorem delete_eq_some (h : g.delete k = some g') :
    ∃ cr, g.store k = some cr ∧ g' = { g with
      store := Function.update g.store k none
      history := g.history ++ [(.deleted, cr)] } := by
  unfold delete at h
  split at h
  · cases h
  · exact ⟨_, ‹_›, (Option.some.inj h).symm⟩

/-- What is there after a delete was there before. -/
theorem store_of_delete (h : g.delete k = some g') (hs : g'.store k' = some cr) :
    g.store k' = some cr := by
  obtain ⟨old, -, rfl⟩ := delete_eq_some h
  have hs : Function.update g.store k none k' = some cr := hs
  rcases eq_or_ne k' k with rfl | hne
  · rw [Function.update_self] at hs
    cases hs
  · rwa [Function.update_of_ne hne] at hs

/-- Deleting a record keeps the rest. -/
theorem Wf.delete (h : g.Wf) (hd : g.delete k = some g') : g'.Wf := by
  have hst : ∀ {k' cr}, g'.store k' = some cr → g.store k' = some cr := store_of_delete hd
  obtain ⟨cr, hcr, rfl⟩ := delete_eq_some hd
  refine ⟨fun hs => h.key_eq (hst hs), fun hs => ?_, fun hm => ?_⟩
  · exact (h.mem_history (hst hs)).imp fun _ hm => List.mem_append_left _ hm
  · -- The event of the delete has a record that was remembered before.
    rcases List.mem_append.mp hm with hm | hm
    · exact h.observed_le hm
    · obtain ⟨-, rfl⟩ := Prod.mk.inj (List.mem_singleton.mp hm)
      obtain ⟨t, ht⟩ := h.mem_history hcr
      exact h.observed_le ht

/-- At a key, nothing is forgotten, and a record stays the same one at a
    generation that does not decrease. -/
structure Grows (k : Key) (g g' : Cluster) : Prop where
  history : ∀ {e}, e ∈ g.history → e ∈ g'.history
  record : ∀ {cr}, g.store k = some cr → ∃ cr', g'.store k = some cr' ∧
    cr'.metadata.uid = cr.metadata.uid ∧ cr.metadata.generation ≤ cr'.metadata.generation

theorem Grows.refl (k : Key) (g : Cluster) : Grows k g g := ⟨id, fun h => ⟨_, h, rfl, le_rfl⟩⟩

/-- An apply to a record that exists keeps its UID. -/
theorem applied_of_some {old : SAMLGroupMapping} (h : g.store cr.key = some old) :
    (g.applied cr).metadata.uid = old.metadata.uid ∧
      old.metadata.generation ≤ (g.applied cr).metadata.generation := by
  rw [applied, h]
  refine ⟨rfl, ?_⟩
  dsimp only
  split_ifs <;> omega

/-- No apply replaces a record by another one, or lowers its generation. -/
theorem grows_apply (k : Key) (g : Cluster) (cr : SAMLGroupMapping) : Grows k g (g.apply cr) where
  history := List.mem_append_left _
  record {old} h := by
    rcases eq_or_ne k cr.key with rfl | hne
    · obtain ⟨hu, hg⟩ := applied_of_some h
      exact ⟨_, g.apply_store_self cr, hu, hg⟩
    · exact ⟨old, (g.apply_store_of_ne hne).trans h, rfl, le_rfl⟩

/-- A status does not touch UID and generation. -/
theorem grows_setStatus (k : Key) (h : g.setStatus k' st = some g') : Grows k g g' := by
  obtain ⟨cr, hcr, -, rfl⟩ := setStatus_eq_some h
  refine ⟨List.mem_append_left _, fun {old} ho => ?_⟩
  rcases eq_or_ne k k' with rfl | hne
  · obtain rfl := Option.some.inj (ho.symm.trans hcr)
    exact ⟨_, put_store_self .., rfl, le_rfl⟩
  · exact ⟨old, (put_store_of_ne g hne ..).trans ho, rfl, le_rfl⟩

/-- Only the record that is deleted is lost. -/
theorem grows_delete (hne : k ≠ k') (h : g.delete k' = some g') : Grows k g g' := by
  obtain ⟨cr, -, rfl⟩ := delete_eq_some h
  exact ⟨List.mem_append_left _, fun {old} ho =>
    ⟨old, (Function.update_of_ne hne ..).trans ho, rfl, le_rfl⟩⟩

end Cluster

end Webhookd
