import Webhookd.Cluster.Basic
import Webhookd.Dispatcher

/-!
# What success means

An execution that returns `ResultReady` has seen a record that the operator
marked ready for the spec that it applied, or a later one, whatever else
happens in the cluster, as long as nobody deletes the record.

The invariant is `Tracks`: what an execution knows about its record in each
phase. It rests on records that stay (`Cluster.Grows`) and on a history
without deletes (`Cluster.Intact`), for the keys that nobody deletes.

* `ready_sound`: no false success, if nothing is deleted;
* `ready_same_incarnation`: the record that justified a success is the one that
  was applied, if that one is not deleted. It can be another one otherwise
  (`ready_other_incarnation`).
-/

namespace Webhookd

open Go

/-! ## Records that nobody deletes -/

/-- The history of a key has no deletes, and all of it is of the record that is
    stored there. -/
structure Cluster.Intact (k : Key) (g : Cluster) : Prop where
  event : ∀ {t cr}, (t, cr) ∈ g.history → cr.key = k → (t = .added ∨ t = .modified) ∧
    ∃ cur, g.store k = some cur ∧ cur.metadata.uid = cr.metadata.uid

namespace Cluster

variable {g g' : Cluster} {k k' : Key} {cr : SAMLGroupMapping} {st : SAMLGroupMappingStatus}

theorem intact_empty (k : Key) : empty.Intact k := ⟨fun h => nomatch h⟩

/-- An event of the record that is stored after it. -/
theorem Intact.extend (h : g.Intact k) (hg : Grows k g g')
    (hnew : ∀ {t cr}, (t, cr) ∈ g'.history → (t, cr) ∉ g.history → cr.key = k →
      (t = .added ∨ t = .modified) ∧
        ∃ cur, g'.store k = some cur ∧ cur.metadata.uid = cr.metadata.uid) :
    g'.Intact k := by
  refine ⟨fun {t cr} hm hk => ?_⟩
  by_cases hold : (t, cr) ∈ g.history
  · obtain ⟨ht, cur, hcur, hu⟩ := h.event hold hk
    obtain ⟨cur', hcur', hu', -⟩ := hg.record hcur
    exact ⟨ht, cur', hcur', hu'.trans hu⟩
  · exact hnew hm hold hk

/-- An apply adds an event of the record that it leaves. -/
theorem Intact.apply (h : g.Intact k) (hw : g.Wf) (cr : SAMLGroupMapping) :
    (g.apply cr).Intact k := by
  refine h.extend (grows_apply k g cr) fun {t cr'} hm hold hk => ?_
  rcases List.mem_append.mp hm with hm | hm
  · exact absurd hm hold
  · obtain ⟨rfl, rfl⟩ := Prod.mk.inj (List.mem_singleton.mp hm)
    rw [applied_key g hw] at hk
    subst hk
    refine ⟨?_, _, g.apply_store_self cr, rfl⟩
    split_ifs
    · exact .inl rfl
    · exact .inr rfl

/-- So does a status. -/
theorem Intact.setStatus (h : g.Intact k) (hw : g.Wf) (hs : g.setStatus k' st = some g') :
    g'.Intact k := by
  refine h.extend (grows_setStatus k hs) fun {t cr'} hm hold hk => ?_
  obtain ⟨cr, hcr, -, rfl⟩ := setStatus_eq_some hs
  rcases mem_put_history.mp hm with hm | ⟨rfl, rfl⟩
  · exact absurd hm hold
  · obtain rfl : k' = k := (hw.key_eq hcr).symm.trans hk
    exact ⟨.inr rfl, _, put_store_self .., rfl⟩

/-- A delete adds one of another key. -/
theorem Intact.delete (h : g.Intact k) (hw : g.Wf) (hne : k ≠ k') (hd : g.delete k' = some g') :
    g'.Intact k := by
  refine h.extend (grows_delete hne hd) fun {t cr'} hm hold hk => ?_
  obtain ⟨cr, hcr, rfl⟩ := delete_eq_some hd
  rcases List.mem_append.mp hm with hm | hm
  · exact absurd hm hold
  · obtain ⟨rfl, rfl⟩ := Prod.mk.inj (List.mem_singleton.mp hm)
    exact absurd ((hw.key_eq hcr).symm.trans hk).symm hne

/-- The record is still stored, at its generation or a later one. -/
def Live (g : Cluster) (cr : SAMLGroupMapping) : Prop :=
  ∃ cur, g.store cr.key = some cur ∧ cur.metadata.uid = cr.metadata.uid ∧
    cr.metadata.generation ≤ cur.metadata.generation

/-- A record that nobody deletes stays live. -/
theorem Live.mono (h : g.Live cr) (hg : Grows cr.key g g') : g'.Live cr := by
  obtain ⟨cur, hcur, hu, hle⟩ := h
  obtain ⟨cur', hcur', hu', hle'⟩ := hg.record hcur
  exact ⟨cur', hcur', hu'.trans hu, hle.trans hle'⟩

end Cluster

/-! ## What an execution knows -/

/-- A record is only reported ready if its condition says so, for the generation that was
    applied. -/
theorem Jsm.isReady_eq_true {obj : ClientObject} {applyGen g : Int}
    (h : Jsm.isReady obj applyGen = (true, g)) :
    ∃ cr, obj = .samlGroupMapping cr ∧ applyGen ≤ cr.status.observedGeneration ∧
      Jsm.conditionReady cr.status.conditions = true := by
  cases obj with
  | other m => cases h
  | samlGroupMapping cr =>
    simp only [Jsm.isReady] at h
    split_ifs at h with hlt
    · cases h
    · exact ⟨cr, rfl, not_lt.mp hlt, (Prod.mk.inj h).1⟩

/-- What is known once `apply` has returned: the record that the Patch left, and
    the one that the Get after it returned. -/
structure Applied (x : Execution) (cr ap : SAMLGroupMapping) : Prop where
  patched : x.patched = some cr
  applied : x.applied = some ap
  key_cr : cr.key = x.sent.key
  key_ap : ap.key = x.sent.key
  uid_eq : ap.metadata.uid = cr.metadata.uid
  generation_le : cr.metadata.generation ≤ ap.metadata.generation

/-- An observation shows that the applied record, and no other one, was ready for
    its generation. -/
structure Justifies (g : Cluster) (ap : SAMLGroupMapping) (obs : Observation) : Prop where
  key_eq : obs.record.key = ap.key
  uid_eq : obs.record.metadata.uid = ap.metadata.uid
  mem_history : ∃ t, (t, obs.record) ∈ g.history
  ready : Jsm.conditionReady obs.record.status.conditions = true
  observed : ap.metadata.generation ≤ obs.record.status.observedGeneration
  type : ∀ t cr, obs = .event t cr → t = .added ∨ t = .modified

/-- What an execution knows about its record, in each phase. -/
def Tracks (g : Cluster) (x : Execution) : Prop :=
  match x.phase with
  | .patch act obj => act.readyCheck = Jsm.isReady ∧ obj = x.sent
  | .refetch act obj => act.readyCheck = Jsm.isReady ∧
    ∃ cr, x.patched = some cr ∧ obj = .samlGroupMapping cr ∧ cr.key = x.sent.key ∧ g.Live cr
  | .probe act applied | .establish act applied | .select act applied =>
    act.readyCheck = Jsm.isReady ∧
      ∃ cr ap, Applied x cr ap ∧ applied = .samlGroupMapping ap ∧ g.Live ap
  | .done res => res.kind = .ready →
    ∃ cr ap obs, Applied x cr ap ∧ x.observed = some obs ∧ Justifies g ap obs

variable {e : Executor} {g g' : Cluster} {x x' : Execution} {o : Outcome} {i : Nat}

/-- What was seen is not unseen. -/
theorem Justifies.mono {ap : SAMLGroupMapping} {obs : Observation} (h : Justifies g ap obs)
    (hg : ∀ {ev}, ev ∈ g.history → ev ∈ g'.history) : Justifies g' ap obs :=
  { h with mem_history := h.mem_history.imp fun _ => hg }

/-- What an execution knows stays true while its record is only written to. -/
theorem Tracks.mono (h : Tracks g x) (hg : Cluster.Grows x.sent.key g g') : Tracks g' x := by
  obtain ⟨sent, phase, replies, patched, applied, observed⟩ := x
  cases phase with
  | patch act obj => exact h
  | refetch act obj =>
    obtain ⟨hr, cr, hp, ho, hk, hl⟩ := h
    exact ⟨hr, cr, hp, ho, hk, hl.mono (hk ▸ hg)⟩
  | done res =>
    intro hres
    obtain ⟨cr, ap, obs, ha, ho, hj⟩ := h hres
    exact ⟨cr, ap, obs, ha, ho, hj.mono hg.history⟩
  | _ =>
    obtain ⟨hr, cr, ap, ha, he, hl⟩ := h
    exact ⟨hr, cr, ap, ha, he, hl.mono (ha.key_ap ▸ hg)⟩

/-- The record that is stored at the key of an applied one justifies a success,
    if it is ready. -/
theorem justifies_got {cr ap : SAMLGroupMapping} (hw : g.Wf) (hl : g.Live ap)
    (hcr : g.store ap.key = some cr) (hobs : ap.metadata.generation ≤ cr.status.observedGeneration)
    (hready : Jsm.conditionReady cr.status.conditions = true) : Justifies g ap (.got cr) := by
  obtain ⟨cur, hcur, hu, -⟩ := hl
  obtain rfl := Option.some.inj (hcr.symm.trans hcur)
  exact ⟨hw.key_eq hcr, hu, hw.mem_history hcr, hready, hobs, nofun⟩

/-- So does one of which an event is delivered. -/
theorem justifies_event {cr ap : SAMLGroupMapping} {t : EventType} (hi : g.Intact ap.key)
    (hl : g.Live ap) (hm : (t, cr) ∈ g.history) (hk : cr.key = ap.key)
    (hobs : ap.metadata.generation ≤ cr.status.observedGeneration)
    (hready : Jsm.conditionReady cr.status.conditions = true) : Justifies g ap (.event t cr) := by
  obtain ⟨ht, cur, hcur, hu⟩ := hi.event hm hk
  obtain ⟨cur', hcur', hu', -⟩ := hl
  obtain rfl := Option.some.inj (hcur.symm.trans hcur')
  refine ⟨hk, hu.symm.trans hu', ⟨t, hm⟩, hready, hobs, ?_⟩
  rintro t' cr' h
  obtain ⟨rfl, rfl⟩ := Observation.event.inj h
  exact ht

/-- No error of the API server is a success. -/
theorem classifyK8sErr_ne_ready (err : K8sError) (ns name : GoString) :
    (classifyK8sErr err ns name).kind ≠ .ready := by
  rw [classifyK8sErr]
  cases err.reason <;> simp

/-- A step of an execution whose record nobody deletes. -/
theorem tracks_step (h : Tracks g x) (hw : g.Wf) (hi : g.Intact x.sent.key) {r : Reply} {p : Phase}
    (hr : Replies g x.phase o g' r) (hp : Resumes e x.phase r p) : Tracks g' (x.after r p) := by
  obtain ⟨sent, phase, replies, patched, applied, observed⟩ := x
  -- By how the execution goes on, and then by the replies from which it does.
  cases hp with
  | patched =>
    cases hr with
    | patched =>
      obtain ⟨hact, rfl⟩ := h
      exact ⟨hact, _, rfl, rfl, g.applied_key hw _,
        _, (congrArg _ (g.applied_key hw _)).trans (g.apply_store_self _), rfl, le_rfl⟩
  | refetched =>
    cases hr with
    | refetched hcr =>
      obtain ⟨hact, cr, rfl, rfl, hk, cur, hcur, hu, hle⟩ := h
      obtain rfl := Option.some.inj (hcur.symm.trans hcr)
      have hkc := hw.key_eq hcur
      exact ⟨hact, cr, cur, ⟨rfl, rfl, hk, hkc.trans hk, hu, hle⟩, rfl,
        cur, hkc ▸ hcur, rfl, le_rfl⟩
  | probedReady hready =>
    cases hr with
    | probed hcr =>
      obtain ⟨hact, cr, ap, ha, rfl, hl⟩ := h
      rw [hact] at hready
      obtain ⟨_, hcr', hobs, hcond⟩ := Jsm.isReady_eq_true hready
      obtain rfl := ClientObject.samlGroupMapping.inj hcr'
      exact fun _ => ⟨cr, ap, _, { ha with }, rfl, justifies_got hw hl hcr hobs hcond⟩
  | eventReady ho hn hready =>
    cases hr with
    | delivered hm hns =>
      -- The name is compared, and the watch is of the namespace: this is the key.
      obtain ⟨hact, cr, ap, ha, rfl, hl⟩ := h
      rw [hact] at hready
      obtain ⟨_, rfl, hobs, hcond⟩ := Jsm.isReady_eq_true hready
      obtain rfl := ClientObject.samlGroupMapping.inj (Option.some.inj ho)
      exact fun _ => ⟨cr, ap, _, { ha with }, rfl,
        justifies_event (ha.key_ap ▸ hi) hl hm (Prod.ext hns hn) hobs hcond⟩
    | deliveredOther => cases ho
  -- What is known does not change while the execution goes on waiting.
  | probedPending | probeFailed | watching | eventPending =>
    obtain ⟨hact, cr, ap, ha, rfl, hl⟩ := h
    cases hr <;> exact ⟨hact, cr, ap, { ha with }, rfl, hl⟩
  -- The other ways return, but not with success.
  | patchFailed => exact fun h => absurd h (classifyK8sErr_ne_ready _ _ _)
  | refetchFailed => exact fun h => absurd h (classifyK8sErr_ne_ready _ _ _)
  | watchFailed => exact nofun
  | timeout => exact nofun
  | closed => exact nofun

/-! ## Runs -/

/-- The steps that executions with `IsReady` take in a cluster where nobody
    deletes the records at some keys. -/
def Undeleted (D : Key → Prop) : ClusterLabel → Prop
  | .start _ a => a.2.readyCheck = Jsm.isReady
  | .step _ _ => True
  | .env (.delete k) => ¬D k
  | .env _ => True

/-- Nobody deletes what an execution tracks. -/
def TracksAt (D : Key → Prop) (x : Option Execution) (g : Cluster) : Prop :=
  ∀ y, x = some y → D y.sent.key → Tracks g y

/-- What every execution knows about its record, if nobody deletes it. -/
theorem tracks_invariant (e : Executor) (D : Key → Prop) :
    (executions e).Invariant (Undeleted D) (fun g => g.Wf ∧ ∀ k, D k → g.Intact k)
      (fun _ => TracksAt D)
      (fun _ g g' => ∀ k, D k → Cluster.Grows k g g') where
  start {i a g x g'} hG hI _ hs := by
    obtain ⟨rfl, rfl⟩ := Prod.mk.inj (Option.some.inj hs)
    refine ⟨hI, fun y hy _ => ?_, fun k _ => .refl k g⟩
    obtain rfl := Option.some.inj hy
    exact ⟨hG, rfl⟩
  step {i o g x x' g'} _ hI hP hs := by
    obtain ⟨r, p, hr, hp, rfl⟩ := executions_step hs
    -- Only a Patch changes the cluster, as an apply of another client does.
    have hcluster : (g'.Wf ∧ ∀ k, D k → g'.Intact k) ∧ ∀ k, D k → Cluster.Grows k g g' := by
      rcases hr.cluster with rfl | ⟨cr, rfl⟩
      · exact ⟨hI, fun k _ => .refl k g'⟩
      · exact ⟨⟨hI.1.apply cr, fun k hk => (hI.2 k hk).apply hI.1 cr⟩,
          fun k _ => Cluster.grows_apply k g cr⟩
    refine ⟨hcluster.1, fun y hy hD => ?_, hcluster.2⟩
    obtain rfl := Option.some.inj hy
    exact tracks_step (hP x rfl hD) hI.1 (hI.2 _ hD) hr hp
  env {d g g'} hG hI hs := by
    cases d with
    | setStatus k st =>
      exact ⟨⟨hI.1.setStatus hs, fun k hk => (hI.2 k hk).setStatus hI.1 hs⟩,
        fun k _ => Cluster.grows_setStatus k hs⟩
    | apply cr =>
      obtain rfl := Option.some.inj hs
      exact ⟨⟨hI.1.apply cr, fun k hk => (hI.2 k hk).apply hI.1 cr⟩,
        fun k _ => Cluster.grows_apply k g cr⟩
    | delete k =>
      have hne : ∀ k', D k' → k' ≠ k := fun k' hk' e => hG (e ▸ hk')
      exact ⟨⟨hI.1.delete hs, fun k' hk' => (hI.2 k' hk').delete hI.1 (hne k' hk') hs⟩,
        fun k' hk' => Cluster.grows_delete (hne k' hk') hs⟩
  stable {i j x g g'} _ _ hP hr := by
    intro y hy hD
    exact (hP y hy hD).mono (hr _ hD)

/-- Along every run in which nobody deletes its record, an execution knows what it tracks.
    -/
theorem tracks_run {e : Executor} {D : Key → Prop}
    {ls : List ClusterLabel} {s : Pool.State Cluster Execution}
    (hG : ∀ l ∈ ls, Undeleted D l)
    (hs : (executions e).machine.run (executions e).machine.init ls = some s) :
    s.shared.Wf ∧ ∀ i x, s.procs i = some x → D x.sent.key → Tracks s.shared x := by
  have h := (tracks_invariant e D).run hG (Pool.holds_init
    ⟨Cluster.wf_empty, fun k _ => Cluster.intact_empty k⟩ fun _ _ h => nomatch h) hs
  exact ⟨h.1.1, h.2⟩

/-- The loop over the conditions looks for one that is ready. -/
theorem Jsm.conditionReady_iff {cs : List Condition} :
    Jsm.conditionReady cs = true ↔ ∃ c ∈ cs, c.type = lit "Ready" ∧ c.status = .true := by
  simp only [Jsm.conditionReady, List.any_eq_true, decide_eq_true_eq]
  rfl

/-- Success is answered exactly to an execution that has seen its record ready. -/
theorem Jsm.success_iff (hmac : HMAC) (cfg : Jsm.Config) (ctx : RequestContext)
    (res : ExecResult) :
    ((writeResponse (Jsm.provider hmac cfg) ctx res).status = 200 ∧
      ∃ b, (writeResponse (Jsm.provider hmac cfg) ctx res).content = .json b ∧
        b.status = .success) ↔ res.kind = .ready := by
  simp only [writeResponse, Jsm.provider, Jsm.build, Content.json.injEq, exists_eq_left']
  cases res.kind <;> simp [ResultKind.httpStatus]

/-- No false success: whatever executions, the operator and other clients do, as
    long as nobody deletes, an execution that returns `ResultReady`, which is what
    is answered with success, has seen its record ready at a generation that is at
    least the one its own Patch left, and observed at that generation or later. -/
theorem ready_sound (e : Executor)
    {ls : List ClusterLabel} {s : Pool.State Cluster Execution}
    (hG : ∀ l ∈ ls, Undeleted (fun _ => True) l)
    (hs : (executions e).machine.run (executions e).machine.init ls = some s) :
    (∀ i x res, s.procs i = some x → x.phase = .done res → res.kind = .ready →
      ∃ cr, x.patched = some cr ∧ ∃ t st, (t, st) ∈ s.shared.history ∧ st.key = cr.key ∧
        st.metadata.uid = cr.metadata.uid ∧
        cr.metadata.generation ≤ st.metadata.generation ∧
        (∃ c ∈ st.status.conditions, c.type = lit "Ready" ∧ c.status = .true) ∧
        cr.metadata.generation ≤ st.status.observedGeneration) ∧
    ∀ hmac cfg ctx res, ((writeResponse (Jsm.provider hmac cfg) ctx res).status = 200 ∧
      ∃ b, (writeResponse (Jsm.provider hmac cfg) ctx res).content = .json b ∧
        b.status = .success) ↔ res.kind = .ready := by
  refine ⟨fun i x res hx hd hr => ?_, Jsm.success_iff⟩
  obtain ⟨hw, hP⟩ := tracks_run hG hs
  have ht := hP i x hx trivial
  rw [Tracks, hd] at ht
  obtain ⟨cr, ap, obs, ha, -, hj⟩ := ht hr
  obtain ⟨t, hm⟩ := hj.mem_history
  have hobs := ha.generation_le.trans hj.observed
  exact ⟨cr, ha.patched, t, obs.record, hm, hj.key_eq.trans (ha.key_ap.trans ha.key_cr.symm),
    hj.uid_eq.trans ha.uid_eq, hobs.trans (hw.observed_le hm), Jsm.conditionReady_iff.mp hj.ready,
    hobs⟩

/-- The key of the ticket of the tenant. -/
def sampleKey : Key := (lit "wiz", lit "jsm-sec-1")

/-- The operator marks generation 1 as ready. -/
def sampleReady : SAMLGroupMappingStatus := ⟨1, [⟨lit "Ready", .true⟩]⟩

/-- A delivery that finds its record ready. -/
def sampleSync : List ClusterLabel :=
  [.start 0 (sampleRequest.ctx, sampleAction), .step 0 .ok, .step 0 .ok,
    .env (.setStatus sampleKey sampleReady), .step 0 .ok]

theorem sampleSync_undeleted (D : Key → Prop) : ∀ l ∈ sampleSync, Undeleted D l := by
  simp only [sampleSync, List.forall_mem_cons, Undeleted, true_and]
  exact ⟨rfl, nofun⟩

theorem ready_sound_sampleSync :
    ∃ s x, (executions (newExecutor [] second)).machine.run
        (executions (newExecutor [] second)).machine.init sampleSync = some s ∧
      s.procs 0 = some x ∧ ∃ cr, x.patched = some cr ∧ ∃ t st, (t, st) ∈ s.shared.history ∧
        st.key = cr.key ∧ cr.metadata.generation ≤ st.status.observedGeneration := by
  refine ⟨_, _, rfl, rfl, ?_⟩
  obtain ⟨cr, hcr, t, st, hm, hk, -, -, -, ho⟩ :=
    (ready_sound (newExecutor [] second) (sampleSync_undeleted _) rfl).1 0 _ _ rfl rfl rfl
  exact ⟨cr, hcr, t, st, hm, hk, ho⟩

/-- The record that justified a success is the one that was applied, seen by the
    initial Get or by an event that it was added or modified, if nobody deletes
    the record at its key. -/
theorem ready_same_incarnation (e : Executor) (k : Key)
    {ls : List ClusterLabel} {s : Pool.State Cluster Execution}
    (hG : ∀ l ∈ ls, Undeleted (· = k) l)
    (hs : (executions e).machine.run (executions e).machine.init ls = some s) {i : Nat}
    {x : Execution} {res : ExecResult} (hx : s.procs i = some x) (hk : x.sent.key = k)
    (hd : x.phase = .done res) (hr : res.kind = .ready) :
    ∃ ap obs, x.applied = some ap ∧ x.observed = some obs ∧
      obs.record.metadata.uid = ap.metadata.uid ∧
      ∀ t cr, obs = .event t cr → t = .added ∨ t = .modified := by
  have ht := (tracks_run hG hs).2 i x hx hk
  rw [Tracks, hd] at ht
  obtain ⟨cr, ap, obs, ha, ho, hj⟩ := ht hr
  exact ⟨ap, obs, ha.applied, ho, hj.uid_eq, hj.type⟩

theorem ready_same_incarnation_sampleSync :
    ∃ s x, (executions (newExecutor [] second)).machine.run
        (executions (newExecutor [] second)).machine.init sampleSync = some s ∧
      s.procs 0 = some x ∧ ∃ ap obs, x.applied = some ap ∧ x.observed = some obs ∧
        obs.record.metadata.uid = ap.metadata.uid := by
  refine ⟨_, _, rfl, rfl, ?_⟩
  obtain ⟨ap, obs, ha, ho, hu, -⟩ := ready_same_incarnation (i := 0) (newExecutor [] second)
    sampleKey (sampleSync_undeleted _) rfl rfl rfl rfl rfl
  exact ⟨ap, obs, ha, ho, hu⟩

/-- A delivery during which another client deletes the record and creates it
    again, and the operator marks the new one as ready. -/
def sampleRecreated : List ClusterLabel :=
  [.start 0 (sampleRequest.ctx, sampleAction), .step 0 .ok, .step 0 .ok, .step 0 .ok, .step 0 .ok,
    .env (.delete sampleKey),
    .env (.apply (Jsm.buildSAMLGroupMapping (lit "jsm-sec-1") (lit "wiz")
      (Jsm.buildSpec (lit "others") (lit "reader") (lit "core") (lit "idp") []))),
    .env (.setStatus sampleKey sampleReady), .step 0 (.deliver 1), .step 0 (.deliver 2),
    .step 0 (.deliver 3)]

theorem ready_other_incarnation :
    ∃ s x res ap obs, (executions (newExecutor [] second)).machine.run
        (executions (newExecutor [] second)).machine.init sampleRecreated = some s ∧
      s.procs 0 = some x ∧ x.phase = .done res ∧ res.kind = .ready ∧ x.applied = some ap ∧
      x.observed = some obs ∧ obs.record.metadata.uid ≠ ap.metadata.uid ∧
      obs.record.spec ≠ ap.spec :=
  ⟨_, _, _, _, _, rfl, rfl, rfl, rfl, rfl, rfl, by decide, by decide⟩

end Webhookd
