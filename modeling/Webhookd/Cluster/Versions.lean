import Webhookd.Cluster.Basic

/-!
# The versions of a record

A cluster remembers all that its records ever were. A UID stays with its key, and a
generation with its spec (`Cluster.Versioned`), so that a UID and a generation name
what was asked for. Every spec was written for its key by some apply
(`Cluster.WrittenBy`), and what an execution remembers of its Patch is the record
that the Patch left (`landed_invariant`).
-/

namespace Webhookd

open Go

/-! ## Generations -/

/-- A UID stays with its key, and a generation with its spec. -/
def SAMLGroupMapping.Agrees (cr cr' : SAMLGroupMapping) : Prop :=
  cr.metadata.uid = cr'.metadata.uid → cr.key = cr'.key ∧
    (cr.metadata.generation = cr'.metadata.generation → cr.spec = cr'.spec)

theorem SAMLGroupMapping.Agrees.symm {cr cr' : SAMLGroupMapping} (h : cr.Agrees cr') :
    cr'.Agrees cr := by
  intro hu
  obtain ⟨hk, hs⟩ := h hu.symm
  exact ⟨hk.symm, fun hg => (hs hg.symm).symm⟩

namespace Cluster

variable {g g' : Cluster} {k : Key} {cr : SAMLGroupMapping} {st : SAMLGroupMappingStatus}
  {W W' : SAMLGroupMapping → Prop}

/-- All that records ever were agrees, and what is stored is the latest of its UID. -/
structure Versioned (g : Cluster) : Prop where
  fresh : ∀ {t cr}, (t, cr) ∈ g.history → cr.metadata.uid < g.nextUID
  agrees : ∀ {t cr t' cr'}, (t, cr) ∈ g.history → (t', cr') ∈ g.history → cr.Agrees cr'
  latest : ∀ {k cur t cr}, g.store k = some cur → (t, cr) ∈ g.history →
    cr.metadata.uid = cur.metadata.uid → cr.metadata.generation ≤ cur.metadata.generation

theorem versioned_empty : empty.Versioned where
  fresh h := nomatch h
  agrees h := nomatch h
  latest h := nomatch h

/-- A record may come after all that its UID ever was. -/
def Succeeded (g : Cluster) (cr : SAMLGroupMapping) : Prop :=
  ∀ {t old}, (t, old) ∈ g.history → old.Agrees cr ∧
    (old.metadata.uid = cr.metadata.uid → old.metadata.generation ≤ cr.metadata.generation)

/-- A record is put after all that its UID ever was. -/
theorem Versioned.put {t : EventType} {n : Nat} (h : g.Versioned) (hw : g.Wf)
    (hcr : g.Succeeded cr) (hn : g.nextUID ≤ n) (hlt : cr.metadata.uid < n) :
    Versioned { g.put cr.key t cr with nextUID := n } := by
  have hmem : ∀ {t' cr'}, (t', cr') ∈ (g.put cr.key t cr).history →
      (t', cr') ∈ g.history ∨ cr' = cr := fun hm => (mem_put_history.mp hm).imp_right And.right
  constructor
  · intro t' cr' hm
    rcases hmem hm with hm | rfl
    · exact (h.fresh hm).trans_le hn
    · exact hlt
  · intro t₁ cr₁ t₂ cr₂ hm₁ hm₂
    rcases hmem hm₁ with hm₁ | h₁
    · rcases hmem hm₂ with hm₂ | h₂
      · exact h.agrees hm₁ hm₂
      · exact h₂ ▸ (hcr hm₁).1
    · rcases hmem hm₂ with hm₂ | h₂
      · exact h₁ ▸ (hcr hm₂).1.symm
      · rw [h₁, h₂]
        exact fun _ => ⟨rfl, fun _ => rfl⟩
  · intro k cur t' cr' hs hm hu
    change (g.put cr.key t cr).store k = some cur at hs
    rcases eq_or_ne k cr.key with rfl | hne
    · rw [put_store_self] at hs
      obtain rfl := Option.some.inj hs
      rcases hmem hm with hm | rfl
      · exact (hcr hm).2 hu
      · exact le_rfl
    · rw [put_store_of_ne g hne] at hs
      rcases hmem hm with hm | rfl
      · exact h.latest hs hm hu
      · -- The UID of what is stored elsewhere is another one.
        obtain ⟨_, hcur⟩ := hw.mem_history hs
        exact absurd ((hw.key_eq hs).symm.trans ((hcr hcur).1 hu.symm).1) hne

/-- What is stored may be followed by a record of the same UID, if the spec stays or
    the generation goes up. -/
theorem Versioned.succeeded {old : SAMLGroupMapping} (h : g.Versioned) (hw : g.Wf)
    (hold : g.store k = some old) (hu : cr.metadata.uid = old.metadata.uid)
    (hk : cr.key = old.key)
    (hs : (cr.metadata.generation = old.metadata.generation ∧ cr.spec = old.spec) ∨
      old.metadata.generation < cr.metadata.generation) : g.Succeeded cr := by
  intro t cr' hm
  obtain ⟨_, hmem⟩ := hw.mem_history hold
  have hle := h.latest hold hm
  refine ⟨fun hu' => ⟨?_, fun hg => ?_⟩, fun hu' => ?_⟩
  · exact hk ▸ (h.agrees hm hmem (hu'.trans hu)).1
  · rcases hs with ⟨hgen, hspec⟩ | hlt
    · exact hspec ▸ (h.agrees hm hmem (hu'.trans hu)).2 (hg.trans hgen)
    · exact absurd (hle (hu'.trans hu)) (not_le.mpr (hg ▸ hlt))
  · rcases hs with ⟨hgen, -⟩ | hlt
    · exact hgen ▸ hle (hu'.trans hu)
    · exact (hle (hu'.trans hu)).trans hlt.le

/-- An apply has a new UID, or the next generation, unless it changes no spec. -/
theorem Versioned.apply (h : g.Versioned) (hw : g.Wf) (cr : SAMLGroupMapping) :
    (g.apply cr).Versioned := by
  rw [Cluster.apply, ← g.applied_key hw cr]
  cases hs : g.store cr.key with
  | none =>
    have hu : (g.applied cr).metadata.uid = g.nextUID := by rw [applied, hs]
    refine h.put hw ?_ (Nat.le_succ _) (hu ▸ Nat.lt_succ_self _)
    intro t old hm
    -- No record had the UID that is spent.
    have hne : old.metadata.uid ≠ (g.applied cr).metadata.uid := hu ▸ (h.fresh hm).ne
    exact ⟨fun he => absurd he hne, fun he => absurd he hne⟩
  | some old =>
    obtain ⟨_, hm⟩ := hw.mem_history hs
    have hu : (g.applied cr).metadata.uid = old.metadata.uid := by rw [applied, hs]
    have hg : (g.applied cr).metadata.generation =
        old.metadata.generation + if old.spec = cr.spec then 0 else 1 := by rw [applied, hs]
    refine h.put hw (h.succeeded hw hs hu ?_ ?_) (Nat.le_succ _)
      (hu ▸ (h.fresh hm).trans (Nat.lt_succ_self _))
    · exact (g.applied_key hw cr).trans (hw.key_eq hs).symm
    · rw [hg, applied_spec]
      by_cases he : old.spec = cr.spec
      · exact .inl ⟨by rw [if_pos he, add_zero], he.symm⟩
      · exact .inr (by rw [if_neg he]; exact lt_add_one _)

/-- A status is written to the latest version of its record. -/
theorem Versioned.setStatus (h : g.Versioned) (hw : g.Wf) (hs : g.setStatus k st = some g') :
    g'.Versioned := by
  obtain ⟨old, hold, -, rfl⟩ := setStatus_eq_some hs
  obtain ⟨_, hm⟩ := hw.mem_history hold
  obtain rfl := hw.key_eq hold
  have hsucc : g.Succeeded { old with status := st } :=
    h.succeeded hw hold rfl rfl (.inl ⟨rfl, rfl⟩)
  have hlt : old.metadata.uid < g.nextUID := h.fresh hm
  exact h.put hw hsucc le_rfl hlt

/-- A delete is remembered as another event of what was. -/
theorem mem_history_of_delete {t : EventType} (hw : g.Wf) (hd : g.delete k = some g')
    (hm : (t, cr) ∈ g'.history) : ∃ t, (t, cr) ∈ g.history := by
  obtain ⟨old, hold, rfl⟩ := delete_eq_some hd
  rcases List.mem_append.mp hm with hm | hm
  · exact ⟨t, hm⟩
  · obtain ⟨-, rfl⟩ := Prod.mk.inj (List.mem_singleton.mp hm)
    exact hw.mem_history hold

/-- A delete adds no new version to the history. -/
theorem Versioned.delete (h : g.Versioned) (hw : g.Wf) (hd : g.delete k = some g') :
    g'.Versioned := by
  have hn : g'.nextUID = g.nextUID := by
    obtain ⟨old, -, rfl⟩ := delete_eq_some hd
    rfl
  constructor
  · intro t cr hm
    obtain ⟨_, hm⟩ := mem_history_of_delete hw hd hm
    exact hn ▸ h.fresh hm
  · intro t cr t' cr' hm hm'
    obtain ⟨_, hm⟩ := mem_history_of_delete hw hd hm
    obtain ⟨_, hm'⟩ := mem_history_of_delete hw hd hm'
    exact h.agrees hm hm'
  · intro k' cur t cr hs hm
    obtain ⟨_, hm⟩ := mem_history_of_delete hw hd hm
    exact h.latest (store_of_delete hd hs) hm

/-! ## Who wrote a spec -/

/-- Every record that ever was has the key and the spec of one that was written. -/
def WrittenBy (W : SAMLGroupMapping → Prop) (g : Cluster) : Prop :=
  ∀ ev ∈ g.history, ∃ cr, W cr ∧ cr.key = ev.2.key ∧ cr.spec = ev.2.spec

theorem WrittenBy.mono (h : g.WrittenBy W) (hW : ∀ {cr}, W cr → W' cr) : g.WrittenBy W' := by
  intro ev hm
  obtain ⟨cr, hw, hcr⟩ := h ev hm
  exact ⟨cr, hW hw, hcr⟩

/-- An apply adds what it leaves to the history. -/
theorem mem_apply_history {t : EventType} {cr' : SAMLGroupMapping}
    (h : (t, cr') ∈ (g.apply cr).history) : (t, cr') ∈ g.history ∨ cr' = g.applied cr :=
  (mem_put_history (k := cr.key)).mp h |>.imp_right And.right

/-- What an apply leaves has the spec that was written. -/
theorem WrittenBy.apply (h : g.WrittenBy W) (hw : g.Wf) (hW : W cr) :
    (g.apply cr).WrittenBy W := by
  rintro ⟨t, cr'⟩ hm
  rcases mem_apply_history hm with hm | rfl
  · exact h _ hm
  · exact ⟨cr, hW, (g.applied_key hw cr).symm, (g.applied_spec cr).symm⟩

/-- A status leaves the spec that it found. -/
theorem WrittenBy.setStatus (h : g.WrittenBy W) (hw : g.Wf) (hs : g.setStatus k st = some g') :
    g'.WrittenBy W := by
  obtain ⟨old, hold, -, rfl⟩ := setStatus_eq_some hs
  rintro ⟨t, cr⟩ hm
  rcases mem_put_history.mp hm with hm | ⟨-, rfl⟩
  · exact h _ hm
  · obtain ⟨t', hmem⟩ := hw.mem_history hold
    exact h (t', old) hmem

/-- The last event of a record has a spec that was in the history before. -/
theorem WrittenBy.delete (h : g.WrittenBy W) (hw : g.Wf) (hd : g.delete k = some g') :
    g'.WrittenBy W := by
  rintro ⟨t, cr⟩ hm
  obtain ⟨t', hm⟩ := mem_history_of_delete hw hd hm
  exact h (t', cr) hm

end Cluster

/-! ## What a Patch leaves -/

/-- An execution sends its object, and what it remembers of its Patch is a record with the
    key and the spec of that object. -/
structure Landed (g : Cluster) (x : Execution) : Prop where
  patch : ∀ {act obj}, x.phase = .patch act obj → obj = x.sent
  patched : ∀ {cr}, x.patched = some cr → ∃ obj t, x.sent = .samlGroupMapping obj ∧
    (t, cr) ∈ g.history ∧ cr.key = obj.key ∧ cr.spec = obj.spec

/-- An execution remembers a record from before, or the reply to its Patch. -/
theorem Execution.patchedBy_eq_some {p : Phase} {r : Reply} {old : Option SAMLGroupMapping}
    {cr : SAMLGroupMapping} (h : patchedBy p r old = some cr) :
    old = some cr ∨ ∃ act obj, p = .patch act obj ∧ r = .object (.samlGroupMapping cr) := by
  unfold patchedBy at h
  split at h
  · obtain rfl := Option.some.inj h
    exact .inr ⟨_, _, rfl, rfl⟩
  · exact .inl h

section

variable {e : Executor} {g g' : Cluster} {x : Execution} {p : Phase} {o : Outcome} {r : Reply}

/-- Only the Patch of an execution changes the cluster. -/
theorem Replies.cluster_of_patch (h : Replies g p o g' r) :
    g' = g ∨ ∃ act cr, p = .patch act (.samlGroupMapping cr) ∧ g' = g.apply cr := by
  cases h with
  | patched => exact .inr ⟨_, _, rfl, rfl⟩
  | _ => exact .inl rfl

/-- Whatever is replied, the history only grows. -/
theorem Replies.history (h : Replies g p o g' r) : ∀ ev ∈ g.history, ev ∈ g'.history := by
  intro ev hm
  rcases h.cluster with rfl | ⟨cr, rfl⟩
  · exact hm
  · exact List.mem_append_left _ hm

/-- What a Patch left stays in the history. -/
theorem Landed.mono (h : Landed g x) (hg : ∀ ev ∈ g.history, ev ∈ g'.history) :
    Landed g' x := by
  refine ⟨h.patch, fun hp => ?_⟩
  obtain ⟨obj, t, hs, hm, hcr⟩ := h.patched hp
  exact ⟨obj, t, hs, hg _ hm, hcr⟩

/-- An execution goes on to remember what its Patch has left. -/
theorem Landed.after (h : Landed g x) (hw : g.Wf) (hr : Replies g x.phase o g' r)
    (hp : Resumes e x.phase r p) : Landed g' (x.after r p) := by
  refine ⟨fun hph => absurd hph (hp.ne_patch _ _), fun {cr} hcr => ?_⟩
  rcases Execution.patchedBy_eq_some hcr with hold | ⟨act, obj, hph, rfl⟩
  · exact (h.mono hr.history).patched hold
  · have hobj := h.patch hph
    rw [hph] at hr
    generalize hrep : Reply.object (.samlGroupMapping cr) = rep at hr
    cases hr with
    | @patched _ cr₀ =>
      obtain rfl := ClientObject.samlGroupMapping.inj (Reply.object.inj hrep)
      exact ⟨cr₀, _, hobj.symm, List.mem_append_right _ (List.mem_singleton.mpr rfl),
        g.applied_key hw cr₀, g.applied_spec cr₀⟩
    | _ => cases hrep

/-- What the operator and other clients do keeps the versions. -/
theorem versioned_env {d : Disturbance} (hw : g.Wf) (hv : g.Versioned)
    (hs : (executions e).env d g = some g') :
    (g'.Wf ∧ g'.Versioned) ∧ ∀ ev ∈ g.history, ev ∈ g'.history := by
  cases d with
  | setStatus k st =>
    refine ⟨⟨hw.setStatus hs, hv.setStatus hw hs⟩, fun ev hm => ?_⟩
    obtain ⟨old, -, -, rfl⟩ := Cluster.setStatus_eq_some hs
    exact List.mem_append_left _ hm
  | apply cr =>
    obtain rfl := Option.some.inj hs
    exact ⟨⟨hw.apply cr, hv.apply hw cr⟩, fun ev hm => List.mem_append_left _ hm⟩
  | delete k =>
    refine ⟨⟨hw.delete hs, hv.delete hw hs⟩, fun ev hm => ?_⟩
    obtain ⟨old, -, rfl⟩ := Cluster.delete_eq_some hs
    exact List.mem_append_left _ hm

/-- Along every run, generations have one spec, and executions remember the records that
    their Patches left. -/
theorem landed_invariant (e : Executor) :
    (executions e).Invariant (fun _ => True) (fun g => g.Wf ∧ g.Versioned)
      (fun _ x g => ∀ y, x = some y → Landed g y)
      (fun _ g g' => ∀ ev ∈ g.history, ev ∈ g'.history) where
  start {i a g x g'} _ hI _ hs := by
    obtain ⟨rfl, rfl⟩ := Prod.mk.inj (Option.some.inj hs)
    refine ⟨hI, fun y hy => ?_, fun _ => id⟩
    obtain rfl := Option.some.inj hy
    exact ⟨fun h => (Phase.patch.inj h).2.symm, nofun⟩
  step {i o g x x' g'} _ hI hP hs := by
    obtain ⟨r, p, hr, hp, rfl⟩ := executions_step hs
    refine ⟨?_, fun y hy => ?_, hr.history⟩
    · rcases hr.cluster with rfl | ⟨cr, rfl⟩
      · exact hI
      · exact ⟨hI.1.apply cr, hI.2.apply hI.1 cr⟩
    · obtain rfl := Option.some.inj hy
      exact (hP x rfl).after hI.1 hr hp
  env _ hI hs := versioned_env hI.1 hI.2 hs
  stable _ _ hP hr := fun y hy => (hP y hy).mono hr

end

end Webhookd
