import Webhookd.Executor
import Webhookd.Jsm.Provider

/-!
# The probe

A typed client decodes a reply into the object that it is given, the way
`json.Unmarshal` does: a member that is absent leaves the field as it was, and a
field tagged `omitempty` is absent when it is empty (`decodeInto`). `apply` hands
the object that it sent to the Patch and the Get after it, and `waitForSync` a
copy of what these left. So it depends on the client whether the replies overlap
field by field: it may reset the object before (`TypedClient`).

* `receive_probe`: what the initial Get of `waitForSync` is judged by;
* `probe_exact_iff`: with any client, this is the reply alone exactly when the
  fields that the reply leaves out are empty in the object that is left, or do not
  matter (`Fresh`);
* `probe_exact`: with a client whose Get zeroes the object, it always is;
* `probe_stale`: with one that resets nothing, a reply can look ready by the
  conditions of an earlier generation.
-/

namespace Webhookd

open Go

/-! ## Decoding a reply -/

/-- A member tagged `omitempty`, which is absent when it is `zero`. -/
def omitempty {α : Type} [DecidableEq α] (zero old new : α) : α := if new = zero then old else new

/-- The metadata of a reply. The entries of a map are added to those before. -/
def ObjectMeta.decodeInto (old new : ObjectMeta) : ObjectMeta where
  name := omitempty [] old.name new.name
  namespace_ := omitempty [] old.namespace_ new.namespace_
  uid := omitempty 0 old.uid new.uid
  generation := omitempty 0 old.generation new.generation
  labels := old.labels.copy new.labels
  annotations := old.annotations.copy new.annotations

def SAMLGroupMappingSpec.decodeInto (old new : SAMLGroupMappingSpec) : SAMLGroupMappingSpec :=
  { new with description := omitempty [] old.description new.description }

/-- The type and the status of a condition are never absent, so a list of conditions
    is replaced as a whole. -/
def SAMLGroupMappingStatus.decodeInto (old new : SAMLGroupMappingStatus) :
    SAMLGroupMappingStatus where
  observedGeneration := omitempty 0 old.observedGeneration new.observedGeneration
  conditions := omitempty [] old.conditions new.conditions

/-- A reply that says the server has `new`, decoded into `old`. -/
def SAMLGroupMapping.decodeInto (old new : SAMLGroupMapping) : SAMLGroupMapping where
  apiVersion := omitempty [] old.apiVersion new.apiVersion
  kind := omitempty [] old.kind new.kind
  metadata := old.metadata.decodeInto new.metadata
  spec := old.spec.decodeInto new.spec
  status := old.status.decodeInto new.status

/-- The zero `SAMLGroupMapping`. -/
def SAMLGroupMapping.zero : SAMLGroupMapping where
  apiVersion := []
  kind := []
  metadata := { name := [], namespace_ := [] }
  spec := ⟨[], [], [], [], []⟩

/-- What a typed client makes of the object that it is given, before it decodes the reply
    into it. -/
structure TypedClient where
  resetPatch : SAMLGroupMapping → SAMLGroupMapping
  resetGet : SAMLGroupMapping → SAMLGroupMapping

/-- A client that decodes into the object as it is. -/
def TypedClient.merging : TypedClient := ⟨id, id⟩

/-- A Get of the client zeroes the object. -/
def TypedClient.Zeroes (c : TypedClient) : Prop := ∀ obj, c.resetGet obj = .zero

/-- The object that the reply an execution waits for is decoded into. -/
def Phase.target (c : TypedClient) : Phase → Option SAMLGroupMapping
  | .patch _ (.samlGroupMapping obj) => some (c.resetPatch obj)
  | .refetch _ (.samlGroupMapping obj) => some (c.resetGet obj)
  -- A deep copy.
  | .probe _ (.samlGroupMapping applied) => some (c.resetGet applied)
  | _ => none

/-- How an execution goes on when the server replies that it has `reply`. -/
def Phase.receive (c : TypedClient) (e : Executor) (p : Phase) (reply : SAMLGroupMapping) :
    Option Phase :=
  (p.target c).bind fun obj => p.resume e (.object (.samlGroupMapping (obj.decodeInto reply)))

/-- How an execution goes on when the server sends some replies. -/
def Phase.receiveAll (c : TypedClient) (e : Executor) (p : Phase)
    (replies : List SAMLGroupMapping) : Option Phase :=
  replies.foldlM (Phase.receive c e) p

/-! ## What the probe judges -/

/-- The object that is left by the replies to the Patch and to the Get after it. -/
def TypedClient.applied (c : TypedClient) (sent patched refetched : SAMLGroupMapping) :
    SAMLGroupMapping :=
  (c.resetGet ((c.resetPatch sent).decodeInto patched)).decodeInto refetched

section

variable {c : TypedClient} {e : Executor} {ctx : RequestContext} {act : ApplyAction} {gen : Int}
  {cr sent patched refetched old reply : SAMLGroupMapping}

theorem prepare_samlGroupMapping (ctx : RequestContext) (h : act.object = .samlGroupMapping cr) :
    ∃ sent, prepare ctx act = .samlGroupMapping sent ∧ sent.status = cr.status := by
  rw [prepare, h]
  exact ⟨_, rfl, rfl⟩

/-- The initial Get is judged by its reply, decoded into what the client leaves of the
    object. -/
theorem receive_probe (h : prepare ctx act = .samlGroupMapping sent) :
    (execute ctx (.apply act)).receiveAll c e [patched, refetched, reply] =
      some (Phase.check act (.samlGroupMapping (c.applied sent patched refetched))
        (.samlGroupMapping ((c.resetGet (c.applied sent patched refetched)).decodeInto reply))
        (.establish act (.samlGroupMapping (c.applied sent patched refetched)))) := by
  rw [execute, h]
  rfl

/-- The fields that a reply leaves out are empty in the object that it is decoded into, or
    do not matter: there is no condition that says ready, or the reply is of an earlier
    generation. -/
def Fresh (old : SAMLGroupMapping) (gen : Int) (reply : SAMLGroupMapping) : Prop :=
  (reply.status.observedGeneration ≠ 0 ∨ old.status.observedGeneration = 0) ∧
    (reply.status.conditions ≠ [] ∨ Jsm.conditionReady old.status.conditions = false ∨
      reply.status.observedGeneration < gen)

/-- A zero object has nothing that a reply could leave in place. -/
theorem fresh_zero (gen : Int) (reply : SAMLGroupMapping) : Fresh .zero gen reply :=
  ⟨.inr rfl, .inr (.inl rfl)⟩

theorem omitempty_self {α : Type} [DecidableEq α] (zero new : α) :
    omitempty zero zero new = new := by
  unfold omitempty
  split_ifs with h
  · exact h.symm
  · rfl

theorem omitempty_eq_iff {α : Type} [DecidableEq α] {zero old new : α} :
    omitempty zero old new = new ↔ new ≠ zero ∨ old = zero := by
  unfold omitempty
  split_ifs with h
  · simp [h]
  · simp [h]

/-- A reply that is decoded into a zero object is what the server has. -/
theorem status_decodeInto_zero (reply : SAMLGroupMapping) :
    (SAMLGroupMapping.zero.decodeInto reply).status = reply.status := by
  show SAMLGroupMappingStatus.mk (omitempty 0 0 _) (omitempty [] [] _) = _
  rw [omitempty_self, omitempty_self]

theorem isReady_decodeInto_iff :
    Jsm.isReady (.samlGroupMapping (old.decodeInto reply)) gen =
      Jsm.isReady (.samlGroupMapping (SAMLGroupMapping.zero.decodeInto reply)) gen ↔
        Fresh old gen reply := by
  have hog : (old.decodeInto reply).status.observedGeneration =
      reply.status.observedGeneration ↔ reply.status.observedGeneration ≠ 0 ∨
        old.status.observedGeneration = 0 := omitempty_eq_iff
  simp only [Jsm.isReady, status_decodeInto_zero, Fresh, ← hog]
  -- The observed generation is returned in any case, so it has to be the same.
  by_cases heq : (old.decodeInto reply).status.observedGeneration =
      reply.status.observedGeneration
  · rw [heq]
    by_cases hlt : reply.status.observedGeneration < gen
    · simp [hlt]
    · rw [if_neg hlt, if_neg hlt]
      simp only [hlt, Prod.mk.injEq, and_true, true_and, or_false]
      show Jsm.conditionReady (omitempty [] _ _) = _ ↔ _
      by_cases hnil : reply.status.conditions = []
      · simp [omitempty, hnil, Jsm.conditionReady]
      · simp [omitempty, hnil]
  · simp only [heq, false_and, iff_false]
    split_ifs <;> simp [heq]

/-- With any client, the probe judges the reply alone exactly when the reply is fresh. -/
theorem probe_exact_iff (hs : prepare ctx act = .samlGroupMapping sent)
    (hr : act.readyCheck = Jsm.isReady) (c : TypedClient) (e : Executor)
    (patched refetched reply : SAMLGroupMapping) :
    ∃ applied cur, applied = c.applied sent patched refetched ∧
      (execute ctx (.apply act)).receiveAll c e [patched, refetched, reply] =
        some (Phase.check act (.samlGroupMapping applied) (.samlGroupMapping cur)
          (.establish act (.samlGroupMapping applied))) ∧
      (act.readyCheck (.samlGroupMapping cur) applied.metadata.generation =
        Jsm.isReady (.samlGroupMapping (SAMLGroupMapping.zero.decodeInto reply))
          applied.metadata.generation ↔
        Fresh (c.resetGet applied) applied.metadata.generation reply) :=
  ⟨_, _, rfl, receive_probe hs, hr ▸ isReady_decodeInto_iff⟩

theorem generation_decodeInto_zero (reply : SAMLGroupMapping) :
    (SAMLGroupMapping.zero.decodeInto reply).metadata.generation = reply.metadata.generation :=
  omitempty_self 0 _

/-- A reply says ready if it has the condition, and has observed the generation. -/
theorem isReady_zero_fst :
    (Jsm.isReady (.samlGroupMapping (SAMLGroupMapping.zero.decodeInto reply)) gen).1 = true ↔
      Jsm.conditionReady reply.status.conditions = true ∧
        gen ≤ reply.status.observedGeneration := by
  simp only [Jsm.isReady, status_decodeInto_zero]
  split_ifs with hlt
  · simp [hlt]
  · simp [not_lt.mp hlt]

/-- With a client whose Get zeroes the object, the probe judges its reply alone, whatever
    the replies before it were. So it ends the execution with success exactly when the
    reply itself has the condition, and has observed the generation that was applied. -/
theorem probe_exact (hc : c.Zeroes) (ho : act.object = .samlGroupMapping cr)
    (hr : act.readyCheck = Jsm.isReady) (e : Executor) (ctx : RequestContext)
    (patched refetched reply : SAMLGroupMapping) :
    ∃ applied cur, applied = SAMLGroupMapping.zero.decodeInto refetched ∧
      (execute ctx (.apply act)).receiveAll c e [patched, refetched, reply] =
        some (Phase.check act (.samlGroupMapping applied) (.samlGroupMapping cur)
          (.establish act (.samlGroupMapping applied))) ∧
      act.readyCheck (.samlGroupMapping cur) applied.metadata.generation =
        Jsm.isReady (.samlGroupMapping (SAMLGroupMapping.zero.decodeInto reply))
          applied.metadata.generation ∧
      ((∃ res, (execute ctx (.apply act)).receiveAll c e [patched, refetched, reply] =
          some (.done res) ∧ res.kind = .ready) ↔
        Jsm.conditionReady reply.status.conditions = true ∧
          refetched.metadata.generation ≤ reply.status.observedGeneration) := by
  obtain ⟨sent, hs, -⟩ := prepare_samlGroupMapping ctx ho
  obtain ⟨applied, cur, ha, hrun, hiff⟩ := probe_exact_iff hs hr c e patched refetched reply
  have happlied : applied = SAMLGroupMapping.zero.decodeInto refetched := by
    rw [ha, TypedClient.applied, hc]
  have hgen : applied.metadata.generation = refetched.metadata.generation :=
    happlied ▸ generation_decodeInto_zero refetched
  have hready := hiff.mpr (hc applied ▸ fresh_zero _ reply)
  refine ⟨applied, cur, happlied, hrun, hready, ?_⟩
  rw [hrun, ← hgen, ← isReady_zero_fst, ← hready]
  cases hcheck : act.readyCheck (.samlGroupMapping cur) applied.metadata.generation with
  | mk ready observedGen =>
    cases ready with
    | true =>
      rw [Phase.check_ready hcheck]
      exact iff_of_true ⟨_, rfl, rfl⟩ rfl
    | false =>
      rw [Phase.check_pending (congrArg Prod.fst hcheck)]
      exact iff_of_false (fun ⟨_, h, _⟩ => by cases h) Bool.false_ne_true

end

/-! ## A stale reply -/

/-- What the server has at a generation, with a status. -/
def sampleRecord (generation : Int) (status : SAMLGroupMappingStatus) : SAMLGroupMapping :=
  { SAMLGroupMapping.zero with
    metadata := { name := lit "a", namespace_ := lit "b", generation }
    status }

def readyConditions : List Condition := [⟨Jsm.conditionTypeReady, .true⟩]

def sampleApply : ApplyAction :=
  Jsm.applyAction Jsm.sampleConfig (lit "K-1") (lit "g") (lit "r") (lit "p")

/-- The operator has observed the new generation and cleared its conditions: with a client
    that resets nothing, the execution succeeds by those of the generation before. -/
theorem probe_stale :
    ∃ res, (execute ⟨[], [], []⟩ (.apply sampleApply)).receiveAll .merging ⟨[], 0⟩
        [sampleRecord 2 ⟨1, readyConditions⟩, sampleRecord 2 ⟨1, readyConditions⟩,
          sampleRecord 2 ⟨2, []⟩] = some (.done res) ∧
      res.kind = .ready ∧ res.observedGeneration = 2 ∧
      Jsm.isReady (.samlGroupMapping (SAMLGroupMapping.zero.decodeInto (sampleRecord 2 ⟨2, []⟩)))
        2 = (false, 2) :=
  ⟨_, rfl, rfl, rfl, rfl⟩

/-- With a client whose Get zeroes the object, the same replies do not end it. -/
theorem probe_exact_sample :
    ¬∃ res, (execute ⟨[], [], []⟩ (.apply sampleApply)).receiveAll ⟨id, fun _ => .zero⟩ ⟨[], 0⟩
        [sampleRecord 2 ⟨1, readyConditions⟩, sampleRecord 2 ⟨1, readyConditions⟩,
          sampleRecord 2 ⟨2, []⟩] = some (.done res) ∧ res.kind = .ready := by
  obtain ⟨-, -, -, -, -, h⟩ := @probe_exact ⟨id, fun _ => .zero⟩ sampleApply _ (fun _ => rfl) rfl
    rfl ⟨[], 0⟩ ⟨[], [], []⟩ (sampleRecord 2 ⟨1, readyConditions⟩)
    (sampleRecord 2 ⟨1, readyConditions⟩) (sampleRecord 2 ⟨2, []⟩)
  exact fun hex => absurd (h.mp hex).1 (by decide)

end Webhookd
