import Webhookd.Deadline

/-!
# The watch loop

The loop of `waitForSync`, on what its `select` finds in order (`watchLoop`). The
watch is on the whole namespace, so most of what arrives may be about other
objects.

* `Decides` lists what can end the loop, and with which result;
* `watchLoop_first`: the result is that of the first arrival that decides, and
  whatever comes before it can be left out, repeated or reordered;
* `watchLoop_of_run`: an execution on a clock that has reached the loop returns
  what the loop does.
-/

namespace Webhookd

open Go

/-- What the `select` of the loop finds. -/
inductive Selected
  | event (ev : WatchEvent)
  /-- The channel of the watch is closed. -/
  | closed
  /-- The context is done. -/
  | done

def Selected.reply : Selected → Reply
  | .event ev => .event ev
  | .closed => .closed
  | .done => .done

section

variable (e : Executor) (act : ApplyAction) (applied : ClientObject)

/-- The loop of `waitForSync`: it returns at the first arrival that ends it, and
    reads no other. There is no result if it still waits. -/
def watchLoop : List Selected → Option ExecResult
  | [] => none
  | a :: arrivals =>
    match (Phase.select act applied).resume e a.reply with
    | some (.done res) => some res
    | _ => watchLoop arrivals

/-- An arrival ends the loop with a result. -/
inductive Decides : Selected → ExecResult → Prop
  /-- An event of the applied object, which is ready. -/
  | ready {ev obj g} (ho : ev.object = some obj) (hn : obj.name = applied.name)
      (hr : act.readyCheck obj applied.generation = (true, g)) :
      Decides (.event ev) (syncResult applied .ready .none g)
  | closed : Decides .closed (syncResult applied .transientFailure .watchClosed 0)
  | done : Decides .done (syncResult applied .timeout (.notReadyWithin e.syncTimeout) 0)

def Decisive (a : Selected) : Prop := ∃ res, Decides e act applied a res

end

section

variable {e : Executor} {act : ApplyAction} {applied : ClientObject} {a : Selected}
  {before after arrivals : List Selected} {res : ExecResult}

theorem Decides.resume (h : Decides e act applied a res) :
    (Phase.select act applied).resume e a.reply = some (.done res) := by
  cases h with
  | ready ho hn hr => exact congrArg some (Phase.onEvent_ready ho hn hr)
  | closed => rfl
  | done => rfl

theorem not_decisive_iff : ¬Decisive e act applied a ↔ ∃ ev, a = .event ev ∧
    ∀ obj, ev.object = some obj → obj.name = applied.name →
      (act.readyCheck obj applied.generation).1 = false := by
  constructor
  · intro h
    cases a with
    | event ev =>
      refine ⟨ev, rfl, (Phase.onEvent_cases act applied ev).resolve_left ?_⟩
      rintro ⟨obj, g, ho, hn, hr⟩
      exact h ⟨_, .ready ho hn hr⟩
    | closed => exact absurd ⟨_, .closed⟩ h
    | done => exact absurd ⟨_, .done⟩ h
  · rintro ⟨ev, rfl, h⟩ ⟨res, hd⟩
    cases hd with
    | ready ho hn hr =>
      have hf := h _ ho hn
      rw [hr] at hf
      cases hf

/-- The loop goes on after an arrival that decides nothing. -/
theorem resume_of_not_decisive (h : ¬Decisive e act applied a) :
    (Phase.select act applied).resume e a.reply = some (.select act applied) := by
  obtain ⟨ev, rfl, hev⟩ := not_decisive_iff.mp h
  exact congrArg some (Phase.onEvent_pending hev)

theorem watchLoop_cons_of_decides (h : Decides e act applied a res) :
    watchLoop e act applied (a :: after) = some res := by
  rw [watchLoop, h.resume]

theorem watchLoop_cons_of_not_decisive (h : ¬Decisive e act applied a) :
    watchLoop e act applied (a :: after) = watchLoop e act applied after := by
  rw [watchLoop, resume_of_not_decisive h]

/-- The arrivals before one that decides can be left out. -/
theorem watchLoop_append (h : ∀ b ∈ before, ¬Decisive e act applied b) :
    watchLoop e act applied (before ++ after) = watchLoop e act applied after := by
  induction before with
  | nil => rfl
  | cons b before ih =>
    obtain ⟨hb, hbefore⟩ := List.forall_mem_cons.mp h
    rw [List.cons_append, watchLoop_cons_of_not_decisive hb, ih hbefore]

theorem watchLoop_append_of_decides (h : ∀ b ∈ before, ¬Decisive e act applied b)
    (ha : Decides e act applied a res) :
    watchLoop e act applied (before ++ a :: after) = some res := by
  rw [watchLoop_append h, watchLoop_cons_of_decides ha]

theorem exists_decides_of_watchLoop (h : watchLoop e act applied arrivals = some res) :
    ∃ before a after, arrivals = before ++ a :: after ∧
      (∀ b ∈ before, ¬Decisive e act applied b) ∧ Decides e act applied a res := by
  induction arrivals with
  | nil => cases h
  | cons b arrivals ih =>
    by_cases hb : Decisive e act applied b
    · obtain ⟨res', hd⟩ := hb
      obtain rfl := Option.some.inj ((watchLoop_cons_of_decides hd).symm.trans h)
      exact ⟨[], b, arrivals, rfl, List.forall_mem_nil _, hd⟩
    · rw [watchLoop_cons_of_not_decisive hb] at h
      obtain ⟨before, a, after, rfl, hbefore, hd⟩ := ih h
      exact ⟨b :: before, a, after, rfl, List.forall_mem_cons.mpr ⟨hb, hbefore⟩, hd⟩

end

/-- The loop returns the result of the first arrival that decides. All that comes
    before it is events that show no ready applied object, and any others in
    their place, as many and in any order, make no difference. -/
theorem watchLoop_first (e : Executor) (act : ApplyAction) (applied : ClientObject)
    (arrivals : List Selected) :
    (∀ res, watchLoop e act applied arrivals = some res ↔
      ∃ before a after, arrivals = before ++ a :: after ∧
        (∀ b ∈ before, ¬Decisive e act applied b) ∧ Decides e act applied a res) ∧
    (∀ a, ¬Decisive e act applied a ↔ ∃ ev, a = .event ev ∧
      ∀ obj, ev.object = some obj → obj.name = applied.name →
        (act.readyCheck obj applied.generation).1 = false) ∧
    (∀ before before' a after after', (∀ b ∈ before ++ before', ¬Decisive e act applied b) →
      Decisive e act applied a →
      watchLoop e act applied (before' ++ a :: after') =
        watchLoop e act applied (before ++ a :: after)) := by
  refine ⟨fun res => ⟨exists_decides_of_watchLoop, ?_⟩, fun a => not_decisive_iff, ?_⟩
  · rintro ⟨before, a, after, rfl, hbefore, ha⟩
    exact watchLoop_append_of_decides hbefore ha
  · rintro before before' a after after' h ⟨res, ha⟩
    obtain ⟨hbefore, hbefore'⟩ := List.forall_mem_append.mp h
    rw [watchLoop_append_of_decides hbefore ha, watchLoop_append_of_decides hbefore' ha]

/-- An event of another object and a closed channel. -/
theorem watchLoop_first_sample :
    let other : Selected := .event ⟨.modified, some (.other ⟨lit "b", lit "wiz", 0, 1, ∅, ∅⟩)⟩
    watchLoop (newExecutor [] second) sampleAction sampleAction.object [.closed] =
      watchLoop (newExecutor [] second) sampleAction sampleAction.object
        [other, other, .closed] := by
  intro other
  obtain ⟨-, hpending, hsame⟩ :=
    watchLoop_first (newExecutor [] second) sampleAction sampleAction.object []
  have hother : ¬Decisive (newExecutor [] second) sampleAction sampleAction.object other := by
    refine (hpending other).mpr ⟨_, rfl, fun obj ho hn => ?_⟩
    obtain rfl := Option.some.inj ho
    exact absurd hn (by decide)
  exact hsame [other, other] [] .closed [] [] (by simp [hother]) ⟨_, .closed⟩

/-- What an execution in the loop goes on from is an arrival. -/
theorem selected_of_resumes {e : Executor} {act : ApplyAction} {applied : ClientObject} {r : Reply}
    {p : Phase} (h : Resumes e (.select act applied) r p) :
    ∃ a : Selected, r = a.reply ∧
      ((∃ res, Decides e act applied a res ∧ p = .done res) ∨
        ¬Decisive e act applied a ∧ p = .select act applied) := by
  cases h with
  | timeout => exact ⟨.done, rfl, .inl ⟨_, .done, rfl⟩⟩
  | closed => exact ⟨.closed, rfl, .inl ⟨_, .closed, rfl⟩⟩
  | @eventReady _ _ ev obj g ho hn hr =>
    exact ⟨.event ev, rfl, .inl ⟨_, .ready ho hn hr, rfl⟩⟩
  | @eventPending _ _ ev hev =>
    exact ⟨.event ev, rfl, .inr ⟨not_decisive_iff.mpr ⟨ev, rfl, hev⟩, rfl⟩⟩

/-- An execution that has reached the loop returns what the loop does, and goes on
    as long as that does. -/
theorem watchLoop_of_run {e : Executor} {act : ApplyAction} {applied : ClientObject}
    {cancel : Option Int} {start : Int} {p : Phase} {x y : Clocked} {tr : List (Int × Reply)}
    (hx : x.phase = .select act applied) (h : (clocked e cancel start p).run x tr = some y) :
    ∃ arrivals, tr.map Prod.snd = arrivals.map Selected.reply ∧
      y.phase = (watchLoop e act applied arrivals).elim (.select act applied) .done := by
  -- On the replies: one that decides is the last.
  induction tr generalizing x with
  | nil =>
    obtain rfl := Option.some.inj h
    exact ⟨[], rfl, hx⟩
  | cons l tr ih =>
    obtain ⟨x', hst, hrun⟩ := Machine.run_cons_eq_some.mp h
    obtain ⟨hr, -⟩ := Clocked.step_eq_some hst
    rw [hx] at hr
    obtain ⟨a, hreply, ⟨res, hd, hp⟩ | ⟨hnot, hp⟩⟩ := selected_of_resumes hr
    · obtain ⟨rfl, rfl⟩ := run_done hp hrun
      refine ⟨[a], by rw [List.map_singleton, hreply, List.map_singleton], ?_⟩
      rw [hp, watchLoop_cons_of_decides hd]
      rfl
    · obtain ⟨arrivals, hmap, hy⟩ := ih hp hrun
      refine ⟨a :: arrivals, by rw [List.map_cons, hreply, hmap, List.map_cons], ?_⟩
      rw [hy, watchLoop_cons_of_not_decisive hnot]

end Webhookd
