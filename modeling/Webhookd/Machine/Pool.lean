import Mathlib.Algebra.BigOperators.Group.Finset.Piecewise
import Mathlib.Logic.Function.Basic
import Webhookd.Machine.Basic

/-!
# Pools of processes

Any number of processes over a shared state, interleaved with an environment.
A process is started under a fresh number, and then takes steps of its own; the
environment changes the shared state alone.

Invariants are proved by rely and guarantee (`Pool.Invariant`): whoever takes a
step keeps the invariant of the shared state and its own, and guarantees
(`rel`) a relation between the shared state before and after under which the
invariants of the others are stable. They then hold along every run from a
state where they hold (`Pool.Invariant.run`). A pool that another one follows
step by step takes no run that the other does not take (`Pool.run_simulated`), and
processes that do nothing may be left out of a run (`Pool.run_purge`).

What processes do may be recorded in a `Journal` that they share. The entries of
a kind are counted process by process (`Journal.tally_eq_sum`), so a law that
the entries of each process satisfy holds of all of them.
-/

/-- Processes with states `π`, started by `α` and taking steps under `ι`, and an
    environment taking steps under `ε`, over a shared state `γ`. -/
structure Pool (γ π α ι ε : Type) where
  init : γ
  start : Nat → α → γ → Option (π × γ)
  step : Nat → π → ι → γ → Option (π × γ)
  env : ε → γ → Option γ

namespace Pool

variable {γ π α ι ε : Type}

/-- The shared state, and the processes that were started. -/
structure State (γ π : Type) where
  shared : γ
  procs : Nat → Option π

/-- Who takes a step, and which. -/
inductive Label (α ι ε : Type)
  | start (i : Nat) (a : α)
  | step (i : Nat) (l : ι)
  | env (x : ε)

/-- The machine of a pool. -/
def machine (p : Pool γ π α ι ε) : Machine (State γ π) (Label α ι ε) where
  init := ⟨p.init, fun _ => none⟩
  step s
    | .start i a =>
      match s.procs i with
      | some _ => none
      | none => (p.start i a s.shared).map fun (q, g) => ⟨g, Function.update s.procs i (some q)⟩
    | .step i l =>
      match s.procs i with
      | some q =>
        (p.step i q l s.shared).map fun (q', g) => ⟨g, Function.update s.procs i (some q')⟩
      | none => none
    | .env x => (p.env x s.shared).map fun g => ⟨g, s.procs⟩

section

variable {p : Pool γ π α ι ε} {s s' : State γ π} {i : Nat}

/-- A process is started if there is none under its number. -/
theorem step_start {a : α} :
    p.machine.step s (.start i a) = some s' ↔
      s.procs i = none ∧ ∃ q g, p.start i a s.shared = some (q, g) ∧
        s' = ⟨g, Function.update s.procs i (some q)⟩ := by
  simp only [machine]
  cases s.procs i <;> simp [@eq_comm _ _ s']

/-- A process that was started takes a step. -/
theorem step_step {l : ι} :
    p.machine.step s (.step i l) = some s' ↔
      ∃ q, s.procs i = some q ∧ ∃ q' g, p.step i q l s.shared = some (q', g) ∧
        s' = ⟨g, Function.update s.procs i (some q')⟩ := by
  simp only [machine]
  cases s.procs i <;> simp [@eq_comm _ _ s']

/-- The environment takes a step, and the processes do not. -/
theorem step_env {x : ε} :
    p.machine.step s (.env x) = some s' ↔ ∃ g, p.env x s.shared = some g ∧ s' = ⟨g, s.procs⟩ := by
  simp [machine, @eq_comm _ _ s']

end

/-- The shared state satisfies `I`, and each process, also one that is not
    started, satisfies `P`. -/
def Holds (I : γ → Prop) (P : Nat → Option π → γ → Prop) (s : State γ π) : Prop :=
  I s.shared ∧ ∀ i, P i (s.procs i) s.shared

theorem holds_init {p : Pool γ π α ι ε} {I : γ → Prop} {P : Nat → Option π → γ → Prop}
    (hI : I p.init) (hP : ∀ i, P i none p.init) : Holds I P p.machine.init := ⟨hI, hP⟩

/-- The steps under labels with `G` keep the invariants `I` and `P`. Who takes a
    step is `some i`, or `none` for the environment. -/
structure Invariant (p : Pool γ π α ι ε) (G : Label α ι ε → Prop) (I : γ → Prop)
    (P : Nat → Option π → γ → Prop) (rel : Option Nat → γ → γ → Prop) : Prop where
  start : ∀ {i a g q g'}, G (.start i a) → I g → P i none g → p.start i a g = some (q, g') →
    I g' ∧ P i (some q) g' ∧ rel (some i) g g'
  step : ∀ {i l g q q' g'}, G (.step i l) → I g → P i (some q) g →
    p.step i q l g = some (q', g') → I g' ∧ P i (some q') g' ∧ rel (some i) g g'
  env : ∀ {x g g'}, G (.env x) → I g → p.env x g = some g' → I g' ∧ rel none g g'
  stable : ∀ {i j q g g'}, some i ≠ j → I g → P i q g → rel j g g' → P i q g'

namespace Invariant

variable {p : Pool γ π α ι ε} {G : Label α ι ε → Prop} {I : γ → Prop}
  {P : Nat → Option π → γ → Prop} {rel : Option Nat → γ → γ → Prop} {s s' : State γ π}
  {l : Label α ι ε} {ls : List (Label α ι ε)}

/-- The process that took a step keeps its invariant, and the others rely on it. -/
theorem update (h : p.Invariant G I P rel) {i : Nat} {q : π} {g : γ} (hs : Holds I P s)
    (hq : P i (some q) g) (hr : rel (some i) s.shared g) (j : Nat) :
    P j (Function.update s.procs i (some q) j) g := by
  by_cases hj : j = i
  · subst hj
    rwa [Function.update_self]
  · rw [Function.update_of_ne hj]
    exact h.stable (fun e => hj (Option.some.inj e)) hs.1 (hs.2 j) hr

/-- One step, whoever takes it. -/
theorem machine_step (h : p.Invariant G I P rel) (hl : G l) (hs : Holds I P s)
    (hst : p.machine.step s l = some s') : Holds I P s' := by
  cases l with
  | start i a =>
    obtain ⟨hn, q, g, hq, rfl⟩ := step_start.mp hst
    obtain ⟨hI, hq', hr⟩ := h.start hl hs.1 (hn ▸ hs.2 i) hq
    exact ⟨hI, h.update hs hq' hr⟩
  | step i l =>
    obtain ⟨q, hn, q', g, hq, rfl⟩ := step_step.mp hst
    obtain ⟨hI, hq', hr⟩ := h.step hl hs.1 (hn ▸ hs.2 i) hq
    exact ⟨hI, h.update hs hq' hr⟩
  | env x =>
    obtain ⟨g, hg, rfl⟩ := step_env.mp hst
    obtain ⟨hI, hr⟩ := h.env hl hs.1 hg
    exact ⟨hI, fun i => h.stable (by simp) hs.1 (hs.2 i) hr⟩

/-- The invariants hold after every run from a state where they hold. -/
theorem run (h : p.Invariant G I P rel) (hG : ∀ l ∈ ls, G l) (hs : Holds I P s)
    (hr : p.machine.run s ls = some s') : Holds I P s' :=
  Machine.run_invariant (fun hl hs => h.machine_step hl hs) hG hs hr

/-- Invariants for all labels hold of every reachable state, if they do
    initially. -/
theorem reachable (h : p.Invariant (fun _ => True) I P rel) (hI : I p.init)
    (hP : ∀ i, P i none p.init) (hr : p.machine.Reachable s) : Holds I P s := by
  obtain ⟨ls, hr⟩ := hr
  exact h.run (fun _ _ => trivial) (holds_init hI hP) hr

end Invariant

/-- A process that was started stays. -/
theorem run_started {p : Pool γ π α ι ε} {s s' : State γ π} {ls : List (Label α ι ε)} {i : Nat}
    (hi : s.procs i ≠ none) (hr : p.machine.run s ls = some s') : s'.procs i ≠ none := by
  have inv : p.Invariant (fun _ => True) (fun _ => True) (fun j q _ => j = i → q ≠ none)
      (fun _ _ _ => True) :=
    { start := fun _ _ _ _ => ⟨trivial, fun _ => nofun, trivial⟩
      step := fun _ _ _ _ => ⟨trivial, fun _ => nofun, trivial⟩
      env := fun _ _ _ => ⟨trivial, trivial⟩
      stable := fun _ _ hP _ => hP }
  refine (inv.run (fun _ _ => trivial) ⟨trivial, ?_⟩ hr).2 i rfl
  rintro j rfl
  exact hi

/-- The pool as another one sees it, by the shared state and some of the processes. -/
def State.filterMap {γ' π' : Type} (f : γ → γ') (g : π → Option π') (s : State γ π) :
    State γ' π' where
  shared := f s.shared
  procs i := (s.procs i).bind g

/-- A process is seen through the map when it changes. -/
theorem State.filterMap_update {γ' π' : Type} (f : γ → γ') (g : π → Option π') (s : State γ π)
    (x : γ) (i : Nat) (q : π) :
    State.filterMap f g ⟨x, Function.update s.procs i (some q)⟩ =
      ⟨f x, Function.update (s.filterMap f g).procs i (g q)⟩ := by
  simp only [State.filterMap, mk.injEq, true_and]
  funext j
  by_cases hj : j = i
  · subst hj
    simp
  · simp [hj]

section

variable {γ' π' α' ι' ε' : Type} {p : Pool γ π α ι ε} {p' : Pool γ' π' α' ι' ε'} {f : γ → γ'}

/-- A pool of which every step is one of another pool, or none, as the other sees
    it, takes no run that the other does not take. -/
theorem run_simulated {g : π → Option π'} {G : Label α ι ε → Prop} {H : Label α' ι' ε' → Prop}
    (hinit : f p.init = p'.init)
    (hstart : ∀ {i a x q x'}, G (.start i a) → p.start i a x = some (q, x') →
      (g q = none ∧ f x' = f x) ∨
      ∃ a' q', H (.start i a') ∧ g q = some q' ∧ p'.start i a' (f x) = some (q', f x'))
    (hstep : ∀ {i q l x q' x'}, G (.step i l) → p.step i q l x = some (q', x') →
      (g q' = g q ∧ f x' = f x) ∨
      ∃ l' y y', H (.step i l') ∧ g q = some y ∧ g q' = some y' ∧
        p'.step i y l' (f x) = some (y', f x'))
    (henv : ∀ {e x x'}, G (.env e) → p.env e x = some x' →
      f x' = f x ∨ ∃ e', H (.env e') ∧ p'.env e' (f x) = some (f x'))
    {ls : List (Label α ι ε)} {s : State γ π} (hG : ∀ l ∈ ls, G l)
    (h : p.machine.run p.machine.init ls = some s) :
    ∃ ls', (∀ l ∈ ls', H l) ∧
      p'.machine.run p'.machine.init ls' = some (s.filterMap f g) := by
  rw [show p'.machine.init = p.machine.init.filterMap f g by
    simp [machine, State.filterMap, hinit]]
  refine Machine.run_simulated (f := State.filterMap f g) ?_ hG h
  intro s l s' hl hs
  cases l with
  | start i a =>
    obtain ⟨hn, q, x, hq, rfl⟩ := step_start.mp hs
    have hn' : (s.filterMap f g).procs i = none := by simp [State.filterMap, hn]
    rw [State.filterMap_update]
    rcases hstart hl hq with ⟨hg, hx⟩ | ⟨a', q', hl', hg, ha'⟩
    · rw [hg, hx, ← hn', Function.update_eq_self]
      exact .inl rfl
    · exact .inr ⟨.start i a', hl', step_start.mpr ⟨hn', q', f x, ha', hg ▸ rfl⟩⟩
  | step i l =>
    obtain ⟨q, hn, q', x, hq, rfl⟩ := step_step.mp hs
    have hn' : (s.filterMap f g).procs i = g q := by simp [State.filterMap, hn]
    rw [State.filterMap_update]
    rcases hstep hl hq with ⟨hg, hx⟩ | ⟨l', y, y', hl', hy, hy', ht⟩
    · rw [hg, hx, ← hn', Function.update_eq_self]
      exact .inl rfl
    · exact .inr ⟨.step i l', hl', step_step.mpr ⟨y, hn'.trans hy, y', f x, ht, hy' ▸ rfl⟩⟩
  | env e =>
    obtain ⟨x, hx, rfl⟩ := step_env.mp hs
    rcases henv hl hx with he | ⟨e', hl', he'⟩
    · exact .inl (by rw [State.filterMap, he]; rfl)
    · exact .inr ⟨.env e', hl', step_env.mpr ⟨f x, he', rfl⟩⟩

/-- The pool as another one sees it, by the shared state and the processes. -/
def State.map (f : γ → γ') (g : π → π') (s : State γ π) : State γ' π' where
  shared := f s.shared
  procs i := (s.procs i).map g

theorem State.map_eq_filterMap (f : γ → γ') (g : π → π') (s : State γ π) :
    s.map f g = s.filterMap f (some ∘ g) := by
  simp only [State.map, State.filterMap, Option.map_eq_bind]

/-- A pool that another one follows, process by process, reaches no more than the
    other. -/
theorem reachable_simulated {g : π → π'} (hinit : f p.init = p'.init)
    (hstart : ∀ {i a x q x'}, p.start i a x = some (q, x') →
      ∃ a', p'.start i a' (f x) = some (g q, f x'))
    (hstep : ∀ {i q l x q' x'}, p.step i q l x = some (q', x') →
      (g q' = g q ∧ f x' = f x) ∨ ∃ l', p'.step i (g q) l' (f x) = some (g q', f x'))
    (henv : ∀ {e x x'}, p.env e x = some x' → f x' = f x ∨ ∃ e', p'.env e' (f x) = some (f x'))
    {s : State γ π} (h : p.machine.Reachable s) : p'.machine.Reachable (s.map f g) := by
  obtain ⟨ls, h⟩ := h
  rw [State.map_eq_filterMap]
  refine (run_simulated (g := some ∘ g) (G := fun _ => True) (H := fun _ => True) hinit ?_ ?_ ?_
    (fun _ _ => trivial) h).imp fun ls' h' => h'.2
  · intro i a x q x' _ hs
    obtain ⟨a', ha'⟩ := hstart hs
    exact .inr ⟨a', _, trivial, rfl, ha'⟩
  · intro i q l x q' x' _ hs
    rcases hstep hs with ⟨hg, hx⟩ | ⟨l', hl'⟩
    · exact .inl ⟨congrArg some hg, hx⟩
    · exact .inr ⟨l', _, _, trivial, rfl, rfl, hl'⟩
  · intro e x x' _ hs
    rcases henv hs with hx | ⟨e', he'⟩
    · exact .inl hx
    · exact .inr ⟨e', trivial, he'⟩

end

/-- Some of the processes. -/
def State.purge (keep : π → Bool) (s : State γ π) : State γ π where
  shared := s.shared
  procs i := (s.procs i).filter keep

/-- A process that changes is kept or not. -/
theorem State.purge_update (keep : π → Bool) (s : State γ π) (g : γ) (i : Nat) (q : π) :
    State.purge keep ⟨g, Function.update s.procs i (some q)⟩ =
      ⟨g, Function.update (s.purge keep).procs i (if keep q then some q else none)⟩ := by
  simp only [State.purge, mk.injEq, true_and]
  funext j
  by_cases hj : j = i
  · subst hj
    simp [Option.filter]
  · simp [hj]

/-- All but the start of some processes. -/
def Label.kept (keep : α → Bool) : Label α ι ε → Bool
  | .start _ a => keep a
  | _ => true

/-- What holds of all processes holds after one of them has changed. -/
theorem forall_procs_update {P : π → Prop} {f : Nat → Option π} {i : Nat} {q : π}
    (hf : ∀ j r, f j = some r → P r) (hq : P q) (j : Nat) (r : π)
    (h : Function.update f i (some q) j = some r) : P r := by
  by_cases hj : j = i
  · subst hj
    rw [Function.update_self] at h
    exact Option.some.inj h ▸ hq
  · rw [Function.update_of_ne hj] at h
    exact hf j r h

/-- Processes that change nothing when they are started, and then take no step, are
    invisible: without them, the run leads to the same shared state and the same other
    processes. -/
theorem run_purge {p : Pool γ π α ι ε} {P : π → Prop} {keep : π → Bool} {keepStart : α → Bool}
    (hstart : ∀ {i a g q g'}, p.start i a g = some (q, g') →
      P q ∧ keep q = keepStart a ∧ (keepStart a = false → g' = g))
    (hstep : ∀ {i q l g q' g'}, P q → p.step i q l g = some (q', g') →
      P q' ∧ keep q = true ∧ keep q' = true)
    {s s' : State γ π} {ls : List (Label α ι ε)} (hs : ∀ i q, s.procs i = some q → P q)
    (h : p.machine.run s ls = some s') :
    p.machine.run (s.purge keep) (ls.filter (Label.kept keepStart)) = some (s'.purge keep) := by
  induction ls generalizing s with
  | nil => exact congrArg (some ∘ State.purge keep) (Option.some.inj h)
  | cons l ls ih =>
    obtain ⟨t, ht, h⟩ := Machine.run_cons_eq_some.mp h
    cases l with
    | start i a =>
      obtain ⟨hn, q, g, hq, rfl⟩ := step_start.mp ht
      obtain ⟨hinv, hkeep, hg⟩ := hstart hq
      have hn' : (s.purge keep).procs i = none := by simp [State.purge, hn]
      specialize ih (forall_procs_update hs hinv) h
      rw [State.purge_update, hkeep] at ih
      cases hk : keepStart a with
      | false =>
        rw [hk, if_neg Bool.false_ne_true, hg hk, ← hn', Function.update_eq_self] at ih
        rwa [List.filter_cons_of_neg (by simp [Label.kept, hk])]
      | true =>
        rw [hk, if_pos rfl] at ih
        rw [List.filter_cons_of_pos (by simp [Label.kept, hk])]
        exact Machine.run_cons_eq_some.mpr ⟨_, step_start.mpr ⟨hn', q, g, hq, rfl⟩, ih⟩
    | step i l =>
      obtain ⟨q, hn, q', g, hq, rfl⟩ := step_step.mp ht
      obtain ⟨hinv, hkeep, hkeep'⟩ := hstep (hs i q hn) hq
      have hn' : (s.purge keep).procs i = some q := by simp [State.purge, hn, hkeep]
      specialize ih (forall_procs_update hs hinv) h
      rw [State.purge_update, if_pos hkeep'] at ih
      rw [List.filter_cons_of_pos rfl]
      exact Machine.run_cons_eq_some.mpr ⟨_, step_step.mpr ⟨q, hn', q', g, hq, rfl⟩, ih⟩
    | env x =>
      obtain ⟨g, hx, rfl⟩ := step_env.mp ht
      rw [List.filter_cons_of_pos rfl]
      exact Machine.run_cons_eq_some.mpr ⟨_, step_env.mpr ⟨g, hx, rfl⟩, ih (s := ⟨g, s.procs⟩) hs h⟩

end Pool

/-! ## Journals -/

/-- What processes did, each entry under the number of its process. -/
abbrev Journal (ω : Type) := List (Nat × ω)

namespace Journal

variable {ω : Type} {i j : Nat} {e : ω}

/-- What process `i` did next. -/
def record (l : Journal ω) (i : Nat) (es : List ω) : Journal ω := l ++ es.map (i, ·)

/-- What process `i` did. -/
def entries (l : Journal ω) (i : Nat) : List ω := (l.filter (·.1 = i)).map (·.2)

@[simp] theorem entries_record_self (l : Journal ω) (i : Nat) (es : List ω) :
    (l.record i es).entries i = l.entries i ++ es := by
  simp [entries, record, List.filter_map, Function.comp_def, List.map_map]

/-- What one process records is not recorded of another. -/
theorem entries_record_of_ne (l : Journal ω) (h : i ≠ j) (es : List ω) :
    (l.record j es).entries i = l.entries i := by
  simp [entries, record, h.symm]

/-- The entries of a process are those with its number. -/
theorem mem_entries {l : Journal ω} : e ∈ l.entries i ↔ (i, e) ∈ l := by
  simp [entries]

theorem entries_append (l l' : Journal ω) (i : Nat) :
    entries (l ++ l') i = l.entries i ++ l'.entries i := by
  simp [entries]

theorem entries_cons_self (l : Journal ω) (i : Nat) (e : ω) :
    entries ((i, e) :: l) i = e :: l.entries i := by
  simp [entries]

/-- An entry is new, or it was there before. -/
theorem mem_record {l : Journal ω} {es : List ω} :
    (j, e) ∈ l.record i es ↔ (j, e) ∈ l ∨ j = i ∧ e ∈ es := by
  simp [record, and_comm, eq_comm]

/-- How many entries satisfy `p`. -/
def tally (l : Journal ω) (p : ω → Bool) : Nat := l.countP fun e => p e.2

/-- New entries are counted after those before. -/
theorem tally_record (l : Journal ω) (i : Nat) (es : List ω) (p : ω → Bool) :
    (l.record i es).tally p = l.tally p + es.countP p := by
  rw [tally, record, List.countP_append, List.countP_map]
  rfl

/-- The entries are counted process by process, over any processes that include
    those with an entry. -/
theorem tally_eq_sum {l : Journal ω} {S : Finset Nat} (hS : ∀ e ∈ l, e.1 ∈ S) (p : ω → Bool) :
    l.tally p = ∑ i ∈ S, (l.entries i).countP p := by
  induction l with
  | nil => simp [tally, entries]
  | cons e l ih =>
    obtain ⟨he, hl⟩ := List.forall_mem_cons.mp hS
    have hsplit : ∀ i, (entries (e :: l) i).countP p =
        (entries l i).countP p + if i = e.1 then (if p e.2 then 1 else 0) else 0 := by
      intro i
      by_cases hi : i = e.1
      · subst hi
        rw [show e :: l = (e.1, e.2) :: l from rfl, entries_cons_self, List.countP_cons, if_pos rfl]
      · simp [entries, hi, Ne.symm hi]
    rw [Finset.sum_congr rfl fun i _ => hsplit i, Finset.sum_add_distrib, ← ih hl,
      Finset.sum_ite_eq' S e.1, if_pos he]
    exact List.countP_cons

end Journal
