import Mathlib.Data.List.Basic
import Mathlib.Logic.Basic

/-!
# Machines

A state machine that takes steps under labels, where a label that is not
possible in a state leads nowhere. Whatever is left to chance (an interleaving,
the answers of others) is in the labels, so that a run is given by them.

* `Machine.run_invariant`: what the steps under some labels preserve, a run
  under them preserves;
* `Machine.run_trace`: the same of what relates a state to the labels before it;
* `Machine.exists_step_of_run`: what a run brings about, one of its steps does;
* `Machine.run_simulated`: a machine that another one follows takes no run that
  the other does not take.
-/

/-- A machine with states `σ`, that takes steps under labels `ι`. -/
structure Machine (σ ι : Type) where
  init : σ
  step : σ → ι → Option σ

namespace Machine

variable {σ ι : Type} {m : Machine σ ι} {s s' s'' : σ} {l : ι} {ls ls' : List ι}

/-- The state after a run. -/
def run (m : Machine σ ι) (s : σ) (ls : List ι) : Option σ := ls.foldlM m.step s

theorem run_cons : m.run s (l :: ls) = (m.step s l).bind (m.run · ls) := rfl

/-- A run is a step, and a run from where it leads. -/
theorem run_cons_eq_some :
    m.run s (l :: ls) = some s'' ↔ ∃ s', m.step s l = some s' ∧ m.run s' ls = some s'' := by
  rw [run_cons, Option.bind_eq_some_iff]

theorem run_append : m.run s (ls ++ ls') = (m.run s ls).bind (m.run · ls') := by
  rw [run, List.foldlM_append]
  rfl

/-- A run can be cut at any place. -/
theorem run_append_eq_some :
    m.run s (ls ++ ls') = some s'' ↔ ∃ s', m.run s ls = some s' ∧ m.run s' ls' = some s'' := by
  rw [run_append, Option.bind_eq_some_iff]

/-- A run from the start goes on from where a first part of it has led. -/
theorem run_of_run_append (h : m.run s ls = some s') (h' : m.run s (ls ++ ls') = some s'') :
    m.run s' ls' = some s'' := by
  rwa [run_append, h, Option.bind_some] at h'

/-- What the steps under some labels preserve, a run under them preserves. -/
theorem run_invariant {P : σ → Prop} {G : ι → Prop}
    (hstep : ∀ {s l s'}, G l → P s → m.step s l = some s' → P s') (hG : ∀ l ∈ ls, G l)
    (hs : P s) (h : m.run s ls = some s') : P s' := by
  induction ls generalizing s with
  | nil => exact Option.some.inj h ▸ hs
  | cons l ls ih =>
    obtain ⟨t, ht, h⟩ := run_cons_eq_some.mp h
    have hs : P t := hstep (hG l List.mem_cons_self) hs ht
    exact ih (fun l hl => hG l (List.mem_cons_of_mem _ hl)) hs h

/-- What relates the labels so far to the state, and is preserved by every step, relates
    the labels of a run to its last state. -/
theorem run_trace {P : List ι → σ → Prop}
    (hstep : ∀ {ls s l s'}, P ls s → m.step s l = some s' → P (ls ++ [l]) s')
    (hs : P ls' s) (h : m.run s ls = some s') : P (ls' ++ ls) s' := by
  induction ls generalizing s ls' with
  | nil => rwa [List.append_nil, ← Option.some.inj h]
  | cons l ls ih =>
    obtain ⟨t, ht, h⟩ := run_cons_eq_some.mp h
    have := ih (hstep hs ht) h
    rwa [List.append_assoc, List.singleton_append] at this

/-- What does not hold at first, and does after a run, has come with a step of it. -/
theorem exists_step_of_run {P : σ → Prop} (hs : ¬P s) (h : m.run s ls = some s') (hs' : P s') :
    ∃ ls₁ l ls₂ s₁ s₂, ls = ls₁ ++ l :: ls₂ ∧ m.run s ls₁ = some s₁ ∧ ¬P s₁ ∧
      m.step s₁ l = some s₂ ∧ P s₂ := by
  induction ls generalizing s with
  | nil => exact absurd (Option.some.inj h ▸ hs') hs
  | cons l ls ih =>
    obtain ⟨t, ht, h⟩ := run_cons_eq_some.mp h
    by_cases hP : P t
    · exact ⟨[], l, ls, s, t, rfl, rfl, hs, ht, hP⟩
    · obtain ⟨ls₁, l', ls₂, s₁, s₂, rfl, hr, h⟩ := ih hP h
      exact ⟨l :: ls₁, l', ls₂, s₁, s₂, rfl, run_cons_eq_some.mpr ⟨t, ht, hr⟩, h⟩

/-- The states that the runs from the initial one lead to. -/
def Reachable (m : Machine σ ι) (s : σ) : Prop := ∃ ls, m.run m.init ls = some s

/-- A step leads from a reachable state to another one. -/
theorem Reachable.step (h : m.Reachable s) (hl : m.step s l = some s') : m.Reachable s' := by
  obtain ⟨ls, h⟩ := h
  exact ⟨ls ++ [l], run_append_eq_some.mpr ⟨s, h, run_cons_eq_some.mpr ⟨s', hl, rfl⟩⟩⟩

/-- A machine of which every step is one of another, or none, as the other sees the
    states, takes no run that the other does not take. -/
theorem run_simulated {σ' ι' : Type} {m' : Machine σ' ι'} {f : σ → σ'} {G : ι → Prop}
    {H : ι' → Prop}
    (hstep : ∀ {s l s'}, G l → m.step s l = some s' →
      f s' = f s ∨ ∃ l', H l' ∧ m'.step (f s) l' = some (f s'))
    (hG : ∀ l ∈ ls, G l) (h : m.run s ls = some s') :
    ∃ ls', (∀ l ∈ ls', H l) ∧ m'.run (f s) ls' = some (f s') := by
  induction ls generalizing s with
  | nil => exact ⟨[], nofun, congrArg (some ∘ f) (Option.some.inj h)⟩
  | cons l ls ih =>
    obtain ⟨t, ht, h⟩ := run_cons_eq_some.mp h
    obtain ⟨hl, hG⟩ := List.forall_mem_cons.mp hG
    obtain ⟨ls', hH, h'⟩ := ih hG h
    rcases hstep hl ht with he | ⟨l', hl', ht'⟩
    · exact ⟨ls', hH, he ▸ h'⟩
    · exact ⟨l' :: ls', List.forall_mem_cons.mpr ⟨hl', hH⟩, run_cons_eq_some.mpr ⟨_, ht', h'⟩⟩

end Machine
