import Mathlib.Data.List.Basic
import Mathlib.Logic.Function.Basic

/-!
# Registries of lazily created objects

Clients look up an object by its key; who finds none creates one of their own,
and stores it unless another client was first. Each client creates at most one
object, so the number of the client serves as the address of its object.

Operations on objects are recorded in a history. A registry is coherent
(`Registry.Coherent`) if all operations for a key were on the object stored
under it, and have answered like an object of its own that only got the
operations for that key: `Object.run` from a fresh one. Every step of a client
that uses no other object than the one it was given keeps this, and what the
other clients rely on (`Registry.Extends`).
-/

/-- The initial state of an object, and what an operation answers and leaves. -/
structure Object (O Op Out : Type) where
  fresh : O
  apply : O → Op → Out × O

namespace Object

variable {O Op Out : Type} (b : Object O Op Out)

/-- The answers to a sequence of operations, and the state they leave. -/
def run : O → List Op → List Out × O
  | o, [] => ([], o)
  | o, op :: ops => ((b.apply o op).1 :: (run (b.apply o op).2 ops).1, (run (b.apply o op).2 ops).2)

/-- The last operation is on the object that the others have left. -/
theorem run_concat (o : O) (ops : List Op) (op : Op) :
    b.run o (ops ++ [op]) =
      ((b.run o ops).1 ++ [(b.apply (b.run o ops).2 op).1], (b.apply (b.run o ops).2 op).2) := by
  induction ops generalizing o with
  | nil => rfl
  | cons op' ops ih => simp only [List.cons_append, run, ih]

end Object

/-- An operation that was made: the key and the address it was for, and the
    answer. -/
structure Use (K Op Out : Type) where
  key : K
  addr : Nat
  op : Op
  out : Out

/-- The objects by key and by address, and the operations in their order. -/
structure Registry (K O Op Out : Type) where
  table : K → Option Nat
  heap : Nat → Option O
  history : List (Use K Op Out)

namespace Registry

variable {K O Op Out : Type}

def empty : Registry K O Op Out := ⟨fun _ => none, fun _ => none, []⟩

/-- A client creates an object of its own. -/
def create (b : Object O Op Out) (i : Nat) (g : Registry K O Op Out) : Registry K O Op Out :=
  { g with heap := Function.update g.heap i (some b.fresh) }

section

variable [DecidableEq K]

def store (k : K) (a : Nat) (g : Registry K O Op Out) : Registry K O Op Out :=
  { g with table := Function.update g.table k (some a) }

/-- The address stored under a key, after the given one was stored if there was
    none. -/
def loadOrStore (k : K) (a : Nat) (g : Registry K O Op Out) : Nat × Registry K O Op Out :=
  match g.table k with
  | some a' => (a', g)
  | none => (a, g.store k a)

/-- The operations for a key. -/
def uses (g : Registry K O Op Out) (k : K) : List (Use K Op Out) :=
  g.history.filter (·.key = k)

end

/-- An operation on the object at an address. -/
def use (b : Object O Op Out) (k : K) (a : Nat) (op : Op) (g : Registry K O Op Out) :
    Option (Out × Registry K O Op Out) :=
  (g.heap a).map fun o =>
    ((b.apply o op).1, { g with
      heap := Function.update g.heap a (some (b.apply o op).2)
      history := g.history ++ [⟨k, a, op, (b.apply o op).1⟩] })

/-- No key has the object at an address. -/
def Absent (g : Registry K O Op Out) (a : Nat) : Prop := ∀ k, g.table k ≠ some a

/-- There is an object at an address that was never used. -/
def Candidate (b : Object O Op Out) (g : Registry K O Op Out) (a : Nat) : Prop :=
  g.heap a = some b.fresh ∧ g.Absent a

/-- The operations for a key were on the object stored under it, and have answered
    like an object of its own. -/
structure Coherent [DecidableEq K] (b : Object O Op Out) (g : Registry K O Op Out) : Prop where
  inj : ∀ {k k' a}, g.table k = some a → g.table k' = some a → k = k'
  mem : ∀ {u}, u ∈ g.history → g.table u.key = some u.addr
  object : ∀ {k a}, g.table k = some a → ∃ o, g.heap a = some o ∧
    b.run b.fresh ((g.uses k).map Use.op) = ((g.uses k).map Use.out, o)

/-- What the steps of client `j` leave to the others: objects that are stored stay,
    and theirs are not touched. -/
structure Extends (b : Object O Op Out) (j : Nat) (g g' : Registry K O Op Out) : Prop where
  table : ∀ {k a}, g.table k = some a → g'.table k = some a
  absent : ∀ {a}, a ≠ j → g.Absent a → g'.Absent a
  candidate : ∀ {a}, a ≠ j → g.Candidate b a → g'.Candidate b a

variable {b : Object O Op Out} {g g' : Registry K O Op Out} {k : K} {i a a' : Nat} {op : Op}
  {out : Out}

/-! ## Steps of the clients -/

theorem Extends.refl (b : Object O Op Out) (j : Nat) (g : Registry K O Op Out) :
    g.Extends b j g := ⟨id, fun _ => id, fun _ => id⟩

/-- An object that was just created is new, and nobody knows it. -/
theorem candidate_create (h : g.Absent i) : (g.create b i).Candidate b i :=
  ⟨Function.update_self .., h⟩

/-- To create an object is nothing that others see. -/
theorem extends_create (b : Object O Op Out) (i : Nat) (g : Registry K O Op Out) :
    g.Extends b i (g.create b i) where
  table := id
  absent _ := id
  candidate ha hc := ⟨(Function.update_of_ne ha ..).trans hc.1, hc.2⟩

/-- An operation is on an object of the heap, and is recorded. -/
theorem use_eq_some (h : g.use b k a op = some (out, g')) :
    ∃ o, g.heap a = some o ∧ out = (b.apply o op).1 ∧
      g' = { g with
        heap := Function.update g.heap a (some (b.apply o op).2)
        history := g.history ++ [⟨k, a, op, out⟩] } := by
  obtain ⟨o, ho, heq⟩ := Option.map_eq_some_iff.mp h
  obtain ⟨rfl, rfl⟩ := Prod.mk.inj heq
  exact ⟨o, ho, rfl, rfl⟩

/-- An operation on an object of the table touches no new object of another client. -/
theorem extends_use (hk : g.table k = some a) (h : g.use b k a op = some (out, g')) (j : Nat) :
    g.Extends b j g' := by
  obtain ⟨o, ho, -, rfl⟩ := use_eq_some h
  refine ⟨id, fun _ => id, fun {a'} _ hc => ⟨(Function.update_of_ne ?_ ..).trans hc.1, hc.2⟩⟩
  rintro rfl
  exact hc.2 k hk

variable [DecidableEq K]

/-- An operation is the last one for its key. -/
theorem uses_use (h : g.use b k a op = some (out, g')) :
    g'.uses k = g.uses k ++ [⟨k, a, op, out⟩] := by
  obtain ⟨o, -, -, rfl⟩ := use_eq_some h
  simp [uses, List.filter_append]

/-- The operations for other keys stay. -/
theorem uses_use_of_ne {k' : K} (h : g.use b k a op = some (out, g')) (hne : k' ≠ k) :
    g'.uses k' = g.uses k' := by
  obtain ⟨o, -, -, rfl⟩ := use_eq_some h
  simp [uses, List.filter_append, hne.symm]

/-- Operations are only ever added. -/
theorem uses_prefix_use (h : g.use b k a op = some (out, g')) (k' : K) :
    g.uses k' <+: g'.uses k' := by
  by_cases hk : k' = k
  · subst hk
    rw [uses_use h]
    exact List.prefix_append ..
  · exact uses_use_of_ne h hk ▸ List.prefix_rfl

/-! ## Coherence -/

theorem coherent_empty : (empty : Registry K O Op Out).Coherent b where
  inj h := by cases h
  mem h := by cases h
  object h := by cases h

/-- A key without an object has not been used. -/
theorem Coherent.uses_eq_nil (h : g.Coherent b) (hk : g.table k = none) : g.uses k = [] := by
  refine List.filter_eq_nil_iff.mpr fun u hu heq => ?_
  have := h.mem hu
  rw [of_decide_eq_true heq, hk] at this
  cases this

/-- The table does not know an object that was just created. -/
theorem Coherent.create (h : g.Coherent b) (hi : g.Absent i) : (g.create b i).Coherent b where
  inj := h.inj
  mem := h.mem
  object {k a} hk := by
    obtain ⟨o, ho, hr⟩ := h.object hk
    refine ⟨o, (Function.update_of_ne ?_ ..).trans ho, hr⟩
    rintro rfl
    exact hi k hk

/-- An object is in the table since it was stored now, or before. -/
theorem store_table_eq_some {k' : K} :
    (g.store k a).table k' = some a' ↔ k' = k ∧ a' = a ∨ k' ≠ k ∧ g.table k' = some a' := by
  simp only [store]
  rcases eq_or_ne k' k with rfl | hne
  · simp [@eq_comm _ a]
  · simp [hne]

/-- Either the object is stored, or nothing happens. -/
theorem loadOrStore_cases (h : g.loadOrStore k a = (a', g')) :
    g.table k = some a' ∧ g' = g ∨ g.table k = none ∧ a' = a ∧ g' = g.store k a := by
  unfold loadOrStore at h
  split at h
  · obtain ⟨rfl, rfl⟩ := Prod.mk.inj h
    exact .inl ⟨‹_›, rfl⟩
  · obtain ⟨rfl, rfl⟩ := Prod.mk.inj h
    exact .inr ⟨‹_›, rfl, rfl⟩

/-- To store an object is not to use it. -/
theorem uses_loadOrStore {k' : K} (h : g.loadOrStore k a = (a', g')) : g'.uses k' = g.uses k' := by
  rcases loadOrStore_cases h with ⟨-, rfl⟩ | ⟨-, -, rfl⟩
  · rfl
  · rfl

/-- What is returned is what the table has from then on. -/
theorem loadOrStore_table (h : g.loadOrStore k a = (a', g')) : g'.table k = some a' := by
  rcases loadOrStore_cases h with ⟨hk, rfl⟩ | ⟨-, rfl, rfl⟩
  · exact hk
  · exact store_table_eq_some.mpr (.inl ⟨rfl, rfl⟩)

/-- An object that is absent stays so when another one is stored. -/
theorem Absent.store (h : g.Absent a) (ha : a ≠ i) : (g.store k i).Absent a := by
  intro k' hk'
  rcases store_table_eq_some.mp hk' with ⟨-, rfl⟩ | ⟨-, hk'⟩
  · exact ha rfl
  · exact h k' hk'

/-- What is in the table is not replaced, and only the client's own object is added. -/
theorem extends_loadOrStore (h : g.loadOrStore k i = (a', g')) : g.Extends b i g' := by
  rcases loadOrStore_cases h with ⟨-, rfl⟩ | ⟨hk, -, rfl⟩
  · exact .refl ..
  · refine ⟨fun {k' a} hk' => store_table_eq_some.mpr (.inr ⟨?_, hk'⟩), fun ha hab => hab.store ha,
      fun ha hc => ⟨hc.1, hc.2.store ha⟩⟩
    rintro rfl
    rw [hk] at hk'
    cases hk'

/-- A new object may be stored, as no operation for its key is forgotten. -/
theorem Coherent.loadOrStore (h : g.Coherent b) (hc : g.Candidate b i)
    (hs : g.loadOrStore k i = (a', g')) : g'.Coherent b := by
  have hext := extends_loadOrStore (b := b) hs
  rcases loadOrStore_cases hs with ⟨-, rfl⟩ | ⟨hk, -, rfl⟩
  · exact h
  · refine ⟨fun {k₁ k₂ a} h₁ h₂ => ?_, fun hu => hext.table (h.mem hu), fun {k' a} hk' => ?_⟩
    · -- The stored address is new to the table, so it differs from all others.
      rcases store_table_eq_some.mp h₁ with ⟨rfl, rfl⟩ | ⟨-, h₁'⟩ <;>
        rcases store_table_eq_some.mp h₂ with ⟨rfl, ha⟩ | ⟨-, h₂'⟩
      · rfl
      · exact absurd h₂' (hc.2 _)
      · exact absurd (ha ▸ h₁') (hc.2 _)
      · exact h.inj h₁' h₂'
    · rcases store_table_eq_some.mp hk' with ⟨rfl, rfl⟩ | ⟨-, hk'⟩
      · -- A key without an object was never used, so a fresh object answers for it.
        have hnil : (g.store k' a).uses k' = [] := h.uses_eq_nil hk
        exact ⟨b.fresh, hc.1, by rw [hnil]; rfl⟩
      · exact h.object hk'

/-- An operation on the object of a key goes on from all those before it. -/
theorem Coherent.use (h : g.Coherent b) (hk : g.table k = some a)
    (hu : g.use b k a op = some (out, g')) : g'.Coherent b := by
  obtain ⟨o, ho, rfl, rfl⟩ := use_eq_some hu
  refine ⟨h.inj, fun {u} hu => ?_, fun {k' a'} hk' => ?_⟩
  · rcases List.mem_append.mp hu with hu | hu
    · exact h.mem hu
    · obtain rfl := List.mem_singleton.mp hu
      exact hk
  · obtain ⟨o', ho', hr⟩ := h.object hk'
    rcases eq_or_ne k' k with rfl | hne
    · -- The operation is the next one of the object of this key.
      obtain rfl := Option.some.inj (hk.symm.trans hk')
      obtain rfl := Option.some.inj (ho.symm.trans ho')
      refine ⟨(b.apply o op).2, Function.update_self .., ?_⟩
      simp only [uses, List.filter_append, List.map_append] at hr ⊢
      simp [Object.run_concat, hr]
    · -- Another key has another object, by injectivity.
      refine ⟨o', (Function.update_of_ne ?_ ..).trans ho', ?_⟩
      · rintro rfl
        exact hne (h.inj hk' hk)
      · simpa [uses, List.filter_append, Ne.symm hne] using hr

/-- All operations for a key were on one object. -/
theorem Coherent.addr_eq (h : g.Coherent b) {u v : Use K Op Out} (hu : u ∈ g.history)
    (hv : v ∈ g.history) (hk : u.key = v.key) : u.addr = v.addr :=
  Option.some.inj ((h.mem hu).symm.trans ((congrArg g.table hk).trans (h.mem hv)))

/-- The operations for a key have answered like an object of its own. -/
theorem Coherent.outs_eq (h : g.Coherent b) (k : K) :
    (g.uses k).map Use.out = (b.run b.fresh ((g.uses k).map Use.op)).1 := by
  cases hk : g.table k with
  | none => rw [h.uses_eq_nil hk]; rfl
  | some a =>
    obtain ⟨o, -, hr⟩ := h.object hk
    rw [hr]

end Registry
