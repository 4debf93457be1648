import Mathlib.Data.List.Basic

/-!
# Channels

Buffered channels. A send blocks on a full buffer, and a receive on an empty one.
`Chan.Room` counts the sends that cannot block, whatever is received in between.
-/

namespace Go

/-- A channel, with its capacity and what was sent but not yet received. -/
structure Chan (α : Type) where
  cap : Nat
  buf : List α := []

namespace Chan

variable {α : Type} {c c' : Chan α} {a : α} {n : Nat}

/-- `c <- a`, unless it blocks. -/
def send (c : Chan α) (a : α) : Option (Chan α) :=
  if c.buf.length < c.cap then some { c with buf := c.buf ++ [a] } else none

/-- `<-c`, unless it blocks. -/
def recv (c : Chan α) : Option (α × Chan α) :=
  match c.buf with
  | [] => none
  | a :: buf => some (a, { c with buf })

/-- A value that is sent is the last one. -/
theorem send_eq_some (h : c.send a = some c') : c' = { c with buf := c.buf ++ [a] } := by
  unfold send at h
  split_ifs at h
  exact (Option.some.inj h).symm

/-- A value that is received was the first one. -/
theorem recv_eq_some : c.recv = some (a, c') ↔ c.buf = a :: c'.buf ∧ c'.cap = c.cap := by
  obtain ⟨cap, _ | ⟨b, buf⟩⟩ := c
  · simp [recv]
  · obtain ⟨cap', buf'⟩ := c'
    simp only [recv, Option.some.injEq, Prod.mk.injEq, Chan.mk.injEq, List.cons.injEq]
    tauto

/-- There is room for `n` more values. -/
def Room (c : Chan α) (n : Nat) : Prop := c.buf.length + n ≤ c.cap

theorem Room.mono {m : Nat} (h : c.Room n) (hm : m ≤ n) : c.Room m := by
  unfold Room at *
  omega

/-- With room, a send does not block. -/
theorem Room.exists_send (h : c.Room (n + 1)) (a : α) : ∃ c', c.send a = some c' :=
  ⟨_, if_pos (by unfold Room at h; omega)⟩

/-- A send takes up room for one value. -/
theorem Room.send (h : c.Room (n + 1)) (hs : c.send a = some c') : c'.Room n := by
  obtain rfl := send_eq_some hs
  simp only [Room, List.length_append, List.length_singleton] at h ⊢
  omega

/-- Receiving a value takes up none. -/
theorem Room.recv (h : c.Room n) (hr : c.recv = some (a, c')) : c'.Room n := by
  obtain ⟨hb, hc⟩ := recv_eq_some.mp hr
  rw [Room, hb, List.length_cons] at h
  rw [Room, hc]
  omega

end Chan

end Go
