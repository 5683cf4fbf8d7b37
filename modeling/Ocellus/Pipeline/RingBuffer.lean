import Ocellus.Base.Fault

/-!
# The ring buffer (`ring_buffer.rs`)

A bounded queue between the capture thread and the analyzer; a push into a full
buffer drops the oldest entry. All handles (`clone_handle`) refer to one buffer,
and each function below is one critical section of its mutex: what a thread does
between two of them, such as waiting on the condition variable, belongs to the
systems that use the buffer.

A handle has no `Drop` of its own: dropping one, even the last that could push,
does nothing to the buffer. Only `close` sets `closed`.
-/

namespace Ocellus

universe u

structure RingBuffer (τ : Type u) where
  buf : List τ
  cap : Nat
  dropped : Nat
  closed : Bool
  deriving DecidableEq, Repr

namespace RingBuffer

variable {τ : Type u}

def new (cap : Nat) : RingBuffer τ := ⟨[], cap, 0, false⟩

/-- Push an item, dropping the oldest if full; returns the number dropped so far,
which is counted in a `u64`. -/
def push (item : τ) (r : RingBuffer τ) : Checked (Nat × RingBuffer τ) :=
  if r.buf.length = r.cap then
    (Checked.add 64 r.dropped 1).map fun dropped =>
      (dropped, { r with buf := r.buf.tail ++ [item], dropped })
  else .ok (r.dropped, { r with buf := r.buf ++ [item] })

/-- How one pass through the loop of `pop_blocking` ends. -/
inductive Popped (τ : Type u) : Type u where
  | item (x : τ)
  /-- The buffer is closed and empty: `None` is returned. -/
  | closed
  /-- The thread waits on the condition variable. -/
  | wait

/-- One pass through the loop of `pop_blocking`. -/
def popBlocking (r : RingBuffer τ) : Popped τ × RingBuffer τ :=
  match r.buf with
  | x :: rest => (.item x, { r with buf := rest })
  | [] => if r.closed then (.closed, r) else (.wait, r)

/-- Pop without blocking. -/
def tryPop (r : RingBuffer τ) : Option τ × RingBuffer τ :=
  (r.buf.head?, { r with buf := r.buf.tail })

/-- Remove up to `max` items without blocking. -/
def drainBatch (max : Nat) (r : RingBuffer τ) : List τ × RingBuffer τ :=
  let count := min max r.buf.length
  (r.buf.take count, { r with buf := r.buf.drop count })

/-- Signal consumers to drain and exit. -/
def close (r : RingBuffer τ) : RingBuffer τ := { r with closed := true }

/-- `(current_len, total_dropped)`. -/
def stats (r : RingBuffer τ) : Nat × Nat := (r.buf.length, r.dropped)

/-- Inversion of a push. -/
theorem push_eq_ok {item : τ} {r r' : RingBuffer τ} {n : Nat} (h : r.push item = .ok (n, r')) :
    n = r'.dropped ∧ r' = { r with
      buf := (if r.buf.length = r.cap then r.buf.tail else r.buf) ++ [item]
      dropped := r.dropped + if r.buf.length = r.cap then 1 else 0 } := by
  rw [push] at h
  split at h
  · rename_i hfull
    cases hadd : Checked.add 64 r.dropped 1 with
    | error f =>
      rw [hadd] at h
      cases h
    | ok d =>
      obtain rfl := Checked.add_eq_ok hadd
      rw [hadd] at h
      cases h
      rw [if_pos hfull, if_pos hfull]
      exact ⟨rfl, rfl⟩
  · rename_i hroom
    cases h
    rw [if_neg hroom, if_neg hroom]
    exact ⟨rfl, rfl⟩

theorem popBlocking_of_cons {r : RingBuffer τ} {x : τ} {rest : List τ} (h : r.buf = x :: rest) :
    r.popBlocking = (.item x, { r with buf := rest }) := by
  rw [popBlocking, h]

theorem popBlocking_of_nil {r : RingBuffer τ} (h : r.buf = []) :
    r.popBlocking = (if r.closed then .closed else .wait, r) := by
  rw [popBlocking, h]
  cases r.closed <;> rfl

/-- An item is popped from the front. -/
theorem popBlocking_eq_item {r : RingBuffer τ} {x : τ} (h : r.popBlocking.1 = .item x) :
    r.buf = x :: r.popBlocking.2.buf := by
  cases hbuf : r.buf with
  | cons y rest =>
    rw [popBlocking_of_cons hbuf] at h ⊢
    cases h
    rfl
  | nil =>
    rw [popBlocking_of_nil hbuf] at h
    split at h <;> cases h

/-- A batch is drained from the front. -/
theorem drainBatch_append (max : Nat) (r : RingBuffer τ) :
    (r.drainBatch max).1 ++ (r.drainBatch max).2.buf = r.buf := List.take_append_drop _ _

/-! ## Nothing but `close` closes -/

@[simp] theorem new_closed (cap : Nat) : (new cap : RingBuffer τ).closed = false := rfl

theorem push_closed {item : τ} {r r' : RingBuffer τ} {n : Nat} (h : r.push item = .ok (n, r')) :
    r'.closed = r.closed := by
  rw [(push_eq_ok h).2]

/-- A pop touches nothing but the items. -/
theorem popBlocking_frame (r : RingBuffer τ) :
    r.popBlocking.2 = { r with buf := r.popBlocking.2.buf } := by
  cases hbuf : r.buf with
  | cons x rest => rw [popBlocking_of_cons hbuf]
  | nil => rw [popBlocking_of_nil hbuf]

@[simp] theorem popBlocking_closed (r : RingBuffer τ) : r.popBlocking.2.closed = r.closed := by
  rw [popBlocking_frame]

@[simp] theorem popBlocking_cap (r : RingBuffer τ) : r.popBlocking.2.cap = r.cap := by
  rw [popBlocking_frame]

@[simp] theorem drainBatch_closed (max : Nat) (r : RingBuffer τ) :
    (r.drainBatch max).2.closed = r.closed := rfl

/-- An open buffer makes `pop_blocking` return an item or wait. -/
theorem popBlocking_ne_closed {r : RingBuffer τ} (h : r.closed = false) :
    r.popBlocking.1 ≠ .closed := by
  cases hbuf : r.buf with
  | cons x rest =>
    rw [popBlocking_of_cons hbuf]
    nofun
  | nil =>
    rw [popBlocking_of_nil hbuf, h]
    nofun

end RingBuffer

end Ocellus
