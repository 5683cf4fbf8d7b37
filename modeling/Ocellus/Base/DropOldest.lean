import Mathlib.Data.List.Basic

/-!
# A queue that drops its oldest item

The abstract queue behind a bounded buffer that never refuses: when it is full,
the oldest item makes room for the new one. A `Ledger` is such a queue with a
memory: next to the items it holds it has all that left it, in the order in which
they left, each marked with its fate. What entered is what left and then what is
held (`entered`), so an item is in exactly one place, by position.
-/

namespace Ocellus

universe u

/-- What became of an item that left. -/
inductive Fate where
  | delivered
  | dropped
  deriving DecidableEq, Repr

structure Ledger (τ : Type u) : Type u where
  gone : List (Fate × τ)
  held : List τ

namespace Ledger

variable {τ : Type u}

def empty : Ledger τ := ⟨[], []⟩

/-- All that ever entered, in order. -/
def entered (l : Ledger τ) : List τ := l.gone.map Prod.snd ++ l.held

/-- All that met a fate, in order. -/
def met (fate : Fate) (l : Ledger τ) : List τ :=
  (l.gone.filter fun p => p.1 = fate).map Prod.snd

/-- The `n` oldest items leave. -/
def leave (fate : Fate) (n : Nat) (l : Ledger τ) : Ledger τ :=
  ⟨l.gone ++ (l.held.take n).map (Prod.mk fate), l.held.drop n⟩

/-- An item enters. -/
def enter (x : τ) (l : Ledger τ) : Ledger τ := { l with held := l.held ++ [x] }

/-- An item enters a queue of capacity `cap`: from a full one, the oldest item is
dropped first. -/
def push (cap : Nat) (x : τ) (l : Ledger τ) : Ledger τ :=
  (if l.held.length = cap then l.leave .dropped 1 else l).enter x

/-- Up to `n` items are delivered, the oldest first. -/
def deliver (n : Nat) (l : Ledger τ) : Ledger τ := l.leave .delivered n

@[simp] theorem entered_leave (fate : Fate) (n : Nat) (l : Ledger τ) :
    (l.leave fate n).entered = l.entered := by
  -- forgetting the fates, what left is back in front of what is held
  rw [entered, leave, List.map_append, List.map_map, List.append_assoc, entered]
  congr 1
  show (l.held.take n).map id ++ l.held.drop n = l.held
  rw [List.map_id, List.take_append_drop]

@[simp] theorem entered_enter (x : τ) (l : Ledger τ) : (l.enter x).entered = l.entered ++ [x] := by
  rw [entered, enter, ← List.append_assoc, entered]

theorem met_leave (fate fate' : Fate) (n : Nat) (l : Ledger τ) :
    (l.leave fate n).met fate' = l.met fate' ++ if fate = fate' then l.held.take n else [] := by
  rw [met, leave, List.filter_append, List.map_append, met]
  congr 1
  by_cases h : fate = fate'
  · rw [if_pos h, List.filter_map, List.map_map]
    have hall : ((fun p : Fate × τ => decide (p.1 = fate')) ∘ Prod.mk fate) = fun _ => true := by
      funext x
      exact decide_eq_true h
    rw [hall, List.filter_true]
    exact List.map_id _
  · rw [if_neg h, List.filter_map]
    have hnone : ((fun p : Fate × τ => decide (p.1 = fate')) ∘ Prod.mk fate) = fun _ => false := by
      funext x
      exact decide_eq_false h
    rw [hnone, List.filter_false]
    rfl

@[simp] theorem met_enter (fate : Fate) (x : τ) (l : Ledger τ) :
    (l.enter x).met fate = l.met fate := rfl

/-- A push adds its item to what entered, and only to that. -/
@[simp] theorem entered_push (cap : Nat) (x : τ) (l : Ledger τ) :
    (l.push cap x).entered = l.entered ++ [x] := by
  rw [push, entered_enter]
  split
  · rw [entered_leave]
  · rfl

@[simp] theorem entered_deliver (n : Nat) (l : Ledger τ) : (l.deliver n).entered = l.entered :=
  entered_leave .delivered n l

/-- A push drops the oldest item of a full queue, and nothing else. -/
theorem dropped_push (cap : Nat) (x : τ) (l : Ledger τ) :
    (l.push cap x).met .dropped
      = l.met .dropped ++ if l.held.length = cap then l.held.take 1 else [] := by
  rw [push, met_enter]
  split
  · rw [met_leave, if_pos rfl]
  · exact (List.append_nil _).symm

@[simp] theorem delivered_push (cap : Nat) (x : τ) (l : Ledger τ) :
    (l.push cap x).met .delivered = l.met .delivered := by
  rw [push, met_enter]
  split
  · rw [met_leave, if_neg (by decide), List.append_nil]
  · rfl

@[simp] theorem dropped_deliver (n : Nat) (l : Ledger τ) :
    (l.deliver n).met .dropped = l.met .dropped := by
  rw [deliver, met_leave, if_neg (by decide), List.append_nil]

theorem delivered_deliver (n : Nat) (l : Ledger τ) :
    (l.deliver n).met .delivered = l.met .delivered ++ l.held.take n := by
  rw [deliver, met_leave, if_pos rfl]

theorem held_push (cap : Nat) (x : τ) (l : Ledger τ) :
    (l.push cap x).held = (if l.held.length = cap then l.held.tail else l.held) ++ [x] := by
  rw [push, enter]
  split
  · rw [leave, List.drop_one]
  · rfl

@[simp] theorem held_deliver (n : Nat) (l : Ledger τ) : (l.deliver n).held = l.held.drop n := rfl

/-- What met a fate did so in the order in which it entered. -/
theorem met_sublist (fate : Fate) (l : Ledger τ) : (l.met fate).Sublist l.entered :=
  (List.filter_sublist.map Prod.snd).trans (List.sublist_append_left _ _)

/-- Whatever entered was delivered, was dropped, or is still held. -/
theorem entered_perm (l : Ledger τ) :
    l.entered.Perm (l.met .dropped ++ l.met .delivered ++ l.held) := by
  have hfate : l.gone.filter (fun p => p.1 = .delivered)
      = l.gone.filter fun p => !decide (p.1 = .dropped) := by
    refine List.filter_congr fun p _ => ?_
    rcases p with ⟨_ | _, x⟩ <;> rfl
  rw [entered, met, met, hfate, ← List.map_append]
  exact ((List.filter_append_perm _ l.gone).symm.map Prod.snd).append_right l.held

end Ledger

end Ocellus
