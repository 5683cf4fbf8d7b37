import Ocellus.Base.Transition
import Mathlib.Algebra.BigOperators.Group.Finset.Basic
import Mathlib.Algebra.Order.Group.Multiset
import Mathlib.Data.Fintype.Basic

/-!
# A pool of workers on a shared state

A batch of tasks is handed to `n` workers. A task is a sequence of operations on
the shared state, each of them atomic; a worker that is idle takes any task that
is left, and the operations of different workers interleave in any way.

- `Finishes.exists_perm`: whatever the schedule, what was carried out is all the
  operations of the batch, each once, in some order.
- `finishes_of_perm`: the tasks one after the other, in any order, are a schedule.
-/

namespace Ocellus

universe u

variable {τ ω σ : Type u}

/-- Operations carried out one after the other. -/
inductive Execs (exec : ω → σ → σ → Prop) : List ω → σ → σ → Prop where
  | nil {s : σ} : Execs exec [] s s
  | cons {o : ω} {os : List ω} {s s' s'' : σ} :
      exec o s s' → Execs exec os s' s'' → Execs exec (o :: os) s s''

namespace Execs

variable {exec : ω → σ → σ → Prop} {os os' : List ω} {s s' s'' : σ}

theorem append (h : Execs exec os s s') (h' : Execs exec os' s' s'') :
    Execs exec (os ++ os') s s'' := by
  induction h with
  | nil => exact h'
  | cons hexec _ ih => exact .cons hexec (ih h')

theorem append_inv (h : Execs exec (os ++ os') s s'') :
    ∃ s', Execs exec os s s' ∧ Execs exec os' s' s'' := by
  induction os generalizing s with
  | nil => exact ⟨s, .nil, h⟩
  | cons o os ih =>
    cases h with
    | cons hexec hrest =>
      obtain ⟨s', hleft, hright⟩ := ih hrest
      exact ⟨s', .cons hexec hleft, hright⟩

theorem concat {o : ω} (h : Execs exec os s s') (hexec : exec o s' s'') :
    Execs exec (os ++ [o]) s s'' := h.append (.cons hexec .nil)

/-- Operations that never block can be carried out. -/
theorem exists_of_total (htotal : ∀ o s, ∃ s', exec o s s') (os : List ω) (s : σ) :
    ∃ s', Execs exec os s s' := by
  induction os generalizing s with
  | nil => exact ⟨s, .nil⟩
  | cons o os ih =>
    obtain ⟨s', hexec⟩ := htotal o s
    obtain ⟨s'', hrest⟩ := ih s'
    exact ⟨s'', .cons hexec hrest⟩

end Execs

namespace Workers

variable {n : Nat} {ops : τ → List ω} {exec : ω → σ → σ → Prop}

/-- The tasks that are left, what is left of the task of each worker, and the
shared state. -/
structure Pool (n : Nat) (τ ω σ : Type u) : Type u where
  waiting : List τ
  running : Fin n → List ω
  shared : σ

inductive Step (ops : τ → List ω) (exec : ω → σ → σ → Prop) : Pool n τ ω σ → Pool n τ ω σ → Prop where
  /-- An idle worker takes a task. -/
  | take {s : Pool n τ ω σ} {i : Fin n} {a : τ} {pre post : List τ} :
      s.running i = [] → s.waiting = pre ++ a :: post →
      Step ops exec s { s with
        waiting := pre ++ post, running := Function.update s.running i (ops a) }
  /-- A worker carries out the next operation of its task. -/
  | exec {s : Pool n τ ω σ} {i : Fin n} {o : ω} {os : List ω} {shared : σ} :
      s.running i = o :: os → exec o s.shared shared →
      Step ops exec s { s with running := Function.update s.running i os, shared }

/-- Nobody has a task yet. -/
def begin (n : Nat) (tasks : List τ) (s : σ) : Pool n τ ω σ := ⟨tasks, fun _ => [], s⟩

/-- Some schedule of the batch leads from `s` to `s'`. -/
def Finishes (n : Nat) (ops : τ → List ω) (exec : ω → σ → σ → Prop) (tasks : List τ) (s s' : σ) :
    Prop :=
  Relation.ReflTransGen (Step ops exec) (begin n tasks s) (begin n [] s')

/-! ## Every operation is carried out once -/

/-- What is still to be carried out. -/
def Pool.rest (ops : τ → List ω) (s : Pool n τ ω σ) : Multiset ω :=
  (s.waiting.flatMap ops : Multiset ω) + ∑ i, (s.running i : Multiset ω)

theorem sum_update (f : Fin n → List ω) (i : Fin n) (l : List ω) :
    (∑ j, (Function.update f i l j : Multiset ω)) + (f i : Multiset ω)
      = (l : Multiset ω) + ∑ j, (f j : Multiset ω) := by
  -- the other workers have what they had
  have hrest : ∑ j ∈ Finset.univ.erase i, (Function.update f i l j : Multiset ω)
      = ∑ j ∈ Finset.univ.erase i, (f j : Multiset ω) := by
    refine Finset.sum_congr rfl fun j hj => ?_
    rw [Function.update_of_ne (Finset.ne_of_mem_erase hj)]
  rw [← Finset.add_sum_erase _ _ (Finset.mem_univ i), hrest, Function.update_self,
    ← Finset.add_sum_erase _ (fun j => (f j : Multiset ω)) (Finset.mem_univ i)]
  ac_rfl

/-- A step carries out at most one operation of those left. -/
theorem Step.rest_eq {s s' : Pool n τ ω σ} (h : Step ops exec s s') :
    (s'.shared = s.shared ∧ s'.rest ops = s.rest ops) ∨
      ∃ o, exec o s.shared s'.shared ∧ s.rest ops = {o} + s'.rest ops := by
  cases h with
  | @take i a pre post hidle hwaiting =>
    have hsum := sum_update s.running i (ops a)
    rw [hidle, Multiset.coe_nil, add_zero] at hsum
    refine .inl ⟨rfl, ?_⟩
    show ((pre ++ post).flatMap ops : Multiset ω) + ∑ j, _ = _
    rw [hsum, Pool.rest, hwaiting]
    simp only [List.flatMap_append, List.flatMap_cons, ← Multiset.coe_add]
    ac_rfl
  | @exec i o os shared hbusy hexec =>
    have hsum := sum_update s.running i os
    rw [hbusy, ← Multiset.cons_coe, ← Multiset.singleton_add] at hsum
    have hsum' : ∑ j, (s.running j : Multiset ω)
        = {o} + ∑ j, (Function.update s.running i os j : Multiset ω) := by
      refine add_left_cancel (a := (os : Multiset ω)) ?_
      rw [← hsum]
      ac_rfl
    refine .inr ⟨o, hexec, ?_⟩
    show (s.waiting.flatMap ops : Multiset ω) + ∑ j, (s.running j : Multiset ω)
      = {o} + ((s.waiting.flatMap ops : Multiset ω) + ∑ j, _)
    rw [hsum']
    ac_rfl

/-- What was carried out so far and what is left is the batch. -/
theorem exists_done {s₀ s : Pool n τ ω σ} (h : Relation.ReflTransGen (Step ops exec) s₀ s) :
    ∃ done, Execs exec done s₀.shared s.shared ∧ s₀.rest ops = (done : Multiset ω) + s.rest ops := by
  induction h with
  | refl => exact ⟨[], .nil, by simp⟩
  | tail _ hstep ih =>
    obtain ⟨done, hdone, hrest⟩ := ih
    rcases hstep.rest_eq with ⟨hshared, heq⟩ | ⟨o, hexec, heq⟩
    · exact ⟨done, hshared ▸ hdone, hrest.trans (by rw [heq])⟩
    · refine ⟨done ++ [o], hdone.concat hexec, ?_⟩
      rw [hrest, heq, ← Multiset.coe_add, Multiset.coe_singleton, add_assoc]

theorem rest_begin (tasks : List τ) (s : σ) :
    (begin n tasks s).rest ops = (tasks.flatMap ops : Multiset ω) := by
  rw [Pool.rest, begin]
  simp

/-- **Every schedule is an order of the operations.** -/
theorem Finishes.exists_perm {tasks : List τ} {s s' : σ} (h : Finishes n ops exec tasks s s') :
    ∃ done, done.Perm (tasks.flatMap ops) ∧ Execs exec done s s' := by
  obtain ⟨done, hdone, hrest⟩ := exists_done h
  rw [rest_begin, rest_begin, List.flatMap_nil, Multiset.coe_nil, add_zero] at hrest
  exact ⟨done, (Multiset.coe_eq_coe.mp hrest).symm, hdone⟩

/-! ## Every order of the tasks is a schedule -/

/-- A worker carries out what is left of its task. -/
theorem exec_all {s : Pool n τ ω σ} {i : Fin n} {shared : σ}
    (h : Execs exec (s.running i) s.shared shared) :
    Relation.ReflTransGen (Step ops exec) s
      { s with running := Function.update s.running i [], shared } := by
  generalize hos : s.running i = os at h
  generalize hshared : s.shared = shared₀ at h
  induction h generalizing s with
  | nil =>
    subst hshared
    rw [← hos, Function.update_eq_self]
  | @cons o os _ s₁ _ hexec _ ih =>
    subst hshared
    have hrest := @ih { s with running := Function.update s.running i os, shared := s₁ }
      (Function.update_self ..) rfl
    refine .head (.exec hos hexec) ?_
    simpa only [Function.update_idem] using hrest

/-- **Every order of the tasks is a schedule**, of a single worker already. -/
theorem finishes_of_perm (i : Fin n) {tasks order : List τ} {s s' : σ} (hperm : order.Perm tasks)
    (h : Execs exec (order.flatMap ops) s s') : Finishes n ops exec tasks s s' := by
  induction order generalizing tasks s with
  | nil =>
    obtain rfl := List.nil_perm.mp hperm
    cases h
    exact .refl
  | cons a order ih =>
    -- worker `i` takes the first task and finishes it before anybody takes the next
    obtain ⟨pre, post, rfl⟩ := List.append_of_mem (hperm.mem_iff.mp (List.mem_cons_self ..))
    obtain ⟨s₁, hfirst, hrest⟩ := Execs.append_inv h
    have hperm' : order.Perm (pre ++ post) :=
      List.Perm.cons_inv (hperm.trans List.perm_middle)
    let taken : Pool n τ ω σ := ⟨pre ++ post, Function.update (fun _ => []) i (ops a), s⟩
    have htake : Step ops exec (begin n (pre ++ a :: post) s) taken := .take rfl rfl
    have hdone : Relation.ReflTransGen (Step ops exec) taken (begin n (pre ++ post) s₁) := by
      have hown : taken.running i = ops a := by simp [taken]
      have hidle : Function.update taken.running i [] = fun _ => [] := by
        funext j
        by_cases hj : j = i <;> simp [taken, hj]
      have hall : Relation.ReflTransGen (Step ops exec) taken
          { taken with running := Function.update taken.running i [], shared := s₁ } :=
        exec_all (hown.symm ▸ hfirst)
      rw [hidle] at hall
      exact hall
    exact .head htake (hdone.trans (ih hperm' hrest))

end Workers

end Ocellus
