import Mathlib.Data.Nat.Basic
import Mathlib.Data.BitVec

/-!
# Computations that may panic

Rust checks indices, slice bounds, `unwrap`s and (with overflow checks on)
integer arithmetic at run time; a failed check panics, and with
`panic = "abort"` the whole process is gone. `Checked α` is a computation that
either returns an `α` or stops with the `Fault` of the first failed check.

`Checked.Returns x P` is the total-correctness triple: `x` returns, and its
result satisfies `P`. The rules below (`Returns.bind`, `index_returns`, …) let a
proof walk through a `do` block one statement at a time.
-/

namespace Ocellus

universe u v

/-- The run-time checks whose failure panics. -/
inductive Fault where
  /-- `v[i]` with `i ≥ v.len()`. -/
  | index
  /-- `v[lo..hi]` with `lo > hi` or `hi > v.len()`. -/
  | slice
  /-- `unwrap` of a `None` or an `Err`. -/
  | unwrap
  /-- `+`, `-`, `*` or `<<` out of the range of its integer type. -/
  | overflow
  deriving DecidableEq, Repr

/-- A computation that returns or stops at the first failed check. -/
abbrev Checked (α : Type u) := Except Fault α

namespace Checked

variable {α : Type u} {β : Type u}

/-! ## The checked operations -/

/-- `v[i]`. -/
def index (v : List α) (i : Nat) : Checked α :=
  match v[i]? with
  | some a => .ok a
  | none => .error .index

/-- `v[lo..]`. -/
def sliceFrom (v : List α) (lo : Nat) : Checked (List α) :=
  if lo ≤ v.length then .ok (v.drop lo) else .error .slice

/-- `v[lo..hi]`. -/
def slice (v : List α) (lo hi : Nat) : Checked (List α) :=
  if lo ≤ hi ∧ hi ≤ v.length then .ok ((v.drop lo).take (hi - lo)) else .error .slice

/-- `o.unwrap()`. -/
def unwrap : Option α → Checked α
  | some a => .ok a
  | none => .error .unwrap

/-- `a + b` in an unsigned type of `w` bits. -/
def add (w a b : Nat) : Checked Nat :=
  if a + b < 2 ^ w then .ok (a + b) else .error .overflow

/-- `if p { a += b }` in an unsigned type of `w` bits. -/
def addIf (w : Nat) (p : Bool) (a b : Nat) : Checked Nat :=
  if p then add w a b else .ok a

/-- `a - b` in an unsigned type. -/
def sub (a b : Nat) : Checked Nat :=
  if b ≤ a then .ok (a - b) else .error .overflow

/-- `a * b` in an unsigned type of `w` bits. -/
def mul (w a b : Nat) : Checked Nat :=
  if a * b < 2 ^ w then .ok (a * b) else .error .overflow

/-- `a << k` in an unsigned type of `w` bits. -/
def shl {w : Nat} (a : BitVec w) (k : Nat) : Checked (BitVec w) :=
  if k < w then .ok (a <<< k) else .error .overflow

/-! ## Inversion: what a computation that returned must have done -/

theorem bind_eq_ok {x : Checked α} {f : α → Checked β} {b : β} :
    (x >>= f) = .ok b ↔ ∃ a, x = .ok a ∧ f a = .ok b := by
  constructor
  · intro h
    cases x with
    | error e => cases h
    | ok a => exact ⟨a, rfl, h⟩
  · rintro ⟨a, rfl, hf⟩
    exact hf

@[simp] theorem ok_bind (a : α) (f : α → Checked β) :
    (Except.ok a >>= f : Checked β) = f a := rfl

@[simp] theorem error_bind (e : Fault) (f : α → Checked β) :
    (Except.error e >>= f : Checked β) = .error e := rfl

@[simp] theorem pure_eq_ok (a : α) : (pure a : Checked α) = .ok a := rfl

/-! ## Evaluation under the guards -/

theorem index_of_lt {v : List α} {i : Nat} (h : i < v.length) :
    index v i = .ok v[i] := by
  simp [index, h]

theorem index_eq_getD {v : List α} {i : Nat} (h : i < v.length) (d : α) :
    index v i = .ok (v.getD i d) := by
  rw [index_of_lt h, List.getD_eq_getElem?_getD, List.getElem?_eq_getElem h, Option.getD_some]

@[simp] theorem index_cons_zero (a : α) (v : List α) : index (a :: v) 0 = .ok a := rfl

@[simp] theorem index_cons_succ (a : α) (v : List α) (i : Nat) :
    index (a :: v) (i + 1) = index v i := rfl

/-- The element behind a prefix. -/
theorem index_append_cons (pre : List α) (a : α) (rest : List α) :
    index (pre ++ a :: rest) pre.length = .ok a := by
  rw [index_of_lt (by simp)]
  simp

theorem sliceFrom_of_le {v : List α} {lo : Nat} (h : lo ≤ v.length) :
    sliceFrom v lo = .ok (v.drop lo) := if_pos h

theorem slice_of_le {v : List α} {lo hi : Nat} (h : lo ≤ hi) (h' : hi ≤ v.length) :
    slice v lo hi = .ok ((v.drop lo).take (hi - lo)) := if_pos ⟨h, h'⟩

theorem add_of_lt {w a b : Nat} (h : a + b < 2 ^ w) : add w a b = .ok (a + b) := if_pos h

theorem mul_of_lt {w a b : Nat} (h : a * b < 2 ^ w) : mul w a b = .ok (a * b) := if_pos h

theorem add_eq_ok {w a b c : Nat} (h : add w a b = .ok c) : c = a + b := by
  unfold add at h
  split at h
  · exact (Except.ok.inj h).symm
  · cases h

theorem mul_eq_ok {w a b c : Nat} (h : mul w a b = .ok c) : c = a * b := by
  unfold mul at h
  split at h
  · exact (Except.ok.inj h).symm
  · cases h

theorem addIf_eq_ok {w a b c : Nat} {p : Bool} (h : addIf w p a b = .ok c) :
    c = a + if p then b else 0 := by
  cases p with
  | true => exact add_eq_ok h
  | false => exact (Except.ok.inj h).symm

theorem shl_of_lt {w : Nat} {a : BitVec w} {k : Nat} (h : k < w) :
    shl a k = .ok (a <<< k) := if_pos h

/-- A traversal none of whose calls fails. -/
theorem mapM_eq_ok {f : α → Checked β} {g : α → β} {l : List α}
    (h : ∀ a ∈ l, f a = .ok (g a)) : l.mapM f = .ok (l.map g) := by
  induction l with
  | nil => rfl
  | cons a l ih =>
    have hrest := ih fun x hx => h x (List.mem_cons_of_mem a hx)
    rw [List.mapM_cons, h a (List.mem_cons_self ..), hrest]
    rfl

/-! ## Total-correctness triples -/

/-- `x` returns, and what it returns satisfies `P`. -/
def Returns (x : Checked α) (P : α → Prop) : Prop :=
  ∃ a, x = .ok a ∧ P a

instance (x : Checked α) (P : α → Prop) [DecidablePred P] : Decidable (Returns x P) :=
  match x with
  | .ok a => decidable_of_iff (P a) ⟨fun h => ⟨a, rfl, h⟩, fun ⟨_, h, hP⟩ => Except.ok.inj h ▸ hP⟩
  | .error _ => .isFalse fun ⟨_, h, _⟩ => nomatch h

namespace Returns

variable {x : Checked α} {P Q : α → Prop}

theorem ok {a : α} (h : P a) : Returns (.ok a) P := ⟨a, rfl, h⟩

theorem mono (h : Returns x P) (hPQ : ∀ a, P a → Q a) : Returns x Q := by
  obtain ⟨a, hx, ha⟩ := h
  exact ⟨a, hx, hPQ a ha⟩

/-- The rule of sequencing. -/
theorem bind {f : α → Checked β} {R : β → Prop} (hx : Returns x P)
    (hf : ∀ a, P a → Returns (f a) R) : Returns (x >>= f) R := by
  obtain ⟨a, rfl, ha⟩ := hx
  exact hf a ha

end Returns

theorem index_returns {v : List α} {i : Nat} (h : i < v.length) :
    Returns (index v i) fun _ => True :=
  ⟨v[i], index_of_lt h, trivial⟩

theorem slice_returns {v : List α} {lo hi : Nat} (h : lo ≤ hi) (h' : hi ≤ v.length) :
    Returns (slice v lo hi) fun s => s.length = hi - lo := by
  have hlen : ((v.drop lo).take (hi - lo)).length = hi - lo := by
    rw [List.length_take, List.length_drop]
    omega
  exact ⟨_, slice_of_le h h', hlen⟩

theorem add_returns {w a b : Nat} (h : a + b < 2 ^ w) :
    Returns (add w a b) fun c => c = a + b :=
  ⟨a + b, add_of_lt h, rfl⟩

theorem mul_returns {w a b : Nat} (h : a * b < 2 ^ w) :
    Returns (mul w a b) fun c => c = a * b :=
  ⟨a * b, mul_of_lt h, rfl⟩

theorem sliceFrom_returns {v : List α} {lo : Nat} (h : lo ≤ v.length) :
    Returns (sliceFrom v lo) fun s => s = v.drop lo :=
  ⟨v.drop lo, sliceFrom_of_le h, rfl⟩

/-! Exactly when a computation returns. -/

theorem returns_bind_iff {x : Checked α} {f : α → Checked β} {R : β → Prop} :
    Returns (x >>= f) R ↔ Returns x fun a => Returns (f a) R := by
  constructor
  · rintro ⟨b, h, hb⟩
    obtain ⟨a, ha, hf⟩ := bind_eq_ok.mp h
    exact ⟨a, ha, b, hf, hb⟩
  · exact fun h => h.bind fun _ hf => hf

theorem add_returns_iff {w a b : Nat} : Returns (add w a b) (fun _ => True) ↔ a + b < 2 ^ w := by
  constructor
  · rintro ⟨c, h, -⟩
    unfold add at h
    split at h
    · assumption
    · cases h
  · exact fun h => (add_returns h).mono fun _ _ => trivial

theorem addIf_returns_iff {w a b : Nat} {p : Bool} :
    Returns (addIf w p a b) (fun _ => True) ↔ (p = true → a + b < 2 ^ w) := by
  cases p with
  | true => exact add_returns_iff.trans ⟨fun h _ => h, fun h => h rfl⟩
  | false => exact iff_of_true (.ok trivial) nofun

theorem addIf_returns {w a b : Nat} (p : Bool) (h : a + b < 2 ^ w) :
    Returns (addIf w p a b) fun c => c = a + if p then b else 0 := by
  cases p with
  | true => exact add_returns h
  | false => exact .ok rfl

end Checked

end Ocellus
