import Ocellus.Base.Table

/-!
# Swept tables

A table whose values a sweep may drop once they are stale, next to the same
table left alone. `SweptTable Valid Stale c T T'` says that at time `c` the two
agree on every key, except that `T` may lack a value of `T'` that is stale. The
values of `T'` are all `Valid` at that time, whatever invariant the proof needs.

A user of the table who creates a missing value on demand sees either the same
value in both, or a fresh one in `T` and a stale one in `T'` (`getD_cases`).
-/

namespace Ocellus

universe u v

variable {κ : Type u} {ν : Type v} {Valid Stale : Nat → ν → Prop}

/-- A slot of a swept table, next to that slot of the table left alone. -/
inductive SweptSlot (Valid Stale : Nat → ν → Prop) (c : Nat) :
    Option ν → Option ν → Prop where
  | empty : SweptSlot Valid Stale c none none
  | kept {x : ν} : Valid c x → SweptSlot Valid Stale c (some x) (some x)
  | dropped {x : ν} : Valid c x → Stale c x → SweptSlot Valid Stale c none (some x)

namespace SweptSlot

variable {c t : Nat} {o o' : Option ν}

theorem later (h : SweptSlot Valid Stale c o o') (hvalid : ∀ x, Valid c x → Valid t x)
    (hstale : ∀ x, Stale c x → Stale t x) : SweptSlot Valid Stale t o o' := by
  cases h with
  | empty => exact .empty
  | kept hx => exact .kept (hvalid _ hx)
  | dropped hx hold => exact .dropped (hvalid _ hx) (hstale _ hold)

/-- A sweep that keeps values or drops stale ones. -/
theorem sweep (h : SweptSlot Valid Stale c o o') {f : ν → Option ν}
    (hf : ∀ x, f x = some x ∨ (f x = none ∧ Stale c x)) :
    SweptSlot Valid Stale c (o.bind f) o' := by
  cases h with
  | empty => exact .empty
  | @kept x hx =>
    rcases hf x with hkeep | ⟨hdrop, hold⟩
    · rw [Option.bind_some, hkeep]
      exact .kept hx
    · rw [Option.bind_some, hdrop]
      exact .dropped hx hold
  | dropped hx hold => exact .dropped hx hold

/-- What a user who creates a missing value on demand finds in the two slots. -/
theorem getD_cases (h : SweptSlot Valid Stale c o o') (fresh : ν) :
    o.getD fresh = o'.getD fresh ∨
      (o.getD fresh = fresh ∧ Valid c (o'.getD fresh) ∧ Stale c (o'.getD fresh)) := by
  cases h with
  | empty => exact .inl rfl
  | kept hx => exact .inl rfl
  | dropped hx hold => exact .inr ⟨rfl, hx, hold⟩

/-- The value found in the slot left alone is valid if a fresh one is. -/
theorem valid_getD (h : SweptSlot Valid Stale c o o') {fresh : ν} (hfresh : Valid c fresh) :
    Valid c (o'.getD fresh) := by
  cases h with
  | empty => exact hfresh
  | kept hx => exact hx
  | dropped hx hold => exact hx

end SweptSlot

variable [DecidableEq κ]

/-- A swept table, next to the table left alone. -/
def SweptTable (Valid Stale : Nat → ν → Prop) (c : Nat) (T T' : Table κ ν) : Prop :=
  ∀ k, SweptSlot Valid Stale c (T.lookup k) (T'.lookup k)

namespace SweptTable

variable {c t : Nat} {T T' : Table κ ν}

theorem new (c : Nat) : SweptTable Valid Stale c (∅ : Table κ ν) ∅ := fun _ => .empty

theorem later (h : SweptTable Valid Stale c T T') (hvalid : ∀ x, Valid c x → Valid t x)
    (hstale : ∀ x, Stale c x → Stale t x) : SweptTable Valid Stale t T T' :=
  fun k => (h k).later hvalid hstale

theorem retain (h : SweptTable Valid Stale c T T') {f : κ → ν → Option ν}
    (hf : ∀ k x, f k x = some x ∨ (f k x = none ∧ Stale c x)) :
    SweptTable Valid Stale c (T.retain f) T' := by
  intro k
  rw [Table.lookup_retain]
  exact (h k).sweep (hf k)

/-- Writing one valid value to both tables. -/
theorem insert (h : SweptTable Valid Stale c T T') (k : κ) {x : ν} (hx : Valid c x) :
    SweptTable Valid Stale c (T.insert k x) (T'.insert k x) := by
  intro k'
  rw [Table.lookup_insert_eq, Table.lookup_insert_eq]
  by_cases hk : k' = k
  · rw [if_pos hk, if_pos hk]
    exact .kept hx
  · rw [if_neg hk, if_neg hk]
    exact h k'

end SweptTable

end Ocellus
