import Mathlib.Algebra.Order.Ring.Rat

/-!
# Floating-point scores, taken exactly

`F32` has one NaN and the rationals: arithmetic on finite values is exact, and
every operation and comparison treats NaN as IEEE 754 does. Rounding is the only
thing the model leaves out; the values that go through it here are small sums of
small multiples of 5, which an `f32` represents exactly.
-/

namespace Ocellus

/-- An `f32`: NaN, or a finite value. -/
inductive F32 where
  | nan
  | fin (q : ℚ)
  deriving DecidableEq

namespace F32

def add : F32 → F32 → F32
  | fin a, fin b => fin (a + b)
  | _, _ => nan

instance : Add F32 := ⟨add⟩

/-- `a.min(b)`: the other argument when one is NaN. -/
def min : F32 → F32 → F32
  | fin a, fin b => if a ≤ b then fin a else fin b
  | nan, b => b
  | a, nan => a

/-- `a <= b`, false when either side is NaN. -/
def le : F32 → F32 → Bool
  | fin a, fin b => decide (a ≤ b)
  | _, _ => false

/-- `a < b`, false when either side is NaN. -/
def lt : F32 → F32 → Bool
  | fin a, fin b => decide (a < b)
  | _, _ => false

instance : LE F32 := ⟨fun a b => le a b = true⟩
instance : LT F32 := ⟨fun a b => lt a b = true⟩
instance (a b : F32) : Decidable (a ≤ b) := inferInstanceAs (Decidable (le a b = true))
instance (a b : F32) : Decidable (a < b) := inferInstanceAs (Decidable (lt a b = true))

/-- `a.partial_cmp(&b)`: `None` exactly when one side is NaN. -/
def partialCmp : F32 → F32 → Option Ordering
  | fin a, fin b => some (if a < b then .lt else if a = b then .eq else .gt)
  | _, _ => none

/-- `iter.sum()`. -/
def sum (l : List F32) : F32 := l.foldl (· + ·) (fin 0)

@[simp] theorem fin_add (a b : ℚ) : fin a + fin b = fin (a + b) := rfl

@[simp] theorem fin_le {a b : ℚ} : fin a ≤ fin b ↔ a ≤ b := decide_eq_true_iff

@[simp] theorem fin_lt {a b : ℚ} : fin a < fin b ↔ a < b := decide_eq_true_iff

theorem min_fin (a b : ℚ) : F32.min (fin a) (fin b) = fin (a ⊓ b) := by
  show (if a ≤ b then fin a else fin b) = _
  rw [min_def]
  split <;> rfl

/-- `a` is not NaN. -/
def IsFin (a : F32) : Prop := ∃ q, a = fin q

end F32

end Ocellus
