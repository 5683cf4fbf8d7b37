import Mathlib.Algebra.Order.Field.Rat
import Mathlib.Tactic.Linarith
import Mathlib.Tactic.Positivity
import Mathlib.Tactic.Ring

/-!
# Clock readings and durations

An `Instant` is the number of nanoseconds since some fixed moment, a `Duration`
a number of nanoseconds. `duration_since` saturates at zero, as subtraction on
`Nat` does.
-/

namespace Ocellus

/-- `Duration::from_secs`. -/
def secs (n : Nat) : Nat := n * 10 ^ 9

/-- `Duration::as_secs`: whole seconds. -/
def asSecs (d : Nat) : Nat := d / 10 ^ 9

/-- `Duration::as_secs_f64`, exactly. -/
def asSecsF64 (d : Nat) : ℚ := d / 10 ^ 9

/-- `later.duration_since(earlier)`; also `earlier.elapsed()` at time `later`. -/
def durationSince (later earlier : Nat) : Nat := later - earlier

theorem asSecsF64_nonneg (d : Nat) : 0 ≤ asSecsF64 d := by
  unfold asSecsF64
  positivity

theorem asSecsF64_mono {d d' : Nat} (h : d ≤ d') : asSecsF64 d ≤ asSecsF64 d' := by
  unfold asSecsF64
  have : (d : ℚ) ≤ d' := by exact_mod_cast h
  gcongr

/-- Elapsed times add up. -/
theorem asSecsF64_sub_add_sub {a b c : Nat} (hab : a ≤ b) (hbc : b ≤ c) :
    asSecsF64 (c - a) = asSecsF64 (b - a) + asSecsF64 (c - b) := by
  unfold asSecsF64
  rw [Nat.cast_sub hab, Nat.cast_sub hbc, Nat.cast_sub (hab.trans hbc)]
  ring

@[simp] theorem asSecsF64_zero : asSecsF64 0 = 0 := by simp [asSecsF64]

@[simp] theorem asSecsF64_secs (n : Nat) : asSecsF64 (secs n) = n := by
  unfold asSecsF64 secs
  push_cast
  exact mul_div_cancel_right₀ (n : ℚ) (by positivity)

/-- Comparing whole seconds is comparing nanoseconds. -/
theorem asSecs_lt_iff {n d : Nat} : asSecs d < n ↔ d < secs n :=
  Nat.div_lt_iff_lt_mul (by positivity)

end Ocellus
