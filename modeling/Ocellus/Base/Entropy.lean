import Mathlib.Analysis.SpecialFunctions.Log.Base

/-!
# Shannon entropy of a table of counts

The entropy of an empirical distribution is a sum of logarithms, but comparing
it with a rational threshold needs none: `Exceeds` is a comparison of natural
numbers, and `exceeds_iff` says that it is the comparison of the entropy.
-/

namespace Ocellus

namespace Entropy

/-- The entropy, in bits per symbol, of symbols that were counted. -/
noncomputable def bits (counts : List Nat) : ℝ :=
  ((counts.filter (0 < ·)).map fun c : Nat =>
    -((c : ℝ) / counts.sum) * Real.logb 2 ((c : ℝ) / counts.sum)).sum

/-- The entropy exceeds `a / b` bits: `2 ^ (a n) * ∏ c ^ (b c) < n ^ (b n)` for
the `n` symbols counted. -/
def Exceeds (a b : Nat) (counts : List Nat) : Prop :=
  2 ^ (a * counts.sum) * (counts.map fun c => c ^ (b * c)).prod < counts.sum ^ (b * counts.sum)

instance (a b : Nat) (counts : List Nat) : Decidable (Exceeds a b counts) :=
  inferInstanceAs (Decidable (_ < _))

theorem prod_pow_pos (b : Nat) (counts : List Nat) :
    0 < (counts.map fun c => c ^ (b * c)).prod := by
  induction counts with
  | nil => exact Nat.one_pos
  | cons c counts ih =>
    rw [List.map_cons, List.prod_cons]
    refine Nat.mul_pos ?_ ih
    cases c with
    | zero => simp
    | succ c => exact Nat.pow_pos (Nat.succ_pos c)

/-- Where nothing was counted, nothing is exceeded. -/
theorem not_exceeds_of_sum_eq_zero {counts : List Nat} (a b : Nat) (h : counts.sum = 0) :
    ¬ Exceeds a b counts := by
  have hprod := prod_pow_pos b counts
  unfold Exceeds
  rw [h]
  simp only [Nat.mul_zero, Nat.pow_zero, Nat.one_mul]
  omega

/-- The logarithm of the product is the sum of the logarithms. -/
theorem logb_prod_pow (b : Nat) (counts : List Nat) :
    Real.logb 2 ((counts.map fun c => c ^ (b * c)).prod : ℕ)
      = b * (counts.map fun c : Nat => (c : ℝ) * Real.logb 2 c).sum := by
  induction counts with
  | nil => simp
  | cons c counts ih =>
    have hc : ((c ^ (b * c) : ℕ) : ℝ) ≠ 0 := by
      cases c with
      | zero => simp
      | succ c => positivity
    have hrest : (((counts.map fun c => c ^ (b * c)).prod : ℕ) : ℝ) ≠ 0 :=
      Nat.cast_ne_zero.mpr (prod_pow_pos b counts).ne'
    rw [List.map_cons, List.prod_cons, Nat.cast_mul, Real.logb_mul hc hrest, ih, Nat.cast_pow,
      Real.logb_pow, List.map_cons, List.sum_cons]
    push_cast
    ring

/-- The entropy, with the division by the number of symbols taken out. -/
theorem sum_mul_bits {counts : List Nat} (hn : 0 < counts.sum) :
    (counts.sum : ℝ) * bits counts
      = counts.sum * Real.logb 2 counts.sum
        - (counts.map fun c : Nat => (c : ℝ) * Real.logb 2 c).sum := by
  have hterms : ∀ (n : Nat) (l : List Nat), 0 < n →
      (n : ℝ) * ((l.filter (0 < ·)).map fun c : Nat =>
          -((c : ℝ) / n) * Real.logb 2 ((c : ℝ) / n)).sum
        = l.sum * Real.logb 2 n - (l.map fun c : Nat => (c : ℝ) * Real.logb 2 c).sum := by
    intro n l hn
    have hn' : (n : ℝ) ≠ 0 := Nat.cast_ne_zero.mpr hn.ne'
    induction l with
    | nil => simp
    | cons c l ih =>
      cases c with
      | zero => simpa using ih
      | succ c =>
        have hc : ((c + 1 : ℕ) : ℝ) ≠ 0 := Nat.cast_ne_zero.mpr (Nat.succ_ne_zero c)
        rw [List.filter_cons_of_pos (by simp), List.map_cons, List.sum_cons, mul_add, ih,
          Real.logb_div hc hn', List.sum_cons, List.map_cons, List.sum_cons]
        field_simp
        push_cast
        ring
  exact hterms counts.sum counts hn

/-- **`Exceeds` compares the entropy**. -/
theorem exceeds_iff {a b : Nat} (hb : 0 < b) (counts : List Nat) :
    Exceeds a b counts ↔ (a : ℝ) / b < bits counts := by
  have hb' : (0 : ℝ) < b := Nat.cast_pos.mpr hb
  rcases Nat.eq_zero_or_pos counts.sum with hzero | hpos
  · -- nothing was counted: the entropy is 0
    have hall : ∀ c ∈ counts, c = 0 := List.sum_eq_zero_iff.mp hzero
    have hnone : counts.filter (0 < ·) = [] := by
      refine List.filter_eq_nil_iff.mpr fun c hc => ?_
      simp [hall c hc]
    have hbits : bits counts = 0 := by
      unfold bits
      rw [hnone]
      rfl
    rw [hbits]
    exact iff_of_false (not_exceeds_of_sum_eq_zero a b hzero) (not_lt.mpr (by positivity))
  · have hn : (0 : ℝ) < counts.sum := Nat.cast_pos.mpr hpos
    have hprod : (0 : ℝ) < ((counts.map fun c => c ^ (b * c)).prod : ℕ) :=
      Nat.cast_pos.mpr (prod_pow_pos b counts)
    have hbits := sum_mul_bits hpos
    calc Exceeds a b counts
        ↔ (2 : ℝ) ^ (a * counts.sum) * ((counts.map fun c => c ^ (b * c)).prod : ℕ)
            < (counts.sum : ℝ) ^ (b * counts.sum) := by
          unfold Exceeds
          exact_mod_cast Iff.rfl
      _ ↔ Real.logb 2 ((2 : ℝ) ^ (a * counts.sum) * ((counts.map fun c => c ^ (b * c)).prod : ℕ))
            < Real.logb 2 ((counts.sum : ℝ) ^ (b * counts.sum)) :=
          (Real.logb_lt_logb_iff one_lt_two (by positivity) (by positivity)).symm
      _ ↔ (a : ℝ) * counts.sum < b * (counts.sum * bits counts) := by
          rw [Real.logb_mul (by positivity) hprod.ne', Real.logb_pow, Real.logb_pow,
            Real.logb_self_eq_one one_lt_two, logb_prod_pow, hbits]
          push_cast
          constructor <;> intro h <;> linarith
      _ ↔ (a : ℝ) / b < bits counts := by
          have hcomm : (b : ℝ) * (counts.sum * bits counts) = bits counts * b * counts.sum := by ring
          rw [hcomm, mul_lt_mul_iff_left₀ hn, div_lt_iff₀ hb']

end Entropy

end Ocellus
