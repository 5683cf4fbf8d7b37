import Ocellus.Base.Clock
import Mathlib.Algebra.Order.Field.Power
import Mathlib.Data.Int.Log
import Mathlib.Data.Rat.Floor

/-!
# Rounding

An operation on floating-point numbers is the exact operation, rounded. `Rounding`
is the rounding of the two formats, as a parameter: `ieee` is that of the code,
to the nearest number of 53 or 24 significant bits, and `exact` leaves every number
as it is. What is proved for every rounding holds for both.

Exponents are unbounded here. The numbers that are rounded lie between `2 ^ -64`
and `2 ^ 74`, or are 0, and both formats reach further.
-/

namespace Ocellus

/-! ## To an integer -/

/-- The nearest integer, and the even one of two that are equally near. -/
def nearestInt (q : ℚ) : ℤ :=
  if q - ⌊q⌋ < 1 / 2 then ⌊q⌋
  else if 1 / 2 < q - ⌊q⌋ then ⌊q⌋ + 1
  else if ⌊q⌋ % 2 = 0 then ⌊q⌋ else ⌊q⌋ + 1

theorem abs_nearestInt_sub_le (q : ℚ) : |(nearestInt q : ℚ) - q| ≤ 1 / 2 := by
  have hfloor := Int.floor_le q
  have hnext := Int.lt_floor_add_one q
  rw [abs_le]
  unfold nearestInt
  split_ifs <;> push_cast <;> constructor <;> linarith

@[simp] theorem nearestInt_intCast (n : ℤ) : nearestInt n = n := by
  simp [nearestInt]

theorem nearestInt_mono {q r : ℚ} (hqr : q ≤ r) : nearestInt q ≤ nearestInt r := by
  have hq := abs_le.mp (abs_nearestInt_sub_le q)
  have hr := abs_le.mp (abs_nearestInt_sub_le r)
  by_contra hlt
  -- rounded apart by more than they can be, unless both are the same tie
  have hlt : (nearestInt r : ℚ) + 1 ≤ nearestInt q := by
    exact_mod_cast Int.lt_iff_add_one_le.mp (not_le.mp hlt)
  obtain rfl : q = r := by linarith
  linarith

/-! ## To a number of significant bits -/

/-- The unit in the last of `p` significant bits of `x`. -/
def ulp (p : Nat) (x : ℚ) : ℚ := 2 ^ (Int.log 2 |x| - (p - 1))

/-- The nearest number of `p` significant bits. -/
def roundTo (p : Nat) (x : ℚ) : ℚ := nearestInt (x / ulp p x) * ulp p x

theorem ulp_pos (p : Nat) (x : ℚ) : 0 < ulp p x := zpow_pos (by norm_num) _

theorem ulp_mul_pow (p : Nat) (x : ℚ) : ulp p x * 2 ^ p = 2 ^ (Int.log 2 |x| + 1) := by
  rw [ulp, ← zpow_natCast, ← zpow_add₀ (by norm_num)]
  congr 1
  ring

/-- What `round` makes of numbers, if it rounds to `p` significant bits. -/
structure IsRounding (p : Nat) (round : ℚ → ℚ) : Prop where
  mono : ∀ x y, 0 ≤ x → x ≤ y → round x ≤ round y
  /-- Whole numbers of no more bits are left as they are. -/
  natCast : ∀ n : Nat, n ≤ 2 ^ p → round n = n
  error : ∀ x, |round x - x| ≤ |x| / 2 ^ p

namespace IsRounding

variable {p : Nat} {round : ℚ → ℚ}

/-- A number that reaches `n` still does once it is rounded. -/
theorem natCast_le (h : IsRounding p round) {n : Nat} (hn : n ≤ 2 ^ p) {x : ℚ} (hx : n ≤ x) :
    n ≤ round x :=
  (h.natCast n hn).ge.trans (h.mono n x n.cast_nonneg hx)

theorem zero (h : IsRounding p round) : round 0 = 0 := by
  simpa using h.natCast 0 (Nat.zero_le _)

theorem nonneg (h : IsRounding p round) {x : ℚ} (hx : 0 ≤ x) : 0 ≤ round x :=
  h.zero.ge.trans (h.mono 0 x le_rfl hx)

/-- Rounding does not take a number far up. -/
theorem le (h : IsRounding p round) {x : ℚ} (hx : 0 ≤ x) : round x ≤ x * (1 + 1 / 2 ^ p) := by
  have herror := (abs_le.mp (h.error x)).2
  rw [abs_of_nonneg hx] at herror
  calc round x ≤ x + x / 2 ^ p := by linarith
    _ = x * (1 + 1 / 2 ^ p) := by ring

end IsRounding

section RoundTo

variable {p : Nat} {x y : ℚ}

/-- The powers of two next to `x` are not passed by rounding it. -/
theorem zpow_le_roundTo (hp : 0 < p) (hx : 0 < x) : 2 ^ Int.log 2 x ≤ roundTo p x := by
  have hulp := ulp_pos p x
  have hgrid : ((2 ^ (p - 1) : ℤ) : ℚ) * ulp p x = 2 ^ Int.log 2 x := by
    push_cast
    rw [ulp, ← zpow_natCast, ← zpow_add₀ (by norm_num), abs_of_pos hx]
    congr 1
    push_cast [Nat.cast_sub hp]
    ring
  have hscaled : ((2 ^ (p - 1) : ℤ) : ℚ) ≤ x / ulp p x := by
    rw [le_div_iff₀ hulp, hgrid]
    exact Int.zpow_log_le_self (by norm_num) hx
  have hround := nearestInt_mono hscaled
  rw [nearestInt_intCast] at hround
  rw [← hgrid, roundTo]
  exact mul_le_mul_of_nonneg_right (by exact_mod_cast hround) hulp.le

theorem roundTo_le_zpow (p : Nat) (hx : 0 < x) : roundTo p x ≤ 2 ^ (Int.log 2 x + 1) := by
  have hulp := ulp_pos p x
  have hgrid : ((2 ^ p : ℤ) : ℚ) * ulp p x = 2 ^ (Int.log 2 x + 1) := by
    push_cast
    rw [mul_comm, ulp_mul_pow, abs_of_pos hx]
  have hscaled : x / ulp p x ≤ ((2 ^ p : ℤ) : ℚ) := by
    rw [div_le_iff₀ hulp, hgrid]
    exact (Int.lt_zpow_succ_log_self (by norm_num) x).le
  have hround := nearestInt_mono hscaled
  rw [nearestInt_intCast] at hround
  rw [← hgrid, roundTo]
  exact mul_le_mul_of_nonneg_right (by exact_mod_cast hround) hulp.le

theorem roundTo_mono (hp : 0 < p) (hx : 0 ≤ x) (hxy : x ≤ y) : roundTo p x ≤ roundTo p y := by
  rcases hx.eq_or_lt with rfl | hx
  · have hscaled : ((0 : ℤ) : ℚ) ≤ y / ulp p y := by
      rw [Int.cast_zero]
      exact div_nonneg hxy (ulp_pos p y).le
    have hround := nearestInt_mono hscaled
    rw [nearestInt_intCast] at hround
    have hzero : roundTo p 0 = 0 := by simp [roundTo, nearestInt]
    rw [hzero]
    exact mul_nonneg (by exact_mod_cast hround) (ulp_pos p y).le
  have hlog := Int.log_mono_right (b := 2) hx hxy
  rcases hlog.eq_or_lt with hlog | hlog
  · -- one unit for both
    have hulp : ulp p x = ulp p y := by
      rw [ulp, ulp, abs_of_pos hx, abs_of_pos (hx.trans_le hxy), hlog]
    have hscaled : x / ulp p y ≤ y / ulp p y := div_le_div_of_nonneg_right hxy (ulp_pos p y).le
    rw [roundTo, roundTo, hulp]
    exact mul_le_mul_of_nonneg_right (by exact_mod_cast nearestInt_mono hscaled) (ulp_pos p y).le
  · -- a power of two between them
    calc roundTo p x ≤ 2 ^ (Int.log 2 x + 1) := roundTo_le_zpow p hx
      _ ≤ 2 ^ Int.log 2 y := zpow_le_zpow_right₀ (by norm_num) (Int.add_one_le_iff.mpr hlog)
      _ ≤ roundTo p y := zpow_le_roundTo hp (hx.trans_le hxy)

theorem roundTo_error (p : Nat) (x : ℚ) : |roundTo p x - x| ≤ |x| / 2 ^ p := by
  have hulp := ulp_pos p x
  rcases eq_or_ne x 0 with rfl | hx
  · simp [roundTo, nearestInt]
  have hunit : ulp p x * 2 ^ p ≤ 2 * |x| := by
    rw [ulp_mul_pow, zpow_add_one₀ (by norm_num), mul_comm]
    exact mul_le_mul_of_nonneg_left (Int.zpow_log_le_self (by norm_num) (abs_pos.mpr hx)) (by norm_num)
  have hscaled : roundTo p x - x = (nearestInt (x / ulp p x) - x / ulp p x) * ulp p x := by
    rw [roundTo, sub_mul, div_mul_cancel₀ x hulp.ne']
  rw [hscaled, abs_mul, abs_of_pos hulp, le_div_iff₀ (by positivity)]
  calc |(nearestInt (x / ulp p x) : ℚ) - x / ulp p x| * ulp p x * 2 ^ p
      ≤ 1 / 2 * ulp p x * 2 ^ p := by
        gcongr
        exact abs_nearestInt_sub_le _
    _ = 1 / 2 * (ulp p x * 2 ^ p) := by ring
    _ ≤ 1 / 2 * (2 * |x|) := by gcongr
    _ = |x| := by ring

theorem roundTo_natCast (hp : 0 < p) {n : Nat} (hn : n ≤ 2 ^ p) : roundTo p n = n := by
  rcases n.eq_zero_or_pos with rfl | hpos
  · simp [roundTo, nearestInt]
  have hulp := ulp_pos p n
  have hunit : ulp p n = 2 ^ ((Nat.log 2 n : ℤ) - (p - 1)) := by
    rw [ulp, Nat.abs_cast, Int.log_natCast]
  -- in units of the last bit the number is whole
  obtain ⟨m, hm⟩ : ∃ m : ℤ, (n : ℚ) / ulp p n = m := by
    have hlog : Nat.log 2 n ≤ p := (Nat.log_mono_right hn).trans (Nat.log_pow (by norm_num) p).le
    rcases hlog.eq_or_lt with hlog | hlog
    · have hfull : n = 2 ^ p := le_antisymm hn (hlog ▸ Nat.pow_log_le_self 2 hpos.ne')
      refine ⟨2 ^ (p - 1), ?_⟩
      rw [hunit, hlog, hfull]
      push_cast
      rw [← zpow_natCast, ← zpow_natCast, ← zpow_sub₀ (by norm_num)]
      congr 1
      push_cast [Nat.cast_sub hp]
      ring
    · refine ⟨n * 2 ^ (p - 1 - Nat.log 2 n), ?_⟩
      have hle : Nat.log 2 n ≤ p - 1 := Nat.le_sub_one_of_lt hlog
      rw [hunit, div_eq_mul_inv, ← zpow_neg]
      push_cast
      rw [← zpow_natCast]
      congr 2
      push_cast [Nat.cast_sub hp, Nat.cast_sub hle]
      ring
  rw [roundTo, hm, nearestInt_intCast, ← hm, div_mul_cancel₀ _ hulp.ne']

theorem roundTo_isRounding (hp : 0 < p) : IsRounding p (roundTo p) where
  mono _ _ := roundTo_mono hp
  natCast _ := roundTo_natCast hp
  error := roundTo_error p

end RoundTo

/-! ## The two formats -/

/-- How results are rounded, to an `f64` and to an `f32`. -/
structure Rounding where
  f64 : ℚ → ℚ
  f32 : ℚ → ℚ
  f64_isRounding : IsRounding 53 f64
  f32_isRounding : IsRounding 24 f32

namespace Rounding

/-- No rounding. -/
def exact : Rounding where
  f64 := id
  f32 := id
  f64_isRounding := ⟨fun _ _ _ h => h, fun _ _ => rfl, fun x => by simp; positivity⟩
  f32_isRounding := ⟨fun _ _ _ h => h, fun _ _ => rfl, fun x => by simp; positivity⟩

/-- Rounding to the nearest, as IEEE 754 has it by default. -/
def ieee : Rounding where
  f64 := roundTo 53
  f32 := roundTo 24
  f64_isRounding := roundTo_isRounding (by decide)
  f32_isRounding := roundTo_isRounding (by decide)

/-- `Duration::as_secs_f64`: the whole seconds and the rest, each as an `f64`, added. -/
def asSecsF64 (fp : Rounding) (d : Nat) : ℚ :=
  fp.f64 (fp.f64 (asSecs d : ℚ) + fp.f64 ((d % 10 ^ 9 : Nat) / 10 ^ 9))

theorem exact_asSecsF64 (d : Nat) : exact.asSecsF64 d = Ocellus.asSecsF64 d := by
  have hsplit : ((10 ^ 9 * (d / 10 ^ 9) + d % 10 ^ 9 : Nat) : ℚ) = d :=
    congrArg Nat.cast (Nat.div_add_mod d (10 ^ 9))
  show ((asSecs d : Nat) : ℚ) + ((d % 10 ^ 9 : Nat) : ℚ) / 10 ^ 9 = d / 10 ^ 9
  rw [asSecs, ← hsplit]
  push_cast
  ring

theorem asSecsF64_nonneg (fp : Rounding) (d : Nat) : 0 ≤ fp.asSecsF64 d :=
  fp.f64_isRounding.nonneg (add_nonneg (fp.f64_isRounding.nonneg (asSecs d).cast_nonneg)
    (fp.f64_isRounding.nonneg (by positivity)))

/-- Whole seconds that have passed are seen, however they are rounded. -/
theorem le_asSecsF64 (fp : Rounding) {n d : Nat} (hn : n ≤ 2 ^ 53) (h : secs n ≤ d) :
    n ≤ fp.asSecsF64 d := by
  have hround := fp.f64_isRounding
  have hwhole : n ≤ asSecs d := (Nat.le_div_iff_mul_le (by norm_num)).mpr h
  have hseconds := hround.natCast_le hn (x := (asSecs d : ℚ)) (by exact_mod_cast hwhole)
  have hrest := hround.nonneg (x := ((d % 10 ^ 9 : Nat) : ℚ) / 10 ^ 9) (by positivity)
  exact hround.natCast_le hn (le_add_of_le_of_nonneg hseconds hrest)

/-- And a second is not seen before it has passed. -/
theorem one_le_asSecsF64_iff (fp : Rounding) {d : Nat} : 1 ≤ fp.asSecsF64 d ↔ secs 1 ≤ d := by
  refine ⟨fun h => ?_, fun h => ?_⟩
  · have hround := fp.f64_isRounding
    by_contra hlt
    have hlt : d < 10 ^ 9 := by simpa [secs] using hlt
    have hwhole : ((asSecs d : Nat) : ℚ) = 0 := by
      rw [asSecs, Nat.div_eq_of_lt hlt, Nat.cast_zero]
    have hd : (d : ℚ) ≤ 10 ^ 9 - 1 := by
      have hnext : ((d + 1 : Nat) : ℚ) ≤ ((10 ^ 9 : Nat) : ℚ) := Nat.cast_le.mpr hlt
      push_cast at hnext
      linarith
    rw [asSecsF64, hwhole, hround.zero, zero_add, Nat.mod_eq_of_lt hlt] at h
    -- rounded twice, it still is less than a second
    have hfirst := hround.le (x := (d : ℚ) / 10 ^ 9) (by positivity)
    have hsecond := hround.le (hround.nonneg (x := (d : ℚ) / 10 ^ 9) (by positivity))
    linarith
  · exact_mod_cast fp.le_asSecsF64 (by norm_num) h

/-- A tenth is no `f64`. -/
example : ieee.f64 (1 / 10) ≠ 1 / 10 ∧ ieee.f64 (1 / 2) = 1 / 2 := by
  decide +kernel

end Rounding

end Ocellus
