import Mathlib.Algebra.Order.AbsoluteValue.Basic
import Mathlib.Algebra.Order.Ring.Rat
import Mathlib.Data.Int.Log
import Mathlib.Data.Rat.Floor
import Mathlib.Tactic.FieldSimp
import Mathlib.Tactic.GCongr
import Mathlib.Tactic.Linarith
import Mathlib.Tactic.Positivity
import Mathlib.Tactic.Ring

/-!
# Rounding to a significand

Rationals rounded to a number of binary digits, with an unbounded exponent, and the relative
errors of computations that round after every operation. Overflow and subnormal numbers are
not modelled here, and a tie may go either way.
-/

namespace IperfRuntime.SignificandRounding

/-- A rounding to a nearest integer, with any rule for ties. -/
structure NearestInteger where
  /-- The integer that is chosen. -/
  toInt : ℚ → ℤ
  /-- It is one of the nearest. -/
  near : ∀ y, |(toInt y : ℚ) - y| ≤ 1 / 2

/-- The exponent of the last of `p` binary digits. -/
def unitExponent (p : ℕ) (q : ℚ) : ℤ := Int.log 2 |q| + 1 - p

/-- The value with `p` binary digits that stands for a rational. -/
def rounded (N : NearestInteger) (p : ℕ) (q : ℚ) : ℚ :=
  N.toInt (q / 2 ^ unitExponent p q) * 2 ^ unitExponent p q

/-- `x` is `y` up to a relative error. -/
def Within (δ x y : ℚ) : Prop := |x - y| ≤ δ * |y|

/-- The relative error of `k` operations that err by at most `u` each. -/
def spread (u : ℚ) (k : ℕ) : ℚ := (1 + u) ^ k - 1

/-- An integer is its own nearest integer. -/
theorem NearestInteger.toInt_intCast (N : NearestInteger) (n : ℤ) : N.toInt n = n := by
  have hnear : |((N.toInt n - n : ℤ) : ℚ)| ≤ 1 / 2 := by
    rw [Int.cast_sub]
    exact N.near n
  have hlt : |N.toInt n - n| < 1 := by
    have hcast : ((|N.toInt n - n| : ℤ) : ℚ) < 1 := by
      rw [Int.cast_abs]
      linarith
    exact_mod_cast hcast
  rw [Int.abs_lt_one_iff] at hlt
  omega

/-- Multiples of the unit are not changed. -/
theorem rounded_grid (N : NearestInteger) {p : ℕ} {q : ℚ} {m k : ℤ} (hq : q = m * 2 ^ k)
    (hk : unitExponent p q ≤ k) : rounded N p q = q := by
  have hunit : (2 : ℚ) ^ unitExponent p q ≠ 0 := zpow_ne_zero _ (by norm_num)
  obtain ⟨d, hd⟩ := Int.eq_ofNat_of_zero_le (sub_nonneg.mpr hk)
  have hquotient : q / 2 ^ unitExponent p q = ((m * 2 ^ d : ℤ) : ℚ) := by
    have hsplit : k = d + unitExponent p q := by omega
    rw [div_eq_iff hunit, Int.cast_mul, Int.cast_pow, Int.cast_ofNat, mul_assoc, ← zpow_natCast,
      ← zpow_add₀ (by norm_num), ← hsplit]
    exact hq
  unfold rounded
  rw [hquotient, N.toInt_intCast, ← hquotient, div_mul_cancel₀ _ hunit]

/-- Zero is rounded to itself. -/
theorem rounded_zero (N : NearestInteger) (p : ℕ) : rounded N p 0 = 0 := by
  unfold rounded
  have hzero := N.toInt_intCast 0
  rw [Int.cast_zero] at hzero
  rw [zero_div, hzero, Int.cast_zero, zero_mul]

/-- An integer that `p` binary digits can hold is kept, as it is a multiple of the unit that
it is rounded to. -/
theorem rounded_intCast (N : NearestInteger) {p : ℕ} (hp : 0 < p) {n : ℤ} (h : |n| ≤ 2 ^ p) :
    rounded N p n = n := by
  rcases eq_or_ne n 0 with rfl | hn
  · rw [Int.cast_zero, rounded_zero]
  have hpos : (0 : ℚ) < |(n : ℚ)| := abs_pos.mpr (Int.cast_ne_zero.mpr hn)
  rcases h.lt_or_eq with hlt | heq
  · have hlog : Int.log 2 |(n : ℚ)| < p := by
      refine (Int.lt_zpow_iff_log_lt (by norm_num) hpos).mp ?_
      rw [zpow_natCast]
      exact_mod_cast hlt
    refine rounded_grid N (k := 0) (by rw [zpow_zero, mul_one]) ?_
    unfold unitExponent
    omega
  · have habs : |(n : ℚ)| = (2 : ℚ) ^ (p : ℤ) := by
      rw [zpow_natCast]
      exact_mod_cast heq
    have hunit : unitExponent p (n : ℚ) = 1 := by
      have hlog := Int.log_zpow (R := ℚ) (b := 2) (by norm_num) (p : ℤ)
      rw [Nat.cast_ofNat] at hlog
      unfold unitExponent
      rw [habs, hlog]
      omega
    have heven : 2 ∣ n := by
      rw [← dvd_abs, heq]
      exact dvd_pow_self 2 (by omega)
    refine rounded_grid N (m := n / 2) (k := 1) ?_ (by rw [hunit])
    rw [zpow_one]
    exact_mod_cast (Int.ediv_mul_cancel heven).symm

/-- Rounding errs by half a unit of the last digit at most, whichever way a tie goes. -/
theorem rounded_within (N : NearestInteger) (p : ℕ) (q : ℚ) :
    Within (1 / 2 ^ p) (rounded N p q) q := by
  unfold Within
  rcases eq_or_ne q 0 with rfl | hq
  · rw [rounded_zero, sub_zero, abs_zero, mul_zero]
  have hpos : 0 < |q| := abs_pos.mpr hq
  have hunit : (0 : ℚ) < 2 ^ unitExponent p q := zpow_pos (by norm_num) _
  have herror : rounded N p q - q =
      (N.toInt (q / 2 ^ unitExponent p q) - q / 2 ^ unitExponent p q) * 2 ^ unitExponent p q := by
    unfold rounded
    rw [sub_mul, div_mul_cancel₀ _ hunit.ne']
  have hhalf : (2 : ℚ) ^ unitExponent p q = 2 * (1 / 2 ^ p) * 2 ^ Int.log 2 |q| := by
    unfold unitExponent
    rw [zpow_sub₀ (by norm_num), zpow_add₀ (by norm_num), zpow_one, zpow_natCast]
    ring
  have hlog : (2 : ℚ) ^ Int.log 2 |q| ≤ |q| := by
    have hle := Int.zpow_log_le_self (R := ℚ) (b := 2) (by norm_num) hpos
    rwa [Nat.cast_ofNat] at hle
  calc |rounded N p q - q|
      = |(N.toInt (q / 2 ^ unitExponent p q) : ℚ) - q / 2 ^ unitExponent p q| *
          2 ^ unitExponent p q := by rw [herror, abs_mul, abs_of_pos hunit]
    _ ≤ 1 / 2 * 2 ^ unitExponent p q := by
        gcongr
        exact N.near _
    _ = 1 / 2 ^ p * 2 ^ Int.log 2 |q| := by
        rw [hhalf]
        ring
    _ ≤ 1 / 2 ^ p * |q| := by gcongr

/-- Every number is within nothing of itself. -/
theorem Within.refl (y : ℚ) : Within 0 y y := by
  unfold Within
  rw [sub_self, abs_zero, zero_mul]

/-- A larger distance allows more. -/
theorem Within.mono {δ ε x y : ℚ} (h : Within δ x y) (hle : δ ≤ ε) : Within ε x y :=
  h.trans (mul_le_mul_of_nonneg_right hle (abs_nonneg y))

/-- A common factor changes nothing. -/
theorem Within.mul_right {δ x y : ℚ} (h : Within δ x y) (c : ℚ) : Within δ (x * c) (y * c) := by
  unfold Within at h ⊢
  rw [← sub_mul, abs_mul, abs_mul, ← mul_assoc]
  exact mul_le_mul_of_nonneg_right h (abs_nonneg c)

/-- Something positive that is added exactly does not raise the relative error. -/
theorem Within.add_right {δ x y d : ℚ} (h : Within δ x y) (hδ : 0 ≤ δ) (hy : 0 ≤ y) (hd : 0 ≤ d) :
    Within δ (x + d) (y + d) := by
  unfold Within at h ⊢
  rw [add_sub_add_right_eq_sub, abs_of_nonneg (add_nonneg hy hd)]
  rw [abs_of_nonneg hy] at h
  exact h.trans (mul_le_mul_of_nonneg_left (le_add_of_nonneg_right hd) hδ)

/-- The spread of `k` roundings is not negative. -/
theorem spread_nonneg {u : ℚ} (hu : 0 ≤ u) (k : ℕ) : 0 ≤ spread u k :=
  sub_nonneg.mpr (one_le_pow₀ (le_add_of_nonneg_right hu))

/-- More roundings spread further. -/
theorem spread_mono {u : ℚ} (hu : 0 ≤ u) {k m : ℕ} (h : k ≤ m) : spread u k ≤ spread u m :=
  sub_le_sub_right (pow_le_pow_right₀ (le_add_of_nonneg_right hu) h) 1

/-- One rounding spreads by its unit. -/
theorem spread_one (u : ℚ) : spread u 1 = u := by
  unfold spread
  rw [pow_one, add_sub_cancel_left]

/-- The errors of two computations, one behind the other. -/
theorem Within.trans {u x y z : ℚ} {k m : ℕ} (hu : 0 ≤ u) (hxy : Within (spread u k) x y)
    (hyz : Within (spread u m) y z) : Within (spread u (k + m)) x z := by
  unfold Within at hxy hyz ⊢
  have hk := spread_nonneg hu k
  have hy : |y| ≤ (1 + spread u m) * |z| := by
    have htriangle := abs_add_le (y - z) z
    rw [sub_add_cancel] at htriangle
    linarith
  have hsplit : spread u (k + m) = spread u k * (1 + spread u m) + spread u m := by
    unfold spread
    rw [pow_add]
    ring
  calc |x - z| ≤ |x - y| + |y - z| := abs_sub_le x y z
    _ ≤ spread u k * |y| + spread u m * |z| := add_le_add hxy hyz
    _ ≤ spread u k * ((1 + spread u m) * |z|) + spread u m * |z| := by gcongr
    _ = spread u (k + m) * |z| := by
        rw [hsplit]
        ring

/-- Rounding once more. -/
theorem Within.round (N : NearestInteger) {p k : ℕ} {x y : ℚ}
    (h : Within (spread (1 / 2 ^ p) k) x y) :
    Within (spread (1 / 2 ^ p) (k + 1)) (rounded N p x) y := by
  have hround : Within (spread (1 / 2 ^ p) 1) (rounded N p x) x := by
    rw [spread_one]
    exact rounded_within N p x
  rw [Nat.add_comm]
  exact hround.trans (by positivity) h

end IperfRuntime.SignificandRounding
