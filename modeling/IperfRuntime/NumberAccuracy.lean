import IperfRuntime.JsonNumbers

/-!
# How exactly numbers survive as text

What the parser makes of a number that the printer has written: the same integer up to 2⁵³,
and everything else up to a millionth. Where the power of ten is subnormal it has few digits
left, but the number is then far below a millionth. The bounds are on relative errors; that
the last bit is right is not claimed.
-/

namespace IperfRuntime.NumberAccuracy

open JsonTree PrintfText PrintedNumbers UnitFormats SignificandRounding JsonNumbers

/-- The relative error of one operation. -/
def unitError : ℚ := 1 / 2 ^ 53

/-- The relative error of a rounding is not negative. -/
theorem unitError_nonneg : 0 ≤ unitError := by norm_num [unitError]

/-- Integers up to 2⁵³ are doubles. -/
theorem fl_natCast {n : ℕ} (h : n ≤ 2 ^ 53) : fl n = n := by
  have hcast : |(n : ℤ)| ≤ 2 ^ 53 := by
    rw [abs_of_nonneg (Int.natCast_nonneg n)]
    exact_mod_cast h
  have hfl := fl_intCast hcast
  rwa [Int.cast_natCast] at hfl

/-- The relative error of an operation whose result is a normal number. -/
theorem fl_within {q : ℚ} (h : 1 / 2 ^ 1022 ≤ |q|) : Within unitError (fl q) q := by
  rw [fl_of_normal h]
  exact rounded_within _ _ q

/-- The error of any operation. -/
theorem fl_near (q : ℚ) : |fl q - q| ≤ unitError * |q| + 1 / 2 ^ 200 := by
  refine (fl_error q).trans (add_le_add_right ?_ _)
  exact one_div_le_one_div_of_le (by positivity) (pow_le_pow_right₀ (by norm_num) (by norm_num))

/-- Rounding at most doubles a number, with the subnormals covered by the one that is added. -/
theorem abs_fl_le (q : ℚ) : |fl q| ≤ 2 * |q| + 1 := by
  have hnear := fl_near q
  have htriangle := abs_add_le (fl q - q) q
  rw [sub_add_cancel] at htriangle
  have hunit : unitError * |q| ≤ 1 * |q| := by
    gcongr
    norm_num [unitError]
  have htiny : (1 : ℚ) / 2 ^ 200 ≤ 1 := by norm_num
  linarith

/-- One more rounding of a value that is zero or normal. -/
theorem within_fl {x y : ℚ} {k : ℕ} (h : Within (spread unitError k) x y)
    (hx : x = 0 ∨ 1 / 2 ^ 1022 ≤ |x|) : Within (spread unitError (k + 1)) (fl x) y := by
  rcases hx with rfl | hnormal
  · rw [fl_zero]
    exact h.mono (spread_mono unitError_nonneg (Nat.le_succ k))
  · rw [fl_of_normal hnormal]
    exact h.round nearestEven

/-- The least normal double is not above one. -/
theorem minNormal_le_one : (1 : ℚ) / 2 ^ 1022 ≤ 1 := by
  rw [div_le_one (by positivity)]
  exact one_le_pow₀ (by norm_num)

/-- Further digits do not make a number smaller. -/
theorem le_ofDigitChars (digits : Text) (n : ℕ) : n ≤ Nat.ofDigitChars 10 digits n := by
  induction digits generalizing n with
  | nil => exact le_rfl
  | cons c digits ih =>
    rw [Nat.ofDigitChars_cons]
    have hrec := ih (10 * n + (c.toNat - '0'.toNat))
    omega

/-- As long as the number fits, adding up its digits is exact. -/
theorem accumulate_exact (digits : Text) {n : ℕ} (h : Nat.ofDigitChars 10 digits n ≤ 2 ^ 53) :
    accumulate digits n = (Nat.ofDigitChars 10 digits n : ℕ) := by
  induction digits generalizing n with
  | nil => rfl
  | cons c digits ih =>
    have hzero : '0'.toNat = 48 := rfl
    rw [Nat.ofDigitChars_cons, hzero] at h ⊢
    have hle := le_ofDigitChars digits (10 * n + (c.toNat - 48))
    have hten : fl ((n : ℚ) * 10) = ((10 * n : ℕ) : ℚ) := by
      rw [← fl_natCast (show 10 * n ≤ 2 ^ 53 by omega), Nat.cast_mul, Nat.cast_ofNat, mul_comm]
    have hstep : appendDigit n (c.toNat - 48) = ((10 * n + (c.toNat - 48) : ℕ) : ℚ) := by
      unfold appendDigit
      rw [hten, ← Nat.cast_add, fl_natCast (by omega)]
    have hcons : accumulate (c :: digits) n =
        accumulate digits (appendDigit n (c.toNat - 48)) := rfl
    rw [hcons, hstep]
    exact ih h

/-- A partial sum of digits is zero or at least one. -/
def ZeroOrLarge (a : ℚ) : Prop := a = 0 ∨ 1 ≤ a

/-- What is zero or at least one is zero or normal, so that its roundings have a relative error. -/
theorem ZeroOrLarge.normal {a : ℚ} (h : ZeroOrLarge a) : a = 0 ∨ 1 / 2 ^ 1022 ≤ |a| :=
  h.imp id fun hone => minNormal_le_one.trans (hone.trans (le_abs_self a))

/-- Rounding keeps a number zero or at least one. -/
theorem ZeroOrLarge.round {a : ℚ} (h : a = 0 ∨ 2 ≤ a) : ZeroOrLarge (fl a) := by
  rcases h with rfl | hlarge
  · exact Or.inl fl_zero
  · have hbound := (abs_le.mp (fl_near a)).1
    have hunit : unitError * |a| ≤ 1 / 4 * a := by
      rw [abs_of_nonneg (by linarith)]
      gcongr
      norm_num [unitError]
    have htiny : (1 : ℚ) / 2 ^ 200 ≤ 1 / 4 := by norm_num
    exact Or.inr (by linarith)

/-- The sum behind one more digit, before it is rounded. -/
theorem ZeroOrLarge.ten {a : ℚ} (h : ZeroOrLarge a) (d : ℕ) :
    fl (a * 10) + d = d ∨ 2 ≤ fl (a * 10) + d := by
  rcases h with rfl | hone
  · rw [zero_mul, fl_zero, zero_add]
    exact Or.inl rfl
  · have hbound := (abs_le.mp (fl_near (a * 10))).1
    have hunit : unitError * |a * 10| ≤ 1 / 10 * (a * 10) := by
      rw [abs_of_nonneg (by linarith)]
      gcongr
      norm_num [unitError]
    have htiny : (1 : ℚ) / 2 ^ 200 ≤ 1 := by norm_num
    have hd : (0 : ℚ) ≤ d := Nat.cast_nonneg d
    exact Or.inr (by linarith)

/-- A natural number is zero or at least one. -/
theorem zeroOrLarge_natCast (d : ℕ) : ZeroOrLarge (d : ℚ) := by
  rcases Nat.eq_zero_or_pos d with rfl | hpos
  · exact Or.inl Nat.cast_zero
  · exact Or.inr (by exact_mod_cast hpos)

/-- The step of the digit loop keeps a number zero or at least one before it is rounded. -/
theorem ZeroOrLarge.sum {a : ℚ} (h : ZeroOrLarge a) (d : ℕ) : ZeroOrLarge (fl (a * 10) + d) := by
  rcases h.ten d with heq | hlarge
  · rw [heq]
    exact zeroOrLarge_natCast d
  · exact Or.inr (by linarith)

/-- The value of a digit character is a double. -/
theorem char_toNat_le (c : Char) : c.toNat - 48 ≤ 2 ^ 53 := by
  have hvalid := c.valid
  have hlt : c.toNat < 1114112 := by
    rcases hvalid with hlow | ⟨-, hhigh⟩
    · exact lt_trans hlow (by decide)
    · exact hhigh
  omega

/-- One digit more keeps a number zero or at least one. -/
theorem ZeroOrLarge.append {a : ℚ} (h : ZeroOrLarge a) {d : ℕ} (hd : d ≤ 2 ^ 53) :
    ZeroOrLarge (appendDigit a d) := by
  unfold appendDigit
  rcases h.ten d with heq | hlarge
  · rw [heq, fl_natCast hd]
    exact zeroOrLarge_natCast d
  · exact ZeroOrLarge.round (Or.inr hlarge)

/-- So do all digits of a number, one after the other. -/
theorem zeroOrLarge_accumulate (digits : Text) {a : ℚ} (h : ZeroOrLarge a) :
    ZeroOrLarge (accumulate digits a) := by
  induction digits generalizing a with
  | nil => exact h
  | cons c digits ih => exact ih (h.append (char_toNat_le c))

/-- Adding up digits errs twice for each digit, once for the product by ten and once for the
sum, so the errors only grow with the number of digits. -/
theorem accumulate_within (digits : Text) {n : ℕ} {a : ℚ} {k : ℕ} (ha : ZeroOrLarge a)
    (h : Within (spread unitError k) a n) :
    Within (spread unitError (k + 2 * digits.length)) (accumulate digits a)
      (Nat.ofDigitChars 10 digits n : ℕ) := by
  induction digits generalizing n a k with
  | nil => exact h
  | cons c digits ih =>
    have hzero : '0'.toNat = 48 := rfl
    have hlarge : ZeroOrLarge (a * 10) := ha.imp (fun heq => by rw [heq, zero_mul])
      fun hone => by linarith
    have hten : Within (spread unitError (k + 1)) (fl (a * 10)) (n * 10) :=
      within_fl (h.mul_right 10) hlarge.normal
    have hsum : Within (spread unitError (k + 1)) (fl (a * 10) + (c.toNat - 48 : ℕ))
        (n * 10 + (c.toNat - 48 : ℕ)) :=
      hten.add_right (spread_nonneg unitError_nonneg _) (by positivity) (by positivity)
    have hvalue : (n : ℚ) * 10 + (c.toNat - 48 : ℕ) = ((10 * n + (c.toNat - 48) : ℕ) : ℚ) := by
      rw [Nat.cast_add, Nat.cast_mul, Nat.cast_ofNat, mul_comm]
    have hstep : Within (spread unitError (k + 2)) (appendDigit a (c.toNat - 48))
        ((10 * n + (c.toNat - 48) : ℕ) : ℚ) := by
      rw [← hvalue]
      exact within_fl hsum (ha.sum _).normal
    have hrec := ih (ha.append (char_toNat_le c)) hstep
    have hlength : k + 2 * (c :: digits).length = k + 2 + 2 * digits.length := by
      rw [List.length_cons]
      omega
    rw [Nat.ofDigitChars_cons, hzero, hlength]
    exact hrec

/-- A power that is a normal number by far. -/
theorem ten_pow_large {k : ℤ} (hlow : -290 ≤ k) : (1 : ℚ) / 2 ^ 968 ≤ 10 ^ k := by
  have hpow : (10 : ℚ) ^ (-290 : ℤ) ≤ 10 ^ k := zpow_le_zpow_right₀ (by norm_num) hlow
  have hblock : (10 : ℕ) ^ 290 ≤ 2 ^ 968 := by decide +kernel
  have hcast : (10 : ℚ) ^ 290 ≤ 2 ^ 968 := by exact_mod_cast hblock
  rw [zpow_neg, ← one_div, zpow_ofNat] at hpow
  exact (one_div_le_one_div_of_le (by positivity) hcast).trans hpow

/-- Such a power, as one computation among the others. -/
theorem pow_within (P : PowerOfTen) {k : ℤ} (hlow : -290 ≤ k) (hhigh : k ≤ 308) :
    Within (spread unitError 2) (P.pow k) (10 ^ k) := by
  have hpos : (0 : ℚ) < 10 ^ k := zpow_pos (by norm_num) k
  have hlarge := ten_pow_large hlow
  have htiny : (1 : ℚ) / 2 ^ 1074 = 1 / 2 ^ 106 * (1 / 2 ^ 968) := by
    rw [one_div_mul_one_div, ← pow_add]
  have hslack : 1 / 2 ^ 106 * ((1 : ℚ) / 2 ^ 968) ≤ 1 / 2 ^ 106 * 10 ^ k := by gcongr
  have hspread : spread unitError 2 = 1 / 2 ^ 52 + 1 / 2 ^ 106 := by norm_num [spread, unitError]
  unfold Within
  rw [abs_of_pos hpos, hspread, add_mul]
  exact (P.near k hhigh).trans (add_le_add_right (htiny.trans_le hslack) _)

/-- The last two operations of the parser are the power of ten and the product with it, each
of which errs once more; the sign is exact. -/
theorem read_within (P : PowerOfTen) (x : Decimal) {k : ℕ} (hlow : -290 ≤ x.scale)
    (hhigh : x.scale ≤ 308)
    (h : Within (spread unitError k) (accumulate (x.whole ++ x.places) 0) x.digits) :
    Within (spread unitError (k + 3)) (x.read P) x.value := by
  have hpow := pow_within P hlow hhigh
  have hpower := hpow.mul_right (accumulate (x.whole ++ x.places) 0)
  have hdigits := h.mul_right (10 ^ x.scale)
  rw [mul_comm (accumulate (x.whole ++ x.places) 0)] at hdigits
  have hproduct := (hpower.trans unitError_nonneg hdigits).mul_right x.sign
  have hread : x.sign * accumulate (x.whole ++ x.places) 0 * P.pow x.scale =
      P.pow x.scale * accumulate (x.whole ++ x.places) 0 * x.sign := by ring
  have hvalue : x.value = x.digits * 10 ^ x.scale * x.sign := by
    unfold Decimal.value
    ring
  have hnormal : P.pow x.scale * accumulate (x.whole ++ x.places) 0 * x.sign = 0 ∨
      1 / 2 ^ 1022 ≤ |P.pow x.scale * accumulate (x.whole ++ x.places) 0 * x.sign| := by
    rcases zeroOrLarge_accumulate (x.whole ++ x.places) (Or.inl rfl) with hzero | hone
    · exact Or.inl (by rw [hzero, mul_zero, zero_mul])
    · have hsign : |(x.sign : ℚ)| = 1 := by
        unfold Decimal.sign
        split
        · norm_num
        · norm_num
      have hbound := (abs_le.mp hpow).1
      have hpos : (0 : ℚ) < 10 ^ x.scale := zpow_pos (by norm_num) _
      have hspread : spread unitError 2 * |(10 : ℚ) ^ x.scale| ≤ 1 / 2 * 10 ^ x.scale := by
        rw [abs_of_pos hpos]
        gcongr
        norm_num [spread, unitError]
      have hhalf : (1 : ℚ) / 2 ^ 1022 ≤ P.pow x.scale := by
        have hunit : (1 : ℚ) / 2 ^ 1022 ≤ 1 / 2 * (1 / 2 ^ 968) := by
          rw [one_div_mul_one_div, ← pow_succ']
          exact one_div_le_one_div_of_le (by positivity)
            (pow_le_pow_right₀ (by norm_num) (by norm_num))
        have hlarge := ten_pow_large hlow
        have hscaled : 1 / 2 * (1 / 2 ^ 968) ≤ 1 / 2 * (10 : ℚ) ^ x.scale := by gcongr
        have hpower : 1 / 2 * (10 : ℚ) ^ x.scale ≤ P.pow x.scale := by
          linarith only [hbound, hspread]
        exact (hunit.trans hscaled).trans hpower
      refine Or.inr ?_
      rw [abs_mul, hsign, mul_one, abs_mul, abs_of_nonneg (le_trans zero_le_one hone)]
      calc (1 : ℚ) / 2 ^ 1022 ≤ P.pow x.scale := hhalf
        _ ≤ |P.pow x.scale| := le_abs_self _
        _ ≤ |P.pow x.scale| * accumulate (x.whole ++ x.places) 0 :=
          le_mul_of_one_le_right (abs_nonneg _) hone
  have hround := within_fl hproduct hnormal
  have hcount : 2 + k + 1 = k + 3 := by omega
  rw [← hread, ← hvalue, hcount] at hround
  exact hround

/-- A number with few digits is only scaled inexactly. -/
theorem read_within_short (P : PowerOfTen) {x : Decimal} (hlow : -290 ≤ x.scale)
    (hhigh : x.scale ≤ 308) (h : x.digits ≤ 2 ^ 53) :
    Within (spread unitError 3) (x.read P) x.value := by
  have hexact := accumulate_exact (x.whole ++ x.places) (n := 0) h
  rw [Nat.cast_zero] at hexact
  have hzero : spread unitError 0 = 0 := by
    unfold spread
    rw [pow_zero, sub_self]
  have hdigits : Within (spread unitError 0) (accumulate (x.whole ++ x.places) 0) x.digits := by
    rw [hexact, hzero]
    exact Within.refl _
  exact read_within P x hlow hhigh hdigits

/-- Any number errs with its digits. -/
theorem read_within_long (P : PowerOfTen) {x : Decimal} (hlow : -290 ≤ x.scale)
    (hhigh : x.scale ≤ 308) :
    Within (spread unitError (2 * (x.whole ++ x.places).length + 3)) (x.read P) x.value := by
  have hzero : Within (spread unitError 0) 0 ((0 : ℕ) : ℚ) := by
    unfold Within
    rw [Nat.cast_zero, sub_zero, abs_zero, mul_zero]
  have hdigits := accumulate_within (x.whole ++ x.places) (Or.inl rfl) hzero
  rw [Nat.zero_add] at hdigits
  exact read_within P x hlow hhigh hdigits

/-- An integer that fits is read as it is. -/
theorem read_integer (P : PowerOfTen) {x : Decimal} (hscale : x.scale = 0)
    (h : x.digits ≤ 2 ^ 53) : x.read P = x.sign * x.digits := by
  have hexact := accumulate_exact (x.whole ++ x.places) (n := 0) h
  rw [Nat.cast_zero] at hexact
  have hsign : |x.sign| = 1 := by
    unfold Decimal.sign
    split
    · rfl
    · rfl
  have habs : |x.sign * (x.digits : ℤ)| ≤ 2 ^ 53 := by
    rw [abs_mul, hsign, one_mul, abs_of_nonneg (Int.natCast_nonneg _)]
    exact_mod_cast h
  have hfl := fl_intCast habs
  rw [Int.cast_mul, Int.cast_natCast] at hfl
  unfold Decimal.read
  rw [hscale, P.zero, mul_one, hexact]
  exact hfl

/-- What is read of an integer with a sign. -/
theorem read_intDecimal (P : PowerOfTen) {i : ℤ} (h : |i| ≤ 2 ^ 53) :
    (scaledDecimal (decide (i < 0)) 0 i.natAbs none).read P = i := by
  have hdigits : (scaledDecimal (decide (i < 0)) 0 i.natAbs none).digits ≤ 2 ^ 53 := by
    rw [digits_scaledDecimal]
    rw [Int.abs_eq_natAbs] at h
    omega
  have hsign : (scaledDecimal (decide (i < 0)) 0 i.natAbs none).sign * (i.natAbs : ℤ) = i := by
    unfold Decimal.sign scaledDecimal
    by_cases hneg : i < 0
    · rw [decide_eq_true hneg]
      simp only [if_true]
      omega
    · rw [decide_eq_false hneg]
      simp only [Bool.false_eq_true, if_false]
      omega
  rw [read_integer P (by simp) hdigits, digits_scaledDecimal, ← Int.cast_natCast, ← Int.cast_mul,
    hsign]

/-- An integer node that a `double` holds exactly comes back as it was. -/
theorem printedDecimal_integer (P : PowerOfTen) {n : ℤ} (h : |n| ≤ 2 ^ 53) :
    ∃ x, printedDecimal n n = some x ∧ x.read P = n := by
  unfold printedDecimal
  split
  · rename_i hzero
    have hn : n = 0 := by exact_mod_cast hzero
    have hread := read_intDecimal P h
    subst hn
    exact ⟨scaledDecimal false 0 0 none, rfl, hread⟩
  · have hbounds := abs_le.mp h
    have hlow : (-2 ^ 53 : ℚ) ≤ n := by exact_mod_cast hbounds.1
    have hhigh : (n : ℚ) ≤ 2 ^ 53 := by exact_mod_cast hbounds.2
    have hshows : showsInteger n n := by
      unfold showsInteger
      rw [fl_intCast h, sub_self, fl_zero, abs_zero]
      refine ⟨by norm_num [dblEpsilon], ?_, ?_⟩
      · linarith [show (2 : ℚ) ^ 53 ≤ 2 ^ 63 by norm_num]
      · linarith [show (2 : ℚ) ^ 53 ≤ 2 ^ 63 by norm_num]
    rw [if_pos hshows]
    exact ⟨_, rfl, read_intDecimal P h⟩

/-- What rounds to something small is small. -/
theorem abs_le_of_fl {q : ℚ} (h : |fl q| ≤ dblEpsilon) : |q| ≤ 2 * dblEpsilon := by
  have hnear := fl_near q
  have htriangle := abs_add_le (q - fl q) (fl q)
  rw [sub_add_cancel, abs_sub_comm] at htriangle
  have hunit : unitError * |q| ≤ 1 / 4 * |q| := by
    gcongr
    norm_num [unitError]
  have htiny : (1 : ℚ) / 2 ^ 200 ≤ 1 / 4 * dblEpsilon := by norm_num [dblEpsilon]
  linarith

/-- A number that is not tiny is at most doubled by rounding. -/
theorem fl_le_double {q : ℚ} (h : 1 / 2 ^ 100 ≤ q) : fl q ≤ 2 * q := by
  have hnonneg : 0 ≤ q := le_trans (by positivity) h
  have hupper := (abs_le.mp (fl_near q)).2
  rw [abs_of_nonneg hnonneg] at hupper
  have hunit : unitError * q ≤ 1 / 2 * q := by
    gcongr
    norm_num [unitError]
  have htiny : (1 : ℚ) / 2 ^ 200 ≤ 1 / 2 * (1 / 2 ^ 100) := by norm_num
  linarith

/-- The seven digits of `%e` are right up to half a unit of the last, also where rounding up
gives an eighth digit and the scale moves by one. -/
theorem sevenDigits_error {x : ℚ} (hx : x ≠ 0) :
    (sevenDigits x).1 < 10 ^ 7 ∧
      abs ((sevenDigits x).1 * 10 ^ ((sevenDigits x).2 - 6) - |x|) ≤ |x| / (2 * 10 ^ 6) := by
  have hpos : 0 < |x| := abs_pos.mpr hx
  have hlow : (10 : ℚ) ^ Int.log 10 |x| ≤ |x| := by
    have hle := Int.zpow_log_le_self (R := ℚ) (b := 10) (by norm_num) hpos
    rwa [Nat.cast_ofNat] at hle
  have hhigh : |x| < (10 : ℚ) ^ (Int.log 10 |x| + 1) := by
    have hlt := Int.lt_zpow_succ_log_self (R := ℚ) (b := 10) (by norm_num) |x|
    rwa [Nat.cast_ofNat] at hlt
  have hunit : (0 : ℚ) < 10 ^ (Int.log 10 |x| - 6) := zpow_pos (by norm_num) _
  have hdigits : |x| / 10 ^ (Int.log 10 |x| - 6) < (10 ^ 7 : ℕ) := by
    have hexponent : ((7 : ℕ) : ℤ) + (Int.log 10 |x| - 6) = Int.log 10 |x| + 1 := by omega
    rw [div_lt_iff₀ hunit, Nat.cast_pow, Nat.cast_ofNat, ← zpow_natCast,
      ← zpow_add₀ (by norm_num), hexponent]
    exact hhigh
  have hround := roundHalfEven_error (|x| / 10 ^ (Int.log 10 |x| - 6))
  have hle := roundHalfEven_le hdigits
  have hnonneg : 0 ≤ roundHalfEven (|x| / 10 ^ (Int.log 10 |x| - 6)) := by
    have hlt : (-1 : ℚ) < roundHalfEven (|x| / 10 ^ (Int.log 10 |x| - 6)) := by
      have hquotient : 0 ≤ |x| / 10 ^ (Int.log 10 |x| - 6) := by positivity
      linarith [(abs_le.mp hround).1]
    have hint : -1 < roundHalfEven (|x| / 10 ^ (Int.log 10 |x| - 6)) := by exact_mod_cast hlt
    omega
  have hcast : (((roundHalfEven (|x| / 10 ^ (Int.log 10 |x| - 6))).toNat : ℕ) : ℚ) =
      roundHalfEven (|x| / 10 ^ (Int.log 10 |x| - 6)) := by
    exact_mod_cast congrArg (Int.cast (R := ℚ)) (Int.toNat_of_nonneg hnonneg)
  have herror : abs ((roundHalfEven (|x| / 10 ^ (Int.log 10 |x| - 6)) : ℚ) *
      10 ^ (Int.log 10 |x| - 6) - |x|) ≤ |x| / (2 * 10 ^ 6) := by
    have hsplit : (10 : ℚ) ^ Int.log 10 |x| = 10 ^ 6 * 10 ^ (Int.log 10 |x| - 6) := by
      have hexponent : Int.log 10 |x| = ((6 : ℕ) : ℤ) + (Int.log 10 |x| - 6) := by omega
      rw [← zpow_natCast, ← zpow_add₀ (by norm_num), ← hexponent]
    calc abs ((roundHalfEven (|x| / 10 ^ (Int.log 10 |x| - 6)) : ℚ) *
          10 ^ (Int.log 10 |x| - 6) - |x|)
        = abs ((roundHalfEven (|x| / 10 ^ (Int.log 10 |x| - 6)) : ℚ) -
            |x| / 10 ^ (Int.log 10 |x| - 6)) * 10 ^ (Int.log 10 |x| - 6) := by
          rw [← abs_of_pos hunit, ← abs_mul, abs_of_pos hunit, sub_mul, div_mul_cancel₀ _ hunit.ne']
      _ ≤ 1 / 2 * 10 ^ (Int.log 10 |x| - 6) := by gcongr
      _ = 10 ^ Int.log 10 |x| / (2 * 10 ^ 6) := by
          rw [hsplit]
          ring
      _ ≤ |x| / (2 * 10 ^ 6) := by gcongr
  unfold sevenDigits
  dsimp only
  split
  · rename_i hcarry
    rw [← hcast, hcarry] at herror
    have hexponent : Int.log 10 |x| + 1 - 6 = Int.log 10 |x| - 6 + 1 := by omega
    have hsame : ((10 ^ 6 : ℕ) : ℚ) * 10 ^ (Int.log 10 |x| + 1 - 6) =
        ((10 ^ 7 : ℕ) : ℚ) * 10 ^ (Int.log 10 |x| - 6) := by
      rw [hexponent, zpow_add₀ (by norm_num), zpow_one]
      norm_num
      ring
    refine ⟨show 10 ^ 6 < 10 ^ 7 by decide, ?_⟩
    rw [hsame]
    exact herror
  · rename_i hne
    refine ⟨by omega, ?_⟩
    rw [hcast]
    exact herror

/-- The sign of a number and of the decimal for it agree, so that only the magnitudes
differ. -/
theorem value_error (d : ℚ) (precision n : ℕ) (exponent : Option ℤ) :
    abs ((scaledDecimal (decide (d < 0)) precision n exponent).value - d) =
      abs (n * 10 ^ (exponent.getD 0 - precision) - |d|) := by
  unfold Decimal.value
  rw [digits_scaledDecimal, scale_scaledDecimal]
  unfold Decimal.sign scaledDecimal
  dsimp only
  by_cases hneg : d < 0
  · rw [decide_eq_true hneg, abs_of_neg hneg, if_pos rfl, ← abs_neg]
    congr 1
    push_cast
    ring
  · rw [decide_eq_false hneg, abs_of_nonneg (not_lt.mp hneg)]
    congr 1
    norm_num

/-- The error of reading a decimal that is near a number. -/
theorem read_error (P : PowerOfTen) {x : Decimal} {d δ ε : ℚ} (hread : Within δ (x.read P) x.value)
    (hvalue : |x.value - d| ≤ ε) (hδ : 0 ≤ δ) : |x.read P - d| ≤ δ * (|d| + ε) + ε := by
  unfold Within at hread
  have hsize : |x.value| ≤ |d| + ε := by
    have htriangle := abs_add_le (x.value - d) d
    rw [sub_add_cancel] at htriangle
    linarith
  calc |x.read P - d| ≤ |x.read P - x.value| + |x.value - d| := abs_sub_le _ _ _
    _ ≤ δ * |x.value| + ε := add_le_add hread hvalue
    _ ≤ δ * (|d| + ε) + ε := by gcongr

/-- How far a number that was printed may be from what is read: a millionth, of the number
itself when it is large. -/
def tolerance (d : ℚ) : ℚ := if |d| ≤ 10 ^ 9 then 1 / 10 ^ 6 else |d| / 10 ^ 6

/-- The digits of a number do not depend on its sign. -/
theorem scaled_abs (precision : ℕ) (d : ℚ) : scaled precision |d| = scaled precision d := by
  unfold scaled
  rw [abs_abs]

/-- Without an exponent the power of ten is that of the digits behind the point. -/
theorem zpow_scale (precision : ℕ) :
    (10 : ℚ) ^ ((none : Option ℤ).getD 0 - precision) = (10 ^ precision)⁻¹ := by
  rw [Option.getD_none, zero_sub, zpow_neg, zpow_natCast]

/-- `%.Pf` is right up to half a unit of its last digit. -/
theorem fixed_error (precision : ℕ) (d : ℚ) :
    |(scaledDecimal (decide (d < 0)) precision (scaled precision d) none).value - d| ≤
      1 / (2 * 10 ^ precision) := by
  have hscaled := scaled_error precision (abs_nonneg d)
  rw [scaled_abs] at hscaled
  rw [value_error, zpow_scale, ← div_eq_mul_inv]
  exact hscaled

/-- The tolerance is nowhere below a millionth. -/
theorem tolerance_ge (d : ℚ) : 1 / 10 ^ 6 ≤ tolerance d := by
  unfold tolerance
  split
  · exact le_rfl
  · rename_i h
    rw [not_le] at h
    gcongr
    linarith

/-- Numbers that are printed with six digits have a millionth of themselves as tolerance. -/
theorem le_tolerance {d : ℚ} (h : |d| ≤ 10 ^ 9 → |d| ≤ 1) : |d| / 10 ^ 6 ≤ tolerance d := by
  unfold tolerance
  split
  · rename_i hle
    gcongr
    exact h hle
  · exact le_rfl

/-- The scale of a number that is printed without an exponent. -/
theorem scale_fixed (negative : Bool) {precision : ℕ} (n : ℕ) (h : precision ≤ 6) :
    -290 ≤ (scaledDecimal negative precision n none).scale ∧
      (scaledDecimal negative precision n none).scale ≤ 308 := by
  rw [scale_scaledDecimal, Option.getD_none]
  omega

/-- `%f` of a moderate number. -/
theorem fixed_close (P : PowerOfTen) {d : ℚ} (h : |d| ≤ 10 ^ 9) :
    |(scaledDecimal (decide (d < 0)) 6 (scaled 6 d) none).read P - d| ≤ tolerance d := by
  have hdigits : (scaledDecimal (decide (d < 0)) 6 (scaled 6 d) none).digits ≤ 2 ^ 53 := by
    have hle : scaled 6 |d| ≤ 10 ^ 15 := by
      refine scaled_le (abs_nonneg d) ?_
      push_cast
      linarith
    rw [digits_scaledDecimal, ← scaled_abs]
    exact hle.trans (by decide)
  obtain ⟨hlow, hhigh⟩ := scale_fixed (decide (d < 0)) (scaled 6 d) (le_refl 6)
  have hread := read_error P (read_within_short P hlow hhigh hdigits) (fixed_error 6 d)
    (spread_nonneg unitError_nonneg 3)
  have hspread : spread unitError 3 ≤ 1 / 2 ^ 51 := by norm_num [spread, unitError]
  have hsmall : spread unitError 3 * (|d| + 1 / (2 * 10 ^ 6)) ≤
      1 / 2 ^ 51 * (10 ^ 9 + 1 / (2 * 10 ^ 6)) := by gcongr
  refine (hread.trans (add_le_add_left hsmall _)).trans ?_
  exact le_trans (by norm_num) (tolerance_ge d)

/-- The digits of a number that is almost an integer are the integer. -/
theorem whole_error {d : ℚ} (h : |fl (⌊d⌋ - d)| ≤ dblEpsilon) :
    abs (scaled 0 d - |d|) ≤ 2 * dblEpsilon := by
  have hnear := abs_le_of_fl h
  have hmagnitude : abs (|(⌊d⌋ : ℚ)| - |d|) ≤ 2 * dblEpsilon :=
    (abs_abs_sub_abs_le _ _).trans hnear
  have hscaled := scaled_error 0 (abs_nonneg d)
  rw [scaled_abs, pow_zero, div_one, mul_one] at hscaled
  have hsmall : 2 * dblEpsilon < 1 / 4 := by norm_num [dblEpsilon]
  have hdiff : abs ((scaled 0 d : ℚ) - |(⌊d⌋ : ℚ)|) < 1 := by
    have htriangle := abs_sub_le (scaled 0 d : ℚ) |d| |(⌊d⌋ : ℚ)|
    rw [abs_sub_comm |d|] at htriangle
    linarith
  have hint : abs (((scaled 0 d : ℕ) : ℤ) - |⌊d⌋|) < 1 := by
    rw [← Int.cast_abs, ← Int.cast_natCast, ← Int.cast_sub, ← Int.cast_abs] at hdiff
    exact_mod_cast hdiff
  have heq : ((scaled 0 d : ℕ) : ℤ) = |⌊d⌋| := by
    rw [Int.abs_lt_one_iff] at hint
    omega
  have hcast : (scaled 0 d : ℚ) = |(⌊d⌋ : ℚ)| := by
    rw [← Int.cast_abs, ← heq, Int.cast_natCast]
  rw [hcast]
  exact hmagnitude

/-- `%.0f` is used for numbers of 61 digits at most. -/
theorem scaled_lt_of_whole {d : ℚ} (h : |fl (⌊d⌋ - d)| ≤ dblEpsilon) (hd : |d| < fl (10 ^ 60)) :
    scaled 0 d < 10 ^ 61 := by
  have hbound : fl (10 ^ 60) ≤ 2 * 10 ^ 60 := fl_le_double (by norm_num)
  have hepsilon : 2 * dblEpsilon < 1 := by norm_num [dblEpsilon]
  have herror := (abs_le.mp (whole_error h)).2
  have hlarge : (scaled 0 d : ℚ) < ((10 ^ 61 : ℕ) : ℚ) := by
    rw [Nat.cast_pow, Nat.cast_ofNat]
    calc (scaled 0 d : ℚ) ≤ |d| + 2 * dblEpsilon := by linarith
      _ < 2 * 10 ^ 60 + 1 := by linarith
      _ ≤ 10 ^ 61 := by norm_num
  exact_mod_cast hlarge

/-- `%.0f` of a number that is almost an integer is read back within the tolerance: what is
lost by printing is less than `DBL_EPSILON`. -/
theorem whole_close (P : PowerOfTen) {d : ℚ} (h : |fl (⌊d⌋ - d)| ≤ dblEpsilon)
    (hd : |d| < fl (10 ^ 60)) :
    |(scaledDecimal (decide (d < 0)) 0 (scaled 0 d) none).read P - d| ≤ tolerance d := by
  have herror : |(scaledDecimal (decide (d < 0)) 0 (scaled 0 d) none).value - d| ≤
      2 * dblEpsilon := by
    rw [value_error, zpow_scale, pow_zero, inv_one, mul_one]
    exact whole_error h
  have hle : (scaled 0 d : ℚ) ≤ |d| + 2 * dblEpsilon := by
    linarith [(abs_le.mp (whole_error h)).2]
  have hepsilon : 2 * dblEpsilon < 1 / 10 ^ 12 := by norm_num [dblEpsilon]
  have hpositive : 0 < 2 * dblEpsilon := by norm_num [dblEpsilon]
  obtain ⟨hlow, hhigh⟩ := scale_fixed (decide (d < 0)) (scaled 0 d) (Nat.zero_le 6)
  by_cases hsmall : |d| ≤ 10 ^ 9
  · have hdigits : (scaledDecimal (decide (d < 0)) 0 (scaled 0 d) none).digits ≤ 2 ^ 53 := by
      have hcast : (scaled 0 d : ℚ) ≤ ((2 ^ 53 : ℕ) : ℚ) := by
        push_cast
        linarith
      rw [digits_scaledDecimal]
      exact_mod_cast hcast
    have hread := read_error P (read_within_short P hlow hhigh hdigits) herror
      (spread_nonneg unitError_nonneg 3)
    have hspread : spread unitError 3 ≤ 1 / 2 ^ 51 := by norm_num [spread, unitError]
    have hproduct : spread unitError 3 * (|d| + 2 * dblEpsilon) ≤
        1 / 2 ^ 51 * (10 ^ 9 + 1 / 10 ^ 12) :=
      mul_le_mul hspread (by linarith) (by linarith [abs_nonneg d]) (by norm_num)
    refine (hread.trans (add_le_add hproduct hepsilon.le)).trans ?_
    exact le_trans (by norm_num) (tolerance_ge d)
  · rw [not_le] at hsmall
    have hlength : ((scaledDecimal (decide (d < 0)) 0 (scaled 0 d) none).whole ++
        (scaledDecimal (decide (d < 0)) 0 (scaled 0 d) none).places).length ≤ 61 := by
      have hdigits : (natText (scaled 0 d)).length ≤ 61 :=
        (Nat.length_toDigits_le_iff (by decide) (by decide)).mpr (scaled_lt_of_whole h hd)
      unfold scaledDecimal
      dsimp only
      rw [if_pos rfl, List.append_nil, pow_zero, Nat.div_one]
      exact hdigits
    have hread := read_error P (read_within_long P hlow hhigh) herror
      (spread_nonneg unitError_nonneg _)
    have hspread : spread unitError
        (2 * ((scaledDecimal (decide (d < 0)) 0 (scaled 0 d) none).whole ++
        (scaledDecimal (decide (d < 0)) 0 (scaled 0 d) none).places).length + 3) ≤ 1 / 2 ^ 45 :=
      (spread_mono unitError_nonneg (m := 125) (by omega)).trans (by norm_num [spread, unitError])
    have hproduct := mul_le_mul_of_nonneg_right hspread
      (show 0 ≤ |d| + 2 * dblEpsilon by linarith)
    refine le_trans ?_ (le_tolerance fun hle => absurd hle (not_le.mpr hsmall))
    linarith

/-- The bound of the doubles has 309 digits. -/
theorem two_pow_le : (2 : ℚ) ^ 1024 ≤ 10 ^ 309 := by
  have hblock : (2 : ℚ) ^ 93 ≤ 10 ^ 28 := by norm_num
  calc (2 : ℚ) ^ 1024 = 2 * (2 ^ 93) ^ 11 := by
        rw [← pow_mul, ← pow_succ']
    _ ≤ 10 * (10 ^ 28) ^ 11 := by gcongr; norm_num
    _ = 10 ^ 309 := by rw [← pow_mul, ← pow_succ']

/-- The exponent of a finite `double`. -/
theorem log_le_of_finite {d : ℚ} (hne : d ≠ 0) (hd : FiniteDouble d) : Int.log 10 |d| ≤ 308 := by
  have hlt : Int.log 10 |d| < 309 := by
    refine (Int.lt_zpow_iff_log_lt (by decide) (abs_pos.mpr hne)).mp (hd.trans_le ?_)
    exact_mod_cast two_pow_le
  omega

/-- The exponent of a normal `double`. -/
theorem le_log_of_normal {d : ℚ} (hlow : 1 / 2 ^ 1022 ≤ |d|) : -309 ≤ Int.log 10 |d| := by
  have hpos : 0 < |d| := lt_of_lt_of_le (by positivity) hlow
  refine (Int.zpow_le_iff_le_log (by decide) hpos).mp (le_trans ?_ hlow)
  have hpow : (2 : ℚ) ^ 1022 ≤ 10 ^ 309 :=
    (pow_le_pow_right₀ (by norm_num) (by norm_num)).trans two_pow_le
  rw [zpow_neg, ← one_div]
  refine one_div_le_one_div_of_le (by positivity) ?_
  exact_mod_cast hpow

/-- The exponent of a number that is not tiny. -/
theorem le_log_of_large {d : ℚ} (hlow : 1 / 10 ^ 280 ≤ |d|) : -280 ≤ Int.log 10 |d| := by
  have hpos : 0 < |d| := lt_of_lt_of_le (by positivity) hlow
  refine (Int.zpow_le_iff_le_log (by decide) hpos).mp (le_trans (le_of_eq ?_) hlow)
  rw [zpow_neg, ← one_div]
  norm_cast

/-- A number below 10⁻²⁸⁰ has an exponent below -280, where the parser reads zero. -/
theorem log_lt_of_tiny {d : ℚ} (hne : d ≠ 0) (h : |d| < 1 / 10 ^ 280) :
    Int.log 10 |d| < -280 := by
  refine (Int.lt_zpow_iff_log_lt (by decide) (abs_pos.mpr hne)).mp (h.trans_le (le_of_eq ?_))
  rw [zpow_neg, ← one_div]
  norm_cast

/-- The exponent that `%e` shows. -/
theorem sevenDigits_exponent (d : ℚ) :
    Int.log 10 |d| ≤ (sevenDigits d).2 ∧ (sevenDigits d).2 ≤ Int.log 10 |d| + 1 := by
  unfold sevenDigits
  dsimp only
  split
  · dsimp only
    omega
  · dsimp only
    omega

/-- A number whose power of ten is subnormal is read as something tiny, so that a tolerance in
absolute terms covers it. -/
theorem read_tiny (P : PowerOfTen) {x : Decimal} (hdigits : x.digits ≤ 10 ^ 7)
    (hscale : x.scale ≤ -286) : |x.read P| ≤ 1 / 10 ^ 50 := by
  have hexact := accumulate_exact (x.whole ++ x.places) (n := 0)
    (hdigits.trans (by decide : 10 ^ 7 ≤ 2 ^ 53))
  rw [Nat.cast_zero] at hexact
  have hsum : |accumulate (x.whole ++ x.places) 0| ≤ 10 ^ 7 := by
    rw [hexact, abs_of_nonneg (Nat.cast_nonneg _)]
    exact_mod_cast hdigits
  have hsign : |(x.sign : ℚ)| = 1 := by
    unfold Decimal.sign
    split
    · norm_num
    · norm_num
  have hpos : (0 : ℚ) < 10 ^ x.scale := zpow_pos (by norm_num) _
  have hten : (10 : ℚ) ^ x.scale ≤ 1 / 2 ^ 250 := by
    have hle : (10 : ℚ) ^ x.scale ≤ 10 ^ (-250 : ℤ) :=
      zpow_le_zpow_right₀ (by norm_num) (by omega)
    refine hle.trans ?_
    norm_num
  have hpow : |P.pow x.scale| ≤ 1 / 2 ^ 240 := by
    have hnear := P.near x.scale (by omega)
    have htriangle := abs_add_le (P.pow x.scale - 10 ^ x.scale) (10 ^ x.scale)
    rw [sub_add_cancel, abs_of_pos hpos] at htriangle
    have hrelative : 1 / 2 ^ 52 * (10 : ℚ) ^ x.scale ≤ 1 * (1 / 2 ^ 250) := by
      gcongr
      norm_num
    have hsubnormal : (1 : ℚ) / 2 ^ 1074 ≤ 1 / 2 ^ 250 :=
      one_div_le_one_div_of_le (by positivity) (pow_le_pow_right₀ (by norm_num) (by norm_num))
    generalize (1 : ℚ) / 2 ^ 1074 = least at hnear hsubnormal
    calc |P.pow x.scale| ≤ 3 * (1 / 2 ^ 250) := by linarith
      _ ≤ 1 / 2 ^ 240 := by norm_num
  have hproduct : |x.sign * accumulate (x.whole ++ x.places) 0 * P.pow x.scale| ≤ 1 / 2 ^ 200 := by
    rw [abs_mul, abs_mul, hsign, one_mul]
    calc |accumulate (x.whole ++ x.places) 0| * |P.pow x.scale|
        ≤ 10 ^ 7 * (1 / 2 ^ 240) := by gcongr
      _ ≤ 1 / 2 ^ 200 := by norm_num
  have hround := fl_near (x.sign * accumulate (x.whole ++ x.places) 0 * P.pow x.scale)
  have htriangle := abs_add_le (x.read P - x.sign * accumulate (x.whole ++ x.places) 0 *
    P.pow x.scale) (x.sign * accumulate (x.whole ++ x.places) 0 * P.pow x.scale)
  rw [sub_add_cancel] at htriangle
  have hunit : unitError * |x.sign * accumulate (x.whole ++ x.places) 0 * P.pow x.scale| ≤
      1 * (1 / 2 ^ 200) := by
    gcongr
    norm_num [unitError]
  have hread : |x.read P - x.sign * accumulate (x.whole ++ x.places) 0 * P.pow x.scale| ≤
      1 * (1 / 2 ^ 200) + 1 / 2 ^ 200 := hround.trans (add_le_add_left hunit _)
  calc |x.read P| ≤ 1 * (1 / 2 ^ 200) + 1 / 2 ^ 200 + 1 / 2 ^ 200 := by linarith
    _ ≤ 1 / 10 ^ 50 := by norm_num

/-- `%e` of a finite number is read back within the tolerance. Large numbers lose half a unit
of the seventh digit and the roundings of the reader. -/
theorem scientific_close (P : PowerOfTen) {d : ℚ} (hne : d ≠ 0) (hd : FiniteDouble d)
    (h : |d| ≤ 10 ^ 9 → |d| ≤ 1) :
    |(scaledDecimal (decide (d < 0)) 6 (sevenDigits d).1 (some (sevenDigits d).2)).read P - d| ≤
      tolerance d := by
  obtain ⟨hlt, herror⟩ := sevenDigits_error hne
  obtain ⟨hlower, hupper⟩ := sevenDigits_exponent d
  have hscale := scale_scaledDecimal (decide (d < 0)) 6 (sevenDigits d).1 (some (sevenDigits d).2)
  rw [Option.getD_some] at hscale
  rcases lt_or_ge |d| (1 / 10 ^ 280) with htiny | hlarge
  · have hlog := log_lt_of_tiny hne htiny
    have hread := @read_tiny P (scaledDecimal (decide (d < 0)) 6 (sevenDigits d).1
      (some (sevenDigits d).2)) (by rw [digits_scaledDecimal]; exact hlt.le)
      (by rw [hscale]; omega)
    refine (abs_sub _ _).trans ?_
    have hnumber : |d| ≤ 1 / 10 ^ 50 := htiny.le.trans
      (one_div_le_one_div_of_le (by positivity) (pow_le_pow_right₀ (by norm_num) (by norm_num)))
    calc _ ≤ (1 : ℚ) / 10 ^ 50 + 1 / 10 ^ 50 := add_le_add hread hnumber
      _ ≤ 1 / 10 ^ 6 := by norm_num
      _ ≤ tolerance d := tolerance_ge d
  have hdigits : (scaledDecimal (decide (d < 0)) 6 (sevenDigits d).1
      (some (sevenDigits d).2)).digits ≤ 2 ^ 53 := by
    rw [digits_scaledDecimal]
    exact hlt.le.trans (by decide)
  have hvalue : |(scaledDecimal (decide (d < 0)) 6 (sevenDigits d).1
      (some (sevenDigits d).2)).value - d| ≤ |d| / (2 * 10 ^ 6) := by
    rw [value_error]
    exact herror
  have hlog := le_log_of_large hlarge
  have hlogHigh := log_le_of_finite hne hd
  have hread := read_error P (read_within_short P (by rw [hscale]; omega) (by rw [hscale]; omega)
    hdigits) hvalue (spread_nonneg unitError_nonneg 3)
  have hspread : spread unitError 3 ≤ 1 / 2 ^ 51 := by norm_num [spread, unitError]
  have hsmall : spread unitError 3 * (|d| + |d| / (2 * 10 ^ 6)) ≤
      1 / 2 ^ 51 * (|d| + |d| / (2 * 10 ^ 6)) := by gcongr
  refine le_trans ?_ (le_tolerance h)
  linarith [abs_nonneg d]

/-- The sign and the digits of an integer are the integer. -/
theorem value_intDecimal (i : ℤ) :
    (scaledDecimal (decide (i < 0)) 0 i.natAbs none).value = i := by
  unfold Decimal.value
  rw [digits_scaledDecimal, scale_scaledDecimal, zpow_scale, pow_zero, inv_one, mul_one]
  unfold Decimal.sign scaledDecimal
  dsimp only
  by_cases hneg : i < 0
  · have hsign : (-1 : ℤ) * i.natAbs = i := by omega
    rw [decide_eq_true hneg, if_pos rfl, ← Int.cast_natCast, ← Int.cast_mul, hsign]
  · have hsign : (1 : ℤ) * i.natAbs = i := by omega
    rw [decide_eq_false hneg, if_neg (by decide), ← Int.cast_natCast, ← Int.cast_mul, hsign]

/-- An integer that is shown has twenty digits at most. -/
theorem natAbs_lt_of_shows {i : ℤ} {d : ℚ} (h : showsInteger i d) : i.natAbs < 10 ^ 20 := by
  obtain ⟨hfl, hhigh, hlow⟩ := h
  have hnear := abs_le_of_fl hfl
  have hepsilon : 2 * dblEpsilon < 1 := by norm_num [dblEpsilon]
  have hrounded := fl_near (i : ℚ)
  have htiny : (1 : ℚ) / 2 ^ 200 ≤ 1 := by norm_num
  have hd : |d| ≤ 2 ^ 63 := abs_le.mpr ⟨hlow, hhigh⟩
  have hunit : unitError * |(i : ℚ)| ≤ 1 / 2 * |(i : ℚ)| := by
    gcongr
    norm_num [unitError]
  have hfirst := abs_sub_le (i : ℚ) (fl i) d
  rw [abs_sub_comm (i : ℚ) (fl i)] at hfirst
  have hsecond := abs_add_le ((i : ℚ) - d) d
  rw [sub_add_cancel] at hsecond
  have hbound : (i.natAbs : ℚ) < ((10 ^ 20 : ℕ) : ℚ) := by
    rw [Nat.cast_natAbs, Int.cast_abs, Nat.cast_pow, Nat.cast_ofNat]
    linarith [show (2 : ℚ) * (2 ^ 63 + 2) < 10 ^ 20 by norm_num]
  exact_mod_cast hbound

/-- A number that its integer slot shows is read back within the tolerance: all digits are
printed, and the reader rounds once for each. -/
theorem integer_close (P : PowerOfTen) {i : ℤ} {d : ℚ} (h : showsInteger i d) :
    |(scaledDecimal (decide (i < 0)) 0 i.natAbs none).read P - d| ≤ tolerance d := by
  obtain ⟨hfl, -, -⟩ := id h
  have hnear := abs_le_of_fl hfl
  have hepsilon : 2 * dblEpsilon < 1 / 10 ^ 12 := by norm_num [dblEpsilon]
  rcases le_or_gt |i| (2 ^ 53) with hsmall | hlarge
  · rw [read_intDecimal P hsmall]
    rw [fl_intCast hsmall] at hnear
    exact hnear.trans (hepsilon.le.trans (le_trans (by norm_num) (tolerance_ge d)))
  · have hlargeCast : (2 : ℚ) ^ 53 < |(i : ℚ)| := by
      rw [← Int.cast_abs]
      exact_mod_cast hlarge
    have hone : (1 : ℚ) ≤ 2 ^ 53 := by norm_num
    have hrounded := fl_within (minNormal_le_one.trans (hone.trans hlargeCast.le))
    unfold Within at hrounded
    have hdist : |(i : ℚ) - d| ≤ unitError * |(i : ℚ)| + 1 / 10 ^ 12 := by
      have htriangle := abs_sub_le (i : ℚ) (fl i) d
      rw [abs_sub_comm (i : ℚ) (fl i)] at htriangle
      linarith
    have hunit : unitError * |(i : ℚ)| ≤ 1 / 2 ^ 52 * |(i : ℚ)| := by
      gcongr
      norm_num [unitError]
    have hsize : |(i : ℚ)| ≤ 2 * |d| := by
      have htriangle := abs_add_le ((i : ℚ) - d) d
      rw [sub_add_cancel] at htriangle
      linarith
    have hlength : ((scaledDecimal (decide (i < 0)) 0 i.natAbs none).whole ++
        (scaledDecimal (decide (i < 0)) 0 i.natAbs none).places).length ≤ 20 := by
      have hdigits : (natText i.natAbs).length ≤ 20 :=
        (Nat.length_toDigits_le_iff (by decide) (by decide)).mpr (natAbs_lt_of_shows h)
      unfold scaledDecimal
      dsimp only
      rw [if_pos rfl, List.append_nil, pow_zero, Nat.div_one]
      exact hdigits
    obtain ⟨hlow, hhigh⟩ := scale_fixed (decide (i < 0)) i.natAbs (Nat.zero_le 6)
    have hread := read_within_long P hlow hhigh
    rw [value_intDecimal] at hread
    have hspread : spread unitError (2 * ((scaledDecimal (decide (i < 0)) 0 i.natAbs none).whole ++
        (scaledDecimal (decide (i < 0)) 0 i.natAbs none).places).length + 3) ≤ 1 / 2 ^ 45 :=
      (spread_mono unitError_nonneg (m := 43) (by omega)).trans (by norm_num [spread, unitError])
    have hclose : |(scaledDecimal (decide (i < 0)) 0 i.natAbs none).read P - i| ≤
        1 / 2 ^ 45 * |(i : ℚ)| := hread.mono hspread
    have htriangle := abs_sub_le ((scaledDecimal (decide (i < 0)) 0 i.natAbs none).read P) i d
    refine le_trans ?_ (le_tolerance fun hle => ?_)
    · linarith
    · linarith

/-- A number that is printed is read as one that is near, by cases on the four formats of
`print_number`. -/
theorem printedDecimal_close (P : PowerOfTen) {i : ℤ} {d : ℚ} {x : Decimal} (hd : FiniteDouble d)
    (hx : printedDecimal i d = some x) : |x.read P - d| ≤ tolerance d := by
  unfold printedDecimal at hx
  split at hx
  · rename_i hzero
    cases hx
    have hread : (scaledDecimal false 0 0 none).read P = 0 := by
      have hint := read_intDecimal P (i := 0) (by decide)
      rw [Int.cast_zero] at hint
      exact hint
    rw [hread, hzero, sub_zero, abs_zero]
    exact le_trans (by norm_num) (tolerance_ge 0)
  rename_i hne
  split at hx
  · rename_i hshows
    cases hx
    exact integer_close P hshows
  split at hx
  · cases hx
  split at hx
  · rename_i hwhole
    cases hx
    exact whole_close P hwhole.1 hwhole.2
  split at hx
  · rename_i hrange
    cases hx
    refine scientific_close P hne hd fun hle => ?_
    have hdouble := fl_le_double (q := 1 / 10 ^ 6) (by norm_num)
    rcases hrange with hsmall | hlarge
    · linarith
    · exact absurd hle (not_le.mpr hlarge)
  · rename_i hrange
    cases hx
    exact fixed_close P (not_lt.mp fun hlt => hrange (Or.inr hlt))

/-- Truncation of a number below one. -/
theorem tdiv_of_small {d : ℚ} (h : |d| < 1) : d.num.tdiv d.den = 0 := by
  have hden : (0 : ℚ) < d.den := by exact_mod_cast d.den_pos
  have hnum : |(d.num : ℚ)| < d.den := by
    rw [← Rat.num_div_den d, abs_div, abs_of_pos hden, div_lt_one hden] at h
    exact h
  have hlt : d.num.natAbs < d.den := by
    rw [← Int.cast_abs, ← Int.cast_natCast, Int.cast_lt, Int.abs_eq_natAbs] at hnum
    exact_mod_cast hnum
  rw [← Int.natAbs_eq_zero, Int.natAbs_tdiv, Int.natAbs_natCast]
  exact Nat.div_eq_of_lt hlt

/-- A node whose integer slot is the truncated double is never printed as `null`: where the
slot does not show the number one of the other formats does. -/
theorem printedDecimal_isSome (d : ℚ) : (printedDecimal (d.num.tdiv d.den) d).isSome = true := by
  unfold printedDecimal
  split
  · rfl
  rename_i hne
  split
  · rfl
  rename_i hshows
  split
  · rename_i hsmall
    have htiny : (1 : ℚ) / 2 ^ 1022 ≤ 1 / 2 ^ 54 :=
      one_div_le_one_div_of_le (by positivity) (pow_le_pow_right₀ (by norm_num) (by norm_num))
    have hsmall' : |d| < 1 / 2 ^ 54 := hsmall.trans_le htiny
    have hone : |d| < 1 := hsmall'.trans_le (by norm_num)
    have hbounds := abs_le.mp hone.le
    have hround := fl_near (-d)
    have hslack : (1 : ℚ) / 2 ^ 200 ≤ 1 / 2 ^ 53 := by norm_num
    have htriangle := abs_add_le (fl (-d) - -d) (-d)
    rw [sub_add_cancel] at htriangle
    have hunit : unitError * |-d| ≤ 1 * |-d| := by
      gcongr
      norm_num [unitError]
    refine absurd ⟨?_, by linarith only [hbounds.2], by linarith only [hbounds.1]⟩ hshows
    rw [tdiv_of_small hone, Int.cast_zero, fl_zero, zero_sub]
    rw [abs_neg] at hunit htriangle hround
    have hdouble : 2 * (1 / 2 ^ 54 : ℚ) + 1 / 2 ^ 53 = dblEpsilon := by norm_num [dblEpsilon]
    linarith only [hunit, htriangle, hround, hsmall', hdouble, hslack]
  split
  · rfl
  split
  · rfl
  · rfl

/-- Numbers up to 2¹⁰⁰⁰ are finite when they are rounded. -/
theorem finite_of_le {q : ℚ} (h : |q| ≤ 2 ^ 1000) : FiniteDouble q :=
  h.trans_lt (pow_lt_pow_right₀ (by norm_num) (by norm_num))

/-- One more digit of a number with few of them does not overflow, as a digit takes less than
six binary ones. -/
theorem addDigit_some {a : ℚ} {d k : ℕ} (ha : |a| ≤ 2 ^ (6 * k)) (hd : d ≤ 9) (hk : k < 160) :
    addDigit (some a) d = some (appendDigit a d) ∧ |appendDigit a d| ≤ 2 ^ (6 * (k + 1)) := by
  have hone : (1 : ℚ) ≤ 2 ^ (6 * k) := one_le_pow₀ (by norm_num)
  have hnext : (2 : ℚ) ^ (6 * (k + 1)) = 64 * 2 ^ (6 * k) := by
    rw [mul_add, pow_add]
    ring
  have hbound : (2 : ℚ) ^ (6 * (k + 1)) ≤ 2 ^ 1000 :=
    pow_le_pow_right₀ (by norm_num) (by omega)
  rw [hnext] at hbound ⊢
  generalize (2 : ℚ) ^ (6 * k) = b at ha hone hbound ⊢
  have hten := abs_fl_le (a * 10)
  rw [abs_mul, abs_of_pos (by norm_num : (0 : ℚ) < 10)] at hten
  have hcast : |((d : ℕ) : ℚ)| ≤ 9 := by
    rw [abs_of_nonneg (Nat.cast_nonneg d)]
    exact_mod_cast hd
  have hsum : |fl (a * 10) + d| ≤ |fl (a * 10)| + 9 :=
    (abs_add_le _ _).trans (add_le_add_right hcast _)
  have hlast := abs_fl_le (fl (a * 10) + d)
  have hfirst : |fl (a * 10)| ≤ 64 * b := by linarith
  have hvalue : |fl (fl (a * 10) + d)| ≤ 64 * b := by linarith
  refine ⟨?_, hvalue⟩
  unfold addDigit double
  rw [Option.bind_some, if_pos (finite_of_le (hfirst.trans hbound)), Option.bind_some,
    if_pos (finite_of_le (hvalue.trans hbound))]
  rfl

/-- Few digits do not overflow. -/
theorem accumulated_eq {digits : Text} (hdigits : Digits digits) {a : ℚ} {k : ℕ}
    (ha : |a| ≤ 2 ^ (6 * k)) (hlength : k + digits.length ≤ 160) :
    accumulated digits (some a) = some (accumulate digits a) := by
  induction digits generalizing a k with
  | nil => rfl
  | cons c digits ih =>
    rw [List.length_cons] at hlength
    have hc := byte_digit_bounds (hdigits c List.mem_cons_self)
    rw [toNat_byte_digit (hdigits c List.mem_cons_self)] at hc
    obtain ⟨hstep, hvalue⟩ := @addDigit_some a (c.toNat - 48) k ha (by omega) (by omega)
    have hcons : accumulated (c :: digits) (some a) =
        accumulated digits (addDigit (some a) (c.toNat - 48)) := rfl
    rw [hcons, hstep]
    exact ih (fun b hb => hdigits b (List.mem_cons_of_mem _ hb)) hvalue (by omega)

/-- A decimal with few digits and a finite value is in range. -/
theorem inRange_of (P : PowerOfTen) {x : Decimal} (hlength : (x.whole ++ x.places).length ≤ 160)
    (hexponent : (x.exponent.getD 0).natAbs < 2 ^ 31) (hscale : x.scale ≤ 308)
    (hfinite : FiniteDouble (x.read P)) : x.InRange P where
  digits := by
    have hdigits : Digits (x.whole ++ x.places) := by
      intro c hc
      rcases List.mem_append.mp hc with hwhole | hplaces
      · exact x.wholeDigits c hwhole
      · exact x.placesDigits c hplaces
    exact accumulated_eq hdigits (k := 0) (by norm_num) (by omega)
  exponent := hexponent
  scale := hscale
  finite := hfinite

/-- How many digits a decimal has. -/
theorem length_digits_scaledDecimal (negative : Bool) (precision : ℕ) {n k : ℕ}
    (exponent : Option ℤ) (hk : 0 < k) (h : n < 10 ^ k) :
    ((scaledDecimal negative precision n exponent).whole ++
      (scaledDecimal negative precision n exponent).places).length ≤ k + precision := by
  have hwhole : (natText (n / 10 ^ precision)).length ≤ k :=
    (Nat.length_toDigits_le_iff (by decide) hk).mpr ((Nat.div_le_self _ _).trans_lt h)
  unfold scaledDecimal
  dsimp only
  rw [List.length_append, length_places]
  omega

/-- The tolerance is never larger than the number and one more. -/
theorem tolerance_le (d : ℚ) : tolerance d ≤ |d| + 1 := by
  have hnonneg := abs_nonneg d
  unfold tolerance
  split
  · linarith [show (1 : ℚ) / 10 ^ 6 ≤ 1 by norm_num]
  · have hle : |d| / 10 ^ 6 ≤ |d| := div_le_self hnonneg (by norm_num)
    linarith

/-- What is near a moderate number is finite. -/
theorem finite_of_close {r d : ℚ} (hclose : |r - d| ≤ tolerance d) (hd : |d| ≤ 2 ^ 250) :
    FiniteDouble r := by
  have htriangle := abs_add_le (r - d) d
  rw [sub_add_cancel] at htriangle
  have htolerance := tolerance_le d
  have hr : |r| ≤ 2 ^ 252 := by
    calc |r| ≤ 2 * 2 ^ 250 + 1 := by linarith
      _ ≤ 2 ^ 252 := by norm_num
  exact finite_of_le (hr.trans (pow_le_pow_right₀ (by norm_num) (by norm_num)))

/-- The seven digits of a finite number, at their scale, stay below the largest `double`,
which begins with 1.7976931 and so leaves room for its own. -/
theorem sevenDigits_le {d : ℚ} (hne : d ≠ 0) (hd : FiniteDouble d) :
    (sevenDigits d).1 * (10 : ℚ) ^ ((sevenDigits d).2 - 6) ≤ 1797693 * 10 ^ 302 := by
  have hlog := log_le_of_finite hne hd
  have hseven := (sevenDigits_error hne).1
  rcases (show Int.log 10 |d| ≤ 307 ∨ Int.log 10 |d| = 308 by omega) with hsmall | htop
  · have hpower {e : ℤ} (he : e ≤ 308) : (10 : ℚ) ^ e ≤ 1797693 * 10 ^ 302 := by
      have hle : (10 : ℚ) ^ e ≤ 10 ^ (6 + 302 : ℤ) := zpow_le_zpow_right₀ (by norm_num) he
      have hsplit : (10 : ℚ) ^ (6 + 302 : ℤ) = 10 ^ 6 * 10 ^ 302 := by
        rw [zpow_add₀ (by norm_num)]
        rfl
      rw [hsplit] at hle
      refine hle.trans ?_
      gcongr
      norm_num
    have hshift (k : ℕ) (e : ℤ) : (10 : ℚ) ^ k * 10 ^ e = 10 ^ (k + e) := by
      rw [zpow_add₀ (by norm_num), zpow_natCast]
    unfold sevenDigits at hseven ⊢
    dsimp only at hseven ⊢
    split
    · rw [Nat.cast_pow, Nat.cast_ofNat, hshift]
      exact hpower (by omega)
    · rename_i hcarry
      rw [if_neg hcarry] at hseven
      have hcast : (((roundHalfEven (|d| / (10 : ℚ) ^ (Int.log 10 |d| - 6))).toNat : ℕ) : ℚ) ≤
          10 ^ 7 := by exact_mod_cast hseven.le
      have hunit : (0 : ℚ) ≤ 10 ^ (Int.log 10 |d| - 6) := zpow_nonneg (by norm_num) _
      refine (mul_le_mul_of_nonneg_right hcast hunit).trans ?_
      rw [hshift]
      exact hpower (by omega)
  · have hunit : (10 : ℚ) ^ (Int.log 10 |d| - 6) = 10 ^ 302 := by
      rw [htop]
      rfl
    have hquotient : |d| / (10 : ℚ) ^ 302 < ((1797693 : ℤ) : ℚ) + 1 / 2 := by
      have hnumbers : 2 * 2 ^ 1024 ≤ 3595387 * 10 ^ 302 := by decide +kernel
      have hcast : 2 * (2 : ℚ) ^ 1024 ≤ 3595387 * 10 ^ 302 := by exact_mod_cast hnumbers
      have hlt : 2 * |d| < 2 * (2 : ℚ) ^ 1024 := mul_lt_mul_of_pos_left hd (by norm_num)
      rw [div_lt_iff₀ (by positivity), Int.cast_ofNat]
      generalize (2 : ℚ) ^ 1024 = bound at hcast hlt
      generalize (10 : ℚ) ^ 302 = unit at hcast ⊢
      linarith only [hcast, hlt]
    have hround := roundHalfEven_le_of_lt hquotient
    have hnat : (roundHalfEven (|d| / (10 : ℚ) ^ 302)).toNat ≤ 1797693 := by omega
    have hcast : (((roundHalfEven (|d| / (10 : ℚ) ^ 302)).toNat : ℕ) : ℚ) ≤ 1797693 := by
      exact_mod_cast hnat
    unfold sevenDigits
    dsimp only
    rw [hunit, if_neg (by omega)]
    dsimp only
    rw [hunit]
    exact mul_le_mul_of_nonneg_right hcast (by positivity)

/-- A number that `%e` has printed is read as a finite one, the largest ones included, whose
seven digits stay below the largest `double`. -/
theorem scientific_finite (P : PowerOfTen) {d : ℚ} (hne : d ≠ 0) (hd : FiniteDouble d)
    (h : |d| ≤ 10 ^ 9 → |d| ≤ 1) :
    FiniteDouble ((scaledDecimal (decide (d < 0)) 6 (sevenDigits d).1
      (some (sevenDigits d).2)).read P) := by
  rcases le_or_gt |d| (2 ^ 250) with hmoderate | hlarge
  · exact finite_of_close (scientific_close P hne hd h) hmoderate
  · have hone : (1 : ℚ) / 10 ^ 280 ≤ 1 := by
      rw [div_le_one (by positivity)]
      exact one_le_pow₀ (by norm_num)
    have hbase : (1 : ℚ) ≤ 2 ^ 250 := one_le_pow₀ (by norm_num)
    have hlow := le_log_of_large (hone.trans (hbase.trans hlarge.le))
    have hhigh := log_le_of_finite hne hd
    obtain ⟨hlower, hupper⟩ := sevenDigits_exponent d
    have hscale := scale_scaledDecimal (decide (d < 0)) 6 (sevenDigits d).1 (some (sevenDigits d).2)
    rw [Option.getD_some] at hscale
    have hdigits : (scaledDecimal (decide (d < 0)) 6 (sevenDigits d).1
        (some (sevenDigits d).2)).digits ≤ 2 ^ 53 := by
      rw [digits_scaledDecimal]
      exact (sevenDigits_error hne).1.le.trans (by decide)
    have hread := read_within_short P (by rw [hscale]; omega) (by rw [hscale]; omega) hdigits
    unfold Within at hread
    have hvalue : |(scaledDecimal (decide (d < 0)) 6 (sevenDigits d).1
        (some (sevenDigits d).2)).value| ≤ 1797693 * 10 ^ 302 := by
      refine le_trans (le_of_eq ?_) (sevenDigits_le hne hd)
      unfold Decimal.value
      rw [digits_scaledDecimal, hscale, abs_mul, abs_mul, Nat.abs_cast,
        abs_of_pos (zpow_pos (by norm_num : (0 : ℚ) < 10) _)]
      unfold Decimal.sign
      split
      · norm_num
      · norm_num
    have hspread : spread unitError 3 ≤ 1 / 2 ^ 51 := by norm_num [spread, unitError]
    have hproduct := mul_le_mul hspread hvalue (abs_nonneg _) (by norm_num)
    have htriangle := abs_add_le ((scaledDecimal (decide (d < 0)) 6 (sevenDigits d).1
      (some (sevenDigits d).2)).read P - (scaledDecimal (decide (d < 0)) 6 (sevenDigits d).1
      (some (sevenDigits d).2)).value) (scaledDecimal (decide (d < 0)) 6 (sevenDigits d).1
      (some (sevenDigits d).2)).value
    rw [sub_add_cancel] at htriangle
    have hnumbers : (2 ^ 51 + 1) * (1797693 * 10 ^ 302) < 2 ^ 51 * 2 ^ 1024 := by decide +kernel
    have hcast : ((2 : ℚ) ^ 51 + 1) * (1797693 * 10 ^ 302) < 2 ^ 51 * 2 ^ 1024 := by
      exact_mod_cast hnumbers
    unfold FiniteDouble
    generalize (1797693 : ℚ) * 10 ^ 302 = bound at hvalue hproduct hcast
    calc _ ≤ 1 / 2 ^ 51 * bound + bound := by linarith
      _ = ((2 ^ 51 + 1) * bound) / 2 ^ 51 := by ring
      _ < 2 ^ 1024 := by
        rw [div_lt_iff₀ (by positivity), mul_comm ((2 : ℚ) ^ 1024)]
        exact hcast

/-- Nothing overflows when the parser reads what was printed of a finite number: neither the
digits, nor the exponent, nor the product of both. -/
theorem printedDecimal_inRange (P : PowerOfTen) {i : ℤ} {d : ℚ} {x : Decimal}
    (hd : FiniteDouble d) (hx : printedDecimal i d = some x) : x.InRange P := by
  have hclose := printedDecimal_close P hd hx
  have hnone : ((none : Option ℤ).getD 0).natAbs < 2 ^ 31 := by decide
  unfold printedDecimal at hx
  split at hx
  · rename_i hzero
    cases hx
    refine inRange_of P (by decide) (by decide) (scale_fixed _ _ (Nat.zero_le 6)).2
      (finite_of_close hclose ?_)
    rw [hzero, abs_zero]
    positivity
  rename_i hne
  split at hx
  · rename_i hshows
    cases hx
    have hlength := length_digits_scaledDecimal (decide (i < 0)) 0 none
      (by decide : 0 < 20) (natAbs_lt_of_shows hshows)
    refine inRange_of P (by omega) hnone (scale_fixed _ _ (Nat.zero_le 6)).2
      (finite_of_close hclose ?_)
    obtain ⟨-, hhigh, hlow⟩ := hshows
    exact (abs_le.mpr ⟨hlow, hhigh⟩).trans (pow_le_pow_right₀ (by norm_num) (by norm_num))
  split at hx
  · cases hx
  rename_i hnormal
  rw [not_lt] at hnormal
  split at hx
  · rename_i hwhole
    cases hx
    have hlength := length_digits_scaledDecimal (decide (d < 0)) 0 none
      (by decide : 0 < 61) (scaled_lt_of_whole hwhole.1 hwhole.2)
    refine inRange_of P (by omega) hnone (scale_fixed _ _ (Nat.zero_le 6)).2
      (finite_of_close hclose ?_)
    have hbound : fl (10 ^ 60) ≤ 2 * 10 ^ 60 := fl_le_double (by norm_num)
    calc |d| ≤ 2 * 10 ^ 60 := hwhole.2.le.trans hbound
      _ ≤ 2 ^ 250 := by norm_num
  split at hx
  · rename_i hrange
    cases hx
    have hlength := length_digits_scaledDecimal (decide (d < 0)) 6
      (some (sevenDigits d).2) (by decide : 0 < 7) (sevenDigits_error hne).1
    obtain ⟨hlower, hupper⟩ := sevenDigits_exponent d
    have hlow := le_log_of_normal hnormal
    have hhigh := log_le_of_finite hne hd
    refine inRange_of P (by omega) ?_ ?_ (scientific_finite P hne hd fun hle => ?_)
    · change (sevenDigits d).2.natAbs < 2 ^ 31
      omega
    · rw [scale_scaledDecimal, Option.getD_some]
      omega
    · have hdouble := fl_le_double (q := 1 / 10 ^ 6) (by norm_num)
      rcases hrange with hsmall | hlarge
      · linarith
      · exact absurd hle (not_le.mpr hlarge)
  · rename_i hrange
    cases hx
    have hle : |d| ≤ 10 ^ 9 := not_lt.mp fun hlt => hrange (Or.inr hlt)
    have hscaled : scaled 6 |d| ≤ 10 ^ 15 := by
      refine scaled_le (abs_nonneg d) ?_
      push_cast
      linarith
    rw [scaled_abs] at hscaled
    have hlength := length_digits_scaledDecimal (decide (d < 0)) 6 none
      (by decide : 0 < 16) (hscaled.trans_lt (by decide))
    refine inRange_of P (by omega) hnone (scale_fixed _ _ le_rfl).2
      (finite_of_close hclose (hle.trans (by norm_num)))

end IperfRuntime.NumberAccuracy
