import IperfRuntime.JsonTree
import IperfRuntime.SignificandRounding
import IperfRuntime.UnitFormats

/-!
# Numbers in JSON texts

`print_number` and `parse_number`. A finite `double` is a rational and every operation on it is
rounded to 53 binary digits, or to multiples of 2⁻¹⁰⁷⁴ below the normal numbers; `pow` is
whatever the C library has, as long as it errs in the last digit at most. Infinities and NaNs
have no value here: a number that is read as one of them is `none`, as is one with an exponent
that overflows its `int`, which is undefined in C.
-/

namespace IperfRuntime.JsonNumbers

open JsonTree PrintfText PrintedNumbers UnitFormats SignificandRounding

/-- A character of a C text. -/
def byte (c : Char) : UInt8 := UInt8.ofNat c.toNat

/-- The bytes of a text. -/
def bytes (text : Text) : List UInt8 := text.map byte

/-- The rounding of the floating-point unit. -/
def nearestEven : NearestInteger := ⟨roundHalfEven, roundHalfEven_error⟩

/-- The result of an operation on `double` values that does not overflow. -/
def fl (q : ℚ) : ℚ :=
  if |q| < 1 / 2 ^ 1022 then roundHalfEven (q * 2 ^ 1074) / 2 ^ 1074 else rounded nearestEven 53 q

/-- A number that a `double` can hold, as far as its magnitude goes. -/
def FiniteDouble (d : ℚ) : Prop := |d| < 2 ^ 1024

instance (d : ℚ) : Decidable (FiniteDouble d) := inferInstanceAs (Decidable (_ < _))

/-- The result of an operation on `double` values, `none` when it overflows. -/
def double (q : ℚ) : Option ℚ := if FiniteDouble (fl q) then some (fl q) else none

/-- In the normal range rounding to a double is rounding to 53 significant bits. -/
theorem fl_of_normal {q : ℚ} (h : 1 / 2 ^ 1022 ≤ |q|) : fl q = rounded nearestEven 53 q :=
  if_neg (not_lt.mpr h)

/-- An operation errs by half a unit of the last digit, which the subnormal numbers share. -/
theorem fl_error (q : ℚ) : |fl q - q| ≤ 1 / 2 ^ 53 * |q| + 1 / 2 ^ 1075 := by
  unfold fl
  split
  · have hunit : (0 : ℚ) < 2 ^ 1074 := by positivity
    have hround := roundHalfEven_error (q * 2 ^ 1074)
    have herror : (roundHalfEven (q * 2 ^ 1074) : ℚ) / 2 ^ 1074 - q =
        (roundHalfEven (q * 2 ^ 1074) - q * 2 ^ 1074) / 2 ^ 1074 := by
      rw [sub_div, mul_div_cancel_right₀ _ hunit.ne']
    have hhalf : (1 : ℚ) / 2 / 2 ^ 1074 = 1 / 2 ^ 1075 := by
      rw [div_div, ← pow_succ']
    have hbound : |(roundHalfEven (q * 2 ^ 1074) : ℚ) - q * 2 ^ 1074| / 2 ^ 1074 ≤
        1 / 2 / 2 ^ 1074 := by gcongr
    rw [herror, abs_div, abs_of_pos hunit, ← hhalf]
    exact hbound.trans (le_add_of_nonneg_left (by positivity))
  · exact le_trans (rounded_within nearestEven 53 q) (le_add_of_nonneg_right (by positivity))

/-- Zero is a double. -/
theorem fl_zero : fl 0 = 0 := by
  have hzero : roundHalfEven 0 = 0 := nearestEven.toInt_intCast 0
  unfold fl
  rw [if_pos (by rw [abs_zero]; positivity), zero_mul, hzero, Int.cast_zero, zero_div]

/-- Every integer up to `2 ^ 53` in size is a double. -/
theorem fl_intCast {n : ℤ} (h : |n| ≤ 2 ^ 53) : fl n = n := by
  rcases eq_or_ne n 0 with rfl | hne
  · rw [Int.cast_zero, fl_zero]
  · have hone : (1 : ℚ) ≤ |(n : ℚ)| := by
      rw [← Int.cast_abs]
      exact_mod_cast Int.one_le_abs hne
    have hnormal : (1 : ℚ) / 2 ^ 1022 ≤ 1 := by
      rw [div_le_one (by positivity)]
      exact one_le_pow₀ (by norm_num)
    rw [fl_of_normal (hnormal.trans hone)]
    exact rounded_intCast nearestEven (by decide) h

/-- Zero is a finite double. -/
theorem double_zero : double 0 = some 0 := by
  unfold double
  rw [fl_zero, if_pos]
  unfold FiniteDouble
  rw [abs_zero]
  positivity

/-- `pow(10.0, k)`. -/
structure PowerOfTen where
  /-- What the library returns for the exponents up to 308; from 309 on it returns infinity. -/
  pow : ℤ → ℚ
  /-- The power with exponent zero is exact. -/
  zero : pow 0 = 1
  /-- The finite powers err by a unit of the last digit at most. -/
  near : ∀ k ≤ 308, |pow k - 10 ^ k| ≤ 1 / 2 ^ 52 * 10 ^ k + 1 / 2 ^ 1074

/-- A library that rounds its powers correctly. -/
def roundedPower : PowerOfTen where
  pow k := fl (10 ^ k)
  zero := by
    have hone := fl_intCast (n := 1) (by decide)
    rw [zpow_zero]
    rwa [Int.cast_one] at hone
  near k _ := by
    have herror := fl_error (10 ^ k)
    have hpos : (0 : ℚ) < 10 ^ k := zpow_pos (by norm_num) k
    rw [abs_of_pos hpos] at herror
    refine herror.trans (add_le_add ?_ ?_)
    · gcongr
      · norm_num
      · norm_num
    · gcongr
      · norm_num
      · norm_num

/-- `DBL_EPSILON`. -/
def dblEpsilon : ℚ := 1 / 2 ^ 52

/-- The seven significant digits of `%e` and the exponent of the first. -/
def sevenDigits (x : ℚ) : ℕ × ℤ :=
  let e := Int.log 10 |x|
  let m := (roundHalfEven (|x| / (10 : ℚ) ^ (e - 6))).toNat
  if m = 10 ^ 7 then (10 ^ 6, e + 1) else (m, e)

/-- `%e`. -/
def scientificText (x : ℚ) : Text :=
  (if x < 0 then ['-'] else []) ++ scaledText 6 (sevenDigits x).1 ++
    'e' :: (if (sevenDigits x).2 < 0 then '-' else '+') :: zeroPadded 2 (sevenDigits x).2.natAbs

/-- A value that the integer slot of its node shows exactly. -/
def showsInteger (valueint : ℤ) (d : ℚ) : Prop :=
  |fl (fl valueint - d)| ≤ dblEpsilon ∧ d ≤ 2 ^ 63 ∧ -2 ^ 63 ≤ d

instance (valueint : ℤ) (d : ℚ) : Decidable (showsInteger valueint d) := by
  unfold showsInteger
  infer_instance

/-- `print_number`: what it writes into its buffer. -/
def printNumber (valueint : ℤ) (d : ℚ) : Text :=
  if d = 0 then lit "0"
  else if showsInteger valueint d then intText valueint
  else if |d| < 1 / 2 ^ 1022 then lit "null"
  else if |fl (⌊d⌋ - d)| ≤ dblEpsilon ∧ |d| < fl (10 ^ 60) then fixedText 0 d
  else if |d| < fl (1 / 10 ^ 6) ∨ 10 ^ 9 < |d| then scientificText d
  else fixedText 6 d

/-- `*num>='0' && *num<='9'`. -/
def isDigit (b : UInt8) : Bool := byte '0' ≤ b && b ≤ byte '9'

section Digits

variable {α : Type*} (step : α → ℕ → α)

/-- A loop over digits: what it computes, how many digits it takes and what follows them. -/
def takeDigits : List UInt8 → α → ℕ → α × ℕ × List UInt8
  | [], n, count => (n, count, [])
  | b :: num, n, count =>
    if isDigit b then takeDigits num (step n (b.toNat - 48)) (count + 1) else (n, count, b :: num)

end Digits

/-- `n=(n*10.0)+(*num++ -'0')`. -/
def addDigit (n : Option ℚ) (d : ℕ) : Option ℚ :=
  (n.bind fun n => double (n * 10)).bind fun n => double (n + d)

/-- `subscale=(subscale*10)+(*num++ - '0')`. -/
def addExponentDigit (subscale : ℤ) (d : ℕ) : ℤ := subscale * 10 + d

/-- `if (*num=='-') sign=-1,num++`, for the numbers `sign` can be. -/
def takeSign : List UInt8 → ℤ × List UInt8
  | [] => (1, [])
  | b :: num => if b = byte '-' then (-1, num) else (1, b :: num)

/-- `if (*num=='0') num++`. -/
def takeZero : List UInt8 → List UInt8
  | [] => []
  | b :: num => if b = byte '0' then num else b :: num

/-- The digits in front of the point, which do not begin with a zero. -/
def takeWhole : List UInt8 → Option ℚ × ℕ × List UInt8
  | [] => (some 0, 0, [])
  | b :: num =>
    if byte '1' ≤ b ∧ b ≤ byte '9' then takeDigits addDigit (b :: num) (some 0) 0
    else (some 0, 0, b :: num)

/-- The digits behind the point: a point without a digit behind it is left alone. -/
def takeFraction (n : Option ℚ) : List UInt8 → Option ℚ × ℕ × List UInt8
  | b :: d :: num =>
    if b = byte '.' ∧ isDigit d = true then takeDigits addDigit (d :: num) n 0
    else (n, 0, b :: d :: num)
  | num => (n, 0, num)

/-- The sign of an exponent. -/
def takeExponentSign : List UInt8 → ℤ × List UInt8
  | [] => (1, [])
  | b :: num =>
    if b = byte '+' then (1, num) else if b = byte '-' then (-1, num) else (1, b :: num)

/-- The exponent, which may have no digits. -/
def takeExponent : List UInt8 → ℤ × List UInt8
  | [] => (0, [])
  | b :: num =>
    if b = byte 'e' ∨ b = byte 'E' then
      let sign := takeExponentSign num
      let digits := takeDigits addExponentDigit sign.2 0 0
      (digits.1 * sign.1, digits.2.2)
    else (0, b :: num)

/-- A number node whose integer slot is the truncated double; the conversion of one beyond 64 bits
is undefined in C. -/
def parsedNumber (n : ℚ) : CJson := .number (n.num.tdiv n.den) n

/-- `sign*n*pow(10.0,k)`: multiplying with the sign is exact, and with an infinite power the
product is not finite either. -/
def scaleNumber (P : PowerOfTen) (sign : ℤ) (n : ℚ) (k : ℤ) : Option ℚ :=
  if k ≤ 308 then double (sign * n * P.pow k) else none

/-- `parse_number`. An exponent that overflows its `int` on the way is beyond it at the end. -/
def parseNumber (P : PowerOfTen) (num : List UInt8) : Option CJson × List UInt8 :=
  let sign := takeSign num
  let whole := takeWhole (takeZero sign.2)
  let fraction := takeFraction whole.1 whole.2.2
  let exponent := takeExponent fraction.2.2
  let n := if exponent.1.natAbs < 2 ^ 31 then
      fraction.1.bind fun n => scaleNumber P sign.1 n (exponent.1 - fraction.2.1)
    else none
  (n.map parsedNumber, exponent.2)

/-- A decimal number as it is written: it has digits in front of the point, and no zero
leads them. -/
structure Decimal where
  /-- Whether a minus sign stands in front. -/
  negative : Bool
  /-- The digits in front of the point. -/
  whole : Text
  /-- The digits behind it. -/
  places : Text
  /-- The exponent, where one is written. -/
  exponent : Option ℤ
  /-- There is a digit in front of the point. -/
  ne_nil : whole ≠ []
  /-- What stands in front of the point are digits. -/
  wholeDigits : Digits whole
  /-- No zero leads them. -/
  leading : whole = ['0'] ∨ ∀ c ∈ whole.head?, c ≠ '0'
  /-- What stands behind it are digits. -/
  placesDigits : Digits places

/-- The characters of the exponent. -/
def exponentText : Option ℤ → Text
  | none => []
  | some e => 'e' :: (if e < 0 then '-' else '+') :: zeroPadded 2 e.natAbs

/-- The point and what stands behind it. -/
def pointText (places : Text) : Text := if places = [] then [] else '.' :: places

/-- The characters of a number. -/
def Decimal.text (d : Decimal) : Text :=
  (if d.negative then ['-'] else []) ++ d.whole ++ pointText d.places ++ exponentText d.exponent

/-- The sign as a factor. -/
def Decimal.sign (d : Decimal) : ℤ := if d.negative then -1 else 1

/-- The digits as an integer. -/
def Decimal.digits (d : Decimal) : ℕ := Nat.ofDigitChars 10 (d.whole ++ d.places) 0

/-- The power of ten of the last digit. -/
def Decimal.scale (d : Decimal) : ℤ := d.exponent.getD 0 - d.places.length

/-- The number that is meant. -/
def Decimal.value (d : Decimal) : ℚ := d.sign * d.digits * 10 ^ d.scale

/-- The digits as the parser adds them up. -/
def accumulated (digits : Text) (n : Option ℚ) : Option ℚ :=
  digits.foldl (fun n c => addDigit n (c.toNat - 48)) n

/-- One more digit, without overflow. -/
def appendDigit (n : ℚ) (d : ℕ) : ℚ := fl (fl (n * 10) + d)

/-- What the digits add up to, without overflow. -/
def accumulate (digits : Text) (n : ℚ) : ℚ :=
  digits.foldl (fun n c => appendDigit n (c.toNat - 48)) n

/-- The number that the parser makes of a decimal, as long as nothing overflows. -/
def Decimal.read (P : PowerOfTen) (d : Decimal) : ℚ :=
  fl (d.sign * accumulate (d.whole ++ d.places) 0 * P.pow d.scale)

/-- Nothing overflows when a decimal is read. -/
structure Decimal.InRange (P : PowerOfTen) (d : Decimal) : Prop where
  digits : accumulated (d.whole ++ d.places) (some 0) = some (accumulate (d.whole ++ d.places) 0)
  exponent : (d.exponent.getD 0).natAbs < 2 ^ 31
  scale : d.scale ≤ 308
  finite : FiniteDouble (d.read P)

/-- A text that does not continue a number. -/
def StopsNumber (rest : List UInt8) : Prop :=
  ∀ b ∈ rest.head?, isDigit b = false ∧ b ≠ byte '.' ∧ b ≠ byte 'e' ∧ b ≠ byte 'E'

/-- The byte of a digit has the digit's own code. -/
theorem toNat_byte_digit {c : Char} (h : c.isDigit = true) : (byte c).toNat = c.toNat := by
  simp only [Char.isDigit, Bool.and_eq_true, decide_eq_true_eq] at h
  have hbound : c.toNat ≤ 57 := h.2
  unfold byte
  rw [UInt8.toNat_ofNat']
  omega

/-- The parser takes that byte for a digit. -/
theorem isDigit_byte {c : Char} (h : c.isDigit = true) : isDigit (byte c) = true := by
  have hvalue := toNat_byte_digit h
  simp only [Char.isDigit, Bool.and_eq_true, decide_eq_true_eq] at h
  have hlow : 48 ≤ c.toNat := h.1
  have hhigh : c.toNat ≤ 57 := h.2
  unfold isDigit
  rw [Bool.and_eq_true, decide_eq_true_eq, decide_eq_true_eq, UInt8.le_iff_toNat_le,
    UInt8.le_iff_toNat_le, hvalue]
  exact ⟨hlow, hhigh⟩

/-- A loop over digits takes all of them. -/
theorem takeDigits_digits {α : Type*} (step : α → ℕ → α) {digits : Text} {rest : List UInt8}
    (h : Digits digits) (hrest : ∀ b ∈ rest.head?, isDigit b = false) (n : α) (count : ℕ) :
    takeDigits step (bytes digits ++ rest) n count =
      (digits.foldl (fun n c => step n (c.toNat - 48)) n, count + digits.length, rest) := by
  induction digits generalizing n count with
  | nil =>
    cases rest with
    | nil => rfl
    | cons b rest =>
      have hb := hrest b rfl
      unfold takeDigits bytes
      rw [List.map_nil, List.nil_append]
      dsimp only
      rw [hb]
      rfl
  | cons c digits ih =>
    have hc := h c List.mem_cons_self
    have hrec := ih (fun d hd => h d (List.mem_cons_of_mem _ hd)) (step n (c.toNat - 48))
        (count + 1)
    unfold bytes at hrec ⊢
    rw [List.map_cons, List.cons_append, takeDigits, if_pos (isDigit_byte hc),
      toNat_byte_digit hc, hrec, List.foldl_cons, List.length_cons]
    congr 2
    omega

/-- It lies between the codes of `0` and `9`. -/
theorem byte_digit_bounds {c : Char} (h : c.isDigit = true) :
    48 ≤ (byte c).toNat ∧ (byte c).toNat ≤ 57 := by
  rw [toNat_byte_digit h]
  simp only [Char.isDigit, Bool.and_eq_true, decide_eq_true_eq] at h
  exact ⟨h.1, h.2⟩

/-- The sign test of `parse_number` reads the minus sign of a text, and nothing where there is none.
-/
theorem takeSign_text (negative : Bool) {digits : Text} (h : Digits digits) (hne : digits ≠ [])
    (rest : List UInt8) :
    takeSign (bytes ((if negative then ['-'] else []) ++ digits) ++ rest) =
      (if negative then -1 else 1, bytes digits ++ rest) := by
  cases negative with
  | true => rfl
  | false =>
    cases digits with
    | nil => exact absurd rfl hne
    | cons c digits =>
      have hc := (byte_digit_bounds (h c List.mem_cons_self)).1
      have hminus : byte c ≠ byte '-' := by
        intro heq
        rw [heq] at hc
        revert hc
        decide
      exact if_neg hminus

/-- A leading zero leaves the accumulator at zero. -/
theorem addDigit_zero : addDigit (some 0) 0 = some 0 := by
  unfold addDigit
  rw [Option.bind_some, zero_mul, double_zero, Option.bind_some, Nat.cast_zero, add_zero,
    double_zero]

/-- The digits in front of the point, whether they are a single zero, which is skipped, or
begin with another digit. -/
theorem takeWhole_text {whole : Text} {rest : List UInt8} (h : Digits whole) (hne : whole ≠ [])
    (hleading : whole = ['0'] ∨ ∀ c ∈ whole.head?, c ≠ '0')
    (hrest : ∀ b ∈ rest.head?, isDigit b = false) :
    ∃ count, takeWhole (takeZero (bytes whole ++ rest)) =
      (accumulated whole (some 0), count, rest) := by
  rcases hleading with rfl | hleading
  · have hzero : accumulated ['0'] (some 0) = some 0 := addDigit_zero
    refine ⟨0, ?_⟩
    change takeWhole rest = _
    rw [hzero]
    cases rest with
    | nil => rfl
    | cons b rest =>
      have hb := hrest b rfl
      refine if_neg fun hrange => ?_
      have hlow : byte '0' ≤ b := UInt8.le_trans (show byte '0' ≤ byte '1' by decide) hrange.1
      simp [isDigit, hlow, hrange.2] at hb
  · cases whole with
    | nil => exact absurd rfl hne
    | cons c whole =>
      have hc := byte_digit_bounds (h c List.mem_cons_self)
      have hzero : byte c ≠ byte '0' := by
        intro heq
        have hvalue := toNat_byte_digit (h c List.mem_cons_self)
        rw [heq] at hvalue
        exact hleading c rfl (Char.toNat_inj.mp hvalue.symm)
      have hlow : byte '1' ≤ byte c ∧ byte c ≤ byte '9' := by
        have hne48 : (byte c).toNat ≠ 48 := fun heq => hzero (UInt8.toNat_inj.mp heq)
        rw [UInt8.le_iff_toNat_le, UInt8.le_iff_toNat_le]
        exact ⟨show 49 ≤ _ by omega, hc.2⟩
      refine ⟨0 + (c :: whole).length, ?_⟩
      have hall := takeDigits_digits addDigit h hrest (some 0) 0
      have hskip : takeZero (bytes (c :: whole) ++ rest) = bytes (c :: whole) ++ rest :=
        if_neg hzero
      rw [hskip]
      unfold takeWhole
      exact (if_pos hlow).trans hall

/-- The digits behind the point, when there are any. -/
theorem takeFraction_text {places : Text} {rest : List UInt8} (h : Digits places)
    (hrest : ∀ b ∈ rest.head?, isDigit b = false ∧ b ≠ byte '.') (n : Option ℚ) :
    takeFraction n (bytes (pointText places) ++ rest) =
      (accumulated places n, places.length, rest) := by
  cases places with
  | nil =>
    cases rest with
    | nil => rfl
    | cons b rest =>
      have hpoint := (hrest b rfl).2
      cases rest with
      | nil => rfl
      | cons d rest => exact if_neg fun hand => hpoint hand.1
  | cons c places =>
    have hdigits := takeDigits_digits addDigit h (fun b hb => (hrest b hb).1) n 0
    rw [Nat.zero_add] at hdigits
    have hc := isDigit_byte (h c List.mem_cons_self)
    exact (if_pos ⟨rfl, hc⟩).trans hdigits

/-- The exponent loop reads its digits as a decimal number. -/
theorem foldl_addExponentDigit (digits : Text) (n : ℕ) :
    digits.foldl (fun n c => addExponentDigit n (c.toNat - 48)) (n : ℤ) =
      (Nat.ofDigitChars 10 digits n : ℕ) := by
  induction digits generalizing n with
  | nil => rfl
  | cons c digits ih =>
    have hstep : addExponentDigit n (c.toNat - 48) =
        ((10 * n + (c.toNat - '0'.toNat) : ℕ) : ℤ) := by
      unfold addExponentDigit
      have hzero : '0'.toNat = 48 := rfl
      rw [hzero, Nat.cast_add, Nat.cast_mul, mul_comm]
      rfl
    rw [List.foldl_cons, hstep, ih, Nat.ofDigitChars_cons]

/-- The sign of an exponent is read back, whichever it is. -/
theorem takeExponentSign_text (e : ℤ) (num : List UInt8) :
    takeExponentSign (byte (if e < 0 then '-' else '+') :: num) =
      (if e < 0 then -1 else 1, num) := by
  split
  · rfl
  · rfl

/-- The exponent, when there is one, is read with its sign; without a letter there is none and
nothing is taken. -/
theorem takeExponent_text (exponent : Option ℤ) {rest : List UInt8} (hrest : StopsNumber rest) :
    takeExponent (bytes (exponentText exponent) ++ rest) = (exponent.getD 0, rest) := by
  cases exponent with
  | none =>
    cases rest with
    | nil => rfl
    | cons b rest =>
      obtain ⟨-, -, hlower, hupper⟩ := hrest b rfl
      exact if_neg fun hor => hor.elim hlower hupper
  | some e =>
    have hdigits := takeDigits_digits addExponentDigit (digits_zeroPadded 2 e.natAbs)
      (fun b hb => (hrest b hb).1) 0 0
    have hvalue := foldl_addExponentDigit (zeroPadded 2 e.natAbs) 0
    rw [zeroPadded_value, Nat.cast_zero] at hvalue
    have hsigned : (e.natAbs : ℤ) * (if e < 0 then -1 else 1) = e := by
      split
      · omega
      · omega
    have hsign := takeExponentSign_text e (bytes (zeroPadded 2 e.natAbs) ++ rest)
    change takeExponent (byte 'e' :: byte (if e < 0 then '-' else '+') ::
      (bytes (zeroPadded 2 e.natAbs) ++ rest)) = _
    rw [takeExponent, if_pos (Or.inl rfl)]
    dsimp only
    rw [hsign, hdigits]
    dsimp only
    rw [hvalue, hsigned]
    rfl

/-- Reading two runs of digits is reading the second from where the first one ends. -/
theorem accumulated_append (a b : Text) (n : Option ℚ) :
    accumulated (a ++ b) n = accumulated b (accumulated a n) := List.foldl_append

/-- The parser takes a whole decimal and nothing behind it, and makes the node of the value
that its arithmetic comes to. -/
theorem parseNumber_text (P : PowerOfTen) {d : Decimal} (hrange : d.InRange P) {rest : List UInt8}
    (hrest : StopsNumber rest) :
    parseNumber P (bytes d.text ++ rest) = (some (parsedNumber (d.read P)), rest) := by
  have hexponent : ∀ b ∈ (bytes (exponentText d.exponent) ++ rest).head?,
      isDigit b = false ∧ b ≠ byte '.' := by
    cases d.exponent with
    | none => exact fun b hb => ⟨(hrest b hb).1, (hrest b hb).2.1⟩
    | some e =>
      intro b hb
      cases hb
      decide
  have hpoint : ∀ b ∈ (bytes (pointText d.places) ++
      (bytes (exponentText d.exponent) ++ rest)).head?, isDigit b = false := by
    cases hplaces : d.places with
    | nil => exact fun b hb => (hexponent b hb).1
    | cons c places =>
      intro b hb
      cases hb
      decide
  have htext : bytes d.text ++ rest =
      bytes ((if d.negative then ['-'] else []) ++ d.whole) ++
        (bytes (pointText d.places) ++ (bytes (exponentText d.exponent) ++ rest)) := by
    unfold Decimal.text bytes
    simp only [List.map_append, List.append_assoc]
  obtain ⟨count, hwhole⟩ := takeWhole_text d.wholeDigits d.ne_nil d.leading hpoint
  have hfraction := takeFraction_text d.placesDigits hexponent (accumulated d.whole (some 0))
  have hscale : d.exponent.getD 0 - d.places.length = d.scale := rfl
  unfold parseNumber
  rw [htext, takeSign_text d.negative d.wholeDigits d.ne_nil]
  dsimp only
  rw [hwhole]
  dsimp only
  rw [hfraction]
  dsimp only
  rw [takeExponent_text d.exponent hrest]
  dsimp only
  rw [if_pos hrange.exponent, hscale, ← accumulated_append, hrange.digits, Option.bind_some]
  unfold scaleNumber double
  rw [if_pos hrange.scale]
  have hread : fl (d.sign * accumulate (d.whole ++ d.places) 0 * P.pow d.scale) = d.read P := rfl
  have hsign : (if d.negative = true then -1 else 1 : ℤ) = d.sign := rfl
  rw [hsign, hread, if_pos hrange.finite, Option.map_some]

/-- No zero leads the digits of a positive number. -/
theorem natText_head {n : ℕ} (hn : 0 < n) : ∀ c ∈ (natText n).head?, c ≠ '0' := by
  induction n using Nat.strong_induction_on with
  | _ n ih =>
    unfold natText
    rcases Nat.lt_or_ge n 10 with hlt | hge
    · rw [Nat.toDigits_of_lt_base hlt]
      intro c hc
      cases hc
      have hdigit : ∀ n < 10, 0 < n → n.digitChar ≠ '0' := by decide
      exact hdigit n hlt hn
    · have hquotient : 0 < n / 10 := Nat.div_pos hge (by decide)
      have hrec := ih (n / 10) (Nat.div_lt_self hn (by decide)) hquotient
      rw [Nat.toDigits_of_base_le (by decide) hge]
      unfold natText at hrec
      rwa [List.head?_append_of_ne_nil _ Nat.toDigits_ne_nil]

/-- A printed natural number is `0` or has no leading zero. -/
theorem natText_leading (n : ℕ) : natText n = ['0'] ∨ ∀ c ∈ (natText n).head?, c ≠ '0' := by
  rcases Nat.eq_zero_or_pos n with rfl | hn
  · exact Or.inl rfl
  · exact Or.inr (natText_head hn)

/-- The printed places consist of digits. -/
theorem digits_places (precision n : ℕ) :
    Digits (if precision = 0 then [] else zeroPadded precision n) := by
  split
  · exact fun c hc => absurd hc List.not_mem_nil
  · exact digits_zeroPadded _ _

/-- `n` units of `10⁻ᵖ` with a sign and an exponent. -/
def scaledDecimal (negative : Bool) (precision n : ℕ) (exponent : Option ℤ) : Decimal where
  negative := negative
  whole := natText (n / 10 ^ precision)
  places := if precision = 0 then [] else zeroPadded precision (n % 10 ^ precision)
  exponent := exponent
  ne_nil := natText_ne_nil _
  wholeDigits := digits_natText _
  leading := natText_leading _
  placesDigits := digits_places _ _

/-- There are as many of them as the precision says. -/
theorem length_places (precision n : ℕ) :
    (if precision = 0 then [] else zeroPadded precision (n % 10 ^ precision)).length =
      precision := by
  split
  · rename_i hzero
    rw [hzero]
    rfl
  · exact length_zeroPadded (by omega) (Nat.mod_lt _ (Nat.pow_pos (by decide)))

/-- The digits of a scaled decimal form the number it was built from. -/
@[simp] theorem digits_scaledDecimal (negative : Bool) (precision n : ℕ) (exponent : Option ℤ) :
    (scaledDecimal negative precision n exponent).digits = n := by
  unfold Decimal.digits scaledDecimal
  dsimp only
  rw [Nat.ofDigitChars_append, Nat.ofDigitChars_eq_ofDigitChars_zero, length_places,
    natText_value]
  split
  · rename_i hzero
    rw [hzero, Nat.ofDigitChars_nil]
    omega
  · rw [zeroPadded_value]
    exact Nat.div_add_mod n (10 ^ precision)

/-- Its scale is the exponent less the places behind the point. -/
@[simp] theorem scale_scaledDecimal (negative : Bool) (precision n : ℕ) (exponent : Option ℤ) :
    (scaledDecimal negative precision n exponent).scale = exponent.getD 0 - precision := by
  unfold Decimal.scale scaledDecimal
  dsimp only
  rw [length_places]

/-- Its text is the sign, the scaled digits and the exponent. -/
theorem text_scaledDecimal (negative : Bool) (precision n : ℕ) (exponent : Option ℤ) :
    (scaledDecimal negative precision n exponent).text =
      (if negative then ['-'] else []) ++ scaledText precision n ++ exponentText exponent := by
  have hpoint :
      pointText (if precision = 0 then [] else zeroPadded precision (n % 10 ^ precision)) =
      if precision = 0 then [] else '.' :: zeroPadded precision (n % 10 ^ precision) := by
    rcases Nat.eq_zero_or_pos precision with rfl | hprecision
    · rfl
    · have hne : zeroPadded precision (n % 10 ^ precision) ≠ [] :=
        List.append_ne_nil_of_right_ne_nil _ (natText_ne_nil _)
      rw [if_neg (by omega), if_neg (by omega)]
      exact if_neg hne
  unfold Decimal.text scaledText scaledDecimal
  dsimp only
  rw [hpoint]
  simp only [List.append_assoc]

/-- The decimal that `print_number` writes, `none` where it writes `null`. -/
def printedDecimal (valueint : ℤ) (d : ℚ) : Option Decimal :=
  if d = 0 then some (scaledDecimal false 0 0 none)
  else if showsInteger valueint d then
    some (scaledDecimal (decide (valueint < 0)) 0 valueint.natAbs none)
  else if |d| < 1 / 2 ^ 1022 then none
  else if |fl (⌊d⌋ - d)| ≤ dblEpsilon ∧ |d| < fl (10 ^ 60) then
    some (scaledDecimal (decide (d < 0)) 0 (scaled 0 d) none)
  else if |d| < fl (1 / 10 ^ 6) ∨ 10 ^ 9 < |d| then
    some (scaledDecimal (decide (d < 0)) 6 (sevenDigits d).1 (some (sevenDigits d).2))
  else some (scaledDecimal (decide (d < 0)) 6 (scaled 6 d) none)

/-- Printed integers are decimals without places or exponent. -/
theorem text_intDecimal (i : ℤ) :
    (scaledDecimal (decide (i < 0)) 0 i.natAbs none).text = intText i := by
  have hscaled : scaledText 0 i.natAbs = natText i.natAbs := by
    unfold scaledText
    rw [pow_zero, Nat.div_one, if_pos rfl, List.append_nil]
  rw [text_scaledDecimal, hscaled]
  unfold intText exponentText
  rw [List.append_nil]
  by_cases h : i < 0
  · rw [decide_eq_true h, if_pos h]
    rfl
  · rw [decide_eq_false h, if_neg h]
    rfl

/-- Printed fixed point numbers are decimals with places and no exponent. -/
theorem text_fixedDecimal (precision : ℕ) (x : ℚ) :
    (scaledDecimal (decide (x < 0)) precision (scaled precision x) none).text =
      fixedText precision x := by
  rw [text_scaledDecimal]
  unfold fixedText exponentText
  rw [List.append_nil]
  by_cases h : x < 0
  · rw [decide_eq_true h, if_pos h]
    rfl
  · rw [decide_eq_false h, if_neg h]
    rfl

/-- Printed scientific numbers are decimals with six places and an exponent. -/
theorem text_scientificDecimal (x : ℚ) :
    (scaledDecimal (decide (x < 0)) 6 (sevenDigits x).1 (some (sevenDigits x).2)).text =
      scientificText x := by
  rw [text_scaledDecimal]
  unfold scientificText exponentText
  simp only [decide_eq_true_eq]

/-- What `print_number` writes is a decimal or `null`. -/
theorem printNumber_eq (valueint : ℤ) (d : ℚ) :
    printNumber valueint d = ((printedDecimal valueint d).map Decimal.text).getD (lit "null") := by
  unfold printNumber printedDecimal
  split
  · rfl
  split
  · exact (text_intDecimal valueint).symm
  split
  · rfl
  split
  · exact (text_fixedDecimal 0 d).symm
  split
  · exact (text_scientificDecimal d).symm
  · exact (text_fixedDecimal 6 d).symm

end IperfRuntime.JsonNumbers
