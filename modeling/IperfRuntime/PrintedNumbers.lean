import IperfRuntime.CommandParser
import IperfRuntime.PrintfText

/-!
# The texts of printed numbers

Which characters a printed number has, what `%.2f` looks like, and which value a reader of
it gets. The locale is that of C, with a point and without separators.
-/

namespace IperfRuntime.PrintedNumbers

open PrintfText OptionText CommandParser

/-- A text of decimal digits. -/
def Digits (text : Text) : Prop := ∀ c ∈ text, c.isDigit = true

/-- A natural number is printed in digits. -/
theorem digits_natText (n : ℕ) : Digits (natText n) :=
  fun _ hc => Nat.isDigit_of_mem_toDigits (by decide) (by decide) hc

/-- It is never printed as nothing. -/
theorem natText_ne_nil (n : ℕ) : natText n ≠ [] := Nat.toDigits_ne_nil

/-- Its digits have its value. -/
theorem natText_value (n : ℕ) : Nat.ofDigitChars 10 (natText n) 0 = n :=
  Nat.ofDigitChars_ten_toDigits

/-- Digits behind digits are digits. -/
theorem Digits.append {a b : Text} (ha : Digits a) (hb : Digits b) : Digits (a ++ b) := by
  intro c hc
  rcases List.mem_append.mp hc with h | h
  · exact ha c h
  · exact hb c h

/-- The zeros that pad a number are digits. -/
theorem digits_replicate (n : ℕ) : Digits (List.replicate n '0') := by
  intro c hc
  rw [List.eq_of_mem_replicate hc]
  rfl

/-- A padded number consists of digits. -/
theorem digits_zeroPadded (width n : ℕ) : Digits (zeroPadded width n) :=
  (digits_replicate _).append (digits_natText n)

/-- A number that fits its width is padded to this width exactly. -/
theorem length_zeroPadded {width n : ℕ} (hwidth : 0 < width) (h : n < 10 ^ width) :
    (zeroPadded width n).length = width := by
  have hle : (natText n).length ≤ width :=
    (Nat.length_toDigits_le_iff (by decide) hwidth).mpr h
  unfold zeroPadded
  rw [List.length_append, List.length_replicate]
  omega

/-- Padding does not change the value. -/
theorem zeroPadded_value (width n : ℕ) : Nat.ofDigitChars 10 (zeroPadded width n) 0 = n := by
  unfold zeroPadded
  rw [Nat.ofDigitChars_append, Nat.ofDigitChars_replicate_zero, Nat.mul_zero, natText_value]

/-- A digit is what `strtod` takes for one. -/
theorem digitValue_digit {c : Char} (h : c.isDigit = true) :
    digitValue 10 c = some (c.toNat - 48) := by
  have hrange : '0' ≤ c ∧ c ≤ '9' := by
    simp only [Char.isDigit, Bool.and_eq_true, decide_eq_true_eq] at h
    exact h
  have hbound : c.toNat ≤ 57 := hrange.2
  unfold digitValue
  dsimp only
  rw [if_pos hrange, if_pos (by omega)]

/-- The digits in front of a text are read to their end. -/
theorem readDigits_digits {digits rest : Text} (h : Digits digits)
    (hstop : ∀ c ∈ rest.head?, digitValue 10 c = none) (value count : ℕ) :
    readDigits 10 (digits ++ rest) value count =
      (Nat.ofDigitChars 10 digits value, count + digits.length, rest) := by
  induction digits generalizing value count with
  | nil =>
    rw [List.nil_append, Nat.ofDigitChars_nil, List.length_nil, Nat.add_zero]
    cases rest with
    | nil => rfl
    | cons c rest =>
      have hc := hstop c rfl
      unfold readDigits
      rw [hc]
  | cons c digits ih =>
    have hc := digitValue_digit (h c List.mem_cons_self)
    have hzero : '0'.toNat = 48 := rfl
    rw [List.cons_append, readDigits, hc]
    dsimp only
    rw [ih (fun d hd => h d (List.mem_cons_of_mem _ hd)), Nat.ofDigitChars_cons, List.length_cons,
      hzero, Nat.mul_comm value 10]
    congr 2
    omega

/-- Digits with decimals behind a point are read as the number they stand for. -/
theorem toFloat_decimal {whole places : Text} (hwhole : Digits whole) (hplaces : Digits places)
    (hne : whole ≠ []) :
    toFloat (whole ++ '.' :: places) =
      some ((Nat.ofDigitChars 10 (whole ++ places) 0 : ℚ) / 10 ^ places.length) := by
  have hpos : whole.length ≠ 0 := by
    rwa [Ne, List.length_eq_zero_iff]
  have hpoint : ∀ c ∈ ('.' :: places).head?, digitValue 10 c = none := by
    intro c hc
    cases hc
    rfl
  have hfirst := readDigits_digits hwhole hpoint 0 0
  have hsecond := @readDigits_digits places [] hplaces (by simp) (Nat.ofDigitChars 10 whole 0) 0
  rw [List.append_nil] at hsecond
  have hmantissa : readMantissa 10 (whole ++ '.' :: places) =
      some ((Nat.ofDigitChars 10 (whole ++ places) 0 : ℚ) / 10 ^ places.length, []) := by
    unfold readMantissa
    rw [hfirst]
    simp only [hsecond]
    rw [if_neg (by omega), Nat.ofDigitChars_append]
    norm_num
  unfold toFloat readDecimal
  rw [hmantissa]
  simp [readExponent]

/-- Digits alone are a number as well. -/
theorem toFloat_digits {digits : Text} (h : Digits digits) (hne : digits ≠ []) :
    toFloat digits = some (Nat.ofDigitChars 10 digits 0 : ℚ) := by
  have hpos : digits.length ≠ 0 := by rwa [Ne, List.length_eq_zero_iff]
  have hall := @readDigits_digits digits [] h (by simp) 0 0
  rw [List.append_nil] at hall
  have hmantissa : readMantissa 10 digits = some ((Nat.ofDigitChars 10 digits 0 : ℚ), []) := by
    unfold readMantissa
    rw [hall]
    dsimp only
    rw [if_neg (by omega)]
  unfold toFloat readDecimal
  rw [hmantissa]
  simp [readExponent]

/-- Digits stand for a number below the power of ten with their count. -/
theorem ofDigitChars_lt {digits : Text} (h : Digits digits) :
    Nat.ofDigitChars 10 digits 0 < 10 ^ digits.length := by
  induction digits with
  | nil => simp
  | cons c digits ih =>
    have hrest := ih fun d hd => h d (List.mem_cons_of_mem _ hd)
    have hc := h c List.mem_cons_self
    simp only [Char.isDigit, Bool.and_eq_true, decide_eq_true_eq] at hc
    have hbound : c.toNat ≤ 57 := hc.2
    have hzero : '0'.toNat = 48 := rfl
    rw [Nat.ofDigitChars_cons, Nat.ofDigitChars_eq_ofDigitChars_zero, hzero, Nat.mul_zero,
      Nat.zero_add, List.length_cons, Nat.pow_succ]
    have hmul : 10 ^ digits.length * (c.toNat - 48) ≤ 10 ^ digits.length * 9 :=
      Nat.mul_le_mul_left _ (by omega)
    omega

/-- The whole part of a magnitude with two decimals. -/
def wholeText (x : ℚ) : Text := natText (scaled 2 x / 100)

/-- Its decimals. -/
def placesText (x : ℚ) : Text := zeroPadded 2 (scaled 2 x % 100)

/-- The whole part of a printed number consists of digits. -/
theorem digits_wholeText (x : ℚ) : Digits (wholeText x) := digits_natText _

/-- So does the part behind the point. -/
theorem digits_placesText (x : ℚ) : Digits (placesText x) := digits_zeroPadded _ _

/-- There is at least one digit in front of the point. -/
theorem wholeText_ne_nil (x : ℚ) : wholeText x ≠ [] := natText_ne_nil _

/-- Under `%.2f` there are two digits behind it. -/
theorem length_placesText (x : ℚ) : (placesText x).length = 2 :=
  length_zeroPadded (by decide) (Nat.mod_lt _ (by decide))

/-- A magnitude below a hundred has one or two digits in front of the point. -/
theorem length_wholeText_le_iff (x : ℚ) : (wholeText x).length ≤ 2 ↔ scaled 2 x < 10000 := by
  unfold wholeText natText
  rw [Nat.length_toDigits_le_iff (by decide) (by decide)]
  omega

/-- A number that is not negative is printed as these two parts with a point between them. -/
theorem fixedText_two {x : ℚ} (h : 0 ≤ x) : fixedText 2 x = wholeText x ++ '.' :: placesText x := by
  unfold fixedText scaledText
  rw [if_neg (not_lt.mpr h), if_neg (by decide)]
  rfl

/-- The value of a written number. -/
theorem toFloat_scaledText (precision n : ℕ) :
    toFloat (scaledText precision n) = some ((n : ℚ) / 10 ^ precision) := by
  unfold scaledText
  split
  · rename_i hzero
    rw [hzero, List.append_nil, toFloat_digits (digits_natText _) (natText_ne_nil _), natText_value]
    simp
  · rename_i hprecision
    have hlength : (zeroPadded precision (n % 10 ^ precision)).length = precision :=
      length_zeroPadded (by omega) (Nat.mod_lt _ (Nat.pow_pos (by decide)))
    have hvalue : Nat.ofDigitChars 10 (natText (n / 10 ^ precision) ++
        zeroPadded precision (n % 10 ^ precision)) 0 = n := by
      rw [Nat.ofDigitChars_append, Nat.ofDigitChars_eq_ofDigitChars_zero, hlength, natText_value,
        zeroPadded_value]
      exact Nat.div_add_mod n (10 ^ precision)
    rw [toFloat_decimal (digits_natText _) (digits_zeroPadded _ _) (natText_ne_nil _), hvalue,
      hlength]

/-- The value that `%.2f` shows. -/
def shown (x : ℚ) : ℚ := (scaled 2 x : ℚ) / 100

/-- It is the value that is read. -/
theorem toFloat_fixedText {x : ℚ} (h : 0 ≤ x) : toFloat (fixedText 2 x) = some (shown x) := by
  unfold fixedText
  rw [if_neg (not_lt.mpr h), toFloat_scaledText]
  norm_num [shown]

/-- The characters of a number. -/
def numeral (c : Char) : Bool := c.isDigit || c ∈ ['.', '-', '+', 'e']

/-- Digits are characters of numbers. -/
theorem numeral_digits {text : Text} (h : Digits text) : ∀ c ∈ text, numeral c = true := by
  intro c hc
  simp [numeral, h c hc]

/-- So are the characters of an integer, its sign included. -/
theorem numeral_intText (n : ℤ) : ∀ c ∈ intText n, numeral c = true := by
  unfold intText
  split
  · intro c hc
    rcases List.mem_cons.mp hc with rfl | hdigit
    · rfl
    · exact numeral_digits (digits_natText _) c hdigit
  · exact numeral_digits (digits_natText _)

/-- So are those of a number with a point. -/
theorem numeral_scaledText (precision n : ℕ) : ∀ c ∈ scaledText precision n, numeral c = true := by
  intro c hc
  unfold scaledText at hc
  rcases List.mem_append.mp hc with hwhole | hplaces
  · exact numeral_digits (digits_natText _) c hwhole
  · split at hplaces
    · cases hplaces
    · rcases List.mem_cons.mp hplaces with rfl | hdigit
      · rfl
      · exact numeral_digits (digits_zeroPadded _ _) c hdigit

/-- So are those of a number under `%.f`, with its sign. -/
theorem numeral_fixedText (precision : ℕ) (x : ℚ) :
    ∀ c ∈ fixedText precision x, numeral c = true := by
  unfold fixedText
  split
  · intro c hc
    rcases List.mem_cons.mp hc with rfl | hscaled
    · rfl
    · exact numeral_scaledText _ _ c hscaled
  · exact numeral_scaledText _ _

/-- So are the point and the digits behind it. -/
theorem numeral_fraction {digits : Text} (h : Digits digits) :
    ∀ c ∈ fraction digits, numeral c = true := by
  have hdrop : ∀ c ∈ dropZeros digits, c ∈ digits := by
    intro c hc
    unfold dropZeros at hc
    rw [List.mem_reverse] at hc
    exact List.mem_reverse.mp ((List.dropWhile_sublist _).mem hc)
  intro c hc
  unfold fraction at hc
  split at hc
  · cases hc
  · rename_i d rest hdigits
    rcases List.mem_cons.mp hc with rfl | hrest
    · rfl
    · rw [← hdigits] at hrest
      exact numeral_digits h c (hdrop c hrest)

/-- So are those under `%g`, the letter of the exponent and its sign included, whichever of
the two notations is chosen. -/
theorem numeral_generalText (x : ℚ) : ∀ c ∈ generalText x, numeral c = true := by
  intro c hc
  unfold generalText at hc
  dsimp only at hc
  have hsign : ∀ c ∈ (if x < 0 then ['-'] else []), numeral c = true := by
    split
    · simp [numeral]
    · simp
  split at hc
  · rw [List.mem_singleton.mp hc]
    rfl
  · split at hc
    · rcases List.mem_append.mp hc with hleft | hexp
      · rcases List.mem_append.mp hleft with hwhole | hfraction
        · rcases List.mem_append.mp hwhole with h | h
          · exact hsign c h
          · exact numeral_digits (digits_natText _) c h
        · exact numeral_fraction (digits_natText _) c hfraction
      · rcases List.mem_cons.mp hexp with rfl | hrest
        · rfl
        · rcases List.mem_cons.mp hrest with rfl | hdigits
          · split
            · rfl
            · rfl
          · exact numeral_digits (digits_zeroPadded _ _) c hdigits
    · split at hc
      · rcases List.mem_append.mp hc with h | h
        · exact hsign c h
        · exact numeral_digits (digits_natText _) c h
      · rcases List.mem_append.mp hc with hleft | hfraction
        · rcases List.mem_append.mp hleft with h | h
          · exact hsign c h
          · exact numeral_digits (digits_natText _) c h
        · exact numeral_fraction (digits_zeroPadded _ _) c hfraction

/-- An amount as a report shows it: digits, with decimals or without. -/
structure Amount (whole places : Text) : Prop where
  digits : Digits whole
  ne_nil : whole ≠ []
  places : places = [] ∨ ∃ d rest, places = '.' :: d :: rest ∧ Digits (d :: rest)

/-- A number that is not negative is an amount to the parser: digits, and maybe a point with digits.
-/
theorem amount_fixedText (precision : ℕ) {x : ℚ} (h : 0 ≤ x) :
    ∃ whole places, fixedText precision x = whole ++ places ∧ Amount whole places := by
  unfold fixedText scaledText
  rw [if_neg (not_lt.mpr h)]
  refine ⟨_, _, rfl, digits_natText _, natText_ne_nil _, ?_⟩
  split
  · exact Or.inl rfl
  · rename_i hprecision
    have hlength : (zeroPadded precision (scaled precision x % 10 ^ precision)).length =
      precision :=
      length_zeroPadded (by omega) (Nat.mod_lt _ (Nat.pow_pos (by decide)))
    cases hdigits : zeroPadded precision (scaled precision x % 10 ^ precision) with
    | nil =>
      rw [hdigits] at hlength
      exact absurd hlength.symm hprecision
    | cons d rest =>
      refine Or.inr ⟨d, rest, rfl, ?_⟩
      rw [← hdigits]
      exact digits_zeroPadded _ _

/-- Rounding does not pass a natural number that is above. -/
theorem roundHalfEven_le {y : ℚ} {n : ℕ} (h : y < n) : roundHalfEven y ≤ n := by
  have hfloor : ⌊y⌋ < (n : ℤ) := Int.floor_lt.mpr (by exact_mod_cast h)
  unfold roundHalfEven
  split
  · omega
  · split
    · omega
    · split
      · omega
      · omega

/-- How long a number is. -/
theorem length_fixedText (precision : ℕ) {x : ℚ} {k : ℕ} (h : 0 ≤ x) (hk : x < 10 ^ k) :
    (fixedText precision x).length ≤ k + 2 + precision := by
  have hscaled : scaled precision x ≤ 10 ^ k * 10 ^ precision := by
    have hround : roundHalfEven (|x| * 10 ^ precision) ≤ ((10 ^ k * 10 ^ precision : ℕ) : ℤ) := by
      refine roundHalfEven_le ?_
      rw [abs_of_nonneg h]
      push_cast
      exact mul_lt_mul_of_pos_right hk (by positivity)
    unfold scaled
    exact Int.toNat_le.mpr hround
  have hwhole : scaled precision x / 10 ^ precision < 10 ^ (k + 1) := by
    have hle : scaled precision x / 10 ^ precision ≤ 10 ^ k :=
      Nat.div_le_of_le_mul (by rwa [Nat.mul_comm])
    have hlt : 10 ^ k < 10 ^ (k + 1) := Nat.pow_lt_pow_right (by decide) (by omega)
    omega
  have hlength : (natText (scaled precision x / 10 ^ precision)).length ≤ k + 1 :=
    (Nat.length_toDigits_le_iff (by decide) (by omega)).mpr hwhole
  unfold fixedText scaledText
  rw [if_neg (not_lt.mpr h), List.length_append]
  split
  · simp only [List.length_nil]
    omega
  · rw [List.length_cons, length_zeroPadded (by omega) (Nat.mod_lt _ (Nat.pow_pos (by decide)))]
    omega

/-- The unit that is chosen keeps the number below the next one, unless the table ends, in
which case the loop leaves the index behind it. -/
theorem adaptiveConv_spec {base : ℚ} (hbase : 1 ≤ base) (rounds : ℕ) (q : ℚ) :
    adaptiveConv base rounds (.finite q) ≤ rounds ∧
      (adaptiveConv base rounds (.finite q) < rounds →
        q / base ^ adaptiveConv base rounds (.finite q) < base ∧ q < base ^ rounds) ∧
      (adaptiveConv base rounds (.finite q) = rounds → rounds = 0 ∨ base ^ rounds ≤ q) := by
  have hpos : 0 < base := lt_of_lt_of_le zero_lt_one hbase
  induction rounds generalizing q with
  | zero => simp [adaptiveConv]
  | succ rounds ih =>
    unfold adaptiveConv
    by_cases h : base ≤ q
    · have hreaches : (Dbl.finite q).reaches base = true := decide_eq_true h
      rw [if_pos hreaches]
      have hscale : (Dbl.finite q).scale (1 / base) = .finite (q / base) := by
        simp [Dbl.scale, div_eq_mul_inv]
      rw [hscale]
      obtain ⟨hle, hlt, heq⟩ := ih (q / base)
      refine ⟨by omega, ?_, ?_⟩
      · intro hless
        obtain ⟨hnext, hpow⟩ := hlt (by omega)
        refine ⟨?_, ?_⟩
        · rw [pow_succ', ← div_div]
          exact hnext
        · rw [pow_succ]
          exact (div_lt_iff₀ hpos).mp hpow
      · intro hall
        right
        rcases heq (by omega) with hzero | hpow
        · rw [hzero, pow_one]
          exact h
        · rw [pow_succ]
          exact (le_div_iff₀ hpos).mp hpow
    · have hreaches : ¬(Dbl.finite q).reaches base = true := by
        simpa [Dbl.reaches] using h
      rw [if_neg hreaches]
      refine ⟨Nat.zero_le _, ?_, ?_⟩
      · intro _
        have hq : q < base := not_le.mp h
        exact ⟨by simpa using hq, lt_of_lt_of_le hq (le_self_pow₀ hbase (by omega))⟩
      · intro hzero
        omega

/-- An amount with its unit. -/
structure UnitText (text : Text) (spaces : ℕ) (whole places label : Text) : Prop where
  text_eq : text = List.replicate spaces ' ' ++ (whole ++ places) ++ ' ' :: label
  amount : Amount whole places

/-- `unit_snprintf` prints a finite number with at most two digits behind the point, padded to four
characters. -/
theorem fourPlaces_finite (x : ℚ) :
    ∃ precision, precision ≤ 2 ∧ fourPlaces (.finite x) = padLeft 4 (fixedText precision x) := by
  unfold fourPlaces
  dsimp only [Dbl.text]
  refine ⟨_, ?_, rfl⟩
  split
  · omega
  · split
    · omega
    · omega

/-- The number and its unit fit into the buffer. -/
theorem unitText_fits {x : ℚ} (h : 0 ≤ x) (hx : x < 10 ^ 21) {label : Text}
    (hlabel : label.length ≤ 5) :
    ∃ spaces whole places,
      UnitText ((fourPlaces (.finite x) ++ ' ' :: label).take (unitLen - 1)) spaces whole places
        label := by
  obtain ⟨precision, hprecision, hfour⟩ := fourPlaces_finite x
  obtain ⟨whole, places, htext, hamount⟩ := amount_fixedText precision h
  have hlength := length_fixedText precision h hx
  refine ⟨4 - (fixedText precision x).length, whole, places, ⟨?_, hamount⟩⟩
  rw [List.take_of_length_le]
  · rw [hfour, padLeft, htext]
  · rw [hfour, padLeft]
    simp only [unitLen, List.length_append, List.length_replicate, List.length_cons]
    omega

/-- Which amounts have a unit. -/
theorem byteText_isSome_iff {q : ℚ} :
    (unitSnprintf (.finite q) 'A').isSome = true ↔ q < 1024 ^ 4 := by
  obtain ⟨hle, hlt, heq⟩ := adaptiveConv_spec (by norm_num : (1 : ℚ) ≤ 1024) 4 q
  have hsome : (unitSnprintf (.finite q) 'A').isSome =
      (labelByte[adaptiveConv 1024 4 (.finite q)]?).isSome := by
    unfold unitSnprintf
    exact Option.isSome_map
  have hindex : (labelByte[adaptiveConv 1024 4 (.finite q)]?).isSome = true ↔
      adaptiveConv 1024 4 (.finite q) < labelByte.length := by simp
  have hcount : labelByte.length = 4 := rfl
  rw [hsome, hindex, hcount]
  constructor
  · intro hless
    exact (hlt hless).2
  · intro hq
    by_contra hall
    rcases heq (by omega) with hzero | hpow
    · cases hzero
    · exact absurd hq (not_lt.mpr hpow)

/-- `%s` of a number of bytes. -/
theorem byteText {q : ℚ} (h : 0 ≤ q) {u : Text} (hu : unitSnprintf (.finite q) 'A' = some u) :
    ∃ spaces whole places label, UnitText u spaces whole places label ∧ label ∈ labelByte := by
  obtain ⟨hle, hlt, -⟩ := adaptiveConv_spec (by norm_num : (1 : ℚ) ≤ 1024) 4 q
  have hsome := byteText_isSome_iff.mp (by rw [hu]; rfl)
  have htext : unitSnprintf (.finite q) 'A' =
      (labelByte[adaptiveConv 1024 4 (.finite q)]?).map fun suffix =>
        (fourPlaces ((Dbl.finite q).scale (1 / 1024 ^ adaptiveConv 1024 4 (.finite q))) ++
          ' ' :: suffix).take (unitLen - 1) := rfl
  rw [hu] at htext
  obtain ⟨label, hlabel, hvalue⟩ := Option.map_eq_some_iff.mp htext.symm
  have hmem : label ∈ labelByte := List.mem_of_getElem? hlabel
  have hless : adaptiveConv 1024 4 (.finite q) < 4 := (List.getElem?_eq_some_iff.mp hlabel).1
  have hbound := (hlt hless).1
  have hscale : (Dbl.finite q).scale (1 / 1024 ^ adaptiveConv 1024 4 (.finite q)) =
      .finite (q / 1024 ^ adaptiveConv 1024 4 (.finite q)) := by
    simp [Dbl.scale, div_eq_mul_inv]
  rw [hscale] at hvalue
  have hlength : label.length ≤ 5 := by
    have hall : ∀ l ∈ labelByte, l.length ≤ 5 := by decide
    exact hall label hmem
  obtain ⟨spaces, whole, places, hunit⟩ := unitText_fits (by positivity)
    (lt_trans hbound (by norm_num)) hlength
  rw [hvalue] at hunit
  exact ⟨spaces, whole, places, label, hunit, hmem⟩

/-- `%s` of a rate in megabits. -/
theorem bitText {q : ℚ} (h : 0 ≤ q) (hq : q < 10 ^ 26) :
    ∃ u spaces whole places, unitSnprintf (.finite q) 'm' = some u ∧
      UnitText u spaces whole places (lit "Mbit") := by
  have hscaled : q * 8 * (1 / 1000 ^ 2) < 10 ^ 21 := by
    norm_num at hq ⊢
    linarith
  obtain ⟨spaces, whole, places, hunit⟩ := unitText_fits (by positivity) hscaled
    (by decide : (lit "Mbit").length ≤ 5)
  exact ⟨_, spaces, whole, places, rfl, hunit⟩

/-- A rate over no time is no number. -/
theorem bitText_infinite {x : Dbl} (h : x = .inf ∨ x = .nan) :
    ∃ word, unitSnprintf x 'm' = some (' ' :: word ++ lit " Mbit") ∧
      (word = lit "inf" ∨ word = lit "nan") := by
  rcases h with rfl | rfl
  · exact ⟨lit "inf", by decide, Or.inl rfl⟩
  · exact ⟨lit "nan", by decide, Or.inr rfl⟩

end IperfRuntime.PrintedNumbers
