import IperfRuntime.PrintedNumbers

/-!
# Units of printed quantities

`unit_snprintf` for a buffer of any length: what the number and the label say together, and
which entry of the tables the adaptive formats come to. Values are exact rationals, as large
as they may be; the rounding of `double` in front of the division is not followed.
-/

namespace IperfRuntime.UnitFormats

open PrintfText PrintedNumbers CommandParser

/-- `unit_snprintf` into a buffer of the given length. -/
def unitSnprintfIn (inLen : ℕ) (inNum : Dbl) (inFormat : Char) : Option Text :=
  let upper := inFormat.isUpper
  let inNum := if upper then inNum else inNum.scale 8
  let base : ℚ := if upper then 1024 else 1000
  let conv := convOf inFormat base inNum
  ((if upper then labelByte else labelBit)[conv]?).map fun suffix =>
    (fourPlaces (inNum.scale (1 / base ^ conv)) ++ ' ' :: suffix).take (inLen - 1)

/-- The reports call it with `UNIT_LEN`. -/
theorem unitSnprintfIn_unitLen (inNum : Dbl) (inFormat : Char) :
    unitSnprintfIn unitLen inNum inFormat = unitSnprintf inNum inFormat := rfl

/-- The quantity to print: bytes for an upper-case format, else bits. -/
def quantityOf (inNum : ℚ) (inFormat : Char) : ℚ := if inFormat.isUpper then inNum else inNum * 8

/-- The factor from one unit to the next. -/
def baseOf (inFormat : Char) : ℚ := if inFormat.isUpper then 1024 else 1000

/-- The tables of a format. -/
def labelsOf (inFormat : Char) : List Text := if inFormat.isUpper then labelByte else labelBit

/-- The index into them. -/
def indexOf (inNum : ℚ) (inFormat : Char) : ℕ :=
  convOf inFormat (baseOf inFormat) (.finite (quantityOf inNum inFormat))

/-- A format that asks for no unit. -/
def Adaptive (inFormat : Char) : Prop := inFormat.toUpper ∉ ['B', 'K', 'M', 'G']

/-- What the labels stand for. -/
def unitFactors : List (Text × ℚ) :=
  [(lit "Byte", 1), (lit "KByte", 1024), (lit "MByte", 1024 ^ 2), (lit "GByte", 1024 ^ 3),
    (lit "bit", 1), (lit "Kbit", 1000), (lit "Mbit", 1000 ^ 2), (lit "Gbit", 1000 ^ 3)]

/-- The digits behind the point. -/
def decimals (number : Text) : ℕ := (number.dropWhile (· != '.')).tail.length

/-- A number and a label that say how much there is, up to half a unit of the last digit. -/
def Denotes (number label : Text) (quantity : ℚ) : Prop :=
  ∃ value factor, toFloat number = some value ∧ unitFactors.lookup label = some factor ∧
    |value * factor - quantity| ≤ factor / (2 * 10 ^ decimals number)

/-- What a call should do: it stays in the tables, prints a number and a label of its format
that belong together, and an adaptive format chooses the label that keeps the number small, so
that eleven characters are enough. -/
structure FormatsUnit (inLen : ℕ) (inNum : ℚ) (inFormat : Char) : Prop where
  index : indexOf inNum inFormat ≤ 3
  text : ∃ number, ∃ label ∈ labelsOf inFormat,
    unitSnprintfIn inLen (.finite inNum) inFormat =
      some ((padLeft 4 number ++ ' ' :: label).take (inLen - 1)) ∧
    Denotes number label (quantityOf inNum inFormat) ∧
    (Adaptive inFormat → (padLeft 4 number ++ ' ' :: label).length < 11)
  small : Adaptive inFormat →
    quantityOf inNum inFormat / baseOf inFormat ^ indexOf inNum inFormat < baseOf inFormat ∨
      indexOf inNum inFormat = 3

/-- Rounding to an integer moves a number by a half at most. -/
theorem roundHalfEven_error (y : ℚ) : |(roundHalfEven y : ℚ) - y| ≤ 1 / 2 := by
  have hlow := Int.floor_le y
  have hhigh := Int.lt_floor_add_one y
  unfold roundHalfEven
  rw [abs_le]
  split
  · constructor
    · linarith
    · linarith
  · split
    · push_cast
      constructor
      · linarith
      · linarith
    · split
      · constructor
        · linarith
        · linarith
      · push_cast
        constructor
        · linarith
        · linarith

/-- The value of the digits that are written. -/
theorem scaled_error (precision : ℕ) {x : ℚ} (h : 0 ≤ x) :
    |(scaled precision x : ℚ) / 10 ^ precision - x| ≤ 1 / (2 * 10 ^ precision) := by
  have hpos : (0 : ℚ) < 10 ^ precision := by positivity
  have hround := roundHalfEven_error (x * 10 ^ precision)
  have hnonneg : 0 ≤ roundHalfEven (x * 10 ^ precision) := by
    have hfloor : 0 ≤ ⌊x * 10 ^ precision⌋ := Int.floor_nonneg.mpr (by positivity)
    unfold roundHalfEven
    split_ifs
    · exact hfloor
    · omega
    · exact hfloor
    · omega
  have hscaled : (scaled precision x : ℚ) = roundHalfEven (x * 10 ^ precision) := by
    unfold scaled
    rw [abs_of_nonneg h]
    exact_mod_cast congrArg (Int.cast (R := ℚ)) (Int.toNat_of_nonneg hnonneg)
  rw [hscaled]
  calc |(roundHalfEven (x * 10 ^ precision) : ℚ) / 10 ^ precision - x|
      = |(roundHalfEven (x * 10 ^ precision) : ℚ) - x * 10 ^ precision| / 10 ^ precision := by
        rw [← abs_of_pos hpos, ← abs_div, abs_of_pos hpos]
        congr 1
        field_simp
    _ ≤ 1 / 2 / 10 ^ precision := by gcongr
    _ = 1 / (2 * 10 ^ precision) := by rw [div_div]

/-- How many digits stand behind the point of a printed number. -/
theorem decimals_scaledText (precision n : ℕ) : decimals (scaledText precision n) = precision := by
  have hwhole : ∀ c ∈ natText (n / 10 ^ precision), (c != '.') = true := by
    intro c hc
    have hdigit := digits_natText _ c hc
    rw [bne_iff_ne]
    rintro rfl
    cases hdigit
  unfold decimals scaledText
  rw [List.dropWhile_append_of_pos hwhole]
  split
  · rename_i hzero
    rw [hzero]
    rfl
  · rw [List.dropWhile_cons_of_neg (by decide), List.tail_cons]
    exact length_zeroPadded (by omega) (Nat.mod_lt _ (Nat.pow_pos (by decide)))

/-- A scaled number with the label of its scale. -/
theorem denotes_fixedText (precision : ℕ) {quantity factor : ℚ} {label : Text}
    (h : 0 ≤ quantity) (hfactor : 0 < factor) (hlabel : unitFactors.lookup label = some factor) :
    Denotes (fixedText precision (quantity / factor)) label quantity := by
  have hscaled : 0 ≤ quantity / factor := by positivity
  have htext : fixedText precision (quantity / factor) =
      scaledText precision (scaled precision (quantity / factor)) := by
    unfold fixedText
    rw [if_neg (not_lt.mpr hscaled)]
  rw [htext]
  refine ⟨_, factor, toFloat_scaledText _ _, hlabel, ?_⟩
  rw [decimals_scaledText]
  have herror := scaled_error precision hscaled
  calc |(scaled precision (quantity / factor) : ℚ) / 10 ^ precision * factor - quantity|
      = |(scaled precision (quantity / factor) : ℚ) / 10 ^ precision - quantity / factor| *
          factor := by
        rw [← abs_of_pos hfactor, ← abs_mul, abs_of_pos hfactor]
        congr 1
        field_simp
    _ ≤ 1 / (2 * 10 ^ precision) * factor := by gcongr
    _ = factor / (2 * 10 ^ precision) := by rw [div_mul_eq_mul_div, one_mul]

/-- A number below the next half is not rounded past the integer. -/
theorem roundHalfEven_le_of_lt {y : ℚ} {n : ℤ} (h : y < n + 1 / 2) : roundHalfEven y ≤ n := by
  have herror := abs_le.mp (roundHalfEven_error y)
  have hlt : (roundHalfEven y : ℚ) < n + 1 := by linarith [herror.2]
  have hint : roundHalfEven y < n + 1 := by exact_mod_cast hlt
  omega

/-- The same holds with places. -/
theorem scaled_le {precision n : ℕ} {x : ℚ} (h : 0 ≤ x) (hx : x * 10 ^ precision < n + 1 / 2) :
    scaled precision x ≤ n := by
  have hround : roundHalfEven (x * 10 ^ precision) ≤ (n : ℤ) :=
    roundHalfEven_le_of_lt (by exact_mod_cast hx)
  unfold scaled
  rw [abs_of_nonneg h]
  omega

/-- A scaled number takes its digits, and a point if it has places. -/
theorem length_scaledText {precision n digits : ℕ} (hn : n < 10 ^ (precision + digits))
    (hdigits : 0 < digits) :
    (scaledText precision n).length ≤ digits + if precision = 0 then 0 else precision + 1 := by
  have hwhole : (natText (n / 10 ^ precision)).length ≤ digits :=
    (Nat.length_toDigits_le_iff (by decide) hdigits).mpr
      (Nat.div_lt_of_lt_mul (by rwa [← pow_add]))
  unfold scaledText
  rw [List.length_append]
  split
  · simpa using hwhole
  · rw [List.length_cons, length_zeroPadded (by omega) (Nat.mod_lt _ (Nat.pow_pos (by decide)))]
    omega

/-- A number below 1024 takes four places. -/
theorem fourPlaces_four {x : ℚ} (h : 0 ≤ x) (hx : x < 1024) :
    ∃ precision, fourPlaces (.finite x) = padLeft 4 (fixedText precision x) ∧
      (fixedText precision x).length ≤ 4 := by
  have htext : ∀ precision, fixedText precision x = scaledText precision (scaled precision x) :=
    fun precision => if_neg (not_lt.mpr h)
  have hfinite : (Dbl.finite x != .nan) = true := rfl
  unfold fourPlaces Dbl.text Dbl.reaches
  simp only [htext, hfinite, Bool.true_and, Bool.not_eq_true', decide_eq_false_iff_not, not_le]
  by_cases hsmall : x < 9995 / 1000
  · have hscaled : scaled 2 x ≤ 999 := scaled_le h (by norm_num; linarith)
    exact ⟨2, by rw [if_pos hsmall], @length_scaledText 2 _ 1 (by omega) (by decide)⟩
  · by_cases hmiddle : x < 9995 / 100
    · have hscaled : scaled 1 x ≤ 999 := scaled_le h (by norm_num; linarith)
      exact ⟨1, by rw [if_neg hsmall, if_pos hmiddle],
        @length_scaledText 1 _ 2 (by omega) (by decide)⟩
    · have hscaled : scaled 0 x ≤ 1024 := scaled_le h (by norm_num; linarith)
      exact ⟨0, by rw [if_neg hsmall, if_neg hmiddle],
        @length_scaledText 0 _ 4 (by omega) (by decide)⟩

/-- A unit is not smaller than one. -/
theorem one_le_baseOf (inFormat : Char) : 1 ≤ baseOf inFormat := by
  unfold baseOf
  split
  · norm_num
  · norm_num

/-- A label stands for as many bases as its index says. -/
theorem lookup_label (inFormat : Char) {conv : ℕ} {label : Text}
    (h : (labelsOf inFormat)[conv]? = some label) :
    unitFactors.lookup label = some (baseOf inFormat ^ conv) := by
  have hbytes : ∀ conv < 4, ∀ label ∈ labelByte[conv]?,
      unitFactors.lookup label = some (1024 ^ conv) := by decide +kernel
  have hbits : ∀ conv < 4, ∀ label ∈ labelBit[conv]?,
      unitFactors.lookup label = some (1000 ^ conv) := by decide +kernel
  have hlt : conv < (labelsOf inFormat).length := (List.getElem?_eq_some_iff.mp h).1
  unfold labelsOf at h hlt
  unfold baseOf
  cases hupper : inFormat.isUpper with
  | true =>
    rw [hupper] at h hlt
    exact hbytes conv hlt label h
  | false =>
    rw [hupper] at h hlt
    exact hbits conv hlt label h

/-- A format that names a unit stays in the tables, and so does an adaptive one as long as
there is less than the next unit would be. -/
theorem index_le_iff (inNum : ℚ) (inFormat : Char) :
    indexOf inNum inFormat ≤ 3 ↔
      (Adaptive inFormat → quantityOf inNum inFormat < baseOf inFormat ^ 4) := by
  obtain ⟨hle, hlt, heq⟩ := adaptiveConv_spec (one_le_baseOf inFormat) 4 (quantityOf inNum inFormat)
  unfold indexOf convOf Adaptive
  by_cases hB : inFormat.toUpper = 'B'
  · simp [hB]
  by_cases hK : inFormat.toUpper = 'K'
  · simp [hK]
  by_cases hM : inFormat.toUpper = 'M'
  · simp [hM]
  by_cases hG : inFormat.toUpper = 'G'
  · simp [hG]
  rw [if_neg hB, if_neg hK, if_neg hM, if_neg hG]
  have hadaptive : inFormat.toUpper ∉ ['B', 'K', 'M', 'G'] := by simp [hB, hK, hM, hG]
  constructor
  · intro hindex _
    exact (hlt (by omega)).2
  · intro hquantity
    by_contra hout
    rcases heq (by omega) with hzero | hreached
    · cases hzero
    · exact absurd (hquantity hadaptive) (not_lt.mpr hreached)

/-- An adaptive format that stays in the tables has scaled the number below the base. -/
theorem scaled_lt_base {inNum : ℚ} {inFormat : Char} (hindex : indexOf inNum inFormat ≤ 3)
    (hadaptive : Adaptive inFormat) :
    quantityOf inNum inFormat / baseOf inFormat ^ indexOf inNum inFormat < baseOf inFormat := by
  obtain ⟨-, hlt, -⟩ := adaptiveConv_spec (one_le_baseOf inFormat) 4 (quantityOf inNum inFormat)
  have hconv : indexOf inNum inFormat =
      adaptiveConv (baseOf inFormat) 4 (.finite (quantityOf inNum inFormat)) := by
    unfold Adaptive at hadaptive
    simp only [List.mem_cons, List.not_mem_nil, or_false, not_or] at hadaptive
    obtain ⟨hB, hK, hM, hG⟩ := hadaptive
    unfold indexOf convOf
    rw [if_neg hB, if_neg hK, if_neg hM, if_neg hG]
  rw [hconv] at hindex ⊢
  exact (hlt (by omega)).1

/-- It is 1024 at most. -/
theorem baseOf_le (inFormat : Char) : baseOf inFormat ≤ 1024 := by
  unfold baseOf
  split
  · norm_num
  · norm_num

/-- No label is longer than five characters. -/
theorem label_length (inFormat : Char) : ∀ label ∈ labelsOf inFormat, label.length ≤ 5 := by
  unfold labelsOf
  split
  · decide
  · decide

/-- A call behind its choice of the unit. -/
theorem unitSnprintfIn_eq (inLen : ℕ) (inNum : ℚ) (inFormat : Char) :
    unitSnprintfIn inLen (.finite inNum) inFormat =
      ((labelsOf inFormat)[indexOf inNum inFormat]?).map fun suffix =>
        (fourPlaces (.finite (quantityOf inNum inFormat /
          baseOf inFormat ^ indexOf inNum inFormat)) ++ ' ' :: suffix).take (inLen - 1) := by
  unfold unitSnprintfIn labelsOf indexOf quantityOf baseOf
  cases inFormat.isUpper with
  | true => simp [Dbl.scale, div_eq_mul_inv]
  | false => simp [Dbl.scale, div_eq_mul_inv]

/-- A call does what it should exactly where the index stays in the tables, which only the
adaptive formats can leave. -/
theorem unit_snprintf_iff (inLen : ℕ) {inNum : ℚ} (h : 0 ≤ inNum) (inFormat : Char) :
    FormatsUnit inLen inNum inFormat ↔
      (Adaptive inFormat → quantityOf inNum inFormat < baseOf inFormat ^ 4) := by
  rw [← index_le_iff]
  constructor
  · intro hformats
    exact hformats.index
  · intro hindex
    have hpos : 0 < baseOf inFormat := lt_of_lt_of_le zero_lt_one (one_le_baseOf inFormat)
    have hquantity : 0 ≤ quantityOf inNum inFormat := by
      unfold quantityOf
      split
      · exact h
      · positivity
    have hlength : indexOf inNum inFormat < (labelsOf inFormat).length := by
      have hfour : (labelsOf inFormat).length = 4 := by
        unfold labelsOf
        split
        · rfl
        · rfl
      omega
    have hlabel := List.getElem?_eq_getElem hlength
    have hsmall := scaled_lt_base hindex
    refine ⟨hindex, ?_, fun hadaptive => Or.inl (hsmall hadaptive)⟩
    have htext : ∃ precision, fourPlaces (.finite (quantityOf inNum inFormat /
          baseOf inFormat ^ indexOf inNum inFormat)) =
        padLeft 4 (fixedText precision (quantityOf inNum inFormat /
          baseOf inFormat ^ indexOf inNum inFormat)) ∧
        (Adaptive inFormat → (fixedText precision (quantityOf inNum inFormat /
          baseOf inFormat ^ indexOf inNum inFormat)).length ≤ 4) := by
      by_cases hadaptive : Adaptive inFormat
      · obtain ⟨precision, hfour, hplaces⟩ := fourPlaces_four (by positivity)
          ((hsmall hadaptive).trans_le (baseOf_le inFormat))
        exact ⟨precision, hfour, fun _ => hplaces⟩
      · obtain ⟨precision, -, hfour⟩ := fourPlaces_finite
          (quantityOf inNum inFormat / baseOf inFormat ^ indexOf inNum inFormat)
        exact ⟨precision, hfour, fun hadaptive' => absurd hadaptive' hadaptive⟩
    obtain ⟨precision, hfour, hplaces⟩ := htext
    refine ⟨_, _, List.getElem_mem hlength, ?_, denotes_fixedText precision hquantity
      (pow_pos hpos _) (lookup_label inFormat hlabel), ?_⟩
    · rw [unitSnprintfIn_eq, hlabel, hfour, Option.map_some]
    · intro hadaptive
      have hshort := label_length inFormat _ (List.getElem_mem hlength)
      have hnumber := hplaces hadaptive
      unfold padLeft
      rw [List.length_append, List.length_append, List.length_replicate, List.length_cons]
      omega

/-- Four binary gigabytes in bits, as the unit test prints them. -/
theorem fourGigabytes_formats :
    0 ≤ (4 * 1024 ^ 3 : ℚ) ∧ unitSnprintfIn 11 (.finite (4 * 1024 ^ 3)) 'a' =
      some (lit "34.4 Gbit") ∧ FormatsUnit 11 (4 * 1024 ^ 3) 'a' :=
  ⟨by norm_num, by decide +kernel,
    (unit_snprintf_iff 11 (by norm_num) 'a').mpr fun _ => by decide +kernel⟩

/-- A binary terabyte takes the adaptive loop past the tables, as the loop does not stop at
the last entry. -/
theorem terabyte_past_tables :
    ¬∀ (inLen : ℕ) (inNum : ℚ) (inFormat : Char), 0 ≤ inNum →
      FormatsUnit inLen inNum inFormat := by
  intro hall
  have hindex := (hall 11 (1024 ^ 4) 'A' (by norm_num)).index
  have hfour : indexOf (1024 ^ 4) 'A' = 4 := by decide +kernel
  omega

end IperfRuntime.UnitFormats
