import Mathlib.Algebra.Order.Floor.Defs
import Mathlib.Algebra.Order.Floor.Ring
import Mathlib.Algebra.Order.Floor.Semiring
import Mathlib.Algebra.Order.Ring.Rat
import Mathlib.Data.Int.Log
import Mathlib.Data.Rat.Floor
import Mathlib.Tactic.Linarith
import Mathlib.Tactic.Positivity

/-!
# Formatted numbers

The conversions `%d`, `%u`, `%W.Pf`, `%.Pg` and `%s` as `printf` performs them, and
`unit_snprintf`. A text is the list of its characters. A `double` is an exact
rational, an infinity or not a number; rounding happens only when digits are
written, to the nearest value with ties to even.
-/

namespace IperfRuntime.PrintfText

/-- The characters of a C string. -/
abbrev Text := List Char

/-- The characters of a literal. -/
def lit (s : String) : Text := s.toList

/-- What holds of every character of a text is decided along the text. -/
instance (priority := 2000) decidableForallMem {p : Char → Prop} [DecidablePred p] (text : Text) :
    Decidable (∀ c ∈ text, p c) := List.decidableBAll p text

/-- `%Ws` and the other right-justified conversions. -/
def padLeft (width : ℕ) (text : Text) : Text := List.replicate (width - text.length) ' ' ++ text

/-- `%-Ws` and the other left-justified conversions. -/
def padRight (width : ℕ) (text : Text) : Text := text ++ List.replicate (width - text.length) ' '

/-- `%u` of a value that fits. -/
def natText (n : ℕ) : Text := Nat.toDigits 10 n

/-- `%d`. -/
def intText (n : ℤ) : Text := if n < 0 then '-' :: natText n.natAbs else natText n.natAbs

/-- `%u` of an `int`. -/
def unsignedText (n : ℤ) : Text := natText (n % 2 ^ 32).toNat

/-- The nearest integer, the even one of two nearest. -/
def roundHalfEven (q : ℚ) : ℤ :=
  if q - ⌊q⌋ < 1 / 2 then ⌊q⌋
  else if 1 / 2 < q - ⌊q⌋ then ⌊q⌋ + 1
  else if ⌊q⌋ % 2 = 0 then ⌊q⌋ else ⌊q⌋ + 1

/-- Digits with zeros in front, up to a width. -/
def zeroPadded (width : ℕ) (n : ℕ) : Text :=
  List.replicate (width - (natText n).length) '0' ++ natText n

/-- `n` units of `10⁻ᵖ` in decimal notation. -/
def scaledText (precision n : ℕ) : Text :=
  natText (n / 10 ^ precision) ++
    if precision = 0 then [] else '.' :: zeroPadded precision (n % 10 ^ precision)

/-- The number of units of `10⁻ᵖ` to which a magnitude is rounded. -/
def scaled (precision : ℕ) (x : ℚ) : ℕ := (roundHalfEven (|x| * 10 ^ precision)).toNat

/-- `%.Pf`. -/
def fixedText (precision : ℕ) (x : ℚ) : Text :=
  if x < 0 then '-' :: scaledText precision (scaled precision x)
  else scaledText precision (scaled precision x)

/-- A text without trailing zeros. -/
def dropZeros (text : Text) : Text := (text.reverse.dropWhile (· == '0')).reverse

/-- A fraction as `%g` writes it: no trailing zeros, no bare point. -/
def fraction (digits : Text) : Text :=
  match dropZeros digits with
  | [] => []
  | d :: rest => '.' :: d :: rest

/-- Two significant digits `m` of a magnitude near `m · 10ᵉ⁻¹`. -/
def twoDigits (x : ℚ) : ℕ × ℤ :=
  let e := Int.log 10 |x|
  let m := (roundHalfEven (|x| / (10 : ℚ) ^ (e - 1))).toNat
  if m = 100 then (10, e + 1) else (m, e)

/-- `%.2g`. -/
def generalText (x : ℚ) : Text :=
  let sign := if x < 0 then ['-'] else []
  let m := (twoDigits x).1
  let e := (twoDigits x).2
  if x = 0 then ['0']
  else if e < -4 ∨ 2 ≤ e then
    sign ++ natText (m / 10) ++ fraction (natText (m % 10)) ++
      'e' :: (if e < 0 then '-' else '+') :: zeroPadded 2 e.natAbs
  else if e = 1 then sign ++ natText m
  else
    let places := (1 - e).toNat
    sign ++ natText (m / 10 ^ places) ++ fraction (zeroPadded places (m % 10 ^ places))

/-- A `double` that a division can produce. -/
inductive Dbl where
  | finite (q : ℚ)
  | inf
  | nan
  deriving DecidableEq

/-- The quotient of a non-negative amount and a non-negative duration. -/
def ratio (amount : ℕ) (duration : ℚ) : Dbl :=
  if duration = 0 then if amount = 0 then .nan else .inf else .finite (amount / duration)

/-- A product with a positive factor. -/
def Dbl.scale (factor : ℚ) : Dbl → Dbl
  | .finite q => .finite (q * factor)
  | .inf => .inf
  | .nan => .nan

/-- `bound <= x`, false when `x` is not a number. -/
def Dbl.reaches (bound : ℚ) : Dbl → Bool
  | .finite q => decide (bound ≤ q)
  | .inf => true
  | .nan => false

/-- `%.Pf` of any `double`. -/
def Dbl.text (precision : ℕ) : Dbl → Text
  | .finite q => fixedText precision q
  | .inf => lit "inf"
  | .nan => lit "nan"

/-- The loop of the adaptive formats; `rounds` is how often `conv` may still grow. -/
def adaptiveConv (base : ℚ) : ℕ → Dbl → ℕ
  | 0, _ => 0
  | rounds + 1, tmpNum =>
    if tmpNum.reaches base then adaptiveConv base rounds (tmpNum.scale (1 / base)) + 1 else 0

/-- `label_byte`. -/
def labelByte : List Text := [lit "Byte", lit "KByte", lit "MByte", lit "GByte"]

/-- `label_bit`. -/
def labelBit : List Text := [lit "bit", lit "Kbit", lit "Mbit", lit "Gbit"]

/-- The index that a format character selects. -/
def convOf (inFormat : Char) (base : ℚ) (inNum : Dbl) : ℕ :=
  if inFormat.toUpper = 'B' then 0
  else if inFormat.toUpper = 'K' then 1
  else if inFormat.toUpper = 'M' then 2
  else if inFormat.toUpper = 'G' then 3
  else adaptiveConv base 4 inNum

/-- The number with the precision that keeps it in four places. -/
def fourPlaces (x : Dbl) : Text :=
  let isBelow (bound : ℚ) : Bool := x != .nan && !x.reaches bound
  let precision := if isBelow (9995 / 1000) then 2 else if isBelow (9995 / 100) then 1 else 0
  padLeft 4 (x.text precision)

/-- `UNIT_LEN`. -/
def unitLen : ℕ := 32

/-- `unit_snprintf`. The adaptive loop can leave `conv` one past the tables, which has
no text here. -/
def unitSnprintf (inNum : Dbl) (inFormat : Char) : Option Text :=
  let upper := inFormat.isUpper
  let inNum := if upper then inNum else inNum.scale 8
  let base : ℚ := if upper then 1024 else 1000
  let conv := convOf inFormat base inNum
  ((if upper then labelByte else labelBit)[conv]?).map fun suffix =>
    (fourPlaces (inNum.scale (1 / base ^ conv)) ++ ' ' :: suffix).take (unitLen - 1)

end IperfRuntime.PrintfText
