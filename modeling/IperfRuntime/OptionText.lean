import IperfRuntime.TestParameters

/-!
# Option texts

`atoi`, `atof`, the conversion `%lf%c` of `sscanf`, and the functions of `units.c` over
them. A double is an exact rational, an infinity or not a number. A conversion of a
number outside the range of its target type is undefined in the language and belongs to
the machine. `n` of `units.c` is not initialised, so what the stack holds is an input.
-/

namespace IperfRuntime.OptionText

open TestParameters

/-- A floating point value. -/
inductive Double where
  | number (value : ℚ)
  | infinite (negative : Bool)
  | nan
  deriving DecidableEq

/-- Conversions between the number types of a machine. -/
structure Machine where
  /-- From a double to `int`. -/
  toInt : Double → ℤ
  /-- From a double to an unsigned 64 bit type. -/
  toUint64 : Double → ℕ
  /-- From a decimal of any length to `int`, as in `atoi`. -/
  narrow : ℤ → ℤ
  /-- What fits is truncated. -/
  toInt_number : ∀ q : ℚ, -2 ^ 31 ≤ q → q < 2 ^ 31 → toInt (.number q) = q.num.tdiv q.den
  toUint64_number : ∀ q : ℚ, 0 ≤ q → q < 2 ^ 64 →
    toUint64 (.number q) = (q.num.tdiv q.den).toNat
  /-- What fits is kept. -/
  narrow_int : ∀ n, -2 ^ 31 ≤ n → n < 2 ^ 31 → narrow n = n

/-- `isspace`. -/
def isSpace (c : Char) : Bool := c == ' ' || (9 ≤ c.toNat && c.toNat ≤ 13)

/-- The value of a digit. -/
def digitValue (base : ℕ) (c : Char) : Option ℕ :=
  let v := if '0' ≤ c ∧ c ≤ '9' then c.toNat - 48
    else if 'a' ≤ c.toLower ∧ c.toLower ≤ 'z' then c.toLower.toNat - 87 else base
  if v < base then some v else none

/-- Digits behind a value, with how many there are and the text behind them. -/
def readDigits (base : ℕ) : List Char → ℕ → ℕ → ℕ × ℕ × List Char
  | [], value, count => (value, count, [])
  | c :: rest, value, count =>
    match digitValue base c with
    | some d => readDigits base rest (value * base + d) (count + 1)
    | none => (value, count, c :: rest)

/-- An optional sign; whether it is a minus. -/
def readSign : List Char → Bool × List Char
  | '-' :: rest => (true, rest)
  | '+' :: rest => (false, rest)
  | text => (false, text)

/-- An optional exponent behind its marker. -/
def readExponent (marker : Char) : List Char → ℤ × List Char
  | [] => (0, [])
  | c :: rest =>
    let sign := readSign rest
    let digits := readDigits 10 sign.2 0 0
    if c.toLower = marker ∧ digits.2.1 ≠ 0 then
      (if sign.1 then -(digits.1 : ℤ) else digits.1, digits.2.2)
    else (0, c :: rest)

/-- Digits with at most one point, at least one digit in all. -/
def readMantissa (base : ℕ) (text : List Char) : Option (ℚ × List Char) :=
  let whole := readDigits base text 0 0
  match whole.2.2 with
  | '.' :: fraction =>
    let digits := readDigits base fraction whole.1 0
    if whole.2.1 + digits.2.1 = 0 then none
    else some ((digits.1 : ℚ) / (base : ℚ) ^ digits.2.1, digits.2.2)
  | rest => if whole.2.1 = 0 then none else some ((whole.1 : ℚ), rest)

/-- A decimal number. -/
def readDecimal (text : List Char) : Option (ℚ × List Char) :=
  (readMantissa 10 text).map fun m =>
    let e := readExponent 'e' m.2
    (m.1 * (10 : ℚ) ^ e.1, e.2)

/-- A number, hexadecimal behind `0x`. -/
def readNumber : List Char → Option (ℚ × List Char)
  | '0' :: 'x' :: rest => readHex 'x' rest
  | '0' :: 'X' :: rest => readHex 'X' rest
  | text => readDecimal text
where
  readHex (x : Char) (rest : List Char) : Option (ℚ × List Char) :=
    match readMantissa 16 rest with
    | some m =>
      let e := readExponent 'p' m.2
      some (m.1 * (2 : ℚ) ^ e.1, e.2)
    | none => some (0, x :: rest)

/-- A word in any case. -/
def readWord : List Char → List Char → Option (List Char)
  | [], text => some text
  | _ :: _, [] => none
  | w :: word, c :: text => if c.toLower = w then readWord word text else none

/-- The optional parenthesis behind `nan`. -/
def readNanTail : List Char → List Char
  | '(' :: rest =>
    match rest.dropWhile fun c => c.isAlphanum || c == '_' with
    | ')' :: rest' => rest'
    | _ => '(' :: rest
  | rest => rest

/-- `strtod`: the value and the text behind it. -/
def strtod (text : List Char) : Option (Double × List Char) :=
  let sign := readSign (text.dropWhile isSpace)
  match readWord ['i', 'n', 'f', 'i', 'n', 'i', 't', 'y'] sign.2 with
  | some rest => some (.infinite sign.1, rest)
  | none =>
    match readWord ['i', 'n', 'f'] sign.2 with
    | some rest => some (.infinite sign.1, rest)
    | none =>
      match readWord ['n', 'a', 'n'] sign.2 with
      | some rest => some (.nan, readNanTail rest)
      | none => (readNumber sign.2).map fun r =>
          (.number (if sign.1 then -r.1 else r.1), r.2)

/-- `atof`, zero where there is no number. -/
def atof (s : String) : Double :=
  match strtod s.toList with
  | some r => r.1
  | none => .number 0

/-- `atoi`, zero where there is no number. -/
def atoi (machine : Machine) (s : String) : ℤ :=
  let sign := readSign (s.toList.dropWhile isSpace)
  let value : ℤ := (readDigits 10 sign.2 0 0).1
  machine.narrow (if sign.1 then -value else value)

/-- `sscanf (s, "%lf%c", …)`: the two results, when there is a first. -/
def scanDouble (s : String) : Option (Double × Option Char) :=
  (strtod s.toList).map fun r => (r.1, r.2.head?)

/-- Whether `sscanf` assigns its first argument. -/
def scans (s : String) : Bool := (scanDouble s).isSome

/-- A double times a positive number. -/
def Double.scaled (k : ℚ) : Double → Double
  | .number value => .number (value * k)
  | .infinite negative => .infinite negative
  | .nan => .nan

/-- The factor of a suffix. -/
def suffixUnit (kilo mega giga : ℚ) : Option Char → ℚ
  | some 'g' => giga
  | some 'G' => giga
  | some 'm' => mega
  | some 'M' => mega
  | some 'k' => kilo
  | some 'K' => kilo
  | _ => 1

/-- The number of a text with a suffix, over what `n` held before. -/
def unitNumber (kilo mega giga : ℚ) (n : Double) (s : String) : Double :=
  match scanDouble s with
  | some r => r.1.scaled (suffixUnit kilo mega giga r.2)
  | none => n

/-- `unit_atof`. -/
def unitAtof (n : Double) (s : String) : Double :=
  unitNumber 1024 (1024 * 1024) (1024 * 1024 * 1024) n s

/-- `unit_atof_rate`. -/
def unitAtofRate (n : Double) (s : String) : Double :=
  unitNumber 1000 (1000 * 1000) (1000 * 1000 * 1000) n s

/-- `unit_atoi`. -/
def unitAtoi (machine : Machine) (n : Double) (s : String) : ℕ :=
  machine.toUint64 (unitNumber 1024 (1024 * 1024) (1024 * 1024 * 1024) n s)

/-- A text with a number does not depend on the stack. -/
theorem unitNumber_of_scans {s : String} (h : scans s = true) (kilo mega giga : ℚ)
    (n n' : Double) : unitNumber kilo mega giga n s = unitNumber kilo mega giga n' s := by
  unfold scans at h
  obtain ⟨r, hr⟩ := Option.isSome_iff_exists.mp h
  unfold unitNumber
  rw [hr]

example : scanDouble " -1.5e2M" = some (.number (-150), some 'M') := by decide +kernel

end IperfRuntime.OptionText
