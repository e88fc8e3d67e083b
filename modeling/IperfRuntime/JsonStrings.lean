import IperfRuntime.JsonFraming
import IperfRuntime.JsonNumbers

/-!
# Strings in JSON texts

`print_string_ptr` and `parse_string`. A pointer into a text is what stands from there to
the terminator, and a read behind the terminator is a result of its own. Bytes are not
required to be UTF-8, and none of them is changed but by an escape.
-/

namespace IperfRuntime.JsonStrings

open JsonFraming JsonNumbers TestParameters

/-- What a parsing function comes to. -/
inductive Parsed (α : Type*)
  /-- A value, and the text behind it. -/
  | done (value : α) (rest : List UInt8)
  /-- A null pointer, with `*ep` where the text is wrong. -/
  | malformed (ep : List UInt8)
  /-- A read behind the terminator of the text. -/
  | overrun
  /-- The bound on the nesting that the model puts was too small. -/
  | exhausted

/-- What follows a parsed part. -/
def Parsed.bind {α β : Type*} (r : Parsed α) (f : α → List UInt8 → Parsed β) : Parsed β :=
  match r with
  | .done value rest => f value rest
  | .malformed ep => .malformed ep
  | .overrun => .overrun
  | .exhausted => .exhausted

/-- A string literal behind its opening quote. -/
structure Literal where
  /-- What stands before `end_ptr`. -/
  body : List UInt8
  /-- What stands from `end_ptr` on. -/
  rest : List UInt8
  /-- `len`. -/
  len : ℕ

/-- The scan for the closing quote: an escape counts once, and one that the terminator
follows takes the scan behind the text. -/
def scan : List UInt8 → Option Literal
  | [] => some ⟨[], [], 0⟩
  | b :: ptr =>
    if b = byte '"' then some ⟨[], b :: ptr, 0⟩
    else if b = byte '\\' then
      match ptr with
      | [] => none
      | e :: ptr => (scan ptr).map fun l => ⟨b :: e :: l.body, l.rest, l.len + 1⟩
    else (scan ptr).map fun l => ⟨b :: l.body, l.rest, l.len + 1⟩

/-- The value of a hexadecimal digit. -/
def hexValue (b : UInt8) : Option ℕ :=
  if byte '0' ≤ b ∧ b ≤ byte '9' then some (b.toNat - 48)
  else if byte 'A' ≤ b ∧ b ≤ byte 'F' then some (10 + b.toNat - 65)
  else if byte 'a' ≤ b ∧ b ≤ byte 'f' then some (10 + b.toNat - 97)
  else none

/-- `parse_hex4`: zero unless four digits stand there. -/
def parseHex4 : List UInt8 → ℕ
  | a :: b :: c :: d :: _ =>
    match hexValue a, hexValue b, hexValue c, hexValue d with
    | some a, some b, some c, some d => ((a * 16 + b) * 16 + c) * 16 + d
    | _, _, _, _ => 0
  | _ => 0

/-- `((uc | 0x80) & 0xBF)` as a byte. -/
def continuation (uc : ℕ) : UInt8 := UInt8.ofNat ((uc ||| 0x80) &&& 0xBF)

/-- `(uc | firstByteMark[len])` as a byte. -/
def leading (uc mark : ℕ) : UInt8 := UInt8.ofNat (uc ||| mark)

/-- The bytes of a character, written from the last to the first. -/
def utf8Bytes (uc : ℕ) : List UInt8 :=
  if uc < 0x80 then [leading uc 0]
  else if uc < 0x800 then [leading (uc >>> 6) 0xC0, continuation uc]
  else if uc < 0x10000 then
    [leading (uc >>> 6 >>> 6) 0xE0, continuation (uc >>> 6), continuation uc]
  else
    [leading (uc >>> 6 >>> 6 >>> 6) 0xF0, continuation (uc >>> 6 >>> 6), continuation (uc >>> 6),
      continuation uc]

/-- The byte that a short escape stands for. -/
def shortEscape (e : UInt8) : UInt8 :=
  if e = byte 'b' then 8
  else if e = byte 'f' then 12
  else if e = byte 'n' then 10
  else if e = byte 'r' then 13
  else if e = byte 't' then 9
  else e

/-- The code point of a surrogate pair. -/
def surrogatePair (uc uc2 : ℕ) : ℕ := 0x10000 + (((uc &&& 0x3FF) <<< 10) ||| (uc2 &&& 0x3FF))

/-- What the loop that copies a literal has done when it ends. -/
structure Copied where
  /-- The bytes it wrote. -/
  written : List UInt8
  /-- Whether it came to the end of the literal. -/
  valid : Bool

/-- What one round wrote comes first. -/
def Copied.prepend (front : List UInt8) (c : Copied) : Copied := ⟨front ++ c.written, c.valid⟩

/-- The loop that copies a literal, over what stands before `end_ptr`: the byte at `end_ptr`
is no hexadecimal digit, so that nothing behind it is read. -/
def unescape : List UInt8 → Copied
  | [] => ⟨[], true⟩
  | b :: ptr =>
    if b ≠ byte '\\' then (unescape ptr).prepend [b]
    else
      match ptr with
      | [] => ⟨[], false⟩
      | e :: ptr =>
        if e ≠ byte 'u' then (unescape ptr).prepend [shortEscape e]
        else
          match ptr with
          | h1 :: h2 :: h3 :: h4 :: ptr =>
            let uc := parseHex4 [h1, h2, h3, h4]
            if 0xDC00 ≤ uc ∧ uc ≤ 0xDFFF ∨ uc = 0 then ⟨[], false⟩
            else if 0xD800 ≤ uc ∧ uc ≤ 0xDBFF then
              match ptr with
              | s :: u :: l1 :: l2 :: l3 :: l4 :: ptr =>
                let uc2 := parseHex4 [l1, l2, l3, l4]
                if s ≠ byte '\\' ∨ u ≠ byte 'u' then ⟨[], false⟩
                else if uc2 < 0xDC00 ∨ 0xDFFF < uc2 then ⟨[], false⟩
                else (unescape ptr).prepend (utf8Bytes (surrogatePair uc uc2))
              | _ => ⟨[], false⟩
            else (unescape ptr).prepend (utf8Bytes uc)
          | _ => ⟨[], false⟩

/-- Behind a closing quote. -/
def closeQuote : List UInt8 → List UInt8
  | [] => []
  | b :: ptr => if b = byte '"' then ptr else b :: ptr

/-- `parse_string`: the bytes of the string and the text behind the literal, which the end
of the text closes as well as a quote. -/
def parseString : List UInt8 → Parsed (List UInt8)
  | [] => .malformed []
  | q :: ptr =>
    if q ≠ byte '"' then .malformed (q :: ptr)
    else
      match scan ptr with
      | none => .overrun
      | some l =>
        if (unescape l.body).valid then .done (unescape l.body).written (closeQuote l.rest)
        else .malformed (q :: ptr)

/-- `malloc` of a length that is an `int`: a negative one is a huge `size_t`. -/
def mallocSize (len : ℤ) : ℕ := (len % 2 ^ 64).toNat

/-- A block that a printing function allocates: its size, and the text that is written in front
of the terminator, whether it has room there or not. -/
structure Block where
  /-- What is asked of `malloc`. -/
  size : ℕ
  /-- What is written. -/
  text : List UInt8

/-- `*ptr>0 && *ptr<32`, a quote or a backslash. -/
def needsEscape (b : UInt8) : Bool :=
  decide (0 < b ∧ b < 32) || b == byte '"' || b == byte '\\'

/-- `strchr("\"\\\b\f\n\r\t",token)`. -/
def hasShortEscape (b : UInt8) : Bool := [byte '"', byte '\\', 8, 12, 10, 13, 9].contains b

/-- What a byte adds to `len`. -/
def escapedLength (b : UInt8) : ℕ :=
  if hasShortEscape b then 2 else if b < 32 then 6 else 1

/-- `sprintf(ptr2,"u%04x",token)`. -/
def unicodeEscape (b : UInt8) : List UInt8 :=
  let digit (n : ℕ) := if n < 10 then UInt8.ofNat (48 + n) else UInt8.ofNat (87 + n)
  [byte 'u', byte '0', byte '0', digit (b.toNat / 16), digit (b.toNat % 16)]

/-- One round of the copying loop. -/
def escapeByte (b : UInt8) : List UInt8 :=
  if 31 < b ∧ b ≠ byte '"' ∧ b ≠ byte '\\' then [b]
  else
    byte '\\' ::
      if b = byte '\\' then [byte '\\']
      else if b = byte '"' then [byte '"']
      else if b = 8 then [byte 'b']
      else if b = 12 then [byte 'f']
      else if b = 10 then [byte 'n']
      else if b = 13 then [byte 'r']
      else if b = 9 then [byte 't']
      else unicodeEscape b

/-- `while ((token=*ptr) && ++len)`: an `int` adds up the escaped lengths, and one that wraps
around to zero ends the loop as the terminator does. -/
def escapedLen : List UInt8 → ℤ → ℤ
  | [], len => len
  | token :: ptr, len =>
    if toInt (len + 1) = 0 then 0 else escapedLen ptr (toInt (len + escapedLength token))

/-- `print_string_ptr` of a string that is there. -/
def printStringPtr (str : List UInt8) : Block :=
  let str := cString str
  if str.any needsEscape then
    ⟨mallocSize (toInt (escapedLen str 0 + 3)),
      byte '"' :: str.flatMap escapeByte ++ [byte '"']⟩
  else ⟨mallocSize (toInt (toInt str.length + 3)), byte '"' :: str ++ [byte '"']⟩

/-- The escaped form of a string. -/
def escape (str : List UInt8) : List UInt8 := str.flatMap escapeByte

/-- A fact about the byte values is checked for each of them. -/
theorem forall_byte {p : UInt8 → Prop} (h : ∀ n < 256, p (UInt8.ofNat n)) (b : UInt8) : p b := by
  rw [← UInt8.ofNat_toNat (x := b)]
  exact h b.toNat b.toNat_lt

/-- The length that the first loop counts for a byte is that of what the second loop writes. -/
theorem escapedLength_eq (b : UInt8) (hb : b ≠ 0) : escapedLength b = (escapeByte b).length := by
  revert hb
  refine forall_byte (p := fun b => b ≠ 0 → escapedLength b = (escapeByte b).length) ?_ b
  decide +kernel

/-- A byte that needs no escape is written as it is. -/
theorem escapeByte_plain (b : UInt8) (hb : b ≠ 0) (h : needsEscape b = false) :
    escapeByte b = [b] := by
  revert hb h
  refine forall_byte (p := fun b => b ≠ 0 → needsEscape b = false → escapeByte b = [b]) ?_ b
  decide +kernel

/-- The three forms a byte can take in a literal. -/
theorem escapeByte_cases (b : UInt8) (hb : b ≠ 0) :
    (escapeByte b = [b] ∧ b ≠ byte '"' ∧ b ≠ byte '\\') ∨
      (∃ e, escapeByte b = [byte '\\', e] ∧ e ≠ byte 'u' ∧ shortEscape e = b) ∨
      (escapeByte b = byte '\\' :: unicodeEscape b ∧ b < 32) := by
  have htable : ∀ b : UInt8, b ≠ 0 → (escapeByte b = [b] ∧ b ≠ byte '"' ∧ b ≠ byte '\\') ∨
      (escapeByte b = [byte '\\', (escapeByte b).getD 1 0] ∧ (escapeByte b).getD 1 0 ≠ byte 'u' ∧
        shortEscape ((escapeByte b).getD 1 0) = b) ∨
      (escapeByte b = byte '\\' :: unicodeEscape b ∧ b < 32) := by
    refine forall_byte ?_
    decide +kernel
  rcases htable b hb with hplain | hshort | hunicode
  · exact Or.inl hplain
  · exact Or.inr (Or.inl ⟨_, hshort⟩)
  · exact Or.inr (Or.inr hunicode)

/-- The four digits of a control character are read as the character. -/
theorem unicodeEscape_value (b : UInt8) (hb : b ≠ 0) (h : b < 32) :
    ∃ h1 h2 h3 h4, unicodeEscape b = [byte 'u', h1, h2, h3, h4] ∧
      parseHex4 [h1, h2, h3, h4] = b.toNat ∧ utf8Bytes b.toNat = [b] ∧
      (∀ d ∈ [h1, h2, h3, h4], d ≠ byte '"' ∧ d ≠ byte '\\') := by
  have htable : ∀ b : UInt8, b ≠ 0 → b < 32 →
      parseHex4 (unicodeEscape b).tail = b.toNat ∧ utf8Bytes b.toNat = [b] ∧
        (unicodeEscape b).tail.all (fun d => d != byte '"' && d != byte '\\') = true := by
    refine forall_byte ?_
    decide +kernel
  obtain ⟨hhex, hutf8, hall⟩ := htable b hb h
  refine ⟨_, _, _, _, rfl, hhex, hutf8, fun d hd => ?_⟩
  have hplain := List.all_eq_true.mp hall d hd
  rwa [Bool.and_eq_true, bne_iff_ne, bne_iff_ne] at hplain

/-- A byte other than the backslash is copied, and the loop goes on behind it. -/
theorem unescape_plain {b : UInt8} (h : b ≠ byte '\\') (ptr : List UInt8) :
    unescape (b :: ptr) = (unescape ptr).prepend [b] := by
  rw [unescape.eq_def]
  exact if_pos h

/-- A backslash and a letter other than `u` become one byte, and the loop goes on behind them. -/
theorem unescape_short {e : UInt8} (h : e ≠ byte 'u') (ptr : List UInt8) :
    unescape (byte '\\' :: e :: ptr) = (unescape ptr).prepend [shortEscape e] := by
  rw [unescape.eq_def]
  dsimp only
  rw [if_neg (by decide), if_pos h]

/-- An escape for a character of the first plane. -/
theorem unescape_unicode {h1 h2 h3 h4 : UInt8} {uc : ℕ} (h : parseHex4 [h1, h2, h3, h4] = uc)
    (hzero : uc ≠ 0) (hrange : uc < 0xD800 ∨ 0xDFFF < uc) (ptr : List UInt8) :
    unescape (byte '\\' :: byte 'u' :: h1 :: h2 :: h3 :: h4 :: ptr) =
      (unescape ptr).prepend (utf8Bytes uc) := by
  rw [unescape.eq_def]
  dsimp only
  rw [if_neg (by decide), if_neg (by decide), h, if_neg (by omega), if_neg (by omega)]

/-- What a byte was escaped to is copied as the byte. -/
theorem unescape_escapeByte {b : UInt8} (hb : b ≠ 0) (rest : List UInt8) :
    unescape (escapeByte b ++ rest) = (unescape rest).prepend [b] := by
  rcases escapeByte_cases b hb with ⟨htext, -, hback⟩ | ⟨e, htext, he, hvalue⟩ | ⟨htext, hsmall⟩
  · rw [htext, List.singleton_append, unescape_plain hback]
  · rw [htext, List.cons_append, List.singleton_append, unescape_short he, hvalue]
  · obtain ⟨h1, h2, h3, h4, hdigits, hhex, hutf8, -⟩ := unicodeEscape_value b hb hsmall
    have hlow : b.toNat < 32 := UInt8.lt_iff_toNat_lt.mp hsmall
    have hpos : b.toNat ≠ 0 := fun heq => hb (UInt8.toNat_inj.mp heq)
    rw [htext, hdigits]
    simp only [List.cons_append, List.nil_append]
    rw [unescape_unicode hhex hpos (Or.inl (by omega)), hutf8]

/-- A string comes back from its literal. -/
theorem unescape_escape {str : List UInt8} (h : 0 ∉ str) : unescape (escape str) = ⟨str, true⟩ := by
  induction str with
  | nil => rfl
  | cons b str ih =>
    rw [List.mem_cons, not_or] at h
    have hb : b ≠ 0 := fun heq => h.1 heq.symm
    unfold escape at ih ⊢
    rw [List.flatMap_cons, unescape_escapeByte hb, ih h.2]
    rfl

/-- A byte that is neither quote nor backslash counts one and belongs to the literal. -/
theorem scan_plain {b : UInt8} (hquote : b ≠ byte '"') (hback : b ≠ byte '\\')
    (rest : List UInt8) :
    scan (b :: rest) = (scan rest).map fun l => ⟨b :: l.body, l.rest, l.len + 1⟩ := by
  rw [scan.eq_def]
  dsimp only
  rw [if_neg hquote, if_neg hback]

/-- The scan passes an escaped byte. -/
theorem scan_escapeByte {b : UInt8} (hb : b ≠ 0) {rest : List UInt8} {l : Literal}
    (h : scan rest = some l) :
    ∃ len, scan (escapeByte b ++ rest) = some ⟨escapeByte b ++ l.body, l.rest, len⟩ := by
  rcases escapeByte_cases b hb with ⟨htext, hquote, hback⟩ | ⟨e, htext, -⟩ | ⟨htext, hsmall⟩
  · refine ⟨l.len + 1, ?_⟩
    rw [htext, List.singleton_append, scan_plain hquote hback, h]
    rfl
  · refine ⟨l.len + 1, ?_⟩
    rw [htext, List.cons_append, List.singleton_append, scan, if_neg (by decide), if_pos rfl, h]
    rfl
  · obtain ⟨h1, h2, h3, h4, hdigits, -, -, hplain⟩ := unicodeEscape_value b hb hsmall
    refine ⟨l.len + 1 + 1 + 1 + 1 + 1, ?_⟩
    simp only [List.forall_mem_cons, List.not_mem_nil, false_imp_iff, implies_true, and_true]
      at hplain
    obtain ⟨p1, p2, p3, p4⟩ := hplain
    rw [htext, hdigits]
    simp only [List.cons_append, List.nil_append]
    rw [scan, if_neg (by decide), if_pos rfl, scan_plain p1.1 p1.2, scan_plain p2.1 p2.2,
      scan_plain p3.1 p3.2, scan_plain p4.1 p4.2, h]
    rfl

/-- The scan finds the quote behind an escaped string. -/
theorem scan_escape {str : List UInt8} (h : 0 ∉ str) (rest : List UInt8) :
    ∃ len, scan (escape str ++ byte '"' :: rest) = some ⟨escape str, byte '"' :: rest, len⟩ := by
  induction str with
  | nil =>
    refine ⟨0, ?_⟩
    unfold escape
    rw [List.flatMap_nil, List.nil_append, scan.eq_def]
    exact if_pos rfl
  | cons b str ih =>
    rw [List.mem_cons, not_or] at h
    have hb : b ≠ 0 := fun heq => h.1 heq.symm
    obtain ⟨len, hscan⟩ := ih h.2
    unfold escape at hscan ⊢
    rw [List.flatMap_cons, List.append_assoc]
    exact scan_escapeByte hb hscan

/-- Escaping leaves a text alone that needs no escapes at all. -/
theorem flatMap_plain {str : List UInt8} (h : 0 ∉ str) (hplain : str.any needsEscape = false) :
    str.flatMap escapeByte = str := by
  induction str with
  | nil => rfl
  | cons b str ih =>
    rw [List.mem_cons, not_or] at h
    have hb : b ≠ 0 := fun heq => h.1 heq.symm
    rw [List.any_cons, Bool.or_eq_false_iff] at hplain
    rw [List.flatMap_cons, escapeByte_plain b hb hplain.1, ih h.2 hplain.2, List.singleton_append]

/-- Both branches of `print_string_ptr` write the escaped string between quotes. -/
theorem printStringPtr_text (str : List UInt8) :
    (printStringPtr str).text = byte '"' :: escape (cString str) ++ [byte '"'] := by
  unfold printStringPtr escape
  dsimp only
  split
  · rfl
  · rename_i hplain
    rw [flatMap_plain (zero_not_mem_cString str) (Bool.not_eq_true _ ▸ hplain)]

/-- The lengths that are counted add up to the length of the escaped text. -/
theorem sum_escapedLength {str : List UInt8} (h : 0 ∉ str) :
    (str.map escapedLength).sum = (str.flatMap escapeByte).length := by
  induction str with
  | nil => rfl
  | cons b str ih =>
    rw [List.mem_cons, not_or] at h
    have hb : b ≠ 0 := fun heq => h.1 heq.symm
    rw [List.map_cons, List.sum_cons, List.flatMap_cons, List.length_append,
      escapedLength_eq b hb, ih h.2]

/-- A length below 2³¹ is not changed by the conversion to `int`. -/
theorem toInt_natCast {n : ℕ} (h : n < 2 ^ 31) : toInt n = n := by
  unfold toInt
  rw [Int.bmod_eq_of_le]
  · omega
  · omega

/-- Neither is it by the conversion to the argument of `malloc`. -/
theorem mallocSize_natCast {n : ℕ} (h : n < 2 ^ 31) : mallocSize n = n := by
  unfold mallocSize
  rw [Int.emod_eq_of_lt (Int.natCast_nonneg n) (by omega), Int.toNat_natCast]

/-- Every byte counts, so an escaped text has at least as many bytes as the text. -/
theorem escapedLength_pos (b : UInt8) : 0 < escapedLength b := by
  unfold escapedLength
  split
  · decide
  · split
    · decide
    · decide

/-- As long as the sum fits into an `int`, the loop computes it. -/
theorem escapedLen_eq {str : List UInt8} {n : ℕ}
    (h : n + (str.map escapedLength).sum < 2 ^ 31) :
    escapedLen str n = (n + (str.map escapedLength).sum : ℕ) := by
  induction str generalizing n with
  | nil => rfl
  | cons token ptr ih =>
    have hpos := escapedLength_pos token
    rw [List.map_cons, List.sum_cons] at h ⊢
    have hnext : toInt ((n : ℤ) + 1) = (n + 1 : ℕ) := by
      rw [← Nat.cast_succ]
      exact toInt_natCast (by omega)
    have hsum : toInt ((n : ℤ) + escapedLength token) = (n + escapedLength token : ℕ) := by
      rw [← Nat.cast_add]
      exact toInt_natCast (by omega)
    rw [escapedLen, hnext, if_neg (by omega), hsum, ih (by omega), Nat.add_assoc]

/-- The block for a string is exactly as large as the text and its terminator, as long as an
`int` can count them. -/
theorem printStringPtr_size {str : List UInt8}
    (h : (printStringPtr str).text.length + 1 < 2 ^ 31) :
    (printStringPtr str).size = (printStringPtr str).text.length + 1 := by
  unfold printStringPtr at h ⊢
  dsimp only at h ⊢
  split
  · rename_i hescape
    have hsum := sum_escapedLength (zero_not_mem_cString str)
    rw [if_pos hescape] at h
    simp only [List.length_append, List.length_cons, List.length_nil, ← hsum] at h ⊢
    have hlen : escapedLen (cString str) 0 = ((cString str).map escapedLength).sum := by
      have heq := @escapedLen_eq (cString str) 0 (by omega)
      rwa [Nat.zero_add] at heq
    have hthree : toInt (((cString str).map escapedLength).sum + 3 : ℕ) =
        (((cString str).map escapedLength).sum + 3 : ℕ) := toInt_natCast (by omega)
    rw [hlen]
    exact (congrArg mallocSize hthree).trans (mallocSize_natCast (by omega))
  · rename_i hplain
    rw [if_neg hplain] at h
    simp only [List.length_append, List.length_cons, List.length_nil] at h ⊢
    have hthree : toInt ((cString str).length + 3 : ℕ) = ((cString str).length + 3 : ℕ) :=
      toInt_natCast (by omega)
    rw [toInt_natCast (by omega)]
    exact (congrArg mallocSize hthree).trans (mallocSize_natCast (by omega))

/-- The parser gets back the string of a literal. -/
theorem parseString_printed (str rest : List UInt8) :
    parseString ((printStringPtr str).text ++ rest) = .done (cString str) rest := by
  have hzero := zero_not_mem_cString str
  obtain ⟨len, hscan⟩ := scan_escape hzero rest
  rw [printStringPtr_text, List.cons_append, List.cons_append, List.append_assoc,
    List.singleton_append]
  unfold parseString
  dsimp only
  rw [if_neg (by decide), hscan]
  dsimp only
  rw [unescape_escape hzero]
  exact if_pos rfl

/-- How often the scan counts over a literal. -/
def rounds : List UInt8 → ℕ
  | [] => 0
  | b :: ptr =>
    if b = byte '\\' then
      match ptr with
      | [] => 1
      | _ :: ptr => rounds ptr + 1
    else rounds ptr + 1

/-- The scan takes the text apart, and `len` counts its rounds: an escape counts once, as do
the bytes behind it one by one. -/
theorem scan_some {text : List UInt8} {l : Literal} (h : scan text = some l) :
    text = l.body ++ l.rest ∧ (∀ b ∈ l.rest.head?, b = byte '"') ∧ l.len = rounds l.body := by
  fun_induction scan text generalizing l with
  | case1 =>
    cases h
    refine ⟨rfl, fun b hb => ?_, rfl⟩
    cases hb
  | case2 ptr =>
    cases h
    refine ⟨rfl, fun b hb => ?_, rfl⟩
    cases hb
    rfl
  | case3 => cases h
  | case4 e ptr hquote ih =>
    obtain ⟨l', hl', rfl⟩ := Option.map_eq_some_iff.mp h
    obtain ⟨htext, hrest, hlen⟩ := ih hl'
    refine ⟨by rw [htext]; rfl, hrest, ?_⟩
    rw [rounds.eq_def]
    dsimp only
    rw [if_pos rfl, hlen]
  | case5 b ptr hquote hback ih =>
    obtain ⟨l', hl', rfl⟩ := Option.map_eq_some_iff.mp h
    obtain ⟨htext, hrest, hlen⟩ := ih hl'
    refine ⟨by rw [htext]; rfl, hrest, ?_⟩
    rw [rounds.eq_def]
    dsimp only
    rw [if_neg hback, hlen]

/-- A literal behind its opening quote that nothing closes and whose last byte is a backslash that
no other one escapes. -/
inductive Unpaired : List UInt8 → Prop
  | last : Unpaired [byte '\\']
  | plain {b : UInt8} {ptr : List UInt8} (hquote : b ≠ byte '"') (hback : b ≠ byte '\\')
    (h : Unpaired ptr) : Unpaired (b :: ptr)
  | pair (e : UInt8) {ptr : List UInt8} (h : Unpaired ptr) : Unpaired (byte '\\' :: e :: ptr)

/-- A text with an unpaired backslash in front of its terminator has no end that the scan could find
without passing the terminator. -/
theorem scan_unpaired {text : List UInt8} (h : Unpaired text) : scan text = none := by
  induction h with
  | last => rfl
  | plain hquote hback h ih => rw [scan_plain hquote hback, ih, Option.map_none]
  | pair e h ih => rw [scan, if_neg (by decide), if_pos rfl, ih, Option.map_none]

/-- The scan passes the terminator exactly behind an unpaired backslash. -/
theorem scan_eq_none {text : List UInt8} : scan text = none ↔ Unpaired text := by
  refine ⟨fun h => ?_, scan_unpaired⟩
  fun_induction scan text with
  | case1 => cases h
  | case2 => cases h
  | case3 => exact Unpaired.last
  | case4 e ptr hquote ih => exact Unpaired.pair e (ih (Option.map_eq_none_iff.mp h))
  | case5 b ptr hquote hback ih =>
    exact Unpaired.plain hquote hback (ih (Option.map_eq_none_iff.mp h))

/-- The copying loop takes one round for a byte other than the backslash. -/
theorem rounds_plain {b : UInt8} (h : b ≠ byte '\\') (ptr : List UInt8) :
    rounds (b :: ptr) = rounds ptr + 1 := by
  rw [rounds.eq_def]
  exact if_neg h

/-- It takes one round for a backslash with the byte behind it, as the scan does. -/
theorem rounds_escape (e : UInt8) (ptr : List UInt8) :
    rounds (byte '\\' :: e :: ptr) = rounds ptr + 1 := by
  rw [rounds.eq_def]
  exact if_pos rfl

/-- A hexadecimal digit is no backslash. -/
theorem ne_backslash_of_hexValue {b : UInt8} {v : ℕ} (h : hexValue b = some v) :
    b ≠ byte '\\' := by
  rintro rfl
  revert h
  rw [show hexValue (byte '\\') = none by decide]
  exact fun h => by cases h

/-- Four digits that have a value. -/
theorem parseHex4_digits {h1 h2 h3 h4 : UInt8} (h : parseHex4 [h1, h2, h3, h4] ≠ 0) :
    ∃ a b c d, hexValue h1 = some a ∧ hexValue h2 = some b ∧ hexValue h3 = some c ∧
      hexValue h4 = some d ∧ parseHex4 [h1, h2, h3, h4] = ((a * 16 + b) * 16 + c) * 16 + d := by
  unfold parseHex4 at h ⊢
  dsimp only at h ⊢
  split at h
  · rename_i a b c d ha hb hc hd
    exact ⟨a, b, c, d, ha, hb, hc, hd, rfl⟩
  · exact absurd rfl h

/-- Four hexadecimal digits are four rounds of the scan, none of which meets a backslash. -/
theorem rounds_digits {h1 h2 h3 h4 : UInt8} (h : parseHex4 [h1, h2, h3, h4] ≠ 0)
    (ptr : List UInt8) : rounds (h1 :: h2 :: h3 :: h4 :: ptr) = rounds ptr + 4 := by
  obtain ⟨a, b, c, d, ha, hb, hc, hd, -⟩ := parseHex4_digits h
  rw [rounds_plain (ne_backslash_of_hexValue ha), rounds_plain (ne_backslash_of_hexValue hb),
    rounds_plain (ne_backslash_of_hexValue hc), rounds_plain (ne_backslash_of_hexValue hd)]

/-- A code point takes at most four bytes. -/
theorem length_utf8Bytes (uc : ℕ) : (utf8Bytes uc).length ≤ 4 := by
  unfold utf8Bytes
  split_ifs <;> simp

/-- What is copied out of a literal is never longer than the rounds of the scan over it, so
that it fits the block of `len + 1` bytes, also when the literal turns out not to be valid. -/
theorem length_unescape (body : List UInt8) : (unescape body).written.length ≤ rounds body := by
  fun_induction unescape body with
  | case1 => exact Nat.zero_le _
  | case2 b ptr hplain ih =>
    rw [rounds_plain hplain]
    simp only [Copied.prepend, List.length_append, List.length_singleton]
    omega
  | case3 => exact Nat.zero_le _
  | case4 b hback e ptr hshort ih =>
    rw [not_not.mp hback, rounds_escape]
    simp only [Copied.prepend, List.length_append, List.length_singleton]
    omega
  | case5 => exact Nat.zero_le _
  | case6 => exact Nat.zero_le _
  | case7 => exact Nat.zero_le _
  | case8 b hback e hunicode h1 h2 h3 h4 uc hvalid hhigh s u l1 l2 l3 l4 ptr uc2 hsecond hlow ih =>
    rw [not_or, not_ne_iff, not_ne_iff] at hsecond
    have hfirst : parseHex4 [h1, h2, h3, h4] ≠ 0 := fun h => hvalid (Or.inr h)
    have hpair : parseHex4 [l1, l2, l3, l4] ≠ 0 := fun h => hlow (Or.inl (by omega))
    have hbytes := length_utf8Bytes (surrogatePair uc uc2)
    rw [not_not.mp hback, rounds_escape, rounds_digits hfirst, hsecond.1, rounds_escape,
      rounds_digits hpair]
    simp only [Copied.prepend, List.length_append]
    omega
  | case9 => exact Nat.zero_le _
  | case10 b hback e hunicode h1 h2 h3 h4 ptr uc hvalid hhigh ih =>
    have hfirst : parseHex4 [h1, h2, h3, h4] ≠ 0 := fun h => hvalid (Or.inr h)
    have hbytes := length_utf8Bytes uc
    rw [not_not.mp hback, rounds_escape, rounds_digits hfirst]
    simp only [Copied.prepend, List.length_append]
    omega
  | case11 => exact Nat.zero_le _

/-- The loop of `parse_string` stays inside the block that the scan has measured, for texts
below 2³¹ bytes: its `len` is an `int`, and `JSON_read` hands no longer text to the parser. -/
theorem literal_fits {text : List UInt8} {l : Literal} (h : scan text = some l) :
    (unescape l.body).written.length + 1 ≤ l.len + 1 := by
  obtain ⟨-, -, hlen⟩ := scan_some h
  rw [hlen]
  exact Nat.succ_le_succ (length_unescape l.body)

/-- The literal of a letter and a line end has two bytes and a terminator to write. -/
theorem newline_fits :
    scan [byte 'a', byte '\\', byte 'n', byte '"'] =
        some ⟨[byte 'a', byte '\\', byte 'n'], [byte '"'], 2⟩ ∧
      (unescape [byte 'a', byte '\\', byte 'n']).written.length + 1 ≤ 2 + 1 := by
  have hscan : scan [byte 'a', byte '\\', byte 'n', byte '"'] =
      some ⟨[byte 'a', byte '\\', byte 'n'], [byte '"'], 2⟩ := by rfl
  exact ⟨hscan, literal_fits hscan⟩

/-- A hexadecimal digit, in capitals or not. -/
def hexDigit (upper : Bool) (n : ℕ) : UInt8 :=
  if n < 10 then UInt8.ofNat (48 + n)
  else if upper then UInt8.ofNat (55 + n) else UInt8.ofNat (87 + n)

/-- `\uXXXX`. -/
def unicodeUnit (upper : Bool) (n : ℕ) : List UInt8 :=
  [byte '\\', byte 'u', hexDigit upper (n / 4096 % 16), hexDigit upper (n / 256 % 16),
    hexDigit upper (n / 16 % 16), hexDigit upper (n % 16)]

/-- A character in escapes: one, or the two halves of a surrogate pair. -/
def unicodeText (upper : Bool) (c : Char) : List UInt8 :=
  if c.toNat < 0x10000 then unicodeUnit upper c.toNat
  else
    unicodeUnit upper (0xD800 + (c.toNat - 0x10000) / 1024) ++
      unicodeUnit upper (0xDC00 + (c.toNat - 0x10000) % 1024)

/-- `parse_hex4` gives a digit its value, whether it is a capital or a small letter. -/
theorem hexValue_hexDigit (upper : Bool) {n : ℕ} (h : n < 16) :
    hexValue (hexDigit upper n) = some n := by
  have htable : ∀ upper, ∀ n < 16, hexValue (hexDigit upper n) = some n := by decide
  exact htable upper n h

/-- Four digits are read as the number that they write. -/
theorem parseHex4_hexDigit (upper : Bool) {n : ℕ} (h : n < 0x10000) :
    parseHex4 [hexDigit upper (n / 4096 % 16), hexDigit upper (n / 256 % 16),
      hexDigit upper (n / 16 % 16), hexDigit upper (n % 16)] = n := by
  have hmod (m : ℕ) : m % 16 < 16 := Nat.mod_lt m (by decide)
  unfold parseHex4
  dsimp only
  rw [hexValue_hexDigit upper (hmod _), hexValue_hexDigit upper (hmod _),
    hexValue_hexDigit upper (hmod _), hexValue_hexDigit upper (hmod _)]
  dsimp only
  omega

/-- The masked bits with the mark of a continuation byte are a sum. -/
theorem continuation_eq (uc : ℕ) : continuation uc = UInt8.ofNat (uc % 0x40 + 0x80) := by
  have htable : ∀ n < 256, (n ||| 0x80) &&& 0xBF = n % 0x40 + 0x80 := by decide +kernel
  have hlow := htable (uc % 2 ^ 8) (Nat.mod_lt uc (by decide))
  have hmod : uc % 2 ^ 8 % 0x40 = uc % 0x40 := Nat.mod_mod_of_dvd uc (by decide)
  have hbits : ((uc ||| 0x80) &&& 0xBF) % 2 ^ 8 = (uc % 2 ^ 8 ||| 0x80) &&& 0xBF := by
    rw [Nat.and_mod_two_pow, Nat.or_mod_two_pow]
  have hlt : uc % 0x40 < 0x40 := Nat.mod_lt uc (by decide)
  unfold continuation
  rw [← UInt8.toNat_inj, UInt8.toNat_ofNat', UInt8.toNat_ofNat', hbits, hlow, hmod]
  omega

/-- So are the masked bits with the mark of a leading byte, for each of the three marks. -/
theorem leading_eq {n mark bound : ℕ} (h : n < bound)
    (htable : ∀ n < bound, n ||| mark = n + mark) :
    leading n mark = UInt8.ofNat (n % bound + mark) := by
  unfold leading
  rw [htable n h, Nat.mod_eq_of_lt h]

/-- The bytes of a character are its UTF-8 encoding, one to four of them, as the source
computes them with masks and shifts. -/
theorem utf8Bytes_char (c : Char) : utf8Bytes c.toNat = String.utf8EncodeChar c := by
  have hvalid : c.toNat < 0x110000 := by
    rcases c.valid with h | h
    · exact lt_trans h (by decide)
    · exact h.2
  have hsix : c.toNat >>> 6 = c.toNat / 64 := Nat.shiftRight_eq_div_pow _ _
  have htwelve : (c.toNat / 64) >>> 6 = c.toNat / 4096 := by
    rw [Nat.shiftRight_eq_div_pow, Nat.div_div_eq_div_mul]
  have heighteen : (c.toNat / 4096) >>> 6 = c.toNat / 262144 := by
    rw [Nat.shiftRight_eq_div_pow, Nat.div_div_eq_div_mul]
  have hval : c.val.toNat = c.toNat := rfl
  unfold utf8Bytes String.utf8EncodeChar
  dsimp only
  simp only [hval, hsix, htwelve, heighteen, continuation_eq]
  generalize c.toNat = v at hvalid
  by_cases hone : v < 0x80
  · rw [if_pos hone, if_pos (by omega)]
    unfold leading
    rw [Nat.or_zero]
  by_cases htwo : v < 0x800
  · rw [if_neg hone, if_pos htwo, if_neg (by omega), if_pos (by omega),
      @leading_eq _ _ 0x20 (by omega) (by decide)]
  by_cases hthree : v < 0x10000
  · rw [if_neg hone, if_neg htwo, if_pos hthree, if_neg (by omega), if_neg (by omega),
      if_pos (by omega), @leading_eq _ _ 0x10 (by omega) (by decide)]
  · rw [if_neg hone, if_neg htwo, if_neg hthree, if_neg (by omega), if_neg (by omega),
      if_neg (by omega), @leading_eq _ _ 8 (by omega) (by decide)]

/-- The halves of a surrogate pair, put together. -/
theorem surrogatePair_eq {a b : ℕ} (ha : a < 1024) (hb : b < 1024) :
    surrogatePair (0xD800 + a) (0xDC00 + b) = 0x10000 + (a * 1024 + b) := by
  have hhigh : (0xD800 + a) &&& 0x3FF = a := by
    rw [show 0x3FF = 2 ^ 10 - 1 by decide, Nat.and_two_pow_sub_one_eq_mod]
    omega
  have hlow : (0xDC00 + b) &&& 0x3FF = b := by
    rw [show 0x3FF = 2 ^ 10 - 1 by decide, Nat.and_two_pow_sub_one_eq_mod]
    omega
  unfold surrogatePair
  rw [hhigh, hlow, Nat.shiftLeft_eq, Nat.mul_comm a, ← Nat.two_pow_add_eq_or_of_lt hb]

/-- A surrogate pair is copied as one character. -/
theorem unescape_pair (upper : Bool) {a b : ℕ} (ha : a < 1024) (hb : b < 1024)
    (ptr : List UInt8) :
    unescape (unicodeUnit upper (0xD800 + a) ++ unicodeUnit upper (0xDC00 + b) ++ ptr) =
      (unescape ptr).prepend (utf8Bytes (0x10000 + (a * 1024 + b))) := by
  unfold unicodeUnit
  simp only [List.cons_append, List.nil_append]
  rw [unescape.eq_def]
  dsimp only
  rw [if_neg (by decide), if_neg (by decide), parseHex4_hexDigit upper (by omega),
    parseHex4_hexDigit upper (by omega), if_neg (by omega), if_pos (by omega),
    if_neg (by decide), if_neg (by omega), surrogatePair_eq ha hb]

/-- A character in escapes is copied as its UTF-8 encoding. -/
theorem unescape_unicodeText (upper : Bool) {c : Char} (hc : c.toNat ≠ 0) (ptr : List UInt8) :
    unescape (unicodeText upper c ++ ptr) =
      (unescape ptr).prepend (String.utf8EncodeChar c) := by
  have hvalid : c.toNat < 0xD800 ∨ 0xDFFF < c.toNat ∧ c.toNat < 0x110000 := c.valid
  rw [← utf8Bytes_char]
  unfold unicodeText
  split
  · rename_i hplane
    unfold unicodeUnit
    simp only [List.cons_append, List.nil_append]
    exact unescape_unicode (parseHex4_hexDigit upper hplane) hc (by omega) ptr
  · have hsum : 0x10000 + ((c.toNat - 0x10000) / 1024 * 1024 + (c.toNat - 0x10000) % 1024) =
        c.toNat := by omega
    rw [unescape_pair upper (by omega) (Nat.mod_lt _ (by decide)), hsum]

/-- A hexadecimal digit is neither quote nor backslash, so the scan passes over it. -/
theorem hexDigit_plain (upper : Bool) (n : ℕ) :
    hexDigit upper (n % 16) ≠ byte '"' ∧ hexDigit upper (n % 16) ≠ byte '\\' := by
  have htable : ∀ upper, ∀ n < 16,
      hexDigit upper n ≠ byte '"' ∧ hexDigit upper n ≠ byte '\\' := by decide
  exact htable upper _ (Nat.mod_lt n (by decide))

/-- The scan passes an escape. -/
theorem scan_unicodeUnit (upper : Bool) (n : ℕ) {rest : List UInt8} {l : Literal}
    (h : scan rest = some l) :
    scan (unicodeUnit upper n ++ rest) =
      some ⟨unicodeUnit upper n ++ l.body, l.rest, l.len + 5⟩ := by
  unfold unicodeUnit
  simp only [List.cons_append, List.nil_append]
  rw [scan, if_neg (by decide), if_pos rfl,
    scan_plain (hexDigit_plain upper _).1 (hexDigit_plain upper _).2,
    scan_plain (hexDigit_plain upper _).1 (hexDigit_plain upper _).2,
    scan_plain (hexDigit_plain upper _).1 (hexDigit_plain upper _).2,
    scan_plain (hexDigit_plain upper _).1 (hexDigit_plain upper _).2, h]
  rfl

/-- The scan passes over a character that is written in `\u` escapes as a whole. -/
theorem scan_unicodeText (upper : Bool) (c : Char) {rest : List UInt8} {l : Literal}
    (h : scan rest = some l) :
    ∃ len, scan (unicodeText upper c ++ rest) =
      some ⟨unicodeText upper c ++ l.body, l.rest, len⟩ := by
  unfold unicodeText
  split
  · exact ⟨_, scan_unicodeUnit upper _ h⟩
  · rw [List.append_assoc, List.append_assoc]
    exact ⟨_, scan_unicodeUnit upper _ (scan_unicodeUnit upper _ h)⟩

/-- A text that another program has written entirely in escapes is read as its UTF-8
encoding. -/
theorem parseString_unicode (upper : Bool) {text : List Char} (h : ∀ c ∈ text, c.toNat ≠ 0)
    (rest : List UInt8) :
    parseString (byte '"' :: text.flatMap (unicodeText upper) ++ byte '"' :: rest) =
      .done (text.flatMap String.utf8EncodeChar) rest := by
  have hcopy : unescape (text.flatMap (unicodeText upper)) =
      ⟨text.flatMap String.utf8EncodeChar, true⟩ := by
    induction text with
    | nil => rfl
    | cons c text ih =>
      rw [List.flatMap_cons, List.flatMap_cons, unescape_unicodeText upper (h c List.mem_cons_self),
        ih fun d hd => h d (List.mem_cons_of_mem _ hd)]
      rfl
  have hscan : ∃ len, scan (text.flatMap (unicodeText upper) ++ byte '"' :: rest) =
      some ⟨text.flatMap (unicodeText upper), byte '"' :: rest, len⟩ := by
    clear hcopy h
    induction text with
    | nil =>
      refine ⟨0, ?_⟩
      rw [List.flatMap_nil, List.nil_append, scan.eq_def]
      exact if_pos rfl
    | cons c text ih =>
      obtain ⟨len, hrest⟩ := ih
      rw [List.flatMap_cons, List.append_assoc]
      exact scan_unicodeText upper c hrest
  obtain ⟨len, hscan⟩ := hscan
  rw [List.cons_append]
  unfold parseString
  dsimp only
  rw [if_neg (by decide), hscan]
  dsimp only
  rw [hcopy]
  exact if_pos rfl

/-- A letter of two bytes, and one that needs a surrogate pair. -/
theorem escaped_letters_read :
    parseString (byte '"' :: ['λ', '𝔸'].flatMap (unicodeText true) ++ [byte '"']) =
      .done [0xce, 0xbb, 0xf0, 0x9d, 0x94, 0xb8] [] :=
  parseString_unicode true (by decide) []

end IperfRuntime.JsonStrings
