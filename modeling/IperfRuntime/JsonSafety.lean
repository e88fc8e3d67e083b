import IperfRuntime.JsonFidelity

/-!
# The parser on any text

What a peer can make the parser do: where it stops, where it reports an error, when it reads
behind the text, and what the trees look like that it builds. The stack is unbounded here, so a
text cannot exhaust it by its nesting.
-/

namespace IperfRuntime.JsonSafety

open ByteOrder JsonTree JsonFraming ServerOutput PrintfText JsonNumbers JsonStrings JsonText
  JsonRoundTrip JsonFidelity

section WellRead

variable {α β : Type*}

/-- A result that keeps to the text: what is left is a shorter suffix, an error is reported
inside the text, and a read behind it takes a literal at its end that is not closed and whose last
backslash is unpaired. -/
def WellRead (text : List UInt8) : Parsed α → Prop
  | .done _ rest => rest <:+ text ∧ rest.length < text.length
  | .malformed ep => ep <:+ text
  | .overrun => ∃ body, byte '"' :: body <:+ text ∧ Unpaired body
  | .exhausted => False

/-- What keeps to a part of a text keeps to the text. -/
theorem WellRead.mono {part text : List UInt8} {r : Parsed α} (h : WellRead part r)
    (hpart : part <:+ text) : WellRead text r := by
  cases r with
  | done value rest => exact ⟨h.1.trans hpart, h.2.trans_le hpart.length_le⟩
  | malformed ep => exact List.IsSuffix.trans h hpart
  | overrun =>
    obtain ⟨body, hbody, hunpaired⟩ := h
    exact ⟨body, hbody.trans hpart, hunpaired⟩
  | exhausted => exact h

/-- One part of a text behind the other. -/
theorem WellRead.bind {text : List UInt8} {r : Parsed α} {f : α → List UInt8 → Parsed β}
    (h : WellRead text r)
    (hf : ∀ value rest, rest <:+ text → rest.length < text.length → WellRead text (f value rest)) :
    WellRead text (r.bind f) := by
  cases r with
  | done value rest => exact hf value rest h.1 h.2
  | malformed ep => exact h
  | overrun => exact h
  | exhausted => exact h

end WellRead

/-- Skipping white space leaves a suffix of the text. -/
theorem skip_suffix (text : List UInt8) : skip text <:+ text := List.dropWhile_suffix _

/-- So does stepping over a closing quote. -/
theorem closeQuote_suffix (text : List UInt8) : closeQuote text <:+ text := by
  cases text with
  | nil => exact List.suffix_rfl
  | cons b ptr =>
    unfold closeQuote
    dsimp only
    split
    · exact List.suffix_cons b ptr
    · exact List.suffix_rfl

/-- Whatever a literal looks like, `parse_string` stays within the text. -/
theorem parseString_wellRead (text : List UInt8) : WellRead text (parseString text) := by
  cases text with
  | nil => exact List.suffix_rfl
  | cons q ptr =>
    unfold parseString
    dsimp only
    split
    · exact List.suffix_rfl
    rename_i hquote
    rw [not_not] at hquote
    cases hscan : scan ptr with
    | none => exact ⟨ptr, hquote ▸ List.suffix_rfl, scan_eq_none.mp hscan⟩
    | some l =>
      obtain ⟨htext, -, -⟩ := scan_some hscan
      dsimp only
      split
      · have hrest : closeQuote l.rest <:+ ptr := by
          rw [htext]
          exact (closeQuote_suffix _).trans (List.suffix_append _ _)
        exact ⟨hrest.trans (List.suffix_cons q ptr), Nat.lt_succ_of_le hrest.length_le⟩
      · exact List.suffix_rfl

/-- Reading digits leaves a suffix of the text. -/
theorem takeDigits_suffix {α : Type*} (step : α → ℕ → α) (num : List UInt8) (n : α) (count : ℕ) :
    (takeDigits step num n count).2.2 <:+ num := by
  induction num generalizing n count with
  | nil => exact List.suffix_rfl
  | cons b num ih =>
    unfold takeDigits
    split
    · exact (ih _ _).trans (List.suffix_cons b num)
    · exact List.suffix_rfl

/-- The parts of a number, each of which may be empty, leave a suffix of the text each, so the
parser never goes back. -/
theorem takeParts_suffix (n : Option ℚ) (num : List UInt8) :
    (takeWhole num).2.2 <:+ num ∧ (takeFraction n num).2.2 <:+ num ∧
        (takeExponent num).2 <:+ num := by
  refine ⟨?_, ?_, ?_⟩
  · cases num with
    | nil => exact List.suffix_rfl
    | cons b num =>
      unfold takeWhole
      dsimp only
      split
      · exact takeDigits_suffix _ _ _ _
      · exact List.suffix_rfl
  · unfold takeFraction
    split
    · rename_i b d num
      split
      · exact (takeDigits_suffix _ _ _ _).trans (List.suffix_cons b _)
      · exact List.suffix_rfl
    · exact List.suffix_rfl
  · cases num with
    | nil => exact List.suffix_rfl
    | cons b num =>
      have hsign : (takeExponentSign num).2 <:+ num := by
        cases num with
        | nil => exact List.suffix_rfl
        | cons c num =>
          unfold takeExponentSign
          dsimp only
          split
          · exact List.suffix_cons c num
          · split
            · exact List.suffix_cons c num
            · exact List.suffix_rfl
      unfold takeExponent
      dsimp only
      split
      · exact ((takeDigits_suffix _ _ _ _).trans hsign).trans (List.suffix_cons b num)
      · exact List.suffix_rfl

/-- A number takes at least the byte that it begins with, which is what ends the loops around
it. -/
theorem parseNumber_suffix (P : PowerOfTen) {b : UInt8} (h : b = byte '-' ∨ isDigit b = true)
    (num : List UInt8) : (parseNumber P (b :: num)).2 <:+ num := by
  have htail (n : Option ℚ) (part : List UInt8) :
      (takeExponent (takeFraction n part).2.2).2 <:+ part :=
    (takeParts_suffix n _).2.2.trans (takeParts_suffix n part).2.1
  have hzero (part : List UInt8) : takeZero part <:+ part := by
    cases part with
    | nil => exact List.suffix_rfl
    | cons c part =>
      unfold takeZero
      dsimp only
      split
      · exact List.suffix_cons c part
      · exact List.suffix_rfl
  have hrest : (parseNumber P (b :: num)).2 = (takeExponent (takeFraction
      (takeWhole (takeZero (takeSign (b :: num)).2)).1
      (takeWhole (takeZero (takeSign (b :: num)).2)).2.2).2.2).2 := rfl
  rw [hrest]
  rcases eq_or_ne b (byte '-') with rfl | hminus
  · have hsign : takeSign (byte '-' :: num) = (-1, num) := by rw [takeSign, if_pos rfl]
    rw [hsign]
    exact ((htail _ _).trans (takeParts_suffix none _).1).trans (hzero num)
  · have hdigit := h.resolve_left hminus
    have hsign : takeSign (b :: num) = (1, b :: num) := by rw [takeSign, if_neg hminus]
    rw [hsign]
    refine (htail _ _).trans ?_
    dsimp only
    rcases eq_or_ne b (byte '0') with rfl | hnonzero
    · have hskip : takeZero (byte '0' :: num) = num := by rw [takeZero, if_pos rfl]
      rw [hskip]
      exact (takeParts_suffix none num).1
    · have hskip : takeZero (b :: num) = b :: num := by rw [takeZero, if_neg hnonzero]
      have hrange : byte '1' ≤ b ∧ b ≤ byte '9' := by
        obtain ⟨hlow, hhigh⟩ := isDigit_bounds hdigit
        have hne : b.toNat ≠ 48 := fun heq => hnonzero (UInt8.toNat_inj.mp heq)
        rw [UInt8.le_iff_toNat_le, UInt8.le_iff_toNat_le]
        exact ⟨show 49 ≤ b.toNat by omega, hhigh⟩
      rw [hskip]
      rw [takeWhole, if_pos hrange, takeDigits, if_pos hdigit]
      exact takeDigits_suffix _ _ _ _

section Sequences

variable {α : Type*} {element : List UInt8 → Parsed α} {bound : ℕ}

/-- A sequence keeps to its text when its elements do, by induction on the bound of its loop.
-/
theorem parseSequence_wellRead (close : UInt8)
    (h : ∀ value, value.length ≤ bound → WellRead value (element value)) :
    ∀ n value, value.length < n → value.length ≤ bound →
      WellRead value (parseSequence element close n value) := by
  intro n
  induction n with
  | zero =>
    intro value hn
    omega
  | succ n ih =>
    intro value hn hbound
    rw [parseSequence]
    refine (h value hbound).bind fun child rest hrest hlt => ?_
    have hskip := (skip_suffix rest).trans hrest
    cases hcase : skip rest with
    | nil => exact List.nil_suffix
    | cons b tail =>
      rw [hcase] at hskip
      have htail : tail <:+ value := (List.suffix_cons b tail).trans hskip
      have hshort : tail.length < value.length := by
        have hlength := hskip.length_le
        rw [List.length_cons] at hlength
        omega
      dsimp only
      split
      · have hnext := skip_suffix tail
        have hlength := hnext.length_le
        refine ((ih (skip tail) (by omega) (by omega)).mono (hnext.trans htail)).bind ?_
        exact fun children rest hrest hlt => ⟨hrest, hlt⟩
      · split
        · exact ⟨htail, hshort⟩
        · exact hskip

/-- What stands in brackets keeps to its text, which the opening bracket lengthens. -/
theorem parseBracket_wellRead (open' close : UInt8)
    (h : ∀ value, value.length ≤ bound → WellRead value (element value)) {rest : List UInt8}
    (hbound : rest.length ≤ bound) :
    WellRead (open' :: rest) (parseBracket element close rest) := by
  have hskip := skip_suffix rest
  have hcons := List.suffix_cons open' rest
  unfold parseBracket
  cases hcase : skip rest with
  | nil =>
    exact (parseSequence_wellRead close h 1 [] (by decide) (Nat.zero_le _)).mono List.nil_suffix
  | cons b tail =>
    rw [hcase] at hskip
    have hlength := hskip.length_le
    rw [List.length_cons] at hlength
    dsimp only
    split
    · refine ⟨((List.suffix_cons b tail).trans hskip).trans hcons, ?_⟩
      rw [List.length_cons]
      omega
    · refine (parseSequence_wellRead close h _ (b :: tail) ?_ ?_).mono (hskip.trans hcons)
      · rw [List.length_cons]
        omega
      · rw [List.length_cons]
        omega

end Sequences

/-- A member is read within the text if its value is. -/
theorem parseMember_wellRead {parse : List UInt8 → Parsed (Option CJson)} {bound : ℕ}
    (h : ∀ value, value.length ≤ bound → WellRead value (parse value)) (value : List UInt8)
    (hbound : value.length ≤ bound) : WellRead value (parseMember parse value) := by
  unfold parseMember
  refine (parseString_wellRead value).bind fun name rest hrest hlt => ?_
  have hskip := (skip_suffix rest).trans hrest
  cases hcase : skip rest with
  | nil => exact List.nil_suffix
  | cons b tail =>
    rw [hcase] at hskip
    have htail : tail <:+ value := (List.suffix_cons b tail).trans hskip
    have hnext := skip_suffix tail
    have hlength := (hnext.trans htail).length_le
    dsimp only
    split
    · exact hskip
    · refine ((h (skip tail) (by omega)).mono (hnext.trans htail)).bind ?_
      exact fun child rest hrest hlt => ⟨hrest, hlt⟩

/-- The parser of a value keeps to its text, and the bound on the nesting is enough: every
level takes a byte at least. -/
theorem parseValue_wellRead (P : PowerOfTen) :
    ∀ n value, value.length < n → WellRead value (parseValue P n value) := by
  intro n
  induction n with
  | zero =>
    intro value hn
    omega
  | succ n ih =>
    intro value hn
    have hname {k : ℕ} {name : List UInt8} (hlength : name.length = k) (hk : 0 < k)
        (hbegins : name.isPrefixOf value = true) (c : Option CJson) :
        WellRead value (Parsed.done c (value.drop k)) := by
      have hle := (List.isPrefixOf_iff_prefix.mp hbegins).length_le
      refine ⟨List.drop_suffix _ _, ?_⟩
      rw [List.length_drop]
      omega
    have helement : ∀ part, part.length ≤ n - 1 → 0 < n → WellRead part (parseValue P n part) :=
      fun part hpart hpos => ih part (by omega)
    rw [parseValue.eq_def]
    dsimp only
    split
    · exact hname (k := 4) rfl (by decide) ‹_› _
    split
    · exact hname (k := 5) rfl (by decide) ‹_› _
    split
    · exact hname (k := 4) rfl (by decide) ‹_› _
    cases value with
    | nil => exact List.suffix_rfl
    | cons b rest =>
      rw [List.length_cons] at hn
      have hpos : 0 < n := by omega
      dsimp only
      split
      · exact (parseString_wellRead _).bind fun s rest hrest hlt => ⟨hrest, hlt⟩
      split
      · rename_i hhead
        have hnumber := parseNumber_suffix P hhead rest
        exact ⟨hnumber.trans (List.suffix_cons b rest), Nat.lt_succ_of_le hnumber.length_le⟩
      split
      · have hbound : rest.length ≤ n - 1 := by omega
        refine (parseBracket_wellRead b _ (fun part hpart => helement part hpart hpos)
          hbound).bind ?_
        exact fun children rest hrest hlt => ⟨hrest, hlt⟩
      split
      · have hbound : rest.length ≤ n - 1 := by omega
        refine (parseBracket_wellRead b _ (parseMember_wellRead fun part hpart =>
          helement part hpart hpos) hbound).bind ?_
        exact fun members rest hrest hlt => ⟨hrest, hlt⟩
      · exact List.suffix_rfl

/-- So is a whole document. -/
theorem parseWithOpts_wellRead (P : PowerOfTen) (value : List UInt8)
    (requireNullTerminated : Bool) :
    WellRead (cString value) (parseWithOpts P value requireNullTerminated) := by
  have hskip := skip_suffix (cString value)
  unfold parseWithOpts
  refine ((parseValue_wellRead P _ _ (Nat.lt_succ_self _)).mono hskip).bind
    fun c rest hrest hlt => ?_
  split
  · cases hcase : skip rest with
    | nil => exact ⟨List.nil_suffix, by rw [List.length_nil]; omega⟩
    | cons b tail =>
      have htail := (skip_suffix rest).trans hrest
      rw [hcase] at htail
      exact htail
  · exact ⟨hrest, hlt⟩

/-- A text that is one literal is read beyond its terminator exactly if its body ends in a
backslash that is not paired. -/
theorem parseWithOpts_literal (P : PowerOfTen) (requireNullTerminated : Bool) (body : List UInt8) :
    parseWithOpts P (byte '"' :: body) requireNullTerminated = .overrun ↔
      Unpaired (cString body) := by
  have htext : cString (byte '"' :: body) = byte '"' :: cString body := by
    unfold cString
    exact List.takeWhile_cons_of_pos (by decide)
  unfold parseWithOpts
  rw [htext, skip_stop (by decide)]
  dsimp only
  rw [parseValue_head P _ (by decide), if_pos rfl, ← scan_eq_none]
  unfold parseString
  dsimp only
  rw [if_neg (by decide)]
  cases scan (cString body) with
  | none => exact iff_of_true rfl rfl
  | some l =>
    refine iff_of_false ?_ (Option.some_ne_none l)
    dsimp only
    split
    · dsimp only [Parsed.bind]
      split
      · cases skip (closeQuote l.rest) with
        | nil => exact fun heq => by cases heq
        | cons b rest => exact fun heq => by cases heq
      · exact fun heq => by cases heq
    · exact fun heq => by cases heq

/-- On any text the parser returns a tree and a shorter rest of the text, or an error inside
the text, unless the text ends in a literal that is not closed and whose last backslash is
unpaired; a text that is one literal takes the parser behind its terminator exactly then. -/
theorem parser_in_text (P : PowerOfTen) (requireNullTerminated : Bool) :
    (∀ value, WellRead (cString value) (parseWithOpts P value requireNullTerminated)) ∧
      ∀ body, parseWithOpts P (byte '"' :: body) requireNullTerminated = .overrun ↔
        Unpaired (cString body) :=
  ⟨fun value => parseWithOpts_wellRead P value requireNullTerminated,
    parseWithOpts_literal P requireNullTerminated⟩

/-- One backslash at the end of a literal takes the parser behind the text, and two do not. -/
theorem backslashes_in_text :
    parseWithOpts roundedPower [byte '"', byte 'a', byte '\\'] true = .overrun ∧
      parseWithOpts roundedPower [byte '"', byte 'a', byte '\\', byte '\\'] true ≠ .overrun := by
  have hliteral := (parser_in_text roundedPower true).2
  refine ⟨(hliteral [byte 'a', byte '\\']).mpr ?_,
    fun h => absurd ((hliteral [byte 'a', byte '\\', byte '\\']).mp h) ?_⟩
  · rw [← scan_eq_none]
    rfl
  · rw [← scan_eq_none]
    decide

/-- Every tree that a parsing function can return has a property. -/
def Makes {α : Type*} (good : α → Prop) (r : Parsed α) : Prop :=
  ∀ value rest, r = .done value rest → good value

/-- A sequence makes what its second part makes. -/
theorem Makes.bind {α β : Type*} {good : β → Prop} {r : Parsed α} {f : α → List UInt8 → Parsed β}
    (h : ∀ value rest, r = .done value rest → Makes good (f value rest)) :
    Makes good (r.bind f) := by
  cases r with
  | done value rest => exact h value rest rfl
  | malformed ep => exact fun value rest heq => by cases heq
  | overrun => exact fun value rest heq => by cases heq
  | exhausted => exact fun value rest heq => by cases heq

/-- The first byte of a character in UTF-8 is not zero where its mark is not. -/
theorem leading_ne_zero {n mark : ℕ} (h : mark % 256 ≠ 0) : leading n mark ≠ 0 := by
  intro heq
  have hvalue := congrArg UInt8.toNat heq
  have hmod : (n ||| mark) % 2 ^ 8 = n % 2 ^ 8 ||| mark % 2 ^ 8 := Nat.or_mod_two_pow
  have hle : mark % 2 ^ 8 ≤ n % 2 ^ 8 ||| mark % 2 ^ 8 := Nat.right_le_or
  unfold leading at hvalue
  rw [UInt8.toNat_ofNat', hmod] at hvalue
  have hzero : (0 : UInt8).toNat = 0 := rfl
  omega

/-- Neither is a continuation byte. -/
theorem continuation_ne_zero (uc : ℕ) : continuation uc ≠ 0 := by
  intro heq
  have hvalue := congrArg UInt8.toNat heq
  have hzero : (0 : UInt8).toNat = 0 := rfl
  rw [continuation_eq, UInt8.toNat_ofNat'] at hvalue
  omega

/-- No escape makes a terminator, since that for the character zero is refused. -/
theorem zero_not_mem_utf8Bytes {uc : ℕ} (h : uc ≠ 0) : 0 ∉ utf8Bytes uc := by
  unfold utf8Bytes
  split
  · have hne : leading uc 0 ≠ 0 := by
      intro heq
      have hvalue := congrArg UInt8.toNat heq
      have hzero : (0 : UInt8).toNat = 0 := rfl
      unfold leading at hvalue
      rw [Nat.or_zero, UInt8.toNat_ofNat'] at hvalue
      omega
    simpa using hne.symm
  have hnext (k : ℕ) : 0 ≠ continuation k := (continuation_ne_zero k).symm
  split
  · simp [hnext, (leading_ne_zero (show 0xC0 % 256 ≠ 0 by decide)).symm]
  · split
    · simp [hnext, (leading_ne_zero (show 0xE0 % 256 ≠ 0 by decide)).symm]
    · simp [hnext, (leading_ne_zero (show 0xF0 % 256 ≠ 0 by decide)).symm]

/-- A short escape never stands for the zero byte. -/
theorem shortEscape_ne_zero {e : UInt8} (h : e ≠ 0) : shortEscape e ≠ 0 := by
  revert h
  refine forall_byte (p := fun e => e ≠ 0 → shortEscape e ≠ 0) ?_ e
  decide +kernel

/-- What is copied out of a literal has no terminator inside: the escape of the character zero
is left out. -/
theorem zero_not_mem_unescape {body : List UInt8} (h : 0 ∉ body) :
    0 ∉ (unescape body).written := by
  have hprepend {front : List UInt8} {c : Copied} (hfront : 0 ∉ front) (hc : 0 ∉ c.written) :
      0 ∉ (c.prepend front).written := by
    unfold Copied.prepend
    rw [List.mem_append, not_or]
    exact ⟨hfront, hc⟩
  fun_induction unescape body with
  | case1 => exact List.not_mem_nil
  | case2 b ptr hplain ih =>
    rw [List.mem_cons, not_or] at h
    exact hprepend (by simpa using h.1) (ih h.2)
  | case3 => exact List.not_mem_nil
  | case4 b hback e ptr hshort ih =>
    simp only [List.mem_cons, not_or] at h
    refine hprepend ?_ (ih h.2.2)
    simpa using (shortEscape_ne_zero (Ne.symm h.2.1)).symm
  | case5 => exact List.not_mem_nil
  | case6 => exact List.not_mem_nil
  | case7 => exact List.not_mem_nil
  | case8 b hback e hunicode h1 h2 h3 h4 uc hvalid hhigh s u l1 l2 l3 l4 ptr uc2 hsecond hlow ih =>
    simp only [List.mem_cons, not_or] at h
    refine hprepend (zero_not_mem_utf8Bytes ?_) (ih ?_)
    · unfold surrogatePair
      omega
    · tauto
  | case9 => exact List.not_mem_nil
  | case10 b hback e hunicode h1 h2 h3 h4 ptr uc hvalid hhigh ih =>
    simp only [List.mem_cons, not_or] at h
    refine hprepend (zero_not_mem_utf8Bytes fun hzero => hvalid (Or.inr hzero)) (ih ?_)
    tauto
  | case11 => exact List.not_mem_nil

/-- The string made of a text without zero bytes has none either. -/
theorem parseString_makes {text : List UInt8} (h : 0 ∉ text) :
    Makes (fun s => 0 ∉ s) (parseString text) := by
  intro out rest heq
  cases text with
  | nil => cases heq
  | cons q ptr =>
    unfold parseString at heq
    dsimp only at heq
    split at heq
    · cases heq
    cases hscan : scan ptr with
    | none =>
      rw [hscan] at heq
      cases heq
    | some l =>
      obtain ⟨htext, -, -⟩ := scan_some hscan
      rw [hscan] at heq
      dsimp only at heq
      split at heq
      · cases heq
        refine zero_not_mem_unescape fun hmem => h (List.mem_cons_of_mem _ ?_)
        rw [htext]
        exact List.mem_append_left _ hmem
      · cases heq

section Sequences

variable {α : Type*} {element : List UInt8 → Parsed α} {good : α → Prop} {bound : ℕ}

/-- A suffix of a text without zero bytes has none. -/
theorem zero_not_mem_of_suffix {part text : List UInt8} (hpart : part <:+ text) (h : 0 ∉ text) :
    0 ∉ part := fun hmem => h (hpart.subset hmem)

/-- The elements between two brackets are as good as the reader of one element makes them,
also when the sequence ends in an error later on. -/
theorem parseSequence_makes (close : UInt8)
    (hread : ∀ value, value.length ≤ bound → WellRead value (element value))
    (h : ∀ value, value.length ≤ bound → 0 ∉ value → Makes good (element value)) :
    ∀ n value, value.length ≤ bound → 0 ∉ value →
      Makes (fun children => ∀ c ∈ children, good c) (parseSequence element close n value) := by
  intro n
  induction n with
  | zero => exact fun value _ _ children rest heq => by cases heq
  | succ n ih =>
    intro value hbound hzero
    rw [parseSequence]
    refine Makes.bind fun child rest hdone => ?_
    have hchild := h value hbound hzero child rest hdone
    have hsuffix : WellRead value (.done child rest) := hdone ▸ hread value hbound
    have hskip := (skip_suffix rest).trans hsuffix.1
    cases hcase : skip rest with
    | nil => exact fun children rest heq => by cases heq
    | cons b tail =>
      rw [hcase] at hskip
      have hnext := ((skip_suffix tail).trans (List.suffix_cons b tail)).trans hskip
      dsimp only
      split
      · refine Makes.bind fun children rest' hrest => ?_
        have hchildren := ih (skip tail) (hnext.length_le.trans hbound)
          (zero_not_mem_of_suffix hnext hzero) children rest' hrest
        intro all last heq
        cases heq
        exact List.forall_mem_cons.mpr ⟨hchild, hchildren⟩
      · split
        · intro all last heq
          cases heq
          exact List.forall_mem_singleton.mpr hchild
        · exact fun all last heq => by cases heq

/-- So are those of a bracket that has just been opened. -/
theorem parseBracket_makes (close : UInt8)
    (hread : ∀ value, value.length ≤ bound → WellRead value (element value))
    (h : ∀ value, value.length ≤ bound → 0 ∉ value → Makes good (element value))
    {rest : List UInt8} (hbound : rest.length ≤ bound) (hzero : 0 ∉ rest) :
    Makes (fun children => ∀ c ∈ children, good c) (parseBracket element close rest) := by
  have hskip := skip_suffix rest
  unfold parseBracket
  cases hcase : skip rest with
  | nil =>
    exact parseSequence_makes close hread h 1 [] (Nat.zero_le _) List.not_mem_nil
  | cons b tail =>
    rw [hcase] at hskip
    dsimp only
    split
    · intro children last heq
      cases heq
      exact fun c hc => absurd hc List.not_mem_nil
    · exact parseSequence_makes close hread h _ _ (hskip.length_le.trans hbound)
        (zero_not_mem_of_suffix hskip hzero)

end Sequences

/-- So is the value of a member, whose name is a string without terminators inside. -/
theorem parseMember_makes {parse : List UInt8 → Parsed (Option CJson)} {good : CJson → Prop}
    {bound : ℕ}
    (h : ∀ value, value.length ≤ bound → 0 ∉ value →
      Makes (fun c => ∀ t ∈ c, good t) (parse value))
    (value : List UInt8) (hbound : value.length ≤ bound) (hzero : 0 ∉ value) :
    Makes (fun m => ∀ p ∈ m, CText p.1 ∧ good p.2) (parseMember parse value) := by
  unfold parseMember
  refine Makes.bind fun name rest hname => ?_
  have hclean := parseString_makes hzero name rest hname
  have hsuffix : WellRead value (.done name rest) := hname ▸ parseString_wellRead value
  have hskip := (skip_suffix rest).trans hsuffix.1
  cases hcase : skip rest with
  | nil => exact fun m last heq => by cases heq
  | cons b tail =>
    rw [hcase] at hskip
    have hnext := ((skip_suffix tail).trans (List.suffix_cons b tail)).trans hskip
    dsimp only
    split
    · exact fun m last heq => by cases heq
    · refine Makes.bind fun child rest' hchild => ?_
      have hgood := h (skip tail) (hnext.length_le.trans hbound)
        (zero_not_mem_of_suffix hnext hzero) child rest' hchild
      intro m last heq p hp
      cases heq
      obtain ⟨c, hc, rfl⟩ := Option.map_eq_some_iff.mp hp
      exact ⟨cText_ofBytes hclean, hgood c hc⟩

/-- The parts of a tree that has a value. -/
theorem forall_mem_together {α : Type*} {good : α → Prop} {parts : List (Option α)}
    {values : List α}
    (h : together parts = some values) (hparts : ∀ part ∈ parts, ∀ a ∈ part, good a) :
    ∀ a ∈ values, good a := by
  induction parts generalizing values with
  | nil =>
    cases h
    exact fun a ha => absurd ha List.not_mem_nil
  | cons part parts ih =>
    obtain ⟨a, rfl, hrest⟩ := Option.bind_eq_some_iff.mp h
    obtain ⟨rest, htogether, rfl⟩ := Option.map_eq_some_iff.mp hrest
    obtain ⟨hfirst, hothers⟩ := List.forall_mem_cons.mp hparts
    exact List.forall_mem_cons.mpr ⟨hfirst a rfl, ih htogether hothers⟩

/-- A tree as the program builds it, with finite numbers. -/
def Sound (t : CJson) : Prop := Built Truncated t ∧ FiniteTree t

/-- What a number is read as is finite. -/
theorem parseNumber_sound {P : PowerOfTen} {num : List UInt8} {t : CJson}
    (h : (parseNumber P num).1 = some t) : Sound t := by
  unfold parseNumber at h
  dsimp only at h
  obtain ⟨n, hn, rfl⟩ := Option.map_eq_some_iff.mp h
  split at hn
  · obtain ⟨sum, -, hscaled⟩ := Option.bind_eq_some_iff.mp hn
    unfold scaleNumber at hscaled
    split at hscaled
    · unfold double at hscaled
      split at hscaled
      · rename_i hfinite
        cases hscaled
        exact ⟨Built.number rfl, FiniteTree.number hfinite⟩
      · cases hscaled
    · cases hscaled
  · cases hn

/-- The parser builds trees like those of the program: strings end where they should, and a
number has the slots that its text gives it. -/
theorem parseValue_makes (P : PowerOfTen) :
    ∀ n value, value.length < n → 0 ∉ value →
      Makes (fun c => ∀ t ∈ c, Sound t) (parseValue P n value) := by
  intro n
  induction n with
  | zero =>
    intro value hn
    omega
  | succ n ih =>
    intro value hn hzero
    rw [parseValue.eq_def]
    dsimp only
    split
    · intro c rest heq t ht
      cases heq
      cases ht
      exact ⟨Built.null, FiniteTree.null⟩
    split
    · intro c rest heq t ht
      cases heq
      cases ht
      exact ⟨Built.false, FiniteTree.false⟩
    split
    · intro c rest heq t ht
      cases heq
      cases ht
      exact ⟨Built.true, FiniteTree.true⟩
    cases value with
    | nil => exact fun c rest heq => by cases heq
    | cons b tail =>
      rw [List.length_cons] at hn
      rw [List.mem_cons, not_or] at hzero
      have hread : ∀ part, part.length ≤ n - 1 → WellRead part (parseValue P n part) :=
        fun part hpart => parseValue_wellRead P n part (by omega)
      have hmakes : ∀ part, part.length ≤ n - 1 → 0 ∉ part →
          Makes (fun c => ∀ t ∈ c, Sound t) (parseValue P n part) :=
        fun part hpart => ih part (by omega)
      dsimp only
      split
      · refine Makes.bind fun s rest hs => ?_
        have hclean := parseString_makes (by rw [List.mem_cons, not_or]; exact hzero) s rest hs
        intro c last heq t ht
        cases heq
        cases ht
        exact ⟨Built.string (cText_ofBytes hclean), FiniteTree.string _⟩
      split
      · intro c last heq t ht
        cases heq
        exact parseNumber_sound ht
      split
      · refine Makes.bind fun children rest hchildren => ?_
        have hbound : tail.length ≤ n - 1 := by omega
        have hall := parseBracket_makes (byte ']') hread hmakes hbound hzero.2 children rest
          hchildren
        intro c last heq t ht
        cases heq
        obtain ⟨values, hvalues, rfl⟩ := Option.map_eq_some_iff.mp ht
        have hsound := forall_mem_together hvalues hall
        exact ⟨Built.array fun c hc => (hsound c hc).1,
          FiniteTree.array fun c hc => (hsound c hc).2⟩
      split
      · refine Makes.bind fun members rest hmembers => ?_
        have hbound : tail.length ≤ n - 1 := by omega
        have hall := parseBracket_makes (byte '}') (parseMember_wellRead hread)
          (parseMember_makes hmakes) hbound hzero.2 members rest hmembers
        intro c last heq t ht
        cases heq
        obtain ⟨values, hvalues, rfl⟩ := Option.map_eq_some_iff.mp ht
        have hsound := forall_mem_together hvalues hall
        exact ⟨Built.object (fun m hm => (hsound m hm).1) fun m hm => (hsound m hm).2.1,
          FiniteTree.object fun m hm => (hsound m hm).2.2⟩
      · exact fun c rest heq => by cases heq

/-- Every document that `cJSON_Parse` accepts is a sound tree. -/
theorem cjsonParse_sound {P : PowerOfTen} {value : List UInt8} {t : CJson}
    (h : cjsonParse P value = some t) : Sound t := by
  have hskip := skip_suffix (cString value)
  have hzero := zero_not_mem_of_suffix hskip (zero_not_mem_cString value)
  have hmakes := parseValue_makes P _ (skip (cString value)) (Nat.lt_succ_self _) hzero
  unfold cjsonParse parseWithOpts at h
  dsimp only at h
  cases hparse : parseValue P ((skip (cString value)).length + 1) (skip (cString value)) with
  | done c rest =>
    rw [hparse] at h
    cases h
    exact hmakes _ _ hparse t rfl
  | malformed ep =>
    rw [hparse] at h
    cases h
  | overrun =>
    rw [hparse] at h
    cases h
  | exhausted =>
    rw [hparse] at h
    cases h

/-- Whatever text is accepted with finite numbers, the tree that is read from it survives being
printed and read again. -/
theorem accepted_returns (P : PowerOfTen) {value : List UInt8} {t : CJson}
    (h : cjsonParse P value = some t) :
    ∃ t', Returns t t' ∧ ∀ fmt depth, cjsonParse P (printValue fmt depth t).text = some t' := by
  obtain ⟨hbuilt, hfinite⟩ := cjsonParse_sound h
  obtain ⟨t', hreturns, -, hparse⟩ := tree_returns P hbuilt hfinite
  refine ⟨t', hreturns, fun fmt depth => ?_⟩
  unfold cjsonParse
  rw [hparse]

/-- The tree of `intervalTree`, as it is read from its formatted text. -/
def acceptedTree : CJson := reread roundedPower intervalTree

/-- An accepted tree with members of every type comes back from its text. -/
theorem acceptedTree_returns :
    ∃ t', Returns acceptedTree t' ∧
      ∀ fmt depth, cjsonParse roundedPower (printValue fmt depth acceptedTree).text = some t' :=
  accepted_returns roundedPower (cjsonParse_print roundedPower true intervalTree_finite 3)

end IperfRuntime.JsonSafety
