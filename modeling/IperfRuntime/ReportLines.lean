import IperfRuntime.PatternLanguage
import IperfRuntime.PrintedNumbers
import IperfRuntime.ReportOutput

/-!
# Report lines under the patterns

What `REPORT_PATTERN` finds in a line that begins as all bandwidth lines do: the times,
the amount and the rate, the first time without what it has in front of two digits, or
nothing when the second time has more than two or the rate is no number.
-/

namespace IperfRuntime.ReportLines

open OptionText TextPattern PrintfText PrintedNumbers ReportOutput CommandParser

/-- A text of `\d{1,2}.\d{2}`. -/
structure TimeText (text whole places : Text) (point : Char) : Prop where
  text_eq : text = whole ++ point :: places
  digits : Digits whole
  least : 1 ≤ whole.length
  most : whole.length ≤ 2
  decimals : Digits places
  two : places.length = 2

/-- What the pattern of a time accepts is a whole part, a point and places. -/
theorem timePattern_accepts {seg : Text} (h : timePattern.Accepts seg) :
    ∃ whole places point, TimeText seg whole places point := by
  obtain ⟨whole, more, rfl, ⟨hwhole, hleast, hmost⟩, dotted, places, rfl, ⟨-, hone, hone'⟩, hplaces,
    htwo, htwo'⟩ := h
  have hlength : dotted.length = 1 := Nat.le_antisymm (hone' 1 rfl) hone
  obtain ⟨point, rfl⟩ := List.length_eq_one_iff.mp hlength
  exact ⟨whole, places, point, rfl, hwhole, hleast, hmost 2 rfl, hplaces,
    Nat.le_antisymm (htwo' 2 rfl) htwo⟩

/-- What a report has behind its times: a gap, the amount and the rate with its unit, whose
last digit stands in front of the blank. -/
theorem reportPattern_accepts {seg : Text} (h : reportPattern.Accepts seg) :
    ∃ first second gap more, seg = first ++ '-' :: (second ++ gap :: more) ∧
      timePattern.Accepts first ∧ timePattern.Accepts second ∧ isSpace gap = true ∧
      ∃ before d, second ++ gap :: more = before ++ d :: lit " Mbits/sec" ∧ d.isDigit = true := by
  obtain ⟨first, more₁, rfl, hfirst, dash, more₂, rfl, hdash, second, more₃, rfl, hsecond,
    gap₁, more₄, rfl, ⟨hgap, hleast, -⟩, sec, more₅, rfl, -, gap₂, more₆, rfl, -, trans,
      more₇, rfl, -,
    gap₃, bw, rfl, -, hbw⟩ := h
  have hdash' : dash = ['-'] := hdash
  cases gap₁ with
  | nil => cases hleast
  | cons gap gap₁ =>
    refine ⟨first, second, gap, _, by rw [hdash']; rfl, hfirst, hsecond,
      hgap gap List.mem_cons_self,
      ?_⟩
    obtain ⟨digits, more₈, rfl, ⟨hdigits, hone, -⟩, places, unit, rfl, hplaces, hunit⟩ := hbw
    have hunit' : unit = lit " Mbits/sec" := hunit
    have hlast : ∃ number d, digits ++ places = number ++ [d] ∧ d.isDigit = true := by
      rcases hplaces with hplaces | rfl
      · obtain ⟨point, rest, rfl, -, hrest, hsome, -⟩ := hplaces
        obtain ⟨number, d, rfl⟩ := List.eq_nil_or_concat rest |>.resolve_left (by
          intro hnil
          rw [hnil] at hsome
          cases hsome)
        refine ⟨digits ++ (point ++ number), d, by simp, hrest d (by simp)⟩
      · obtain ⟨number, d, rfl⟩ := List.eq_nil_or_concat digits |>.resolve_left (by
          intro hnil
          rw [hnil] at hone
          cases hone)
        exact ⟨number, d, by simp, hdigits d (by simp)⟩
    obtain ⟨number, d, hnumber, hd⟩ := hlast
    refine ⟨second ++ gap :: (gap₁ ++ (sec ++ (gap₂ ++ (trans ++ (gap₃ ++ number))))), d, ?_, hd⟩
    have hjoin : digits ++ (places ++ unit) = number ++ (d :: lit " Mbits/sec") := by
      rw [← List.append_assoc, hnumber, hunit', List.append_assoc, List.singleton_append]
    rw [hjoin]
    simp

/-- A line up to the dash between its times. -/
def front (tag : Text) (start : ℚ) : Text :=
  '[' :: tag ++ lit "] " ++ padLeft 6 (fixedText 2 start)

/-- What stands between the dash and the rate's unit. -/
def middle (finish : ℚ) (ubuf number : Text) : Text :=
  padRight 6 (fixedText 2 finish) ++ lit " sec  " ++ ubuf ++ lit "s  " ++ number ++ lit " M"

/-- A report line is its front up to the start time, a dash, the middle and the rate's unit. -/
theorem reportHead_split (tag : Text) (start finish : ℚ) (ubuf number rest : Text) :
    reportHead tag start finish ubuf (number ++ lit " Mbit") ++ rest =
      front tag start ++ '-' :: (middle finish ubuf number ++ 'b' :: (lit "its/sec" ++ rest)) := by
  simp [reportHead, front, middle, lit]

/-- The parts of a line that the patterns find nothing in. -/
structure Plain (tag ubuf number rest : Text) : Prop where
  tag_dash : '-' ∉ tag
  ubuf_dash : '-' ∉ ubuf
  ubuf_unit : 'b' ∉ ubuf
  number_dash : '-' ∉ number
  number_unit : 'b' ∉ number
  rest_unit : 'b' ∉ rest

/-- A fixed point number consists of digits, a point and perhaps a minus sign. -/
theorem not_mem_fixedText {c : Char} (h : numeral c = false) (precision : ℕ) (x : ℚ) :
    c ∉ fixedText precision x := by
  intro hc
  rw [numeral_fixedText precision x c hc] at h
  cases h

/-- Without a sign there is no dash in it. -/
theorem dash_not_mem_fixedText {x : ℚ} (h : 0 ≤ x) : '-' ∉ fixedText 2 x := by
  rw [fixedText_two h]
  intro hc
  rcases List.mem_append.mp hc with hwhole | hplaces
  · exact absurd (digits_wholeText x _ hwhole) (by decide)
  · rcases List.mem_cons.mp hplaces with hpoint | hplaces
    · exact absurd hpoint (by decide)
    · exact absurd (digits_placesText x _ hplaces) (by decide)

/-- Padding on the left adds spaces only. -/
theorem not_mem_padLeft {c : Char} {text : Text} (hc : c ≠ ' ') (h : c ∉ text) (width : ℕ) :
    c ∉ padLeft width text := by
  unfold padLeft
  simp [hc, h]

/-- So does padding on the right. -/
theorem not_mem_padRight {c : Char} {text : Text} (hc : c ≠ ' ') (h : c ∉ text) (width : ℕ) :
    c ∉ padRight width text := by
  unfold padRight
  simp [hc, h]

/-- No dash stands in front of the one between the two times. -/
theorem dash_not_mem_front {tag : Text} {start : ℚ} (htag : '-' ∉ tag) (h : 0 ≤ start) :
    '-' ∉ front tag start := by
  have hstart := not_mem_padLeft (by decide) (dash_not_mem_fixedText h) 6
  simp [front, lit, htag, hstart]

/-- None stands between the end time and the rate either. -/
theorem dash_not_mem_middle {finish : ℚ} {ubuf number : Text} (h : 0 ≤ finish)
    (hubuf : '-' ∉ ubuf) (hnumber : '-' ∉ number) : '-' ∉ middle finish ubuf number := by
  have hfinish := not_mem_padRight (by decide) (dash_not_mem_fixedText h) 6
  simp [middle, lit, hubuf, hnumber, hfinish]

/-- The letter that begins the rate's unit does not occur in the middle of the line. -/
theorem unit_not_mem_middle {finish : ℚ} {ubuf number : Text} (hubuf : 'b' ∉ ubuf)
    (hnumber : 'b' ∉ number) : 'b' ∉ middle finish ubuf number := by
  have hfinish := not_mem_padRight (by decide) (@not_mem_fixedText 'b' (by decide) 2 finish) 6
  simp [middle, lit, hubuf, hnumber, hfinish]

/-- A space is no part of a number. -/
theorem numeral_space {c : Char} (h : isSpace c = true) : numeral c = false := by
  rw [Bool.eq_false_iff]
  intro hnumeral
  have hcode : c.toNat ≤ 32 := by
    simp only [isSpace, Bool.or_eq_true, Bool.and_eq_true, beq_iff_eq, decide_eq_true_eq] at h
    rcases h with rfl | hrange
    · decide
    · omega
  unfold numeral at hnumeral
  rcases Bool.or_eq_true_iff.mp hnumeral with hdigit | hsign
  · simp only [Char.isDigit, Bool.and_eq_true, decide_eq_true_eq] at hdigit
    have hleast : 48 ≤ c.toNat := hdigit.1
    omega
  · have hall : ∀ d ∈ ['.', '-', '+', 'e'], 32 < d.toNat := by decide
    have hbig := hall c (by simpa using hsign)
    omega

/-- A match in a line ends its first time at the dash, has a blank behind the second one and
a digit in front of the unit. -/
theorem report_match {tag ubuf number rest : Text} {start finish : ℚ}
    (hplain : Plain tag ubuf number rest) (hstart : 0 ≤ start) (hfinish : 0 ≤ finish)
    {a seg z : Text}
    (hline : front tag start ++ '-' :: (middle finish ubuf number ++ 'b' :: (lit "its/sec" ++
      rest)) =
      a ++ (seg ++ z)) (hseg : reportPattern.Accepts seg) :
    ∃ first second gap more, a ++ first = front tag start ∧ timePattern.Accepts first ∧
      timePattern.Accepts second ∧ isSpace gap = true ∧
      second ++ gap :: more = middle finish ubuf number ++ 'b' :: (lit "its/sec" ++ rest) ∧
      ∃ before d, before ++ [d] ++ lit " M" = middle finish ubuf number ∧ d.isDigit = true := by
  obtain ⟨first, second, gap, more, rfl, hfirst, hsecond, hgap, before, d, hbehind, hd⟩ :=
    reportPattern_accepts hseg
  have hdash : (a ++ first) ++ '-' :: ((second ++ gap :: more) ++ z) =
      front tag start ++ '-' :: (middle finish ubuf number ++ 'b' :: (lit "its/sec" ++ rest)) := by
    rw [hline]
    simp
  have hunit : 'b' ∈ (second ++ gap :: more) ++ z := by
    rw [hbehind]
    simp [lit]
  have hrest : 'b' ∉ lit "its/sec" ++ rest := by
    simp [lit, hplain.rest_unit]
  obtain ⟨hfront, hmiddle⟩ := split_before (by decide) hdash
    (dash_not_mem_front hplain.tag_dash hstart)
    (dash_not_mem_middle hfinish hplain.ubuf_dash hplain.number_dash) hrest hunit
  have hsplit : (before ++ [d] ++ lit " M") ++ 'b' :: (lit "its/sec" ++ z) =
      middle finish ubuf number ++ 'b' :: (lit "its/sec" ++ rest) := by
    rw [← hmiddle, hbehind]
    simp [lit]
  obtain ⟨hnumber, -⟩ := split_unique hsplit
    (unit_not_mem_middle hplain.ubuf_unit hplain.number_unit) hrest
  refine ⟨first, second, gap, more ++ z, hfront, hfirst, hsecond, hgap, ?_, before, d, hnumber, hd⟩
  rw [← hmiddle]
  simp

/-- A line whose second time is too long has no match, as three digits in front of the point
leave no room for the dash. -/
theorem report_long {tag ubuf number rest : Text} {start finish : ℚ}
    (hplain : Plain tag ubuf number rest) (hstart : 0 ≤ start) (hfinish : 0 ≤ finish)
    (hlong : 10000 ≤ scaled 2 finish) :
    reportPattern.occurs (reportHead tag start finish ubuf (number ++ lit " Mbit") ++ rest) =
      false := by
  rw [Bool.eq_false_iff]
  intro hoccurs
  obtain ⟨a, seg, z, hline, hseg⟩ := Pattern.occurs_iff.mp hoccurs
  rw [reportHead_split, List.append_assoc] at hline
  obtain ⟨-, second, gap, more, -, -, hsecond, hgap, hmiddle, -⟩ :=
    report_match hplain hstart hfinish hline hseg
  obtain ⟨whole, places, point, htime⟩ := timePattern_accepts hsecond
  have hlength : second.length ≤ 5 := by
    have hmost := htime.most
    have htwo := htime.two
    rw [htime.text_eq, List.length_append, List.length_cons]
    omega
  have hwhole : 2 < (wholeText finish).length := by
    by_contra hshort
    have hless := (length_wholeText_le_iff finish).mp (by omega)
    omega
  have htext : (fixedText 2 finish).length = (wholeText finish).length + 3 := by
    rw [fixedText_two hfinish, List.length_append, List.length_cons, length_placesText]
  have hgapMem : gap ∈ fixedText 2 finish := by
    have hat := congrArg (fun text => text[second.length]?) hmiddle
    have hleft : (second ++ gap :: more)[second.length]? = some gap := by simp
    have hright : (middle finish ubuf number ++ 'b' :: (lit "its/sec" ++ rest))[second.length]? =
        (fixedText 2 finish)[second.length]? := by
      unfold middle padRight
      simp only [List.append_assoc]
      rw [List.getElem?_append_left (by omega)]
    rw [hleft, hright] at hat
    exact List.mem_of_getElem? hat.symm
  have hnumeral := numeral_fixedText 2 finish gap hgapMem
  rw [numeral_space hgap] at hnumeral
  cases hnumeral

/-- A line whose rate is no number has none either. -/
theorem report_infinite {tag ubuf number rest : Text} {start finish : ℚ}
    (hplain : Plain tag ubuf number rest) (hstart : 0 ≤ start) (hfinish : 0 ≤ finish)
    {word : Text} {e : Char} (hnumber : number = word ++ [e]) (he : e.isDigit = false) :
    reportPattern.occurs (reportHead tag start finish ubuf (number ++ lit " Mbit") ++ rest) =
      false := by
  rw [Bool.eq_false_iff]
  intro hoccurs
  obtain ⟨a, seg, z, hline, hseg⟩ := Pattern.occurs_iff.mp hoccurs
  rw [reportHead_split, List.append_assoc] at hline
  obtain ⟨-, -, -, -, -, -, -, -, -, before, d, hlast, hd⟩ :=
    report_match hplain hstart hfinish hline hseg
  unfold middle at hlast
  have hsame := List.append_cancel_right hlast
  rw [hnumber, ← List.append_assoc] at hsame
  have hde : d = e := by
    have hends := congrArg List.getLast? hsame
    simpa using hends
  rw [hde, he] at hd
  cases hd

/-- The first match of a time takes all of it. -/
theorem first_time {whole places rest : Text} (hwhole : Digits whole) (hleast : 1 ≤ whole.length)
    (hmost : whole.length ≤ 2) (hplaces : Digits places) (htwo : places.length = 2) :
    timePattern.First (whole ++ '.' :: places) rest [some (whole ++ '.' :: places)] := by
  refine Pattern.first_group ?_
  have hjoin : whole ++ '.' :: places = whole ++ (['.'] ++ places) := rfl
  rw [hjoin]
  refine @Pattern.first_seq _ _ whole _ rest [] [] ?_ ?_
  · refine Pattern.first_chars hwhole hleast (by simpa using hmost) (Or.inr ?_)
    intro c hc
    cases hc
    rfl
  · refine @Pattern.first_seq _ _ ['.'] _ rest [] [] ?_ ?_
    · exact Pattern.first_chars (by decide) (by decide) (by decide) (Or.inl rfl)
    · refine Pattern.first_chars hplaces (by omega) (by simp [htwo]) (Or.inl ?_)
      rw [htwo]
      rfl

/-- What stands for the decimals of an amount. -/
def placesCapture (places : Text) : Option Text := if places = [] then none else some places

/-- So does the first match of an amount with what stands behind it, whether the amount has
places or not. -/
theorem first_amount {whole places tail after rest : Text} {c : Char} {behind : Pattern}
    {captures : Captures} (h : Amount whole places) (htail : tail = ' ' :: c :: after)
    (hc : digit c = false) (hbehind : behind.First tail rest captures) :
    (Pattern.seq (some1 digit) (.seq (.optional (.group (.seq (exactly dot 1) (some1 digit))))
      behind)).First (whole ++ (places ++ tail)) rest (placesCapture places :: captures) := by
  have hwhole : (some1 digit).First whole ((places ++ tail) ++ rest) [] := by
    refine Pattern.first_chars h.digits (List.length_pos_of_ne_nil h.ne_nil) (by simp) (Or.inr ?_)
    intro d hd
    rcases h.places with rfl | ⟨e, more, rfl, -⟩
    · rw [htail] at hd
      cases hd
      rfl
    · cases hd
      rfl
  refine @Pattern.first_seq _ _ whole _ rest [] _ hwhole ?_
  rcases h.places with rfl | ⟨e, more, rfl, hmore⟩
  · have habsent :
        (Pattern.group (.seq (exactly dot 1) (some1 digit))).run (tail ++ rest) = [] := by
      refine Pattern.run_eq_nil ?_
      rintro seg more hsplit ⟨point, digits, rfl, ⟨-, hone, hone'⟩, hdigits, hleast, -⟩
      have hlength : point.length = 1 := Nat.le_antisymm (hone' 1 rfl) hone
      obtain ⟨d, rfl⟩ := List.length_eq_one_iff.mp hlength
      cases digits with
      | nil => cases hleast
      | cons e digits =>
        rw [htail] at hsplit
        have he : c = e := (List.cons.inj (List.cons.inj hsplit).2).1
        rw [he, hdigits e List.mem_cons_self] at hc
        cases hc
    exact @Pattern.first_seq _ _ [] _ rest [none] _ (Pattern.first_absent habsent) hbehind
  · have hpart : (Pattern.optional (.group (.seq (exactly dot 1) (some1 digit)))).First
        ('.' :: e :: more) (tail ++ rest) [some ('.' :: e :: more)] := by
      refine Pattern.first_optional (Pattern.first_group ?_)
      have hjoin : '.' :: e :: more = ['.'] ++ (e :: more) := rfl
      rw [hjoin]
      refine @Pattern.first_seq _ _ ['.'] _ _ [] [] ?_ ?_
      · exact Pattern.first_chars (by decide) (by decide) (by decide) (Or.inl rfl)
      · refine Pattern.first_chars hmore (by simp) (by simp) (Or.inr ?_)
        intro d hd
        rw [htail] at hd
        cases hd
        rfl
    exact @Pattern.first_seq _ _ ('.' :: e :: more) _ rest [some ('.' :: e :: more)] _ hpart hbehind

/-- Blanks are taken up to the next character. -/
theorem first_blanks {n : ℕ} {rest : Text} (hn : 1 ≤ n)
    (hrest : ∀ c ∈ rest.head?, isSpace c = false) :
    (some1 isSpace).First (List.replicate n ' ') rest [] := by
  refine Pattern.first_chars ?_ (by simpa using hn) (by simp) (Or.inr hrest)
  intro c hc
  rw [List.eq_of_mem_replicate hc]
  rfl

/-- A text that begins with digits does not begin with a space. -/
theorem space_digits {digits rest : Text} (h : Digits digits) (hne : digits ≠ []) :
    ∀ c ∈ (digits ++ rest).head?, isSpace c = false := by
  intro c hc
  cases digits with
  | nil => exact absurd rfl hne
  | cons d digits =>
    cases hc
    rw [Bool.eq_false_iff]
    intro hspace
    have hnumeral := numeral_space hspace
    unfold numeral at hnumeral
    rw [h _ List.mem_cons_self] at hnumeral
    cases hnumeral

/-- The amount of a report with its unit. -/
def transText (whole places label : Text) : Text := whole ++ (places ++ (' ' :: (label ++ ['s'])))

/-- Its rate. -/
def rateWords (whole places : Text) : Text := whole ++ (places ++ lit " Mbits/sec")

/-- The transferred amount is the first match of the amount's pattern at its place, its unit
with or without a prefix. -/
theorem first_trans {whole places label rest : Text} (h : Amount whole places)
    (hlabel : label ∈ labelByte) :
    (Pattern.group (sequence (numberPattern ++
      [word " ", .chars (fun c => c ∈ ['K', 'M', 'G', 'T']) 0 (some 1), word "Bytes"]))).First
      (transText whole places label) rest
      [some (transText whole places label), placesCapture places] := by
  refine Pattern.first_group ?_
  have hunit : ∃ c after, label ++ ['s'] = c :: after ∧ digit c = false ∧
      (Pattern.seq (.chars (fun c => c ∈ ['K', 'M', 'G', 'T']) 0 (some 1)) (word "Bytes")).First
        (label ++ ['s']) rest [] := by
    have hbytes : ∀ rest, (word "Bytes").First (lit "Bytes") rest [] := Pattern.first_literal _
    have hkilo : ∀ c : Char, c ∈ ['K', 'M', 'G', 'T'] → ∀ rest,
        (Pattern.seq (.chars (fun c => c ∈ ['K', 'M', 'G', 'T']) 0 (some 1)) (word "Bytes")).First
          ([c] ++ lit "Bytes") rest [] := by
      intro c hc rest
      refine @Pattern.first_seq _ _ [c] _ rest [] [] ?_ (hbytes rest)
      exact Pattern.first_chars (by simpa using hc) (by simp) (by simp) (Or.inl rfl)
    simp only [labelByte, List.mem_cons, List.not_mem_nil, or_false] at hlabel
    rcases hlabel with rfl | rfl | rfl | rfl
    · refine ⟨'B', lit "ytes", rfl, by decide, ?_⟩
      refine @Pattern.first_seq _ _ [] (lit "Bytes") rest [] [] ?_ (hbytes rest)
      refine Pattern.first_chars (by simp) (by simp) (by simp) (Or.inr ?_)
      intro c hc
      cases hc
      rfl
    · exact ⟨'K', lit "Bytes", rfl, by decide, hkilo 'K' (by simp) rest⟩
    · exact ⟨'M', lit "Bytes", rfl, by decide, hkilo 'M' (by simp) rest⟩
    · exact ⟨'G', lit "Bytes", rfl, by decide, hkilo 'G' (by simp) rest⟩
  obtain ⟨c, after, hshape, hc, hfirst⟩ := hunit
  refine first_amount h (by rw [hshape]) hc ?_
  exact @Pattern.first_seq _ _ [' '] _ rest [] [] (Pattern.first_literal _ _) hfirst

/-- The rate is the first match of the rate's pattern at its place. -/
theorem first_rate {whole places rest : Text} (h : Amount whole places) :
    (Pattern.group (sequence (numberPattern ++ [word " Mbits/sec"]))).First
      (rateWords whole places) rest [some (rateWords whole places), placesCapture places] := by
  refine Pattern.first_group ?_
  exact first_amount h rfl (by decide) (Pattern.first_literal _ _)

/-- The first match of a report that begins with its first time takes all of it, as each part
is taken as far as it goes and nothing has to be given back. -/
theorem first_report
    {core decimals whole₂ decimals₂ wholeU placesU label wholeN placesN rest : Text}
    {gap₁ gap₂ gap₃ : ℕ} (hcore : Digits core) (hleast : 1 ≤ core.length) (hmost : core.length ≤ 2)
    (hdecimals : Digits decimals) (htwo : decimals.length = 2) (hwhole₂ : Digits whole₂)
    (hleast₂ : 1 ≤ whole₂.length) (hmost₂ : whole₂.length ≤ 2) (hdecimals₂ : Digits decimals₂)
    (htwo₂ : decimals₂.length = 2) (hgap₁ : 1 ≤ gap₁) (hgap₂ : 1 ≤ gap₂) (hgap₃ : 1 ≤ gap₃)
    (hu : Amount wholeU placesU) (hlabel : label ∈ labelByte) (hn : Amount wholeN placesN) :
    reportPattern.First ((core ++ '.' :: decimals) ++ (['-'] ++ ((whole₂ ++ '.' :: decimals₂) ++
      (List.replicate gap₁ ' ' ++ (lit "sec" ++ (List.replicate gap₂ ' ' ++
        (transText wholeU placesU label ++ (List.replicate gap₃ ' ' ++
          rateWords wholeN placesN)))))))) rest
      [some (core ++ '.' :: decimals), some (whole₂ ++ '.' :: decimals₂),
        some (transText wholeU placesU label), placesCapture placesU,
        some (rateWords wholeN placesN), placesCapture placesN] := by
  have hrate := @first_rate wholeN placesN rest hn
  have hgapN : (some1 isSpace).First (List.replicate gap₃ ' ') (rateWords wholeN placesN ++ rest)
    [] := by
    refine first_blanks hgap₃ ?_
    unfold rateWords
    rw [List.append_assoc]
    exact space_digits hn.digits hn.ne_nil
  have hgapU : (some1 isSpace).First (List.replicate gap₂ ' ')
      ((transText wholeU placesU label ++ (List.replicate gap₃ ' ' ++ rateWords wholeN placesN)) ++
        rest) [] := by
    refine first_blanks hgap₂ ?_
    unfold transText
    rw [List.append_assoc, List.append_assoc]
    exact space_digits hu.digits hu.ne_nil
  refine @Pattern.first_seq _ _ _ _ rest [_] [_, _, _, _, _]
    (first_time hcore hleast hmost hdecimals htwo) ?_
  refine @Pattern.first_seq _ _ _ _ rest [] [_, _, _, _, _] (Pattern.first_literal _ _) ?_
  refine @Pattern.first_seq _ _ _ _ rest [_] [_, _, _, _]
    (first_time hwhole₂ hleast₂ hmost₂ hdecimals₂ htwo₂) ?_
  refine @Pattern.first_seq _ _ _ _ rest [] [_, _, _, _] (first_blanks hgap₁ ?_) ?_
  · intro c hc
    cases hc
    rfl
  refine @Pattern.first_seq _ _ _ _ rest [] [_, _, _, _] (Pattern.first_literal _ _) ?_
  refine @Pattern.first_seq _ _ _ _ rest [] [_, _, _, _] hgapU ?_
  refine @Pattern.first_seq _ _ _ _ rest [_, _] [_, _] (first_trans hu hlabel) ?_
  exact @Pattern.first_seq _ _ _ _ rest [] [_, _] hgapN hrate

/-- The digits of a start time that a match leaves out. -/
def leadText (start : ℚ) : Text := (wholeText start).take ((wholeText start).length - 2)

/-- The digits of it that a match begins with. -/
def coreText (start : ℚ) : Text := (wholeText start).drop ((wholeText start).length - 2)

/-- The whole part of the start time is its leading digits and the two at most that are captured. -/
theorem lead_core (start : ℚ) : leadText start ++ coreText start = wholeText start :=
  List.take_append_drop _ _

/-- The captured part consists of digits. -/
theorem digits_coreText (start : ℚ) : Digits (coreText start) :=
  fun c hc => digits_wholeText start c (List.mem_of_mem_drop hc)

/-- It has one digit or two, and two wherever digits were left in front of it. -/
theorem length_coreText (start : ℚ) :
    1 ≤ (coreText start).length ∧ (coreText start).length ≤ 2 ∧
      (leadText start ≠ [] → (coreText start).length = 2) := by
  have hpos := List.length_pos_of_ne_nil (wholeText_ne_nil start)
  have hcore : (coreText start).length =
      (wholeText start).length - ((wholeText start).length - 2) := List.length_drop
  refine ⟨by omega, by omega, ?_⟩
  intro hlead
  have hlength := List.length_pos_of_ne_nil hlead
  unfold leadText at hlength
  rw [List.length_take] at hlength
  omega

/-- A line in front of what a match takes. -/
def skipped (tag : Text) (start : ℚ) : Text :=
  '[' :: tag ++ [']'] ++ List.replicate (6 - (fixedText 2 start).length) ' ' ++ [' '] ++
    leadText start

/-- The front of a line is what the pattern skips, the captured digits, the point and the places. -/
theorem front_eq {tag : Text} {start : ℚ} (h : 0 ≤ start) :
    front tag start = skipped tag start ++ (coreText start ++ '.' :: placesText start) := by
  have hfixed : fixedText 2 start =
      leadText start ++ (coreText start ++ '.' :: placesText start) := by
    rw [fixedText_two h, ← lead_core start, List.append_assoc]
  have hblanks : lit "] " ++ List.replicate (6 - (fixedText 2 start).length) ' ' =
      [']'] ++ List.replicate (6 - (fixedText 2 start).length) ' ' ++ [' '] := by
    rw [List.append_assoc, ← List.replicate_succ', List.replicate_succ]
    rfl
  unfold front skipped padLeft
  rw [List.append_assoc _ (lit "] "), ← List.append_assoc (lit "] "), hblanks]
  rw [hfixed]
  simp only [List.append_assoc]

/-- No match of a line begins before its first time does: the tag and the padding hold nothing
that a time could begin with. -/
theorem report_not_before {tag ubuf number rest : Text} {start finish : ℚ}
    (hplain : Plain tag ubuf number rest) (hstart : 0 ≤ start) (hfinish : 0 ≤ finish)
    {a b behind : Text} {c : Char} (hskipped : skipped tag start = a ++ c :: b)
    (hline : front tag start ++ '-' :: (middle finish ubuf number ++ 'b' :: (lit "its/sec" ++
      rest)) =
      a ++ (c :: b ++ behind)) :
    reportPattern.run (c :: b ++ behind) = [] := by
  refine Pattern.run_eq_nil ?_
  intro seg more hsplit hseg
  rw [hsplit] at hline
  obtain ⟨first, -, -, -, hfront, hfirst, -⟩ := report_match hplain hstart hfinish hline hseg
  rw [front_eq hstart, hskipped, List.append_assoc] at hfront
  have htext := List.append_cancel_left hfront
  obtain ⟨whole, places, point, htime⟩ := timePattern_accepts hfirst
  obtain ⟨hleast, hmost, hlead⟩ := length_coreText start
  have hlength := congrArg List.length (htext.symm.trans htime.text_eq)
  have htimeMost := htime.most
  have htimeTwo := htime.two
  simp only [List.cons_append, List.length_cons, List.length_append, length_placesText,
    htimeTwo] at hlength
  have hnone : leadText start = [] := by
    by_contra hne
    have hcore := hlead hne
    omega
  have hb : b = [] := List.length_eq_zero_iff.mp (by omega)
  have hc : c = ' ' := by
    unfold skipped at hskipped
    rw [hnone, List.append_nil, hb] at hskipped
    have hlast := congrArg List.getLast? hskipped
    rw [List.getLast?_concat, List.getLast?_concat] at hlast
    exact (Option.some.inj hlast).symm
  have hdigit : c.isDigit = true := by
    cases hwhole : whole with
    | nil =>
      have htimeLeast := htime.least
      rw [hwhole] at htimeLeast
      cases htimeLeast
    | cons d whole' =>
      have hsame := htext.symm.trans htime.text_eq
      rw [hwhole] at hsame
      have hcd : c = d := (List.cons.inj hsame).1
      rw [hcd]
      exact htime.digits d (by rw [hwhole]; exact List.mem_cons_self)
  rw [hc] at hdigit
  cases hdigit

/-- What is found in a line with a short second time and a rate: both times, the amount and
the rate, as they stand there. -/
theorem report_found {tag rest wholeU placesU label wholeN placesN : Text} {start finish : ℚ}
    {spacesU spacesN : ℕ} {ubuf nbuf : Text} (hu : UnitText ubuf spacesU wholeU placesU label)
    (hlabel : label ∈ labelByte) (hn : UnitText nbuf spacesN wholeN placesN (lit "Mbit"))
    (hplain : Plain tag ubuf (List.replicate spacesN ' ' ++ (wholeN ++ placesN)) rest)
    (hstart : 0 ≤ start) (hfinish : 0 ≤ finish) (hshort : scaled 2 finish < 10000) :
    reportPattern.find (reportHead tag start finish ubuf nbuf ++ rest) =
      some [some (coreText start ++ '.' :: placesText start), some (fixedText 2 finish),
        some (transText wholeU placesU label), placesCapture placesU,
        some (rateWords wholeN placesN), placesCapture placesN] := by
  obtain ⟨hleast, hmost, -⟩ := length_coreText start
  have hwhole := List.length_pos_of_ne_nil (wholeText_ne_nil finish)
  have hfirst := @first_report (coreText start) (placesText start) (wholeText finish)
    (placesText finish) wholeU placesU label wholeN placesN rest
    (6 - (fixedText 2 finish).length + 1) (2 + spacesU) (2 + spacesN)
    (digits_coreText start) hleast hmost (digits_placesText start) (length_placesText start)
    (digits_wholeText finish) hwhole ((length_wholeText_le_iff finish).mpr hshort)
    (digits_placesText finish) (length_placesText finish) (by omega) (by omega) (by omega)
    hu.amount hlabel hn.amount
  rw [← fixedText_two hfinish] at hfirst
  have hnumber : nbuf = (List.replicate spacesN ' ' ++ (wholeN ++ placesN)) ++ lit " Mbit" := by
    rw [hn.text_eq]
    rfl
  have hline := reportHead_split tag start finish ubuf
    (List.replicate spacesN ' ' ++ (wholeN ++ placesN)) rest
  rw [← hnumber] at hline
  have hpieces : front tag start ++ '-' :: (middle finish ubuf
        (List.replicate spacesN ' ' ++ (wholeN ++ placesN)) ++ 'b' :: (lit "its/sec" ++ rest)) =
      skipped tag start ++ (((coreText start ++ '.' :: placesText start) ++ (['-'] ++
        (fixedText 2 finish ++ (List.replicate (6 - (fixedText 2 finish).length + 1) ' ' ++
          (lit "sec" ++ (List.replicate (2 + spacesU) ' ' ++ (transText wholeU placesU label ++
            (List.replicate (2 + spacesN) ' ' ++ rateWords wholeN placesN)))))))) ++ rest) := by
    have hgap : List.replicate (6 - (fixedText 2 finish).length) ' ' ++ lit " sec  " =
        List.replicate (6 - (fixedText 2 finish).length + 1) ' ' ++ lit "sec  " := by
      rw [List.replicate_succ', List.append_assoc]
      rfl
    rw [front_eq hstart]
    unfold middle padRight transText rateWords
    rw [hu.text_eq, List.append_assoc (fixedText 2 finish), hgap, Nat.add_comm 2 spacesU,
      Nat.add_comm 2 spacesN]
    simp [lit, List.replicate_succ]
  rw [hline, hpieces]
  refine Pattern.find_first ?_ hfirst
  intro a c b hskipped
  refine report_not_before hplain hstart hfinish hskipped ?_
  rw [hpieces, hskipped]
  simp only [List.append_assoc, List.cons_append]

/-- The start time that is read. -/
def readStart (start : ℚ) : ℚ :=
  (Nat.ofDigitChars 10 (coreText start ++ placesText start) 0 : ℚ) / 100

/-- The time that is read is the one shown exactly when that has two digits in front of its
point; the digits before these are skipped. -/
theorem readStart_eq_iff (start : ℚ) : readStart start = shown start ↔ scaled 2 start < 10000 := by
  have hdigits : Digits (coreText start ++ placesText start) :=
    (digits_coreText start).append (digits_placesText start)
  have hbound := ofDigitChars_lt hdigits
  obtain ⟨-, hmost, -⟩ := length_coreText start
  have hpow : 10 ^ (coreText start ++ placesText start).length ≤ 10 ^ 4 := by
    refine Nat.pow_le_pow_right (by decide) ?_
    rw [List.length_append, length_placesText]
    omega
  constructor
  · intro h
    unfold readStart shown at h
    have hcast : Nat.ofDigitChars 10 (coreText start ++ placesText start) 0 = scaled 2 start := by
      have hmul := congrArg (· * 100) h
      norm_num at hmul
      exact_mod_cast hmul
    omega
  · intro h
    have hshort := (length_wholeText_le_iff start).mpr h
    have hcore : coreText start = wholeText start := by
      unfold coreText
      rw [Nat.sub_eq_zero_of_le hshort, List.drop_zero]
    unfold readStart shown
    rw [hcore, Nat.ofDigitChars_append, Nat.ofDigitChars_eq_ofDigitChars_zero, length_placesText]
    unfold wholeText placesText
    rw [natText_value, zeroPadded_value]
    congr 2
    omega

/-- The captured text is read as the start time, less the hundreds that were skipped. -/
theorem toFloat_core (start : ℚ) :
    toFloat (coreText start ++ '.' :: placesText start) = some (readStart start) := by
  obtain ⟨hleast, -, -⟩ := length_coreText start
  rw [toFloat_decimal (digits_coreText start) (digits_placesText start)
    (List.ne_nil_of_length_pos hleast), length_placesText]
  norm_num [readStart]

/-- A text without its padding. -/
def unpadded (text : Text) : Text := text.dropWhile (· == ' ')

/-- Removing the padding of a number leaves its digits and what follows. -/
theorem unpadded_digits {whole : Text} (hdigits : Digits whole) (hne : whole ≠ []) (spaces : ℕ)
    (rest : Text) : unpadded (List.replicate spaces ' ' ++ (whole ++ rest)) = whole ++ rest := by
  unfold unpadded
  rw [List.dropWhile_append_of_pos]
  · cases whole with
    | nil => exact absurd rfl hne
    | cons c more =>
      have hc : c.isDigit = true := hdigits c List.mem_cons_self
      have hblank : (c == ' ') = false := by
        rw [Bool.eq_false_iff]
        intro heq
        rw [beq_iff_eq.mp heq] at hc
        cases hc
      simp [hblank]
  · intro c hc
    rw [List.eq_of_mem_replicate hc]
    rfl

/-- Removing the padding of an amount leaves its digits, its places and its unit. -/
theorem unpadded_unitText {text whole places label : Text} {spaces : ℕ}
    (h : UnitText text spaces whole places label) :
    unpadded text = whole ++ (places ++ (' ' :: label)) := by
  rw [h.text_eq, List.append_assoc, List.append_assoc]
  exact unpadded_digits h.amount.digits h.amount.ne_nil spaces _

/-- What is called with the groups of a report. -/
def classify (cmd : Iperf3Cmd) (line : String) (st et : ℚ) (trans bw : Text) : List CmdCallback :=
  if isInterval cmd line then [.onInterval st et trans bw cmd.isDown]
  else if isResult cmd line then [.onResult st et trans bw cmd.isDown]
  else []

/-- The call for a line with a short second time and a rate has the values of the line, the
first time as it is read. -/
theorem reportCalls_found (cmd : Iperf3Cmd) {tag rest wholeU placesU label wholeN placesN : Text}
    {start finish : ℚ} {spacesU spacesN : ℕ} {ubuf nbuf : Text}
    (hu : UnitText ubuf spacesU wholeU placesU label) (hlabel : label ∈ labelByte)
    (hn : UnitText nbuf spacesN wholeN placesN (lit "Mbit"))
    (hplain : Plain tag ubuf (List.replicate spacesN ' ' ++ (wholeN ++ placesN)) rest)
    (hstart : 0 ≤ start) (hfinish : 0 ≤ finish) (hshort : scaled 2 finish < 10000) :
    reportCalls cmd (String.ofList (reportHead tag start finish ubuf nbuf ++ rest)) =
      some (classify cmd (String.ofList (reportHead tag start finish ubuf nbuf ++ rest))
        (readStart start) (shown finish) (unpadded ubuf ++ ['s']) (unpadded nbuf ++
          lit "s/sec")) := by
  have hfind := report_found hu hlabel hn hplain hstart hfinish hshort
  have htrans : transText wholeU placesU label = unpadded ubuf ++ ['s'] := by
    rw [unpadded_unitText hu]
    simp [transText]
  have hrate : rateWords wholeN placesN = unpadded nbuf ++ lit "s/sec" := by
    rw [unpadded_unitText hn]
    simp [rateWords, lit]
  unfold reportCalls
  rw [String.toList_ofList, hfind]
  simp only [groupValue, List.getElem?_cons_zero, List.getElem?_cons_succ, Nat.sub_self,
    Nat.add_one_sub_one]
  rw [toFloat_core, toFloat_fixedText hfinish, htrans, hrate]
  dsimp only
  unfold classify
  rw [apply_ite some, apply_ite some]

/-- No call for a line in which nothing is found. -/
theorem reportCalls_none (cmd : Iperf3Cmd) {text : Text} (h : reportPattern.occurs text = false) :
    reportCalls cmd (String.ofList text) = some [] := by
  unfold reportCalls
  rw [String.toList_ofList, Pattern.find_eq_none h]

end IperfRuntime.ReportLines
