import IperfRuntime.ReportLines

/-!
# What the command parser makes of a line

The characters of the lines that the reports print, which patterns they exclude, and the
calls that a bandwidth line leads to. Lines of other programs that share the output are not
considered.
-/

namespace IperfRuntime.RateLines

open TextPattern PrintfText PrintedNumbers ReportOutput CommandParser ReportLines

/-- A character of a number, a blank or one of the given ones. -/
def allowed (extra : List Char) (c : Char) : Bool := numeral c || c == ' ' || extra.contains c

/-- A text of such characters. -/
def Spelled (extra : List Char) (text : Text) : Prop := ∀ c ∈ text, allowed extra c = true

instance (extra : List Char) (text : Text) : Decidable (Spelled extra text) :=
  inferInstanceAs (Decidable (∀ c ∈ text, allowed extra c = true))

/-- Two texts spelled with certain letters are spelled with them together. -/
theorem Spelled.append {extra : List Char} {a b : Text} (ha : Spelled extra a)
    (hb : Spelled extra b) : Spelled extra (a ++ b) := by
  intro c hc
  rcases List.mem_append.mp hc with h | h
  · exact ha c h
  · exact hb c h

/-- A letter that is allowed may be put in front. -/
theorem Spelled.cons {extra : List Char} {c : Char} {text : Text} (hc : allowed extra c = true)
    (h : Spelled extra text) : Spelled extra (c :: text) := by
  intro d hd
  rcases List.mem_cons.mp hd with rfl | hd
  · exact hc
  · exact h d hd

/-- A letter that is not allowed does not occur. -/
theorem Spelled.not_mem {extra : List Char} {text : Text} (h : Spelled extra text) {c : Char}
    (hc : allowed extra c = false) : c ∉ text := by
  intro hmem
  rw [h c hmem] at hc
  cases hc

/-- Numbers are spelled without any further letters. -/
theorem spelled_of_numeral {extra : List Char} {text : Text}
    (h : ∀ c ∈ text, numeral c = true) : Spelled extra text := by
  intro c hc
  simp [allowed, h c hc]

/-- The blanks that pad a text on the left are allowed. -/
theorem spelled_padLeft {extra : List Char} {text : Text} (h : Spelled extra text) (width : ℕ) :
    Spelled extra (padLeft width text) := by
  refine Spelled.append ?_ h
  intro c hc
  rw [List.eq_of_mem_replicate hc]
  simp [allowed]

/-- So are those on the right. -/
theorem spelled_padRight {extra : List Char} {text : Text} (h : Spelled extra text) (width : ℕ) :
    Spelled extra (padRight width text) := by
  refine Spelled.append h ?_
  intro c hc
  rw [List.eq_of_mem_replicate hc]
  simp [allowed]

/-- A number under `%.f` is spelled without further letters. -/
theorem spelled_fixedText (extra : List Char) (precision : ℕ) (x : ℚ) :
    Spelled extra (fixedText precision x) :=
  spelled_of_numeral (numeral_fixedText precision x)

/-- So is an integer. -/
theorem spelled_intText (extra : List Char) (n : ℤ) : Spelled extra (intText n) :=
  spelled_of_numeral (numeral_intText n)

/-- So is an integer that is printed without a sign. -/
theorem spelled_unsignedText (extra : List Char) (n : ℤ) : Spelled extra (unsignedText n) :=
  spelled_of_numeral (numeral_digits (digits_natText _))

/-- So is a number under `%g`. -/
theorem spelled_generalText (extra : List Char) (x : ℚ) : Spelled extra (generalText x) :=
  spelled_of_numeral (numeral_generalText x)

/-- A `double` needs the letters of infinity and of no number besides. -/
theorem spelled_dblText {extra : List Char} (h : ∀ c ∈ lit "infa", allowed extra c = true)
    (precision : ℕ) (x : Dbl) : Spelled extra (x.text precision) := by
  cases x with
  | finite q => exact spelled_fixedText extra precision q
  | inf =>
    intro c hc
    exact h c ((by decide : ∀ c ∈ lit "inf", c ∈ lit "infa") c hc)
  | nan =>
    intro c hc
    exact h c ((by decide : ∀ c ∈ lit "nan", c ∈ lit "infa") c hc)

/-- A number with its unit. -/
theorem spelled_unitSnprintf {extra : List Char} (h : ∀ c ∈ lit "infa", allowed extra c = true)
    {x : Dbl} {format : Char} {text : Text}
    (hlabels : ∀ label ∈ (if format.isUpper then labelByte else labelBit), Spelled extra label)
    (htext : unitSnprintf x format = some text) : Spelled extra text := by
  unfold unitSnprintf at htext
  dsimp only at htext
  obtain ⟨label, hlabel, rfl⟩ := Option.map_eq_some_iff.mp htext
  have hmem := hlabels label (List.mem_of_getElem? hlabel)
  have hwhole : Spelled extra (fourPlaces ((if format.isUpper then x else x.scale 8).scale
      (1 / (if format.isUpper then 1024 else 1000) ^
        convOf format (if format.isUpper then 1024 else 1000)
          (if format.isUpper then x else x.scale 8))) ++ ' ' :: label) := by
    refine Spelled.append ?_ (Spelled.cons (by simp [allowed]) hmem)
    exact spelled_padLeft (spelled_dblText h _ _) 4
  intro c hc
  exact hwhole c (List.mem_of_mem_take hc)

/-- The letters of a number of bytes. -/
def byteLetters : List Char := lit "infaKMGByte"

/-- The letters of a rate. -/
def rateLetters : List Char := lit "infaMbit"

/-- An amount is spelled with the letters of its units. -/
theorem spelled_byteText {q : ℚ} {text : Text} (h : unitSnprintf (.finite q) 'A' = some text) :
    Spelled byteLetters text := by
  refine spelled_unitSnprintf (by decide) ?_ h
  have hall : ∀ label ∈ labelByte, ∀ c ∈ label, allowed byteLetters c = true := by decide
  exact hall

/-- The other units of bits do not come up with `-f m`. -/
theorem rateText_some (x : Dbl) : ∃ number, unitSnprintf x 'm' =
    some ((number ++ lit " Mbit").take (unitLen - 1)) ∧ Spelled rateLetters number := by
  refine ⟨fourPlaces ((x.scale 8).scale (1 / 1000 ^ 2)), rfl, ?_⟩
  exact spelled_padLeft (spelled_dblText (by decide) _ _) 4

/-- More letters may be allowed. -/
theorem Spelled.mono {extra extra' : List Char} {text : Text} (h : Spelled extra text)
    (hsub : ∀ c ∈ extra, allowed extra' c = true) : Spelled extra' text := by
  intro c hc
  have hallowed := h c hc
  unfold allowed at hallowed ⊢
  rcases Bool.or_eq_true_iff.mp hallowed with hplain | hextra
  · rw [hplain, Bool.true_or]
  · exact hsub c (by simpa using hextra)

/-- A rate under `-f m` is spelled with the letters of its unit, of infinity and of no number. -/
theorem spelled_rateText {x : Dbl} {text : Text} (h : unitSnprintf x 'm' = some text) :
    Spelled rateLetters text := by
  obtain ⟨number, hnumber, hspelled⟩ := rateText_some x
  rw [hnumber] at h
  cases h
  intro c hc
  have hmem := List.mem_of_mem_take hc
  have hunit : Spelled rateLetters (lit " Mbit") := by
    have hall : ∀ c ∈ lit " Mbit", allowed rateLetters c = true := by decide
    exact hall
  exact (hspelled.append hunit) c hmem

/-- The letters in front of what the formats differ in. -/
def headLetters : List Char := lit "[SUM]sec/infaKGBytebit"

/-- The tag of a stream holds its socket, brackets and blanks. -/
theorem spelled_idTag (extra : List Char) (socket : ℤ) : Spelled extra (idTag socket) :=
  spelled_padLeft (spelled_intText extra socket) 3

/-- The beginning of every bandwidth line. -/
theorem spelled_reportHead {tag ubuf nbuf : Text} {start finish : ℚ} {q : ℚ} {x : Dbl}
    (htag : Spelled headLetters tag) (hu : unitSnprintf (.finite q) 'A' = some ubuf)
    (hn : unitSnprintf x 'm' = some nbuf) :
    Spelled headLetters (reportHead tag start finish ubuf nbuf) := by
  have hubuf : Spelled headLetters ubuf := (spelled_byteText hu).mono (by decide)
  have hnbuf : Spelled headLetters nbuf := (spelled_rateText hn).mono (by decide)
  have hstart := spelled_padLeft (spelled_fixedText headLetters 2 start) 6
  have hfinish := spelled_padRight (spelled_fixedText headLetters 2 finish) 6
  have hopen : allowed headLetters '[' = true := by decide
  have hdash : allowed headLetters '-' = true := by decide
  have hletters : ∀ s ∈ ["] ", " sec  ", "s  ", "s/sec"], Spelled headLetters (lit s) := by
    have hall : ∀ s ∈ ["] ", " sec  ", "s  ", "s/sec"], ∀ c ∈ lit s,
        allowed headLetters c = true := by decide
    exact hall
  unfold reportHead
  refine Spelled.append (Spelled.append (Spelled.append (Spelled.append (Spelled.append ?_ ?_)
    hubuf) ?_) hnbuf) ?_
  · refine Spelled.append (Spelled.append (Spelled.append (Spelled.cons hopen htag) ?_) hstart)
      (Spelled.cons hdash hfinish)
    exact hletters "] " (by simp)
  · exact hletters " sec  " (by simp)
  · exact hletters "s  " (by simp)
  · exact hletters "s/sec" (by simp)

/-- The reports among the calls for a line, `none` when a conversion throws. -/
def lineReports (cmd : Iperf3Cmd) (text : Text) : Option (List CmdCallback) :=
  let r := parseToCallback (String.ofList text) cmd
  if r.2 then some (r.1.filter isReport) else none

/-- The calls for a report are reports. -/
theorem filter_reportCalls {cmd : Iperf3Cmd} {line : String} {calls : List CmdCallback}
    (h : reportCalls cmd line = some calls) : calls.filter isReport = calls := by
  unfold reportCalls at h
  split at h
  · cases h
    rfl
  · split at h
    · split at h
      · cases h
        rfl
      · split at h
        · cases h
          rfl
        · cases h
          rfl
    · cases h

/-- A line without addresses leads to the calls for its report. -/
theorem lineReports_eq {cmd : Iperf3Cmd} {text : Text} {calls : List CmdCallback}
    (hconnecting : connectingPattern.occurs text = false)
    (hconnected : connectedPattern.occurs text = false)
    (h : reportCalls (countTitle (String.ofList text) cmd) (String.ofList text) = some calls) :
    lineReports cmd text = some calls := by
  have hfilter := filter_reportCalls h
  have hfirst : connectingCalls (String.ofList text) = some [] := by
    unfold connectingCalls
    rw [String.toList_ofList, Pattern.find_eq_none hconnecting]
  have hsecond : connectedCalls (String.ofList text) = some [] := by
    unfold connectedCalls
    rw [String.toList_ofList, Pattern.find_eq_none hconnected]
  unfold lineReports parseToCallback
  rw [hfirst, hsecond, h]
  unfold errorCalls
  split
  · simp [callsUntil, isReport, hfilter]
  · simp [callsUntil, isReport, hfilter]

/-- No address stands in a text without a `p`. -/
theorem lineReports_plain {cmd : Iperf3Cmd} {text : Text} {calls : List CmdCallback}
    (hp : 'p' ∉ text)
    (h : reportCalls (countTitle (String.ofList text) cmd) (String.ofList text) = some calls) :
    lineReports cmd text = some calls :=
  lineReports_eq (Pattern.occurs_of_not_mem (by decide) hp)
    (Pattern.occurs_of_not_mem (by decide) hp) h

/-- No report stands in one without a `B`. -/
theorem lineReports_silent {cmd : Iperf3Cmd} {text : Text} (hp : 'p' ∉ text) (hB : 'B' ∉ text) :
    lineReports cmd text = some [] :=
  lineReports_plain hp (reportCalls_none _ (Pattern.occurs_of_not_mem (by decide) hB))

/-- No title stands in one without an `I`. -/
theorem countTitle_plain {text : Text} (hI : 'I' ∉ text) (cmd : Iperf3Cmd) :
    countTitle (String.ofList text) cmd = cmd := by
  have hnone : titlePattern.occurs text = false := Pattern.occurs_of_not_mem (by decide) hI
  unfold countTitle
  rw [String.toList_ofList, hnone]
  rfl

/-- The title lines. -/
def headers : List Text :=
  [reportBwHeader, reportBwRetransHeader, reportBwRetransCwndHeader, reportBwUdpHeader,
    reportBwUdpSenderHeader]

/-- Every title of the reports is a title to the parser, is no report line, and has no letter of a
rate. -/
theorem headers_read : ∀ text ∈ headers, titlePattern.occurs text = true ∧
    reportPattern.occurs text = false ∧ 'p' ∉ text := by
  decide +kernel

/-- So a title is answered with nothing and counted. -/
theorem lineReports_header {text : Text} (h : text ∈ headers) (cmd : Iperf3Cmd) :
    lineReports cmd text = some [] ∧
      countTitle (String.ofList text) cmd = { cmd with titleCnt := cmd.titleCnt + 1 } := by
  obtain ⟨htitle, hreport, hp⟩ := headers_read text h
  refine ⟨lineReports_plain hp (reportCalls_none _ hreport), ?_⟩
  unfold countTitle
  rw [String.toList_ofList, htitle]
  rfl

/-- A `double` that is a number. -/
def isNumber : Dbl → Bool
  | .finite _ => true
  | _ => false

/-- A rate as the reports compute it. -/
def Rate (x : Dbl) : Prop := (∃ q, x = .finite q ∧ 0 ≤ q ∧ q < 10 ^ 24) ∨ x = .inf ∨ x = .nan

/-- The texts of a bandwidth line. -/
structure RateLine (tag : Text) (start finish amount : ℚ) (rate : Dbl) (ubuf nbuf rest : Text) :
    Prop where
  tag_dash : '-' ∉ tag
  start_nonneg : 0 ≤ start
  finish_nonneg : 0 ≤ finish
  amount_nonneg : 0 ≤ amount
  rate_spec : Rate rate
  ubuf_eq : unitSnprintf (.finite amount) 'A' = some ubuf
  nbuf_eq : unitSnprintf rate 'm' = some nbuf
  rest_unit : 'b' ∉ rest

/-- An amount with a unit has no hyphen, which the parser would take for that between the times. -/
theorem dash_not_mem_unitText {text whole places label : Text} {spaces : ℕ}
    (h : UnitText text spaces whole places label) (hlabel : '-' ∉ label) : '-' ∉ text := by
  have hdigits : ∀ digits : Text, Digits digits → '-' ∉ digits := by
    intro digits hall hc
    exact absurd (hall _ hc) (by decide)
  have hplaces : '-' ∉ places := by
    rcases h.amount.places with rfl | ⟨d, rest, rfl, hrest⟩
    · simp
    · intro hc
      rcases List.mem_cons.mp hc with hpoint | hmem
      · exact absurd hpoint (by decide)
      · exact hdigits _ hrest hmem
  rw [h.text_eq]
  simp [hdigits _ h.amount.digits, hplaces, hlabel]

/-- The call for a bandwidth line has the times, the amount and the rate of the line, or there
is none where one of them cannot be read. -/
theorem reportCalls_line {tag ubuf nbuf rest : Text} {start finish amount : ℚ} {rate : Dbl}
    (h : RateLine tag start finish amount rate ubuf nbuf rest) (cmd : Iperf3Cmd) :
    reportCalls cmd (String.ofList (reportHead tag start finish ubuf nbuf ++ rest)) =
      some (if scaled 2 finish < 10000 ∧ isNumber rate = true then
        classify cmd (String.ofList (reportHead tag start finish ubuf nbuf ++ rest))
          (readStart start) (shown finish) (unpadded ubuf ++ ['s']) (unpadded nbuf ++ lit "s/sec")
      else []) := by
  obtain ⟨spacesU, wholeU, placesU, label, hu, hlabel⟩ := byteText h.amount_nonneg h.ubuf_eq
  have hubufUnit : 'b' ∉ ubuf := (spelled_byteText h.ubuf_eq).not_mem (by decide)
  have hubufDash : '-' ∉ ubuf := by
    refine dash_not_mem_unitText hu ?_
    have hall : ∀ label ∈ labelByte, '-' ∉ label := by decide
    exact hall label hlabel
  have hplain : ∀ number : Text, '-' ∉ number → 'b' ∉ number → Plain tag ubuf number rest :=
    fun number hdash hunit => ⟨h.tag_dash, hubufDash, hubufUnit, hdash, hunit, h.rest_unit⟩
  rcases h.rate_spec with ⟨q, rfl, hq, hbound⟩ | hinfinite
  · obtain ⟨text, spacesN, wholeN, placesN, htext, hn⟩ :=
      bitText hq (hbound.trans (by norm_num))
    have hsame : nbuf = text := Option.some.inj (h.nbuf_eq.symm.trans htext)
    rw [← hsame] at hn
    have hnumber : nbuf = (List.replicate spacesN ' ' ++ (wholeN ++ placesN)) ++ lit " Mbit" := by
      rw [hn.text_eq]
      rfl
    have hdash : '-' ∉ List.replicate spacesN ' ' ++ (wholeN ++ placesN) := by
      intro hc
      refine dash_not_mem_unitText hn (by decide) ?_
      rw [hnumber]
      exact List.mem_append_left _ hc
    have hunit : 'b' ∉ List.replicate spacesN ' ' ++ (wholeN ++ placesN) := by
      have hdigits : ∀ digits : Text, Digits digits → 'b' ∉ digits := by
        intro digits hall hc
        exact absurd (hall _ hc) (by decide)
      have hplaces : 'b' ∉ placesN := by
        rcases hn.amount.places with rfl | ⟨d, more, rfl, hmore⟩
        · simp
        · intro hc
          rcases List.mem_cons.mp hc with hpoint | hmem
          · exact absurd hpoint (by decide)
          · exact hdigits _ hmore hmem
      simp [hdigits _ hn.amount.digits, hplaces]
    by_cases hshort : scaled 2 finish < 10000
    · rw [if_pos ⟨hshort, rfl⟩]
      exact reportCalls_found cmd hu hlabel hn (hplain _ hdash hunit) h.start_nonneg
        h.finish_nonneg hshort
    · rw [if_neg fun hboth => hshort hboth.1, hnumber]
      exact reportCalls_none cmd (report_long (hplain _ hdash hunit) h.start_nonneg
        h.finish_nonneg (not_lt.mp hshort))
  · obtain ⟨word, hword, hcases⟩ := bitText_infinite hinfinite
    have hsame : nbuf = ' ' :: word ++ lit " Mbit" := Option.some.inj (h.nbuf_eq.symm.trans hword)
    have hnot : ¬(scaled 2 finish < 10000 ∧ isNumber rate = true) := by
      rintro ⟨-, hnumber⟩
      rcases hinfinite with rfl | rfl
      · cases hnumber
      · cases hnumber
    rw [if_neg hnot, hsame]
    refine reportCalls_none cmd ?_
    rcases hcases with rfl | rfl
    · have hlast : lit " inf" = lit " in" ++ ['f'] := rfl
      exact report_infinite (hplain (lit " inf") (by decide) (by decide)) h.start_nonneg
        h.finish_nonneg hlast (by decide)
    · have hlast : lit " nan" = lit " na" ++ ['n'] := rfl
      exact report_infinite (hplain (lit " nan") (by decide) (by decide)) h.start_nonneg
        h.finish_nonneg hlast (by decide)

/-- A line is an interval when one title has been seen and the line is about the right streams. -/
theorem isInterval_eq (cmd : Iperf3Cmd) (line : String) :
    isInterval cmd line = (cmd.titleCnt == 1 && forStreams cmd line) := by
  unfold isInterval isTcpInterval isUdpInterval
  cases cmd.titleCnt == 1 <;> cases forStreams cmd line <;> cases udpLoss.occurs line.toList <;> rfl

/-- A line that is named after this end. -/
def namesLocal (cmd : Iperf3Cmd) (line : String) : Bool :=
  (cmd.isDown && containsText line "receiver") || (!cmd.isDown && containsText line "sender")

/-- A line is a result when more titles have been seen and the line names this end or has datagram
figures. -/
theorem isResult_eq (cmd : Iperf3Cmd) (line : String) :
    isResult cmd line = (decide (1 < cmd.titleCnt) &&
      (namesLocal cmd line || udpLoss.occurs line.toList) && forStreams cmd line) := by
  unfold isResult isTcpResult isUdpResult namesLocal
  cases decide (1 < cmd.titleCnt) <;> cases forStreams cmd line <;>
    cases udpLoss.occurs line.toList <;> simp

/-- A text contains every text that it was put together from. -/
theorem containsText_append (before text after : Text) (s : String) (h : text = lit s) :
    containsText (String.ofList (before ++ text ++ after)) s = true := by
  unfold containsText
  rw [String.toList_ofList]
  exact Pattern.occurs_iff.mpr ⟨before, text, after, rfl, h⟩

/-- It contains none that has a letter which it lacks. -/
theorem containsText_absent {text : Text} {s : String} {c : Char} (hs : s.toList.contains c = true)
    (hc : c ∉ text) : containsText (String.ofList text) s = false := by
  unfold containsText
  rw [String.toList_ofList]
  exact Pattern.occurs_of_not_mem hs hc

/-- A text without the two letters of "sender" and "receiver" names no end. -/
theorem namesLocal_absent {text : Text} (hd : 'd' ∉ text) (hv : 'v' ∉ text) (cmd : Iperf3Cmd) :
    namesLocal cmd (String.ofList text) = false := by
  unfold namesLocal
  rw [containsText_absent (by decide) hv, containsText_absent (by decide) hd]
  simp

/-- The sum lines count for several streams. -/
theorem forStreams_sum (cmd : Iperf3Cmd) (hcmd : 1 ≤ cmd.parallels) {start finish : ℚ}
    (ubuf nbuf rest : Text) :
    forStreams cmd (String.ofList (reportHead sumTag start finish ubuf nbuf ++ rest)) = true := by
  have hstarts : ['[', 'S', 'U', 'M', ']'].isPrefixOf
      (reportHead sumTag start finish ubuf nbuf ++ rest) = true := by
    rw [List.isPrefixOf_iff_prefix]
    refine ⟨' ' :: (padLeft 6 (fixedText 2 start) ++ '-' :: padRight 6 (fixedText 2 finish) ++
      lit " sec  " ++ ubuf ++ lit "s  " ++ nbuf ++ lit "s/sec" ++ rest), ?_⟩
    simp [reportHead, sumTag, lit]
  unfold forStreams
  rw [String.toList_ofList, String.toList_ofList, hstarts, Bool.and_true, Bool.or_eq_true,
    beq_iff_eq,
    decide_eq_true_eq]
  omega

/-- The other lines count for a single one. -/
theorem forStreams_id (cmd : Iperf3Cmd) (socket : ℤ) (text : Text) :
    forStreams cmd (String.ofList ('[' :: idTag socket ++ text)) = decide (cmd.parallels = 1) := by
  have hstarts : ['[', 'S', 'U', 'M', ']'].isPrefixOf ('[' :: idTag socket ++ text) = false := by
    rw [Bool.eq_false_iff]
    intro h
    obtain ⟨more, hmore⟩ := List.isPrefixOf_iff_prefix.mp h
    have hspelled : Spelled [] (idTag socket) := spelled_idTag [] socket
    have hlength : 0 < (idTag socket).length := by
      unfold idTag padLeft
      rw [List.length_append, List.length_replicate]
      omega
    cases htag : idTag socket with
    | nil =>
      rw [htag] at hlength
      cases hlength
    | cons c tag =>
      rw [htag] at hmore
      have hc : 'S' = c := (List.cons.inj (List.cons.inj hmore).2).1
      have hallowed := hspelled c (by rw [htag]; exact List.mem_cons_self)
      rw [← hc] at hallowed
      exact absurd hallowed (by decide)
  unfold forStreams
  rw [String.toList_ofList, String.toList_ofList, hstarts, Bool.and_false, Bool.or_false]
  rfl

/-- What a datagram line has behind its rate. -/
def udpRest (jitterMs : ℚ) (lost total : ℤ) (lostPercent : ℚ) (note : Text) : Text :=
  lit "  " ++ padLeft 5 (fixedText 3 jitterMs) ++ lit " ms  " ++ intText lost ++ '/' ::
    intText total ++ lit " (" ++ generalText lostPercent ++ lit "%)  " ++ note

/-- A number under `%g` is never printed as nothing. -/
theorem generalText_ne_nil (x : ℚ) : generalText x ≠ [] := by
  unfold generalText
  dsimp only
  split
  · simp
  · split
    · simp
    · split
      · simp [natText_ne_nil]
      · simp [natText_ne_nil]

/-- The class of a loss takes every percentage. -/
theorem lossClass_numeral {c : Char} (h : numeral c = true) :
    (digit c || ('+' ≤ c && c ≤ '.') || c == 'e') = true := by
  unfold numeral at h
  rcases Bool.or_eq_true_iff.mp h with hdigit | hsign
  · have hd : digit c = true := hdigit
    rw [hd]
    rfl
  · have hall : ∀ d ∈ ['.', '-', '+', 'e'],
        (digit d || ('+' ≤ d && d ≤ '.') || d == 'e') = true := by decide
    exact hall c (by simpa using hsign)

/-- An integer is a sign and digits, and no sign when it is not negative. -/
theorem intText_tail (n : ℤ) : ∃ sign digits, intText n = sign ++ digits ∧ Digits digits ∧
    digits ≠ [] ∧ (0 ≤ n → sign = []) := by
  unfold intText
  split
  · exact ⟨['-'], natText n.natAbs, rfl, digits_natText _, natText_ne_nil _, by omega⟩
  · exact ⟨[], natText n.natAbs, rfl, digits_natText _, natText_ne_nil _, fun _ => rfl⟩

/-- A loss out of a number of datagrams is found. -/
theorem udpLoss_found (before : Text) (jitterMs : ℚ) (lost : ℤ) {total : ℤ} (h : 0 ≤ total)
    (lostPercent : ℚ) (note : Text) :
    udpLoss.occurs (before ++ udpRest jitterMs lost total lostPercent note) = true := by
  obtain ⟨sign, digits, hlost, hdigits, hne, -⟩ := intText_tail lost
  obtain ⟨sign', digits', htotal, hdigits', hne', hsign'⟩ := intText_tail total
  have hnone : sign' = [] := hsign' h
  rw [hnone, List.nil_append] at htotal
  refine Pattern.occurs_iff.mpr ⟨before ++ (lit "  " ++ padLeft 5 (fixedText 3 jitterMs) ++
    lit " ms  " ++ sign), digits ++ (lit "/" ++ (digits' ++ (lit " (" ++
      (generalText lostPercent ++ lit "%)")))), lit "  " ++ note, ?_, ?_⟩
  · unfold udpRest
    rw [hlost, htotal]
    simp [lit]
  · refine ⟨digits, _, rfl, ⟨hdigits, List.length_pos_of_ne_nil hne, by simp⟩, lit "/", _, rfl, rfl,
      digits', _, rfl, ⟨hdigits', List.length_pos_of_ne_nil hne', by simp⟩, lit " (", _, rfl, rfl,
      generalText lostPercent, lit "%)", rfl, ⟨?_, ?_, by simp⟩, rfl⟩
    · intro c hc
      exact lossClass_numeral (numeral_generalText lostPercent c hc)
    · exact List.length_pos_of_ne_nil (generalText_ne_nil lostPercent)

/-- One of two occurrences of a character is the one to split at. -/
theorem split_either {c : Char} {x y a b d : Text} (h : x ++ c :: y = a ++ c :: (b ++ c :: d))
    (ha : c ∉ a) (hb : c ∉ b) (hd : c ∉ d) : y = b ++ c :: d ∨ y = d := by
  rcases List.append_eq_append_iff.mp h with ⟨e, hxe, hcy⟩ | ⟨e, hxe, hcy⟩
  · cases e with
    | nil => exact Or.inl (List.cons.inj hcy).2
    | cons f e =>
      obtain ⟨hf, -⟩ := List.cons.inj hcy
      refine absurd ?_ ha
      rw [hxe, ← hf]
      simp
  · cases e with
    | nil => exact Or.inl (List.cons.inj hcy).2.symm
    | cons f e =>
      obtain ⟨-, htail⟩ := List.cons.inj hcy
      exact Or.inr (split_unique htail.symm hb hd).2

/-- A loss out of a negative number is not recognised, as the pattern has no place for a sign.
-/
theorem udpLoss_absent {before mid : Text} (hbefore : '/' ∉ before) (hmid : '/' ∉ mid)
    (jitterMs : ℚ) (lost : ℤ) {total : ℤ} (h : total < 0) (lostPercent : ℚ) :
    udpLoss.occurs
      (before ++ '/' :: ('s' :: mid ++ udpRest jitterMs lost total lostPercent [])) = false := by
  rw [Bool.eq_false_iff]
  intro hoccurs
  obtain ⟨a, seg, z, hline, digits, more₁, rfl, -, slash, more₂, rfl, hslash, digits', more₃, rfl,
    ⟨hdigits', hleast', -⟩, -⟩ := Pattern.occurs_iff.mp hoccurs
  have hslash' : slash = ['/'] := hslash
  have hnumber : ∀ text : Text, (∀ c ∈ text, numeral c = true) → '/' ∉ text := by
    intro text hall hc
    exact absurd (hall _ hc) (by decide)
  have htotal : intText total = '-' :: natText total.natAbs := if_pos h
  have hjitter := not_mem_padLeft (by decide) (@not_mem_fixedText '/' (by decide) 3 jitterMs) 5
  have hlost := hnumber _ (numeral_intText lost)
  have hpercent := hnumber _ (numeral_generalText lostPercent)
  have hcount := hnumber _ (numeral_digits (digits_natText total.natAbs))
  have hsplit : (a ++ digits) ++ '/' :: (digits' ++ (more₃ ++ z)) = before ++ '/' ::
      (('s' :: mid ++ lit "  " ++
          padLeft 5 (fixedText 3 jitterMs) ++ lit " ms  " ++ intText lost) ++
        '/' :: ('-' :: natText total.natAbs ++ lit " (" ++ generalText lostPercent ++
          lit "%)  ")) := by
    rw [hslash'] at hline
    unfold udpRest at hline
    rw [htotal] at hline
    simp only [List.append_assoc, List.cons_append, List.nil_append, List.append_nil] at hline ⊢
    rw [← hline]
  cases digits' with
  | nil => cases hleast'
  | cons c digits' =>
    have hc := hdigits' c List.mem_cons_self
    rcases split_either hsplit hbefore (by simp [lit, hmid, hjitter, hlost])
      (by simp [lit, hpercent, hcount]) with hrest | hrest
    · rw [(List.cons.inj hrest).1] at hc
      cases hc
    · rw [(List.cons.inj hrest).1] at hc
      cases hc

end IperfRuntime.RateLines
