import IperfRuntime.IntervalAnswers

/-!
# Summaries under the command parser

What `parseCallBack` makes of the lines of `iperf_print_results`. With one stream the line
of either end can be reported, with several the sum lines; the parser takes the line that
names this end. What the `-F` file's line leads to is kept apart, as its name may hold
anything. Runs in JSON, with a title or with the server's output are not spoken of.
-/

namespace IperfRuntime.SummaryAnswers

open ClockReading TestState PrintfText PrintedNumbers ReportOutput CommandParser ReportLines
  RateLines PrintedReports IntervalAnswers ArgumentWords CommandHistory EntryPointLimits

/-- The text of a line. -/
def lineText : Output → Option Text
  | .line text => text
  | _ => none

/-- The text of the first line. -/
def firstLine (outs : List Output) : Text := (outs.findSome? lineText).getD []

/-- Whether the summary of this end is that of the receiver. -/
def receives (test : IperfTest) : Bool := isTcp test && test.reverse

/-- The bytes of this end's summary. -/
def resultBytes (test : IperfTest) : ℕ :=
  (test.streams.map fun sp =>
    if receives test then sp.result.bytesReceived else sentOf sp).sum

/-- The rate of this end's summary. -/
def resultRate (env : ReportEnv) (test : IperfTest) : Dbl :=
  if test.numStreams = 1 then ratio (resultBytes test) (endTimeOf env test)
  else if 0 < endTimeOf env test then ratio (resultBytes test) (endTimeOf env test)
  else .finite 0

/-- The lines about the ends: those of the sums when there are several streams. -/
def endOutputs (env : ReportEnv) (test : IperfTest) : List Output :=
  if 1 < test.numStreams then
    sumSummary test (endTimeOf env test) (test.streams.foldl (addResult test) {})
  else test.streams.flatMap fun sp =>
    senderSummary test (endTimeOf env test) sp ++ receiverSummary test (endTimeOf env test) sp

/-- What is to be reported for the summary: the line of this end. -/
def resultAnswer (env : ReportEnv) (test : IperfTest) : Answer :=
  (if receives test then lastLine (endOutputs env test) else firstLine (endOutputs env test),
    .onResult 0 (shown (endTimeOf env test)) (unpadded (amountText (resultBytes test)) ++ ['s'])
      (unpadded (megabitText (resultRate env test)) ++ lit "s/sec") test.reverse)

section Summary

variable {n : ℤ} {isDown : Bool} {test : IperfTest} {env : ReportEnv}

/-- A line of the summary. -/
def endFields (tag : Text) (endTime : ℚ) (amount : ℕ) (rate : Dbl) (rest : Text) : RateFields where
  tag := tag
  start := 0
  finish := endTime
  amount := amount
  rate := rate
  rest := rest

/-- What a line of the summary has behind its rate. -/
def EndRest (test : IperfTest) (sender : Bool) (total : ℤ) (rest : Text) : Prop :=
  if isTcp test then
    ∃ before, rest = before ++ endName sender ∧ 'v' ∉ before ∧ 'd' ∉ before ∧ '%' ∉ before ∧
      Spelled restLetters before
  else ∃ jitterMs lost lostPercent, rest = udpRest jitterMs lost total lostPercent []

/-- What stands behind the rate of a final line is spelled with known letters. -/
theorem EndRest.spelled {sender : Bool} {total : ℤ} {rest : Text}
    (h : EndRest test sender total rest) : Spelled restLetters rest := by
  unfold EndRest at h
  split at h
  · obtain ⟨before, rfl, -, -, -, hspelled⟩ := h
    refine hspelled.append ?_
    cases sender with
    | false => decide
    | true => decide
  · obtain ⟨jitterMs, lost, lostPercent, rfl⟩ := h
    exact spelled_udpRest _ _ _ _ (by decide)

/-- Whether the parser takes it for the result. -/
def namesResult (test : IperfTest) (sender : Bool) (total : ℤ) (cmd : Iperf3Cmd) : Bool :=
  if isTcp test then (if sender then !cmd.isDown else cmd.isDown) else decide (0 ≤ total)

/-- Whether a final line names this end is decided by what stands behind its rate. -/
theorem EndRest.named {sender : Bool} {total : ℤ} {f : RateFields}
    (h : EndRest test sender total f.rest) (hf : Formed f) (hfits : f.amount < 1024 ^ 4)
    (htag : '/' ∉ f.tag) (cmd : Iperf3Cmd) :
    (namesLocal cmd (String.ofList f.text) || TextPattern.Pattern.occurs udpLoss f.text) =
      namesResult test sender total cmd := by
  unfold EndRest at h
  unfold namesResult
  split at h
  · rename_i htcp
    obtain ⟨before, hrest, hv, hd, hpercent, -⟩ := h
    rw [if_pos htcp]
    cases sender with
    | false => exact receiver_named hf hfits hrest hd hpercent cmd
    | true => exact sender_named hf hfits hrest hv hpercent cmd
  · rename_i htcp
    obtain ⟨jitterMs, lost, lostPercent, hrest⟩ := h
    rw [if_neg htcp]
    exact datagrams_named hf hfits hrest htag cmd

/-- The tag of a stream has no slash, which stands in datagram figures. -/
theorem slash_not_mem_idTag (socket : ℤ) : '/' ∉ idTag socket :=
  (spelled_idTag [] socket).not_mem (by decide)

/-- Behind the rate of a TCP line stand blanks and the name of the end. -/
theorem endRest_blanks (htcp : isTcp test = true) (sender : Bool) (total : ℤ) :
    EndRest test sender total (lit "                  " ++ endName sender) := by
  unfold EndRest
  rw [if_pos htcp]
  exact ⟨_, rfl, by decide, by decide, by decide, by decide⟩

/-- Or the retransmits, in their column, and that name. -/
theorem endRest_retrans (htcp : isTcp test = true) (sender : Bool) (total : ℤ) {count : Text}
    (hcount : ∀ c ∈ count, numeral c = true) :
    EndRest test sender total
      (lit "  " ++ padLeft 3 count ++ lit "             " ++ endName sender) := by
  have hletter : ∀ c : Char, c ≠ ' ' → numeral c = false →
      c ∉ lit "  " ++ padLeft 3 count ++ lit "             " := by
    intro c hblank hc
    have hpadded := not_mem_padLeft hblank (letter_not_mem hcount hc) 3
    simp [lit, hpadded, hblank]
  have hblanks : Spelled restLetters (lit "  ") := by decide
  have hgap : Spelled restLetters (lit "             ") := by decide
  unfold EndRest
  rw [if_pos htcp]
  exact ⟨_, rfl, hletter 'v' (by decide) (by decide), hletter 'd' (by decide) (by decide),
    hletter '%' (by decide) (by decide),
    (hblanks.append (spelled_padLeft (spelled_of_numeral hcount) 3)).append hgap⟩

/-- Behind the rate of a UDP line stand jitter, losses and total. -/
theorem endRest_datagrams (hudp : ¬isTcp test = true) (sender : Bool) (jitterMs : ℚ)
    (lost total : ℤ) (lostPercent : ℚ) :
    EndRest test sender total (udpRest jitterMs lost total lostPercent []) := by
  unfold EndRest
  rw [if_neg hudp]
  exact ⟨_, _, _, rfl⟩

/-- The letters of the lines about datagrams. -/
def datagramLetters : List Char := lit "[]SUMentdagrmsciv ou-f"

/-- The line about the datagrams of a stream says nothing to the parser. -/
theorem mute_datagrams (socket packets : ℤ) :
    Mute [.line (some (reportDatagrams socket packets))] := by
  refine @mute_spelled datagramLetters _ ?_ (by decide)
  have hopen : allowed datagramLetters '[' = true := by decide
  have hsent : Spelled datagramLetters (lit "] Sent ") := by decide
  have hend : Spelled datagramLetters (lit " datagrams") := by decide
  unfold reportDatagrams
  exact (((Spelled.cons hopen (spelled_idTag _ socket)).append hsent).append
    (spelled_intText _ packets)).append hend

/-- Neither does the line about datagrams out of order. -/
theorem mute_outoforder (start finish : ℚ) (packets : ℤ) :
    Mute [.line (some (reportSumOutoforder start finish packets))] := by
  refine @mute_spelled datagramLetters _ ?_ (by decide)
  have hsum : Spelled datagramLetters (lit "[SUM] ") := by decide
  have hdash : allowed datagramLetters '-' = true := by decide
  have hsec : Spelled datagramLetters (lit " sec  ") := by decide
  have hend : Spelled datagramLetters (lit " datagrams received out-of-order") := by decide
  unfold reportSumOutoforder
  exact ((((hsum.append (spelled_padLeft (spelled_fixedText _ 1 start) 4)).append
    (Spelled.cons hdash (spelled_padLeft (spelled_fixedText _ 1 finish) 4))).append hsec).append
    (spelled_intText _ packets)).append hend

/-- The letters of the line about the processors. -/
def cpuLetters : List Char := lit "CPUtilzaon: c/sedrv%(u),m"

/-- Neither does the line about the processors, which `-V` prints. -/
theorem mute_cpu (sender : Bool) (own remote : ℚ × ℚ × ℚ) :
    Mute [.line (some (reportCpu sender own remote))] := by
  refine @mute_spelled cpuLetters _ ?_ (by decide)
  have hslash : allowed cpuLetters '/' = true := by decide
  have hblank : allowed cpuLetters ' ' = true := by decide
  have hopen : Spelled cpuLetters (lit "% (") := by decide
  have huser : Spelled cpuLetters (lit "%u/") := by decide
  have hsystem : Spelled cpuLetters (lit "%s)") := by decide
  have hname : ∀ b : Bool, Spelled cpuLetters (endName b) := by decide
  have hpart : ∀ (place : Text) (b : Bool) (use : ℚ × ℚ × ℚ), Spelled cpuLetters place →
      Spelled cpuLetters (place ++ '/' :: endName b ++ ' ' :: fixedText 1 use.1 ++ lit "% (" ++
        fixedText 1 use.2.1 ++ lit "%u/" ++ fixedText 1 use.2.2 ++ lit "%s)") := by
    intro place b use hplace
    exact (((((((hplace.append (Spelled.cons hslash (hname b))).append
      (Spelled.cons hblank (spelled_fixedText _ 1 use.1))).append hopen).append
      (spelled_fixedText _ 1 use.2.1)).append huser).append
      (spelled_fixedText _ 1 use.2.2)).append hsystem)
  have hhead : Spelled cpuLetters (lit "CPU Utilization: ") := by decide
  have hcomma : Spelled cpuLetters (lit ", ") := by decide
  unfold reportCpu
  dsimp only
  exact ((hhead.append (hpart (lit "local") sender own (by decide))).append hcomma).append
    (hpart (lit "remote") (!sender) remote (by decide))

/-- A callback, a line and what else is printed behind it. -/
def summaryPart (condition : Bool) (f : RateFields) (tail : List Output) : List Output :=
  callIf condition (.onResult 0 f.finish (unitSnprintf (.finite f.amount) 'A')
    (unitSnprintf f.rate 'm')) ++ ([.line f.printed] ++ tail)

/-- What is printed about the sending of a stream: a line under its condition, with a rest
that depends on the protocol, and callbacks. -/
theorem senderSummary_eq (hunit : test.settings.unitFormat = 'm') (endTime : ℚ)
    (sp : IperfStream) : ∃ condition rest tail, EndRest test true (packetsOf sp) rest ∧ Mute tail ∧
      senderSummary test endTime sp = summaryPart condition
        (endFields (idTag sp.socket) endTime (sentOf sp)
          (ratio (sentOf sp) endTime) rest) tail := by
  unfold senderSummary rateText
  dsimp only
  rw [hunit]
  by_cases htcp : isTcp test = true
  · rw [if_pos htcp]
    by_cases hretrans : test.senderHasRetransmits ≠ 0
    · rw [if_pos hretrans]
      exact ⟨_, _, [], endRest_retrans htcp true _ (numeral_digits (digits_natText _)),
        mute_nil, rfl⟩
    · rw [if_neg hretrans]
      exact ⟨_, _, [], endRest_blanks htcp true _, mute_nil, rfl⟩
  · rw [if_neg htcp]
    have hdatagrams : Mute (if test.role = .client then
        [.line (some (reportDatagrams sp.socket (packetsOf sp)))] else []) := by
      split
      · exact mute_datagrams _ _
      · exact mute_nil
    have hlate : Mute (if 0 < outoforderOf sp then
        [.line (some (reportSumOutoforder 0 endTime (outoforderOf sp)))] else []) := by
      split
      · exact mute_outoforder _ _ _
      · exact mute_nil
    refine ⟨!test.reverse && test.jniCallback && test.numStreams == 1, _, _,
      endRest_datagrams htcp true (sp.jitter * 1000) (lossesOf sp) (packetsOf sp)
        (lostPercentOf (lossesOf sp) (packetsOf sp)), hdatagrams.append hlate, ?_⟩
    unfold summaryPart
    rw [List.append_assoc, List.append_assoc]
    rfl

/-- What is printed about its receiving. -/
theorem receiverSummary_eq (hunit : test.settings.unitFormat = 'm') (endTime : ℚ)
    (sp : IperfStream) : (isTcp test = false ∧ receiverSummary test endTime sp = []) ∨
      (isTcp test = true ∧ ∃ condition rest, EndRest test false (packetsOf sp) rest ∧
        receiverSummary test endTime sp = summaryPart condition
          (endFields (idTag sp.socket) endTime sp.result.bytesReceived
            (ratio sp.result.bytesReceived endTime) rest) []) := by
  unfold receiverSummary rateText
  dsimp only
  rw [hunit]
  by_cases htcp : isTcp test = true
  · rw [if_pos htcp]
    exact Or.inr ⟨htcp, _, _, endRest_blanks htcp false _, rfl⟩
  · rw [if_neg htcp]
    exact Or.inl ⟨Bool.eq_false_iff.mpr htcp, rfl⟩

/-- The totals of the summary are the sums over the streams, by induction on the streams. -/
theorem addResult_totals (test : IperfTest) (streams : List IperfStream) (s : ResultSums) :
    (streams.foldl (addResult test) s).totalSent = s.totalSent + (streams.map sentOf).sum ∧
      (streams.foldl (addResult test) s).totalReceived =
        s.totalReceived + (streams.map fun sp => sp.result.bytesReceived).sum ∧
      (isTcp test = false → (streams.foldl (addResult test) s).totalPackets =
        s.totalPackets + (streams.map packetsOf).sum) := by
  induction streams generalizing s with
  | nil => simp
  | cons sp streams ih =>
    obtain ⟨hsent, hreceived, hpackets⟩ := ih (addResult test s sp)
    have hone : (addResult test s sp).totalSent = s.totalSent + sentOf sp ∧
        (addResult test s sp).totalReceived = s.totalReceived + sp.result.bytesReceived ∧
        (isTcp test = false → (addResult test s sp).totalPackets =
          s.totalPackets + packetsOf sp) := by
      unfold addResult
      dsimp only
      split
      · rename_i htcp
        refine ⟨?_, ?_, fun h => ?_⟩
        · split <;> rfl
        · split <;> rfl
        · rw [htcp] at h
          cases h
      · exact ⟨rfl, rfl, fun _ => rfl⟩
    simp only [List.foldl_cons, List.map_cons, List.sum_cons]
    refine ⟨?_, ?_, fun h => ?_⟩
    · rw [hsent, hone.1, Nat.add_assoc]
    · rw [hreceived, hone.2.1, Nat.add_assoc]
    · rw [hpackets h, hone.2.2 h, add_assoc]

/-- What is printed about all streams together: over TCP a line for each direction, over UDP
one with the losses. -/
theorem sumSummary_eq (hunit : test.settings.unitFormat = 'm') (endTime : ℚ) (s : ResultSums) :
    ∃ condition rest, EndRest test true s.totalPackets rest ∧
      ((isTcp test = false ∧ sumSummary test endTime s = summaryPart condition
        (endFields sumTag endTime s.totalSent (totalRate s.totalSent endTime) rest) []) ∨
      (isTcp test = true ∧ ∃ condition' rest', EndRest test false s.totalPackets rest' ∧
        sumSummary test endTime s = summaryPart condition
          (endFields sumTag endTime s.totalSent (totalRate s.totalSent endTime) rest) [] ++
          summaryPart condition' (endFields sumTag endTime s.totalReceived
            (totalRate s.totalReceived endTime) rest') [])) := by
  unfold sumSummary totalRateText
  dsimp only
  rw [hunit]
  by_cases htcp : isTcp test = true
  · rw [if_pos htcp]
    by_cases hretrans : test.senderHasRetransmits ≠ 0
    · rw [if_pos hretrans]
      refine ⟨!test.reverse && test.jniCallback, _,
        endRest_retrans htcp true _ (numeral_intText s.totalRetransmits),
        Or.inr ⟨htcp, test.reverse && test.jniCallback, _, endRest_blanks htcp false _, ?_⟩⟩
      rw [List.append_assoc]
      rfl
    · rw [if_neg hretrans]
      refine ⟨!test.reverse && test.jniCallback, _, endRest_blanks htcp true _,
        Or.inr ⟨htcp, test.reverse && test.jniCallback, _, endRest_blanks htcp false _, ?_⟩⟩
      rw [List.append_assoc]
      rfl
  · rw [if_neg htcp]
    exact ⟨_, _, endRest_datagrams htcp true (s.avgJitter / test.numStreams * 1000) s.lostPackets
      s.totalPackets (lostPercentOf s.lostPackets s.totalPackets),
      Or.inl ⟨Bool.eq_false_iff.mpr htcp, rfl⟩⟩

/-- A part of the summary gives the answer to its rate line and to nothing else. -/
theorem collects_summaryPart {f : RateFields} (hf : Formed f) (condition : Bool)
    {tail : List Output} (htail : Mute tail) (cmd : Iperf3Cmd) :
    Collects cmd (summaryPart condition f tail) (f.amount < 1024 ^ 4) (f.answer cmd) := by
  have hevent : ∀ text, Output.onResult 0 f.finish (unitSnprintf (.finite f.amount) 'A')
      (unitSnprintf f.rate 'm') ≠ Output.line text := by
    intro text h
    cases h
  have hcall := (mute_call hevent condition).2 cmd
  exact (hcall.append ((collects_rate hf cmd).append (htail.2 cmd))).congr (by simp) (by simp)

/-- A call of the app is no line. -/
theorem lineText_callIf (condition : Bool) (start finish : ℚ) (sendBytes bandWidth : Option Text) :
    (callIf condition (Output.onResult start finish sendBytes bandWidth)).findSome? lineText =
      none := by
  cases condition with
  | false => rfl
  | true => rfl

/-- The first line of such a part is its rate line, whatever follows. -/
theorem firstLine_summaryPart {f : RateFields} (hfits : f.amount < 1024 ^ 4) (condition : Bool)
    (tail more : List Output) : firstLine (summaryPart condition f tail ++ more) = f.text := by
  unfold firstLine summaryPart
  rw [printed_eq, if_pos hfits, List.append_assoc, List.findSome?_append, lineText_callIf]
  rfl

/-- It is the last line as well when nothing follows, whatever goes before. -/
theorem lastLine_summaryPart {f : RateFields} (hfits : f.amount < 1024 ^ 4) (condition : Bool)
    (before : List Output) : lastLine (before ++ summaryPart condition f []) = f.text := by
  unfold summaryPart
  rw [printed_eq, if_pos hfits, List.append_nil]
  exact lastLine_append _ _ _

/-- A line of the summary with what it reports. -/
structure EndLine (test : IperfTest) (endTime : ℚ) (sender : Bool) (total : ℤ) (amount : ℕ)
    (rate : Dbl) (f : RateFields) : Prop where
  formed : Formed f
  start : f.start = 0
  finish : f.finish = endTime
  amount_eq : f.amount = amount
  rate_eq : f.rate = rate
  named : (amount : ℚ) < 1024 ^ 4 → ∀ cmd : Iperf3Cmd,
    (namesLocal cmd (String.ofList f.text) || TextPattern.Pattern.occurs udpLoss f.text) =
      namesResult test sender total cmd

/-- The fields of a final line are well formed when its tag, its time and its rate are. -/
theorem endLine_fields {sender : Bool} {total : ℤ} {rest tag : Text} {endTime : ℚ} {amount : ℕ}
    {rate : Dbl} (hrest : EndRest test sender total rest) (htag : Spelled headLetters tag)
    (hdash : '-' ∉ tag) (hslash : '/' ∉ tag) (htime : 0 ≤ endTime)
    (hrate : (amount : ℚ) < 1024 ^ 4 → Rate rate) :
    EndLine test endTime sender total amount rate (endFields tag endTime amount rate rest) := by
  have hformed : Formed (endFields tag endTime amount rate rest) :=
    ⟨htag, hdash, le_refl 0, htime, Nat.cast_nonneg _, hrate, hrest.spelled⟩
  have hnamed : EndRest test sender total (endFields tag endTime amount rate rest).rest := hrest
  exact ⟨hformed, rfl, rfl, rfl, rfl, fun hfits cmd => hnamed.named hformed hfits hslash cmd⟩

/-- The final line of a stream has its tag and its own rate. -/
theorem endLine_stream {sender : Bool} {total : ℤ} {rest : Text} {sp : IperfStream}
    (hsocket : 0 ≤ sp.socket) (hrest : EndRest test sender total rest) (a b : Timeval)
    (amount : ℕ) : EndLine test (timevalDiff a b) sender total amount
      (ratio amount (timevalDiff a b)) (endFields (idTag sp.socket) (timevalDiff a b) amount
        (ratio amount (timevalDiff a b)) rest) :=
  endLine_fields hrest (spelled_idTag _ _) (dash_not_mem_idTag hsocket) (slash_not_mem_idTag _)
    (timevalDiff_nonneg _ _) fun hfits => rate_ratio hfits a b

/-- A total rate is a rate of the reports, also without any duration. -/
theorem rate_totalRate {amount : ℕ} (h : (amount : ℚ) < 1024 ^ 4) (a b : Timeval) :
    Rate (totalRate amount (timevalDiff a b)) := by
  unfold totalRate
  split
  · exact rate_ratio h a b
  · exact Or.inl ⟨0, rfl, le_refl 0, by norm_num⟩

/-- The final line of the sums has the tag of the sums and the total rate. -/
theorem endLine_sum {sender : Bool} {total : ℤ} {rest : Text}
    (hrest : EndRest test sender total rest) (a b : Timeval) (amount : ℕ) :
    EndLine test (timevalDiff a b) sender total amount (totalRate amount (timevalDiff a b))
      (endFields sumTag (timevalDiff a b) amount (totalRate amount (timevalDiff a b)) rest) := by
  have htag : Spelled headLetters sumTag := by decide
  have hdash : '-' ∉ sumTag := by decide
  have hslash : '/' ∉ sumTag := by decide
  exact endLine_fields hrest htag hdash hslash (timevalDiff_nonneg _ _)
    fun hfits => rate_totalRate hfits a b

/-- The totals that the summary prints have units. -/
structure TotalsFit (test : IperfTest) : Prop where
  sent : ((test.streams.map sentOf).sum : ℚ) < 1024 ^ 4
  received : isTcp test = true →
    (((test.streams.map fun sp => sp.result.bytesReceived).sum : ℕ) : ℚ) < 1024 ^ 4

/-- What the parser makes of the name of the `-F` file. -/
def fileAnswers (env : ReportEnv) (test : IperfTest) (cmd : Iperf3Cmd) (sp : IperfStream) :
    List Answer :=
  (collect cmd (diskfileSummary env test sp)).getD []

/-- The lines about the sending of a stream and about its file. -/
theorem sender_collects (hr : Reported n isDown test) {sp : IperfStream}
    (hsp : sp ∈ test.streams) (a b : Timeval) :
    ∃ f condition tail rest, f = endFields (idTag sp.socket) (timevalDiff a b) (sentOf sp)
        (ratio (sentOf sp) (timevalDiff a b)) rest ∧
      EndLine test (timevalDiff a b) true (packetsOf sp) (sentOf sp)
        (ratio (sentOf sp) (timevalDiff a b)) f ∧
      senderSummary test (timevalDiff a b) sp = summaryPart condition f tail ∧
      ∀ cmd, Collects cmd (senderSummary test (timevalDiff a b) sp ++ diskfileSummary env test sp)
        ((sentOf sp : ℚ) < 1024 ^ 4 ∧ (collect cmd (diskfileSummary env test sp)).isSome = true)
        (f.answer cmd ++ fileAnswers env test cmd sp) := by
  obtain ⟨condition, rest, tail, hrest, htail, hsender⟩ :=
    senderSummary_eq hr.unitFormat (timevalDiff a b) sp
  have hline := endLine_stream (hr.sockets sp hsp) hrest a b (sentOf sp)
  refine ⟨_, condition, tail, rest, rfl, hline, hsender, ?_⟩
  intro cmd
  rw [hsender]
  exact (collects_summaryPart hline.formed condition htail cmd).append (collects_self cmd _)

/-- The lines about its receiving. -/
theorem receiver_collects (hr : Reported n isDown test) (htcp : isTcp test = true)
    {sp : IperfStream} (hsp : sp ∈ test.streams) (a b : Timeval) :
    ∃ f condition rest, f = endFields (idTag sp.socket) (timevalDiff a b) sp.result.bytesReceived
        (ratio sp.result.bytesReceived (timevalDiff a b)) rest ∧
      EndLine test (timevalDiff a b) false (packetsOf sp) sp.result.bytesReceived
        (ratio sp.result.bytesReceived (timevalDiff a b)) f ∧
      receiverSummary test (timevalDiff a b) sp = summaryPart condition f [] ∧
      ∀ cmd, Collects cmd (receiverSummary test (timevalDiff a b) sp)
        ((sp.result.bytesReceived : ℚ) < 1024 ^ 4) (f.answer cmd) := by
  rcases receiverSummary_eq hr.unitFormat (timevalDiff a b) sp with ⟨hudp, -⟩ |
    ⟨-, condition, rest, hrest, hreceiver⟩
  · rw [htcp] at hudp
    cases hudp
  · have hline := endLine_stream (hr.sockets sp hsp) hrest a b sp.result.bytesReceived
    refine ⟨_, condition, rest, rfl, hline, hreceiver, ?_⟩
    intro cmd
    rw [hreceiver]
    exact collects_summaryPart hline.formed condition mute_nil cmd

/-- UDP prints no line about the receiver. -/
theorem receiver_udp (hudp : isTcp test = false) (endTime : ℚ) (sp : IperfStream) :
    receiverSummary test endTime sp = [] := by
  unfold receiverSummary
  dsimp only
  rw [hudp]
  rfl

/-- The line of this end. -/
structure LocalLine (env : ReportEnv) (test : IperfTest) (f : RateFields) : Prop where
  formed : Formed f
  start : f.start = 0
  finish : f.finish = endTimeOf env test
  amount : f.amount = resultBytes test
  rate : f.rate = resultRate env test
  text : TotalsFit test → f.text = (resultAnswer env test).1
  counts : forStreams ⟨test.numStreams, test.reverse, 2⟩ (String.ofList f.text) = true
  named : TotalsFit test →
    (namesLocal ⟨test.numStreams, test.reverse, 2⟩ (String.ofList f.text) ||
      TextPattern.Pattern.occurs udpLoss f.text) =
      (isTcp test || decide (0 ≤ (test.streams.map packetsOf).sum))

/-- What is printed between the title of the summary and its end. -/
def resultOutputs (env : ReportEnv) (test : IperfTest) : List Output :=
  test.streams.flatMap (streamSummary env test (endTimeOf env test)) ++
    if 1 < test.numStreams then
      sumSummary test (endTimeOf env test) (test.streams.foldl (addResult test) {})
    else []

/-- Unless this end receives, its result is about the bytes sent. -/
theorem resultBytes_sent (h : receives test = false) :
    resultBytes test = (test.streams.map sentOf).sum := by
  unfold resultBytes
  rw [h]
  rfl

/-- If it does, about the bytes received. -/
theorem resultBytes_received (h : receives test = true) :
    resultBytes test = (test.streams.map fun sp => sp.result.bytesReceived).sum := by
  unfold resultBytes
  rw [h]
  rfl

/-- An amount of this end is one of the totals. -/
theorem LocalLine.amount_lt {f : RateFields} (hf : LocalLine env test f) (hfits : TotalsFit test) :
    f.amount < 1024 ^ 4 := by
  rw [hf.amount]
  unfold resultBytes
  cases hreceives : receives test with
  | false => exact hfits.sent
  | true =>
    unfold receives at hreceives
    exact hfits.received (Bool.and_eq_true_iff.mp hreceives).1

section Ends

variable {total : ℤ} {rate : Dbl} {f : RateFields}

/-- The sender's line is that of this end when this end does not receive over TCP; for
datagrams it is the only one. -/
theorem localLine_sender (h : receives test = false)
    (hline : EndLine test (endTimeOf env test) true total (test.streams.map sentOf).sum
      (resultRate env test) f)
    (htotal : isTcp test = false → total = (test.streams.map packetsOf).sum)
    (htext : TotalsFit test → firstLine (endOutputs env test) = f.text)
    (hcounts : forStreams ⟨test.numStreams, test.reverse, 2⟩ (String.ofList f.text) = true) :
    LocalLine env test f := by
  refine ⟨hline.formed, hline.start, hline.finish, ?_, hline.rate_eq, ?_, hcounts, ?_⟩
  · rw [hline.amount_eq, resultBytes_sent h]
  · intro hfits
    unfold resultAnswer
    rw [h, htext hfits]
    rfl
  · intro hfits
    rw [hline.named hfits.sent]
    unfold namesResult
    cases htcp : isTcp test with
    | false =>
      rw [htotal htcp]
      rfl
    | true =>
      have hup : test.reverse = false := by
        unfold receives at h
        rw [htcp, Bool.true_and] at h
        exact h
      rw [hup]
      rfl

/-- The receiver's line is when it does. -/
theorem localLine_receiver (h : receives test = true)
    (hline : EndLine test (endTimeOf env test) false total
      (test.streams.map fun sp => sp.result.bytesReceived).sum (resultRate env test) f)
    (htext : TotalsFit test → lastLine (endOutputs env test) = f.text)
    (hcounts : forStreams ⟨test.numStreams, test.reverse, 2⟩ (String.ofList f.text) = true) :
    LocalLine env test f := by
  have hboth : isTcp test = true ∧ test.reverse = true := by
    unfold receives at h
    exact Bool.and_eq_true_iff.mp h
  refine ⟨hline.formed, hline.start, hline.finish, ?_, hline.rate_eq, ?_, hcounts, ?_⟩
  · rw [hline.amount_eq, resultBytes_received h]
  · intro hfits
    unfold resultAnswer
    rw [h, htext hfits]
    rfl
  · intro hfits
    rw [hline.named (hfits.received hboth.1)]
    unfold namesResult
    rw [hboth.1, hboth.2]
    rfl

/-- The other end's line is passed over. -/
theorem answer_otherEnd {sender : Bool} {endTime : ℚ} {amount : ℕ} (htcp : isTcp test = true)
    (hline : EndLine test endTime sender total amount rate f) (hfits : (amount : ℚ) < 1024 ^ 4)
    (hother : sender = test.reverse) (k : ℤ) : f.answer ⟨k, test.reverse, 2⟩ = [] := by
  refine answer_other rfl ?_
  rw [hline.named hfits]
  unfold namesResult
  rw [if_pos htcp, hother]
  cases test.reverse with
  | false => rfl
  | true => rfl

/-- Over TCP one of the two lines is that of this end, and the other is passed over, as it
names the other end. -/
theorem localLine_tcp (perSecond : ℕ → Dbl) {otherTotal : ℤ} {fs fr : RateFields}
    (htcp : isTcp test = true) (hrate : resultRate env test = perSecond (resultBytes test))
    (hs : EndLine test (endTimeOf env test) true total (test.streams.map sentOf).sum
      (perSecond (test.streams.map sentOf).sum) fs)
    (hr : EndLine test (endTimeOf env test) false otherTotal
      (test.streams.map fun sp => sp.result.bytesReceived).sum
      (perSecond (test.streams.map fun sp => sp.result.bytesReceived).sum) fr)
    (hfirst : TotalsFit test → firstLine (endOutputs env test) = fs.text)
    (hlast : TotalsFit test → lastLine (endOutputs env test) = fr.text)
    (hsCounts : forStreams ⟨test.numStreams, test.reverse, 2⟩ (String.ofList fs.text) = true)
    (hrCounts : forStreams ⟨test.numStreams, test.reverse, 2⟩ (String.ofList fr.text) = true) :
    (LocalLine env test fs ∧
      (TotalsFit test → fr.answer ⟨test.numStreams, test.reverse, 2⟩ = [])) ∨
    (LocalLine env test fr ∧
      (TotalsFit test → fs.answer ⟨test.numStreams, test.reverse, 2⟩ = [])) := by
  by_cases hdown : test.reverse = true
  · have hlocal : receives test = true := by
      unfold receives
      rw [hdown, htcp]
      rfl
    rw [← resultBytes_received hlocal, ← hrate, resultBytes_received hlocal] at hr
    refine Or.inr ⟨localLine_receiver hlocal hr hlast hrCounts, ?_⟩
    intro hfits
    exact answer_otherEnd htcp hs hfits.sent hdown.symm test.numStreams
  · have hup : test.reverse = false := Bool.eq_false_iff.mpr hdown
    have hlocal : receives test = false := by
      unfold receives
      rw [hup, Bool.and_false]
    rw [← resultBytes_sent hlocal, ← hrate, resultBytes_sent hlocal] at hs
    refine Or.inl ⟨localLine_sender hlocal hs ?_ hfirst hsCounts, ?_⟩
    · intro hudp
      rw [htcp] at hudp
      cases hudp
    · intro hfits
      exact answer_otherEnd htcp hr (hfits.received htcp) hup.symm test.numStreams

/-- Over UDP the only line is that of this end. -/
theorem localLine_udp (perSecond : ℕ → Dbl) (hudp : isTcp test = false)
    (hrate : resultRate env test = perSecond (resultBytes test))
    (hline : EndLine test (endTimeOf env test) true total (test.streams.map sentOf).sum
      (perSecond (test.streams.map sentOf).sum) f)
    (htotal : total = (test.streams.map packetsOf).sum)
    (htext : TotalsFit test → firstLine (endOutputs env test) = f.text)
    (hcounts : forStreams ⟨test.numStreams, test.reverse, 2⟩ (String.ofList f.text) = true) :
    LocalLine env test f := by
  have hlocal : receives test = false := by
    unfold receives
    rw [hudp]
    rfl
  rw [← resultBytes_sent hlocal, ← hrate, resultBytes_sent hlocal] at hline
  exact localLine_sender hlocal hline (fun _ => htotal) htext hcounts

end Ends

/-- What the summary of a test is about when it has one stream. -/
structure Alone (env : ReportEnv) (test : IperfTest) (sp : IperfStream) : Prop where
  streams : test.streams = [sp]
  time : endTimeOf env test = timevalDiff sp.result.startTime sp.result.endTime
  sent : (test.streams.map sentOf).sum = sentOf sp
  received : (test.streams.map fun sp => sp.result.bytesReceived).sum = sp.result.bytesReceived
  packets : (test.streams.map packetsOf).sum = packetsOf sp
  rate : resultRate env test = ratio (resultBytes test) (endTimeOf env test)
  ends : endOutputs env test =
    senderSummary test (endTimeOf env test) sp ++ receiverSummary test (endTimeOf env test) sp
  outputs : resultOutputs env test =
    (senderSummary test (endTimeOf env test) sp ++ diskfileSummary env test sp) ++
      receiverSummary test (endTimeOf env test) sp

/-- With one stream the streams of a reported test are this one, so its lines stand for the
test. -/
theorem exists_alone (hr : Reported n isDown test) (hone : test.numStreams = 1) :
    ∃ sp, Alone env test sp := by
  obtain ⟨sp, hstreams⟩ : ∃ sp, test.streams = [sp] := by
    refine List.length_eq_one_iff.mp ?_
    have hlength := hr.streams
    rw [hone] at hlength
    exact_mod_cast hlength
  have hnot : ¬1 < test.numStreams := by omega
  refine ⟨sp, hstreams, ?_, ?_, ?_, ?_, ?_, ?_, ?_⟩
  · unfold endTimeOf
    rw [hstreams]
  · rw [hstreams]
    simp
  · rw [hstreams]
    simp
  · rw [hstreams]
    simp
  · unfold resultRate
    rw [if_pos hone]
  · unfold endOutputs
    rw [if_neg hnot, hstreams]
    simp
  · unfold resultOutputs
    rw [if_neg hnot, hstreams]
    simp [streamSummary]

/-- The only stream is a stream of the test. -/
theorem Alone.mem {sp : IperfStream} (h : Alone env test sp) : sp ∈ test.streams := by
  rw [h.streams]
  exact List.mem_singleton_self sp

/-- The bounds of the totals are those of the stream. -/
theorem Alone.fits {sp : IperfStream} (h : Alone env test sp) (cmd : Iperf3Cmd) :
    (((sentOf sp : ℚ) < 1024 ^ 4 ∧ (collect cmd (diskfileSummary env test sp)).isSome = true) ∧
      (isTcp test = true → (sp.result.bytesReceived : ℚ) < 1024 ^ 4)) ↔
    (TotalsFit test ∧
      ∀ sp ∈ test.streams, (collect cmd (diskfileSummary env test sp)).isSome = true) := by
  constructor
  · rintro ⟨⟨hsent, hfile⟩, hreceived⟩
    refine ⟨⟨?_, ?_⟩, ?_⟩
    · rw [h.sent]
      exact hsent
    · rw [h.received]
      exact hreceived
    · intro other hother
      rw [h.streams, List.mem_singleton] at hother
      rw [hother]
      exact hfile
  · rintro ⟨⟨hsent, hreceived⟩, hfile⟩
    rw [h.sent] at hsent
    rw [h.received] at hreceived
    exact ⟨⟨hsent, hfile sp h.mem⟩, hreceived⟩

/-- The summary of one stream is answered with the line of this end and whatever the line of
the file leads to, in one order or the other. -/
theorem result_single (hr : Reported n isDown test) (hone : test.numStreams = 1) :
    ∃ f, LocalLine env test f ∧ ∃ v,
      (v = f.answer ⟨test.numStreams, test.reverse, 2⟩ ++
          test.streams.flatMap (fileAnswers env test ⟨test.numStreams, test.reverse, 2⟩) ∨
        v = test.streams.flatMap (fileAnswers env test ⟨test.numStreams, test.reverse, 2⟩) ++
          f.answer ⟨test.numStreams, test.reverse, 2⟩) ∧
      Collects ⟨test.numStreams, test.reverse, 2⟩ (resultOutputs env test)
        (TotalsFit test ∧ ∀ sp ∈ test.streams,
          (collect ⟨test.numStreams, test.reverse, 2⟩ (diskfileSummary env test sp)).isSome = true)
        v := by
  obtain ⟨sp, halone⟩ := @exists_alone n isDown test env hr hone
  obtain ⟨fs, cs, tail, rest, hfs, hs, hsender, hsCollects⟩ :=
    @sender_collects n isDown test env hr sp halone.mem sp.result.startTime sp.result.endTime
  have hsCollects := hsCollects ⟨test.numStreams, test.reverse, 2⟩
  rw [← halone.time] at hsender hs hsCollects
  rw [← halone.sent] at hs
  have hfits := halone.fits ⟨test.numStreams, test.reverse, 2⟩
  have hfiles : test.streams.flatMap
      (fileAnswers env test ⟨test.numStreams, test.reverse, 2⟩) =
        fileAnswers env test ⟨test.numStreams, test.reverse, 2⟩ sp := by
    rw [halone.streams]
    simp
  have hsCounts : forStreams ⟨test.numStreams, test.reverse, 2⟩ (String.ofList fs.text) = true := by
    rw [@tagged_counts fs sp.socket (by rw [hfs]; rfl), decide_eq_true hone]
  have hfirst : TotalsFit test → firstLine (endOutputs env test) = fs.text := by
    intro htotals
    rw [halone.ends, hsender]
    refine firstLine_summaryPart ?_ _ _ _
    rw [hs.amount_eq]
    exact htotals.sent
  rw [hfiles, halone.outputs]
  cases htcp : isTcp test with
  | false =>
    refine ⟨fs, localLine_udp (fun amount => ratio amount (endTimeOf env test)) htcp halone.rate hs
      halone.packets.symm hfirst hsCounts, _, Or.inl rfl, ?_⟩
    rw [receiver_udp htcp, List.append_nil]
    rw [htcp] at hfits
    exact hsCollects.congr (Iff.trans (by simp) hfits) rfl
  | true =>
    obtain ⟨fr, cr, rest', hfr, hrLine, hreceiver, hrCollects⟩ := receiver_collects hr htcp
      halone.mem sp.result.startTime sp.result.endTime
    have hrCollects := hrCollects ⟨test.numStreams, test.reverse, 2⟩
    rw [← halone.time] at hreceiver hrLine hrCollects
    rw [← halone.received] at hrLine
    have hrCounts : forStreams ⟨test.numStreams, test.reverse, 2⟩ (String.ofList fr.text) =
        true := by
      rw [@tagged_counts fr sp.socket (by rw [hfr]; rfl), decide_eq_true hone]
    have hlast : TotalsFit test → lastLine (endOutputs env test) = fr.text := by
      intro htotals
      rw [halone.ends, hreceiver]
      refine lastLine_summaryPart ?_ _ _
      rw [hrLine.amount_eq]
      exact htotals.received htcp
    rw [htcp] at hfits
    have hboth := (hsCollects.append hrCollects).congr (Iff.trans (by simp) hfits) rfl
    rcases localLine_tcp (fun amount => ratio amount (endTimeOf env test)) htcp halone.rate hs
      hrLine hfirst hlast hsCounts hrCounts with ⟨hlocal, hnone⟩ | ⟨hlocal, hnone⟩
    · refine ⟨fs, hlocal, _, Or.inl rfl, hboth.congr_of ?_⟩
      rintro ⟨htotals, -⟩
      rw [hnone htotals, List.append_nil]
    · refine ⟨fr, hlocal, _, Or.inr rfl, hboth.congr_of ?_⟩
      rintro ⟨htotals, -⟩
      rw [hnone htotals, List.nil_append]

/-- The lines of one of several streams. -/
theorem streamSummary_skipped (hr : Reported n isDown test) {sp : IperfStream}
    (hsp : sp ∈ test.streams) (a b : Timeval) {cmd : Iperf3Cmd} (hcmd : cmd.parallels ≠ 1) :
    Collects cmd (streamSummary env test (timevalDiff a b) sp)
      (((sentOf sp : ℚ) < 1024 ^ 4 ∧ (collect cmd (diskfileSummary env test sp)).isSome = true) ∧
        (isTcp test = true → (sp.result.bytesReceived : ℚ) < 1024 ^ 4))
      (fileAnswers env test cmd sp) := by
  obtain ⟨fs, -, -, rest, hfs, -, -, hsCollects⟩ := @sender_collects n isDown test env hr sp hsp a b
  have hsender := hsCollects cmd
  rw [@tagged_skipped fs sp.socket (by rw [hfs]; rfl) cmd hcmd, List.nil_append] at hsender
  unfold streamSummary
  cases htcp : isTcp test with
  | false =>
    rw [receiver_udp htcp, List.append_nil]
    exact hsender.congr (by simp) rfl
  | true =>
    obtain ⟨fr, -, rest', hfr, -, -, hrCollects⟩ := receiver_collects hr htcp hsp a b
    have hreceiver := hrCollects cmd
    rw [@tagged_skipped fr sp.socket (by rw [hfr]; rfl) cmd hcmd] at hreceiver
    exact (hsender.append hreceiver).congr (by simp) (by simp)

/-- What is summed is below every bound of the sum. -/
theorem le_total {α : Type} {l : List α} {a : α} (ha : a ∈ l) (amount : α → ℕ) {bound : ℚ}
    (h : ((l.map amount).sum : ℚ) < bound) : (amount a : ℚ) < bound := by
  have hle : amount a ≤ (l.map amount).sum := List.le_sum_of_mem (List.mem_map_of_mem ha)
  have hcast : (amount a : ℚ) ≤ ((l.map amount).sum : ℕ) := by exact_mod_cast hle
  exact lt_of_le_of_lt hcast h

/-- The bounds of the totals are bounds of every stream. -/
theorem TotalsFit.streams_iff (cmd : Iperf3Cmd) :
    ((∀ sp ∈ test.streams,
      ((sentOf sp : ℚ) < 1024 ^ 4 ∧ (collect cmd (diskfileSummary env test sp)).isSome = true) ∧
        (isTcp test = true → (sp.result.bytesReceived : ℚ) < 1024 ^ 4)) ∧ TotalsFit test) ↔
    (TotalsFit test ∧
      ∀ sp ∈ test.streams, (collect cmd (diskfileSummary env test sp)).isSome = true) := by
  constructor
  · rintro ⟨hall, htotal⟩
    exact ⟨htotal, fun sp hsp => (hall sp hsp).1.2⟩
  · rintro ⟨htotal, hfile⟩
    refine ⟨fun sp hsp => ⟨⟨le_total hsp sentOf htotal.sent, hfile sp hsp⟩, ?_⟩, htotal⟩
    intro htcp
    exact le_total hsp (fun sp => sp.result.bytesReceived) (htotal.received htcp)

/-- What the summary of a test is about when it has several streams. -/
structure Summed (env : ReportEnv) (test : IperfTest) (s : ResultSums) : Prop where
  time : ∃ a b, endTimeOf env test = timevalDiff a b
  sent : s.totalSent = (test.streams.map sentOf).sum
  received : s.totalReceived = (test.streams.map fun sp => sp.result.bytesReceived).sum
  packets : isTcp test = false → s.totalPackets = (test.streams.map packetsOf).sum
  rate : resultRate env test = totalRate (resultBytes test) (endTimeOf env test)
  ends : endOutputs env test = sumSummary test (endTimeOf env test) s
  outputs : resultOutputs env test =
    test.streams.flatMap (streamSummary env test (endTimeOf env test)) ++
      sumSummary test (endTimeOf env test) s

/-- The loop over the streams adds up what the sums of the summary are to be, its amounts, its
losses and its datagrams. -/
theorem summed_foldl (hr : Reported n isDown test) (hmany : 1 < test.numStreams) :
    Summed env test (test.streams.foldl (addResult test) {}) := by
  obtain ⟨hsent, hreceived, hpackets⟩ := addResult_totals test test.streams {}
  have hzero : ∀ k : ℕ, ({} : ResultSums).totalSent + k = k := Nat.zero_add
  have hzero' : ∀ k : ℕ, ({} : ResultSums).totalReceived + k = k := Nat.zero_add
  have hzero'' : ∀ k : ℤ, ({} : ResultSums).totalPackets + k = k := zero_add
  rw [hzero] at hsent
  rw [hzero'] at hreceived
  simp only [hzero''] at hpackets
  refine ⟨?_, hsent, hreceived, hpackets, ?_, ?_, ?_⟩
  · cases hs : test.streams with
    | nil =>
      have hlength := hr.streams
      rw [hs] at hlength
      simp only [List.length_nil, Nat.cast_zero] at hlength
      omega
    | cons first others =>
      refine ⟨first.result.startTime, first.result.endTime, ?_⟩
      unfold endTimeOf
      rw [hs]
  · unfold resultRate totalRate
    rw [if_neg (by omega)]
  · unfold endOutputs
    rw [if_pos hmany]
  · unfold resultOutputs
    rw [if_pos hmany]

/-- The summary of several streams is answered with the sum line of this end, while the lines
of the streams are passed over. -/
theorem result_several (hr : Reported n isDown test) (hmany : 1 < test.numStreams) :
    ∃ f, LocalLine env test f ∧
      Collects ⟨test.numStreams, test.reverse, 2⟩ (resultOutputs env test)
        (TotalsFit test ∧ ∀ sp ∈ test.streams,
          (collect ⟨test.numStreams, test.reverse, 2⟩ (diskfileSummary env test sp)).isSome = true)
        (test.streams.flatMap (fileAnswers env test ⟨test.numStreams, test.reverse, 2⟩) ++
          f.answer ⟨test.numStreams, test.reverse, 2⟩) := by
  have hsummed := @summed_foldl n isDown test env hr hmany
  obtain ⟨a, b, htime⟩ := hsummed.time
  have hne : (⟨test.numStreams, test.reverse, 2⟩ : Iperf3Cmd).parallels ≠ 1 := by
    dsimp only
    omega
  have hstream : ∀ sp ∈ test.streams, Collects ⟨test.numStreams, test.reverse, 2⟩
      (streamSummary env test (endTimeOf env test) sp)
      (((sentOf sp : ℚ) < 1024 ^ 4 ∧ (collect ⟨test.numStreams, test.reverse, 2⟩
        (diskfileSummary env test sp)).isSome = true) ∧
        (isTcp test = true → (sp.result.bytesReceived : ℚ) < 1024 ^ 4))
      (fileAnswers env test ⟨test.numStreams, test.reverse, 2⟩ sp) := by
    intro sp hsp
    rw [htime]
    exact streamSummary_skipped hr hsp a b hne
  have hfits := @TotalsFit.streams_iff test env ⟨test.numStreams, test.reverse, 2⟩
  obtain ⟨cs, rest, hrest, hsums⟩ := sumSummary_eq hr.unitFormat (endTimeOf env test)
    (test.streams.foldl (addResult test) {})
  have hs := endLine_sum hrest a b (test.streams.map sentOf).sum
  rw [← htime] at hs
  rw [hsummed.sent, hsummed.received] at hsums
  obtain ⟨fs, hfs⟩ : ∃ f, f = endFields sumTag (endTimeOf env test) (test.streams.map sentOf).sum
      (totalRate (test.streams.map sentOf).sum (endTimeOf env test)) rest := ⟨_, rfl⟩
  rw [← hfs] at hs hsums
  have hsFits : TotalsFit test → fs.amount < 1024 ^ 4 := by
    intro h
    rw [hs.amount_eq]
    exact h.sent
  have hsCounts : forStreams ⟨test.numStreams, test.reverse, 2⟩ (String.ofList fs.text) = true :=
    sum_counts (by rw [hfs]; rfl) (le_of_lt hmany)
  have hsCollects := (Collects.flatMap hstream).append
    (collects_summaryPart hs.formed cs mute_nil _)
  rw [hsummed.outputs]
  rcases hsums with ⟨hudp, hsums⟩ | ⟨htcp, cr, rest', hrest', hsums⟩
  · have hfirst : TotalsFit test → firstLine (endOutputs env test) = fs.text := by
      intro htotals
      rw [hsummed.ends, hsums, ← List.append_nil (summaryPart _ _ _)]
      exact firstLine_summaryPart (hsFits htotals) _ _ _
    have hiff : fs.amount < 1024 ^ 4 ↔ TotalsFit test := by
      refine ⟨?_, hsFits⟩
      rw [hs.amount_eq]
      intro hbound
      exact ⟨hbound, fun htcp => by rw [hudp] at htcp; cases htcp⟩
    refine ⟨fs, localLine_udp (fun amount => totalRate amount (endTimeOf env test)) hudp
      hsummed.rate hs (hsummed.packets hudp) hfirst hsCounts, ?_⟩
    rw [hsums]
    exact hsCollects.congr ((and_congr_right' hiff).trans hfits) rfl
  · have hrLine := endLine_sum hrest' a b (test.streams.map fun sp => sp.result.bytesReceived).sum
    rw [← htime] at hrLine
    obtain ⟨fr, hfr⟩ : ∃ f, f = endFields sumTag (endTimeOf env test)
        (test.streams.map fun sp => sp.result.bytesReceived).sum
        (totalRate (test.streams.map fun sp => sp.result.bytesReceived).sum (endTimeOf env test))
        rest' := ⟨_, rfl⟩
    rw [← hfr] at hrLine hsums
    have hrFits : TotalsFit test → fr.amount < 1024 ^ 4 := by
      intro h
      rw [hrLine.amount_eq]
      exact h.received htcp
    have hrCounts : forStreams ⟨test.numStreams, test.reverse, 2⟩ (String.ofList fr.text) = true :=
      sum_counts (by rw [hfr]; rfl) (le_of_lt hmany)
    have hfirst : TotalsFit test → firstLine (endOutputs env test) = fs.text := by
      intro htotals
      rw [hsummed.ends, hsums]
      exact firstLine_summaryPart (hsFits htotals) _ _ _
    have hlast : TotalsFit test → lastLine (endOutputs env test) = fr.text := by
      intro htotals
      rw [hsummed.ends, hsums]
      exact lastLine_summaryPart (hrFits htotals) _ _
    have hiff : fs.amount < 1024 ^ 4 ∧ fr.amount < 1024 ^ 4 ↔ TotalsFit test := by
      refine ⟨?_, fun h => ⟨hsFits h, hrFits h⟩⟩
      rw [hs.amount_eq, hrLine.amount_eq]
      rintro ⟨hsBound, hrBound⟩
      exact ⟨hsBound, fun _ => hrBound⟩
    have hboth := (hsCollects.append (collects_summaryPart hrLine.formed cr mute_nil
      ⟨test.numStreams, test.reverse, 2⟩)).congr
        (and_assoc.trans ((and_congr_right' hiff).trans hfits)) rfl
    rw [hsums, ← List.append_assoc]
    rcases localLine_tcp (fun amount => totalRate amount (endTimeOf env test)) htcp hsummed.rate hs
      hrLine hfirst hlast hsCounts hrCounts with ⟨hlocal, hnone⟩ | ⟨hlocal, hnone⟩
    · refine ⟨fs, hlocal, hboth.congr_of ?_⟩
      rintro ⟨htotals, -⟩
      rw [hnone htotals, List.append_nil]
    · refine ⟨fr, hlocal, hboth.congr_of ?_⟩
      rintro ⟨htotals, -⟩
      rw [hnone htotals, List.append_nil]

end Summary

end IperfRuntime.SummaryAnswers
