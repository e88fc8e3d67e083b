import IperfRuntime.CommandHistory
import IperfRuntime.PrintedReports

/-!
# Interval reports under the command parser

What `parseCallBack` makes of the lines of `iperf_print_intermediate`. The lines of the streams
are passed over when there is a sum line, and the last line is reported as one `onInterval` when
its times are below a hundred seconds, its amount below a tebibyte and its rate a number. The
reports of tests with a title, JSON output or the server's output are not spoken of.
-/

namespace IperfRuntime.IntervalAnswers

open ClockReading TestState PrintfText PrintedNumbers ReportOutput CommandParser ReportLines
  RateLines PrintedReports ArgumentWords CommandHistory EntryPointLimits

/-- The interval that a report is about. -/
def lastEntry (sp : IperfStream) : IperfIntervalResults :=
  sp.result.intervalResults.getLast?.getD {}

/-- The stream that times the lines. -/
def firstStream (test : IperfTest) : IperfStream := test.streams.headD {}

/-- Where the reported interval starts. -/
def intervalStart (test : IperfTest) : ℚ :=
  timevalDiff (firstStream test).result.startTime (lastEntry (firstStream test)).intervalStartTime

/-- Where it ends. -/
def intervalEnd (test : IperfTest) : ℚ :=
  timevalDiff (firstStream test).result.startTime (lastEntry (firstStream test)).intervalEndTime

/-- Whether it starts with the stream, which puts a title in front of its lines. -/
def opens (test : IperfTest) : Bool :=
  timevalEquals (firstStream test).result.startTime
    (lastEntry (firstStream test)).intervalStartTime

/-- The bytes of all streams in it. -/
def intervalBytes (test : IperfTest) : ℕ :=
  (test.streams.map fun sp => (lastEntry sp).bytesTransferred).sum

/-- The rate that is printed for them. -/
def intervalRate (test : IperfTest) : Dbl :=
  ratio (intervalBytes test) (lastEntry (firstStream test)).intervalDuration

/-- The text of the last line. -/
def lastLine (outs : List Output) : Text :=
  match outs.getLast? with
  | some (.line (some text)) => text
  | _ => []

/-- What is to be reported for an interval: the last of its lines, which is the sum line when
there are several streams. -/
def intervalAnswer (test : IperfTest) : Answer :=
  (lastLine (iperfPrintIntermediate test),
    .onInterval (shown (intervalStart test)) (shown (intervalEnd test))
      (unpadded (amountText (intervalBytes test)) ++ ['s'])
      (unpadded (megabitText (intervalRate test)) ++ lit "s/sec") test.reverse)

/-- A test with its streams, each of them with an interval that has its duration. -/
structure WithIntervals (test : IperfTest) : Prop where
  streams : (test.streams.length : ℤ) = test.numStreams
  sockets : ∀ sp ∈ test.streams, 0 ≤ sp.socket
  entries : ∀ sp ∈ test.streams, ∃ irp, sp.result.intervalResults.getLast? = some irp ∧
    irp.intervalDuration = timevalDiff irp.intervalStartTime irp.intervalEndTime ∧
    irp.sndCwnd < 2 ^ 31

/-- A test at one of its reports, with the parameters it was started with. -/
structure Reported (n : ℤ) (isDown : Bool) (test : IperfTest) : Prop extends
    WithIntervals test where
  numStreams : test.numStreams = n
  reverse : test.reverse = isDown
  jsonOutput : test.jsonOutput = false
  getServerOutput : test.getServerOutput = false
  unitFormat : test.settings.unitFormat = 'm'

/-- Rates of the reports: the clock counts microseconds, so a rate is a number of bounded size
unless no time has passed at all. -/
theorem rate_ratio {amount : ℕ} (h : (amount : ℚ) < 1024 ^ 4) (a b : Timeval) :
    Rate (ratio amount (timevalDiff a b)) := by
  unfold ratio
  split
  · split
    · exact Or.inr (Or.inr rfl)
    · exact Or.inr (Or.inl rfl)
  · rename_i hne
    have hnonneg := timevalDiff_nonneg a b
    have hpos : 0 < timevalDiff a b := lt_of_le_of_ne hnonneg (Ne.symm hne)
    have hmicro : timevalDiff a b * 1000000 =
        ((|(a.tvSec - b.tvSec) * 1000000 + (a.tvUsec - b.tvUsec)| : ℤ) : ℚ) := by
      rw [timevalDiff_eq_abs]
      push_cast
      have hscale : (1000000 : ℚ) = |1000000| := (abs_of_pos (by norm_num)).symm
      conv_lhs => rw [hscale, ← abs_mul]
      congr 1
      unfold Timeval.seconds
      ring
    have hleast : (1 : ℚ) ≤ timevalDiff a b * 1000000 := by
      have hgt : (0 : ℚ) < timevalDiff a b * 1000000 := by positivity
      rw [hmicro] at hgt ⊢
      have hint : 0 < |(a.tvSec - b.tvSec) * 1000000 + (a.tvUsec - b.tvUsec)| := by
        exact_mod_cast hgt
      exact_mod_cast hint
    refine Or.inl ⟨_, rfl, by positivity, ?_⟩
    rw [div_lt_iff₀ hpos]
    have hbig : (1024 ^ 4 : ℚ) ≤ 10 ^ 24 * timevalDiff a b := by nlinarith
    linarith

/-- A rate is a number exactly if the interval has a duration. -/
theorem isNumber_ratio (amount : ℕ) (duration : ℚ) :
    isNumber (ratio amount duration) = true ↔ duration ≠ 0 := by
  unfold ratio
  split
  · rename_i h
    split
    · simp [isNumber, h]
    · simp [isNumber, h]
  · rename_i h
    simp [isNumber, h]

/-- The note on omitted seconds is spelled in the letters of a line's rest. -/
theorem spelled_note (omitted : Bool) : Spelled restLetters (omittedNote omitted) := by
  cases omitted with
  | false => decide
  | true => decide

/-- So are jitter and losses. -/
theorem spelled_udpRest (jitterMs : ℚ) (lost total : ℤ) (lostPercent : ℚ) {note : Text}
    (h : Spelled restLetters note) :
    Spelled restLetters (udpRest jitterMs lost total lostPercent note) := by
  have hjitter := spelled_padLeft (spelled_fixedText restLetters 3 jitterMs) 5
  have hlost := spelled_intText restLetters lost
  have htotal := spelled_intText restLetters total
  have hpercent := spelled_generalText restLetters lostPercent
  have hblanks : Spelled restLetters (lit "  ") := by decide
  have hunit : Spelled restLetters (lit " ms  ") := by decide
  have hopen : Spelled restLetters (lit " (") := by decide
  have hclose : Spelled restLetters (lit "%)  ") := by decide
  have hslash : allowed restLetters '/' = true := by decide
  unfold udpRest
  exact (((((((hblanks.append hjitter).append hunit).append hlost).append
    (Spelled.cons hslash htotal)).append hopen).append hpercent).append hclose).append h

/-- The line of a stream. -/
def streamFields (sp : IperfStream) (rest : Text) : RateFields where
  tag := idTag sp.socket
  start := timevalDiff sp.result.startTime (lastEntry sp).intervalStartTime
  finish := timevalDiff sp.result.startTime (lastEntry sp).intervalEndTime
  amount := (lastEntry sp).bytesTransferred
  rate := ratio (lastEntry sp).bytesTransferred (lastEntry sp).intervalDuration
  rest := rest

/-- The tag of a stream has no dash in it. -/
theorem dash_not_mem_idTag {socket : ℤ} (h : 0 ≤ socket) : '-' ∉ idTag socket := by
  unfold idTag
  refine not_mem_padLeft (by decide) ?_ 3
  unfold intText
  rw [if_neg (not_lt.mpr h)]
  intro hc
  exact absurd (digits_natText _ _ hc) (by decide)

/-- The last entry of a stream is the one that was recorded last. -/
theorem lastEntry_eq {sp : IperfStream} {irp : IperfIntervalResults}
    (h : sp.result.intervalResults.getLast? = some irp) : lastEntry sp = irp := by
  unfold lastEntry
  rw [h]
  rfl

section Interval

variable {n : ℤ} {isDown : Bool} {test : IperfTest}

/-- The line of a stream in an interval is well formed. -/
theorem formed_streamFields (hr : Reported n isDown test) {sp : IperfStream}
    (hsp : sp ∈ test.streams) {rest : Text} (hrest : Spelled restLetters rest) :
    Formed (streamFields sp rest) := by
  obtain ⟨irp, hirp, hduration, -⟩ := hr.entries sp hsp
  have hlast := lastEntry_eq hirp
  refine ⟨spelled_idTag _ _, dash_not_mem_idTag (hr.sockets sp hsp), timevalDiff_nonneg _ _,
    timevalDiff_nonneg _ _, Nat.cast_nonneg _, ?_, hrest⟩
  intro hamount
  change Rate (ratio (lastEntry sp).bytesTransferred (lastEntry sp).intervalDuration)
  rw [hlast, hduration, ← hlast]
  exact rate_ratio hamount _ _

/-- The callback of `print_interval_results`. -/
def intervalCallback (test : IperfTest) (sp : IperfStream) : List Output :=
  callIf (test.jniCallback && test.numStreams == 1)
    (.onInterval (timevalDiff sp.result.startTime (lastEntry sp).intervalStartTime)
      (timevalDiff sp.result.startTime (lastEntry sp).intervalEndTime)
      (unitSnprintf (.finite (lastEntry sp).bytesTransferred) 'A')
      (unitSnprintf (ratio (lastEntry sp).bytesTransferred (lastEntry sp).intervalDuration) 'm'))

/-- The callback behind it prints no line. -/
theorem mute_intervalCallback (test : IperfTest) (sp : IperfStream) :
    Mute (intervalCallback test sp) := by
  refine mute_call ?_ _
  intro text h
  cases h

/-- What `print_interval_results` prints for a stream: the title in front of the first one,
the callback of a single stream, and one line. -/
theorem printIntervalResults_eq (hr : Reported n isDown test) {sp : IperfStream}
    (hsp : sp ∈ test.streams) (first : Bool) :
    ∃ rest, Spelled restLetters rest ∧ printIntervalResults test first sp =
      (if first then intervalHeader test sp (lastEntry sp) else []) ++
        (intervalCallback test sp ++ [.line (streamFields sp rest).printed]) := by
  obtain ⟨irp, hirp, -, hcwnd⟩ := hr.entries sp hsp
  have hlast := lastEntry_eq hirp
  have hnote := spelled_note irp.omitted
  have hbuf : ((irp.sndCwnd : ℤ) : ℚ) < 1024 ^ 4 := by
    have hint : (irp.sndCwnd : ℚ) < 2 ^ 31 := by exact_mod_cast hcwnd
    linarith
  have hblanks : Spelled restLetters (lit "  ") := by decide
  unfold printIntervalResults
  rw [hirp]
  dsimp only
  rw [if_neg (by rw [hr.jsonOutput]; decide), hr.unitFormat, ← hlast]
  by_cases htcp : isTcp test = true
  · rw [if_pos htcp]
    by_cases hretrans : countsRetrans test = true
    · rw [if_pos hretrans]
      refine ⟨lit "  " ++ padLeft 3 (unsignedText irp.intervalRetrans) ++ lit "   " ++
        amountText irp.sndCwnd ++ lit "s       " ++ omittedNote irp.omitted, ?_, ?_⟩
      · have hcount := spelled_padLeft (spelled_unsignedText restLetters irp.intervalRetrans) 3
        have hgap : Spelled restLetters (lit "   ") := by decide
        have hunit : Spelled restLetters (lit "s       ") := by decide
        have hcwndText : Spelled restLetters (amountText irp.sndCwnd) :=
          (spelled_byteText (amountText_eq hbuf)).mono (by decide)
        exact ((((hblanks.append hcount).append hgap).append hcwndText).append hunit).append hnote
      · unfold reportBwRetransCwndFormat
        rw [hlast, amountText_eq hbuf, List.append_assoc, ← hlast]
        rfl
    · rw [if_neg hretrans]
      have hgap : Spelled restLetters (lit "                  ") := by decide
      refine ⟨lit "                  " ++ omittedNote irp.omitted, hgap.append hnote, ?_⟩
      rw [List.append_assoc, ← hlast]
      rfl
  · rw [if_neg htcp]
    by_cases hsender : test.sender = true
    · rw [if_pos hsender]
      refine ⟨lit "  " ++ intText irp.intervalPacketCount ++ lit "  " ++ omittedNote irp.omitted,
        ((hblanks.append (spelled_intText _ _)).append hblanks).append hnote, ?_⟩
      rw [List.append_assoc, ← hlast]
      rfl
    · rw [if_neg hsender]
      refine ⟨_, spelled_udpRest (irp.jitter * 1000) irp.intervalCntError irp.intervalPacketCount
        (lostPercentOf irp.intervalCntError irp.intervalPacketCount) hnote, ?_⟩
      rw [List.append_assoc, ← hlast]
      rfl

/-- The lines of the streams, behind the first one. -/
theorem printStreams_false (test : IperfTest) {streams : List IperfStream}
    (h : ∀ sp ∈ streams, ∃ irp, sp.result.intervalResults.getLast? = some irp) (s : IntervalSums) :
    ∃ s', printStreams test false streams s =
        (streams.flatMap (printIntervalResults test false), some s') ∧
      s'.bytes = s.bytes + (streams.map fun sp => (lastEntry sp).bytesTransferred).sum := by
  induction streams generalizing s with
  | nil => exact ⟨s, rfl, rfl⟩
  | cons sp streams ih =>
    obtain ⟨irp, hirp⟩ := h sp List.mem_cons_self
    obtain ⟨s', hprint, hbytes⟩ := ih (fun t ht => h t (List.mem_cons_of_mem _ ht))
      (addInterval test s irp)
    refine ⟨s', ?_, ?_⟩
    · unfold printStreams
      rw [hirp]
      dsimp only
      rw [hprint]
      rfl
    · have hadd : (addInterval test s irp).bytes = s.bytes + irp.bytesTransferred := by
        unfold addInterval
        split
        · rfl
        · rfl
      rw [hbytes, hadd, List.map_cons, List.sum_cons, lastEntry_eq hirp]
      omega

/-- The report of an interval is made of the lines of its streams and, with several of them,
of the line of their sum. -/
theorem intermediate_streams (hr : Reported n isDown test) {sp : IperfStream}
    {rest : List IperfStream} (hstreams : test.streams = sp :: rest) :
    ∃ s, s.bytes = intervalBytes test ∧ iperfPrintIntermediate test =
      printIntervalResults test true sp ++ (rest.flatMap (printIntervalResults test false) ++
        if 1 < test.numStreams then intervalSum test sp (lastEntry sp) s else []) := by
  have hsome : ∀ t ∈ sp :: rest, ∃ irp, t.result.intervalResults.getLast? = some irp := by
    intro t ht
    obtain ⟨irp, hirp, -⟩ := hr.entries t (by rw [hstreams]; exact ht)
    exact ⟨irp, hirp⟩
  obtain ⟨irp, hirp⟩ := hsome sp List.mem_cons_self
  obtain ⟨s, hprint, hbytes⟩ := printStreams_false test
    (fun t ht => hsome t (List.mem_cons_of_mem _ ht)) (addInterval test {} irp)
  have hall : printStreams test true (sp :: rest) {} =
      (printIntervalResults test true sp ++ rest.flatMap (printIntervalResults test false),
        some s) := by
    unfold printStreams
    rw [hirp]
    dsimp only
    rw [hprint]
  refine ⟨s, ?_, ?_⟩
  · have hadd : (addInterval test {} irp).bytes = irp.bytesTransferred := by
      unfold addInterval
      split
      · exact Nat.zero_add _
      · exact Nat.zero_add _
    unfold intervalBytes
    rw [hbytes, hadd, hstreams, List.map_cons, List.sum_cons, lastEntry_eq hirp]
  · unfold iperfPrintIntermediate
    rw [hstreams, hall]
    dsimp only
    rw [hirp, lastEntry_eq hirp]
    by_cases hmany : 1 < test.numStreams
    · rw [if_pos ⟨hmany, hr.jsonOutput⟩, if_pos hmany]
      dsimp only
      rw [List.append_assoc]
    · rw [if_neg fun h => hmany h.1, if_neg hmany, List.append_nil]

/-- The sum line. -/
def sumFields (sp : IperfStream) (amount : ℕ) (rest : Text) : RateFields where
  tag := sumTag
  start := timevalDiff sp.result.startTime (lastEntry sp).intervalStartTime
  finish := timevalDiff sp.result.startTime (lastEntry sp).intervalEndTime
  amount := amount
  rate := ratio amount (lastEntry sp).intervalDuration
  rest := rest

/-- The line of the sum is well formed. -/
theorem formed_sumFields (hr : Reported n isDown test) {sp : IperfStream}
    (hsp : sp ∈ test.streams) (amount : ℕ) {rest : Text} (hrest : Spelled restLetters rest) :
    Formed (sumFields sp amount rest) := by
  obtain ⟨irp, hirp, hduration, -⟩ := hr.entries sp hsp
  have hlast := lastEntry_eq hirp
  have htag : Spelled headLetters sumTag := by decide
  have hdash : '-' ∉ sumTag := by decide
  refine ⟨htag, hdash, timevalDiff_nonneg _ _, timevalDiff_nonneg _ _, Nat.cast_nonneg _, ?_,
    hrest⟩
  intro hamount
  change Rate (ratio amount (lastEntry sp).intervalDuration)
  rw [hlast, hduration, ← hlast]
  exact rate_ratio hamount _ _

/-- The callback for a sum line. -/
def sumCallback (test : IperfTest) (sp : IperfStream) (amount : ℕ) : List Output :=
  callIf test.jniCallback
    (.onInterval (timevalDiff sp.result.startTime (lastEntry sp).intervalStartTime)
      (timevalDiff sp.result.startTime (lastEntry sp).intervalEndTime)
      (unitSnprintf (.finite amount) 'A')
      (unitSnprintf (ratio amount (lastEntry sp).intervalDuration) 'm'))

/-- The callback of the sum prints no line either. -/
theorem mute_sumCallback (test : IperfTest) (sp : IperfStream) (amount : ℕ) :
    Mute (sumCallback test sp amount) := by
  refine mute_call ?_ _
  intro text h
  cases h

/-- The sum of an interval is its callback and its line, whose rest depends on the protocol
and on the direction. -/
theorem intervalSum_eq (hr : Reported n isDown test) (sp : IperfStream) (s : IntervalSums) :
    ∃ rest, Spelled restLetters rest ∧ intervalSum test sp (lastEntry sp) s =
      sumCallback test sp s.bytes ++ [.line (sumFields sp s.bytes rest).printed] := by
  have hblanks : Spelled restLetters (lit "  ") := by decide
  unfold intervalSum
  dsimp only
  rw [hr.unitFormat]
  by_cases htcp : isTcp test = true
  · rw [if_pos htcp]
    by_cases hretrans : countsRetrans test = true
    · rw [if_pos hretrans]
      have hgap : Spelled restLetters (lit "             ") := by decide
      have hcount := spelled_padLeft (spelled_intText restLetters s.retransmits) 3
      exact ⟨_, ((hblanks.append hcount).append hgap).append (spelled_note _), rfl⟩
    · rw [if_neg hretrans]
      have hgap : Spelled restLetters (lit "                  ") := by decide
      exact ⟨_, hgap.append (spelled_note _), rfl⟩
  · rw [if_neg htcp]
    by_cases hsender : test.sender = true
    · rw [if_pos hsender]
      exact ⟨_, ((hblanks.append (spelled_intText _ s.totalPackets)).append hblanks).append
        (spelled_note _), rfl⟩
    · rw [if_neg hsender]
      exact ⟨_, spelled_udpRest (s.avgJitter / test.numStreams * 1000) s.lostPackets s.totalPackets
        (lostPercentOf s.lostPackets s.totalPackets) (spelled_note _), rfl⟩

/-- A stream's line does not count among several. -/
theorem tagged_counts {f : RateFields} {socket : ℤ} (h : f.tag = idTag socket) (cmd : Iperf3Cmd) :
    forStreams cmd (String.ofList f.text) = decide (cmd.parallels = 1) := by
  have hline : f.text = '[' :: idTag socket ++
      (lit "] " ++ padLeft 6 (fixedText 2 f.start) ++ '-' :: padRight 6 (fixedText 2 f.finish) ++
        lit " sec  " ++ amountText f.amount ++ lit "s  " ++ megabitText f.rate ++ lit "s/sec" ++
        f.rest) := by
    simp [RateFields.text, reportHead, h]
  rw [hline]
  exact forStreams_id cmd socket _

/-- The line of a single stream is skipped by a command with several. -/
theorem tagged_skipped {f : RateFields} {socket : ℤ} (h : f.tag = idTag socket) {cmd : Iperf3Cmd}
    (hcmd : cmd.parallels ≠ 1) : f.answer cmd = [] := by
  refine answer_skipped ?_
  rw [tagged_counts h, decide_eq_false hcmd]

/-- A sum line always counts. -/
theorem sum_counts {f : RateFields} (h : f.tag = sumTag) {cmd : Iperf3Cmd}
    (hcmd : 1 ≤ cmd.parallels) : forStreams cmd (String.ofList f.text) = true := by
  unfold RateFields.text
  rw [h]
  exact forStreams_sum cmd hcmd _ _ _

/-- The lines of the streams are passed over when there are several. -/
theorem streams_skipped (hr : Reported n isDown test) {streams : List IperfStream}
    (hsub : ∀ sp ∈ streams, sp ∈ test.streams) (hn : n ≠ 1) :
    Untitled (streams.flatMap (printIntervalResults test false)) ∧
      ∀ cmd : Iperf3Cmd, cmd.parallels = n →
        Collects cmd (streams.flatMap (printIntervalResults test false))
          (∀ sp ∈ streams, ((lastEntry sp).bytesTransferred : ℚ) < 1024 ^ 4) [] := by
  constructor
  · refine Untitled.flatMap ?_
    intro sp hsp
    obtain ⟨rest, hrest, hprint⟩ := printIntervalResults_eq hr (hsub sp hsp) false
    rw [hprint]
    exact untitled_nil.append ((mute_intervalCallback test sp).1.append
      (untitled_rate (formed_streamFields hr (hsub sp hsp) hrest)))
  · intro cmd hcmd
    have hstream : ∀ sp ∈ streams, Collects cmd (printIntervalResults test false sp)
        (((lastEntry sp).bytesTransferred : ℚ) < 1024 ^ 4) [] := by
      intro sp hsp
      obtain ⟨rest, hrest, hprint⟩ := printIntervalResults_eq hr (hsub sp hsp) false
      rw [hprint]
      have hline := collects_rate (formed_streamFields hr (hsub sp hsp) hrest) cmd
      rw [tagged_skipped rfl (by rw [hcmd]; exact hn)] at hline
      exact ((collects_nil cmd).append (((mute_intervalCallback test sp).2 cmd).append hline)).congr
        (by simp [streamFields]) rfl
    exact (Collects.flatMap hstream).congr Iff.rfl (by simp)

/-- The lines of an interval, split at the one that counts. -/
structure IntervalBlock (test : IperfTest) (before : List Output) (f : RateFields) : Prop where
  outputs : iperfPrintIntermediate test =
    intervalHeader test (firstStream test) (lastEntry (firstStream test)) ++
      (before ++ [.line f.printed])
  formed : Formed f
  start : f.start = intervalStart test
  finish : f.finish = intervalEnd test
  amount : f.amount = intervalBytes test
  rate : f.rate = intervalRate test
  counts : ∀ cmd : Iperf3Cmd, cmd.parallels = test.numStreams →
    forStreams cmd (String.ofList f.text) = true
  untitled : Untitled before
  passed : ∀ cmd : Iperf3Cmd, cmd.parallels = test.numStreams →
    Collects cmd (before ++ [.line f.printed]) ((intervalBytes test : ℚ) < 1024 ^ 4) (f.answer cmd)

/-- A test that reports has a first stream, and its other streams are one fewer than the test asks
for. -/
theorem exists_first (hr : Reported n isDown test) (hn : 1 ≤ test.numStreams) :
    ∃ sp rest, test.streams = sp :: rest ∧ firstStream test = sp ∧
      test.numStreams = (rest.length : ℤ) + 1 := by
  have hlength := hr.streams
  unfold firstStream
  cases hs : test.streams with
  | nil =>
    rw [hs] at hlength
    simp only [List.length_nil, Nat.cast_zero] at hlength
    omega
  | cons sp rest =>
    rw [hs, List.length_cons] at hlength
    push_cast at hlength
    exact ⟨sp, rest, rfl, rfl, by omega⟩

/-- With one stream the line that counts is that of the stream, whose amount is that of the
interval. -/
theorem intervalBlock_single (hr : Reported n isDown test) (hone : test.numStreams = 1) :
    ∃ before f, IntervalBlock test before f := by
  obtain ⟨sp, rest, hstreams, hfirst, hlength⟩ := exists_first hr hone.ge
  have hrest : rest = [] := by
    rw [← List.length_eq_zero_iff]
    omega
  rw [hrest] at hstreams
  have hsp : sp ∈ test.streams := by simp [hstreams]
  have hall : intervalBytes test = (lastEntry sp).bytesTransferred := by
    simp [intervalBytes, hstreams]
  obtain ⟨s, -, hprint⟩ := intermediate_streams hr hstreams
  obtain ⟨tail, htail, hhead⟩ := printIntervalResults_eq hr hsp true
  have hformed := formed_streamFields hr hsp htail
  refine ⟨intervalCallback test sp, streamFields sp tail, ?_, hformed, ?_, ?_, ?_, ?_, ?_,
    (mute_intervalCallback test sp).1, ?_⟩
  · have hnot : ¬1 < test.numStreams := by omega
    rw [hprint, hhead, hfirst, if_neg hnot]
    simp
  · rw [intervalStart, hfirst]
    rfl
  · rw [intervalEnd, hfirst]
    rfl
  · rw [hall]
    rfl
  · rw [intervalRate, hfirst, hall]
    rfl
  · intro cmd hcmd
    rw [@tagged_counts (streamFields sp tail) sp.socket rfl, hcmd, decide_eq_true hone]
  · intro cmd _
    rw [hall]
    exact (((mute_intervalCallback test sp).2 cmd).append (collects_rate hformed cmd)).congr
      (by simp [streamFields]) rfl

/-- An amount of all streams that is below a tebibyte leaves none of them above it. -/
theorem amounts_lt (hfits : (intervalBytes test : ℚ) < 1024 ^ 4) {sp : IperfStream}
    (hsp : sp ∈ test.streams) : ((lastEntry sp).bytesTransferred : ℚ) < 1024 ^ 4 := by
  have hle : (lastEntry sp).bytesTransferred ≤ intervalBytes test :=
    List.le_sum_of_mem (List.mem_map_of_mem hsp)
  have hcast : ((lastEntry sp).bytesTransferred : ℚ) ≤ intervalBytes test := by exact_mod_cast hle
  linarith

/-- With several streams it is that of the sum; the lines of the streams, which have a number for
a tag, are passed over. -/
theorem intervalBlock_several (hr : Reported n isDown test) (hmany : 1 < test.numStreams) :
    ∃ before f, IntervalBlock test before f := by
  obtain ⟨sp, rest, hstreams, hfirst, -⟩ := exists_first hr hmany.le
  have hsp : sp ∈ test.streams := by simp [hstreams]
  have hsub : ∀ t ∈ rest, t ∈ test.streams := fun t ht => by simp [hstreams, ht]
  have hne : test.numStreams ≠ 1 := by omega
  obtain ⟨s, hbytes, hprint⟩ := intermediate_streams hr hstreams
  obtain ⟨tail, htail, hhead⟩ := printIntervalResults_eq hr hsp true
  have hformed := formed_streamFields hr hsp htail
  obtain ⟨rest', hrest', hsum⟩ := intervalSum_eq hr sp s
  rw [hbytes] at hsum
  have hsumFormed := formed_sumFields hr hsp (intervalBytes test) hrest'
  obtain ⟨huntitled, hskipped⟩ := streams_skipped hr hsub (by rw [← hr.numStreams]; exact hne)
  refine ⟨intervalCallback test sp ++ [.line (streamFields sp tail).printed] ++
    rest.flatMap (printIntervalResults test false) ++ sumCallback test sp (intervalBytes test),
    sumFields sp (intervalBytes test) rest', ?_, hsumFormed, ?_, ?_, rfl, ?_, ?_, ?_, ?_⟩
  · rw [hprint, hhead, hfirst, if_pos hmany, hsum]
    simp
  · rw [intervalStart, hfirst]
    rfl
  · rw [intervalEnd, hfirst]
    rfl
  · rw [intervalRate, hfirst]
    rfl
  · intro cmd hcmd
    exact sum_counts rfl (by omega)
  · exact (((mute_intervalCallback test sp).1.append (untitled_rate hformed)).append
      huntitled).append (mute_sumCallback test sp _).1
  · intro cmd hcmd
    have hline := collects_rate hformed cmd
    rw [tagged_skipped rfl (by rw [hcmd]; exact hne)] at hline
    have hstreamsLines := hskipped cmd (by rw [hcmd, hr.numStreams])
    refine ((((((mute_intervalCallback test sp).2 cmd).append hline).append
      hstreamsLines).append ((mute_sumCallback test sp (intervalBytes test)).2 cmd)).append
      (collects_rate hsumFormed cmd)).congr ?_ rfl
    constructor
    · rintro ⟨-, hfits⟩
      exact hfits
    · intro hfits
      exact ⟨⟨⟨⟨trivial, amounts_lt hfits hsp⟩, fun t ht => amounts_lt hfits (hsub t ht)⟩,
        trivial⟩, hfits⟩

/-- What is printed for an interval is a block with one line that counts: the line of the only
stream, or the sum. -/
theorem intervalBlock (hr : Reported n isDown test) (hn : 1 ≤ n) :
    ∃ before f, IntervalBlock test before f := by
  by_cases hone : test.numStreams = 1
  · exact intervalBlock_single hr hone
  · have hnum := hr.numStreams
    exact intervalBlock_several hr (by omega)

/-- A title is counted. -/
theorem header_line_fed {text : Text} (htext : text ∈ headers) (cmd : Iperf3Cmd) :
    feedOutputs [.line (some text)] cmd =
      some ([], { cmd with titleCnt := cmd.titleCnt + 1 }) := by
  have hbreaks : ∀ text ∈ headers, '\n' ∉ text ∧ '\r' ∉ text := by decide
  obtain ⟨hreports, hcount⟩ := lineReports_header htext cmd
  obtain ⟨hn, hr⟩ := hbreaks text htext
  unfold feedOutputs
  simp only [printed, Option.bind_some, Option.map_some, List.append_nil]
  rw [textLines_plain hn hr]
  unfold feed
  rw [hreports, hcount]
  rfl

/-- The title in front of an interval is passed over; it moves the parser's count of titles by
one. -/
theorem header_fed (test : IperfTest) (cmd : Iperf3Cmd) :
    feedOutputs (intervalHeader test (firstStream test) (lastEntry (firstStream test))) cmd =
      some ([], { cmd with titleCnt := cmd.titleCnt + if opens test then 1 else 0 }) := by
  unfold intervalHeader opens
  by_cases hopens : timevalEquals (firstStream test).result.startTime
      (lastEntry (firstStream test)).intervalStartTime = true
  · rw [if_pos hopens, if_pos hopens]
    by_cases htcp : isTcp test = true
    · rw [if_pos htcp]
      refine header_line_fed ?_ cmd
      split
      · simp [headers]
      · simp [headers]
    · rw [if_neg htcp]
      refine header_line_fed ?_ cmd
      split
      · simp [headers]
      · simp [headers]
  · rw [if_neg hopens, if_neg hopens, Nat.add_zero]
    split
    · have hmute : Mute [.line (some reportBwSeparator)] :=
        mute_line (by decide) (by decide) (by decide) (by decide) (by decide)
      rw [feedOutputs_untitled hmute.1, (hmute.2 cmd []).mpr ⟨trivial, rfl⟩]
      rfl
    · rfl

/-- An interval whose lines can be read back. -/
structure IntervalShown (test : IperfTest) : Prop where
  amount : (intervalBytes test : ℚ) < 1024 ^ 4
  start : intervalStart test < 99.995
  finish : intervalEnd test < 99.995
  duration : (lastEntry (firstStream test)).intervalDuration ≠ 0

/-- The last line of a text that ends in a line is that line. -/
theorem lastLine_append (a b : List Output) (text : Text) :
    lastLine (a ++ (b ++ [.line (some text)])) = text := by
  unfold lastLine
  rw [← List.append_assoc, List.getLast?_concat]

/-- An interval is reported as it was printed when it can be read back and one title has
been printed. -/
theorem interval_fed (hr : Reported n isDown test) (hn : 1 ≤ n) {cmd c : Iperf3Cmd}
    (hparallels : cmd.parallels = n) (hdown : cmd.isDown = isDown) :
    feedOutputs (iperfPrintIntermediate test) cmd = some ([intervalAnswer test], c) ↔
      IntervalShown test ∧ (cmd.titleCnt + if opens test then 1 else 0) = 1 ∧
        c = { cmd with titleCnt := 1 } := by
  obtain ⟨before, f, hb⟩ := intervalBlock hr hn
  have hsame : ∀ k : ℕ, ({ cmd with titleCnt := k } : Iperf3Cmd).parallels = test.numStreams := by
    intro k
    rw [hr.numStreams]
    exact hparallels
  generalize hk : (cmd.titleCnt + if opens test then 1 else 0) = k
  have hrun : feedOutputs (iperfPrintIntermediate test) cmd =
      (collect { cmd with titleCnt := k } (before ++ [.line f.printed])).map
        fun answers => (answers, { cmd with titleCnt := k }) := by
    rw [hb.outputs, feedOutputs_append, header_fed, hk]
    dsimp only [Option.bind_some]
    rw [feedOutputs_untitled (hb.untitled.append (untitled_rate hb.formed)), Option.map_map]
    congr 1
  have hcollect := hb.passed { cmd with titleCnt := k } (hsame k)
  have hanswer := answer_interval_iff hb.formed (hb.counts _ (hsame k))
  have hcall : f.interval isDown = (intervalAnswer test).2 := by
    unfold RateFields.interval intervalAnswer
    rw [hb.start, hb.finish, hb.amount, hb.rate, hr.reverse]
  have hnumber : isNumber f.rate = true ↔ (lastEntry (firstStream test)).intervalDuration ≠ 0 := by
    rw [hb.rate]
    exact isNumber_ratio _ _
  rw [hb.start, hb.finish, hnumber] at hanswer
  have htext : (intervalBytes test : ℚ) < 1024 ^ 4 →
      [intervalAnswer test] = [(f.text, f.interval isDown)] := by
    intro hfits
    have hline : lastLine (iperfPrintIntermediate test) = f.text := by
      rw [hb.outputs, printed_eq, hb.amount, if_pos hfits]
      exact lastLine_append _ _ _
    rw [hcall, ← hline]
    rfl
  rw [hrun, Option.map_eq_some_iff]
  constructor
  · rintro ⟨answers, hanswers, heq⟩
    obtain ⟨rfl, rfl⟩ := Prod.mk.inj heq
    obtain ⟨hfits, hvalue⟩ := (hcollect _).mp hanswers
    rw [htext hfits] at hvalue
    obtain ⟨hone, hstart, hfinish, hduration⟩ := hanswer.mp (by rw [← hvalue, ← hdown])
    exact ⟨⟨hfits, hstart, hfinish, hduration⟩, hone, by rw [show k = 1 from hone]⟩
  · rintro ⟨hshown, rfl, rfl⟩
    refine ⟨_, (hcollect _).mpr ⟨hshown.amount, ?_⟩, rfl⟩
    rw [htext hshown.amount, ← hdown]
    exact (hanswer.mpr ⟨rfl, hshown.start, hshown.finish, hshown.duration⟩).symm

end Interval

end IperfRuntime.IntervalAnswers
