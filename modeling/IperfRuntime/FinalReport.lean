import IperfRuntime.IntervalWindows
import IperfRuntime.StreamRecords

/-!
# The times of the final report

`iperf_print_results` with the document that it builds under `-J`, and the variable
`end_time`: assigned where there is a first stream, and used also by the totals. A run that
is broken off reports before there is a stream, or before there is an interval. The
processor figures are whatever the test holds: nothing here computes them.
-/

namespace IperfRuntime.FinalReport

open ClockReading TestState PrintfText ReportOutput IntervalStats IntervalWindows JsonTree
  ResultsExchange ClientTimers ClientRun ClientLoop StreamRecords

/-- A value that `iperf_json_printf` takes. -/
inductive JsonValue where
  /-- `%d`. -/
  | int (n : ℤ)
  /-- `%f`. -/
  | real (x : Dbl)
  /-- `%s`. -/
  | text (s : Option String)
  deriving DecidableEq

/-- What `iperf_json_printf` builds. -/
abbrev JsonEntry := List (String × JsonValue)

/-- `(int64_t)` of an unsigned 64 bit counter. -/
def int64 (n : ℕ) : ℤ := (n : ℤ).bmod (2 ^ 64)

/-- The members that every entry starts with behind the socket. -/
def spanEntry (endTime : ℚ) (bytes : ℕ) (rate : Dbl) : JsonEntry :=
  [("start", .real (.finite 0)), ("end", .real (.finite endTime)),
    ("seconds", .real (.finite endTime)), ("bytes", .int (int64 bytes)),
    ("bits_per_second", .real (rate.scale 8))]

/-- The mean round trip time as the report divides it. -/
def meanRtt (rp : IperfStreamResult) : ℤ :=
  if rp.streamCountRtt = 0 then 0 else rp.streamSumRtt.tdiv rp.streamCountRtt

/-- `"sender"`. -/
def senderEntry (test : IperfTest) (endTime : ℚ) (sp : IperfStream) : JsonEntry :=
  ("socket", .int sp.socket) :: spanEntry endTime (sentOf sp) (ratio (sentOf sp) endTime) ++
    if test.senderHasRetransmits ≠ 0 then
      [("retransmits", .int sp.result.streamRetrans),
        ("max_snd_cwnd", .int sp.result.streamMaxSndCwnd),
        ("max_rtt", .int sp.result.streamMaxRtt), ("min_rtt", .int sp.result.streamMinRtt),
        ("mean_rtt", .int (meanRtt sp.result))]
    else []

/-- `"udp"`. -/
def udpEntry (endTime : ℚ) (sp : IperfStream) : JsonEntry :=
  ("socket", .int sp.socket) :: spanEntry endTime (sentOf sp) (ratio (sentOf sp) endTime) ++
    [("jitter_ms", .real (.finite (sp.jitter * 1000))), ("lost_packets", .int (lossesOf sp)),
      ("packets", .int (packetsOf sp)),
      ("lost_percent", .real (.finite (lostPercentOf (lossesOf sp) (packetsOf sp)))),
      ("out_of_order", .int (outoforderOf sp))]

/-- `"receiver"`. -/
def receiverEntry (endTime : ℚ) (sp : IperfStream) : JsonEntry :=
  ("socket", .int sp.socket) ::
    spanEntry endTime sp.result.bytesReceived (ratio sp.result.bytesReceived endTime)

/-- `"diskfile"`. -/
def diskfileEntry (env : ReportEnv) (test : IperfTest) (sp : IperfStream) :
    List (String × JsonEntry) :=
  if sp.diskfileFd < 0 then []
  else
    match env.fstat sp.diskfileFd with
    | none => []
    | some size =>
      let percent := match (ratio (sentOf sp) size).scale 100 with
        | .finite q => if 0 ≤ q then ⌊q⌋ else ⌈q⌉
        | d => env.intOf d
      [("diskfile", [("sent", .int (int64 (sentOf sp))), ("size", .int size),
        ("percent", .int percent), ("filename", .text test.diskfileName)])]

/-- A member of `"streams"`. -/
def streamEntry (env : ReportEnv) (test : IperfTest) (endTime : ℚ) (sp : IperfStream) :
    List (String × JsonEntry) :=
  if isTcp test then
    ("sender", senderEntry test endTime sp) :: diskfileEntry env test sp ++
      [("receiver", receiverEntry endTime sp)]
  else ("udp", udpEntry endTime sp) :: diskfileEntry env test sp

/-- The members behind `"streams"`. -/
def totalEntries (test : IperfTest) (endTime : ℚ) (s : ResultSums) : List (String × JsonEntry) :=
  (if isTcp test then
    [("sum_sent", spanEntry endTime s.totalSent (totalRate s.totalSent endTime) ++
        if test.senderHasRetransmits ≠ 0 then [("retransmits", .int s.totalRetransmits)] else []),
      ("sum_received", spanEntry endTime s.totalReceived (totalRate s.totalReceived endTime))]
  else
    [("sum", spanEntry endTime s.totalSent (totalRate s.totalSent endTime) ++
      [("jitter_ms", .real (.finite (s.avgJitter / test.numStreams * 1000))),
        ("lost_packets", .int s.lostPackets), ("packets", .int s.totalPackets),
        ("lost_percent", .real (.finite (lostPercentOf s.lostPackets s.totalPackets)))])]) ++
  [("cpu_utilization_percent",
    [("host_total", .real (.finite test.cpuUtil.1)),
      ("host_user", .real (.finite test.cpuUtil.2.1)),
      ("host_system", .real (.finite test.cpuUtil.2.2)),
      ("remote_total", .real (.finite test.remoteCpuUtil.1)),
      ("remote_user", .real (.finite test.remoteCpuUtil.2.1)),
      ("remote_system", .real (.finite test.remoteCpuUtil.2.2))])]

/-- What `iperf_print_results` adds to `json_end`. -/
structure JsonEnd where
  streams : List (List (String × JsonEntry))
  totals : List (String × JsonEntry)
  deriving DecidableEq

/-- The JSON side of `iperf_print_results`. -/
def jsonResults (env : ReportEnv) (test : IperfTest) : Option JsonEnd :=
  if test.jsonOutput then
    let endTime := endTimeOf env test
    some ⟨test.streams.map (streamEntry env test endTime),
      totalEntries test endTime (test.streams.foldl (addResult test) {})⟩
  else none

/-- Everything that `iperf_print_results` prints or hands on. -/
def finalReport (env : ReportEnv) (test : IperfTest) : List Output × Option JsonEnd :=
  (iperfPrintResults env test, jsonResults env test)

/-- The time from the start of the first stream to the end of its last recorded interval. -/
def measuredTime (test : IperfTest) : ℚ :=
  match test.streams with
  | [] => 0
  | sp :: _ =>
    match sp.result.intervalResults.getLast? with
    | none => 0
    | some irp => irp.intervalEndTime.seconds - sp.result.startTime.seconds

/-- A report uses measured times only: what stands in the variable before it is assigned
does not come into it, and a report on streams ends at the measured time. -/
structure UsesMeasuredTimes (test : IperfTest) : Prop where
  assigned : ∀ (env : ReportEnv) (x y : ℚ), finalReport { env with endTime := x } test =
    finalReport { env with endTime := y } test
  measured : ∀ env, test.streams ≠ [] → endTimeOf env test = measuredTime test

/-- Nothing is totalled without a stream, and the first stream has an interval that does not
end before its start, or has none and was not started. -/
def TimesRecorded (test : IperfTest) : Prop :=
  match test.streams with
  | [] => test.numStreams ≤ 1 ∧ test.jsonOutput = false
  | sp :: _ =>
    match sp.result.intervalResults.getLast? with
    | none => sp.result.startTime.seconds = 0
    | some irp => sp.result.startTime.seconds ≤ irp.intervalEndTime.seconds

/-- The member `"end"` of an entry. -/
def lookupEnd (entry : JsonEntry) : Option JsonValue := entry.lookup "end"

/-- The end of the last recorded interval, zero without one. -/
def lastEnd (intervals : List IperfIntervalResults) : Timeval :=
  (intervals.getLast?.map (·.intervalEndTime)).getD {}

/-- `end_time` of a stream is the end of its last interval. -/
def EndRecorded (rp : IperfStreamResult) : Prop := rp.endTime = lastEnd rp.intervalResults

/-- Every reachable report is one whose end was recorded. -/
theorem endRecorded (platform : Platform) : Recorded platform EndRecorded where
  fresh := rfl
  start := fun _ _ h => h
  tick := by
    intro test sample sp _
    obtain ⟨-, hfinish, -, hend⟩ := intervalEntry_times platform test sample sp
    unfold EndRecorded lastEnd recordOf statsOfStream
    dsimp only
    rw [List.getLast?_concat, Option.map_some, Option.getD_some, hfinish, hend]
  reset := fun _ _ h => h

/-- A rate of nothing has a text in every format, also in the adaptive ones, whose loop ends
at the first entry. -/
theorem unitSnprintf_zero (inFormat : Char) :
    ∃ text, unitSnprintf (.finite 0) inFormat = some text := by
  have hscale : ((if inFormat.isUpper then .finite 0 else Dbl.scale 8 (.finite 0)) : Dbl) =
      .finite 0 := by
    split
    · rfl
    · rw [Dbl.scale, zero_mul]
  have hconv : ∀ base : ℚ, 0 < base → convOf inFormat base (.finite 0) < 4 := by
    intro base hbase
    unfold convOf
    split_ifs
    · decide
    · decide
    · decide
    · decide
    · rw [adaptiveConv, if_neg (by simpa [Dbl.reaches] using hbase)]
      decide
  unfold unitSnprintf
  dsimp only
  rw [hscale]
  cases hupper : inFormat.isUpper with
  | false =>
    have hlt := hconv 1000 (by norm_num)
    exact ⟨_, by rw [if_neg Bool.false_ne_true, if_neg Bool.false_ne_true,
      List.getElem?_eq_getElem hlt, Option.map_some]⟩
  | true =>
    have hlt := hconv 1024 (by norm_num)
    exact ⟨_, by rw [if_pos rfl, if_pos rfl, List.getElem?_eq_getElem hlt, Option.map_some]⟩

/-- The last line of the totals. -/
theorem getLast?_sumSummary (test : IperfTest) (endTime : ℚ) (s : ResultSums) :
    ∃ rest, (sumSummary test endTime s).getLast? = some (.line (bandwidthLine sumTag 0 endTime
      (unitSnprintf (.finite (if isTcp test then s.totalReceived else s.totalSent : ℕ)) 'A')
      (totalRateText test (if isTcp test then s.totalReceived else s.totalSent) endTime)
      rest)) := by
  unfold sumSummary
  dsimp only
  split
  · exact ⟨_, List.getLast?_concat⟩
  · exact ⟨_, List.getLast?_concat⟩

/-- Lines that differ in the end of their interval only. -/
theorem bandwidthLine_ne {tag ubuf nbuf ubuf' nbuf' rest rest' : Text} :
    bandwidthLine tag 0 0 (some ubuf) (some nbuf) rest ≠
      bandwidthLine tag 0 1 (some ubuf') (some nbuf') rest' := by
  intro h
  have htext := Option.some.inj h
  unfold reportHead at htext
  simp only [List.cons_append, List.append_assoc, List.cons.injEq, true_and,
    List.append_cancel_left_eq] at htext
  have hzero : padRight 6 (fixedText 2 0) = '0' :: lit ".00  " := by decide +kernel
  have hone : padRight 6 (fixedText 2 1) = '1' :: lit ".00  " := by decide +kernel
  rw [hzero, hone] at htext
  have hdigit := congrArg List.head? htext
  simp only [List.cons_append, List.head?_cons, Option.some.injEq] at hdigit
  revert hdigit
  decide

/-- Zero bytes have a rate, whatever the time. -/
theorem totalRateText_zero (test : IperfTest) (endTime : ℚ) :
    ∃ text, totalRateText test 0 endTime = some text := by
  unfold totalRateText totalRate
  split
  · rename_i hpos
    have hratio : ratio 0 endTime = .finite 0 := by
      unfold ratio
      rw [if_neg hpos.ne', Nat.cast_zero, zero_div]
    rw [hratio]
    exact unitSnprintf_zero _
  · exact unitSnprintf_zero _

/-- The totals of no stream show the end time. -/
theorem sumSummary_ne (test : IperfTest) : sumSummary test 0 {} ≠ sumSummary test 1 {} := by
  intro h
  obtain ⟨rest, hzero⟩ := getLast?_sumSummary test 0 {}
  obtain ⟨rest', hone⟩ := getLast?_sumSummary test 1 {}
  have hnothing : (if isTcp test then ({} : ResultSums).totalReceived
      else ({} : ResultSums).totalSent) = 0 := by
    split
    · rfl
    · rfl
  obtain ⟨ubuf, hubuf⟩ := unitSnprintf_zero 'A'
  obtain ⟨nbuf, hnbuf⟩ := totalRateText_zero test 0
  obtain ⟨nbuf', hnbuf'⟩ := totalRateText_zero test 1
  rw [hnothing, Nat.cast_zero, hubuf, hnbuf] at hzero
  rw [hnothing, Nat.cast_zero, hubuf, hnbuf'] at hone
  rw [h, hone] at hzero
  have hline := Output.line.inj (Option.some.inj hzero)
  exact bandwidthLine_ne hline.symm

/-- So do those of the document. -/
theorem totalEntries_ne (test : IperfTest) : totalEntries test 0 {} ≠ totalEntries test 1 {} := by
  intro h
  have hends : ∀ endTime, ((totalEntries test endTime {}).head?.bind fun e =>
      lookupEnd e.2) = some (.real (.finite endTime)) := by
    intro endTime
    unfold totalEntries
    split
    · rfl
    · rfl
  have hzero := hends 0
  rw [h, hends 1] at hzero
  revert hzero
  decide

/-- Where there is a first stream, the variable is assigned. -/
theorem endTimeOf_assigned {test : IperfTest} (h : test.streams ≠ []) (env : ReportEnv) (x : ℚ) :
    endTimeOf { env with endTime := x } test = endTimeOf env test := by
  unfold endTimeOf
  split
  · rename_i hnil
    exact absurd hnil h
  · rfl

/-- A report on streams does not look at what the variable held. -/
theorem assigned_of_streams {test : IperfTest} (h : test.streams ≠ []) (env : ReportEnv)
    (x y : ℚ) : finalReport { env with endTime := x } test =
      finalReport { env with endTime := y } test := by
  have hsummary : ∀ z, streamSummary { env with endTime := z } test = streamSummary env test :=
    fun _ => rfl
  have hentry : ∀ z, streamEntry { env with endTime := z } test = streamEntry env test :=
    fun _ => rfl
  unfold finalReport iperfPrintResults jsonResults
  simp only [endTimeOf_assigned h env, hsummary, hentry]

/-- Without a stream it is the totals that look at the end time; only a test of a single
stream that builds no document does not. -/
theorem assigned_iff_of_nil {test : IperfTest} (h : test.streams = []) :
    (∀ (env : ReportEnv) (x y : ℚ), finalReport { env with endTime := x } test =
      finalReport { env with endTime := y } test) ↔
      test.numStreams ≤ 1 ∧ test.jsonOutput = false := by
  have hend : ∀ env : ReportEnv, endTimeOf env test = env.endTime := by
    intro env
    unfold endTimeOf
    rw [h]
  constructor
  · intro hsame
    have hsame := hsame ⟨fun _ => none, 0, fun _ => 0⟩ 0 1
    have hjson : test.jsonOutput = false := by
      by_contra hjson
      rw [Bool.not_eq_false] at hjson
      have hdocument := congrArg Prod.snd hsame
      unfold finalReport jsonResults at hdocument
      dsimp only at hdocument
      rw [if_pos hjson, if_pos hjson, hend, hend, h] at hdocument
      exact totalEntries_ne test (congrArg JsonEnd.totals (Option.some.inj hdocument))
    refine ⟨?_, hjson⟩
    by_contra hseveral
    rw [not_le] at hseveral
    have htext := congrArg Prod.fst hsame
    unfold finalReport iperfPrintResults at htext
    simp only [hjson, Bool.false_eq_true, if_false, hend, h, List.flatMap_nil, List.foldl_nil,
      if_pos hseveral, List.append_cancel_left_eq, List.append_cancel_right_eq] at htext
    exact sumSummary_ne test htext
  · rintro ⟨hone, hjson⟩ env x y
    unfold finalReport iperfPrintResults jsonResults
    simp only [hjson, h, not_lt.mpr hone, List.flatMap_nil, Bool.false_eq_true, if_false]

/-- On streams the report ends at the distance of two readings. -/
theorem measured_iff {test : IperfTest} {sp : IperfStream} {rest : List IperfStream}
    (hstreams : test.streams = sp :: rest) (h : EndRecorded (recordOf sp)) (env : ReportEnv) :
    endTimeOf env test = measuredTime test ↔ TimesRecorded test := by
  have hend : sp.result.endTime = lastEnd sp.result.intervalResults := h
  have hzero : ({} : Timeval).seconds = 0 := by norm_num [Timeval.seconds]
  unfold endTimeOf measuredTime TimesRecorded
  rw [hstreams]
  dsimp only
  rw [hend, timevalDiff_eq_abs]
  unfold lastEnd
  cases sp.result.intervalResults.getLast? with
  | none =>
    rw [Option.map_none, Option.getD_none, hzero, sub_zero]
    exact abs_eq_zero
  | some irp =>
    rw [Option.map_some, Option.getD_some, abs_sub_comm]
    exact abs_eq_self.trans sub_nonneg

/-- A final report uses measured times only exactly where they were recorded: with a stream,
and with an interval on each. -/
theorem final_times_iff {platform : Platform} {env : ℕ → CallbackInput} {test : IperfTest}
    (h : Reports platform env test)
    (_hstate : test.state = .testEnd ∨ test.state = .displayResults) :
    UsesMeasuredTimes test ↔ TimesRecorded test := by
  cases hstreams : test.streams with
  | nil =>
    have hcondition : TimesRecorded test ↔ test.numStreams ≤ 1 ∧ test.jsonOutput = false := by
      unfold TimesRecorded
      rw [hstreams]
    rw [hcondition, ← assigned_iff_of_nil hstreams]
    exact ⟨fun hused => hused.assigned, fun hsame => ⟨hsame, fun _ hne => absurd hstreams hne⟩⟩
  | cons sp rest =>
    have hne : test.streams ≠ [] := by
      rw [hstreams]
      exact List.cons_ne_nil _ _
    have hmem : sp ∈ test.streams := by
      rw [hstreams]
      exact List.mem_cons_self
    have hmeasured := measured_iff hstreams (h.records (endRecorded platform) sp hmem)
    constructor
    · intro hused
      exact (hmeasured ⟨fun _ => none, 0, fun _ => 0⟩).mp (hused.measured _ hne)
    · intro hrecorded
      exact ⟨assigned_of_streams hne, fun env _ => (hmeasured env).mpr hrecorded⟩

/-- A client of the app in front of its first message. -/
def newClient (numStreams : ℤ) : IperfTest :=
  { role := .client, sender := true, numStreams := numStreams, duration := 10, statsInterval := 1,
    reporterInterval := 1, multisend := 10, settings := { unitFormat := 'm' }, jniCallback := true,
    affinity := -1, ctrlSck := 5 }

/-- The report of a client that the server breaks off at once. -/
theorem brokenOff_reports (platform : Platform) (numStreams : ℤ) :
    Reports platform quietCallbacks { newClient numStreams with state := .displayResults } := by
  have hrun : clientTurns platform quietCallbacks [messageTurn .serverTerminate 0]
      ({}, { test := newClient numStreams }) = some _ := rfl
  exact .client ⟨rfl, rfl⟩ hrun List.mem_cons_self

/-- Callbacks that read the clock a second and a half after the start. -/
def laterCallbacks : ℕ → CallbackInput :=
  fun n => { quietCallbacks n with samples := fun _ => { now := ⟨1, 500000⟩ } }

/-- The client is broken off in the middle of a test with one stream. -/
def brokenOffTurns : List TurnInput :=
  [messageTurn .createStreams 1000, messageTurn .testStart 1000, messageTurn .testRunning 1000,
    messageTurn .serverTerminate 1000]

/-- What the last execution of a client reported. -/
def lastReport (c : Client) : Option (IperfTest × List Output) :=
  c.2.executions.getLast?.bind fun
    | .stats => none
    | .report test output => some (test, output)

/-- It was executed. -/
theorem lastReport_mem {c : Client} {test : IperfTest} {output : List Output}
    (h : lastReport c = some (test, output)) : .report test output ∈ c.2.executions := by
  obtain ⟨execution, hlast, hreport⟩ := Option.bind_eq_some_iff.mp h
  cases execution with
  | stats => cases hreport
  | report test' output' =>
    cases hreport
    exact List.mem_of_getLast? hlast

/-- The end times of that client are measured: its stream has an interval that ends a second
and a half after the start. -/
theorem brokenOff_single_measured :
    ∃ test, Reports ⟨true, true, fun _ => rfl⟩ laterCallbacks test ∧
      (test.streams.map fun sp => sp.result.intervalResults.map (·.intervalEndTime)) =
        [[⟨1, 500000⟩]] ∧
      UsesMeasuredTimes test := by
  have hlast : ((clientTurns ⟨true, true, fun _ => rfl⟩ laterCallbacks brokenOffTurns
      ({}, { test := newClient 1 })).bind lastReport).map (fun r =>
        (decide (r.1.state = .displayResults), r.1.streams.map fun sp =>
          (sp.result.startTime, sp.result.intervalResults.map (·.intervalEndTime)))) =
      some (true, [({}, [⟨1, 500000⟩])]) := by decide +kernel
  obtain ⟨⟨test, output⟩, hreport, hfigures⟩ := Option.map_eq_some_iff.mp hlast
  obtain ⟨c, hrun, hexecution⟩ := Option.bind_eq_some_iff.mp hreport
  obtain ⟨hstate, hstreams⟩ := Prod.mk.inj hfigures
  have hreported : Reports _ _ test := .client ⟨rfl, rfl⟩ hrun (lastReport_mem hexecution)
  obtain ⟨sp, hsp, hone⟩ := List.map_eq_singleton_iff.mp hstreams
  obtain ⟨hstart, hends⟩ := Prod.mk.inj hone
  obtain ⟨irp, hentries, hend⟩ := List.map_eq_singleton_iff.mp hends
  refine ⟨test, hreported, ?_, ?_⟩
  · rw [hsp, List.map_singleton, hends]
  · refine (final_times_iff hreported (Or.inr (of_decide_eq_true hstate))).mpr ?_
    unfold TimesRecorded
    rw [hsp]
    dsimp only
    rw [hentries, hstart]
    dsimp only [List.getLast?_singleton]
    rw [hend]
    norm_num [Timeval.seconds]

/-- With the two streams of the app the totals use a variable that nothing assigned, as a test
broken off that early has no stream to read a time from. -/
theorem brokenOff_pair_unassigned :
    ¬∀ (platform : Platform) (env : ℕ → CallbackInput) (test : IperfTest),
      Reports platform env test → test.state = .testEnd ∨ test.state = .displayResults →
      UsesMeasuredTimes test := by
  intro hall
  have hused := hall ⟨true, true, fun _ => rfl⟩ _ _ (brokenOff_reports _ 2) (Or.inr rfl)
  have htwo := ((assigned_iff_of_nil rfl).mp hused.assigned).1
  exact absurd htwo (by decide)

end IperfRuntime.FinalReport
