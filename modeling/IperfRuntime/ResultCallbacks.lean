import IperfRuntime.ReportOutput
import IperfRuntime.ResultsExchange

/-!
# Result callbacks

The calls of `on_result` that one `iperf_print_results` makes on a TCP client with Java
callbacks. The summary of a single stream calls from three places and the totals from three
more; each place has its own guard. UDP runs, where the summary has other lines, are outside
this module.
-/

namespace IperfRuntime.ResultCallbacks

open ClockReading JsonTree TestState EntryPoints PrintfText ReportOutput ResultsExchange

/-- What `on_result` is told. -/
structure ResultCall where
  start : ℚ
  finish : ℚ
  sendBytes : Option Text
  bandWidth : Option Text
  deriving DecidableEq

/-- The call of `on_result` in an event, if it is one. -/
def Output.resultCall : Output → Option ResultCall
  | .onResult start finish sendBytes bandWidth => some ⟨start, finish, sendBytes, bandWidth⟩
  | _ => none

/-- The calls of `on_result` in a report, in order. -/
def resultCalls (outputs : List Output) : List ResultCall := outputs.filterMap Output.resultCall

/-- Nothing printed is no call. -/
@[simp] theorem resultCalls_nil : resultCalls [] = [] := rfl

/-- The calls of two parts are those of the first and then those of the second. -/
@[simp] theorem resultCalls_append (a b : List Output) :
    resultCalls (a ++ b) = resultCalls a ++ resultCalls b :=
  List.filterMap_append

/-- A line is not a call. -/
@[simp] theorem resultCalls_line (text : Option Text) (rest : List Output) :
    resultCalls (.line text :: rest) = resultCalls rest := by
  unfold resultCalls
  rw [List.filterMap_cons_none]
  rfl

/-- A conditional call is made where its condition holds. -/
@[simp] theorem resultCalls_callIf (condition : Bool) (start finish : ℚ)
    (sendBytes bandWidth : Option Text) :
    resultCalls (callIf condition (.onResult start finish sendBytes bandWidth)) =
      if condition then [⟨start, finish, sendBytes, bandWidth⟩] else [] := by
  cases condition with
  | false => rfl
  | true => rfl

/-- The calls of many parts are those of each in turn. -/
theorem resultCalls_flatMap {α : Type*} (f : α → List Output) (l : List α) :
    resultCalls (l.flatMap f) = l.flatMap fun a => resultCalls (f a) := by
  induction l with
  | nil => rfl
  | cons a l ih => rw [List.flatMap_cons, resultCalls_append, ih, List.flatMap_cons]

/-- The bytes of the local end. -/
def localTotal (test : IperfTest) : ℕ :=
  if test.reverse then (test.streams.map (·.result.bytesReceived)).sum
  else (test.streams.map sentOf).sum

/-- Exactly one call of `on_result`, with the local total over the whole test. -/
def ReportsLocalResultOnce (env : ReportEnv) (test : IperfTest) : Prop :=
  ∃ bandWidth, resultCalls (iperfPrintResults env test) =
      [⟨0, endTimeOf env test, unitSnprintf (.finite (localTotal test)) 'A', bandWidth⟩] ∧
    (0 < endTimeOf env test → bandWidth = rateText test (localTotal test) (endTimeOf env test))

/-- A completed TCP client run with Java callbacks and text output. -/
structure JniTcpRun (test : IperfTest) : Prop where
  role : test.role = .client
  protocol : test.protocol = .tcp
  callback : test.jniCallback = true
  text : test.jsonOutput = false
  streams : test.numStreams = test.streams.length
  nonempty : 1 ≤ test.numStreams

/-- The header makes no call. -/
theorem resultCalls_header (test : IperfTest) : resultCalls (summaryHeader test) = [] := by
  unfold summaryHeader
  cases test.verbose with
  | false => rfl
  | true => rfl

/-- The footer makes none. -/
theorem resultCalls_footer (test : IperfTest) : resultCalls (summaryFooter test) = [] := by
  have hlines (c : Prop) [Decidable c] (a b : List Output) (ha : resultCalls a = [])
      (hb : resultCalls b = []) : resultCalls (if c then a else b) = [] := by
    split
    · exact ha
    · exact hb
  unfold summaryFooter
  rw [resultCalls_append, hlines _ _ _ rfl rfl, hlines _ _ _ ?_ rfl, List.append_nil]
  rw [resultCalls_append]
  cases test.jsonServerOutput <;> cases test.serverOutputText <;> rfl

/-- The summary of a file makes none. -/
theorem resultCalls_diskfile (env : ReportEnv) (test : IperfTest) (sp : IperfStream) :
    resultCalls (diskfileSummary env test sp) = [] := by
  unfold diskfileSummary
  split
  · rfl
  · cases env.fstat sp.diskfileFd with
    | none => rfl
    | some size => rfl

/-- Such a run is a TCP run. -/
theorem isTcp_of_run {test : IperfTest} (h : JniTcpRun test) : isTcp test = true := by
  unfold isTcp
  rw [h.protocol]
  rfl

/-- The sender part calls for a single stream, in either direction when the peer or
this end counts retransmits. -/
theorem resultCalls_sender {test : IperfTest} (h : JniTcpRun test) (endTime : ℚ)
    (sp : IperfStream) :
    resultCalls (senderSummary test endTime sp) =
      if (test.senderHasRetransmits ≠ 0 ∨ test.reverse = false) ∧ test.numStreams = 1 then
        [⟨0, endTime, unitSnprintf (.finite (sentOf sp)) 'A', rateText test (sentOf sp) endTime⟩]
      else [] := by
  have htcp := isTcp_of_run h
  have hcall := h.callback
  unfold senderSummary
  rw [htcp, hcall]
  by_cases hs : test.senderHasRetransmits = 0
  · cases hr : test.reverse with
    | false => simp [hs, resultCalls_append]
    | true => simp [hs, resultCalls_append]
  · cases hr : test.reverse with
    | false => simp [hs, resultCalls_append]
    | true => simp [hs, resultCalls_append]

/-- The receiver part calls for a single stream of a reversed test. -/
theorem resultCalls_receiver {test : IperfTest} (h : JniTcpRun test) (endTime : ℚ)
    (sp : IperfStream) :
    resultCalls (receiverSummary test endTime sp) =
      if test.reverse = true ∧ test.numStreams = 1 then
        [⟨0, endTime, unitSnprintf (.finite sp.result.bytesReceived) 'A',
          rateText test sp.result.bytesReceived endTime⟩]
      else [] := by
  have htcp := isTcp_of_run h
  have hcall := h.callback
  unfold receiverSummary
  rw [htcp, hcall]
  cases hr : test.reverse with
  | false => simp
  | true => simp

/-- The calls that the summary of one stream makes. -/
theorem resultCalls_stream (env : ReportEnv) (test : IperfTest) (endTime : ℚ)
    (sp : IperfStream) :
    resultCalls (streamSummary env test endTime sp) =
      resultCalls (senderSummary test endTime sp) ++
        resultCalls (receiverSummary test endTime sp) := by
  unfold streamSummary
  rw [resultCalls_append, resultCalls_append, resultCalls_diskfile, List.append_nil]

/-- The totals call once, for the local end. -/
theorem resultCalls_sums {test : IperfTest} (h : JniTcpRun test) (endTime : ℚ) (s : ResultSums) :
    resultCalls (sumSummary test endTime s) =
      [if test.reverse then
        ⟨0, endTime, unitSnprintf (.finite s.totalReceived) 'A',
          totalRateText test s.totalReceived endTime⟩
      else
        ⟨0, endTime, unitSnprintf (.finite s.totalSent) 'A',
          totalRateText test s.totalSent endTime⟩] := by
  have htcp := isTcp_of_run h
  have hcall := h.callback
  unfold sumSummary
  rw [htcp, hcall]
  by_cases hs : test.senderHasRetransmits = 0
  · cases hr : test.reverse with
    | false => simp [hs]
    | true => simp [hs]
  · cases hr : test.reverse with
    | false => simp [hs]
    | true => simp [hs]

/-- The totals are the sums over the streams. -/
theorem addResult_totals (test : IperfTest) (l : List IperfStream) (s : ResultSums) :
    (l.foldl (addResult test) s).totalSent = s.totalSent + (l.map sentOf).sum ∧
      (l.foldl (addResult test) s).totalReceived =
        s.totalReceived + (l.map (·.result.bytesReceived)).sum := by
  induction l generalizing s with
  | nil => simp
  | cons sp l ih =>
    obtain ⟨hsent, hreceived⟩ := ih (addResult test s sp)
    have hone : (addResult test s sp).totalSent = s.totalSent + sentOf sp ∧
        (addResult test s sp).totalReceived = s.totalReceived + sp.result.bytesReceived := by
      unfold addResult
      dsimp only
      split_ifs
      · exact ⟨rfl, rfl⟩
      · exact ⟨rfl, rfl⟩
      · exact ⟨rfl, rfl⟩
    rw [List.foldl_cons, List.map_cons, List.map_cons, List.sum_cons, List.sum_cons]
    omega

/-- With several streams only the totals call. -/
theorem resultCalls_several {env : ReportEnv} {test : IperfTest} (h : JniTcpRun test)
    (hn : 1 < test.numStreams) :
    resultCalls (iperfPrintResults env test) =
      [⟨0, endTimeOf env test, unitSnprintf (.finite (localTotal test)) 'A',
        totalRateText test (localTotal test) (endTimeOf env test)⟩] := by
  have hone : ¬test.numStreams = 1 := by omega
  have hstreams : (test.streams.flatMap fun sp =>
      resultCalls (streamSummary env test (endTimeOf env test) sp)) = [] := by
    rw [List.flatMap_eq_nil_iff]
    intro sp _
    rw [resultCalls_stream, resultCalls_sender h, resultCalls_receiver h]
    simp [hone]
  obtain ⟨hsent, hreceived⟩ := addResult_totals test test.streams {}
  unfold iperfPrintResults
  rw [h.text]
  simp only [Bool.false_eq_true, if_false, resultCalls_append, resultCalls_header,
    resultCalls_footer, resultCalls_flatMap, hstreams, if_pos hn, resultCalls_sums h, hsent,
    hreceived, List.nil_append, List.append_nil]
  unfold localTotal
  cases hr : test.reverse with
  | false => simp
  | true => simp

/-- With one stream the stream's summary calls, and nothing else does. -/
theorem resultCalls_single {env : ReportEnv} {test : IperfTest} {sp : IperfStream}
    (h : JniTcpRun test) (hs : test.streams = [sp]) :
    resultCalls (iperfPrintResults env test) =
      resultCalls (senderSummary test (endTimeOf env test) sp) ++
        resultCalls (receiverSummary test (endTimeOf env test) sp) := by
  have hn : test.numStreams = 1 := by
    rw [h.streams, hs]
    rfl
  unfold iperfPrintResults
  rw [h.text]
  simp only [Bool.false_eq_true, if_false, resultCalls_append, resultCalls_header,
    resultCalls_footer, hs, hn, lt_irrefl, List.flatMap_cons, List.flatMap_nil,
    resultCalls_stream, List.nil_append, List.append_nil]

/-- A TCP client reports the local result exactly once, except that a single reversed
stream whose sender counts retransmits reports the remote figures as well. -/
theorem reports_local_result_once_iff {test : IperfTest} (h : JniTcpRun test)
    (env : ReportEnv) :
    ReportsLocalResultOnce env test ↔
      ¬(test.reverse = true ∧ test.senderHasRetransmits ≠ 0 ∧ test.numStreams = 1) := by
  unfold ReportsLocalResultOnce
  have hpos := h.nonempty
  by_cases hn : test.numStreams = 1
  · have hlen : test.streams.length = 1 := by
      have hl := h.streams
      omega
    obtain ⟨sp, hs⟩ := List.length_eq_one_iff.mp hlen
    rw [resultCalls_single h hs, resultCalls_sender h, resultCalls_receiver h]
    unfold localTotal
    cases hr : test.reverse with
    | false => simp [hn, hs]
    | true =>
      by_cases hret : test.senderHasRetransmits = 0
      · simp [hn, hs, hret]
      · simp [hn, hret]
  · have hmany : 1 < test.numStreams := by omega
    rw [resultCalls_several h hmany]
    constructor
    · intro _ hbad
      exact hn hbad.2.2
    · intro _
      refine ⟨_, rfl, ?_⟩
      intro hend
      unfold totalRateText totalRate rateText
      rw [if_pos hend]

/-- A configuration of a native call with one stream. -/
def oneStreamConfig (isDownMode : Bool) : Iperf3Config :=
  ⟨"server", 5201, isDownMode, 1, 0, 'm'.toNat, 1⟩

/-- The platform of the examples below reads every field of `TCP_INFO`. -/
def tcpinfoPlatform : Platform := ⟨true, true, fun _ => rfl⟩

/-- A ten second native run with one stream, before the results exchange. -/
def oneStreamRun (isDownMode : Bool) : IperfTest :=
  { parseJavaConfig tcpinfoPlatform (oneStreamConfig isDownMode) "/tmp"
      (iperfDefaults tcpinfoPlatform iperfNewTest) with
    jniCallback := true
    streams := [{ id := 1, socket := 5, result :=
      { bytesSent := 0, bytesReceived := 10000000, startTime := ⟨100, 0⟩, endTime := ⟨110, 0⟩ } }] }

/-- The results of a server that counts retransmits and sent a little more than arrived. -/
def sendingServerResults : CJson :=
  .object [("cpu_util_total", createNumber 0), ("cpu_util_user", createNumber 0),
    ("cpu_util_system", createNumber 0), ("sender_has_retransmits", createNumber 1),
    ("streams", .array [.object [("id", createNumber 1), ("bytes", createNumber 10500000),
      ("retransmits", createNumber 3), ("jitter", createNumber 0), ("errors", createNumber 0),
      ("packets", createNumber 0)]])]

/-- Nothing outside the test. -/
def plainEnv : ReportEnv := ⟨fun _ => none, 0, fun _ => 0⟩

/-- A run with one stream makes its call once unless it is reversed and the server counted
retransmits. -/
theorem oneStreamRun_once :
    ReportsLocalResultOnce plainEnv (oneStreamRun false) ↔
      ¬((oneStreamRun false).reverse = true ∧ (oneStreamRun false).senderHasRetransmits ≠ 0 ∧
        (oneStreamRun false).numStreams = 1) :=
  reports_local_result_once_iff ⟨rfl, rfl, rfl, rfl, rfl, by decide⟩ plainEnv

/-- The reversed run, after the results of the server, reports what the server sent
before it reports what arrived. -/
theorem reversed_run_reports_twice :
    ∃ test, getResults sendingServerResults (oneStreamRun true) = some (true, test) ∧
      JniTcpRun test ∧ (resultCalls (iperfPrintResults plainEnv test)).map (·.sendBytes) =
        [some (lit "10.0 MByte"), some (lit "9.54 MByte")] ∧
      ¬ReportsLocalResultOnce plainEnv test := by
  refine ⟨_, rfl, ⟨rfl, rfl, rfl, rfl, rfl, by decide⟩, and_iff_left_of_imp ?_ |>.mpr ?_⟩
  · rintro hbytes ⟨bandWidth, hcalls, -⟩
    rw [hcalls] at hbytes
    have hlength := congrArg List.length hbytes
    simp at hlength
  · decide +kernel

end IperfRuntime.ResultCallbacks
