import IperfRuntime.PrintfText
import IperfRuntime.TestState

/-!
# Reports

`print_interval_results`, `iperf_print_intermediate`, `iperf_print_results` and
`iperf_reporter_callback`: the lines they print, with the formats of
`iperf_locale.c`, and the callbacks they make into Java. A line stands without its
newline. With `-J` the reports build a JSON document, which stands beside this: they
print no line and call nothing.
-/

namespace IperfRuntime.ReportOutput

open ClockReading TestState PrintfText

/-- What a report does besides reading the test. -/
inductive Output where
  /-- A line on the standard output, without a text when a unit label is missing. -/
  | line (text : Option Text)
  /-- A line of `iperf_err`. -/
  | err (text : Text)
  /-- `jniCallback->on_interval`. -/
  | onInterval (start finish : ℚ) (sendBytes bandWidth : Option Text)
  /-- `jniCallback->on_result`. -/
  | onResult (start finish : ℚ) (sendBytes bandWidth : Option Text)
  deriving DecidableEq

/-- What the reports read besides the test. -/
structure ReportEnv where
  /-- The size `fstat` finds behind a descriptor. -/
  fstat : ℤ → Option ℕ
  /-- What the uninitialised `end_time` holds when there is no stream. -/
  endTime : ℚ
  /-- The conversion to `int` of a quotient by zero. -/
  intOf : Dbl → ℤ

/-- Difference of two unsigned 64 bit counters. -/
def sub64 (a b : ℕ) : ℕ := (((a : ℤ) - b) % 2 ^ 64).toNat

/-- `report_omitted` for an omitted entry. -/
def omittedNote (omitted : Bool) : Text := if omitted then lit "(omitted)" else []

/-- `%3d` of a socket, the tag of a stream's lines. -/
def idTag (socket : ℤ) : Text := padLeft 3 (intText socket)

/-- The tag of the sum lines. -/
def sumTag : Text := lit "SUM"

/-- `[tag] %6.2f-%-6.2f sec  %ss  %ss/sec`, which all bandwidth formats share. -/
def reportHead (tag : Text) (start finish : ℚ) (ubuf nbuf : Text) : Text :=
  '[' :: tag ++ lit "] " ++ padLeft 6 (fixedText 2 start) ++ '-' ::
    padRight 6 (fixedText 2 finish) ++ lit " sec  " ++ ubuf ++ lit "s  " ++ nbuf ++ lit "s/sec"

/-- A bandwidth line with the given rest. -/
def bandwidthLine (tag : Text) (start finish : ℚ) (ubuf nbuf : Option Text) (rest : Text) :
    Option Text :=
  ubuf.bind fun ubuf => nbuf.map fun nbuf => reportHead tag start finish ubuf nbuf ++ rest

/-- `report_bw_format` and `report_sum_bw_format`. -/
def reportBwFormat (tag : Text) (start finish : ℚ) (ubuf nbuf : Option Text) (note : Text) :
    Option Text :=
  bandwidthLine tag start finish ubuf nbuf (lit "                  " ++ note)

/-- `report_bw_retrans_format`. -/
def reportBwRetransFormat (tag : Text) (start finish : ℚ) (ubuf nbuf : Option Text)
    (retrans : ℤ) (note : Text) : Option Text :=
  bandwidthLine tag start finish ubuf nbuf
    (lit "  " ++ padLeft 3 (unsignedText retrans) ++ lit "             " ++ note)

/-- `report_sum_bw_retrans_format`, which prints a signed count. -/
def reportSumBwRetransFormat (start finish : ℚ) (ubuf nbuf : Option Text) (retrans : ℤ)
    (note : Text) : Option Text :=
  bandwidthLine sumTag start finish ubuf nbuf
    (lit "  " ++ padLeft 3 (intText retrans) ++ lit "             " ++ note)

/-- `report_bw_retrans_cwnd_format`. -/
def reportBwRetransCwndFormat (tag : Text) (start finish : ℚ) (ubuf nbuf : Option Text)
    (retrans : ℤ) (cbuf : Option Text) (note : Text) : Option Text :=
  cbuf.bind fun cbuf => bandwidthLine tag start finish ubuf nbuf
    (lit "  " ++ padLeft 3 (unsignedText retrans) ++ lit "   " ++ cbuf ++ lit "s       " ++ note)

/-- `report_bw_udp_format` and `report_sum_bw_udp_format`. -/
def reportBwUdpFormat (tag : Text) (start finish : ℚ) (ubuf nbuf : Option Text) (jitterMs : ℚ)
    (lost total : ℤ) (lostPercent : ℚ) (note : Text) : Option Text :=
  bandwidthLine tag start finish ubuf nbuf
    (lit "  " ++ padLeft 5 (fixedText 3 jitterMs) ++ lit " ms  " ++ intText lost ++ '/' ::
      intText total ++ lit " (" ++ generalText lostPercent ++ lit "%)  " ++ note)

/-- `report_bw_udp_sender_format` and `report_sum_bw_udp_sender_format`. -/
def reportBwUdpSenderFormat (tag : Text) (start finish : ℚ) (ubuf nbuf : Option Text)
    (packets : ℤ) (note : Text) : Option Text :=
  bandwidthLine tag start finish ubuf nbuf (lit "  " ++ intText packets ++ lit "  " ++ note)

/-- `report_bw_header`. -/
def reportBwHeader : Text := lit "[ ID] Interval           Transfer     Bandwidth"

/-- `report_bw_retrans_header`. -/
def reportBwRetransHeader : Text := reportBwHeader ++ lit "       Retr"

/-- `report_bw_retrans_cwnd_header`. -/
def reportBwRetransCwndHeader : Text := reportBwHeader ++ lit "       Retr  Cwnd"

/-- `report_bw_udp_header`. -/
def reportBwUdpHeader : Text := reportBwHeader ++ lit "       Jitter    Lost/Total Datagrams"

/-- `report_bw_udp_sender_header`. -/
def reportBwUdpSenderHeader : Text := reportBwHeader ++ lit "       Total Datagrams"

/-- `report_bw_separator`. -/
def reportBwSeparator : Text := lit "- - - - - - - - - - - - - - - - - - - - - - - - -"

/-- `report_summary`. -/
def reportSummary : Text := lit "Test Complete. Summary Results:"

/-- `report_diskfile`. -/
def reportDiskfile (ubuf sbuf : Option Text) (percent : ℤ) (name : Text) : Option Text :=
  ubuf.bind fun ubuf => sbuf.map fun sbuf =>
    lit "        Sent " ++ ubuf ++ lit " / " ++ sbuf ++ lit " (" ++ intText percent ++
      lit "%) of " ++ name

/-- `report_datagrams`. -/
def reportDatagrams (socket packets : ℤ) : Text :=
  '[' :: idTag socket ++ lit "] Sent " ++ intText packets ++ lit " datagrams"

/-- `report_sum_outoforder`. -/
def reportSumOutoforder (start finish : ℚ) (packets : ℤ) : Text :=
  lit "[SUM] " ++ padLeft 4 (fixedText 1 start) ++ '-' :: padLeft 4 (fixedText 1 finish) ++
    lit " sec  " ++ intText packets ++ lit " datagrams received out-of-order"

/-- `report_sender` or `report_receiver`. -/
def endName (sender : Bool) : Text := if sender then lit "sender" else lit "receiver"

/-- `report_cpu`. -/
def reportCpu (sender : Bool) (own remote : ℚ × ℚ × ℚ) : Text :=
  let part (place : Text) (name : Text) (use : ℚ × ℚ × ℚ) : Text :=
    place ++ '/' :: name ++ ' ' :: fixedText 1 use.1 ++ lit "% (" ++ fixedText 1 use.2.1 ++
      lit "%u/" ++ fixedText 1 use.2.2 ++ lit "%s)"
  lit "CPU Utilization: " ++ part (lit "local") (endName sender) own ++ lit ", " ++
    part (lit "remote") (endName !sender) remote

/-- Whether the protocol reports like TCP. -/
def isTcp (test : IperfTest) : Bool := test.protocol == .tcp || test.protocol == .sctp

/-- Whether this end sends and counts retransmits. -/
def countsRetrans (test : IperfTest) : Bool := test.sender && test.senderHasRetransmits != 0

/-- The percentage of lost datagrams. -/
def lostPercentOf (lost total : ℤ) : ℚ := if 0 < total then 100 * lost / total else 0

/-- A callback made under a condition. -/
def callIf (condition : Bool) (event : Output) : List Output := if condition then [event] else []

/-- The header or separator in front of the first stream's interval line. -/
def intervalHeader (test : IperfTest) (sp : IperfStream) (irp : IperfIntervalResults) :
    List Output :=
  if timevalEquals sp.result.startTime irp.intervalStartTime then
    if isTcp test then
      [.line (some (if countsRetrans test then reportBwRetransCwndHeader else reportBwHeader))]
    else [.line (some (if test.sender then reportBwUdpSenderHeader else reportBwUdpHeader))]
  else if 1 < test.numStreams then [.line (some reportBwSeparator)]
  else []

/-- `print_interval_results`; `first` tells that `sp` heads the list of streams. -/
def printIntervalResults (test : IperfTest) (first : Bool) (sp : IperfStream) : List Output :=
  match sp.result.intervalResults.getLast? with
  | none => [.err (lit "print_interval_results error: interval_results is NULL")]
  | some irp =>
    let header := if first then intervalHeader test sp irp else []
    let ubuf := unitSnprintf (.finite irp.bytesTransferred) 'A'
    let bandwidth := ratio irp.bytesTransferred irp.intervalDuration
    let nbuf := unitSnprintf bandwidth test.settings.unitFormat
    let st := timevalDiff sp.result.startTime irp.intervalStartTime
    let et := timevalDiff sp.result.startTime irp.intervalEndTime
    let note := omittedNote irp.omitted
    let call := callIf (test.jniCallback && test.numStreams == 1) (.onInterval st et ubuf nbuf)
    if test.jsonOutput then []
    else if isTcp test then
      if countsRetrans test then
        let cbuf := unitSnprintf (.finite irp.sndCwnd) 'A'
        header ++ call ++ [.line (reportBwRetransCwndFormat (idTag sp.socket) st et ubuf nbuf
          irp.intervalRetrans cbuf note)]
      else header ++ call ++ [.line (reportBwFormat (idTag sp.socket) st et ubuf nbuf note)]
    else if test.sender then
      header ++ call ++ [.line (reportBwUdpSenderFormat (idTag sp.socket) st et ubuf nbuf
        irp.intervalPacketCount note)]
    else
      header ++ call ++ [.line (reportBwUdpFormat (idTag sp.socket) st et ubuf nbuf
        (irp.jitter * 1000) irp.intervalCntError irp.intervalPacketCount
        (lostPercentOf irp.intervalCntError irp.intervalPacketCount) note)]

/-- What `iperf_print_intermediate` adds up over the streams. -/
structure IntervalSums where
  bytes : ℕ := 0
  retransmits : ℤ := 0
  totalPackets : ℤ := 0
  lostPackets : ℤ := 0
  avgJitter : ℚ := 0

/-- One stream's share of the sums. -/
def addInterval (test : IperfTest) (s : IntervalSums) (irp : IperfIntervalResults) :
    IntervalSums :=
  if test.protocol == .tcp then
    { s with
      bytes := s.bytes + irp.bytesTransferred
      retransmits :=
        if countsRetrans test then s.retransmits + irp.intervalRetrans else s.retransmits }
  else
    { s with
      bytes := s.bytes + irp.bytesTransferred
      totalPackets := s.totalPackets + irp.intervalPacketCount
      lostPackets := s.lostPackets + irp.intervalCntError
      avgJitter := s.avgJitter + irp.jitter }

/-- The loop of `iperf_print_intermediate`; a stream without an interval ends the
report. -/
def printStreams (test : IperfTest) :
    Bool → List IperfStream → IntervalSums → List Output × Option IntervalSums
  | _, [], s => ([], some s)
  | first, sp :: rest, s =>
    match sp.result.intervalResults.getLast? with
    | none =>
      (printIntervalResults test first sp ++
        [.err (lit "iperf_print_intermediate error: interval_results is NULL")], none)
    | some irp =>
      let r := printStreams test false rest (addInterval test s irp)
      (printIntervalResults test first sp ++ r.1, r.2)

/-- The sum line of an interval, timed by the first stream. -/
def intervalSum (test : IperfTest) (sp : IperfStream) (irp : IperfIntervalResults)
    (s : IntervalSums) : List Output :=
  let ubuf := unitSnprintf (.finite s.bytes) 'A'
  let nbuf := unitSnprintf (ratio s.bytes irp.intervalDuration) test.settings.unitFormat
  let start := timevalDiff sp.result.startTime irp.intervalStartTime
  let finish := timevalDiff sp.result.startTime irp.intervalEndTime
  let call := callIf test.jniCallback (.onInterval start finish ubuf nbuf)
  if isTcp test then
    if countsRetrans test then
      call ++ [.line (reportSumBwRetransFormat start finish ubuf nbuf s.retransmits
        (omittedNote irp.omitted))]
    else
      call ++ [.line (reportBwFormat sumTag start finish ubuf nbuf (omittedNote test.omitting))]
  else if test.sender then
    call ++ [.line (reportBwUdpSenderFormat sumTag start finish ubuf nbuf s.totalPackets
      (omittedNote test.omitting))]
  else
    call ++ [.line (reportBwUdpFormat sumTag start finish ubuf nbuf
      (s.avgJitter / test.numStreams * 1000) s.lostPackets s.totalPackets
      (lostPercentOf s.lostPackets s.totalPackets) (omittedNote test.omitting))]

/-- `iperf_print_intermediate`. -/
def iperfPrintIntermediate (test : IperfTest) : List Output :=
  let r := printStreams test true test.streams {}
  match r.2 with
  | none => r.1
  | some s =>
    if 1 < test.numStreams ∧ test.jsonOutput = false then
      match test.streams with
      | [] => r.1
      | sp :: _ =>
        match sp.result.intervalResults.getLast? with
        | none => r.1
        | some irp => r.1 ++ intervalSum test sp irp s
    else r.1

/-- What `iperf_print_results` adds up over the streams. -/
structure ResultSums where
  totalSent : ℕ := 0
  totalReceived : ℕ := 0
  totalRetransmits : ℤ := 0
  totalPackets : ℤ := 0
  lostPackets : ℤ := 0
  avgJitter : ℚ := 0

/-- The bytes a stream sent after the omit period. -/
def sentOf (sp : IperfStream) : ℕ := sub64 sp.result.bytesSent sp.result.bytesSentOmit

/-- The datagrams of a stream after the omit period. -/
def packetsOf (sp : IperfStream) : ℤ := sp.packetCount - sp.omittedPacketCount

/-- The losses of a stream after the omit period. -/
def lossesOf (sp : IperfStream) : ℤ := sp.cntError - sp.omittedCntError

/-- The late datagrams of a stream after the omit period. -/
def outoforderOf (sp : IperfStream) : ℤ := sp.outoforderPackets - sp.omittedOutoforderPackets

/-- One stream's share of the totals. -/
def addResult (test : IperfTest) (s : ResultSums) (sp : IperfStream) : ResultSums :=
  let s := { s with
    totalSent := s.totalSent + sentOf sp
    totalReceived := s.totalReceived + sp.result.bytesReceived }
  if isTcp test then
    if test.senderHasRetransmits ≠ 0 then
      { s with totalRetransmits := s.totalRetransmits + sp.result.streamRetrans }
    else s
  else
    { s with
      totalPackets := s.totalPackets + packetsOf sp
      lostPackets := s.lostPackets + lossesOf sp
      avgJitter := s.avgJitter + sp.jitter }

/-- A rate as the reports write it. -/
def rateText (test : IperfTest) (amount : ℕ) (duration : ℚ) : Option Text :=
  unitSnprintf (ratio amount duration) test.settings.unitFormat

/-- The sender part of a stream's summary. The branch with retransmits makes its
callback without looking at the direction. -/
def senderSummary (test : IperfTest) (endTime : ℚ) (sp : IperfStream) : List Output :=
  let ubuf := unitSnprintf (.finite (sentOf sp)) 'A'
  let nbuf := rateText test (sentOf sp) endTime
  if isTcp test then
    if test.senderHasRetransmits ≠ 0 then
      callIf (test.jniCallback && test.numStreams == 1) (.onResult 0 endTime ubuf nbuf) ++
        [.line (reportBwRetransFormat (idTag sp.socket) 0 endTime ubuf nbuf
          sp.result.streamRetrans (endName true))]
    else
      callIf (!test.reverse && test.jniCallback && test.numStreams == 1)
          (.onResult 0 endTime ubuf nbuf) ++
        [.line (reportBwFormat (idTag sp.socket) 0 endTime ubuf nbuf (endName true))]
  else
    callIf (!test.reverse && test.jniCallback && test.numStreams == 1)
        (.onResult 0 endTime ubuf nbuf) ++
      [.line (reportBwUdpFormat (idTag sp.socket) 0 endTime ubuf nbuf (sp.jitter * 1000)
        (lossesOf sp) (packetsOf sp) (lostPercentOf (lossesOf sp) (packetsOf sp)) [])] ++
      (if test.role = .client then
        [.line (some (reportDatagrams sp.socket (packetsOf sp)))] else []) ++
      if 0 < outoforderOf sp then
        [.line (some (reportSumOutoforder 0 endTime (outoforderOf sp)))] else []

/-- The part about the `-F` file. -/
def diskfileSummary (env : ReportEnv) (test : IperfTest) (sp : IperfStream) : List Output :=
  if sp.diskfileFd < 0 then []
  else
    match env.fstat sp.diskfileFd with
    | none => []
    | some size =>
      let percent := match (ratio (sentOf sp) size).scale 100 with
        | .finite q => if 0 ≤ q then ⌊q⌋ else ⌈q⌉
        | d => env.intOf d
      [.line (reportDiskfile (unitSnprintf (.finite (sentOf sp)) 'A')
        (unitSnprintf (.finite size) 'A') percent (lit (test.diskfileName.getD "(null)")))]

/-- The receiver part of a stream's summary. -/
def receiverSummary (test : IperfTest) (endTime : ℚ) (sp : IperfStream) : List Output :=
  let ubuf := unitSnprintf (.finite sp.result.bytesReceived) 'A'
  let nbuf := rateText test sp.result.bytesReceived endTime
  if isTcp test then
    callIf (test.reverse && test.jniCallback && test.numStreams == 1)
        (.onResult 0 endTime ubuf nbuf) ++
      [.line (reportBwFormat (idTag sp.socket) 0 endTime ubuf nbuf (endName false))]
  else []

/-- One round of the stream loop of `iperf_print_results`. -/
def streamSummary (env : ReportEnv) (test : IperfTest) (endTime : ℚ) (sp : IperfStream) :
    List Output :=
  senderSummary test endTime sp ++ diskfileSummary env test sp ++ receiverSummary test endTime sp

/-- A total rate, zero for a test without duration. -/
def totalRate (amount : ℕ) (endTime : ℚ) : Dbl :=
  if 0 < endTime then ratio amount endTime else .finite 0

/-- The text of a total rate. -/
def totalRateText (test : IperfTest) (amount : ℕ) (endTime : ℚ) : Option Text :=
  unitSnprintf (totalRate amount endTime) test.settings.unitFormat

/-- The totals at the end of `iperf_print_results`. -/
def sumSummary (test : IperfTest) (endTime : ℚ) (s : ResultSums) : List Output :=
  let ubuf := unitSnprintf (.finite s.totalSent) 'A'
  let nbuf := totalRateText test s.totalSent endTime
  let sent := callIf (!test.reverse && test.jniCallback) (.onResult 0 endTime ubuf nbuf)
  if isTcp test then
    let rbuf := unitSnprintf (.finite s.totalReceived) 'A'
    let mbuf := totalRateText test s.totalReceived endTime
    sent ++
      (if test.senderHasRetransmits ≠ 0 then
        [.line (reportSumBwRetransFormat 0 endTime ubuf nbuf s.totalRetransmits (endName true))]
      else [.line (reportBwFormat sumTag 0 endTime ubuf nbuf (endName true))]) ++
      callIf (test.reverse && test.jniCallback) (.onResult 0 endTime rbuf mbuf) ++
      [.line (reportBwFormat sumTag 0 endTime rbuf mbuf (endName false))]
  else
    sent ++ [.line (reportBwUdpFormat sumTag 0 endTime ubuf nbuf
      (s.avgJitter / test.numStreams * 1000) s.lostPackets s.totalPackets
      (lostPercentOf s.lostPackets s.totalPackets) [])]

/-- The opening of `iperf_print_results`. -/
def summaryHeader (test : IperfTest) : List Output :=
  [.line (some reportBwSeparator)] ++
    (if test.verbose then [.line (some reportSummary)] else []) ++
    [.line (some (if isTcp test then
      if test.senderHasRetransmits ≠ 0 then reportBwRetransHeader else reportBwHeader
      else reportBwUdpHeader))]

/-- The closing of `iperf_print_results`; the printed tree of a JSON output is left out. -/
def summaryFooter (test : IperfTest) : List Output :=
  (if test.verbose then
    [.line (some (reportCpu test.sender test.cpuUtil test.remoteCpuUtil))] else []) ++
  if test.role = .client ∧ test.getServerOutput then
    (match test.jsonServerOutput with
      | some _ => [.line (some []), .line (some (lit "Server JSON output:"))]
      | none => []) ++
    match test.serverOutputText with
    | some text =>
      [.line (some []), .line (some (lit "Server output:")), .line (some (lit text))]
    | none => []
  else []

/-- The length of the test as the first stream saw it. -/
def endTimeOf (env : ReportEnv) (test : IperfTest) : ℚ :=
  match test.streams with
  | [] => env.endTime
  | sp :: _ => timevalDiff sp.result.startTime sp.result.endTime

/-- `iperf_print_results`. -/
def iperfPrintResults (env : ReportEnv) (test : IperfTest) : List Output :=
  if test.jsonOutput then []
  else
    let endTime := endTimeOf env test
    let sums := test.streams.foldl (addResult test) {}
    summaryHeader test ++ test.streams.flatMap (streamSummary env test endTime) ++
      (if 1 < test.numStreams then sumSummary test endTime sums else []) ++ summaryFooter test

/-- `iperf_reporter_callback`. -/
def iperfReporterCallback (env : ReportEnv) (test : IperfTest) : List Output :=
  match test.state with
  | .testRunning => iperfPrintIntermediate test
  | .streamRunning => iperfPrintIntermediate test
  | .testEnd => iperfPrintIntermediate test ++ iperfPrintResults env test
  | .displayResults => iperfPrintIntermediate test ++ iperfPrintResults env test
  | _ => []

end IperfRuntime.ReportOutput
