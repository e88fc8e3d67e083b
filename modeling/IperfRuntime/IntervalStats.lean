import IperfRuntime.StreamTraffic

/-!
# Interval statistics

`iperf_init_test`, `iperf_stats_callback` and `iperf_reset_stats`. A sample holds what the
clock and `TCP_INFO` say when a routine comes to a stream; reading `TCP_INFO` succeeds. The
retransmits and round trip times inside a sample are whatever the kernel says.
-/

namespace IperfRuntime.IntervalStats

open ClockReading TestState TestParameters

/-- What a routine reads for one stream. -/
structure Sample where
  /-- `gettimeofday`. -/
  now : Timeval := {}
  /-- `get_total_retransmits`. -/
  totalRetrans : ℤ := 0
  /-- `get_snd_cwnd`. -/
  sndCwnd : ℤ := 0
  /-- `get_rtt`. -/
  rtt : ℤ := 0

/-- `iperf_init_test`; `protocol->init` of UDP only allocates. -/
def iperfInitTest (now : Timeval) (test : IperfTest) : IperfTest :=
  { test with streams := test.streams.map fun sp =>
    { sp with result := { sp.result with startTime := now, startTimeFixed := now } } }

/-- Whether this end sends and counts retransmits. -/
def sendsWithRetransmits (test : IperfTest) : Bool :=
  test.sender && test.senderHasRetransmits != 0

/-- What one end counts in an interval. -/
def transferredThisInterval (test : IperfTest) (rp : IperfStreamResult) : ℕ :=
  if test.sender then rp.bytesSentThisInterval else rp.bytesReceivedThisInterval

/-- The new entry before the protocol has its say. -/
def newInterval (test : IperfTest) (sample : Sample) (rp : IperfStreamResult) :
    IperfIntervalResults :=
  let start := if rp.intervalResults.isEmpty then rp.startTime else rp.endTime
  { omitted := test.omitting
    bytesTransferred := transferredThisInterval test rp
    intervalStartTime := start
    intervalEndTime := sample.now
    intervalDuration := timevalDiff start sample.now }

/-- The TCP part of `iperf_stats_callback` on a sender that counts retransmits. -/
def addTcpInfo (sample : Sample) (temp : IperfIntervalResults) (rp : IperfStreamResult) :
    IperfIntervalResults × IperfStreamResult :=
  let intervalRetrans := sample.totalRetrans - rp.streamPrevTotalRetrans
  ({ temp with
      intervalRetrans := intervalRetrans
      sndCwnd := sample.sndCwnd
      rtt := sample.rtt },
    { rp with
      streamRetrans := rp.streamRetrans + intervalRetrans
      streamPrevTotalRetrans := sample.totalRetrans
      streamMaxSndCwnd := max rp.streamMaxSndCwnd sample.sndCwnd
      streamMaxRtt := max rp.streamMaxRtt sample.rtt
      streamMinRtt :=
        if rp.streamMinRtt = 0 ∨ sample.rtt < rp.streamMinRtt then sample.rtt else rp.streamMinRtt
      streamSumRtt := toInt (rp.streamSumRtt + sample.rtt)
      streamCountRtt := toInt (rp.streamCountRtt + 1) })

/-- The datagram part of `iperf_stats_callback`. -/
def addPacketCounts (sp : IperfStream) (temp : IperfIntervalResults) : IperfIntervalResults :=
  let previous := sp.result.intervalResults.getLast?
  { temp with
    intervalPacketCount := sp.packetCount - (previous.map (·.packetCount)).getD 0
    intervalOutoforderPackets :=
      sp.outoforderPackets - (previous.map (·.outoforderPackets)).getD 0
    intervalCntError := sp.cntError - (previous.map (·.cntError)).getD 0
    packetCount := sp.packetCount
    jitter := sp.jitter
    outoforderPackets := sp.outoforderPackets
    cntError := sp.cntError }

/-- The entry of a tick with the results it is computed into. -/
def intervalEntry (platform : Platform) (test : IperfTest) (sample : Sample) (sp : IperfStream) :
    IperfIntervalResults × IperfStreamResult :=
  let temp := newInterval test sample sp.result
  let rp := { sp.result with endTime := sample.now }
  if test.protocol == .tcp then
    if platform.hasTcpinfo && sendsWithRetransmits test then addTcpInfo sample temp rp
    else (temp, rp)
  else (addPacketCounts sp temp, rp)

/-- One stream of `iperf_stats_callback`. -/
def statsOfStream (platform : Platform) (test : IperfTest) (sample : Sample) (sp : IperfStream) :
    IperfStream :=
  let e := intervalEntry platform test sample sp
  { sp with result := { e.2 with
    intervalResults := sp.result.intervalResults ++ [e.1]
    bytesSentThisInterval := 0
    bytesReceivedThisInterval := 0 } }

/-- `iperf_stats_callback`, with one sample for each stream. -/
def iperfStatsCallback (platform : Platform) (samples : ℕ → Sample) (test : IperfTest) :
    IperfTest :=
  { test with
    streams := test.streams.mapIdx fun i sp => statsOfStream platform test (samples i) sp }

/-- One stream of `iperf_reset_stats`. -/
def resetStream (test : IperfTest) (now : Timeval) (sample : Sample) (sp : IperfStream) :
    IperfStream :=
  { sp with
    omittedPacketCount := sp.packetCount
    omittedCntError := sp.cntError
    omittedOutoforderPackets := sp.outoforderPackets
    jitter := 0
    result := { sp.result with
      bytesSentOmit := sp.result.bytesSent
      bytesReceived := 0
      bytesSentThisInterval := 0
      bytesReceivedThisInterval := 0
      streamPrevTotalRetrans :=
        if sendsWithRetransmits test then sample.totalRetrans
        else sp.result.streamPrevTotalRetrans
      streamRetrans := 0
      startTime := now } }

/-- `iperf_reset_stats`: the clock is read once, `TCP_INFO` for each stream. -/
def iperfResetStats (now : Timeval) (samples : ℕ → Sample) (test : IperfTest) : IperfTest :=
  { test with
    bytesSent := 0
    blocksSent := 0
    streams := test.streams.mapIdx fun i sp => resetStream test now (samples i) sp }

/-- The effect on the test of `client_omit_timer_proc` and `server_omit_timer_proc`. -/
def endOmission (now : Timeval) (samples : ℕ → Sample) (test : IperfTest) : IperfTest :=
  iperfResetStats now samples { test with omitTimer := none, omitting := false }

end IperfRuntime.IntervalStats
