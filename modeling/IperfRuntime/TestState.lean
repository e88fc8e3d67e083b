import IperfRuntime.ClockReading
import IperfRuntime.JsonTree
import Mathlib.Data.Finset.Insert
import Mathlib.Data.Int.Order.Basic

/-!
# The test structure

`iperf.h`: the settings, streams and results of one test, with the constructors
and setters that every entry point uses. Byte and block counters are naturals,
C `int` fields are integers, and `double` fields are exact rationals. A timer
pointer is the address of a timer on the queue.
-/

namespace IperfRuntime.TestState

open ClockReading JsonTree

/-- The control states of `iperf_api.h`. -/
inductive StateByte where
  /-- The zero byte of a freshly cleared test. -/
  | initial
  | testStart
  | testRunning
  | resultRequest
  | testEnd
  | streamBegin
  | streamRunning
  | streamEnd
  | allStreamsEnd
  | paramExchange
  | createStreams
  | serverTerminate
  | clientTerminate
  | exchangeResults
  | displayResults
  | iperfStart
  | iperfDone
  | accessDenied
  | serverError
  /-- Any other signed byte. -/
  | other (code : ℤ)
  deriving DecidableEq, Repr

/-- `role`, zero until an option or a configuration sets it. -/
inductive Role where
  | unset
  | client
  | server
  deriving DecidableEq, Repr

/-- Protocol identifiers; this build registers the first two only. -/
inductive ProtocolId where
  | tcp
  | udp
  | sctp
  deriving DecidableEq, Repr

/-- What the platform headers offer. -/
structure Platform where
  /-- `has_tcpinfo`. -/
  hasTcpinfo : Bool
  /-- `has_tcpinfo_retransmits`. -/
  hasTcpinfoRetransmits : Bool
  /-- The header revision with the retransmit field already has `TCP_INFO`. -/
  retransmits_tcpinfo : hasTcpinfoRetransmits = true → hasTcpinfo = true

/-- `DEFAULT_TCP_BLKSIZE`. -/
def defaultTcpBlksize : ℤ := 128 * 1024

/-- `DEFAULT_UDP_BLKSIZE`. -/
def defaultUdpBlksize : ℤ := 8192

/-- `DEFAULT_SCTP_BLKSIZE`. -/
def defaultSctpBlksize : ℤ := 64 * 1024

/-- `COOKIE_SIZE`. -/
def cookieSize : ℕ := 37

/-- `OMIT`. -/
def omitDefault : ℤ := 0

/-- `DURATION`. -/
def durationDefault : ℤ := 10

/-- `UDP_RATE`. -/
def udpRate : ℕ := 1024 * 1024

/-- `SEC_TO_US`. -/
def secToUs : ℤ := 1000000

/-- `struct iperf_settings`. -/
structure IperfSettings where
  /-- Window size for TCP. -/
  socketBufsize : ℤ := 0
  /-- Size of reads and writes. -/
  blksize : ℤ := 0
  /-- Target data rate in bits per second. -/
  rate : ℕ := 0
  /-- Packets per burst. -/
  burst : ℤ := 0
  /-- TCP maximum segment size. -/
  mss : ℤ := 0
  /-- Type of service bits. -/
  tos : ℤ := 0
  /-- IPv6 flow label. -/
  flowlabel : ℤ := 0
  /-- Number of bytes to send. -/
  bytes : ℕ := 0
  /-- Number of blocks to send. -/
  blocks : ℕ := 0
  /-- The `-f` character. -/
  unitFormat : Char := 'a'
  deriving DecidableEq

/-- `struct iperf_interval_results`; fields that a protocol branch does not
assign are zero. -/
structure IperfIntervalResults where
  /-- Bytes transferred in this interval. -/
  bytesTransferred : ℕ := 0
  /-- Where the interval starts. -/
  intervalStartTime : Timeval := {}
  /-- Where the interval ends. -/
  intervalEndTime : Timeval := {}
  /-- Its length in seconds. -/
  intervalDuration : ℚ := 0
  /-- Datagrams counted in the interval. -/
  intervalPacketCount : ℤ := 0
  /-- Datagrams out of order in the interval. -/
  intervalOutoforderPackets : ℤ := 0
  /-- Datagrams lost in the interval. -/
  intervalCntError : ℤ := 0
  /-- The stream's packet count at the end of the interval. -/
  packetCount : ℤ := 0
  /-- The stream's jitter at the end of the interval. -/
  jitter : ℚ := 0
  /-- The stream's out-of-order count at the end of the interval. -/
  outoforderPackets : ℤ := 0
  /-- The stream's loss count at the end of the interval. -/
  cntError : ℤ := 0
  /-- Whether the interval was recorded during the omit period. -/
  omitted : Bool := false
  /-- TCP retransmits of the interval. -/
  intervalRetrans : ℤ := 0
  /-- Congestion window in octets. -/
  sndCwnd : ℤ := 0
  /-- Round trip time in microseconds. -/
  rtt : ℤ := 0
  deriving DecidableEq

/-- `struct iperf_stream_result`. -/
structure IperfStreamResult where
  /-- Bytes received since the end of omission. -/
  bytesReceived : ℕ := 0
  /-- Bytes sent since the stream was created. -/
  bytesSent : ℕ := 0
  /-- Bytes received since the last tick. -/
  bytesReceivedThisInterval : ℕ := 0
  /-- Bytes sent since the last tick. -/
  bytesSentThisInterval : ℕ := 0
  /-- Value of `bytesSent` at the end of omission. -/
  bytesSentOmit : ℕ := 0
  /-- Kernel retransmit total at the last sample. -/
  streamPrevTotalRetrans : ℤ := 0
  /-- Retransmits charged to the stream. -/
  streamRetrans : ℤ := 0
  /-- Greatest round trip time. -/
  streamMaxRtt : ℤ := 0
  /-- Least round trip time, zero before the first sample. -/
  streamMinRtt : ℤ := 0
  /-- Sum of the round trip times. -/
  streamSumRtt : ℤ := 0
  /-- Number of round trip times. -/
  streamCountRtt : ℤ := 0
  /-- Greatest congestion window. -/
  streamMaxSndCwnd : ℤ := 0
  /-- Start of the measurement, moved at the end of omission. -/
  startTime : Timeval := {}
  /-- End of the last interval. -/
  endTime : Timeval := {}
  /-- Start of the test, never moved. -/
  startTimeFixed : Timeval := {}
  /-- Recorded intervals, the oldest first. -/
  intervalResults : List IperfIntervalResults := []
  deriving DecidableEq

/-- `struct iperf_stream`. -/
structure IperfStream where
  /-- Data socket. -/
  socket : ℤ := 0
  /-- Position-based identifier exchanged with the peer. -/
  id : ℤ := 0
  /-- Results of the stream. -/
  result : IperfStreamResult := {}
  /-- The throttle timer. -/
  sendTimer : Option ℕ := none
  /-- Whether the throttle allows sending. -/
  greenLight : Bool := false
  /-- Descriptor of the buffer file. -/
  bufferFd : ℤ := 0
  /-- Descriptor of the `-F` file, `-1` without one. -/
  diskfileFd : ℤ := -1
  /-- Datagrams sent, or the largest counter received. -/
  packetCount : ℤ := 0
  /-- Value of `packetCount` at the end of omission. -/
  omittedPacketCount : ℤ := 0
  /-- Running jitter estimate in seconds. -/
  jitter : ℚ := 0
  /-- Transit time of the last datagram. -/
  prevTransit : ℚ := 0
  /-- Datagrams that arrived late. -/
  outoforderPackets : ℤ := 0
  /-- Value of `outoforderPackets` at the end of omission. -/
  omittedOutoforderPackets : ℤ := 0
  /-- Datagrams counted as lost. -/
  cntError : ℤ := 0
  /-- Value of `cntError` at the end of omission. -/
  omittedCntError : ℤ := 0
  deriving DecidableEq

/-- `struct iperf_test`. -/
structure IperfTest where
  /-- Client or server. -/
  role : Role := .unset
  /-- Whether this end sends the test data. -/
  sender : Bool := false
  /-- Retransmit support of the sending end; minus one when a receiver sent it. -/
  senderHasRetransmits : ℤ := 0
  /-- The protocol in use. -/
  protocol : ProtocolId := .tcp
  /-- Protocols registered by `iperf_defaults`. -/
  protocols : List ProtocolId := []
  /-- Current control state. -/
  state : StateByte := .initial
  /-- `-c` host. -/
  serverHostname : Option String := none
  /-- `--tmp-path`. -/
  tmpTemplate : Option String := none
  /-- `-B` address. -/
  bindAddress : Option String := none
  /-- `--cport`. -/
  bindPort : ℤ := 0
  /-- `-p`. -/
  serverPort : ℤ := 0
  /-- Seconds omitted at the start. -/
  omitSeconds : ℤ := 0
  /-- Seconds to run. -/
  duration : ℤ := 0
  /-- `-F` file name. -/
  diskfileName : Option String := none
  /-- `-A` for this end. -/
  affinity : ℤ := 0
  /-- `-A` for the server. -/
  serverAffinity : ℤ := 0
  /-- `-T`. -/
  title : Option String := none
  /-- `-C`. -/
  congestion : Option String := none
  /-- Control socket. -/
  ctrlSck : ℤ := 0
  /-- Listening socket of a server. -/
  listener : ℤ := 0
  /-- Socket that accepts streams. -/
  protListener : ℤ := 0
  /-- `-D`. -/
  daemon : Bool := false
  /-- `-1`. -/
  oneOff : Bool := false
  /-- `-N`. -/
  noDelay : Bool := false
  /-- `-R`. -/
  reverse : Bool := false
  /-- `-V`. -/
  verbose : Bool := false
  /-- `-J`. -/
  jsonOutput : Bool := false
  /-- `-Z`. -/
  zerocopy : Bool := false
  /-- `-d`. -/
  debug : Bool := false
  /-- `--get-server-output`. -/
  getServerOutput : Bool := false
  /-- `--udp-counters-64bit`. -/
  udpCounters64bit : Bool := false
  /-- `--no-fq-socket-pacing`. -/
  noFqSocketPacing : Bool := false
  /-- Rounds of one `iperf_send` call without a rate. -/
  multisend : ℕ := 0
  /-- Highest descriptor in use. -/
  maxFd : ℤ := 0
  /-- Descriptors watched for reading. -/
  readSet : Finset ℤ := ∅
  /-- Descriptors watched for writing. -/
  writeSet : Finset ℤ := ∅
  /-- Whether the omit period is running. -/
  omitting : Bool := false
  /-- Seconds between statistics ticks. -/
  statsInterval : ℚ := 0
  /-- Seconds between reports. -/
  reporterInterval : ℚ := 0
  /-- Timer that ends the omit period. -/
  omitTimer : Option ℕ := none
  /-- Timer that ends the test. -/
  timer : Option ℕ := none
  /-- Whether the test is over for the timers. -/
  done : Bool := false
  /-- Statistics timer. -/
  statsTimer : Option ℕ := none
  /-- Report timer. -/
  reporterTimer : Option ℕ := none
  /-- Processor use of this end: total, user, system. -/
  cpuUtil : ℚ × ℚ × ℚ := (0, 0, 0)
  /-- Processor use of the peer. -/
  remoteCpuUtil : ℚ × ℚ × ℚ := (0, 0, 0)
  /-- Streams the test is to have. -/
  numStreams : ℤ := 0
  /-- Bytes transferred over all streams. -/
  bytesSent : ℕ := 0
  /-- Blocks transferred over all streams. -/
  blocksSent : ℕ := 0
  /-- The streams, in the order of their creation. -/
  streams : List IperfStream := []
  /-- The settings. -/
  settings : IperfSettings := {}
  /-- Server output received as text. -/
  serverOutputText : Option String := none
  /-- Server output received as JSON. -/
  jsonServerOutput : Option CJson := none
  /-- Lines a server keeps for its client. -/
  serverOutputList : List String := []
  /-- Whether Java callbacks are attached. -/
  jniCallback : Bool := false

/-- `iperf_new_test` clears all memory; only the allocations can fail. -/
def iperfNewTest : IperfTest := { settings := { unitFormat := Char.ofNat 0 } }

/-- `check_sender_has_retransmits`. -/
def checkSenderHasRetransmits (platform : Platform) (ipt : IperfTest) : IperfTest :=
  if ipt.sender && ipt.protocol == .tcp && platform.hasTcpinfoRetransmits then
    { ipt with senderHasRetransmits := 1 }
  else { ipt with senderHasRetransmits := 0 }

/-- `iperf_set_test_role`. -/
def iperfSetTestRole (platform : Platform) (role : Role) (ipt : IperfTest) : IperfTest :=
  let sender := match role with
    | .client => true
    | .server => false
    | .unset => ipt.sender
  let sender := if ipt.reverse then !sender else sender
  checkSenderHasRetransmits platform { ipt with role := role, sender := sender }

/-- `iperf_set_test_reverse`, which toggles `sender` on every call. -/
def iperfSetTestReverse (platform : Platform) (reverse : Bool) (ipt : IperfTest) : IperfTest :=
  let sender := if reverse then !ipt.sender else ipt.sender
  checkSenderHasRetransmits platform { ipt with reverse := reverse, sender := sender }

/-- `set_protocol`: an unregistered protocol leaves the test alone. -/
def setProtocol (platform : Platform) (protocol : ProtocolId) (ipt : IperfTest) : IperfTest :=
  if ipt.protocols.contains protocol then
    checkSenderHasRetransmits platform { ipt with protocol := protocol }
  else ipt

/-- `iperf_defaults`. -/
def iperfDefaults (platform : Platform) (testp : IperfTest) : IperfTest :=
  setProtocol platform .tcp { testp with
    omitSeconds := omitDefault
    duration := durationDefault
    diskfileName := none
    affinity := -1
    serverAffinity := -1
    title := none
    congestion := none
    serverPort := 5201
    ctrlSck := -1
    protListener := -1
    statsInterval := 1
    reporterInterval := 1
    numStreams := 1
    settings := { testp.settings with
      unitFormat := 'a'
      socketBufsize := 0
      blksize := defaultTcpBlksize
      rate := 0
      burst := 0
      mss := 0
      bytes := 0
      blocks := 0 }
    multisend := 10
    streams := []
    protocols := [.tcp, .udp]
    serverOutputList := [] }

/-- Only the retransmit flag depends on the platform. -/
theorem checkSenderHasRetransmits_eq (platform : Platform) (ipt : IperfTest) :
    checkSenderHasRetransmits platform ipt =
      { ipt with senderHasRetransmits :=
        if ipt.sender && ipt.protocol == .tcp && platform.hasTcpinfoRetransmits
        then 1 else 0 } := by
  unfold checkSenderHasRetransmits
  split <;> rfl

end IperfRuntime.TestState
