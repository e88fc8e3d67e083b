import IperfRuntime.ClientTimers
import IperfRuntime.ResultsExchange
import IperfRuntime.StreamCreation

/-!
# A client run

`iperf_run_client` against a server that follows the protocol, from
`CREATE_STREAMS` to the report of `iperf_client_end`. The turns of the loop that
neither handle a message nor find the test running change nothing and are left out.
A run that breaks off has no result.
-/

namespace IperfRuntime.ClientRun

open ClockReading JsonTree TimerQueue TestState StreamTraffic StreamCreation ResultsExchange
  ClientTimers

/-- What one turn of the loop gets from the system. -/
structure RoundInput where
  send : SendEnv
  /-- The writable descriptors that `select` left. -/
  writeSet : Finset ℤ
  recv : ℕ → RcvIo
  /-- The readable descriptors that `select` left. -/
  readSet : Finset ℤ
  /-- The clock in front of `tmr_run`. -/
  now : Timeval
  /-- A bound on the timers that `tmr_run` visits. -/
  fuel : ℕ

/-- `iperf_send` or `iperf_recv`, whichever the direction asks for: whether it succeeds,
and the test. -/
def transfer (input : RoundInput) (test : IperfTest) : Bool × IperfTest :=
  if test.reverse then
    let r := iperfRecv input.recv input.readSet test
    (decide (0 ≤ r.1), r.2.1)
  else
    let r := iperfSend input.send (some input.writeSet) test
    (decide (0 ≤ r.rc), r.test)

/-- The test for the end in `iperf_run_client`. -/
def testOver (test : IperfTest) : Bool :=
  !test.omitting &&
    ((test.duration != 0 && test.done) ||
      (test.settings.bytes != 0 && decide (test.settings.bytes ≤ test.bytesSent)) ||
      (test.settings.blocks != 0 && decide (test.settings.blocks ≤ test.blocksSent)))

/-- The last tick, with the state that `TEST_END` leaves. -/
def endTest (platform : Platform) (env : ℕ → CallbackInput) (cpuUtil : ℚ × ℚ × ℚ) (c : Client) :
    Client :=
  let w := runStats platform env
    { c.2 with test := { c.2.test with done := true, cpuUtil := cpuUtil } }
  (c.1, { w with test := { w.test with state := .testEnd } })

/-- One turn of the loop in `TEST_RUNNING`, up to the test for the end. -/
def clientRound (platform : Platform) (env : ℕ → CallbackInput) (input : RoundInput) (c : Client) :
    Option Client :=
  let r := transfer input c.2.test
  if r.1 then
    tmrRun (callClient platform env) input.now input.fuel (c.1, { c.2 with test := r.2 })
  else none

/-- The turns of the loop in `TEST_RUNNING` until the test is over. -/
def clientRounds (platform : Platform) (env : ℕ → CallbackInput) :
    List RoundInput → Client → Option Client
  | [], _ => none
  | input :: rest, c =>
    (clientRound platform env input c).bind fun c =>
      if testOver c.2.test then some c else clientRounds platform env rest c

/-- One turn in `TEST_END`: a receiver goes on draining its sockets. -/
def drain (input : RoundInput) (test : IperfTest) : Bool × IperfTest :=
  if test.reverse then transfer input test else (true, test)

/-- The turns in `TEST_END`. -/
def drains : List RoundInput → IperfTest → Option IperfTest
  | [], test => some test
  | input :: rest, test =>
    if (drain input test).1 then drains rest (drain input test).2 else none

/-- The handler of `EXCHANGE_RESULTS` with the server's message. -/
def exchangeResults (peer : CJson) (test : IperfTest) : Option IperfTest :=
  match getResults peer { test with state := .exchangeResults } with
  | some (true, test) => some test
  | _ => none

/-- The handler of `DISPLAY_RESULTS`: `iperf_client_end` reports and sends `IPERF_DONE`. -/
def displayResults (env : ℕ → CallbackInput) (c : Client) : Client :=
  let w := runReport env { c.2 with test := { c.2.test with state := .displayResults } }
  (c.1, { w with test := { w.test with state := .iperfDone } })

/-- What a run gets from the system and from the server. -/
structure RunInput where
  streams : ℕ → StreamIo
  start : StartInput
  rounds : List RoundInput
  cpuUtil : ℚ × ℚ × ℚ
  drains : List RoundInput
  peer : CJson
  callbacks : ℕ → CallbackInput

/-- The handlers of `CREATE_STREAMS`, `TEST_START` and `TEST_RUNNING`. -/
def startRun (input : RunInput) (q : TimerLists ClientProc) (test : IperfTest) : Option Client :=
  let created := iperfCreateStreams input.streams { test with state := .createStreams }
  let started := handleTestStart input.start q { created.2.1 with state := .testStart }
  if created.1 && started.1 then
    some (started.2.1, { test := { started.2.2 with state := .testRunning } })
  else none

/-- What follows `TEST_END`. -/
def finishRun (input : RunInput) (c : Client) : Option Client :=
  (drains input.drains c.2.test).bind fun test =>
    (exchangeResults input.peer test).map fun test =>
      displayResults input.callbacks (c.1, { c.2 with test := test })

/-- A run that ends normally. -/
def clientRun (platform : Platform) (input : RunInput) (q : TimerLists ClientProc)
    (test : IperfTest) : Option Client :=
  (startRun input q test).bind fun c =>
    (clientRounds platform input.callbacks input.rounds c).bind fun c =>
      finishRun input (endTest platform input.callbacks input.cpuUtil c)

end IperfRuntime.ClientRun
