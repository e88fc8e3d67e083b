import IperfRuntime.IntervalStats
import IperfRuntime.ReportOutput
import IperfRuntime.TimerQueue
import IperfRuntime.TrafficFrame

/-!
# Timers of a client

`create_client_timers`, `create_client_omit_timer` and `iperf_create_send_timers`, the
callbacks they register, and the handler of `TEST_START`. All timers of a run belong to its
one test; the client data of a throttle timer is the position of its stream. Clock readings
are missing when `gettimeofday` fails. The server's timers are set with the same routines
and are modelled with its loop.
-/

namespace IperfRuntime.ClientTimers

open ClockReading TimerQueue TestState ListLoop StreamTraffic TrafficFrame IntervalStats
  ReportOutput

/-- The callbacks of a client with their client data. -/
inductive ClientProc where
  /-- `test_timer_proc`. -/
  | testTimer
  /-- `client_stats_timer_proc`. -/
  | stats
  /-- `client_reporter_timer_proc`. -/
  | reporter
  /-- `client_omit_timer_proc`. -/
  | omission
  /-- `send_timer_proc` for the stream at a position. -/
  | send (stream : ℕ)
  deriving DecidableEq, Repr

/-- What one callback reads besides the test. -/
structure CallbackInput where
  /-- The clock in `iperf_reset_stats`. -/
  now : Timeval
  samples : ℕ → Sample
  convert : PrintfText.Dbl → ℕ
  report : ReportEnv

/-- Inputs of callbacks that read zeroes and find nothing. -/
def quietCallbacks : ℕ → CallbackInput :=
  fun _ => ⟨{}, fun _ => {}, fun _ => 0, ⟨fun _ => none, 0, fun _ => 0⟩⟩

/-- An execution of `iperf_stats_callback` or of `iperf_reporter_callback`. -/
inductive Execution where
  | stats
  /-- The test that was reported and what the report did. -/
  | report (test : IperfTest) (output : List Output)

/-- The test with what its callbacks have done so far. -/
structure ClientWorld where
  test : IperfTest
  /-- Callbacks called, which numbers their inputs. -/
  calls : ℕ := 0
  executions : List Execution := []

/-- The queue with the world of its callbacks. -/
abbrev Client := TimerLists ClientProc × ClientWorld

/-- `test->stats_callback(test)`. -/
def runStats (platform : Platform) (env : ℕ → CallbackInput) (w : ClientWorld) : ClientWorld where
  test := iperfStatsCallback platform (env w.calls).samples w.test
  calls := w.calls + 1
  executions := w.executions ++ [.stats]

/-- `test->reporter_callback(test)`. -/
def runReport (env : ℕ → CallbackInput) (w : ClientWorld) : ClientWorld where
  test := w.test
  calls := w.calls + 1
  executions := w.executions ++
    [.report w.test (iperfReporterCallback (env w.calls).report w.test)]

/-- `tmr_reset` through a pointer that may be NULL. -/
def resetIfSet (now : Timeval) (pointer : Option ℕ) (q : TimerLists ClientProc) :
    TimerLists ClientProc :=
  match pointer with
  | some t => tmrReset now t q
  | none => q

/-- `iperf_check_throttle` on the stream at a position. -/
def throttleStream (convert : PrintfText.Dbl → ℕ) (now : Timeval) (i : ℕ) (test : IperfTest) :
    IperfTest :=
  match test.streams[i]? with
  | some sp =>
    { (iperfCheckThrottle convert now test sp).1 with
      streams := test.streams.set i (iperfCheckThrottle convert now test sp).2 }
  | none => test

/-- The throttle on one stream keeps the frame. -/
theorem throttleStream_frame (convert : PrintfText.Dbl → ℕ) (now : Timeval) (i : ℕ)
    (test : IperfTest) :
    SameFrame test test.streams (throttleStream convert now i test)
      (throttleStream convert now i test).streams := by
  unfold throttleStream
  split
  · rename_i sp hsp
    obtain ⟨htest, hstream⟩ := check_frame convert now test sp
    refine ⟨htest, ?_⟩
    dsimp only
    rw [List.map_set, hstream]
    refine List.ext_getElem? fun j => ?_
    by_cases hj : i = j
    · subst hj
      rw [List.getElem?_set_self', List.getElem?_map, hsp]
      rfl
    · rw [List.getElem?_set_ne hj]
  · exact SameFrame.refl test test.streams

/-- What a callback does to the queue and to the world. -/
def callClient (platform : Platform) (env : ℕ → CallbackInput) (proc : ClientProc) (now : Timeval)
    (c : Client) : Client :=
  match proc with
  | .testTimer => (c.1, { c.2 with test := { c.2.test with timer := none, done := true } })
  | .stats => if c.2.test.done then c else (c.1, runStats platform env c.2)
  | .reporter => if c.2.test.done then c else (c.1, runReport env c.2)
  | .omission =>
    (resetIfSet now c.2.test.reporterTimer (resetIfSet now c.2.test.statsTimer c.1),
      { c.2 with
        test := endOmission (env c.2.calls).now (env c.2.calls).samples c.2.test
        calls := c.2.calls + 1 })
  | .send stream =>
    (c.1, { c.2 with
      test := throttleStream (env c.2.calls).convert now stream c.2.test
      calls := c.2.calls + 1 })

/-- A `double` of seconds as `int64_t` microseconds. -/
def usecsOf (seconds : ℚ) : ℤ := (seconds * secToUs).num.tdiv (seconds * secToUs).den

/-- The system calls behind the handler of `TEST_START`. -/
structure StartInput where
  /-- `protocol->init` and the clock in `iperf_init_test`. -/
  initClock : Option Timeval
  /-- The clock in `create_client_timers`. -/
  timersClock : Option Timeval
  /-- Whether the three `malloc` there would succeed. -/
  timersMalloc : ℕ → Bool
  /-- The clock in `create_client_omit_timer`. -/
  omitClock : Option Timeval
  omitMalloc : Bool
  /-- Whether `gettimeofday` in `iperf_create_send_timers` succeeds. -/
  sendClock : Bool
  /-- The clock that `tmr_create` reads for the stream at a position. -/
  streamClock : ℕ → Timeval
  streamMalloc : ℕ → Bool

/-- A queue and a test, and whether the routine that left them returned zero. -/
abbrev Attempt := Bool × TimerLists ClientProc × IperfTest

/-- The next routine, unless one has failed. -/
def Attempt.andThen (a : Attempt) (next : TimerLists ClientProc → IperfTest → Attempt) : Attempt :=
  if a.1 then next a.2.1 a.2.2 else a

/-- The timer that ends the test, for a test with a duration. -/
def createTestTimer (malloc : Bool) (now : Timeval) (q : TimerLists ClientProc)
    (test : IperfTest) : Attempt :=
  if test.duration ≠ 0 then
    let c := tmrCreate q malloc now .testTimer ((test.duration + test.omitSeconds) * secToUs) false
    (c.1.isSome, c.2, { test with done := false, timer := c.1 })
  else (true, q, test)

/-- The statistics timer, for a test with such an interval. -/
def createStatsTimer (malloc : Bool) (now : Timeval) (q : TimerLists ClientProc)
    (test : IperfTest) : Attempt :=
  if test.statsInterval ≠ 0 then
    let c := tmrCreate q malloc now .stats (usecsOf test.statsInterval) true
    (c.1.isSome, c.2, { test with statsTimer := c.1 })
  else (true, q, test)

/-- The report timer, for a test with such an interval. -/
def createReporterTimer (malloc : Bool) (now : Timeval) (q : TimerLists ClientProc)
    (test : IperfTest) : Attempt :=
  if test.reporterInterval ≠ 0 then
    let c := tmrCreate q malloc now .reporter (usecsOf test.reporterInterval) true
    (c.1.isSome, c.2, { test with reporterTimer := c.1 })
  else (true, q, test)

/-- `create_client_timers`, which forgets the timers it had. -/
def createClientTimers (input : StartInput) (q : TimerLists ClientProc) (test : IperfTest) :
    Attempt :=
  match input.timersClock with
  | none => (false, q, test)
  | some now =>
    let test := { test with timer := none, statsTimer := none, reporterTimer := none }
    ((createTestTimer (input.timersMalloc 0) now q test).andThen
      (createStatsTimer (input.timersMalloc 1) now)).andThen
      (createReporterTimer (input.timersMalloc 2) now)

/-- `create_client_omit_timer`. -/
def createClientOmitTimer (input : StartInput) (q : TimerLists ClientProc) (test : IperfTest) :
    Attempt :=
  if test.omitSeconds = 0 then (true, q, { test with omitTimer := none, omitting := false })
  else
    match input.omitClock with
    | none => (false, q, test)
    | some now =>
      let c := tmrCreate q input.omitMalloc now .omission (test.omitSeconds * secToUs) false
      (c.1.isSome, c.2, { test with omitting := true, omitTimer := c.1 })

/-- One stream of `iperf_create_send_timers`. -/
def sendTimerBody (input : StartInput) (rate : ℕ) :
    Body (Bool × TimerLists ClientProc) IperfStream := fun i s sp =>
  if rate ≠ 0 then
    let c := tmrCreate s.2 (input.streamMalloc i) (input.streamClock i) (.send i) 100000 true
    ((c.1.isSome, c.2), { sp with greenLight := true, sendTimer := c.1 }, c.1.isSome)
  else (s, { sp with greenLight := true }, true)

/-- `iperf_create_send_timers`. -/
def iperfCreateSendTimers (input : StartInput) (q : TimerLists ClientProc) (test : IperfTest) :
    Attempt :=
  if input.sendClock then
    let r := forEach (sendTimerBody input test.settings.rate) 0 (true, q) test.streams
    (r.1.1, r.1.2, { test with streams := r.2 })
  else (false, q, test)

/-- The handler of `TEST_START` in `iperf_handle_message_client`. -/
def handleTestStart (input : StartInput) (q : TimerLists ClientProc) (test : IperfTest) : Attempt :=
  match input.initClock with
  | none => (false, q, test)
  | some now =>
    ((createClientTimers input q (iperfInitTest now test)).andThen
      (createClientOmitTimer input)).andThen fun q test =>
        if test.reverse then (true, q, test) else iperfCreateSendTimers input q test

/-- A stream with what the start of a test sets blanked out. -/
def streamAtStart (sp : IperfStream) : IperfStream :=
  { sp with greenLight := false, sendTimer := none }

/-- A test with what the timers of its start set blanked out. -/
def testAtStart (test : IperfTest) : IperfTest :=
  { test with
    done := false
    timer := none
    statsTimer := none
    reporterTimer := none
    omitTimer := none
    omitting := false
    streams := test.streams.map streamAtStart }

/-- A routine that sets nothing else. -/
def SetsTimers (test : IperfTest) (r : Attempt) : Prop := testAtStart r.2.2 = testAtStart test

/-- Attempts in sequence set timers only if each of them does. -/
theorem SetsTimers.andThen {test : IperfTest} {a : Attempt}
    {next : TimerLists ClientProc → IperfTest → Attempt} (ha : SetsTimers test a)
    (hnext : ∀ q test, SetsTimers test (next q test)) : SetsTimers test (a.andThen next) := by
  unfold Attempt.andThen
  split
  · exact (hnext a.2.1 a.2.2).trans ha
  · exact ha

/-- Starting the client's timers sets timers only. -/
theorem createClientTimers_sets (input : StartInput) (q : TimerLists ClientProc)
    (test : IperfTest) : SetsTimers test (createClientTimers input q test) := by
  unfold createClientTimers
  split
  · rfl
  · rename_i now _
    have hfirst : SetsTimers test (createTestTimer (input.timersMalloc 0) now q
        { test with timer := none, statsTimer := none, reporterTimer := none }) := by
      unfold createTestTimer
      split
      · rfl
      · rfl
    refine (hfirst.andThen ?_).andThen ?_
    · intro q test
      unfold createStatsTimer
      split
      · rfl
      · rfl
    · intro q test
      unfold createReporterTimer
      split
      · rfl
      · rfl

/-- So does starting the omit timer. -/
theorem createClientOmitTimer_sets (input : StartInput) (q : TimerLists ClientProc)
    (test : IperfTest) : SetsTimers test (createClientOmitTimer input q test) := by
  unfold createClientOmitTimer
  split
  · rfl
  · split
    · rfl
    · rfl

/-- So does starting the timers of the streams. -/
theorem createSendTimers_sets (input : StartInput) (q : TimerLists ClientProc)
    (test : IperfTest) : SetsTimers test (iperfCreateSendTimers input q test) := by
  have hbody : ∀ i (s : Bool × TimerLists ClientProc) pre sp post,
      (pre ++ sp :: post).map streamAtStart = test.streams.map streamAtStart →
      (pre ++ (sendTimerBody input test.settings.rate i s sp).2.1 :: post).map streamAtStart =
        test.streams.map streamAtStart := by
    intro i s pre sp post hs
    rw [List.map_append, List.map_cons] at hs ⊢
    unfold sendTimerBody
    split
    · exact hs
    · exact hs
  unfold iperfCreateSendTimers
  split
  · have hloop := forEach_invariant (fun (_ : Bool × TimerLists ClientProc) l =>
      l.map streamAtStart = test.streams.map streamAtStart) hbody 0 (true, q) test.streams rfl
    unfold SetsTimers testAtStart
    dsimp only
    rw [hloop]
  · rfl

/-- Behind `iperf_init_test` the handler of `TEST_START` sets nothing else. -/
theorem handleTestStart_sets {input : StartInput} {now : Timeval}
    (hclock : input.initClock = some now) (q : TimerLists ClientProc) (test : IperfTest) :
    SetsTimers (iperfInitTest now test) (handleTestStart input q test) := by
  unfold handleTestStart
  rw [hclock]
  refine ((createClientTimers_sets input q _).andThen
    (createClientOmitTimer_sets input)).andThen ?_
  intro q test
  split
  · rfl
  · exact createSendTimers_sets input q test

end IperfRuntime.ClientTimers
