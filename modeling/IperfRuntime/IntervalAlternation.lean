import IperfRuntime.ClientRun
import IperfRuntime.IntervalReports
import IperfRuntime.ResultsFrame
import IperfRuntime.TimerPairs
import IperfRuntime.TrafficFrame

/-!
# Every interval is reported once

The executions of `iperf_stats_callback` and of `iperf_reporter_callback` over a client run.
Their timers are a pair on the queue, so each tick is reported before anything else runs,
and the last tick is reported by `iperf_client_end`. Only client runs that come to their end
are considered.
-/

namespace IperfRuntime.IntervalAlternation

open ClockReading JsonTree TimerQueue TimerPairs TestState StreamTraffic TrafficFrame
  IntervalStats StreamCreation ResultsExchange ResultsFrame ReportOutput IntervalReports
  ClientTimers ClientRun

/-- Statistics and reports in turn, beginning with statistics and ending with a report. -/
def Alternating : List Execution → Prop
  | [] => True
  | .stats :: .report _ _ :: rest => Alternating rest
  | _ => False

/-- A calculation followed by its report keeps the alternation. -/
theorem Alternating.append {log : List Execution} (h : Alternating log) (test : IperfTest)
    (output : List Output) : Alternating (log ++ [.stats, .report test output]) := by
  induction log using Alternating.induct with
  | case1 => exact trivial
  | case2 test' output' rest ih => exact ih h
  | case3 log hne hne' =>
    exfalso
    unfold Alternating at h
    split at h
    · exact hne rfl
    · exact hne' _ _ _ rfl
    · exact h

/-- The entry of the stream at a position that an execution prints. -/
def Execution.printed (i : ℕ) : Execution → Option IperfIntervalResults
  | .stats => none
  | .report test _ => (test.streams[i]?).bind fun sp => sp.result.intervalResults.getLast?

/-- The entries of a stream that were printed, in order. -/
def printedEntries (i : ℕ) (log : List Execution) : List IperfIntervalResults :=
  log.filterMap (Execution.printed i)

/-- The entries printed by two logs are those of the first and then those of the second. -/
theorem printedEntries_append (i : ℕ) (a b : List Execution) :
    printedEntries i (a ++ b) = printedEntries i a ++ printedEntries i b :=
  List.filterMap_append

/-- The settings that decide how a report is delivered. -/
structure SameSettings (test test' : IperfTest) : Prop where
  jniCallback : test'.jniCallback = test.jniCallback
  jsonOutput : test'.jsonOutput = test.jsonOutput
  numStreams : test'.numStreams = test.numStreams

/-- Settings that stay the same twice stay the same. -/
theorem SameSettings.trans {a b c : IperfTest} (h : SameSettings a b) (h' : SameSettings b c) :
    SameSettings a c where
  jniCallback := h'.jniCallback.trans h.jniCallback
  jsonOutput := h'.jsonOutput.trans h.jsonOutput
  numStreams := h'.numStreams.trans h.numStreams

/-- What the reports read of a test, and that the rest of the client leaves alone. -/
structure SameReports (test test' : IperfTest) : Prop where
  settings : SameSettings test test'
  intervals : test'.streams.map (·.result.intervalResults) =
    test.streams.map (·.result.intervalResults)

/-- A test has the settings and the results of itself. -/
theorem SameReports.refl (test : IperfTest) : SameReports test test := ⟨⟨rfl, rfl, rfl⟩, rfl⟩

/-- Results that stay the same twice stay the same. -/
theorem SameReports.trans {a b c : IperfTest} (h : SameReports a b) (h' : SameReports b c) :
    SameReports a c where
  settings := h.settings.trans h'.settings
  intervals := h'.intervals.trans h.intervals

/-- Such tests have the same number of streams. -/
theorem SameReports.length {test test' : IperfTest} (h : SameReports test test') :
    test'.streams.length = test.streams.length := by
  have hl := congrArg List.length h.intervals
  rwa [List.length_map, List.length_map] at hl

/-- A stream has a counterpart with the same entries. -/
theorem SameReports.stream {test test' : IperfTest} (h : SameReports test test') {i : ℕ}
    {sp' : IperfStream} (hsp : test'.streams[i]? = some sp') :
    ∃ sp, test.streams[i]? = some sp ∧
      sp.result.intervalResults = sp'.result.intervalResults := by
  have hi := congrArg (·[i]?) h.intervals
  rw [List.getElem?_map, List.getElem?_map, hsp, Option.map_some] at hi
  exact Option.map_eq_some_iff.mp hi.symm

/-- What has been reported so far of a test with the settings of `base`. -/
structure ReportedSoFar (base test : IperfTest) (log : List Execution) : Prop where
  settings : SameSettings base test
  length : 1 ≤ test.numStreams → test.numStreams = test.streams.length
  delivered : ∀ reported output, .report reported output ∈ log →
    SameSettings base reported ∧ Delivered reported output

/-- What has been reported so far only depends on settings and results. -/
theorem ReportedSoFar.same {base test test' : IperfTest} {log : List Execution}
    (h : ReportedSoFar base test log) (hs : SameReports test test') :
    ReportedSoFar base test' log where
  settings := h.settings.trans hs.settings
  length := by
    rw [hs.settings.numStreams, hs.length]
    exact h.length
  delivered := h.delivered

/-- All ticks so far have been reported. -/
structure Recorded (base test : IperfTest) (log : List Execution) : Prop where
  reported : ReportedSoFar base test log
  alternating : Alternating log
  entries : ∀ i sp, test.streams[i]? = some sp → printedEntries i log = sp.result.intervalResults

/-- The last tick has not been reported. -/
structure Ticked (base test : IperfTest) (log : List Execution) : Prop where
  reported : ReportedSoFar base test log
  alternating : ∃ before, log = before ++ [.stats] ∧ Alternating before
  entries : ∀ i sp, test.streams[i]? = some sp →
    ∃ irp, sp.result.intervalResults = printedEntries i log ++ [irp]

/-- So does the state between two intervals. -/
theorem Recorded.same {base test test' : IperfTest} {log : List Execution}
    (h : Recorded base test log) (hs : SameReports test test') : Recorded base test' log where
  reported := h.reported.same hs
  alternating := h.alternating
  entries := by
    intro i sp' hsp'
    obtain ⟨sp, hsp, heq⟩ := hs.stream hsp'
    rw [h.entries i sp hsp, heq]

/-- So does the state between a calculation and its report. -/
theorem Ticked.same {base test test' : IperfTest} {log : List Execution}
    (h : Ticked base test log) (hs : SameReports test test') : Ticked base test' log where
  reported := h.reported.same hs
  alternating := h.alternating
  entries := by
    intro i sp' hsp'
    obtain ⟨sp, hsp, heq⟩ := hs.stream hsp'
    rw [← heq]
    exact h.entries i sp hsp

/-- A tick appends one entry to every stream. -/
theorem statsCallback_stream {platform : Platform} {samples : ℕ → Sample} {test : IperfTest}
    {i : ℕ} {sp' : IperfStream}
    (h : (iperfStatsCallback platform samples test).streams[i]? = some sp') :
    ∃ sp irp, test.streams[i]? = some sp ∧
      sp'.result.intervalResults = sp.result.intervalResults ++ [irp] := by
  unfold iperfStatsCallback at h
  rw [List.getElem?_mapIdx] at h
  obtain ⟨sp, hsp, rfl⟩ := Option.map_eq_some_iff.mp h
  exact ⟨sp, _, hsp, rfl⟩

/-- From between two intervals, a calculation leads to a report that is due. -/
theorem Recorded.tick (platform : Platform) (env : ℕ → CallbackInput) {base : IperfTest}
    {w : ClientWorld} (h : Recorded base w.test w.executions) :
    Ticked base (runStats platform env w).test (runStats platform env w).executions where
  reported := by
    refine ⟨⟨h.reported.settings.jniCallback, h.reported.settings.jsonOutput,
      h.reported.settings.numStreams⟩, ?_, ?_⟩
    · dsimp only [runStats, iperfStatsCallback]
      rw [List.length_mapIdx]
      exact h.reported.length
    · intro reported output hmem
      rcases List.mem_append.mp hmem with hmem | hmem
      · exact h.reported.delivered reported output hmem
      · simp at hmem
  alternating := ⟨w.executions, rfl, h.alternating⟩
  entries := by
    intro i sp' hsp'
    obtain ⟨sp, irp, hsp, hentries⟩ := statsCallback_stream hsp'
    refine ⟨irp, ?_⟩
    dsimp only [runStats]
    rw [hentries, printedEntries_append, h.entries i sp hsp]
    exact congrArg (· ++ [irp]) (List.append_nil _).symm

/-- The report that is due leads back to between two intervals, with one entry more that has
been printed for every stream. -/
theorem Ticked.report (env : ℕ → CallbackInput) {base : IperfTest} {w : ClientWorld}
    (h : Ticked base w.test w.executions)
    (hstate : w.test.state = .testRunning ∨ w.test.state = .displayResults) :
    Recorded base (runReport env w).test (runReport env w).executions where
  reported := by
    refine ⟨h.reported.settings, h.reported.length, ?_⟩
    intro reported output hmem
    rcases List.mem_append.mp hmem with hmem | hmem
    · exact h.reported.delivered reported output hmem
    · have heq := List.mem_singleton.mp hmem
      cases heq
      refine ⟨h.reported.settings, report_delivered _ hstate h.reported.length ?_⟩
      intro sp hsp
      obtain ⟨i, hi⟩ := List.mem_iff_getElem?.mp hsp
      obtain ⟨irp, hentries⟩ := h.entries i sp hi
      rw [hentries]
      simp
  alternating := by
    obtain ⟨before, hlog, halt⟩ := h.alternating
    dsimp only [runReport]
    rw [hlog, List.append_assoc]
    exact halt.append _ _
  entries := by
    intro i sp hsp
    obtain ⟨irp, hentries⟩ := h.entries i sp hsp
    have hlast : Execution.printed i
        (.report w.test (iperfReporterCallback (env w.calls).report w.test)) = some irp := by
      dsimp only [Execution.printed, runReport] at hsp ⊢
      rw [hsp, Option.bind_some, hentries, List.getLast?_concat]
    have hprinted : printedEntries i
        [.report w.test (iperfReporterCallback (env w.calls).report w.test)] = [irp] := by
      unfold printedEntries
      rw [List.filterMap_cons_some hlast, List.filterMap_nil]
    dsimp only [runReport]
    rw [printedEntries_append, hprinted, hentries]

/-- A client in `TEST_RUNNING` whose ticks have all been reported. -/
structure Running (base : IperfTest) (p : Pair ClientProc) (w : ClientWorld) : Prop where
  statsTimer : w.test.statsTimer = some p.first
  reporterTimer : w.test.reporterTimer = some p.second
  state : w.test.state = .testRunning
  recorded : Recorded base w.test w.executions

/-- What a run keeps besides the reports. -/
structure SameRun (test test' : IperfTest) : Prop where
  statsTimer : test'.statsTimer = test.statsTimer
  reporterTimer : test'.reporterTimer = test.reporterTimer
  state : test'.state = test.state
  reports : SameReports test test'

/-- A run is not disturbed by what keeps its timers, its results and its log. -/
theorem Running.same {base : IperfTest} {p : Pair ClientProc} {w w' : ClientWorld}
    (h : Running base p w) (hs : SameRun w.test w'.test) (hlog : w'.executions = w.executions) :
    Running base p w' where
  statsTimer := hs.statsTimer.trans h.statsTimer
  reporterTimer := hs.reporterTimer.trans h.reporterTimer
  state := hs.state.trans h.state
  recorded := by
    rw [hlog]
    exact h.recorded.same hs.reports

/-- Equal frames mean the same run. -/
theorem sameRun_of_frame {test test' : IperfTest}
    (h : SameFrame test test.streams test' test'.streams) : SameRun test test' := by
  have hstats := congrArg IperfTest.statsTimer h.test
  have hreporter := congrArg IperfTest.reporterTimer h.test
  have hstate := congrArg IperfTest.state h.test
  have hjni := congrArg IperfTest.jniCallback h.test
  have hjson := congrArg IperfTest.jsonOutput h.test
  have hnum := congrArg IperfTest.numStreams h.test
  have hintervals := congrArg (List.map fun sp : IperfStream => sp.result.intervalResults) h.streams
  rw [List.map_map, List.map_map] at hintervals
  exact ⟨hstats, hreporter, hstate, ⟨⟨hjni, hjson, hnum⟩, hintervals⟩⟩

/-- The end of the omitted seconds keeps the timers and the settings. -/
theorem sameRun_endOmission (now : Timeval) (samples : ℕ → Sample) (test : IperfTest) :
    SameRun test (endOmission now samples test) where
  statsTimer := rfl
  reporterTimer := rfl
  state := rfl
  reports := by
    refine ⟨⟨rfl, rfl, rfl⟩, List.ext_getElem? fun i => ?_⟩
    dsimp only [endOmission, iperfResetStats]
    rw [List.getElem?_map, List.getElem?_map, List.getElem?_mapIdx, Option.map_map]
    rfl

/-- The callbacks of the client treat its two interval timers as a pair: neither is cancelled
or reset, and what runs between them keeps the results. -/
theorem keepsPair_client (platform : Platform) (env : ℕ → CallbackInput) (base : IperfTest)
    (now : Timeval) (a b : ℕ) (usecs : ℤ) :
    KeepsPair ⟨a, b, .stats, .reporter, usecs⟩ (callClient platform env) now
      (Running base ⟨a, b, .stats, .reporter, usecs⟩) where
  first := by
    intro q w
    dsimp only [callClient]
    split
    · rfl
    · rfl
  second := by
    intro q w
    dsimp only [callClient]
    split
    · rfl
    · rfl
  both := by
    intro q q' w h
    cases hdone : w.test.done with
    | true =>
      have hfirst : (callClient platform env .stats now (q, w)).2 = w := by
        simp [callClient, hdone]
      have hsecond : (callClient platform env .reporter now (q', w)).2 = w := by
        simp [callClient, hdone]
      rw [hfirst, hsecond]
      exact h
    | false =>
      have hfirst : (callClient platform env .stats now (q, w)).2 = runStats platform env w := by
        simp [callClient, hdone]
      have hstill : (runStats platform env w).test.done = false := hdone
      have hsecond : (callClient platform env .reporter now (q', runStats platform env w)).2 =
          runReport env (runStats platform env w) := by
        simp [callClient, hstill]
      rw [hfirst, hsecond]
      exact ⟨h.statsTimer, h.reporterTimer, h.state, (h.recorded.tick platform env).report env
        (Or.inl h.state)⟩
  other := by
    intro proc hfirst hsecond time q w hpaired h
    cases proc with
    | stats => exact absurd rfl hfirst
    | reporter => exact absurd rfl hsecond
    | testTimer =>
      exact ⟨⟨time, hpaired⟩, h.same ⟨rfl, rfl, rfl, ⟨⟨rfl, rfl, rfl⟩, rfl⟩⟩ rfl⟩
    | omission =>
      refine ⟨⟨addUsecs now usecs, ?_⟩, h.same (sameRun_endOmission _ _ _) rfl⟩
      dsimp only [callClient]
      rw [h.statsTimer, h.reporterTimer]
      exact hpaired.reset_both now
    | send stream =>
      exact ⟨⟨time, hpaired⟩, h.same (sameRun_of_frame (throttleStream_frame _ _ _ _)) rfl⟩

/-- So does a round of reads and writes. -/
theorem transfer_same (input : RoundInput) (test : IperfTest) :
    SameRun test (transfer input test).2 := by
  unfold transfer
  split
  · exact sameRun_of_frame (iperfRecv_frame _ _ _)
  · exact sameRun_of_frame (iperfSend_frame _ _ _)

/-- The queue with a pair and the client that runs on it. -/
def RunningClient (base : IperfTest) (p : Pair ClientProc) (c : Client) : Prop :=
  (∃ time, Paired p time c.1) ∧ Running base p c.2

variable {platform : Platform} {env : ℕ → CallbackInput} {base : IperfTest}

/-- One turn of the loop. -/
theorem clientRound_running {a b : ℕ} {usecs : ℤ} {input : RoundInput} {c c' : Client}
    (h : RunningClient base ⟨a, b, .stats, .reporter, usecs⟩ c)
    (hround : clientRound platform env input c = some c') :
    RunningClient base ⟨a, b, .stats, .reporter, usecs⟩ c' := by
  have hrunning : Running base ⟨a, b, .stats, .reporter, usecs⟩
      { c.2 with test := (transfer input c.2.test).2 } :=
    h.2.same (transfer_same input c.2.test) rfl
  have hkeeps := keepsPair_client platform env base input.now a b usecs
  unfold clientRound at hround
  dsimp only at hround
  split at hround
  · exact tmrRun_paired hkeeps (w := (c.1, { c.2 with test := (transfer input c.2.test).2 })) h.1
      hrunning hround
  · cases hround

/-- All turns of the loop until the test is over. -/
theorem clientRounds_running {a b : ℕ} {usecs : ℤ} {rounds : List RoundInput} {c c' : Client}
    (h : RunningClient base ⟨a, b, .stats, .reporter, usecs⟩ c)
    (hrounds : clientRounds platform env rounds c = some c') :
    RunningClient base ⟨a, b, .stats, .reporter, usecs⟩ c' := by
  induction rounds generalizing c with
  | nil => cases hrounds
  | cons input rest ih =>
    obtain ⟨next, hround, hnext⟩ := Option.bind_eq_some_iff.mp hrounds
    have hrunning := clientRound_running h hround
    split at hnext
    · cases hnext
      exact hrunning
    · exact ih hrunning hnext

/-- Attempts in sequence succeed exactly if the first one does, and then the second one. -/
theorem andThen_true {a : Attempt} {next : TimerLists ClientProc → IperfTest → Attempt}
    (h : (a.andThen next).1 = true) : a.1 = true ∧ a.andThen next = next a.2.1 a.2.2 := by
  unfold Attempt.andThen at h ⊢
  split
  · rename_i ha
    exact ⟨ha, rfl⟩
  · rename_i ha
    rw [if_neg ha] at h
    exact absurd h ha

/-- The timer that ends the test is none of the interval timers. -/
theorem createTestTimer_spec (malloc : Bool) (now : Timeval) {q : TimerLists ClientProc}
    (test : IperfTest) (hq : q.Valid) (hempty : q.timers = []) :
    (createTestTimer malloc now q test).2.1.Valid ∧
      (∀ t ∈ (createTestTimer malloc now q test).2.1.timers,
        t.proc ≠ .stats ∧ t.proc ≠ .reporter) ∧
      SameReports test (createTestTimer malloc now q test).2.2 ∧
      (createTestTimer malloc now q test).2.2.statsInterval = test.statsInterval ∧
      (createTestTimer malloc now q test).2.2.reporterInterval = test.reporterInterval := by
  unfold createTestTimer
  split
  · refine ⟨hq.create _ _ _ _ _, ?_, ⟨⟨rfl, rfl, rfl⟩, rfl⟩, rfl, rfl⟩
    intro t ht
    rcases mem_tmrCreate ht with ht | ⟨ht, -⟩
    · rw [hempty] at ht
      cases ht
    · rw [ht]
      exact ⟨ClientProc.noConfusion, ClientProc.noConfusion⟩
  · refine ⟨hq, ?_, SameReports.refl test, rfl, rfl⟩
    intro t ht
    rw [hempty] at ht
    cases ht

/-- The two interval timers, created in turn, are a pair. -/
theorem createIntervalTimers_paired {malloc malloc' : Bool} {now : Timeval}
    {q : TimerLists ClientProc} {test : IperfTest} (hq : q.Valid)
    (hproc : ∀ t ∈ q.timers, t.proc ≠ .stats ∧ t.proc ≠ .reporter)
    (hsame : test.statsInterval = test.reporterInterval) (hpos : test.statsInterval ≠ 0)
    (hstats : (createStatsTimer malloc now q test).1 = true) {r : Attempt}
    (hr : createReporterTimer malloc' now (createStatsTimer malloc now q test).2.1
      (createStatsTimer malloc now q test).2.2 = r) (hreporter : r.1 = true) :
    ∃ a b usecs time, Paired ⟨a, b, .stats, .reporter, usecs⟩ time r.2.1 ∧
      r.2.2.statsTimer = some a ∧ r.2.2.reporterTimer = some b ∧ SameReports test r.2.2 := by
  subst hr
  have hpos' : test.reporterInterval ≠ 0 := hsame ▸ hpos
  unfold createStatsTimer createReporterTimer at *
  simp only [if_pos hpos, if_pos hpos'] at hstats hreporter ⊢
  rw [← hsame] at hreporter ⊢
  obtain ⟨a, ha⟩ := Option.isSome_iff_exists.mp hstats
  obtain ⟨b, hb⟩ := Option.isSome_iff_exists.mp hreporter
  refine ⟨a, b, usecsOf test.statsInterval, addUsecs now (usecsOf test.statsInterval), ?_, ha, hb,
    ⟨⟨rfl, rfl, rfl⟩, rfl⟩⟩
  exact paired_of_create hq ClientProc.noConfusion hproc (Prod.ext ha rfl) (Prod.ext hb rfl)

/-- `create_client_timers` leaves a pair behind, where both intervals are the same: the two
timers are created in turn with one clock reading. -/
theorem createClientTimers_paired {input : StartInput} {q : TimerLists ClientProc}
    (test : IperfTest) (hq : q.Valid) (hempty : q.timers = [])
    (hsame : test.statsInterval = test.reporterInterval) (hpos : test.statsInterval ≠ 0)
    (h : (createClientTimers input q test).1 = true) :
    ∃ a b usecs time,
      Paired ⟨a, b, .stats, .reporter, usecs⟩ time (createClientTimers input q test).2.1 ∧
      (createClientTimers input q test).2.2.statsTimer = some a ∧
      (createClientTimers input q test).2.2.reporterTimer = some b ∧
      SameReports test (createClientTimers input q test).2.2 := by
  unfold createClientTimers at h ⊢
  cases hclock : input.timersClock with
  | none =>
    rw [hclock] at h
    cases h
  | some now =>
    rw [hclock] at h
    dsimp only at h ⊢
    obtain ⟨hfirst, heq⟩ := andThen_true h
    rw [heq] at h ⊢
    obtain ⟨-, heq'⟩ := andThen_true hfirst
    rw [heq'] at h hfirst ⊢
    obtain ⟨hvalid, hproc, hreports, hstats, hreporter⟩ := createTestTimer_spec
      (input.timersMalloc 0) now
      { test with timer := none, statsTimer := none, reporterTimer := none } hq hempty
    obtain ⟨a, b, usecs, time, hpaired, ha, hb, hsame'⟩ := createIntervalTimers_paired hvalid
      hproc (by rw [hstats, hreporter]; exact hsame) (by rw [hstats]; exact hpos) hfirst rfl h
    have hclear : SameReports test
        { test with timer := none, statsTimer := none, reporterTimer := none } :=
      ⟨⟨rfl, rfl, rfl⟩, rfl⟩
    exact ⟨a, b, usecs, time, hpaired, ha, hb, (hclear.trans hreports).trans hsame'⟩

/-- A queue and a test on which a pair of interval timers runs. -/
structure Prepared (p : Pair ClientProc) (base : IperfTest) (q : TimerLists ClientProc)
    (test : IperfTest) : Prop where
  paired : ∃ time, Paired p time q
  statsTimer : test.statsTimer = some p.first
  reporterTimer : test.reporterTimer = some p.second
  reports : SameReports base test

/-- The omit timer leaves the two interval timers in place. -/
theorem Prepared.omit_timer {a b : ℕ} {usecs : ℤ} {test : IperfTest}
    {q : TimerLists ClientProc} (h : Prepared ⟨a, b, .stats, .reporter, usecs⟩ base q test)
    (input : StartInput) :
    Prepared ⟨a, b, .stats, .reporter, usecs⟩ base (createClientOmitTimer input q test).2.1
      (createClientOmitTimer input q test).2.2 := by
  have hreports : SameReports base test := h.reports
  unfold createClientOmitTimer
  split
  · exact ⟨h.paired, h.statsTimer, h.reporterTimer, hreports.trans ⟨⟨rfl, rfl, rfl⟩, rfl⟩⟩
  · split
    · exact h
    · rename_i now _
      obtain ⟨time, hpaired⟩ := h.paired
      have hcreate := hpaired.create input.omitMalloc false now .omission
        (test.omitSeconds * secToUs) ClientProc.noConfusion ClientProc.noConfusion
      exact ⟨⟨time, hcreate⟩, h.statsTimer, h.reporterTimer,
        hreports.trans ⟨⟨rfl, rfl, rfl⟩, rfl⟩⟩

/-- So do the timers of the streams, which are periodic with a period of their own. -/
theorem Prepared.send_timers {a b : ℕ} {usecs : ℤ} {test : IperfTest}
    {q : TimerLists ClientProc} (h : Prepared ⟨a, b, .stats, .reporter, usecs⟩ base q test)
    (input : StartInput) :
    Prepared ⟨a, b, .stats, .reporter, usecs⟩ base (iperfCreateSendTimers input q test).2.1
      (iperfCreateSendTimers input q test).2.2 := by
  have hbody : ∀ i (s : Bool × TimerLists ClientProc) pre sp post,
      ((∃ time, Paired ⟨a, b, .stats, .reporter, usecs⟩ time s.2) ∧
        (pre ++ sp :: post).map (·.result.intervalResults) =
          test.streams.map (·.result.intervalResults)) →
      (∃ time, Paired ⟨a, b, .stats, .reporter, usecs⟩ time
        (sendTimerBody input test.settings.rate i s sp).1.2) ∧
        (pre ++ (sendTimerBody input test.settings.rate i s sp).2.1 :: post).map
          (·.result.intervalResults) = test.streams.map (·.result.intervalResults) := by
    intro i s pre sp post hs
    obtain ⟨⟨time, hpaired⟩, hentries⟩ := hs
    rw [List.map_append, List.map_cons] at hentries ⊢
    unfold sendTimerBody
    split
    · have hcreate := hpaired.create (input.streamMalloc i) true (input.streamClock i) (.send i)
        100000 ClientProc.noConfusion ClientProc.noConfusion
      exact ⟨⟨time, hcreate⟩, hentries⟩
    · exact ⟨⟨time, hpaired⟩, hentries⟩
  unfold iperfCreateSendTimers
  split
  · obtain ⟨hpaired, hentries⟩ := ListLoop.forEach_invariant
      (fun (s : Bool × TimerLists ClientProc) (l : List IperfStream) =>
        (∃ time, Paired ⟨a, b, .stats, .reporter, usecs⟩ time s.2) ∧
          l.map (·.result.intervalResults) = test.streams.map (·.result.intervalResults))
      hbody 0 (true, q) test.streams ⟨h.paired, rfl⟩
    exact ⟨hpaired, h.statsTimer, h.reporterTimer,
      h.reports.trans ⟨⟨rfl, rfl, rfl⟩, hentries⟩⟩
  · exact h

/-- The handler of `TEST_START` leaves a pair of interval timers behind, whichever other
timers it creates around them. -/
theorem handleTestStart_prepared {input : StartInput} {q : TimerLists ClientProc}
    (test : IperfTest) (hq : q.Valid) (hempty : q.timers = [])
    (hsame : test.statsInterval = test.reporterInterval) (hpos : test.statsInterval ≠ 0)
    (h : (handleTestStart input q test).1 = true) :
    ∃ a b usecs, Prepared ⟨a, b, .stats, .reporter, usecs⟩ test (handleTestStart input q test).2.1
      (handleTestStart input q test).2.2 := by
  unfold handleTestStart at h ⊢
  cases hclock : input.initClock with
  | none =>
    rw [hclock] at h
    cases h
  | some now =>
    rw [hclock] at h
    dsimp only at h ⊢
    obtain ⟨hboth, heq⟩ := andThen_true h
    obtain ⟨hfirst, heq'⟩ := andThen_true hboth
    rw [heq] at h ⊢
    rw [heq'] at h hboth ⊢
    obtain ⟨a, b, usecs, time, hpaired, hstats, hreporter, hreports⟩ :=
      createClientTimers_paired (iperfInitTest now test) hq hempty hsame hpos hfirst
    have hinit : SameReports test (iperfInitTest now test) := by
      refine ⟨⟨rfl, rfl, rfl⟩, ?_⟩
      unfold iperfInitTest
      dsimp only
      rw [List.map_map]
      rfl
    have hprepared : Prepared ⟨a, b, .stats, .reporter, usecs⟩ test _ _ :=
      ⟨⟨time, hpaired⟩, hstats, hreporter, hinit.trans hreports⟩
    refine ⟨a, b, usecs, ?_⟩
    split
    · exact hprepared.omit_timer input
    · exact (hprepared.omit_timer input).send_timers input

/-- New streams have no entries, so nothing is due for a report when a run begins. -/
theorem recorded_created (io : ℕ → StreamIo) {base : IperfTest} (test : IperfTest)
    (hsettings : SameSettings base test) (hstreams : test.streams = [])
    (hdone : (iperfCreateStreams io test).1 = true) :
    Recorded base (iperfCreateStreams io test).2.1 [] := by
  obtain ⟨hframe, added, hadded, hfresh, hlength⟩ :=
    createStreamsFrom_spec io test.bindPort test.numStreams.toNat 0 test
  have hjni := congrArg IperfTest.jniCallback hframe
  have hjson := congrArg IperfTest.jsonOutput hframe
  have hnum := congrArg IperfTest.numStreams hframe
  rw [hstreams, List.nil_append] at hadded
  refine ⟨⟨hsettings.trans ⟨hjni, hjson, hnum⟩, ?_, ?_⟩, trivial, ?_⟩
  · intro hpos
    have hcount : (iperfCreateStreams io test).2.1.numStreams = test.numStreams := hnum
    have hall := hlength hdone
    unfold iperfCreateStreams at hcount hpos ⊢
    rw [hcount] at hpos ⊢
    rw [hadded, hall]
    omega
  · intro reported output hmem
    cases hmem
  · intro i sp hsp
    have hmem :
        sp ∈ (createStreamsFrom io test.bindPort test.numStreams.toNat 0 test).2.1.streams :=
      List.mem_of_getElem? hsp
    rw [hadded] at hmem
    rw [(hfresh sp hmem).result]
    rfl

/-- A run enters its rounds with a pair of interval timers and nothing to report; a start that
fails has no rounds. -/
theorem startRun_running {input : RunInput} {q : TimerLists ClientProc} {test : IperfTest}
    {c : Client} (hq : q.Valid) (hempty : q.timers = []) (hstreams : test.streams = [])
    (hsame : test.statsInterval = test.reporterInterval) (hpos : test.statsInterval ≠ 0)
    (h : startRun input q test = some c) :
    ∃ a b usecs, RunningClient test ⟨a, b, .stats, .reporter, usecs⟩ c := by
  unfold startRun at h
  dsimp only at h
  split at h
  · rename_i hboth
    rw [Bool.and_eq_true] at hboth
    obtain ⟨hcreated, hstarted⟩ := hboth
    have hrecorded : Recorded test _ _ :=
      recorded_created input.streams { test with state := .createStreams } ⟨rfl, rfl, rfl⟩
        hstreams hcreated
    obtain ⟨hframe, -⟩ := createStreamsFrom_spec input.streams test.bindPort
      test.numStreams.toNat 0 { test with state := .createStreams }
    have hstats := congrArg IperfTest.statsInterval hframe
    have hreporter := congrArg IperfTest.reporterInterval hframe
    change (iperfCreateStreams input.streams
      { test with state := .createStreams }).2.1.statsInterval = test.statsInterval at hstats
    change (iperfCreateStreams input.streams
      { test with state := .createStreams }).2.1.reporterInterval =
        test.reporterInterval at hreporter
    generalize iperfCreateStreams input.streams { test with state := .createStreams } = created at *
    have hclear : SameReports created.2.1 { created.2.1 with state := .testStart } :=
      ⟨⟨rfl, rfl, rfl⟩, rfl⟩
    have hsame' : created.2.1.statsInterval = created.2.1.reporterInterval := by
      rw [hstats, hreporter, hsame]
    have hpos' : created.2.1.statsInterval ≠ 0 := by
      rw [hstats]
      exact hpos
    obtain ⟨a, b, usecs, hprepared⟩ := handleTestStart_prepared
      { created.2.1 with state := .testStart } hq hempty hsame' hpos' hstarted
    have hreports := hrecorded.same (hclear.trans hprepared.reports)
    cases h
    exact ⟨a, b, usecs, hprepared.paired, hprepared.statsTimer, hprepared.reporterTimer, rfl,
      hreports.same ⟨⟨rfl, rfl, rfl⟩, rfl⟩⟩
  · cases h

/-- What is read after the end keeps the results. -/
theorem drain_same (input : RoundInput) (test : IperfTest) :
    SameReports test (drain input test).2 := by
  unfold drain
  split
  · exact (transfer_same input test).reports
  · exact SameReports.refl test

/-- So do any number of such reads. -/
theorem drains_same {inputs : List RoundInput} {test test' : IperfTest}
    (h : drains inputs test = some test') : SameReports test test' := by
  induction inputs generalizing test with
  | nil =>
    cases h
    exact SameReports.refl _
  | cons input rest ih =>
    rw [drains] at h
    split at h
    · exact (drain_same input test).trans (ih h)
    · cases h

/-- The peer's figures replace none of the entries. -/
theorem getResults_same {j : CJson} {test : IperfTest} {r : Bool × IperfTest}
    (h : getResults j test = some r) : SameReports test r.2 := by
  have hframe := getResults_frame h
  have hjni := congrArg IperfTest.jniCallback hframe.test
  have hjson := congrArg IperfTest.jsonOutput hframe.test
  have hnum := congrArg IperfTest.numStreams hframe.test
  have hintervals :=
    congrArg (List.map fun sp : IperfStream => sp.result.intervalResults) hframe.streams
  rw [List.map_map, List.map_map] at hintervals
  exact ⟨⟨hjni, hjson, hnum⟩, hintervals⟩

/-- The exchange of the results keeps the intervals of either end. -/
theorem exchangeResults_same {peer : CJson} {test test' : IperfTest}
    (h : exchangeResults peer test = some test') : SameReports test test' := by
  have hclear : SameReports test { test with state := .exchangeResults } :=
    ⟨⟨rfl, rfl, rfl⟩, rfl⟩
  unfold exchangeResults at h
  split at h
  · rename_i hresults
    cases h
    exact hclear.trans (getResults_same hresults)
  · cases h

/-- What follows the last round reports the last tick. -/
theorem finishRun_recorded {input : RunInput} {cpuUtil : ℚ × ℚ × ℚ} {c c' : Client}
    (h : Recorded base c.2.test c.2.executions)
    (hfinish : finishRun input (endTest platform env cpuUtil c) = some c') :
    Recorded base c'.2.test c'.2.executions := by
  obtain ⟨drained, hdrains, hrest⟩ := Option.bind_eq_some_iff.mp hfinish
  obtain ⟨exchanged, hexchange, rfl⟩ := Option.map_eq_some_iff.mp hrest
  have hdone : Recorded base { c.2.test with done := true, cpuUtil := cpuUtil } c.2.executions :=
    h.same ⟨⟨rfl, rfl, rfl⟩, rfl⟩
  have hticked := Recorded.tick platform env
    (w := { c.2 with test := { c.2.test with done := true, cpuUtil := cpuUtil } }) hdone
  have hended : SameReports (runStats platform env { c.2 with
      test := { c.2.test with done := true, cpuUtil := cpuUtil } }).test
      (endTest platform env cpuUtil c).2.test := ⟨⟨rfl, rfl, rfl⟩, rfl⟩
  have hlast := hticked.same
    ((hended.trans (drains_same hdrains)).trans (exchangeResults_same hexchange))
  have hdisplay : SameReports exchanged { exchanged with state := .displayResults } :=
    ⟨⟨rfl, rfl, rfl⟩, rfl⟩
  have hreport := Ticked.report input.callbacks (w := { (endTest platform env cpuUtil c).2
    with test := { exchanged with state := .displayResults } }) (hlast.same hdisplay) (Or.inr rfl)
  exact hreport.same ⟨⟨rfl, rfl, rfl⟩, rfl⟩

/-- In a client run that ends normally, with one interval for statistics and reports,
both are executed strictly in turn, the entries of each stream are printed once and in
order, and each report of a text client with Java callbacks calls `on_interval` once. -/
theorem intervals_reported_once {input : RunInput} {q : TimerLists ClientProc} {test : IperfTest}
    {c : Client} (hq : q.Valid) (hempty : q.timers = []) (hstreams : test.streams = [])
    (hsame : test.statsInterval = test.reporterInterval)
    (hpos : 1 / 1000000 ≤ test.statsInterval) (h : clientRun platform input q test = some c) :
    Alternating c.2.executions ∧
    (∀ i sp, c.2.test.streams[i]? = some sp →
      printedEntries i c.2.executions = sp.result.intervalResults) ∧
    ∀ reported output, .report reported output ∈ c.2.executions →
      (∃ rest, output = intervalLines reported true reported.streams ++ rest) ∧
      (test.jniCallback = true → test.jsonOutput = false → 1 ≤ test.numStreams →
        intervalCalls output = 1) := by
  have hnonzero : test.statsInterval ≠ 0 := by
    intro hzero
    rw [hzero] at hpos
    norm_num at hpos
  obtain ⟨started, hstart, hrest⟩ := Option.bind_eq_some_iff.mp h
  obtain ⟨ran, hrounds, hfinish⟩ := Option.bind_eq_some_iff.mp hrest
  obtain ⟨a, b, usecs, hrunning⟩ := startRun_running hq hempty hstreams hsame hnonzero hstart
  have hran := clientRounds_running hrunning hrounds
  have hrecorded := finishRun_recorded hran.2.recorded hfinish
  refine ⟨hrecorded.alternating, hrecorded.entries, ?_⟩
  intro reported output hmem
  obtain ⟨hsettings, hdelivered⟩ := hrecorded.reported.delivered reported output hmem
  refine ⟨hdelivered.lines, ?_⟩
  intro hjni htext hnum
  rw [← hsettings.jniCallback] at hjni
  rw [← hsettings.jsonOutput] at htext
  rw [← hsettings.numStreams] at hnum
  exact hdelivered.call hjni htext hnum

/-- A client with one stream and a test of three seconds. -/
def threeSeconds : IperfTest :=
  { role := .client, sender := true, numStreams := 1, duration := 3, statsInterval := 1,
    reporterInterval := 1, multisend := 10, jniCallback := true, affinity := -1 }

/-- One turn that comes ten seconds late. -/
def lateRun : RunInput where
  streams := fun _ => ⟨⟨true, some 5, true, true, true, true⟩, ⟨true, some 6, true, none, true⟩⟩
  start := ⟨some {}, some {}, fun _ => true, none, true, true, fun _ => {}, fun _ => true⟩
  rounds := [{
    send := ⟨fun _ _ => ⟨0, 1000⟩, fun _ => {}, {}, fun _ => 0⟩
    writeSet := {5}
    recv := fun _ => ⟨0, {}, 0, {}⟩
    readSet := ∅
    now := ⟨10, 0⟩
    fuel := 30 }]
  cpuUtil := (0, 0, 0)
  drains := []
  peer := .object [("cpu_util_total", .number 0 0), ("cpu_util_user", .number 0 0),
    ("cpu_util_system", .number 0 0), ("sender_has_retransmits", .number 0 0),
    ("streams", .array [])]
  callbacks := fun _ => ⟨{}, fun _ => {}, fun _ => 0, ⟨fun _ => none, 0, fun _ => 0⟩⟩

/-- The late turn ticks twice before it ends the test, and every tick is reported. -/
theorem lateRun_reported :
    ∃ c, clientRun ⟨false, false, fun h => h⟩ lateRun {} threeSeconds = some c ∧
      c.2.executions.length = 6 ∧ Alternating c.2.executions ∧
      (∀ i sp, c.2.test.streams[i]? = some sp →
        printedEntries i c.2.executions = sp.result.intervalResults) ∧
      ∀ reported output, .report reported output ∈ c.2.executions →
        (∃ rest, output = intervalLines reported true reported.streams ++ rest) ∧
        (threeSeconds.jniCallback = true → threeSeconds.jsonOutput = false →
          1 ≤ threeSeconds.numStreams → intervalCalls output = 1) := by
  have hsix : (clientRun ⟨false, false, fun h => h⟩ lateRun {} threeSeconds).map
      (·.2.executions.length) = some 6 := by decide +kernel
  obtain ⟨c, hrun, hlength⟩ := Option.map_eq_some_iff.mp hsix
  have hpos : 1 / 1000000 ≤ threeSeconds.statsInterval := by decide +kernel
  exact ⟨c, hrun, hlength, intervals_reported_once valid_empty rfl rfl rfl hpos hrun⟩

end IperfRuntime.IntervalAlternation
