import IperfRuntime.EndpointFrame
import IperfRuntime.ServerLoop

/-!
# What the reports read of a stream

The times, the intervals and the round trip times of a stream. Ticks add to them, the start
of a test and the end of omission move the start, and nothing else in a run of either end
touches them. What these moves keep holds whenever a test reports. The bytes of the
intervals are not part of what is kept here.
-/

namespace IperfRuntime.StreamRecords

open ClockReading JsonTree TimerQueue TimerEntries TestState StreamTraffic TrafficFrame
  IntervalStats StreamCreation ResultsExchange ResultsFrame ReportOutput ClientTimers ClientRun
  ClientLoop EventTrace ServerAccept ServerLoop

/-- The results of a stream without its counters of bytes and retransmits. -/
def recordOf (sp : IperfStream) : IperfStreamResult :=
  { sp.result with
    bytesReceived := 0
    bytesSent := 0
    bytesReceivedThisInterval := 0
    bytesSentThisInterval := 0
    bytesSentOmit := 0
    streamPrevTotalRetrans := 0
    streamRetrans := 0 }

/-- All streams have such a record. -/
def Records (P : IperfStreamResult → Prop) (test : IperfTest) : Prop :=
  ∀ sp ∈ test.streams, P (recordOf sp)

/-- What everything that moves a record keeps. -/
structure Recorded (platform : Platform) (P : IperfStreamResult → Prop) : Prop where
  fresh : P {}
  start : ∀ now r, P r → P { r with startTime := now, startTimeFixed := now }
  tick : ∀ test sample sp, P (recordOf sp) → P (recordOf (statsOfStream platform test sample sp))
  reset : ∀ now r, P r → P { r with startTime := now }

/-- The streams have such records, now and at every report so far. -/
structure WorldRecords (P : IperfStreamResult → Prop) (w : ClientWorld) : Prop where
  now : Records P w.test
  reported : ∀ test output, .report test output ∈ w.executions → Records P test

variable {platform : Platform} {P : IperfStreamResult → Prop} {test test' : IperfTest}
  {w : ClientWorld} {c : Client} {s : ServerRun}

/-- What holds of the records of all streams depends on the records alone. -/
theorem Records.same (h : Records P test)
    (hsame : test'.streams.map recordOf = test.streams.map recordOf) : Records P test' := by
  intro sp hsp
  have hmem : recordOf sp ∈ test.streams.map recordOf := by
    rw [← hsame]
    exact List.mem_map_of_mem hsp
  obtain ⟨sp', hsp', heq⟩ := List.mem_map.mp hmem
  rw [← heq]
  exact h sp' hsp'

/-- A blanked field that the records do not have. -/
theorem map_recordOf (blank : IperfStream → IperfStream)
    (hblank : ∀ sp, recordOf (blank sp) = recordOf sp) {l l' : List IperfStream}
    (h : l'.map blank = l.map blank) : l'.map recordOf = l.map recordOf := by
  have hrecords := congrArg (List.map recordOf) h
  rw [List.map_map, List.map_map] at hrecords
  have hcomp : recordOf ∘ blank = recordOf := funext hblank
  rw [hcomp] at hrecords
  exact hrecords

/-- A step outside the records keeps what holds of them. -/
theorem Records.frame (h : Records P test)
    (hframe : SameFrame test test.streams test' test'.streams) : Records P test' :=
  h.same (map_recordOf streamFrame (fun _ => rfl) hframe.streams)

/-- `get_results` assigns counters that are no records. -/
theorem Records.results (h : Records P test) {j : CJson} {r : Bool × IperfTest}
    (hr : getResults j test = some r) : Records P r.2 :=
  h.same (map_recordOf figureFrame (fun _ => rfl) (getResults_frame hr).streams)

/-- Setting the pointers to timers changes no record. -/
theorem Records.sets (h : Records P test) {r : Attempt} (hr : SetsTimers test r) :
    Records P r.2.2 := by
  have hstreams := congrArg IperfTest.streams hr
  exact h.same (map_recordOf streamAtStart (fun _ => rfl) hstreams)

/-- `iperf_stats_callback` appends an interval to each record, which is one of the moves. -/
theorem Records.stats (hP : Recorded platform P) (h : Records P test) (samples : ℕ → Sample) :
    Records P (iperfStatsCallback platform samples test) := by
  intro sp hsp
  obtain ⟨i, hi, rfl⟩ := List.mem_mapIdx.mp hsp
  exact hP.tick test (samples i) _ (h _ (List.getElem_mem hi))

/-- The end of omission resets each record, which is one of the moves. -/
theorem Records.endOmission (hP : Recorded platform P) (h : Records P test) (now : Timeval)
    (samples : ℕ → Sample) : Records P (endOmission now samples test) := by
  intro sp hsp
  obtain ⟨i, hi, rfl⟩ := List.mem_mapIdx.mp hsp
  exact hP.reset now _ (h _ (List.getElem_mem hi))

/-- `iperf_init_test` gives each record its start, which is one of the moves. -/
theorem Records.init (hP : Recorded platform P) (h : Records P test) (now : Timeval) :
    Records P (iperfInitTest now test) := by
  intro sp hsp
  obtain ⟨sp', hsp', rfl⟩ := List.mem_map.mp hsp
  exact hP.start now _ (h sp' hsp')

/-- The record of a stream without results is the empty one. -/
theorem recordOf_fresh {sp : IperfStream} (h : sp.result = {}) : recordOf sp = {} := by
  unfold recordOf
  rw [h]

/-- Streams that have just been made bring empty records with them. -/
theorem Records.added (hP : Recorded platform P) (h : Records P test) {added : List IperfStream}
    (hadded : ∀ sp ∈ added, FreshStream sp) (hstreams : test'.streams = test.streams ++ added) :
    Records P test' := by
  intro sp hsp
  rw [hstreams] at hsp
  rcases List.mem_append.mp hsp with hold | hnew
  · exact h sp hold
  · rw [recordOf_fresh (hadded sp hnew).result]
    exact hP.fresh

/-- `iperf_create_streams` makes streams with empty records only. -/
theorem Records.create (hP : Recorded platform P) (h : Records P test) (io : ℕ → StreamIo) :
    Records P (iperfCreateStreams io test).2.1 := by
  obtain ⟨-, added, hstreams, hfresh, -⟩ :=
    createStreamsFrom_spec io test.bindPort test.numStreams.toNat 0 test
  exact h.added hP hfresh hstreams

/-- A test with the same records in the same world. -/
theorem WorldRecords.withTest (h : WorldRecords P w) {test : IperfTest} (htest : Records P test) :
    WorldRecords P { w with test := test } := ⟨htest, h.reported⟩

/-- Statistics keep the records of the test and of everything that was reported before. -/
theorem WorldRecords.stats (hP : Recorded platform P) (h : WorldRecords P w)
    (env : ℕ → CallbackInput) : WorldRecords P (runStats platform env w) where
  now := h.now.stats hP _
  reported := by
    intro test output hmem
    rcases List.mem_append.mp hmem with hold | hnew
    · exact h.reported test output hold
    · cases List.mem_singleton.mp hnew

/-- A report adds the test as it stands to what was reported. -/
theorem WorldRecords.report (h : WorldRecords P w) (env : ℕ → CallbackInput) :
    WorldRecords P (runReport env w) where
  now := h.now
  reported := by
    intro test output hmem
    rcases List.mem_append.mp hmem with hold | hnew
    · exact h.reported test output hold
    · cases List.mem_singleton.mp hnew
      exact h.now

/-- A callback of `tmr_run`. -/
theorem WorldRecords.callback (hP : Recorded platform P) (h : WorldRecords P c.2)
    (env : ℕ → CallbackInput) (proc : ClientProc) (now : Timeval) :
    WorldRecords P (callClient platform env proc now c).2 := by
  cases proc with
  | testTimer => exact ⟨h.now, h.reported⟩
  | stats =>
    dsimp only [callClient]
    split
    · exact h
    · exact h.stats hP env
  | reporter =>
    dsimp only [callClient]
    split
    · exact h
    · exact h.report env
  | omission => exact ⟨h.now.endOmission hP _ _, h.reported⟩
  | send stream => exact ⟨h.now.frame (throttleStream_frame _ _ _ _), h.reported⟩

/-- Any number of callbacks. -/
theorem WorldRecords.timers (hP : Recorded platform P) (h : WorldRecords P c.2)
    {env : ℕ → CallbackInput} {now : Timeval} {fuel : ℕ} {c' : Client}
    (hrun : tmrRun (callClient platform env) now fuel c = some c') : WorldRecords P c'.2 :=
  tmrRun_invariant (fun w : Client => WorldRecords P w.2)
    (fun _ hw t _ => hw.callback hP env t.proc now) h hrun

/-- Blocks that are sent or received move byte counters, which are no records. -/
theorem Records.transfer (h : Records P test) (input : RoundInput) :
    Records P (transfer input test).2 := by
  unfold ClientRun.transfer
  split
  · exact h.frame (iperfRecv_frame _ _ _)
  · exact h.frame (iperfSend_frame _ _ _)

/-- `TEST_START` on the client gives the records their start and creates timers. -/
theorem Records.testStart (hP : Recorded platform P) (h : Records P test) (input : StartInput)
    (q : TimerLists ClientProc) : Records P (handleTestStart input q test).2.2 := by
  cases hclock : input.initClock with
  | none =>
    unfold handleTestStart
    rw [hclock]
    exact h
  | some now => exact (h.init hP now).sets (handleTestStart_sets hclock q test)

/-- A message to a client keeps the records, also `TEST_START`, which moves the start, and the
messages that end the test. -/
theorem WorldRecords.message (hP : Recorded platform P) (h : WorldRecords P c.2)
    {env : ℕ → CallbackInput} {input : MessageInput} {r : Bool × Client}
    (hr : iperfHandleMessageClient env input c = some r) : WorldRecords P r.2.2 := by
  unfold iperfHandleMessageClient at hr
  cases hbyte : input.byte with
  | none =>
    rw [hbyte] at hr
    cases hr
    exact h
  | some byte =>
    rw [hbyte] at hr
    have hstate : Records P { c.2.test with state := byte } := h.now
    cases byte with
    | createStreams =>
      cases hr
      exact h.withTest (hstate.create hP input.streams)
    | testStart =>
      cases hr
      exact h.withTest (hstate.testStart hP input.start c.1)
    | exchangeResults =>
      obtain ⟨r', hr', rfl⟩ := Option.map_eq_some_iff.mp hr
      refine h.withTest ?_
      unfold ClientLoop.iperfExchangeResults at hr'
      split at hr'
      · split at hr'
        · exact hstate.results hr'
        · cases hr'
          exact hstate
      · cases hr'
        exact hstate
    | displayResults =>
      cases hr
      have hreport := (h.withTest hstate).report env
      exact hreport.withTest hreport.now
    | serverTerminate =>
      cases hr
      have hborrowed : Records P { c.2.test with
        cpuUtil := input.cpuUtil
        state := .displayResults } := h.now
      have hreport := (h.withTest hborrowed).report env
      exact hreport.withTest hreport.now
    | _ =>
      cases hr
      exact h.withTest hstate

/-- The rest of a client's turn keeps the records: transfers add no entry, and timers do so as
ticks. -/
theorem WorldRecords.work (hP : Recorded platform P) (h : WorldRecords P c.2)
    {env : ℕ → CallbackInput} {input : TurnInput} {r : Bool × Client}
    (hr : clientWork platform env input c = some r) : WorldRecords P r.2.2 := by
  have htransfer := h.withTest (h.now.transfer input.round)
  unfold clientWork at hr
  split at hr
  · dsimp only at hr
    split at hr
    · obtain ⟨c', hrun, rfl⟩ := Option.map_eq_some_iff.mp hr
      have hran : WorldRecords P c'.2 := WorldRecords.timers hP htransfer hrun
      split
      · have hdone : Records P { c'.2.test with done := true, cpuUtil := input.cpuUtil } := hran.now
        have hstats := (hran.withTest hdone).stats hP env
        exact hstats.withTest hstats.now
      · exact hran
    · cases hr
      exact htransfer
  · split at hr
    · cases hr
      unfold drain
      split
      · exact htransfer
      · exact h
    · cases hr
      exact h

/-- A turn of the client's loop keeps what holds of the records, those of its reports included. -/
theorem WorldRecords.clientTurn (hP : Recorded platform P) (h : WorldRecords P c.2)
    {env : ℕ → CallbackInput} {input : TurnInput} {r : Bool × Client}
    (hr : clientTurn platform env input c = some r) : WorldRecords P r.2.2 := by
  obtain ⟨r', hmessage, hwork⟩ := Option.bind_eq_some_iff.mp hr
  have hhandled : WorldRecords P r'.2.2 := by
    unfold clientMessage at hmessage
    cases hm : input.message with
    | some message =>
      rw [hm] at hmessage
      exact h.message hP hmessage
    | none =>
      rw [hm] at hmessage
      cases hmessage
      exact h
  split at hwork
  · exact hhandled.work hP hwork
  · cases hwork
    exact hhandled

/-- A server whose streams have such records. -/
def ServerRecords (P : IperfStreamResult → Prop) (s : ServerRun) : Prop := WorldRecords P s.timed.2

/-- The server that a routine returns. -/
abbrev Keeps (P : IperfStreamResult → Prop) (x : Routine) : Prop :=
  x.Returns fun r => ServerRecords P r.2

/-- On a server the records are those of its test; what was reported stays. -/
theorem ServerRecords.withTest (h : ServerRecords P s) (htest : Records P test) :
    ServerRecords P (s.withTest test) := WorldRecords.withTest h htest

/-- A routine that returns at once keeps the records. -/
theorem keeps_pure {ok : Bool} (h : ServerRecords P s) : Keeps P (pure (ok, s)) :=
  Traced.Returns.pure h

/-- A routine that never returns keeps everything. -/
theorem keeps_stop : Keeps P .stop := fun _ h => nomatch h

/-- The calls on descriptors in front of a routine change no record. -/
theorem keeps_emits {events : List FdEvent} {f : PUnit → Routine} (h : Keeps P (f ⟨⟩)) :
    Keeps P (.emits events >>= f) :=
  Traced.Returns.bind (fun _ _ => trivial : (Traced.emits events).Returns fun _ => True)
    fun _ _ => h

/-- A value about which nothing is said. -/
theorem returns_true {α : Type} (x : Traced FdEvent α) : x.Returns fun _ => True :=
  fun _ _ => trivial

/-- `protocol->listen` opens a listener and leaves the streams alone. -/
theorem listen_streams (io : ListenIo) (test : IperfTest) :
    (protocolListen io test).Returns fun r => r.2.streams = test.streams := by
  unfold protocolListen
  split
  · exact (returns_true _).bind fun _ _ => Traced.Returns.pure rfl
  · unfold iperfTcpListen
    split
    · refine (returns_true _).bind fun _ _ => ?_
      dsimp only
      split
      · exact Traced.Returns.pure rfl
      · refine (returns_true _).bind fun _ _ => ?_
        split
        · exact (returns_true _).bind fun _ _ => Traced.Returns.pure rfl
        · split
          · exact Traced.Returns.pure rfl
          · exact Traced.Returns.pure rfl
    · exact Traced.Returns.pure rfl

/-- Refusing a connection changes no record. -/
theorem keeps_refuse (h : ServerRecords P s) (conn : Connection) : Keeps P (refuse conn s) := by
  unfold ServerLoop.refuse
  split
  · exact keeps_emits (keeps_pure h)
  · exact keeps_stop
  · exact keeps_pure h
  · exact keeps_pure h

/-- `iperf_exchange_parameters` on a server sets parameters, which are no records. -/
theorem keeps_exchange (h : ServerRecords P s) (io : AcceptInput) :
    Keeps P (iperfExchangeParameters platform io s) := by
  unfold iperfExchangeParameters
  split
  · exact keeps_pure h
  · split
    · exact keeps_stop
    · rename_i test hparameters
      have hframe := congrArg IperfTest.streams (getParameters_frame hparameters)
      have hstreams : test.streams = s.test.streams := hframe
      refine (listen_streams io.listen test).bind fun r hr => ?_
      have htest : Records P r.2 := h.now.same (congrArg _ (hr.trans hstreams))
      split
      · exact keeps_pure (h.withTest htest)
      · exact keeps_pure (h.withTest htest)

/-- `iperf_accept` keeps the records, whether it takes the client or refuses it. -/
theorem keeps_accept (h : ServerRecords P s) (io : AcceptInput) (conn : Connection) :
    Keeps P (ServerLoop.iperfAccept platform io conn s) := by
  unfold ServerLoop.iperfAccept
  refine keeps_emits ?_
  split
  · have hadmitted : ServerRecords P (admitClient conn s) := h.withTest h.now
    split
    · split
      · exact keeps_pure hadmitted
      · exact (keeps_exchange hadmitted io).bind fun r hr => keeps_pure hr
    · exact keeps_stop
    · exact keeps_pure (h.withTest h.now)
    · exact keeps_pure (h.withTest h.now)
  · exact keeps_refuse h conn

/-- Closing the sockets of the streams leaves their records. -/
theorem returns_closeStreams (h : ServerRecords P s) :
    (closeStreams s).Returns (ServerRecords P) :=
  (returns_true _).bind fun _ _ => Traced.Returns.pure (h.withTest h.now)

/-- The handler of `TEST_END` takes the statistics, reports and exchanges results, each of
which keeps the records. -/
theorem keeps_testEnd (hP : Recorded platform P) (h : ServerRecords P s) (env : ℕ → CallbackInput)
    (input : ServerMessage) : Keeps P (testEnd platform env input s) := by
  have hdone : ServerRecords P (s.withTest { s.test with
      state := .testEnd, done := true, cpuUtil := input.cpuUtil }) := h.withTest h.now
  have hstats : ServerRecords P ((s.withTest { s.test with
      state := .testEnd, done := true, cpuUtil := input.cpuUtil }).stats platform env) :=
    WorldRecords.stats hP hdone env
  refine (returns_closeStreams hstats).bind fun s' hs' => ?_
  have hreport : ServerRecords P (s'.report env) := WorldRecords.report hs' env
  unfold resultsOfEnd
  split
  · exact keeps_pure (hreport.withTest hreport.now)
  · have hstate : Records P { (s'.report env).test with state := .exchangeResults } := hreport.now
    have hresults : ∀ r, ServerLoop.iperfExchangeResults input
        { (s'.report env).test with state := .exchangeResults } = some r → Records P r.2 := by
      intro r hr
      unfold ServerLoop.iperfExchangeResults at hr
      split at hr
      · cases hr
        exact hstate
      · obtain ⟨r', hr', rfl⟩ := Option.map_eq_some_iff.mp hr
        have hread := hstate.results hr'
        exact hread
    split
    · exact keeps_stop
    · rename_i test hr
      exact keeps_pure (hreport.withTest (hresults _ hr))
    · rename_i test hr
      exact keeps_pure (hreport.withTest (hresults _ hr))

/-- So every message that the server can be sent keeps the records. -/
theorem keeps_message (hP : Recorded platform P) (h : ServerRecords P s) (env : ℕ → CallbackInput)
    (input : ServerMessage) : Keeps P (iperfHandleMessageServer platform env input s) := by
  unfold iperfHandleMessageServer
  split
  · exact keeps_pure h
  · exact keeps_pure (h.withTest h.now)
  · exact keeps_pure (h.withTest h.now)
  · exact keeps_testEnd hP h env input
  · exact keeps_pure (h.withTest h.now)
  · have hstate : ServerRecords P (s.withTest { s.test with
        cpuUtil := input.cpuUtil, state := .displayResults }) := h.withTest h.now
    have hreport : ServerRecords P ((s.withTest { s.test with
        cpuUtil := input.cpuUtil, state := .displayResults }).report env) :=
      WorldRecords.report hstate env
    exact (returns_closeStreams hreport).bind fun s' hs' => keeps_pure (hs'.withTest hs'.now)
  · exact keeps_pure (h.withTest h.now)

/-- A stream that the server accepts comes with an empty record. -/
theorem keeps_admitStream (hP : Recorded platform P) (h : ServerRecords P s) (io : NewStreamIo)
    (fd : ℤ) : Keeps P (ServerLoop.admitStream io fd s) := by
  unfold ServerLoop.admitStream
  refine keeps_emits ?_
  split
  · exact keeps_pure h
  · rename_i sp hnew
    have hfresh := iperfNewStream_fresh hnew
    have hone : ∀ sp' ∈ [{ sp with
        id := if s.test.streams.isEmpty then 1 else s.test.streams.length + 2 }],
        FreshStream sp' := by
      intro sp' hsp'
      cases List.mem_singleton.mp hsp'
      exact ⟨hfresh.result, hfresh.sendTimer⟩
    have htest : Records P (watchSocket fd (iperfAddStream sp s.test)) :=
      h.now.added hP hone rfl
    exact keeps_pure (h.withTest htest)

/-- `iperf_tcp_accept` keeps the records, whichever way the comparison of the cookies goes. -/
theorem keeps_tcpAccept (hP : Recorded platform P) (h : ServerRecords P s) (conn : Connection) :
    Keeps P (ServerLoop.iperfTcpAccept conn s) := by
  unfold ServerLoop.iperfTcpAccept
  refine keeps_emits ?_
  split
  · split
    · exact keeps_stop
    · exact keeps_refuse h conn
    · exact keeps_admitStream hP h conn.newStream conn.socket
  · exact keeps_stop
  · exact keeps_pure h
  · exact keeps_pure h

/-- `iperf_udp_accept` keeps the records, wherever it fails. -/
theorem keeps_udpAccept (hP : Recorded platform P) (h : ServerRecords P s) (io : DatagramInput) :
    Keeps P (iperfUdpAccept io s) := by
  unfold iperfUdpAccept
  split
  · exact keeps_pure h
  · refine (returns_true _).bind fun fd _ => ?_
    split
    · exact keeps_pure (h.withTest h.now)
    · rename_i fd
      have hwatched : ServerRecords P (s.withTest
          { watchListener fd s.test with protListener := fd }) := h.withTest h.now
      dsimp only
      split
      · exact keeps_pure hwatched
      · exact keeps_admitStream hP hwatched io.newStream s.test.protListener

/-- Closing or reopening the listener behind the last stream changes no record. -/
theorem keeps_settle (h : ServerRecords P s) (io : ListenIo) : Keeps P (settleListeners io s) := by
  unfold settleListeners
  split
  · exact keeps_emits (keeps_pure (h.withTest h.now))
  · split
    · refine keeps_emits ((returns_true _).bind fun fd _ => ?_)
      dsimp only
      split
      · exact keeps_pure (h.withTest h.now)
      · exact keeps_pure (h.withTest h.now)
    · exact keeps_pure (h.withTest h.now)

/-- The start of the test on a server gives the records their start and creates timers. -/
theorem Records.startTest (hP : Recorded platform P) (h : Records P test) (input : StartInput)
    (q : TimerLists ClientProc) : Records P (startTest input q test).2.2 := by
  cases hclock : input.initClock with
  | none =>
    unfold ServerLoop.startTest
    rw [hclock]
    exact h
  | some now => exact (h.init hP now).sets (startTest_sets hclock q test)

/-- The writes around that start keep the records, whether or not they succeed. -/
theorem ServerRecords.begin (hP : Recorded platform P) (h : ServerRecords P s)
    (input : ServerTurn) : ServerRecords P (beginTest input s).2 := by
  have hstate : Records P { s.test with state := .testStart } := h.now
  have hstarted := hstate.startTest hP input.start s.timed.1
  unfold beginTest
  dsimp only
  split
  · exact h.withTest hstate
  · split
    · exact WorldRecords.withTest h hstarted
    · exact WorldRecords.withTest h hstarted

/-- A part of a turn that leaves such records. -/
abbrev KeepsPart (P : IperfStreamResult → Prop) (x : Part) : Prop :=
  x.Returns fun r => ServerRecords P r.2.2

/-- A part of a turn that does nothing keeps the records. -/
theorem keepsPart_pure {ok : Bool} {readSet : Finset ℤ} (h : ServerRecords P s) :
    KeepsPart P (pure (ok, readSet, s)) := Traced.Returns.pure h

/-- Two parts of a turn that keep the records keep them after one another. -/
theorem KeepsPart.andThen {p : Part} {next : Finset ℤ → ServerRun → Part} (hp : KeepsPart P p)
    (hnext : ∀ readSet s, ServerRecords P s → KeepsPart P (next readSet s)) :
    KeepsPart P (p.andThen next) := by
  refine hp.bind fun r hr => ?_
  split
  · exact hnext r.2.1 r.2.2 hr
  · exact Traced.Returns.pure hr

/-- So the part of a turn behind `select` keeps the records, whichever descriptors are ready.
-/
theorem keeps_selected (hP : Recorded platform P) (h : ServerRecords P s) (env : ℕ → CallbackInput)
    (input : ServerTurn) : KeepsPart P (selectedPart platform env input s) := by
  have hlistener : ∀ readSet, KeepsPart P (listenerPart platform input readSet s) := by
    intro readSet
    unfold listenerPart
    split
    · split
      · exact keepsPart_pure h
      · exact (keeps_accept h input.accept _).bind fun r hr => Traced.Returns.pure hr
    · exact keepsPart_pure h
  refine ((((hlistener _).andThen ?_).andThen ?_).andThen ?_).andThen ?_
  · intro readSet s h
    unfold controlPart
    split
    · exact (keeps_message hP h env input.message).bind fun r hr => Traced.Returns.pure hr
    · exact keepsPart_pure h
  · intro readSet s h
    unfold streamPart
    split
    · have haccept : Keeps P (acceptStream input s) := by
        unfold acceptStream
        split
        · exact keeps_udpAccept hP h input.datagram
        · split
          · exact keeps_pure h
          · exact keeps_tcpAccept hP h _
      exact haccept.bind fun r hr => Traced.Returns.pure hr
    · exact keepsPart_pure h
  · intro readSet s h
    unfold startPart
    split
    · refine (keeps_settle h input.restart).bind fun r hr => ?_
      split
      · exact Traced.Returns.pure (hr.begin hP input)
      · exact Traced.Returns.pure hr
    · exact keepsPart_pure h
  · intro readSet s h
    unfold transferPart
    split
    · split
      · exact keepsPart_pure (h.withTest (h.now.frame (iperfSend_frame _ _ _)))
      · exact keepsPart_pure (h.withTest (h.now.frame (iperfRecv_frame _ _ _)))
    · exact keepsPart_pure h

/-- The timers of a turn keep the records, as they do on the client. -/
theorem keeps_timers (hP : Recorded platform P) (h : ServerRecords P s) (env : ℕ → CallbackInput)
    (input : ServerTurn) : Keeps P (timersPart platform env input s) := by
  unfold timersPart
  split
  · split
    · exact keeps_stop
    · rename_i timed hrun
      exact keeps_pure (WorldRecords.timers hP h hrun)
  · exact keeps_pure h

/-- A turn of the server loop. -/
theorem keeps_serverTurn (hP : Recorded platform P) (h : ServerRecords P s)
    (env : ℕ → CallbackInput) (input : ServerTurn) :
    Keeps P (serverTurn platform env input s) := by
  unfold serverTurn
  split
  · refine (keeps_selected hP h env input).bind fun r hr => ?_
    split
    · exact keeps_timers hP hr env input
    · exact keeps_pure hr
  · exact keeps_timers hP h env input

/-- A server that starts without streams and has not reported. -/
structure IdleServer (s : ServerRun) : Prop where
  streams : s.test.streams = []
  executions : s.timed.2.executions = []

/-- The whole of `iperf_run_server`. -/
theorem keeps_runServer (hP : Recorded platform P) (hidle : IdleServer s)
    (env : ℕ → CallbackInput) (io : ListenIo) (inputs : List ServerTurn) :
    Keeps P (iperfRunServer platform env io inputs s) := by
  have hnow : Records P s.test := by
    intro sp hsp
    rw [hidle.streams] at hsp
    cases hsp
  have hreported : ∀ test output, .report test output ∈ s.timed.2.executions → Records P test := by
    intro test output hmem
    rw [hidle.executions] at hmem
    cases hmem
  have h : ServerRecords P s := ⟨hnow, hreported⟩
  have hlisten : Keeps P (iperfServerListen io s) := by
    refine (returns_true _).bind fun fd _ => ?_
    split
    · exact keeps_pure (h.withTest h.now)
    · exact keeps_pure (h.withTest h.now)
  refine hlisten.bind fun r hr => ?_
  split
  · exact serverTurns_invariant (ServerRecords P)
      (fun input s hs => keeps_serverTurn hP hs env input) inputs (hr.withTest hr.now)
  · exact keeps_pure hr

/-- A client that starts without streams and has not reported. -/
structure IdleClient (c : Client) : Prop where
  streams : c.2.test.streams = []
  executions : c.2.executions = []

/-- The whole of a client's loop. -/
theorem clientTurns_records (hP : Recorded platform P) (hidle : IdleClient c)
    {env : ℕ → CallbackInput} {inputs : List TurnInput} {c' : Client}
    (hrun : clientTurns platform env inputs c = some c') : WorldRecords P c'.2 := by
  have hnow : Records P c.2.test := by
    intro sp hsp
    rw [hidle.streams] at hsp
    cases hsp
  have hreported : ∀ test output, .report test output ∈ c.2.executions → Records P test := by
    intro test output hmem
    rw [hidle.executions] at hmem
    cases hmem
  exact clientTurns_invariant (fun c => WorldRecords P c.2)
    (fun _ _ _ _ hc hr => hc.clientTurn hP hr) (everyTurn_true inputs c) ⟨hnow, hreported⟩ hrun

/-- A run of a client or of a server reports on a test. -/
inductive Reports (platform : Platform) (env : ℕ → CallbackInput) (test : IperfTest) : Prop where
  | client {c c' : Client} {inputs : List TurnInput} {output : List Output} (hidle : IdleClient c)
      (hrun : clientTurns platform env inputs c = some c')
      (hreport : .report test output ∈ c'.2.executions)
  | server {s : ServerRun} {io : ListenIo} {inputs : List ServerTurn} {r : Bool × ServerRun}
      {output : List Output} (hidle : IdleServer s)
      (hrun : (iperfRunServer platform env io inputs s).value = some r)
      (hreport : .report test output ∈ r.2.timed.2.executions)

/-- What every move of a record keeps holds at every report. -/
theorem Reports.records (hP : Recorded platform P) {env : ℕ → CallbackInput}
    (h : Reports platform env test) : Records P test := by
  cases h with
  | client hidle hrun hreport => exact (clientTurns_records hP hidle hrun).reported test _ hreport
  | server hidle hrun hreport =>
    exact (keeps_runServer hP hidle env _ _ _ hrun).reported test _ hreport

end IperfRuntime.StreamRecords
