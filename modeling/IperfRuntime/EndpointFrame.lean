import IperfRuntime.ClientLoop
import IperfRuntime.ResultsFrame
import IperfRuntime.TimerEntries
import IperfRuntime.TrafficFrame

/-!
# What a turn leaves alone

The role of a client, its control socket and the descriptors of its streams. A turn of the
client loop keeps them whatever happens in it, except that `CREATE_STREAMS` adds streams.
Nothing is claimed about its counters, which every turn may change.
-/

namespace IperfRuntime.EndpointFrame

open ClockReading JsonTree TimerQueue TimerEntries TestState StreamTraffic TrafficFrame ListLoop
  IntervalStats StreamCreation ResultsExchange ResultsFrame ClientTimers ClientRun ClientLoop

/-- The descriptors of a stream. -/
structure StreamDescriptors where
  socket : ℤ
  bufferFd : ℤ
  diskfileFd : ℤ
  deriving DecidableEq

def descriptorsOf (sp : IperfStream) : StreamDescriptors := ⟨sp.socket, sp.bufferFd, sp.diskfileFd⟩

/-- Two tests with the same endpoints. -/
structure SameEndpoints (before after : IperfTest) : Prop where
  role : after.role = before.role
  ctrlSck : after.ctrlSck = before.ctrlSck
  streams : after.streams.map descriptorsOf = before.streams.map descriptorsOf

variable {test test' : IperfTest}

/-- A test has its own endpoints. -/
theorem SameEndpoints.refl (test : IperfTest) : SameEndpoints test test := ⟨rfl, rfl, rfl⟩

/-- Endpoints that stay the same twice stay the same. -/
theorem SameEndpoints.trans {a b c : IperfTest} (h : SameEndpoints a b) (h' : SameEndpoints b c) :
    SameEndpoints a c :=
  ⟨h'.role.trans h.role, h'.ctrlSck.trans h.ctrlSck, h'.streams.trans h.streams⟩

/-- What keeps the frame of a test keeps its endpoints. -/
theorem sameEndpoints_of_frame (h : SameFrame test test.streams test' test'.streams) :
    SameEndpoints test test' := by
  have hrole := congrArg IperfTest.role h.test
  have hctrl := congrArg IperfTest.ctrlSck h.test
  have hstreams := congrArg (List.map descriptorsOf) h.streams
  rw [List.map_map, List.map_map] at hstreams
  exact ⟨hrole, hctrl, hstreams⟩

/-- Results of the peer change no endpoint. -/
theorem sameEndpoints_results {j : CJson} {r : Bool × IperfTest} (h : getResults j test = some r) :
    SameEndpoints test r.2 := by
  have hframe := getResults_frame h
  have hrole := congrArg IperfTest.role hframe.test
  have hctrl := congrArg IperfTest.ctrlSck hframe.test
  have hstreams := congrArg (List.map descriptorsOf) hframe.streams
  rw [List.map_map, List.map_map] at hstreams
  exact ⟨hrole, hctrl, hstreams⟩

/-- The calculation of an interval changes none. -/
theorem sameEndpoints_stats (platform : Platform) (samples : ℕ → Sample) (test : IperfTest) :
    SameEndpoints test (iperfStatsCallback platform samples test) := by
  refine ⟨rfl, rfl, List.ext_getElem? fun i => ?_⟩
  dsimp only [iperfStatsCallback]
  rw [List.getElem?_map, List.getElem?_map, List.getElem?_mapIdx, Option.map_map]
  rfl

/-- Neither does the end of the omitted seconds. -/
theorem sameEndpoints_endOmission (now : Timeval) (samples : ℕ → Sample) (test : IperfTest) :
    SameEndpoints test (endOmission now samples test) := by
  refine ⟨rfl, rfl, List.ext_getElem? fun i => ?_⟩
  dsimp only [endOmission, iperfResetStats]
  rw [List.getElem?_map, List.getElem?_map, List.getElem?_mapIdx, Option.map_map]
  rfl

/-- No timer of the client changes one, whichever fires. -/
theorem sameEndpoints_callback (platform : Platform) (env : ℕ → CallbackInput) (proc : ClientProc)
    (now : Timeval) (c : Client) :
    SameEndpoints c.2.test (callClient platform env proc now c).2.test := by
  cases proc with
  | testTimer => exact ⟨rfl, rfl, rfl⟩
  | stats =>
    dsimp only [callClient]
    split
    · exact SameEndpoints.refl _
    · exact sameEndpoints_stats platform _ _
  | reporter =>
    dsimp only [callClient]
    split
    · exact SameEndpoints.refl _
    · exact SameEndpoints.refl _
  | omission => exact sameEndpoints_endOmission _ _ _
  | send stream => exact sameEndpoints_of_frame (throttleStream_frame _ _ _ _)

/-- A routine that keeps the endpoints. -/
def KeepsEndpoints (test : IperfTest) (r : Attempt) : Prop := SameEndpoints test r.2.2

/-- An attempt that only sets timers keeps the endpoints. -/
theorem SetsTimers.endpoints {r : Attempt} (h : SetsTimers test r) : KeepsEndpoints test r := by
  have hrole := congrArg IperfTest.role h
  have hctrl := congrArg IperfTest.ctrlSck h
  have hstreams := congrArg (fun test => test.streams.map descriptorsOf) h
  dsimp only [testAtStart] at hstreams
  rw [List.map_map, List.map_map] at hstreams
  exact ⟨hrole, hctrl, hstreams⟩

/-- So `TEST_START` keeps them. -/
theorem handleTestStart_endpoints (input : StartInput) (q : TimerLists ClientProc)
    (test : IperfTest) : KeepsEndpoints test (handleTestStart input q test) := by
  cases hclock : input.initClock with
  | none =>
    unfold handleTestStart
    rw [hclock]
    exact SameEndpoints.refl test
  | some now =>
    have hinit : SameEndpoints test (iperfInitTest now test) := by
      refine ⟨rfl, rfl, ?_⟩
      dsimp only [iperfInitTest]
      rw [List.map_map]
      rfl
    have hstarted : KeepsEndpoints (iperfInitTest now test) (handleTestStart input q test) :=
      SetsTimers.endpoints (handleTestStart_sets hclock q test)
    exact hinit.trans hstarted

/-- A round of reads and writes keeps them. -/
theorem sameEndpoints_transfer (input : RoundInput) (test : IperfTest) :
    SameEndpoints test (transfer input test).2 := by
  unfold transfer
  split
  · exact sameEndpoints_of_frame (iperfRecv_frame _ _ _)
  · exact sameEndpoints_of_frame (iperfSend_frame _ _ _)

/-- What is read after the end keeps them. -/
theorem sameEndpoints_drain (input : RoundInput) (test : IperfTest) :
    SameEndpoints test (drain input test).2 := by
  unfold drain
  split
  · exact sameEndpoints_transfer input test
  · exact SameEndpoints.refl test

/-- The test behind a message, as far as endpoints go. -/
def receivedTest (input : MessageInput) (test : IperfTest) : IperfTest :=
  match input.byte with
  | some .createStreams =>
    (iperfCreateStreams input.streams { test with state := .createStreams }).2.1
  | _ => test

/-- Handling a message keeps the endpoints of the test that has received it, for each message
and also where the handler fails. -/
theorem handleMessage_endpoints {env : ℕ → CallbackInput} {input : MessageInput} {c : Client}
    {r : Bool × Client} (hr : iperfHandleMessageClient env input c = some r) :
    SameEndpoints (receivedTest input c.2.test) r.2.2.test := by
  unfold iperfHandleMessageClient at hr
  unfold receivedTest
  cases hbyte : input.byte with
  | none =>
    rw [hbyte] at hr
    cases hr
    exact SameEndpoints.refl _
  | some byte =>
    rw [hbyte] at hr
    cases byte with
    | testStart =>
      cases hr
      exact (⟨rfl, rfl, rfl⟩ : SameEndpoints c.2.test { c.2.test with state := .testStart }).trans
        (handleTestStart_endpoints input.start c.1 _)
    | exchangeResults =>
      obtain ⟨r', hr', rfl⟩ := Option.map_eq_some_iff.mp hr
      have hstate : SameEndpoints c.2.test { c.2.test with state := .exchangeResults } :=
        ⟨rfl, rfl, rfl⟩
      unfold iperfExchangeResults at hr'
      split at hr'
      · split at hr'
        · exact hstate.trans (sameEndpoints_results hr')
        · cases hr'
          exact hstate
      · cases hr'
        exact hstate
    | createStreams =>
      cases hr
      exact SameEndpoints.refl _
    | _ =>
      cases hr
      exact ⟨rfl, rfl, rfl⟩

/-- A turn of the client keeps the role, the control socket and the descriptors, whatever is
transferred in it. -/
theorem clientWork_endpoints {platform : Platform} {env : ℕ → CallbackInput} {input : TurnInput}
    {c : Client} {r : Bool × Client} (hr : clientWork platform env input c = some r) :
    SameEndpoints c.2.test r.2.2.test := by
  have htransfer := sameEndpoints_transfer input.round c.2.test
  unfold clientWork at hr
  split at hr
  · dsimp only at hr
    split at hr
    · obtain ⟨c', hrun, rfl⟩ := Option.map_eq_some_iff.mp hr
      have hran : SameEndpoints c.2.test c'.2.test :=
        tmrRun_invariant (fun w : Client => SameEndpoints c.2.test w.2.test)
          (fun w hw t _ => hw.trans (sameEndpoints_callback platform env t.proc input.round.now w))
          htransfer hrun
      split
      · have hdone : SameEndpoints c'.2.test
            { c'.2.test with done := true, cpuUtil := input.cpuUtil } := ⟨rfl, rfl, rfl⟩
        have hstats := sameEndpoints_stats platform (env c'.2.calls).samples
          { c'.2.test with done := true, cpuUtil := input.cpuUtil }
        exact hran.trans (hdone.trans (hstats.trans ⟨rfl, rfl, rfl⟩))
      · exact hran
    · cases hr
      exact htransfer
  · split at hr
    · cases hr
      exact sameEndpoints_drain input.round c.2.test
    · cases hr
      exact SameEndpoints.refl _

/-- The test behind the message of a turn, if it has one. -/
def turnTest (input : TurnInput) (test : IperfTest) : IperfTest :=
  match input.message with
  | some message => receivedTest message test
  | none => test

/-- A turn changes the endpoints where its message creates streams, and nowhere else. -/
theorem clientTurn_endpoints {platform : Platform} {env : ℕ → CallbackInput} {input : TurnInput}
    {c : Client} {r : Bool × Client} (hr : clientTurn platform env input c = some r) :
    SameEndpoints (turnTest input c.2.test) r.2.2.test := by
  obtain ⟨r', hmessage, hwork⟩ := Option.bind_eq_some_iff.mp hr
  have hhandled : SameEndpoints (turnTest input c.2.test) r'.2.2.test := by
    unfold clientMessage at hmessage
    unfold turnTest
    cases hm : input.message with
    | some message =>
      rw [hm] at hmessage
      exact handleMessage_endpoints hmessage
    | none =>
      rw [hm] at hmessage
      cases hmessage
      exact SameEndpoints.refl _
  split at hwork
  · exact hhandled.trans (clientWork_endpoints hwork)
  · cases hwork
    exact hhandled

/-- `iperf_create_streams` touches neither the role nor the control socket. -/
theorem createStreams_ends (io : ℕ → StreamIo) (test : IperfTest) :
    (iperfCreateStreams io test).2.1.role = test.role ∧
      (iperfCreateStreams io test).2.1.ctrlSck = test.ctrlSck := by
  obtain ⟨hframe, -⟩ := createStreamsFrom_spec io test.bindPort test.numStreams.toNat 0 test
  have hrole := congrArg IperfTest.role hframe
  have hctrl := congrArg IperfTest.ctrlSck hframe
  exact ⟨hrole, hctrl⟩

/-- The state that a turn begins with has the role and the control socket it had. -/
theorem turnTest_ends (input : TurnInput) (test : IperfTest) :
    (turnTest input test).role = test.role ∧ (turnTest input test).ctrlSck = test.ctrlSck := by
  unfold turnTest
  split
  · unfold receivedTest
    split
    · exact createStreams_ends _ _
    · exact ⟨rfl, rfl⟩
  · exact ⟨rfl, rfl⟩

end IperfRuntime.EndpointFrame
