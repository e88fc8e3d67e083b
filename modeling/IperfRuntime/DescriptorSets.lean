import IperfRuntime.DescriptorLedger
import IperfRuntime.ServerLoop

/-!
# Descriptors in the sets

What transfers, timers and statistics of either end do to the descriptor sets of a test: the
throttle moves the sockets of the streams in and out of the write set, and nothing else is
moved. What descriptors stay open is read off the trace. How long `select` waits, and why it
comes back, is not part of this.
-/

namespace IperfRuntime.DescriptorSets

open ClockReading JsonTree TimerQueue TimerEntries TestState StreamTraffic TrafficFrame
  IntervalStats StreamCreation ResultsExchange ResultsFrame ClientTimers ClientRun ClientLoop
  DescriptorLedger EventTrace ServerLoop

/-- A descriptor that is in use. -/
def IsOpen (table : OpenTable) (fd : ℤ) : Prop := ∃ e ∈ table, e.2 = fd

/-- A descriptor that `select` can be asked about. -/
structure Watched (table : OpenTable) (maxFd fd : ℤ) : Prop where
  nonneg : 0 ≤ fd
  isOpen : IsOpen table fd
  le : fd ≤ maxFd

/-- Every descriptor in a set of the test is open and within its bound. -/
def SetsValid (table : OpenTable) (test : IperfTest) : Prop :=
  ∀ fd, fd ∈ test.readSet ∨ fd ∈ test.writeSet → IsOpen table fd ∧ fd ≤ test.maxFd

variable {table : OpenTable} {fd fd' maxFd maxFd' : ℤ} {kind : FdKind}
  {test test' test'' : IperfTest}

/-- A descriptor that a call has just opened is open in the table behind that call. -/
theorem isOpen_opened (table : OpenTable) (kind : FdKind) (fd : ℤ) :
    IsOpen (kernel.step table (.opened kind fd)) fd := ⟨_, List.mem_cons_self, rfl⟩

/-- Opening another descriptor leaves an open one open, whatever its kind. -/
theorem IsOpen.opened (h : IsOpen table fd) (kind : FdKind) (fd' : ℤ) :
    IsOpen (kernel.step table (.opened kind fd')) fd := by
  obtain ⟨e, he, hfd⟩ := h
  exact ⟨e, List.mem_cons_of_mem _ he, hfd⟩

/-- Closing a descriptor leaves every other one open. -/
theorem IsOpen.closed (h : IsOpen table fd) (hne : fd ≠ fd') :
    IsOpen (kernel.step table (.closed fd')) fd := by
  obtain ⟨e, he, hfd⟩ := h
  refine ⟨e, List.mem_filter.mpr ⟨he, decide_eq_true ?_⟩, hfd⟩
  rw [hfd]
  exact hne

/-- Closing several descriptors. -/
theorem IsOpen.closes {fds : List ℤ} (h : IsOpen table fd) (hnot : fd ∉ fds) :
    IsOpen (kernel.run table (fds.map .closed)) fd := by
  induction fds generalizing table with
  | nil => exact h
  | cons fd' rest ih =>
    rw [List.mem_cons, not_or] at hnot
    exact ih (h.closed hnot.1) hnot.2

/-- Events that open only. -/
theorem IsOpen.opens {events : List FdEvent} (h : IsOpen table fd)
    (hopens : ∀ e ∈ events, ∃ kind fd', e = .opened kind fd') :
    IsOpen (kernel.run table events) fd := by
  induction events generalizing table with
  | nil => exact h
  | cons e rest ih =>
    obtain ⟨kind, fd', rfl⟩ := hopens e List.mem_cons_self
    exact ih (h.opened kind fd') fun e' he' => hopens e' (List.mem_cons_of_mem _ he')

/-- What was open is another descriptor than a new one. -/
theorem ne_of_isOpen (hallows : kernel.allows table (.opened kind fd')) (h : IsOpen table fd) :
    fd ≠ fd' := by
  obtain ⟨e, he, rfl⟩ := h
  exact hallows.2 e he

/-- A watched descriptor stays watched when the kernel opens another one. -/
theorem Watched.opened (h : Watched table maxFd fd) (kind : FdKind) (fd' : ℤ) :
    Watched (kernel.step table (.opened kind fd')) maxFd fd :=
  ⟨h.nonneg, h.isOpen.opened kind fd', h.le⟩

/-- A watched descriptor stays watched when another one is closed, as `FD_CLR` of the closed one
does not touch it. -/
theorem Watched.closed (h : Watched table maxFd fd) (hne : fd ≠ fd') :
    Watched (kernel.step table (.closed fd')) maxFd fd :=
  ⟨h.nonneg, h.isOpen.closed hne, h.le⟩

/-- A larger `max_fd` still covers what was watched below a smaller one. -/
theorem Watched.mono (h : Watched table maxFd fd) (hle : maxFd ≤ maxFd') :
    Watched table maxFd' fd := ⟨h.nonneg, h.isOpen, h.le.trans hle⟩

/-- A new descriptor within a new bound. -/
theorem watched_new (hallows : kernel.allows table (.opened kind fd)) :
    Watched (kernel.step table (.opened kind fd)) (max maxFd fd) fd :=
  ⟨hallows.1, isOpen_opened table kind fd, le_max_right _ _⟩

/-- What the transfers and the timers of a test leave alone. -/
structure SetsFrame where
  readSet : Finset ℤ
  maxFd : ℤ
  listener : ℤ
  protListener : ℤ
  ctrlSck : ℤ
  state : StateByte
  protocol : ProtocolId
  sockets : List ℤ

def setsFrame (test : IperfTest) : SetsFrame where
  readSet := test.readSet
  maxFd := test.maxFd
  listener := test.listener
  protListener := test.protListener
  ctrlSck := test.ctrlSck
  state := test.state
  protocol := test.protocol
  sockets := test.streams.map (·.socket)

/-- At most sockets of streams come into the write set. -/
structure KeepsSets (test test' : IperfTest) : Prop where
  frame : setsFrame test' = setsFrame test
  write : test'.writeSet ⊆ test.writeSet ∪ socketsOf test

/-- A step that does nothing keeps the sets. -/
theorem KeepsSets.refl (test : IperfTest) : KeepsSets test test := ⟨rfl, Finset.subset_union_left⟩

/-- The sockets of the streams are the same behind a step that keeps the sets. -/
theorem KeepsSets.sockets (h : KeepsSets test test') : socketsOf test' = socketsOf test := by
  unfold socketsOf
  exact congrArg List.toFinset (congrArg SetsFrame.sockets h.frame)

/-- Two steps that keep the sets keep them together: what the second adds to the write set belongs
to a stream of the first test already. -/
theorem KeepsSets.trans (h : KeepsSets test test') (h' : KeepsSets test' test'') :
    KeepsSets test test'' where
  frame := h'.frame.trans h.frame
  write := by
    intro fd hfd
    rcases Finset.mem_union.mp (h'.write hfd) with hwrite | hsocket
    · exact h.write hwrite
    · rw [h.sockets] at hsocket
      exact Finset.mem_union_right _ hsocket

/-- A test whose sets were not touched. -/
theorem keepsSets_of_same (hframe : setsFrame test' = setsFrame test)
    (hwrite : test'.writeSet = test.writeSet) : KeepsSets test test' :=
  ⟨hframe, by rw [hwrite]; exact Finset.subset_union_left⟩

/-- A change outside the descriptors keeps the sets when the write set gains sockets of streams
only. -/
theorem keepsSets_of_frame (h : SameFrame test test.streams test' test'.streams)
    (hwrite : test'.writeSet ⊆ test.writeSet ∪ socketsOf test) : KeepsSets test test' := by
  refine ⟨?_, hwrite⟩
  have hstreams := congrArg (List.map (·.socket)) h.streams
  rw [List.map_map, List.map_map] at hstreams
  have hboth : setsFrame test' =
      { setsFrame (testFrame test') with sockets := test'.streams.map (·.socket) } := rfl
  have hboth' : setsFrame test =
      { setsFrame (testFrame test) with sockets := test.streams.map (·.socket) } := rfl
  have hsockets : test'.streams.map (·.socket) = test.streams.map (·.socket) := hstreams
  rw [hboth, hboth', hsockets, h.test]

/-- The throttle on a stream. -/
theorem check_writeSet (convert : PrintfText.Dbl → ℕ) (now : Timeval) (test : IperfTest)
    (sp : IperfStream) :
    (iperfCheckThrottle convert now test sp).1.writeSet ⊆ insert sp.socket test.writeSet := by
  unfold iperfCheckThrottle
  split_ifs
  · exact Finset.subset_insert _ _
  · exact Finset.Subset.refl _
  · exact (Finset.erase_subset _ _).trans (Finset.subset_insert _ _)

/-- The write set of a test in a loop over streams. -/
def WithinSockets (test current : IperfTest) (streams : List IperfStream) : Prop :=
  current.writeSet ⊆ test.writeSet ∪ socketsOf test ∧
    streams.map (·.socket) = test.streams.map (·.socket)

/-- A round of a loop over the streams that puts at most the socket of its own stream into the write
set keeps it within the sockets. -/
theorem WithinSockets.round {current next : IperfTest} {pre post : List IperfStream}
    {sp sp' : IperfStream} (h : WithinSockets test current (pre ++ sp :: post))
    (hsocket : sp'.socket = sp.socket)
    (hwrite : next.writeSet ⊆ insert sp.socket current.writeSet) :
    WithinSockets test next (pre ++ sp' :: post) := by
  obtain ⟨hwithin, hsame⟩ := h
  have hmember : sp.socket ∈ socketsOf test := by
    unfold socketsOf
    rw [← hsame, List.mem_toFinset]
    exact List.mem_map_of_mem (List.mem_append_right _ List.mem_cons_self)
  refine ⟨hwrite.trans (Finset.insert_subset (Finset.mem_union_right _ hmember) hwithin), ?_⟩
  rw [List.map_append, List.map_cons] at hsame ⊢
  rw [hsocket]
  exact hsame

/-- The socket of a stream belongs to what a transfer leaves alone. -/
theorem socket_of_frame {sp sp' : IperfStream} (h : streamFrame sp' = streamFrame sp) :
    sp'.socket = sp.socket := by
  have hsocket := congrArg IperfStream.socket h
  exact hsocket

/-- A call of `iperf_send` moves sockets of streams out of the write set or back, and does
nothing else to the sets. -/
theorem keepsSets_send (env : SendEnv) (writeSetP : Option (Finset ℤ)) (test : IperfTest) :
    KeepsSets test (iperfSend env writeSetP test).test := by
  have hbody : ∀ round multisend now i (s : SendState) pre sp post,
      WithinSockets test s.test (pre ++ sp :: post) →
      WithinSockets test (sendBody env writeSetP round multisend now i s sp).1.test
        (pre ++ (sendBody env writeSetP round multisend now i s sp).2.1 :: post) := by
    intro round multisend now i s pre sp post hs
    refine hs.round (socket_of_frame (sendBody_frame env writeSetP round multisend now i s sp).2) ?_
    unfold sendBody
    split
    · dsimp only
      split
      · exact Finset.subset_insert _ _
      · unfold checkAfterSend
        split
        · have hcheck := check_writeSet env.convert now (afterSnd s sp (snd s.test (env.io round i)
            sp).1 (snd s.test (env.io round i) sp).2.2).test (snd s.test (env.io round i) sp).2.1
          rw [socket_of_frame (snd_frame s.test (env.io round i) sp)] at hcheck
          exact hcheck
        · exact Finset.subset_insert _ _
    · exact Finset.subset_insert _ _
  have hburst : ∀ i (s : SendState) pre sp post,
      WithinSockets test s.test (pre ++ sp :: post) →
      WithinSockets test (burstBody env i s sp).1.test
        (pre ++ (burstBody env i s sp).2.1 :: post) := by
    intro i s pre sp post hs
    exact hs.round (socket_of_frame (check_frame env.convert env.endClock s.test sp).2)
      (check_writeSet env.convert env.endClock s.test sp)
  obtain ⟨current, streams, ⟨hwrite, -⟩, heq⟩ := @iperfSend_keeps env writeSetP
    (WithinSockets test) hbody hburst test ⟨Finset.subset_union_left, rfl⟩
  refine keepsSets_of_frame (iperfSend_frame env writeSetP test) ?_
  rw [heq]
  exact hwrite

/-- A call of `iperf_recv`. -/
theorem keepsSets_recv (io : ℕ → RcvIo) (readSetP : Finset ℤ) (test : IperfTest) :
    KeepsSets test (iperfRecv io readSetP test).2.1 := by
  have hbody : ∀ i (s : RecvState) (pre : List IperfStream) sp (post : List IperfStream),
      s.test.writeSet = test.writeSet → (recvBody io i s sp).1.test.writeSet = test.writeSet := by
    intro i s pre sp post hs
    unfold recvBody
    split
    · dsimp only
      split
      · exact hs
      · exact hs
    · exact hs
  obtain ⟨current, streams, hwrite, heq⟩ := @iperfRecv_keeps
    (fun current _ => current.writeSet = test.writeSet) io hbody test rfl readSetP
  refine keepsSets_of_frame (iperfRecv_frame io readSetP test) ?_
  rw [heq]
  dsimp only
  rw [hwrite]
  exact Finset.subset_union_left

/-- `iperf_send` and `iperf_recv` move no descriptor into the read set, and only sockets of streams
into the write set. -/
theorem keepsSets_transfer (input : RoundInput) (test : IperfTest) :
    KeepsSets test (transfer input test).2 := by
  unfold transfer
  split
  · exact keepsSets_recv _ _ _
  · exact keepsSets_send _ _ _

/-- The throttle check behind the send timer moves the socket of its stream into or out of the write
set. -/
theorem keepsSets_throttle (convert : PrintfText.Dbl → ℕ) (now : Timeval) (i : ℕ)
    (test : IperfTest) : KeepsSets test (throttleStream convert now i test) := by
  refine keepsSets_of_frame (throttleStream_frame convert now i test) ?_
  unfold throttleStream
  split
  · rename_i sp hsp
    refine (check_writeSet convert now test sp).trans ?_
    refine Finset.insert_subset (Finset.mem_union_right _ ?_) Finset.subset_union_left
    exact List.mem_toFinset.mpr (List.mem_map_of_mem (List.mem_of_getElem? hsp))
  · exact Finset.subset_union_left

/-- Streams whose other fields were changed in place. -/
theorem keepsSets_mapIdx {f : ℕ → IperfStream → IperfStream}
    (hstreams : test'.streams = test.streams.mapIdx f) (hf : ∀ i sp, (f i sp).socket = sp.socket)
    (hrest : setsFrame { test' with streams := [] } = setsFrame { test with streams := [] })
    (hwrite : test'.writeSet = test.writeSet) : KeepsSets test test' := by
  have hsockets : test'.streams.map (·.socket) = test.streams.map (·.socket) := by
    refine List.ext_getElem? fun i => ?_
    rw [hstreams, List.getElem?_map, List.getElem?_map, List.getElem?_mapIdx, Option.map_map]
    exact congrArg (Option.map · test.streams[i]?) (funext (hf i))
  have hafter : setsFrame test' = { setsFrame { test' with streams := [] } with
      sockets := test'.streams.map (·.socket) } := rfl
  refine keepsSets_of_same ?_ hwrite
  rw [hafter, hrest, hsockets]
  rfl

/-- `iperf_stats_callback` works on results and leaves the descriptor sets alone. -/
theorem keepsSets_stats (platform : Platform) (samples : ℕ → Sample) (test : IperfTest) :
    KeepsSets test (iperfStatsCallback platform samples test) :=
  keepsSets_mapIdx rfl (fun _ _ => rfl) rfl rfl

/-- The end of omission resets results and leaves the descriptor sets alone. -/
theorem keepsSets_endOmission (now : Timeval) (samples : ℕ → Sample) (test : IperfTest) :
    KeepsSets test (endOmission now samples test) :=
  keepsSets_mapIdx rfl (fun _ _ => rfl) rfl rfl

/-- `iperf_init_test` sets the clocks of the streams and leaves the descriptor sets alone. -/
theorem keepsSets_init (now : Timeval) (test : IperfTest) :
    KeepsSets test (iperfInitTest now test) := by
  refine keepsSets_of_same ?_ rfl
  unfold setsFrame iperfInitTest
  dsimp only
  rw [List.map_map]
  rfl

/-- A routine that sets the pointers to timers leaves the descriptor sets alone. -/
theorem keepsSets_sets {r : Attempt} (h : SetsTimers test r) : KeepsSets test r.2.2 := by
  have hframe := congrArg setsFrame h
  unfold testAtStart setsFrame at hframe
  dsimp only at hframe
  rw [List.map_map, List.map_map] at hframe
  have hwrite := congrArg IperfTest.writeSet h
  exact keepsSets_of_same hframe hwrite

/-- The handler of `TEST_START` on the client leaves the descriptor sets alone, whether or not it
fails. -/
theorem keepsSets_testStart (input : StartInput) (q : TimerLists ClientProc) (test : IperfTest) :
    KeepsSets test (handleTestStart input q test).2.2 := by
  cases hclock : input.initClock with
  | none =>
    unfold handleTestStart
    rw [hclock]
    exact KeepsSets.refl test
  | some now =>
    exact (keepsSets_init now test).trans (keepsSets_sets (handleTestStart_sets hclock q test))

/-- `get_results` assigns figures of the peer and leaves the descriptor sets alone. -/
theorem keepsSets_results {j : CJson} {r : Bool × IperfTest} (h : getResults j test = some r) :
    KeepsSets test r.2 := by
  have hframe := getResults_frame h
  have hsockets := congrArg (List.map (·.socket)) hframe.streams
  rw [List.map_map, List.map_map] at hsockets
  have hsame : r.2.streams.map (·.socket) = test.streams.map (·.socket) := hsockets
  have hafter : setsFrame r.2 =
      { setsFrame (exchangeFrame r.2) with sockets := r.2.streams.map (·.socket) } := rfl
  have hwrite := congrArg IperfTest.writeSet hframe.test
  refine keepsSets_of_same ?_ hwrite
  rw [hafter, hframe.test, hsame]
  rfl

/-- What the timers do: a test that is done is not throttled any more. -/
structure TimersKeep (test test' : IperfTest) : Prop where
  keeps : KeepsSets test test'
  done : test.done = true → test'.done = true ∧ test'.writeSet = test.writeSet

/-- Timers that do not fire keep the sets. -/
theorem TimersKeep.refl (test : IperfTest) : TimersKeep test test :=
  ⟨KeepsSets.refl test, fun h => ⟨h, rfl⟩⟩

/-- What one run of the timers keeps, two runs after one another keep. -/
theorem TimersKeep.trans (h : TimersKeep test test') (h' : TimersKeep test' test'') :
    TimersKeep test test'' where
  keeps := h.keeps.trans h'.keeps
  done := by
    intro hdone
    obtain ⟨hdone', hwrite⟩ := h.done hdone
    obtain ⟨hdone'', hwrite'⟩ := h'.done hdone'
    exact ⟨hdone'', hwrite'.trans hwrite⟩

/-- Each of the five callbacks keeps the sets; the one at the end of the test raises `done`. -/
theorem timersKeep_callback (platform : Platform) (env : ℕ → CallbackInput) (proc : ClientProc)
    (now : Timeval) (c : Client) :
    TimersKeep c.2.test (callClient platform env proc now c).2.test := by
  cases proc with
  | testTimer => exact ⟨keepsSets_of_same rfl rfl, fun _ => ⟨rfl, rfl⟩⟩
  | stats =>
    dsimp only [callClient]
    split
    · exact TimersKeep.refl _
    · exact ⟨keepsSets_stats platform _ _, fun h => ⟨h, rfl⟩⟩
  | reporter =>
    dsimp only [callClient]
    split
    · exact TimersKeep.refl _
    · exact TimersKeep.refl _
  | omission => exact ⟨keepsSets_endOmission _ _ _, fun h => ⟨h, rfl⟩⟩
  | send stream =>
    refine ⟨keepsSets_throttle _ _ _ _, fun hdone => ?_⟩
    dsimp only [callClient]
    unfold throttleStream iperfCheckThrottle
    rw [hdone]
    split
    · exact ⟨hdone, rfl⟩
    · exact ⟨hdone, rfl⟩

/-- A whole `tmr_run` keeps the sets, however many callbacks it executes. -/
theorem timersKeep_run {platform : Platform} {env : ℕ → CallbackInput} {now : Timeval} {fuel : ℕ}
    {c c' : Client} (hrun : tmrRun (callClient platform env) now fuel c = some c') :
    TimersKeep c.2.test c'.2.test :=
  tmrRun_invariant (fun w : Client => TimersKeep c.2.test w.2.test)
    (fun w hw t _ => hw.trans (timersKeep_callback platform env t.proc now w))
    (TimersKeep.refl _) hrun

/-- The sets of a test whose streams are open. -/
structure Holds (table : OpenTable) (test : IperfTest) : Prop where
  read : ∀ fd ∈ test.readSet, Watched table test.maxFd fd
  sockets : ∀ fd ∈ socketsOf test, Watched table test.maxFd fd
  write : test.writeSet ⊆ socketsOf test

/-- Sets without a word on the streams. -/
structure Watches (table : OpenTable) (test : IperfTest) : Prop where
  read : ∀ fd ∈ test.readSet, Watched table test.maxFd fd
  write : ∀ fd ∈ test.writeSet, Watched table test.maxFd fd

/-- What is watched of both sets is what `select` asks for. -/
theorem Watches.setsValid (h : Watches table test) : SetsValid table test := by
  intro fd hfd
  have hwatched := hfd.elim (h.read fd) (h.write fd)
  exact ⟨hwatched.isOpen, hwatched.le⟩

/-- Behind a step that holds, everything in the two sets is watched. -/
theorem Holds.watches (h : Holds table test) : Watches table test :=
  ⟨h.read, fun fd hfd => h.sockets fd (h.write hfd)⟩

/-- The fields that a kept test shares with the one before. -/
theorem Holds.keeps (h : Holds table test) (hkeeps : KeepsSets test test') :
    Holds table test' := by
  have hread : test'.readSet = test.readSet := congrArg SetsFrame.readSet hkeeps.frame
  have hmax : test'.maxFd = test.maxFd := congrArg SetsFrame.maxFd hkeeps.frame
  refine ⟨?_, ?_, ?_⟩
  · rw [hread, hmax]
    exact h.read
  · rw [hkeeps.sockets, hmax]
    exact h.sockets
  · rw [hkeeps.sockets]
    exact hkeeps.write.trans (Finset.union_subset h.write (Finset.Subset.refl _))

/-- A further descriptor in the table does no harm to what is held. -/
theorem Holds.opened (h : Holds table test) (kind : FdKind) (fd : ℤ) :
    Holds (kernel.step table (.opened kind fd)) test where
  read := fun fd' hfd => (h.read fd' hfd).opened kind fd
  sockets := fun fd' hfd => (h.sockets fd' hfd).opened kind fd
  write := h.write

/-- Neither do several of them, as the calls in front of a stream open them. -/
theorem Holds.opens {events : List FdEvent} (h : Holds table test)
    (hopens : ∀ e ∈ events, ∃ kind fd', e = .opened kind fd') :
    Holds (kernel.run table events) test := by
  induction events generalizing table with
  | nil => exact h
  | cons e rest ih =>
    obtain ⟨kind, fd', rfl⟩ := hopens e List.mem_cons_self
    exact ih (h.opened kind fd') fun e' he' => hopens e' (List.mem_cons_of_mem _ he')

/-- The state byte plays no part in what is held. -/
theorem Holds.state (h : Holds table test) (state : StateByte) :
    Holds table { test with state := state } := ⟨h.read, h.sockets, h.write⟩

/-- Nor does the listener, which the client does not have. -/
theorem Holds.listen (h : Holds table test) (fd : ℤ) :
    Holds table { test with listener := fd } := ⟨h.read, h.sockets, h.write⟩

/-- A new listening socket. -/
theorem Holds.watchListener (h : Holds table test) (hfd : Watched table (max test.maxFd fd) fd) :
    Holds table (watchListener fd test) where
  read := by
    intro fd' hfd'
    rcases Finset.mem_insert.mp hfd' with rfl | hold
    · exact hfd
    · exact (h.read fd' hold).mono (le_max_left _ _)
  sockets := fun fd' hfd' => (h.sockets fd' hfd').mono (le_max_left _ _)
  write := h.write

/-- A listening socket that is closed. -/
theorem Holds.unwatch (h : Holds table test) (hfd : fd ∉ socketsOf test) :
    Holds (kernel.step table (.closed fd)) { test with readSet := test.readSet.erase fd } where
  read := by
    intro fd' hfd'
    obtain ⟨hne, hread⟩ := Finset.mem_erase.mp hfd'
    exact (h.read fd' hread).closed hne
  sockets := by
    intro fd' hfd'
    refine (h.sockets fd' hfd').closed ?_
    rintro rfl
    exact hfd hfd'
  write := h.write

/-- A stream that is made opens descriptors and closes none. -/
theorem newStream_opens {test : IperfTest} {io : NewStreamIo} {fd : ℤ} {sp : IperfStream}
    {events : List FdEvent} (h : iperfNewStream test io fd = (some sp, events)) :
    ∀ e ∈ events, ∃ kind fd', e = .opened kind fd' := by
  unfold iperfNewStream at h
  split at h
  · dsimp only at h
    split at h
    · cases h
    · split at h
      · split at h
        · cases h
        · split at h
          · cases h
            intro e he
            rcases List.mem_append.mp he with he | he
            · exact ⟨_, _, List.mem_singleton.mp he⟩
            · exact ⟨_, _, List.mem_singleton.mp he⟩
          · cases h
      · split at h
        · cases h
          intro e he
          exact ⟨_, _, List.mem_singleton.mp he⟩
        · cases h
  · cases h

/-- Behind `iperf_add_stream` and `FD_SET` the sockets of the test are the earlier ones with the new
one. -/
theorem socketsOf_added {test : IperfTest} {sp : IperfStream} (hsp : sp.socket = fd) :
    socketsOf (watchSocket fd (iperfAddStream sp test)) = insert fd (socketsOf test) := by
  unfold socketsOf watchSocket iperfAddStream
  dsimp only
  rw [List.map_append, List.toFinset_append, List.map_singleton, hsp, Finset.union_comm]
  rfl

/-- An open descriptor becomes a stream: it is watched from then on, and the others are
watched as before. -/
theorem Holds.addStream (h : Holds table test) (hfd : Watched table (max test.maxFd fd) fd)
    {sp : IperfStream} (hsp : sp.socket = fd) :
    Holds table (watchSocket fd (iperfAddStream sp test)) where
  read := by
    intro fd' hfd'
    have hmem : fd' = fd ∨ fd' ∈ test.readSet := by
      dsimp only [watchSocket, iperfAddStream] at hfd'
      split at hfd'
      · exact Or.inr hfd'
      · exact Finset.mem_insert.mp hfd'
    rcases hmem with rfl | hold
    · exact hfd
    · exact (h.read fd' hold).mono (le_max_left _ _)
  sockets := by
    rw [socketsOf_added hsp]
    intro fd' hfd'
    rcases Finset.mem_insert.mp hfd' with rfl | hold
    · exact hfd
    · exact (h.sockets fd' hold).mono (le_max_left _ _)
  write := by
    rw [socketsOf_added hsp]
    dsimp only [watchSocket, iperfAddStream]
    split
    · exact Finset.insert_subset_insert _ h.write
    · exact h.write.trans (Finset.subset_insert _ _)

end IperfRuntime.DescriptorSets
