import IperfRuntime.DescriptorSets

/-!
# The descriptor sets of a server

What is open and watched in front of every `select` of `iperf_run_server`. Until the test
ends, the sockets of its streams are open and only they are in the write set. Afterwards they
are closed and out of the sets, and no throttle brings them back.
-/

namespace IperfRuntime.ServerSets

open JsonTree TimerQueue TestState StreamTraffic StreamCreation SocketIo ResultsExchange
  ServerAccept ClientTimers ClientRun ClientLoop DescriptorLedger EventTrace ServerLoop
  DescriptorSets

/-- The listening sockets while streams are created. -/
structure Creating (test : IperfTest) : Prop where
  ctrlSck : test.ctrlSck ≠ -1
  listener : test.listener ∈ test.readSet
  protListener : test.protListener ∈ test.readSet
  listener_apart : test.listener ∉ socketsOf test
  protListener_apart : test.protListener ∉ socketsOf test
  udp : test.protocol = .udp → test.listener ≠ test.protListener

/-- A server that waits for its client, or has a client whose test has not ended. -/
structure Live (table : OpenTable) (test : IperfTest) : Prop extends Holds table test where
  free : test.ctrlSck = -1 → socketsOf test = ∅ ∧ test.listener ∈ test.readSet
  creating : test.state = .createStreams → Creating test

/-- A server whose streams are closed. -/
structure Ended (table : OpenTable) (test : IperfTest) : Prop extends Watches table test where
  done : test.done = true
  ctrlSck : test.ctrlSck ≠ -1
  creating : test.state ≠ .createStreams
  running : test.state ≠ .testRunning

/-- A server in front of `select`. -/
inductive Ongoing (table : OpenTable) (test : IperfTest) : Prop where
  | live (h : Live table test)
  | ended (h : Ended table test)

/-- A server that goes on, or is done. -/
inductive Steady (table : OpenTable) (test : IperfTest) : Prop where
  | ongoing (h : Ongoing table test)
  | finished (h : test.state = .iperfDone)

variable {table : OpenTable} {test test' : IperfTest}

/-- While a test is going on the read set watches its descriptors. -/
theorem Ongoing.watches (h : Ongoing table test) : Watches table test := by
  cases h with
  | live h => exact h.toHolds.watches
  | ended h => exact h.toWatches

/-- Outside `IPERF_DONE` a steady server is one whose test is going on. -/
theorem Steady.of_state (h : Steady table test) (hstate : test.state ≠ .iperfDone) :
    Ongoing table test := by
  cases h with
  | ongoing h => exact h
  | finished h => exact absurd h hstate

/-- What keeps the sets keeps a live server, whose streams are open and watched and whose
listeners are those it waits on. -/
theorem Live.keeps (h : Live table test) (hkeeps : KeepsSets test test') : Live table test' := by
  have hread : test'.readSet = test.readSet := congrArg SetsFrame.readSet hkeeps.frame
  have hlistener : test'.listener = test.listener := congrArg SetsFrame.listener hkeeps.frame
  have hprot : test'.protListener = test.protListener :=
    congrArg SetsFrame.protListener hkeeps.frame
  have hctrl : test'.ctrlSck = test.ctrlSck := congrArg SetsFrame.ctrlSck hkeeps.frame
  have hstate : test'.state = test.state := congrArg SetsFrame.state hkeeps.frame
  have hprotocol : test'.protocol = test.protocol := congrArg SetsFrame.protocol hkeeps.frame
  refine ⟨h.toHolds.keeps hkeeps, ?_, ?_⟩
  · rw [hctrl, hkeeps.sockets, hlistener, hread]
    exact h.free
  · rw [hstate]
    intro hcreate
    obtain ⟨h₁, h₂, h₃, h₄, h₅, h₆⟩ := h.creating hcreate
    constructor
    · rw [hctrl]
      exact h₁
    · rw [hlistener, hread]
      exact h₂
    · rw [hprot, hread]
      exact h₃
    · rw [hlistener, hkeeps.sockets]
      exact h₄
    · rw [hprot, hkeeps.sockets]
      exact h₅
    · rw [hprotocol, hlistener, hprot]
      exact h₆

/-- A change of the timers keeps an ended test. -/
theorem Ended.timers (h : Ended table test) (htimers : TimersKeep test test') :
    Ended table test' := by
  obtain ⟨hdone, hwrite⟩ := htimers.done h.done
  have hread : test'.readSet = test.readSet := congrArg SetsFrame.readSet htimers.keeps.frame
  have hmax : test'.maxFd = test.maxFd := congrArg SetsFrame.maxFd htimers.keeps.frame
  have hctrl : test'.ctrlSck = test.ctrlSck := congrArg SetsFrame.ctrlSck htimers.keeps.frame
  have hstate : test'.state = test.state := congrArg SetsFrame.state htimers.keeps.frame
  refine ⟨⟨?_, ?_⟩, hdone, ?_, ?_, ?_⟩
  · rw [hread, hmax]
    exact h.read
  · rw [hwrite, hmax]
    exact h.write
  · rw [hctrl]
    exact h.ctrlSck
  · rw [hstate]
    exact h.creating
  · rw [hstate]
    exact h.running

/-- It keeps a steady server as well. -/
theorem Steady.timers (h : Steady table test) (htimers : TimersKeep test test') :
    Steady table test' := by
  cases h with
  | ongoing h =>
    cases h with
    | live h => exact .ongoing (.live (h.keeps htimers.keeps))
    | ended h => exact .ongoing (.ended (h.timers htimers))
  | finished h => exact .finished ((congrArg SetsFrame.state htimers.keeps.frame).trans h)

/-- What a routine of the server leaves when it succeeds. -/
def Ensures (P : OpenTable → Prop) (x : Routine) (Q : OpenTable → IperfTest → Prop) : Prop :=
  kernel.Triple P x fun r table => r.1 = true → Q table r.2.test

variable {P : OpenTable → Prop} {Q : OpenTable → IperfTest → Prop} {s : ServerRun}

/-- A result without events ensures what holds of it. -/
theorem ensures_pure {ok : Bool} (h : ∀ table, P table → Q table s.test) :
    Ensures P (pure (ok, s)) Q :=
  Monitor.Triple.pure fun table hP _ => h table hP

/-- A failed part ensures nothing that needs its success. -/
theorem ensures_failure : Ensures P (pure (false, s)) Q :=
  Monitor.Triple.pure fun _ _ h => nomatch h

/-- Neither does a part that does not come back. -/
theorem ensures_stop : Ensures P .stop Q := Monitor.Triple.stop

/-- A table in which a descriptor has just come to one of the given tables. -/
def JustOpened (P : OpenTable → Prop) (kind : FdKind) (fd : ℤ) (table : OpenTable) : Prop :=
  ∃ before, P before ∧ kernel.allows before (.opened kind fd) ∧
    table = kernel.step before (.opened kind fd)

/-- A descriptor opens in front of the rest. -/
theorem triple_opened {α : Type} {f : PUnit → Traced FdEvent α} {R : α → OpenTable → Prop}
    {kind : FdKind} {fd : ℤ} (hf : kernel.Triple (JustOpened P kind fd) (f ⟨⟩) R) :
    kernel.Triple P (.emits [.opened kind fd] >>= f) R :=
  Monitor.Triple.emits (fun table hP hallows => ⟨table, hP, hallows.1, rfl⟩) hf

/-- A descriptor closes in front of the rest. -/
theorem triple_closed {α : Type} {f : PUnit → Traced FdEvent α} {R : α → OpenTable → Prop}
    {T : OpenTable → Prop} {fd : ℤ} (h : ∀ table, P table → T (kernel.step table (.closed fd)))
    (hf : kernel.Triple T (f ⟨⟩) R) : kernel.Triple P (.emits [.closed fd] >>= f) R :=
  Monitor.Triple.emits (fun table hP _ => h table hP) hf

/-- The descriptor that `netannounce` returns has just been opened. -/
theorem netannounce_opens (kind : FdKind) (io : ListenIo) :
    kernel.Triple P (netannounce kind io) fun r table => ∀ fd ∈ r, JustOpened P kind fd table := by
  unfold netannounce
  split
  · exact Monitor.Triple.pure fun _ _ _ h => nomatch h
  · rename_i fd _
    refine triple_opened ?_
    split
    · refine Monitor.Triple.pure fun table h fd' hfd => ?_
      cases hfd
      exact h
    · exact triple_closed (T := fun _ => True) (fun _ _ => trivial)
        (Monitor.Triple.pure fun _ _ _ h => nomatch h)

variable {kind : FdKind} {fd : ℤ}

/-- A server with a client and without streams. -/
structure Admitted (table : OpenTable) (test : IperfTest) : Prop extends Holds table test where
  ctrlSck : test.ctrlSck ≠ -1
  empty : socketsOf test = ∅
  listener : test.listener ∈ test.readSet

/-- The listening socket for streams is watched, and the server creates them. -/
def awaitStreams (fd : ℤ) (test : IperfTest) : IperfTest :=
  { watchListener fd test with protListener := fd, state := .createStreams }

/-- A new listening socket besides that for control connections, or in its place. -/
theorem awaitStreams_live (h : Holds table test)
    (hfd : Watched table (max test.maxFd fd) fd) (hctrl : test.ctrlSck ≠ -1)
    (hempty : socketsOf test = ∅)
    (hlistener : test.listener ∈ insert fd test.readSet)
    (hudp : test.protocol = .udp → test.listener ≠ fd) :
    Live table (awaitStreams fd test) := by
  obtain ⟨hread, hsockets, hwrite⟩ := h.watchListener hfd
  have hnone : ∀ fd', fd' ∉ socketsOf test := by
    rw [hempty]
    exact Finset.notMem_empty
  exact ⟨⟨hread, hsockets, hwrite⟩, fun hfree => absurd hfree hctrl, fun _ =>
    ⟨hctrl, hlistener, Finset.mem_insert_self _ _, hnone _, hnone _, hudp⟩⟩

/-- The listener that a protocol adds is watched from then on; for TCP it may be the one that
is there already. -/
theorem protocolListen_live (io : ListenIo) (test : IperfTest) :
    kernel.Triple (Admitted · test) (protocolListen io test) fun r table =>
      ∀ fd ∈ r.1, Live table (awaitStreams fd r.2) := by
  unfold protocolListen
  split
  · refine Monitor.Triple.bind (netannounce_opens .stream io) fun fd => ?_
    refine Monitor.Triple.pure fun table h fd' hfd => ?_
    obtain ⟨before, hbefore, hallows, rfl⟩ := h fd' hfd
    refine awaitStreams_live (hbefore.toHolds.opened _ _) (watched_new hallows) hbefore.ctrlSck
      hbefore.empty (Finset.mem_insert_of_mem hbefore.listener) fun _ => ?_
    exact ne_of_isOpen hallows (hbefore.read _ hbefore.listener).isOpen
  · rename_i hprotocol
    have hudp : test.protocol ≠ .udp := fun h => hprotocol (beq_iff_eq.mpr h)
    unfold iperfTcpListen
    split
    · refine triple_closed (T := fun table => Holds table
        { test with readSet := test.readSet.erase test.listener } ∧ test.ctrlSck ≠ -1 ∧
          socketsOf test = ∅) (fun table h => ⟨h.unwatch (by rw [h.empty]; simp), h.ctrlSck,
            h.empty⟩) ?_
      dsimp only
      split
      · exact Monitor.Triple.pure fun _ _ _ h => nomatch h
      · rename_i fd _
        refine triple_opened ?_
        split
        · exact triple_closed (T := fun _ => True) (fun _ _ => trivial)
            (Monitor.Triple.pure fun _ _ _ h => nomatch h)
        · split
          · exact Monitor.Triple.pure fun _ _ _ h => nomatch h
          · refine Monitor.Triple.pure fun table h fd' hfd => ?_
            cases hfd
            obtain ⟨before, ⟨hholds, hctrl, hempty⟩, hallows, rfl⟩ := h
            exact awaitStreams_live ((hholds.opened .control fd).listen fd) (watched_new hallows)
              hctrl hempty (Finset.mem_insert_self _ _) fun h => absurd h hudp
    · refine Monitor.Triple.pure fun table h fd' hfd => ?_
      cases hfd
      exact awaitStreams_live h.toHolds ((h.read _ h.listener).mono (le_max_left _ _)) h.ctrlSck
        h.empty (Finset.mem_insert_self _ _) fun h => absurd h hudp

/-- `iperf_exchange_parameters` leaves a live server, whichever of its steps fails on the way.
-/
theorem exchange_live (platform : Platform) (io : AcceptInput) (s : ServerRun) :
    Ensures (Admitted · s.test) (iperfExchangeParameters platform io s) Live := by
  unfold iperfExchangeParameters
  split
  · exact ensures_failure
  · split
    · exact ensures_stop
    · rename_i test hparameters
      have hframe := getParameters_frame hparameters
      have hread := congrArg IperfTest.readSet hframe
      have hwrite := congrArg IperfTest.writeSet hframe
      have hmax := congrArg IperfTest.maxFd hframe
      have hlistener := congrArg IperfTest.listener hframe
      have hctrl := congrArg IperfTest.ctrlSck hframe
      have hstreams := congrArg socketsOf hframe
      have hsame : ∀ table, Admitted table s.test → Admitted table test := by
        rintro table ⟨⟨hr, hs, hw⟩, hc, he, hl⟩
        simp only [parameterFrame, socketsOf] at hread hwrite hmax hlistener hctrl hstreams
        refine ⟨⟨?_, ?_, ?_⟩, ?_, ?_, ?_⟩
        · rw [hread, hmax]
          exact hr
        · rw [hmax]
          unfold socketsOf at hs ⊢
          rw [hstreams]
          exact hs
        · unfold socketsOf at hw ⊢
          rw [hwrite, hstreams]
          exact hw
        · rw [hctrl]
          exact hc
        · unfold socketsOf at he ⊢
          rw [hstreams]
          exact he
        · rw [hlistener, hread]
          exact hl
      refine Monitor.Triple.bind (R := fun r table => ∀ fd ∈ r.1, Live table (awaitStreams fd r.2))
        (fun table h => protocolListen_live io.listen test table (hsame table h)) fun r => ?_
      split
      · exact ensures_failure
      · rename_i fd hfd
        exact ensures_pure fun table h => h fd hfd

/-- A client gets its place. -/
theorem Live.admit (h : Live table s.test) (hfree : s.test.ctrlSck = -1) {conn : Connection}
    (hallows : kernel.allows table (.opened .control conn.socket)) :
    Admitted (kernel.step table (.opened .control conn.socket)) (admitClient conn s).test := by
  obtain ⟨hempty, hlistener⟩ := h.free hfree
  obtain ⟨hread, hsockets, hwrite⟩ :=
    (h.toHolds.opened .control conn.socket).watchListener (watched_new hallows)
  have hctrl : conn.socket ≠ -1 := by
    have hnonneg := hallows.1
    omega
  exact ⟨⟨hread, hsockets, hwrite⟩, hctrl, hempty, Finset.mem_insert_of_mem hlistener⟩

/-- A descriptor that is opened beside them does not disturb the sets. -/
theorem Live.opened (h : Live table test) (kind : FdKind) (fd : ℤ) :
    Live (kernel.step table (.opened kind fd)) test :=
  ⟨h.toHolds.opened kind fd, h.free, h.creating⟩

/-- A descriptor that came and went. -/
theorem Live.passing (h : Live table test) (hallows : kernel.allows table (.opened kind fd)) :
    Live (kernel.step (kernel.step table (.opened kind fd)) (.closed fd)) test where
  read := fun fd' hfd => ((h.read fd' hfd).opened kind fd).closed
    (ne_of_isOpen hallows (h.read fd' hfd).isOpen)
  sockets := fun fd' hfd => ((h.sockets fd' hfd).opened kind fd).closed
    (ne_of_isOpen hallows (h.sockets fd' hfd).isOpen)
  write := h.write
  free := h.free
  creating := h.creating

/-- One that is opened and closed again leaves an ended test as it was. -/
theorem Ended.passing (h : Ended table test) (hallows : kernel.allows table (.opened kind fd)) :
    Ended (kernel.step (kernel.step table (.opened kind fd)) (.closed fd)) test where
  read := fun fd' hfd => ((h.read fd' hfd).opened kind fd).closed
    (ne_of_isOpen hallows (h.read fd' hfd).isOpen)
  write := fun fd' hfd => ((h.write fd' hfd).opened kind fd).closed
    (ne_of_isOpen hallows (h.write fd' hfd).isOpen)
  done := h.done
  ctrlSck := h.ctrlSck
  creating := h.creating
  running := h.running

/-- It leaves a test that is going on as it was. -/
theorem Ongoing.passing (h : Ongoing table test)
    (hallows : kernel.allows table (.opened kind fd)) :
    Ongoing (kernel.step (kernel.step table (.opened kind fd)) (.closed fd)) test := by
  cases h with
  | live h => exact .live (h.passing hallows)
  | ended h => exact .ended (h.passing hallows)

/-- `ACCESS_DENIED` and `close` for a connection that has just come. -/
theorem refuse_ongoing (conn : Connection) (s : ServerRun) (kind : FdKind) :
    Ensures (JustOpened (Ongoing · s.test) kind conn.socket) (refuse conn s) Ongoing := by
  unfold ServerLoop.refuse
  split
  · refine triple_closed (T := (Ongoing · s.test)) ?_ (ensures_pure fun _ h => h)
    rintro table ⟨before, hbefore, hallows, rfl⟩
    exact hbefore.passing hallows
  · exact ensures_stop
  · exact ensures_failure
  · exact ensures_failure

/-- `iperf_accept` keeps a test that is going on: what it opens it either keeps and watches or
closes again. -/
theorem accept_ongoing (platform : Platform) (io : AcceptInput) (conn : Connection)
    (s : ServerRun) :
    Ensures (Ongoing · s.test) (ServerLoop.iperfAccept platform io conn s) Ongoing := by
  unfold ServerLoop.iperfAccept
  refine triple_opened ?_
  split
  · rename_i hfree
    split
    · split
      · exact ensures_failure
      · have hadmitted : ∀ table, JustOpened (Ongoing · s.test) .control conn.socket table →
            Admitted table (admitClient conn s).test := by
          rintro table ⟨before, hbefore, hallows, rfl⟩
          cases hbefore with
          | live h => exact h.admit hfree hallows
          | ended h => exact absurd hfree h.ctrlSck
        refine Monitor.Triple.bind (R := fun r table => r.1 = true → Live table r.2.test)
          (fun table h => exchange_live platform io (admitClient conn s) table (hadmitted table h))
          fun r => ?_
        refine Monitor.Triple.pure fun table h hok => ?_
        rw [Bool.and_eq_true] at hok
        exact .live (h hok.1)
    · exact ensures_stop
    · exact ensures_failure
    · exact ensures_failure
  · exact refuse_ongoing conn s .control

/-- The sockets of the streams are closed and out of the sets, one after the other; the others
are watched as before. -/
theorem closeStreams_watches (s : ServerRun) :
    kernel.Triple (Watches · s.test) (closeStreams s) fun s' table =>
      Watches table s'.test ∧ s'.test = { s.test with
        readSet := s.test.readSet \ socketsOf s.test
        writeSet := s.test.writeSet \ socketsOf s.test } := by
  have hevents : s.test.streams.map (fun sp => FdEvent.closed sp.socket) =
      (s.test.streams.map (·.socket)).map .closed := (List.map_map).symm
  have hclosed : ∀ {table fd}, Watched table s.test.maxFd fd → fd ∉ socketsOf s.test →
      Watched (kernel.run table (s.test.streams.map fun sp => FdEvent.closed sp.socket))
        s.test.maxFd fd := by
    intro table fd h hnot
    rw [hevents]
    exact ⟨h.nonneg, h.isOpen.closes fun hmem => hnot (List.mem_toFinset.mpr hmem), h.le⟩
  unfold closeStreams
  refine Monitor.Triple.emits (R := fun table => Watches table { s.test with
    readSet := s.test.readSet \ socketsOf s.test
    writeSet := s.test.writeSet \ socketsOf s.test }) ?_
    (Monitor.Triple.pure fun _ h => ⟨h, rfl⟩)
  intro table h _
  refine ⟨?_, ?_⟩
  · intro fd hfd
    obtain ⟨hread, hnot⟩ := Finset.mem_sdiff.mp hfd
    exact hclosed (h.read fd hread) hnot
  · intro fd hfd
    obtain ⟨hwrite, hnot⟩ := Finset.mem_sdiff.mp hfd
    exact hclosed (h.write fd hwrite) hnot

/-- A test that is over for a client that is there. -/
structure Over (table : OpenTable) (test : IperfTest) : Prop extends Watches table test where
  done : test.done = true
  ctrlSck : test.ctrlSck ≠ -1

/-- The results of the peer change no descriptor. -/
theorem Over.results (h : Over table test) {j : CJson} {r : Bool × IperfTest}
    (hr : getResults j { test with state := .exchangeResults } = some r) : Over table r.2 := by
  have hkeeps := keepsSets_results hr
  have hread := congrArg SetsFrame.readSet hkeeps.frame
  have hmax := congrArg SetsFrame.maxFd hkeeps.frame
  have hctrl := congrArg SetsFrame.ctrlSck hkeeps.frame
  have hwrite := congrArg IperfTest.writeSet (ResultsFrame.getResults_frame hr).test
  have hdone := congrArg IperfTest.done (ResultsFrame.getResults_frame hr).test
  simp only [setsFrame, ResultsFrame.exchangeFrame] at hread hmax hctrl hwrite hdone
  refine ⟨⟨?_, ?_⟩, ?_, ?_⟩
  · rw [hread, hmax]
    exact h.read
  · rw [hwrite, hmax]
    exact h.write
  · rw [hdone]
    exact h.done
  · rw [hctrl]
    exact h.ctrlSck

/-- After `TEST_END` and the exchange of the results the test has ended. -/
theorem resultsOfEnd_ended (input : ServerMessage) (s : ServerRun) :
    Ensures (Over · s.test) (resultsOfEnd input s) Ended := by
  unfold resultsOfEnd
  split
  · exact ensures_failure
  · split
    · exact ensures_stop
    · exact ensures_failure
    · rename_i test hresults
      refine ensures_pure fun table h => ?_
      have hover : Over table test := by
        unfold ServerLoop.iperfExchangeResults at hresults
        split at hresults
        · cases hresults
        · obtain ⟨r, hr, heq⟩ := Option.map_eq_some_iff.mp hresults
          have htest : r.2 = test := congrArg Prod.snd heq
          rw [← htest]
          exact h.results hr
      exact ⟨⟨hover.read, hover.write⟩, hover.done, hover.ctrlSck, (nomatch ·), (nomatch ·)⟩

/-- The handler of `TEST_END`. -/
theorem testEnd_ended (platform : Platform) (env : ℕ → CallbackInput) (input : ServerMessage)
    (s : ServerRun) :
    Ensures (fun table => Watches table s.test ∧ s.test.ctrlSck ≠ -1)
      (testEnd platform env input s) Ended := by
  unfold testEnd
  refine Monitor.Triple.bind (R := fun s' table => Over table s'.test) ?_ fun s' => ?_
  · rintro table ⟨h, hctrl⟩ hallows s' hs'
    have hwatches : Watches table ((s.withTest { s.test with
        state := .testEnd
        done := true
        cpuUtil := input.cpuUtil }).stats platform env).test := ⟨h.read, h.write⟩
    obtain ⟨hclosed, heq⟩ := closeStreams_watches _ table hwatches hallows s' hs'
    refine ⟨hclosed, ?_, ?_⟩
    · rw [heq]
      rfl
    · rw [heq]
      exact hctrl
  · exact resultsOfEnd_ended input (s'.report env)

/-- `iperf_handle_message_server`. -/
theorem message_steady (platform : Platform) (env : ℕ → CallbackInput) (input : ServerMessage)
    (s : ServerRun) (hctrl : s.test.ctrlSck ≠ -1) :
    Ensures (Ongoing · s.test) (iperfHandleMessageServer platform env input s) Steady := by
  unfold iperfHandleMessageServer
  split
  · exact ensures_failure
  · exact ensures_pure fun _ _ => .finished rfl
  · refine ensures_pure fun table h => ?_
    cases h with
    | live h =>
      exact .ongoing (.live
        ⟨⟨h.read, h.sockets, h.write⟩, fun hfree => absurd hfree hctrl, (nomatch ·)⟩)
    | ended h =>
      exact .ongoing (.ended ⟨⟨h.read, h.write⟩, h.done, h.ctrlSck, (nomatch ·), (nomatch ·)⟩)
  · intro table h hallows r hr hok
    exact .ongoing (.ended
      (testEnd_ended platform env input s table ⟨h.watches, hctrl⟩ hallows r hr hok))
  · exact ensures_pure fun _ _ => .finished rfl
  · exact Monitor.Triple.bind (R := fun _ _ => True) (fun _ _ _ _ _ => trivial)
      fun _ => ensures_pure fun _ _ => .finished rfl
  · exact ensures_failure

/-- The stream is none of the listening sockets. -/
theorem Live.addStream (h : Live table test) (hstate : test.state = .createStreams)
    (hfd : Watched table (max test.maxFd fd) fd) (hlistener : test.listener ≠ fd)
    (hprot : test.protListener ≠ fd) {sp : IperfStream} (hsp : sp.socket = fd) :
    Live table (watchSocket fd (iperfAddStream sp test)) := by
  have hcreating := h.creating hstate
  have hread : ∀ fd' ∈ test.readSet, fd' ∈ (watchSocket fd (iperfAddStream sp test)).readSet := by
    intro fd' hfd'
    dsimp only [watchSocket, iperfAddStream]
    split
    · exact hfd'
    · exact Finset.mem_insert_of_mem hfd'
  refine ⟨h.toHolds.addStream hfd hsp, fun hfree => absurd hfree hcreating.ctrlSck, fun _ => ?_⟩
  refine ⟨hcreating.ctrlSck, hread _ hcreating.listener, hread _ hcreating.protListener, ?_, ?_,
    hcreating.udp⟩
  · rw [socketsOf_added hsp, Finset.mem_insert, not_or]
    exact ⟨hlistener, hcreating.listener_apart⟩
  · rw [socketsOf_added hsp, Finset.mem_insert, not_or]
    exact ⟨hprot, hcreating.protListener_apart⟩

/-- A server whose next stream is there. -/
structure Arrived (fd : ℤ) (table : OpenTable) (test : IperfTest) : Prop
    extends Live table test where
  state : test.state = .createStreams
  stream : Watched table (max test.maxFd fd) fd
  listener_ne : test.listener ≠ fd
  protListener_ne : test.protListener ≠ fd

/-- A connection that has arrived stays so while others are opened. -/
theorem Arrived.opens {events : List FdEvent} (h : Arrived fd table test)
    (hopens : ∀ e ∈ events, ∃ kind fd', e = .opened kind fd') :
    Arrived fd (kernel.run table events) test := by
  induction events generalizing table with
  | nil => exact h
  | cons e rest ih =>
    obtain ⟨kind, fd', rfl⟩ := hopens e List.mem_cons_self
    refine ih ⟨h.toLive.opened kind fd', h.state, h.stream.opened kind fd', h.listener_ne,
      h.protListener_ne⟩ fun e' he' => hopens e' (List.mem_cons_of_mem _ he')

/-- A connection that is admitted is watched from then on. -/
theorem admitStream_live (io : NewStreamIo) (fd : ℤ) (s : ServerRun) :
    Ensures (Arrived fd · s.test) (ServerLoop.admitStream io fd s) Live := by
  unfold ServerLoop.admitStream
  cases hnew : iperfNewStream s.test io fd with
  | mk made events =>
    cases made with
    | none => exact Monitor.Triple.emits (R := fun _ => True) (fun _ _ _ => trivial) ensures_failure
    | some sp =>
      refine Monitor.Triple.emits (R := (Arrived fd · s.test))
        (fun table h _ => h.opens (newStream_opens hnew)) (ensures_pure fun table h => ?_)
      exact h.toLive.addStream h.state h.stream h.listener_ne h.protListener_ne
        (iperfNewStream_socket (congrArg Prod.fst hnew))

/-- `iperf_tcp_accept`. -/
theorem tcpAccept_ongoing (conn : Connection) (s : ServerRun)
    (hstate : s.test.state = .createStreams) :
    Ensures (Live · s.test) (ServerLoop.iperfTcpAccept conn s) Ongoing := by
  unfold ServerLoop.iperfTcpAccept
  refine triple_opened ?_
  split
  · split
    · exact ensures_stop
    · rintro table ⟨before, hbefore, hnew⟩
      exact refuse_ongoing conn s .stream table ⟨before, .live hbefore, hnew⟩
    · rintro table ⟨before, h, hallows, rfl⟩ hafter r hr hok
      have hcreating := h.creating hstate
      have harrived :
          Arrived conn.socket (kernel.step before (.opened .stream conn.socket)) s.test :=
        ⟨h.opened _ _, hstate, watched_new hallows,
          ne_of_isOpen hallows (h.read _ hcreating.listener).isOpen,
          ne_of_isOpen hallows (h.read _ hcreating.protListener).isOpen⟩
      exact .live (admitStream_live conn.newStream conn.socket s _ harrived hafter r hr hok)
  · exact ensures_stop
  · exact ensures_failure
  · exact ensures_failure

/-- Another listening socket for streams, in front of which the one before becomes a stream. -/
theorem Live.replace (h : Live table s.test) (hstate : s.test.state = .createStreams)
    (hudp : s.test.protocol = .udp) (hallows : kernel.allows table (.opened kind fd)) :
    Arrived s.test.protListener (kernel.step table (.opened kind fd))
      { watchListener fd s.test with protListener := fd } := by
  have hcreating := h.creating hstate
  have hfresh : ∀ fd' ∈ s.test.readSet, fd' ≠ fd :=
    fun fd' hfd' => ne_of_isOpen hallows (h.read fd' hfd').isOpen
  obtain ⟨hread, hsockets, hwrite⟩ := (h.toHolds.opened kind fd).watchListener (watched_new hallows)
  have hprot := (h.read _ hcreating.protListener).opened kind fd
  refine ⟨⟨⟨hread, hsockets, hwrite⟩, fun hfree => absurd hfree hcreating.ctrlSck, fun _ => ?_⟩,
    hstate, (hprot.mono (le_max_left _ _)).mono (le_max_left _ _), hcreating.udp hudp,
    (hfresh _ hcreating.protListener).symm⟩
  refine ⟨hcreating.ctrlSck, Finset.mem_insert_of_mem hcreating.listener,
    Finset.mem_insert_self _ _, hcreating.listener_apart, ?_,
    fun _ => hfresh _ hcreating.listener⟩
  intro hsocket
  exact ne_of_isOpen hallows (h.sockets fd hsocket).isOpen rfl

/-- `iperf_udp_accept`. -/
theorem udpAccept_live (io : DatagramInput) (s : ServerRun) (hstate : s.test.state = .createStreams)
    (hudp : s.test.protocol = .udp) :
    Ensures (Live · s.test) (ServerLoop.iperfUdpAccept io s) Live := by
  unfold ServerLoop.iperfUdpAccept
  split
  · exact ensures_failure
  · refine Monitor.Triple.bind (netannounce_opens .stream io.announce) fun fd => ?_
    split
    · exact ensures_failure
    · rename_i fd
      dsimp only
      split
      · exact ensures_failure
      · intro table h hafter r hr hok
        obtain ⟨before, hbefore, hallows, rfl⟩ := h fd rfl
        exact admitStream_live io.newStream s.test.protListener _ _
          (hbefore.replace hstate hudp hallows) hafter r hr hok

/-- A stream arrives, or is turned away. -/
theorem acceptStream_ongoing (input : ServerTurn) (s : ServerRun)
    (hstate : s.test.state = .createStreams) :
    Ensures (Live · s.test) (acceptStream input s) Ongoing := by
  unfold acceptStream
  split
  · rename_i hprotocol
    intro table h hafter r hr hok
    exact .live (udpAccept_live input.datagram s hstate (beq_iff_eq.mp hprotocol) table h hafter
      r hr hok)
  · split
    · exact ensures_failure
    · exact tcpAccept_ongoing _ s hstate

/-- A server that has all its streams. -/
structure Settled (table : OpenTable) (test : IperfTest) : Prop extends Holds table test where
  ctrlSck : test.ctrlSck ≠ -1

/-- The listening sockets when all streams are there: the one for streams is closed and taken
out of the set, and a new one for control connections is opened if none is left. -/
theorem settle_settled (io : ListenIo) (s : ServerRun) (hstate : s.test.state = .createStreams) :
    Ensures (Live · s.test) (settleListeners io s) Settled := by
  unfold settleListeners
  split
  · refine triple_closed (T := (Settled · { s.test with
      readSet := s.test.readSet.erase s.test.protListener })) ?_
      (ensures_pure fun table h => ⟨⟨h.read, h.sockets, h.write⟩, h.ctrlSck⟩)
    intro table h
    have hcreating := h.creating hstate
    exact ⟨h.toHolds.unwatch hcreating.protListener_apart, hcreating.ctrlSck⟩
  · split
    · refine triple_closed (T := (Settled · { s.test with
        readSet := s.test.readSet.erase s.test.listener })) ?_ ?_
      · intro table h
        have hcreating := h.creating hstate
        exact ⟨h.toHolds.unwatch hcreating.listener_apart, hcreating.ctrlSck⟩
      · refine Monitor.Triple.bind (netannounce_opens .control io) fun fd => ?_
        dsimp only
        split
        · exact ensures_failure
        · rename_i fd
          refine ensures_pure fun table h => ?_
          obtain ⟨before, hbefore, hallows, rfl⟩ := h fd rfl
          have hwatched := (hbefore.toHolds.opened .control fd).watchListener (watched_new hallows)
          exact ⟨⟨hwatched.read, hwatched.sockets, hwatched.write⟩, hbefore.ctrlSck⟩
    · refine ensures_pure fun table h => ?_
      exact ⟨⟨h.read, h.sockets, h.write⟩, (h.creating hstate).ctrlSck⟩

/-- The start of a test keeps the sets. -/
theorem startTest_keeps (input : StartInput) (q : TimerLists ClientProc) (test : IperfTest) :
    KeepsSets test (ServerLoop.startTest input q test).2.2 := by
  cases hclock : input.initClock with
  | none =>
    unfold ServerLoop.startTest
    rw [hclock]
    exact KeepsSets.refl test
  | some now =>
    exact (keepsSets_init now test).trans (keepsSets_sets (startTest_sets hclock q test))

/-- A started test is running. -/
theorem beginTest_live {input : ServerTurn} (h : Settled table s.test)
    (hok : (beginTest input s).1 = true) : Live table (beginTest input s).2.test := by
  unfold beginTest at hok ⊢
  dsimp only at hok ⊢
  split
  · rename_i hsend
    rw [if_pos hsend] at hok
    cases hok
  · rename_i hsend
    rw [if_neg hsend] at hok
    have hkeeps := startTest_keeps input.start s.timed.1 { s.test with state := .testStart }
    split
    · rename_i hfailed
      rw [if_pos hfailed] at hok
      cases hok
    · have hstart : Holds table { s.test with state := .testStart } := ⟨h.read, h.sockets, h.write⟩
      have hafter := hstart.keeps hkeeps
      have hctrl := congrArg SetsFrame.ctrlSck hkeeps.frame
      refine ⟨⟨hafter.read, hafter.sockets, hafter.write⟩, ?_, (nomatch ·)⟩
      intro hfree
      exact absurd (hctrl.symm.trans hfree) h.ctrlSck

/-- A part of a turn: the copy of the read set has descriptors only. -/
def PartEnsures (P : OpenTable → Prop) (x : Part) (Q : OpenTable → IperfTest → Prop) : Prop :=
  kernel.Triple P x fun r table => r.1 = true → (∀ fd ∈ r.2.1, 0 ≤ fd) ∧ Q table r.2.2.test

/-- A routine whose server the next part gets with a smaller copy. -/
theorem Ensures.part {x : Routine} (h : Ensures P x Q) {readSet : Finset ℤ}
    (hcopy : ∀ fd ∈ readSet, 0 ≤ fd) (drop : ServerRun → ℤ) :
    PartEnsures P (do
      let r ← x
      pure (r.1, readSet.erase (drop r.2), r.2)) Q := by
  refine Monitor.Triple.bind h fun r => Monitor.Triple.pure fun table hr hok => ⟨?_, hr hok⟩
  exact fun fd hfd => hcopy fd (Finset.mem_of_mem_erase hfd)

/-- A part without events ensures what holds of its result. -/
theorem PartEnsures.pure {readSet : Finset ℤ} {ok : Bool} (hcopy : ∀ fd ∈ readSet, 0 ≤ fd)
    (h : ∀ table, P table → Q table s.test) : PartEnsures P (pure (ok, readSet, s)) Q :=
  Monitor.Triple.pure fun table hP _ => ⟨hcopy, h table hP⟩

/-- The next part takes over where one has succeeded. -/
theorem PartEnsures.andThen {R : OpenTable → IperfTest → Prop} {x : Part}
    {next : Finset ℤ → ServerRun → Part} (h : PartEnsures P x R)
    (hnext : ∀ (readSet : Finset ℤ) s, (∀ fd ∈ readSet, 0 ≤ fd) →
      PartEnsures (R · s.test) (next readSet s) Q) : PartEnsures P (x.andThen next) Q := by
  refine Monitor.Triple.bind h fun r => ?_
  by_cases hok : r.1 = true
  · rw [if_pos hok]
    intro table hr
    obtain ⟨hcopy, hafter⟩ := hr hok
    exact hnext r.2.1 r.2.2 hcopy table hafter
  · rw [if_neg hok]
    exact Monitor.Triple.pure fun _ _ h => absurd h hok

/-- A ready listening socket. -/
theorem listenerPart_ensures (platform : Platform) (input : ServerTurn) {readSet : Finset ℤ}
    (hcopy : ∀ fd ∈ readSet, 0 ≤ fd) (s : ServerRun) :
    PartEnsures (Ongoing · s.test) (listenerPart platform input readSet s) Ongoing := by
  unfold listenerPart
  split
  · split
    · exact Monitor.Triple.pure fun _ _ h => nomatch h
    · rename_i conn _
      exact (accept_ongoing platform input.accept conn s).part hcopy (·.test.listener)
  · exact PartEnsures.pure hcopy fun _ h => h

/-- A ready control socket. -/
theorem controlPart_ensures (platform : Platform) (env : ℕ → CallbackInput) (input : ServerTurn)
    {readSet : Finset ℤ} (hcopy : ∀ fd ∈ readSet, 0 ≤ fd) (s : ServerRun) :
    PartEnsures (Ongoing · s.test) (controlPart platform env input readSet s) Steady := by
  unfold controlPart
  split
  · rename_i hready
    have hctrl : s.test.ctrlSck ≠ -1 := by
      have hnonneg := hcopy _ hready
      omega
    exact (message_steady platform env input.message s hctrl).part hcopy (·.test.ctrlSck)
  · exact PartEnsures.pure hcopy fun _ h => .ongoing h

/-- A server that creates streams has not closed any. -/
theorem Steady.creating (h : Steady table test) (hstate : test.state = .createStreams) :
    Live table test := by
  cases h with
  | ongoing h =>
    cases h with
    | live h => exact h
    | ended h => exact absurd hstate h.creating
  | finished h =>
    rw [h] at hstate
    cases hstate

/-- A ready socket for streams. -/
theorem streamPart_ensures (input : ServerTurn) {readSet : Finset ℤ}
    (hcopy : ∀ fd ∈ readSet, 0 ≤ fd) (s : ServerRun) :
    PartEnsures (Steady · s.test) (streamPart input readSet s) Steady := by
  unfold streamPart
  split
  · rename_i hready
    have haccept : Ensures (Steady · s.test) (acceptStream input s) Steady :=
      fun table h hallows r hr hok => .ongoing
        (acceptStream_ongoing input s hready.1 table (h.creating hready.1) hallows r hr hok)
    exact haccept.part hcopy (·.test.protListener)
  · exact PartEnsures.pure hcopy fun _ h => h

/-- The start of the test. -/
theorem startPart_ensures (input : ServerTurn) {readSet : Finset ℤ}
    (hcopy : ∀ fd ∈ readSet, 0 ≤ fd) (s : ServerRun) :
    PartEnsures (Steady · s.test) (startPart input readSet s) Steady := by
  unfold startPart
  split
  · rename_i hready
    have hsettle : Ensures (Steady · s.test) (settleListeners input.restart s) Settled :=
      fun table h => settle_settled input.restart s hready.1 table (h.creating hready.1)
    refine Monitor.Triple.bind hsettle fun r => ?_
    split
    · rename_i hok
      refine Monitor.Triple.pure fun table hr hbegin => ⟨hcopy, .ongoing (.live ?_)⟩
      exact beginTest_live (hr hok) hbegin
    · rename_i hfailed
      exact Monitor.Triple.pure fun _ _ h => absurd h hfailed
  · exact PartEnsures.pure hcopy fun _ h => h

/-- A running test has not closed its streams. -/
theorem Steady.running (h : Steady table test) (hstate : test.state = .testRunning)
    (hkeeps : KeepsSets test test') : Steady table test' := by
  cases h with
  | ongoing h =>
    cases h with
    | live h => exact .ongoing (.live (h.keeps hkeeps))
    | ended h => exact absurd hstate h.running
  | finished h =>
    rw [h] at hstate
    cases hstate

/-- The transfer. -/
theorem transferPart_ensures (round : RoundInput) {readSet : Finset ℤ}
    (hcopy : ∀ fd ∈ readSet, 0 ≤ fd) (s : ServerRun) :
    PartEnsures (Steady · s.test) (transferPart round readSet s) Steady := by
  unfold transferPart
  split
  · rename_i hstate
    split
    · exact PartEnsures.pure hcopy fun _ h => h.running hstate (keepsSets_send _ _ _)
    · exact PartEnsures.pure hcopy fun _ h => h.running hstate (keepsSets_recv _ _ _)
  · exact PartEnsures.pure hcopy fun _ h => h

/-- Everything about ready descriptors. -/
theorem selectedPart_ensures (platform : Platform) (env : ℕ → CallbackInput) (input : ServerTurn)
    (s : ServerRun) :
    PartEnsures (Ongoing · s.test) (selectedPart platform env input s) Steady := by
  suffices hparts : (∀ fd ∈ s.test.readSet ∩ input.round.readSet, 0 ≤ fd) →
      PartEnsures (Ongoing · s.test) (selectedPart platform env input s) Steady from
    fun table h => hparts (fun fd hfd =>
      (h.watches.read fd (Finset.mem_inter.mp hfd).1).nonneg) table h
  intro hcopy
  unfold selectedPart
  refine PartEnsures.andThen ?_ fun _ s hcopy => transferPart_ensures _ hcopy s
  exact (((listenerPart_ensures platform input hcopy s).andThen
    fun _ s hcopy => controlPart_ensures platform env input hcopy s).andThen
    fun _ s hcopy => streamPart_ensures input hcopy s).andThen
    fun _ s hcopy => startPart_ensures input hcopy s

/-- The timers at the end of a turn. -/
theorem timersPart_steady (platform : Platform) (env : ℕ → CallbackInput) (input : ServerTurn)
    (s : ServerRun) : Ensures (Steady · s.test) (timersPart platform env input s) Steady := by
  unfold timersPart
  split
  · split
    · exact ensures_stop
    · rename_i timed hrun
      exact ensures_pure fun table h => h.timers (timersKeep_run hrun)
  · exact ensures_pure fun _ h => h

/-- One turn of the loop. -/
theorem serverTurn_steady (platform : Platform) (env : ℕ → CallbackInput) (input : ServerTurn)
    (s : ServerRun) : Ensures (Ongoing · s.test) (serverTurn platform env input s) Steady := by
  unfold serverTurn
  split
  · refine Monitor.Triple.bind (selectedPart_ensures platform env input s) fun r => ?_
    split
    · rename_i hok
      intro table hr
      exact timersPart_steady platform env input r.2.2 table (hr hok).2
    · exact ensures_failure
  · exact fun table h => timersPart_steady platform env input s table (.ongoing h)

/-- Any number of turns. -/
theorem serverTurns_steady (platform : Platform) (env : ℕ → CallbackInput)
    (inputs : List ServerTurn) (s : ServerRun) :
    Ensures (Steady · s.test) (serverTurns platform env inputs s) Steady := by
  induction inputs generalizing s with
  | nil => exact ensures_pure fun _ h => h
  | cons input rest ih =>
    rw [serverTurns]
    split
    · exact ensures_pure fun _ h => h
    · rename_i hstate
      refine Monitor.Triple.bind (R := fun r table => r.1 = true → Steady table r.2.test)
        (fun table h => serverTurn_steady platform env input s table (h.of_state hstate))
        fun r => ?_
      split
      · rename_i hok
        exact fun table hr => ih r.2 table (hr hok)
      · rename_i hfailed
        exact Monitor.Triple.pure fun _ _ h => absurd h hfailed

/-- A server in front of `iperf_run_server`. -/
structure Unserved (test : IperfTest) : Prop where
  streams : test.streams = []
  ctrlSck : test.ctrlSck = -1

/-- The whole of a server: from a socket that listens over any number of turns to a state in
which the sets are what `select` may be asked about. -/
theorem runServer_steady (platform : Platform) (env : ℕ → CallbackInput) (io : ListenIo)
    (inputs : List ServerTurn) {s : ServerRun} (hunserved : Unserved s.test) :
    Ensures (fun _ => True) (iperfRunServer platform env io inputs s) Steady := by
  unfold iperfRunServer
  refine Monitor.Triple.bind (R := fun r table => r.1 = true →
    Steady table { r.2.test with state := .iperfStart }) ?_ fun r => ?_
  · unfold iperfServerListen
    refine Monitor.Triple.bind (netannounce_opens .control io) fun fd => ?_
    split
    · exact Monitor.Triple.pure fun _ _ h => nomatch h
    · rename_i fd
      refine Monitor.Triple.pure fun table h _ => .ongoing (.live ?_)
      obtain ⟨before, -, hallows, rfl⟩ := h fd rfl
      have hempty : ∀ test : IperfTest, test.streams = s.test.streams → socketsOf test = ∅ := by
        intro test htest
        unfold socketsOf
        rw [htest, hunserved.streams]
        rfl
      refine ⟨⟨?_, ?_, ?_⟩, fun _ => ⟨hempty _ rfl, Finset.mem_singleton_self fd⟩, (nomatch ·)⟩
      · intro fd' hfd'
        rw [Finset.mem_singleton.mp hfd']
        exact watched_new hallows
      · intro fd' hfd'
        have hnone : fd' ∈ (∅ : Finset ℤ) := (hempty _ rfl) ▸ hfd'
        exact absurd hnone (Finset.notMem_empty _)
      · exact Finset.empty_subset _
  · split
    · rename_i hok
      exact fun table hr => serverTurns_steady platform env inputs _ table (hr hok)
    · rename_i hfailed
      exact Monitor.Triple.pure fun _ _ h => absurd h hfailed

end IperfRuntime.ServerSets
