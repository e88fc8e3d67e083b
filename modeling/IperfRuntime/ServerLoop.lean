import IperfRuntime.ClientLoop
import IperfRuntime.EventTrace
import IperfRuntime.ServerAccept

/-!
# The loop of a server

`iperf_run_server` from `iperf_server_listen` on, with the descriptors that it opens and
closes. The timers of a server do what those of a client do, and its test lives in the
same world. A turn that does not come back, in a system call or in `strdup`, has no
value. What `cleanup_server` closes behind the loop is left out.
-/

namespace IperfRuntime.ServerLoop

open ClockReading JsonTree TimerQueue TestState StreamTraffic IntervalStats StreamCreation
  TestParameters ResultsExchange SocketIo ServerAccept ClientTimers ClientRun ClientLoop EventTrace

/-- A server in its loop. -/
structure ServerRun where
  /-- The timers, the test and what the callbacks have done. -/
  timed : Client
  cookie : List UInt8
  streamsAccepted : ℤ
  cookie_length : cookie.length = cookieSize

/-- The test of a server. -/
def ServerRun.test (s : ServerRun) : IperfTest := s.timed.2.test

/-- A server with another test. -/
def ServerRun.withTest (s : ServerRun) (test : IperfTest) : ServerRun :=
  { s with timed := Client.withTest s.timed test }

/-- Changing the test of a run gives it that test. -/
@[simp] theorem ServerRun.test_withTest (s : ServerRun) (test : IperfTest) :
    (s.withTest test).test = test := rfl

/-- It leaves the log as it is. -/
@[simp] theorem ServerRun.executions_withTest (s : ServerRun) (test : IperfTest) :
    (s.withTest test).timed.2.executions = s.timed.2.executions := rfl

/-- A routine of the loop: whether it returns zero, and the server. -/
abbrev Routine := Traced FdEvent (Bool × ServerRun)

/-- The calls that make a listening socket; those that the protocol does not ask for are
not made. -/
structure ListenIo where
  /-- `getaddrinfo` and `socket`. -/
  socket : Option ℤ
  /-- The options and `bind`. -/
  setup : Bool
  listen : Bool

/-- `netannounce`. -/
def netannounce (kind : FdKind) (io : ListenIo) : Traced FdEvent (Option ℤ) :=
  match io.socket with
  | none => pure none
  | some fd => do
    .emits [.opened kind fd]
    if io.setup && io.listen then pure (some fd)
    else do
      .emits [.closed fd]
      pure none

/-- A watched socket for reading. -/
def watchListener (fd : ℤ) (test : IperfTest) : IperfTest :=
  { test with readSet := insert fd test.readSet, maxFd := max test.maxFd fd }

/-- Whether the parameters ask for a listening socket of their own. -/
def recreatesListener (test : IperfTest) : Bool :=
  test.noDelay || test.settings.mss != 0 || test.settings.socketBufsize != 0

/-- `iperf_tcp_listen`. -/
def iperfTcpListen (io : ListenIo) (test : IperfTest) : Traced FdEvent (Option ℤ × IperfTest) :=
  if recreatesListener test then do
    .emits [.closed test.listener]
    let test := { test with readSet := test.readSet.erase test.listener }
    match io.socket with
    | none => pure (none, test)
    | some fd => do
      .emits [.opened .control fd]
      if !io.setup then do
        .emits [.closed fd]
        pure (none, test)
      else if !io.listen then pure (none, test)
      else pure (some fd, { test with listener := fd })
  else pure (some test.listener, test)

/-- `test->protocol->listen`. -/
def protocolListen (io : ListenIo) (test : IperfTest) : Traced FdEvent (Option ℤ × IperfTest) :=
  if test.protocol == .udp then do
    let fd ← netannounce .stream io
    pure (fd, test)
  else iperfTcpListen io test

/-- The calls of `iperf_accept` behind `accept`. -/
structure AcceptInput where
  /-- The write of `PARAM_EXCHANGE`. -/
  sendExchange : Bool
  /-- `JSON_read`. -/
  message : Option CJson
  listen : ListenIo
  /-- The write of `CREATE_STREAMS`. -/
  sendCreate : Bool
  setAffinity : Bool

/-- `iperf_exchange_parameters` on a server. -/
def iperfExchangeParameters (platform : Platform) (io : AcceptInput) (s : ServerRun) : Routine :=
  match io.message with
  | none => pure (false, s)
  | some j =>
    match getParameters platform j s.test with
    | none => .stop
    | some test => do
      let r ← protocolListen io.listen test
      match r.1 with
      | none => pure (false, s.withTest { r.2 with state := .serverError })
      | some fd => pure (io.sendCreate, s.withTest { watchListener fd r.2 with
          protListener := fd
          state := .createStreams })

/-- `ACCESS_DENIED` and `close`. -/
def refuse (conn : Connection) (s : ServerRun) : Routine :=
  match (nwrite conn.writes 1).outcome with
  | .returned => do
    .emits [.closed conn.socket]
    pure (true, s)
  | .blocked => .stop
  | .softError => pure (false, s)
  | .hardError => pure (false, s)

/-- The server behind a new control connection. -/
def admitClient (conn : Connection) (s : ServerRun) : ServerRun :=
  { s.withTest { watchListener conn.socket s.test with
      ctrlSck := conn.socket
      state := .paramExchange } with
    cookie := fillCookie (nread conn.reads cookieSize conn.sent) s.cookie
    cookie_length := length_fillCookie s.cookie_length }

/-- `iperf_accept`. -/
def iperfAccept (platform : Platform) (io : AcceptInput) (conn : Connection) (s : ServerRun) :
    Routine := do
  .emits [.opened .control conn.socket]
  if s.test.ctrlSck = -1 then
    match (nread conn.reads cookieSize conn.sent).outcome with
    | .returned =>
      if !io.sendExchange then pure (false, admitClient conn s)
      else do
        let r ← iperfExchangeParameters platform io (admitClient conn s)
        pure (r.1 && (r.2.test.serverAffinity == -1 || io.setAffinity), r.2)
    | .blocked => .stop
    | .softError => pure (false, s.withTest { s.test with ctrlSck := conn.socket })
    | .hardError => pure (false, s.withTest { s.test with ctrlSck := conn.socket })
  else refuse conn s

/-- The streams' sockets. -/
def socketsOf (test : IperfTest) : Finset ℤ := (test.streams.map (·.socket)).toFinset

/-- The loop that closes the sockets of the streams. -/
def closeStreams (s : ServerRun) : Traced FdEvent ServerRun := do
  .emits (s.test.streams.map fun sp => .closed sp.socket)
  pure (s.withTest { s.test with
    readSet := s.test.readSet \ socketsOf s.test
    writeSet := s.test.writeSet \ socketsOf s.test })

/-- What `Nread` makes of a control byte. -/
inductive ControlRead where
  | byte (state : StateByte)
  | closed
  | failed

/-- A readable control socket with what the handler gets from the system. -/
structure ServerMessage where
  read : ControlRead
  cpuUtil : ℚ × ℚ × ℚ
  /-- The write of `EXCHANGE_RESULTS`. -/
  sendExchange : Bool
  /-- The message of the client, if `JSON_read` delivers one. -/
  peer : Option CJson
  /-- Whether the results can be written. -/
  sendResults : Bool
  /-- The write of `DISPLAY_RESULTS`. -/
  sendDisplay : Bool

/-- `iperf_exchange_results` on a server, which reads first. -/
def iperfExchangeResults (input : ServerMessage) (test : IperfTest) : Option (Bool × IperfTest) :=
  match input.peer with
  | none => some (false, test)
  | some j => (getResults j test).map fun r => (r.1 && input.sendResults, r.2)

/-- A server whose test reports. -/
def ServerRun.report (env : ℕ → CallbackInput) (s : ServerRun) : ServerRun :=
  { s with timed := (s.timed.1, runReport env s.timed.2) }

/-- A server whose test takes its statistics. -/
def ServerRun.stats (platform : Platform) (env : ℕ → CallbackInput) (s : ServerRun) : ServerRun :=
  { s with timed := (s.timed.1, runStats platform env s.timed.2) }

/-- The results behind the report of `TEST_END`. -/
def resultsOfEnd (input : ServerMessage) (s : ServerRun) : Routine :=
  if !input.sendExchange then pure (false, s.withTest { s.test with state := .exchangeResults })
  else
    match iperfExchangeResults input { s.test with state := .exchangeResults } with
    | none => .stop
    | some (false, test) => pure (false, s.withTest test)
    | some (true, test) =>
      pure (input.sendDisplay, s.withTest { test with state := .displayResults })

/-- The handler of `TEST_END`. -/
def testEnd (platform : Platform) (env : ℕ → CallbackInput) (input : ServerMessage)
    (s : ServerRun) : Routine := do
  let s ← closeStreams ((s.withTest { s.test with
    state := .testEnd
    done := true
    cpuUtil := input.cpuUtil }).stats platform env)
  resultsOfEnd input (s.report env)

/-- The handler of `CLIENT_TERMINATE`, which reports in a borrowed state. -/
def clientTerminate (env : ℕ → CallbackInput) (input : ServerMessage) (s : ServerRun) :
    Routine := do
  let s ← closeStreams ((s.withTest { s.test with
    cpuUtil := input.cpuUtil
    state := .displayResults }).report env)
  pure (true, s.withTest { s.test with state := .iperfDone })

/-- `iperf_handle_message_server`. -/
def iperfHandleMessageServer (platform : Platform) (env : ℕ → CallbackInput)
    (input : ServerMessage) (s : ServerRun) : Routine :=
  match input.read with
  | .failed => pure (false, s)
  | .closed => pure (true, s.withTest { s.test with state := .iperfDone })
  | .byte .testStart => pure (true, s.withTest { s.test with state := .testStart })
  | .byte .testEnd => testEnd platform env input s
  | .byte .iperfDone => pure (true, s.withTest { s.test with state := .iperfDone })
  | .byte .clientTerminate => clientTerminate env input s
  | .byte state => pure (false, s.withTest { s.test with state := state })

/-- The part of the loop about a socket that `accept` of the protocol returned. -/
def admitStream (io : NewStreamIo) (fd : ℤ) (s : ServerRun) : Routine := do
  let r := iperfNewStream s.test io fd
  .emits r.2
  match r.1 with
  | none => pure (false, s)
  | some sp => pure (true, { s.withTest (watchSocket fd (iperfAddStream sp s.test)) with
      streamsAccepted := s.streamsAccepted + 1 })

/-- `iperf_tcp_accept` with the code around it; `is_closed` sees a refused socket. -/
def iperfTcpAccept (conn : Connection) (s : ServerRun) : Routine := do
  .emits [.opened .stream conn.socket]
  match (nread conn.reads cookieSize conn.sent).outcome with
  | .returned =>
    match strcmp s.cookie (fillCookie (nread conn.reads cookieSize conn.sent) conn.stack) with
    | none => .stop
    | some false => refuse conn s
    | some true => admitStream conn.newStream conn.socket s
  | .blocked => .stop
  | .softError => pure (false, s)
  | .hardError => pure (false, s)

/-- The calls of `iperf_udp_accept`. -/
structure DatagramInput where
  /-- `recvfrom`, `connect` and the options. -/
  arrival : Bool
  announce : ListenIo
  /-- The write of the reply. -/
  reply : Bool
  newStream : NewStreamIo

/-- `iperf_udp_accept` with the code around it: the listening socket becomes the stream. -/
def iperfUdpAccept (io : DatagramInput) (s : ServerRun) : Routine :=
  if !io.arrival then pure (false, s)
  else do
    let fd ← netannounce .stream io.announce
    match fd with
    | none => pure (false, s.withTest { s.test with protListener := -1 })
    | some fd =>
      let s' := s.withTest { watchListener fd s.test with protListener := fd }
      if !io.reply then pure (false, s')
      else admitStream io.newStream s.test.protListener s'

/-- `create_server_timers`. -/
def createServerTimers (input : StartInput) (q : TimerLists ClientProc) (test : IperfTest) :
    Attempt :=
  match input.timersClock with
  | none => (false, q, test)
  | some now =>
    (createStatsTimer (input.timersMalloc 0) now q
      { test with statsTimer := none, reporterTimer := none }).andThen
      (createReporterTimer (input.timersMalloc 1) now)

/-- What lies between the writes of `TEST_START` and of `TEST_RUNNING`;
`create_server_omit_timer` is the routine of the client. -/
def startTest (input : StartInput) (q : TimerLists ClientProc) (test : IperfTest) : Attempt :=
  match input.initClock with
  | none => (false, q, test)
  | some now =>
    ((createServerTimers input q (iperfInitTest now test)).andThen
      (createClientOmitTimer input)).andThen fun q test =>
        if test.reverse then iperfCreateSendTimers input q test else (true, q, test)

/-- The listening sockets when all streams are there. -/
def settleListeners (io : ListenIo) (s : ServerRun) : Routine :=
  if s.test.protocol ≠ .tcp then do
    .emits [.closed s.test.protListener]
    pure (true, s.withTest { s.test with
      readSet := s.test.readSet.erase s.test.protListener
      protListener := -1 })
  else if recreatesListener s.test then do
    .emits [.closed s.test.listener]
    let fd ← netannounce .control io
    let test := { s.test with readSet := s.test.readSet.erase s.test.listener }
    match fd with
    | none => pure (false, s.withTest test)
    | some fd => pure (true, s.withTest { watchListener fd test with
        listener := fd
        protListener := -1 })
  else pure (true, s.withTest { s.test with protListener := -1 })

/-- What one turn of the loop gets from the system. -/
structure ServerTurn where
  /-- Whether `select` finds a descriptor ready. -/
  selected : Bool
  /-- The ready descriptors, the calls of the transfer and the clock of `tmr_run`. -/
  round : RoundInput
  /-- The connection behind the listening socket, if `accept` delivers one. -/
  connection : Option Connection
  accept : AcceptInput
  message : ServerMessage
  datagram : DatagramInput
  restart : ListenIo
  /-- The write of `TEST_START`. -/
  sendStart : Bool
  start : StartInput
  /-- The write of `TEST_RUNNING`. -/
  sendRunning : Bool
  /-- Whether the timers run. -/
  timers : Bool

/-- The writes and routines that start the test. -/
def beginTest (input : ServerTurn) (s : ServerRun) : Bool × ServerRun :=
  let test := { s.test with state := .testStart }
  if !input.sendStart then (false, s.withTest test)
  else
    let r := startTest input.start s.timed.1 test
    let timed := (r.2.1, { s.timed.2 with test := r.2.2 })
    if !r.1 then (false, { s with timed := timed })
    else (input.sendRunning, { s with
      timed := Client.withTest timed { r.2.2 with state := .testRunning } })

/-- A routine of the turn, which knows the caller's copy of the read set: whether the turn
goes on, the copy, and the server. -/
abbrev Part := Traced FdEvent (Bool × Finset ℤ × ServerRun)

/-- The next part, unless the server has failed. -/
def Part.andThen (p : Part) (next : Finset ℤ → ServerRun → Part) : Part := do
  let r ← p
  if r.1 then next r.2.1 r.2.2 else pure r

/-- A ready listening socket. -/
def listenerPart (platform : Platform) (input : ServerTurn) (readSet : Finset ℤ) (s : ServerRun) :
    Part :=
  if s.test.listener ∈ readSet ∧ s.test.state ≠ .createStreams then
    match input.connection with
    | none => pure (false, readSet, s)
    | some conn => do
      let r ← iperfAccept platform input.accept conn s
      pure (r.1, readSet.erase r.2.test.listener, r.2)
  else pure (true, readSet, s)

/-- A ready control socket. -/
def controlPart (platform : Platform) (env : ℕ → CallbackInput) (input : ServerTurn)
    (readSet : Finset ℤ) (s : ServerRun) : Part :=
  if s.test.ctrlSck ∈ readSet then do
    let r ← iperfHandleMessageServer platform env input.message s
    pure (r.1, readSet.erase r.2.test.ctrlSck, r.2)
  else pure (true, readSet, s)

/-- `test->protocol->accept` with the code around it. -/
def acceptStream (input : ServerTurn) (s : ServerRun) : Routine :=
  if s.test.protocol == .udp then iperfUdpAccept input.datagram s
  else
    match input.connection with
    | none => pure (false, s)
    | some conn => iperfTcpAccept conn s

/-- A ready socket for streams, while they are created. -/
def streamPart (input : ServerTurn) (readSet : Finset ℤ) (s : ServerRun) : Part :=
  if s.test.state = .createStreams ∧ s.test.protListener ∈ readSet then do
    let r ← acceptStream input s
    pure (r.1, readSet.erase r.2.test.protListener, r.2)
  else pure (true, readSet, s)

/-- The start of the test, once all streams are there. -/
def startPart (input : ServerTurn) (readSet : Finset ℤ) (s : ServerRun) : Part :=
  if s.test.state = .createStreams ∧ s.streamsAccepted = s.test.numStreams then do
    let r ← settleListeners input.restart s
    if r.1 then
      let t := beginTest input r.2
      pure (t.1, readSet, t.2)
    else pure (r.1, readSet, r.2)
  else pure (true, readSet, s)

/-- The transfer, with the caller's copies of the descriptor sets. -/
def transferPart (round : RoundInput) (readSet : Finset ℤ) (s : ServerRun) : Part :=
  if s.test.state = .testRunning then
    if s.test.reverse then
      let r := iperfSend round.send (some round.writeSet) s.test
      pure (decide (0 ≤ r.rc), readSet, s.withTest r.test)
    else
      let r := iperfRecv round.recv readSet s.test
      pure (decide (0 ≤ r.1), readSet, s.withTest r.2.1)
  else pure (true, readSet, s)

/-- The part of a turn about ready descriptors; `select` leaves some of those it was
given. -/
def selectedPart (platform : Platform) (env : ℕ → CallbackInput) (input : ServerTurn)
    (s : ServerRun) : Part :=
  let round := { input.round with writeSet := s.test.writeSet ∩ input.round.writeSet }
  ((((listenerPart platform input (s.test.readSet ∩ input.round.readSet) s).andThen
    (controlPart platform env input)).andThen (streamPart input)).andThen
    (startPart input)).andThen (transferPart round)

/-- The timers at the end of a turn. -/
def timersPart (platform : Platform) (env : ℕ → CallbackInput) (input : ServerTurn)
    (s : ServerRun) : Routine :=
  if input.timers then
    match tmrRun (callClient platform env) input.round.now input.round.fuel s.timed with
    | none => .stop
    | some timed => pure (true, { s with timed := timed })
  else pure (true, s)

/-- One turn of the loop. -/
def serverTurn (platform : Platform) (env : ℕ → CallbackInput) (input : ServerTurn)
    (s : ServerRun) : Routine :=
  if input.selected then do
    let r ← selectedPart platform env input s
    if r.1 then timersPart platform env input r.2.2 else pure (false, r.2.2)
  else timersPart platform env input s

/-- The loop of `iperf_run_server` for the given turns, or until it returns; the server
stands in front of `select` unless it has failed or is done. -/
def serverTurns (platform : Platform) (env : ℕ → CallbackInput) :
    List ServerTurn → ServerRun → Routine
  | [], s => pure (true, s)
  | input :: rest, s =>
    if s.test.state = .iperfDone then pure (true, s)
    else do
      let r ← serverTurn platform env input s
      if r.1 then serverTurns platform env rest r.2 else pure r

/-- `iperf_server_listen`. -/
def iperfServerListen (io : ListenIo) (s : ServerRun) : Routine := do
  let fd ← netannounce .control io
  match fd with
  | none => pure (false, s.withTest { s.test with listener := -1 })
  | some fd => pure (true, s.withTest { s.test with
      listener := fd
      readSet := {fd}
      writeSet := ∅
      maxFd := max s.test.maxFd fd })

/-- `iperf_run_server` from `iperf_server_listen` on. -/
def iperfRunServer (platform : Platform) (env : ℕ → CallbackInput) (io : ListenIo)
    (inputs : List ServerTurn) (s : ServerRun) : Routine := do
  let r ← iperfServerListen io s
  if r.1 then
    serverTurns platform env inputs
      { r.2.withTest { r.2.test with state := .iperfStart } with streamsAccepted := 0 }
  else pure r

/-- Behind `iperf_init_test` the start of a test sets nothing else than timers, on each of its
ways out. -/
theorem startTest_sets {input : StartInput} {now : Timeval} (hclock : input.initClock = some now)
    (q : TimerLists ClientProc) (test : IperfTest) :
    SetsTimers (iperfInitTest now test) (startTest input q test) := by
  have htimers : ∀ q test, SetsTimers test (createServerTimers input q test) := by
    intro q test
    unfold createServerTimers
    split
    · rfl
    · rename_i now' _
      have hstats : SetsTimers test (createStatsTimer (input.timersMalloc 0) now' q
          { test with statsTimer := none, reporterTimer := none }) := by
        unfold createStatsTimer
        split
        · rfl
        · rfl
      refine hstats.andThen fun q test => ?_
      unfold createReporterTimer
      split
      · rfl
      · rfl
  unfold startTest
  rw [hclock]
  refine ((htimers q _).andThen (createClientOmitTimer_sets input)).andThen ?_
  intro q test
  split
  · exact createSendTimers_sets input q test
  · rfl

/-- What every turn keeps, the loop keeps. -/
theorem serverTurns_invariant {platform : Platform} {env : ℕ → CallbackInput}
    (I : ServerRun → Prop)
    (hturn : ∀ input s, I s → (serverTurn platform env input s).Returns fun r => I r.2)
    (inputs : List ServerTurn) {s : ServerRun} (h : I s) :
    (serverTurns platform env inputs s).Returns fun r => I r.2 := by
  induction inputs generalizing s with
  | nil => exact Traced.Returns.pure h
  | cons input rest ih =>
    rw [serverTurns]
    split
    · exact Traced.Returns.pure h
    · refine (hturn input s h).bind fun r hr => ?_
      split
      · exact ih hr
      · exact Traced.Returns.pure hr

/-- A test with what `get_parameters` assigns blanked out. -/
def parameterFrame (test : IperfTest) : IperfTest :=
  { test with
    protocol := .tcp
    omitSeconds := 0
    duration := 0
    serverAffinity := 0
    title := none
    congestion := none
    settings := {}
    noDelay := false
    numStreams := 0
    reverse := false
    sender := false
    senderHasRetransmits := 0
    getServerOutput := false
    udpCounters64bit := false
    noFqSocketPacing := false }

/-- Setting the protocol keeps the other parameters. -/
theorem setProtocol_frame (platform : Platform) (protocol : ProtocolId) (test : IperfTest) :
    parameterFrame (setProtocol platform protocol test) = parameterFrame test := by
  unfold setProtocol
  split
  · rw [checkSenderHasRetransmits_eq]
    rfl
  · rfl

/-- So does setting the direction. -/
theorem setReverse_frame (platform : Platform) (reverse : Bool) (test : IperfTest) :
    parameterFrame (iperfSetTestReverse platform reverse test) = parameterFrame test := by
  unfold iperfSetTestReverse
  rw [checkSenderHasRetransmits_eq]
  rfl

/-- So does assigning a text that is none of them. -/
theorem onText_frame {j : CJson} {key : String} {assign : String → IperfTest → IperfTest}
    {test test' : IperfTest}
    (hassign : ∀ text, parameterFrame (assign text test) = parameterFrame test)
    (h : onText j key assign test = some test') : parameterFrame test' = parameterFrame test := by
  rcases onText_some h with ⟨-, rfl⟩ | ⟨item, text, -, -, rfl⟩
  · rfl
  · exact hassign text

/-- A message of parameters leaves the rest of a test alone: descriptors, streams and timers
are outside what it assigns. -/
theorem getParameters_frame {platform : Platform} {j : CJson} {test test' : IperfTest}
    (h : getParameters platform j test = some test') :
    parameterFrame test' = parameterFrame test := by
  have hproto : parameterFrame (getProtocol platform j test) = parameterFrame test := by
    unfold getProtocol
    refine Eq.trans (onItem_keeps parameterFrame fun _ => setProtocol_frame _ _ _) ?_
    refine Eq.trans (onItem_keeps parameterFrame fun _ => setProtocol_frame _ _ _) ?_
    exact onItem_keeps parameterFrame fun _ => setProtocol_frame _ _ _
  have hnumbers : ∀ t, parameterFrame (getNumbers platform j t) = parameterFrame t := by
    intro t
    unfold getNumbers
    iterate 6 refine Eq.trans (onItem_keeps parameterFrame fun _ => rfl) ?_
    refine Eq.trans (onItem_keeps parameterFrame fun _ => setReverse_frame _ _ _) ?_
    iterate 7 refine Eq.trans (onItem_keeps parameterFrame fun _ => rfl) ?_
    exact onItem_keeps parameterFrame fun _ => rfl
  have hflags : ∀ t, parameterFrame (getFlags platform j t) = parameterFrame t := by
    intro t
    have hsome : ∀ (ok : Bool) (t : IperfTest), parameterFrame
        (if ok then { t with senderHasRetransmits := 1 } else t) = parameterFrame t := by
      intro ok t
      cases ok with
      | false => rfl
      | true => rfl
    refine Eq.trans (hsome _ _) ?_
    iterate 2 refine Eq.trans (onItem_keeps parameterFrame fun _ => rfl) ?_
    exact onItem_keeps parameterFrame fun _ => rfl
  obtain ⟨t₁, htitle, h⟩ := Option.bind_eq_some_iff.mp h
  obtain ⟨t₂, hcongestion, rfl⟩ := Option.map_eq_some_iff.mp h
  rw [hflags, onText_frame (fun _ => rfl) hcongestion, onText_frame (fun _ => rfl) htitle,
    hnumbers, hproto]

end IperfRuntime.ServerLoop
