import IperfRuntime.TestState

/-!
# Creation of streams

`netdial`, `iperf_tcp_connect`, `iperf_udp_connect`, `iperf_new_stream` and
`iperf_create_streams`, with the descriptors they open and close. What a system call
returns is an input; a call that the settings do not ask for is not made. The
options of this build are those of `iperf_config.h`.
-/

namespace IperfRuntime.StreamCreation

open TestState

/-- What a descriptor was opened for. -/
inductive FdKind where
  | control
  | stream
  | buffer
  | diskfile
  deriving DecidableEq, Repr

/-- What happens to a descriptor. -/
inductive FdEvent where
  | opened (kind : FdKind) (fd : ℤ)
  | closed (fd : ℤ)
  deriving DecidableEq, Repr

/-- The calls of one `connect` routine. -/
structure ConnectIo where
  /-- Whether the names resolve. -/
  resolve : Bool
  /-- The new socket. -/
  socket : Option ℤ
  bind : Bool
  /-- Whether the options that are asked for can be set. -/
  options : Bool
  connect : Bool
  /-- The cookie of a TCP stream, or the datagram of a UDP stream with its reply. -/
  greeting : Bool

/-- Whether a local address is asked for and cannot be bound. -/
def bindFails (bindAddress : Option String) (io : ConnectIo) : Bool :=
  bindAddress.isSome && !io.bind

/-- `netdial`. -/
def netdial (kind : FdKind) (bindAddress : Option String) (io : ConnectIo) :
    Option ℤ × List FdEvent :=
  match io.resolve, io.socket with
  | true, some s =>
    if bindFails bindAddress io || !io.connect then (none, [.opened kind s, .closed s])
    else (some s, [.opened kind s])
  | _, _ => (none, [])

/-- `iperf_tcp_connect`, which closes its socket on every failure. -/
def iperfTcpConnect (test : IperfTest) (io : ConnectIo) : Option ℤ × List FdEvent :=
  match io.resolve, io.socket with
  | true, some s =>
    if bindFails test.bindAddress io || !io.options || !io.connect || !io.greeting then
      (none, [.opened .stream s, .closed s])
    else (some s, [.opened .stream s])
  | _, _ => (none, [])

/-- `iperf_udp_connect`, which leaves its socket open when it fails behind `netdial`. -/
def iperfUdpConnect (test : IperfTest) (io : ConnectIo) : Option ℤ × List FdEvent :=
  match netdial .stream test.bindAddress io with
  | (some s, events) => (if io.options && io.greeting then some s else none, events)
  | (none, events) => (none, events)

/-- `test->protocol->connect`. -/
def protocolConnect (test : IperfTest) (io : ConnectIo) : Option ℤ × List FdEvent :=
  if test.protocol == .udp then iperfUdpConnect test io else iperfTcpConnect test io

/-- The calls of `iperf_new_stream`. -/
structure NewStreamIo where
  /-- The two allocations. -/
  malloc : Bool
  /-- The buffer file of `mkstemp`. -/
  mkstemp : Option ℤ
  /-- `unlink`, `ftruncate` and `mmap`. -/
  mapBuffer : Bool
  /-- The `-F` file. -/
  openDiskfile : Option ℤ
  /-- `iperf_init_stream`. -/
  initStream : Bool

/-- `iperf_new_stream` up to `iperf_add_stream`. -/
def iperfNewStream (test : IperfTest) (io : NewStreamIo) (s : ℤ) :
    Option IperfStream × List FdEvent :=
  match io.malloc, io.mkstemp with
  | true, some fd =>
    let opened := [FdEvent.opened .buffer fd]
    if !io.mapBuffer then (none, opened)
    else if test.diskfileName.isSome then
      match io.openDiskfile with
      | none => (none, opened)
      | some file =>
        let opened := opened ++ [.opened .diskfile file]
        if io.initStream then (some { socket := s, bufferFd := fd, diskfileFd := file }, opened)
        else (none, opened ++ [.closed fd])
    else if io.initStream then (some { socket := s, bufferFd := fd, diskfileFd := -1 }, opened)
    else (none, opened ++ [.closed fd])
  | _, _ => (none, [])

/-- `iperf_add_stream`. -/
def iperfAddStream (sp : IperfStream) (test : IperfTest) : IperfTest :=
  { test with streams := test.streams ++
    [{ sp with id := if test.streams.isEmpty then 1 else test.streams.length + 2 }] }

/-- The calls behind one stream. -/
structure StreamIo where
  connect : ConnectIo
  newStream : NewStreamIo

/-- The descriptor sets with a new data socket. -/
def watchSocket (s : ℤ) (test : IperfTest) : IperfTest :=
  { test with
    writeSet := if test.sender then insert s test.writeSet else test.writeSet
    readSet := if test.sender then test.readSet else insert s test.readSet
    maxFd := max test.maxFd s }

/-- The loop of `iperf_create_streams` with the given number of rounds left. -/
def createStreamsFrom (io : ℕ → StreamIo) (origBindPort : ℤ) :
    ℕ → ℕ → IperfTest → Bool × IperfTest × List FdEvent
  | 0, _, test => (true, test, [])
  | n + 1, i, test =>
    let test := { test with
      bindPort := if origBindPort ≠ 0 then origBindPort + i else origBindPort }
    match protocolConnect test (io i).connect with
    | (none, events) => (false, test, events)
    | (some s, events) =>
      let test := watchSocket s test
      match iperfNewStream test (io i).newStream s with
      | (none, more) => (false, test, events ++ more)
      | (some sp, more) =>
        let r := createStreamsFrom io origBindPort n (i + 1) (iperfAddStream sp test)
        (r.1, r.2.1, events ++ more ++ r.2.2)

/-- `iperf_create_streams`: whether it returns zero, the test and what it did to
descriptors. -/
def iperfCreateStreams (io : ℕ → StreamIo) (test : IperfTest) : Bool × IperfTest × List FdEvent :=
  createStreamsFrom io test.bindPort test.numStreams.toNat 0 test

/-- A stream as `iperf_new_stream` leaves it. -/
structure FreshStream (sp : IperfStream) : Prop where
  result : sp.result = {}
  sendTimer : sp.sendTimer = none

/-- The stream that `iperf_new_stream` returns is fresh. -/
theorem iperfNewStream_fresh {test : IperfTest} {io : NewStreamIo} {s : ℤ} {sp : IperfStream}
    (h : (iperfNewStream test io s).1 = some sp) : FreshStream sp := by
  unfold iperfNewStream at h
  split at h
  · dsimp only at h
    split at h
    · cases h
    · split at h
      · split at h
        · cases h
        · split at h
          · cases h
            exact ⟨rfl, rfl⟩
          · cases h
      · split at h
        · cases h
          exact ⟨rfl, rfl⟩
        · cases h
  · cases h

/-- The test apart from its streams and what belongs to their sockets. -/
def creationFrame (test : IperfTest) : IperfTest :=
  { test with bindPort := 0, writeSet := ∅, readSet := ∅, maxFd := 0, streams := [] }

/-- New streams stand behind the old ones and are fresh; a complete loop adds one for
each round. -/
theorem createStreamsFrom_spec (io : ℕ → StreamIo) (origBindPort : ℤ) (n i : ℕ)
    (test : IperfTest) :
    creationFrame (createStreamsFrom io origBindPort n i test).2.1 = creationFrame test ∧
      ∃ added, (createStreamsFrom io origBindPort n i test).2.1.streams = test.streams ++ added ∧
        (∀ sp ∈ added, FreshStream sp) ∧
        ((createStreamsFrom io origBindPort n i test).1 = true → added.length = n) := by
  induction n generalizing i test with
  | zero => exact ⟨rfl, [], by simp [createStreamsFrom]⟩
  | succ n ih =>
    rw [createStreamsFrom]
    dsimp only
    split
    · exact ⟨rfl, [], by simp⟩
    · split
      · exact ⟨rfl, [], by simp [watchSocket]⟩
      · rename_i s events _ _ sp more hnew
        have hfresh : FreshStream sp := iperfNewStream_fresh (congrArg Prod.fst hnew)
        obtain ⟨hframe, added, hstreams, hall, hlength⟩ := ih (i + 1) (iperfAddStream sp
          (watchSocket s { test with
            bindPort := if origBindPort ≠ 0 then origBindPort + i else origBindPort }))
        refine ⟨hframe, { sp with
          id := if test.streams.isEmpty then 1 else test.streams.length + 2 } :: added, ?_, ?_, ?_⟩
        · rw [hstreams]
          simp [iperfAddStream, watchSocket]
        · intro sp' hsp'
          rcases List.mem_cons.mp hsp' with rfl | hsp'
          · exact ⟨hfresh.result, hfresh.sendTimer⟩
          · exact hall sp' hsp'
        · intro hdone
          rw [List.length_cons, hlength hdone]

end IperfRuntime.StreamCreation
