import IperfRuntime.ListLoop
import IperfRuntime.PrintfText
import IperfRuntime.TestParameters

/-!
# Stream traffic

`iperf_send` and `iperf_recv` with the protocol routines behind them and the throttle of
`iperf_check_throttle`. What the system calls return is an input, one record for each
possible call. `iperf_send` also lists what it did to the streams, in order. Buffers are
only as long as they need to be counted; their contents are left to other modules.
-/

namespace IperfRuntime.StreamTraffic

open ClockReading TestState TestParameters PrintfText ListLoop

/-- `NET_SOFTERROR`. -/
def netSofterror : ℤ := -1

/-- What the calls behind `sp->snd` return. -/
structure SndIo where
  /-- `read` on the `-F` file. -/
  fileRead : ℤ
  /-- `Nwrite` or `Nsendfile` on the socket. -/
  written : ℤ

/-- What the calls behind `sp->rcv` return, with the header of a datagram. -/
structure RcvIo where
  /-- `Nread`. -/
  received : ℤ
  /-- The sender's clock reading in the datagram. -/
  sentTime : Timeval
  /-- The counter in the datagram. -/
  pcount : ℕ
  /-- The clock when the datagram is taken. -/
  arrivalTime : Timeval

/-- Bytes added to the counters of a sender. -/
def addSent (r : ℤ) (sp : IperfStream) : IperfStream :=
  { sp with result := { sp.result with
    bytesSent := sp.result.bytesSent + r.toNat
    bytesSentThisInterval := sp.result.bytesSentThisInterval + r.toNat } }

/-- Bytes added to the counters of a receiver. -/
def addReceived (r : ℤ) (sp : IperfStream) : IperfStream :=
  { sp with result := { sp.result with
    bytesReceived := sp.result.bytesReceived + r.toNat
    bytesReceivedThisInterval := sp.result.bytesReceivedThisInterval + r.toNat } }

/-- `iperf_tcp_send`. -/
def iperfTcpSend (r : ℤ) (sp : IperfStream) : ℤ × IperfStream :=
  if r < 0 then (r, sp) else (r, addSent r sp)

/-- `iperf_tcp_recv`. -/
def iperfTcpRecv (r : ℤ) (sp : IperfStream) : ℤ × IperfStream :=
  if r < 0 then (r, sp) else (r, addReceived r sp)

/-- `iperf_udp_send`: the datagram is numbered before it is written. -/
def iperfUdpSend (r : ℤ) (sp : IperfStream) : ℤ × IperfStream :=
  let sp := { sp with packetCount := toInt (sp.packetCount + 1) }
  if r < 0 then (r, sp) else (r, addSent r sp)

/-- The loss accounting of `iperf_udp_recv`, in the mixed widths of the source. -/
def countDatagram (pcount : ℕ) (sp : IperfStream) : IperfStream :=
  if toUint64 (toInt (sp.packetCount + 1)) ≤ pcount then
    { sp with
      cntError :=
        if toUint64 (toInt (sp.packetCount + 1)) < pcount then
          toInt (sp.cntError + (pcount - 1 - sp.packetCount))
        else sp.cntError
      packetCount := toInt pcount }
  else { sp with outoforderPackets := toInt (sp.outoforderPackets + 1) }

/-- The jitter estimate of `iperf_udp_recv`. -/
def updateJitter (sentTime arrivalTime : Timeval) (sp : IperfStream) : IperfStream :=
  let transit := timevalDiff sentTime arrivalTime
  { sp with
    prevTransit := transit
    jitter := sp.jitter + (|transit - sp.prevTransit| - sp.jitter) / 16 }

/-- `iperf_udp_recv`. -/
def iperfUdpRecv (io : RcvIo) (sp : IperfStream) : ℤ × IperfStream :=
  if io.received ≤ 0 then (io.received, sp)
  else
    (io.received,
      updateJitter io.sentTime io.arrivalTime
        (countDatagram io.pcount (addReceived io.received sp)))

/-- `test->protocol->send`. -/
def protocolSend (protocol : ProtocolId) (r : ℤ) (sp : IperfStream) : ℤ × IperfStream :=
  if protocol == .udp then iperfUdpSend r sp else iperfTcpSend r sp

/-- `test->protocol->recv`. -/
def protocolRecv (protocol : ProtocolId) (io : RcvIo) (sp : IperfStream) : ℤ × IperfStream :=
  if protocol == .udp then iperfUdpRecv io sp else iperfTcpRecv io.received sp

/-- `sp->snd`, which is `diskfile_send` with a `-F` file; the last component is
`test->done` afterwards. -/
def snd (test : IperfTest) (io : SndIo) (sp : IperfStream) : ℤ × IperfStream × Bool :=
  if test.diskfileName.isSome && io.fileRead == 0 then (0, sp, true)
  else
    ((protocolSend test.protocol io.written sp).1, (protocolSend test.protocol io.written sp).2,
      test.done)

/-- `sp->rcv`; what `diskfile_recv` does with the file changes no counter. -/
def rcv (test : IperfTest) (io : RcvIo) (sp : IperfStream) : ℤ × IperfStream :=
  protocolRecv test.protocol io sp

/-- The average rate that `iperf_check_throttle` computes; `convert` is the conversion of
a quotient by zero to an integer. -/
def bitsPerSecond (convert : Dbl → ℕ) (sp : IperfStream) (now : Timeval) : ℕ :=
  match ratio (sp.result.bytesSent * 8) (timevalDiff sp.result.startTimeFixed now) with
  | .finite q => ⌊q⌋₊
  | d => convert d

/-- `iperf_check_throttle`. -/
def iperfCheckThrottle (convert : Dbl → ℕ) (now : Timeval) (test : IperfTest)
    (sp : IperfStream) : IperfTest × IperfStream :=
  if test.done then (test, sp)
  else if bitsPerSecond convert sp now < test.settings.rate then
    ({ test with writeSet := insert sp.socket test.writeSet }, { sp with greenLight := true })
  else
    ({ test with writeSet := test.writeSet.erase sp.socket }, { sp with greenLight := false })

/-- What `iperf_send` does to a stream. -/
inductive SendEvent where
  /-- `sp->snd(sp)` on the stream as it is before the call. -/
  | snd (sp : IperfStream)
  /-- `iperf_check_throttle(sp, now)` on the stream as it is before the call. -/
  | check (sp : IperfStream) (now : Timeval)

/-- What `iperf_send` gets from the system. -/
structure SendEnv where
  /-- The calls of a round for the stream at an index. -/
  io : ℕ → ℕ → SndIo
  /-- The clock at the start of a round. -/
  clock : ℕ → Timeval
  /-- The clock behind the rounds. -/
  endClock : Timeval
  /-- The conversion of a quotient by zero to an integer. -/
  convert : Dbl → ℕ

/-- System calls of `iperf_send` each of which writes a thousand bytes. -/
def thousandBytes : SendEnv :=
  { io := fun _ _ => ⟨0, 1000⟩, clock := fun _ => {}, endClock := {}, convert := fun _ => 0 }

/-- The locals of `iperf_send` with the test, whose streams the loop holds. -/
structure SendState where
  test : IperfTest
  streamsActive : Bool := false
  failure : Option ℤ := none
  events : List SendEvent := []

/-- Whether the write set of the call lets a socket through. -/
def inWriteSet (writeSetP : Option (Finset ℤ)) (socket : ℤ) : Bool :=
  writeSetP.all fun set => decide (socket ∈ set)

/-- Whether the sending condition holds for a stream. -/
def maySend (test : IperfTest) (writeSetP : Option (Finset ℤ)) (sp : IperfStream) : Bool :=
  !test.noFqSocketPacing || (sp.greenLight && inWriteSet writeSetP sp.socket)

/-- The throttle check behind a transfer. -/
def checkAfterSend (env : SendEnv) (now : Timeval) (s : SendState) (sp : IperfStream) :
    SendState × IperfStream :=
  if s.test.settings.rate ≠ 0 ∧ s.test.settings.burst = 0 then
    ({ s with
      test := (iperfCheckThrottle env.convert now s.test sp).1
      events := s.events ++ [.check sp now] },
      (iperfCheckThrottle env.convert now s.test sp).2)
  else (s, sp)

/-- Whether the end conditions break off a call with further rounds to go. -/
def endReached (multisend : ℕ) (test : IperfTest) : Bool :=
  decide (1 < multisend) &&
    ((test.settings.bytes != 0 && decide (test.settings.bytes ≤ test.bytesSent)) ||
      (test.settings.blocks != 0 && decide (test.settings.blocks ≤ test.blocksSent)))

/-- The state after `sp->snd` returned a count. -/
def afterSnd (s : SendState) (sp : IperfStream) (r : ℤ) (done : Bool) : SendState :=
  { s with
    test := { s.test with
      bytesSent := s.test.bytesSent + r.toNat
      blocksSent := s.test.blocksSent + 1
      done := done }
    streamsActive := true
    events := s.events ++ [.snd sp] }

/-- One stream in one round of `iperf_send`. -/
def sendBody (env : SendEnv) (writeSetP : Option (Finset ℤ)) (round multisend : ℕ)
    (now : Timeval) : Body SendState IperfStream := fun i s sp =>
  if maySend s.test writeSetP sp then
    let r := snd s.test (env.io round i) sp
    if r.1 < 0 then
      ({ s with
        failure := if r.1 = netSofterror then none else some r.1
        events := s.events ++ [.snd sp] }, r.2.1, false)
    else
      let c := checkAfterSend env now (afterSnd s sp r.1 r.2.2) r.2.1
      (c.1, c.2, !endReached multisend c.1.test)
  else (s, sp, true)

/-- The rounds of `iperf_send`; `multisend` counts down to one. -/
def sendRounds (env : SendEnv) (writeSetP : Option (Finset ℤ)) :
    ℕ → ℕ → Timeval → SendState → List IperfStream → SendState × List IperfStream
  | 0, _, _, s, streams => (s, streams)
  | multisend + 1, round, now, s, streams =>
    let now :=
      if s.test.settings.rate ≠ 0 ∧ s.test.settings.burst = 0 then env.clock round else now
    let r := forEach (sendBody env writeSetP round (multisend + 1) now) 0
      { s with streamsActive := false } streams
    if r.1.failure.isSome || !r.1.streamsActive then r
    else sendRounds env writeSetP multisend (round + 1) now r.1 r.2

/-- One stream in the closing throttle loop of a burst. -/
def burstBody (env : SendEnv) : Body SendState IperfStream := fun _ s sp =>
  ({ s with
    test := (iperfCheckThrottle env.convert env.endClock s.test sp).1
    events := s.events ++ [.check sp env.endClock] },
    (iperfCheckThrottle env.convert env.endClock s.test sp).2, true)

/-- How often `iperf_send` goes round. -/
def multisendOf (test : IperfTest) : ℕ :=
  if test.settings.burst ≠ 0 then test.settings.burst.toNat
  else if test.settings.rate = 0 then test.multisend
  else 1

/-- The outcome of `iperf_send`. -/
structure SendResult where
  /-- The return value. -/
  rc : ℤ
  test : IperfTest
  /-- The caller's copy of the write set. -/
  writeSetP : Option (Finset ℤ)
  events : List SendEvent

/-- `iperf_send`. -/
def iperfSend (env : SendEnv) (writeSetP : Option (Finset ℤ)) (test : IperfTest) : SendResult :=
  let r := sendRounds env writeSetP (multisendOf test) 0 {} { test := test } test.streams
  match r.1.failure with
  | some rc => ⟨rc, { r.1.test with streams := r.2 }, writeSetP, r.1.events⟩
  | none =>
    let b := if test.settings.burst ≠ 0 then forEach (burstBody env) 0 r.1 r.2 else r
    ⟨0, { b.1.test with streams := b.2 },
      writeSetP.map fun set => set.filter fun fd => ∀ sp ∈ b.2, sp.socket ≠ fd, b.1.events⟩

/-- The state of the loop of `iperf_recv`. -/
structure RecvState where
  test : IperfTest
  readSetP : Finset ℤ
  failure : Option ℤ := none

/-- One stream of `iperf_recv`. -/
def recvBody (io : ℕ → RcvIo) : Body RecvState IperfStream := fun i s sp =>
  if sp.socket ∈ s.readSetP then
    let r := rcv s.test (io i) sp
    if r.1 < 0 then ({ s with failure := some r.1 }, r.2, false)
    else
      ({ s with
        test := { s.test with
          bytesSent := s.test.bytesSent + r.1.toNat
          blocksSent := s.test.blocksSent + 1 }
        readSetP := s.readSetP.erase sp.socket }, r.2, true)
  else (s, sp, true)

/-- `iperf_recv`: the return value, the test and the caller's copy of the read set. -/
def iperfRecv (io : ℕ → RcvIo) (readSetP : Finset ℤ) (test : IperfTest) :
    ℤ × IperfTest × Finset ℤ :=
  let r := forEach (recvBody io) 0 { test := test, readSetP := readSetP } test.streams
  (r.1.failure.getD 0, { r.1.test with streams := r.2 }, r.1.readSetP)

/-- What `sp->snd` comes to: the file is at its end, or the write behind `protocol->send` fails or
takes bytes, on a stream that may have numbered a datagram. -/
theorem snd_cases (test : IperfTest) (io : SndIo) (sp : IperfStream) :
    snd test io sp = (0, sp, true) ∨
      ∃ n, (n = sp.packetCount ∨ n = toInt (sp.packetCount + 1)) ∧
        (io.written < 0 ∧
            snd test io sp = (io.written, { sp with packetCount := n }, test.done) ∨
          0 ≤ io.written ∧ snd test io sp =
            (io.written, addSent io.written { sp with packetCount := n }, test.done)) := by
  unfold snd
  split
  · exact Or.inl rfl
  · right
    unfold protocolSend iperfUdpSend iperfTcpSend
    split
    · refine ⟨toInt (sp.packetCount + 1), Or.inr rfl, ?_⟩
      dsimp only
      split
      · rename_i hneg
        exact Or.inl ⟨hneg, rfl⟩
      · rename_i hneg
        exact Or.inr ⟨not_lt.mp hneg, rfl⟩
    · refine ⟨sp.packetCount, Or.inl rfl, ?_⟩
      split
      · rename_i hneg
        exact Or.inl ⟨hneg, rfl⟩
      · rename_i hneg
        exact Or.inr ⟨not_lt.mp hneg, rfl⟩

/-- What `sp->rcv` comes to: nothing was read, or the bytes are counted, with the header of a
datagram. -/
theorem rcv_cases (test : IperfTest) (io : RcvIo) (sp : IperfStream) :
    io.received ≤ 0 ∧ rcv test io sp = (io.received, sp) ∨
      rcv test io sp = (io.received, addReceived io.received sp) ∨
      rcv test io sp = (io.received, updateJitter io.sentTime io.arrivalTime
        (countDatagram io.pcount (addReceived io.received sp))) := by
  unfold rcv protocolRecv
  split
  · unfold iperfUdpRecv
    split
    · rename_i hnone
      exact Or.inl ⟨hnone, rfl⟩
    · exact Or.inr (Or.inr rfl)
  · unfold iperfTcpRecv
    split
    · rename_i hneg
      exact Or.inl ⟨hneg.le, rfl⟩
    · exact Or.inr (Or.inl rfl)

section Rules

variable {env : SendEnv} {writeSetP : Option (Finset ℤ)} {I : IperfTest → List IperfStream → Prop}

/-- What a stream keeps in a round, the rounds keep. -/
theorem sendRounds_keeps
    (hbody : ∀ round multisend now i (s : SendState) pre sp post, I s.test (pre ++ sp :: post) →
      I (sendBody env writeSetP round multisend now i s sp).1.test
        (pre ++ (sendBody env writeSetP round multisend now i s sp).2.1 :: post))
    (multisend round : ℕ) (now : Timeval) (s : SendState) (streams : List IperfStream)
    (h : I s.test streams) :
    I (sendRounds env writeSetP multisend round now s streams).1.test
      (sendRounds env writeSetP multisend round now s streams).2 := by
  induction multisend generalizing round now s streams with
  | zero => exact h
  | succ multisend ih =>
    unfold sendRounds
    dsimp only
    generalize (if s.test.settings.rate ≠ 0 ∧ s.test.settings.burst = 0 then env.clock round
      else now) = roundNow
    have hround := forEach_invariant (fun (s : SendState) streams => I s.test streams)
      (hbody round (multisend + 1) roundNow) 0 { s with streamsActive := false } streams h
    split
    · exact hround
    · exact ih (round + 1) roundNow _ _ hround

/-- What a stream keeps in a round and in the closing loop of a burst, `iperf_send` keeps. -/
theorem iperfSend_keeps
    (hbody : ∀ round multisend now i (s : SendState) pre sp post, I s.test (pre ++ sp :: post) →
      I (sendBody env writeSetP round multisend now i s sp).1.test
        (pre ++ (sendBody env writeSetP round multisend now i s sp).2.1 :: post))
    (hburst : ∀ i (s : SendState) pre sp post, I s.test (pre ++ sp :: post) →
      I (burstBody env i s sp).1.test (pre ++ (burstBody env i s sp).2.1 :: post))
    {test : IperfTest} (h : I test test.streams) :
    ∃ current streams, I current streams ∧
      (iperfSend env writeSetP test).test = { current with streams := streams } := by
  have hrounds := sendRounds_keeps hbody (multisendOf test) 0 {} { test := test } _ h
  unfold iperfSend
  dsimp only
  split
  · exact ⟨_, _, hrounds, rfl⟩
  · split
    · have hclosing := forEach_invariant (fun (s : SendState) streams => I s.test streams)
        hburst 0 _ _ hrounds
      exact ⟨_, _, hclosing, rfl⟩
    · exact ⟨_, _, hrounds, rfl⟩

/-- What a stream keeps, `iperf_recv` keeps. -/
theorem iperfRecv_keeps {io : ℕ → RcvIo}
    (hbody : ∀ i (s : RecvState) pre sp post, I s.test (pre ++ sp :: post) →
      I (recvBody io i s sp).1.test (pre ++ (recvBody io i s sp).2.1 :: post))
    {test : IperfTest} (h : I test test.streams) (readSetP : Finset ℤ) :
    ∃ current streams, I current streams ∧
      (iperfRecv io readSetP test).2.1 = { current with streams := streams } := by
  have hloop := forEach_invariant (fun (s : RecvState) streams => I s.test streams) hbody 0
    { test := test, readSetP := readSetP } _ h
  exact ⟨_, _, hloop, rfl⟩

end Rules

end IperfRuntime.StreamTraffic
