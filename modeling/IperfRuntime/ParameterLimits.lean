import IperfRuntime.ParameterExchange
import IperfRuntime.StreamCreation

/-!
# Limits on network parameters

The server's half of `iperf_exchange_parameters` and what it leaves of the limits
that the command line enforces. `get_parameters` copies every number into its field
and checks none of them, so the limits hold afterwards exactly when the message, or
the value in force where the message is silent, respects them. The numbers of a message
are those that fit `int64_t`: the conversion of a larger `double` is undefined in C and is
not modelled.
-/

namespace IperfRuntime.ParameterLimits

open JsonTree TestState TestParameters ParameterExchange StreamCreation EntryPoints

/-- The limits of the command line, on a test. -/
structure WithinLimits (test : IperfTest) : Prop where
  blksize_pos : 0 < test.settings.blksize
  blksize_le : test.settings.blksize ≤ maxBlocksize
  udp_blksize_le : test.protocol = .udp → test.settings.blksize ≤ maxUdpBlocksize
  streams : 1 ≤ test.numStreams ∧ test.numStreams ≤ maxStreams
  omitSeconds : 0 ≤ test.omitSeconds ∧ test.omitSeconds ≤ 60
  burst : 0 ≤ test.settings.burst ∧ test.settings.burst ≤ maxBurst
  tos : 0 ≤ test.settings.tos ∧ test.settings.tos ≤ 255
  mss : test.settings.mss ≤ maxMss
  socketBufsize : test.settings.socketBufsize ≤ maxTcpBuffer
  duration : test.duration ≤ maxTime

/-- The number a key brings, as the `int` it is stored in, or the value in force. -/
def intItem (j : CJson) (key : String) (start : ℤ) : ℤ := valueOr j key (toInt ·.valueint) start

/-- A message asks for UDP, or leaves a UDP test what it was. -/
def ChoosesUdp (j : CJson) (p : Parameters) : Prop :=
  Sends j "udp" ∨ ¬Sends j "tcp" ∧ p.protocol = .udp

/-- The limits on a message, for a server with the given parameters. -/
structure MessageWithinLimits (j : CJson) (p : Parameters) : Prop where
  len : 0 < intItem j "len" p.blksize ∧ intItem j "len" p.blksize ≤ maxBlocksize
  udpLen : ChoosesUdp j p → intItem j "len" p.blksize ≤ maxUdpBlocksize
  parallel : 1 ≤ intItem j "parallel" p.numStreams ∧ intItem j "parallel" p.numStreams ≤ maxStreams
  omitKey : 0 ≤ intItem j "omit" p.omitSeconds ∧ intItem j "omit" p.omitSeconds ≤ 60
  burst : 0 ≤ intItem j "burst" p.burst ∧ intItem j "burst" p.burst ≤ maxBurst
  tos : 0 ≤ intItem j "TOS" p.tos ∧ intItem j "TOS" p.tos ≤ 255
  mss : intItem j "MSS" p.mss ≤ maxMss
  window : intItem j "window" p.socketBufsize ≤ maxTcpBuffer
  time : intItem j "time" p.duration ≤ maxTime

/-- What the calls of the exchange deliver. -/
structure ExchangeIo where
  /-- `JSON_read`. -/
  message : Option CJson
  /-- The listening socket of the protocol, for the test it is opened for. -/
  listen : IperfTest → Option ℤ
  /-- The write of the state byte. -/
  sendState : Bool

/-- `iperf_exchange_parameters` on a server: whether it returns zero, and the test;
`none` is a crash in `get_parameters`. -/
def exchangeParametersServer (platform : Platform) (io : ExchangeIo) (test : IperfTest) :
    Option (Bool × IperfTest) :=
  match io.message with
  | none => some (false, test)
  | some j => (getParameters platform j test).map fun test =>
    match io.listen test with
    | none => (false, { test with state := .serverError })
    | some s => (io.sendState, { test with
        readSet := insert s test.readSet
        maxFd := if test.maxFd < s then s else test.maxFd
        protListener := s
        state := .createStreams })

/-- A server that goes on has the parameters of the message. -/
theorem exchangeParametersServer_spec {platform : Platform} {io : ExchangeIo} {j : CJson}
    {test test' : IperfTest} (hp : test.protocols = [.tcp, .udp]) (hj : io.message = some j)
    (h : exchangeParametersServer platform io test = some (true, test')) :
    parametersOf test' = readParameters j (parametersOf test) ∧ test'.state = .createStreams := by
  unfold exchangeParametersServer at h
  rw [hj] at h
  obtain ⟨read, hread, h⟩ := Option.map_eq_some_iff.mp h
  have hspec := getParameters_spec hp hread
  cases hl : io.listen read with
  | none =>
    rw [hl] at h
    have hfalse : false = true := congrArg Prod.fst h
    cases hfalse
  | some s =>
    rw [hl] at h
    have htest := congrArg Prod.snd h
    dsimp only at htest
    constructor
    · rw [← hspec, ← htest]
      rfl
    · rw [← htest]

/-- Which protocol a message leaves. -/
theorem readParameters_udp (j : CJson) (p : Parameters) :
    (readParameters j p).protocol = .udp ↔ ChoosesUdp j p := by
  unfold readParameters ChoosesUdp Sends valueOr
  cases hudp : getObjectItem j "udp" with
  | some item => simp
  | none =>
    cases htcp : getObjectItem j "tcp" with
    | some item => simp
    | none => simp

/-- The limits on a test are limits on its parameters, and these come from the message or,
where it is silent, from what was there before. -/
theorem withinLimits_of_parameters {test : IperfTest} {j : CJson} {p : Parameters}
    (h : parametersOf test = readParameters j p) :
    WithinLimits test ↔ MessageWithinLimits j p := by
  have hlen : test.settings.blksize = intItem j "len" p.blksize := congrArg Parameters.blksize h
  have hprotocol : test.protocol = .udp ↔ ChoosesUdp j p := by
    have hread : test.protocol = (readParameters j p).protocol := congrArg Parameters.protocol h
    rw [hread, readParameters_udp]
  have hparallel : test.numStreams = intItem j "parallel" p.numStreams :=
    congrArg Parameters.numStreams h
  have homit : test.omitSeconds = intItem j "omit" p.omitSeconds :=
    congrArg Parameters.omitSeconds h
  have hburst : test.settings.burst = intItem j "burst" p.burst := congrArg Parameters.burst h
  have htos : test.settings.tos = intItem j "TOS" p.tos := congrArg Parameters.tos h
  have hmss : test.settings.mss = intItem j "MSS" p.mss := congrArg Parameters.mss h
  have hwindow : test.settings.socketBufsize = intItem j "window" p.socketBufsize :=
    congrArg Parameters.socketBufsize h
  have htime : test.duration = intItem j "time" p.duration := congrArg Parameters.duration h
  constructor
  · intro hw
    refine ⟨⟨?_, ?_⟩, ?_, ?_, ?_, ?_, ?_, ?_, ?_, ?_⟩
    · rw [← hlen]
      exact hw.blksize_pos
    · rw [← hlen]
      exact hw.blksize_le
    · rw [← hprotocol, ← hlen]
      exact hw.udp_blksize_le
    · rw [← hparallel]
      exact hw.streams
    · rw [← homit]
      exact hw.omitSeconds
    · rw [← hburst]
      exact hw.burst
    · rw [← htos]
      exact hw.tos
    · rw [← hmss]
      exact hw.mss
    · rw [← hwindow]
      exact hw.socketBufsize
    · rw [← htime]
      exact hw.duration
  · intro hm
    refine ⟨?_, ?_, ?_, ?_, ?_, ?_, ?_, ?_, ?_, ?_⟩
    · rw [hlen]
      exact hm.len.1
    · rw [hlen]
      exact hm.len.2
    · rw [hprotocol, hlen]
      exact hm.udpLen
    · rw [hparallel]
      exact hm.parallel
    · rw [homit]
      exact hm.omitKey
    · rw [hburst]
      exact hm.burst
    · rw [htos]
      exact hm.tos
    · rw [hmss]
      exact hm.mss
    · rw [hwindow]
      exact hm.window
    · rw [htime]
      exact hm.time

/-- A server that goes on to create streams is within the limits exactly when the
message kept to them. -/
theorem networkParameters_within_iff {platform : Platform} {io : ExchangeIo} {j : CJson}
    {test test' : IperfTest} (hp : test.protocols = [.tcp, .udp]) (hj : io.message = some j)
    (h : exchangeParametersServer platform io test = some (true, test')) :
    WithinLimits test' ↔ MessageWithinLimits j (parametersOf test) := by
  have hspec := exchangeParametersServer_spec hp hj h
  have hparameters : parametersOf test' = readParameters j (parametersOf test) := hspec.1
  exact withinLimits_of_parameters hparameters

/-- A platform with the newest headers. -/
def plainPlatform : Platform := ⟨true, true, fun h => h⟩

/-- The message `{"tcp": true, "omit": 0, "time": 10, "parallel": 1, "len": 4194304}`. -/
def oversizedMessage : CJson :=
  .object [("tcp", .true), ("omit", createNumber 0), ("time", createNumber 10),
    ("parallel", createNumber 1), ("len", createNumber 4194304)]

/-- A run of the calls on which nothing fails. -/
def plainExchange (j : CJson) : ExchangeIo := ⟨some j, fun _ => some 5, true⟩

/-- The calls of `iperf_new_stream` on which nothing fails. -/
def plainNewStream : NewStreamIo := ⟨true, some 7, true, none, true⟩

/-- The server of that message goes on, and its first stream gets a buffer of four
megabytes. -/
theorem oversizedMessage_goes_on :
    ∃ test', exchangeParametersServer plainPlatform (plainExchange oversizedMessage)
        (freshServer plainPlatform) = some (true, test') ∧
      test'.state = .createStreams ∧ (iperfNewStream test' plainNewStream 6).1.isSome = true ∧
      test'.settings.blksize = 4194304 ∧ ¬WithinLimits test' := by
  refine ⟨_, rfl, rfl, rfl, rfl, ?_⟩
  intro h
  exact absurd h.blksize_le (by decide)

/-- A message within the limits. -/
def ordinaryMessage : CJson :=
  .object [("tcp", .true), ("omit", createNumber 0), ("time", createNumber 10),
    ("parallel", createNumber 4), ("len", createNumber 131072)]

/-- An ordinary message is accepted, and its parameters are within the limits. -/
theorem ordinaryMessage_within :
    ∃ test', exchangeParametersServer plainPlatform (plainExchange ordinaryMessage)
        (freshServer plainPlatform) = some (true, test') ∧
      (WithinLimits test' ↔
        MessageWithinLimits ordinaryMessage (parametersOf (freshServer plainPlatform))) :=
  ⟨_, rfl, @networkParameters_within_iff plainPlatform (plainExchange ordinaryMessage) _ _ _
    rfl rfl rfl⟩

end IperfRuntime.ParameterLimits
