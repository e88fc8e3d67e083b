import IperfRuntime.TrafficFrame
import IperfRuntime.TurnRounds

/-!
# The limits of a call of `iperf_send`

The end conditions `-n` and `-k` inside one call. `iperf_send` looks at them behind every
block while further rounds are to come, and a limit that is reached ends the round only: the
next one starts with another block. What the receiver gets of the blocks is not part of
these counts.
-/

namespace IperfRuntime.SendLimits

open ClockReading TestState ListLoop StreamTraffic TrafficFrame TurnRounds

/-- What the end conditions look at. -/
structure Counters where
  bytes : ℕ
  blocks : ℕ
  deriving DecidableEq

/-- A block more. -/
def Counters.advance (c : Counters) (r : ℕ) : Counters := ⟨c.bytes + r, c.blocks + 1⟩

def countersOf (test : IperfTest) : Counters := ⟨test.bytesSent, test.blocksSent⟩

/-- The limits of `-n` and `-k`. -/
inductive Limit where
  | bytes
  | blocks
  deriving DecidableEq

def Limit.other : Limit → Limit
  | .bytes => .blocks
  | .blocks => .bytes

/-- Whether the counters have come to a limit. -/
def Limit.reached (settings : IperfSettings) : Limit → Counters → Bool
  | .bytes, c => decide (settings.bytes ≤ c.bytes)
  | .blocks, c => decide (settings.blocks ≤ c.blocks)

/-- Whether a limit is set and reached. -/
def Limit.stops (settings : IperfSettings) : Limit → Counters → Bool
  | .bytes, c => settings.bytes != 0 && Limit.bytes.reached settings c
  | .blocks, c => settings.blocks != 0 && Limit.blocks.reached settings c

/-- A call of `sp->snd` in `iperf_send`: the round, the position of the stream, and what it sees. -/
structure SendAttempt where
  round : ℕ
  position : ℕ
  test : IperfTest
  stream : IperfStream

/-- The attempt of a visit in the loop over the streams, if the stream may send. -/
def attemptOf (writeSetP : Option (Finset ℤ)) (round : ℕ) (v : ℕ × SendState × IperfStream) :
    Option SendAttempt :=
  if maySend v.2.1.test writeSetP v.2.2 then some ⟨round, v.1, v.2.1.test, v.2.2⟩ else none

/-- The attempts of a loop over the streams. -/
def loopAttempts (env : SendEnv) (writeSetP : Option (Finset ℤ)) (round multisend : ℕ)
    (now : Timeval) (i : ℕ) (s : SendState) (streams : List IperfStream) : List SendAttempt :=
  (visited (sendBody env writeSetP round multisend now) i s streams).filterMap
    (attemptOf writeSetP round)

/-- The attempts of the rounds. -/
def roundsAttempts (env : SendEnv) (writeSetP : Option (Finset ℤ)) :
    ℕ → ℕ → Timeval → SendState → List IperfStream → List SendAttempt
  | 0, _, _, _, _ => []
  | multisend + 1, round, now, s, streams =>
    let now :=
      if s.test.settings.rate ≠ 0 ∧ s.test.settings.burst = 0 then env.clock round else now
    let r := forEach (sendBody env writeSetP round (multisend + 1) now) 0
      { s with streamsActive := false } streams
    loopAttempts env writeSetP round (multisend + 1) now 0 { s with streamsActive := false }
        streams ++
      if r.1.failure.isSome || !r.1.streamsActive then []
      else roundsAttempts env writeSetP multisend (round + 1) now r.1 r.2

/-- The attempts of a call of `iperf_send`. -/
def sendAttempts (env : SendEnv) (writeSetP : Option (Finset ℤ)) (test : IperfTest) :
    List SendAttempt :=
  roundsAttempts env writeSetP (multisendOf test) 0 {} { test := test } test.streams

/-- The test and the stream that a call of `sp->snd` sees. -/
def SendAttempt.call (a : SendAttempt) : IperfTest × IperfStream := (a.test, a.stream)

/-- The calls of `sp->snd` in a call of `iperf_send`. -/
def sndCalls (env : SendEnv) (writeSetP : Option (Finset ℤ)) (test : IperfTest) :
    List (IperfTest × IperfStream) :=
  (sendAttempts env writeSetP test).map SendAttempt.call

/-- The stream of a call of `sp->snd`. -/
def sndStream : SendEvent → Option IperfStream
  | .snd sp => some sp
  | .check _ _ => none

/-- What `sp->snd` returns. -/
def sndResult (test : IperfTest) (io : SndIo) : ℤ :=
  if test.diskfileName.isSome && io.fileRead == 0 then 0 else io.written

/-- What an attempt returns. -/
def SendAttempt.result (env : SendEnv) (a : SendAttempt) : ℤ :=
  sndResult a.test (env.io a.round a.position)

/-- What a call of `sp->snd` comes to. -/
def outcomeOf (test : IperfTest) (io : SndIo) : Outcome ℕ :=
  if sndResult test io < 0 then
    if sndResult test io = netSofterror then .skipped else .failed
  else .moved (sndResult test io).toNat

/-- The turns of a round: the streams that may send, in order. -/
def turns (test : IperfTest) (writeSetP : Option (Finset ℤ)) (io : ℕ → SndIo) :
    ℕ → List IperfStream → List (Outcome ℕ)
  | _, [] => []
  | i, sp :: rest =>
    if maySend test writeSetP sp then
      outcomeOf test (io i) :: turns test writeSetP io (i + 1) rest
    else turns test writeSetP io (i + 1) rest

/-- The turns that a call of `iperf_send` has to give. -/
def roundsOf (env : SendEnv) (writeSetP : Option (Finset ℤ)) (test : IperfTest) :
    List (List (Outcome ℕ)) :=
  (List.range' 0 (multisendOf test)).map fun round =>
    turns test writeSetP (env.io round) 0 test.streams

/-- No block is sent in the call with the limit reached. -/
def StopsAt (limit : Limit) (env : SendEnv) (writeSetP : Option (Finset ℤ)) (test : IperfTest) :
    Prop :=
  ∀ call ∈ sndCalls env writeSetP test, limit.reached test.settings (countersOf call.1) = false

/-- The turns do not come to the limit before the last of them, with the other limit alone to end
rounds. -/
def ReachedLast (limit : Limit) (env : SendEnv) (writeSetP : Option (Finset ℤ))
    (test : IperfTest) : Prop :=
  Within (limit.reached test.settings)
    (seen Counters.advance (limit.other.stops test.settings) (countersOf test)
      (roundsOf env writeSetP test))

/-- The calls of a loop start with that of the first stream, and go on if the loop does. -/
theorem loopAttempts_cons (env : SendEnv) (writeSetP : Option (Finset ℤ)) (round multisend : ℕ)
    (now : Timeval) (i : ℕ) (s : SendState) (sp : IperfStream) (rest : List IperfStream) :
    (loopAttempts env writeSetP round multisend now i s (sp :: rest)).map SendAttempt.call =
      (if maySend s.test writeSetP sp then [(s.test, sp)] else []) ++
        if (sendBody env writeSetP round multisend now i s sp).2.2 then
          (loopAttempts env writeSetP round multisend now (i + 1)
            (sendBody env writeSetP round multisend now i s sp).1 rest).map SendAttempt.call
        else [] := by
  unfold loopAttempts
  rw [visited, List.filterMap_cons]
  unfold attemptOf
  dsimp only
  cases (sendBody env writeSetP round multisend now i s sp).2.2 with
  | true =>
    rw [if_pos rfl, if_pos rfl]
    cases maySend s.test writeSetP sp with
    | true => rfl
    | false => rfl
  | false =>
    rw [if_neg Bool.false_ne_true, if_neg Bool.false_ne_true]
    cases maySend s.test writeSetP sp with
    | true => rfl
    | false => rfl

/-- The result of `sp->snd` is that of the system calls, whatever the protocol. -/
theorem snd_result (test : IperfTest) (io : SndIo) (sp : IperfStream) :
    (snd test io sp).1 = sndResult test io := by
  unfold snd sndResult
  split
  · rfl
  · unfold protocolSend iperfUdpSend iperfTcpSend
    dsimp only
    split
    · split
      · rfl
      · rfl
    · split
      · rfl
      · rfl

/-- An attempt records the send of its stream exactly if the stream may send. -/
theorem sendBody_events (env : SendEnv) (writeSetP : Option (Finset ℤ)) (round multisend : ℕ)
    (now : Timeval) (i : ℕ) (s : SendState) (sp : IperfStream) :
    (sendBody env writeSetP round multisend now i s sp).1.events.filterMap sndStream =
      s.events.filterMap sndStream ++ if maySend s.test writeSetP sp then [sp] else [] := by
  unfold sendBody
  split
  · dsimp only
    split
    · rw [List.filterMap_append]
      rfl
    · unfold checkAfterSend
      split
      · dsimp only [afterSnd]
        rw [List.filterMap_append, List.filterMap_append]
        exact List.append_nil _
      · dsimp only [afterSnd]
        rw [List.filterMap_append]
        rfl
  · rw [List.append_nil]

/-- A round records the sends of its streams in order. -/
theorem loop_events (env : SendEnv) (writeSetP : Option (Finset ℤ)) (round multisend : ℕ)
    (now : Timeval) (i : ℕ) (s : SendState) (streams : List IperfStream) :
    (forEach (sendBody env writeSetP round multisend now) i s streams).1.events.filterMap
        sndStream =
      s.events.filterMap sndStream ++
        ((loopAttempts env writeSetP round multisend now i s streams).map SendAttempt.call).map
          Prod.snd := by
  induction streams generalizing i s with
  | nil => exact (List.append_nil _).symm
  | cons sp rest ih =>
    have hbody := sendBody_events env writeSetP round multisend now i s sp
    have hcalls : (if maySend s.test writeSetP sp then [(s.test, sp)] else []).map Prod.snd =
        if maySend s.test writeSetP sp then [sp] else [] := by
      split
      · rfl
      · rfl
    rw [forEach, loopAttempts_cons, List.map_append, hcalls, ← List.append_assoc, ← hbody]
    split
    · exact ih (i + 1) _
    · exact (List.append_nil _).symm

/-- The rounds of a call record those of each round. -/
theorem rounds_events (env : SendEnv) (writeSetP : Option (Finset ℤ)) (multisend round : ℕ)
    (now : Timeval) (s : SendState) (streams : List IperfStream) :
    (sendRounds env writeSetP multisend round now s streams).1.events.filterMap sndStream =
      s.events.filterMap sndStream ++
        ((roundsAttempts env writeSetP multisend round now s streams).map SendAttempt.call).map
          Prod.snd := by
  induction multisend generalizing round now s streams with
  | zero => exact (List.append_nil _).symm
  | succ multisend ih =>
    rw [sendRounds, roundsAttempts]
    generalize (if s.test.settings.rate ≠ 0 ∧ s.test.settings.burst = 0 then env.clock round
      else now) = roundNow
    have hloop := loop_events env writeSetP round (multisend + 1) roundNow 0
      { s with streamsActive := false } streams
    rw [List.map_append, List.map_append, ← List.append_assoc, ← hloop]
    split
    · exact (List.append_nil _).symm
    · exact ih (round + 1) roundNow _ _

/-- The calls are those that `iperf_send` lists. -/
theorem sndCalls_events (env : SendEnv) (writeSetP : Option (Finset ℤ)) (test : IperfTest) :
    (iperfSend env writeSetP test).events.filterMap sndStream =
      (sndCalls env writeSetP test).map Prod.snd := by
  have hrounds := rounds_events env writeSetP (multisendOf test) 0 {} { test := test }
    test.streams
  rw [List.filterMap_nil, List.nil_append] at hrounds
  unfold iperfSend
  dsimp only
  split
  · exact hrounds
  · split
    · refine forEach_state (fun s : SendState => s.events.filterMap sndStream =
        (sndCalls env writeSetP test).map Prod.snd) ?_ 0 _ _ hrounds
      intro i s sp h
      dsimp only [burstBody]
      rw [List.filterMap_append, h]
      exact List.append_nil _
    · exact hrounds

/-- The throttle check behind a transfer leaves the counters and the loop alone. -/
theorem checkAfterSend_state (env : SendEnv) (now : Timeval) (s : SendState) (sp : IperfStream) :
    countersOf (checkAfterSend env now s sp).1.test = countersOf s.test ∧
      (checkAfterSend env now s sp).1.streamsActive = s.streamsActive ∧
      (checkAfterSend env now s sp).1.failure = s.failure := by
  unfold checkAfterSend
  split
  · refine ⟨?_, rfl, rfl⟩
    unfold iperfCheckThrottle
    split_ifs
    · rfl
    · rfl
    · rfl
  · exact ⟨rfl, rfl, rfl⟩

/-- The break is taken with several rounds as soon as one of the limits is reached. -/
theorem endReached_eq (multisend : ℕ) (test : IperfTest) :
    endReached multisend test = (decide (1 < multisend) &&
      (Limit.bytes.stops test.settings (countersOf test) ||
        Limit.blocks.stops test.settings (countersOf test))) := rfl

/-- What a stream does in a round of the loop, by what its call of `sp->snd` comes to. -/
def BodySpec (settings : IperfSettings) (multisend : ℕ) (s s' : SendState) (goesOn : Bool) :
    Outcome ℕ → Prop
  | .skipped => countersOf s'.test = countersOf s.test ∧ s'.streamsActive = s.streamsActive ∧
      s'.failure = none ∧ goesOn = false
  | .failed => countersOf s'.test = countersOf s.test ∧ s'.streamsActive = s.streamsActive ∧
      s'.failure.isSome = true ∧ goesOn = false
  | .moved r => countersOf s'.test = (countersOf s.test).advance r ∧ s'.streamsActive = true ∧
      s'.failure = s.failure ∧
      goesOn = !(decide (1 < multisend) &&
        (Limit.bytes.stops settings ((countersOf s.test).advance r) ||
          Limit.blocks.stops settings ((countersOf s.test).advance r)))

/-- An attempt of a stream that may send counts its result once, and stops the round where a
limit is reached and further rounds are to come. -/
theorem sendBody_spec (env : SendEnv) (writeSetP : Option (Finset ℤ)) (round multisend : ℕ)
    (now : Timeval) (i : ℕ) (s : SendState) {sp : IperfStream}
    (hmay : maySend s.test writeSetP sp = true) :
    BodySpec s.test.settings multisend s (sendBody env writeSetP round multisend now i s sp).1
      (sendBody env writeSetP round multisend now i s sp).2.2
      (outcomeOf s.test (env.io round i)) := by
  have hframe := (sendBody_frame env writeSetP round multisend now i s sp).1
  have hsettings := congrArg IperfTest.settings hframe
  have hresult := snd_result s.test (env.io round i) sp
  unfold outcomeOf
  unfold sendBody at hsettings ⊢
  rw [if_pos hmay] at hsettings ⊢
  dsimp only at hsettings ⊢
  rw [hresult] at hsettings ⊢
  by_cases hneg : sndResult s.test (env.io round i) < 0
  · rw [if_pos hneg, if_pos hneg]
    by_cases hsoft : sndResult s.test (env.io round i) = netSofterror
    · rw [if_pos hsoft, if_pos hsoft]
      exact ⟨rfl, rfl, rfl, rfl⟩
    · rw [if_neg hsoft, if_neg hsoft]
      exact ⟨rfl, rfl, rfl, rfl⟩
  · rw [if_neg hneg] at hsettings ⊢
    rw [if_neg hneg]
    obtain ⟨hcounters, hactive, hfailure⟩ := checkAfterSend_state env now
      (afterSnd s sp (sndResult s.test (env.io round i)) (snd s.test (env.io round i) sp).2.2)
      (snd s.test (env.io round i) sp).2.1
    refine ⟨hcounters, hactive, hfailure, ?_⟩
    dsimp only
    rw [endReached_eq, hcounters]
    dsimp only [testFrame] at hsettings
    rw [hsettings]
    rfl

/-- The end conditions that `iperf_send` looks at. -/
def eitherStops (settings : IperfSettings) (c : Counters) : Bool :=
  Limit.bytes.stops settings c || Limit.blocks.stops settings c

/-- A loop over the streams as a round of turns. -/
def playedOf (r : SendState) (calls : List (IperfTest × IperfStream)) : Played Counters :=
  ⟨countersOf r.test, r.streamsActive, r.failure.isSome, calls.map fun call => countersOf call.1⟩

/-- A turn of the round, by what the stream of the loop does: it ends everything, or the
round, or hands on to the next stream. -/
theorem playRound_body {settings : IperfSettings} {multisend : ℕ} {s s' : SendState}
    {goesOn : Bool} {outcome : Outcome ℕ} (hspec : BodySpec settings multisend s s' goesOn outcome)
    (hfailure : s.failure = none) (later : List (Outcome ℕ)) :
    (goesOn = true → s'.failure = none) ∧
      playRound Counters.advance (eitherStops settings) (decide (multisend ≤ 1)) s.streamsActive
          (countersOf s.test) (outcome :: later) =
        Played.after (countersOf s.test)
          (if goesOn then playRound Counters.advance (eitherStops settings)
            (decide (multisend ≤ 1)) s'.streamsActive (countersOf s'.test) later
          else playedOf s' []) := by
  cases outcome with
  | skipped =>
    obtain ⟨hcounters, hactive, hnone, hends⟩ := hspec
    refine ⟨fun _ => hnone, ?_⟩
    rw [hends, if_neg Bool.false_ne_true, playRound]
    unfold playedOf
    rw [hcounters, hactive, hnone]
    rfl
  | failed =>
    obtain ⟨hcounters, hactive, hsome, hends⟩ := hspec
    constructor
    · intro hgoes
      rw [hends] at hgoes
      cases hgoes
    · rw [hends, if_neg Bool.false_ne_true, playRound]
      unfold playedOf
      rw [hcounters, hactive, hsome]
      rfl
  | moved r =>
    obtain ⟨hcounters, hactive, hsame, hends⟩ := hspec
    have hlast : (!decide (multisend ≤ 1)) = decide (1 < multisend) := by
      rw [← decide_not, decide_eq_decide]
      omega
    have hstops : (decide (1 < multisend) &&
        eitherStops settings ((countersOf s.test).advance r)) = !goesOn := by
      rw [hends, Bool.not_not]
      rfl
    refine ⟨fun _ => hsame.trans hfailure, ?_⟩
    rw [playRound, hlast, hstops]
    cases goesOn with
    | false =>
      rw [Bool.not_false, if_pos rfl, if_neg Bool.false_ne_true]
      unfold playedOf
      rw [hcounters, hactive, hsame, hfailure]
      rfl
    | true => rw [Bool.not_true, if_neg Bool.false_ne_true, if_pos rfl, hcounters, hactive]

/-- A loop over the streams plays its round. The induction is on the streams that are left;
those that may not send have no turn in it. -/
theorem loop_plays (env : SendEnv) (writeSetP : Option (Finset ℤ)) (round multisend : ℕ)
    (now : Timeval) {test : IperfTest} (i : ℕ) (s : SendState) (streams : List IperfStream)
    (hframe : testFrame s.test = testFrame test) (hfailure : s.failure = none) :
    playRound Counters.advance (eitherStops test.settings) (decide (multisend ≤ 1))
        s.streamsActive (countersOf s.test) (turns test writeSetP (env.io round) i streams) =
      playedOf (forEach (sendBody env writeSetP round multisend now) i s streams).1
        ((loopAttempts env writeSetP round multisend now i s streams).map SendAttempt.call) := by
  induction streams generalizing i s with
  | nil =>
    unfold playedOf
    rw [turns, playRound, forEach, hfailure]
    rfl
  | cons sp rest ih =>
    have hsettings := congrArg IperfTest.settings hframe
    have hpacing := congrArg IperfTest.noFqSocketPacing hframe
    have hfile := congrArg IperfTest.diskfileName hframe
    dsimp only [testFrame] at hsettings hpacing hfile
    have hmay : maySend test writeSetP sp = maySend s.test writeSetP sp := by
      unfold maySend
      rw [hpacing]
    have houtcome : outcomeOf test (env.io round i) = outcomeOf s.test (env.io round i) := by
      unfold outcomeOf sndResult
      rw [hfile]
    rw [turns, forEach, loopAttempts_cons, hmay, houtcome]
    by_cases hturn : maySend s.test writeSetP sp = true
    · have hspec := sendBody_spec env writeSetP round multisend now i s hturn
      have hnext := (sendBody_frame env writeSetP round multisend now i s sp).1.trans hframe
      rw [hsettings] at hspec
      obtain ⟨hnone, hplays⟩ := playRound_body hspec hfailure
        (turns test writeSetP (env.io round) (i + 1) rest)
      rw [if_pos hturn, if_pos hturn, hplays]
      cases hgoes : (sendBody env writeSetP round multisend now i s sp).2.2 with
      | false =>
        rw [if_neg Bool.false_ne_true, if_neg Bool.false_ne_true, if_neg Bool.false_ne_true]
        rfl
      | true =>
        rw [if_pos rfl, if_pos rfl, if_pos rfl, ih (i + 1) _ hnext (hnone hgoes)]
        rfl
    · have hidle : sendBody env writeSetP round multisend now i s sp = (s, sp, true) := by
        unfold sendBody
        rw [if_neg hturn]
      rw [if_neg hturn, if_neg hturn, hidle, if_pos rfl, if_pos rfl, List.nil_append]
      exact ih (i + 1) s hframe hfailure

/-- What decides whether a stream may send. -/
def gate (sp : IperfStream) : Bool × ℤ := (sp.greenLight, sp.socket)

/-- A send does not change whether its stream may send. -/
theorem snd_gate (test : IperfTest) (io : SndIo) (sp : IperfStream) :
    gate (snd test io sp).2.1 = gate sp := by
  obtain heq | ⟨n, -, ⟨-, heq⟩ | ⟨-, heq⟩⟩ := snd_cases test io sp
  · rw [heq]
  · rw [heq]
    rfl
  · rw [heq]
    rfl

/-- Without a rate, or with bursts, nothing is checked after a send. -/
theorem checkAfterSend_free (env : SendEnv) (now : Timeval) {s : SendState} (sp : IperfStream)
    (hfree : ¬ (s.test.settings.rate ≠ 0 ∧ s.test.settings.burst = 0)) :
    checkAfterSend env now s sp = (s, sp) := by
  unfold checkAfterSend
  rw [if_neg hfree]

/-- Only a throttled call touches the green light. -/
theorem sendBody_gate (env : SendEnv) (writeSetP : Option (Finset ℤ)) (round multisend : ℕ)
    (now : Timeval) (i : ℕ) {s : SendState} (sp : IperfStream)
    (hfree : ¬ (s.test.settings.rate ≠ 0 ∧ s.test.settings.burst = 0)) :
    gate (sendBody env writeSetP round multisend now i s sp).2.1 = gate sp := by
  have hsnd := snd_gate s.test (env.io round i) sp
  unfold sendBody
  split
  · dsimp only
    split
    · exact hsnd
    · have hcheck := checkAfterSend_free env now
        (s := afterSnd s sp (snd s.test (env.io round i) sp).1 (snd s.test (env.io round i) sp).2.2)
        (snd s.test (env.io round i) sp).2.1 hfree
      rw [hcheck]
      exact hsnd
  · rfl

/-- The turns of a round are decided by the gates. -/
theorem turns_congr (test : IperfTest) (writeSetP : Option (Finset ℤ)) (io : ℕ → SndIo) (i : ℕ)
    {streams streams' : List IperfStream} (h : streams'.map gate = streams.map gate) :
    turns test writeSetP io i streams' = turns test writeSetP io i streams := by
  induction streams generalizing i streams' with
  | nil =>
    rw [List.map_nil, List.map_eq_nil_iff] at h
    rw [h]
  | cons sp rest ih =>
    cases streams' with
    | nil => cases h
    | cons sp' rest' =>
      rw [List.map_cons, List.map_cons, List.cons_eq_cons] at h
      have hgreen : sp'.greenLight = sp.greenLight := congrArg Prod.fst h.1
      have hsocket : sp'.socket = sp.socket := congrArg Prod.snd h.1
      have hmay : maySend test writeSetP sp' = maySend test writeSetP sp := by
        unfold maySend
        rw [hgreen, hsocket]
      rw [turns, turns, hmay, ih (i + 1) h.2]

/-- A loop over the streams keeps the frame of the test, and the gates when nothing is throttled. -/
theorem loop_keeps (env : SendEnv) (writeSetP : Option (Finset ℤ)) (round multisend : ℕ)
    (now : Timeval) {test : IperfTest} (s : SendState) (streams : List IperfStream)
    (hframe : testFrame s.test = testFrame test) :
    testFrame (forEach (sendBody env writeSetP round multisend now) 0 s streams).1.test =
        testFrame test ∧
      (¬ (test.settings.rate ≠ 0 ∧ test.settings.burst = 0) →
        (forEach (sendBody env writeSetP round multisend now) 0 s streams).2.map gate =
          streams.map gate) := by
  refine forEach_invariant (fun (s : SendState) current => testFrame s.test = testFrame test ∧
    (¬ (test.settings.rate ≠ 0 ∧ test.settings.burst = 0) →
      current.map gate = streams.map gate)) ?_ 0 s streams ⟨hframe, fun _ => rfl⟩
  intro i s pre sp post h
  refine ⟨(sendBody_frame env writeSetP round multisend now i s sp).1.trans h.1, ?_⟩
  intro hfree
  have hgates := h.2 hfree
  have hsettings := congrArg IperfTest.settings h.1
  dsimp only [testFrame] at hsettings
  rw [← hsettings] at hfree
  rw [List.map_append, List.map_cons] at hgates ⊢
  rw [sendBody_gate env writeSetP round multisend now i sp hfree]
  exact hgates

/-- The rounds of `iperf_send` play theirs, by induction on the rounds that are left; each of
them starts again with the first stream. -/
theorem rounds_play (env : SendEnv) (writeSetP : Option (Finset ℤ)) {test : IperfTest}
    (multisend round : ℕ) (now : Timeval) (s : SendState) (streams : List IperfStream)
    (hframe : testFrame s.test = testFrame test) (hfailure : s.failure = none)
    (hgates : streams.map gate = test.streams.map gate)
    (hpace : test.settings.rate ≠ 0 ∧ test.settings.burst = 0 → multisend ≤ 1) :
    seen Counters.advance (eitherStops test.settings) (countersOf s.test)
        ((List.range' round multisend).map fun round =>
          turns test writeSetP (env.io round) 0 test.streams) =
      ((roundsAttempts env writeSetP multisend round now s streams).map SendAttempt.call).map
        fun call => countersOf call.1 := by
  induction multisend generalizing round now s streams with
  | zero => rfl
  | succ multisend ih =>
    rw [List.range'_succ, List.map_cons, seen, roundsAttempts]
    generalize (if s.test.settings.rate ≠ 0 ∧ s.test.settings.burst = 0 then env.clock round
      else now) = roundNow
    have hlast : ((List.range' (round + 1) multisend).map fun round =>
        turns test writeSetP (env.io round) 0 test.streams).isEmpty =
          decide (multisend + 1 ≤ 1) := by
      cases multisend with
      | zero => rfl
      | succ multisend =>
        rw [List.range'_succ, List.map_cons, List.isEmpty_cons, decide_eq_false (by omega)]
    have hplays := loop_plays env writeSetP round (multisend + 1) roundNow 0
      { s with streamsActive := false } streams hframe hfailure
    obtain ⟨hkeeps, hsame⟩ := loop_keeps env writeSetP round (multisend + 1) roundNow
      { s with streamsActive := false } streams hframe
    rw [hlast, ← turns_congr test writeSetP (env.io round) 0 hgates, hplays]
    generalize forEach (sendBody env writeSetP round (multisend + 1) roundNow) 0
      { s with streamsActive := false } streams = r at hkeeps hsame ⊢
    unfold Played.followedBy playedOf
    dsimp only
    rw [List.map_append, List.map_append]
    congr 1
    by_cases hover : (r.1.failure.isSome || !r.1.streamsActive) = true
    · rw [if_pos hover, if_pos hover]
      rfl
    · rw [if_neg hover, if_neg hover]
      have hgoing : r.1.failure = none := by
        rw [Bool.or_eq_true, not_or] at hover
        simpa using hover.1
      by_cases hmore : multisend = 0
      · subst hmore
        rfl
      · have hfree : ¬ (test.settings.rate ≠ 0 ∧ test.settings.burst = 0) := by
          intro hthrottled
          have hone := hpace hthrottled
          omega
        exact ih (round + 1) roundNow r.1 r.2 hkeeps hgoing ((hsame hfree).trans hgates)
          fun hthrottled => absurd hthrottled hfree

/-- A call of `iperf_send` gives the turns of its rounds. -/
theorem sndCalls_play (env : SendEnv) (writeSetP : Option (Finset ℤ)) (test : IperfTest) :
    seen Counters.advance (eitherStops test.settings) (countersOf test)
        (roundsOf env writeSetP test) =
      (sndCalls env writeSetP test).map fun call => countersOf call.1 := by
  have hpace : test.settings.rate ≠ 0 ∧ test.settings.burst = 0 → multisendOf test ≤ 1 := by
    rintro ⟨hrate, hburst⟩
    unfold multisendOf
    rw [if_neg (not_not.mpr hburst), if_neg hrate]
  exact rounds_play env writeSetP (multisendOf test) 0 {} { test := test } test.streams rfl rfl
    rfl hpace

/-- No stream has a turn exactly if none of them may send. -/
theorem turns_eq_nil_iff (test : IperfTest) (writeSetP : Option (Finset ℤ)) (io : ℕ → SndIo)
    (i : ℕ) (streams : List IperfStream) :
    turns test writeSetP io i streams = [] ↔
      ∀ sp ∈ streams, maySend test writeSetP sp = false := by
  induction streams generalizing i with
  | nil => simp [turns]
  | cons sp rest ih =>
    rw [turns, List.forall_mem_cons]
    cases hmay : maySend test writeSetP sp with
    | true => simp
    | false => simp [ih (i + 1)]

/-- The streams that may send are the same in every round. -/
theorem roundsOf_uniform (env : SendEnv) (writeSetP : Option (Finset ℤ)) (test : IperfTest) :
    Uniform (roundsOf env writeSetP test) := by
  intro first hfirst second hsecond hsome hnone
  obtain ⟨round, -, rfl⟩ := List.mem_map.mp hfirst
  obtain ⟨round', -, rfl⟩ := List.mem_map.mp hsecond
  rw [turns_eq_nil_iff] at hnone
  exact hsome ((turns_eq_nil_iff test writeSetP (env.io round) 0 test.streams).mpr hnone)

/-- A limit that is not reached yet is set. -/
theorem eitherStops_eq {limit : Limit} {settings : IperfSettings} {c : Counters}
    (h : limit.reached settings c = false) :
    eitherStops settings = fun c => limit.other.stops settings c || limit.reached settings c := by
  funext c'
  cases limit with
  | bytes =>
    have hset : (settings.bytes != 0) = true := by
      have hbound := of_decide_eq_false h
      rw [bne_iff_ne]
      omega
    unfold eitherStops
    rw [Limit.stops, hset, Bool.true_and, Bool.or_comm]
    rfl
  | blocks =>
    have hset : (settings.blocks != 0) = true := by
      have hbound := of_decide_eq_false h
      rw [bne_iff_ne]
      omega
    unfold eitherStops
    rw [Limit.stops.eq_2, hset, Bool.true_and]
    rfl

/-- A call of `iperf_send` below a limit sends no block behind it exactly when its turns come to
the limit with the last of them or not at all. -/
theorem stopsAt_iff {limit : Limit} {env : SendEnv} {writeSetP : Option (Finset ℤ)}
    {test : IperfTest} (hstart : limit.reached test.settings (countersOf test) = false) :
    StopsAt limit env writeSetP test ↔ ReachedLast limit env writeSetP test := by
  have hplay := sndCalls_play env writeSetP test
  rw [eitherStops_eq hstart] at hplay
  unfold ReachedLast
  rw [← within_limit_iff (countersOf test) hstart (roundsOf_uniform env writeSetP test), hplay]
  unfold StopsAt Within
  rw [List.forall_mem_map]

/-- A client with two streams, the ten rounds of the defaults and twenty thousand bytes to send. -/
def twentyBlocks : IperfTest :=
  { multisend := 10, settings := { bytes := 20000 },
    streams := [{ id := 1, socket := 5 }, { id := 3, socket := 6 }] }

/-- Its twentieth block is the last one. -/
theorem twentyBlocks_stops : StopsAt .bytes thousandBytes none twentyBlocks := by
  refine (stopsAt_iff rfl).mpr ?_
  unfold ReachedLast Within
  decide

/-- A client with one stream, the ten rounds of the defaults and a thousand bytes to send. -/
def oneBlock : IperfTest :=
  { multisend := 10, settings := { bytes := 1000 }, streams := [{ id := 1, socket := 5 }] }

/-- Its first block reaches the limit, and nine more follow, one in each of the rounds that
the break does not leave. -/
theorem oneBlock_overshoots :
    Limit.bytes.reached oneBlock.settings (countersOf oneBlock) = false ∧
      ¬ StopsAt .bytes thousandBytes none oneBlock ∧
      (sndCalls thousandBytes none oneBlock).length = 10 := by
  refine ⟨rfl, ?_, rfl⟩
  unfold StopsAt
  decide

end IperfRuntime.SendLimits
