import IperfRuntime.EndpointFrame
import IperfRuntime.SendAttempts

/-!
# The block count of a client run

A client run without an omit period, turn by turn, with what its transfers returned. `bytes_sent`
adds the results up, `blocks_sent` counts them, so a run that `-k` ends has transferred its blocks
when every transfer was of a whole block.
-/

namespace IperfRuntime.BlockCount

open ClockReading JsonTree TimerQueue TimerPairs TimerEntries TestState StreamTraffic ListLoop
  IntervalStats StreamCreation ResultsExchange ResultsFrame ClientTimers ClientRun ClientLoop
  SendLimits SendAttempts

/-- What the transfers of a turn in `TEST_RUNNING` return and count. -/
def transferResults (input : RoundInput) (test : IperfTest) : List ℕ :=
  if test.reverse then recvResults input.recv input.readSet test
  else sendResults input.send (some input.writeSet) test

/-- What the transfers of a turn return and count. -/
def turnResults (env : ℕ → CallbackInput) (input : TurnInput) (c : Client) : List ℕ :=
  match clientMessage env input c with
  | some (true, c) =>
    if c.2.test.state = .testRunning then transferResults input.round c.2.test
    else if c.2.test.state = .testEnd && c.2.test.reverse then
      transferResults input.round c.2.test
    else []
  | _ => []

/-- The client behind the given turns, each of which goes on. -/
def afterTurns (platform : Platform) (env : ℕ → CallbackInput) :
    List TurnInput → Client → Option Client
  | [], c => some c
  | input :: rest, c =>
    if c.2.test.state = .iperfDone then none
    else
      (clientTurn platform env input c).bind fun r =>
        if r.1 then afterTurns platform env rest r.2 else none

/-- What the transfers of these turns return and count. -/
def runResults (platform : Platform) (env : ℕ → CallbackInput) : List TurnInput → Client → List ℕ
  | [], _ => []
  | input :: rest, c =>
    turnResults env input c ++
      match clientTurn platform env input c with
      | some r => runResults platform env rest r.2
      | none => []

/-- The client whose test a turn looks at for the end. -/
def testedClient (platform : Platform) (env : ℕ → CallbackInput) (input : TurnInput) (c : Client) :
    Option Client :=
  (clientMessage env input c).bind fun r =>
    if r.1 ∧ r.2.2.test.state = .testRunning ∧ (transfer input.round r.2.2.test).1 then
      tmrRun (callClient platform env) input.round.now input.round.fuel
        (Client.withTest r.2 (transfer input.round r.2.2.test).2)
    else none

/-- A turn behind others sends `TEST_END` because of the blocks. -/
structure EndsByBlocks (platform : Platform) (env : ℕ → CallbackInput) (start : Client)
    (inputs : List TurnInput) (input : TurnInput) (c ended : Client) : Prop where
  before : afterTurns platform env inputs start = some c
  running : c.2.test.state ≠ .iperfDone
  tested : testedClient platform env input c = some ended
  omitting : ended.2.test.omitting = false
  limited : ended.2.test.settings.blocks ≠ 0
  reached : ended.2.test.settings.blocks ≤ ended.2.test.blocksSent

/-- The transfers of a run up to the end of its last turn. -/
def transfers (platform : Platform) (env : ℕ → CallbackInput) (start : Client)
    (inputs : List TurnInput) (input : TurnInput) (c : Client) : List ℕ :=
  runResults platform env inputs start ++ turnResults env input c

/-- The end of an omit period is not among the active timers. -/
structure QuietQueue (q : TimerLists ClientProc) : Prop where
  valid : q.Valid
  quiet : ∀ a periodic, ¬ Active q a .omission periodic

/-- Nor is an omit period asked for. -/
structure NoOmission (c : Client) : Prop where
  queue : QuietQueue c.1
  noOmit : c.2.test.omitSeconds = 0

/-- A client that has not transferred anything. -/
structure Fresh (c : Client) : Prop where
  noOmission : NoOmission c
  bytes : c.2.test.bytesSent = 0
  blocks : c.2.test.blocksSent = 0

/-- The counters with what they are measured by. -/
def tally (test : IperfTest) : Counters × IperfSettings × ℤ :=
  (countersOf test, test.settings, test.omitSeconds)

/-- The tally behind some transfers. -/
def tallied (results : List ℕ) (test : IperfTest) : Counters × IperfSettings × ℤ :=
  (results.foldl Counters.advance (countersOf test), test.settings, test.omitSeconds)

/-- Nothing was transferred. -/
theorem congr_tallied {test test' : IperfTest} (h : tally test' = tally test) :
    tally test' = tallied [] test := h

/-- What keeps the queue and the counts keeps a client without omitted seconds. -/
theorem NoOmission.same {c c' : Client} (h : NoOmission c) (hqueue : c'.1 = c.1)
    {results : List ℕ} (htally : tally c'.2.test = tallied results c.2.test) : NoOmission c' where
  queue := by
    rw [hqueue]
    exact h.queue
  noOmit := (congrArg (fun t => t.2.2) htally).trans h.noOmit

section Start

variable {q : TimerLists ClientProc} {test : IperfTest}

/-- A new timer for another callback. -/
theorem QuietQueue.create (h : QuietQueue q) {proc : ClientProc} (hproc : proc ≠ .omission)
    (malloc : Bool) (now : Timeval) (usecs : ℤ) (periodic : Bool) :
    QuietQueue (tmrCreate q malloc now proc usecs periodic).2 where
  valid := h.valid.create malloc now proc usecs periodic
  quiet := by
    intro a kind hactive
    rcases active_create.mp hactive with hold | ⟨-, hnew, -⟩
    · exact h.quiet a kind hold
    · exact hproc hnew

/-- A routine of the start that leaves no end of an omit period behind. -/
structure Quiet (r : Attempt) : Prop where
  queue : QuietQueue r.2.1
  noOmit : r.2.2.omitSeconds = 0

/-- Attempts in sequence are quiet if each of them is. -/
theorem Quiet.andThen {a : Attempt} {next : TimerLists ClientProc → IperfTest → Attempt}
    (ha : Quiet a)
    (hnext : ∀ q test, QuietQueue q → test.omitSeconds = 0 → Quiet (next q test)) :
    Quiet (a.andThen next) := by
  unfold Attempt.andThen
  split
  · exact hnext a.2.1 a.2.2 ha.queue ha.noOmit
  · exact ha

/-- The timers of a client without omitted seconds never end an omission. -/
theorem createClientTimers_quiet (input : StartInput) (hq : QuietQueue q)
    (homit : test.omitSeconds = 0) : Quiet (createClientTimers input q test) := by
  unfold createClientTimers
  split
  · exact ⟨hq, homit⟩
  · rename_i now _
    have hfirst : Quiet (createTestTimer (input.timersMalloc 0) now q
        { test with timer := none, statsTimer := none, reporterTimer := none }) := by
      unfold createTestTimer
      split
      · exact ⟨hq.create (by decide) _ _ _ _, homit⟩
      · exact ⟨hq, homit⟩
    refine (hfirst.andThen ?_).andThen ?_
    · intro q test hq homit
      unfold createStatsTimer
      split
      · exact ⟨hq.create (by decide) _ _ _ _, homit⟩
      · exact ⟨hq, homit⟩
    · intro q test hq homit
      unfold createReporterTimer
      split
      · exact ⟨hq.create (by decide) _ _ _ _, homit⟩
      · exact ⟨hq, homit⟩

/-- No omit timer is set for it. -/
theorem createClientOmitTimer_quiet (input : StartInput) (hq : QuietQueue q)
    (homit : test.omitSeconds = 0) : Quiet (createClientOmitTimer input q test) := by
  unfold createClientOmitTimer
  rw [if_pos homit]
  exact ⟨hq, homit⟩

/-- The timers of the streams do not end an omission either. -/
theorem createSendTimers_quiet (input : StartInput) (hq : QuietQueue q)
    (homit : test.omitSeconds = 0) : Quiet (iperfCreateSendTimers input q test) := by
  have hbody : ∀ i (s : Bool × TimerLists ClientProc) sp, QuietQueue s.2 →
      QuietQueue (sendTimerBody input test.settings.rate i s sp).1.2 := by
    intro i s sp hs
    unfold sendTimerBody
    split
    · exact hs.create (by simp) _ _ _ _
    · exact hs
  unfold iperfCreateSendTimers
  split
  · exact ⟨forEach_state (fun s : Bool × TimerLists ClientProc => QuietQueue s.2) hbody 0 (true, q)
      test.streams hq, homit⟩
  · exact ⟨hq, homit⟩

/-- So none of what `TEST_START` sets up does. -/
theorem handleTestStart_quiet (input : StartInput) (hq : QuietQueue q)
    (homit : test.omitSeconds = 0) : Quiet (handleTestStart input q test) := by
  unfold handleTestStart
  split
  · exact ⟨hq, homit⟩
  · rename_i now _
    have htimers := @createClientTimers_quiet q (iperfInitTest now test) input hq homit
    refine (htimers.andThen ?_).andThen ?_
    · intro q test hq homit
      exact createClientOmitTimer_quiet input hq homit
    · intro q test hq homit
      split
      · exact ⟨hq, homit⟩
      · exact createSendTimers_quiet input hq homit

/-- `TEST_START` transfers nothing. -/
theorem handleTestStart_tally (input : StartInput) (q : TimerLists ClientProc) (test : IperfTest) :
    tally (handleTestStart input q test).2.2 = tally test := by
  cases hclock : input.initClock with
  | none =>
    unfold handleTestStart
    rw [hclock]
  | some now =>
    have hsets := handleTestStart_sets hclock q test
    have hbytes := congrArg IperfTest.bytesSent hsets
    have hblocks := congrArg IperfTest.blocksSent hsets
    have hsettings := congrArg IperfTest.settings hsets
    have homit := congrArg IperfTest.omitSeconds hsets
    dsimp only [testAtStart] at hbytes hblocks hsettings homit
    unfold tally countersOf
    rw [hbytes, hblocks, hsettings, homit]
    rfl

end Start

/-- A transfer that keeps the rest of the test advances the counts by its results. -/
theorem tally_frame {test test' : IperfTest} (h : TrafficFrame.testFrame test' =
    TrafficFrame.testFrame test) {results : List ℕ}
    (hcounters : countersOf test' = results.foldl Counters.advance (countersOf test)) :
    tally test' = tallied results test := by
  have hsettings := congrArg IperfTest.settings h
  have homit := congrArg IperfTest.omitSeconds h
  dsimp only [TrafficFrame.testFrame] at hsettings homit
  unfold tally tallied
  rw [hcounters, hsettings, homit]

/-- A transfer counts its results. -/
theorem transfer_tally (input : RoundInput) (test : IperfTest) :
    tally (transfer input test).2 = tallied (transferResults input test) test := by
  unfold transfer transferResults
  split
  · exact tally_frame (TrafficFrame.iperfRecv_frame _ _ _).test (iperfRecv_counters _ _ _)
  · exact tally_frame (TrafficFrame.iperfSend_frame _ _ _).test (iperfSend_counters _ _ _)

/-- A check of the rate transfers nothing. -/
theorem throttleStream_tally (convert : PrintfText.Dbl → ℕ) (now : Timeval) (i : ℕ)
    (test : IperfTest) : tally (throttleStream convert now i test) = tally test := by
  unfold throttleStream
  split
  · unfold iperfCheckThrottle
    split_ifs
    · rfl
    · rfl
    · rfl
  · rfl

/-- A callback other than the end of an omit period counts nothing. -/
theorem callClient_tally (platform : Platform) (env : ℕ → CallbackInput) {proc : ClientProc}
    (hproc : proc ≠ .omission) (now : Timeval) (c : Client) :
    (callClient platform env proc now c).1 = c.1 ∧
      tally (callClient platform env proc now c).2.test = tally c.2.test := by
  cases proc with
  | testTimer => exact ⟨rfl, rfl⟩
  | stats =>
    dsimp only [callClient]
    split
    · exact ⟨rfl, rfl⟩
    · exact ⟨rfl, rfl⟩
  | reporter =>
    dsimp only [callClient]
    split
    · exact ⟨rfl, rfl⟩
    · exact ⟨rfl, rfl⟩
  | omission => exact absurd rfl hproc
  | send stream => exact ⟨rfl, throttleStream_tally _ _ _ _⟩

/-- The timers count nothing. -/
theorem tmrRun_tally {platform : Platform} {env : ℕ → CallbackInput} {now : Timeval} {fuel : ℕ}
    {c c' : Client} (h : NoOmission c)
    (hrun : tmrRun (callClient platform env) now fuel c = some c') :
    NoOmission c' ∧ tally c'.2.test = tally c.2.test := by
  refine tmrRun_invariant (fun w : Client => NoOmission w ∧ tally w.2.test = tally c.2.test) ?_
    ⟨h, rfl⟩ hrun
  rintro w ⟨hw, htally⟩ t ht
  have hproc : t.proc ≠ .omission := by
    intro hproc
    exact hw.queue.quiet t.address t.periodic ⟨t, ht, rfl, hproc, rfl⟩
  obtain ⟨hqueue, hcall⟩ := callClient_tally platform env hproc now w
  refine ⟨⟨⟨?_, ?_⟩, (congrArg (fun t => t.2.2) hcall).trans hw.noOmit⟩, hcall.trans htally⟩
  · rw [hqueue]
    exact hw.queue.valid.finish t.address
  · intro a periodic hactive
    rw [hqueue] at hactive
    exact hw.queue.quiet a periodic ((active_finish hw.queue.valid ht).mp hactive).1

/-- A message counts nothing, whichever it is and however its handler ends, and it starts no
omit timer where the test omits nothing. -/
theorem handleMessage_tally {env : ℕ → CallbackInput} {input : MessageInput} {c : Client}
    {r : Bool × Client} (h : NoOmission c) (hr : iperfHandleMessageClient env input c = some r) :
    NoOmission r.2 ∧ tally r.2.2.test = tally c.2.test := by
  unfold iperfHandleMessageClient at hr
  split at hr
  · cases hr
    exact ⟨h, rfl⟩
  · rename_i byte _
    cases byte with
    | createStreams =>
      cases hr
      obtain ⟨hframe, -⟩ := createStreamsFrom_spec input.streams c.2.test.bindPort
        c.2.test.numStreams.toNat 0 { c.2.test with state := .createStreams }
      have hbytes := congrArg IperfTest.bytesSent hframe
      have hblocks := congrArg IperfTest.blocksSent hframe
      have hsettings := congrArg IperfTest.settings hframe
      have homit := congrArg IperfTest.omitSeconds hframe
      dsimp only [creationFrame] at hbytes hblocks hsettings homit
      have htally : tally (iperfCreateStreams input.streams
          { c.2.test with state := .createStreams }).2.1 = tally c.2.test := by
        unfold tally countersOf iperfCreateStreams
        rw [hbytes, hblocks, hsettings, homit]
      exact ⟨h.same rfl (congr_tallied htally), htally⟩
    | testStart =>
      cases hr
      have hstarted := @handleTestStart_quiet c.1 { c.2.test with state := .testStart } input.start
        h.queue h.noOmit
      exact ⟨⟨hstarted.queue, hstarted.noOmit⟩, handleTestStart_tally _ _ _⟩
    | exchangeResults =>
      obtain ⟨r', hr', rfl⟩ := Option.map_eq_some_iff.mp hr
      have htally : tally r'.2 = tally c.2.test := by
        unfold iperfExchangeResults at hr'
        split at hr'
        · split at hr'
          · have hframe := (getResults_frame hr').test
            have hbytes := congrArg IperfTest.bytesSent hframe
            have hblocks := congrArg IperfTest.blocksSent hframe
            have hsettings := congrArg IperfTest.settings hframe
            have homit := congrArg IperfTest.omitSeconds hframe
            dsimp only [exchangeFrame] at hbytes hblocks hsettings homit
            unfold tally countersOf
            rw [hbytes, hblocks, hsettings, homit]
          · cases hr'
            rfl
        · cases hr'
          rfl
      exact ⟨h.same rfl (congr_tallied htally), htally⟩
    | _ =>
      cases hr
      exact ⟨⟨h.queue, h.noOmit⟩, rfl⟩

/-- A control message transfers nothing and begins no omission. -/
theorem clientMessage_tally {env : ℕ → CallbackInput} {input : TurnInput} {c : Client}
    {r : Bool × Client} (h : NoOmission c) (hr : clientMessage env input c = some r) :
    NoOmission r.2 ∧ tally r.2.2.test = tally c.2.test := by
  unfold clientMessage at hr
  split at hr
  · exact handleMessage_tally h hr
  · cases hr
    exact ⟨h, rfl⟩

/-- Counting results on equal counts gives equal counts. -/
theorem tallied_congr {results : List ℕ} {test test' : IperfTest} (h : tally test' = tally test) :
    tallied results test' = tallied results test := by
  have hcounters := congrArg (fun t => t.1) h
  have hsettings := congrArg (fun t => t.2.1) h
  have homit := congrArg (fun t => t.2.2) h
  dsimp only [tally] at hcounters hsettings homit
  unfold tallied
  rw [hcounters, hsettings, homit]

/-- What a turn counts up to its test for the end. -/
theorem testedClient_tally {platform : Platform} {env : ℕ → CallbackInput} {input : TurnInput}
    {c ended : Client} (h : NoOmission c)
    (htested : testedClient platform env input c = some ended) :
    NoOmission ended ∧ tally ended.2.test = tallied (turnResults env input c) c.2.test := by
  obtain ⟨r, hmessage, hwork⟩ := Option.bind_eq_some_iff.mp htested
  obtain ⟨hquiet, htally⟩ := clientMessage_tally h hmessage
  split at hwork
  · rename_i hrunning
    have hresults : turnResults env input c = transferResults input.round r.2.2.test := by
      obtain ⟨done, c'⟩ := r
      obtain rfl : done = true := hrunning.1
      unfold turnResults
      rw [hmessage]
      exact if_pos hrunning.2.1
    have htransfer := transfer_tally input.round r.2.2.test
    have hbefore : NoOmission (Client.withTest r.2 (transfer input.round r.2.2.test).2) :=
      hquiet.same rfl htransfer
    obtain ⟨hover, hrun⟩ := tmrRun_tally hbefore hwork
    refine ⟨hover, hrun.trans (htransfer.trans ?_)⟩
    rw [hresults, tallied_congr htally]
  · cases hwork

/-- A turn counts its results: each transfer adds one block and as many bytes as its call
returned. The timers that fire in the turn count nothing. -/
theorem clientTurn_tally {platform : Platform} {env : ℕ → CallbackInput} {input : TurnInput}
    {c : Client} {r : Bool × Client} (h : NoOmission c)
    (hr : clientTurn platform env input c = some r) :
    NoOmission r.2 ∧ tally r.2.2.test = tallied (turnResults env input c) c.2.test := by
  obtain ⟨⟨done, c'⟩, hmessage, hwork⟩ := Option.bind_eq_some_iff.mp hr
  obtain ⟨hquiet, htally⟩ := clientMessage_tally h hmessage
  dsimp only at hquiet htally hwork
  have htransfer := transfer_tally input.round c'.2.test
  have hbefore : NoOmission (Client.withTest c' (transfer input.round c'.2.test).2) :=
    hquiet.same rfl htransfer
  have hafter : tally (Client.withTest c' (transfer input.round c'.2.test).2).2.test =
      tallied (transferResults input.round c'.2.test) c.2.test := by
    rw [← tallied_congr htally]
    exact htransfer
  unfold turnResults
  rw [hmessage]
  cases done with
  | false =>
    cases hwork
    exact ⟨hquiet, htally⟩
  | true =>
    dsimp only
    rw [if_pos rfl] at hwork
    unfold clientWork at hwork
    split at hwork
    · rename_i hrunning
      rw [if_pos hrunning]
      dsimp only at hwork
      split at hwork
      · obtain ⟨ended, hrun, rfl⟩ := Option.map_eq_some_iff.mp hwork
        obtain ⟨hover, hsame⟩ := tmrRun_tally hbefore hrun
        split
        · have hend : tally (endTest platform env input.cpuUtil ended).2.test =
              tally ended.2.test := rfl
          exact ⟨hover.same rfl (congr_tallied hend), hend.trans (hsame.trans hafter)⟩
        · exact ⟨hover, hsame.trans hafter⟩
      · cases hwork
        exact ⟨hbefore, hafter⟩
    · rename_i hrunning
      rw [if_neg hrunning]
      split at hwork
      · rename_i hended
        cases hwork
        unfold drain
        cases hreverse : c'.2.test.reverse with
        | true =>
          rw [hended]
          exact ⟨hbefore, hafter⟩
        | false =>
          rw [hended]
          exact ⟨hquiet, htally⟩
      · rename_i hended
        cases hwork
        have hidle : ¬(decide (c'.2.test.state = .testEnd) && c'.2.test.reverse) = true := by
          rw [decide_eq_false hended]
          exact Bool.false_ne_true
        rw [if_neg hidle]
        exact ⟨hquiet, htally⟩

/-- A run counts the results of its turns, by induction on the turns; without an omit period
nothing ever sets the counts back. -/
theorem afterTurns_tally {platform : Platform} {env : ℕ → CallbackInput} {inputs : List TurnInput}
    {start c : Client} (h : NoOmission start)
    (hrun : afterTurns platform env inputs start = some c) :
    NoOmission c ∧
      tally c.2.test = tallied (runResults platform env inputs start) start.2.test := by
  induction inputs generalizing start with
  | nil =>
    cases hrun
    exact ⟨h, rfl⟩
  | cons input rest ih =>
    rw [afterTurns] at hrun
    split at hrun
    · cases hrun
    · obtain ⟨r, hr, hrest⟩ := Option.bind_eq_some_iff.mp hrun
      obtain ⟨hturn, htally⟩ := clientTurn_tally h hr
      split at hrest
      · obtain ⟨hafter, hmore⟩ := ih hturn hrest
        refine ⟨hafter, hmore.trans ?_⟩
        rw [runResults, hr]
        unfold tallied
        have hcounters := congrArg (fun t => t.1) htally
        have hothers := congrArg (fun t => t.2) htally
        dsimp only [tally, tallied] at hcounters hothers
        rw [hcounters, hothers, List.foldl_append]
      · cases hrest

/-- The turns of `afterTurns` are turns of the loop. -/
theorem afterTurns_turns {platform : Platform} {env : ℕ → CallbackInput} {inputs : List TurnInput}
    {start c : Client} (hrun : afterTurns platform env inputs start = some c) :
    clientTurns platform env inputs start = some c := by
  induction inputs generalizing start with
  | nil => exact hrun
  | cons input rest ih =>
    rw [afterTurns] at hrun
    rw [clientTurns]
    split at hrun
    · cases hrun
    · rename_i hstate
      obtain ⟨r, hr, hrest⟩ := Option.bind_eq_some_iff.mp hrun
      rw [if_neg hstate, hr]
      split at hrest
      · rename_i hgoes
        dsimp only [Option.bind_some]
        rw [if_pos hgoes]
        exact ih hrest
      · cases hrest

/-- A test that is over makes the turn send `TEST_END`. -/
theorem clientTurn_ends {platform : Platform} {env : ℕ → CallbackInput} {input : TurnInput}
    {c ended : Client} (htested : testedClient platform env input c = some ended)
    (hover : testOver ended.2.test = true) :
    clientTurn platform env input c =
      some (input.sent, endTest platform env input.cpuUtil ended) := by
  obtain ⟨r, hmessage, hwork⟩ := Option.bind_eq_some_iff.mp htested
  split at hwork
  · rename_i hrunning
    unfold clientTurn clientWork
    rw [hmessage]
    dsimp only [Option.bind_some]
    rw [if_pos hrunning.1, if_pos hrunning.2.1, if_pos hrunning.2.2, hwork, Option.map_some,
      if_pos hover]
  · cases hwork

section End

variable {platform : Platform} {env : ℕ → CallbackInput} {start c ended : Client}
  {inputs : List TurnInput} {input : TurnInput}

/-- A run that ends by its blocks ends with a test that is over. -/
theorem EndsByBlocks.testOver (h : EndsByBlocks platform env start inputs input c ended) :
    ClientRun.testOver ended.2.test = true := by
  unfold ClientRun.testOver
  rw [h.omitting, bne_iff_ne.mpr h.limited, decide_eq_true h.reached]
  simp

/-- At the end of a run the counters are the sum and the number of its transfers. -/
theorem EndsByBlocks.counters (h : EndsByBlocks platform env start inputs input c ended)
    (hstart : Fresh start) :
    ended.2.test.bytesSent = (transfers platform env start inputs input c).sum ∧
      ended.2.test.blocksSent = (transfers platform env start inputs input c).length := by
  obtain ⟨hbefore, hrun⟩ := afterTurns_tally hstart.noOmission h.before
  obtain ⟨-, hturn⟩ := testedClient_tally hbefore h.tested
  have hcounters := congrArg (fun t => t.1) hrun
  have hlast := congrArg (fun t => t.1) hturn
  dsimp only [tally, tallied] at hcounters hlast
  rw [hcounters, ← List.foldl_append, foldl_advance] at hlast
  have hbytes := congrArg Counters.bytes hlast
  have hblocks := congrArg Counters.blocks hlast
  dsimp only [countersOf] at hbytes hblocks
  rw [hstart.bytes, Nat.zero_add] at hbytes
  rw [hstart.blocks, Nat.zero_add] at hblocks
  exact ⟨hbytes, hblocks⟩

end End

/-- Every transfer is of a whole block. -/
def Whole (blksize : ℤ) (results : List ℕ) : Prop := ∀ r ∈ results, (r : ℤ) = blksize

/-- The bytes of the given number of blocks have been transferred. -/
def Transferred (blocks : ℕ) (blksize : ℤ) (results : List ℕ) : Prop :=
  blocks * blksize ≤ (results.sum : ℕ)

/-- Results of whole blocks add up to as many blocks as there are results. -/
theorem Whole.sum {blksize : ℤ} {results : List ℕ} (h : Whole blksize results) :
    ((results.sum : ℕ) : ℤ) = results.length * blksize := by
  induction results with
  | nil => simp
  | cons r rest ih =>
    have hr := h r List.mem_cons_self
    have hrest := ih fun r hr => h r (List.mem_cons_of_mem _ hr)
    rw [List.sum_cons, List.length_cons, Nat.cast_add, Nat.cast_succ]
    rw [hrest, hr]
    ring

/-- Results within a block add up to whole blocks only when each is one. -/
theorem whole_of_sum {blksize : ℤ} {results : List ℕ} (hbound : ∀ r ∈ results, (r : ℤ) ≤ blksize) :
    ((results.sum : ℕ) : ℤ) ≤ results.length * blksize ∧
      (results.length * blksize ≤ ((results.sum : ℕ) : ℤ) → Whole blksize results) := by
  induction results with
  | nil => exact ⟨by simp, fun _ r hr => absurd hr List.not_mem_nil⟩
  | cons r rest ih =>
    have hr := hbound r List.mem_cons_self
    obtain ⟨hle, hwhole⟩ := ih fun r hr => hbound r (List.mem_cons_of_mem _ hr)
    rw [List.sum_cons, List.length_cons, Nat.cast_add, Nat.cast_succ]
    constructor
    · linarith
    · intro hsum
      have hrest := hwhole (by linarith)
      have hfirst : (r : ℤ) = blksize := by linarith
      intro r' hr'
      rcases List.mem_cons.mp hr' with rfl | hr'
      · exact hfirst
      · exact hrest r' hr'

/-- When `TEST_END` is sent because of the blocks, they have been transferred if every transfer was
of a whole block; where the count was met with the last block, only then. -/
theorem endsByBlocks_transferred {platform : Platform} {env : ℕ → CallbackInput}
    {start c ended : Client} {inputs : List TurnInput} {input : TurnInput} (hstart : Fresh start)
    (h : EndsByBlocks platform env start inputs input c ended) :
    let blocks := ended.2.test.settings.blocks
    let blksize := ended.2.test.settings.blksize
    let results := transfers platform env start inputs input c
    (Whole blksize results → Transferred blocks blksize results) ∧
      ((∀ r ∈ results, (r : ℤ) ≤ blksize) → ended.2.test.blocksSent = blocks →
        (Transferred blocks blksize results ↔ Whole blksize results)) := by
  obtain ⟨-, hcount⟩ := h.counters hstart
  have hreached := h.reached
  rw [hcount] at hreached
  dsimp only
  rw [hcount]
  have hwhole : Whole ended.2.test.settings.blksize (transfers platform env start inputs input c) →
      Transferred ended.2.test.settings.blocks ended.2.test.settings.blksize
        (transfers platform env start inputs input c) := by
    intro hall
    unfold Transferred
    rw [hall.sum]
    have hsome : transfers platform env start inputs input c ≠ [] := by
      intro hnone
      rw [hnone, List.length_nil] at hreached
      exact h.limited (Nat.le_zero.mp hreached)
    obtain ⟨r, hr⟩ := List.exists_mem_of_ne_nil _ hsome
    have hpos : 0 ≤ ended.2.test.settings.blksize := by
      rw [← hall r hr]
      exact Int.natCast_nonneg r
    have hcast : (ended.2.test.settings.blocks : ℤ) ≤
        (transfers platform env start inputs input c).length := by exact_mod_cast hreached
    exact mul_le_mul_of_nonneg_right hcast hpos
  refine ⟨hwhole, ?_⟩
  intro hbound hexact
  refine ⟨?_, hwhole⟩
  intro htransferred
  unfold Transferred at htransferred
  rw [← hexact] at htransferred
  exact (whole_of_sum hbound).2 htransferred

/-- A client with one stream and ten blocks of a thousand bytes to send. -/
def tenBlocksTest : IperfTest :=
  { role := .client, sender := true, numStreams := 1, multisend := 10, affinity := -1,
    settings := { blksize := 1000, blocks := 10 } }

def tenBlocksClient : Client := ({}, { test := tenBlocksTest })

/-- The client of the ten blocks has just been set up. -/
theorem tenBlocksClient_fresh : Fresh tenBlocksClient where
  noOmission := ⟨⟨valid_empty, fun _ _ h => absurd h (by simp [Active, tenBlocksClient])⟩, rfl⟩
  bytes := rfl
  blocks := rfl

/-- Its turns in front of the first transfer. -/
def startTurns : List TurnInput := [messageTurn .createStreams 0, messageTurn .testStart 0]

/-- What the transfer of its first turn in `TEST_RUNNING` comes to. -/
def firstTransfer (written : ℤ) : Option (List ℕ × Bool × IperfSettings × ℕ) :=
  (afterTurns ⟨false, false, fun h => h⟩ quietCallbacks startTurns tenBlocksClient).bind fun c =>
    (testedClient ⟨false, false, fun h => h⟩ quietCallbacks (messageTurn .testRunning written)
      c).map fun ended =>
        (transfers ⟨false, false, fun h => h⟩ quietCallbacks tenBlocksClient startTurns
          (messageTurn .testRunning written) c, decide (c.2.test.state ≠ .iperfDone) &&
            !ended.2.test.omitting, ended.2.test.settings, ended.2.test.blocksSent)

/-- A first transfer that reaches its last block is a run that ends by its blocks. -/
theorem firstTransfer_ends {written : ℤ} {results : List ℕ}
    (h : firstTransfer written = some (results, true, tenBlocksTest.settings, 10)) :
    ∃ c ended, EndsByBlocks ⟨false, false, fun h => h⟩ quietCallbacks tenBlocksClient startTurns
        (messageTurn .testRunning written) c ended ∧
      ended.2.test.settings = tenBlocksTest.settings ∧ ended.2.test.blocksSent = 10 ∧
      transfers ⟨false, false, fun h => h⟩ quietCallbacks tenBlocksClient startTurns
        (messageTurn .testRunning written) c = results := by
  obtain ⟨c, hbefore, hmore⟩ := Option.bind_eq_some_iff.mp h
  obtain ⟨ended, htested, hfigures⟩ := Option.map_eq_some_iff.mp hmore
  obtain ⟨hresults, hstate, hsettings, hblocks⟩ := by simpa only [Prod.mk.injEq] using hfigures
  obtain ⟨hrunning, homitting⟩ := Bool.and_eq_true_iff.mp hstate
  refine ⟨c, ended, ⟨hbefore, of_decide_eq_true hrunning, htested, ?_, ?_, ?_⟩, hsettings, hblocks,
    hresults⟩
  · simpa using homitting
  · rw [hsettings]
    decide
  · rw [hsettings, hblocks]
    decide

/-- The ten `Nwrite`s of its first `iperf_send` end the test; here each of them writes its block. -/
theorem wholeBlocks_transferred :
    ∃ c ended, EndsByBlocks ⟨false, false, fun h => h⟩ quietCallbacks tenBlocksClient startTurns
        (messageTurn .testRunning 1000) c ended ∧
      Transferred 10 1000 (transfers ⟨false, false, fun h => h⟩ quietCallbacks tenBlocksClient
        startTurns (messageTurn .testRunning 1000) c) := by
  have hrun : firstTransfer 1000 =
      some (List.replicate 10 1000, true, tenBlocksTest.settings, 10) := by decide +kernel
  obtain ⟨c, ended, hends, hsettings, -, hresults⟩ := firstTransfer_ends hrun
  have hmet := endsByBlocks_transferred tenBlocksClient_fresh hends
  dsimp only at hmet
  rw [hsettings, hresults] at hmet
  refine ⟨c, ended, hends, ?_⟩
  rw [hresults]
  refine hmet.1 ?_
  unfold Whole
  decide

/-- They end it as well when the socket is full and each of them writes nothing: every one
counts as a block, and nothing has been transferred. -/
theorem emptyBlocks_not_transferred :
    ¬∀ (platform : Platform) (env : ℕ → CallbackInput) (start c ended : Client)
        (inputs : List TurnInput) (input : TurnInput), Fresh start →
      EndsByBlocks platform env start inputs input c ended →
        Transferred ended.2.test.settings.blocks ended.2.test.settings.blksize
          (transfers platform env start inputs input c) := by
  intro hall
  have hrun : firstTransfer 0 =
      some (List.replicate 10 0, true, tenBlocksTest.settings, 10) := by decide +kernel
  obtain ⟨c, ended, hends, hsettings, -, hresults⟩ := firstTransfer_ends hrun
  have hmet := hall _ _ _ _ _ _ _ tenBlocksClient_fresh hends
  rw [hsettings, hresults] at hmet
  unfold Transferred at hmet
  exact absurd hmet (by decide)

end IperfRuntime.BlockCount
