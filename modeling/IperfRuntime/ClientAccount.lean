import IperfRuntime.ByteConservation
import IperfRuntime.IntervalAlternation
import IperfRuntime.ResultsOverwrite
import IperfRuntime.TimerOwnership

/-!
# The account of an upload

A client that sends, from `CREATE_STREAMS` to the report of `iperf_client_end`. The timer
that ends the omit period is there only while the test omits, so the account starts over at
most once, and the last tick leaves nothing outside the entries. The intervals that are
printed add up to the bytes of the final report. Runs that break off before the report are
left out, and so are streams in the other direction.
-/

namespace IperfRuntime.ClientAccount

open ClockReading JsonTree TimerQueue TimerEntries TimerOwnership TestState StreamTraffic
  TrafficFrame IntervalStats ByteConservation StreamCreation ResultsExchange ResultsFrame
  ResultsOverwrite ReportOutput ClientTimers ClientRun IntervalAlternation

/-- A test that sends and accounts for what it sends. -/
structure Uploads (test : IperfTest) : Prop where
  sender : test.sender = true
  reverse : test.reverse = false
  /-- The omit timer is there only while the test omits. -/
  omitting : test.omitTimer.isSome = true → test.omitting = true
  conserved : EndConserved test

/-- Two tests with the same account. -/
structure SameAccount (test test' : IperfTest) : Prop where
  sender : test'.sender = test.sender
  reverse : test'.reverse = test.reverse
  omitTimer : test'.omitTimer = test.omitTimer
  omitting : test'.omitting = test.omitting
  bytesSent : test'.bytesSent = test.bytesSent
  results : test'.streams.map (·.result) = test.streams.map (·.result)

/-- A client that sends and owns its timers. -/
def Accounted (c : Client) : Prop := OwnedClient c ∧ Uploads c.2.test

variable {test test' : IperfTest} {c c' : Client} {platform : Platform}
  {env : ℕ → CallbackInput}

/-- The account reads the results of the streams and three fields of the test. -/
theorem conserved_same (h : EndConserved test) (hsender : test'.sender = test.sender)
    (homitting : test'.omitting = test.omitting) (hbytes : test'.bytesSent = test.bytesSent)
    (hresults : test'.streams.map (·.result) = test.streams.map (·.result)) :
    EndConserved test' := by
  unfold EndConserved
  rw [hsender, homitting, hbytes]
  constructor
  · intro sp hsp
    have hmem : sp.result ∈ test.streams.map (·.result) := by
      rw [← hresults]
      exact List.mem_map_of_mem hsp
    obtain ⟨sp', hsp', heq⟩ := List.mem_map.mp hmem
    rw [← heq]
    exact h.stream sp' hsp'
  · have hmeasured : ∀ l : List IperfStream,
        l.map (fun sp => measuredBytes test.sender sp.result) =
          (l.map (·.result)).map (measuredBytes test.sender) := by
      intro l
      rw [List.map_map]
      rfl
    rw [hmeasured, hresults, ← hmeasured]
    exact h.total

/-- What keeps the account of a client keeps it uploading. -/
theorem Uploads.same (h : Uploads test) (hs : SameAccount test test') : Uploads test' where
  sender := hs.sender.trans h.sender
  reverse := hs.reverse.trans h.reverse
  omitting := by
    rw [hs.omitTimer, hs.omitting]
    exact h.omitting
  conserved := conserved_same h.conserved hs.sender hs.omitting hs.bytesSent hs.results

/-- `iperf_send` keeps it uploading. -/
theorem Uploads.send (h : Uploads test) (sendEnv : SendEnv) (writeSetP : Option (Finset ℤ)) :
    Uploads (iperfSend sendEnv writeSetP test).test := by
  have hconserved := h.conserved
  unfold EndConserved at hconserved
  rw [h.sender] at hconserved
  have hloop := iperfSend_invariant sendEnv writeSetP ⟨SameEnd.refl test, hconserved, rfl⟩
  have hframe := (iperfSend_frame sendEnv writeSetP test).test
  have hreverse := congrArg IperfTest.reverse hframe
  have htimer := congrArg IperfTest.omitTimer hframe
  change (iperfSend sendEnv writeSetP test).test.reverse = test.reverse at hreverse
  change (iperfSend sendEnv writeSetP test).test.omitTimer = test.omitTimer at htimer
  refine ⟨hloop.same.sender.trans h.sender, hreverse.trans h.reverse, ?_, ?_⟩
  · rw [htimer, hloop.same.omitting]
    exact h.omitting
  · unfold EndConserved
    rw [hloop.same.sender, hloop.same.omitting, h.sender]
    exact hloop.conserved

/-- So does a round of reads and writes. -/
theorem Uploads.transfer (h : Uploads test) (input : RoundInput) :
    Uploads (transfer input test).2 := by
  unfold ClientRun.transfer
  rw [h.reverse, if_neg Bool.false_ne_true]
  exact h.send _ _

/-- So does the calculation of an interval. -/
theorem Uploads.tick (h : Uploads test) (samples : ℕ → Sample) :
    Uploads (iperfStatsCallback platform samples test) where
  sender := h.sender
  reverse := h.reverse
  omitting := h.omitting
  conserved := h.conserved.tick platform samples

/-- The end of omission starts the account over, and there is no second one. -/
theorem Uploads.reset (h : Uploads test) (homit : test.omitting = true) (now : Timeval)
    (samples : ℕ → Sample) : Uploads (endOmission now samples test) where
  sender := h.sender
  reverse := h.reverse
  omitting := fun hset => absurd hset Bool.false_ne_true
  conserved := h.conserved.reset homit now samples

/-- The timer of a stream's rate keeps the account. -/
theorem sameAccount_throttle (convert : PrintfText.Dbl → ℕ) (now : Timeval) (i : ℕ)
    (test : IperfTest) : SameAccount test (throttleStream convert now i test) := by
  unfold throttleStream
  split
  · rename_i sp hsp
    obtain ⟨hresult, htest⟩ := checkThrottle_result convert now test sp
    have hsender := congrArg IperfTest.sender htest
    have hreverse := congrArg IperfTest.reverse htest
    have htimer := congrArg IperfTest.omitTimer htest
    have homitting := congrArg IperfTest.omitting htest
    have hbytes := congrArg IperfTest.bytesSent htest
    refine ⟨hsender, hreverse, htimer, homitting, hbytes, ?_⟩
    dsimp only
    rw [List.map_set, hresult]
    refine List.ext_getElem? fun j => ?_
    by_cases hj : i = j
    · subst hj
      rw [List.getElem?_set_self', List.getElem?_map, hsp]
      rfl
    · rw [List.getElem?_set_ne hj]
  · exact ⟨rfl, rfl, rfl, rfl, rfl, rfl⟩

/-- Every callback, with what `tmr_run` does behind it. -/
theorem accounted_callback {now : Timeval} (c : Client) (h : Accounted c) (t : Timer ClientProc)
    (ht : t ∈ c.1.timers) :
    Accounted (finishTimer t.address (callClient platform env t.proc now c).1,
      (callClient platform env t.proc now c).2) := by
  refine ⟨ownedClient_callback c h.1 t ht, ?_⟩
  cases hproc : t.proc with
  | testTimer => exact h.2.same ⟨rfl, rfl, rfl, rfl, rfl, rfl⟩
  | stats =>
    dsimp only [callClient]
    split
    · exact h.2
    · exact h.2.tick _
  | reporter =>
    dsimp only [callClient]
    split
    · exact h.2
    · exact h.2
  | omission =>
    obtain ⟨-, hpointer, -⟩ := (h.1.active _ _ _).mp (active_of_mem ht)
    rw [hproc] at hpointer
    have hset : c.2.test.omitTimer = some t.address := hpointer
    exact h.2.reset (h.2.omitting (by rw [hset]; rfl)) _ _
  | send stream => exact h.2.same (sameAccount_throttle _ _ _ _)

/-- One turn of the loop. -/
theorem clientRound_accounted {input : RoundInput} (h : Accounted c)
    (hround : clientRound platform env input c = some c') : Accounted c' := by
  have htransfer : Accounted (c.1, { c.2 with test := (transfer input c.2.test).2 }) :=
    ⟨h.1.same (samePointers_transfer input c.2.test), h.2.transfer input⟩
  unfold clientRound at hround
  dsimp only at hround
  split at hround
  · exact tmrRun_invariant Accounted accounted_callback htransfer hround
  · cases hround

/-- All turns of the loop; the test is over behind the omit period only. -/
theorem clientRounds_accounted {rounds : List RoundInput} (h : Accounted c)
    (hrounds : clientRounds platform env rounds c = some c') :
    Accounted c' ∧ c'.2.test.omitting = false := by
  induction rounds generalizing c with
  | nil => cases hrounds
  | cons input rest ih =>
    obtain ⟨next, hround, hnext⟩ := Option.bind_eq_some_iff.mp hrounds
    have haccounted := clientRound_accounted h hround
    split at hnext
    · rename_i hover
      cases hnext
      unfold testOver at hover
      rw [Bool.and_eq_true, Bool.not_eq_true'] at hover
      exact ⟨haccounted, hover.1⟩
    · exact ih haccounted hnext

/-- The omit timer is created with the flag that it ends. -/
theorem createClientOmitTimer_flag {input : StartInput} {q : TimerLists ClientProc}
    (h : (createClientOmitTimer input q test).1 = true) :
    (createClientOmitTimer input q test).2.2.omitting = (test.omitSeconds != 0) ∧
      ((createClientOmitTimer input q test).2.2.omitTimer.isSome = true →
        (createClientOmitTimer input q test).2.2.omitting = true) := by
  unfold createClientOmitTimer at h ⊢
  split
  · rename_i hzero
    refine ⟨?_, fun hset => absurd hset Bool.false_ne_true⟩
    dsimp only
    rw [hzero]
    rfl
  · rename_i hne
    rw [if_neg hne] at h
    cases hclock : input.omitClock with
    | none =>
      rw [hclock] at h
      cases h
    | some now =>
      refine ⟨?_, fun _ => rfl⟩
      simpa using hne

/-- The handler of `TEST_START` opens the account: nothing is counted yet, and the test omits
exactly if its omit timer was created. -/
theorem handleTestStart_uploads {input : StartInput} {q : TimerLists ClientProc}
    (hfresh : Fresh test) (hsender : test.sender = true) (hreverse : test.reverse = false)
    (h : (handleTestStart input q test).1 = true) : Uploads (handleTestStart input q test).2.2 := by
  cases hclock : input.initClock with
  | none =>
    unfold handleTestStart at h
    rw [hclock] at h
    cases h
  | some now =>
    have hsets := handleTestStart_sets hclock q test
    have hsender' := congrArg IperfTest.sender hsets
    have hreverse' := congrArg IperfTest.reverse hsets
    have hbytes := congrArg IperfTest.bytesSent hsets
    change (handleTestStart input q test).2.2.sender = test.sender at hsender'
    change (handleTestStart input q test).2.2.reverse = test.reverse at hreverse'
    change (handleTestStart input q test).2.2.bytesSent = test.bytesSent at hbytes
    have hstreams := congrArg (fun test => test.streams.map (·.result)) hsets
    dsimp only [testAtStart] at hstreams
    rw [List.map_map, List.map_map] at hstreams
    have hresults : (handleTestStart input q test).2.2.streams.map (·.result) =
        (startTest now test).streams.map (·.result) := hstreams
    have hflag : (handleTestStart input q test).2.2.omitting = (test.omitSeconds != 0) ∧
        ((handleTestStart input q test).2.2.omitTimer.isSome = true →
          (handleTestStart input q test).2.2.omitting = true) := by
      unfold handleTestStart at h ⊢
      rw [hclock] at h ⊢
      dsimp only at h ⊢
      obtain ⟨hboth, heq⟩ := andThen_true h
      obtain ⟨-, heq'⟩ := andThen_true hboth
      have homit := congrArg IperfTest.omitSeconds
        (createClientTimers_sets input q (iperfInitTest now test))
      change (createClientTimers input q (iperfInitTest now test)).2.2.omitSeconds =
        test.omitSeconds at homit
      rw [heq'] at hboth
      have hcreated := createClientOmitTimer_flag hboth
      rw [homit] at hcreated
      rw [heq, heq']
      split
      · exact hcreated
      · unfold iperfCreateSendTimers
        split
        · exact hcreated
        · exact hcreated
    have hstart := (RunInvariant.start hfresh ⟨true, true, fun _ => rfl⟩ now).conserved
    exact ⟨hsender'.trans hsender, hreverse'.trans hreverse, hflag.2,
      conserved_same hstart hsender' hflag.1 hbytes hresults⟩

/-- A run enters its rounds with an open account. Its queue holds the timers that the handler
created and no other. -/
theorem startRun_accounted {input : RunInput} {q : TimerLists ClientProc} (hq : q.Valid)
    (hempty : q.timers = []) (hnone : NoTimers test) (hstreams : test.streams = [])
    (hsender : test.sender = true) (hreverse : test.reverse = false) (hbytes : test.bytesSent = 0)
    (h : startRun input q test = some c) : Accounted c := by
  obtain ⟨hframe, added, hadded, hfresh, -⟩ := createStreamsFrom_spec input.streams test.bindPort
    test.numStreams.toNat 0 { test with state := .createStreams }
  have hnew : ∀ sp ∈ (iperfCreateStreams input.streams
      { test with state := .createStreams }).2.1.streams, FreshStream sp := by
    intro sp hsp
    unfold iperfCreateStreams at hsp
    dsimp only at hsp
    rw [hadded] at hsp
    rcases List.mem_append.mp hsp with hold | hnew
    · change sp ∈ test.streams at hold
      rw [hstreams] at hold
      cases hold
    · exact hfresh sp hnew
  unfold startRun at h
  dsimp only at h
  split at h
  · rename_i hboth
    rw [Bool.and_eq_true] at hboth
    have htimer := congrArg IperfTest.timer hframe
    have hstats := congrArg IperfTest.statsTimer hframe
    have hreporter := congrArg IperfTest.reporterTimer hframe
    have homit := congrArg IperfTest.omitTimer hframe
    have hsent := congrArg IperfTest.bytesSent hframe
    have hsends := congrArg IperfTest.sender hframe
    have hdirection := congrArg IperfTest.reverse hframe
    have hclear : NoTimers { (iperfCreateStreams input.streams
        { test with state := .createStreams }).2.1 with state := .testStart } :=
      ⟨Eq.trans htimer hnone.timer, Eq.trans hstats hnone.statsTimer,
        Eq.trans hreporter hnone.reporterTimer, Eq.trans homit hnone.omitTimer,
        fun sp hsp => (hnew sp hsp).sendTimer⟩
    have hunmoved : Fresh { (iperfCreateStreams input.streams
        { test with state := .createStreams }).2.1 with state := .testStart } :=
      ⟨Eq.trans hsent hbytes, fun sp hsp => (hnew sp hsp).result⟩
    have howned := handleTestStart_owned (owned_empty hq hempty hclear.pointerOf) input.start
      (Or.inr (Or.inr hclear))
    have huploads := handleTestStart_uploads hunmoved (Eq.trans hsends hsender)
      (Eq.trans hdirection hreverse) hboth.2
    cases h
    exact ⟨howned.same fun _ => rfl, huploads.same ⟨rfl, rfl, rfl, rfl, rfl, rfl⟩⟩
  · cases h

/-- An account without an interval in progress. -/
structure Settled (test : IperfTest) : Prop where
  stream : ∀ sp ∈ test.streams, sp.result.bytesSentOmit ≤ sp.result.bytesSent ∧
    keptBytes sp.result = sp.result.bytesSent - sp.result.bytesSentOmit
  total : (test.streams.map fun sp => sp.result.bytesSent - sp.result.bytesSentOmit).sum =
    test.bytesSent

/-- What the account of a sender reads of a stream. -/
def sentAccount (sp : IperfStream) : List IperfIntervalResults × ℕ × ℕ :=
  (sp.result.intervalResults, sp.result.bytesSent, sp.result.bytesSentOmit)

/-- An account is settled by its bytes alone, so whatever keeps the bytes of the test and of
its streams keeps it settled. -/
theorem Settled.same (h : Settled test) (hbytes : test'.bytesSent = test.bytesSent)
    (hstreams : test'.streams.map sentAccount = test.streams.map sentAccount) :
    Settled test' where
  stream := by
    intro sp hsp
    have hmem : sentAccount sp ∈ test.streams.map sentAccount := by
      rw [← hstreams]
      exact List.mem_map_of_mem hsp
    obtain ⟨sp', hsp', heq⟩ := List.mem_map.mp hmem
    have hentries : sp'.result.intervalResults = sp.result.intervalResults := congrArg Prod.fst heq
    have hsent : sp'.result.bytesSent = sp.result.bytesSent := congrArg (·.2.1) heq
    have homit : sp'.result.bytesSentOmit = sp.result.bytesSentOmit := congrArg (·.2.2) heq
    have hstream := h.stream sp' hsp'
    unfold keptBytes keptIntervals at hstream ⊢
    rw [hentries, hsent, homit] at hstream
    exact hstream
  total := by
    have hnet : ∀ l : List IperfStream,
        l.map (fun sp => sp.result.bytesSent - sp.result.bytesSentOmit) =
          (l.map sentAccount).map fun a => a.2.1 - a.2.2 := by
      intro l
      rw [List.map_map]
      rfl
    rw [hnet, hstreams, ← hnet, hbytes]
    exact h.total

/-- A tick behind the omit period settles the account. -/
theorem Uploads.settled (h : Uploads test) (homit : test.omitting = false)
    (samples : ℕ → Sample) : Settled (iperfStatsCallback platform samples test) := by
  have hticked : Uploads (iperfStatsCallback platform samples test) := h.tick samples
  constructor
  · intro sp hsp
    have hcurrent : currentBytes true sp.result = 0 := by
      obtain ⟨i, hi, rfl⟩ := List.mem_mapIdx.mp hsp
      rfl
    have hstream := hticked.conserved.stream sp hsp
    have hkept := hstream.bytes homit
    rw [hticked.sender, hcurrent, Nat.add_zero] at hkept
    exact ⟨hstream.omit_le, hkept⟩
  · have htotal := hticked.conserved.total
    rw [hticked.sender] at htotal
    exact htotal

/-- An upload reads nothing after its end. -/
theorem drains_upload {inputs : List RoundInput} (hreverse : test.reverse = false)
    (h : drains inputs test = some test') : test' = test := by
  induction inputs with
  | nil =>
    cases h
    rfl
  | cons input rest ih =>
    have hdrain : drain input test = (true, test) := by
      unfold drain
      rw [hreverse, if_neg Bool.false_ne_true]
    rw [drains, hdrain, if_pos rfl] at h
    exact ih h

/-- The figures of a receiver leave the account of a sender alone. -/
theorem exchangeResults_settled {peer : CJson} (h : Settled test) (hsender : test.sender = true)
    (hexchange : exchangeResults peer test = some test') : Settled test' := by
  unfold exchangeResults at hexchange
  split at hexchange
  · rename_i hresults
    cases hexchange
    have hstreams := getResults_streams hresults
    have hbytes := congrArg IperfTest.bytesSent (getResults_frame hresults).test
    refine h.same hbytes ?_
    dsimp only at hstreams
    rw [hstreams, hsender]
    exact applyItems_map (fun _ _ => rfl) _ _
  · cases hexchange

/-- A run of an upload ends in a report on a settled account. -/
theorem clientRun_settled {input : RunInput} {q : TimerLists ClientProc} (hq : q.Valid)
    (hempty : q.timers = []) (hnone : NoTimers test) (hstreams : test.streams = [])
    (hsender : test.sender = true) (hreverse : test.reverse = false) (hbytes : test.bytesSent = 0)
    (h : clientRun platform input q test = some c) :
    ∃ final output, c.2.executions.getLast? = some (.report final output) ∧
      final.state = .displayResults ∧ final.streams = c.2.test.streams ∧ Settled final := by
  obtain ⟨started, hstart, hrest⟩ := Option.bind_eq_some_iff.mp h
  obtain ⟨ran, hrounds, hfinish⟩ := Option.bind_eq_some_iff.mp hrest
  obtain ⟨drained, hdrains, hexchanged⟩ := Option.bind_eq_some_iff.mp hfinish
  obtain ⟨exchanged, hexchange, rfl⟩ := Option.map_eq_some_iff.mp hexchanged
  have haccounted := startRun_accounted hq hempty hnone hstreams hsender hreverse hbytes hstart
  obtain ⟨hran, homit⟩ := clientRounds_accounted haccounted hrounds
  have hdone : Uploads { ran.2.test with done := true, cpuUtil := input.cpuUtil } :=
    hran.2.same ⟨rfl, rfl, rfl, rfl, rfl, rfl⟩
  have hsettled : Settled (iperfStatsCallback platform (input.callbacks ran.2.calls).samples
      { ran.2.test with done := true, cpuUtil := input.cpuUtil }) := hdone.settled homit _
  have hended : Settled (endTest platform input.callbacks input.cpuUtil ran).2.test :=
    hsettled.same rfl rfl
  have hkeeps : drained = (endTest platform input.callbacks input.cpuUtil ran).2.test :=
    drains_upload hdone.reverse hdrains
  rw [hkeeps] at hexchange
  have hexchanged := exchangeResults_settled hended hdone.sender hexchange
  exact ⟨{ exchanged with state := .displayResults }, _, List.getLast?_concat, rfl, rfl,
    hexchanged.same rfl rfl⟩

/-- The bytes reported are those counted, less the omitted ones. -/
theorem sentOf_eq {sp : IperfStream} (homit : sp.result.bytesSentOmit ≤ sp.result.bytesSent)
    (hsent : sp.result.bytesSent < 2 ^ 64) :
    sentOf sp = sp.result.bytesSent - sp.result.bytesSentOmit := by
  have hnonneg : (0 : ℤ) ≤ (sp.result.bytesSent : ℤ) - sp.result.bytesSentOmit := by omega
  have hlt : (sp.result.bytesSent : ℤ) - sp.result.bytesSentOmit < 2 ^ 64 := by omega
  unfold sentOf sub64
  rw [Int.emod_eq_of_lt hnonneg hlt]
  omega

/-- The total that `iperf_print_results` adds up. -/
theorem totalSent_foldl (test : IperfTest) (streams : List IperfStream) (s : ResultSums) :
    (streams.foldl (addResult test) s).totalSent = s.totalSent + (streams.map sentOf).sum := by
  induction streams generalizing s with
  | nil => rfl
  | cons sp streams ih =>
    have hadd : (addResult test s sp).totalSent = s.totalSent + sentOf sp := by
      unfold addResult
      dsimp only
      split
      · split
        · rfl
        · rfl
      · rfl
    rw [List.foldl_cons, ih, hadd, List.map_cons, List.sum_cons, Nat.add_assoc]

/-- The bytes of the printed intervals that are not marked as omitted. -/
def printedBytes (i : ℕ) (log : List Execution) : ℕ :=
  (((printedEntries i log).filter fun irp => !irp.omitted).map (·.bytesTransferred)).sum

/-- In a run of an upload that ends normally, whatever was omitted, throttled and written in parts,
the intervals that were printed for a stream add up to the bytes that the final report shows for
it, and the total of that report is what the test has counted. -/
theorem upload_adds_up {input : RunInput} {q : TimerLists ClientProc} (hq : q.Valid)
    (hempty : q.timers = []) (hnone : NoTimers test) (hstreams : test.streams = [])
    (hsender : test.sender = true) (hreverse : test.reverse = false) (hbytes : test.bytesSent = 0)
    (hsame : test.statsInterval = test.reporterInterval) (hpos : test.statsInterval ≠ 0)
    (h : clientRun platform input q test = some c)
    (hwrap : ∀ sp ∈ c.2.test.streams, sp.result.bytesSent < 2 ^ 64) :
    ∃ final output, c.2.executions.getLast? = some (.report final output) ∧
      final.state = .displayResults ∧ final.streams = c.2.test.streams ∧
      (∀ i sp, final.streams[i]? = some sp → printedBytes i c.2.executions = sentOf sp) ∧
      (final.streams.foldl (addResult final) {}).totalSent = final.bytesSent := by
  obtain ⟨final, output, hlast, hstate, hfinal, hsettled⟩ :=
    clientRun_settled hq hempty hnone hstreams hsender hreverse hbytes h
  obtain ⟨started, hstart, hrest⟩ := Option.bind_eq_some_iff.mp h
  obtain ⟨ran, hrounds, hfinish⟩ := Option.bind_eq_some_iff.mp hrest
  obtain ⟨a, b, usecs, hrunning⟩ := startRun_running hq hempty hstreams hsame hpos hstart
  have hrecorded := finishRun_recorded (clientRounds_running hrunning hrounds).2.recorded hfinish
  have hnet : ∀ sp ∈ final.streams,
      sentOf sp = sp.result.bytesSent - sp.result.bytesSentOmit := by
    intro sp hsp
    exact sentOf_eq (hsettled.stream sp hsp).1 (hwrap sp (hfinal ▸ hsp))
  refine ⟨final, output, hlast, hstate, hfinal, ?_, ?_⟩
  · intro i sp hsp
    have hmem := List.mem_of_getElem? hsp
    have hkept := (hsettled.stream sp hmem).2
    rw [hfinal] at hsp
    unfold printedBytes
    rw [hrecorded.entries i sp hsp, hnet sp hmem, ← hkept]
    rfl
  · rw [totalSent_foldl, List.map_congr_left hnet, hsettled.total]
    exact Nat.zero_add _

/-- A run whose timers fire late adds up. -/
theorem lateRun_adds_up :
    ∃ c final output, clientRun ⟨false, false, fun h => h⟩ lateRun {} threeSeconds = some c ∧
      c.2.executions.getLast? = some (.report final output) ∧
      final.state = .displayResults ∧ final.streams = c.2.test.streams ∧
      (∀ i sp, final.streams[i]? = some sp → printedBytes i c.2.executions = sentOf sp) ∧
      (final.streams.foldl (addResult final) {}).totalSent = final.bytesSent := by
  have hsent : (clientRun ⟨false, false, fun h => h⟩ lateRun {} threeSeconds).map
      (fun c => c.2.test.streams.map (·.result.bytesSent)) = some [10000] := by decide +kernel
  obtain ⟨c, hrun, hbytes⟩ := Option.map_eq_some_iff.mp hsent
  have hwrap : ∀ sp ∈ c.2.test.streams, sp.result.bytesSent < 2 ^ 64 := by
    intro sp hsp
    have hmem := List.mem_map_of_mem (f := fun sp : IperfStream => sp.result.bytesSent) hsp
    rw [hbytes, List.mem_singleton] at hmem
    omega
  have hnone : NoTimers threeSeconds := ⟨rfl, rfl, rfl, rfl, fun sp hsp => nomatch hsp⟩
  have hpos : threeSeconds.statsInterval ≠ 0 := by decide +kernel
  obtain ⟨final, output, hlast, hrest⟩ :=
    upload_adds_up valid_empty rfl hnone rfl rfl rfl rfl rfl hpos hrun hwrap
  exact ⟨c, final, output, hrun, hlast, hrest⟩

end IperfRuntime.ClientAccount
