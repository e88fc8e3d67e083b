import IperfRuntime.FinalReport
import IperfRuntime.ParameterLimits

/-!
# Round trip times of a summary

Least, greatest and mean of the round trip times that the ticks of a TCP sender find. The
mean comes from a sum that is kept in an `int`. How the kernel smooths the times it reports
is outside the model.
-/

namespace IperfRuntime.RttSummary

open ClockReading TestState TestParameters ParameterExchange ParameterLimits IntervalStats
  ByteConservation TrafficFrame StreamHistory StreamRecords FinalReport EntryPoints

/-- The round trip times that the ticks find for the stream at an index. -/
def rttsOf (i : ℕ) : List TransferEvent → List ℤ
  | [] => []
  | .tick samples :: events => (samples i).rtt :: rttsOf i events
  | .send _ _ :: events => rttsOf i events
  | .recv _ _ :: events => rttsOf i events
  | .endOmit _ _ :: events => rttsOf i events

/-- A TCP sender that reads `TCP_INFO`. -/
structure SamplesRtt (platform : Platform) (test : IperfTest) : Prop where
  tcpinfo : platform.hasTcpinfo = true
  tcp : test.protocol = .tcp
  sends : sendsWithRetransmits test = true

/-- A test within the limits on its time, with a tick for each interval and one at its end. -/
structure Timed (test : IperfTest) (ticks : ℕ) : Prop where
  duration : test.duration ≤ maxTime
  omitSeconds : test.omitSeconds ≤ 60
  interval : minInterval ≤ test.statsInterval
  ticks : (ticks : ℚ) ≤ (test.duration + test.omitSeconds) / test.statsInterval + 1

/-- A summary that agrees with the round trip times. -/
structure Consistent (rtts : List ℤ) (rp : IperfStreamResult) : Prop where
  least : rp.streamMinRtt ∈ rtts ∧ ∀ r ∈ rtts, rp.streamMinRtt ≤ r
  greatest : rp.streamMaxRtt ∈ rtts ∧ ∀ r ∈ rtts, r ≤ rp.streamMaxRtt
  mean : rp.streamMinRtt ≤ meanRtt rp ∧ meanRtt rp ≤ rp.streamMaxRtt

/-- What is left of the sum in an `int` could be a sum of as many round trip times. -/
def SumReturns (rtts : List ℤ) : Prop :=
  (∃ a ∈ rtts, rtts.length * a ≤ toInt rtts.sum) ∧
    ∃ b ∈ rtts, toInt rtts.sum < rtts.length * (b + 1)

/-- What the results of a stream say of the round trip times so far. -/
structure Summarizes (rtts : List ℤ) (rp : IperfStreamResult) : Prop where
  unset : rtts = [] → rp.streamMinRtt = 0 ∧ rp.streamMaxRtt = 0
  least : rtts ≠ [] → rp.streamMinRtt ∈ rtts ∧ ∀ r ∈ rtts, rp.streamMinRtt ≤ r
  greatest : rtts ≠ [] → rp.streamMaxRtt ∈ rtts ∧ ∀ r ∈ rtts, r ≤ rp.streamMaxRtt
  sum : rp.streamSumRtt = toInt rtts.sum
  count : rp.streamCountRtt = toInt rtts.length

/-- Truncating a summand first does not change the truncated sum. -/
theorem toInt_add_left (a b : ℤ) : toInt (toInt a + b) = toInt (a + b) := by
  unfold toInt
  exact Int.bmod_add_bmod

/-- A tick adds one round trip time to the least, the greatest, the sum and the count; a time
of zero cannot occur, so the first sample sets the least. -/
theorem Summarizes.tick {rtts : List ℤ} {platform : Platform} {test : IperfTest}
    {sp : IperfStream} {sample : Sample} (h : Summarizes rtts sp.result)
    (hsamples : SamplesRtt platform test) (hpos : 0 < sample.rtt) (hold : ∀ r ∈ rtts, 0 < r) :
    Summarizes (rtts ++ [sample.rtt]) (statsOfStream platform test sample sp).result := by
  have htick : (statsOfStream platform test sample sp).result.streamMinRtt =
        (if sp.result.streamMinRtt = 0 ∨ sample.rtt < sp.result.streamMinRtt then sample.rtt
          else sp.result.streamMinRtt) ∧
      (statsOfStream platform test sample sp).result.streamMaxRtt =
        max sp.result.streamMaxRtt sample.rtt ∧
      (statsOfStream platform test sample sp).result.streamSumRtt =
        toInt (sp.result.streamSumRtt + sample.rtt) ∧
      (statsOfStream platform test sample sp).result.streamCountRtt =
        toInt (sp.result.streamCountRtt + 1) := by
    unfold statsOfStream intervalEntry
    simp only [hsamples.tcp, hsamples.tcpinfo, hsamples.sends, beq_self_eq_true, Bool.and_self,
      if_true]
    exact ⟨rfl, rfl, rfl, rfl⟩
  obtain ⟨hmin, hmax, hsum, hcount⟩ := htick
  have hne : rtts ++ [sample.rtt] ≠ [] := List.append_ne_nil_of_right_ne_nil _ (by simp)
  refine ⟨fun hnil => absurd hnil hne, fun _ => ?_, fun _ => ?_, ?_, ?_⟩
  · rw [hmin]
    by_cases hnil : rtts = []
    · rw [(h.unset hnil).1, if_pos (Or.inl rfl), hnil]
      simp
    · obtain ⟨hmem, hle⟩ := h.least hnil
      have hset : sp.result.streamMinRtt ≠ 0 := (hold _ hmem).ne'
      split
      · rename_i hless
        have hnew : sample.rtt < sp.result.streamMinRtt := hless.resolve_left hset
        refine ⟨List.mem_append_right _ List.mem_cons_self, ?_⟩
        intro r hr
        rcases List.mem_append.mp hr with hr | hr
        · exact hnew.le.trans (hle r hr)
        · rw [List.mem_singleton.mp hr]
      · rename_i hkept
        rw [not_or, not_lt] at hkept
        refine ⟨List.mem_append_left _ hmem, ?_⟩
        intro r hr
        rcases List.mem_append.mp hr with hr | hr
        · exact hle r hr
        · rw [List.mem_singleton.mp hr]
          exact hkept.2
  · rw [hmax]
    by_cases hnil : rtts = []
    · rw [(h.unset hnil).2, max_eq_right hpos.le, hnil]
      simp
    · obtain ⟨hmem, hle⟩ := h.greatest hnil
      refine ⟨?_, ?_⟩
      · rcases max_choice sp.result.streamMaxRtt sample.rtt with hmax | hmax
        · rw [hmax]
          exact List.mem_append_left _ hmem
        · rw [hmax]
          exact List.mem_append_right _ List.mem_cons_self
      · intro r hr
        rcases List.mem_append.mp hr with hr | hr
        · exact (hle r hr).trans (le_max_left _ _)
        · rw [List.mem_singleton.mp hr]
          exact le_max_right _ _
  · rw [hsum, h.sum, toInt_add_left, List.sum_append, List.sum_singleton]
  · rw [hcount, h.count, toInt_add_left, List.length_append]
    push_cast
    rfl

/-- The round trip times belong to what a record keeps. -/
theorem Summarizes.same {rtts : List ℤ} {sp sp' : IperfStream} (h : Summarizes rtts sp.result)
    (hsame : recordOf sp' = recordOf sp) : Summarizes rtts sp'.result := by
  have hmin := congrArg IperfStreamResult.streamMinRtt hsame
  have hmax := congrArg IperfStreamResult.streamMaxRtt hsame
  have hsum := congrArg IperfStreamResult.streamSumRtt hsame
  have hcount := congrArg IperfStreamResult.streamCountRtt hsame
  simp only [recordOf] at hmin hmax hsum hcount
  refine ⟨?_, ?_, ?_, ?_, ?_⟩
  · rw [hmin, hmax]
    exact h.unset
  · rw [hmin]
    exact h.least
  · rw [hmax]
    exact h.greatest
  · rw [hsum]
    exact h.sum
  · rw [hcount]
    exact h.count

/-- The stream at an index, if there is one, has such a summary. -/
def Sampled (i : ℕ) (rtts : List ℤ) (test : IperfTest) : Prop :=
  ∀ sp, test.streams[i]? = some sp → Summarizes rtts sp.result

/-- The samples so far only depend on what is recorded for the streams. -/
theorem Sampled.same {i : ℕ} {rtts : List ℤ} {test test' : IperfTest} (h : Sampled i rtts test)
    (hsame : test'.streams.map recordOf = test.streams.map recordOf) : Sampled i rtts test' := by
  intro sp' hsp'
  have hat := congrArg (·[i]?) hsame
  simp only [List.getElem?_map, hsp', Option.map_some] at hat
  obtain ⟨sp, hsp, heq⟩ := Option.map_eq_some_iff.mp hat.symm
  exact (h sp hsp).same heq.symm

/-- What keeps the frame of the test keeps the samples. -/
theorem Sampled.frame {i : ℕ} {rtts : List ℤ} {test test' : IperfTest} (h : Sampled i rtts test)
    (hframe : SameFrame test test.streams test' test'.streams) : Sampled i rtts test' :=
  h.same (map_recordOf streamFrame (fun _ => rfl) hframe.streams)

/-- What moves data does not change what an end is. -/
theorem SamplesRtt.frame {platform : Platform} {test test' : IperfTest}
    (h : SamplesRtt platform test) (hframe : testFrame test' = testFrame test) :
    SamplesRtt platform test' where
  tcpinfo := h.tcpinfo
  tcp := (congrArg IperfTest.protocol hframe :).trans h.tcp
  sends := (congrArg sendsWithRetransmits hframe :).trans h.sends

/-- One event adds the round trip time that it finds on the stream, if it is a tick or the end
of the omitted seconds, and nothing otherwise. -/
theorem Sampled.event {i : ℕ} {rtts : List ℤ} {platform : Platform} {test test' : IperfTest}
    {e : TransferEvent} (h : Sampled i rtts test) (hsamples : SamplesRtt platform test)
    (hold : ∀ r ∈ rtts, 0 < r) (hnew : ∀ r ∈ rttsOf i [e], 0 < r)
    (hstep : transferStep platform test e = some test') :
    Sampled i (rtts ++ rttsOf i [e]) test' ∧ SamplesRtt platform test' := by
  cases e with
  | send env writeSetP =>
    rw [rttsOf, rttsOf, List.append_nil]
    dsimp only [transferStep] at hstep
    split at hstep
    · cases hstep
      have hframe := iperfSend_frame env writeSetP test
      exact ⟨h.frame hframe, hsamples.frame hframe.test⟩
    · cases hstep
  | recv io readSetP =>
    rw [rttsOf, rttsOf, List.append_nil]
    dsimp only [transferStep] at hstep
    split at hstep
    · cases hstep
    · cases hstep
      have hframe := iperfRecv_frame io readSetP test
      exact ⟨h.frame hframe, hsamples.frame hframe.test⟩
  | tick samples =>
    cases hstep
    refine ⟨?_, hsamples.tcpinfo, hsamples.tcp, hsamples.sends⟩
    intro sp' hsp'
    unfold iperfStatsCallback at hsp'
    rw [List.getElem?_mapIdx] at hsp'
    obtain ⟨sp, hsp, rfl⟩ := Option.map_eq_some_iff.mp hsp'
    exact (h sp hsp).tick hsamples (hnew _ List.mem_cons_self) hold
  | endOmit now samples =>
    rw [rttsOf, rttsOf, List.append_nil]
    dsimp only [transferStep] at hstep
    split at hstep
    · cases hstep
      refine ⟨?_, hsamples.tcpinfo, hsamples.tcp, hsamples.sends⟩
      intro sp' hsp'
      unfold endOmission iperfResetStats at hsp'
      rw [List.getElem?_mapIdx] at hsp'
      obtain ⟨sp, hsp, rfl⟩ := Option.map_eq_some_iff.mp hsp'
      obtain ⟨hunset, hleast, hgreatest, hsum, hcount⟩ := h sp hsp
      exact ⟨hunset, hleast, hgreatest, hsum, hcount⟩
    · cases hstep

/-- Every event adds to what was found before. -/
theorem rttsOf_cons (i : ℕ) (e : TransferEvent) (events : List TransferEvent) :
    rttsOf i (e :: events) = rttsOf i [e] ++ rttsOf i events := by
  cases e with
  | tick samples => rfl
  | send env writeSetP => rfl
  | recv io readSetP => rfl
  | endOmit now samples => rfl

/-- A whole run adds what its ticks find. -/
theorem Sampled.run {i : ℕ} {rtts : List ℤ} {platform : Platform} {test test' : IperfTest}
    {events : List TransferEvent} (h : Sampled i rtts test) (hsamples : SamplesRtt platform test)
    (hold : ∀ r ∈ rtts, 0 < r) (hnew : ∀ r ∈ rttsOf i events, 0 < r)
    (hrun : transferRun platform test events = some test') :
    Sampled i (rtts ++ rttsOf i events) test' := by
  induction events generalizing rtts test with
  | nil =>
    cases hrun
    rw [rttsOf, List.append_nil]
    exact h
  | cons e events ih =>
    obtain ⟨after, hstep, hrest⟩ := Option.bind_eq_some_iff.mp hrun
    rw [rttsOf_cons, List.forall_mem_append] at hnew
    obtain ⟨hafter, hsamples'⟩ := h.event hsamples hold hnew.1 hstep
    rw [rttsOf_cons, ← List.append_assoc]
    exact ih hafter hsamples' (List.forall_mem_append.mpr ⟨hold, hnew.1⟩) hnew.2 hrest

/-- The start of a test has found nothing. -/
theorem Sampled.start {test : IperfTest} (hfresh : Fresh test) (now : Timeval) (i : ℕ) :
    Sampled i [] (startTest now test) := by
  intro sp' hsp'
  obtain ⟨sp, hsp, rfl⟩ := List.mem_map.mp (List.mem_of_getElem? hsp')
  rw [hfresh.results sp hsp]
  exact ⟨fun _ => ⟨rfl, rfl⟩, fun hne => absurd rfl hne, fun hne => absurd rfl hne, rfl, rfl⟩

/-- What the record of a stream says behind a run. -/
theorem run_summarizes {platform : Platform} {test test' : IperfTest} {now : Timeval}
    {events : List TransferEvent} (hfresh : Fresh test) (hsamples : SamplesRtt platform test)
    (hrun : transferRun platform (startTest now test) events = some test') {i : ℕ}
    (hpos : ∀ r ∈ rttsOf i events, 0 < r) {sp : IperfStream}
    (hsp : test'.streams[i]? = some sp) : Summarizes (rttsOf i events) sp.result :=
  (Sampled.start hfresh now i).run ⟨hsamples.tcpinfo, hsamples.tcp, hsamples.sends⟩
    (fun _ hr => nomatch hr) hpos hrun sp hsp

/-- A test within the limits ticks far less often than an `int` can count. -/
theorem Timed.lt {test : IperfTest} {ticks : ℕ} (h : Timed test ticks) :
    (ticks : ℤ) < 2 ^ 31 := by
  have hinterval : (1 / 10 : ℚ) ≤ test.statsInterval := h.interval
  have hduration : (test.duration : ℚ) ≤ 86400 := by exact_mod_cast h.duration
  have homit : (test.omitSeconds : ℚ) ≤ 60 := by exact_mod_cast h.omitSeconds
  have hquotient : ((test.duration : ℚ) + test.omitSeconds) / test.statsInterval ≤ 864600 := by
    rw [div_le_iff₀ (by linarith)]
    linarith
  have hticks : (ticks : ℚ) ≤ 864601 := by
    have hbound := h.ticks
    linarith
  have hint : ticks ≤ 864601 := by exact_mod_cast hticks
  omega

/-- Truncated division by a count against a positive bound from below. -/
theorem le_tdiv_iff {s a n : ℤ} (hn : 0 < n) (ha : 0 < a) : a ≤ s.tdiv n ↔ n * a ≤ s := by
  rcases lt_or_ge s 0 with hs | hs
  · have hquotient : s.tdiv n ≤ 0 := by
      have hneg := Int.tdiv_nonneg (a := -s) (b := n) (by omega) hn.le
      rw [Int.neg_tdiv] at hneg
      omega
    have hprod : 0 < n * a := mul_pos hn ha
    constructor
    · intro hle
      omega
    · intro hle
      omega
  · rw [Int.tdiv_eq_ediv_of_nonneg hs, Int.le_ediv_iff_mul_le hn, mul_comm]

/-- The same from above. -/
theorem tdiv_le_iff {s b n : ℤ} (hn : 0 < n) (hb : 0 < b) : s.tdiv n ≤ b ↔ s < n * (b + 1) := by
  have hless := le_tdiv_iff (s := s) (a := b + 1) hn (by omega)
  omega

/-- The mean lies between the bounds exactly where the sum returns. -/
theorem Summarizes.mean_iff {rtts : List ℤ} {rp : IperfStreamResult} (h : Summarizes rtts rp)
    (hne : rtts ≠ []) (hpos : ∀ r ∈ rtts, 0 < r) (hlength : (rtts.length : ℤ) < 2 ^ 31) :
    (rp.streamMinRtt ≤ meanRtt rp ∧ meanRtt rp ≤ rp.streamMaxRtt) ↔ SumReturns rtts := by
  have hn : (0 : ℤ) < rtts.length := by
    exact_mod_cast List.length_pos_of_ne_nil hne
  obtain ⟨hleast, hle⟩ := h.least hne
  obtain ⟨hgreatest, hge⟩ := h.greatest hne
  have hcount : rp.streamCountRtt = rtts.length := by
    rw [h.count]
    exact toInt_of_isInt ⟨by omega, hlength⟩
  have hmean : meanRtt rp = (toInt rtts.sum).tdiv rtts.length := by
    unfold meanRtt
    rw [hcount, if_neg hn.ne', h.sum]
  rw [hmean, le_tdiv_iff hn (hpos _ hleast), tdiv_le_iff hn (hpos _ hgreatest)]
  constructor
  · rintro ⟨hlow, hhigh⟩
    exact ⟨⟨_, hleast, hlow⟩, _, hgreatest, hhigh⟩
  · rintro ⟨⟨a, ha, hlow⟩, b, hb, hhigh⟩
    refine ⟨(mul_le_mul_of_nonneg_left (hle a ha) hn.le).trans hlow, hhigh.trans_le ?_⟩
    exact mul_le_mul_of_nonneg_left (by linarith [hge b hb]) hn.le

/-- A sum that fits returns. -/
theorem Summarizes.sumReturns {rtts : List ℤ} {rp : IperfStreamResult} (h : Summarizes rtts rp)
    (hne : rtts ≠ []) (hpos : ∀ r ∈ rtts, 0 < r) (hfits : rtts.sum < 2 ^ 31) :
    SumReturns rtts := by
  have hsum : toInt rtts.sum = rtts.sum := by
    have hnonneg : 0 ≤ rtts.sum := List.sum_nonneg fun r hr => (hpos r hr).le
    exact toInt_of_isInt ⟨by omega, hfits⟩
  obtain ⟨hleast, hle⟩ := h.least hne
  obtain ⟨hgreatest, hge⟩ := h.greatest hne
  have hlow := List.card_nsmul_le_sum rtts _ hle
  have hhigh := List.sum_le_card_nsmul rtts _ hge
  rw [nsmul_eq_mul] at hlow hhigh
  have hlength : (0 : ℤ) < rtts.length := by
    exact_mod_cast List.length_pos_of_ne_nil hne
  refine ⟨⟨_, hleast, by rw [hsum]; exact hlow⟩, _, hgreatest, ?_⟩
  rw [hsum, mul_add, mul_one]
  linarith

/-- The summary agrees with the round trip times exactly where their sum fits into an `int`,
or what is left of it there passes for one. -/
theorem rtt_summary_iff {platform : Platform} {test test' : IperfTest} {now : Timeval}
    {events : List TransferEvent} (hfresh : Fresh test) (hsamples : SamplesRtt platform test)
    (hrun : transferRun platform (startTest now test) events = some test') {i : ℕ}
    (htimed : Timed test (rttsOf i events).length) (hne : rttsOf i events ≠ [])
    (hpos : ∀ r ∈ rttsOf i events, 0 < r ∧ r < 2 ^ 31) {sp : IperfStream}
    (hsp : test'.streams[i]? = some sp) :
    Consistent (rttsOf i events) sp.result ↔
      (rttsOf i events).sum < 2 ^ 31 ∨ SumReturns (rttsOf i events) := by
  have hpositive : ∀ r ∈ rttsOf i events, 0 < r := fun r hr => (hpos r hr).1
  have hsummary := run_summarizes hfresh hsamples hrun hpositive hsp
  have hmean := hsummary.mean_iff hne hpositive htimed.lt
  constructor
  · intro hconsistent
    exact Or.inr (hmean.mp hconsistent.mean)
  · intro hreturns
    refine ⟨hsummary.least hne, hsummary.greatest hne, hmean.mpr ?_⟩
    rcases hreturns with hfits | hreturns
    · exact hsummary.sumReturns hne hpositive hfits
    · exact hreturns

/-- A sender with one stream and a tick each second. -/
def longSender : IperfTest :=
  { role := .client, sender := true, senderHasRetransmits := 1, numStreams := 1,
    duration := 43000, statsInterval := 1, reporterInterval := 1, streams := [{ id := 1 }] }

/-- Ticks that all find the same round trip time. -/
def steadyTicks (n : ℕ) (rtt : ℤ) : List TransferEvent :=
  List.replicate n (.tick fun _ => { rtt := rtt })

/-- Ticks with one round trip time give as many samples of it. -/
theorem rttsOf_steady (i n : ℕ) (rtt : ℤ) :
    rttsOf i (steadyTicks n rtt) = List.replicate n rtt := by
  induction n with
  | zero => rfl
  | succ n ih =>
    unfold steadyTicks at ih ⊢
    rw [List.replicate_succ, List.replicate_succ, rttsOf, ih]

/-- Their sum is that time as often. -/
theorem sum_steady (n : ℕ) (rtt : ℤ) : (List.replicate n rtt).sum = n * rtt := by
  rw [List.sum_replicate, nsmul_eq_mul]

/-- Fifty milliseconds are a round trip time, and something is found when anything ticks. -/
theorem steady_bounds (i n : ℕ) :
    ∀ r ∈ rttsOf i (steadyTicks n 50000), 0 < r ∧ r < 2 ^ 31 := by
  intro r hr
  rw [rttsOf_steady] at hr
  rw [List.eq_of_mem_replicate hr]
  omega

/-- There are samples if there are ticks. -/
theorem steady_ne_nil (i : ℕ) {n : ℕ} (hn : n ≠ 0) (rtt : ℤ) :
    rttsOf i (steadyTicks n rtt) ≠ [] := by
  rw [rttsOf_steady, Ne, List.replicate_eq_nil_iff]
  exact hn

/-- Ticks come to an end with the streams that there were. -/
theorem steadyTicks_run (platform : Platform) (n : ℕ) (rtt : ℤ) (test : IperfTest) :
    ∃ test', transferRun platform test (steadyTicks n rtt) = some test' ∧
      test'.streams.length = test.streams.length := by
  induction n generalizing test with
  | zero => exact ⟨test, rfl, rfl⟩
  | succ n ih =>
    obtain ⟨test', hrun, hlength⟩ := ih (iperfStatsCallback platform (fun _ => { rtt := rtt }) test)
    refine ⟨test', hrun, hlength.trans ?_⟩
    exact List.length_mapIdx

/-- The sender of the long test samples its round trip times. -/
theorem longSender_samples : SamplesRtt ⟨true, true, fun _ => rfl⟩ longSender :=
  ⟨rfl, rfl, rfl⟩

/-- It has just been set up. -/
theorem longSender_fresh : Fresh longSender :=
  ⟨rfl, fun sp hsp => by rw [List.mem_singleton.mp hsp]⟩

/-- Up to 43000 ticks fit into its time limit. -/
theorem longSender_timed {n : ℕ} (h : n ≤ 43000) : Timed longSender n := by
  refine ⟨by decide, by decide, by norm_num [minInterval, longSender], ?_⟩
  have hn : (n : ℚ) ≤ 43000 := by exact_mod_cast h
  norm_num [longSender]
  linarith

/-- Forty thousand seconds with fifty milliseconds each. -/
theorem steady_summary :
    ∃ test' sp, transferRun ⟨true, true, fun _ => rfl⟩ (startTest {} longSender)
        (steadyTicks 40000 50000) = some test' ∧ test'.streams[0]? = some sp ∧
      Consistent (rttsOf 0 (steadyTicks 40000 50000)) sp.result := by
  obtain ⟨test', hrun, hlength⟩ := steadyTicks_run ⟨true, true, fun _ => rfl⟩ 40000 50000
    (startTest {} longSender)
  have hone : 0 < test'.streams.length := by
    rw [hlength]
    decide
  obtain ⟨sp, hsp⟩ : ∃ sp, test'.streams[0]? = some sp := ⟨_, List.getElem?_eq_getElem hone⟩
  refine ⟨test', _, hrun, hsp, ?_⟩
  refine (rtt_summary_iff longSender_fresh longSender_samples hrun ?_
    (steady_ne_nil 0 (by omega) _) (steady_bounds 0 _) hsp).mpr (Or.inl ?_)
  · rw [rttsOf_steady, List.length_replicate]
    exact longSender_timed (by omega)
  · rw [rttsOf_steady, sum_steady]
    norm_num

/-- Three thousand seconds more, and the mean is negative: the sum of the samples has left the
range of its `int`. -/
theorem steady_overflow :
    ¬∀ (platform : Platform) (test test' : IperfTest) (now : Timeval)
      (events : List TransferEvent) (i : ℕ) (sp : IperfStream), Fresh test →
      SamplesRtt platform test →
      transferRun platform (startTest now test) events = some test' →
      Timed test (rttsOf i events).length → rttsOf i events ≠ [] →
      (∀ r ∈ rttsOf i events, 0 < r ∧ r < 2 ^ 31) → test'.streams[i]? = some sp →
      Consistent (rttsOf i events) sp.result := by
  intro hall
  obtain ⟨test', hrun, hlength⟩ := steadyTicks_run ⟨true, true, fun _ => rfl⟩ 43000 50000
    (startTest {} longSender)
  have hone : 0 < test'.streams.length := by
    rw [hlength]
    decide
  obtain ⟨sp, hsp⟩ : ∃ sp, test'.streams[0]? = some sp := ⟨_, List.getElem?_eq_getElem hone⟩
  have hpos := steady_bounds 0 43000
  have hne : rttsOf 0 (steadyTicks 43000 50000) ≠ [] := steady_ne_nil 0 (by omega) _
  have htimed : Timed longSender (rttsOf 0 (steadyTicks 43000 50000)).length := by
    rw [rttsOf_steady, List.length_replicate]
    exact longSender_timed le_rfl
  have hconsistent := hall _ _ test' {} _ 0 _ longSender_fresh longSender_samples hrun htimed hne
    hpos hsp
  have hpositive : ∀ r ∈ rttsOf 0 (steadyTicks 43000 50000), 0 < r := fun r hr => (hpos r hr).1
  have hsummary := run_summarizes longSender_fresh longSender_samples hrun hpositive hsp
  obtain ⟨⟨a, ha, hlow⟩, -⟩ := (hsummary.mean_iff hne hpositive htimed.lt).mp hconsistent.mean
  have hwrapped : toInt (rttsOf 0 (steadyTicks 43000 50000)).sum = -2144967296 := by
    rw [rttsOf_steady, sum_steady]
    decide
  rw [hwrapped] at hlow
  have hprod : (0 : ℤ) ≤ (rttsOf 0 (steadyTicks 43000 50000)).length * a :=
    mul_nonneg (Int.natCast_nonneg _) (hpositive a ha).le
  omega

end IperfRuntime.RttSummary
