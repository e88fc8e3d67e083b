import IperfRuntime.ClockedHistory
import IperfRuntime.StreamHistory

/-!
# The windows of the intervals

The entries of `iperf_stats_callback` against what a stream really transferred. The start of
an entry is the end of the one before it also when the omit period has ended in between and
the bytes were counted from there. The clock may stand still or jump back between two
entries; no bound on its steps is used.
-/

namespace IperfRuntime.IntervalWindows

open ClockReading TestState StreamTraffic IntervalStats ByteConservation TrafficFrame StreamHistory
  ClockedHistory

/-- The bytes that an end has transferred on a stream. -/
def counted (sender : Bool) (rp : IperfStreamResult) : ℕ :=
  if sender then rp.bytesSent else rp.bytesReceived

/-- The same for the stream at an index. -/
def countedAt (i : ℕ) (test : IperfTest) : ℕ :=
  ((test.streams[i]?).map fun sp => counted test.sender sp.result).getD 0

/-- What an event is for the stream at an index. -/
def marksOf (i : ℕ) (before after : IperfTest) : TransferEvent → List (Mark Timeval)
  | .send _ _ => [.moved (countedAt i after - countedAt i before)]
  | .recv _ _ => [.moved (countedAt i after - countedAt i before)]
  | .tick samples => [.clock (samples i).now]
  | .endOmit now _ => [.clock now]

/-- What a run is for the stream at an index. -/
def historyOf (platform : Platform) (i : ℕ) :
    IperfTest → List TransferEvent → List (Mark Timeval)
  | _, [] => []
  | test, e :: events =>
    match transferStep platform test e with
    | none => []
    | some after => marksOf i test after e ++ historyOf platform i after events

/-- The span of an entry. -/
def spanOf (irp : IperfIntervalResults) : Span Timeval :=
  ⟨irp.intervalStartTime, irp.intervalEndTime, irp.bytesTransferred⟩

/-- Entries that match a history: each has the bytes that were transferred between its times, and
those behind the omit period tile the time from the start of the measurement. -/
structure IntervalsMatch (history : List (Mark Timeval)) (rp : IperfStreamResult) : Prop where
  fits : ∀ irp ∈ rp.intervalResults, Fits history (spanOf irp)
  forward : ∀ irp ∈ rp.intervalResults, irp.intervalStartTime ≤ irp.intervalEndTime
  tiles : keptIntervals rp ≠ [] → Tiles rp.startTime ((keptIntervals rp).map spanOf) rp.endTime

/-- Where the next entry starts. -/
def nextStart (rp : IperfStreamResult) : Timeval :=
  if rp.intervalResults.isEmpty then rp.startTime else rp.endTime

/-- The omit period never ends inside an interval: there is no entry yet, or the last one has
just ended. -/
def EndsBetween (platform : Platform) : IperfTest → List TransferEvent → Prop
  | _, [] => True
  | test, e :: events =>
    (∀ now samples, e = .endOmit now samples → ∀ sp ∈ test.streams,
      sp.result.intervalResults = [] ∨ sp.result.endTime = now) ∧
    ∀ after, transferStep platform test e = some after → EndsBetween platform after events

/-- What holds of a stream at every point of a run. -/
structure Tracked (sender omitting : Bool) (history : List (Mark Timeval))
    (rp : IperfStreamResult) : Prop where
  fits : ∀ irp ∈ rp.intervalResults, Fits history (spanOf irp)
  current : ∃ before between, history = before ++ .clock (nextStart rp) :: between ∧
    total between = currentBytes sender rp
  omitted : omitting = true → ∀ irp ∈ rp.intervalResults, irp.omitted = true
  start : omitting = false → keptIntervals rp = [] → nextStart rp = rp.startTime
  tiles : keptIntervals rp ≠ [] → Tiles rp.startTime ((keptIntervals rp).map spanOf) rp.endTime

/-- What a call that moves data does to the results of a stream. -/
structure Moves (sender : Bool) (rp rp' : IperfStreamResult) : Prop where
  intervals : rp'.intervalResults = rp.intervalResults
  start : rp'.startTime = rp.startTime
  finish : rp'.endTime = rp.endTime
  grows : counted sender rp ≤ counted sender rp'
  current :
    currentBytes sender rp' + counted sender rp = currentBytes sender rp + counted sender rp'

/-- Counters that stand still move by nothing. -/
theorem Moves.refl (sender : Bool) (rp : IperfStreamResult) : Moves sender rp rp :=
  ⟨rfl, rfl, rfl, le_rfl, rfl⟩

/-- Moves compose. -/
theorem Moves.trans {sender : Bool} {a b c : IperfStreamResult} (h : Moves sender a b)
    (h' : Moves sender b c) : Moves sender a c where
  intervals := h'.intervals.trans h.intervals
  start := h'.start.trans h.start
  finish := h'.finish.trans h.finish
  grows := h.grows.trans h'.grows
  current := by
    have hfirst := h.current
    have hsecond := h'.current
    omega

/-- Data moved: what was transferred is a mark of the history, behind the last reading of the
clock. -/
theorem Tracked.moves {sender omitting : Bool} {history : List (Mark Timeval)}
    {rp rp' : IperfStreamResult} (h : Tracked sender omitting history rp)
    (hm : Moves sender rp rp') :
    Tracked sender omitting (history ++ [.moved (counted sender rp' - counted sender rp)]) rp' := by
  have hkept : keptIntervals rp' = keptIntervals rp := by
    unfold keptIntervals
    rw [hm.intervals]
  have hnext : nextStart rp' = nextStart rp := by
    unfold nextStart
    rw [hm.intervals, hm.start, hm.finish]
  constructor
  · rw [hm.intervals]
    exact fun irp hirp => (h.fits irp hirp).append _
  · obtain ⟨before, between, hhistory, hbytes⟩ := h.current
    refine ⟨before, between ++ [.moved (counted sender rp' - counted sender rp)], ?_, ?_⟩
    · rw [hhistory, hnext, List.append_assoc, List.cons_append]
    · have hgrows := hm.grows
      have hcurrent := hm.current
      rw [total_append, hbytes, total, total]
      omega
  · rw [hm.intervals]
    exact h.omitted
  · rw [hkept, hnext, hm.start]
    exact h.start
  · rw [hkept, hm.start, hm.finish]
    exact h.tiles

/-- The times that a tick writes. -/
theorem intervalEntry_times (platform : Platform) (test : IperfTest) (sample : Sample)
    (sp : IperfStream) :
    (intervalEntry platform test sample sp).1.intervalStartTime = nextStart sp.result ∧
      (intervalEntry platform test sample sp).1.intervalEndTime = sample.now ∧
      (intervalEntry platform test sample sp).2.startTime = sp.result.startTime ∧
      (intervalEntry platform test sample sp).2.endTime = sample.now := by
  unfold intervalEntry
  dsimp only
  split
  · split
    · exact ⟨rfl, rfl, rfl, rfl⟩
    · exact ⟨rfl, rfl, rfl, rfl⟩
  · exact ⟨rfl, rfl, rfl, rfl⟩

/-- The span of the entry that a tick writes. -/
theorem spanOf_tick (platform : Platform) (test : IperfTest) (sample : Sample)
    (sp : IperfStream) :
    spanOf (intervalEntry platform test sample sp).1 =
      ⟨nextStart sp.result, sample.now, currentBytes test.sender sp.result⟩ := by
  obtain ⟨-, hbytes, -⟩ := intervalEntry_spec platform test sample sp
  obtain ⟨hstart, hfinish, -, -⟩ := intervalEntry_times platform test sample sp
  unfold spanOf
  rw [hstart, hfinish, hbytes]

/-- During the omit period nothing is kept. -/
theorem Tracked.none_kept {sender : Bool} {rp : IperfStreamResult}
    {history : List (Mark Timeval)} (h : Tracked sender true history rp) :
    keptIntervals rp = [] := by
  unfold keptIntervals
  rw [List.filter_eq_nil_iff]
  intro irp hirp
  simp [h.omitted rfl irp hirp]

/-- The kept entries with that of a tick behind the omit period. -/
theorem Tracked.tiles_tick {sender : Bool} {rp : IperfStreamResult}
    {history : List (Mark Timeval)} (h : Tracked sender false history rp) {span : Span Timeval}
    (hspan : span.start = nextStart rp) :
    Tiles rp.startTime ((keptIntervals rp).map spanOf ++ [span]) span.finish := by
  by_cases hnone : keptIntervals rp = []
  · rw [hnone]
    exact ⟨hspan.trans (h.start rfl hnone), rfl⟩
  · have hentries : rp.intervalResults ≠ [] := by
      intro hempty
      apply hnone
      unfold keptIntervals
      rw [hempty]
      rfl
    have hlast : nextStart rp = rp.endTime := by
      unfold nextStart
      rw [if_neg (by simpa using hentries)]
    exact (h.tiles hnone).concat (hspan.trans hlast)

/-- A tick: the interval in progress becomes an entry, whose span begins where the entry
before it ends. -/
theorem Tracked.tick {test : IperfTest} {sp : IperfStream} {history : List (Mark Timeval)}
    (h : Tracked test.sender test.omitting history sp.result) (platform : Platform)
    (sample : Sample) :
    Tracked test.sender test.omitting (history ++ [.clock sample.now])
      (statsOfStream platform test sample sp).result := by
  have hflag := (intervalEntry_spec platform test sample sp).1
  have hspan := spanOf_tick platform test sample sp
  obtain ⟨-, -, hstartTime, hendTime⟩ := intervalEntry_times platform test sample sp
  have hkept := keptIntervals_tick platform test sample sp
  have hresults : (statsOfStream platform test sample sp).result.intervalResults =
      sp.result.intervalResults ++ [(intervalEntry platform test sample sp).1] := rfl
  have hstartTime' : (statsOfStream platform test sample sp).result.startTime =
      sp.result.startTime := hstartTime
  have hendTime' : (statsOfStream platform test sample sp).result.endTime = sample.now := hendTime
  have hnext : nextStart (statsOfStream platform test sample sp).result = sample.now := by
    unfold nextStart
    rw [hresults, hendTime']
    simp
  obtain ⟨before, between, hhistory, hcurrent⟩ := h.current
  constructor
  · intro irp hirp
    rw [hresults] at hirp
    rcases List.mem_append.mp hirp with hold | hnew
    · exact (h.fits irp hold).append _
    · rw [List.mem_singleton.mp hnew, hspan, hhistory, ← hcurrent]
      exact Fits.close sample.now
  · refine ⟨history, [], ?_, ?_⟩
    · rw [hnext]
    · unfold currentBytes statsOfStream
      dsimp only
      rw [ite_self]
      rfl
  · intro hom irp hirp
    rw [hresults] at hirp
    rcases List.mem_append.mp hirp with hold | hnew
    · exact h.omitted hom irp hold
    · rw [List.mem_singleton.mp hnew, hflag]
      exact hom
  · intro hom hnone
    rw [hkept, hom] at hnone
    simp at hnone
  · intro hsome
    rw [hkept] at hsome ⊢
    rw [hstartTime', hendTime']
    cases hom : test.omitting with
    | true =>
      rw [hom] at h hsome
      rw [if_pos rfl, List.append_nil, h.none_kept] at hsome
      exact absurd rfl hsome
    | false =>
      rw [hom] at h
      rw [if_neg Bool.false_ne_true, List.map_append, List.map_singleton]
      have hstart : (spanOf (intervalEntry platform test sample sp).1).start =
          nextStart sp.result := by rw [hspan]
      have htiles := h.tiles_tick hstart
      rw [hspan] at htiles ⊢
      exact htiles

/-- The end of the omit period between two intervals: the next one starts there, and so does
its count of bytes. -/
theorem Tracked.reset {sender : Bool} {test : IperfTest} {sp : IperfStream}
    {history : List (Mark Timeval)} (h : Tracked sender true history sp.result) (now : Timeval)
    (sample : Sample) (hbetween : sp.result.intervalResults = [] ∨ sp.result.endTime = now) :
    Tracked sender false (history ++ [.clock now]) (resetStream test now sample sp).result := by
  have hkept : keptIntervals (resetStream test now sample sp).result = [] := h.none_kept
  have hnext : nextStart (resetStream test now sample sp).result = now := by
    unfold nextStart resetStream
    dsimp only
    rcases hbetween with hnone | hended
    · rw [hnone]
      rfl
    · rw [hended, ite_self]
  constructor
  · exact fun irp hirp => (h.fits irp hirp).append _
  · refine ⟨history, [], ?_, ?_⟩
    · rw [hnext]
    · unfold currentBytes resetStream
      dsimp only
      rw [ite_self]
      rfl
  · intro hbad
    cases hbad
  · intro _ _
    rw [hnext]
    rfl
  · intro hsome
    exact absurd hkept hsome

/-- Data moved on a stream, unless its list of entries has grown. -/
def MovesOrTicks (sender : Bool) (sp sp' : IperfStream) : Prop :=
  Moves sender sp.result sp'.result ∨
    sp.result.intervalResults.length < sp'.result.intervalResults.length

/-- So do moves with calculations between them. -/
theorem MovesOrTicks.trans {sender : Bool} {a b c : IperfStream} (h : MovesOrTicks sender a b)
    (h' : MovesOrTicks sender b c) : MovesOrTicks sender a c := by
  rcases h with hmoves | hgrows
  · rcases h' with hmoves' | hgrows'
    · exact Or.inl (hmoves.trans hmoves')
    · right
      rw [← hmoves.intervals]
      exact hgrows'
  · right
    rcases h' with hmoves' | hgrows'
    · rw [hmoves'.intervals]
      exact hgrows
    · exact hgrows.trans hgrows'

/-- Adding bytes sent moves the counters on. -/
theorem moves_addSent (r : ℤ) (sp : IperfStream) :
    Moves true sp.result (addSent r sp).result where
  intervals := rfl
  start := rfl
  finish := rfl
  grows := Nat.le_add_right _ _
  current := by
    show sp.result.bytesSentThisInterval + r.toNat + sp.result.bytesSent =
      sp.result.bytesSentThisInterval + (sp.result.bytesSent + r.toNat)
    omega

/-- So does adding bytes received. -/
theorem moves_addReceived (r : ℤ) (sp : IperfStream) :
    Moves false sp.result (addReceived r sp).result where
  intervals := rfl
  start := rfl
  finish := rfl
  grows := Nat.le_add_right _ _
  current := by
    show sp.result.bytesReceivedThisInterval + r.toNat + sp.result.bytesReceived =
      sp.result.bytesReceivedThisInterval + (sp.result.bytesReceived + r.toNat)
    omega

/-- So does a call of the protocol's send function. -/
theorem moves_snd (test : IperfTest) (io : SndIo) (sp : IperfStream) :
    Moves true sp.result (snd test io sp).2.1.result := by
  obtain heq | ⟨n, -, ⟨-, heq⟩ | ⟨-, heq⟩⟩ := snd_cases test io sp
  · rw [heq]
    exact Moves.refl true sp.result
  · rw [heq]
    exact Moves.refl true sp.result
  · rw [heq]
    exact moves_addSent io.written { sp with packetCount := n }

/-- So does a call of its receive function. -/
theorem moves_rcv (test : IperfTest) (io : RcvIo) (sp : IperfStream) :
    Moves false sp.result (rcv test io sp).2.result := by
  obtain ⟨-, heq⟩ | heq | heq := rcv_cases test io sp
  · rw [heq]
    exact Moves.refl false sp.result
  · rw [heq]
    exact moves_addReceived io.received sp
  · rw [heq]
    dsimp only [updateJitter]
    rw [countDatagram_result]
    exact moves_addReceived io.received sp

/-- Everything that an end does to a stream before the end of omission. -/
theorem movesOrTicks_steps (sender : Bool) : StreamSteps sender (MovesOrTicks sender) where
  refl := fun sp => Or.inl (Moves.refl sender sp.result)
  trans := MovesOrTicks.trans
  snd := by
    intro hs test io sp
    subst hs
    exact Or.inl (moves_snd test io sp)
  check := by
    intro _ convert now test sp
    left
    rw [(checkThrottle_result convert now test sp).1]
    exact Moves.refl sender sp.result
  rcv := by
    intro hs test io sp
    subst hs
    exact Or.inl (moves_rcv test io sp)
  tick := by
    intro platform test sample sp
    right
    show sp.result.intervalResults.length < (sp.result.intervalResults ++ _).length
    rw [List.length_append, List.length_singleton]
    omega

/-- The stream that was at an index before a call. -/
theorem getElem?_of_forall₂ {R : IperfStream → IperfStream → Prop} {l l' : List IperfStream}
    (h : List.Forall₂ R l l') {i : ℕ} {b : IperfStream} (hb : l'[i]? = some b) :
    ∃ a, l[i]? = some a ∧ R a b := by
  induction h generalizing i with
  | nil => cases hb
  | cons hhead _ ih =>
    cases i with
    | zero =>
      cases hb
      exact ⟨_, rfl, hhead⟩
    | succ i => exact ih hb

/-- A call that keeps its frame moves data and does nothing else to the results. -/
theorem moves_of_frame {sender : Bool} {test test' : IperfTest}
    (hsteps : List.Forall₂ (MovesOrTicks sender) test.streams test'.streams)
    (hframe : test'.streams.map streamFrame = test.streams.map streamFrame) {i : ℕ}
    {sp' : IperfStream} (hsp' : test'.streams[i]? = some sp') :
    ∃ sp, test.streams[i]? = some sp ∧ Moves sender sp.result sp'.result := by
  obtain ⟨sp, hsp, hmoves | hgrows⟩ := getElem?_of_forall₂ hsteps hsp'
  · exact ⟨sp, hsp, hmoves⟩
  · exfalso
    have hget : (test'.streams.map streamFrame)[i]? = (test.streams.map streamFrame)[i]? := by
      rw [hframe]
    rw [List.getElem?_map, List.getElem?_map, hsp, hsp', Option.map_some, Option.map_some,
      Option.some_inj] at hget
    have hentries := congrArg (fun sp : IperfStream => sp.result.intervalResults.length) hget
    dsimp only [streamFrame] at hentries
    omega

/-- The stream at an index is tracked, if there is one. -/
def TrackedEnd (i : ℕ) (history : List (Mark Timeval)) (test : IperfTest) : Prop :=
  ∀ sp, test.streams[i]? = some sp → Tracked test.sender test.omitting history sp.result

/-- A call that moves data. -/
theorem TrackedEnd.moves {i : ℕ} {history : List (Mark Timeval)} {test test' : IperfTest}
    (h : TrackedEnd i history test) (hframe : SameFrame test test.streams test' test'.streams)
    (hsteps : List.Forall₂ (MovesOrTicks test.sender) test.streams test'.streams) :
    TrackedEnd i (history ++ [.moved (countedAt i test' - countedAt i test)]) test' := by
  intro sp' hsp'
  obtain ⟨sp, hsp, hmoves⟩ := moves_of_frame hsteps hframe.streams hsp'
  have hsenders := congrArg IperfTest.sender hframe.test
  have homits := congrArg IperfTest.omitting hframe.test
  have hsender : test'.sender = test.sender := hsenders
  have homitting : test'.omitting = test.omitting := homits
  have hafter : countedAt i test' = counted test.sender sp'.result := by
    unfold countedAt
    rw [hsp', hsender]
    rfl
  have hbefore : countedAt i test = counted test.sender sp.result := by
    unfold countedAt
    rw [hsp]
    rfl
  rw [hafter, hbefore, hsender, homitting]
  exact (h sp hsp).moves hmoves

/-- One event keeps what is tracked of a stream, whichever it is; the end of the omit period
has to fall between two intervals. -/
theorem TrackedEnd.step {platform : Platform} {i : ℕ} {history : List (Mark Timeval)}
    {test test' : IperfTest} {e : TransferEvent} (h : TrackedEnd i history test)
    (hstep : transferStep platform test e = some test')
    (hends : ∀ now samples, e = .endOmit now samples → ∀ sp ∈ test.streams,
      sp.result.intervalResults = [] ∨ sp.result.endTime = now) :
    TrackedEnd i (history ++ marksOf i test test' e) test' := by
  cases e with
  | send env writeSetP =>
    dsimp only [transferStep] at hstep
    split at hstep
    · rename_i hsender
      have hsteps := movesOrTicks_steps test.sender
      rw [hsender] at hsteps
      have hmoves := hsteps.iperfSend env writeSetP test
      rw [← hsender] at hmoves
      cases hstep
      exact h.moves (iperfSend_frame env writeSetP test) hmoves
    · cases hstep
  | recv io readSetP =>
    dsimp only [transferStep] at hstep
    split at hstep
    · cases hstep
    · rename_i hsender
      have hfalse : test.sender = false := by simpa using hsender
      have hsteps := movesOrTicks_steps test.sender
      rw [hfalse] at hsteps
      have hmoves := hsteps.iperfRecv io readSetP test
      rw [← hfalse] at hmoves
      cases hstep
      exact h.moves (iperfRecv_frame io readSetP test) hmoves
  | tick samples =>
    cases hstep
    intro sp' hsp'
    unfold iperfStatsCallback at hsp'
    dsimp only at hsp'
    rw [List.getElem?_mapIdx] at hsp'
    obtain ⟨sp, hsp, rfl⟩ := Option.map_eq_some_iff.mp hsp'
    exact (h sp hsp).tick platform (samples i)
  | endOmit now samples =>
    dsimp only [transferStep] at hstep
    split at hstep
    · rename_i hom
      cases hstep
      intro sp' hsp'
      unfold endOmission iperfResetStats at hsp'
      dsimp only at hsp'
      rw [List.getElem?_mapIdx] at hsp'
      obtain ⟨sp, hsp, rfl⟩ := Option.map_eq_some_iff.mp hsp'
      have htracked := h sp hsp
      rw [hom] at htracked
      exact htracked.reset now (samples i)
        (hends now samples rfl sp (List.mem_of_getElem? hsp))
    · cases hstep

/-- A whole run. -/
theorem TrackedEnd.run {platform : Platform} {i : ℕ} {history : List (Mark Timeval)}
    {test test' : IperfTest} {events : List TransferEvent} (h : TrackedEnd i history test)
    (hrun : transferRun platform test events = some test')
    (hends : EndsBetween platform test events) :
    TrackedEnd i (history ++ historyOf platform i test events) test' := by
  induction events generalizing test history with
  | nil =>
    cases hrun
    rw [historyOf, List.append_nil]
    exact h
  | cons e events ih =>
    obtain ⟨next, hstep, hrest⟩ := Option.bind_eq_some_iff.mp hrun
    have hnext := ih (h.step hstep hends.1) hrest (hends.2 next hstep)
    unfold historyOf
    rw [hstep]
    dsimp only
    rw [← List.append_assoc]
    exact hnext

/-- The start of a test on fresh streams. -/
theorem TrackedEnd.start {test : IperfTest} (hf : Fresh test) (now : Timeval) (i : ℕ) :
    TrackedEnd i [.clock now] (startTest now test) := by
  intro sp' hsp'
  unfold startTest iperfInitTest at hsp'
  dsimp only at hsp'
  rw [List.getElem?_map] at hsp'
  obtain ⟨sp, hsp, rfl⟩ := Option.map_eq_some_iff.mp hsp'
  rw [hf.results sp (List.mem_of_getElem? hsp)]
  constructor
  · intro irp hirp
    cases hirp
  · refine ⟨[], [], rfl, ?_⟩
    unfold currentBytes
    rw [ite_self]
    rfl
  · intro _ irp hirp
    cases hirp
  · intro _ _
    rfl
  · intro hsome
    exact absurd rfl hsome

/-- What is tracked matches its history when the clock goes forward. -/
theorem Tracked.intervalsMatch {sender omitting : Bool} {history : List (Mark Timeval)}
    {rp : IperfStreamResult} (h : Tracked sender omitting history rp)
    (hclock : (readings history).Pairwise (· ≤ ·)) : IntervalsMatch history rp where
  fits := h.fits
  forward := fun irp hirp => (h.fits irp hirp).forward hclock
  tiles := h.tiles

/-- At every point of a run in which the omit period ends between two intervals, every entry
holds what was transferred between its times, and those behind the omit period tile the
measurement. -/
theorem intervals_match {platform : Platform} {test test' : IperfTest} {now : Timeval}
    {events : List TransferEvent} (hf : Fresh test)
    (hrun : transferRun platform (startTest now test) events = some test')
    (hclock : ∀ i, (readings
      (.clock now :: historyOf platform i (startTest now test) events)).Pairwise (· ≤ ·))
    (hends : EndsBetween platform (startTest now test) events) :
    ∀ i sp, test'.streams[i]? = some sp →
      IntervalsMatch (.clock now :: historyOf platform i (startTest now test) events)
        sp.result := by
  intro i sp hsp
  have htracked := (TrackedEnd.start hf now i).run hrun hends sp hsp
  exact htracked.intervalsMatch (hclock i)

/-- Two ticks with the end of the omit period at the first one. -/
def promptEvents : List TransferEvent :=
  [.send thousandBytes none, .tick fun _ => { now := ⟨1, 0⟩ }, .endOmit ⟨1, 0⟩ fun _ => {},
    .send thousandBytes none, .tick fun _ => { now := ⟨2, 0⟩ }]

/-- The kept entry of that run has the blocks of the second call and the second second, so its
times and its bytes belong together. -/
theorem promptEvents_match :
    ∃ test', transferRun ⟨true, true, fun _ => rfl⟩ (startTest {} omittingSender) promptEvents =
        some test' ∧
      ∀ i sp, test'.streams[i]? = some sp →
        IntervalsMatch (.clock {} :: historyOf ⟨true, true, fun _ => rfl⟩ i
          (startTest {} omittingSender) promptEvents) sp.result := by
  have hclock : ∀ i, (readings (.clock {} :: historyOf ⟨true, true, fun _ => rfl⟩ i
      (startTest {} omittingSender) promptEvents)).Pairwise (· ≤ ·) := by
    intro i
    have hreadings : readings (.clock {} :: historyOf ⟨true, true, fun _ => rfl⟩ i
        (startTest {} omittingSender) promptEvents) = [{}, ⟨1, 0⟩, ⟨1, 0⟩, ⟨2, 0⟩] := rfl
    rw [hreadings]
    decide
  have hends : EndsBetween ⟨true, true, fun _ => rfl⟩ (startTest {} omittingSender)
      promptEvents := by
    refine ⟨fun _ _ he => (by cases he), fun _ hsent => ?_⟩
    cases hsent
    refine ⟨fun _ _ he => (by cases he), fun _ hticked => ?_⟩
    cases hticked
    refine ⟨fun _ _ he => ?_, fun _ hended => ?_⟩
    · cases he
      intro sp hsp
      right
      rw [List.mem_singleton.mp hsp]
      rfl
    · cases hended
      refine ⟨fun _ _ he => (by cases he), fun _ hsent => ?_⟩
      cases hsent
      exact ⟨fun _ _ he => (by cases he), fun _ _ => trivial⟩
  exact ⟨_, rfl, intervals_match omittingSender_fresh rfl hclock hends⟩

/-- A tick after the omit period has ended inside an interval: the entry does not start with the
measurement. -/
theorem not_intervalsMatch_tick {test : IperfTest} {sp : IperfStream}
    {history : List (Mark Timeval)} (hom : test.omitting = false)
    (hnone : keptIntervals sp.result = []) (hapart : nextStart sp.result ≠ sp.result.startTime)
    (platform : Platform) (sample : Sample) :
    ¬ IntervalsMatch history (statsOfStream platform test sample sp).result := by
  intro hmatch
  have htiles := hmatch.tiles
  obtain ⟨hstart, -, hstartTime, -⟩ := intervalEntry_times platform test sample sp
  rw [keptIntervals_tick, hom, hnone] at htiles
  have hfirst := (htiles (by simp)).1
  unfold spanOf statsOfStream at hfirst
  dsimp only at hfirst
  rw [hstart, hstartTime] at hfirst
  exact hapart hfirst

/-- The same with the end of the omit period half a second later. -/
def lateEvents : List TransferEvent :=
  [.send thousandBytes none, .tick fun _ => { now := ⟨1, 0⟩ }, .send thousandBytes none,
    .endOmit ⟨1, 500000⟩ fun _ => {}, .send thousandBytes none, .tick fun _ => { now := ⟨2, 0⟩ }]

/-- The entry of that run has the blocks of one call and a whole second, although the bytes of
half of that second were forgotten. -/
theorem lateEvents_not_match :
    Fresh omittingSender ∧ ∃ test',
      transferRun ⟨true, true, fun _ => rfl⟩ (startTest {} omittingSender) lateEvents =
        some test' ∧
      (∀ i, (readings (.clock {} :: historyOf ⟨true, true, fun _ => rfl⟩ i
        (startTest {} omittingSender) lateEvents)).Pairwise (· ≤ ·)) ∧
      ∃ sp, test'.streams[0]? = some sp ∧
        ¬ IntervalsMatch (.clock {} :: historyOf ⟨true, true, fun _ => rfl⟩ 0
          (startTest {} omittingSender) lateEvents) sp.result := by
  refine ⟨omittingSender_fresh, _, rfl, ?_, _, rfl, ?_⟩
  · intro i
    have hreadings : readings (.clock {} :: historyOf ⟨true, true, fun _ => rfl⟩ i
        (startTest {} omittingSender) lateEvents) = [{}, ⟨1, 0⟩, ⟨1, 500000⟩, ⟨2, 0⟩] := rfl
    rw [hreadings]
    decide
  · exact not_intervalsMatch_tick rfl rfl (by decide) _ _

end IperfRuntime.IntervalWindows
