import IperfRuntime.ClientLoop
import IperfRuntime.ResultsFrame
import IperfRuntime.TimerEntries
import IperfRuntime.TrafficFrame

/-!
# Timers and their test

Every timer of a client has one pointer in the test or in a stream. While a pointer is set
exactly when its timer is active, `iperf_free_test` cancels all timers. The handler of
`TEST_START` overwrites the pointers without a look at them. The server's timers, which go
through the same routines, are not followed here.
-/

namespace IperfRuntime.TimerOwnership

open ClockReading JsonTree TimerQueue TimerPairs TimerEntries TestState StreamTraffic
  TrafficFrame ListLoop IntervalStats StreamCreation ResultsExchange ResultsFrame ClientTimers
  ClientRun ClientLoop

/-- Whether the client creates a timer for this callback as a periodic one. -/
def isPeriodic : ClientProc → Bool
  | .testTimer => false
  | .stats => true
  | .reporter => true
  | .omission => false
  | .send _ => true

/-- The pointer to the timer of a callback. -/
def pointerOf (test : IperfTest) : ClientProc → Option ℕ
  | .testTimer => test.timer
  | .stats => test.statsTimer
  | .reporter => test.reporterTimer
  | .omission => test.omitTimer
  | .send stream => (test.streams[stream]?).bind (·.sendTimer)

/-- The active timers are those whose pointers are set, among the given callbacks. -/
structure Owned (procs : Set ClientProc) (q : TimerLists ClientProc) (test : IperfTest) :
    Prop where
  valid : q.Valid
  active : ∀ a proc periodic, Active q a proc periodic ↔
    proc ∈ procs ∧ pointerOf test proc = some a ∧ isPeriodic proc = periodic

variable {procs : Set ClientProc} {q : TimerLists ClientProc} {test test' : IperfTest}

/-- Two tests with the same timer pointers. -/
def SamePointers (test test' : IperfTest) : Prop :=
  ∀ proc, pointerOf test' proc = pointerOf test proc

/-- Ownership depends on the pointers of the test only. -/
theorem Owned.same (h : Owned procs q test) (hs : SamePointers test test') :
    Owned procs q test' where
  valid := h.valid
  active := by
    intro a proc periodic
    rw [hs proc]
    exact h.active a proc periodic

/-- The pointers to the send timers are those of the streams, by position. -/
theorem pointerOf_send (test : IperfTest) (stream : ℕ) :
    pointerOf test (.send stream) = ((test.streams.map (·.sendTimer))[stream]?).bind id := by
  dsimp only [pointerOf]
  rw [List.getElem?_map]
  cases test.streams[stream]? with
  | none => rfl
  | some sp => rfl

/-- Pointers that agree field by field. -/
theorem samePointers_of (htimer : test'.timer = test.timer)
    (hstats : test'.statsTimer = test.statsTimer)
    (hreporter : test'.reporterTimer = test.reporterTimer)
    (homit : test'.omitTimer = test.omitTimer)
    (hstreams : test'.streams.map (·.sendTimer) = test.streams.map (·.sendTimer)) :
    SamePointers test test' := by
  intro proc
  cases proc with
  | testTimer => exact htimer
  | stats => exact hstats
  | reporter => exact hreporter
  | omission => exact homit
  | send stream =>
    rw [pointerOf_send, pointerOf_send, hstreams]

/-- What leaves a stream alone but for its records leaves all pointers. -/
theorem samePointers_of_frame (h : SameFrame test test.streams test' test'.streams) :
    SamePointers test test' := by
  have htimer := congrArg IperfTest.timer h.test
  have hstats := congrArg IperfTest.statsTimer h.test
  have hreporter := congrArg IperfTest.reporterTimer h.test
  have homit := congrArg IperfTest.omitTimer h.test
  have hstreams := congrArg (List.map IperfStream.sendTimer) h.streams
  rw [List.map_map, List.map_map] at hstreams
  exact samePointers_of htimer hstats hreporter homit hstreams

/-- A queue on which no timer is active. -/
theorem owned_empty (hq : q.Valid) (hempty : q.timers = [])
    (hnone : ∀ proc, pointerOf test proc = none) : Owned procs q test where
  valid := hq
  active := by
    intro a proc periodic
    unfold Active
    rw [hempty, hnone proc]
    simp

/-- A timer created for a pointer that was not set. -/
theorem Owned.create (h : Owned Set.univ q test) (proc : ClientProc)
    (hnone : pointerOf test proc = none) (malloc : Bool) (now : Timeval) (usecs : ℤ)
    (hset : ∀ p, pointerOf test' p =
      if p = proc then (tmrCreate q malloc now proc usecs (isPeriodic proc)).1
      else pointerOf test p) :
    Owned Set.univ (tmrCreate q malloc now proc usecs (isPeriodic proc)).2 test' where
  valid := h.valid.create _ _ _ _ _
  active := by
    intro a p periodic
    rw [active_create, h.active, hset p]
    by_cases hp : p = proc
    · rw [if_pos hp, hp, hnone]
      simp
    · have hne : proc ≠ p := fun he => hp he.symm
      rw [if_neg hp]
      simp [hne]

/-- A timer cancelled through its pointer is gone from the queue, and the other pointers lead
to their timers as before. -/
theorem Owned.cancel (h : Owned procs q test) (proc : ClientProc) (hproc : proc ∈ procs) :
    Owned (procs \ {proc}) (cancelIfSet (pointerOf test proc) q) test := by
  cases hp : pointerOf test proc with
  | none =>
    refine ⟨h.valid, ?_⟩
    intro a p periodic
    dsimp only [cancelIfSet]
    rw [h.active]
    constructor
    · rintro ⟨hmem, hpointer, hper⟩
      refine ⟨⟨hmem, ?_⟩, hpointer, hper⟩
      intro heq
      rw [Set.mem_singleton_iff.mp heq, hp] at hpointer
      cases hpointer
    · rintro ⟨⟨hmem, -⟩, hpointer, hper⟩
      exact ⟨hmem, hpointer, hper⟩
  | some t =>
    have hactive : Active q t proc (isPeriodic proc) := (h.active _ _ _).mpr ⟨hproc, hp, rfl⟩
    refine ⟨?_, ?_⟩
    · obtain ⟨u, hu, haddress, -, -⟩ := hactive
      dsimp only [cancelIfSet]
      rw [← haddress]
      exact h.valid.cancel hu
    · intro a p periodic
      dsimp only [cancelIfSet]
      rw [active_cancel, h.active]
      constructor
      · rintro ⟨⟨hmem, hpointer, hper⟩, hne⟩
        refine ⟨⟨hmem, ?_⟩, hpointer, hper⟩
        intro heq
        rw [Set.mem_singleton_iff.mp heq, hp] at hpointer
        exact hne (Option.some.inj hpointer).symm
      · rintro ⟨⟨hmem, hne⟩, hpointer, hper⟩
        refine ⟨⟨hmem, hpointer, hper⟩, ?_⟩
        intro heq
        have hother : Active q a p periodic := (h.active _ _ _).mpr ⟨hmem, hpointer, hper⟩
        rw [heq] at hother
        exact hne (Set.mem_singleton_iff.mpr (hother.proc_eq h.valid hactive))

/-- The throttle timers of the streams from a position on are cancelled in turn, by induction
on the streams. -/
theorem Owned.cancel_streams (pre post : List IperfStream) (hstreams : test.streams = pre ++ post)
    (h : Owned {p | ∀ i, p = .send i → pre.length ≤ i} q test) :
    Owned {p | ∀ i, p = .send i → test.streams.length ≤ i}
      (post.foldl (fun q sp => cancelIfSet sp.sendTimer q) q) test := by
  induction post generalizing pre q with
  | nil =>
    rw [List.append_nil] at hstreams
    rw [← hstreams] at h
    exact h
  | cons sp post ih =>
    have hpointer : pointerOf test (.send pre.length) = sp.sendTimer := by
      dsimp only [pointerOf]
      rw [hstreams, List.getElem?_append_right le_rfl, Nat.sub_self]
      rfl
    have hmem : ClientProc.send pre.length ∈ {p | ∀ i, p = .send i → pre.length ≤ i} := by
      intro i hi
      cases hi
      exact le_rfl
    have hcancel := h.cancel _ hmem
    rw [hpointer] at hcancel
    have hset : ({p | ∀ i, p = .send i → pre.length ≤ i} \ {.send pre.length} : Set ClientProc) =
        {p | ∀ i, p = .send i → (pre ++ [sp]).length ≤ i} := by
      ext p
      rw [List.length_append, List.length_singleton]
      constructor
      · rintro ⟨hle, hne⟩ i rfl
        have hi := hle i rfl
        have hni : i ≠ pre.length := by
          intro he
          exact hne (by rw [he]; rfl)
        omega
      · intro hlt
        refine ⟨?_, ?_⟩
        · intro i hi
          have := hlt i hi
          omega
        · intro heq
          have hlen := hlt pre.length (Set.mem_singleton_iff.mp heq)
          omega
    rw [hset] at hcancel
    exact ih (pre ++ [sp]) (by rw [hstreams, List.append_assoc]; rfl) hcancel

/-- `iperf_free_test` leaves a queue without active timers, as it looks at every pointer that
may own one. -/
theorem Owned.free (h : Owned Set.univ q test) :
    (iperfFreeTest q test).Valid ∧ (iperfFreeTest q test).timers = [] := by
  have hall : Owned {p | ∀ i, p = .send i → ([] : List IperfStream).length ≤ i} q test := by
    have hset : ({p | ∀ i, p = .send i → ([] : List IperfStream).length ≤ i} : Set ClientProc) =
        Set.univ := by
      ext p
      simp
    rw [hset]
    exact h
  have hstreams := hall.cancel_streams [] test.streams rfl
  have homit := hstreams.cancel .omission (by simp)
  have htimer := homit.cancel .testTimer (by simp)
  have hstats := htimer.cancel .stats (by simp)
  have hreporter := hstats.cancel .reporter (by simp)
  refine ⟨hreporter.valid, ?_⟩
  refine List.eq_nil_iff_forall_not_mem.mpr ?_
  intro t ht
  obtain ⟨hmem, hpointer, -⟩ := (hreporter.active _ _ _).mp (active_of_mem ht)
  cases hp : t.proc with
  | send stream =>
    rw [hp] at hmem hpointer
    have hlen : test.streams.length ≤ stream := hmem.1.1.1.1 stream rfl
    dsimp only [pointerOf] at hpointer
    rw [List.getElem?_eq_none hlen] at hpointer
    cases hpointer
  | testTimer => simp [hp] at hmem
  | stats => simp [hp] at hmem
  | reporter => simp [hp] at hmem
  | omission => simp [hp] at hmem

/-- The timers of a whole client. -/
def OwnedClient (c : Client) : Prop := Owned Set.univ c.1 c.2.test

/-- A periodic timer stays behind its callback. -/
theorem Owned.finish_periodic (h : Owned Set.univ q test) {t : Timer ClientProc}
    (ht : t ∈ q.timers) (hper : isPeriodic t.proc = true) :
    Owned Set.univ (finishTimer t.address q) test where
  valid := h.valid.finish t.address
  active := by
    intro a p periodic
    have hkind : t.periodic = true := by
      have hactive := (h.active _ _ _).mp (active_of_mem ht)
      rw [← hactive.2.2]
      exact hper
    rw [active_finish h.valid ht, h.active]
    constructor
    · intro hboth
      exact hboth.1
    · intro hp
      exact ⟨hp, Or.inl hkind⟩

/-- A timer whose callback clears its pointer goes behind it, so no pointer to a free timer is
left. -/
theorem Owned.finish_once (h : Owned Set.univ q test) {t : Timer ClientProc} (ht : t ∈ q.timers)
    (hper : isPeriodic t.proc = false)
    (hclear : ∀ p, pointerOf test' p = if p = t.proc then none else pointerOf test p) :
    Owned Set.univ (finishTimer t.address q) test' where
  valid := h.valid.finish t.address
  active := by
    intro a p periodic
    have hactive := active_of_mem ht
    obtain ⟨-, hpointer, hkind⟩ := (h.active _ _ _).mp hactive
    have honce : ¬t.periodic = true := by
      rw [← hkind, hper]
      exact Bool.false_ne_true
    rw [active_finish h.valid ht, h.active, hclear p]
    by_cases hp : p = t.proc
    · rw [if_pos hp, hp, hpointer]
      constructor
      · rintro ⟨⟨-, ha, -⟩, hor⟩
        exact absurd (Option.some.inj ha).symm (hor.resolve_left honce)
      · rintro ⟨-, ha, -⟩
        cases ha
    · rw [if_neg hp]
      constructor
      · intro hboth
        exact hboth.1
      · intro hother
        refine ⟨hother, Or.inr ?_⟩
        intro ha
        have hsame := (h.active _ _ _).mpr hother
        rw [ha] at hsame
        exact hp (hsame.proc_eq h.valid hactive)

/-- `tmr_reset` through a pointer moves a timer in the list and keeps its owner. -/
theorem Owned.reset (h : Owned procs q test) (now : Timeval) (pointer : Option ℕ) :
    Owned procs (resetIfSet now pointer q) test := by
  cases pointer with
  | none => exact h
  | some t =>
    refine ⟨h.valid.reset now t, ?_⟩
    intro a p periodic
    dsimp only [resetIfSet]
    rw [active_reset h.valid]
    exact h.active a p periodic

/-- `iperf_stats_callback` sets no pointer. -/
theorem samePointers_stats (platform : Platform) (samples : ℕ → Sample) (test : IperfTest) :
    SamePointers test (iperfStatsCallback platform samples test) := by
  refine samePointers_of rfl rfl rfl rfl (List.ext_getElem? fun i => ?_)
  dsimp only [iperfStatsCallback]
  rw [List.getElem?_map, List.getElem?_map, List.getElem?_mapIdx, Option.map_map]
  rfl

/-- The end of omission clears its own pointer. -/
theorem pointerOf_endOmission (now : Timeval) (samples : ℕ → Sample) (test : IperfTest)
    (proc : ClientProc) :
    pointerOf (endOmission now samples test) proc =
      if proc = .omission then none else pointerOf test proc := by
  cases proc with
  | testTimer => rfl
  | stats => rfl
  | reporter => rfl
  | omission => rfl
  | send stream =>
    have hne : ClientProc.send stream ≠ .omission := ClientProc.noConfusion
    rw [if_neg hne, pointerOf_send, pointerOf_send]
    dsimp only [endOmission, iperfResetStats]
    rw [List.getElem?_map, List.getElem?_map, List.getElem?_mapIdx, Option.map_map]
    rfl

/-- Every callback, with what `tmr_run` does behind it, keeps the timers owned; only the
timers of the test's end and of the omit period go. -/
theorem ownedClient_callback {platform : Platform} {env : ℕ → CallbackInput} {now : Timeval}
    (c : Client) (h : OwnedClient c) (t : Timer ClientProc) (ht : t ∈ c.1.timers) :
    OwnedClient (finishTimer t.address (callClient platform env t.proc now c).1,
      (callClient platform env t.proc now c).2) := by
  cases hproc : t.proc with
  | testTimer =>
    refine Owned.finish_once h ht (by rw [hproc]; rfl) ?_
    intro p
    rw [hproc]
    cases p with
    | testTimer => rfl
    | stats => rfl
    | reporter => rfl
    | omission => rfl
    | send stream => rfl
  | stats =>
    have hfinish := Owned.finish_periodic h ht (by rw [hproc]; rfl)
    dsimp only [callClient]
    split
    · exact hfinish
    · exact hfinish.same (samePointers_stats platform _ _)
  | reporter =>
    have hfinish := Owned.finish_periodic h ht (by rw [hproc]; rfl)
    dsimp only [callClient]
    split
    · exact hfinish
    · exact hfinish
  | omission =>
    have hreset := (Owned.reset h now c.2.test.statsTimer).reset now c.2.test.reporterTimer
    have hactive := (h.active _ _ _).mp (active_of_mem ht)
    obtain ⟨u, hu, haddress, huproc, -⟩ := (hreset.active _ _ _).mpr hactive
    have hclear : ∀ p, pointerOf (endOmission (env c.2.calls).now
      (env c.2.calls).samples c.2.test) p =
        if p = u.proc then none else pointerOf c.2.test p := by
      intro p
      rw [huproc, hproc]
      exact pointerOf_endOmission _ _ _ p
    have hfinish := hreset.finish_once hu (by rw [huproc, hproc]; rfl) hclear
    rw [haddress] at hfinish
    exact hfinish
  | send stream =>
    have hfinish := Owned.finish_periodic h ht (by rw [hproc]; rfl)
    exact hfinish.same (samePointers_of_frame (throttleStream_frame _ _ _ _))

/-- No timer pointer is set. -/
structure NoTimers (test : IperfTest) : Prop where
  timer : test.timer = none
  statsTimer : test.statsTimer = none
  reporterTimer : test.reporterTimer = none
  omitTimer : test.omitTimer = none
  sendTimers : ∀ sp ∈ test.streams, sp.sendTimer = none

/-- A test without timers points to none, for every callback. -/
theorem NoTimers.pointerOf (h : NoTimers test) (proc : ClientProc) :
    TimerOwnership.pointerOf test proc = none := by
  cases proc with
  | testTimer => exact h.timer
  | stats => exact h.statsTimer
  | reporter => exact h.reporterTimer
  | omission => exact h.omitTimer
  | send stream =>
    dsimp only [TimerOwnership.pointerOf]
    cases hs : test.streams[stream]? with
    | none => rfl
    | some sp => exact h.sendTimers sp (List.mem_of_getElem? hs)

/-- A routine that creates timers for some callbacks at most. -/
structure Creates (procs : Set ClientProc) (test : IperfTest) (r : Attempt) : Prop where
  owned : Owned Set.univ r.2.1 r.2.2
  others : ∀ p, p ∉ procs → pointerOf r.2.2 p = pointerOf test p

/-- A timer that is made gets its pointer, and every other pointer keeps its own. -/
theorem Owned.creates (h : Owned Set.univ q test) (proc : ClientProc)
    (hnone : pointerOf test proc = none) (malloc : Bool) (now : Timeval) (usecs : ℤ) (done : Bool)
    (hset : ∀ p, pointerOf test' p =
      if p = proc then (tmrCreate q malloc now proc usecs (isPeriodic proc)).1
      else pointerOf test p) :
    Creates {proc} test
      (done, (tmrCreate q malloc now proc usecs (isPeriodic proc)).2, test') where
  owned := h.create proc hnone malloc now usecs hset
  others := by
    intro p hp
    have hne : p ≠ proc := fun he => hp (Set.mem_singleton_iff.mpr he)
    rw [hset p, if_neg hne]

/-- Two routines in turn. -/
theorem Creates.andThen {procs procs' : Set ClientProc} {a : Attempt}
    {next : TimerLists ClientProc → IperfTest → Attempt} (ha : Creates procs test a)
    (hnext : Creates procs' a.2.2 (next a.2.1 a.2.2)) :
    Creates (procs ∪ procs') test (a.andThen next) := by
  unfold Attempt.andThen
  split
  · refine ⟨hnext.owned, ?_⟩
    intro p hp
    rw [hnext.others p fun hmem => hp (Or.inr hmem), ha.others p fun hmem => hp (Or.inl hmem)]
  · exact ⟨ha.owned, fun p hp => ha.others p fun hmem => hp (Or.inl hmem)⟩

/-- The timer of the test, for a duration; a failed allocation leaves the pointer empty. -/
theorem createTestTimer_creates (h : Owned Set.univ q test) (hnone : test.timer = none)
    (malloc : Bool) (now : Timeval) :
    Creates {.testTimer} test (createTestTimer malloc now q test) := by
  unfold createTestTimer
  split
  · refine h.creates .testTimer hnone malloc now _ _ ?_
    intro p
    cases p <;> rfl
  · exact ⟨h, fun _ _ => rfl⟩

/-- The timer of the statistics, for an interval. -/
theorem createStatsTimer_creates (h : Owned Set.univ q test) (hnone : test.statsTimer = none)
    (malloc : Bool) (now : Timeval) :
    Creates {.stats} test (createStatsTimer malloc now q test) := by
  unfold createStatsTimer
  split
  · refine h.creates .stats hnone malloc now _ _ ?_
    intro p
    cases p <;> rfl
  · exact ⟨h, fun _ _ => rfl⟩

/-- The timer of the reports, for an interval. -/
theorem createReporterTimer_creates (h : Owned Set.univ q test) (hnone : test.reporterTimer = none)
    (malloc : Bool) (now : Timeval) :
    Creates {.reporter} test (createReporterTimer malloc now q test) := by
  unfold createReporterTimer
  split
  · refine h.creates .reporter hnone malloc now _ _ ?_
    intro p
    cases p <;> rfl
  · exact ⟨h, fun _ _ => rfl⟩

/-- The timer of the omit period, which a test without one does not make. -/
theorem createClientOmitTimer_creates (h : Owned Set.univ q test) (hnone : test.omitTimer = none)
    (input : StartInput) :
    Creates {.omission} test (createClientOmitTimer input q test) := by
  unfold createClientOmitTimer
  split
  · have hsame : SamePointers test { test with omitTimer := none, omitting := false } :=
      samePointers_of rfl rfl rfl hnone.symm rfl
    exact ⟨h.same hsame, fun p _ => hsame p⟩
  · split
    · exact ⟨h, fun _ _ => rfl⟩
    · refine h.creates .omission hnone input.omitMalloc _ _ _ ?_
      intro p
      cases p <;> rfl

/-- Replacing one stream changes no other stream's pointer. -/
theorem getElem?_middle_ne {α : Type*} {pre post : List α} {a b : α} {i : ℕ}
    (h : i ≠ pre.length) : (pre ++ a :: post)[i]? = (pre ++ b :: post)[i]? := by
  by_cases hlt : i < pre.length
  · rw [List.getElem?_append_left hlt, List.getElem?_append_left hlt]
  · have hle : pre.length ≤ i := Nat.le_of_not_lt hlt
    obtain ⟨k, hk⟩ : ∃ k, i - pre.length = k + 1 := ⟨i - pre.length - 1, by omega⟩
    rw [List.getElem?_append_right hle, List.getElem?_append_right hle, hk,
      List.getElem?_cons_succ, List.getElem?_cons_succ]

/-- The element in the middle of a list is at the position with its front's length. -/
theorem getElem?_middle {α : Type*} (pre post : List α) (a : α) :
    (pre ++ a :: post)[pre.length]? = some a := by
  rw [List.getElem?_append_right le_rfl, Nat.sub_self, List.getElem?_cons_zero]

/-- What the loop of `iperf_create_send_timers` keeps: the streams it has not come to have
no timer. -/
structure SendTimersUpTo (test : IperfTest) (i : ℕ) (s : Bool × TimerLists ClientProc)
    (streams : List IperfStream) : Prop where
  owned : Owned Set.univ s.2 { test with streams := streams }
  later : ∀ j sp, i ≤ j → streams[j]? = some sp → sp.sendTimer = none

/-- One round of the loop gives its stream a send timer of its own, or fails and leaves it
without one. -/
theorem SendTimersUpTo.step {s : Bool × TimerLists ClientProc} {pre post : List IperfStream}
    {sp : IperfStream} (h : SendTimersUpTo test pre.length s (pre ++ sp :: post))
    (input : StartInput) (rate : ℕ) :
    SendTimersUpTo test (pre.length + 1) (sendTimerBody input rate pre.length s sp).1
      (pre ++ (sendTimerBody input rate pre.length s sp).2.1 :: post) := by
  have hlater : ∀ (sp' : IperfStream) j sp'', pre.length + 1 ≤ j →
      (pre ++ sp' :: post)[j]? = some sp'' → sp''.sendTimer = none := by
    intro sp' j sp'' hj hsp''
    have hne : j ≠ pre.length := by omega
    rw [getElem?_middle_ne (b := sp) hne] at hsp''
    exact h.later j sp'' (by omega) hsp''
  have hothers : ∀ (sp' : IperfStream) p, p ≠ .send pre.length →
      pointerOf { test with streams := pre ++ sp' :: post } p =
        pointerOf { test with streams := pre ++ sp :: post } p := by
    intro sp' p hp
    cases p with
    | testTimer => rfl
    | stats => rfl
    | reporter => rfl
    | omission => rfl
    | send stream =>
      have hne : stream ≠ pre.length := by
        intro he
        exact hp (by rw [he])
      dsimp only [pointerOf]
      rw [getElem?_middle_ne hne]
  have hown : ∀ sp' : IperfStream,
      pointerOf { test with streams := pre ++ sp' :: post } (.send pre.length) =
        sp'.sendTimer := by
    intro sp'
    dsimp only [pointerOf]
    rw [getElem?_middle]
    rfl
  have hnone : sp.sendTimer = none := h.later pre.length sp le_rfl (getElem?_middle pre post sp)
  unfold sendTimerBody
  split
  · refine ⟨?_, hlater _⟩
    refine h.owned.create (.send pre.length) ((hown sp).trans hnone) _ _ _ ?_
    intro p
    by_cases hp : p = .send pre.length
    · rw [if_pos hp, hp, hown]
      rfl
    · rw [if_neg hp, hothers _ p hp]
  · refine ⟨h.owned.same ?_, hlater _⟩
    intro p
    by_cases hp : p = .send pre.length
    · rw [hp, hown, hown]
    · exact hothers _ p hp

/-- The whole loop gives every stream a timer of its own, up to the first that cannot be made. -/
theorem createSendTimers_owned (h : Owned Set.univ q test)
    (hnone : ∀ sp ∈ test.streams, sp.sendTimer = none) (input : StartInput) :
    Owned Set.univ (iperfCreateSendTimers input q test).2.1
      (iperfCreateSendTimers input q test).2.2 := by
  unfold iperfCreateSendTimers
  split
  · have hstart : SendTimersUpTo test 0 (true, q) test.streams :=
      ⟨h, fun j sp _ hsp => hnone sp (List.mem_of_getElem? hsp)⟩
    obtain ⟨i, hloop⟩ := forEach_indexed (SendTimersUpTo test)
      (fun s pre sp post hs => hs.step input test.settings.rate) (true, q) test.streams hstart
    exact hloop.owned
  · exact h

/-- A `TEST_START` that overwrites no pointer to an active timer: it fails before it comes
to the pointers, or none is set. -/
def KeepsTimers (input : StartInput) (test : IperfTest) : Prop :=
  input.initClock = none ∨ input.timersClock = none ∨ NoTimers test

/-- `create_client_timers` makes up to three timers, one after the other. -/
theorem createClientTimers_creates (h : Owned Set.univ q test) (hnone : NoTimers test)
    (input : StartInput) :
    Creates ({.testTimer} ∪ {.stats} ∪ {.reporter}) test (createClientTimers input q test) := by
  unfold createClientTimers
  split
  · exact ⟨h, fun _ _ => rfl⟩
  · rename_i now _
    have hsame : SamePointers test
        { test with timer := none, statsTimer := none, reporterTimer := none } :=
      samePointers_of hnone.timer.symm hnone.statsTimer.symm hnone.reporterTimer.symm rfl rfl
    have hfirst := createTestTimer_creates (h.same hsame) rfl (input.timersMalloc 0) now
    have hstats := hfirst.others .stats ClientProc.noConfusion
    have hsecond := createStatsTimer_creates hfirst.owned hstats (input.timersMalloc 1) now
    have hboth := hfirst.andThen hsecond
    have hreporter := hboth.others .reporter (by simp)
    have hthird := createReporterTimer_creates hboth.owned hreporter (input.timersMalloc 2) now
    have hall := hboth.andThen hthird
    exact ⟨hall.owned, fun p hp => (hall.others p hp).trans (hsame p)⟩

/-- The handler of `TEST_START` keeps timers owned when it overwrites no pointer, that is when
none of them is set before. -/
theorem handleTestStart_owned (h : Owned Set.univ q test) (input : StartInput)
    (hkeeps : KeepsTimers input test) :
    Owned Set.univ (handleTestStart input q test).2.1 (handleTestStart input q test).2.2 := by
  unfold handleTestStart
  split
  · exact h
  · rename_i now hclock
    have hinit : SamePointers test (iperfInitTest now test) := by
      refine samePointers_of rfl rfl rfl rfl ?_
      dsimp only [iperfInitTest]
      rw [List.map_map]
      rfl
    have howned := h.same hinit
    rcases hkeeps with hnone | hnone | hnone
    · rw [hnone] at hclock
      cases hclock
    · have hfail : createClientTimers input q (iperfInitTest now test) =
          (false, q, iperfInitTest now test) := by
        unfold createClientTimers
        rw [hnone]
      rw [hfail]
      exact howned
    · have hstreams : ∀ sp ∈ (iperfInitTest now test).streams, sp.sendTimer = none := by
        intro sp hsp
        obtain ⟨sp₀, hsp₀, rfl⟩ := List.mem_map.mp hsp
        exact hnone.sendTimers sp₀ hsp₀
      have hclear : NoTimers (iperfInitTest now test) :=
        ⟨hnone.timer, hnone.statsTimer, hnone.reporterTimer, hnone.omitTimer, hstreams⟩
      have hfirst := createClientTimers_creates howned hclear input
      have homit : (createClientTimers input q (iperfInitTest now test)).2.2.omitTimer = none :=
        (hfirst.others .omission (by simp)).trans hclear.omitTimer
      have hsecond := createClientOmitTimer_creates hfirst.owned homit input
      have hboth := hfirst.andThen hsecond
      have hsend : ∀ stream, pointerOf ((createClientTimers input q
        (iperfInitTest now test)).andThen
          (createClientOmitTimer input)).2.2 (.send stream) = none := by
        intro stream
        rw [hboth.others (.send stream) (by simp)]
        exact hclear.pointerOf (.send stream)
      generalize (createClientTimers input q (iperfInitTest now test)).andThen
        (createClientOmitTimer input) = prepared at hboth hsend ⊢
      unfold Attempt.andThen
      split
      · dsimp only
        split
        · exact hboth.owned
        · refine createSendTimers_owned hboth.owned ?_ input
          intro sp hsp
          obtain ⟨i, hi⟩ := List.mem_iff_getElem?.mp hsp
          have hpointer := hsend i
          dsimp only [pointerOf] at hpointer
          rw [hi] at hpointer
          exact hpointer
      · exact hboth.owned

/-- New streams have no timers. -/
theorem samePointers_create (io : ℕ → StreamIo) (test : IperfTest) :
    SamePointers test (iperfCreateStreams io test).2.1 := by
  obtain ⟨hframe, added, hstreams, hfresh, -⟩ :=
    createStreamsFrom_spec io test.bindPort test.numStreams.toNat 0 test
  have htimer := congrArg IperfTest.timer hframe
  have hstats := congrArg IperfTest.statsTimer hframe
  have hreporter := congrArg IperfTest.reporterTimer hframe
  have homit := congrArg IperfTest.omitTimer hframe
  intro proc
  cases proc with
  | testTimer => exact htimer
  | stats => exact hstats
  | reporter => exact hreporter
  | omission => exact homit
  | send stream =>
    dsimp only [pointerOf, iperfCreateStreams]
    rw [hstreams]
    by_cases hlt : stream < test.streams.length
    · rw [List.getElem?_append_left hlt]
    · have hle : test.streams.length ≤ stream := Nat.le_of_not_lt hlt
      rw [List.getElem?_append_right hle, List.getElem?_eq_none hle]
      cases hs : added[stream - test.streams.length]? with
      | none => rfl
      | some sp => exact (hfresh sp (List.mem_of_getElem? hs)).sendTimer

/-- `get_results` sets no pointer. -/
theorem samePointers_results {j : CJson} {r : Bool × IperfTest} (h : getResults j test = some r) :
    SamePointers test r.2 := by
  have hframe := getResults_frame h
  have htimer := congrArg IperfTest.timer hframe.test
  have hstats := congrArg IperfTest.statsTimer hframe.test
  have hreporter := congrArg IperfTest.reporterTimer hframe.test
  have homit := congrArg IperfTest.omitTimer hframe.test
  have hstreams := congrArg (List.map IperfStream.sendTimer) hframe.streams
  rw [List.map_map, List.map_map] at hstreams
  exact samePointers_of htimer hstats hreporter homit hstreams

/-- The handler keeps timers owned, except that a `TEST_START` must overwrite none; the other
messages set no pointer. -/
theorem handleMessage_owned {env : ℕ → CallbackInput} {input : MessageInput} {c : Client}
    {r : Bool × Client} (h : OwnedClient c)
    (hkeeps : input.byte = some .testStart → KeepsTimers input.start c.2.test)
    (hr : iperfHandleMessageClient env input c = some r) : OwnedClient r.2 := by
  have hstate : ∀ byte, OwnedClient (Client.withTest c { c.2.test with state := byte }) :=
    fun byte => h.same fun _ => rfl
  unfold iperfHandleMessageClient at hr
  split at hr
  · cases hr
    exact h
  · rename_i byte hbyte
    dsimp only at hr
    split at hr
    · cases hr
      exact hstate .paramExchange
    · cases hr
      exact (hstate .createStreams).same (samePointers_create _ _)
    · cases hr
      have hstart : KeepsTimers input.start { c.2.test with state := .testStart } := by
        rcases hkeeps hbyte with hnone | hnone | hnone
        · exact Or.inl hnone
        · exact Or.inr (Or.inl hnone)
        · exact Or.inr (Or.inr ⟨hnone.timer, hnone.statsTimer, hnone.reporterTimer,
            hnone.omitTimer, hnone.sendTimers⟩)
      exact handleTestStart_owned (hstate .testStart) input.start hstart
    · cases hr
      exact hstate .testRunning
    · obtain ⟨r', hr', rfl⟩ := Option.map_eq_some_iff.mp hr
      unfold iperfExchangeResults at hr'
      split at hr'
      · split at hr'
        · exact (hstate .exchangeResults).same (samePointers_results hr')
        · cases hr'
          exact hstate .exchangeResults
      · cases hr'
        exact hstate .exchangeResults
    · cases hr
      exact h.same fun _ => rfl
    · cases hr
      exact hstate .iperfDone
    · cases hr
      exact h.same fun _ => rfl
    · cases hr
      exact hstate byte

/-- Neither does a transfer, which turns send timers on and off by their lights alone. -/
theorem samePointers_transfer (input : RoundInput) (test : IperfTest) :
    SamePointers test (transfer input test).2 := by
  unfold transfer
  split
  · exact samePointers_of_frame (iperfRecv_frame _ _ _)
  · exact samePointers_of_frame (iperfSend_frame _ _ _)

/-- Neither does the reading of what is left behind the test. -/
theorem samePointers_drain (input : RoundInput) (test : IperfTest) :
    SamePointers test (drain input test).2 := by
  unfold drain
  split
  · exact samePointers_transfer input test
  · exact fun _ => rfl

/-- The statistics and `TEST_END` at the end of a test make and free no timer. -/
theorem endTest_owned {c : Client} (h : OwnedClient c) (platform : Platform)
    (env : ℕ → CallbackInput) (cpuUtil : ℚ × ℚ × ℚ) :
    OwnedClient (endTest platform env cpuUtil c) := by
  have hdone : SamePointers c.2.test { c.2.test with done := true, cpuUtil := cpuUtil } :=
    fun _ => rfl
  have hstats := samePointers_stats platform (env c.2.calls).samples
    { c.2.test with done := true, cpuUtil := cpuUtil }
  exact ((h.same hdone).same hstats).same fun _ => rfl

/-- The work of a turn behind its message keeps every timer owned. -/
theorem clientWork_owned {platform : Platform} {env : ℕ → CallbackInput} {input : TurnInput}
    {c : Client} {r : Bool × Client} (h : OwnedClient c)
    (hr : clientWork platform env input c = some r) : OwnedClient r.2 := by
  have htransfer : OwnedClient (Client.withTest c (transfer input.round c.2.test).2) :=
    h.same (samePointers_transfer input.round c.2.test)
  unfold clientWork at hr
  split at hr
  · dsimp only at hr
    split at hr
    · obtain ⟨c', hrun, rfl⟩ := Option.map_eq_some_iff.mp hr
      have hran : OwnedClient c' := tmrRun_invariant OwnedClient ownedClient_callback htransfer hrun
      split
      · exact endTest_owned hran platform env input.cpuUtil
      · exact hran
    · cases hr
      exact htransfer
  · split at hr
    · cases hr
      exact h.same (samePointers_drain input.round c.2.test)
    · cases hr
      exact h

/-- A turn in which no pointer to an active timer is overwritten. -/
def TurnKeepsTimers (input : TurnInput) (c : Client) : Prop :=
  ∀ message, input.message = some message → message.byte = some .testStart →
    KeepsTimers message.start c.2.test

/-- So does the whole turn, if no pointer to an active timer is overwritten by its message. -/
theorem clientTurn_owned {platform : Platform} {env : ℕ → CallbackInput} {input : TurnInput}
    {c : Client} {r : Bool × Client} (hkeeps : TurnKeepsTimers input c) (h : OwnedClient c)
    (hr : clientTurn platform env input c = some r) : OwnedClient r.2 := by
  obtain ⟨r', hmessage, hwork⟩ := Option.bind_eq_some_iff.mp hr
  have hhandled : OwnedClient r'.2 := by
    unfold clientMessage at hmessage
    split at hmessage
    · rename_i message hm
      exact handleMessage_owned h (hkeeps message hm) hmessage
    · cases hmessage
      exact h
  split at hwork
  · exact clientWork_owned hhandled hwork
  · cases hwork
    exact hhandled

/-- A client that starts on a queue without active timers, with any control messages in
any order, leaves such a queue behind when it is freed, wherever its run stopped, if no
`TEST_START` overwrote a pointer to an active timer. -/
theorem no_timer_outlives_test {platform : Platform} {env : ℕ → CallbackInput}
    {inputs : List TurnInput} {q : TimerLists ClientProc} {test : IperfTest} {c : Client}
    (hq : q.Valid) (hempty : q.timers = []) (hnone : NoTimers test)
    (hkeeps : EveryTurn TurnKeepsTimers platform env inputs (q, { test := test }))
    (hrun : clientTurns platform env inputs (q, { test := test }) = some c) :
    (iperfFreeTest c.1 c.2.test).Valid ∧ (iperfFreeTest c.1 c.2.test).timers = [] := by
  have hstart : OwnedClient (q, { test := test }) := owned_empty hq hempty hnone.pointerOf
  have hturn : ∀ input c r, TurnKeepsTimers input c → OwnedClient c →
      clientTurn platform env input c = some r → OwnedClient r.2 :=
    fun input c r hkeeps h hr => clientTurn_owned hkeeps h hr
  exact (clientTurns_invariant OwnedClient hturn hkeeps hstart hrun).free

/-- A sender with one stream and a rate, as it is before the run. -/
def ratedClient : IperfTest :=
  { role := .client, sender := true, numStreams := 1, duration := 10, statsInterval := 1,
    reporterInterval := 1, multisend := 10, settings := { rate := 1000000 }, jniCallback := true,
    affinity := -1 }

/-- A run that the server breaks off in the middle of the test. -/
def brokenOffTurns : List TurnInput :=
  [messageTurn .createStreams 1000, messageTurn .testStart 1000, messageTurn .testRunning 1000,
    messageTurn .serverTerminate 1000]

/-- The four timers of that run are gone with its test, although it was broken off in the
middle. -/
theorem brokenOff_leaves_no_timer :
    ∃ c, clientTurns ⟨false, false, fun h => h⟩ quietCallbacks brokenOffTurns
        ({}, { test := ratedClient }) = some c ∧ c.1.timers.length = 4 ∧
      (iperfFreeTest c.1 c.2.test).Valid ∧ (iperfFreeTest c.1 c.2.test).timers = [] := by
  have hfour : (clientTurns ⟨false, false, fun h => h⟩ quietCallbacks brokenOffTurns
      ({}, { test := ratedClient })).map (·.1.timers.length) = some 4 := by decide +kernel
  obtain ⟨c, hrun, hlength⟩ := Option.map_eq_some_iff.mp hfour
  have hnone : NoTimers ratedClient := by
    refine ⟨rfl, rfl, rfl, rfl, ?_⟩
    intro sp hsp
    cases hsp
  have hplain : ∀ byte (c : Client), byte ≠ .testStart →
      TurnKeepsTimers (messageTurn byte 1000) c := by
    intro byte c hbyte message hm hstart
    cases hm
    exact absurd (Option.some.inj hstart) hbyte
  have hkeeps : EveryTurn TurnKeepsTimers ⟨false, false, fun h => h⟩ quietCallbacks brokenOffTurns
      ({}, { test := ratedClient }) := by
    refine fun _ => ⟨hplain .createStreams _ (by decide), fun r hr _ => fun _ => ⟨?_, ?_⟩⟩
    · have hcreated : clientTurn ⟨false, false, fun h => h⟩ quietCallbacks
          (messageTurn .createStreams 1000) ({}, { test := ratedClient }) = some _ := rfl
      rw [hcreated] at hr
      cases hr
      intro message _ _
      refine Or.inr (Or.inr ⟨rfl, rfl, rfl, rfl, ?_⟩)
      intro sp hsp
      rw [List.mem_singleton.mp hsp]
    · intro r' _ _ _
      refine ⟨hplain .testRunning _ (by decide), fun r'' _ _ _ => ⟨?_, fun _ _ _ => trivial⟩⟩
      exact hplain .serverTerminate _ (by decide)
  exact ⟨c, hrun, hlength, no_timer_outlives_test valid_empty rfl hnone hkeeps hrun⟩

/-- After a second `TEST_START` the first four timers stay behind, as no pointer leads to them
any more. -/
theorem repeated_start_leaves_timers :
    ¬∀ (platform : Platform) (env : ℕ → CallbackInput) (inputs : List TurnInput)
      (q : TimerLists ClientProc) (test : IperfTest) (c : Client), q.Valid → q.timers = [] →
      NoTimers test → clientTurns platform env inputs (q, { test := test }) = some c →
      (iperfFreeTest c.1 c.2.test).timers = [] := by
  intro hall
  have hfour : (clientTurns ⟨false, false, fun h => h⟩ quietCallbacks
      [messageTurn .createStreams 1000, messageTurn .testStart 1000, messageTurn .testStart 1000]
      ({}, { test := ratedClient })).map (fun c => (iperfFreeTest c.1 c.2.test).timers.length) =
        some 4 := by decide +kernel
  obtain ⟨c, hrun, hlength⟩ := Option.map_eq_some_iff.mp hfour
  have hnone : NoTimers ratedClient := by
    refine ⟨rfl, rfl, rfl, rfl, ?_⟩
    intro sp hsp
    cases hsp
  have hempty := hall _ _ _ _ _ c valid_empty rfl hnone hrun
  rw [hempty] at hlength
  exact absurd hlength (by decide)

end IperfRuntime.TimerOwnership
