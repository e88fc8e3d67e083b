import IperfRuntime.ByteConservation
import IperfRuntime.TrafficFrame
import IperfRuntime.ParameterExchange

/-!
# Histories of streams

What a run of one end does to its streams, position by position. A relation that holds
across every call on a stream holds across the loops over the streams; from it follow what
an end never counts and what its snapshots at the end of omission are. Streams are not added
or removed in between.
-/

namespace IperfRuntime.StreamHistory

open ClockReading TestState TestParameters ParameterExchange ListLoop StreamTraffic IntervalStats
  ByteConservation TrafficFrame

/-- A relation across everything an end does to a stream while data moves. -/
structure StreamSteps (sender : Bool) (R : IperfStream → IperfStream → Prop) : Prop where
  refl : ∀ sp, R sp sp
  trans : ∀ {a b c}, R a b → R b c → R a c
  snd : sender = true → ∀ test io sp, R sp (snd test io sp).2.1
  check : sender = true → ∀ convert now test sp, R sp (iperfCheckThrottle convert now test sp).2
  rcv : sender = false → ∀ test io sp, R sp (rcv test io sp).2
  tick : ∀ platform test sample sp, R sp (statsOfStream platform test sample sp)

variable {sender : Bool} {R : IperfStream → IperfStream → Prop}

/-- A step of one stream is a step of the list. -/
theorem StreamSteps.round (h : StreamSteps sender R) {base pre post : List IperfStream}
    {a a' : IperfStream} (hbase : List.Forall₂ R base (pre ++ a :: post)) (ha : R a a') :
    List.Forall₂ R base (pre ++ a' :: post) := by
  induction pre generalizing base with
  | nil =>
    cases hbase with
    | cons hhead htail => exact List.Forall₂.cons (h.trans hhead ha) htail
  | cons b pre ih =>
    cases hbase with
    | cons hhead htail => exact List.Forall₂.cons hhead (ih htail)

/-- Where nothing happens every stream takes the empty step. -/
theorem StreamSteps.same (h : StreamSteps sender R) (streams : List IperfStream) :
    List.Forall₂ R streams streams := by
  induction streams with
  | nil => exact List.Forall₂.nil
  | cons sp rest ih => exact List.Forall₂.cons (h.refl sp) ih

/-- One attempt to send is a step of its stream. -/
theorem StreamSteps.sendBody (h : StreamSteps true R) (env : SendEnv)
    (writeSetP : Option (Finset ℤ)) (round multisend : ℕ) (now : Timeval) (i : ℕ) (s : SendState)
    (sp : IperfStream) : R sp (sendBody env writeSetP round multisend now i s sp).2.1 := by
  have hsnd := h.snd rfl s.test (env.io round i) sp
  unfold StreamTraffic.sendBody
  split
  · dsimp only
    split
    · exact hsnd
    · unfold checkAfterSend
      split
      · exact h.trans hsnd (h.check rfl _ _ _ _)
      · exact hsnd
  · exact h.refl sp

/-- A call of `iperf_send`. -/
theorem StreamSteps.iperfSend (h : StreamSteps true R) (env : SendEnv)
    (writeSetP : Option (Finset ℤ)) (test : IperfTest) :
    List.Forall₂ R test.streams (iperfSend env writeSetP test).test.streams := by
  obtain ⟨current, streams, hkept, heq⟩ := @iperfSend_keeps env writeSetP
    (fun _ streams => List.Forall₂ R test.streams streams)
    (fun round multisend now i s _ sp _ hbase =>
      h.round hbase (h.sendBody env writeSetP round multisend now i s sp))
    (fun _ _ _ _ _ hbase => h.round hbase (h.check rfl _ _ _ _)) test (h.same test.streams)
  rw [heq]
  exact hkept

/-- A call of `iperf_recv`. -/
theorem StreamSteps.iperfRecv (h : StreamSteps false R) (io : ℕ → RcvIo) (readSetP : Finset ℤ)
    (test : IperfTest) : List.Forall₂ R test.streams (iperfRecv io readSetP test).2.1.streams := by
  have hbody : ∀ i (s : RecvState) sp, R sp (recvBody io i s sp).2.1 := by
    intro i s sp
    have hrcv := h.rcv rfl s.test (io i) sp
    unfold recvBody
    split
    · dsimp only
      split
      · exact hrcv
      · exact hrcv
    · exact h.refl sp
  obtain ⟨current, streams, hkept, heq⟩ := @iperfRecv_keeps
    (fun _ streams => List.Forall₂ R test.streams streams) io
    (fun i s _ sp _ hbase => h.round hbase (hbody i s sp)) test (h.same test.streams) readSetP
  rw [heq]
  exact hkept

/-- A call of `iperf_stats_callback`. -/
theorem StreamSteps.stats (h : StreamSteps sender R) (platform : Platform) (samples : ℕ → Sample)
    (test : IperfTest) :
    List.Forall₂ R test.streams (iperfStatsCallback platform samples test).streams := by
  refine List.forall₂_iff_get.mpr ⟨by simp [iperfStatsCallback], ?_⟩
  intro i hi hi'
  have hget : (iperfStatsCallback platform samples test).streams.get ⟨i, hi'⟩ =
      statsOfStream platform test (samples i) (test.streams.get ⟨i, hi⟩) := by
    simp [iperfStatsCallback]
  rw [hget]
  exact h.tick platform test (samples i) _

/-- An event other than the end of omission takes each stream a step further, the sender's
streams by sends and the receiver's by receives. -/
theorem StreamSteps.event {platform : Platform} {test test' : IperfTest} {e : TransferEvent}
    (h : StreamSteps test.sender R) (hstep : transferStep platform test e = some test')
    (he : ∀ now samples, e ≠ .endOmit now samples) :
    List.Forall₂ R test.streams test'.streams := by
  cases e with
  | endOmit now samples => exact absurd rfl (he now samples)
  | tick samples =>
    cases hstep
    exact h.stats platform samples test
  | send env writeSetP =>
    dsimp only [transferStep] at hstep
    split at hstep
    · rename_i hsender
      rw [hsender] at h
      cases hstep
      exact h.iperfSend env writeSetP test
    · cases hstep
  | recv io readSetP =>
    dsimp only [transferStep] at hstep
    split at hstep
    · cases hstep
    · rename_i hsender
      have hfalse : test.sender = false := by simpa using hsender
      rw [hfalse] at h
      cases hstep
      exact h.iperfRecv io readSetP test

/-- What an end keeps of a stream while data moves: its identifier and its snapshots. A
receiver does not count as sent, a sender does not count losses, and counters are `int`. -/
structure Advances (sender : Bool) (sp sp' : IperfStream) : Prop where
  id : sp'.id = sp.id
  omittedPackets : sp'.omittedPacketCount = sp.omittedPacketCount
  omittedErrors : sp'.omittedCntError = sp.omittedCntError
  sentOmit : sp'.result.bytesSentOmit = sp.result.bytesSentOmit
  sent : sp.result.bytesSent ≤ sp'.result.bytesSent
  idle : sender = false → sp'.result.bytesSent = sp.result.bytesSent
  errors : sender = true → sp'.cntError = sp.cntError
  packetsInt : sp'.packetCount = sp.packetCount ∨ IsInt sp'.packetCount
  errorsInt : sp'.cntError = sp.cntError ∨ IsInt sp'.cntError

/-- What is stored in an `int` is in its range. -/
theorem isInt_toInt (n : ℤ) : IsInt (toInt n) := by
  have hlow : -((2 : ℤ) ^ 32 / 2) ≤ n.bmod (2 ^ 32) := Int.le_bmod (by decide)
  have hhigh : n.bmod (2 ^ 32) < ((2 : ℤ) ^ 32 + 1) / 2 := Int.bmod_lt (by decide)
  unfold IsInt toInt
  omega

/-- A stream advances to itself. -/
theorem Advances.refl (sender : Bool) (sp : IperfStream) : Advances sender sp sp :=
  ⟨rfl, rfl, rfl, rfl, le_rfl, fun _ => rfl, fun _ => rfl, Or.inl rfl, Or.inl rfl⟩

/-- Advances compose. -/
theorem Advances.trans {a b c : IperfStream} (h : Advances sender a b) (h' : Advances sender b c) :
    Advances sender a c where
  id := h'.id.trans h.id
  omittedPackets := h'.omittedPackets.trans h.omittedPackets
  omittedErrors := h'.omittedErrors.trans h.omittedErrors
  sentOmit := h'.sentOmit.trans h.sentOmit
  sent := h.sent.trans h'.sent
  idle := fun hs => (h'.idle hs).trans (h.idle hs)
  errors := fun hs => (h'.errors hs).trans (h.errors hs)
  packetsInt := by
    rcases h'.packetsInt with heq | hint
    · rw [heq]
      exact h.packetsInt
    · exact Or.inr hint
  errorsInt := by
    rcases h'.errorsInt with heq | hint
    · rw [heq]
      exact h.errorsInt
    · exact Or.inr hint

/-- Adding bytes sent is an advance of a sending stream. -/
theorem advances_addSent (r : ℤ) (sp : IperfStream) : Advances true sp (addSent r sp) :=
  ⟨rfl, rfl, rfl, rfl, Nat.le_add_right _ _, fun h => (by cases h), fun _ => rfl, Or.inl rfl,
    Or.inl rfl⟩

/-- So is taking the next datagram number. -/
theorem advances_number {n : ℤ} {sp : IperfStream}
    (hn : n = sp.packetCount ∨ n = toInt (sp.packetCount + 1)) :
    Advances true sp { sp with packetCount := n } := by
  refine ⟨rfl, rfl, rfl, rfl, le_rfl, fun _ => rfl, fun _ => rfl, ?_, Or.inl rfl⟩
  rcases hn with rfl | rfl
  · exact Or.inl rfl
  · exact Or.inr (isInt_toInt _)

/-- So is a call of the protocol's send function, whatever the system call returns. -/
theorem advances_snd (test : IperfTest) (io : SndIo) (sp : IperfStream) :
    Advances true sp (snd test io sp).2.1 := by
  obtain heq | ⟨n, hn, ⟨-, heq⟩ | ⟨-, heq⟩⟩ := snd_cases test io sp
  · rw [heq]
    exact Advances.refl true sp
  · rw [heq]
    exact advances_number hn
  · rw [heq]
    exact (advances_number hn).trans (advances_addSent io.written _)

/-- So is the check of the rate. -/
theorem advances_check (convert : PrintfText.Dbl → ℕ) (now : Timeval) (test : IperfTest)
    (sp : IperfStream) : Advances true sp (iperfCheckThrottle convert now test sp).2 := by
  unfold iperfCheckThrottle
  split_ifs
  · exact Advances.refl true sp
  · exact ⟨rfl, rfl, rfl, rfl, le_rfl, fun _ => rfl, fun _ => rfl, Or.inl rfl, Or.inl rfl⟩
  · exact ⟨rfl, rfl, rfl, rfl, le_rfl, fun _ => rfl, fun _ => rfl, Or.inl rfl, Or.inl rfl⟩

/-- The counters of a datagram are `int`, and the bytes are not its business. -/
theorem advances_countDatagram (pcount : ℕ) (sp : IperfStream) :
    Advances false sp (countDatagram pcount sp) := by
  unfold countDatagram
  split
  · have hpackets : IsInt (toInt (pcount : ℤ)) := isInt_toInt _
    have herrors : IsInt (toInt (sp.cntError + (pcount - 1 - sp.packetCount))) := isInt_toInt _
    refine ⟨rfl, rfl, rfl, rfl, le_rfl, fun _ => rfl, fun h => (by cases h), ?_, ?_⟩
    · dsimp only
      exact Or.inr hpackets
    · dsimp only
      split
      · exact Or.inr herrors
      · exact Or.inl rfl
  · exact ⟨rfl, rfl, rfl, rfl, le_rfl, fun _ => rfl, fun h => (by cases h), Or.inl rfl, Or.inl rfl⟩

/-- Adding bytes received is an advance of a receiving stream. -/
theorem advances_addReceived (r : ℤ) (sp : IperfStream) : Advances false sp (addReceived r sp) :=
  ⟨rfl, rfl, rfl, rfl, le_rfl, fun _ => rfl, fun h => (by cases h), Or.inl rfl, Or.inl rfl⟩

/-- So is a new estimate of the jitter. -/
theorem advances_updateJitter (sentTime arrivalTime : Timeval) (sp : IperfStream) :
    Advances false sp (updateJitter sentTime arrivalTime sp) :=
  ⟨rfl, rfl, rfl, rfl, le_rfl, fun _ => rfl, fun h => (by cases h), Or.inl rfl, Or.inl rfl⟩

/-- So is a call of the protocol's receive function. -/
theorem advances_rcv (test : IperfTest) (io : RcvIo) (sp : IperfStream) :
    Advances false sp (rcv test io sp).2 := by
  have hreceived := advances_addReceived io.received sp
  obtain ⟨-, heq⟩ | heq | heq := rcv_cases test io sp
  · rw [heq]
    exact Advances.refl false sp
  · rw [heq]
    exact hreceived
  · have hcounted := advances_countDatagram io.pcount (addReceived io.received sp)
    have hjitter := advances_updateJitter io.sentTime io.arrivalTime
      (countDatagram io.pcount (addReceived io.received sp))
    rw [heq]
    exact (hreceived.trans hcounted).trans hjitter

/-- The figures of a tick that the retransmit accounting leaves alone. -/
theorem intervalEntry_sent (platform : Platform) (test : IperfTest) (sample : Sample)
    (sp : IperfStream) :
    (intervalEntry platform test sample sp).2.bytesSent = sp.result.bytesSent ∧
      (intervalEntry platform test sample sp).2.bytesSentOmit = sp.result.bytesSentOmit := by
  unfold intervalEntry
  dsimp only
  split
  · split
    · exact ⟨rfl, rfl⟩
    · exact ⟨rfl, rfl⟩
  · exact ⟨rfl, rfl⟩

/-- A calculation of the interval is an advance on either side. -/
theorem advances_tick (sender : Bool) (platform : Platform) (test : IperfTest) (sample : Sample)
    (sp : IperfStream) : Advances sender sp (statsOfStream platform test sample sp) := by
  obtain ⟨hsent, homit⟩ := intervalEntry_sent platform test sample sp
  exact ⟨rfl, rfl, rfl, homit, hsent.ge, fun _ => hsent, fun _ => rfl, Or.inl rfl, Or.inl rfl⟩

/-- Data that moves advances a stream. -/
theorem advances_steps (sender : Bool) : StreamSteps sender (Advances sender) where
  refl := Advances.refl sender
  trans := Advances.trans
  snd := by
    intro hs test io sp
    subst hs
    exact advances_snd test io sp
  check := by
    intro hs convert now test sp
    subst hs
    exact advances_check convert now test sp
  rcv := by
    intro hs test io sp
    subst hs
    exact advances_rcv test io sp
  tick := advances_tick sender

/-- Who sends and who serves does not change while data moves, so the steps of a run are of
one kind. -/
theorem transferStep_end {platform : Platform} {test test' : IperfTest} {e : TransferEvent}
    (h : transferStep platform test e = some test') :
    test'.sender = test.sender ∧ test'.role = test.role := by
  cases e with
  | tick samples =>
    cases h
    exact ⟨rfl, rfl⟩
  | endOmit now samples =>
    dsimp only [transferStep] at h
    split at h
    · cases h
      exact ⟨rfl, rfl⟩
    · cases h
  | send env writeSetP =>
    dsimp only [transferStep] at h
    split at h
    · cases h
      have hframe := (iperfSend_frame env writeSetP test).test
      have hsender := congrArg IperfTest.sender hframe
      have hrole := congrArg IperfTest.role hframe
      exact ⟨hsender, hrole⟩
    · cases h
  | recv io readSetP =>
    dsimp only [transferStep] at h
    split at h
    · cases h
    · cases h
      have hframe := (iperfRecv_frame io readSetP test).test
      have hsender := congrArg IperfTest.sender hframe
      have hrole := congrArg IperfTest.role hframe
      exact ⟨hsender, hrole⟩

/-- What holds of a stream at every point of a run. -/
structure Settled (sender : Bool) (sp : IperfStream) : Prop where
  omit_le : sp.result.bytesSentOmit ≤ sp.result.bytesSent
  idle : sender = false → sp.result.bytesSent = 0
  errors : sender = true → sp.cntError = 0 ∧ sp.omittedCntError = 0
  packetsInt : IsInt sp.packetCount
  errorsInt : IsInt sp.cntError

/-- An advance keeps a settled stream settled: what an end never counts stays zero, and the
snapshots stay below the counters. -/
theorem Settled.advances {sp sp' : IperfStream} (h : Settled sender sp)
    (ha : Advances sender sp sp') : Settled sender sp' where
  omit_le := by
    have ho := h.omit_le
    have hs := ha.sent
    rw [ha.sentOmit]
    omega
  idle := by
    intro hs
    rw [ha.idle hs]
    exact h.idle hs
  errors := by
    intro hs
    rw [ha.errors hs, ha.omittedErrors]
    exact h.errors hs
  packetsInt := by
    rcases ha.packetsInt with heq | hint
    · rw [heq]
      exact h.packetsInt
    · exact hint
  errorsInt := by
    rcases ha.errorsInt with heq | hint
    · rw [heq]
      exact h.errorsInt
    · exact hint

/-- So does the reset after the omitted seconds. -/
theorem Settled.reset {sp : IperfStream} (h : Settled sender sp) (test : IperfTest)
    (now : Timeval) (sample : Sample) : Settled sender (resetStream test now sample sp) where
  omit_le := le_rfl
  idle := h.idle
  errors := fun hs => ⟨(h.errors hs).1, (h.errors hs).1⟩
  packetsInt := h.packetsInt
  errorsInt := h.errorsInt

/-- A figure that the end of omission leaves alone. -/
theorem map_resetStream {α : Type*} {f : IperfStream → α}
    (hf : ∀ test now sample sp, f (resetStream test now sample sp) = f sp) (test : IperfTest)
    (now : Timeval) (samples : ℕ → Sample) (streams : List IperfStream) :
    (streams.mapIdx fun i sp => resetStream test now (samples i) sp).map f = streams.map f := by
  refine List.ext_getElem (by simp) ?_
  intro i _ _
  simp [hf]

/-- The streams of an end, with their identifiers. -/
structure SettledEnd (sender : Bool) (ids : List ℤ) (test : IperfTest) : Prop where
  end_sender : test.sender = sender
  ids : test.streams.map IperfStream.id = ids
  streams : ∀ sp ∈ test.streams, Settled sender sp

/-- A relation between two lists, for a function that it leaves alone. -/
theorem map_eq_of_forall₂ {α : Type*} {f : IperfStream → α} {l l' : List IperfStream}
    (h : List.Forall₂ R l l') (hf : ∀ a b, R a b → f b = f a) : l'.map f = l.map f := by
  induction h with
  | nil => rfl
  | cons hhead _ ih => rw [List.map_cons, List.map_cons, ih, hf _ _ hhead]

/-- What every step preserves is preserved for all streams. -/
theorem forall_of_forall₂ {P : IperfStream → Prop} {l l' : List IperfStream}
    (h : List.Forall₂ R l l') (hP : ∀ a b, R a b → P a → P b) (hl : ∀ a ∈ l, P a) :
    ∀ b ∈ l', P b := by
  induction h with
  | nil => exact hl
  | cons hhead _ ih =>
    intro b hb
    rcases List.mem_cons.mp hb with rfl | hrest
    · exact hP _ _ hhead (hl _ List.mem_cons_self)
    · exact ih (fun a ha => hl a (List.mem_cons_of_mem _ ha)) b hrest

/-- One event keeps an end settled, with the same streams at the same positions. -/
theorem SettledEnd.step {platform : Platform} {ids : List ℤ} {test test' : IperfTest}
    {e : TransferEvent} (h : SettledEnd sender ids test)
    (hstep : transferStep platform test e = some test') : SettledEnd sender ids test' := by
  have hsender : test'.sender = sender := (transferStep_end hstep).1.trans h.end_sender
  by_cases he : ∃ now samples, e = .endOmit now samples
  · obtain ⟨now, samples, rfl⟩ := he
    dsimp only [transferStep] at hstep
    split at hstep
    · cases hstep
      refine ⟨hsender, ?_, ?_⟩
      · rw [← h.ids]
        exact map_resetStream (fun _ _ _ _ => rfl) _ _ _ _
      · intro sp hsp
        obtain ⟨i, hi, rfl⟩ := List.mem_mapIdx.mp hsp
        exact (h.streams _ (List.getElem_mem hi)).reset _ now (samples i)
    · cases hstep
  · push Not at he
    have hrelated : List.Forall₂ (Advances sender) test.streams test'.streams := by
      have hevent := (advances_steps test.sender).event hstep he
      rw [h.end_sender] at hevent
      exact hevent
    refine ⟨hsender, ?_, ?_⟩
    · rw [← h.ids]
      exact map_eq_of_forall₂ hrelated fun a b hab => hab.id
    · exact forall_of_forall₂ hrelated (fun a b hab ha => ha.advances hab) h.streams

/-- A run keeps an end settled. -/
theorem SettledEnd.run {platform : Platform} {ids : List ℤ} {test test' : IperfTest}
    {events : List TransferEvent} (h : SettledEnd sender ids test)
    (hrun : transferRun platform test events = some test') : SettledEnd sender ids test' := by
  induction events generalizing test with
  | nil =>
    cases hrun
    exact h
  | cons e events ih =>
    obtain ⟨test₁, hstep, hrest⟩ := Option.bind_eq_some_iff.mp hrun
    exact ih (h.step hstep) hrest

/-- The datagram counters of a stream: the packets, and those counted as lost. -/
def counts (sp : IperfStream) : ℤ × ℤ := (sp.packetCount, sp.cntError)

/-- Their snapshots. -/
def omittedCounts (sp : IperfStream) : ℤ × ℤ := (sp.omittedPacketCount, sp.omittedCntError)

/-- The test as the last end of omission found it. -/
def atEndOmit (platform : Platform) : IperfTest → List TransferEvent → Option IperfTest
  | _, [] => none
  | test, e :: events =>
    (transferStep platform test e).bind fun test' =>
      (atEndOmit platform test' events).or
        (match e with
        | .endOmit _ _ => some test
        | _ => none)

/-- The snapshots of a run are the counters that the end of omission found, or those of the
start if it does not end. -/
theorem omittedCounts_run {platform : Platform} {test test' : IperfTest}
    {events : List TransferEvent} (hrun : transferRun platform test events = some test') :
    test'.streams.map omittedCounts =
      match atEndOmit platform test events with
      | some t => t.streams.map counts
      | none => test.streams.map omittedCounts := by
  induction events generalizing test with
  | nil =>
    cases hrun
    rfl
  | cons e events ih =>
    obtain ⟨test₁, hstep, hrest⟩ := Option.bind_eq_some_iff.mp hrun
    have hlast := ih hrest
    unfold atEndOmit
    rw [hstep, Option.bind_some]
    cases hlater : atEndOmit platform test₁ events with
    | some t =>
      rw [hlater] at hlast
      exact hlast
    | none =>
      rw [hlater] at hlast
      dsimp only at hlast
      rw [hlast]
      by_cases he : ∃ now samples, e = .endOmit now samples
      · obtain ⟨now, samples, rfl⟩ := he
        dsimp only [transferStep] at hstep
        split at hstep
        · cases hstep
          refine List.ext_getElem (by simp [endOmission, iperfResetStats]) ?_
          intro i _ _
          simp [endOmission, iperfResetStats, resetStream, omittedCounts, counts]
        · cases hstep
      · push Not at he
        have hrelated := (advances_steps test.sender).event hstep he
        have hsame : test₁.streams.map omittedCounts = test.streams.map omittedCounts := by
          refine map_eq_of_forall₂ hrelated fun a b hab => ?_
          unfold omittedCounts
          rw [hab.omittedPackets, hab.omittedErrors]
        cases e with
        | endOmit now samples => exact absurd rfl (he now samples)
        | send => exact hsame
        | recv => exact hsame
        | tick => exact hsame

/-- The counters of a stream at the end of omission, zero when there was none. -/
def countsAtEndOmit (platform : Platform) (test : IperfTest) (events : List TransferEvent)
    (i : ℕ) : ℤ × ℤ :=
  (((atEndOmit platform test events).bind fun t => t.streams[i]?).map counts).getD (0, 0)

/-- In a run from streams without snapshots. -/
theorem omittedCounts_eq {platform : Platform} {test test' : IperfTest}
    {events : List TransferEvent} (hrun : transferRun platform test events = some test')
    (hfresh : ∀ sp ∈ test.streams, omittedCounts sp = (0, 0)) {i : ℕ} {sp : IperfStream}
    (hsp : test'.streams[i]? = some sp) :
    omittedCounts sp = countsAtEndOmit platform test events i := by
  have hlast := omittedCounts_run hrun
  have hget : (test'.streams.map omittedCounts)[i]? = some (omittedCounts sp) := by
    rw [List.getElem?_map, hsp]
    rfl
  unfold countsAtEndOmit
  cases hat : atEndOmit platform test events with
  | some t =>
    rw [hat] at hlast
    dsimp only at hlast
    rw [hlast, List.getElem?_map] at hget
    rw [Option.bind_some, hget]
    rfl
  | none =>
    rw [hat] at hlast
    dsimp only at hlast
    rw [hlast] at hget
    obtain ⟨sp₀, hmem, heq⟩ := List.mem_map.mp (List.mem_of_getElem? hget)
    rw [← heq]
    exact hfresh sp₀ hmem

end IperfRuntime.StreamHistory
