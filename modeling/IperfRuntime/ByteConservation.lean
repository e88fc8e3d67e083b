import IperfRuntime.IntervalStats

/-!
# Byte conservation

One end of a test from `iperf_init_test` to the exchange of results: transfers, statistics
ticks and the end of the omit period in any order. The recorded intervals and the interval
in progress account for every byte and for every retransmit counted since the omit period.
The sender calls `iperf_send`, the receiver calls `iperf_recv`. Nothing is said here about
the other end, nor about bytes that a failed write has already handed to the kernel.
-/

namespace IperfRuntime.ByteConservation

open ClockReading TestState ListLoop StreamTraffic IntervalStats

/-- The entries that a report counts. -/
def keptIntervals (rp : IperfStreamResult) : List IperfIntervalResults :=
  rp.intervalResults.filter fun irp => !irp.omitted

/-- The bytes in the kept entries. -/
def keptBytes (rp : IperfStreamResult) : ℕ :=
  ((keptIntervals rp).map (·.bytesTransferred)).sum

/-- The retransmits in the kept entries. -/
def keptRetrans (rp : IperfStreamResult) : ℤ :=
  ((keptIntervals rp).map (·.intervalRetrans)).sum

/-- The bytes of the interval in progress. -/
def currentBytes (sender : Bool) (rp : IperfStreamResult) : ℕ :=
  if sender then rp.bytesSentThisInterval else rp.bytesReceivedThisInterval

/-- The bytes of the measurement. -/
def measuredBytes (sender : Bool) (rp : IperfStreamResult) : ℕ :=
  if sender then rp.bytesSent - rp.bytesSentOmit else rp.bytesReceived

/-- What holds of the results of one stream: during the omit period nothing is kept,
afterwards everything is accounted for. -/
structure StreamConserved (sender omitting : Bool) (rp : IperfStreamResult) : Prop where
  omit_le : rp.bytesSentOmit ≤ rp.bytesSent
  omitted : omitting = true → ∀ irp ∈ rp.intervalResults, irp.omitted = true
  bytes : omitting = false → keptBytes rp + currentBytes sender rp = measuredBytes sender rp
  retrans : omitting = false → keptRetrans rp = rp.streamRetrans

/-- What holds of all streams with the counter of the test. -/
structure Conserved (sender omitting : Bool) (bytesSent : ℕ) (streams : List IperfStream) :
    Prop where
  stream : ∀ sp ∈ streams, StreamConserved sender omitting sp.result
  total : (streams.map fun sp => measuredBytes sender sp.result).sum = bytesSent

/-- A transfer of `k` bytes changes nothing else that is accounted for. -/
structure Transferred (sender : Bool) (k : ℕ) (rp rp' : IperfStreamResult) : Prop where
  intervals : rp'.intervalResults = rp.intervalResults
  retrans : rp'.streamRetrans = rp.streamRetrans
  prevTotal : rp'.streamPrevTotalRetrans = rp.streamPrevTotalRetrans
  sentOmit : rp'.bytesSentOmit = rp.bytesSentOmit
  sent : rp.bytesSent ≤ rp'.bytesSent
  measured : rp.bytesSentOmit ≤ rp.bytesSent →
    measuredBytes sender rp' = measuredBytes sender rp + k
  current : currentBytes sender rp' = currentBytes sender rp + k

/-- A result that has not moved has transferred nothing. -/
theorem Transferred.refl (sender : Bool) (rp : IperfStreamResult) : Transferred sender 0 rp rp :=
  ⟨rfl, rfl, rfl, rfl, le_rfl, fun _ => rfl, rfl⟩

/-- A send transfers what its system call returns. -/
theorem transferred_addSent (r : ℤ) (sp : IperfStream) :
    Transferred true r.toNat sp.result (addSent r sp).result where
  intervals := rfl
  retrans := rfl
  prevTotal := rfl
  sentOmit := rfl
  sent := Nat.le_add_right _ _
  measured := by
    intro h
    show sp.result.bytesSent + r.toNat - sp.result.bytesSentOmit =
      sp.result.bytesSent - sp.result.bytesSentOmit + r.toNat
    omega
  current := rfl

/-- So does a receive. -/
theorem transferred_addReceived (r : ℤ) (sp : IperfStream) :
    Transferred false r.toNat sp.result (addReceived r sp).result where
  intervals := rfl
  retrans := rfl
  prevTotal := rfl
  sentOmit := rfl
  sent := le_rfl
  measured := fun _ => rfl
  current := rfl

/-- A transfer conserves the bytes of a stream: what it adds to the total it adds to the
interval in progress, and neither the entries nor the snapshot move. -/
theorem StreamConserved.transferred {sender omitting : Bool} {k : ℕ}
    {rp rp' : IperfStreamResult} (h : StreamConserved sender omitting rp)
    (ht : Transferred sender k rp rp') : StreamConserved sender omitting rp' where
  omit_le := by
    have ho := h.omit_le
    have hs := ht.sent
    rw [ht.sentOmit]
    omega
  omitted := by
    rw [ht.intervals]
    exact h.omitted
  bytes := by
    intro hom
    have hb := h.bytes hom
    have hm := ht.measured h.omit_le
    have hc := ht.current
    have hk : keptBytes rp' = keptBytes rp := by
      unfold keptBytes keptIntervals
      rw [ht.intervals]
    omega
  retrans := by
    intro hom
    have hr := h.retrans hom
    have hk : keptRetrans rp' = keptRetrans rp := by
      unfold keptRetrans keptIntervals
      rw [ht.intervals]
    rw [hk, ht.retrans]
    exact hr

/-- A transfer on one stream, with the counter of the test following. -/
theorem Conserved.transfer {sender omitting : Bool} {bytesSent k : ℕ}
    {pre post : List IperfStream} {a a' : IperfStream}
    (h : Conserved sender omitting bytesSent (pre ++ a :: post))
    (ht : Transferred sender k a.result a'.result) :
    Conserved sender omitting (bytesSent + k) (pre ++ a' :: post) where
  stream := by
    have ha : StreamConserved sender omitting a.result := h.stream a (by simp)
    intro sp hsp
    rcases List.mem_append.mp hsp with hpre | hrest
    · exact h.stream sp (List.mem_append_left _ hpre)
    · rcases List.mem_cons.mp hrest with rfl | hpost
      · exact ha.transferred ht
      · exact h.stream sp (List.mem_append_right _ (List.mem_cons_of_mem _ hpost))
  total := by
    have ha : StreamConserved sender omitting a.result := h.stream a (by simp)
    have hm := ht.measured ha.omit_le
    have hs := h.total
    simp only [List.map_append, List.map_cons, List.sum_append, List.sum_cons] at hs ⊢
    omega

/-- What `sp->snd` does to the results of a stream. -/
theorem snd_transferred (test : IperfTest) (io : SndIo) (sp : IperfStream) :
    ((snd test io sp).1 < 0 → Transferred true 0 sp.result (snd test io sp).2.1.result) ∧
      (0 ≤ (snd test io sp).1 →
        Transferred true (snd test io sp).1.toNat sp.result (snd test io sp).2.1.result) := by
  obtain heq | ⟨n, -, ⟨hneg, heq⟩ | ⟨hpos, heq⟩⟩ := snd_cases test io sp
  · rw [heq]
    constructor
    · intro _
      exact Transferred.refl true sp.result
    · intro _
      exact Transferred.refl true sp.result
  · rw [heq]
    constructor
    · intro _
      exact Transferred.refl true sp.result
    · intro h
      exact absurd hneg (not_lt.mpr h)
  · rw [heq]
    constructor
    · intro h
      exact absurd h (not_lt.mpr hpos)
    · intro _
      exact transferred_addSent io.written { sp with packetCount := n }

/-- Counting a datagram leaves the bytes alone. -/
theorem countDatagram_result (pcount : ℕ) (sp : IperfStream) :
    (countDatagram pcount sp).result = sp.result := by
  unfold countDatagram
  split
  · rfl
  · rfl

/-- What `sp->rcv` does to the results of a stream. -/
theorem rcv_transferred (test : IperfTest) (io : RcvIo) (sp : IperfStream) :
    Transferred false (rcv test io sp).1.toNat sp.result (rcv test io sp).2.result := by
  obtain ⟨hnone, heq⟩ | heq | heq := rcv_cases test io sp
  · have hzero : io.received.toNat = 0 := by omega
    rw [heq]
    dsimp only
    rw [hzero]
    exact Transferred.refl false sp.result
  · rw [heq]
    exact transferred_addReceived io.received sp
  · rw [heq]
    dsimp only [updateJitter]
    rw [countDatagram_result]
    exact transferred_addReceived io.received sp

/-- The throttle touches no result and no counter. -/
theorem checkThrottle_result (convert : PrintfText.Dbl → ℕ) (now : Timeval) (test : IperfTest)
    (sp : IperfStream) :
    (iperfCheckThrottle convert now test sp).2.result = sp.result ∧
      (iperfCheckThrottle convert now test sp).1 = { test with
        writeSet := (iperfCheckThrottle convert now test sp).1.writeSet } := by
  unfold iperfCheckThrottle
  split
  · exact ⟨rfl, rfl⟩
  · split
    · exact ⟨rfl, rfl⟩
    · exact ⟨rfl, rfl⟩

/-- The fields of the test that no transfer touches. -/
structure SameEnd (test test' : IperfTest) : Prop where
  sender : test'.sender = test.sender
  omitting : test'.omitting = test.omitting
  protocol : test'.protocol = test.protocol
  retransmits : test'.senderHasRetransmits = test.senderHasRetransmits

/-- An end has the role and the omission of itself. -/
theorem SameEnd.refl (test : IperfTest) : SameEnd test test := ⟨rfl, rfl, rfl, rfl⟩

/-- Ends that stay the same twice stay the same. -/
theorem SameEnd.trans {a b c : IperfTest} (hab : SameEnd a b) (hbc : SameEnd b c) :
    SameEnd a c :=
  ⟨hbc.sender.trans hab.sender, hbc.omitting.trans hab.omitting,
    hbc.protocol.trans hab.protocol, hbc.retransmits.trans hab.retransmits⟩

/-- The retransmit figures of a stream: what is charged to it, and the kernel's total at
the last sample. -/
def retransFigures (sp : IperfStream) : ℤ × ℤ :=
  (sp.result.streamRetrans, sp.result.streamPrevTotalRetrans)

/-- A transfer leaves the retransmits of a stream alone. -/
theorem Transferred.retransFigures_eq {sender : Bool} {k : ℕ} {a a' : IperfStream}
    (h : Transferred sender k a.result a'.result) : retransFigures a' = retransFigures a := by
  unfold retransFigures
  rw [h.retrans, h.prevTotal]

/-- The invariant of the transfer loops: the state belongs to the given test, its counter
and the streams are conserved, and the retransmit figures do not move. -/
structure LoopInvariant (sender : Bool) (test current : IperfTest) (streams : List IperfStream) :
    Prop where
  same : SameEnd test current
  conserved : Conserved sender test.omitting current.bytesSent streams
  figures : streams.map retransFigures = test.streams.map retransFigures

/-- A transfer on one stream, with the test following. -/
theorem LoopInvariant.transfer {sender : Bool} {test current next : IperfTest} {k : ℕ}
    {pre post : List IperfStream} {a a' : IperfStream}
    (h : LoopInvariant sender test current (pre ++ a :: post))
    (ht : Transferred sender k a.result a'.result) (hsame : SameEnd current next)
    (hbytes : next.bytesSent = current.bytesSent + k) :
    LoopInvariant sender test next (pre ++ a' :: post) where
  same := h.same.trans hsame
  conserved := by
    rw [hbytes]
    exact h.conserved.transfer ht
  figures := by
    have hf := h.figures
    rw [List.map_append, List.map_cons] at hf ⊢
    rw [ht.retransFigures_eq]
    exact hf

/-- The throttle check keeps the invariant of the loop. -/
theorem LoopInvariant.check {test : IperfTest} {current : IperfTest}
    {pre post : List IperfStream} {sp : IperfStream}
    (h : LoopInvariant true test current (pre ++ sp :: post)) (convert : PrintfText.Dbl → ℕ)
    (now : Timeval) :
    LoopInvariant true test (iperfCheckThrottle convert now current sp).1
      (pre ++ (iperfCheckThrottle convert now current sp).2 :: post) := by
  obtain ⟨hresult, htest⟩ := checkThrottle_result convert now current sp
  have ht : Transferred true 0 sp.result (iperfCheckThrottle convert now current sp).2.result := by
    rw [hresult]
    exact Transferred.refl true sp.result
  have hsame : SameEnd current (iperfCheckThrottle convert now current sp).1 := by
    rw [htest]
    exact ⟨rfl, rfl, rfl, rfl⟩
  have hbytes : (iperfCheckThrottle convert now current sp).1.bytesSent =
      current.bytesSent + 0 := by
    rw [htest]
    rfl
  exact h.transfer ht hsame hbytes

/-- One stream of one round of `iperf_send` keeps the invariant of the loop: the streams in
front and behind are untouched, and its own bytes are added once. -/
theorem sendBody_invariant {test : IperfTest} (env : SendEnv) (writeSetP : Option (Finset ℤ))
    (round multisend : ℕ) (now : Timeval) (i : ℕ) (s : SendState) (pre : List IperfStream)
    (sp : IperfStream) (post : List IperfStream)
    (h : LoopInvariant true test s.test (pre ++ sp :: post)) :
    LoopInvariant true test (sendBody env writeSetP round multisend now i s sp).1.test
      (pre ++ (sendBody env writeSetP round multisend now i s sp).2.1 :: post) := by
  obtain ⟨hfail, hsent⟩ := snd_transferred s.test (env.io round i) sp
  unfold sendBody
  split
  · dsimp only
    split
    · rename_i hr
      exact h.transfer (hfail hr) (SameEnd.refl _) rfl
    · rename_i hr
      have hnonneg : 0 ≤ (snd s.test (env.io round i) sp).1 := by omega
      have hafter : LoopInvariant true test
          (afterSnd s sp (snd s.test (env.io round i) sp).1
            (snd s.test (env.io round i) sp).2.2).test
          (pre ++ (snd s.test (env.io round i) sp).2.1 :: post) :=
        h.transfer (hsent hnonneg) ⟨rfl, rfl, rfl, rfl⟩ rfl
      unfold checkAfterSend
      split
      · exact hafter.check env.convert now
      · exact hafter
  · exact h

/-- The invariant does not look at the streams of the test. -/
theorem LoopInvariant.withStreams {sender : Bool} {test current : IperfTest}
    {streams : List IperfStream} (h : LoopInvariant sender test current streams) :
    LoopInvariant sender test { current with streams := streams } streams :=
  ⟨⟨h.same.sender, h.same.omitting, h.same.protocol, h.same.retransmits⟩, h.conserved, h.figures⟩

/-- `iperf_send` conserves bytes, whatever the system calls return. -/
theorem iperfSend_invariant {test : IperfTest} (env : SendEnv) (writeSetP : Option (Finset ℤ))
    (h : LoopInvariant true test test test.streams) :
    LoopInvariant true test (iperfSend env writeSetP test).test
      (iperfSend env writeSetP test).test.streams := by
  have hburst : ∀ i (s : SendState) pre sp post,
      LoopInvariant true test s.test (pre ++ sp :: post) →
      LoopInvariant true test (burstBody env i s sp).1.test
        (pre ++ (burstBody env i s sp).2.1 :: post) :=
    fun _ _ _ _ _ hs => hs.check env.convert env.endClock
  obtain ⟨current, streams, hkept, heq⟩ :=
    iperfSend_keeps (sendBody_invariant env writeSetP) hburst h
  rw [heq]
  exact hkept.withStreams

/-- One stream of `iperf_recv`. -/
theorem recvBody_invariant {test : IperfTest} (io : ℕ → RcvIo) (i : ℕ) (s : RecvState)
    (pre : List IperfStream) (sp : IperfStream) (post : List IperfStream)
    (h : LoopInvariant false test s.test (pre ++ sp :: post)) :
    LoopInvariant false test (recvBody io i s sp).1.test
      (pre ++ (recvBody io i s sp).2.1 :: post) := by
  have hr := rcv_transferred s.test (io i) sp
  unfold recvBody
  split
  · dsimp only
    split
    · rename_i hneg
      have hz : (rcv s.test (io i) sp).1.toNat = 0 := by omega
      rw [hz] at hr
      exact h.transfer hr (SameEnd.refl _) rfl
    · exact h.transfer hr ⟨rfl, rfl, rfl, rfl⟩ rfl
  · exact h

/-- `iperf_recv` conserves bytes, whatever the system calls return. -/
theorem iperfRecv_invariant {test : IperfTest} (io : ℕ → RcvIo) (readSetP : Finset ℤ)
    (h : LoopInvariant false test test test.streams) :
    LoopInvariant false test (iperfRecv io readSetP test).2.1
      (iperfRecv io readSetP test).2.1.streams := by
  obtain ⟨current, streams, hkept, heq⟩ := iperfRecv_keeps (recvBody_invariant io) h readSetP
  rw [heq]
  exact hkept.withStreams

/-- What a tick writes: the entry carries the flag and the bytes of the interval, and the
retransmits charged to the stream grow by those of the entry. -/
theorem intervalEntry_spec (platform : Platform) (test : IperfTest) (sample : Sample)
    (sp : IperfStream) :
    (intervalEntry platform test sample sp).1.omitted = test.omitting ∧
      (intervalEntry platform test sample sp).1.bytesTransferred =
        currentBytes test.sender sp.result ∧
      (intervalEntry platform test sample sp).2.streamRetrans =
        sp.result.streamRetrans + (intervalEntry platform test sample sp).1.intervalRetrans ∧
      (intervalEntry platform test sample sp).2.bytesSent = sp.result.bytesSent ∧
      (intervalEntry platform test sample sp).2.bytesSentOmit = sp.result.bytesSentOmit ∧
      (intervalEntry platform test sample sp).2.bytesReceived = sp.result.bytesReceived := by
  unfold intervalEntry
  dsimp only
  split
  · split
    · exact ⟨rfl, rfl, rfl, rfl, rfl, rfl⟩
    · exact ⟨rfl, rfl, (add_zero _).symm, rfl, rfl, rfl⟩
  · exact ⟨rfl, rfl, (add_zero _).symm, rfl, rfl, rfl⟩

/-- The kept entries after a tick. -/
theorem keptIntervals_tick (platform : Platform) (test : IperfTest) (sample : Sample)
    (sp : IperfStream) :
    keptIntervals (statsOfStream platform test sample sp).result =
      keptIntervals sp.result ++
        if test.omitting then [] else [(intervalEntry platform test sample sp).1] := by
  have hflag := (intervalEntry_spec platform test sample sp).1
  unfold keptIntervals statsOfStream
  rw [List.filter_append]
  congr 1
  rw [List.filter_cons, hflag]
  cases test.omitting with
  | false => rfl
  | true => rfl

/-- A calculation of the interval conserves the bytes of a stream: what was in progress
becomes the new entry, and the counter of the interval starts from zero. -/
theorem StreamConserved.tick {test : IperfTest} {sp : IperfStream}
    (h : StreamConserved test.sender test.omitting sp.result) (platform : Platform)
    (sample : Sample) :
    StreamConserved test.sender test.omitting (statsOfStream platform test sample sp).result ∧
      measuredBytes test.sender (statsOfStream platform test sample sp).result =
        measuredBytes test.sender sp.result := by
  obtain ⟨hflag, hbytes, hretrans, hsent, hsentOmit, hreceived⟩ :=
    intervalEntry_spec platform test sample sp
  have hkept := keptIntervals_tick platform test sample sp
  have hmeasured : measuredBytes test.sender (statsOfStream platform test sample sp).result =
      measuredBytes test.sender sp.result := by
    unfold measuredBytes statsOfStream
    dsimp only
    rw [hsent, hsentOmit, hreceived]
  have hcurrent : currentBytes test.sender (statsOfStream platform test sample sp).result = 0 := by
    unfold currentBytes statsOfStream
    dsimp only
    rw [ite_self]
  refine ⟨⟨?_, ?_, ?_, ?_⟩, hmeasured⟩
  · have hle := h.omit_le
    unfold statsOfStream
    dsimp only
    omega
  · intro hom irp hirp
    have hmem : irp ∈ sp.result.intervalResults ++ [(intervalEntry platform test sample sp).1] :=
      hirp
    rcases List.mem_append.mp hmem with hold | hnew
    · exact h.omitted hom irp hold
    · rw [List.mem_singleton.mp hnew, hflag]
      exact hom
  · intro hom
    have hb := h.bytes hom
    rw [hom] at hkept
    have hk : keptBytes (statsOfStream platform test sample sp).result =
        keptBytes sp.result + currentBytes test.sender sp.result := by
      unfold keptBytes
      rw [hkept, ← hbytes]
      simp
    omega
  · intro hom
    have hr := h.retrans hom
    rw [hom] at hkept
    have hk : keptRetrans (statsOfStream platform test sample sp).result =
        keptRetrans sp.result + (intervalEntry platform test sample sp).1.intervalRetrans := by
      unfold keptRetrans
      rw [hkept]
      simp
    rw [hk, hr]
    exact hretrans.symm

/-- The end of the omit period starts the account of a stream over: the entries are kept as
omitted, and what was counted so far becomes the snapshot. -/
theorem StreamConserved.reset {test : IperfTest} {sp : IperfStream}
    (h : StreamConserved test.sender true sp.result) (now : Timeval) (sample : Sample) :
    StreamConserved test.sender false (resetStream test now sample sp).result ∧
      measuredBytes test.sender (resetStream test now sample sp).result = 0 := by
  have hkept : keptIntervals (resetStream test now sample sp).result = [] := by
    unfold keptIntervals resetStream
    rw [List.filter_eq_nil_iff]
    intro irp hirp
    have hflag := h.omitted rfl irp hirp
    simp [hflag]
  have hmeasured : measuredBytes test.sender (resetStream test now sample sp).result = 0 := by
    unfold measuredBytes resetStream
    dsimp only
    rw [Nat.sub_self, ite_self]
  refine ⟨⟨le_rfl, ?_, ?_, ?_⟩, hmeasured⟩
  · intro hbad
    cases hbad
  · intro _
    have hk : keptBytes (resetStream test now sample sp).result = 0 := by
      unfold keptBytes
      rw [hkept]
      rfl
    have hc : currentBytes test.sender (resetStream test now sample sp).result = 0 := by
      unfold currentBytes resetStream
      dsimp only
      rw [ite_self]
    omega
  · intro _
    unfold keptRetrans
    rw [hkept]
    rfl

/-- The test conserves what its end transfers. -/
def EndConserved (test : IperfTest) : Prop :=
  Conserved test.sender test.omitting test.bytesSent test.streams

/-- A calculation conserves the bytes of an end, as it does those of every stream; the totals
of the test do not move. -/
theorem EndConserved.tick {test : IperfTest} (h : EndConserved test) (platform : Platform)
    (samples : ℕ → Sample) : EndConserved (iperfStatsCallback platform samples test) where
  stream := by
    intro sp' hsp'
    obtain ⟨i, hi, hget⟩ := List.mem_mapIdx.mp hsp'
    rw [← hget]
    exact ((h.stream _ (List.getElem_mem hi)).tick platform (samples i)).1
  total := by
    have hsame : ∀ (l : List IperfStream) (f : ℕ → Sample), (∀ sp ∈ l, sp ∈ test.streams) →
        (l.mapIdx fun i sp => statsOfStream platform test (f i) sp).map
          (fun sp => measuredBytes test.sender sp.result) =
        l.map fun sp => measuredBytes test.sender sp.result := by
      intro l
      induction l with
      | nil =>
        intro f _
        rfl
      | cons sp l ih =>
        intro f hl
        have hhead := ((h.stream sp (hl sp (by simp))).tick platform (f 0)).2
        have htail := ih (fun i => f (i + 1)) fun x hx => hl x (List.mem_cons_of_mem _ hx)
        rw [List.mapIdx_cons, List.map_cons, List.map_cons, hhead, htail]
    have htotal := h.total
    have hs := hsame test.streams samples fun _ hx => hx
    unfold iperfStatsCallback
    dsimp only
    rw [hs]
    exact htotal

/-- So does the reset after the omitted seconds. -/
theorem EndConserved.reset {test : IperfTest} (h : EndConserved test)
    (hom : test.omitting = true) (now : Timeval) (samples : ℕ → Sample) :
    EndConserved (endOmission now samples test) where
  stream := by
    intro sp' hsp'
    obtain ⟨i, hi, hget⟩ := List.mem_mapIdx.mp hsp'
    have hsp := h.stream _ (List.getElem_mem hi)
    rw [hom] at hsp
    rw [← hget]
    exact (hsp.reset now (samples i)).1
  total := by
    have hzero : ∀ x ∈ (endOmission now samples test).streams.map
        (fun sp => measuredBytes test.sender sp.result), x = 0 := by
      intro x hx
      obtain ⟨sp', hsp', rfl⟩ := List.mem_map.mp hx
      obtain ⟨i, hi, hget⟩ := List.mem_mapIdx.mp hsp'
      have hsp := h.stream _ (List.getElem_mem hi)
      rw [hom] at hsp
      rw [← hget]
      exact (hsp.reset now (samples i)).2
    exact List.sum_eq_zero hzero

/-- What happens to the counters of one end while a test runs. -/
inductive TransferEvent where
  | send (env : SendEnv) (writeSetP : Option (Finset ℤ))
  | recv (io : ℕ → RcvIo) (readSetP : Finset ℤ)
  | tick (samples : ℕ → Sample)
  | endOmit (now : Timeval) (samples : ℕ → Sample)

/-- One event. The omit timer exists only while the test omits, so its end comes at most
once. -/
def transferStep (platform : Platform) (test : IperfTest) : TransferEvent → Option IperfTest
  | .send env writeSetP => if test.sender then some (iperfSend env writeSetP test).test else none
  | .recv io readSetP => if test.sender then none else some (iperfRecv io readSetP test).2.1
  | .tick samples => some (iperfStatsCallback platform samples test)
  | .endOmit now samples => if test.omitting then some (endOmission now samples test) else none

/-- A sequence of events. -/
def transferRun (platform : Platform) : IperfTest → List TransferEvent → Option IperfTest
  | test, [] => some test
  | test, e :: events => (transferStep platform test e).bind fun test =>
    transferRun platform test events

/-- The start of a test: `iperf_init_test`, and the flag that the omit timer sets. -/
def startTest (now : Timeval) (test : IperfTest) : IperfTest :=
  { iperfInitTest now test with omitting := test.omitSeconds != 0 }

/-- Streams as `iperf_new_stream` makes them, in a test that has moved no data. -/
structure Fresh (test : IperfTest) : Prop where
  bytes : test.bytesSent = 0
  results : ∀ sp ∈ test.streams, sp.result = {}

/-- What the kernel's retransmit totals were: at the end of the omit period, and at the
last tick since then. -/
structure KernelTotals where
  saved : ℤ := 0
  last : Option ℤ := none

/-- The totals of stream `i` after one more event. -/
def KernelTotals.next (i : ℕ) (k : KernelTotals) : TransferEvent → KernelTotals
  | .tick samples => { k with last := some (samples i).totalRetrans }
  | .endOmit _ samples => { saved := (samples i).totalRetrans }
  | _ => k

/-- The totals of stream `i` after a sequence of events. -/
def kernelTotals (i : ℕ) (events : List TransferEvent) : KernelTotals :=
  events.foldl (KernelTotals.next i) {}

/-- The kernel's count of the measurement, zero until its first tick. -/
def KernelTotals.charged (k : KernelTotals) : ℤ :=
  match k.last with
  | some total => total - k.saved
  | none => 0

/-- A TCP sender on a platform that counts retransmits. -/
structure CountsRetransmits (platform : Platform) (test : IperfTest) : Prop where
  protocol : test.protocol = .tcp
  sender : test.sender = true
  retransmits : test.senderHasRetransmits ≠ 0
  tcpinfo : platform.hasTcpinfoRetransmits = true

/-- The retransmit figures of every stream follow the kernel. -/
def FollowsKernel (test : IperfTest) (k : ℕ → KernelTotals) : Prop :=
  ∀ i f, (test.streams.map retransFigures)[i]? = some f →
    f = ((k i).charged, (k i).last.getD (k i).saved)

/-- What holds at every point of a run. -/
structure RunInvariant (platform : Platform) (test : IperfTest) (k : ℕ → KernelTotals) :
    Prop where
  conserved : EndConserved test
  kernel : CountsRetransmits platform test → FollowsKernel test k

/-- Whether an end counts retransmits only depends on its role. -/
theorem CountsRetransmits.same {platform : Platform} {test test' : IperfTest}
    (h : CountsRetransmits platform test') (hs : SameEnd test test') :
    CountsRetransmits platform test :=
  ⟨hs.protocol ▸ h.protocol, hs.sender ▸ h.sender, hs.retransmits ▸ h.retransmits, h.tcpinfo⟩

/-- A transfer keeps what holds of a run. -/
theorem RunInvariant.transfer {platform : Platform} {test test' : IperfTest}
    {k : ℕ → KernelTotals} (h : RunInvariant platform test k)
    (hloop : LoopInvariant test.sender test test' test'.streams) :
    RunInvariant platform test' k where
  conserved := by
    unfold EndConserved
    rw [hloop.same.sender, hloop.same.omitting]
    exact hloop.conserved
  kernel := by
    intro hc i f hf
    rw [hloop.figures] at hf
    exact h.kernel (hc.same hloop.same) i f hf

/-- A tick moves the figures of a counting sender to the kernel's total. -/
theorem retransFigures_tick {platform : Platform} {test : IperfTest}
    (hc : CountsRetransmits platform test) (sample : Sample) (sp : IperfStream) :
    retransFigures (statsOfStream platform test sample sp) =
      (sp.result.streamRetrans + (sample.totalRetrans - sp.result.streamPrevTotalRetrans),
        sample.totalRetrans) := by
  have hinfo : platform.hasTcpinfo = true := platform.retransmits_tcpinfo hc.tcpinfo
  have hsends : sendsWithRetransmits test = true := by
    unfold sendsWithRetransmits
    rw [hc.sender]
    simpa using hc.retransmits
  unfold retransFigures statsOfStream intervalEntry
  rw [hc.protocol, hinfo, hsends]
  rfl

/-- The invariant of a run survives a calculation, which changes what the entries hold but not
what the kernel has taken or given. -/
theorem RunInvariant.tick {platform : Platform} {test : IperfTest} {k : ℕ → KernelTotals}
    (h : RunInvariant platform test k) (samples : ℕ → Sample) :
    RunInvariant platform (iperfStatsCallback platform samples test)
      fun i => (k i).next i (.tick samples) where
  conserved := h.conserved.tick platform samples
  kernel := by
    intro hc i f hf
    have hcounts : CountsRetransmits platform test := ⟨hc.protocol, hc.sender, hc.retransmits,
      hc.tcpinfo⟩
    have hmap : ((iperfStatsCallback platform samples test).streams.map retransFigures)[i]? =
        (test.streams[i]?).map fun sp =>
          retransFigures (statsOfStream platform test (samples i) sp) := by
      simp [iperfStatsCallback, List.getElem?_mapIdx, Function.comp_def]
    rw [hmap] at hf
    obtain ⟨sp, hsp, rfl⟩ := Option.map_eq_some_iff.mp hf
    have hold := h.kernel hcounts i (retransFigures sp) (by simp [hsp])
    have hretrans : sp.result.streamRetrans = (k i).charged := congrArg Prod.fst hold
    have hprev : sp.result.streamPrevTotalRetrans = (k i).last.getD (k i).saved :=
      congrArg Prod.snd hold
    rw [retransFigures_tick hcounts, hretrans, hprev]
    unfold KernelTotals.next KernelTotals.charged
    dsimp only
    cases (k i).last with
    | none => simp
    | some total => simp

/-- The invariant survives the reset at the end of the omitted seconds, from where the
kernel's totals are counted anew. -/
theorem RunInvariant.reset {platform : Platform} {test : IperfTest} {k : ℕ → KernelTotals}
    (h : RunInvariant platform test k) (hom : test.omitting = true) (now : Timeval)
    (samples : ℕ → Sample) :
    RunInvariant platform (endOmission now samples test)
      fun i => (k i).next i (.endOmit now samples) where
  conserved := h.conserved.reset hom now samples
  kernel := by
    intro hc i f hf
    have hsends :
        sendsWithRetransmits { test with omitTimer := none, omitting := false } = true := by
      have hsender : test.sender = true := hc.sender
      have hretrans : test.senderHasRetransmits ≠ 0 := hc.retransmits
      unfold sendsWithRetransmits
      dsimp only
      rw [hsender]
      simpa using hretrans
    have hmap : ((endOmission now samples test).streams.map retransFigures)[i]? =
        (test.streams[i]?).map fun _ => (0, (samples i).totalRetrans) := by
      have hreset (sp : IperfStream) (sample : Sample) : retransFigures
          (resetStream { test with omitTimer := none, omitting := false } now sample sp) =
          (0, sample.totalRetrans) := by
        unfold retransFigures resetStream
        dsimp only
        rw [if_pos hsends]
      simp [endOmission, iperfResetStats, List.getElem?_mapIdx, hreset, Function.comp_def]
    rw [hmap] at hf
    obtain ⟨sp, -, rfl⟩ := Option.map_eq_some_iff.mp hf
    rfl

/-- One event keeps what holds of a run, whichever it is: a send, a receive, a calculation or
the end of the omit period. -/
theorem RunInvariant.step {platform : Platform} {test test' : IperfTest} {k : ℕ → KernelTotals}
    {e : TransferEvent} (h : RunInvariant platform test k)
    (hstep : transferStep platform test e = some test') :
    RunInvariant platform test' fun i => (k i).next i e := by
  have hconserved := h.conserved
  unfold EndConserved at hconserved
  cases e with
  | send env writeSetP =>
    dsimp only [transferStep] at hstep
    split at hstep
    · rename_i hsender
      cases hstep
      rw [hsender] at hconserved
      have hloop := iperfSend_invariant env writeSetP ⟨SameEnd.refl test, hconserved, rfl⟩
      exact h.transfer (hsender ▸ hloop)
    · cases hstep
  | recv io readSetP =>
    dsimp only [transferStep] at hstep
    split at hstep
    · cases hstep
    · rename_i hsender
      cases hstep
      have hreceiver : test.sender = false := by simpa using hsender
      rw [hreceiver] at hconserved
      have hloop := iperfRecv_invariant io readSetP ⟨SameEnd.refl test, hconserved, rfl⟩
      exact h.transfer (hreceiver ▸ hloop)
  | tick samples =>
    cases hstep
    exact h.tick samples
  | endOmit now samples =>
    dsimp only [transferStep] at hstep
    split at hstep
    · rename_i hom
      cases hstep
      exact h.reset hom now samples
    · cases hstep

/-- A whole run, from any point at which the invariant holds. -/
theorem RunInvariant.run {platform : Platform} {test test' : IperfTest} {k : ℕ → KernelTotals}
    {events : List TransferEvent} (h : RunInvariant platform test k)
    (hrun : transferRun platform test events = some test') :
    RunInvariant platform test' fun i => events.foldl (KernelTotals.next i) (k i) := by
  induction events generalizing test k with
  | nil =>
    cases hrun
    exact h
  | cons e events ih =>
    obtain ⟨next, hstep, hrest⟩ := Option.bind_eq_some_iff.mp hrun
    exact ih (h.step hstep) hrest

/-- The start of a test on fresh streams satisfies the invariant: all counters are zero and so
are the kernel's totals. -/
theorem RunInvariant.start {test : IperfTest} (hf : Fresh test) (platform : Platform)
    (now : Timeval) : RunInvariant platform (startTest now test) fun _ => {} where
  conserved := by
    have hresults : ∀ sp ∈ (startTest now test).streams,
        sp.result = { startTime := now, startTimeFixed := now } := by
      intro sp hsp
      obtain ⟨sp₀, hsp₀, rfl⟩ := List.mem_map.mp hsp
      dsimp only
      rw [hf.results sp₀ hsp₀]
    constructor
    · intro sp hsp
      rw [hresults sp hsp]
      constructor
      · exact le_rfl
      · intro _ irp hirp
        cases hirp
      · intro _
        unfold currentBytes measuredBytes
        dsimp only
        rw [ite_self]
        rfl
      · intro _
        rfl
    · have hbytes : (startTest now test).bytesSent = 0 := hf.bytes
      rw [hbytes]
      refine List.sum_eq_zero ?_
      intro x hx
      obtain ⟨sp, hsp, rfl⟩ := List.mem_map.mp hx
      rw [hresults sp hsp]
      unfold measuredBytes
      dsimp only
      rw [Nat.sub_self, ite_self]
  kernel := by
    intro _ i f hfig
    have hmem : f ∈ (startTest now test).streams.map retransFigures := List.mem_of_getElem? hfig
    obtain ⟨sp, hsp, rfl⟩ := List.mem_map.mp hmem
    obtain ⟨sp₀, hsp₀, rfl⟩ := List.mem_map.mp hsp
    unfold retransFigures
    dsimp only
    rw [hf.results sp₀ hsp₀]
    rfl

/-- Once omission is over, the kept intervals and the one in progress hold exactly the
bytes of the measurement, the test counts their sum over the streams, and on a sender
that counts retransmits the kept intervals hold exactly those that the kernel counted
since the end of omission. -/
theorem bytes_conserved {platform : Platform} {test test' : IperfTest} {now : Timeval}
    {events : List TransferEvent} (hf : Fresh test)
    (hrun : transferRun platform (startTest now test) events = some test')
    (hom : test'.omitting = false) :
    (∀ sp ∈ test'.streams, sp.result.bytesSentOmit ≤ sp.result.bytesSent ∧
      keptBytes sp.result + currentBytes test'.sender sp.result =
        measuredBytes test'.sender sp.result) ∧
    (test'.streams.map fun sp => measuredBytes test'.sender sp.result).sum = test'.bytesSent ∧
    (CountsRetransmits platform test' → ∀ i sp, test'.streams[i]? = some sp →
      keptRetrans sp.result = sp.result.streamRetrans ∧
        sp.result.streamRetrans = (kernelTotals i events).charged) := by
  have hinv := (RunInvariant.start hf platform now).run hrun
  refine ⟨?_, hinv.conserved.total, ?_⟩
  · intro sp hsp
    have hstream := hinv.conserved.stream sp hsp
    exact ⟨hstream.omit_le, hstream.bytes hom⟩
  · intro hc i sp hsp
    have hstream := hinv.conserved.stream sp (List.mem_of_getElem? hsp)
    have hfig := hinv.kernel hc i (retransFigures sp) (by simp [hsp])
    exact ⟨hstream.retrans hom, congrArg Prod.fst hfig⟩

/-- A sender with one stream that omits its first seconds. -/
def omittingSender : IperfTest :=
  { sender := true, senderHasRetransmits := 1, omitSeconds := 2, numStreams := 1, multisend := 10,
    streams := [{ id := 1, socket := 5, greenLight := true }] }

/-- The sender with omitted seconds has just been set up. -/
theorem omittingSender_fresh : Fresh omittingSender where
  bytes := rfl
  results := by
    intro sp hsp
    rw [List.mem_singleton.mp hsp]

/-- Two calls of ten blocks around a tick, the end of omission, then a call, a tick and a call. -/
def omittingEvents : List TransferEvent :=
  [.send thousandBytes none, .tick fun _ => { totalRetrans := 4 }, .send thousandBytes none,
    .endOmit ⟨2, 0⟩ fun _ => { totalRetrans := 5 }, .send thousandBytes none,
    .tick fun _ => { totalRetrans := 9 }, .send thousandBytes none]

/-- The account of that run: twenty measured blocks, ten of them recorded, and the four
retransmits since the end of omission. -/
theorem omittingSender_conserved :
    ∃ test', transferRun ⟨true, true, fun _ => rfl⟩ (startTest {} omittingSender) omittingEvents =
        some test' ∧
      (∀ sp ∈ test'.streams, sp.result.bytesSentOmit ≤ sp.result.bytesSent ∧
        keptBytes sp.result + currentBytes test'.sender sp.result =
          measuredBytes test'.sender sp.result) ∧
      (test'.streams.map fun sp => measuredBytes test'.sender sp.result).sum = test'.bytesSent ∧
      (CountsRetransmits ⟨true, true, fun _ => rfl⟩ test' →
        ∀ i sp, test'.streams[i]? = some sp → keptRetrans sp.result = sp.result.streamRetrans ∧
          sp.result.streamRetrans = (kernelTotals i omittingEvents).charged) := by
  obtain ⟨test', hrun, hom⟩ : ∃ test', transferRun ⟨true, true, fun _ => rfl⟩
      (startTest {} omittingSender) omittingEvents = some test' ∧ test'.omitting = false :=
    ⟨_, rfl, rfl⟩
  exact ⟨test', hrun, bytes_conserved omittingSender_fresh hrun hom⟩

end IperfRuntime.ByteConservation
