import IperfRuntime.DatagramCounting

/-!
# The jitter estimate

A filter over the differences of transit times. The first difference is taken to zero, and
the transit times are distances, so the offset between the clocks of the hosts stays in the
estimate. The arithmetic is exact: the rounding of `double` is not followed here.
-/

namespace IperfRuntime.JitterEstimate

open ClockReading TestState StreamTraffic DatagramCounting

/-- A reading of a clock that is ahead by a number of microseconds. -/
def shiftTime (usecs : ℤ) (t : Timeval) : Timeval :=
  ⟨(t.toUsecs + usecs) / 1000000, (t.toUsecs + usecs) % 1000000⟩

/-- A datagram that is taken by such a clock. -/
def shiftArrival (usecs : ℤ) (io : RcvIo) : RcvIo :=
  { io with arrivalTime := shiftTime usecs io.arrivalTime }

/-- The estimate behind a sequence of datagrams, with the receiver's clock ahead. -/
def jitterAt (ios : List RcvIo) (sp : IperfStream) (usecs : ℤ) : ℚ :=
  (receiveAll (ios.map (shiftArrival usecs)) sp).jitter

/-- No datagram arrives before it was sent, with the receiver's clock ahead. -/
def Forward (ios : List RcvIo) (usecs : ℤ) : Prop :=
  ∀ io ∈ ios, io.sentTime.toUsecs ≤ io.arrivalTime.toUsecs + usecs

/-- A shifted time lies those microseconds later. -/
theorem shiftTime_seconds (usecs : ℤ) (t : Timeval) :
    (shiftTime usecs t).seconds = (t.toUsecs + usecs : ℤ) / 1000000 := by
  have hsame : (shiftTime usecs t).toUsecs = t.toUsecs + usecs := by
    unfold shiftTime
    show (t.toUsecs + usecs) / 1000000 * 1000000 + (t.toUsecs + usecs) % 1000000 = _
    omega
  rw [Timeval.seconds_eq, hsame]

/-- The transit time of a datagram that does not arrive before it was sent. -/
theorem transit_forward {io : RcvIo} {usecs : ℤ}
    (h : io.sentTime.toUsecs ≤ io.arrivalTime.toUsecs + usecs) :
    timevalDiff io.sentTime (shiftTime usecs io.arrivalTime) =
      (io.arrivalTime.toUsecs + usecs - io.sentTime.toUsecs : ℤ) / 1000000 := by
  have hle : (io.sentTime.toUsecs : ℚ) ≤ (io.arrivalTime.toUsecs + usecs : ℤ) := by
    exact_mod_cast h
  rw [timevalDiff_eq_abs, shiftTime_seconds, Timeval.seconds_eq, abs_sub_comm, abs_of_nonneg]
  · push_cast
    ring
  · rw [sub_nonneg]
    exact div_le_div_of_nonneg_right hle (by norm_num)

/-- What `iperf_udp_recv` does to the estimate is `updateJitter`. -/
theorem iperfUdpRecv_jitter {io : RcvIo} (h : 0 < io.received) (sp : IperfStream) :
    (iperfUdpRecv io sp).2.prevTransit = timevalDiff io.sentTime io.arrivalTime ∧
      (iperfUdpRecv io sp).2.jitter = sp.jitter +
        (|timevalDiff io.sentTime io.arrivalTime - sp.prevTransit| - sp.jitter) / 16 := by
  have hkept : (countDatagram io.pcount (addReceived io.received sp)).jitter = sp.jitter ∧
      (countDatagram io.pcount (addReceived io.received sp)).prevTransit = sp.prevTransit := by
    unfold countDatagram
    split
    · exact ⟨rfl, rfl⟩
    · exact ⟨rfl, rfl⟩
  unfold iperfUdpRecv
  rw [if_neg (by omega)]
  unfold updateJitter
  dsimp only
  rw [hkept.1, hkept.2]
  exact ⟨rfl, rfl⟩

/-- Behind the first datagram the offset no longer changes what is added, and what is there
already decays. -/
theorem jitter_decays {ios : List RcvIo} {a b : IperfStream} {usecs usecs' : ℤ}
    (hreceived : ∀ io ∈ ios, 0 < io.received) (h : Forward ios usecs) (h' : Forward ios usecs')
    (hprev : b.prevTransit - a.prevTransit = (usecs' - usecs : ℤ) / 1000000) :
    jitterAt ios b usecs' - jitterAt ios a usecs =
      (15 / 16) ^ ios.length * (b.jitter - a.jitter) := by
  induction ios generalizing a b with
  | nil =>
    show b.jitter - a.jitter = _
    rw [List.length_nil, pow_zero, one_mul]
  | cons io ios ih =>
    have hio : 0 < io.received := hreceived io List.mem_cons_self
    have hstep : ∀ (usecs : ℤ) (sp : IperfStream), jitterAt (io :: ios) sp usecs =
        jitterAt ios (iperfUdpRecv (shiftArrival usecs io) sp).2 usecs := fun _ _ => rfl
    obtain ⟨haPrev, haJitter⟩ := @iperfUdpRecv_jitter (shiftArrival usecs io) hio a
    obtain ⟨hbPrev, hbJitter⟩ := @iperfUdpRecv_jitter (shiftArrival usecs' io) hio b
    have ht := transit_forward (h io List.mem_cons_self)
    have ht' := transit_forward (h' io List.mem_cons_self)
    dsimp only [shiftArrival] at haPrev haJitter hbPrev hbJitter
    rw [ht] at haPrev haJitter
    rw [ht'] at hbPrev hbJitter
    have hnext := @ih (iperfUdpRecv (shiftArrival usecs io) a).2
      (iperfUdpRecv (shiftArrival usecs' io) b).2
      (fun io hio => hreceived io (List.mem_cons_of_mem _ hio))
      (fun io hio => h io (List.mem_cons_of_mem _ hio))
      (fun io hio => h' io (List.mem_cons_of_mem _ hio))
      (by
        dsimp only [shiftArrival]
        rw [haPrev, hbPrev]
        push_cast
        ring)
    have hadded : ((io.arrivalTime.toUsecs + usecs' - io.sentTime.toUsecs : ℤ) : ℚ) / 1000000 -
        b.prevTransit = ((io.arrivalTime.toUsecs + usecs - io.sentTime.toUsecs : ℤ) : ℚ) / 1000000 -
          a.prevTransit := by
      push_cast at hprev ⊢
      linarith
    dsimp only [shiftArrival] at hnext
    rw [hstep, hstep]
    dsimp only [shiftArrival]
    rw [hnext, haJitter, hbJitter, hadded, List.length_cons, pow_succ]
    ring

/-- On a fresh stream an offset that grows by some microseconds leaves a share of them: the
first difference is taken to zero, and every datagram keeps fifteen parts of sixteen. -/
theorem jitter_offset {io : RcvIo} {ios : List RcvIo} {sp : IperfStream} {usecs usecs' : ℤ}
    (hprev : sp.prevTransit = 0) (hreceived : ∀ io' ∈ io :: ios, 0 < io'.received)
    (h : Forward (io :: ios) usecs) (h' : Forward (io :: ios) usecs') :
    jitterAt (io :: ios) sp usecs' - jitterAt (io :: ios) sp usecs =
      (15 / 16) ^ ios.length * ((usecs' - usecs : ℤ) / 16000000) := by
  have hio : 0 < io.received := hreceived io List.mem_cons_self
  have hstep : ∀ (usecs : ℤ), jitterAt (io :: ios) sp usecs =
      jitterAt ios (iperfUdpRecv (shiftArrival usecs io) sp).2 usecs := fun _ => rfl
  obtain ⟨haPrev, haJitter⟩ := @iperfUdpRecv_jitter (shiftArrival usecs io) hio sp
  obtain ⟨hbPrev, hbJitter⟩ := @iperfUdpRecv_jitter (shiftArrival usecs' io) hio sp
  have hfirst := h io List.mem_cons_self
  have hfirst' := h' io List.mem_cons_self
  have hnonneg : ∀ usecs : ℤ, io.sentTime.toUsecs ≤ io.arrivalTime.toUsecs + usecs →
      (0 : ℚ) ≤ ((io.arrivalTime.toUsecs + usecs - io.sentTime.toUsecs : ℤ) : ℚ) / 1000000 := by
    intro usecs hle
    have hint : (0 : ℤ) ≤ io.arrivalTime.toUsecs + usecs - io.sentTime.toUsecs := by omega
    exact div_nonneg (by exact_mod_cast hint) (by norm_num)
  dsimp only [shiftArrival] at haPrev haJitter hbPrev hbJitter
  rw [transit_forward hfirst] at haPrev haJitter
  rw [transit_forward hfirst'] at hbPrev hbJitter
  rw [hprev, sub_zero, abs_of_nonneg (hnonneg _ hfirst)] at haJitter
  rw [hprev, sub_zero, abs_of_nonneg (hnonneg _ hfirst')] at hbJitter
  have hdecays := @jitter_decays ios (iperfUdpRecv (shiftArrival usecs io) sp).2
    (iperfUdpRecv (shiftArrival usecs' io) sp).2 usecs usecs'
    (fun io hio => hreceived io (List.mem_cons_of_mem _ hio))
    (fun io hio => h io (List.mem_cons_of_mem _ hio))
    (fun io hio => h' io (List.mem_cons_of_mem _ hio))
    (by
      dsimp only [shiftArrival]
      rw [haPrev, hbPrev]
      push_cast
      ring)
  rw [hstep, hstep, hdecays]
  dsimp only [shiftArrival]
  rw [haJitter, hbJitter]
  push_cast
  ring

/-- A clock far enough ahead. -/
theorem exists_forward (ios : List RcvIo) :
    ∃ bound : ℤ, ∀ usecs, bound ≤ usecs → Forward ios usecs := by
  induction ios with
  | nil =>
    refine ⟨0, ?_⟩
    intro usecs _ io hio
    cases hio
  | cons io ios ih =>
    obtain ⟨bound, hbound⟩ := ih
    refine ⟨max bound (io.sentTime.toUsecs - io.arrivalTime.toUsecs), ?_⟩
    intro usecs hle io' hio'
    rcases List.mem_cons.mp hio' with rfl | hio'
    · omega
    · exact hbound usecs (by omega) io' hio'

/-- The estimate of a fresh stream does not depend on the offset between the clocks if and only if
no datagram arrived; and between offsets with which no datagram arrives before it was sent it is
the same only if they are. -/
theorem jitter_independent_iff (ios : List RcvIo) (sp : IperfStream) (hprev : sp.prevTransit = 0)
    (hreceived : ∀ io ∈ ios, 0 < io.received) :
    ((∀ usecs, jitterAt ios sp usecs = (receiveAll ios sp).jitter) ↔ ios = []) ∧
      ∀ usecs usecs', Forward ios usecs → Forward ios usecs' →
        (jitterAt ios sp usecs = jitterAt ios sp usecs' ↔ usecs = usecs' ∨ ios = []) := by
  have hpairs : ∀ usecs usecs', Forward ios usecs → Forward ios usecs' →
      (jitterAt ios sp usecs = jitterAt ios sp usecs' ↔ usecs = usecs' ∨ ios = []) := by
    intro usecs usecs' h h'
    cases ios with
    | nil => simp [jitterAt]
    | cons io ios =>
      have hoffset := jitter_offset hprev hreceived h h'
      constructor
      · intro heq
        left
        rw [heq, sub_self] at hoffset
        have hpow : ((15 : ℚ) / 16) ^ ios.length ≠ 0 := pow_ne_zero _ (by norm_num)
        have hzero : ((usecs' - usecs : ℤ) : ℚ) / 16000000 = 0 :=
          (mul_eq_zero.mp hoffset.symm).resolve_left hpow
        have hint : ((usecs' - usecs : ℤ) : ℚ) = 0 := by
          have hscaled := congrArg (· * (16000000 : ℚ)) hzero
          simpa using hscaled
        have hdiff : usecs' - usecs = 0 := by exact_mod_cast hint
        omega
      · rintro (rfl | hnone)
        · rfl
        · cases hnone
  refine ⟨?_, hpairs⟩
  constructor
  · intro hsame
    obtain ⟨bound, hbound⟩ := exists_forward ios
    have hequal := (hpairs bound (bound + 1) (hbound _ (le_refl _)) (hbound _ (by omega))).mp
      ((hsame bound).trans (hsame (bound + 1)).symm)
    rcases hequal with hbad | hnone
    · omega
    · exact hnone
  · rintro rfl usecs
    rfl

/-- A datagram that arrives when it was sent. -/
def promptDatagram : RcvIo := ⟨8, {}, 1, {}⟩

/-- With one prompt datagram the estimate is not the same for all offsets of the clocks. -/
theorem jitter_prompt_iff :
    ((∀ usecs, jitterAt [promptDatagram] {} usecs = (receiveAll [promptDatagram] {}).jitter) ↔
        [promptDatagram] = []) ∧
      (jitterAt [promptDatagram] {} 1 = jitterAt [promptDatagram] {} 2 ↔
        (1 : ℤ) = 2 ∨ [promptDatagram] = []) := by
  have hmain := jitter_independent_iff [promptDatagram] {} rfl (by decide)
  exact ⟨hmain.1, hmain.2 1 2 (by unfold Forward; decide) (by unfold Forward; decide)⟩

/-- Sixteen seconds between the clocks are a second of jitter after the first datagram,
although it was not delayed at all. -/
theorem jitter_prompt_offset :
    jitterAt [promptDatagram] {} 16000000 = 1 ∧ (receiveAll [promptDatagram] {}).jitter = 0 ∧
      ¬ ∀ usecs, jitterAt [promptDatagram] {} usecs = (receiveAll [promptDatagram] {}).jitter := by
  have hshifted : jitterAt [promptDatagram] {} 16000000 = 1 := by decide +kernel
  have hplain : (receiveAll [promptDatagram] {}).jitter = 0 := by decide +kernel
  refine ⟨hshifted, hplain, ?_⟩
  intro hsame
  have hequal := hsame 16000000
  rw [hshifted, hplain] at hequal
  exact absurd hequal (by norm_num)

end IperfRuntime.JitterEstimate
