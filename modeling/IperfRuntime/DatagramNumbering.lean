import Mathlib.Data.List.Range
import IperfRuntime.DatagramCounting
import IperfRuntime.DatagramHeader
import IperfRuntime.StreamHistory

/-!
# Numbering of datagrams

`iperf_udp_send` numbers a datagram before it writes it, in an `int` that also counts what
was sent. Long streams leave the range of the `int`, and a write that does not go through
leaves a number that no datagram carries. The network between the two ends is the subject of
the counting, not of the numbering.
-/

namespace IperfRuntime.DatagramNumbering

open ClockReading TestState TestParameters ParameterExchange StreamTraffic StreamHistory
open DatagramHeader DatagramCounting

/-- What a datagram meets on its way: the clocks, and what the buffers hold before. -/
structure Crossing (blksize : ℕ) where
  before : Timeval
  arrivalTime : Timeval
  out : StreamBuffer blksize
  into : StreamBuffer blksize

/-- `iperf_udp_send` on one end and `iperf_udp_recv` on the other. -/
def crossing {blksize : ℕ} (udpCounters64bit : Bool) (io : Crossing blksize)
    (ends : IperfStream × IperfStream) : IperfStream × IperfStream :=
  let sender := (iperfUdpSend blksize ends.1).2
  let datagram := transmitted udpCounters64bit
    (headerFields udpCounters64bit io.before sender.packetCount) io.out
  let fields := received udpCounters64bit datagram io.into
  (sender, (iperfUdpRecv ⟨datagram.length, ⟨fields.sec, fields.usec⟩, fields.pcount,
    io.arrivalTime⟩ ends.2).2)

/-- All datagrams of a stream, delivered in order. -/
def crossAll {blksize : ℕ} (udpCounters64bit : Bool) (ios : List (Crossing blksize))
    (ends : IperfStream × IperfStream) : IperfStream × IperfStream :=
  ios.foldl (fun ends io => crossing udpCounters64bit io ends) ends

/-- The figures of a receiver that got the first `n` datagrams in order. -/
structure InStep (n : ℕ) (sp : IperfStream) : Prop where
  packets : sp.packetCount = n
  lost : sp.cntError = 0
  late : sp.outoforderPackets = 0

/-- The number of a datagram in its header, as long as it is an `int`. -/
theorem headerFields_pcount (udpCounters64bit : Bool) (before : Timeval) {n : ℕ} (h : n < 2 ^ 31) :
    (headerFields udpCounters64bit before n).pcount = n := by
  unfold headerFields
  cases udpCounters64bit with
  | false =>
    show toUint32 n = n
    unfold toUint32
    omega
  | true =>
    show toUint64 n = n
    unfold toUint64
    omega

/-- A send takes the next number, whatever the system call returns. -/
theorem iperfUdpSend_packetCount (r : ℤ) (sp : IperfStream) :
    (iperfUdpSend r sp).2.packetCount = toInt (sp.packetCount + 1) := by
  unfold iperfUdpSend
  split
  · rfl
  · rfl

/-- The next datagram in order. -/
theorem iperfUdpRecv_inStep {io : RcvIo} {sp : IperfStream} {n : ℕ} (hreceived : 0 < io.received)
    (hp : io.pcount = n + 1) (h : InStep n sp) (hn : n + 1 < 2 ^ 31) :
    InStep (n + 1) (iperfUdpRecv io sp).2 := by
  obtain ⟨hpackets, hlost⟩ := @iperfUdpRecv_step io sp n 0 hreceived (by omega) h.packets
    (by rw [h.lost]; rfl) (Nat.zero_le n) (by omega)
  have hnext : toInt (sp.packetCount + 1) = sp.packetCount + 1 :=
    toInt_of_nonneg (by rw [h.packets]; omega) (by rw [h.packets]; omega)
  have hwide : (toUint64 (sp.packetCount + 1) : ℤ) = sp.packetCount + 1 :=
    toUint64_of_nonneg (by rw [h.packets]; omega) (by rw [h.packets]; omega)
  have hintime : toUint64 (toInt (sp.packetCount + 1)) ≤ io.pcount := by
    rw [hnext]
    have hcount := h.packets
    omega
  refine ⟨by rw [hpackets]; omega, ?_, ?_⟩
  · rw [hlost, hp]
    simp
  · have hlate := h.late
    unfold iperfUdpRecv
    rw [if_neg (by omega)]
    dsimp only [updateJitter, addReceived]
    unfold countDatagram
    dsimp only
    rw [if_pos hintime]
    exact hlate

/-- A datagram more, as long as its number is an `int`. -/
theorem crossing_inStep {blksize : ℕ} {udpCounters64bit : Bool} (hblksize : 16 ≤ blksize)
    (io : Crossing blksize) {ends : IperfStream × IperfStream} {n : ℕ}
    (hsender : ends.1.packetCount = n) (hreceiver : InStep n ends.2) (hn : n + 1 < 2 ^ 31) :
    (crossing udpCounters64bit io ends).1.packetCount = (n + 1 : ℕ) ∧
      InStep (n + 1) (crossing udpCounters64bit io ends).2 := by
  have hcount : (iperfUdpSend blksize ends.1).2.packetCount = (n + 1 : ℕ) := by
    rw [iperfUdpSend_packetCount, hsender]
    exact toInt_of_nonneg (by omega) (by omega)
  refine ⟨hcount, ?_⟩
  unfold crossing
  dsimp only
  rw [hcount, length_transmitted, received_transmitted (headerFields_inRange _ _ _)
    (le_trans (headerLength_le _) hblksize)]
  exact iperfUdpRecv_inStep (show (0 : ℤ) < blksize by omega)
    (headerFields_pcount udpCounters64bit io.before hn) hreceiver hn

/-- Datagrams that all arrive keep both ends in step. -/
theorem crossAll_inStep {blksize : ℕ} {udpCounters64bit : Bool} (hblksize : 16 ≤ blksize)
    (ios : List (Crossing blksize)) {ends : IperfStream × IperfStream} {n : ℕ}
    (hsender : ends.1.packetCount = n) (hreceiver : InStep n ends.2)
    (hn : n + ios.length < 2 ^ 31) :
    InStep (n + ios.length) (crossAll udpCounters64bit ios ends).2 := by
  induction ios generalizing ends n with
  | nil => exact hreceiver
  | cons io ios ih =>
    rw [List.length_cons] at hn ⊢
    obtain ⟨hcount, hnext⟩ := @crossing_inStep blksize udpCounters64bit hblksize io ends n
      hsender hreceiver (by omega)
    have hrest := ih hcount hnext (by omega)
    rw [show n + (ios.length + 1) = n + 1 + ios.length by omega]
    exact hrest

/-- A receiver counts in an `int`. -/
theorem iperfUdpRecv_isInt (io : RcvIo) {sp : IperfStream} (h : IsInt sp.packetCount) :
    IsInt (iperfUdpRecv io sp).2.packetCount := by
  unfold iperfUdpRecv
  split
  · exact h
  · dsimp only [updateJitter]
    unfold countDatagram
    split
    · dsimp only
      exact isInt_toInt io.pcount
    · exact h

/-- The receiver's count stays in the range of an `int`. -/
theorem crossAll_isInt {blksize : ℕ} (udpCounters64bit : Bool) (ios : List (Crossing blksize))
    {ends : IperfStream × IperfStream} (h : IsInt ends.2.packetCount) :
    IsInt (crossAll udpCounters64bit ios ends).2.packetCount := by
  induction ios generalizing ends with
  | nil => exact h
  | cons io ios ih => exact ih (iperfUdpRecv_isInt _ h)

/-- A stream that is counted right is not longer than an `int` can count. -/
theorem length_of_inStep {blksize : ℕ} {udpCounters64bit : Bool} {ios : List (Crossing blksize)}
    {sender receiver : IperfStream} (hreceiver : InStep 0 receiver)
    (h : InStep ios.length (crossAll udpCounters64bit ios (sender, receiver)).2) :
    ios.length < 2 ^ 31 := by
  have hstart : IsInt receiver.packetCount := by
    rw [hreceiver.packets]
    decide
  have hint := @crossAll_isInt blksize udpCounters64bit ios (sender, receiver) hstart
  rw [h.packets] at hint
  unfold IsInt at hint
  omega

/-- A stream that is delivered in order is counted right if and only if its datagrams can be
numbered in an `int`, with either width of the counters. -/
theorem crossAll_inStep_iff (udpCounters64bit : Bool) (blksize : ℕ) (hblksize : 16 ≤ blksize)
    (ios : List (Crossing blksize)) (sender receiver : IperfStream)
    (hsender : sender.packetCount = 0) (hreceiver : InStep 0 receiver) :
    InStep ios.length (crossAll udpCounters64bit ios (sender, receiver)).2 ↔
      ios.length < 2 ^ 31 := by
  constructor
  · exact length_of_inStep hreceiver
  · intro hn
    have hrun := @crossAll_inStep blksize udpCounters64bit hblksize ios (sender, receiver) 0
      (by rw [hsender]; rfl) hreceiver (by omega)
    rw [Nat.zero_add] at hrun
    exact hrun

/-- Two new streams are in step. -/
theorem inStep_fresh : InStep 0 {} := ⟨rfl, rfl, rfl⟩

/-- A crossing over empty buffers. -/
def plainCrossing : Crossing 16 := ⟨{}, {}, constantBuffer 16 0, constantBuffer 16 0⟩

/-- Three datagrams are far below the bound. -/
theorem crossAll_three_inStep :
    InStep 3 (crossAll true [plainCrossing, plainCrossing, plainCrossing] ({}, {})).2 ↔
      3 < 2 ^ 31 :=
  crossAll_inStep_iff true 16 (le_refl 16) [plainCrossing, plainCrossing, plainCrossing] {} {} rfl
    inStep_fresh

/-- The datagram behind the largest `int`, with counters of 64 bits in the header: the count
itself is an `int` and leaves its range. -/
theorem crossAll_long_not_inStep :
    ¬ InStep (List.replicate (2 ^ 31) plainCrossing).length
      (crossAll true (List.replicate (2 ^ 31) plainCrossing) ({}, {})).2 := by
  intro h
  have hlength := length_of_inStep inStep_fresh h
  rw [List.length_replicate] at hlength
  omega

/-- A call of `iperf_udp_send` whose `Nwrite` returns `r`: the stream, and the counters of the
datagrams that were transmitted. -/
def sendCall (udpCounters64bit : Bool) (s : IperfStream × List ℕ) (r : ℤ) :
    IperfStream × List ℕ :=
  let sp := (iperfUdpSend r s.1).2
  (sp, if 0 < r then s.2 ++ [(headerFields udpCounters64bit {} sp.packetCount).pcount] else s.2)

/-- A sequence of calls on a stream. -/
def sendCalls (udpCounters64bit : Bool) (outcomes : List ℤ) (sp : IperfStream) :
    IperfStream × List ℕ :=
  outcomes.foldl (sendCall udpCounters64bit) (sp, [])

/-- What `Nwrite` returns for a datagram: a block, nothing yet, or `NET_SOFTERROR`. -/
def WriteOutcome (blksize : ℕ) (r : ℤ) : Prop := r = blksize ∨ r = 0 ∨ r = netSofterror

/-- The numbering behind a sequence of calls: the datagrams that were transmitted are counted,
their counters are consecutive, and a receiver that gets them all charges no loss. -/
structure Numbered (s : IperfStream × List ℕ) : Prop where
  packets : s.1.packetCount = s.2.length
  consecutive : List.IsChain (fun a b => b = a + 1) s.2
  uncharged : ∀ ios : List RcvIo, ios.map (·.pcount) = s.2 → (∀ io ∈ ios, 0 < io.received) →
    (receiveAll ios {}).cntError = 0

/-- A further call sends after the calls before it. -/
theorem sendCalls_concat (udpCounters64bit : Bool) (outcomes : List ℤ) (r : ℤ) (sp : IperfStream) :
    sendCalls udpCounters64bit (outcomes ++ [r]) sp =
      sendCall udpCounters64bit (sendCalls udpCounters64bit outcomes sp) r := by
  unfold sendCalls
  rw [List.foldl_append]
  rfl

/-- The counter goes by the calls. -/
theorem sendCalls_packetCount (udpCounters64bit : Bool) (outcomes : List ℤ) {sp : IperfStream}
    (h : sp.packetCount = 0) :
    (sendCalls udpCounters64bit outcomes sp).1.packetCount = toInt outcomes.length := by
  induction outcomes using List.reverseRecOn with
  | nil =>
    rw [List.length_nil]
    exact h
  | append_singleton outcomes r ih =>
    rw [sendCalls_concat, List.length_append, List.length_singleton]
    unfold sendCall
    dsimp only
    rw [iperfUdpSend_packetCount, ih]
    unfold toInt
    push_cast
    exact Int.bmod_add_bmod

/-- The transmitted datagrams are those whose write went through. -/
theorem sendCalls_transmitted (udpCounters64bit : Bool) (outcomes : List ℤ) (sp : IperfStream) :
    (sendCalls udpCounters64bit outcomes sp).2.length =
      (outcomes.filter fun r => decide (0 < r)).length := by
  induction outcomes using List.reverseRecOn with
  | nil => rfl
  | append_singleton outcomes r ih =>
    rw [sendCalls_concat, List.filter_append, List.length_append, ← ih]
    unfold sendCall
    dsimp only
    by_cases hr : 0 < r
    · rw [if_pos hr, List.length_append, List.filter_cons_of_pos (by simpa using hr)]
      rfl
    · rw [if_neg hr, List.filter_cons_of_neg (by simpa using hr)]
      rfl

/-- While every write takes a block, the counters are the numbers from one on. -/
theorem sendCalls_full {udpCounters64bit : Bool} {outcomes : List ℤ} {sp : IperfStream}
    (h : sp.packetCount = 0) (hfull : ∀ r ∈ outcomes, 0 < r) (hlength : outcomes.length < 2 ^ 31) :
    (sendCalls udpCounters64bit outcomes sp).2 = List.range' 1 outcomes.length := by
  induction outcomes using List.reverseRecOn with
  | nil => rfl
  | append_singleton outcomes r ih =>
    rw [List.length_append, List.length_singleton] at hlength ⊢
    have hr : 0 < r := hfull r (by simp)
    have hcounters := ih (fun r hr => hfull r (List.mem_append_left _ hr)) (by omega)
    have hcount := sendCalls_packetCount udpCounters64bit (outcomes ++ [r]) h
    rw [sendCalls_concat, List.length_append, List.length_singleton,
      toInt_of_nonneg (by omega) (by omega)] at hcount
    have hnumber := headerFields_pcount udpCounters64bit {} hlength
    rw [sendCalls_concat, List.range'_1_concat, ← hcounters]
    unfold sendCall at hcount ⊢
    dsimp only at hcount ⊢
    rw [if_pos hr, hcount, hnumber, Nat.add_comm 1]

/-- The numbers from one on, in order, are received without a loss. -/
theorem records_range' (m n : ℕ) :
    records m (List.range' (m + 1) n) = n ∧ largest m (List.range' (m + 1) n) = m + n := by
  induction n generalizing m with
  | zero => exact ⟨rfl, rfl⟩
  | succ n ih =>
    obtain ⟨hrecords, hlargest⟩ := ih (m + 1)
    rw [List.range'_succ, records, if_pos (by omega), hrecords]
    refine ⟨rfl, ?_⟩
    have hnext : largest m ((m + 1) :: List.range' (m + 1 + 1) n) =
        largest (m + 1) (List.range' (m + 1 + 1) n) := by
      unfold largest
      rw [List.foldl_cons, Nat.max_eq_right (by omega)]
    rw [hnext, hlargest]
    omega

/-- Calls that send something number their datagrams as long as the count does not wrap. -/
theorem numbered_full {udpCounters64bit : Bool} {outcomes : List ℤ} {sp : IperfStream}
    (h : sp.packetCount = 0) (hfull : ∀ r ∈ outcomes, 0 < r) (hlength : outcomes.length < 2 ^ 31) :
    Numbered (sendCalls udpCounters64bit outcomes sp) := by
  have hcounters := @sendCalls_full udpCounters64bit outcomes sp h hfull hlength
  have hcount := sendCalls_packetCount udpCounters64bit outcomes h
  rw [toInt_of_nonneg (by omega) (by omega)] at hcount
  obtain ⟨hrecords, hlargest⟩ := records_range' 0 outcomes.length
  constructor
  · rw [hcounters, List.length_range', hcount]
  · rw [hcounters]
    exact List.isChain_range' 1 outcomes.length 1
  · intro ios hios hreceived
    rw [hcounters] at hios
    have hbound : ∀ io ∈ ios, io.pcount < 2 ^ 31 := by
      intro io hio
      have hmem : io.pcount ∈ ios.map (·.pcount) := List.mem_map_of_mem hio
      rw [hios, List.mem_range'_1] at hmem
      omega
    obtain ⟨_, hlost⟩ := @receiveAll_counts ios {} 0 0 hreceived hbound rfl rfl (le_refl 0)
      (by norm_num)
    rw [hios, hrecords, hlargest] at hlost
    omega

/-- The numbering is intact behind every call of a sequence if and only if every write took a
block and the calls can be counted in an `int`. -/
theorem sendCalls_numbered_iff (udpCounters64bit : Bool) (blksize : ℕ) (hblksize : 1 ≤ blksize)
    (outcomes : List ℤ) (houtcomes : ∀ r ∈ outcomes, WriteOutcome blksize r) (sp : IperfStream)
    (h : sp.packetCount = 0) :
    (∀ done, done <+: outcomes → Numbered (sendCalls udpCounters64bit done sp)) ↔
      (∀ r ∈ outcomes, r = blksize) ∧ outcomes.length < 2 ^ 31 := by
  constructor
  · intro hnumbered
    have hlength : outcomes.length < 2 ^ 31 := by
      by_contra hlong
      have hpackets := (hnumbered (outcomes.take (2 ^ 31)) (List.take_prefix _ _)).packets
      rw [sendCalls_packetCount _ _ h, List.length_take, Nat.min_eq_left (by omega)] at hpackets
      have hwrapped : toInt ((2 ^ 31 : ℕ) : ℤ) = -2 ^ 31 := by decide +kernel
      rw [hwrapped] at hpackets
      omega
    refine ⟨?_, hlength⟩
    have hpackets := (hnumbered outcomes (List.prefix_refl _)).packets
    rw [sendCalls_packetCount _ _ h, toInt_of_nonneg (by omega) (by omega),
      sendCalls_transmitted] at hpackets
    have hall : (outcomes.filter fun r => decide (0 < r)).length = outcomes.length := by omega
    intro r hr
    have hpositive := List.length_filter_eq_length_iff.mp hall r hr
    have hr0 : 0 < r := by simpa using hpositive
    rcases houtcomes r hr with hblock | hnone | hsoft
    · exact hblock
    · omega
    · unfold netSofterror at hsoft
      omega
  · rintro ⟨hfull, hlength⟩ done hdone
    refine numbered_full h ?_ (by have hle := hdone.length_le; omega)
    intro r hr
    have hblock := hfull r (hdone.subset hr)
    omega

/-- Two full datagrams are numbered one and two. -/
theorem sendCalls_two_numbered :
    (∀ done, done <+: [100, 100] → Numbered (sendCalls false done {})) ↔
      (∀ r ∈ [(100 : ℤ), 100], r = (100 : ℕ)) ∧ [(100 : ℤ), 100].length < 2 ^ 31 := by
  refine sendCalls_numbered_iff false 100 (by decide) [100, 100] ?_ {} rfl
  intro r hr
  simp only [List.mem_cons, List.not_mem_nil, or_false, or_self] at hr
  exact Or.inl hr

/-- A write that finds the socket full, between two that go through, takes a number with it:
the second datagram carries three. -/
theorem sendCalls_gap_not_numbered : ¬ Numbered (sendCalls false [100, 0, 100] {}) := by
  intro h
  have hpackets := h.packets
  have hcount : (sendCalls false [100, 0, 100] {}).1.packetCount = 3 := by decide +kernel
  have hlength : (sendCalls false [100, 0, 100] {}).2.length = 2 := by decide +kernel
  omega

end IperfRuntime.DatagramNumbering
