import Mathlib.Data.Finset.Card
import Mathlib.Order.Interval.Finset.Nat
import IperfRuntime.StreamTraffic
import IperfRuntime.ParameterExchange

/-!
# Counting received datagrams

`iperf_udp_recv` over a sequence of datagrams: the largest counter and the losses, which are
charged when a gap appears and never taken back. A record is a counter above all before it.
The clock and the jitter of the same routine are looked at elsewhere.
-/

namespace IperfRuntime.DatagramCounting

open TestState TestParameters ParameterExchange StreamTraffic

/-- `iperf_udp_recv`, once for each datagram. -/
def receiveAll (ios : List RcvIo) (sp : IperfStream) : IperfStream :=
  ios.foldl (fun sp io => (iperfUdpRecv io sp).2) sp

/-- The largest of the counters and of one before them. -/
def largest (m : ℕ) (counters : List ℕ) : ℕ := counters.foldl max m

/-- How many counters are above all before them. -/
def records : ℕ → List ℕ → ℕ
  | _, [] => 0
  | m, c :: counters => if m < c then records c counters + 1 else records m counters

/-- The numbers up to the largest counter that are not among the counters. -/
def missing (counters : List ℕ) : Finset ℕ :=
  (Finset.Icc 1 (largest 0 counters)).filter (· ∉ counters)

/-- The figures that the datagrams with the given counters should leave. -/
structure Counted (counters : List ℕ) (sp : IperfStream) : Prop where
  packets : sp.packetCount = largest 0 counters
  lost : sp.cntError = (missing counters).card

/-- A count in the range of a `uint64_t` is stored as it is. -/
theorem toUint64_of_nonneg {n : ℤ} (h : 0 ≤ n) (hlt : n < 2 ^ 64) : (toUint64 n : ℤ) = n := by
  unfold toUint64
  rw [Int.emod_eq_of_lt h hlt]
  exact Int.toNat_of_nonneg h

/-- A count in the range of an `int` is stored as it is. -/
theorem toInt_of_nonneg {n : ℤ} (h : 0 ≤ n) (hlt : n < 2 ^ 31) : toInt n = n := by
  apply toInt_of_isInt
  unfold IsInt
  omega

/-- A datagram above all before it: the numbers in between are charged. -/
theorem countDatagram_above {pcount : ℕ} {sp : IperfStream} (hm : 0 ≤ sp.packetCount)
    (he : 0 ≤ sp.cntError) (hle : sp.cntError ≤ sp.packetCount) (h : sp.packetCount < pcount)
    (hp : pcount < 2 ^ 31) :
    (countDatagram pcount sp).packetCount = pcount ∧
      (countDatagram pcount sp).cntError = sp.cntError + (pcount - 1 - sp.packetCount) := by
  have hnext : toInt (sp.packetCount + 1) = sp.packetCount + 1 :=
    toInt_of_nonneg (by omega) (by omega)
  have hwide : (toUint64 (sp.packetCount + 1) : ℤ) = sp.packetCount + 1 :=
    toUint64_of_nonneg (by omega) (by omega)
  have hle' : toUint64 (sp.packetCount + 1) ≤ pcount := by omega
  have hcount : toInt pcount = pcount := toInt_of_nonneg (by omega) (by omega)
  unfold countDatagram
  rw [hnext, if_pos hle']
  dsimp only
  refine ⟨by rw [hcount], ?_⟩
  by_cases hgap : toUint64 (sp.packetCount + 1) < pcount
  · rw [if_pos hgap]
    exact toInt_of_nonneg (by omega) (by omega)
  · rw [if_neg hgap]
    omega

/-- A late datagram: nothing is taken back. -/
theorem countDatagram_late {pcount : ℕ} {sp : IperfStream} (hm : sp.packetCount < 2 ^ 31)
    (h : pcount ≤ sp.packetCount) :
    (countDatagram pcount sp).packetCount = sp.packetCount ∧
      (countDatagram pcount sp).cntError = sp.cntError := by
  have hlate : ¬ toUint64 (toInt (sp.packetCount + 1)) ≤ pcount := by
    by_cases htop : sp.packetCount + 1 < 2 ^ 31
    · have hwide : (toUint64 (sp.packetCount + 1) : ℤ) = sp.packetCount + 1 :=
        toUint64_of_nonneg (by omega) (by omega)
      rw [toInt_of_nonneg (by omega) htop]
      omega
    · have hlast : sp.packetCount + 1 = 2 ^ 31 := by omega
      have hwide : toUint64 (toInt (2 ^ 31)) = 2 ^ 64 - 2 ^ 31 := by decide +kernel
      rw [hlast, hwide]
      omega
  unfold countDatagram
  rw [if_neg hlate]
  exact ⟨rfl, rfl⟩

/-- What `iperf_udp_recv` does to the counts is `countDatagram`. -/
theorem iperfUdpRecv_counts {io : RcvIo} (h : 0 < io.received) (sp : IperfStream) :
    (iperfUdpRecv io sp).2.packetCount = (countDatagram io.pcount sp).packetCount ∧
      (iperfUdpRecv io sp).2.cntError = (countDatagram io.pcount sp).cntError := by
  unfold iperfUdpRecv
  rw [if_neg (by omega)]
  dsimp only [updateJitter]
  unfold countDatagram addReceived
  dsimp only
  split
  · exact ⟨rfl, rfl⟩
  · exact ⟨rfl, rfl⟩

/-- One datagram more, in terms of the largest counter and the charged losses. -/
theorem iperfUdpRecv_step {io : RcvIo} {sp : IperfStream} {m e : ℕ} (hreceived : 0 < io.received)
    (hp : io.pcount < 2 ^ 31) (hm : sp.packetCount = m) (he : sp.cntError = e) (hle : e ≤ m)
    (hlt : m < 2 ^ 31) :
    (iperfUdpRecv io sp).2.packetCount = max m io.pcount ∧
      (iperfUdpRecv io sp).2.cntError =
        ((if m < io.pcount then e + (io.pcount - 1 - m) else e : ℕ) : ℤ) := by
  obtain ⟨hpackets, herrors⟩ := iperfUdpRecv_counts hreceived sp
  rw [hpackets, herrors]
  by_cases h : m < io.pcount
  · obtain ⟨hcount, hcharged⟩ := @countDatagram_above io.pcount sp (by omega) (by omega) (by omega)
      (by omega) hp
    rw [hcount, hcharged, if_pos h]
    omega
  · obtain ⟨hcount, hcharged⟩ := @countDatagram_late io.pcount sp (by omega) (by omega)
    rw [hcount, hcharged, if_neg h]
    omega

/-- The largest counter is not below any of them, nor below the start. -/
theorem le_largest (m : ℕ) (counters : List ℕ) :
    m ≤ largest m counters ∧ ∀ c ∈ counters, c ≤ largest m counters := by
  induction counters generalizing m with
  | nil => exact ⟨le_refl m, by simp⟩
  | cons c counters ih =>
    obtain ⟨hstart, hrest⟩ := ih (max m c)
    have hcons : largest m (c :: counters) = largest (max m c) counters := rfl
    rw [hcons]
    refine ⟨by omega, ?_⟩
    intro d hd
    rcases List.mem_cons.mp hd with rfl | hd
    · omega
    · exact hrest d hd

/-- No more counters set a record than there are. -/
theorem records_le (m : ℕ) (counters : List ℕ) : records m counters ≤ counters.length := by
  induction counters generalizing m with
  | nil => exact le_refl 0
  | cons c counters ih =>
    rw [records, List.length_cons]
    have hafter := ih c
    have hkeep := ih m
    split
    · omega
    · omega

/-- All counters are records if and only if they increase. -/
theorem records_eq_length_iff (m : ℕ) (counters : List ℕ) :
    records m counters = counters.length ↔ List.IsChain (· < ·) (m :: counters) := by
  induction counters generalizing m with
  | nil => simp [records]
  | cons c counters ih =>
    rw [records, List.length_cons, List.isChain_cons_cons]
    by_cases h : m < c
    · rw [if_pos h, ← ih c]
      omega
    · have hle := records_le m counters
      rw [if_neg h]
      constructor
      · intro heq
        omega
      · intro hchain
        exact absurd hchain.1 h

/-- A run: the largest counter is kept, and every record pays for its own number. The
induction is on the datagrams, from any counter and any count of errors below it. -/
theorem receiveAll_counts {ios : List RcvIo} {sp : IperfStream} {m e : ℕ}
    (hreceived : ∀ io ∈ ios, 0 < io.received) (hp : ∀ io ∈ ios, io.pcount < 2 ^ 31)
    (hm : sp.packetCount = m) (he : sp.cntError = e) (hle : e ≤ m) (hlt : m < 2 ^ 31) :
    (receiveAll ios sp).packetCount = largest m (ios.map (·.pcount)) ∧
      (receiveAll ios sp).cntError + m + records m (ios.map (·.pcount)) =
        e + largest m (ios.map (·.pcount)) := by
  induction ios generalizing sp m e with
  | nil => exact ⟨hm, by simp [receiveAll, largest, records, he]⟩
  | cons io ios ih =>
    obtain ⟨hpackets, herrors⟩ := iperfUdpRecv_step (hreceived io List.mem_cons_self)
      (hp io List.mem_cons_self) hm he hle hlt
    have hpcount := hp io List.mem_cons_self
    have hlater : ∀ io' ∈ ios, 0 < io'.received := fun io' h =>
      hreceived io' (List.mem_cons_of_mem _ h)
    have hlaterCounts : ∀ io' ∈ ios, io'.pcount < 2 ^ 31 := fun io' h =>
      hp io' (List.mem_cons_of_mem _ h)
    have hrun : receiveAll (io :: ios) sp = receiveAll ios (iperfUdpRecv io sp).2 := rfl
    have hlargest : largest m ((io :: ios).map (·.pcount)) =
        largest (max m io.pcount) (ios.map (·.pcount)) := rfl
    rw [hrun, hlargest, List.map_cons, records]
    by_cases h : m < io.pcount
    · have hmax : max m io.pcount = io.pcount := by omega
      rw [if_pos h] at herrors ⊢
      rw [hmax]
      obtain ⟨hcount, hcharged⟩ := ih hlater hlaterCounts (by rw [hpackets, ← hmax]; omega)
        herrors (by omega) hpcount
      exact ⟨hcount, by omega⟩
    · have hmax : max m io.pcount = m := by omega
      rw [if_neg h] at herrors ⊢
      rw [hmax]
      exact ih hlater hlaterCounts (by rw [hpackets]; omega) herrors hle hlt

/-- Distinct counters leave out the rest of the numbers up to the largest. -/
theorem card_missing {counters : List ℕ} (hdistinct : counters.Nodup)
    (hpositive : ∀ c ∈ counters, 1 ≤ c) :
    (missing counters).card + counters.length = largest 0 counters := by
  have hsub : counters.toFinset ⊆ Finset.Icc 1 (largest 0 counters) := by
    intro c hc
    have hmem := List.mem_toFinset.mp hc
    exact Finset.mem_Icc.mpr ⟨hpositive c hmem, (le_largest 0 counters).2 c hmem⟩
  have hmissing : missing counters = Finset.Icc 1 (largest 0 counters) \ counters.toFinset := by
    ext c
    simp [missing]
  have hle := Finset.card_le_card hsub
  rw [List.toFinset_card_of_nodup hdistinct, Nat.card_Icc] at hle
  rw [hmissing, Finset.card_sdiff_of_subset hsub, List.toFinset_card_of_nodup hdistinct,
    Nat.card_Icc]
  omega

/-- Distinct datagrams on a fresh stream are counted right if and only if they arrive in the
order of their counters. -/
theorem receiveAll_counted_iff (ios : List RcvIo) (sp : IperfStream) (hm : sp.packetCount = 0)
    (he : sp.cntError = 0) (hreceived : ∀ io ∈ ios, 0 < io.received)
    (hdistinct : (ios.map (·.pcount)).Nodup)
    (hrange : ∀ io ∈ ios, 1 ≤ io.pcount ∧ io.pcount ≤ 2 ^ 31 - 1) :
    Counted (ios.map (·.pcount)) (receiveAll ios sp) ↔
      (ios.map (·.pcount)).Pairwise (· < ·) := by
  have hp : ∀ io ∈ ios, io.pcount < 2 ^ 31 := by
    intro io hio
    have hbound := (hrange io hio).2
    omega
  have hpositive : ∀ c ∈ ios.map (·.pcount), 1 ≤ c := by
    intro c hc
    obtain ⟨io, hio, rfl⟩ := List.mem_map.mp hc
    exact (hrange io hio).1
  obtain ⟨hpackets, hlost⟩ := @receiveAll_counts ios sp 0 0 hreceived hp (by rw [hm]; rfl)
    (by rw [he]; rfl) (le_refl 0) (by norm_num)
  have hmissing := card_missing hdistinct hpositive
  have hrecords := records_eq_length_iff 0 (ios.map (·.pcount))
  have hchain : List.IsChain (· < ·) (0 :: ios.map (·.pcount)) ↔
      (ios.map (·.pcount)).Pairwise (· < ·) := by
    rw [List.isChain_iff_pairwise, List.pairwise_cons]
    constructor
    · exact And.right
    · intro h
      exact ⟨fun c hc => hpositive c hc, h⟩
  rw [← hchain, ← hrecords]
  constructor
  · intro h
    have hcount := h.lost
    omega
  · intro h
    exact ⟨hpackets, by omega⟩

/-- Two datagrams in order. -/
theorem receiveAll_two_counted :
    Counted [1, 3] (receiveAll [⟨8, {}, 1, {}⟩, ⟨8, {}, 3, {}⟩] {}) ↔ [1, 3].Pairwise (· < ·) :=
  receiveAll_counted_iff [⟨8, {}, 1, {}⟩, ⟨8, {}, 3, {}⟩] {} rfl rfl (by decide) (by decide)
    (by decide)

/-- The same two datagrams the other way round, and the one between them: nothing is missing, and
two losses are charged. -/
theorem receiveAll_late_not_counted :
    ¬ Counted [3, 1, 2] (receiveAll [⟨8, {}, 3, {}⟩, ⟨8, {}, 1, {}⟩, ⟨8, {}, 2, {}⟩] {}) := by
  intro h
  have hlost := h.lost
  have hcharged :
      (receiveAll [⟨8, {}, 3, {}⟩, ⟨8, {}, 1, {}⟩, ⟨8, {}, 2, {}⟩] {}).cntError = 2 := by
    decide +kernel
  have hnone : (missing [3, 1, 2]).card = 0 := by decide
  omega

end IperfRuntime.DatagramCounting
