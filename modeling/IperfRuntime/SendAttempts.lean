import IperfRuntime.SendLimits

/-!
# The attempts of a call

`iperf_send` and `iperf_recv` stream by stream: the streams that a call comes to, in which
round, and what each attempt returns. The counters of the test move by the results and by
nothing else. The time that a call takes is not modelled beside the clock readings it makes.
-/

namespace IperfRuntime.SendAttempts

open ClockReading TestState ListLoop StreamTraffic SendLimits

/-- The result that `iperf_send` and `iperf_recv` add to their counters. -/
def counted (r : ℤ) : Option ℕ := if r < 0 then none else some r.toNat

/-- The results that a call of `iperf_send` counts. -/
def sendResults (env : SendEnv) (writeSetP : Option (Finset ℤ)) (test : IperfTest) : List ℕ :=
  (sendAttempts env writeSetP test).filterMap fun a => counted (a.result env)

/-- The results that a call of `iperf_recv` counts. -/
def recvResults (io : ℕ → RcvIo) (readSetP : Finset ℤ) (test : IperfTest) : List ℕ :=
  (visited (recvBody io) 0 { test := test, readSetP := readSetP } test.streams).filterMap fun v =>
    if v.2.2.socket ∈ v.2.1.readSetP then counted (io v.1).received else none

/-- Blocks one after the other. -/
theorem foldl_advance (results : List ℕ) (c : Counters) :
    results.foldl Counters.advance c = ⟨c.bytes + results.sum, c.blocks + results.length⟩ := by
  induction results generalizing c with
  | nil => rfl
  | cons r rest ih =>
    rw [List.foldl_cons, ih, List.sum_cons, List.length_cons]
    unfold Counters.advance
    rw [Nat.add_assoc, Nat.add_assoc, Nat.add_comm 1]

/-- One stream of `iperf_send` moves the counters by its result. -/
theorem sendBody_counters (env : SendEnv) (writeSetP : Option (Finset ℤ)) (round multisend : ℕ)
    (now : Timeval) (i : ℕ) (s : SendState) (sp : IperfStream) :
    countersOf (sendBody env writeSetP round multisend now i s sp).1.test =
      (((attemptOf writeSetP round (i, s, sp)).bind fun a => counted (a.result env)).toList).foldl
        Counters.advance (countersOf s.test) := by
  unfold attemptOf
  dsimp only
  by_cases hmay : maySend s.test writeSetP sp = true
  · have hspec := sendBody_spec env writeSetP round multisend now i s hmay
    rw [if_pos hmay]
    dsimp only [Option.bind_some, SendAttempt.result]
    unfold outcomeOf at hspec
    unfold counted
    by_cases hneg : sndResult s.test (env.io round i) < 0
    · rw [if_pos hneg] at hspec ⊢
      split at hspec
      · exact hspec.1
      · exact hspec.1
    · rw [if_neg hneg] at hspec ⊢
      exact hspec.1
  · unfold sendBody
    rw [if_neg hmay, if_neg hmay]
    rfl

/-- A round counts the results of its attempts. -/
theorem loop_counters (env : SendEnv) (writeSetP : Option (Finset ℤ)) (round multisend : ℕ)
    (now : Timeval) (s : SendState) (streams : List IperfStream) :
    countersOf (forEach (sendBody env writeSetP round multisend now) 0 s streams).1.test =
      ((loopAttempts env writeSetP round multisend now 0 s streams).filterMap
        fun a => counted (a.result env)).foldl Counters.advance (countersOf s.test) := by
  unfold loopAttempts
  rw [List.filterMap_filterMap, List.filterMap_eq_flatMap_toList]
  exact forEach_foldl (fun s : SendState => countersOf s.test)
    (fun v => ((attemptOf writeSetP round v).bind fun a => counted (a.result env)).toList)
    (sendBody_counters env writeSetP round multisend now) 0 s streams

/-- So do the rounds of a call. -/
theorem rounds_counters (env : SendEnv) (writeSetP : Option (Finset ℤ)) (multisend round : ℕ)
    (now : Timeval) (s : SendState) (streams : List IperfStream) :
    countersOf (sendRounds env writeSetP multisend round now s streams).1.test =
      ((roundsAttempts env writeSetP multisend round now s streams).filterMap
        fun a => counted (a.result env)).foldl Counters.advance (countersOf s.test) := by
  induction multisend generalizing round now s streams with
  | zero => rfl
  | succ multisend ih =>
    rw [sendRounds, roundsAttempts]
    generalize (if s.test.settings.rate ≠ 0 ∧ s.test.settings.burst = 0 then env.clock round
      else now) = roundNow
    have hloop := loop_counters env writeSetP round (multisend + 1) roundNow
      { s with streamsActive := false } streams
    rw [List.filterMap_append, List.foldl_append, ← hloop]
    split
    · rfl
    · exact ih _ _ _ _

/-- The throttle in the closing loop of a burst leaves the counters alone. -/
theorem burstBody_counters (env : SendEnv) (i : ℕ) (s : SendState) (sp : IperfStream) :
    countersOf (burstBody env i s sp).1.test = countersOf s.test := by
  unfold burstBody iperfCheckThrottle
  dsimp only
  split_ifs
  · rfl
  · rfl
  · rfl

/-- A call of `iperf_send` moves the counters by its results. -/
theorem iperfSend_counters (env : SendEnv) (writeSetP : Option (Finset ℤ)) (test : IperfTest) :
    countersOf (iperfSend env writeSetP test).test =
      (sendResults env writeSetP test).foldl Counters.advance (countersOf test) := by
  have hrounds := rounds_counters env writeSetP (multisendOf test) 0 {} { test := test }
    test.streams
  unfold iperfSend
  dsimp only
  split
  · exact hrounds
  · split
    · refine Eq.trans ?_ hrounds
      refine forEach_state (fun s : SendState => countersOf s.test = _) ?_ 0 _ _ rfl
      intro i s sp h
      exact (burstBody_counters env i s sp).trans h
    · exact hrounds

/-- A receive returns what its system call does. -/
theorem rcv_result (test : IperfTest) (io : RcvIo) (sp : IperfStream) :
    (rcv test io sp).1 = io.received := by
  obtain ⟨-, heq⟩ | heq | heq := rcv_cases test io sp
  · rw [heq]
  · rw [heq]
  · rw [heq]

/-- In a round of receives a stream counts its result exactly if its socket is ready. -/
theorem recvBody_counters (io : ℕ → RcvIo) (i : ℕ) (s : RecvState) (sp : IperfStream) :
    countersOf (recvBody io i s sp).1.test =
      ((if sp.socket ∈ s.readSetP then counted (io i).received else none).toList).foldl
        Counters.advance (countersOf s.test) := by
  unfold recvBody counted
  by_cases hset : sp.socket ∈ s.readSetP
  · rw [if_pos hset, if_pos hset]
    dsimp only
    rw [rcv_result]
    split
    · rfl
    · rfl
  · rw [if_neg hset, if_neg hset]
    rfl

/-- So does a call of `iperf_recv`. -/
theorem iperfRecv_counters (io : ℕ → RcvIo) (readSetP : Finset ℤ) (test : IperfTest) :
    countersOf (iperfRecv io readSetP test).2.1 =
      (recvResults io readSetP test).foldl Counters.advance (countersOf test) := by
  unfold recvResults
  rw [List.filterMap_eq_flatMap_toList]
  exact forEach_foldl (fun s : RecvState => countersOf s.test)
    (fun v => (if v.2.2.socket ∈ v.2.1.readSetP then counted (io v.1).received else none).toList)
    (recvBody_counters io) 0 _ test.streams

end IperfRuntime.SendAttempts
