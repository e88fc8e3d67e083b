import IperfRuntime.SendAttempts
import IperfRuntime.TcpSends

/-!
# Zero-copy sending

One call of `iperf_send` with `Nsendfile` against the same call with `Nwrite`, while the
kernel gives the same answers: the bytes it accepts for a stream in a round, and `EAGAIN`
behind them. A socket that is full from the start is a block of no bytes for `Nwrite` and a
soft error for `Nsendfile`. A kernel that would answer the two calls differently is not
compared.
-/

namespace IperfRuntime.ZeroCopy

open ClockReading TestState ListLoop SocketIo StreamTraffic SendLimits SendAttempts TcpSends

/-- The kernel accepts some bytes until the socket is full. -/
def fullScript (chunks : List ℕ) : BlockScript :=
  ⟨chunks.map .data ++ [.interrupted], chunks.map .data ++ [.interrupted]⟩

/-- The call behind `test->protocol->send`: datagrams are always written. -/
def blockWrite (test : IperfTest) (script : BlockScript) : NetWrite :=
  if test.protocol == .udp then nwrite script.writes test.settings.blksize.toNat
  else tcpWrite test script

/-- What the system does for `iperf_send` when the kernel accepts the given bytes by round and
stream. -/
def kernelEnv (env : SendEnv) (chunks : ℕ → ℕ → List ℕ) (test : IperfTest) : SendEnv :=
  { env with io := fun round i =>
    ⟨(env.io round i).fileRead, (value (blockWrite test (fullScript (chunks round i)))).getD 0⟩ }

/-- The test with `-Z` or without. -/
def withZerocopy (zerocopy : Bool) (test : IperfTest) : IperfTest :=
  { test with zerocopy := zerocopy }

/-- A call of `iperf_send` with `Nsendfile` or with `Nwrite`. -/
def sendWith (zerocopy : Bool) (env : SendEnv) (chunks : ℕ → ℕ → List ℕ)
    (writeSetP : Option (Finset ℤ)) (test : IperfTest) : SendResult :=
  iperfSend (kernelEnv env chunks (withZerocopy zerocopy test)) writeSetP
    (withZerocopy zerocopy test)

/-- Its attempts. -/
def attemptsWith (zerocopy : Bool) (env : SendEnv) (chunks : ℕ → ℕ → List ℕ)
    (writeSetP : Option (Finset ℤ)) (test : IperfTest) : List SendAttempt :=
  sendAttempts (kernelEnv env chunks (withZerocopy zerocopy test)) writeSetP
    (withZerocopy zerocopy test)

/-- Both calls attempt the same streams in the same order and leave the same counters. -/
structure Agree (env : SendEnv) (chunks : ℕ → ℕ → List ℕ) (writeSetP : Option (Finset ℤ))
    (test : IperfTest) : Prop where
  attempts : (attemptsWith true env chunks writeSetP test).map (·.position) =
    (attemptsWith false env chunks writeSetP test).map (·.position)
  bytes : (sendWith true env chunks writeSetP test).test.bytesSent =
    (sendWith false env chunks writeSetP test).test.bytesSent
  blocks : (sendWith true env chunks writeSetP test).test.blocksSent =
    (sendWith false env chunks writeSetP test).test.blocksSent
  streams : (sendWith true env chunks writeSetP test).test.streams =
    (sendWith false env chunks writeSetP test).test.streams

/-- An attempt of a TCP sender to write a block finds the socket full. -/
structure FindsFull (env : SendEnv) (chunks : ℕ → ℕ → List ℕ) (test : IperfTest)
    (a : SendAttempt) : Prop where
  stream : test.protocol ≠ .udp
  block : 0 < test.settings.blksize
  file : a.test.diskfileName.isSome = true → (env.io a.round a.position).fileRead ≠ 0
  full : chunks a.round a.position = []

section Congruence

variable {env : SendEnv} {writeSetP : Option (Finset ℤ)}

/-- A round only depends on the results of its own attempts, so two environments that agree on
these do the same. -/
theorem loop_congr {io : ℕ → ℕ → SndIo} {round multisend : ℕ} {now : Timeval} {s : SendState}
    {streams : List IperfStream}
    (h : ∀ a ∈ loopAttempts env writeSetP round multisend now 0 s streams,
      snd a.test (io a.round a.position) a.stream =
        snd a.test (env.io a.round a.position) a.stream) :
    forEach (sendBody { env with io := io } writeSetP round multisend now) 0 s streams =
        forEach (sendBody env writeSetP round multisend now) 0 s streams ∧
      loopAttempts { env with io := io } writeSetP round multisend now 0 s streams =
        loopAttempts env writeSetP round multisend now 0 s streams := by
  have hbody : ∀ v ∈ visited (sendBody env writeSetP round multisend now) 0 s streams,
      sendBody { env with io := io } writeSetP round multisend now v.1 v.2.1 v.2.2 =
        sendBody env writeSetP round multisend now v.1 v.2.1 v.2.2 := by
    rintro ⟨i, s', sp⟩ hv
    unfold sendBody
    dsimp only
    split
    · rename_i hmay
      have hsame := h ⟨round, i, s'.test, sp⟩
        (List.mem_filterMap.mpr ⟨_, hv, by unfold attemptOf; exact if_pos hmay⟩)
      dsimp only at hsame
      rw [hsame]
      rfl
    · rfl
  obtain ⟨hloop, hvisited⟩ := forEach_congr hbody
  refine ⟨hloop, ?_⟩
  unfold loopAttempts
  rw [hvisited]

/-- So do the rounds of a call. -/
theorem rounds_congr {io : ℕ → ℕ → SndIo} {multisend round : ℕ} {now : Timeval} {s : SendState}
    {streams : List IperfStream}
    (h : ∀ a ∈ roundsAttempts env writeSetP multisend round now s streams,
      snd a.test (io a.round a.position) a.stream =
        snd a.test (env.io a.round a.position) a.stream) :
    sendRounds { env with io := io } writeSetP multisend round now s streams =
        sendRounds env writeSetP multisend round now s streams ∧
      roundsAttempts { env with io := io } writeSetP multisend round now s streams =
        roundsAttempts env writeSetP multisend round now s streams := by
  induction multisend generalizing round now s streams with
  | zero => exact ⟨rfl, rfl⟩
  | succ multisend ih =>
    rw [roundsAttempts] at h
    rw [sendRounds, sendRounds, roundsAttempts, roundsAttempts]
    dsimp only at h ⊢
    generalize (if s.test.settings.rate ≠ 0 ∧ s.test.settings.burst = 0 then env.clock round
      else now) = roundNow at h ⊢
    obtain ⟨hloop, hattempts⟩ := loop_congr fun a ha => h a (List.mem_append_left _ ha)
    rw [hloop, hattempts]
    split
    · exact ⟨rfl, rfl⟩
    · rename_i hover
      rw [if_neg hover] at h
      obtain ⟨hrounds, hmore⟩ := ih fun a ha => h a (List.mem_append_right _ ha)
      exact ⟨hrounds, by rw [hmore]⟩

/-- Calls whose attempts come to the same are the same. -/
theorem iperfSend_congr {io : ℕ → ℕ → SndIo} {test : IperfTest}
    (h : ∀ a ∈ sendAttempts env writeSetP test,
      snd a.test (io a.round a.position) a.stream =
        snd a.test (env.io a.round a.position) a.stream) :
    iperfSend { env with io := io } writeSetP test = iperfSend env writeSetP test ∧
      sendAttempts { env with io := io } writeSetP test = sendAttempts env writeSetP test := by
  obtain ⟨hrounds, hattempts⟩ := rounds_congr h
  refine ⟨?_, hattempts⟩
  unfold iperfSend
  rw [hrounds]
  rfl

end Congruence

section Flag

variable (zerocopy : Bool) (env : SendEnv) (writeSetP : Option (Finset ℤ))

/-- The loops do not look at the flag. -/
def flagged (s : SendState) : SendState := { s with test := withZerocopy zerocopy s.test }

/-- The check of the rate ignores the flag for zero copies. -/
theorem checkThrottle_flag (convert : PrintfText.Dbl → ℕ) (now : Timeval) (test : IperfTest)
    (sp : IperfStream) :
    iperfCheckThrottle convert now (withZerocopy zerocopy test) sp =
      (withZerocopy zerocopy (iperfCheckThrottle convert now test sp).1,
        (iperfCheckThrottle convert now test sp).2) := by
  unfold iperfCheckThrottle withZerocopy
  dsimp only
  split_ifs
  · rfl
  · rfl
  · rfl

/-- So does the check after a send. -/
theorem checkAfterSend_flag (now : Timeval) (s : SendState) (sp : IperfStream) :
    checkAfterSend env now (flagged zerocopy s) sp =
      (flagged zerocopy (checkAfterSend env now s sp).1, (checkAfterSend env now s sp).2) := by
  have hsettings : (flagged zerocopy s).test.settings = s.test.settings := rfl
  have hcheck := checkThrottle_flag zerocopy env.convert now s.test sp
  unfold checkAfterSend
  rw [hsettings]
  split
  · show ({ flagged zerocopy s with
        test := (iperfCheckThrottle env.convert now (withZerocopy zerocopy s.test) sp).1
        events := s.events ++ [SendEvent.check sp now] },
      (iperfCheckThrottle env.convert now (withZerocopy zerocopy s.test) sp).2) = _
    rw [hcheck]
    rfl
  · rfl

/-- An attempt ignores it but for the system call. -/
theorem sendBody_flag (round multisend : ℕ) (now : Timeval) (i : ℕ) (s : SendState)
    (sp : IperfStream) :
    sendBody env writeSetP round multisend now i (flagged zerocopy s) sp =
      (flagged zerocopy (sendBody env writeSetP round multisend now i s sp).1,
        (sendBody env writeSetP round multisend now i s sp).2.1,
        (sendBody env writeSetP round multisend now i s sp).2.2) := by
  have hmay : maySend (flagged zerocopy s).test writeSetP sp = maySend s.test writeSetP sp := rfl
  have hsnd : snd (flagged zerocopy s).test (env.io round i) sp = snd s.test (env.io round i) sp :=
    rfl
  unfold sendBody
  rw [hmay, hsnd]
  split
  · dsimp only
    split
    · rfl
    · have hafter : afterSnd (flagged zerocopy s) sp (snd s.test (env.io round i) sp).1
          (snd s.test (env.io round i) sp).2.2 =
          flagged zerocopy (afterSnd s sp (snd s.test (env.io round i) sp).1
            (snd s.test (env.io round i) sp).2.2) := rfl
      rw [hafter, checkAfterSend_flag]
      rfl
  · rfl

/-- So do the rounds of a call, by induction on the rounds: the flag is carried along and
never looked at. -/
theorem rounds_flag (multisend round : ℕ) (now : Timeval) (s : SendState)
    (streams : List IperfStream) :
    sendRounds env writeSetP multisend round now (flagged zerocopy s) streams =
        (flagged zerocopy (sendRounds env writeSetP multisend round now s streams).1,
          (sendRounds env writeSetP multisend round now s streams).2) ∧
      roundsAttempts env writeSetP multisend round now (flagged zerocopy s) streams =
        (roundsAttempts env writeSetP multisend round now s streams).map fun a =>
          { a with test := withZerocopy zerocopy a.test } := by
  induction multisend generalizing round now s streams with
  | zero => exact ⟨rfl, rfl⟩
  | succ multisend ih =>
    rw [sendRounds, sendRounds, roundsAttempts, roundsAttempts]
    have hnow : (if (flagged zerocopy s).test.settings.rate ≠ 0 ∧
        (flagged zerocopy s).test.settings.burst = 0 then env.clock round else now) =
        if s.test.settings.rate ≠ 0 ∧ s.test.settings.burst = 0 then env.clock round else now := rfl
    rw [hnow]
    generalize (if s.test.settings.rate ≠ 0 ∧ s.test.settings.burst = 0 then env.clock round
      else now) = roundNow
    obtain ⟨hloop, hvisited⟩ := forEach_map (flagged zerocopy)
      (sendBody_flag zerocopy env writeSetP round (multisend + 1) roundNow) 0
      { s with streamsActive := false } streams
    have hidle : { flagged zerocopy s with streamsActive := false } =
        flagged zerocopy { s with streamsActive := false } := rfl
    have hattempts : loopAttempts env writeSetP round (multisend + 1) roundNow 0
        (flagged zerocopy { s with streamsActive := false }) streams =
        (loopAttempts env writeSetP round (multisend + 1) roundNow 0
          { s with streamsActive := false } streams).map fun a =>
            { a with test := withZerocopy zerocopy a.test } := by
      unfold loopAttempts
      rw [hvisited, List.filterMap_map, List.map_filterMap]
      refine List.filterMap_congr fun v _ => ?_
      unfold attemptOf
      dsimp only [Function.comp_apply]
      have hmay : maySend (flagged zerocopy v.2.1).test writeSetP v.2.2 =
          maySend v.2.1.test writeSetP v.2.2 := rfl
      rw [hmay]
      split
      · rfl
      · rfl
    rw [hidle, hloop, hattempts, List.map_append]
    generalize forEach (sendBody env writeSetP round (multisend + 1) roundNow) 0
      { s with streamsActive := false } streams = r
    have hover : ((flagged zerocopy r.1).failure.isSome || !(flagged zerocopy r.1).streamsActive) =
        (r.1.failure.isSome || !r.1.streamsActive) := rfl
    obtain ⟨hrounds, hmore⟩ := ih (round + 1) roundNow r.1 r.2
    dsimp only
    rw [hover, hrounds, hmore]
    split
    · exact ⟨rfl, rfl⟩
    · exact ⟨rfl, rfl⟩

/-- So does the burst. -/
theorem burstBody_flag (i : ℕ) (s : SendState) (sp : IperfStream) :
    burstBody env i (flagged zerocopy s) sp =
      (flagged zerocopy (burstBody env i s sp).1, (burstBody env i s sp).2.1,
        (burstBody env i s sp).2.2) := by
  have hcheck := checkThrottle_flag zerocopy env.convert env.endClock s.test sp
  unfold burstBody flagged
  dsimp only
  rw [hcheck]

/-- `iperf_send` does not look at the flag itself: the attempts are the same, each on a test
with the flag. -/
theorem iperfSend_flag (test : IperfTest) :
    (iperfSend env writeSetP (withZerocopy zerocopy test)).test =
        withZerocopy zerocopy (iperfSend env writeSetP test).test ∧
      sendAttempts env writeSetP (withZerocopy zerocopy test) =
        (sendAttempts env writeSetP test).map fun a =>
          { a with test := withZerocopy zerocopy a.test } := by
  obtain ⟨hrounds, hattempts⟩ := rounds_flag zerocopy env writeSetP (multisendOf test) 0 {}
    { test := test } test.streams
  have hstart : ({ test := withZerocopy zerocopy test } : SendState) =
      flagged zerocopy { test := test } := rfl
  have hcalls : multisendOf (withZerocopy zerocopy test) = multisendOf test := rfl
  have hstreams : (withZerocopy zerocopy test).streams = test.streams := rfl
  refine ⟨?_, hattempts⟩
  unfold iperfSend
  rw [hstart, hcalls, hstreams, hrounds]
  generalize sendRounds env writeSetP (multisendOf test) 0 {} { test := test } test.streams = r
  have hfailure : (flagged zerocopy r.1).failure = r.1.failure := rfl
  have hburst : (withZerocopy zerocopy test).settings = test.settings := rfl
  dsimp only
  rw [hfailure, hburst]
  cases r.1.failure with
  | some rc => rfl
  | none =>
    dsimp only
    split
    · obtain ⟨hloop, -⟩ := forEach_map (flagged zerocopy) (burstBody_flag zerocopy env) 0 r.1 r.2
      rw [hloop]
      rfl
    · rfl

end Flag

section Values

variable (env : SendEnv) (chunks : ℕ → ℕ → List ℕ) (test : IperfTest)

/-- What `Nwrite` and `Nsendfile` return for a block that the socket takes some of is the same
number. -/
theorem blockWrite_value (zerocopy : Bool) (script : List ℕ)
    (h : zerocopy = true → test.protocol ≠ .udp → 0 < test.settings.blksize → script ≠ []) :
    value (blockWrite (withZerocopy zerocopy test) (fullScript script)) =
      some ((min (chunkBytes script) test.settings.blksize.toNat : ℕ) : ℤ) := by
  have hwrite : value (nwrite (fullScript script).writes test.settings.blksize.toNat) =
      some ((min (chunkBytes script) test.settings.blksize.toNat : ℕ) : ℤ) := by
    unfold nwrite fullScript
    rw [nwriteLoop_data]
    split
    · rename_i hpart
      obtain ⟨n, hn⟩ : ∃ n, test.settings.blksize.toNat - chunkBytes script = n + 1 :=
        ⟨test.settings.blksize.toNat - chunkBytes script - 1, by omega⟩
      rw [hn, Nat.zero_add, min_eq_left hpart.le]
      rfl
    · rename_i hwhole
      rw [Nat.zero_add, min_eq_right (not_lt.mp hwhole)]
      rfl
  unfold blockWrite tcpWrite
  split
  · exact hwrite
  · rename_i hudp
    cases zerocopy with
    | false => exact hwrite
    | true =>
      have hstream : test.protocol ≠ .udp := fun he => hudp (beq_iff_eq.mpr he)
      show value (nsendfile (fullScript script).sendfiles test.settings.blksize.toNat) = _
      unfold nsendfile fullScript
      rw [nsendfileLoop_data]
      split
      · rename_i hpart
        have hpos : 0 < test.settings.blksize := by omega
        have hsome := chunkBytes_pos (h rfl hstream hpos)
        obtain ⟨n, hn⟩ : ∃ n, test.settings.blksize.toNat - chunkBytes script = n + 1 :=
          ⟨test.settings.blksize.toNat - chunkBytes script - 1, by omega⟩
        rw [hn, Nat.zero_add, min_eq_left hpart.le]
        unfold nsendfileLoop
        rw [if_neg (by omega)]
        rfl
      · rename_i hwhole
        rw [Nat.zero_add, min_eq_right (not_lt.mp hwhole)]
        rfl

/-- A socket that is full from the start is a soft error for `Nsendfile`. -/
theorem blockWrite_full (hstream : test.protocol ≠ .udp) (hblock : 0 < test.settings.blksize) :
    value (blockWrite (withZerocopy true test) (fullScript [])) = some netSofterror := by
  obtain ⟨n, hn⟩ : ∃ n, test.settings.blksize.toNat = n + 1 :=
    ⟨test.settings.blksize.toNat - 1, by omega⟩
  have hudp : ¬((withZerocopy true test).protocol == .udp) = true :=
    fun he => hstream (beq_iff_eq.mp he)
  unfold blockWrite tcpWrite
  rw [if_neg hudp]
  show value (nsendfile (fullScript []).sendfiles test.settings.blksize.toNat) = _
  rw [hn]
  rfl

/-- The environment with `Nwrite`. -/
abbrev plainEnv : SendEnv := kernelEnv env chunks (withZerocopy false test)

/-- The environment with `Nsendfile`. -/
abbrev zeroEnv : SendEnv := kernelEnv env chunks (withZerocopy true test)

/-- Without zero copies every attempt counts its bytes. -/
theorem plain_counted (a : SendAttempt) :
    (counted (a.result (plainEnv env chunks test))).isSome = true := by
  have hvalue := blockWrite_value test false (chunks a.round a.position) (by simp)
  have hnonneg : ¬ a.result (plainEnv env chunks test) < 0 := by
    unfold SendAttempt.result sndResult plainEnv kernelEnv
    dsimp only
    split
    · exact lt_irrefl 0
    · rw [hvalue, Option.getD_some, not_lt]
      exact Int.natCast_nonneg _
  unfold counted
  rw [if_neg hnonneg]
  rfl

/-- Where the socket is not found full, both come to the same. -/
theorem snd_same {a : SendAttempt} (h : ¬ FindsFull env chunks test a) :
    snd a.test ((zeroEnv env chunks test).io a.round a.position) a.stream =
      snd a.test ((plainEnv env chunks test).io a.round a.position) a.stream := by
  by_cases hfile : (a.test.diskfileName.isSome && (env.io a.round a.position).fileRead == 0) = true
  · unfold snd zeroEnv plainEnv kernelEnv
    dsimp only
    rw [if_pos hfile, if_pos hfile]
  · have hzero := blockWrite_value test true (chunks a.round a.position) <| by
      intro _ hstream hblock hfull
      refine h ⟨hstream, hblock, ?_, hfull⟩
      intro hdisk hread
      rw [hdisk, hread] at hfile
      exact hfile rfl
    have hplain := blockWrite_value test false (chunks a.round a.position) (by simp)
    unfold zeroEnv plainEnv kernelEnv
    dsimp only
    rw [hzero, hplain]

/-- With zero copies an attempt that finds the buffer full counts none. -/
theorem full_not_counted {a : SendAttempt} (h : FindsFull env chunks test a) :
    counted (a.result (zeroEnv env chunks test)) = none := by
  have hfile :
      ¬(a.test.diskfileName.isSome && (env.io a.round a.position).fileRead == 0) = true := by
    intro hboth
    obtain ⟨hdisk, hread⟩ := Bool.and_eq_true_iff.mp hboth
    exact h.file hdisk (beq_iff_eq.mp hread)
  unfold counted SendAttempt.result sndResult zeroEnv kernelEnv
  dsimp only
  rw [if_neg hfile, h.full, blockWrite_full test h.stream h.block]
  rfl

end Values

/-- The blocks of a call. -/
theorem iperfSend_blocks (env : SendEnv) (writeSetP : Option (Finset ℤ)) (test : IperfTest) :
    (iperfSend env writeSetP test).test.blocksSent =
      test.blocksSent + (sendResults env writeSetP test).length := by
  have hcounters := iperfSend_counters env writeSetP test
  rw [foldl_advance] at hcounters
  exact congrArg Counters.blocks hcounters

/-- The two calls agree exactly when no attempt of the plain one finds its socket full, as
that is the one answer which the two routines report differently. -/
theorem zerocopy_agree_iff (env : SendEnv) (chunks : ℕ → ℕ → List ℕ)
    (writeSetP : Option (Finset ℤ)) (test : IperfTest) :
    Agree env chunks writeSetP test ↔
      ∀ a ∈ attemptsWith false env chunks writeSetP test, ¬ FindsFull env chunks test a := by
  obtain ⟨htrue, hattemptsTrue⟩ := iperfSend_flag true (zeroEnv env chunks test) writeSetP test
  obtain ⟨hfalse, hattemptsFalse⟩ := iperfSend_flag false (plainEnv env chunks test) writeSetP test
  have hsame : (∀ a ∈ sendAttempts (plainEnv env chunks test) writeSetP test,
      ¬ FindsFull env chunks test a) →
      iperfSend (zeroEnv env chunks test) writeSetP test =
          iperfSend (plainEnv env chunks test) writeSetP test ∧
        sendAttempts (zeroEnv env chunks test) writeSetP test =
          sendAttempts (plainEnv env chunks test) writeSetP test := by
    intro hnone
    exact iperfSend_congr fun a ha => snd_same env chunks test (hnone a ha)
  have hsame' : (∀ a ∈ sendAttempts (zeroEnv env chunks test) writeSetP test,
      ¬ FindsFull env chunks test a) →
        sendAttempts (plainEnv env chunks test) writeSetP test =
          sendAttempts (zeroEnv env chunks test) writeSetP test := by
    intro hnone
    exact (iperfSend_congr fun a ha => (snd_same env chunks test (hnone a ha)).symm).2
  unfold attemptsWith
  rw [hattemptsFalse]
  constructor
  · intro hagree
    have hpositions := hagree.attempts
    have hblocks := hagree.blocks
    unfold attemptsWith at hpositions
    unfold sendWith at hblocks
    rw [hattemptsTrue, hattemptsFalse, List.map_map, List.map_map] at hpositions
    rw [htrue, hfalse] at hblocks
    dsimp only [withZerocopy] at hblocks
    rw [iperfSend_blocks, iperfSend_blocks, Nat.add_left_cancel_iff] at hblocks
    have hlengths := congrArg List.length hpositions
    rw [List.length_map, List.length_map] at hlengths
    have hplain : (sendResults (plainEnv env chunks test) writeSetP test).length =
        (sendAttempts (plainEnv env chunks test) writeSetP test).length :=
      List.filterMap_length_eq_length.mpr fun a _ => plain_counted env chunks test a
    have hall : (sendResults (zeroEnv env chunks test) writeSetP test).length =
        (sendAttempts (zeroEnv env chunks test) writeSetP test).length := by
      rw [hblocks, hplain, hlengths]
    have hzero : ∀ a ∈ sendAttempts (zeroEnv env chunks test) writeSetP test,
        ¬ FindsFull env chunks test a := by
      intro a ha hfull
      have hcounted := List.filterMap_length_eq_length.mp hall a ha
      rw [full_not_counted env chunks test hfull] at hcounted
      cases hcounted
    intro a ha hfull
    obtain ⟨a', ha', rfl⟩ := List.mem_map.mp ha
    rw [hsame' hzero] at ha'
    exact hzero a' ha' ⟨hfull.stream, hfull.block, hfull.file, hfull.full⟩
  · intro hnone
    obtain ⟨hsend, hattempts⟩ := hsame fun a ha hfull =>
      hnone _ (List.mem_map_of_mem ha) ⟨hfull.stream, hfull.block, hfull.file, hfull.full⟩
    refine ⟨?_, ?_, ?_, ?_⟩
    · unfold attemptsWith
      rw [hattemptsTrue, hattemptsFalse, hattempts, List.map_map, List.map_map]
      rfl
    · unfold sendWith
      rw [htrue, hfalse, hsend]
      rfl
    · unfold sendWith
      rw [htrue, hfalse, hsend]
      rfl
    · unfold sendWith
      rw [htrue, hfalse, hsend]
      rfl

/-- Two TCP streams with blocks of a thousand bytes. -/
def twoStreams : IperfTest :=
  { multisend := 10, settings := { blksize := 1000 },
    streams := [{ id := 1, socket := 5 }, { id := 3, socket := 6 }] }

/-- Nothing but the sockets plays a part. -/
def idleEnv : SendEnv :=
  { io := fun _ _ => ⟨0, 0⟩, clock := fun _ => {}, endClock := {}, convert := fun _ => 0 }

/-- The first socket is full: `Nwrite` goes on to the second stream, `Nsendfile` ends the
round before it. -/
theorem twoStreams_not_agree :
    ¬∀ (env : SendEnv) (chunks : ℕ → ℕ → List ℕ) (writeSetP : Option (Finset ℤ))
      (test : IperfTest), Agree env chunks writeSetP test := by
  intro hall
  have hagree := hall idleEnv (fun _ i => if i = 0 then [] else [999]) none twoStreams
  exact absurd hagree.blocks (by decide)

end IperfRuntime.ZeroCopy
