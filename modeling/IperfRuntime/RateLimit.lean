import IperfRuntime.ClientTimers
import IperfRuntime.EntryPoints
import IperfRuntime.StreamCreation

/-!
# The rate limit

What `iperf_send` and the throttle timers do to the streams of a client with a rate and
no burst. A stream that the throttle stopped has no green light and its socket is out
of the write set; this build's `iperf_send` looks at neither, because no entry point
sets `no_fq_socket_pacing`.
-/

namespace IperfRuntime.RateLimit

open ClockReading TimerQueue TestState PrintfText ListLoop EntryPoints StreamTraffic TrafficFrame
  IntervalStats StreamCreation ClientTimers

/-- An event that keeps to the limit: data goes out on a permitted stream only, and a
check behind the start finds the stream less than one block above the rate. -/
def Honoured (rate block : ℕ) (writeSetP : Option (Finset ℤ)) : SendEvent → Prop
  | .snd sp => sp.greenLight = true ∧ inWriteSet writeSetP sp.socket = true
  | .check sp now => sp.result.startTimeFixed.seconds < now.seconds →
    (sp.result.bytesSent * 8 : ℚ) <
      rate * timevalDiff sp.result.startTimeFixed now + block * 8

/-- A step of a sending client. -/
inductive ThrottleStep where
  /-- `iperf_send` with what `select` left of the write set. -/
  | send (env : SendEnv) (writeSetP : Option (Finset ℤ))
  /-- `send_timer_proc` for the stream at a position. -/
  | tick (convert : Dbl → ℕ) (now : Timeval) (stream : ℕ)

/-- The test after a step. -/
def throttleStep (test : IperfTest) : ThrottleStep → IperfTest
  | .send env writeSetP => (iperfSend env writeSetP test).test
  | .tick convert now stream => throttleStream convert now stream test

/-- What a step does to the streams. -/
def stepEvents (test : IperfTest) : ThrottleStep → List SendEvent
  | .send env writeSetP => (iperfSend env writeSetP test).events
  | .tick _ now stream => (test.streams[stream]?).toList.map fun sp => .check sp now

/-- The write set that a step goes by. -/
def stepWriteSet : ThrottleStep → Option (Finset ℤ)
  | .send _ writeSetP => writeSetP
  | .tick _ _ _ => none

/-- The clock reading of a step. -/
def stepClock : ThrottleStep → Timeval
  | .send env _ => env.clock 0
  | .tick _ now _ => now

/-- The conversion of a quotient by zero in a step. -/
def stepConvert : ThrottleStep → Dbl → ℕ
  | .send env _ => env.convert
  | .tick convert _ _ => convert

/-- Every event of every step keeps to the limit. -/
def RunHonoured (rate block : ℕ) : List ThrottleStep → IperfTest → Prop
  | [], _ => True
  | step :: rest, test =>
    (∀ e ∈ stepEvents test step, Honoured rate block (stepWriteSet step) e) ∧
      RunHonoured rate block rest (throttleStep test step)

/-- A call of `iperf_send` that finds the test running and all its streams permitted. -/
def StepOpen (test : IperfTest) : ThrottleStep → Prop
  | .send _ writeSetP => test.done = false ∧
    ∀ sp ∈ test.streams, sp.greenLight = true ∧ inWriteSet writeSetP sp.socket = true
  | .tick _ _ _ => True

instance (test : IperfTest) : (step : ThrottleStep) → Decidable (StepOpen test step)
  | .send _ writeSetP => inferInstanceAs (Decidable (test.done = false ∧
    ∀ sp ∈ test.streams, sp.greenLight = true ∧ inWriteSet writeSetP sp.socket = true))
  | .tick _ _ _ => inferInstanceAs (Decidable True)

/-- Every step of a run meets the condition in the state it finds. -/
def RunOpen : List ThrottleStep → IperfTest → Prop
  | [], _ => True
  | step :: rest, test => StepOpen test step ∧ RunOpen rest (throttleStep test step)

instance decidableRunOpen : (steps : List ThrottleStep) → (test : IperfTest) →
    Decidable (RunOpen steps test)
  | [], _ => inferInstanceAs (Decidable True)
  | step :: rest, test =>
    have := decidableRunOpen rest (throttleStep test step)
    inferInstanceAs (Decidable (StepOpen test step ∧ RunOpen rest (throttleStep test step)))

/-- Clock readings that never decrease. -/
def ClocksFrom (last : ℚ) : List ThrottleStep → Prop
  | [] => True
  | step :: rest => last ≤ (stepClock step).seconds ∧ ClocksFrom (stepClock step).seconds rest

/-- No write takes more than a block. -/
def WritesWithin (block : ℕ) : ThrottleStep → Prop
  | .send env _ => ∀ round i, (env.io round i).written ≤ block
  | .tick _ _ _ => True

/-- A check at the very start, with bytes sent, does not come out below the rate. -/
def StartsAbove (rate : ℕ) (start : Timeval) (step : ThrottleStep) : Prop :=
  start.seconds < (stepClock step).seconds ∨ rate ≤ stepConvert step .inf

/-- Less than one block above the rate, or in the first block. -/
def Within (rate block : ℕ) (elapsed : ℚ) (sp : IperfStream) : Prop :=
  (sp.result.bytesSent * 8 : ℚ) < rate * elapsed + block * 8 ∨ sp.result.bytesSent ≤ block

/-- Below the rate, or before the first byte. -/
def BelowRate (rate : ℕ) (elapsed : ℚ) (sp : IperfStream) : Prop :=
  (sp.result.bytesSent * 8 : ℚ) < rate * elapsed ∨ sp.result.bytesSent = 0

variable {rate block : ℕ} {elapsed later : ℚ} {sp sp' : IperfStream}

/-- A later time allows more. -/
theorem rate_mul_mono (h : elapsed ≤ later) : (rate : ℚ) * elapsed ≤ rate * later :=
  mul_le_mul_of_nonneg_left h (Nat.cast_nonneg rate)

/-- What is within the rate stays so as time passes. -/
theorem Within.mono (h : Within rate block elapsed sp) (hle : elapsed ≤ later) :
    Within rate block later sp := by
  have hrate : (rate : ℚ) * elapsed ≤ rate * later := rate_mul_mono hle
  rcases h with h | h
  · exact Or.inl (by linarith)
  · exact Or.inr h

/-- So does what is below it. -/
theorem BelowRate.mono (h : BelowRate rate elapsed sp) (hle : elapsed ≤ later) :
    BelowRate rate later sp := by
  have hrate : (rate : ℚ) * elapsed ≤ rate * later := rate_mul_mono hle
  rcases h with h | h
  · exact Or.inl (by linarith)
  · exact Or.inr h

/-- One block on top of a stream below the rate. -/
theorem BelowRate.send (h : BelowRate rate elapsed sp) {n : ℕ} (hn : n ≤ block)
    (hbytes : sp'.result.bytesSent = sp.result.bytesSent + n) :
    Within rate block elapsed sp' := by
  have hblock : (n : ℚ) ≤ block := by exact_mod_cast hn
  unfold Within
  rw [hbytes]
  rcases h with h | h
  · left
    push_cast
    linarith
  · right
    omega

/-- Behind the start the two cases of `Within` are one. -/
theorem Within.lt (h : Within rate block elapsed sp) (hrate : rate ≠ 0) (hpos : 0 < elapsed) :
    (sp.result.bytesSent * 8 : ℚ) < rate * elapsed + block * 8 := by
  rcases h with h | h
  · exact h
  · have hcast : (sp.result.bytesSent : ℚ) ≤ block := by exact_mod_cast h
    have hratePos : (0 : ℚ) < rate := by exact_mod_cast Nat.pos_of_ne_zero hrate
    have hprod : 0 < (rate : ℚ) * elapsed := mul_pos hratePos hpos
    linarith

/-- A stream of a metered test; a finished test no longer keeps its green lights up to
date. -/
structure Metered (start : Timeval) (rate block : ℕ) (last : ℚ) (done : Bool)
    (sp : IperfStream) : Prop where
  started : sp.result.startTimeFixed = start
  within : Within rate block (last - start.seconds) sp
  green : done = false → sp.greenLight = true → BelowRate rate (last - start.seconds) sp

variable {start : Timeval} {last : ℚ} {done done' : Bool}

/-- A metered stream stays metered as time passes. -/
theorem Metered.mono (h : Metered start rate block last done sp) {next : ℚ} (hle : last ≤ next)
    (hdone : done' = false → done = false) : Metered start rate block next done' sp where
  started := h.started
  within := h.within.mono (by linarith)
  green := by
    intro hnot hgreen
    exact (h.green (hdone hnot) hgreen).mono (by linarith)

/-- Only the bytes and the light of a stream count. -/
theorem Metered.congr (h : Metered start rate block last done sp)
    (hresult : sp'.result = sp.result) (hgreen : sp'.greenLight = sp.greenLight) :
    Metered start rate block last done sp' where
  started := by rw [hresult, h.started]
  within := by
    unfold Within
    rw [hresult]
    exact h.within
  green := by
    intro hdone hlight
    unfold BelowRate
    rw [hresult]
    rw [hgreen] at hlight
    exact h.green hdone hlight

/-- What `sp->snd` does to the bytes, the start and the light of a stream. -/
theorem snd_effect (test : IperfTest) (io : SndIo) (sp : IperfStream) :
    (snd test io sp).2.1.result.bytesSent =
        sp.result.bytesSent + (snd test io sp).1.toNat ∧
      (snd test io sp).2.1.result.startTimeFixed = sp.result.startTimeFixed ∧
      (snd test io sp).2.1.greenLight = sp.greenLight ∧
      ((snd test io sp).1 < 0 → (snd test io sp).2.1.result = sp.result) ∧
      ((snd test io sp).2.2 = false → test.done = false) := by
  obtain heq | ⟨n, -, ⟨hneg, heq⟩ | ⟨hpos, heq⟩⟩ := snd_cases test io sp
  · rw [heq]
    exact ⟨rfl, rfl, rfl, fun _ => rfl, fun h => absurd h (by simp)⟩
  · have hzero : io.written.toNat = 0 := by omega
    rw [heq]
    exact ⟨by simp [hzero], rfl, rfl, fun _ => rfl, id⟩
  · rw [heq]
    exact ⟨rfl, rfl, rfl, fun h => absurd h (not_lt.mpr hpos), id⟩

/-- A send transfers a block at most. -/
theorem snd_le (test : IperfTest) {io : SndIo} (sp : IperfStream) (h : io.written ≤ block) :
    (snd test io sp).1.toNat ≤ block := by
  obtain heq | ⟨n, -, ⟨-, heq⟩ | ⟨-, heq⟩⟩ := snd_cases test io sp
  · rw [heq]
    exact Nat.zero_le block
  · rw [heq]
    dsimp only
    omega
  · rw [heq]
    dsimp only
    omega

/-- A check gives the light only below the rate. Where no time has passed the quotient is an
infinity, and its conversion has to be no smaller than the rate. -/
theorem bitsPerSecond_lt {convert : Dbl → ℕ} {now : Timeval}
    (hle : start.seconds ≤ now.seconds) (hstart : sp.result.startTimeFixed = start)
    (hinf : start.seconds < now.seconds ∨ rate ≤ convert .inf)
    (h : bitsPerSecond convert sp now < rate) :
    BelowRate rate (now.seconds - start.seconds) sp := by
  have hdiff : timevalDiff start now = now.seconds - start.seconds := by
    rw [timevalDiff_eq_abs, abs_sub_comm, abs_of_nonneg (sub_nonneg.mpr hle)]
  by_cases hbytes : sp.result.bytesSent = 0
  · exact Or.inr hbytes
  · left
    unfold bitsPerSecond ratio at h
    rw [hstart, hdiff] at h
    by_cases hzero : now.seconds - start.seconds = 0
    · have hnot : ¬sp.result.bytesSent * 8 = 0 := by omega
      rw [if_pos hzero, if_neg hnot] at h
      dsimp only at h
      rcases hinf with hlt | hconvert
      · linarith
      · omega
    · rw [if_neg hzero] at h
      dsimp only at h
      have hpos : 0 < now.seconds - start.seconds :=
        lt_of_le_of_ne (sub_nonneg.mpr hle) (Ne.symm hzero)
      have hnonneg : (0 : ℚ) ≤ ((sp.result.bytesSent * 8 : ℕ) : ℚ) /
        (now.seconds - start.seconds) :=
        div_nonneg (Nat.cast_nonneg _) hpos.le
      have hfloor := (Nat.floor_lt hnonneg).mp h
      have hmul := (div_lt_iff₀ hpos).mp hfloor
      push_cast at hmul
      exact hmul

/-- A check on a stream that is within the limit. -/
theorem check_metered {convert : Dbl → ℕ} {now : Timeval} (test : IperfTest)
    (hrate : test.settings.rate = rate) (hle : start.seconds ≤ now.seconds)
    (hinf : start.seconds < now.seconds ∨ rate ≤ convert .inf)
    (hstart : sp.result.startTimeFixed = start)
    (hwithin : Within rate block (now.seconds - start.seconds) sp) :
    Metered start rate block now.seconds test.done (iperfCheckThrottle convert now test sp).2 := by
  unfold iperfCheckThrottle
  split
  · rename_i hdone
    exact ⟨hstart, hwithin, fun hnot => absurd hnot (by rw [hdone]; exact Bool.noConfusion)⟩
  · split
    · rename_i hbelow
      rw [hrate] at hbelow
      have hrateBelow := bitsPerSecond_lt hle hstart hinf hbelow
      exact ⟨hstart, hwithin, fun _ _ => hrateBelow⟩
    · exact ⟨hstart, hwithin, fun _ hgreen => absurd hgreen Bool.false_ne_true⟩

/-- The event of a check on a stream that is within the limit. -/
theorem check_honoured {now : Timeval} {writeSetP : Option (Finset ℤ)} (hrate : rate ≠ 0)
    (hstart : sp.result.startTimeFixed = start)
    (hwithin : Within rate block (now.seconds - start.seconds) sp) :
    Honoured rate block writeSetP (.check sp now) := by
  intro hlt
  rw [hstart] at hlt ⊢
  have hdiff : timevalDiff start now = now.seconds - start.seconds := by
    rw [timevalDiff_eq_abs, abs_sub_comm, abs_of_nonneg (sub_nonneg.mpr hlt.le)]
  rw [hdiff]
  exact hwithin.lt hrate (by linarith)

/-- How far the loop of `iperf_send` has come at the time `now`. -/
structure SendProgress (start : Timeval) (rate block : ℕ) (now : Timeval)
    (writeSetP : Option (Finset ℤ)) (i : ℕ) (s : SendState) (streams : List IperfStream) :
    Prop where
  rated : s.test.settings.rate = rate
  unburst : s.test.settings.burst = 0
  behind : ∀ j sp, j < i → streams[j]? = some sp →
    Metered start rate block now.seconds s.test.done sp
  ahead : ∀ j sp, i ≤ j → streams[j]? = some sp →
    Metered start rate block now.seconds false sp ∧ sp.greenLight = true ∧
      inWriteSet writeSetP sp.socket = true
  events : ∀ e ∈ s.events, Honoured rate block writeSetP e

/-- The stream at the loop's position is replaced and the loop moves on, with what it has
established for the streams in front. -/
theorem SendProgress.next {now : Timeval} {writeSetP : Option (Finset ℤ)} {s s' : SendState}
    {pre post : List IperfStream}
    (h : SendProgress start rate block now writeSetP pre.length s (pre ++ sp :: post))
    (hsettings : s'.test.settings = s.test.settings)
    (hdone : s'.test.done = false → s.test.done = false)
    (hsp : Metered start rate block now.seconds s'.test.done sp')
    (hevents : ∀ e ∈ s'.events, Honoured rate block writeSetP e) :
    SendProgress start rate block now writeSetP (pre.length + 1) s' (pre ++ sp' :: post) where
  rated := by rw [hsettings, h.rated]
  unburst := by rw [hsettings, h.unburst]
  behind := by
    intro j sp'' hj hsp''
    by_cases heq : j = pre.length
    · rw [heq, List.getElem?_append_right le_rfl, Nat.sub_self, List.getElem?_cons_zero] at hsp''
      rw [← Option.some.inj hsp'']
      exact hsp
    · have hlt : j < pre.length := by omega
      rw [List.getElem?_append_left hlt] at hsp''
      have hold := h.behind j sp'' hlt (by rw [List.getElem?_append_left hlt]; exact hsp'')
      exact hold.mono le_rfl hdone
  ahead := by
    intro j sp'' hj hsp''
    obtain ⟨k, hk⟩ : ∃ k, j - pre.length = k + 1 := ⟨j - pre.length - 1, by omega⟩
    have hle : pre.length ≤ j := by omega
    rw [List.getElem?_append_right hle, hk, List.getElem?_cons_succ] at hsp''
    refine h.ahead j sp'' hle ?_
    rw [List.getElem?_append_right hle, hk, List.getElem?_cons_succ]
    exact hsp''
  events := hevents

/-- One stream of one call writes a block at most, behind a check that found it below the rate
or the gate open. -/
theorem SendProgress.step {env : SendEnv} {writeSetP : Option (Finset ℤ)} {s : SendState}
    {pre post : List IperfStream} (hrate : rate ≠ 0)
    (hle : start.seconds ≤ (env.clock 0).seconds)
    (hinf : start.seconds < (env.clock 0).seconds ∨ rate ≤ env.convert .inf)
    (hwrites : ∀ round i, (env.io round i).written ≤ block)
    (h : SendProgress start rate block (env.clock 0) writeSetP pre.length s (pre ++ sp :: post)) :
    SendProgress start rate block (env.clock 0) writeSetP (pre.length + 1)
      (sendBody env writeSetP 0 1 (env.clock 0) pre.length s sp).1
      (pre ++ (sendBody env writeSetP 0 1 (env.clock 0) pre.length s sp).2.1 :: post) := by
  have hsp : (pre ++ sp :: post)[pre.length]? = some sp := by
    rw [List.getElem?_append_right le_rfl, Nat.sub_self, List.getElem?_cons_zero]
  obtain ⟨hmetered, hgreen, hwritable⟩ := h.ahead pre.length sp le_rfl hsp
  obtain ⟨hbytes, hstart, hlight, hfailed, hdone⟩ := snd_effect s.test (env.io 0 pre.length) sp
  have hblock := snd_le s.test sp (hwrites 0 pre.length)
  have hmay : maySend s.test writeSetP sp = true := by
    unfold maySend
    rw [hgreen, hwritable]
    simp
  have hsent : ∀ e ∈ s.events ++ [SendEvent.snd sp], Honoured rate block writeSetP e := by
    intro e he
    rcases List.mem_append.mp he with he | he
    · exact h.events e he
    · rw [List.mem_singleton.mp he]
      exact ⟨hgreen, hwritable⟩
  unfold sendBody
  rw [if_pos hmay]
  dsimp only
  split
  · rename_i hneg
    refine h.next rfl id ?_ hsent
    exact (hmetered.congr (hfailed hneg) hlight).mono le_rfl fun _ => rfl
  · have hbelow := hmetered.green rfl hgreen
    have hwithin : Within rate block ((env.clock 0).seconds - start.seconds)
        (snd s.test (env.io 0 pre.length) sp).2.1 := hbelow.send hblock hbytes
    have hstarted : (snd s.test (env.io 0 pre.length) sp).2.1.result.startTimeFixed = start :=
      hstart.trans hmetered.started
    generalize snd s.test (env.io 0 pre.length) sp = r at *
    have hcond : (afterSnd s sp r.1 r.2.2).test.settings.rate ≠ 0 ∧
        (afterSnd s sp r.1 r.2.2).test.settings.burst = 0 := by
      dsimp only [afterSnd]
      rw [h.rated]
      exact ⟨hrate, h.unburst⟩
    unfold checkAfterSend
    rw [if_pos hcond]
    dsimp only
    have hframe := (check_frame env.convert (env.clock 0) (afterSnd s sp r.1 r.2.2).test r.2.1).1
    have hsettings := congrArg IperfTest.settings hframe
    have hdone' : (iperfCheckThrottle env.convert (env.clock 0) (afterSnd s sp r.1 r.2.2).test
        r.2.1).1.done = r.2.2 := by
      unfold iperfCheckThrottle
      split_ifs <;> rfl
    refine h.next hsettings ?_ ?_ ?_
    · intro hnot
      exact hdone (hdone'.symm.trans hnot)
    · have hcheck := check_metered (afterSnd s sp r.1 r.2.2).test
        h.rated hle hinf hstarted hwithin
      rw [hdone']
      exact hcheck
    · intro e he
      rcases List.mem_append.mp he with he | he
      · exact hsent e he
      · rw [List.mem_singleton.mp he]
        exact check_honoured hrate hstarted hwithin

/-- A test all of whose streams are metered. -/
structure MeteredTest (start : Timeval) (rate block : ℕ) (last : ℚ) (test : IperfTest) : Prop where
  rated : test.settings.rate = rate
  unburst : test.settings.burst = 0
  streams : ∀ sp ∈ test.streams, Metered start rate block last test.done sp

/-- Without a burst and with a rate a call goes round once. -/
theorem iperfSend_once (env : SendEnv) (writeSetP : Option (Finset ℤ)) {test : IperfTest}
    (hrate : test.settings.rate ≠ 0) (hburst : test.settings.burst = 0) :
    let r := forEach (sendBody env writeSetP 0 1 (env.clock 0)) 0 { test := test } test.streams
    (iperfSend env writeSetP test).test = { r.1.test with streams := r.2 } ∧
      (iperfSend env writeSetP test).events = r.1.events := by
  have hmulti : multisendOf test = 1 := by
    unfold multisendOf
    rw [if_neg (not_not.mpr hburst), if_neg hrate]
  have hrounds : sendRounds env writeSetP 1 0 {} { test := test } test.streams =
      forEach (sendBody env writeSetP 0 1 (env.clock 0)) 0 { test := test } test.streams := by
    have hboth : test.settings.rate ≠ 0 ∧ test.settings.burst = 0 := ⟨hrate, hburst⟩
    unfold sendRounds
    dsimp only
    rw [if_pos hboth]
    split
    · rfl
    · rfl
  dsimp only
  unfold iperfSend
  dsimp only
  rw [hmulti, hrounds, if_neg (not_not.mpr hburst)]
  split
  · exact ⟨rfl, rfl⟩
  · exact ⟨rfl, rfl⟩

/-- A call that finds the gate open keeps to the limit: each stream sends one block at most
beyond what the rate allows. -/
theorem MeteredTest.send {env : SendEnv} {writeSetP : Option (Finset ℤ)} {test : IperfTest}
    (hrate : rate ≠ 0) (h : MeteredTest start rate block last test)
    (hstart : start.seconds ≤ last) (hle : last ≤ (env.clock 0).seconds)
    (hinf : start.seconds < (env.clock 0).seconds ∨ rate ≤ env.convert .inf)
    (hwrites : ∀ round i, (env.io round i).written ≤ block)
    (hopen : StepOpen test (.send env writeSetP)) :
    (∀ e ∈ (iperfSend env writeSetP test).events, Honoured rate block writeSetP e) ∧
      MeteredTest start rate block (env.clock 0).seconds (iperfSend env writeSetP test).test := by
  obtain ⟨hrunning, hpermitted⟩ := hopen
  have hprogress : SendProgress start rate block (env.clock 0) writeSetP 0 { test := test }
      test.streams := by
    refine ⟨h.rated, h.unburst, ?_, ?_, ?_⟩
    · intro j sp hj
      exact absurd hj (Nat.not_lt_zero j)
    · intro j sp _ hsp
      have hmem := List.mem_of_getElem? hsp
      obtain ⟨hgreen, hwritable⟩ := hpermitted sp hmem
      exact ⟨(h.streams sp hmem).mono hle fun _ => hrunning, hgreen, hwritable⟩
    · intro e he
      cases he
  obtain ⟨i, hloop⟩ := forEach_indexed
    (SendProgress start rate block (env.clock 0) writeSetP)
    (fun s pre sp post hs => hs.step hrate (hstart.trans hle) hinf hwrites) { test := test }
    test.streams hprogress
  obtain ⟨htest, hevents⟩ := iperfSend_once env writeSetP (h.rated ▸ hrate) h.unburst
  rw [htest, hevents]
  refine ⟨hloop.events, hloop.rated, hloop.unburst, ?_⟩
  intro sp hsp
  obtain ⟨j, hj⟩ := List.mem_iff_getElem?.mp hsp
  by_cases hlt : j < i
  · exact hloop.behind j sp hlt hj
  · have hahead := (hloop.ahead j sp (Nat.le_of_not_lt hlt) hj).1
    exact hahead.mono le_rfl fun _ => rfl

/-- A throttle timer that keeps to the limit gives the light only to a stream that is below
the rate. -/
theorem MeteredTest.tick {convert : Dbl → ℕ} {now : Timeval} {stream : ℕ} {test : IperfTest}
    (hrate : rate ≠ 0) (h : MeteredTest start rate block last test)
    (hstart : start.seconds ≤ last) (hle : last ≤ now.seconds)
    (hinf : start.seconds < now.seconds ∨ rate ≤ convert .inf) :
    (∀ e ∈ stepEvents test (.tick convert now stream), Honoured rate block none e) ∧
      MeteredTest start rate block now.seconds (throttleStream convert now stream test) := by
  dsimp only [stepEvents]
  unfold throttleStream
  cases hs : test.streams[stream]? with
  | none =>
    refine ⟨?_, h.rated, h.unburst, ?_⟩
    · intro e he
      cases he
    · intro sp hsp
      exact (h.streams sp hsp).mono hle id
  | some sp =>
    have hmetered := (h.streams sp (List.mem_of_getElem? hs)).mono hle id
    have hframe := (check_frame convert now test sp).1
    have hsettings := congrArg IperfTest.settings hframe
    have hdone : (iperfCheckThrottle convert now test sp).1.done = test.done := by
      unfold iperfCheckThrottle
      split_ifs <;> rfl
    have hcheck := check_metered test h.rated (hstart.trans hle) hinf hmetered.started
      hmetered.within
    refine ⟨?_, ?_, ?_, ?_⟩
    · intro e he
      rw [List.mem_singleton.mp he]
      exact check_honoured hrate hmetered.started hmetered.within
    · exact (congrArg IperfSettings.rate hsettings).trans h.rated
    · exact (congrArg IperfSettings.burst hsettings).trans h.unburst
    · intro sp' hsp'
      dsimp only at hsp' ⊢
      rw [hdone]
      rcases List.mem_or_eq_of_mem_set hsp' with hmem | rfl
      · exact (h.streams sp' hmem).mono hle id
      · exact hcheck

/-- Runs of a metered test. -/
theorem MeteredTest.run {steps : List ThrottleStep} {test : IperfTest} (hrate : rate ≠ 0)
    (h : MeteredTest start rate block last test) (hstart : start.seconds ≤ last)
    (hclocks : ClocksFrom last steps) (hwrites : ∀ step ∈ steps, WritesWithin block step)
    (habove : ∀ step ∈ steps, StartsAbove rate start step) (hopen : RunOpen steps test) :
    RunHonoured rate block steps test := by
  induction steps generalizing test last with
  | nil => exact trivial
  | cons step rest ih =>
    obtain ⟨hle, hlater⟩ := hclocks
    obtain ⟨hfirst, hrest⟩ := hopen
    have hinf := habove step List.mem_cons_self
    have hwrite := hwrites step List.mem_cons_self
    have hstep : (∀ e ∈ stepEvents test step, Honoured rate block (stepWriteSet step) e) ∧
        MeteredTest start rate block (stepClock step).seconds (throttleStep test step) := by
      cases step with
      | send env writeSetP => exact h.send hrate hstart hle hinf hwrite hfirst
      | tick convert now stream => exact h.tick hrate hstart hle hinf
    refine ⟨hstep.1, ih hstep.2 (hstart.trans hle) hlater ?_ ?_ hrest⟩
    · intro step' hmem
      exact hwrites step' (List.mem_cons_of_mem _ hmem)
    · intro step' hmem
      exact habove step' (List.mem_cons_of_mem _ hmem)

/-- A routine that changes neither the settings nor the results of the streams. -/
def KeepsResults (test : IperfTest) (r : Attempt) : Prop :=
  r.2.2.settings = test.settings ∧
    r.2.2.streams.map (·.result) = test.streams.map (·.result)

/-- Setting timers keeps the results. -/
theorem SetsTimers.results {test : IperfTest} {r : Attempt} (h : SetsTimers test r) :
    KeepsResults test r := by
  have hsettings := congrArg IperfTest.settings h
  have hresults := congrArg (fun test => test.streams.map (·.result)) h
  dsimp only [testAtStart] at hresults
  rw [List.map_map, List.map_map] at hresults
  exact ⟨hsettings, hresults⟩

/-- The client behind `CREATE_STREAMS` and `TEST_START`. -/
def startedTest (io : ℕ → StreamIo) (input : StartInput) (q : TimerLists ClientProc)
    (test : IperfTest) : IperfTest :=
  (handleTestStart input q (iperfCreateStreams io test).2.1).2.2

/-- A test starts metered, with the clock reading of `iperf_init_test` and no byte on any of
its streams. -/
theorem startedTest_metered (io : ℕ → StreamIo) {input : StartInput} (q : TimerLists ClientProc)
    {test : IperfTest} (hstreams : test.streams = []) (hburst : test.settings.burst = 0)
    (hclock : input.initClock = some start) :
    MeteredTest start test.settings.rate block start.seconds (startedTest io input q test) := by
  obtain ⟨hframe, added, hadded, hfresh, -⟩ :=
    createStreamsFrom_spec io test.bindPort test.numStreams.toNat 0 test
  have hsettings : (iperfCreateStreams io test).2.1.settings = test.settings := by
    have hs := congrArg IperfTest.settings hframe
    exact hs
  have hnew : ∀ sp ∈ (iperfCreateStreams io test).2.1.streams, sp.result = {} := by
    intro sp hsp
    unfold iperfCreateStreams at hsp
    rw [hadded, hstreams, List.nil_append] at hsp
    exact (hfresh sp hsp).result
  have hkeeps : KeepsResults (iperfInitTest start (iperfCreateStreams io test).2.1)
      (handleTestStart input q (iperfCreateStreams io test).2.1) :=
    SetsTimers.results (handleTestStart_sets hclock q _)
  have hkept : (startedTest io input q test).settings = test.settings := hkeeps.1.trans hsettings
  refine ⟨congrArg IperfSettings.rate hkept, (congrArg IperfSettings.burst hkept).trans hburst, ?_⟩
  intro sp hsp
  have hmem : sp.result ∈ (iperfInitTest start (iperfCreateStreams io test).2.1).streams.map
      (·.result) := by
    rw [← hkeeps.2]
    exact List.mem_map_of_mem hsp
  have hresult : sp.result = { startTime := start, startTimeFixed := start } := by
    obtain ⟨sp', hsp', hresult⟩ := List.mem_map.mp hmem
    obtain ⟨sp₀, hsp₀, rfl⟩ := List.mem_map.mp hsp'
    rw [← hresult]
    dsimp only
    rw [hnew sp₀ hsp₀]
  have hbytes : sp.result.bytesSent = 0 := by rw [hresult]
  refine ⟨by rw [hresult], Or.inr ?_, fun _ _ => Or.inr hbytes⟩
  rw [hbytes]
  exact Nat.zero_le block

/-- What no entry point changes makes `iperf_send` pass the gate by. -/
theorem maySend_asBuilt {test : IperfTest} (h : AsBuilt test) (writeSetP : Option (Finset ℤ))
    (sp : IperfStream) : maySend test writeSetP sp = true := by
  unfold maySend
  rw [h.pacing]
  rfl

/-- In a run with a rate and no burst whose `iperf_send` calls all find the test running,
every green light on and every socket in the write set, data goes out on permitted
streams only, and every check finds its stream less than one block above the rate. -/
theorem rate_limit_honoured {io : ℕ → StreamIo} {input : StartInput} {q : TimerLists ClientProc}
    {test : IperfTest} {steps : List ThrottleStep} (hstreams : test.streams = [])
    (hrate : test.settings.rate ≠ 0) (hburst : test.settings.burst = 0)
    (hclock : input.initClock = some start) (hclocks : ClocksFrom start.seconds steps)
    (hwrites : ∀ step ∈ steps, WritesWithin test.settings.blksize.toNat step)
    (habove : ∀ step ∈ steps, StartsAbove test.settings.rate start step)
    (hopen : RunOpen steps (startedTest io input q test)) :
    RunHonoured test.settings.rate test.settings.blksize.toNat steps
      (startedTest io input q test) :=
  (startedTest_metered io q hstreams hburst hclock).run hrate le_rfl hclocks hwrites habove hopen

/-- A native configuration with a limit of one megabit per second. -/
def limitedConfig : Iperf3Config where
  serverAddr := "10.0.0.1"
  serverPort := 5201
  isDownMode := false
  interval := 1
  bandwidth := 1000000
  formatUnit := 109
  parallels := 1

def limitedTest : IperfTest :=
  parseJavaConfig ⟨false, false, fun h => h⟩ limitedConfig "/tmp/iperf3.XXXXXX"
    (iperfDefaults ⟨false, false, fun h => h⟩ iperfNewTest)

def limitedStreams : ℕ → StreamIo :=
  fun _ => ⟨⟨true, some 5, true, true, true, true⟩, ⟨true, some 6, true, none, true⟩⟩

def limitedStart : StartInput :=
  ⟨some {}, some {}, fun _ => true, some {}, true, true, fun _ => {}, fun _ => true⟩

/-- A call at the given time that writes the given number of bytes. -/
def sendAt (now : Timeval) (written : ℤ) : ThrottleStep :=
  .send ⟨fun _ _ => ⟨0, written⟩, fun _ => now, now, fun _ => 0⟩ (some {5})

/-- A round that writes a block at most is within the block. -/
theorem sendAt_within {now : Timeval} {written : ℤ} {block : ℕ} (h : written ≤ block) :
    WritesWithin block (sendAt now written) :=
  fun _ _ => h

/-- Two small writes with a tick of the throttle timer in between. -/
def slowSteps : List ThrottleStep :=
  [sendAt ⟨0, 1000⟩ 100, .tick (fun _ => 0) ⟨0, 100000⟩ 0, sendAt ⟨0, 200000⟩ 20000]

/-- A client that waits between its blocks honours its rate. -/
theorem slowSteps_honoured :
    RunHonoured limitedTest.settings.rate limitedTest.settings.blksize.toNat slowSteps
      (startedTest limitedStreams limitedStart {} limitedTest) := by
  have hwrites : ∀ step ∈ slowSteps, WritesWithin limitedTest.settings.blksize.toNat step := by
    intro step hstep
    simp only [slowSteps, List.mem_cons, List.not_mem_nil, or_false] at hstep
    rcases hstep with rfl | rfl | rfl
    · exact sendAt_within (by decide)
    · exact trivial
    · exact sendAt_within (by decide)
  have hclocks : ClocksFrom (Timeval.seconds {}) slowSteps :=
    ⟨by decide +kernel, by decide +kernel, by decide +kernel, trivial⟩
  have habove : ∀ step ∈ slowSteps, StartsAbove limitedTest.settings.rate {} step := by
    intro step hstep
    simp only [slowSteps, List.mem_cons, List.not_mem_nil, or_false] at hstep
    rcases hstep with rfl | rfl | rfl
    · exact Or.inl (by decide +kernel)
    · exact Or.inl (by decide +kernel)
    · exact Or.inl (by decide +kernel)
  exact rate_limit_honoured rfl (by decide) rfl rfl hclocks hwrites habove (by decide +kernel)

/-- Whether data goes out on a stream without a green light. -/
def sendsOnRed : SendEvent → Bool
  | .snd sp => !sp.greenLight
  | .check _ _ => false

/-- A block in the first second takes the light from the stream, and the next call sends
on it all the same. -/
theorem limit_passed_by :
    ¬∀ (platform : Platform) (config : Iperf3Config) (tmpPath : String) (io : ℕ → StreamIo)
      (input : StartInput) (start : Timeval) (steps : List ThrottleStep),
      let test := parseJavaConfig platform config tmpPath (iperfDefaults platform iperfNewTest)
      test.settings.rate ≠ 0 → test.settings.burst = 0 → input.initClock = some start →
      ClocksFrom start.seconds steps →
      (∀ step ∈ steps, WritesWithin test.settings.blksize.toNat step) →
      RunHonoured test.settings.rate test.settings.blksize.toNat steps
        (startedTest io input {} test) := by
  intro hall
  have hclocks : ClocksFrom (Timeval.seconds {}) [sendAt ⟨1, 0⟩ 131072, sendAt ⟨1, 1000⟩ 131072] :=
    ⟨by decide +kernel, by decide +kernel, trivial⟩
  have hwrites : ∀ step ∈ [sendAt ⟨1, 0⟩ 131072, sendAt ⟨1, 1000⟩ 131072],
      WritesWithin limitedTest.settings.blksize.toNat step := by
    intro step hstep
    simp only [List.mem_cons, List.not_mem_nil, or_false] at hstep
    rcases hstep with rfl | rfl
    · exact sendAt_within (by decide)
    · exact sendAt_within (by decide)
  obtain ⟨-, hsecond, -⟩ := hall ⟨false, false, fun h => h⟩ limitedConfig "/tmp/iperf3.XXXXXX"
    limitedStreams limitedStart {} [sendAt ⟨1, 0⟩ 131072, sendAt ⟨1, 1000⟩ 131072]
    (by decide) rfl rfl hclocks hwrites
  have hred : (stepEvents (throttleStep (startedTest limitedStreams limitedStart {} limitedTest)
      (sendAt ⟨1, 0⟩ 131072)) (sendAt ⟨1, 1000⟩ 131072)).any sendsOnRed = true := by decide +kernel
  obtain ⟨e, he, hsends⟩ := List.any_eq_true.mp hred
  have hhonoured := hsecond e he
  cases e with
  | snd sp =>
    obtain ⟨hgreen, -⟩ := hhonoured
    dsimp only [sendsOnRed] at hsends
    rw [hgreen] at hsends
    exact absurd hsends (by decide)
  | check sp now => exact absurd hsends Bool.false_ne_true

end IperfRuntime.RateLimit
