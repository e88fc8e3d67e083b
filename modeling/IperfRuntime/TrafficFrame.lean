import IperfRuntime.StreamTraffic

/-!
# What traffic leaves alone

`iperf_send` and `iperf_recv` move byte counters, datagram counters, the throttle
and the end flag. Everything else of a test and of its streams is part of their
frame, which they keep whatever the system calls return.
-/

namespace IperfRuntime.TrafficFrame

open ClockReading TestState ListLoop StreamTraffic

/-- A stream with the fields of the traffic blanked out. -/
def streamFrame (sp : IperfStream) : IperfStream :=
  { sp with
    greenLight := false
    packetCount := 0
    jitter := 0
    prevTransit := 0
    outoforderPackets := 0
    cntError := 0
    result := { sp.result with
      bytesSent := 0
      bytesSentThisInterval := 0
      bytesReceived := 0
      bytesReceivedThisInterval := 0 } }

/-- A test with the fields of the traffic blanked out, apart from its streams. -/
def testFrame (test : IperfTest) : IperfTest :=
  { test with bytesSent := 0, blocksSent := 0, writeSet := ∅, done := false, streams := [] }

/-- Bytes sent are outside the frame of a stream. -/
@[simp]
theorem streamFrame_addSent (r : ℤ) (sp : IperfStream) :
    streamFrame (addSent r sp) = streamFrame sp := by
  simp only [streamFrame, addSent]

/-- So are bytes received. -/
@[simp]
theorem streamFrame_addReceived (r : ℤ) (sp : IperfStream) :
    streamFrame (addReceived r sp) = streamFrame sp := by
  simp only [streamFrame, addReceived]

/-- So is the count of the datagrams. -/
@[simp]
theorem streamFrame_packetCount (n : ℤ) (sp : IperfStream) :
    streamFrame { sp with packetCount := n } = streamFrame sp := rfl

/-- A send keeps the frame of its stream. -/
theorem snd_frame (test : IperfTest) (io : SndIo) (sp : IperfStream) :
    streamFrame (snd test io sp).2.1 = streamFrame sp := by
  obtain heq | ⟨n, -, ⟨-, heq⟩ | ⟨-, heq⟩⟩ := snd_cases test io sp
  · rw [heq]
  · rw [heq, streamFrame_packetCount]
  · rw [heq, streamFrame_addSent, streamFrame_packetCount]

/-- Counting a datagram keeps it. -/
theorem countDatagram_frame (pcount : ℕ) (sp : IperfStream) :
    streamFrame (countDatagram pcount sp) = streamFrame sp := by
  unfold countDatagram
  split
  · simp only [streamFrame]
  · simp only [streamFrame]

/-- A receive keeps it. -/
theorem rcv_frame (test : IperfTest) (io : RcvIo) (sp : IperfStream) :
    streamFrame (rcv test io sp).2 = streamFrame sp := by
  obtain ⟨-, heq⟩ | heq | heq := rcv_cases test io sp
  · rw [heq]
  · rw [heq, streamFrame_addReceived]
  · have hcount := countDatagram_frame io.pcount (addReceived io.received sp)
    rw [streamFrame_addReceived] at hcount
    rw [heq]
    exact hcount

/-- The check of the rate keeps the frames of test and stream. -/
theorem check_frame (convert : PrintfText.Dbl → ℕ) (now : Timeval) (test : IperfTest)
    (sp : IperfStream) :
    testFrame (iperfCheckThrottle convert now test sp).1 = testFrame test ∧
      streamFrame (iperfCheckThrottle convert now test sp).2 = streamFrame sp := by
  unfold iperfCheckThrottle
  split_ifs
  · exact ⟨rfl, rfl⟩
  · exact ⟨rfl, rfl⟩
  · exact ⟨rfl, rfl⟩

/-- The frame is that of a given test and given streams. -/
structure SameFrame (test : IperfTest) (streams : List IperfStream) (current : IperfTest)
    (now : List IperfStream) : Prop where
  test : testFrame current = testFrame test
  streams : now.map streamFrame = streams.map streamFrame

/-- Frames stay the same where nothing happens. -/
theorem SameFrame.refl (test : IperfTest) (streams : List IperfStream) :
    SameFrame test streams test streams := ⟨rfl, rfl⟩

/-- A round that keeps both frames keeps the frame of the whole. -/
theorem SameFrame.round {test current next : IperfTest} {streams pre post : List IperfStream}
    {a a' : IperfStream} (h : SameFrame test streams current (pre ++ a :: post))
    (htest : testFrame next = testFrame current) (hstream : streamFrame a' = streamFrame a) :
    SameFrame test streams next (pre ++ a' :: post) where
  test := htest.trans h.test
  streams := by
    have hs := h.streams
    rw [List.map_append, List.map_cons] at hs ⊢
    rw [hstream]
    exact hs

/-- The check after a send keeps both frames. -/
theorem checkAfterSend_frame (env : SendEnv) (now : Timeval) (s : SendState) (sp : IperfStream) :
    testFrame (checkAfterSend env now s sp).1.test = testFrame s.test ∧
      streamFrame (checkAfterSend env now s sp).2 = streamFrame sp := by
  unfold checkAfterSend
  split
  · exact check_frame env.convert now s.test sp
  · exact ⟨rfl, rfl⟩

/-- One attempt to send keeps both frames. -/
theorem sendBody_frame (env : SendEnv) (writeSetP : Option (Finset ℤ)) (round multisend : ℕ)
    (now : Timeval) (i : ℕ) (s : SendState) (sp : IperfStream) :
    testFrame (sendBody env writeSetP round multisend now i s sp).1.test = testFrame s.test ∧
      streamFrame (sendBody env writeSetP round multisend now i s sp).2.1 = streamFrame sp := by
  have hsnd := snd_frame s.test (env.io round i) sp
  unfold sendBody
  split
  · dsimp only
    split
    · exact ⟨rfl, hsnd⟩
    · obtain ⟨htest, hstream⟩ := checkAfterSend_frame env now
        (afterSnd s sp (snd s.test (env.io round i) sp).1 (snd s.test (env.io round i) sp).2.2)
        (snd s.test (env.io round i) sp).2.1
      exact ⟨htest, hstream.trans hsnd⟩
  · exact ⟨rfl, rfl⟩

/-- `iperf_send` keeps its frame. -/
theorem iperfSend_frame (env : SendEnv) (writeSetP : Option (Finset ℤ)) (test : IperfTest) :
    SameFrame test test.streams (iperfSend env writeSetP test).test
      (iperfSend env writeSetP test).test.streams := by
  have hbody : ∀ round multisend now i (s : SendState) pre sp post,
      SameFrame test test.streams s.test (pre ++ sp :: post) →
      SameFrame test test.streams (sendBody env writeSetP round multisend now i s sp).1.test
        (pre ++ (sendBody env writeSetP round multisend now i s sp).2.1 :: post) := by
    intro round multisend now i s pre sp post hs
    obtain ⟨htest, hstream⟩ := sendBody_frame env writeSetP round multisend now i s sp
    exact hs.round htest hstream
  have hburst : ∀ i (s : SendState) pre sp post,
      SameFrame test test.streams s.test (pre ++ sp :: post) →
      SameFrame test test.streams (burstBody env i s sp).1.test
        (pre ++ (burstBody env i s sp).2.1 :: post) := by
    intro i s pre sp post hs
    obtain ⟨htest, hstream⟩ := check_frame env.convert env.endClock s.test sp
    exact hs.round htest hstream
  obtain ⟨current, streams, hframe, heq⟩ :=
    iperfSend_keeps hbody hburst (SameFrame.refl test test.streams)
  rw [heq]
  exact ⟨hframe.test, hframe.streams⟩

/-- One receive of a round keeps both frames. -/
theorem recvBody_frame (io : ℕ → RcvIo) (i : ℕ) (s : RecvState) (sp : IperfStream) :
    testFrame (recvBody io i s sp).1.test = testFrame s.test ∧
      streamFrame (recvBody io i s sp).2.1 = streamFrame sp := by
  have hrcv := rcv_frame s.test (io i) sp
  unfold recvBody
  split
  · dsimp only
    split
    · exact ⟨rfl, hrcv⟩
    · exact ⟨rfl, hrcv⟩
  · exact ⟨rfl, rfl⟩

/-- `iperf_recv` keeps its frame. -/
theorem iperfRecv_frame (io : ℕ → RcvIo) (readSetP : Finset ℤ) (test : IperfTest) :
    SameFrame test test.streams (iperfRecv io readSetP test).2.1
      (iperfRecv io readSetP test).2.1.streams := by
  have hbody : ∀ i (s : RecvState) pre sp post,
      SameFrame test test.streams s.test (pre ++ sp :: post) →
      SameFrame test test.streams (recvBody io i s sp).1.test
        (pre ++ (recvBody io i s sp).2.1 :: post) := by
    intro i s pre sp post hs
    obtain ⟨htest, hstream⟩ := recvBody_frame io i s sp
    exact hs.round htest hstream
  obtain ⟨current, streams, hframe, heq⟩ :=
    iperfRecv_keeps hbody (SameFrame.refl test test.streams) readSetP
  rw [heq]
  exact ⟨hframe.test, hframe.streams⟩

end IperfRuntime.TrafficFrame
