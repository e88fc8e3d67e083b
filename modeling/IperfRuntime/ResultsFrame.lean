import IperfRuntime.ResultsExchange

/-!
# What the peer's results leave alone

`get_results` replaces figures of the streams, two figures of the test and the server's
output. The rest of a test and of its streams it keeps, also when it fails. The messages
that it prints on the way are not modelled.
-/

namespace IperfRuntime.ResultsFrame

open JsonTree TestState ResultsExchange

/-- A stream with the exchanged figures blanked out. -/
def figureFrame (sp : IperfStream) : IperfStream :=
  { sp with
    jitter := 0
    cntError := 0
    packetCount := 0
    result := { sp.result with bytesReceived := 0, bytesSent := 0, streamRetrans := 0 } }

/-- A test with what an exchange assigns blanked out, apart from its streams. -/
def exchangeFrame (test : IperfTest) : IperfTest :=
  { test with
    senderHasRetransmits := 0
    remoteCpuUtil := (0, 0, 0)
    jsonServerOutput := none
    serverOutputText := none
    streams := [] }

/-- Two tests with the same frames. -/
structure SameExchange (before after : IperfTest) : Prop where
  test : exchangeFrame after = exchangeFrame before
  streams : after.streams.map figureFrame = before.streams.map figureFrame

/-- A test has the settings of its own exchange. -/
theorem SameExchange.refl (test : IperfTest) : SameExchange test test := ⟨rfl, rfl⟩

/-- Settings that stay the same twice stay the same. -/
theorem SameExchange.trans {a b c : IperfTest} (h : SameExchange a b) (h' : SameExchange b c) :
    SameExchange a c :=
  ⟨h'.test.trans h.test, h'.streams.trans h.streams⟩

/-- What no figure of the peer changes on a stream stays over an assignment. -/
theorem assignToStream_map {γ : Type*} {sender : Bool} {g : IperfStream → γ}
    (hg : ∀ f sp, g (assignFigures sender f sp) = g sp) {f : StreamFigures}
    {streams streams' : List IperfStream} (h : assignToStream sender f streams = some streams') :
    streams'.map g = streams.map g := by
  induction streams generalizing streams' with
  | nil => cases h
  | cons sp rest ih =>
    rw [assignToStream] at h
    split at h
    · cases h
      rw [List.map_cons, List.map_cons, hg]
    · obtain ⟨rest', hrest, rfl⟩ := Option.map_eq_some_iff.mp h
      rw [List.map_cons, List.map_cons, ih hrest]

/-- Assigning figures changes nothing else of a stream. -/
theorem assignToStream_frame {sender : Bool} {f : StreamFigures}
    {streams streams' : List IperfStream} (h : assignToStream sender f streams = some streams') :
    streams'.map figureFrame = streams.map figureFrame := by
  refine assignToStream_map ?_ h
  intro f sp
  unfold assignFigures
  split
  · simp only [figureFrame]
  · simp only [figureFrame]

/-- Neither does reading the object of a stream. -/
theorem getStreamResult_frame (s : Bool × IperfTest) (j : CJson) :
    SameExchange s.2 (getStreamResult s j).2 := by
  unfold getStreamResult
  split
  · exact SameExchange.refl s.2
  · split
    · exact SameExchange.refl s.2
    · rename_i hassign
      exact ⟨rfl, assignToStream_frame hassign⟩

/-- Nor reading all of them. -/
theorem getStreamResults_frame (items : List CJson) (s : Bool × IperfTest) :
    SameExchange s.2 (items.foldl getStreamResult s).2 := by
  induction items generalizing s with
  | nil => exact SameExchange.refl s.2
  | cons j items ih => exact (getStreamResult_frame s j).trans (ih (getStreamResult s j))

/-- The server's output changes none of the settings. -/
theorem getServerOutput_frame {j : CJson} {s s' : Bool × IperfTest}
    (h : getServerOutput j s = some s') : SameExchange s.2 s'.2 := by
  unfold getServerOutput at h
  split at h
  · split at h
    · cases h
      exact ⟨rfl, rfl⟩
    · split at h
      · obtain ⟨text, -, rfl⟩ := Option.map_eq_some_iff.mp h
        exact ⟨rfl, rfl⟩
      · cases h
        exact SameExchange.refl s.2
  · cases h
    exact SameExchange.refl s.2

/-- Nor do the figures in front of the streams. -/
theorem getHeader_frame (total user system retransmits : CJson) (test : IperfTest) :
    SameExchange test (getHeader total user system retransmits test) := ⟨rfl, rfl⟩

/-- `get_results` keeps its frame. -/
theorem getResults_frame {j : CJson} {test : IperfTest} {r : Bool × IperfTest}
    (h : getResults j test = some r) : SameExchange test r.2 := by
  unfold getResults at h
  split at h
  · rename_i total user system retransmits _ _ _ _
    have hheader := getHeader_frame total user system retransmits test
    dsimp only at h
    split at h
    · cases h
      exact hheader
    · rename_i streams _
      have hitems := getStreamResults_frame (arrayItems streams)
        (true, getHeader total user system retransmits test)
      exact (hheader.trans hitems).trans (getServerOutput_frame h)
  · cases h
    exact SameExchange.refl test

end IperfRuntime.ResultsFrame
