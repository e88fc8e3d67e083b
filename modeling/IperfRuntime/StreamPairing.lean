import IperfRuntime.HandshakeProgress
import IperfRuntime.ResultsAgreement
import IperfRuntime.ServerAccept
import IperfRuntime.ServerLoop

/-!
# The streams of the server loop

The server of the handshake is the one of the loop, with descriptors for its sockets: a call
of `iperf_udp_accept` that succeeds is the four steps of the handshake. So what the client
sends on a stream is counted by the stream of the server that has the same identifier.
System calls succeed, as they do in the handshake.
-/

namespace IperfRuntime.StreamPairing

open DatagramSockets EventTrace ResultsAgreement ServerLoop StreamCreation TestState UdpHandshake

variable {α : Type*} {fd : ℕ → ℤ} {v v₁ v₂ v₃ : Server α} {s : ServerRun}

/-- The server of the loop stands where the one of the handshake does. -/
structure Simulates (fd : ℕ → ℤ) (v : Server α) (s : ServerRun) : Prop where
  protocol : s.test.protocol = .udp
  listener : s.test.protListener = (v.protListener.map fd).getD (-1)
  sockets : s.test.streams.map IperfStream.socket = v.streams.map fd
  ids : s.test.streams.map IperfStream.id = positionIds v.streams.length
  accepted : s.streamsAccepted = v.streams.length

/-- The calls of `iperf_udp_accept` and of `iperf_new_stream` succeed. -/
structure Succeeds (fd : ℤ) (io : DatagramInput) : Prop where
  arrival : io.arrival = true
  socket : io.announce.socket = some fd
  announce : (io.announce.setup && io.announce.listen) = true
  reply : io.reply = true
  newStream : ∀ test fd, (iperfNewStream test io.newStream fd).1.isSome = true

/-- The server when the stream has been added and the listening sockets are not settled yet. -/
def Server.added (s : ℕ) (v : Server α) : Server α :=
  { v with streams := v.streams ++ [s], point := .outside }

/-- Both servers have the same number of streams. -/
theorem Simulates.length (h : Simulates fd v s) : s.test.streams.length = v.streams.length := by
  have hmap := congrArg List.length h.sockets
  rwa [List.length_map, List.length_map] at hmap

/-- The identifier that `iperf_add_stream` gives is the one of the position. -/
theorem addStream_id (sps : List IperfStream) :
    (if sps.isEmpty then 1 else sps.length + 2 : ℤ) = positionId sps.length := by
  unfold positionId
  cases sps with
  | nil => rfl
  | cons sp sps =>
    rw [if_neg (by simp), if_neg (by simp)]

/-- A stream that is added keeps the two servers together. -/
theorem Simulates.added {test : IperfTest} {sp : IperfStream} {k : ℕ} (h : Simulates fd v s)
    (hprotocol : test.protocol = .udp) (hstreams : test.streams = s.test.streams)
    (hlistener : test.protListener = (v₃.protListener.map fd).getD (-1))
    (hsame : v₃.streams = v.streams) (hsocket : sp.socket = fd k) :
    Simulates fd (Server.added k v₃) { s.withTest (watchSocket (fd k) (iperfAddStream sp test)) with
      streamsAccepted := s.streamsAccepted + 1 } := by
  have hgrown : (Server.added k v₃).streams.length = v.streams.length + 1 := by
    unfold Server.added
    rw [List.length_append, List.length_singleton, hsame]
  refine ⟨hprotocol, hlistener, ?_, ?_, ?_⟩
  · change (test.streams ++ [_]).map IperfStream.socket = (v₃.streams ++ [k]).map fd
    rw [List.map_append, List.map_append, hstreams, h.sockets, hsame]
    exact congrArg (v.streams.map fd ++ [·]) hsocket
  · rw [hgrown]
    change (test.streams ++ [_]).map IperfStream.id = _
    unfold positionIds
    rw [List.range_succ, List.map_append, List.map_append, hstreams, h.ids, ← h.length,
      List.map_singleton, List.map_singleton, ← addStream_id]
    rfl
  · rw [hgrown, Nat.cast_add, ← h.accepted]
    rfl

/-- Where the server stands behind the first three steps: a new listener is the last of the
sockets, and the streams are as they were. -/
theorem announced_of_steps {k : ℕ} (hlistener : v.protListener = some k)
    (hreceive : v.receive = some v₁) (hconnect : v₁.connect = some v₂)
    (hannounce : v₂.announce = some v₃) :
    v₃.point = .announced k ∧ v₃.protListener = some v.sockets.length ∧ v₃.streams = v.streams := by
  have hfirst : ∃ a, v₁.point = .received k a ∧ v₁.sockets.length = v.sockets.length ∧
      v₁.streams = v.streams := by
    unfold Server.receive at hreceive
    rw [hlistener] at hreceive
    split at hreceive
    · rename_i hat
      cases hat
      split at hreceive
      · cases hreceive
        exact ⟨_, rfl, List.length_modify _ _ _, rfl⟩
      · cases hreceive
    · cases hreceive
  obtain ⟨a, hpoint₁, hlength₁, hstreams₁⟩ := hfirst
  have hsecond : v₂.point = .connected k ∧ v₂.sockets.length = v.sockets.length ∧
      v₂.streams = v.streams := by
    unfold Server.connect at hconnect
    rw [hpoint₁] at hconnect
    cases hconnect
    exact ⟨rfl, (List.length_modify _ _ _).trans hlength₁, hstreams₁⟩
  obtain ⟨hpoint₂, hlength₂, hstreams₂⟩ := hsecond
  unfold Server.announce at hannounce
  rw [hpoint₂] at hannounce
  cases hannounce
  exact ⟨rfl, congrArg some hlength₂, hstreams₂⟩

/-- `iperf_udp_accept` in the loop does what the four steps of the handshake do, up to the
listening sockets when the last stream has come. -/
theorem accept_simulates {io : DatagramInput} {k : ℕ} (h : Simulates fd v s)
    (hlistener : v.protListener = some k) (hreceive : v.receive = some v₁)
    (hconnect : v₁.connect = some v₂) (hannounce : v₂.announce = some v₃)
    (hio : Succeeds (fd v.sockets.length) io) :
    ∃ s', (iperfUdpAccept io s).value = some (true, s') ∧ v₃.point = .announced k ∧
      Simulates fd (Server.added k v₃) s' := by
  obtain ⟨hpoint, hnext, hstreams⟩ := announced_of_steps hlistener hreceive hconnect hannounce
  have hold : s.test.protListener = fd k := by rw [h.listener, hlistener]; rfl
  have hsocket : (netannounce .stream io.announce).value = some (some (fd v.sockets.length)) := by
    unfold netannounce
    rw [hio.socket, hio.announce]
    rfl
  obtain ⟨test, htest⟩ : ∃ test, test = { watchListener (fd v.sockets.length) s.test with
    protListener := fd v.sockets.length } := ⟨_, rfl⟩
  obtain ⟨sp, hsp⟩ := Option.isSome_iff_exists.mp (hio.newStream test (fd k))
  have hkept : test.protocol = .udp ∧ test.streams = s.test.streams ∧
      test.protListener = (v₃.protListener.map fd).getD (-1) := by
    rw [htest, hnext]
    exact ⟨h.protocol, rfl, rfl⟩
  refine ⟨_, ?_, hpoint, h.added hkept.1 hkept.2.1 hkept.2.2 hstreams
    (ServerAccept.iperfNewStream_socket hsp)⟩
  unfold iperfUdpAccept
  rw [hio.arrival, Bool.not_true, if_neg Bool.false_ne_true, Traced.value_bind_of_some hsocket]
  dsimp only
  rw [hio.reply, Bool.not_true, if_neg Bool.false_ne_true, hold]
  unfold admitStream
  rw [ServerRun.test_withTest, ← htest]
  dsimp only
  rw [Traced.value_bind_of_some (Traced.value_emits _), hsp]
  rfl

/-- The listening sockets when the last stream has come. -/
theorem settle_simulates {n k : ℕ} (io : ListenIo) (h : Simulates fd v s)
    (hall : s.streamsAccepted = n) (hlistener : v.protListener = some k) :
    ∃ s', (settleListeners io s).value = some (true, s') ∧ Simulates fd (v.settle n) s' := by
  have hlength : v.streams.length = n := by
    have haccepted := h.accepted
    omega
  have hsettle : v.settle n = { v with
      sockets := v.sockets.modify k fun t => { t with live := false }, protListener := none } := by
    unfold Server.settle
    rw [hlistener]
    dsimp only
    rw [if_pos hlength]
  rw [hsettle]
  have hother : s.test.protocol ≠ .tcp := by
    rw [h.protocol]
    exact nofun
  unfold settleListeners
  rw [if_pos hother]
  exact ⟨_, rfl, h.protocol, rfl, h.sockets, h.ids, h.accepted⟩

/-- What the client sends on one of its streams is counted by the server's stream with the same
identifier. -/
theorem same_identifier [DecidableEq α] {address : ℕ → α} {n j : ℕ} {w : World α}
    (hpaired : Paired address n w) (h : Simulates fd w.server s)
    (hj : j < w.server.streams.length) :
    ∃ k sp, demux (address j) w.server.sockets = some k ∧ s.test.streams[j]? = some sp ∧
      sp.socket = fd k ∧ sp.id = positionId j := by
  have hlt : j < s.test.streams.length := h.length.symm ▸ hj
  have hsocket := congrArg (·[j]?) h.sockets
  have hid := congrArg (·[j]?) h.ids
  unfold positionIds at hid
  rw [List.getElem?_map, List.getElem?_map, List.getElem?_eq_getElem hlt,
    List.getElem?_eq_getElem hj] at hsocket
  rw [List.getElem?_map, List.getElem?_map, List.getElem?_eq_getElem hlt,
    List.getElem?_range hj] at hid
  refine ⟨w.server.streams[j], s.test.streams[j], ?_, List.getElem?_eq_getElem hlt,
    Option.some.inj hsocket, Option.some.inj hid⟩
  rw [hpaired.reaches j hj, List.getElem?_eq_getElem hj]

end IperfRuntime.StreamPairing
