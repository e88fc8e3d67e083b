import IperfRuntime.SocketIo
import IperfRuntime.ParameterLimits

/-!
# Connections to a server

`iperf_accept`, `iperf_tcp_accept` and the part of the server loop that hands a
connection to them. One listening socket serves control connections and streams; the
state of the test decides. The local buffer of `iperf_tcp_accept` is not initialised, so
what the stack holds in it is an input.
-/

namespace IperfRuntime.ServerAccept

open TestState StreamCreation ParameterLimits SocketIo

/-- A server with what its loop keeps besides the test. -/
structure Server where
  test : IperfTest
  cookie : List UInt8
  streamsAccepted : ℤ
  cookie_length : cookie.length = cookieSize

/-- A connection that has arrived. -/
structure Connection where
  socket : ℤ
  /-- The bytes its peer sends. -/
  sent : List UInt8
  reads : List ReadEvent
  writes : List WriteEvent
  /-- What the stack holds in the local cookie. -/
  stack : List UInt8
  newStream : NewStreamIo
  stack_length : stack.length = cookieSize

/-- How the loop comes out of a connection. -/
inductive Handled where
  /-- `iperf_run_server` returns minus one. -/
  | failed
  /-- A system call does not return. -/
  | blocked
  /-- A null pointer, or a comparison behind the end of its arrays. -/
  | undefined
  | served (s : Server)

/-- Whether `strcmp` finds two strings equal; `none` when it runs off both arrays. -/
def strcmp : List UInt8 → List UInt8 → Option Bool
  | a :: as, b :: bs => if a ≠ b then some false else if a = 0 then some true else strcmp as bs
  | _, _ => none

/-- Two buffers with one text: they agree up to a terminator in both. -/
def SameText (a b : List UInt8) : Prop :=
  ∃ text rest rest', 0 ∉ text ∧ a = text ++ 0 :: rest ∧ b = text ++ 0 :: rest'

/-- Two buffers that differ no later than where the first of their texts ends. -/
def DifferentText (a b : List UInt8) : Prop :=
  ∃ text x y rest rest', 0 ∉ text ∧ x ≠ y ∧ a = text ++ x :: rest ∧ b = text ++ y :: rest'

/-- A common beginning without a zero is passed over. -/
theorem strcmp_append {text : List UInt8} (h : 0 ∉ text) (a b : List UInt8) :
    strcmp (text ++ a) (text ++ b) = strcmp a b := by
  induction text with
  | nil => rfl
  | cons z text ih =>
    have hz : z ≠ 0 := fun hzero => h (by simp [hzero])
    have htext : (0 : UInt8) ∉ text := fun hmem => h (List.mem_cons_of_mem z hmem)
    rw [List.cons_append, List.cons_append, strcmp, if_neg (not_not.mpr rfl), if_neg hz]
    exact ih htext

/-- Where `strcmp` comes to its answer: behind a common text without zeros, at two different
bytes or at two zeros. -/
theorem strcmp_split {a b : List UInt8} {same : Bool} (h : strcmp a b = some same) :
    ∃ text x y rest rest', 0 ∉ text ∧ a = text ++ x :: rest ∧ b = text ++ y :: rest' ∧
      (same = true → x = 0 ∧ y = 0) ∧ (same = false → x ≠ y) := by
  induction a generalizing b with
  | nil => cases h
  | cons x as ih =>
    cases b with
    | nil => cases h
    | cons y bs =>
      rw [strcmp] at h
      by_cases hxy : x = y
      · subst hxy
        rw [if_neg (not_not.mpr rfl)] at h
        by_cases hx : x = 0
        · rw [if_pos hx] at h
          cases h
          exact ⟨[], x, x, as, bs, List.not_mem_nil, rfl, rfl, fun _ => ⟨hx, hx⟩,
            fun hfalse => (by cases hfalse)⟩
        · rw [if_neg hx] at h
          obtain ⟨text, u, v, rest, rest', htext, rfl, rfl, hends⟩ := ih h
          refine ⟨x :: text, u, v, rest, rest', ?_, rfl, rfl, hends⟩
          intro hmem
          rcases List.mem_cons.mp hmem with hzero | htail
          · exact hx hzero.symm
          · exact htext htail
      · rw [if_pos hxy] at h
        cases h
        exact ⟨[], x, y, as, bs, List.not_mem_nil, rfl, rfl, fun htrue => (by cases htrue),
          fun _ => hxy⟩

/-- `strcmp` finds two C strings equal exactly if they are the same text. -/
theorem strcmp_sameText_iff (a b : List UInt8) : strcmp a b = some true ↔ SameText a b := by
  constructor
  · intro h
    obtain ⟨text, x, y, rest, rest', htext, ha, hb, hzero, -⟩ := strcmp_split h
    obtain ⟨rfl, rfl⟩ := hzero rfl
    exact ⟨text, rest, rest', htext, ha, hb⟩
  · rintro ⟨text, rest, rest', htext, rfl, rfl⟩
    rw [strcmp_append htext]
    rfl

/-- It finds them different exactly if they differ within both blocks. -/
theorem strcmp_differentText_iff (a b : List UInt8) :
    strcmp a b = some false ↔ DifferentText a b := by
  constructor
  · intro h
    obtain ⟨text, x, y, rest, rest', htext, ha, hb, -, hne⟩ := strcmp_split h
    exact ⟨text, x, y, rest, rest', htext, hne rfl, ha, hb⟩
  · rintro ⟨text, x, y, rest, rest', htext, hne, rfl, rfl⟩
    rw [strcmp_append htext, strcmp, if_pos hne]

/-- `ACCESS_DENIED` and `close`. -/
def refuse (conn : Connection) (s : Server) : Handled :=
  match (nwrite conn.writes 1).outcome with
  | .returned => .served s
  | .blocked => .blocked
  | .softError => .failed
  | .hardError => .failed

/-- The calls of `iperf_accept` for a new client. -/
structure AcceptIo where
  /-- The write of the state byte. -/
  sendState : Bool
  exchange : ExchangeIo
  setAffinity : Bool

/-- What `Nread` leaves of a buffer of the size of a cookie. -/
def fillCookie (r : NetRead) (buffer : List UInt8) : List UInt8 :=
  r.bytes ++ buffer.drop r.bytes.length

/-- Reading into the cookie buffer keeps its size. -/
theorem length_fillCookie {events : List ReadEvent} {pending buffer : List UInt8}
    (h : buffer.length = cookieSize) :
    (fillCookie (nread events cookieSize pending) buffer).length = cookieSize := by
  have hle := nread_length_le events cookieSize pending
  unfold fillCookie
  rw [List.length_append, List.length_drop, h]
  omega

/-- `iperf_accept` behind `accept`. -/
def iperfAccept (platform : Platform) (io : AcceptIo) (conn : Connection) (s : Server) :
    Handled :=
  if s.test.ctrlSck = -1 then
    match (nread conn.reads cookieSize conn.sent).outcome with
    | .returned =>
      let test := { s.test with
        ctrlSck := conn.socket
        readSet := insert conn.socket s.test.readSet
        maxFd := max s.test.maxFd conn.socket
        state := .paramExchange }
      if !io.sendState then .failed
      else
        match exchangeParametersServer platform io.exchange test with
        | none => .undefined
        | some (false, _) => .failed
        | some (true, test) =>
          if test.serverAffinity ≠ -1 ∧ !io.setAffinity then .failed
          else .served { s with
            test := test
            cookie := fillCookie (nread conn.reads cookieSize conn.sent) s.cookie
            cookie_length := length_fillCookie s.cookie_length }
    | .blocked => .blocked
    | .softError => .failed
    | .hardError => .failed
  else refuse conn s

/-- The stream part of the server loop on an open descriptor. -/
def admitStream (conn : Connection) (s : Server) : Handled :=
  match (iperfNewStream s.test conn.newStream conn.socket).1 with
  | none => .failed
  | some sp => .served { s with
      test := watchSocket conn.socket (iperfAddStream sp s.test)
      streamsAccepted := s.streamsAccepted + 1 }

/-- `iperf_tcp_accept` with the code around it; a descriptor that was refused is closed,
which `is_closed` sees. -/
def iperfTcpAccept (conn : Connection) (s : Server) : Handled :=
  match (nread conn.reads cookieSize conn.sent).outcome with
  | .returned =>
    match strcmp s.cookie (fillCookie (nread conn.reads cookieSize conn.sent) conn.stack) with
    | none => .undefined
    | some false => refuse conn s
    | some true => admitStream conn s
  | .blocked => .blocked
  | .softError => .failed
  | .hardError => .failed

/-- A connection in the server loop; the streams of UDP come to another socket. -/
def serveListener (platform : Platform) (io : AcceptIo) (conn : Connection) (s : Server) :
    Handled :=
  if s.test.state ≠ .createStreams then iperfAccept platform io conn s
  else if s.test.protocol = .tcp then iperfTcpAccept conn s
  else .served s

/-- The server comes out of a connection as it went in, and goes on. -/
structure SameRun (s s' : Server) : Prop where
  state : s'.test.state = s.test.state
  ctrlSck : s'.test.ctrlSck = s.test.ctrlSck
  cookie : s'.cookie = s.cookie
  streams : s'.test.streams = s.test.streams
  bytesSent : s'.test.bytesSent = s.test.bytesSent
  blocksSent : s'.test.blocksSent = s.test.blocksSent
  streamsAccepted : s'.streamsAccepted = s.streamsAccepted

/-- A connection leaves the running test alone. A call that does not return changes
nothing. -/
def Undisturbed (s : Server) : Handled → Prop
  | .failed => False
  | .blocked => True
  | .undefined => False
  | .served s' => SameRun s s'

/-- The socket takes the byte of a refusal, is full, or lets the server wait. -/
def Refusable (conn : Connection) : Prop :=
  ∀ (e : WriteEvent), conn.writes.head? = some e → e ≠ .zero ∧ e ≠ .noBuffers ∧ e ≠ .failed

/-- The buffer that `iperf_tcp_accept` compares: the bytes it read, and behind them what
the stack held. -/
def judged (conn : Connection) : List UInt8 :=
  fillCookie (nread conn.reads cookieSize conn.sent) conn.stack

/-- A connection that the server gets rid of. While it creates the streams of a TCP test,
its reads do not fail, and unless they wait it has another cookie; it is told so in every
other state. -/
def Harmless (conn : Connection) (s : Server) : Prop :=
  if s.test.state ≠ .createStreams then Refusable conn
  else s.test.protocol = .tcp →
    (nread conn.reads cookieSize conn.sent).outcome ≠ .hardError ∧
      ((nread conn.reads cookieSize conn.sent).outcome = .returned →
        DifferentText s.cookie (judged conn) ∧ Refusable conn)

/-- A server has the run it has. -/
theorem sameRun_refl (s : Server) : SameRun s s := ⟨rfl, rfl, rfl, rfl, rfl, rfl, rfl⟩

/-- A refusal leaves the run alone exactly if its byte can be written. -/
theorem refuse_undisturbed_iff (conn : Connection) (s : Server) :
    Undisturbed s (refuse conn s) ↔ Refusable conn := by
  unfold refuse Refusable
  cases hwrites : conn.writes with
  | nil => simp [nwrite, nwriteLoop, Undisturbed]
  | cons e events =>
    cases e with
    | data more => simp [nwrite, nwriteLoop, Undisturbed, sameRun_refl]
    | zero => simp [nwrite, nwriteLoop, Undisturbed]
    | interrupted => simp [nwrite, nwriteLoop, Undisturbed, sameRun_refl]
    | noBuffers => simp [nwrite, nwriteLoop, Undisturbed]
    | failed => simp [nwrite, nwriteLoop, Undisturbed]

/-- A refusal ends in one of three ways. -/
theorem refuse_cases (conn : Connection) (s : Server) :
    refuse conn s = .served s ∨ refuse conn s = .blocked ∨ refuse conn s = .failed := by
  unfold refuse
  cases (nwrite conn.writes 1).outcome with
  | returned => exact Or.inl rfl
  | blocked => exact Or.inr (Or.inl rfl)
  | softError => exact Or.inr (Or.inr rfl)
  | hardError => exact Or.inr (Or.inr rfl)

/-- What the server has once a stream is let in. -/
theorem admitStream_spec {conn : Connection} {s : Server} {sp : IperfStream}
    (h : (iperfNewStream s.test conn.newStream conn.socket).1 = some sp) :
    ∃ s', admitStream conn s = .served s' ∧ s'.streamsAccepted = s.streamsAccepted + 1 ∧
      s'.test.streams = s.test.streams ++
        [{ sp with id := if s.test.streams.isEmpty then 1 else s.test.streams.length + 2 }] := by
  unfold admitStream
  rw [h]
  exact ⟨_, rfl, rfl, rfl⟩

/-- Admitting a stream is never without effect on the run. -/
theorem admitStream_disturbs (conn : Connection) (s : Server) :
    ¬Undisturbed s (admitStream conn s) := by
  cases hnew : (iperfNewStream s.test conn.newStream conn.socket).1 with
  | none =>
    have hfailed : admitStream conn s = .failed := by
      unfold admitStream
      rw [hnew]
    rw [hfailed]
    exact fun h => h
  | some sp =>
    obtain ⟨s', hserved, haccepted, -⟩ := admitStream_spec hnew
    rw [hserved]
    intro h
    have hsame : s'.streamsAccepted = s.streamsAccepted := h.streamsAccepted
    omega

/-- `iperf_tcp_accept` on a connection that is read without an error. -/
theorem iperfTcpAccept_returned {conn : Connection} {s : Server}
    (h : (nread conn.reads cookieSize conn.sent).outcome = .returned) :
    iperfTcpAccept conn s =
      match strcmp s.cookie (judged conn) with
      | none => .undefined
      | some false => refuse conn s
      | some true => admitStream conn s := by
  unfold iperfTcpAccept judged
  rw [h]

/-- A connection in `iperf_tcp_accept` leaves the test alone exactly when it is read
without an error, has another cookie and can be told so. -/
theorem iperfTcpAccept_undisturbed_iff (conn : Connection) (s : Server) :
    Undisturbed s (iperfTcpAccept conn s) ↔
      (nread conn.reads cookieSize conn.sent).outcome ≠ .hardError ∧
        ((nread conn.reads cookieSize conn.sent).outcome = .returned →
          DifferentText s.cookie (judged conn) ∧ Refusable conn) := by
  cases hread : (nread conn.reads cookieSize conn.sent).outcome with
  | returned =>
    rw [iperfTcpAccept_returned hread, ← strcmp_differentText_iff]
    cases strcmp s.cookie (judged conn) with
    | none => simp [Undisturbed]
    | some same =>
      cases same with
      | false =>
        have hrefuse := refuse_undisturbed_iff conn s
        simp [hrefuse]
      | true =>
        have hentry := admitStream_disturbs conn s
        simp [hentry]
  | softError => exact absurd hread (nread_outcome _ _ _)
  | hardError => simp [iperfTcpAccept, hread, Undisturbed]
  | blocked => simp [iperfTcpAccept, hread, Undisturbed]

/-- Another peer leaves a running test alone exactly when the server gets rid of it
without an error. -/
theorem thirdParty_undisturbed_iff (platform : Platform) (io : AcceptIo) (conn : Connection)
    {s : Server} (h : s.test.ctrlSck ≠ -1) :
    Undisturbed s (serveListener platform io conn s) ↔ Harmless conn s := by
  unfold serveListener Harmless
  by_cases hstate : s.test.state = .createStreams
  · rw [if_neg (not_not.mpr hstate), if_neg (not_not.mpr hstate)]
    by_cases hprotocol : s.test.protocol = .tcp
    · have haccept := iperfTcpAccept_undisturbed_iff conn s
      simp only [hprotocol, forall_const]
      exact haccept
    · simp [hprotocol, Undisturbed, sameRun_refl]
  · rw [if_pos hstate, if_pos hstate]
    have haccept : iperfAccept platform io conn s = refuse conn s := by
      unfold iperfAccept
      rw [if_neg h]
    rw [haccept]
    exact refuse_undisturbed_iff conn s

/-- A cookie as `make_cookie` writes it. -/
def currentCookie : List UInt8 := List.replicate 36 97 ++ [0]

/-- A server in the middle of a test. -/
def runningServer (state : StateByte) : Server where
  test := { ctrlSck := 5, state := state, listener := 3 }
  cookie := currentCookie
  streamsAccepted := 0
  cookie_length := rfl

/-- A peer that sends the given bytes and closes its side. -/
def stranger (sent : List UInt8) (writes : List WriteEvent) : Connection where
  socket := 9
  sent := sent
  reads := [.data 36, .eof]
  writes := writes
  stack := currentCookie
  newStream := plainNewStream
  stack_length := rfl

/-- The calls of `iperf_accept` on which nothing fails. -/
def plainAccept : AcceptIo := ⟨true, plainExchange ordinaryMessage, true⟩

/-- A peer that resets its connection before it is refused ends a running test, as the failed
write is handed up to the loop of the server. -/
theorem reset_ends_test :
    ¬∀ (platform : Platform) (io : AcceptIo) (conn : Connection) (s : Server),
      s.test.ctrlSck ≠ -1 → Undisturbed s (serveListener platform io conn s) := by
  intro h
  exact h plainPlatform plainAccept (stranger [] [.failed]) (runningServer .testRunning) (by decide)

/-- A stranger who reads the refusal does not disturb a running test. -/
theorem politeStranger_undisturbed :
    (runningServer .testRunning).test.ctrlSck ≠ -1 ∧
      (Undisturbed (runningServer .testRunning)
          (serveListener plainPlatform plainAccept (stranger [1, 2] [.data 0])
            (runningServer .testRunning)) ↔
        Harmless (stranger [1, 2] [.data 0]) (runningServer .testRunning)) :=
  ⟨by decide, thirdParty_undisturbed_iff plainPlatform plainAccept (stranger [1, 2] [.data 0])
    (by decide)⟩

/-- A connection has become a stream of the test and is counted. -/
def Admitted (conn : Connection) (s : Server) (handled : Handled) : Prop :=
  ∃ s' sp, handled = .served s' ∧ sp.socket = conn.socket ∧
    s'.test.streams = s.test.streams ++ [sp] ∧ s'.streamsAccepted = s.streamsAccepted + 1

/-- A peer delivers the cookie of the test. -/
def Delivered (conn : Connection) (s : Server) : Prop := conn.sent.take cookieSize = s.cookie

instance (conn : Connection) (s : Server) : Decidable (Delivered conn s) :=
  inferInstanceAs (Decidable (conn.sent.take cookieSize = s.cookie))

/-- `iperf_new_stream` gets its buffer, its files and its socket options. -/
def Creatable (conn : Connection) (s : Server) : Prop :=
  (iperfNewStream s.test conn.newStream conn.socket).1.isSome = true

/-- The comparison comes out as the delivered bytes demand. A cookie that was delivered has
a terminator, and neither the reads nor the new stream fail; one that was not differs from
the buffer. -/
def FairlyJudged (conn : Connection) (s : Server) : Prop :=
  if Delivered conn s then
    (nread conn.reads cookieSize conn.sent).outcome = .returned ∧
      SameText s.cookie (judged conn) ∧ Creatable conn s
  else
    (nread conn.reads cookieSize conn.sent).outcome = .returned → Creatable conn s →
      ¬SameText s.cookie (judged conn)

/-- The stream that is made has the socket it was made for. -/
theorem iperfNewStream_socket {test : IperfTest} {io : NewStreamIo} {s : ℤ} {sp : IperfStream}
    (h : (iperfNewStream test io s).1 = some sp) : sp.socket = s := by
  unfold iperfNewStream at h
  split at h
  · dsimp only at h
    split at h
    · cases h
    · split at h
      · split at h
        · cases h
        · split at h
          · cases h
            rfl
          · cases h
      · split at h
        · cases h
          rfl
        · cases h
  · cases h

/-- A refusal admits no stream. -/
theorem refuse_admits_none (conn : Connection) (s : Server) :
    ¬Admitted conn s (refuse conn s) := by
  rintro ⟨s', sp, hserved, -, -, haccepted⟩
  rcases refuse_cases conn s with hsame | hblocked | hfailed
  · rw [hsame] at hserved
    cases hserved
    omega
  · rw [hblocked] at hserved
    cases hserved
  · rw [hfailed] at hserved
    cases hserved

/-- The admission succeeds exactly if the stream can be created. -/
theorem admitStream_admits_iff (conn : Connection) (s : Server) :
    Admitted conn s (admitStream conn s) ↔ Creatable conn s := by
  unfold Creatable
  cases hnew : (iperfNewStream s.test conn.newStream conn.socket).1 with
  | none =>
    have hfailed : admitStream conn s = .failed := by
      unfold admitStream
      rw [hnew]
    rw [hfailed]
    simp [Admitted]
  | some sp =>
    obtain ⟨s', hserved, haccepted, hstreams⟩ := admitStream_spec hnew
    have hsocket : sp.socket = conn.socket := iperfNewStream_socket hnew
    simp only [Option.isSome_some, iff_true]
    exact ⟨s', { sp with
      id := if s.test.streams.isEmpty then 1 else s.test.streams.length + 2 },
      hserved, hsocket, hstreams, haccepted⟩

/-- A connection becomes a stream when the buffer holds the text of the cookie and the
stream can be made. -/
theorem iperfTcpAccept_admits_iff (conn : Connection) (s : Server) :
    Admitted conn s (iperfTcpAccept conn s) ↔
      (nread conn.reads cookieSize conn.sent).outcome = .returned ∧
        SameText s.cookie (judged conn) ∧ Creatable conn s := by
  cases hread : (nread conn.reads cookieSize conn.sent).outcome with
  | returned =>
    rw [iperfTcpAccept_returned hread, ← strcmp_sameText_iff]
    cases strcmp s.cookie (judged conn) with
    | none => simp [Admitted]
    | some same =>
      cases same with
      | false =>
        have hrefuse := refuse_admits_none conn s
        simp [hrefuse]
      | true =>
        have hentry := admitStream_admits_iff conn s
        simp [hentry]
  | softError => exact absurd hread (nread_outcome _ _ _)
  | hardError => simp [iperfTcpAccept, hread, Admitted]
  | blocked => simp [iperfTcpAccept, hread, Admitted]

/-- Delivering the cookie and becoming a stream are the same exactly when the comparison is
not misled. -/
theorem admitted_iff_delivered_iff (platform : Platform) (io : AcceptIo) (conn : Connection)
    {s : Server} (hstate : s.test.state = .createStreams) (hprotocol : s.test.protocol = .tcp) :
    (Admitted conn s (serveListener platform io conn s) ↔ Delivered conn s) ↔
      FairlyJudged conn s := by
  have haccept : serveListener platform io conn s = iperfTcpAccept conn s := by
    unfold serveListener
    rw [if_neg (not_not.mpr hstate), if_pos hprotocol]
  rw [haccept, iperfTcpAccept_admits_iff]
  unfold FairlyJudged
  by_cases hdelivered : Delivered conn s
  · rw [if_pos hdelivered]
    simp [hdelivered]
  · rw [if_neg hdelivered]
    constructor
    · intro h hread hnew hsame
      exact hdelivered (h.mp ⟨hread, hsame, hnew⟩)
    · intro h
      constructor
      · rintro ⟨hread, hsame, hnew⟩
        exact absurd hsame (h hread hnew)
      · intro hd
        exact absurd hd hdelivered

/-- A peer that closes without a byte becomes a stream when the stack still holds the
cookie of an earlier connection. -/
theorem silentPeer_admitted :
    ¬∀ (platform : Platform) (io : AcceptIo) (conn : Connection) (s : Server),
      s.test.state = .createStreams → s.test.protocol = .tcp →
        (Admitted conn s (serveListener platform io conn s) ↔ Delivered conn s) := by
  intro h
  have hdelivered : Delivered (stranger [] []) (runningServer .createStreams) :=
    (h plainPlatform plainAccept (stranger [] []) (runningServer .createStreams) rfl rfl).mp
      ⟨_, _, rfl, rfl, rfl, rfl⟩
  exact absurd hdelivered (by decide)

/-- A member of the test with the right cookie is admitted. -/
theorem member_admitted :
    (runningServer .createStreams).test.state = .createStreams ∧
      (runningServer .createStreams).test.protocol = .tcp ∧
      ((Admitted (stranger currentCookie []) (runningServer .createStreams)
            (serveListener plainPlatform plainAccept (stranger currentCookie [])
              (runningServer .createStreams)) ↔
          Delivered (stranger currentCookie []) (runningServer .createStreams)) ↔
        FairlyJudged (stranger currentCookie []) (runningServer .createStreams)) :=
  ⟨rfl, rfl,
    admitted_iff_delivered_iff plainPlatform plainAccept (stranger currentCookie []) rfl rfl⟩

end IperfRuntime.ServerAccept
