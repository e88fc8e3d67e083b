import IperfRuntime.DatagramSockets
import IperfRuntime.PartialSteps

/-!
# How UDP streams find each other

`iperf_udp_connect` on the client, `iperf_udp_accept` with the code around it on the server, and
between them a network that loses, repeats and reorders datagrams. The server turns the socket
that a greeting reaches into the stream, and answers when the next socket listens. The system
calls of both ends succeed: a failed `recvfrom`, `connect` or `netannounce`, which ends the run
of either program, is not modelled, and nobody else sends to the port of the server.
-/

namespace IperfRuntime.UdpHandshake

open DatagramSockets PartialSteps

/-- Where `iperf_udp_accept` stands. -/
inductive AcceptPoint (α : Type*) where
  | outside
  /-- Behind `recvfrom`. -/
  | received (s : ℕ) (peer : α)
  /-- Behind `connect`. -/
  | connected (s : ℕ)
  /-- Behind `netannounce`. -/
  | announced (s : ℕ)

/-- The server in `CREATE_STREAMS`. -/
structure Server (α : Type*) where
  /-- The sockets on the port, in the order of their creation. -/
  sockets : List (Socket α) := [{}]
  /-- `prot_listener`. -/
  protListener : Option ℕ := some 0
  point : AcceptPoint α := .outside
  /-- The sockets of the streams. -/
  streams : List ℕ := []

/-- The client in `iperf_create_streams`. -/
structure Client where
  /-- How many datagrams wait at each of its sockets. -/
  inbox : List ℕ := []
  /-- The streams that stand. -/
  streams : ℕ := 0
  /-- Whether it is in the `recv` of `iperf_udp_connect`. -/
  waiting : Bool := false
  /-- Whether a call has failed, as `recv` does after thirty seconds. -/
  failed : Bool := false

/-- A datagram on its way, with the client's address. -/
inductive Datagram (α : Type*) where
  | hello (source : α)
  | reply (destination : α)

/-- Both ends and the network. -/
structure World (α : Type*) where
  client : Client := {}
  server : Server α := {}
  flight : List (Datagram α) := []
  /-- Whether a datagram has met no socket. -/
  refused : Bool := false

/-- What happens next. -/
inductive Event where
  | clientDials
  | clientReceives
  | clientFails
  | serverReceives
  | serverConnects
  | serverAnnounces
  | serverReplies
  | deliver (k : ℕ)
  | lose (k : ℕ)
  | duplicate (k : ℕ)
  deriving DecidableEq

/-- `iperf_udp_connect` up to the greeting. -/
def Client.dial (numStreams : ℕ) (c : Client) : Option Client :=
  if c.failed || c.waiting || c.streams == numStreams then none
  else some { c with inbox := c.inbox ++ [0], waiting := true }

/-- The answer that `recv` waits for, and `iperf_new_stream`. -/
def Client.receive (c : Client) : Option Client :=
  if c.failed || !c.waiting then none
  else match c.inbox[c.streams]? with
    | some (k + 1) => some { c with
        inbox := c.inbox.set c.streams k, waiting := false, streams := c.streams + 1 }
    | _ => none

variable {α : Type*}

/-- `recvfrom`. -/
def Server.receive (v : Server α) : Option (Server α) :=
  match v.point, v.protListener with
  | .outside, some s =>
    match v.sockets[s]? with
    | some ⟨_, a :: queue, _⟩ => some { v with
        sockets := v.sockets.modify s fun t => { t with queue := queue }, point := .received s a }
    | _ => none
  | _, _ => none

/-- `connect`. -/
def Server.connect (v : Server α) : Option (Server α) :=
  match v.point with
  | .received s a => some { v with
      sockets := v.sockets.modify s fun t => { t with peer := some a }, point := .connected s }
  | _ => none

/-- The socket that takes the place of the one that is a stream now. -/
def Server.announce (v : Server α) : Option (Server α) :=
  match v.point with
  | .connected s => some { v with
      sockets := v.sockets ++ [{}], protListener := some v.sockets.length, point := .announced s }
  | _ => none

/-- The end of the listening socket, when all streams stand. -/
def Server.settle (numStreams : ℕ) (v : Server α) : Server α :=
  match v.protListener with
  | some s =>
    if v.streams.length = numStreams then { v with
      sockets := v.sockets.modify s fun t => { t with live := false }, protListener := none }
    else v
  | none => v

/-- The answer, with the address that it goes to, and the code behind `iperf_udp_accept`. -/
def Server.reply (numStreams : ℕ) (v : Server α) : Option (Server α × α) :=
  match v.point with
  | .announced s =>
    (v.sockets[s]?.bind Socket.peer).map fun a =>
      (({ v with streams := v.streams ++ [s], point := .outside } : Server α).settle numStreams, a)
  | _ => none

/-- The addresses that the server's streams are connected to. -/
def Server.peers (v : Server α) : List (Option α) :=
  v.streams.map fun s => v.sockets[s]?.bind Socket.peer

section

variable [DecidableEq α]

/-- A datagram that arrives; the client's sockets have the given addresses. -/
def arrive (address : ℕ → α) (d : Datagram α) (w : World α) : World α :=
  match d with
  | .hello a =>
    match DatagramSockets.deliver a w.server.sockets with
    | some sockets => { w with server := { w.server with sockets := sockets } }
    | none => { w with refused := true }
  | .reply a =>
    match (List.range w.client.inbox.length).find? fun j => address j = a with
    | some j => { w with client := { w.client with inbox := w.client.inbox.modify j (· + 1) } }
    | none => { w with refused := true }

/-- One step of the whole. -/
def step (address : ℕ → α) (numStreams : ℕ) (w : World α) : Event → Option (World α)
  | .clientDials => (w.client.dial numStreams).map fun c =>
    { w with client := c, flight := w.flight ++ [.hello (address w.client.inbox.length)] }
  | .clientReceives => w.client.receive.map fun c => { w with client := c }
  | .clientFails => some { w with client := { w.client with failed := true } }
  | .serverReceives => w.server.receive.map fun v => { w with server := v }
  | .serverConnects => w.server.connect.map fun v => { w with server := v }
  | .serverAnnounces => w.server.announce.map fun v => { w with server := v }
  | .serverReplies => (w.server.reply numStreams).map fun r =>
    { w with server := r.1, flight := w.flight ++ [.reply r.2] }
  | .deliver k => w.flight[k]?.map fun d =>
    arrive address d { w with flight := w.flight.eraseIdx k }
  | .lose k => w.flight[k]?.map fun _ => { w with flight := w.flight.eraseIdx k }
  | .duplicate k => w.flight[k]?.map fun d => { w with flight := w.flight ++ [d] }

end

/-- A socket that is connected to an address, with datagrams from there only. -/
structure Serves (a : α) (s : Socket α) : Prop where
  peer : s.peer = some a
  live : s.live = true
  queue : ∀ b ∈ s.queue, b = a

/-- The sockets of the streams. -/
def Front (address : ℕ → α) (front : List (Socket α)) : Prop :=
  ∀ j s, front[j]? = some s → Serves (address j) s

/-- The sockets behind those of the streams, when the client has dialed so many times and so
many streams stand. -/
inductive Shape (address : ℕ → α) (n dialed streams : ℕ) :
    List (Socket α) → Option ℕ → AcceptPoint α → Prop
  | listening {queue : List α} (hqueue : ∀ a ∈ queue, a = address streams ∧ streams < dialed)
    (hn : streams < n) :
    Shape address n dialed streams [⟨none, queue, true⟩] (some streams) .outside
  | received {queue : List α} (hqueue : ∀ a ∈ queue, a = address streams) (h : streams < dialed) :
    Shape address n dialed streams [⟨none, queue, true⟩] (some streams)
      (.received streams (address streams))
  | connected {s : Socket α} (hs : Serves (address streams) s) (h : streams < dialed) :
    Shape address n dialed streams [s] (some streams) (.connected streams)
  | announced {s : Socket α} (hs : Serves (address streams) s) (h : streams < dialed) :
    Shape address n dialed streams [s, {}] (some (streams + 1)) (.announced streams)
  | closed (hn : streams = n) :
    Shape address n dialed streams [⟨none, [], false⟩] none .outside

/-- What the server keeps. -/
structure ServerInvariant (address : ℕ → α) (n dialed : ℕ) (v : Server α) : Prop where
  streams : v.streams = List.range v.streams.length
  behind : v.streams.length ≤ dialed
  sockets : ∃ front rest, v.sockets = front ++ rest ∧ front.length = v.streams.length ∧
    Front address front ∧
    Shape address n dialed v.streams.length rest v.protListener v.point

/-- What both ends and the network keep. -/
structure Invariant (address : ℕ → α) (n : ℕ) (w : World α) : Prop where
  dialed : w.client.inbox.length = w.client.streams + if w.client.waiting then 1 else 0
  enough : w.client.inbox.length ≤ n
  server : ServerInvariant address n w.client.inbox.length w.server
  ahead : w.client.streams ≤ w.server.streams.length
  hellos : ∀ a, .hello a ∈ w.flight → ∃ j < w.client.inbox.length, a = address j
  replies : ∀ a, .reply a ∈ w.flight → ∃ j < w.server.streams.length, a = address j
  inbox : ∀ j k, w.client.inbox[j]? = some (k + 1) → j < w.server.streams.length
  welcome : w.refused = false

variable {address : ℕ → α} {n dialed i j : ℕ} {v v' : Server α} {w w' : World α}
  {front rest : List (Socket α)} {s : Socket α} {a : α}

/-- A socket keeps serving its stream when a datagram is queued. -/
theorem Serves.push (h : Serves a s) : Serves a (s.push a) where
  peer := h.peer
  live := h.live
  queue := by
    intro b hb
    rcases List.mem_append.mp hb with hb | hb
    · exact h.queue b hb
    · exact List.mem_singleton.mp hb

/-- It does not listen. -/
theorem Serves.listens (h : Serves a s) : s.listens = false := by
  unfold Socket.listens
  rw [h.peer, Option.isNone_some, Bool.and_false]

/-- A further socket for the next stream extends the row of those that serve. -/
theorem Front.append (h : Front address front) (hs : Serves (address front.length) s) :
    Front address (front ++ [s]) := by
  intro j t ht
  rw [List.getElem?_append] at ht
  split at ht
  · exact h j t ht
  · have hlt := (List.getElem?_eq_some_iff.mp ht).1
    rw [List.length_singleton] at hlt
    obtain rfl : j = front.length := by omega
    rw [Nat.sub_self] at ht
    cases ht
    exact hs

/-- A datagram for one of them leaves the row in place. -/
theorem Front.push (h : Front address front) (j : ℕ) :
    Front address (front.modify j (Socket.push (address j))) := by
  intro i t ht
  rw [List.getElem?_modify] at ht
  obtain ⟨u, hu, rfl⟩ := Option.map_eq_some_iff.mp ht
  split
  · rename_i hji
    rw [hji]
    exact (h i u hu).push
  · exact h i u hu

/-- None of them listens. -/
theorem Front.none_listens (h : Front address front) : ∀ t ∈ front, t.listens = false := by
  intro t ht
  obtain ⟨i, hi⟩ := List.mem_iff_getElem?.mp ht
  exact (h i t hi).listens

/-- The listener takes the first datagram of its queue. -/
theorem receive_eq (front : List (Socket α)) (a : α) (queue : List α) (streams : List ℕ) :
    (⟨front ++ [⟨none, a :: queue, true⟩], some front.length, .outside, streams⟩ :
      Server α).receive =
      some ⟨front ++ [⟨none, queue, true⟩], some front.length, .received front.length a,
          streams⟩ := by
  unfold Server.receive
  dsimp only
  rw [getElem?_behind]
  dsimp only
  rw [modify_middle]

/-- It is then connected to the sender of that datagram. -/
theorem connect_eq (front : List (Socket α)) (s : Socket α) (p : Option ℕ) (a : α)
    (streams : List ℕ) :
    (⟨front ++ [s], p, .received front.length a, streams⟩ : Server α).connect =
      some ⟨front ++ [{ s with peer := some a }], p, .connected front.length, streams⟩ := by
  unfold Server.connect
  dsimp only
  rw [modify_middle]

/-- The reply makes it a stream, and the last stream of the test closes the handshake. -/
theorem reply_eq (front : List (Socket α)) (hs : s.peer = some a) (streams : List ℕ) :
    (⟨front ++ [s, {}], some (front.length + 1), .announced front.length, streams⟩ :
        Server α).reply n =
      some (if (streams ++ [front.length]).length = n then
          ⟨front ++ [s, ⟨none, [], false⟩], none, .outside, streams ++ [front.length]⟩
        else ⟨front ++ [s, {}], some (front.length + 1), .outside,
            streams ++ [front.length]⟩, a) := by
  have hclose : (front ++ [s, {}]).modify (front.length + 1) (fun t => { t with live := false }) =
      front ++ [s, ⟨none, [], false⟩] := by
    have hbehind := modify_middle (fun t => { t with live := false }) (front ++ [s]) [] {}
    rw [List.length_append, List.length_singleton, List.append_assoc, List.append_assoc] at hbehind
    exact hbehind
  unfold Server.reply
  dsimp only
  rw [getElem?_behind, Option.bind_some, hs, Option.map_some]
  unfold Server.settle
  dsimp only
  rw [hclose]

/-- `recvfrom` takes the greeting of the next stream, as the others are connected already and
get what is repeated. -/
theorem ServerInvariant.receive (h : ServerInvariant address n dialed v)
    (hv : v.receive = some v') : ServerInvariant address n dialed v' ∧ v'.streams = v.streams := by
  obtain ⟨sockets, p, q, streams⟩ := v
  obtain ⟨hstreams, hbehind, front, rest, rfl, hlength, hfront, hshape⟩ := h
  dsimp only at hstreams hbehind hlength hshape
  rw [← hlength] at hshape
  cases hshape with
  | @listening queue hqueue hlt =>
    cases queue with
    | nil =>
      unfold Server.receive at hv
      dsimp only at hv
      rw [getElem?_behind] at hv
      cases hv
    | cons a queue =>
      rw [receive_eq] at hv
      cases hv
      obtain ⟨ha, hdialed⟩ := hqueue a List.mem_cons_self
      rw [ha]
      refine ⟨⟨hstreams, hbehind, front, _, rfl, hlength, hfront, ?_⟩, rfl⟩
      rw [← hlength]
      exact Shape.received (fun b hb => (hqueue b (List.mem_cons_of_mem _ hb)).1) hdialed
  | received _ _ => cases hv
  | connected _ _ => cases hv
  | announced _ _ => cases hv
  | closed _ => cases hv

/-- `connect` makes the socket the one of the next stream. -/
theorem ServerInvariant.connect (h : ServerInvariant address n dialed v)
    (hv : v.connect = some v') : ServerInvariant address n dialed v' ∧ v'.streams = v.streams := by
  obtain ⟨sockets, p, q, streams⟩ := v
  obtain ⟨hstreams, hbehind, front, rest, rfl, hlength, hfront, hshape⟩ := h
  dsimp only at hstreams hbehind hlength hshape
  rw [← hlength] at hshape
  cases hshape with
  | received hqueue hdialed =>
    rw [connect_eq] at hv
    cases hv
    refine ⟨⟨hstreams, hbehind, front, _, rfl, hlength, hfront, ?_⟩, rfl⟩
    rw [← hlength]
    exact Shape.connected ⟨rfl, rfl, hqueue⟩ hdialed
  | listening _ _ => cases hv
  | connected _ _ => cases hv
  | announced _ _ => cases hv
  | closed _ => cases hv

/-- The next listening socket stands behind it. -/
theorem ServerInvariant.announce (h : ServerInvariant address n dialed v)
    (hv : v.announce = some v') : ServerInvariant address n dialed v' ∧ v'.streams = v.streams := by
  obtain ⟨sockets, p, q, streams⟩ := v
  obtain ⟨hstreams, hbehind, front, rest, rfl, hlength, hfront, hshape⟩ := h
  dsimp only at hstreams hbehind hlength hshape
  rw [← hlength] at hshape
  cases hshape with
  | @connected s hs hdialed =>
    cases hv
    refine ⟨⟨hstreams, hbehind, front, [s, {}], ?_, hlength, hfront, ?_⟩, rfl⟩
    · rw [List.append_assoc]
      rfl
    · rw [List.length_append, List.length_singleton, ← hlength]
      exact Shape.announced hs hdialed
  | listening _ _ => cases hv
  | received _ _ => cases hv
  | announced _ _ => cases hv
  | closed _ => cases hv

/-- The answer goes to the address of the stream that is added, and the last stream leaves no
listener behind. -/
theorem ServerInvariant.reply (h : ServerInvariant address n dialed v) (hn : dialed ≤ n)
    (hv : v.reply n = some (v', a)) : ServerInvariant address n dialed v' ∧
      v'.streams.length = v.streams.length + 1 ∧ a = address v.streams.length := by
  obtain ⟨sockets, p, q, streams⟩ := v
  obtain ⟨hstreams, hbehind, front, rest, rfl, hlength, hfront, hshape⟩ := h
  dsimp only at hstreams hbehind hlength hshape
  rw [← hlength] at hshape
  cases hshape with
  | @announced s hs hdialed =>
    rw [reply_eq front hs.peer] at hv
    obtain ⟨hv, ha⟩ := Prod.mk.inj (Option.some.inj hv)
    have hgrown : (streams ++ [front.length]).length = streams.length + 1 := by
      rw [List.length_append, List.length_singleton]
    have hrange : streams ++ [front.length] = List.range (streams ++ [front.length]).length := by
      rw [hgrown, List.range_succ, ← hstreams, hlength]
    have hlength' : (front ++ [s]).length = (streams ++ [front.length]).length := by
      rw [List.length_append, List.length_singleton, hgrown, hlength]
    have hkeeps : ∀ {t : Socket α} {p : Option ℕ},
        Shape address n dialed (front ++ [s]).length [t] p .outside →
        ServerInvariant address n dialed
          ⟨front ++ [s, t], p, .outside, streams ++ [front.length]⟩ := by
      intro t p ht
      rw [hlength'] at ht
      refine ⟨hrange, ?_, front ++ [s], [t], ?_, hlength', hfront.append hs, ht⟩
      · rw [← hlength', List.length_append, List.length_singleton]
        exact hdialed
      · rw [List.append_assoc]
        rfl
    rw [← hlength, ← hv]
    refine ⟨?_, ?_, ha.symm⟩
    · split
      · rename_i hall
        exact hkeeps (Shape.closed (hlength'.trans hall))
      · rename_i hmore
        have hlistening : Shape address n dialed (front ++ [s]).length [{}]
            (some (front ++ [s]).length) .outside := by
          refine Shape.listening (fun b hb => absurd hb List.not_mem_nil) ?_
          rw [← hlength', List.length_append, List.length_singleton] at hmore
          rw [List.length_append, List.length_singleton]
          omega
        rw [List.length_append, List.length_singleton] at hlistening
        refine hkeeps ?_
        rw [List.length_append, List.length_singleton]
        exact hlistening
    · split
      · rw [hgrown, hlength]
      · rw [hgrown, hlength]
  | listening _ _ => cases hv
  | received _ _ => cases hv
  | connected _ _ => cases hv
  | closed _ => cases hv

/-- The shape stays right when more streams of the client have dialled. -/
theorem Shape.mono {dialed' streams : ℕ} {p : Option ℕ} {q : AcceptPoint α}
    (h : Shape address n dialed streams rest p q) (hle : dialed ≤ dialed') :
    Shape address n dialed' streams rest p q := by
  cases h with
  | listening hqueue hlt =>
    refine Shape.listening (fun a ha => ?_) hlt
    obtain ⟨haddr, hdialed⟩ := hqueue a ha
    exact ⟨haddr, Nat.lt_of_lt_of_le hdialed hle⟩
  | received hqueue hlt => exact Shape.received hqueue (Nat.lt_of_lt_of_le hlt hle)
  | connected hs hlt => exact Shape.connected hs (Nat.lt_of_lt_of_le hlt hle)
  | announced hs hlt => exact Shape.announced hs (Nat.lt_of_lt_of_le hlt hle)
  | closed hall => exact Shape.closed hall

/-- More greetings do not disturb the server. -/
theorem ServerInvariant.mono {dialed' : ℕ} (h : ServerInvariant address n dialed v)
    (hle : dialed ≤ dialed') : ServerInvariant address n dialed' v := by
  obtain ⟨front, rest, hsockets, hlength, hfront, hshape⟩ := h.sockets
  exact ⟨h.streams, Nat.le_trans h.behind hle, front, rest, hsockets, hlength, hfront,
    hshape.mono hle⟩

/-- The greetings that are under way are for streams that stand or for the next one. -/
theorem Invariant.dialed_le (h : Invariant address n w) :
    w.client.inbox.length ≤ w.server.streams.length + 1 := by
  have hdialed := h.dialed
  have hahead := h.ahead
  split at hdialed
  · omega
  · omega

/-- The start of the handshake satisfies the invariant. -/
theorem Invariant.start (hn : 0 < n) : Invariant address n ({} : World α) where
  dialed := rfl
  enough := Nat.zero_le n
  server := by
    have hfront : Front address ([] : List (Socket α)) := by
      intro j s hs
      cases hs
    exact ⟨rfl, Nat.le_refl 0, [], [{}], rfl, rfl, hfront,
      Shape.listening (fun a ha => absurd ha List.not_mem_nil) hn⟩
  ahead := Nat.le_refl 0
  hellos := fun a ha => absurd ha List.not_mem_nil
  replies := fun a ha => absurd ha List.not_mem_nil
  inbox := by
    intro j k hk
    cases hk
  welcome := rfl

/-- What a step does to the datagrams under way, when it only adds and removes some of them. -/
theorem Invariant.flight {flight : List (Datagram α)} (h : Invariant address n w)
    (hflight : ∀ d ∈ flight, d ∈ w.flight) : Invariant address n { w with flight := flight } where
  dialed := h.dialed
  enough := h.enough
  server := h.server
  ahead := h.ahead
  hellos := fun a ha => h.hellos a (hflight _ ha)
  replies := fun a ha => h.replies a (hflight _ ha)
  inbox := h.inbox
  welcome := h.welcome

/-- A greeting goes to the address that no stream has yet; the client sends one for each
stream and waits for the answer. -/
theorem Invariant.dial {c : Client} (h : Invariant address n w) (hc : w.client.dial n = some c) :
    Invariant address n { w with
      client := c, flight := w.flight ++ [.hello (address w.client.inbox.length)] } := by
  unfold Client.dial at hc
  split at hc
  · cases hc
  rename_i hready
  rw [Bool.or_eq_true, Bool.or_eq_true, not_or, not_or, beq_iff_eq, Bool.not_eq_true] at hready
  obtain ⟨⟨-, hidle⟩, hmore⟩ := hready
  cases hc
  have hdialed := h.dialed
  have henough := h.enough
  rw [if_neg hidle] at hdialed
  have hgrown : (w.client.inbox ++ [0]).length = w.client.inbox.length + 1 := by
    rw [List.length_append, List.length_singleton]
  refine ⟨?_, ?_, ?_, h.ahead, ?_, ?_, ?_, h.welcome⟩
  · dsimp only
    rw [hgrown, hdialed]
    rfl
  · dsimp only
    rw [hgrown]
    omega
  · refine h.server.mono ?_
    dsimp only
    rw [hgrown]
    exact Nat.le_succ _
  · intro a ha
    dsimp only at ha ⊢
    rw [hgrown]
    rcases List.mem_append.mp ha with ha | ha
    · obtain ⟨j, hj, haddr⟩ := h.hellos a ha
      exact ⟨j, by omega, haddr⟩
    · cases List.mem_singleton.mp ha
      exact ⟨_, Nat.lt_succ_self _, rfl⟩
  · intro a ha
    rcases List.mem_append.mp ha with ha | ha
    · exact h.replies a ha
    · cases List.mem_singleton.mp ha
  · intro j k hk
    dsimp only at hk
    rw [List.getElem?_append] at hk
    split at hk
    · exact h.inbox j k hk
    · rw [List.getElem?_singleton] at hk
      split at hk
      · cases hk
      · cases hk

/-- The answer that the client takes is that of a stream that stands, as the server answers
only once it has one. -/
theorem Invariant.receive {c : Client} (h : Invariant address n w)
    (hc : w.client.receive = some c) : Invariant address n { w with client := c } := by
  unfold Client.receive at hc
  split at hc
  · cases hc
  rename_i hready
  rw [Bool.or_eq_true, not_or, Bool.not_eq_true, Bool.not_eq_true'] at hready
  split at hc
  · rename_i k hk
    cases hc
    have hdialed := h.dialed
    have hstands := h.inbox _ _ hk
    rw [if_pos (by simpa using hready.2)] at hdialed
    refine ⟨?_, ?_, ?_, hstands, ?_, h.replies, ?_, h.welcome⟩
    · dsimp only
      rw [List.length_set, hdialed]
      rfl
    · dsimp only
      rw [List.length_set]
      exact h.enough
    · dsimp only
      rw [List.length_set]
      exact h.server
    · dsimp only
      rw [List.length_set]
      exact h.hellos
    · intro j i hi
      dsimp only at hi
      rw [List.getElem?_set] at hi
      split at hi
      · rename_i hj
        rw [← hj]
        exact hstands
      · exact h.inbox j i hi
  · cases hc

/-- A call of the server that changes no stream. -/
theorem Invariant.withServer (h : Invariant address n w)
    (hv : ServerInvariant address n w.client.inbox.length v ∧ v.streams = w.server.streams) :
    Invariant address n { w with server := v } := by
  obtain ⟨hserver, hstreams⟩ := hv
  have hlength := congrArg List.length hstreams
  refine ⟨h.dialed, h.enough, hserver, ?_, h.hellos, ?_, ?_, h.welcome⟩
  · exact Nat.le_trans h.ahead (Nat.le_of_eq hlength.symm)
  · dsimp only
    rw [hlength]
    exact h.replies
  · dsimp only
    rw [hlength]
    exact h.inbox

/-- The answer of the server, and one stream more. -/
theorem Invariant.reply (h : Invariant address n w) (hv : w.server.reply n = some (v, a)) :
    Invariant address n { w with server := v, flight := w.flight ++ [.reply a] } := by
  obtain ⟨hserver, hlength, haddr⟩ := h.server.reply h.enough hv
  refine ⟨h.dialed, h.enough, hserver, ?_, ?_, ?_, ?_, h.welcome⟩
  · exact Nat.le_trans h.ahead (by rw [hlength]; exact Nat.le_succ _)
  · intro b hb
    rcases List.mem_append.mp hb with hb | hb
    · exact h.hellos b hb
    · cases List.mem_singleton.mp hb
  · intro b hb
    dsimp only
    rw [hlength]
    rcases List.mem_append.mp hb with hb | hb
    · obtain ⟨j, hj, hbj⟩ := h.replies b hb
      exact ⟨j, Nat.lt_succ_of_lt hj, hbj⟩
    · cases List.mem_singleton.mp hb
      exact ⟨_, Nat.lt_succ_self _, haddr⟩
  · intro j k hk
    dsimp only
    rw [hlength]
    exact Nat.lt_succ_of_lt (h.inbox j k hk)

/-- When all streams stand, the listening socket is closed. -/
theorem Shape.all_closed {streams : ℕ} {p : Option ℕ} {q : AcceptPoint α}
    (h : Shape address n dialed streams rest p q) (hall : streams = n) (hn : dialed ≤ n) :
    p = none := by
  cases h with
  | listening _ hlt => exact absurd hlt (by omega)
  | received _ hlt => exact absurd hlt (by omega)
  | connected _ hlt => exact absurd hlt (by omega)
  | announced _ hlt => exact absurd hlt (by omega)
  | closed _ => rfl

/-- The greeting of the next stream has reached the server. -/
def Greeted (v : Server α) : Prop :=
  v.point ≠ .outside ∨ ∃ s, v.sockets[v.streams.length]? = some s ∧ s.queue ≠ []

/-- Once a greeting is taken the server is inside `accept`. -/
theorem receive_point (hv : v.receive = some v') : v'.point ≠ .outside := by
  unfold Server.receive at hv
  split at hv
  · split at hv
    · cases hv
      exact nofun
    · cases hv
  · cases hv

/-- It is still there after the call of `connect`. -/
theorem connect_point (hv : v.connect = some v') : v'.point ≠ .outside := by
  unfold Server.connect at hv
  split at hv
  · cases hv
    exact nofun
  · cases hv

/-- It is still there after opening the next listener. -/
theorem announce_point (hv : v.announce = some v') : v'.point ≠ .outside := by
  unfold Server.announce at hv
  split at hv
  · cases hv
    exact nofun
  · cases hv

/-- `recvfrom` finds the greeting, which is the first datagram at the listening socket. -/
theorem ServerInvariant.receives (h : ServerInvariant address n dialed v)
    (hpoint : v.point = .outside) (hgreeted : Greeted v) :
    ∃ v' s, v.receive = some v' ∧ v'.point = .received s (address v.streams.length) := by
  obtain ⟨sockets, p, q, streams⟩ := v
  obtain ⟨hstreams, hbehind, front, rest, rfl, hlength, hfront, hshape⟩ := h
  obtain ⟨s, hs, hqueue⟩ := hgreeted.resolve_left fun hne => hne hpoint
  dsimp only at hpoint hs hlength hshape ⊢
  rw [← hlength] at hshape hs ⊢
  cases hshape with
  | @listening queue hall hlt =>
    rw [getElem?_behind] at hs
    cases hs
    cases queue with
    | nil => exact absurd rfl hqueue
    | cons a queue =>
      rw [receive_eq]
      refine ⟨_, front.length, rfl, ?_⟩
      rw [(hall a List.mem_cons_self).1]
  | received _ _ => cases hpoint
  | connected _ _ => cases hpoint
  | announced _ _ => cases hpoint
  | closed _ =>
    rw [getElem?_behind] at hs
    cases hs
    exact absurd rfl hqueue

/-- The answer has an address. -/
theorem ServerInvariant.replies {k : ℕ} (h : ServerInvariant address n dialed v)
    (hpoint : v.point = .announced k) : ∃ v' a, v.reply n = some (v', a) := by
  obtain ⟨sockets, p, q, streams⟩ := v
  obtain ⟨hstreams, hbehind, front, rest, rfl, hlength, hfront, hshape⟩ := h
  dsimp only at hpoint hlength hshape ⊢
  rw [← hlength] at hshape
  cases hshape with
  | announced hs _ => exact ⟨_, _, reply_eq front hs.peer streams⟩
  | listening _ _ => cases hpoint
  | received _ _ => cases hpoint
  | connected _ _ => cases hpoint
  | closed _ => cases hpoint

variable [DecidableEq α]

/-- A socket that serves a client's address is joined to it. -/
theorem Serves.joined (h : Serves a s) : s.joined a = true := by
  unfold Socket.joined
  rw [h.live, h.peer, decide_eq_true rfl, Bool.and_self]

/-- No stream but its own takes what comes from an address. -/
theorem Front.not_joined (haddress : Function.Injective address) (h : Front address front)
    (ht : front[i]? = some s) (hne : i ≠ j) : s.joined (address j) = false := by
  unfold Socket.joined
  have hpeer : s.peer ≠ some (address j) := by
    rw [(h i s ht).peer]
    exact fun heq => hne (haddress (Option.some.inj heq))
  rw [decide_eq_false hpeer, Bool.and_false]

/-- No socket of the row is joined to the address of a later stream. -/
theorem Front.none_joined (haddress : Function.Injective address) (h : Front address front)
    (hj : front.length ≤ j) : ∀ t ∈ front, t.joined (address j) = false := by
  intro t ht
  obtain ⟨i, hi⟩ := List.mem_iff_getElem?.mp ht
  have hlt := (List.getElem?_eq_some_iff.mp hi).1
  exact h.not_joined haddress hi (by omega)

/-- What comes from the address of a stream goes to that stream. -/
theorem Front.demux (haddress : Function.Injective address) (h : Front address front)
    (hj : j < front.length) : demux (address j) (front ++ rest) = some j := by
  have hsplit : front ++ rest = front.take j ++ front[j] :: (front.drop (j + 1) ++ rest) := by
    rw [← List.cons_append, ← List.drop_eq_getElem_cons hj, ← List.append_assoc,
      List.take_append_drop]
  have hlength : (front.take j).length = j := List.length_take_of_le (Nat.le_of_lt hj)
  have hbefore : ∀ t ∈ front.take j, t.joined (address j) = false := by
    intro t ht
    obtain ⟨i, hi⟩ := List.mem_iff_getElem?.mp ht
    rw [List.getElem?_take] at hi
    split at hi
    · exact h.not_joined haddress hi (by omega)
    · cases hi
  have hself := h j front[j] (List.getElem?_eq_getElem hj)
  rw [hsplit, demux_joined hbefore hself.joined, hlength]

/-- Such a datagram leaves the streams as they are. -/
theorem Front.deliver (haddress : Function.Injective address) (h : Front address front)
    (hj : j < front.length) :
    ∃ front', DatagramSockets.deliver (address j) (front ++ rest) = some (front' ++ rest) ∧
      front'.length = front.length ∧ Front address front' := by
  refine ⟨front.modify j (Socket.push (address j)), ?_, List.length_modify _ _ _, h.push j⟩
  unfold DatagramSockets.deliver
  rw [h.demux haddress hj, Option.map_some, modify_front _ hj]

/-- The socket behind those of the streams takes the greeting of the next stream. -/
theorem Shape.takes {streams : ℕ} {p : Option ℕ} {q : AcceptPoint α}
    (h : Shape address n dialed streams rest p q) (hdialed : streams < dialed) (hn : dialed ≤ n) :
    ∃ s more, rest = s :: more ∧
      (s.joined (address streams) = true ∨ s.peer = none ∧ s.live = true ∧ more = []) ∧
      Shape address n dialed streams (s.push (address streams) :: more) p q := by
  have hqueue {queue : List α} (hold : ∀ a ∈ queue, a = address streams) :
      ∀ a ∈ queue ++ [address streams], a = address streams :=
    List.forall_mem_append.mpr ⟨hold, List.forall_mem_singleton.mpr rfl⟩
  cases h with
  | listening hold hlt =>
    refine ⟨_, [], rfl, Or.inr ⟨rfl, rfl, rfl⟩, Shape.listening (fun a ha => ?_) hlt⟩
    exact ⟨hqueue (fun b hb => (hold b hb).1) a ha, hdialed⟩
  | received hold hlt =>
    exact ⟨_, [], rfl, Or.inr ⟨rfl, rfl, rfl⟩, Shape.received (hqueue hold) hlt⟩
  | connected hs hlt =>
    exact ⟨_, [], rfl, Or.inl hs.joined, Shape.connected hs.push hlt⟩
  | announced hs hlt =>
    exact ⟨_, [{}], rfl, Or.inl hs.joined, Shape.announced hs.push hlt⟩
  | closed hall => exact absurd hdialed (by omega)

/-- A greeting that is under way reaches the listening socket or the stream it is for, and no
other stream. -/
theorem ServerInvariant.deliver (haddress : Function.Injective address)
    (h : ServerInvariant address n dialed v) (hj : j < dialed) (hn : dialed ≤ n)
    (hahead : dialed ≤ v.streams.length + 1) :
    ∃ sockets, DatagramSockets.deliver (address j) v.sockets = some sockets ∧
      ServerInvariant address n dialed { v with sockets := sockets } ∧
      (j = v.streams.length → Greeted { v with sockets := sockets }) := by
  obtain ⟨front, rest, hsockets, hlength, hfront, hshape⟩ := h.sockets
  by_cases hold : j < v.streams.length
  · obtain ⟨front', hdeliver, hsame, hfront'⟩ :=
      @Front.deliver α address j front rest _ haddress hfront (by omega)
    rw [hsockets]
    exact ⟨_, hdeliver, ⟨h.streams, h.behind, front', rest, rfl, hsame.trans hlength,
        hfront', hshape⟩,
      fun hnext => absurd hold (by omega)⟩
  obtain rfl : j = v.streams.length := by omega
  obtain ⟨s, more, rfl, hs, hshape'⟩ := hshape.takes hj hn
  have hnone := hfront.none_joined haddress (Nat.le_of_eq hlength)
  refine ⟨front ++ s.push (address v.streams.length) :: more, ?_,
      ⟨h.streams, h.behind, front, _, rfl,
    hlength, hfront, hshape'⟩, fun _ => Or.inr ⟨s.push (address v.streams.length), ?_, ?_⟩⟩
  · rw [hsockets]
    refine deliver_of_demux ?_
    rcases hs with hs | ⟨hpeer, hlive, rfl⟩
    · exact demux_joined hnone hs
    · refine demux_listens (List.forall_mem_append.mpr ⟨hnone, List.forall_mem_singleton.mpr ?_⟩)
        hfront.none_listens ?_
      · unfold Socket.joined
        rw [hpeer, decide_eq_false nofun, Bool.and_false]
      · unfold Socket.listens
        rw [hpeer, hlive]
        rfl
  · dsimp only
    rw [← hlength]
    exact getElem?_behind _ _ _
  · exact List.append_ne_nil_of_right_ne_nil _ (List.cons_ne_nil _ _)

/-- The socket of the client that an answer is for. -/
theorem find_address {m : ℕ} (haddress : Function.Injective address) (hj : j < m) :
    (List.range m).find? (fun i => decide (address i = address j)) = some j := by
  refine List.find?_range_eq_some.mpr ⟨decide_eq_true rfl, List.mem_range.mpr hj, fun i hi => ?_⟩
  rw [decide_eq_false fun heq => Nat.ne_of_lt hi (haddress heq)]
  rfl

/-- Whatever arrives is taken: a greeting by a socket of the server, an answer by the client
that waits or has gone on. -/
theorem Invariant.arrive {flight : List (Datagram α)} {d : Datagram α}
    (haddress : Function.Injective address) (h : Invariant address n w) (hd : d ∈ w.flight)
    (hflight : ∀ e ∈ flight, e ∈ w.flight) :
    Invariant address n (arrive address d { w with flight := flight }) := by
  have hless := h.flight hflight
  cases d with
  | hello a =>
    obtain ⟨j, hj, rfl⟩ := h.hellos a hd
    obtain ⟨sockets, hdeliver, hserver, -⟩ := h.server.deliver haddress hj h.enough h.dialed_le
    unfold UdpHandshake.arrive
    dsimp only
    rw [hdeliver]
    exact ⟨h.dialed, h.enough, hserver, h.ahead, hless.hellos, hless.replies, h.inbox, h.welcome⟩
  | reply a =>
    obtain ⟨j, hj, rfl⟩ := h.replies a hd
    unfold UdpHandshake.arrive
    dsimp only
    rw [find_address haddress (Nat.lt_of_lt_of_le hj h.server.behind)]
    refine ⟨?_, ?_, ?_, h.ahead, ?_, hless.replies, ?_, h.welcome⟩
    · dsimp only
      rw [List.length_modify]
      exact h.dialed
    · dsimp only
      rw [List.length_modify]
      exact h.enough
    · dsimp only
      rw [List.length_modify]
      exact h.server
    · dsimp only
      rw [List.length_modify]
      exact hless.hellos
    · intro i k hk
      dsimp only at hk
      rw [List.getElem?_modify] at hk
      obtain ⟨l, hl, hlk⟩ := Option.map_eq_some_iff.mp hk
      split at hlk
      · rename_i hji
        rw [← hji]
        exact hj
      · rw [hlk] at hl
        exact h.inbox i k hl

/-- Every step keeps the invariant, by cases on the event: the two parties, and what the
network does. -/
theorem Invariant.step {event : Event} (haddress : Function.Injective address)
    (h : Invariant address n w) (hstep : step address n w event = some w') :
    Invariant address n w' := by
  cases event with
  | clientDials =>
    obtain ⟨c, hc, rfl⟩ := Option.map_eq_some_iff.mp hstep
    exact h.dial hc
  | clientReceives =>
    obtain ⟨c, hc, rfl⟩ := Option.map_eq_some_iff.mp hstep
    exact h.receive hc
  | clientFails =>
    cases hstep
    exact ⟨h.dialed, h.enough, h.server, h.ahead, h.hellos, h.replies, h.inbox, h.welcome⟩
  | serverReceives =>
    obtain ⟨v, hv, rfl⟩ := Option.map_eq_some_iff.mp hstep
    exact h.withServer (h.server.receive hv)
  | serverConnects =>
    obtain ⟨v, hv, rfl⟩ := Option.map_eq_some_iff.mp hstep
    exact h.withServer (h.server.connect hv)
  | serverAnnounces =>
    obtain ⟨v, hv, rfl⟩ := Option.map_eq_some_iff.mp hstep
    exact h.withServer (h.server.announce hv)
  | serverReplies =>
    obtain ⟨⟨v, a⟩, hv, rfl⟩ := Option.map_eq_some_iff.mp hstep
    exact h.reply hv
  | deliver k =>
    obtain ⟨d, hd, rfl⟩ := Option.map_eq_some_iff.mp hstep
    exact h.arrive haddress (List.mem_of_getElem? hd) fun e he => List.mem_of_mem_eraseIdx he
  | lose k =>
    obtain ⟨d, hd, rfl⟩ := Option.map_eq_some_iff.mp hstep
    exact h.flight fun e he => List.mem_of_mem_eraseIdx he
  | duplicate k =>
    obtain ⟨d, hd, rfl⟩ := Option.map_eq_some_iff.mp hstep
    refine h.flight fun e he => ?_
    rcases List.mem_append.mp he with he | he
    · exact he
    · rw [List.mem_singleton.mp he]
      exact List.mem_of_getElem? hd

/-- The streams of the two ends belong together. -/
structure Paired (address : ℕ → α) (n : ℕ) (w : World α) : Prop where
  /-- No datagram has met a closed port. -/
  welcome : w.refused = false
  /-- The server is never behind, and at most one stream in front. -/
  level : w.client.streams ≤ w.server.streams.length ∧
    w.server.streams.length ≤ w.client.streams + 1
  /-- The streams of the server are connected to the sockets of the client, in order. -/
  peers : w.server.peers = (List.range w.server.streams.length).map fun j => some (address j)
  /-- What a socket of the client sends from now on reaches the stream in the same place. -/
  reaches : ∀ j < w.server.streams.length,
    demux (address j) w.server.sockets = w.server.streams[j]?
  /-- When the client has all its streams, so has the server, and it listens no more. -/
  complete : w.client.streams = n → w.server.streams.length = n ∧ w.server.protListener = none

/-- The invariant pairs each stream of the server with one of the client. -/
theorem Invariant.paired (haddress : Function.Injective address) (h : Invariant address n w) :
    Paired address n w := by
  obtain ⟨front, rest, hsockets, hlength, hfront, hshape⟩ := h.server.sockets
  have hdialed := h.dialed
  have henough := h.enough
  have hahead := h.ahead
  have hbehind := h.server.behind
  refine ⟨h.welcome, ⟨hahead, ?_⟩, ?_, fun j hj => ?_, fun hall => ?_⟩
  · split at hdialed
    · omega
    · omega
  · unfold Server.peers
    rw [h.server.streams, List.length_range]
    refine List.map_congr_left fun j hj => ?_
    have hlt : j < front.length := by
      rw [hlength]
      exact List.mem_range.mp hj
    rw [hsockets, List.getElem?_append_left hlt, List.getElem?_eq_getElem hlt, Option.bind_some]
    exact (hfront j _ (List.getElem?_eq_getElem hlt)).peer
  · rw [hsockets, hfront.demux haddress (hlength ▸ hj), h.server.streams,
      List.getElem?_range hj]
  · have hlast : w.server.streams.length = n := by omega
    exact ⟨hlast, hshape.all_closed hlast henough⟩

/-- However datagrams are lost, repeated and delayed, and wherever the server stands in
accepting, the streams of both ends belong together, as long as the system calls of both
succeed. -/
theorem streams_paired (haddress : Function.Injective address) (hn : 0 < n) {events : List Event}
    (hrun : run (step address n) events {} = some w) : Paired address n w := by
  have hkept : Invariant address n w :=
    @run_keeps _ _ _ (fun _ => True) _ (fun h _ hstep => h.step haddress hstep) _ _ _
      (Invariant.start hn) (fun _ _ => trivial) hrun
  exact hkept.paired haddress

/-- The first greeting arrives twice, and the answer to the second one is lost. -/
def repeatedGreeting : List Event :=
  [.clientDials, .duplicate 0, .deliver 0, .serverReceives, .deliver 0, .serverConnects,
    .serverAnnounces, .serverReplies, .deliver 0, .clientReceives, .clientDials, .deliver 0,
    .serverReceives, .serverConnects, .serverAnnounces, .serverReplies, .lose 0, .clientFails]

/-- A greeting that arrives twice does not disturb the pairs. -/
theorem repeatedGreeting_paired :
    ∃ w, run (step (· + 5201) 2) repeatedGreeting {} = some w ∧ Paired (· + 5201) 2 w := by
  have hpossible : (run (step (· + 5201) 2) repeatedGreeting {}).isSome = true := by rfl
  obtain ⟨w, hrun⟩ := Option.isSome_iff_exists.mp hpossible
  exact ⟨w, hrun, streams_paired (fun _ _ h => Nat.add_right_cancel h) (by decide) hrun⟩

end IperfRuntime.UdpHandshake
