import IperfRuntime.UdpHandshake

/-!
# Without loss the streams come about

As long as nothing is lost, a client that waits is waited for: its greeting is under way or the
server has it, and then the answer is. So every state that was reached without loss can be
brought to one in which all streams stand.
-/

namespace IperfRuntime.HandshakeProgress

open DatagramSockets PartialSteps UdpHandshake

/-- Neither a loss nor a failure. -/
def Harmless : Event → Prop
  | .clientFails => False
  | .lose _ => False
  | _ => True

variable {α : Type*} {address : ℕ → α} {n dialed i j : ℕ} {v v' : Server α} {w w' : World α} {a : α}

/-- What both ends keep as long as nothing is lost: a client that waits is waited for. -/
structure Alive (address : ℕ → α) (w : World α) : Prop where
  sound : w.client.failed = false
  asked : w.client.waiting = true → w.server.streams.length = w.client.streams →
    .hello (address w.client.streams) ∈ w.flight ∨ Greeted w.server
  answered : w.client.waiting = true → w.server.streams.length = w.client.streams + 1 →
    .reply (address w.client.streams) ∈ w.flight ∨
      ∃ k, w.client.inbox[w.client.streams]? = some (k + 1)

/-- At the start the handshake is alive. -/
theorem Alive.start : Alive address ({} : World α) where
  sound := rfl
  asked := fun hwaiting => absurd hwaiting Bool.false_ne_true
  answered := fun hwaiting => absurd hwaiting Bool.false_ne_true

/-- Dialling keeps it alive. -/
theorem Alive.dial {c : Client} (h : Invariant address n w) (halive : Alive address w)
    (hc : w.client.dial n = some c) :
    Alive address { w with
      client := c, flight := w.flight ++ [.hello (address w.client.inbox.length)] } := by
  unfold Client.dial at hc
  split at hc
  · cases hc
  rename_i hready
  rw [Bool.or_eq_true, Bool.or_eq_true, not_or, not_or, Bool.not_eq_true] at hready
  cases hc
  have hdialed := h.dialed
  have hbehind := h.server.behind
  rw [if_neg hready.1.2, Nat.add_zero] at hdialed
  refine ⟨halive.sound, fun _ _ => Or.inl ?_, fun _ hahead => ?_⟩
  · rw [hdialed]
    exact List.mem_append_right _ (List.mem_singleton.mpr rfl)
  · dsimp only at hahead
    omega

/-- So does reading a reply. -/
theorem Alive.receive {c : Client} (halive : Alive address w) (hc : w.client.receive = some c) :
    Alive address { w with client := c } := by
  unfold Client.receive at hc
  split at hc
  · cases hc
  split at hc
  · cases hc
    exact ⟨halive.sound, fun hwaiting => absurd hwaiting Bool.false_ne_true,
      fun hwaiting => absurd hwaiting Bool.false_ne_true⟩
  · cases hc

/-- A call of the server behind which it is still accepting. -/
theorem Alive.withServer (halive : Alive address w) (hstreams : v.streams = w.server.streams)
    (hpoint : v.point ≠ .outside) : Alive address { w with server := v } := by
  have hlength := congrArg List.length hstreams
  refine ⟨halive.sound, fun _ _ => Or.inr (Or.inl hpoint), fun hwaiting hahead => ?_⟩
  exact halive.answered hwaiting (hlength.symm.trans hahead)

/-- So does replying. -/
theorem Alive.reply (h : Invariant address n w) (halive : Alive address w)
    (hv : w.server.reply n = some (v, a)) :
    Alive address { w with server := v, flight := w.flight ++ [.reply a] } := by
  obtain ⟨-, hlength, haddr⟩ := h.server.reply h.enough hv
  have hahead := h.ahead
  refine ⟨halive.sound, fun _ hsame => ?_, fun _ hnext => Or.inl ?_⟩
  · dsimp only at hsame
    omega
  · dsimp only at hnext ⊢
    have hsame : w.server.streams.length = w.client.streams := by omega
    rw [haddr, hsame]
    exact List.mem_append_right _ (List.mem_singleton.mpr rfl)

/-- So does a datagram that arrives a second time. -/
theorem Alive.duplicate (halive : Alive address w) (d : Datagram α) :
    Alive address { w with flight := w.flight ++ [d] } :=
  ⟨halive.sound, fun hwaiting hsame => (halive.asked hwaiting hsame).imp_left
    (List.mem_append_left _), fun hwaiting hnext => (halive.answered hwaiting hnext).imp_left
    (List.mem_append_left _)⟩

/-- What is not delivered stays under way. -/
theorem mem_eraseIdx_of_ne {flight : List (Datagram α)} {d e : Datagram α} {k : ℕ}
    (hd : d ∈ flight) (he : flight[k]? = some e) (hne : d ≠ e) : d ∈ flight.eraseIdx k := by
  induction flight generalizing k with
  | nil => cases hd
  | cons x flight ih =>
    cases k with
    | zero =>
      cases he
      exact (List.mem_cons.mp hd).resolve_left hne
    | succ k =>
      rw [List.eraseIdx_cons_succ]
      rcases List.mem_cons.mp hd with rfl | hd
      · exact List.mem_cons_self
      · exact List.mem_cons_of_mem _ (ih hd he)

variable [DecidableEq α]

/-- What arrives is not lost: a greeting is with the server from then on, and an answer is
with the client. -/
theorem Alive.arrive {d : Datagram α} {k : ℕ} (haddress : Function.Injective address)
    (h : Invariant address n w) (halive : Alive address w) (hd : w.flight[k]? = some d) :
    Alive address (arrive address d { w with flight := w.flight.eraseIdx k }) := by
  have hmem := List.mem_of_getElem? hd
  cases d with
  | hello a =>
    obtain ⟨j, hj, rfl⟩ := h.hellos a hmem
    obtain ⟨sockets, hdeliver, -, hgreeted⟩ := h.server.deliver haddress hj h.enough h.dialed_le
    unfold UdpHandshake.arrive
    dsimp only
    rw [hdeliver]
    refine ⟨halive.sound, fun hwaiting hsame => ?_, fun hwaiting hnext => ?_⟩
    · rcases halive.asked hwaiting hsame with hasked | hpoint | hqueue
      · by_cases hnext : j = w.client.streams
        · exact Or.inr (hgreeted (hnext.trans hsame.symm))
        · refine Or.inl (mem_eraseIdx_of_ne hasked hd fun heq => hnext ?_)
          exact (haddress (Datagram.hello.inj heq)).symm
      · exact Or.inr (Or.inl hpoint)
      · exact Or.inr (Or.inr (deliver_waits hdeliver hqueue))
    · exact (halive.answered hwaiting hnext).imp_left fun hmem => mem_eraseIdx_of_ne hmem hd nofun
  | reply a =>
    obtain ⟨j, hj, rfl⟩ := h.replies a hmem
    unfold UdpHandshake.arrive
    dsimp only
    rw [find_address haddress (Nat.lt_of_lt_of_le hj h.server.behind)]
    refine ⟨halive.sound, fun hwaiting hsame => ?_, fun hwaiting hnext => ?_⟩
    · exact (halive.asked hwaiting hsame).imp_left fun hmem => mem_eraseIdx_of_ne hmem hd nofun
    · have hdialed := h.dialed
      have hwaiting : w.client.waiting = true := hwaiting
      rw [if_pos hwaiting] at hdialed
      dsimp only
      rw [List.getElem?_modify]
      rcases halive.answered hwaiting hnext with hanswered | ⟨i, hi⟩
      · by_cases hown : j = w.client.streams
        · obtain ⟨i, hi⟩ : ∃ i, w.client.inbox[w.client.streams]? = some i :=
            ⟨_, List.getElem?_eq_getElem (by omega)⟩
          refine Or.inr ⟨i, ?_⟩
          rw [hi]
          exact congrArg some (if_pos hown)
        · refine Or.inl (mem_eraseIdx_of_ne hanswered hd fun heq => hown ?_)
          exact (haddress (Datagram.reply.inj heq)).symm
      · rw [hi]
        refine Or.inr ?_
        split
        · exact ⟨i + 1, rfl⟩
        · exact ⟨i, rfl⟩

/-- A step without loss keeps the client and the server waiting for each other, by cases on
the event. -/
theorem Alive.step {event : Event} (haddress : Function.Injective address)
    (h : Invariant address n w) (halive : Alive address w) (hevent : Harmless event)
    (hstep : step address n w event = some w') : Alive address w' := by
  cases event with
  | clientDials =>
    obtain ⟨c, hc, rfl⟩ := Option.map_eq_some_iff.mp hstep
    exact halive.dial h hc
  | clientReceives =>
    obtain ⟨c, hc, rfl⟩ := Option.map_eq_some_iff.mp hstep
    exact halive.receive hc
  | clientFails => cases hevent
  | serverReceives =>
    obtain ⟨v, hv, rfl⟩ := Option.map_eq_some_iff.mp hstep
    exact halive.withServer (h.server.receive hv).2 (receive_point hv)
  | serverConnects =>
    obtain ⟨v, hv, rfl⟩ := Option.map_eq_some_iff.mp hstep
    exact halive.withServer (h.server.connect hv).2 (connect_point hv)
  | serverAnnounces =>
    obtain ⟨v, hv, rfl⟩ := Option.map_eq_some_iff.mp hstep
    exact halive.withServer (h.server.announce hv).2 (announce_point hv)
  | serverReplies =>
    obtain ⟨⟨v, a⟩, hv, rfl⟩ := Option.map_eq_some_iff.mp hstep
    exact halive.reply h hv
  | deliver k =>
    obtain ⟨d, hd, rfl⟩ := Option.map_eq_some_iff.mp hstep
    exact halive.arrive haddress h hd
  | lose k => cases hevent
  | duplicate k =>
    obtain ⟨d, hd, rfl⟩ := Option.map_eq_some_iff.mp hstep
    exact halive.duplicate d

/-- The invariant, with nothing lost so far. -/
def Good (address : ℕ → α) (n : ℕ) (w : World α) : Prop := Invariant address n w ∧ Alive address w

/-- Without loss a state with a property can be had. -/
abbrev CanReach (address : ℕ → α) (n : ℕ) (w : World α) (goal : World α → Prop) : Prop :=
  Reaches (step address n) Harmless w goal

/-- Every event but a loss keeps the handshake good. -/
theorem Good.keeps {event : Event} (haddress : Function.Injective address) (h : Good address n w)
    (hevent : Harmless event) (hstep : step address n w event = some w') : Good address n w' :=
  ⟨h.1.step haddress hstep, h.2.step haddress h.1 hevent hstep⟩

/-- One step of the way. -/
theorem Good.head {event : Event} {goal : World α → Prop} (haddress : Function.Injective address)
    (h : Good address n w) (hstep : step address n w event = some w') (hevent : Harmless event)
    (hrest : Good address n w' → CanReach address n w' goal) : CanReach address n w goal :=
  Reaches.head hevent hstep (hrest (h.keeps haddress hevent hstep))

/-- The client has one stream more. -/
def Grown (address : ℕ → α) (n k : ℕ) (w : World α) : Prop :=
  Good address n w ∧ w.client.streams = k + 1

/-- An answer that waits is taken. -/
theorem Good.takes {k : ℕ} (haddress : Function.Injective address) (h : Good address n w)
    (hwaiting : w.client.waiting = true) (hk : w.client.inbox[w.client.streams]? = some (k + 1)) :
    CanReach address n w (Grown address n w.client.streams) := by
  obtain ⟨c, hc, hstreams⟩ : ∃ c, w.client.receive = some c ∧ c.streams = w.client.streams + 1 := by
    unfold Client.receive
    rw [h.2.sound, hwaiting, if_neg (by decide), hk]
    exact ⟨_, rfl, rfl⟩
  have hstep : step address n w .clientReceives = some { w with client := c } :=
    Option.map_eq_some_iff.mpr ⟨_, hc, rfl⟩
  exact h.head haddress hstep trivial fun hnext => Reaches.here ⟨hnext, hstreams⟩

/-- Once the server has answered, the client gets its stream. -/
theorem Good.answered (haddress : Function.Injective address) (h : Good address n w)
    (hwaiting : w.client.waiting = true)
    (hnext : w.server.streams.length = w.client.streams + 1) :
    CanReach address n w (Grown address n w.client.streams) := by
  rcases h.2.answered hwaiting hnext with hflight | ⟨k, hk⟩
  · obtain ⟨k, hk⟩ := List.mem_iff_getElem?.mp hflight
    have hdialed := h.1.dialed
    rw [if_pos hwaiting] at hdialed
    obtain ⟨i, hi⟩ : ∃ i, w.client.inbox[w.client.streams]? = some i :=
      ⟨_, List.getElem?_eq_getElem (by omega)⟩
    have hstep : step address n w (.deliver k) = some { w with
        client := { w.client with inbox := w.client.inbox.modify w.client.streams (· + 1) }
        flight := w.flight.eraseIdx k } := by
      refine Option.map_eq_some_iff.mpr ⟨_, hk, ?_⟩
      unfold arrive
      dsimp only
      rw [find_address haddress (by omega)]
    have hanswer : (w.client.inbox.modify w.client.streams (· + 1))[w.client.streams]? =
        some (i + 1) := by
      rw [List.getElem?_modify_eq, hi]
      rfl
    exact h.head haddress hstep trivial fun hnext => hnext.takes haddress hwaiting hanswer
  · exact h.takes haddress hwaiting hk

/-- The server that has begun to accept goes on to the answer in three steps of its own,
whatever else is in flight. -/
theorem Good.accepting (haddress : Function.Injective address) (h : Good address n w)
    (hwaiting : w.client.waiting = true) (hsame : w.server.streams.length = w.client.streams)
    (hpoint : w.server.point ≠ .outside) :
    CanReach address n w (Grown address n w.client.streams) := by
  have hannounced : ∀ {w : World α} {s : ℕ}, Good address n w → w.client.waiting = true →
      w.server.streams.length = w.client.streams → w.server.point = .announced s →
      CanReach address n w (Grown address n w.client.streams) := by
    intro w s h hwaiting hsame hpoint
    obtain ⟨v, a, hv⟩ := h.1.server.replies hpoint
    have hstep : step address n w .serverReplies =
        some { w with server := v, flight := w.flight ++ [.reply a] } :=
      Option.map_eq_some_iff.mpr ⟨_, hv, rfl⟩
    have hlength := (h.1.server.reply h.1.enough hv).2.1
    exact h.head haddress hstep trivial fun hnext => hnext.answered haddress hwaiting
      (hlength.trans (congrArg (· + 1) hsame))
  have hconnected : ∀ {w : World α} {s : ℕ}, Good address n w → w.client.waiting = true →
      w.server.streams.length = w.client.streams → w.server.point = .connected s →
      CanReach address n w (Grown address n w.client.streams) := by
    intro w s h hwaiting hsame hpoint
    obtain ⟨v, hv, hnext⟩ : ∃ v, w.server.announce = some v ∧ v.point = .announced s := by
      unfold Server.announce
      rw [hpoint]
      exact ⟨_, rfl, rfl⟩
    have hstep : step address n w .serverAnnounces = some { w with server := v } :=
      Option.map_eq_some_iff.mpr ⟨_, hv, rfl⟩
    have hstreams := (h.1.server.announce hv).2
    exact h.head haddress hstep trivial fun hgood => hannounced hgood hwaiting
      ((congrArg List.length hstreams).trans hsame) hnext
  cases hcase : w.server.point with
  | outside => exact absurd hcase hpoint
  | received s a =>
    obtain ⟨v, hv, hnext⟩ : ∃ v, w.server.connect = some v ∧ v.point = .connected s := by
      unfold Server.connect
      rw [hcase]
      exact ⟨_, rfl, rfl⟩
    have hstep : step address n w .serverConnects = some { w with server := v } :=
      Option.map_eq_some_iff.mpr ⟨_, hv, rfl⟩
    have hstreams := (h.1.server.connect hv).2
    exact h.head haddress hstep trivial fun hgood => hconnected hgood hwaiting
      ((congrArg List.length hstreams).trans hsame) hnext
  | connected s => exact hconnected h hwaiting hsame hcase
  | announced s => exact hannounced h hwaiting hsame hcase

/-- A greeting that has reached the server is answered. -/
theorem Good.greeted (haddress : Function.Injective address) (h : Good address n w)
    (hwaiting : w.client.waiting = true) (hsame : w.server.streams.length = w.client.streams)
    (hgreeted : Greeted w.server) : CanReach address n w (Grown address n w.client.streams) := by
  by_cases hpoint : w.server.point = .outside
  · obtain ⟨v, s, hv, hnext⟩ := h.1.server.receives hpoint hgreeted
    have hstep : step address n w .serverReceives = some { w with server := v } :=
      Option.map_eq_some_iff.mpr ⟨_, hv, rfl⟩
    have hstreams := (h.1.server.receive hv).2
    exact h.head haddress hstep trivial fun hgood => hgood.accepting haddress hwaiting
      ((congrArg List.length hstreams).trans hsame) (receive_point hv)
  · exact h.accepting haddress hwaiting hsame hpoint

/-- A client that waits gets its stream. -/
theorem Good.served (haddress : Function.Injective address) (h : Good address n w)
    (hwaiting : w.client.waiting = true) :
    CanReach address n w (Grown address n w.client.streams) := by
  have hahead := h.1.ahead
  have hbehind := h.1.server.behind
  have hdialed := h.1.dialed
  rw [if_pos hwaiting] at hdialed
  rcases Nat.lt_or_ge w.client.streams w.server.streams.length with hlt | hge
  · exact h.answered haddress hwaiting (by omega)
  have hsame : w.server.streams.length = w.client.streams := by omega
  rcases h.2.asked hwaiting hsame with hflight | hgreeted
  · obtain ⟨k, hk⟩ := List.mem_iff_getElem?.mp hflight
    obtain ⟨sockets, hdeliver, -, hgreeted⟩ := h.1.server.deliver haddress
      (show w.client.streams < w.client.inbox.length by omega) h.1.enough h.1.dialed_le
    have hstep : step address n w (.deliver k) = some { w with
        server := { w.server with sockets := sockets }, flight := w.flight.eraseIdx k } := by
      refine Option.map_eq_some_iff.mpr ⟨_, hk, ?_⟩
      unfold arrive
      dsimp only
      rw [hdeliver]
    exact h.head haddress hstep trivial fun hgood => hgood.greeted haddress hwaiting hsame
      (hgreeted hsame.symm)
  · exact h.greeted haddress hwaiting hsame hgreeted

/-- A client that wants more streams gets one more. -/
theorem Good.grows (haddress : Function.Injective address) (h : Good address n w)
    (hmore : w.client.streams < n) : CanReach address n w (Grown address n w.client.streams) := by
  by_cases hwaiting : w.client.waiting = true
  · exact h.served haddress hwaiting
  obtain ⟨c, hc, hnext, hstreams⟩ : ∃ c, w.client.dial n = some c ∧ c.waiting = true ∧
      c.streams = w.client.streams := by
    unfold Client.dial
    rw [h.2.sound, Bool.eq_false_iff.mpr hwaiting, if_neg (by simpa using Nat.ne_of_lt hmore)]
    exact ⟨_, rfl, rfl, rfl⟩
  have hstep : step address n w .clientDials = some { w with
      client := c, flight := w.flight ++ [.hello (address w.client.inbox.length)] } :=
    Option.map_eq_some_iff.mpr ⟨_, hc, rfl⟩
  refine h.head haddress hstep trivial fun hgood => ?_
  have hserved := hgood.served haddress hnext
  dsimp only at hserved
  rwa [hstreams] at hserved

/-- From every state that was reached without loss, all streams can be had. -/
theorem Good.completes (haddress : Function.Injective address) (h : Good address n w) :
    CanReach address n w fun w' => Good address n w' ∧ w'.client.streams = n := by
  have hdialed := h.1.dialed
  have henough := h.1.enough
  exact reaches_count (fun w hw hmore => hw.grows haddress hmore) h (by omega)

/-- As long as nothing is lost the two ends cannot get stuck: whatever was repeated and delayed
so far, both still come to have all streams, which belong together, as long as the system calls
of both succeed. -/
theorem handshake_completes (haddress : Function.Injective address) (hn : 0 < n)
    {events : List Event} (hall : ∀ event ∈ events, Harmless event)
    (hrun : run (step address n) events {} = some w) :
    CanReach address n w fun w' =>
      w'.client.streams = n ∧ w'.server.streams.length = n ∧ Paired address n w' := by
  have hgood : Good address n w :=
    run_keeps (fun h hevent hstep => Good.keeps haddress h hevent hstep)
      ⟨Invariant.start hn, Alive.start⟩ hall hrun
  refine (hgood.completes haddress).trans fun w' hend => Reaches.here ?_
  have hpaired := hend.1.1.paired haddress
  exact ⟨hend.2, (hpaired.complete hend.2).1, hpaired⟩

/-- After a greeting that arrives twice the handshake can still complete. -/
theorem repeatedGreeting_completes :
    ∃ w, run (step (· + 5201) 2) (repeatedGreeting.take 16) {} = some w ∧
      CanReach (· + 5201) 2 w fun w' =>
        w'.client.streams = 2 ∧ w'.server.streams.length = 2 ∧ Paired (· + 5201) 2 w' := by
  have hall : ∀ event ∈ repeatedGreeting.take 16, Harmless event := by
    unfold repeatedGreeting
    simp only [List.take_succ_cons, List.take_zero, List.forall_mem_cons, Harmless,
      List.not_mem_nil, false_imp_iff, implies_true, and_true]
  have hpossible : (run (step (· + 5201) 2) (repeatedGreeting.take 16) {}).isSome = true := by rfl
  obtain ⟨w, hrun⟩ := Option.isSome_iff_exists.mp hpossible
  exact ⟨w, hrun,
    handshake_completes (fun _ _ h => Nat.add_right_cancel h) (by decide) hall hrun⟩

end IperfRuntime.HandshakeProgress
