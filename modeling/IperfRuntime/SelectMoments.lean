import IperfRuntime.ServerSets

/-!
# The descriptor sets in front of `select`

The client half, in which `iperf_client_end` closes the sockets of the streams and leaves
them in the sets, behind which the loop is over; and what both ends ask `select` about. What
`select` answers is an input, and its time-out plays no part.
-/

namespace IperfRuntime.SelectMoments

open JsonTree TimerQueue TestState StreamTraffic StreamCreation SocketIo ResultsExchange
  ServerAccept ClientTimers ClientRun ClientLoop JniExec DescriptorLedger EventTrace ServerLoop
  DescriptorSets ServerSets TestParameters ParameterExchange

variable {table : OpenTable} {test test' : IperfTest} {fd : ℤ}

/-- A socket that is made stays open; the failing ways out of the connection close what they
have opened. -/
theorem connect_opens {io : ConnectIo} {s : ℤ} (h : (protocolConnect test io).1 = some s) :
    (protocolConnect test io).2 = [.opened .stream s] := by
  unfold protocolConnect at h ⊢
  split
  · rename_i hudp
    rw [if_pos hudp] at h
    unfold iperfUdpConnect at h ⊢
    cases hdial : netdial .stream test.bindAddress io with
    | mk made events =>
      rw [hdial] at h
      cases made with
      | none => cases h
      | some s' =>
        dsimp only at h ⊢
        split at h
        · cases h
          have hevents := (netdial_table .stream test.bindAddress io).1 s (congrArg Prod.fst hdial)
          rw [hdial] at hevents
          exact hevents
        · cases h
  · rename_i htcp
    rw [if_neg htcp] at h
    unfold iperfTcpConnect at h ⊢
    split at h
    · split at h
      · cases h
      · rename_i hgood
        cases h
        rw [if_neg hgood]
    · cases h

/-- The streams of `CREATE_STREAMS`, if all of them are made, are open and watched, by
induction on their number. -/
theorem createStreams_holds (io : ℕ → StreamIo) (origBindPort : ℤ) (n i : ℕ) {table : OpenTable}
    {test : IperfTest} (h : Holds table test)
    (hallows : kernel.Allows table (createStreamsFrom io origBindPort n i test).2.2)
    (hok : (createStreamsFrom io origBindPort n i test).1 = true) :
    Holds (kernel.run table (createStreamsFrom io origBindPort n i test).2.2)
      (createStreamsFrom io origBindPort n i test).2.1 := by
  induction n generalizing i table test with
  | zero => exact h
  | succ n ih =>
    rw [createStreamsFrom] at hallows hok ⊢
    dsimp only at hallows hok ⊢
    have hbound : Holds table { test with
        bindPort := if origBindPort ≠ 0 then origBindPort + i else origBindPort } :=
      ⟨h.read, h.sockets, h.write⟩
    cases hconnect : protocolConnect { test with
        bindPort := if origBindPort ≠ 0 then origBindPort + i else origBindPort }
        (io i).connect with
    | mk made events =>
      rw [hconnect] at hallows hok
      cases made with
      | none => cases hok
      | some s =>
        have hevents : events = [.opened .stream s] := by
          have hopens := connect_opens (congrArg Prod.fst hconnect)
          rw [hconnect] at hopens
          exact hopens
        subst hevents
        dsimp only at hallows hok ⊢
        split at hok
        · cases hok
        · rename_i sp more hnew
          rw [hnew] at hallows
          dsimp only at hallows hok ⊢
          rw [kernel.run_append, kernel.run_append]
          obtain ⟨hfirst, hrest⟩ := (kernel.allows_append _ _ _).mp hallows
          obtain ⟨hsocket, -⟩ := (kernel.allows_append _ _ _).mp hfirst
          rw [kernel.run_append] at hrest
          have hopens := newStream_opens hnew
          have hwatched : Watched (kernel.run (kernel.step table (.opened .stream s)) more)
              (max test.maxFd s) s :=
            ⟨hsocket.1.1, (isOpen_opened table .stream s).opens hopens, le_max_right _ _⟩
          have hafter := ((hbound.opened .stream s).opens hopens)
          exact ih (i + 1) (hafter.addStream hwatched
            (iperfNewStream_socket (congrArg Prod.fst hnew))) hrest hok

/-- What the client loop keeps until it is over. -/
inductive Running (table : OpenTable) (test : IperfTest) : Prop where
  | holds (h : Holds table test)
  | finished (h : test.state = .iperfDone)

/-- A turn's message leaves the sets as they have to be if the client is still running behind
it, also where it creates streams. -/
theorem message_running {env : ℕ → CallbackInput} {input : TurnInput} {c c' : Client}
    (h : Holds table c.2.test) (hallows : kernel.Allows table (turnDescriptors input c))
    (hmessage : clientMessage env input c = some (true, c')) :
    Running (kernel.run table (turnDescriptors input c)) c'.2.test := by
  unfold turnDescriptors at hallows ⊢
  unfold clientMessage at hmessage
  cases hinput : input.message with
  | none =>
    rw [hinput] at hmessage
    cases hmessage
    exact .holds h
  | some message =>
    rw [hinput] at hmessage hallows
    dsimp only at hmessage hallows ⊢
    unfold iperfHandleMessageClient at hmessage
    cases hbyte : message.byte with
    | none =>
      rw [hbyte] at hmessage
      cases hmessage
    | some byte =>
      rw [hbyte] at hmessage hallows
      cases byte with
      | createStreams =>
        obtain ⟨hok, rfl⟩ := Prod.mk.inj (Option.some.inj hmessage)
        exact .holds
          (createStreams_holds message.streams _ _ 0 (h.state .createStreams) hallows hok)
      | testStart =>
        obtain ⟨-, rfl⟩ := Prod.mk.inj (Option.some.inj hmessage)
        exact .holds ((h.state .testStart).keeps (keepsSets_testStart message.start c.1 _))
      | exchangeResults =>
        obtain ⟨r, hr, heq⟩ := Option.map_eq_some_iff.mp hmessage
        obtain ⟨hok, rfl⟩ := Prod.mk.inj heq
        unfold ClientLoop.iperfExchangeResults at hr
        split at hr
        · split at hr
          · exact .holds ((h.state .exchangeResults).keeps (keepsSets_results hr))
          · cases hr
            cases hok
        · cases hr
          cases hok
      | displayResults =>
        cases hmessage
        exact .finished rfl
      | iperfDone =>
        cases hmessage
        exact .finished rfl
      | paramExchange =>
        obtain ⟨-, rfl⟩ := Prod.mk.inj (Option.some.inj hmessage)
        exact .holds (h.state .paramExchange)
      | testRunning =>
        cases hmessage
        exact .holds (h.state .testRunning)
      | _ => cases hmessage

/-- The part of a turn behind the message transfers and runs timers, which only move sockets
of streams in and out of the write set. -/
theorem work_running {platform : Platform} {env : ℕ → CallbackInput} {input : TurnInput}
    {c c' : Client} (h : Running table c.2.test)
    (hwork : clientWork platform env input c = some (true, c')) : Running table c'.2.test := by
  unfold clientWork at hwork
  cases h with
  | finished h =>
    rw [h] at hwork
    cases hwork
    exact .finished h
  | holds h =>
    split at hwork
    · dsimp only at hwork
      split at hwork
      · obtain ⟨timed, hrun, heq⟩ := Option.map_eq_some_iff.mp hwork
        have htimed : Holds table timed.2.test :=
          (h.keeps (keepsSets_transfer input.round c.2.test)).keeps (timersKeep_run hrun).keeps
        split at heq
        · obtain ⟨-, rfl⟩ := Prod.mk.inj heq
          have hdone : Holds table { timed.2.test with done := true, cpuUtil := input.cpuUtil } :=
            ⟨htimed.read, htimed.sockets, htimed.write⟩
          exact .holds ((hdone.keeps (keepsSets_stats platform _ _)).state .testEnd)
        · cases heq
          exact .holds htimed
      · cases hwork
    · split at hwork
      · obtain ⟨-, rfl⟩ := Prod.mk.inj (Option.some.inj hwork)
        unfold drain
        split
        · exact .holds (h.keeps (keepsSets_transfer input.round c.2.test))
        · exact .holds h
      · cases hwork
        exact .holds h

/-- Only a running test waits for timers. -/
theorem clientWork_stuck {platform : Platform} {env : ℕ → CallbackInput} {input : TurnInput}
    {c : Client} (hwork : clientWork platform env input c = none) :
    c.2.test.state = .testRunning := by
  unfold clientWork at hwork
  split at hwork
  · assumption
  · split at hwork
    · cases hwork
    · cases hwork

/-- A turn that does not come back has done nothing to descriptors, as it is stuck before it
creates streams. -/
theorem turnDescriptors_stuck {platform : Platform} {env : ℕ → CallbackInput} {input : TurnInput}
    {c : Client} (hturn : clientTurn platform env input c = none) :
    turnDescriptors input c = [] := by
  unfold turnDescriptors
  unfold clientTurn clientMessage at hturn
  cases hmessage : input.message with
  | none => rfl
  | some message =>
    rw [hmessage] at hturn
    dsimp only at hturn ⊢
    unfold iperfHandleMessageClient at hturn
    cases hbyte : message.byte with
    | none => rfl
    | some byte =>
      rw [hbyte] at hturn
      cases byte with
      | createStreams =>
        dsimp only [Option.bind_some] at hturn
        split at hturn
        · have hrunning := clientWork_stuck hturn
          have hstate : (iperfCreateStreams message.streams
              { c.2.test with state := .createStreams }).2.1.state = .createStreams :=
            congrArg IperfTest.state (createStreamsFrom_spec message.streams _ _ 0 _).1
          cases hstate.symm.trans hrunning
        · cases hturn
      | displayResults => cases hturn
      | _ => rfl

variable {platform : Platform} {env : ℕ → CallbackInput}

/-- A turn of the loop. -/
theorem turn_running {input : TurnInput} {c c' : Client} (h : Holds table c.2.test)
    (hallows : kernel.Allows table (turnDescriptors input c))
    (hturn : clientTurn platform env input c = some (true, c')) :
    Running (kernel.run table (turnDescriptors input c)) c'.2.test := by
  obtain ⟨⟨ok, received⟩, hmessage, hwork⟩ := Option.bind_eq_some_iff.mp hturn
  cases ok with
  | false => cases hwork
  | true => exact work_running (message_running h hallows hmessage) hwork

/-- Any number of turns leaves the sets as they have to be, by induction; a client that has
ended is not in front of a `select` any more. -/
theorem clientLoop_running (inputs : List TurnInput) (c : Client) :
    execKernel.Triple (Running · c.2.test) (clientLoop platform env inputs c)
      fun e table => e.1 = .running → Holds table e.2.2.test := by
  induction inputs generalizing c with
  | nil =>
    rw [clientLoop]
    refine Monitor.Triple.pure fun table h hrunning => ?_
    cases h with
    | holds h => exact h
    | finished h =>
      rw [h] at hrunning
      cases hrunning
  | cons input rest ih =>
    rw [clientLoop]
    split
    · refine Monitor.Triple.pure fun _ _ h => ?_
      cases h
    · rename_i hstate
      have hholds : ∀ table, Running table c.2.test → Holds table c.2.test := by
        intro table h
        cases h with
        | holds h => exact h
        | finished h => exact absurd h hstate
      cases hturn : clientTurn platform env input c with
      | none =>
        refine triple_emits (R := (Holds · c.2.test)) (fun table h _ => ?_)
          (Monitor.Triple.pure fun _ h _ => h)
        rw [turnDescriptors_stuck hturn]
        exact hholds table h
      | some r =>
        obtain ⟨ok, c'⟩ := r
        cases ok with
        | true =>
          exact triple_emits (fun table h hallows =>
            turn_running (hholds table h) hallows hturn) (ih c')
        | false =>
          refine triple_emits (R := fun _ => True) (fun _ _ _ => trivial)
            (Monitor.Triple.pure fun _ _ h => ?_)
          cases h

/-- A client in front of `iperf_run_client`: what it has is open. -/
structure Connectable (table : OpenTable) (test : IperfTest) : Prop where
  control : 0 ≤ test.ctrlSck → IsOpen table test.ctrlSck
  sockets : ∀ fd ∈ socketsOf test, Watched table test.maxFd fd

/-- A client that has not been served yet may connect. -/
theorem Unserved.connectable (h : Unserved test) (table : OpenTable) : Connectable table test where
  control := by
    intro hnonneg
    rw [h.ctrlSck] at hnonneg
    omega
  sockets := by
    unfold socketsOf
    rw [h.streams]
    exact fun fd hfd => absurd hfd (Finset.notMem_empty fd)

/-- What a connection that is there leaves of the sets: the control socket is watched for
reading and nothing else is. -/
theorem connect_made {input : ConnectInput}
    (hok : (JniExec.iperfConnect input test).1 = true) :
    ∃ s, 0 ≤ s ∧
      (JniExec.iperfConnect input test).2.1 = { test with
        readSet := {s}
        writeSet := ∅
        ctrlSck := s
        maxFd := max test.maxFd s } ∧
      ((JniExec.iperfConnect input test).2.2 = [.opened .control s] ∨
        (JniExec.iperfConnect input test).2.2 = [] ∧ test.ctrlSck = s) := by
  unfold JniExec.iperfConnect at hok ⊢
  dsimp only at hok ⊢
  generalize hdial : (if test.ctrlSck < 0 then netdial .control test.bindAddress input.dial
    else (some test.ctrlSck, [])) = dialled at hok ⊢
  split at hok
  · cases hok
  · rename_i hnonneg
    split at hok
    · rename_i hcookie
      rw [if_neg hnonneg, if_pos hcookie]
      refine ⟨dialled.1.getD (-1), not_lt.mp hnonneg, rfl, ?_⟩
      split at hdial
      · left
        subst hdial
        cases hmade : (netdial .control test.bindAddress input.dial).1 with
        | none =>
          rw [hmade] at hnonneg
          exact absurd (by decide) hnonneg
        | some s => exact (netdial_table .control test.bindAddress input.dial).1 s hmade
      · subst hdial
        exact Or.inr ⟨rfl, rfl⟩
    · cases hok

/-- The control connection. -/
theorem connect_holds {input : ConnectInput} (h : Connectable table test)
    (hok : (JniExec.iperfConnect input test).1 = true) :
    Holds (kernel.run table (JniExec.iperfConnect input test).2.2)
      (JniExec.iperfConnect input test).2.1 := by
  obtain ⟨s, hnonneg, htest, hevents⟩ := connect_made hok
  rw [htest]
  suffices hopen : IsOpen (kernel.run table (JniExec.iperfConnect input test).2.2) s ∧
      ∀ fd ∈ socketsOf test,
        Watched (kernel.run table (JniExec.iperfConnect input test).2.2) test.maxFd fd by
    refine ⟨?_, fun fd hfd => (hopen.2 fd hfd).mono (le_max_left _ _), Finset.empty_subset _⟩
    intro fd hfd
    rw [Finset.mem_singleton.mp hfd]
    exact ⟨hnonneg, hopen.1, le_max_right _ _⟩
  rcases hevents with hnew | ⟨hold, hctrl⟩
  · rw [hnew]
    exact ⟨isOpen_opened table .control s, fun fd hfd => (h.sockets fd hfd).opened .control s⟩
  · rw [hold]
    subst hctrl
    exact ⟨h.control hnonneg, h.sockets⟩

/-- The whole of a client. -/
theorem runClient_holds (entry : EntryInput) (c : Client) :
    execKernel.Triple (Connectable · c.2.test) (iperfRunClient platform env .live entry c)
      fun e table => e.1 = .running → Holds table e.2.2.test := by
  unfold iperfRunClient
  refine triple_silent_bind (by decide) fun _ => triple_silent_bind (by decide) fun _ => ?_
  split
  · exact Monitor.Triple.pure fun _ _ h => nomatch h
  · dsimp only
    split
    · rename_i hok
      refine triple_emits (R := (Running · (JniExec.iperfConnect entry.connect c.2.test).2.1))
        (fun table h _ => .holds (connect_holds h hok)) ?_
      refine Monitor.Triple.bind (clientLoop_running entry.turns
        (Client.withTest c (JniExec.iperfConnect entry.connect c.2.test).2.1)) fun e => ?_
      split
      · exact Monitor.Triple.pure fun _ _ h => nomatch h
      · exact Monitor.Triple.pure fun _ h => h
    · exact triple_emits (R := fun _ => True) (fun _ _ _ => trivial)
        (Monitor.Triple.pure fun _ _ h => nomatch h)

/-- What is open and what is watched in front of a `select` of either end. -/
inductive Selects (platform : Platform) (env : ℕ → CallbackInput) : OpenTable → IperfTest → Prop
  /-- A server that has listened and taken any number of turns. -/
  | server {table : OpenTable} {io : ListenIo} {inputs : List ServerTurn} {s s' : ServerRun}
      (hunserved : Unserved s.test)
      (hkernel : kernel.Allows table (iperfRunServer platform env io inputs s).events)
      (hruns : (iperfRunServer platform env io inputs s).value = some (true, s'))
      (hstate : s'.test.state ≠ .iperfDone) :
      Selects platform env (kernel.run table (iperfRunServer platform env io inputs s).events)
        s'.test
  /-- A client that has connected and taken any number of turns. -/
  | client {table : OpenTable} {entry : EntryInput} {c c' : Client}
      (hconnectable : Connectable table c.2.test)
      (hkernel : execKernel.Allows table (iperfRunClient platform env .live entry c).events)
      (hruns : (iperfRunClient platform env .live entry c).value = some (.running, c')) :
      Selects platform env
        (execKernel.run table (iperfRunClient platform env .live entry c).events) c'.2.test

/-- In front of every `select` of a server or of a client, every descriptor in the read set or
in the write set is open and is at most `max_fd`. -/
theorem selects_setsValid (h : Selects platform env table test) : SetsValid table test := by
  cases h with
  | server hunserved hkernel hruns hstate =>
    have hsteady := runServer_steady platform env _ _ hunserved _ trivial hkernel _ hruns rfl
    exact (hsteady.of_state hstate).watches.setsValid
  | client hconnectable hkernel hruns =>
    have hholds := runClient_holds _ _ _ hconnectable hkernel _ hruns rfl
    exact hholds.watches.setsValid

/-- A client that is told to create its stream. -/
def streamEntry : EntryInput where
  jsonStart := true
  connect := ⟨⟨true, some 4, true, true, true, true⟩, true⟩
  turns := [{ closedTurn with
    message := closedTurn.message.map fun m => { m with byte := some .createStreams } }]
  jsonFinish := true

/-- A client as `exec` prepares it. -/
def preparedClient : Client :=
  ({}, { test := preparedTest ⟨false, false, fun h => h⟩ (brokenCall true) })

/-- A server in front of its first client. -/
def idleServer : ServerRun where
  timed := ({}, { test :=
    { iperfDefaults ⟨true, true, fun _ => rfl⟩ iperfNewTest with role := .server } })
  cookie := List.replicate cookieSize 0
  streamsAccepted := 0
  cookie_length := rfl

/-- A turn that finds the given descriptor readable: a control connection of a UDP client, or the
datagram that opens its stream. -/
def readableTurn (fd : ℤ) : ServerTurn where
  selected := true
  round := { (messageTurn .testStart 0).round with readSet := {fd} }
  connection := some {
    socket := 4
    sent := List.replicate 36 97 ++ [0]
    reads := [.data 36]
    writes := []
    stack := List.replicate cookieSize 0
    newStream := ⟨true, some 7, true, none, true⟩
    stack_length := rfl }
  accept := {
    sendExchange := true
    message := some (sendParameters
      { protocol := .udp, numStreams := 1, settings := { blksize := 1460, rate := 1048576 } })
    listen := ⟨some 5, true, true⟩
    sendCreate := true
    setAffinity := true }
  message := ⟨.failed, (0, 0, 0), true, none, true, true⟩
  datagram := ⟨true, ⟨some 6, true, true⟩, true, ⟨true, some 7, true, none, true⟩⟩
  restart := ⟨some 3, true, true⟩
  sendStart := true
  start := ⟨some {}, some {}, fun _ => true, some {}, true, true, fun _ => {}, fun _ => true⟩
  sendRunning := true
  timers := true

/-- The `select` behind the stream of that client, and the one of a server behind the datagram
that opened a stream. -/
theorem stream_selects :
    (∃ c, (iperfRunClient ⟨false, false, fun h => h⟩ (brokenCall true).callbacks .live streamEntry
        preparedClient).value = some (.running, c) ∧
      SetsValid [(.buffer, 6), (.stream, 5), (.control, 4)] c.2.test) ∧
    ∃ s, (iperfRunServer ⟨true, true, fun _ => rfl⟩ quietCallbacks ⟨some 3, true, true⟩
        [readableTurn 3, readableTurn 5] idleServer).value = some (true, s) ∧
      s.test.streams.map (·.socket) = [5] ∧
      SetsValid [(.buffer, 7), (.stream, 5), (.control, 4), (.control, 3)] s.test := by
  constructor
  · have hprogress : (iperfRunClient ⟨false, false, fun h => h⟩ (brokenCall true).callbacks .live
        streamEntry preparedClient).value.map (·.1) = some .running := by
      decide +kernel
    obtain ⟨⟨progress, c⟩, hruns, hrunning⟩ := Option.map_eq_some_iff.mp hprogress
    cases hrunning
    refine ⟨c, hruns, ?_⟩
    have htable : execKernel.run [] (iperfRunClient ⟨false, false, fun h => h⟩
        (brokenCall true).callbacks .live streamEntry preparedClient).events =
          [(.buffer, 6), (.stream, 5), (.control, 4)] := by
      decide +kernel
    rw [← htable]
    exact selects_setsValid (.client (Unserved.connectable ⟨rfl, rfl⟩ []) (by decide +kernel) hruns)
  · have hserved : (iperfRunServer ⟨true, true, fun _ => rfl⟩ quietCallbacks ⟨some 3, true, true⟩
        [readableTurn 3, readableTurn 5] idleServer).value.map (fun r =>
          (r.1, r.2.test.state, r.2.test.streams.map (·.socket))) =
        some (true, .testRunning, [5]) := by
      decide +kernel
    obtain ⟨⟨ok, s⟩, hruns, hfigures⟩ := Option.map_eq_some_iff.mp hserved
    obtain ⟨hok, hrest⟩ := Prod.mk.inj hfigures
    obtain ⟨hstate, hsockets⟩ := Prod.mk.inj hrest
    dsimp only at hok hstate hsockets
    subst hok
    refine ⟨s, hruns, hsockets, ?_⟩
    have htable : kernel.run [] (iperfRunServer ⟨true, true, fun _ => rfl⟩ quietCallbacks
        ⟨some 3, true, true⟩ [readableTurn 3, readableTurn 5] idleServer).events =
          [(.buffer, 7), (.stream, 5), (.control, 4), (.control, 3)] := by
      decide +kernel
    rw [← htable]
    refine selects_setsValid (.server ⟨rfl, rfl⟩ (by decide +kernel) hruns ?_)
    rw [hstate]
    decide

end IperfRuntime.SelectMoments
