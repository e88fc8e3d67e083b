import IperfRuntime.EndpointFrame
import IperfRuntime.JniExec

/-!
# Descriptors of a native call

Which descriptors a native call has open, as its trace tells. The client closes the sockets
of its streams in `iperf_client_end` and their files in `iperf_free_stream`; no routine on
its way closes the control socket. Descriptors that the virtual machine opens on its own,
and those of a server, are outside this account.
-/

namespace IperfRuntime.DescriptorLedger

open TimerQueue TestState EntryPoints EventTrace IntervalStats StreamCreation ClientTimers
  ClientRun ClientLoop EndpointFrame
  JniExec

/-- The open descriptors with what they were opened for. -/
abbrev OpenTable := List (FdKind × ℤ)

/-- The kernel gives out no number that is in use. -/
def kernel : Monitor OpenTable FdEvent where
  step
    | table, .opened kind fd => (kind, fd) :: table
    | table, .closed fd => table.filter fun e => e.2 ≠ fd
  allows
    | table, .opened _ fd => 0 ≤ fd ∧ ∀ e ∈ table, e.2 ≠ fd
    | _, .closed _ => True

instance : ∀ (table : OpenTable) (event : FdEvent), Decidable (kernel.allows table event)
  | table, .opened _ fd => inferInstanceAs (Decidable (0 ≤ fd ∧ ∀ e ∈ table, e.2 ≠ fd))
  | _, .closed _ => inferInstanceAs (Decidable True)

/-- The descriptors in a trace. -/
def descriptorEvent : ExecEvent → Option FdEvent
  | .fd event => some event
  | _ => none

/-- The kernel behind a native call. -/
def execKernel : Monitor OpenTable ExecEvent := kernel.comap descriptorEvent

/-- What is open when a trace that opens and closes everything itself is over. -/
def openAfter (trace : List ExecEvent) : OpenTable := execKernel.run [] trace

/-- The control socket, the sockets of the streams and their buffer files are closed. -/
def GivenBack (table : OpenTable) : Prop := ∀ e ∈ table, e.1 = .diskfile

instance (table : OpenTable) : Decidable (GivenBack table) :=
  inferInstanceAs (Decidable (∀ e ∈ table, e.1 = .diskfile))

instance (table : OpenTable) (event : ExecEvent) : Decidable (execKernel.allows table event) :=
  inferInstanceAs (Decidable (∀ e' ∈ descriptorEvent event, kernel.allows table e'))

/-- Events that leave an open control socket open and name other descriptors only. -/
def Spares (s : ℤ) (events : List FdEvent) (named : List ℤ) : Prop :=
  ∀ table, (FdKind.control, s) ∈ table → kernel.Allows table events →
    (FdKind.control, s) ∈ kernel.run table events ∧ s ∉ named

variable {s : ℤ} {events more : List FdEvent} {named named' : List ℤ}

/-- Two parts that spare a descriptor spare it together. -/
theorem Spares.append (h : Spares s events named) (h' : Spares s more named') :
    Spares s (events ++ more) (named ++ named') := by
  intro table hopen hallows
  obtain ⟨hfirst, hsecond⟩ := (kernel.allows_append table events more).mp hallows
  obtain ⟨hkept, hnamed⟩ := h table hopen hfirst
  obtain ⟨hkept', hnamed'⟩ := h' _ hkept hsecond
  rw [kernel.run_append]
  exact ⟨hkept', fun hmem => (List.mem_append.mp hmem).elim hnamed hnamed'⟩

/-- Nothing spares everything. -/
theorem spares_nil (s : ℤ) : Spares s [] [] := fun _ hopen _ => ⟨hopen, List.not_mem_nil⟩

/-- Naming fewer descriptors spares no less. -/
theorem Spares.subset (h : Spares s events named) (hsub : ∀ fd ∈ named', fd ∈ named) :
    Spares s events named' := by
  intro table hopen hallows
  obtain ⟨hkept, hnamed⟩ := h table hopen hallows
  exact ⟨hkept, fun hmem => hnamed (hsub s hmem)⟩

/-- A new descriptor is another one. -/
theorem spares_opened (s : ℤ) (kind : FdKind) (fd : ℤ) : Spares s [.opened kind fd] [fd] := by
  intro table hopen hallows
  obtain ⟨⟨-, hfresh⟩, -⟩ := hallows
  have hne : s ≠ fd := hfresh _ hopen
  exact ⟨List.mem_cons_of_mem _ hopen, fun hmem => hne (List.mem_singleton.mp hmem)⟩

/-- Closing another descriptor. -/
theorem mem_closed {table : OpenTable} {fd : ℤ} (hopen : (FdKind.control, s) ∈ table)
    (hne : s ≠ fd) : (FdKind.control, s) ∈ kernel.step table (.closed fd) := by
  dsimp only [kernel]
  rw [List.mem_filter]
  exact ⟨hopen, decide_eq_true hne⟩

/-- Events behind which a descriptor they name is closed. -/
theorem Spares.closed (h : Spares s events named) {fd : ℤ} (hfd : fd ∈ named) :
    Spares s (events ++ [.closed fd]) named := by
  intro table hopen hallows
  obtain ⟨hfirst, -⟩ := (kernel.allows_append table events [.closed fd]).mp hallows
  obtain ⟨hkept, hnamed⟩ := h table hopen hfirst
  have hne : s ≠ fd := fun he => hnamed (he ▸ hfd)
  rw [kernel.run_append]
  exact ⟨mem_closed hkept hne, hnamed⟩

/-- Closing other descriptors. -/
theorem spares_closes {fds : List ℤ} (h : s ∉ fds) : Spares s (fds.map .closed) [] := by
  intro table hopen hallows
  refine ⟨?_, List.not_mem_nil⟩
  induction fds generalizing table with
  | nil => exact hopen
  | cons fd rest ih =>
    have hne : s ≠ fd := fun he => h (he ▸ List.mem_cons_self)
    have hrest : s ∉ rest := fun hmem => h (List.mem_cons_of_mem _ hmem)
    rw [List.map_cons, Monitor.run_cons]
    exact ih hrest _ (mem_closed hopen hne) hallows.2

/-- `netdial` only touches the socket it opens. -/
theorem netdial_spares (s : ℤ) (kind : FdKind) (bindAddress : Option String) (io : ConnectIo) :
    Spares s (netdial kind bindAddress io).2 (netdial kind bindAddress io).1.toList := by
  unfold netdial
  split
  · rename_i fd _ _
    have hopened := spares_opened s kind fd
    split
    · exact (hopened.closed List.mem_cons_self).subset (by simp)
    · exact hopened
  · exact spares_nil s

/-- So does the connection of a protocol. -/
theorem protocolConnect_spares (s : ℤ) (test : IperfTest) (io : ConnectIo) :
    Spares s (protocolConnect test io).2 (protocolConnect test io).1.toList := by
  unfold protocolConnect
  split
  · unfold iperfUdpConnect
    have hdial := netdial_spares s .stream test.bindAddress io
    split
    · rename_i fd events hevents
      rw [hevents] at hdial
      split
      · exact hdial
      · exact hdial.subset (by simp)
    · rename_i events hevents
      rw [hevents] at hdial
      exact hdial
  · unfold iperfTcpConnect
    split
    · rename_i fd _ _
      have hopened := spares_opened s .stream fd
      split
      · exact (hopened.closed List.mem_cons_self).subset (by simp)
      · exact hopened
    · exact spares_nil s

/-- The files of a stream. -/
def filesOf (sp : IperfStream) : List ℤ := [sp.bufferFd, sp.diskfileFd]

/-- A new stream spares the control socket: it only touches the files it opens for itself, and
the socket it is given stays as it is. -/
theorem iperfNewStream_spares (hs : 0 ≤ s) (test : IperfTest) (io : NewStreamIo) (fd : ℤ) :
    Spares s (iperfNewStream test io fd).2 ((iperfNewStream test io fd).1.toList.flatMap filesOf) ∧
      ∀ sp, (iperfNewStream test io fd).1 = some sp → sp.socket = fd := by
  have hnone : s ≠ -1 := by omega
  unfold iperfNewStream
  split
  · rename_i file _ _
    have hbuffer := spares_opened s .buffer file
    have hminus : Spares s [.opened .buffer file] [file, -1] := by
      intro table hopen hallows
      obtain ⟨hkept, hnamed⟩ := hbuffer table hopen hallows
      refine ⟨hkept, ?_⟩
      simp only [List.mem_cons, List.not_mem_nil, or_false, not_or]
      exact ⟨fun he => hnamed (List.mem_singleton.mpr he), hnone⟩
    dsimp only
    split
    · exact ⟨hbuffer.subset (by simp), by simp⟩
    · split
      · split
        · exact ⟨hbuffer.subset (by simp), by simp⟩
        · rename_i disk _
          have hboth := hbuffer.append (spares_opened s .diskfile disk)
          split
          · refine ⟨hboth.subset (by simp [filesOf]), ?_⟩
            rintro sp ⟨⟩
            rfl
          · exact ⟨(hboth.closed List.mem_cons_self).subset (by simp), by simp⟩
      · split
        · refine ⟨hminus.subset (by simp [filesOf]), ?_⟩
          rintro sp ⟨⟩
          rfl
        · exact ⟨(hbuffer.closed List.mem_cons_self).subset (by simp), by simp⟩
  · exact ⟨spares_nil s, by simp⟩

/-- The descriptors of a stream, as a list. -/
def fdsOf (d : StreamDescriptors) : List ℤ := [d.socket, d.bufferFd, d.diskfileFd]

/-- New streams have descriptors of their own, none of which is the control socket, by
induction on the number of streams. -/
theorem createStreams_spares (hs : 0 ≤ s) (io : ℕ → StreamIo) (origBindPort : ℤ) (n i : ℕ)
    (test : IperfTest) :
    ∃ added, (createStreamsFrom io origBindPort n i test).2.1.streams.map descriptorsOf =
        test.streams.map descriptorsOf ++ added ∧
      Spares s (createStreamsFrom io origBindPort n i test).2.2 (added.flatMap fdsOf) := by
  induction n generalizing i test with
  | zero => exact ⟨[], by simp [createStreamsFrom], spares_nil s⟩
  | succ n ih =>
    rw [createStreamsFrom]
    dsimp only
    have hconnect := protocolConnect_spares s { test with
      bindPort := if origBindPort ≠ 0 then origBindPort + i else origBindPort } (io i).connect
    split
    · rename_i events hevents
      rw [hevents] at hconnect
      exact ⟨[], by simp, hconnect⟩
    · rename_i fd events hevents
      rw [hevents] at hconnect
      obtain ⟨hfiles, hsocket⟩ := iperfNewStream_spares hs (watchSocket fd { test with
        bindPort := if origBindPort ≠ 0 then origBindPort + i else origBindPort })
        (io i).newStream fd
      split
      · rename_i more hmore
        rw [hmore] at hfiles
        exact ⟨[], by simp [watchSocket], (hconnect.append hfiles).subset (by simp)⟩
      · rename_i sp more hmore
        rw [hmore] at hfiles hsocket
        have hfd : sp.socket = fd := hsocket sp rfl
        obtain ⟨added, hadded, hrest⟩ := ih (i + 1) (iperfAddStream sp (watchSocket fd { test with
          bindPort := if origBindPort ≠ 0 then origBindPort + i else origBindPort }))
        refine ⟨descriptorsOf sp :: added, ?_, ?_⟩
        · dsimp only
          rw [hadded]
          simp [iperfAddStream, watchSocket, descriptorsOf]
        · refine ((hconnect.append hfiles).append hrest).subset ?_
          intro fd' hmem
          simp only [List.flatMap_cons, fdsOf, descriptorsOf, hfd, List.mem_append, List.mem_cons,
            List.not_mem_nil, or_false] at hmem
          simp only [Option.toList_some, filesOf, List.flatMap_cons, List.flatMap_nil,
            List.append_nil, List.mem_append, List.mem_cons, List.not_mem_nil, or_false]
          tauto

/-- A client whose control socket is open, with streams on other descriptors. -/
structure HoldsControl (s : ℤ) (test : IperfTest) (table : OpenTable) : Prop where
  role : test.role = .client
  kept : (FdKind.control, s) ∈ table
  nonneg : 0 ≤ s
  ctrl : test.ctrlSck = s
  apart : s ∉ (test.streams.map descriptorsOf).flatMap fdsOf

variable {test test' : IperfTest} {table : OpenTable}

/-- What keeps the endpoints keeps the control connection in the ledger. -/
theorem HoldsControl.same (h : HoldsControl s test table) (hsame : SameEndpoints test test') :
    HoldsControl s test' table where
  role := hsame.role.trans h.role
  kept := h.kept
  nonneg := h.nonneg
  ctrl := hsame.ctrlSck.trans h.ctrl
  apart := by
    rw [hsame.streams]
    exact h.apart

/-- The streams that a message creates. -/
theorem HoldsControl.create (h : HoldsControl s test table) (io : ℕ → StreamIo)
    (hallows : kernel.Allows table (iperfCreateStreams io test).2.2) :
    HoldsControl s (iperfCreateStreams io test).2.1
      (kernel.run table (iperfCreateStreams io test).2.2) := by
  obtain ⟨added, hadded, hspares⟩ :=
    createStreams_spares h.nonneg io test.bindPort test.numStreams.toNat 0 test
  obtain ⟨hkept, hnew⟩ := hspares table h.kept hallows
  obtain ⟨hrole, hctrl⟩ := createStreams_ends io test
  refine ⟨hrole.trans h.role, hkept, h.nonneg, hctrl.trans h.ctrl, ?_⟩
  unfold iperfCreateStreams
  rw [hadded, List.flatMap_append]
  exact fun hmem => (List.mem_append.mp hmem).elim h.apart hnew

/-- The sockets that `iperf_client_end` closes. -/
theorem HoldsControl.closeSockets (h : HoldsControl s test table)
    (hallows : kernel.Allows table (test.streams.map fun sp => .closed sp.socket)) :
    HoldsControl s test (kernel.run table (test.streams.map fun sp => .closed sp.socket)) := by
  have hsockets : s ∉ test.streams.map (·.socket) := by
    intro hmem
    obtain ⟨sp, hsp, hsocket⟩ := List.mem_map.mp hmem
    refine h.apart (List.mem_flatMap.mpr ⟨descriptorsOf sp, List.mem_map_of_mem hsp, ?_⟩)
    rw [← hsocket]
    exact List.mem_cons_self
  have hspares := spares_closes hsockets
  rw [List.map_map] at hspares
  exact ⟨h.role, (hspares table h.kept hallows).1, h.nonneg, h.ctrl, h.apart⟩

/-- The descriptors of a turn leave the control socket open: what the turn closes belongs to a
stream. -/
theorem HoldsControl.turn (h : HoldsControl s test table) {c : Client} (hc : c.2.test = test)
    (input : TurnInput) (hallows : kernel.Allows table (turnDescriptors input c)) :
    HoldsControl s (turnTest input test) (kernel.run table (turnDescriptors input c)) := by
  subst hc
  unfold turnDescriptors at hallows ⊢
  unfold turnTest receivedTest
  cases hmessage : input.message with
  | none => exact h
  | some message =>
    rw [hmessage] at hallows
    cases hbyte : message.byte with
    | none =>
      dsimp only
      rw [hbyte]
      exact h
    | some byte =>
      dsimp only at hallows ⊢
      rw [hbyte] at hallows
      rw [hbyte]
      cases byte with
      | createStreams =>
        have hstate : HoldsControl s { c.2.test with state := .createStreams } table :=
          h.same ⟨rfl, rfl, rfl⟩
        exact hstate.create message.streams hallows
      | displayResults => exact h.closeSockets hallows
      | _ => exact h

/-- The files that `iperf_free_test` closes. -/
theorem HoldsControl.closeFiles (h : HoldsControl s test table)
    (hallows : kernel.Allows table (test.streams.flatMap freeStream)) :
    (FdKind.control, s) ∈ kernel.run table (test.streams.flatMap freeStream) := by
  have hfiles : test.streams.flatMap freeStream = (test.streams.flatMap fun sp =>
      sp.bufferFd :: if 0 ≤ sp.diskfileFd then [sp.diskfileFd] else []).map .closed := by
    rw [List.map_flatMap]
    refine List.flatMap_congr fun sp _ => ?_
    unfold freeStream
    split <;> rfl
  rw [hfiles] at hallows ⊢
  have hnot : s ∉ test.streams.flatMap fun sp =>
      sp.bufferFd :: if 0 ≤ sp.diskfileFd then [sp.diskfileFd] else [] := by
    intro hmem
    obtain ⟨sp, hsp, hfile⟩ := List.mem_flatMap.mp hmem
    refine h.apart (List.mem_flatMap.mpr ⟨descriptorsOf sp, List.mem_map_of_mem hsp, ?_⟩)
    split at hfile
    · exact List.mem_cons_of_mem _ hfile
    · have hbuffer : s = sp.bufferFd := List.mem_singleton.mp hfile
      rw [hbuffer]
      exact List.mem_cons_of_mem _ List.mem_cons_self
  exact (spares_closes hnot table h.kept hallows).1

variable {platform : Platform} {env : ℕ → CallbackInput}

/-- For events on descriptors the two kernels agree. -/
theorem execKernel_map (table : OpenTable) (events : List FdEvent) :
    execKernel.run table (events.map .fd) = kernel.run table events ∧
      (execKernel.Allows table (events.map .fd) ↔ kernel.Allows table events) := by
  have hfd : ∀ e, descriptorEvent (.fd e) = some e := fun _ => rfl
  exact kernel.comap_map hfd table events

/-- Emitting descriptor events and going on. -/
theorem triple_emits {β : Type} {P R : OpenTable → Prop} {Q : β → OpenTable → Prop}
    {events : List FdEvent} {f : Unit → Traced ExecEvent β}
    (hevents : ∀ table, P table → kernel.Allows table events → R (kernel.run table events))
    (hf : execKernel.Triple R (f ⟨⟩) Q) :
    execKernel.Triple P (.emits (events.map .fd) >>= f) Q := by
  refine Monitor.Triple.emits (fun table hP hallows => ?_) hf
  obtain ⟨hrun, hallowed⟩ := execKernel_map table events
  rw [hrun]
  exact hevents table hP (hallowed.mp hallows)

/-- The client loop keeps the control socket open. -/
theorem clientLoop_holds (s : ℤ) (inputs : List TurnInput) (c : Client) :
    execKernel.Triple (HoldsControl s c.2.test) (clientLoop platform env inputs c)
      fun e table => HoldsControl s e.2.2.test table := by
  induction inputs generalizing c with
  | nil => exact Monitor.Triple.pure fun _ h => h
  | cons input rest ih =>
    rw [clientLoop]
    split
    · exact Monitor.Triple.pure fun _ h => h
    · cases hturn : clientTurn platform env input c with
      | none =>
        refine triple_emits (fun table h hallows => ?_) (Monitor.Triple.pure fun _ h => h)
        exact ⟨h.role, (h.turn rfl input hallows).kept, h.nonneg, h.ctrl, h.apart⟩
      | some r =>
        have hsame := clientTurn_endpoints hturn
        have hafter : ∀ table, HoldsControl s c.2.test table →
            kernel.Allows table (turnDescriptors input c) →
            HoldsControl s r.2.2.test (kernel.run table (turnDescriptors input c)) :=
          fun table h hallows => (h.turn rfl input hallows).same hsame
        refine triple_emits hafter ?_
        obtain ⟨ok, c'⟩ := r
        cases ok with
        | true => exact ih c'
        | false => exact Monitor.Triple.pure fun _ h => h

/-- A computation that does nothing to descriptors. -/
theorem triple_silent {α : Type} {x : Traced ExecEvent α} {P : OpenTable → Prop}
    {Q : α → OpenTable → Prop} (hx : ∀ e ∈ x.events, descriptorEvent e = none)
    (hQ : ∀ a table, x.value = some a → P table → Q a table) : execKernel.Triple P x Q := by
  intro table hP _ a ha
  have hrun : ∀ (events : List ExecEvent) (table : OpenTable),
      (∀ e ∈ events, descriptorEvent e = none) → execKernel.run table events = table := by
    intro events
    induction events with
    | nil => exact fun _ _ => rfl
    | cons e rest ih =>
      intro table h
      have hstep : execKernel.step table e = table := by
        dsimp only [execKernel, Monitor.comap]
        rw [h e List.mem_cons_self]
      rw [Monitor.run_cons, hstep]
      exact ih table fun e he => h e (List.mem_cons_of_mem _ he)
  rw [hrun _ _ hx]
  exact hQ a table ha hP

/-- Whether the control connection is made. -/
def dials (entry : EntryInput) : Prop := (netdial .control none entry.connect.dial).1.isSome = true

instance (entry : EntryInput) : Decidable (dials entry) :=
  inferInstanceAs (Decidable (_ = true))

/-- A test that `exec` has prepared and no connection has been made for. -/
structure Unconnected (test : IperfTest) : Prop where
  role : test.role = .client
  affinity : test.affinity = -1
  json : test.jsonOutput = false
  address : test.bindAddress = none
  ctrl : test.ctrlSck = -1
  streams : test.streams = []

/-- The prepared test holds no descriptor. -/
theorem preparedTest_unconnected (platform : Platform) (input : ExecInput) :
    Unconnected (preparedTest platform input) := by
  unfold preparedTest parseJavaConfig iperfSetTestReverse iperfSetTestRole
  dsimp only
  split
  · rw [checkSenderHasRetransmits_eq, checkSenderHasRetransmits_eq]
    exact ⟨rfl, rfl, rfl, rfl, rfl, rfl⟩
  · rw [checkSenderHasRetransmits_eq]
    exact ⟨rfl, rfl, rfl, rfl, rfl, rfl⟩

/-- It still holds none while its endpoints stay as they are. -/
theorem Unconnected.same (h : Unconnected test) (hrole : test'.role = test.role)
    (haffinity : test'.affinity = test.affinity) (hjson : test'.jsonOutput = test.jsonOutput)
    (haddress : test'.bindAddress = test.bindAddress) (hctrl : test'.ctrlSck = test.ctrlSck)
    (hstreams : test'.streams = test.streams) : Unconnected test' :=
  ⟨hrole.trans h.role, haffinity.trans h.affinity, hjson.trans h.json, haddress.trans h.address,
    hctrl.trans h.ctrl, hstreams.trans h.streams⟩

/-- What `netdial` leaves open behind it. -/
theorem netdial_table (kind : FdKind) (bindAddress : Option String) (io : ConnectIo) :
    (∀ s, (netdial kind bindAddress io).1 = some s →
      (netdial kind bindAddress io).2 = [.opened kind s]) ∧
    ((netdial kind bindAddress io).1 = none →
      kernel.run [] (netdial kind bindAddress io).2 = []) := by
  unfold netdial
  split
  · split
    · exact ⟨by simp, by simp [kernel]⟩
    · refine ⟨?_, by simp⟩
      rintro s ⟨⟩
      rfl
  · exact ⟨by simp, by simp⟩

/-- A connection that cannot be made. -/
theorem iperfConnect_refused (h : Unconnected test) {input : ConnectInput}
    (hdial : (netdial .control none input.dial).1 = none) :
    (iperfConnect input test).1 = false ∧ Unconnected (iperfConnect input test).2.1 ∧
      kernel.run [] (iperfConnect input test).2.2 = [] := by
  have hneg : test.ctrlSck < 0 := by
    rw [h.ctrl]
    decide
  have hclosed := (netdial_table .control none input.dial).2 hdial
  unfold iperfConnect
  rw [if_pos hneg, h.address]
  dsimp only
  rw [hdial]
  dsimp only [Option.getD_none]
  rw [if_pos (by decide)]
  exact ⟨rfl, h.same rfl rfl rfl h.address.symm h.ctrl.symm rfl, hclosed⟩

/-- A connection that is made leaves the control socket open and recorded in the test,
whatever becomes of the cookie that is sent on it. -/
theorem iperfConnect_made (h : Unconnected test) {input : ConnectInput} {s : ℤ}
    (hdial : (netdial .control none input.dial).1 = some s)
    (hallows : kernel.Allows [] (iperfConnect input test).2.2) :
    HoldsControl s (iperfConnect input test).2.1 (kernel.run [] (iperfConnect input test).2.2) := by
  have hneg : test.ctrlSck < 0 := by
    rw [h.ctrl]
    decide
  have hevents := (netdial_table .control none input.dial).1 s hdial
  have hsame : (iperfConnect input test).2.2 = [.opened .control s] ∧
      (iperfConnect input test).2.1.streams = [] ∧ (iperfConnect input test).2.1.ctrlSck = s ∧
      (iperfConnect input test).2.1.role = .client := by
    unfold iperfConnect
    rw [if_pos hneg, h.address]
    dsimp only
    rw [hdial, hevents]
    dsimp only [Option.getD_some]
    split_ifs
    · exact ⟨rfl, h.streams, rfl, h.role⟩
    · exact ⟨rfl, h.streams, rfl, h.role⟩
    · exact ⟨rfl, h.streams, rfl, h.role⟩
  obtain ⟨hopened, hstreams, hctrl, hrole⟩ := hsame
  rw [hopened] at hallows ⊢
  refine ⟨hrole, List.mem_cons_self, hallows.1.1, hctrl, ?_⟩
  rw [hstreams]
  exact List.not_mem_nil

/-- An entry with the connection already there. -/
theorem iperfConnect_kept (h : HoldsControl s test table) (input : ConnectInput) :
    (iperfConnect input test).2.2 = [] ∧ SameEndpoints test (iperfConnect input test).2.1 := by
  have hnot : ¬test.ctrlSck < 0 := by
    have hnonneg := h.nonneg
    rw [h.ctrl]
    omega
  unfold iperfConnect
  rw [if_neg hnot]
  dsimp only [Option.getD_some]
  split_ifs
  · exact ⟨rfl, rfl, rfl, rfl⟩
  · exact ⟨rfl, rfl, rfl, rfl⟩

/-- What is open behind entries of `iperf_run_client`: nothing if none of them got a
connection, and otherwise a control socket. -/
structure Ledger (dialled : Prop) (test : IperfTest) (table : OpenTable) : Prop where
  none : ¬dialled → Unconnected test ∧ table = []
  some : dialled → ∃ s, HoldsControl s test table

variable {dialled : Prop}

/-- A computation under what is open, case by case. -/
theorem triple_ledger {α : Type} {x : Traced ExecEvent α} {Q : α → OpenTable → Prop}
    (hnone : ¬dialled → Unconnected test → execKernel.Triple (· = []) x Q)
    (hsome : ∀ s, dialled → execKernel.Triple (HoldsControl s test) x Q) :
    execKernel.Triple (Ledger dialled test) x Q := by
  intro table h hallows a ha
  by_cases hd : dialled
  · obtain ⟨s, hs⟩ := h.some hd
    exact hsome s hd table hs hallows a ha
  · obtain ⟨htest, htable⟩ := h.none hd
    exact hnone hd htest table htable hallows a ha

/-- After the dial the ledger is the open control connection. -/
theorem ledger_held {table : OpenTable} (h : HoldsControl s test table) (hd : dialled) :
    Ledger dialled test table :=
  ⟨fun hnot => absurd hd hnot, fun _ => ⟨s, h⟩⟩

/-- Without a dial the ledger is the empty table. -/
theorem ledger_empty {table : OpenTable} (h : Unconnected test) (htable : table = [])
    (hd : ¬dialled) : Ledger dialled test table :=
  ⟨fun _ => ⟨h, htable⟩, fun hdone => absurd hdone hd⟩

/-- Going on behind something that does nothing to descriptors. -/
theorem triple_silent_bind {α β : Type} {x : Traced ExecEvent α} {f : α → Traced ExecEvent β}
    {P : OpenTable → Prop} {Q : β → OpenTable → Prop}
    (hx : ∀ e ∈ x.events, descriptorEvent e = none) (hf : ∀ a, execKernel.Triple P (f a) Q) :
    execKernel.Triple P (x >>= f) Q :=
  Monitor.Triple.bind (triple_silent hx fun _ _ _ h => h) hf

/-- `iperf_run_client` behind the connection. -/
theorem afterConnect_holds (s : ℤ) (ok : Bool) (entry : EntryInput) (c : Client) :
    execKernel.Triple (HoldsControl s c.2.test)
      (if ok then do
        let e ← clientLoop platform env entry.turns c
        if e.1 = .returned true && e.2.2.test.jsonOutput && !entry.jsonFinish then
          pure (.returned false, e.2)
        else pure e
      else pure (.returned false, c))
      fun e table => HoldsControl s e.2.2.test table := by
  split
  · refine Monitor.Triple.bind (clientLoop_holds s entry.turns c) fun e => ?_
    split
    · exact Monitor.Triple.pure fun _ h => h
    · exact Monitor.Triple.pure fun _ h => h
  · exact Monitor.Triple.pure fun _ h => h

/-- A run of the client keeps the ledger. A run that dials adds the control socket to it, and
no way out of the run closes that socket. -/
theorem iperfRunClient_ledger (entry : EntryInput) (c : Client) :
    execKernel.Triple (Ledger dialled c.2.test) (iperfRunClient platform env .live entry c)
      fun e table => Ledger (dialled ∨ dials entry) e.2.2.test table := by
  unfold iperfRunClient
  refine triple_silent_bind (by decide) fun _ => triple_silent_bind (by decide) fun _ => ?_
  refine triple_ledger ?_ ?_
  · intro hd htest
    have hgo : ¬(c.2.test.affinity ≠ -1 || (c.2.test.jsonOutput && !entry.jsonStart)) = true := by
      simp [htest.affinity, htest.json]
    rw [if_neg hgo]
    dsimp only
    cases hdial : (netdial .control none entry.connect.dial).1 with
    | none =>
      obtain ⟨hfailed, hafter, hclosed⟩ := iperfConnect_refused htest hdial
      have hnot : ¬(dialled ∨ dials entry) := by
        unfold dials
        rw [hdial]
        simpa using hd
      have htable : ∀ table : OpenTable, table = [] →
          kernel.Allows table (iperfConnect entry.connect c.2.test).2.2 →
          kernel.run table (iperfConnect entry.connect c.2.test).2.2 = [] := by
        intro table hempty _
        rw [hempty, hclosed]
      rw [hfailed]
      exact triple_emits htable (Monitor.Triple.pure fun table h => ledger_empty hafter h hnot)
    | some s =>
      have hyes : dialled ∨ dials entry := by
        right
        unfold dials
        rw [hdial]
        rfl
      have htable : ∀ table : OpenTable, table = [] →
          kernel.Allows table (iperfConnect entry.connect c.2.test).2.2 →
          HoldsControl s (iperfConnect entry.connect c.2.test).2.1
            (kernel.run table (iperfConnect entry.connect c.2.test).2.2) := by
        intro table hempty hallows
        rw [hempty] at hallows ⊢
        exact iperfConnect_made htest hdial hallows
      exact triple_emits htable ((afterConnect_holds s _ entry
        (Client.withTest c (iperfConnect entry.connect c.2.test).2.1)).weaken
          fun e table h => ledger_held h hyes)
  · intro s hd
    have hyes : dialled ∨ dials entry := Or.inl hd
    split
    · exact Monitor.Triple.pure fun table h => ledger_held h hyes
    · have htable : ∀ table : OpenTable, HoldsControl s c.2.test table →
          kernel.Allows table (iperfConnect entry.connect c.2.test).2.2 →
          HoldsControl s (iperfConnect entry.connect c.2.test).2.1
            (kernel.run table (iperfConnect entry.connect c.2.test).2.2) := by
        intro table h _
        obtain ⟨hnone, hsame⟩ := iperfConnect_kept h entry.connect
        rw [hnone]
        exact h.same hsame
      exact triple_emits htable ((afterConnect_holds s _ entry
        (Client.withTest c (iperfConnect entry.connect c.2.test).2.1)).weaken
          fun e table h => ledger_held h hyes)

/-- Either way the test is a client's. -/
theorem Ledger.role (h : Ledger dialled test table) : test.role = .client := by
  by_cases hd : dialled
  · obtain ⟨s, hs⟩ := h.some hd
    exact hs.role
  · exact (h.none hd).1.role

/-- The switch over the role runs the client, with the client's ledger. -/
theorem runSwitch_ledger (entry : EntryInput) {c : Client} (hrole : c.2.test.role = .client) :
    execKernel.Triple (Ledger dialled c.2.test) (runSwitch .jni platform env .live entry c)
      fun e table => Ledger (dialled ∨ dials entry) e.2.2.test table := by
  unfold runSwitch
  refine triple_silent_bind (by decide) fun _ => ?_
  rw [if_pos hrole]
  refine Monitor.Triple.bind (iperfRunClient_ledger entry c) fun e => ?_
  refine triple_silent ?_ ?_
  · split
    · change ∀ e ∈ [ExecEvent.access .live, .onError, .errexit, .access .live],
        descriptorEvent e = none
      decide
    · intro e he
      cases he
  · intro a table ha h
    split at ha
    · cases ha
      exact h
    · cases ha
      exact h

/-- A signal changes nothing that counts here: its report and its message to the server open
and close no descriptor. -/
theorem iperfGotSigend_ledger (cpuUtil : ℚ × ℚ × ℚ) (c : Client) :
    execKernel.Triple (Ledger dialled c.2.test) (iperfGotSigend .jni platform env cpuUtil .live c)
      fun c' table => Ledger dialled c'.2.test table := by
  have hsilent : ∀ e ∈ [ExecEvent.gotSigend, .access .live, .errexit, .access .live],
      descriptorEvent e = none := by decide
  refine triple_silent hsilent ?_
  intro c' table hc' h
  cases hc'
  constructor
  · intro hd
    obtain ⟨htest, htable⟩ := h.none hd
    refine ⟨?_, htable⟩
    dsimp only
    split
    · refine htest.same rfl rfl rfl rfl rfl ?_
      dsimp only [runReport, runStats, iperfStatsCallback]
      rw [htest.streams]
      rfl
    · exact htest.same rfl rfl rfl rfl rfl rfl
  · intro hd
    obtain ⟨s, hs⟩ := h.some hd
    refine ⟨s, ?_⟩
    dsimp only
    split
    · have hstats := sameEndpoints_stats platform (env c.2.calls).samples
        { c.2.test with done := true, cpuUtil := cpuUtil }
      exact hs.same ⟨hstats.role, hstats.ctrlSck, hstats.streams⟩
    · exact hs.same ⟨rfl, rfl, rfl⟩

/-- The entries of `iperf_run_client` in a call. -/
def entriesOf (signals : List Interruption) (last : EntryInput) : List EntryInput :=
  signals.filterMap (·.entry) ++ [last]

/-- The ledger depends on the dial only. -/
theorem Ledger.congr {dialled' : Prop} (h : Ledger dialled test table)
    (hiff : dialled ↔ dialled') : Ledger dialled' test table :=
  ⟨fun hnot => h.none (hiff.not.mpr hnot), fun hd => h.some (hiff.mpr hd)⟩

/-- Where a computation starts, its test is a client's. -/
theorem triple_of_role {α : Type} {x : Traced ExecEvent α} {Q : α → OpenTable → Prop}
    (h : test.role = .client → execKernel.Triple (Ledger dialled test) x Q) :
    execKernel.Triple (Ledger dialled test) x Q :=
  fun table hledger => h hledger.role table hledger

/-- What is open behind `run` is a control socket if any of its entries has dialled, and
nothing otherwise. -/
theorem run_ledger (platform : Platform) (env : ℕ → CallbackInput) (last : EntryInput)
    (signals : List Interruption) (c : Client) :
    execKernel.Triple (Ledger dialled c.2.test) (run .jni platform env .live last signals c)
      fun c' table => Ledger (dialled ∨ ∃ entry ∈ entriesOf signals last, dials entry)
        c'.2.test table := by
  induction signals generalizing c dialled with
  | nil =>
    rw [run]
    refine Monitor.Triple.bind (triple_of_role (runSwitch_ledger last)) fun e => ?_
    refine triple_silent ?_ ?_
    · intro event he
      split at he
      · cases he
      · cases he
    · intro c' table hc' h
      split at hc'
      · cases hc'
      · cases hc'
        simpa [entriesOf] using h
  | cons signal rest ih =>
    have hafter : ∀ (d : Prop) (e : Progress × Client),
        execKernel.Triple (Ledger d e.2.2.test)
          (iperfGotSigend .jni platform env signal.cpuUtil .live e.2 >>= fun c =>
            run .jni platform env .live last rest c)
          fun c' table => Ledger (d ∨ ∃ entry ∈ entriesOf rest last, dials entry)
            c'.2.test table :=
      fun d e => Monitor.Triple.bind (iperfGotSigend_ledger signal.cpuUtil e.2) fun c' => ih c'
    rw [run]
    cases hentry : signal.entry with
    | none =>
      have hentries : entriesOf (signal :: rest) last = entriesOf rest last := by
        simp [entriesOf, hentry]
      rw [hentries]
      exact hafter dialled (.running, c)
    | some entry =>
      have hentries : entriesOf (signal :: rest) last = entry :: entriesOf rest last := by
        simp [entriesOf, hentry]
      rw [hentries]
      refine (Monitor.Triple.bind (triple_of_role (runSwitch_ledger entry)) fun e =>
        hafter (dialled ∨ dials entry) e).weaken fun c' table h => h.congr ?_
      rw [List.exists_mem_cons_iff, or_assoc]

/-- What is open behind `iperf_free_test`. -/
theorem freeTest_ledger (test : IperfTest) :
    execKernel.Triple (Ledger dialled test) (freeTest .live test)
      fun _ table => GivenBack table ↔ ¬dialled := by
  unfold freeTest
  have haccess : ∀ e ∈ [ExecEvent.access .live], descriptorEvent e = none := by decide
  refine triple_silent_bind haccess fun _ => ?_
  have hfiles : ∀ table : OpenTable, Ledger dialled test table →
      kernel.Allows table (test.streams.flatMap freeStream) →
      (GivenBack (kernel.run table (test.streams.flatMap freeStream)) ↔ ¬dialled) := by
    intro table h hallows
    by_cases hd : dialled
    · obtain ⟨s, hs⟩ := h.some hd
      have hkept := hs.closeFiles hallows
      refine ⟨fun hback => ?_, fun hnot => absurd hd hnot⟩
      exact absurd (hback _ hkept) FdKind.noConfusion
    · obtain ⟨htest, hempty⟩ := h.none hd
      refine ⟨fun _ => hd, fun _ => ?_⟩
      rw [htest.streams, hempty]
      intro e he
      cases he
  have hfree : ∀ e ∈ [ExecEvent.freeTest], descriptorEvent e = none := by decide
  exact triple_emits hfiles (triple_silent hfree fun _ _ _ h => h)

/-- What is open behind a call. -/
theorem exec_ledger (platform : Platform) {input : ExecInput} (htest : input.mallocTest = true)
    (hsettings : input.mallocSettings = true) (hcallback : input.mallocCallback = true) :
    execKernel.Triple (· = []) (exec platform input) fun _ table =>
      GivenBack table ↔ ¬∃ entry ∈ entriesOf input.signals input.last, dials entry := by
  rw [exec_allocated platform htest hsettings, hcallback]
  have haccess : ∀ e ∈ [ExecEvent.access .live], descriptorEvent e = none := by decide
  refine triple_silent_bind haccess fun _ => triple_silent_bind haccess fun _ => ?_
  refine Monitor.Triple.bind (R := fun pointer table => pointer = .live ∧ table = [])
    (triple_silent haccess ?_) fun pointer => ?_
  · intro pointer table hpointer htable
    cases hpointer
    exact ⟨rfl, htable⟩
  · rintro table ⟨rfl, htable⟩
    have hstart : Ledger False (preparedTest platform input) table :=
      ledger_empty (preparedTest_unconnected platform input) htable not_false
    have hrun : execKernel.Triple (Ledger False (preparedTest platform input))
        (runAndFree platform input .live) fun _ table =>
          GivenBack table ↔ ¬(False ∨ ∃ entry ∈ entriesOf input.signals input.last, dials entry) :=
      Monitor.Triple.bind (run_ledger platform input.callbacks input.last input.signals
        (input.timers, { test := preparedTest platform input })) fun c => freeTest_ledger c.2.test
    rw [false_or] at hrun
    exact hrun table hstart

/-- A call that returns has closed its control socket, the sockets of its streams and their
buffer files exactly if no entry of `iperf_run_client` got a control connection. -/
theorem descriptors_given_back_iff {input : ExecInput}
    (hkernel : execKernel.Allows [] (exec platform input).events)
    (hreturn : (exec platform input).value = some ⟨⟩) :
    GivenBack (openAfter (exec platform input).events) ↔
      ∀ entry ∈ entriesOf input.signals input.last, ¬dials entry := by
  obtain ⟨htest, hsettings, hcallback⟩ := exec_value hreturn
  have hback : GivenBack (execKernel.run [] (exec platform input).events) ↔
      ¬∃ entry ∈ entriesOf input.signals input.last, dials entry :=
    exec_ledger platform htest hsettings hcallback [] rfl hkernel ⟨⟩ hreturn
  unfold openAfter
  rw [hback]
  push Not
  rfl

/-- A turn in which the server has closed the control connection. -/
def closedTurn : TurnInput where
  message := some {
    byte := none
    streams := fun _ => ⟨⟨true, some 5, true, true, true, true⟩, ⟨true, some 6, true, none, true⟩⟩
    start := ⟨none, none, fun _ => true, none, true, true, fun _ => {}, fun _ => true⟩
    sent := true
    peer := none
    cpuUtil := (0, 0, 0) }
  round := {
    send := ⟨fun _ _ => ⟨0, 0⟩, fun _ => {}, {}, fun _ => 0⟩
    writeSet := ∅
    recv := fun _ => ⟨0, {}, 0, {}⟩
    readSet := ∅
    now := {}
    fuel := 1 }
  cpuUtil := (0, 0, 0)
  sent := true

/-- A call whose server closes the control connection, if it accepts one. -/
def brokenCall (accepted : Bool) : ExecInput where
  mallocTest := true
  mallocSettings := true
  config := ⟨"10.0.0.1", 5201, false, 1, 0, 109, 1⟩
  tmpPath := "/tmp/iperf3.XXXXXX"
  mallocCallback := true
  timers := {}
  callbacks := fun _ => ⟨{}, fun _ => {}, fun _ => 0, ⟨fun _ => none, 0, fun _ => 0⟩⟩
  signals := []
  last := ⟨true, ⟨⟨true, some 4, true, true, accepted, true⟩, true⟩, [closedTurn], true⟩

/-- A refused connection leaves nothing open. -/
theorem refused_call_given_back :
    GivenBack (openAfter (exec ⟨false, false, fun h => h⟩ (brokenCall false)).events) ↔
      ∀ entry ∈ entriesOf (brokenCall false).signals (brokenCall false).last, ¬dials entry :=
  descriptors_given_back_iff (by decide +kernel) (by decide +kernel)

/-- The control socket of a call that fails behind its connection stays open, as
`iperf_free_test` does not know of it. -/
theorem control_socket_stays_open :
    ¬∀ (platform : Platform) (input : ExecInput),
      execKernel.Allows [] (exec platform input).events →
      (exec platform input).value = some ⟨⟩ →
      GivenBack (openAfter (exec platform input).events) := by
  intro hall
  have hback := hall ⟨false, false, fun h => h⟩ (brokenCall true) (by decide +kernel)
    (by decide +kernel)
  exact absurd hback (by decide +kernel)

end IperfRuntime.DescriptorLedger
