import IperfRuntime.EndpointFrame
import IperfRuntime.JniExec

/-!
# Error paths of a native call

A failure that `iperf_errexit`, `iperf_got_sigend` or `construct_java_callback` handles does
not end a native call, because `SAFE_EXIT` returns there. Only a failed `iperf_run_client`
is followed by nothing but `iperf_free_test`. A process that the system kills in between is
not considered.
-/

namespace IperfRuntime.ErrorPaths

open TimerQueue TestState EntryPoints EventTrace StreamCreation ClientTimers ClientRun ClientLoop
  EndpointFrame JniExec

/-- Where a failure has been handled. -/
def isFailure : ExecEvent → Bool
  | .errexit => true
  | .gotSigend => true
  | .callbackFailed => true
  | _ => false

/-- The rest of a call behind its first failure. -/
def behindFailure : List ExecEvent → List ExecEvent
  | [] => []
  | e :: rest => if isFailure e then rest else behindFailure rest

/-- Behind a failure the test is used only where it is there and `iperf_run_client` is not
entered; the test is freed once and Java hears of one error. -/
structure StopsAfterFailure (trace : List ExecEvent) : Prop where
  live : ∀ pointer, .access pointer ∈ behindFailure trace → pointer = .live
  stopped : .runClient ∉ behindFailure trace
  freed : trace.count .freeTest ≤ 1
  reported : trace.count .onError ≤ 1

/-- Without a failure in front, what stands behind the failure is what stands behind it in the rest.
-/
theorem behindFailure_append {before rest : List ExecEvent}
    (h : ∀ e ∈ before, isFailure e = false) :
    behindFailure (before ++ rest) = behindFailure rest := by
  induction before with
  | nil => rfl
  | cons e tail ih =>
    have he : isFailure e = false := h e List.mem_cons_self
    have htail : ∀ e ∈ tail, isFailure e = false := fun e he => h e (List.mem_cons_of_mem _ he)
    rw [List.cons_append, behindFailure, he, if_neg Bool.false_ne_true, ih htail]

/-- What comes behind some failure comes behind the first one. -/
theorem mem_behindFailure {before rest : List ExecEvent} {failure e : ExecEvent}
    (hfailure : isFailure failure = true) (he : e ∈ rest) :
    e ∈ behindFailure (before ++ failure :: rest) := by
  induction before with
  | nil =>
    rw [List.nil_append, behindFailure, if_pos hfailure]
    exact he
  | cons first tail ih =>
    rw [List.cons_append, behindFailure]
    split
    · exact List.mem_append_right _ (List.mem_cons_of_mem _ he)
    · exact ih

/-- Events of descriptors only. -/
def Quiet (events : List ExecEvent) : Prop := ∀ e ∈ events, ∃ d, e = .fd d

/-- Events on descriptors are quiet. -/
theorem quiet_map (events : List FdEvent) : Quiet (events.map .fd) := by
  intro e he
  obtain ⟨d, -, rfl⟩ := List.mem_map.mp he
  exact ⟨d, rfl⟩

/-- Quiet parts in sequence are quiet. -/
theorem Quiet.append {first second : List ExecEvent} (h : Quiet first) (h' : Quiet second) :
    Quiet (first ++ second) := by
  intro e he
  rcases List.mem_append.mp he with he | he
  · exact h e he
  · exact h' e he

variable {events : List ExecEvent}

/-- Where it is quiet nothing fails. -/
theorem Quiet.not_failure (h : Quiet events) : ∀ e ∈ events, isFailure e = false := by
  intro e he
  obtain ⟨d, rfl⟩ := h e he
  rfl

/-- Nothing but events on descriptors occurs there. -/
theorem Quiet.not_mem (h : Quiet events) {e : ExecEvent} (he : ∀ d, e ≠ .fd d) : e ∉ events := by
  intro hmem
  obtain ⟨d, hd⟩ := h e hmem
  exact he d hd

/-- So no other event is counted there. -/
theorem Quiet.count (h : Quiet events) {e : ExecEvent} (he : ∀ d, e ≠ .fd d) :
    events.count e = 0 :=
  List.count_eq_zero_of_not_mem (h.not_mem he)

/-- A use of a test that is there. -/
theorem accessTest_live {β : Type} (f : Unit → Traced ExecEvent β) :
    (accessTest .live >>= f).events = .access .live :: (f ⟨⟩).events ∧
      (accessTest .live >>= f).value = (f ⟨⟩).value :=
  ⟨rfl, rfl⟩

variable {platform : Platform} {env : ℕ → CallbackInput}

/-- The client loop does nothing but to descriptors, and it gets somewhere. -/
theorem clientLoop_quiet (platform : Platform) (env : ℕ → CallbackInput) (inputs : List TurnInput)
    (c : Client) :
    Quiet (clientLoop platform env inputs c).events ∧
      ∃ e, (clientLoop platform env inputs c).value = some e := by
  induction inputs generalizing c with
  | nil => exact ⟨by simp [clientLoop, Quiet], _, rfl⟩
  | cons input rest ih =>
    rw [clientLoop]
    split
    · exact ⟨by simp [Quiet], _, rfl⟩
    · rw [Traced.emits_bind_events, Traced.emits_bind_value]
      have hturn : Quiet ((turnDescriptors input c).map .fd) := quiet_map _
      split
      · exact ⟨hturn.append (by simp [Quiet]), _, rfl⟩
      · rename_i c' _
        obtain ⟨hrest, hvalue⟩ := ih c'
        exact ⟨hturn.append hrest, hvalue⟩
      · exact ⟨hturn.append (by simp [Quiet]), _, rfl⟩

/-- `iperf_run_client` on a test that is there. -/
theorem iperfRunClient_live (platform : Platform) (env : ℕ → CallbackInput) (entry : EntryInput)
    (c : Client) :
    ∃ fds e, Quiet fds ∧
      (iperfRunClient platform env .live entry c).events = .runClient :: .access .live :: fds ∧
      (iperfRunClient platform env .live entry c).value = some e := by
  unfold iperfRunClient
  rw [Traced.emits_bind_events, Traced.emits_bind_value, (accessTest_live _).1,
    (accessTest_live _).2]
  split
  · exact ⟨[], _, by simp [Quiet], rfl, rfl⟩
  · dsimp only
    rw [Traced.emits_bind_events, Traced.emits_bind_value]
    have hconnect := quiet_map (iperfConnect entry.connect c.2.test).2.2
    split
    · obtain ⟨hloop, e, he⟩ := clientLoop_quiet platform env entry.turns
        (Client.withTest c (iperfConnect entry.connect c.2.test).2.1)
      rw [Traced.events_bind_of_some he, Traced.value_bind_of_some he]
      split
      · exact ⟨_, _, hconnect.append (hloop.append (by simp [Quiet])), rfl, rfl⟩
      · exact ⟨_, _, hconnect.append (hloop.append (by simp [Quiet])), rfl, rfl⟩
    · exact ⟨_, _, hconnect.append (by simp [Quiet]), rfl, rfl⟩

/-- What `run` does about a client run that has come this far. -/
def reaction : Progress → List ExecEvent
  | .returned false => [.access .live, .onError, .errexit, .access .live]
  | _ => []

/-- The `switch` of `run` on a client: one run of it, with what it does to descriptors and the
reaction to how it ended behind it. -/
theorem runSwitch_live (platform : Platform) (env : ℕ → CallbackInput) (entry : EntryInput)
    {c : Client} (hrole : c.2.test.role = .client) :
    ∃ fds e, Quiet fds ∧
      (runSwitch .jni platform env .live entry c).events =
        .access .live :: .runClient :: .access .live :: (fds ++ reaction e.1) ∧
      (runSwitch .jni platform env .live entry c).value = some e := by
  obtain ⟨fds, e, hfds, hevents, hvalue⟩ :=
    iperfRunClient_live platform env entry c
  refine ⟨fds, e, hfds, ?_, ?_⟩
  · unfold runSwitch
    rw [(accessTest_live _).1, if_pos hrole, Traced.events_bind_of_some hvalue, hevents]
    by_cases hfailed : e.1 = .returned false
    · rw [if_pos hfailed, hfailed]
      rfl
    · rw [if_neg hfailed]
      have hnone : reaction e.1 = [] := by
        cases hp : e.1 with
        | running => rfl
        | returned ok =>
          cases ok with
          | true => rfl
          | false => exact absurd hp hfailed
      rw [hnone]
      rfl
  · unfold runSwitch
    rw [(accessTest_live _).2, if_pos hrole, Traced.value_bind_of_some hvalue]
    split
    · rfl
    · rfl

/-- Nothing in the client loop changes the role, by induction on the turns; so the `switch`
takes the same branch after a signal. -/
theorem clientLoop_role (inputs : List TurnInput) (c : Client) :
    (clientLoop platform env inputs c).Returns fun e => e.2.2.test.role = c.2.test.role := by
  induction inputs generalizing c with
  | nil => exact Traced.Returns.pure rfl
  | cons input rest ih =>
    rw [clientLoop]
    split
    · exact Traced.Returns.pure rfl
    · intro e he
      rw [Traced.emits_bind_value] at he
      cases hturn : clientTurn platform env input c with
      | none =>
        rw [hturn] at he
        cases he
        rfl
      | some r =>
        have hrole : r.2.2.test.role = c.2.test.role :=
          (clientTurn_endpoints hturn).role.trans (turnTest_ends input c.2.test).1
        rw [hturn] at he
        obtain ⟨ok, c'⟩ := r
        cases ok with
        | true => exact (ih c' e he).trans hrole
        | false =>
          cases he
          exact hrole

/-- The connection keeps the role. -/
theorem iperfConnect_role (input : ConnectInput) (test : IperfTest) :
    (iperfConnect input test).2.1.role = test.role := by
  unfold iperfConnect
  dsimp only
  split_ifs <;> rfl

/-- The run of the client keeps it. -/
theorem iperfRunClient_role (entry : EntryInput) (c : Client) :
    (iperfRunClient platform env .live entry c).Returns
      fun e => e.2.2.test.role = c.2.test.role := by
  have hconnect := iperfConnect_role entry.connect c.2.test
  intro e he
  unfold iperfRunClient at he
  rw [Traced.emits_bind_value, (accessTest_live _).2] at he
  split at he
  · cases he
    rfl
  · dsimp only at he
    rw [Traced.emits_bind_value] at he
    split at he
    · obtain ⟨e', he', hfinish⟩ := Traced.value_bind_eq_some.mp he
      have hloop := (clientLoop_role entry.turns _ e' he').trans hconnect
      split at hfinish
      · cases hfinish
        exact hloop
      · cases hfinish
        exact hloop
    · cases he
      exact hconnect

/-- So the switch over the role returns a client's test. -/
theorem runSwitch_role (entry : EntryInput) {c : Client} (hrole : c.2.test.role = .client) :
    (runSwitch .jni platform env .live entry c).Returns fun e => e.2.2.test.role = .client := by
  intro e he
  unfold runSwitch at he
  rw [(accessTest_live _).2, if_pos hrole] at he
  obtain ⟨e', he', hreact⟩ := Traced.value_bind_eq_some.mp he
  have hclient := (iperfRunClient_role entry c e' he').trans hrole
  split at hreact
  · cases hreact
    exact hclient
  · cases hreact
    exact hclient

/-- A signal on a test that is there. -/
theorem iperfGotSigend_live (platform : Platform) (env : ℕ → CallbackInput) (cpuUtil : ℚ × ℚ × ℚ)
    (c : Client) :
    ∃ c', c'.2.test.role = c.2.test.role ∧
      (iperfGotSigend .jni platform env cpuUtil .live c).events =
        [.gotSigend, .access .live, .errexit, .access .live] ∧
      (iperfGotSigend .jni platform env cpuUtil .live c).value = some c' := by
  refine ⟨_, ?_, rfl, rfl⟩
  dsimp only
  split
  · rfl
  · rfl

/-- `run` on a client enters `iperf_run_client`, whatever signals land in it. -/
theorem run_enters (platform : Platform) (env : ℕ → CallbackInput) (last : EntryInput)
    (signals : List Interruption) {c : Client}
    (hrole : c.2.test.role = .client) :
    .runClient ∈ (run .jni platform env .live last signals c).events := by
  induction signals generalizing c with
  | nil =>
    obtain ⟨fds, e, -, hevents, -⟩ := runSwitch_live platform env last hrole
    rw [run]
    apply Traced.mem_events_bind
    rw [hevents]
    simp
  | cons signal rest ih =>
    rw [run]
    cases hentry : signal.entry with
    | none =>
      obtain ⟨c', hrole', -, hvalue⟩ := iperfGotSigend_live platform env signal.cpuUtil c
      have hrest := ih (hrole'.trans hrole)
      rw [Traced.events_bind_of_some (Traced.value_pure _), Traced.events_bind_of_some hvalue]
      exact List.mem_append_right _ (List.mem_append_right _ hrest)
    | some entry =>
      obtain ⟨fds, e, -, hevents, -⟩ := runSwitch_live platform env entry hrole
      apply Traced.mem_events_bind
      rw [hevents]
      simp

/-- A signal is followed by `iperf_run_client`, on the same test: the jump goes back in front
of the `switch` and not out of `run`. -/
theorem run_signalled (platform : Platform) (env : ℕ → CallbackInput) (last : EntryInput)
    (signal : Interruption) (rest : List Interruption)
    {c : Client} (hrole : c.2.test.role = .client) :
    ∃ before after, (run .jni platform env .live last (signal :: rest) c).events =
      before ++ .gotSigend :: after ∧ .runClient ∈ after := by
  have hsignal : ∀ e : Progress × Client, e.2.2.test.role = .client → ∃ after,
      (iperfGotSigend .jni platform env signal.cpuUtil .live e.2 >>= fun c =>
        run .jni platform env .live last rest c).events = .gotSigend :: after ∧
        .runClient ∈ after := by
    intro e hclient
    obtain ⟨c', hrole', hevents, hvalue⟩ := iperfGotSigend_live platform env signal.cpuUtil e.2
    rw [Traced.events_bind_of_some hvalue, hevents]
    refine ⟨_, rfl, ?_⟩
    have hrest := run_enters platform env last rest (hrole'.trans hclient)
    exact List.mem_append_right _ hrest
  rw [run]
  cases hentry : signal.entry with
  | none =>
    obtain ⟨after, hevents, hmem⟩ := hsignal (.running, c) hrole
    exact ⟨[], after, hevents, hmem⟩
  | some entry =>
    obtain ⟨fds, e, -, -, hvalue⟩ := runSwitch_live platform env entry hrole
    obtain ⟨after, hevents, hmem⟩ := hsignal e (runSwitch_role entry hrole e hvalue)
    refine ⟨(runSwitch .jni platform env .live entry c).events, after, ?_, hmem⟩
    dsimp only
    rw [Traced.events_bind_of_some hvalue, hevents]

/-- The prepared test is a client's. -/
theorem preparedTest_role (platform : Platform) (input : ExecInput) :
    (preparedTest platform input).role = .client := by
  unfold preparedTest parseJavaConfig iperfSetTestReverse iperfSetTestRole
  simp only [checkSenderHasRetransmits_eq]
  split <;> rfl

/-- A call that gets its test. -/
theorem exec_created (platform : Platform) {input : ExecInput} (htest : input.mallocTest = true)
    (hsettings : input.mallocSettings = true) :
    (exec platform input).events =
      if input.mallocCallback then
        [.access .live, .access .live, .access .live] ++ (runAndFree platform input .live).events
      else
        [.access .live, .access .live, .access .live, .freeTest, .callbackFailed] ++
          (runAndFree platform input .freed).events := by
  rw [exec_allocated platform htest hsettings]
  cases input.mallocCallback with
  | true => rfl
  | false => rfl

/-- A call that gets no test. -/
theorem exec_refused (platform : Platform) {input : ExecInput}
    (h : ¬(input.mallocTest = true ∧ input.mallocSettings = true)) :
    ∃ before, (exec platform input).events = before ++ [.errexit, .access .null] := by
  unfold exec newTest
  cases htest : input.mallocTest with
  | false => exact ⟨[], rfl⟩
  | true =>
    cases hsettings : input.mallocSettings with
    | true => exact absurd ⟨htest, hsettings⟩ h
    | false => exact ⟨[.freeTest], rfl⟩

/-- `run` starts with a use of the test. -/
theorem run_freed (input : ExecInput) :
    .access .freed ∈ (runAndFree platform input .freed).events := by
  unfold runAndFree
  apply Traced.mem_events_bind
  cases input.signals with
  | nil =>
    rw [run]
    apply Traced.mem_events_bind
    exact List.mem_cons_self
  | cons signal rest =>
    rw [run]
    cases signal.entry with
    | none => exact List.mem_cons_of_mem _ List.mem_cons_self
    | some entry =>
      apply Traced.mem_events_bind
      exact List.mem_cons_self

/-- `run` without a signal returns when `iperf_run_client` does. -/
theorem run_last {last : EntryInput} {c : Client} {e : Progress × Client}
    (h : (runSwitch .jni platform env .live last c).value = some e) :
    (run .jni platform env .live last [] c).events =
        (runSwitch .jni platform env .live last c).events ∧
      (run .jni platform env .live last [] c).value =
        if e.1 = .running then none else some e.2 := by
  rw [run, Traced.events_bind_of_some h, Traced.value_bind_of_some h]
  cases hprogress : e.1 with
  | running => exact ⟨List.append_nil _, rfl⟩
  | returned ok => exact ⟨List.append_nil _, rfl⟩

/-- A call that gets its test and its callback and no signal runs the client once, and ends
with `iperf_free_test`. -/
theorem exec_quiet (platform : Platform) {input : ExecInput} (htest : input.mallocTest = true)
    (hsettings : input.mallocSettings = true) (hcallback : input.mallocCallback = true)
    (hsignals : input.signals = []) :
    ∃ fds ended, Quiet fds ∧ (exec platform input).events =
      [.access .live, .access .live, .access .live, .access .live, .runClient, .access .live] ++
        (fds ++ ended) ∧
      (ended = [] ∨ ∃ ok closes, Quiet closes ∧
        ended = reaction (.returned ok) ++ .access .live :: (closes ++ [.freeTest])) := by
  have hrole : (preparedTest platform input).role = .client := preparedTest_role platform input
  obtain ⟨fds, e, hfds, hevents, hvalue⟩ := runSwitch_live platform input.callbacks input.last
    (c := (input.timers, { test := preparedTest platform input })) hrole
  obtain ⟨hrun, hreturns⟩ := run_last hvalue
  rw [exec_created platform htest hsettings, hcallback, if_pos rfl]
  unfold runAndFree
  rw [hsignals]
  cases hprogress : e.1 with
  | running =>
    rw [hprogress, if_pos rfl] at hreturns
    refine ⟨fds, [], hfds, ?_, Or.inl rfl⟩
    rw [Traced.events_bind_of_none hreturns, hrun, hevents, hprogress]
    simp [reaction]
  | returned ok =>
    have hdone : Progress.returned ok ≠ .running := Progress.noConfusion
    rw [hprogress, if_neg hdone] at hreturns
    refine ⟨fds, reaction (.returned ok) ++ .access .live ::
      ((e.2.2.test.streams.flatMap freeStream).map .fd ++ [.freeTest]), hfds, ?_,
      Or.inr ⟨ok, _, quiet_map _, rfl⟩⟩
    rw [Traced.events_bind_of_some hreturns, hrun, hevents, hprogress]
    simp [freeTest, accessTest_live]

/-- The trace of a call whose client run has not returned. -/
theorem stopsAfterFailure_running {fds : List ExecEvent} (hfds : Quiet fds) :
    StopsAfterFailure
      ([.access .live, .access .live, .access .live, .access .live, .runClient, .access .live] ++
        (fds ++ [])) := by
  have hstart : ∀ e ∈ [ExecEvent.access .live, .access .live, .access .live, .access .live,
      .runClient, .access .live], isFailure e = false := by decide
  have hnone : behindFailure ([.access .live, .access .live, .access .live, .access .live,
      .runClient, .access .live] ++ (fds ++ [])) = [] := by
    rw [behindFailure_append hstart, behindFailure_append hfds.not_failure]
    rfl
  have hfree := hfds.count (e := .freeTest) fun _ => ExecEvent.noConfusion
  have herror := hfds.count (e := .onError) fun _ => ExecEvent.noConfusion
  refine ⟨?_, ?_, ?_, ?_⟩
  · intro pointer hmem
    rw [hnone] at hmem
    cases hmem
  · rw [hnone]
    exact List.not_mem_nil
  · simp [hfree]
  · simp [herror]

/-- The trace of a call that ends behind a client run stops after the failure, if there was
one, as only `iperf_free_test` follows. -/
theorem stopsAfterFailure_quiet {fds closes : List ExecEvent} (hfds : Quiet fds)
    (hcloses : Quiet closes) (ok : Bool) :
    StopsAfterFailure
      ([.access .live, .access .live, .access .live, .access .live, .runClient, .access .live] ++
        (fds ++ (reaction (.returned ok) ++ .access .live :: (closes ++ [.freeTest])))) := by
  have hstart : ∀ e ∈ [ExecEvent.access .live, .access .live, .access .live, .access .live,
      .runClient, .access .live], isFailure e = false := by decide
  have hcount : ∀ e : ExecEvent, (∀ d, e ≠ .fd d) → fds.count e = 0 ∧ closes.count e = 0 :=
    fun e he => ⟨hfds.count he, hcloses.count he⟩
  have hfree := hcount .freeTest fun _ => ExecEvent.noConfusion
  have herror := hcount .onError fun _ => ExecEvent.noConfusion
  have hrest : ∀ e ∈ behindFailure (reaction (.returned ok) ++
      .access .live :: (closes ++ [.freeTest])), e = .access .live ∨ e = .freeTest ∨
        e ∈ closes := by
    intro e he
    cases ok with
    | true =>
      have hquiet : ∀ e ∈ .access .live :: (closes ++ [.freeTest]), isFailure e = false := by
        intro e he
        rcases List.mem_cons.mp he with rfl | he
        · rfl
        · rcases List.mem_append.mp he with he | he
          · exact hcloses.not_failure e he
          · rw [List.mem_singleton.mp he]
            rfl
      have hnone : behindFailure (_ ++ []) = behindFailure [] := behindFailure_append hquiet
      rw [List.append_nil] at hnone
      dsimp only [reaction] at he
      rw [List.nil_append, hnone] at he
      cases he
    | false =>
      have hbehind : e ∈ ExecEvent.access .live :: .access .live :: (closes ++ [.freeTest]) := he
      simp only [List.mem_cons, List.mem_append, List.not_mem_nil, or_false] at hbehind
      tauto
  refine ⟨?_, ?_, ?_, ?_⟩
  · intro pointer hmem
    rw [behindFailure_append hstart, behindFailure_append hfds.not_failure] at hmem
    rcases hrest _ hmem with h | h | h
    · exact ExecEvent.access.inj h
    · cases h
    · exact absurd h (hcloses.not_mem fun _ => ExecEvent.noConfusion)
  · intro hmem
    rw [behindFailure_append hstart, behindFailure_append hfds.not_failure] at hmem
    rcases hrest _ hmem with h | h | h
    · cases h
    · cases h
    · exact absurd h (hcloses.not_mem fun _ => ExecEvent.noConfusion)
  · cases ok <;> simp [reaction, hfree.1, hfree.2]
  · cases ok <;> simp [reaction, herror.1, herror.2]

/-- A call stops at its failures exactly if the only failures are those of
`iperf_run_client`: it gets its test and its callback, and no signal lands in `run`. -/
theorem failures_stop_call_iff (platform : Platform) (input : ExecInput) :
    StopsAfterFailure (exec platform input).events ↔
      (input.mallocTest = true ∧ input.mallocSettings = true) ∧ input.mallocCallback = true ∧
        input.signals = [] := by
  constructor
  · intro h
    by_cases hcreated : input.mallocTest = true ∧ input.mallocSettings = true
    · obtain ⟨htest, hsettings⟩ := hcreated
      refine ⟨⟨htest, hsettings⟩, ?_⟩
      have hevents := exec_created platform htest hsettings
      cases hcallback : input.mallocCallback with
      | false =>
        rw [hcallback, if_neg Bool.false_ne_true] at hevents
        have hfreed : ExecEvent.access .freed ∈ behindFailure (exec platform input).events := by
          rw [hevents]
          exact run_freed input
        exact absurd (h.live .freed hfreed) (by decide)
      | true =>
        refine ⟨rfl, ?_⟩
        cases hsignals : input.signals with
        | nil => rfl
        | cons signal rest =>
          obtain ⟨before, after, hrun, hmem⟩ := run_signalled platform input.callbacks
            input.last signal rest
            (c := (input.timers, { test := preparedTest platform input }))
            (preparedTest_role platform input)
          have hagain : ExecEvent.runClient ∈ behindFailure (exec platform input).events := by
            rw [hevents, hcallback, if_pos rfl]
            unfold runAndFree
            rw [hsignals]
            obtain ⟨more, hmore⟩ := Traced.events_bind_prefix
              (run .jni platform input.callbacks .live input.last (signal :: rest)
                (input.timers, { test := preparedTest platform input }))
              fun c => freeTest .live c.2.test
            rw [hmore, hrun, List.append_assoc, ← List.append_assoc]
            exact mem_behindFailure rfl (List.mem_append_left _ hmem)
          exact absurd hagain h.stopped
    · obtain ⟨before, hevents⟩ := exec_refused platform hcreated
      have hnull : ExecEvent.access .null ∈ behindFailure (exec platform input).events := by
        rw [hevents]
        exact mem_behindFailure rfl List.mem_cons_self
      exact absurd (h.live .null hnull) (by decide)
  · rintro ⟨⟨htest, hsettings⟩, hcallback, hsignals⟩
    obtain ⟨fds, ended, hfds, hevents, hended⟩ :=
      exec_quiet platform htest hsettings hcallback hsignals
    rw [hevents]
    rcases hended with rfl | ⟨ok, closes, hcloses, rfl⟩
    · exact stopsAfterFailure_running hfds
    · exact stopsAfterFailure_quiet hfds hcloses ok

/-- An entry of `iperf_run_client` that connects and gets no message. -/
def connectedEntry : EntryInput where
  jsonStart := true
  connect := ⟨⟨true, some 4, true, true, true, true⟩, true⟩
  turns := []
  jsonFinish := true

/-- A call on which a signal lands while the client waits for its first message. -/
def signalledCall : ExecInput where
  mallocTest := true
  mallocSettings := true
  config := ⟨"10.0.0.1", 5201, false, 1, 0, 109, 1⟩
  tmpPath := "/tmp/iperf3.XXXXXX"
  mallocCallback := true
  timers := {}
  callbacks := fun _ => ⟨{}, fun _ => {}, fun _ => 0, ⟨fun _ => none, 0, fun _ => 0⟩⟩
  signals := [⟨some connectedEntry, (0, 0, 0)⟩]
  last := connectedEntry

/-- Behind the signal the client is run once more on the same test, although the signal path
reports an error and means to exit. -/
theorem signal_restarts_client :
    ¬∀ (platform : Platform) (input : ExecInput),
      StopsAfterFailure (exec platform input).events := by
  intro hall
  have hagain : ExecEvent.runClient ∈
      behindFailure (exec ⟨false, false, fun h => h⟩ signalledCall).events := by decide +kernel
  exact (hall _ _).stopped hagain

end IperfRuntime.ErrorPaths
