import IperfRuntime.ClientLoop
import IperfRuntime.EntryPoints
import IperfRuntime.EventTrace

/-!
# A native call

`Java_com_iperf3_jni_Iperf3Client_exec` with `run`, the signal path and the whole of
`iperf_run_client`, as a trace of what happens to the test and to descriptors. A step that
reads a test through a pointer to nothing or to freed memory is the last one of its trace. A
signal lands in front of the `switch` of `run`, between two turns of the client loop, or
behind its return. What the virtual machine does inside the callbacks is an input, and other
threads do not touch the test.
-/

namespace IperfRuntime.JniExec

open TimerQueue TestState EntryPoints EventTrace StreamCreation ClientTimers ClientRun ClientLoop

/-- `invoke_flag`. -/
inductive InvokeFlag where
  /-- `INVOKE_TYPE_JNI`. -/
  | jni
  /-- `INVOKE_TYPE_EXEC`. -/
  | exec
  deriving DecidableEq, Repr

/-- What a pointer to a test points to. -/
inductive TestPointer where
  | null
  | live
  | freed
  deriving DecidableEq, Repr

/-- What happens during a native call. -/
inductive ExecEvent where
  /-- The test is read or written through its pointer. -/
  | access (pointer : TestPointer)
  /-- `free(test)`. -/
  | freeTest
  /-- `iperf_run_client` is entered. -/
  | runClient
  | onError
  | errexit
  | gotSigend
  /-- `construct_java_callback` gives up. -/
  | callbackFailed
  | fd (event : FdEvent)
  deriving DecidableEq, Repr

/-- A use of the test, behind which nothing is defined unless the test is there. -/
def accessTest (pointer : TestPointer) : Traced ExecEvent Unit :=
  ⟨[.access pointer], if pointer = .live then some ⟨⟩ else none⟩

/-- `SAFE_EXIT`. -/
def safeExit (flag : InvokeFlag) : Traced ExecEvent Unit :=
  match flag with
  | .exec => .stop
  | .jni => pure ⟨⟩

/-- `iperf_errexit`. -/
def iperfErrexit (flag : InvokeFlag) (pointer : TestPointer) : Traced ExecEvent Unit := do
  .emits [.errexit]
  if pointer ≠ .null then accessTest pointer
  safeExit flag

/-- The allocations of `iperf_new_test`. -/
def newTest (mallocTest mallocSettings : Bool) : Traced ExecEvent TestPointer :=
  if !mallocTest then pure .null
  else if mallocSettings then pure .live
  else do
    .emits [.freeTest]
    pure .null

/-- `construct_java_callback`, whose result `exec` does not look at. -/
def constructJavaCallback (malloc : Bool) (pointer : TestPointer) :
    Traced ExecEvent TestPointer := do
  accessTest pointer
  if malloc then pure pointer
  else do
    .emits [.freeTest, .callbackFailed]
    pure .freed

/-- The calls of `iperf_connect`. -/
structure ConnectInput where
  dial : ConnectIo
  /-- Whether the cookie can be written. -/
  cookie : Bool

/-- `iperf_connect`: whether it returns zero, the test and what it did to descriptors. -/
def iperfConnect (input : ConnectInput) (test : IperfTest) : Bool × IperfTest × List FdEvent :=
  let dialled :=
    if test.ctrlSck < 0 then netdial .control test.bindAddress input.dial
    else (some test.ctrlSck, [])
  let ctrlSck := dialled.1.getD (-1)
  let test := { test with readSet := ∅, writeSet := ∅, ctrlSck := ctrlSck }
  if ctrlSck < 0 then (false, test, dialled.2)
  else if input.cookie then
    (true, { test with readSet := insert ctrlSck test.readSet, maxFd := max test.maxFd ctrlSck },
      dialled.2)
  else (false, test, dialled.2)

/-- What a turn of the client loop does to descriptors. -/
def turnDescriptors (input : TurnInput) (c : Client) : List FdEvent :=
  match input.message with
  | none => []
  | some message =>
    match message.byte with
    | some .createStreams =>
      (iperfCreateStreams message.streams { c.2.test with state := .createStreams }).2.2
    | some .displayResults => c.2.test.streams.map fun sp => .closed sp.socket
    | _ => []

/-- How far `iperf_run_client` has come. -/
inductive Progress where
  | running
  /-- It has returned zero or minus one. -/
  | returned (ok : Bool)
  deriving DecidableEq, Repr

/-- The loop of `iperf_run_client`. A turn that does not come back leaves the client
where it was. -/
def clientLoop (platform : Platform) (env : ℕ → CallbackInput) :
    List TurnInput → Client → Traced ExecEvent (Progress × Client)
  | [], c => pure (if c.2.test.state = .iperfDone then .returned true else .running, c)
  | input :: rest, c =>
    if c.2.test.state = .iperfDone then pure (.returned true, c)
    else do
      .emits ((turnDescriptors input c).map .fd)
      match clientTurn platform env input c with
      | none => pure (.running, c)
      | some (true, c) => clientLoop platform env rest c
      | some (false, c) => pure (.returned false, c)

/-- What one entry of `iperf_run_client` gets from the system. -/
structure EntryInput where
  jsonStart : Bool
  connect : ConnectInput
  turns : List TurnInput
  jsonFinish : Bool

/-- `iperf_run_client`; this build has no `iperf_setaffinity`. -/
def iperfRunClient (platform : Platform) (env : ℕ → CallbackInput) (pointer : TestPointer)
    (entry : EntryInput) (c : Client) : Traced ExecEvent (Progress × Client) := do
  .emits [.runClient]
  accessTest pointer
  if c.2.test.affinity ≠ -1 || (c.2.test.jsonOutput && !entry.jsonStart) then
    pure (.returned false, c)
  else
    let r := iperfConnect entry.connect c.2.test
    .emits (r.2.2.map .fd)
    if r.1 then
      let e ← clientLoop platform env entry.turns (Client.withTest c r.2.1)
      if e.1 = .returned true && e.2.2.test.jsonOutput && !entry.jsonFinish then
        pure (.returned false, e.2)
      else pure e
    else pure (.returned false, Client.withTest c r.2.1)

/-- The `switch` of `run`. -/
def runSwitch (flag : InvokeFlag) (platform : Platform) (env : ℕ → CallbackInput)
    (pointer : TestPointer) (entry : EntryInput) (c : Client) :
    Traced ExecEvent (Progress × Client) := do
  accessTest pointer
  if c.2.test.role = .client then
    let e ← iperfRunClient platform env pointer entry c
    if e.1 = .returned false then
      accessTest pointer
      .emits [.onError]
      iperfErrexit flag pointer
    pure e
  else pure (.returned true, c)

/-- The state that `iperf_got_sigend` leaves. -/
def sigendState (test : IperfTest) : StateByte :=
  if test.ctrlSck < 0 then test.state
  else if test.role = .client then .clientTerminate else .serverTerminate

/-- `iperf_got_sigend`. -/
def iperfGotSigend (flag : InvokeFlag) (platform : Platform) (env : ℕ → CallbackInput)
    (cpuUtil : ℚ × ℚ × ℚ) (pointer : TestPointer) (c : Client) : Traced ExecEvent Client := do
  .emits [.gotSigend]
  accessTest pointer
  let w :=
    if c.2.test.role = .client ∨ (c.2.test.role = .server ∧ c.2.test.state = .testRunning) then
      let w := runStats platform env
        { c.2 with test := { c.2.test with done := true, cpuUtil := cpuUtil } }
      runReport env { w with test := { w.test with state := .displayResults } }
    else c.2
  iperfErrexit flag pointer
  pure (c.1, { w with test := { w.test with state := sigendState w.test } })

/-- A termination signal. -/
structure Interruption where
  /-- What `iperf_run_client` got before the signal, unless it landed in front of the
  `switch`. -/
  entry : Option EntryInput
  cpuUtil : ℚ × ℚ × ℚ

/-- `run`, which goes through its `switch` again behind every signal. -/
def run (flag : InvokeFlag) (platform : Platform) (env : ℕ → CallbackInput)
    (pointer : TestPointer) (last : EntryInput) :
    List Interruption → Client → Traced ExecEvent Client
  | [], c => do
    let e ← runSwitch flag platform env pointer last c
    match e.1 with
    | .running => .stop
    | .returned _ => pure e.2
  | signal :: rest, c => do
    let e ← match signal.entry with
      | none => pure (.running, c)
      | some entry => runSwitch flag platform env pointer entry c
    let c ← iperfGotSigend flag platform env signal.cpuUtil pointer e.2
    run flag platform env pointer last rest c

/-- What `iperf_free_stream` does to descriptors. -/
def freeStream (sp : IperfStream) : List FdEvent :=
  .closed sp.bufferFd :: if 0 ≤ sp.diskfileFd then [.closed sp.diskfileFd] else []

/-- `iperf_free_test`. -/
def freeTest (pointer : TestPointer) (test : IperfTest) : Traced ExecEvent Unit := do
  accessTest pointer
  .emits ((test.streams.flatMap freeStream).map .fd)
  .emits [.freeTest]

/-- What a native call gets from Java and from the system. -/
structure ExecInput where
  mallocTest : Bool
  mallocSettings : Bool
  config : Iperf3Config
  tmpPath : String
  mallocCallback : Bool
  /-- The timers that earlier calls left. -/
  timers : TimerLists ClientProc
  callbacks : ℕ → CallbackInput
  signals : List Interruption
  /-- What the entry of `iperf_run_client` behind the last signal gets. -/
  last : EntryInput

/-- The test that `run` gets. -/
def preparedTest (platform : Platform) (input : ExecInput) : IperfTest :=
  { parseJavaConfig platform input.config input.tmpPath (iperfDefaults platform iperfNewTest) with
    jniCallback := true }

/-- `Java_com_iperf3_jni_Iperf3Client_exec`; `run` always returns zero. -/
def exec (platform : Platform) (input : ExecInput) : Traced ExecEvent Unit := do
  let pointer ← newTest input.mallocTest input.mallocSettings
  if pointer = .null then iperfErrexit .jni .null
  accessTest pointer
  accessTest pointer
  let pointer ← constructJavaCallback input.mallocCallback pointer
  let c ← run .jni platform input.callbacks pointer input.last input.signals
    (input.timers, { test := preparedTest platform input })
  freeTest pointer c.2.test

/-- The part of `exec` behind `construct_java_callback`. -/
def runAndFree (platform : Platform) (input : ExecInput) (pointer : TestPointer) :
    Traced ExecEvent Unit := do
  let c ← run .jni platform input.callbacks pointer input.last input.signals
    (input.timers, { test := preparedTest platform input })
  freeTest pointer c.2.test

/-- A call that gets its test. -/
theorem exec_allocated (platform : Platform) {input : ExecInput} (htest : input.mallocTest = true)
    (hsettings : input.mallocSettings = true) :
    exec platform input = (do
      accessTest .live
      accessTest .live
      let pointer ← constructJavaCallback input.mallocCallback .live
      runAndFree platform input pointer) := by
  unfold exec newTest
  rw [htest, hsettings]
  rfl

/-- A call without a test does not return. -/
theorem exec_value {platform : Platform} {input : ExecInput}
    (h : (exec platform input).value = some ⟨⟩) :
    input.mallocTest = true ∧ input.mallocSettings = true ∧ input.mallocCallback = true := by
  cases htest : input.mallocTest with
  | false =>
    unfold exec newTest at h
    rw [htest] at h
    cases h
  | true =>
    cases hsettings : input.mallocSettings with
    | false =>
      unfold exec newTest at h
      rw [htest, hsettings] at h
      cases h
    | true =>
      refine ⟨rfl, rfl, ?_⟩
      rw [exec_allocated platform htest hsettings] at h
      cases hcallback : input.mallocCallback with
      | true => rfl
      | false =>
        rw [hcallback] at h
        have hfreed : (runAndFree platform input .freed).value = some ⟨⟩ := h
        obtain ⟨c, -, hfree⟩ := Traced.value_bind_eq_some.mp hfreed
        cases hfree

end IperfRuntime.JniExec
