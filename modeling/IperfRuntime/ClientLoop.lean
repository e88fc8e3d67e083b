import IperfRuntime.ClientRun

/-!
# The control loop of a client

`iperf_handle_message_client` and the loop of `iperf_run_client` for any sequence of
control messages, with every failure that makes them return early. A turn that does not
come back, in a callback's loop or in `strdup`, has no result. `iperf_free_test` gives
the timers back.
-/

namespace IperfRuntime.ClientLoop

open JsonTree TimerQueue TestState StreamCreation ResultsExchange ClientTimers ClientRun

/-- A readable control socket with what the handler gets from the system. -/
structure MessageInput where
  /-- The byte that `read` delivers, if it does. -/
  byte : Option StateByte
  streams : ℕ → StreamIo
  start : StartInput
  /-- Whether the handler can write what it has to. -/
  sent : Bool
  /-- The message of the peer, if `JSON_read` delivers one. -/
  peer : Option CJson
  cpuUtil : ℚ × ℚ × ℚ

/-- A client with another test. -/
def Client.withTest (c : Client) (test : IperfTest) : Client := (c.1, { c.2 with test := test })

/-- `iperf_exchange_results` on a client. -/
def iperfExchangeResults (input : MessageInput) (test : IperfTest) : Option (Bool × IperfTest) :=
  if input.sent then
    match input.peer with
    | some j => getResults j test
    | none => some (false, test)
  else some (false, test)

/-- The handler of `SERVER_TERMINATE`, which reports in a borrowed state. -/
def serverTerminate (env : ℕ → CallbackInput) (cpuUtil : ℚ × ℚ × ℚ) (c : Client) : Client :=
  let w := runReport env { c.2 with
    test := { c.2.test with cpuUtil := cpuUtil, state := .displayResults } }
  (c.1, { w with test := { w.test with state := .serverTerminate } })

/-- `iperf_handle_message_client`: whether it returns zero, and the client. -/
def iperfHandleMessageClient (env : ℕ → CallbackInput) (input : MessageInput) (c : Client) :
    Option (Bool × Client) :=
  match input.byte with
  | none => some (false, c)
  | some byte =>
    let test := { c.2.test with state := byte }
    match byte with
    | .paramExchange => some (input.sent, Client.withTest c test)
    | .createStreams =>
      let r := iperfCreateStreams input.streams test
      some (r.1, Client.withTest c r.2.1)
    | .testStart =>
      let r := handleTestStart input.start c.1 test
      some (r.1, (r.2.1, { c.2 with test := r.2.2 }))
    | .testRunning => some (true, Client.withTest c test)
    | .exchangeResults =>
      (iperfExchangeResults input test).map fun r => (r.1, Client.withTest c r.2)
    | .displayResults => some (true, displayResults env c)
    | .iperfDone => some (true, Client.withTest c test)
    | .serverTerminate => some (false, serverTerminate env input.cpuUtil c)
    | _ => some (false, Client.withTest c test)

/-- What one turn of the loop gets from the system. -/
structure TurnInput where
  message : Option MessageInput
  round : RoundInput
  cpuUtil : ℚ × ℚ × ℚ
  /-- Whether `TEST_END` can be written. -/
  sent : Bool

/-- A turn with the given message in which every call of the system succeeds, and each write on a
stream returns the given number. -/
def messageTurn (byte : StateByte) (written : ℤ) : TurnInput where
  message := some {
    byte := some byte
    streams := fun _ => ⟨⟨true, some 5, true, true, true, true⟩, ⟨true, some 6, true, none, true⟩⟩
    start := ⟨some {}, some {}, fun _ => true, some {}, true, true, fun _ => {}, fun _ => true⟩
    sent := true
    peer := none
    cpuUtil := (0, 0, 0) }
  round := {
    send := ⟨fun _ _ => ⟨0, written⟩, fun _ => {}, {}, fun _ => 0⟩
    writeSet := {5}
    recv := fun _ => ⟨0, {}, 0, {}⟩
    readSet := ∅
    now := ⟨1, 500000⟩
    fuel := 30 }
  cpuUtil := (0, 0, 0)
  sent := true

/-- The part of a turn behind the message. -/
def clientWork (platform : Platform) (env : ℕ → CallbackInput) (input : TurnInput) (c : Client) :
    Option (Bool × Client) :=
  if c.2.test.state = .testRunning then
    let t := transfer input.round c.2.test
    if t.1 then
      (tmrRun (callClient platform env) input.round.now input.round.fuel
        (Client.withTest c t.2)).map fun c =>
          if testOver c.2.test then (input.sent, endTest platform env input.cpuUtil c)
          else (true, c)
    else some (false, Client.withTest c t.2)
  else if c.2.test.state = .testEnd then
    let t := drain input.round c.2.test
    some (t.1, Client.withTest c t.2)
  else some (true, c)

/-- The message of a turn, if there is one. -/
def clientMessage (env : ℕ → CallbackInput) (input : TurnInput) (c : Client) :
    Option (Bool × Client) :=
  match input.message with
  | some message => iperfHandleMessageClient env message c
  | none => some (true, c)

/-- One turn of the loop: whether it goes on, and the client. -/
def clientTurn (platform : Platform) (env : ℕ → CallbackInput) (input : TurnInput) (c : Client) :
    Option (Bool × Client) :=
  (clientMessage env input c).bind fun r =>
    if r.1 then clientWork platform env input r.2 else some r

/-- The loop of `iperf_run_client` for the given turns, or until it returns. -/
def clientTurns (platform : Platform) (env : ℕ → CallbackInput) :
    List TurnInput → Client → Option Client
  | [], c => some c
  | input :: rest, c =>
    if c.2.test.state = .iperfDone then some c
    else
      (clientTurn platform env input c).bind fun r =>
        if r.1 then clientTurns platform env rest r.2 else some r.2

/-- `tmr_cancel` of a timer pointer that is not NULL. -/
def cancelIfSet (pointer : Option ℕ) (q : TimerLists ClientProc) : TimerLists ClientProc :=
  match pointer with
  | some t => tmrCancel t q
  | none => q

/-- The timer part of `iperf_free_test`, with that of `iperf_free_stream`. -/
def iperfFreeTest (q : TimerLists ClientProc) (test : IperfTest) : TimerLists ClientProc :=
  let q := test.streams.foldl (fun q sp => cancelIfSet sp.sendTimer q) q
  let q := cancelIfSet test.omitTimer q
  let q := cancelIfSet test.timer q
  let q := cancelIfSet test.statsTimer q
  cancelIfSet test.reporterTimer q

/-- A condition on every turn that a run takes. -/
def EveryTurn (P : TurnInput → Client → Prop) (platform : Platform) (env : ℕ → CallbackInput) :
    List TurnInput → Client → Prop
  | [], _ => True
  | input :: rest, c => c.2.test.state ≠ .iperfDone →
    P input c ∧ ∀ r, clientTurn platform env input c = some r → r.1 = true →
      EveryTurn P platform env rest r.2

/-- In every turn nothing is asked. -/
theorem everyTurn_true {platform : Platform} {env : ℕ → CallbackInput} (inputs : List TurnInput)
    (c : Client) : EveryTurn (fun _ _ => True) platform env inputs c := by
  induction inputs generalizing c with
  | nil => exact trivial
  | cons input rest ih => exact fun _ => ⟨trivial, fun r _ _ => ih r.2⟩

/-- What every turn under a condition keeps, a run of such turns keeps. -/
theorem clientTurns_invariant {platform : Platform} {env : ℕ → CallbackInput}
    {P : TurnInput → Client → Prop} (I : Client → Prop)
    (hturn : ∀ input c r, P input c → I c → clientTurn platform env input c = some r → I r.2)
    {inputs : List TurnInput} {c c' : Client} (hP : EveryTurn P platform env inputs c) (h : I c)
    (hrun : clientTurns platform env inputs c = some c') : I c' := by
  induction inputs generalizing c with
  | nil =>
    cases hrun
    exact h
  | cons input rest ih =>
    rw [clientTurns] at hrun
    split at hrun
    · cases hrun
      exact h
    · rename_i hstate
      obtain ⟨hinput, hrest⟩ := hP hstate
      obtain ⟨r, hr, hnext⟩ := Option.bind_eq_some_iff.mp hrun
      have hafter := hturn input c r hinput h hr
      split at hnext
      · rename_i hgo
        exact ih (hrest r hr hgo) hafter hnext
      · cases hnext
        exact hafter

end IperfRuntime.ClientLoop
