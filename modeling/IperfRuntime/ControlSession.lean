import IperfRuntime.ByteOrder
import IperfRuntime.ParameterExchange
import IperfRuntime.ScriptedChannels
import IperfRuntime.ServerAccept
import Mathlib.Logic.Relation

/-!
# A client and a server

The control protocol of one TCP test: `iperf_connect`, the loop of `iperf_run_client` and
its message handler, and `iperf_accept`, the loop of `iperf_run_server` and its message
handler, over a control connection, a listening socket and one connection for each
stream. A handler is the list of its reads and writes, each a step of its own. Bytes carry
what they were written as. What the handlers do besides the exchange succeeds, and the
data connections do not hold up a turn.
-/

namespace IperfRuntime.ControlSession

open ByteOrder JsonTree TestState TestParameters ParameterExchange ScriptedChannels

/-- What is written on a connection. -/
inductive Kind where
  | connection
  | cookie
  | state
  | parametersLength
  | parametersText
  | resultsLength
  | resultsText
  | errno
  deriving DecidableEq

/-- A pending connection, or a byte with what it was written as. -/
inductive Datum where
  | connection (k : ℕ)
  | byte (kind : Kind) (value : UInt8)
  deriving DecidableEq

def Datum.kind : Datum → Kind
  | .connection _ => .connection
  | .byte kind _ => kind

/-- The bytes of a read. -/
def bytesOf (data : List Datum) : List UInt8 :=
  data.filterMap fun
    | .connection _ => none
    | .byte _ value => some value

/-- The connections of a test; streams are counted from one. -/
inductive Channel where
  | control
  | listener
  | stream (k : ℕ)
  deriving DecidableEq

/-- A state on the wire. -/
def encodeState : StateByte → UInt8
  | .initial => 0
  | .testStart => 1
  | .testRunning => 2
  | .resultRequest => 3
  | .testEnd => 4
  | .streamBegin => 5
  | .streamRunning => 6
  | .streamEnd => 7
  | .allStreamsEnd => 8
  | .paramExchange => 9
  | .createStreams => 10
  | .serverTerminate => 11
  | .clientTerminate => 12
  | .exchangeResults => 13
  | .displayResults => 14
  | .iperfStart => 15
  | .iperfDone => 16
  | .accessDenied => 255
  | .serverError => 254
  | .other code => UInt8.ofNat (code % 256).toNat

/-- The state of a byte. -/
def decodeState (value : UInt8) : StateByte :=
  match value.toNat with
  | 0 => .initial
  | 1 => .testStart
  | 2 => .testRunning
  | 3 => .resultRequest
  | 4 => .testEnd
  | 5 => .streamBegin
  | 6 => .streamRunning
  | 7 => .streamEnd
  | 8 => .allStreamsEnd
  | 9 => .paramExchange
  | 10 => .createStreams
  | 11 => .serverTerminate
  | 12 => .clientTerminate
  | 13 => .exchangeResults
  | 14 => .displayResults
  | 15 => .iperfStart
  | 16 => .iperfDone
  | 255 => .accessDenied
  | 254 => .serverError
  | n => .other (if n < 128 then n else n - 256)

/-- The length that `JSON_write` sends with `htonl` is the one that `ntohl` gives back. -/
theorem length_delivered {n : ℕ} (h : n < 2 ^ 32) : fromBigEndian (bigEndian 4 n) = n := by
  rw [fromBigEndian_bigEndian]
  exact Nat.mod_eq_of_lt h

/-- A test of a client against a server. cJSON gives its own output back, and prints no
empty text and none of four gigabytes. -/
structure Setup where
  test : IperfTest
  cookie : List UInt8
  print : CJson → List UInt8
  parse : List UInt8 → Option CJson
  clientResults : List UInt8
  serverResults : List UInt8
  streams_pos : 1 ≤ test.numStreams
  streams_isInt : IsInt test.numStreams
  cookie_length : cookie.length = cookieSize
  cookie_terminated : 0 ∈ cookie
  parse_print : parse (print (sendParameters test)) = some (sendParameters test)
  parameters_size : print (sendParameters test) ≠ [] ∧ (print (sendParameters test)).length < 2 ^ 32
  clientResults_size : clientResults ≠ [] ∧ clientResults.length < 2 ^ 32
  serverResults_size : serverResults ≠ [] ∧ serverResults.length < 2 ^ 32

/-- The reads and writes of a handler. -/
inductive Op where
  /-- `iperf_set_send_state`. -/
  | setSend (state : StateByte)
  /-- `connect`, or `netdial` for the control connection. -/
  | dial (k : ℕ)
  | write (channel : Channel) (kind : Kind)
  | read (channel : Channel) (kind : Kind)
  /-- `ACCESS_DENIED` and `close`. -/
  | refuse (k : ℕ)
  deriving DecidableEq

/-- Why an end leaves its loop early. -/
inductive Failure where
  /-- `IEMESSAGE`. -/
  | ieMessage
  | ieAccessDenied
  | ieServerTerm
  /-- The error number that `SERVER_ERROR` announces. -/
  | serverError
  | ieRecvParams
  deriving DecidableEq

/-- The control part of a test. -/
structure View where
  state : StateByte
  /-- `hsize` of `JSON_read`. -/
  jsonSize : ℕ
  cookie : List UInt8
  /-- Whether `ctrl_sck` is in use. -/
  ctrlSck : Bool
  numStreams : ℤ
  streams : List ℕ
  streamsAccepted : ℤ

/-- The rest of a turn of a loop. -/
inductive Turn where
  | top
  /-- The client behind its message. -/
  | work
  /-- The server behind `iperf_accept`. -/
  | handling (control : Bool)
  /-- The server behind its message. -/
  | streaming (listener : Bool)
  /-- The server in front of the comparison of `streams_accepted`. -/
  | checking
  deriving DecidableEq

/-- What an end has written and read, a read with what its code takes the data for. -/
inductive Event where
  | wrote (channel : Channel) (data : List Datum)
  | read (expected : Kind) (data : List Datum)
  deriving DecidableEq

/-- How an end stands to its loop. -/
inductive Outcome where
  | running
  | left
  | failed (f : Failure)
  deriving DecidableEq

/-- One end of the session. -/
structure End where
  view : View
  turn : Turn
  /-- What its handler has still to do. -/
  todo : List Op
  /-- What the handler returns with. -/
  failing : Option Failure := none
  outcome : Outcome := .running
  /-- Every value that `state` was given. -/
  visited : List StateByte := []
  history : List Event := []

/-- Both ends and what is between them; the client is the initiator. -/
structure Session where
  net : Channels Channel Datum
  ends : Party → End

/-- What an end writes of a kind. -/
def payload (S : Setup) : Party → Kind → List UInt8
  | .initiator, .cookie => S.cookie
  | .initiator, .parametersLength => bigEndian 4 (S.print (sendParameters S.test)).length
  | .initiator, .parametersText => S.print (sendParameters S.test)
  | .initiator, .resultsLength => bigEndian 4 S.clientResults.length
  | .initiator, .resultsText => S.clientResults
  | .responder, .resultsLength => bigEndian 4 S.serverResults.length
  | .responder, .resultsText => S.serverResults
  | _, _ => []

/-- A state byte in flight. -/
def stateData (state : StateByte) : List Datum := [.byte .state (encodeState state)]

/-- What an operation transfers when the peer writes what it reads. -/
def messageOf (S : Setup) (p : Party) : Op → Message Channel Datum
  | .setSend state => ⟨p, .control, stateData state⟩
  | .dial k => ⟨p, .listener, [.connection k]⟩
  | .write channel kind => ⟨p, channel, (payload S p kind).map (.byte kind)⟩
  | .read channel kind => ⟨p.other, channel, (payload S p.other kind).map (.byte kind)⟩
  | .refuse k => ⟨p, .stream k, stateData .accessDenied⟩

/-- How much is read of a kind. -/
def readCount (v : View) : Kind → ℕ
  | .connection => 1
  | .cookie => cookieSize
  | .state => 1
  | .parametersLength => 4
  | .parametersText => v.jsonSize
  | .resultsLength => 4
  | .resultsText => v.jsonSize
  | .errno => 4

/-- What an operation does to its end. -/
structure Effect where
  view : View
  /-- What has to be done before anything else. -/
  first : List Op := []
  failing : Option Failure := none

/-- What is left of a handler; one that fails returns. -/
def Effect.todo (r : Effect) (rest : List Op) : List Op :=
  if r.failing.isSome then [] else r.first ++ rest

/-- The effect of an operation with what it transferred. -/
def effect (S : Setup) : Op → List UInt8 → View → Effect
  | .setSend state, _, v => { view := { v with state := state } }
  | .write (.stream k) .cookie, _, v => { view := { v with streams := v.streams ++ [k] } }
  | .read _ .parametersLength, data, v => { view := { v with jsonSize := fromBigEndian data } }
  | .read _ .resultsLength, data, v => { view := { v with jsonSize := fromBigEndian data } }
  | .read _ .parametersText, data, v =>
    match S.parse data with
    | some j =>
      { view := { v with numStreams := valueOr j "parallel" (toInt ·.valueint) v.numStreams } }
    | none => { view := v, failing := some .ieRecvParams }
  | .read (.stream k) .cookie, data, v =>
    if ServerAccept.strcmp v.cookie data = some true then
      { view := { v with streams := v.streams ++ [k], streamsAccepted := v.streamsAccepted + 1 } }
    else { view := v, first := [.refuse k] }
  | .read .control .cookie, data, v => { view := { v with cookie := data } }
  | _, _, v => { view := v }

/-- The states that an operation sets. -/
def Op.states : Op → List StateByte
  | .setSend state => [state]
  | _ => []

/-- A session with another end. -/
def Session.setEnd (s : Session) (p : Party) (e : End) : Session :=
  { s with ends := Function.update s.ends p e }

/-- The next operation of a handler; a read waits for all of its data. -/
def perform (S : Setup) (p : Party) (op : Op) (rest : List Op) (s : Session) : Option Session :=
  let e := s.ends p
  match op with
  | .read channel kind =>
    let n := readCount e.view kind
    if (s.net p.other channel).length < n then none
    else
      let data := (s.net p.other channel).take n
      let r := effect S op (bytesOf data) e.view
      some {
        net := s.net.consume p.other channel n
        ends := Function.update s.ends p { e with
          view := r.view
          todo := r.todo rest
          failing := r.failing.or e.failing
          history := e.history ++ [.read kind data] } }
  | _ =>
    let m := messageOf S p op
    let r := effect S op (bytesOf m.content) e.view
    some {
      net := s.net.write p m.channel m.content
      ends := Function.update s.ends p { e with
        view := r.view
        todo := r.todo rest
        failing := r.failing.or e.failing
        visited := e.visited ++ op.states
        history := e.history ++ [.wrote m.channel m.content] } }

/-- What a message handler does, and what it fails with. -/
abbrev Reaction := List Op × Option Failure

/-- The streams of `iperf_create_streams` from the given one. -/
def connectOps (k : ℕ) : ℕ → List Op
  | 0 => []
  | n + 1 => .dial k :: .write (.stream k) .cookie :: connectOps (k + 1) n

/-- `iperf_handle_message_client` behind the read of the state. -/
def clientReaction (v : View) : Reaction :=
  match v.state with
  | .paramExchange =>
    ([.write .control .parametersLength, .write .control .parametersText], none)
  | .createStreams => (connectOps 1 v.numStreams.toNat, none)
  | .testStart => ([], none)
  | .testRunning => ([], none)
  | .exchangeResults =>
    ([.write .control .resultsLength, .write .control .resultsText,
      .read .control .resultsLength, .read .control .resultsText], none)
  | .displayResults => ([.setSend .iperfDone], none)
  | .iperfDone => ([], none)
  | .serverTerminate => ([], some .ieServerTerm)
  | .accessDenied => ([], some .ieAccessDenied)
  | .serverError => ([.read .control .errno, .read .control .errno], some .serverError)
  | _ => ([], some .ieMessage)

/-- `iperf_handle_message_server` behind the read of the state. -/
def serverReaction (v : View) : Reaction :=
  match v.state with
  | .testStart => ([], none)
  | .testEnd =>
    ([.setSend .exchangeResults, .read .control .resultsLength, .read .control .resultsText,
      .write .control .resultsLength, .write .control .resultsText, .setSend .displayResults], none)
  | .iperfDone => ([], none)
  | .clientTerminate => ([], none)
  | _ => ([], some .ieMessage)

/-- The new client of `iperf_accept`. -/
def acceptOps : List Op :=
  [.read .control .cookie, .setSend .paramExchange, .read .control .parametersLength,
    .read .control .parametersText, .setSend .createStreams]

/-- What `CLIENT_TERMINATE` leaves of a server behind its reports. -/
def terminate (p : Party) (e : End) : End :=
  if p = .responder ∧ e.view.state = .clientTerminate then
    { e with view := { e.view with state := .iperfDone }, visited := e.visited ++ [.iperfDone] }
  else e

/-- The read of a state into `test->state`, with what a handler makes of it. -/
def receive (p : Party) (reaction : View → Reaction) (turn : Turn) (s : Session) :
    Option Session :=
  let e := s.ends p
  match s.net p.other .control with
  | [] => none
  | d :: _ =>
    let view := { e.view with state := decodeState ((bytesOf [d]).headD 0) }
    let r := reaction view
    some {
      net := s.net.consume p.other .control 1
      ends := Function.update s.ends p (terminate p { e with
        view := view
        turn := turn
        todo := r.1
        failing := r.2
        visited := e.visited ++ [view.state]
        history := e.history ++ [.read .state [d]] }) }

/-- `accept` with what is done on the connection; nothing is there for a byte. -/
def accept (work : ℕ → List Op) (turn : Turn) (s : Session) : Option Session :=
  let e := s.ends .responder
  match s.net .initiator .listener with
  | .connection k :: _ =>
    some {
      net := s.net.consume .initiator .listener 1
      ends := Function.update s.ends .responder { e with
        view := { e.view with ctrlSck := true }
        turn := turn
        todo := work k
        history := e.history ++ [.read .connection [.connection k]] } }
  | _ => none

/-- A step of an end that is between two operations or at the end of its handler. -/
def betweenOps (S : Setup) (p : Party) (loop : Session → Option Session) (s : Session) :
    Option Session :=
  let e := s.ends p
  match e.outcome, e.todo, e.failing with
  | .running, op :: rest, _ => perform S p op rest s
  | .running, [], some f => some (s.setEnd p { e with outcome := .failed f })
  | .running, [], none => loop s
  | _, _, _ => none

/-- The loop of `iperf_run_client`; `input` tells whether `select` reports a message, and
behind it whether the test is over. -/
def clientLoop (input : Bool) (s : Session) : Option Session :=
  let e := s.ends .initiator
  if e.turn = .work then
    if e.view.state = .testRunning ∧ input = true then
      some (s.setEnd .initiator { e with turn := .top, todo := [.setSend .testEnd] })
    else some (s.setEnd .initiator { e with turn := .top })
  else if e.view.state = .iperfDone then some (s.setEnd .initiator { e with outcome := .left })
  else if input then receive .initiator clientReaction .work s
  else some (s.setEnd .initiator { e with turn := .work })

/-- A step of the client. -/
def clientStep (S : Setup) (input : Bool) : Session → Option Session :=
  betweenOps S .initiator (clientLoop input)

/-- The part of a turn of the server for the state `CREATE_STREAMS`, up to the comparison. -/
def serverStreams (listener : Bool) (s : Session) : Option Session :=
  let e := s.ends .responder
  if e.view.state = .createStreams ∧ listener = true then
    accept (fun k => [.read (.stream k) .cookie]) .checking s
  else some (s.setEnd .responder { e with turn := .checking })

/-- The loop of `iperf_run_server`; the flags tell what `select` reports. -/
def serverLoop (listener control : Bool) (s : Session) : Option Session :=
  let e := s.ends .responder
  match e.turn with
  | .handling control =>
    if control then receive .responder serverReaction (.streaming false) s
    else serverStreams false s
  | .streaming listener => serverStreams listener s
  | .checking =>
    if e.view.state = .createStreams ∧ e.view.streamsAccepted = e.view.numStreams then
      some (s.setEnd .responder { e with
        turn := .top
        todo := [.setSend .testStart, .setSend .testRunning] })
    else some (s.setEnd .responder { e with turn := .top })
  | _ =>
    if e.view.state = .iperfDone then some (s.setEnd .responder { e with outcome := .left })
    else if (listener && (s.net .initiator .listener).isEmpty) ||
        (control && (!e.view.ctrlSck || (s.net .initiator .control).isEmpty)) then none
    else if listener = true ∧ e.view.state ≠ .createStreams then
      accept (fun k => if e.view.ctrlSck then [.refuse k] else acceptOps) (.handling control) s
    else if control then receive .responder serverReaction (.streaming listener) s
    else serverStreams listener s

/-- A step of the server. -/
def serverStep (S : Setup) (listener control : Bool) : Session → Option Session :=
  betweenOps S .responder (serverLoop listener control)

/-- A step of either end. -/
def Step (S : Setup) (s s' : Session) : Prop :=
  (∃ input, clientStep S input s = some s') ∨
    ∃ listener control, serverStep S listener control s = some s'

/-- A client in front of `iperf_connect`. -/
def startClient (S : Setup) : End where
  view := ⟨.initial, 0, S.cookie, true, S.test.numStreams, [], 0⟩
  turn := .top
  todo := [.dial 0, .write .control .cookie]

/-- A free server. -/
def startServer : End where
  view := ⟨.iperfStart, 0, List.replicate cookieSize 0, false, 1, [], 0⟩
  turn := .top
  todo := []

/-- The session before the first step. -/
def start (S : Setup) : Session where
  net := fun _ _ => []
  ends
    | .initiator => startClient S
    | .responder => startServer

/-- The sessions of a run. -/
def Run (S : Setup) : Session → Session → Prop := Relation.ReflTransGen (Step S)

end IperfRuntime.ControlSession
