import IperfRuntime.ControlSession

/-!
# Agreement of the two ends

One script for both ends of a session, and the invariant that each end follows it: the
operations that are left of a handler transfer the next messages of the script, and between
two handlers the state says what is left of it. Signals, time-outs and a connection that
fails in between have no place in the script.
-/

namespace IperfRuntime.ControlAgreement

open ByteOrder JsonTree TestState TestParameters ParameterExchange ScriptedChannels ControlSession

variable {S : Setup}

/-- An operation of the client as a message. -/
def ofClient (S : Setup) (op : Op) : Message Channel Datum := messageOf S .initiator op

/-- An operation of the server as a message. -/
def ofServer (S : Setup) (op : Op) : Message Channel Datum := messageOf S .responder op

/-- The script behind `DISPLAY_RESULTS`. -/
def fromDone (S : Setup) : List (Message Channel Datum) := [ofClient S (.setSend .iperfDone)]

def fromDisplay (S : Setup) : List (Message Channel Datum) :=
  ofServer S (.setSend .displayResults) :: fromDone S

def fromResults (S : Setup) : List (Message Channel Datum) :=
  ofClient S (.write .control .resultsLength) :: ofClient S (.write .control .resultsText) ::
    ofServer S (.write .control .resultsLength) :: ofServer S (.write .control .resultsText) ::
      fromDisplay S

def fromExchange (S : Setup) : List (Message Channel Datum) :=
  ofServer S (.setSend .exchangeResults) :: fromResults S

def fromEnd (S : Setup) : List (Message Channel Datum) :=
  ofClient S (.setSend .testEnd) :: fromExchange S

def fromRunning (S : Setup) : List (Message Channel Datum) :=
  ofServer S (.setSend .testRunning) :: fromEnd S

def fromStart (S : Setup) : List (Message Channel Datum) :=
  ofServer S (.setSend .testStart) :: fromRunning S

/-- The script of so many streams from the given one. -/
def fromStreams (S : Setup) (k n : ℕ) : List (Message Channel Datum) :=
  (connectOps k n).map (ofClient S) ++ fromStart S

def fromCreate (S : Setup) : List (Message Channel Datum) :=
  ofServer S (.setSend .createStreams) :: fromStreams S 1 S.test.numStreams.toNat

def fromParameters (S : Setup) : List (Message Channel Datum) :=
  ofClient S (.write .control .parametersLength) ::
    ofClient S (.write .control .parametersText) :: fromCreate S

def fromParam (S : Setup) : List (Message Channel Datum) :=
  ofServer S (.setSend .paramExchange) :: fromParameters S

/-- The script of a session. -/
def script (S : Setup) : List (Message Channel Datum) :=
  ofClient S (.dial 0) :: ofClient S (.write .control .cookie) :: fromParam S

/-- A state that comes out of its byte as it went in. -/
def Encodes (state : StateByte) : Prop := decodeState (encodeState state) = state

/-- What is asked of an operation: a server starts the test with all of its streams. -/
def Guarded (S : Setup) (v : View) : Op → Prop
  | .setSend state =>
    Encodes state ∧ (state = .testStart →
      (v.streams.length : ℤ) = v.numStreams ∧ v.numStreams = S.test.numStreams)
  | _ => True

/-- A read asks for what there is. -/
def Sized (S : Setup) (p : Party) (v : View) : Op → Prop
  | .read channel kind =>
    readCount v kind = (messageOf S p (.read channel kind)).content.length ∧
      (messageOf S p (.read channel kind)).content ≠ []
  | _ => True

/-- The operations left of a handler transfer the next messages of a script, none of them
fails, and behind them the end is as `idle` says. -/
def Follows (S : Setup) (p : Party) (idle : View → List (Message Channel Datum) → Prop) :
    List Op → View → List (Message Channel Datum) → Prop
  | [], v, rest => idle v rest
  | op :: ops, v, rest => ∃ after v', rest = messageOf S p op :: after ∧ Guarded S v op ∧
      Sized S p v op ∧
      effect S op (bytesOf (messageOf S p op).content) v = { view := v' } ∧
      Follows S p idle ops v' after

/-- A client between two handlers. -/
def ClientIdle (S : Setup) (v : View) (rest : List (Message Channel Datum)) : Prop :=
  v.numStreams = S.test.numStreams ∧
    match v.state with
    | .initial => rest = fromParam S
    | .paramExchange => rest = fromCreate S
    | .createStreams => rest = fromStart S
    | .testStart => rest = fromRunning S
    | .testRunning => rest = fromEnd S
    | .testEnd => rest = fromExchange S
    | .exchangeResults => rest = fromDisplay S
    | .iperfDone => rest = []
    | _ => False

/-- A server that creates streams, with so many still to come. -/
structure Creating (S : Setup) (v : View) (rest : List (Message Channel Datum)) (n : ℕ) :
    Prop where
  accepted : v.streamsAccepted = (v.streams.length : ℤ)
  numStreams : v.numStreams = (v.streams.length : ℤ) + n
  total : v.numStreams = S.test.numStreams
  cookie : v.cookie = S.cookie
  ctrlSck : v.ctrlSck = true
  rest_eq : rest = fromStreams S (v.streams.length + 1) n

/-- A server between two handlers. -/
def ServerIdle (S : Setup) (v : View) (rest : List (Message Channel Datum)) : Prop :=
  match v.state with
  | .iperfStart => rest = script S ∧ v.ctrlSck = false ∧ v.streams = [] ∧ v.streamsAccepted = 0
  | .createStreams => ∃ n, Creating S v rest n
  | .testRunning => rest = fromEnd S ∧ v.ctrlSck = true
  | .displayResults => rest = fromDone S ∧ v.ctrlSck = true
  | .iperfDone => rest = []
  | _ => False

/-- What an end makes of a message in its history. -/
def eventOf (p : Party) (m : Message Channel Datum) : Event :=
  if m.sender = p then .wrote m.channel m.content
  else .read (m.content.head?.elim .connection Datum.kind) m.content

/-- The states that a message brings to both ends. -/
def statesOf (m : Message Channel Datum) : List StateByte :=
  match m.channel, m.content with
  | .control, [.byte .state value] => [decodeState value]
  | _, _ => []

/-- An end has gone through the script as far as it is gone. -/
def Recorded (S : Setup) (p : Party) (e : End) (rest : List (Message Channel Datum)) : Prop :=
  ∃ before, script S = before ++ rest ∧ e.history = before.map (eventOf p) ∧
    e.visited = before.flatMap statesOf

/-- What `idle` is for an end. -/
def idleOf (S : Setup) : Party → View → List (Message Channel Datum) → Prop
  | .initiator => ClientIdle S
  | .responder => ServerIdle S

/-- An end that follows the script. -/
structure OnScript (S : Setup) (p : Party) (e : End) (rest : List (Message Channel Datum)) :
    Prop where
  follows : Follows S p (idleOf S p) e.todo e.view rest
  recorded : Recorded S p e rest
  failing : e.failing = none
  outcome : e.outcome = .running ∨ e.outcome = .left ∧ rest = [] ∧ e.todo = []
  /-- `select` does not report a connection and a message together. -/
  handling : e.turn ≠ .handling true
  streaming : e.turn ≠ .streaming true

/-- The invariant of a session. -/
structure Agrees (S : Setup) (s : Session) (rest : Party → List (Message Channel Datum)) :
    Prop where
  coherent : Coherent s.net rest
  onScript : ∀ p, OnScript S p (s.ends p) (rest p)

/-- An end with a message before it is in its loop. -/
theorem OnScript.running {p : Party} {e : End} {rest : List (Message Channel Datum)}
    (h : OnScript S p e rest) (hrest : rest ≠ []) : e.outcome = .running := by
  rcases h.outcome with hrunning | ⟨-, hempty, -⟩
  · exact hrunning
  · exact absurd hempty hrest

/-- An end that has done its handler is between two. -/
theorem OnScript.idle {p : Party} {e : End} {rest : List (Message Channel Datum)}
    (h : OnScript S p e rest) (htodo : e.todo = []) : idleOf S p e.view rest := by
  have hfollows := h.follows
  rw [htodo] at hfollows
  exact hfollows

/-- A message that is not a state brings none. -/
theorem statesOf_bytes (p : Party) (channel : Channel) (bytes : List UInt8) {kind : Kind}
    (h : kind = .state → bytes = []) :
    statesOf ⟨p, channel, bytes.map (.byte kind)⟩ = [] := by
  unfold statesOf
  cases channel with
  | listener => rfl
  | stream k => rfl
  | control =>
    cases bytes with
    | nil => rfl
    | cons value bytes =>
      have hkind : kind ≠ .state := fun hstate => by cases h hstate
      cases kind <;> first | rfl | exact absurd rfl hkind

/-- A state message carries no payload beside its byte. -/
theorem payload_state (S : Setup) (p : Party) : payload S p .state = [] := by
  cases p with
  | initiator => rfl
  | responder => rfl

/-- An operation sets the states that its message brings. -/
theorem statesOf_messageOf {p : Party} {op : Op} {v : View} (h : Guarded S v op) :
    statesOf (messageOf S p op) = op.states := by
  cases op with
  | setSend state =>
    have hencodes : decodeState (encodeState state) = state := h.1
    simp [statesOf, messageOf, stateData, Op.states, hencodes]
  | dial k => rfl
  | refuse k => rfl
  | write channel kind =>
    refine statesOf_bytes p channel (payload S p kind) fun hkind => ?_
    rw [hkind, payload_state]
  | read channel kind =>
    refine statesOf_bytes p.other channel (payload S p.other kind) fun hkind => ?_
    rw [hkind, payload_state]

/-- Taking the next message extends the record of what was taken. -/
theorem Recorded.advance {p : Party} {e e' : End} {m : Message Channel Datum}
    {after : List (Message Channel Datum)} (h : Recorded S p e (m :: after))
    (hhistory : e'.history = e.history ++ [eventOf p m])
    (hvisited : e'.visited = e.visited ++ statesOf m) : Recorded S p e' after := by
  obtain ⟨before, hscript, hold, hseen⟩ := h
  refine ⟨before ++ [m], ?_, ?_, ?_⟩
  · rw [hscript, List.append_assoc, List.singleton_append]
  · rw [hhistory, hold, List.map_append]
    rfl
  · rw [hvisited, hseen, List.flatMap_append]
    simp

/-- An end that goes on while the other stays. -/
theorem Agrees.update {s : Session} {rest : Party → List (Message Channel Datum)}
    (h : Agrees S s rest) {p : Party} {net : Channels Channel Datum} {e : End}
    {after : List (Message Channel Datum)}
    (hcoherent : Coherent net (Function.update rest p after)) (he : OnScript S p e after) :
    Agrees S ⟨net, Function.update s.ends p e⟩ (Function.update rest p after) := by
  refine ⟨hcoherent, fun q => ?_⟩
  dsimp only
  by_cases hq : q = p
  · subst hq
    rw [Function.update_self, Function.update_self]
    exact he
  · rw [Function.update_of_ne hq, Function.update_of_ne hq]
    exact h.onScript q

/-- An end that only goes on in its loop. -/
theorem Agrees.setEnd {s : Session} {rest : Party → List (Message Channel Datum)}
    (h : Agrees S s rest) {p : Party} {e : End} (he : OnScript S p e (rest p)) :
    Agrees S (s.setEnd p e) rest := by
  refine ⟨h.coherent, fun q => ?_⟩
  dsimp only [Session.setEnd]
  by_cases hq : q = p
  · subst hq
    rw [Function.update_self]
    exact he
  · rw [Function.update_of_ne hq]
    exact h.onScript q

/-- A turn of a loop that leaves the script alone. -/
theorem Agrees.turned {s : Session} {rest : Party → List (Message Channel Datum)}
    (h : Agrees S s rest) (p : Party) (turn : Turn) (hhandling : turn ≠ .handling true)
    (hstreaming : turn ≠ .streaming true) :
    Agrees S (s.setEnd p { s.ends p with turn := turn }) rest := by
  have hon := h.onScript p
  exact h.setEnd ⟨hon.follows, hon.recorded, hon.failing, hon.outcome, hhandling, hstreaming⟩

/-- A write takes an end one message further: the message is the next one of the script and
joins what is in flight. -/
theorem perform_write {s : Session} {rest : Party → List (Message Channel Datum)}
    (h : Agrees S s rest) {p : Party} {op : Op} {ops : List Op}
    (htodo : (s.ends p).todo = op :: ops) (hop : (messageOf S p op).sender = p) :
    ∃ after s', rest p = messageOf S p op :: after ∧ perform S p op ops s = some s' ∧
      Agrees S s' (Function.update rest p after) := by
  have hon := h.onScript p
  have hfollows := hon.follows
  rw [htodo] at hfollows
  obtain ⟨after, v', hrest, hguard, -, heffect, hnext⟩ := hfollows
  have hrecorded := hon.recorded
  rw [hrest] at hrecorded
  have hperform : perform S p op ops s = some {
      net := s.net.write p (messageOf S p op).channel (messageOf S p op).content
      ends := Function.update s.ends p { s.ends p with
        view := v'
        todo := ops
        failing := (s.ends p).failing
        visited := (s.ends p).visited ++ op.states
        history := (s.ends p).history ++
          [.wrote (messageOf S p op).channel (messageOf S p op).content] } } := by
    cases op with
    | read channel kind => exact absurd hop (Party.other_ne p)
    | _ =>
      simp only [perform]
      rw [heffect]
      rfl
  refine ⟨after, _, hrest, hperform, ?_⟩
  refine h.update (h.coherent.write hrest hop) ⟨hnext, ?_, hon.failing, ?_, hon.handling,
    hon.streaming⟩
  · refine hrecorded.advance ?_ ?_
    · simp [eventOf, hop]
    · rw [statesOf_messageOf hguard]
  · exact Or.inl (hon.running (by simp [hrest]))

/-- A read whose data has arrived does so as well: the channel holds what the script says
comes next, so the read takes that message and no part of another. -/
theorem perform_read {s : Session} {rest : Party → List (Message Channel Datum)}
    (h : Agrees S s rest) {p : Party} {channel : Channel} {kind : Kind} {ops : List Op}
    (htodo : (s.ends p).todo = .read channel kind :: ops) (hsome : s.net p.other channel ≠ []) :
    ∃ after s', rest p = messageOf S p (.read channel kind) :: after ∧
      perform S p (.read channel kind) ops s = some s' ∧
      Agrees S s' (Function.update rest p after) := by
  have hon := h.onScript p
  have hfollows := hon.follows
  rw [htodo] at hfollows
  obtain ⟨after, v', hrest, hguard, hsized, heffect, hnext⟩ := hfollows
  have hrecorded := hon.recorded
  rw [hrest] at hrecorded
  obtain ⟨hcount, hne⟩ := hsized
  obtain ⟨-, more, hmore⟩ := h.coherent.found hrest hsome
  have hchannel : (messageOf S p (.read channel kind)).channel = channel := rfl
  rw [hchannel] at hmore
  have htake : (s.net p.other channel).take (readCount (s.ends p).view kind) =
      (messageOf S p (.read channel kind)).content := by
    rw [hcount, hmore, List.take_left]
  have hlength : ¬(s.net p.other channel).length < readCount (s.ends p).view kind := by
    rw [hcount, hmore, List.length_append]
    omega
  have hperform : perform S p (.read channel kind) ops s = some {
      net := s.net.consume p.other channel (readCount (s.ends p).view kind)
      ends := Function.update s.ends p { s.ends p with
        view := v'
        todo := ops
        failing := (s.ends p).failing
        history := (s.ends p).history ++
          [.read kind (messageOf S p (.read channel kind)).content] } } := by
    simp only [perform]
    rw [if_neg hlength, htake, heffect]
    rfl
  have hcoherent := h.coherent.consume hrest hsome
  rw [← hcount, hchannel] at hcoherent
  refine ⟨after, _, hrest, hperform, ?_⟩
  refine h.update hcoherent ⟨hnext, ?_, hon.failing, ?_, hon.handling, hon.streaming⟩
  · refine hrecorded.advance ?_ ?_
    · have hsender : ¬(messageOf S p (.read channel kind)).sender = p := Party.other_ne p
      have hkind : (messageOf S p (.read channel kind)).content.head?.elim .connection Datum.kind =
          kind := by
        cases hpayload : payload S p.other kind with
        | nil =>
          exfalso
          apply hne
          simp [messageOf, hpayload]
        | cons value bytes => simp [messageOf, hpayload, Datum.kind]
      unfold eventOf
      rw [if_neg hsender, hkind]
    · rw [statesOf_messageOf hguard]
      simp [Op.states]
  · exact Or.inl (hon.running (by simp [hrest]))

/-- A state that has arrived starts the handler that the script goes on with, for either end
and whatever its turn is. -/
theorem receive_agrees {s : Session} {rest : Party → List (Message Channel Datum)}
    (h : Agrees S s rest) {p : Party} {reaction : View → Reaction} {turn : Turn}
    {state : StateByte} {after : List (Message Channel Datum)} {ops : List Op}
    (hrest : rest p = messageOf S p.other (.setSend state) :: after) (hencodes : Encodes state)
    (hterminate : state ≠ .clientTerminate)
    (hreaction : reaction { (s.ends p).view with state := state } = (ops, none))
    (hfollows : Follows S p (idleOf S p) ops { (s.ends p).view with state := state } after)
    (hhandling : turn ≠ .handling true) (hstreaming : turn ≠ .streaming true)
    (hsome : s.net p.other .control ≠ []) :
    ∃ s', receive p reaction turn s = some s' ∧ Agrees S s' (Function.update rest p after) := by
  have hon := h.onScript p
  have hrecorded := hon.recorded
  rw [hrest] at hrecorded
  obtain ⟨-, more, hmore⟩ := h.coherent.found hrest hsome
  have hnet : s.net p.other .control = .byte .state (encodeState state) :: more := hmore
  have hdecode : decodeState ((bytesOf [.byte .state (encodeState state)]).headD 0) = state :=
    hencodes
  have hreceive : receive p reaction turn s = some {
      net := s.net.consume p.other .control 1
      ends := Function.update s.ends p { s.ends p with
        view := { (s.ends p).view with state := state }
        turn := turn
        todo := ops
        failing := none
        visited := (s.ends p).visited ++ [state]
        history := (s.ends p).history ++ [.read .state (stateData state)] } } := by
    unfold receive
    rw [hnet]
    dsimp only
    rw [hdecode, hreaction]
    unfold terminate
    rw [if_neg fun hboth => hterminate hboth.2]
    rfl
  have hcoherent := h.coherent.consume hrest hsome
  refine ⟨_, hreceive, h.update hcoherent ⟨hfollows, ?_, rfl, ?_, hhandling, hstreaming⟩⟩
  · refine hrecorded.advance ?_ ?_
    · have hsender : ¬(messageOf S p.other (.setSend state)).sender = p := Party.other_ne p
      unfold eventOf
      rw [if_neg hsender]
      rfl
    · have hstates : statesOf (messageOf S p.other (.setSend state)) =
          [decodeState (encodeState state)] := rfl
      rw [hstates, hencodes]
  · exact Or.inl (hon.running (by simp [hrest]))

/-- So does a connection, which the server takes in the order in which the client has dialled.
-/
theorem accept_agrees {s : Session} {rest : Party → List (Message Channel Datum)}
    (h : Agrees S s rest) {work : ℕ → List Op} {turn : Turn} {k : ℕ}
    {after : List (Message Channel Datum)} (hrest : rest .responder = ofClient S (.dial k) :: after)
    (hfollows : Follows S .responder (ServerIdle S) (work k)
      { (s.ends .responder).view with ctrlSck := true } after)
    (hhandling : turn ≠ .handling true) (hstreaming : turn ≠ .streaming true)
    (hsome : s.net .initiator .listener ≠ []) :
    ∃ s', accept work turn s = some s' ∧
      Agrees S s' (Function.update rest .responder after) := by
  have hon := h.onScript .responder
  have hrecorded := hon.recorded
  rw [hrest] at hrecorded
  obtain ⟨-, more, hmore⟩ := h.coherent.found hrest hsome
  have hnet : s.net .initiator .listener = .connection k :: more := hmore
  have haccept : accept work turn s = some {
      net := s.net.consume .initiator .listener 1
      ends := Function.update s.ends .responder { s.ends .responder with
        view := { (s.ends .responder).view with ctrlSck := true }
        turn := turn
        todo := work k
        history := (s.ends .responder).history ++ [.read .connection [.connection k]] } } := by
    unfold accept
    rw [hnet]
  have hcoherent := h.coherent.consume hrest hsome
  refine ⟨_, haccept,
    h.update hcoherent ⟨hfollows, ?_, hon.failing, ?_, hhandling, hstreaming⟩⟩
  · refine hrecorded.advance rfl ?_
    have hstates : statesOf (ofClient S (.dial k)) = [] := rfl
    rw [hstates, List.append_nil]
  · exact Or.inl (hon.running (by simp [hrest]))

/-- The bytes of a message are those it was made of. -/
theorem bytesOf_map (kind : Kind) (bytes : List UInt8) :
    bytesOf (bytes.map (.byte kind)) = bytes := by
  unfold bytesOf
  induction bytes with
  | nil => rfl
  | cons value bytes ih =>
    rw [List.map_cons, List.filterMap_cons]
    simp only [ih]

/-- A text with its zero equals itself. -/
theorem strcmp_self {text : List UInt8} (h : 0 ∈ text) :
    ServerAccept.strcmp text text = some true := by
  induction text with
  | nil => cases h
  | cons value text ih =>
    by_cases hzero : value = 0
    · simp [ServerAccept.strcmp, hzero]
    · have htail : 0 ∈ text := by
        rcases List.mem_cons.mp h with heq | hmem
        · exact absurd heq.symm hzero
        · exact hmem
      simp [ServerAccept.strcmp, hzero, ih htail]

/-- The server reads the number of streams that the client has. -/
theorem parallel_sent (S : Setup) (start : ℤ) :
    valueOr (sendParameters S.test) "parallel" (toInt ·.valueint) start = S.test.numStreams := by
  have hmember : ("parallel", numberIf S.test.numStreams true) ∈ parameterEntries S.test := by
    simp [parameterEntries]
  exact valueOr_int (getObjectItem_sent hmember) S.streams_isInt (by simp)

/-- A write that leaves its end as it is. -/
theorem follows_write {p : Party} {idle : View → List (Message Channel Datum) → Prop}
    {kind : Kind} {ops : List Op} {v : View} {after : List (Message Channel Datum)}
    (h : Follows S p idle ops v after) :
    Follows S p idle (.write .control kind :: ops) v
      (messageOf S p (.write .control kind) :: after) :=
  ⟨after, v, rfl, trivial, trivial, rfl, h⟩

/-- Setting and sending a state follows the script if the script says that state next. -/
theorem follows_setSend {p : Party} {idle : View → List (Message Channel Datum) → Prop}
    {state : StateByte} {ops : List Op} {v : View} {after : List (Message Channel Datum)}
    (hencodes : Encodes state)
    (hstart : state = .testStart →
      (v.streams.length : ℤ) = v.numStreams ∧ v.numStreams = S.test.numStreams)
    (h : Follows S p idle ops { v with state := state } after) :
    Follows S p idle (.setSend state :: ops) v (messageOf S p (.setSend state) :: after) :=
  ⟨after, _, rfl, ⟨hencodes, hstart⟩, trivial, rfl, h⟩

/-- A read with what it leaves. -/
theorem follows_read {p : Party} {idle : View → List (Message Channel Datum) → Prop}
    {channel : Channel} {kind : Kind} {ops : List Op} {v : View}
    {after : List (Message Channel Datum)} (v' : View)
    (hcount : readCount v kind = (payload S p.other kind).length)
    (hne : payload S p.other kind ≠ [])
    (heffect : effect S (.read channel kind) (payload S p.other kind) v = { view := v' })
    (h : Follows S p idle ops v' after) :
    Follows S p idle (.read channel kind :: ops) v
      (messageOf S p (.read channel kind) :: after) := by
  refine ⟨after, v', rfl, trivial, ⟨?_, ?_⟩, ?_, h⟩
  · simp [messageOf, hcount]
  · simpa [messageOf] using hne
  · have hbytes : bytesOf (messageOf S p (.read channel kind)).content =
        payload S p.other kind := bytesOf_map kind _
    rw [hbytes]
    exact heffect

/-- The two reads of `JSON_read` around the results. -/
theorem follows_results {p : Party} {idle : View → List (Message Channel Datum) → Prop}
    {text : List UInt8} {ops : List Op} {v : View} {after : List (Message Channel Datum)}
    (hlength : payload S p.other .resultsLength = bigEndian 4 text.length)
    (htext : payload S p.other .resultsText = text) (hsize : text ≠ [] ∧ text.length < 2 ^ 32)
    (h : Follows S p idle ops { v with jsonSize := text.length } after) :
    Follows S p idle (.read .control .resultsLength :: .read .control .resultsText :: ops) v
      (messageOf S p (.read .control .resultsLength) ::
        messageOf S p (.read .control .resultsText) :: after) := by
  refine follows_read { v with jsonSize := text.length } ?_ ?_ ?_ ?_
  · rw [hlength]
    rfl
  · rw [hlength]
    exact List.cons_ne_nil _ _
  · rw [hlength]
    dsimp only [effect]
    rw [length_delivered hsize.2]
  · refine follows_read _ ?_ ?_ rfl h
    · rw [htext]
      rfl
    · rw [htext]
      exact hsize.1

/-- The handler of `PARAM_EXCHANGE` on the client. -/
theorem follows_parameters {v : View} (h : v.numStreams = S.test.numStreams) :
    Follows S .initiator (ClientIdle S)
      [.write .control .parametersLength, .write .control .parametersText]
      { v with state := .paramExchange } (fromParameters S) :=
  follows_write (follows_write ⟨h, rfl⟩)

/-- The handler of `CREATE_STREAMS`. -/
theorem follows_connectOps {k n : ℕ} {v : View} (h : v.numStreams = S.test.numStreams)
    (hstate : v.state = .createStreams) :
    Follows S .initiator (ClientIdle S) (connectOps k n) v (fromStreams S k n) := by
  induction n generalizing k v with
  | zero =>
    have hidle : ClientIdle S v (fromStart S) := by
      refine ⟨h, ?_⟩
      rw [hstate]
    exact hidle
  | succ n ih =>
    refine ⟨_, v, rfl, trivial, trivial, rfl, ?_⟩
    refine ⟨_, { v with streams := v.streams ++ [k] }, rfl, trivial, trivial, rfl, ?_⟩
    have hrest : Follows S .initiator (ClientIdle S) (connectOps (k + 1) n)
        { v with streams := v.streams ++ [k] } (fromStreams S (k + 1) n) := ih h hstate
    exact hrest

/-- The handler of `EXCHANGE_RESULTS`. -/
theorem follows_exchange {v : View} (h : v.numStreams = S.test.numStreams) :
    Follows S .initiator (ClientIdle S)
      [.write .control .resultsLength, .write .control .resultsText,
        .read .control .resultsLength, .read .control .resultsText]
      { v with state := .exchangeResults } (fromResults S) := by
  refine follows_write (follows_write ?_)
  have hidle : ClientIdle S { v with state := .exchangeResults, jsonSize := S.serverResults.length }
      (fromDisplay S) := ⟨h, rfl⟩
  exact follows_results rfl rfl S.serverResults_size hidle

/-- What a client between two handlers waits for: a state with its handler, or the end of
the test. -/
theorem clientIdle_next {v : View} {rest : List (Message Channel Datum)}
    (h : ClientIdle S v rest) (hdone : v.state ≠ .iperfDone) :
    (v.state = .testRunning ∧ rest = fromEnd S) ∨
      ∃ state after ops, rest = ofServer S (.setSend state) :: after ∧ Encodes state ∧
        state ≠ .clientTerminate ∧ clientReaction { v with state := state } = (ops, none) ∧
        Follows S .initiator (ClientIdle S) ops { v with state := state } after := by
  obtain ⟨hstreams, hstate⟩ := h
  cases hv : v.state with
  | testRunning =>
    rw [hv] at hstate
    exact Or.inl ⟨rfl, hstate⟩
  | initial =>
    rw [hv] at hstate
    exact Or.inr ⟨.paramExchange, fromParameters S, _, hstate, rfl, by decide, rfl,
      follows_parameters hstreams⟩
  | paramExchange =>
    rw [hv] at hstate
    have hcount : v.numStreams.toNat = S.test.numStreams.toNat := by rw [hstreams]
    refine Or.inr
      ⟨.createStreams, _, connectOps 1 v.numStreams.toNat, hstate, rfl, by decide, rfl, ?_⟩
    rw [hcount]
    exact follows_connectOps hstreams rfl
  | createStreams =>
    rw [hv] at hstate
    exact Or.inr ⟨.testStart, fromRunning S, [], hstate, rfl, by decide, rfl, hstreams, rfl⟩
  | testStart =>
    rw [hv] at hstate
    exact Or.inr ⟨.testRunning, fromEnd S, [], hstate, rfl, by decide, rfl, hstreams, rfl⟩
  | testEnd =>
    rw [hv] at hstate
    exact Or.inr ⟨.exchangeResults, fromResults S, _, hstate, rfl, by decide, rfl,
      follows_exchange hstreams⟩
  | exchangeResults =>
    rw [hv] at hstate
    have hidle : ClientIdle S { v with state := .iperfDone } [] := ⟨hstreams, rfl⟩
    exact Or.inr ⟨.displayResults, fromDone S, _, hstate, rfl, by decide, rfl,
      follows_setSend rfl (by simp) hidle⟩
  | iperfDone => exact absurd hv hdone
  | resultRequest | streamBegin | streamRunning | streamEnd | allStreamsEnd | serverTerminate |
    clientTerminate | displayResults | iperfStart | accessDenied | serverError | other code =>
    rw [hv] at hstate
    exact False.elim hstate

/-- The cookie is not empty. -/
theorem cookie_ne_nil (S : Setup) : S.cookie ≠ [] :=
  List.ne_nil_of_mem S.cookie_terminated

/-- A new client on the server follows the script up to `CREATE_STREAMS`: cookie, parameters
and the two states between them. -/
theorem follows_acceptOps {v : View} (hstreams : v.streams = []) (haccepted : v.streamsAccepted = 0)
    (hsck : v.ctrlSck = true) :
    Follows S .responder (ServerIdle S) acceptOps v
      (ofClient S (.write .control .cookie) :: fromParam S) := by
  refine follows_read { v with cookie := S.cookie } S.cookie_length.symm (cookie_ne_nil S) rfl ?_
  refine follows_setSend rfl (by simp) ?_
  refine follows_read { v with
    cookie := S.cookie
    state := .paramExchange
    jsonSize := (S.print (sendParameters S.test)).length } rfl (List.cons_ne_nil _ _) ?_ ?_
  · dsimp only [effect, payload, Party.other]
    rw [length_delivered S.parameters_size.2]
  refine follows_read { v with
    cookie := S.cookie
    state := .paramExchange
    jsonSize := (S.print (sendParameters S.test)).length
    numStreams := S.test.numStreams } rfl S.parameters_size.1 ?_ ?_
  · dsimp only [effect, payload, Party.other]
    rw [S.parse_print]
    simp only [parallel_sent]
  refine follows_setSend rfl (by simp) ?_
  have hpos := S.streams_pos
  refine ⟨S.test.numStreams.toNat, ⟨?_, ?_, rfl, rfl, hsck, ?_⟩⟩
  · simp [hstreams, haccepted]
  · simp only [hstreams, List.length_nil]
    omega
  · simp [hstreams]

/-- A stream on the server follows the script: the cookie is read from the connection that was
dialled for it, and it is the client's own. -/
theorem follows_acceptStream {v : View} {n : ℕ} {rest : List (Message Channel Datum)}
    (h : Creating S v rest (n + 1)) (hstate : v.state = .createStreams) :
    ∃ after, rest = ofClient S (.dial (v.streams.length + 1)) :: after ∧
      Follows S .responder (ServerIdle S)
        [.read (.stream (v.streams.length + 1)) .cookie] v after := by
  refine ⟨_, h.rest_eq, ?_⟩
  have hcompare :
      ServerAccept.strcmp v.cookie (payload S Party.responder.other .cookie) = some true := by
    rw [h.cookie]
    exact strcmp_self S.cookie_terminated
  refine follows_read { v with
    streams := v.streams ++ [v.streams.length + 1]
    streamsAccepted := v.streamsAccepted + 1 } S.cookie_length.symm (cookie_ne_nil S) ?_ ?_
  · exact if_pos hcompare
  · have haccepted := h.accepted
    have hstreams := h.numStreams
    have hidle : ServerIdle S { v with
        streams := v.streams ++ [v.streams.length + 1]
        streamsAccepted := v.streamsAccepted + 1 }
        ((connectOps (v.streams.length + 1 + 1) n).map (ofClient S) ++ fromStart S) := by
      unfold ServerIdle
      dsimp only
      rw [hstate]
      refine ⟨n, ⟨?_, ?_, h.total, h.cookie, h.ctrlSck, ?_⟩⟩
      · simp only [List.length_append, List.length_singleton]
        omega
      · simp only [List.length_append, List.length_singleton]
        omega
      · simp [fromStreams]
    exact hidle

/-- The start of a test on a server that has its streams. -/
theorem follows_starting {v : View} {rest : List (Message Channel Datum)}
    (h : Creating S v rest 0) :
    Follows S .responder (ServerIdle S) [.setSend .testStart, .setSend .testRunning] v rest := by
  have hstreams := h.numStreams
  have hrest : rest = fromStart S := h.rest_eq
  rw [hrest]
  have hidle : ServerIdle S { v with state := .testRunning } (fromEnd S) := ⟨rfl, h.ctrlSck⟩
  refine follows_setSend rfl (fun _ => ⟨?_, h.total⟩) (follows_setSend rfl (by simp) hidle)
  omega

/-- The handler of `TEST_END`. -/
theorem follows_testEnd {v : View} (hsck : v.ctrlSck = true) :
    Follows S .responder (ServerIdle S)
      [.setSend .exchangeResults, .read .control .resultsLength, .read .control .resultsText,
        .write .control .resultsLength, .write .control .resultsText, .setSend .displayResults]
      { v with state := .testEnd } (fromExchange S) := by
  have hidle : ServerIdle S { v with state := .displayResults, jsonSize := S.clientResults.length }
      (fromDone S) := ⟨rfl, hsck⟩
  refine follows_setSend rfl (by simp) ?_
  refine follows_results rfl rfl S.clientResults_size ?_
  exact follows_write (follows_write (follows_setSend rfl (by simp) hidle))

/-- A step of a handler keeps both ends on the script, whether it writes, reads or only
changes what the end holds. -/
theorem perform_agrees {s s' : Session} {rest : Party → List (Message Channel Datum)}
    (h : Agrees S s rest) {p : Party} {op : Op} {ops : List Op}
    (htodo : (s.ends p).todo = op :: ops) (hperform : perform S p op ops s = some s') :
    ∃ rest', Agrees S s' rest' := by
  cases op with
  | read channel kind =>
    have hfollows := (h.onScript p).follows
    rw [htodo] at hfollows
    obtain ⟨-, -, -, -, ⟨hcount, hne⟩, -, -⟩ := hfollows
    have hsome : s.net p.other channel ≠ [] := by
      intro hempty
      have hpos := List.length_pos_of_ne_nil hne
      have hshort : (s.net p.other channel).length < readCount (s.ends p).view kind := by
        rw [hempty, hcount, List.length_nil]
        exact hpos
      simp only [perform] at hperform
      rw [if_pos hshort] at hperform
      cases hperform
    obtain ⟨after, s'', -, hdone, hagrees⟩ := perform_read h htodo hsome
    rw [hdone] at hperform
    cases hperform
    exact ⟨_, hagrees⟩
  | setSend | dial | write | refuse =>
    obtain ⟨after, s'', -, hdone, hagrees⟩ := perform_write h htodo rfl
    rw [hdone] at hperform
    cases hperform
    exact ⟨_, hagrees⟩

/-- So does a step of an end whose loop does. -/
theorem betweenOps_agrees {s s' : Session} {rest : Party → List (Message Channel Datum)}
    (h : Agrees S s rest) {p : Party} {loop : Session → Option Session}
    (hloop : (s.ends p).todo = [] → loop s = some s' → ∃ rest', Agrees S s' rest')
    (hstep : betweenOps S p loop s = some s') : ∃ rest', Agrees S s' rest' := by
  have hfailing := (h.onScript p).failing
  simp only [betweenOps] at hstep
  cases houtcome : (s.ends p).outcome with
  | left =>
    rw [houtcome] at hstep
    cases hstep
  | failed f =>
    rw [houtcome] at hstep
    cases hstep
  | running =>
    rw [houtcome, hfailing] at hstep
    cases htodo : (s.ends p).todo with
    | cons op ops =>
      rw [htodo] at hstep
      exact perform_agrees h htodo hstep
    | nil =>
      rw [htodo] at hstep
      exact hloop htodo hstep

/-- A client that is to send `TEST_END` is on the script. -/
theorem ending_agrees {s : Session} {rest : Party → List (Message Channel Datum)}
    (h : Agrees S s rest) (htodo : (s.ends .initiator).todo = [])
    (hstate : (s.ends .initiator).view.state = .testRunning) :
    Agrees S (s.setEnd .initiator { s.ends .initiator with
      turn := .top
      todo := [.setSend .testEnd] }) rest := by
  have hon := h.onScript .initiator
  obtain ⟨hstreams, hrest⟩ : ClientIdle S (s.ends .initiator).view (rest .initiator) :=
    hon.idle htodo
  rw [hstate] at hrest
  have hend : rest .initiator = fromEnd S := hrest
  have hafter : ClientIdle S { (s.ends .initiator).view with state := .testEnd }
      (fromExchange S) := ⟨hstreams, rfl⟩
  refine h.setEnd ⟨?_, hon.recorded, hon.failing, ?_, by simp, by simp⟩
  · rw [hend]
    exact follows_setSend rfl (by simp) hafter
  · exact Or.inl (hon.running (by simp [hend, fromEnd]))

/-- The loop of the client keeps both ends on the script. A turn either moves nothing, or
takes a state that has arrived, or ends the test. -/
theorem clientLoop_agrees {s s' : Session} {rest : Party → List (Message Channel Datum)}
    (h : Agrees S s rest) {input : Bool} (htodo : (s.ends .initiator).todo = [])
    (hstep : clientLoop input s = some s') : ∃ rest', Agrees S s' rest' := by
  have hon := h.onScript .initiator
  have hidle : ClientIdle S (s.ends .initiator).view (rest .initiator) := hon.idle htodo
  simp only [clientLoop] at hstep
  by_cases hturn : (s.ends .initiator).turn = .work
  · rw [if_pos hturn] at hstep
    by_cases hover : (s.ends .initiator).view.state = .testRunning ∧ input = true
    · rw [if_pos hover] at hstep
      cases hstep
      exact ⟨rest, ending_agrees h htodo hover.1⟩
    · rw [if_neg hover] at hstep
      cases hstep
      exact ⟨rest, h.turned .initiator .top (by simp) (by simp)⟩
  · rw [if_neg hturn] at hstep
    by_cases hdone : (s.ends .initiator).view.state = .iperfDone
    · rw [if_pos hdone] at hstep
      cases hstep
      obtain ⟨-, hstate⟩ := hidle
      rw [hdone] at hstate
      exact ⟨rest, h.setEnd ⟨hon.follows, hon.recorded, hon.failing, Or.inr ⟨rfl, hstate, htodo⟩,
        hon.handling, hon.streaming⟩⟩
    · rw [if_neg hdone] at hstep
      cases input with
      | false =>
        rw [if_neg Bool.false_ne_true] at hstep
        cases hstep
        exact ⟨rest, h.turned .initiator .work (by simp) (by simp)⟩
      | true =>
        rw [if_pos rfl] at hstep
        have hsome : s.net .responder .control ≠ [] := by
          intro hempty
          unfold receive at hstep
          simp only [Party.other, hempty] at hstep
          cases hstep
        rcases clientIdle_next hidle hdone with ⟨-, hrest⟩ | ⟨state, after, ops, hrest, hencodes,
          hterminate, hreaction, hfollows⟩
        · have hown : rest .initiator = [] ++ fromEnd S := hrest
          have hsilent : s.net Party.initiator.other .control = [] :=
            h.coherent.silent hown (by simp) (by simp [fromEnd, ofClient, messageOf])
          exact absurd hsilent hsome
        · have hnext : ∃ s'', receive .initiator clientReaction .work s = some s'' ∧
              Agrees S s'' (Function.update rest .initiator after) :=
            receive_agrees h hrest hencodes hterminate hreaction hfollows (by simp) (by simp) hsome
          obtain ⟨s'', hreceive, hagrees⟩ := hnext
          rw [hreceive] at hstep
          cases hstep
          exact ⟨_, hagrees⟩

/-- The messages of the streams leave the control connection alone. -/
theorem connectOps_channel {k n : ℕ} {m : Message Channel Datum}
    (hm : m ∈ (connectOps k n).map (ofClient S)) : m.channel ≠ .control := by
  induction n generalizing k with
  | zero => cases hm
  | succ n ih =>
    rcases List.mem_cons.mp hm with rfl | hm
    · simp [ofClient, messageOf]
    rcases List.mem_cons.mp hm with rfl | hm
    · simp [ofClient, messageOf]
    · exact ih hm

/-- A server that creates streams finds no message. -/
theorem control_silent {s : Session} {rest : Party → List (Message Channel Datum)}
    (h : Agrees S s rest) {n : ℕ} (hcreating : Creating S (s.ends .responder).view
      (rest .responder) n) : s.net .initiator .control = [] := by
  have hsilent : s.net Party.responder.other .control = [] :=
    h.coherent.silent hcreating.rest_eq (fun _ => connectOps_channel)
      (by simp [fromStart, ofServer, messageOf])
  exact hsilent

/-- A server that has its streams finds no connection. -/
theorem listener_silent {s : Session} {rest : Party → List (Message Channel Datum)}
    (h : Agrees S s rest) (hidle : ServerIdle S (s.ends .responder).view (rest .responder))
    (hstate : (s.ends .responder).view.state = .testRunning ∨
      (s.ends .responder).view.state = .displayResults) : s.net .initiator .listener = [] := by
  have hsilent : s.net Party.responder.other .listener = [] := by
    rcases hstate with hstate | hstate
    · unfold ServerIdle at hidle
      rw [hstate] at hidle
      have hrest : rest .responder = [ofClient S (.setSend .testEnd)] ++ fromExchange S := hidle.1
      exact h.coherent.silent hrest (by simp [ofClient, messageOf])
        (by simp [fromExchange, ofServer, messageOf])
    · unfold ServerIdle at hidle
      rw [hstate] at hidle
      have hrest : rest .responder = [ofClient S (.setSend .iperfDone)] ++ [] := hidle.1
      exact h.coherent.silent hrest (by simp [ofClient, messageOf]) (by simp)
  exact hsilent

/-- The stream part of a turn keeps both ends on the script; once all streams are there it
starts the test. -/
theorem serverStreams_agrees {s s' : Session} {rest : Party → List (Message Channel Datum)}
    (h : Agrees S s rest) {listener : Bool}
    (hidle : ServerIdle S (s.ends .responder).view (rest .responder))
    (hready : listener = true → s.net .initiator .listener ≠ [])
    (hstep : serverStreams listener s = some s') : ∃ rest', Agrees S s' rest' := by
  have hon := h.onScript .responder
  simp only [serverStreams] at hstep
  by_cases hcreate : (s.ends .responder).view.state = .createStreams ∧ listener = true
  · rw [if_pos hcreate] at hstep
    obtain ⟨hstate, hlistener⟩ := hcreate
    unfold ServerIdle at hidle
    rw [hstate] at hidle
    obtain ⟨n, hcreating⟩ := hidle
    cases n with
    | zero =>
      have hown : rest .responder = [] ++ fromStart S := hcreating.rest_eq
      have hsilent : s.net Party.responder.other .listener = [] :=
        h.coherent.silent hown (by simp) (by simp [fromStart, ofServer, messageOf])
      exact absurd hsilent (hready hlistener)
    | succ n =>
      obtain ⟨after, hrest, hfollows⟩ := follows_acceptStream hcreating hstate
      have hview : { (s.ends .responder).view with ctrlSck := true } =
        (s.ends .responder).view := by
        have hsck := hcreating.ctrlSck
        rw [← hsck]
      have hnext : ∃ s'', accept (fun k => [.read (.stream k) .cookie]) .checking s = some s'' ∧
          Agrees S s'' (Function.update rest .responder after) := by
        refine accept_agrees h hrest ?_ (by simp) (by simp) (hready hlistener)
        rw [hview]
        exact hfollows
      obtain ⟨s'', haccept, hagrees⟩ := hnext
      rw [haccept] at hstep
      cases hstep
      exact ⟨_, hagrees⟩
  · rw [if_neg hcreate] at hstep
    cases hstep
    exact ⟨rest, h.turned .responder .checking (by simp) (by simp)⟩

/-- The states of a server between two handlers. -/
theorem serverIdle_states {v : View} {rest : List (Message Channel Datum)}
    (h : ServerIdle S v rest) :
    v.state = .iperfStart ∨ v.state = .createStreams ∨ v.state = .testRunning ∨
      v.state = .displayResults ∨ v.state = .iperfDone := by
  unfold ServerIdle at h
  cases hstate : v.state with
  | iperfStart | createStreams | testRunning | displayResults | iperfDone => simp
  | _ =>
    rw [hstate] at h
    exact False.elim h

/-- A connection that comes while no streams are created is the client's first one, which
carries the control messages. -/
theorem serverAccept_agrees {s s' : Session} {rest : Party → List (Message Channel Datum)}
    (h : Agrees S s rest) (hidle : ServerIdle S (s.ends .responder).view (rest .responder))
    {control : Bool} (hdone : (s.ends .responder).view.state ≠ .iperfDone)
    (hcreate : (s.ends .responder).view.state ≠ .createStreams)
    (hlistener : s.net .initiator .listener ≠ [])
    (hcontrol : control = true → (s.ends .responder).view.ctrlSck = true)
    (hstep : accept (fun k => if (s.ends .responder).view.ctrlSck then [.refuse k] else acceptOps)
      (.handling control) s = some s') : ∃ rest', Agrees S s' rest' := by
  rcases serverIdle_states hidle with hstate | hstate | hstate | hstate | hstate
  · unfold ServerIdle at hidle
    rw [hstate] at hidle
    obtain ⟨hrest, hsck, hstreams, haccepted⟩ := hidle
    have hfree : control ≠ true := by
      intro hflag
      rw [hcontrol hflag] at hsck
      cases hsck
    have hnext : ∃ s'', accept (fun k => if (s.ends .responder).view.ctrlSck then [.refuse k]
          else acceptOps) (.handling control) s = some s'' ∧
        Agrees S s'' (Function.update rest .responder
          (ofClient S (.write .control .cookie) :: fromParam S)) := by
      refine accept_agrees h hrest ?_ ?_ (by simp) hlistener
      · rw [hsck]
        exact follows_acceptOps hstreams haccepted rfl
      · simpa using hfree
    obtain ⟨s'', haccept, hagrees⟩ := hnext
    rw [haccept] at hstep
    cases hstep
    exact ⟨_, hagrees⟩
  · exact absurd hstate hcreate
  · exact absurd (listener_silent h hidle (Or.inl hstate)) hlistener
  · exact absurd (listener_silent h hidle (Or.inr hstate)) hlistener
  · exact absurd hstate hdone

/-- What a server that has its streams waits for, with its handler. -/
theorem serverIdle_message {v : View} {rest : List (Message Channel Datum)}
    (h : ServerIdle S v rest) (hstate : v.state = .testRunning ∨ v.state = .displayResults) :
    ∃ state after ops, rest = ofClient S (.setSend state) :: after ∧ Encodes state ∧
      state ≠ .clientTerminate ∧ serverReaction { v with state := state } = (ops, none) ∧
      Follows S .responder (ServerIdle S) ops { v with state := state } after := by
  unfold ServerIdle at h
  rcases hstate with hstate | hstate
  · rw [hstate] at h
    exact ⟨.testEnd, fromExchange S, _, h.1, rfl, by decide, rfl, follows_testEnd h.2⟩
  · rw [hstate] at h
    have hafter : ServerIdle S { v with state := .iperfDone } [] := rfl
    exact ⟨.iperfDone, [], [], h.1, rfl, by decide, rfl, hafter⟩

/-- A message that comes between two turns is `TEST_END` or `IPERF_DONE`; the script has no
other state of the client's there. -/
theorem serverMessage_agrees {s s' : Session} {rest : Party → List (Message Channel Datum)}
    (h : Agrees S s rest) (hidle : ServerIdle S (s.ends .responder).view (rest .responder))
    {listener : Bool} (hdone : (s.ends .responder).view.state ≠ .iperfDone)
    (hlistener : listener = true → (s.ends .responder).view.state = .createStreams)
    (hsck : (s.ends .responder).view.ctrlSck = true)
    (hcontrol : s.net .initiator .control ≠ [])
    (hstep : receive .responder serverReaction (.streaming listener) s = some s') :
    ∃ rest', Agrees S s' rest' := by
  have hstate : (s.ends .responder).view.state = .testRunning ∨
      (s.ends .responder).view.state = .displayResults := by
    rcases serverIdle_states hidle with hstate | hstate | hstate | hstate | hstate
    · unfold ServerIdle at hidle
      rw [hstate] at hidle
      rw [hidle.2.1] at hsck
      cases hsck
    · unfold ServerIdle at hidle
      rw [hstate] at hidle
      obtain ⟨n, hcreating⟩ := hidle
      exact absurd (control_silent h hcreating) hcontrol
    · exact Or.inl hstate
    · exact Or.inr hstate
    · exact absurd hstate hdone
  obtain ⟨state, after, ops, hrest, hencodes, hterminate, hreaction, hfollows⟩ :=
    serverIdle_message hidle hstate
  have hnext : ∃ s'', receive .responder serverReaction (.streaming listener) s = some s'' ∧
      Agrees S s'' (Function.update rest .responder after) := by
    refine receive_agrees h hrest hencodes hterminate hreaction hfollows (by simp) ?_ hcontrol
    intro hturn
    have hflag : listener = true := by simpa using hturn
    rw [hlistener hflag] at hstate
    simp at hstate
  obtain ⟨s'', hreceive, hagrees⟩ := hnext
  rw [hreceive] at hstep
  cases hstep
  exact ⟨_, hagrees⟩

/-- A server that is to send `TEST_START` is on the script. -/
theorem starting_agrees {s : Session} {rest : Party → List (Message Channel Datum)}
    (h : Agrees S s rest)
    (hcreating : Creating S (s.ends .responder).view (rest .responder) 0) :
    Agrees S (s.setEnd .responder { s.ends .responder with
      turn := .top
      todo := [.setSend .testStart, .setSend .testRunning] }) rest := by
  have hon := h.onScript .responder
  have hrest : rest .responder = fromStart S := hcreating.rest_eq
  exact h.setEnd ⟨follows_starting hcreating, hon.recorded, hon.failing,
    Or.inl (hon.running (by simp [hrest, fromStart])), by simp, by simp⟩

/-- The loop of the server keeps both ends on the script, by cases on the part of the turn
that it is in. -/
theorem serverLoop_agrees {s s' : Session} {rest : Party → List (Message Channel Datum)}
    (h : Agrees S s rest) {listener control : Bool} (htodo : (s.ends .responder).todo = [])
    (hstep : serverLoop listener control s = some s') : ∃ rest', Agrees S s' rest' := by
  have hon := h.onScript .responder
  have hidle : ServerIdle S (s.ends .responder).view (rest .responder) := hon.idle htodo
  simp only [serverLoop] at hstep
  split at hstep
  · next flag hturn =>
    have hflag : flag ≠ true := fun htrue => hon.handling (by rw [hturn, htrue])
    rw [if_neg hflag] at hstep
    exact serverStreams_agrees h hidle (by simp) hstep
  · next flag hturn =>
    have hflag : flag ≠ true := fun htrue => hon.streaming (by rw [hturn, htrue])
    exact serverStreams_agrees h hidle (fun htrue => absurd htrue hflag) hstep
  · by_cases hall : (s.ends .responder).view.state = .createStreams ∧
        (s.ends .responder).view.streamsAccepted = (s.ends .responder).view.numStreams
    · rw [if_pos hall] at hstep
      cases hstep
      unfold ServerIdle at hidle
      rw [hall.1] at hidle
      obtain ⟨n, hcreating⟩ := hidle
      have haccepted := hcreating.accepted
      have hstreams := hcreating.numStreams
      have hzero : n = 0 := by omega
      rw [hzero] at hcreating
      exact ⟨rest, starting_agrees h hcreating⟩
    · rw [if_neg hall] at hstep
      cases hstep
      exact ⟨rest, h.turned .responder .top (by simp) (by simp)⟩
  · by_cases hdone : (s.ends .responder).view.state = .iperfDone
    · rw [if_pos hdone] at hstep
      cases hstep
      unfold ServerIdle at hidle
      rw [hdone] at hidle
      exact ⟨rest, h.setEnd ⟨hon.follows, hon.recorded, hon.failing, Or.inr ⟨rfl, hidle, htodo⟩,
        hon.handling, hon.streaming⟩⟩
    · rw [if_neg hdone] at hstep
      split at hstep
      · cases hstep
      · next hready =>
        simp only [Bool.or_eq_true, Bool.and_eq_true, Bool.not_eq_true', List.isEmpty_iff,
          not_or, not_and] at hready
        obtain ⟨hlistener, hcontrol⟩ := hready
        by_cases hnew : listener = true ∧ (s.ends .responder).view.state ≠ .createStreams
        · rw [if_pos hnew] at hstep
          refine serverAccept_agrees h hidle hdone hnew.2 (hlistener hnew.1) ?_ hstep
          intro hflag
          simpa using (hcontrol hflag).1
        · rw [if_neg hnew] at hstep
          by_cases hflag : control = true
          · rw [if_pos hflag] at hstep
            refine serverMessage_agrees h hidle hdone ?_ ?_ (hcontrol hflag).2 hstep
            · intro htrue
              by_contra hcreate
              exact hnew ⟨htrue, hcreate⟩
            · simpa using (hcontrol hflag).1
          · rw [if_neg hflag] at hstep
            exact serverStreams_agrees h hidle hlistener hstep

/-- A step keeps both ends on the script. -/
theorem step_agrees {s s' : Session} {rest : Party → List (Message Channel Datum)}
    (h : Agrees S s rest) (hstep : Step S s s') : ∃ rest', Agrees S s' rest' := by
  rcases hstep with ⟨input, hclient⟩ | ⟨listener, control, hserver⟩
  · exact betweenOps_agrees h (clientLoop_agrees h) hclient
  · exact betweenOps_agrees h (serverLoop_agrees h) hserver

/-- Both ends start on the script. -/
theorem start_agrees (S : Setup) : Agrees S (start S) (fun _ => script S) := by
  refine ⟨coherent_start (script S), fun p => ?_⟩
  have hrecorded : ∀ e : End, e.history = [] → e.visited = [] → Recorded S p e (script S) :=
    fun e hhistory hvisited => ⟨[], rfl, hhistory, hvisited⟩
  cases p with
  | initiator =>
    have hidle : ClientIdle S (startClient S).view (fromParam S) := ⟨rfl, rfl⟩
    have hfollows : Follows S .initiator (ClientIdle S) (startClient S).todo (startClient S).view
        (script S) :=
      ⟨_, _, rfl, trivial, trivial, rfl, follows_write hidle⟩
    exact ⟨hfollows, hrecorded _ rfl rfl, rfl, Or.inl rfl, by simp [start, startClient],
      by simp [start, startClient]⟩
  | responder =>
    have hidle : ServerIdle S startServer.view (script S) := ⟨rfl, rfl, rfl, rfl⟩
    exact ⟨hidle, hrecorded _ rfl rfl, rfl, Or.inl rfl, by simp [start, startServer],
      by simp [start, startServer]⟩

/-- A run keeps both ends on the script. -/
theorem run_agrees {s s' : Session} {rest : Party → List (Message Channel Datum)}
    (h : Agrees S s rest) (hrun : Run S s s') : ∃ rest', Agrees S s' rest' := by
  induction hrun with
  | refl => exact ⟨rest, h⟩
  | tail _ hstep ih =>
    obtain ⟨rest', hagrees⟩ := ih
    exact step_agrees hagrees hstep

end IperfRuntime.ControlAgreement
