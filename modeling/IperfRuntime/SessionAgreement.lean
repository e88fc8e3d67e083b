import IperfRuntime.ControlCompletion

/-!
# What a session comes to

The histories of both ends are read off the script that they follow: what was read was
written as what it is read for, each text crosses once, and both ends go through the same
states. UDP tests, and sessions that an end leaves before the script is over, are outside
the agreement.
-/

namespace IperfRuntime.SessionAgreement

open ByteOrder TestState TestParameters ParameterExchange ScriptedChannels ControlSession
  ControlAgreement ControlCompletion

variable {S : Setup}

/-- The states of a whole session. -/
def phases : List StateByte :=
  [.paramExchange, .createStreams, .testStart, .testRunning, .testEnd, .exchangeResults,
    .displayResults, .iperfDone]

/-- What the first of the data was written as. -/
def dataKind (data : List Datum) : Kind := data.head?.elim .connection Datum.kind

/-- How often an end has written something of a kind. -/
def written (kind : Kind) (e : End) : ℕ :=
  e.history.countP fun
    | .wrote _ data => decide (dataKind data = kind)
    | .read _ _ => false

/-- How often an end has read something for a kind. -/
def taken (kind : Kind) (e : End) : ℕ :=
  e.history.countP fun
    | .wrote _ _ => false
    | .read expected _ => decide (expected = kind)

/-- How many texts of a kind an end has to write. -/
def textsOf : Party → Kind → ℕ
  | .initiator, .parametersText => 1
  | _, .resultsText => 1
  | _, _ => 0

/-- What holds of a session of the two ends. -/
structure Agreed (S : Setup) (s : Session) : Prop where
  /-- What is read was written as what it is read for. -/
  expected : ∀ p expected data, Event.read expected data ∈ (s.ends p).history →
    data ≠ [] ∧ ∀ d ∈ data, d.kind = expected
  /-- No end fails, with `IEMESSAGE` or otherwise. -/
  sound : ∀ p, (s.ends p).failing = none ∧ ∀ f, (s.ends p).outcome ≠ .failed f
  /-- A server in front of `TEST_START` has all of its streams. -/
  allStreams : ∀ ops, (s.ends .responder).todo = .setSend .testStart :: ops →
    ((s.ends .responder).view.streams.length : ℤ) = (s.ends .responder).view.numStreams ∧
      (s.ends .responder).view.numStreams = S.test.numStreams
  /-- Each text crosses once at most. -/
  exchanged : ∀ p, ∀ kind ∈ [Kind.parametersText, Kind.resultsText],
    written kind (s.ends p) ≤ textsOf p kind ∧ taken kind (s.ends p) ≤ textsOf p.other kind
  ordered : ∀ p, (s.ends p).visited <+: phases
  /-- An end that has left went through all of it. -/
  finished : ∀ p, (s.ends p).outcome = .left → (s.ends p).visited = phases ∧
    ∀ kind ∈ [Kind.parametersText, Kind.resultsText],
      written kind (s.ends p) = textsOf p kind ∧ taken kind (s.ends p) = textsOf p.other kind
  /-- Nothing is left over when both have left. -/
  drained : (∀ p, (s.ends p).outcome = .left) → ∀ p c, s.net p c = []
  /-- Both can come to leave their loops. -/
  completes : ∃ s', Run S s s' ∧ ∀ p, (s'.ends p).outcome = .left

/-- A message with data that is all of one kind. -/
def Uniform (m : Message Channel Datum) : Prop :=
  m.content ≠ [] ∧ ∀ d ∈ m.content, d.kind = dataKind m.content

/-- A message with one datum is of one kind. -/
theorem uniform_singleton (p : Party) (c : Channel) (d : Datum) : Uniform ⟨p, c, [d]⟩ := by
  refine ⟨by simp, fun d' hd => ?_⟩
  rw [List.mem_singleton.mp hd]
  rfl

/-- So is a message of bytes of one kind. -/
theorem uniform_bytes (p : Party) (c : Channel) (kind : Kind) {bytes : List UInt8}
    (h : bytes ≠ []) : Uniform ⟨p, c, bytes.map (.byte kind)⟩ := by
  obtain ⟨value, more, rfl⟩ := List.exists_cons_of_ne_nil h
  refine ⟨by simp, fun d hd => ?_⟩
  obtain ⟨value', -, rfl⟩ := List.mem_map.mp hd
  rfl

/-- So are the messages of the streams. -/
theorem uniform_connectOps {k n : ℕ} {m : Message Channel Datum}
    (hm : m ∈ (connectOps k n).map (ofClient S)) : Uniform m := by
  induction n generalizing k with
  | zero => cases hm
  | succ n ih =>
    rcases List.mem_cons.mp hm with rfl | hm
    · exact uniform_singleton _ _ _
    rcases List.mem_cons.mp hm with rfl | hm
    · exact uniform_bytes _ _ _ (cookie_ne_nil S)
    · exact ih hm

/-- Every message of the script is. -/
theorem uniform_script {m : Message Channel Datum} (hm : m ∈ script S) : Uniform m := by
  simp only [script, fromParam, fromParameters, fromCreate, fromStreams, fromStart, fromRunning,
    fromEnd, fromExchange, fromResults, fromDisplay, fromDone, List.mem_cons, List.mem_append,
    List.not_mem_nil, or_false] at hm
  rcases hm with rfl | rfl | rfl | rfl | rfl | rfl | hm | rfl | rfl | rfl | rfl | rfl | rfl | rfl |
    rfl | rfl | rfl
  · exact uniform_singleton _ _ _
  · exact uniform_bytes _ _ _ (cookie_ne_nil S)
  · exact uniform_singleton _ _ _
  · exact uniform_bytes _ _ _ (List.cons_ne_nil _ _)
  · exact uniform_bytes _ _ _ S.parameters_size.1
  · exact uniform_singleton _ _ _
  · exact uniform_connectOps hm
  · exact uniform_singleton _ _ _
  · exact uniform_singleton _ _ _
  · exact uniform_singleton _ _ _
  · exact uniform_singleton _ _ _
  · exact uniform_bytes _ _ _ (List.cons_ne_nil _ _)
  · exact uniform_bytes _ _ _ S.clientResults_size.1
  · exact uniform_bytes _ _ _ (List.cons_ne_nil _ _)
  · exact uniform_bytes _ _ _ S.serverResults_size.1
  · exact uniform_singleton _ _ _
  · exact uniform_singleton _ _ _

/-- The states of the script are those of a session. -/
theorem statesOf_script (S : Setup) : (script S).flatMap statesOf = phases := by
  have hwrite : ∀ p channel kind, statesOf (messageOf S p (.write channel kind)) = [] :=
    fun p channel kind => @statesOf_messageOf S p _ (startClient S).view trivial
  have hstreams : ∀ k n, ((connectOps k n).map (ofClient S)).flatMap statesOf = [] := by
    intro k n
    induction n generalizing k with
    | zero => rfl
    | succ n ih =>
      have hdial : statesOf (ofClient S (.dial k)) = [] := rfl
      have hcookie : statesOf (ofClient S (.write (.stream k) .cookie)) = [] := hwrite _ _ _
      simp only [connectOps, List.map_cons, List.flatMap_cons, hdial, hcookie, ih, List.append_nil]
  have hdial : statesOf (ofClient S (.dial 0)) = [] := rfl
  have hclient : ∀ channel kind, statesOf (ofClient S (.write channel kind)) = [] := hwrite _
  have hserver : ∀ channel kind, statesOf (ofServer S (.write channel kind)) = [] := hwrite _
  simp only [script, fromParam, fromParameters, fromCreate, fromStreams, fromStart, fromRunning,
    fromEnd, fromExchange, fromResults, fromDisplay, fromDone, List.flatMap_cons,
    List.flatMap_append, List.flatMap_nil, hdial, hclient, hserver, hstreams, List.nil_append]
  rfl

/-- Who sends a message, and of which kind it is. -/
def label (m : Message Channel Datum) : Party × Kind := (m.sender, dataKind m.content)

/-- What an end has written of a kind is what its script says of it. -/
theorem written_map (p : Party) (kind : Kind) (messages : List (Message Channel Datum)) {e : End}
    (h : e.history = messages.map (eventOf p)) :
    written kind e = (messages.map label).count (p, kind) := by
  unfold written List.count
  rw [h, List.countP_map, List.countP_map]
  refine List.countP_congr fun m _ => ?_
  by_cases hm : m.sender = p
  · simp [eventOf, label, hm]
  · simp [eventOf, label, hm]

/-- What it has taken is what the script of the other one says. -/
theorem taken_map (p : Party) (kind : Kind) (messages : List (Message Channel Datum)) {e : End}
    (h : e.history = messages.map (eventOf p)) :
    taken kind e = (messages.map label).count (p.other, kind) := by
  unfold taken List.count
  rw [h, List.countP_map, List.countP_map]
  refine List.countP_congr fun m _ => ?_
  by_cases hm : m.sender = p
  · have hother : m.sender ≠ p.other := fun heq => Party.other_ne p (heq.symm.trans hm)
    simp [eventOf, label, hm, (Party.other_ne p).symm]
  · have hother : m.sender = p.other := by
      cases hsender : m.sender <;> cases p <;> simp_all [Party.other]
    simp [eventOf, label, hother, dataKind]

/-- The kind of a message is that of its bytes. -/
theorem dataKind_bytes (kind : Kind) {bytes : List UInt8} (h : bytes ≠ []) :
    dataKind (bytes.map (.byte kind)) = kind := by
  obtain ⟨value, more, rfl⟩ := List.exists_cons_of_ne_nil h
  rfl

/-- The streams bring no text. -/
theorem count_connectOps (p : Party) {kind : Kind} (h : kind ≠ .connection ∧ kind ≠ .cookie)
    (k n : ℕ) : (((connectOps k n).map (ofClient S)).map label).count (p, kind) = 0 := by
  induction n generalizing k with
  | zero => rfl
  | succ n ih =>
    have hdial : label (ofClient S (.dial k)) = (.initiator, .connection) := rfl
    have hcookie : label (ofClient S (.write (.stream k) .cookie)) = (.initiator, .cookie) := by
      have hkind : dataKind (S.cookie.map (.byte .cookie)) = .cookie :=
        dataKind_bytes .cookie (cookie_ne_nil S)
      exact Prod.ext rfl hkind
    simp only [connectOps, List.map_cons, hdial, hcookie]
    rw [List.count_cons_of_ne (by simp [h.1.symm]), List.count_cons_of_ne (by simp [h.2.symm])]
    exact ih (k + 1)

/-- The script brings each text once, in the direction in which it is to go, and the other one
never. -/
theorem count_script (S : Setup) (p : Party) {kind : Kind}
    (h : kind ∈ [Kind.parametersText, Kind.resultsText]) :
    ((script S).map label).count (p, kind) = textsOf p kind := by
  have hcookie : label (ofClient S (.write .control .cookie)) = (.initiator, .cookie) :=
    Prod.ext rfl (dataKind_bytes .cookie (cookie_ne_nil S))
  have hparameters : label (ofClient S (.write .control .parametersText)) =
      (.initiator, .parametersText) := Prod.ext rfl (dataKind_bytes _ S.parameters_size.1)
  have hclient : label (ofClient S (.write .control .resultsText)) =
      (.initiator, .resultsText) := Prod.ext rfl (dataKind_bytes _ S.clientResults_size.1)
  have hserver : label (ofServer S (.write .control .resultsText)) =
      (.responder, .resultsText) := Prod.ext rfl (dataKind_bytes _ S.serverResults_size.1)
  have hstate : ∀ q state, label (messageOf S q (.setSend state)) = (q, .state) := fun _ _ => rfl
  have hstreams : kind ≠ .connection ∧ kind ≠ .cookie := by
    simp only [List.mem_cons, List.not_mem_nil, or_false] at h
    rcases h with rfl | rfl <;> simp
  have hdial : label (ofClient S (.dial 0)) = (.initiator, .connection) := rfl
  have hlength : label (ofClient S (.write .control .parametersLength)) =
      (.initiator, .parametersLength) := rfl
  have hclientLength : label (ofClient S (.write .control .resultsLength)) =
      (.initiator, .resultsLength) := rfl
  have hserverLength : label (ofServer S (.write .control .resultsLength)) =
      (.responder, .resultsLength) := rfl
  have hfromClient : ∀ state, label (ofClient S (.setSend state)) = (.initiator, .state) :=
    hstate _
  have hfromServer : ∀ state, label (ofServer S (.setSend state)) = (.responder, .state) :=
    hstate _
  simp only [script, fromParam, fromParameters, fromCreate, fromStreams, fromStart, fromRunning,
    fromEnd, fromExchange, fromResults, fromDisplay, fromDone, List.map_cons, List.map_append,
    List.map_nil, List.count_cons, List.count_append, List.count_nil, hcookie, hparameters, hclient,
    hserver, hdial, hlength, hclientLength, hserverLength, hfromClient, hfromServer,
    count_connectOps p hstreams]
  simp only [List.mem_cons, List.not_mem_nil, or_false] at h
  rcases h with rfl | rfl <;> cases p <;> rfl

/-- A client and a server agree in every session that they can come to: both follow one
script, so each has read what the other wrote as what it was written as. -/
theorem session_agreed (S : Setup) {s : Session} (h : Run S (start S) s) : Agreed S s := by
  obtain ⟨rest, hagrees⟩ := run_agrees (start_agrees S) h
  have hbefore : ∀ p, ∃ before, script S = before ++ rest p ∧
      (s.ends p).history = before.map (eventOf p) ∧
      (s.ends p).visited = before.flatMap statesOf := fun p => (hagrees.onScript p).recorded
  have hrest : ∀ p, (s.ends p).outcome = .left → rest p = [] := by
    intro p hleft
    rcases (hagrees.onScript p).outcome with hrunning | ⟨-, hempty, -⟩
    · rw [hleft] at hrunning
      cases hrunning
    · exact hempty
  constructor
  case expected =>
    intro p expected data hread
    obtain ⟨before, hscript, hhistory, -⟩ := hbefore p
    rw [hhistory] at hread
    obtain ⟨m, hm, hevent⟩ := List.mem_map.mp hread
    have huniform : Uniform m := uniform_script (by rw [hscript]; exact List.mem_append_left _ hm)
    unfold eventOf at hevent
    split at hevent
    · cases hevent
    · cases hevent
      exact huniform
  case sound =>
    intro p
    refine ⟨(hagrees.onScript p).failing, fun f hfailed => ?_⟩
    rcases (hagrees.onScript p).outcome with hrunning | ⟨hleft, -, -⟩
    · rw [hfailed] at hrunning
      cases hrunning
    · rw [hfailed] at hleft
      cases hleft
  case allStreams =>
    intro ops htodo
    have hfollows := (hagrees.onScript .responder).follows
    rw [htodo] at hfollows
    obtain ⟨-, -, -, ⟨-, hstreams⟩, -⟩ := hfollows
    exact hstreams rfl
  case exchanged =>
    intro p kind hkind
    obtain ⟨before, hscript, hhistory, -⟩ := hbefore p
    have hcount : ∀ q, (before.map label).count (q, kind) ≤ textsOf q kind := by
      intro q
      rw [← count_script S q hkind, hscript, List.map_append, List.count_append]
      exact Nat.le_add_right _ _
    rw [written_map p kind before hhistory, taken_map p kind before hhistory]
    exact ⟨hcount p, hcount p.other⟩
  case ordered =>
    intro p
    obtain ⟨before, hscript, -, hvisited⟩ := hbefore p
    refine ⟨(rest p).flatMap statesOf, ?_⟩
    rw [hvisited, ← List.flatMap_append, ← hscript, statesOf_script]
  case finished =>
    intro p hleft
    obtain ⟨before, hscript, hhistory, hvisited⟩ := hbefore p
    rw [hrest p hleft, List.append_nil] at hscript
    refine ⟨by rw [hvisited, ← hscript, statesOf_script], fun kind hkind => ?_⟩
    rw [written_map p kind before hhistory, taken_map p kind before hhistory, ← hscript,
      count_script S p hkind, count_script S p.other hkind]
    exact ⟨rfl, rfl⟩
  case drained =>
    intro hleft
    obtain ⟨q, sent, hahead, -, hflight, hquiet⟩ := hagrees.coherent
    rw [hrest q (hleft q), hrest q.other (hleft q.other), List.append_nil] at hahead
    intro p c
    by_cases hp : p = q
    · rw [hp, hflight, ← hahead]
      rfl
    · have hother : p = q.other := by
        cases p <;> cases q <;> simp_all [Party.other]
      rw [hother]
      exact hquiet c
  case completes => exact agrees_finishes hagrees

/-- The session of `-c 10.0.0.1 -R -P 4 -O 2`. -/
def reversedSession : Setup where
  test := reversedClient
  cookie := List.replicate 36 97 ++ [0]
  print _ := toBytes
    "\x7b\"tcp\":true,\"omit\":2,\"time\":10,\"parallel\":4,\"reverse\":true,\"len\":131072,\"client_version\":\"3.1.3\"\x7d"
  parse _ := some (sendParameters reversedClient)
  clientResults := toBytes
    "\x7b\"cpu_util_total\":0,\"cpu_util_user\":0,\"cpu_util_system\":0,\"sender_has_retransmits\":-1,\"streams\":[]\x7d"
  serverResults := toBytes
    "\x7b\"cpu_util_total\":0,\"cpu_util_user\":0,\"cpu_util_system\":0,\"sender_has_retransmits\":0,\"streams\":[]\x7d"
  streams_pos := by decide
  streams_isInt := by decide
  cookie_length := rfl
  cookie_terminated := by decide
  parse_print := rfl
  parameters_size := by decide +kernel
  clientResults_size := by decide +kernel
  serverResults_size := by decide +kernel

/-- A reversed session in which both ends have left is agreed. -/
theorem reversedSession_agreed :
    ∃ s, Run reversedSession (start reversedSession) s ∧ (∀ p, (s.ends p).outcome = .left) ∧
      Agreed reversedSession s := by
  obtain ⟨s, hrun, hleft⟩ := agrees_finishes (start_agrees reversedSession)
  exact ⟨s, hrun, hleft, session_agreed reversedSession hrun⟩

end IperfRuntime.SessionAgreement
