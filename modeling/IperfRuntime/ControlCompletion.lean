import IperfRuntime.ControlAgreement

/-!
# The end of a session

Two ends on one script can always be brought to the end of it: whichever of them can go on
does so, over the turns of its loop that leave the script alone. Only possibility is
claimed: a schedule that never lets an end go on is not excluded here.
-/

namespace IperfRuntime.ControlCompletion

open JsonTree TestState TestParameters ParameterExchange ScriptedChannels ControlSession
  ControlAgreement

variable {S : Setup}

/-- The messages that the ends still have before them. -/
def remaining (rest : Party → List (Message Channel Datum)) : ℕ :=
  (rest .initiator).length + (rest .responder).length

/-- A run leads on in the script. -/
def Advances (S : Setup) (s : Session) (rest : Party → List (Message Channel Datum)) : Prop :=
  ∃ s' rest', Run S s s' ∧ Agrees S s' rest' ∧ remaining rest' < remaining rest

/-- The next message of an end is its own or has arrived. -/
def Available (net : Channels Channel Datum) (p : Party) (m : Message Channel Datum) : Prop :=
  m.sender = p ∨ ∃ more, net p.other m.channel = m.content ++ more

/-- After a message one fewer remains. -/
theorem remaining_update {rest : Party → List (Message Channel Datum)} {p : Party}
    {m : Message Channel Datum} {after : List (Message Channel Datum)} (h : rest p = m :: after) :
    remaining (Function.update rest p after) < remaining rest := by
  unfold remaining
  cases p with
  | initiator =>
    have hlength := congrArg List.length h
    simp only [List.length_cons] at hlength
    rw [Function.update_self, Function.update_of_ne (by simp)]
    omega
  | responder =>
    have hlength := congrArg List.length h
    simp only [List.length_cons] at hlength
    rw [Function.update_self, Function.update_of_ne (by simp)]
    omega

/-- What advances after a step advances before it. -/
theorem Advances.step {s s' : Session} {rest : Party → List (Message Channel Datum)}
    (h : Advances S s' rest) (hstep : Step S s s') : Advances S s rest := by
  obtain ⟨s'', rest', hrun, hagrees, hless⟩ := h
  exact ⟨s'', rest', Relation.ReflTransGen.head hstep hrun, hagrees, hless⟩

/-- A step that takes an end one message further. -/
theorem Advances.single {s s' : Session} {rest : Party → List (Message Channel Datum)} {p : Party}
    {m : Message Channel Datum} {after : List (Message Channel Datum)} (hrest : rest p = m :: after)
    (hstep : Step S s s') (h : Agrees S s' (Function.update rest p after)) : Advances S s rest :=
  ⟨s', _, Relation.ReflTransGen.single hstep, h, remaining_update hrest⟩

/-- An end in a handler does its next operation. -/
theorem perform_step {s s' : Session} {p : Party} {op : Op} {ops : List Op}
    (houtcome : (s.ends p).outcome = .running) (htodo : (s.ends p).todo = op :: ops)
    (h : perform S p op ops s = some s') : Step S s s' := by
  have hbetween : ∀ loop, betweenOps S p loop s = some s' := by
    intro loop
    simp only [betweenOps, houtcome, htodo]
    exact h
  cases p with
  | initiator => exact Or.inl ⟨false, hbetween _⟩
  | responder => exact Or.inr ⟨false, false, hbetween _⟩

/-- A client between two handlers does what its loop says. -/
theorem client_step {s s' : Session} {input : Bool}
    (houtcome : (s.ends .initiator).outcome = .running) (htodo : (s.ends .initiator).todo = [])
    (hfailing : (s.ends .initiator).failing = none) (h : clientLoop input s = some s') :
    Step S s s' := by
  refine Or.inl ⟨input, ?_⟩
  simp only [clientStep, betweenOps, houtcome, htodo, hfailing]
  exact h

/-- So does a server. -/
theorem server_step {s s' : Session} {listener control : Bool}
    (houtcome : (s.ends .responder).outcome = .running) (htodo : (s.ends .responder).todo = [])
    (hfailing : (s.ends .responder).failing = none)
    (h : serverLoop listener control s = some s') : Step S s s' := by
  refine Or.inr ⟨listener, control, ?_⟩
  simp only [serverStep, betweenOps, houtcome, htodo, hfailing]
  exact h

/-- A message of its own or one that has arrived takes an end in a handler further, as nothing
else can be what the handler does next. -/
theorem handler_advances {s : Session} {rest : Party → List (Message Channel Datum)}
    (h : Agrees S s rest) {p : Party} {m : Message Channel Datum}
    {after : List (Message Channel Datum)} (hrest : rest p = m :: after)
    (havailable : Available s.net p m) {op : Op} {ops : List Op}
    (htodo : (s.ends p).todo = op :: ops) : Advances S s rest := by
  have hon := h.onScript p
  have houtcome : (s.ends p).outcome = .running := hon.running (by simp [hrest])
  cases op with
  | read channel kind =>
    have hfollows := hon.follows
    rw [htodo] at hfollows
    obtain ⟨after', -, hsame, -, ⟨-, hne⟩, -, -⟩ := hfollows
    rw [hrest] at hsame
    have hmessage : m = messageOf S p (.read channel kind) := (List.cons.inj hsame).1
    have hsome : s.net p.other channel ≠ [] := by
      rcases havailable with hown | ⟨more, hmore⟩
      · rw [hmessage] at hown
        exact absurd hown (Party.other_ne p)
      · rw [hmessage] at hmore
        have hchannel : (messageOf S p (.read channel kind)).channel = channel := rfl
        rw [hchannel] at hmore
        rw [hmore]
        simp [hne]
    obtain ⟨after'', s', hrest', hdone, hagrees⟩ := perform_read h htodo hsome
    exact Advances.single hrest' (perform_step houtcome htodo hdone) hagrees
  | setSend | dial | write | refuse =>
    obtain ⟨after', s', hrest', hdone, hagrees⟩ := perform_write h htodo rfl
    exact Advances.single hrest' (perform_step houtcome htodo hdone) hagrees

/-- What has arrived of a state can be read. -/
theorem Available.arrived {net : Channels Channel Datum} {p : Party} {m : Message Channel Datum}
    (h : Available net p m) (hsender : m.sender ≠ p) (hcontent : m.content ≠ []) :
    net p.other m.channel ≠ [] := by
  rcases h with hown | ⟨more, hmore⟩
  · exact absurd hown hsender
  · rw [hmore]
    simp [hcontent]

/-- A client in front of `select` goes on with what has arrived, or with the end of the test
if the script says that it is its turn. -/
theorem clientTop_advances {s : Session} {rest : Party → List (Message Channel Datum)}
    (h : Agrees S s rest) (htodo : (s.ends .initiator).todo = [])
    (hturn : (s.ends .initiator).turn ≠ .work) {m : Message Channel Datum}
    {after : List (Message Channel Datum)} (hrest : rest .initiator = m :: after)
    (havailable : Available s.net .initiator m) : Advances S s rest := by
  have hon := h.onScript .initiator
  have houtcome : (s.ends .initiator).outcome = .running := hon.running (by simp [hrest])
  have hidle : ClientIdle S (s.ends .initiator).view (rest .initiator) := hon.idle htodo
  have hdone : (s.ends .initiator).view.state ≠ .iperfDone := by
    intro hstate
    obtain ⟨-, hempty⟩ := hidle
    rw [hstate, hrest] at hempty
    cases hempty
  rcases clientIdle_next hidle hdone with ⟨hstate, -⟩ | ⟨state, after', ops, hnext, hencodes,
    hterminate, hreaction, hfollows⟩
  · let working := s.setEnd .initiator { s.ends .initiator with turn := .work }
    have hwork : clientLoop false s = some working := by
      simp only [clientLoop]
      rw [if_neg hturn, if_neg hdone, if_neg Bool.false_ne_true]
    have hworking : Agrees S working rest := h.turned .initiator .work (by simp) (by simp)
    have htodo' : (working.ends .initiator).todo = [] := htodo
    have hstate' : (working.ends .initiator).view.state = .testRunning := hstate
    have hend : clientLoop true working = some (working.setEnd .initiator
        { working.ends .initiator with turn := .top, todo := [.setSend .testEnd] }) := by
      have hturn' : (working.ends .initiator).turn = .work := rfl
      simp only [clientLoop]
      rw [if_pos hturn', if_pos ⟨hstate', trivial⟩]
    refine Advances.step ?_ (client_step houtcome htodo hon.failing hwork)
    refine Advances.step ?_ (client_step houtcome htodo' hon.failing hend)
    exact handler_advances (ending_agrees hworking htodo' hstate') hrest havailable rfl
  · have hmessage : m = messageOf S Party.initiator.other (.setSend state) := by
      rw [hrest] at hnext
      exact (List.cons.inj hnext).1
    have hsome : s.net Party.initiator.other .control ≠ [] := by
      rw [hmessage] at havailable
      exact havailable.arrived (Party.other_ne .initiator) (List.cons_ne_nil _ _)
    have hreceived : ∃ s', receive .initiator clientReaction .work s = some s' ∧
        Agrees S s' (Function.update rest .initiator after') :=
      receive_agrees h hnext hencodes hterminate hreaction hfollows (by simp) (by simp) hsome
    obtain ⟨s', hreceive, hagrees⟩ := hreceived
    have hloop : clientLoop true s = some s' := by
      simp only [clientLoop]
      rw [if_neg hturn, if_neg hdone]
      exact hreceive
    exact Advances.single hnext (client_step houtcome htodo hon.failing hloop) hagrees

/-- A client in its loop. -/
theorem client_advances {s : Session} {rest : Party → List (Message Channel Datum)}
    (h : Agrees S s rest) (htodo : (s.ends .initiator).todo = []) {m : Message Channel Datum}
    {after : List (Message Channel Datum)} (hrest : rest .initiator = m :: after)
    (havailable : Available s.net .initiator m) : Advances S s rest := by
  have hon := h.onScript .initiator
  have houtcome : (s.ends .initiator).outcome = .running := hon.running (by simp [hrest])
  by_cases hturn : (s.ends .initiator).turn = .work
  · have htop : clientLoop false s =
        some (s.setEnd .initiator { s.ends .initiator with turn := .top }) := by
      simp only [clientLoop]
      rw [if_pos hturn, if_neg fun hboth => Bool.false_ne_true hboth.2]
    refine Advances.step ?_ (client_step houtcome htodo hon.failing htop)
    refine clientTop_advances (h.turned .initiator .top (by simp) (by simp)) htodo ?_ hrest
      havailable
    simp [Session.setEnd]
  · exact clientTop_advances h htodo hturn hrest havailable

/-- Without a stream to take the server goes back to its checks. -/
@[simp] theorem serverStreams_false (s : Session) :
    serverStreams false s =
      some (s.setEnd .responder { s.ends .responder with turn := .checking }) :=
  if_neg fun hboth => Bool.false_ne_true hboth.2

/-- A server that has all of its streams starts the test. -/
theorem starting_advances {s : Session} {rest : Party → List (Message Channel Datum)}
    (h : Agrees S s rest) (htodo : (s.ends .responder).todo = [])
    (hturn : (s.ends .responder).turn = .checking)
    (hstate : (s.ends .responder).view.state = .createStreams)
    (hcreating : Creating S (s.ends .responder).view (rest .responder) 0) :
    Advances S s rest := by
  have hon := h.onScript .responder
  have hrest : rest .responder = ofServer S (.setSend .testStart) :: fromRunning S :=
    hcreating.rest_eq
  have houtcome : (s.ends .responder).outcome = .running := hon.running (by simp [hrest])
  have hall : (s.ends .responder).view.streamsAccepted = (s.ends .responder).view.numStreams := by
    have haccepted := hcreating.accepted
    have hstreams := hcreating.numStreams
    omega
  have hstart : serverLoop false false s = some (s.setEnd .responder { s.ends .responder with
      turn := .top
      todo := [.setSend .testStart, .setSend .testRunning] }) := by
    simp only [serverLoop, hturn]
    rw [if_pos ⟨hstate, hall⟩]
  refine Advances.step ?_ (server_step houtcome htodo hon.failing hstart)
  exact handler_advances (starting_agrees h hcreating) hrest (Or.inl rfl) rfl

/-- A server that has its streams reads the state that has arrived, in whichever of the two
states of a test it is. -/
theorem message_advances {s : Session} {rest : Party → List (Message Channel Datum)}
    (h : Agrees S s rest) (htodo : (s.ends .responder).todo = [])
    (hturn : (s.ends .responder).turn = .top)
    (hstate : (s.ends .responder).view.state = .testRunning ∨
      (s.ends .responder).view.state = .displayResults)
    (hsck : (s.ends .responder).view.ctrlSck = true) {m : Message Channel Datum}
    {after : List (Message Channel Datum)} (hrest : rest .responder = m :: after)
    (havailable : Available s.net .responder m) : Advances S s rest := by
  have hon := h.onScript .responder
  have houtcome : (s.ends .responder).outcome = .running := hon.running (by simp [hrest])
  obtain ⟨state, after', ops, hnext, hencodes, hterminate, hreaction, hfollows⟩ :=
    serverIdle_message (hon.idle htodo) hstate
  have hsame : m = ofClient S (.setSend state) := by
    rw [hrest] at hnext
    exact (List.cons.inj hnext).1
  have hsome : s.net Party.responder.other .control ≠ [] := by
    rw [hsame] at havailable
    exact havailable.arrived (Party.other_ne .responder) (List.cons_ne_nil _ _)
  have hreceived : ∃ s', receive .responder serverReaction (.streaming false) s = some s' ∧
      Agrees S s' (Function.update rest .responder after') :=
    receive_agrees h hnext hencodes hterminate hreaction hfollows (by simp) (by simp) hsome
  obtain ⟨s', hreceive, hagrees⟩ := hreceived
  have hloop : serverLoop false true s = some s' := by
    have hdone : (s.ends .responder).view.state ≠ .iperfDone := by
      rcases hstate with hstate | hstate
      · simp [hstate]
      · simp [hstate]
    have hready : s.net .initiator .control ≠ [] := hsome
    simp only [serverLoop, hturn]
    rw [if_neg hdone, if_neg (by simp [hsck, hready]), if_neg (by simp)]
    exact hreceive
  exact Advances.single hnext (server_step houtcome htodo hon.failing hloop) hagrees

/-- A server accepts the connection that has arrived. -/
theorem dial_advances {s : Session} {rest : Party → List (Message Channel Datum)}
    (h : Agrees S s rest) (htodo : (s.ends .responder).todo = []) {m : Message Channel Datum}
    {after after' : List (Message Channel Datum)} (hrest : rest .responder = m :: after)
    (havailable : Available s.net .responder m) {k : ℕ} {work : ℕ → List Op} {turn : Turn}
    (hnext : rest .responder = ofClient S (.dial k) :: after')
    (hfollows : Follows S .responder (ServerIdle S) (work k)
      { (s.ends .responder).view with ctrlSck := true } after')
    (hhandling : turn ≠ .handling true) (hstreaming : turn ≠ .streaming true)
    (hloop : s.net .initiator .listener ≠ [] → serverLoop true false s = accept work turn s) :
    Advances S s rest := by
  have hon := h.onScript .responder
  have houtcome : (s.ends .responder).outcome = .running := hon.running (by simp [hrest])
  have hsame : m = ofClient S (.dial k) := by
    rw [hrest] at hnext
    exact (List.cons.inj hnext).1
  have hsome : s.net Party.responder.other .listener ≠ [] := by
    rw [hsame] at havailable
    exact havailable.arrived (Party.other_ne .responder) (List.cons_ne_nil _ _)
  obtain ⟨s', haccept, hagrees⟩ := accept_agrees h hnext hfollows hhandling hstreaming hsome
  rw [← hloop hsome] at haccept
  exact Advances.single hnext (server_step houtcome htodo hon.failing haccept) hagrees

/-- A server in front of `select` goes on with a connection, a stream or a message, according
to what the script says next. -/
theorem serverTop_advances {s : Session} {rest : Party → List (Message Channel Datum)}
    (h : Agrees S s rest) (htodo : (s.ends .responder).todo = [])
    (hturn : (s.ends .responder).turn = .top) {m : Message Channel Datum}
    {after : List (Message Channel Datum)} (hrest : rest .responder = m :: after)
    (havailable : Available s.net .responder m) : Advances S s rest := by
  have hon := h.onScript .responder
  have houtcome : (s.ends .responder).outcome = .running := hon.running (by simp [hrest])
  have hidle : ServerIdle S (s.ends .responder).view (rest .responder) := hon.idle htodo
  rcases serverIdle_states hidle with hstate | hstate | hstate | hstate | hstate
  · unfold ServerIdle at hidle
    rw [hstate] at hidle
    obtain ⟨hscript, hsck, hstreams, haccepted⟩ := hidle
    have hfollows : Follows S .responder (ServerIdle S)
        (if (s.ends .responder).view.ctrlSck then [.refuse 0] else acceptOps)
        { (s.ends .responder).view with ctrlSck := true }
        (ofClient S (.write .control .cookie) :: fromParam S) := by
      rw [hsck]
      exact follows_acceptOps hstreams haccepted rfl
    have hloop : s.net .initiator .listener ≠ [] → serverLoop true false s =
        accept (fun k => if (s.ends .responder).view.ctrlSck then [.refuse k] else acceptOps)
          (.handling false) s := by
      intro hsome
      simp only [serverLoop, hturn]
      rw [if_neg (by simp [hstate]), if_neg (by simp [hsome]), if_pos ⟨trivial, by simp [hstate]⟩]
    exact dial_advances h htodo hrest havailable hscript hfollows (by simp) (by simp) hloop
  · have hcreate := hidle
    unfold ServerIdle at hcreate
    rw [hstate] at hcreate
    obtain ⟨n, hcreating⟩ := hcreate
    cases n with
    | zero =>
      have hloop : serverLoop false false s =
          some (s.setEnd .responder { s.ends .responder with turn := .checking }) := by
        simp only [serverLoop, hturn]
        rw [if_neg (by simp [hstate]), if_neg (by simp), if_neg (by simp), if_neg (by simp)]
        exact serverStreams_false s
      refine Advances.step ?_ (server_step houtcome htodo hon.failing hloop)
      exact starting_advances (h.turned .responder .checking (by simp) (by simp)) htodo rfl hstate
        hcreating
    | succ n =>
      obtain ⟨after', hnext, hfollows⟩ := follows_acceptStream hcreating hstate
      have hview : { (s.ends .responder).view with ctrlSck := true } =
          (s.ends .responder).view := by
        rw [← hcreating.ctrlSck]
      have hwork : Follows S .responder (ServerIdle S)
          [.read (.stream ((s.ends .responder).view.streams.length + 1)) .cookie]
          { (s.ends .responder).view with ctrlSck := true } after' := by
        rw [hview]
        exact hfollows
      have hloop : s.net .initiator .listener ≠ [] → serverLoop true false s =
          accept (fun k => [.read (.stream k) .cookie]) .checking s := by
        intro hsome
        simp only [serverLoop, hturn]
        rw [if_neg (by simp [hstate]), if_neg (by simp [hsome]), if_neg (by simp [hstate]),
          if_neg (by simp)]
        exact if_pos ⟨hstate, rfl⟩
      exact dial_advances h htodo hrest havailable hnext hwork (by simp) (by simp) hloop
  · unfold ServerIdle at hidle
    rw [hstate] at hidle
    exact message_advances h htodo hturn (Or.inl hstate) hidle.2 hrest havailable
  · unfold ServerIdle at hidle
    rw [hstate] at hidle
    exact message_advances h htodo hturn (Or.inr hstate) hidle.2 hrest havailable
  · unfold ServerIdle at hidle
    rw [hstate, hrest] at hidle
    cases hidle

/-- A server in front of the comparison of `streams_accepted` starts the test if all are there
and goes back to `select` if not. -/
theorem checking_advances {s : Session} {rest : Party → List (Message Channel Datum)}
    (h : Agrees S s rest) (htodo : (s.ends .responder).todo = [])
    (hturn : (s.ends .responder).turn = .checking) {m : Message Channel Datum}
    {after : List (Message Channel Datum)} (hrest : rest .responder = m :: after)
    (havailable : Available s.net .responder m) : Advances S s rest := by
  have hon := h.onScript .responder
  have houtcome : (s.ends .responder).outcome = .running := hon.running (by simp [hrest])
  by_cases hall : (s.ends .responder).view.state = .createStreams ∧
      (s.ends .responder).view.streamsAccepted = (s.ends .responder).view.numStreams
  · have hidle : ServerIdle S (s.ends .responder).view (rest .responder) := hon.idle htodo
    unfold ServerIdle at hidle
    rw [hall.1] at hidle
    obtain ⟨n, hcreating⟩ := hidle
    have haccepted := hcreating.accepted
    have hstreams := hcreating.numStreams
    have hzero : n = 0 := by omega
    rw [hzero] at hcreating
    exact starting_advances h htodo hturn hall.1 hcreating
  · have htop : serverLoop false false s =
        some (s.setEnd .responder { s.ends .responder with turn := .top }) := by
      simp only [serverLoop, hturn]
      rw [if_neg hall]
    refine Advances.step ?_ (server_step houtcome htodo hon.failing htop)
    refine serverTop_advances (h.turned .responder .top (by simp) (by simp)) htodo ?_ hrest
      havailable
    simp [Session.setEnd]

/-- Behind a handler and behind the streams the server goes on to look for messages. -/
theorem serverLoop_handled {s : Session} {after : List (Message Channel Datum)}
    (hon : OnScript S .responder (s.ends .responder) after) {flag : Bool}
    (hturn : (s.ends .responder).turn = .handling flag ∨
      (s.ends .responder).turn = .streaming flag) :
    serverLoop false false s =
      some (s.setEnd .responder { s.ends .responder with turn := .checking }) := by
  rcases hturn with hturn | hturn
  · have hflag : flag ≠ true := fun htrue => hon.handling (by rw [hturn, htrue])
    simp only [serverLoop, hturn]
    rw [if_neg hflag]
    exact serverStreams_false s
  · have hflag : flag = false := by
      simpa using fun htrue : flag = true => hon.streaming (by rw [hturn, htrue])
    simp only [serverLoop, hturn, hflag]
    exact serverStreams_false s

/-- A server in its loop can go on with the next message, wherever in its turn it stands; a
turn that finds nothing leads back to `select`. -/
theorem server_advances {s : Session} {rest : Party → List (Message Channel Datum)}
    (h : Agrees S s rest) (htodo : (s.ends .responder).todo = []) {m : Message Channel Datum}
    {after : List (Message Channel Datum)} (hrest : rest .responder = m :: after)
    (havailable : Available s.net .responder m) : Advances S s rest := by
  have hon := h.onScript .responder
  have houtcome : (s.ends .responder).outcome = .running := hon.running (by simp [hrest])
  have hdone : (s.ends .responder).view.state ≠ .iperfDone := by
    intro hstate
    have hidle : ServerIdle S (s.ends .responder).view (rest .responder) := hon.idle htodo
    unfold ServerIdle at hidle
    rw [hstate, hrest] at hidle
    cases hidle
  have hchecking : serverLoop false false s =
      some (s.setEnd .responder { s.ends .responder with turn := .checking }) →
      Advances S s rest := by
    intro hloop
    refine Advances.step ?_ (server_step houtcome htodo hon.failing hloop)
    refine checking_advances (h.turned .responder .checking (by simp) (by simp)) htodo ?_ hrest
      havailable
    simp [Session.setEnd]
  cases hturn : (s.ends .responder).turn with
  | top => exact serverTop_advances h htodo hturn hrest havailable
  | checking => exact checking_advances h htodo hturn hrest havailable
  | work =>
    refine hchecking ?_
    simp only [serverLoop, hturn]
    rw [if_neg hdone, if_neg (by simp), if_neg (by simp), if_neg (by simp)]
    exact serverStreams_false s
  | handling flag => exact hchecking (serverLoop_handled hon (Or.inl hturn))
  | streaming flag => exact hchecking (serverLoop_handled hon (Or.inr hturn))

/-- While there are messages left, one of the ends goes on. -/
theorem agrees_advances {s : Session} {rest : Party → List (Message Channel Datum)}
    (h : Agrees S s rest) (hleft : ∃ p, rest p ≠ []) : Advances S s rest := by
  obtain ⟨p, m, after, hrest, havailable⟩ := h.coherent.progress hleft
  cases htodo : (s.ends p).todo with
  | cons op ops => exact handler_advances h hrest havailable htodo
  | nil =>
    cases p with
    | initiator => exact client_advances h htodo hrest havailable
    | responder => exact server_advances h htodo hrest havailable

/-- An end without messages before it has done its handlers. -/
theorem todo_nil {p : Party} {e : End} (h : OnScript S p e []) : e.todo = [] := by
  cases htodo : e.todo with
  | nil => rfl
  | cons op ops =>
    have hfollows := h.follows
    rw [htodo] at hfollows
    obtain ⟨after, -, hrest, -⟩ := hfollows
    cases hrest

/-- At the end of the script an end has the state `IPERF_DONE`, which its loop looks at in
front of the next turn. -/
theorem state_done {p : Party} {e : End} (h : OnScript S p e []) : e.view.state = .iperfDone := by
  have hidle := h.idle (todo_nil h)
  cases p with
  | initiator =>
    obtain ⟨-, hstate⟩ := hidle
    cases hview : e.view.state with
    | iperfDone => rfl
    | _ =>
      rw [hview] at hstate
      cases hstate
  | responder =>
    have hserver : ServerIdle S e.view [] := hidle
    rcases serverIdle_states hserver with hstate | hstate | hstate | hstate | hstate
    · unfold ServerIdle at hserver
      rw [hstate] at hserver
      cases hserver.1
    · unfold ServerIdle at hserver
      rw [hstate] at hserver
      obtain ⟨n, hcreating⟩ := hserver
      have hrest := hcreating.rest_eq
      simp [fromStreams, fromStart] at hrest
    · unfold ServerIdle at hserver
      rw [hstate] at hserver
      cases hserver.1
    · unfold ServerIdle at hserver
      rw [hstate] at hserver
      cases hserver.1
    · exact hstate

/-- An end leaves its loop and the other stays as it is. -/
def Leaves (S : Setup) (p : Party) (s : Session) (rest : Party → List (Message Channel Datum)) :
    Prop :=
  ∃ s', Run S s s' ∧ Agrees S s' rest ∧ (s'.ends p).outcome = .left ∧
    s'.ends p.other = s.ends p.other

/-- What leaves a party's script behind after a step of that party leaves it behind before it. -/
theorem Leaves.step {p : Party} {s s' : Session} {rest : Party → List (Message Channel Datum)}
    (h : Leaves S p s' rest) (hstep : Step S s s') (hother : s'.ends p.other = s.ends p.other) :
    Leaves S p s rest := by
  obtain ⟨s'', hrun, hagrees, hleft, hsame⟩ := h
  exact ⟨s'', Relation.ReflTransGen.head hstep hrun, hagrees, hleft, hsame.trans hother⟩

/-- Changing one end leaves the other as it is. -/
theorem setEnd_other (s : Session) (p : Party) (e : End) :
    (s.setEnd p e).ends p.other = s.ends p.other := by
  simp [Session.setEnd]

/-- The last step of an end. -/
theorem Leaves.last {p : Party} {s : Session} {rest : Party → List (Message Channel Datum)}
    (h : Agrees S s rest) (hrest : rest p = [])
    (hstep : Step S s (s.setEnd p { s.ends p with outcome := .left })) : Leaves S p s rest := by
  have hon := h.onScript p
  have htodo : (s.ends p).todo = [] := by
    rw [hrest] at hon
    exact todo_nil hon
  refine ⟨_, Relation.ReflTransGen.single hstep, h.setEnd ⟨hon.follows, hon.recorded, hon.failing,
    Or.inr ⟨rfl, hrest, htodo⟩, hon.handling, hon.streaming⟩, ?_, setEnd_other s p _⟩
  simp [Session.setEnd]

/-- A client whose script is over can leave: the rest of its turn changes nothing, and its
loop ends. -/
theorem client_leaves {s : Session} {rest : Party → List (Message Channel Datum)}
    (h : Agrees S s rest) (hrest : rest .initiator = []) : Leaves S .initiator s rest := by
  have hon := h.onScript .initiator
  have hempty := hon
  rw [hrest] at hempty
  have htodo := todo_nil hempty
  rcases hon.outcome with houtcome | ⟨hleft, -, -⟩
  · have htop : ∀ s, Agrees S s rest → (s.ends .initiator).outcome = .running →
        (s.ends .initiator).turn ≠ .work → Leaves S .initiator s rest := by
      intro s hagrees hrunning hturn
      have hon' := hagrees.onScript .initiator
      have hempty' := hon'
      rw [hrest] at hempty'
      have hloop : clientLoop false s =
          some (s.setEnd .initiator { s.ends .initiator with outcome := .left }) := by
        simp only [clientLoop]
        rw [if_neg hturn, if_pos (state_done hempty')]
      exact Leaves.last hagrees hrest
        (client_step hrunning (todo_nil hempty') hon'.failing hloop)
    by_cases hturn : (s.ends .initiator).turn = .work
    · have hloop : clientLoop false s =
          some (s.setEnd .initiator { s.ends .initiator with turn := .top }) := by
        simp only [clientLoop]
        rw [if_pos hturn, if_neg fun hboth => Bool.false_ne_true hboth.2]
      refine Leaves.step ?_ (client_step houtcome htodo hon.failing hloop)
        (setEnd_other s .initiator _)
      exact htop _ (h.turned .initiator .top (by simp) (by simp)) houtcome
        (by simp [Session.setEnd])
    · exact htop s h houtcome hturn
  · exact ⟨s, Relation.ReflTransGen.refl, h, hleft, rfl⟩

/-- A server in front of `select` that is to leave. -/
theorem serverTop_leaves {s : Session} {rest : Party → List (Message Channel Datum)}
    (h : Agrees S s rest) (hrest : rest .responder = [])
    (houtcome : (s.ends .responder).outcome = .running)
    (hturn : (s.ends .responder).turn = .top ∨ (s.ends .responder).turn = .work) :
    Leaves S .responder s rest := by
  have hon := h.onScript .responder
  have hempty := hon
  rw [hrest] at hempty
  have hloop : serverLoop false false s =
      some (s.setEnd .responder { s.ends .responder with outcome := .left }) := by
    rcases hturn with hturn | hturn
    · simp only [serverLoop, hturn]
      rw [if_pos (state_done hempty)]
    · simp only [serverLoop, hturn]
      rw [if_pos (state_done hempty)]
  exact Leaves.last h hrest (server_step houtcome (todo_nil hempty) hon.failing hloop)

/-- So does one behind it. -/
theorem checking_leaves {s : Session} {rest : Party → List (Message Channel Datum)}
    (h : Agrees S s rest) (hrest : rest .responder = [])
    (houtcome : (s.ends .responder).outcome = .running)
    (hturn : (s.ends .responder).turn = .checking) : Leaves S .responder s rest := by
  have hon := h.onScript .responder
  have hempty := hon
  rw [hrest] at hempty
  have hdone := state_done hempty
  have hloop : serverLoop false false s =
      some (s.setEnd .responder { s.ends .responder with turn := .top }) := by
    simp only [serverLoop, hturn]
    rw [if_neg (by simp [hdone])]
  refine Leaves.step ?_ (server_step houtcome (todo_nil hempty) hon.failing hloop)
    (setEnd_other s .responder _)
  exact serverTop_leaves (h.turned .responder .top (by simp) (by simp)) hrest houtcome
    (by simp [Session.setEnd])

/-- A server that is to leave. -/
theorem server_leaves {s : Session} {rest : Party → List (Message Channel Datum)}
    (h : Agrees S s rest) (hrest : rest .responder = []) : Leaves S .responder s rest := by
  have hon := h.onScript .responder
  have hempty := hon
  rw [hrest] at hempty
  have htodo := todo_nil hempty
  rcases hon.outcome with houtcome | ⟨hleft, -, -⟩
  · have hchecking : serverLoop false false s =
        some (s.setEnd .responder { s.ends .responder with turn := .checking }) →
        Leaves S .responder s rest := by
      intro hloop
      refine Leaves.step ?_ (server_step houtcome htodo hon.failing hloop)
        (setEnd_other s .responder _)
      exact checking_leaves (h.turned .responder .checking (by simp) (by simp)) hrest houtcome
        (by simp [Session.setEnd])
    cases hturn : (s.ends .responder).turn with
    | top => exact serverTop_leaves h hrest houtcome (Or.inl hturn)
    | work => exact serverTop_leaves h hrest houtcome (Or.inr hturn)
    | checking => exact checking_leaves h hrest houtcome hturn
    | handling flag => exact hchecking (serverLoop_handled hon (Or.inl hturn))
    | streaming flag => exact hchecking (serverLoop_handled hon (Or.inr hturn))
  · exact ⟨s, Relation.ReflTransGen.refl, h, hleft, rfl⟩

/-- Two ends on the script can both come to leave their loops. -/
theorem agrees_finishes {s : Session} {rest : Party → List (Message Channel Datum)}
    (h : Agrees S s rest) : ∃ s', Run S s s' ∧ ∀ p, (s'.ends p).outcome = .left := by
  induction hn : remaining rest using Nat.strong_induction_on generalizing s rest with
  | _ n ih =>
    by_cases hleft : ∃ p, rest p ≠ []
    · obtain ⟨s', rest', hrun, hagrees, hless⟩ := agrees_advances h hleft
      obtain ⟨s'', hrun', hboth⟩ := ih (remaining rest') (by omega) hagrees rfl
      exact ⟨s'', hrun.trans hrun', hboth⟩
    · have hempty : ∀ p, rest p = [] := by
        intro p
        by_contra hne
        exact hleft ⟨p, hne⟩
      obtain ⟨s', hrun, hagrees, hclient, -⟩ := client_leaves h (hempty .initiator)
      obtain ⟨s'', hrun', -, hserver, hsame⟩ := server_leaves hagrees (hempty .responder)
      refine ⟨s'', hrun.trans hrun', fun p => ?_⟩
      cases p with
      | initiator =>
        have hkept : s''.ends .initiator = s'.ends .initiator := hsame
        rw [hkept]
        exact hclient
      | responder => exact hserver

end IperfRuntime.ControlCompletion
