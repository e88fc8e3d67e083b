import IperfRuntime.EntryPoints

/-!
# Test parameters

`send_parameters`, `get_parameters` and `iperf_reset_test`, with the parameters
that drive a test as a record of their own. A message arrives parsed; reading a
text key whose value is not a string passes a null pointer to `strdup`, which has
no result here. Freeing streams and timers is not part of the record update.
-/

namespace IperfRuntime.TestParameters

open JsonTree TestState EntryPoints

/-- Assignment of a 64 bit value to an `int`. -/
def toInt (n : ℤ) : ℤ := n.bmod (2 ^ 32)

/-- Assignment of a 64 bit value to an unsigned 64 bit field. -/
def toUint64 (n : ℤ) : ℕ := (n % 2 ^ 64).toNat

/-- The numeric and boolean members of `send_parameters`, when they are sent. -/
def numberMember (key : String) (n : ℤ) (sent : Bool) : List (String × CJson) :=
  if sent then [(key, createNumber n)] else []

def trueMember (key : String) (sent : Bool) : List (String × CJson) :=
  if sent then [(key, .true)] else []

def textMember (key : String) : Option String → List (String × CJson)
  | some text => [(key, .string text)]
  | none => []

/-- The message of `send_parameters`. -/
def sendParameters (test : IperfTest) : CJson :=
  .object <|
    trueMember "tcp" (test.protocol == .tcp) ++
    trueMember "udp" (test.protocol == .udp) ++
    trueMember "sctp" (test.protocol == .sctp) ++
    numberMember "omit" test.omitSeconds true ++
    numberMember "server_affinity" test.serverAffinity (test.serverAffinity != -1) ++
    numberMember "time" test.duration (test.duration != 0) ++
    numberMember "num" test.settings.bytes (test.settings.bytes != 0) ++
    numberMember "blockcount" test.settings.blocks (test.settings.blocks != 0) ++
    numberMember "MSS" test.settings.mss (test.settings.mss != 0) ++
    trueMember "nodelay" test.noDelay ++
    numberMember "parallel" test.numStreams true ++
    trueMember "reverse" test.reverse ++
    numberMember "window" test.settings.socketBufsize (test.settings.socketBufsize != 0) ++
    numberMember "len" test.settings.blksize (test.settings.blksize != 0) ++
    numberMember "bandwidth" test.settings.rate (test.settings.rate != 0) ++
    numberMember "burst" test.settings.burst (test.settings.burst != 0) ++
    numberMember "TOS" test.settings.tos (test.settings.tos != 0) ++
    numberMember "flowlabel" test.settings.flowlabel (test.settings.flowlabel != 0) ++
    textMember "title" test.title ++
    textMember "congestion" test.congestion ++
    numberMember "get_server_output" 1 test.getServerOutput ++
    numberMember "udp_counters_64bit" 1 test.udpCounters64bit ++
    numberMember "no_fq_socket_pacing" 1 test.noFqSocketPacing ++
    [("client_version", .string "3.1.3")]

variable {σ α : Type*}

/-- `if ((j_p = cJSON_GetObjectItem(j, key)) != NULL)` around an assignment. -/
def onItem (j : CJson) (key : String) (assign : CJson → σ → σ) (s : σ) : σ :=
  match getObjectItem j key with
  | some item => assign item s
  | none => s

/-- The same around an assignment of `strdup(j_p->valuestring)`. -/
def onText (j : CJson) (key : String) (assign : String → σ → σ) (s : σ) : Option σ :=
  match getObjectItem j key with
  | some item => item.valuestring.map fun text => assign text s
  | none => some s

/-- The protocol keys of `get_parameters`. -/
def getProtocol (platform : Platform) (j : CJson) (test : IperfTest) : IperfTest :=
  let test := onItem j "tcp" (fun _ t => setProtocol platform .tcp t) test
  let test := onItem j "udp" (fun _ t => setProtocol platform .udp t) test
  onItem j "sctp" (fun _ t => setProtocol platform .sctp t) test

/-- The keys between the protocol and the texts. -/
def getNumbers (platform : Platform) (j : CJson) (test : IperfTest) : IperfTest :=
  let test := onItem j "omit" (fun p t => { t with omitSeconds := toInt p.valueint }) test
  let test := onItem j "server_affinity"
    (fun p t => { t with serverAffinity := toInt p.valueint }) test
  let test := onItem j "time" (fun p t => { t with duration := toInt p.valueint }) test
  let test := onItem j "num"
    (fun p t => { t with settings := { t.settings with bytes := toUint64 p.valueint } }) test
  let test := onItem j "blockcount"
    (fun p t => { t with settings := { t.settings with blocks := toUint64 p.valueint } }) test
  let test := onItem j "MSS"
    (fun p t => { t with settings := { t.settings with mss := toInt p.valueint } }) test
  let test := onItem j "nodelay" (fun _ t => { t with noDelay := true }) test
  let test := onItem j "parallel" (fun p t => { t with numStreams := toInt p.valueint }) test
  let test := onItem j "reverse" (fun _ t => iperfSetTestReverse platform true t) test
  let test := onItem j "window"
    (fun p t => { t with settings := { t.settings with socketBufsize := toInt p.valueint } }) test
  let test := onItem j "len"
    (fun p t => { t with settings := { t.settings with blksize := toInt p.valueint } }) test
  let test := onItem j "bandwidth"
    (fun p t => { t with settings := { t.settings with rate := toUint64 p.valueint } }) test
  let test := onItem j "burst"
    (fun p t => { t with settings := { t.settings with burst := toInt p.valueint } }) test
  let test := onItem j "TOS"
    (fun p t => { t with settings := { t.settings with tos := toInt p.valueint } }) test
  onItem j "flowlabel"
    (fun p t => { t with settings := { t.settings with flowlabel := toInt p.valueint } }) test

/-- The flags behind the texts. -/
def getFlags (platform : Platform) (j : CJson) (test : IperfTest) : IperfTest :=
  let test := onItem j "get_server_output" (fun _ t => { t with getServerOutput := true }) test
  let test := onItem j "udp_counters_64bit" (fun _ t => { t with udpCounters64bit := true }) test
  let test := onItem j "no_fq_socket_pacing" (fun _ t => { t with noFqSocketPacing := true }) test
  if test.sender && test.protocol == .tcp && platform.hasTcpinfoRetransmits then
    { test with senderHasRetransmits := 1 }
  else test

/-- `test->title = …`. -/
def setTitle (text : String) (test : IperfTest) : IperfTest := { test with title := some text }

/-- `test->congestion = …`. -/
def setCongestion (text : String) (test : IperfTest) : IperfTest :=
  { test with congestion := some text }

/-- `get_parameters` on a message that parsed; `none` is a crash in `strdup`. -/
def getParameters (platform : Platform) (j : CJson) (test : IperfTest) : Option IperfTest :=
  let test := getNumbers platform j (getProtocol platform j test)
  (onText j "title" setTitle test).bind fun test =>
    (onText j "congestion" setCongestion test).map (getFlags platform j)

/-- `iperf_reset_test`. -/
def iperfResetTest (platform : Platform) (test : IperfTest) : IperfTest :=
  let test := { test with
    streams := []
    omitTimer := none
    timer := none
    statsTimer := none
    reporterTimer := none
    done := false
    role := .server
    sender := false
    senderHasRetransmits := 0 }
  let test := setProtocol platform .tcp test
  { test with
    omitSeconds := omitDefault
    duration := durationDefault
    serverAffinity := -1
    state := .initial
    ctrlSck := -1
    protListener := -1
    bytesSent := 0
    blocksSent := 0
    reverse := false
    noDelay := false
    readSet := ∅
    writeSet := ∅
    numStreams := 1
    settings := { test.settings with
      socketBufsize := 0
      blksize := defaultTcpBlksize
      rate := 0
      burst := 0
      mss := 0 }
    multisend := 10
    udpCounters64bit := false
    jniCallback := false
    serverOutputList := [] }

/-- The parameters that drive a test. -/
@[ext]
structure Parameters where
  protocol : ProtocolId
  omitSeconds : ℤ
  duration : ℤ
  bytes : ℕ
  blocks : ℕ
  mss : ℤ
  noDelay : Bool
  numStreams : ℤ
  reverse : Bool
  sender : Bool
  socketBufsize : ℤ
  blksize : ℤ
  rate : ℕ
  burst : ℤ
  tos : ℤ
  flowlabel : ℤ
  title : Option String
  congestion : Option String
  getServerOutput : Bool
  udpCounters64bit : Bool
  noFqSocketPacing : Bool
  serverAffinity : ℤ
  deriving DecidableEq

/-- The parameters of a test. -/
def parametersOf (test : IperfTest) : Parameters where
  protocol := test.protocol
  omitSeconds := test.omitSeconds
  duration := test.duration
  bytes := test.settings.bytes
  blocks := test.settings.blocks
  mss := test.settings.mss
  noDelay := test.noDelay
  numStreams := test.numStreams
  reverse := test.reverse
  sender := test.sender
  socketBufsize := test.settings.socketBufsize
  blksize := test.settings.blksize
  rate := test.settings.rate
  burst := test.settings.burst
  tos := test.settings.tos
  flowlabel := test.settings.flowlabel
  title := test.title
  congestion := test.congestion
  getServerOutput := test.getServerOutput
  udpCounters64bit := test.udpCounters64bit
  noFqSocketPacing := test.noFqSocketPacing
  serverAffinity := test.serverAffinity

/-- The value a key brings, or the one in force. -/
def valueOr (j : CJson) (key : String) (value : CJson → α) (start : α) : α :=
  match getObjectItem j key with
  | some item => value item
  | none => start

/-- Whether a message has the key. -/
def Sends (j : CJson) (key : String) : Prop := (getObjectItem j key).isSome = true

/-- Texts come as strings. -/
def Readable (j : CJson) : Prop :=
  ∀ key ∈ ["title", "congestion"], ∀ item ∈ getObjectItem j key, item.valuestring.isSome = true

/-- A message as a function of the parameters alone. -/
def readParameters (j : CJson) (p : Parameters) : Parameters where
  protocol := valueOr j "udp" (fun _ => .udp) (valueOr j "tcp" (fun _ => .tcp) p.protocol)
  omitSeconds := valueOr j "omit" (toInt ·.valueint) p.omitSeconds
  duration := valueOr j "time" (toInt ·.valueint) p.duration
  bytes := valueOr j "num" (toUint64 ·.valueint) p.bytes
  blocks := valueOr j "blockcount" (toUint64 ·.valueint) p.blocks
  mss := valueOr j "MSS" (toInt ·.valueint) p.mss
  noDelay := valueOr j "nodelay" (fun _ => true) p.noDelay
  numStreams := valueOr j "parallel" (toInt ·.valueint) p.numStreams
  reverse := valueOr j "reverse" (fun _ => true) p.reverse
  sender := valueOr j "reverse" (fun _ => !p.sender) p.sender
  socketBufsize := valueOr j "window" (toInt ·.valueint) p.socketBufsize
  blksize := valueOr j "len" (toInt ·.valueint) p.blksize
  rate := valueOr j "bandwidth" (toUint64 ·.valueint) p.rate
  burst := valueOr j "burst" (toInt ·.valueint) p.burst
  tos := valueOr j "TOS" (toInt ·.valueint) p.tos
  flowlabel := valueOr j "flowlabel" (toInt ·.valueint) p.flowlabel
  title := valueOr j "title" CJson.valuestring p.title
  congestion := valueOr j "congestion" CJson.valuestring p.congestion
  getServerOutput := valueOr j "get_server_output" (fun _ => true) p.getServerOutput
  udpCounters64bit := valueOr j "udp_counters_64bit" (fun _ => true) p.udpCounters64bit
  noFqSocketPacing := valueOr j "no_fq_socket_pacing" (fun _ => true) p.noFqSocketPacing
  serverAffinity := valueOr j "server_affinity" (toInt ·.valueint) p.serverAffinity

/-- The reset as a function of the parameters alone: eight of them pass through. -/
def resetParameters (p : Parameters) : Parameters :=
  { p with
    protocol := .tcp
    omitSeconds := omitDefault
    duration := durationDefault
    mss := 0
    noDelay := false
    numStreams := 1
    reverse := false
    sender := false
    socketBufsize := 0
    blksize := defaultTcpBlksize
    rate := 0
    burst := 0
    udpCounters64bit := false
    serverAffinity := -1 }

/-- An assignment to one field, seen through the parameters. -/
theorem parametersOf_onItem {j : CJson} {key : String} {assign : CJson → IperfTest → IperfTest}
    {test : IperfTest} (set : α → Parameters → Parameters) (get : Parameters → α)
    (value : CJson → α) (hset : ∀ p, set (get p) p = p)
    (hassign : ∀ item, parametersOf (assign item test) = set (value item) (parametersOf test)) :
    parametersOf (onItem j key assign test) =
      set (valueOr j key value (get (parametersOf test))) (parametersOf test) := by
  unfold onItem valueOr
  cases getObjectItem j key with
  | none =>
    dsimp only
    rw [hset]
  | some item => exact hassign item

/-- Choosing the reverse direction toggles the sender. -/
theorem parametersOf_reverse (platform : Platform) (test : IperfTest) :
    parametersOf (iperfSetTestReverse platform true test) =
      { parametersOf test with reverse := true, sender := !test.sender } := by
  unfold iperfSetTestReverse
  rw [checkSenderHasRetransmits_eq]
  rfl

/-- A protocol that is registered is set and changes nothing else. -/
theorem setProtocol_registered {platform : Platform} {protocol : ProtocolId} {test : IperfTest}
    (h : protocol ∈ test.protocols) :
    parametersOf (setProtocol platform protocol test) =
      { parametersOf test with protocol := protocol } := by
  unfold setProtocol
  rw [if_pos (by simpa using h), checkSenderHasRetransmits_eq]
  rfl

/-- One that is not registered changes nothing. -/
theorem setProtocol_unregistered {platform : Platform} {protocol : ProtocolId}
    {test : IperfTest} (h : protocol ∉ test.protocols) :
    setProtocol platform protocol test = test := by
  unfold setProtocol
  rw [if_neg (by simpa using h)]

/-- The registered protocols stay the same. -/
theorem protocols_setProtocol (platform : Platform) (protocol : ProtocolId) (test : IperfTest) :
    (setProtocol platform protocol test).protocols = test.protocols := by
  unfold setProtocol
  split
  · rw [checkSenderHasRetransmits_eq]
  · rfl

/-- An assignment that leaves a component alone leaves it alone under a key. -/
theorem onItem_keeps {j : CJson} {key : String} {assign : CJson → σ → σ} {s : σ} (f : σ → α)
    (h : ∀ item, f (assign item s) = f s) : f (onItem j key assign s) = f s := by
  unfold onItem
  cases getObjectItem j key with
  | none => rfl
  | some item => exact h item

/-- The protocol keys: TCP and UDP are known, SCTP is not, and a key that names an unknown
protocol changes nothing. -/
theorem getProtocol_spec {platform : Platform} {j : CJson} {test : IperfTest}
    (hp : test.protocols = [.tcp, .udp]) :
    (getProtocol platform j test).protocols = [.tcp, .udp] ∧
      parametersOf (getProtocol platform j test) = { parametersOf test with
        protocol := valueOr j "udp" (fun _ => .udp)
          (valueOr j "tcp" (fun _ => .tcp) (parametersOf test).protocol) } := by
  unfold getProtocol
  dsimp only
  set t₁ := onItem j "tcp" (fun _ t => setProtocol platform .tcp t) test with ht₁
  set t₂ := onItem j "udp" (fun _ t => setProtocol platform .udp t) t₁ with ht₂
  have hp₁ : t₁.protocols = [.tcp, .udp] := by
    rw [ht₁, onItem_keeps IperfTest.protocols fun _ => protocols_setProtocol _ _ _, hp]
  have hp₂ : t₂.protocols = [.tcp, .udp] := by
    rw [ht₂, onItem_keeps IperfTest.protocols fun _ => protocols_setProtocol _ _ _, hp₁]
  have h₁ : parametersOf t₁ = { parametersOf test with
      protocol := valueOr j "tcp" (fun _ => .tcp) (parametersOf test).protocol } := by
    have hm : ProtocolId.tcp ∈ test.protocols := by simp [hp]
    exact parametersOf_onItem (fun x p => { p with protocol := x }) Parameters.protocol
      (fun _ => .tcp) (fun _ => rfl) fun _ => setProtocol_registered hm
  have h₂ : parametersOf t₂ = { parametersOf t₁ with
      protocol := valueOr j "udp" (fun _ => .udp) (parametersOf t₁).protocol } := by
    have hm : ProtocolId.udp ∈ t₁.protocols := by simp [hp₁]
    exact parametersOf_onItem (fun x p => { p with protocol := x }) Parameters.protocol
      (fun _ => .udp) (fun _ => rfl) fun _ => setProtocol_registered hm
  have hs : onItem j "sctp" (fun _ t => setProtocol platform .sctp t) t₂ = t₂ := by
    have hm : ProtocolId.sctp ∉ t₂.protocols := by simp [hp₂]
    exact onItem_keeps id fun _ => setProtocol_unregistered hm
  rw [hs]
  refine ⟨hp₂, ?_⟩
  rw [h₂, h₁]

/-- The `reverse` key moves two parameters at once. -/
theorem parametersOf_onReverse (platform : Platform) (j : CJson) (test : IperfTest) :
    parametersOf (onItem j "reverse" (fun _ t => iperfSetTestReverse platform true t) test) =
      { parametersOf test with
        reverse := valueOr j "reverse" (fun _ => true) (parametersOf test).reverse
        sender := valueOr j "reverse" (fun _ => !(parametersOf test).sender)
          (parametersOf test).sender } := by
  unfold onItem valueOr
  cases getObjectItem j "reverse" with
  | none => rfl
  | some item => exact parametersOf_reverse platform test

/-- The numeric keys, one field each: what the message sends replaces the field, and what it
does not send stays. -/
theorem getNumbers_spec (platform : Platform) (j : CJson) (test : IperfTest) :
    parametersOf (getNumbers platform j test) = { parametersOf test with
      omitSeconds := valueOr j "omit" (toInt ·.valueint) (parametersOf test).omitSeconds
      duration := valueOr j "time" (toInt ·.valueint) (parametersOf test).duration
      bytes := valueOr j "num" (toUint64 ·.valueint) (parametersOf test).bytes
      blocks := valueOr j "blockcount" (toUint64 ·.valueint) (parametersOf test).blocks
      mss := valueOr j "MSS" (toInt ·.valueint) (parametersOf test).mss
      noDelay := valueOr j "nodelay" (fun _ => true) (parametersOf test).noDelay
      numStreams := valueOr j "parallel" (toInt ·.valueint) (parametersOf test).numStreams
      reverse := valueOr j "reverse" (fun _ => true) (parametersOf test).reverse
      sender := valueOr j "reverse" (fun _ => !(parametersOf test).sender)
        (parametersOf test).sender
      socketBufsize := valueOr j "window" (toInt ·.valueint) (parametersOf test).socketBufsize
      blksize := valueOr j "len" (toInt ·.valueint) (parametersOf test).blksize
      rate := valueOr j "bandwidth" (toUint64 ·.valueint) (parametersOf test).rate
      burst := valueOr j "burst" (toInt ·.valueint) (parametersOf test).burst
      tos := valueOr j "TOS" (toInt ·.valueint) (parametersOf test).tos
      flowlabel := valueOr j "flowlabel" (toInt ·.valueint) (parametersOf test).flowlabel
      serverAffinity :=
        valueOr j "server_affinity" (toInt ·.valueint) (parametersOf test).serverAffinity } := by
  unfold getNumbers
  extract_lets t1 t2 t3 t4 t5 t6 t7 t8 t9 t10 t11 t12 t13 t14
  set t15 := onItem j "flowlabel" _ t14
  have h1 : parametersOf t1 = { parametersOf test with
      omitSeconds := valueOr j "omit" (toInt ·.valueint) (parametersOf test).omitSeconds } :=
    parametersOf_onItem (fun x p => { p with omitSeconds := x }) Parameters.omitSeconds
      (toInt ·.valueint) (fun _ => rfl) (fun _ => rfl)
  have h2 : parametersOf t2 = { parametersOf t1 with
      serverAffinity := valueOr j "server_affinity" (toInt ·.valueint)
        (parametersOf t1).serverAffinity } :=
    parametersOf_onItem (fun x p => { p with serverAffinity := x }) Parameters.serverAffinity
      (toInt ·.valueint) (fun _ => rfl) (fun _ => rfl)
  have h3 : parametersOf t3 = { parametersOf t2 with
      duration := valueOr j "time" (toInt ·.valueint) (parametersOf t2).duration } :=
    parametersOf_onItem (fun x p => { p with duration := x }) Parameters.duration
      (toInt ·.valueint) (fun _ => rfl) (fun _ => rfl)
  have h4 : parametersOf t4 = { parametersOf t3 with
      bytes := valueOr j "num" (toUint64 ·.valueint) (parametersOf t3).bytes } :=
    parametersOf_onItem (fun x p => { p with bytes := x }) Parameters.bytes
      (toUint64 ·.valueint) (fun _ => rfl) (fun _ => rfl)
  have h5 : parametersOf t5 = { parametersOf t4 with
      blocks := valueOr j "blockcount" (toUint64 ·.valueint) (parametersOf t4).blocks } :=
    parametersOf_onItem (fun x p => { p with blocks := x }) Parameters.blocks
      (toUint64 ·.valueint) (fun _ => rfl) (fun _ => rfl)
  have h6 : parametersOf t6 = { parametersOf t5 with
      mss := valueOr j "MSS" (toInt ·.valueint) (parametersOf t5).mss } :=
    parametersOf_onItem (fun x p => { p with mss := x }) Parameters.mss
      (toInt ·.valueint) (fun _ => rfl) (fun _ => rfl)
  have h7 : parametersOf t7 = { parametersOf t6 with
      noDelay := valueOr j "nodelay" (fun _ => true) (parametersOf t6).noDelay } :=
    parametersOf_onItem (fun x p => { p with noDelay := x }) Parameters.noDelay
      (fun _ => true) (fun _ => rfl) (fun _ => rfl)
  have h8 : parametersOf t8 = { parametersOf t7 with
      numStreams := valueOr j "parallel" (toInt ·.valueint) (parametersOf t7).numStreams } :=
    parametersOf_onItem (fun x p => { p with numStreams := x }) Parameters.numStreams
      (toInt ·.valueint) (fun _ => rfl) (fun _ => rfl)
  have h9 : parametersOf t9 = { parametersOf t8 with
      reverse := valueOr j "reverse" (fun _ => true) (parametersOf t8).reverse
      sender := valueOr j "reverse" (fun _ => !(parametersOf t8).sender)
        (parametersOf t8).sender } := parametersOf_onReverse platform j t8
  have h10 : parametersOf t10 = { parametersOf t9 with
      socketBufsize := valueOr j "window" (toInt ·.valueint) (parametersOf t9).socketBufsize } :=
    parametersOf_onItem (fun x p => { p with socketBufsize := x }) Parameters.socketBufsize
      (toInt ·.valueint) (fun _ => rfl) (fun _ => rfl)
  have h11 : parametersOf t11 = { parametersOf t10 with
      blksize := valueOr j "len" (toInt ·.valueint) (parametersOf t10).blksize } :=
    parametersOf_onItem (fun x p => { p with blksize := x }) Parameters.blksize
      (toInt ·.valueint) (fun _ => rfl) (fun _ => rfl)
  have h12 : parametersOf t12 = { parametersOf t11 with
      rate := valueOr j "bandwidth" (toUint64 ·.valueint) (parametersOf t11).rate } :=
    parametersOf_onItem (fun x p => { p with rate := x }) Parameters.rate
      (toUint64 ·.valueint) (fun _ => rfl) (fun _ => rfl)
  have h13 : parametersOf t13 = { parametersOf t12 with
      burst := valueOr j "burst" (toInt ·.valueint) (parametersOf t12).burst } :=
    parametersOf_onItem (fun x p => { p with burst := x }) Parameters.burst
      (toInt ·.valueint) (fun _ => rfl) (fun _ => rfl)
  have h14 : parametersOf t14 = { parametersOf t13 with
      tos := valueOr j "TOS" (toInt ·.valueint) (parametersOf t13).tos } :=
    parametersOf_onItem (fun x p => { p with tos := x }) Parameters.tos
      (toInt ·.valueint) (fun _ => rfl) (fun _ => rfl)
  have h15 : parametersOf t15 = { parametersOf t14 with
      flowlabel := valueOr j "flowlabel" (toInt ·.valueint) (parametersOf t14).flowlabel } :=
    parametersOf_onItem (fun x p => { p with flowlabel := x }) Parameters.flowlabel
      (toInt ·.valueint) (fun _ => rfl) (fun _ => rfl)
  clear_value t15 t14 t13 t12 t11 t10 t9
  ext <;> simp only [h15, h14, h13, h12, h11, h10, h9, h8, h7, h6, h5, h4, h3, h2, h1] <;> rfl

/-- The flag keys; the retransmit flag is not a parameter. -/
theorem getFlags_spec (platform : Platform) (j : CJson) (test : IperfTest) :
    parametersOf (getFlags platform j test) = { parametersOf test with
      getServerOutput := valueOr j "get_server_output" (fun _ => true)
        (parametersOf test).getServerOutput
      udpCounters64bit := valueOr j "udp_counters_64bit" (fun _ => true)
        (parametersOf test).udpCounters64bit
      noFqSocketPacing :=
        valueOr j "no_fq_socket_pacing" (fun _ => true) (parametersOf test).noFqSocketPacing } := by
  have hif : ∀ (c : Bool) (t : IperfTest),
      parametersOf (if c then { t with senderHasRetransmits := 1 } else t) = parametersOf t := by
    intro c t
    cases c with
    | false => rfl
    | true => rfl
  unfold getFlags
  dsimp only
  rw [hif]
  rw [parametersOf_onItem (fun x p => { p with noFqSocketPacing := x })
    Parameters.noFqSocketPacing (fun _ => true) (fun _ => rfl) (fun _ => rfl)]
  rw [parametersOf_onItem (fun x p => { p with udpCounters64bit := x })
    Parameters.udpCounters64bit (fun _ => true) (fun _ => rfl) (fun _ => rfl)]
  rw [parametersOf_onItem (fun x p => { p with getServerOutput := x })
    Parameters.getServerOutput (fun _ => true) (fun _ => rfl) (fun _ => rfl)]

/-- A text key that does not crash leaves its string in the field. -/
theorem onText_some {j : CJson} {key : String} {assign : String → σ → σ} {s s' : σ}
    (h : onText j key assign s = some s') :
    (getObjectItem j key = none ∧ s' = s) ∨
      ∃ item text, getObjectItem j key = some item ∧ item.valuestring = some text ∧
        s' = assign text s := by
  unfold onText at h
  cases hi : getObjectItem j key with
  | none =>
    rw [hi] at h
    exact Or.inl ⟨rfl, (Option.some.inj h).symm⟩
  | some item =>
    rw [hi] at h
    obtain ⟨text, ht, hs⟩ := Option.map_eq_some_iff.mp h
    exact Or.inr ⟨item, text, rfl, ht, hs.symm⟩

/-- The same, seen through the parameters. -/
theorem parametersOf_onText {j : CJson} {key : String} {assign : String → IperfTest → IperfTest}
    {test test' : IperfTest} (set : Option String → Parameters → Parameters)
    (get : Parameters → Option String) (hset : ∀ p, set (get p) p = p)
    (hassign : ∀ text, parametersOf (assign text test) = set (some text) (parametersOf test))
    (h : onText j key assign test = some test') :
    parametersOf test' =
      set (valueOr j key CJson.valuestring (get (parametersOf test))) (parametersOf test) := by
  unfold valueOr
  rcases onText_some h with ⟨hi, rfl⟩ | ⟨item, text, hi, ht, rfl⟩
  · rw [hi]
    dsimp only
    rw [hset]
  · rw [hi]
    dsimp only
    rw [ht, hassign]

/-- The parameters after a message are a function of the message and the parameters
before it. -/
theorem getParameters_spec {platform : Platform} {j : CJson} {test test' : IperfTest}
    (hp : test.protocols = [.tcp, .udp]) (h : getParameters platform j test = some test') :
    parametersOf test' = readParameters j (parametersOf test) := by
  unfold getParameters at h
  dsimp only at h
  obtain ⟨t₁, ht, h⟩ := Option.bind_eq_some_iff.mp h
  obtain ⟨t₂, hc, hf⟩ := Option.map_eq_some_iff.mp h
  have hproto : parametersOf (getProtocol platform j test) = _ := (getProtocol_spec hp).2
  have hnum := getNumbers_spec platform j (getProtocol platform j test)
  have htitle := parametersOf_onText (fun x p => { p with title := x }) Parameters.title
    (fun _ => rfl) (fun _ => rfl) ht
  have hcong := parametersOf_onText (fun x p => { p with congestion := x })
    Parameters.congestion (fun _ => rfl) (fun _ => rfl) hc
  have hflags := getFlags_spec platform j t₂
  rw [← hf]
  ext <;> simp only [readParameters, hflags, hcong, htitle, hnum, hproto]

/-- A text is assigned exactly if the item is missing or a text. -/
theorem onText_isSome {j : CJson} {key : String} {assign : String → σ → σ} {s : σ} :
    (∃ s', onText j key assign s = some s') ↔
      ∀ item ∈ getObjectItem j key, item.valuestring.isSome = true := by
  unfold onText
  cases hi : getObjectItem j key with
  | none => simp
  | some item => cases ht : item.valuestring <;> simp [ht]

/-- `get_parameters` gets through exactly on readable messages. -/
theorem getParameters_isSome (platform : Platform) (j : CJson) (test : IperfTest) :
    (∃ test', getParameters platform j test = some test') ↔ Readable j := by
  unfold getParameters Readable
  dsimp only
  constructor
  · rintro ⟨test', h⟩
    obtain ⟨t₁, ht, h⟩ := Option.bind_eq_some_iff.mp h
    obtain ⟨t₂, hc, -⟩ := Option.map_eq_some_iff.mp h
    have htitle := onText_isSome.mp ⟨t₁, ht⟩
    have hcong := onText_isSome.mp ⟨t₂, hc⟩
    simpa using ⟨htitle, hcong⟩
  · intro h
    have htitle := h "title" (by simp)
    have hcong := h "congestion" (by simp)
    have hfirst (t : IperfTest) : ∃ t', onText j "title" setTitle t = some t' :=
      onText_isSome.mpr htitle
    have hsecond (t : IperfTest) : ∃ t', onText j "congestion" setCongestion t = some t' :=
      onText_isSome.mpr hcong
    obtain ⟨t₁, ht⟩ := hfirst (getNumbers platform j (getProtocol platform j test))
    obtain ⟨t₂, hc⟩ := hsecond t₁
    exact ⟨getFlags platform j t₂, by rw [ht, Option.bind_some, hc, Option.map_some]⟩

/-- A message never registers a protocol, so the list of protocols is that of the server
throughout. -/
theorem protocols_getParameters {platform : Platform} {j : CJson} {test test' : IperfTest}
    (h : getParameters platform j test = some test') : test'.protocols = test.protocols := by
  have hproto : (getProtocol platform j test).protocols = test.protocols := by
    unfold getProtocol
    iterate 3
      refine Eq.trans (onItem_keeps IperfTest.protocols fun _ => protocols_setProtocol _ _ _) ?_
    rfl
  have hreverse (t : IperfTest) :
      (iperfSetTestReverse platform true t).protocols = t.protocols := by
    unfold iperfSetTestReverse
    rw [checkSenderHasRetransmits_eq]
  have hnum (t : IperfTest) : (getNumbers platform j t).protocols = t.protocols := by
    unfold getNumbers
    iterate 6 refine Eq.trans (onItem_keeps IperfTest.protocols fun _ => rfl) ?_
    refine Eq.trans (onItem_keeps IperfTest.protocols fun _ => hreverse _) ?_
    iterate 8 refine Eq.trans (onItem_keeps IperfTest.protocols fun _ => rfl) ?_
    rfl
  have hflags (t : IperfTest) : (getFlags platform j t).protocols = t.protocols := by
    unfold getFlags
    dsimp only
    rw [apply_ite IperfTest.protocols, ite_self]
    iterate 3 refine Eq.trans (onItem_keeps IperfTest.protocols fun _ => rfl) ?_
    rfl
  have htext {key : String} {assign : String → IperfTest → IperfTest} {t t' : IperfTest}
      (ha : ∀ text, (assign text t).protocols = t.protocols)
      (ho : onText j key assign t = some t') : t'.protocols = t.protocols := by
    rcases onText_some ho with ⟨-, rfl⟩ | ⟨item, text, -, -, rfl⟩
    · rfl
    · exact ha text
  unfold getParameters at h
  obtain ⟨t₁, ht, h⟩ := Option.bind_eq_some_iff.mp h
  obtain ⟨t₂, hc, rfl⟩ := Option.map_eq_some_iff.mp h
  rw [hflags, htext (fun _ => rfl) hc, htext (fun _ => rfl) ht, hnum, hproto]

/-- The reset, seen through the parameters: some of them go back to their defaults, and the
others are left as they are. -/
theorem iperfResetTest_spec (platform : Platform) {test : IperfTest}
    (hp : test.protocols = [.tcp, .udp]) :
    parametersOf (iperfResetTest platform test) = resetParameters (parametersOf test) ∧
      (iperfResetTest platform test).protocols = [.tcp, .udp] := by
  unfold iperfResetTest
  dsimp only
  set t := setProtocol platform .tcp { test with
    streams := []
    omitTimer := none
    timer := none
    statsTimer := none
    reporterTimer := none
    done := false
    role := .server
    sender := false
    senderHasRetransmits := 0 } with ht
  have hparams : parametersOf t = { parametersOf test with protocol := .tcp, sender := false } := by
    rw [ht, setProtocol_registered (by simp [hp])]
    rfl
  have hprotocols : t.protocols = [.tcp, .udp] := by
    rw [ht, protocols_setProtocol, hp]
  refine ⟨?_, hprotocols⟩
  have hprotocol : t.protocol = .tcp := congrArg Parameters.protocol hparams
  have hsender : t.sender = false := congrArg Parameters.sender hparams
  have hreset : resetParameters (parametersOf test) = resetParameters (parametersOf t) := by
    rw [hparams]
    rfl
  rw [hreset]
  unfold parametersOf resetParameters
  simp only [hprotocol, hsender]

end IperfRuntime.TestParameters
