import IperfRuntime.RoleHistory

/-!
# The parameter exchange

A client's arguments, written by `send_parameters` and read by `get_parameters` on a server
that has just been started. Every key is written under a condition that leaves it out
exactly where the receiver's default is the value. A peer that sends other types than the
program sends is treated under the reads of a message, not here.
-/

namespace IperfRuntime.ParameterExchange

open JsonTree TestState EntryPoints TestParameters RoleHistory

/-- A member that is left out without a value. -/
def optionalMember (e : String × Option CJson) : List (String × CJson) :=
  match e.2 with
  | some value => [(e.1, value)]
  | none => []

/-- Members whose names `cJSON_GetObjectItem` tells apart. -/
def Distinct (keys : List String) : Prop := keys.Pairwise fun a b => sameKey a b = false

instance (keys : List String) : Decidable (Distinct keys) :=
  inferInstanceAs (Decidable (keys.Pairwise _))

/-- A key is the same as itself. -/
theorem sameKey_self (key : String) : sameKey key key = true := beq_self_eq_true _

/-- `strcasecmp` does not depend on the order of the two keys. -/
theorem sameKey_comm (a b : String) : sameKey a b = sameKey b a := BEq.comm

/-- A member is looked up in the first list before the second. -/
theorem lookupMember_append (name : String) (first second : List (String × CJson)) :
    lookupMember name (first ++ second) =
      (lookupMember name first).or (lookupMember name second) := by
  induction first with
  | nil => rfl
  | cons e rest ih =>
    rw [List.cons_append, lookupMember, lookupMember]
    split
    · rfl
    · exact ih

/-- A member under another key is not found. -/
theorem lookupMember_other {e : String × Option CJson} {key : String}
    (h : sameKey e.1 key = false) : lookupMember key (optionalMember e) = none := by
  obtain ⟨name, value⟩ := e
  cases value with
  | none => rfl
  | some item =>
    dsimp only [optionalMember, lookupMember]
    rw [h, if_neg Bool.false_ne_true]

/-- Entries that all have other keys hold no member of the name. -/
theorem lookupMember_none {entries : List (String × Option CJson)} {key : String}
    (h : ∀ e ∈ entries, sameKey e.1 key = false) :
    lookupMember key (entries.flatMap optionalMember) = none := by
  induction entries with
  | nil => rfl
  | cons e rest ih =>
    have hrest : ∀ e ∈ rest, sameKey e.1 key = false := fun e he => h e (List.mem_cons_of_mem _ he)
    rw [List.flatMap_cons, lookupMember_append, lookupMember_other (h e List.mem_cons_self),
      ih hrest]
    rfl

/-- Among members with different names each is found with its value. -/
theorem lookupMember_optional {entries : List (String × Option CJson)}
    (h : Distinct (entries.map (·.1))) {key : String} {value : Option CJson}
    (hmem : (key, value) ∈ entries) :
    lookupMember key (entries.flatMap optionalMember) = value := by
  induction entries with
  | nil => cases hmem
  | cons e rest ih =>
    obtain ⟨hfirst, hrest⟩ := List.pairwise_cons.mp h
    rw [List.flatMap_cons, lookupMember_append]
    rcases List.mem_cons.mp hmem with rfl | hmem
    · have hlater : lookupMember key (rest.flatMap optionalMember) = none := by
        refine lookupMember_none fun e he => ?_
        rw [sameKey_comm]
        exact hfirst e.1 (List.mem_map_of_mem he)
      rw [hlater, Option.or_none]
      cases value with
      | none => rfl
      | some item =>
        dsimp only [optionalMember, lookupMember]
        rw [sameKey_self, if_pos rfl]
    · have hother : sameKey e.1 key = false := hfirst key (List.mem_map_of_mem hmem)
      rw [lookupMember_other hother, ih hrest hmem]
      rfl

/-- A number that is sent under a condition. -/
def numberIf (n : ℤ) (sent : Bool) : Option CJson := if sent then some (createNumber n) else none

def trueIf (sent : Bool) : Option CJson := if sent then some .true else none

/-- The members of `send_parameters`, in their order. -/
def parameterEntries (test : IperfTest) : List (String × Option CJson) :=
  [("tcp", trueIf (test.protocol == .tcp)),
    ("udp", trueIf (test.protocol == .udp)),
    ("sctp", trueIf (test.protocol == .sctp)),
    ("omit", numberIf test.omitSeconds true),
    ("server_affinity", numberIf test.serverAffinity (test.serverAffinity != -1)),
    ("time", numberIf test.duration (test.duration != 0)),
    ("num", numberIf test.settings.bytes (test.settings.bytes != 0)),
    ("blockcount", numberIf test.settings.blocks (test.settings.blocks != 0)),
    ("MSS", numberIf test.settings.mss (test.settings.mss != 0)),
    ("nodelay", trueIf test.noDelay),
    ("parallel", numberIf test.numStreams true),
    ("reverse", trueIf test.reverse),
    ("window", numberIf test.settings.socketBufsize (test.settings.socketBufsize != 0)),
    ("len", numberIf test.settings.blksize (test.settings.blksize != 0)),
    ("bandwidth", numberIf test.settings.rate (test.settings.rate != 0)),
    ("burst", numberIf test.settings.burst (test.settings.burst != 0)),
    ("TOS", numberIf test.settings.tos (test.settings.tos != 0)),
    ("flowlabel", numberIf test.settings.flowlabel (test.settings.flowlabel != 0)),
    ("title", test.title.map .string),
    ("congestion", test.congestion.map .string),
    ("get_server_output", numberIf 1 test.getServerOutput),
    ("udp_counters_64bit", numberIf 1 test.udpCounters64bit),
    ("no_fq_socket_pacing", numberIf 1 test.noFqSocketPacing),
    ("client_version", some (.string "3.1.3"))]

/-- A number that may be left out is an optional member. -/
theorem numberMember_eq (key : String) (n : ℤ) (sent : Bool) :
    numberMember key n sent = optionalMember (key, numberIf n sent) := by
  cases sent with
  | true => rfl
  | false => rfl

/-- So is a flag. -/
theorem trueMember_eq (key : String) (sent : Bool) :
    trueMember key sent = optionalMember (key, trueIf sent) := by
  cases sent with
  | true => rfl
  | false => rfl

/-- So is a text. -/
theorem textMember_eq (key : String) (text : Option String) :
    textMember key text = optionalMember (key, text.map .string) := by
  cases text with
  | none => rfl
  | some text => rfl

/-- The message of `send_parameters` is the table of its entries without those that are left out. -/
theorem sendParameters_eq (test : IperfTest) :
    sendParameters test = .object ((parameterEntries test).flatMap optionalMember) := by
  unfold sendParameters parameterEntries
  simp only [numberMember_eq, trueMember_eq, textMember_eq, List.flatMap_cons, List.flatMap_nil,
    List.append_assoc, List.append_nil]
  rfl

/-- What a key of the message brings. -/
theorem getObjectItem_sent {test : IperfTest} {key : String} {value : Option CJson}
    (hmem : (key, value) ∈ parameterEntries test) :
    getObjectItem (sendParameters test) key = value := by
  have hdistinct : Distinct ((parameterEntries test).map (·.1)) := by
    change Distinct ["tcp", "udp", "sctp", "omit", "server_affinity", "time", "num", "blockcount",
      "MSS", "nodelay", "parallel", "reverse", "window", "len", "bandwidth", "burst", "TOS",
      "flowlabel", "title", "congestion", "get_server_output", "udp_counters_64bit",
      "no_fq_socket_pacing", "client_version"]
    decide +kernel
  rw [sendParameters_eq]
  exact lookupMember_optional hdistinct hmem

variable {j : CJson} {key : String}

/-- A value of the type `int`. -/
def IsInt (n : ℤ) : Prop := -2 ^ 31 ≤ n ∧ n < 2 ^ 31

instance (n : ℤ) : Decidable (IsInt n) := inferInstanceAs (Decidable (_ ∧ _))

/-- A number in the range of `int` is not changed by the conversion from `int64_t`. -/
theorem toInt_of_isInt {n : ℤ} (h : IsInt n) : toInt n = n := by
  obtain ⟨hlow, hhigh⟩ := h
  unfold toInt Int.bmod
  dsimp only
  split
  · omega
  · omega

/-- A counter below 2⁵³ is not changed by the conversion to `uint64_t`. -/
theorem toUint64_of_lt {n : ℕ} (h : n < 2 ^ 53) : toUint64 n = n := by
  unfold toUint64
  omega

/-- An `int` that is left out only where it is the receiver's default. -/
theorem valueOr_int {n start : ℤ} {sent : Bool} (hitem : getObjectItem j key = numberIf n sent)
    (hn : IsInt n) (hdefault : sent = false → start = n) :
    valueOr j key (toInt ·.valueint) start = n := by
  unfold valueOr
  rw [hitem]
  cases sent with
  | true => exact toInt_of_isInt hn
  | false => exact hdefault rfl

/-- The same for a number that is stored without a sign. -/
theorem valueOr_uint64 {n start : ℕ} {sent : Bool} (hitem : getObjectItem j key = numberIf n sent)
    (hn : n < 2 ^ 53) (hdefault : sent = false → start = n) :
    valueOr j key (toUint64 ·.valueint) start = n := by
  unfold valueOr
  rw [hitem]
  cases sent with
  | true => exact toUint64_of_lt hn
  | false => exact hdefault rfl

/-- A flag that is sent has its value, and one that is left out leaves what is in force. -/
theorem valueOr_true {α : Type*} {sent : Bool} {value : α} {start : α}
    (hitem : getObjectItem j key = trueIf sent) :
    valueOr j key (fun _ => value) start = if sent then value else start := by
  unfold valueOr
  rw [hitem]
  cases sent with
  | true => rfl
  | false => rfl

/-- The flags of the later versions, sent as the number one, set a field that is false otherwise. -/
theorem valueOr_one {sent : Bool} (hitem : getObjectItem j key = numberIf 1 sent) :
    valueOr j key (fun _ => true) false = sent := by
  unfold valueOr
  rw [hitem]
  cases sent with
  | true => rfl
  | false => rfl

/-- A text that is sent is taken over, and none leaves `NULL`. -/
theorem valueOr_text {text : Option String} (hitem : getObjectItem j key = text.map .string) :
    valueOr j key CJson.valuestring none = text := by
  unfold valueOr
  rw [hitem]
  cases text with
  | none => rfl
  | some text => rfl

/-- A server that has just been started. -/
def freshServer (platform : Platform) : IperfTest :=
  iperfSetTestRole platform .server (iperfDefaults platform iperfNewTest)

/-- The parameters of such a server. -/
def freshParameters : Parameters where
  protocol := .tcp
  omitSeconds := omitDefault
  duration := durationDefault
  bytes := 0
  blocks := 0
  mss := 0
  noDelay := false
  numStreams := 1
  reverse := false
  sender := false
  socketBufsize := 0
  blksize := defaultTcpBlksize
  rate := 0
  burst := 0
  tos := 0
  flowlabel := 0
  title := none
  congestion := none
  getServerOutput := false
  udpCounters64bit := false
  noFqSocketPacing := false
  serverAffinity := -1

/-- `iperf_defaults` leaves the parameters of a fresh test. -/
theorem parametersOf_defaults (platform : Platform) :
    parametersOf (iperfDefaults platform iperfNewTest) = freshParameters := by
  unfold iperfDefaults
  rw [setProtocol_registered (by decide)]
  rfl

/-- It registers TCP and UDP, as SCTP is compiled out. -/
theorem protocols_defaults (platform : Platform) :
    (iperfDefaults platform iperfNewTest).protocols = [.tcp, .udp] := by
  unfold iperfDefaults
  rw [protocols_setProtocol]

/-- The server of `-s` has these parameters and protocols in front of its first client. -/
theorem freshServer_parameters (platform : Platform) :
    parametersOf (freshServer platform) = freshParameters ∧
      (freshServer platform).protocols = [.tcp, .udp] := by
  have hparams := parametersOf_defaults platform
  have hprotocols := protocols_defaults platform
  have hreverse : (iperfDefaults platform iperfNewTest).reverse = false :=
    congrArg Parameters.reverse hparams
  have hserver : parametersOf (freshServer platform) =
      { parametersOf (iperfDefaults platform iperfNewTest) with sender := false } := by
    unfold freshServer iperfSetTestRole
    rw [checkSenderHasRetransmits_eq, hreverse]
    rfl
  refine ⟨by rw [hserver, hparams]; rfl, ?_⟩
  unfold freshServer iperfSetTestRole
  rw [checkSenderHasRetransmits_eq]
  exact hprotocols

/-- The numbers of a test in the ranges of their types; the 64 bit ones are exact as
doubles. -/
structure Representable (test : IperfTest) : Prop where
  omitSeconds : IsInt test.omitSeconds
  serverAffinity : IsInt test.serverAffinity
  duration : IsInt test.duration
  mss : IsInt test.settings.mss
  numStreams : IsInt test.numStreams
  socketBufsize : IsInt test.settings.socketBufsize
  blksize : IsInt test.settings.blksize
  burst : IsInt test.settings.burst
  tos : IsInt test.settings.tos
  flowlabel : IsInt test.settings.flowlabel
  bytes : test.settings.bytes < 2 ^ 53
  blocks : test.settings.blocks < 2 ^ 53
  rate : test.settings.rate < 2 ^ 53

section Sent

variable {test : IperfTest} {key : String}

/-- A number that is always sent arrives. -/
theorem sent_always {n start : ℤ} (hmem : (key, numberIf n true) ∈ parameterEntries test)
    (hn : IsInt n) : valueOr (sendParameters test) key (toInt ·.valueint) start = n :=
  valueOr_int (getObjectItem_sent hmem) hn fun hsent => Bool.noConfusion hsent

/-- A number that is left out arrives as the value that it is left out for. -/
theorem sent_int {n start : ℤ} (hmem : (key, numberIf n (n != start)) ∈ parameterEntries test)
    (hn : IsInt n) : valueOr (sendParameters test) key (toInt ·.valueint) start = n :=
  valueOr_int (getObjectItem_sent hmem) hn fun hsent => (bne_eq_false_iff_eq.mp hsent).symm

/-- The same for a number without a sign. -/
theorem sent_uint64 {n : ℕ} (hmem : (key, numberIf n (n != 0)) ∈ parameterEntries test)
    (hn : n < 2 ^ 53) : valueOr (sendParameters test) key (toUint64 ·.valueint) 0 = n :=
  valueOr_uint64 (getObjectItem_sent hmem) hn fun hsent => (bne_eq_false_iff_eq.mp hsent).symm

/-- A flag that is sent as `true` arrives. -/
theorem sent_flag {flag : Bool} (hmem : (key, trueIf flag) ∈ parameterEntries test) :
    valueOr (sendParameters test) key (fun _ => true) false = flag := by
  rw [valueOr_true (getObjectItem_sent hmem)]
  simp

/-- A flag that is sent as the number one arrives. -/
theorem sent_one {flag : Bool} (hmem : (key, numberIf 1 flag) ∈ parameterEntries test) :
    valueOr (sendParameters test) key (fun _ => true) false = flag :=
  valueOr_one (getObjectItem_sent hmem)

/-- A text arrives. -/
theorem sent_text {text : Option String}
    (hmem : (key, text.map .string) ∈ parameterEntries test) :
    valueOr (sendParameters test) key CJson.valuestring none = text :=
  valueOr_text (getObjectItem_sent hmem)

/-- The block size arrives unless it is zero, which no accepted test has. -/
theorem sent_blksize (hn : IsInt test.settings.blksize) (hne : test.settings.blksize ≠ 0) :
    valueOr (sendParameters test) "len" (toInt ·.valueint) defaultTcpBlksize =
      test.settings.blksize := by
  refine valueOr_int (getObjectItem_sent (List.mem_of_getElem? (i := 13) rfl)) hn fun hsent => ?_
  exact absurd (bne_eq_false_iff_eq.mp hsent) hne

/-- The duration arrives unless it is zero: the server keeps its default then. -/
theorem sent_duration (hn : IsInt test.duration) :
    valueOr (sendParameters test) "time" (toInt ·.valueint) durationDefault =
      if test.duration = 0 then durationDefault else test.duration := by
  have hitem : getObjectItem (sendParameters test) "time" =
      numberIf test.duration (test.duration != 0) :=
    getObjectItem_sent (List.mem_of_getElem? (i := 5) rfl)
  split
  · rename_i hzero
    rw [hzero] at hitem
    unfold valueOr
    rw [hitem]
    rfl
  · rename_i hnot
    exact valueOr_int hitem hn fun hnone => absurd (bne_eq_false_iff_eq.mp hnone) hnot

/-- The protocol arrives: the last of the keys that are there decides. -/
theorem sent_protocol (hprotocol : test.protocol = .tcp ∨ test.protocol = .udp) :
    valueOr (sendParameters test) "udp" (fun _ => ProtocolId.udp)
      (valueOr (sendParameters test) "tcp" (fun _ => .tcp) .tcp) = test.protocol := by
  have htcp : getObjectItem (sendParameters test) "tcp" = trueIf (test.protocol == .tcp) :=
    getObjectItem_sent (List.mem_of_getElem? (i := 0) rfl)
  have hudp : getObjectItem (sendParameters test) "udp" = trueIf (test.protocol == .udp) :=
    getObjectItem_sent (List.mem_of_getElem? (i := 1) rfl)
  rw [valueOr_true hudp, valueOr_true htcp]
  rcases hprotocol with hp | hp
  · rw [hp]
    rfl
  · rw [hp]
    rfl

end Sent

/-- A fresh server reads what the client wrote, field by field; what is not sent is what the
server has as its default. -/
theorem readParameters_sent {test : IperfTest} (h : Representable test)
    (hprotocol : test.protocol = .tcp ∨ test.protocol = .udp)
    (hblksize : test.settings.blksize ≠ 0) :
    readParameters (sendParameters test) freshParameters = { parametersOf test with
      duration := if test.duration = 0 then durationDefault else test.duration
      sender := test.reverse } := by
  have hentry : ∀ {i : ℕ} {e : String × Option CJson}, (parameterEntries test)[i]? = some e →
      e ∈ parameterEntries test := List.mem_of_getElem?
  apply Parameters.ext <;> dsimp only [readParameters, freshParameters, parametersOf]
  case protocol => exact sent_protocol hprotocol
  case omitSeconds => exact sent_always (hentry (i := 3) rfl) h.omitSeconds
  case duration => exact sent_duration h.duration
  case bytes => exact sent_uint64 (hentry (i := 6) rfl) h.bytes
  case blocks => exact sent_uint64 (hentry (i := 7) rfl) h.blocks
  case mss => exact sent_int (hentry (i := 8) rfl) h.mss
  case noDelay => exact sent_flag (hentry (i := 9) rfl)
  case numStreams => exact sent_always (hentry (i := 10) rfl) h.numStreams
  case reverse => exact sent_flag (hentry (i := 11) rfl)
  case sender => exact sent_flag (hentry (i := 11) rfl)
  case socketBufsize => exact sent_int (hentry (i := 12) rfl) h.socketBufsize
  case blksize => exact sent_blksize h.blksize hblksize
  case rate => exact sent_uint64 (hentry (i := 14) rfl) h.rate
  case burst => exact sent_int (hentry (i := 15) rfl) h.burst
  case tos => exact sent_int (hentry (i := 16) rfl) h.tos
  case flowlabel => exact sent_int (hentry (i := 17) rfl) h.flowlabel
  case title => exact sent_text (hentry (i := 18) rfl)
  case congestion => exact sent_text (hentry (i := 19) rfl)
  case getServerOutput => exact sent_one (hentry (i := 20) rfl)
  case udpCounters64bit => exact sent_one (hentry (i := 21) rfl)
  case noFqSocketPacing => exact sent_one (hentry (i := 22) rfl)
  case serverAffinity => exact sent_int (hentry (i := 4) rfl) h.serverAffinity

/-- Where the option loop stands as far as the direction goes: the rest of the options
reverses a plain test at most once. -/
structure Directed (test : IperfTest) (rest : List CliOption) : Prop where
  protocol : test.protocol = .tcp ∨ test.protocol = .udp
  registered : test.protocols = [.tcp, .udp]
  sender : test.role ≠ .unset → test.sender = sends test.role test.reverse
  plain : rest.count .reverse ≤ if test.reverse then 0 else 1

variable {platform : Platform}

/-- An assignment to other fields. -/
theorem Directed.same {test test' : IperfTest} {o : CliOption} {rest : List CliOption}
    (h : Directed test (o :: rest)) (hrole : test'.role = test.role)
    (hsender : test'.sender = test.sender) (hreverse : test'.reverse = test.reverse)
    (hprotocol : test'.protocol = test.protocol) (hprotocols : test'.protocols = test.protocols) :
    Directed test' rest where
  protocol := by
    rw [hprotocol]
    exact h.protocol
  registered := hprotocols.trans h.registered
  sender := by
    rw [hrole, hsender, hreverse]
    exact h.sender
  plain := by
    rw [hreverse]
    exact (List.count_le_count_cons ..).trans h.plain

/-- Choosing a role gives the sender the direction that goes with it. -/
theorem Directed.setRole {test : IperfTest} {o : CliOption} {rest : List CliOption}
    (h : Directed test (o :: rest)) (server : Bool) :
    Directed (iperfSetTestRole platform (if server then .server else .client) test) rest := by
  obtain ⟨hrole, hreverse, hsender⟩ := iperfSetTestRole_spec platform server test
  have hkept : (iperfSetTestRole platform (if server then .server else .client) test).protocol =
        test.protocol ∧
      (iperfSetTestRole platform (if server then .server else .client) test).protocols =
        test.protocols := by
    unfold iperfSetTestRole
    rw [checkSenderHasRetransmits_eq]
    exact ⟨rfl, rfl⟩
  refine ⟨by rw [hkept.1]; exact h.protocol, hkept.2.trans h.registered, fun _ => ?_, ?_⟩
  · rw [hrole, hreverse, hsender]
  · rw [hreverse]
    exact (List.count_le_count_cons ..).trans h.plain

/-- Reversing a plain test turns the sender around, once. A second reversal is not covered, as
it would turn it back. -/
theorem Directed.setReverse {test : IperfTest} {rest : List CliOption}
    (h : Directed test (.reverse :: rest)) :
    Directed (iperfSetTestReverse platform true test) rest := by
  obtain ⟨hrole, hreverse, hsender⟩ := iperfSetTestReverse_spec platform true test
  have hcount := h.plain
  rw [List.count_cons_self] at hcount
  have hplain : test.reverse = false := by
    cases hr : test.reverse with
    | false => rfl
    | true =>
      rw [hr, if_pos rfl] at hcount
      omega
  have hkept : (iperfSetTestReverse platform true test).protocol = test.protocol ∧
      (iperfSetTestReverse platform true test).protocols = test.protocols := by
    unfold iperfSetTestReverse
    rw [checkSenderHasRetransmits_eq]
    exact ⟨rfl, rfl⟩
  refine ⟨by rw [hkept.1]; exact h.protocol, hkept.2.trans h.registered, ?_, ?_⟩
  · intro hset
    rw [hrole] at hset ⊢
    rw [hreverse, hsender]
    exact (sends_toggle hset test.sender test.reverse true).mpr
      ⟨fun _ => hplain, fun _ => h.sender hset⟩
  · rw [hreverse, if_pos rfl]
    rw [hplain, if_neg Bool.false_ne_true] at hcount
    omega

/-- The protocol plays no part in the direction. -/
theorem Directed.setUdp {test : IperfTest} {o : CliOption} {rest : List CliOption}
    (h : Directed test (o :: rest)) : Directed (setProtocol platform .udp test) rest := by
  unfold setProtocol
  rw [if_pos (by rw [h.registered]; decide), checkSenderHasRetransmits_eq]
  exact ⟨Or.inr rfl, h.registered, h.sender, (List.count_le_count_cons ..).trans h.plain⟩

/-- One option keeps the two ends directed: only the role and the direction move the sender.
-/
theorem parseOption_directed {s s' : ParseState} {o : CliOption} {rest : List CliOption}
    (h : Directed s.test (o :: rest)) (hp : parseOption platform s o = .ok s') :
    Directed s'.test rest := by
  cases o with
  | version => cases hp
  | flowlabel => cases hp
  | affinity => cases hp
  | congestion => cases hp
  | noFqSocketPacing => cases hp
  | help => cases hp
  | server =>
    obtain ⟨-, rfl⟩ := check_ok hp
    exact h.setRole true
  | client host =>
    obtain ⟨-, rfl⟩ := check_ok hp
    have hclient : Directed (iperfSetTestRole platform .client s.test) rest := h.setRole false
    exact ⟨hclient.protocol, hclient.registered, hclient.sender, hclient.plain⟩
  | udp =>
    cases hp
    exact h.setUdp
  | reverse =>
    cases hp
    exact h.setReverse
  | interval | bandwidth | time | parallel | window | setMss | tos | xbind | omitSeconds =>
    obtain ⟨-, rfl⟩ := check_ok hp
    exact h.same rfl rfl rfl rfl rfl
  | port | format | daemon | oneOff | verbose | json | bytes | blockcount | length | bind |
    clientPort | noDelay | version4 | version6 | zerocopy | file | title | debug | pidfile |
    logfile | getServerOutput | udpCounters64bit | tmpPath =>
    cases hp
    exact h.same rfl rfl rfl rfl rfl

/-- Behind the option loop the sender is the one that role and direction name. -/
theorem parseOptions_directed {options : List CliOption} {s s' : ParseState}
    (h : Directed s.test options) (hp : parseOptions platform options s = .ok s') :
    Directed s'.test [] := by
  induction options generalizing s with
  | nil =>
    cases hp
    exact h
  | cons o rest ih =>
    unfold parseOptions at hp
    cases ho : parseOption platform s o with
    | error e =>
      rw [ho] at hp
      cases hp
    | ok s₁ =>
      rw [ho] at hp
      exact ih (parseOption_directed h ho) hp

/-- `set_protocol` leaves the role alone. -/
theorem role_setProtocol (platform : Platform) (protocol : ProtocolId) (test : IperfTest) :
    (setProtocol platform protocol test).role = test.role := by
  unfold setProtocol
  split
  · rw [checkSenderHasRetransmits_eq]
  · rfl

/-- What the argument parser guarantees about the two ends: with one `-R` at most the
direction and the sender agree, and the block size is positive. -/
theorem iperfParseArguments_directed {options : List CliOption} {test : IperfTest}
    (honce : options.count .reverse ≤ 1)
    (hargs : iperfParseArguments platform options (iperfDefaults platform iperfNewTest) =
      .ok test) :
    Directed test [] ∧ 0 < test.settings.blksize := by
  have hparams := parametersOf_defaults platform
  have hprotocol : (iperfDefaults platform iperfNewTest).protocol = .tcp :=
    congrArg Parameters.protocol hparams
  have hreverse : (iperfDefaults platform iperfNewTest).reverse = false :=
    congrArg Parameters.reverse hparams
  have hrole : (iperfDefaults platform iperfNewTest).role = .unset := by
    unfold iperfDefaults
    rw [role_setProtocol]
    rfl
  have hstart : Directed (iperfDefaults platform iperfNewTest) options :=
    ⟨Or.inl hprotocol, protocols_defaults platform, fun hset => absurd hrole hset, by
      rw [hreverse, if_neg Bool.false_ne_true]
      exact honce⟩
  unfold iperfParseArguments at hargs
  cases ho : parseOptions platform options { test := iperfDefaults platform iperfNewTest } with
  | error e =>
    rw [ho] at hargs
    cases hargs
  | ok s =>
    rw [ho] at hargs
    have hs : Directed s.test [] := parseOptions_directed hstart ho
    have hchecked := finishArguments_checked hargs
    obtain ⟨rfl, -⟩ := finishArguments_ok hargs
    exact ⟨⟨hs.protocol, hs.registered, hs.sender, hs.plain⟩, hchecked.blksize_pos⟩

/-- The texts are sent as strings. -/
theorem readable_sent (test : IperfTest) : Readable (sendParameters test) := by
  have htitle : getObjectItem (sendParameters test) "title" = test.title.map .string :=
    getObjectItem_sent (List.mem_of_getElem? (i := 18) rfl)
  have hcongestion : getObjectItem (sendParameters test) "congestion" =
      test.congestion.map .string :=
    getObjectItem_sent (List.mem_of_getElem? (i := 19) rfl)
  have hstring : ∀ (text : Option String), ∀ item ∈ text.map CJson.string,
      item.valuestring.isSome = true := by
    intro text item hitem
    obtain ⟨value, -, rfl⟩ := Option.map_eq_some_iff.mp hitem
    rfl
  intro key hkey
  rcases List.mem_cons.mp hkey with rfl | hkey
  · rw [htitle]
    exact hstring test.title
  · rw [List.mem_singleton.mp hkey, hcongestion]
    exact hstring test.congestion

/-- The parameters of an accepted client arrive on a fresh server, which takes the other
end; a client without a duration leaves the server its default. -/
theorem parameters_arrive {platform' : Platform} {options : List CliOption} {test : IperfTest}
    (hargs : iperfParseArguments platform options (iperfDefaults platform iperfNewTest) = .ok test)
    (hclient : test.role = .client) (honce : options.count .reverse ≤ 1)
    (hrange : Representable test) :
    ∃ server, getParameters platform' (sendParameters test) (freshServer platform') = some server ∧
      parametersOf server = { parametersOf test with
        duration := if test.duration = 0 then durationDefault else test.duration
        sender := !test.sender } := by
  obtain ⟨hdirected, hblksize⟩ := iperfParseArguments_directed honce hargs
  have hsender : test.sender = !test.reverse := by
    have h := hdirected.sender (by rw [hclient]; decide)
    rw [hclient] at h
    exact h
  have hreadable : Readable (sendParameters test) := readable_sent test
  obtain ⟨hfresh, hregistered⟩ := freshServer_parameters platform'
  obtain ⟨server, hserver⟩ :=
    (getParameters_isSome platform' (sendParameters test) (freshServer platform')).mpr hreadable
  refine ⟨server, hserver, ?_⟩
  rw [getParameters_spec hregistered hserver, hfresh,
    readParameters_sent hrange hdirected.protocol hblksize.ne', hsender, Bool.not_not]

/-- The client of `-c 10.0.0.1 -R -P 4 -O 2`. -/
def reversedOptions : List CliOption :=
  [.client "10.0.0.1", .reverse, .parallel 4, .omitSeconds 2]

/-- The test these options are accepted as. -/
def reversedClient : IperfTest :=
  finishParameters { test := { iperfSetTestReverse ⟨false, false, fun h => h⟩ true
    { iperfSetTestRole ⟨false, false, fun h => h⟩ .client
        (iperfDefaults ⟨false, false, fun h => h⟩ iperfNewTest) with
      serverHostname := some "10.0.0.1" } with numStreams := 4, omitSeconds := 2 } }
    defaultTcpBlksize

/-- The parameters of a reversed test with four streams, which a fresh server has then but for the
duration. -/
theorem reversedClient_arrives :
    ∃ server, getParameters ⟨true, true, fun h => h⟩ (sendParameters reversedClient)
        (freshServer ⟨true, true, fun h => h⟩) = some server ∧
      parametersOf server = { parametersOf reversedClient with
        duration := if reversedClient.duration = 0 then durationDefault
          else reversedClient.duration
        sender := !reversedClient.sender } := by
  have hargs : iperfParseArguments ⟨false, false, fun h => h⟩ reversedOptions
      (iperfDefaults ⟨false, false, fun h => h⟩ iperfNewTest) = .ok reversedClient := rfl
  have hrange : Representable reversedClient := by
    constructor <;> decide
  exact parameters_arrive hargs rfl (by decide) hrange

end IperfRuntime.ParameterExchange
