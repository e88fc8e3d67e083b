import IperfRuntime.TestParameters

/-!
# Successive server tests

The server loop of `main.c`: one client after another on one test structure, with
`iperf_reset_test` in between. A parameter is carried over when the reset leaves
it alone and the next message lacks its key. What a session does besides reading
its parameters enters only through the parameters it leaves.
-/

namespace IperfRuntime.ServerSessions

open JsonTree TestState EntryPoints TestParameters

/-- One client of a server. -/
structure Session where
  /-- The parameter message, when one arrives and parses. -/
  params : Option CJson
  /-- Everything the session does afterwards. -/
  rest : IperfTest → IperfTest
  /-- Only `get_parameters` writes the parameters. -/
  keeps : ∀ test, parametersOf (rest test) = parametersOf test
  /-- Only `iperf_defaults` registers protocols. -/
  keepsProtocols : ∀ test, (rest test).protocols = test.protocols

/-- A session that ends with its parameter exchange. -/
def Session.ofMessage (j : CJson) : Session := ⟨some j, id, fun _ => rfl, fun _ => rfl⟩

/-- A session without a message changes no parameter. -/
def Session.run (platform : Platform) (s : Session) (test : IperfTest) : Option IperfTest :=
  match s.params with
  | some j => (getParameters platform j test).map s.rest
  | none => some (s.rest test)

/-- Every further client finds the test reset. -/
def laterClients (platform : Platform) : List Session → IperfTest → Option IperfTest
  | [], test => some test
  | s :: history, test =>
    (s.run platform (iperfResetTest platform test)).bind (laterClients platform history)

/-- The first client finds the test as the command line left it. -/
def earlierClients (platform : Platform) : List Session → IperfTest → Option IperfTest
  | [], test => some test
  | s :: history, test => (s.run platform test).bind (laterClients platform history)

/-- The test of the next client, once its parameters are read. -/
def nextTest (platform : Platform) (history : List Session) (j : CJson) (test : IperfTest) :
    Option IperfTest :=
  (earlierClients platform history test).bind fun test =>
    getParameters platform j (iperfResetTest platform test)

/-- Two histories leave the next client the same parameters. -/
def SameNextTest (platform : Platform) (test : IperfTest) (h₁ h₂ : List Session) (j : CJson) :
    Prop :=
  ∀ n₁ n₂, nextTest platform h₁ j test = some n₁ → nextTest platform h₂ j test = some n₂ →
    parametersOf n₁ = parametersOf n₂

/-- No session of the history crashes the server. -/
def Accepted (history : List Session) : Prop := ∀ s ∈ history, ∀ j ∈ s.params, Readable j

variable {α : Type*}

/-- The value that the messages of a history bring under a key, the last one counting. -/
def left (key : String) (value : CJson → α) : List Session → α → α
  | [], start => start
  | s :: history, start =>
    left key value history
      (match s.params with
      | some j => valueOr j key value start
      | none => start)

/-- The next message has the key, or both histories left the same value. -/
def Settled (h₁ h₂ : List Session) (j : CJson) (key : String) (value : CJson → α) (start : α) :
    Prop :=
  Sends j key ∨ left key value h₁ start = left key value h₂ start

/-- The eight parameters that pass through the reset are settled. -/
structure NoCarryOver (test : IperfTest) (h₁ h₂ : List Session) (j : CJson) : Prop where
  num : Settled h₁ h₂ j "num" (toUint64 ·.valueint) test.settings.bytes
  blockcount : Settled h₁ h₂ j "blockcount" (toUint64 ·.valueint) test.settings.blocks
  tos : Settled h₁ h₂ j "TOS" (toInt ·.valueint) test.settings.tos
  flowlabel : Settled h₁ h₂ j "flowlabel" (toInt ·.valueint) test.settings.flowlabel
  title : Settled h₁ h₂ j "title" CJson.valuestring test.title
  congestion : Settled h₁ h₂ j "congestion" CJson.valuestring test.congestion
  getServerOutput : Settled h₁ h₂ j "get_server_output" (fun _ => true) test.getServerOutput
  noFqSocketPacing :
    Settled h₁ h₂ j "no_fq_socket_pacing" (fun _ => true) test.noFqSocketPacing

/-- A parameter that a message sets through one key and the reset leaves alone. -/
structure CarriedParameter (α : Type*) where
  key : String
  value : CJson → α
  get : Parameters → α
  read : ∀ j p, get (readParameters j p) = valueOr j key value (get p)
  reset : ∀ p, get (resetParameters p) = get p

def carriedBytes : CarriedParameter ℕ :=
  ⟨"num", (toUint64 ·.valueint), Parameters.bytes, fun _ _ => rfl, fun _ => rfl⟩

def carriedBlocks : CarriedParameter ℕ :=
  ⟨"blockcount", (toUint64 ·.valueint), Parameters.blocks, fun _ _ => rfl, fun _ => rfl⟩

def carriedTos : CarriedParameter ℤ :=
  ⟨"TOS", (toInt ·.valueint), Parameters.tos, fun _ _ => rfl, fun _ => rfl⟩

def carriedFlowlabel : CarriedParameter ℤ :=
  ⟨"flowlabel", (toInt ·.valueint), Parameters.flowlabel, fun _ _ => rfl, fun _ => rfl⟩

def carriedTitle : CarriedParameter (Option String) :=
  ⟨"title", CJson.valuestring, Parameters.title, fun _ _ => rfl, fun _ => rfl⟩

def carriedCongestion : CarriedParameter (Option String) :=
  ⟨"congestion", CJson.valuestring, Parameters.congestion, fun _ _ => rfl, fun _ => rfl⟩

def carriedGetServerOutput : CarriedParameter Bool :=
  ⟨"get_server_output", fun _ => true, Parameters.getServerOutput, fun _ _ => rfl, fun _ => rfl⟩

def carriedNoFqSocketPacing : CarriedParameter Bool :=
  ⟨"no_fq_socket_pacing", fun _ => true, Parameters.noFqSocketPacing, fun _ _ => rfl,
    fun _ => rfl⟩

/-- What one session does to a carried parameter. -/
theorem Session.run_carried {platform : Platform} {s : Session} {test test' : IperfTest}
    (c : CarriedParameter α) (hp : test.protocols = [.tcp, .udp])
    (h : s.run platform test = some test') :
    test'.protocols = [.tcp, .udp] ∧
      c.get (parametersOf test') = (match s.params with
        | some j => valueOr j c.key c.value (c.get (parametersOf test))
        | none => c.get (parametersOf test)) := by
  unfold Session.run at h
  cases hj : s.params with
  | none =>
    rw [hj] at h
    have ht : s.rest test = test' := Option.some.inj h
    rw [← ht, s.keepsProtocols, s.keeps]
    exact ⟨hp, rfl⟩
  | some j =>
    rw [hj] at h
    obtain ⟨t, hg, ht⟩ := Option.map_eq_some_iff.mp h
    have hparams := getParameters_spec hp hg
    have hprotocols := protocols_getParameters hg
    rw [← ht, s.keepsProtocols, s.keeps, hprotocols, hparams]
    exact ⟨hp, c.read j _⟩

/-- The further clients of a history leave what their messages bring. -/
theorem laterClients_carried {platform : Platform} {history : List Session}
    {test test' : IperfTest} (c : CarriedParameter α) (hp : test.protocols = [.tcp, .udp])
    (h : laterClients platform history test = some test') :
    test'.protocols = [.tcp, .udp] ∧
      c.get (parametersOf test') = left c.key c.value history (c.get (parametersOf test)) := by
  induction history generalizing test with
  | nil =>
    have ht : test = test' := Option.some.inj h
    rw [← ht]
    exact ⟨hp, rfl⟩
  | cons s history ih =>
    obtain ⟨t, hs, hl⟩ := Option.bind_eq_some_iff.mp h
    obtain ⟨hreset, hprotocols⟩ := iperfResetTest_spec platform hp
    obtain ⟨htp, htc⟩ := Session.run_carried c hprotocols hs
    obtain ⟨hp', hc'⟩ := ih htp hl
    refine ⟨hp', ?_⟩
    rw [hc', htc, hreset, c.reset]
    rfl

/-- All earlier clients leave what their messages bring. -/
theorem earlierClients_carried {platform : Platform} {history : List Session}
    {test test' : IperfTest} (c : CarriedParameter α) (hp : test.protocols = [.tcp, .udp])
    (h : earlierClients platform history test = some test') :
    test'.protocols = [.tcp, .udp] ∧
      c.get (parametersOf test') = left c.key c.value history (c.get (parametersOf test)) := by
  cases history with
  | nil =>
    have ht : test = test' := Option.some.inj h
    rw [← ht]
    exact ⟨hp, rfl⟩
  | cons s history =>
    obtain ⟨t, hs, hl⟩ := Option.bind_eq_some_iff.mp h
    obtain ⟨htp, htc⟩ := Session.run_carried c hp hs
    obtain ⟨hp', hc'⟩ := laterClients_carried c htp hl
    refine ⟨hp', ?_⟩
    rw [hc', htc]
    rfl

/-- A session survives exactly a readable message. -/
theorem Session.run_isSome (platform : Platform) (s : Session) (test : IperfTest) :
    (∃ test', s.run platform test = some test') ↔ ∀ j ∈ s.params, Readable j := by
  unfold Session.run
  cases hj : s.params with
  | none => simp
  | some j =>
    have hg := getParameters_isSome platform j test
    constructor
    · rintro ⟨test', h⟩
      obtain ⟨t, ht, -⟩ := Option.map_eq_some_iff.mp h
      have hr : Readable j := hg.mp ⟨t, ht⟩
      intro j' hj'
      rw [← Option.some.inj hj']
      exact hr
    · intro h
      obtain ⟨t, ht⟩ := hg.mpr (h j rfl)
      refine ⟨s.rest t, ?_⟩
      dsimp only
      rw [ht, Option.map_some]

/-- The server is there for the next client exactly if it has accepted those before. -/
theorem laterClients_isSome (platform : Platform) (history : List Session) (test : IperfTest) :
    (∃ test', laterClients platform history test = some test') ↔ Accepted history := by
  induction history generalizing test with
  | nil => simp [laterClients, Accepted]
  | cons s history ih =>
    have hs := Session.run_isSome platform s (iperfResetTest platform test)
    have hc : Accepted (s :: history) ↔ (∀ j ∈ s.params, Readable j) ∧ Accepted history := by
      simp [Accepted]
    rw [hc, ← hs]
    constructor
    · rintro ⟨test', h⟩
      obtain ⟨t, ht, hl⟩ := Option.bind_eq_some_iff.mp h
      exact ⟨⟨t, ht⟩, (ih t).mp ⟨test', hl⟩⟩
    · rintro ⟨⟨t, ht⟩, ha⟩
      obtain ⟨test', hl⟩ := (ih t).mpr ha
      exact ⟨test', by rw [laterClients, ht, Option.bind_some, hl]⟩

/-- A server lives through a history exactly when it can read every message. -/
theorem earlierClients_isSome (platform : Platform) (history : List Session) (test : IperfTest) :
    (∃ test', earlierClients platform history test = some test') ↔ Accepted history := by
  cases history with
  | nil => simp [earlierClients, Accepted]
  | cons s history =>
    have hs := Session.run_isSome platform s test
    have hc : Accepted (s :: history) ↔ (∀ j ∈ s.params, Readable j) ∧ Accepted history := by
      simp [Accepted]
    rw [hc, ← hs]
    constructor
    · rintro ⟨test', h⟩
      obtain ⟨t, ht, hl⟩ := Option.bind_eq_some_iff.mp h
      exact ⟨⟨t, ht⟩, (laterClients_isSome platform history t).mp ⟨test', hl⟩⟩
    · rintro ⟨⟨t, ht⟩, ha⟩
      obtain ⟨test', hl⟩ := (laterClients_isSome platform history t).mpr ha
      exact ⟨test', by rw [earlierClients, ht, Option.bind_some, hl]⟩

/-- A next test starts from the reset of what the earlier clients left. -/
theorem nextTest_some {platform : Platform} {history : List Session} {j : CJson}
    {test n : IperfTest} (hp : test.protocols = [.tcp, .udp])
    (h : nextTest platform history j test = some n) :
    ∃ t, earlierClients platform history test = some t ∧
      parametersOf n = readParameters j (resetParameters (parametersOf t)) := by
  obtain ⟨t, ht, hn⟩ := Option.bind_eq_some_iff.mp h
  obtain ⟨hprotocols, -⟩ := earlierClients_carried carriedBytes hp ht
  obtain ⟨hreset, hreg⟩ := iperfResetTest_spec platform hprotocols
  have hread := getParameters_spec hreg hn
  refine ⟨t, ht, ?_⟩
  rw [hread, hreset]

/-- A carried parameter of the next test. -/
theorem nextTest_carried {platform : Platform} {history : List Session} {j : CJson}
    {test n : IperfTest} (c : CarriedParameter α) (hp : test.protocols = [.tcp, .udp])
    (h : nextTest platform history j test = some n) :
    c.get (parametersOf n) =
      valueOr j c.key c.value (left c.key c.value history (c.get (parametersOf test))) := by
  obtain ⟨t, ht, hn⟩ := nextTest_some hp h
  obtain ⟨-, hc⟩ := earlierClients_carried c hp ht
  rw [hn, c.read, c.reset, hc]

/-- What a message sends does not depend on what was there before. -/
theorem valueOr_sends {j : CJson} {key : String} {value : CJson → α} (h : Sends j key)
    (x y : α) : valueOr j key value x = valueOr j key value y := by
  obtain ⟨item, hi⟩ := Option.isSome_iff_exists.mp h
  unfold valueOr
  rw [hi]

/-- What it does not send stays as it was. -/
theorem valueOr_lacks {j : CJson} {key : String} {value : CJson → α} (h : ¬Sends j key)
    (x : α) : valueOr j key value x = x := by
  have hi : getObjectItem j key = none := by simpa [Sends] using h
  unfold valueOr
  rw [hi]

/-- A carried parameter agrees in both next tests exactly when it is settled. -/
theorem carried_agree_iff {platform : Platform} {h₁ h₂ : List Session} {j : CJson}
    {test n₁ n₂ : IperfTest} (c : CarriedParameter α) (hp : test.protocols = [.tcp, .udp])
    (hn₁ : nextTest platform h₁ j test = some n₁) (hn₂ : nextTest platform h₂ j test = some n₂) :
    c.get (parametersOf n₁) = c.get (parametersOf n₂) ↔
      Settled h₁ h₂ j c.key c.value (c.get (parametersOf test)) := by
  rw [nextTest_carried c hp hn₁, nextTest_carried c hp hn₂]
  unfold Settled
  by_cases hs : Sends j c.key
  · constructor
    · intro _
      exact Or.inl hs
    · intro _
      exact valueOr_sends hs _ _
  · rw [valueOr_lacks hs, valueOr_lacks hs]
    constructor
    · intro he
      exact Or.inr he
    · rintro (hk | he)
      · exact absurd hk hs
      · exact he

/-- The restored parameters agree anyway, so the next tests agree exactly when the
carried parameters do. -/
theorem next_parameters_iff {platform : Platform} {h₁ h₂ : List Session} {j : CJson}
    {test n₁ n₂ : IperfTest} (hp : test.protocols = [.tcp, .udp])
    (hn₁ : nextTest platform h₁ j test = some n₁) (hn₂ : nextTest platform h₂ j test = some n₂) :
    parametersOf n₁ = parametersOf n₂ ↔ NoCarryOver test h₁ h₂ j := by
  constructor
  · intro he
    constructor
    · exact (carried_agree_iff carriedBytes hp hn₁ hn₂).mp (by rw [he])
    · exact (carried_agree_iff carriedBlocks hp hn₁ hn₂).mp (by rw [he])
    · exact (carried_agree_iff carriedTos hp hn₁ hn₂).mp (by rw [he])
    · exact (carried_agree_iff carriedFlowlabel hp hn₁ hn₂).mp (by rw [he])
    · exact (carried_agree_iff carriedTitle hp hn₁ hn₂).mp (by rw [he])
    · exact (carried_agree_iff carriedCongestion hp hn₁ hn₂).mp (by rw [he])
    · exact (carried_agree_iff carriedGetServerOutput hp hn₁ hn₂).mp (by rw [he])
    · exact (carried_agree_iff carriedNoFqSocketPacing hp hn₁ hn₂).mp (by rw [he])
  · intro hc
    have hbytes := (carried_agree_iff carriedBytes hp hn₁ hn₂).mpr hc.num
    have hblocks := (carried_agree_iff carriedBlocks hp hn₁ hn₂).mpr hc.blockcount
    have htos := (carried_agree_iff carriedTos hp hn₁ hn₂).mpr hc.tos
    have hflow := (carried_agree_iff carriedFlowlabel hp hn₁ hn₂).mpr hc.flowlabel
    have htitle := (carried_agree_iff carriedTitle hp hn₁ hn₂).mpr hc.title
    have hcong := (carried_agree_iff carriedCongestion hp hn₁ hn₂).mpr hc.congestion
    have hout := (carried_agree_iff carriedGetServerOutput hp hn₁ hn₂).mpr hc.getServerOutput
    have hpace := (carried_agree_iff carriedNoFqSocketPacing hp hn₁ hn₂).mpr hc.noFqSocketPacing
    obtain ⟨t₁, -, hr₁⟩ := nextTest_some hp hn₁
    obtain ⟨t₂, -, hr₂⟩ := nextTest_some hp hn₂
    ext1
    case bytes => exact hbytes
    case blocks => exact hblocks
    case tos => exact htos
    case flowlabel => exact hflow
    case title => exact htitle
    case congestion => exact hcong
    case getServerOutput => exact hout
    case noFqSocketPacing => exact hpace
    all_goals
      rw [hr₁, hr₂]
      rfl

/-- For a server with any accepted arguments, two histories leave the next client the
same parameters exactly when, the messages being readable, every carried key is in
the next message or was left with the same value by both histories. -/
theorem next_client_isolated_iff {platform : Platform} {options : List CliOption}
    {server : IperfTest}
    (hs : iperfParseArguments platform options (iperfDefaults platform iperfNewTest) = .ok server)
    (h₁ h₂ : List Session) (j : CJson) :
    SameNextTest platform server h₁ h₂ j ↔
      (Accepted h₁ → Accepted h₂ → Readable j → NoCarryOver server h₁ h₂ j) := by
  have hbuilt := iperfParseArguments_asBuilt (asBuilt_defaults platform) hs
  have hp := hbuilt.protocols
  constructor
  · intro hsame ha₁ ha₂ hj
    obtain ⟨t₁, ht₁⟩ := (earlierClients_isSome platform h₁ server).mpr ha₁
    obtain ⟨t₂, ht₂⟩ := (earlierClients_isSome platform h₂ server).mpr ha₂
    obtain ⟨n₁, hg₁⟩ := (getParameters_isSome platform j (iperfResetTest platform t₁)).mpr hj
    obtain ⟨n₂, hg₂⟩ := (getParameters_isSome platform j (iperfResetTest platform t₂)).mpr hj
    have hn₁ : nextTest platform h₁ j server = some n₁ := by
      rw [nextTest, ht₁, Option.bind_some, hg₁]
    have hn₂ : nextTest platform h₂ j server = some n₂ := by
      rw [nextTest, ht₂, Option.bind_some, hg₂]
    exact (next_parameters_iff hp hn₁ hn₂).mp (hsame n₁ n₂ hn₁ hn₂)
  · intro hcond n₁ n₂ hn₁ hn₂
    obtain ⟨t₁, ht₁, hg₁⟩ := Option.bind_eq_some_iff.mp hn₁
    obtain ⟨t₂, ht₂, -⟩ := Option.bind_eq_some_iff.mp hn₂
    have ha₁ := (earlierClients_isSome platform h₁ server).mp ⟨t₁, ht₁⟩
    have ha₂ := (earlierClients_isSome platform h₂ server).mp ⟨t₂, ht₂⟩
    have hj := (getParameters_isSome platform j _).mp ⟨n₁, hg₁⟩
    exact (next_parameters_iff hp hn₁ hn₂).mpr (hcond ha₁ ha₂ hj)

/-- A platform with the full `TCP_INFO`. -/
def fullPlatform : Platform := ⟨true, true, fun _ => rfl⟩

/-- A client with `-n` behind one with `-n` and behind one without, on a plain server: the
message of the next client names its limit, so both histories leave it the same parameters. -/
theorem next_client_isolated_limited :
    ∃ server limited plain : IperfTest,
      iperfParseArguments fullPlatform [.server]
          (iperfDefaults fullPlatform iperfNewTest) = .ok server ∧
      iperfParseArguments fullPlatform [.client "server", .bytes 1000000]
          (iperfDefaults fullPlatform iperfNewTest) = .ok limited ∧
      iperfParseArguments fullPlatform [.client "server"]
          (iperfDefaults fullPlatform iperfNewTest) = .ok plain ∧
      SameNextTest fullPlatform server [Session.ofMessage (sendParameters limited)]
        [Session.ofMessage (sendParameters plain)] (sendParameters limited) := by
  refine ⟨_, _, _, rfl, rfl, rfl,
    (@next_client_isolated_iff fullPlatform [.server] _ rfl _ _ _).mpr fun _ _ _ => ?_⟩
  exact ⟨Or.inl rfl, Or.inr rfl, Or.inr rfl, Or.inr rfl, Or.inr rfl, Or.inr rfl, Or.inr rfl,
    Or.inr rfl⟩

/-- The byte limit of a client with `-n` ends the test of the next plain client, which
without that history would run for its ten seconds. -/
theorem byte_limit_carried_over :
    ∃ server limited plain : IperfTest,
      iperfParseArguments fullPlatform [.server]
          (iperfDefaults fullPlatform iperfNewTest) = .ok server ∧
      iperfParseArguments fullPlatform [.client "server", .bytes 1000000]
          (iperfDefaults fullPlatform iperfNewTest) = .ok limited ∧
      iperfParseArguments fullPlatform [.client "server"]
          (iperfDefaults fullPlatform iperfNewTest) = .ok plain ∧
      ¬SameNextTest fullPlatform server [Session.ofMessage (sendParameters limited)]
        [Session.ofMessage (sendParameters plain)] (sendParameters plain) := by
  refine ⟨_, _, _, rfl, rfl, rfl, ?_⟩
  intro hsame
  have hbytes := congrArg Parameters.bytes (hsame _ _ rfl rfl)
  exact absurd hbytes (by decide)

end IperfRuntime.ServerSessions
