import IperfRuntime.TestState
import Mathlib.Tactic.NormNum

/-!
# Entry points

The two ways in which a test gets its parameters: `iperf_parse_arguments` for the
command line and `parse_java_config` for a native call. Option arguments arrive
converted to numbers; `getopt_long` and the conversions themselves are not
modelled. Options whose support is compiled out in `iperf_config.h` end in
`IEUNIMP`, and long options that are compiled out do not exist.
-/

namespace IperfRuntime.EntryPoints

open TestState

/-- `MIN_INTERVAL`. -/
def minInterval : ℚ := 1 / 10

/-- `MAX_INTERVAL`. -/
def maxInterval : ℚ := 60

/-- `MAX_BLOCKSIZE`. -/
def maxBlocksize : ℤ := 1024 * 1024

/-- `MAX_UDP_BLOCKSIZE`. -/
def maxUdpBlocksize : ℤ := 65535 - 8 - 20

/-- `MAX_TCP_BUFFER`. -/
def maxTcpBuffer : ℤ := 512 * (1024 * 1024)

/-- `MAX_TIME`. -/
def maxTime : ℤ := 86400

/-- `MAX_BURST`. -/
def maxBurst : ℤ := 1000

/-- `MAX_MSS`. -/
def maxMss : ℤ := 9 * 1024

/-- `MAX_STREAMS`. -/
def maxStreams : ℤ := 128

/-- Why `iperf_parse_arguments` did not fill in the test. -/
inductive ArgumentError where
  /-- `SAFE_EXIT` of a command process. -/
  | exited
  | ieservclient
  | ienorole
  | ieserveronly
  | ieclientonly
  | ieduration
  | ienumstreams
  | ieblocksize
  | iebufsize
  | ieinterval
  | iemss
  | ienosendfile
  | ieomit
  | ieunimp
  | ielogfile
  | ieburst
  | ieendconditions
  | ieudpblocksize
  | iebadtos
  | iesetsctpbindx
  | iebind
  deriving DecidableEq, Repr

/-- The options that `getopt_long` can deliver in this build. -/
inductive CliOption where
  | port (optarg : ℤ)
  | format (optarg : Char)
  | interval (optarg : ℚ)
  | daemon
  | oneOff
  | verbose
  | json
  | version
  | server
  | client (host : String)
  | udp
  /-- `-b rate/burst`; the burst is read before the rate. -/
  | bandwidth (rate : ℕ) (burst : Option ℤ)
  | time (optarg : ℤ)
  | bytes (optarg : ℕ)
  | blockcount (optarg : ℕ)
  | length (optarg : ℤ)
  | parallel (optarg : ℤ)
  | reverse
  | window (optarg : ℤ)
  | bind (host : String)
  | clientPort (optarg : ℤ)
  | setMss (optarg : ℤ)
  | noDelay
  | version4
  | version6
  /-- `-S`; `parsed` tells that `strtol` consumed a digit. -/
  | tos (parsed : Bool) (optarg : ℤ)
  | flowlabel
  /-- `-X`, which allocates an entry. -/
  | xbind (malloc : Bool)
  | zerocopy
  | omitSeconds (optarg : ℤ)
  | file (name : String)
  | affinity
  | title (text : String)
  | congestion
  | debug
  | pidfile
  /-- `--logfile`; `opens` tells that `fopen` will succeed. -/
  | logfile (opens : Bool)
  | getServerOutput
  | udpCounters64bit
  | noFqSocketPacing
  | tmpPath (template : String)
  | help
  deriving DecidableEq

/-- The locals of `iperf_parse_arguments` with the test being filled in. -/
structure ParseState where
  test : IperfTest
  blksize : ℤ := 0
  serverFlag : Bool := false
  clientFlag : Bool := false
  rateFlag : Bool := false
  durationFlag : Bool := false
  /-- Whether the log file in force can be opened. -/
  logfile : Option Bool := none

/-- A range check after an assignment. -/
def check (bad : Bool) (error : ArgumentError) (s : ParseState) :
    Except ArgumentError ParseState :=
  if bad then .error error else .ok s

/-- A check that passes changes nothing. -/
theorem check_ok {bad : Bool} {error : ArgumentError} {s s' : ParseState}
    (h : check bad error s = .ok s') : bad = false ∧ s = s' := by
  unfold check at h
  split at h
  · cases h
  · rename_i hb
    cases h
    exact ⟨by simpa using hb, rfl⟩

/-- The settings with other limits on rate and burst. -/
def setBandwidth (rate : ℕ) (burst : Option ℤ) (settings : IperfSettings) : IperfSettings :=
  { settings with rate := rate, burst := burst.getD settings.burst }

/-- One round of the option switch. -/
def parseOption (platform : Platform) (s : ParseState) :
    CliOption → Except ArgumentError ParseState
  | .port optarg => .ok { s with test := { s.test with serverPort := optarg } }
  | .format optarg =>
    .ok { s with test :=
      { s.test with settings := { s.test.settings with unitFormat := optarg } } }
  | .interval optarg =>
    check ((decide (optarg < minInterval) || decide (maxInterval < optarg)) && decide (optarg ≠ 0))
      .ieinterval
      { s with test := { s.test with statsInterval := optarg, reporterInterval := optarg } }
  | .daemon => .ok { s with test := { s.test with daemon := true }, serverFlag := true }
  | .oneOff => .ok { s with test := { s.test with oneOff := true }, serverFlag := true }
  | .verbose => .ok { s with test := { s.test with verbose := true } }
  | .json => .ok { s with test := { s.test with jsonOutput := true } }
  | .version => .error .exited
  | .server =>
    check (decide (s.test.role = .client)) .ieservclient
      { s with test := iperfSetTestRole platform .server s.test }
  | .client host =>
    check (decide (s.test.role = .server)) .ieservclient
      { s with test :=
        { iperfSetTestRole platform .client s.test with serverHostname := some host } }
  | .udp => .ok { s with test := setProtocol platform .udp s.test, clientFlag := true }
  | .bandwidth rate burst =>
    check (burst.any fun b => decide (b ≤ 0) || decide (maxBurst < b)) .ieburst
      { s with
        test := { s.test with settings := setBandwidth rate burst s.test.settings }
        rateFlag := true, clientFlag := true }
  | .time optarg =>
    check (decide (maxTime < optarg)) .ieduration
      { s with test := { s.test with duration := optarg }
               durationFlag := true, clientFlag := true }
  | .bytes optarg =>
    .ok { s with test := { s.test with settings := { s.test.settings with bytes := optarg } }
                 clientFlag := true }
  | .blockcount optarg =>
    .ok { s with test := { s.test with settings := { s.test.settings with blocks := optarg } }
                 clientFlag := true }
  | .length optarg => .ok { s with blksize := optarg, clientFlag := true }
  | .parallel optarg =>
    check (decide (maxStreams < optarg)) .ienumstreams
      { s with test := { s.test with numStreams := optarg }, clientFlag := true }
  | .reverse =>
    .ok { s with test := iperfSetTestReverse platform true s.test, clientFlag := true }
  | .window optarg =>
    check (decide (maxTcpBuffer < optarg)) .iebufsize
      { s with
        test := { s.test with settings := { s.test.settings with socketBufsize := optarg } }
        clientFlag := true }
  | .bind host => .ok { s with test := { s.test with bindAddress := some host } }
  | .clientPort optarg => .ok { s with test := { s.test with bindPort := optarg } }
  | .setMss optarg =>
    check (decide (maxMss < optarg)) .iemss
      { s with test := { s.test with settings := { s.test.settings with mss := optarg } }
               clientFlag := true }
  | .noDelay => .ok { s with test := { s.test with noDelay := true }, clientFlag := true }
  | .version4 => .ok s
  | .version6 => .ok s
  | .tos parsed optarg =>
    check (!parsed || decide (optarg < 0) || decide (255 < optarg)) .iebadtos
      { s with test := { s.test with settings := { s.test.settings with tos := optarg } }
               clientFlag := true }
  | .flowlabel => .error .ieunimp
  | .xbind malloc => check (!malloc) .iesetsctpbindx s
  | .zerocopy => .ok { s with test := { s.test with zerocopy := true }, clientFlag := true }
  | .omitSeconds optarg =>
    check (decide (optarg < 0) || decide (60 < optarg)) .ieomit
      { s with test := { s.test with omitSeconds := optarg }, clientFlag := true }
  | .file name => .ok { s with test := { s.test with diskfileName := some name } }
  | .affinity => .error .ieunimp
  | .title text => .ok { s with test := { s.test with title := some text }, clientFlag := true }
  | .congestion => .error .ieunimp
  | .debug => .ok { s with test := { s.test with debug := true } }
  | .pidfile => .ok { s with serverFlag := true }
  | .logfile opens => .ok { s with logfile := some opens }
  | .getServerOutput =>
    .ok { s with test := { s.test with getServerOutput := true }, clientFlag := true }
  | .udpCounters64bit => .ok { s with test := { s.test with udpCounters64bit := true } }
  | .noFqSocketPacing => .error .ieunimp
  | .tmpPath template => .ok { s with test := { s.test with tmpTemplate := some template } }
  | .help => .error .exited

/-- The option loop. -/
def parseOptions (platform : Platform) :
    List CliOption → ParseState → Except ArgumentError ParseState
  | [], s => .ok s
  | o :: rest, s =>
    match parseOption platform s o with
    | .error e => .error e
    | .ok s' => parseOptions platform rest s'

/-- The default block size of a protocol. -/
def defaultBlksize : ProtocolId → ℤ
  | .udp => defaultUdpBlksize
  | .sctp => defaultSctpBlksize
  | .tcp => defaultTcpBlksize

/-- The assignments behind the checks on block size and roles. -/
def finishParameters (s : ParseState) (blksize : ℤ) : IperfTest :=
  let settings := { s.test.settings with
    blksize := blksize
    rate := if s.rateFlag then s.test.settings.rate
      else if s.test.protocol == .udp then udpRate else 0 }
  { s.test with
    settings := settings
    duration :=
      if (settings.bytes != 0 || settings.blocks != 0) && !s.durationFlag then 0
      else s.test.duration }

/-- What `iperf_parse_arguments` does once the options are read. -/
def finishArguments (s : ParseState) : Except ArgumentError IperfTest :=
  let blksize := if s.blksize = 0 then defaultBlksize s.test.protocol else s.blksize
  let test := finishParameters s blksize
  if s.logfile = some false then .error .ielogfile
  else if s.test.role = .client ∧ s.serverFlag then .error .ieserveronly
  else if s.test.role = .server ∧ s.clientFlag then .error .ieclientonly
  else if s.test.bindAddress.isNone ∧ s.test.bindPort ≠ 0 then .error .iebind
  else if blksize ≤ 0 ∨ maxBlocksize < blksize then .error .ieblocksize
  else if s.test.protocol = .udp ∧ maxUdpBlocksize < blksize then .error .ieudpblocksize
  else if s.durationFlag ∧ test.settings.bytes ≠ 0 ∨ s.durationFlag ∧ test.settings.blocks ≠ 0 ∨
      test.settings.bytes ≠ 0 ∧ test.settings.blocks ≠ 0 then .error .ieendconditions
  else if test.role = .unset then .error .ienorole
  else .ok test

/-- `iperf_parse_arguments`. -/
def iperfParseArguments (platform : Platform) (options : List CliOption) (test : IperfTest) :
    Except ArgumentError IperfTest :=
  match parseOptions platform options { test := test } with
  | .error e => .error e
  | .ok s => finishArguments s

/-- The fields of `Iperf3Config` that the native side reads. -/
structure Iperf3Config where
  serverAddr : String
  serverPort : ℤ
  isDownMode : Bool
  interval : ℚ
  /-- A signed 64 bit `long`. -/
  bandwidth : ℤ
  /-- A 16 bit `char`, of which the cast keeps one byte. -/
  formatUnit : ℕ
  parallels : ℤ

/-- `parse_java_config`; `tmpPath` is the path below the package directory. -/
def parseJavaConfig (platform : Platform) (config : Iperf3Config) (tmpPath : String)
    (test : IperfTest) : IperfTest :=
  let test := iperfSetTestRole platform .client test
  let test := { test with
    serverHostname := some config.serverAddr
    serverPort := config.serverPort }
  let test := if config.isDownMode then iperfSetTestReverse platform true test else test
  { test with
    settings := { test.settings with
      rate := (config.bandwidth % 2 ^ 64).toNat
      unitFormat := Char.ofNat (config.formatUnit % 256) }
    numStreams := config.parallels
    tmpTemplate := some tmpPath
    statsInterval := config.interval
    reporterInterval := config.interval }

/-- What no option of this build and no configuration field can change. -/
structure AsBuilt (test : IperfTest) : Prop where
  /-- Both protocols of the build are registered. -/
  protocols : test.protocols = [.tcp, .udp]
  /-- Throttling is left to the send timers. -/
  pacing : test.noFqSocketPacing = false

/-- A new test with its defaults is as built. -/
theorem asBuilt_defaults (platform : Platform) :
    AsBuilt (iperfDefaults platform iperfNewTest) := by
  constructor
  · rfl
  · rfl

/-- Setting the role leaves it so. -/
theorem AsBuilt.role {test : IperfTest} (h : AsBuilt test) (platform : Platform) (role : Role) :
    AsBuilt (iperfSetTestRole platform role test) := by
  unfold iperfSetTestRole
  rw [checkSenderHasRetransmits_eq]
  exact ⟨h.protocols, h.pacing⟩

/-- Setting the direction leaves it so. -/
theorem AsBuilt.reverse {test : IperfTest} (h : AsBuilt test) (platform : Platform)
    (reverse : Bool) : AsBuilt (iperfSetTestReverse platform reverse test) := by
  unfold iperfSetTestReverse
  rw [checkSenderHasRetransmits_eq]
  exact ⟨h.protocols, h.pacing⟩

/-- So does setting the protocol. -/
theorem AsBuilt.protocol {test : IperfTest} (h : AsBuilt test) (platform : Platform)
    (protocol : ProtocolId) : AsBuilt (setProtocol platform protocol test) := by
  unfold setProtocol
  split
  · rw [checkSenderHasRetransmits_eq]
    exact ⟨h.protocols, h.pacing⟩
  · exact h

/-- The option switch keeps what no option touches, `multisend` and the pacing flag among
them; an option that fails has no state to speak of. -/
theorem parseOption_asBuilt {platform : Platform} {s s' : ParseState} {o : CliOption}
    (h : AsBuilt s.test) (hp : parseOption platform s o = .ok s') : AsBuilt s'.test := by
  have same : ∀ {t : IperfTest}, t.protocols = s.test.protocols →
      t.noFqSocketPacing = s.test.noFqSocketPacing → AsBuilt t := by
    intro t ht hn
    exact ⟨ht.trans h.protocols, hn.trans h.pacing⟩
  cases o with
  | version => cases hp
  | flowlabel => cases hp
  | affinity => cases hp
  | congestion => cases hp
  | noFqSocketPacing => cases hp
  | help => cases hp
  | server =>
    obtain ⟨-, rfl⟩ := check_ok hp
    exact h.role platform .server
  | client host =>
    obtain ⟨-, rfl⟩ := check_ok hp
    exact ⟨(h.role platform .client).protocols, (h.role platform .client).pacing⟩
  | udp =>
    cases hp
    exact h.protocol platform .udp
  | reverse =>
    cases hp
    exact h.reverse platform true
  | interval | bandwidth | time | parallel | window | setMss | tos | xbind | omitSeconds =>
    obtain ⟨-, rfl⟩ := check_ok hp
    exact same rfl rfl
  | port | format | daemon | oneOff | verbose | json | bytes | blockcount | length | bind |
    clientPort | noDelay | version4 | version6 | zerocopy | file | title | debug | pidfile |
    logfile | getServerOutput | udpCounters64bit | tmpPath =>
    cases hp
    exact same rfl rfl

/-- The options leave what they do not name as built. -/
theorem parseOptions_asBuilt {platform : Platform} {options : List CliOption}
    {s s' : ParseState} (h : AsBuilt s.test)
    (hp : parseOptions platform options s = .ok s') : AsBuilt s'.test := by
  induction options generalizing s with
  | nil =>
    cases hp
    exact h
  | cons o rest ih =>
    unfold parseOptions at hp
    cases ho : parseOption platform s o with
    | error e =>
      rw [ho] at hp
      cases hp
    | ok s₁ =>
      rw [ho] at hp
      have h₁ : AsBuilt s₁.test := parseOption_asBuilt h ho
      exact ih h₁ hp

/-- Accepted arguments leave the parameters that `finishParameters` computed. -/
theorem finishArguments_ok {s : ParseState} {test : IperfTest}
    (h : finishArguments s = .ok test) :
    test = finishParameters s
        (if s.blksize = 0 then defaultBlksize s.test.protocol else s.blksize) ∧
      ¬(s.test.role = .server ∧ s.clientFlag = true) := by
  unfold finishArguments at h
  dsimp only at h
  by_cases hr : s.test.role = .server ∧ s.clientFlag = true
  · rw [if_pos hr] at h
    split_ifs at h
  · refine ⟨?_, hr⟩
    generalize (if s.blksize = 0 then defaultBlksize s.test.protocol else s.blksize) = b at h ⊢
    split_ifs at h
    cases h
    rfl

/-- The checks behind the option loop. -/
structure ArgumentsChecked (s : ParseState) (test : IperfTest) : Prop where
  blksize_pos : 0 < test.settings.blksize
  blksize_le : test.settings.blksize ≤ maxBlocksize
  udp_blksize_le : test.protocol = .udp → test.settings.blksize ≤ maxUdpBlocksize
  ends : ¬(s.durationFlag = true ∧ test.settings.bytes ≠ 0 ∨
    s.durationFlag = true ∧ test.settings.blocks ≠ 0 ∨
    test.settings.bytes ≠ 0 ∧ test.settings.blocks ≠ 0)
  role : test.role ≠ .unset

/-- Arguments that are accepted have passed the checks at the end. -/
theorem finishArguments_checked {s : ParseState} {test : IperfTest}
    (h : finishArguments s = .ok test) : ArgumentsChecked s test := by
  unfold finishArguments at h
  dsimp only at h
  generalize (if s.blksize = 0 then defaultBlksize s.test.protocol else s.blksize) = b at h
  split_ifs at h with _ _ _ _ hsize hudp hends hrole
  cases h
  push Not at hsize
  refine ⟨hsize.1, hsize.2, ?_, hends, hrole⟩
  intro hprotocol
  by_contra hlarge
  exact hudp ⟨hprotocol, not_le.mp hlarge⟩

/-- Parsed arguments leave the build's choices alone. -/
theorem iperfParseArguments_asBuilt {platform : Platform} {options : List CliOption}
    {test test' : IperfTest} (h : AsBuilt test)
    (hp : iperfParseArguments platform options test = .ok test') : AsBuilt test' := by
  unfold iperfParseArguments at hp
  cases ho : parseOptions platform options { test := test } with
  | error e =>
    rw [ho] at hp
    cases hp
  | ok s =>
    rw [ho] at hp
    have hs : AsBuilt s.test := parseOptions_asBuilt h ho
    obtain ⟨ht, -⟩ := finishArguments_ok hp
    rw [ht]
    exact ⟨hs.protocols, hs.pacing⟩

/-- A native configuration leaves the build's choices alone. -/
theorem parseJavaConfig_asBuilt {platform : Platform} {test : IperfTest} (h : AsBuilt test)
    (config : Iperf3Config) (tmpPath : String) :
    AsBuilt (parseJavaConfig platform config tmpPath test) := by
  have hr := h.role platform .client
  unfold parseJavaConfig
  dsimp only
  split
  · have hs : AsBuilt { iperfSetTestRole platform .client test with
        serverHostname := some config.serverAddr, serverPort := config.serverPort } :=
      ⟨hr.protocols, hr.pacing⟩
    have hv := hs.reverse platform true
    exact ⟨hv.protocols, hv.pacing⟩
  · exact ⟨hr.protocols, hr.pacing⟩

end IperfRuntime.EntryPoints
