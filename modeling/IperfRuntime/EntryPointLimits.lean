import IperfRuntime.OptionText
import IperfRuntime.ParameterLimits
import IperfRuntime.JniExec
import Mathlib.Data.Finset.Erase

/-!
# Limits at the entry points

`iperf_parse_arguments` from the texts of its options, and `exec` from a configuration whose
interval is any double. The option loop is followed on the numbers it sets: one lemma says
what an accepted option does to them, one induction which option counts. Texts that are no
numbers are read as `atoi` and `strtod` read them; options that end the program are rejected
here.
-/

namespace IperfRuntime.EntryPointLimits

open TestState EntryPoints TestParameters ParameterExchange OptionText ParameterLimits

/-- The fields that are set through `sscanf`. -/
inductive NumericField where
  | rate
  | bytes
  | blocks
  | blksize
  | socketBufsize
  deriving DecidableEq

/-- The options whose argument is a number of the test. -/
def readsNumber : CliOption → Bool
  | .interval _ => true
  | .bandwidth _ _ => true
  | .time _ => true
  | .bytes _ => true
  | .blockcount _ => true
  | .length _ => true
  | .parallel _ => true
  | .window _ => true
  | .setMss _ => true
  | .omitSeconds _ => true
  | _ => false

/-- An option with its argument as text. -/
inductive TextOption where
  | interval (optarg : String)
  | bandwidth (optarg : String)
  | time (optarg : String)
  | bytes (optarg : String)
  | blockcount (optarg : String)
  | length (optarg : String)
  | parallel (optarg : String)
  | window (optarg : String)
  | setMss (optarg : String)
  | omitSeconds (optarg : String)
  | other (o : CliOption) (h : readsNumber o = false)

/-- The state of the option loop. -/
structure ArgvState where
  parse : ParseState
  /-- `stats_interval`, which can be no number at all. -/
  statsInterval : Double := .number 1
  reporterInterval : Double := .number 1
  /-- Fields left with what the stack held. -/
  unset : Finset NumericField := ∅

/-- The text before the first `/` of `-b`, and the text behind it. -/
def splitSlash (s : String) : String × Option String :=
  match s.toList.dropWhile (· != '/') with
  | _ :: burst => (String.ofList (s.toList.takeWhile (· != '/')), some (String.ofList burst))
  | [] => (s, none)

/-- The fields left unset when a text is scanned into one of them. -/
def scanned (field : NumericField) (s : String) (unset : Finset NumericField) :
    Finset NumericField :=
  if scans s then unset.erase field else insert field unset

/-- A round of the switch on converted arguments. -/
def ArgvState.accept (platform : Platform) (s : ArgvState) (o : CliOption)
    (unset : Finset NumericField) : Except ArgumentError ArgvState :=
  (parseOption platform s.parse o).map fun p => { s with parse := p, unset := unset }

/-- A round of the option switch; `n` is what the stack of `units.c` holds. -/
def parseText (machine : Machine) (platform : Platform) (n : Double) (s : ArgvState) :
    TextOption → Except ArgumentError ArgvState
  | .interval optarg =>
    match atof optarg with
    | .number value =>
      (parseOption platform s.parse (.interval value)).map fun p =>
        { s with parse := p, statsInterval := .number value, reporterInterval := .number value }
    | .infinite _ => .error .ieinterval
    | .nan => .ok { s with statsInterval := .nan, reporterInterval := .nan }
  | .bandwidth optarg =>
    s.accept platform
      (.bandwidth (machine.toUint64 (unitAtofRate n (splitSlash optarg).1))
        ((splitSlash optarg).2.map (atoi machine)))
      (scanned .rate (splitSlash optarg).1 s.unset)
  | .time optarg => s.accept platform (.time (atoi machine optarg)) s.unset
  | .bytes optarg =>
    s.accept platform (.bytes (unitAtoi machine n optarg)) (scanned .bytes optarg s.unset)
  | .blockcount optarg =>
    s.accept platform (.blockcount (unitAtoi machine n optarg)) (scanned .blocks optarg s.unset)
  | .length optarg =>
    s.accept platform (.length (TestParameters.toInt (unitAtoi machine n optarg)))
      (scanned .blksize optarg s.unset)
  | .parallel optarg => s.accept platform (.parallel (atoi machine optarg)) s.unset
  | .window optarg =>
    s.accept platform (.window (machine.toInt (unitAtof n optarg)))
      (scanned .socketBufsize optarg s.unset)
  | .setMss optarg => s.accept platform (.setMss (atoi machine optarg)) s.unset
  | .omitSeconds optarg => s.accept platform (.omitSeconds (atoi machine optarg)) s.unset
  | .other o _ => s.accept platform o s.unset

/-- The option loop; each option comes with what the stack holds at its conversion. -/
def parseTexts (machine : Machine) (platform : Platform) :
    List (Double × TextOption) → ArgvState → Except ArgumentError ArgvState
  | [], s => .ok s
  | o :: rest, s =>
    match parseText machine platform o.1 s o.2 with
    | .error e => .error e
    | .ok s' => parseTexts machine platform rest s'

/-- A client as an entry point leaves it. -/
structure ClientTest where
  test : IperfTest
  statsInterval : Double
  reporterInterval : Double
  /-- Whether a duration was asked for. -/
  explicitDuration : Bool
  /-- Fields left with what the stack held. -/
  unset : Finset NumericField

/-- `iperf_parse_arguments` on a new test with its defaults. -/
def parseArgv (machine : Machine) (platform : Platform) (options : List (Double × TextOption)) :
    Except ArgumentError ClientTest :=
  match parseTexts machine platform options
      { parse := { test := iperfDefaults platform iperfNewTest } } with
  | .error e => .error e
  | .ok s => (finishArguments s.parse).map fun test =>
      ⟨test, s.statsInterval, s.reporterInterval, s.parse.durationFlag, s.unset⟩

/-- A configuration whose interval is any double. -/
structure JavaConfig where
  interval : Double
  others : Iperf3Config

/-- The value of a double that has one. -/
def rational : Double → ℚ
  | .number value => value
  | _ => 0

/-- The test `exec` hands to `iperf_run_client`; nothing on the way looks at it. -/
def parseConfig (platform : Platform) (config : JavaConfig) (tmpPath : String) : ClientTest where
  test := parseJavaConfig platform { config.others with interval := rational config.interval }
    tmpPath (iperfDefaults platform iperfNewTest)
  statsInterval := config.interval
  reporterInterval := config.interval
  explicitDuration := false
  unset := ∅

/-- This is the test of a native call, for a configuration whose interval is a number. -/
theorem preparedTest_parseConfig (platform : Platform) (input : JniExec.ExecInput) :
    JniExec.preparedTest platform input =
      { (parseConfig platform ⟨.number input.config.interval, input.config⟩ input.tmpPath).test with
        jniCallback := true } := rfl

/-- Zero, or from `MIN_INTERVAL` to `MAX_INTERVAL`. -/
def LegalInterval : Double → Prop
  | .number value => value = 0 ∨ minInterval ≤ value ∧ value ≤ maxInterval
  | _ => False

/-- A test that an entry point may let through. -/
structure Legal (t : ClientTest) : Prop where
  intervals : t.statsInterval = t.reporterInterval
  interval : LegalInterval t.statsInterval
  streams : 1 ≤ t.test.numStreams ∧ t.test.numStreams ≤ maxStreams
  duration : 0 ≤ t.test.duration ∧ t.test.duration ≤ maxTime
  blksize : 0 < t.test.settings.blksize ∧ t.test.settings.blksize ≤ maxBlocksize
  udpBlksize : t.test.protocol = .udp → t.test.settings.blksize ≤ maxUdpBlocksize
  mss : 0 ≤ t.test.settings.mss ∧ t.test.settings.mss ≤ maxMss
  socketBufsize : 0 ≤ t.test.settings.socketBufsize ∧
    t.test.settings.socketBufsize ≤ maxTcpBuffer
  burst : 0 ≤ t.test.settings.burst ∧ t.test.settings.burst ≤ maxBurst
  /-- At most one of the three end conditions is set. -/
  ends : ¬(t.explicitDuration = true ∧ t.test.settings.bytes ≠ 0) ∧
    ¬(t.explicitDuration = true ∧ t.test.settings.blocks ≠ 0) ∧
    ¬(t.test.settings.bytes ≠ 0 ∧ t.test.settings.blocks ≠ 0)
  determined : t.unset = ∅

/-- The numbers of the option loop. -/
@[ext]
structure Numbers where
  statsInterval : Double
  reporterInterval : Double
  numStreams : ℤ
  duration : ℤ
  durationFlag : Bool
  mss : ℤ
  socketBufsize : ℤ
  burst : ℤ
  unset : Finset NumericField

/-- The numbers of a state. -/
def numbersOf (s : ArgvState) : Numbers where
  statsInterval := s.statsInterval
  reporterInterval := s.reporterInterval
  numStreams := s.parse.test.numStreams
  duration := s.parse.test.duration
  durationFlag := s.parse.durationFlag
  mss := s.parse.test.settings.mss
  socketBufsize := s.parse.test.settings.socketBufsize
  burst := s.parse.test.settings.burst
  unset := s.unset

/-- What an option does to the numbers. -/
def assign (machine : Machine) (n : Double) (m : Numbers) : TextOption → Numbers
  | .interval optarg => { m with statsInterval := atof optarg, reporterInterval := atof optarg }
  | .bandwidth optarg =>
    { m with burst := ((splitSlash optarg).2.map (atoi machine)).getD m.burst
             unset := scanned .rate (splitSlash optarg).1 m.unset }
  | .time optarg => { m with duration := atoi machine optarg, durationFlag := true }
  | .bytes optarg => { m with unset := scanned .bytes optarg m.unset }
  | .blockcount optarg => { m with unset := scanned .blocks optarg m.unset }
  | .length optarg => { m with unset := scanned .blksize optarg m.unset }
  | .parallel optarg => { m with numStreams := atoi machine optarg }
  | .window optarg =>
    { m with socketBufsize := machine.toInt (unitAtof n optarg)
             unset := scanned .socketBufsize optarg m.unset }
  | .setMss optarg => { m with mss := atoi machine optarg }
  | .omitSeconds _ => m
  | .other _ _ => m

/-- The options that set a number of a test, `-b` by its rate. -/
inductive NumberOption where
  | interval
  | rate
  | time
  | bytes
  | blockcount
  | length
  | parallel
  | window
  | setMss

/-- The text that an option brings for a number. -/
def argument : NumberOption → TextOption → Option String
  | .interval, .interval optarg => some optarg
  | .rate, .bandwidth optarg => some (splitSlash optarg).1
  | .time, .time optarg => some optarg
  | .bytes, .bytes optarg => some optarg
  | .blockcount, .blockcount optarg => some optarg
  | .length, .length optarg => some optarg
  | .parallel, .parallel optarg => some optarg
  | .window, .window optarg => some optarg
  | .setMss, .setMss optarg => some optarg
  | _, _ => none

/-- The last text for a number, behind an earlier one. -/
def laterText (number : NumberOption) (options : List (Double × TextOption))
    (earlier : Option String) : Option String :=
  options.foldl (fun text o => (argument number o.2).or text) earlier

/-- The last text for a number. -/
def lastText (number : NumberOption) (options : List (Double × TextOption)) : Option String :=
  laterText number options none

/-- The option behind a field that is scanned. -/
def NumericField.option : NumericField → NumberOption
  | .rate => .rate
  | .bytes => .bytes
  | .blocks => .blockcount
  | .blksize => .length
  | .socketBufsize => .window

/-- The argument texts of a legal test: of every number the last one counts. -/
structure LegalOptions (machine : Machine) (options : List (Double × TextOption)) : Prop where
  interval : ∀ text ∈ lastText .interval options, atof text ≠ .nan
  parallel : ∀ text ∈ lastText .parallel options, 1 ≤ atoi machine text
  time : ∀ text ∈ lastText .time options, 0 ≤ atoi machine text
  mss : ∀ text ∈ lastText .setMss options, 0 ≤ atoi machine text
  window : ∀ text ∈ lastText .window options, 0 ≤ machine.toInt (unitAtof (.number 0) text)
  scanned : ∀ field : NumericField, ∀ text ∈ lastText field.option options, scans text = true

/-- A legal configuration. -/
structure LegalConfig (config : JavaConfig) : Prop where
  interval : LegalInterval config.interval
  parallels : 1 ≤ config.others.parallels ∧ config.others.parallels ≤ maxStreams

/-- What the switch has looked at when it accepts an option. -/
def Checked (machine : Machine) (n : Double) : TextOption → Prop
  | .interval optarg => atof optarg = .nan ∨ LegalInterval (atof optarg)
  | .bandwidth optarg =>
    ∀ text ∈ (splitSlash optarg).2, 0 < atoi machine text ∧ atoi machine text ≤ maxBurst
  | .time optarg => atoi machine optarg ≤ maxTime
  | .parallel optarg => atoi machine optarg ≤ maxStreams
  | .window optarg => machine.toInt (unitAtof n optarg) ≤ maxTcpBuffer
  | .setMss optarg => atoi machine optarg ≤ maxMss
  | _ => True

variable {machine : Machine} {platform : Platform}

/-- An option without a number leaves the numbers alone: it sets a flag, a text or the role.
-/
theorem parseOption_other {s : ArgvState} {p : ParseState} {o : CliOption}
    (ho : readsNumber o = false) (h : parseOption platform s.parse o = .ok p) :
    numbersOf { s with parse := p } = numbersOf s := by
  cases o with
  | interval | bandwidth | time | bytes | blockcount | length | parallel | window | setMss |
    omitSeconds => cases ho
  | version | flowlabel | affinity | congestion | noFqSocketPacing | help => cases h
  | server =>
    obtain ⟨-, rfl⟩ := check_ok h
    unfold numbersOf iperfSetTestRole
    dsimp only
    rw [checkSenderHasRetransmits_eq]
  | client host =>
    obtain ⟨-, rfl⟩ := check_ok h
    unfold numbersOf iperfSetTestRole
    dsimp only
    rw [checkSenderHasRetransmits_eq]
  | udp =>
    cases h
    unfold numbersOf setProtocol
    dsimp only
    split
    · rw [checkSenderHasRetransmits_eq]
    · rfl
  | reverse =>
    cases h
    unfold numbersOf iperfSetTestReverse
    dsimp only
    rw [checkSenderHasRetransmits_eq]
  | tos | xbind =>
    obtain ⟨-, rfl⟩ := check_ok h
    rfl
  | port | format | daemon | oneOff | verbose | json | bind | clientPort | noDelay | version4 |
    version6 | zerocopy | file | title | debug | pidfile | logfile | getServerOutput |
    udpCounters64bit | tmpPath =>
    cases h
    rfl

/-- A round that is accepted. -/
theorem accept_ok {s s' : ArgvState} {o : CliOption} {unset : Finset NumericField}
    (h : s.accept platform o unset = .ok s') :
    ∃ p, parseOption platform s.parse o = .ok p ∧ s' = { s with parse := p, unset := unset } := by
  unfold ArgvState.accept at h
  cases hp : parseOption platform s.parse o with
  | error e =>
    rw [hp] at h
    cases h
  | ok p =>
    rw [hp] at h
    cases h
    exact ⟨p, rfl, rfl⟩

/-- An accepted interval is the value of its text, and one that is a number was looked at. -/
theorem parseText_interval {n : Double} {s s' : ArgvState} {optarg : String}
    (h : parseText machine platform n s (.interval optarg) = .ok s') :
    numbersOf s' = assign machine n (numbersOf s) (.interval optarg) ∧
      Checked machine n (.interval optarg) := by
  unfold parseText at h
  unfold assign Checked
  dsimp only at h ⊢
  cases hv : atof optarg with
  | infinite negative =>
    rw [hv] at h
    cases h
  | nan =>
    rw [hv] at h
    cases h
    exact ⟨rfl, Or.inl rfl⟩
  | number value =>
    rw [hv] at h
    dsimp only at h
    cases hp : parseOption platform s.parse (.interval value) with
    | error e =>
      rw [hp] at h
      cases h
    | ok p =>
      rw [hp] at h
      cases h
      obtain ⟨hchecked, rfl⟩ := check_ok hp
      refine ⟨rfl, Or.inr ?_⟩
      have hlegal : ¬((value < minInterval ∨ maxInterval < value) ∧ value ≠ 0) := by
        simpa using hchecked
      by_cases hzero : value = 0
      · exact Or.inl hzero
      · refine Or.inr ⟨not_lt.mp fun hlow => hlegal ⟨Or.inl hlow, hzero⟩,
          not_lt.mp fun hhigh => hlegal ⟨Or.inr hhigh, hzero⟩⟩

/-- What an accepted option does to the numbers, and which of them were looked at on the way;
the options that are rejected have no result to speak of. -/
theorem parseText_numbers {n : Double} {s s' : ArgvState} {o : TextOption}
    (h : parseText machine platform n s o = .ok s') :
    numbersOf s' = assign machine n (numbersOf s) o ∧ Checked machine n o := by
  cases o with
  | interval optarg => exact parseText_interval h
  | bandwidth optarg =>
    obtain ⟨p, hp, rfl⟩ := accept_ok h
    obtain ⟨hchecked, rfl⟩ := check_ok hp
    refine ⟨rfl, ?_⟩
    intro text htext
    rw [Option.mem_def.mp htext] at hchecked
    have hrange : ¬(atoi machine text ≤ 0 ∨ maxBurst < atoi machine text) := by
      simpa using hchecked
    omega
  | time optarg =>
    obtain ⟨p, hp, rfl⟩ := accept_ok h
    obtain ⟨hchecked, rfl⟩ := check_ok hp
    exact ⟨rfl, not_lt.mp (of_decide_eq_false hchecked)⟩
  | parallel optarg =>
    obtain ⟨p, hp, rfl⟩ := accept_ok h
    obtain ⟨hchecked, rfl⟩ := check_ok hp
    exact ⟨rfl, not_lt.mp (of_decide_eq_false hchecked)⟩
  | window optarg =>
    obtain ⟨p, hp, rfl⟩ := accept_ok h
    obtain ⟨hchecked, rfl⟩ := check_ok hp
    exact ⟨rfl, not_lt.mp (of_decide_eq_false hchecked)⟩
  | setMss optarg =>
    obtain ⟨p, hp, rfl⟩ := accept_ok h
    obtain ⟨hchecked, rfl⟩ := check_ok hp
    exact ⟨rfl, not_lt.mp (of_decide_eq_false hchecked)⟩
  | omitSeconds optarg =>
    obtain ⟨p, hp, rfl⟩ := accept_ok h
    obtain ⟨hchecked, rfl⟩ := check_ok hp
    exact ⟨rfl, trivial⟩
  | bytes optarg =>
    obtain ⟨p, hp, rfl⟩ := accept_ok h
    cases hp
    exact ⟨rfl, trivial⟩
  | blockcount optarg =>
    obtain ⟨p, hp, rfl⟩ := accept_ok h
    cases hp
    exact ⟨rfl, trivial⟩
  | length optarg =>
    obtain ⟨p, hp, rfl⟩ := accept_ok h
    cases hp
    exact ⟨rfl, trivial⟩
  | other o ho =>
    obtain ⟨p, hp, rfl⟩ := accept_ok h
    exact ⟨parseOption_other ho hp, trivial⟩

/-- What every accepted option preserves, of the last text for a number and the numbers,
holds behind the loop. -/
theorem parseTexts_preserves {number : NumberOption} {P : Option String → Numbers → Prop}
    (hstep : ∀ n o text m, Checked machine n o → P text m →
      P ((argument number o).or text) (assign machine n m o))
    {options : List (Double × TextOption)} {s s' : ArgvState}
    (h : parseTexts machine platform options s = .ok s') {text : Option String}
    (hs : P text (numbersOf s)) : P (laterText number options text) (numbersOf s') := by
  induction options generalizing s text with
  | nil =>
    cases h
    exact hs
  | cons o rest ih =>
    unfold parseTexts at h
    cases ho : parseText machine platform o.1 s o.2 with
    | error e =>
      rw [ho] at h
      cases h
    | ok s₁ =>
      rw [ho] at h
      obtain ⟨hnumbers, hchecked⟩ := parseText_numbers ho
      have hs₁ : P ((argument number o.2).or text) (numbersOf s₁) := by
        rw [hnumbers]
        exact hstep o.1 o.2 text (numbersOf s) hchecked hs
      exact ih h hs₁

/-- The numbers behind the loop, from the texts that count. -/
structure NumbersRead (machine : Machine) (options : List (Double × TextOption)) (m : Numbers) :
    Prop where
  intervals : m.statsInterval = m.reporterInterval
  interval : m.statsInterval = (lastText .interval options).elim (.number 1) atof ∧
    (m.statsInterval = .nan ∨ LegalInterval m.statsInterval)
  numStreams : m.numStreams = (lastText .parallel options).elim 1 (atoi machine) ∧
    m.numStreams ≤ maxStreams
  duration : m.duration = (lastText .time options).elim 10 (atoi machine) ∧
    m.duration ≤ maxTime
  durationFlag : m.durationFlag = (lastText .time options).isSome
  mss : m.mss = (lastText .setMss options).elim 0 (atoi machine) ∧ m.mss ≤ maxMss
  socketBufsize : (lastText .window options).elim (m.socketBufsize = 0)
      (fun text => scans text = true →
        m.socketBufsize = machine.toInt (unitAtof (.number 0) text)) ∧
    m.socketBufsize ≤ maxTcpBuffer
  burst : 0 ≤ m.burst ∧ m.burst ≤ maxBurst
  unset : ∀ field, field ∈ m.unset ↔
    ∃ text ∈ lastText field.option options, scans text = false

/-- The fields left unset are those whose last text has no number. -/
theorem unset_step (field : NumericField) (n : Double) (o : TextOption) (text : Option String)
    (m : Numbers) (h : field ∈ m.unset ↔ ∃ t ∈ text, scans t = false) :
    field ∈ (assign machine n m o).unset ↔
      ∃ t ∈ (argument field.option o).or text, scans t = false := by
  have hscanned : ∀ (f : NumericField) (t : String), field ∈ scanned f t m.unset ↔
      if field = f then scans t = false else field ∈ m.unset := by
    intro f t
    unfold scanned
    by_cases hf : field = f
    · rw [if_pos hf, hf]
      cases ht : scans t with
      | true => simp
      | false => simp
    · rw [if_neg hf]
      cases ht : scans t with
      | true => simp [hf]
      | false => simp [hf]
  cases o with
  | bandwidth optarg | bytes optarg | blockcount optarg | length optarg | window optarg =>
    cases field <;> simp [assign, hscanned, argument, NumericField.option, h]
  | interval | time | parallel | setMss | omitSeconds | other =>
    cases field <;> simp [assign, argument, NumericField.option, h]

/-- The state before the first option. -/
def startState (platform : Platform) : ArgvState :=
  { parse := { test := iperfDefaults platform iperfNewTest } }

/-- The numbers before the first option. -/
def startNumbers : Numbers := ⟨.number 1, .number 1, 1, 10, false, 0, 0, 0, ∅⟩

/-- Before the first option the numbers are those of a new client. -/
theorem numbersOf_start (platform : Platform) : numbersOf (startState platform) = startNumbers := by
  unfold numbersOf startState iperfDefaults setProtocol
  dsimp only
  split
  · rw [checkSenderHasRetransmits_eq]
    rfl
  · rfl

/-- Every number is that of its last text, within what the switch looks at. The induction adds
one option at the end. -/
theorem parseTexts_read {options : List (Double × TextOption)} {s : ArgvState}
    (h : parseTexts machine platform options (startState platform) = .ok s) :
    NumbersRead machine options (numbersOf s) := by
  have run : ∀ (number : NumberOption) (P : Option String → Numbers → Prop),
      (∀ n o text m, Checked machine n o → P text m →
        P ((argument number o).or text) (assign machine n m o)) →
      P none startNumbers → P (lastText number options) (numbersOf s) := by
    intro number P hstep hstart
    rw [← numbersOf_start platform] at hstart
    exact parseTexts_preserves hstep h hstart
  refine ⟨?_, ?_, ?_, ?_, ?_, ?_, ?_, ?_, ?_⟩
  · refine run .interval (fun _ m => m.statsInterval = m.reporterInterval) ?_ rfl
    intro n o text m _ hm
    cases o <;> first | exact hm | rfl
  · refine run .interval (fun text m =>
      m.statsInterval = text.elim (.number 1) atof ∧
        (m.statsInterval = .nan ∨ LegalInterval m.statsInterval)) ?_ ?_
    · intro n o text m hchecked hm
      cases o with
      | interval optarg => exact ⟨rfl, hchecked⟩
      | _ => exact hm
    · refine ⟨rfl, Or.inr (Or.inr ?_)⟩
      norm_num [minInterval, maxInterval]
  · refine run .parallel (fun text m =>
      m.numStreams = text.elim 1 (atoi machine) ∧ m.numStreams ≤ maxStreams) ?_ ?_
    · intro n o text m hchecked hm
      cases o with
      | parallel optarg => exact ⟨rfl, hchecked⟩
      | _ => exact hm
    · exact ⟨rfl, by decide⟩
  · refine run .time (fun text m =>
      m.duration = text.elim 10 (atoi machine) ∧ m.duration ≤ maxTime) ?_ ?_
    · intro n o text m hchecked hm
      cases o with
      | time optarg => exact ⟨rfl, hchecked⟩
      | _ => exact hm
    · exact ⟨rfl, by decide⟩
  · refine run .time (fun text m => m.durationFlag = text.isSome) ?_ rfl
    intro n o text m _ hm
    cases o with
    | time optarg => rfl
    | _ => exact hm
  · refine run .setMss (fun text m =>
      m.mss = text.elim 0 (atoi machine) ∧ m.mss ≤ maxMss) ?_ ?_
    · intro n o text m hchecked hm
      cases o with
      | setMss optarg => exact ⟨rfl, hchecked⟩
      | _ => exact hm
    · exact ⟨rfl, by decide⟩
  · refine run .window (fun text m =>
      text.elim (m.socketBufsize = 0) (fun text => scans text = true →
        m.socketBufsize = machine.toInt (unitAtof (.number 0) text)) ∧
      m.socketBufsize ≤ maxTcpBuffer) ?_ ?_
    · intro n o text m hchecked hm
      cases o with
      | window optarg =>
        refine ⟨?_, hchecked⟩
        intro hscans
        have hvalue : unitAtof n optarg = unitAtof (.number 0) optarg :=
          unitNumber_of_scans hscans _ _ _ _ _
        exact congrArg machine.toInt hvalue
      | _ => exact hm
    · exact ⟨rfl, by decide⟩
  · refine run .rate (fun _ m => 0 ≤ m.burst ∧ m.burst ≤ maxBurst) ?_ ?_
    · intro n o text m hchecked hm
      cases o with
      | bandwidth optarg =>
        have hburst : (assign machine n m (.bandwidth optarg)).burst =
            ((splitSlash optarg).2.map (atoi machine)).getD m.burst := rfl
        rw [hburst]
        cases hs : (splitSlash optarg).2 with
        | none => exact hm
        | some burst =>
          have hrange := hchecked burst (Option.mem_def.mpr hs)
          exact ⟨hrange.1.le, hrange.2⟩
      | _ => exact hm
    · exact ⟨le_refl 0, by decide⟩
  · intro field
    refine run field.option (fun text m =>
      (field ∈ m.unset ↔ ∃ t ∈ text, scans t = false)) ?_ ?_
    · intro n o text m _ hm
      exact unset_step field n o text m hm
    · simp [startNumbers]

/-- Accepted arguments have passed the loop and the checks behind it. -/
theorem parseArgv_ok {options : List (Double × TextOption)} {t : ClientTest}
    (h : parseArgv machine platform options = .ok t) :
    ∃ s, parseTexts machine platform options (startState platform) = .ok s ∧
      finishArguments s.parse = .ok t.test ∧ t.statsInterval = s.statsInterval ∧
      t.reporterInterval = s.reporterInterval ∧ t.explicitDuration = s.parse.durationFlag ∧
      t.unset = s.unset := by
  unfold parseArgv at h
  cases hs : parseTexts machine platform options
      { parse := { test := iperfDefaults platform iperfNewTest } } with
  | error e =>
    rw [hs] at h
    cases h
  | ok s =>
    rw [hs] at h
    dsimp only at h
    refine ⟨s, hs, ?_⟩
    cases hf : finishArguments s.parse with
    | error e =>
      rw [hf] at h
      cases h
    | ok test =>
      rw [hf] at h
      cases h
      exact ⟨rfl, rfl, rfl, rfl, rfl⟩

/-- The test that an entry point leaves has the numbers of the loop; only the duration
gives way to another end condition. -/
theorem finishArguments_numbers {s : ArgvState} {test : IperfTest}
    (h : finishArguments s.parse = .ok test) :
    test.numStreams = (numbersOf s).numStreams ∧ test.settings.mss = (numbersOf s).mss ∧
      test.settings.socketBufsize = (numbersOf s).socketBufsize ∧
      test.settings.burst = (numbersOf s).burst ∧
      (test.duration = (numbersOf s).duration ∨
        test.duration = 0 ∧ (numbersOf s).durationFlag = false) := by
  obtain ⟨htest, -⟩ := finishArguments_ok h
  generalize (if s.parse.blksize = 0 then defaultBlksize s.parse.test.protocol
    else s.parse.blksize) = b at htest
  subst htest
  refine ⟨rfl, rfl, rfl, rfl, ?_⟩
  unfold finishParameters numbersOf
  dsimp only
  split
  · rename_i hend
    right
    simp only [Bool.and_eq_true, Bool.not_eq_true'] at hend
    exact ⟨rfl, hend.2⟩
  · exact Or.inl rfl

/-- A number that the last text decides is above a bound that its default respects exactly when
the text is. -/
theorem low_iff {text : Option String} {value start low : ℤ} {read : String → ℤ}
    (hvalue : value = text.elim start read) (hstart : low ≤ start) :
    low ≤ value ↔ ∀ word ∈ text, low ≤ read word := by
  rw [hvalue]
  cases text with
  | none => simpa using hstart
  | some word => simp

section Read

variable {options : List (Double × TextOption)} {m : Numbers}

/-- The interval is legal unless its last text is no number. -/
theorem NumbersRead.interval_iff (h : NumbersRead machine options m) :
    LegalInterval m.statsInterval ↔ ∀ text ∈ lastText .interval options, atof text ≠ .nan := by
  obtain ⟨hvalue, hlegal⟩ := h.interval
  constructor
  · intro hlegal text htext hnan
    rw [hvalue, Option.mem_def.mp htext, Option.elim_some, hnan] at hlegal
    exact hlegal
  · intro htexts
    refine hlegal.resolve_left fun hnan => ?_
    rw [hnan] at hvalue
    cases htext : lastText .interval options with
    | none =>
      rw [htext] at hvalue
      cases hvalue
    | some text =>
      rw [htext] at hvalue
      exact htexts text htext hvalue.symm

/-- The window is not negative exactly when its last text is not, once that has a number. -/
theorem NumbersRead.window_iff (h : NumbersRead machine options m)
    (hscanned : ∀ text ∈ lastText .window options, scans text = true) :
    0 ≤ m.socketBufsize ↔
      ∀ text ∈ lastText .window options, 0 ≤ machine.toInt (unitAtof (.number 0) text) := by
  have hvalue := h.socketBufsize.1
  refine low_iff ?_ (le_refl 0)
  cases htext : lastText .window options with
  | none =>
    rw [htext] at hvalue
    exact hvalue
  | some text =>
    rw [htext] at hvalue
    exact hvalue (hscanned text htext)

/-- The duration is not negative exactly when its last text is not; the one that gives way to
another end condition had no text. -/
theorem NumbersRead.duration_iff (h : NumbersRead machine options m) {duration : ℤ}
    (hleft : duration = m.duration ∨ duration = 0 ∧ m.durationFlag = false) :
    0 ≤ duration ↔ ∀ text ∈ lastText .time options, 0 ≤ atoi machine text := by
  rcases hleft with heq | ⟨hzero, hfalse⟩
  · rw [heq]
    exact low_iff h.duration.1 (by decide)
  · have hnone : lastText .time options = none := by
      have hflag := h.durationFlag
      rw [hfalse] at hflag
      exact Option.isNone_iff_eq_none.mp (by simpa using hflag.symm)
    rw [hzero, hnone]
    simp

/-- Every field is set exactly when all texts that are scanned have a number. -/
theorem NumbersRead.unset_iff (h : NumbersRead machine options m) :
    m.unset = ∅ ↔
      ∀ field : NumericField, ∀ text ∈ lastText field.option options, scans text = true := by
  rw [Finset.eq_empty_iff_forall_notMem]
  refine forall_congr' fun field => ?_
  rw [h.unset field]
  push Not
  simp

end Read

/-- Accepted arguments are legal exactly when the texts that count are: what the switch does
not look at is neither checked later. -/
theorem parseArgv_legal_iff {options : List (Double × TextOption)} {t : ClientTest}
    (h : parseArgv machine platform options = .ok t) :
    Legal t ↔ LegalOptions machine options := by
  obtain ⟨s, hs, hfinish, hstats, hreporter, hexplicit, hunset⟩ := parseArgv_ok h
  have hread : NumbersRead machine options (numbersOf s) := parseTexts_read hs
  have hchecked : ArgumentsChecked s.parse t.test := finishArguments_checked hfinish
  obtain ⟨hstreams, hmss, hwindow, hburst, hduration⟩ := finishArguments_numbers hfinish
  have hinterval := hread.interval_iff
  have hparallel := low_iff hread.numStreams.1 (le_refl 1)
  have htime := hread.duration_iff hduration
  have hsegment := low_iff hread.mss.1 (le_refl 0)
  have hscanned := hread.unset_iff
  rw [show (numbersOf s).statsInterval = t.statsInterval from hstats.symm] at hinterval
  rw [show (numbersOf s).unset = t.unset from hunset.symm] at hscanned
  rw [← hstreams] at hparallel
  rw [← hmss] at hsegment
  constructor
  · intro hl
    have hset := hscanned.mp hl.determined
    have hnotNegative := hl.socketBufsize.1
    rw [hwindow] at hnotNegative
    exact ⟨hinterval.mp hl.interval, hparallel.mp hl.streams.1, htime.mp hl.duration.1,
      hsegment.mp hl.mss.1, (hread.window_iff (hset .socketBufsize)).mp hnotNegative, hset⟩
  · intro ho
    refine ⟨?_, hinterval.mpr ho.interval, ⟨hparallel.mpr ho.parallel, ?_⟩,
      ⟨htime.mpr ho.time, ?_⟩, ⟨hchecked.blksize_pos, hchecked.blksize_le⟩,
      hchecked.udp_blksize_le, ⟨hsegment.mpr ho.mss, ?_⟩, ?_, ?_, ?_, hscanned.mpr ho.scanned⟩
    · rw [hstats, hreporter]
      exact hread.intervals
    · rw [hstreams]
      exact hread.numStreams.2
    · rcases hduration with heq | ⟨hzero, -⟩
      · rw [heq]
        exact hread.duration.2
      · rw [hzero]
        decide
    · rw [hmss]
      exact hread.mss.2
    · rw [hwindow]
      exact ⟨(hread.window_iff (ho.scanned .socketBufsize)).mpr ho.window, hread.socketBufsize.2⟩
    · rw [hburst]
      exact hread.burst
    · rw [hexplicit]
      have hends := hchecked.ends
      push Not at hends
      exact ⟨fun hb => hb.2 (hends.1 hb.1), fun hb => hb.2 (hends.2.1 hb.1),
        fun hb => hb.2 (hends.2.2 hb.1)⟩

/-- A configuration sets the role, the direction, the rate, the streams and the
intervals; the other parameters keep their defaults. -/
theorem parseConfig_parameters (platform : Platform) (config : JavaConfig) (tmpPath : String) :
    parametersOf (parseConfig platform config tmpPath).test = { freshParameters with
      reverse := config.others.isDownMode
      sender := !config.others.isDownMode
      rate := (config.others.bandwidth % 2 ^ 64).toNat
      numStreams := config.others.parallels } := by
  have hdefaults := parametersOf_defaults platform
  have hreverse : (iperfDefaults platform iperfNewTest).reverse = false :=
    congrArg Parameters.reverse hdefaults
  have hrole :
      parametersOf (iperfSetTestRole platform .client (iperfDefaults platform iperfNewTest)) =
      { freshParameters with sender := true } := by
    rw [← hdefaults]
    unfold iperfSetTestRole
    rw [checkSenderHasRetransmits_eq, hreverse]
    rfl
  unfold parseConfig parseJavaConfig
  generalize iperfSetTestRole platform .client (iperfDefaults platform iperfNewTest) = test at hrole
  have hnamed : parametersOf { test with
      serverHostname := some config.others.serverAddr
      serverPort := config.others.serverPort } = { freshParameters with sender := true } := hrole
  dsimp only
  generalize { test with
    serverHostname := some config.others.serverAddr
    serverPort := config.others.serverPort } = named at hnamed
  have hdirected : parametersOf (if config.others.isDownMode = true then
      iperfSetTestReverse platform true named else named) = { freshParameters with
        reverse := config.others.isDownMode, sender := !config.others.isDownMode } := by
    cases config.others.isDownMode with
    | false => exact hnamed
    | true =>
      have hsender : named.sender = true := congrArg Parameters.sender hnamed
      rw [if_pos rfl, parametersOf_reverse, hnamed, hsender]
  generalize (if config.others.isDownMode = true then
    iperfSetTestReverse platform true named else named) = directed at hdirected
  have hset : ∀ (p : Parameters), parametersOf directed = p →
      parametersOf { directed with
        settings := { directed.settings with
          rate := (config.others.bandwidth % 2 ^ 64).toNat
          unitFormat := Char.ofNat (config.others.formatUnit % 256) }
        numStreams := config.others.parallels
        tmpTemplate := some tmpPath
        statsInterval := rational config.interval
        reporterInterval := rational config.interval } = { p with
          rate := (config.others.bandwidth % 2 ^ 64).toNat
          numStreams := config.others.parallels } := by
    intro p hp
    rw [← hp]
    rfl
  exact hset _ hdirected

/-- A configuration is let through as it is, so it is legal exactly when its numbers are. -/
theorem parseConfig_legal_iff (platform : Platform) (config : JavaConfig) (tmpPath : String) :
    Legal (parseConfig platform config tmpPath) ↔ LegalConfig config := by
  have hparameters := parseConfig_parameters platform config tmpPath
  have hstreams : (parseConfig platform config tmpPath).test.numStreams = config.others.parallels :=
    congrArg Parameters.numStreams hparameters
  have hduration : (parseConfig platform config tmpPath).test.duration = 10 :=
    congrArg Parameters.duration hparameters
  have hprotocol : (parseConfig platform config tmpPath).test.protocol = .tcp :=
    congrArg Parameters.protocol hparameters
  have hblksize : (parseConfig platform config tmpPath).test.settings.blksize = defaultTcpBlksize :=
    congrArg Parameters.blksize hparameters
  have hmss : (parseConfig platform config tmpPath).test.settings.mss = 0 :=
    congrArg Parameters.mss hparameters
  have hwindow : (parseConfig platform config tmpPath).test.settings.socketBufsize = 0 :=
    congrArg Parameters.socketBufsize hparameters
  have hburst : (parseConfig platform config tmpPath).test.settings.burst = 0 :=
    congrArg Parameters.burst hparameters
  have hbytes : (parseConfig platform config tmpPath).test.settings.bytes = 0 :=
    congrArg Parameters.bytes hparameters
  have hblocks : (parseConfig platform config tmpPath).test.settings.blocks = 0 :=
    congrArg Parameters.blocks hparameters
  constructor
  · intro hl
    refine ⟨hl.interval, ?_⟩
    rw [← hstreams]
    exact hl.streams
  · intro hc
    refine ⟨rfl, hc.interval, ?_, ?_, ?_, ?_, ?_, ?_, ?_, ?_, rfl⟩
    · rw [hstreams]
      exact hc.parallels
    · rw [hduration]
      decide
    · rw [hblksize]
      decide
    · intro hudp
      rw [hprotocol] at hudp
      cases hudp
    · rw [hmss]
      decide
    · rw [hwindow]
      decide
    · rw [hburst]
      decide
    · rw [hbytes, hblocks]
      exact ⟨fun hb => hb.2 rfl, fun hb => hb.2 rfl, fun hb => hb.1 rfl⟩

/-- Both entry points let through what they are given, apart from the upper bounds of the
command line and its checks on block size and end conditions. -/
theorem entryPoints_legal_iff {options : List (Double × TextOption)} {t : ClientTest}
    (h : parseArgv machine platform options = .ok t) (config : JavaConfig) (tmpPath : String) :
    (Legal t ↔ LegalOptions machine options) ∧
      (Legal (parseConfig platform config tmpPath) ↔ LegalConfig config) :=
  ⟨parseArgv_legal_iff h, parseConfig_legal_iff platform config tmpPath⟩

/-- A machine whose conversions are zero outside the range of their target. -/
def zeroMachine : Machine where
  toInt
    | .number q => q.num.tdiv q.den
    | _ => 0
  toUint64
    | .number q => (q.num.tdiv q.den).toNat
    | _ => 0
  narrow := id
  toInt_number := fun _ _ _ => rfl
  toUint64_number := fun _ _ _ => rfl
  narrow_int := fun _ _ _ => rfl

/-- `-c 10.0.0.1 -P 0 -w x`, with a number on the stack. -/
def emptyOptions : List (Double × TextOption) :=
  [(.number 0, .other (.client "10.0.0.1") rfl), (.number 0, .parallel "0"),
    (.number 4242, .window "x")]

/-- A configuration without streams. -/
def emptyConfig : JavaConfig where
  interval := .number 0
  others := ⟨"10.0.0.1", 5201, false, 0, 0, 109, 0⟩

/-- A platform with the oldest headers. -/
def oldPlatform : Platform := ⟨false, false, fun h => h⟩

/-- Both entry points let a test without streams through, the first with a window that
the stack held. -/
theorem emptyTests_admitted :
    (∃ t, parseArgv zeroMachine oldPlatform emptyOptions = .ok t ∧ t.test.numStreams = 0 ∧
      t.test.settings.socketBufsize = 4242 ∧ ¬Legal t) ∧
    ¬Legal (parseConfig oldPlatform emptyConfig "/tmp") := by
  refine ⟨⟨_, rfl, rfl, rfl, ?_⟩, ?_⟩
  · intro h
    exact absurd h.streams.1 (by decide)
  · intro h
    exact absurd h.streams.1 (by decide)

/-- `-c 10.0.0.1 -P 4 -w 256K`. -/
def windowOptions : List (Double × TextOption) :=
  [(.number 0, .other (.client "10.0.0.1") rfl), (.number 0, .parallel "4"),
    (.nan, .window "256K")]

/-- Four streams with a window of their own are accepted, and both conditions apply. -/
theorem windowOptions_admitted :
    ∃ t, parseArgv zeroMachine oldPlatform windowOptions = .ok t ∧
      (Legal t ↔ LegalOptions zeroMachine windowOptions) ∧
      (Legal (parseConfig oldPlatform emptyConfig "/tmp") ↔ LegalConfig emptyConfig) := by
  cases hargs : parseArgv zeroMachine oldPlatform windowOptions with
  | error e =>
    have haccepted : (parseArgv zeroMachine oldPlatform windowOptions).toOption.isSome = true := by
      decide +kernel
    rw [hargs] at haccepted
    cases haccepted
  | ok t => exact ⟨t, rfl, entryPoints_legal_iff hargs emptyConfig "/tmp"⟩

end IperfRuntime.EntryPointLimits
