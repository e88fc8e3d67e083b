import IperfRuntime.ArgumentWords
import IperfRuntime.CommandParser

/-!
# Runs of one command object

What an `Iperf3Cmd` keeps from its earlier runs, next to what `iperf3` reads from the same
words. Two commands that run at the same time on one object are not considered; each run
ends before the next begins.
-/

namespace IperfRuntime.CommandHistory

open TestState EntryPoints OptionText EntryPointLimits ArgumentWords CommandParser

variable {env : Surroundings}

/-- `-P` is the only option that sets the number of streams. -/
theorem textOption_parallel (env : Surroundings) (o : Delivered) :
    argument .parallel (textOption env o) = if o.1 = .short 'P' then some o.2 else none := by
  obtain ⟨flag, optarg⟩ := o
  unfold textOption
  split <;> simp_all [argument]

/-- Whether an option asks for reverse mode. -/
def reverses : TextOption → Bool
  | .other .reverse _ => true
  | _ => false

/-- An option asks for reverse mode exactly if it was delivered as `-R`. -/
theorem textOption_reverses (env : Surroundings) (o : Delivered) :
    reverses (textOption env o) = decide (o.1 = .short 'R') := by
  obtain ⟨flag, optarg⟩ := o
  unfold textOption
  split <;> simp_all [reverses]

/-- The options with their numbers are the options that were delivered. -/
theorem map_snd_textOptions (env : Surroundings) (options : List Delivered) :
    (textOptions env options).map Prod.snd = options.map (textOption env) := by
  refine List.ext_getElem (by simp [textOptions]) ?_
  intro i h₁ h₂
  simp [textOptions]

/-- The text that counts for the streams is that of the last `-P`. -/
theorem lastText_textOptions (env : Surroundings) (options : List Delivered) :
    lastText .parallel (textOptions env options) = lastParallel options := by
  have hfold : ∀ (list : List (Double × TextOption)) (last : Option String),
      laterText .parallel list last =
        (list.map Prod.snd).foldl (fun text o => (argument .parallel o).or text) last := by
    intro list last
    unfold laterText
    rw [List.foldl_map]
  unfold lastText lastParallel
  rw [hfold, map_snd_textOptions, List.foldl_map]
  congr 1
  funext text o
  rw [textOption_parallel]
  split
  · rfl
  · rfl

/-- The option switch sets reverse mode for `-R` and never clears it, so no later option can
take it back. -/
theorem parseOption_reverse {platform : Platform} {s p : ParseState} {o : CliOption}
    (h : parseOption platform s o = .ok p) :
    p.test.reverse = (s.test.reverse || decide (o = .reverse)) := by
  cases o with
  | version | flowlabel | affinity | congestion | noFqSocketPacing | help => cases h
  | server =>
    obtain ⟨-, rfl⟩ := check_ok h
    unfold iperfSetTestRole
    rw [checkSenderHasRetransmits_eq]
    simp
  | client host =>
    obtain ⟨-, rfl⟩ := check_ok h
    unfold iperfSetTestRole
    dsimp only
    rw [checkSenderHasRetransmits_eq]
    simp
  | udp =>
    cases h
    unfold setProtocol
    dsimp only
    split
    · rw [checkSenderHasRetransmits_eq]
      simp
    · simp
  | reverse =>
    cases h
    unfold iperfSetTestReverse
    rw [checkSenderHasRetransmits_eq]
    simp
  | interval | bandwidth | time | parallel | window | setMss | tos | xbind | omitSeconds =>
    obtain ⟨-, rfl⟩ := check_ok h
    simp
  | port | format | daemon | oneOff | verbose | json | bytes | blockcount | length | bind |
    clientPort | noDelay | version4 | version6 | zerocopy | file | title | debug | pidfile |
    logfile | getServerOutput | udpCounters64bit | tmpPath =>
    cases h
    simp

/-- After an option the test is reversed if it was before or if the option is `-R`, whatever
its argument text is. -/
theorem parseText_reverse {machine : Machine} {platform : Platform} {n : Double}
    {s s' : ArgvState} {o : TextOption} (h : parseText machine platform n s o = .ok s') :
    s'.parse.test.reverse = (s.parse.test.reverse || reverses o) := by
  cases o with
  | interval optarg =>
    unfold parseText at h
    dsimp only at h
    cases hv : atof optarg with
    | infinite negative =>
      rw [hv] at h
      cases h
    | nan =>
      rw [hv] at h
      cases h
      simp [reverses]
    | number value =>
      rw [hv] at h
      dsimp only at h
      cases hp : parseOption platform s.parse (.interval value) with
      | error e =>
        rw [hp] at h
        cases h
      | ok p =>
        rw [hp] at h
        cases h
        have hreverse := parseOption_reverse hp
        simpa [reverses] using hreverse
  | bandwidth | time | bytes | blockcount | length | parallel | window | setMss | omitSeconds =>
    obtain ⟨p, hp, rfl⟩ := accept_ok h
    have hreverse := parseOption_reverse hp
    simpa [reverses] using hreverse
  | other o ho =>
    obtain ⟨p, hp, rfl⟩ := accept_ok h
    have hreverse := parseOption_reverse hp
    by_cases ho' : o = .reverse
    · subst ho'
      simpa [reverses] using hreverse
    · have hother : reverses (.other o ho) = false := by
        unfold reverses
        split
        · rename_i heq
          cases heq
          exact absurd rfl ho'
        · rfl
      simpa [hother, ho'] using hreverse

/-- After all options it is reversed if one of them is `-R`. -/
theorem parseTexts_reverse {machine : Machine} {platform : Platform}
    {options : List (Double × TextOption)} {s s' : ArgvState}
    (h : parseTexts machine platform options s = .ok s') :
    s'.parse.test.reverse = (s.parse.test.reverse || (options.map Prod.snd).any reverses) := by
  induction options generalizing s with
  | nil =>
    cases h
    simp
  | cons o rest ih =>
    unfold parseTexts at h
    cases ho : parseText machine platform o.1 s o.2 with
    | error e =>
      rw [ho] at h
      cases h
    | ok s₁ =>
      rw [ho] at h
      have hrest := ih h
      rw [hrest, parseText_reverse ho, List.map_cons, List.any_cons, Bool.or_assoc]

/-- Before the first option it is not. -/
theorem startState_reverse (platform : Platform) :
    (startState platform).parse.test.reverse = false := by
  unfold startState iperfDefaults setProtocol
  dsimp only
  split
  · rw [checkSenderHasRetransmits_eq]
    rfl
  · rfl

/-- What `iperf3` makes of the words of a command, by the options that `getopt_long`
delivers. -/
theorem parseWords_read {args : List String} {t : ClientTest} (h : parseWords env args = .ok t) :
    ∃ options, getoptLong args = some options ∧
      t.test.numStreams = (lastParallel options).elim 1 (atoi env.machine) ∧
      t.test.reverse = asksReverse options := by
  unfold parseWords at h
  cases hoptions : getoptLong args with
  | none =>
    rw [hoptions] at h
    cases h
  | some options =>
    rw [hoptions] at h
    obtain ⟨s, hs, hfinish, -⟩ := parseArgv_ok h
    have hread : NumbersRead env.machine (textOptions env options) (numbersOf s) :=
      parseTexts_read hs
    have hnumbers := finishArguments_numbers hfinish
    refine ⟨options, rfl, ?_, ?_⟩
    · rw [hnumbers.1, hread.numStreams.1, lastText_textOptions]
    · obtain ⟨htest, -⟩ := finishArguments_ok hfinish
      have hkeeps : ∀ (p : ParseState) (b : ℤ), (finishParameters p b).reverse = p.test.reverse :=
        fun _ _ => rfl
      rw [htest, hkeeps, parseTexts_reverse hs, startState_reverse, map_snd_textOptions,
        Bool.false_or, List.any_map]
      unfold asksReverse
      congr 1
      funext o
      exact textOption_reverses env o

/-- The readings of the words behind a `-P`. -/
def parallelWords : List String → List (Option ℤ)
  | [] => []
  | s :: rest =>
    if s = "-P" then (rest.head?.bind fun value => toInt value.toList) :: parallelWords rest
    else parallelWords rest

/-- The last number, behind an earlier one. -/
def laterNumber (words : List (Option ℤ)) (n : ℤ) : ℤ :=
  words.foldl (fun n w => w.getD n) n

/-- The loop of `parseArgs` returns when every number behind a `-P` can be read, and leaves
the last of them; reverse mode is found by the word `-R` alone. -/
theorem parseArgsLoop_spec (args : List String) (cmd : Iperf3Cmd) :
    ((parseArgsLoop args cmd).1 = true ↔ ∀ w ∈ parallelWords args, w.isSome = true) ∧
      ((parseArgsLoop args cmd).1 = true → (parseArgsLoop args cmd).2 = { cmd with
        parallels := laterNumber (parallelWords args) cmd.parallels
        isDown := cmd.isDown || decide ("-R" ∈ args) }) := by
  induction args generalizing cmd with
  | nil => simp [parseArgsLoop, parallelWords, laterNumber]
  | cons s rest ih =>
    by_cases hP : s = "-P"
    · have hwords : parallelWords (s :: rest) =
          (rest.head?.bind fun value => toInt value.toList) :: parallelWords rest := if_pos hP
      have hR : decide ("-R" ∈ s :: rest) = decide ("-R" ∈ rest) := by simp [hP]
      cases hvalue : rest.head?.bind fun value => toInt value.toList with
      | none =>
        have hloop : parseArgsLoop (s :: rest) cmd = (false, cmd) := by
          simp [parseArgsLoop, hP, hvalue]
        rw [hloop, hwords, hvalue]
        simp
      | some n =>
        have hloop : parseArgsLoop (s :: rest) cmd =
            parseArgsLoop rest { cmd with parallels := n } := by
          simp [parseArgsLoop, hP, hvalue]
        obtain ⟨hreturns, hstate⟩ := ih { cmd with parallels := n }
        rw [hloop, hwords, hvalue, hR]
        exact ⟨by simpa using hreturns, hstate⟩
    · have hwords : parallelWords (s :: rest) = parallelWords rest := if_neg hP
      by_cases hR : s = "-R"
      · have hloop : parseArgsLoop (s :: rest) cmd =
            parseArgsLoop rest { cmd with isDown := true } := by
          simp [parseArgsLoop, hR]
        have hdown : decide ("-R" ∈ s :: rest) = true := by simp [hR]
        obtain ⟨hreturns, hstate⟩ := ih { cmd with isDown := true }
        rw [hloop, hwords, hdown, Bool.or_true]
        refine ⟨hreturns, ?_⟩
        intro h
        rw [hstate h]
        simp
      · have hloop : parseArgsLoop (s :: rest) cmd = parseArgsLoop rest cmd := by
          simp [parseArgsLoop, hP, hR]
        have hdown : decide ("-R" ∈ s :: rest) = decide ("-R" ∈ rest) := by
          simp [Ne.symm hR]
        rw [hloop, hwords, hdown]
        exact ih cmd

/-- If the last word of a command is a number, that is what is kept. -/
theorem laterNumber_last {words : List (Option ℤ)} {m : ℤ}
    (h : words.getLast? = some (some m)) (n : ℤ) : laterNumber words n = m := by
  obtain ⟨before, rfl⟩ := List.getLast?_eq_some_iff.mp h
  unfold laterNumber
  rw [List.foldl_append]
  rfl

/-- The path of the executable is neither `-P` nor `-R`. -/
theorem cmdPath_plain (filesDir executableName : String) :
    cmdPath filesDir executableName ≠ "-P" ∧ cmdPath filesDir executableName ≠ "-R" := by
  have hslash : '/' ∈ (cmdPath filesDir executableName).toList := by simp [cmdPath]
  constructor
  · intro h
    rw [h] at hslash
    exact absurd hslash (by decide)
  · intro h
    rw [h] at hslash
    exact absurd hslash (by decide)

/-- What `parseArgs` leaves on any object. -/
theorem parseArgs_spec (filesDir executableName : String) (args : List String)
    (cmd : Iperf3Cmd) :
    ((parseArgs (cmdPath filesDir executableName :: args) cmd).1 = true ↔
        ∀ w ∈ parallelWords args, w.isSome = true) ∧
      ((parseArgs (cmdPath filesDir executableName :: args) cmd).1 = true →
        (parseArgs (cmdPath filesDir executableName :: args) cmd).2 =
          ⟨laterNumber (parallelWords args) cmd.parallels, decide ("-R" ∈ args), 0⟩) := by
  obtain ⟨hP, hR⟩ := cmdPath_plain filesDir executableName
  have hspec := parseArgsLoop_spec args { cmd with isDown := false, titleCnt := 0 }
  have hloop : parseArgs (cmdPath filesDir executableName :: args) cmd =
      parseArgsLoop args { cmd with isDown := false, titleCnt := 0 } := by
    simp [parseArgs, parseArgsLoop, hP, hR]
  rw [hloop]
  refine ⟨hspec.1, ?_⟩
  intro h
  rw [hspec.2 h, Bool.false_or]

/-- An object that is ready for a run as `iperf3` will make it, and whose reports do not
tell what it ran before. -/
structure NoStaleState (path : String) (history : List Run) (args : List String)
    (test : IperfTest) : Prop where
  returns : (parseArgs (path :: args) (afterRuns path history)).1 = true
  parallels : (parseArgs (path :: args) (afterRuns path history)).2.parallels = test.numStreams
  isDown : (parseArgs (path :: args) (afterRuns path history)).2.isDown = test.reverse
  sameReports : ∀ (earlier : List Run) (lines : List String),
    reports path ⟨args, lines⟩ (afterRuns path history) =
      reports path ⟨args, lines⟩ (afterRuns path earlier)

/-- An argument list that both sides read alike. The number of streams is given, and the
last `-P` that is a word of its own gives it in digits, as every other such word does; a
word `-R` stands for reverse mode and nothing else asks for it. -/
structure SpeltOut (machine : Machine) (args : List String) (options : List Delivered) :
    Prop where
  readable : ∀ w ∈ parallelWords args, w.isSome = true
  streams : (parallelWords args).getLast? =
    some (some ((lastParallel options).elim 1 (atoi machine)))
  reverse : "-R" ∈ args ↔ asksReverse options = true

/-- The lines of a run with one interval. -/
def oneInterval : List String :=
  ["[ ID] Interval           Transfer     Bandwidth",
    "[  4]   0.00-1.00   sec  2.18 MBytes  18.3 Mbits/sec"]

/-- The line of that interval is reported where one stream is expected, and not where none is. -/
theorem oneInterval_reports (parallels : ℤ) (isDown : Bool) (h : parallels = 0 ∨ parallels = 1) :
    ((parseLines oneInterval ⟨parallels, isDown, 0⟩).1.filter isReport).length =
      parallels.toNat := by
  rcases h with rfl | rfl
  · cases isDown
    · decide +kernel
    · decide +kernel
  · cases isDown
    · decide +kernel
    · decide +kernel

/-- Without a word `-P` the number of streams is that of an earlier run, and so the answer to
one and the same output depends on what ran before. -/
theorem stale_parallels (filesDir executableName : String) {args : List String}
    (h : parallelWords args = []) (n : ℤ) (hn : n = 0 ∨ n = 1) :
    (reports (cmdPath filesDir executableName) ⟨args, oneInterval⟩
      (afterRuns (cmdPath filesDir executableName) [⟨["-P", toString n], []⟩])).length =
        n.toNat := by
  have hwords : parallelWords ["-P", toString n] = [some n] := by
    rcases hn with rfl | rfl
    · decide +kernel
    · decide +kernel
  have hearlier := parseArgs_spec filesDir executableName ["-P", toString n] {}
  rw [hwords] at hearlier
  have hparsed := hearlier.1.mpr (by simp)
  have hafter : (afterRuns (cmdPath filesDir executableName) [⟨["-P", toString n], []⟩]).parallels =
      n := by
    have hstate := hearlier.2 hparsed
    simp only [afterRuns, exec, List.foldl_cons, List.foldl_nil]
    rw [if_pos hparsed]
    simp only [parseLines]
    rw [hstate]
    rfl
  have hspec := parseArgs_spec filesDir executableName args
    (afterRuns (cmdPath filesDir executableName) [⟨["-P", toString n], []⟩])
  rw [h, hafter] at hspec
  have hnext := hspec.1.mpr (by simp)
  have hexec : exec (cmdPath filesDir executableName) ⟨args, oneInterval⟩
      (afterRuns (cmdPath filesDir executableName) [⟨["-P", toString n], []⟩]) =
      parseLines oneInterval ⟨n, decide ("-R" ∈ args), 0⟩ := by
    unfold exec
    dsimp only
    rw [if_pos hnext, hspec.2 hnext]
    rfl
  unfold reports
  rw [hexec]
  exact oneInterval_reports n _ hn

/-- Nothing of an earlier run shows exactly when both sides read the arguments alike:
`Iperf3Cmd` by their words, `iperf3` through `getopt_long`. -/
theorem noStaleState_iff (filesDir executableName : String) (history : List Run)
    {args : List String} {t : ClientTest} (h : parseWords env args = .ok t) :
    NoStaleState (cmdPath filesDir executableName) history args t.test ↔
      SpeltOut env.machine args ((getoptLong args).getD []) := by
  obtain ⟨options, hoptions, hstreams, hreverse⟩ := parseWords_read h
  have hspec := parseArgs_spec filesDir executableName args
  rw [hoptions, Option.getD_some]
  constructor
  · intro hfresh
    have hreadable := (hspec _).1.mp hfresh.returns
    have hstate := (hspec _).2 hfresh.returns
    have hparallels := hfresh.parallels
    have hdown := hfresh.isDown
    rw [hstate] at hparallels hdown
    refine ⟨hreadable, ?_, ?_⟩
    · cases hlast : (parallelWords args).getLast? with
      | none =>
        have hnone : parallelWords args = [] := List.getLast?_eq_none_iff.mp hlast
        have hzero := stale_parallels filesDir executableName hnone 0 (Or.inl rfl)
        have hone := stale_parallels filesDir executableName hnone 1 (Or.inr rfl)
        rw [← hfresh.sameReports] at hzero hone
        omega
      | some w =>
        obtain ⟨m, hm⟩ := Option.isSome_iff_exists.mp (hreadable w (List.mem_of_getLast? hlast))
        rw [hm] at hlast ⊢
        rw [laterNumber_last hlast] at hparallels
        rw [← hstreams, ← hparallels]
    · rw [← hreverse, ← hdown, decide_eq_true_eq]
  · intro hspelt
    have hreturns : ∀ cmd, (parseArgs (cmdPath filesDir executableName :: args) cmd).1 = true :=
      fun cmd => (hspec cmd).1.mpr hspelt.readable
    have hstate : ∀ cmd, (parseArgs (cmdPath filesDir executableName :: args) cmd).2 =
        ⟨t.test.numStreams, decide ("-R" ∈ args), 0⟩ := by
      intro cmd
      rw [(hspec cmd).2 (hreturns cmd), laterNumber_last hspelt.streams, hstreams]
    refine ⟨hreturns _, ?_, ?_, ?_⟩
    · rw [hstate]
    · rw [hstate, hreverse]
      have hdown := hspelt.reverse
      cases hasks : asksReverse options with
      | true => simpa [hasks] using hdown
      | false => simpa [hasks] using hdown
    · intro earlier lines
      unfold reports exec
      dsimp only
      rw [if_pos (hreturns _), if_pos (hreturns _), hstate, hstate]

/-- A surrounding for examples. -/
def plainSurroundings : Surroundings :=
  ⟨zeroMachine, oldPlatform, fun _ => .number 0, fun _ => true, true⟩

/-- A second run without `-P`, which `iperf3` does with one stream, is read as one with
the four streams of the first. -/
theorem earlierStreams_kept :
    ¬∀ (env : Surroundings) (filesDir executableName : String) (history : List Run)
      (args : List String) (t : ClientTest), parseWords env args = .ok t →
        NoStaleState (cmdPath filesDir executableName) history args t.test := by
  intro hall
  cases hargs : parseWords plainSurroundings ["-c", "10.0.0.1"] with
  | error e =>
    have haccepted : (parseWords plainSurroundings ["-c", "10.0.0.1"]).toOption.isSome = true := by
      decide +kernel
    rw [hargs] at haccepted
    cases haccepted
  | ok t =>
    have hfresh := hall plainSurroundings "/data" "iperf3-arm"
      [⟨["-c", "10.0.0.1", "-P", "4"], []⟩] ["-c", "10.0.0.1"] t hargs
    obtain ⟨options, hoptions, hstreams, -⟩ := parseWords_read hargs
    have hone : t.test.numStreams = 1 := by
      have hlist : getoptLong ["-c", "10.0.0.1"] = some [(.short 'c', "10.0.0.1")] := by
        decide +kernel
      rw [hlist] at hoptions
      cases hoptions
      exact hstreams
    have hfour := hfresh.parallels
    rw [hone] at hfour
    exact absurd hfour (by decide +kernel)

/-- `-c 10.0.0.1 -P 4 -R`. -/
def fourStreams : List String := ["-c", "10.0.0.1", "-P", "4", "-R"]

/-- After an earlier command `-P 4` is parsed without stale state exactly if it is spelt out. -/
theorem fourStreams_fresh :
    ∃ t, parseWords plainSurroundings fourStreams = .ok t ∧
      (NoStaleState (cmdPath "/data" "iperf3-arm") [⟨["-c", "10.0.0.1"], []⟩] fourStreams t.test ↔
        SpeltOut zeroMachine fourStreams ((getoptLong fourStreams).getD [])) := by
  cases hargs : parseWords plainSurroundings fourStreams with
  | error e =>
    have haccepted : (parseWords plainSurroundings fourStreams).toOption.isSome = true := by
      decide +kernel
    rw [hargs] at haccepted
    cases haccepted
  | ok t =>
    exact ⟨t, rfl, noStaleState_iff "/data" "iperf3-arm" [⟨["-c", "10.0.0.1"], []⟩] hargs⟩

end IperfRuntime.CommandHistory
