import IperfRuntime.EntryPointLimits

/-!
# Argument words

`iperf_parse_arguments` from the words of a command: `getopt_long` with the option tables of
the source, and the switch that takes what it delivers. Words that are no options are passed
over; `--` ends the options; a long name may be shortened as long as it is clear. The
environment variable `POSIXLY_CORRECT` is not looked at.
-/

namespace IperfRuntime.ArgumentWords

open TestState EntryPoints OptionText EntryPointLimits

/-- What `getopt_long` returns for an option. -/
inductive Flag where
  | short (c : Char)
  | optClientPort
  | optLogfile
  | optGetServerOutput
  | optUdpCounters64bit
  | optNoFqSocketPacing
  | optTmpPath
  deriving DecidableEq

/-- The short options; a colon follows those with an argument. -/
def optstring : List Char :=
  "p:f:i:D1VJvsc:ub:t:n:k:l:P:Rw:B:M:N46S:L:ZO:F:A:T:C:dI:hX:".toList

/-- `longopts` in this build, with whether an argument is required. -/
def longopts : List (String × Bool × Flag) :=
  [("port", true, .short 'p'), ("format", true, .short 'f'), ("interval", true, .short 'i'),
    ("daemon", false, .short 'D'), ("one-off", false, .short '1'),
    ("verbose", false, .short 'V'), ("json", false, .short 'J'),
    ("version", false, .short 'v'), ("server", false, .short 's'),
    ("client", true, .short 'c'), ("udp", false, .short 'u'), ("bandwidth", true, .short 'b'),
    ("time", true, .short 't'), ("bytes", true, .short 'n'), ("blockcount", true, .short 'k'),
    ("length", true, .short 'l'), ("parallel", true, .short 'P'),
    ("reverse", false, .short 'R'), ("window", true, .short 'w'), ("bind", true, .short 'B'),
    ("cport", true, .optClientPort), ("set-mss", true, .short 'M'),
    ("no-delay", false, .short 'N'), ("version4", false, .short '4'),
    ("version6", false, .short '6'), ("tos", true, .short 'S'),
    ("zerocopy", false, .short 'Z'), ("omit", true, .short 'O'), ("file", true, .short 'F'),
    ("title", true, .short 'T'), ("pidfile", true, .short 'I'), ("logfile", true, .optLogfile),
    ("get-server-output", false, .optGetServerOutput),
    ("udp-counters-64bit", false, .optUdpCounters64bit),
    ("no-fq-socket-pacing", false, .optNoFqSocketPacing), ("debug", false, .short 'd'),
    ("help", false, .short 'h'), ("tmp-path", true, .optTmpPath)]

/-- Whether a short option takes an argument, `none` for an unknown one. -/
def findShort (c : Char) : List Char → Option Bool
  | [] => none
  | o :: rest => if o = c ∧ c ≠ ':' then some (rest.head? == some ':') else findShort c rest

/-- A long option by its name or a beginning of it that only one name has. -/
def findLong (name : List Char) : Option (Bool × Flag) :=
  match longopts.find? fun o => o.1.toList = name with
  | some o => some o.2
  | none =>
    match longopts.filter fun o => name.isPrefixOf o.1.toList with
    | [o] => some o.2
    | _ => none

/-- How a word of short options ends. -/
inductive ClusterEnd where
  | complete
  /-- With an option and its argument. -/
  | attached (flag : Flag) (optarg : String)
  /-- With an option whose argument is the next word. -/
  | detached (flag : Flag)

/-- The short options of a word; `none` with an unknown one. -/
def cluster : List Char → Option (List Flag × ClusterEnd)
  | [] => some ([], .complete)
  | c :: text =>
    match findShort c optstring with
    | none => none
    | some true =>
      some ([], if text.isEmpty then .detached (.short c)
        else .attached (.short c) (String.ofList text))
    | some false => (cluster text).map fun r => (.short c :: r.1, r.2)

/-- An option with its argument, which is empty where there is none. -/
abbrev Delivered := Flag × String

/-- The options without arguments. -/
def plain (flags : List Flag) : List Delivered := flags.map fun flag => (flag, "")

/-- What `getopt_long` delivers; `none` when it reports an error. -/
def getoptLong : List String → Option (List Delivered)
  | [] => some []
  | s :: rest =>
    match s.toList with
    | ['-', '-'] => some []
    | '-' :: '-' :: long =>
      let name := long.takeWhile (· != '=')
      match findLong name, long.drop name.length with
      | some (true, flag), _ :: optarg =>
        (getoptLong rest).map ((flag, String.ofList optarg) :: ·)
      | some (true, flag), [] =>
        match rest with
        | optarg :: rest => (getoptLong rest).map ((flag, optarg) :: ·)
        | [] => none
      | some (false, flag), [] => (getoptLong rest).map ((flag, "") :: ·)
      | some (false, _), _ :: _ => none
      | none, _ => none
    | '-' :: c :: text =>
      match cluster (c :: text) with
      | some (flags, .complete) => (getoptLong rest).map (plain flags ++ ·)
      | some (flags, .attached flag optarg) =>
        (getoptLong rest).map (plain flags ++ (flag, optarg) :: ·)
      | some (flags, .detached flag) =>
        match rest with
        | optarg :: rest => (getoptLong rest).map (plain flags ++ (flag, optarg) :: ·)
        | [] => none
      | none => none
    | _ => getoptLong rest

/-- `strtol` with base zero: whether it finds a number, and the number. -/
def strtol (machine : Machine) (s : String) : Bool × ℤ :=
  let sign := readSign (s.toList.dropWhile isSpace)
  let digits : ℕ × ℕ × List Char := match sign.2 with
    | '0' :: x :: rest =>
      if x.toLower = 'x' then
        let r := readDigits 16 rest 0 0
        if r.2.1 = 0 then (0, 1, x :: rest) else r
      else readDigits 8 ('0' :: x :: rest) 0 0
    | text => readDigits 10 text 0 0
  let value : ℤ := digits.1
  (decide (digits.2.1 ≠ 0), machine.narrow (if sign.1 then -value else value))

/-- What the option switch finds around it. -/
structure Surroundings where
  machine : Machine
  platform : Platform
  /-- What the stack of `units.c` holds at an option. -/
  stack : ℕ → Double
  /-- Whether `fopen` opens the log file. -/
  opens : String → Bool
  /-- Whether the entry of `-X` can be allocated. -/
  malloc : Bool

/-- The case of the switch for an option. -/
def textOption (env : Surroundings) : Delivered → TextOption
  | (.short 'p', optarg) => .other (.port (atoi env.machine optarg)) rfl
  | (.short 'f', optarg) => .other (.format (optarg.toList.head?.getD (Char.ofNat 0))) rfl
  | (.short 'i', optarg) => .interval optarg
  | (.short 'D', _) => .other .daemon rfl
  | (.short '1', _) => .other .oneOff rfl
  | (.short 'V', _) => .other .verbose rfl
  | (.short 'J', _) => .other .json rfl
  | (.short 'v', _) => .other .version rfl
  | (.short 's', _) => .other .server rfl
  | (.short 'c', optarg) => .other (.client optarg) rfl
  | (.short 'u', _) => .other .udp rfl
  | (.short 'b', optarg) => .bandwidth optarg
  | (.short 't', optarg) => .time optarg
  | (.short 'n', optarg) => .bytes optarg
  | (.short 'k', optarg) => .blockcount optarg
  | (.short 'l', optarg) => .length optarg
  | (.short 'P', optarg) => .parallel optarg
  | (.short 'R', _) => .other .reverse rfl
  | (.short 'w', optarg) => .window optarg
  | (.short 'B', optarg) => .other (.bind optarg) rfl
  | (.optClientPort, optarg) => .other (.clientPort (atoi env.machine optarg)) rfl
  | (.short 'M', optarg) => .setMss optarg
  | (.short 'N', _) => .other .noDelay rfl
  | (.short '4', _) => .other .version4 rfl
  | (.short '6', _) => .other .version6 rfl
  | (.short 'S', optarg) =>
    .other (.tos (strtol env.machine optarg).1 (strtol env.machine optarg).2) rfl
  | (.short 'L', _) => .other .flowlabel rfl
  | (.short 'X', _) => .other (.xbind env.malloc) rfl
  | (.short 'Z', _) => .other .zerocopy rfl
  | (.short 'O', optarg) => .omitSeconds optarg
  | (.short 'F', optarg) => .other (.file optarg) rfl
  | (.short 'A', _) => .other .affinity rfl
  | (.short 'T', optarg) => .other (.title optarg) rfl
  | (.short 'C', _) => .other .congestion rfl
  | (.short 'd', _) => .other .debug rfl
  | (.short 'I', _) => .other .pidfile rfl
  | (.optLogfile, optarg) => .other (.logfile (env.opens optarg)) rfl
  | (.optGetServerOutput, _) => .other .getServerOutput rfl
  | (.optUdpCounters64bit, _) => .other .udpCounters64bit rfl
  | (.optNoFqSocketPacing, _) => .other .noFqSocketPacing rfl
  | (.optTmpPath, optarg) => .other (.tmpPath optarg) rfl
  | (.short _, _) => .other .help rfl

/-- The options with what the stack holds at each. -/
def textOptions (env : Surroundings) (options : List Delivered) : List (Double × TextOption) :=
  options.mapIdx fun i o => (env.stack i, textOption env o)

/-- `iperf_parse_arguments` on the words behind the name of the command. An error of
`getopt_long` ends in the usage text. -/
def parseWords (env : Surroundings) (args : List String) : Except ArgumentError ClientTest :=
  match getoptLong args with
  | none => .error .exited
  | some options => parseArgv env.machine env.platform (textOptions env options)

/-- The argument of the last `-P`. -/
def lastParallel (options : List Delivered) : Option String :=
  options.foldl (fun last o => if o.1 = .short 'P' then some o.2 else last) none

/-- Whether reverse mode is asked for. -/
def asksReverse (options : List Delivered) : Bool :=
  options.any fun o => o.1 = .short 'R'

example : getoptLong ["-c", "-P", "-uP4", "--par=8", "--rev", "x", "-R"] =
    some [(.short 'c', "-P"), (.short 'u', ""), (.short 'P', "4"), (.short 'P', "8"),
      (.short 'R', ""), (.short 'R', "")] := by
  decide +kernel

end IperfRuntime.ArgumentWords
