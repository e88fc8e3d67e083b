import IperfRuntime.OptionText
import IperfRuntime.TextPattern

/-!
# The command parser

`Iperf3Cmd`: its fields, the reading of an argument list and the classification of the
lines that the command writes. A conversion of a number that fails throws, which ends the
run; callbacks return normally. The two times of a report are given by the exact value of
their text.
-/

namespace IperfRuntime.CommandParser

open OptionText TextPattern

/-- The fields of an `Iperf3Cmd`. -/
structure Iperf3Cmd where
  parallels : ℤ := 0
  isDown : Bool := false
  titleCnt : ℕ := 0
  deriving DecidableEq

/-- The calls of a `CmdCallback`. -/
inductive CmdCallback where
  | onRawOutput (line : String)
  | onConnecting (addr : List Char) (port : ℤ)
  | onConnected (laddr : List Char) (lport : ℤ) (raddr : List Char) (rport : ℤ)
  | onInterval (st et : ℚ) (trans bw : List Char) (isDown : Bool)
  | onResult (st et : ℚ) (trans bw : List Char) (isDown : Bool)
  | onError (line : String)
  deriving DecidableEq

/-- The zeros of the blocks of decimal digits. -/
def digitZeros : List ℕ :=
  [0x30, 0x660, 0x6F0, 0x7C0, 0x966, 0x9E6, 0xA66, 0xAE6, 0xB66, 0xBE6, 0xC66, 0xCE6, 0xD66,
    0xDE6, 0xE50, 0xED0, 0xF20, 0x1040, 0x1090, 0x17E0, 0x1810, 0x1946, 0x19D0, 0x1A80, 0x1A90,
    0x1B50, 0x1BB0, 0x1C40, 0x1C50, 0xA620, 0xA8D0, 0xA900, 0xA9D0, 0xA9F0, 0xAA50, 0xABF0,
    0xFF10]

/-- `Character.digit`. -/
def decimalDigit (c : Char) : Option ℕ :=
  (digitZeros.find? fun first => decide (first ≤ c.toNat ∧ c.toNat < first + 10)).map
    fun first => c.toNat - first

/-- A number of digits only. -/
def readWhole : List Char → ℕ → Option ℕ
  | [], value => some value
  | c :: text, value =>
    match decimalDigit c with
    | some d => readWhole text (value * 10 + d)
    | none => none

/-- `String.toInt`, `none` when it throws. -/
def toInt (text : List Char) : Option ℤ :=
  let sign := readSign text
  match sign.2 with
  | [] => none
  | digits =>
    match readWhole digits 0 with
    | none => none
    | some value =>
      let n : ℤ := if sign.1 then -value else value
      if -2 ^ 31 ≤ n ∧ n < 2 ^ 31 then some n else none

/-- `String.toFloat` of the time of a report, `none` when it throws. -/
def toFloat (text : List Char) : Option ℚ :=
  match readDecimal text with
  | some (value, []) => some value
  | _ => none

/-- `.` of a regular expression. -/
def dot (c : Char) : Bool :=
  !(c == '\n' || c == '\r' || c.toNat == 0x85 || c.toNat == 0x2028 || c.toNat == 0x2029)

/-- `\d` of a regular expression. -/
def digit (c : Char) : Bool := c.isDigit

/-- The literal of a text. -/
def word (text : String) : Pattern := .literal text.toList

/-- A class once or more; `\s` is the class `isSpace`. -/
def some1 (member : Char → Bool) : Pattern := .chars member 1 none

/-- A class so many times. -/
def exactly (member : Char → Bool) (n : ℕ) : Pattern := .chars member n (some n)

/-- `CONNECTING_PATTERN`. -/
def connectingPattern : Pattern :=
  .group (sequence [word "Connecting to host ", .group (.chars dot 0 none), word ", port ",
    .group (some1 digit)])

/-- `CONNECTED_PATTERN`. -/
def connectedPattern : Pattern :=
  .group (sequence [word "local ", .group (.chars dot 0 none), word " port ",
    .group (some1 digit), word " connected to ", .group (.chars dot 0 none), word " port ",
    .group (some1 digit)])

/-- A time of a report. -/
def timePattern : Pattern :=
  .group (sequence [.chars digit 1 (some 2), exactly dot 1, exactly digit 2])

/-- A number of a report; any character stands before the decimals. -/
def numberPattern : List Pattern :=
  [some1 digit, .optional (.group (.seq (exactly dot 1) (some1 digit)))]

/-- `REPORT_PATTERN`. -/
def reportPattern : Pattern :=
  sequence [timePattern, word "-", timePattern, some1 isSpace, word "sec", some1 isSpace,
    .group (sequence (numberPattern ++
      [word " ", .chars (fun c => c ∈ ['K', 'M', 'G', 'T']) 0 (some 1), word "Bytes"])),
    some1 isSpace, .group (sequence (numberPattern ++ [word " Mbits/sec"]))]

/-- `UDP_LOSS`; its class has a range from `+` to the point. -/
def udpLoss : Pattern :=
  sequence [some1 digit, word "/", some1 digit, word " (",
    some1 (fun c => digit c || ('+' ≤ c && c ≤ '.') || c == 'e'), word "%)"]

/-- `TITLE_PATTERN`. -/
def titlePattern : Pattern :=
  sequence [word "[", some1 isSpace, word "ID]", some1 isSpace, word "Interval", some1 isSpace,
    word "Transfer", some1 isSpace, word "Bandwidth"]

/-- `String.contains`. -/
def containsText (line : String) (text : String) : Bool := (word text).occurs line.toList

/-- A line that counts for the number of streams. -/
def forStreams (cmd : Iperf3Cmd) (line : String) : Bool :=
  cmd.parallels == 1 || (decide (1 < cmd.parallels) && "[SUM]".toList.isPrefixOf line.toList)

/-- `isTcpInterval`. -/
def isTcpInterval (cmd : Iperf3Cmd) (line : String) : Bool :=
  cmd.titleCnt == 1 && forStreams cmd line

/-- `isUdpInterval`. -/
def isUdpInterval (cmd : Iperf3Cmd) (line : String) : Bool :=
  let isUdpUpInterval :=
    (cmd.titleCnt == 1 && !udpLoss.occurs line.toList) && forStreams cmd line
  let inUdpDownInterval :=
    (cmd.titleCnt == 1 && udpLoss.occurs line.toList) && forStreams cmd line
  isUdpUpInterval || inUdpDownInterval

/-- `isTcpResult`. -/
def isTcpResult (cmd : Iperf3Cmd) (line : String) : Bool :=
  let isLocalResult := (cmd.isDown && containsText line "receiver") ||
    (!cmd.isDown && containsText line "sender")
  decide (1 < cmd.titleCnt) && isLocalResult && forStreams cmd line

/-- `isUdpResult`. -/
def isUdpResult (cmd : Iperf3Cmd) (line : String) : Bool :=
  (decide (1 < cmd.titleCnt) && udpLoss.occurs line.toList) && forStreams cmd line

/-- `isInterval`. -/
def isInterval (cmd : Iperf3Cmd) (line : String) : Bool :=
  isTcpInterval cmd line || isUdpInterval cmd line

/-- `isResult`. -/
def isResult (cmd : Iperf3Cmd) (line : String) : Bool :=
  isTcpResult cmd line || isUdpResult cmd line

/-- The call for a line with an address to connect to; `none` where a conversion throws. -/
def connectingCalls (line : String) : Option (List CmdCallback) :=
  match connectingPattern.find line.toList with
  | none => some []
  | some mr => (toInt (groupValue mr 3)).map fun port => [.onConnecting (groupValue mr 2) port]

/-- The call for a line with both ends of a connection. -/
def connectedCalls (line : String) : Option (List CmdCallback) :=
  match connectedPattern.find line.toList with
  | none => some []
  | some mr =>
    match toInt (groupValue mr 3), toInt (groupValue mr 5) with
    | some lport, some rport =>
      some [.onConnected (groupValue mr 2) lport (groupValue mr 4) rport]
    | _, _ => none

/-- The call for a report. -/
def reportCalls (cmd : Iperf3Cmd) (line : String) : Option (List CmdCallback) :=
  match reportPattern.find line.toList with
  | none => some []
  | some mr =>
    match toFloat (groupValue mr 1), toFloat (groupValue mr 2) with
    | some st, some et =>
      if isInterval cmd line then
        some [.onInterval st et (groupValue mr 3) (groupValue mr 5) cmd.isDown]
      else if isResult cmd line then
        some [.onResult st et (groupValue mr 3) (groupValue mr 5) cmd.isDown]
      else some []
    | _, _ => none

/-- The call for a line with `ERR_PATTERN`. -/
def errorCalls (line : String) : Option (List CmdCallback) :=
  if containsText line "iperf3: error" then some [.onError line] else some []

/-- The calls up to the first conversion that throws, and whether none does. -/
def callsUntil : List (Option (List CmdCallback)) → List CmdCallback × Bool
  | [] => ([], true)
  | none :: _ => ([], false)
  | some calls :: rest => (calls ++ (callsUntil rest).1, (callsUntil rest).2)

/-- The count of title lines. -/
def countTitle (line : String) (cmd : Iperf3Cmd) : Iperf3Cmd :=
  if titlePattern.occurs line.toList then { cmd with titleCnt := cmd.titleCnt + 1 } else cmd

/-- `parseToCallback`: the calls, and whether it returns. -/
def parseToCallback (line : String) (cmd : Iperf3Cmd) : List CmdCallback × Bool :=
  callsUntil [some [.onRawOutput line], connectingCalls line, connectedCalls line,
    reportCalls (countTitle line cmd) line, errorCalls line]

/-- The loop over the lines of a run. -/
def parseLines : List String → Iperf3Cmd → List CmdCallback × Iperf3Cmd
  | [], cmd => ([], cmd)
  | line :: lines, cmd =>
    let r := parseToCallback line cmd
    if r.2 then
      let rest := parseLines lines (countTitle line cmd)
      (r.1 ++ rest.1, rest.2)
    else (r.1, countTitle line cmd)

/-- The loop of `parseArgs`; `false` when an index or a conversion throws. -/
def parseArgsLoop : List String → Iperf3Cmd → Bool × Iperf3Cmd
  | [], cmd => (true, cmd)
  | s :: rest, cmd =>
    if s = "-P" then
      match rest.head?.bind fun value => toInt value.toList with
      | some n => parseArgsLoop rest { cmd with parallels := n }
      | none => (false, cmd)
    else if s = "-R" then parseArgsLoop rest { cmd with isDown := true }
    else parseArgsLoop rest cmd

/-- `parseArgs`. -/
def parseArgs (cmdAndArgs : List String) (cmd : Iperf3Cmd) : Bool × Iperf3Cmd :=
  parseArgsLoop cmdAndArgs { cmd with isDown := false, titleCnt := 0 }

/-- `cmdPath`. -/
def cmdPath (filesDir executableName : String) : String := filesDir ++ "/" ++ executableName

/-- A call of `exec`: the argument list and the lines that are read from the process. -/
structure Run where
  args : List String
  lines : List String

/-- `exec`. -/
def exec (path : String) (run : Run) (cmd : Iperf3Cmd) : List CmdCallback × Iperf3Cmd :=
  let parsed := parseArgs (path :: run.args) cmd
  if parsed.1 then parseLines run.lines parsed.2 else ([], parsed.2)

/-- An object after a history of calls. -/
def afterRuns (path : String) (history : List Run) : Iperf3Cmd :=
  history.foldl (fun cmd run => (exec path run cmd).2) {}

/-- The calls that report a rate. -/
def isReport : CmdCallback → Bool
  | .onInterval _ _ _ _ _ => true
  | .onResult _ _ _ _ _ => true
  | _ => false

/-- The `onInterval` and `onResult` calls of a run. -/
def reports (path : String) (run : Run) (cmd : Iperf3Cmd) : List CmdCallback :=
  (exec path run cmd).1.filter isReport

example : reports "/data/iperf3-arm" ⟨["-P", "1", "-f", "m"],
      ["[ ID] Interval           Transfer     Bandwidth",
        "[  4]   0.00-1.00   sec  2.18 MBytes  18.3 Mbits/sec"]⟩ {} =
    [.onInterval 0 1 "2.18 MBytes".toList "18.3 Mbits/sec".toList false] := by
  decide +kernel

end IperfRuntime.CommandParser
