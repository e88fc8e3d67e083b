import IperfRuntime.TestParameters

/-!
# Results exchange

`send_results` and `get_results`. The message is built and read as a tree. A malformed
message makes `get_results` fail but keeps what was assigned before the fault was met; a
`server_output_text` that is not a string crashes in `strdup`. The processor figures are
carried along but not computed.
-/

namespace IperfRuntime.ResultsExchange

open JsonTree TestState TestParameters

/-- A floating point node, whose integer slot is the truncated value. -/
def createDouble (q : ℚ) : CJson := .number (q.num.tdiv q.den) q

/-- The bytes a stream reports to the peer. -/
def transferredBytes (test : IperfTest) (sp : IperfStream) : ℕ :=
  if test.sender then (((sp.result.bytesSent : ℤ) - sp.result.bytesSentOmit) % 2 ^ 64).toNat
  else sp.result.bytesReceived

/-- One member of `streams`. -/
def streamResult (test : IperfTest) (sp : IperfStream) : CJson :=
  .object [
    ("id", createNumber sp.id),
    ("bytes", createNumber (transferredBytes test sp)),
    ("retransmits", createNumber
      (if test.sender && test.senderHasRetransmits != 0 then sp.result.streamRetrans else -1)),
    ("jitter", createDouble sp.jitter),
    ("errors", createNumber sp.cntError),
    ("packets", createNumber sp.packetCount)]

/-- The message of `send_results`; `jsonTop` is the JSON document of this end. -/
def sendResults (jsonTop : CJson) (test : IperfTest) : CJson :=
  .object <|
    [("cpu_util_total", createDouble test.cpuUtil.1),
      ("cpu_util_user", createDouble test.cpuUtil.2.1),
      ("cpu_util_system", createDouble test.cpuUtil.2.2),
      ("sender_has_retransmits",
        createNumber (if test.sender then test.senderHasRetransmits else -1))] ++
    (if test.role = .server ∧ test.getServerOutput then
      if test.jsonOutput then [("server_output_json", jsonTop)]
      else [("server_output_text", .string (String.join test.serverOutputList))]
    else []) ++
    [("streams", .array (test.streams.map (streamResult test)))]

/-- The six members of a stream's results. -/
structure StreamFigures where
  id : CJson
  bytes : CJson
  retransmits : CJson
  jitter : CJson
  errors : CJson
  packets : CJson

/-- The lookups in a member of `streams`; all six have to be there. -/
def streamFigures (j : CJson) : Option StreamFigures := do
  let id ← getObjectItem j "id"
  let bytes ← getObjectItem j "bytes"
  let retransmits ← getObjectItem j "retransmits"
  let jitter ← getObjectItem j "jitter"
  let errors ← getObjectItem j "errors"
  let packets ← getObjectItem j "packets"
  return ⟨id, bytes, retransmits, jitter, errors, packets⟩

/-- What the peer's figures overwrite on a stream. -/
def assignFigures (sender : Bool) (f : StreamFigures) (sp : IperfStream) : IperfStream :=
  if sender then
    { sp with
      jitter := f.jitter.valuedouble
      cntError := toInt f.errors.valueint
      packetCount := toInt f.packets.valueint
      result := { sp.result with bytesReceived := toUint64 f.bytes.valueint } }
  else
    { sp with result := { sp.result with
      bytesSent := toUint64 f.bytes.valueint
      streamRetrans := toInt f.retransmits.valueint } }

/-- The search for the stream with the given identifier; the first one counts. -/
def assignToStream (sender : Bool) (f : StreamFigures) :
    List IperfStream → Option (List IperfStream)
  | [] => none
  | sp :: rest =>
    if sp.id = toInt f.id.valueint then some (assignFigures sender f sp :: rest)
    else (assignToStream sender f rest).map (sp :: ·)

/-- One round of the loop over `streams`, with the return value so far. -/
def getStreamResult (s : Bool × IperfTest) (j : CJson) : Bool × IperfTest :=
  match streamFigures j with
  | none => (false, s.2)
  | some f =>
    match assignToStream s.2.sender f s.2.streams with
    | none => (false, s.2)
    | some streams => (s.1, { s.2 with streams := streams })

/-- The part of `get_results` about the server's output. -/
def getServerOutput (j : CJson) (s : Bool × IperfTest) : Option (Bool × IperfTest) :=
  if s.2.role = .client ∧ s.2.getServerOutput then
    match getObjectItem j "server_output_json" with
    | some output => some (s.1, { s.2 with jsonServerOutput := some output })
    | none =>
      match getObjectItem j "server_output_text" with
      | some output =>
        output.valuestring.map fun text => (s.1, { s.2 with serverOutputText := some text })
      | none => some s
  else some s

/-- The assignments in front of the loop over `streams`. -/
def getHeader (total user system retransmits : CJson) (test : IperfTest) : IperfTest :=
  { test with
    remoteCpuUtil := (total.valuedouble, user.valuedouble, system.valuedouble)
    senderHasRetransmits :=
      if test.sender then test.senderHasRetransmits else toInt retransmits.valueint }

/-- `get_results` on a message that parsed: whether it returns zero, and the test. -/
def getResults (j : CJson) (test : IperfTest) : Option (Bool × IperfTest) :=
  match getObjectItem j "cpu_util_total", getObjectItem j "cpu_util_user",
      getObjectItem j "cpu_util_system", getObjectItem j "sender_has_retransmits" with
  | some total, some user, some system, some retransmits =>
    let test := getHeader total user system retransmits test
    match getObjectItem j "streams" with
    | none => some (false, test)
    | some streams => getServerOutput j ((arrayItems streams).foldl getStreamResult (true, test))
  | _, _, _, _ => some (false, test)

end IperfRuntime.ResultsExchange
