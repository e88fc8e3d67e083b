import IperfRuntime.FinalReport
import IperfRuntime.JsonPrintf

/-!
# Reports under `-J`

The objects that `print_interval_results`, `iperf_print_intermediate` and
`iperf_print_results` add to the document of a test, each from its format. Every format
announces the members that its arguments are meant for. The values of non-finite rates are
undefined in C and are not compared; the rest of the document, its title and its containers,
is not built here.
-/

namespace IperfRuntime.JsonReports

open ClockReading JsonTree TestState PrintfText ReportOutput FinalReport JsonPrintf

/-- An `int` that is one or zero. -/
def flag (b : Bool) : Argument := .int (if b then 1 else 0)

/-- What the objects of an interval have in common. -/
def spanMembers (startTime : Timeval) (irp : IperfIntervalResults) (bytes : ℕ) : Entry :=
  [("start", .double (.finite (timevalDiff startTime irp.intervalStartTime))),
    ("end", .double (.finite (timevalDiff startTime irp.intervalEndTime))),
    ("seconds", .double (.finite irp.intervalDuration)), ("bytes", .int64 (int64 bytes)),
    ("bits_per_second", .double ((ratio bytes irp.intervalDuration).scale 8))]

/-- What the objects of a receiver of datagrams have in common. -/
def lossMembers (jitter : ℚ) (lost total : ℤ) : Entry :=
  [("jitter_ms", .double (.finite (jitter * 1000))), ("lost_packets", .int64 lost),
    ("packets", .int64 total), ("lost_percent", .double (.finite (lostPercentOf lost total)))]

/-- The object of a stream in an interval. -/
def streamMembers (test : IperfTest) (sp : IperfStream) (irp : IperfIntervalResults) : Entry :=
  ("socket", .int64 sp.socket) :: spanMembers sp.result.startTime irp irp.bytesTransferred ++
    (if isTcp test then
      if countsRetrans test then
        [("retransmits", .int64 irp.intervalRetrans), ("snd_cwnd", .int64 irp.sndCwnd),
          ("rtt", .int64 irp.rtt)]
      else []
    else if test.sender then [("packets", .int64 irp.intervalPacketCount)]
    else lossMembers irp.jitter irp.intervalCntError irp.intervalPacketCount) ++
    [("omitted", flag irp.omitted)]

/-- The object of all streams in an interval, timed by the first stream. -/
def sumMembers (test : IperfTest) (sp : IperfStream) (irp : IperfIntervalResults)
    (s : IntervalSums) : Entry :=
  spanMembers sp.result.startTime irp s.bytes ++
    if isTcp test then
      if countsRetrans test then
        [("retransmits", .int64 s.retransmits), ("omitted", flag irp.omitted)]
      else [("omitted", flag test.omitting)]
    else if test.sender then
      [("packets", .int64 s.totalPackets), ("omitted", flag test.omitting)]
    else
      lossMembers (s.avgJitter / test.numStreams) s.lostPackets s.totalPackets ++
        [("omitted", flag test.omitting)]

/-- The format that `print_interval_results` takes. -/
def streamFormat (tcp retrans sender : Bool) : String :=
  if tcp then
    if retrans then
      "socket: %d  start: %f  end: %f  seconds: %f  bytes: %d  bits_per_second: %f  " ++
        "retransmits: %d  snd_cwnd:  %d  rtt:  %d  omitted: %b"
    else
      "socket: %d  start: %f  end: %f  seconds: %f  bytes: %d  bits_per_second: %f  omitted: %b"
  else if sender then
    "socket: %d  start: %f  end: %f  seconds: %f  bytes: %d  bits_per_second: %f  packets: %d  " ++
      "omitted: %b"
  else
    "socket: %d  start: %f  end: %f  seconds: %f  bytes: %d  bits_per_second: %f  " ++
      "jitter_ms: %f  lost_packets: %d  packets: %d  lost_percent: %f  omitted: %b"

/-- The format that `iperf_print_intermediate` takes. -/
def sumFormat (tcp retrans sender : Bool) : String :=
  if tcp then
    if retrans then
      "start: %f  end: %f  seconds: %f  bytes: %d  bits_per_second: %f  retransmits: %d  " ++
        "omitted: %b"
    else
      "start: %f  end: %f  seconds: %f  bytes: %d  bits_per_second: %f  omitted: %b"
  else if sender then
    "start: %f  end: %f  seconds: %f  bytes: %d  bits_per_second: %f  packets: %d  omitted: %b"
  else
    "start: %f  end: %f  seconds: %f  bytes: %d  bits_per_second: %f  " ++
      "jitter_ms: %f  lost_packets: %d  packets: %d  lost_percent: %f  omitted: %b"

/-- Whether retransmits come into the summary of a sender. -/
def listsRetrans (test : IperfTest) : Bool := test.senderHasRetransmits != 0

/-- The members that `iperf_print_results` adds through `iperf_json_printf`. -/
inductive Summary where
  | sender
  | udp
  | diskfile
  | receiver
  | sumSent
  | sumReceived
  | sum
  | cpuUtilization
  deriving DecidableEq

def Summary.name : Summary → String
  | .sender => "sender"
  | .udp => "udp"
  | .diskfile => "diskfile"
  | .receiver => "receiver"
  | .sumSent => "sum_sent"
  | .sumReceived => "sum_received"
  | .sum => "sum"
  | .cpuUtilization => "cpu_utilization_percent"

/-- The format of a member. -/
def Summary.format (retrans : Bool) : Summary → String
  | .sender =>
    if retrans then
      "socket: %d  start: %f  end: %f  seconds: %f  bytes: %d  bits_per_second: %f  " ++
        "retransmits: %d  max_snd_cwnd:  %d  max_rtt:  %d  min_rtt:  %d  mean_rtt:  %d"
    else
      "socket: %d  start: %f  end: %f  seconds: %f  bytes: %d  bits_per_second: %f"
  | .udp =>
    "socket: %d  start: %f  end: %f  seconds: %f  bytes: %d  bits_per_second: %f  " ++
      "jitter_ms: %f  lost_packets: %d  packets: %d  lost_percent: %f  out_of_order: %d"
  | .diskfile => "sent: %d  size: %d  percent: %d  filename: %s"
  | .receiver =>
    "socket: %d  start: %f  end: %f  seconds: %f  bytes: %d  bits_per_second: %f"
  | .sumSent =>
    if retrans then
      "start: %f  end: %f  seconds: %f  bytes: %d  bits_per_second: %f  retransmits: %d"
    else "start: %f  end: %f  seconds: %f  bytes: %d  bits_per_second: %f"
  | .sumReceived =>
    "start: %f  end: %f  seconds: %f  bytes: %d  bits_per_second: %f"
  | .sum =>
    "start: %f  end: %f  seconds: %f  bytes: %d  bits_per_second: %f  " ++
      "jitter_ms: %f  lost_packets: %d  packets: %d  lost_percent: %f"
  | .cpuUtilization =>
    "host_total: %f  host_user: %f  host_system: %f  remote_total: %f  remote_user: %f  " ++
      "remote_system: %f"

/-- The member with a name. -/
def summaryOf (name : String) : Option Summary :=
  [Summary.sender, .udp, .diskfile, .receiver, .sumSent, .sumReceived, .sum, .cpuUtilization].find?
    (·.name == name)

/-- The object that `print_interval_results` adds to the streams of an interval. -/
def streamObject (test : IperfTest) (sp : IperfStream) (irp : IperfIntervalResults) :
    Option (Option (List (String × CJson))) :=
  iperfJsonPrintf (streamFormat (isTcp test) (countsRetrans test) test.sender)
    ((streamMembers test sp irp).map Prod.snd)

/-- The sum that `iperf_print_intermediate` adds to an interval. -/
def sumObject (test : IperfTest) (sp : IperfStream) (irp : IperfIntervalResults)
    (s : IntervalSums) : Option (Option (List (String × CJson))) :=
  iperfJsonPrintf (sumFormat (isTcp test) (countsRetrans test) test.sender)
    ((sumMembers test sp irp s).map Prod.snd)

/-- A value of the final report as it is passed. -/
def argumentOf : JsonValue → Argument
  | .int n => .int64 n
  | .real x => .double x
  | .text s => .text s

/-- The values of a member of the final report as they are passed. -/
def endMembers (entry : JsonEntry) : Entry := entry.map fun value => (value.1, argumentOf value.2)

/-- The object of a member that `iperf_print_results` adds. -/
def endObject (test : IperfTest) (member : String × JsonEntry) :
    Option (Option (List (String × CJson))) :=
  (summaryOf member.1).bind fun summary =>
    iperfJsonPrintf (summary.format (listsRetrans test)) ((endMembers member.2).map Prod.snd)

/-- The names that the objects of an interval have in common. -/
def spanFields : List (String × Char) :=
  [("start", 'f'), ("end", 'f'), ("seconds", 'f'), ("bytes", 'd'), ("bits_per_second", 'f')]

/-- The names that the objects of a receiver of datagrams have in common. -/
def lossFields : List (String × Char) :=
  [("jitter_ms", 'f'), ("lost_packets", 'd'), ("packets", 'd'), ("lost_percent", 'f')]

/-- The names of the object of a stream in an interval. -/
def streamFields (tcp retrans sender : Bool) : List (String × Char) :=
  ("socket", 'd') :: spanFields ++
    (if tcp then
      if retrans then [("retransmits", 'd'), ("snd_cwnd", 'd'), ("rtt", 'd')] else []
    else if sender then [("packets", 'd')] else lossFields) ++ [("omitted", 'b')]

/-- The names of the object of all streams in an interval. -/
def sumFields (tcp retrans sender : Bool) : List (String × Char) :=
  spanFields ++
    (if tcp then if retrans then [("retransmits", 'd')] else []
    else if sender then [("packets", 'd')] else lossFields) ++ [("omitted", 'b')]

variable (test : IperfTest) (sp : IperfStream) (irp : IperfIntervalResults) (s : IntervalSums)

/-- The entry of a stream has the announced fields of its direction and protocol. -/
theorem fields_streamMembers : (streamMembers test sp irp).fields =
    streamFields (isTcp test) (countsRetrans test) test.sender := by
  unfold streamMembers streamFields
  cases isTcp test with
  | false =>
    cases test.sender with
    | false => rfl
    | true => rfl
  | true =>
    cases countsRetrans test with
    | false => rfl
    | true => rfl

/-- So has the entry of the sum. -/
theorem fields_sumMembers : (sumMembers test sp irp s).fields =
    sumFields (isTcp test) (countsRetrans test) test.sender := by
  unfold sumMembers sumFields
  cases isTcp test with
  | false =>
    cases test.sender with
    | false => rfl
    | true => rfl
  | true =>
    cases countsRetrans test with
    | false => rfl
    | true => rfl

/-- The format of a stream announces those fields. -/
theorem streamFormat_announces (tcp retrans sender : Bool) :
    Announces (streamFormat tcp retrans sender) (streamFields tcp retrans sender) := by
  cases tcp with
  | false =>
    cases sender with
    | false =>
      apply announces_append
      decide +kernel +revert
    | true =>
      apply announces_append
      decide +kernel +revert
  | true =>
    cases retrans with
    | false =>
      apply announces_ofList
      decide +kernel +revert
    | true =>
      apply announces_append
      decide +kernel +revert

/-- So does the format of the sum. -/
theorem sumFormat_announces (tcp retrans sender : Bool) :
    Announces (sumFormat tcp retrans sender) (sumFields tcp retrans sender) := by
  cases tcp with
  | false =>
    cases sender with
    | false =>
      apply announces_append
      decide +kernel +revert
    | true =>
      apply announces_ofList
      decide +kernel +revert
  | true =>
    cases retrans with
    | false =>
      apply announces_ofList
      decide +kernel +revert
    | true =>
      apply announces_append
      decide +kernel +revert

/-- The object of a stream has the members that are meant. -/
theorem streamObject_eq :
    streamObject test sp irp = (streamMembers test sp irp).items.map some := by
  have h := streamFormat_announces (isTcp test) (countsRetrans test) test.sender
  rw [← fields_streamMembers test sp irp] at h
  exact iperfJsonPrintf_entry h

/-- So has the sum. -/
theorem sumObject_eq :
    sumObject test sp irp s = (sumMembers test sp irp s).items.map some := by
  have h := sumFormat_announces (isTcp test) (countsRetrans test) test.sender
  rw [← fields_sumMembers test sp irp s] at h
  exact iperfJsonPrintf_entry h

/-- The names of a member of the final report. -/
def Summary.fields (retrans : Bool) : Summary → List (String × Char)
  | .sender => ("socket", 'd') :: spanFields ++
    if retrans then
      [("retransmits", 'd'), ("max_snd_cwnd", 'd'), ("max_rtt", 'd'), ("min_rtt", 'd'),
        ("mean_rtt", 'd')]
    else []
  | .udp => ("socket", 'd') :: spanFields ++ lossFields ++ [("out_of_order", 'd')]
  | .diskfile => [("sent", 'd'), ("size", 'd'), ("percent", 'd'), ("filename", 's')]
  | .receiver => ("socket", 'd') :: spanFields
  | .sumSent => spanFields ++ if retrans then [("retransmits", 'd')] else []
  | .sumReceived => spanFields
  | .sum => spanFields ++ lossFields
  | .cpuUtilization => [("host_total", 'f'), ("host_user", 'f'), ("host_system", 'f'),
    ("remote_total", 'f'), ("remote_user", 'f'), ("remote_system", 'f')]

/-- The format of a summary announces the fields of the summary, which is a matter of reading
it once for each of the summaries. -/
theorem Summary.announces (retrans : Bool) (summary : Summary) :
    Announces (summary.format retrans) (summary.fields retrans) := by
  cases summary with
  | sender =>
    cases retrans with
    | false =>
      apply announces_ofList
      decide +kernel +revert
    | true =>
      apply announces_append
      decide +kernel +revert
  | sumSent =>
    cases retrans with
    | false =>
      apply announces_ofList
      decide +kernel +revert
    | true =>
      apply announces_ofList
      decide +kernel +revert
  | udp =>
    apply announces_append
    decide +kernel +revert
  | diskfile =>
    apply announces_ofList
    decide +kernel +revert
  | receiver =>
    apply announces_ofList
    decide +kernel +revert
  | sumReceived =>
    apply announces_ofList
    decide +kernel +revert
  | sum =>
    apply announces_append
    decide +kernel +revert
  | cpuUtilization =>
    apply announces_append
    decide +kernel +revert

/-- A member of the final report with the names that its format announces. -/
def Matches (member : String × JsonEntry) : Prop :=
  ∃ summary, summaryOf member.1 = some summary ∧
    (endMembers member.2).fields = summary.fields (listsRetrans test)

/-- The sender's part of the final report matches its format. -/
theorem matches_sender (endTime : ℚ) : Matches test ("sender", senderEntry test endTime sp) := by
  refine ⟨.sender, rfl, ?_⟩
  unfold senderEntry listsRetrans
  by_cases h : test.senderHasRetransmits = 0
  · rw [h]
    rfl
  · have hlists : (test.senderHasRetransmits != 0) = true := by simpa using h
    rw [if_pos h, hlists]
    rfl

/-- So does the part about the file. -/
theorem matches_diskfile (env : ReportEnv) {member : String × JsonEntry}
    (h : member ∈ diskfileEntry env test sp) : Matches test member := by
  unfold diskfileEntry at h
  split at h
  · cases h
  · split at h
    · cases h
    · cases List.mem_singleton.mp h
      exact ⟨.diskfile, rfl, rfl⟩

/-- So does each part of a stream's entry. -/
theorem matches_stream (env : ReportEnv) (endTime : ℚ) {member : String × JsonEntry}
    (h : member ∈ streamEntry env test endTime sp) : Matches test member := by
  unfold streamEntry at h
  split at h
  · rcases List.mem_append.mp h with h | h
    · rcases List.mem_cons.mp h with rfl | h
      · exact matches_sender test sp endTime
      · exact matches_diskfile test sp env h
    · cases List.mem_singleton.mp h
      exact ⟨.receiver, rfl, rfl⟩
  · rcases List.mem_cons.mp h with rfl | h
    · exact ⟨.udp, rfl, rfl⟩
    · exact matches_diskfile test sp env h

/-- So does each part of the totals. -/
theorem matches_total (endTime : ℚ) (s : ResultSums) {member : String × JsonEntry}
    (h : member ∈ totalEntries test endTime s) : Matches test member := by
  unfold totalEntries at h
  rcases List.mem_append.mp h with h | h
  · split at h
    · rcases List.mem_cons.mp h with rfl | h
      · refine ⟨.sumSent, rfl, ?_⟩
        unfold listsRetrans
        by_cases hzero : test.senderHasRetransmits = 0
        · rw [hzero]
          rfl
        · have hlists : (test.senderHasRetransmits != 0) = true := by simpa using hzero
          rw [if_pos hzero, hlists]
          rfl
      · cases List.mem_singleton.mp h
        exact ⟨.sumReceived, rfl, rfl⟩
    · cases List.mem_singleton.mp h
      exact ⟨.sum, rfl, rfl⟩
  · cases List.mem_singleton.mp h
    exact ⟨.cpuUtilization, rfl, rfl⟩

/-- The object of a member of the final report has the values that are meant. -/
theorem Matches.object {test : IperfTest} {member : String × JsonEntry} (h : Matches test member) :
    endObject test member = (endMembers member.2).items.map some := by
  obtain ⟨summary, hsummary, hfields⟩ := h
  have hannounces := summary.announces (listsRetrans test)
  rw [← hfields] at hannounces
  unfold endObject
  rw [hsummary, Option.bind_some]
  exact iperfJsonPrintf_entry hannounces

/-- Every object of the reports has the members that are meant for it: no format reads an argument
of another type or one that is not there, leaves the array for the names, or gives up. A rate
that is not finite is left undefined on both sides, as its conversion to `int64_t` is in C. -/
theorem reports_announced (env : ReportEnv) (test : IperfTest) :
    (∀ sp irp, streamObject test sp irp = (streamMembers test sp irp).items.map some) ∧
    (∀ sp irp s, sumObject test sp irp s = (sumMembers test sp irp s).items.map some) ∧
    ∀ e, jsonResults env test = some e → ∀ member ∈ e.streams.flatten ++ e.totals,
      endObject test member = (endMembers member.2).items.map some := by
  refine ⟨streamObject_eq test, sumObject_eq test, fun e he member hmember => ?_⟩
  unfold jsonResults at he
  split at he
  · cases he
    rcases List.mem_append.mp hmember with hmember | hmember
    · obtain ⟨entries, hentries, hin⟩ := List.mem_flatten.mp hmember
      obtain ⟨sp, -, rfl⟩ := List.mem_map.mp hentries
      exact (matches_stream test sp env _ hin).object
    · exact (matches_total test _ _ hmember).object
  · cases he

/-- An interval of ten seconds. -/
def tenSeconds : IperfIntervalResults :=
  { bytesTransferred := 1310720, intervalEndTime := ⟨10, 0⟩, intervalDuration := 10 }

/-- A stream with that interval. -/
def measuredStream : IperfStream :=
  { id := 1, socket := 5, diskfileFd := -1,
    result := { bytesSent := 1310720, endTime := ⟨10, 0⟩, intervalResults := [tenSeconds] } }

/-- A client under `-J` with this stream. -/
def jsonClient : IperfTest :=
  { role := .client, sender := true, numStreams := 1, jsonOutput := true,
    streams := [measuredStream] }

/-- The object of the interval and the five of the final report. -/
theorem jsonClient_announced :
    streamObject jsonClient measuredStream tenSeconds =
        (streamMembers jsonClient measuredStream tenSeconds).items.map some ∧
      ∃ e, jsonResults ⟨fun _ => none, 0, fun _ => 0⟩ jsonClient = some e ∧
        (e.streams.flatten ++ e.totals).length = 5 ∧
        ∀ member ∈ e.streams.flatten ++ e.totals,
          endObject jsonClient member = (endMembers member.2).items.map some := by
  obtain ⟨hstream, -, hend⟩ := reports_announced ⟨fun _ => none, 0, fun _ => 0⟩ jsonClient
  exact ⟨hstream _ _, _, rfl, rfl, hend _ rfl⟩

end IperfRuntime.JsonReports
