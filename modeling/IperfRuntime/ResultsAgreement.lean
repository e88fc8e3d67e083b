import IperfRuntime.StreamHistory
import IperfRuntime.ResultsFrame
import IperfRuntime.StreamCreation

/-!
# Agreement of results

What both ends hold once they have exchanged their results. Identifiers depend on the
position of a stream alone, so each figure of the peer reaches the stream it is about. Bytes
come out the same on both ends; the datagram counters are sent as they are while each end
subtracts its own snapshot, and agree exactly when the snapshots do. That the connection
delivers the message unchanged is assumed here and is shown elsewhere.
-/

namespace IperfRuntime.ResultsAgreement

open ClockReading JsonTree TestState TestParameters ParameterExchange ResultsExchange ResultsFrame
  StreamCreation ByteConservation StreamHistory StreamTraffic

/-- `iperf_add_stream` for one stream after the other. -/
def addStreams (sps : List IperfStream) (test : IperfTest) : IperfTest :=
  sps.foldl (fun test sp => iperfAddStream sp test) test

/-- The identifier of the stream at a position. -/
def positionId (i : ℕ) : ℤ := if i = 0 then 1 else i + 2

/-- Streams at different positions have different ids. -/
theorem positionId_injective : Function.Injective positionId := by
  intro i j h
  unfold positionId at h
  split at h
  · split at h <;> omega
  · split at h <;> omega

/-- The streams of a test in their order, each with the identifier of its position. -/
theorem addStreams_eq (sps : List IperfStream) (test : IperfTest) :
    addStreams sps test = { test with
      streams := test.streams ++ sps.mapIdx fun i sp =>
        { sp with id := positionId (test.streams.length + i) } } := by
  induction sps generalizing test with
  | nil => simp [addStreams]
  | cons sp rest ih =>
    have hid : (if test.streams.isEmpty then (1 : ℤ) else test.streams.length + 2) =
        positionId test.streams.length := by
      unfold positionId
      cases test.streams with
      | nil => rfl
      | cons a l => simp
    have hrest : addStreams (sp :: rest) test = addStreams rest (iperfAddStream sp test) := rfl
    rw [hrest, ih]
    unfold iperfAddStream
    rw [hid]
    simp [List.mapIdx_cons, Nat.add_comm, Nat.add_left_comm]

/-- A stream as `iperf_new_stream` returns it. -/
def NewStream (sp : IperfStream) : Prop :=
  sp = { socket := sp.socket, bufferFd := sp.bufferFd, diskfileFd := sp.diskfileFd }

/-- One end of a test, from its streams to its last transfer. -/
structure EndRun where
  platform : Platform
  /-- The test before it has streams. -/
  test : IperfTest
  /-- The streams in the order in which they are added. -/
  streams : List IperfStream
  now : Timeval
  events : List TransferEvent
  empty : test.streams = []
  new : ∀ sp ∈ streams, NewStream sp

/-- The end when the test starts. -/
def EndRun.start (e : EndRun) : IperfTest := startTest e.now (addStreams e.streams e.test)

/-- The end when the test is over. -/
def EndRun.finish (e : EndRun) : Option IperfTest := transferRun e.platform e.start e.events

/-- The identifiers of the given number of streams. -/
def positionIds (n : ℕ) : List ℤ := (List.range n).map positionId

/-- A run starts with the streams as they are, under the ids of their positions. -/
theorem EndRun.start_streams (e : EndRun) : e.start.streams =
    e.streams.mapIdx fun i sp => { sp with
      id := positionId i
      result := { sp.result with startTime := e.now, startTimeFixed := e.now } } := by
  unfold EndRun.start startTest IntervalStats.iperfInitTest
  rw [addStreams_eq]
  dsimp only
  rw [e.empty]
  refine List.ext_getElem (by simp) ?_
  intro i _ _
  simp

/-- New streams have no snapshots and no counts. -/
theorem EndRun.start_settled (e : EndRun) :
    SettledEnd e.test.sender (positionIds e.streams.length) e.start := by
  have hstreams := e.start_streams
  refine ⟨?_, ?_, ?_⟩
  · unfold EndRun.start startTest IntervalStats.iperfInitTest
    rw [addStreams_eq]
  · rw [hstreams]
    refine List.ext_getElem (by simp [positionIds]) ?_
    intro i _ _
    simp [positionIds]
  · intro sp hsp
    rw [hstreams] at hsp
    obtain ⟨i, hi, rfl⟩ := List.mem_mapIdx.mp hsp
    have hnew : NewStream e.streams[i] := e.new _ (List.getElem_mem hi)
    rw [hnew]
    have hzero : IsInt 0 := by decide
    exact ⟨le_rfl, fun _ => rfl, fun _ => ⟨rfl, rfl⟩, hzero, hzero⟩

/-- At the start nothing has been omitted. -/
theorem EndRun.start_omitted (e : EndRun) : ∀ sp ∈ e.start.streams, omittedCounts sp = (0, 0) := by
  intro sp hsp
  rw [e.start_streams] at hsp
  obtain ⟨i, hi, rfl⟩ := List.mem_mapIdx.mp hsp
  have hnew : NewStream e.streams[i] := e.new _ (List.getElem_mem hi)
  rw [hnew]
  rfl

/-- The members that a stream's results consist of. -/
def sentFigures (test : IperfTest) (sp : IperfStream) : StreamFigures where
  id := createNumber sp.id
  bytes := createNumber (transferredBytes test sp)
  retransmits := createNumber
    (if test.sender && test.senderHasRetransmits != 0 then sp.result.streamRetrans else -1)
  jitter := createDouble sp.jitter
  errors := createNumber sp.cntError
  packets := createNumber sp.packetCount

/-- The figures read from a sent object are those that were sent. -/
theorem streamFigures_sent (test : IperfTest) (sp : IperfStream) :
    streamFigures (streamResult test sp) = some (sentFigures test sp) := rfl

/-- The stream of an identifier is found behind streams with others. -/
theorem assignToStream_found {sender : Bool} {f : StreamFigures} {front rest : List IperfStream}
    {sp : IperfStream} (hid : sp.id = toInt f.id.valueint)
    (hfront : ∀ a ∈ front, a.id ≠ sp.id) :
    assignToStream sender f (front ++ sp :: rest) =
      some (front ++ assignFigures sender f sp :: rest) := by
  induction front with
  | nil =>
    rw [List.nil_append, assignToStream, if_pos hid]
    rfl
  | cons a front ih =>
    have ha : a.id ≠ toInt f.id.valueint := by
      rw [← hid]
      exact hfront a List.mem_cons_self
    rw [List.cons_append, assignToStream, if_neg ha,
      ih fun b hb => hfront b (List.mem_cons_of_mem _ hb)]
    rfl

/-- Assigning the peer's figures keeps the id of the stream. -/
theorem id_assignFigures (sender : Bool) (f : StreamFigures) (sp : IperfStream) :
    (assignFigures sender f sp).id = sp.id := by
  unfold assignFigures
  split
  · rfl
  · rfl

/-- Streams with the figures of the peer's streams at the same positions. -/
def mergeFigures (sender : Bool) (peer : IperfTest) (sent streams : List IperfStream) :
    List IperfStream :=
  List.zipWith (fun x y => assignFigures sender (sentFigures peer x) y) sent streams

/-- The results of all streams, each at its position: identifiers are distinct, so each item
finds the stream it was sent for. -/
theorem getStreamResults_sent (peer own : IperfTest) {sent front streams : List IperfStream}
    (hids : streams.map IperfStream.id = sent.map IperfStream.id)
    (hint : ∀ sp ∈ streams, IsInt sp.id)
    (hdistinct : (front ++ streams).Pairwise fun a b => a.id ≠ b.id) :
    (sent.map (streamResult peer)).foldl getStreamResult
        (true, { own with streams := front ++ streams }) =
      (true, { own with streams := front ++ mergeFigures own.sender peer sent streams }) := by
  induction sent generalizing front streams with
  | nil =>
    have hnil : streams = [] := by simpa using hids
    rw [hnil]
    rfl
  | cons x sent ih =>
    cases streams with
    | nil => cases hids
    | cons y streams =>
      rw [List.map_cons, List.map_cons] at hids
      obtain ⟨hid, hrest⟩ := List.cons.inj hids
      have hyint : IsInt y.id := hint y List.mem_cons_self
      have hkey : y.id = toInt (sentFigures peer x).id.valueint := by
        have hvalue : (sentFigures peer x).id.valueint = y.id := hid.symm
        rw [hvalue, toInt_of_isInt hyint]
      have hfront : ∀ a ∈ front, a.id ≠ y.id := by
        intro a ha
        have hpair := (List.pairwise_append.mp hdistinct).2.2
        exact hpair a ha y List.mem_cons_self
      have hround : getStreamResult (true, { own with streams := front ++ y :: streams })
          (streamResult peer x) = (true, { own with streams := (front ++
            [assignFigures own.sender (sentFigures peer x) y]) ++ streams }) := by
        unfold getStreamResult
        rw [streamFigures_sent]
        dsimp only
        rw [assignToStream_found hkey hfront]
        simp
      have hnext : ((front ++ [assignFigures own.sender (sentFigures peer x) y]) ++
          streams).Pairwise fun a b => a.id ≠ b.id := by
        have hmap : ((front ++ [assignFigures own.sender (sentFigures peer x) y]) ++
            streams).map IperfStream.id = (front ++ y :: streams).map IperfStream.id := by
          simp [id_assignFigures]
        have hnodup : ((front ++ y :: streams).map IperfStream.id).Nodup :=
          List.pairwise_map.mpr hdistinct
        rw [← hmap] at hnodup
        exact List.pairwise_map.mp hnodup
      rw [List.map_cons, List.foldl_cons, hround,
        ih hrest (fun sp hsp => hint sp (List.mem_cons_of_mem _ hsp)) hnext, List.append_assoc]
      rfl

/-- The server's output a message carries. -/
def serverOutput (jsonTop : CJson) (test : IperfTest) : List (String × CJson) :=
  if test.role = .server ∧ test.getServerOutput then
    if test.jsonOutput then [("server_output_json", jsonTop)]
    else [("server_output_text", .string (String.join test.serverOutputList))]
  else []

/-- The message around the server's output. -/
theorem sendResults_eq (jsonTop : CJson) (test : IperfTest) :
    sendResults jsonTop test = .object
      ([("cpu_util_total", createDouble test.cpuUtil.1),
        ("cpu_util_user", createDouble test.cpuUtil.2.1),
        ("cpu_util_system", createDouble test.cpuUtil.2.2),
        ("sender_has_retransmits",
          createNumber (if test.sender then test.senderHasRetransmits else -1))] ++
        serverOutput jsonTop test ++
          [("streams", .array (test.streams.map (streamResult test)))]) :=
  rfl

/-- The lookups in a message of `send_results` find what was put there; a text is a string and
a document is handed on as it is. -/
theorem sendResults_items (jsonTop : CJson) (test : IperfTest) :
    getObjectItem (sendResults jsonTop test) "cpu_util_total" =
        some (createDouble test.cpuUtil.1) ∧
      getObjectItem (sendResults jsonTop test) "cpu_util_user" =
        some (createDouble test.cpuUtil.2.1) ∧
      getObjectItem (sendResults jsonTop test) "cpu_util_system" =
        some (createDouble test.cpuUtil.2.2) ∧
      getObjectItem (sendResults jsonTop test) "sender_has_retransmits" =
        some (createNumber (if test.sender then test.senderHasRetransmits else -1)) ∧
      getObjectItem (sendResults jsonTop test) "streams" =
        some (.array (test.streams.map (streamResult test))) ∧
      ∀ item ∈ getObjectItem (sendResults jsonTop test) "server_output_text",
        item.valuestring.isSome = true := by
  rw [sendResults_eq]
  have houtput : serverOutput jsonTop test = [] ∨
      serverOutput jsonTop test = [("server_output_json", jsonTop)] ∨
      serverOutput jsonTop test =
        [("server_output_text", .string (String.join test.serverOutputList))] := by
    unfold serverOutput
    split
    · split
      · exact Or.inr (Or.inl rfl)
      · exact Or.inr (Or.inr rfl)
    · exact Or.inl rfl
  generalize serverOutput jsonTop test = output at houtput
  rcases houtput with rfl | rfl | rfl
  · refine ⟨rfl, rfl, rfl, rfl, rfl, ?_⟩
    intro item hitem
    cases hitem
  · refine ⟨rfl, rfl, rfl, rfl, rfl, ?_⟩
    intro item hitem
    cases hitem
  · refine ⟨rfl, rfl, rfl, rfl, rfl, ?_⟩
    intro item hitem
    cases hitem
    rfl

/-- A message that was sent keeps nobody from reading on. -/
theorem getServerOutput_sent (jsonTop : CJson) (test : IperfTest) (s : Bool × IperfTest) :
    ∃ s', getServerOutput (sendResults jsonTop test) s = some s' ∧ s'.1 = s.1 ∧
      s'.2.streams = s.2.streams := by
  obtain ⟨-, -, -, -, -, htext⟩ := sendResults_items jsonTop test
  unfold getServerOutput
  split
  · split
    · exact ⟨_, rfl, rfl, rfl⟩
    · split
      · rename_i output houtput
        obtain ⟨text, hvalue⟩ := Option.isSome_iff_exists.mp (htext output houtput)
        rw [hvalue]
        exact ⟨_, rfl, rfl, rfl⟩
      · exact ⟨_, rfl, rfl, rfl⟩
  · exact ⟨_, rfl, rfl, rfl⟩

/-- What an end makes of the other end's results: every stream gets the figures of the
stream at its position. -/
theorem getResults_sent (jsonTop : CJson) {peer own : IperfTest}
    (hids : own.streams.map IperfStream.id = peer.streams.map IperfStream.id)
    (hint : ∀ sp ∈ own.streams, IsInt sp.id)
    (hdistinct : own.streams.Pairwise fun a b => a.id ≠ b.id) :
    ∃ own', getResults (sendResults jsonTop peer) own = some (true, own') ∧
      own'.streams = mergeFigures own.sender peer peer.streams own.streams := by
  obtain ⟨htotal, huser, hsystem, hretransmits, hstreams, -⟩ := sendResults_items jsonTop peer
  unfold getResults
  rw [htotal, huser, hsystem, hretransmits, hstreams]
  dsimp only
  set header := getHeader (createDouble peer.cpuUtil.1) (createDouble peer.cpuUtil.2.1)
    (createDouble peer.cpuUtil.2.2)
    (createNumber (if peer.sender then peer.senderHasRetransmits else -1)) own with hheader
  have hfold := @getStreamResults_sent peer header peer.streams [] own.streams hids hint hdistinct
  have hself : { header with streams := [] ++ own.streams } = header := rfl
  rw [hself] at hfold
  have hitems : arrayItems (.array (peer.streams.map (streamResult peer))) =
      peer.streams.map (streamResult peer) := rfl
  rw [hitems, hfold]
  obtain ⟨s', hs', hok, hkeep⟩ := getServerOutput_sent jsonTop peer (true, { header with
    streams := [] ++ mergeFigures header.sender peer peer.streams own.streams })
  refine ⟨s'.2, ?_, hkeep⟩
  rw [hs']
  exact congrArg some (Prod.ext hok rfl)

/-- `iperf_exchange_results` on both ends; the client sends first. -/
def exchangeBoth (jsonTop : CJson) (client server : IperfTest) :
    Option ((Bool × IperfTest) × (Bool × IperfTest)) :=
  (getResults (sendResults jsonTop client) server).bind fun s =>
    if s.1 then (getResults (sendResults jsonTop s.2) client).map fun c => (c, s)
    else some ((false, client), s)

/-- The bytes a stream has sent, net of those of the omit period. -/
def netSent (sp : IperfStream) : ℕ :=
  (((sp.result.bytesSent : ℤ) - sp.result.bytesSentOmit) % 2 ^ 64).toNat

/-- What an exchange makes of a stream `a` of the sender and its stream `b` on the
receiver. -/
structure Exchanged (a b a' b' : IperfStream) : Prop where
  ids : a'.id = a.id ∧ b'.id = b.id
  sent_sender : a'.result.bytesSent = a.result.bytesSent
  omit_sender : a'.result.bytesSentOmit = a.result.bytesSentOmit
  sent_receiver : b'.result.bytesSent = toUint64 (netSent a)
  omit_receiver : b'.result.bytesSentOmit = b.result.bytesSentOmit
  received_sender : a'.result.bytesReceived = toUint64 b.result.bytesReceived
  received_receiver : b'.result.bytesReceived = b.result.bytesReceived
  packets : a'.packetCount = toInt b.packetCount ∧ b'.packetCount = b.packetCount
  errors : a'.cntError = toInt b.cntError ∧ b'.cntError = b.cntError
  omitted_sender : omittedCounts a' = omittedCounts a
  omitted_receiver : omittedCounts b' = omittedCounts b

/-- The two messages of a stream, the sender's first or the receiver's first. -/
theorem exchanged_sender_first {client server : IperfTest} (hc : client.sender = true)
    (hs : server.sender = false) (a b : IperfStream) :
    Exchanged a b
      (assignFigures true
        (sentFigures server (assignFigures false (sentFigures client a) b)) a)
      (assignFigures false (sentFigures client a) b) := by
  have hbytes : transferredBytes client a = netSent a := by
    unfold transferredBytes
    rw [hc]
    rfl
  have hreceived : transferredBytes server (assignFigures false (sentFigures client a) b) =
      b.result.bytesReceived := by
    unfold transferredBytes
    rw [hs]
    rfl
  have hsent : (assignFigures false (sentFigures client a) b).result.bytesSent =
      toUint64 (transferredBytes client a) := rfl
  have hback : (assignFigures true
      (sentFigures server (assignFigures false (sentFigures client a) b)) a).result.bytesReceived =
      toUint64 (transferredBytes server (assignFigures false (sentFigures client a) b)) := rfl
  rw [hbytes] at hsent
  rw [hreceived] at hback
  exact ⟨⟨rfl, rfl⟩, rfl, rfl, hsent, rfl, hback, rfl, ⟨rfl, rfl⟩, ⟨rfl, rfl⟩, rfl, rfl⟩

/-- Where the client receives, each end's stream takes over the figures of the other's. -/
theorem exchanged_receiver_first {client server : IperfTest} (hc : client.sender = false)
    (hs : server.sender = true) (a b : IperfStream) :
    Exchanged a b
      (assignFigures true (sentFigures client b) a)
      (assignFigures false
        (sentFigures server (assignFigures true (sentFigures client b) a)) b) := by
  have hreceived : transferredBytes client b = b.result.bytesReceived := by
    unfold transferredBytes
    rw [hc]
    rfl
  have hbytes : transferredBytes server (assignFigures true (sentFigures client b) a) =
      netSent a := by
    unfold transferredBytes
    rw [hs]
    rfl
  have hsent : (assignFigures false
      (sentFigures server (assignFigures true (sentFigures client b) a)) b).result.bytesSent =
      toUint64 (transferredBytes server (assignFigures true (sentFigures client b) a)) := rfl
  have hback : (assignFigures true (sentFigures client b) a).result.bytesReceived =
      toUint64 (transferredBytes client b) := rfl
  rw [hbytes] at hsent
  rw [hreceived] at hback
  exact ⟨⟨rfl, rfl⟩, rfl, rfl, hsent, rfl, hback, rfl, ⟨rfl, rfl⟩, ⟨rfl, rfl⟩, rfl, rfl⟩

/-- The sending end of two. -/
def sendingEnd (sends : Bool) (client server : IperfTest) : IperfTest :=
  if sends then client else server

/-- The receiving end of two. -/
def receivingEnd (sends : Bool) (client server : IperfTest) : IperfTest :=
  if sends then server else client

/-- Merging the peer's figures goes stream by stream. -/
theorem mergeFigures_getElem? (sender : Bool) (peer : IperfTest) {sent streams : List IperfStream}
    {i : ℕ} {x y : IperfStream} (hx : sent[i]? = some x) (hy : streams[i]? = some y) :
    (mergeFigures sender peer sent streams)[i]? =
      some (assignFigures sender (sentFigures peer x) y) := by
  unfold mergeFigures
  rw [List.getElem?_zipWith, hx, hy]

/-- It keeps the number of the streams. -/
theorem length_mergeFigures {sender : Bool} {peer : IperfTest} {sent streams : List IperfStream}
    (h : sent.length = streams.length) :
    (mergeFigures sender peer sent streams).length = streams.length := by
  unfold mergeFigures
  rw [List.length_zipWith, h, min_self]

/-- An end that has settled with the given ids has as many streams. -/
theorem length_of_ids {n : ℕ} {sender : Bool} {test : IperfTest}
    (h : SettledEnd sender (positionIds n) test) : test.streams.length = n := by
  have hlength := congrArg List.length h.ids
  simpa [positionIds] using hlength

/-- The identifiers of up to `2 ^ 31 - 2` streams are `int` and pairwise different. -/
theorem ids_of_settled {n : ℕ} {sender : Bool} {test : IperfTest} (hn : IsInt (n + 1))
    (h : SettledEnd sender (positionIds n) test) :
    (∀ sp ∈ test.streams, IsInt sp.id) ∧ test.streams.Pairwise fun a b => a.id ≠ b.id := by
  constructor
  · intro sp hsp
    have hid : sp.id ∈ positionIds n := by
      rw [← h.ids]
      exact List.mem_map_of_mem hsp
    obtain ⟨i, hi, heq⟩ := List.mem_map.mp hid
    have hlt : i < n := List.mem_range.mp hi
    unfold IsInt at hn ⊢
    rw [← heq]
    unfold positionId
    split
    · omega
    · omega
  · have hnodup : (positionIds n).Nodup := List.nodup_range.map positionId_injective
    rw [← h.ids] at hnodup
    exact List.pairwise_map.mp hnodup

/-- After the exchange, every stream stands against its counterpart, with the figures of the
peer in the place of those it does not count itself. -/
theorem exchangeBoth_exchanged (jsonTop : CJson) {n : ℕ} {sends : Bool} {client server : IperfTest}
    (hn : IsInt (n + 1)) (hc : SettledEnd sends (positionIds n) client)
    (hs : SettledEnd (!sends) (positionIds n) server) :
    ∃ client' server', exchangeBoth jsonTop client server =
        some ((true, client'), (true, server')) ∧
      client'.streams.length = n ∧ server'.streams.length = n ∧
      ∀ (i : ℕ) (a b : IperfStream), (sendingEnd sends client server).streams[i]? = some a →
        (receivingEnd sends client server).streams[i]? = some b →
        ∃ a' b', (sendingEnd sends client' server').streams[i]? = some a' ∧
          (receivingEnd sends client' server').streams[i]? = some b' ∧ Exchanged a b a' b' := by
  obtain ⟨hcint, hcdistinct⟩ := ids_of_settled hn hc
  obtain ⟨hsint, hsdistinct⟩ := ids_of_settled hn hs
  have hsids : server.streams.map IperfStream.id = client.streams.map IperfStream.id := by
    rw [hs.ids, hc.ids]
  have hclength := length_of_ids hc
  have hslength := length_of_ids hs
  obtain ⟨server', hserver, hsstreams⟩ := getResults_sent jsonTop hsids hsint hsdistinct
  have hskept := getResults_frame hserver
  have hssender : server'.sender = server.sender := by
    have hframe := congrArg IperfTest.sender hskept.test
    exact hframe
  have hlengths : client.streams.length = server.streams.length := by rw [hclength, hslength]
  have hslength' : server'.streams.length = n := by
    rw [hsstreams, length_mergeFigures hlengths, hslength]
  have hcids : client.streams.map IperfStream.id = server'.streams.map IperfStream.id := by
    have hframe : server'.streams.map IperfStream.id = server.streams.map IperfStream.id := by
      have hfigures := congrArg (List.map IperfStream.id) hskept.streams
      rw [List.map_map, List.map_map] at hfigures
      exact hfigures
    rw [hframe, hsids]
  obtain ⟨client', hclient, hcstreams⟩ := getResults_sent jsonTop hcids hcint hcdistinct
  have hclength' : client'.streams.length = n := by
    rw [hcstreams, length_mergeFigures (by rw [hslength', hclength]), hclength]
  refine ⟨client', server', ?_, hclength', hslength', ?_⟩
  · unfold exchangeBoth
    rw [hserver, Option.bind_some, if_pos rfl, hclient]
    rfl
  · intro i a b ha hb
    cases hsends : sends with
    | true =>
      rw [hsends] at ha hb hc hs
      have ha : client.streams[i]? = some a := ha
      have hb : server.streams[i]? = some b := hb
      have hfirst := mergeFigures_getElem? server.sender client ha hb
      rw [← hsstreams] at hfirst
      have hsecond := mergeFigures_getElem? client.sender server' hfirst ha
      rw [← hcstreams, hc.end_sender, hs.end_sender] at hsecond
      rw [hs.end_sender] at hfirst hssender
      exact ⟨_, _, hsecond, hfirst, exchanged_sender_first hc.end_sender hssender a b⟩
    | false =>
      rw [hsends] at ha hb hc hs
      have ha : server.streams[i]? = some a := ha
      have hb : client.streams[i]? = some b := hb
      have hfirst := mergeFigures_getElem? server.sender client hb ha
      rw [← hsstreams] at hfirst
      have hsecond := mergeFigures_getElem? client.sender server' hfirst hb
      rw [← hcstreams, hc.end_sender, hs.end_sender] at hsecond
      rw [hs.end_sender] at hfirst hssender
      exact ⟨_, _, hfirst, hsecond, exchanged_receiver_first hc.end_sender hssender a b⟩

/-- The bytes sent in the message are those counted, less the omitted ones. -/
theorem netSent_eq {sp : IperfStream} (homit : sp.result.bytesSentOmit ≤ sp.result.bytesSent)
    (hsent : sp.result.bytesSent < 2 ^ 53) :
    netSent sp = sp.result.bytesSent - sp.result.bytesSentOmit := by
  unfold netSent
  have hnet : (0 : ℤ) ≤ (sp.result.bytesSent : ℤ) - sp.result.bytesSentOmit := by omega
  have hlt : (sp.result.bytesSent : ℤ) - sp.result.bytesSentOmit < 2 ^ 64 := by omega
  rw [Int.emod_eq_of_lt hnet hlt]
  omega

/-- The bytes of a stream and of its counterpart. -/
theorem Exchanged.bytes {a b a' b' : IperfStream} (h : Exchanged a b a' b')
    (ha : Settled true a) (hb : Settled false b) (hsent : a.result.bytesSent < 2 ^ 53)
    (hreceived : b.result.bytesReceived < 2 ^ 53) :
    netSent a' = netSent a ∧ netSent b' = netSent a ∧
      a'.result.bytesReceived = b.result.bytesReceived ∧
      b'.result.bytesReceived = b.result.bytesReceived := by
  have hnet : netSent a < 2 ^ 53 := by
    rw [netSent_eq ha.omit_le hsent]
    omega
  have hback : b'.result.bytesSent = netSent a := by
    rw [h.sent_receiver, toUint64_of_lt hnet]
  have hzero : b'.result.bytesSentOmit = 0 := by
    have hidle := hb.idle rfl
    have homit := hb.omit_le
    rw [h.omit_receiver]
    omega
  refine ⟨?_, ?_, ?_, h.received_receiver⟩
  · unfold netSent
    rw [h.sent_sender, h.omit_sender]
  · have hle : b'.result.bytesSentOmit ≤ b'.result.bytesSent := by omega
    have hlt : b'.result.bytesSent < 2 ^ 53 := by omega
    rw [netSent_eq hle hlt, hback, hzero, Nat.sub_zero]
  · rw [h.received_sender, toUint64_of_lt hreceived]

/-- One stream on the given socket. -/
def oneStream (socket : ℤ) : List IperfStream := [{ socket := socket, bufferFd := 9 }]

/-- A client that sends four datagrams; its omit period ends before the last. -/
def omittingClient : EndRun where
  platform := ⟨true, true, fun h => h⟩
  test :=
    { role := .client, sender := true, protocol := .udp, omitSeconds := 1, multisend := 10,
      settings := { rate := 1048576 } }
  streams := oneStream 5
  now := {}
  events := [.send thousandBytes none, .send thousandBytes none, .send thousandBytes none,
    .endOmit {} fun _ => {}, .send thousandBytes none]
  empty := rfl
  new := by
    intro sp hsp
    rw [List.mem_singleton.mp hsp]
    rfl

/-- A datagram with the given counter reaches the socket. -/
def datagram (pcount : ℕ) : TransferEvent := .recv (fun _ => ⟨1000, {}, pcount, {}⟩) {5}

/-- A server that the second of the four does not reach. -/
def omittingServer : EndRun where
  platform := ⟨true, true, fun h => h⟩
  test := { role := .server, protocol := .udp, omitSeconds := 1 }
  streams := oneStream 5
  now := {}
  events := [datagram 1, datagram 3, .endOmit {} fun _ => {}, datagram 4]
  empty := rfl
  new := by
    intro sp hsp
    rw [List.mem_singleton.mp hsp]
    rfl

/-- The bytes of both ends behind an exchange, against those before it. -/
structure BytesAgree (n : ℕ) (sends : Bool) (client server client' server' : IperfTest) :
    Prop where
  ids_client : client'.streams.map IperfStream.id = positionIds n
  ids_server : server'.streams.map IperfStream.id = positionIds n
  distinct : (positionIds n).Nodup
  agree : ∀ i < n, ∃ a b x y, (sendingEnd sends client server).streams[i]? = some a ∧
    (receivingEnd sends client server).streams[i]? = some b ∧
    client'.streams[i]? = some x ∧ server'.streams[i]? = some y ∧
    netSent x = netSent a ∧ netSent y = netSent a ∧
    x.result.bytesReceived = b.result.bytesReceived ∧
    y.result.bytesReceived = b.result.bytesReceived

/-- An exchange keeps the identifiers. -/
theorem ids_exchangeBoth {jsonTop : CJson} {client server client' server' : IperfTest}
    (h : exchangeBoth jsonTop client server = some ((true, client'), (true, server'))) :
    client'.streams.map IperfStream.id = client.streams.map IperfStream.id ∧
      server'.streams.map IperfStream.id = server.streams.map IperfStream.id := by
  have hframe : ∀ {before after : IperfTest}, SameExchange before after →
      after.streams.map IperfStream.id = before.streams.map IperfStream.id := by
    intro before after hsame
    have hfigures := congrArg (List.map IperfStream.id) hsame.streams
    rw [List.map_map, List.map_map] at hfigures
    exact hfigures
  unfold exchangeBoth at h
  obtain ⟨r, hserver, hrest⟩ := Option.bind_eq_some_iff.mp h
  split at hrest
  · obtain ⟨q, hclient, heq⟩ := Option.map_eq_some_iff.mp hrest
    cases heq
    exact ⟨hframe (getResults_frame hclient), hframe (getResults_frame hserver)⟩
  · cases hrest

/-- Two settled ends are a settled sending end and a settled receiving end. -/
theorem settled_ends {n : ℕ} {sends : Bool} {client server : IperfTest}
    (hc : SettledEnd sends (positionIds n) client)
    (hs : SettledEnd (!sends) (positionIds n) server) :
    SettledEnd true (positionIds n) (sendingEnd sends client server) ∧
      SettledEnd false (positionIds n) (receivingEnd sends client server) := by
  cases sends with
  | true => exact ⟨hc, hs⟩
  | false => exact ⟨hs, hc⟩

/-- Both ends agree on the bytes of every stream. The sender's count crosses to the receiver
and the receiver's to the sender, each less what was omitted. -/
theorem bytes_agree (jsonTop : CJson) {client server : EndRun} {c s : IperfTest}
    (hdirection : server.test.sender = !client.test.sender)
    (hcount : server.streams.length = client.streams.length)
    (hn : IsInt (client.streams.length + 1))
    (hc : client.finish = some c) (hs : server.finish = some s)
    (hbytes : ∀ sp ∈ c.streams ++ s.streams,
      sp.result.bytesSent < 2 ^ 53 ∧ sp.result.bytesReceived < 2 ^ 53) :
    ∃ c' s', exchangeBoth jsonTop c s = some ((true, c'), (true, s')) ∧
      BytesAgree client.streams.length client.test.sender c s c' s' := by
  have hcend := client.start_settled.run hc
  have hsend := server.start_settled.run hs
  rw [hdirection, hcount] at hsend
  generalize client.streams.length = n at hn hcend hsend
  generalize client.test.sender = sends at hcend hsend
  obtain ⟨c', s', hexchange, hclength, hslength, hall⟩ :=
    exchangeBoth_exchanged jsonTop hn hcend hsend
  obtain ⟨hcids, hsids⟩ := ids_exchangeBoth hexchange
  obtain ⟨hsending, hreceiving⟩ := settled_ends hcend hsend
  refine ⟨c', s', hexchange, hcids.trans hcend.ids, hsids.trans hsend.ids,
    List.nodup_range.map positionId_injective, ?_⟩
  intro i hi
  have hia : i < (sendingEnd sends c s).streams.length := by rw [length_of_ids hsending]; exact hi
  have hib : i < (receivingEnd sends c s).streams.length := by
    rw [length_of_ids hreceiving]
    exact hi
  have ha := List.getElem?_eq_getElem hia
  have hb := List.getElem?_eq_getElem hib
  obtain ⟨a', b', ha', hb', hexchanged⟩ := hall i _ _ ha hb
  have hmem : ∀ sp, sp ∈ (sendingEnd sends c s).streams ∨ sp ∈ (receivingEnd sends c s).streams →
      sp ∈ c.streams ++ s.streams := by
    intro sp hsp
    cases sends with
    | true => exact List.mem_append.mpr hsp
    | false => exact List.mem_append.mpr hsp.symm
  have hsent := (hbytes _ (hmem _ (Or.inl (List.getElem_mem hia)))).1
  have hreceived := (hbytes _ (hmem _ (Or.inr (List.getElem_mem hib)))).2
  obtain ⟨hnetA, hnetB, hreceivedA, hreceivedB⟩ := hexchanged.bytes
    (hsending.streams _ (List.getElem_mem hia)) (hreceiving.streams _ (List.getElem_mem hib))
    hsent hreceived
  cases sends with
  | true => exact ⟨_, _, a', b', ha, hb, ha', hb', hnetA, hnetB, hreceivedA, hreceivedB⟩
  | false => exact ⟨_, _, b', a', ha, hb, hb', ha', hnetB, hnetA, hreceivedB, hreceivedA⟩

/-- Whether a run ends with byte counts below `2 ^ 53`. -/
def endsBounded (e : EndRun) : Bool :=
  e.finish.any fun test => test.streams.all fun sp =>
    decide (sp.result.bytesSent < 2 ^ 53) && decide (sp.result.bytesReceived < 2 ^ 53)

/-- The check on the bytes of an end is a bound on each of its streams. -/
theorem bounded_of_endsBounded {e : EndRun} (h : endsBounded e = true) :
    ∃ test, e.finish = some test ∧
      ∀ sp ∈ test.streams, sp.result.bytesSent < 2 ^ 53 ∧ sp.result.bytesReceived < 2 ^ 53 := by
  unfold endsBounded at h
  obtain ⟨test, htest, hall⟩ := (Option.any_eq_true _ _).mp h
  refine ⟨test, htest, ?_⟩
  intro sp hsp
  have hsp := List.all_eq_true.mp hall sp hsp
  simpa using hsp

/-- Both ends that omit agree on their bytes. -/
theorem omitting_bytes_agree :
    ∃ c s, omittingClient.finish = some c ∧ omittingServer.finish = some s ∧
      ∃ c' s', exchangeBoth .null c s = some ((true, c'), (true, s')) ∧
        BytesAgree 1 true c s c' s' := by
  have hclientBounded : endsBounded omittingClient = true := by decide +kernel
  have hserverBounded : endsBounded omittingServer = true := by decide +kernel
  obtain ⟨c, hc, hcbytes⟩ := bounded_of_endsBounded hclientBounded
  obtain ⟨s, hs, hsbytes⟩ := bounded_of_endsBounded hserverBounded
  refine ⟨c, s, hc, hs, @bytes_agree .null omittingClient omittingServer c s rfl rfl (by decide)
    hc hs ?_⟩
  intro sp hsp
  rcases List.mem_append.mp hsp with hclient | hserver
  · exact hcbytes sp hclient
  · exact hsbytes sp hserver

/-- The lost datagrams and all datagrams, as the final report prints them. -/
def lossTotals (sp : IperfStream) : ℤ × ℤ :=
  (sp.cntError - sp.omittedCntError, sp.packetCount - sp.omittedPacketCount)

/-- The totals that both ends print behind their exchange, the client's first. -/
def lossesAfter (jsonTop : CJson) (client server : EndRun) :
    Option (List (ℤ × ℤ) × List (ℤ × ℤ)) :=
  client.finish.bind fun c => server.finish.bind fun s =>
    (exchangeBoth jsonTop c s).bind fun r =>
      if r.1.1 && r.2.1 then some (r.1.2.streams.map lossTotals, r.2.2.streams.map lossTotals)
      else none

/-- The datagram counters of a stream when the omit period of an end was over. -/
def EndRun.omitCounts (e : EndRun) (i : ℕ) : ℤ × ℤ :=
  countsAtEndOmit e.platform e.start e.events i

/-- Each stream's receiver had lost nothing when its omit period was over, and the sender
had sent by the end of its own what the receiver had seen by then. -/
def OmitsMatch (client server : EndRun) : Prop :=
  ∀ i < client.streams.length,
    let sent := (if client.test.sender then client else server).omitCounts i
    let received := (if client.test.sender then server else client).omitCounts i
    sent.1 = received.1 ∧ received.2 = 0

/-- The totals of a stream and of its counterpart. -/
theorem Exchanged.losses_iff {a b a' b' : IperfStream} (h : Exchanged a b a' b')
    (ha : Settled true a) (hb : Settled false b) :
    lossTotals a' = lossTotals b' ↔
      a.omittedPacketCount = b.omittedPacketCount ∧ b.omittedCntError = 0 := by
  have hpackets : a'.packetCount = b.packetCount := by
    rw [h.packets.1, toInt_of_isInt hb.packetsInt]
  have herrors : a'.cntError = b.cntError := by
    rw [h.errors.1, toInt_of_isInt hb.errorsInt]
  have homitA := h.omitted_sender
  have homitB := h.omitted_receiver
  have hnone : a.omittedCntError = 0 := (ha.errors rfl).2
  unfold omittedCounts at homitA homitB
  rw [Prod.mk.injEq] at homitA homitB
  unfold lossTotals
  rw [hpackets, herrors, h.packets.2, h.errors.2, homitA.1, homitA.2, homitB.1, homitB.2, hnone,
    Prod.mk.injEq]
  omega

/-- Two lists of one length have equal images exactly if they have them at each position. -/
theorem map_eq_iff_getElem {α β : Type*} {f : α → β} {l l' : List α} {n : ℕ} (hl : l.length = n)
    (hl' : l'.length = n) :
    l.map f = l'.map f ↔ ∀ i < n, (l[i]?).map f = (l'[i]?).map f := by
  constructor
  · intro h i _
    have hi := congrArg (·[i]?) h
    simpa using hi
  · intro h
    refine List.ext_getElem? fun i => ?_
    rw [List.getElem?_map, List.getElem?_map]
    by_cases hi : i < n
    · exact h i hi
    · rw [List.getElem?_eq_none (by omega), List.getElem?_eq_none (by omega)]

/-- Both ends print the same losses exactly when their snapshots match, since the counters are
sent as they are and each end subtracts its own snapshot. -/
theorem losses_agree_iff (jsonTop : CJson) {client server : EndRun} {x y : List (ℤ × ℤ)}
    (hdirection : server.test.sender = !client.test.sender)
    (hcount : server.streams.length = client.streams.length)
    (hn : IsInt (client.streams.length + 1))
    (h : lossesAfter jsonTop client server = some (x, y)) :
    x = y ↔ OmitsMatch client server := by
  unfold lossesAfter at h
  obtain ⟨c, hc, h⟩ := Option.bind_eq_some_iff.mp h
  obtain ⟨s, hs, h⟩ := Option.bind_eq_some_iff.mp h
  obtain ⟨r, hr, h⟩ := Option.bind_eq_some_iff.mp h
  have hcend := client.start_settled.run hc
  have hsend := server.start_settled.run hs
  rw [hdirection, hcount] at hsend
  obtain ⟨c', s', hexchange, hclength, hslength, hall⟩ :=
    exchangeBoth_exchanged jsonTop hn hcend hsend
  obtain ⟨hsending, hreceiving⟩ := settled_ends hcend hsend
  rw [hexchange] at hr
  cases hr
  cases h
  rw [map_eq_iff_getElem hclength hslength]
  unfold OmitsMatch
  refine forall₂_congr fun i hi => ?_
  have hia : i < (sendingEnd client.test.sender c s).streams.length := by
    rw [length_of_ids hsending]
    exact hi
  have hib : i < (receivingEnd client.test.sender c s).streams.length := by
    rw [length_of_ids hreceiving]
    exact hi
  have ha := List.getElem?_eq_getElem hia
  have hb := List.getElem?_eq_getElem hib
  obtain ⟨a', b', ha', hb', hexchanged⟩ := hall i _ _ ha hb
  have hiff := hexchanged.losses_iff (hsending.streams _ (List.getElem_mem hia))
    (hreceiving.streams _ (List.getElem_mem hib))
  have hclient : ∀ sp, c.streams[i]? = some sp → omittedCounts sp = client.omitCounts i :=
    fun sp hsp => omittedCounts_eq hc client.start_omitted hsp
  have hserver : ∀ sp, s.streams[i]? = some sp → omittedCounts sp = server.omitCounts i :=
    fun sp hsp => omittedCounts_eq hs server.start_omitted hsp
  generalize (sendingEnd client.test.sender c s).streams[i] = a at ha hiff
  generalize (receivingEnd client.test.sender c s).streams[i] = b at hb hiff
  cases hsends : client.test.sender with
  | true =>
    rw [hsends] at ha hb ha' hb'
    have hx : c'.streams[i]? = some a' := ha'
    have hy : s'.streams[i]? = some b' := hb'
    rw [hx, hy, if_pos rfl, if_pos rfl, ← hclient a ha, ← hserver b hb]
    rw [Option.map_some, Option.map_some, Option.some.injEq, hiff]
    rfl
  | false =>
    rw [hsends] at ha hb ha' hb'
    have hx : s'.streams[i]? = some a' := ha'
    have hy : c'.streams[i]? = some b' := hb'
    simp only [Bool.false_eq_true, if_false]
    rw [hx, hy, ← hclient b hb, ← hserver a ha]
    rw [Option.map_some, Option.map_some, Option.some.injEq, eq_comm, hiff]
    rfl

/-- The client reports one datagram lost of one, the server none: a sender counts no loss
itself, so it has none of the omit period to subtract from the peer's count. -/
theorem omitting_losses_differ :
    lossesAfter .null omittingClient omittingServer = some ([(1, 1)], [(0, 1)]) ∧
      ([(1, 1)] : List (ℤ × ℤ)) ≠ [(0, 1)] := by
  constructor
  · decide +kernel
  · decide

/-- The same server without the loss. -/
def losslessServer : EndRun :=
  { omittingServer with
    events := [datagram 1, datagram 2, datagram 3, .endOmit {} fun _ => {}, datagram 4] }

/-- Without a loss at either end the losses agree exactly if the omitted counts do. -/
theorem lossless_losses_agree :
    lossesAfter .null omittingClient losslessServer = some ([(0, 1)], [(0, 1)]) ∧
      (([(0, 1)] : List (ℤ × ℤ)) = [(0, 1)] ↔ OmitsMatch omittingClient losslessServer) := by
  have hlosses : lossesAfter .null omittingClient losslessServer = some ([(0, 1)], [(0, 1)]) := by
    decide +kernel
  exact ⟨hlosses, @losses_agree_iff .null omittingClient losslessServer _ _ rfl rfl
    (by decide) hlosses⟩

end IperfRuntime.ResultsAgreement
