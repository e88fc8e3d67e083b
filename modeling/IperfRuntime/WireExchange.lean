import IperfRuntime.JsonFidelity
import IperfRuntime.ResultsAgreement

/-!
# Messages over a connection

`JSON_write` on one end and `JSON_read` on the other with the printer and the parser of
`cJSON` between them: what the parameters and the results of a test are when they arrive.
The allocator grants what is asked for, and texts keep below 2³¹ bytes.
-/

namespace IperfRuntime.WireExchange

open ByteOrder JsonTree JsonFraming SocketIo TestState EntryPoints TestParameters ParameterExchange
  ResultsExchange ResultsAgreement ResultsFrame StreamHistory ServerOutput JsonNumbers JsonText
  NumberAccuracy JsonRoundTrip JsonFidelity

/-- What the calls meet while one message passes. -/
structure Passage where
  /-- The writes of the length. -/
  writeHeader : List WriteEvent
  /-- The writes of the text. -/
  writeBody : List WriteEvent
  /-- The reads of the length. -/
  readHeader : List ReadEvent
  /-- The reads of the text. -/
  readBody : List ReadEvent
  /-- What the variable for the length holds before. -/
  nsize : Vector UInt8 4
  /-- Whether a buffer of a size is granted. -/
  calloc : ℕ → Bool
  /-- What follows the message on the connection. -/
  rest : List UInt8

/-- `cJSON_PrintUnformatted`, which has its memory. -/
def printed (json : CJson) : Option (List UInt8) := some (cjsonPrintUnformatted json)

/-- `JSON_read` on what `JSON_write` puts on the connection. -/
def Passage.receive (p : Passage) (P : PowerOfTen) (json : CJson) : JsonRead :=
  jsonRead (cjsonParse P) p.calloc p.nsize p.readHeader p.readBody
    ((jsonWrite printed p.writeHeader p.writeBody json).2 ++ p.rest)

/-- A passage that no call cuts short. -/
structure Passage.Completes (p : Passage) (P : PowerOfTen) (json : CJson) : Prop where
  short : (cjsonPrintUnformatted json).length < 2 ^ 31
  writeHeader : nwrite p.writeHeader 4 = ⟨.returned, 4⟩
  writeBody : nwrite p.writeBody (cjsonPrintUnformatted json).length =
    ⟨.returned, (cjsonPrintUnformatted json).length⟩
  readHeader : Delivered p.readHeader
  readBody : Delivered p.readBody
  returns : (p.receive P json).outcome = .returned
  granted : p.calloc ((cjsonPrintUnformatted json).length + 1) = true

/-- The whole message is read, and nothing behind it. -/
theorem Passage.Completes.received {p : Passage} {P : PowerOfTen} {json : CJson}
    (h : p.Completes P json) (hfinite : FiniteTree json) :
    (p.receive P json).json = some (reread P json) ∧ (p.receive P json).pending = p.rest := by
  have hwritten := @jsonWrite_written printed _ _ _ _ rfl h.short h.writeHeader h.writeBody
  have hclean : 0 ∉ cjsonPrintUnformatted json := zero_not_mem_printValue false json 0
  have hparse : cjsonParse P (cjsonPrintUnformatted json) = some (reread P json) :=
    cjsonParse_print P false hfinite 0
  have hreturns := h.returns
  unfold Passage.receive at hreturns ⊢
  rw [hwritten, List.append_assoc] at hreturns ⊢
  rw [jsonRead_written h.readHeader h.readBody h.short hclean hparse hreturns, h.granted,
      if_pos rfl]
  exact ⟨rfl, rfl⟩

/-- A call that takes all it is offered at once. -/
theorem nwrite_single {count more : ℕ} (h : count ≤ more + 1) :
    nwrite [.data more] count = ⟨.returned, count⟩ := by
  cases count with
  | zero => rfl
  | succ n =>
    have hmin : min (more + 1) (n + 1) = n + 1 := min_eq_right h
    unfold nwrite
    rw [nwriteLoop, hmin, Nat.sub_self, nwriteLoop, Nat.zero_add]

/-- A call that delivers all that is asked for at once. -/
theorem nread_single {count more : ℕ} {pending : List UInt8} (h : count ≤ more + 1)
    (hall : count ≤ pending.length) :
    nread [.data more] count pending = ⟨.returned, pending.take count, pending.drop count⟩ := by
  cases count with
  | zero => rfl
  | succ n =>
    have hmin : min (more + 1) (n + 1) = n + 1 := min_eq_right h
    have hlength : (pending.take (n + 1)).length = n + 1 := by
      rw [List.length_take]
      omega
    have hne : (pending.take (n + 1)).isEmpty = false := by
      rw [List.isEmpty_eq_false_iff, ← List.length_pos_iff, hlength]
      omega
    unfold nread
    rw [nreadLoop, hmin, hne, if_neg Bool.false_ne_true, hlength, Nat.sub_self, nreadLoop,
        List.nil_append]

/-- A connection on which every call does all of its work at once. -/
def directPassage (more : ℕ) : Passage where
  writeHeader := [.data 3]
  writeBody := [.data more]
  readHeader := [.data 3]
  readBody := [.data more]
  nsize := Vector.replicate 4 0
  calloc _ := true
  rest := []

/-- A passage that hands over all bytes at once completes every text that one read can hold. -/
theorem directPassage_completes (P : PowerOfTen) {json : CJson} {more : ℕ}
    (h : (cjsonPrintUnformatted json).length ≤ more + 1) (hshort : more + 1 < 2 ^ 31) :
    (directPassage more).Completes P json := by
  have hsmall : (cjsonPrintUnformatted json).length < 2 ^ 31 := by omega
  have hdelivered : ∀ n, Delivered [.data n] := by
    intro n e he
    exact ⟨n, List.mem_singleton.mp he⟩
  have hwritten := @jsonWrite_written printed _ _ _ _ rfl hsmall
    (nwrite_single (le_refl 4)) (nwrite_single h)
  have hread := @jsonRead_returned (cjsonParse P) (fun _ => true) (Vector.replicate 4 0) [.data 3]
    [.data more] (cjsonPrintUnformatted json).length (cjsonPrintUnformatted json) (by omega)
    (nread_single (le_refl 4) (by simp))
  refine ⟨hsmall, nwrite_single (le_refl 4), nwrite_single h, hdelivered 3,
      hdelivered more, ?_, rfl⟩
  unfold Passage.receive directPassage
  dsimp only
  rw [hwritten, List.append_nil, hread, if_pos rfl, readText_returned (nread_single h le_rfl)
    (by omega), if_pos ⟨hsmall, le_rfl⟩]

/-- A number that a message carries exactly. -/
theorem built_createNumber {n : ℤ} (h : |n| ≤ 2 ^ 53) : Built SmallInteger (createNumber n) :=
  Built.number ⟨rfl, h⟩

/-- An `int` is small enough to be a `double` without rounding. -/
theorem small_of_isInt {n : ℤ} (h : IsInt n) : |n| ≤ 2 ^ 53 := by
  obtain ⟨hlow, hhigh⟩ := h
  rw [abs_le]
  omega

/-- So is a counter below 2⁵³. -/
theorem small_of_lt {n : ℕ} (h : n < 2 ^ 53) : |(n : ℤ)| ≤ 2 ^ 53 := by
  rw [abs_le]
  omega

/-- A small integer is a finite `double`. -/
theorem finite_of_small {n : ℤ} (h : |n| ≤ 2 ^ 53) : FiniteDouble (n : ℚ) := by
  refine finite_of_abs_le ?_
  have hcast : |(n : ℚ)| ≤ 2 ^ 53 := by
    rw [← Int.cast_abs]
    exact_mod_cast h
  exact hcast.trans (by norm_num)

/-- The item of a small integer prints and reads without leaving the finite doubles. -/
theorem finite_createNumber {n : ℤ} (h : |n| ≤ 2 ^ 53) : FiniteTree (createNumber n) :=
  FiniteTree.number (finite_of_small h)

/-- Small integers are finite. -/
theorem finiteTree_of_small {t : CJson} (h : Built SmallInteger t) : FiniteTree t := by
  induction t using tree_induction with
  | null => exact FiniteTree.null
  | false => exact FiniteTree.false
  | true => exact FiniteTree.true
  | number i d =>
    cases h with
    | number h =>
      obtain ⟨rfl, hsmall⟩ := h
      exact finite_createNumber hsmall
  | string s => exact FiniteTree.string s
  | array children ih =>
    cases h with
    | array h => exact FiniteTree.array fun c hc => ih c hc (h c hc)
  | object members ih =>
    cases h with
    | object hnames hvalues => exact FiniteTree.object fun m hm => ih m hm (hvalues m hm)

section Entries

variable {number : ℤ → ℚ → Prop}

/-- What an entry brings, if it brings anything. -/
def EntryBuilt (number : ℤ → ℚ → Prop) (e : String × Option CJson) : Prop :=
  CText e.1 ∧ ∀ v ∈ e.2, Built number v

/-- An object whose members are built is built. -/
theorem built_entries {entries : List (String × Option CJson)}
    (h : ∀ e ∈ entries, EntryBuilt number e) :
    Built number (.object (entries.flatMap optionalMember)) := by
  have hmember : ∀ m ∈ entries.flatMap optionalMember, CText m.1 ∧ Built number m.2 := by
    intro m hm
    obtain ⟨⟨name, value⟩, he, hm⟩ := List.mem_flatMap.mp hm
    cases value with
    | none => cases hm
    | some v =>
      rw [List.mem_singleton.mp hm]
      exact ⟨(h _ he).1, (h _ he).2 v rfl⟩
  exact Built.object (fun m hm => (hmember m hm).1) fun m hm => (hmember m hm).2

/-- A flag that may be left out is built in both cases. -/
theorem entryBuilt_trueIf {key : String} (h : CText key) (sent : Bool) :
    EntryBuilt number (key, trueIf sent) := by
  refine ⟨h, fun v hv => ?_⟩
  cases sent with
  | true =>
    cases hv
    exact Built.true
  | false => cases hv

/-- A small number that may be left out is built in both cases. -/
theorem entryBuilt_numberIf {key : String} (h : CText key) {n : ℤ} (hn : |n| ≤ 2 ^ 53)
    (sent : Bool) : EntryBuilt SmallInteger (key, numberIf n sent) := by
  refine ⟨h, fun v hv => ?_⟩
  cases sent with
  | true =>
    cases hv
    exact built_createNumber hn
  | false => cases hv

/-- So is a text that a `char *` can hold, and its absence. -/
theorem entryBuilt_text {key : String} (h : CText key) {text : Option String}
    (htext : ∀ s ∈ text, CText s) : EntryBuilt number (key, text.map .string) := by
  refine ⟨h, fun v hv => ?_⟩
  obtain ⟨s, hs, rfl⟩ := Option.map_eq_some_iff.mp hv
  exact Built.string (htext s hs)

end Entries

/-- The texts of a test are those that a `char *` can hold. -/
structure CTexts (test : IperfTest) : Prop where
  title : ∀ s ∈ test.title, CText s
  congestion : ∀ s ∈ test.congestion, CText s

/-- The message of `send_parameters` survives its text: its numbers are small integers, and
its texts have no zero bytes. -/
theorem built_sendParameters {test : IperfTest} (h : Representable test) (htexts : CTexts test) :
    Built SmallInteger (sendParameters test) := by
  rw [sendParameters_eq]
  refine built_entries ?_
  unfold parameterEntries
  simp only [List.forall_mem_cons, List.not_mem_nil, false_imp_iff, implies_true, and_true]
  have hone : |(1 : ℤ)| ≤ 2 ^ 53 := by decide
  exact ⟨entryBuilt_trueIf (by decide) _, entryBuilt_trueIf (by decide) _,
    entryBuilt_trueIf (by decide) _,
    entryBuilt_numberIf (by decide) (small_of_isInt h.omitSeconds) _,
    entryBuilt_numberIf (by decide) (small_of_isInt h.serverAffinity) _,
    entryBuilt_numberIf (by decide) (small_of_isInt h.duration) _,
    entryBuilt_numberIf (by decide) (small_of_lt h.bytes) _,
    entryBuilt_numberIf (by decide) (small_of_lt h.blocks) _,
    entryBuilt_numberIf (by decide) (small_of_isInt h.mss) _, entryBuilt_trueIf (by decide) _,
    entryBuilt_numberIf (by decide) (small_of_isInt h.numStreams) _,
    entryBuilt_trueIf (by decide) _,
    entryBuilt_numberIf (by decide) (small_of_isInt h.socketBufsize) _,
    entryBuilt_numberIf (by decide) (small_of_isInt h.blksize) _,
    entryBuilt_numberIf (by decide) (small_of_lt h.rate) _,
    entryBuilt_numberIf (by decide) (small_of_isInt h.burst) _,
    entryBuilt_numberIf (by decide) (small_of_isInt h.tos) _,
    entryBuilt_numberIf (by decide) (small_of_isInt h.flowlabel) _,
    entryBuilt_text (by decide) htexts.title, entryBuilt_text (by decide) htexts.congestion,
    entryBuilt_numberIf (by decide) hone _, entryBuilt_numberIf (by decide) hone _,
    entryBuilt_numberIf (by decide) hone _, by decide,
    fun v hv => Option.some.inj hv ▸ Built.string (by decide)⟩

/-- The parameters of an accepted client cross the connection as they are: whatever pieces
`send_parameters` writes them in and `get_parameters` reads them in, a fresh server has the
client's settings with the roles exchanged, and nothing else is taken from the connection. -/
theorem parameters_cross (P : PowerOfTen) {platform platform' : Platform}
    {options : List CliOption} {test : IperfTest} {p : Passage}
    (hargs : iperfParseArguments platform options (iperfDefaults platform iperfNewTest) = .ok test)
    (hclient : test.role = .client) (honce : options.count .reverse ≤ 1)
    (hrange : Representable test) (htexts : CTexts test)
    (hpassage : p.Completes P (sendParameters test)) :
    (p.receive P (sendParameters test)).pending = p.rest ∧
      ∃ server, (p.receive P (sendParameters test)).json.bind
          (fun j => getParameters platform' j (freshServer platform')) = some server ∧
        parametersOf server = { parametersOf test with
          duration := if test.duration = 0 then durationDefault else test.duration
          sender := !test.sender } := by
  have hsmall := built_sendParameters hrange htexts
  obtain ⟨hjson, hrest⟩ := hpassage.received (finiteTree_of_small hsmall)
  rw [reread_exact P hsmall] at hjson
  obtain ⟨server, hserver, hparameters⟩ :=
    @parameters_arrive platform platform' options test hargs hclient honce hrange
  refine ⟨hrest, server, ?_, hparameters⟩
  rw [hjson, Option.bind_some]
  exact hserver

/-- The parameters of `-c 10.0.0.1 -R -P 4 -O 2`, in one piece over the connection, arrive at
a fresh server as they were. -/
theorem reversedClient_crosses :
    ((directPassage 1023).receive roundedPower (sendParameters reversedClient)).pending = [] ∧
      ∃ server,
          ((directPassage 1023).receive roundedPower (sendParameters reversedClient)).json.bind
          (fun j => getParameters ⟨true, true, fun h => h⟩ j
              (freshServer ⟨true, true, fun h => h⟩)) =
            some server ∧
        parametersOf server = { parametersOf reversedClient with
          duration := if reversedClient.duration = 0 then durationDefault
            else reversedClient.duration
          sender := !reversedClient.sender } := by
  have hargs : iperfParseArguments ⟨false, false, fun h => h⟩ reversedOptions
      (iperfDefaults ⟨false, false, fun h => h⟩ iperfNewTest) = .ok reversedClient := rfl
  have hrange : Representable reversedClient := by
    constructor <;> decide +kernel
  have hlength : (cjsonPrintUnformatted (sendParameters reversedClient)).length ≤ 1023 + 1 := by
    decide +kernel
  have htexts : CTexts reversedClient := by
    constructor
    · intro s hs
      cases hs
    · intro s hs
      cases hs
  exact @parameters_cross roundedPower ⟨false, false, fun h => h⟩ ⟨true, true, fun h => h⟩
    reversedOptions reversedClient (directPassage 1023) hargs rfl (by decide) hrange htexts
    (directPassage_completes roundedPower hlength (by decide))

/-- What is read of a `double` that was printed. -/
def readDouble (P : PowerOfTen) (q : ℚ) : ℚ :=
  (printedDecimal (q.num.tdiv q.den) q).elim 0 fun x => x.read P

/-- A finite double comes back within the tolerance of fifteen printed digits. -/
theorem readDouble_close (P : PowerOfTen) {q : ℚ} (h : FiniteDouble q) :
    |readDouble P q - q| ≤ tolerance q := by
  obtain ⟨x, hx⟩ := Option.isSome_iff_exists.mp (printedDecimal_isSome q)
  unfold readDouble
  rw [hx]
  exact printedDecimal_close P h hx

/-- A finite double comes back as a finite double, also at the upper end of the range. -/
theorem readDouble_finite (P : PowerOfTen) {q : ℚ} (h : FiniteDouble q) :
    FiniteDouble (readDouble P q) := by
  obtain ⟨x, hx⟩ := Option.isSome_iff_exists.mp (printedDecimal_isSome q)
  unfold readDouble
  rw [hx]
  exact (printedDecimal_inRange P h hx).finite

/-- Rereading the item of a double is the item of the reread double. -/
theorem reread_createDouble (P : PowerOfTen) (q : ℚ) :
    reread P (createDouble q) = createDouble (readDouble P q) := by
  obtain ⟨x, hx⟩ := Option.isSome_iff_exists.mp (printedDecimal_isSome q)
  unfold createDouble readDouble
  rw [reread]
  unfold rereadNumber
  rw [hx]
  rfl

/-- The item of a small integer comes back as it was. -/
theorem reread_createNumber (P : PowerOfTen) {n : ℤ} (h : |n| ≤ 2 ^ 53) :
    reread P (createNumber n) = createNumber n := reread_exact P (built_createNumber h)

/-- A stream as its results arrive. -/
def seenStream (P : PowerOfTen) (sp : IperfStream) : IperfStream :=
  { sp with jitter := readDouble P sp.jitter }

/-- A test as its results arrive. -/
def seen (P : PowerOfTen) (test : IperfTest) : IperfTest :=
  { test with
    cpuUtil := (readDouble P test.cpuUtil.1, readDouble P test.cpuUtil.2.1,
      readDouble P test.cpuUtil.2.2)
    streams := test.streams.map (seenStream P) }

/-- Processor use that a `double` can hold. -/
def FiniteUtil (util : ℚ × ℚ × ℚ) : Prop :=
  FiniteDouble util.1 ∧ FiniteDouble util.2.1 ∧ FiniteDouble util.2.2

instance (util : ℚ × ℚ × ℚ) : Decidable (FiniteUtil util) :=
  inferInstanceAs (Decidable (_ ∧ _))

/-- The integers of a stream's results are exact as doubles, and its jitter is finite. -/
structure StreamExact (test : IperfTest) (sp : IperfStream) : Prop where
  id : IsInt sp.id
  bytes : transferredBytes test sp < 2 ^ 53
  retransmits : test.sender = true → IsInt sp.result.streamRetrans
  errors : IsInt sp.cntError
  packets : IsInt sp.packetCount
  jitter : FiniteDouble sp.jitter

/-- Results that a message carries: the integers are exact as doubles, the fractions are finite,
and the output is a text that a `char *` can hold. -/
structure ResultsExact (test : IperfTest) : Prop where
  retransmits : test.sender = true → IsInt test.senderHasRetransmits
  streams : ∀ sp ∈ test.streams, StreamExact test sp
  output : CText (String.join test.serverOutputList)
  cpuUtil : FiniteUtil test.cpuUtil

/-- The retransmits of a message are small, and so is the mark for none. -/
theorem abs_retransmits {test : IperfTest} {sp : IperfStream} (h : StreamExact test sp) :
    |if test.sender && test.senderHasRetransmits != 0 then
      sp.result.streamRetrans else -1| ≤ 2 ^ 53 := by
  split
  · rename_i hsends
    exact small_of_isInt (h.retransmits (Bool.and_eq_true_iff.mp hsends).1)
  · decide

/-- The retransmit flag of a message is small, and so is the mark of a receiver. -/
theorem abs_flag {test : IperfTest} (h : ResultsExact test) :
    |if test.sender then test.senderHasRetransmits else -1| ≤ 2 ^ 53 := by
  split
  · rename_i hsends
    exact small_of_isInt (h.retransmits hsends)
  · decide

/-- The figures of a stream come back as those of the stream as the peer sees it. -/
theorem reread_streamResult (P : PowerOfTen) {test : IperfTest} {sp : IperfStream}
    (h : StreamExact test sp) :
    reread P (streamResult test sp) = streamResult (seen P test) (seenStream P sp) := by
  have hretransmits := abs_retransmits h
  unfold streamResult
  rw [reread, rereadMembers_eq]
  simp only [List.map_cons, List.map_nil]
  rw [reread_createNumber P (small_of_isInt h.id), reread_createNumber P (small_of_lt h.bytes),
    reread_createNumber P hretransmits, reread_createDouble,
    reread_createNumber P (small_of_isInt h.errors),
    reread_createNumber P (small_of_isInt h.packets), rereadString_of_cText (by decide),
    rereadString_of_cText (by decide), rereadString_of_cText (by decide),
    rereadString_of_cText (by decide), rereadString_of_cText (by decide),
    rereadString_of_cText (by decide)]
  rfl

/-- The output of a server comes back as its text, or as its document reread. -/
theorem reread_serverOutput (P : PowerOfTen) (jsonTop : CJson) {test : IperfTest}
    (h : CText (String.join test.serverOutputList)) :
    (serverOutput jsonTop test).map (fun m => (rereadString m.1, reread P m.2)) =
      serverOutput (reread P jsonTop) (seen P test) := by
  have hsame : serverOutput (reread P jsonTop) (seen P test) =
      serverOutput (reread P jsonTop) test := rfl
  rw [hsame]
  unfold serverOutput
  split
  · split
    · have hname : CText "server_output_json" := by decide
      rw [List.map_singleton, rereadString_of_cText hname]
    · have hname : CText "server_output_text" := by decide
      rw [List.map_singleton, rereadString_of_cText hname, reread, rereadString_of_cText h]
  · rfl

/-- The message of `send_results` arrives as the message of a test with rounded fractions. -/
theorem reread_sendResults (P : PowerOfTen) (jsonTop : CJson) {test : IperfTest}
    (h : ResultsExact test) :
    reread P (sendResults jsonTop test) = sendResults (reread P jsonTop) (seen P test) := by
  have hretransmits := abs_flag h
  have hstreams : (test.streams.map (streamResult test)).map (reread P) =
      (test.streams.map (seenStream P)).map (streamResult (seen P test)) := by
    rw [List.map_map, List.map_map]
    exact List.map_congr_left fun sp hsp => reread_streamResult P (h.streams sp hsp)
  rw [sendResults_eq, sendResults_eq, reread, rereadMembers_eq]
  simp only [List.map_append, List.map_cons, List.map_nil]
  rw [reread_createDouble, reread_createDouble, reread_createDouble,
    reread_createNumber P hretransmits, reread_serverOutput P jsonTop h.output, reread,
    rereadEntries_eq, hstreams, rereadString_of_cText (by decide),
    rereadString_of_cText (by decide),
    rereadString_of_cText (by decide), rereadString_of_cText (by decide),
    rereadString_of_cText (by decide)]
  rfl

/-- The numbers of a results message are finite when its parts are. -/
theorem finiteTree_message {jsonTop : CJson} {test : IperfTest} (hjson : FiniteTree jsonTop)
    (hcpu : FiniteUtil test.cpuUtil)
    (hflag : FiniteTree (createNumber (if test.sender then test.senderHasRetransmits else -1)))
    (hstreams : ∀ sp ∈ test.streams, FiniteTree (streamResult test sp)) :
    FiniteTree (sendResults jsonTop test) := by
  have houtput : ∀ m ∈ serverOutput jsonTop test, FiniteTree m.2 := by
    unfold serverOutput
    split
    · split
      · exact List.forall_mem_singleton.mpr hjson
      · exact List.forall_mem_singleton.mpr (FiniteTree.string _)
    · exact fun m hm => absurd hm List.not_mem_nil
  have harray : FiniteTree (.array (test.streams.map (streamResult test))) := by
    refine FiniteTree.array fun c hc => ?_
    obtain ⟨sp, hsp, rfl⟩ := List.mem_map.mp hc
    exact hstreams sp hsp
  rw [sendResults_eq]
  refine FiniteTree.object ?_
  simp only [List.forall_mem_append, List.forall_mem_cons, List.not_mem_nil, false_imp_iff,
    implies_true, and_true]
  exact ⟨⟨⟨FiniteTree.number hcpu.1, FiniteTree.number hcpu.2.1, FiniteTree.number hcpu.2.2,
    hflag⟩, houtput⟩, harray⟩

/-- The message of an end with counters in range has finite numbers only. -/
theorem finiteTree_sendResults {jsonTop : CJson} {test : IperfTest} (h : ResultsExact test)
    (hjson : FiniteTree jsonTop) : FiniteTree (sendResults jsonTop test) := by
  refine finiteTree_message hjson h.cpuUtil (finite_createNumber (abs_flag h)) fun sp hsp => ?_
  have hstream := h.streams sp hsp
  unfold streamResult
  refine FiniteTree.object ?_
  simp only [List.forall_mem_cons, List.not_mem_nil, false_imp_iff, implies_true, and_true]
  exact ⟨finite_createNumber (small_of_isInt hstream.id),
    finite_createNumber (small_of_lt hstream.bytes), finite_createNumber (abs_retransmits hstream),
    FiniteTree.number hstream.jitter, finite_createNumber (small_of_isInt hstream.errors),
    finite_createNumber (small_of_isInt hstream.packets)⟩

/-- `get_results` on what the peer's `send_results` put on the connection. -/
def readResults (P : PowerOfTen) (p : Passage) (jsonTop : CJson) (peer own : IperfTest) :
    Option (Bool × IperfTest) :=
  match (p.receive P (sendResults jsonTop peer)).json with
  | none => some (false, own)
  | some j => getResults j own

/-- Over a passage that completes, the results are those of the peer as the reader sees it. -/
theorem readResults_complete {P : PowerOfTen} {p : Passage} {jsonTop : CJson}
    {peer : IperfTest} (own : IperfTest) (h : p.Completes P (sendResults jsonTop peer))
    (hexact : ResultsExact peer) (hjson : FiniteTree jsonTop) :
    readResults P p jsonTop peer own =
      getResults (sendResults (reread P jsonTop) (seen P peer)) own := by
  unfold readResults
  rw [(h.received (finiteTree_sendResults hexact hjson)).1, reread_sendResults P jsonTop hexact]

/-- What `get_results` takes from the head of a message. -/
def headOf (test : IperfTest) : (ℚ × ℚ × ℚ) × ℤ := (test.remoteCpuUtil, test.senderHasRetransmits)

/-- The loop over the streams leaves the figures at the head of the message alone. -/
theorem getStreamResults_head (items : List CJson) (s : Bool × IperfTest) :
    headOf (items.foldl getStreamResult s).2 = headOf s.2 := by
  induction items generalizing s with
  | nil => rfl
  | cons j items ih =>
    have hstep : headOf (getStreamResult s j).2 = headOf s.2 := by
      unfold getStreamResult
      split
      · rfl
      · split
        · rfl
        · rfl
    rw [List.foldl_cons, ih, hstep]

/-- So does the output of the server. -/
theorem getServerOutput_head {j : CJson} {s s' : Bool × IperfTest}
    (h : getServerOutput j s = some s') : headOf s'.2 = headOf s.2 := by
  unfold getServerOutput at h
  split at h
  · split at h
    · cases h
      rfl
    · split at h
      · obtain ⟨text, -, rfl⟩ := Option.map_eq_some_iff.mp h
        rfl
      · cases h
        rfl
  · cases h
    rfl

/-- The head of a message that was sent. -/
theorem getResults_head {jsonTop : CJson} {peer own : IperfTest} {r : Bool × IperfTest}
    (h : getResults (sendResults jsonTop peer) own = some r) :
    r.2.remoteCpuUtil = peer.cpuUtil ∧
      (own.sender = true → r.2.senderHasRetransmits = own.senderHasRetransmits) := by
  obtain ⟨htotal, huser, hsystem, hretransmits, hstreams, -⟩ := sendResults_items jsonTop peer
  unfold getResults at h
  rw [htotal, huser, hsystem, hretransmits, hstreams] at h
  dsimp only at h
  have hhead := (getServerOutput_head h).trans (getStreamResults_head _ _)
  obtain ⟨hcpu, hflag⟩ := Prod.ext_iff.mp hhead
  refine ⟨hcpu, fun hsends => hflag.trans ?_⟩
  exact if_pos hsends

/-- What the peer's figures make of a stream is exact again. -/
theorem StreamExact.assign {test test' : IperfTest} {sp : IperfStream} (h : StreamExact test sp)
    (hsender : test'.sender = test.sender) {f : StreamFigures}
    (hjitter : FiniteDouble f.jitter.valuedouble) :
    StreamExact test' (assignFigures test.sender f sp) := by
  cases hsends : test.sender with
  | true =>
    have hbytes := h.bytes
    unfold transferredBytes at hbytes
    rw [hsends, if_pos rfl] at hbytes
    refine ⟨h.id, ?_, fun _ => h.retransmits hsends, isInt_toInt _, isInt_toInt _,
      hjitter⟩
    unfold transferredBytes
    rw [hsender, hsends, if_pos rfl]
    exact hbytes
  | false =>
    have hbytes := h.bytes
    unfold transferredBytes at hbytes
    rw [hsends, if_neg Bool.false_ne_true] at hbytes
    refine ⟨h.id, ?_, fun hon => ?_, h.errors, h.packets, h.jitter⟩
    · unfold transferredBytes
      rw [hsender, hsends, if_neg Bool.false_ne_true]
      exact hbytes
    · rw [hsender, hsends] at hon
      cases hon

/-- The peer is seen with its identifiers as they are. -/
theorem map_id_seen (P : PowerOfTen) (test : IperfTest) :
    (seen P test).streams.map IperfStream.id = test.streams.map IperfStream.id := by
  unfold seen
  rw [List.map_map]
  rfl

/-- What an end makes of the results that arrive, and what it has to send then, are those of a
message that was never printed. -/
theorem readResults_told {P : PowerOfTen} {p : Passage} {jsonTop : CJson} {peer own : IperfTest}
    (hpassage : p.Completes P (sendResults jsonTop peer)) (hpeer : ResultsExact peer)
    (hown : ResultsExact own) (hjson : FiniteTree jsonTop)
    (hids : own.streams.map IperfStream.id = peer.streams.map IperfStream.id)
    (hdistinct : own.streams.Pairwise fun a b => a.id ≠ b.id) :
    ∃ own', readResults P p jsonTop peer own = some (true, own') ∧
      own'.streams = mergeFigures own.sender (seen P peer) (seen P peer).streams own.streams ∧
      own'.remoteCpuUtil = (seen P peer).cpuUtil ∧ own'.sender = own.sender ∧
      own'.cpuUtil = own.cpuUtil ∧
      own'.streams.map IperfStream.id = own.streams.map IperfStream.id ∧ ResultsExact own' := by
  have hseen : own.streams.map IperfStream.id = (seen P peer).streams.map IperfStream.id := by
    rw [map_id_seen, hids]
  obtain ⟨own', hread, hstreams⟩ := getResults_sent (reread P jsonTop) hseen
    (fun sp hsp => (hown.streams sp hsp).id) hdistinct
  have hframe := (getResults_frame hread).test
  have hside := congrArg IperfTest.sender hframe
  have hsender : own'.sender = own.sender := hside
  have hutil := congrArg IperfTest.cpuUtil hframe
  have hlist := congrArg IperfTest.serverOutputList hframe
  obtain ⟨hcpu, hflag⟩ := getResults_head hread
  have hkept : own'.streams.map IperfStream.id = own.streams.map IperfStream.id := by
    have hfigures := congrArg (List.map IperfStream.id) (getResults_frame hread).streams
    rw [List.map_map, List.map_map] at hfigures
    exact hfigures
  refine ⟨own', ?_, hstreams, hcpu, hsender, hutil, hkept, ?_⟩
  · rw [readResults_complete own hpassage hpeer hjson, hread]
  · constructor
    · intro hsends
      have hon : own.sender = true := hsender.symm.trans hsends
      have hsame : own'.senderHasRetransmits = own.senderHasRetransmits := hflag hon
      rw [hsame]
      exact hown.retransmits hon
    · intro sp hsp
      rw [hstreams] at hsp
      unfold mergeFigures at hsp
      obtain ⟨i, hi, rfl⟩ := List.mem_iff_getElem.mp hsp
      rw [List.getElem_zipWith]
      refine (hown.streams _ (List.getElem_mem _)).assign hsender ?_
      have hseen (k : ℕ) (hk : k < (seen P peer).streams.length) :
          FiniteDouble (seen P peer).streams[k].jitter := by
        obtain ⟨x, hx, hsame⟩ := List.mem_map.mp (List.getElem_mem hk)
        rw [← hsame]
        exact readDouble_finite P (hpeer.streams x hx).jitter
      exact hseen i _
    · have hsame : own'.serverOutputList = own.serverOutputList := hlist
      rw [hsame]
      exact hown.output
    · have hsame : own'.cpuUtil = own.cpuUtil := hutil
      rw [hsame]
      exact hown.cpuUtil

/-- `iperf_exchange_results` on both ends over a connection; the client sends first. -/
def exchangeOver (P : PowerOfTen) (up down : Passage) (jsonTop : CJson)
    (client server : IperfTest) : Option ((Bool × IperfTest) × (Bool × IperfTest)) :=
  (readResults P up jsonTop client server).bind fun s =>
    if s.1 then (readResults P down jsonTop s.2 client).map fun c => (c, s)
    else some ((false, client), s)

/-- Processor use as the other end knows it. -/
def UtilClose (told own : ℚ × ℚ × ℚ) : Prop :=
  |told.1 - own.1| ≤ tolerance own.1 ∧ |told.2.1 - own.2.1| ≤ tolerance own.2.1 ∧
    |told.2.2 - own.2.2| ≤ tolerance own.2.2

/-- What two ends know of each other behind their exchange. Both have the bytes of every stream
exactly; the datagrams, the losses and, within its tolerance, the jitter go to the sending end
only, for `get_results` assigns them under `test->sender`. Each has the other's processor use within
its tolerance. -/
structure Told (n : ℕ) (sends : Bool) (client server client' server' : IperfTest) : Prop where
  clientKnows : UtilClose client'.remoteCpuUtil server.cpuUtil
  serverKnows : UtilClose server'.remoteCpuUtil client.cpuUtil
  streams : ∀ i < n, ∃ a b a' b', (sendingEnd sends client server).streams[i]? = some a ∧
    (receivingEnd sends client server).streams[i]? = some b ∧
    (sendingEnd sends client' server').streams[i]? = some a' ∧
    (receivingEnd sends client' server').streams[i]? = some b' ∧
    netSent a' = netSent a ∧ netSent b' = netSent a ∧
    a'.result.bytesReceived = b.result.bytesReceived ∧
    b'.result.bytesReceived = b.result.bytesReceived ∧
    a'.packetCount = b.packetCount ∧ a'.cntError = b.cntError ∧
    b'.jitter = b.jitter ∧ |a'.jitter - b.jitter| ≤ tolerance b.jitter

/-- The processor figures are seen within the tolerance. -/
theorem utilClose_seen (P : PowerOfTen) {test : IperfTest} (h : FiniteUtil test.cpuUtil) :
    UtilClose (seen P test).cpuUtil test.cpuUtil :=
  ⟨readDouble_close P h.1, readDouble_close P h.2.1, readDouble_close P h.2.2⟩

/-- The messages of a stream with rounded fractions, the sender's first. -/
theorem exchanged_seen_sender (P : PowerOfTen) {client server : IperfTest}
    (hc : client.sender = true) (hs : server.sender = false) (a b : IperfStream) :
    Exchanged a b
      (assignFigures true (sentFigures (seen P server) (seenStream P
        (assignFigures false (sentFigures (seen P client) (seenStream P a)) b))) a)
      (assignFigures false (sentFigures (seen P client) (seenStream P a)) b) := by
  have h := @exchanged_sender_first (seen P client) (seen P server) hc hs (seenStream P a) b
  exact ⟨h.ids, h.sent_sender, h.omit_sender, h.sent_receiver, h.omit_receiver, h.received_sender,
    h.received_receiver, h.packets, h.errors, h.omitted_sender, h.omitted_receiver⟩

/-- The receiver's first. -/
theorem exchanged_seen_receiver (P : PowerOfTen) {client server : IperfTest}
    (hc : client.sender = false) (hs : server.sender = true) (a b : IperfStream) :
    Exchanged a b
      (assignFigures true (sentFigures (seen P client) (seenStream P b)) a)
      (assignFigures false (sentFigures (seen P server) (seenStream P
        (assignFigures true (sentFigures (seen P client) (seenStream P b)) a))) b) := by
  have h := @exchanged_receiver_first (seen P client) (seen P server) hc hs a (seenStream P b)
  exact ⟨h.ids, h.sent_sender, h.omit_sender, h.sent_receiver, h.omit_receiver, h.received_sender,
    h.received_receiver, h.packets, h.errors, h.omitted_sender, h.omitted_receiver⟩

/-- A stream of the peer is seen in its own place. -/
theorem getElem?_seen (P : PowerOfTen) {test : IperfTest} {i : ℕ} {sp : IperfStream}
    (h : test.streams[i]? = some sp) : (seen P test).streams[i]? = some (seenStream P sp) := by
  unfold seen
  dsimp only
  rw [List.getElem?_map, h, Option.map_some]

/-- The figures of a stream behind an exchange. -/
theorem figures_told {P : PowerOfTen} {a b a' b' : IperfStream}
    (h : Exchanged a b a' b') (ha : Settled true a) (hb : Settled false b)
    (hsent : a.result.bytesSent < 2 ^ 53) (hreceived : b.result.bytesReceived < 2 ^ 53)
    (hfinite : FiniteDouble b.jitter) (hkept : b'.jitter = b.jitter)
    (htold : a'.jitter = readDouble P b.jitter) :
    netSent a' = netSent a ∧ netSent b' = netSent a ∧
      a'.result.bytesReceived = b.result.bytesReceived ∧
      b'.result.bytesReceived = b.result.bytesReceived ∧
      a'.packetCount = b.packetCount ∧ a'.cntError = b.cntError ∧
      b'.jitter = b.jitter ∧ |a'.jitter - b.jitter| ≤ tolerance b.jitter := by
  obtain ⟨hnetA, hnetB, hreceivedA, hreceivedB⟩ := h.bytes ha hb hsent hreceived
  refine ⟨hnetA, hnetB, hreceivedA, hreceivedB, ?_, ?_, hkept, ?_⟩
  · rw [h.packets.1, toInt_of_isInt hb.packetsInt]
  · rw [h.errors.1, toInt_of_isInt hb.errorsInt]
  · rw [htold]
    exact readDouble_close P hfinite

/-- The results of an end that a message can carry. -/
theorem resultsExact_of_settled {n : ℕ} {sender : Bool} {test : IperfTest} (hn : IsInt (n + 1))
    (h : SettledEnd sender (positionIds n) test)
    (hbytes : ∀ sp ∈ test.streams,
      sp.result.bytesSent < 2 ^ 53 ∧ sp.result.bytesReceived < 2 ^ 53)
    (hretransmits : ∀ sp ∈ test.streams, IsInt sp.result.streamRetrans)
    (hflag : IsInt test.senderHasRetransmits)
    (houtput : CText (String.join test.serverOutputList))
    (hjitter : ∀ sp ∈ test.streams, FiniteDouble sp.jitter) (hcpu : FiniteUtil test.cpuUtil) :
    ResultsExact test := by
  refine ⟨fun _ => hflag, fun sp hsp => ?_, houtput, hcpu⟩
  have hsettled := h.streams sp hsp
  obtain ⟨hsent, hreceived⟩ := hbytes sp hsp
  refine ⟨(ids_of_settled hn h).1 sp hsp, ?_, fun _ => hretransmits sp hsp, hsettled.errorsInt,
    hsettled.packetsInt, hjitter sp hsp⟩
  unfold transferredBytes
  split
  · have hnet := netSent_eq hsettled.omit_le hsent
    unfold netSent at hnet
    omega
  · exact hreceived

/-- Two ends whose results are within bounds and pass a connection in pieces of a given size. -/
def Crossable (P : PowerOfTen) (size : ℕ) (c s : IperfTest) : Prop :=
  (∀ sp ∈ c.streams ++ s.streams,
      (sp.result.bytesSent < 2 ^ 53 ∧ sp.result.bytesReceived < 2 ^ 53) ∧
        IsInt sp.result.streamRetrans ∧ FiniteDouble sp.jitter) ∧
    (FiniteUtil c.cpuUtil ∧ FiniteUtil s.cpuUtil) ∧
    (IsInt c.senderHasRetransmits ∧ IsInt s.senderHasRetransmits) ∧
    (CText (String.join c.serverOutputList) ∧ CText (String.join s.serverOutputList)) ∧
    (cjsonPrintUnformatted (sendResults .null c)).length ≤ size ∧
    ∀ r ∈ getResults (sendResults .null (seen P c)) s,
      (cjsonPrintUnformatted (sendResults .null r.2)).length ≤ size

instance (P : PowerOfTen) (size : ℕ) (c s : IperfTest) : Decidable (Crossable P size c s) := by
  unfold Crossable
  infer_instance

/-- The item of an integer has its truncated double in the integer slot. -/
theorem built_createNumber_truncated (n : ℤ) : Built Truncated (createNumber n) := by
  refine Built.number ?_
  unfold Truncated
  rw [Rat.num_intCast, Rat.den_intCast, Nat.cast_one, Int.tdiv_one]

/-- So has the item of a double, as `cJSON_CreateNumber` truncates it. -/
theorem built_createDouble (q : ℚ) : Built Truncated (createDouble q) := Built.number rfl

/-- And with them the item of a stream. -/
theorem built_streamResult (test : IperfTest) (sp : IperfStream) :
    Built Truncated (streamResult test sp) := by
  refine Built.object ?_ ?_
  · simp only [List.forall_mem_cons, List.not_mem_nil, false_imp_iff, implies_true, and_true]
    decide
  · simp only [List.forall_mem_cons, List.not_mem_nil, false_imp_iff, implies_true, and_true]
    exact ⟨built_createNumber_truncated _, built_createNumber_truncated _,
      built_createNumber_truncated _, built_createDouble _, built_createNumber_truncated _,
      built_createNumber_truncated _⟩

/-- The message of `send_results` around an output. -/
theorem built_sendResults {jsonTop : CJson} {test : IperfTest}
    (h : ∀ m ∈ serverOutput jsonTop test, CText m.1 ∧ Built Truncated m.2) :
    Built Truncated (sendResults jsonTop test) := by
  have hstreams : Built Truncated (.array (test.streams.map (streamResult test))) := by
    refine Built.array fun c hc => ?_
    obtain ⟨sp, -, rfl⟩ := List.mem_map.mp hc
    exact built_streamResult test sp
  rw [sendResults_eq]
  refine Built.object ?_ ?_
  · simp only [List.forall_mem_append, List.forall_mem_cons, List.not_mem_nil, false_imp_iff,
      implies_true, and_true]
    exact ⟨⟨by decide, fun m hm => (h m hm).1⟩, by decide⟩
  · simp only [List.forall_mem_append, List.forall_mem_cons, List.not_mem_nil, false_imp_iff,
      implies_true, and_true]
    exact ⟨⟨⟨built_createDouble _, built_createDouble _, built_createDouble _,
      built_createNumber_truncated _⟩, fun m hm => (h m hm).2⟩, hstreams⟩

/-- A server's output crosses the connection unchanged, as long as the figures beside it are
finite: what a client stores is what the server has written, byte for byte. -/
theorem output_crosses (P : PowerOfTen) (platform : Platform) (jsonTop : CJson) {run : OutputRun}
    {client : IperfTest} {p : Passage} (h : run.Reached platform)
    (hasks : run.test.getServerOutput = true) (hplain : run.test.jsonOutput = false)
    (hfinite : FiniteTree (sendResults jsonTop run.test))
    (hpassage : p.Completes P (sendResults jsonTop run.test)) (hrole : client.role = .client)
    (hclient : client.getServerOutput = true) :
    ∃ r, readResults P p jsonTop run.test client = some r ∧
      r.2.serverOutputText = some (ofBytes run.written.flatten) := by
  obtain ⟨-, hsent, harrives⟩ := serverOutput_arrives platform jsonTop h hasks hplain
  have hkept := h.kept
  have hbuilt : Built Truncated (sendResults jsonTop run.test) := by
    refine built_sendResults ?_
    unfold serverOutput
    rw [if_pos ⟨hkept.role, hasks⟩, hplain, if_neg Bool.false_ne_true, List.forall_mem_singleton]
    have hname : CText "server_output_text" := by decide
    refine ⟨hname, Built.string ?_⟩
    rw [hkept.list, join_ofBytes]
    refine cText_ofBytes fun hzero => ?_
    obtain ⟨text, htext, hmem⟩ := List.mem_flatten.mp hzero
    exact hkept.clean text htext hmem
  have hreturns := returns_reread P hbuilt hfinite
  rw [sendResults_eq] at hreturns
  have hretold := retold_of_returns hreturns
  rw [← sendResults_eq] at hretold
  obtain ⟨r, hread, htext⟩ := harrives _ client hretold hrole hclient
  refine ⟨r, ?_, htext⟩
  unfold readResults
  rw [(hpassage.received hfinite).1]
  exact hread

/-- A server that a client asks for its output and that then prints a line. -/
def shortRun : OutputRun :=
  (⟨{ role := .server, getServerOutput := true }, []⟩ : OutputRun).iprintf shortLine

/-- The output of a server with two lines, in one piece over the connection. -/
theorem shortRun_crosses :
    ∃ r, readResults roundedPower (directPassage 1023) .null shortRun.test
        { role := .client, getServerOutput := true } = some r ∧
      r.2.serverOutputText = some (ofBytes shortRun.written.flatten) := by
  have hlength : (cjsonPrintUnformatted (sendResults .null shortRun.test)).length ≤ 1023 + 1 := by
    decide +kernel
  have hpassage := directPassage_completes roundedPower hlength (by decide)
  have hparameters : getParameters ⟨true, true, fun h => h⟩
      (.object [("get_server_output", createNumber 1)]) { role := .server } =
        some { role := .server, getServerOutput := true } := rfl
  have hstart : OutputRun.Reached ⟨true, true, fun h => h⟩ ⟨{ role := .server }, []⟩ :=
    OutputRun.Reached.start rfl rfl
  have hreached := (hstart.other (keepsOutput_getParameters hparameters)).iprintf shortLine
  have hzero : FiniteDouble 0 := finite_of_abs_le (by norm_num)
  have hfinite : FiniteTree (sendResults .null shortRun.test) :=
    finiteTree_message FiniteTree.null ⟨hzero, hzero, hzero⟩ (finite_createNumber (by decide))
      fun sp hsp => absurd hsp List.not_mem_nil
  exact output_crosses roundedPower ⟨true, true, fun h => h⟩ .null hreached rfl rfl hfinite hpassage
    rfl rfl

end IperfRuntime.WireExchange
