import IperfRuntime.EventTrace
import IperfRuntime.ResultsFrame

/-!
# What the messages of the peer are read as

`get_parameters` and `get_results` with every read of a slot of a node. A read is typed when
the parser filled the slot, and a text that is not there stops the call in `strdup`. Whether
the sender of a message is honest plays no part.
-/

namespace IperfRuntime.MessageReads

open EventTrace Traced JsonTree TestState EntryPoints TestParameters ResultsExchange
  ResultsFrame

/-- A read of a node. -/
inductive Read where
  /-- `valueint`. -/
  | int (item : CJson)
  /-- `valuedouble`. -/
  | double (item : CJson)
  /-- `valuestring`. -/
  | text (item : CJson)

/-- `cJSON_Number`. -/
def IsNumber (item : CJson) : Prop := ∃ valueint valuedouble, item = .number valueint valuedouble

/-- `cJSON_String`. -/
def IsText (item : CJson) : Prop := ∃ valuestring, item = .string valuestring

/-- The node is of the type that has the slot. -/
def Read.Typed : Read → Prop
  | .int item => IsNumber item
  | .double item => IsNumber item
  | .text item => IsText item

/-- The error numbers of the two calls. -/
inductive ErrorNumber where
  /-- `IERECVPARAMS`. -/
  | recvParams
  /-- `IERECVRESULTS`. -/
  | recvResults
  /-- `IESTREAMID`. -/
  | streamId
  deriving DecidableEq

/-- Where a call stands. -/
structure Call where
  /-- `r`. -/
  ret : ℤ
  /-- `i_errno`, when the call assigned it. -/
  iErrno : Option ErrorNumber
  test : IperfTest

/-- `i_errno = …; r = -1`. -/
def Call.fail (e : ErrorNumber) (c : Call) : Call := { c with ret := -1, iErrno := some e }

/-- `strdup(item->valuestring)`. -/
def strdup (item : CJson) : Traced Read String := do
  emits [.text item]
  match item.valuestring with
  | some text => return text
  | none => stop

variable {σ : Type}

/-- `if ((j_p = cJSON_GetObjectItem(j, key)) != NULL)` around an assignment of `valueint`. -/
def onInt (j : CJson) (key : String) (assign : ℤ → σ → σ) (s : σ) : Traced Read σ :=
  match getObjectItem j key with
  | some item => do
    emits [.int item]
    return assign item.valueint s
  | none => return s

/-- The same around an assignment of a copy of `valuestring`. -/
def onCopy (j : CJson) (key : String) (assign : String → σ → σ) (s : σ) : Traced Read σ :=
  match getObjectItem j key with
  | some item => do
    let text ← strdup item
    return assign text s
  | none => return s

/-- `getNumbers` with its reads. -/
def readNumbers (platform : Platform) (j : CJson) (test : IperfTest) : Traced Read IperfTest := do
  let test ← onInt j "omit" (fun n t => { t with omitSeconds := toInt n }) test
  let test ← onInt j "server_affinity" (fun n t => { t with serverAffinity := toInt n }) test
  let test ← onInt j "time" (fun n t => { t with duration := toInt n }) test
  let test ← onInt j "num"
    (fun n t => { t with settings := { t.settings with bytes := toUint64 n } }) test
  let test ← onInt j "blockcount"
    (fun n t => { t with settings := { t.settings with blocks := toUint64 n } }) test
  let test ← onInt j "MSS"
    (fun n t => { t with settings := { t.settings with mss := toInt n } }) test
  let test := onItem j "nodelay" (fun _ t => { t with noDelay := true }) test
  let test ← onInt j "parallel" (fun n t => { t with numStreams := toInt n }) test
  let test := onItem j "reverse" (fun _ t => iperfSetTestReverse platform true t) test
  let test ← onInt j "window"
    (fun n t => { t with settings := { t.settings with socketBufsize := toInt n } }) test
  let test ← onInt j "len"
    (fun n t => { t with settings := { t.settings with blksize := toInt n } }) test
  let test ← onInt j "bandwidth"
    (fun n t => { t with settings := { t.settings with rate := toUint64 n } }) test
  let test ← onInt j "burst"
    (fun n t => { t with settings := { t.settings with burst := toInt n } }) test
  let test ← onInt j "TOS"
    (fun n t => { t with settings := { t.settings with tos := toInt n } }) test
  onInt j "flowlabel"
    (fun n t => { t with settings := { t.settings with flowlabel := toInt n } }) test

/-- `get_parameters` on what `JSON_read` returns, with its reads. -/
def parametersCall (platform : Platform) (j : Option CJson) (test : IperfTest) :
    Traced Read Call :=
  match j with
  | none => return (Call.mk 0 none test).fail .recvParams
  | some j => do
    let test ← readNumbers platform j (getProtocol platform j test)
    let test ← onCopy j "title" setTitle test
    let test ← onCopy j "congestion" setCongestion test
    return ⟨0, none, getFlags platform j test⟩

/-- The reads of the figures of a stream. -/
def figureReads (f : StreamFigures) : List Read :=
  [.int f.id, .int f.bytes, .int f.retransmits, .double f.jitter, .int f.errors, .int f.packets]

/-- One round of the loop over `streams`. -/
def streamCall (c : Call) (j : CJson) : Traced Read Call :=
  match streamFigures j with
  | none => return c.fail .recvResults
  | some f => do
    emits (figureReads f)
    match assignToStream c.test.sender f c.test.streams with
    | none => return c.fail .streamId
    | some streams => return { c with test := { c.test with streams := streams } }

/-- The loop over `streams`. -/
def streamsCall : Call → List CJson → Traced Read Call
  | c, [] => return c
  | c, j :: items => do streamsCall (← streamCall c j) items

/-- The part of `get_results` about the server's output. -/
def serverOutputCall (j : CJson) (c : Call) : Traced Read Call :=
  if c.test.role = .client ∧ c.test.getServerOutput then
    match getObjectItem j "server_output_json" with
    | some output => return { c with test := { c.test with jsonServerOutput := some output } }
    | none => onCopy j "server_output_text"
        (fun text c => { c with test := { c.test with serverOutputText := some text } }) c
  else return c

/-- `get_results` on what `JSON_read` returns, with its reads. -/
def resultsCall (j : Option CJson) (test : IperfTest) : Traced Read Call :=
  match j with
  | none => return (Call.mk 0 none test).fail .recvResults
  | some j =>
    match getObjectItem j "cpu_util_total", getObjectItem j "cpu_util_user",
        getObjectItem j "cpu_util_system", getObjectItem j "sender_has_retransmits" with
    | some total, some user, some system, some retransmits => do
      emits [.double total, .double user, .double system, .int retransmits]
      let c := Call.mk 0 none (getHeader total user system retransmits test)
      match getObjectItem j "streams" with
      | none => return c.fail .recvResults
      | some streams => serverOutputCall j (← streamsCall c (arrayItems streams))
    | _, _, _, _ => return (Call.mk 0 none test).fail .recvResults

/-- A call that returns -1 with `i_errno` set, or has read every slot from a node of its
type. -/
def Handled (x : Traced Read Call) : Prop :=
  ∃ c, x.value = some c ∧ ((c.ret = -1 ∧ c.iErrno.isSome = true) ∨ ∀ e ∈ x.events, e.Typed)

/-- A member that is there is a number. -/
def NumberAt (j : CJson) (key : String) : Prop := ∀ item ∈ getObjectItem j key, IsNumber item

/-- A member that is there is a text. -/
def TextAt (j : CJson) (key : String) : Prop := ∀ item ∈ getObjectItem j key, IsText item

/-- The numbers among the parameters. -/
def numberKeys : List String :=
  ["omit", "server_affinity", "time", "num", "blockcount", "MSS", "parallel", "window", "len",
    "bandwidth", "burst", "TOS", "flowlabel"]

/-- Parameters of the right types. -/
def ParametersTyped (j : CJson) : Prop :=
  (∀ key ∈ numberKeys, NumberAt j key) ∧ TextAt j "title" ∧ TextAt j "congestion"

/-- The value of a computation, and when all the reads of one that has a value are typed. -/
structure Reads {α : Type} (x : Traced Read α) (v : Option α) (P : Prop) : Prop where
  value : x.value = v
  typed : v.isSome = true → ((∀ e ∈ x.events, e.Typed) ↔ P)

variable {α β : Type} {x : Traced Read α} {f : α → Traced Read β} {v : Option α}
  {w : α → Option β} {P Q : Prop}

/-- A value reads nothing and comes back. -/
theorem Reads.pure (a : α) : Reads (Pure.pure a) (some a) True where
  value := rfl
  typed := by simp

/-- Reads that are emitted are typed if each of them is. -/
theorem Reads.emits (events : List Read) :
    Reads (Traced.emits events) (some ⟨⟩) (∀ e ∈ events, e.Typed) where
  value := rfl
  typed := fun _ => Iff.rfl

/-- A sequence makes the reads of both parts. -/
theorem Reads.bind (hx : Reads x v P) (hf : ∀ a, Reads (f a) (w a) Q) :
    Reads (x >>= f) (v.bind w) (P ∧ Q) where
  value := by
    rw [value_bind, hx.value]
    congr 1
    exact funext fun a => (hf a).value
  typed := by
    intro hsome
    obtain ⟨b, hb⟩ := Option.isSome_iff_exists.mp hsome
    obtain ⟨a, ha, hwa⟩ := Option.bind_eq_some_iff.mp hb
    rw [events_bind_of_some (hx.value.trans ha), List.forall_mem_append, hx.typed (by rw [ha]; rfl),
      (hf a).typed (by rw [hwa]; rfl)]

/-- The rule behind a computation that always has a value. -/
theorem Reads.next {a : α} {u : Option β} (hx : Reads x (some a) P) (hf : Reads (f a) u Q) :
    Reads (x >>= f) u (P ∧ Q) where
  value := by rw [value_bind_of_some hx.value, hf.value]
  typed := by
    intro hsome
    rw [events_bind_of_some hx.value, List.forall_mem_append, hx.typed rfl, hf.typed hsome]

/-- The description of a function's reads may be put in other words. -/
theorem Reads.congr {v' : Option α} (hx : Reads x v P) (hv : v = v') (h : P ↔ Q) :
    Reads x v' Q where
  value := hx.value.trans hv
  typed := by
    intro hsome
    rw [hx.typed (by rw [hv]; exact hsome)]
    exact h

/-- A number that is assigned is read as a number. -/
theorem onInt_reads (j : CJson) (key : String) (assign : ℤ → σ → σ) (s : σ) :
    Reads (onInt j key assign s) (some (onItem j key (fun p => assign p.valueint) s))
      (NumberAt j key) := by
  unfold onInt onItem NumberAt
  cases getObjectItem j key with
  | none => exact (Reads.pure s).congr rfl (by simp)
  | some item =>
    exact ((Reads.emits [.int item]).bind fun _ => Reads.pure (assign item.valueint s)).congr rfl
      (by simp [Read.Typed])

/-- A string value is there exactly if the item is a text. -/
theorem valuestring_isSome (item : CJson) : item.valuestring.isSome = true ↔ IsText item := by
  cases item with
  | string text => exact ⟨fun _ => ⟨text, rfl⟩, fun _ => rfl⟩
  | null => simp [CJson.valuestring, IsText]
  | false => simp [CJson.valuestring, IsText]
  | true => simp [CJson.valuestring, IsText]
  | number i d => simp [CJson.valuestring, IsText]
  | array children => simp [CJson.valuestring, IsText]
  | object members => simp [CJson.valuestring, IsText]

/-- `strdup` reads its argument as a text, and comes back only if it is one. -/
theorem strdup_reads (item : CJson) : Reads (strdup item) item.valuestring (IsText item) := by
  unfold strdup
  cases htext : item.valuestring with
  | none => exact ⟨rfl, fun h => absurd h (by simp)⟩
  | some text =>
    exact ((Reads.emits [.text item]).bind fun _ => Reads.pure text).congr rfl
      (by simp [Read.Typed])

/-- A copied text: the call goes on if and only if it is one. -/
theorem onCopy_reads (j : CJson) (key : String) (assign : String → σ → σ) (s : σ) :
    Reads (onCopy j key assign s) (onText j key assign s) (TextAt j key) := by
  unfold onCopy onText TextAt
  cases getObjectItem j key with
  | none => exact (Reads.pure s).congr rfl (by simp)
  | some item =>
    exact ((strdup_reads item).bind fun text => Reads.pure (assign text s)).congr
      (Option.map_eq_bind.symm) (by simp)

/-- A text that is assigned comes back exactly if the item is missing or a text. -/
theorem onText_isSome (j : CJson) (key : String) (assign : String → σ → σ) (s : σ) :
    (onText j key assign s).isSome = true ↔ TextAt j key := by
  unfold onText TextAt
  cases getObjectItem j key with
  | none => simp
  | some item => simp [valuestring_isSome]

/-- `readNumbers` computes what `getNumbers` does. -/
theorem readNumbers_reads (platform : Platform) (j : CJson) (test : IperfTest) :
    Reads (readNumbers platform j test) (some (getNumbers platform j test))
      (∀ key ∈ numberKeys, NumberAt j key) := by
  apply Reads.congr
  · exact (onInt_reads j "omit" _ _).next <|
      (onInt_reads j "server_affinity" _ _).next <| (onInt_reads j "time" _ _).next <|
      (onInt_reads j "num" _ _).next <| (onInt_reads j "blockcount" _ _).next <|
      (onInt_reads j "MSS" _ _).next <| (onInt_reads j "parallel" _ _).next <|
      (onInt_reads j "window" _ _).next <| (onInt_reads j "len" _ _).next <|
      (onInt_reads j "bandwidth" _ _).next <| (onInt_reads j "burst" _ _).next <|
      (onInt_reads j "TOS" _ _).next <| onInt_reads j "flowlabel" _ _
  · rfl
  · unfold numberKeys
    simp only [List.forall_mem_cons, List.not_mem_nil, false_implies, implies_true, and_true]

/-- `parametersCall` computes what `getParameters` does. -/
theorem parametersCall_reads (platform : Platform) (j : CJson) (test : IperfTest) :
    Reads (parametersCall platform (some j) test)
      ((getParameters platform j test).map fun t => ⟨0, none, t⟩) (ParametersTyped j) := by
  have hnumbers := readNumbers_reads platform j (getProtocol platform j test)
  have htexts := (onCopy_reads j "title" setTitle
    (getNumbers platform j (getProtocol platform j test))).bind fun t =>
      (onCopy_reads j "congestion" setCongestion t).bind fun t =>
        Reads.pure (Call.mk 0 none (getFlags platform j t))
  refine (hnumbers.next htexts).congr ?_ ?_
  · unfold getParameters
    simp only [Option.map_bind, Option.map_map, Function.comp_def]
    simp only [Option.map_eq_bind, Function.comp_def]
  · unfold ParametersTyped
    simp only [and_true]

/-- `get_parameters` comes back exactly if both of its texts are texts where they are present. -/
theorem getParameters_isSome (platform : Platform) (j : CJson) (test : IperfTest) :
    (getParameters platform j test).isSome = true ↔ TextAt j "title" ∧ TextAt j "congestion" := by
  rw [← onText_isSome j "title" setTitle (getNumbers platform j (getProtocol platform j test))]
  unfold getParameters
  cases htitle : onText j "title" setTitle
      (getNumbers platform j (getProtocol platform j test)) with
  | none => simp [htitle]
  | some t => simp [htitle, onText_isSome]

/-- `get_parameters` handles a message if and only if its numbers are numbers and its texts are
texts. -/
theorem parameters_handled (platform : Platform) (j : CJson) (test : IperfTest) :
    Handled (parametersCall platform (some j) test) ↔ ParametersTyped j := by
  have hreads := parametersCall_reads platform j test
  have hsome := getParameters_isSome platform j test
  constructor
  · rintro ⟨c, hc, hfailed | htyped⟩
    · rw [hreads.value] at hc
      obtain ⟨t, _, rfl⟩ := Option.map_eq_some_iff.mp hc
      exact absurd hfailed.1 (by norm_num)
    · exact (hreads.typed (by rw [← hreads.value, hc]; rfl)).mp htyped
  · intro htyped
    obtain ⟨t, ht⟩ := Option.isSome_iff_exists.mp (hsome.mpr htyped.2)
    rw [ht] at hreads
    exact ⟨⟨0, none, t⟩, hreads.value, Or.inr ((hreads.typed rfl).mpr htyped)⟩

/-- The members in front of the streams. -/
def headerKeys : List String :=
  ["cpu_util_total", "cpu_util_user", "cpu_util_system", "sender_has_retransmits"]

/-- The members of `streams`. -/
def streamItems (j : CJson) : List CJson := ((getObjectItem j "streams").map arrayItems).getD []

/-- Results with all the members that are checked for. -/
def Complete (j : CJson) : Prop := (∀ key ∈ headerKeys, Sends j key) ∧ Sends j "streams"

/-- Figures of a stream that this end has. -/
def Placed (test : IperfTest) (item : CJson) : Prop :=
  ∃ f ∈ streamFigures item, toInt f.id.valueint ∈ test.streams.map (·.id)

/-- Six numbers. -/
def FiguresTyped (f : StreamFigures) : Prop :=
  ∀ item ∈ [f.id, f.bytes, f.retransmits, f.jitter, f.errors, f.packets], IsNumber item

/-- Results of the right types. -/
structure ResultsTyped (j : CJson) : Prop where
  header : ∀ key ∈ headerKeys, NumberAt j key
  figures : ∀ item ∈ streamItems j, ∀ f ∈ streamFigures item, FiguresTyped f

/-- The text of the server's output is one, where it is looked for. -/
def OutputReadable (j : CJson) (test : IperfTest) : Prop :=
  test.role = .client → test.getServerOutput = true →
    getObjectItem j "server_output_json" = none → TextAt j "server_output_text"

/-- Results that `get_results` handles: it refuses them, or they are of the right types; and it
does not stop at the server's output. -/
def Acceptable (j : CJson) (test : IperfTest) : Prop :=
  Complete j → OutputReadable j test ∧ ((∀ item ∈ streamItems j, Placed test item) → ResultsTyped j)

/-- A call that has failed. -/
def Call.Failing (c : Call) : Prop := c.ret = -1 ∧ c.iErrno.isSome = true

/-- What `get_results` returns. -/
def Call.result (c : Call) : Bool × IperfTest := (c.ret == 0, c.test)

/-- A call that fails is failing. -/
theorem fail_failing (e : ErrorNumber) (c : Call) : (c.fail e).Failing := ⟨rfl, rfl⟩

/-- It returns false and the test as it stands. -/
theorem fail_result (e : ErrorNumber) (c : Call) : (c.fail e).result = (false, c.test) := rfl

/-- The figures of a stream are read with their types exactly if each of them is a number. -/
theorem figureReads_typed (f : StreamFigures) :
    (∀ e ∈ figureReads f, e.Typed) ↔ FiguresTyped f := by
  unfold figureReads FiguresTyped
  simp [Read.Typed]

/-- The figures find their stream exactly if its id is among those of the test. -/
theorem assignToStream_isSome (sender : Bool) (f : StreamFigures) (streams : List IperfStream) :
    (assignToStream sender f streams).isSome = true ↔
      toInt f.id.valueint ∈ streams.map (·.id) := by
  induction streams with
  | nil => simp [assignToStream]
  | cons sp rest ih =>
    rw [assignToStream, List.map_cons, List.mem_cons]
    by_cases hid : sp.id = toInt f.id.valueint
    · simp [hid]
    · rw [if_neg hid, Option.isSome_map, ih]
      constructor
      · exact Or.inr
      · rintro (heq | hmem)
        · exact absurd heq.symm hid
        · exact hmem

/-- The exchange keeps the ids of the streams. -/
theorem sameExchange_ids {before after : IperfTest} (h : SameExchange before after) :
    after.streams.map (·.id) = before.streams.map (·.id) := by
  have hids := congrArg (List.map (·.id)) h.streams
  rw [List.map_map, List.map_map] at hids
  exact hids

/-- One round of the loop: the reads are those of the figures, and it fails on figures that have
no place. -/
theorem streamCall_reads (c : Call) (j : CJson) :
    ∃ c', Reads (streamCall c j) (some c') (∀ f ∈ streamFigures j, FiguresTyped f) ∧
      c'.result = getStreamResult c.result j ∧
      (c'.Failing ↔ c.Failing ∨ ¬ Placed c.test j) := by
  unfold streamCall getStreamResult Placed
  cases hfigures : streamFigures j with
  | none =>
    refine ⟨c.fail .recvResults, (Reads.pure _).congr rfl (by simp), fail_result _ c, ?_⟩
    simp [fail_failing]
  | some f =>
    have hplaced := assignToStream_isSome c.test.sender f c.test.streams
    dsimp only [Call.result]
    cases hassign : assignToStream c.test.sender f c.test.streams with
    | none =>
      rw [hassign] at hplaced
      have hreads := (Reads.emits (figureReads f)).bind fun _ => Reads.pure (c.fail .streamId)
      refine ⟨c.fail .streamId, hreads.congr rfl ?_, rfl, ?_⟩
      · simp [figureReads_typed]
      · have hnowhere : ¬ ∃ f' ∈ some f, toInt f'.id.valueint ∈ c.test.streams.map (·.id) := by
          rintro ⟨f', hf', hmem⟩
          cases hf'
          exact absurd (hplaced.mpr hmem) (by simp)
        exact ⟨fun _ => Or.inr hnowhere, fun _ => fail_failing _ _⟩
    | some streams =>
      rw [hassign] at hplaced
      have hreads := (Reads.emits (figureReads f)).bind fun _ =>
        Reads.pure { c with test := { c.test with streams := streams } }
      refine ⟨{ c with test := { c.test with streams := streams } }, hreads.congr rfl ?_, rfl, ?_⟩
      · simp [figureReads_typed]
      · have hsomewhere : ∃ f' ∈ some f, toInt f'.id.valueint ∈ c.test.streams.map (·.id) :=
          ⟨f, rfl, hplaced.mp rfl⟩
        exact ⟨Or.inl, fun h => h.resolve_right fun hn => hn hsomewhere⟩

/-- The loop over `streams`. -/
theorem streamsCall_reads (items : List CJson) (c : Call) :
    ∃ c', Reads (streamsCall c items) (some c')
        (∀ item ∈ items, ∀ f ∈ streamFigures item, FiguresTyped f) ∧
      c'.result = items.foldl getStreamResult c.result ∧
      (c'.Failing ↔ c.Failing ∨ ∃ item ∈ items, ¬ Placed c.test item) := by
  induction items generalizing c with
  | nil => exact ⟨c, (Reads.pure c).congr rfl (by simp), rfl, by simp⟩
  | cons j items ih =>
    obtain ⟨next, hnext, hnextResult, hnextFails⟩ := streamCall_reads c j
    obtain ⟨last, hlast, hlastResult, hlastFails⟩ := ih next
    have hframe := getStreamResult_frame c.result j
    rw [← hnextResult] at hframe
    have hids : ∀ item, Placed next.test item ↔ Placed c.test item := by
      intro item
      unfold Placed
      have hsame := sameExchange_ids hframe
      dsimp only [Call.result] at hsame
      rw [hsame]
    refine ⟨last, (hnext.next hlast).congr rfl (by simp), ?_, ?_⟩
    · rw [hlastResult, hnextResult]
      rfl
    · rw [hlastFails, hnextFails]
      simp only [hids, List.exists_mem_cons_iff, or_assoc]

/-- The server's output: the call stops at a text that is not one, and reads nothing if the
client did not ask for it. -/
theorem serverOutputCall_reads (j : CJson) (c : Call) :
    ∃ v, Reads (serverOutputCall j c) v (OutputReadable j c.test) ∧
      (v.isSome = true ↔ OutputReadable j c.test) ∧
      v.map Call.result = getServerOutput j c.result ∧ ∀ c' ∈ v, c'.Failing ↔ c.Failing := by
  unfold serverOutputCall OutputReadable
  by_cases hlooked : c.test.role = .client ∧ c.test.getServerOutput = true
  · have houtput : getServerOutput j c.result =
        match getObjectItem j "server_output_json" with
        | some output => some (c.result.1, { c.test with jsonServerOutput := some output })
        | none =>
          match getObjectItem j "server_output_text" with
          | some output => output.valuestring.map fun text =>
              (c.result.1, { c.test with serverOutputText := some text })
          | none => some c.result := if_pos hlooked
    rw [if_pos hlooked, houtput]
    obtain ⟨hrole, hasked⟩ := hlooked
    cases hjson : getObjectItem j "server_output_json" with
    | some output =>
      refine ⟨some { c with test := { c.test with jsonServerOutput := some output } },
        (Reads.pure _).congr rfl (by simp), by simp, rfl, ?_⟩
      simp [Call.Failing]
    | none =>
      have hcopy := onCopy_reads j "server_output_text"
        (fun text c => { c with test := { c.test with serverOutputText := some text } }) c
      have hsome := onText_isSome j "server_output_text"
        (fun text (c : Call) => { c with test := { c.test with serverOutputText := some text } }) c
      refine ⟨_, hcopy.congr rfl (by simp [hrole, hasked]), ?_, ?_, ?_⟩
      · rw [hsome]
        simp [hrole, hasked]
      · unfold onText
        cases getObjectItem j "server_output_text" with
        | none => rfl
        | some output =>
          dsimp only
          rw [Option.map_map]
          rfl
      · unfold onText
        cases getObjectItem j "server_output_text" with
        | none => simp
        | some output => simp [Call.Failing]
  · have houtput : getServerOutput j c.result = some c.result := if_neg hlooked
    have hreadable : (c.test.role = .client → c.test.getServerOutput = true →
        getObjectItem j "server_output_json" = none → TextAt j "server_output_text") :=
      fun hrole hasked => absurd ⟨hrole, hasked⟩ hlooked
    rw [if_neg hlooked, houtput]
    exact ⟨some c, (Reads.pure c).congr rfl ⟨fun _ => hreadable, fun _ => trivial⟩,
      ⟨fun _ => hreadable, fun _ => rfl⟩, rfl, by simp⟩

/-- `get_results` on results with all their members: the value, the reads, and when it fails,
which is at the first item without a stream. -/
theorem resultsCall_complete {j : CJson} (h : Complete j) (test : IperfTest) :
    ∃ v, Reads (resultsCall (some j) test) v (ResultsTyped j ∧ OutputReadable j test) ∧
      (v.isSome = true ↔ OutputReadable j test) ∧ v.map Call.result = getResults j test ∧
      ∀ c ∈ v, c.Failing ↔ ∃ item ∈ streamItems j, ¬ Placed test item := by
  obtain ⟨hheader, hstreams⟩ := h
  unfold headerKeys at hheader
  simp only [List.forall_mem_cons, List.not_mem_nil, false_implies, implies_true,
    and_true] at hheader
  obtain ⟨htotal, huser, hsystem, hretransmits⟩ := hheader
  obtain ⟨total, htotal⟩ := Option.isSome_iff_exists.mp htotal
  obtain ⟨user, huser⟩ := Option.isSome_iff_exists.mp huser
  obtain ⟨system, hsystem⟩ := Option.isSome_iff_exists.mp hsystem
  obtain ⟨retransmits, hretransmits⟩ := Option.isSome_iff_exists.mp hretransmits
  obtain ⟨streams, hstreams⟩ := Option.isSome_iff_exists.mp hstreams
  obtain ⟨c, hc, hresult, hfails⟩ := streamsCall_reads (arrayItems streams)
    (Call.mk 0 none (getHeader total user system retransmits test))
  obtain ⟨v, hv, hsome, hvalue, hkeeps⟩ := serverOutputCall_reads j c
  have hitems : streamItems j = arrayItems streams := by
    unfold streamItems
    rw [hstreams]
    rfl
  have hsame : SameExchange (getHeader total user system retransmits test) c.test := by
    have hframe := getStreamResults_frame (arrayItems streams)
      (true, getHeader total user system retransmits test)
    have hc' := congrArg Prod.snd hresult
    dsimp only [Call.result] at hc'
    rw [hc']
    exact hframe
  have hreadable : OutputReadable j c.test ↔ OutputReadable j test := by
    have hrole := congrArg IperfTest.role hsame.test
    have hasked := congrArg IperfTest.getServerOutput hsame.test
    dsimp only [exchangeFrame, getHeader] at hrole hasked
    unfold OutputReadable
    rw [hrole, hasked]
  have hreads := (Reads.emits [.double total, .double user, .double system, .int retransmits]).bind
    fun _ => hc.next hv
  refine ⟨v, ?_, hsome.trans hreadable, ?_, ?_⟩
  · unfold resultsCall
    dsimp only
    rw [htotal, huser, hsystem, hretransmits, hstreams]
    refine hreads.congr rfl ?_
    have htyped : (∀ e ∈ [Read.double total, .double user, .double system, .int retransmits],
        e.Typed) ↔ ∀ key ∈ headerKeys, NumberAt j key := by
      unfold headerKeys NumberAt
      simp only [List.forall_mem_cons, List.not_mem_nil, false_implies, implies_true, and_true,
        htotal, huser, hsystem, hretransmits, Option.mem_some_iff, forall_eq', Read.Typed]
    rw [htyped, hreadable, ← hitems]
    constructor
    · rintro ⟨hnumbers, hfigures, htext⟩
      exact ⟨⟨hnumbers, hfigures⟩, htext⟩
    · rintro ⟨⟨hnumbers, hfigures⟩, htext⟩
      exact ⟨hnumbers, hfigures, htext⟩
  · unfold getResults
    rw [htotal, huser, hsystem, hretransmits]
    dsimp only
    rw [hstreams]
    dsimp only
    rw [hvalue, hresult]
    rfl
  · intro c' hc'
    rw [hkeeps c' hc', hfails, hitems]
    constructor
    · rintro (hnever | hbad)
      · exact absurd hnever.1 (by norm_num)
      · exact hbad
    · exact Or.inr

/-- `get_results` on results that lack a member refuses them. -/
theorem resultsCall_incomplete {j : CJson} (h : ¬ Complete j) (test : IperfTest) :
    ∃ c, (resultsCall (some j) test).value = some c ∧ c.Failing ∧
      getResults j test = some c.result := by
  unfold resultsCall getResults
  dsimp only
  cases htotal : getObjectItem j "cpu_util_total" with
  | none => exact ⟨_, rfl, fail_failing _ _, rfl⟩
  | some total =>
    cases huser : getObjectItem j "cpu_util_user" with
    | none => exact ⟨_, rfl, fail_failing _ _, rfl⟩
    | some user =>
      cases hsystem : getObjectItem j "cpu_util_system" with
      | none => exact ⟨_, rfl, fail_failing _ _, rfl⟩
      | some system =>
        cases hretransmits : getObjectItem j "sender_has_retransmits" with
        | none => exact ⟨_, rfl, fail_failing _ _, rfl⟩
        | some retransmits =>
          cases hstreams : getObjectItem j "streams" with
          | none => exact ⟨_, rfl, fail_failing _ _, rfl⟩
          | some streams =>
            exfalso
            apply h
            unfold Complete Sends headerKeys
            simp [htotal, huser, hsystem, hretransmits, hstreams]

/-- `get_results` handles results if and only if they are acceptable: complete, with typed
figures, streams that exist and a readable output. -/
theorem results_handled (j : CJson) (test : IperfTest) :
    Handled (resultsCall (some j) test) ↔ Acceptable j test := by
  unfold Acceptable
  by_cases hcomplete : Complete j
  · obtain ⟨v, hreads, hsome, _, hfails⟩ := resultsCall_complete hcomplete test
    constructor
    · rintro ⟨c, hc, hhandled⟩ _
      rw [hreads.value] at hc
      have hreadable := hsome.mp (by rw [hc]; rfl)
      refine ⟨hreadable, ?_⟩
      intro hplaced
      rcases hhandled with hfailed | htyped
      · obtain ⟨item, hitem, hbad⟩ := (hfails c hc).mp hfailed
        exact absurd (hplaced item hitem) hbad
      · exact ((hreads.typed (by rw [hc]; rfl)).mp htyped).1
    · intro hacceptable
      obtain ⟨hreadable, htyped⟩ := hacceptable hcomplete
      obtain ⟨c, hc⟩ := Option.isSome_iff_exists.mp (hsome.mpr hreadable)
      refine ⟨c, hreads.value.trans hc, ?_⟩
      by_cases hplaced : ∀ item ∈ streamItems j, Placed test item
      · exact Or.inr ((hreads.typed (by rw [hc]; rfl)).mpr ⟨htyped hplaced, hreadable⟩)
      · push Not at hplaced
        exact Or.inl ((hfails c hc).mpr hplaced)
  · obtain ⟨c, hc, hfailing, _⟩ := resultsCall_incomplete hcomplete test
    exact ⟨fun _ h => absurd h hcomplete, fun _ => ⟨c, hc, Or.inl hfailing⟩⟩

/-- `resultsCall` computes what `getResults` does. -/
theorem resultsCall_value (j : CJson) (test : IperfTest) :
    (resultsCall (some j) test).value.map Call.result = getResults j test := by
  by_cases hcomplete : Complete j
  · obtain ⟨v, hreads, _, hvalue, _⟩ := resultsCall_complete hcomplete test
    rw [hreads.value, hvalue]
  · obtain ⟨c, hc, _, hvalue⟩ := resultsCall_incomplete hcomplete test
    rw [hc, hvalue]
    rfl

/-- A peer's message, when there is one, is handled by `get_parameters` if and only if its
parameters are of the right types, and by `get_results` if and only if it is acceptable. -/
theorem peer_message_handled_iff (platform : Platform) (j : Option CJson) (test : IperfTest) :
    (Handled (parametersCall platform j test) ↔ ∀ message ∈ j, ParametersTyped message) ∧
      (Handled (resultsCall j test) ↔ ∀ message ∈ j, Acceptable message test) := by
  cases j with
  | none =>
    have hparameters : Handled (parametersCall platform none test) :=
      ⟨_, rfl, Or.inl (fail_failing _ _)⟩
    have hresults : Handled (resultsCall none test) := ⟨_, rfl, Or.inl (fail_failing _ _)⟩
    simp [hparameters, hresults]
  | some message =>
    rw [parameters_handled, results_handled]
    simp

/-- A title that is a number stops the call: its string slot was never filled, and `strdup` is
given a null pointer. -/
theorem number_title_stops :
    ¬ Handled (parametersCall ⟨true, true, fun h => h⟩
      (some (.object [("title", .number 5 5)])) {}) := by
  rw [parameters_handled]
  rintro ⟨_, htitle, _⟩
  obtain ⟨text, htext⟩ := htitle (.number 5 5) rfl
  cases htext

end IperfRuntime.MessageReads
