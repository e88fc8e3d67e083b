import IperfRuntime.JsonFraming
import IperfRuntime.ResultsAgreement
import IperfRuntime.ServerLoop

/-!
# Server output

`iprintf` on a server that keeps its output, the text that `send_results` joins from the
kept lines in a buffer of its own, and the copy that `get_results` makes on the client. A
block of memory is its bytes, a text of the test record has a character for each byte. Lines
of the other end and the JSON document, which goes another way, are not spoken of.
-/

namespace IperfRuntime.ServerOutput

open ByteOrder JsonTree JsonFraming TestState TestParameters ResultsExchange ResultsFrame
  ResultsAgreement ServerLoop

/-- `strlen`. -/
def strlen (s : List UInt8) : ℕ := (cString s).length

/-- A block of memory that holds a string and nothing else. -/
def blockOf (s : List UInt8) : List UInt8 := s ++ [0]

/-- `strdup`. -/
def strdup (s : List UInt8) : List UInt8 := blockOf (cString s)

/-- `strncat`: at most `n` bytes of `src` and a zero go behind the string in `dst`; `none`
when one of them would lie outside of it. -/
def strncat (dst src : List UInt8) (n : ℕ) : Option (List UInt8) :=
  let front := cString dst ++ (cString src).take n
  if front.length < dst.length then some (front ++ 0 :: dst.drop (front.length + 1)) else none

/-- `calloc(size, 1)`. -/
def calloc (size : ℕ) : List UInt8 := List.replicate size 0

/-- What `vsnprintf` writes into a buffer of the given size. -/
def vsnprintf (size : ℕ) (text : List UInt8) : List UInt8 := text.take (size - 1) ++ [0]

/-- The value of a call that formats a text; the length has to be an `int`. -/
def printfResult (text : List UInt8) : ℤ := if text.length < 2 ^ 31 then text.length else -1

/-- What a call of `iprintf` does. -/
structure Printing where
  /-- The value it returns. -/
  result : ℤ
  /-- What it writes to `outfile`. -/
  outfile : List UInt8
  /-- The test afterwards. -/
  test : IperfTest

/-- `iprintf`, the format applied to its arguments being `text`. -/
def iprintf (text : List UInt8) (test : IperfTest) : Printing :=
  match test.role with
  | .client =>
    let title := match test.title with
      | some title => toBytes title ++ toBytes ":  "
      | none => []
    ⟨printfResult text, title ++ text, test⟩
  | .server =>
    let linebuffer := vsnprintf 1024 text
    ⟨printfResult text, cString linebuffer,
      if test.getServerOutput then
        { test with
          serverOutputList := test.serverOutputList ++ [ofBytes (cString (strdup linebuffer))] }
      else test⟩
  | .unset => ⟨-1, [], test⟩

/-- The blocks behind `t->line`. -/
def lineBlocks (test : IperfTest) : List (List UInt8) :=
  test.serverOutputList.map fun line => blockOf (toBytes line)

/-- A sum or a difference of type `size_t`, which has `w` bits. -/
def sizeT (w : ℕ) (n : ℤ) : ℕ := (n % 2 ^ w).toNat

/-- The loop that measures the lines. -/
def measureLines (w : ℕ) : List (List UInt8) → ℕ → ℕ
  | [], buflen => buflen
  | line :: lines, buflen => measureLines w lines (sizeT w (buflen + strlen line))

/-- The loop that appends them, `buflen` being the room left. -/
def appendLines (w : ℕ) : List (List UInt8) → ℕ → List UInt8 → Option (List UInt8)
  | [], _, output => some output
  | line :: lines, buflen, output =>
    (strncat output line buflen).bind (appendLines w lines (sizeT w (buflen - strlen line)))

/-- The buffer `output`; `none` when a write leaves it. -/
def outputBuffer (w : ℕ) (lines : List (List UInt8)) : Option (List UInt8) :=
  let buflen := measureLines w lines 0
  appendLines w lines buflen (calloc (sizeT w (buflen + 1)))

/-- The blocks of the lines are objects in a memory whose sizes `size_t` holds, with room for
more than them. -/
def Addressable (w : ℕ) (lines : List (List UInt8)) : Prop :=
  (lines.map List.length).sum + 1 < 2 ^ w

/-- The server's output in the message of `send_results`. -/
def addServerOutput (w : ℕ) (jsonTop : CJson) (test : IperfTest) : Option (List (String × CJson)) :=
  if test.role = .server ∧ test.getServerOutput then
    if test.jsonOutput then some [("server_output_json", jsonTop)]
    else (outputBuffer w (lineBlocks test)).map fun output =>
      [("server_output_text", .string (ofBytes (cString output)))]
  else some []

/-- `send_results` up to the message; `none` when the output leaves its buffer. -/
def buildResults (w : ℕ) (jsonTop : CJson) (test : IperfTest) : Option CJson :=
  (addServerOutput w jsonTop test).map fun output => .object <|
    [("cpu_util_total", createDouble test.cpuUtil.1),
      ("cpu_util_user", createDouble test.cpuUtil.2.1),
      ("cpu_util_system", createDouble test.cpuUtil.2.2),
      ("sender_has_retransmits",
        createNumber (if test.sender then test.senderHasRetransmits else -1))] ++
    output ++
    [("streams", .array (test.streams.map (streamResult test)))]

/-- What the rest of a server does to the output it keeps: nothing. It may ask for it. -/
structure KeepsOutput (test next : IperfTest) : Prop where
  role : next.role = test.role
  list : next.serverOutputList = test.serverOutputList
  asked : test.getServerOutput = true → next.getServerOutput = true

/-- A server with what its calls of `iprintf` wrote to `outfile` since `get_server_output` is
set and the test was reset last. -/
structure OutputRun where
  test : IperfTest
  /-- A text for each call. -/
  written : List (List UInt8)

/-- A call of `iprintf` in a run. -/
def OutputRun.iprintf (text : List UInt8) (run : OutputRun) : OutputRun :=
  let p := ServerOutput.iprintf text run.test
  ⟨p.test, if run.test.getServerOutput then run.written ++ [p.outfile] else run.written⟩

/-- The runs of a server: calls of `iprintf`, tests one after another and anything else in
between. -/
inductive OutputRun.Reached (platform : Platform) : OutputRun → Prop
  | start {test : IperfTest} (hrole : test.role = .server) (hlist : test.serverOutputList = []) :
    Reached platform ⟨test, []⟩
  | iprintf {run : OutputRun} (text : List UInt8) (h : Reached platform run) :
    Reached platform (run.iprintf text)
  | reset {run : OutputRun} (h : Reached platform run) :
    Reached platform ⟨iperfResetTest platform run.test, []⟩
  | other {run : OutputRun} {next : IperfTest} (h : Reached platform run)
    (hkeeps : KeepsOutput run.test next) : Reached platform ⟨next, run.written⟩

/-- What printing and parsing keep of an object: the names of its members, in their order,
and the members that are strings. A number may come back rounded. -/
inductive Retold : CJson → CJson → Prop
  | object {sent received : List (String × CJson)}
    (h : List.Forall₂ (fun a b => b.1 = a.1 ∧ ∀ text, a.2 = .string text → b.2 = .string text)
      sent received) : Retold (.object sent) (.object received)

/-- Joining lines joins their bytes. -/
theorem join_ofBytes (texts : List (List UInt8)) :
    String.join (texts.map ofBytes) = ofBytes texts.flatten := by
  induction texts with
  | nil => rfl
  | cons text texts ih =>
    rw [List.map_cons, String.join_cons, ih, List.flatten_cons]
    unfold ofBytes
    rw [List.map_append, String.ofList_append]

/-- A C string ends at its first zero byte. -/
theorem cString_append_zero {s : List UInt8} (h : 0 ∉ s) (rest : List UInt8) :
    cString (s ++ 0 :: rest) = s := by
  unfold cString
  rw [List.takeWhile_append_of_pos, List.takeWhile_cons_of_neg (by decide), List.append_nil]
  intro b hb
  rw [bne_iff_ne]
  rintro rfl
  exact h hb

/-- `strdup` copies a C string. -/
theorem cString_strdup (s : List UInt8) : cString (strdup s) = cString s :=
  cString_append_zero (zero_not_mem_cString s) []

/-- One round of the loop that appends: the string grows by the line, and the room left is
that of the lines to come. -/
theorem strncat_line {front line : List UInt8} (hfront : 0 ∉ front) (hline : 0 ∉ line) (n : ℕ) :
    strncat (front ++ calloc (line.length + n + 1)) (line ++ [0]) (line.length + n) =
      some (front ++ line ++ calloc (n + 1)) := by
  have hzeros : calloc (line.length + n + 1) = 0 :: calloc (line.length + n) := rfl
  have hdst : cString (front ++ calloc (line.length + n + 1)) = front := by
    rw [hzeros]
    exact cString_append_zero hfront _
  have hmore : (cString (line ++ [0])).take (line.length + n) = line := by
    rw [cString_append_zero hline, List.take_of_length_le (Nat.le_add_right _ _)]
  have hfits : (front ++ line).length < (front ++ calloc (line.length + n + 1)).length := by
    rw [List.length_append, List.length_append, calloc, List.length_replicate]
    omega
  have hrest : (front ++ calloc (line.length + n + 1)).drop ((front ++ line).length + 1) =
      calloc n := by
    have hroom : line.length + n + 1 - (line.length + 1) = n := by omega
    rw [List.length_append, Nat.add_assoc, List.drop_length_add_append, calloc,
      List.drop_replicate, hroom, calloc]
  unfold strncat
  dsimp only
  rw [hdst, hmore, if_pos hfits, hrest]
  rfl

/-- A length below the width of `size_t` is stored as it is. -/
theorem sizeT_of_lt {w n : ℕ} (h : n < 2 ^ w) : sizeT w n = n := by
  unfold sizeT
  rw [Int.emod_eq_of_lt (by omega) (by exact_mod_cast h), Int.toNat_natCast]

/-- The length of a line's block is that of the line. -/
theorem strlen_blockOf {s : List UInt8} (h : 0 ∉ s) : strlen (blockOf s) = s.length :=
  congrArg List.length (cString_append_zero h [])

/-- A block takes a byte more than its string. -/
theorem sum_blocks (lines : List (List UInt8)) :
    ((lines.map blockOf).map List.length).sum = lines.flatten.length + lines.length := by
  induction lines with
  | nil => rfl
  | cons line lines ih =>
    rw [List.map_cons, List.map_cons, List.sum_cons, ih, List.flatten_cons, List.length_append,
      List.length_cons, blockOf, List.length_append, List.length_singleton]
    omega

/-- The first pass over the list adds up the lengths of all lines. -/
theorem measureLines_eq {w : ℕ} {lines : List (List UInt8)} (hlines : ∀ line ∈ lines, 0 ∉ line)
    {buflen : ℕ} (h : buflen + lines.flatten.length < 2 ^ w) :
    measureLines w (lines.map blockOf) buflen = buflen + lines.flatten.length := by
  induction lines generalizing buflen with
  | nil => rfl
  | cons line lines ih =>
    obtain ⟨hline, hrest⟩ := List.forall_mem_cons.mp hlines
    rw [List.flatten_cons, List.length_append, ← Nat.add_assoc] at h ⊢
    have hsum : sizeT w (buflen + strlen (blockOf line)) = buflen + line.length := by
      rw [strlen_blockOf hline]
      exact sizeT_of_lt (by omega)
    rw [List.map_cons, measureLines, hsum]
    exact ih hrest h

/-- The loop that appends: what is in the buffer, with the lines to come, is the text, and the
room left is theirs. -/
theorem appendLines_eq {w : ℕ} {front : List UInt8} {lines : List (List UInt8)}
    (hfront : 0 ∉ front) (hlines : ∀ line ∈ lines, 0 ∉ line)
    (h : lines.flatten.length < 2 ^ w) :
    appendLines w (lines.map blockOf) lines.flatten.length
        (front ++ calloc (lines.flatten.length + 1)) =
      some (front ++ lines.flatten ++ [0]) := by
  induction lines generalizing front with
  | nil => rw [List.flatten_nil, List.append_nil]; rfl
  | cons line lines ih =>
    obtain ⟨hline, hrest⟩ := List.forall_mem_cons.mp hlines
    rw [List.flatten_cons, List.length_append] at h ⊢
    have hroom : sizeT w ((line.length + lines.flatten.length : ℕ) - strlen (blockOf line)) =
        lines.flatten.length := by
      have hdiff : ((line.length + lines.flatten.length : ℕ) : ℤ) - line.length =
          (lines.flatten.length : ℕ) := by
        push_cast
        ring
      rw [strlen_blockOf hline, hdiff]
      exact sizeT_of_lt (by omega)
    have hgrown : 0 ∉ front ++ line := by
      intro hmem
      rcases List.mem_append.mp hmem with hmem | hmem
      · exact hfront hmem
      · exact hline hmem
    rw [List.map_cons, appendLines, blockOf, strncat_line hfront hline, Option.bind_some,
      ← blockOf, hroom, ih hgrown hrest (by omega), List.append_assoc front]

/-- The buffer holds the lines one after another and is as large as that takes. -/
theorem outputBuffer_eq {w : ℕ} {lines : List (List UInt8)} (hlines : ∀ line ∈ lines, 0 ∉ line)
    (h : Addressable w (lines.map blockOf)) :
    outputBuffer w (lines.map blockOf) = some (lines.flatten ++ [0]) := by
  unfold Addressable at h
  rw [sum_blocks] at h
  have hlength : measureLines w (lines.map blockOf) 0 = lines.flatten.length := by
    rw [measureLines_eq hlines (by omega), Nat.zero_add]
  have hsize : sizeT w (lines.flatten.length + 1) = lines.flatten.length + 1 := by
    have hlt : lines.flatten.length + 1 < 2 ^ w := by omega
    exact_mod_cast sizeT_of_lt hlt
  unfold outputBuffer
  dsimp only
  rw [hlength, hsize]
  exact appendLines_eq List.not_mem_nil hlines (by omega)

/-- A server keeps the texts its calls of `iprintf` wrote. -/
structure OutputRun.Kept (run : OutputRun) : Prop where
  role : run.test.role = .server
  list : run.test.serverOutputList = run.written.map ofBytes
  clean : ∀ text ∈ run.written, 0 ∉ text

/-- What a call of `iprintf` on a server writes is what it keeps. -/
theorem iprintf_server (text : List UInt8) {test : IperfTest} (hrole : test.role = .server) :
    (iprintf text test).outfile = cString (vsnprintf 1024 text) ∧
      (iprintf text test).test = if test.getServerOutput then
        { test with
          serverOutputList := test.serverOutputList ++ [ofBytes (cString (vsnprintf 1024 text))] }
        else test := by
  unfold iprintf
  rw [hrole]
  dsimp only
  rw [cString_strdup]
  exact ⟨rfl, rfl⟩

/-- A line that is printed is also kept. -/
theorem OutputRun.Kept.iprintf {run : OutputRun} (h : run.Kept) (text : List UInt8) :
    (run.iprintf text).Kept := by
  obtain ⟨houtfile, htest⟩ := iprintf_server text h.role
  unfold OutputRun.iprintf
  dsimp only
  rw [houtfile, htest]
  split
  · refine ⟨h.role, ?_, ?_⟩
    · dsimp only
      rw [h.list, List.map_append]
      rfl
    · intro line hline
      rcases List.mem_append.mp hline with hline | hline
      · exact h.clean line hline
      · rw [List.mem_singleton.mp hline]
        exact zero_not_mem_cString _
  · exact h

/-- A server that has printed nothing has kept everything. -/
theorem OutputRun.kept_of_empty {test : IperfTest} (hrole : test.role = .server)
    (hlist : test.serverOutputList = []) : OutputRun.Kept ⟨test, []⟩ where
  role := hrole
  list := hlist
  clean := by
    intro text h
    cases h

/-- A server stays one when its test is reset. -/
theorem role_resetTest (platform : Platform) (test : IperfTest) :
    (iperfResetTest platform test).role = .server :=
  congrArg IperfTest.role (setProtocol_frame platform .tcp { test with
    streams := []
    omitTimer := none
    timer := none
    statsTimer := none
    reporterTimer := none
    done := false
    role := .server
    sender := false
    senderHasRetransmits := 0 })

/-- In every run a server has kept what it wrote. -/
theorem OutputRun.Reached.kept {platform : Platform} {run : OutputRun}
    (h : run.Reached platform) : run.Kept := by
  induction h with
  | start hrole hlist => exact OutputRun.kept_of_empty hrole hlist
  | iprintf text _ ih => exact ih.iprintf text
  | reset _ _ => exact OutputRun.kept_of_empty (role_resetTest platform _) rfl
  | other _ hkeeps ih =>
    exact ⟨hkeeps.role.trans ih.role, hkeeps.list.trans ih.list, ih.clean⟩

/-- `get_parameters` sets `get_server_output` when the message has the key, and never clears
it. -/
theorem getServerOutput_getParameters {platform : Platform} {j : CJson} {test next : IperfTest}
    (h : getParameters platform j test = some next) :
    next.getServerOutput =
      valueOr j "get_server_output" (fun _ => true) test.getServerOutput := by
  obtain ⟨t₁, htitle, h⟩ := Option.bind_eq_some_iff.mp h
  obtain ⟨t₂, hcongestion, rfl⟩ := Option.map_eq_some_iff.mp h
  have hset : ∀ protocol t, (setProtocol platform protocol t).getServerOutput =
      t.getServerOutput := by
    intro protocol t
    unfold setProtocol
    split
    · rw [checkSenderHasRetransmits_eq]
    · rfl
  have hproto : (getProtocol platform j test).getServerOutput = test.getServerOutput := by
    unfold getProtocol
    dsimp only
    rw [onItem_keeps IperfTest.getServerOutput fun _ => hset _ _,
      onItem_keeps IperfTest.getServerOutput fun _ => hset _ _,
      onItem_keeps IperfTest.getServerOutput fun _ => hset _ _]
  have hnumbers := congrArg Parameters.getServerOutput
    (getNumbers_spec platform j (getProtocol platform j test))
  have htexts : t₂.getServerOutput =
      (getNumbers platform j (getProtocol platform j test)).getServerOutput := by
    have hfirst := congrArg Parameters.getServerOutput
      (parametersOf_onText (fun x p => { p with title := x }) Parameters.title (fun _ => rfl)
        (fun _ => rfl) htitle)
    have hsecond := congrArg Parameters.getServerOutput
      (parametersOf_onText (fun x p => { p with congestion := x }) Parameters.congestion
        (fun _ => rfl) (fun _ => rfl) hcongestion)
    exact Eq.trans hsecond hfirst
  have hflags := congrArg Parameters.getServerOutput (getFlags_spec platform j t₂)
  have hbefore : t₂.getServerOutput = test.getServerOutput :=
    htexts.trans (Eq.trans hnumbers hproto)
  rw [← hbefore]
  exact hflags

/-- `get_parameters` on a server. -/
theorem keepsOutput_getParameters {platform : Platform} {j : CJson} {test next : IperfTest}
    (h : getParameters platform j test = some next) : KeepsOutput test next := by
  have hframe := getParameters_frame h
  have hrole := congrArg IperfTest.role hframe
  have hlist := congrArg IperfTest.serverOutputList hframe
  refine ⟨hrole, hlist, ?_⟩
  intro hasked
  rw [getServerOutput_getParameters h, hasked]
  unfold valueOr
  split
  · rfl
  · rfl

/-- What a lookup finds in an object that was printed and parsed. -/
theorem getObjectItem_retold {sent received : CJson} (h : Retold sent received) (name : String) :
    (getObjectItem received name).isSome = (getObjectItem sent name).isSome ∧
      ∀ text, getObjectItem sent name = some (.string text) →
        getObjectItem received name = some (.string text) := by
  cases h with
  | object h =>
    unfold getObjectItem
    dsimp only
    induction h with
    | nil => exact ⟨rfl, fun text htext => htext⟩
    | cons hhead _ ih =>
      obtain ⟨hname, hstring⟩ := hhead
      rw [lookupMember, lookupMember, hname]
      split
      · refine ⟨rfl, ?_⟩
        intro text htext
        rw [hstring text (Option.some.inj htext)]
      · exact ih

/-- A client that asked for it keeps the text of a message that has one, as a copy that
`strdup` makes of it. -/
theorem getResults_text {j : CJson} {client : IperfTest} {text : String}
    (hmembers : ∀ name ∈ ["cpu_util_total", "cpu_util_user", "cpu_util_system",
      "sender_has_retransmits", "streams"], (getObjectItem j name).isSome = true)
    (hjson : getObjectItem j "server_output_json" = none)
    (htext : getObjectItem j "server_output_text" = some (.string text))
    (hrole : client.role = .client) (hasks : client.getServerOutput = true) :
    ∃ r, getResults j client = some r ∧ r.2.serverOutputText = some text := by
  have hfound := fun name hname => Option.isSome_iff_exists.mp (hmembers name hname)
  obtain ⟨total, htotal⟩ := hfound "cpu_util_total" (by simp)
  obtain ⟨user, huser⟩ := hfound "cpu_util_user" (by simp)
  obtain ⟨system, hsystem⟩ := hfound "cpu_util_system" (by simp)
  obtain ⟨retransmits, hretransmits⟩ := hfound "sender_has_retransmits" (by simp)
  obtain ⟨streams, hstreams⟩ := hfound "streams" (by simp)
  set s := (arrayItems streams).foldl getStreamResult
    (true, getHeader total user system retransmits client) with hs
  have hframe : SameExchange client s.2 :=
    (getHeader_frame total user system retransmits client).trans
      (getStreamResults_frame (arrayItems streams) (true, _))
  have hsameRole := congrArg IperfTest.role hframe.test
  have hsameAsks := congrArg IperfTest.getServerOutput hframe.test
  have hclient : s.2.role = .client ∧ s.2.getServerOutput = true :=
    ⟨Eq.trans hsameRole hrole, Eq.trans hsameAsks hasks⟩
  refine ⟨(s.1, { s.2 with serverOutputText := some text }), ?_, rfl⟩
  unfold getResults
  rw [htotal, huser, hsystem, hretransmits]
  dsimp only
  rw [hstreams]
  dsimp only
  unfold getServerOutput
  rw [← hs, if_pos hclient, hjson]
  dsimp only
  rw [htext]
  rfl

/-- The members of every message. -/
theorem sendResults_members (jsonTop : CJson) (test : IperfTest) :
    ∀ name ∈ ["cpu_util_total", "cpu_util_user", "cpu_util_system", "sender_has_retransmits",
      "streams"], (getObjectItem (sendResults jsonTop test) name).isSome = true := by
  obtain ⟨htotal, huser, hsystem, hretransmits, hstreams, -⟩ := sendResults_items jsonTop test
  intro name hname
  simp only [List.mem_cons, List.not_mem_nil, or_false] at hname
  rcases hname with rfl | rfl | rfl | rfl | rfl
  · rw [htotal, Option.isSome_some]
  · rw [huser, Option.isSome_some]
  · rw [hsystem, Option.isSome_some]
  · rw [hretransmits, Option.isSome_some]
  · rw [hstreams, Option.isSome_some]

/-- The members of a message with a server's output as text. -/
theorem sendResults_text {jsonTop : CJson} {test : IperfTest} (hrole : test.role = .server)
    (hasks : test.getServerOutput = true) (hplain : test.jsonOutput = false) :
    getObjectItem (sendResults jsonTop test) "server_output_text" =
        some (.string (String.join test.serverOutputList)) ∧
      getObjectItem (sendResults jsonTop test) "server_output_json" = none := by
  have houtput : serverOutput jsonTop test =
      [("server_output_text", .string (String.join test.serverOutputList))] := by
    unfold serverOutput
    rw [if_pos ⟨hrole, hasks⟩, hplain]
    rfl
  rw [sendResults_eq, houtput]
  exact ⟨rfl, rfl⟩

/-- The blocks of the list are those of the lines written. -/
theorem lineBlocks_kept {run : OutputRun} (h : run.Kept) :
    lineBlocks run.test = run.written.map blockOf := by
  unfold lineBlocks
  rw [h.list, List.map_map]
  exact List.map_congr_left fun text _ => congrArg blockOf (toBytes_ofBytes text)

/-- The text that the buffer of `send_results` holds is the one of the message. -/
theorem buildResults_eq {w : ℕ} {jsonTop : CJson} {run : OutputRun} (h : run.Kept)
    (hfits : Addressable w (lineBlocks run.test)) :
    buildResults w jsonTop run.test = some (sendResults jsonTop run.test) := by
  have houtput : addServerOutput w jsonTop run.test = some (serverOutput jsonTop run.test) := by
    rw [lineBlocks_kept h] at hfits
    have hclean : 0 ∉ run.written.flatten := by
      intro hmem
      obtain ⟨text, htext, hzero⟩ := List.mem_flatten.mp hmem
      exact h.clean text htext hzero
    unfold addServerOutput serverOutput
    rw [lineBlocks_kept h, outputBuffer_eq h.clean hfits, Option.map_some,
      cString_append_zero hclean, h.list, join_ofBytes]
    split
    · split
      · rfl
      · rfl
    · rfl
  unfold buildResults
  rw [houtput, sendResults_eq]
  rfl

/-- A server's output reaches the client unchanged. In every run of a server that is asked for
its output and prints text, the lines fill the buffer of `send_results` exactly, whatever their
number and length; the message is that with the texts written to `outfile` one after another;
and this text is what `get_results` stores on a client that asked for it. -/
theorem serverOutput_arrives (platform : Platform) (jsonTop : CJson) {run : OutputRun}
    (h : run.Reached platform) (hasks : run.test.getServerOutput = true)
    (hplain : run.test.jsonOutput = false) :
    (∀ w, Addressable w (lineBlocks run.test) →
        outputBuffer w (lineBlocks run.test) = some (run.written.flatten ++ [0]) ∧
          buildResults w jsonTop run.test = some (sendResults jsonTop run.test)) ∧
      getObjectItem (sendResults jsonTop run.test) "server_output_text" =
        some (.string (ofBytes run.written.flatten)) ∧
      ∀ received client, Retold (sendResults jsonTop run.test) received →
        client.role = .client → client.getServerOutput = true →
        ∃ r, getResults received client = some r ∧
          r.2.serverOutputText = some (ofBytes run.written.flatten) := by
  have hkept := h.kept
  obtain ⟨hsent, hnoJson⟩ := @sendResults_text jsonTop run.test hkept.role hasks hplain
  rw [hkept.list, join_ofBytes] at hsent
  refine ⟨?_, hsent, ?_⟩
  · intro w hfits
    refine ⟨?_, buildResults_eq hkept hfits⟩
    rw [lineBlocks_kept hkept] at hfits ⊢
    exact outputBuffer_eq hkept.clean hfits
  · intro received client hretold hrole hclient
    refine getResults_text ?_ ?_ ((getObjectItem_retold hretold _).2 _ hsent) hrole hclient
    · intro name hname
      rw [(getObjectItem_retold hretold name).1]
      exact sendResults_members jsonTop run.test name hname
    · rw [← Option.isNone_iff_eq_none, ← Option.not_isSome, (getObjectItem_retold hretold _).1,
        hnoJson]
      rfl

/-- An object that comes back as it was. -/
theorem Retold.refl (members : List (String × CJson)) :
    Retold (.object members) (.object members) :=
  Retold.object (List.forall₂_same.mpr fun _ _ => ⟨rfl, fun _ htext => htext⟩)

/-- A line that fits into the buffer of `iprintf`. -/
def shortLine : List UInt8 := toBytes "ok\n"

/-- A line that does not. -/
def longLine : List UInt8 := List.replicate 2000 65

/-- A server that a client asks for its output and that then prints the two lines. -/
def askedRun : OutputRun :=
  ((⟨{ role := .server, getServerOutput := true }, []⟩ : OutputRun).iprintf shortLine).iprintf
    longLine

/-- The server with a short and a cut line is reachable. -/
theorem reached_askedRun (platform : Platform) : askedRun.Reached platform := by
  have hparameters : getParameters platform (.object [("get_server_output", createNumber 1)])
      { role := .server } = some { role := .server, getServerOutput := true } := rfl
  have hstart : OutputRun.Reached platform ⟨{ role := .server }, []⟩ :=
    OutputRun.Reached.start rfl rfl
  exact ((hstart.other (keepsOutput_getParameters hparameters)).iprintf shortLine).iprintf longLine

/-- It has written the short line and the first 1023 bytes of the long one. -/
theorem written_askedRun : askedRun.written = [shortLine, List.replicate 1023 65] := by
  decide +kernel

/-- Both lines arrive at the client. -/
theorem askedRun_arrives :
    outputBuffer 64 (lineBlocks askedRun.test) =
        some (shortLine ++ List.replicate 1023 65 ++ [0]) ∧
      ∃ r, getResults (sendResults .null askedRun.test)
          { role := .client, getServerOutput := true } = some r ∧
        r.2.serverOutputText = some (ofBytes (shortLine ++ List.replicate 1023 65)) := by
  have hreached := reached_askedRun ⟨true, true, fun h => h⟩
  have hjoined : askedRun.written.flatten = shortLine ++ List.replicate 1023 65 := by
    rw [written_askedRun, List.flatten_cons, List.flatten_singleton]
  have hfits : Addressable 64 (lineBlocks askedRun.test) := by
    rw [lineBlocks_kept hreached.kept, written_askedRun]
    unfold Addressable
    decide +kernel
  obtain ⟨hbuffer, -, hclient⟩ := serverOutput_arrives _ .null hreached rfl rfl
  rw [hjoined] at hbuffer hclient
  exact ⟨(hbuffer 64 hfits).1, hclient _ _ (Retold.refl _) rfl rfl⟩

end IperfRuntime.ServerOutput
