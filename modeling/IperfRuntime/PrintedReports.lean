import IperfRuntime.RateLines

/-!
# Reports fed to the command parser

The lines that a list of outputs puts on the standard output, what the parser makes of them
in order, and the answers to the blocks that the reports are built of. How the lines are cut
into reads of the process output is not modelled.
-/

namespace IperfRuntime.PrintedReports

open ClockReading TestState PrintfText PrintedNumbers ReportOutput CommandParser ReportLines
  RateLines TextPattern

/-- The lines that `forEachLine` reads, behind the beginning of one. -/
def readLines : Text → Text → List Text
  | [], [] => []
  | c :: line, [] => [c :: line]
  | line, '\n' :: rest => line :: readLines [] rest
  | line, '\r' :: '\n' :: rest => line :: readLines [] rest
  | line, '\r' :: rest => line :: readLines [] rest
  | line, c :: rest => readLines (line ++ [c]) rest

/-- The lines of a printed text. -/
def textLines (text : Text) : List Text := readLines [] (text ++ ['\n'])

/-- What stands on the standard output, `none` when a text is missing. -/
def printed : List Output → Option (List Text)
  | [] => some []
  | .line text :: outs =>
    text.bind fun text => (printed outs).map fun lines => textLines text ++ lines
  | _ :: outs => printed outs

/-- A call with the line it is made for. -/
abbrev Answer := Text × CmdCallback

/-- The reports that the lines lead to, and the object behind them; `none` when a
conversion throws. -/
def feed : List Text → Iperf3Cmd → Option (List Answer × Iperf3Cmd)
  | [], cmd => some ([], cmd)
  | line :: lines, cmd =>
    (lineReports cmd line).bind fun calls =>
      (feed lines (countTitle (String.ofList line) cmd)).map fun r =>
        (calls.map (Prod.mk line) ++ r.1, r.2)

/-- Those that outputs lead to. -/
def feedOutputs (outs : List Output) (cmd : Iperf3Cmd) : Option (List Answer × Iperf3Cmd) :=
  (printed outs).bind fun lines => feed lines cmd

/-- The answers to block after block of outputs. -/
def feedBlocks : List (List Output) → Iperf3Cmd → Option (List (List Answer))
  | [], _ => some []
  | outs :: blocks, cmd =>
    (feedOutputs outs cmd).bind fun r =>
      (feedBlocks blocks r.2).map fun rest => r.1 :: rest

/-- The calls are those of the run: feeding the lines one after the other leads to the answers
and to the state that the whole run ends with. -/
theorem feed_parseLines {lines : List Text} {cmd cmd' : Iperf3Cmd} {answers : List Answer}
    (h : feed lines cmd = some (answers, cmd')) :
    (parseLines (lines.map String.ofList) cmd).1.filter isReport = answers.map Prod.snd ∧
      (parseLines (lines.map String.ofList) cmd).2 = cmd' := by
  induction lines generalizing cmd answers with
  | nil =>
    cases h
    exact ⟨rfl, rfl⟩
  | cons line lines ih =>
    unfold feed at h
    obtain ⟨calls, hcalls, hrest⟩ := Option.bind_eq_some_iff.mp h
    obtain ⟨r, hr, heq⟩ := Option.map_eq_some_iff.mp hrest
    obtain ⟨rfl, rfl⟩ := Prod.mk.inj heq
    obtain ⟨hreports, hcmd⟩ := ih hr
    unfold lineReports at hcalls
    dsimp only at hcalls
    split at hcalls
    · rename_i hreturns
      cases hcalls
      rw [List.map_cons, parseLines]
      dsimp only
      rw [if_pos hreturns]
      refine ⟨?_, hcmd⟩
      rw [List.filter_append, hreports, List.map_append, List.map_map]
      congr 1
      exact (List.map_id _).symm
    · cases hcalls

/-- The answers that an object gives whose count of titles does not matter any more. -/
def collectLines (cmd : Iperf3Cmd) : List Text → Option (List Answer)
  | [] => some []
  | line :: lines =>
    (lineReports cmd line).bind fun calls =>
      (collectLines cmd lines).map fun answers => calls.map (Prod.mk line) ++ answers

/-- Those to the lines of outputs. -/
def collect (cmd : Iperf3Cmd) (outs : List Output) : Option (List Answer) :=
  (printed outs).bind (collectLines cmd)

/-- Outputs are printed one after the other; one that cannot be printed leaves nothing of the rest.
-/
theorem printed_append (a b : List Output) :
    printed (a ++ b) = (printed a).bind fun x => (printed b).map fun y => x ++ y := by
  induction a with
  | nil => simp [printed]
  | cons o a ih =>
    cases o with
    | line text =>
      cases text with
      | none => rfl
      | some text =>
        simp only [List.cons_append, printed, Option.bind_some, ih]
        cases printed a with
        | none => rfl
        | some x =>
          cases printed b with
          | none => rfl
          | some y => simp
    | err text => simpa [printed] using ih
    | onInterval start finish sendBytes bandWidth => simpa [printed] using ih
    | onResult start finish sendBytes bandWidth => simpa [printed] using ih

/-- Lines are answered one after the other under a fixed state of the parser. -/
theorem collectLines_append (cmd : Iperf3Cmd) (a b : List Text) :
    collectLines cmd (a ++ b) =
      (collectLines cmd a).bind fun x => (collectLines cmd b).map fun y => x ++ y := by
  induction a with
  | nil => simp [collectLines]
  | cons line a ih =>
    simp only [List.cons_append, collectLines, ih]
    cases lineReports cmd line with
    | none => rfl
    | some calls =>
      cases collectLines cmd a with
      | none => rfl
      | some x =>
        cases collectLines cmd b with
        | none => rfl
        | some y => simp

/-- So are the lines of outputs. -/
theorem collect_append (cmd : Iperf3Cmd) (a b : List Output) :
    collect cmd (a ++ b) =
      (collect cmd a).bind fun x => (collect cmd b).map fun y => x ++ y := by
  unfold collect
  rw [printed_append]
  cases printed a with
  | none => rfl
  | some x =>
    cases printed b with
    | none =>
      cases hx : collectLines cmd x with
      | none => simp [hx]
      | some z => simp [hx]
    | some y =>
      simp only [Option.bind_some, Option.map_some]
      exact collectLines_append cmd x y

/-- When outputs are answered, and how. -/
def Collects (cmd : Iperf3Cmd) (outs : List Output) (p : Prop) (answers : List Answer) : Prop :=
  ∀ x, collect cmd outs = some x ↔ p ∧ x = answers

/-- Outputs that give their answers under one condition each give both under both conditions. -/
theorem Collects.append {cmd : Iperf3Cmd} {a b : List Output} {p q : Prop} {v w : List Answer}
    (ha : Collects cmd a p v) (hb : Collects cmd b q w) :
    Collects cmd (a ++ b) (p ∧ q) (v ++ w) := by
  intro x
  rw [collect_append]
  constructor
  · intro h
    obtain ⟨y, hy, hmap⟩ := Option.bind_eq_some_iff.mp h
    obtain ⟨z, hz, rfl⟩ := Option.map_eq_some_iff.mp hmap
    obtain ⟨hp, rfl⟩ := (ha y).mp hy
    obtain ⟨hq, rfl⟩ := (hb z).mp hz
    exact ⟨⟨hp, hq⟩, rfl⟩
  · rintro ⟨⟨hp, hq⟩, rfl⟩
    rw [(ha v).mpr ⟨hp, rfl⟩, (hb w).mpr ⟨hq, rfl⟩]
    rfl

/-- The condition and the answers may be replaced by equal ones. -/
theorem Collects.congr {cmd : Iperf3Cmd} {outs : List Output} {p q : Prop} {v w : List Answer}
    (h : Collects cmd outs p v) (hpq : p ↔ q) (hvw : v = w) : Collects cmd outs q w := by
  intro x
  rw [h x, hpq, hvw]

/-- The answers need to agree only where the condition holds. -/
theorem Collects.congr_of {cmd : Iperf3Cmd} {outs : List Output} {p : Prop} {v w : List Answer}
    (h : Collects cmd outs p v) (hvw : p → v = w) : Collects cmd outs p w := by
  intro x
  rw [h x]
  constructor
  · rintro ⟨hp, rfl⟩
    exact ⟨hp, hvw hp⟩
  · rintro ⟨hp, rfl⟩
    exact ⟨hp, (hvw hp).symm⟩

/-- No output gives no answer, under no condition. -/
theorem collects_nil (cmd : Iperf3Cmd) : Collects cmd [] True [] := by
  intro x
  simp [collect, printed, collectLines, eq_comm]

/-- Outputs that are answered at all are answered in one way. -/
theorem collects_self (cmd : Iperf3Cmd) (outs : List Output) :
    Collects cmd outs ((collect cmd outs).isSome = true) ((collect cmd outs).getD []) := by
  intro x
  cases collect cmd outs with
  | none => simp
  | some y => simp [eq_comm]

/-- Outputs of the elements of a list give the answers of all elements under all their conditions.
-/
theorem Collects.flatMap {α : Type} {cmd : Iperf3Cmd} {f : α → List Output} {p : α → Prop}
    {v : α → List Answer} {l : List α} (h : ∀ a ∈ l, Collects cmd (f a) (p a) (v a)) :
    Collects cmd (l.flatMap f) (∀ a ∈ l, p a) (l.flatMap v) := by
  induction l with
  | nil => exact (collects_nil cmd).congr (by simp) rfl
  | cons a l ih =>
    have ha := h a List.mem_cons_self
    have hl := ih fun b hb => h b (List.mem_cons_of_mem _ hb)
    exact (ha.append hl).congr (by simp) rfl

/-- Callbacks into Java print nothing. -/
theorem collects_call (cmd : Iperf3Cmd) {event : Output} (h : ∀ text, event ≠ .line text)
    (condition : Bool) : Collects cmd (callIf condition event) True [] := by
  cases condition with
  | false => exact collects_nil cmd
  | true =>
    cases event with
    | line text => exact absurd rfl (h text)
    | err text => exact collects_nil cmd
    | onInterval start finish sendBytes bandWidth => exact collects_nil cmd
    | onResult start finish sendBytes bandWidth => exact collects_nil cmd

/-- Lines are fed one after the other; the second part meets the parser as the first has left it. -/
theorem feed_append (a b : List Text) (cmd : Iperf3Cmd) :
    feed (a ++ b) cmd = (feed a cmd).bind fun r => (feed b r.2).map fun s => (r.1 ++ s.1, s.2) := by
  induction a generalizing cmd with
  | nil => simp [feed]
  | cons line a ih =>
    simp only [List.cons_append, feed, ih]
    cases lineReports cmd line with
    | none => rfl
    | some calls =>
      cases feed a (countTitle (String.ofList line) cmd) with
      | none => rfl
      | some r =>
        cases hb : feed b r.2 with
        | none => simp [hb]
        | some s => simp [hb]

/-- Outputs are fed one after the other in the same way. -/
theorem feedOutputs_append (a b : List Output) (cmd : Iperf3Cmd) :
    feedOutputs (a ++ b) cmd =
      (feedOutputs a cmd).bind fun r => (feedOutputs b r.2).map fun s => (r.1 ++ s.1, s.2) := by
  unfold feedOutputs
  rw [printed_append]
  cases printed a with
  | none => rfl
  | some x =>
    cases printed b with
    | none =>
      cases hx : feed x cmd with
      | none => simp [hx]
      | some r => simp [hx]
    | some y =>
      simp only [Option.bind_some, Option.map_some]
      exact feed_append x y cmd

/-- No line of the outputs is a title. -/
def Untitled (outs : List Output) : Prop :=
  ∀ lines, printed outs = some lines → ∀ line ∈ lines, titlePattern.occurs line = false

/-- Outputs without a title put together have no title. -/
theorem Untitled.append {a b : List Output} (ha : Untitled a) (hb : Untitled b) :
    Untitled (a ++ b) := by
  intro lines hlines
  rw [printed_append] at hlines
  obtain ⟨x, hx, hmap⟩ := Option.bind_eq_some_iff.mp hlines
  obtain ⟨y, hy, rfl⟩ := Option.map_eq_some_iff.mp hmap
  intro line hline
  rcases List.mem_append.mp hline with h | h
  · exact ha x hx line h
  · exact hb y hy line h

/-- No output has no title. -/
theorem untitled_nil : Untitled [] := by
  intro lines hlines line hline
  cases hlines
  cases hline

/-- Outputs without a title for every element of a list have no title together. -/
theorem Untitled.flatMap {α : Type} {f : α → List Output} {l : List α}
    (h : ∀ a ∈ l, Untitled (f a)) : Untitled (l.flatMap f) := by
  induction l with
  | nil => exact untitled_nil
  | cons a l ih =>
    exact (h a List.mem_cons_self).append (ih fun b hb => h b (List.mem_cons_of_mem _ hb))

/-- A call of the app prints no line, so it has no title. -/
theorem untitled_call {event : Output} (h : ∀ text, event ≠ .line text) (condition : Bool) :
    Untitled (callIf condition event) := by
  cases condition with
  | false => exact untitled_nil
  | true =>
    cases event with
    | line text => exact absurd rfl (h text)
    | err text => exact untitled_nil
    | onInterval start finish sendBytes bandWidth => exact untitled_nil
    | onResult start finish sendBytes bandWidth => exact untitled_nil

/-- Outputs in which the parser finds nothing. -/
def Mute (outs : List Output) : Prop := Untitled outs ∧ ∀ cmd, Collects cmd outs True []

/-- Outputs that say nothing to the parser say nothing together. -/
theorem Mute.append {a b : List Output} (ha : Mute a) (hb : Mute b) : Mute (a ++ b) := by
  refine ⟨ha.1.append hb.1, ?_⟩
  intro cmd
  exact ((ha.2 cmd).append (hb.2 cmd)).congr (by simp) rfl

/-- No output says nothing. -/
theorem mute_nil : Mute [] := ⟨untitled_nil, collects_nil⟩

/-- A call of the app prints no line, so it says nothing to the parser. -/
theorem mute_call {event : Output} (h : ∀ text, event ≠ .line text) (condition : Bool) :
    Mute (callIf condition event) :=
  ⟨untitled_call h condition, fun cmd => collects_call cmd h condition⟩

/-- Without titles the object stays as it is. -/
theorem feed_untitled {lines : List Text} (h : ∀ line ∈ lines, titlePattern.occurs line = false)
    (cmd : Iperf3Cmd) :
    feed lines cmd = (collectLines cmd lines).map fun answers => (answers, cmd) := by
  induction lines with
  | nil => rfl
  | cons line lines ih =>
    have hline := h line List.mem_cons_self
    have hsame : countTitle (String.ofList line) cmd = cmd := by
      unfold countTitle
      rw [String.toList_ofList, hline]
      rfl
    unfold feed collectLines
    rw [hsame, ih fun l hl => h l (List.mem_cons_of_mem _ hl)]
    cases lineReports cmd line with
    | none => rfl
    | some calls =>
      cases collectLines cmd lines with
      | none => rfl
      | some answers => rfl

/-- Lines without a title are answered under the state that is there, and leave it as it is. -/
theorem feedOutputs_untitled {outs : List Output} (h : Untitled outs) (cmd : Iperf3Cmd) :
    feedOutputs outs cmd = (collect cmd outs).map fun answers => (answers, cmd) := by
  unfold feedOutputs collect
  cases hlines : printed outs with
  | none => rfl
  | some lines => exact feed_untitled (h lines hlines) cmd

/-- Behind the second title the count does not matter. -/
theorem reportCalls_titled {a b : Iperf3Cmd} (ha : 2 ≤ a.titleCnt) (hb : 2 ≤ b.titleCnt)
    (hparallels : a.parallels = b.parallels) (hdown : a.isDown = b.isDown) (line : String) :
    reportCalls a line = reportCalls b line := by
  have hinterval : ∀ c : Iperf3Cmd, 2 ≤ c.titleCnt → isInterval c line = false := by
    intro c hc
    have hne : (c.titleCnt == 1) = false := by
      rw [beq_eq_false_iff_ne]
      omega
    rw [isInterval_eq, hne, Bool.false_and]
  have hstreams : forStreams a line = forStreams b line := by
    unfold forStreams
    rw [hparallels]
  have hresult : isResult a line = isResult b line := by
    have hboth : decide (1 < a.titleCnt) = decide (1 < b.titleCnt) := by
      rw [decide_eq_true (by omega), decide_eq_true (by omega)]
    have hnames : namesLocal a line = namesLocal b line := by
      unfold namesLocal
      rw [hdown]
    rw [isResult_eq, isResult_eq, hstreams, hboth, hnames]
  unfold reportCalls
  rw [hinterval a ha, hinterval b hb, hresult, hdown]

/-- A line changes nothing but the number of titles, which does not fall. -/
theorem countTitle_spec (line : String) (cmd : Iperf3Cmd) :
    (countTitle line cmd).parallels = cmd.parallels ∧ (countTitle line cmd).isDown = cmd.isDown ∧
      cmd.titleCnt ≤ (countTitle line cmd).titleCnt := by
  unfold countTitle
  split
  · exact ⟨rfl, rfl, Nat.le_succ _⟩
  · exact ⟨rfl, rfl, le_refl _⟩

/-- Behind the second title the answers to a line do not depend on how many titles there were. -/
theorem lineReports_titled {a b : Iperf3Cmd} (ha : 2 ≤ a.titleCnt) (hb : 2 ≤ b.titleCnt)
    (hparallels : a.parallels = b.parallels) (hdown : a.isDown = b.isDown) (line : Text) :
    lineReports a line = lineReports b line := by
  obtain ⟨hparallelsA, hdownA, hcountA⟩ := countTitle_spec (String.ofList line) a
  obtain ⟨hparallelsB, hdownB, hcountB⟩ := countTitle_spec (String.ofList line) b
  unfold lineReports parseToCallback
  rw [reportCalls_titled (le_trans ha hcountA) (le_trans hb hcountB)
    (by rw [hparallelsA, hparallelsB, hparallels]) (by rw [hdownA, hdownB, hdown])]

/-- So all lines behind the second title are answered as under that title. -/
theorem feed_titled {lines : List Text} {cmd fixed : Iperf3Cmd} (hcmd : 2 ≤ cmd.titleCnt)
    (hfixed : 2 ≤ fixed.titleCnt) (hparallels : cmd.parallels = fixed.parallels)
    (hdown : cmd.isDown = fixed.isDown) :
    (feed lines cmd).map Prod.fst = collectLines fixed lines := by
  induction lines generalizing cmd with
  | nil => rfl
  | cons line lines ih =>
    obtain ⟨hparallels', hdown', hcount'⟩ := countTitle_spec (String.ofList line) cmd
    have hrest := ih (le_trans hcmd hcount') (hparallels'.trans hparallels) (hdown'.trans hdown)
    unfold feed collectLines
    rw [lineReports_titled hcmd hfixed hparallels hdown, ← hrest]
    cases lineReports fixed line with
    | none => rfl
    | some calls =>
      cases feed lines (countTitle (String.ofList line) cmd) with
      | none => rfl
      | some r => rfl

/-- The same for outputs, whose answers are then those of a parser that has seen two titles. -/
theorem feedOutputs_titled {outs : List Output} {cmd : Iperf3Cmd} (hcmd : 2 ≤ cmd.titleCnt) :
    (feedOutputs outs cmd).map Prod.fst = collect ⟨cmd.parallels, cmd.isDown, 2⟩ outs := by
  unfold feedOutputs collect
  cases printed outs with
  | none => rfl
  | some lines => exact feed_titled hcmd (le_refl 2) rfl rfl

/-- A text without a line break is one line. -/
theorem textLines_plain {text : Text} (hn : '\n' ∉ text) (hr : '\r' ∉ text) :
    textLines text = [text] := by
  have hread : ∀ line : Text, readLines line (text ++ ['\n']) = [line ++ text] := by
    induction text with
    | nil =>
      intro line
      simp [readLines]
    | cons c text ih =>
      intro line
      have hc : c ≠ '\n' := fun h => hn (h ▸ List.mem_cons_self)
      have hc' : c ≠ '\r' := fun h => hr (h ▸ List.mem_cons_self)
      rw [List.cons_append, readLines]
      · rw [ih (fun h => hn (List.mem_cons_of_mem _ h)) (fun h => hr (List.mem_cons_of_mem _ h))]
        simp
      · exact hc
      · intro rest h
        exact absurd h hc'
      · exact hc'
  exact hread []

/-- The answers to an output of one line are those to the line, each paired with its text. -/
theorem collect_line {cmd : Iperf3Cmd} {text : Text} (hn : '\n' ∉ text) (hr : '\r' ∉ text) :
    collect cmd [.line (some text)] = (lineReports cmd text).map fun calls =>
      calls.map (Prod.mk text) := by
  unfold collect
  simp only [printed, Option.bind_some, Option.map_some, List.append_nil]
  rw [textLines_plain hn hr]
  simp only [collectLines, Option.map_some, List.append_nil]
  cases lineReports cmd text with
  | none => rfl
  | some calls => rfl

/-- A line in which the parser finds nothing. -/
theorem collects_silent (cmd : Iperf3Cmd) {text : Text} (hn : '\n' ∉ text) (hr : '\r' ∉ text)
    (hp : 'p' ∉ text) (hB : 'B' ∉ text) : Collects cmd [.line (some text)] True [] := by
  intro x
  rw [collect_line hn hr, lineReports_silent hp hB]
  simp [eq_comm]

/-- Times that are shown with two digits in front of the point are those below 99.995 seconds,
where the second decimal rounds up. -/
theorem scaled_two_lt_iff {x : ℚ} (h : 0 ≤ x) : scaled 2 x < 10000 ↔ x < 99.995 := by
  have hfloor := Int.floor_le (x * 10 ^ 2)
  have hnext := Int.lt_floor_add_one (x * 10 ^ 2)
  have hscale : scaled 2 x < 10000 ↔ roundHalfEven (x * 10 ^ 2) < 10000 := by
    unfold scaled
    rw [abs_of_nonneg h]
    omega
  rw [hscale]
  generalize hn : ⌊x * 10 ^ 2⌋ = n at hfloor hnext
  have hround : roundHalfEven (x * 10 ^ 2) = if x * 10 ^ 2 - n < 1 / 2 then n
      else if 1 / 2 < x * 10 ^ 2 - n then n + 1 else if n % 2 = 0 then n else n + 1 := by
    unfold roundHalfEven
    rw [hn]
  rw [hround]
  rcases lt_trichotomy n 9999 with hless | rfl | hmore
  · have hbound : (n : ℚ) + 1 ≤ 9999 := by exact_mod_cast hless
    refine iff_of_true ?_ (by linarith)
    split_ifs <;> omega
  · by_cases hhalf : x * 10 ^ 2 - (9999 : ℤ) < 1 / 2
    · rw [if_pos hhalf]
      push_cast at hhalf
      exact iff_of_true (by decide) (by linarith)
    · rw [if_neg hhalf]
      push_cast at hhalf
      refine iff_of_false ?_ (by linarith)
      split_ifs <;> omega
  · have hbound : (10000 : ℚ) ≤ n := by exact_mod_cast hmore
    refine iff_of_false ?_ (by linarith)
    split_ifs <;> omega

/-- The text of a number of bytes. -/
def amountText (amount : ℚ) : Text := (unitSnprintf (.finite amount) 'A').getD []

/-- The text of a rate with `-f m`. -/
def megabitText (rate : Dbl) : Text := (unitSnprintf rate 'm').getD []

/-- What a bandwidth line is printed from. -/
structure RateFields where
  tag : Text
  start : ℚ
  finish : ℚ
  amount : ℚ
  rate : Dbl
  rest : Text

namespace RateFields

/-- The line, without a text when the amount has no unit. -/
def printed (f : RateFields) : Option Text :=
  bandwidthLine f.tag f.start f.finish (unitSnprintf (.finite f.amount) 'A')
    (unitSnprintf f.rate 'm') f.rest

/-- Its text. -/
def text (f : RateFields) : Text :=
  reportHead f.tag f.start f.finish (amountText f.amount) (megabitText f.rate) ++ f.rest

/-- The interval that it reports. -/
def interval (f : RateFields) (isDown : Bool) : CmdCallback :=
  .onInterval (shown f.start) (shown f.finish) (unpadded (amountText f.amount) ++ ['s'])
    (unpadded (megabitText f.rate) ++ lit "s/sec") isDown

/-- The result that it reports. -/
def result (f : RateFields) (isDown : Bool) : CmdCallback :=
  .onResult (shown f.start) (shown f.finish) (unpadded (amountText f.amount) ++ ['s'])
    (unpadded (megabitText f.rate) ++ lit "s/sec") isDown

/-- What the parser makes of it. -/
def answer (f : RateFields) (cmd : Iperf3Cmd) : List Answer :=
  if scaled 2 f.finish < 10000 ∧ isNumber f.rate = true then
    (classify cmd (String.ofList f.text) (readStart f.start) (shown f.finish)
      (unpadded (amountText f.amount) ++ ['s'])
      (unpadded (megabitText f.rate) ++ lit "s/sec")).map (Prod.mk f.text)
  else []

end RateFields

/-- The letters behind a rate. -/
def restLetters : List Char := lit "msender(omitted)%/infaKMGByterciv"

/-- Fields as the reports have them. -/
structure Formed (f : RateFields) : Prop where
  tag_spelled : Spelled headLetters f.tag
  tag_dash : '-' ∉ f.tag
  start_nonneg : 0 ≤ f.start
  finish_nonneg : 0 ≤ f.finish
  amount_nonneg : 0 ≤ f.amount
  rate_spec : f.amount < 1024 ^ 4 → Rate f.rate
  rest_spelled : Spelled restLetters f.rest

/-- A rate under `-f m` is always printed, as a number or as the text of a value that is none. -/
theorem megabitText_eq (rate : Dbl) : unitSnprintf rate 'm' = some (megabitText rate) := by
  obtain ⟨number, hnumber, -⟩ := rateText_some rate
  unfold megabitText
  rw [hnumber]
  rfl

/-- An amount below a tebibyte is printed with a unit of the tables. -/
theorem amountText_eq {amount : ℚ} (h : amount < 1024 ^ 4) :
    unitSnprintf (.finite amount) 'A' = some (amountText amount) := by
  obtain ⟨text, htext⟩ := Option.isSome_iff_exists.mp (byteText_isSome_iff.mpr h)
  unfold amountText
  rw [htext]
  rfl

/-- A rate line is printed exactly when its amount is below a tebibyte. -/
theorem printed_eq (f : RateFields) :
    f.printed = if f.amount < 1024 ^ 4 then some f.text else none := by
  unfold RateFields.printed RateFields.text bandwidthLine
  rw [megabitText_eq]
  split
  · rename_i h
    rw [amountText_eq h]
    rfl
  · rename_i h
    have hnone : unitSnprintf (.finite f.amount) 'A' = none := by
      rw [← Option.not_isSome_iff_eq_none, byteText_isSome_iff]
      exact h
    rw [hnone]
    rfl

/-- A line has letters of its beginning and of its rest only. -/
theorem spelled_text {f : RateFields} (hf : Formed f) (h : f.amount < 1024 ^ 4) :
    Spelled (headLetters ++ restLetters) f.text := by
  have hhead := @spelled_reportHead f.tag _ _ f.start f.finish _ _ hf.tag_spelled (amountText_eq h)
    (megabitText_eq f.rate)
  exact (hhead.mono (by decide)).append (hf.rest_spelled.mono (by decide))

/-- A well formed rate line gives its answer exactly when its amount is below a tebibyte, as
larger ones have a unit that the pattern does not know. -/
theorem collects_rate {f : RateFields} (hf : Formed f) (cmd : Iperf3Cmd) :
    Collects cmd [.line f.printed] (f.amount < 1024 ^ 4) (f.answer cmd) := by
  intro x
  rw [printed_eq]
  by_cases h : f.amount < 1024 ^ 4
  · have hspelled := spelled_text hf h
    have hline : RateLine f.tag f.start f.finish f.amount f.rate (amountText f.amount)
        (megabitText f.rate) f.rest :=
      { tag_dash := hf.tag_dash
        start_nonneg := hf.start_nonneg
        finish_nonneg := hf.finish_nonneg
        amount_nonneg := hf.amount_nonneg
        rate_spec := hf.rate_spec h
        ubuf_eq := amountText_eq h
        nbuf_eq := megabitText_eq f.rate
        rest_unit := hf.rest_spelled.not_mem (by decide) }
    have hcalls := reportCalls_line hline cmd
    have htitle := countTitle_plain (hspelled.not_mem (by decide : _ = false)) cmd
    have hreports : lineReports cmd f.text = some (if scaled 2 f.finish < 10000 ∧
        isNumber f.rate = true then classify cmd (String.ofList f.text) (readStart f.start)
          (shown f.finish) (unpadded (amountText f.amount) ++ ['s'])
          (unpadded (megabitText f.rate) ++ lit "s/sec") else []) := by
      refine lineReports_plain (hspelled.not_mem (by decide)) ?_
      rw [htitle]
      exact hcalls
    rw [if_pos h, collect_line (hspelled.not_mem (by decide)) (hspelled.not_mem (by decide)),
      hreports]
    unfold RateFields.answer
    rw [Option.map_some, Option.some_inj, apply_ite (List.map (Prod.mk f.text)), List.map_nil]
    simp only [h, true_and, eq_comm]
  · rw [if_neg h]
    simp [collect, printed, h]

/-- A line without the capital letter of the titles is no title. -/
theorem untitled_line {text : Text} (hn : '\n' ∉ text) (hr : '\r' ∉ text) (hI : 'I' ∉ text) :
    Untitled [.line (some text)] := by
  intro lines hlines line hline
  simp only [printed, Option.bind_some, Option.map_some, List.append_nil] at hlines
  rw [textLines_plain hn hr] at hlines
  cases hlines
  rw [List.mem_singleton.mp hline]
  exact Pattern.occurs_of_not_mem (by decide) hI

/-- A line without that letter and without the letters of a unit and of the parser's words says
nothing. -/
theorem mute_line {text : Text} (hn : '\n' ∉ text) (hr : '\r' ∉ text) (hI : 'I' ∉ text)
    (hp : 'p' ∉ text) (hB : 'B' ∉ text) : Mute [.line (some text)] :=
  ⟨untitled_line hn hr hI, fun cmd => collects_silent cmd hn hr hp hB⟩

/-- A line spelled with other letters says nothing. -/
theorem mute_spelled {extra : List Char} {text : Text} (h : Spelled extra text)
    (hletters : ∀ c ∈ lit "\n\rIpB", allowed extra c = false) : Mute [.line (some text)] :=
  mute_line (h.not_mem (hletters _ (by decide))) (h.not_mem (hletters _ (by decide)))
    (h.not_mem (hletters _ (by decide))) (h.not_mem (hletters _ (by decide)))
    (h.not_mem (hletters _ (by decide)))

/-- A rate line is no title, whatever its tag and its figures are. -/
theorem untitled_rate {f : RateFields} (hf : Formed f) : Untitled [.line f.printed] := by
  rw [printed_eq]
  by_cases h : f.amount < 1024 ^ 4
  · have hspelled := spelled_text hf h
    rw [if_pos h]
    exact untitled_line (hspelled.not_mem (by decide)) (hspelled.not_mem (by decide))
      (hspelled.not_mem (by decide))
  · rw [if_neg h]
    intro lines hlines
    cases hlines

/-- Between titles a line that counts is an interval. -/
theorem answer_interval_iff {f : RateFields} (hf : Formed f) {cmd : Iperf3Cmd}
    (hcounts : forStreams cmd (String.ofList f.text) = true) :
    f.answer cmd = [(f.text, f.interval cmd.isDown)] ↔
      cmd.titleCnt = 1 ∧ f.start < 99.995 ∧ f.finish < 99.995 ∧ isNumber f.rate = true := by
  rw [← scaled_two_lt_iff hf.start_nonneg, ← scaled_two_lt_iff hf.finish_nonneg,
    ← readStart_eq_iff]
  unfold RateFields.answer RateFields.interval classify
  rw [isInterval_eq, hcounts, Bool.and_true]
  split
  · rename_i hshown
    split
    · rename_i htitle
      simp [hshown, beq_iff_eq.mp htitle]
    · rename_i htitle
      have hne : cmd.titleCnt ≠ 1 := fun h => htitle (by rw [h]; rfl)
      split
      · simp [hne]
      · simp [hne]
  · rename_i hshown
    simp only [List.nil_eq, List.cons_ne_nil, false_iff]
    rintro ⟨-, -, hfinish, hnumber⟩
    exact hshown ⟨hfinish, hnumber⟩

/-- Behind the second title a line that counts is a result by its end or its losses. -/
theorem answer_result_iff {f : RateFields} (hf : Formed f) {cmd : Iperf3Cmd}
    (hcmd : cmd.titleCnt = 2) (hcounts : forStreams cmd (String.ofList f.text) = true) :
    f.answer cmd = [(f.text, f.result cmd.isDown)] ↔
      (namesLocal cmd (String.ofList f.text) || udpLoss.occurs f.text) = true ∧
        f.start < 99.995 ∧ f.finish < 99.995 ∧ isNumber f.rate = true := by
  rw [← scaled_two_lt_iff hf.start_nonneg, ← scaled_two_lt_iff hf.finish_nonneg,
    ← readStart_eq_iff]
  unfold RateFields.answer RateFields.result classify
  rw [isInterval_eq, isResult_eq, hcounts, hcmd, Bool.and_true, Bool.and_true, String.toList_ofList]
  split
  · rename_i hshown
    cases namesLocal cmd (String.ofList f.text) || udpLoss.occurs f.text with
    | true => simp [hshown]
    | false => simp
  · rename_i hshown
    simp only [List.nil_eq, List.cons_ne_nil, false_iff]
    rintro ⟨-, -, hfinish, hnumber⟩
    exact hshown ⟨hfinish, hnumber⟩

/-- A line that does not count is not answered. -/
theorem answer_skipped {f : RateFields} {cmd : Iperf3Cmd}
    (h : forStreams cmd (String.ofList f.text) = false) : f.answer cmd = [] := by
  unfold RateFields.answer classify
  rw [isInterval_eq, isResult_eq, h, Bool.and_false, Bool.and_false]
  simp

/-- Nor is one behind the second title that belongs to the other end. -/
theorem answer_other {f : RateFields} {cmd : Iperf3Cmd} (hcmd : cmd.titleCnt = 2)
    (h : (namesLocal cmd (String.ofList f.text) || udpLoss.occurs f.text) = false) :
    f.answer cmd = [] := by
  unfold RateFields.answer classify
  rw [isInterval_eq, isResult_eq, hcmd, String.toList_ofList, h]
  simp

/-- Letters of a line before its rest tell nothing about the ends. -/
theorem not_mem_text {f : RateFields} (hf : Formed f) (h : f.amount < 1024 ^ 4) {c : Char}
    (hhead : allowed headLetters c = false) (hrest : c ∉ f.rest) : c ∉ f.text := by
  have hspelled := @spelled_reportHead f.tag _ _ f.start f.finish _ _ hf.tag_spelled
    (amountText_eq h) (megabitText_eq f.rate)
  intro hc
  rcases List.mem_append.mp hc with hleft | hright
  · exact hspelled.not_mem hhead hleft
  · exact hrest hright

/-- What ends the rest of a line stands in the line. -/
theorem contains_rest {f : RateFields} {before : Text} {name : String}
    (hrest : f.rest = before ++ lit name) : containsText (String.ofList f.text) name = true := by
  have htext := containsText_append (reportHead f.tag f.start f.finish (amountText f.amount)
    (megabitText f.rate) ++ before) (lit name) [] name rfl
  unfold RateFields.text
  rw [hrest]
  rw [List.append_nil, List.append_assoc] at htext
  exact htext

/-- A line of the sending end. -/
theorem sender_named {f : RateFields} (hf : Formed f) (h : f.amount < 1024 ^ 4) {before : Text}
    (hrest : f.rest = before ++ lit "sender") (hv : 'v' ∉ before) (hpercent : '%' ∉ before)
    (cmd : Iperf3Cmd) :
    (namesLocal cmd (String.ofList f.text) || udpLoss.occurs f.text) = !cmd.isDown := by
  have hletter : 'v' ∉ f.text := by
    refine not_mem_text hf h (by decide) ?_
    rw [hrest]
    simp [hv, lit]
  have hloss : '%' ∉ f.text := by
    refine not_mem_text hf h (by decide) ?_
    rw [hrest]
    simp [hpercent, lit]
  have hother : containsText (String.ofList f.text) "receiver" = false :=
    containsText_absent (by decide) hletter
  have hown := contains_rest hrest
  have hnone : udpLoss.occurs f.text = false := Pattern.occurs_of_not_mem (by decide) hloss
  unfold namesLocal
  rw [hother, hown, hnone]
  simp

/-- A line of the receiving one. -/
theorem receiver_named {f : RateFields} (hf : Formed f) (h : f.amount < 1024 ^ 4) {before : Text}
    (hrest : f.rest = before ++ lit "receiver") (hd : 'd' ∉ before) (hpercent : '%' ∉ before)
    (cmd : Iperf3Cmd) :
    (namesLocal cmd (String.ofList f.text) || udpLoss.occurs f.text) = cmd.isDown := by
  have hletter : 'd' ∉ f.text := by
    refine not_mem_text hf h (by decide) ?_
    rw [hrest]
    simp [hd, lit]
  have hloss : '%' ∉ f.text := by
    refine not_mem_text hf h (by decide) ?_
    rw [hrest]
    simp [hpercent, lit]
  have hother : containsText (String.ofList f.text) "sender" = false :=
    containsText_absent (by decide) hletter
  have hown := contains_rest hrest
  have hnone : udpLoss.occurs f.text = false := Pattern.occurs_of_not_mem (by decide) hloss
  unfold namesLocal
  rw [hother, hown, hnone]
  simp

/-- The letters of a number are none of the ends. -/
theorem letter_not_mem {text : Text} (h : ∀ c ∈ text, numeral c = true) {c : Char}
    (hc : numeral c = false) : c ∉ text := by
  intro hmem
  rw [h c hmem] at hc
  cases hc

/-- The datagram figures at the end of a line hold digits, blanks and the letters of their own words
only. -/
theorem letter_not_mem_udpRest {c : Char} (hc : numeral c = false) (hblank : c ≠ ' ')
    (hword : c ∉ lit "ms/(%)") (jitterMs : ℚ) (lost total : ℤ) (lostPercent : ℚ) :
    c ∉ udpRest jitterMs lost total lostPercent [] := by
  have hjitter := not_mem_padLeft hblank (not_mem_fixedText hc 3 jitterMs) 5
  have hlost := letter_not_mem (numeral_intText lost) hc
  have htotal := letter_not_mem (numeral_intText total) hc
  have hpercent := letter_not_mem (numeral_generalText lostPercent) hc
  have hwords : c ≠ 'm' ∧ c ≠ 's' ∧ c ≠ '/' ∧ c ≠ '(' ∧ c ≠ '%' ∧ c ≠ ')' := by
    simpa [lit] using hword
  unfold udpRest
  simp [lit, hjitter, hlost, htotal, hpercent, hwords, hblank]

/-- A line about datagrams names an end only through its losses, which are there unless the
total is negative. -/
theorem datagrams_named {f : RateFields} (hf : Formed f) (h : f.amount < 1024 ^ 4)
    {jitterMs lostPercent : ℚ} {lost total : ℤ}
    (hrest : f.rest = udpRest jitterMs lost total lostPercent []) (htag : '/' ∉ f.tag)
    (cmd : Iperf3Cmd) :
    (namesLocal cmd (String.ofList f.text) || udpLoss.occurs f.text) = decide (0 ≤ total) := by
  have hletters : ∀ c : Char, numeral c = false → c ≠ ' ' → c ∉ lit "ms/(%)" →
      allowed headLetters c = false → c ∉ f.text := by
    intro c hc hblank hword hhead
    refine not_mem_text hf h hhead ?_
    rw [hrest]
    exact letter_not_mem_udpRest hc hblank hword _ _ _ _
  have hnamed : namesLocal cmd (String.ofList f.text) = false :=
    namesLocal_absent (hletters 'd' (by decide) (by decide) (by decide) (by decide))
      (hletters 'v' (by decide) (by decide) (by decide) (by decide)) cmd
  rw [hnamed, Bool.false_or]
  unfold RateFields.text
  rw [hrest]
  by_cases htotal : 0 ≤ total
  · rw [decide_eq_true htotal]
    exact udpLoss_found _ _ _ htotal _ _
  · rw [decide_eq_false htotal]
    have hbyte := spelled_byteText (amountText_eq h)
    have hbit := spelled_rateText (megabitText_eq f.rate)
    have hfirst : '/' ∉ padLeft 6 (fixedText 2 f.start) :=
      not_mem_padLeft (by decide) (not_mem_fixedText (by decide) 2 f.start) 6
    have hsecond : '/' ∉ padRight 6 (fixedText 2 f.finish) :=
      not_mem_padRight (by decide) (not_mem_fixedText (by decide) 2 f.finish) 6
    have hamount : '/' ∉ amountText f.amount := hbyte.not_mem (by decide)
    have hrate : '/' ∉ megabitText f.rate := hbit.not_mem (by decide)
    have habsent := @udpLoss_absent ('[' :: f.tag ++ lit "] " ++ padLeft 6 (fixedText 2 f.start) ++
      '-' :: padRight 6 (fixedText 2 f.finish) ++ lit " sec  " ++
        amountText f.amount ++ lit "s  " ++ megabitText f.rate ++ ['s']) (lit "ec")
      (by simp [lit, htag, hfirst, hsecond, hamount, hrate])
      (by decide) jitterMs lost total (not_le.mp htotal) lostPercent
    have hline : reportHead f.tag f.start f.finish (amountText f.amount) (megabitText f.rate) ++
        udpRest jitterMs lost total lostPercent [] =
        ('[' :: f.tag ++ lit "] " ++ padLeft 6 (fixedText 2 f.start) ++
          '-' :: padRight 6 (fixedText 2 f.finish) ++ lit " sec  " ++ amountText f.amount ++
          lit "s  " ++ megabitText f.rate ++ ['s']) ++
          '/' :: ('s' :: lit "ec" ++ udpRest jitterMs lost total lostPercent []) := by
      simp [reportHead, lit]
    rw [hline]
    exact habsent

end IperfRuntime.PrintedReports
