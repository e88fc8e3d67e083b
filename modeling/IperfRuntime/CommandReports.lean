import IperfRuntime.CommandHistory
import IperfRuntime.SummaryAnswers

/-!
# The reports of a run under the command parser

Which runs are reported as they were printed: one `onInterval` for each interval report and
one `onResult` for the summary, with the values of the line of this end. Commands that ask
for another unit, a title, JSON or the server's output, and runs that are broken off before
they end, are outside the condition. How the process output is cut into reads is not
modelled: the parser is given whole lines.
-/

namespace IperfRuntime.CommandReports

open ClockReading TestState PrintfText PrintedNumbers ReportOutput CommandParser ReportLines
  RateLines PrintedReports IntervalAnswers SummaryAnswers ArgumentWords CommandHistory
  EntryPointLimits

/-- The outputs of a run, block after block: the interval reports with that of the end, and
the summary. -/
def blocks (env : ReportEnv) (during : List IperfTest) (final : IperfTest) : List (List Output) :=
  (during ++ [final]).map iperfPrintIntermediate ++ [iperfPrintResults env final]

/-- They are what the calls of `iperf_reporter_callback` put out. -/
theorem blocks_flatten {env : ReportEnv} {during : List IperfTest} {final : IperfTest}
    (hduring : ∀ test ∈ during, test.state = .testRunning)
    (hfinal : final.state = .displayResults) :
    (blocks env during final).flatten =
      (during ++ [final]).flatMap (iperfReporterCallback env) := by
  have hreports : ∀ tests : List IperfTest, (∀ test ∈ tests, test.state = .testRunning) →
      (tests.map iperfPrintIntermediate).flatten = tests.flatMap (iperfReporterCallback env) := by
    intro tests h
    induction tests with
    | nil => rfl
    | cons test tests ih =>
      have htest : iperfReporterCallback env test = iperfPrintIntermediate test := by
        unfold iperfReporterCallback
        rw [h test List.mem_cons_self]
      rw [List.map_cons, List.flatten_cons, List.flatMap_cons, htest,
        ih fun t ht => h t (List.mem_cons_of_mem _ ht)]
  have hlast : iperfReporterCallback env final =
      iperfPrintIntermediate final ++ iperfPrintResults env final := by
    unfold iperfReporterCallback
    rw [hfinal]
  unfold blocks
  rw [List.map_append, List.flatten_append, List.flatten_append, List.flatMap_append,
    hreports during hduring]
  simp [hlast]

/-- What is to be reported for a run. -/
def expected (env : ReportEnv) (during : List IperfTest) (final : IperfTest) :
    List (List Answer) :=
  (during ++ [final]).map (fun test => [intervalAnswer test]) ++ [[resultAnswer env final]]

/-- The `-F` file's line says nothing to the parser: its size has a unit and its name holds no
report. -/
structure QuietFile (env : ReportEnv) (test : IperfTest) (sp : IperfStream) : Prop where
  size : ∀ size, 0 ≤ sp.diskfileFd → env.fstat sp.diskfileFd = some size →
    (size : ℚ) < 1024 ^ 4
  lines : ∀ lines, printed (diskfileSummary env test sp) = some lines →
    ∀ line ∈ lines, lineReports ⟨test.numStreams, test.reverse, 2⟩ line = some []

/-- A summary whose line of this end can be read back. -/
structure SummaryShown (env : ReportEnv) (test : IperfTest) : Prop where
  totals : TotalsFit test
  finish : endTimeOf env test < 99.995
  rate : test.numStreams = 1 → endTimeOf env test ≠ 0
  datagrams : isTcp test = false → 0 ≤ (test.streams.map packetsOf).sum
  files : ∀ sp ∈ test.streams, QuietFile env test sp

/-- A run whose reports can be read back: one title before the summary, and every line of
this end with times below a hundred seconds, an amount below 1024⁴ bytes and a rate. -/
structure Reportable (env : ReportEnv) (during : List IperfTest) (final : IperfTest) : Prop where
  opens : ∀ test ∈ (during ++ [final]).head?, opens test = true
  goesOn : ∀ test ∈ (during ++ [final]).tail, IntervalAnswers.opens test = false
  intervals : ∀ test ∈ during ++ [final], IntervalShown test
  summary : SummaryShown env final

/-- Nothing is collected exactly if no line reports anything. -/
theorem collectLines_nil_iff {cmd : Iperf3Cmd} {lines : List Text} :
    collectLines cmd lines = some [] ↔ ∀ line ∈ lines, lineReports cmd line = some [] := by
  induction lines with
  | nil => simp [collectLines]
  | cons line lines ih =>
    unfold collectLines
    rw [List.forall_mem_cons, ← ih]
    cases lineReports cmd line with
    | none => simp
    | some calls =>
      cases collectLines cmd lines with
      | none => simp
      | some answers => simp

/-- An answer is given to a line that leads to its call. -/
theorem mem_collectLines {cmd : Iperf3Cmd} {lines : List Text} {answers : List Answer}
    (h : collectLines cmd lines = some answers) {answer : Answer} (hmem : answer ∈ answers) :
    ∃ calls, lineReports cmd answer.1 = some calls ∧ answer.2 ∈ calls := by
  induction lines generalizing answers with
  | nil =>
    cases h
    cases hmem
  | cons line lines ih =>
    unfold collectLines at h
    obtain ⟨calls, hcalls, hrest⟩ := Option.bind_eq_some_iff.mp h
    obtain ⟨later, hlater, rfl⟩ := Option.map_eq_some_iff.mp hrest
    rcases List.mem_append.mp hmem with hfirst | hlast
    · obtain ⟨call, hcall, rfl⟩ := List.mem_map.mp hfirst
      exact ⟨calls, hcalls, hcall⟩
    · exact ih hlater hlast

/-- The summary of a file is not collected exactly if it is quiet. Its name stands in the
line, and a name may look like a report. -/
theorem quietFile_iff {env : ReportEnv} {test : IperfTest} {sp : IperfStream}
    (hsent : (sentOf sp : ℚ) < 1024 ^ 4) :
    collect ⟨test.numStreams, test.reverse, 2⟩ (diskfileSummary env test sp) = some [] ↔
      QuietFile env test sp := by
  have hquiet : ∀ lines, printed (diskfileSummary env test sp) = some lines →
      (collect ⟨test.numStreams, test.reverse, 2⟩ (diskfileSummary env test sp) = some [] ↔
        ∀ line ∈ lines, lineReports ⟨test.numStreams, test.reverse, 2⟩ line = some []) := by
    intro lines hlines
    unfold collect
    rw [hlines]
    exact collectLines_nil_iff
  have hsize : (printed (diskfileSummary env test sp)).isSome = true ↔
      ∀ size, 0 ≤ sp.diskfileFd → env.fstat sp.diskfileFd = some size → (size : ℚ) < 1024 ^ 4 := by
    unfold diskfileSummary
    by_cases hfd : sp.diskfileFd < 0
    · rw [if_pos hfd]
      simp only [printed, Option.isSome_some, true_iff]
      intro size hsize
      omega
    · rw [if_neg hfd]
      cases hstat : env.fstat sp.diskfileFd with
      | none => simp [printed]
      | some size =>
        have hunit := @byteText_isSome_iff size
        simp only [printed, reportDiskfile, amountText_eq hsent, Option.bind_some]
        cases htext : unitSnprintf (.finite size) 'A' with
        | none =>
          rw [htext] at hunit
          simp only [Option.map_none, Option.bind_none, Option.isSome_none, Bool.false_eq_true,
            false_iff, not_forall]
          refine ⟨size, not_lt.mp hfd, rfl, fun h => ?_⟩
          cases hunit.mpr h
        | some text =>
          rw [htext] at hunit
          simp only [Option.map_some, Option.bind_some, Option.isSome_some, true_iff]
          intro other _ hother
          cases hother
          exact hunit.mp rfl
  constructor
  · intro h
    cases hlines : printed (diskfileSummary env test sp) with
    | none =>
      unfold collect at h
      rw [hlines] at h
      cases h
    | some lines =>
      refine ⟨hsize.mp (by rw [hlines]; rfl), ?_⟩
      intro other hother
      rw [hlines] at hother
      cases hother
      exact (hquiet lines hlines).mp h
  · intro h
    obtain ⟨lines, hlines⟩ := Option.isSome_iff_exists.mp (hsize.mpr h.size)
    exact (hquiet lines hlines).mpr (h.lines lines hlines)

section Summary

variable {n : ℤ} {isDown : Bool} {test : IperfTest} {env : ReportEnv}

/-- The separator and the second title are passed over and leave the parser behind both
titles, where summaries are looked for. -/
theorem summaryHeader_fed (test : IperfTest) (cmd : Iperf3Cmd) :
    feedOutputs (summaryHeader test) cmd =
      some ([], { cmd with titleCnt := cmd.titleCnt + 1 }) := by
  have hseparator : Mute [.line (some reportBwSeparator)] :=
    mute_line (by decide) (by decide) (by decide) (by decide) (by decide)
  have hsummary : feedOutputs (if test.verbose then [.line (some reportSummary)] else []) cmd =
      some ([], cmd) := by
    cases test.verbose with
    | false => rfl
    | true =>
      have hreports : lineReports cmd reportSummary = some [] := by
        refine lineReports_eq (by decide +kernel) (by decide +kernel) ?_
        exact reportCalls_none _ (by decide +kernel)
      have htitle : countTitle (String.ofList reportSummary) cmd = cmd :=
        countTitle_plain (by decide) cmd
      have hlines : textLines reportSummary = [reportSummary] :=
        textLines_plain (by decide) (by decide)
      simp only [if_true, feedOutputs, printed, Option.bind_some, Option.map_some,
        List.append_nil, hlines, feed, hreports, htitle, List.map_nil]
  have hfirst : feedOutputs [.line (some reportBwSeparator)] cmd = some ([], cmd) := by
    rw [feedOutputs_untitled hseparator.1, (hseparator.2 cmd []).mpr ⟨trivial, rfl⟩]
    rfl
  unfold summaryHeader
  rw [feedOutputs_append, feedOutputs_append, hfirst, Option.bind_some, hsummary, Option.map_some,
    Option.bind_some]
  refine (congrArg (Option.map _) (header_line_fed ?_ cmd)).trans rfl
  split
  · split
    · simp [headers]
    · simp [headers]
  · simp [headers]

/-- Without the server's output nothing of the footer is collected. -/
theorem mute_summaryFooter (hserver : test.getServerOutput = false) :
    Mute (summaryFooter test) := by
  unfold summaryFooter
  refine Mute.append ?_ ?_
  · split
    · exact mute_cpu _ _ _
    · exact mute_nil
  · rw [if_neg (by rw [hserver]; simp)]
    exact mute_nil

/-- The rate of the whole test is a number unless a single stream had no time. -/
theorem isNumber_resultRate : isNumber (resultRate env test) = true ↔
    (test.numStreams = 1 → endTimeOf env test ≠ 0) := by
  unfold resultRate
  split
  · rename_i hone
    rw [isNumber_ratio]
    simp [hone]
  · rename_i hmany
    split
    · rename_i hpos
      rw [isNumber_ratio]
      simp [hmany, ne_of_gt hpos]
    · simp [hmany, isNumber]

/-- Zero is shown as zero. -/
theorem shown_zero : shown 0 = 0 := by
  unfold shown scaled roundHalfEven
  norm_num

/-- The line of this end is answered as it should be. -/
theorem localLine_answered {f : RateFields} (hf : LocalLine env test f) (hfits : TotalsFit test) :
    f.answer ⟨test.numStreams, test.reverse, 2⟩ = [resultAnswer env test] ↔
      (isTcp test = false → 0 ≤ (test.streams.map packetsOf).sum) ∧
        endTimeOf env test < 99.995 ∧ (test.numStreams = 1 → endTimeOf env test ≠ 0) := by
  have hpair : resultAnswer env test = (f.text, f.result test.reverse) := by
    unfold RateFields.result
    rw [hf.start, hf.finish, hf.amount, hf.rate, shown_zero, hf.text hfits]
    rfl
  have hstart : f.start < 99.995 := by
    rw [hf.start]
    norm_num
  have hiff := @answer_result_iff f hf.formed ⟨test.numStreams, test.reverse, 2⟩ rfl hf.counts
  rw [hf.named hfits, hf.finish, hf.rate, isNumber_resultRate] at hiff
  rw [hpair, hiff]
  cases isTcp test with
  | false => simp [hstart]
  | true => simp [hstart]

/-- A line that is answered once more leaves no room for its own answer, on whichever side of
the others it stands. -/
theorem alone {α : Type} {a : α} {own others : List α} (hmem : a ∈ others → own ≠ [])
    {v : List α} (hv : v = own ++ others ∨ v = others ++ own) :
    [a] = v ↔ own = [a] ∧ others = [] := by
  constructor
  · intro h
    have hlength : own.length + others.length = 1 := by
      have hone := congrArg List.length h
      rcases hv with rfl | rfl
      · simpa using hone.symm
      · simpa [Nat.add_comm] using hone.symm
    have hothers : others = [] := by
      by_contra hne
      have hpos := List.length_pos_of_ne_nil hne
      have hown : own = [] := List.length_eq_zero_iff.mp (by omega)
      refine hmem ?_ hown
      rcases hv with rfl | rfl
      · rw [hown, List.nil_append] at h
        rw [← h]
        exact List.mem_singleton_self a
      · rw [hown, List.append_nil] at h
        rw [← h]
        exact List.mem_singleton_self a
    refine ⟨?_, hothers⟩
    rcases hv with rfl | rfl
    · rw [hothers, List.append_nil] at h
      exact h.symm
    · rw [hothers, List.nil_append] at h
      exact h.symm
  · rintro ⟨hown, hothers⟩
    rcases hv with rfl | rfl
    · rw [hown, hothers]
      rfl
    · rw [hown, hothers]
      rfl

/-- The lines of the summary are answered with the line of this end and with what the lines of
the files lead to, in one order or the other. -/
theorem result_collects {n : ℤ} {isDown : Bool} (hr : Reported n isDown test) (hn : 1 ≤ n) :
    ∃ f, LocalLine env test f ∧ ∃ v,
      (v = f.answer ⟨test.numStreams, test.reverse, 2⟩ ++
          test.streams.flatMap (fileAnswers env test ⟨test.numStreams, test.reverse, 2⟩) ∨
        v = test.streams.flatMap (fileAnswers env test ⟨test.numStreams, test.reverse, 2⟩) ++
          f.answer ⟨test.numStreams, test.reverse, 2⟩) ∧
      Collects ⟨test.numStreams, test.reverse, 2⟩ (resultOutputs env test)
        (TotalsFit test ∧ ∀ sp ∈ test.streams,
          (collect ⟨test.numStreams, test.reverse, 2⟩ (diskfileSummary env test sp)).isSome = true)
        v := by
  by_cases hone : test.numStreams = 1
  · exact result_single hr hone
  · have hmany : 1 < test.numStreams := by
      rw [hr.numStreams] at hone ⊢
      omega
    obtain ⟨f, hf, hcollects⟩ := @result_several n isDown test env hr hmany
    exact ⟨f, hf, _, Or.inr rfl, hcollects⟩

/-- Where the line of a file leads to the answer of this end, that end's own line leads to one,
as both hold the same text. -/
theorem answer_ne_nil {f : RateFields} (hf : LocalLine env test f) (hfits : TotalsFit test)
    (hin : resultAnswer env test ∈ test.streams.flatMap
      (fileAnswers env test ⟨test.numStreams, test.reverse, 2⟩)) :
    f.answer ⟨test.numStreams, test.reverse, 2⟩ ≠ [] := by
  obtain ⟨sp, -, hsp⟩ := List.mem_flatMap.mp hin
  unfold fileAnswers at hsp
  cases hfile : collect ⟨test.numStreams, test.reverse, 2⟩ (diskfileSummary env test sp) with
  | none =>
    rw [hfile] at hsp
    cases hsp
  | some answers =>
    rw [hfile] at hsp
    unfold collect at hfile
    obtain ⟨lines, -, hlines⟩ := Option.bind_eq_some_iff.mp hfile
    obtain ⟨calls, hcalls, hcall⟩ := mem_collectLines hlines hsp
    have hamount := hf.amount_lt hfits
    have hown := (collects_rate hf.formed ⟨test.numStreams, test.reverse, 2⟩ _).mpr
      ⟨hamount, rfl⟩
    have hspelled := spelled_text hf.formed hamount
    rw [printed_eq, if_pos hamount, collect_line (hspelled.not_mem (by decide))
      (hspelled.not_mem (by decide)), hf.text hfits, hcalls, Option.map_some] at hown
    intro hnil
    rw [hnil] at hown
    have hempty : calls = [] := List.map_eq_nil_iff.mp (Option.some.inj hown)
    rw [hempty] at hcall
    cases hcall

/-- The lines of the files lead to nothing exactly if each of the files is quiet. -/
theorem fileAnswers_nil_iff (hsent : ∀ sp ∈ test.streams, (sentOf sp : ℚ) < 1024 ^ 4) :
    ((∀ sp ∈ test.streams, (collect ⟨test.numStreams, test.reverse, 2⟩
        (diskfileSummary env test sp)).isSome = true) ∧
      test.streams.flatMap (fileAnswers env test ⟨test.numStreams, test.reverse, 2⟩) = []) ↔
        ∀ sp ∈ test.streams, QuietFile env test sp := by
  rw [List.flatMap_eq_nil_iff]
  constructor
  · rintro ⟨hsome, hnil⟩ sp hsp
    rw [← quietFile_iff (hsent sp hsp)]
    obtain ⟨answers, hanswers⟩ := Option.isSome_iff_exists.mp (hsome sp hsp)
    have hempty := hnil sp hsp
    unfold fileAnswers at hempty
    rw [hanswers] at hempty ⊢
    exact congrArg some hempty
  · intro hquiet
    have hcollect : ∀ sp ∈ test.streams, collect ⟨test.numStreams, test.reverse, 2⟩
        (diskfileSummary env test sp) = some [] :=
      fun sp hsp => (quietFile_iff (hsent sp hsp)).mpr (hquiet sp hsp)
    refine ⟨fun sp hsp => by rw [hcollect sp hsp]; rfl, fun sp hsp => ?_⟩
    unfold fileAnswers
    rw [hcollect sp hsp]
    rfl

/-- The summary's lines between its title and its end are answered with the one line of this
end exactly if that line can be read and no other is taken for it. -/
theorem resultOutputs_answered {n : ℤ} {isDown : Bool} (hr : Reported n isDown test) (hn : 1 ≤ n) :
    collect ⟨test.numStreams, test.reverse, 2⟩ (resultOutputs env test) =
      some [resultAnswer env test] ↔ SummaryShown env test := by
  obtain ⟨f, hf, v, hv, hcollects⟩ := @result_collects test env n isDown hr hn
  rw [hcollects]
  constructor
  · rintro ⟨⟨hfits, hsome⟩, hanswers⟩
    obtain ⟨hown, hothers⟩ := (alone (answer_ne_nil hf hfits) hv).mp hanswers
    obtain ⟨hdatagrams, hfinish, hrate⟩ := (localLine_answered hf hfits).mp hown
    exact ⟨hfits, hfinish, hrate, hdatagrams,
      (fileAnswers_nil_iff fun sp hsp => le_total hsp sentOf hfits.sent).mp ⟨hsome, hothers⟩⟩
  · intro h
    obtain ⟨hsome, hothers⟩ :=
      (fileAnswers_nil_iff fun sp hsp => le_total hsp sentOf h.totals.sent).mpr h.files
    refine ⟨⟨h.totals, hsome⟩, (alone (answer_ne_nil hf h.totals) hv).mpr ⟨?_, hothers⟩⟩
    exact (localLine_answered hf h.totals).mpr ⟨h.datagrams, h.finish, h.rate⟩

/-- The summary is reported as it was printed when it can be read back, behind one title. -/
theorem summary_fed {n : ℤ} {isDown : Bool} (hr : Reported n isDown test) (hn : 1 ≤ n) :
    (feedOutputs (iperfPrintResults env test) ⟨n, isDown, 1⟩).map Prod.fst =
      some [resultAnswer env test] ↔ SummaryShown env test := by
  have hprint : iperfPrintResults env test =
      summaryHeader test ++ (resultOutputs env test ++ summaryFooter test) := by
    unfold iperfPrintResults resultOutputs
    rw [if_neg (by rw [hr.jsonOutput]; decide)]
    simp
  have hfooter := (mute_summaryFooter hr.getServerOutput).2 ⟨test.numStreams, test.reverse, 2⟩
  have hcollect : collect ⟨test.numStreams, test.reverse, 2⟩
      (resultOutputs env test ++ summaryFooter test) =
      collect ⟨test.numStreams, test.reverse, 2⟩ (resultOutputs env test) := by
    rw [collect_append, (hfooter []).mpr ⟨trivial, rfl⟩]
    cases collect ⟨test.numStreams, test.reverse, 2⟩ (resultOutputs env test) with
    | none => rfl
    | some answers => simp
  have htitled := @feedOutputs_titled (resultOutputs env test ++ summaryFooter test)
    ⟨n, isDown, 2⟩ (le_refl 2)
  rw [← resultOutputs_answered hr hn, ← hcollect, hr.numStreams, hr.reverse, ← htitled, hprint,
    feedOutputs_append, summaryHeader_fed, Option.bind_some, Option.map_map]
  rfl

end Summary

section Run

variable {n : ℤ} {isDown : Bool} {env : ReportEnv}

/-- The blocks of a run are fed to the parser in order, one state after the other. -/
theorem feedBlocks_cons {outs : List Output} {rest : List (List Output)} {cmd : Iperf3Cmd}
    {answers : List Answer} {later : List (List Answer)} :
    feedBlocks (outs :: rest) cmd = some (answers :: later) ↔
      ∃ c, feedOutputs outs cmd = some (answers, c) ∧ feedBlocks rest c = some later := by
  have hstep : feedBlocks (outs :: rest) cmd = (feedOutputs outs cmd).bind fun r =>
      (feedBlocks rest r.2).map fun later => r.1 :: later := rfl
  rw [hstep]
  constructor
  · intro h
    obtain ⟨⟨x, c⟩, hfed, hmap⟩ := Option.bind_eq_some_iff.mp h
    obtain ⟨y, hlater, heq⟩ := Option.map_eq_some_iff.mp hmap
    obtain ⟨rfl, rfl⟩ := List.cons.inj heq
    exact ⟨c, hfed, hlater⟩
  · rintro ⟨c, hfed, hlater⟩
    rw [hfed, Option.bind_some, hlater]
    rfl

/-- Behind the first title every interval report is answered on its own, and the state of the
parser is the same in front of each. -/
theorem feedBlocks_rest {final : IperfTest} (hfinal : Reported n isDown final) (hn : 1 ≤ n)
    {tests : List IperfTest} (htests : ∀ test ∈ tests, Reported n isDown test) :
    feedBlocks (tests.map iperfPrintIntermediate ++ [iperfPrintResults env final]) ⟨n, isDown, 1⟩ =
        some (tests.map (fun test => [intervalAnswer test]) ++ [[resultAnswer env final]]) ↔
      (∀ test ∈ tests, opens test = false ∧ IntervalShown test) ∧ SummaryShown env final := by
  induction tests with
  | nil =>
    rw [← summary_fed hfinal hn, List.map_nil, List.map_nil, List.nil_append, List.nil_append,
      feedBlocks_cons, Option.map_eq_some_iff]
    constructor
    · rintro ⟨c, hfed, -⟩
      exact ⟨fun test htest => absurd htest List.not_mem_nil, _, hfed, rfl⟩
    · rintro ⟨-, ⟨answers, c⟩, hfed, rfl⟩
      exact ⟨c, hfed, rfl⟩
  | cons test tests ih =>
    have hone := @interval_fed n isDown test (htests test List.mem_cons_self) hn ⟨n, isDown, 1⟩
    rw [List.map_cons, List.map_cons, List.cons_append, List.cons_append, feedBlocks_cons,
      List.forall_mem_cons]
    have hrest := ih fun t ht => htests t (List.mem_cons_of_mem _ ht)
    constructor
    · rintro ⟨c, hfed, hlater⟩
      obtain ⟨hshown, hcount, rfl⟩ := (hone rfl rfl).mp hfed
      obtain ⟨hall, hsummary⟩ := hrest.mp hlater
      refine ⟨⟨⟨?_, hshown⟩, hall⟩, hsummary⟩
      cases hopens : opens test with
      | false => rfl
      | true =>
        rw [hopens] at hcount
        simp at hcount
    · rintro ⟨⟨⟨hopens, hshown⟩, hall⟩, hsummary⟩
      refine ⟨⟨n, isDown, 1⟩, (hone rfl rfl).mpr ⟨hshown, ?_, rfl⟩, hrest.mpr ⟨hall, hsummary⟩⟩
      rw [hopens]
      rfl

/-- A run is reported as it was printed exactly when it can be read back: every interval line
and the line of the summary. -/
theorem answers_iff {during : List IperfTest} {final : IperfTest} (hn : 1 ≤ n)
    (hduring : ∀ test ∈ during, Reported n isDown test) (hfinal : Reported n isDown final) :
    feedBlocks (blocks env during final) ⟨n, isDown, 0⟩ = some (expected env during final) ↔
      Reportable env during final := by
  have htests : ∀ test ∈ during ++ [final], Reported n isDown test := by
    intro test htest
    rcases List.mem_append.mp htest with h | h
    · exact hduring test h
    · rw [List.mem_singleton.mp h]
      exact hfinal
  have hreportable : Reportable env during final ↔
      (∀ test ∈ (during ++ [final]).head?, opens test = true) ∧
        (∀ test ∈ (during ++ [final]).tail, opens test = false) ∧
        (∀ test ∈ during ++ [final], IntervalShown test) ∧ SummaryShown env final :=
    ⟨fun h => ⟨h.opens, h.goesOn, h.intervals, h.summary⟩,
      fun h => ⟨h.1, h.2.1, h.2.2.1, h.2.2.2⟩⟩
  rw [hreportable]
  unfold blocks expected
  cases hlist : during ++ [final] with
  | nil => simp at hlist
  | cons first rest =>
    rw [hlist] at htests
    have hone := @interval_fed n isDown first (htests first List.mem_cons_self) hn ⟨n, isDown, 0⟩
    have hrest := @feedBlocks_rest n isDown env final hfinal hn rest
      fun t ht => htests t (List.mem_cons_of_mem _ ht)
    rw [List.map_cons, List.map_cons, List.cons_append, List.cons_append, feedBlocks_cons,
      List.forall_mem_cons]
    simp only [List.head?_cons, Option.mem_some_iff, forall_eq', List.tail_cons]
    constructor
    · rintro ⟨c, hfed, hlater⟩
      obtain ⟨hshown, hcount, rfl⟩ := (hone rfl rfl).mp hfed
      obtain ⟨hall, hsummary⟩ := hrest.mp hlater
      refine ⟨?_, fun t ht => (hall t ht).1, ⟨hshown, fun t ht => (hall t ht).2⟩, hsummary⟩
      cases hopens : opens first with
      | true => rfl
      | false =>
        rw [hopens] at hcount
        simp at hcount
    · rintro ⟨hopens, hgoesOn, ⟨hshown, hall⟩, hsummary⟩
      refine ⟨⟨n, isDown, 1⟩, (hone rfl rfl).mpr ⟨hshown, ?_, rfl⟩,
        hrest.mpr ⟨fun t ht => ⟨hgoesOn t ht, hall t ht⟩, hsummary⟩⟩
      rw [hopens]
      rfl

end Run

/-- An accepted command of a test with `-P` and `-f m`, and without a title, JSON or the
server's output. -/
structure CommandLine (env : Surroundings) (args : List String) (t : ClientTest) : Prop where
  parsed : parseWords env args = .ok t
  spelt : SpeltOut env.machine args ((getoptLong args).getD [])
  streams : 1 ≤ t.test.numStreams
  unitFormat : t.test.settings.unitFormat = 'm'
  title : t.test.title = none
  jsonOutput : t.test.jsonOutput = false
  getServerOutput : t.test.getServerOutput = false

/-- A test of the run at one of its reports: its parameters are those it was started with, it
has its streams, and each of them has an interval with its duration. -/
structure AtReport (started test : IperfTest) : Prop extends WithIntervals test where
  numStreams : test.numStreams = started.numStreams
  reverse : test.reverse = started.reverse
  jsonOutput : test.jsonOutput = started.jsonOutput
  getServerOutput : test.getServerOutput = started.getServerOutput
  unitFormat : test.settings.unitFormat = started.settings.unitFormat

/-- A completed run: reports while it is running and one at its end. -/
structure CompletedRun (started : IperfTest) (during : List IperfTest) (final : IperfTest) :
    Prop where
  during : ∀ test ∈ during, test.state = .testRunning ∧ AtReport started test
  final : final.state = .displayResults ∧ AtReport started final

/-- The lines of the reports, fed in order to an object in a state, lead to what was printed
for this end and to nothing else. -/
structure Agrees (cmd : Iperf3Cmd) (env : ReportEnv) (during : List IperfTest)
    (final : IperfTest) : Prop where
  printed : (blocks env during final).flatten =
    (during ++ [final]).flatMap (iperfReporterCallback env)
  answers : feedBlocks (blocks env during final) cmd = some (expected env during final)

/-- A test that an accepted command line reports has its streams and its direction. -/
theorem CommandLine.reported {env : Surroundings} {args : List String} {t : ClientTest}
    (h : CommandLine env args t) {test : IperfTest} (htest : AtReport t.test test) :
    Reported t.test.numStreams t.test.reverse test :=
  { toWithIntervals := htest.toWithIntervals
    numStreams := htest.numStreams
    reverse := htest.reverse
    jsonOutput := htest.jsonOutput.trans h.jsonOutput
    getServerOutput := htest.getServerOutput.trans h.getServerOutput
    unitFormat := htest.unitFormat.trans h.unitFormat }

/-- What `parseArgs` leaves for such a command, whatever was run before. -/
theorem CommandLine.parseArgs_eq {env : Surroundings} {args : List String} {t : ClientTest}
    (h : CommandLine env args t) (filesDir executableName : String) (cmd : Iperf3Cmd) :
    (parseArgs (cmdPath filesDir executableName :: args) cmd).1 = true ∧
      (parseArgs (cmdPath filesDir executableName :: args) cmd).2 =
        ⟨t.test.numStreams, t.test.reverse, 0⟩ := by
  obtain ⟨options, hoptions, hstreams, hreverse⟩ := parseWords_read h.parsed
  have hspelt := h.spelt
  rw [hoptions, Option.getD_some] at hspelt
  obtain ⟨hreturns, hstate⟩ := parseArgs_spec filesDir executableName args cmd
  have hparsed := hreturns.mpr hspelt.readable
  refine ⟨hparsed, ?_⟩
  rw [hstate hparsed, laterNumber_last hspelt.streams, hstreams, hreverse]
  have hdown := hspelt.reverse
  congr 1
  cases hasks : asksReverse options with
  | true => simpa [hasks] using hdown
  | false => simpa [hasks] using hdown

/-- The lines of a completed run lead to its reports exactly when they can be read back. What
the command object kept of earlier runs makes no difference where the arguments are spelt out.
-/
theorem reports_agree_iff (env : Surroundings) (filesDir executableName : String)
    (history : List Run) {args : List String} {t : ClientTest} (h : CommandLine env args t)
    (renv : ReportEnv) {during : List IperfTest} {final : IperfTest}
    (hrun : CompletedRun t.test during final) :
    Agrees (parseArgs (cmdPath filesDir executableName :: args)
        (afterRuns (cmdPath filesDir executableName) history)).2 renv during final ↔
      Reportable renv during final := by
  have hstate := (h.parseArgs_eq filesDir executableName
    (afterRuns (cmdPath filesDir executableName) history)).2
  have hiff := @answers_iff t.test.numStreams t.test.reverse renv during final h.streams
    (fun test htest => h.reported (hrun.during test htest).2) (h.reported hrun.final.2)
  rw [hstate]
  constructor
  · intro hagrees
    exact hiff.mp hagrees.answers
  · intro hreportable
    refine ⟨?_, hiff.mpr hreportable⟩
    exact blocks_flatten (fun test htest => (hrun.during test htest).1) hrun.final.1

/-- `-c 10.0.0.1 -P 1 -f m`. -/
def oneStream : List String := ["-c", "10.0.0.1", "-P", "1", "-f", "m"]

/-- The plain command line with one stream is accepted, in the unit and without the options
that the condition excludes. -/
theorem oneStream_commandLine :
    ∃ t, CommandLine plainSurroundings oneStream t ∧ t.test.numStreams = 1 := by
  have hread : (parseWords plainSurroundings oneStream).toOption.map (fun t =>
      (t.test.numStreams, t.test.settings.unitFormat, t.test.title, t.test.jsonOutput,
        t.test.getServerOutput)) = some (1, 'm', none, false, false) := by
    decide +kernel
  cases hargs : parseWords plainSurroundings oneStream with
  | error e =>
    rw [hargs] at hread
    cases hread
  | ok t =>
    rw [hargs] at hread
    obtain ⟨hstreams, hrest⟩ := Prod.mk.inj (Option.some.inj hread)
    obtain ⟨hunit, hrest⟩ := Prod.mk.inj hrest
    obtain ⟨htitle, hrest⟩ := Prod.mk.inj hrest
    obtain ⟨hjson, hserver⟩ := Prod.mk.inj hrest
    have hspelt : SpeltOut plainSurroundings.machine oneStream
        ((getoptLong oneStream).getD []) := by
      have hlist : getoptLong oneStream =
          some [(.short 'c', "10.0.0.1"), (.short 'P', "1"), (.short 'f', "m")] := by
        decide +kernel
      rw [hlist]
      exact ⟨by decide +kernel, by decide +kernel, by decide +kernel⟩
    refine ⟨t, ⟨hargs, hspelt, ?_, hunit, htitle, hjson, hserver⟩, hstreams⟩
    rw [hstreams]

/-- A stream with one interval of a million bytes. -/
def timedStream (seconds : ℕ) : IperfStream :=
  { socket := 4
    result :=
      { bytesSent := 1000000
        endTime := ⟨seconds, 0⟩
        intervalResults := [{ bytesTransferred := 1000000
                              intervalEndTime := ⟨seconds, 0⟩
                              intervalDuration := seconds }] } }

/-- A test at its end with this stream. -/
def timedTest (started : IperfTest) (seconds : ℕ) : IperfTest :=
  { started with
    state := .displayResults
    streams := [timedStream seconds] }

/-- The timed test completes its run. -/
theorem timedTest_completed {started : IperfTest} (h : started.numStreams = 1) (seconds : ℕ) :
    CompletedRun started [] (timedTest started seconds) := by
  refine ⟨fun test htest => absurd htest List.not_mem_nil, rfl, ?_⟩
  refine ⟨⟨h.symm, ?_, ?_⟩, rfl, rfl, rfl, rfl, rfl⟩
  · intro sp hsp
    rw [List.mem_singleton.mp hsp]
    exact (by decide : (0 : ℤ) ≤ 4)
  · intro sp hsp
    rw [List.mem_singleton.mp hsp]
    refine ⟨_, rfl, ?_, (by decide : (0 : ℤ) < 2 ^ 31)⟩
    simp [timevalDiff, Timeval.seconds]

/-- Surroundings of a report without files. -/
def noFiles : ReportEnv := ⟨fun _ => none, 0, fun _ => 0⟩

/-- A test of a hundred seconds prints an end time with three digits in front of its point,
and is not reported. -/
theorem hundredSeconds_unread :
    ¬∀ (env : Surroundings) (filesDir executableName : String) (history : List Run)
      (args : List String) (t : ClientTest), CommandLine env args t →
      ∀ (renv : ReportEnv) (during : List IperfTest) (final : IperfTest),
        CompletedRun t.test during final →
        Agrees (parseArgs (cmdPath filesDir executableName :: args)
          (afterRuns (cmdPath filesDir executableName) history)).2 renv during final := by
  intro hall
  obtain ⟨t, hline, hone⟩ := oneStream_commandLine
  have hrun := timedTest_completed hone 100
  have hagrees := hall plainSurroundings "/data" "iperf3-arm" [] oneStream t hline noFiles []
    (timedTest t.test 100) hrun
  have hanswers := hagrees.answers
  rw [(hline.parseArgs_eq "/data" "iperf3-arm" _).2] at hanswers
  have hreportable := (answers_iff hline.streams (fun test htest => absurd htest List.not_mem_nil)
    (hline.reported hrun.final.2)).mp hanswers
  have hfinish := (hreportable.intervals _ (List.mem_singleton_self _)).finish
  have hend : intervalEnd (timedTest t.test 100) = 100 := by
    simp [intervalEnd, firstStream, lastEntry, timedTest, timedStream, timevalDiff,
      Timeval.seconds]
  rw [hend] at hfinish
  norm_num at hfinish

/-- For a run of ten seconds both answers agree exactly where the general condition says so. -/
theorem tenSeconds_agree_iff :
    ∃ t, CommandLine plainSurroundings oneStream t ∧
      (Agrees (parseArgs (cmdPath "/data" "iperf3-arm" :: oneStream)
          (afterRuns (cmdPath "/data" "iperf3-arm") [])).2 noFiles [] (timedTest t.test 10) ↔
        Reportable noFiles [] (timedTest t.test 10)) := by
  obtain ⟨t, hline, hone⟩ := oneStream_commandLine
  exact ⟨t, hline, reports_agree_iff plainSurroundings "/data" "iperf3-arm" [] hline noFiles
    (timedTest_completed hone 10)⟩

end IperfRuntime.CommandReports
