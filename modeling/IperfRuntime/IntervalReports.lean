import IperfRuntime.ReportOutput

/-!
# Interval lines

What one `iperf_reporter_callback` says about the last measured interval: a line for every
stream and, with Java callbacks, exactly one call of `on_interval`. Without callbacks, and
under `-J`, it is silent in this sense.
-/

namespace IperfRuntime.IntervalReports

open ClockReading TestState ReportOutput

/-- The lines about the last entry of every stream. -/
def intervalLines (test : IperfTest) : Bool → List IperfStream → List Output
  | _, [] => []
  | first, sp :: rest => printIntervalResults test first sp ++ intervalLines test false rest

/-- Whether an event is a call of `on_interval`. -/
def Output.isInterval : Output → Bool
  | .onInterval _ _ _ _ => true
  | _ => false

/-- The calls of `on_interval` in a report. -/
def intervalCalls (output : List Output) : ℕ := output.countP Output.isInterval

/-- Nothing printed is no call. -/
@[simp] theorem intervalCalls_nil : intervalCalls [] = 0 := rfl

/-- Calls of two parts add up. -/
@[simp] theorem intervalCalls_append (a b : List Output) :
    intervalCalls (a ++ b) = intervalCalls a + intervalCalls b :=
  List.countP_append

/-- A line is not a call. -/
@[simp] theorem intervalCalls_line (text : Option PrintfText.Text) (rest : List Output) :
    intervalCalls (.line text :: rest) = intervalCalls rest := by
  unfold intervalCalls
  rw [List.countP_cons_of_neg]
  simp [Output.isInterval]

/-- A conditional call of `on_interval` counts where its condition holds. -/
@[simp] theorem intervalCalls_onInterval (condition : Bool) (start finish : ℚ)
    (sendBytes bandWidth : Option PrintfText.Text) :
    intervalCalls (callIf condition (.onInterval start finish sendBytes bandWidth)) =
      if condition then 1 else 0 := by
  cases condition with
  | false => rfl
  | true => rfl

/-- A call of `on_result` is not counted. -/
@[simp] theorem intervalCalls_onResult (condition : Bool) (start finish : ℚ)
    (sendBytes bandWidth : Option PrintfText.Text) :
    intervalCalls (callIf condition (.onResult start finish sendBytes bandWidth)) = 0 := by
  cases condition with
  | false => rfl
  | true => rfl

/-- Two branches without a call make none. -/
theorem intervalCalls_ite (c : Prop) [Decidable c] {a b : List Output}
    (ha : intervalCalls a = 0) (hb : intervalCalls b = 0) :
    intervalCalls (if c then a else b) = 0 := by
  split
  · exact ha
  · exact hb

/-- Parts without a call make none together. -/
theorem intervalCalls_flatMap {α : Type*} {f : α → List Output} {l : List α}
    (h : ∀ a ∈ l, intervalCalls (f a) = 0) : intervalCalls (l.flatMap f) = 0 := by
  induction l with
  | nil => rfl
  | cons a l ih =>
    have ha := h a List.mem_cons_self
    have hl := ih fun b hb => h b (List.mem_cons_of_mem _ hb)
    rw [List.flatMap_cons, intervalCalls_append, ha, hl]

/-- The header makes no call. -/
theorem intervalCalls_header (test : IperfTest) (sp : IperfStream) (irp : IperfIntervalResults)
    (first : Bool) :
    intervalCalls (if first then intervalHeader test sp irp else []) = 0 := by
  refine intervalCalls_ite _ ?_ rfl
  unfold intervalHeader
  split
  · split
    · rfl
    · rfl
  · exact intervalCalls_ite _ rfl rfl

/-- The summary of a test makes no such call, in any of its parts; its callbacks are those of
results. -/
theorem intervalCalls_results (env : ReportEnv) (test : IperfTest) :
    intervalCalls (iperfPrintResults env test) = 0 := by
  have hheader : intervalCalls (summaryHeader test) = 0 := by
    unfold summaryHeader
    cases test.verbose with
    | false => rfl
    | true => rfl
  have hfooter : intervalCalls (summaryFooter test) = 0 := by
    unfold summaryFooter
    rw [intervalCalls_append, intervalCalls_ite _ rfl rfl, intervalCalls_ite _ ?_ rfl]
    rw [intervalCalls_append]
    cases test.jsonServerOutput <;> cases test.serverOutputText <;> rfl
  have hdiskfile (sp : IperfStream) : intervalCalls (diskfileSummary env test sp) = 0 := by
    unfold diskfileSummary
    split
    · rfl
    · cases env.fstat sp.diskfileFd with
      | none => rfl
      | some size => rfl
  have hsender (endTime : ℚ) (sp : IperfStream) :
      intervalCalls (senderSummary test endTime sp) = 0 := by
    unfold senderSummary
    dsimp only
    split
    · split
      · rw [intervalCalls_append, intervalCalls_onResult]
        rfl
      · rw [intervalCalls_append, intervalCalls_onResult]
        rfl
    · rw [intervalCalls_append, intervalCalls_append, intervalCalls_append, intervalCalls_onResult,
        intervalCalls_ite _ rfl rfl, intervalCalls_ite _ rfl rfl]
      rfl
  have hreceiver (endTime : ℚ) (sp : IperfStream) :
      intervalCalls (receiverSummary test endTime sp) = 0 := by
    unfold receiverSummary
    dsimp only
    split
    · rw [intervalCalls_append, intervalCalls_onResult]
      rfl
    · rfl
  have hsum (endTime : ℚ) (s : ResultSums) : intervalCalls (sumSummary test endTime s) = 0 := by
    unfold sumSummary
    dsimp only
    split
    · rw [intervalCalls_append, intervalCalls_append, intervalCalls_append, intervalCalls_onResult,
        intervalCalls_onResult, intervalCalls_ite _ rfl rfl]
      rfl
    · rw [intervalCalls_append, intervalCalls_onResult]
      rfl
  unfold iperfPrintResults
  split
  · rfl
  · dsimp only
    have hstreams := intervalCalls_flatMap (l := test.streams)
      (f := streamSummary env test (endTimeOf env test)) (by
        intro sp _
        unfold streamSummary
        rw [intervalCalls_append, intervalCalls_append, hsender, hdiskfile, hreceiver])
    rw [intervalCalls_append, intervalCalls_append, intervalCalls_append, hheader, hstreams,
      intervalCalls_ite _ (hsum _ _) rfl, hfooter]

/-- One stream's interval line comes with a call for a test with a single stream, and without
one where a sum is to follow. -/
theorem intervalCalls_stream {test : IperfTest} (hjni : test.jniCallback = true)
    (htext : test.jsonOutput = false) (first : Bool) {sp : IperfStream}
    (hsp : sp.result.intervalResults ≠ []) :
    intervalCalls (printIntervalResults test first sp) = if test.numStreams = 1 then 1 else 0 := by
  have hlast := List.getLast?_eq_some_getLast hsp
  have hheader := intervalCalls_header test sp (sp.result.intervalResults.getLast hsp) first
  unfold printIntervalResults
  rw [hlast]
  dsimp only
  rw [htext, hjni]
  have hcall (a b : ℚ) (u v : Option PrintfText.Text) (rest : List Output)
      (hrest : intervalCalls rest = 0) :
      intervalCalls ((if first then intervalHeader test sp (sp.result.intervalResults.getLast hsp)
        else []) ++ callIf (true && test.numStreams == 1) (.onInterval a b u v) ++ rest) =
          if test.numStreams = 1 then 1 else 0 := by
    rw [intervalCalls_append, intervalCalls_append, hheader, intervalCalls_onInterval, hrest]
    simp
  split
  · rename_i h
    exact absurd h (by simp)
  · split
    · split
      · exact hcall _ _ _ _ _ rfl
      · exact hcall _ _ _ _ _ rfl
    · split
      · exact hcall _ _ _ _ _ rfl
      · exact hcall _ _ _ _ _ rfl

/-- With callbacks each stream of an interval makes a call if the test has one stream, and none
otherwise. -/
theorem intervalCalls_streams {test : IperfTest} (hjni : test.jniCallback = true)
    (htext : test.jsonOutput = false) (first : Bool) {streams : List IperfStream}
    (hall : ∀ sp ∈ streams, sp.result.intervalResults ≠ []) :
    intervalCalls (intervalLines test first streams) =
      if test.numStreams = 1 then streams.length else 0 := by
  induction streams generalizing first with
  | nil => simp [intervalLines]
  | cons sp rest ih =>
    have hsp := intervalCalls_stream hjni htext first (hall sp List.mem_cons_self)
    have hrest := ih false fun sp' hsp' => hall sp' (List.mem_cons_of_mem _ hsp')
    rw [intervalLines, intervalCalls_append, hsp, hrest, List.length_cons]
    split
    · omega
    · rfl

/-- With an entry on every stream the loop of `iperf_print_intermediate` prints them all. -/
theorem printStreams_lines {test : IperfTest} (first : Bool) {streams : List IperfStream}
    (hall : ∀ sp ∈ streams, sp.result.intervalResults ≠ []) (s : IntervalSums) :
    ∃ sums, printStreams test first streams s = (intervalLines test first streams, some sums) := by
  induction streams generalizing first s with
  | nil => exact ⟨s, rfl⟩
  | cons sp rest ih =>
    have hlast := List.getLast?_eq_some_getLast (hall sp List.mem_cons_self)
    obtain ⟨sums, hrest⟩ := ih false (fun sp' hsp' => hall sp' (List.mem_cons_of_mem _ hsp'))
      (addInterval test s (sp.result.intervalResults.getLast (hall sp List.mem_cons_self)))
    refine ⟨sums, ?_⟩
    rw [printStreams, hlast]
    dsimp only
    rw [hrest, intervalLines]

/-- The sum makes one call. -/
theorem intervalCalls_sum {test : IperfTest} (hjni : test.jniCallback = true) (sp : IperfStream)
    (irp : IperfIntervalResults) (s : IntervalSums) :
    intervalCalls (intervalSum test sp irp s) = 1 := by
  unfold intervalSum
  dsimp only
  rw [hjni]
  split
  · split
    · rfl
    · rfl
  · split
    · rfl
    · rfl

/-- What a report delivers of its test. -/
structure Delivered (test : IperfTest) (output : List Output) : Prop where
  /-- The last entry of every stream is printed. -/
  lines : ∃ rest, output = intervalLines test true test.streams ++ rest
  /-- Java hears of it once. -/
  call : test.jniCallback = true → test.jsonOutput = false → 1 ≤ test.numStreams →
    intervalCalls output = 1

/-- An intermediate report delivers the last entries: a line for each stream, and one call
with the amount of all of them. -/
theorem intermediate_delivered {test : IperfTest}
    (hnum : 1 ≤ test.numStreams → test.numStreams = test.streams.length)
    (hall : ∀ sp ∈ test.streams, sp.result.intervalResults ≠ []) :
    Delivered test (iperfPrintIntermediate test) := by
  obtain ⟨sums, hstreams⟩ := printStreams_lines true hall {}
  constructor
  · unfold iperfPrintIntermediate
    rw [hstreams]
    dsimp only
    split
    · split
      · exact ⟨[], (List.append_nil _).symm⟩
      · split
        · exact ⟨[], (List.append_nil _).symm⟩
        · exact ⟨_, rfl⟩
    · exact ⟨[], (List.append_nil _).symm⟩
  · intro hjni htext hpos
    have hlength := hnum hpos
    have hcalls := intervalCalls_streams hjni htext true hall
    unfold iperfPrintIntermediate
    rw [hstreams]
    dsimp only
    by_cases hone : test.numStreams = 1
    · have hnot : ¬(1 < test.numStreams ∧ test.jsonOutput = false) := by omega
      rw [if_neg hnot, hcalls, if_pos hone]
      omega
    · have hmany : 1 < test.numStreams ∧ test.jsonOutput = false := ⟨by omega, htext⟩
      rw [if_pos hmany]
      cases hl : test.streams with
      | nil =>
        rw [hl, List.length_nil] at hlength
        omega
      | cons sp rest =>
        have hsp : sp.result.intervalResults ≠ [] := hall sp (by rw [hl]; exact List.mem_cons_self)
        have hlast := List.getLast?_eq_some_getLast hsp
        dsimp only
        rw [hlast]
        dsimp only
        rw [← hl, intervalCalls_append, hcalls, if_neg hone, intervalCalls_sum hjni]

/-- In the two states of a run a report delivers the last entries. -/
theorem report_delivered (env : ReportEnv) {test : IperfTest}
    (hstate : test.state = .testRunning ∨ test.state = .displayResults)
    (hnum : 1 ≤ test.numStreams → test.numStreams = test.streams.length)
    (hall : ∀ sp ∈ test.streams, sp.result.intervalResults ≠ []) :
    Delivered test (iperfReporterCallback env test) := by
  have hinter := intermediate_delivered hnum hall
  unfold iperfReporterCallback
  rcases hstate with hstate | hstate
  · rw [hstate]
    exact hinter
  · rw [hstate]
    obtain ⟨rest, hlines⟩ := hinter.lines
    refine ⟨⟨rest ++ iperfPrintResults env test, ?_⟩, ?_⟩
    · dsimp only
      rw [hlines, List.append_assoc]
    · intro hjni htext hpos
      have hcall := hinter.call hjni htext hpos
      dsimp only
      rw [intervalCalls_append, hcall, intervalCalls_results]

end IperfRuntime.IntervalReports
