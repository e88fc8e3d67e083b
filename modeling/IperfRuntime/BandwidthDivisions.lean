import IperfRuntime.FinalReport
import IperfRuntime.ReportLines

/-!
# The divisions behind the bandwidths

The interval reports divide by `interval_duration` and the streams of the final report by
`end_time`, both differences of two clock readings; only the totals look whether there is
anything to divide by. The text of a division by zero is no number for the app. What a rate
means for the network is not spoken of, only when its text is a number.
-/

namespace IperfRuntime.BandwidthDivisions

open ClockReading TestState PrintfText PrintedNumbers OptionText CommandParser ReportOutput
  ReportLines IntervalStats IntervalWindows ClientTimers ClientRun ClientLoop StreamRecords
  FinalReport

/-- A bandwidth before it is printed. -/
structure Division where
  amount : ℕ
  duration : ℚ
  deriving DecidableEq

/-- Its value. -/
def Division.rate (d : Division) : Dbl := ratio d.amount d.duration

/-- The intervals that `iperf_print_intermediate` comes to. -/
def lastIntervals : List IperfStream → List IperfIntervalResults
  | [] => []
  | sp :: rest =>
    match sp.result.intervalResults.getLast? with
    | none => []
    | some irp => irp :: lastIntervals rest

/-- The division of `print_interval_results`. -/
def ofInterval (irp : IperfIntervalResults) : Division where
  amount := irp.bytesTransferred
  duration := irp.intervalDuration

/-- The division behind the sum of an interval, timed by the first stream. -/
def sumDivisions (test : IperfTest) : List Division :=
  match (printStreams test true test.streams {}).2, lastIntervals test.streams with
  | some s, irp :: _ => if 1 < test.numStreams then [⟨s.bytes, irp.intervalDuration⟩] else []
  | _, _ => []

/-- The divisions of `iperf_print_intermediate` with those of `print_interval_results`. -/
def intervalDivisions (test : IperfTest) : List Division :=
  (lastIntervals test.streams).map ofInterval ++ sumDivisions test

/-- The divisions of `iperf_print_results` for its streams. -/
def streamDivisions (test : IperfTest) : List Division :=
  match test.streams with
  | [] => []
  | first :: _ =>
    let endTime := timevalDiff first.result.startTime first.result.endTime
    test.streams.flatMap fun sp => [⟨sentOf sp, endTime⟩, ⟨sp.result.bytesReceived, endTime⟩]

/-- Whether the reporter prints a text about the interval. -/
def showsInterval (test : IperfTest) : Bool :=
  !test.jsonOutput && (test.state == .testRunning || test.state == .streamRunning ||
    test.state == .testEnd || test.state == .displayResults)

/-- Whether the reporter prints a text about the whole test. -/
def showsResults (test : IperfTest) : Bool :=
  !test.jsonOutput && (test.state == .testEnd || test.state == .displayResults)

/-- The divisions that a report makes for its text and for its callbacks, apart from those of
the totals. -/
def divisions (test : IperfTest) : List Division :=
  (if showsInterval test then intervalDivisions test else []) ++
    if showsResults test then streamDivisions test else []

/-- The callbacks that are made with the result of such a division. -/
def dividedCalls (env : ReportEnv) (test : IperfTest) : List Output :=
  (if showsInterval test then iperfPrintIntermediate test else []) ++
    if showsResults test then
      test.streams.flatMap (streamSummary env test (endTimeOf env test)) else []

/-- The bandwidth that a callback hands over. -/
def bandwidthOf : Output → Option (Option Text)
  | .onInterval _ _ _ bandWidth => some bandWidth
  | .onResult _ _ _ bandWidth => some bandWidth
  | _ => none

/-- `split(" Mbit")[0]`. -/
def beforeUnit : Text → Text
  | [] => []
  | c :: rest => if (lit " Mbit").isPrefixOf (c :: rest) then [] else c :: beforeUnit rest

/-- `bandWidth.split(" Mbit")[0].toFloat()`, which passes over blanks in front. -/
def bandwidthFloat (bandWidth : Text) : Option ℚ := toFloat (unpadded (beforeUnit bandWidth))

/-- The bandwidths of a report are finite, and the app can read those it is handed. -/
structure FiniteBandwidths (test : IperfTest) : Prop where
  nonzero : ∀ d ∈ divisions test, d.duration ≠ 0
  readable : test.settings.unitFormat = 'm' → (∀ d ∈ divisions test, d.amount < 2 ^ 64) →
    ∀ env, ∀ call ∈ dividedCalls env test, ∀ bandWidth ∈ bandwidthOf call,
      ∃ text value, bandWidth = some text ∧ bandwidthFloat text = some value

/-- The clock did not stand still where a report divides: the last interval of every stream
it shows lies between two different readings, and so does the whole test. -/
structure ClockMoved (test : IperfTest) : Prop where
  intervals : showsInterval test = true → ∀ irp ∈ lastIntervals test.streams,
    irp.intervalStartTime.toUsecs ≠ irp.intervalEndTime.toUsecs
  results : showsResults test = true → ∀ sp ∈ test.streams.head?,
    sp.result.startTime.toUsecs ≠ sp.result.endTime.toUsecs

/-- The duration of an interval is the difference of its two readings. -/
def DurationsRecorded (rp : IperfStreamResult) : Prop :=
  ∀ irp ∈ rp.intervalResults,
    irp.intervalDuration = timevalDiff irp.intervalStartTime irp.intervalEndTime

/-- Every reachable report is made of intervals whose durations were recorded. -/
theorem durationsRecorded (platform : Platform) : Recorded platform DurationsRecorded where
  fresh := fun _ h => nomatch h
  start := fun _ _ h => h
  tick := by
    intro test sample sp h irp hirp
    rcases List.mem_append.mp hirp with hold | hnew
    · exact h irp hold
    · rw [List.mem_singleton.mp hnew]
      unfold intervalEntry
      dsimp only
      split
      · split
        · rfl
        · rfl
      · rfl
  reset := fun _ _ h => h

/-- A difference of times is not zero exactly if the times differ. -/
theorem timevalDiff_ne_zero_iff (a b : Timeval) : timevalDiff a b ≠ 0 ↔ a.toUsecs ≠ b.toUsecs := by
  rw [timevalDiff_eq_abs, Timeval.seconds_eq, Timeval.seconds_eq, Ne, abs_eq_zero, sub_eq_zero,
    div_left_inj' (by norm_num), Int.cast_inj]

/-- Different readings lie at least a microsecond apart. -/
theorem microsecond_le {a b : Timeval} (h : timevalDiff a b ≠ 0) :
    1 / 1000000 ≤ timevalDiff a b := by
  have hne := (timevalDiff_ne_zero_iff a b).mp h
  have hstep : (1 : ℚ) ≤ |(a.toUsecs : ℚ) - b.toUsecs| := by
    have hint : 1 ≤ |a.toUsecs - b.toUsecs| := Int.one_le_abs (sub_ne_zero.mpr hne)
    exact_mod_cast hint
  rw [timevalDiff_eq_abs, Timeval.seconds_eq, Timeval.seconds_eq, ← sub_div, abs_div]
  norm_num
  linarith

/-- The last intervals of the streams are intervals of theirs. -/
theorem mem_lastIntervals {irp : IperfIntervalResults} {streams : List IperfStream}
    (h : irp ∈ lastIntervals streams) : ∃ sp ∈ streams, irp ∈ sp.result.intervalResults := by
  induction streams with
  | nil => cases h
  | cons sp rest ih =>
    rw [lastIntervals] at h
    split at h
    · cases h
    · rename_i last hlast
      rcases List.mem_cons.mp h with rfl | hrest
      · exact ⟨sp, List.mem_cons_self, List.mem_of_getLast? hlast⟩
      · obtain ⟨sp', hsp', hmem⟩ := ih hrest
        exact ⟨sp', List.mem_cons_of_mem _ hsp', hmem⟩

/-- The sum is divided by the duration of an interval that is divided by already. -/
theorem mem_sumDivisions {test : IperfTest} {d : Division} (h : d ∈ sumDivisions test) :
    ∃ irp ∈ lastIntervals test.streams, d.duration = irp.intervalDuration := by
  unfold sumDivisions at h
  split at h
  · rename_i s irp rest _ hlast
    split at h
    · rw [List.mem_singleton.mp h, hlast]
      exact ⟨irp, List.mem_cons_self, rfl⟩
    · cases h
  · cases h

/-- An interval report divides by the durations of its intervals. -/
theorem intervals_nonzero_iff {test : IperfTest} (h : Records DurationsRecorded test) :
    (∀ d ∈ intervalDivisions test, d.duration ≠ 0) ↔
      ∀ irp ∈ lastIntervals test.streams,
        irp.intervalStartTime.toUsecs ≠ irp.intervalEndTime.toUsecs := by
  have hduration : ∀ irp ∈ lastIntervals test.streams, irp.intervalDuration ≠ 0 ↔
      irp.intervalStartTime.toUsecs ≠ irp.intervalEndTime.toUsecs := by
    intro irp hirp
    obtain ⟨sp, hsp, hmem⟩ := mem_lastIntervals hirp
    rw [h sp hsp irp hmem]
    exact timevalDiff_ne_zero_iff _ _
  constructor
  · intro hall irp hirp
    refine (hduration irp hirp).mp (hall (ofInterval irp) ?_)
    exact List.mem_append_left _ (List.mem_map_of_mem hirp)
  · intro hall d hd
    rcases List.mem_append.mp hd with hown | hsum
    · obtain ⟨irp, hirp, rfl⟩ := List.mem_map.mp hown
      exact (hduration irp hirp).mpr (hall irp hirp)
    · obtain ⟨irp, hirp, heq⟩ := mem_sumDivisions hsum
      rw [heq]
      exact (hduration irp hirp).mpr (hall irp hirp)

/-- The streams of a final report are divided by the time of the first one. -/
theorem streams_nonzero_iff (test : IperfTest) :
    (∀ d ∈ streamDivisions test, d.duration ≠ 0) ↔
      ∀ sp ∈ test.streams.head?, sp.result.startTime.toUsecs ≠ sp.result.endTime.toUsecs := by
  unfold streamDivisions
  cases test.streams with
  | nil => simp
  | cons first rest =>
    have hfirst : (∀ sp ∈ (first :: rest).head?,
        sp.result.startTime.toUsecs ≠ sp.result.endTime.toUsecs) ↔
        timevalDiff first.result.startTime first.result.endTime ≠ 0 := by
      rw [timevalDiff_ne_zero_iff]
      simp
    rw [hfirst]
    constructor
    · intro hall
      exact hall _ (List.mem_flatMap.mpr ⟨first, List.mem_cons_self, List.mem_cons_self⟩)
    · intro hne d hd
      obtain ⟨sp, -, hmem⟩ := List.mem_flatMap.mp hd
      rcases List.mem_cons.mp hmem with rfl | hsecond
      · exact hne
      · rw [List.mem_singleton.mp hsecond]
        exact hne

/-- No division is by zero exactly where the clock moved. -/
theorem nonzero_iff {test : IperfTest} (h : Records DurationsRecorded test) :
    (∀ d ∈ divisions test, d.duration ≠ 0) ↔ ClockMoved test := by
  have hsplit : (∀ d ∈ divisions test, d.duration ≠ 0) ↔
      (showsInterval test = true → ∀ d ∈ intervalDivisions test, d.duration ≠ 0) ∧
        (showsResults test = true → ∀ d ∈ streamDivisions test, d.duration ≠ 0) := by
    unfold divisions
    rw [List.forall_mem_append]
    refine and_congr ?_ ?_
    · split
      · simp_all
      · simp_all
    · split
      · simp_all
      · simp_all
  rw [hsplit, intervals_nonzero_iff h, streams_nonzero_iff]
  exact ⟨fun hboth => ⟨hboth.1, hboth.2⟩, fun hmoved => ⟨hmoved.intervals, hmoved.results⟩⟩

/-- What stands in front of the unit. -/
theorem beforeUnit_append {number : Text} (h : 'M' ∉ number) :
    beforeUnit (number ++ lit " Mbit") = number := by
  induction number with
  | nil => rfl
  | cons c rest ih =>
    have hrest : 'M' ∉ rest := fun hmem => h (List.mem_cons_of_mem c hmem)
    have hnext : ∀ d ∈ (rest ++ lit " Mbit").head?, d ≠ 'M' := by
      cases rest with
      | nil =>
        rintro d ⟨⟩
        decide
      | cons d more =>
        rintro d' ⟨⟩ rfl
        exact hrest List.mem_cons_self
    have hother : (lit " Mbit").isPrefixOf (c :: (rest ++ lit " Mbit")) = false := by
      rw [Bool.eq_false_iff]
      intro hprefix
      obtain ⟨more, hmore⟩ := List.isPrefixOf_iff_prefix.mp hprefix
      obtain ⟨-, htail⟩ := List.cons.inj hmore
      refine hnext 'M' ?_ rfl
      rw [← htail]
      rfl
    rw [List.cons_append, beforeUnit, if_neg (by rw [hother]; exact Bool.false_ne_true), ih hrest]

/-- The app reads a printed number of megabits: the text is cut in front of the unit and what
is left of it is a number. -/
theorem bandwidthFloat_unitText {text whole places : Text} {spaces : ℕ}
    (h : UnitText text spaces whole places (lit "Mbit")) :
    ∃ value, bandwidthFloat text = some value := by
  have hdigit : ∀ {digits : Text}, Digits digits → 'M' ∉ digits :=
    fun hdigits hmem => absurd (hdigits 'M' hmem) (by decide)
  have hplaces : 'M' ∉ places := by
    rcases h.amount.places with rfl | ⟨d, rest, rfl, hrest⟩
    · exact List.not_mem_nil
    · intro hmem
      rcases List.mem_cons.mp hmem with hpoint | htail
      · exact absurd hpoint (by decide)
      · exact hdigit hrest htail
  have hnumber : 'M' ∉ List.replicate spaces ' ' ++ (whole ++ places) := by
    intro hmem
    rcases List.mem_append.mp hmem with hblank | hrest
    · exact absurd (List.eq_of_mem_replicate hblank) (by decide)
    · rcases List.mem_append.mp hrest with hw | hp
      · exact hdigit h.amount.digits hw
      · exact hplaces hp
  have hunit : text = (List.replicate spaces ' ' ++ (whole ++ places)) ++ lit " Mbit" := h.text_eq
  have hunpadded : unpadded (List.replicate spaces ' ' ++ (whole ++ places)) = whole ++ places :=
    unpadded_digits h.amount.digits h.amount.ne_nil spaces places
  unfold bandwidthFloat
  rw [hunit, beforeUnit_append hnumber, hunpadded]
  rcases h.amount.places with rfl | ⟨d, rest, rfl, hrest⟩
  · rw [List.append_nil]
    exact ⟨_, toFloat_digits h.amount.digits h.amount.ne_nil⟩
  · exact ⟨_, toFloat_decimal h.amount.digits hrest h.amount.ne_nil⟩

/-- The callbacks among these hand over the results of these divisions. -/
def HandsOver (test : IperfTest) (ds : List Division) (calls : List Output) : Prop :=
  ∀ call ∈ calls, ∀ bandWidth ∈ bandwidthOf call,
    ∃ d ∈ ds, bandWidth = unitSnprintf d.rate test.settings.unitFormat

variable {test : IperfTest} {ds ds' : List Division} {calls calls' : List Output}

/-- Calls in sequence hand over what each of them does. -/
theorem HandsOver.append (h : HandsOver test ds calls) (h' : HandsOver test ds calls') :
    HandsOver test ds (calls ++ calls') := by
  intro call hcall
  rcases List.mem_append.mp hcall with hfirst | hsecond
  · exact h call hfirst
  · exact h' call hsecond

/-- Calls that hand over some divisions hand over any larger list of them. -/
theorem HandsOver.of_subset (h : HandsOver test ds calls) (hsub : ∀ d ∈ ds, d ∈ ds') :
    HandsOver test ds' calls := by
  intro call hcall bandWidth hbandWidth
  obtain ⟨d, hd, heq⟩ := h call hcall bandWidth hbandWidth
  exact ⟨d, hsub d hd, heq⟩

/-- Text hands over nothing. -/
theorem handsOver_text (h : ∀ call ∈ calls, bandwidthOf call = none) : HandsOver test ds calls := by
  intro call hcall bandWidth hbandWidth
  rw [h call hcall] at hbandWidth
  cases hbandWidth

/-- A line hands nothing over. -/
theorem handsOver_line (text : Option Text) : HandsOver test ds [.line text] :=
  handsOver_text fun _ hcall => by rw [List.mem_singleton.mp hcall]; rfl

/-- Neither does an empty list of calls. -/
theorem handsOver_nil : HandsOver test ds [] := handsOver_text fun _ hcall => nomatch hcall

/-- One callback with the result of one division. -/
theorem handsOver_callIf (condition : Bool) {call : Output} {d : Division} (hd : d ∈ ds)
    (h : bandwidthOf call = some (unitSnprintf d.rate test.settings.unitFormat)) :
    HandsOver test ds (callIf condition call) := by
  unfold callIf
  split
  · intro call' hcall bandWidth hbandWidth
    rw [List.mem_singleton.mp hcall, h] at hbandWidth
    exact ⟨d, hd, (Option.mem_some_iff.mp hbandWidth).symm⟩
  · exact handsOver_nil

/-- Nor does the header of a table. -/
theorem handsOver_header (sp : IperfStream) (irp : IperfIntervalResults) :
    HandsOver test ds (intervalHeader test sp irp) := by
  unfold intervalHeader
  split
  · split
    · exact handsOver_line _
    · exact handsOver_line _
  · split
    · exact handsOver_line _
    · exact handsOver_nil

/-- The callback of an interval. -/
theorem handsOver_interval (first : Bool) {sp : IperfStream} {irp : IperfIntervalResults}
    (hlast : sp.result.intervalResults.getLast? = some irp) (hd : ofInterval irp ∈ ds) :
    HandsOver test ds (printIntervalResults test first sp) := by
  have hheader : HandsOver test ds (if first then intervalHeader test sp irp else []) := by
    split
    · exact handsOver_header sp irp
    · exact handsOver_nil
  have hcall : ∀ st et ubuf, HandsOver test ds (callIf (test.jniCallback && test.numStreams == 1)
      (.onInterval st et ubuf
        (unitSnprintf (ratio irp.bytesTransferred irp.intervalDuration)
          test.settings.unitFormat))) :=
    fun st et ubuf => handsOver_callIf _ hd rfl
  unfold printIntervalResults
  rw [hlast]
  dsimp only
  split
  · exact handsOver_nil
  · split
    · split
      · exact (hheader.append (hcall _ _ _)).append (handsOver_line _)
      · exact (hheader.append (hcall _ _ _)).append (handsOver_line _)
    · split
      · exact (hheader.append (hcall _ _ _)).append (handsOver_line _)
      · exact (hheader.append (hcall _ _ _)).append (handsOver_line _)

/-- Those of all intervals. -/
theorem handsOver_streams (first : Bool) (streams : List IperfStream) (s : IntervalSums)
    (hds : ∀ irp ∈ lastIntervals streams, ofInterval irp ∈ ds) :
    HandsOver test ds (printStreams test first streams s).1 := by
  induction streams generalizing first s with
  | nil => exact handsOver_nil
  | cons sp rest ih =>
    unfold printStreams
    cases hlast : sp.result.intervalResults.getLast? with
    | none =>
      dsimp only
      refine HandsOver.append ?_ (handsOver_text fun _ hcall => by
        rw [List.mem_singleton.mp hcall]
        rfl)
      unfold printIntervalResults
      rw [hlast]
      exact handsOver_text fun _ hcall => by rw [List.mem_singleton.mp hcall]; rfl
    | some irp =>
      have hcons : lastIntervals (sp :: rest) = irp :: lastIntervals rest := by
        rw [lastIntervals, hlast]
      rw [hcons] at hds
      dsimp only
      refine (handsOver_interval first hlast (hds irp List.mem_cons_self)).append ?_
      exact ih false _ fun irp' hirp => hds irp' (List.mem_cons_of_mem _ hirp)

/-- The callback of the sum of an interval. -/
theorem handsOver_sum (sp : IperfStream) (irp : IperfIntervalResults) (s : IntervalSums)
    (hd : ⟨s.bytes, irp.intervalDuration⟩ ∈ ds) :
    HandsOver test ds (intervalSum test sp irp s) := by
  have hcall : ∀ start finish ubuf, HandsOver test ds (callIf test.jniCallback
      (.onInterval start finish ubuf
        (unitSnprintf (ratio s.bytes irp.intervalDuration) test.settings.unitFormat))) :=
    fun start finish ubuf => handsOver_callIf _ hd rfl
  unfold intervalSum
  dsimp only
  split
  · split
    · exact (hcall _ _ _).append (handsOver_line _)
    · exact (hcall _ _ _).append (handsOver_line _)
  · split
    · exact (hcall _ _ _).append (handsOver_line _)
    · exact (hcall _ _ _).append (handsOver_line _)

/-- All callbacks of an interval report hand over rates of the divisions that the report
makes, one for each stream and one for the sum. -/
theorem handsOver_intermediate (test : IperfTest) :
    HandsOver test (intervalDivisions test) (iperfPrintIntermediate test) := by
  have hstreams : HandsOver test (intervalDivisions test)
      (printStreams test true test.streams {}).1 :=
    handsOver_streams true test.streams {} fun irp hirp =>
      List.mem_append_left _ (List.mem_map_of_mem hirp)
  unfold iperfPrintIntermediate
  dsimp only
  split
  · exact hstreams
  · rename_i s hsums
    split
    · rename_i hseveral
      split
      · exact hstreams
      · rename_i sp rest hlist
        split
        · exact hstreams
        · rename_i irp hlast
          refine hstreams.append (handsOver_sum sp irp s (List.mem_append_right _ ?_))
          have hintervals : lastIntervals test.streams = irp :: lastIntervals rest := by
            rw [hlist, lastIntervals, hlast]
          unfold sumDivisions
          rw [hsums, hintervals]
          dsimp only
          rw [if_pos hseveral.1]
          exact List.mem_cons_self
    · exact hstreams

/-- The callbacks of one stream in the final report hand over the sender's and the receiver's
rate, both over the end time. -/
theorem handsOver_summary (env : ReportEnv) {endTime : ℚ} {sp : IperfStream}
    (hsent : ⟨sentOf sp, endTime⟩ ∈ ds) (hreceived : ⟨sp.result.bytesReceived, endTime⟩ ∈ ds) :
    HandsOver test ds (streamSummary env test endTime sp) := by
  have hsender : ∀ condition ubuf, HandsOver test ds (callIf condition
      (.onResult 0 endTime ubuf (rateText test (sentOf sp) endTime))) :=
    fun condition ubuf => handsOver_callIf condition hsent rfl
  have hreceiver : ∀ condition ubuf, HandsOver test ds (callIf condition
      (.onResult 0 endTime ubuf (rateText test sp.result.bytesReceived endTime))) :=
    fun condition ubuf => handsOver_callIf condition hreceived rfl
  have hoptional : ∀ (p : Prop) [Decidable p] text,
      HandsOver test ds (if p then [.line text] else []) := by
    intro p _ text
    split
    · exact handsOver_line _
    · exact handsOver_nil
  refine (HandsOver.append ?_ ?_).append ?_
  · unfold senderSummary
    dsimp only
    split
    · split
      · exact (hsender _ _).append (handsOver_line _)
      · exact (hsender _ _).append (handsOver_line _)
    · exact (((hsender _ _).append (handsOver_line _)).append (hoptional _ _)).append
        (hoptional _ _)
  · unfold diskfileSummary
    split
    · exact handsOver_nil
    · split
      · exact handsOver_nil
      · exact handsOver_line _
  · unfold receiverSummary
    dsimp only
    split
    · exact (hreceiver _ _).append (handsOver_line _)
    · exact handsOver_nil

/-- The summaries of the streams hand over the divisions of the streams. -/
theorem handsOver_results (env : ReportEnv) (test : IperfTest) :
    HandsOver test (streamDivisions test)
      (test.streams.flatMap (streamSummary env test (endTimeOf env test))) := by
  unfold streamDivisions endTimeOf
  cases hstreams : test.streams with
  | nil => exact handsOver_nil
  | cons first rest =>
    intro call hcall
    obtain ⟨sp, hsp, hmem⟩ := List.mem_flatMap.mp hcall
    refine handsOver_summary env ?_ ?_ call hmem
    · exact List.mem_flatMap.mpr ⟨sp, hsp, List.mem_cons_self⟩
    · exact List.mem_flatMap.mpr ⟨sp, hsp, List.mem_cons_of_mem _ List.mem_cons_self⟩

/-- The callbacks hand over the results of the divisions. -/
theorem handsOver_divided (env : ReportEnv) (test : IperfTest) :
    HandsOver test (divisions test) (dividedCalls env test) := by
  unfold divisions dividedCalls
  refine HandsOver.append ?_ ?_
  · cases showsInterval test with
    | true => exact (handsOver_intermediate test).of_subset fun d hd => List.mem_append_left _ hd
    | false => exact handsOver_nil
  · cases showsResults test with
    | true => exact (handsOver_results env test).of_subset fun d hd => List.mem_append_right _ hd
    | false => exact handsOver_nil

/-- Every division is by the distance of two readings. For the intervals that was recorded by
a tick, for the summary it is the end time. -/
theorem duration_eq (h : Records DurationsRecorded test) {d : Division} (hd : d ∈ divisions test) :
    ∃ a b, d.duration = timevalDiff a b := by
  have hrecorded : ∀ irp ∈ lastIntervals test.streams,
      ∃ a b, irp.intervalDuration = timevalDiff a b := by
    intro irp hirp
    obtain ⟨sp, hsp, hmem⟩ := mem_lastIntervals hirp
    exact ⟨_, _, h sp hsp irp hmem⟩
  rcases List.mem_append.mp hd with hinterval | hstream
  · split at hinterval
    · rcases List.mem_append.mp hinterval with hown | hsum
      · obtain ⟨irp, hirp, rfl⟩ := List.mem_map.mp hown
        exact hrecorded irp hirp
      · obtain ⟨irp, hirp, heq⟩ := mem_sumDivisions hsum
        rw [heq]
        exact hrecorded irp hirp
    · cases hinterval
  · split at hstream
    · unfold streamDivisions at hstream
      split at hstream
      · cases hstream
      · obtain ⟨sp, -, hmem⟩ := List.mem_flatMap.mp hstream
        rcases List.mem_cons.mp hmem with rfl | hsecond
        · exact ⟨_, _, rfl⟩
        · rw [List.mem_singleton.mp hsecond]
          exact ⟨_, _, rfl⟩
    · cases hstream

/-- The result of a division by at least a microsecond can be read. -/
theorem rate_readable {d : Division} (hamount : d.amount < 2 ^ 64)
    (hduration : 1 / 1000000 ≤ d.duration) :
    ∃ text value, unitSnprintf d.rate 'm' = some text ∧ bandwidthFloat text = some value := by
  have hpos : 0 < d.duration := lt_of_lt_of_le (by norm_num) hduration
  have hrate : d.rate = .finite (d.amount / d.duration) := by
    unfold Division.rate ratio
    rw [if_neg hpos.ne']
  have hbound : (d.amount : ℚ) / d.duration < 10 ^ 26 := by
    have hcount : (d.amount : ℚ) < 2 ^ 64 := by exact_mod_cast hamount
    rw [div_lt_iff₀ hpos]
    calc (d.amount : ℚ) < 2 ^ 64 := hcount
      _ ≤ 10 ^ 26 * (1 / 1000000) := by norm_num
      _ ≤ 10 ^ 26 * d.duration := by gcongr
  obtain ⟨text, spaces, whole, places, htext, hunit⟩ := bitText (by positivity) hbound
  obtain ⟨value, hvalue⟩ := bandwidthFloat_unitText hunit
  rw [hrate]
  exact ⟨text, value, htext, hvalue⟩

/-- The bandwidths of a report are finite exactly where the clock moved. The totals look
whether they have a time to divide by; the intervals and the streams do not. -/
theorem finite_bandwidths_iff {platform : Platform} {env : ℕ → CallbackInput} {test : IperfTest}
    (h : Reports platform env test) : FiniteBandwidths test ↔ ClockMoved test := by
  have hrecords := h.records (durationsRecorded platform)
  constructor
  · intro hfinite
    exact (nonzero_iff hrecords).mp hfinite.nonzero
  · intro hmoved
    have hnonzero := (nonzero_iff hrecords).mpr hmoved
    refine ⟨hnonzero, ?_⟩
    intro hformat hamount reportEnv call hcall bandWidth hbandWidth
    obtain ⟨d, hd, heq⟩ := handsOver_divided reportEnv test call hcall bandWidth hbandWidth
    obtain ⟨a, b, hdistance⟩ := duration_eq hrecords hd
    have hne := hnonzero d hd
    rw [hdistance] at hne
    have hlong : 1 / 1000000 ≤ d.duration := by
      rw [hdistance]
      exact microsecond_le hne
    rw [heq, hformat]
    exact rate_readable (hamount d hd) hlong

instance (test : IperfTest) : Decidable (ClockMoved test) :=
  decidable_of_iff
    ((showsInterval test = true → ∀ irp ∈ lastIntervals test.streams,
        irp.intervalStartTime.toUsecs ≠ irp.intervalEndTime.toUsecs) ∧
      (showsResults test = true → ∀ sp ∈ test.streams.head?,
        sp.result.startTime.toUsecs ≠ sp.result.endTime.toUsecs))
    ⟨fun h => ⟨h.1, h.2⟩, fun h => ⟨h.intervals, h.results⟩⟩

/-- The readings that a turn has for the start of a test. -/
def startReadings (streams : ℕ) (input : TurnInput) : List Timeval :=
  match input.message with
  | none => []
  | some message =>
    message.start.initClock.toList ++ message.start.timersClock.toList ++
      message.start.omitClock.toList ++ (List.range streams).map message.start.streamClock

/-- Those that it has for moving data and for its timers. -/
def roundReadings (test : IperfTest) (input : RoundInput) : List Timeval :=
  (List.range test.multisend).map input.send.clock ++ [input.send.endClock] ++
    (List.range test.streams.length).map (fun i => (input.recv i).arrivalTime) ++ [input.now]

/-- Those of the callbacks between two numbers. -/
def callbackReadings (env : ℕ → CallbackInput) (streams first last : ℕ) : List Timeval :=
  (List.range' first (last - first)).flatMap fun n =>
    (env n).now :: (List.range streams).map fun i => ((env n).samples i).now

/-- All readings of a client's run, in order. -/
def clientReadings (platform : Platform) (env : ℕ → CallbackInput) :
    List TurnInput → Client → List Timeval
  | [], _ => []
  | input :: rest, c =>
    match clientTurn platform env input c with
    | none => []
    | some r =>
      startReadings r.2.2.test.streams.length input ++ roundReadings r.2.2.test input.round ++
        callbackReadings env r.2.2.test.streams.length c.2.calls r.2.2.calls ++
        clientReadings platform env rest r.2

/-- A clock that does not go backwards. -/
def Chronological (readings : List Timeval) : Prop :=
  (readings.map Timeval.toUsecs).Pairwise (· ≤ ·)

instance (readings : List Timeval) : Decidable (Chronological readings) :=
  inferInstanceAs (Decidable (List.Pairwise _ _))

/-- A turn at one reading. -/
def turnAt (now : Timeval) (byte : Option StateByte) : TurnInput where
  message := byte.map fun byte => {
    byte := some byte
    streams := fun _ => ⟨⟨true, some 5, true, true, true, true⟩, ⟨true, some 6, true, none, true⟩⟩
    start := ⟨some now, some now, fun _ => true, none, true, true, fun _ => now, fun _ => true⟩
    sent := true
    peer := none
    cpuUtil := (0, 0, 0) }
  round := {
    send := ⟨fun _ _ => ⟨0, 1000⟩, fun _ => now, now, fun _ => 0⟩
    writeSet := {5}
    recv := fun _ => ⟨0, {}, 0, now⟩
    readSet := ∅
    now := now
    fuel := 9 }
  cpuUtil := (0, 0, 0)
  sent := true

/-- A client of the app with one stream whose first turn in the test comes at a given time. -/
def lateTurns (now : Timeval) : List TurnInput :=
  [turnAt {} (some .createStreams), turnAt {} (some .testStart), turnAt now (some .testRunning)]

/-- Callbacks that all find one reading. -/
def callbacksAt (now : Timeval) : ℕ → CallbackInput :=
  fun _ => ⟨now, fun _ => { now := now }, fun _ => 0, ⟨fun _ => none, 0, fun _ => 0⟩⟩

/-- The tests that were reported. -/
def reported (executions : List Execution) : List IperfTest :=
  executions.filterMap fun
    | .report test _ => some test
    | .stats => none

/-- A test that was reported is that of a report in the log. -/
theorem mem_reported {executions : List Execution} {test : IperfTest}
    (h : test ∈ reported executions) : ∃ output, .report test output ∈ executions := by
  obtain ⟨execution, hmem, heq⟩ := List.mem_filterMap.mp h
  cases execution with
  | stats => cases heq
  | report test' output =>
    cases heq
    exact ⟨output, hmem⟩

/-- A report of a late turn. -/
theorem lateTurns_report {now : Timeval} {p : Client → IperfTest → Bool}
    (h : (clientTurns ⟨true, true, fun _ => rfl⟩ (callbacksAt now) (lateTurns now)
      ({}, { test := newClient 1 })).any (fun c => (reported c.2.executions).any (p c)) = true) :
    ∃ c test output, clientTurns ⟨true, true, fun _ => rfl⟩ (callbacksAt now) (lateTurns now)
        ({}, { test := newClient 1 }) = some c ∧
      .report test output ∈ c.2.executions ∧ p c test = true := by
  obtain ⟨c, hrun, hany⟩ := (Option.any_eq_true _ _).mp h
  obtain ⟨test, hmem, hp⟩ := List.any_eq_true.mp hany
  obtain ⟨output, hreport⟩ := mem_reported hmem
  exact ⟨c, test, output, hrun, hreport, hp⟩

/-- A turn that comes after a second and a half ticks once. -/
theorem lateTurn_finite :
    ∃ test, Reports ⟨true, true, fun _ => rfl⟩ (callbacksAt ⟨1, 500000⟩) test ∧
      divisions test = [⟨10000, 3 / 2⟩] ∧ FiniteBandwidths test := by
  obtain ⟨c, test, output, hrun, hreport, hboth⟩ := @lateTurns_report ⟨1, 500000⟩
    (fun _ test => decide (divisions test = [⟨10000, 3 / 2⟩] ∧ ClockMoved test))
    (by decide +kernel)
  obtain ⟨hdivisions, hmoved⟩ := of_decide_eq_true hboth
  have hreports := Reports.client ⟨rfl, rfl⟩ hrun hreport
  exact ⟨test, hreports, hdivisions, (finite_bandwidths_iff hreports).mpr hmoved⟩

/-- A turn that comes after two seconds ticks twice at one reading, and divides nothing by
no time. -/
theorem lateTurn_divides_by_zero :
    ¬∀ (platform : Platform) (env : ℕ → CallbackInput) (inputs : List TurnInput) (c c' : Client)
      (test : IperfTest) (output : List Output), IdleClient c →
      clientTurns platform env inputs c = some c' → .report test output ∈ c'.2.executions →
      Chronological (clientReadings platform env inputs c) → FiniteBandwidths test := by
  intro hall
  obtain ⟨c, test, output, hrun, hreport, hzero⟩ := @lateTurns_report ⟨2, 0⟩
    (fun _ test => decide (⟨0, 0⟩ ∈ divisions test)) (by decide +kernel)
  have hfinite := hall _ _ _ _ c test output ⟨rfl, rfl⟩ hrun hreport (by decide +kernel)
  exact hfinite.nonzero _ (of_decide_eq_true hzero) rfl

end IperfRuntime.BandwidthDivisions
