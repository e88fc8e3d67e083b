import IperfRuntime.TimerEntries
import Mathlib.Data.Set.Card

/-!
# What a run of the timer queue calls

`tmr_run` with callbacks that leave the lists alone. Every call of a periodic timer takes
one of the periods that are due off it, so the periods due on the whole list bound the run,
although a timer that was moved behind the pointer is visited again. Callbacks that create
or cancel timers are excluded here.
-/

namespace IperfRuntime.TimerRuns

open ClockReading StableInsertion TimerQueue TimerPairs TimerEntries

variable {α σ : Type*}

/-- The loop of `tmr_run` with the timers it calls, each as it is at its call. -/
def tmrRunCalls (call : α → Timeval → TimerLists α × σ → TimerLists α × σ) (now : Timeval) :
    ℕ → Option ℕ → TimerLists α × σ → Option (List (Timer α) × (TimerLists α × σ))
  | 0, _, _ => none
  | _ + 1, none, w => some ([], w)
  | fuel + 1, some t, w =>
    match w.1.find t with
    | none => some ([], w)
    | some timer =>
      if now < timer.time then some ([], w)
      else
        let w' := call timer.proc now w
        (tmrRunCalls call now fuel (nextOf t w.1.timers) (finishTimer t w'.1, w'.2)).map fun r =>
          (timer :: r.1, r.2)

variable {call : α → Timeval → TimerLists α × σ → TimerLists α × σ} {now : Timeval}

/-- Keeping the calls changes nothing. -/
theorem tmrRunCalls_run (fuel : ℕ) (t : Option ℕ) (w : TimerLists α × σ) :
    (tmrRunCalls call now fuel t w).map Prod.snd = tmrRunFrom call now fuel t w := by
  induction fuel generalizing t w with
  | zero => rfl
  | succ fuel ih =>
    cases t with
    | none => rfl
    | some t =>
      rw [tmrRunCalls, tmrRunFrom]
      cases hfind : w.1.find t with
      | none => rfl
      | some timer =>
        dsimp only
        split
        · rfl
        · rw [Option.map_map]
          exact ih _ _

/-- When a timer is due after a number of periods. -/
def scheduled (t : Timer α) (k : ℕ) : Timeval := (fun time => addUsecs time t.usecs)^[k] t.time

/-- A timer behind one period. -/
def moved (t : Timer α) : Timer α := { t with time := addUsecs t.time t.usecs }

/-- How many periods of a timer are due; a timer that does not repeat has one. -/
noncomputable def periodsDue (now : Timeval) (t : Timer α) : ℕ :=
  if t.periodic then {k | scheduled t k ≤ now}.ncard else if t.time ≤ now then 1 else 0

/-- The periods due of all active timers. -/
noncomputable def totalDue (now : Timeval) (q : TimerLists α) : ℕ :=
  (q.timers.map (periodsDue now)).sum

variable {t : Timer α} {k : ℕ}

/-- The schedule of a timer goes on from where it has been moved to. -/
theorem scheduled_succ (t : Timer α) (k : ℕ) : scheduled t (k + 1) = scheduled (moved t) k :=
  Function.iterate_succ_apply _ k t.time

/-- Each time of a schedule lies one period after the one before. -/
theorem scheduled_succ' (t : Timer α) (k : ℕ) :
    scheduled t (k + 1) = addUsecs (scheduled t k) t.usecs :=
  Function.iterate_succ_apply' _ k t.time

/-- In microseconds a schedule is an arithmetic progression. -/
theorem toUsecs_scheduled (hu : 0 ≤ t.usecs) (k : ℕ) :
    (scheduled t k).toUsecs = t.time.toUsecs + k * t.usecs := by
  induction k with
  | zero => simp [scheduled]
  | succ k ih =>
    rw [scheduled_succ', toUsecs_addUsecs _ hu, ih]
    push_cast
    ring

/-- No time of the schedule lies before the first. -/
theorem time_le_scheduled (hu : 0 < t.usecs) (k : ℕ) : t.time ≤ scheduled t k := by
  induction k with
  | zero => exact le_refl _
  | succ k ih =>
    rw [scheduled_succ']
    exact ih.trans (lt_addUsecs _ hu).le

/-- The periods that are due are bounded. -/
theorem finite_due (now : Timeval) (hu : 0 < t.usecs) : {k | scheduled t k ≤ now}.Finite := by
  refine (Set.finite_le_nat ((now.tvSec + 1) * 1000000 - t.time.toUsecs).toNat).subset ?_
  intro k hk
  cases k with
  | zero => exact Nat.zero_le _
  | succ k =>
    have hdue : scheduled t (k + 1) ≤ now := hk
    have hvalue := toUsecs_scheduled hu.le (k + 1)
    have hsec : (scheduled t (k + 1)).tvSec ≤ now.tvSec := by
      rcases hdue with h | ⟨h, -⟩
      · exact h.le
      · exact h.le
    have husec : (scheduled t (k + 1)).tvUsec < 1000000 := by
      rw [scheduled_succ']
      exact addUsecs_tvUsec _ _
    have hperiods : ((k + 1 : ℕ) : ℤ) ≤ (k + 1 : ℕ) * t.usecs :=
      le_mul_of_one_le_right (Int.natCast_nonneg _) hu
    have hbound : ((k + 1 : ℕ) : ℤ) ≤ (now.tvSec + 1) * 1000000 - t.time.toUsecs := by
      unfold Timeval.toUsecs at hvalue ⊢
      omega
    exact (Int.le_toNat (by omega)).mpr hbound

/-- A call takes one period. -/
theorem periodsDue_moved (hperiodic : t.periodic = true) (hu : 0 < t.usecs)
    (hdue : t.time ≤ now) : periodsDue now t = periodsDue now (moved t) + 1 := by
  have hsplit : {k | scheduled t k ≤ now} =
      insert 0 (Nat.succ '' {k | scheduled (moved t) k ≤ now}) := by
    ext k
    cases k with
    | zero => simp [scheduled, hdue]
    | succ k => simp [scheduled_succ]
  have hfinite : {k | scheduled (moved t) k ≤ now}.Finite := finite_due now hu
  have hmoved : (moved t).periodic = true := hperiodic
  unfold periodsDue
  rw [if_pos hperiodic, if_pos hmoved, hsplit,
    Set.ncard_insert_of_notMem (by simp) (hfinite.image _),
    Set.ncard_image_of_injective _ Nat.succ_injective]

/-- A timer that is not due has no period due. -/
theorem periodsDue_early (hu : t.periodic = true → 0 < t.usecs) (hearly : now < t.time) :
    periodsDue now t = 0 := by
  unfold periodsDue
  split
  · rename_i hperiodic
    have hnone : {k | scheduled t k ≤ now} = ∅ := by
      refine Set.eq_empty_iff_forall_notMem.mpr fun k hk => ?_
      exact absurd (hearly.trans_le ((time_le_scheduled (hu hperiodic) k).trans hk)) (lt_irrefl _)
    rw [hnone, Set.ncard_empty]
  · rw [if_neg (not_le.mpr hearly)]

/-- Periodic timers have a positive period. -/
def PositivePeriods (l : List (Timer α)) : Prop := ∀ t ∈ l, t.periodic = true → 0 < t.usecs

variable {q : TimerLists α} {pre post : List (Timer α)}

/-- Behind its call a periodic timer moves, and what stood behind it is still behind the
pointer. -/
theorem finish_periodic (hq : q.Valid) (hparts : q.timers = pre ++ t :: post)
    (hperiodic : t.periodic = true) :
    finishTimer t.address q =
        { q with timers := insertStable Timer.time (moved t) (pre ++ post) } ∧
      ∃ pre' post', insertStable Timer.time (moved t) (pre ++ post) = pre' ++ post' ∧
        post'.head? = post.head? ∧ post ⊆ post' := by
  constructor
  · have hmem : t ∈ q.timers := by
      rw [hparts]
      exact List.mem_append_right _ List.mem_cons_self
    have hremove : listRemove (moved t).address q.timers = pre ++ post := by
      rw [hparts]
      exact listRemove_parts (t := t) (hparts ▸ hq.nodup_active)
    have hresort : listResort (moved t) q.timers =
        insertStable Timer.time (moved t) (pre ++ post) := by
      rw [listResort, hremove, listAdd_eq]
    unfold finishTimer
    rw [hq.find_eq hmem]
    dsimp only
    rw [if_pos hperiodic]
    exact congrArg (fun timers => { q with timers := timers }) hresort
  · rcases @insertStable_append _ _ _ Timer.time (moved t) pre post with ⟨pre', h⟩ | ⟨post', h⟩
    · exact ⟨pre', post, h, rfl, List.Subset.refl _⟩
    · exact ⟨pre, post', h⟩

/-- Any other timer goes to the free list. -/
theorem finish_once (hq : q.Valid) (hparts : q.timers = pre ++ t :: post)
    (honce : t.periodic = false) :
    finishTimer t.address q =
      { q with timers := pre ++ post, freeTimers := t.address :: q.freeTimers } := by
  have hmem : t ∈ q.timers := (mem_parts hparts).mpr (Or.inl rfl)
  unfold finishTimer tmrCancel
  rw [hq.find_eq hmem, hparts, listRemove_parts (hparts ▸ hq.nodup_active)]
  dsimp only
  rw [if_neg (by rw [honce]; exact Bool.false_ne_true)]

/-- What the loop calls from a pointer to the given part of the list on. -/
structure CallsFrom (now : Timeval) (q q' : TimerLists α) (post calls : List (Timer α)) :
    Prop where
  valid : q'.Valid
  due : ∀ c ∈ calls, c.time ≤ now
  active : ∀ c ∈ calls, ∃ t ∈ q.timers,
    c.address = t.address ∧ c.proc = t.proc ∧ c.usecs = t.usecs ∧ c.periodic = t.periodic
  called : ∀ t ∈ post, t.time ≤ now → t.address ∈ addresses calls
  first : ∀ t ∈ post.head?, t.time ≤ now → calls.head? = some t
  periods : ∀ t ∈ q.timers, (addresses calls).count t.address ≤ periodsDue now t
  freed : ∀ c ∈ calls, c.periodic = false → c.address ∈ q'.freeTimers
  kept : q.freeTimers ⊆ q'.freeTimers

/-- A loop that stops at once. -/
theorem callsFrom_nil (hq : q.Valid) (hnone : ∀ t ∈ post, now < t.time) :
    CallsFrom now q q post [] where
  valid := hq
  due := fun _ h => absurd h List.not_mem_nil
  active := fun _ h => absurd h List.not_mem_nil
  called := fun t ht hdue => absurd (hnone t ht) (not_lt.mpr hdue)
  first := fun t ht hdue => absurd (hnone t (List.mem_of_mem_head? ht)) (not_lt.mpr hdue)
  periods := fun _ _ => Nat.zero_le _
  freed := fun _ h => absurd h List.not_mem_nil
  kept := List.Subset.refl _

/-- Only timers of the list are called. -/
theorem addresses_called {q' : TimerLists α} {calls : List (Timer α)}
    (h : CallsFrom now q q' post calls) : addresses calls ⊆ addresses q.timers := by
  intro a ha
  obtain ⟨c, hc, rfl⟩ := List.mem_map.mp ha
  obtain ⟨u, hu, hsame, -⟩ := h.active c hc
  rw [hsame]
  exact List.mem_map_of_mem hu

/-- A call in front of the others, behind which the other timers are still there, takes one
period off what is due. -/
theorem CallsFrom.cons {q₁ q' : TimerLists α} {post' calls : List (Timer α)} (hq : q.Valid)
    (hmem : t ∈ q.timers) (hdue : t.time ≤ now)
    (hsame : ∀ c ∈ q₁.timers, ∃ u ∈ q.timers,
      c.address = u.address ∧ c.proc = u.proc ∧ c.usecs = u.usecs ∧ c.periodic = u.periodic)
    (hothers : ∀ u ∈ q.timers, t ≠ u → u ∈ q₁.timers)
    (hself : (addresses calls).count t.address + 1 ≤ periodsDue now t)
    (hfreed : t.periodic = false → t.address ∈ q'.freeTimers)
    (hkept : q.freeTimers ⊆ q'.freeTimers) (hsub : post ⊆ post')
    (h : CallsFrom now q₁ q' post' calls) : CallsFrom now q q' (t :: post) (t :: calls) := by
  refine ⟨h.valid, List.forall_mem_cons.mpr ⟨hdue, h.due⟩, ?_, ?_, fun _ hhead _ => hhead, ?_,
    List.forall_mem_cons.mpr ⟨hfreed, h.freed⟩, hkept⟩
  · refine List.forall_mem_cons.mpr ⟨⟨t, hmem, rfl, rfl, rfl, rfl⟩, fun c hc => ?_⟩
    obtain ⟨u, hu, haddress, hproc, husecs, hperiodic⟩ := h.active c hc
    obtain ⟨v, hv, haddress', hproc', husecs', hperiodic'⟩ := hsame u hu
    exact ⟨v, hv, haddress.trans haddress', hproc.trans hproc', husecs.trans husecs',
      hperiodic.trans hperiodic'⟩
  · intro u hu hduring
    rcases List.mem_cons.mp hu with rfl | hu
    · exact List.mem_cons_self
    · exact List.mem_cons_of_mem _ (h.called u (hsub hu) hduring)
  · intro u hmemu
    rw [addresses, List.map_cons, List.count_cons]
    by_cases haddress : t.address = u.address
    · obtain rfl := hq.eq_of_address hmem hmemu haddress
      rw [if_pos (by simp)]
      exact hself
    · rw [if_neg (by simpa using haddress), Nat.add_zero]
      exact h.periods u (hothers u hmemu fun he => haddress (congrArg _ he))

/-- The call of a periodic timer in front of the others. -/
theorem CallsFrom.periodic {q₁ q' : TimerLists α} {post' calls : List (Timer α)} (hq : q.Valid)
    (hu : PositivePeriods q.timers) (hparts : q.timers = pre ++ t :: post)
    (hperiodic : t.periodic = true) (hdue : t.time ≤ now)
    (hq₁ : q₁ = { q with timers := insertStable Timer.time (moved t) (pre ++ post) })
    (hsub : post ⊆ post') (h : CallsFrom now q₁ q' post' calls) :
    CallsFrom now q q' (t :: post) (t :: calls) := by
  subst hq₁
  have hmem : t ∈ q.timers := (mem_parts hparts).mpr (Or.inl rfl)
  refine h.cons hq hmem hdue ?_ ?_ ?_ ?_ h.kept hsub
  · intro c hc
    rcases mem_insertStable.mp hc with rfl | hc
    · exact ⟨t, hmem, rfl, rfl, rfl, rfl⟩
    · exact ⟨c, (mem_parts hparts).mpr (Or.inr hc), rfl, rfl, rfl, rfl⟩
  · intro u hmemu hne
    exact mem_insertStable.mpr (Or.inr (((mem_parts hparts).mp hmemu).resolve_left hne.symm))
  · have hmoved := h.periods (moved t) (mem_insertStable.mpr (Or.inl rfl))
    rw [periodsDue_moved hperiodic (hu t hmem hperiodic) hdue]
    exact Nat.succ_le_succ hmoved
  · intro honce
    rw [hperiodic] at honce
    cases honce

/-- The call of any other timer in front of the others. -/
theorem CallsFrom.once {q₁ q' : TimerLists α} {calls : List (Timer α)} (hq : q.Valid)
    (hparts : q.timers = pre ++ t :: post) (honce : t.periodic = false) (hdue : t.time ≤ now)
    (hq₁ : q₁ = { q with timers := pre ++ post, freeTimers := t.address :: q.freeTimers })
    (h : CallsFrom now q₁ q' post calls) : CallsFrom now q q' (t :: post) (t :: calls) := by
  have hcalled := addresses_called h
  subst hq₁
  have hmem : t ∈ q.timers := (mem_parts hparts).mpr (Or.inl rfl)
  refine h.cons hq hmem hdue ?_ ?_ ?_ (fun _ => h.kept List.mem_cons_self)
    (fun _ ha => h.kept (List.mem_cons_of_mem _ ha)) (List.Subset.refl _)
  · exact fun c hc => ⟨c, (mem_parts hparts).mpr (Or.inr hc), rfl, rfl, rfl, rfl⟩
  · exact fun u hmemu hne => ((mem_parts hparts).mp hmemu).resolve_left hne.symm
  · obtain ⟨hpre, hpost⟩ := not_mem_parts (hparts ▸ hq.nodup_active)
    have hnone : t.address ∉ addresses calls := by
      intro hcall
      have hactive := hcalled hcall
      rw [addresses, List.map_append] at hactive
      exact (List.mem_append.mp hactive).elim hpre hpost
    unfold periodsDue
    rw [List.count_eq_zero.mpr hnone, if_neg (by rw [honce]; exact Bool.false_ne_true),
      if_pos hdue]

/-- The calls that are due are those of one timer and those of the others. -/
theorem totalDue_parts (hparts : q.timers = pre ++ t :: post) :
    totalDue now q = periodsDue now t + ((pre ++ post).map (periodsDue now)).sum := by
  have hperm : q.timers.Perm (t :: (pre ++ post)) := by
    rw [hparts]
    exact List.perm_middle
  unfold totalDue
  rw [(hperm.map _).sum_eq, List.map_cons, List.sum_cons]

/-- Moving a periodic timer on by a period takes one due call away. -/
theorem totalDue_periodic (hparts : q.timers = pre ++ t :: post) (hperiodic : t.periodic = true)
    (hu : 0 < t.usecs) (hdue : t.time ≤ now) :
    totalDue now q =
      totalDue now { q with timers := insertStable Timer.time (moved t) (pre ++ post) } + 1 := by
  rw [totalDue_parts hparts, periodsDue_moved hperiodic hu hdue]
  unfold totalDue
  rw [((insertStable_perm (moved t) (pre ++ post)).map _).sum_eq, List.map_cons, List.sum_cons]
  omega

/-- So does retiring a timer that is not periodic. -/
theorem totalDue_once (hparts : q.timers = pre ++ t :: post) (honce : t.periodic = false)
    (hdue : t.time ≤ now) (freeTimers : List ℕ) :
    totalDue now q =
      totalDue now { q with timers := pre ++ post, freeTimers := freeTimers } + 1 := by
  rw [totalDue_parts hparts]
  unfold totalDue periodsDue
  rw [honce, if_neg Bool.false_ne_true, if_pos hdue]
  exact Nat.add_comm _ _

/-- The loop from any pointer on, with any fuel beyond the periods that are due, comes to its
end. The induction is on what is due on the whole list. -/
theorem runs_from (hquiet : ∀ proc w, (call proc now w).1 = w.1) (n : ℕ) {q : TimerLists α}
    (s : σ) {pre post : List (Timer α)} (hq : q.Valid) (hu : PositivePeriods q.timers)
    (hparts : q.timers = pre ++ post) (hn : totalDue now q = n) :
    ∃ calls w', CallsFrom now q w'.1 post calls ∧ ∀ fuel, n < fuel →
      tmrRunCalls call now fuel (post.head?.map Timer.address) (q, s) = some (calls, w') := by
  induction n using Nat.strong_induction_on generalizing q s pre post with
  | _ n ih =>
    cases post with
    | nil =>
      refine ⟨[], (q, s), callsFrom_nil hq (by simp), fun fuel hfuel => ?_⟩
      obtain ⟨fuel, rfl⟩ := Nat.exists_eq_succ_of_ne_zero (Nat.ne_zero_of_lt hfuel)
      rfl
    | cons t post =>
      have hmem : t ∈ q.timers := (mem_parts hparts).mpr (Or.inl rfl)
      by_cases hdue : now < t.time
      · refine ⟨[], (q, s), callsFrom_nil hq (List.forall_mem_cons.mpr ⟨hdue, ?_⟩), ?_⟩
        · intro u hu
          have hordered := hq.ordered
          rw [hparts] at hordered
          have htail := (List.pairwise_append.mp hordered).2.1
          exact hdue.trans_le ((List.pairwise_cons.mp htail).1 u hu)
        · intro fuel hfuel
          obtain ⟨fuel, rfl⟩ := Nat.exists_eq_succ_of_ne_zero (Nat.ne_zero_of_lt hfuel)
          dsimp only [List.head?_cons, Option.map_some]
          rw [tmrRunCalls, hq.find_eq hmem]
          dsimp only
          rw [if_pos hdue]
      · have hnext : nextOf t.address q.timers = post.head?.map Timer.address := by
          rw [hparts]
          exact nextOf_parts (hparts ▸ hq.nodup_active)
        have hcall : call t.proc now (q, s) = (q, (call t.proc now (q, s)).2) :=
          Prod.ext (hquiet _ _) rfl
        have hafter : ∀ {q₁ calls w'}, finishTimer t.address q = q₁ →
            totalDue now q = totalDue now q₁ + 1 →
            (∀ fuel, totalDue now q₁ < fuel → tmrRunCalls call now fuel
              (post.head?.map Timer.address) (q₁, (call t.proc now (q, s)).2) = some (calls, w')) →
            ∀ fuel, n < fuel → tmrRunCalls call now fuel (some t.address) (q, s) =
              some (t :: calls, w') := by
          rintro q₁ calls w' rfl htotal hrest fuel hfuel
          obtain ⟨fuel, rfl⟩ := Nat.exists_eq_succ_of_ne_zero (Nat.ne_zero_of_lt hfuel)
          rw [tmrRunCalls, hq.find_eq hmem]
          dsimp only
          rw [if_neg hdue, hnext, hquiet, hrest fuel (by omega)]
          rfl
        have hvalid := hq.finish t.address
        cases hperiodic : t.periodic with
        | true =>
          obtain ⟨hfinish, pre', post', hsplit, hhead, hsub⟩ := finish_periodic hq hparts hperiodic
          have htotal := totalDue_periodic hparts hperiodic (hu t hmem hperiodic) (not_lt.mp hdue)
          have hu' : PositivePeriods (insertStable Timer.time (moved t) (pre ++ post)) := by
            intro u humem huperiodic
            rcases mem_insertStable.mp humem with rfl | humem
            · exact hu t hmem hperiodic
            · exact hu u ((mem_parts hparts).mpr (Or.inr humem)) huperiodic
          rw [hfinish] at hvalid
          obtain ⟨calls, w', hcalls, hrest⟩ := ih _ (by omega) (call t.proc now (q, s)).2 hvalid hu'
            hsplit rfl
          rw [hhead] at hrest
          exact ⟨t :: calls, w', hcalls.periodic hq hu hparts hperiodic (not_lt.mp hdue) rfl hsub,
            hafter hfinish htotal hrest⟩
        | false =>
          have hfinish := finish_once hq hparts hperiodic
          have htotal := totalDue_once hparts hperiodic (not_lt.mp hdue) (t.address :: q.freeTimers)
          have hu' : PositivePeriods (pre ++ post) :=
            fun u humem => hu u ((mem_parts hparts).mpr (Or.inr humem))
          rw [hfinish] at hvalid
          obtain ⟨calls, w', hcalls, hrest⟩ := ih _ (by omega) (call t.proc now (q, s)).2 hvalid hu'
            rfl rfl
          exact ⟨t :: calls, w', hcalls.once hq hparts hperiodic (not_lt.mp hdue) rfl,
            hafter hfinish htotal hrest⟩

/-- What `tmr_run` calls and what it leaves. -/
structure Fires (now : Timeval) (q q' : TimerLists α) (calls : List (Timer α)) : Prop where
  /-- A call is for an active timer, at a time that has come. -/
  due : ∀ c ∈ calls, c.time ≤ now
  active : ∀ c ∈ calls, ∃ t ∈ q.timers,
    c.address = t.address ∧ c.proc = t.proc ∧ c.usecs = t.usecs ∧ c.periodic = t.periodic
  /-- Whatever was due is called. -/
  called : ∀ t ∈ q.timers, t.time ≤ now → 1 ≤ (addresses calls).count t.address
  /-- A timer that does not repeat is called once, and is free afterwards. -/
  once : ∀ t ∈ q.timers, t.time ≤ now → t.periodic = false →
    (addresses calls).count t.address = 1 ∧ t.address ∈ q'.freeTimers ∧
      t.address ∉ addresses q'.timers
  /-- A timer that repeats is called for periods that are due. -/
  periods : ∀ t ∈ q.timers, t.periodic = true →
    (addresses calls).count t.address ≤ {k | scheduled t k ≤ now}.ncard
  notDue : ∀ t ∈ q.timers, now < t.time → (addresses calls).count t.address = 0

/-- The calls of a whole walk are those that are due: each timer as often as its periods fit,
at its own times. -/
theorem CallsFrom.fires {q' : TimerLists α} {calls : List (Timer α)} (hq : q.Valid)
    (hu : PositivePeriods q.timers) (h : CallsFrom now q q' q.timers calls) :
    Fires now q q' calls where
  due := h.due
  active := h.active
  called := fun t ht hdue => List.one_le_count_iff.mpr (h.called t ht hdue)
  once := by
    intro t ht hdue honce
    have hcalled := h.called t ht hdue
    have hcount := h.periods t ht
    unfold periodsDue at hcount
    rw [honce, if_neg Bool.false_ne_true, if_pos hdue] at hcount
    have hfree : t.address ∈ q'.freeTimers := by
      obtain ⟨c, hc, hsame⟩ := List.mem_map.mp hcalled
      obtain ⟨u, humem, haddress, -, -, hkind⟩ := h.active c hc
      obtain rfl := hq.eq_of_address ht humem (hsame.symm.trans haddress)
      rw [← hsame]
      exact h.freed c hc (hkind.trans honce)
    refine ⟨le_antisymm hcount (List.one_le_count_iff.mpr hcalled), hfree, fun hactive => ?_⟩
    exact (List.nodup_append.mp h.valid.nodup).2.2 _ hactive _ hfree rfl
  periods := by
    intro t ht hperiodic
    have hcount := h.periods t ht
    unfold periodsDue at hcount
    rwa [if_pos hperiodic] at hcount
  notDue := by
    intro t ht hearly
    have hcount := h.periods t ht
    rw [periodsDue_early (hu t ht) hearly] at hcount
    exact Nat.le_zero.mp hcount

/-- `tmr_run` with the timers it calls. -/
def tmrCalls (call : α → Timeval → TimerLists α × σ → TimerLists α × σ) (now : Timeval)
    (fuel : ℕ) (w : TimerLists α × σ) : Option (List (Timer α) × (TimerLists α × σ)) :=
  tmrRunCalls call now fuel (w.1.timers.head?.map Timer.address) w

/-- With its calls recorded, `tmr_run` does what it does without. -/
theorem tmrCalls_run (fuel : ℕ) (w : TimerLists α × σ) :
    (tmrCalls call now fuel w).map Prod.snd = tmrRun call now fuel w :=
  tmrRunCalls_run fuel _ w

/-- Behind the timeout the first timer is due. -/
theorem timeout_due {now₀ d : Timeval}
    (htimes : ∀ t ∈ q.timers, t.time.Normalised) (htimeout : tmrTimeout q now₀ = some d)
    (hnow : now.Normalised) (hsum : now.toUsecs = now₀.toUsecs + d.toUsecs) :
    ∃ t, q.timers.head? = some t ∧ t.time ≤ now := by
  obtain ⟨t, hhead, hd⟩ := Option.map_eq_some_iff.mp htimeout
  refine ⟨t, hhead, ?_⟩
  rw [← not_lt, Timeval.lt_iff_toUsecs hnow (htimes t (List.mem_of_mem_head? hhead)), hsum, ← hd]
  dsimp only
  have hparts : ∀ usecs : ℤ, 0 ≤ usecs →
      (⟨usecs.tdiv 1000000, usecs.tmod 1000000⟩ : Timeval).toUsecs = usecs := by
    intro usecs husecs
    unfold Timeval.toUsecs
    exact Int.tdiv_mul_add_tmod usecs 1000000
  unfold Timeval.toUsecs at hparts ⊢
  split
  · rw [hparts 0 (le_refl _)]
    omega
  · rename_i hlate
    rw [hparts _ (by omega)]
    omega

/-- Without callbacks that change the lists, `tmr_run` comes back, with the same result for
every fuel beyond the periods that are due; it calls what is due as often as it is due, and at
the end of a timeout the first timer of the list. -/
theorem tmrRun_fires (s : σ) (hq : q.Valid) (hu : PositivePeriods q.timers)
    (hquiet : ∀ proc now w, (call proc now w).1 = w.1) :
    (∀ now, ∃ calls w', Fires now q w'.1 calls ∧ ∀ fuel, totalDue now q < fuel →
      tmrCalls call now fuel (q, s) = some (calls, w') ∧
        tmrRun call now fuel (q, s) = some w') ∧
    ∀ now₀ d now, (∀ t ∈ q.timers, t.time.Normalised) → now.Normalised →
      tmrTimeout q now₀ = some d → now.toUsecs = now₀.toUsecs + d.toUsecs →
      ∃ t calls w', q.timers.head? = some t ∧ calls.head? = some t ∧
        ∀ fuel, totalDue now q < fuel → tmrCalls call now fuel (q, s) = some (calls, w') := by
  constructor
  · intro now
    obtain ⟨calls, w', hcalls, hrun⟩ :=
      runs_from (hquiet · now ·) (totalDue now q) s hq hu (List.nil_append _).symm rfl
    refine ⟨calls, w', hcalls.fires hq hu, fun fuel hfuel => ⟨hrun fuel hfuel, ?_⟩⟩
    rw [← tmrCalls_run, tmrCalls, hrun fuel hfuel]
    rfl
  · intro now₀ d now htimes hnow htimeout hsum
    obtain ⟨t, hhead, hdue⟩ := timeout_due htimes htimeout hnow hsum
    obtain ⟨calls, w', hcalls, hrun⟩ :=
      runs_from (hquiet · now ·) (totalDue now q) s hq hu (List.nil_append _).symm rfl
    exact ⟨t, calls, w', hhead, hcalls.first t hhead hdue, hrun⟩

/-- A timer for every second and one for a single call. -/
def twoTimers : TimerLists Unit where
  timers := [⟨0, (), 1000000, true, ⟨1, 0⟩⟩, ⟨1, (), 1500000, false, ⟨1, 500000⟩⟩]
  allocated := 2

/-- They run. -/
theorem twoTimers_fire :
    (∃ calls w', Fires ⟨3, 0⟩ twoTimers w'.1 calls ∧
      ∃ fuel, tmrRun (fun _ _ w => w) ⟨3, 0⟩ fuel (twoTimers, ()) = some w') ∧
    ∃ calls : List (Timer Unit), calls.head? = twoTimers.timers.head? ∧
      ∃ w' fuel, tmrCalls (fun _ _ w => w) ⟨1, 0⟩ fuel (twoTimers, ()) = some (calls, w') := by
  have hvalid : twoTimers.Valid := ⟨List.Perm.refl _, by unfold Ordered; decide⟩
  have hperiods : PositivePeriods twoTimers.timers := by
    unfold PositivePeriods
    decide
  have htimes : ∀ t ∈ twoTimers.timers, t.time.Normalised := by
    unfold Timeval.Normalised
    decide
  obtain ⟨hfires, htimeout⟩ := @tmrRun_fires Unit Unit (fun _ _ w => w) twoTimers () hvalid hperiods
    fun _ _ _ => rfl
  obtain ⟨calls, w', hcalls, hrun⟩ := hfires ⟨3, 0⟩
  refine ⟨⟨calls, w', hcalls, _, (hrun _ (Nat.lt_succ_self _)).2⟩, ?_⟩
  obtain ⟨t, calls, w', hhead, hfirst, hrun⟩ := htimeout ⟨0, 250000⟩ ⟨0, 750000⟩ ⟨1, 0⟩
    htimes ⟨by decide, by decide⟩ (by decide) (by decide)
  exact ⟨calls, hfirst.trans hhead.symm, w', _, hrun _ (Nat.lt_succ_self _)⟩

end IperfRuntime.TimerRuns
