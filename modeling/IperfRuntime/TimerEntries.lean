import IperfRuntime.TimerPairs

/-!
# Active timers

Who is on the active list, apart from due times: an address with its callback and
whether it repeats. Rescheduling changes no entry, creation adds one, cancellation
removes one, and `tmr_run` keeps what a callback with its rescheduling keeps.
-/

namespace IperfRuntime.TimerEntries

open ClockReading TimerQueue TimerPairs

variable {α σ : Type*} {q : TimerLists α} {a : ℕ} {proc : α} {periodic : Bool}

section Parts

variable {t : Timer α} {pre post : List (Timer α)}

/-- The timers of a list are a given one and the others. -/
theorem mem_parts (hparts : q.timers = pre ++ t :: post) {u : Timer α} :
    u ∈ q.timers ↔ u = t ∨ u ∈ pre ++ post := by
  rw [hparts, List.mem_append, List.mem_cons, List.mem_append]
  tauto

/-- A timer's address occurs only once in the list. -/
theorem not_mem_parts (hnodup : (addresses (pre ++ t :: post)).Nodup) :
    t.address ∉ addresses pre ∧ t.address ∉ addresses post := by
  rw [addresses, List.map_append, List.map_cons] at hnodup
  obtain ⟨-, htail, hcross⟩ := List.nodup_append.mp hnodup
  exact ⟨fun hmem => hcross _ hmem _ List.mem_cons_self rfl, (List.nodup_cons.mp htail).1⟩

/-- The list without one of its timers. -/
theorem listRemove_parts (hnodup : (addresses (pre ++ t :: post)).Nodup) :
    listRemove t.address (pre ++ t :: post) = pre ++ post := by
  obtain ⟨hpre, hpost⟩ := not_mem_parts hnodup
  have hkeep : ∀ l : List (Timer α), t.address ∉ addresses l → listRemove t.address l = l := by
    intro l hl
    refine List.filter_eq_self.mpr fun u hu => decide_eq_true ?_
    rintro hsame
    exact hl (hsame ▸ List.mem_map_of_mem hu)
  have hsplit : listRemove t.address (pre ++ t :: post) =
      listRemove t.address pre ++ listRemove t.address post := by
    unfold listRemove
    rw [List.filter_append, List.filter_cons_of_neg (by simp)]
  rw [hsplit, hkeep pre hpre, hkeep post hpost]

/-- The next timer is the head of what stands behind it. -/
theorem nextOf_parts (hnodup : (addresses (pre ++ t :: post)).Nodup) :
    nextOf t.address (pre ++ t :: post) = post.head?.map Timer.address := by
  rw [nextOf_append (not_mem_parts hnodup).1, nextOf, if_pos rfl]

end Parts

/-- A timer with this address, callback and kind is active. -/
def Active (q : TimerLists α) (a : ℕ) (proc : α) (periodic : Bool) : Prop :=
  ∃ t ∈ q.timers, t.address = a ∧ t.proc = proc ∧ t.periodic = periodic

/-- A timer in the list is active. -/
theorem active_of_mem {t : Timer α} (h : t ∈ q.timers) : Active q t.address t.proc t.periodic :=
  ⟨t, h, rfl, rfl, rfl⟩

/-- An address determines its callback. -/
theorem Active.proc_eq (hq : q.Valid) {proc' : α} {periodic' : Bool} (h : Active q a proc periodic)
    (h' : Active q a proc' periodic') : proc = proc' := by
  obtain ⟨t, ht, ha, hp, -⟩ := h
  obtain ⟨u, hu, ha', hp', -⟩ := h'
  have htu : t = u := hq.eq_of_address ht hu (by rw [ha, ha'])
  rw [← hp, ← hp', htu]

/-- Moving a timer to another time changes no entry. -/
theorem active_resort (hq : q.Valid) {t : Timer α} (ht : t ∈ q.timers) (time : Timeval) :
    Active { q with timers := listResort { t with time := time } q.timers } a proc periodic ↔
      Active q a proc periodic := by
  constructor
  · rintro ⟨u, hu, ha, hp, hper⟩
    rw [mem_listResort] at hu
    rcases hu with rfl | ⟨hu, -⟩
    · exact ⟨t, ht, ha, hp, hper⟩
    · exact ⟨u, hu, ha, hp, hper⟩
  · rintro ⟨u, hu, ha, hp, hper⟩
    by_cases hut : u.address = t.address
    · have heq : u = t := hq.eq_of_address hu ht hut
      refine ⟨{ t with time := time }, ?_, ?_⟩
      · rw [mem_listResort]
        exact Or.inl rfl
      · rw [← heq]
        exact ⟨ha, hp, hper⟩
    · refine ⟨u, ?_, ha, hp, hper⟩
      rw [mem_listResort]
      exact Or.inr ⟨hu, hut⟩

/-- A reset changes no timer's activity. -/
theorem active_reset (hq : q.Valid) (now : Timeval) (t : ℕ) :
    Active (tmrReset now t q) a proc periodic ↔ Active q a proc periodic := by
  unfold tmrReset
  split
  · rename_i timer hf
    exact active_resort hq (TimerLists.find_some hf).1 _
  · exact Iff.rfl

/-- A cancellation ends the activity of that timer only. -/
theorem active_cancel (t : ℕ) :
    Active (tmrCancel t q) a proc periodic ↔ Active q a proc periodic ∧ a ≠ t := by
  constructor
  · rintro ⟨u, hu, ha, hp, hper⟩
    obtain ⟨hu, hne⟩ := mem_listRemove.mp hu
    rw [ha] at hne
    exact ⟨⟨u, hu, ha, hp, hper⟩, hne⟩
  · rintro ⟨⟨u, hu, ha, hp, hper⟩, hne⟩
    rw [← ha] at hne
    exact ⟨u, mem_listRemove.mpr ⟨hu, hne⟩, ha, hp, hper⟩

/-- Behind its callback a periodic timer stays and any other one goes. -/
theorem active_finish (hq : q.Valid) {t : Timer α} (ht : t ∈ q.timers) :
    Active (finishTimer t.address q) a proc periodic ↔
      Active q a proc periodic ∧ (t.periodic = true ∨ a ≠ t.address) := by
  unfold finishTimer
  rw [hq.find_eq ht]
  dsimp only
  by_cases hper : t.periodic = true
  · rw [if_pos hper, active_resort hq ht]
    exact ⟨fun h => ⟨h, Or.inl hper⟩, fun h => h.1⟩
  · rw [if_neg hper, active_cancel]
    constructor
    · rintro ⟨h, hne⟩
      exact ⟨h, Or.inr hne⟩
    · rintro ⟨h, hor⟩
      exact ⟨h, hor.resolve_left hper⟩

/-- Creation adds one entry, or none when it fails. -/
theorem active_create {malloc repeats : Bool} {now : Timeval} {new : α} {usecs : ℤ} :
    Active (tmrCreate q malloc now new usecs repeats).2 a proc periodic ↔
      Active q a proc periodic ∨
        ((tmrCreate q malloc now new usecs repeats).1 = some a ∧ new = proc ∧
          repeats = periodic) := by
  cases hc : (tmrCreate q malloc now new usecs repeats).1 with
  | none =>
    rw [tmrCreate_none hc]
    simp
  | some b =>
    unfold Active
    rw [tmrCreate_timers hc]
    constructor
    · rintro ⟨u, hu, ha, hp, hper⟩
      rcases mem_listAdd.mp hu with rfl | hu
      · exact Or.inr ⟨congrArg some ha, hp, hper⟩
      · exact Or.inl ⟨u, hu, ha, hp, hper⟩
    · rintro (⟨u, hu, ha, hp, hper⟩ | ⟨ha, hp, hper⟩)
      · exact ⟨u, mem_listAdd.mpr (Or.inr hu), ha, hp, hper⟩
      · exact ⟨_, mem_listAdd.mpr (Or.inl rfl), Option.some.inj ha, hp, hper⟩

/-- The loop of `tmr_run` keeps what every callback keeps together with the rescheduling
of its timer. -/
theorem tmrRunFrom_invariant {call : α → Timeval → TimerLists α × σ → TimerLists α × σ}
    {now : Timeval} (I : TimerLists α × σ → Prop)
    (hcall : ∀ w, I w → ∀ t ∈ w.1.timers,
      I (finishTimer t.address (call t.proc now w).1, (call t.proc now w).2))
    {fuel : ℕ} {t : Option ℕ} {w w' : TimerLists α × σ} (h : I w)
    (hrun : tmrRunFrom call now fuel t w = some w') : I w' := by
  induction fuel generalizing t w with
  | zero => cases hrun
  | succ fuel ih =>
    cases t with
    | none =>
      cases hrun
      exact h
    | some t =>
      rw [tmrRunFrom] at hrun
      split at hrun
      · cases hrun
        exact h
      · rename_i timer hf
        obtain ⟨hmem, haddress⟩ := TimerLists.find_some hf
        split at hrun
        · cases hrun
          exact h
        · have hnext := hcall w h timer hmem
          rw [haddress] at hnext
          exact ih hnext hrun

/-- What every callback preserves is preserved by `tmr_run`. -/
theorem tmrRun_invariant {call : α → Timeval → TimerLists α × σ → TimerLists α × σ}
    {now : Timeval} (I : TimerLists α × σ → Prop)
    (hcall : ∀ w, I w → ∀ t ∈ w.1.timers,
      I (finishTimer t.address (call t.proc now w).1, (call t.proc now w).2))
    {fuel : ℕ} {w w' : TimerLists α × σ} (h : I w) (hrun : tmrRun call now fuel w = some w') :
    I w' :=
  tmrRunFrom_invariant I hcall h hrun

end IperfRuntime.TimerEntries
