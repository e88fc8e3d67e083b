import IperfRuntime.TimerQueue

/-!
# Paired timers

Two periodic timers with one period that were created in turn at one time stay
neighbours on the active list, and `tmr_run` calls the second right after the first,
however late it runs. What both callbacks together preserve is preserved by the run.
-/

namespace IperfRuntime.TimerPairs

open ClockReading StableInsertion TimerQueue

variable {α σ : Type*}

/-- The fixed data of two periodic timers with one period. -/
structure Pair (α : Type*) where
  first : ℕ
  second : ℕ
  firstProc : α
  secondProc : α
  usecs : ℤ

def Pair.firstAt (p : Pair α) (time : Timeval) : Timer α :=
  ⟨p.first, p.firstProc, p.usecs, true, time⟩

def Pair.secondAt (p : Pair α) (time : Timeval) : Timer α :=
  ⟨p.second, p.secondProc, p.usecs, true, time⟩

/-- Both timers are due at the given time and stand next to each other, and no other
timer has one of their callbacks. -/
structure Paired (p : Pair α) (time : Timeval) (q : TimerLists α) : Prop where
  valid : q.Valid
  adjacent : Adjacent (p.firstAt time) (p.secondAt time) q.timers
  firstOnly : ∀ t ∈ q.timers, t.proc = p.firstProc → t.address = p.first
  secondOnly : ∀ t ∈ q.timers, t.proc = p.secondProc → t.address = p.second

variable {p : Pair α} {time : Timeval} {q : TimerLists α}

/-- The first timer of a pair is active. -/
theorem Paired.mem_first (h : Paired p time q) : p.firstAt time ∈ q.timers := h.adjacent.mem_left

/-- So is the second one. -/
theorem Paired.mem_second (h : Paired p time q) : p.secondAt time ∈ q.timers :=
  h.adjacent.mem_right

/-- The first one is found at its address. -/
theorem Paired.find_first (h : Paired p time q) : q.find p.first = some (p.firstAt time) :=
  h.valid.find_eq h.mem_first

/-- The two timers are different structures. -/
theorem Paired.ne (h : Paired p time q) : p.first ≠ p.second := by
  intro he
  have hn := h.valid.nodup_active
  obtain ⟨pre, post, hl⟩ := h.adjacent
  rw [hl, addresses, List.map_append, List.map_cons, List.map_cons] at hn
  have htail := (List.nodup_append.mp hn).2.1
  have hfirst := (List.nodup_cons.mp htail).1
  have hmem : p.first ∈ p.second :: post.map Timer.address := by
    rw [he]
    exact List.mem_cons_self
  exact hfirst hmem

/-- Behind a timer at the front of a duplicate-free part comes its neighbour. -/
theorem nextOf_append {pre post : List (Timer α)} {t : ℕ} (hpre : t ∉ addresses pre) :
    nextOf t (pre ++ post) = nextOf t post := by
  induction pre with
  | nil => rfl
  | cons u pre ih =>
    have hu : u.address ≠ t := by
      intro he
      exact hpre (by rw [← he]; exact List.mem_cons_self)
    have hrest : t ∉ addresses pre := fun hm => hpre (List.mem_cons_of_mem _ hm)
    rw [List.cons_append, nextOf, if_neg hu, ih hrest]

/-- The pointer behind a timer leads to its neighbour. -/
theorem nextOf_adjacent {l : List (Timer α)} {a b : Timer α} (hn : (addresses l).Nodup)
    (h : Adjacent a b l) : nextOf a.address l = some b.address := by
  obtain ⟨pre, post, rfl⟩ := h
  rw [addresses, List.map_append, List.map_cons] at hn
  have hd := (List.nodup_append.mp hn).2.2
  have hpre : a.address ∉ addresses pre := by
    intro hm
    exact hd a.address hm a.address List.mem_cons_self rfl
  rw [nextOf_append hpre, nextOf, if_pos rfl]
  rfl

/-- A pointer behind a timer never leads to the head of the list. -/
theorem nextOf_mem {l : List (Timer α)} {t u : ℕ} (h : nextOf t l = some u) :
    u ∈ addresses l.tail := by
  induction l with
  | nil => simp [nextOf] at h
  | cons v l ih =>
    rw [nextOf] at h
    split at h
    · cases l with
      | nil => simp at h
      | cons w l =>
        have hw : w.address = u := by simpa using h
        rw [← hw]
        exact List.mem_cons_self
    · have hmem := ih h
      cases l with
      | nil => simp [addresses] at hmem
      | cons w l => exact List.mem_cons_of_mem _ hmem

/-- Only the left neighbour's pointer leads to a timer that has one, so `tmr_run` comes to the
second of a pair from the first. -/
theorem nextOf_inj {l : List (Timer α)} {a b : Timer α} {t : ℕ} (hn : (addresses l).Nodup)
    (h : Adjacent a b l) (ht : nextOf t l = some b.address) : t = a.address := by
  obtain ⟨pre, post, rfl⟩ := h
  induction pre with
  | nil =>
    rw [List.nil_append, nextOf] at ht
    split at ht
    · rename_i ha
      exact ha.symm
    · have hmem : b.address ∈ addresses post := nextOf_mem ht
      have hb := (List.nodup_cons.mp (List.nodup_cons.mp hn).2).1
      exact absurd hmem hb
  | cons x pre ih =>
    obtain ⟨hx, htail⟩ := List.nodup_cons.mp hn
    rw [List.cons_append, nextOf] at ht
    split at ht
    · have hhead : b.address ∈ addresses (a :: b :: post) := by simp [addresses]
      cases pre with
      | nil =>
        have hab : a.address = b.address := by simpa using ht
        have ha := (List.nodup_cons.mp htail).1
        exact absurd (by rw [hab]; exact List.mem_cons_self) ha
      | cons y pre =>
        have hy : y.address = b.address := by simpa using ht
        have hm := (List.nodup_cons.mp htail).1
        refine absurd ?_ hm
        rw [hy]
        exact List.mem_map_of_mem (by simp)
    · exact ih htail ht

/-- The structure at a pointer behind a timer is another one. -/
theorem nextOf_ne {l : List (Timer α)} (hn : (addresses l).Nodup) (t : ℕ) :
    nextOf t l ≠ some t := by
  induction l with
  | nil => simp [nextOf]
  | cons u l ih =>
    obtain ⟨hu, htail⟩ := List.nodup_cons.mp hn
    rw [nextOf]
    split
    · rename_i ht
      intro he
      cases l with
      | nil => simp at he
      | cons v l =>
        have hv : v.address = t := by simpa using he
        rw [ht, ← hv] at hu
        exact hu List.mem_cons_self
    · exact ih htail

/-- Moving both timers, one after the other, to one time pairs them there, as the second is
put behind the first. -/
theorem Paired.move (h : Paired p time q) (later : Timeval) :
    Paired p later { q with
      timers := listResort (p.secondAt later) (listResort (p.firstAt later) q.timers) } := by
  have hne := h.ne
  have hfirst : TimerLists.Valid { q with timers := listResort (p.firstAt later) q.timers } :=
    h.valid.resort h.mem_first rfl
  have hsecond : p.secondAt time ∈ listResort (p.firstAt later) q.timers := by
    rw [mem_listResort]
    exact Or.inr ⟨h.mem_second, fun he => hne he.symm⟩
  refine ⟨hfirst.resort hsecond rfl, ?_, ?_, ?_⟩
  · have hordered : Ordered Timer.time (listRemove p.first q.timers) :=
      listRemove_ordered h.valid.ordered
    have hkeep : decide ((p.firstAt later).address ≠ p.second) = true := decide_eq_true hne
    have hpair := insertStable_pair hordered rfl
      (a := p.firstAt later) (b := p.secondAt later)
      (p := fun u => decide (u.address ≠ p.second)) hkeep
    dsimp only [listResort]
    rw [listAdd_eq, listAdd_eq]
    exact hpair
  · intro t ht hproc
    rw [mem_listResort, mem_listResort] at ht
    rcases ht with rfl | ⟨rfl | ⟨ht, -⟩, -⟩
    · exact h.firstOnly (p.secondAt time) h.mem_second hproc
    · rfl
    · exact h.firstOnly t ht hproc
  · intro t ht hproc
    rw [mem_listResort, mem_listResort] at ht
    rcases ht with rfl | ⟨rfl | ⟨ht, -⟩, -⟩
    · rfl
    · exact h.secondOnly (p.firstAt time) h.mem_first hproc
    · exact h.secondOnly t ht hproc

/-- The second timer is still there after the first one was moved. -/
theorem Paired.find_second (h : Paired p time q) (later : Timeval) :
    TimerLists.find { q with timers := listResort (p.firstAt later) q.timers } p.second =
      some (p.secondAt time) := by
  have hvalid : TimerLists.Valid { q with timers := listResort (p.firstAt later) q.timers } :=
    h.valid.resort h.mem_first rfl
  have hne := h.ne
  refine hvalid.find_eq (t := p.secondAt time) ?_
  rw [mem_listResort]
  exact Or.inr ⟨h.mem_second, fun he => hne he.symm⟩

/-- After its callback the first one moves on by its period. -/
theorem Paired.finish_first (h : Paired p time q) :
    finishTimer p.first q =
      { q with timers := listResort (p.firstAt (addUsecs time p.usecs)) q.timers } := by
  unfold finishTimer
  rw [h.find_first]
  rfl

/-- After both callbacks the pair is one period later. -/
theorem Paired.finish_both (h : Paired p time q) :
    Paired p (addUsecs time p.usecs) (finishTimer p.second (finishTimer p.first q)) := by
  have hsecond := h.find_second (addUsecs time p.usecs)
  have hmove := h.move (addUsecs time p.usecs)
  rw [h.finish_first]
  unfold finishTimer
  rw [hsecond]
  exact hmove

/-- Resetting both timers pairs them a period after the reset. -/
theorem Paired.reset_both (h : Paired p time q) (now : Timeval) :
    Paired p (addUsecs now p.usecs) (tmrReset now p.second (tmrReset now p.first q)) := by
  have hsecond := h.find_second (addUsecs now p.usecs)
  have hmove := h.move (addUsecs now p.usecs)
  have hfirst : tmrReset now p.first q =
      { q with timers := listResort (p.firstAt (addUsecs now p.usecs)) q.timers } := by
    unfold tmrReset
    rw [h.find_first]
    rfl
  rw [hfirst]
  unfold tmrReset
  rw [hsecond]
  exact hmove

/-- Removing another timer leaves the pair adjacent. -/
theorem Paired.remove_other (h : Paired p time q) {t : ℕ} (hfirst : p.first ≠ t)
    (hsecond : p.second ≠ t) :
    Adjacent (p.firstAt time) (p.secondAt time) (listRemove t q.timers) :=
  h.adjacent.filter (decide_eq_true hfirst) (decide_eq_true hsecond)

/-- What `tmr_run` does to another timer leaves the pair alone, wherever that timer is put in
again. -/
theorem Paired.finish_other (h : Paired p time q) {t : ℕ} (hfirst : p.first ≠ t)
    (hsecond : p.second ≠ t) : Paired p time (finishTimer t q) := by
  have hremove := h.remove_other hfirst hsecond
  have hvalid := h.valid.finish t
  unfold finishTimer at hvalid ⊢
  split
  · rename_i timer hf
    rw [hf] at hvalid
    obtain ⟨hmem, haddress⟩ := TimerLists.find_some hf
    dsimp only at hvalid
    split
    · rename_i hperiodic
      rw [if_pos hperiodic] at hvalid
      refine ⟨hvalid, ?_, ?_, ?_⟩
      · dsimp only [listResort]
        rw [listAdd_eq, haddress]
        exact hremove.insertStable rfl _
      · intro u hu hproc
        rw [mem_listResort] at hu
        rcases hu with rfl | ⟨hu, -⟩
        · exact h.firstOnly timer hmem hproc
        · exact h.firstOnly u hu hproc
      · intro u hu hproc
        rw [mem_listResort] at hu
        rcases hu with rfl | ⟨hu, -⟩
        · exact h.secondOnly timer hmem hproc
        · exact h.secondOnly u hu hproc
    · rename_i honce
      rw [if_neg honce] at hvalid
      refine ⟨hvalid, hremove, ?_, ?_⟩
      · intro u hu hproc
        exact h.firstOnly u (mem_listRemove.mp hu).1 hproc
      · intro u hu hproc
        exact h.secondOnly u (mem_listRemove.mp hu).1 hproc
  · exact h

/-- The active list after a successful `tmr_create`. -/
theorem tmrCreate_timers {malloc periodic : Bool} {now : Timeval} {proc : α} {usecs : ℤ} {a : ℕ}
    (h : (tmrCreate q malloc now proc usecs periodic).1 = some a) :
    (tmrCreate q malloc now proc usecs periodic).2.timers =
      listAdd ⟨a, proc, usecs, periodic, addUsecs now usecs⟩ q.timers := by
  unfold tmrCreate at h ⊢
  cases hf : q.freeTimers with
  | cons t free =>
    rw [hf] at h
    have ha : t = a := by simpa using h
    rw [← ha]
  | nil =>
    rw [hf] at h
    cases malloc with
    | false => simp at h
    | true =>
      have ha : q.allocated = a := by simpa using h
      rw [← ha]
      rfl

/-- A failed `tmr_create` changes nothing. -/
theorem tmrCreate_none {malloc periodic : Bool} {now : Timeval} {proc : α} {usecs : ℤ}
    (h : (tmrCreate q malloc now proc usecs periodic).1 = none) :
    (tmrCreate q malloc now proc usecs periodic).2 = q := by
  unfold tmrCreate at h ⊢
  cases hf : q.freeTimers with
  | cons t free =>
    rw [hf] at h
    simp at h
  | nil =>
    rw [hf] at h
    cases malloc with
    | false => rfl
    | true => simp at h

/-- A timer on the list after `tmr_create` was there before or is the new one. -/
theorem mem_tmrCreate {malloc periodic : Bool} {now : Timeval} {proc : α} {usecs : ℤ}
    {t : Timer α} (h : t ∈ (tmrCreate q malloc now proc usecs periodic).2.timers) :
    t ∈ q.timers ∨
      t.proc = proc ∧ (tmrCreate q malloc now proc usecs periodic).1 = some t.address := by
  cases hc : (tmrCreate q malloc now proc usecs periodic).1 with
  | none =>
    rw [tmrCreate_none hc] at h
    exact Or.inl h
  | some a =>
    rw [tmrCreate_timers hc, mem_listAdd] at h
    rcases h with rfl | h
    · exact Or.inr ⟨rfl, rfl⟩
    · exact Or.inl h

/-- Another timer's creation leaves the pair alone. -/
theorem Paired.create (h : Paired p time q) (malloc periodic : Bool) (now : Timeval) (proc : α)
    (usecs : ℤ) (hfirst : proc ≠ p.firstProc) (hsecond : proc ≠ p.secondProc) :
    Paired p time (tmrCreate q malloc now proc usecs periodic).2 := by
  have hvalid := h.valid.create malloc now proc usecs periodic
  cases hc : (tmrCreate q malloc now proc usecs periodic).1 with
  | none =>
    rw [tmrCreate_none hc]
    exact h
  | some a =>
    have htimers := tmrCreate_timers hc
    refine ⟨hvalid, ?_, ?_, ?_⟩
    · rw [htimers, listAdd_eq]
      exact h.adjacent.insertStable rfl _
    · intro t ht hproc
      rw [htimers, mem_listAdd] at ht
      rcases ht with rfl | ht
      · exact absurd hproc hfirst
      · exact h.firstOnly t ht hproc
    · intro t ht hproc
      rw [htimers, mem_listAdd] at ht
      rcases ht with rfl | ht
      · exact absurd hproc hsecond
      · exact h.secondOnly t ht hproc

/-- Two timers created in turn at one time with one period are paired, whatever else is on the
list. -/
theorem paired_of_create (hq : q.Valid) {malloc malloc' : Bool} {now : Timeval} {proc proc' : α}
    {usecs : ℤ} {a b : ℕ} {q' q'' : TimerLists α} (hne : proc ≠ proc')
    (hproc : ∀ t ∈ q.timers, t.proc ≠ proc ∧ t.proc ≠ proc')
    (hfirst : tmrCreate q malloc now proc usecs true = (some a, q'))
    (hsecond : tmrCreate q' malloc' now proc' usecs true = (some b, q'')) :
    Paired ⟨a, b, proc, proc', usecs⟩ (addUsecs now usecs) q'' := by
  have hvalid' : q'.Valid := by
    have hv := hq.create malloc now proc usecs true
    rwa [hfirst] at hv
  have hvalid'' : q''.Valid := by
    have hv := hvalid'.create malloc' now proc' usecs true
    rwa [hsecond] at hv
  have htimers' : q'.timers = listAdd ⟨a, proc, usecs, true, addUsecs now usecs⟩ q.timers := by
    have ht := tmrCreate_timers (a := a) (by rw [hfirst])
    rwa [hfirst] at ht
  have htimers'' :
      q''.timers = listAdd ⟨b, proc', usecs, true, addUsecs now usecs⟩ q'.timers := by
    have ht := tmrCreate_timers (a := b) (by rw [hsecond])
    rwa [hsecond] at ht
  refine ⟨hvalid'', ?_, ?_, ?_⟩
  · have hpair := insertStable_pair hq.ordered rfl rfl (p := fun _ => true)
      (a := (⟨a, proc, usecs, true, addUsecs now usecs⟩ : Timer α))
      (b := (⟨b, proc', usecs, true, addUsecs now usecs⟩ : Timer α))
    rw [htimers'', htimers', listAdd_eq, listAdd_eq]
    rw [List.filter_true] at hpair
    exact hpair
  · intro t ht hp
    rw [htimers'', mem_listAdd, htimers', mem_listAdd] at ht
    rcases ht with rfl | rfl | ht
    · exact absurd hp.symm hne
    · rfl
    · exact absurd hp (hproc t ht).1
  · intro t ht hp
    rw [htimers'', mem_listAdd, htimers', mem_listAdd] at ht
    rcases ht with rfl | rfl | ht
    · rfl
    · exact absurd hp hne
    · exact absurd hp (hproc t ht).2

/-- What a run needs of the callbacks: the pair's leave the queue alone and keep `I`
together, any other keeps `I` and moves the pair at most as a whole. -/
structure KeepsPair (p : Pair α) (call : α → Timeval → TimerLists α × σ → TimerLists α × σ)
    (now : Timeval) (I : σ → Prop) : Prop where
  first : ∀ q s, (call p.firstProc now (q, s)).1 = q
  second : ∀ q s, (call p.secondProc now (q, s)).1 = q
  both : ∀ q q' s, I s →
    I (call p.secondProc now (q', (call p.firstProc now (q, s)).2)).2
  other : ∀ proc, proc ≠ p.firstProc → proc ≠ p.secondProc → ∀ time q s, Paired p time q → I s →
    (∃ later, Paired p later (call proc now (q, s)).1) ∧ I (call proc now (q, s)).2

variable {call : α → Timeval → TimerLists α × σ → TimerLists α × σ} {now : Timeval} {I : σ → Prop}

/-- The timer at an address other than the pair's has another callback. -/
theorem Paired.proc_ne (h : Paired p time q) {t : Timer α} (ht : t ∈ q.timers)
    (hfirst : t.address ≠ p.first) (hsecond : t.address ≠ p.second) :
    t.proc ≠ p.firstProc ∧ t.proc ≠ p.secondProc := by
  constructor
  · intro hp
    exact hfirst (h.firstOnly t ht hp)
  · intro hp
    exact hsecond (h.secondOnly t ht hp)

/-- A due pair is called in turn, with nothing in between. -/
theorem tmrRunFrom_first (hcall : KeepsPair p call now I) (h : Paired p time q) (s : σ)
    (hdue : ¬now < time) (fuel : ℕ) :
    tmrRunFrom call now (fuel + 2) (some p.first) (q, s) =
      tmrRunFrom call now fuel (nextOf p.second (finishTimer p.first q).timers)
        (finishTimer p.second (finishTimer p.first q),
          (call p.secondProc now (finishTimer p.first q, (call p.firstProc now (q, s)).2)).2) := by
  have hnext : nextOf p.first q.timers = some p.second :=
    nextOf_adjacent h.valid.nodup_active h.adjacent
  have hfind := h.find_second (addUsecs time p.usecs)
  rw [← h.finish_first] at hfind
  rw [tmrRunFrom]
  dsimp only
  rw [h.find_first]
  dsimp only [Pair.firstAt]
  rw [if_neg hdue, hnext, hcall.first, tmrRunFrom]
  dsimp only
  rw [hfind]
  dsimp only [Pair.secondAt]
  rw [if_neg hdue, hcall.second]

/-- The loop of `tmr_run` keeps the pair and `I` from any pointer that does not stand
between the two. -/
theorem tmrRunFrom_paired (hcall : KeepsPair p call now I) (fuel : ℕ) :
    ∀ (t : Option ℕ) (q : TimerLists α) (s : σ) (w' : TimerLists α × σ),
      (∃ time, Paired p time q) → I s → t ≠ some p.second →
      tmrRunFrom call now fuel t (q, s) = some w' → (∃ time, Paired p time w'.1) ∧ I w'.2 := by
  induction fuel using Nat.strong_induction_on with
  | _ fuel ih =>
    intro t q s w' hpaired hI ht hrun
    have hstop : some (q, s) = some w' → (∃ time, Paired p time w'.1) ∧ I w'.2 := by
      intro hw
      rw [← Option.some.inj hw]
      exact ⟨hpaired, hI⟩
    cases fuel with
    | zero => simp [tmrRunFrom] at hrun
    | succ fuel =>
      cases t with
      | none => exact hstop hrun
      | some a =>
        have hsecond : a ≠ p.second := fun he => ht (by rw [he])
        obtain ⟨time, h⟩ := hpaired
        have hstep := hrun
        rw [tmrRunFrom] at hstep
        dsimp only at hstep
        cases hf : q.find a with
        | none =>
          rw [hf] at hstep
          exact hstop hstep
        | some timer =>
          rw [hf] at hstep
          dsimp only at hstep
          obtain ⟨hmem, haddress⟩ := TimerLists.find_some hf
          by_cases hdue : now < timer.time
          · rw [if_pos hdue] at hstep
            exact hstop hstep
          · rw [if_neg hdue] at hstep
            by_cases hfirst : a = p.first
            · have htimer : timer = p.firstAt time := by
                have hfind := h.find_first
                rw [← hfirst, hf] at hfind
                exact Option.some.inj hfind
              rw [htimer] at hdue
              cases fuel with
              | zero =>
                rw [htimer] at hstep
                simp [tmrRunFrom] at hstep
              | succ fuel =>
                rw [hfirst, tmrRunFrom_first hcall h s hdue] at hrun
                have hne := nextOf_ne (h.valid.finish p.first).nodup_active p.second
                exact ih fuel (by omega) _ _ _ w' ⟨_, h.finish_both⟩
                  (hcall.both q (finishTimer p.first q) s hI) hne hrun
            · obtain ⟨hproc, hproc'⟩ := h.proc_ne hmem (by rw [haddress]; exact hfirst)
                (by rw [haddress]; exact hsecond)
              obtain ⟨⟨later, hlater⟩, hkept⟩ :=
                hcall.other timer.proc hproc hproc' time q s h hI
              have hfinish := hlater.finish_other (t := a) (Ne.symm hfirst) (Ne.symm hsecond)
              have hne : nextOf a q.timers ≠ some p.second := by
                intro hnext
                exact hfirst (nextOf_inj h.valid.nodup_active h.adjacent hnext)
              exact ih fuel (by omega) _ _ _ w' ⟨later, hfinish⟩ hkept hne hstep

/-- `tmr_run` keeps the pair and `I`. -/
theorem tmrRun_paired (hcall : KeepsPair p call now I) {fuel : ℕ} {w w' : TimerLists α × σ}
    (h : ∃ time, Paired p time w.1) (hI : I w.2) (hrun : tmrRun call now fuel w = some w') :
    (∃ time, Paired p time w'.1) ∧ I w'.2 := by
  have hhead : w.1.timers.head?.map Timer.address ≠ some p.second := by
    obtain ⟨time, h⟩ := h
    obtain ⟨pre, post, hl⟩ := h.adjacent
    have hn := h.valid.nodup_active
    rw [hl] at hn ⊢
    cases pre with
    | nil =>
      intro he
      exact h.ne (by simpa [Pair.firstAt] using he)
    | cons x pre =>
      intro he
      have hx : x.address = p.second := by simpa using he
      have hm := (List.nodup_cons.mp hn).1
      refine hm ?_
      rw [hx]
      exact List.mem_map_of_mem (a := p.secondAt time) (by simp)
  exact tmrRunFrom_paired hcall fuel _ w.1 w.2 w' h hI hhead hrun

end IperfRuntime.TimerPairs
