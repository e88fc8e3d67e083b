import IperfRuntime.TimerHeap

/-!
# Runs of the timer code

`tmr_create`, `tmr_reset`, `tmr_cancel` and the loop of `tmr_run`, one step at a time, with
callbacks that create timers and reset any timer but their own. In every state that is
reached both lists are linked, and every routine that can be called there comes back. What a
callback does to anything but timers is not part of a step.
-/

namespace IperfRuntime.TimerMachine

open ClockReading StableInsertion LinkedCells TimerHeap
open TimerQueue (Timer TimerLists addresses)

variable {α : Type*}

/-- Where the code is. -/
inductive Control where
  /-- Outside `tmr_run`. -/
  | idle
  /-- At the head of its loop, with the pointer `t`. -/
  | loop (now : Timeval) (t : Option ℕ)
  /-- In the callback of `t`, with the pointer that was captured before it. -/
  | callback (now : Timeval) (t : ℕ) (next : Option ℕ)

/-- Whether a timer can be created: by the program or by a callback. -/
def Control.Creates : Control → Prop
  | .loop _ _ => False
  | _ => True

/-- Whether a timer can be reset: a callback leaves its own alone. -/
def Control.Resets (control : Control) (t : ℕ) : Prop :=
  match control with
  | .idle => True
  | .loop _ _ => False
  | .callback _ running _ => t ≠ running

/-- The heap, the place in the code, and the timers in the order in which `list_add` got them,
the last one first. -/
structure Machine (α : Type*) where
  heap : Heap α := {}
  control : Control := .idle
  added : List ℕ := []

/-- The active list as its pointers have it. -/
inductive OnList (h : Heap α) : ℕ → Prop
  | head {t : ℕ} (hhead : h.timers = some t) : OnList h t
  | next {t u : ℕ} {c : Cell (TimerData α)} (ht : OnList h t) (hcell : h.memory t = some c)
      (hnext : c.next = some u) : OnList h u

/-- One step. -/
inductive Step : Machine α → Machine α → Prop
  | create {m : Machine α} {r : Option ℕ} {h : Heap α} (fuel : ℕ)
      (malloc : Option (Option ℕ × Option ℕ)) (now : Timeval) (proc : α) (usecs : ℤ)
      (periodic : Bool) (hcontrol : m.control.Creates) (husecs : 0 ≤ usecs)
      (hnow : now.Normalised)
      (hrun : tmrCreate fuel malloc now proc usecs periodic m.heap = some (r, h)) :
      Step m { m with heap := h, added := r.toList ++ m.added }
  | reset {m : Machine α} {h : Heap α} (fuel : ℕ) (now : Timeval) (t : ℕ)
      (hcontrol : m.control.Resets t) (hactive : OnList m.heap t) (hnow : now.Normalised)
      (hrun : tmrReset fuel now t m.heap = some h) :
      Step m { m with heap := h, added := t :: m.added }
  | cancel {m : Machine α} {h : Heap α} (t : ℕ) (hcontrol : m.control = .idle)
      (hactive : OnList m.heap t) (hrun : tmrCancel t m.heap = some h) :
      Step m { m with heap := h }
  | run {m : Machine α} (now : Timeval) (hcontrol : m.control = .idle) :
      Step m { m with control := .loop now m.heap.timers }
  | finished {m : Machine α} {now : Timeval} (hcontrol : m.control = .loop now none) :
      Step m { m with control := .idle }
  | early {m : Machine α} {now : Timeval} {t : ℕ} {c : Cell (TimerData α)}
      (hcontrol : m.control = .loop now (some t)) (hcell : m.heap.memory t = some c)
      (hearly : now < c.data.time) : Step m { m with control := .idle }
  | call {m : Machine α} {now : Timeval} {t : ℕ} {c : Cell (TimerData α)}
      (hcontrol : m.control = .loop now (some t)) (hcell : m.heap.memory t = some c)
      (hdue : ¬now < c.data.time) : Step m { m with control := .callback now t c.next }
  | back {m : Machine α} {now : Timeval} {t : ℕ} {next : Option ℕ} {c : Cell (TimerData α)}
      {h : Heap α} (fuel : ℕ) (hcontrol : m.control = .callback now t next)
      (hcell : m.heap.memory t = some c) (hrun : finishTimer fuel t m.heap = some h) :
      Step m ⟨h, .loop now next, if c.data.periodic then t :: m.added else m.added⟩

/-- The states of a process. -/
inductive Reachable : Machine α → Prop
  | start : Reachable {}
  | step {m m' : Machine α} (h : Reachable m) (hstep : Step m m') : Reachable m'

/-- Timers with equal times stand in the order in which they were added. -/
def Stable (added : List ℕ) (l : List (Timer α)) : Prop :=
  l.Pairwise fun t u => t.time = u.time → added.idxOf u.address < added.idxOf t.address

/-- The pointers of the loop lead to active timers, and the captured one to another one than
that whose callback runs. -/
def Control.PointsTo (control : Control) (active : List ℕ) : Prop :=
  match control with
  | .idle => True
  | .loop _ t => ∀ a ∈ t, a ∈ active
  | .callback _ t next => t ∈ active ∧ ∀ a ∈ next, a ∈ active ∧ a ≠ t

/-- A queue whose timers were added in the given order. -/
structure Sound (added : List ℕ) (q : TimerLists α) : Prop where
  /-- The active list is sorted, and every structure is on one of the lists, once. -/
  valid : q.Valid
  normalised : ∀ t ∈ q.timers, t.time.Normalised
  usecs : ∀ t ∈ q.timers, 0 ≤ t.usecs
  stable : Stable added q.timers

/-- What every reachable state has, with the queue that its heap holds. -/
structure Linked (m : Machine α) (q : TimerLists α) : Prop extends Sound m.added q where
  /-- The active list is linked in both directions and ends with NULL, and the free list
  ends with NULL. -/
  represents : Represents m.heap q
  pointers : m.control.PointsTo (addresses q.timers)

variable {m m' : Machine α} {q : TimerLists α} {t : Timer α} {l : List (Timer α)}
  {added : List ℕ}

/-- An addition that is the last one keeps the list stable: among timers of one time it stands
behind those that were added before. -/
theorem stable_listAdd (h : Stable added l) (hordered : Ordered Timer.time l)
    (hnew : t.address ∉ addresses l) :
    Stable (t.address :: added) (TimerQueue.listAdd t l) := by
  rw [TimerQueue.listAdd_eq]
  obtain ⟨pre, post, hl, hinsert, hcut⟩ := exists_cut Timer.time t l
  have hne : ∀ u ∈ l, t.address ≠ u.address :=
    fun u hu he => hnew (he ▸ List.mem_map_of_mem hu)
  have hshift : Stable (t.address :: added) l := by
    refine List.Pairwise.imp_of_mem ?_ h
    intro u v hu hv huv heq
    rw [List.idxOf_cons_ne _ (hne u hu), List.idxOf_cons_ne _ (hne v hv)]
    exact Nat.succ_lt_succ (huv heq)
  rw [hl] at hshift hordered hne
  rw [hinsert]
  obtain ⟨hpre, hpost, hcross⟩ := List.pairwise_append.mp hshift
  have hafter := hcut.after_mem (List.pairwise_append.mp hordered).2.1
  refine List.pairwise_append.mpr ⟨hpre, List.pairwise_cons.mpr ⟨?_, hpost⟩, ?_⟩
  · intro u hu heq
    exact absurd heq (hafter u hu).ne
  · intro u hu v hv
    rcases List.mem_cons.mp hv with rfl | hv
    · intro _
      rw [List.idxOf_cons_self, List.idxOf_cons_ne _ (hne u (List.mem_append_left _ hu))]
      exact Nat.succ_pos _
    · exact hcross u hu v hv

/-- A move that is the last one. -/
theorem stable_listResort (h : Stable added l) (hordered : Ordered Timer.time l) :
    Stable (t.address :: added) (TimerQueue.listResort t l) := by
  refine stable_listAdd (List.Pairwise.sublist List.filter_sublist h)
    (TimerQueue.listRemove_ordered hordered) ?_
  rw [TimerQueue.addresses_listRemove]
  intro hmem
  exact absurd rfl (of_decide_eq_true (List.mem_filter.mp hmem).2)

/-- What the pointers reach is on the list. -/
theorem Linked.of_onList (hm : Linked m q) {a : ℕ} (h : OnList m.heap a) :
    ∃ t ∈ q.timers, t.address = a := by
  have hmem : a ∈ addresses q.timers := by
    induction h with
    | head hhead =>
      rw [hm.represents.active.head] at hhead
      rw [← keys_entries]
      exact first_eq_some hhead
    | next _ hcell hnext ih =>
      rw [← keys_entries] at ih ⊢
      exact (hm.represents.active.segment.prev_of_next hcell ih hnext).1
  exact List.mem_map.mp hmem

/-- An active timer gets another time. -/
theorem Sound.resort (hs : Sound added q) (ht : t ∈ q.timers) {time : Timeval}
    (htime : time.Normalised) :
    Sound (t.address :: added) { q with
      timers := TimerQueue.listResort { t with time := time } q.timers } where
  valid := hs.valid.resort ht rfl
  normalised := by
    intro u hu
    rcases TimerQueue.mem_listResort.mp hu with rfl | ⟨hu, -⟩
    · exact htime
    · exact hs.normalised u hu
  usecs := by
    intro u hu
    rcases TimerQueue.mem_listResort.mp hu with rfl | ⟨hu, -⟩
    · exact hs.usecs t ht
    · exact hs.usecs u hu
  stable := stable_listResort (t := { t with time := time }) hs.stable hs.valid.ordered

/-- Cancelling an active timer keeps the lists sound. -/
theorem Sound.cancel (hs : Sound added q) (ht : t ∈ q.timers) :
    Sound added (TimerQueue.tmrCancel t.address q) where
  valid := hs.valid.cancel ht
  normalised := fun u hu => hs.normalised u (TimerQueue.mem_listRemove.mp hu).1
  usecs := fun u hu => hs.usecs u (TimerQueue.mem_listRemove.mp hu).1
  stable := List.Pairwise.sublist List.filter_sublist hs.stable

/-- A timer that is created, or none if there is no memory, keeps the lists sound. -/
theorem Sound.create (hs : Sound added q) (malloc periodic : Bool) {now : Timeval} (proc : α)
    {usecs : ℤ} (husecs : 0 ≤ usecs) (hnow : now.Normalised) :
    Sound ((TimerQueue.tmrCreate q malloc now proc usecs periodic).1.toList ++ added)
        (TimerQueue.tmrCreate q malloc now proc usecs periodic).2 ∧
      addresses q.timers ⊆
        addresses (TimerQueue.tmrCreate q malloc now proc usecs periodic).2.timers := by
  have hvalid := hs.valid.create malloc now proc usecs periodic
  cases hr : (TimerQueue.tmrCreate q malloc now proc usecs periodic).1 with
  | none =>
    rw [TimerPairs.tmrCreate_none hr]
    exact ⟨hs, List.Subset.refl _⟩
  | some a =>
    have htimers := TimerPairs.tmrCreate_timers hr
    have hperm := TimerQueue.addresses_listAdd
      (⟨a, proc, usecs, periodic, addUsecs now usecs⟩ : Timer α) q.timers
    rw [← htimers] at hperm
    have hnew : a ∉ addresses q.timers :=
      (List.nodup_cons.mp (hperm.nodup_iff.mp hvalid.nodup_active)).1
    refine ⟨⟨hvalid, ?_, ?_, ?_⟩, fun b hb => hperm.mem_iff.mpr (List.mem_cons_of_mem _ hb)⟩
    · rw [htimers]
      intro u hu
      rcases TimerQueue.mem_listAdd.mp hu with rfl | hu
      · exact (addUsecs_spec hnow husecs).1
      · exact hs.normalised u hu
    · rw [htimers]
      intro u hu
      rcases TimerQueue.mem_listAdd.mp hu with rfl | hu
      · exact husecs
      · exact hs.usecs u hu
    · rw [htimers]
      exact stable_listAdd (t := ⟨a, proc, usecs, periodic, addUsecs now usecs⟩) hs.stable
        hs.valid.ordered hnew

/-- A control that points to some timers points to more of them. -/
theorem Control.PointsTo.mono {control : Control} {active active' : List ℕ}
    (h : control.PointsTo active) (hsub : active ⊆ active') : control.PointsTo active' := by
  cases control with
  | idle => trivial
  | loop now t => exact fun a ha => hsub (h a ha)
  | callback now t next => exact ⟨hsub h.1, fun a ha => ⟨hsub (h.2 a ha).1, (h.2 a ha).2⟩⟩

/-- Moving a timer leaves the addresses on the list. -/
theorem addresses_resort (hq : q.Valid) (ht : t ∈ q.timers) (time : Timeval) :
    addresses q.timers ⊆ addresses (TimerQueue.listResort { t with time := time } q.timers) :=
  fun _ ha => (TimerQueue.addresses_listResort (u := { t with time := time }) hq.nodup_active ht
    rfl).mem_iff.mpr ha

/-- `tmr_create`. -/
theorem Linked.create (hm : Linked m q) {r : Option ℕ} {h : Heap α} {fuel : ℕ}
    {malloc : Option (Option ℕ × Option ℕ)} {now : Timeval} {proc : α} {usecs : ℤ}
    {periodic : Bool} (husecs : 0 ≤ usecs) (hnow : now.Normalised)
    (hrun : tmrCreate fuel malloc now proc usecs periodic m.heap = some (r, h)) :
    ∃ q', Linked { m with heap := h, added := r.toList ++ m.added } q' := by
  obtain ⟨h', hcreate, hrepresents⟩ := hm.represents.create hm.valid
    (le_max_right fuel q.allocated) malloc now proc usecs periodic
  rw [tmrCreate_mono (le_max_left _ _) hrun] at hcreate
  obtain ⟨rfl, rfl⟩ := Prod.mk.inj (Option.some.inj hcreate)
  obtain ⟨hsound, hsub⟩ := hm.toSound.create malloc.isSome periodic proc husecs hnow
  exact ⟨_, hsound, hrepresents, hm.pointers.mono hsub⟩

/-- `tmr_reset`. -/
theorem Linked.reset (hm : Linked m q) {h : Heap α} {fuel a : ℕ} {now : Timeval}
    (hactive : OnList m.heap a) (hnow : now.Normalised)
    (hrun : tmrReset fuel now a m.heap = some h) :
    ∃ q', Linked { m with heap := h, added := a :: m.added } q' := by
  obtain ⟨t, ht, rfl⟩ := hm.of_onList hactive
  obtain ⟨h', hreset, hrepresents⟩ := hm.represents.reset hm.valid
    (le_max_right fuel q.allocated) now ht
  rw [tmrReset_mono (le_max_left _ _) hrun] at hreset
  cases hreset
  unfold TimerQueue.tmrReset at hrepresents
  rw [hm.valid.find_eq ht] at hrepresents
  exact ⟨_, hm.toSound.resort ht (addUsecs_spec hnow (hm.usecs t ht)).1, hrepresents,
    hm.pointers.mono (addresses_resort hm.valid ht _)⟩

/-- `tmr_cancel`. -/
theorem Linked.cancel (hm : Linked m q) {h : Heap α} {a : ℕ} (hcontrol : m.control = .idle)
    (hactive : OnList m.heap a) (hrun : tmrCancel a m.heap = some h) :
    ∃ q', Linked { m with heap := h } q' := by
  obtain ⟨t, ht, rfl⟩ := hm.of_onList hactive
  obtain ⟨h', hcancel, hrepresents⟩ := hm.represents.cancel hm.valid ht
  rw [hrun] at hcancel
  cases hcancel
  refine ⟨_, hm.toSound.cancel ht, hrepresents, ?_⟩
  dsimp only
  rw [hcontrol]
  trivial

/-- The end of a callback reschedules its timer or frees it, and leaves linked lists and a
pointer to one of the timers. -/
theorem Linked.back (hm : Linked m q) {h : Heap α} {fuel a : ℕ} {now : Timeval}
    {next : Option ℕ} {c : Cell (TimerData α)} (hcontrol : m.control = .callback now a next)
    (hcell : m.heap.memory a = some c) (hrun : finishTimer fuel a m.heap = some h) :
    ∃ q', Linked ⟨h, .loop now next, if c.data.periodic then a :: m.added else m.added⟩ q' := by
  have hpointers := hm.pointers
  rw [hcontrol] at hpointers
  obtain ⟨hmem, hnext⟩ := hpointers
  obtain ⟨t, ht, rfl⟩ := List.mem_map.mp hmem
  obtain ⟨c', hcell', hdata⟩ := hm.represents.cell ht
  rw [hcell] at hcell'
  cases hcell'
  have hkind : c.data.periodic = t.periodic := congrArg TimerData.periodic hdata
  obtain ⟨h', hfinish, hrepresents⟩ := hm.represents.finish hm.valid
    (le_max_right fuel q.allocated) ht
  rw [finishTimer_mono (le_max_left _ _) hrun] at hfinish
  cases hfinish
  unfold TimerQueue.finishTimer at hrepresents
  rw [hm.valid.find_eq ht] at hrepresents
  dsimp only at hrepresents
  rw [hkind]
  by_cases hperiodic : t.periodic = true
  · rw [if_pos hperiodic] at hrepresents
    rw [if_pos hperiodic]
    refine ⟨_, hm.toSound.resort ht ?_, hrepresents, fun b hb => ?_⟩
    · exact (addUsecs_spec (hm.normalised t ht) (hm.usecs t ht)).1
    · exact addresses_resort hm.valid ht _ (hnext b hb).1
  · rw [if_neg hperiodic] at hrepresents
    rw [if_neg hperiodic]
    refine ⟨_, hm.toSound.cancel ht, hrepresents, fun b hb => ?_⟩
    obtain ⟨hactive, hne⟩ := hnext b hb
    obtain ⟨u, hu, rfl⟩ := List.mem_map.mp hactive
    exact List.mem_map_of_mem (TimerQueue.mem_listRemove.mpr ⟨hu, hne⟩)

/-- The pointer behind an active timer leads to another one. -/
theorem Linked.next (hm : Linked m q) {a : ℕ} {c : Cell (TimerData α)}
    (ha : a ∈ addresses q.timers) (hcell : m.heap.memory a = some c) :
    ∀ b ∈ c.next, b ∈ addresses q.timers ∧ b ≠ a := by
  intro b hb
  obtain ⟨t, ht, rfl⟩ := List.mem_map.mp ha
  obtain ⟨pre, post, hparts⟩ := List.append_of_mem ht
  have hsegment := hm.represents.active.segment
  rw [hparts] at hsegment
  have hcell' := cell_of_segment hsegment
  rw [hcell] at hcell'
  cases hcell'
  have hbpost : b ∈ addresses post := by
    rw [← keys_entries]
    exact first_eq_some hb
  refine ⟨?_, ?_⟩
  · rw [hparts, addresses, List.map_append]
    exact List.mem_append_right _ (List.mem_cons_of_mem _ hbpost)
  · rintro rfl
    have hnodup := hm.valid.nodup_active
    rw [hparts] at hnodup
    exact (TimerEntries.not_mem_parts hnodup).2 hbpost

/-- The machine starts with its lists linked. -/
theorem linked_start : Linked ({} : Machine α) {} where
  valid := TimerQueue.valid_empty
  normalised := fun _ h => absurd h List.not_mem_nil
  usecs := fun _ h => absurd h List.not_mem_nil
  stable := List.Pairwise.nil
  represents := represents_empty
  pointers := trivial

/-- What a step leaves. -/
theorem Linked.step (hm : Linked m q) (hstep : Step m m') : ∃ q', Linked m' q' := by
  cases hstep with
  | create fuel malloc now proc usecs periodic hcontrol husecs hnow hrun =>
    exact hm.create husecs hnow hrun
  | reset fuel now t hcontrol hactive hnow hrun => exact hm.reset hactive hnow hrun
  | cancel t hcontrol hactive hrun => exact hm.cancel hcontrol hactive hrun
  | run now hcontrol =>
    refine ⟨q, hm.toSound, hm.represents, fun a ha => ?_⟩
    obtain ⟨t, ht, rfl⟩ := hm.of_onList (.head ha)
    exact List.mem_map_of_mem ht
  | finished hcontrol => exact ⟨q, hm.toSound, hm.represents, trivial⟩
  | early hcontrol hcell hearly => exact ⟨q, hm.toSound, hm.represents, trivial⟩
  | call hcontrol hcell hdue =>
    have hpointers := hm.pointers
    rw [hcontrol] at hpointers
    have hactive := hpointers _ rfl
    exact ⟨q, hm.toSound, hm.represents, hactive, hm.next hactive hcell⟩
  | back fuel hcontrol hcell hrun => exact hm.back hcontrol hcell hrun

/-- The routines that can be called come back, if they may walk as far as there are structures. -/
structure ComesBack (m : Machine α) : Prop where
  create : ∀ fuel malloc now proc usecs periodic, m.heap.allocated ≤ fuel →
    (tmrCreate fuel malloc now proc usecs periodic m.heap).isSome = true
  reset : ∀ fuel now t, m.heap.allocated ≤ fuel → OnList m.heap t →
    (tmrReset fuel now t m.heap).isSome = true
  cancel : ∀ t, OnList m.heap t → (tmrCancel t m.heap).isSome = true
  loop : ∀ now t, m.control = .loop now (some t) → (m.heap.memory t).isSome = true
  back : ∀ fuel now t next, m.heap.allocated ≤ fuel → m.control = .callback now t next →
    (m.heap.memory t).isSome = true ∧ (finishTimer fuel t m.heap).isSome = true

/-- From linked lists every operation comes back: none follows a pointer to nothing or walks
without end. -/
theorem Linked.comesBack (hm : Linked m q) : ComesBack m where
  create := by
    intro fuel malloc now proc usecs periodic hfuel
    rw [hm.represents.allocated] at hfuel
    obtain ⟨h', hrun, -⟩ := hm.represents.create hm.valid hfuel malloc now proc usecs periodic
    rw [hrun]
    rfl
  reset := by
    intro fuel now t hfuel hactive
    rw [hm.represents.allocated] at hfuel
    obtain ⟨u, hu, rfl⟩ := hm.of_onList hactive
    obtain ⟨h', hrun, -⟩ := hm.represents.reset hm.valid hfuel now hu
    rw [hrun]
    rfl
  cancel := by
    intro t hactive
    obtain ⟨u, hu, rfl⟩ := hm.of_onList hactive
    obtain ⟨h', hrun, -⟩ := hm.represents.cancel hm.valid hu
    rw [hrun]
    rfl
  loop := by
    intro now t hcontrol
    have hpointers := hm.pointers
    rw [hcontrol] at hpointers
    obtain ⟨u, hu, rfl⟩ := List.mem_map.mp (hpointers t rfl)
    obtain ⟨c, hcell, -⟩ := hm.represents.cell hu
    exact isSome_of_cell hcell
  back := by
    intro fuel now t next hfuel hcontrol
    rw [hm.represents.allocated] at hfuel
    have hpointers := hm.pointers
    rw [hcontrol] at hpointers
    obtain ⟨u, hu, rfl⟩ := List.mem_map.mp hpointers.1
    obtain ⟨c, hcell, -⟩ := hm.represents.cell hu
    obtain ⟨h', hrun, -⟩ := hm.represents.finish hm.valid hfuel hu
    exact ⟨isSome_of_cell hcell, by rw [hrun]; rfl⟩

/-- In every reachable state the lists are linked. -/
theorem Reachable.linked (h : Reachable m) : ∃ q, Linked m q := by
  induction h with
  | start => exact ⟨{}, linked_start⟩
  | step _ hstep ih =>
    obtain ⟨q, hm⟩ := ih
    exact hm.step hstep

/-- In every state of every run, inside `tmr_run` and its callbacks too, the active list is
doubly linked, sorted by normalised times and stable, the free list is a chain apart from it,
every structure ever allocated is on exactly one of them, and what can be called comes back. -/
theorem reachable_linked (h : Reachable m) : (∃ q, Linked m q) ∧ ComesBack m := by
  obtain ⟨q, hm⟩ := h.linked
  exact ⟨⟨q, hm⟩, hm.comesBack⟩

/-- A callback that creates a timer, behind which its own timer moves. -/
theorem callback_linked :
    ∃ m : Machine Unit, m.heap.timers = some 1 ∧ m.heap.allocated = 2 ∧
      m.control = .loop ⟨2, 0⟩ none ∧ (∃ q, Linked m q) ∧ ComesBack m := by
  have hcreated := Reachable.start.step (.create (α := Unit) 0 (some (none, none)) ⟨0, 0⟩ ()
    1000000 true trivial (by decide) ⟨by decide, by decide⟩ rfl)
  have hrun := hcreated.step (.run ⟨2, 0⟩ rfl)
  have hcalled := hrun.step (.call rfl rfl (by decide))
  have hinside := hcalled.step (.create 1 (some (none, none)) ⟨1, 0⟩ () 500000 false trivial
    (by decide) ⟨by decide, by decide⟩ rfl)
  have hback := hinside.step (.back 2 rfl rfl rfl)
  exact ⟨_, rfl, rfl, rfl, reachable_linked hback⟩

end IperfRuntime.TimerMachine
