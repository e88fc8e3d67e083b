import IperfRuntime.ClockReading
import IperfRuntime.StableInsertion
import Mathlib.Data.List.Nodup
import Mathlib.Data.List.Range

/-!
# The timer queue

`timer.c` keeps one list of active timers, sorted by due time, and one list of
free timers. A timer is named by its address; callbacks are a parameter, so the
queue can be run for any client. `tmr_run` walks the list through the pointer it
captured before each callback, while callbacks and rescheduling move timers.
-/

namespace IperfRuntime.TimerQueue

open ClockReading StableInsertion

/-- One `Timer` on the active list. -/
structure Timer (α : Type*) where
  /-- Where the structure lives. -/
  address : ℕ
  /-- The callback together with its client data. -/
  proc : α
  /-- Period, or delay of a one-shot timer. -/
  usecs : ℤ
  /-- Whether the timer is rescheduled after its callback. -/
  periodic : Bool
  /-- When the timer is due. -/
  time : Timeval
  deriving DecidableEq, Repr

/-- The two global lists, with the number of structures obtained from `malloc`. -/
structure TimerLists (α : Type*) where
  /-- `timers`: the active list in link order. -/
  timers : List (Timer α) := []
  /-- `free_timers`: addresses ready for reuse, the next one first. -/
  freeTimers : List ℕ := []
  /-- Structures allocated so far; their addresses are the numbers below it. -/
  allocated : ℕ := 0
  deriving DecidableEq, Repr

variable {α σ : Type*}

/-- The walk of `list_add` behind the head of the list. -/
def listAddBehind (t : Timer α) : List (Timer α) → List (Timer α)
  | [] => [t]
  | t2 :: rest => if t.time < t2.time then t :: t2 :: rest else t2 :: listAddBehind t rest

/-- `list_add`. -/
def listAdd (t : Timer α) : List (Timer α) → List (Timer α)
  | [] => [t]
  | head :: rest =>
    if t.time < head.time then t :: head :: rest else head :: listAddBehind t rest

/-- Walking to the place behind earlier timers is inserting in a stable order. -/
theorem listAddBehind_eq (t : Timer α) (l : List (Timer α)) :
    listAddBehind t l = insertStable Timer.time t l := by
  induction l with
  | nil => rfl
  | cons t2 rest ih => simp only [listAddBehind, insertStable, ih]

/-- The list insertion of `timer.c` is stable insertion by due time. -/
theorem listAdd_eq (t : Timer α) (l : List (Timer α)) :
    listAdd t l = insertStable Timer.time t l := by
  cases l with
  | nil => rfl
  | cons head rest => simp only [listAdd, insertStable, listAddBehind_eq]

/-- `list_remove`. -/
def listRemove (t : ℕ) (l : List (Timer α)) : List (Timer α) :=
  l.filter fun u => u.address ≠ t

/-- `list_resort` of a timer whose fields were changed in place. -/
def listResort (t : Timer α) (l : List (Timer α)) : List (Timer α) :=
  listAdd t (listRemove t.address l)

/-- The structure behind an address, while it is active. -/
def TimerLists.find (q : TimerLists α) (t : ℕ) : Option (Timer α) :=
  q.timers.find? fun u => u.address == t

/-- The `next` pointer of a timer on the list. -/
def nextOf (t : ℕ) : List (Timer α) → Option ℕ
  | [] => none
  | u :: rest => if u.address = t then rest.head?.map Timer.address else nextOf t rest

/-- `tmr_create`; `malloc` tells whether a fresh allocation would succeed. -/
def tmrCreate (q : TimerLists α) (malloc : Bool) (now : Timeval) (proc : α) (usecs : ℤ)
    (periodic : Bool) : Option ℕ × TimerLists α :=
  match q.freeTimers with
  | t :: free =>
    (some t, { q with
      timers := listAdd ⟨t, proc, usecs, periodic, addUsecs now usecs⟩ q.timers
      freeTimers := free })
  | [] =>
    if malloc then
      (some q.allocated, { q with
        timers := listAdd ⟨q.allocated, proc, usecs, periodic, addUsecs now usecs⟩ q.timers
        allocated := q.allocated + 1 })
    else (none, q)

/-- `tmr_timeout`: how long `select` may wait, `none` without active timers. -/
def tmrTimeout (q : TimerLists α) (now : Timeval) : Option Timeval :=
  q.timers.head?.map fun t =>
    let usecs := (t.time.tvSec - now.tvSec) * 1000000 + (t.time.tvUsec - now.tvUsec)
    let usecs := if usecs ≤ 0 then 0 else usecs
    ⟨usecs.tdiv 1000000, usecs.tmod 1000000⟩

/-- `tmr_reset`. -/
def tmrReset (now : Timeval) (t : ℕ) (q : TimerLists α) : TimerLists α :=
  match q.find t with
  | some timer =>
    { q with timers := listResort { timer with time := addUsecs now timer.usecs } q.timers }
  | none => q

/-- `tmr_cancel`. -/
def tmrCancel (t : ℕ) (q : TimerLists α) : TimerLists α :=
  { q with timers := listRemove t q.timers, freeTimers := t :: q.freeTimers }

/-- What `tmr_run` does with a timer after its callback: a periodic one moves by
its period, any other one is cancelled. -/
def finishTimer (t : ℕ) (q : TimerLists α) : TimerLists α :=
  match q.find t with
  | some timer =>
    if timer.periodic then
      { q with
        timers := listResort { timer with time := addUsecs timer.time timer.usecs } q.timers }
    else tmrCancel t q
  | none => q

/-- The loop of `tmr_run` from the pointer `t`. `next` is captured before the
callback runs. Without fuel the loop has no result. -/
def tmrRunFrom (call : α → Timeval → TimerLists α × σ → TimerLists α × σ) (now : Timeval) :
    ℕ → Option ℕ → TimerLists α × σ → Option (TimerLists α × σ)
  | 0, _, _ => none
  | _ + 1, none, w => some w
  | fuel + 1, some t, w =>
    match w.1.find t with
    | none => some w
    | some timer =>
      if now < timer.time then some w
      else
        let next := nextOf t w.1.timers
        let w' := call timer.proc now w
        tmrRunFrom call now fuel next (finishTimer t w'.1, w'.2)

/-- `tmr_run`. -/
def tmrRun (call : α → Timeval → TimerLists α × σ → TimerLists α × σ) (now : Timeval)
    (fuel : ℕ) (w : TimerLists α × σ) : Option (TimerLists α × σ) :=
  tmrRunFrom call now fuel (w.1.timers.head?.map Timer.address) w

/-- Addresses of the active list. -/
def addresses (l : List (Timer α)) : List ℕ := l.map Timer.address

/-- The representation invariant: every structure ever allocated is on exactly
one of the two lists, and the active list is sorted by due time. -/
structure TimerLists.Valid (q : TimerLists α) : Prop where
  /-- No timer is lost or duplicated. -/
  owned : (addresses q.timers ++ q.freeTimers).Perm (List.range q.allocated)
  /-- Due times never decrease along the active list. -/
  ordered : Ordered Timer.time q.timers

/-- The empty queue of a fresh process. -/
theorem valid_empty : (TimerLists.Valid ({} : TimerLists α)) :=
  ⟨List.Perm.refl _, List.Pairwise.nil⟩

/-- No timer is twice in the lists, nor in both of them. -/
theorem TimerLists.Valid.nodup {q : TimerLists α} (h : q.Valid) :
    (addresses q.timers ++ q.freeTimers).Nodup :=
  h.owned.nodup_iff.mpr List.nodup_range

/-- No timer is twice in the active list. -/
theorem TimerLists.Valid.nodup_active {q : TimerLists α} (h : q.Valid) :
    (addresses q.timers).Nodup :=
  (List.nodup_append.mp h.nodup).1

/-- Active addresses identify their structures. -/
theorem TimerLists.Valid.eq_of_address {q : TimerLists α} (h : q.Valid) {t u : Timer α}
    (ht : t ∈ q.timers) (hu : u ∈ q.timers) (ha : t.address = u.address) : t = u :=
  List.inj_on_of_nodup_map h.nodup_active ht hu ha

/-- An active timer is found at its address. -/
theorem TimerLists.Valid.find_eq {q : TimerLists α} (h : q.Valid) {t : Timer α}
    (ht : t ∈ q.timers) : q.find t.address = some t := by
  unfold TimerLists.find
  rw [List.find?_eq_some_iff_append]
  refine ⟨by simp, ?_⟩
  obtain ⟨pre, post, hq⟩ := List.append_of_mem ht
  refine ⟨pre, post, hq, ?_⟩
  intro u hu
  have hn := h.nodup_active
  rw [hq, addresses, List.map_append, List.map_cons] at hn
  have hd := (List.nodup_append.mp hn).2.2 u.address (List.mem_map_of_mem hu) t.address (by simp)
  simpa using hd

/-- What is found is active and lies at that address. -/
theorem TimerLists.find_some {q : TimerLists α} {a : ℕ} {t : Timer α} (h : q.find a = some t) :
    t ∈ q.timers ∧ t.address = a := by
  have hm := List.mem_of_find?_eq_some h
  have hp := List.find?_some h
  exact ⟨hm, by simpa using hp⟩

/-- Adding adds that timer and no other. -/
@[simp] theorem mem_listAdd {t u : Timer α} {l : List (Timer α)} :
    u ∈ listAdd t l ↔ u = t ∨ u ∈ l := by
  rw [listAdd_eq, mem_insertStable]

/-- Removing removes the timers at that address and no other. -/
@[simp] theorem mem_listRemove {a : ℕ} {u : Timer α} {l : List (Timer α)} :
    u ∈ listRemove a l ↔ u ∈ l ∧ u.address ≠ a := by
  simp [listRemove]

/-- Sorting a timer in again puts it in the place of the one at its address. -/
theorem mem_listResort {t u : Timer α} {l : List (Timer α)} :
    u ∈ listResort t l ↔ u = t ∨ u ∈ l ∧ u.address ≠ t.address := by
  simp [listResort]

/-- Adding keeps the order of the times. -/
theorem listAdd_ordered {t : Timer α} {l : List (Timer α)} (h : Ordered Timer.time l) :
    Ordered Timer.time (listAdd t l) := by
  rw [listAdd_eq]
  exact insertStable_ordered h

/-- So does removing. -/
theorem listRemove_ordered {a : ℕ} {l : List (Timer α)} (h : Ordered Timer.time l) :
    Ordered Timer.time (listRemove a l) :=
  h.sublist List.filter_sublist

/-- Adding adds one address. -/
theorem addresses_listAdd (t : Timer α) (l : List (Timer α)) :
    (addresses (listAdd t l)).Perm (t.address :: addresses l) := by
  rw [listAdd_eq]
  exact (insertStable_perm t l).map Timer.address

/-- Removing takes one address away. -/
theorem addresses_listRemove (a : ℕ) (l : List (Timer α)) :
    addresses (listRemove a l) = (addresses l).filter (· ≠ a) := by
  simp only [addresses, listRemove, List.filter_map]
  rfl

/-- Removing an active address takes exactly that address away. -/
theorem addresses_perm_remove {l : List (Timer α)} {t : Timer α} (hn : (addresses l).Nodup)
    (ht : t ∈ l) : (t.address :: addresses (listRemove t.address l)).Perm (addresses l) := by
  have hm : t.address ∈ addresses l := List.mem_map_of_mem ht
  rw [addresses_listRemove]
  have he : (addresses l).filter (· ≠ t.address) = (addresses l).erase t.address := by
    rw [hn.erase_eq_filter]
    refine List.filter_congr fun a _ => ?_
    by_cases ha : a = t.address <;> simp [ha]
  rw [he]
  exact (List.perm_cons_erase hm).symm

/-- Resorting an active timer permutes the addresses. -/
theorem addresses_listResort {l : List (Timer α)} {t u : Timer α} (hn : (addresses l).Nodup)
    (ht : t ∈ l) (hu : u.address = t.address) :
    (addresses (listResort u l)).Perm (addresses l) := by
  refine (addresses_listAdd u _).trans ?_
  rw [hu]
  exact addresses_perm_remove hn ht

/-- Resorting an active timer, with new fields, keeps the invariant. -/
theorem TimerLists.Valid.resort {q : TimerLists α} (h : q.Valid) {t u : Timer α}
    (ht : t ∈ q.timers) (hu : u.address = t.address) :
    TimerLists.Valid { q with timers := listResort u q.timers } where
  owned := ((addresses_listResort h.nodup_active ht hu).append_right _).trans h.owned
  ordered := listAdd_ordered (listRemove_ordered h.ordered)

/-- Cancelling an active timer keeps the lists valid. -/
theorem TimerLists.Valid.cancel {q : TimerLists α} (h : q.Valid) {t : Timer α}
    (ht : t ∈ q.timers) : (tmrCancel t.address q).Valid where
  owned := by
    have hp := addresses_perm_remove h.nodup_active ht
    exact (List.perm_middle.trans (hp.append_right _)).trans h.owned
  ordered := listRemove_ordered h.ordered

/-- So does a reset, also of a timer that is not there. -/
theorem TimerLists.Valid.reset {q : TimerLists α} (h : q.Valid) (now : Timeval) (t : ℕ) :
    (tmrReset now t q).Valid := by
  unfold tmrReset
  split
  · rename_i timer hf
    exact h.resort (TimerLists.find_some hf).1 rfl
  · exact h

/-- So does what `tmr_run` does after a callback. -/
theorem TimerLists.Valid.finish {q : TimerLists α} (h : q.Valid) (t : ℕ) :
    (finishTimer t q).Valid := by
  unfold finishTimer
  split
  · rename_i timer hf
    obtain ⟨hm, ha⟩ := TimerLists.find_some hf
    split
    · exact h.resort hm rfl
    · rw [← ha]
      exact h.cancel hm
  · exact h

/-- A created timer is active under an address that no active timer had. -/
theorem TimerLists.Valid.create {q : TimerLists α} (h : q.Valid) (malloc : Bool) (now : Timeval)
    (proc : α) (usecs : ℤ) (periodic : Bool) :
    (tmrCreate q malloc now proc usecs periodic).2.Valid := by
  unfold tmrCreate
  cases hf : q.freeTimers with
  | cons t free =>
    refine ⟨?_, listAdd_ordered h.ordered⟩
    have ho := h.owned
    rw [hf] at ho
    exact ((addresses_listAdd _ _).append_right _).trans (List.perm_middle.symm.trans ho)
  | nil =>
    have ho := h.owned
    rw [hf, List.append_nil] at ho
    cases malloc with
    | false => exact h
    | true =>
      refine ⟨?_, listAdd_ordered h.ordered⟩
      simp only [if_true, List.append_nil, List.range_succ]
      exact (addresses_listAdd _ _).trans
        ((List.Perm.cons _ ho).trans (List.perm_append_singleton _ _).symm)

end IperfRuntime.TimerQueue
