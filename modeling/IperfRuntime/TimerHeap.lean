import IperfRuntime.LinkedCells
import IperfRuntime.TimerEntries

/-!
# Timers in memory

The pointer code of `timer.c`: the active list through `prev` and `next`, the free list through
`next` alone. A computation without a result has followed a pointer to nothing or has walked
further than its fuel. On lists that are linked every routine comes back and does what the
queue of timers does.
-/

namespace IperfRuntime.TimerHeap

open ClockReading StableInsertion TimerQueue TimerPairs TimerEntries LinkedCells

/-- What a `Timer` holds besides its two pointers. -/
structure TimerData (α : Type*) where
  timerProc : α
  usecs : ℤ
  periodic : Bool
  time : Timeval
  deriving DecidableEq, Repr

/-- The structures in memory with the two globals. -/
structure Heap (α : Type*) where
  memory : Memory (TimerData α) := fun _ => none
  timers : Option ℕ := none
  freeTimers : Option ℕ := none
  /-- Structures allocated so far; their addresses are the numbers below it. -/
  allocated : ℕ := 0

variable {α : Type*}

/-- A write through a pointer. -/
def Heap.write (h : Heap α) (t : ℕ) (f : Cell (TimerData α) → Cell (TimerData α)) :
    Option (Heap α) :=
  if (h.memory t).isSome then some { h with memory := h.memory.modify t f } else none

/-- The walk of `list_add`, with `t2prev` and `t2`. -/
def listAddBehind (t : ℕ) (time : Timeval) : ℕ → ℕ → Option ℕ → Heap α → Option (Heap α)
  | 0, _, _, _ => none
  | _ + 1, t2prev, none, h => do
    let h ← h.write t2prev fun c => { c with next := some t }
    h.write t fun c => { c with prev := some t2prev, next := none }
  | fuel + 1, t2prev, some t2, h => do
    let c2 ← h.memory t2
    if time < c2.data.time then do
      let h ← h.write t2prev fun c => { c with next := some t }
      let h ← h.write t fun c => { c with prev := some t2prev, next := some t2 }
      h.write t2 fun c => { c with prev := some t }
    else listAddBehind t time fuel t2 c2.next h

/-- `list_add`. -/
def listAdd (fuel t : ℕ) (h : Heap α) : Option (Heap α) :=
  match h.timers with
  | none => do
    let h ← h.write t fun c => { c with prev := none, next := none }
    some { h with timers := some t }
  | some head => do
    let c ← h.memory t
    let c2 ← h.memory head
    if c.data.time < c2.data.time then do
      let h ← h.write t fun c => { c with prev := none, next := some head }
      let h ← h.write head fun c => { c with prev := some t }
      some { h with timers := some t }
    else listAddBehind t c.data.time fuel head c2.next h

/-- The first half of `list_remove`: what stood in front of the timer. -/
def removeFront (c : Cell (TimerData α)) (h : Heap α) : Option (Heap α) :=
  match c.prev with
  | none => some { h with timers := c.next }
  | some p => h.write p fun d => { d with next := c.next }

/-- The second half: what stood behind it. -/
def removeBack (c : Cell (TimerData α)) (h : Heap α) : Option (Heap α) :=
  match c.next with
  | none => some h
  | some n => h.write n fun d => { d with prev := c.prev }

/-- `list_remove`. -/
def listRemove (t : ℕ) (h : Heap α) : Option (Heap α) := do
  let c ← h.memory t
  let h ← removeFront c h
  let c ← h.memory t
  removeBack c h

/-- `list_resort`. -/
def listResort (fuel t : ℕ) (h : Heap α) : Option (Heap α) := do
  let h ← listRemove t h
  listAdd fuel t h

/-- `tmr_create`; `malloc` is what it leaves in the two pointers of a new structure, if there
is one. -/
def tmrCreate (fuel : ℕ) (malloc : Option (Option ℕ × Option ℕ)) (now : Timeval) (proc : α)
    (usecs : ℤ) (periodic : Bool) (h : Heap α) : Option (Option ℕ × Heap α) :=
  match h.freeTimers with
  | some t => do
    let c ← h.memory t
    let h ← { h with freeTimers := c.next }.write t fun c =>
      { c with data := ⟨proc, usecs, periodic, addUsecs now usecs⟩ }
    let h ← listAdd fuel t h
    some (some t, h)
  | none =>
    match malloc with
    | none => some (none, h)
    | some (prev, next) => do
      let t := h.allocated
      let h ← listAdd fuel t { h with
        memory := Function.update h.memory t
          (some ⟨⟨proc, usecs, periodic, addUsecs now usecs⟩, prev, next⟩)
        allocated := t + 1 }
      some (some t, h)

/-- `tmr_reset`. -/
def tmrReset (fuel : ℕ) (now : Timeval) (t : ℕ) (h : Heap α) : Option (Heap α) := do
  let h ← h.write t fun c => { c with data := { c.data with time := addUsecs now c.data.usecs } }
  listResort fuel t h

/-- `tmr_cancel`. -/
def tmrCancel (t : ℕ) (h : Heap α) : Option (Heap α) := do
  let h ← listRemove t h
  let h ← h.write t fun c => { c with prev := none, next := h.freeTimers }
  some { h with freeTimers := some t }

/-- What `tmr_run` does with a timer behind its callback. -/
def finishTimer (fuel t : ℕ) (h : Heap α) : Option (Heap α) := do
  let c ← h.memory t
  if c.data.periodic then do
    let h ← h.write t fun c =>
      { c with data := { c.data with time := addUsecs c.data.time c.data.usecs } }
    listResort fuel t h
  else tmrCancel t h

/-- The loop of `tmr_run` from the pointer `t`, with callbacks that leave the lists alone. -/
def tmrRunFrom {σ : Type*} (step : α → Timeval → σ → σ) (now : Timeval) (fuel : ℕ) :
    ℕ → Option ℕ → Heap α × σ → Option (Heap α × σ)
  | 0, _, _ => none
  | _ + 1, none, w => some w
  | n + 1, some t, w =>
    (w.1.memory t).bind fun c =>
      if now < c.data.time then some w
      else (finishTimer fuel t w.1).bind fun h =>
        tmrRunFrom step now fuel n c.next (h, step c.data.timerProc now w.2)

section Fuel

variable {fuel fuel' t t2prev : ℕ} {t2 : Option ℕ} {time : Timeval} {h h' : Heap α}

/-- A walk that ends does so with more fuel. -/
theorem listAddBehind_mono (hle : fuel ≤ fuel')
    (hrun : listAddBehind t time fuel t2prev t2 h = some h') :
    listAddBehind t time fuel' t2prev t2 h = some h' := by
  induction fuel generalizing fuel' t2prev t2 with
  | zero => cases hrun
  | succ fuel ih =>
    obtain ⟨fuel', rfl⟩ := Nat.exists_eq_add_of_lt hle
    cases t2 with
    | none => exact hrun
    | some t2 =>
      rw [listAddBehind] at hrun ⊢
      obtain ⟨c2, hc2, hrest⟩ := Option.bind_eq_some_iff.mp hrun
      refine Option.bind_eq_some_iff.mpr ⟨c2, hc2, ?_⟩
      split at hrest
      · rename_i hbefore
        rw [if_pos hbefore]
        exact hrest
      · rename_i hbehind
        rw [if_neg hbehind]
        exact ih (Nat.le_add_right _ _) hrest

/-- With more fuel than it needs, `list_add` does the same. -/
theorem listAdd_mono (hle : fuel ≤ fuel') (hrun : listAdd fuel t h = some h') :
    listAdd fuel' t h = some h' := by
  unfold listAdd at hrun ⊢
  split at hrun
  · exact hrun
  · obtain ⟨c, hc, hrest⟩ := Option.bind_eq_some_iff.mp hrun
    obtain ⟨c2, hc2, hlast⟩ := Option.bind_eq_some_iff.mp hrest
    refine Option.bind_eq_some_iff.mpr ⟨c, hc, Option.bind_eq_some_iff.mpr ⟨c2, hc2, ?_⟩⟩
    split at hlast
    · rename_i hbefore
      rw [if_pos hbefore]
      exact hlast
    · rename_i hbehind
      rw [if_neg hbehind]
      exact listAddBehind_mono hle hlast

/-- So does `list_resort`. -/
theorem listResort_mono (hle : fuel ≤ fuel') (hrun : listResort fuel t h = some h') :
    listResort fuel' t h = some h' := by
  obtain ⟨h₁, hremove, hadd⟩ := Option.bind_eq_some_iff.mp hrun
  exact Option.bind_eq_some_iff.mpr ⟨h₁, hremove, listAdd_mono hle hadd⟩

/-- So does `tmr_create`. -/
theorem tmrCreate_mono {malloc : Option (Option ℕ × Option ℕ)} {now : Timeval} {proc : α}
    {usecs : ℤ} {periodic : Bool} {r : Option ℕ × Heap α} (hle : fuel ≤ fuel')
    (hrun : tmrCreate fuel malloc now proc usecs periodic h = some r) :
    tmrCreate fuel' malloc now proc usecs periodic h = some r := by
  unfold tmrCreate at hrun ⊢
  split at hrun
  · obtain ⟨c, hc, hrest⟩ := Option.bind_eq_some_iff.mp hrun
    obtain ⟨h₁, hwrite, hlast⟩ := Option.bind_eq_some_iff.mp hrest
    obtain ⟨h₂, hadd, hr⟩ := Option.bind_eq_some_iff.mp hlast
    exact Option.bind_eq_some_iff.mpr ⟨c, hc, Option.bind_eq_some_iff.mpr ⟨h₁, hwrite,
      Option.bind_eq_some_iff.mpr ⟨h₂, listAdd_mono hle hadd, hr⟩⟩⟩
  · cases malloc with
    | none => exact hrun
    | some pointers =>
      obtain ⟨h₁, hadd, hr⟩ := Option.bind_eq_some_iff.mp hrun
      exact Option.bind_eq_some_iff.mpr ⟨h₁, listAdd_mono hle hadd, hr⟩

/-- So does `tmr_reset`. -/
theorem tmrReset_mono {now : Timeval} (hle : fuel ≤ fuel')
    (hrun : tmrReset fuel now t h = some h') : tmrReset fuel' now t h = some h' := by
  obtain ⟨h₁, hwrite, hresort⟩ := Option.bind_eq_some_iff.mp hrun
  exact Option.bind_eq_some_iff.mpr ⟨h₁, hwrite, listResort_mono hle hresort⟩

/-- So does what `tmr_run` does after the callback of a timer. -/
theorem finishTimer_mono (hle : fuel ≤ fuel') (hrun : finishTimer fuel t h = some h') :
    finishTimer fuel' t h = some h' := by
  obtain ⟨c, hc, hrest⟩ := Option.bind_eq_some_iff.mp hrun
  refine Option.bind_eq_some_iff.mpr ⟨c, hc, ?_⟩
  split at hrest
  · rename_i hperiodic
    rw [if_pos hperiodic]
    obtain ⟨h₁, hwrite, hresort⟩ := Option.bind_eq_some_iff.mp hrest
    exact Option.bind_eq_some_iff.mpr ⟨h₁, hwrite, listResort_mono hle hresort⟩
  · rename_i honce
    rw [if_neg honce]
    exact hrest

end Fuel

/-- A timer of the queue as its cell has it. -/
def entry (t : Timer α) : ℕ × TimerData α :=
  (t.address, ⟨t.proc, t.usecs, t.periodic, t.time⟩)

/-- The cells of a list of timers. -/
def entries (l : List (Timer α)) : List (ℕ × TimerData α) := l.map entry

/-- The active list of a heap. -/
structure ActiveList (h : Heap α) (l : List (Timer α)) : Prop where
  segment : Segment h.memory none (entries l) none
  head : h.timers = first (entries l) none

variable {h : Heap α} {t u : Timer α} {l pre post : List (Timer α)} {a : ℕ}
  {c : Cell (TimerData α)} {f : Cell (TimerData α) → Cell (TimerData α)}

/-- The entries of a list lie at the addresses of its timers. -/
@[simp] theorem keys_entries (l : List (Timer α)) : keys (entries l) = addresses l := by
  unfold keys entries addresses
  rw [List.map_map]
  rfl

/-- Two lists give the entries of the first and then those of the second. -/
@[simp] theorem entries_append (l l' : List (Timer α)) :
    entries (l ++ l') = entries l ++ entries l' := List.map_append

/-- The first timer gives the first entry. -/
@[simp] theorem entries_cons (t : Timer α) (l : List (Timer α)) :
    entries (t :: l) = entry t :: entries l := rfl

/-- Writing to a block that is allocated succeeds. -/
theorem write_eq (hcell : (h.memory a).isSome = true) :
    h.write a f = some { h with memory := h.memory.modify a f } := if_pos hcell

/-- The cell of a timer on a list. -/
theorem cell_of_segment (hs : Segment h.memory none (entries (pre ++ t :: post)) none) :
    h.memory t.address =
      some ⟨(entry t).2, last none (entries pre), first (entries post) none⟩ := by
  rw [entries_append, entries_cons] at hs
  exact (segment_append.mp hs).2.1

/-- An address with a cell is allocated. -/
theorem isSome_of_cell (hcell : h.memory a = some c) : (h.memory a).isSome = true := by
  rw [hcell]
  rfl

/-- `list_remove` of a timer takes it out of the list, by linking its neighbours to each other
and moving the head if it was the first. -/
theorem listRemove_eq (ha : ActiveList h (pre ++ t :: post))
    (hnodup : (addresses (pre ++ t :: post)).Nodup) :
    listRemove t.address h = some { h with
      memory := unlink (last none (entries pre)) (first (entries post) none) h.memory
      timers := first (entries (pre ++ post)) none } := by
  have hcell := cell_of_segment ha.segment
  have hsome : ∀ b ∈ addresses (pre ++ t :: post), (h.memory b).isSome = true :=
    fun b hb => ha.segment.isSome (by rwa [keys_entries])
  obtain ⟨hnotpre, hnotpost⟩ := not_mem_parts hnodup
  have hfront : removeFront ⟨(entry t).2, last none (entries pre), first (entries post) none⟩ h =
      some { h with
        memory := setNext (last none (entries pre)) (first (entries post) none) h.memory
        timers := first (entries (pre ++ post)) none } := by
    unfold removeFront
    cases hlast : last none (entries pre) with
    | none =>
      have hempty : pre = [] := List.map_eq_nil_iff.mp (last_eq_none hlast)
      subst hempty
      rfl
    | some p =>
      have hmem : p ∈ addresses pre := by
        rw [← keys_entries]
        exact last_eq_some hlast
      have hp : (h.memory p).isSome = true :=
        hsome p (by rw [addresses, List.map_append]; exact List.mem_append_left _ hmem)
      have hhead : h.timers = first (entries (pre ++ post)) none := by
        rw [ha.head]
        cases pre with
        | nil => cases hmem
        | cons x pre => rfl
      dsimp only
      rw [write_eq hp, ← hhead]
      rfl
  unfold listRemove
  rw [hcell]
  dsimp only [Option.bind_eq_bind, Option.bind_some]
  rw [hfront]
  dsimp only [Option.bind_some]
  rw [setNext_other (last_ne (by rwa [keys_entries])), hcell]
  dsimp only [Option.bind_some]
  unfold removeBack unlink
  cases hfirst : first (entries post) none with
  | none => rfl
  | some n =>
    have hmem : n ∈ addresses post := by
      rw [← keys_entries]
      exact first_eq_some hfirst
    have hn : (h.memory n).isSome = true := hsome n (by
      rw [addresses, List.map_append]
      exact List.mem_append_right _ (List.mem_cons_of_mem _ hmem))
    exact write_eq (isSome_setNext _ _ hn)

/-- The walk of `list_add` from one of the timers on ends behind the last timer that is not
later, and links the new one there. -/
theorem listAddBehind_eq {rest : List (Timer α)} (fuel : ℕ) (hfuel : rest.length < fuel)
    (hcell : (h.memory t.address).isSome = true)
    (hs : Segment h.memory none (entries (pre ++ u :: rest)) none) :
    ∃ mid post, rest = mid ++ post ∧
      insertStable Timer.time t rest = mid ++ t :: post ∧
      listAddBehind t.address t.time fuel u.address (first (entries rest) none) h =
        some { h with
          memory := link (last none (entries (pre ++ u :: mid))) t.address
            (first (entries post) none) h.memory } := by
  have hu : (h.memory u.address).isSome = true := isSome_of_cell (cell_of_segment hs)
  have hlast : ∀ (pre : List (Timer α)) (u : Timer α),
      last none (entries (pre ++ [u])) = some u.address := by
    intro pre u
    rw [entries_append, last_append]
    rfl
  induction rest generalizing pre u fuel with
  | nil =>
    obtain ⟨fuel, rfl⟩ := Nat.exists_eq_succ_of_ne_zero (Nat.ne_zero_of_lt hfuel)
    refine ⟨[], [], rfl, rfl, ?_⟩
    rw [hlast]
    change listAddBehind t.address t.time (fuel + 1) u.address none h = _
    rw [listAddBehind, write_eq hu]
    exact write_eq (isSome_modify _ _ hcell)
  | cons v rest ih =>
    obtain ⟨fuel, rfl⟩ := Nat.exists_eq_succ_of_ne_zero (Nat.ne_zero_of_lt hfuel)
    have hsplit : pre ++ u :: v :: rest = (pre ++ [u]) ++ v :: rest := by simp
    rw [hsplit] at hs
    have hv := cell_of_segment hs
    have hstep : listAddBehind t.address t.time (fuel + 1) u.address
        (first (entries (v :: rest)) none) h =
          if t.time < v.time then do
            let h ← h.write u.address fun c => { c with next := some t.address }
            let h ← h.write t.address fun c =>
              { c with prev := some u.address, next := some v.address }
            h.write v.address fun c => { c with prev := some t.address }
          else listAddBehind t.address t.time fuel v.address (first (entries rest) none) h := by
      change listAddBehind t.address t.time (fuel + 1) u.address (some v.address) h = _
      rw [listAddBehind, hv]
      rfl
    rw [hstep]
    by_cases hbefore : t.time < v.time
    · refine ⟨[], v :: rest, rfl, if_pos hbefore, ?_⟩
      rw [if_pos hbefore, write_eq hu, hlast]
      dsimp only [Option.bind_eq_bind, Option.bind_some]
      rw [write_eq (isSome_modify _ _ hcell)]
      exact write_eq (isSome_modify _ _ (isSome_modify _ _ (isSome_of_cell hv)))
    · obtain ⟨mid, post, hrest, hinsert, hwalk⟩ := ih fuel (Nat.lt_of_succ_lt_succ hfuel) hs
        (isSome_of_cell hv)
      refine ⟨v :: mid, post, congrArg (v :: ·) hrest, ?_, ?_⟩
      · rw [insertStable, if_neg hbefore, hinsert]
        rfl
      · rw [if_neg hbefore, hwalk]
        simp

/-- `list_add` puts a timer into the list where the queue does: in front of the first later
one, or at the end. -/
theorem listAdd_eq {fuel : ℕ} (hfuel : l.length ≤ fuel) (ha : ActiveList h l)
    (hcell : h.memory t.address = some c) (hdata : c.data.time = t.time) :
    ∃ pre post, l = pre ++ post ∧ TimerQueue.listAdd t l = pre ++ t :: post ∧
      listAdd fuel t.address h = some { h with
        memory := link (last none (entries pre)) t.address (first (entries post) none) h.memory
        timers := first (entries (pre ++ t :: post)) none } := by
  have ht := isSome_of_cell hcell
  cases l with
  | nil =>
    refine ⟨[], [], rfl, rfl, ?_⟩
    have hhead : h.timers = none := ha.head
    unfold listAdd
    rw [hhead]
    dsimp only
    rw [write_eq ht]
    rfl
  | cons head rest =>
    have hhead : h.timers = some head.address := ha.head
    have hu := @cell_of_segment α h head [] rest ha.segment
    have hstep : listAdd fuel t.address h =
        if t.time < head.time then do
          let h ← h.write t.address fun c => { c with prev := none, next := some head.address }
          let h ← h.write head.address fun c => { c with prev := some t.address }
          some { h with timers := some t.address }
        else listAddBehind t.address t.time fuel head.address (first (entries rest) none) h := by
      unfold listAdd
      rw [hhead]
      dsimp only
      rw [hcell, hu, ← hdata]
      rfl
    rw [hstep]
    by_cases hbefore : t.time < head.time
    · refine ⟨[], head :: rest, rfl, if_pos hbefore, ?_⟩
      rw [if_pos hbefore, write_eq ht]
      dsimp only [Option.bind_eq_bind, Option.bind_some]
      rw [write_eq (isSome_modify _ _ (isSome_of_cell hu))]
      rfl
    · obtain ⟨mid, post, hrest, hinsert, hwalk⟩ :=
        @listAddBehind_eq α h t head [] rest fuel (Nat.lt_of_succ_le hfuel) ht ha.segment
      refine ⟨head :: mid, post, congrArg (head :: ·) hrest, ?_, ?_⟩
      · rw [TimerQueue.listAdd_eq, insertStable, if_neg hbefore, hinsert]
        rfl
      · rw [if_neg hbefore, hwalk]
        have hsame : first (entries (head :: mid ++ t :: post)) none = h.timers := hhead.symm
        rw [hsame]
        rfl

/-- The two lists of a heap. -/
structure Lists (h : Heap α) (l : List (Timer α)) (free : List ℕ) : Prop where
  active : ActiveList h l
  chain : Chain h.memory h.freeTimers free
  nodup : (addresses l ++ free).Nodup

variable {free : List ℕ}

/-- No timer in use lies on the free list. -/
theorem Lists.apart (hl : Lists h l free) (ha : a ∈ free) : a ∉ addresses l :=
  fun hmem => (List.nodup_append.mp hl.nodup).2.2 _ hmem _ ha rfl

/-- A timer stands on the lists once. -/
theorem Lists.not_mem_others (hl : Lists h (pre ++ t :: post) free) :
    t.address ∉ addresses (pre ++ post) ++ free := by
  have hnodup := hl.nodup
  rw [addresses, List.map_append, List.map_cons, List.append_assoc, List.cons_append] at hnodup
  rw [addresses, List.map_append, List.append_assoc]
  exact (List.nodup_cons.mp (List.perm_middle.nodup_iff.mp hnodup)).1

/-- An address outside both parts of a list is outside their entries. -/
theorem mem_keys_of_parts (ha : a ∉ addresses (pre ++ post)) :
    a ∉ keys (entries pre ++ entries post) := by
  rwa [← entries_append, keys_entries]

/-- `list_remove` on both lists: the cell that is out is as it was. -/
theorem Lists.remove (hl : Lists h (pre ++ t :: post) free) :
    ∃ h', listRemove t.address h = some h' ∧ Lists h' (pre ++ post) free ∧
      h'.memory t.address = h.memory t.address ∧ h'.allocated = h.allocated := by
  have hnodup := (List.nodup_append.mp hl.nodup).1
  have hsub : ∀ b ∈ addresses (pre ++ post), b ∈ addresses (pre ++ t :: post) := by
    intro b hb
    obtain ⟨u, hu, rfl⟩ := List.mem_map.mp hb
    refine List.mem_map_of_mem ?_
    rcases List.mem_append.mp hu with hu | hu
    · exact List.mem_append_left _ hu
    · exact List.mem_append_right _ (List.mem_cons_of_mem _ hu)
  refine ⟨_, listRemove_eq hl.active hnodup, ⟨⟨?_, rfl⟩, ?_, ?_⟩, ?_, rfl⟩
  · have hsegment := hl.active.segment
    rw [entries_append, entries_cons] at hsegment
    rw [entries_append]
    refine hsegment.unlink ?_
    rw [← entries_cons, ← entries_append, keys_entries]
    exact hnodup
  · exact hl.chain.congr fun b hb =>
      unlink_other (mem_keys_of_parts fun hmem => hl.apart hb (hsub b hmem))
  · refine hl.nodup.sublist (List.Sublist.append_right ?_ _)
    exact (List.Sublist.append_left (List.sublist_cons_self t post) pre).map _
  · exact unlink_other (mem_keys_of_parts fun hmem =>
      hl.not_mem_others (List.mem_append_left _ hmem))

/-- `list_add` on both lists: the active one gets the timer at its place, and the free one is
not touched. -/
theorem Lists.add {fuel : ℕ} (hl : Lists h l free) (hfuel : l.length ≤ fuel)
    (hcell : h.memory t.address = some c) (hdata : c.data = (entry t).2)
    (hnew : t.address ∉ addresses l ++ free) :
    ∃ h', listAdd fuel t.address h = some h' ∧ Lists h' (TimerQueue.listAdd t l) free ∧
      h'.allocated = h.allocated := by
  have htime : c.data.time = t.time := by
    rw [hdata]
    rfl
  obtain ⟨pre, post, rfl, hadd, hrun⟩ := listAdd_eq hfuel hl.active hcell htime
  have hnewactive : t.address ∉ addresses (pre ++ post) :=
    fun hmem => hnew (List.mem_append_left _ hmem)
  refine ⟨_, hrun, ?_, rfl⟩
  rw [hadd]
  refine ⟨⟨?_, rfl⟩, ?_, ?_⟩
  · have hsegment := hl.active.segment
    rw [entries_append] at hsegment
    rw [entries_append, entries_cons]
    refine hsegment.link ?_ (mem_keys_of_parts hnewactive) hcell hdata
    rw [← entries_append, keys_entries]
    exact (List.nodup_append.mp hl.nodup).1
  · refine hl.chain.congr fun b hb => link_other (mem_keys_of_parts (hl.apart hb)) ?_
    rintro rfl
    exact hnew (List.mem_append_right _ hb)
  · have hperm : (addresses (pre ++ t :: post) ++ free).Perm
        (t.address :: (addresses (pre ++ post) ++ free)) :=
      (List.perm_middle.map Timer.address).append_right free
    exact hperm.nodup_iff.mpr (List.nodup_cons.mpr ⟨hnew, hl.nodup⟩)

/-- Other data in the cell of an active timer. -/
theorem Lists.setData (hl : Lists h (pre ++ t :: post) free) {t' : Timer α}
    (haddress : t'.address = t.address) :
    Lists { h with memory := h.memory.modify t.address fun c => { c with data := (entry t').2 } }
      (pre ++ t' :: post) free := by
  have hsame : addresses (pre ++ t' :: post) = addresses (pre ++ t :: post) := by
    rw [addresses, addresses, List.map_append, List.map_append, List.map_cons, List.map_cons,
      haddress]
  refine ⟨⟨?_, ?_⟩, ?_, ?_⟩
  · have hsegment := hl.active.segment
    rw [entries_append, entries_cons] at hsegment ⊢
    refine hsegment.modify_data ?_ haddress
    rw [← entries_cons, ← entries_append, keys_entries]
    exact (List.nodup_append.mp hl.nodup).1
  · have hhead := hl.active.head
    rw [entries_append, entries_cons, first_append_cons] at hhead ⊢
    have hkey : (entry t').1 = (entry t).1 := haddress
    rw [hkey]
    exact hhead
  · refine hl.chain.congr fun b hb => modify_other ?_
    rintro rfl
    exact hl.apart hb (List.mem_map_of_mem (List.mem_append_right _ List.mem_cons_self))
  · rw [hsame]
    exact hl.nodup

/-- A timer goes to the head of the free list. -/
theorem Lists.release (hl : Lists h l free) (hcell : h.memory a = some c)
    (hnew : a ∉ addresses l ++ free) :
    Lists { h with
      memory := h.memory.modify a fun c => { c with prev := none, next := h.freeTimers }
      freeTimers := some a } l (a :: free) := by
  have hapart : ∀ b ∈ addresses l ++ free, b ≠ a := by
    rintro b hb rfl
    exact hnew hb
  refine ⟨⟨?_, hl.active.head⟩, ⟨rfl, _, modify_same hcell, ?_⟩, ?_⟩
  · refine hl.active.segment.congr fun b hb => modify_other (hapart b ?_)
    rw [keys_entries] at hb
    exact List.mem_append_left _ hb
  · exact hl.chain.congr fun b hb => modify_other (hapart b (List.mem_append_right _ hb))
  · exact List.perm_middle.nodup_iff.mpr (List.nodup_cons.mpr ⟨hnew, hl.nodup⟩)

/-- The structure at the head of the free list leaves it, with new data. -/
theorem Lists.acquire (hl : Lists h l (a :: free)) (d : TimerData α) :
    ∃ c, h.memory a = some c ∧
      Lists { h with
        memory := h.memory.modify a fun c => { c with data := d }
        freeTimers := c.next } l free ∧
      a ∉ addresses l ++ free := by
  obtain ⟨-, c, hcell, hrest⟩ := hl.chain
  have hnodup := List.nodup_cons.mp (List.perm_middle.nodup_iff.mp hl.nodup)
  have hapart : ∀ b ∈ addresses l ++ free, b ≠ a := by
    rintro b hb rfl
    exact hnodup.1 hb
  refine ⟨c, hcell, ⟨⟨?_, hl.active.head⟩, ?_, hnodup.2⟩, hnodup.1⟩
  · refine hl.active.segment.congr fun b hb => modify_other (hapart b ?_)
    rw [keys_entries] at hb
    exact List.mem_append_left _ hb
  · exact hrest.congr fun b hb => modify_other (hapart b (List.mem_append_right _ hb))

/-- A structure that neither list has, in new memory. -/
theorem Lists.allocate (hl : Lists h l free) (hnew : a ∉ addresses l ++ free)
    (c : Cell (TimerData α)) (n : ℕ) :
    Lists { h with memory := Function.update h.memory a (some c), allocated := n } l free := by
  have hapart : ∀ b ∈ addresses l ++ free, b ≠ a := by
    rintro b hb rfl
    exact hnew hb
  refine ⟨⟨?_, hl.active.head⟩, ?_, hl.nodup⟩
  · refine hl.active.segment.congr fun b hb => Function.update_of_ne (hapart b ?_) _ _
    rw [keys_entries] at hb
    exact List.mem_append_left _ hb
  · exact hl.chain.congr fun b hb =>
      Function.update_of_ne (hapart b (List.mem_append_right _ hb)) _ _

/-- A heap that holds the two lists of a queue. -/
structure Represents (h : Heap α) (q : TimerLists α) : Prop extends
    Lists h q.timers q.freeTimers where
  allocated : h.allocated = q.allocated

variable {q : TimerLists α} {fuel : ℕ}

/-- The empty heap represents the empty lists. -/
theorem represents_empty : Represents ({} : Heap α) {} :=
  ⟨⟨⟨trivial, rfl⟩, rfl, List.nodup_nil⟩, rfl⟩

/-- Fuel for every block ever allocated is enough for the active list. -/
theorem length_le (hq : q.Valid) (hfuel : q.allocated ≤ fuel) : q.timers.length ≤ fuel := by
  have hlength := hq.owned.length_eq
  rw [List.length_append, List.length_range] at hlength
  unfold addresses at hlength
  rw [List.length_map] at hlength
  omega

/-- Functions that agree on a cell modify it alike. -/
theorem modify_congr {m : Memory (TimerData α)} {g : Cell (TimerData α) → Cell (TimerData α)}
    (hcell : m a = some c) (hsame : f c = g c) : m.modify a f = m.modify a g := by
  unfold Memory.modify
  rw [hcell, Option.map_some, Option.map_some, hsame]

/-- An active timer gets another time and its place behind it, as `tmr_reset` and the loop of
`tmr_run` do it. -/
theorem Represents.resort (hr : Represents h q) (hq : q.Valid) (hfuel : q.allocated ≤ fuel)
    (ht : t ∈ q.timers) (time : Timeval) :
    ∃ h', listResort fuel t.address { h with
        memory := h.memory.modify t.address fun c =>
          { c with data := { c.data with time := time } } } = some h' ∧
      Represents h' { q with
        timers := TimerQueue.listResort { t with time := time } q.timers } := by
  obtain ⟨pre, post, hparts⟩ := List.append_of_mem ht
  have hlength := length_le hq hfuel
  obtain ⟨hlists, hallocated⟩ := hr
  rw [hparts] at hlists hlength
  have hcell := cell_of_segment hlists.active.segment
  have hwrite : (h.memory.modify t.address fun c =>
      { c with data := { c.data with time := time } }) =
      h.memory.modify t.address fun c => { c with data := (entry { t with time := time }).2 } :=
    modify_congr hcell rfl
  have hset := @Lists.setData α h t pre post _ hlists { t with time := time } rfl
  obtain ⟨h₁, hremove, hout, hkept, hallocated₁⟩ := hset.remove
  rw [List.length_append, List.length_cons] at hlength
  have hroom : (pre ++ post).length ≤ fuel := by
    rw [List.length_append]
    omega
  obtain ⟨h₂, hadd, hin, hallocated₂⟩ := hout.add (t := { t with time := time }) hroom
    (hkept.trans (modify_same hcell)) rfl hlists.not_mem_others
  refine ⟨h₂, ?_, ?_, hallocated₂.trans (hallocated₁.trans hallocated)⟩
  · unfold listResort
    rw [hwrite]
    exact Option.bind_eq_some_iff.mpr ⟨h₁, hremove, hadd⟩
  · have hresort : TimerQueue.listRemove t.address q.timers = pre ++ post := by
      rw [hparts]
      exact listRemove_parts (hparts ▸ hq.nodup_active)
    unfold TimerQueue.listResort
    rw [hresort]
    exact hin

/-- Every active timer has its cell in memory. -/
theorem Represents.cell (hr : Represents h q) (ht : t ∈ q.timers) :
    ∃ c, h.memory t.address = some c ∧ c.data = (entry t).2 := by
  obtain ⟨pre, post, hparts⟩ := List.append_of_mem ht
  have hsegment := hr.active.segment
  rw [hparts] at hsegment
  exact ⟨_, cell_of_segment hsegment, rfl⟩

/-- `tmr_reset` of an active timer does what the queue does. -/
theorem Represents.reset (hr : Represents h q) (hq : q.Valid) (hfuel : q.allocated ≤ fuel)
    (now : Timeval) (ht : t ∈ q.timers) :
    ∃ h', tmrReset fuel now t.address h = some h' ∧
      Represents h' (TimerQueue.tmrReset now t.address q) := by
  obtain ⟨c, hcell, hdata⟩ := hr.cell ht
  obtain ⟨h', hrun, hr'⟩ := hr.resort hq hfuel ht (addUsecs now t.usecs)
  refine ⟨h', ?_, ?_⟩
  · unfold tmrReset
    rw [write_eq (isSome_of_cell hcell), ← hrun]
    have hsame : (h.memory.modify t.address fun c =>
          { c with data := { c.data with time := addUsecs now c.data.usecs } }) =
        h.memory.modify t.address fun c =>
          { c with data := { c.data with time := addUsecs now t.usecs } } :=
      modify_congr hcell (by rw [hdata]; rfl)
    rw [hsame]
    rfl
  · unfold TimerQueue.tmrReset
    rw [hq.find_eq ht]
    exact hr'

/-- `tmr_cancel` of an active timer. -/
theorem Represents.cancel (hr : Represents h q) (hq : q.Valid) (ht : t ∈ q.timers) :
    ∃ h', tmrCancel t.address h = some h' ∧
      Represents h' (TimerQueue.tmrCancel t.address q) := by
  obtain ⟨c, hcell, -⟩ := hr.cell ht
  obtain ⟨pre, post, hparts⟩ := List.append_of_mem ht
  obtain ⟨hlists, hallocated⟩ := hr
  have hresort : TimerQueue.listRemove t.address q.timers = pre ++ post := by
    rw [hparts]
    exact listRemove_parts (hparts ▸ hq.nodup_active)
  rw [hparts] at hlists
  obtain ⟨h₁, hremove, hout, hkept, hallocated₁⟩ := hlists.remove
  have hcell₁ := hkept.trans hcell
  have hrun : tmrCancel t.address h = some { h₁ with
      memory := h₁.memory.modify t.address fun c => { c with prev := none, next := h₁.freeTimers }
      freeTimers := some t.address } := by
    unfold tmrCancel
    rw [hremove]
    dsimp only [Option.bind_eq_bind, Option.bind_some]
    rw [write_eq (isSome_of_cell hcell₁)]
    rfl
  refine ⟨_, hrun, ?_, hallocated₁.trans hallocated⟩
  unfold TimerQueue.tmrCancel
  rw [hresort]
  exact hout.release hcell₁ (hlists.not_mem_others)

/-- What `tmr_run` does behind a callback. -/
theorem Represents.finish (hr : Represents h q) (hq : q.Valid) (hfuel : q.allocated ≤ fuel)
    (ht : t ∈ q.timers) :
    ∃ h', finishTimer fuel t.address h = some h' ∧
      Represents h' (TimerQueue.finishTimer t.address q) := by
  obtain ⟨c, hcell, hdata⟩ := hr.cell ht
  unfold finishTimer TimerQueue.finishTimer
  rw [hcell, hq.find_eq ht]
  dsimp only [Option.bind_eq_bind, Option.bind_some]
  have hkind : c.data.periodic = t.periodic := congrArg TimerData.periodic hdata
  rw [hkind]
  split
  · obtain ⟨h', hrun, hr'⟩ := hr.resort hq hfuel ht (addUsecs t.time t.usecs)
    refine ⟨h', ?_, hr'⟩
    rw [write_eq (isSome_of_cell hcell), ← hrun]
    have hsame : (h.memory.modify t.address fun c =>
          { c with data := { c.data with time := addUsecs c.data.time c.data.usecs } }) =
        h.memory.modify t.address fun c =>
          { c with data := { c.data with time := addUsecs t.time t.usecs } } :=
      modify_congr hcell (by rw [hdata]; rfl)
    rw [hsame]
    rfl
  · exact hr.cancel hq ht

/-- `tmr_create` does on the heap what it does on the queue, with a free timer, with a new
one, or without memory for one. -/
theorem Represents.create (hr : Represents h q) (hq : q.Valid) (hfuel : q.allocated ≤ fuel)
    (malloc : Option (Option ℕ × Option ℕ)) (now : Timeval) (proc : α) (usecs : ℤ)
    (periodic : Bool) :
    ∃ h', tmrCreate fuel malloc now proc usecs periodic h =
        some ((TimerQueue.tmrCreate q malloc.isSome now proc usecs periodic).1, h') ∧
      Represents h' (TimerQueue.tmrCreate q malloc.isSome now proc usecs periodic).2 := by
  have hlength := length_le hq hfuel
  obtain ⟨hlists, hallocated⟩ := hr
  unfold tmrCreate TimerQueue.tmrCreate
  cases hfree : q.freeTimers with
  | cons a free =>
    rw [hfree] at hlists
    obtain ⟨c, hcell, hacquire, hnew⟩ :=
      hlists.acquire ⟨proc, usecs, periodic, addUsecs now usecs⟩
    obtain ⟨h', hadd, hin, hallocated'⟩ := hacquire.add hlength (modify_same hcell)
      (t := ⟨a, proc, usecs, periodic, addUsecs now usecs⟩) rfl hnew
    refine ⟨h', ?_, hin, hallocated'.trans hallocated⟩
    rw [hlists.chain.1]
    dsimp only
    rw [hcell]
    dsimp only [Option.bind_eq_bind, Option.bind_some]
    rw [write_eq (isSome_of_cell (h := { h with freeTimers := c.next }) hcell)]
    dsimp only [Option.bind_some]
    exact Option.bind_eq_some_iff.mpr ⟨h', hadd, rfl⟩
  | nil =>
    have hnone : h.freeTimers = none := by
      have hchain := hlists.chain
      rw [hfree] at hchain
      exact hchain
    rw [hnone]
    cases malloc with
    | none =>
      refine ⟨h, rfl, ?_, hallocated⟩
      exact hlists
    | some pointers =>
      have hnew : h.allocated ∉ addresses q.timers ++ q.freeTimers := by
        rw [hallocated, hq.owned.mem_iff]
        exact List.not_mem_range_self
      obtain ⟨h', hadd, hin, hallocated'⟩ := (hlists.allocate hnew
        ⟨⟨proc, usecs, periodic, addUsecs now usecs⟩, pointers.1, pointers.2⟩
        (h.allocated + 1)).add hlength (Function.update_self _ _ _)
        (t := ⟨h.allocated, proc, usecs, periodic, addUsecs now usecs⟩) rfl hnew
      rw [hallocated, hnone] at hadd
      rw [hallocated] at hin
      refine ⟨h', ?_, ?_, ?_⟩
      · rw [hallocated]
        exact Option.bind_eq_some_iff.mpr ⟨h', hadd, rfl⟩
      · rw [hfree] at hin
        exact hin
      · rw [hallocated']
        exact congrArg (· + 1) hallocated

/-- The pointer behind an active timer. -/
theorem Represents.next (hr : Represents h q) (hq : q.Valid) (ht : t ∈ q.timers)
    (hcell : h.memory t.address = some c) : c.next = nextOf t.address q.timers := by
  obtain ⟨pre, post, hparts⟩ := List.append_of_mem ht
  have hsegment := hr.active.segment
  rw [hparts] at hsegment
  have hcell' := cell_of_segment hsegment
  rw [hcell] at hcell'
  cases hcell'
  rw [hparts, nextOf_parts (hparts ▸ hq.nodup_active)]
  cases post with
  | nil => rfl
  | cons u post => rfl

/-- The loop of `tmr_run` does on the heap what it does on the queue, call after call, by
induction on the fuel of the queue. -/
theorem Represents.run {σ : Type*} (step : α → Timeval → σ → σ) {now : Timeval} (n : ℕ)
    {pointer : Option ℕ} {s : σ} {w : TimerLists α × σ} (hr : Represents h q) (hq : q.Valid)
    (hfuel : q.allocated ≤ fuel) (hpointer : ∀ a ∈ pointer, a ∈ addresses q.timers)
    (hrun : TimerQueue.tmrRunFrom (fun proc now w => (w.1, step proc now w.2)) now n pointer
      (q, s) = some w) :
    ∃ h', tmrRunFrom step now fuel n pointer (h, s) = some (h', w.2) ∧ Represents h' w.1 := by
  induction n generalizing pointer s h q with
  | zero => cases hrun
  | succ n ih =>
    cases pointer with
    | none =>
      cases hrun
      exact ⟨h, rfl, hr⟩
    | some a =>
      obtain ⟨t, ht, rfl⟩ := List.mem_map.mp (hpointer a rfl)
      obtain ⟨c, hcell, hdata⟩ := hr.cell ht
      have htime : c.data.time = t.time := congrArg TimerData.time hdata
      have hproc : c.data.timerProc = t.proc := congrArg TimerData.timerProc hdata
      have hnext := hr.next hq ht hcell
      rw [TimerQueue.tmrRunFrom, hq.find_eq ht] at hrun
      rw [tmrRunFrom, hcell]
      dsimp only [Option.bind_some] at hrun ⊢
      rw [htime, hproc]
      split at hrun
      · rename_i hearly
        cases hrun
        rw [if_pos hearly]
        exact ⟨h, rfl, hr⟩
      · rename_i hdue
        rw [if_neg hdue]
        obtain ⟨h₁, hfinish, hr₁⟩ := hr.finish hq hfuel ht
        rw [hfinish, hnext]
        refine ih hr₁ (hq.finish t.address) ?_ (fun b hb => ?_) hrun
        · unfold TimerQueue.finishTimer
          rw [hq.find_eq ht]
          dsimp only
          split
          · exact hfuel
          · exact hfuel
        · have hmem : b ∈ addresses q.timers :=
            List.Sublist.subset ((List.tail_sublist _).map _) (nextOf_mem hb)
          obtain ⟨u, hu, rfl⟩ := List.mem_map.mp hmem
          have hne : u.address ≠ t.address := by
            intro hsame
            rw [hsame] at hb
            exact nextOf_ne hq.nodup_active _ hb
          obtain ⟨v, hv, hsame, -⟩ :=
            (active_finish hq ht).mpr ⟨active_of_mem hu, Or.inr hne⟩
          rw [← hsame]
          exact List.mem_map_of_mem hv

end IperfRuntime.TimerHeap
