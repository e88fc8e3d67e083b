import Mathlib.Data.List.Basic
import Mathlib.Data.List.Induction
import Mathlib.Data.List.Nodup
import Mathlib.Logic.Function.Basic
import Mathlib.Tactic.Common

/-!
# Linked cells

A memory of cells that carry two pointers. A segment is a list of cells that point to each
other in both directions, a chain one that is only followed forwards. Taking a cell out of a
segment and putting it in write the two neighbours, and nothing outside the segment.
-/

namespace IperfRuntime.LinkedCells

variable {δ : Type*}

/-- A cell: what it holds and its two pointers. -/
structure Cell (δ : Type*) where
  data : δ
  prev : Option ℕ
  next : Option ℕ
  deriving DecidableEq, Repr

/-- The cells at their addresses. -/
abbrev Memory (δ : Type*) := ℕ → Option (Cell δ)

/-- The memory with a changed cell, if there is one. -/
def Memory.modify (m : Memory δ) (a : ℕ) (f : Cell δ → Cell δ) : Memory δ :=
  Function.update m a ((m a).map f)

variable {m m' : Memory δ} {a b : ℕ} {f : Cell δ → Cell δ} {c : Cell δ}

/-- At its own address a modification applies the function. -/
theorem modify_same (h : m a = some c) : m.modify a f a = some (f c) := by
  unfold Memory.modify
  rw [Function.update_self, h]
  rfl

/-- Everywhere else the memory is as it was. -/
theorem modify_other (hne : b ≠ a) : m.modify a f b = m b := Function.update_of_ne hne _ _

/-- A write leaves every cell where it is. -/
theorem isSome_modify (a : ℕ) (f : Cell δ → Cell δ) (hcell : (m b).isSome = true) :
    (m.modify a f b).isSome = true := by
  by_cases hba : b = a
  · subst hba
    obtain ⟨c, hc⟩ := Option.isSome_iff_exists.mp hcell
    rw [modify_same hc]
    rfl
  · rw [modify_other hba]
    exact hcell

/-- The addresses of a list of cells. -/
def keys (l : List (ℕ × δ)) : List ℕ := l.map Prod.fst

/-- Where a list of cells starts, in front of the given address. -/
def first (l : List (ℕ × δ)) (stop : Option ℕ) : Option ℕ :=
  match l with
  | [] => stop
  | e :: _ => some e.1

/-- Where a list of cells ends, behind the given address. -/
def last (prev : Option ℕ) : List (ℕ × δ) → Option ℕ
  | [] => prev
  | e :: rest => last (some e.1) rest

/-- The cells of the list point to each other, between the given addresses. -/
def Segment (m : Memory δ) : Option ℕ → List (ℕ × δ) → Option ℕ → Prop
  | _, [], _ => True
  | prev, e :: rest, stop =>
    m e.1 = some ⟨e.2, prev, first rest stop⟩ ∧ Segment m (some e.1) rest stop

/-- The cells that are met from an address on. -/
def Chain (m : Memory δ) : Option ℕ → List ℕ → Prop
  | p, [] => p = none
  | p, a :: rest => p = some a ∧ ∃ c, m a = some c ∧ Chain m c.next rest

variable {prev stop : Option ℕ} {l l' pre post : List (ℕ × δ)} {e : ℕ × δ}

/-- The first entry gives the first address. -/
@[simp] theorem keys_cons (e : ℕ × δ) (l : List (ℕ × δ)) : keys (e :: l) = e.1 :: keys l := rfl

/-- The addresses of two lists are those of the first and then those of the second. -/
@[simp] theorem keys_append (l l' : List (ℕ × δ)) : keys (l ++ l') = keys l ++ keys l' :=
  List.map_append

/-- Where a list begins does not depend on what stands behind an entry of it. -/
@[simp] theorem first_append_cons (l : List (ℕ × δ)) (e : ℕ × δ) (post : List (ℕ × δ)) :
    first (l ++ e :: post) stop = first l (some e.1) := by
  cases l with
  | nil => rfl
  | cons x l => rfl

/-- Where two lists end is where the second ends when it is entered from the end of the first. -/
@[simp] theorem last_append (prev : Option ℕ) (l l' : List (ℕ × δ)) :
    last prev (l ++ l') = last (last prev l) l' := by
  induction l generalizing prev with
  | nil => rfl
  | cons x l ih => exact ih (some x.1)

/-- A segment is its first cell, linked to both sides, and the segment behind it. -/
theorem segment_cons :
    Segment m prev (e :: l) stop ↔
      m e.1 = some ⟨e.2, prev, first l stop⟩ ∧ Segment m (some e.1) l stop := Iff.rfl

/-- A segment over two lists is a segment over each, the first ending where the second begins. -/
theorem segment_append :
    Segment m prev (l ++ l') stop ↔
      Segment m prev l (first l' stop) ∧ Segment m (last prev l) l' stop := by
  induction l generalizing prev with
  | nil => exact ⟨fun h => ⟨trivial, h⟩, fun h => h.2⟩
  | cons x l ih =>
    have hfirst : first (l ++ l') stop = first l (first l' stop) := by
      cases l with
      | nil => rfl
      | cons y l => rfl
    rw [List.cons_append, segment_cons, segment_cons, hfirst, ih, and_assoc, last]

/-- Every address of a segment is allocated. -/
theorem Segment.isSome (h : Segment m prev l stop) (ha : a ∈ keys l) : (m a).isSome = true := by
  induction l generalizing prev with
  | nil => cases ha
  | cons x l ih =>
    rcases List.mem_cons.mp ha with rfl | ha
    · rw [h.1]
      rfl
    · exact ih h.2 ha

/-- A segment depends on its own cells only. -/
theorem Segment.congr (h : Segment m prev l stop) (hsame : ∀ a ∈ keys l, m' a = m a) :
    Segment m' prev l stop := by
  induction l generalizing prev with
  | nil => trivial
  | cons x l ih =>
    exact ⟨(hsame _ List.mem_cons_self).trans h.1,
      ih h.2 fun a ha => hsame a (List.mem_cons_of_mem _ ha)⟩

/-- A chain of free cells only depends on those cells. -/
theorem Chain.congr {p : Option ℕ} {free : List ℕ} (h : Chain m p free)
    (hsame : ∀ a ∈ free, m' a = m a) : Chain m' p free := by
  induction free generalizing p with
  | nil => exact h
  | cons a rest ih =>
    obtain ⟨hp, c, hc, hrest⟩ := h
    exact ⟨hp, c, (hsame a List.mem_cons_self).trans hc,
      ih hrest fun b hb => hsame b (List.mem_cons_of_mem _ hb)⟩

/-- The first cell of a segment gets another cell in front of it. -/
theorem Segment.modify_prev (h : Segment m prev (e :: l) stop) (hnot : e.1 ∉ keys l)
    (p : Option ℕ) :
    Segment (m.modify e.1 fun c => { c with prev := p }) p (e :: l) stop := by
  refine ⟨modify_same h.1, h.2.congr fun a ha => modify_other ?_⟩
  rintro rfl
  exact hnot ha

/-- The last cell of a segment gets another cell behind it. -/
theorem Segment.modify_next (h : Segment m prev (l ++ [e]) stop) (hnot : e.1 ∉ keys l)
    (p : Option ℕ) :
    Segment (m.modify e.1 fun c => { c with next := p }) prev (l ++ [e]) p := by
  obtain ⟨hfront, hlast, -⟩ := segment_append.mp h
  refine segment_append.mpr ⟨hfront.congr fun a ha => modify_other ?_, modify_same hlast, trivial⟩
  rintro rfl
  exact hnot ha

/-- A cell that holds something else. -/
theorem Segment.modify_data {e' : ℕ × δ} (h : Segment m none (pre ++ e :: post) none)
    (hnodup : (keys (pre ++ e :: post)).Nodup) (hkey : e'.1 = e.1) :
    Segment (m.modify e.1 fun c => { c with data := e'.2 }) none (pre ++ e' :: post) none := by
  obtain ⟨hpre, hcell, hpost⟩ := segment_append.mp h
  rw [keys_append, keys_cons] at hnodup
  obtain ⟨-, htail, hcross⟩ := List.nodup_append.mp hnodup
  have hnotpre : e.1 ∉ keys pre := fun hmem => hcross _ hmem _ List.mem_cons_self rfl
  refine segment_append.mpr ⟨?_, segment_cons.mpr ⟨?_, ?_⟩⟩
  · have hfirst : first (e' :: post) none = first (e :: post) none := congrArg some hkey
    rw [hfirst]
    refine hpre.congr fun a ha => modify_other ?_
    rintro rfl
    exact hnotpre ha
  · rw [hkey]
    exact modify_same hcell
  · rw [hkey]
    refine hpost.congr fun a ha => modify_other ?_
    rintro rfl
    exact (List.nodup_cons.mp htail).1 ha

/-- The cell in front of a place, which is told what comes behind it. -/
def setNext (p : Option ℕ) (next : Option ℕ) (m : Memory δ) : Memory δ :=
  match p with
  | none => m
  | some a => m.modify a fun c => { c with next := next }

/-- The cell behind a place, which is told what comes in front of it. -/
def setPrev (p : Option ℕ) (prev : Option ℕ) (m : Memory δ) : Memory δ :=
  match p with
  | none => m
  | some a => m.modify a fun c => { c with prev := prev }

/-- A cell between two neighbours that are told so. -/
def link (p : Option ℕ) (a : ℕ) (n : Option ℕ) (m : Memory δ) : Memory δ :=
  setPrev n (some a) ((setNext p (some a) m).modify a fun c => { c with prev := p, next := n })

/-- Two neighbours without what stood between them. -/
def unlink (p n : Option ℕ) (m : Memory δ) : Memory δ := setPrev n p (setNext p n m)

/-- Setting a forward link changes no other cell. -/
theorem setNext_other {p next : Option ℕ} (h : p ≠ some b) : setNext p next m b = m b := by
  cases p with
  | none => rfl
  | some a => exact modify_other fun he => h (congrArg some he.symm)

/-- Nor does setting a backward link. -/
theorem setPrev_other {p prev : Option ℕ} (h : p ≠ some b) : setPrev p prev m b = m b := by
  cases p with
  | none => rfl
  | some a => exact modify_other fun he => h (congrArg some he.symm)

/-- An allocated cell stays allocated when a forward link is set. -/
theorem isSome_setNext (p next : Option ℕ) (hcell : (m b).isSome = true) :
    (setNext p next m b).isSome = true := by
  cases p with
  | none => exact hcell
  | some a => exact isSome_modify a _ hcell

/-- The last address of a list is one of its addresses. -/
theorem last_eq_some (h : last none l = some b) : b ∈ keys l := by
  induction l using List.reverseRecOn with
  | nil => cases h
  | append_singleton l e _ =>
    rw [last_append] at h
    cases h
    rw [keys_append]
    exact List.mem_append_right _ List.mem_cons_self

/-- Only the empty list has no last address. -/
theorem last_eq_none (h : last none l = none) : l = [] := by
  cases l using List.reverseRecOn with
  | nil => rfl
  | append_singleton l e =>
    rw [last_append] at h
    cases h

/-- The first address of a list is one of its addresses. -/
theorem first_eq_some (h : first l none = some b) : b ∈ keys l := by
  cases l with
  | nil => cases h
  | cons e l =>
    cases h
    exact List.mem_cons_self

/-- Setting the forward link of the last cell moves the end of the segment. -/
theorem Segment.setNext_last {stop' : Option ℕ} (h : Segment m none l stop)
    (hnodup : (keys l).Nodup) : Segment (setNext (last none l) stop' m) none l stop' := by
  cases l using List.reverseRecOn with
  | nil => trivial
  | append_singleton l e =>
    rw [keys_append] at hnodup
    rw [last_append]
    refine h.modify_next (fun hmem => ?_) stop'
    exact (List.nodup_append.mp hnodup).2.2 _ hmem _ List.mem_cons_self rfl

/-- Setting the backward link of the first cell moves its beginning. -/
theorem Segment.setPrev_first {prev' : Option ℕ} (h : Segment m prev l none)
    (hnodup : (keys l).Nodup) : Segment (setPrev (first l none) prev' m) prev' l none := by
  cases l with
  | nil => trivial
  | cons e l => exact h.modify_prev (List.nodup_cons.mp hnodup).1 prev'

/-- An address outside the list is not its last one. -/
theorem last_ne (hnot : b ∉ keys l) : last none l ≠ some b := fun h => hnot (last_eq_some h)

/-- Nor is it its first one. -/
theorem first_ne (hnot : b ∉ keys l) : first l none ≠ some b := fun h => hnot (first_eq_some h)

/-- Taking a cell out of a segment. -/
theorem Segment.unlink (h : Segment m none (pre ++ e :: post) none)
    (hnodup : (keys (pre ++ e :: post)).Nodup) :
    Segment (unlink (last none pre) (first post none) m) none (pre ++ post) none := by
  obtain ⟨hpre, -, hpost⟩ := segment_append.mp h
  rw [keys_append, keys_cons] at hnodup
  obtain ⟨hnpre, htail, hcross⟩ := List.nodup_append.mp hnodup
  have hnpost := (List.nodup_cons.mp htail).2
  have hapart : ∀ {b}, b ∈ keys pre → b ∉ keys post :=
    fun hb hb' => hcross _ hb _ (List.mem_cons_of_mem _ hb') rfl
  refine segment_append.mpr ⟨?_, ?_⟩
  · exact (hpre.setNext_last hnpre).congr fun a ha => setPrev_other (first_ne (hapart ha))
  · refine Segment.setPrev_first (hpost.congr fun a ha => ?_) hnpost
    exact setNext_other (last_ne fun hb => hapart hb ha)

/-- Putting a cell into a segment. -/
theorem Segment.link (h : Segment m none (pre ++ post) none)
    (hnodup : (keys (pre ++ post)).Nodup) (hnew : e.1 ∉ keys (pre ++ post))
    (hcell : m e.1 = some c) (hdata : c.data = e.2) :
    Segment (link (last none pre) e.1 (first post none) m) none (pre ++ e :: post) none := by
  obtain ⟨hpre, hpost⟩ := segment_append.mp h
  rw [keys_append] at hnodup hnew
  obtain ⟨hnpre, hnpost, hcross⟩ := List.nodup_append.mp hnodup
  obtain ⟨hnewpre, hnewpost⟩ := not_or.mp fun hmem => hnew (List.mem_append.mpr hmem)
  have hapart : ∀ {b}, b ∈ keys pre → b ∉ keys post := fun hb hb' => hcross _ hb _ hb' rfl
  refine segment_append.mpr ⟨?_, segment_cons.mpr ⟨?_, ?_⟩⟩
  · refine (hpre.setNext_last hnpre).congr fun a ha => ?_
    refine (setPrev_other (first_ne (hapart ha))).trans (modify_other ?_)
    rintro rfl
    exact hnewpre ha
  · refine (setPrev_other (first_ne hnewpost)).trans ?_
    rw [modify_same ((setNext_other (last_ne hnewpre)).trans hcell), hdata]
  · refine Segment.setPrev_first (hpost.congr fun a ha => ?_) hnpost
    have hne : a ≠ e.1 := by
      rintro rfl
      exact hnewpost ha
    exact (modify_other hne).trans (setNext_other (last_ne fun hb => hapart hb ha))

/-- What is not in the segment stays as it is. -/
theorem unlink_other (hnot : b ∉ keys (pre ++ post)) :
    unlink (last none pre) (first post none) m b = m b := by
  rw [keys_append] at hnot
  obtain ⟨hpre, hpost⟩ := not_or.mp fun hmem => hnot (List.mem_append.mpr hmem)
  exact (setPrev_other (first_ne hpost)).trans (setNext_other (last_ne hpre))

/-- Linking a cell in changes no cell outside the list and itself. -/
theorem link_other (hnot : b ∉ keys (pre ++ post)) (hne : b ≠ a) :
    link (last none pre) a (first post none) m b = m b := by
  rw [keys_append] at hnot
  obtain ⟨hpre, hpost⟩ := not_or.mp fun hmem => hnot (List.mem_append.mpr hmem)
  exact (setPrev_other (first_ne hpost)).trans
    ((modify_other hne).trans (setNext_other (last_ne hpre)))

/-- In a segment the two pointers undo each other. -/
theorem Segment.prev_of_next (h : Segment m prev l none) (hcell : m a = some c) (ha : a ∈ keys l)
    (hnext : c.next = some b) : b ∈ keys l ∧ ∃ c', m b = some c' ∧ c'.prev = some a := by
  induction l generalizing prev with
  | nil => cases ha
  | cons e l ih =>
    obtain ⟨he, hrest⟩ := h
    rcases List.mem_cons.mp ha with rfl | ha
    · rw [hcell] at he
      cases he
      cases l with
      | nil => cases hnext
      | cons e' l =>
        cases hnext
        exact ⟨List.mem_cons_of_mem _ List.mem_cons_self, _, hrest.1, rfl⟩
    · obtain ⟨hmem, hprev⟩ := ih hrest ha
      exact ⟨List.mem_cons_of_mem _ hmem, hprev⟩

end IperfRuntime.LinkedCells
