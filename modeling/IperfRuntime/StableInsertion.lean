import Mathlib.Order.Basic
import Mathlib.Order.Lattice
import Mathlib.Data.List.Basic
import Mathlib.Data.List.Perm.Basic
import Mathlib.Tactic.Common

/-!
# Stable insertion into a keyed list

Entries carry a key from a linear order. Insertion places an entry before the
first one with a strictly greater key, so entries with equal keys stay in the
order of their insertion. Two entries inserted in turn with the same key are
neighbours, whatever else the list holds.
-/

namespace IperfRuntime.StableInsertion

variable {α κ : Type*} [LinearOrder κ] (key : α → κ)

/-- Insert before the first entry with a strictly greater key. -/
def insertStable (a : α) : List α → List α
  | [] => [a]
  | b :: l => if key a < key b then a :: b :: l else b :: insertStable a l

/-- Keys never decrease along the list. -/
def Ordered (l : List α) : Prop := l.Pairwise fun a b => key a ≤ key b

/-- The two parts into which an insertion at key `k` cuts a list: no key of the
first part exceeds `k`, and the second part is empty or starts above `k`. -/
structure Cut (k : κ) (pre post : List α) : Prop where
  /-- Nothing before the cut has a greater key. -/
  before : ∀ b ∈ pre, key b ≤ k
  /-- The entry right after the cut has a greater key. -/
  after : ∀ b ∈ post.head?, k < key b

/-- Every list has a cut at every key, and insertion happens there. -/
theorem exists_cut (a : α) (l : List α) :
    ∃ pre post, l = pre ++ post ∧ insertStable key a l = pre ++ a :: post ∧
      Cut key (key a) pre post := by
  induction l with
  | nil => exact ⟨[], [], rfl, rfl, by simp, by simp⟩
  | cons b l ih =>
    by_cases h : key a < key b
    · exact ⟨[], b :: l, rfl, by simp only [insertStable, if_pos h, List.nil_append],
        by simp, by simpa using h⟩
    · obtain ⟨pre, post, hl, hi, hc⟩ := ih
      refine ⟨b :: pre, post, by rw [hl, List.cons_append], ?_, ?_, hc.after⟩
      · simp only [insertStable, if_neg h, hi, List.cons_append]
      · intro x hx
        rcases List.mem_cons.mp hx with rfl | hx
        · exact not_lt.mp h
        · exact hc.before x hx

variable {key}

/-- At a cut the insertion is determined. -/
theorem insertStable_of_cut {a : α} {pre post : List α} (hc : Cut key (key a) pre post) :
    insertStable key a (pre ++ post) = pre ++ a :: post := by
  induction pre with
  | nil =>
    cases post with
    | nil => rfl
    | cons b post =>
      have hb : key a < key b := hc.after b rfl
      simp only [List.nil_append, insertStable, if_pos hb]
  | cons b pre ih =>
    have hb : ¬key a < key b := not_lt.mpr (hc.before b (by simp))
    have ht : Cut key (key a) pre post :=
      ⟨fun x hx => hc.before x (List.mem_cons_of_mem _ hx), hc.after⟩
    simp only [List.cons_append, insertStable, if_neg hb, ih ht]

/-- Insertion adds one entry and keeps the others. -/
theorem insertStable_perm (a : α) (l : List α) : (insertStable key a l).Perm (a :: l) := by
  obtain ⟨pre, post, hl, hi, -⟩ := exists_cut key a l
  rw [hi, hl]
  exact List.perm_middle

/-- Inserting adds that element and no other. -/
@[simp] theorem mem_insertStable {a b : α} {l : List α} :
    b ∈ insertStable key a l ↔ b = a ∨ b ∈ l := by
  rw [(insertStable_perm a l).mem_iff, List.mem_cons]

/-- It makes the list longer by one. -/
@[simp] theorem length_insertStable (a : α) (l : List α) :
    (insertStable key a l).length = l.length + 1 := by
  rw [(insertStable_perm a l).length_eq, List.length_cons]

/-- In an ordered list everything after a cut is above it. -/
theorem Cut.after_mem {k : κ} {pre post : List α} (hc : Cut key k pre post)
    (ho : Ordered key post) : ∀ b ∈ post, k < key b := by
  intro b hb
  cases post with
  | nil => simp at hb
  | cons c post =>
    have hk : k < key c := hc.after c rfl
    rcases List.mem_cons.mp hb with rfl | hb
    · exact hk
    · exact hk.trans_le ((List.pairwise_cons.mp ho).1 b hb)

/-- Insertion keeps an ordered list ordered. -/
theorem insertStable_ordered {a : α} {l : List α} (ho : Ordered key l) :
    Ordered key (insertStable key a l) := by
  obtain ⟨pre, post, hl, hi, hc⟩ := exists_cut key a l
  rw [hl] at ho
  rw [hi]
  obtain ⟨hpre, hpost, hcross⟩ := List.pairwise_append.mp ho
  have hafter := hc.after_mem hpost
  refine List.pairwise_append.mpr ⟨hpre, List.pairwise_cons.mpr ⟨?_, hpost⟩, ?_⟩
  · intro b hb
    exact (hafter b hb).le
  · intro x hx y hy
    rcases List.mem_cons.mp hy with rfl | hy
    · exact hc.before x hx
    · exact hcross x hx y hy

/-- An insertion into two parts goes into the first one, or behind the head of the second. -/
theorem insertStable_append (a : α) (pre post : List α) :
    (∃ pre', insertStable key a (pre ++ post) = pre' ++ post) ∨
      ∃ post', insertStable key a (pre ++ post) = pre ++ post' ∧ post'.head? = post.head? ∧
        post ⊆ post' := by
  induction pre with
  | nil =>
    cases post with
    | nil => exact Or.inl ⟨[a], rfl⟩
    | cons b post =>
      by_cases h : key a < key b
      · exact Or.inl ⟨[a], by simp only [List.nil_append, insertStable, if_pos h,
          List.singleton_append]⟩
      · refine Or.inr ⟨b :: insertStable key a post, ?_, rfl, ?_⟩
        · simp only [List.nil_append, insertStable, if_neg h]
        · exact List.cons_subset_cons b fun x hx => mem_insertStable.mpr (Or.inr hx)
  | cons b pre ih =>
    by_cases h : key a < key b
    · exact Or.inl ⟨a :: b :: pre, by simp only [List.cons_append, insertStable, if_pos h]⟩
    · rcases ih with ⟨pre', hpre⟩ | ⟨post', hpost, hhead, hsubset⟩
      · exact Or.inl ⟨b :: pre', by simp only [List.cons_append, insertStable, if_neg h, hpre]⟩
      · refine Or.inr ⟨post', ?_, hhead, hsubset⟩
        simp only [List.cons_append, insertStable, if_neg h, hpost]

/-- A second entry with the key of the one just inserted goes right behind it. -/
theorem insertStable_behind {a b : α} {pre post : List α} (hk : key b = key a)
    (hc : Cut key (key a) pre post) :
    insertStable key b (pre ++ a :: post) = pre ++ a :: b :: post := by
  have hb : Cut key (key b) (pre ++ [a]) post := by
    constructor
    · intro x hx
      rw [hk]
      rcases List.mem_append.mp hx with hx | hx
      · exact hc.before x hx
      · rw [List.mem_singleton.mp hx]
    · intro x hx
      rw [hk]
      exact hc.after x hx
  have hi := insertStable_of_cut hb
  simpa only [List.append_assoc, List.singleton_append] using hi

/-- Dropping entries of an ordered list leaves it ordered. -/
theorem Ordered.sublist {l l' : List α} (ho : Ordered key l) (h : l'.Sublist l) :
    Ordered key l' := List.Pairwise.sublist h ho

/-- Two entries that stand next to each other. -/
def Adjacent (a b : α) (l : List α) : Prop := ∃ pre post, l = pre ++ a :: b :: post

/-- The left one of two neighbours is in the list. -/
theorem Adjacent.mem_left {a b : α} {l : List α} (h : Adjacent a b l) : a ∈ l := by
  obtain ⟨pre, post, rfl⟩ := h
  simp

/-- So is the right one. -/
theorem Adjacent.mem_right {a b : α} {l : List α} (h : Adjacent a b l) : b ∈ l := by
  obtain ⟨pre, post, rfl⟩ := h
  simp

/-- No insertion separates neighbours with equal keys. -/
theorem Adjacent.insertStable {a b : α} {l : List α} (h : Adjacent a b l) (hk : key a = key b)
    (c : α) : Adjacent a b (insertStable key c l) := by
  obtain ⟨pre, post, rfl⟩ := h
  induction pre with
  | nil =>
    by_cases hc : key c < key a
    · exact ⟨[c], post, by simp [StableInsertion.insertStable, hc]⟩
    · have hcb : ¬key c < key b := by rwa [← hk]
      exact ⟨[], StableInsertion.insertStable key c post,
        by simp [StableInsertion.insertStable, hc, hcb]⟩
  | cons x pre ih =>
    by_cases hc : key c < key x
    · exact ⟨c :: x :: pre, post, by simp [StableInsertion.insertStable, hc]⟩
    · obtain ⟨pre', post', hi⟩ := ih
      refine ⟨x :: pre', post', ?_⟩
      rw [List.cons_append, StableInsertion.insertStable, if_neg hc, hi, List.cons_append]

/-- Dropping other entries does not separate neighbours. -/
theorem Adjacent.filter {a b : α} {l : List α} (h : Adjacent a b l) {p : α → Bool}
    (ha : p a = true) (hb : p b = true) : Adjacent a b (l.filter p) := by
  obtain ⟨pre, post, rfl⟩ := h
  refine ⟨pre.filter p, post.filter p, ?_⟩
  rw [List.filter_append, List.filter_cons_of_pos ha, List.filter_cons_of_pos hb]

/-- An entry inserted with the key of one inserted just before goes right behind it, even
when other entries were dropped in between. -/
theorem insertStable_pair {a b : α} {l : List α} (ho : Ordered key l) (hk : key b = key a)
    {p : α → Bool} (ha : p a = true) :
    Adjacent a b (insertStable key b ((insertStable key a l).filter p)) := by
  obtain ⟨pre, post, hl, hi, hc⟩ := exists_cut key a l
  have hpost : Ordered key post := ho.sublist (by rw [hl]; exact List.sublist_append_right pre post)
  have hcut : Cut key (key a) (pre.filter p) (post.filter p) := by
    constructor
    · intro x hx
      exact hc.before x (List.mem_of_mem_filter hx)
    · intro x hx
      have hm := List.mem_of_mem_filter (List.mem_of_mem_head? hx)
      exact hc.after_mem hpost x hm
  rw [hi, List.filter_append, List.filter_cons_of_pos ha, insertStable_behind hk hcut]
  exact ⟨pre.filter p, post.filter p, rfl⟩

end IperfRuntime.StableInsertion
