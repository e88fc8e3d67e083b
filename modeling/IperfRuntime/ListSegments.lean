import Mathlib.Data.List.Basic

/-!
# Lists put together from segments

A list that grows by one segment at a time, and where each element of a segment ends up.
Segments may be empty; nothing is said about what their elements are.
-/

namespace IperfRuntime.ListSegments

variable {α : Type*}

/-- The first `k` segments one behind the other. -/
def joined (segment : ℕ → List α) : ℕ → List α
  | 0 => []
  | k + 1 => joined segment k ++ segment k

/-- Where a segment starts. -/
def segmentStart (size : ℕ → ℕ) : ℕ → ℕ
  | 0 => 0
  | k + 1 => segmentStart size k + size k

/-- Joined segments are as long as their lengths add up to. -/
theorem length_joined (segment : ℕ → List α) (k : ℕ) :
    (joined segment k).length = segmentStart (fun i => (segment i).length) k := by
  induction k with
  | zero => rfl
  | succ k ih =>
    simp only [joined, segmentStart, List.length_append]
    omega

/-- Later segments start later. -/
theorem segmentStart_mono (size : ℕ → ℕ) {i k : ℕ} (h : i ≤ k) :
    segmentStart size i ≤ segmentStart size k := by
  induction k with
  | zero =>
    have hi : i = 0 := by omega
    simp [hi]
  | succ k ih =>
    by_cases hlast : i = k + 1
    · simp [hlast]
    · have hle := ih (by omega)
      simp only [segmentStart]
      omega

/-- An element of a segment keeps its distance from the start of the segment. -/
theorem getElem?_joined (segment : ℕ → List α) {k i o : ℕ} (hi : i < k)
    (ho : o < (segment i).length) :
    (joined segment k)[segmentStart (fun i => (segment i).length) i + o]? = (segment i)[o]? := by
  induction k with
  | zero => omega
  | succ k ih =>
    have hlength := length_joined segment k
    by_cases hlast : i = k
    · subst hlast
      simp only [joined]
      rw [← hlength, List.getElem?_append_right (by omega)]
      simp
    · have hlt : i < k := by omega
      have hmono := segmentStart_mono (fun i => (segment i).length) (show i + 1 ≤ k by omega)
      have hnext : segmentStart (fun i => (segment i).length) (i + 1) =
          segmentStart (fun i => (segment i).length) i + (segment i).length := rfl
      simp only [joined]
      rw [List.getElem?_append_left (by omega)]
      exact ih hlt

/-- Every position lies in a segment. -/
theorem exists_segment (size : ℕ → ℕ) {k p : ℕ} (hp : p < segmentStart size k) :
    ∃ i o, i < k ∧ o < size i ∧ p = segmentStart size i + o := by
  induction k with
  | zero =>
    simp only [segmentStart] at hp
    omega
  | succ k ih =>
    by_cases hlast : p < segmentStart size k
    · obtain ⟨i, o, hi, ho, hpos⟩ := ih hlast
      exact ⟨i, o, by omega, ho, hpos⟩
    · simp only [segmentStart] at hp
      exact ⟨k, p - segmentStart size k, by omega, by omega, by omega⟩

/-- Segments of one size start at the multiples of it. -/
theorem segmentStart_const {size : ℕ → ℕ} {n k : ℕ} (h : ∀ i < k, size i = n) :
    segmentStart size k = k * n := by
  induction k with
  | zero => simp [segmentStart]
  | succ k ih =>
    have hprevious := ih fun i hi => h i (by omega)
    have hlast := h k (by omega)
    simp only [segmentStart]
    rw [hprevious, hlast, Nat.succ_mul]

/-- The segments spell a list when each element of them is the one of the list at its
place. -/
theorem take_joined_eq_iff (segment : ℕ → List α) (k m : ℕ) (list : List α) :
    (joined segment k).take m = list ↔
      min m (joined segment k).length = list.length ∧
        ∀ i o, i < k → o < (segment i).length →
          segmentStart (fun i => (segment i).length) i + o < list.length →
            (segment i)[o]? = list[segmentStart (fun i => (segment i).length) i + o]? := by
  have hlength := length_joined segment k
  constructor
  · intro h
    have hlist : list.length = min m (joined segment k).length := by rw [← h, List.length_take]
    refine ⟨hlist.symm, ?_⟩
    intro i o hi ho hp
    rw [← getElem?_joined segment hi ho, ← h, List.getElem?_take, if_pos (by omega)]
  · rintro ⟨hlist, hplace⟩
    refine List.ext_getElem? fun p => ?_
    by_cases hp : p < list.length
    · obtain ⟨i, o, hi, ho, hpos⟩ :=
        exists_segment (fun i => (segment i).length) (k := k) (p := p) (by omega)
      rw [List.getElem?_take, if_pos (by omega), hpos, getElem?_joined segment hi ho]
      exact hplace i o hi ho (by omega)
    · have hleft : ((joined segment k).take m)[p]? = none :=
        List.getElem?_eq_none (by rw [List.length_take]; omega)
      have hright : list[p]? = none := List.getElem?_eq_none (by omega)
      rw [hleft, hright]

end IperfRuntime.ListSegments
