import Mathlib.Data.List.Basic

/-!
# Loops that update a list in place

A loop visits the entries of a list in order. Each round may change the entry it
visits and a state shared by all rounds, and may leave the loop. The rule for what
such a loop preserves takes an invariant of the shared state together with the whole
list.
-/

namespace IperfRuntime.ListLoop

variable {σ α β : Type*}

/-- One round: the new state, the new entry and whether the loop goes on. -/
abbrev Body (σ α : Type*) := ℕ → σ → α → σ × α × Bool

/-- The loop from the given index. -/
def forEach (body : Body σ α) : ℕ → σ → List α → σ × List α
  | _, s, [] => (s, [])
  | i, s, a :: rest =>
    if (body i s a).2.2 then
      ((forEach body (i + 1) (body i s a).1 rest).1,
        (body i s a).2.1 :: (forEach body (i + 1) (body i s a).1 rest).2)
    else ((body i s a).1, (body i s a).2.1 :: rest)

/-- An invariant of the state and the whole list survives the loop when every round
keeps it, whatever stands before and behind the entry. -/
theorem forEach_invariant {body : Body σ α} (I : σ → List α → Prop)
    (hbody : ∀ i s pre a post, I s (pre ++ a :: post) →
      I (body i s a).1 (pre ++ (body i s a).2.1 :: post))
    (i : ℕ) (s : σ) (l : List α) (h : I s l) :
    I (forEach body i s l).1 (forEach body i s l).2 := by
  have hgen : ∀ (l pre : List α) (i : ℕ) (s : σ), I s (pre ++ l) →
      I (forEach body i s l).1 (pre ++ (forEach body i s l).2) := by
    intro l
    induction l with
    | nil =>
      intro pre i s h
      exact h
    | cons a rest ih =>
      intro pre i s h
      have hround := hbody i s pre a rest h
      unfold forEach
      split
      · have hnext := ih (pre ++ [(body i s a).2.1]) (i + 1) (body i s a).1
          (by simpa using hround)
        simpa using hnext
      · exact hround
  exact hgen l [] i s h

/-- The same with an invariant that knows how far the loop has come. -/
theorem forEach_indexed {body : Body σ α} (I : ℕ → σ → List α → Prop)
    (hbody : ∀ s pre a post, I pre.length s (pre ++ a :: post) →
      I (pre.length + 1) (body pre.length s a).1 (pre ++ (body pre.length s a).2.1 :: post))
    (s : σ) (l : List α) (h : I 0 s l) :
    ∃ i, I i (forEach body 0 s l).1 (forEach body 0 s l).2 := by
  have hgen : ∀ (l pre : List α) (s : σ), I pre.length s (pre ++ l) →
      ∃ i, I i (forEach body pre.length s l).1 (pre ++ (forEach body pre.length s l).2) := by
    intro l
    induction l with
    | nil =>
      intro pre s h
      exact ⟨pre.length, h⟩
    | cons a rest ih =>
      intro pre s h
      have hround := hbody s pre a rest h
      unfold forEach
      split
      · obtain ⟨i, hnext⟩ := ih (pre ++ [(body pre.length s a).2.1]) (body pre.length s a).1
          (by simpa using hround)
        refine ⟨i, ?_⟩
        simpa using hnext
      · exact ⟨pre.length + 1, hround⟩
  exact hgen l [] s h

/-- The rounds that a loop makes: index, state and entry at the start of each. -/
def visited (body : Body σ α) : ℕ → σ → List α → List (ℕ × σ × α)
  | _, _, [] => []
  | i, s, a :: rest =>
    (i, s, a) :: if (body i s a).2.2 then visited body (i + 1) (body i s a).1 rest else []

/-- A property of the shared state alone. -/
theorem forEach_state {body : Body σ α} (P : σ → Prop)
    (hbody : ∀ i s a, P s → P (body i s a).1) (i : ℕ) (s : σ) (l : List α) (h : P s) :
    P (forEach body i s l).1 :=
  forEach_invariant (fun s _ => P s) (fun i s _ a _ hs => hbody i s a hs) i s l h

/-- A measure of the shared state that each round moves by a list of amounts is moved by the
amounts of the visited rounds, in order. -/
theorem forEach_foldl {γ δ : Type*} {body : Body σ α} (measure : σ → γ) {advance : γ → δ → γ}
    (amounts : ℕ × σ × α → List δ)
    (hbody : ∀ i s a, measure (body i s a).1 = (amounts (i, s, a)).foldl advance (measure s))
    (i : ℕ) (s : σ) (l : List α) :
    measure (forEach body i s l).1 =
      ((visited body i s l).flatMap amounts).foldl advance (measure s) := by
  induction l generalizing i s with
  | nil => rfl
  | cons a rest ih =>
    rw [forEach, visited, List.flatMap_cons, List.foldl_append, ← hbody]
    split
    · exact ih (i + 1) (body i s a).1
    · rfl

/-- Bodies that agree on the visited rounds make the same loop. -/
theorem forEach_congr {body body' : Body σ α} {i : ℕ} {s : σ} {l : List α}
    (h : ∀ v ∈ visited body i s l, body' v.1 v.2.1 v.2.2 = body v.1 v.2.1 v.2.2) :
    forEach body' i s l = forEach body i s l ∧ visited body' i s l = visited body i s l := by
  induction l generalizing i s with
  | nil => exact ⟨rfl, rfl⟩
  | cons a rest ih =>
    rw [visited] at h
    have hfirst : body' i s a = body i s a := h (i, s, a) List.mem_cons_self
    rw [forEach, forEach, visited, visited, hfirst]
    by_cases hgoes : (body i s a).2.2 = true
    · rw [if_pos hgoes] at h
      obtain ⟨hloop, hvisited⟩ := ih fun v hv => h v (List.mem_cons_of_mem _ hv)
      rw [if_pos hgoes, if_pos hgoes, if_pos hgoes, if_pos hgoes, hloop, hvisited]
      exact ⟨rfl, rfl⟩
    · rw [if_neg hgoes, if_neg hgoes, if_neg hgoes, if_neg hgoes]
      exact ⟨rfl, rfl⟩

/-- A change of the shared state that no round looks at goes through the loop. -/
theorem forEach_map {body : Body σ α} (change : σ → σ)
    (hbody : ∀ i s a, body i (change s) a =
      (change (body i s a).1, (body i s a).2.1, (body i s a).2.2))
    (i : ℕ) (s : σ) (l : List α) :
    forEach body i (change s) l = (change (forEach body i s l).1, (forEach body i s l).2) ∧
      visited body i (change s) l =
        (visited body i s l).map fun v => (v.1, change v.2.1, v.2.2) := by
  induction l generalizing i s with
  | nil => exact ⟨rfl, rfl⟩
  | cons a rest ih =>
    obtain ⟨hloop, hvisited⟩ := ih (i + 1) (body i s a).1
    rw [forEach, visited, hbody, forEach, visited, List.map_cons]
    dsimp only
    rw [hloop, hvisited]
    split
    · exact ⟨rfl, rfl⟩
    · exact ⟨rfl, rfl⟩

end IperfRuntime.ListLoop
