import Mathlib.Data.Nat.Notation

/-!
# Steps that need not be possible

Runs of a system whose events may be impossible in a state, what every run keeps, and what
some run of a kind of events leads to. No fairness is assumed, so that a state can be
reached does not mean that it will be.
-/

namespace IperfRuntime.PartialSteps

variable {σ ε : Type*}

/-- The state behind several events, if each is possible where it stands. -/
def run (next : σ → ε → Option σ) : List ε → σ → Option σ
  | [], s => some s
  | event :: events, s => (next s event).bind (run next events)

/-- What each event of a kind keeps, a run of them keeps. -/
theorem run_keeps {next : σ → ε → Option σ} {kind : ε → Prop} {keeps : σ → Prop}
    (hstep : ∀ {s s' event}, keeps s → kind event → next s event = some s' → keeps s') {s s' : σ}
    {events : List ε} (h : keeps s) (hkind : ∀ event ∈ events, kind event)
    (hrun : run next events s = some s') : keeps s' := by
  induction events generalizing s with
  | nil =>
    cases hrun
    exact h
  | cons event events ih =>
    obtain ⟨hevent, hkind⟩ := List.forall_mem_cons.mp hkind
    obtain ⟨s₁, hfirst, hrest⟩ := Option.bind_eq_some_iff.mp hrun
    exact ih (hstep h hevent hfirst) hkind hrest

/-- Some run of events of a kind leads to a state with a property. -/
def Reaches (next : σ → ε → Option σ) (kind : ε → Prop) (s : σ) (goal : σ → Prop) : Prop :=
  ∃ events, (∀ event ∈ events, kind event) ∧ ∃ s', run next events s = some s' ∧ goal s'

variable {next : σ → ε → Option σ} {kind : ε → Prop} {s s' : σ} {goal goal' : σ → Prop}

/-- A goal that holds is reached. -/
theorem Reaches.here (h : goal s) : Reaches next kind s goal :=
  ⟨[], fun _ hevent => absurd hevent List.not_mem_nil, s, rfl, h⟩

/-- A step in front of a path is part of the path. -/
theorem Reaches.head {event : ε} (hevent : kind event) (hstep : next s event = some s')
    (h : Reaches next kind s' goal) : Reaches next kind s goal := by
  obtain ⟨events, hkind, s'', hrun, hgoal⟩ := h
  refine ⟨event :: events, List.forall_mem_cons.mpr ⟨hevent, hkind⟩, s'', ?_, hgoal⟩
  rw [run, hstep, Option.bind_some, hrun]

/-- Paths compose. -/
theorem Reaches.trans (h : Reaches next kind s goal)
    (hnext : ∀ s', goal s' → Reaches next kind s' goal') : Reaches next kind s goal' := by
  obtain ⟨events, hkind, s', hrun, hgoal⟩ := h
  induction events generalizing s with
  | nil =>
    cases hrun
    exact hnext _ hgoal
  | cons event events ih =>
    obtain ⟨hevent, hkind⟩ := List.forall_mem_cons.mp hkind
    obtain ⟨s₁, hfirst, hrest⟩ := Option.bind_eq_some_iff.mp hrun
    exact Reaches.head hevent hfirst (ih hkind hrest)

/-- A counter that can be brought up by one from every state of a kind can be brought up to
any bound. -/
theorem reaches_count {keeps : σ → Prop} {count : σ → ℕ} {bound : ℕ}
    (hgrows : ∀ s, keeps s → count s < bound →
      Reaches next kind s fun s' => keeps s' ∧ count s' = count s + 1)
    (h : keeps s) (hcount : count s ≤ bound) :
    Reaches next kind s fun s' => keeps s' ∧ count s' = bound := by
  obtain ⟨k, hk⟩ : ∃ k, bound = count s + k := ⟨bound - count s, by omega⟩
  induction k generalizing s with
  | zero => exact Reaches.here ⟨h, hk.symm⟩
  | succ k ih =>
    refine (hgrows s h (by omega)).trans fun s' hnext => ?_
    exact ih hnext.1 (by omega) (by omega)

end IperfRuntime.PartialSteps
