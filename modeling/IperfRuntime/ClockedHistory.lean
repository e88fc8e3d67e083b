import Mathlib.Data.List.Pairwise
import Mathlib.Order.Lattice

/-!
# Histories with a clock

A counter that moves while a clock is read now and then. A span is the amount between two
readings; it fits a history when the history has these readings and moved that amount
between them. Spans tile a stretch of time when each starts where the one before ends.
Nothing is assumed about how the clock moves between readings.
-/

namespace IperfRuntime.ClockedHistory

variable {τ : Type*}

/-- What happens in a history. -/
inductive Mark (τ : Type*) where
  /-- The clock is read. -/
  | clock (now : τ)
  /-- The counter moves. -/
  | moved (amount : ℕ)
  deriving DecidableEq

/-- An amount between two readings. -/
structure Span (τ : Type*) where
  start : τ
  finish : τ
  amount : ℕ
  deriving DecidableEq

/-- What the clock showed, in order. -/
def readings : List (Mark τ) → List τ
  | [] => []
  | .clock now :: history => now :: readings history
  | .moved _ :: history => readings history

/-- How far the counter moved. -/
def total : List (Mark τ) → ℕ
  | [] => 0
  | .clock _ :: history => total history
  | .moved amount :: history => amount + total history

/-- A span that fits a history. -/
def Fits (history : List (Mark τ)) (span : Span τ) : Prop :=
  ∃ before between after,
    history = before ++ .clock span.start :: (between ++ .clock span.finish :: after) ∧
      total between = span.amount

/-- Spans without gap or overlap. -/
def Tiles : τ → List (Span τ) → τ → Prop
  | start, [], finish => start = finish
  | start, span :: spans, finish => span.start = start ∧ Tiles span.finish spans finish

/-- The readings of two histories are those of the first and then those of the second. -/
@[simp] theorem readings_append (a b : List (Mark τ)) :
    readings (a ++ b) = readings a ++ readings b := by
  induction a with
  | nil => rfl
  | cons mark a ih =>
    cases mark with
    | clock now =>
      rw [List.cons_append, readings, readings, ih, List.cons_append]
    | moved amount =>
      rw [List.cons_append, readings, readings]
      exact ih

/-- Their totals add up. -/
@[simp] theorem total_append (a b : List (Mark τ)) : total (a ++ b) = total a + total b := by
  induction a with
  | nil => rw [List.nil_append, total, Nat.zero_add]
  | cons mark a ih =>
    cases mark with
    | clock now =>
      rw [List.cons_append, total, total]
      exact ih
    | moved amount => rw [List.cons_append, total, total, ih, Nat.add_assoc]

/-- A span still fits when the history goes on. -/
theorem Fits.append {history : List (Mark τ)} {span : Span τ} (h : Fits history span)
    (more : List (Mark τ)) : Fits (history ++ more) span := by
  obtain ⟨before, between, after, rfl, hamount⟩ := h
  refine ⟨before, between, after ++ more, ?_, hamount⟩
  rw [List.append_assoc, List.cons_append, List.append_assoc, List.cons_append]

/-- The span between a reading and the next one that is taken. -/
theorem Fits.close {start : τ} {before between : List (Mark τ)} (finish : τ) :
    Fits ((before ++ .clock start :: between) ++ [.clock finish])
      ⟨start, finish, total between⟩ := by
  refine ⟨before, between, [], ?_, rfl⟩
  rw [List.append_assoc, List.cons_append]

/-- A span goes forward when the clock does. -/
theorem Fits.forward [LinearOrder τ] {history : List (Mark τ)} {span : Span τ}
    (h : Fits history span) (hclock : (readings history).Pairwise (· ≤ ·)) :
    span.start ≤ span.finish := by
  obtain ⟨before, between, after, rfl, -⟩ := h
  rw [readings_append, List.pairwise_append] at hclock
  have htail := hclock.2.1
  rw [readings, List.pairwise_cons] at htail
  refine htail.1 span.finish ?_
  rw [readings_append, readings]
  exact List.mem_append_right _ List.mem_cons_self

/-- One span more at the end. -/
theorem Tiles.concat {start finish : τ} {spans : List (Span τ)} (h : Tiles start spans finish)
    {span : Span τ} (hstart : span.start = finish) :
    Tiles start (spans ++ [span]) span.finish := by
  induction spans generalizing start with
  | nil => exact ⟨hstart.trans h.symm, rfl⟩
  | cons first spans ih => exact ⟨h.1, ih h.2⟩

end IperfRuntime.ClockedHistory
