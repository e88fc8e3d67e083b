import Mathlib.Data.Rat.Defs
import Mathlib.Algebra.Order.Ring.Unbundled.Rat
import Mathlib.Algebra.Order.Group.Unbundled.Abs
import Mathlib.Algebra.Order.Group.Abs
import Mathlib.Algebra.Order.Ring.Rat
import Mathlib.Tactic.Linarith
import Mathlib.Tactic.FieldSimp
import Mathlib.Tactic.Ring

/-!
# Clock readings

`struct timeval` with the comparison that `timer.c` spells out at every test,
its microsecond arithmetic and the differences taken by the reports. Readings
are integers without a machine width; differences are exact rationals where
the source computes in `double`.
-/

namespace IperfRuntime.ClockReading

/-- Seconds and microseconds as `gettimeofday` returns them. -/
@[ext]
structure Timeval where
  /-- Whole seconds. -/
  tvSec : ℤ := 0
  /-- Microseconds, in `0..999999` when the reading is normalised. -/
  tvUsec : ℤ := 0
  deriving DecidableEq, Repr

/-- Readings compare by seconds, then by microseconds, as every test of
`timer.c` writes it out. -/
instance : LinearOrder Timeval where
  le a b := a.tvSec < b.tvSec ∨ a.tvSec = b.tvSec ∧ a.tvUsec ≤ b.tvUsec
  lt a b := a.tvSec < b.tvSec ∨ a.tvSec = b.tvSec ∧ a.tvUsec < b.tvUsec
  le_refl a := Or.inr ⟨rfl, le_refl _⟩
  le_trans a b c hab hbc := by omega
  lt_iff_le_not_ge a b := by omega
  le_antisymm a b hab hba := by
    ext
    · omega
    · omega
  le_total a b := by omega
  toDecidableLE a b := inferInstanceAs (Decidable (_ ∨ _ ∧ _))

/-- An earlier time has fewer seconds, or as many seconds and fewer microseconds. -/
theorem Timeval.lt_iff {a b : Timeval} :
    a < b ↔ a.tvSec < b.tvSec ∨ a.tvSec = b.tvSec ∧ a.tvUsec < b.tvUsec := Iff.rfl

/-- The microseconds of a normalised reading stay below one second. -/
def Timeval.Normalised (t : Timeval) : Prop := 0 ≤ t.tvUsec ∧ t.tvUsec < 1000000

/-- Microseconds since the epoch. -/
def Timeval.toUsecs (t : Timeval) : ℤ := t.tvSec * 1000000 + t.tvUsec

/-- Normalised readings are ordered by their microseconds since the epoch. -/
theorem Timeval.lt_iff_toUsecs {a b : Timeval} (ha : a.Normalised) (hb : b.Normalised) :
    a < b ↔ a.toUsecs < b.toUsecs := by
  obtain ⟨ha0, ha1⟩ := ha
  obtain ⟨hb0, hb1⟩ := hb
  rw [Timeval.lt_iff]
  unfold Timeval.toUsecs
  omega

/-- `add_usecs`: C division truncates, and only an overflow of the microsecond
field is carried. -/
def addUsecs (t : Timeval) (usecs : ℤ) : Timeval :=
  let sec := t.tvSec + usecs.tdiv 1000000
  let usec := t.tvUsec + usecs.tmod 1000000
  if 1000000 ≤ usec then ⟨sec + usec.tdiv 1000000, usec.tmod 1000000⟩ else ⟨sec, usec⟩

/-- For a non-negative number of microseconds the divisions are Euclidean. -/
theorem addUsecs_eq (t : Timeval) {usecs : ℤ} (hu : 0 ≤ usecs) :
    addUsecs t usecs =
      if 1000000 ≤ t.tvUsec + usecs % 1000000 then
        ⟨t.tvSec + usecs / 1000000 + (t.tvUsec + usecs % 1000000) / 1000000,
          (t.tvUsec + usecs % 1000000) % 1000000⟩
      else ⟨t.tvSec + usecs / 1000000, t.tvUsec + usecs % 1000000⟩ := by
  unfold addUsecs
  dsimp only
  rw [Int.tdiv_eq_ediv_of_nonneg hu, Int.tmod_eq_emod_of_nonneg hu]
  split
  · have hs : 0 ≤ t.tvUsec + usecs % 1000000 := by omega
    rw [Int.tdiv_eq_ediv_of_nonneg hs, Int.tmod_eq_emod_of_nonneg hs]
  · rfl

/-- Adding microseconds moves any reading by exactly that number. -/
theorem toUsecs_addUsecs (t : Timeval) {usecs : ℤ} (hu : 0 ≤ usecs) :
    (addUsecs t usecs).toUsecs = t.toUsecs + usecs := by
  rw [addUsecs_eq t hu]
  unfold Timeval.toUsecs
  split
  · dsimp only
    omega
  · dsimp only
    omega

/-- Adding a non-negative number of microseconds keeps a reading normalised and
moves it by exactly that number. -/
theorem addUsecs_spec {t : Timeval} {usecs : ℤ} (ht : t.Normalised) (hu : 0 ≤ usecs) :
    (addUsecs t usecs).Normalised ∧ (addUsecs t usecs).toUsecs = t.toUsecs + usecs := by
  obtain ⟨h0, h1⟩ := ht
  refine ⟨?_, toUsecs_addUsecs t hu⟩
  rw [addUsecs_eq t hu]
  unfold Timeval.Normalised
  split
  · dsimp only
    omega
  · dsimp only
    omega

/-- The microseconds of a sum stay below one second. -/
theorem addUsecs_tvUsec (t : Timeval) (usecs : ℤ) : (addUsecs t usecs).tvUsec < 1000000 := by
  unfold addUsecs
  dsimp only
  split
  · have hs : 0 ≤ t.tvUsec + usecs.tmod 1000000 := by omega
    rw [Int.tmod_eq_emod_of_nonneg hs]
    dsimp only
    omega
  · dsimp only
    omega

/-- Adding microseconds leads to a later reading. -/
theorem lt_addUsecs (t : Timeval) {usecs : ℤ} (hu : 0 < usecs) : t < addUsecs t usecs := by
  rw [Timeval.lt_iff, addUsecs_eq t hu.le]
  split
  · dsimp only
    omega
  · dsimp only
    omega

/-- `timeval_equals`. -/
def timevalEquals (tv0 tv1 : Timeval) : Bool :=
  tv0.tvSec == tv1.tvSec && tv0.tvUsec == tv1.tvUsec

/-- `timeval_equals` finds two times equal exactly if they are. -/
theorem timevalEquals_iff {tv0 tv1 : Timeval} : timevalEquals tv0 tv1 = true ↔ tv0 = tv1 := by
  simp only [timevalEquals, Bool.and_eq_true, beq_iff_eq, Timeval.ext_iff]

/-- A reading in seconds. -/
def Timeval.seconds (t : Timeval) : ℚ := t.tvSec + t.tvUsec / 1000000

/-- `timeval_diff`: the distance in seconds, without a sign. It is exact where the source
subtracts two `double`s, so a distance such as 99.995000 s that stands exactly on a tie of the
printed digits may be rounded the other way there. -/
def timevalDiff (tv0 tv1 : Timeval) : ℚ :=
  let time := tv0.seconds - tv1.seconds
  if time < 0 then -time else time

/-- `timeval_diff` is the distance of the two times in seconds. -/
theorem timevalDiff_eq_abs (tv0 tv1 : Timeval) :
    timevalDiff tv0 tv1 = |tv0.seconds - tv1.seconds| := by
  unfold timevalDiff
  dsimp only
  split
  · rename_i h
    rw [abs_of_neg h]
  · rename_i h
    rw [abs_of_nonneg (not_lt.mp h)]

/-- It is not negative. -/
theorem timevalDiff_nonneg (tv0 tv1 : Timeval) : 0 ≤ timevalDiff tv0 tv1 := by
  rw [timevalDiff_eq_abs]
  exact abs_nonneg _

/-- A time is at no distance from itself. -/
@[simp] theorem timevalDiff_self (tv : Timeval) : timevalDiff tv tv = 0 := by
  rw [timevalDiff_eq_abs, sub_self, abs_zero]

/-- The seconds of a reading are its microseconds scaled down. -/
theorem Timeval.seconds_eq (t : Timeval) : t.seconds = t.toUsecs / 1000000 := by
  unfold Timeval.seconds Timeval.toUsecs
  push_cast
  ring

end IperfRuntime.ClockReading
