import Coinage.Instant.Basic
import Mathlib.Data.List.MinMax
import Mathlib.Data.Prod.Lex
/-!
# The order of instants

Instants are ordered by their seconds and then by their nanoseconds, so a leap second comes behind its predecessor and
before the second that follows. The comparisons of the library are those of this order, and the earliest of some
instants is the least of them.
-/

namespace Coinage

namespace Instant

instance : LinearOrder Instant :=
  LinearOrder.lift' (fun t => toLex (t.seconds, t.nanoseconds)) fun a b h => by
    obtain ⟨seconds, nanoseconds⟩ := a
    cases h
    rfl

theorem lt_iff {a b : Instant} :
    a < b ↔ a.seconds < b.seconds ∨ a.seconds = b.seconds ∧ a.nanoseconds < b.nanoseconds :=
  Prod.Lex.toLex_lt_toLex

theorem isBefore_iff {a b : Instant} : a.isBefore b = true ↔ a < b := by
  rw [lt_iff, isBefore, compare, beq_iff_eq, Ordering.then_eq_lt, compare_lt_iff_lt, compare_eq_iff_eq,
    compare_lt_iff_lt]

theorem not_isBefore_iff {a b : Instant} : ¬ a.isBefore b = true ↔ b ≤ a := by
  rw [isBefore_iff, not_lt]

theorem earlier_eq_min (a b : Instant) : earlier a b = min a b := by
  unfold earlier
  split
  case isTrue h => exact (min_eq_right (isBefore_iff.1 h).le).symm
  case isFalse h => exact (min_eq_left (not_isBefore_iff.1 h)).symm

theorem earliest?_eq_min? (times : List Instant) : earliest? times = times.min? := by
  cases times with
  | nil => rfl
  | cons t rest =>
    rw [earliest?, List.min?_cons', funext₂ earlier_eq_min]

theorem earliest?_eq_some_iff {times : List Instant} {t : Instant} :
    earliest? times = some t ↔ t ∈ times ∧ ∀ other ∈ times, t ≤ other := by
  rw [earliest?_eq_min?, List.min?_eq_some_iff]

theorem earliest?_eq_none_iff {times : List Instant} : earliest? times = none ↔ times = [] := by
  rw [earliest?_eq_min?, List.min?_eq_none_iff]

end Instant

end Coinage
