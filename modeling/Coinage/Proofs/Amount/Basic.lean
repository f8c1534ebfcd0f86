import Coinage.Amount.Operations
import Coinage.Proofs.Decimal.Value
import Coinage.Proofs.Outcome
/-!
# How amounts take up a number

Operations compute a number and hand it to one of three makers: `Money.withNumber` keeps it,
`RoundedMoney.finish` rounds it to the context and `RoundedMoney.exact` insists that it fits. What each
of them makes of a number is said here once.
-/

namespace Coinage

/-- The currency of the amounts that examples compute with. -/
def Currency.euro : Currency :=
  ⟨"EUR", some 978, 2, by decide⟩

/-- The currency that examples exchange euros for. -/
def Currency.dollar : Currency :=
  ⟨"USD", some 840, 2, by decide⟩

theorem Currency.beq_iff {a b : Currency} : (a == b) = true ↔ a.code = b.code :=
  beq_iff_eq (α := String)

theorem checkCurrency_eq_ok {a b : Currency} (h : a.code = b.code) : checkCurrency a b = .ok () :=
  if_pos (Currency.beq_iff.2 h)

namespace Money

@[simp]
theorem number_withNumber (a : Money) (n : Decimal) : (a.withNumber n).number = n.unsigned := rfl

end Money

namespace RoundedMoney

/-- A number that is kept exactly is the number of the result, and nothing else of the amount changes. -/
theorem exact_eq_ok {a r : RoundedMoney} {n : Decimal} {part : String} (h : a.exact n part = .ok r) :
    ∃ cut, n.roundToPrecision ⟨a.context.precision, .down⟩ = .ok cut ∧ cut.value = n.value ∧
      r = { a with number := n.unsigned } := by
  unfold exact at h
  obtain ⟨cut, hcut, h⟩ := bind_eq_ok.1 h
  split at h
  case isTrue hsame => exact ⟨cut, hcut, (Decimal.sameValue_iff _ _).1 hsame, (pure_eq_ok.1 h).symm⟩
  case isFalse => cases h

/-- Without a pending rounding only the context rounds. -/
theorem finish_eq_ok_of_pending_none {a r : RoundedMoney} {n : Decimal} (hp : a.pending = none) :
    a.finish n = .ok r ↔
      ∃ reduced, n.roundToPrecision a.context = .ok reduced ∧ r = { a with number := reduced.unsigned } := by
  unfold finish
  rw [bind_eq_ok]
  refine exists_congr fun reduced => and_congr_right fun _ => ?_
  rw [hp]
  exact pure_eq_ok.trans eq_comm

/-- However an amount takes up a number, what it holds then came out of a rounding to its context, and
neither the context nor the pending rounding changes. -/
theorem finish_eq_ok {a r : RoundedMoney} {n : Decimal} (h : a.finish n = .ok r) :
    (∃ m d, Decimal.roundToPrecision m a.context = .ok d ∧ r.number = d.unsigned) ∧
      r.context = a.context ∧ r.pending = a.pending := by
  rcases hp : a.pending with _ | rounding
  · obtain ⟨d, hd, rfl⟩ := (finish_eq_ok_of_pending_none hp).1 h
    exact ⟨⟨n, d, hd, rfl⟩, rfl, hp⟩
  · unfold finish at h
    rw [hp] at h
    obtain ⟨reduced, -, h⟩ := bind_eq_ok.1 h
    obtain ⟨rounded, -, h⟩ := bind_eq_ok.1 h
    obtain ⟨d, hd, h⟩ := bind_eq_ok.1 h
    cases pure_eq_ok.1 h
    exact ⟨⟨rounded.number, d, hd, rfl⟩, rfl, rfl⟩

end RoundedMoney

end Coinage
