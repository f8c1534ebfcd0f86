import Coinage.Operator.Reference
import Coinage.Proofs.Amount.ContextInvariant
import Coinage.Proofs.Decimal.Scale
/-!
# A pending rounding to places

A rounding to places that is attached to an amount holds on every later result, together with the context.
Neither rounding undoes the other: a number that has only so many places keeps to them when digits are dropped
(`HasPlaces.of_roundToPrecision`), and the context takes no digit of a number that respects it. So the number rests
(`PlacesHeld`), under every context that it meets on the way, and rounding it anew changes nothing.
-/

namespace Coinage

open Decimal

namespace RoundedMoney

variable {rounding : PlaceRounding} {a r : RoundedMoney} {n : Decimal}

/-- A pending rounding to places rounds to them, and to the context behind it. -/
theorem apply_eq_ok {b b' : BoundedMoney} :
    (PendingRounding.ofOperator rounding.operator).apply b = .ok b' ↔
      ∃ cut fitted, b.number.roundToScale rounding.scale rounding.mode = .ok cut ∧
        cut.roundToPrecision b.context = .ok fitted ∧ b' = { b with number := fitted.unsigned } := by
  have hunfold : (PendingRounding.ofOperator rounding.operator).apply b =
      (b.number.roundToScale rounding.scale rounding.mode >>= fun cut =>
        (finish { b with pending := none } cut).map Amount.rounded) >>= fun result =>
          MonetaryAmount.ofAmount result >>= fun (rounded : RoundedMoney) => pure rounded.toBoundedMoney := rfl
  rw [hunfold]
  constructor
  · intro h
    obtain ⟨result, hresult, h⟩ := bind_eq_ok.1 h
    obtain ⟨cut, hcut, hresult⟩ := bind_eq_ok.1 hresult
    cases hfinish : finish { b with pending := none } cut with
    | error cause =>
      rw [hfinish] at hresult
      cases hresult
    | ok x =>
      rw [hfinish] at hresult
      cases hresult
      cases pure_eq_ok.1 h
      obtain ⟨fitted, hfitted, rfl⟩ := (finish_eq_ok_of_pending_none rfl).1 hfinish
      exact ⟨cut, fitted, hcut, hfitted, rfl⟩
  · rintro ⟨cut, fitted, hcut, hfitted, rfl⟩
    rw [hcut, ok_bind, (finish_eq_ok_of_pending_none rfl).2 ⟨fitted, hfitted, rfl⟩]
    rfl

/-- A number is rounded to the context, to the places, and to the context twice more. -/
theorem finish_eq_ok_of_pending_places (hp : a.pending = some (.ofOperator rounding.operator)) :
    a.finish n = .ok r ↔
      ∃ reduced cut fitted last, n.roundToPrecision a.context = .ok reduced ∧
        reduced.unsigned.roundToScale rounding.scale rounding.mode = .ok cut ∧
        cut.roundToPrecision a.context = .ok fitted ∧ fitted.unsigned.roundToPrecision a.context = .ok last ∧
        r = { a with number := last.unsigned } := by
  unfold finish
  rw [hp]
  constructor
  · intro h
    obtain ⟨reduced, hreduced, h⟩ := bind_eq_ok.1 h
    obtain ⟨rounded, hrounded, h⟩ := bind_eq_ok.1 h
    obtain ⟨cut, fitted, hcut, hfitted, rfl⟩ := apply_eq_ok.1 hrounded
    obtain ⟨last, hlast, h⟩ := bind_eq_ok.1 h
    exact ⟨reduced, cut, fitted, last, hreduced, hcut, hfitted, hlast, (pure_eq_ok.1 h).symm⟩
  · rintro ⟨reduced, cut, fitted, last, hreduced, hcut, hfitted, hlast, rfl⟩
    refine bind_eq_ok.2 ⟨reduced, hreduced, bind_eq_ok.2 ⟨_, apply_eq_ok.2 ⟨cut, fitted, hcut, hfitted, rfl⟩, ?_⟩⟩
    exact bind_eq_ok.2 ⟨last, hlast, rfl⟩

/-! ### Steps and runs -/

/-- The results of a step that takes up a number anew, and the amount in another currency. -/
inductive Reworked (a : RoundedMoney) : RoundedMoney → Prop
  | add {r : RoundedMoney} (b : RoundedMoney) : a.add b = .ok r → Reworked a r
  | subtract {r : RoundedMoney} (b : RoundedMoney) : a.subtract b = .ok r → Reworked a r
  | multiplyBy {r : RoundedMoney} (n : Decimal) : a.multiplyBy n = .ok r → Reworked a r
  | divideBy {r : RoundedMoney} (n : Decimal) : a.divideBy n = .ok r → Reworked a r
  | negate {r : RoundedMoney} : a.negate = .ok r → Reworked a r
  | plus {r : RoundedMoney} : a.plus = .ok r → Reworked a r
  | abs {r : RoundedMoney} : MonetaryAmount.abs a = .ok r → Reworked a r
  | pow {r : RoundedMoney} (exponent : Nat) : a.pow exponent = .ok r → Reworked a r
  | shift {r : RoundedMoney} (n : Int) : a.shift n = .ok r → Reworked a r
  | withNumber {r : RoundedMoney} (n : Decimal) : a.withNumber n = .ok r → Reworked a r
  | withContext {r : RoundedMoney} (context : MathContext) : a.withContext context = .ok r → Reworked a r
  | withCurrency (c : Currency) : Reworked a (a.withCurrency c)

/-- The amounts that come of attaching a rounding to places to any amount, and of any steps after that. -/
inductive RoundedBy (rounding : PlaceRounding) : RoundedMoney → Prop
  | attached {a r : RoundedMoney} : a.withPendingOperator rounding.operator = .ok r → RoundedBy rounding r
  | step {a r : RoundedMoney} : RoundedBy rounding a → Reworked a r → RoundedBy rounding r

theorem Reworked.taken_up (h : Reworked a r) :
    (∃ context n, finish { a with context := context } n = .ok r) ∨ ∃ c, r = a.withCurrency c := by
  have hfinish : ∀ {m : Decimal}, a.finish m = .ok r →
      (∃ context n, finish { a with context := context } n = .ok r) ∨ ∃ c, r = a.withCurrency c :=
    fun h => Or.inl ⟨a.context, _, h⟩
  cases h with
  | add b h | subtract b h =>
    obtain ⟨-, -, h⟩ := bind_eq_ok.1 h
    obtain ⟨m, -, h⟩ := bind_eq_ok.1 h
    exact hfinish h
  | multiplyBy n h | divideBy n h | pow n h | shift n h =>
    obtain ⟨m, -, h⟩ := bind_eq_ok.1 h
    exact hfinish h
  | negate h | plus h | withNumber n h => exact hfinish h
  | abs h =>
    unfold MonetaryAmount.abs at h
    split at h
    · exact Or.inr ⟨a.currency, (Except.ok.inj h).symm⟩
    · exact hfinish h
  | withContext context h => exact Or.inl ⟨context, a.number, h⟩
  | withCurrency c => exact Or.inr ⟨c, rfl⟩

/-- Whether an amount has a pending rounding to places, which its number keeps to, as it does to the context. -/
structure PlacesHeld (rounding : PlaceRounding) (a : RoundedMoney) : Prop where
  pending : a.pending = some (.ofOperator rounding.operator)
  places : HasPlaces (min rounding.scale maxScale) a.number.value
  withinContext : a.WithinContext

theorem placesHeld_of_finish (hp : a.pending = some (.ofOperator rounding.operator)) (h : a.finish n = .ok r) :
    PlacesHeld rounding r := by
  have hwithin := withinContext_of_finish h
  obtain ⟨reduced, cut, fitted, last, -, hcut, hfitted, hlast, rfl⟩ := (finish_eq_ok_of_pending_places hp).1 h
  have hplaces := (hasPlaces_of_roundToScale hcut).of_roundToPrecision hfitted
  rw [← value_unsigned] at hplaces
  have hheld := hplaces.of_roundToPrecision hlast
  exact ⟨hp, hheld, hwithin⟩

theorem PlacesHeld.step (ha : PlacesHeld rounding a) (h : Reworked a r) : PlacesHeld rounding r := by
  obtain ⟨context, n, h⟩ | ⟨c, rfl⟩ := h.taken_up
  · exact placesHeld_of_finish (a := { a with context := context }) ha.pending h
  · exact ⟨ha.pending, ha.places, ha.withinContext⟩

theorem RoundedBy.placesHeld (h : RoundedBy rounding a) : PlacesHeld rounding a := by
  induction h with
  | attached h => exact placesHeld_of_finish rfl h
  | step _ h ih => exact ih.step h

/-- Rounding the number anew succeeds and changes nothing of its value. -/
theorem PlacesHeld.plus (ha : PlacesHeld rounding a) : ∃ r, a.plus = .ok r ∧ r.number.value = a.number.value := by
  have hbounded : ∀ {d : Decimal}, d.value = a.number.value →
      ∃ e, d.roundToPrecision a.context = .ok e ∧ e.unsigned.value = a.number.value := fun {d} hd => by
    obtain ⟨e, he, hvalue⟩ := Bounded.roundToPrecision (d := d) (c := a.context) (by rw [hd]; exact ha.withinContext)
    exact ⟨e, he, hvalue.trans hd⟩
  obtain ⟨reduced, hreduced, hvalue⟩ := hbounded rfl
  obtain ⟨cut, hcut, hvalue'⟩ := HasPlaces.roundToScale (d := reduced.unsigned) (by rw [hvalue]; exact ha.places) rounding.mode
  obtain ⟨fitted, hfitted, hvalue⟩ := hbounded (hvalue'.trans hvalue)
  obtain ⟨last, hlast, hvalue⟩ := hbounded hvalue
  exact ⟨_, (finish_eq_ok_of_pending_places ha.pending).2
    ⟨reduced, cut, fitted, last, hreduced, hcut, hfitted, hlast, rfl⟩, hvalue⟩

/-- A pending rounding to `s` places holds on every result after any steps under any contexts: the number is a
multiple of `10 ^ (-s)`, at most 28 places counted, and one that its context leaves as it is; the rounding is still
pending, and applying it once more leaves the value as it is. -/
theorem RoundedBy.holds (h : RoundedBy rounding a) :
    (∃ k : ℤ, a.number.value = k / 10 ^ min rounding.scale 28) ∧
      (∃ d, a.number.roundToPrecision a.context = .ok d ∧ d.value = a.number.value) ∧
      a.pending = some (.ofOperator rounding.operator) ∧
      ∃ r, a.plus = .ok r ∧ r.number.value = a.number.value := by
  have hheld := h.placesHeld
  exact ⟨hheld.places, Bounded.roundToPrecision hheld.withinContext, hheld.pending, hheld.plus⟩

/-- Ten euros and a half cent, rounded to cents and then divided by three. -/
theorem RoundedBy.holds_third :
    ∃ r, RoundedBy (.ofCurrency .euro .halfUp) r ∧ r.number.value = 334 / 10 ^ 2 ∧
      ∃ s, r.plus = .ok s ∧ s.number.value = r.number.value := by
  have hattached : RoundedBy (.ofCurrency .euro .halfUp)
      (.mk ⟨.euro, .decimal64, ofDigits 1001 2 (by decide)⟩ (some (.ofOperator (PlaceRounding.ofCurrency .euro .halfUp).operator))) :=
    .attached (a := ⟨⟨.euro, .decimal64, ofDigits 10005 3 (by decide)⟩, none⟩) (by cbv)
  have hthird : RoundedBy (.ofCurrency .euro .halfUp)
      (.mk ⟨.euro, .decimal64, ofDigits 334 2 (by decide)⟩ (some (.ofOperator (PlaceRounding.ofCurrency .euro .halfUp).operator))) :=
    hattached.step (.divideBy (ofDigits 3 0 (by decide)) (by cbv))
  exact ⟨_, hthird, by simp, (RoundedBy.holds hthird).2.2.2⟩

end RoundedMoney

end Coinage
