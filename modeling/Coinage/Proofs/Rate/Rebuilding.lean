import Coinage.Proofs.Rate.Aggregation
/-!
# Rebuilding rates

A builder that starts from a rate holds all its parts, the factor of a chain as one of its own and the context as it
was filled up from the chain. It makes the rate once more if the chain leads from base to term and filling up the
context changes nothing any more (`create_ofRate_eq_ok_iff`). Both hold of a rate that a builder made, and of what is
read where such a rate was stored, since reading keeps the contexts of all links.
-/

namespace Coinage

open RateChain

namespace ExchangeRate

-- The recursion is that of the comparison, over a rate and its chain.
mutual

theorem same_refl : ∀ r : ExchangeRate, same r r = true
  | ⟨_, _, _, _, _, _, chain⟩ => same_of_factor_of_chain rfl (sameChain_refl chain)

theorem sameChain_refl : ∀ chain : List ExchangeRate, sameChain chain chain = true
  | [] => rfl
  | r :: rest => by
    rw [sameChain, same_refl r, sameChain_refl rest]
    rfl

end

@[simp]
theorem context_unsigned (r : ExchangeRate) : r.unsigned.context = r.context := by
  rw [unsigned_eq]

end ExchangeRate

namespace RateBuilder

/-- A rate is made once more from its own parts if its chain leads from base to term and its context is filled up. -/
theorem create_ofRate_eq_ok_iff {r : ExchangeRate} :
    (ofRate r).create = .ok r ↔ checkEnds r.chain r.base r.term = .ok () ∧ aggregate r.chain r.context = r.context := by
  rw [create_eq_ok_iff]
  constructor
  · intro ⟨base, term, factor, context, hbase, hterm, hends, hfactor, hcontext, hr⟩
    cases hbase
    cases hterm
    cases hcontext
    exact ⟨hends, (congrArg ExchangeRate.context hr).symm⟩
  · intro ⟨hends, hcontext⟩
    refine ⟨r.base, r.term, r.factor, r.context, rfl, rfl, hends, rfl, rfl, ?_⟩
    show r = ⟨r.provider, r.rateType, r.base, r.term, r.factor, aggregate r.chain r.context, r.chain⟩
    rw [hcontext]
    cases r
    rfl

/-- Contexts are filled up from links as they are read just as from the links that were stored. -/
theorem aggregate_map_unsigned (chain : List ExchangeRate) (c : ConversionContext) :
    aggregate (chain.map .unsigned) c = aggregate chain c := by
  simp only [aggregate, List.isEmpty_map, List.foldl_map, List.filterMap_map, ExchangeRate.context_unsigned,
    Function.comp_def]

theorem create_ofRate_of_create {b : RateBuilder} {r : ExchangeRate} (h : b.create = .ok r) :
    (ofRate r).create = .ok r := by
  obtain ⟨base, term, factor, context, -, -, hends, -, -, rfl⟩ := create_eq_ok_iff.1 h
  exact create_ofRate_eq_ok_iff.2 ⟨hends, aggregate_aggregate b.chain context⟩

theorem create_ofRate_unsigned {r : ExchangeRate} (hchained : r.WellChained) (h : (ofRate r).create = .ok r) :
    (ofRate r.unsigned).create = .ok r.unsigned := by
  obtain ⟨-, hcontext⟩ := create_ofRate_eq_ok_iff.1 h
  have hleads := ExchangeRate.leads_unsigned (hchained r Relation.ReflTransGen.refl)
  apply create_ofRate_eq_ok_iff.2
  rw [r.unsigned_eq]
  exact ⟨hleads.checkEnds_eq_ok, (aggregate_map_unsigned r.chain r.context).trans hcontext⟩

/-- A rate that a builder made is made once more from its own parts, whatever the builder held, and so is what is read
where the rate was stored. -/
theorem rebuilt_as_created :
    (∀ (b : RateBuilder) (r : ExchangeRate), b.create = .ok r → (ofRate r).create = .ok r ∧ (r == r) = true) ∧
    ∀ (start : Start) (calls : List Call) (r : ExchangeRate),
      (∀ part ∈ start.rates, part.Obtainable) → (∀ call ∈ calls, ∀ part ∈ call.rates, part.Obtainable) →
      (start.builder.run calls).create = .ok r → r.Storable →
      ∃ stored, ExchangeRate.ofJson r.toJson = .ok stored ∧ stored.context = r.context ∧
        (ofRate stored).create = .ok stored ∧ (stored == stored) = true ∧ (stored == r) = true := by
  constructor
  · intro b r h
    exact ⟨create_ofRate_of_create h, r.same_refl⟩
  · intro start calls r hstart hcalls h hstorable
    have hobtainable : r.Obtainable := .created start calls hstart hcalls h
    refine ⟨r.unsigned, r.ofJson_toJson hobtainable.wellChained hstorable, r.context_unsigned, ?_, ?_, ?_⟩
    · exact create_ofRate_unsigned hobtainable.wellChained (create_ofRate_of_create h)
    · exact r.unsigned.same_refl
    · exact r.unsigned_same

/-- The calls that compose a rate of there and back twice and leave its factor to the chain. -/
def thereAndBackTwice : List Call :=
  [.setChain [.thereAndBack, .thereAndBack], .setBase .euro, .setTerm .euro,
    .setContext { provider := "", rateType := .any }]

/-- There and back twice, with the product of the chain for its factor: the instant and the attribute come from below,
and the rate is made again and read back with both. -/
theorem rebuilt_as_created_nested :
    ∃ r stored, (Start.default.builder.run thereAndBackTwice).create = .ok r ∧
      r.context.timestamp = some ⟨1483228799, 1500000000⟩ ∧ r.context.attributes.get? "source" = some "fixing" ∧
      (ofRate r).create = .ok r ∧ ExchangeRate.ofJson r.toJson = .ok stored ∧ (ofRate stored).create = .ok stored ∧
      (stored == r) = true := by
  obtain ⟨hcreated, hstored⟩ := rebuilt_as_created
  have hcreate : (Start.default.builder.run thereAndBackTwice).create =
      .ok (.ofChain .euro .euro [.thereAndBack, .thereAndBack]) := by
    rfl
  have hcalls : ∀ call ∈ thereAndBackTwice, ∀ part ∈ call.rates, part.Obtainable := by
    simp [thereAndBackTwice, Call.rates, ExchangeRate.obtainable_thereAndBack]
  have hstart : ∀ part ∈ Start.default.rates, part.Obtainable :=
    fun _ hpart => absurd hpart List.not_mem_nil
  obtain ⟨stored, hread, -, hagain, -, hsame⟩ :=
    hstored .default _ _ hstart hcalls hcreate ExchangeRate.storable_thereAndBack_twice
  exact ⟨_, stored, hcreate, rfl, rfl, (hcreated _ _ hcreate).1, hread, hagain, hsame⟩

end RateBuilder

end Coinage
