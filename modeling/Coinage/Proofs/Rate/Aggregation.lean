import Coinage.Proofs.Instant.Order
import Coinage.Proofs.Rate.Attributes
import Coinage.Proofs.Rate.Builder
import Coinage.Proofs.Stored.Rate
/-!
# Contexts of chains

The context of a rate with a chain is that of its builder, filled up from the links: `Aggregates` says what it holds.
The attributes of the links are merged from the first to the last, so for a key that several have the last one counts
(`get?_inherited`), and what is merged last are the builder's own.
-/

namespace Coinage

namespace RateChain

/-- What the links of a chain have of attributes: those of a link count more than those of the links before it. -/
def inherited (chain : List ExchangeRate) : Attributes :=
  chain.foldl (fun a link => a.merge link.context.attributes) .empty

/-- The instants of the links that have one. -/
def times (chain : List ExchangeRate) : List Instant :=
  chain.filterMap fun link => link.context.timestamp

/-- Whether a value is the one that the last link of a chain with an attribute of that key has for it. -/
def LastHas (chain : List ExchangeRate) (key value : String) : Prop :=
  ∃ before link after, chain = before ++ link :: after ∧ link.context.attributes.get? key = some value ∧
    ∀ other ∈ after, key ∉ other.context.attributes

variable {chain : List ExchangeRate} {last : ExchangeRate} {key value : String} {t : Instant}

theorem inherited_concat : inherited (chain ++ [last]) = (inherited chain).merge last.context.attributes :=
  List.foldl_concat _ _ _ _

/-- One link more. -/
theorem lastHas_concat :
    LastHas (chain ++ [last]) key value ↔
      last.context.attributes.get? key = some value ∨
        last.context.attributes.get? key = none ∧ LastHas chain key value := by
  constructor
  · rintro ⟨before, link, after, hsplit, hvalue, hafter⟩
    rcases concat_eq_append_cons_iff.1 hsplit with ⟨rfl, rfl, rfl⟩ | ⟨after', rfl, rfl⟩
    · exact .inl hvalue
    · refine .inr ⟨Attributes.get?_eq_none_iff.2 (hafter last (by simp)), before, link, after', rfl, hvalue, ?_⟩
      intro other hother
      exact hafter other (List.mem_append_left _ hother)
  · rintro (hvalue | ⟨hnone, before, link, after, rfl, hvalue, hafter⟩)
    · exact ⟨chain, last, [], rfl, hvalue, by simp⟩
    · refine ⟨before, link, after ++ [last], by simp, hvalue, ?_⟩
      intro other hother
      rcases List.mem_append.1 hother with hother | hother
      · exact hafter other hother
      · exact List.mem_singleton.1 hother ▸ Attributes.get?_eq_none_iff.1 hnone

theorem get?_inherited : (inherited chain).get? key = some value ↔ LastHas chain key value := by
  induction chain using List.reverseRecOn with
  | nil => simp [inherited, LastHas]
  | append_singleton chain last ih =>
    rw [inherited_concat, Attributes.get?_merge, lastHas_concat, Option.or_eq_some_iff, ih]

theorem mem_inherited : key ∈ inherited chain ↔ ∃ link ∈ chain, key ∈ link.context.attributes := by
  induction chain using List.reverseRecOn with
  | nil => simp [inherited, Attributes.mem_iff_exists]
  | append_singleton chain last ih =>
    rw [inherited_concat, Attributes.mem_merge, ih]
    simp [or_and_right, exists_or, or_comm]

theorem mem_times : t ∈ times chain ↔ ∃ link ∈ chain, link.context.timestamp = some t :=
  List.mem_filterMap

end RateChain

open RateChain

/-- What the context of a rate holds that was created with a context of its own and a chain. -/
structure Aggregates (own : ConversionContext) (chain : List ExchangeRate) (c : ConversionContext) : Prop where
  provider_eq : c.provider = own.provider
  rateType_eq : c.rateType = own.rateType
  mem_attributes_iff : ∀ key, key ∈ c.attributes ↔
    key ∈ own.attributes ∨ ∃ link ∈ chain, key ∈ link.context.attributes
  own_counts : ∀ key ∈ own.attributes, c.attributes.get? key = own.attributes.get? key
  last_counts : ∀ key, key ∉ own.attributes → ∀ value, c.attributes.get? key = some value ↔ LastHas chain key value
  own_timestamp : ∀ t, own.timestamp = some t → c.timestamp = some t
  oldest_counts : own.timestamp = none → ∀ t, c.timestamp = some t ↔
    (∃ link ∈ chain, link.context.timestamp = some t) ∧
      ∀ link ∈ chain, ∀ other, link.context.timestamp = some other → t ≤ other
  timestamp_eq_none_iff : c.timestamp = none ↔ own.timestamp = none ∧ ∀ link ∈ chain, link.context.timestamp = none

namespace RateBuilder

theorem aggregate_nil (c : ConversionContext) : aggregate [] c = c := rfl

theorem aggregate_of_ne_nil {chain : List ExchangeRate} (h : chain ≠ []) (c : ConversionContext) :
    aggregate chain c =
      { c with
        attributes := (inherited chain).merge c.attributes
        timestamp := c.timestamp.or (Instant.earliest? (times chain)) } :=
  if_neg (mt List.isEmpty_iff.1 h)

theorem aggregates_aggregate {chain : List ExchangeRate} (h : chain ≠ []) (own : ConversionContext) :
    Aggregates own chain (aggregate chain own) := by
  rw [aggregate_of_ne_nil h]
  constructor
  case provider_eq => rfl
  case rateType_eq => rfl
  case mem_attributes_iff =>
    intro key
    rw [Attributes.mem_merge, mem_inherited]
  case own_counts =>
    intro key hkey
    obtain ⟨value, hvalue⟩ := Attributes.mem_iff_exists.1 hkey
    rw [Attributes.get?_merge, hvalue, Option.some_or]
  case last_counts =>
    intro key hkey value
    rw [Attributes.get?_merge, Attributes.get?_eq_none_iff.2 hkey, Option.none_or, get?_inherited]
  case own_timestamp =>
    intro t ht
    show own.timestamp.or _ = some t
    rw [ht, Option.some_or]
  case oldest_counts =>
    intro hnone t
    show own.timestamp.or _ = some t ↔ _
    rw [hnone, Option.none_or, Instant.earliest?_eq_some_iff, mem_times]
    apply and_congr_right'
    constructor
    · intro hle link hlink other hother
      exact hle other (mem_times.2 ⟨link, hlink, hother⟩)
    · intro hle other hother
      obtain ⟨link, hlink, hother⟩ := mem_times.1 hother
      exact hle link hlink other hother
  case timestamp_eq_none_iff =>
    show own.timestamp.or _ = none ↔ _
    rw [Option.or_eq_none_iff, Instant.earliest?_eq_none_iff, times, List.filterMap_eq_nil_iff]

/-- What a context was filled up with once, it is filled up with once more to no effect. -/
theorem aggregate_aggregate (chain : List ExchangeRate) (c : ConversionContext) :
    aggregate chain (aggregate chain c) = aggregate chain c := by
  by_cases h : chain = []
  · rw [h, aggregate_nil, aggregate_nil]
  · rw [aggregate_of_ne_nil h, aggregate_of_ne_nil h, Attributes.merge_merge, Option.or_assoc, Option.or_self]

/-- The context of a rate with a chain. Its attributes are those of the builder's context and of all links, a key of
the context having the value it has there and another key that of the last link with it. Its timestamp is the
builder's or, where that has none, the oldest of the links'. Provider and kind are the builder's, and without a chain
the context is the builder's altogether. -/
theorem context_aggregated {b : RateBuilder} {r : ExchangeRate} (h : b.create = .ok r) :
    ∃ own, b.context = some own ∧ r.chain = b.chain ∧ (r.chain = [] → r.context = own) ∧
      (r.chain ≠ [] → Aggregates own r.chain r.context) := by
  obtain ⟨base, term, factor, own, -, -, -, -, hown, rfl⟩ := create_eq_ok_iff.1 h
  refine ⟨own, hown, rfl, ?_, fun hchain => aggregates_aggregate hchain own⟩
  intro hchain
  exact (congrArg (aggregate · own) hchain).trans (aggregate_nil own)

/-- A quotation from the second behind that of `ExchangeRate.fixing`. -/
def quotation : ExchangeRate :=
  { ExchangeRate.direct .dollar .euro with
    context := { provider := "", rateType := .any, timestamp := some (.ofSeconds 1483228800)
                 attributes := .ofList [("desk", "night"), ("source", "quotation")] } }

/-- A builder with an attribute of its own and without a timestamp, for rates from euros to dollars and back. -/
def fixedAndQuoted : RateBuilder :=
  { base := some .euro, term := some .euro, factor := some .one
    context := some { provider := "", rateType := .any, attributes := .ofList [("desk", "day")] }
    chain := [.fixing, quotation] }

/-- The builder's desk counts, the source of the last link, and the instant within the leap second. -/
theorem context_aggregated_fixed_and_quoted :
    ∃ r, fixedAndQuoted.create = .ok r ∧ r.context.attributes.get? "desk" = some "day" ∧
      r.context.attributes.get? "source" = some "quotation" ∧
      r.context.timestamp = some ⟨1483228799, 1500000000⟩ := by
  have hcreate : fixedAndQuoted.create = .ok _ := rfl
  obtain ⟨own, ⟨⟩, -, -, hderived⟩ := context_aggregated hcreate
  have haggregates := hderived (List.cons_ne_nil _ _)
  have hlast : LastHas [.fixing, quotation] "source" "quotation" :=
    ⟨[.fixing], quotation, [], rfl, by decide, by simp⟩
  refine ⟨_, hcreate, ?_, ?_, ?_⟩
  · exact (haggregates.own_counts "desk" (Attributes.mem_iff_exists.2 ⟨"day", rfl⟩)).trans rfl
  · exact (haggregates.last_counts "source" (Attributes.get?_eq_none_iff.1 rfl) "quotation").2 hlast
  · refine (haggregates.oldest_counts rfl _).2 ⟨⟨.fixing, List.mem_cons_self, rfl⟩, ?_⟩
    intro link hlink other hother
    rcases List.mem_pair.1 hlink with rfl | rfl <;> cases hother <;> decide

end RateBuilder

end Coinage
