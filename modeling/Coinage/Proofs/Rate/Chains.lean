import Coinage.Proofs.Rate.Builder
import Coinage.Proofs.Stored.Amount
import Coinage.Stored.Rate
import Mathlib.Logic.Relation
/-!
# The chains of rates

`ExchangeRate.Obtainable` is every rate that builders make of obtainable rates, and every rate that is read.
Its chain leads from its base to its term, and so do the chains of its links, at every depth. Continuity and
ends are checked by different calls, so the invariant of a builder says only that its chain connects
(`RateBuilder.Linked`); `create` adds the ends. Reading goes down the tree of a stored rate, and its proof with it.
-/

namespace Coinage

open RateChain

namespace ExchangeRate

/-- Whether a rate is another one or among its links, at some depth. -/
def Contains : ExchangeRate → ExchangeRate → Prop :=
  Relation.ReflTransGen fun r link => link ∈ r.chain

/-- Whether the chains of a rate lead from base to term, its own and those of its links at every depth. -/
def WellChained (r : ExchangeRate) : Prop :=
  ∀ link, r.Contains link → Leads link.chain link.base link.term

theorem forall_contains_of_links {P : ExchangeRate → Prop} {r : ExchangeRate} (h : P r)
    (hlinks : ∀ link ∈ r.chain, ∀ deeper, link.Contains deeper → P deeper) : ∀ link, r.Contains link → P link := by
  intro link hlink
  rcases Relation.ReflTransGen.cases_head_iff.1 hlink with rfl | ⟨first, hfirst, hrest⟩
  · exact h
  · exact hlinks first hfirst link hrest

theorem wellChained_of_links {r : ExchangeRate} (h : Leads r.chain r.base r.term)
    (hlinks : ∀ link ∈ r.chain, link.WellChained) : r.WellChained :=
  forall_contains_of_links h hlinks

theorem WellChained.link {r link : ExchangeRate} (h : r.WellChained) (hlink : link ∈ r.chain) : link.WellChained :=
  fun deeper hdeeper => h deeper (hdeeper.head hlink)

/-! ### Rates that are read -/

/-- Whether the links read so far are well chained. -/
def Fields.LinksWellChained (f : Fields) : Prop :=
  ∀ link ∈ f.chain, link.WellChained

theorem linksWellChained_empty : ({} : Fields).LinksWellChained :=
  fun _ hlink => absurd hlink List.not_mem_nil

theorem chain_read {f f' : Fields} {name : String} {value : Json} (h : f.read name value = .ok f') :
    f'.chain = f.chain := by
  unfold Fields.read at h
  split_ifs at h
  case neg =>
    cases pure_eq_ok.1 h
    rfl
  all_goals
    obtain ⟨part, -, h⟩ := bind_eq_ok.1 h
    cases pure_eq_ok.1 h
    rfl

theorem wellChained_of_finish {f : Fields} {r : ExchangeRate} (hf : f.LinksWellChained) (h : f.finish = .ok r) :
    r.WellChained := by
  unfold Fields.finish at h
  obtain ⟨provider, -, h⟩ := bind_eq_ok.1 h
  obtain ⟨rateType, -, h⟩ := bind_eq_ok.1 h
  obtain ⟨base, -, h⟩ := bind_eq_ok.1 h
  obtain ⟨term, -, h⟩ := bind_eq_ok.1 h
  obtain ⟨factor, -, h⟩ := bind_eq_ok.1 h
  obtain ⟨context, -, h⟩ := bind_eq_ok.1 h
  obtain ⟨⟨⟩, hlinks, h⟩ := bind_eq_ok.1 h
  obtain ⟨⟨⟩, hends, h⟩ := bind_eq_ok.1 h
  cases pure_eq_ok.1 h
  have hconnected := checkLinks_eq_ok_iff.1 (mapError_eq_ok.1 hlinks)
  exact wellChained_of_links (leads_of_checks hconnected (mapError_eq_ok.1 hends)) hf

-- One theorem for each of the readers that call each other; the recursion is theirs, over the stored form.
mutual

theorem wellChained_of_ofJson : ∀ (j : Json) {r : ExchangeRate}, ofJson j = .ok r → r.WellChained
  | .object fields, r, h => by
    unfold ofJson at h
    obtain ⟨f, hf, h⟩ := bind_eq_ok.1 h
    exact wellChained_of_finish (linksWellChained_of_readFields fields linksWellChained_empty hf) h
  | .array items, r, h => by
    unfold ofJson at h
    obtain ⟨f, hf, h⟩ := bind_eq_ok.1 h
    exact wellChained_of_finish (linksWellChained_of_readItems items linksWellChained_empty hf) h
  | .null, _, h | .bool _, _, h | .integer _, _, h | .real _, _, h | .string _, _, h => by
    unfold ofJson at h
    cases h

theorem linksWellChained_of_readFields : ∀ (fields : List (String × Json)) {f f' : Fields},
    f.LinksWellChained → readFields fields f = .ok f' → f'.LinksWellChained
  | [], f, f', hf, h => by
    unfold readFields at h
    cases pure_eq_ok.1 h
    exact hf
  | (name, value) :: rest, f, f', hf, h => by
    unfold readFields at h
    split at h
    case isTrue =>
      obtain ⟨chain, hchain, h⟩ := bind_eq_ok.1 h
      exact linksWellChained_of_readFields rest (wellChained_of_chainOfJson value hchain) h
    case isFalse =>
      obtain ⟨next, hnext, h⟩ := bind_eq_ok.1 h
      refine linksWellChained_of_readFields rest ?_ h
      rwa [Fields.LinksWellChained, chain_read hnext]

theorem linksWellChained_of_readItems : ∀ {names : List String} (items : List Json) {f f' : Fields},
    f.LinksWellChained → readItems names items f = .ok f' → f'.LinksWellChained
  | _, [], f, f', hf, h => by
    unfold readItems at h
    cases pure_eq_ok.1 h
    exact hf
  | [], _ :: _, _, _, _, h => by
    unfold readItems at h
    cases h
  | name :: names, value :: rest, f, f', hf, h => by
    unfold readItems at h
    split at h
    case isTrue =>
      obtain ⟨chain, hchain, h⟩ := bind_eq_ok.1 h
      exact linksWellChained_of_readItems rest (wellChained_of_chainOfJson value hchain) h
    case isFalse =>
      obtain ⟨next, hnext, h⟩ := bind_eq_ok.1 h
      refine linksWellChained_of_readItems rest ?_ h
      rwa [Fields.LinksWellChained, chain_read hnext]

theorem wellChained_of_chainOfJson : ∀ (j : Json) {chain : List ExchangeRate}, chainOfJson j = .ok chain →
    ∀ link ∈ chain, link.WellChained
  | .array items, chain, h => wellChained_of_linksOfJson items (by unfold chainOfJson at h; exact h)
  | .null, _, h | .bool _, _, h | .integer _, _, h | .real _, _, h | .string _, _, h | .object _, _, h => by
    unfold chainOfJson at h
    cases h

theorem wellChained_of_linksOfJson : ∀ (items : List Json) {chain : List ExchangeRate}, linksOfJson items = .ok chain →
    ∀ link ∈ chain, link.WellChained
  | [], chain, h => by
    unfold linksOfJson at h
    cases pure_eq_ok.1 h
    exact fun _ hlink => nomatch hlink
  | item :: rest, chain, h => by
    unfold linksOfJson at h
    obtain ⟨r, hr, h⟩ := bind_eq_ok.1 h
    obtain ⟨links, hlinks, h⟩ := bind_eq_ok.1 h
    cases pure_eq_ok.1 h
    intro link hlink
    rcases List.mem_cons.1 hlink with rfl | hlink
    · exact wellChained_of_ofJson item hr
    · exact wellChained_of_linksOfJson rest hlinks link hlink

end

theorem wellChained_readConversion {f f' : Conversion.Fields} {name : String} {value : Json}
    (hf : ∀ r ∈ f.rate, r.WellChained) (h : f.read name value = .ok f') : ∀ r ∈ f'.rate, r.WellChained := by
  unfold Conversion.Fields.read at h
  split_ifs at h
  · obtain ⟨input, -, h⟩ := bind_eq_ok.1 h
    cases pure_eq_ok.1 h
    exact hf
  · obtain ⟨output, -, h⟩ := bind_eq_ok.1 h
    cases pure_eq_ok.1 h
    exact hf
  · obtain ⟨r, hr, h⟩ := bind_eq_ok.1 h
    cases pure_eq_ok.1 h
    rintro _ ⟨⟩
    exact wellChained_of_ofJson value hr
  · cases pure_eq_ok.1 h
    exact hf

theorem wellChained_of_conversion {j : Json} {c : Conversion} (h : Conversion.ofJson j = .ok c) : c.rate.WellChained := by
  unfold Conversion.ofJson at h
  obtain ⟨f, hf, h⟩ := bind_eq_ok.1 h
  obtain ⟨input, -, h⟩ := bind_eq_ok.1 h
  obtain ⟨output, -, h⟩ := bind_eq_ok.1 h
  obtain ⟨r, hr, h⟩ := bind_eq_ok.1 h
  cases pure_eq_ok.1 h
  exact Json.readRecord_invariant (P := fun f => ∀ r ∈ f.rate, r.WellChained)
    (fun _ _ _ _ => wellChained_readConversion) (fun _ hr => nomatch hr) hf r (Decoded.ofOption_eq_ok.1 hr)

end ExchangeRate

/-! ### Rates that are built -/

namespace RateBuilder

/-- How a builder is had at first. -/
inductive Start where
  | default
  | ofProvider (provider : String) (rateType : RateType)
  | ofRate (r : ExchangeRate)

/-- The builder at the start. -/
def Start.builder : Start → RateBuilder
  | default => {}
  | ofProvider provider rateType => .ofProvider provider rateType
  | ofRate r => .ofRate r

/-- The rates that a builder is made of at the start. -/
def Start.rates : Start → List ExchangeRate
  | ofRate r => [r]
  | _ => []

/-- Whether the links of a builder connect and are well chained themselves. -/
structure Linked (b : RateBuilder) : Prop where
  connected : Connected b.chain
  wellChained : ∀ link ∈ b.chain, link.WellChained

theorem Start.linked {start : Start} (h : ∀ r ∈ start.rates, r.WellChained) : start.builder.Linked := by
  cases start with
  | default | ofProvider => exact ⟨List.isChain_nil, fun _ hlink => absurd hlink List.not_mem_nil⟩
  | ofRate r =>
    have hr : r.WellChained := h r List.mem_cons_self
    exact ⟨(hr r Relation.ReflTransGen.refl).connected, fun link => hr.link⟩

theorem after_setChain_of_connected {chain : List ExchangeRate} (h : Connected chain) (b : RateBuilder) :
    b.after (.setChain chain) = { b with chain := chain } := by
  rw [RateBuilder.after, run_putChain_of_connected h]

/-- A refused chain leaves the builder as it is. -/
theorem after_eq_self {b : RateBuilder} {chain : List ExchangeRate} (h : ¬ Connected chain) :
    b.after (.setChain chain) = b := by
  cases hlinks : checkLinks chain with
  | ok => exact absurd (checkLinks_eq_ok_iff.1 hlinks) h
  | error cause => rw [RateBuilder.after, run_putChain_of_error hlinks]

theorem Linked.after {b : RateBuilder} {call : Call} (hb : b.Linked) (h : ∀ r ∈ call.rates, r.WellChained) :
    (b.after call).Linked := by
  cases call with
  | setBase | setTerm | setFactor | setContext => exact ⟨hb.connected, hb.wellChained⟩
  | setChain chain =>
    by_cases hconnected : Connected chain
    · rw [after_setChain_of_connected hconnected]
      exact ⟨hconnected, h⟩
    · rwa [after_eq_self hconnected]

theorem Linked.run {b : RateBuilder} {calls : List Call} (hb : b.Linked)
    (h : ∀ call ∈ calls, ∀ r ∈ call.rates, r.WellChained) : (b.run calls).Linked := by
  induction calls generalizing b with
  | nil => exact hb
  | cons call rest ih =>
    exact ih (hb.after (h call List.mem_cons_self)) fun other hother => h other (List.mem_cons_of_mem call hother)

theorem Linked.create {b : RateBuilder} {r : ExchangeRate} (hb : b.Linked) (h : b.create = .ok r) : r.WellChained := by
  obtain ⟨base, term, factor, context, -, -, hends, -, -, rfl⟩ := create_eq_ok_iff.1 h
  exact ExchangeRate.wellChained_of_links (leads_of_checks hb.connected hends) hb.wellChained

end RateBuilder

namespace ExchangeRate

/-- The rates that can be had: read, or made by a builder after any calls, of rates that can be had. -/
inductive Obtainable : ExchangeRate → Prop
  | decoded {r : ExchangeRate} (j : Json) : ofJson j = .ok r → Obtainable r
  | converted {c : Conversion} (j : Json) : Conversion.ofJson j = .ok c → Obtainable c.rate
  | created {r : ExchangeRate} (start : RateBuilder.Start) (calls : List RateBuilder.Call) :
      (∀ part ∈ start.rates, Obtainable part) → (∀ call ∈ calls, ∀ part ∈ call.rates, Obtainable part) →
      (start.builder.run calls).create = .ok r → Obtainable r
  | link {r part : ExchangeRate} : Obtainable r → part ∈ r.chain → Obtainable part

theorem Obtainable.wellChained {r : ExchangeRate} (h : Obtainable r) : r.WellChained := by
  induction h with
  | decoded j h => exact wellChained_of_ofJson j h
  | converted j h => exact wellChained_of_conversion h
  | created start calls _ _ h ihstart ihcalls =>
    exact ((RateBuilder.Start.linked ihstart).run ihcalls).create h
  | link _ hpart ih => exact ih.link hpart

/-- The chain of every rate that can be had leads from its base to its term, and so do the chains of its links at
every depth. A builder refuses a chain just where a link does not start where the one before it ends; it names the
first such link and stays as it is. -/
theorem chains_lead :
    (∀ r : ExchangeRate, r.Obtainable → ∀ link, r.Contains link → Leads link.chain link.base link.term) ∧
    ∀ (b : RateBuilder) (chain : List ExchangeRate),
      ((∃ cause, b.setChain chain = .error cause) ↔
        ∃ (i : ℕ) (_ : i + 1 < chain.length), chain[i].term.code ≠ chain[i + 1].base.code) ∧
      (∀ cause, b.setChain chain = .error cause →
        b.after (.setChain chain) = b ∧ ∃ i x y, BreaksBetween chain i x y ∧
          cause = .invalidChain (i + 1) (.disconnected x.term.code y.base.code)) ∧
      ∀ b', b.setChain chain = .ok b' → b.after (.setChain chain) = b' ∧ b' = { b with chain := chain } := by
  refine ⟨fun r h => h.wellChained, fun b chain => ⟨?_, fun cause h => ⟨?_, RateBuilder.setChain_eq_error h⟩, ?_⟩⟩
  · have hfails : (∃ cause, b.setChain chain = .error cause) ↔ ¬ Connected chain := by
      cases hset : b.setChain chain with
      | error cause =>
        refine iff_of_true ⟨cause, rfl⟩ fun hconnected => ?_
        rw [RateBuilder.setChain_eq_ok_iff.2 ⟨hconnected, rfl⟩] at hset
        cases hset
      | ok b' => exact iff_of_false (fun ⟨_, h⟩ => nomatch h) (not_not.2 (RateBuilder.setChain_eq_ok_iff.1 hset).1)
    rw [hfails, Connected, List.isChain_iff_getElem]
    simp only [not_forall]
  · rw [RateBuilder.after, RateBuilder.run_putChain_of_error (RateBuilder.setChain_eq_error_iff.1 h)]
  · intro b' h
    obtain ⟨hconnected, rfl⟩ := RateBuilder.setChain_eq_ok_iff.1 h
    exact ⟨RateBuilder.after_setChain_of_connected hconnected b, rfl⟩

/-- A rate without a chain, of which examples are composed. -/
def direct (base term : Currency) : ExchangeRate :=
  ⟨"", .any, base, term, .one, { provider := "", rateType := .any }, []⟩

theorem obtainable_direct (base term : Currency) : (direct base term).Obtainable :=
  .created (.ofProvider "" .any) [.setBase base, .setTerm term, .setFactor .one]
    (fun _ hpart => nomatch hpart) (by simp [RateBuilder.Call.rates]) rfl

/-- A builder composes a rate of every chain that leads from its base to its term. -/
theorem obtainable_composed (provider : String) (rateType : RateType) (factor : Decimal) (context : ConversionContext)
    {chain : List ExchangeRate} {base term : Currency} (hlinks : ∀ link ∈ chain, link.Obtainable)
    (h : Leads chain base term) :
    Obtainable ⟨provider, rateType, base, term, factor, RateBuilder.aggregate chain context, chain⟩ := by
  refine .created (.ofProvider provider rateType)
    [.setChain chain, .setBase base, .setTerm term, .setFactor factor, .setContext context]
    (fun _ hpart => nomatch hpart) (by simpa [RateBuilder.Call.rates] using hlinks) ?_
  rw [RateBuilder.run, List.foldl_cons, RateBuilder.Start.builder, RateBuilder.after_setChain_of_connected h.connected]
  exact RateBuilder.create_eq_ok_iff.2 ⟨base, term, factor, context, rfl, rfl, h.checkEnds_eq_ok, rfl, rfl, rfl⟩

/-- From euros to dollars and back. A second chain, which does not connect, is refused in between. -/
theorem chains_lead_there_and_back :
    (∃ r : ExchangeRate, r.Obtainable ∧ r.chain = [direct .euro .dollar, direct .dollar .euro] ∧
      Leads r.chain .euro .euro) ∧
    ∃ i x y, BreaksBetween [direct .euro .dollar, direct .euro .dollar] i x y ∧
      RateError.invalidChain 1 (.disconnected "USD" "EUR") =
        .invalidChain (i + 1) (.disconnected x.term.code y.base.code) := by
  have hrates : ∀ call ∈ [RateBuilder.Call.setChain [direct .euro .dollar, direct .dollar .euro],
      .setChain [direct .euro .dollar, direct .euro .dollar], .setBase .euro, .setTerm .euro, .setFactor .one],
      ∀ part ∈ call.rates, part.Obtainable := by
    simp [RateBuilder.Call.rates, obtainable_direct]
  have hr : Obtainable ⟨"", .any, .euro, .euro, .one, { provider := "", rateType := .any },
      [direct .euro .dollar, direct .dollar .euro]⟩ :=
    .created (.ofProvider "" .any) _ (fun _ hpart => nomatch hpart) hrates (by rfl)
  refine ⟨⟨_, hr, rfl, chains_lead.1 _ hr _ Relation.ReflTransGen.refl⟩, ?_⟩
  exact ((chains_lead.2 {} [direct .euro .dollar, direct .euro .dollar]).2.1 _ rfl).2

end ExchangeRate

end Coinage
