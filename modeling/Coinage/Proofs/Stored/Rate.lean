import Coinage.Proofs.Instant.Written
import Coinage.Proofs.Rate.Chains
import Coinage.Proofs.Stored.Money
/-!
# Rates are read back

The reader of a stored rate checks what a builder checks, so it only takes rates whose chains connect and lead from
base to term, at every depth. Those of rates that can be had do (`Obtainable.wellChained`), and reading goes down their
chains: what comes of a rate is the rate itself but for the minus of zero factors (`ExchangeRate.unsigned`).
-/

namespace Coinage

open Json RateChain

/-! ### Contexts -/

theorem RateType.ofJson_toJson (t : RateType) : ofJson t.toJson = .ok t := by
  cases t <;> rfl

theorem Instant.ofJson_written {t : Instant} (h : t.OnCalendar) : ofJson (.string (toString t)) = .ok t := by
  have htext : (Json.string (toString t)).asText = .ok t.written := rfl
  unfold ofJson
  rw [htext, ok_bind, ofText?_written h]
  rfl

namespace Attributes

theorem insertEntry_of_forall_lt {key value : String} {entries : List (String × String)}
    (h : ∀ e ∈ entries, e.1 < key) : insertEntry key value entries = entries ++ [(key, value)] := by
  induction entries with
  | nil => rfl
  | cons e rest ih =>
    have he : e.1 < key := h e List.mem_cons_self
    have hne : key ≠ e.1 := fun heq => String.lt_irrefl key (heq ▸ he)
    rw [insertEntry, if_neg (String.lt_asymm he), if_neg hne, ih fun e' he' => h e' (List.mem_cons_of_mem e he')]
    rfl

/-- Entries that are read in ascending order line up behind those that are there. -/
theorem foldlM_insert {a : Attributes} {entries : List (String × String)} (h : Ascending (a.entries ++ entries)) :
    (entries.map fun (key, value) => (key, Json.string value)).foldlM
      (fun a (field : String × Json) => do return a.insert field.1 (← field.2.asText)) a =
        (.ok ⟨a.entries ++ entries, h⟩ : Decoded Attributes) := by
  induction entries generalizing a with
  | nil =>
    simp only [List.append_nil]
    rfl
  | cons e rest ih =>
    have hbefore : ∀ e' ∈ a.entries, e'.1 < e.1 := fun e' he' =>
      (List.pairwise_append.1 h).2.2 e' he' e List.mem_cons_self
    have hinsert : (a.insert e.1 e.2).entries ++ rest = a.entries ++ e :: rest := by
      change insertEntry e.1 e.2 a.entries ++ rest = _
      rw [insertEntry_of_forall_lt hbefore, List.append_assoc, List.singleton_append]
    refine (ih (a := a.insert e.1 e.2) (hinsert ▸ h)).trans ?_
    simp only [hinsert]

theorem eq_empty_of_isEmpty {a : Attributes} (h : a.isEmpty = true) : a = .empty := by
  obtain ⟨entries, hascending⟩ := a
  cases List.isEmpty_iff.1 h
  rfl

theorem ofJson_toJson (a : Attributes) : ofJson a.toJson = .ok a :=
  foldlM_insert (a := .empty) a.ascending

end Attributes

namespace ConversionContext

theorem read_provider (provider : String) (f : Fields) :
    Fields.read "provider" (.string provider) f = .ok { f with provider := some provider } := rfl

theorem read_rateType (t : RateType) (f : Fields) :
    Fields.read "rate_type" t.toJson f = .ok { f with rateType := some t } :=
  return_eq_ok (RateType.ofJson_toJson t) fun part => ({ f with rateType := some part } : Fields)

theorem read_timestamp {t : Instant} (h : t.OnCalendar) (f : Fields) :
    Fields.read "timestamp" (.string (toString t)) f = .ok { f with timestamp := some t } :=
  return_eq_ok (Instant.ofJson_written h) fun part => ({ f with timestamp := some part } : Fields)

theorem read_attributes (a : Attributes) (f : Fields) :
    Fields.read "attributes" a.toJson f = .ok { f with attributes := a } :=
  return_eq_ok (Attributes.ofJson_toJson a) fun part => ({ f with attributes := part } : Fields)

/-- A context is read back as it was stored, whether or not it has a timestamp and attributes. -/
theorem ofJson_toJson {c : ConversionContext} (h : ∀ t ∈ c.timestamp, t.OnCalendar) : ofJson c.toJson = .ok c := by
  have hattributes : ∀ f : Fields, f.attributes = .empty →
      readRecord fieldNames Fields.read f (.object (if c.attributes.isEmpty then [] else
        [("attributes", c.attributes.toJson)])) = .ok { f with attributes := c.attributes } := by
    intro f hf
    split
    case isTrue hempty =>
      rw [Attributes.eq_empty_of_isEmpty hempty, ← hf]
      rfl
    case isFalse => exact readRecord_cons (read_attributes c.attributes f) []
  have hread : c.toJson.readRecord fieldNames Fields.read {} =
      .ok ⟨some c.provider, some c.rateType, c.timestamp, c.attributes⟩ := by
    unfold toJson
    rw [List.append_assoc, List.cons_append, readRecord_cons (read_provider _ _), List.cons_append,
      readRecord_cons (read_rateType _ _), List.nil_append]
    cases htimestamp : c.timestamp with
    | none => exact hattributes _ rfl
    | some t => exact (readRecord_cons (read_timestamp (h t htimestamp) _) _).trans (hattributes _ rfl)
  rw [ofJson, hread]
  rfl

end ConversionContext

/-! ### Rates -/

namespace ExchangeRate

mutual

/-- A rate whose factor, and those of its links at every depth, are zeros without a minus where they are zeros. -/
def unsigned : ExchangeRate → ExchangeRate
  | ⟨provider, rateType, base, term, factor, context, chain⟩ =>
    ⟨provider, rateType, base, term, factor.unsigned, context, unsignedChain chain⟩

/-- The links of a chain, with the same done to each of them. -/
def unsignedChain : List ExchangeRate → List ExchangeRate
  | [] => []
  | r :: rest => unsigned r :: unsignedChain rest

end

theorem unsignedChain_eq_map (chain : List ExchangeRate) : unsignedChain chain = chain.map unsigned := by
  induction chain with
  | nil => rfl
  | cons r rest ih => rw [unsignedChain, ih, List.map_cons]

theorem unsigned_eq (r : ExchangeRate) :
    r.unsigned = { r with factor := r.factor.unsigned, chain := r.chain.map unsigned } := by
  obtain ⟨provider, rateType, base, term, factor, context, chain⟩ := r
  rw [unsigned, unsignedChain_eq_map]

/-- Rates that agree in all but factor and chain are equal if these are. -/
theorem same_of_factor_of_chain {provider : String} {rateType : RateType} {base term : Currency} {factor factor' : Decimal}
    {context : ConversionContext} {chain chain' : List ExchangeRate} (hfactor : factor.value = factor'.value)
    (hchain : sameChain chain chain' = true) :
    same ⟨provider, rateType, base, term, factor, context, chain⟩
      ⟨provider, rateType, base, term, factor', context, chain'⟩ = true := by
  have hbase : (base == base) = true := Currency.beq_iff.2 rfl
  have hterm : (term == term) = true := Currency.beq_iff.2 rfl
  have hfactor' : factor.sameValue factor' = true := (Decimal.sameValue_iff _ _).2 hfactor
  rw [same]
  simp only [hbase, hterm, hfactor', hchain, BEq.rfl, decide_true, Bool.and_self]

mutual

theorem unsigned_same : ∀ r : ExchangeRate, same r.unsigned r = true
  | ⟨provider, rateType, base, term, factor, context, chain⟩ => by
    rw [unsigned]
    exact same_of_factor_of_chain (Decimal.value_unsigned factor) (unsignedChain_sameChain chain)

theorem unsignedChain_sameChain : ∀ chain : List ExchangeRate, sameChain (unsignedChain chain) chain = true
  | [] => rfl
  | r :: rest => by
    rw [unsignedChain, sameChain, unsigned_same r, unsignedChain_sameChain rest]
    rfl

end

/-- Whether the particulars of a rate can be stored: its currencies have numbers of 32 bits, and its instant, if it has
one, is one of the calendar, as all instants are that are read (`Instant.ofText?_written_iff`). -/
structure FitsWords (r : ExchangeRate) : Prop where
  base_fits : r.base.FitsWords
  term_fits : r.term.FitsWords
  timestamp_onCalendar : ∀ t ∈ r.context.timestamp, t.OnCalendar

/-! ### Fields -/

theorem readFields_cons {name : String} {value : Json} {f f' : Fields} (hname : name ≠ "chain")
    (h : f.read name value = .ok f') (rest : List (String × Json)) :
    readFields ((name, value) :: rest) f = readFields rest f' := by
  rw [readFields, if_neg hname, h, ok_bind]

theorem readFields_chain {value : Json} {links : List ExchangeRate} (h : chainOfJson value = .ok links) (f : Fields) :
    readFields [("chain", value)] f = .ok { f with chain := links } := by
  rw [readFields, if_pos rfl, h, ok_bind, readFields]
  rfl

theorem read_provider (provider : String) (f : Fields) :
    f.read "provider" (.string provider) = .ok { f with provider := some provider } := rfl

theorem read_rateType (t : RateType) (f : Fields) : f.read "rate_type" t.toJson = .ok { f with rateType := some t } :=
  return_eq_ok (RateType.ofJson_toJson t) fun part => ({ f with rateType := some part } : Fields)

theorem read_base {c : Currency} (h : c.FitsWords) (f : Fields) : f.read "base" c.toJson = .ok { f with base := some c } :=
  return_eq_ok (Currency.ofJson_toJson h) fun part => ({ f with base := some part } : Fields)

theorem read_term {c : Currency} (h : c.FitsWords) (f : Fields) : f.read "term" c.toJson = .ok { f with term := some c } :=
  return_eq_ok (Currency.ofJson_toJson h) fun part => ({ f with term := some part } : Fields)

theorem read_factor (d : Decimal) (f : Fields) : f.read "factor" d.toJson = .ok { f with factor := some d.unsigned } :=
  return_eq_ok (asDecimal_toJson d) fun part => ({ f with factor := some part } : Fields)

theorem read_context {c : ConversionContext} (h : ∀ t ∈ c.timestamp, t.OnCalendar) (f : Fields) :
    f.read "context" c.toJson = .ok { f with context := some c } :=
  return_eq_ok (ConversionContext.ofJson_toJson h) fun part => ({ f with context := some part } : Fields)

/-- The fields of a rate up to its chain. -/
theorem readFields_before_chain {r : ExchangeRate} (h : r.FitsWords) (rest : List (String × Json)) :
    readFields ([("provider", .string r.provider), ("rate_type", r.rateType.toJson), ("base", r.base.toJson),
      ("term", r.term.toJson), ("factor", r.factor.toJson), ("context", r.context.toJson)] ++ rest) {} =
      readFields rest ⟨some r.provider, some r.rateType, some r.base, some r.term, some r.factor.unsigned,
        some r.context, []⟩ := by
  simp only [List.cons_append, List.nil_append]
  rw [readFields_cons (by decide) (read_provider _ _), readFields_cons (by decide) (read_rateType _ _),
    readFields_cons (by decide) (read_base h.base_fits _), readFields_cons (by decide) (read_term h.term_fits _),
    readFields_cons (by decide) (read_factor _ _), readFields_cons (by decide) (read_context h.timestamp_onCalendar _)]

theorem finish_eq_ok {provider : String} {rateType : RateType} {base term : Currency} {factor : Decimal}
    {context : ConversionContext} {chain : List ExchangeRate} (h : Leads chain base term) :
    Fields.finish ⟨some provider, some rateType, some base, some term, some factor, some context, chain⟩ =
      .ok ⟨provider, rateType, base, term, factor, context, chain⟩ := by
  have hlinks := checkLinks_eq_ok_iff.2 h.connected
  have hends := h.checkEnds_eq_ok
  unfold Fields.finish
  simp only [Decoded.ofOption, ok_bind]
  rw [hlinks, hends]
  rfl

/-- Dropping the minus of factors leaves a chain where it leads. -/
theorem leads_unsigned {chain : List ExchangeRate} {base term : Currency} (h : Leads chain base term) :
    Leads (chain.map unsigned) base term := by
  have hbase : ∀ r : ExchangeRate, r.unsigned.base = r.base := fun r => by rw [unsigned_eq]
  have hterm : ∀ r : ExchangeRate, r.unsigned.term = r.term := fun r => by rw [unsigned_eq]
  refine { connected := ?_, starts := ?_, ends := ?_ }
  · have hconnected := h.connected
    unfold Connected at hconnected ⊢
    rw [List.isChain_map]
    simpa only [hbase, hterm] using hconnected
  · intro first hfirst
    rw [List.head?_map] at hfirst
    obtain ⟨link, hlink, rfl⟩ := Option.map_eq_some_iff.1 hfirst
    rw [hbase]
    exact h.starts link hlink
  · intro last hlast
    rw [List.getLast?_map] at hlast
    obtain ⟨link, hlink, rfl⟩ := Option.map_eq_some_iff.1 hlast
    rw [hterm]
    exact h.ends link hlink

/-! ### Down the chains -/

/-- Whether the particulars of a rate and of its links at every depth can be stored. -/
def Storable (r : ExchangeRate) : Prop :=
  ∀ link, r.Contains link → link.FitsWords

theorem storable_of_links {r : ExchangeRate} (h : r.FitsWords) (hlinks : ∀ link ∈ r.chain, link.Storable) :
    r.Storable :=
  forall_contains_of_links h hlinks

theorem Storable.link {r link : ExchangeRate} (h : r.Storable) (hlink : link ∈ r.chain) : link.Storable :=
  fun deeper hdeeper => h deeper (hdeeper.head hlink)

-- The recursion is the writer's, over a rate and its chain; what the checks ask for comes down with `WellChained`.
mutual

theorem ofJson_toJson : ∀ r : ExchangeRate, r.WellChained → r.Storable → ofJson r.toJson = .ok r.unsigned
  | ⟨provider, rateType, base, term, factor, context, chain⟩, hchained, hstorable => by
    have hlinks := linksOfJson_chainToJson chain (fun link => hchained.link) (fun link => hstorable.link)
    have hleads := leads_unsigned (hchained _ Relation.ReflTransGen.refl)
    have hfits := hstorable _ Relation.ReflTransGen.refl
    have hread := readFields_before_chain hfits (if chain.isEmpty then [] else [("chain", .array (chainToJson chain))])
    dsimp only at hread hleads
    rw [toJson, ofJson, hread, unsigned, unsignedChain_eq_map]
    split
    case isTrue hempty =>
      cases List.isEmpty_iff.1 hempty
      exact finish_eq_ok hleads
    case isFalse =>
      have hchain : chainOfJson (.array (chainToJson chain)) = .ok (chain.map unsigned) := by
        rw [chainOfJson, hlinks, unsignedChain_eq_map]
      rw [readFields_chain hchain]
      exact finish_eq_ok hleads

theorem linksOfJson_chainToJson : ∀ chain : List ExchangeRate, (∀ link ∈ chain, link.WellChained) →
    (∀ link ∈ chain, link.Storable) → linksOfJson (chainToJson chain) = .ok (unsignedChain chain)
  | [], _, _ => rfl
  | r :: rest, hchained, hstorable => by
    have hfirst := ofJson_toJson r (hchained r List.mem_cons_self) (hstorable r List.mem_cons_self)
    have hrest := linksOfJson_chainToJson rest (fun link hlink => hchained link (List.mem_cons_of_mem r hlink))
      (fun link hlink => hstorable link (List.mem_cons_of_mem r hlink))
    rw [chainToJson, linksOfJson, hfirst, ok_bind, hrest]
    rfl

end

end ExchangeRate

/-- What is stored is read back. An amount that keeps every digit, an amount in units and a currency come back as they
were, the two amounts also where a word tells their representation, and so does every rate that can be had, with its
chain at every depth; only the minus of a zero is not read, of which no comparison takes notice. -/
theorem stored_is_read_back :
    (∀ a : Money, a.currency.FitsWords →
      ∃ b, Money.ofJson (Amount.money a).toUntaggedJson = .ok b ∧ Amount.ofJson (Amount.money a).toJson = .ok (.money b) ∧
        (b == a) = true ∧ b.currency = a.currency ∧ b.number.scale = a.number.scale) ∧
    (∀ a : FastMoney, a.currency.FitsWords →
      FastMoney.ofJson (Amount.fast a).toUntaggedJson = .ok a ∧ Amount.ofJson (Amount.fast a).toJson = .ok (.fast a)) ∧
    (∀ c : Currency, c.FitsWords → Currency.ofJson c.toJson = .ok c) ∧
    ∀ r : ExchangeRate, r.Obtainable → r.Storable →
      ExchangeRate.ofJson r.toJson = .ok r.unsigned ∧ (r.unsigned == r) = true ∧
        r.unsigned = { r with factor := r.factor.unsigned, chain := r.chain.map .unsigned } := by
  refine ⟨fun a h => ?_, fun a h => ?_, fun c => Currency.ofJson_toJson, fun r h hstorable => ?_⟩
  · exact ⟨_, Money.ofJson_toUntaggedJson h, Money.amount_ofJson_toJson h, a.unsigned_beq, rfl, rfl⟩
  · exact ⟨FastMoney.ofJson_toUntaggedJson h, FastMoney.amount_ofJson_toJson h⟩
  · exact ⟨r.ofJson_toJson h.wellChained hstorable, r.unsigned_same, r.unsigned_eq⟩

namespace ExchangeRate

/-- A rate from within a leap second, of which examples are composed. -/
def fixing : ExchangeRate :=
  { direct .euro .dollar with
    context := { provider := "", rateType := .any, timestamp := some ⟨1483228799, 1500000000⟩
                 attributes := .ofList [("source", "fixing")] } }

/-- A rate that examples compose of a chain. -/
def ofChain (base term : Currency) (chain : List ExchangeRate) : ExchangeRate :=
  ⟨"", .any, base, term, .one, RateBuilder.aggregate chain { provider := "", rateType := .any }, chain⟩

/-- From euros to dollars and back. -/
def thereAndBack : ExchangeRate :=
  ofChain .euro .euro [fixing, direct .dollar .euro]

theorem obtainable_thereAndBack : thereAndBack.Obtainable := by
  have hdirect : Leads [] Currency.euro .dollar := ⟨List.isChain_nil, nofun, nofun⟩
  have hfixing : fixing.Obtainable :=
    obtainable_composed "" .any .one fixing.context (fun _ hlink => absurd hlink List.not_mem_nil) hdirect
  exact obtainable_composed "" .any .one _ (by simp [hfixing, obtainable_direct])
    (leads_of_checks (checkLinks_eq_ok_iff.1 rfl) rfl)

theorem fixing_onCalendar : ∀ t ∈ fixing.context.timestamp, t.OnCalendar := by
  rintro _ ⟨⟩
  exact ⟨by decide, by decide, by decide⟩

theorem storable_thereAndBack : thereAndBack.Storable := by
  refine storable_of_links ⟨Currency.fitsWords_euro, Currency.fitsWords_euro, fixing_onCalendar⟩ ?_
  intro link hlink
  rcases List.mem_pair.1 hlink with rfl | rfl
  · exact storable_of_links ⟨Currency.fitsWords_euro, Currency.fitsWords_dollar, fixing_onCalendar⟩ nofun
  · exact storable_of_links ⟨Currency.fitsWords_dollar, Currency.fitsWords_euro, nofun⟩ nofun

theorem storable_thereAndBack_twice : (ofChain .euro .euro [thereAndBack, thereAndBack]).Storable := by
  refine storable_of_links ⟨Currency.fitsWords_euro, Currency.fitsWords_euro, fixing_onCalendar⟩ ?_
  intro link hlink
  rcases List.mem_pair.1 hlink with rfl | rfl <;> exact storable_thereAndBack

/-- There and back, and the same once more: the composed rates have the instant and the attribute of their first link. -/
theorem stored_is_read_back_nested :
    (∃ r : ExchangeRate, r.Obtainable ∧ r.Storable ∧ r.chain = [thereAndBack, thereAndBack] ∧
      r.context.timestamp = some ⟨1483228799, 1500000000⟩ ∧ r.context.attributes.entries = [("source", "fixing")] ∧
      ofJson r.toJson = .ok r.unsigned) ∧
    (∃ b, Amount.ofJson (Amount.money ⟨.euro, .ofDigits 150 2 (by decide)⟩).toJson = .ok (.money b) ∧
      b.number.scale = 2) ∧
    Amount.ofJson (Amount.fast (.min .euro)).toJson = .ok (.fast (.min .euro)) ∧
    Currency.ofJson Currency.dollar.toJson = .ok .dollar := by
  obtain ⟨hmoney, hfast, hcurrency, hrate⟩ := stored_is_read_back
  have hstorable := storable_thereAndBack_twice
  have hr : (ofChain .euro .euro [thereAndBack, thereAndBack]).Obtainable :=
    obtainable_composed "" .any .one _ (by simp [obtainable_thereAndBack])
      (leads_of_checks (checkLinks_eq_ok_iff.1 rfl) rfl)
  obtain ⟨b, -, hb, -, -, hscale⟩ := hmoney ⟨.euro, .ofDigits 150 2 (by decide)⟩ Currency.fitsWords_euro
  exact ⟨⟨_, hr, hstorable, rfl, rfl, rfl, (hrate _ hr hstorable).1⟩, ⟨b, hb, hscale⟩,
    (hfast _ Currency.fitsWords_euro).2, hcurrency _ Currency.fitsWords_dollar⟩

end ExchangeRate

end Coinage
