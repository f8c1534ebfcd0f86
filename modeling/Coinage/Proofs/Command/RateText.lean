import Coinage.Command.Run
import Coinage.Proofs.Rate.Builder
/-!
# Rates given as texts

A text is a rate if it has three parts between its colons: the codes of two known currencies and a numeral. `Spells` says
what the rate is then; every other text is refused.
-/

namespace Coinage

namespace Command

/-! ### Parts between colons -/

variable {s part next : List Char} {parts : List (List Char)}

theorem splitColons_ne_nil (s : List Char) : splitColons s ≠ [] := by
  cases s with
  | nil => exact List.cons_ne_nil _ _
  | cons c rest =>
    unfold splitColons
    split
    · exact List.cons_ne_nil _ _
    · split <;> exact List.cons_ne_nil _ _

theorem splitColons_colon (s : List Char) : splitColons (':' :: s) = [] :: splitColons s :=
  if_pos rfl

/-- A character other than a colon belongs to the first part. -/
theorem splitColons_cons_eq_iff {c : Char} (hc : c ≠ ':') :
    splitColons (c :: s) = part :: parts ↔ ∃ rest, part = c :: rest ∧ splitColons s = rest :: parts := by
  rw [splitColons, if_neg hc]
  cases hs : splitColons s with
  | nil => exact absurd hs (splitColons_ne_nil s)
  | cons first others => simp [eq_comm]

/-- A text has one part just where it has no colon. -/
theorem splitColons_eq_singleton_iff : splitColons s = [part] ↔ s = part ∧ ':' ∉ part := by
  induction s generalizing part with
  | nil =>
    rw [splitColons, List.singleton_inj]
    constructor
    · intro h
      exact ⟨h, h ▸ List.not_mem_nil⟩
    · exact And.left
  | cons c s ih =>
    rcases eq_or_ne c ':' with rfl | hc
    · rw [splitColons_colon]
      refine iff_of_false (fun h => ?_) fun h => h.2 (h.1 ▸ List.mem_cons_self)
      exact splitColons_ne_nil s (List.cons.inj h).2
    · rw [splitColons_cons_eq_iff hc]
      simp only [ih]
      constructor
      · intro h
        obtain ⟨rest, rfl, rfl, hrest⟩ := h
        exact ⟨rfl, List.not_mem_cons_of_ne_of_not_mem hc.symm hrest⟩
      · intro h
        obtain ⟨rfl, hpart⟩ := h
        exact ⟨s, rfl, rfl, List.not_mem_of_not_mem_cons hpart⟩

/-- The first of several parts ends at the first colon. -/
theorem splitColons_eq_cons_cons_iff :
    splitColons s = part :: next :: parts ↔
      ∃ tail, s = part ++ ':' :: tail ∧ ':' ∉ part ∧ splitColons tail = next :: parts := by
  induction s generalizing part with
  | nil =>
    refine iff_of_false (fun h => nomatch h) ?_
    intro h
    obtain ⟨tail, h, -⟩ := h
    exact absurd h.symm (List.append_ne_nil_of_right_ne_nil _ (List.cons_ne_nil _ _))
  | cons c s ih =>
    rcases eq_or_ne c ':' with rfl | hc
    · rw [splitColons_colon, List.cons.injEq]
      constructor
      · intro h
        obtain ⟨rfl, htail⟩ := h
        exact ⟨s, rfl, List.not_mem_nil, htail⟩
      · intro h
        obtain ⟨tail, hs, hpart, htail⟩ := h
        cases part with
        | nil =>
          cases hs
          exact ⟨rfl, htail⟩
        | cons c part =>
          cases hs
          exact absurd List.mem_cons_self hpart
    · rw [splitColons_cons_eq_iff hc]
      simp only [ih]
      constructor
      · intro h
        obtain ⟨rest, rfl, tail, rfl, hrest, htail⟩ := h
        exact ⟨tail, rfl, List.not_mem_cons_of_ne_of_not_mem hc.symm hrest, htail⟩
      · intro h
        obtain ⟨tail, hs, hpart, htail⟩ := h
        cases part with
        | nil =>
          cases hs
          exact absurd rfl hc
        | cons c part =>
          cases hs
          exact ⟨part, rfl, tail, rfl, List.not_mem_of_not_mem_cons hpart, htail⟩

theorem splitColons_eq_three_iff {a b c : List Char} :
    splitColons s = [a, b, c] ↔ s = a ++ ':' :: (b ++ ':' :: c) ∧ ':' ∉ a ∧ ':' ∉ b ∧ ':' ∉ c := by
  simp only [splitColons_eq_cons_cons_iff, splitColons_eq_singleton_iff]
  constructor
  · intro h
    obtain ⟨_, rfl, ha, _, rfl, hb, rfl, hc⟩ := h
    exact ⟨rfl, ha, hb, hc⟩
  · intro h
    obtain ⟨rfl, ha, hb, hc⟩ := h
    exact ⟨_, rfl, ha, _, rfl, hb, rfl, hc⟩

/-! ### Rates -/

/-- The rate that a base, a term and a factor are. -/
def linkOf (base term : Currency) (factor : Decimal) : ExchangeRate :=
  ⟨provider, .other, base, term, factor, { provider := provider, rateType := .other }, []⟩

/-- Whether a text spells a rate: its parts are the codes of base and term, and a numeral for the factor. -/
inductive Spells : String → ExchangeRate → Prop
  | parts {base term factor : String} {b t : Currency} {d : Decimal} :
      ':' ∉ base.toList → ':' ∉ term.toList → ':' ∉ factor.toList →
      currency base = .ok b → currency term = .ok t → Numeric.ofText factor = .ok d →
      Spells (base ++ ":" ++ term ++ ":" ++ factor) (linkOf b t d)

theorem create_linkOf (b t : Currency) (d : Decimal) :
    ((((RateBuilder.ofProvider provider .other).setBase b).setTerm t).setFactor d).create = .ok (linkOf b t d) := rfl

theorem ofOutcome_eq_ok {α : Type} {o : Outcome α} {a : α} : ofOutcome o = .ok a ↔ o = .ok a :=
  mapError_eq_ok

theorem ofRate_eq_ok {α : Type} {o : Except RateError α} {a : α} : ofRate o = .ok a ↔ o = .ok a :=
  mapError_eq_ok

/-- The rate of three parts. -/
theorem parseParts_eq_ok_iff {base term factor : String} {link : ExchangeRate} :
    (do
      let b ← currency base
      let t ← currency term
      let d ← ofOutcome (Numeric.ofText factor)
      ofRate (((RateBuilder.ofProvider provider .other).setBase b).setTerm t |>.setFactor d).create) = .ok link ↔
    ∃ b t d, currency base = .ok b ∧ currency term = .ok t ∧ Numeric.ofText factor = .ok d ∧ link = linkOf b t d := by
  simp only [bind_eq_ok, ofOutcome_eq_ok, ofRate_eq_ok, create_linkOf, Except.ok.injEq]
  constructor
  · intro h
    obtain ⟨b, hb, t, ht, d, hd, rfl⟩ := h
    exact ⟨b, t, d, hb, ht, hd, rfl⟩
  · intro h
    obtain ⟨b, t, d, hb, ht, hd, rfl⟩ := h
    exact ⟨b, hb, t, ht, d, hd, rfl⟩

theorem parseRate_eq_ok_iff {text : String} {link : ExchangeRate} : parseRate text = .ok link ↔ Spells text link := by
  unfold parseRate
  constructor
  · intro h
    split at h
    case h_1 base term factor hsplit =>
      obtain ⟨htext, hbase, hterm, hfactor⟩ := splitColons_eq_three_iff.1 hsplit
      obtain ⟨b, t, d, hb, ht, hd, rfl⟩ := parseParts_eq_ok_iff.1 h
      have hjoined : text = String.ofList base ++ ":" ++ String.ofList term ++ ":" ++ String.ofList factor := by
        rw [← String.toList_inj, htext]
        simp
      rw [hjoined]
      exact .parts (by simpa using hbase) (by simpa using hterm) (by simpa using hfactor) hb ht hd
    case h_2 => cases h
  · intro h
    cases h with
    | @parts base term factor b t d hbase hterm hfactor hb ht hd =>
      have hsplit : splitColons (base ++ ":" ++ term ++ ":" ++ factor).toList =
          [base.toList, term.toList, factor.toList] := by
        rw [splitColons_eq_three_iff]
        exact ⟨by simp, hbase, hterm, hfactor⟩
      rw [hsplit]
      dsimp only
      rw [String.ofList_toList, String.ofList_toList, String.ofList_toList]
      exact parseParts_eq_ok_iff.2 ⟨b, t, d, hb, ht, hd, rfl⟩

/-- A text spells one rate at most. -/
theorem rightUnique_spells : Relator.RightUnique Spells := by
  intro text a b ha hb
  exact Except.ok.inj ((parseRate_eq_ok_iff.2 ha).symm.trans (parseRate_eq_ok_iff.2 hb))

end Command

end Coinage
