import Coinage.Currency.Registry
import Coinage.Proofs.Text.Keys
/-!
# The first unit of a code

However the calls of its users follow one another, a registry only ever gains units: `get?_perform` says what one call
adds, and by induction a code has, after any history of calls, the unit that was there at the beginning or else the one
that was offered first. `WellKept` holds of the entries throughout, so that a unit is found under its own code and the
codes are listed once each.
-/

namespace Coinage

namespace Currency

namespace Registry

/-! ### Calls -/

/-- A call on a registry. Calls take effect one at a time, whoever makes them. -/
inductive Call where
  | register (h : Handle)
  | buildAndRegister (d : Draft) (serial : Nat)
  | get? (code : String)
  | get (code : String)
  | contains (code : String)

inductive Answer where
  | unit (h : Handle)
  | absent
  | refused (cause : AmountError)
  | isPresent (b : Bool)

namespace Answer

def ofOption : Option Handle → Answer
  | some h => unit h
  | none => absent

def ofOutcome : Outcome Handle → Answer
  | .ok h => unit h
  | .error cause => refused cause

/-- The unit that an answer hands out. -/
def unit? : Answer → Option Handle
  | unit h => some h
  | absent | refused _ | isPresent _ => none

@[simp]
theorem unit?_ofOption (o : Option Handle) : (ofOption o).unit? = o := by
  cases o <;> rfl

@[simp]
theorem unit?_ofOutcome (o : Outcome Handle) : (ofOutcome o).unit? = o.toOption := by
  cases o <;> rfl

end Answer

/-- The answer to a call, and the registry after it. -/
def perform (r : Registry) : Call → Answer × Registry
  | .register h => (.unit (r.register h).1, (r.register h).2)
  | .buildAndRegister d serial => ((enter d serial).run.run r).map .ofOutcome id
  | .get? code => (.ofOption (r.get? code), r)
  | .get code => (.ofOutcome (r.get code), r)
  | .contains code => (.isPresent (r.contains code), r)

/-- The registry after one call after the other. -/
def run (r : Registry) (history : List Call) : Registry :=
  history.foldl (fun r call => (r.perform call).2) r

/-- The unit that a call wants to register; there is none of a blank code. -/
def Call.offer? : Call → Option Handle
  | register h => some h
  | buildAndRegister d serial => (make? d.code d.numericCode d.fractionDigits).map fun unit => ⟨unit, serial⟩
  | get? _ | get _ | contains _ => none

/-- All units that calls want to register, in the order of the calls. -/
def offered (history : List Call) : List Handle :=
  history.filterMap Call.offer?

def firstOffered (code : String) (history : List Call) : Option Handle :=
  (offered history).find? fun h => h.unit.code == code

variable {r : Registry} {call : Call} {h present : Handle} {code : String}

/-! ### One registration -/

theorem register_of_present (hpresent : r.get? h.unit.code = some present) : r.register h = (present, r) := by
  rw [register, hpresent]

theorem register_of_absent (habsent : r.get? h.unit.code = none) :
    r.register h = (h, ⟨(h.unit.code, h) :: r.entries⟩) := by
  rw [register, habsent]

theorem register_fst (r : Registry) (h : Handle) : (r.register h).1 = (r.get? h.unit.code).getD h := by
  cases hget : r.get? h.unit.code with
  | some present => rw [register_of_present hget, Option.getD_some]
  | none => rw [register_of_absent hget, Option.getD_none]

theorem get?_register (r : Registry) (h : Handle) (code : String) :
    (r.register h).2.get? code = (r.get? code).or (if code = h.unit.code then some h else none) := by
  cases hget : r.get? h.unit.code with
  | some present =>
    rw [register_of_present hget]
    split
    case isTrue hcode => rw [hcode, hget, Option.some_or]
    case isFalse => rw [Option.or_none]
  | none =>
    rw [register_of_absent hget, get?, lookup_cons_eq_ite]
    split
    case isTrue hcode => rw [hcode, hget, Option.none_or]
    case isFalse => rw [Option.or_none, get?]

/-! ### One call -/

theorem make?_eq_none_iff (code : String) (number : Option Nat) (digits : Nat) :
    make? code number digits = none ↔ Text.isAllBlank code = true := by
  simp [make?]

/-- A draft that gives a unit is registered like any other. -/
theorem run_enter_of_some {d : Draft} {unit : Currency}
    (hunit : make? d.code d.numericCode d.fractionDigits = some unit) (r : Registry) (serial : Nat) :
    (enter d serial).run.run r = (.ok (r.register ⟨unit, serial⟩).1, (r.register ⟨unit, serial⟩).2) := by
  rw [enter, Draft.build, make, hunit]
  rfl

/-- A draft is refused before anything is registered. -/
theorem run_enter_of_none {d : Draft} (hnone : make? d.code d.numericCode d.fractionDigits = none) (r : Registry)
    (serial : Nat) : (enter d serial).run.run r = (.error (.invalidArgument .blankCode), r) := by
  rw [enter, Draft.build, make, hnone]
  rfl

theorem perform_of_offer (hoffer : call.offer? = some h) (r : Registry) :
    r.perform call = (.unit (r.register h).1, (r.register h).2) := by
  cases call with
  | register _ =>
    cases hoffer
    rfl
  | buildAndRegister d serial =>
    obtain ⟨unit, hunit, rfl⟩ := Option.map_eq_some_iff.1 hoffer
    rw [perform, run_enter_of_some hunit]
    rfl
  | get? _ | get _ | contains _ => cases hoffer

/-- A call that offers nothing leaves the registry as it is. -/
theorem perform_of_no_offer (hoffer : call.offer? = none) (r : Registry) : (r.perform call).2 = r := by
  cases call with
  | register _ => cases hoffer
  | buildAndRegister d serial =>
    rw [perform, run_enter_of_none (Option.map_eq_none_iff.1 hoffer)]
    rfl
  | get? _ | get _ | contains _ => rfl

theorem get?_perform (r : Registry) (call : Call) (code : String) :
    (r.perform call).2.get? code = (r.get? code).or (call.offer?.filter fun h => h.unit.code == code) := by
  cases hoffer : call.offer? with
  | none => rw [perform_of_no_offer hoffer, Option.filter_none, Option.or_none]
  | some h =>
    rw [perform_of_offer hoffer, get?_register, Option.filter_some]
    simp only [beq_iff_eq, eq_comm (a := code)]

theorem perform_eq_refused_iff {d : Draft} {serial : Nat} {cause : AmountError} :
    (r.perform (.buildAndRegister d serial)).1 = .refused cause ↔
      Text.isAllBlank d.code = true ∧ cause = .invalidArgument .blankCode := by
  rw [← make?_eq_none_iff d.code d.numericCode d.fractionDigits]
  cases hunit : make? d.code d.numericCode d.fractionDigits with
  | some unit => simp [perform, run_enter_of_some hunit, Answer.ofOutcome]
  | none => simp [perform, run_enter_of_none hunit, Answer.ofOutcome, eq_comm]

theorem no_offer_of_refused {cause : AmountError} (hrefused : (r.perform call).1 = .refused cause) :
    call.offer? = none := by
  cases hoffer : call.offer? with
  | none => rfl
  | some h =>
    rw [perform_of_offer hoffer] at hrefused
    cases hrefused

/-! ### Entries and codes -/

/-- Each unit stands under its own code, and no code stands twice. -/
structure WellKept (r : Registry) : Prop where
  code_eq_key : ∀ e ∈ r.entries, e.2.unit.code = e.1
  nodup_keys : (r.entries.map Prod.fst).Nodup

theorem mem_codes_iff : code ∈ r.codes ↔ ∃ h, r.get? code = some h := by
  rw [codes, List.mem_mergeSort, mem_keys_iff]
  rfl

theorem contains_iff : r.contains code = true ↔ code ∈ r.codes := by
  rw [contains, Option.isSome_iff_exists, mem_codes_iff]

theorem toOption_get (r : Registry) (code : String) : (r.get code).toOption = r.get? code := by
  rw [get]
  cases r.get? code <;> rfl

theorem get_eq_ok_iff : r.get code = .ok h ↔ r.get? code = some h := by
  cases hget : r.get? code <;> simp [get, hget]

theorem get_eq_error_iff {cause : AmountError} :
    r.get code = .error cause ↔ code ∉ r.codes ∧ cause = .unknownCurrency code := by
  rw [mem_codes_iff]
  cases hget : r.get? code <;> simp [get, hget, eq_comm]

theorem wellKept_empty : empty.WellKept where
  code_eq_key _ he := absurd he List.not_mem_nil
  nodup_keys := List.nodup_nil

theorem wellKept_ofIso (firstSerial : Nat) : (ofIso firstSerial).WellKept := by
  constructor
  case code_eq_key =>
    intro e he
    obtain ⟨⟨unit, i⟩, -, rfl⟩ := List.mem_map.1 he
    rfl
  case nodup_keys =>
    have hkeys : (ofIso firstSerial).entries.map Prod.fst = iso.map code := by
      conv_rhs => rw [← List.zipIdx_map_fst 0 iso, List.map_map]
      exact List.map_map
    rw [hkeys]
    decide +kernel

namespace WellKept

variable (hr : r.WellKept)

include hr

theorem code_eq (hget : r.get? code = some h) : h.unit.code = code :=
  hr.code_eq_key _ (mem_of_lookup hget)

theorem register (h : Handle) : (r.register h).2.WellKept := by
  cases hget : r.get? h.unit.code with
  | some present => rwa [register_of_present hget]
  | none =>
    rw [register_of_absent hget]
    constructor
    case code_eq_key =>
      intro e he
      rcases List.mem_cons.1 he with rfl | he
      · rfl
      · exact hr.code_eq_key e he
    case nodup_keys =>
      refine List.nodup_cons.2 ⟨fun hmem => ?_, hr.nodup_keys⟩
      obtain ⟨present, hpresent⟩ := mem_keys_iff.1 hmem
      cases hget.symm.trans hpresent

theorem perform (call : Call) : (r.perform call).2.WellKept := by
  cases hoffer : call.offer? with
  | none => rwa [perform_of_no_offer hoffer]
  | some h =>
    rw [perform_of_offer hoffer]
    exact hr.register h

theorem run (history : List Call) : (r.run history).WellKept := by
  induction history generalizing r with
  | nil => exact hr
  | cons call rest ih => exact ih (hr.perform call)

theorem codes_ascending : r.codes.Pairwise (· < ·) :=
  pairwise_lt_mergeSort hr.nodup_keys

/-- What an answer hands out is the unit that its code has from then on. -/
theorem get?_of_answer (hanswer : (r.perform call).1.unit? = some h) :
    (r.perform call).2.get? h.unit.code = some h := by
  cases hoffer : call.offer? with
  | some offer =>
    rw [perform_of_offer hoffer, register_fst] at hanswer
    cases hanswer
    rw [perform_of_offer hoffer, get?_register]
    cases hget : r.get? offer.unit.code with
    | some present => rw [Option.getD_some, hr.code_eq hget, hget, Option.some_or]
    | none => rw [Option.getD_none, hget, Option.none_or, if_pos rfl]
  | none =>
    rw [perform_of_no_offer hoffer]
    cases call with
    | register _ => cases hoffer
    | contains _ => cases hanswer
    | buildAndRegister d serial =>
      rw [Registry.perform, run_enter_of_none (Option.map_eq_none_iff.1 hoffer)] at hanswer
      cases hanswer
    | get? code =>
      have hget : r.get? code = some h := by rwa [Registry.perform, Answer.unit?_ofOption] at hanswer
      rw [hr.code_eq hget, hget]
    | get code =>
      have hget : r.get? code = some h := by
        rwa [Registry.perform, Answer.unit?_ofOutcome, toOption_get] at hanswer
      rw [hr.code_eq hget, hget]

end WellKept

/-! ### Histories of calls -/

theorem firstOffered_cons (code : String) (call : Call) (rest : List Call) :
    firstOffered code (call :: rest) =
      (call.offer?.filter fun h => h.unit.code == code).or (firstOffered code rest) := by
  unfold firstOffered offered
  cases hoffer : call.offer? with
  | none => rw [List.filterMap_cons_none hoffer, Option.filter_none, Option.none_or]
  | some h =>
    rw [List.filterMap_cons_some hoffer, List.find?_cons, Option.filter_some]
    cases h.unit.code == code <;> rfl

theorem get?_run (r : Registry) (history : List Call) (code : String) :
    (r.run history).get? code = (r.get? code).or (firstOffered code history) := by
  -- each call stands in front of the rest of the history, as `or` puts its unit in front of later ones
  induction history generalizing r with
  | nil => exact Option.or_none.symm
  | cons call rest ih =>
    show ((r.perform call).2.run rest).get? code = _
    rw [ih, get?_perform, Option.or_assoc, firstOffered_cons]

theorem get?_run_of_present (hget : r.get? code = some h) (after : List Call) : (r.run after).get? code = some h := by
  rw [get?_run, hget, Option.some_or]

theorem exists_firstOffered {history : List Call} :
    (∃ h, firstOffered code history = some h) ↔ ∃ h ∈ offered history, h.unit.code = code := by
  rw [← Option.isSome_iff_exists, firstOffered, List.find?_isSome]
  simp only [beq_iff_eq]

/-- What a registry has come to that began as `start`: it gives codes without a unit one, and nothing else. -/
structure FirstWins (start : Registry) (history : List Call) (r : Registry) : Prop where
  get?_eq : ∀ code, r.get? code = (start.get? code).or (firstOffered code history)
  code_eq_key : ∀ e ∈ r.entries, e.2.unit.code = e.1
  stays : ∀ code h after, r.get? code = some h → (r.run after).get? code = some h
  offer_answered : ∀ call h, call.offer? = some h → (r.perform call).1 = .unit ((r.get? h.unit.code).getD h)
  answer_lasts : ∀ call h after, (r.perform call).1.unit? = some h →
    (r.run (call :: after)).get? h.unit.code = some h
  refused_iff_blank : ∀ d serial cause, (r.perform (.buildAndRegister d serial)).1 = .refused cause ↔
    Text.isAllBlank d.code = true ∧ cause = .invalidArgument .blankCode
  refused_unchanged : ∀ call cause, (r.perform call).1 = .refused cause → (r.perform call).2 = r
  codes_ascending : r.codes.Pairwise (· < ·)
  mem_codes_iff : ∀ code, code ∈ r.codes ↔ code ∈ start.codes ∨ ∃ h ∈ offered history, h.unit.code = code
  contains_iff : ∀ code, r.contains code = true ↔ code ∈ r.codes
  get_eq_ok_iff : ∀ code h, r.get code = .ok h ↔ r.get? code = some h
  get_eq_error_iff : ∀ code cause, r.get code = .error cause ↔ code ∉ r.codes ∧ cause = .unknownCurrency code

theorem WellKept.firstWins {start : Registry} (hstart : start.WellKept) (history : List Call) :
    FirstWins start history (start.run history) := by
  have hr := hstart.run history
  constructor
  case get?_eq => exact get?_run start history
  case code_eq_key => exact hr.code_eq_key
  case stays => exact fun _ _ after hget => get?_run_of_present hget after
  case offer_answered =>
    intro call h hoffer
    rw [perform_of_offer hoffer, register_fst]
  case answer_lasts => exact fun _ _ after hanswer => get?_run_of_present (hr.get?_of_answer hanswer) after
  case refused_iff_blank => exact fun _ _ _ => perform_eq_refused_iff
  case refused_unchanged => exact fun _ _ hrefused => perform_of_no_offer (no_offer_of_refused hrefused) _
  case codes_ascending => exact hr.codes_ascending
  case mem_codes_iff =>
    intro code
    simp only [Registry.mem_codes_iff, get?_run, Option.or_eq_some_iff, ← exists_firstOffered]
    cases start.get? code <;> simp
  case contains_iff => exact fun _ => Registry.contains_iff
  case get_eq_ok_iff => exact fun _ _ => Registry.get_eq_ok_iff
  case get_eq_error_iff => exact fun _ _ => Registry.get_eq_error_iff

/-- Whether it begins without units or with the known currencies, after any history of calls a registry has under each
code the unit that was there first. Every call that hands out a unit of a code hands out that one, then and later on;
each unit stands under its own code; a refused call, such as building a unit of a blank code, changes nothing; and the
codes are listed in strictly ascending order, those registered so far and no others. -/
theorem first_registered_stays (history : List Call) :
    FirstWins empty history (empty.run history) ∧
    ∀ firstSerial, FirstWins (ofIso firstSerial) history ((ofIso firstSerial).run history) :=
  ⟨wellKept_empty.firstWins history, fun firstSerial => (wellKept_ofIso firstSerial).firstWins history⟩

/-- Units of one code that differ, as several callers may offer them. -/
def rival (code : String) (hcode : Text.isAllBlank code = false) (number : Nat) : Handle :=
  ⟨⟨code, some number, number, hcode⟩, number⟩

def rivalry : List Call :=
  [.contains "RACE", .register (rival "RACE" (by decide) 100), .buildAndRegister { code := " " } 101]

/-- The first of two rivals is handed to both callers, a rival of the euro comes too late, and nothing comes of the blank
code. -/
theorem first_registered_stays_rivals :
    ((empty.run rivalry).perform (.register (rival "RACE" (by decide) 102))).1 =
      .unit (rival "RACE" (by decide) 100) ∧
    (((ofIso 0).run rivalry).perform (.register (rival "EUR" (by decide) 102))).1 =
      .unit ⟨⟨"EUR", some 978, 2, by decide⟩, 14⟩ ∧
    ((empty.run rivalry).perform (.buildAndRegister { code := " " } 102)).2 = empty.run rivalry ∧
    "RACE" ∈ (empty.run rivalry).codes ∧ " " ∉ (empty.run rivalry).codes := by
  have hempty := (first_registered_stays rivalry).1
  have hiso := (first_registered_stays rivalry).2 0
  have hrace : (empty.run rivalry).get? "RACE" = some (rival "RACE" (by decide) 100) := (hempty.get?_eq "RACE").trans rfl
  have heuro : ((ofIso 0).run rivalry).get? "EUR" = some ⟨⟨"EUR", some 978, 2, by decide⟩, 14⟩ :=
    (hiso.get?_eq "EUR").trans rfl
  have hoffered : offered rivalry = [rival "RACE" (by decide) 100] := rfl
  refine ⟨(hempty.offer_answered _ _ rfl).trans ?_, (hiso.offer_answered _ _ rfl).trans ?_, ?_, ?_, ?_⟩
  · show Answer.unit (((empty.run rivalry).get? "RACE").getD _) = _
    rw [hrace, Option.getD_some]
  · show Answer.unit ((((ofIso 0).run rivalry).get? "EUR").getD _) = _
    rw [heuro, Option.getD_some]
  · exact hempty.refused_unchanged _ _ ((hempty.refused_iff_blank _ _ _).2 ⟨by decide, rfl⟩)
  · exact (hempty.mem_codes_iff "RACE").2 (.inr ⟨_, by rw [hoffered]; exact List.mem_cons_self, rfl⟩)
  · rw [hempty.mem_codes_iff, hoffered]
    simp [rival, codes, empty]

end Registry

end Currency

end Coinage
