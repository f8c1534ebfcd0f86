import Coinage.Proofs.Rounding.Past
import Coinage.Proofs.Text.Keys
/-!
# Named roundings

Two precedences meet where a rounding is asked for by name. Within a source the rounding counts that was entered last
(`custom_run`), among sources the first one that knows the name (`custom_eq_ok_iff`). The names that are listed are
collected apart from both, and are those under which something is found.
-/

namespace Coinage

theorem mem_sortedOnce {word : String} {words : List String} : word ∈ sortedOnce words ↔ word ∈ words := by
  rw [sortedOnce, List.mem_mergeSort, List.mem_eraseDups]

namespace StandardRoundings

variable {s : StandardRoundings} {history : List Registration} {id : String} {op : Operator}

/-- Whether a rounding is the one that was entered last under a name. -/
def LastNamed (history : List Registration) (id : String) (op : Operator) : Prop :=
  ∃ before after, history = before ++ .named id op :: after ∧ ∀ other, .named id other ∉ after

/-- Whether anything was entered under a name. -/
def Names (history : List Registration) (id : String) : Prop :=
  ∃ op, .named id op ∈ history

/-! ### One source -/

theorem mem_customIds_iff : id ∈ s.customIds ↔ ∃ op, s.custom id = some op := by
  rw [customIds, mem_sortedOnce, mem_keys_iff]
  rfl

theorem custom_registerCustom (s : StandardRoundings) (name : String) (op : Operator) (id : String) :
    (s.registerCustom name op).custom id = if id = name then some op else s.custom id :=
  lookup_cons_eq_ite id name op s.named

/-- One registration more. -/
theorem lastNamed_concat {r : Registration} :
    LastNamed (history ++ [r]) id op ↔
      r = .named id op ∨ (∀ other, r ≠ .named id other) ∧ LastNamed history id op := by
  constructor
  · rintro ⟨before, after, hsplit, hafter⟩
    rcases concat_eq_append_cons_iff.1 hsplit with ⟨rfl, rfl, hr⟩ | ⟨after', rfl, rfl⟩
    · exact .inl hr.symm
    · refine .inr ⟨fun other hr => hafter other ?_, before, after', rfl, fun other hother => hafter other ?_⟩
      · exact List.mem_append_right _ (List.mem_singleton.2 hr.symm)
      · exact List.mem_append_left _ hother
  · rintro (rfl | ⟨hr, before, after, rfl, hafter⟩)
    · exact ⟨history, [], rfl, fun _ => List.not_mem_nil⟩
    · refine ⟨before, after ++ [r], by simp, fun other hother => ?_⟩
      rcases List.mem_append.1 hother with hother | hother
      · exact hafter other hother
      · exact hr other (List.mem_singleton.1 hother).symm

/-- The source answers with what was entered last. -/
theorem custom_run (hs : s.named = []) (history : List Registration) (id : String) (op : Operator) :
    (s.run history).custom id = some op ↔ LastNamed history id op := by
  induction history using List.reverseRecOn with
  | nil => simp [run, custom, hs, LastNamed]
  | append_singleton history r ih =>
    rw [run_concat, lastNamed_concat, ← ih]
    cases r with
    | past entry => simp [after, custom, registerPast]
    | named name new =>
      rw [after, custom_registerCustom]
      by_cases hid : id = name
      · simp [hid]
      · simp [hid, Ne.symm hid]

theorem names_concat {r : Registration} : Names (history ++ [r]) id ↔ Names history id ∨ ∃ op, r = .named id op := by
  simp only [Names, List.mem_append, List.mem_singleton, exists_or, eq_comm]

theorem exists_lastNamed_iff : (∃ op, LastNamed history id op) ↔ Names history id := by
  induction history using List.reverseRecOn with
  | nil => simp [LastNamed, Names]
  | append_singleton history r ih =>
    simp only [lastNamed_concat, names_concat, ← ih, exists_or, exists_and_left]
    by_cases hr : ∃ op, r = .named id op
    · simp [hr]
    · simp [not_exists.1 hr]

/-- How a standard source comes about: its mode and increments, and what is entered in it, one after the other. -/
structure Making where
  mode : RoundingMode := PlaceRounding.defaultMode
  increments : List (String × Decimal) := [swissIncrement]
  history : List Registration

def Making.source (m : Making) : StandardRoundings :=
  run { mode := m.mode, increments := m.increments } m.history

theorem Making.custom_source {m : Making} : m.source.custom id = some op ↔ LastNamed m.history id op :=
  custom_run rfl m.history id op

theorem Making.custom_source_eq_none_iff {m : Making} : m.source.custom id = none ↔ ¬ Names m.history id := by
  rw [← exists_lastNamed_iff, Option.eq_none_iff_forall_ne_some, not_exists]
  exact forall_congr' fun op => not_congr custom_source

end StandardRoundings

/-! ### Several sources -/

namespace Roundings

open StandardRoundings

variable {r : Roundings} {id : String} {op : Operator}

theorem firstAnswer_eq_ok_iff {family : RoundingFamily} {key : String} {ask : RoundingSource → Option Operator} :
    r.firstAnswer family key ask = .ok op ↔ r.sources.findSome? ask = some op := by
  rw [firstAnswer]
  cases r.sources.findSome? ask <;> simp

theorem firstAnswer_eq_error_iff {family : RoundingFamily} {key : String} {ask : RoundingSource → Option Operator}
    {cause : AmountError} :
    r.firstAnswer family key ask = .error cause ↔
      (∀ op, r.firstAnswer family key ask ≠ .ok op) ∧ cause = .invalidArgument (.noRounding family key) := by
  rw [firstAnswer]
  cases r.sources.findSome? ask <;> simp [eq_comm]

/-- What has an answer keeps it when a source is added. -/
theorem firstAnswer_withSource {family : RoundingFamily} {key : String} {ask : RoundingSource → Option Operator}
    (h : r.firstAnswer family key ask = .ok op) (s : RoundingSource) :
    (r.withSource s).firstAnswer family key ask = .ok op := by
  rw [firstAnswer_eq_ok_iff] at h ⊢
  rw [withSource, List.findSome?_append, h, Option.some_or]

/-- The standard sources of some makings, asked in that order. -/
def ofMakings (makings : List Making) : Roundings :=
  ⟨makings.map fun m => m.source.toSource⟩

theorem custom_eq_ok_iff {makings : List Making} :
    (ofMakings makings).custom id = .ok op ↔
      ∃ before m after, makings = before ++ m :: after ∧ LastNamed m.history id op ∧
        ∀ other ∈ before, ¬ Names other.history id := by
  rw [custom, firstAnswer_eq_ok_iff, ofMakings, List.findSome?_map, List.findSome?_eq_some_iff]
  refine exists_congr fun before => exists_congr fun m => exists_congr fun after => and_congr_right fun _ => ?_
  exact and_congr Making.custom_source (forall₂_congr fun _ _ => Making.custom_source_eq_none_iff)

theorem mem_customIds_ofMakings {makings : List Making} :
    id ∈ (ofMakings makings).customIds ↔ ∃ m ∈ makings, Names m.history id := by
  have hlisted : id ∈ (ofMakings makings).customIds ↔ ∃ m ∈ makings, id ∈ m.source.customIds := by
    rw [customIds, mem_sortedOnce, ofMakings, List.flatMap_map, List.mem_flatMap]
    rfl
  rw [hlisted]
  simp only [mem_customIds_iff, Making.custom_source, exists_lastNamed_iff]

/-- A name is listed just where it is found. -/
theorem exists_custom_iff {makings : List Making} :
    (∃ op, (ofMakings makings).custom id = .ok op) ↔ id ∈ (ofMakings makings).customIds := by
  have hfound : (∃ op, (ofMakings makings).custom id = .ok op) ↔ ∃ m ∈ makings, ∃ op, m.source.custom id = some op := by
    simp only [custom, firstAnswer_eq_ok_iff, ofMakings, List.findSome?_map, ← Option.isSome_iff_exists,
      List.findSome?_isSome_iff]
    rfl
  rw [hfound, mem_customIds_ofMakings]
  simp only [Making.custom_source, exists_lastNamed_iff]

/-- A rounding is found by its name just where the name is among those listed; it is the one that was entered last under
it in the first of the sources that know it. Any other name is an invalid argument. A source that is added changes
nothing of what was found before. -/
theorem named_found_by_precedence (makings : List Making) (id : String) :
    ((∃ op, (ofMakings makings).custom id = .ok op) ↔ id ∈ (ofMakings makings).customIds) ∧
    (∀ op, (ofMakings makings).custom id = .ok op ↔
      ∃ before m after, makings = before ++ m :: after ∧ LastNamed m.history id op ∧
        ∀ other ∈ before, ¬ Names other.history id) ∧
    (∀ cause, (ofMakings makings).custom id = .error cause ↔
      id ∉ (ofMakings makings).customIds ∧ cause = .invalidArgument (.noRounding .custom id)) ∧
    ∀ op s, (ofMakings makings).custom id = .ok op → ((ofMakings makings).withSource s).custom id = .ok op := by
  refine ⟨exists_custom_iff, fun op => custom_eq_ok_iff, fun cause => ?_, fun op s h => firstAnswer_withSource h s⟩
  rw [← exists_custom_iff, not_exists]
  exact firstAnswer_eq_error_iff

/-- Rounding half-up to a number of places, as examples enter it. -/
def toPlaces (places : ℕ) : Operator :=
  (PlaceRounding.mk places .halfUp).operator

/-- A source in which one name was entered twice, in front of one that knows that name too and another. -/
def twiceNamed : List Making :=
  [{ history := [.named "coins" (toPlaces 1), .named "coins" (toPlaces 2)] },
   { mode := .down, history := [.named "coins" (toPlaces 3), .named "units" (toPlaces 0)] }]

/-- The later entry of the first source counts, also in front of a third source; the other name is found behind it. -/
theorem named_found_by_precedence_twice_named :
    (ofMakings twiceNamed).custom "coins" = .ok (toPlaces 2) ∧
    ((ofMakings twiceNamed).withSource StandardRoundings.initial.toSource).custom "coins" = .ok (toPlaces 2) ∧
    (ofMakings twiceNamed).custom "units" = .ok (toPlaces 0) ∧
    "units" ∈ (ofMakings twiceNamed).customIds ∧
    (ofMakings twiceNamed).custom "notes" = .error (.invalidArgument (.noRounding .custom "notes")) := by
  obtain ⟨-, hcoins, -, hkept⟩ := named_found_by_precedence twiceNamed "coins"
  obtain ⟨hlisted, hunits, -, -⟩ := named_found_by_precedence twiceNamed "units"
  obtain ⟨hnotes, -, hunknown, -⟩ := named_found_by_precedence twiceNamed "notes"
  have hlater : (ofMakings twiceNamed).custom "coins" = .ok (toPlaces 2) :=
    (hcoins _).2 ⟨[], _, _, rfl, ⟨[.named "coins" (toPlaces 1)], [], rfl, by simp⟩, by simp⟩
  have hbehind : (ofMakings twiceNamed).custom "units" = .ok (toPlaces 0) :=
    (hunits _).2 ⟨[_], _, [], rfl, ⟨[.named "coins" (toPlaces 3)], [], rfl, by simp⟩, by simp [Names]⟩
  refine ⟨hlater, hkept _ _ hlater, hbehind, hlisted.1 ⟨_, hbehind⟩, (hunknown _).2 ⟨?_, rfl⟩⟩
  rw [mem_customIds_ofMakings]
  simp [twiceNamed, Names]

end Roundings

end Coinage
