import Coinage.Proofs.Amount.Basic
import Coinage.Proofs.Instant.Order
import Coinage.Rounding.Provider
/-!
# Roundings of the past

Which past rounding counts at an instant is decided by the instants at which they ended and not by the order in which
they were entered: `InForce` says so of the entries as they were made, for one currency. The source keeps the entries
of all currencies in one list, in the order of their ends. Seen from one currency that is a list of its own, to which
each registration appends an entry before it is sorted again, with a stable sort (`pastOf_after`): so it holds the
entries of a history sorted once (`pastOf_run`), and the first that ends after an instant is the one in force.
-/

namespace Coinage

namespace StandardRoundings

/-! ### Registrations -/

/-- A rounding that is entered in the source. -/
inductive Registration where
  | named (id : String) (op : Operator)
  | past (entry : PastRounding)

/-- The past rounding that a registration enters for a currency. -/
def Registration.pastFor? (code : String) : Registration → Option PastRounding
  | past entry => if entry.code = code then some entry else none
  | named _ _ => none

/-- The source after a registration. -/
def after (s : StandardRoundings) : Registration → StandardRoundings
  | .named id op => s.registerCustom id op
  | .past entry => s.registerPast entry.code entry.validUntil entry.operator

/-- The source after one registration after the other. -/
def run (s : StandardRoundings) (history : List Registration) : StandardRoundings :=
  history.foldl after s

/-- The past roundings of a currency, in the order in which they were entered. -/
def entriesFor (code : String) (history : List Registration) : List PastRounding :=
  history.filterMap (Registration.pastFor? code)

/-- Whether an entry is the one that counts at an instant, of entries in the order in which they were made: it ends
after the instant, those made before it that do so too end later, and those made behind it do not end earlier. -/
def InForce (entries : List PastRounding) (t : Instant) (entry : PastRounding) : Prop :=
  ∃ before after, entries = before ++ entry :: after ∧ t < entry.validUntil ∧
    (∀ other ∈ before, t < other.validUntil → entry.validUntil < other.validUntil) ∧
    ∀ other ∈ after, t < other.validUntil → entry.validUntil ≤ other.validUntil

/-! ### Entries in the order of their ends -/

/-- Whether an entry ends by the end of another. -/
def EndsBy (a b : PastRounding) : Prop :=
  a.validUntil ≤ b.validUntil

instance : DecidableRel EndsBy := fun a b => inferInstanceAs (Decidable (a.validUntil ≤ b.validUntil))

instance : IsTrans PastRounding EndsBy := ⟨fun _ _ _ => le_trans⟩

instance : Std.Total EndsBy := ⟨fun a b => le_total a.validUntil b.validUntil⟩

/-- Entries of which none ends before one in front of it. -/
def Sorted (entries : List PastRounding) : Prop :=
  entries.Pairwise EndsBy

theorem insertPast_cons_of_lt {entry first : PastRounding} (h : entry.validUntil < first.validUntil)
    (rest : List PastRounding) : insertPast entry (first :: rest) = entry :: first :: rest :=
  if_pos (Instant.isBefore_iff.2 h)

theorem insertPast_cons_of_le {entry first : PastRounding} (h : first.validUntil ≤ entry.validUntil)
    (rest : List PastRounding) : insertPast entry (first :: rest) = first :: insertPast entry rest :=
  if_neg (Instant.not_isBefore_iff.2 h)

theorem insertPast_of_forall_lt {entry : PastRounding} {entries : List PastRounding}
    (h : ∀ other ∈ entries, entry.validUntil < other.validUntil) : insertPast entry entries = entry :: entries := by
  cases entries with
  | nil => rfl
  | cons first rest => exact insertPast_cons_of_lt (h first List.mem_cons_self) rest

/-- What ends before the first entry ends before all of them. -/
theorem Sorted.forall_lt {entry first : PastRounding} {rest : List PastRounding} (h : Sorted (first :: rest))
    (hlt : entry.validUntil < first.validUntil) : ∀ other ∈ first :: rest, entry.validUntil < other.validUntil := by
  intro other hother
  rcases List.mem_cons.1 hother with rfl | hother
  · exact hlt
  · exact hlt.trans_le ((List.pairwise_cons.1 h).1 other hother)

/-- Entries that are left out make no difference to where an entry goes among the others. -/
theorem filter_insertPast {entries : List PastRounding} (h : Sorted entries) (entry : PastRounding)
    (p : PastRounding → Bool) :
    (insertPast entry entries).filter p =
      if p entry then insertPast entry (entries.filter p) else entries.filter p := by
  induction entries with
  | nil => exact List.filter_cons
  | cons first rest ih =>
    rcases lt_or_ge entry.validUntil first.validUntil with hlt | hle
    · have hbefore := h.forall_lt hlt
      rw [insertPast_cons_of_lt hlt, List.filter_cons,
        insertPast_of_forall_lt fun other hother => hbefore other (List.mem_of_mem_filter hother)]
    · rw [insertPast_cons_of_le hle, List.filter_cons, ih (List.pairwise_cons.1 h).2, List.filter_cons]
      by_cases hfirst : p first = true
      · rw [if_pos hfirst, if_pos hfirst, insertPast_cons_of_le hle, apply_ite (List.cons first)]
      · rw [if_neg hfirst, if_neg hfirst]

/-- An entry is found first if it matches and ends before all others that do; else what was found before is found,
which must not end later if the entry matches. -/
theorem find?_insertPast {p : PastRounding → Bool} {entry found : PastRounding} {entries : List PastRounding}
    (h : Sorted entries) :
    (insertPast entry entries).find? p = some found ↔
      entries.find? p = some found ∧ (p entry = true → found.validUntil ≤ entry.validUntil) ∨
        found = entry ∧ p entry = true ∧ ∀ other ∈ entries, p other = true → entry.validUntil < other.validUntil := by
  induction entries with
  | nil =>
    rw [insertPast, List.find?_singleton]
    by_cases hentry : p entry = true
    · simp [hentry, eq_comm (a := found)]
    · simp [hentry]
  | cons first rest ih =>
    obtain ⟨-, hrest⟩ := List.pairwise_cons.1 h
    rcases lt_or_ge entry.validUntil first.validUntil with hlt | hle
    · have hbefore := h.forall_lt hlt
      rw [insertPast_cons_of_lt hlt]
      by_cases hentry : p entry = true
      · rw [List.find?_cons_of_pos hentry]
        constructor
        · rintro ⟨⟩
          exact Or.inr ⟨rfl, hentry, fun other hother _ => hbefore other hother⟩
        · rintro (⟨hfound, hends⟩ | ⟨rfl, -, -⟩)
          · exact absurd (hends hentry) (not_le.2 (hbefore found (List.mem_of_find?_eq_some hfound)))
          · rfl
      · rw [List.find?_cons_of_neg hentry]
        simp [hentry]
    · rw [insertPast_cons_of_le hle]
      by_cases hmatch : p first = true
      · rw [List.find?_cons_of_pos hmatch, List.find?_cons_of_pos hmatch]
        constructor
        · rintro ⟨⟩
          exact Or.inl ⟨rfl, fun _ => hle⟩
        · rintro (⟨hfound, -⟩ | ⟨-, -, hbefore⟩)
          · exact hfound
          · exact absurd (hbefore first List.mem_cons_self hmatch) (not_lt.2 hle)
      · rw [List.find?_cons_of_neg hmatch, List.find?_cons_of_neg hmatch, ih hrest]
        simp [hmatch]

/-! ### A stable sort -/

/-- The entries in the order of their ends, those that end together in the order in which they were. -/
def sortPast (entries : List PastRounding) : List PastRounding :=
  entries.mergeSort (EndsBy · ·)

theorem mem_sortPast {entries : List PastRounding} {entry : PastRounding} :
    entry ∈ sortPast entries ↔ entry ∈ entries :=
  List.mem_mergeSort

theorem sorted_sortPast (entries : List PastRounding) : Sorted (sortPast entries) :=
  List.pairwise_mergeSort' EndsBy entries

theorem Sorted.sortPast_eq {entries : List PastRounding} (h : Sorted entries) : sortPast entries = entries :=
  List.mergeSort_of_pairwise (h.imp decide_eq_true)

/-- A stable sort leaves the first entry in front of those that end with it. -/
theorem sortPast_cons (first : PastRounding) (rest : List PastRounding) :
    sortPast (first :: rest) = (sortPast rest).orderedInsert EndsBy first := by
  obtain ⟨earlier, others, hwhole, hrest, hearlier⟩ := @List.mergeSort_cons _ (EndsBy · ·)
    (fun a b c => by simpa using trans_of EndsBy) (fun a b => by simpa using total_of EndsBy a b) first rest
  have hsorted : Sorted (earlier ++ first :: others) := hwhole ▸ sorted_sortPast (first :: rest)
  have hothers := (List.pairwise_cons.1 (List.pairwise_append.1 hsorted).2.1).1
  have hskipped : ∀ b ∈ earlier, decide (¬ EndsBy first b) = true := fun b hb => by simpa using hearlier b hb
  rw [sortPast, hwhole, sortPast, hrest, List.orderedInsert_eq_take_drop, List.takeWhile_append_of_pos hskipped,
    List.dropWhile_append_of_pos hskipped]
  cases others with
  | nil => simp
  | cons other others => simp [hothers other List.mem_cons_self]

/-- An entry put in front and an entry put behind do not come in each other's way. -/
theorem orderedInsert_insertPast (first last : PastRounding) (entries : List PastRounding) :
    (insertPast last entries).orderedInsert EndsBy first = insertPast last (entries.orderedInsert EndsBy first) := by
  induction entries with
  | nil =>
    rcases le_or_gt first.validUntil last.validUntil with h | h
    · rw [List.orderedInsert_nil, insertPast_cons_of_le h]
      exact List.orderedInsert_cons_of_le EndsBy [] h
    · rw [List.orderedInsert_nil, insertPast_cons_of_lt h]
      exact List.orderedInsert_of_not_le EndsBy [] h.not_ge
  | cons other rest ih =>
    rcases lt_or_ge last.validUntil other.validUntil with hlast | hlast
    · rw [insertPast_cons_of_lt hlast]
      rcases le_or_gt first.validUntil last.validUntil with h | h
      · rw [List.orderedInsert_cons_of_le EndsBy _ h, List.orderedInsert_cons_of_le EndsBy rest (h.trans hlast.le),
          insertPast_cons_of_le h, insertPast_cons_of_lt hlast]
      · rw [List.orderedInsert_of_not_le EndsBy _ h.not_ge]
        rcases le_or_gt first.validUntil other.validUntil with hfirst | hfirst
        · rw [List.orderedInsert_cons_of_le EndsBy rest hfirst, insertPast_cons_of_lt h]
        · rw [List.orderedInsert_of_not_le EndsBy rest hfirst.not_ge, insertPast_cons_of_lt hlast]
    · rw [insertPast_cons_of_le hlast]
      rcases le_or_gt first.validUntil other.validUntil with hfirst | hfirst
      · rw [List.orderedInsert_cons_of_le EndsBy _ hfirst, List.orderedInsert_cons_of_le EndsBy rest hfirst,
          insertPast_cons_of_le (hfirst.trans hlast), insertPast_cons_of_le hlast]
      · rw [List.orderedInsert_of_not_le EndsBy _ hfirst.not_ge,
          List.orderedInsert_of_not_le EndsBy rest hfirst.not_ge, ih, insertPast_cons_of_le hlast]

/-- To append an entry and sort is to sort and put the entry behind those that end no later than it. -/
theorem sortPast_concat (entries : List PastRounding) (entry : PastRounding) :
    sortPast (entries ++ [entry]) = insertPast entry (sortPast entries) := by
  induction entries with
  | nil => simp [sortPast, insertPast]
  | cons first rest ih => rw [List.cons_append, sortPast_cons, ih, orderedInsert_insertPast, ← sortPast_cons]

/-- Among sorted entries, an insertion is what appending the entry and sorting again makes of them. -/
theorem Sorted.insertPast_eq {entries : List PastRounding} (h : Sorted entries) (entry : PastRounding) :
    insertPast entry entries = sortPast (entries ++ [entry]) := by
  rw [sortPast_concat, h.sortPast_eq]

theorem Sorted.insertPast {entries : List PastRounding} (h : Sorted entries) (entry : PastRounding) :
    Sorted (insertPast entry entries) :=
  h.insertPast_eq entry ▸ sorted_sortPast _

/-! ### Entries as they were made -/

theorem InForce.mem {entries : List PastRounding} {t : Instant} {entry : PastRounding} (h : InForce entries t entry) :
    entry ∈ entries ∧ t < entry.validUntil := by
  obtain ⟨before, after, rfl, hends, -, -⟩ := h
  exact ⟨List.mem_append_right _ List.mem_cons_self, hends⟩

theorem InForce.le {entries : List PastRounding} {t : Instant} {entry other : PastRounding}
    (h : InForce entries t entry) (hother : other ∈ entries) (hends : t < other.validUntil) :
    entry.validUntil ≤ other.validUntil := by
  obtain ⟨before, after, rfl, -, hbefore, hafter⟩ := h
  rcases List.mem_append.1 hother with hother | hother
  · exact (hbefore other hother hends).le
  · rcases List.mem_cons.1 hother with rfl | hother
    · exact le_rfl
    · exact hafter other hother hends

/-- One entry more. -/
theorem inForce_concat {entries : List PastRounding} {t : Instant} {entry found : PastRounding} :
    InForce (entries ++ [entry]) t found ↔
      InForce entries t found ∧ (t < entry.validUntil → found.validUntil ≤ entry.validUntil) ∨
        found = entry ∧ t < entry.validUntil ∧
          ∀ other ∈ entries, t < other.validUntil → entry.validUntil < other.validUntil := by
  constructor
  · rintro ⟨before, after, hsplit, hends, hbefore, hafter⟩
    rcases concat_eq_append_cons_iff.1 hsplit with ⟨rfl, rfl, rfl⟩ | ⟨after', rfl, rfl⟩
    · exact Or.inr ⟨rfl, hends, hbefore⟩
    · refine Or.inl ⟨⟨before, after', rfl, hends, hbefore, fun other hother => ?_⟩, ?_⟩
      · exact hafter other (List.mem_append_left _ hother)
      · exact hafter entry (List.mem_append_right _ List.mem_cons_self)
  · rintro (⟨⟨before, after, rfl, hends, hbefore, hafter⟩, hentry⟩ | ⟨rfl, hends, hbefore⟩)
    · refine ⟨before, after ++ [entry], by simp, hends, hbefore, fun other hother => ?_⟩
      rcases List.mem_append.1 hother with hother | hother
      · exact hafter other hother
      · rw [List.mem_singleton.1 hother]
        exact hentry
    · exact ⟨entries, [], rfl, hends, hbefore, fun _ hother => absurd hother List.not_mem_nil⟩

/-- Of entries that end at different instants the one in force is that which ends first, whatever their order. -/
theorem inForce_iff_of_nodup {entries : List PastRounding} {t : Instant} {entry : PastRounding}
    (h : (entries.map PastRounding.validUntil).Nodup) :
    InForce entries t entry ↔
      entry ∈ entries ∧ t < entry.validUntil ∧
        ∀ other ∈ entries, t < other.validUntil → entry.validUntil ≤ other.validUntil := by
  constructor
  · intro hentry
    exact ⟨hentry.mem.1, hentry.mem.2, fun other => hentry.le⟩
  · rintro ⟨hentry, hends, hleast⟩
    obtain ⟨before, after, rfl⟩ := List.append_of_mem hentry
    refine ⟨before, after, rfl, hends, fun other hother hother' => ?_, fun other hother => ?_⟩
    · refine lt_of_le_of_ne (hleast other (List.mem_append_left _ hother) hother') fun heq => ?_
      rw [List.map_append, List.map_cons] at h
      exact (List.nodup_append.1 h).2.2 _ (List.mem_map_of_mem hother) _ List.mem_cons_self heq.symm
    · exact hleast other (List.mem_append_right _ (List.mem_cons_of_mem _ hother))

/-- Of entries in the order of their ends, the first that ends after the instant is the one in force. -/
theorem find?_sortPast {entries : List PastRounding} {t : Instant} {found : PastRounding} :
    (sortPast entries).find? (t.isBefore ·.validUntil) = some found ↔ InForce entries t found := by
  induction entries using List.reverseRecOn generalizing found with
  | nil => simp [sortPast, InForce]
  | append_singleton entries entry ih =>
    rw [sortPast_concat, find?_insertPast (sorted_sortPast entries), ih, inForce_concat]
    simp only [mem_sortPast, Instant.isBefore_iff]

theorem exists_inForce_or_all_ended (entries : List PastRounding) (t : Instant) :
    (∃ entry, InForce entries t entry) ∨ ∀ entry ∈ entries, entry.validUntil ≤ t := by
  induction entries using List.reverseRecOn with
  | nil => exact Or.inr fun _ hentry => absurd hentry List.not_mem_nil
  | append_singleton entries last ih =>
    simp only [inForce_concat]
    rcases lt_or_ge t last.validUntil with hlast | hlast
    · rcases ih with ⟨found, hfound⟩ | hended
      · rcases lt_or_ge last.validUntil found.validUntil with hlt | hle
        · exact Or.inl ⟨last, Or.inr ⟨rfl, hlast, fun other hother hends => hlt.trans_le (hfound.le hother hends)⟩⟩
        · exact Or.inl ⟨found, Or.inl ⟨hfound, fun _ => hle⟩⟩
      · exact Or.inl ⟨last, Or.inr ⟨rfl, hlast, fun other hother hends => absurd hends (hended other hother).not_gt⟩⟩
    · rcases ih with ⟨found, hfound⟩ | hended
      · exact Or.inl ⟨found, Or.inl ⟨hfound, fun hends => absurd hends hlast.not_gt⟩⟩
      · refine Or.inr fun entry hentry => ?_
        rcases List.mem_append.1 hentry with hentry | hentry
        · exact hended entry hentry
        · exact List.mem_singleton.1 hentry ▸ hlast

/-! ### What the source holds -/

variable {s : StandardRoundings}

theorem past_after (entry : PastRounding) : (s.after (.past entry)).past = insertPast entry s.past := rfl

theorem run_concat (history : List Registration) (r : Registration) :
    s.run (history ++ [r]) = (s.run history).after r :=
  List.foldl_concat after s r history

theorem entriesFor_concat (code : String) (history : List Registration) (r : Registration) :
    entriesFor code (history ++ [r]) = entriesFor code history ++ (r.pastFor? code).toList := by
  rw [entriesFor, List.filterMap_append]
  cases h : r.pastFor? code <;> simp [entriesFor, h]

/-- No registration changes what a currency is rounded to at present. -/
theorem rounding_run (history : List Registration) (c : Currency) : (s.run history).rounding c = s.rounding c := by
  induction history using List.reverseRecOn with
  | nil => rfl
  | append_singleton history r ih =>
    rw [run_concat, ← ih]
    cases r <;> rfl

theorem sorted_past_run (hs : s.past = []) (history : List Registration) : Sorted (s.run history).past := by
  induction history using List.reverseRecOn with
  | nil => exact hs ▸ List.Pairwise.nil
  | append_singleton history r ih =>
    rw [run_concat]
    cases r with
    | named id op => exact ih
    | past entry => exact ih.insertPast entry

/-- The past roundings that the source holds for a currency. -/
def pastOf (s : StandardRoundings) (code : String) : List PastRounding :=
  s.past.filter (·.code == code)

/-- A registration appends its entry to those of the currency, which are sorted again; those of the others stay. -/
theorem pastOf_after (h : Sorted s.past) (r : Registration) (code : String) :
    (s.after r).pastOf code = sortPast (s.pastOf code ++ (r.pastFor? code).toList) := by
  have hkept : Sorted (s.pastOf code) := h.filter _
  cases r with
  | named id op => exact (List.append_nil _).symm ▸ hkept.sortPast_eq.symm
  | past entry =>
    rw [pastOf, past_after, filter_insertPast h, Registration.pastFor?]
    by_cases hcode : entry.code = code
    · rw [if_pos (beq_iff_eq.2 hcode), if_pos hcode]
      exact hkept.insertPast_eq entry
    · rw [if_neg (mt beq_iff_eq.1 hcode), if_neg hcode, Option.toList_none, List.append_nil]
      exact hkept.sortPast_eq.symm

/-- The source holds what was entered for a currency, sorted once. -/
theorem pastOf_run (hs : s.past = []) (history : List Registration) (code : String) :
    (s.run history).pastOf code = sortPast (entriesFor code history) := by
  induction history using List.reverseRecOn with
  | nil => simp [pastOf, run, entriesFor, sortPast, hs]
  | append_singleton history r ih =>
    rw [run_concat, pastOf_after (sorted_past_run hs history), ih, entriesFor_concat]
    cases r.pastFor? code with
    | none => rw [Option.toList_none, List.append_nil, List.append_nil, (sorted_sortPast _).sortPast_eq]
    | some entry =>
      rw [Option.toList_some, sortPast_concat, sortPast_concat, (sorted_sortPast _).sortPast_eq]

/-- The first entry of a currency that ends after an instant counts there, else the present rounding. -/
theorem roundingAt_eq (c : Currency) (t : Instant) :
    s.roundingAt c t =
      (((s.pastOf c.code).find? (t.isBefore ·.validUntil)).map PastRounding.operator).getD (s.rounding c) := by
  rw [pastOf, List.find?_filter, roundingAt]
  simp only [Bool.decide_and, Bool.decide_eq_true]
  cases s.past.find? fun entry => entry.code == c.code && t.isBefore entry.validUntil <;> rfl

theorem roundingAt_of_inForce (hs : s.past = []) {history : List Registration} {c : Currency} {t : Instant}
    {entry : PastRounding} (h : InForce (entriesFor c.code history) t entry) :
    (s.run history).roundingAt c t = entry.operator := by
  rw [roundingAt_eq, pastOf_run hs, find?_sortPast.2 h]
  rfl

/-- Where no entry ends after the instant, the present rounding counts. -/
theorem roundingAt_of_all_ended (hs : s.past = []) {history : List Registration} {c : Currency} {t : Instant}
    (h : ∀ entry ∈ entriesFor c.code history, entry.validUntil ≤ t) : (s.run history).roundingAt c t = s.rounding c := by
  have hnone : (sortPast (entriesFor c.code history)).find? (t.isBefore ·.validUntil) = none :=
    List.find?_eq_none.2 fun entry hentry => Instant.not_isBefore_iff.2 (h entry (mem_sortPast.1 hentry))
  rw [roundingAt_eq, pastOf_run hs, hnone, rounding_run]
  rfl

/-- What counts of the entries of a currency decides what it is rounded to at an instant, and nothing else. -/
theorem roundingAt_run_congr (hs : s.past = []) {history history' : List Registration} {c : Currency} {t : Instant}
    (h : ∀ entry, InForce (entriesFor c.code history) t entry ↔ InForce (entriesFor c.code history') t entry) :
    (s.run history').roundingAt c t = (s.run history).roundingAt c t := by
  rcases exists_inForce_or_all_ended (entriesFor c.code history) t with ⟨entry, hentry⟩ | hended
  · rw [roundingAt_of_inForce hs hentry, roundingAt_of_inForce hs ((h entry).1 hentry)]
  · rcases exists_inForce_or_all_ended (entriesFor c.code history') t with ⟨entry, hentry⟩ | hended'
    · have hmem := ((h entry).2 hentry).mem
      exact absurd hmem.2 (hended entry hmem.1).not_gt
    · rw [roundingAt_of_all_ended hs hended, roundingAt_of_all_ended hs hended']

/-- A past rounding is found by time. Of the entries for a currency, that counts which ends first after the instant, and
of those that end together the one that was made first; where none ends after it, the present rounding counts. So
entries that end at different instants may be made in any order, and an entry for another currency, like a named
rounding, may as well be left out. -/
theorem past_found_by_time (s : StandardRoundings) (hs : s.past = []) (c : Currency) (t : Instant)
    (history : List Registration) :
    (∀ entry, InForce (entriesFor c.code history) t entry →
      (s.run history).toSource.roundingAt c t = some entry.operator) ∧
    ((∀ entry ∈ entriesFor c.code history, entry.validUntil ≤ t) →
      (s.run history).toSource.roundingAt c t = s.toSource.rounding c) ∧
    ((∃ entry, InForce (entriesFor c.code history) t entry) ∨
      ∀ entry ∈ entriesFor c.code history, entry.validUntil ≤ t) ∧
    (∀ history', (entriesFor c.code history).Perm (entriesFor c.code history') →
      ((entriesFor c.code history).map PastRounding.validUntil).Nodup →
      (s.run history').toSource.roundingAt c t = (s.run history).toSource.roundingAt c t) ∧
    ∀ before r after, history = before ++ r :: after → r.pastFor? c.code = none →
      (s.run (before ++ after)).toSource.roundingAt c t = (s.run history).toSource.roundingAt c t := by
  refine ⟨fun entry h => ?_, fun h => ?_, exists_inForce_or_all_ended _ t, fun history' hperm hnodup => ?_, ?_⟩
  · exact congrArg some (roundingAt_of_inForce hs h)
  · exact congrArg some (roundingAt_of_all_ended hs h)
  · refine congrArg some (roundingAt_run_congr hs fun entry => ?_)
    have hnodup' := (hperm.map PastRounding.validUntil).nodup_iff.1 hnodup
    simp only [inForce_iff_of_nodup hnodup, inForce_iff_of_nodup hnodup', hperm.mem_iff]
  · rintro before r after rfl hr
    have hentries : entriesFor c.code (before ++ r :: after) = entriesFor c.code (before ++ after) := by
      rw [entriesFor, List.filterMap_append, List.filterMap_cons_none hr, ← List.filterMap_append, ← entriesFor]
    exact congrArg some (roundingAt_run_congr hs fun entry => by rw [hentries])

/-- An entry for a number of places that ends at the beginning of a second, as examples make it. -/
def endingAt (code : String) (seconds : ℤ) (places : ℕ) : PastRounding :=
  ⟨code, .ofSeconds seconds, (PlaceRounding.mk places .halfUp).operator⟩

/-- Entries for euros around one for dollars: the later end is entered first, the earlier one twice. -/
def cutovers : List Registration :=
  [.past (endingAt "EUR" 20 0), .past (endingAt "USD" 12 4), .past (endingAt "EUR" 10 1), .past (endingAt "EUR" 10 3)]

/-- The first of the two entries that end together counts until their end, the other end from there on, and the
present rounding from that end on. -/
theorem past_found_by_time_cutovers :
    (initial.run cutovers).toSource.roundingAt .euro ⟨9, 999999999⟩ = some (endingAt "EUR" 10 1).operator ∧
    (initial.run cutovers).toSource.roundingAt .euro (.ofSeconds 10) = some (endingAt "EUR" 20 0).operator ∧
    (initial.run cutovers).toSource.roundingAt .euro (.ofSeconds 20) = initial.toSource.rounding .euro ∧
    (initial.run (cutovers.take 3).reverse).toSource.roundingAt .euro (.ofSeconds 10) =
      (initial.run (cutovers.take 3)).toSource.roundingAt .euro (.ofSeconds 10) ∧
    (initial.run (cutovers.drop 1)).toSource.roundingAt .dollar (.ofSeconds 10) =
      (initial.run cutovers).toSource.roundingAt .dollar (.ofSeconds 10) := by
  obtain ⟨hbefore, -, -, -, -⟩ := past_found_by_time initial rfl .euro ⟨9, 999999999⟩ cutovers
  obtain ⟨hbetween, -, -, -, -⟩ := past_found_by_time initial rfl .euro (.ofSeconds 10) cutovers
  obtain ⟨-, hbehind, -, -, -⟩ := past_found_by_time initial rfl .euro (.ofSeconds 20) cutovers
  obtain ⟨-, -, -, horder, -⟩ := past_found_by_time initial rfl .euro (.ofSeconds 10) (cutovers.take 3)
  obtain ⟨-, -, -, -, hothers⟩ := past_found_by_time initial rfl .dollar (.ofSeconds 10) cutovers
  have heuros : entriesFor Currency.euro.code cutovers =
      [endingAt "EUR" 20 0, endingAt "EUR" 10 1, endingAt "EUR" 10 3] := rfl
  rw [heuros] at hbefore hbetween hbehind
  refine ⟨hbefore _ ⟨[endingAt "EUR" 20 0], [endingAt "EUR" 10 3], rfl, ?_, ?_, ?_⟩,
    hbetween _ ⟨[], [endingAt "EUR" 10 1, endingAt "EUR" 10 3], rfl, ?_, ?_, ?_⟩, hbehind ?_,
    horder _ ?_ ?_, hothers [] _ _ rfl rfl⟩
  · decide
  · simp [endingAt]; decide
  · decide
  · decide
  · decide
  · simp; decide
  · simp; decide
  · exact List.Perm.swap _ _ _
  · decide

end StandardRoundings

end Coinage
