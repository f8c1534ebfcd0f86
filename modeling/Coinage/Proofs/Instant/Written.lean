import Coinage.Instant.Written
import Coinage.Proofs.Decimal.Written
import Coinage.Proofs.Instant.Calendar
import Mathlib.Data.Nat.Digits.Defs
/-!
# Written instants are read back

Each reader takes what its writer gives from the front of a text and leaves the rest. So the readers of the parts
follow each other through a written instant, and what they give makes up the instant again: `Instant.OnCalendar` says
of which instants this holds.
-/

namespace Coinage

open Decimal

namespace Instant

/-! ### Digits -/

theorem toList_zeroPadded (width n : ℕ) : (zeroPadded width n).toList =
    List.replicate (width - (Nat.toDigits 10 n).length) '0' ++ Nat.toDigits 10 n := by
  rw [zeroPadded, String.toList_ofList]

theorem isDigit_of_mem_zeroPadded {width n : ℕ} {c : Char} (h : c ∈ (zeroPadded width n).toList) : c.isDigit = true := by
  rw [toList_zeroPadded, List.mem_append] at h
  rcases h with hzero | hdigit
  · rw [List.eq_of_mem_replicate hzero]
    rfl
  · exact Nat.isDigit_of_mem_toDigits (by decide) (by decide) hdigit

theorem ofDigitChars_zeroPadded (width n : ℕ) : Nat.ofDigitChars 10 (zeroPadded width n).toList 0 = n := by
  rw [toList_zeroPadded, Nat.ofDigitChars_append, Nat.ofDigitChars_replicate_zero, mul_zero,
    Nat.ofDigitChars_toDigits (by decide) (by decide)]

theorem length_zeroPadded {width n : ℕ} (hwidth : 0 < width) (h : n < 10 ^ width) :
    (zeroPadded width n).toList.length = width := by
  have hlength := Nat.toDigits_length 10 n width hwidth h
  rw [toList_zeroPadded, List.length_append, List.length_replicate]
  omega

theorem zeroPadded_eq_cons (width n : ℕ) : ∃ c rest, (zeroPadded width n).toList = c :: rest ∧ c.isDigit = true := by
  have hne : (zeroPadded width n).toList ≠ [] := by
    rw [toList_zeroPadded]
    exact List.append_ne_nil_of_right_ne_nil _ Nat.toDigits_ne_nil
  obtain ⟨c, rest, heq⟩ := List.exists_cons_of_ne_nil hne
  exact ⟨c, rest, heq, isDigit_of_mem_zeroPadded (by rw [heq]; exact List.mem_cons_self)⟩

theorem zeroPadded_ne_nil (width n : ℕ) : (zeroPadded width n).toList ≠ [] := by
  obtain ⟨c, rest, heq, -⟩ := zeroPadded_eq_cons width n
  rw [heq]
  exact List.cons_ne_nil c rest

theorem foldl_digitValue {ds : List Char} (hds : ∀ c ∈ ds, c.isDigit = true) (init : ℕ) :
    ds.foldl (fun n c => n * 10 + (digitValue? c).getD 0) init = Nat.ofDigitChars 10 ds init := by
  induction ds generalizing init with
  | nil => rfl
  | cons c rest ih =>
    rw [List.foldl_cons, digitValue?_of_isDigit (hds c List.mem_cons_self), Nat.ofDigitChars_cons, mul_comm,
      ih fun d hd => hds d (List.mem_cons_of_mem c hd)]
    rfl

/-- Whether a text does not go on with a digit. -/
def NoDigit (s : List Char) : Prop :=
  ∀ c ∈ s.head?, digitValue? c = none

theorem takeWhile_digits {ds rest : List Char} (hds : ∀ c ∈ ds, c.isDigit = true) (hrest : NoDigit rest) :
    (ds ++ rest).takeWhile (fun c => (digitValue? c).isSome) = ds := by
  rw [List.takeWhile_append_of_pos fun c hc => by rw [digitValue?_of_isDigit (hds c hc)]; rfl]
  cases rest with
  | nil => rw [List.takeWhile_nil, List.append_nil]
  | cons c tail => rw [List.takeWhile_cons_of_neg (by rw [hrest c rfl]; decide), List.append_nil]

/-- Digits are taken up to the most that may be, or to a character that is none. -/
theorem readDigits_append {most : ℕ} {ds rest : List Char} (hds : ∀ c ∈ ds, c.isDigit = true) (hne : ds ≠ [])
    (hmost : ds.length ≤ most) (hstop : ds.length = most ∨ NoDigit rest) :
    readDigits most (ds ++ rest) = some (Nat.ofDigitChars 10 ds 0, rest) := by
  -- What may still be taken of the rest is nothing, or starts as the rest does.
  have hstop' : NoDigit (rest.take (most - ds.length)) := by
    rcases hstop with hfull | hrest
    · rw [hfull, Nat.sub_self, List.take_zero]
      exact fun c hc => nomatch hc
    · intro c hc
      rw [List.head?_take] at hc
      split at hc
      · cases hc
      · exact hrest c hc
  unfold readDigits
  dsimp only
  rw [List.take_append, List.take_of_length_le hmost, takeWhile_digits hds hstop',
    List.isEmpty_eq_false_iff.2 hne, if_neg Bool.false_ne_true, foldl_digitValue hds, List.drop_left]

theorem readDigits_zeroPadded {width n : ℕ} (hwidth : 0 < width) (h : n < 10 ^ width) (rest : List Char) :
    readDigits width ((zeroPadded width n).toList ++ rest) = some (n, rest) := by
  have hlength := length_zeroPadded hwidth h
  rw [readDigits_append (fun _ => isDigit_of_mem_zeroPadded) (zeroPadded_ne_nil width n) hlength.le (.inl hlength),
    ofDigitChars_zeroPadded]

/-! ### Parts of an instant -/

theorem isBlank_of_isDigit {c : Char} (h : c.isDigit = true) : Text.isBlank c = false := by
  rw [Char.isDigit, Bool.and_eq_true, decide_eq_true_iff, decide_eq_true_iff] at h
  have hlow : '0'.toNat ≤ c.toNat := h.1
  have hhigh : c.toNat ≤ '9'.toNat := h.2
  change 48 ≤ c.toNat at hlow
  change c.toNat ≤ 57 at hhigh
  simp only [Text.isBlank, Bool.or_eq_false_iff, Bool.and_eq_false_iff, decide_eq_false_iff_not, beq_eq_false_iff_ne]
  omega

theorem skipBlanks_cons {c : Char} (h : Text.isBlank c = false) (rest : List Char) :
    skipBlanks (c :: rest) = c :: rest :=
  List.dropWhile_cons_of_neg (by rw [h]; decide)

theorem skipBlanks_zeroPadded (width n : ℕ) (rest : List Char) :
    skipBlanks ((zeroPadded width n).toList ++ rest) = (zeroPadded width n).toList ++ rest := by
  obtain ⟨c, tail, heq, hc⟩ := zeroPadded_eq_cons width n
  rw [heq, List.cons_append, skipBlanks_cons (isBlank_of_isDigit hc)]

theorem readMark_cons {mark : Char} (h : Text.isBlank mark = false) (rest : List Char) :
    readMark mark (mark :: rest) = some rest := by
  rw [readMark, skipBlanks_cons h]
  exact if_pos rfl

theorem readField_zeroPadded {least most n : ℕ} (hleast : least ≤ n) (hmost : n ≤ most) (h : n < 100) (rest : List Char) :
    readField least most ((zeroPadded 2 n).toList ++ rest) = some (n, rest) := by
  unfold readField
  rw [skipBlanks_zeroPadded, readDigits_zeroPadded (by decide) h]
  exact if_pos ⟨hleast, hmost⟩

theorem readDigits_signed (n : ℕ) {rest : List Char} (hrest : NoDigit rest) :
    readDigits ((zeroPadded 4 n).toList ++ rest).length ((zeroPadded 4 n).toList ++ rest) = some (n, rest) := by
  have hlength : (zeroPadded 4 n).toList.length ≤ ((zeroPadded 4 n).toList ++ rest).length := by
    rw [List.length_append]
    exact Nat.le_add_right _ _
  rw [readDigits_append (fun _ => isDigit_of_mem_zeroPadded) (zeroPadded_ne_nil 4 n) hlength (.inr hrest),
    ofDigitChars_zeroPadded]

theorem readYear_unsigned {c : Char} (hc : c.isDigit = true) (rest : List Char) :
    readYear (c :: rest) = (readDigits 4 (c :: rest)).map fun (n, left) => ((n : ℤ), left) := by
  unfold readYear
  rw [skipBlanks_cons (isBlank_of_isDigit hc)]
  split
  case h_1 heq | h_2 heq =>
    rw [(List.cons.inj heq).1] at hc
    exact absurd hc (by decide)
  case h_3 => rfl

theorem readYear_minus (rest : List Char) :
    readYear ('-' :: rest) = (readDigits rest.length rest).map fun (n, left) => (-(n : ℤ), left) := by
  unfold readYear
  rw [skipBlanks_cons (by decide)]
  rfl

theorem readYear_plus (rest : List Char) :
    readYear ('+' :: rest) = (readDigits rest.length rest).map fun (n, left) => ((n : ℤ), left) := by
  unfold readYear
  rw [skipBlanks_cons (by decide)]
  rfl

theorem readYear_writtenYear (year : ℤ) {rest : List Char} (hrest : NoDigit rest) :
    readYear ((writtenYear year).toList ++ rest) = some (year, rest) := by
  unfold writtenYear
  split
  case isTrue hplain =>
    obtain ⟨c, tail, heq, hc⟩ := zeroPadded_eq_cons 4 year.toNat
    have hread := readDigits_zeroPadded (by decide : 0 < 4) (by omega : year.toNat < 10 ^ 4) rest
    rw [heq, List.cons_append] at hread ⊢
    rw [readYear_unsigned hc, hread, Option.map_some]
    dsimp only
    rw [Int.toNat_of_nonneg hplain.1]
  case isFalse hsigned =>
    split
    case isTrue hnegative =>
      have hsign : "-".toList = ['-'] := rfl
      rw [String.toList_append, List.append_assoc, hsign, List.singleton_append, readYear_minus,
        readDigits_signed _ hrest, Option.map_some]
      dsimp only
      rw [Int.ofNat_natAbs_of_nonpos hnegative.le, Int.neg_neg]
    case isFalse hpositive =>
      have hsign : "+".toList = ['+'] := rfl
      rw [String.toList_append, List.append_assoc, hsign, List.singleton_append, readYear_plus,
        readDigits_signed _ hrest, Option.map_some]
      dsimp only
      rw [Int.natAbs_of_nonneg (not_lt.1 hpositive)]

/-- A written fraction has three digits, or six, or nine. -/
theorem readFraction_point {width n : ℕ} (hwidth : 0 < width) (hnine : width ≤ 9) (h : n < 10 ^ width) {rest : List Char}
    (hrest : NoDigit rest) :
    readFraction ('.' :: ((zeroPadded width n).toList ++ rest)) = some (n * 10 ^ (9 - width), rest) := by
  have hlength := length_zeroPadded hwidth h
  have hread : readDigits 9 ((zeroPadded width n).toList ++ rest) = some (n, rest) := by
    rw [readDigits_append (fun _ => isDigit_of_mem_zeroPadded) (zeroPadded_ne_nil width n) (by omega) (.inr hrest),
      ofDigitChars_zeroPadded]
  have hgiven : ((zeroPadded width n).toList ++ rest).length - rest.length = width := by
    rw [List.length_append, hlength]
    omega
  have hleft : rest.dropWhile (fun c => (digitValue? c).isSome) = rest := by
    cases rest with
    | nil => rfl
    | cons c tail => exact List.dropWhile_cons_of_neg (by rw [hrest c rfl]; decide)
  change (readDigits 9 _ >>= _) = _
  rw [hread]
  change some (n * 10 ^ (9 - (((zeroPadded width n).toList ++ rest).length - rest.length)), rest.dropWhile _) = _
  rw [hgiven, hleft]

theorem readFraction_written {nanoseconds : ℕ} (h : nanoseconds < 10 ^ 9) :
    readFraction ((writtenFraction nanoseconds).toList ++ ['Z']) = some (nanoseconds, ['Z']) := by
  have hrest : NoDigit ['Z'] := by
    rintro _ ⟨⟩
    rfl
  unfold writtenFraction
  split_ifs with hzero hmilli hmicro
  · rw [hzero]
    rfl
  all_goals
    have hpoint : ".".toList = ['.'] := rfl
    rw [String.toList_append, List.append_assoc, hpoint, List.singleton_append]
  · rw [readFraction_point (by decide) (by decide) (by omega) hrest, Nat.div_mul_cancel (Nat.dvd_of_mod_eq_zero hmilli)]
  · rw [readFraction_point (by decide) (by decide) (by omega) hrest, Nat.div_mul_cancel (Nat.dvd_of_mod_eq_zero hmicro)]
  · rw [readFraction_point (by decide) (by decide) h hrest, Nat.sub_self, pow_zero, mul_one]

/-! ### Instants -/

/-- Whether a clock can show an instant: its year is one that a date can have, and nanoseconds go on beyond a second
only at the end of a minute. -/
structure OnCalendar (t : Instant) : Prop where
  in_range : t.isInRange = true
  nanoseconds_lt : t.nanoseconds < 2 * 10 ^ 9
  leap : 10 ^ 9 ≤ t.nanoseconds → t.seconds % 60 = 59

theorem yearInRange_ofDays {t : Instant} (h : t.isInRange = true) :
    yearInRange (Date.ofDays (Int.fdiv t.seconds 86400)).year = true := by
  rw [isInRange, Bool.and_eq_true, decide_eq_true_iff, decide_eq_true_iff] at h
  obtain ⟨hfirst, hlast⟩ := h
  change Date.newYear firstYear * 86400 ≤ t.seconds at hfirst
  change t.seconds < Date.newYear (lastYear + 1) * 86400 at hlast
  rw [Int.fdiv_eq_ediv_of_nonneg t.seconds (by decide)]
  obtain ⟨hstart, hend⟩ := Date.toDays_mem_year (Date.isValid_ofDays (t.seconds / 86400))
  rw [Date.toDays_ofDays] at hstart hend
  rw [yearInRange, Bool.and_eq_true, decide_eq_true_iff, decide_eq_true_iff]
  constructor
  · by_contra hbefore
    have hle := Date.newYear_le (by omega : (Date.ofDays (t.seconds / 86400)).year + 1 ≤ firstYear)
    omega
  · by_contra hafter
    have hle := Date.newYear_le (by omega : lastYear + 1 ≤ (Date.ofDays (t.seconds / 86400)).year)
    omega

/-- The text of a date, a time of day and a fraction of a second. -/
def fieldsText (date : Date) (hour minute second nanoseconds : ℕ) : List Char :=
  (writtenYear date.year).toList ++ '-' :: ((zeroPadded 2 date.month).toList ++
    '-' :: ((zeroPadded 2 date.day).toList ++ 'T' :: ((zeroPadded 2 hour).toList ++
    ':' :: ((zeroPadded 2 minute).toList ++ ':' :: ((zeroPadded 2 second).toList ++
    ((writtenFraction nanoseconds).toList ++ ['Z']))))))

theorem toList_written (t : Instant) : t.written.toList =
    fieldsText (Date.ofDays (Int.fdiv t.seconds 86400))
      ((t.seconds - Int.fdiv t.seconds 86400 * 86400).toNat / 3600)
      ((t.seconds - Int.fdiv t.seconds 86400 * 86400).toNat / 60 % 60)
      ((t.seconds - Int.fdiv t.seconds 86400 * 86400).toNat % 60 + if 1000000000 ≤ t.nanoseconds then 1 else 0)
      (t.nanoseconds - (if 1000000000 ≤ t.nanoseconds then 1 else 0) * 1000000000) := by
  have hdash : "-".toList = ['-'] := rfl
  have hcolon : ":".toList = [':'] := rfl
  have htime : "T".toList = ['T'] := rfl
  have hzone : "Z".toList = ['Z'] := rfl
  simp only [written, fieldsText, String.toList_append, hdash, hcolon, htime, hzone, List.append_assoc, List.cons_append,
    List.nil_append]

theorem bind_eq_some {α β : Type} {x : Option α} {f : α → Option β} {a : α} {b : β} (hx : x = some a)
    (hf : f a = some b) : (x >>= f) = some b := by
  rw [hx]
  exact hf

/-- What is read of a date, a time of day and a fraction of a second. -/
theorem ofText?_fields {date : Date} {hour minute second nanoseconds : ℕ} (hdate : date.isValid = true)
    (hyear : yearInRange date.year = true) (hhour : hour ≤ 23) (hminute : minute ≤ 59) (hsecond : second ≤ 60)
    (hnanoseconds : nanoseconds < 10 ^ 9) {s : String} (hs : s.toList = fieldsText date hour minute second nanoseconds)
    {t : Instant} (hrange : t.isInRange = true)
    (hseconds : t.seconds = date.toDays * 86400 + (hour * 3600 + minute * 60 + (second - second / 60 : ℕ)))
    (hfraction : t.nanoseconds = nanoseconds + second / 60 * 1000000000) : ofText? s = some t := by
  obtain ⟨⟨hmonth, hmonth'⟩, hday, hday'⟩ := (Date.isValid_iff _).1 hdate
  have hlength := Date.daysInMonth_le date.year date.month
  have hdash : ∀ rest, NoDigit ('-' :: rest) := by
    rintro rest _ ⟨⟩
    rfl
  unfold ofText?
  rw [hs, fieldsText]
  refine bind_eq_some (readYear_writtenYear date.year (hdash _)) ?_
  refine bind_eq_some (readMark_cons (by decide) _) ?_
  refine bind_eq_some (readField_zeroPadded hmonth hmonth' (by omega) _) ?_
  refine bind_eq_some (readMark_cons (by decide) _) ?_
  refine bind_eq_some (readField_zeroPadded hday (hday'.trans hlength) (by omega) _) ?_
  refine bind_eq_some rfl ?_
  refine bind_eq_some (readField_zeroPadded (Nat.zero_le hour) hhour (by omega) _) ?_
  refine bind_eq_some (readMark_cons (by decide) _) ?_
  refine bind_eq_some (readField_zeroPadded (Nat.zero_le minute) hminute (by omega) _) ?_
  refine bind_eq_some (readMark_cons (by decide) _) ?_
  refine bind_eq_some (readField_zeroPadded (Nat.zero_le second) hsecond (by omega) _) ?_
  refine bind_eq_some (readFraction_written hnanoseconds) ?_
  have hzone : readOffset (skipBlanks ['Z']) = some (0, []) := rfl
  refine bind_eq_some hzone ?_
  -- A second numbered 60 is read as a whole second of nanoseconds behind the one numbered 59.
  have ht : (⟨date.toDays * 86400 + ((hour : ℤ) * 3600 + minute * 60 + (second - (second / 60 : ℕ))) - 0,
      nanoseconds + second / 60 * 1000000000⟩ : Instant) = t := by
    obtain ⟨seconds, rest⟩ := t
    dsimp only at hseconds hfraction
    rw [Instant.mk.injEq]
    omega
  refine (if_pos ⟨hyear, hdate, rfl⟩).trans ?_
  dsimp only
  rw [ht]
  exact if_pos hrange

/-- A written instant is read back. -/
theorem ofText?_written {t : Instant} (h : t.OnCalendar) : ofText? t.written = some t := by
  have hday : Int.fdiv t.seconds 86400 = t.seconds / 86400 := Int.fdiv_eq_ediv_of_nonneg t.seconds (by decide)
  have hyear := yearInRange_ofDays h.in_range
  have hs := toList_written t
  rw [hday] at hyear hs
  have hleap : ∀ leap, leap = (if 1000000000 ≤ t.nanoseconds then 1 else 0) →
      leap = 0 ∧ t.nanoseconds < 10 ^ 9 ∨
        leap = 1 ∧ 10 ^ 9 ≤ t.nanoseconds ∧ t.nanoseconds < 2 * 10 ^ 9 ∧ t.seconds % 60 = 59 := by
    rintro leap rfl
    split
    case isTrue hlong => exact .inr ⟨rfl, hlong, h.nanoseconds_lt, h.leap hlong⟩
    case isFalse hshort => exact .inl ⟨rfl, not_le.1 hshort⟩
  generalize (if 1000000000 ≤ t.nanoseconds then 1 else 0) = leap at hs hleap
  specialize hleap leap rfl
  refine ofText?_fields (Date.isValid_ofDays (t.seconds / 86400)) hyear ?_ ?_ ?_ ?_ hs h.in_range ?_ ?_
  all_goals try rw [Date.toDays_ofDays]
  all_goals omega

/-! ### What can be read -/

theorem digitValue?_getD_lt (c : Char) : (digitValue? c).getD 0 < 10 := by
  unfold digitValue?
  split
  case isTrue h =>
    have hnine : c.toNat ≤ 57 := h.2
    change c.toNat - 48 < 10
    omega
  case isFalse => exact Nat.succ_pos 9

theorem foldl_digitValue_lt (ds : List Char) (init : ℕ) :
    ds.foldl (fun n c => n * 10 + (digitValue? c).getD 0) init < (init + 1) * 10 ^ ds.length := by
  induction ds generalizing init with
  | nil => simp
  | cons c rest ih =>
    have hdigit := digitValue?_getD_lt c
    calc (c :: rest).foldl (fun n c => n * 10 + (digitValue? c).getD 0) init
        < (init * 10 + (digitValue? c).getD 0 + 1) * 10 ^ rest.length := ih _
      _ ≤ ((init + 1) * 10) * 10 ^ rest.length := Nat.mul_le_mul_right _ (by omega)
      _ = (init + 1) * 10 ^ (c :: rest).length := by rw [List.length_cons, pow_succ]; ring

theorem readDigits_lt {most n : ℕ} {s rest : List Char} (h : readDigits most s = some (n, rest)) :
    s.length - rest.length ≤ most ∧ n < 10 ^ (s.length - rest.length) := by
  unfold readDigits at h
  dsimp only at h
  split at h
  · cases h
  cases h
  have hprefix : ((s.take most).takeWhile fun c => (digitValue? c).isSome).length ≤ (s.take most).length :=
    (List.takeWhile_prefix _).length_le
  rw [List.length_take] at hprefix
  have hlength : s.length - (s.drop ((s.take most).takeWhile fun c => (digitValue? c).isSome).length).length =
      ((s.take most).takeWhile fun c => (digitValue? c).isSome).length := by
    rw [List.length_drop]
    omega
  have hlt := foldl_digitValue_lt ((s.take most).takeWhile fun c => (digitValue? c).isSome) 0
  rw [zero_add, one_mul] at hlt
  rw [hlength]
  exact ⟨by omega, hlt⟩

theorem readField_le {least most n : ℕ} {s rest : List Char} (h : readField least most s = some (n, rest)) : n ≤ most := by
  unfold readField at h
  obtain ⟨⟨n, rest⟩, -, h⟩ := Option.bind_eq_some_iff.1 h
  dsimp only at h
  split at h
  case isTrue hlimits =>
    cases h
    exact hlimits.2
  case isFalse => cases h

theorem readFraction_lt {n : ℕ} {s rest : List Char} (h : readFraction s = some (n, rest)) : n < 10 ^ 9 := by
  unfold readFraction at h
  split at h
  case h_1 tail =>
    obtain ⟨⟨n, left⟩, hread, h⟩ := Option.bind_eq_some_iff.1 h
    cases h
    obtain ⟨hgiven, hlt⟩ := readDigits_lt hread
    calc n * 10 ^ (9 - (tail.length - left.length))
        < 10 ^ (tail.length - left.length) * 10 ^ (9 - (tail.length - left.length)) :=
          Nat.mul_lt_mul_of_pos_right hlt (by positivity)
      _ = 10 ^ 9 := by rw [← pow_add, Nat.add_sub_cancel' hgiven]
  case h_2 =>
    cases h
    decide

/-- An offset is a whole number of minutes. -/
theorem readOffset_minutes {offset : ℤ} {s rest : List Char} (h : readOffset s = some (offset, rest)) : offset % 60 = 0 := by
  unfold readOffset at h
  split at h
  case h_2 => cases h
  split_ifs at h
  · cases h
    rfl
  · cases h
    rfl
  all_goals
    obtain ⟨⟨hours, rest⟩, -, h⟩ := Option.bind_eq_some_iff.1 h
    obtain ⟨⟨minutes, left⟩, -, h⟩ := Option.bind_eq_some_iff.1 h
    dsimp only at h
    split at h
    · cases h
      omega
    · cases h

/-- Every instant that is read is one of the calendar, so exactly those are read back as they were written. -/
theorem onCalendar_of_ofText? {s : String} {t : Instant} (h : ofText? s = some t) : t.OnCalendar := by
  unfold ofText? at h
  obtain ⟨⟨year, rest⟩, -, h⟩ := Option.bind_eq_some_iff.1 h
  obtain ⟨rest, -, h⟩ := Option.bind_eq_some_iff.1 h
  obtain ⟨⟨month, rest⟩, -, h⟩ := Option.bind_eq_some_iff.1 h
  obtain ⟨rest, -, h⟩ := Option.bind_eq_some_iff.1 h
  obtain ⟨⟨day, rest⟩, -, h⟩ := Option.bind_eq_some_iff.1 h
  dsimp only at h
  split at h
  case h_2 => cases h
  split at h
  case isFalse => cases h
  obtain ⟨rest, -, h⟩ := Option.bind_eq_some_iff.1 h
  obtain ⟨⟨hour, rest⟩, -, h⟩ := Option.bind_eq_some_iff.1 h
  obtain ⟨rest, -, h⟩ := Option.bind_eq_some_iff.1 h
  obtain ⟨⟨minute, rest⟩, -, h⟩ := Option.bind_eq_some_iff.1 h
  obtain ⟨rest, -, h⟩ := Option.bind_eq_some_iff.1 h
  obtain ⟨⟨second, rest⟩, hsecond, h⟩ := Option.bind_eq_some_iff.1 h
  obtain ⟨⟨fraction, rest⟩, hfraction, h⟩ := Option.bind_eq_some_iff.1 h
  obtain ⟨⟨offset, rest⟩, hoffset, h⟩ := Option.bind_eq_some_iff.1 h
  dsimp only at h
  split at h
  case isFalse => cases h
  split at h
  case isFalse => cases h
  case isTrue hrange =>
    have hsecond' := readField_le hsecond
    have hfraction' := readFraction_lt hfraction
    have hminutes := readOffset_minutes hoffset
    cases h
    refine { in_range := hrange, nanoseconds_lt := ?_, leap := fun hlong => ?_ }
    · dsimp only
      omega
    · dsimp only at hlong ⊢
      omega

theorem ofText?_written_iff {t : Instant} : ofText? t.written = some t ↔ t.OnCalendar :=
  ⟨onCalendar_of_ofText?, ofText?_written⟩

end Instant

end Coinage
