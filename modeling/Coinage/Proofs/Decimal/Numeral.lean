import Coinage.Numeric
import Coinage.Proofs.Decimal.Nearest
import Coinage.Proofs.Decimal.Reading
import Mathlib.Data.List.TakeWhile
/-!
# The number that a text spells

A text spells a number by its sign, its digits on both sides of the point and its exponent; blanks around it and
underscores do not count. `Numeric.ofText` takes a text without an exponent with all its digits or not at all. The
digits before an exponent go through the rounding reader, so there some may be lost: the decimal is the number spelled
just where those digits alone are a decimal.
-/

namespace Coinage

open Decimal

/-- A number as it is spelled: digits before and behind the point, and an exponent if one is written. -/
structure Numeral where
  negative : Bool
  whole : List Char
  fraction : List Char
  exponent : Option ℤ := none
  digits : (whole ++ fraction).all Char.isDigit = true
  ne_nil : (whole ++ fraction).isEmpty = false

namespace Numeral

/-- The number that the digits before an exponent spell. -/
def significand (n : Numeral) : ℚ :=
  withSign n.negative (Nat.ofDigitChars 10 (n.whole ++ n.fraction) 0) / 10 ^ n.fraction.length

def value (n : Numeral) : ℚ :=
  n.significand * 10 ^ n.exponent.getD 0

/-- What a text without an exponent spells. -/
def plain? (s : List Char) : Option Numeral :=
  let (negative, body) := splitSign s
  let whole := body.takeWhile (· != '.')
  let fraction := (body.dropWhile (· != '.')).tail
  if h : (whole ++ fraction).all Char.isDigit = true ∧ (whole ++ fraction).isEmpty = false then
    some { negative := negative, whole := whole, fraction := fraction, digits := h.1, ne_nil := h.2 }
  else none

/-- A text without a plus before it. -/
def dropPlus (s : List Char) : List Char :=
  match s with
  | '+' :: rest => rest
  | _ => s

/-- A digit string as a number; a plus may stand before it. -/
def natural? (s : List Char) : Option ℕ :=
  if (dropPlus s).all Char.isDigit = true ∧ (dropPlus s).isEmpty = false then some (Nat.ofDigitChars 10 (dropPlus s) 0)
  else none

def exponent? : List Char → Option ℤ
  | '-' :: rest => (natural? rest).map fun k : ℕ => -(k : ℤ)
  | s => (natural? s).map fun k : ℕ => (k : ℤ)

/-- What a text spells. -/
def ofChars? (s : List Char) : Option Numeral :=
  match s.span (fun c => c != 'e' && c != 'E') with
  | (body, []) => plain? body
  | (body, _ :: exponent) => do
    let n ← plain? body
    let k ← exponent? exponent
    return { n with exponent := some k }

/-- What a text spells, blanks around it and underscores aside. -/
def ofText? (t : String) : Option Numeral :=
  ofChars? ((Text.trim t.toList).filter (· != '_'))

end Numeral

namespace Decimal

/-! ### Numerals without an exponent -/

theorem splitSign_of_head {s : List Char} (h : ∀ c ∈ s.head?, c ≠ '-' ∧ c ≠ '+') : splitSign s = (false, s) := by
  unfold splitSign
  split
  · exact absurd rfl (h '-' rfl).1
  · exact absurd rfl (h '+' rfl).2
  · rfl

/-- Without underscores, a text has the same sign and the same digits. -/
theorem splitSign_filter {s body : List Char} {negative : Bool} (hs : splitSign s = (negative, body))
    (hbody : ∀ c ∈ (body.filter (· != '_')).head?, c ≠ '-' ∧ c ≠ '+') :
    splitSign (s.filter (· != '_')) = (negative, body.filter (· != '_')) := by
  unfold splitSign at hs
  split at hs <;> cases hs
  · rfl
  · rfl
  · exact splitSign_of_head hbody

theorem takeWhile_whole {whole rest : List Char} (hwhole : ∀ c ∈ whole, c.isDigit = true)
    (hrest : ∀ c ∈ rest.head?, c = '.') :
    (whole ++ rest).takeWhile (· != '.') = whole ∧ (whole ++ rest).dropWhile (· != '.') = rest := by
  have hne : ∀ c ∈ whole, (c != '.') = true := fun c hc =>
    bne_iff_ne.2 fun hno => by rw [hno] at hc; exact absurd (hwhole '.' hc) (by decide)
  rw [List.takeWhile_append_of_pos hne, List.dropWhile_append_of_pos hne]
  cases rest with
  | nil => exact ⟨List.append_nil whole, rfl⟩
  | cons c tail =>
    obtain rfl := hrest c rfl
    exact ⟨List.append_nil whole, rfl⟩

theorem head_ne_sign {whole rest : List Char} (hwhole : ∀ c ∈ whole, c.isDigit = true)
    (hrest : ∀ c ∈ rest.head?, c = '.') : ∀ c ∈ (whole ++ rest).head?, c ≠ '-' ∧ c ≠ '+' := by
  intro c hc
  cases whole with
  | nil =>
    rw [hrest c hc]
    decide
  | cons first others =>
    have hdigit := hwhole c (List.mem_cons.2 (.inl (Option.some.inj hc).symm))
    constructor <;> rintro rfl <;> exact absurd hdigit (by decide)

/-- A text that the rounding reader goes through spells the digits that it has seen. -/
theorem plain?_of_foldlM {s body : List Char} {negative : Bool} {r : Reading} (hs : splitSign s = (negative, body))
    (hr : body.foldlM Reading.step {} = .ok r) (hsaw : r.sawDigit = true) :
    ∃ n : Numeral, Numeral.plain? (s.filter (· != '_')) = some n ∧ n.exponent = none ∧ n.negative = negative ∧
      r.Took (Nat.ofDigitChars 10 (n.whole ++ n.fraction) 0) n.fraction.length := by
  obtain ⟨whole, fraction, h⟩ := Reading.stands_start.foldlM hr
  rw [List.nil_append] at h
  obtain ⟨rest, htext, hrest, htail⟩ := h.exists_rest
  have hwhole : ∀ c ∈ whole, c.isDigit = true := fun c hc => h.digits c (List.mem_append_left _ hc)
  have hhead : ∀ c ∈ (body.filter (· != '_')).head?, c ≠ '-' ∧ c ≠ '+' := htext ▸ head_ne_sign hwhole hrest
  obtain ⟨hbefore, hbehind⟩ := takeWhile_whole hwhole hrest
  have hdigits : (whole ++ fraction).all Char.isDigit = true := List.all_eq_true.2 h.digits
  have hne : (whole ++ fraction).isEmpty = false := List.isEmpty_eq_false_iff.2 (h.ne_nil hsaw)
  refine ⟨{ negative := negative, whole := whole, fraction := fraction, digits := hdigits, ne_nil := hne }, ?_, rfl, rfl,
    h.took⟩
  unfold Numeral.plain?
  rw [splitSign_filter hs hhead, htext]
  simp only [hbefore, hbehind, htail, dif_pos (And.intro hdigits hne)]

/-- What the rounding reader takes is the number spelled, or no decimal stands for that. -/
theorem plain?_of_readRounded {s : List Char} {d : Decimal} (h : readRounded s = .ok d) :
    ∃ n : Numeral, Numeral.plain? (s.filter (· != '_')) = some n ∧
      (d.value = n.significand ↔ Representable n.significand) := by
  unfold readRounded at h
  split_ifs at h
  rcases hs : splitSign s with ⟨negative, body⟩
  rw [hs] at h
  dsimp only at h
  split at h
  case h_1 => cases h
  case h_2 r hr =>
    split_ifs at h with hsaw
    split at h
    case h_2 => cases h
    case h_1 d' hd =>
      cases h
      rw [Bool.not_eq_true', Bool.not_eq_false] at hsaw
      obtain ⟨n, hn, -, rfl, htook⟩ := plain?_of_foldlM hs hr hsaw
      exact ⟨n, hn, htook.value_eq_iff hd⟩

/-- What the exact reader takes is the number spelled. -/
theorem plain?_of_readExact? {s : List Char} {d : Decimal} (h : readExact? s = some d) :
    ∃ n : Numeral, Numeral.plain? (s.filter (· != '_')) = some n ∧ n.exponent = none ∧ d.value = n.significand := by
  unfold readExact? at h
  rcases hs : splitSign s with ⟨negative, body⟩
  rw [hs] at h
  dsimp only at h
  split at h
  case h_1 => cases h
  case h_2 r hr =>
    split_ifs at h with hsaw
    obtain ⟨hstep, hfull⟩ := Reading.foldlM_of_stepExact? rfl (Nat.zero_le _) hr
    obtain ⟨n, hn, hexponent, rfl, htook⟩ := plain?_of_foldlM hs hstep hsaw
    refine ⟨n, hn, hexponent, ?_⟩
    rcases htook with hholds | ⟨_, _, -, hkeeps⟩
    · rw [value_ofParts? h, hholds.magnitude_eq, hholds.places_eq, Numeral.significand]
    · rw [hkeeps.full] at hfull
      exact absurd hfull (by decide)

/-! ### Exponents -/

theorem span_filter (s : List Char) :
    (s.filter (· != '_')).span (fun c => c != 'e' && c != 'E') =
      ((s.takeWhile (fun c => c != 'e' && c != 'E')).filter (· != '_'),
        (s.dropWhile (fun c => c != 'e' && c != 'E')).filter (· != '_')) := by
  have hsame : (fun c : Char => !(c != '_') || (c != 'e' && c != 'E')) = fun c => c != 'e' && c != 'E' := by
    funext c
    by_cases hc : c = '_'
    · rw [hc]
      decide
    · rw [bne_iff_ne.2 hc, Bool.not_true, Bool.false_or]
  rw [List.span_eq_takeWhile_dropWhile, List.takeWhile_filter, List.dropWhile_filter, hsame]

theorem mem_splitSign {s body : List Char} {negative : Bool} (hs : splitSign s = (negative, body)) {c : Char}
    (hc : c ∈ s) : c = '-' ∨ c = '+' ∨ c ∈ body := by
  unfold splitSign at hs
  split at hs <;> cases hs
  · exact (List.mem_cons.1 hc).imp_right .inr
  · exact .inr (List.mem_cons.1 hc)
  · exact .inr (.inr hc)

theorem mem_point {body : List Char} {c : Char} (hc : c ∈ body) :
    c ∈ body.takeWhile (· != '.') ++ (body.dropWhile (· != '.')).tail ∨ c = '.' := by
  rw [← List.takeWhile_append_dropWhile (p := (· != '.')) (l := body)] at hc
  have hpoint := List.head?_dropWhile_not (· != '.') body
  cases hrest : body.dropWhile (· != '.') with
  | nil =>
    rw [hrest] at hc
    exact .inl hc
  | cons first others =>
    rw [hrest] at hc hpoint
    obtain rfl : first = '.' := by simpa using hpoint
    rcases List.mem_append.1 hc with hc | hc
    · exact .inl (List.mem_append_left _ hc)
    · exact (List.mem_cons.1 hc).symm.imp_left (List.mem_append_right _)

/-- A text without an exponent has no mark of one. -/
theorem forall_of_plain? {s : List Char} {n : Numeral} (h : Numeral.plain? s = some n) :
    ∀ c ∈ s, (c != 'e' && c != 'E') = true := by
  unfold Numeral.plain? at h
  rcases hs : splitSign s with ⟨negative, body⟩
  rw [hs] at h
  dsimp only at h
  split_ifs at h with hparts
  intro c hc
  rcases mem_splitSign hs hc with rfl | rfl | hc
  · decide
  · decide
  · rcases mem_point hc with hc | rfl
    · have hdigit := List.all_eq_true.1 hparts.1 c hc
      rw [Bool.and_eq_true, bne_iff_ne, bne_iff_ne]
      constructor <;> rintro rfl <;> exact absurd hdigit (by decide)
    · decide

theorem foldlM_digits {ds : List Char} {init n : ℕ}
    (h : ds.foldlM (fun n c => (digitValue? c).map (n * 10 + ·)) init = some n) :
    (∀ c ∈ ds, c.isDigit = true) ∧ n = Nat.ofDigitChars 10 ds init := by
  induction ds generalizing init with
  | nil =>
    cases h
    exact ⟨fun c hc => (nomatch hc), Nat.ofDigitChars_nil.symm⟩
  | cons c rest ih =>
    rw [List.foldlM_cons] at h
    obtain ⟨next, hnext, h⟩ := Option.bind_eq_some_iff.1 h
    obtain ⟨v, hv, rfl⟩ := Option.map_eq_some_iff.1 hnext
    obtain ⟨hc, rfl⟩ := digitValue?_eq_some hv
    obtain ⟨hrest, rfl⟩ := ih h
    refine ⟨List.forall_mem_cons.2 ⟨hc, hrest⟩, ?_⟩
    rw [Nat.ofDigitChars_cons, mul_comm]

theorem filter_digits {ds : List Char} (h : ∀ c ∈ ds, c.isDigit = true) : ds.filter (· != '_') = ds :=
  List.filter_eq_self.2 fun c hc => bne_iff_ne.2 fun hno => by rw [hno] at hc; exact absurd (h '_' hc) (by decide)

theorem eq_dropPlus_or (s : List Char) : s = Numeral.dropPlus s ∨ s = '+' :: Numeral.dropPlus s := by
  unfold Numeral.dropPlus
  split
  · exact .inr rfl
  · exact .inl rfl

/-- An exponent is read from its digits, without a plus before them. -/
theorem readExponent?_eq (s : List Char) :
    readExponent? s =
      if (Numeral.dropPlus s).isEmpty then none
      else ((Numeral.dropPlus s).foldlM (fun n c => (digitValue? c).map (n * 10 + ·)) 0).filter (· < 2 ^ 32) := by
  unfold readExponent? Numeral.dropPlus
  split
  case h_1 rest =>
    cases hread : rest.foldlM (fun n c => (digitValue? c).map (n * 10 + ·)) 0 <;> simp [hread, Option.filter_some]
  case h_2 =>
    cases hread : s.foldlM (fun n c => (digitValue? c).map (n * 10 + ·)) 0 <;> simp [hread, Option.filter_some]

/-- An exponent that is read is spelled, and holds no underscore. -/
theorem natural?_of_readExponent? {s : List Char} {k : ℕ} (h : readExponent? s = some k) :
    Numeral.natural? s = some k ∧ s.filter (· != '_') = s := by
  rw [readExponent?_eq] at h
  split_ifs at h with hempty
  obtain ⟨hdigits, rfl⟩ := foldlM_digits (Option.filter_eq_some_iff.1 h).1
  refine ⟨if_pos ⟨List.all_eq_true.2 hdigits, Bool.eq_false_of_not_eq_true hempty⟩, ?_⟩
  rcases eq_dropPlus_or s with hs | hs <;> rw [hs]
  · exact filter_digits hdigits
  · exact congrArg ('+' :: ·) (filter_digits hdigits)

theorem exponent?_minus {s : List Char} {k : ℕ} (h : readExponent? s = some k) :
    Numeral.exponent? (('-' :: s).filter (· != '_')) = some (-k : ℤ) := by
  obtain ⟨hnatural, hfilter⟩ := natural?_of_readExponent? h
  rw [List.filter_cons_of_pos (by decide), hfilter]
  exact congrArg (Option.map fun k : ℕ => -(k : ℤ)) hnatural

theorem exponent?_plain {s : List Char} {k : ℕ} (h : readExponent? s = some k) (hminus : ∀ rest, s ≠ '-' :: rest) :
    Numeral.exponent? (s.filter (· != '_')) = some (k : ℤ) := by
  obtain ⟨hnatural, hfilter⟩ := natural?_of_readExponent? h
  rw [hfilter]
  unfold Numeral.exponent?
  split
  case h_1 rest => exact absurd rfl (hminus rest)
  case h_2 => rw [hnatural, Option.map_some]

theorem value_shiftRight {d e : Decimal} {k : ℕ} (h : d.shiftRight k = .ok e) : e.value = d.value * 10 ^ (-k : ℤ) := by
  unfold shiftRight at h
  split_ifs at h
  split at h
  case h_1 he =>
    cases h
    rw [value_ofParts? he, value, zpow_neg, zpow_natCast, pow_add, ← div_div, div_eq_mul_inv _ ((10 : ℚ) ^ k)]
  case h_2 => cases h

/-- A product with a power of ten that has no places left is an integer, and is not rounded. -/
theorem value_shiftLeft {d e : Decimal} {k : ℕ} (h : d.shiftLeft k = .ok e) : e.value = d.value * 10 ^ (k : ℤ) := by
  unfold shiftLeft at h
  split_ifs at h with hplaces hmax
  · cases h
    obtain ⟨j, hj⟩ := Nat.exists_eq_add_of_le hplaces
    rw [value_ofDigits, value, zpow_natCast, hj, Nat.add_sub_cancel_left, pow_add]
    field_simp
  · split at h
    case h_1 => cases h
    case h_2 factor hfactor =>
      split at h
      case h_2 => cases h
      case h_1 product hproduct =>
        cases h
        have hfactor_value : factor.value = 10 ^ k := by
          rw [value_ofParts? hfactor]
          norm_num
        have hnearest := map_value_mul? d factor
        obtain ⟨j, rfl⟩ := Nat.exists_eq_add_of_le (not_le.1 hplaces).le
        have hinteger : d.value * 10 ^ (d.scale + j) = ((d.mantissa * 10 ^ j : ℤ) : ℚ) := by
          rw [value, pow_add]
          push_cast
          field_simp
        rw [hproduct, Option.map_some, hfactor_value, hinteger] at hnearest
        rw [value_normalize, zpow_natCast, hinteger]
        exact nearestValue?_intCast hnearest.symm

/-- A text that spells a significand and an exponent. -/
theorem ofChars?_scientific {s base exponent : List Char} {mark : Char} {n : Numeral} {k : ℤ}
    (hs : s.span (fun c => c != 'e' && c != 'E') = (base, mark :: exponent))
    (hbase : Numeral.plain? (base.filter (· != '_')) = some n)
    (hexponent : Numeral.exponent? (exponent.filter (· != '_')) = some k) :
    Numeral.ofChars? (s.filter (· != '_')) = some { n with exponent := some k } := by
  rw [List.span_eq_takeWhile_dropWhile, Prod.mk.injEq] at hs
  have hmark : (mark != 'e' && mark != 'E') = false := by
    have hhead := List.head?_dropWhile_not (fun c => c != 'e' && c != 'E') s
    rwa [hs.2] at hhead
  have hkeep : (mark != '_') = true := bne_iff_ne.2 fun hno => by
    rw [hno] at hmark
    exact absurd hmark (by decide)
  unfold Numeral.ofChars?
  rw [span_filter, hs.1, hs.2, List.filter_cons_of_pos (p := (· != '_')) hkeep]
  dsimp only
  rw [hbase, hexponent]
  rfl

/-- With an exponent, the number spelled is read unless its significand was rounded. -/
theorem value_eq_iff_of_shifted {n : Numeral} {d e : Decimal} {k : ℤ} (he : e.value = d.value * 10 ^ k)
    (hd : d.value = n.significand ↔ Representable n.significand) :
    e.value = { n with exponent := some k : Numeral }.value ↔ Representable n.significand := by
  rw [he, ← hd]
  exact mul_left_inj' (zpow_ne_zero k (by norm_num))

theorem value_readScientific {s : List Char} {d : Decimal} (h : readScientific shiftRight s = .ok d) :
    ∃ n : Numeral, Numeral.ofChars? (s.filter (· != '_')) = some n ∧ n.exponent ≠ none ∧
      (d.value = n.value ↔ Representable n.significand) := by
  unfold readScientific at h
  split at h
  case h_1 => cases h
  case h_2 base mark exponent hs =>
    split at h
    case h_1 => cases h
    case h_2 significand hsignificand =>
      obtain ⟨n, hn, hvalue⟩ := plain?_of_readRounded hsignificand
      split at h
      case h_1 digits =>
        split at h
        case h_2 => cases h
        case h_1 places hplaces =>
          exact ⟨_, ofChars?_scientific hs hn (exponent?_minus hplaces), Option.some_ne_none _,
            value_eq_iff_of_shifted (value_shiftRight h) hvalue⟩
      case h_2 hminus =>
        split at h
        case h_2 => cases h
        case h_1 places hplaces =>
          exact ⟨_, ofChars?_scientific hs hn (exponent?_plain hplaces hminus), Option.some_ne_none _,
            value_eq_iff_of_shifted (value_shiftLeft h) hvalue⟩

theorem value_read {s : List Char} {d : Decimal} (h : read s = .ok d) :
    ∃ n : Numeral, Numeral.ofChars? (s.filter (· != '_')) = some n ∧ (n.exponent = none → d.value = n.value) ∧
      (d.value = n.value ↔ Representable n.significand) := by
  unfold read at h
  split at h
  case h_1 exact hexact =>
    cases h
    obtain ⟨n, hn, hexponent, hvalue⟩ := plain?_of_readExact? hexact
    have hplain : n.value = n.significand := by
      rw [Numeral.value, hexponent, Option.getD_none, zpow_zero, mul_one]
    refine ⟨n, ?_, fun _ => hvalue.trans hplain.symm, iff_of_true (hvalue.trans hplain.symm) ⟨d, hvalue⟩⟩
    have hmarks := forall_of_plain? hn
    unfold Numeral.ofChars?
    rw [List.span_eq_takeWhile_dropWhile, List.takeWhile_eq_self_iff.2 hmarks, List.dropWhile_eq_nil_iff.2 hmarks]
    exact hn
  case h_2 =>
    obtain ⟨n, hn, hexponent, hiff⟩ := value_readScientific h
    exact ⟨n, hn, fun hno => absurd hno hexponent, hiff⟩

end Decimal

namespace Numeric

/-- Every text that is taken spells a number. Without an exponent the decimal is that number; with one it is, unless the
digits before the exponent have been rounded, because they alone are no decimal. -/
theorem ofText_exact_iff {t : String} {d : Decimal} (h : ofText t = .ok d) :
    ∃ n : Numeral, Numeral.ofText? t = some n ∧ (n.exponent = none → d.value = n.value) ∧
      (d.value = n.value ↔ Representable n.significand) := by
  unfold ofText at h
  split at h
  case h_1 hread =>
    cases h
    exact value_read hread
  case h_2 => cases h

/-- ` 1_234.50e-3` is `1.23450`. -/
theorem ofText_exact_iff_thousandths :
    ∃ d, ofText " 1_234.50e-3" = .ok d ∧ ∃ n : Numeral, Numeral.ofText? " 1_234.50e-3" = some n ∧
      n.exponent = some (-3) ∧ d.value = n.value := by
  have hread : ofText " 1_234.50e-3" = .ok (ofDigits 123450 5 (by decide)) := by rfl
  obtain ⟨n, hn, -, hiff⟩ := ofText_exact_iff hread
  have hspelled : Numeral.ofText? " 1_234.50e-3" =
      some ⟨false, ['1', '2', '3', '4'], ['5', '0'], some (-3), by decide, by decide⟩ := by rfl
  cases hn.symm.trans hspelled
  refine ⟨_, hread, _, hn, rfl, hiff.2 ⟨ofDigits 123450 2 (by decide), ?_⟩⟩
  rw [value_ofDigits]
  rfl

/-- A text that spells `10 ^ (-28)`, which a decimal stands for. It is taken as zero: its digit stands one place too far
behind the point before the exponent moves it back. -/
theorem ofText_loses_digit :
    ∃ d n, ofText "0.00000000000000000000000000001e1" = .ok d ∧
      Numeral.ofText? "0.00000000000000000000000000001e1" = some n ∧ d.value = 0 ∧ n.value = 1 / 10 ^ 28 := by
  refine ⟨ofDigits 0 27 (by decide),
    ⟨false, ['0'], List.replicate 28 '0' ++ ['1'], some 1, by decide, by decide⟩, by rfl, by rfl, ?_, ?_⟩
  · rw [value_ofDigits, Int.cast_zero, zero_div]
  · rw [Numeral.value, Numeral.significand]
    have hdigits : Nat.ofDigitChars 10 (['0'] ++ (List.replicate 28 '0' ++ ['1'])) 0 = 1 := by rfl
    simp only [hdigits]
    norm_num [withSign]

end Numeric

end Coinage
