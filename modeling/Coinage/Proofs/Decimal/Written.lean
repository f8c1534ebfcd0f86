import Coinage.Decimal.Numeral
import Coinage.Decimal.Written
import Coinage.Proofs.Decimal.Value
import Coinage.Proofs.Outcome
/-!
# The written form is read back

The rounding reader takes digits one by one, and none of a written decimal is too many for it. So it gives
back the mantissa and the scale that were written.
-/

namespace Coinage

namespace Decimal

/-! ### Digits -/

theorem digitValue?_of_isDigit {c : Char} (h : c.isDigit = true) : digitValue? c = some (c.toNat - '0'.toNat) := by
  rw [Char.isDigit, Bool.and_eq_true, decide_eq_true_iff, decide_eq_true_iff] at h
  exact if_pos h

theorem le_ofDigitChars (ds : List Char) (init : ℕ) : init ≤ Nat.ofDigitChars 10 ds init := by
  rw [Nat.ofDigitChars_eq_ofDigitChars_zero]
  exact (Nat.le_mul_of_pos_left init (by positivity)).trans (Nat.le_add_right _ _)

/-- The reading behind some digits that all fit. -/
def Reading.extend (r : Reading) (ds : List Char) : Reading :=
  { r with
    magnitude := Nat.ofDigitChars 10 ds r.magnitude
    places := r.places + r.sawPoint.toNat * ds.length
    sawDigit := r.sawDigit || !ds.isEmpty }

theorem Reading.step_digit {r : Reading} {c : Char} (hc : c.isDigit = true) (hfull : r.isFull = false)
    (hplaces : r.places < maxScale) (hfits : r.magnitude * 10 + (c.toNat - '0'.toNat) < capacity) :
    r.step c = .ok (r.append (c.toNat - '0'.toNat)) := by
  rw [Reading.step, digitValue?_of_isDigit hc]
  dsimp only
  rw [hfull, if_neg Bool.false_ne_true, if_pos ⟨hplaces, hfits⟩]

@[simp]
theorem Reading.places_append (r : Reading) (digit : ℕ) :
    (r.append digit).places = r.places + r.sawPoint.toNat := by
  unfold append
  cases r.sawPoint <;> rfl

theorem Reading.extend_append (r : Reading) (c : Char) (rest : List Char) :
    (r.append (c.toNat - '0'.toNat)).extend rest = r.extend (c :: rest) := by
  have hmagnitude : Nat.ofDigitChars 10 rest (r.magnitude * 10 + (c.toNat - '0'.toNat)) =
      Nat.ofDigitChars 10 (c :: rest) r.magnitude := by
    rw [Nat.ofDigitChars_cons, mul_comm]
  have hplaces : r.places + r.sawPoint.toNat + r.sawPoint.toNat * rest.length =
      r.places + r.sawPoint.toNat * (c :: rest).length := by
    rw [List.length_cons]
    ring
  simp only [extend, places_append]
  simp only [append, hmagnitude, hplaces, Bool.true_or, List.isEmpty_cons, Bool.not_false, Bool.or_true]

theorem Reading.foldlM_step_digits {ds : List Char} (hds : ∀ c ∈ ds, c.isDigit = true) {r : Reading}
    (hfull : r.isFull = false) (hwhole : r.sawPoint = false → r.places = 0)
    (hplaces : r.places + r.sawPoint.toNat * ds.length ≤ maxScale)
    (hfits : Nat.ofDigitChars 10 ds r.magnitude < capacity) : ds.foldlM Reading.step r = .ok (r.extend ds) := by
  induction ds generalizing r with
  | nil => cases r; simp [extend, pure, Except.pure]
  | cons c rest ih =>
    rw [Nat.ofDigitChars_cons, mul_comm] at hfits
    rw [List.length_cons, mul_add, mul_one] at hplaces
    have hroom : r.places < maxScale := by
      cases hpoint : r.sawPoint with
      | false =>
        rw [hwhole hpoint]
        decide
      | true =>
        rw [hpoint, Bool.toNat_true] at hplaces
        omega
    have hstep := step_digit (hds c List.mem_cons_self) hfull hroom (lt_of_le_of_lt (le_ofDigitChars rest _) hfits)
    have hwhole' : r.sawPoint = false → (r.append (c.toNat - '0'.toNat)).places = 0 := fun h => by
      rw [places_append, h, hwhole h, Bool.toNat_false]
    have hplaces' : (r.append (c.toNat - '0'.toNat)).places + r.sawPoint.toNat * rest.length ≤ maxScale := by
      rw [places_append]
      omega
    rw [List.foldlM_cons, hstep, ok_bind, ih (fun d hd => hds d (List.mem_cons_of_mem c hd))
      (r := r.append (c.toNat - '0'.toNat)) hfull hwhole' hplaces' hfits]
    rw [extend_append]

/-! ### Digits with a point -/

theorem positional_eq (n places : ℕ) :
    ∃ whole fraction : List Char,
      positional (Nat.toDigits 10 n) places = (if places = 0 then whole else whole ++ '.' :: fraction) ∧
      whole ≠ [] ∧ fraction.length = places ∧ (∀ c ∈ whole ++ fraction, c.isDigit = true) ∧
      Nat.ofDigitChars 10 (whole ++ fraction) 0 = n := by
  have hdigit : ∀ c ∈ Nat.toDigits 10 n, c.isDigit = true := fun c =>
    Nat.isDigit_of_mem_toDigits (by decide) (by decide)
  have hvalue : Nat.ofDigitChars 10 (Nat.toDigits 10 n) 0 = n := Nat.ofDigitChars_toDigits (by decide) (by decide)
  by_cases hplaces : places = 0
  · refine ⟨Nat.toDigits 10 n, [], ?_, Nat.toDigits_ne_nil, hplaces.symm, ?_, ?_⟩
    · rw [positional, if_pos hplaces, if_pos hplaces]
    · rwa [List.append_nil]
    · rw [List.append_nil, hvalue]
  · let zeros := List.replicate (places + 1 - (Nat.toDigits 10 n).length) '0'
    let padded := zeros ++ Nat.toDigits 10 n
    have hlength : places < padded.length := by
      simp only [padded, zeros, List.length_append, List.length_replicate]
      omega
    refine ⟨padded.take (padded.length - places), padded.drop (padded.length - places), ?_, ?_, ?_, ?_, ?_⟩
    · rw [positional, if_neg hplaces, if_neg hplaces]
    · rw [ne_eq, List.take_eq_nil_iff]
      rintro (htake | hnil)
      · omega
      · rw [hnil] at hlength
        exact Nat.not_lt_zero _ hlength
    · rw [List.length_drop]
      omega
    · rw [List.take_append_drop]
      intro c hc
      rcases List.mem_append.1 hc with hzero | hc
      · rw [List.eq_of_mem_replicate hzero]
        decide
      · exact hdigit c hc
    · rw [List.take_append_drop, Nat.ofDigitChars_append, Nat.ofDigitChars_replicate_zero, mul_zero, hvalue]

theorem foldlM_step_positional {n places : ℕ} (hn : n < capacity) (hplaces : places ≤ maxScale) :
    ∃ r, (positional (Nat.toDigits 10 n) places).foldlM Reading.step {} = .ok r ∧
      r.magnitude = n ∧ r.places = places ∧ r.sawDigit = true := by
  obtain ⟨whole, fraction, heq, hwhole, hlength, hdigits, hvalue⟩ := positional_eq n places
  rw [Nat.ofDigitChars_append] at hvalue
  have hsaw : (!whole.isEmpty) = true := by
    rw [Bool.not_eq_true', List.isEmpty_eq_false_iff]
    exact hwhole
  have hread : whole.foldlM Reading.step {} = .ok (Reading.extend {} whole) :=
    Reading.foldlM_step_digits (fun c hc => hdigits c (List.mem_append_left _ hc)) rfl (fun _ => rfl)
      (by simp) (lt_of_le_of_lt (le_ofDigitChars fraction _) (hvalue ▸ hn))
  rw [heq]
  split
  case isTrue hzero =>
    rw [hzero, List.length_eq_zero_iff] at hlength
    rw [hlength, Nat.ofDigitChars_nil] at hvalue
    exact ⟨Reading.extend {} whole, hread, hvalue, by simp [Reading.extend, hzero], hsaw⟩
  case isFalse =>
    let pointed : Reading := { Reading.extend {} whole with sawPoint := true }
    have hpoint : Reading.step (Reading.extend {} whole) '.' = .ok pointed := rfl
    have hbehind : fraction.foldlM Reading.step pointed = .ok (pointed.extend fraction) :=
      Reading.foldlM_step_digits (fun c hc => hdigits c (List.mem_append_right _ hc)) rfl (fun h => (nomatch h))
        (by simp [pointed, Reading.extend, hlength, hplaces]) (hvalue ▸ hn)
    refine ⟨pointed.extend fraction, ?_, hvalue, ?_, ?_⟩
    · rw [List.foldlM_append, hread, ok_bind, List.foldlM_cons, hpoint, ok_bind, hbehind]
    · simp [pointed, Reading.extend, hlength]
    · change (false || !whole.isEmpty || !fraction.isEmpty) = true
      rw [hsaw]
      rfl

/-! ### Decimals -/

theorem positional_eq_cons (n places : ℕ) :
    ∃ c rest, positional (Nat.toDigits 10 n) places = c :: rest ∧ c.isDigit = true := by
  obtain ⟨whole, fraction, heq, hwhole, -, hdigits, -⟩ := positional_eq n places
  obtain ⟨c, tail, rfl⟩ := List.exists_cons_of_ne_nil hwhole
  have hc : c.isDigit = true := hdigits c (by simp)
  rw [heq]
  split
  · exact ⟨c, tail, rfl, hc⟩
  · exact ⟨c, tail ++ '.' :: fraction, rfl, hc⟩

theorem splitSign_of_isDigit {c : Char} (hc : c.isDigit = true) (rest : List Char) :
    splitSign (c :: rest) = (false, c :: rest) := by
  unfold splitSign
  split
  case h_1 heq | h_2 heq =>
    rw [(List.cons.inj heq).1] at hc
    exact absurd hc (by decide)
  case h_3 => rfl

/-- The sign and the digits of a written decimal. -/
theorem splitSign_written (d : Decimal) :
    ∃ negative, splitSign d.written = (negative, positional (Nat.toDigits 10 d.mantissa.natAbs) d.scale) ∧
      withSign negative d.mantissa.natAbs = d.mantissa ∧ d.written ≠ [] := by
  obtain ⟨c, rest, hcons, hc⟩ := positional_eq_cons d.mantissa.natAbs d.scale
  unfold written
  dsimp only
  rw [hcons]
  split
  case isTrue h =>
    rw [hasMinus, Bool.or_eq_true, isNegative, decide_eq_true_iff] at h
    have hle : d.mantissa ≤ 0 := h.elim le_of_lt fun h₀ => (d.eq_zero_of_minusZero h₀).le
    refine ⟨true, rfl, ?_, List.cons_ne_nil _ _⟩
    rw [withSign, if_pos rfl]
    omega
  case isFalse h =>
    rw [hasMinus, Bool.or_eq_true, isNegative, decide_eq_true_iff, not_or] at h
    refine ⟨false, splitSign_of_isDigit hc rest, ?_, List.cons_ne_nil _ _⟩
    rw [withSign, if_neg Bool.false_ne_true]
    omega

theorem readRounded_written (d : Decimal) : readRounded d.written = .ok d.unsigned := by
  obtain ⟨r, hr, hmagnitude, hplaces, hdigit⟩ := foldlM_step_positional d.natAbs_mantissa_lt d.scale_le
  obtain ⟨negative, hsplit, hsigned, hne⟩ := splitSign_written d
  rw [readRounded, List.isEmpty_eq_false_iff.2 hne, if_neg Bool.false_ne_true, hsplit]
  dsimp only
  rw [hr]
  dsimp only
  rw [hdigit, hmagnitude, hplaces, hsigned, ofParts?_mantissa_scale]
  rfl

/-- A decimal is read back as it was written, but for the minus of a zero. -/
theorem readLossy_written (d : Decimal) : readLossy d.written = .ok d.unsigned := by
  rw [readLossy, readRounded_written]

end Decimal

end Coinage
