import Coinage.Proofs.Decimal.Written
/-!
# What the readers take of a text

Both readers go through a text character by character. The exact one takes all digits or refuses the text; the
rounding one drops those that do not fit behind the point. `Reading.Took` compares a reading with the number of all
the digits so far, dropped ones included, and `Reading.Stands` says where in the text they stand. A digit that is
dropped and not zero belongs to a number that no decimal stands for: it has more places or more digits than fit.
-/

namespace Coinage

namespace Decimal

/-! ### Digits -/

theorem digitValue?_eq_some {c : Char} {digit : ℕ} (h : digitValue? c = some digit) :
    c.isDigit = true ∧ digit = c.toNat - '0'.toNat := by
  unfold digitValue? at h
  split at h
  case isTrue hrange =>
    refine ⟨?_, (Option.some.inj h).symm⟩
    rw [Char.isDigit, Bool.and_eq_true, decide_eq_true_iff, decide_eq_true_iff]
    exact hrange
  case isFalse => cases h

theorem digit_lt_ten {c : Char} (h : c.isDigit = true) : c.toNat - '0'.toNat < 10 := by
  rw [Char.isDigit, Bool.and_eq_true, decide_eq_true_iff, decide_eq_true_iff] at h
  have hle : c.toNat ≤ '9'.toNat := h.2
  have hnine : '9'.toNat = 57 := rfl
  have hzero : '0'.toNat = 48 := rfl
  omega

theorem ofDigitChars_concat (ds : List Char) (c : Char) :
    Nat.ofDigitChars 10 (ds ++ [c]) 0 = Nat.ofDigitChars 10 ds 0 * 10 + (c.toNat - '0'.toNat) := by
  rw [Nat.ofDigitChars_append, Nat.ofDigitChars_cons, Nat.ofDigitChars_nil, mul_comm]

theorem withSign_mul (negative : Bool) (m n : ℕ) : withSign negative (m * n) = withSign negative m * n := by
  cases negative <;> simp [withSign]

theorem natAbs_withSign (negative : Bool) (n : ℕ) : (withSign negative n).natAbs = n := by
  cases negative <;> simp [withSign]

/-! ### Numbers that no decimal stands for -/

/-- The digits of `n` but the last `dropped` ones fill a decimal with `kept` places: there is no place behind them, or
no room for one more digit. -/
def Fills (n kept dropped : ℕ) : Prop :=
  kept = maxScale ∨ ∃ i, dropped = i + 1 ∧ capacity ≤ n / 10 ^ i

theorem Fills.digit {n kept dropped digit : ℕ} (h : Fills n kept dropped) (hdigit : digit < 10) :
    Fills (n * 10 + digit) kept (dropped + 1) := by
  refine h.imp_right ?_
  rintro ⟨i, rfl, hi⟩
  refine ⟨i + 1, rfl, ?_⟩
  rwa [pow_succ', ← Nat.div_div_eq_div_mul, Nat.add_comm, Nat.add_mul_div_right _ _ (by decide),
    Nat.div_eq_of_lt hdigit, zero_add]

/-- If the digits behind those that fill a decimal are not all zeros, no decimal stands for the number. -/
theorem Fills.not_representable {n kept dropped : ℕ} {x : ℚ} (h : Fills n kept dropped) (hlost : ¬ 10 ^ dropped ∣ n)
    (hx : |x| = n / 10 ^ (kept + dropped)) : ¬ Representable x := by
  rintro ⟨d, rfl⟩
  have hcross : d.mantissa.natAbs * 10 ^ (kept + dropped) = n * 10 ^ d.scale := by
    rw [abs_value, div_eq_div_iff (by positivity) (by positivity)] at hx
    exact_mod_cast hx
  rcases Nat.lt_or_ge kept d.scale with hscale | hscale
  · rcases h with rfl | ⟨i, rfl, hi⟩
    · exact absurd d.scale_le (not_le.2 hscale)
    · -- the mantissa holds one digit more than there is room for
      obtain ⟨j, hj⟩ := Nat.exists_eq_add_of_le hscale
      have hmantissa : d.mantissa.natAbs * 10 ^ i = n * 10 ^ j := by
        refine Nat.eq_of_mul_eq_mul_right (Nat.pow_pos (by decide) : 0 < 10 ^ (kept + 1)) ?_
        rw [hj] at hcross
        calc d.mantissa.natAbs * 10 ^ i * 10 ^ (kept + 1)
            = d.mantissa.natAbs * 10 ^ (kept + (i + 1)) := by ring
          _ = n * 10 ^ (kept + 1 + j) := hcross
          _ = n * 10 ^ j * 10 ^ (kept + 1) := by ring
      have hle : capacity * 10 ^ i ≤ d.mantissa.natAbs * 10 ^ i :=
        calc capacity * 10 ^ i ≤ n / 10 ^ i * 10 ^ i := Nat.mul_le_mul_right _ hi
          _ ≤ n := Nat.div_mul_le_self n _
          _ ≤ n * 10 ^ j := Nat.le_mul_of_pos_right n (Nat.pow_pos (by decide))
          _ = d.mantissa.natAbs * 10 ^ i := hmantissa.symm
      exact absurd d.natAbs_mantissa_lt (not_lt.2 (Nat.le_of_mul_le_mul_right hle (Nat.pow_pos (by decide))))
  · -- the number has no digit other than zero behind its last place
    obtain ⟨j, rfl⟩ := Nat.exists_eq_add_of_le hscale
    refine hlost ⟨d.mantissa.natAbs * 10 ^ j, ?_⟩
    refine Nat.eq_of_mul_eq_mul_right (Nat.pow_pos (by decide) : 0 < 10 ^ d.scale) ?_
    rw [← hcross]
    ring

/-! ### The digits so far -/

namespace Reading

variable {r r' : Reading} {n places kept dropped v : ℕ} {c : Char}

/-- A reading that is not full holds all digits so far: they make the number `n`, and `places` of them stand behind
the point. -/
structure Holds (r : Reading) (n places : ℕ) : Prop where
  not_full : r.isFull = false
  magnitude_eq : r.magnitude = n
  places_eq : r.places = places
  places_le : places ≤ maxScale
  whole : r.sawPoint = false → places = 0
  none : r.sawDigit = false → n = 0 ∧ places = 0

/-- A reading that is full: of the digits so far, which make the number `n`, those that are kept fill a decimal. Unless
a digit other than zero was dropped, it holds just the kept ones. -/
structure Keeps (r : Reading) (n kept dropped : ℕ) : Prop where
  full : r.isFull = true
  sawPoint : r.sawPoint = true
  sawDigit : r.sawDigit = true
  fills : Fills n kept dropped
  magnitude_eq : 10 ^ dropped ∣ n → r.magnitude = n / 10 ^ dropped
  places_eq : 10 ^ dropped ∣ n → r.places = kept

/-- Whether a reading is one of digits that make the number `n`, the last `places` of them behind the point. -/
def Took (r : Reading) (n places : ℕ) : Prop :=
  r.Holds n places ∨ ∃ kept dropped, places = kept + dropped ∧ r.Keeps n kept dropped

theorem took_start : Reading.Took {} 0 0 :=
  .inl ⟨rfl, rfl, rfl, Nat.zero_le _, fun _ => rfl, fun _ => ⟨rfl, rfl⟩⟩

theorem Holds.append (h : r.Holds n places) (hroom : places < maxScale) :
    (r.append v).Holds (n * 10 + v) (places + r.sawPoint.toNat) where
  not_full := h.not_full
  magnitude_eq := congrArg (· * 10 + v) h.magnitude_eq
  places_eq := by rw [places_append, h.places_eq]
  places_le := Nat.le_trans (Nat.add_le_add_left (Bool.toNat_le _) _) hroom
  whole := fun hpoint => by
    have hpoint' : r.sawPoint = false := hpoint
    rw [h.whole hpoint', hpoint', Bool.toNat_false]
  none := fun hno => nomatch hno

/-- What is left when one more digit does not fit. -/
theorem Holds.drop (h : r.Holds n places) (hpoint : r.sawPoint = true) (hv : v < 10)
    (hroom : ¬ (places < maxScale ∧ n * 10 + v < capacity)) (hr : r.drop v = .ok r') :
    r'.Keeps (n * 10 + v) places 1 ∧ r'.sawPoint = r.sawPoint := by
  have hsaw : r.sawDigit = true := by
    by_contra hno
    obtain ⟨rfl, rfl⟩ := h.none (Bool.eq_false_of_not_eq_true hno)
    refine hroom ⟨by decide, ?_⟩
    have hten : 10 < capacity := by decide
    omega
  have hfills : Fills (n * 10 + v) places 1 := by
    rw [not_and_or, not_lt, not_lt] at hroom
    refine hroom.imp h.places_le.antisymm fun hcapacity => ⟨0, rfl, ?_⟩
    rwa [pow_zero, Nat.div_one]
  unfold Reading.drop at hr
  split_ifs at hr with hlow hnext hwhole
  · cases hr
    refine ⟨⟨rfl, hpoint, hsaw, hfills, fun hdvd => ?_, fun _ => h.places_eq⟩, rfl⟩
    have hmagnitude := h.magnitude_eq
    rw [pow_one] at hdvd ⊢
    dsimp only
    omega
  -- the digit rounds up, so it is not zero
  all_goals
    have hlost : ¬ 10 ^ 1 ∣ n * 10 + v := by omega
    cases hr
    exact ⟨⟨rfl, hpoint, hsaw, hfills, fun hdvd => absurd hdvd hlost, fun hdvd => absurd hdvd hlost⟩, rfl⟩

theorem Keeps.digit (h : r.Keeps n kept dropped) (hv : v < 10) :
    r.Keeps (n * 10 + v) kept (dropped + 1) := by
  have hzeros : 10 ^ (dropped + 1) ∣ n * 10 + v → v = 0 ∧ 10 ^ dropped ∣ n := fun hdvd => by
    have hten : 10 ∣ n * 10 + v := (Dvd.intro_left _ rfl : 10 ∣ 10 ^ (dropped + 1)).trans hdvd
    obtain rfl : v = 0 := by omega
    rw [add_zero, pow_succ] at hdvd
    exact ⟨rfl, Nat.dvd_of_mul_dvd_mul_right (by decide) hdvd⟩
  refine ⟨h.full, h.sawPoint, h.sawDigit, h.fills.digit hv, fun hdvd => ?_, fun hdvd => h.places_eq (hzeros hdvd).2⟩
  obtain ⟨rfl, hkept⟩ := hzeros hdvd
  rw [h.magnitude_eq hkept, add_zero, pow_succ, Nat.mul_div_mul_right _ _ (by decide)]

/-- One more digit. -/
theorem Took.digit (h : r.Took n places) (hc : c.isDigit = true) (hr : r.step c = .ok r') :
    r'.Took (n * 10 + (c.toNat - '0'.toNat)) (places + r.sawPoint.toNat) ∧ r'.sawPoint = r.sawPoint := by
  have hdigit := digit_lt_ten hc
  rw [step, digitValue?_of_isDigit hc] at hr
  dsimp only at hr
  rcases h with h | ⟨kept, dropped, rfl, h⟩
  · rw [h.not_full, if_neg Bool.false_ne_true, h.places_eq, h.magnitude_eq] at hr
    split_ifs at hr with hroom hpoint
    · cases hr
      exact ⟨.inl (h.append hroom.1), rfl⟩
    · obtain ⟨hkeeps, heq⟩ := h.drop hpoint hdigit hroom hr
      refine ⟨.inr ⟨places, 1, ?_, hkeeps⟩, heq⟩
      rw [hpoint, Bool.toNat_true]
  · rw [h.full, if_pos rfl] at hr
    cases hr
    refine ⟨.inr ⟨kept, dropped + 1, ?_, h.digit hdigit⟩, rfl⟩
    rw [h.sawPoint, Bool.toNat_true, add_assoc]

theorem Took.point (h : r.Took n places) : ({ r with sawPoint := true } : Reading).Took n places := by
  rcases h with h | ⟨kept, dropped, hplaces, h⟩
  · exact .inl ⟨h.not_full, h.magnitude_eq, h.places_eq, h.places_le, fun hno => (nomatch hno), h.none⟩
  · exact .inr ⟨kept, dropped, hplaces, h.full, rfl, h.sawDigit, h.fills, h.magnitude_eq, h.places_eq⟩

/-- An underscore drops no digit, but it may fill the reading. -/
theorem Took.separator (h : r.Took n places) (hsaw : r.sawDigit = true) : r.skipSeparator.Took n places := by
  unfold skipSeparator
  split_ifs with hlast
  · rcases h with h | ⟨kept, dropped, hplaces, h⟩
    · have hmax : places = maxScale := h.places_eq.symm.trans hlast.1
      have hpoint : r.sawPoint = true := by
        by_contra hno
        have hzero := h.whole (Bool.eq_false_of_not_eq_true hno)
        rw [hmax] at hzero
        exact absurd hzero (by decide)
      refine .inr ⟨places, 0, rfl, rfl, hpoint, hsaw, .inl hmax, fun _ => ?_, fun _ => h.places_eq⟩
      rw [pow_zero, Nat.div_one]
      exact h.magnitude_eq
    · exact .inr ⟨kept, dropped, hplaces, rfl, h.sawPoint, h.sawDigit, h.fills, h.magnitude_eq, h.places_eq⟩
  · exact h

/-- The number that a reading holds is that of all the digits, or no decimal stands for the latter. -/
theorem Took.value_eq_iff (h : r.Took n places) {negative : Bool} {d : Decimal}
    (hd : ofParts? (withSign negative r.magnitude) r.places = some d) :
    d.value = withSign negative n / 10 ^ places ↔ Representable (withSign negative n / 10 ^ places) := by
  refine ⟨fun heq => ⟨d, heq⟩, fun hrep => ?_⟩
  rw [value_ofParts? hd]
  rcases h with h | ⟨kept, dropped, rfl, h⟩
  · rw [h.magnitude_eq, h.places_eq]
  · have hzeros : 10 ^ dropped ∣ n := by
      by_contra hlost
      refine h.fills.not_representable hlost ?_ hrep
      rw [abs_div, abs_of_pos (by positivity : (0 : ℚ) < 10 ^ (kept + dropped)), ← Int.cast_abs, Int.abs_eq_natAbs,
        natAbs_withSign, Int.cast_natCast]
    rw [h.magnitude_eq hzeros, h.places_eq hzeros]
    obtain ⟨m, rfl⟩ := hzeros
    rw [Nat.mul_div_cancel_left _ (Nat.pow_pos (by decide)), mul_comm (10 ^ dropped) m, withSign_mul, pow_add]
    push_cast
    rw [mul_div_mul_right _ _ (by positivity)]

/-! ### Where the digits stand -/

/-- A reading of a text with the digits `whole` before the point and `fraction` behind it. -/
structure Stands (r : Reading) (text whole fraction : List Char) : Prop where
  text_eq : text.filter (· != '_') = if r.sawPoint then whole ++ '.' :: fraction else whole
  digits : ∀ c ∈ whole ++ fraction, c.isDigit = true
  fraction_eq : r.sawPoint = false → fraction = []
  ne_nil : r.sawDigit = true → whole ++ fraction ≠ []
  took : r.Took (Nat.ofDigitChars 10 (whole ++ fraction) 0) fraction.length

variable {text whole fraction : List Char}

theorem stands_start : Reading.Stands {} [] [] [] where
  text_eq := rfl
  digits := fun _ hc => nomatch hc
  fraction_eq := fun _ => rfl
  ne_nil := fun h => nomatch h
  took := took_start

/-- What stands behind the digits before the point. -/
theorem Stands.exists_rest (h : r.Stands text whole fraction) :
    ∃ rest, text.filter (· != '_') = whole ++ rest ∧ (∀ c ∈ rest.head?, c = '.') ∧ rest.tail = fraction := by
  rw [h.text_eq]
  cases hpoint : r.sawPoint with
  | true => exact ⟨'.' :: fraction, rfl, fun c hc => (Option.some.inj hc).symm, rfl⟩
  | false => exact ⟨[], (List.append_nil whole).symm, fun c hc => (nomatch hc), (h.fraction_eq hpoint).symm⟩

theorem Stands.digit (h : r.Stands text whole fraction) (hc : c.isDigit = true) (hr : r.step c = .ok r') :
    ∃ whole' fraction', r'.Stands (text ++ [c]) whole' fraction' := by
  obtain ⟨htook, hpoint⟩ := h.took.digit hc hr
  rw [← ofDigitChars_concat] at htook
  have hkeep : [c].filter (· != '_') = [c] :=
    List.filter_cons_of_pos (bne_iff_ne.2 fun hno => by rw [hno] at hc; exact absurd hc (by decide))
  have hdigits : ∀ d ∈ whole ++ fraction ++ [c], d.isDigit = true := fun d hd =>
    (List.mem_append.1 hd).elim (h.digits d) fun hd => List.mem_singleton.1 hd ▸ hc
  cases hsaw : r.sawPoint with
  | true =>
    refine ⟨whole, fraction ++ [c], ?_, ?_, fun hno => ?_, fun _ => by simp, ?_⟩
    · rw [List.filter_append, h.text_eq, hkeep, hpoint, hsaw, if_pos rfl, if_pos rfl, List.append_assoc, List.cons_append]
    · rwa [← List.append_assoc]
    · rw [hpoint, hsaw] at hno
      exact absurd hno (by decide)
    · rwa [← List.append_assoc, List.length_append, List.length_singleton, ← Bool.toNat_true, ← hsaw]
  | false =>
    obtain rfl := h.fraction_eq hsaw
    rw [List.append_nil] at hdigits htook
    refine ⟨whole ++ [c], [], ?_, ?_, fun _ => rfl, fun _ => by simp, ?_⟩
    · rw [List.filter_append, h.text_eq, hkeep, hpoint, hsaw, if_neg Bool.false_ne_true, if_neg Bool.false_ne_true]
    · rwa [List.append_nil]
    · rw [hsaw, Bool.toNat_false, add_zero] at htook
      rwa [List.append_nil]

/-- One more character. -/
theorem Stands.step (h : r.Stands text whole fraction) (hr : r.step c = .ok r') :
    ∃ whole' fraction', r'.Stands (text ++ [c]) whole' fraction' := by
  cases hdigit : digitValue? c with
  | some v => exact h.digit (digitValue?_eq_some hdigit).1 hr
  | none =>
    rw [Reading.step, hdigit] at hr
    dsimp only at hr
    split_ifs at hr with hdot hsecond hunderscore hsaw
    · cases hr
      obtain rfl := h.fraction_eq (Bool.eq_false_of_not_eq_true hsecond)
      refine ⟨whole, [], ?_, h.digits, fun _ => rfl, h.ne_nil, h.took.point⟩
      rw [List.filter_append, h.text_eq, if_neg hsecond, if_pos rfl, hdot]
      rfl
    · cases hr
      have hsame : r.skipSeparator.sawPoint = r.sawPoint ∧ r.skipSeparator.sawDigit = r.sawDigit := by
        unfold skipSeparator
        split_ifs <;> exact ⟨rfl, rfl⟩
      refine ⟨whole, fraction, ?_, h.digits, hsame.1 ▸ h.fraction_eq, hsame.2 ▸ h.ne_nil, h.took.separator hsaw⟩
      rw [List.filter_append, h.text_eq, hsame.1, hunderscore]
      exact List.append_nil _

/-- A whole text. -/
theorem Stands.foldlM {rest : List Char} (h : r.Stands text whole fraction) (hr : rest.foldlM Reading.step r = .ok r') :
    ∃ whole' fraction', r'.Stands (text ++ rest) whole' fraction' := by
  induction rest generalizing r text whole fraction with
  | nil =>
    cases hr
    exact ⟨whole, fraction, by rwa [List.append_nil]⟩
  | cons c rest ih =>
    rw [List.foldlM_cons] at hr
    obtain ⟨next, hnext, hr⟩ := bind_eq_ok.1 hr
    obtain ⟨whole', fraction', h'⟩ := h.step hnext
    obtain ⟨whole'', fraction'', h''⟩ := ih h' hr
    exact ⟨whole'', fraction'', by rwa [← List.append_cons] at h''⟩

/-! ### The exact reader -/

/-- What the exact reader takes, the rounding one takes as well, and is not full. -/
theorem step_of_stepExact? (hfull : r.isFull = false) (hplaces : r.places ≤ maxScale) (hr : r.stepExact? c = some r') :
    r.step c = .ok r' ∧ r'.isFull = false ∧ r'.places ≤ maxScale := by
  have hlast : r.places ≠ maxScale := fun hno => by
    rw [stepExact?, if_pos hno] at hr
    cases hr
  have hroom : r.places < maxScale := lt_of_le_of_ne hplaces hlast
  rw [stepExact?, if_neg hlast] at hr
  rw [step]
  cases hdigit : digitValue? c with
  | some v =>
    rw [hdigit] at hr
    dsimp only at hr ⊢
    split_ifs at hr with hfits
    cases hr
    rw [hfull, if_neg Bool.false_ne_true, if_pos ⟨hroom, hfits⟩]
    refine ⟨rfl, hfull, ?_⟩
    rw [places_append]
    exact Nat.le_trans (Nat.add_le_add_left (Bool.toNat_le _) _) hroom
  | none =>
    rw [hdigit] at hr
    dsimp only at hr ⊢
    split_ifs at hr with hdot hsecond hunderscore
    · cases hr
      rw [if_pos hdot, if_neg hsecond]
      exact ⟨rfl, hfull, hplaces⟩
    · cases hr
      rw [if_neg hdot, if_pos hunderscore.1, if_pos hunderscore.2, skipSeparator, if_neg fun h => hlast h.1]
      exact ⟨rfl, hfull, hplaces⟩

theorem foldlM_of_stepExact? {rest : List Char} (hfull : r.isFull = false) (hplaces : r.places ≤ maxScale)
    (hr : rest.foldlM Reading.stepExact? r = some r') : rest.foldlM Reading.step r = .ok r' ∧ r'.isFull = false := by
  induction rest generalizing r with
  | nil =>
    cases hr
    exact ⟨rfl, hfull⟩
  | cons c rest ih =>
    rw [List.foldlM_cons] at hr
    obtain ⟨next, hnext, hr⟩ := Option.bind_eq_some_iff.1 hr
    obtain ⟨hstep, hfull', hplaces'⟩ := step_of_stepExact? hfull hplaces hnext
    rw [List.foldlM_cons, hstep, ok_bind]
    exact ih hfull' hplaces' hr

end Reading

end Decimal

end Coinage
