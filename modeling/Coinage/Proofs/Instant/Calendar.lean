import Coinage.Instant.Basic
import Mathlib.Tactic.IntervalCases
/-!
# The calendar

Numbering dates by days undoes finding the date of a day, and every date that is found is one of the calendar. Both
count from the first of March, so a year is followed through the number of its day: `FallsIn` says which year of a
cycle a day falls in, `ofMarch` which date a day of a year is.
-/

namespace Coinage

namespace Date

/-! ### Years of a cycle -/

/-- Days from the beginning of a cycle to the beginning of one of its years. -/
def daysBefore (year : ℕ) : ℕ :=
  365 * year + year / 4 - year / 100

/-- Whether a day of a cycle falls in a year of it, some days after the first of March. -/
structure FallsIn (day year dayOfYear : ℕ) : Prop where
  day_eq : day = daysBefore year + dayOfYear
  year_lt : year < 400
  dayOfYear_le : dayOfYear ≤ 365
  leap : dayOfYear = 365 → year % 4 = 3 ∧ (year % 100 ≠ 99 ∨ year = 399)

/-- The year of its cycle that a day falls in. -/
def yearOfCycle (day : ℕ) : ℕ :=
  (day - day / 1460 + day / 36524 - day / 146096) / 365

-- Counted in centuries of 36524 days, the last day of a cycle would be in a fifth one.
theorem yearOfCycle_div_hundred {day : ℕ} (h : day < 146097) : yearOfCycle day / 100 = day / 36524 - day / 146096 := by
  have hcenturies : day / 36524 ≤ 4 := by omega
  unfold yearOfCycle
  generalize hc : day / 36524 = century at *
  interval_cases century <;> omega

theorem fallsIn {day : ℕ} (h : day < 146097) : FallsIn day (yearOfCycle day) (day - daysBefore (yearOfCycle day)) := by
  have hcentury := yearOfCycle_div_hundred h
  have hquotient : yearOfCycle day = (day - day / 1460 + day / 36524 - day / 146096) / 365 := rfl
  generalize yearOfCycle day = year at *
  have hstart : daysBefore year ≤ day := by
    unfold daysBefore
    omega
  refine { day_eq := by omega, year_lt := by omega, dayOfYear_le := ?_, leap := fun hlast => ?_ }
  · unfold daysBefore
    omega
  · unfold daysBefore at *
    omega

/-! ### Days of a year -/

/-- A month counted from March, as it is counted from January. -/
def fromMarch (month : ℕ) : ℕ :=
  if month < 10 then month + 3 else month - 9

/-- The date that lies some days after the first of March. -/
def ofMarch (year : ℤ) (dayOfYear : ℕ) : Date :=
  let month := (5 * dayOfYear + 2) / 153
  ⟨if fromMarch month ≤ 2 then year + 1 else year, fromMarch month, dayOfYear - (153 * month + 2) / 5 + 1⟩

/-- The year that a date lies in if years begin in March. -/
def marchYear (d : Date) : ℤ :=
  if d.month ≤ 2 then d.year - 1 else d.year

theorem toDays_eq (d : Date) :
    d.toDays = 365 * d.marchYear + d.marchYear / 4 - d.marchYear / 100 + d.marchYear / 400 +
      ((153 * ((d.month + 9) % 12 : ℕ) + 2) / 5 + d.day - 1) - 719468 := by
  unfold toDays
  rw [← marchYear]
  simp only [Int.fdiv_eq_ediv_of_nonneg d.marchYear (by decide : (0 : ℤ) ≤ 400)]
  omega

theorem marchYear_ofMarch (year : ℤ) (dayOfYear : ℕ) : (ofMarch year dayOfYear).marchYear = year := by
  unfold marchYear ofMarch
  dsimp only
  split <;> omega

theorem toDays_ofMarch (year : ℤ) {dayOfYear : ℕ} (h : dayOfYear ≤ 365) :
    (ofMarch year dayOfYear).toDays = 365 * year + year / 4 - year / 100 + year / 400 + dayOfYear - 719468 := by
  have hmonth : ∀ m < 12, (fromMarch m + 9) % 12 = m := by decide
  rw [toDays_eq, marchYear_ofMarch]
  unfold ofMarch
  dsimp only
  rw [hmonth _ (by omega)]
  omega

/-- From March to January the months are as long as five months of 153 days, over and over. -/
theorem daysInMonth_fromMarch (year : ℤ) {month : ℕ} (h : month < 11) :
    (153 * month + 2) / 5 + daysInMonth year (fromMarch month) = (153 * (month + 1) + 2) / 5 := by
  interval_cases month <;> rfl

theorem isValid_iff (d : Date) :
    d.isValid = true ↔ (1 ≤ d.month ∧ d.month ≤ 12) ∧ 1 ≤ d.day ∧ d.day ≤ daysInMonth d.year d.month := by
  simp only [isValid, Bool.and_eq_true, decide_eq_true_iff, and_assoc]

theorem isValid_ofMarch {year : ℤ} {dayOfYear : ℕ} (h : dayOfYear ≤ 365)
    (hleap : dayOfYear = 365 → isLeapYear (year + 1) = true) : (ofMarch year dayOfYear).isValid = true := by
  have hmonths : ∀ m < 12, 1 ≤ fromMarch m ∧ fromMarch m ≤ 12 := by decide
  rw [isValid_iff]
  unfold ofMarch
  dsimp only
  generalize hm : (5 * dayOfYear + 2) / 153 = month
  refine ⟨hmonths month (by omega), Nat.le_add_left 1 _, ?_⟩
  by_cases hfebruary : month = 11
  · rw [hfebruary]
    change _ ≤ (if isLeapYear (year + 1) then 29 else 28)
    split
    case isTrue => omega
    case isFalse hcommon =>
      have hlast := mt hleap hcommon
      omega
  · have hlength := daysInMonth_fromMarch (if fromMarch month ≤ 2 then year + 1 else year) (by omega : month < 11)
    omega

/-! ### The calendar -/

theorem ofDays_eq (days : ℤ) :
    ∃ (cycle : ℤ) (year dayOfYear : ℕ), FallsIn (days + 719468 - cycle * 146097).toNat year dayOfYear ∧
      0 ≤ days + 719468 - cycle * 146097 ∧ ofDays days = ofMarch (year + cycle * 400) dayOfYear := by
  have hcycle : Int.fdiv (days + 719468) 146097 = (days + 719468) / 146097 := Int.fdiv_eq_ediv_of_nonneg _ (by decide)
  refine ⟨Int.fdiv (days + 719468) 146097, _, _, fallsIn ?_, ?_, rfl⟩
  · rw [hcycle]
    omega
  · rw [hcycle]
    omega

theorem toDays_ofDays (days : ℤ) : (ofDays days).toDays = days := by
  obtain ⟨cycle, year, dayOfYear, hfalls, hnonneg, heq⟩ := ofDays_eq days
  have hday := hfalls.day_eq
  have hlt := hfalls.year_lt
  have hfour : ((year : ℤ) + cycle * 400) / 4 = year / 4 + cycle * 100 := by omega
  have hcentury : ((year : ℤ) + cycle * 400) / 100 = year / 100 + cycle * 4 := by omega
  have hcycle : ((year : ℤ) + cycle * 400) / 400 = cycle := by omega
  unfold daysBefore at hday
  rw [heq, toDays_ofMarch _ hfalls.dayOfYear_le, hfour, hcentury, hcycle]
  omega

theorem isValid_ofDays (days : ℤ) : (ofDays days).isValid = true := by
  obtain ⟨cycle, year, dayOfYear, hfalls, hnonneg, heq⟩ := ofDays_eq days
  rw [heq]
  refine isValid_ofMarch hfalls.dayOfYear_le fun hlast => ?_
  obtain ⟨hfour, hcentury⟩ := hfalls.leap hlast
  have hlt := hfalls.year_lt
  simp only [isLeapYear, Bool.and_eq_true, Bool.or_eq_true, beq_iff_eq, bne_iff_ne]
  omega

/-- The days to the beginning of a year. -/
def newYear (year : ℤ) : ℤ :=
  (⟨year, 1, 1⟩ : Date).toDays

theorem newYear_eq (year : ℤ) : newYear year =
    365 * (year - 1) + (year - 1) / 4 - (year - 1) / 100 + (year - 1) / 400 + 306 - 719468 := by
  have hyear : marchYear ⟨year, 1, 1⟩ = year - 1 := rfl
  rw [newYear, toDays_eq, hyear]
  dsimp only
  omega

theorem newYear_le {year year' : ℤ} (h : year ≤ year') : newYear year ≤ newYear year' := by
  rw [newYear_eq, newYear_eq]
  omega

theorem daysInMonth_le (year : ℤ) (month : ℕ) : daysInMonth year month ≤ 31 := by
  unfold daysInMonth
  split_ifs <;> decide

/-- A date lies between the beginnings of its year and the next one. -/
theorem toDays_mem_year {d : Date} (h : d.isValid = true) :
    newYear d.year ≤ d.toDays ∧ d.toDays < newYear (d.year + 1) := by
  obtain ⟨⟨hmonth, hmonth'⟩, hday, hday'⟩ := (isValid_iff d).1 h
  have hdays := daysInMonth_le d.year d.month
  rw [newYear_eq, newYear_eq, toDays_eq, marchYear]
  split <;> omega

end Date
end Coinage
