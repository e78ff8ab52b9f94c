import EntityQuery.Time.Date
import Mathlib.Tactic.Ring

/-!
# The calendar and the number of a day

The date of a day is computed from its number by rounding, and this file shows that rounding finds
the year: the days of an era of 400 years that begins in March fall into centuries, groups of four
years, years and days, where only the last group or century may be longer than the others.  So the
date exists, and its number is the number that it was computed from.
-/

namespace EntityQuery.Date

variable {days dayOfEra yearOfEra dayOfYear : Int}

/-! ## Years of an era -/

/-- The number of days before a year of an era. -/
def daysBefore (yearOfEra : Int) : Int := 365 * yearOfEra + yearOfEra / 4 - yearOfEra / 100

/-- The year of an era, as it is computed from a day of the era. -/
def yearOf (dayOfEra : Int) : Int :=
  (dayOfEra - dayOfEra / 1460 + dayOfEra / 36524 - dayOfEra / 146096) / 365

/-- A day of a year that begins in March.  The last day of a leap year comes after February 28. -/
structure InYear (yearOfEra dayOfYear : Int) : Prop where
  year : 0 ≤ yearOfEra ∧ yearOfEra ≤ 399
  day : 0 ≤ dayOfYear ∧ dayOfYear ≤ 365
  leap : dayOfYear = 365 → yearOfEra % 4 = 3 ∧ (yearOfEra % 100 ≠ 99 ∨ yearOfEra = 399)

/-- A day of an era lies in a century, in a group of four years and in a year of it. -/
theorem exists_parts (hlow : 0 ≤ dayOfEra) (hhigh : dayOfEra < 146097) :
    ∃ century group year day : Int, (0 ≤ century ∧ century ≤ 3) ∧ (0 ≤ group ∧ group ≤ 24) ∧
      (0 ≤ year ∧ year ≤ 3) ∧ (0 ≤ day ∧ day ≤ 365) ∧
      (day = 365 → year = 3 ∧ (group ≠ 24 ∨ century = 3)) ∧
      dayOfEra = 36524 * century + 1461 * group + 365 * year + day := by
  obtain ⟨century, hcentury, rest, hrest, hera⟩ : ∃ century : Int, (0 ≤ century ∧ century ≤ 3) ∧
      ∃ rest : Int, (0 ≤ rest ∧ rest ≤ 36524 ∧ (rest = 36524 → century = 3)) ∧
        dayOfEra = 36524 * century + rest :=
    ⟨min 3 (dayOfEra / 36524), by omega, dayOfEra - 36524 * min 3 (dayOfEra / 36524), by omega,
      by omega⟩
  obtain ⟨year, hyear, day, hday, hgroup⟩ : ∃ year : Int, (0 ≤ year ∧ year ≤ 3) ∧
      ∃ day : Int, (0 ≤ day ∧ day ≤ 365 ∧ (day = 365 → year = 3)) ∧
        rest % 1461 = 365 * year + day :=
    ⟨min 3 (rest % 1461 / 365), by omega, rest % 1461 - 365 * min 3 (rest % 1461 / 365), by omega,
      by omega⟩
  exact ⟨century, rest / 1461, year, day, hcentury, by omega, hyear, by omega, by omega, by omega⟩

/-- The last day of an era is the only one that a whole century too many is counted for. -/
theorem centuries_eq {century rest : Int} (hcentury : 0 ≤ century ∧ century ≤ 3)
    (hrest : 0 ≤ rest ∧ rest ≤ 36524) (hlast : rest = 36524 → century = 3)
    (h : dayOfEra = 36524 * century + rest) :
    dayOfEra / 36524 - dayOfEra / 146096 = century := by
  rcases Int.lt_or_le dayOfEra 146096 with hlt | hge
  · have hera : dayOfEra / 146096 = 0 := by omega
    have hquotient : dayOfEra / 36524 = century := by omega
    omega
  · obtain rfl : dayOfEra = 146096 := by omega
    omega

/-- Leap days are counted early, but not before the year that they end has begun. -/
theorem counted_eq {century group year day : Int} (hcentury : 0 ≤ century ∧ century ≤ 3)
    (hgroup : 0 ≤ group ∧ group ≤ 24) (hyear : 0 ≤ year ∧ year ≤ 3) (hday : 0 ≤ day ∧ day ≤ 365)
    (hleap : day = 365 → year = 3)
    (h : dayOfEra = 36524 * century + 1461 * group + 365 * year + day) :
    (dayOfEra - dayOfEra / 1460 + century) / 365 = 100 * century + 4 * group + year := by
  obtain ⟨early, hearly, hquotient⟩ : ∃ early : Int, (0 ≤ day - early ∧ day - early ≤ 364) ∧
      dayOfEra / 1460 = 25 * century + group + early := by
    rcases Int.lt_or_le (24 * century + group + 365 * year + day) 1460 with hlt | hge
    · exact ⟨0, by omega, by omega⟩
    · exact ⟨1, by omega, by omega⟩
  omega

/-- Rounding finds the year. -/
theorem inYear_yearOf (hlow : 0 ≤ dayOfEra) (hhigh : dayOfEra < 146097) :
    InYear (yearOf dayOfEra) (dayOfEra - daysBefore (yearOf dayOfEra)) := by
  obtain ⟨century, group, year, day, hcentury, hgroup, hyear, hday, hleap, hparts⟩ :=
    exists_parts hlow hhigh
  have hyearOf : yearOf dayOfEra = 100 * century + 4 * group + year := by
    have hcenturies : dayOfEra / 36524 - dayOfEra / 146096 = century :=
      centuries_eq hcentury
        (show 0 ≤ 1461 * group + 365 * year + day ∧
          1461 * group + 365 * year + day ≤ 36524 by omega)
        (by omega) (by omega)
    rw [← counted_eq hcentury hgroup hyear hday (fun h => (hleap h).1) hparts, yearOf]
    congr 1
    omega
  have hbefore : daysBefore (100 * century + 4 * group + year) =
      36524 * century + 1461 * group + 365 * year := by
    have hgroups : (100 * century + 4 * group + year) / 4 = 25 * century + group := by omega
    have hcenturies : (100 * century + 4 * group + year) / 100 = century := by omega
    unfold daysBefore
    omega
  have hrest : dayOfEra - daysBefore (yearOf dayOfEra) = day := by
    rw [hyearOf, hbefore]
    omega
  rw [hrest, hyearOf]
  exact ⟨by omega, hday, by omega⟩

/-! ## Months of a year -/

/-- The month of a day, counted from March. -/
def monthOf (dayOfYear : Int) : Int := (5 * dayOfYear + 2) / 153

/-- The days before a month that is counted from March. -/
def daysBeforeMonth (month : Int) : Int := (153 * month + 2) / 5

/-- The calendar month of one that is counted from March. -/
def calendarMonth (month : Int) : Int := if month < 10 then month + 3 else month - 9

/-- The date of a day of a year that begins in March. -/
def fromMarch? (era yearOfEra dayOfYear : Int) : Option Date :=
  ofParts? (yearOfEra + era * 400 + (if calendarMonth (monthOf dayOfYear) ≤ 2 then 1 else 0))
    (calendarMonth (monthOf dayOfYear)).toNat
    (dayOfYear - daysBeforeMonth (monthOf dayOfYear) + 1).toNat

theorem isLeapYear_of_inYear {era : Int} (h : InYear yearOfEra 365) :
    isLeapYear (yearOfEra + era * 400 + 1) = true := by
  obtain ⟨hyear, -, hleap⟩ := h
  obtain ⟨hfour, hcentury⟩ := hleap rfl
  simp only [isLeapYear, Bool.and_eq_true, beq_iff_eq, Bool.or_eq_true, bne_iff_ne]
  omega

/-- A month is as long as the days up to the next one.  Only February is cut short. -/
theorem daysInMonth_calendarMonth (year : Int) {month : Int} (h : 0 ≤ month ∧ month ≤ 10) :
    (daysInMonth year (calendarMonth month).toNat : Int) =
      daysBeforeMonth (month + 1) - daysBeforeMonth month := by
  have hmonths : month = 0 ∨ month = 1 ∨ month = 2 ∨ month = 3 ∨ month = 4 ∨ month = 5 ∨
      month = 6 ∨ month = 7 ∨ month = 8 ∨ month = 9 ∨ month = 10 := by omega
  rcases hmonths with rfl | rfl | rfl | rfl | rfl | rfl | rfl | rfl | rfl | rfl | rfl <;> rfl

theorem day_le_daysInMonth (era : Int) {month : Int} (h : InYear yearOfEra dayOfYear)
    (hmonth : monthOf dayOfYear = month) :
    dayOfYear - daysBeforeMonth month + 1 ≤
      daysInMonth (yearOfEra + era * 400 + (if calendarMonth month ≤ 2 then 1 else 0))
        (calendarMonth month).toNat := by
  have hday := h.day
  unfold monthOf at hmonth
  by_cases hfebruary : month = 11
  · subst hfebruary
    show dayOfYear - 337 + 1 ≤
      ((if isLeapYear (yearOfEra + era * 400 + 1) then 29 else 28 : Nat) : Int)
    by_cases hlast : dayOfYear = 365
    · subst hlast
      rw [if_pos (isLeapYear_of_inYear h)]
      decide
    · split <;> omega
  · rw [daysInMonth_calendarMonth _ (by omega), daysBeforeMonth, daysBeforeMonth]
    omega

/-- Every day of the year is a day of the calendar. -/
theorem exists_fromMarch (era : Int) (h : InYear yearOfEra dayOfYear) :
    ∃ d, fromMarch? era yearOfEra dayOfYear = some d ∧
      d.dayNumber = era * 146097 + daysBefore yearOfEra + dayOfYear - 719468 ∧
      yearOfEra + era * 400 ≤ d.year ∧ d.year ≤ yearOfEra + era * 400 + 1 := by
  obtain ⟨month, hmonth⟩ : ∃ month, monthOf dayOfYear = month := ⟨_, rfl⟩
  have hle := day_le_daysInMonth era h hmonth
  obtain ⟨hyear, hday, -⟩ := h
  have hmonths : 0 ≤ month ∧ month ≤ 11 ∧ daysBeforeMonth month ≤ dayOfYear := by
    rw [← hmonth, daysBeforeMonth, monthOf]
    omega
  have hcalendar : 1 ≤ calendarMonth month ∧ calendarMonth month ≤ 12 := by
    unfold calendarMonth
    split <;> omega
  have hmem : (1 ≤ (calendarMonth month).toNat ∧ (calendarMonth month).toNat ≤ 12) ∧
      (1 ≤ (dayOfYear - daysBeforeMonth month + 1).toNat ∧
        (dayOfYear - daysBeforeMonth month + 1).toNat ≤
          daysInMonth (yearOfEra + era * 400 + (if calendarMonth month ≤ 2 then 1 else 0))
            (calendarMonth month).toNat) := by omega
  unfold fromMarch?
  rw [hmonth, ofParts?, dif_pos hmem]
  refine ⟨_, rfl, ?_, ?_, ?_⟩
  · have hmarch : (((calendarMonth month).toNat : Int) + 9) % 12 = month := by
      unfold calendarMonth at hcalendar ⊢
      split <;> omega
    have hcivil : (if (calendarMonth month).toNat ≤ 2
        then yearOfEra + era * 400 + (if calendarMonth month ≤ 2 then 1 else 0) - 1
        else yearOfEra + era * 400 + (if calendarMonth month ≤ 2 then 1 else 0)) =
        yearOfEra + era * 400 := by
      split <;> split <;> omega
    have hera : (yearOfEra + era * 400).fdiv 400 = era := by
      rw [Int.fdiv_eq_ediv_of_nonneg _ (by decide)]
      omega
    unfold dayNumber
    dsimp only
    rw [hcivil, hera, hmarch, daysBefore]
    unfold daysBeforeMonth at hmonths ⊢
    have hyearOfEra : yearOfEra + era * 400 - era * 400 = yearOfEra := by omega
    rw [hyearOfEra, Int.toNat_of_nonneg (by omega)]
    ring
  · dsimp only
    split <;> omega
  · dsimp only
    split <;> omega

theorem ofDayNumber_eq (days : Int) : ∃ era yearOfEra dayOfYear : Int,
    InYear yearOfEra dayOfYear ∧
      days = era * 146097 + daysBefore yearOfEra + dayOfYear - 719468 ∧
      ofDayNumber days = (fromMarch? era yearOfEra dayOfYear).getD epoch := by
  have hfdiv : (days + 719468).fdiv 146097 = (days + 719468) / 146097 :=
    Int.fdiv_eq_ediv_of_nonneg _ (by decide)
  refine ⟨(days + 719468) / 146097, yearOf ((days + 719468) % 146097), _,
    inYear_yearOf (by omega) (by omega), by omega, ?_⟩
  have hdayOfEra :
      days + 719468 - (days + 719468) / 146097 * 146097 = (days + 719468) % 146097 := by
    omega
  unfold ofDayNumber
  simp only [hfdiv, hdayOfEra]
  rfl

/-- A date has the number that it was computed from. -/
theorem dayNumber_ofDayNumber (days : Int) : (ofDayNumber days).dayNumber = days := by
  obtain ⟨era, yearOfEra, dayOfYear, hinYear, hdays, heq⟩ := ofDayNumber_eq days
  obtain ⟨d, hd, hnumber, -⟩ := exists_fromMarch era hinYear
  rw [heq, hd, Option.getD_some, hnumber, hdays]

/-- The year of a date is known from its number up to a year. -/
theorem year_ofDayNumber (days : Int) : ∃ era : Int,
    era * 146097 ≤ days + 719468 ∧ days + 719468 < era * 146097 + 146097 ∧
      era * 400 ≤ (ofDayNumber days).year ∧ (ofDayNumber days).year ≤ era * 400 + 400 := by
  obtain ⟨era, yearOfEra, dayOfYear, hinYear, hdays, heq⟩ := ofDayNumber_eq days
  obtain ⟨d, hd, -, hlow, hhigh⟩ := exists_fromMarch era hinYear
  obtain ⟨hyear, hday, hleap⟩ := hinYear
  have hbefore : 0 ≤ daysBefore yearOfEra ∧ daysBefore yearOfEra ≤ 145731 := by
    unfold daysBefore
    omega
  rw [heq, hd, Option.getD_some]
  exact ⟨era, by omega, by omega, by omega, by omega⟩

/-- A day next to one whose year has four digits is a day whose year can be read. -/
theorem readable_of_near {day : Int} (hnear : days - 1 ≤ day ∧ day ≤ days + 1)
    (hyear : 0 ≤ (ofDayNumber days).year ∧ (ofDayNumber days).year ≤ 9999) :
    minYear ≤ (ofDayNumber day).year ∧ (ofDayNumber day).year ≤ maxYear := by
  obtain ⟨era, hlow, hhigh, hyearLow, hyearHigh⟩ := year_ofDayNumber days
  obtain ⟨era', hlow', hhigh', hyearLow', hyearHigh'⟩ := year_ofDayNumber day
  have hera : -1 ≤ era ∧ era ≤ 24 := by omega
  have hera' : -2 ≤ era' ∧ era' ≤ 25 := by
    clear hyear hyearLow hyearHigh hyearLow' hyearHigh'
    omega
  rw [minYear, maxYear]
  omega

end EntityQuery.Date
