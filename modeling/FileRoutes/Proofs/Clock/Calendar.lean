import FileRoutes.Clock
import Mathlib

/-! # The Gregorian calendar

The calendar is fixed by its leap years (`Date.IsLeapYear`), the lengths of its months
(`Date.daysIn`) and the date that follows each date (`Date.next`). Days are numbered along it
(`Date.isDayCount_dayNumber`): the start of 1970 has the number 0, and each date one more than the
date before. No other numbers of dates are such a count (`Date.IsDayCount.unique`). Each number is
that of exactly one date (`Date.isValid_ofDayNumber`, `Date.ofDayNumber_dayNumber`), and later dates
have greater numbers (`Date.Precedes.dayNumber_lt`).

* `firstOf_succ`, `firstOf_newYear`: a month begins as many days after the one before as that has.
* `yearOfEra_bounds`: the year of a day in its era is the one that begins with it or before it and
  ends behind it. -/

namespace FileRoutes.Date

/-! ## Dates and their successors -/

/-- A **leap year** is divisible by 4 and not by 100, or divisible by 400. -/
def IsLeapYear (year : Int) : Prop := (4 ∣ year ∧ ¬100 ∣ year) ∨ 400 ∣ year

instance (year : Int) : Decidable (IsLeapYear year) := inferInstanceAs (Decidable (_ ∨ _))

/-- How many days a month has. -/
def daysIn (year : Int) (month : Nat) : Nat :=
  if month = 2 then if IsLeapYear year then 29 else 28
  else if month ∈ [4, 6, 9, 11] then 30
  else 31

/-- A date **exists** when its month is one of the twelve and its day one of that month. -/
structure IsValid (date : Date) : Prop where
  /-- The month is one of the twelve. -/
  month : 1 ≤ date.month ∧ date.month ≤ 12
  /-- The day is one of the month. -/
  day : 1 ≤ date.day ∧ date.day ≤ daysIn date.year date.month

instance (date : Date) : Decidable date.IsValid :=
  decidable_of_iff ((1 ≤ date.month ∧ date.month ≤ 12) ∧
    1 ≤ date.day ∧ date.day ≤ daysIn date.year date.month)
    ⟨fun ⟨month, day⟩ => ⟨month, day⟩, fun ⟨month, day⟩ => ⟨month, day⟩⟩

/-- The **next** date: the next day of the month, or the first of the next month or year. -/
def next (date : Date) : Date :=
  if date.day < daysIn date.year date.month then { date with day := date.day + 1 }
  else if date.month < 12 then ⟨date.year, date.month + 1, 1⟩
  else ⟨date.year + 1, 1, 1⟩

/-- A date **precedes** another one: by its year, its month in the same year, or its day in the same
month. -/
def Precedes (date other : Date) : Prop :=
  date.year < other.year ∨ date.year = other.year ∧
    (date.month < other.month ∨ date.month = other.month ∧ date.day < other.day)

/-- Numbers of dates are a **day count** when the start of 1970 has the number 0 and each date one
more than the date before. -/
structure IsDayCount (count : Date → Int) : Prop where
  /-- The start of 1970 has the number 0. -/
  epoch : count ⟨1970, 1, 1⟩ = 0
  /-- From each date to the next it is one day. -/
  next : ∀ date : Date, date.IsValid → count date.next = count date + 1

/-- A month has some days. -/
theorem daysIn_pos (year : Int) (month : Nat) : 1 ≤ daysIn year month := by
  unfold daysIn
  split_ifs <;> decide

/-- No month has more than 31 days. -/
theorem daysIn_le (year : Int) (month : Nat) : daysIn year month ≤ 31 := by
  unfold daysIn
  split_ifs <;> decide

/-- The next date exists. -/
theorem IsValid.next {date : Date} (valid : date.IsValid) : date.next.IsValid := by
  obtain ⟨⟨low, high⟩, first, -⟩ := valid
  rw [Date.next]
  split
  next more => exact ⟨⟨low, high⟩, Nat.le_add_left 1 _, more⟩
  next =>
    split
    next early => exact ⟨⟨Nat.le_add_left 1 _, early⟩, Nat.le_refl 1, daysIn_pos _ _⟩
    next => exact ⟨⟨Nat.le_refl 1, Nat.succ_pos 11⟩, Nat.le_refl 1, daysIn_pos _ _⟩

/-! ## Days before a month

Years are counted from March on, so that the leap day is the last one of its year. -/

/-- The days from the first of March of the year 0 to that of a year. -/
def marchFirst (year : Int) : Int :=
  365 * year + year / 4 - year / 100 + year / 400

/-- The days from the first of March of the year 0 to the first of a month. -/
def firstOf (year : Int) (month : Nat) : Int :=
  marchFirst (if month ≤ 2 then year - 1 else year) +
    ((153 * (if month ≤ 2 then month + 9 else month - 3) + 2) / 5 : Nat)

section Counting

variable {year other : Int} {month later : Nat} {date : Date}

/-- The number of a day is that of the first of the month and the day of the month. -/
theorem dayNumber_eq (first : 1 ≤ date.day) :
    date.dayNumber = firstOf date.year date.month + date.day - 1 - epochDay := by
  simp only [dayNumber, firstOf, marchFirst, daysOfEra]
  generalize (if date.month ≤ 2 then date.year - 1 else date.year) = year
  generalize (if date.month ≤ 2 then date.month + 9 else date.month - 3) = month
  omega

/-- The year that begins in March has a leap day when the February in it has. -/
theorem marchFirst_succ (year : Int) :
    marchFirst (year + 1) = marchFirst year + if IsLeapYear (year + 1) then 366 else 365 := by
  simp only [marchFirst, IsLeapYear]
  split_ifs <;> omega

/-- Later years begin later. -/
theorem marchFirst_le (earlier : year ≤ other) : marchFirst year ≤ marchFirst other := by
  simp only [marchFirst]
  omega

/-- **The next month** begins as many days later as the month has. -/
theorem firstOf_succ (year : Int) (low : 1 ≤ month) (high : month < 12) :
    firstOf year (month + 1) = firstOf year month + daysIn year month := by
  by_cases february : month = 2
  · -- Only in front of March a year counted from March is over.
    subst february
    have leap := marchFirst_succ (year - 1)
    rw [sub_add_cancel] at leap
    by_cases isLeap : IsLeapYear year
    · simp [firstOf, daysIn, leap, isLeap]
      omega
    · simp [firstOf, daysIn, leap, isLeap]
      omega
  · interval_cases month <;> simp [firstOf, daysIn] at february ⊢ <;> omega

/-- **The next year** begins as many days later as December has. -/
theorem firstOf_newYear (year : Int) : firstOf (year + 1) 1 = firstOf year 12 + daysIn year 12 := by
  simp [firstOf, daysIn]
  omega

/-- Months of a year begin in their order. -/
theorem firstOf_le_of_month_le (year : Int) (low : 1 ≤ month) (order : month ≤ later)
    (high : later ≤ 12) : firstOf year month ≤ firstOf year later := by
  induction later, order using Nat.le_induction with
  | base => exact Int.le_refl _
  | succ later order ih =>
    rw [firstOf_succ year (Nat.le_trans low order) high]
    exact Int.le_trans (ih (Nat.le_of_succ_le high)) (by omega)

/-- A month ends in its year. -/
theorem firstOf_add_le (year : Int) (low : 1 ≤ month) (high : month ≤ 12) :
    firstOf year month + daysIn year month ≤ firstOf (year + 1) 1 := by
  rcases Nat.lt_or_eq_of_le high with before | rfl
  · have order : firstOf year (month + 1) ≤ firstOf year 12 :=
      firstOf_le_of_month_le year (Nat.le_add_left 1 month) before (Nat.le_refl 12)
    rw [← firstOf_succ year low before, firstOf_newYear]
    omega
  · rw [firstOf_newYear]

/-- Years begin in their order. -/
theorem firstOf_le_of_year_le (earlier : year ≤ other) : firstOf year 1 ≤ firstOf other 1 := by
  simpa [firstOf] using marchFirst_le (Int.sub_le_sub_right earlier 1)

/-- **From each date to the next it is one day.** -/
theorem dayNumber_next (valid : date.IsValid) : date.next.dayNumber = date.dayNumber + 1 := by
  obtain ⟨⟨low, high⟩, first, last⟩ := valid
  rw [dayNumber_eq first, next]
  split
  next more =>
    rw [dayNumber_eq (Nat.le_add_left 1 _)]
    push_cast
    omega
  next full =>
    have whole : date.day = daysIn date.year date.month := Nat.le_antisymm last (Nat.not_lt.1 full)
    split
    next early =>
      rw [dayNumber_eq (Nat.le_refl 1), firstOf_succ _ low early, whole]
      push_cast
      omega
    next late =>
      have december : date.month = 12 := by omega
      rw [dayNumber_eq (Nat.le_refl 1), firstOf_newYear, whole, december]
      push_cast
      omega

/-- **The days are numbered along the calendar.** -/
theorem isDayCount_dayNumber : IsDayCount dayNumber where
  epoch := by decide
  next _ := dayNumber_next

/-- **Later dates have greater numbers.** -/
theorem Precedes.dayNumber_lt {later : Date} (order : date.Precedes later) (valid : date.IsValid)
    (valid' : later.IsValid) : date.dayNumber < later.dayNumber := by
  obtain ⟨⟨low, high⟩, first, last⟩ := valid
  obtain ⟨⟨low', high'⟩, first', -⟩ := valid'
  rw [dayNumber_eq first, dayNumber_eq first']
  rcases order with years | ⟨sameYear, months | ⟨sameMonth, days⟩⟩
  · have ends := firstOf_add_le date.year low high
    have begins := firstOf_le_of_year_le (Int.add_one_le_of_lt years)
    have begins' := firstOf_le_of_month_le later.year (Nat.le_refl 1) low' high'
    omega
  · have ends := firstOf_succ date.year low (Nat.lt_of_lt_of_le months high')
    have begins : firstOf date.year (date.month + 1) ≤ firstOf date.year later.month :=
      firstOf_le_of_month_le date.year (Nat.le_add_left 1 _) months high'
    rw [← sameYear]
    omega
  · rw [← sameYear, ← sameMonth]
    omega

/-- Of two dates one precedes the other, or they are the same. -/
theorem precedes_trichotomy (date later : Date) :
    date.Precedes later ∨ date = later ∨ later.Precedes date := by
  obtain ⟨year, month, day⟩ := date
  obtain ⟨year', month', day'⟩ := later
  simp only [Precedes, Date.mk.injEq]
  omega

/-- Dates are determined by their numbers. -/
theorem eq_of_dayNumber_eq {later : Date} (valid : date.IsValid) (valid' : later.IsValid)
    (same : date.dayNumber = later.dayNumber) : date = later := by
  rcases precedes_trichotomy date later with before | equal | behind
  · exact absurd same (before.dayNumber_lt valid valid').ne
  · exact equal
  · exact absurd same (behind.dayNumber_lt valid' valid).ne'

end Counting

/-! ## The date of a day -/

/-- The days of an era up to a day, but for the leap days in it. -/
def plainDays (day : Nat) : Nat :=
  day - day / 1460 + day / 36524 - day / 146096

/-- The days of an era in front of a year of it. -/
def eraStart (year : Nat) : Nat :=
  365 * year + year / 4 - year / 100 + year / 400

/-- Later days have no fewer days in front of them. -/
theorem plainDays_mono : Monotone plainDays := by
  refine monotone_nat_of_le_succ fun day => ?_
  simp only [plainDays]
  omega

/-- On the first and the last day of each year of an era the plain days are those of that year. -/
theorem plainDays_eraStart : ∀ year < 400, 365 * year ≤ plainDays (eraStart year) ∧
    plainDays (eraStart (year + 1) - 1) < 365 * (year + 1) := by
  decide +kernel

/-- **The year of a day** in its era begins with that day or before it, and ends behind it. -/
theorem yearOfEra_bounds {day year : Nat} (inEra : day < daysOfEra)
    (isYear : year = plainDays day / 365) :
    year < 400 ∧ eraStart year ≤ day ∧ day < eraStart (year + 1) := by
  have last : plainDays day ≤ plainDays 146096 := plainDays_mono (Nat.le_of_lt_succ inEra)
  have whole : plainDays 146096 = 145999 := by decide
  have small : year < 400 := by omega
  refine ⟨small, ?_, ?_⟩
  · by_contra before
    -- The day would be no later than the last one of the year before.
    obtain ⟨previous, rfl⟩ : ∃ previous, year = previous + 1 := by
      refine Nat.exists_eq_succ_of_ne_zero ?_
      rintro rfl
      exact before (Nat.zero_le day)
    have earlier := plainDays_mono (Nat.le_sub_one_of_lt (Nat.not_le.1 before))
    have bound := (plainDays_eraStart previous (by omega)).2
    omega
  · by_contra behind
    -- The day would be no earlier than the first one of the year after, or outside the era.
    have later := plainDays_mono (Nat.not_lt.1 behind)
    rcases Nat.lt_or_eq_of_le (Nat.succ_le_of_lt small) with within | final
    · have bound := (plainDays_eraStart (year + 1) within).1
      omega
    · rw [show year + 1 = 400 from final] at behind
      exact behind inEra

/-- An era has as many days as the 400 years in it. -/
theorem marchFirst_era (era : Int) {year : Nat} (inEra : year < 400) :
    marchFirst (era * 400 + year) = era * daysOfEra + eraStart year := by
  simp only [marchFirst, eraStart, daysOfEra]
  omega

/-- **The month of a day** in a year that begins in March begins with that day or before it, and
ends behind it. -/
theorem marchMonth_bounds {day month : Nat} (inYear : day ≤ 365)
    (isMonth : month = (5 * day + 2) / 153) :
    month < 12 ∧ (153 * month + 2) / 5 ≤ day ∧ day < (153 * (month + 1) + 2) / 5 := by
  omega

/-- The day of the year is at most 365, and that only in front of a leap day. -/
theorem dayOfYear_bounds (era : Int) {day year : Nat} (inEra : year < 400)
    (begun : eraStart year ≤ day) (ends : day < eraStart (year + 1)) :
    day - eraStart year ≤ 365 ∧
      (day - eraStart year = 365 → IsLeapYear (era * 400 + year + 1)) := by
  simp only [eraStart, IsLeapYear] at *
  omega

/-- A date by its year and month, both counted from March on. -/
def ofMarch (marchYear : Int) (marchMonth day : Nat) : Date :=
  if marchMonth < 10 then ⟨marchYear, marchMonth + 3, day⟩
  else ⟨marchYear + 1, marchMonth - 9, day⟩

section OfMarch

variable {marchYear : Int} {marchMonth day : Nat}

/-- The number of a date by its year and month, counted from March on. -/
theorem dayNumber_ofMarch (small : marchMonth < 12) (first : 1 ≤ day) :
    (ofMarch marchYear marchMonth day).dayNumber =
      marchFirst marchYear + ((153 * marchMonth + 2) / 5 : Nat) + day - 1 - epochDay := by
  unfold ofMarch
  split
  next early =>
    have afterMarch : ¬marchMonth + 3 ≤ 2 := by omega
    rw [dayNumber_eq first]
    simp only [firstOf, afterMarch, if_false, Nat.add_sub_cancel]
  next late =>
    have beforeMarch : marchMonth - 9 ≤ 2 := by omega
    have back : marchMonth - 9 + 9 = marchMonth := Nat.sub_add_cancel (by omega)
    rw [dayNumber_eq first]
    simp only [firstOf, beforeMarch, if_true, back, Int.add_sub_cancel]

/-- **The day of a year that begins in March** exists as a day of its month. -/
theorem isValid_ofMarch (inYear : day ≤ 365) (leap : day = 365 → IsLeapYear (marchYear + 1))
    (small : marchMonth < 12) (begun : (153 * marchMonth + 2) / 5 ≤ day)
    (ends : day < (153 * (marchMonth + 1) + 2) / 5) :
    (ofMarch marchYear marchMonth (day - (153 * marchMonth + 2) / 5 + 1)).IsValid := by
  by_cases february : marchMonth = 11
  · -- Only this month is longer than the rest of the year.
    subst february
    by_cases isLeap : IsLeapYear (marchYear + 1)
    · refine ⟨by simp [ofMarch], Nat.le_add_left 1 _, ?_⟩
      simp [ofMarch, daysIn, isLeap]
      omega
    · have short : day ≠ 365 := fun last => isLeap (leap last)
      refine ⟨by simp [ofMarch], Nat.le_add_left 1 _, ?_⟩
      simp [ofMarch, daysIn, isLeap]
      omega
  · refine ⟨?_, ?_, ?_⟩
    all_goals interval_cases marchMonth <;> simp [ofMarch, daysIn] at february ends ⊢ <;> omega

end OfMarch

/-- The date of a day by the year in its era and the month in that. -/
theorem ofDayNumber_eq {number era : Int} {day year dayOfYear marchMonth : Nat}
    (isEra : era = (number + epochDay) / (daysOfEra : Int))
    (isDay : day = ((number + epochDay) % (daysOfEra : Int)).toNat)
    (isYear : year = plainDays day / 365) (small : year < 400)
    (isDayOfYear : dayOfYear = day - eraStart year)
    (isMonth : marchMonth = (5 * dayOfYear + 2) / 153) (early : marchMonth < 12) :
    ofDayNumber number =
      ofMarch (era * 400 + year) marchMonth (dayOfYear - (153 * marchMonth + 2) / 5 + 1) := by
  have inEra : (day - day / 1460 + day / 36524 - day / 146096) / 365 = year := isYear.symm
  have plain : 365 * year + year / 4 - year / 100 = eraStart year := by
    simp only [eraStart]
    omega
  simp only [ofDayNumber, ← isDay, ← isEra, inEra, plain, ← isDayOfYear, ← isMonth]
  unfold ofMarch
  split
  next before =>
    have afterMarch : ¬marchMonth + 3 ≤ 2 := by omega
    simp [afterMarch]
  next behind =>
    have beforeMarch : marchMonth - 9 ≤ 2 := by omega
    simp [beforeMarch]

/-- **The date of a day** exists, and has the number of that day. -/
theorem ofDayNumber_spec (number : Int) :
    (ofDayNumber number).IsValid ∧ (ofDayNumber number).dayNumber = number := by
  have positive : (0 : Int) < daysOfEra := by decide
  generalize isEra : (number + epochDay) / (daysOfEra : Int) = era
  generalize isDay : ((number + epochDay) % (daysOfEra : Int)).toNat = day
  generalize isYear : plainDays day / 365 = year
  generalize isDayOfYear : day - eraStart year = dayOfYear
  generalize isMonth : (5 * dayOfYear + 2) / 153 = marchMonth
  have nonneg := Int.emod_nonneg (number + epochDay) positive.ne'
  have below := Int.emod_lt_of_pos (number + epochDay) positive
  have whole := Int.emod_add_mul_ediv (number + epochDay) (daysOfEra : Int)
  obtain ⟨small, begun, ends⟩ := yearOfEra_bounds (by omega) isYear.symm
  obtain ⟨inYear, leap⟩ := dayOfYear_bounds era small begun ends
  rw [isDayOfYear] at inYear leap
  obtain ⟨early, begun', ends'⟩ := marchMonth_bounds inYear isMonth.symm
  rw [ofDayNumber_eq isEra.symm isDay.symm isYear.symm small isDayOfYear.symm isMonth.symm early]
  refine ⟨isValid_ofMarch inYear leap early begun' ends', ?_⟩
  rw [dayNumber_ofMarch early (Nat.le_add_left 1 _), marchFirst_era era small]
  rw [isEra, Int.mul_comm] at whole
  omega

/-- The date of a day exists. -/
theorem isValid_ofDayNumber (number : Int) : (ofDayNumber number).IsValid :=
  (ofDayNumber_spec number).1

/-- The number of the date of a day is the number of the day. -/
@[simp] theorem dayNumber_ofDayNumber (number : Int) : (ofDayNumber number).dayNumber = number :=
  (ofDayNumber_spec number).2

/-- **A date is the date of the day that it numbers.** -/
theorem ofDayNumber_dayNumber {date : Date} (valid : date.IsValid) :
    ofDayNumber date.dayNumber = date :=
  eq_of_dayNumber_eq (isValid_ofDayNumber _) valid (dayNumber_ofDayNumber _)

/-- The day behind a day has the date that comes next. -/
theorem ofDayNumber_succ (number : Int) : ofDayNumber (number + 1) = (ofDayNumber number).next := by
  have valid := isValid_ofDayNumber number
  refine eq_of_dayNumber_eq (isValid_ofDayNumber _) valid.next ?_
  rw [dayNumber_next valid, dayNumber_ofDayNumber, dayNumber_ofDayNumber]

/-- Days of earlier numbers have earlier dates. -/
theorem precedes_ofDayNumber {number later : Int} (order : number < later) :
    (ofDayNumber number).Precedes (ofDayNumber later) := by
  rcases precedes_trichotomy (ofDayNumber number) (ofDayNumber later) with before | equal | behind
  · exact before
  · have same := congrArg dayNumber equal
    rw [dayNumber_ofDayNumber, dayNumber_ofDayNumber] at same
    omega
  · have wrong := behind.dayNumber_lt (isValid_ofDayNumber _) (isValid_ofDayNumber _)
    rw [dayNumber_ofDayNumber, dayNumber_ofDayNumber] at wrong
    omega

/-- **There is one day count.** -/
theorem IsDayCount.unique {count : Date → Int} (isCount : IsDayCount count) {date : Date}
    (valid : date.IsValid) : count date = date.dayNumber := by
  -- From 1970 on the count goes up with the dates, and down in front of it.
  have counted : ∀ number : Int, count (ofDayNumber number) = number := by
    intro number
    induction number using Int.induction_on with
    | zero => exact isCount.epoch
    | succ number ih => rw [ofDayNumber_succ, isCount.next _ (isValid_ofDayNumber _), ih]
    | pred number ih =>
      have step := isCount.next _ (isValid_ofDayNumber (-number - 1))
      rw [← ofDayNumber_succ, Int.sub_add_cancel, ih] at step
      omega
  have number := counted date.dayNumber
  rwa [ofDayNumber_dayNumber valid] at number

end FileRoutes.Date
