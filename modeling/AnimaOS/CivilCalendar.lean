import Mathlib

/-!
# The Gregorian calendar

Dates follow one another by the lengths of the months. Counting years from the
first of March puts the leap day last, which gives the day number of a date in
closed form and lets the date be read back from its number.
-/

namespace CivilCalendar

def Leap (year : Nat) : Prop := year % 4 = 0 ∧ (year % 100 ≠ 0 ∨ year % 400 = 0)

instance (year : Nat) : Decidable (Leap year) := inferInstanceAs (Decidable (_ ∧ _))

def daysInMonth (year month : Nat) : Nat :=
  match month with
  | 2 => if Leap year then 29 else 28
  | 4 => 30
  | 6 => 30
  | 9 => 30
  | 11 => 30
  | _ => 31

theorem daysInMonth_pos (year month : Nat) : 1 ≤ daysInMonth year month := by
  simp only [daysInMonth]
  split
  · split
    · decide
    · decide
  all_goals decide

theorem daysInMonth_le_leap {leapYear : Nat} (leap : Leap leapYear) (year month : Nat) :
    daysInMonth year month ≤ daysInMonth leapYear month := by
  simp only [daysInMonth, leap, if_true]
  split
  · split <;> omega
  all_goals exact Nat.le_refl _

structure Date where
  year : Nat
  month : Nat
  day : Nat
  monthRange : 1 ≤ month ∧ month ≤ 12
  dayRange : 1 ≤ day ∧ day ≤ daysInMonth year month

namespace Date

def next (d : Date) : Date :=
  if h : d.day < daysInMonth d.year d.month then
    ⟨d.year, d.month, d.day + 1, d.monthRange, by omega⟩
  else if hm : d.month < 12 then
    ⟨d.year, d.month + 1, 1, by omega, Nat.le_refl 1, daysInMonth_pos _ _⟩
  else
    ⟨d.year + 1, 1, 1, by omega, Nat.le_refl 1, daysInMonth_pos _ _⟩

/-- The date `n` days later. -/
def after (d : Date) : Nat → Date
  | 0 => d
  | n + 1 => (d.after n).next

end Date

def unixEpoch : Date := ⟨1970, 1, 1, by decide, by decide⟩

/-! ## Day numbers -/

/-- The year counted from the first of March. -/
def marchYear (year month : Nat) : Nat := if month ≤ 2 then year - 1 else year

/-- The month counted from March as zero. -/
def marchMonth (month : Nat) : Nat := if month ≤ 2 then month + 9 else month - 3

/-- The days before a month, in a year that starts in March. -/
def daysBefore (marchMonth : Nat) : Nat := (153 * marchMonth + 2) / 5

/-- The days before a year that starts in March, from the first of March of year zero. -/
def yearDays (year : Nat) : Nat := 365 * year + year / 4 - year / 100 + year / 400

namespace Date

def dayOfYear (d : Date) : Nat := daysBefore (marchMonth d.month) + d.day - 1

def dayNumber (d : Date) : Nat := yearDays (marchYear d.year d.month) + d.dayOfYear

end Date

theorem yearDays_succ_leap {year : Nat} (leap : Leap (year + 1)) :
    yearDays (year + 1) = yearDays year + 366 := by
  simp only [Leap] at leap
  simp only [yearDays]
  omega

theorem yearDays_succ_common {year : Nat} (common : ¬ Leap (year + 1)) :
    yearDays (year + 1) = yearDays year + 365 := by
  simp only [yearDays, Nat.succ_div]
  simp only [Leap] at common
  by_cases four : (year + 1) % 4 = 0
  · have century : (year + 1) % 100 = 0 ∧ (year + 1) % 400 ≠ 0 := by omega
    rw [if_pos (by omega), if_pos (by omega), if_neg (by omega)]
    omega
  · rw [if_neg (by omega), if_neg (by omega), if_neg (by omega)]
    omega

theorem daysBefore_succ (year : Nat) {month : Nat} (h : 1 ≤ month ∧ month < 12)
    (notFeb : month ≠ 2) :
    daysBefore (marchMonth (month + 1)) =
      daysBefore (marchMonth month) + daysInMonth year month := by
  obtain ⟨low, high⟩ := h
  interval_cases month
  case «2» => exact absurd rfl notFeb
  all_goals simp [daysBefore, marchMonth, daysInMonth]

theorem marchYear_succ {year month : Nat} (notFeb : month ≠ 2) :
    marchYear year (month + 1) = marchYear year month := by
  simp only [marchYear]
  split
  · rw [if_pos (by omega)]
  · rw [if_neg (by omega)]

/-- The date after a date has the next day number. -/
theorem Date.next_dayNumber {d : Date} (later : 1 ≤ d.year) :
    d.next.dayNumber = d.dayNumber + 1 := by
  obtain ⟨year, month, day, months, days⟩ := d
  simp only [Date.next]
  split
  · simp only [Date.dayNumber, Date.dayOfYear]
    omega
  · rename_i last
    have full : day = daysInMonth year month := Nat.le_antisymm days.2 (Nat.le_of_not_lt last)
    split
    · rename_i inYear
      by_cases feb : month = 2
      · subst feb
        simp only [Date.dayNumber, Date.dayOfYear, full, daysInMonth]
        by_cases leap : Leap year
        · have count : yearDays (year - 1 + 1) = yearDays (year - 1) + 366 :=
            yearDays_succ_leap (by rwa [Nat.sub_add_cancel later])
          rw [Nat.sub_add_cancel later] at count
          simp only [marchYear, marchMonth, daysBefore, leap, if_true]
          simp
          omega
        · have count : yearDays (year - 1 + 1) = yearDays (year - 1) + 365 :=
            yearDays_succ_common (by rwa [Nat.sub_add_cancel later])
          rw [Nat.sub_add_cancel later] at count
          simp only [marchYear, marchMonth, daysBefore, leap, if_false]
          simp
          omega
      · simp only [Date.dayNumber, Date.dayOfYear, marchYear_succ feb,
          daysBefore_succ year ⟨months.1, inYear⟩ feb, full]
        have := daysInMonth_pos year month
        omega
    · rename_i december
      have same : month = 12 := Nat.le_antisymm months.2 (Nat.le_of_not_lt december)
      subst same
      simp only [Date.dayNumber, Date.dayOfYear, full, daysInMonth, marchYear, marchMonth, daysBefore]
      simp

theorem yearDays_era (year : Nat) :
    yearDays year = year / 400 * 146_097 +
      (36_524 * (year % 400 / 100) + 1461 * (year % 100 / 4) + 365 * (year % 4)) := by
  have hundreds : year / 100 = 4 * (year / 400) + year % 400 / 100 := by omega
  have quads : year / 4 = 25 * (year / 100) + year % 100 / 4 := by omega
  have years : year = 4 * (year / 4) + year % 4 := by omega
  simp only [yearDays]
  omega

theorem Date.next_year (d : Date) : d.year ≤ d.next.year := by
  simp only [Date.next]
  split
  · exact Nat.le_refl _
  · split
    · exact Nat.le_refl _
    · exact Nat.le_succ _

theorem Date.after_year (d : Date) (n : Nat) : d.year ≤ (d.after n).year := by
  induction n with
  | zero => exact Nat.le_refl _
  | succ n ih => exact Nat.le_trans ih (d.after n).next_year

theorem Date.after_dayNumber {d : Date} (later : 1 ≤ d.year) (n : Nat) :
    (d.after n).dayNumber = d.dayNumber + n := by
  induction n with
  | zero => rfl
  | succ n ih =>
    have counted : (d.after (n + 1)).dayNumber = (d.after n).dayNumber + 1 :=
      Date.next_dayNumber (Nat.le_trans later (d.after_year n))
    omega

theorem unixEpoch_dayNumber : unixEpoch.dayNumber = 719_468 := rfl

/-! ## Reading a date back from its day number -/

/-- Centuries, olympiads and years of an era of 400 years, with the day of the last year. -/
structure EraDay where
  century : Nat
  quad : Nat
  year : Nat
  day : Nat
  centuryRange : century ≤ 3
  quadRange : quad ≤ 24
  yearRange : year ≤ 3
  dayRange : day ≤ 365
  leapDay : day = 365 → year = 3 ∧ (quad = 24 → century = 3)

namespace EraDay

def yearOfEra (e : EraDay) : Nat := 100 * e.century + 4 * e.quad + e.year

def dayOfEra (e : EraDay) : Nat := 36_524 * e.century + 1461 * e.quad + 365 * e.year + e.day

theorem dayOfEra_lt (e : EraDay) : e.dayOfEra < 146_097 := by
  obtain ⟨c, q, y, d, hc, hq, hy, hd, leap⟩ := e
  simp only [dayOfEra]
  omega

/-- With the leap days before the day taken off, the years of the era have 365 days each. -/
theorem year_of_day (e : EraDay) :
    (e.dayOfEra - e.dayOfEra / 1460 + e.dayOfEra / 36_524 - e.dayOfEra / 146_096) / 365 =
      e.yearOfEra := by
  obtain ⟨c, q, y, d, hc, hq, hy, hd, leap⟩ := e
  simp only [yearOfEra]
  generalize hn : dayOfEra _ = n
  simp only [dayOfEra] at hn
  have leaps : n / 1460 = 25 * c + q + (24 * c + q + 365 * y + d) / 1460 := by omega
  by_cases last : n = 146_096
  · subst last
    omega
  · have centuries : n / 36_524 = c := by omega
    have era : n / 146_096 = 0 := by omega
    rw [centuries, era, leaps]
    omega

theorem day_of_day (e : EraDay) :
    e.dayOfEra - (365 * e.yearOfEra + e.yearOfEra / 4 - e.yearOfEra / 100) = e.day := by
  obtain ⟨c, q, y, d, hc, hq, hy, hd, leap⟩ := e
  simp only [dayOfEra, yearOfEra]
  omega

end EraDay

namespace Date

theorem daysInMonth_fits (d : Date) :
    daysBefore (marchMonth d.month) + d.day ≤ daysBefore (marchMonth d.month + 1) := by
  obtain ⟨year, month, day, ⟨low, high⟩, first, last⟩ := d
  by_cases feb : month = 2
  · subst feb
    have short : daysInMonth year 2 ≤ 29 := by
      simp only [daysInMonth]
      split
      · exact Nat.le_refl 29
      · decide
    simp only [daysBefore, marchMonth]
    omega
  · interval_cases month
    case «2» => exact absurd rfl feb
    all_goals
      simp only [daysInMonth, daysBefore, marchMonth, Nat.reduceLeDiff, if_true, if_false] at last ⊢
      omega

theorem month_of_day (d : Date) : (5 * d.dayOfYear + 2) / 153 = marchMonth d.month := by
  have fits := d.daysInMonth_fits
  have first := d.dayRange.1
  simp only [dayOfYear, daysBefore] at fits ⊢
  omega

theorem dayOfYear_range (d : Date) :
    d.dayOfYear ≤ 365 ∧ (d.dayOfYear = 365 → d.month = 2 ∧ Leap d.year) := by
  obtain ⟨year, month, day, ⟨low, high⟩, first, last⟩ := d
  by_cases feb : month = 2
  · subst feb
    simp only [dayOfYear, daysInMonth, marchMonth, daysBefore] at last ⊢
    by_cases leap : Leap year
    · simp only [leap, if_true] at last ⊢
      simp
      omega
    · simp only [leap, if_false] at last ⊢
      simp
      omega
  · simp only [dayOfYear]
    interval_cases month
    case «2» => exact absurd rfl feb
    all_goals
      simp only [daysInMonth, daysBefore, marchMonth, Nat.reduceLeDiff, if_true, if_false] at last ⊢
      omega

/-- The day of a date in its era. -/
def eraDay (d : Date) (later : 1 ≤ d.year) : EraDay where
  century := marchYear d.year d.month % 400 / 100
  quad := marchYear d.year d.month % 100 / 4
  year := marchYear d.year d.month % 4
  day := d.dayOfYear
  centuryRange := by omega
  quadRange := by omega
  yearRange := by omega
  dayRange := d.dayOfYear_range.1
  leapDay := by
    intro last
    obtain ⟨feb, leap⟩ := d.dayOfYear_range.2 last
    simp only [Leap] at leap
    simp only [marchYear, feb]
    constructor
    · simp
      omega
    · simp
      omega

theorem dayNumber_eq (d : Date) (later : 1 ≤ d.year) :
    d.dayNumber = marchYear d.year d.month / 400 * 146_097 + (d.eraDay later).dayOfEra := by
  simp only [dayNumber, EraDay.dayOfEra, eraDay, yearDays_era]
  omega

/-- A day number belongs to one month and day. -/
theorem day_unique {d e : Date} (hd : 1 ≤ d.year) (he : 1 ≤ e.year)
    (same : d.dayNumber = e.dayNumber) : d.month = e.month ∧ d.day = e.day := by
  have era := d.dayNumber_eq hd
  have era' := e.dayNumber_eq he
  have within := (d.eraDay hd).dayOfEra_lt
  have within' := (e.eraDay he).dayOfEra_lt
  have days : (d.eraDay hd).dayOfEra = (e.eraDay he).dayOfEra := by omega
  have years : (d.eraDay hd).yearOfEra = (e.eraDay he).yearOfEra := by
    rw [← EraDay.year_of_day, ← EraDay.year_of_day, days]
  have doy : d.dayOfYear = e.dayOfYear := by
    have back := (d.eraDay hd).day_of_day
    have back' := (e.eraDay he).day_of_day
    rw [days, years, back'] at back
    exact back.symm
  have month := d.month_of_day
  rw [doy, e.month_of_day] at month
  have months := d.monthRange
  have months' := e.monthRange
  have first := d.dayRange.1
  have first' := e.dayRange.1
  simp only [marchMonth] at month
  simp only [dayOfYear, marchMonth] at doy
  have monthSame : d.month = e.month := by
    split at month <;> split at month <;> omega
  rw [monthSame] at doy
  exact ⟨monthSame, by omega⟩

end Date

/-! ## Counting days by years and months -/

def yearLength (year : Nat) : Nat := if Leap year then 366 else 365

/-- The days before a date, from the first of January 1970. -/
def Date.dayCount (d : Date) : Nat :=
  (∑ year ∈ Finset.Ico 1970 d.year, yearLength year) +
    (∑ month ∈ Finset.Ico 1 d.month, daysInMonth d.year month) + (d.day - 1)

theorem yearLength_months (year : Nat) :
    (∑ month ∈ Finset.Ico 1 12, daysInMonth year month) + 31 = yearLength year := by
  by_cases leap : Leap year
  · simp [Finset.sum_Ico_succ_top, daysInMonth, yearLength, leap]
  · simp [Finset.sum_Ico_succ_top, daysInMonth, yearLength, leap]

theorem Date.next_dayCount {d : Date} (later : 1970 ≤ d.year) :
    d.next.dayCount = d.dayCount + 1 := by
  obtain ⟨year, month, day, ⟨low, high⟩, first, last⟩ := d
  simp only [Date.next]
  split
  · simp only [Date.dayCount]
    omega
  · rename_i full
    have full : day = daysInMonth year month := Nat.le_antisymm last (Nat.le_of_not_lt full)
    split
    · have months := Finset.sum_Ico_succ_top low (daysInMonth year)
      simp only [Date.dayCount, months]
      omega
    · rename_i december
      have same : month = 12 := Nat.le_antisymm high (Nat.le_of_not_lt december)
      subst same
      have years := Finset.sum_Ico_succ_top later yearLength
      have months := yearLength_months year
      have days : day = 31 := full
      simp only [Date.dayCount, years, Finset.Ico_self, Finset.sum_empty]
      omega

theorem Date.after_dayCount {d : Date} (later : 1970 ≤ d.year) (n : Nat) :
    (d.after n).dayCount = d.dayCount + n := by
  induction n with
  | zero => exact (Nat.add_zero d.dayCount).symm
  | succ n ih =>
    have counted : (d.after (n + 1)).dayCount = (d.after n).dayCount + 1 :=
      Date.next_dayCount (later.trans (d.after_year n))
    omega

theorem unixEpoch_dayCount : unixEpoch.dayCount = 0 := by
  simp [Date.dayCount, unixEpoch]

end CivilCalendar
