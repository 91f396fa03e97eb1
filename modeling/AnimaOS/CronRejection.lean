import AnimaOS.CronValidation

/-!
# Rejected expressions

The matcher reads a list item by item and passes over the items it cannot read.
An expression the validator rejects can therefore fire on its readable items:
exactly when these name a value in each field and a day that some month has.
-/

namespace CronSchedule

open CivilCalendar FixedWidth Numerals TextSplit

def Rejected (expression : String) : Prop := validateCron expression ≠ .ok ()

/-- The readable items of the five fields name a minute of a date that exists, in a leap
year if it must. -/
def NamesAMinute (expression : String) : Prop :=
  ∃ minute hour day month weekday,
    splitWhitespace expression.toList = [minute, hour, day, month, weekday] ∧
      (∃ m ≤ 59, FieldIncludes minute m) ∧ (∃ h ≤ 23, FieldIncludes hour h) ∧
      (∃ w ≤ 6, FieldIncludes weekday w) ∧
      ∃ mo d, (1 ≤ mo ∧ mo ≤ 12) ∧ (1 ≤ d ∧ d ≤ daysInMonth 1972 mo) ∧
        FieldIncludes day d ∧ FieldIncludes month mo

/-! ## Every date falls on every weekday -/

theorem leap_1972 {i : Nat} (h : i < 7) : Leap (1972 + 4 * i) := by
  simp only [Leap]
  omega

/-- The date in the `i`-th leap year from 1972 on. -/
def leapDate (mo d : Nat) (hmo : 1 ≤ mo ∧ mo ≤ 12) (hd : 1 ≤ d ∧ d ≤ daysInMonth 1972 mo)
    (i : Nat) (hi : i < 7) : Date where
  year := 1972 + 4 * i
  month := mo
  day := d
  monthRange := hmo
  dayRange := ⟨hd.1, hd.2.trans (daysInMonth_le_leap (leap_1972 hi) 1972 mo)⟩

section LeapDates

variable {mo d : Nat} (hmo : 1 ≤ mo ∧ mo ≤ 12) (hd : 1 ≤ d ∧ d ≤ daysInMonth 1972 mo)

theorem leapDate_dayNumber {i : Nat} (hi : i < 7) :
    (leapDate mo d hmo hd i hi).dayNumber =
      (leapDate mo d hmo hd 0 (by decide)).dayNumber + 1461 * i := by
  have spread : yearDays (marchYear (1972 + 4 * i) mo) =
      yearDays (marchYear (1972 + 4 * 0) mo) + 1461 * i := by
    simp only [yearDays, marchYear]
    split <;> omega
  simp only [leapDate, Date.dayNumber, Date.dayOfYear, spread]
  omega

theorem leapDate_bounds :
    719_468 < (leapDate mo d hmo hd 0 (by decide)).dayNumber ∧
      (leapDate mo d hmo hd 0 (by decide)).dayNumber < 719_468 + 1_200 := by
  have days := (leapDate mo d hmo hd 0 (by decide)).dayOfYear_range.1
  have year : marchYear (1972 + 4 * 0) mo = 1971 ∨ marchYear (1972 + 4 * 0) mo = 1972 := by
    by_cases early : mo ≤ 2
    · exact .inl (if_pos early)
    · exact .inr (if_neg early)
  simp only [Date.dayNumber]
  generalize (leapDate mo d hmo hd 0 (by decide)).dayOfYear = doy at days
  simp only [leapDate, yearDays]
  rcases year with year | year
  · simp only [year]
    omega
  · simp only [year]
    omega

end LeapDates

/-- Four years with one leap day shift a date by five weekdays, which reach all seven. -/
theorem weekday_reached (n w : Nat) (hw : w ≤ 6) : ∃ i < 7, (n + 1461 * i + 4) % 7 = w := by
  have table : ∀ a < 7, ∀ b < 7, ∃ i < 7, (a + 5 * i) % 7 = b := by decide
  obtain ⟨i, small, reached⟩ := table ((n + 4) % 7) (Nat.mod_lt _ (by decide)) w (by omega)
  exact ⟨i, small, by omega⟩

/-- Every minute of the day, on every date of a leap year and every weekday, comes. -/
theorem minute_comes {m h w mo d : Nat} (hm : m ≤ 59) (hh : h ≤ 23) (hw : w ≤ 6)
    (hmo : 1 ≤ mo ∧ mo ≤ 12) (hd : 1 ≤ d ∧ d ≤ daysInMonth 1972 mo) :
    ∃ k, 0 < k ∧ k * minuteNs ≤ maxOf 64 ∧ calendarMinute k = ⟨m, h, d, mo, w⟩ := by
  obtain ⟨low, high⟩ := leapDate_bounds hmo hd
  generalize first : (leapDate mo d hmo hd 0 (by decide)).dayNumber = start at low high
  obtain ⟨i, hi, weekday⟩ := weekday_reached (start - 719_468) w hw
  have number := leapDate_dayNumber hmo hd hi
  rw [first] at number
  have day := Nat.add_sub_cancel' low.le
  generalize start - 719_468 = n at weekday day
  have same : (unixEpoch.after (n + 1461 * i)).dayNumber =
      (leapDate mo d hmo hd i hi).dayNumber := by
    rw [Date.after_dayNumber (by decide), unixEpoch_dayNumber, number]
    omega
  have later : 1 ≤ (unixEpoch.after (n + 1461 * i)).year :=
    Nat.le_trans (by decide) (unixEpoch.after_year _)
  obtain ⟨months, days⟩ := Date.day_unique later (Nat.le_add_right_of_le (by decide)) same
  have days : (unixEpoch.after (n + 1461 * i)).day = d := days
  have months : (unixEpoch.after (n + 1461 * i)).month = mo := months
  refine ⟨(n + 1461 * i) * 1440 + h * 60 + m, by omega, ?_, ?_⟩
  · simp only [minuteNs, maxOf]
    omega
  · have ofDay : ((n + 1461 * i) * 1440 + h * 60 + m) / 1440 = n + 1461 * i := by omega
    simp only [calendarMinute, ofDay, days, months, weekday]
    congr 1 <;> omega

/-! ## What fires -/

theorem named_of_included {expression : String} {k : Nat}
    (included : ExpressionIncludes expression (calendarMinute k)) : NamesAMinute expression := by
  obtain ⟨minute, hour, day, month, weekday, fields, inMinute, inHour, inDay, inMonth, inWeekday⟩ :=
    included
  obtain ⟨m, h, -, -, w⟩ := calendarMinute_fits k
  have date := (unixEpoch.after (k / 1440)).dayRange
  have longest : daysInMonth (unixEpoch.after (k / 1440)).year (unixEpoch.after (k / 1440)).month ≤
      daysInMonth 1972 (unixEpoch.after (k / 1440)).month :=
    daysInMonth_le_leap (by decide) _ _
  exact ⟨minute, hour, day, month, weekday, fields, ⟨_, m, inMinute⟩, ⟨_, h, inHour⟩,
    ⟨_, w, inWeekday⟩, (unixEpoch.after (k / 1440)).month, (unixEpoch.after (k / 1440)).day,
    (unixEpoch.after (k / 1440)).monthRange, ⟨date.1, date.2.trans longest⟩, inDay, inMonth⟩

/-- The instants and the last firings are those of the `u64` clock. -/
def NeverFires (expression : String) : Prop :=
  ∀ nowNs lastFiredNs, nowNs ≤ maxOf 64 → lastFiredNs ≤ maxOf 64 →
    isCronDue expression nowNs lastFiredNs = false

theorem neverFires_iff (expression : String) :
    NeverFires expression ↔ ¬ NamesAMinute expression := by
  constructor
  · rintro never ⟨minute, hour, day, month, weekday, fields, ⟨m, hm, inMinute⟩, ⟨h, hh, inHour⟩,
      ⟨w, hw, inWeekday⟩, mo, d, hmo, hd, inDay, inMonth⟩
    obtain ⟨k, positive, fits, comes⟩ := minute_comes hm hh hw hmo hd
    have back : k * minuteNs / minuteNs = k := Nat.mul_div_cancel k (by decide)
    have fires : isCronDue expression (k * minuteNs) 0 = true := by
      rw [isCronDue_iff, back, comes]
      exact ⟨⟨minute, hour, day, month, weekday, fields, inMinute, inHour, inDay, inMonth,
        inWeekday⟩, Nat.mul_pos positive (by decide)⟩
    rw [never (k * minuteNs) 0 fits (Nat.zero_le _)] at fires
    cases fires
  · intro unnamed nowNs lastFiredNs _ _
    cases due : isCronDue expression nowNs lastFiredNs with
    | false => rfl
    | true =>
      exact absurd (named_of_included ((isCronDue_iff expression nowNs lastFiredNs).mp due).1)
        unnamed

theorem rejected_never_fires_iff (expression : String) :
    (Rejected expression → NeverFires expression) ↔
      (Rejected expression → ¬ NamesAMinute expression) := by
  rw [neverFires_iff]

/-- One readable item beside an unreadable one fires at every full hour. -/
theorem rejected_list_fires :
    ¬ (Rejected "0,x * * * *" → NeverFires "0,x * * * *") := by
  intro never
  have rejected : Rejected "0,x * * * *" := by
    intro accepted
    revert accepted
    decide +kernel
  have quiet := never rejected 3_600_000_000_000 0 (by decide) (by decide)
  have fires : isCronDue "0,x * * * *" 3_600_000_000_000 0 = true := by decide +kernel
  rw [fires] at quiet
  cases quiet

end CronSchedule
