import AnimaOS.CivilCalendar
import AnimaOS.FixedWidth
import AnimaOS.Numerals
import AnimaOS.TextSplit

/-!
# Cron expressions

The matching of five-field expressions against a Unix time, and next to it what
an expression says: the documented forms of a field, read against the minutes of
the Gregorian calendar.
-/

namespace CronSchedule

open CivilCalendar FixedWidth Numerals TextSplit

/-! ## Matching a field -/

def parseU64 (text : List Char) : Option Nat := fromStrRadix 10 (maxOf 64) text

/-- The item without its step suffix, and the step. -/
def splitStep (item : List Char) : Option (List Char × Option Nat) :=
  match splitOnce ['/'] item with
  | some (base, stepStr) =>
    match parseU64 stepStr with
    | some n => if n > 0 then some (base, some n) else none
    | none => none
  | none => some (item, none)

def inSteps (lo hi value : Nat) (step : Option Nat) : Bool :=
  if value < lo ∨ value > hi then false
  else
    match step with
    | some n => (value - lo) % n == 0
    | none => true

def itemMatches (item : List Char) (value : Nat) : Bool :=
  match splitStep item with
  | none => false
  | some (base, step) =>
    if base = ['*'] then inSteps 0 (maxOf 64) value step
    else
      match splitOnce ['-'] base with
      | some (a, b) =>
        match parseU64 a, parseU64 b with
        | some a, some b => if a ≤ b then inSteps a b value step else false
        | _, _ => false
      | none =>
        match parseU64 base with
        | some n => step.isNone && n == value
        | none => false

def fieldMatches (field : List Char) (value : Nat) : Bool :=
  (field.splitOn ',').any fun item => itemMatches item value

/-! ## Time of day and date -/

structure CalendarMinute where
  minute : Nat
  hour : Nat
  day : Nat
  month : Nat
  weekday : Nat
  deriving DecidableEq, Repr

def decomposeUnixSecs (unixSecs : Nat) : CalendarMinute :=
  let days := unixSecs / 86_400
  let timeOfDay := unixSecs % 86_400
  let hour := timeOfDay / 3600
  let minute := timeOfDay % 3600 / 60
  let weekday := (days + 4) % 7
  let z : Int := days + 719_468
  let era : Int := (if z ≥ 0 then z else z - 146_096) / 146_097
  let doe := (z - era * 146_097).toNat
  let yoe := (doe - doe / 1460 + doe / 36_524 - doe / 146_096) / 365
  let doy := doe - (365 * yoe + yoe / 4 - yoe / 100)
  let mp := (5 * doy + 2) / 153
  let day := doy - (153 * mp + 2) / 5 + 1
  let month := if mp < 10 then mp + 3 else mp - 9
  ⟨minute, hour, day, month, weekday⟩

def isCronDue (expression : String) (nowNs lastFiredNs : Nat) : Bool :=
  let secs := nowNs / 1_000_000_000
  let t := decomposeUnixSecs secs
  match splitWhitespace expression.toList with
  | [minute, hour, day, month, weekday] =>
    if !fieldMatches minute t.minute || !fieldMatches hour t.hour || !fieldMatches day t.day ||
        !fieldMatches month t.month || !fieldMatches weekday t.weekday then
      false
    else decide (lastFiredNs < secs / 60 * 60 * 1_000_000_000)
  | _ => false

inductive JobSchedule where
  | immediate
  | once (atNs : Nat)
  | cron (expression : String)
  deriving DecidableEq, Repr

def JobSchedule.isDue (schedule : JobSchedule) (nowNs lastFiredNs : Nat) : Bool :=
  match schedule with
  | .immediate => lastFiredNs == 0
  | .once atNs => decide (nowNs ≥ atNs) && lastFiredNs == 0
  | .cron expression => isCronDue expression nowNs lastFiredNs

/-! ## What an expression says -/

/-- The documented forms of an item. -/
inductive Item where
  | any
  | exactly (n : Nat)
  | range (lo hi : Nat)
  | anyStep (n : Nat)
  | rangeStep (lo hi n : Nat)

def Item.Includes : Item → Nat → Prop
  | .any, _ => True
  | .exactly n, value => value = n
  | .range lo hi, value => lo ≤ value ∧ value ≤ hi
  | .anyStep n, value => ∃ k, value = k * n
  | .rangeStep lo hi n, value => (∃ k, value = lo + k * n) ∧ value ≤ hi

inductive ItemText : List Char → Item → Prop where
  | any : ItemText ['*'] .any
  | exactly {text : List Char} {n : Nat} (number : parseU64 text = some n) :
      ItemText text (.exactly n)
  | range {a b : List Char} {lo hi : Nat} (start : parseU64 a = some lo)
      (stop : parseU64 b = some hi) (ordered : lo ≤ hi) : ItemText (a ++ '-' :: b) (.range lo hi)
  | anyStep {s : List Char} {n : Nat} (step : parseU64 s = some n) (positive : 0 < n) :
      ItemText ('*' :: '/' :: s) (.anyStep n)
  | rangeStep {a b s : List Char} {lo hi n : Nat} (start : parseU64 a = some lo)
      (stop : parseU64 b = some hi) (ordered : lo ≤ hi) (step : parseU64 s = some n)
      (positive : 0 < n) : ItemText (a ++ '-' :: b ++ '/' :: s) (.rangeStep lo hi n)

def FieldIncludes (field : List Char) (value : Nat) : Prop :=
  ∃ text ∈ field.splitOn ',', ∃ item, ItemText text item ∧ item.Includes value

/-- All five fields of the expression include their part of the time. -/
def ExpressionIncludes (expression : String) (t : CalendarMinute) : Prop :=
  ∃ minute hour day month weekday,
    splitWhitespace expression.toList = [minute, hour, day, month, weekday] ∧
      FieldIncludes minute t.minute ∧ FieldIncludes hour t.hour ∧ FieldIncludes day t.day ∧
      FieldIncludes month t.month ∧ FieldIncludes weekday t.weekday

def minuteNs : Nat := 60_000_000_000

/-- The `k`-th minute since the epoch, in the Gregorian calendar. The epoch was a Thursday. -/
def calendarMinute (k : Nat) : CalendarMinute :=
  let date := unixEpoch.after (k / 1440)
  ⟨k % 60, k / 60 % 24, date.day, date.month, (k / 1440 + 4) % 7⟩

/-! ## The two agree -/

theorem decompose_date (n : Nat) :
    let d := unixEpoch.after n
    let doe := n + 719_468 - (n + 719_468) / 146_097 * 146_097
    let yoe := (doe - doe / 1460 + doe / 36_524 - doe / 146_096) / 365
    doe - (365 * yoe + yoe / 4 - yoe / 100) = d.dayOfYear := by
  intro d doe yoe
  have later : 1 ≤ d.year := Nat.le_trans (by decide) (unixEpoch.after_year n)
  have number : n + 719_468 = d.dayNumber := by
    rw [Date.after_dayNumber (by decide), unixEpoch_dayNumber, Nat.add_comm]
  have era := d.dayNumber_eq later
  have within := (d.eraDay later).dayOfEra_lt
  have dayOfEra : doe = (d.eraDay later).dayOfEra := by omega
  have year : yoe = (d.eraDay later).yearOfEra := by
    rw [← EraDay.year_of_day, ← dayOfEra]
  rw [year, dayOfEra]
  exact (d.eraDay later).day_of_day

theorem dayOfEra_cast (n : Nat) :
    let z : Int := n + 719_468
    (z - (if z ≥ 0 then z else z - 146_096) / 146_097 * 146_097).toNat =
      n + 719_468 - (n + 719_468) / 146_097 * 146_097 := by
  intro z
  have natural : z = ((n + 719_468 : Nat) : Int) := rfl
  rw [natural, if_pos (Int.natCast_nonneg _)]
  generalize n + 719_468 = m
  omega

theorem decompose_eq (secs : Nat) : decomposeUnixSecs secs = calendarMinute (secs / 60) := by
  have days : secs / 60 / 1440 = secs / 86_400 := by omega
  have doy := decompose_date (secs / 86_400)
  have mp := (unixEpoch.after (secs / 86_400)).month_of_day
  have first := (unixEpoch.after (secs / 86_400)).dayRange.1
  have months := (unixEpoch.after (secs / 86_400)).monthRange
  simp only [decomposeUnixSecs, calendarMinute, days, dayOfEra_cast]
  rw [doy, mp]
  congr 1
  · omega
  · omega
  · simp only [Date.dayOfYear, daysBefore]
    omega
  · simp only [marchMonth]
    split
    · rw [if_neg (by omega)]
      omega
    · rw [if_pos (by omega)]
      omega

/-- The decomposition is the Gregorian date of the day, counted by years and months from
the epoch, and the time of day; no conversion of the source cuts a value of its domain. -/
theorem decompose_gregorian (secs : Nat) :
    (decomposeUnixSecs secs).minute ≤ 59 ∧ (decomposeUnixSecs secs).hour ≤ 23 ∧
      (decomposeUnixSecs secs).weekday = (4 + secs / 86_400) % 7 ∧
      (∃ d : Date, 1970 ≤ d.year ∧ (decomposeUnixSecs secs).month = d.month ∧
        (decomposeUnixSecs secs).day = d.day ∧
        ((d.dayCount * 24 + (decomposeUnixSecs secs).hour) * 60 +
          (decomposeUnixSecs secs).minute) * 60 = secs - secs % 60) ∧
      (secs ≤ maxOf 64 → secs / 86_400 + 719_468 < 2 ^ 63 ∧
        (decomposeUnixSecs secs).day < 2 ^ 8 ∧ (decomposeUnixSecs secs).month < 2 ^ 8 ∧
        secs % 86_400 < 2 ^ 32) := by
  have count := unixEpoch.after_dayCount (by decide) (secs / 60 / 1440)
  have year := unixEpoch.after_year (secs / 60 / 1440)
  have date := (unixEpoch.after (secs / 60 / 1440)).daysInMonth_fits
  have months := (unixEpoch.after (secs / 60 / 1440)).monthRange
  rw [unixEpoch_dayCount, Nat.zero_add] at count
  simp only [daysBefore] at date
  simp only [decompose_eq, calendarMinute]
  refine ⟨by omega, by omega, by omega,
    ⟨unixEpoch.after (secs / 60 / 1440), year, rfl, rfl, ?_⟩, ?_⟩
  · rw [count]
    omega
  · simp only [maxOf]
    omega

theorem parseU64_avoids {text : List Char} {n : Nat} (number : parseU64 text = some n) {c : Char}
    (unread : c ≠ '+' ∧ ¬ isDigit 10 c) : c ∉ text := by
  intro found
  rcases fromStrRadix_chars number c found with sign | digit
  · exact unread.1 sign
  · exact unread.2 digit

theorem parseU64_no_slash {text : List Char} {n : Nat} (number : parseU64 text = some n) :
    '/' ∉ text :=
  parseU64_avoids number (by decide)

theorem parseU64_no_dash {text : List Char} {n : Nat} (number : parseU64 text = some n) :
    '-' ∉ text :=
  parseU64_avoids number (by decide)

theorem parseU64_not_star {text : List Char} {n : Nat} (number : parseU64 text = some n)
    (rest : List Char) : text ++ rest ≠ ['*'] := by
  intro star
  cases text with
  | nil => cases number
  | cons c text =>
    have unread : '*' ∉ c :: text := parseU64_avoids number (by decide)
    rw [List.cons_append] at star
    injection star with same _
    exact unread (same ▸ List.mem_cons_self)

theorem splitStep_plain {item : List Char} (plain : '/' ∉ item) :
    splitStep item = some (item, none) := by
  simp only [splitStep, splitOnce_none plain]

theorem splitStep_step {base s : List Char} {n : Nat} (plain : '/' ∉ base)
    (step : parseU64 s = some n) (positive : 0 < n) :
    splitStep (base ++ '/' :: s) = some (base, some n) := by
  simp only [splitStep, splitOnce_char plain, step]
  rw [if_pos positive]

theorem splitStep_some {item base : List Char} {step : Option Nat}
    (h : splitStep item = some (base, step)) :
    (step = none ∧ base = item) ∨
      ∃ s n, step = some n ∧ parseU64 s = some n ∧ 0 < n ∧ item = base ++ '/' :: s := by
  simp only [splitStep] at h
  split at h
  · rename_i before after cut
    split at h
    · rename_i n number
      split at h
      · rename_i positive
        cases h
        exact Or.inr ⟨after, n, rfl, number, positive, (splitOnce_char_some.mp cut).1⟩
      · cases h
    · cases h
  · cases h
    exact Or.inl ⟨rfl, rfl⟩

theorem inSteps_none {lo hi value : Nat} :
    inSteps lo hi value none = true ↔ lo ≤ value ∧ value ≤ hi := by
  simp only [inSteps]
  split
  · simp
    omega
  · simp
    omega

theorem inSteps_some {lo hi value n : Nat} :
    inSteps lo hi value (some n) = true ↔ (∃ k, value = lo + k * n) ∧ value ≤ hi := by
  simp only [inSteps]
  split
  · rename_i out
    constructor
    · intro h
      cases h
    · rintro ⟨⟨k, hk⟩, high⟩
      have := Nat.le_add_right lo (k * n)
      omega
  · rename_i inside
    simp only [beq_iff_eq]
    constructor
    · intro divides
      obtain ⟨k, hk⟩ := Nat.dvd_of_mod_eq_zero divides
      refine ⟨⟨k, ?_⟩, by omega⟩
      rw [Nat.mul_comm k n]
      omega
    · rintro ⟨⟨k, hk⟩, high⟩
      rw [hk, Nat.add_sub_cancel_left, Nat.mul_mod_left]

theorem itemMatches_sound {text : List Char} {value : Nat} (h : itemMatches text value = true) :
    ∃ item, ItemText text item ∧ item.Includes value := by
  simp only [itemMatches] at h
  split at h
  · cases h
  · rename_i base step cut
    split at h
    · rename_i star
      subst star
      rcases splitStep_some cut with ⟨rfl, rfl⟩ | ⟨s, n, rfl, number, positive, rfl⟩
      · exact ⟨.any, .any, trivial⟩
      · obtain ⟨⟨k, hk⟩, -⟩ := inSteps_some.mp h
        exact ⟨.anyStep n, .anyStep number positive, k, by omega⟩
    · split at h
      · rename_i a b range
        obtain ⟨rfl, -⟩ := splitOnce_char_some.mp range
        split at h
        · rename_i lo hi start stop
          split at h
          · rename_i ordered
            rcases splitStep_some cut with ⟨rfl, rfl⟩ | ⟨s, n, rfl, number, positive, rfl⟩
            · exact ⟨.range lo hi, .range start stop ordered, inSteps_none.mp h⟩
            · exact ⟨.rangeStep lo hi n, .rangeStep start stop ordered number positive,
                inSteps_some.mp h⟩
          · cases h
        · cases h
      · split at h
        · rename_i n number
          rcases splitStep_some cut with ⟨rfl, rfl⟩ | ⟨s, m, rfl, -⟩
          · refine ⟨.exactly n, .exactly number, ?_⟩
            have same : n = value := by simpa using h
            exact same.symm
          · simp at h
        · cases h

theorem itemMatches_complete {text : List Char} {item : Item} (reads : ItemText text item)
    {value : Nat} (fits : value ≤ maxOf 64) (includes : item.Includes value) :
    itemMatches text value = true := by
  cases reads with
  | any => exact inSteps_none.mpr ⟨Nat.zero_le _, fits⟩
  | @exactly text n number =>
    have plain := splitStep_plain (parseU64_no_slash number)
    have notStar : text ≠ ['*'] := by simpa using parseU64_not_star number []
    simp only [itemMatches, plain, if_neg notStar, splitOnce_none (parseU64_no_dash number), number]
    simpa using Eq.symm includes
  | @range a b lo hi start stop ordered =>
    have plain : '/' ∉ a ++ '-' :: b := by
      simp [parseU64_no_slash start, parseU64_no_slash stop]
    have notStar := parseU64_not_star start ('-' :: b)
    simp only [itemMatches, splitStep_plain plain, if_neg notStar,
      splitOnce_char (parseU64_no_dash start), start, stop, if_pos ordered]
    exact inSteps_none.mpr includes
  | @anyStep s n step positive =>
    have cut : splitStep (['*'] ++ '/' :: s) = some (['*'], some n) :=
      splitStep_step (by decide) step positive
    obtain ⟨k, hk⟩ := includes
    simp only [List.singleton_append] at cut
    simp only [itemMatches, cut, if_true]
    exact inSteps_some.mpr ⟨⟨k, by omega⟩, fits⟩
  | @rangeStep a b s lo hi n start stop ordered step positive =>
    have plain : '/' ∉ a ++ '-' :: b := by
      simp [parseU64_no_slash start, parseU64_no_slash stop]
    have notStar := parseU64_not_star start ('-' :: b)
    simp only [itemMatches, splitStep_step plain step positive, if_neg notStar,
      splitOnce_char (parseU64_no_dash start), start, stop, if_pos ordered]
    exact inSteps_some.mpr includes

theorem fieldMatches_iff {field : List Char} {value : Nat} (fits : value ≤ maxOf 64) :
    fieldMatches field value = true ↔ FieldIncludes field value := by
  simp only [fieldMatches, List.any_eq_true, FieldIncludes]
  constructor
  · rintro ⟨text, piece, matched⟩
    exact ⟨text, piece, itemMatches_sound matched⟩
  · rintro ⟨text, piece, item, reads, includes⟩
    exact ⟨text, piece, itemMatches_complete reads fits includes⟩

theorem calendarMinute_fits (k : Nat) :
    let t := calendarMinute k
    t.minute ≤ 59 ∧ t.hour ≤ 23 ∧ t.day ≤ 31 ∧ t.month ≤ 12 ∧ t.weekday ≤ 6 := by
  have date := (unixEpoch.after (k / 1440)).daysInMonth_fits
  have months := (unixEpoch.after (k / 1440)).monthRange
  simp only [daysBefore] at date
  simp only [calendarMinute]
  omega

/-- The expression is due at the first look at a minute it includes. -/
theorem isCronDue_iff (expression : String) (nowNs lastFiredNs : Nat) :
    isCronDue expression nowNs lastFiredNs = true ↔
      ExpressionIncludes expression (calendarMinute (nowNs / minuteNs)) ∧
        lastFiredNs < nowNs / minuteNs * minuteNs := by
  have minute : nowNs / 1_000_000_000 / 60 = nowNs / minuteNs := by
    simp only [minuteNs]
    omega
  have start : nowNs / minuteNs * 60 * 1_000_000_000 = nowNs / minuteNs * minuteNs :=
    Nat.mul_assoc _ 60 1_000_000_000
  have fits : 59 ≤ maxOf 64 := by decide
  obtain ⟨hmin, hhour, hday, hmonth, hweekday⟩ := calendarMinute_fits (nowNs / minuteNs)
  simp only [isCronDue, decompose_eq, minute, start]
  split
  · rename_i minute' hour day month weekday fields
    have matched : ExpressionIncludes expression (calendarMinute (nowNs / minuteNs)) ↔
        fieldMatches minute' (calendarMinute (nowNs / minuteNs)).minute = true ∧
        fieldMatches hour (calendarMinute (nowNs / minuteNs)).hour = true ∧
        fieldMatches day (calendarMinute (nowNs / minuteNs)).day = true ∧
        fieldMatches month (calendarMinute (nowNs / minuteNs)).month = true ∧
        fieldMatches weekday (calendarMinute (nowNs / minuteNs)).weekday = true := by
      rw [fieldMatches_iff (by omega), fieldMatches_iff (by omega), fieldMatches_iff (by omega),
        fieldMatches_iff (by omega), fieldMatches_iff (by omega)]
      constructor
      · rintro ⟨m, h, d, mo, w, same, included⟩
        rw [fields] at same
        cases same
        exact included
      · intro included
        exact ⟨minute', hour, day, month, weekday, fields, included⟩
    rw [matched]
    split
    · rename_i missed
      simp only [Bool.or_eq_true, Bool.not_eq_true'] at missed
      constructor
      · intro h
        cases h
      · rintro ⟨⟨m1, m2, m3, m4, m5⟩, -⟩
        simp [m1, m2, m3, m4, m5] at missed
    · rename_i all
      simp only [Bool.or_eq_true, Bool.not_eq_true', not_or, Bool.not_eq_false] at all
      obtain ⟨⟨⟨⟨m1, m2⟩, m3⟩, m4⟩, m5⟩ := all
      rw [decide_eq_true_eq]
      constructor
      · intro h
        exact ⟨⟨m1, m2, m3, m4, m5⟩, h⟩
      · rintro ⟨-, h⟩
        exact h
  · rename_i other
    constructor
    · intro h
      cases h
    · rintro ⟨⟨m, h, d, mo, w, same, -⟩, -⟩
      exact absurd same (other m h d mo w)

end CronSchedule
