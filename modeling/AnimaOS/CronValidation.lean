import AnimaOS.CronSchedule

/-!
# Validation of cron expressions

`validate_cron` and what it accepts: the documented forms of an item, with the
numbers of values and ranges inside the domain of their field. A step is checked
for being positive only, so a wide step can miss a whole domain that starts at one.
-/

namespace CronSchedule

open FixedWidth Numerals TextSplit

/-! ## The validator -/

inductive ItemError where
  | emptyField
  | emptyElement
  | badStep (item : List Char)
  | outOfBounds (n min max : Nat)
  | badStart (a : List Char)
  | badEnd (b : List Char)
  | reversed (a b : Nat)
  | stepWithoutRange (item : List Char)
  | notANumber (base : List Char)
  deriving DecidableEq, Repr

/-- `debug` quotes a text as `{:?}` does. -/
def ItemError.message (debug : List Char → String) : ItemError → String
  | .emptyField => "empty field"
  | .emptyElement => "empty list element"
  | .badStep item => "step must be a positive integer in " ++ debug item
  | .outOfBounds n min max => s!"value {n} is out of bounds ({min}-{max})"
  | .badStart a => "range start " ++ debug a ++ " is not a number"
  | .badEnd b => "range end " ++ debug b ++ " is not a number"
  | .reversed a b => s!"range start {a} is greater than end {b}"
  | .stepWithoutRange item =>
    "step requires " ++ "`*`" ++ " or a range before " ++ "`/`" ++ " in " ++ debug item
  | .notANumber base => debug base ++ " is not a number"

inductive CronError where
  | fieldCount (found : Nat) (expression : List Char)
  | invalidField (label : String) (field : List Char) (cause : ItemError)
  deriving DecidableEq, Repr

def CronError.message (debug : List Char → String) : CronError → String
  | .fieldCount found expression =>
    s!"cron expression must have exactly 5 fields, found {found}: " ++ debug expression
  | .invalidField label field cause =>
    s!"invalid {label} field " ++ debug field ++ ": " ++ cause.message debug

def inBounds (min max n : Nat) : Except ItemError Unit :=
  if n < min ∨ n > max then .error (.outOfBounds n min max) else .ok ()

/-- The item behind its step suffix. -/
def validateBase (item base : List Char) (step : Bool) (min max : Nat) : Except ItemError Unit :=
  if base = ['*'] then .ok ()
  else
    match splitOnce ['-'] base with
    | some (a, b) =>
      match parseU64 a with
      | none => .error (.badStart a)
      | some lo =>
        match parseU64 b with
        | none => .error (.badEnd b)
        | some hi =>
          if lo > hi then .error (.reversed lo hi)
          else do
            inBounds min max lo
            inBounds min max hi
    | none =>
      if step then .error (.stepWithoutRange item)
      else
        match parseU64 base with
        | none => .error (.notANumber base)
        | some n => inBounds min max n

def validateItem (item : List Char) (min max : Nat) : Except ItemError Unit :=
  if item = [] then .error .emptyElement
  else
    match splitOnce ['/'] item with
    | some (base, stepStr) =>
      match parseU64 stepStr with
      | some n => if n > 0 then validateBase item base true min max else .error (.badStep item)
      | none => .error (.badStep item)
    | none => validateBase item item false min max

def validateField (field : List Char) (min max : Nat) : Except ItemError Unit :=
  if field = [] then .error .emptyField
  else forM (field.splitOn ',') fun item => validateItem item min max

/-- Label and inclusive bounds of each field. -/
def cronFields : List (String × Nat × Nat) :=
  [("minute", 0, 59), ("hour", 0, 23), ("day-of-month", 1, 31), ("month", 1, 12),
    ("day-of-week", 0, 6)]

def validateCron (expression : String) : Except CronError Unit :=
  let parts := splitWhitespace expression.toList
  if parts.length ≠ 5 then .error (.fieldCount parts.length expression.toList)
  else forM (parts.zip cronFields) fun (field, label, min, max) =>
    (validateField field min max).mapError (.invalidField label field)

/-! ## What it accepts -/

theorem forM_ok {α ε : Type} {check : α → Except ε Unit} {xs : List α} :
    forM xs check = .ok () ↔ ∀ x ∈ xs, check x = .ok () := by
  induction xs with
  | nil => simp [pure, Except.pure]
  | cons x rest ih =>
    simp only [List.forM_cons, List.forall_mem_cons]
    cases first : check x with
    | error e => simp [bind, Except.bind]
    | ok u => simpa [bind, Except.bind] using ih

theorem mapError_ok {ε δ : Type} {x : Except ε Unit} {f : ε → δ} :
    x.mapError f = .ok () ↔ x = .ok () := by
  cases x <;> simp [Except.mapError]

theorem inBounds_ok {min max n : Nat} : inBounds min max n = .ok () ↔ min ≤ n ∧ n ≤ max := by
  simp only [inBounds]
  split
  · simp
    omega
  · simp
    omega

/-- The numbers of the item that name values lie in the domain. -/
def Item.Bounded (min max : Nat) : Item → Prop
  | .any => True
  | .exactly n => min ≤ n ∧ n ≤ max
  | .range lo hi => (min ≤ lo ∧ lo ≤ max) ∧ (min ≤ hi ∧ hi ≤ max)
  | .anyStep _ => True
  | .rangeStep lo hi _ => (min ≤ lo ∧ lo ≤ max) ∧ (min ≤ hi ∧ hi ≤ max)

theorem bounds_ok {min max lo hi : Nat} :
    (do inBounds min max lo; inBounds min max hi) = .ok () ↔
      (min ≤ lo ∧ lo ≤ max) ∧ (min ≤ hi ∧ hi ≤ max) := by
  rw [← inBounds_ok, ← inBounds_ok]
  cases inBounds min max lo with
  | error e => simp [bind, Except.bind]
  | ok u => simp [bind, Except.bind]

/-- What is accepted as a base: the wildcard, a range, and a number without a step. -/
inductive BaseText (step : Bool) (min max : Nat) : List Char → Prop where
  | any : BaseText step min max ['*']
  | range {a b : List Char} {lo hi : Nat} (start : parseU64 a = some lo)
      (stop : parseU64 b = some hi) (ordered : lo ≤ hi)
      (bounded : (min ≤ lo ∧ lo ≤ max) ∧ (min ≤ hi ∧ hi ≤ max)) :
      BaseText step min max (a ++ '-' :: b)
  | exactly {text : List Char} {n : Nat} (single : step = false) (number : parseU64 text = some n)
      (bounded : min ≤ n ∧ n ≤ max) : BaseText step min max text

theorem validateBase_ok {item base : List Char} {step : Bool} {min max : Nat}
    (h : validateBase item base step min max = .ok ()) : BaseText step min max base := by
  simp only [validateBase] at h
  split at h
  · rename_i star
    exact star ▸ .any
  · split at h
    · rename_i a b range
      obtain ⟨rfl, -⟩ := splitOnce_char_some.mp range
      split at h
      · cases h
      · rename_i lo start
        split at h
        · cases h
        · rename_i hi stop
          split at h
          · cases h
          · rename_i ordered
            exact .range start stop (Nat.not_lt.mp ordered) (bounds_ok.mp h)
    · split at h
      · cases h
      · rename_i single
        split at h
        · cases h
        · rename_i n number
          exact .exactly (Bool.not_eq_true _ ▸ single) number (inBounds_ok.mp h)

/-- Without a step, a base is accepted as a whole item. -/
theorem validateBase_plain {item base : List Char} {min max : Nat}
    (h : validateBase item base false min max = .ok ()) :
    ∃ it, ItemText base it ∧ it.Bounded min max := by
  cases validateBase_ok h with
  | any => exact ⟨.any, .any, trivial⟩
  | range start stop ordered bounded =>
    exact ⟨.range _ _, .range start stop ordered, bounded⟩
  | exactly single number bounded => exact ⟨.exactly _, .exactly number, bounded⟩

/-- In front of a step, only the wildcard and ranges are accepted. -/
theorem validateBase_step {item base s : List Char} {n min max : Nat} (step : parseU64 s = some n)
    (positive : 0 < n) (h : validateBase item base true min max = .ok ()) :
    ∃ it, ItemText (base ++ '/' :: s) it ∧ it.Bounded min max := by
  cases validateBase_ok h with
  | any => exact ⟨.anyStep n, .anyStep step positive, trivial⟩
  | range start stop ordered bounded =>
    exact ⟨.rangeStep _ _ n, .rangeStep start stop ordered step positive, bounded⟩
  | exactly single => cases single

theorem validateItem_sound {item : List Char} {min max : Nat}
    (h : validateItem item min max = .ok ()) : ∃ it, ItemText item it ∧ it.Bounded min max := by
  simp only [validateItem] at h
  split at h
  · cases h
  · split at h
    · rename_i base stepStr cut
      obtain ⟨rfl, -⟩ := splitOnce_char_some.mp cut
      split at h
      · rename_i n step
        split at h
        · rename_i positive
          exact validateBase_step step positive h
        · cases h
      · cases h
    · exact validateBase_plain h

theorem validateField_sound {field : List Char} {min max : Nat}
    (h : validateField field min max = .ok ()) :
    ∀ text ∈ field.splitOn ',', ∃ it, ItemText text it ∧ it.Bounded min max := by
  simp only [validateField] at h
  split at h
  · cases h
  · exact fun text listed => validateItem_sound (forM_ok.mp h text listed)

/-- The five fields of an accepted expression, each accepted for its domain. -/
theorem validateCron_sound {expression : String} (h : validateCron expression = .ok ()) :
    (splitWhitespace expression.toList).length = 5 ∧
      ∀ part ∈ (splitWhitespace expression.toList).zip cronFields,
        validateField part.1 part.2.2.1 part.2.2.2 = .ok () := by
  simp only [validateCron] at h
  split at h
  · cases h
  · rename_i five
    refine ⟨by omega, fun part listed => ?_⟩
    exact mapError_ok.mp (forM_ok.mp h part listed)

/-! ## Live fields -/

/-- The field matches a value of its domain. -/
def FieldLive (field : List Char) (min max : Nat) : Prop :=
  ∃ value, min ≤ value ∧ value ≤ max ∧ fieldMatches field value = true

/-- All five fields, each for its own domain. -/
def EveryFieldLive (expression : String) : Prop :=
  ∀ part ∈ (splitWhitespace expression.toList).zip cronFields,
    FieldLive part.1 part.2.2.1 part.2.2.2

/-- Steps from zero that pass over the whole domain of a field that starts above zero. -/
def CoarseSteps (field : List Char) (min max : Nat) : Prop :=
  0 < min ∧ ∀ text ∈ field.splitOn ',', ∃ s n, text = '*' :: '/' :: s ∧ parseU64 s = some n ∧
    max < n

theorem itemMatches_anyStep {s : List Char} {n : Nat} (step : parseU64 s = some n)
    (positive : 0 < n) {value : Nat} (matched : itemMatches ('*' :: '/' :: s) value = true) :
    ∃ k, value = k * n := by
  have cut : splitStep (['*'] ++ '/' :: s) = some (['*'], some n) :=
    splitStep_step (by decide) step positive
  simp only [List.singleton_append] at cut
  simp only [itemMatches, cut, if_true] at matched
  obtain ⟨⟨k, hk⟩, -⟩ := inSteps_some.mp matched
  exact ⟨k, by omega⟩

theorem CoarseSteps.dead {field : List Char} {min max : Nat} (coarse : CoarseSteps field min max) :
    ¬ FieldLive field min max := by
  rintro ⟨value, low, high, matched⟩
  obtain ⟨text, listed, matched⟩ := List.any_eq_true.mp matched
  obtain ⟨s, n, rfl, step, wide⟩ := coarse.2 text listed
  obtain ⟨k, rfl⟩ := itemMatches_anyStep step (by omega) matched
  have := coarse.1
  cases k with
  | zero => omega
  | succ k =>
    have : n ≤ (k + 1) * n := Nat.le_mul_of_pos_left n (Nat.succ_pos k)
    omega

/-- An item within bounds includes a value of the domain, unless its steps from zero miss it. -/
theorem ItemText.live {text : List Char} {it : Item} {min max : Nat} (reads : ItemText text it)
    (bounded : it.Bounded min max) (inside : min ≤ max)
    (steps : ∀ s n, text = '*' :: '/' :: s → parseU64 s = some n → 0 < n →
      min = 0 ∨ (min ≤ n ∧ n ≤ max)) :
    ∃ value, min ≤ value ∧ value ≤ max ∧ it.Includes value := by
  cases reads with
  | any => exact ⟨min, Nat.le_refl min, inside, trivial⟩
  | @exactly text n number => exact ⟨n, bounded.1, bounded.2, rfl⟩
  | @range a b lo hi start stop ordered =>
    exact ⟨lo, bounded.1.1, bounded.1.2, Nat.le_refl lo, ordered⟩
  | @anyStep s n step positive =>
    rcases steps s n rfl step positive with zero | ⟨low, high⟩
    · exact ⟨0, zero.le, Nat.zero_le max, 0, (Nat.zero_mul n).symm⟩
    · exact ⟨n, low, high, 1, (Nat.one_mul n).symm⟩
  | @rangeStep a b s lo hi n start stop ordered step positive =>
    exact ⟨lo, bounded.1.1, bounded.1.2, ⟨0, by omega⟩, ordered⟩

theorem fieldLive_of_not_coarse {field : List Char} {min max : Nat}
    (accepted : validateField field min max = .ok ()) (low : min ≤ 1) (inside : min ≤ max)
    (fits : max ≤ maxOf 64) (fine : ¬ CoarseSteps field min max) : FieldLive field min max := by
  have reads := validateField_sound accepted
  have live : ∃ text ∈ field.splitOn ',', ∀ s n, text = '*' :: '/' :: s → parseU64 s = some n →
      0 < n → min = 0 ∨ (min ≤ n ∧ n ≤ max) := by
    by_cases zero : min = 0
    · obtain ⟨text, listed⟩ := List.exists_mem_of_ne_nil _ (List.splitOn_ne_nil ',' field)
      exact ⟨text, listed, fun _ _ _ _ _ => .inl zero⟩
    · by_contra none_fine
      refine fine ⟨Nat.pos_of_ne_zero zero, fun text listed => ?_⟩
      by_contra other
      refine none_fine ⟨text, listed, fun s n form step positive => .inr ⟨by omega, ?_⟩⟩
      exact Nat.le_of_not_lt fun wide => other ⟨s, n, form, step, wide⟩
  obtain ⟨text, listed, steps⟩ := live
  obtain ⟨it, read, bounded⟩ := reads text listed
  obtain ⟨value, lower, upper, includes⟩ := read.live bounded inside steps
  exact ⟨value, lower, upper,
    (fieldMatches_iff (upper.trans fits)).mpr ⟨text, listed, it, read, includes⟩⟩

theorem cronFields_domains : ∀ f ∈ cronFields,
    f.2.1 ≤ 1 ∧ f.2.1 ≤ f.2.2 ∧ f.2.2 ≤ maxOf 64 := by decide

/-- An accepted expression has only live fields unless one of them steps over its domain. -/
theorem accepted_fields_live_iff (expression : String) :
    (validateCron expression = .ok () → EveryFieldLive expression) ↔
      (validateCron expression = .ok () →
        ∀ part ∈ (splitWhitespace expression.toList).zip cronFields,
          ¬ CoarseSteps part.1 part.2.2.1 part.2.2.2) := by
  constructor
  · intro live accepted part listed coarse
    exact coarse.dead (live accepted part listed)
  · intro fine accepted part listed
    obtain ⟨low, inside, fits⟩ := cronFields_domains part.2 (List.of_mem_zip listed).2
    exact fieldLive_of_not_coarse ((validateCron_sound accepted).2 part listed) low inside fits
      (fine accepted part listed)

/-- Every thirty-second day of a month is accepted, and there is none. -/
theorem wide_day_step_dead :
    ¬ (validateCron "0 0 */32 * *" = .ok () → EveryFieldLive "0 0 */32 * *") := by
  intro live
  have accepted : validateCron "0 0 */32 * *" = .ok () := by decide +kernel
  have coarse : CoarseSteps ['*', '/', '3', '2'] 1 31 := by
    refine ⟨by decide, fun text listed => ⟨['3', '2'], 32, ?_, by decide +kernel, by decide⟩⟩
    have pieces : ['*', '/', '3', '2'].splitOn ',' = [['*', '/', '3', '2']] := by decide +kernel
    rw [pieces] at listed
    exact List.mem_singleton.mp listed
  exact coarse.dead (live accepted (['*', '/', '3', '2'], "day-of-month", 1, 31)
    (by decide +kernel))

end CronSchedule
