import AnimaOS.Prospective

/-!
# Rescheduling in constant time

`complete` advances a recurring intention over the occurrences it missed with one
division. It is compared with the loop that adds the interval until the
occurrence is no longer before `nowNs`.
-/

namespace Prospective

open FixedWidth

section Loop

variable {intervalNs nowNs : Nat}

/-- Add the interval while the occurrence is still before `nowNs`. -/
def stepUntil (positive : 0 < intervalNs) (inRange : nowNs ≤ maxOf 64) (next : Nat) : Nat :=
  if next < nowNs then stepUntil positive inRange (satAdd 64 next intervalNs) else next
termination_by maxOf 64 - next
decreasing_by
  simp only [satAdd]
  omega

/-- The earliest of the occurrences from `next` on that is not before `nowNs`. -/
structure Earliest (intervalNs nowNs next due : Nat) : Prop where
  occurs : ∃ k, due = min (next + k * intervalNs) (maxOf 64)
  late : nowNs ≤ due
  least : ∀ k, nowNs ≤ next + k * intervalNs → due ≤ next + k * intervalNs

theorem Earliest.le {next due due' : Nat} (h : Earliest intervalNs nowNs next due)
    (h' : Earliest intervalNs nowNs next due') : due ≤ due' := by
  obtain ⟨k, own⟩ := h.occurs
  obtain ⟨k', other⟩ := h'.occurs
  have late := h'.late
  have bounded := h.least k' (by omega)
  omega

theorem Earliest.unique {next due due' : Nat} (h : Earliest intervalNs nowNs next due)
    (h' : Earliest intervalNs nowNs next due') : due = due' :=
  Nat.le_antisymm (h.le h') (h'.le h)

theorem Earliest.here {next : Nat} (bounded : next ≤ maxOf 64) (late : nowNs ≤ next) :
    Earliest intervalNs nowNs next next where
  occurs := ⟨0, by omega⟩
  late := late
  least := fun k _ => Nat.le_add_right next (k * intervalNs)

/-- An occurrence before `nowNs` is passed over. -/
theorem Earliest.step {next due : Nat} (early : next < nowNs)
    (h : Earliest intervalNs nowNs (satAdd 64 next intervalNs) due) :
    Earliest intervalNs nowNs next due := by
  have moved : satAdd 64 next intervalNs = min (next + intervalNs) (maxOf 64) := rfl
  obtain ⟨k, own⟩ := h.occurs
  refine ⟨⟨k + 1, ?_⟩, h.late, ?_⟩
  · rw [own, moved, Nat.succ_mul]
    omega
  · intro j reached
    cases j with
    | zero => omega
    | succ j =>
      rw [Nat.succ_mul] at reached ⊢
      by_cases room : next + intervalNs ≤ maxOf 64
      · have least := h.least j (by omega)
        omega
      · omega

theorem stepUntil_earliest (positive : 0 < intervalNs) (inRange : nowNs ≤ maxOf 64) (next : Nat)
    (bounded : next ≤ maxOf 64) :
    Earliest intervalNs nowNs next (stepUntil positive inRange next) := by
  fun_induction stepUntil positive inRange next with
  | case1 next early ih => exact (ih (Nat.min_le_right _ _)).step early
  | case2 next late => exact .here bounded (Nat.le_of_not_lt late)

end Loop

/-! ## The division -/

/-- The next occurrence was missed and a later one falls exactly at `nowNs`. -/
def OccurrenceNow (dueAtNs intervalNs nowNs : Nat) : Prop :=
  dueAtNs + intervalNs < nowNs ∧ intervalNs ∣ nowNs - dueAtNs ∧ nowNs < maxOf 64

instance (dueAtNs intervalNs nowNs : Nat) :
    Decidable (OccurrenceNow dueAtNs intervalNs nowNs) :=
  inferInstanceAs (Decidable (_ ∧ _ ∧ _))

section Division

variable {dueAtNs intervalNs nowNs : Nat}

/-- The skip of missed intervals without the saturation on the way. -/
theorem nextDue_of_missed (missed : satAdd 64 dueAtNs intervalNs < nowNs)
    (inRange : nowNs ≤ maxOf 64) :
    nextDue dueAtNs intervalNs nowNs =
      min (dueAtNs + intervalNs + ((nowNs - (dueAtNs + intervalNs)) / intervalNs + 1) * intervalNs)
        (maxOf 64) := by
  have exact : satAdd 64 dueAtNs intervalNs = dueAtNs + intervalNs := by
    simp only [satAdd] at missed ⊢
    omega
  have skip : nextDue dueAtNs intervalNs nowNs = satAdd 64 (satAdd 64 dueAtNs intervalNs)
      (satMul 64 ((nowNs - satAdd 64 dueAtNs intervalNs) / intervalNs + 1) intervalNs) :=
    if_pos missed
  rw [skip, exact]
  simp only [satAdd, satMul]
  omega

theorem dvd_missed (missed : dueAtNs + intervalNs < nowNs) :
    intervalNs ∣ nowNs - (dueAtNs + intervalNs) ↔ intervalNs ∣ nowNs - dueAtNs := by
  have apart : nowNs - dueAtNs = nowNs - (dueAtNs + intervalNs) + intervalNs := by omega
  rw [apart, Nat.dvd_add_left (Nat.dvd_refl _)]

/-- Unless an occurrence falls at `nowNs`, the quotient counts the occurrences before it. -/
theorem nextDue_earliest (positive : 0 < intervalNs) (inRange : nowNs ≤ maxOf 64)
    (apart : ¬ OccurrenceNow dueAtNs intervalNs nowNs) :
    Earliest intervalNs nowNs (satAdd 64 dueAtNs intervalNs)
      (nextDue dueAtNs intervalNs nowNs) := by
  by_cases missed : satAdd 64 dueAtNs intervalNs < nowNs
  · rw [nextDue_of_missed missed inRange]
    have exact : satAdd 64 dueAtNs intervalNs = dueAtNs + intervalNs := by
      simp only [satAdd] at missed ⊢
      omega
    rw [exact] at missed ⊢
    have quotient := Nat.div_add_mod (nowNs - (dueAtNs + intervalNs)) intervalNs
    have rest := Nat.mod_lt (nowNs - (dueAtNs + intervalNs)) positive
    rw [Nat.mul_comm] at quotient
    refine ⟨⟨_, rfl⟩, ?_, ?_⟩
    · rw [Nat.succ_mul]
      omega
    · intro k reached
      by_cases last : nowNs = maxOf 64
      · omega
      have rest_ne : (nowNs - (dueAtNs + intervalNs)) % intervalNs ≠ 0 := by
        intro aligned
        refine apart ⟨missed, (dvd_missed missed).mp (Nat.dvd_of_mod_eq_zero aligned), by omega⟩
      have above : (nowNs - (dueAtNs + intervalNs)) / intervalNs + 1 ≤ k := by
        by_contra small
        have fewer := Nat.mul_le_mul_right intervalNs (Nat.le_of_not_lt small)
        omega
      have enough := Nat.mul_le_mul_right intervalNs above
      omega
  · rw [nextDue, if_neg missed]
    exact .here (Nat.min_le_right _ _) (Nat.le_of_not_lt missed)

/-- An occurrence at `nowNs` itself is passed over. -/
theorem nextDue_after (inRange : nowNs ≤ maxOf 64) (positive : 0 < intervalNs)
    (now : OccurrenceNow dueAtNs intervalNs nowNs) : nowNs < nextDue dueAtNs intervalNs nowNs := by
  obtain ⟨missed, -, below⟩ := now
  have exact : satAdd 64 dueAtNs intervalNs = dueAtNs + intervalNs := by
    simp only [satAdd]
    omega
  rw [nextDue_of_missed (by omega) inRange, Nat.succ_mul]
  have quotient := Nat.div_add_mod (nowNs - (dueAtNs + intervalNs)) intervalNs
  have rest := Nat.mod_lt (nowNs - (dueAtNs + intervalNs)) positive
  rw [Nat.mul_comm] at quotient
  omega

/-- The due time of the loop, on the schedule unless it saturated, with no occurrence skipped. -/
structure StepwiseDue (dueAtNs : Nat) (positive : 0 < intervalNs) (inRange : nowNs ≤ maxOf 64)
    (newDueAtNs : Nat) : Prop where
  steps : newDueAtNs = stepUntil positive inRange (satAdd 64 dueAtNs intervalNs)
  aligned : newDueAtNs = maxOf 64 ∨ newDueAtNs ≡ dueAtNs [MOD intervalNs]
  unskipped : ∀ k, 1 ≤ k → nowNs ≤ dueAtNs + k * intervalNs →
    newDueAtNs ≤ dueAtNs + k * intervalNs

theorem Earliest.stepwise {newDueAtNs : Nat} (positive : 0 < intervalNs)
    (inRange : nowNs ≤ maxOf 64)
    (h : Earliest intervalNs nowNs (satAdd 64 dueAtNs intervalNs) newDueAtNs) :
    StepwiseDue dueAtNs positive inRange newDueAtNs := by
  have next : satAdd 64 dueAtNs intervalNs = min (dueAtNs + intervalNs) (maxOf 64) := rfl
  obtain ⟨k, own⟩ := h.occurs
  refine ⟨h.unique (stepUntil_earliest positive inRange _ (Nat.min_le_right _ _)), ?_, ?_⟩
  · by_cases saturated : newDueAtNs = maxOf 64
    · exact Or.inl saturated
    · right
      have sum : newDueAtNs = dueAtNs + (k + 1) * intervalNs := by
        rw [Nat.succ_mul]
        omega
      simp [sum, Nat.ModEq]
  · intro j one reached
    obtain ⟨j, rfl⟩ := Nat.exists_eq_add_of_le' one
    rw [Nat.succ_mul] at reached ⊢
    by_cases room : dueAtNs + intervalNs ≤ maxOf 64
    · have least := h.least j (by omega)
      omega
    · omega

theorem stepwise_nextDue_iff (positive : 0 < intervalNs) (inRange : nowNs ≤ maxOf 64) :
    StepwiseDue dueAtNs positive inRange (nextDue dueAtNs intervalNs nowNs) ↔
      ¬ OccurrenceNow dueAtNs intervalNs nowNs := by
  constructor
  · intro stepwise now
    obtain ⟨missed, ⟨k, multiple⟩, -⟩ := id now
    have after := nextDue_after inRange positive now
    have several : 1 ≤ k := by
      rcases Nat.eq_zero_or_pos k with rfl | several
      · omega
      · exact several
    have here := stepwise.unskipped k several (by rw [Nat.mul_comm k]; omega)
    rw [Nat.mul_comm k] at here
    omega
  · intro apart
    exact (nextDue_earliest positive inRange apart).stepwise positive inRange

end Division

/-! ## `complete` -/

theorem find_updateFirst (id : Nat) {f : Intention → Intention} (keeps : ∀ i, (f i).id = i.id)
    {intentions : List Intention} {i : Intention}
    (found : intentions.find? (fun i => i.id = id) = some i) :
    (updateFirst id f intentions).find? (fun i => i.id = id) = some (f i) := by
  induction intentions with
  | nil => simp at found
  | cons first rest ih =>
    by_cases own : first.id = id
    · rw [List.find?_cons_of_pos (by simpa using own)] at found
      rw [updateFirst, if_pos own, List.find?_cons_of_pos (by simpa [keeps] using own)]
      exact congrArg (some ∘ f) (Option.some.inj found)
    · rw [List.find?_cons_of_neg (by simpa using own)] at found
      rw [updateFirst, if_neg own, List.find?_cons_of_neg (by simpa using own)]
      exact ih found

/-- The record that `complete` leaves under the id of a recurring intention. -/
theorem complete_reschedules {k : Kept} {id nowNs : Nat} {io : Except String Unit} {i : Intention}
    {intervalNs : Nat} (found : k.store.intentions.find? (fun i => i.id = id) = some i)
    (repeats : i.repeatIntervalNs = some intervalNs) (positive : 0 < intervalNs) :
    (complete k id nowNs io).1.store.intentions.find? (fun i => i.id = id) =
      some (reschedule (nextDue i.dueAtNs intervalNs nowNs) i) := by
  have updated : (complete k id nowNs io).1.store.intentions =
      updateFirst id (reschedule (nextDue i.dueAtNs intervalNs nowNs)) k.store.intentions := by
    simp only [complete, found, repeats, if_neg (Nat.ne_of_gt positive)]
    cases io <;> rfl
  rw [updated]
  exact find_updateFirst id (f := reschedule _) (fun _ => rfl) found

/-- The record of the intention carries the due time of the loop, whatever the flush answers. -/
def CompletesStepwise (k : Kept) (id nowNs : Nat) (io : Except String Unit) (dueAtNs : Nat)
    {intervalNs : Nat} (positive : 0 < intervalNs) (inRange : nowNs ≤ maxOf 64) : Prop :=
  ∃ r, (complete k id nowNs io).1.store.intentions.find? (fun i => i.id = id) = some r ∧
    StepwiseDue dueAtNs positive inRange r.dueAtNs

/-- The division agrees with the loop exactly when no occurrence after the next falls on `nowNs`. -/
theorem complete_stepwise_iff (k : Kept) (id nowNs : Nat) (io : Except String Unit) (i : Intention)
    (intervalNs : Nat) (found : k.store.intentions.find? (fun i => i.id = id) = some i)
    (repeats : i.repeatIntervalNs = some intervalNs) (positive : 0 < intervalNs)
    (inRange : nowNs ≤ maxOf 64) :
    CompletesStepwise k id nowNs io i.dueAtNs positive inRange ↔
      ¬ OccurrenceNow i.dueAtNs intervalNs nowNs := by
  rw [← stepwise_nextDue_iff positive inRange, CompletesStepwise,
    complete_reschedules found repeats positive]
  simp [reschedule]

/-- Due at 0 every 5, looked at 10: the loop stops at 10. -/
def everyFive : Kept where
  store := {
    intentions := [Intention.recurring 0 "every five" 0 5 0]
    nextId := 1
    distinct := by decide
    fresh := by decide }
  file := none

theorem complete_stepwise_at_eleven :
    CompletesStepwise everyFive 0 11 (.ok ()) 0 (show 0 < 5 by decide) (by decide) :=
  (complete_stepwise_iff everyFive 0 11 (.ok ()) (Intention.recurring 0 "every five" 0 5 0) 5 rfl
    rfl (by decide) (by decide)).mpr (by decide)

theorem complete_skips_now :
    ¬ CompletesStepwise everyFive 0 10 (.ok ()) 0 (show 0 < 5 by decide) (by decide) := by
  rintro ⟨r, found, stepwise⟩
  have due : r = Intention.recurring 0 "every five" 15 5 0 := (Option.some.inj found).symm
  have here := stepwise.unskipped 2 (by decide) (by decide)
  rw [due] at here
  exact absurd here (by decide)

end Prospective
