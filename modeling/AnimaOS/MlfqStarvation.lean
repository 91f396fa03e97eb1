import AnimaOS.MlfqStamps

/-!
# No task starves while boosts still come

Once boosted, a task stands in the High tier ahead of everything that arrives
later. What remains is the wait for the boost, and the dispatch counter decides
it: saturated between two multiples of the interval, it never meets one again.
-/

namespace Mlfq

open Machine FixedWidth

universe u

variable {G : Type u}

def stamps (ts : List (Task G)) : List G := ts.map Task.stamp

/-- The tasks queued at the first call of `checkAndBoost` that boosts. -/
def firstBoost (calls : List (LoopCall G)) : Option Nat :=
  (calls.find? fun c => boostDue c.before.scheduler).map
    fun c => len (pushAll c.before.agenda c.request.arrivals)

/-- The starvation bound of a stamp; without a boost the interval alone has to do. -/
structure Served (n : Nat) (calls : List (LoopCall G)) (x : G) : Prop where
  boosted : ∀ m, firstBoost calls = some m → n + m ≤ calls.length →
    x ∈ stamps (dispatched (calls.take (n + m)))
  unboosted : firstBoost calls = none → n < calls.length →
    x ∈ stamps (dispatched (calls.take n))

theorem stamps_bodies (ts : List (Task G)) : stamps (bodies ts) = stamps ts := by
  simp [stamps, bodies, body, Function.comp_def]

theorem mem_pushAll {x : G} {a : TaskAgenda G} {ts : List (Task G)} :
    x ∈ stamps (queue (pushAll a ts)) ↔ x ∈ stamps (queue a) ∨ x ∈ stamps ts := by
  rw [stamps, ((pushAll_perm a ts).map Task.stamp).mem_iff, List.map_append, List.mem_append]
  rfl

theorem dispatched_take_mono {x : G} {calls : List (LoopCall G)} {k m : Nat} (h : k ≤ m)
    (hx : x ∈ stamps (dispatched (calls.take k))) : x ∈ stamps (dispatched (calls.take m)) :=
  (((List.take_sublist_take_left h).filterMap _).map _).subset hx

/-! ## Nothing overtakes the High tier -/

/-- The agenda a selection meets: arrivals queued, boost made. -/
def ready (l : Loop G) (i : Iteration G) : TaskAgenda G :=
  (checkAndBoost l.scheduler (pushAll l.agenda i.arrivals)).1

theorem ready_stamps (l : Loop G) (i : Iteration G) :
    stamps (queue (ready l i)) = stamps (queue (pushAll l.agenda i.arrivals)) := by
  have same := congrArg stamps (checkAndBoost_bodies l.scheduler (pushAll l.agenda i.arrivals))
  simp only [stamps_bodies] at same
  exact same

theorem pushAll_high (a : TaskAgenda G) (ts : List (Task G)) :
    (pushAll a ts).high = a.high ++ ts.filter fun t => tierOf t = 0 := by
  induction ts generalizing a with
  | nil => simp [pushAll]
  | cons t rest ih =>
    have later : (pushAll a (t :: rest)).high =
        (push a t).high ++ rest.filter fun t => tierOf t = 0 :=
      ih (push a t)
    rcases push_cases a t with ⟨tier, placed⟩ | ⟨tier, placed⟩ | ⟨tier, placed⟩ <;>
      simp [later, placed, tier]

theorem checkAndBoost_high (s : IterationAwareMlfq G) (a : TaskAgenda G) :
    a.high <+: (checkAndBoost s a).1.high := by
  simp only [checkAndBoost]
  split
  · simp [boostAllToHigh, List.append_assoc]
  · exact List.prefix_rfl

theorem ready_high (l : Loop G) (i : Iteration G) : l.agenda.high <+: (ready l i).high := by
  have arrived : l.agenda.high <+: (pushAll l.agenda i.arrivals).high :=
    ⟨_, (pushAll_high l.agenda i.arrivals).symm⟩
  exact arrived.trans (checkAndBoost_high l.scheduler _)

theorem step_high {l : Loop G} {i : Iteration G} {t : Task G} {tail : List (Task G)}
    (h : (ready l i).high = t :: tail) :
    (step l i).2 = some t ∧ (step l i).1.agenda.high = tail := by
  have selected : selectOptimalTask (ready l i) = some (t, { ready l i with high := tail }) := by
    simp only [selectOptimalTask, h]
  rw [ready] at selected
  simp only [step, serve, selected, and_self]

/-- A task of the High tier leaves as soon as those ahead of it have left. -/
theorem high_dispatched {x : G} (j : Nat) {l : Loop G} {i : Iteration G}
    {rest : List (Iteration G)} (place : (stamps (ready l i).high)[j]? = some x)
    (long : j ≤ rest.length) :
    x ∈ stamps (dispatched ((trace step l (i :: rest)).take (j + 1))) := by
  induction j generalizing l i rest with
  | zero =>
    cases high : (ready l i).high with
    | nil => simp [high, stamps] at place
    | cons t tail =>
      obtain ⟨gone, -⟩ := step_high high
      have same : t.stamp = x := by simpa [high, stamps] using place
      simp [trace, dispatched_cons, gone, stamps, same]
  | succ j ih =>
    cases high : (ready l i).high with
    | nil => simp [high, stamps] at place
    | cons t tail =>
      obtain ⟨-, left⟩ := step_high high
      cases rest with
      | nil => simp at long
      | cons i' rest =>
        obtain ⟨later, grown⟩ := ready_high (step l i).1 i'
        have moved : (stamps (ready (step l i).1 i').high)[j]? = some x := by
          have tail_place : (stamps tail)[j]? = some x := by simpa [high, stamps] using place
          rw [← grown, left, stamps, List.map_append, List.getElem?_append_left]
          · exact tail_place
          · exact (List.getElem?_eq_some_iff.mp tail_place).1
        have found := ih moved (by simpa using long)
        rw [trace, List.take_succ_cons, dispatched_cons, stamps, List.map_append, List.mem_append]
        exact .inr found

/-! ## The wait for a boost -/

def Due (n c : Nat) : Prop := c ≠ 0 ∧ n ∣ c

theorem boostDue_iff {s : IterationAwareMlfq G} (h : 0 < s.boostInterval) :
    boostDue s = true ↔ Due s.boostInterval s.dispatchCount := by
  have positive : s.boostInterval ≠ 0 := by omega
  simp [boostDue, Due, positive, Nat.dvd_iff_mod_eq_zero]

theorem boost_high {l : Loop G} {i : Iteration G} (due : boostDue l.scheduler = true) :
    stamps (ready l i).high = stamps (queue (pushAll l.agenda i.arrivals)) := by
  have emptied : queue (ready l i) = (ready l i).high := by
    simp [ready, checkAndBoost, due, boostAllToHigh, queue]
  rw [← ready_stamps, emptied]

theorem dispatchTask_counts (s : IterationAwareMlfq G) (t : Task G) (backend : String → Stream) :
    (dispatchTask s t backend).1.boostInterval = s.boostInterval ∧
      (dispatchTask s t backend).1.dispatchCount = satAdd 64 s.dispatchCount 1 := by
  simp only [dispatchTask]
  split
  · exact ⟨rfl, rfl⟩
  · split <;> exact ⟨rfl, rfl⟩

/-- A boost that is due at once puts every queued task within reach. -/
theorem served_at_boost {x : G} {l : Loop G} {i : Iteration G} (rest : List (Iteration G))
    (due : boostDue l.scheduler = true)
    (waiting : x ∈ stamps (queue (pushAll l.agenda i.arrivals))) :
    Served 0 (trace step l (i :: rest)) x := by
  constructor
  · intro m first long
    have total : len (pushAll l.agenda i.arrivals) = m := by
      simpa [firstBoost, trace, due] using first
    rw [← boost_high due] at waiting
    obtain ⟨j, place⟩ := List.mem_iff_getElem?.mp waiting
    have behind : j < m := by
      have bounded := (List.getElem?_eq_some_iff.mp place).1
      rw [boost_high due, stamps, List.length_map, length_queue, total] at bounded
      exact bounded
    simp only [trace_length, List.length_cons] at long
    exact dispatched_take_mono (by omega) (high_dispatched j place (by omega))
  · intro none
    simp [firstBoost, trace, due] at none

theorem Served.nil (n : Nat) (x : G) : Served n [] x := by
  constructor
  · intro m first
    cases first
  · intro _ long
    cases long

theorem Served.head {n : Nat} {x : G} {c : LoopCall G} (calls : List (LoopCall G)) {t : Task G}
    (gone : c.response = some t) (same : t.stamp = x) : Served (n + 1) (c :: calls) x := by
  have first : x ∈ stamps (dispatched ((c :: calls).take 1)) := by
    simp [dispatched_cons, gone, stamps, same]
  constructor
  · intro m _ _
    exact dispatched_take_mono (by omega) first
  · intro _ _
    exact dispatched_take_mono (by omega) first

/-- A call that does not boost costs one step of the wait. -/
theorem Served.cons {n : Nat} {x : G} {c : LoopCall G} {calls : List (LoopCall G)}
    (now : boostDue c.before.scheduler = false) (later : Served n calls x) :
    Served (n + 1) (c :: calls) x := by
  have skip : firstBoost (c :: calls) = firstBoost calls := by
    simp [firstBoost, now]
  have behind : ∀ k, x ∈ stamps (dispatched (calls.take k)) →
      x ∈ stamps (dispatched ((c :: calls).take (k + 1))) := by
    intro k hx
    simp only [List.take_succ_cons, dispatched_cons, stamps, List.map_append, List.mem_append]
    exact .inr hx
  constructor
  · intro m first long
    rw [skip] at first
    rw [List.length_cons] at long
    rw [show n + 1 + m = n + m + 1 by omega]
    exact behind _ (later.boosted m first (by omega))
  · intro unboosted long
    rw [skip] at unboosted
    rw [List.length_cons] at long
    exact behind _ (later.unboosted unboosted (by omega))

theorem Served.mono {n k : Nat} {x : G} {calls : List (LoopCall G)}
    (served : Served n calls x) (h : n ≤ k) : Served k calls x := by
  constructor
  · intro m first long
    exact dispatched_take_mono (by omega) (served.boosted m first (by omega))
  · intro unboosted long
    exact dispatched_take_mono h (served.unboosted unboosted (by omega))

theorem step_counter {l : Loop G} {i : Iteration G} (held : l.scheduler.dispatchCount ≤ maxOf 64) :
    (step l i).1.scheduler.boostInterval = l.scheduler.boostInterval ∧
      (step l i).1.scheduler.dispatchCount =
        min (l.scheduler.dispatchCount + (step l i).2.toList.length) (maxOf 64) := by
  rcases serve_cases l.scheduler (pushAll l.agenda i.arrivals) i.backend with
    ⟨t, left, -, -, served⟩ | ⟨-, served⟩
  · simp only [step, served]
    exact dispatchTask_counts l.scheduler t i.backend
  · rw [step, served]
    exact ⟨rfl, (Nat.min_eq_left held).symm⟩

/-- A waiting task leaves with the step or is queued after it; either way the step dispatches. -/
theorem step_waiting {x : G} {l : Loop G} {i : Iteration G}
    (waiting : x ∈ stamps (queue (pushAll l.agenda i.arrivals))) :
    ∃ t, (step l i).2 = some t ∧ (t.stamp = x ∨ x ∈ stamps (queue (step l i).1.agenda)) := by
  rw [← ready_stamps] at waiting
  rcases serve_cases l.scheduler (pushAll l.agenda i.arrivals) i.backend with
    ⟨t, left, split, -, served⟩ | ⟨empty, -⟩
  · simp only [ready, split, stamps, List.map_cons, List.mem_cons] at waiting
    simp only [step, served]
    exact ⟨t, rfl, waiting.imp Eq.symm id⟩
  · simp only [ready, empty] at waiting
    cases waiting

/-- Until the boost every step dispatches, so the counter reaches it in `gap` steps. -/
theorem served_after {x : G} (gap : Nat) {n : Nat} (positive : 0 < n) {l : Loop G}
    {i : Iteration G} (rest : List (Iteration G)) (interval : l.scheduler.boostInterval = n)
    (quiet : ∀ j, j < gap → ¬ Due n (l.scheduler.dispatchCount + j))
    (due : Due n (l.scheduler.dispatchCount + gap))
    (room : l.scheduler.dispatchCount + gap ≤ maxOf 64)
    (waiting : x ∈ stamps (queue (pushAll l.agenda i.arrivals))) :
    Served gap (trace step l (i :: rest)) x := by
  induction gap generalizing l i rest with
  | zero =>
    refine served_at_boost rest ((boostDue_iff (by omega)).mpr ?_) waiting
    rw [interval]
    exact due
  | succ gap ih =>
    have now : boostDue l.scheduler = false := by
      have := quiet 0 (by omega)
      rw [Bool.eq_false_iff, Ne, boostDue_iff (by omega), interval]
      exact this
    obtain ⟨t, gone, left⟩ := step_waiting waiting
    rcases left with same | queued
    · exact Served.head _ gone same
    · refine Served.cons now ?_
      obtain ⟨kept, counted⟩ := step_counter (l := l) (i := i) (by omega)
      have advanced : (step l i).1.scheduler.dispatchCount = l.scheduler.dispatchCount + 1 := by
        simp only [counted, gone, Option.toList_some, List.length_singleton]
        omega
      cases rest with
      | nil => exact Served.nil gap x
      | cons i' rest =>
        refine ih rest (kept.trans interval) ?_ ?_ ?_ (mem_pushAll.mpr (.inl queued))
        · intro j hj
          have := quiet (j + 1) (by omega)
          simp only [advanced, Nat.add_assoc, Nat.add_comm 1]
          exact this
        · simp only [advanced, Nat.add_assoc, Nat.add_comm 1]
          exact due
        · omega

/-! ## The counter and its multiples -/

/-- The largest multiple of the interval that the counter can hold. -/
def lastBoost (n : Nat) : Nat := maxOf 64 - maxOf 64 % n

theorem due_lastBoost {n : Nat} (positive : 0 < n) (fits : n ≤ maxOf 64) : Due n (lastBoost n) := by
  have below := Nat.mod_lt (maxOf 64) positive
  simp only [Due, lastBoost]
  refine ⟨by omega, ?_⟩
  exact (Nat.dvd_sub_mod (maxOf 64))

theorem next_boost {n c : Nat} (positive : 0 < n) (fits : n ≤ maxOf 64) (h : c ≤ lastBoost n) :
    ∃ gap, gap ≤ n ∧ (∀ j, j < gap → ¬ Due n (c + j)) ∧ Due n (c + gap) ∧ c + gap ≤ maxOf 64 := by
  classical
  have phase : Due n (c + (n - c % n)) := by
    have below := Nat.mod_lt c positive
    have split := Nat.div_add_mod c n
    refine ⟨by omega, c / n + 1, ?_⟩
    simp only [Nat.mul_add, Nat.mul_one]
    omega
  have last : Due n (c + (lastBoost n - c)) := by
    rw [Nat.add_sub_cancel' h]
    exact due_lastBoost positive fits
  have some_gap : ∃ k, Due n (c + k) := ⟨_, phase⟩
  have soon := Nat.find_min' some_gap phase
  have early := Nat.find_min' some_gap last
  have whole : lastBoost n ≤ maxOf 64 := Nat.sub_le _ _
  refine ⟨Nat.find some_gap, by omega, ?_, Nat.find_spec some_gap, by omega⟩
  intro j hj
  exact Nat.find_min some_gap hj

theorem not_due_beyond {n c : Nat} (positive : 0 < n) (beyond : lastBoost n < c)
    (held : c ≤ maxOf 64) : ¬ Due n c := by
  rintro ⟨-, k, rfl⟩
  have split := Nat.div_add_mod (maxOf 64) n
  have below := Nat.mod_lt (maxOf 64) positive
  have smaller : k ≤ maxOf 64 / n := (Nat.le_div_iff_mul_le positive).mpr (by
    rw [Nat.mul_comm]
    exact held)
  have := Nat.mul_le_mul_left n smaller
  simp only [lastBoost] at beyond
  omega

theorem counter_le_lastBoost_iff (n d : Nat) :
    min d (maxOf 64) ≤ lastBoost n ↔ d ≤ lastBoost n ∨ n ∣ maxOf 64 := by
  have whole := Nat.mod_le (maxOf 64) n
  rw [Nat.dvd_iff_mod_eq_zero]
  simp only [lastBoost]
  omega

/-- The counter is the number of dispatches, until it saturates. -/
theorem final_counter {l : Loop G} (held : l.scheduler.dispatchCount ≤ maxOf 64)
    (is : List (Iteration G)) :
    (final step l is).scheduler.boostInterval = l.scheduler.boostInterval ∧
      (final step l is).scheduler.dispatchCount =
        min (l.scheduler.dispatchCount + (dispatched (trace step l is)).length) (maxOf 64) := by
  induction is generalizing l with
  | nil => exact ⟨rfl, (Nat.min_eq_left held).symm⟩
  | cons i rest ih =>
    obtain ⟨kept, counted⟩ := step_counter (i := i) held
    obtain ⟨kept', counted'⟩ := ih (l := (step l i).1) (by omega)
    constructor
    · exact kept'.trans kept
    · simp only [final, trace, dispatched_cons, List.length_append] at counted' ⊢
      omega

/-! ## Beyond the last boost -/

/-- No boost, and a High task in every iteration: what is not in the High tier stays. -/
theorem flood_starves {x : G} {n : Nat} (positive : 0 < n) {l : Loop G}
    (interval : l.scheduler.boostInterval = n)
    (beyond : lastBoost n < l.scheduler.dispatchCount)
    (held : l.scheduler.dispatchCount ≤ maxOf 64) (absent : x ∉ stamps l.agenda.high)
    {is : List (Iteration G)} (flooded : ∀ i ∈ is, ∃ t ∈ i.arrivals, tierOf t = 0)
    (others : ∀ i ∈ is, ∀ t ∈ i.arrivals, tierOf t = 0 → t.stamp ≠ x) :
    firstBoost (trace step l is) = none ∧ x ∉ stamps (dispatched (trace step l is)) := by
  induction is generalizing l with
  | nil => exact ⟨rfl, List.not_mem_nil⟩
  | cons i rest ih =>
    have now : boostDue l.scheduler = false := by
      rw [Bool.eq_false_iff, Ne, boostDue_iff (by omega), interval]
      exact not_due_beyond positive beyond held
    have still : ready l i = pushAll l.agenda i.arrivals := by
      simp [ready, checkAndBoost, now]
    have grown := pushAll_high l.agenda i.arrivals
    have absent' : x ∉ stamps (ready l i).high := by
      simp only [still, grown, stamps, List.map_append, List.mem_append]
      rintro (old | new)
      · exact absent old
      · obtain ⟨t, ht, rfl⟩ := List.mem_map.mp new
        obtain ⟨arrived, tier⟩ := List.mem_filter.mp ht
        exact others i List.mem_cons_self t arrived (of_decide_eq_true tier) rfl
    cases high : (ready l i).high with
    | nil =>
      obtain ⟨t, arrived, tier⟩ := flooded i List.mem_cons_self
      have queued : t ∈ i.arrivals.filter fun t => tierOf t = 0 :=
        List.mem_filter.mpr ⟨arrived, decide_eq_true tier⟩
      simp only [still, grown, List.append_eq_nil_iff] at high
      rw [high.2] at queued
      cases queued
    | cons t tail =>
      obtain ⟨gone, left⟩ := step_high high
      obtain ⟨kept, counted⟩ := step_counter (i := i) held
      simp only [high, stamps, List.map_cons, List.mem_cons, not_or] at absent'
      obtain ⟨unboosted, kept_waiting⟩ := ih (l := (step l i).1) (kept.trans interval) (by omega)
        (by omega) (by rw [left]; exact absent'.2)
        (fun j hj => flooded j (List.mem_cons_of_mem _ hj))
        (fun j hj => others j (List.mem_cons_of_mem _ hj))
      constructor
      · simpa [firstBoost, trace, now] using unboosted
      · rw [trace, dispatched_cons, gone, stamps, Option.toList_some, List.map_append,
          List.mem_append, not_or]
        refine ⟨?_, kept_waiting⟩
        simp only [List.map_singleton, List.mem_singleton]
        exact absent'.1

end Mlfq
