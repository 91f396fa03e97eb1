import AnimaOS.MlfqStarvation

/-!
# The starvation bound of the scheduler loop

Runs of the code are read through their stamped copies. The bound holds of every
task pushed while the dispatch counter can still meet a multiple of the interval;
beyond it a stream of High tasks keeps a Low task waiting for ever.
-/

namespace Mlfq

open Machine FixedWidth

/-- The pushed tasks of a run, one by one, against what it dispatched and left queued. -/
structure Accounted (n : Nat) (is : List (Iteration Unit)) : Prop where
  observed : (dispatched (trace step (start n) (stampRun 0 is))).map erase =
    dispatched (trace step (start n) is)
  remaining : (queue (final step (start n) (stampRun 0 is)).agenda).map erase =
    queue (final step (start n) is).agenda
  numbered : (pushed (stampRun 0 is)).map (·.stamp.seq) = List.range (pushed is).length
  conserved : (bodies (pushed (stampRun 0 is))).Perm
    (bodies (dispatched (trace step (start n) (stampRun 0 is)) ++
      queue (final step (start n) (stampRun 0 is)).agenda))
  ordered : ∀ tier, bodies (ofTier Stamp.tier tier (pushed (stampRun 0 is))) =
    bodies (ofTier Stamp.tier tier (dispatched (trace step (start n) (stampRun 0 is)) ++
      queue (final step (start n) (stampRun 0 is)).agenda))

/-- The calls of a run that has the past behind it. -/
def callsAfter (n : Nat) (past coming : List (Iteration Unit)) : List (LoopCall Stamp) :=
  trace step (final step (start n) (stampRun 0 past)) (stampRun (pushed past).length coming)

/-- Whatever comes after the past, the tasks its first iteration pushes are served in time. -/
def TasksServed (n : Nat) (past : List (Iteration Unit)) : Prop :=
  ∀ (first : Iteration Unit) (rest : List (Iteration Unit)),
    ∀ t ∈ stampAll (pushed past).length first.arrivals,
      Served n (callsAfter n past (first :: rest)) t.stamp

theorem start_conserved (n : Nat) (is : List (Iteration Unit)) :
    (bodies (pushed (stampRun 0 is))).Perm
      (bodies (dispatched (trace step (start n) (stampRun 0 is)) ++
        queue (final step (start n) (stampRun 0 is)).agenda)) :=
  conserved (start n) (stampRun 0 is)

theorem run_accounted (n : Nat) (is : List (Iteration Unit)) : Accounted n is := by
  have sorted : Sorted Stamp.tier (start n : Loop Stamp).agenda := by
    constructor <;> simp [start, TaskAgenda.new]
  constructor
  · exact erase_dispatched n 0 is
  · exact erase_queue n 0 is
  · simp only [stampRun_seq, List.range_eq_range']
  · exact start_conserved n is
  · intro tier
    exact fifo sorted (stampRun_own 0 is) tier

theorem past_counter (n : Nat) (past : List (Iteration Unit)) :
    (final step (start n) (stampRun 0 past)).scheduler.boostInterval = n ∧
      (final step (start n) (stampRun 0 past)).scheduler.dispatchCount =
        min (dispatched (trace step (start n) past)).length (maxOf 64) := by
  have fresh : (start n : Loop Stamp).scheduler.dispatchCount = 0 := rfl
  obtain ⟨kept, counted⟩ := final_counter (l := start n) (by omega) (stampRun 0 past)
  have same := congrArg List.length (erase_dispatched n 0 past)
  rw [List.length_map] at same
  simp only [fresh, same, Nat.zero_add] at counted
  exact ⟨kept, counted⟩

/-! ## A flood of High tasks -/

theorem mem_stampRun {next : Nat} {is : List (Iteration Unit)} {i : Iteration Stamp}
    (h : i ∈ stampRun next is) :
    ∃ k j, next ≤ k ∧ j ∈ is ∧ i = ⟨stampAll k j.arrivals, j.backend⟩ := by
  induction is generalizing next with
  | nil => cases h
  | cons j rest ih =>
    rcases List.mem_cons.mp h with rfl | h
    · exact ⟨next, j, Nat.le_refl _, List.mem_cons_self, rfl⟩
    · obtain ⟨k, j', later, hj, same⟩ := ih h
      exact ⟨k, j', by omega, List.mem_cons_of_mem _ hj, same⟩

theorem queued_seq_lt {n : Nat} {past : List (Iteration Unit)} {x : Stamp}
    (h : x ∈ stamps (queue (final step (start n) (stampRun 0 past)).agenda)) :
    x.seq < (pushed past).length := by
  have accounts := (start_conserved n past).map Task.stamp
  have pushed_x : x ∈ stamps (bodies (pushed (stampRun 0 past))) := by
    rw [stamps, accounts.mem_iff, ← stamps, stamps_bodies, stamps, List.map_append,
      List.mem_append]
    exact .inr h
  rw [stamps_bodies, stamps] at pushed_x
  obtain ⟨t, ht, rfl⟩ := List.mem_map.mp pushed_x
  have numbered : t.stamp.seq ∈ (pushed (stampRun 0 past)).map (·.stamp.seq) :=
    List.mem_map_of_mem ht
  simp only [stampRun_seq, List.mem_range'_1] at numbered
  omega

def lowTask : Task Unit := ⟨0, 2, "", none, ()⟩

def highTask : Task Unit := ⟨0, 0, "", none, ()⟩

def silent : String → Stream := fun _ => .ok []

def busy : Iteration Unit := ⟨[highTask], silent⟩

/-- The Low task and the stream of High tasks in front of it. -/
def flood (k : Nat) : List (Iteration Unit) := ⟨[lowTask, highTask], silent⟩ :: List.replicate k busy

theorem flood_unserved {n : Nat} (positive : 0 < n) {past : List (Iteration Unit)}
    (beyond : lastBoost n < min (dispatched (trace step (start n) past)).length (maxOf 64))
    (k : Nat) :
    firstBoost (callsAfter n past (flood k)) = none ∧
      ⟨(pushed past).length, 2⟩ ∉ stamps (dispatched (callsAfter n past (flood k))) := by
  obtain ⟨interval, counted⟩ := past_counter n past
  refine flood_starves positive interval (by omega) (by omega) ?_ ?_ ?_
  · intro queued
    have in_queue : (⟨(pushed past).length, 2⟩ : Stamp) ∈
        stamps (queue (final step (start n) (stampRun 0 past)).agenda) := by
      simp only [stamps, queue, List.map_append, List.mem_append]
      exact .inl (.inl queued)
    exact Nat.lt_irrefl _ (queued_seq_lt in_queue)
  · intro i hi
    rcases List.mem_cons.mp hi with rfl | hi
    · exact ⟨_, List.mem_cons_of_mem _ List.mem_cons_self, rfl⟩
    · obtain ⟨next, j, -, hj, rfl⟩ := mem_stampRun hi
      rw [List.eq_of_mem_replicate hj]
      exact ⟨_, List.mem_cons_self, rfl⟩
  · intro i hi t ht tier same
    have seq := congrArg Stamp.seq same
    rcases List.mem_cons.mp hi with rfl | hi
    · simp only [stampAll, List.mem_cons, List.not_mem_nil, or_false] at ht
      rcases ht with rfl | rfl
      · simp [tierOf, restamp, lowTask] at tier
      · simp [restamp] at seq
    · obtain ⟨next, j, later, hj, rfl⟩ := mem_stampRun hi
      rw [List.eq_of_mem_replicate hj] at ht
      simp only [busy, stampAll, List.mem_cons, List.not_mem_nil, or_false] at ht
      rw [ht] at seq
      simp only [restamp, List.length_cons] at seq later
      omega

/-! ## The bound -/

theorem tasks_served {n : Nat} (positive : 0 < n) (fits : n ≤ maxOf 64)
    {past : List (Iteration Unit)}
    (within : min (dispatched (trace step (start n) past)).length (maxOf 64) ≤ lastBoost n) :
    TasksServed n past := by
  intro first rest t ht
  obtain ⟨interval, counted⟩ := past_counter n past
  rw [← counted] at within
  obtain ⟨gap, short, quiet, due, room⟩ := next_boost positive fits within
  have arrived : t.stamp ∈ stamps (queue (pushAll (final step (start n) (stampRun 0 past)).agenda
      (stampAll (pushed past).length first.arrivals))) :=
    mem_pushAll.mpr (.inr (List.mem_map_of_mem ht))
  exact (served_after gap positive (i := ⟨_, first.backend⟩) _ interval quiet due room arrived).mono
    short

/-- Conservation and order hold of every run, the bound of every task pushed while the
dispatches so far leave the counter a multiple of the interval to come. -/
theorem starvation_bounded_iff (n : Nat) (positive : 0 < n) (fits : n ≤ maxOf 32)
    (past : List (Iteration Unit)) :
    Accounted n past ∧
      (TasksServed n past ↔
        (dispatched (trace step (start n) past)).length ≤ lastBoost n ∨ n ∣ maxOf 64) := by
  have wide : n ≤ maxOf 64 := fits.trans (by decide)
  refine ⟨run_accounted n past, ?_⟩
  rw [← counter_le_lastBoost_iff]
  constructor
  · intro served
    by_contra beyond
    obtain ⟨unboosted, starved⟩ := flood_unserved positive (Nat.lt_of_not_le beyond) n
    have long : n < (callsAfter n past (flood n)).length := by
      simp only [callsAfter, trace_length, stampRun_length]
      simp [flood]
    have low : Served n (callsAfter n past (flood n)) ⟨(pushed past).length, 2⟩ :=
      served ⟨[lowTask, highTask], silent⟩ (List.replicate n busy)
        (restamp (fun _ => ⟨(pushed past).length, 2⟩) lowTask) List.mem_cons_self
    have found := dispatched_take_mono long.le (low.unboosted unboosted long)
    rw [List.take_length] at found
    exact starved found
  · exact tasks_served positive wide

theorem starvation_bounded_iff_two : TasksServed 2 [⟨[lowTask, highTask], silent⟩, busy] :=
  (starvation_bounded_iff 2 (by decide) (by decide) [⟨[lowTask, highTask], silent⟩, busy]).2.mpr
    (.inl (by decide))

theorem busy_step (s : IterationAwareMlfq Unit) :
    step ⟨TaskAgenda.new, s⟩ busy =
      (⟨TaskAgenda.new, (dispatchTask s highTask silent).1⟩, some highTask) := by
  have queued : checkAndBoost s (pushAll TaskAgenda.new [highTask]) =
      (pushAll TaskAgenda.new [highTask], 0) := by
    simp only [checkAndBoost]
    split <;> rfl
  simp only [step, serve, busy, queued]
  rfl

theorem busy_dispatched (k : Nat) (s : IterationAwareMlfq Unit) :
    (dispatched (trace step ⟨TaskAgenda.new, s⟩ (List.replicate k busy))).length = k := by
  induction k generalizing s with
  | zero => rfl
  | succ k ih =>
    simp only [List.replicate_succ, trace, dispatched_cons, busy_step, List.length_append, ih]
    simp [Nat.add_comm]

/-- Interval two: with the counter saturated at an odd number no boost comes and the Low task
is never selected. -/
theorem saturated_counter_starves :
    ¬ ∃ k, firstBoost (callsAfter 2 (List.replicate (maxOf 64) busy) (flood k)) ≠ none ∨
      ⟨(pushed (List.replicate (maxOf 64) busy)).length, 2⟩ ∈
        stamps (dispatched (callsAfter 2 (List.replicate (maxOf 64) busy) (flood k))) := by
  rintro ⟨k, found⟩
  have beyond : lastBoost 2 < min (dispatched (trace step (start 2)
      (List.replicate (maxOf 64) busy))).length (maxOf 64) := by
    simp only [start, busy_dispatched, Nat.min_self]
    decide
  obtain ⟨unboosted, starved⟩ := flood_unserved (by decide) beyond k
  rcases found with boosted | selected
  · exact boosted unboosted
  · exact starved selected

end Mlfq
