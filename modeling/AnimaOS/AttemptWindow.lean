import Mathlib.Data.List.Basic

/-!
# Attempts in flight against a failure limit

An attempt is let in while few failures are live, makes its tries later and is
recorded later still. Where an attempt is let in only with room for it and for
those in flight, and makes one try at most, no window of time ever holds more
failed tries than the limit.
-/

namespace AttemptWindow

/-- The stamps that still count at an instant. -/
def live (span now : Nat) (stamps : List Nat) : List Nat := stamps.filter fun t => now - t < span

def since (start : Nat) (stamps : List Nat) : List Nat := stamps.filter fun t => start ≤ t

def within (span start : Nat) (stamps : List Nat) : List Nat :=
  stamps.filter fun t => start ≤ t ∧ t < start + span

/-- One source: attempts that are let in and still to be tried, tried ones that are not on record
yet, the stamps on record, the times of the failed tries since the last success, and the lockouts
so far. -/
@[ext] structure Source where
  passed : Nat
  failed : Nat
  failures : List Nat
  guesses : List Nat
  lockouts : Nat
  deriving DecidableEq, Repr

def Source.inFlight (x : Source) : Nat := x.passed + x.failed

def Locked (limit span now : Nat) (x : Source) : Prop :=
  limit ≤ (live span now x.failures).length

/-- What may happen to a source at an instant. Room for what is let in, and a bound on the tries of
an attempt, are only claimed where `roomy` holds. -/
inductive Move (limit span now : Nat) (roomy : Prop) : Source → Source → Prop where
  | idle (x : Source) : Move limit span now roomy x x
  | prune (x : Source) :
      Move limit span now roomy x { x with failures := live span now x.failures }
  | pass (x : Source)
      (room : roomy → x.inFlight + (live span now x.failures).length < limit) :
      Move limit span now roomy x
        { x with passed := x.passed + 1, failures := live span now x.failures }
  | guess (passed failed : Nat) (failures guesses : List Nat) (lockouts tries : Nat)
      (single : roomy → tries ≤ 1) :
      Move limit span now roomy ⟨passed + 1, failed, failures, guesses, lockouts⟩
        ⟨passed, failed + 1, failures, guesses ++ List.replicate tries now, lockouts⟩
  | record (passed failed : Nat) (failures guesses : List Nat) (lockouts : Nat) :
      Move limit span now roomy ⟨passed, failed + 1, failures, guesses, lockouts⟩
        ⟨passed, failed, live span now failures ++ [now], guesses,
          lockouts + if (live span now failures).length + 1 = limit then 1 else 0⟩
  | succeed (passed failed freed : Nat) (failures guesses : List Nat) (lockouts : Nat) :
      Move limit span now roomy ⟨passed, failed + freed, failures, guesses, lockouts⟩
        ⟨passed, failed, [], [], lockouts⟩

structure Bounded (limit span now : Nat) (x : Source) : Prop where
  past : ∀ g ∈ x.guesses, g ≤ now
  guessed : ∀ start, (within span start x.guesses).length ≤ limit
  /-- What is let in may still be tried within an open window. -/
  pending : ∀ start, now < start + span → (within span start x.guesses).length + x.passed ≤ limit
  /-- A try in an open window is on record or about to be. -/
  kept : ∀ start, now < start + span →
    (within span start x.guesses).length ≤ x.failed + (since start x.failures).length
  room : x.inFlight + (live span now x.failures).length ≤ limit

variable {limit span : Nat}

theorem bounded_new (now : Nat) : Bounded limit span now ⟨0, 0, [], [], 0⟩ where
  past := by simp
  guessed := by simp [within]
  pending := by simp [within]
  kept := by simp [within]
  room := by simp [live, Source.inFlight]

/-! ## Windows -/

theorem live_later {now later : Nat} (h : now ≤ later) (stamps : List Nat) :
    (live span later stamps).length ≤ (live span now stamps).length := by
  apply List.Sublist.length_le
  apply List.monotone_filter_right
  intro t counts
  simp only [decide_eq_true_eq] at counts ⊢
  omega

theorem live_live {now later : Nat} (h : now ≤ later) (stamps : List Nat) :
    live span later (live span now stamps) = live span later stamps := by
  simp only [live, List.filter_filter]
  apply List.filter_congr
  intro t _
  simp only [Bool.and_eq_decide, decide_eq_true_eq, decide_eq_decide]
  omega

/-- Nothing that is stale belongs to an open window. -/
theorem since_live (wide : 0 < span) {now start : Nat} (opened : now < start + span)
    (stamps : List Nat) : since start (live span now stamps) = since start stamps := by
  simp only [live, since, List.filter_filter]
  apply List.filter_congr
  intro t _
  simp only [Bool.and_eq_decide, decide_eq_true_eq, decide_eq_decide]
  omega

theorem since_le_live (wide : 0 < span) {now start : Nat} (opened : now < start + span)
    (stamps : List Nat) :
    (since start stamps).length ≤ (live span now stamps).length := by
  apply List.Sublist.length_le
  apply List.monotone_filter_right
  intro t counts
  simp only [decide_eq_true_eq] at counts ⊢
  omega

theorem within_tries (start : Nat) (guesses : List Nat) (tries now : Nat) :
    (within span start (guesses ++ List.replicate tries now)).length =
      (within span start guesses).length +
        if start ≤ now ∧ now < start + span then tries else 0 := by
  rw [within, List.filter_append, List.length_append, within, List.filter_replicate]
  by_cases inside : start ≤ now ∧ now < start + span <;> simp [inside]

theorem since_snoc (start : Nat) (stamps : List Nat) (now : Nat) :
    (since start (stamps ++ [now])).length =
      (since start stamps).length + if start ≤ now then 1 else 0 := by
  rw [since, List.filter_append, List.length_append, since]
  split <;> simp_all

theorem live_snoc (now : Nat) (stamps : List Nat) (t : Nat) :
    (live span now (stamps ++ [t])).length ≤ (live span now stamps).length + 1 := by
  rw [live, List.filter_append, List.length_append, live]
  have single := List.length_filter_le (fun t => decide (now - t < span)) [t]
  exact Nat.add_le_add_left single _

theorem within_future {now start : Nat} {guesses : List Nat} (past : ∀ g ∈ guesses, g ≤ now)
    (future : now < start) : within span start guesses = [] := by
  refine List.filter_eq_nil_iff.mpr fun g member => ?_
  have := past g member
  simp only [decide_eq_true_eq]
  omega

/-! ## The invariant -/

theorem Bounded.later {now later : Nat} {x : Source} (bounded : Bounded limit span now x)
    (h : now ≤ later) : Bounded limit span later x where
  past := fun g member => Nat.le_trans (bounded.past g member) h
  guessed := bounded.guessed
  pending := fun start opened => bounded.pending start (by omega)
  kept := fun start opened => bounded.kept start (by omega)
  room := by
    have fewer := @live_later span _ _ h x.failures
    have room := bounded.room
    omega

theorem Bounded.move (wide : 0 < span) {now : Nat} {roomy : Prop} {x y : Source}
    (bounded : Bounded limit span now x) (move : Move limit span now roomy x y) (held : roomy) :
    Bounded limit span now y := by
  cases move with
  | idle => exact bounded
  | prune =>
    refine ⟨bounded.past, bounded.guessed, bounded.pending, fun start opened => ?_, ?_⟩
    · rw [since_live wide opened]
      exact bounded.kept start opened
    · rw [live_live (Nat.le_refl now)]
      exact bounded.room
  | pass _ room =>
    refine ⟨bounded.past, bounded.guessed, fun start opened => ?_, fun start opened => ?_, ?_⟩
    · have kept := bounded.kept start opened
      have recorded := since_le_live wide opened x.failures
      have spare := room held
      simp only [Source.inFlight] at spare ⊢
      omega
    · rw [since_live wide opened]
      exact bounded.kept start opened
    · have spare := room held
      rw [live_live (Nat.le_refl now)]
      simp only [Source.inFlight] at spare ⊢
      omega
  | guess passed failed failures guesses lockouts tries single =>
    have pending := bounded.pending
    have kept := bounded.kept
    have room := bounded.room
    simp only [Source.inFlight] at pending kept room
    have one := single held
    refine ⟨?_, fun start => ?_, fun start opened => ?_, fun start opened => ?_, ?_⟩
    · intro g member
      rcases List.mem_append.mp member with before | last
      · exact bounded.past g before
      · exact Nat.le_of_eq (List.eq_of_mem_replicate last)
    · rw [within_tries]
      split
      · have := pending start (by omega)
        omega
      · exact bounded.guessed start
    · have := pending start opened
      rw [within_tries]
      dsimp only
      split <;> omega
    · have := kept start opened
      rw [within_tries]
      dsimp only
      split <;> omega
    · simp only [Source.inFlight]
      omega
  | record passed failed failures guesses lockouts =>
    have kept := bounded.kept
    have room := bounded.room
    simp only [Source.inFlight] at kept room
    refine ⟨bounded.past, bounded.guessed, bounded.pending, fun start opened => ?_, ?_⟩
    · dsimp only
      rw [since_snoc, since_live wide opened]
      split
      · have := kept start opened
        omega
      · rw [within_future bounded.past (by omega)]
        exact Nat.zero_le _
    · have one := @live_snoc span now (live span now failures) now
      rw [live_live (Nat.le_refl now)] at one
      simp only [Source.inFlight]
      omega
  | succeed =>
    have room := bounded.room
    refine ⟨by simp, by simp [within], fun start opened => ?_, by simp [within], ?_⟩
    · simp only [within, List.filter_nil, List.length_nil, Source.inFlight] at room ⊢
      omega
    · simp only [live, List.filter_nil, List.length_nil, Source.inFlight] at room ⊢
      omega

/-- What happens while the source is locked does not lock it for any longer. -/
theorem Move.unextended {now : Nat} {roomy : Prop} {x y : Source}
    (move : Move limit span now roomy x y) (bounded : Bounded limit span now x)
    (locked : Locked limit span now x) {later : Nat} (h : now ≤ later)
    (still : Locked limit span later y) : Locked limit span later x := by
  cases move with
  | idle => exact still
  | prune =>
    rw [Locked, live_live h] at still
    exact still
  | pass =>
    rw [Locked, live_live h] at still
    exact still
  | guess => exact still
  | record =>
    -- an attempt in flight keeps room for its own record
    have room := bounded.room
    simp only [Locked, Source.inFlight] at room locked
    omega
  | succeed => exact Nat.le_trans still (Nat.zero_le _)

theorem Move.idle_of {now : Nat} {roomy : Prop} {x y : Source} (same : y = x) :
    Move limit span now roomy x y := by
  rw [same]
  exact .idle x

theorem Move.prune_of {now : Nat} {roomy : Prop} {x y : Source}
    (pruned : y = { x with failures := live span now x.failures }) :
    Move limit span now roomy x y := by
  rw [pruned]
  exact .prune x

theorem Locked.earlier {now later : Nat} {x : Source} (locked : Locked limit span later x)
    (h : now ≤ later) : Locked limit span now x :=
  Nat.le_trans locked (live_later h x.failures)

theorem live_record (wide : 0 < span) (now : Nat) (stamps : List Nat) :
    (live span now (live span now stamps ++ [now])).length =
      (live span now stamps).length + 1 := by
  have counts : live span now [now] = [now] := by simp [live, wide]
  have split : live span now (live span now stamps ++ [now]) =
      live span now (live span now stamps) ++ live span now [now] := List.filter_append _ _
  rw [split, live_live (Nat.le_refl now), counts, List.length_append, List.length_singleton]

/-- A lockout is counted in exactly the moves that lock the source. -/
theorem Move.counted (wide : 0 < span) (positive : 0 < limit) {now : Nat} {roomy : Prop}
    {x y : Source} (move : Move limit span now roomy x y) :
    (¬ Locked limit span now x ∧ Locked limit span now y ∧ y.lockouts = x.lockouts + 1) ∨
      ((Locked limit span now x ∨ ¬ Locked limit span now y) ∧ y.lockouts = x.lockouts) := by
  have same : ∀ {z : Source},
      (live span now z.failures).length = (live span now x.failures).length →
      Locked limit span now x ∨ ¬ Locked limit span now z := by
    intro z length
    simp only [Locked, length]
    omega
  cases move with
  | idle => exact .inr ⟨same rfl, rfl⟩
  | prune => exact .inr ⟨same (congrArg List.length (live_live (Nat.le_refl now) _)), rfl⟩
  | pass => exact .inr ⟨same (congrArg List.length (live_live (Nat.le_refl now) _)), rfl⟩
  | guess => exact .inr ⟨same rfl, rfl⟩
  | record passed failed failures guesses lockouts =>
    simp only [Locked, live_record wide]
    split <;> omega
  | succeed =>
    refine .inr ⟨.inr ?_, rfl⟩
    simp only [Locked, live, List.filter_nil, List.length_nil]
    omega

end AttemptWindow
