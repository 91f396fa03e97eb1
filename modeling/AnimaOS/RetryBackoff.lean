import Mathlib
import AnimaOS.FixedWidth
import AnimaOS.QueueDrain

/-!
# Bounded retries with backoff

`with_retry` calls a stateful operation until it succeeds, fails for good or has
had its attempts, and sleeps between the calls. The delays double up to a cap and
stay in the upper half of it.
-/

namespace RetryBackoff

open FixedWidth Machine QueueDrain

universe u v

structure RetryPolicy where
  maxAttempts : Nat
  baseDelayMs : Nat
  maxDelayMs : Nat
  deriving DecidableEq, Repr

def RetryPolicy.default : RetryPolicy := ⟨3, 250, 8000⟩

/-- What a request can fail with: a status, or anything on the way to one. -/
inductive Failure where
  | statusCode (code : Nat)
  | transport (reason : String)
  deriving DecidableEq, Repr

def isRetryable : Failure → Bool
  | .statusCode code => [429, 500, 502, 503, 504].contains code
  | .transport _ => true

def delayCap (policy : RetryPolicy) (attempt : Nat) : Nat :=
  let shift := min (attempt - 1) 6
  let exp := satMul 64 policy.baseDelayMs (2 ^ shift)
  max (min exp policy.maxDelayMs) 1

/-- `seed` is what the clock reads below the second, in nanoseconds. -/
def backoffMs (policy : RetryPolicy) (attempt seed : Nat) : Nat :=
  let half := delayCap policy attempt / 2
  half + seed % max half 1

section Loop

variable {σ : Type u} {T : Type v} (policy : RetryPolicy) (op : σ → σ × Except Failure T)
  (clock : Nat → Nat)

/-- The loop after `attempt` calls: what `op` leaves, the sleeps and the result. -/
def retryFrom (attempt : Nat) (s : σ) : σ × List Nat × Except Failure T :=
  match op s with
  | (s, .ok value) => (s, [], .ok value)
  | (s, .error err) =>
    if policy.maxAttempts ≤ attempt + 1 ∨ !isRetryable err then (s, [], .error err)
    else
      let later := retryFrom (attempt + 1) s
      (later.1, backoffMs policy (attempt + 1) (clock (attempt + 1)) :: later.2.1, later.2.2)
termination_by policy.maxAttempts - attempt

def withRetry (s : σ) : σ × List Nat × Except Failure T := retryFrom policy op clock 0 s

/-! ## One delay -/

variable {policy}

theorem one_le_delayCap (attempt : Nat) : 1 ≤ delayCap policy attempt := Nat.le_max_right _ _

theorem delayCap_le (attempt : Nat) : delayCap policy attempt ≤ max policy.maxDelayMs 1 := by
  simp only [delayCap]
  omega

theorem backoffMs_within (attempt seed : Nat) :
    delayCap policy attempt / 2 ≤ backoffMs policy attempt seed ∧
      backoffMs policy attempt seed < delayCap policy attempt := by
  have positive := @one_le_delayCap policy attempt
  have jitter := Nat.mod_lt seed (Nat.le_max_right (delayCap policy attempt / 2) 1)
  simp only [backoffMs]
  omega

/-! ## The calls of a run -/

def call (s : σ) (_ : Unit) : σ × Except Failure T := op s

/-- What the first `n` calls answer. -/
def answers (s : σ) (n : Nat) : List (Except Failure T) :=
  responses (call op) s (List.replicate n ())

theorem answers_succ (s : σ) (n : Nat) :
    answers op s (n + 1) = (op s).2 :: answers op (op s).1 n := rfl

variable (policy)

/-- A run after `attempt` calls that makes `n` more of them. -/
structure Ran (attempt : Nat) (s : σ) (run : σ × List Nat × Except Failure T) (n : Nat) :
    Prop where
  called : 1 ≤ n
  bounded : n = 1 ∨ attempt + n ≤ policy.maxAttempts
  state : run.1 = final (call op) s (List.replicate n ())
  last : (answers op s n).getLast? = some run.2.2
  retried : ∀ a ∈ (answers op s n).dropLast, ∃ e, a = .error e ∧ isRetryable e = true
  exhausted : ∀ e, run.2.2 = .error e → isRetryable e = true → policy.maxAttempts ≤ attempt + n
  slept : run.2.1.length + 1 = n
  delays : ∀ k delay, run.2.1[k]? = some delay →
    delayCap policy (attempt + k + 1) / 2 ≤ delay ∧ delay < delayCap policy (attempt + k + 1)

variable {policy op}

/-- A call that ends the loop. -/
theorem ran_once {attempt : Nat} {s : σ}
    (ends : ∀ e, (op s).2 = .error e → isRetryable e = true → policy.maxAttempts ≤ attempt + 1) :
    Ran policy op attempt s ((op s).1, [], (op s).2) 1 where
  called := Nat.le_refl 1
  bounded := .inl rfl
  state := rfl
  last := rfl
  retried := fun _ member => nomatch member
  exhausted := ends
  slept := rfl
  delays := fun _ _ found => nomatch found

/-- A call that fails for now, before the calls of the rest of the loop. -/
theorem ran_again {attempt n : Nat} {s : σ} {e : Failure}
    {later : σ × List Nat × Except Failure T} (failed : (op s).2 = .error e)
    (retryable : isRetryable e = true) (left : attempt + 1 < policy.maxAttempts) (seed : Nat)
    (ran : Ran policy op (attempt + 1) (op s).1 later n) :
    Ran policy op attempt s
      (later.1, backoffMs policy (attempt + 1) seed :: later.2.1, later.2.2) (n + 1) := by
  have more := answers_succ op s n
  have some : answers op (op s).1 n ≠ [] := by
    intro none
    have last := ran.last
    rw [none] at last
    cases last
  constructor
  · exact Nat.le_add_left 1 n
  · have := ran.bounded
    omega
  · exact ran.state
  · rw [more, List.getLast?_cons, ran.last]
    rfl
  · rw [more, List.dropLast_cons_of_ne_nil some]
    intro a member
    rcases List.mem_cons.mp member with rfl | member
    · exact ⟨e, failed, retryable⟩
    · exact ran.retried a member
  · intro e' result again
    have := ran.exhausted e' result again
    omega
  · have := ran.slept
    simp only [List.length_cons]
    omega
  · intro k delay found
    cases k with
    | zero =>
      cases found
      exact backoffMs_within (attempt + 1) seed
    | succ k =>
      have within := ran.delays k delay found
      have same : attempt + (k + 1) + 1 = attempt + 1 + k + 1 := by omega
      rwa [same]

variable (policy op)

theorem retryFrom_ran (attempt : Nat) (s : σ) :
    ∃ n, Ran policy op attempt s (retryFrom policy op clock attempt s) n := by
  fun_induction retryFrom policy op clock attempt s with
  | case1 attempt s s' value answered =>
    have once := @ran_once σ T policy op attempt s (by rw [answered]; nofun)
    rw [answered] at once
    exact ⟨1, once⟩
  | case2 attempt s s' err answered stop =>
    have once := @ran_once σ T policy op attempt s (by
      rw [answered]
      rintro e ⟨⟩ retryable
      simpa [retryable] using stop)
    rw [answered] at once
    exact ⟨1, once⟩
  | case3 attempt s s' err answered more later ih =>
    obtain ⟨n, ran⟩ := ih
    simp only [not_or, Nat.not_le, Bool.not_eq_true, Bool.not_eq_false'] at more
    refine ⟨n + 1, ran_again (e := err) ?_ more.2 more.1 _ ?_⟩
    · rw [answered]
    · rw [answered]
      exact ran

/-- Only retryable failures are followed by another call, the answer of the last call is the
result, and neither the calls nor what is slept between them goes past the policy. -/
theorem with_retry_bounded (s : σ) :
    ∃ n, n ≤ max policy.maxAttempts 1 ∧ Ran policy op 0 s (withRetry policy op clock s) n ∧
      (withRetry policy op clock s).2.1.sum ≤ (n - 1) * max policy.maxDelayMs 1 := by
  obtain ⟨n, ran⟩ := retryFrom_ran policy op clock 0 s
  have bounded := ran.bounded
  have slept := ran.slept
  refine ⟨n, by omega, ran, ?_⟩
  have short : ∀ delay ∈ (withRetry policy op clock s).2.1, delay ≤ max policy.maxDelayMs 1 := by
    intro delay member
    obtain ⟨k, found⟩ := List.getElem?_of_mem member
    have within := (ran.delays k delay found).2
    have cap := @delayCap_le policy (0 + k + 1)
    omega
  have total := List.sum_le_card_nsmul _ _ short
  rw [smul_eq_mul] at total
  have count : (withRetry policy op clock s).2.1.length = n - 1 := by
    rw [withRetry]
    omega
  rwa [count] at total

end Loop

end RetryBackoff
