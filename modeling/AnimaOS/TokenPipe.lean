import Mathlib
import AnimaOS.FixedWidth
import AnimaOS.Machine

/-!
# The bounded token pipe

A producer takes credits for the tokens it pushes and the consumer gives them
back. The pipe's credits never leave its budget, so a pipe beyond it cannot be
built; over a run they are what the accepted calls make of them.
-/

namespace TokenPipe

open FixedWidth Machine

inductive TokenPipeError where
  | backpressureExceeded
  | overRefund
  deriving DecidableEq, Repr

structure BoundedTokenPipe where
  capacity : Nat
  credits : Nat
  produced : Nat
  consumed : Nat
  within : credits ≤ capacity
  fits : capacity ≤ maxOf 32
  deriving DecidableEq, Repr

theorem toNat_fits (n : UInt32) : n.toNat ≤ maxOf 32 := by
  have := n.toNat_lt
  simp only [maxOf]
  omega

def new (capacity : UInt32) : BoundedTokenPipe where
  capacity := capacity.toNat
  credits := capacity.toNat
  produced := 0
  consumed := 0
  within := Nat.le_refl _
  fits := toNat_fits capacity

def push (p : BoundedTokenPipe) (n : Nat) : BoundedTokenPipe × Except TokenPipeError Unit :=
  if n > p.credits then (p, .error .backpressureExceeded)
  else
    ({ p with
        credits := p.credits - n
        produced := satAdd 64 p.produced n
        within := Nat.le_trans (Nat.sub_le _ _) p.within },
      .ok ())

def refund (p : BoundedTokenPipe) (n : Nat) : BoundedTokenPipe × Except TokenPipeError Unit :=
  match checked 32 (p.credits + n) with
  | none => (p, .error .overRefund)
  | some newCredits =>
    if exceeds : newCredits > p.capacity then (p, .error .overRefund)
    else
      ({ p with
          credits := newCredits
          consumed := satAdd 64 p.consumed n
          within := Nat.le_of_not_gt exceeds },
        .ok ())

/-! ## One call -/

theorem push_cases (p : BoundedTokenPipe) (n : Nat) :
    (p.credits < n ∧ push p n = (p, .error .backpressureExceeded)) ∨
    (n ≤ p.credits ∧ (push p n).2 = .ok () ∧ (push p n).1.capacity = p.capacity ∧
      (push p n).1.credits = p.credits - n ∧ (push p n).1.produced = satAdd 64 p.produced n ∧
      (push p n).1.consumed = p.consumed) := by
  by_cases short : n > p.credits
  · exact Or.inl ⟨short, by simp only [push, if_pos short]⟩
  · right
    refine ⟨Nat.le_of_not_gt short, ?_⟩
    simp only [push, if_neg short, and_self]

/-- The width of the credits refuses nothing that the budget would allow. -/
theorem refund_cases (p : BoundedTokenPipe) (n : Nat) :
    (p.capacity < p.credits + n ∧ refund p n = (p, .error .overRefund)) ∨
    (p.credits + n ≤ p.capacity ∧ (refund p n).2 = .ok () ∧
      (refund p n).1.capacity = p.capacity ∧ (refund p n).1.credits = p.credits + n ∧
      (refund p n).1.produced = p.produced ∧
      (refund p n).1.consumed = satAdd 64 p.consumed n) := by
  unfold refund
  by_cases room : p.credits + n ≤ p.capacity
  · right
    rw [checked_of_le (Nat.le_trans room p.fits)]
    refine ⟨room, ?_⟩
    simp only [dif_neg (Nat.not_lt.mpr room), and_self]
  · left
    refine ⟨Nat.lt_of_not_le room, ?_⟩
    split
    · rfl
    · next newCredits sum =>
      obtain ⟨-, rfl⟩ := checked_eq_some.mp sum
      simp only [dif_pos (Nat.lt_of_not_le room)]

/-! ## Runs of producer and consumer -/

inductive Request where
  | push (n : Nat)
  | refund (n : Nat)
  deriving DecidableEq, Repr

abbrev Answer := Except TokenPipeError Unit

def step (p : BoundedTokenPipe) : Request → BoundedTokenPipe × Answer
  | .push n => push p n
  | .refund n => refund p n

abbrev PipeCall := Call BoundedTokenPipe Request Answer

def pushed (calls : List PipeCall) : Nat :=
  (calls.map fun c => match c.request, c.response with
    | .push n, .ok () => n
    | _, _ => 0).sum

def refunded (calls : List PipeCall) : Nat :=
  (calls.map fun c => match c.request, c.response with
    | .refund n, .ok () => n
    | _, _ => 0).sum

/-- What the counters of a pipe say about the tokens that went in and came back. -/
structure Accounts (p q : BoundedTokenPipe) (taken returned : Nat) : Prop where
  capacity : q.capacity = p.capacity
  credits : q.credits + taken = p.credits + returned
  produced : q.produced = satAdd 64 p.produced taken
  consumed : q.consumed = satAdd 64 p.consumed returned

theorem Accounts.append {p q r : BoundedTokenPipe} {t₁ t₂ b₁ b₂ : Nat}
    (first : Accounts p q t₁ b₁) (second : Accounts q r t₂ b₂) :
    Accounts p r (t₁ + t₂) (b₁ + b₂) where
  capacity := second.capacity.trans first.capacity
  credits := by
    have := first.credits
    have := second.credits
    omega
  produced := by
    rw [second.produced, first.produced]
    simp only [satAdd]
    omega
  consumed := by
    rw [second.consumed, first.consumed]
    simp only [satAdd]
    omega

/-- The totals are counted in words that saturate. -/
structure Counted (p : BoundedTokenPipe) : Prop where
  produced : p.produced ≤ maxOf 64
  consumed : p.consumed ≤ maxOf 64

theorem new_counted (capacity : UInt32) : Counted (new capacity) :=
  ⟨Nat.zero_le _, Nat.zero_le _⟩

theorem accounts_refl {p : BoundedTokenPipe} (counted : Counted p) : Accounts p p 0 0 :=
  ⟨rfl, rfl, (satAdd_zero counted.produced).symm, (satAdd_zero counted.consumed).symm⟩

theorem Accounts.counted {p q : BoundedTokenPipe} {taken returned : Nat}
    (accounts : Accounts p q taken returned) : Counted q where
  produced := accounts.produced ▸ Nat.min_le_right _ _
  consumed := accounts.consumed ▸ Nat.min_le_right _ _

theorem step_accounts {p : BoundedTokenPipe} (counted : Counted p) (r : Request) :
    Accounts p (step p r).1 (pushed (trace step p [r])) (refunded (trace step p [r])) := by
  cases r with
  | push n =>
    obtain ⟨-, same⟩ | ⟨enough, ok, capacity, credits, produced, consumed⟩ := push_cases p n
    · simpa [trace, pushed, refunded, step, same] using accounts_refl counted
    · simp only [trace, pushed, refunded, step, ok, List.map_cons, List.map_nil, List.sum_cons,
        List.sum_nil, Nat.add_zero]
      exact ⟨capacity, by omega, produced, consumed.trans (satAdd_zero counted.consumed).symm⟩
  | refund n =>
    obtain ⟨-, same⟩ | ⟨room, ok, capacity, credits, produced, consumed⟩ := refund_cases p n
    · simpa [trace, pushed, refunded, step, same] using accounts_refl counted
    · simp only [trace, pushed, refunded, step, ok, List.map_cons, List.map_nil, List.sum_cons,
        List.sum_nil, Nat.add_zero]
      exact ⟨capacity, credits, produced.trans (satAdd_zero counted.produced).symm, consumed⟩

theorem run_accounts {p : BoundedTokenPipe} (counted : Counted p) (requests : List Request) :
    Accounts p (final step p requests) (pushed (trace step p requests))
      (refunded (trace step p requests)) := by
  induction requests generalizing p with
  | nil => exact accounts_refl counted
  | cons r rest ih =>
    have first := step_accounts counted r
    have joined := first.append (ih first.counted)
    simpa [trace, final, pushed, refunded] using joined

/-- A call is accepted when there is room for it, and one that is refused changes nothing. -/
def Fair (c : PipeCall) : Prop :=
  match c.request with
  | .push n =>
    (c.response = .ok () ↔ n ≤ c.before.credits) ∧
    (c.before.credits < n ↔ c.response = .error .backpressureExceeded) ∧
    (c.response ≠ .ok () → (push c.before n).1 = c.before)
  | .refund n =>
    (c.response = .ok () ↔ c.before.credits + n ≤ c.before.capacity) ∧
    (c.before.capacity < c.before.credits + n ↔ c.response = .error .overRefund) ∧
    (c.response ≠ .ok () → (refund c.before n).1 = c.before)

theorem step_fair (p : BoundedTokenPipe) (r : Request) : Fair ⟨p, r, (step p r).2⟩ := by
  cases r with
  | push n =>
    obtain ⟨short, same⟩ | ⟨enough, ok, -⟩ := push_cases p n
    · simp [Fair, step, same, short]
    · simp [Fair, step, ok, enough]
  | refund n =>
    obtain ⟨short, same⟩ | ⟨room, ok, -⟩ := refund_cases p n
    · simp [Fair, step, same, short]
    · simp [Fair, step, ok, room]

/-- Credits, totals and refusals of a pipe are what its accepted calls make of them: no more is
given back than was taken, and at most the budget is out at any time. -/
theorem token_pipe_accounts (capacity : UInt32) (requests : List Request) :
    let calls := trace step (new capacity) requests
    let last := final step (new capacity) requests
    refunded calls ≤ pushed calls ∧ pushed calls ≤ refunded calls + capacity.toNat ∧
    last.credits + pushed calls = capacity.toNat + refunded calls ∧
    last.produced = min (pushed calls) (maxOf 64) ∧
    last.consumed = min (refunded calls) (maxOf 64) ∧ ∀ c ∈ calls, Fair c := by
  intro calls last
  have accounts : Accounts (new capacity) last (pushed calls) (refunded calls) :=
    run_accounts (new_counted capacity) requests
  have kept : last.capacity = capacity.toNat := accounts.capacity
  have balance : last.credits + pushed calls = capacity.toNat + refunded calls := accounts.credits
  have within := last.within
  refine ⟨by omega, by omega, balance, ?_, ?_, ?_⟩
  · simpa [satAdd, new] using accounts.produced
  · simpa [satAdd, new] using accounts.consumed
  · intro c listed
    obtain ⟨pre, post, -, -, response⟩ := mem_trace listed
    have fair := step_fair c.before c.request
    rwa [← response] at fair

end TokenPipe
