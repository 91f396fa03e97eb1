import AnimaOS.Mlfq

/-!
# What a token budget lets through

A budget ends a stream at its last paid token. The dispatch tests the budget only
behind a token it has already taken, so a budget of zero still pays for one, and
still sees a cancellation that stands before any token.
-/

namespace Mlfq

open FixedWidth

universe u

variable {G : Type u}

def tokens (stream : List StreamingCompletion) : List String :=
  stream.filterMap fun e =>
    match e with
    | .token text => some text
    | .done => none
    | .cancelled => none

/-- The tokens a budget pays for. -/
def sliceSize (budget : Option Nat) (stream : List StreamingCompletion) : Nat :=
  match budget with
  | some b => min b (tokens stream).length
  | none => (tokens stream).length

/-- A cancellation stands where the tokens before it leave some of the budget. -/
def CancelledBefore (budget : Option Nat) (stream : List StreamingCompletion) : Prop :=
  ∃ before after, stream = before ++ .cancelled :: after ∧
    ∀ b, budget = some b → (tokens before).length < b

/-! ## The slice, event by event -/

def lessOne (budget : Option Nat) : Option Nat := budget.map (· - 1)

theorem sliceSize_token {budget : Option Nat} (unspent : budget ≠ some 0) (text : String)
    (rest : List StreamingCompletion) :
    sliceSize budget (.token text :: rest) = sliceSize (lessOne budget) rest + 1 := by
  have taken : (tokens (.token text :: rest)).length = (tokens rest).length + 1 := rfl
  cases budget with
  | none => exact taken
  | some b =>
    have : b ≠ 0 := fun h => unspent (h ▸ rfl)
    simp only [sliceSize, lessOne, Option.map_some, taken]
    omega

theorem sliceSize_spent (stream : List StreamingCompletion) : sliceSize (some 0) stream = 0 :=
  Nat.zero_min _

theorem sliceSize_le_tokens (budget : Option Nat) (stream : List StreamingCompletion) :
    sliceSize budget stream ≤ (tokens stream).length := by
  cases budget with
  | none => exact Nat.le_refl _
  | some b => exact Nat.min_le_right _ _

theorem not_cancelledBefore_nil (budget : Option Nat) : ¬ CancelledBefore budget [] := by
  rintro ⟨before, after, split, -⟩
  simp at split

theorem cancelledBefore_done (budget : Option Nat) (rest : List StreamingCompletion) :
    CancelledBefore budget (.done :: rest) ↔ CancelledBefore budget rest := by
  constructor
  · rintro ⟨before, after, split, room⟩
    cases before with
    | nil => simp at split
    | cons e before =>
      simp only [List.cons_append, List.cons.injEq] at split
      obtain ⟨rfl, split⟩ := split
      exact ⟨before, after, split, room⟩
  · rintro ⟨before, after, rfl, room⟩
    exact ⟨.done :: before, after, rfl, room⟩

theorem cancelledBefore_cancelled {budget : Option Nat} (unspent : budget ≠ some 0)
    (rest : List StreamingCompletion) : CancelledBefore budget (.cancelled :: rest) := by
  refine ⟨[], rest, rfl, ?_⟩
  rintro b rfl
  exact Nat.pos_of_ne_zero fun h => unspent (h ▸ rfl)

theorem cancelledBefore_token {budget : Option Nat} (unspent : budget ≠ some 0) (text : String)
    (rest : List StreamingCompletion) :
    CancelledBefore budget (.token text :: rest) ↔ CancelledBefore (lessOne budget) rest := by
  constructor
  · rintro ⟨before, after, split, room⟩
    cases before with
    | nil => simp at split
    | cons e before =>
      simp only [List.cons_append, List.cons.injEq] at split
      obtain ⟨rfl, split⟩ := split
      refine ⟨before, after, split, ?_⟩
      intro b hb
      cases budget with
      | none => cases hb
      | some c =>
        have paid : (tokens before).length + 1 < c := room c rfl
        have : c - 1 = b := Option.some.inj hb
        omega
  · rintro ⟨before, after, rfl, room⟩
    refine ⟨.token text :: before, after, rfl, ?_⟩
    rintro b rfl
    have paid : (tokens before).length < b - 1 := room (b - 1) rfl
    show (tokens before).length + 1 < b
    omega

theorem not_cancelledBefore_spent (stream : List StreamingCompletion) :
    ¬ CancelledBefore (some 0) stream := by
  rintro ⟨before, after, -, room⟩
  exact Nat.not_lt_zero _ (room 0 rfl)

/-! ## The event loop -/

/-- What is left of a budget behind `n` tokens. -/
def left (budget : Option Nat) (n : Nat) : Option Nat := budget.map (· - n)

theorem left_zero (budget : Option Nat) : left budget 0 = budget := by
  cases budget <;> rfl

theorem lessOne_left (budget : Option Nat) (n : Nat) :
    lessOne (left budget n) = left budget (n + 1) := by
  cases budget <;> rfl

theorem left_unspent {budget : Option Nat} {n : Nat} (room : ∀ b, budget = some b → n < b) :
    left budget n ≠ some 0 := by
  intro spent
  cases budget with
  | none => cases spent
  | some b =>
    have more := room b rfl
    have : b - n = 0 := Option.some.inj spent
    omega

/-- The two ways a drain ends. -/
inductive Drained (left : Option Nat) (response : String) (n : Nat)
    (stream : List StreamingCompletion) : Except LlmBackendError (String × Nat) → Prop where
  | cancelled (seen : CancelledBefore left stream) :
      Drained left response n stream (.error .cancelled)
  | finished (unseen : ¬ CancelledBefore left stream) :
      Drained left response n stream
        (.ok (response ++ String.join ((tokens stream).take (sliceSize left stream)),
          satAdd 32 n (sliceSize left stream)))

theorem Drained.spent {response : String} {n : Nat} (counted : n ≤ maxOf 32)
    (stream : List StreamingCompletion) : Drained (some 0) response n stream (.ok (response, n)) := by
  have same := satAdd_zero counted
  have : Drained (some 0) response n stream _ := .finished (not_cancelledBefore_spent stream)
  simpa only [sliceSize_spent, List.take_zero, String.join_nil, String.append_empty, same] using this

theorem Drained.done {left : Option Nat} {response : String} {n : Nat}
    {rest : List StreamingCompletion} {result : Except LlmBackendError (String × Nat)}
    (h : Drained left response n rest result) : Drained left response n (.done :: rest) result := by
  cases h with
  | cancelled seen => exact .cancelled ((cancelledBefore_done _ rest).mpr seen)
  | finished unseen => exact .finished fun seen => unseen ((cancelledBefore_done _ rest).mp seen)

theorem Drained.token {left : Option Nat} {response text : String} {n : Nat}
    {rest : List StreamingCompletion} {result : Except LlmBackendError (String × Nat)}
    (unspent : left ≠ some 0)
    (h : Drained (lessOne left) (response ++ text) (satAdd 32 n 1) rest result) :
    Drained left response n (.token text :: rest) result := by
  cases h with
  | cancelled seen => exact .cancelled ((cancelledBefore_token unspent text rest).mpr seen)
  | finished unseen =>
    have counts : satAdd 32 (satAdd 32 n 1) (sliceSize (lessOne left) rest) =
        satAdd 32 n (sliceSize (lessOne left) rest + 1) := by
      simp only [satAdd]
      omega
    have : Drained left response n (.token text :: rest) _ :=
      .finished fun seen => unseen ((cancelledBefore_token unspent text rest).mp seen)
    simpa only [sliceSize_token unspent, tokens, List.filterMap_cons, List.take_succ_cons,
      String.join_cons, String.append_assoc, counts] using this

theorem drainStream_drained {budget : Option Nat} (response : String) {n : Nat}
    (counted : n ≤ maxOf 32) (fits : ∀ b, budget = some b → n < b ∧ b ≤ maxOf 32)
    (stream : List StreamingCompletion) :
    Drained (left budget n) response n stream (drainStream budget response n stream) := by
  induction stream generalizing response n with
  | nil =>
    have nothing : sliceSize (left budget n) [] = 0 := Nat.le_zero.mp (sliceSize_le_tokens _ _)
    have same := satAdd_zero counted
    have : Drained (left budget n) response n [] _ :=
      .finished (not_cancelledBefore_nil (left budget n))
    simpa only [drainStream, nothing, List.take_zero, String.join_nil, String.append_empty, same]
      using this
  | cons e rest ih =>
    have unspent : left budget n ≠ some 0 := left_unspent fun b hb => (fits b hb).1
    cases e with
    | cancelled => exact .cancelled (cancelledBefore_cancelled unspent rest)
    | done => exact (ih response counted fits).done
    | token text =>
      refine Drained.token unspent ?_
      rw [lessOne_left]
      cases budget with
      | none => exact ih _ (Nat.min_le_right _ _) (by simp)
      | some b =>
        obtain ⟨room, bound⟩ := fits b rfl
        have counts : satAdd 32 n 1 = n + 1 := by
          simp only [satAdd]
          omega
        simp only [drainStream, counts]
        split
        · -- the budget is spent: the rest of the stream is not read
          have : left (some b) (n + 1) = some 0 := by
            simp only [left, Option.map_some]
            congr 1
            omega
          rw [this]
          exact .spent (by omega) rest
        · refine ih _ (by omega) ?_
          rintro c hc
          have := Option.some.inj hc
          omega

/-- A budget of zero is tested for the first time behind a token. -/
theorem drainStream_zero (response : String) (n : Nat) (stream : List StreamingCompletion) :
    ((∀ e ∈ stream, e = .done) ∧ drainStream (some 0) response n stream = .ok (response, n)) ∨
    ((∃ e ∈ stream, e ≠ .done) ∧
      (drainStream (some 0) response n stream = .error .cancelled ∨
        ∃ text, drainStream (some 0) response n stream =
          .ok (response ++ text, satAdd 32 n 1))) := by
  induction stream with
  | nil => exact .inl ⟨by simp, rfl⟩
  | cons e rest ih =>
    cases e with
    | token text => exact .inr ⟨⟨_, List.mem_cons_self, by simp⟩, .inr ⟨text, by simp [drainStream]⟩⟩
    | cancelled => exact .inr ⟨⟨_, List.mem_cons_self, by simp⟩, .inl rfl⟩
    | done =>
      rcases ih with ⟨idle, same⟩ | ⟨⟨e, he, busy⟩, ended⟩
      · exact .inl ⟨by simpa using idle, same⟩
      · exact .inr ⟨⟨e, List.mem_cons_of_mem _ he, busy⟩, ended⟩

/-! ## A dispatch -/

theorem recordDispatch_total (s : IterationAwareMlfq G) (task : Task G) :
    (recordDispatch s task).totalTokensDispatched = s.totalTokensDispatched := by
  simp only [recordDispatch]

/-- Token-slice accounting of one dispatch. -/
structure SliceAccounted (s : IterationAwareMlfq G) (task : Task G) (backend : String → Stream) :
    Prop where
  within : ∀ o, (dispatchTask s task backend).2 = .ok o →
    ∀ b, task.tokenBudget = some b → o.tokensEmitted ≤ b
  response : ∀ stream o, backend task.prompt = .ok stream →
    (dispatchTask s task backend).2 = .ok o →
      o.response = String.join ((tokens stream).take o.tokensEmitted)
  emitted : ∀ stream o, backend task.prompt = .ok stream →
    (dispatchTask s task backend).2 = .ok o → o.tokensEmitted = sliceSize task.tokenBudget stream
  cancelled : ∀ stream, backend task.prompt = .ok stream →
    ((dispatchTask s task backend).2 = .error .cancelled ↔ CancelledBefore task.tokenBudget stream)
  total : ∀ o, (dispatchTask s task backend).2 = .ok o →
    (dispatchTask s task backend).1.totalTokensDispatched =
      s.totalTokensDispatched + o.tokensEmitted
  unchanged : ∀ e, (dispatchTask s task backend).2 = .error e →
    (dispatchTask s task backend).1.totalTokensDispatched = s.totalTokensDispatched

/-- A zero budget meets a stream without work, and the counters hold what is counted. -/
structure CountsFit (s : IterationAwareMlfq G) (task : Task G) (stream : List StreamingCompletion) :
    Prop where
  idle : task.tokenBudget = some 0 → ∀ e ∈ stream, e = .done
  emitted : ¬ CancelledBefore task.tokenBudget stream →
    sliceSize task.tokenBudget stream ≤ maxOf 32
  total : ¬ CancelledBefore task.tokenBudget stream →
    s.totalTokensDispatched + sliceSize task.tokenBudget stream ≤ maxOf 64

section Dispatch

variable {s : IterationAwareMlfq G} {task : Task G} {backend : String → Stream}
  {stream : List StreamingCompletion}

theorem dispatchTask_error (e : LlmBackendError) (streamed : backend task.prompt = .ok stream)
    (drained : drainStream task.tokenBudget "" 0 stream = .error e) :
    dispatchTask s task backend = (recordDispatch s task, .error e) := by
  simp only [dispatchTask, streamed, drained]

theorem dispatchTask_ok {response : String} {n : Nat} (streamed : backend task.prompt = .ok stream)
    (drained : drainStream task.tokenBudget "" 0 stream = .ok (response, n)) :
    dispatchTask s task backend =
      ({ recordDispatch s task with
          totalTokensDispatched := satAdd 64 s.totalTokensDispatched n },
        .ok ⟨task, response, n⟩) := by
  simp only [dispatchTask, streamed, drained, recordDispatch_total]

theorem drained_of_idle (fits : ∀ b, task.tokenBudget = some b → b ≤ maxOf 32)
    (idle : task.tokenBudget = some 0 → ∀ e ∈ stream, e = .done) :
    Drained task.tokenBudget "" 0 stream (drainStream task.tokenBudget "" 0 stream) := by
  by_cases spent : task.tokenBudget = some 0
  · rcases drainStream_zero "" 0 stream with ⟨-, same⟩ | ⟨⟨e, he, busy⟩, -⟩
    · rw [spent, same]
      exact .spent (Nat.zero_le _) stream
    · exact absurd (idle spent e he) busy
  · have room : ∀ b, task.tokenBudget = some b → 0 < b ∧ b ≤ maxOf 32 := by
      intro b hb
      exact ⟨Nat.pos_of_ne_zero fun h => spent (h ▸ hb), fits b hb⟩
    have := drainStream_drained "" (Nat.zero_le (maxOf 32)) room stream
    rwa [left_zero] at this

theorem SliceAccounted.of_refused {e : LlmBackendError} (refused : backend task.prompt = .error e) :
    SliceAccounted s task backend := by
  have result : dispatchTask s task backend = (recordDispatch s task, .error e) := by
    simp only [dispatchTask, refused]
  refine ⟨?_, ?_, ?_, ?_, ?_, ?_⟩ <;> simp [result, refused, recordDispatch_total]

theorem SliceAccounted.of_fit (fits : ∀ b, task.tokenBudget = some b → b ≤ maxOf 32)
    (streamed : backend task.prompt = .ok stream) (fit : CountsFit s task stream) :
    SliceAccounted s task backend := by
  have drained := drained_of_idle fits fit.idle
  generalize ends : drainStream task.tokenBudget "" 0 stream = result at drained
  cases drained with
  | cancelled seen =>
    have result := dispatchTask_error (s := s) .cancelled streamed ends
    refine ⟨?_, ?_, ?_, ?_, ?_, ?_⟩ <;> simp [result, streamed, seen, recordDispatch_total]
  | finished unseen =>
    have counted : satAdd 32 0 (sliceSize task.tokenBudget stream) =
        sliceSize task.tokenBudget stream := by
      have := fit.emitted unseen
      simp only [satAdd]
      omega
    have held : satAdd 64 s.totalTokensDispatched (sliceSize task.tokenBudget stream) =
        s.totalTokensDispatched + sliceSize task.tokenBudget stream :=
      Nat.min_eq_left (fit.total unseen)
    rw [counted] at ends
    have result := dispatchTask_ok (s := s) streamed ends
    refine ⟨?_, ?_, ?_, ?_, ?_, ?_⟩ <;> simp [result, streamed, unseen, held]
    intro b hb
    rw [hb]
    exact Nat.min_le_left _ _

theorem SliceAccounted.idle (h : SliceAccounted s task backend)
    (streamed : backend task.prompt = .ok stream) (spent : task.tokenBudget = some 0) :
    ∀ e ∈ stream, e = .done := by
  rcases drainStream_zero "" 0 stream with ⟨idle, -⟩ | ⟨-, ended | ⟨text, ended⟩⟩
  · exact idle
  · have result := dispatchTask_error (s := s) .cancelled streamed (by rw [spent, ended])
    have seen := (h.cancelled stream streamed).mp (by rw [result])
    rw [spent] at seen
    exact absurd seen (not_cancelledBefore_spent stream)
  · have result := dispatchTask_ok (s := s) streamed (by rw [spent, ended])
    have : satAdd 32 0 1 ≤ 0 := h.within _ (by rw [result]) 0 spent
    simp [satAdd, maxOf] at this

theorem SliceAccounted.fit (fits : ∀ b, task.tokenBudget = some b → b ≤ maxOf 32)
    (h : SliceAccounted s task backend) (streamed : backend task.prompt = .ok stream) :
    CountsFit s task stream := by
  have idle := h.idle streamed
  have held : ¬ CancelledBefore task.tokenBudget stream →
      sliceSize task.tokenBudget stream ≤ maxOf 32 ∧
        s.totalTokensDispatched + sliceSize task.tokenBudget stream ≤ maxOf 64 := by
    intro unseen
    have drained := drained_of_idle fits idle
    generalize ends : drainStream task.tokenBudget "" 0 stream = result at drained
    cases drained with
    | cancelled seen => exact absurd seen unseen
    | finished _ =>
      have result := dispatchTask_ok (s := s) streamed ends
      have emitted : satAdd 32 0 (sliceSize task.tokenBudget stream) =
          sliceSize task.tokenBudget stream := h.emitted stream _ streamed (by rw [result])
      have total := h.total _ (by rw [result])
      simp only [result, emitted] at total
      simp only [satAdd] at emitted total
      omega
  exact ⟨idle, fun unseen => (held unseen).1, fun unseen => (held unseen).2⟩

end Dispatch

theorem dispatch_accounting_iff (s : IterationAwareMlfq G) (task : Task G)
    (backend : String → Stream) (fits : ∀ b, task.tokenBudget = some b → b ≤ maxOf 32) :
    SliceAccounted s task backend ↔
      ∀ stream, backend task.prompt = .ok stream → CountsFit s task stream := by
  constructor
  · intro h stream streamed
    exact h.fit fits streamed
  · intro fit
    cases streamed : backend task.prompt with
    | error e => exact .of_refused streamed
    | ok stream => exact .of_fit fits streamed (fit stream streamed)

def slicedTask (budget : Option Nat) : Task Unit := ⟨1, 0, "", budget, ()⟩

theorem dispatch_accounting_of_three :
    SliceAccounted (withBoostInterval 0) (slicedTask (some 3))
      (fun _ => .ok [.token "a", .done, .token "b", .token "c", .cancelled]) := by
  refine (dispatch_accounting_iff _ _ _ ?_).mpr ?_
  · intro b hb
    cases hb
    decide
  · rintro stream ⟨⟩
    exact ⟨by simp [slicedTask], fun _ => by decide, fun _ => by decide⟩

/-- One token is paid for with a budget of zero. -/
theorem zero_budget_emits :
    ¬ SliceAccounted (withBoostInterval 0) (slicedTask (some 0)) (fun _ => .ok [.token "a"]) := by
  intro h
  have : 1 ≤ 0 := h.within ⟨slicedTask (some 0), "a", 1⟩ (by decide) 0 rfl
  omega

end Mlfq
