import AnimaOS.TokenPipe

/-!
# Context pressure on the token pipe

The virtual context manager counts tokens in blocks, and `emit_to_pipe` answers
its pressure by taking credits from a pipe. Within a stretch of a run in which
nothing is refunded, one emission at critical pressure or seven at elevated
pressure close the pipe.
-/

namespace ContextPressure

open FixedWidth Machine TokenPipe

/-! ## The context manager -/

inductive MemoryPressureEvent where
  | normal
  | highWater
  | critical
  deriving DecidableEq, Repr

def MemoryPressureEvent.rank : MemoryPressureEvent → Nat
  | .normal => 0
  | .highWater => 1
  | .critical => 2

def MemoryPressureEvent.isElevated (e : MemoryPressureEvent) : Bool :=
  e = .highWater || e = .critical

structure VirtualContextManager where
  l1TokenCount : Nat
  maxContext : Nat
  blockSize : Nat
  highWaterBlocks : Nat
  positive : 0 < blockSize
  oneBlock : blockSize ≤ maxContext
  inside : l1TokenCount ≤ maxContext
  fits : maxContext ≤ maxOf 32
  deriving Repr

def defaultBlockSize : UInt32 := 16

theorem context_fits (maxContext blockSize : UInt32) :
    max maxContext.toNat (max blockSize.toNat 1) ≤ maxOf 32 := by
  have := toNat_fits maxContext
  have := toNat_fits blockSize
  have : 1 ≤ maxOf 32 := by decide
  omega

def withBlocks (l1TokenCount maxContext blockSize : UInt32) : VirtualContextManager :=
  let block := max blockSize.toNat 1
  let context := max maxContext.toNat block
  { l1TokenCount := min l1TokenCount.toNat context
    maxContext := context
    blockSize := block
    highWaterBlocks := max (satMul 32 (context / block) 3 / 4) 1
    positive := Nat.lt_of_lt_of_le Nat.one_pos (Nat.le_max_right _ _)
    oneBlock := Nat.le_max_right _ _
    inside := Nat.min_le_right _ _
    fits := context_fits maxContext blockSize }

def withCapacity (l1TokenCount maxContext : UInt32) : VirtualContextManager :=
  withBlocks l1TokenCount maxContext defaultBlockSize

def setHighWaterBlocks (c : VirtualContextManager) (blocks : Nat) : VirtualContextManager :=
  { c with highWaterBlocks := blocks }

def setL1TokenCount (c : VirtualContextManager) (tokens : Nat) : VirtualContextManager :=
  { c with l1TokenCount := min tokens c.maxContext, inside := Nat.min_le_right _ _ }

def addTokens (c : VirtualContextManager) (tokens : Nat) : VirtualContextManager :=
  { c with
    l1TokenCount := min (satAdd 32 c.l1TokenCount tokens) c.maxContext
    inside := Nat.min_le_right _ _ }

def totalBlocks (c : VirtualContextManager) : Nat := c.maxContext / c.blockSize

def occupiedBlocks (c : VirtualContextManager) : Nat :=
  if c.l1TokenCount = 0 then 0 else (c.l1TokenCount + c.blockSize - 1) / c.blockSize

def freeBlocks (c : VirtualContextManager) : Nat := totalBlocks c - occupiedBlocks c

def checkPressure (c : VirtualContextManager) : MemoryPressureEvent :=
  let blocks := occupiedBlocks c
  if blocks ≥ totalBlocks c then .critical
  else if blocks ≥ c.highWaterBlocks then .highWater
  else .normal

/-- The outcome of the push is dropped. -/
def emitToPipe (c : VirtualContextManager) (pipe : BoundedTokenPipe) : BoundedTokenPipe :=
  match checkPressure c with
  | .normal => pipe
  | .highWater =>
    let n := max (pipe.capacity / 4) 1
    (push pipe (min n pipe.credits)).1
  | .critical => (push pipe pipe.credits).1

/-! ## Pressure and token counts -/

theorem totalBlocks_pos (c : VirtualContextManager) : 0 < totalBlocks c :=
  Nat.div_pos c.oneBlock c.positive

/-- The count of blocks reaches a number when the tokens go past the blocks before it. -/
theorem le_occupiedBlocks (c : VirtualContextManager) {blocks : Nat} (some : 0 < blocks) :
    blocks ≤ occupiedBlocks c ↔ (blocks - 1) * c.blockSize < c.l1TokenCount := by
  have positive := c.positive
  unfold occupiedBlocks
  split
  · next empty => simp [empty]; omega
  · next filled =>
    rw [Nat.le_div_iff_mul_le positive, Nat.sub_mul]
    have one : c.blockSize ≤ blocks * c.blockSize := Nat.le_mul_of_pos_left _ some
    omega

theorem critical_iff (c : VirtualContextManager) :
    checkPressure c = .critical ↔ (totalBlocks c - 1) * c.blockSize < c.l1TokenCount := by
  rw [← le_occupiedBlocks c (totalBlocks_pos c)]
  unfold checkPressure
  by_cases full : totalBlocks c ≤ occupiedBlocks c
  · simp [full]
  · by_cases water : c.highWaterBlocks ≤ occupiedBlocks c <;> simp [full, water]

theorem occupiedBlocks_mono {c d : VirtualContextManager} (same : c.blockSize = d.blockSize)
    (more : c.l1TokenCount ≤ d.l1TokenCount) : occupiedBlocks c ≤ occupiedBlocks d := by
  by_cases none : occupiedBlocks c = 0
  · omega
  · have some : 0 < occupiedBlocks c := Nat.pos_of_ne_zero none
    have reached := (le_occupiedBlocks c some).mp (Nat.le_refl _)
    rw [le_occupiedBlocks d some, ← same]
    omega

/-- More tokens in the same context never lower the pressure. -/
theorem checkPressure_mono {c d : VirtualContextManager} (block : c.blockSize = d.blockSize)
    (context : c.maxContext = d.maxContext) (water : c.highWaterBlocks = d.highWaterBlocks)
    (more : c.l1TokenCount ≤ d.l1TokenCount) :
    (checkPressure c).rank ≤ (checkPressure d).rank := by
  have blocks := occupiedBlocks_mono block more
  have total : totalBlocks c = totalBlocks d := by simp only [totalBlocks, block, context]
  simp only [checkPressure]
  split_ifs <;> simp only [MemoryPressureEvent.rank, ge_iff_le] at * <;> omega

theorem addTokens_count (c : VirtualContextManager) (tokens : Nat) :
    c.l1TokenCount ≤ (addTokens c tokens).l1TokenCount := by
  have inside := c.inside
  have fits := c.fits
  simp only [addTokens, satAdd]
  omega

/-! ## Emissions -/

/-- An emission at high water takes a quarter of the budget, or what is left of it. -/
def quota (pipe : BoundedTokenPipe) : Nat := max (pipe.capacity / 4) 1

theorem seven_quotas (pipe : BoundedTokenPipe) : pipe.capacity ≤ 7 * quota pipe := by
  simp only [quota]
  omega

theorem push_available (pipe : BoundedTokenPipe) {n : Nat} (enough : n ≤ pipe.credits) :
    (push pipe n).1.credits = pipe.credits - n ∧ (push pipe n).1.capacity = pipe.capacity := by
  obtain ⟨short, -⟩ | ⟨-, -, capacity, credits, -⟩ := push_cases pipe n
  · omega
  · exact ⟨credits, capacity⟩

/-- What an emission leaves of the credits. -/
def remaining (e : MemoryPressureEvent) (pipe : BoundedTokenPipe) : Nat :=
  match e with
  | .normal => pipe.credits
  | .highWater => pipe.credits - quota pipe
  | .critical => 0

theorem emitToPipe_spec (c : VirtualContextManager) (pipe : BoundedTokenPipe) :
    (emitToPipe c pipe).credits = remaining (checkPressure c) pipe ∧
    (emitToPipe c pipe).capacity = pipe.capacity := by
  unfold emitToPipe
  cases checkPressure c with
  | normal => exact ⟨rfl, rfl⟩
  | highWater =>
    obtain ⟨credits, capacity⟩ := push_available pipe (Nat.min_le_right (quota pipe) _)
    refine ⟨?_, capacity⟩
    simp only [quota, remaining] at credits ⊢
    omega
  | critical =>
    obtain ⟨credits, capacity⟩ := push_available pipe (Nat.le_refl pipe.credits)
    refine ⟨?_, capacity⟩
    simp only [remaining]
    omega

/-! ## A context, its pipe and their users -/

structure System where
  context : VirtualContextManager
  pipe : BoundedTokenPipe
  deriving Repr

inductive Event where
  | addTokens (tokens : Nat)
  | setL1TokenCount (tokens : Nat)
  | setHighWaterBlocks (blocks : Nat)
  | push (n : Nat)
  | refund (n : Nat)
  | emit
  deriving DecidableEq, Repr

inductive Response where
  | done
  | answered (answer : Answer)
  | emitted (level : MemoryPressureEvent)
  deriving DecidableEq, Repr

def step (s : System) : Event → System × Response
  | .addTokens tokens => ({ s with context := ContextPressure.addTokens s.context tokens }, .done)
  | .setL1TokenCount tokens =>
    ({ s with context := ContextPressure.setL1TokenCount s.context tokens }, .done)
  | .setHighWaterBlocks blocks =>
    ({ s with context := ContextPressure.setHighWaterBlocks s.context blocks }, .done)
  | .push n =>
    let pushed := TokenPipe.push s.pipe n
    ({ s with pipe := pushed.1 }, .answered pushed.2)
  | .refund n =>
    let refunded := TokenPipe.refund s.pipe n
    ({ s with pipe := refunded.1 }, .answered refunded.2)
  | .emit => ({ s with pipe := emitToPipe s.context s.pipe }, .emitted (checkPressure s.context))

abbrev SystemCall := Call System Event Response

/-! ## The levels a growing context reports -/

def Response.level : Response → Option MemoryPressureEvent
  | .emitted level => some level
  | _ => none

def levels (calls : List SystemCall) : List MemoryPressureEvent :=
  calls.filterMap fun c => c.response.level

/-- The context is at most added to. -/
def Event.grows : Event → Bool
  | .setL1TokenCount _ => false
  | .setHighWaterBlocks _ => false
  | _ => true

theorem step_grows (s : System) {e : Event} (grows : e.grows = true) :
    (checkPressure s.context).rank ≤ (checkPressure (step s e).1.context).rank := by
  cases e with
  | addTokens tokens => exact checkPressure_mono rfl rfl rfl (addTokens_count s.context tokens)
  | setL1TokenCount tokens => cases grows
  | setHighWaterBlocks blocks => cases grows
  | push n => exact Nat.le_refl _
  | refund n => exact Nat.le_refl _
  | emit => exact Nat.le_refl _

theorem level_reported {s : System} {e : Event} {level : MemoryPressureEvent}
    (reported : (step s e).2.level = some level) : level = checkPressure s.context := by
  cases e <;> simp_all [step, Response.level]

theorem levels_above {s : System} {events : List Event}
    (grows : ∀ e ∈ events, e.grows = true) {level : MemoryPressureEvent}
    (reported : level ∈ levels (trace step s events)) :
    (checkPressure s.context).rank ≤ level.rank := by
  induction events generalizing s with
  | nil => cases reported
  | cons e rest ih =>
    obtain ⟨c, listed, found⟩ := List.mem_filterMap.mp reported
    rcases List.mem_cons.mp listed with rfl | later
    · rw [level_reported found]
    · have first := step_grows s (grows e List.mem_cons_self)
      have rest := ih (fun f inside => grows f (List.mem_cons_of_mem e inside))
        (List.mem_filterMap.mpr ⟨c, later, found⟩)
      exact Nat.le_trans first rest

/-- As long as a context is at most added to, the levels its emissions report never drop, and a
level is critical exactly when the tokens go past all blocks but the last. -/
theorem pressure_levels (s : System) (events : List Event)
    (grows : ∀ e ∈ events, e.grows = true) :
    (levels (trace step s events)).Pairwise (fun l m => l.rank ≤ m.rank) ∧
    ∀ c ∈ trace step s events, ∀ level, c.response = .emitted level →
      (level = .critical ↔
        (totalBlocks c.before.context - 1) * c.before.context.blockSize <
          c.before.context.l1TokenCount) := by
  constructor
  · induction events generalizing s with
    | nil => exact List.Pairwise.nil
    | cons e rest ih =>
      have later : ∀ f ∈ rest, f.grows = true :=
        fun f inside => grows f (List.mem_cons_of_mem e inside)
      have tail := ih (step s e).1 later
      cases shown : (step s e).2.level with
      | none => simpa [levels, trace, shown] using tail
      | some level =>
        have first := level_reported shown
        have head : ∀ m ∈ levels (trace step (step s e).1 rest), level.rank ≤ m.rank := by
          intro m reported
          have above := levels_above later reported
          have grown := step_grows s (grows e List.mem_cons_self)
          rw [first]
          exact Nat.le_trans grown above
        simpa [levels, trace, shown] using List.pairwise_cons.mpr ⟨head, tail⟩
  · intro c listed level reported
    obtain ⟨-, -, -, -, response⟩ := mem_trace listed
    have shown : (step c.before c.request).2.level = some level := by
      rw [← response, reported]
      rfl
    rw [level_reported shown]
    exact critical_iff c.before.context

def twoBlocks : System := ⟨withBlocks 8 32 16, TokenPipe.new 8⟩

theorem pressure_levels_two_blocks :
    (levels (trace step twoBlocks [.emit, .addTokens 9, .emit])).Pairwise
      (fun l m => l.rank ≤ m.rank) :=
  (pressure_levels twoBlocks [.emit, .addTokens 9, .emit] (by decide)).1

/-! ## Stretches without refunds -/

/-- How far an event goes towards closing the pipe, in emissions at high water. -/
def weight (c : SystemCall) : Nat :=
  match c.response with
  | .emitted .highWater => 1
  | .emitted .critical => 7
  | _ => 0

def pressed (calls : List SystemCall) : Nat := (calls.map weight).sum

def Event.refunds : Event → Bool
  | .refund _ => true
  | _ => false

/-- The emissions so far have taken their share of the budget. -/
def Squeezed (emissions : Nat) (s : System) : Prop :=
  s.pipe.credits ≤ s.pipe.capacity - emissions * quota s.pipe

theorem squeezed_start (s : System) : Squeezed 0 s := by
  have within := s.pipe.within
  simpa only [Squeezed, Nat.zero_mul, Nat.sub_zero] using within

theorem step_squeezed {emissions : Nat} {s : System} (squeezed : Squeezed emissions s) (e : Event)
    (kept : e.refunds = false) :
    Squeezed (emissions + weight ⟨s, e, (step s e).2⟩) (step s e).1 := by
  cases e with
  | addTokens tokens => exact squeezed
  | setL1TokenCount tokens => exact squeezed
  | setHighWaterBlocks blocks => exact squeezed
  | push n =>
    obtain ⟨-, same⟩ | ⟨-, -, capacity, credits, -⟩ := push_cases s.pipe n
    · simpa only [Squeezed, step, weight, same, Nat.add_zero] using squeezed
    · simp only [Squeezed, step, weight, quota, capacity, credits, Nat.add_zero] at squeezed ⊢
      omega
  | refund n => cases kept
  | emit =>
    obtain ⟨credits, capacity⟩ := emitToPipe_spec s.context s.pipe
    have seven := seven_quotas s.pipe
    simp only [Squeezed, step, weight, quota, capacity, credits] at squeezed seven ⊢
    cases checkPressure s.context with
    | normal => exact squeezed
    | highWater =>
      simp only [remaining, quota, Nat.add_mul, Nat.one_mul]
      omega
    | critical => exact Nat.zero_le _

theorem run_squeezed {emissions : Nat} {s : System} (squeezed : Squeezed emissions s)
    (events : List Event) (kept : ∀ e ∈ events, e.refunds = false) :
    Squeezed (emissions + pressed (trace step s events)) (final step s events) := by
  induction events generalizing s emissions with
  | nil => exact squeezed
  | cons e rest ih =>
    have first := step_squeezed squeezed e (kept e List.mem_cons_self)
    have joined := ih first fun f listed => kept f (List.mem_cons_of_mem e listed)
    simpa [trace, final, pressed, Nat.add_assoc] using joined

/-- Emissions take what the pressure asks for. In a stretch of a run without refunds, seven at
high water or one at critical pressure close the pipe: it has no credit left and refuses every
token a producer then offers, whatever else happens to the context and the pipe. -/
theorem pressure_closes_pipe (s : System) (stretch : List Event)
    (kept : ∀ e ∈ stretch, e.refunds = false) (enough : 7 ≤ pressed (trace step s stretch)) :
    (final step s stretch).pipe.credits = 0 ∧
    ∀ n, 0 < n →
      step (final step s stretch) (.push n) =
        (final step s stretch, .answered (.error .backpressureExceeded)) := by
  have squeezed := run_squeezed (squeezed_start s) stretch kept
  have seven := seven_quotas (final step s stretch).pipe
  have taken : 7 * quota (final step s stretch).pipe ≤
      pressed (trace step s stretch) * quota (final step s stretch).pipe :=
    Nat.mul_le_mul_right _ enough
  have closed : (final step s stretch).pipe.credits = 0 := by
    simp only [Squeezed, Nat.zero_add] at squeezed
    omega
  refine ⟨closed, fun n some => ?_⟩
  obtain ⟨-, same⟩ | ⟨room, -⟩ := push_cases (final step s stretch).pipe n
  · simp only [step, same]
  · omega

theorem pressure_closes_pipe_two_blocks :
    (final step twoBlocks [.addTokens 9, .push 3, .emit]).pipe.credits = 0 :=
  (pressure_closes_pipe twoBlocks [.addTokens 9, .push 3, .emit] (by decide) (by decide)).1

end ContextPressure
