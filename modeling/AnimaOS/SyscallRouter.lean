import AnimaOS.FrameAllocator
import AnimaOS.Mlfq
import AnimaOS.Screening
import AnimaOS.SensoryBridge
import AnimaOS.ToolRegistry

/-!
# Syscalls of the hosted kernel

`KernelSyscallHandler` over the scheduler, the frame allocator, the sensory
bridge and the tool registry it borrows, each with its own model. A run is a
batch of syscalls; what other threads and the tools do meanwhile comes with each.
-/

namespace SyscallRouter

open FixedWidth Machine Mlfq SensoryBridge ToolRegistry Screening

universe u

variable {w : Nat} {D : Type u}

/-! ## The syscall surface -/

inductive SyscallEnum (w : Nat) where
  | yield
  | sleepUntilTick
  | allocateFrames (frames : BitVec w)
  | readSensoryPacket
  | dispatchTool (toolId : UInt32)
  deriving DecidableEq, Repr

inductive SyscallError where
  | permissionDenied
  | unavailable
  | invalid
  deriving DecidableEq, Repr

inductive SyscallOutcome (w : Nat) where
  | yielded
  | slept
  | framesAllocated (frames : BitVec w)
  | sensoryPacket (handle : BitVec 64)
  | toolDispatched (ticket : BitVec 64)
  deriving DecidableEq, Repr

abbrev Answer (w : Nat) := Except SyscallError (SyscallOutcome w)

abbrev CapabilityPolicy (w : Nat) := SyscallEnum w → Bool

def allowAll : CapabilityPolicy w := fun _ => true

/-! ## The subsystems -/

/-- A tool registry with the sorted list of its ids. -/
structure Tools (D : Type u) where
  entries : Entries D
  list : List String
  sorted : list.Pairwise (· < ·)
  listed : ∀ id, id ∈ list ↔ (entries id).isSome

/-- What happens outside the handler while it serves one syscall. -/
structure Surroundings (D : Type u) where
  checkedAt : Nat
  invoke : ToolDriver D → List UInt8 → ToolResult
  recordedAt : Nat
  between : List PrioritizedPacket

structure Kernel (w : Nat) (D : Type u) where
  scheduler : IterationAwareMlfq Unit
  agenda : TaskAgenda Unit
  frames : FrameAllocator.Allocator w
  senses : Bridge
  tools : Tools D
  tick : Nat
  tickFits : tick ≤ maxOf 64

theorem insert_isSome {entries : Entries D} {id : String} {entry : RegistryEntry D}
    (present : (entries id).isSome) (other : String) :
    (ToolRegistry.insert entries id entry other).isSome = (entries other).isSome := by
  unfold ToolRegistry.insert
  split
  · next same => rw [same, present]; rfl
  · rfl

theorem checkAdmission_isSome (entries : Entries D) (envelope : ToolEnvelope) (now : Nat)
    (id : String) :
    ((checkAdmission entries envelope now).1 id).isSome = (entries id).isSome := by
  unfold checkAdmission
  cases found : entries envelope.toolId with
  | none => rfl
  | some entry =>
    have present : (entries envelope.toolId).isSome := by rw [found]; rfl
    cases answer : (entry.breaker.verifyPathwayHealth now).2 <;>
      simp only [answer, insert_isSome present]

theorem recordOutcome_isSome (cfg : Settings) (entries : Entries D) (toolId : String)
    (result : ToolResult) (now : Nat) (id : String) :
    (recordOutcome cfg entries toolId result now id).isSome = (entries id).isSome := by
  unfold recordOutcome
  cases found : entries toolId with
  | none => rfl
  | some entry =>
    have present : (entries toolId).isSome := by rw [found]; rfl
    split
    · exact insert_isSome present id
    · rfl
    · exact insert_isSome present id

/-- A dispatch whose critical sections no other thread comes between. -/
def dispatchEntries (entries : Entries D) (envelope : ToolEnvelope) (env : Surroundings D) :
    Entries D × ToolResult :=
  match checkAdmission entries envelope env.checkedAt with
  | (entries, .error e) => (entries, .error e)
  | (entries, .ok driver) =>
    let result := env.invoke driver envelope.payload
    (recordOutcome Settings.default entries envelope.toolId result env.recordedAt, result)

theorem dispatchEntries_isSome (entries : Entries D) (envelope : ToolEnvelope)
    (env : Surroundings D) (id : String) :
    ((dispatchEntries entries envelope env).1 id).isSome = (entries id).isSome := by
  have admission := checkAdmission_isSome entries envelope env.checkedAt id
  unfold dispatchEntries
  split
  · next shown => simpa only [shown] using admission
  · next shown =>
    rw [shown] at admission
    exact (recordOutcome_isSome _ _ _ _ _ _).trans admission

def dispatchTools (tools : Tools D) (envelope : ToolEnvelope) (env : Surroundings D) :
    Tools D × ToolResult :=
  let dispatched := dispatchEntries tools.entries envelope env
  ({ tools with
      entries := dispatched.1
      listed := fun id => by rw [tools.listed id, dispatchEntries_isSome] },
    dispatched.2)

/-- `next_prioritized_packet`: the front of the queue. -/
def nextPrioritizedPacket (b : Bridge) : Bridge × Option PrioritizedPacket :=
  ({ b with queue := b.queue.tail }, b.queue.head?)

def arrive (b : Bridge) (packets : List PrioritizedPacket) : Bridge :=
  { b with queue := b.queue ++ packets }

/-! ## The handler -/

def admits (policy : CapabilityPolicy w) (syscall : SyscallEnum w) : Except SyscallError Unit :=
  if policy syscall then .ok () else .error .permissionDenied

def yieldQuantum (policy : CapabilityPolicy w) (k : Kernel w D) : Kernel w D × Answer w :=
  match admits policy .yield with
  | .error e => (k, .error e)
  | .ok () => ({ k with agenda := (checkAndBoost k.scheduler k.agenda).1 }, .ok .yielded)

def sleepUntilTick (policy : CapabilityPolicy w) (k : Kernel w D) : Kernel w D × Answer w :=
  match admits policy .sleepUntilTick with
  | .error e => (k, .error e)
  | .ok () =>
    ({ k with tick := satAdd 64 k.tick 1, tickFits := Nat.min_le_right _ _ }, .ok .slept)

def allocateFrames (policy : CapabilityPolicy w) (k : Kernel w D) (frames : BitVec w) :
    Kernel w D × Answer w :=
  match admits policy (.allocateFrames frames) with
  | .error e => (k, .error e)
  | .ok () =>
    let allocated := FrameAllocator.allocate k.frames frames
    let k := { k with frames := allocated.1 }
    match allocated.2 with
    | .ok alloc => (k, .ok (.framesAllocated alloc.frames))
    | .error .zeroSizedRequest => (k, .error .invalid)
    | .error .outOfMemory => (k, .error .unavailable)

def kindOf : SensoryPacket → Nat
  | .text _ => 0
  | .pcm _ => 1
  | .image _ _ _ => 2

def handleOf (remaining kind : Nat) : BitVec 64 :=
  (BitVec.ofNat 64 remaining <<< 8) ||| BitVec.ofNat 64 kind

/-- The length is read under a lock of its own, behind packets that came in between. -/
def readSensoryPacket (policy : CapabilityPolicy w) (k : Kernel w D) (env : Surroundings D) :
    Kernel w D × Answer w :=
  match admits policy .readSensoryPacket with
  | .error e => (k, .error e)
  | .ok () =>
    let popped := nextPrioritizedPacket k.senses
    let senses := arrive popped.1 env.between
    match popped.2 with
    | none => ({ k with senses }, .error .unavailable)
    | some prioritized =>
      ({ k with senses },
        .ok (.sensoryPacket (handleOf senses.queue.length (kindOf prioritized.packet))))

def dispatchTool (policy : CapabilityPolicy w) (k : Kernel w D) (toolId : UInt32)
    (env : Surroundings D) : Kernel w D × Answer w :=
  match admits policy (.dispatchTool toolId) with
  | .error e => (k, .error e)
  | .ok () =>
    match k.tools.list[toolId.toNat]? with
    | none => (k, .error .invalid)
    | some name =>
      let dispatched := dispatchTools k.tools ⟨name, []⟩ env
      let k := { k with tools := dispatched.1 }
      match dispatched.2 with
      | .ok _ => (k, .ok (.toolDispatched (BitVec.ofNat 64 toolId.toNat)))
      | .error _ => (k, .error .unavailable)

/-- `corpus::dispatch` on this handler. -/
def dispatch (policy : CapabilityPolicy w) (k : Kernel w D) (syscall : SyscallEnum w)
    (env : Surroundings D) : Kernel w D × Answer w :=
  match syscall with
  | .yield => yieldQuantum policy k
  | .sleepUntilTick => sleepUntilTick policy k
  | .allocateFrames frames => allocateFrames policy k frames
  | .readSensoryPacket => readSensoryPacket policy k env
  | .dispatchTool toolId => dispatchTool policy k toolId env

/-! ## Runs -/

inductive Request (w : Nat) (D : Type u) where
  | syscall (call : SyscallEnum w) (env : Surroundings D)
  | arrive (packets : List PrioritizedPacket)

/-- What a producer adds has no answer. -/
abbrev Response (w : Nat) := Option (Answer w)

def step (policy : CapabilityPolicy w) (k : Kernel w D) : Request w D → Kernel w D × Response w
  | .syscall call env =>
    let dispatched := dispatch policy k call env
    (dispatched.1, some dispatched.2)
  | .arrive packets => ({ k with senses := SyscallRouter.arrive k.senses packets }, none)

def admitted (policy : CapabilityPolicy w) : Request w D → Bool
  | .syscall call _ => policy call
  | .arrive _ => true

abbrev KernelCall (w : Nat) (D : Type u) := Call (Kernel w D) (Request w D) (Response w)

/-! ## The capability screen -/

theorem admits_of {policy : CapabilityPolicy w} {call : SyscallEnum w}
    (allowed : policy call = true) : admits policy call = admits allowAll call := by
  simp [admits, allowed, allowAll]

theorem admits_not {policy : CapabilityPolicy w} {call : SyscallEnum w}
    (refused : policy call = false) : admits policy call = .error .permissionDenied := by
  simp [admits, refused]

/-- Each method asks the policy about the very syscall that was dispatched to it. -/
theorem dispatch_screened (policy : CapabilityPolicy w) (k : Kernel w D) (call : SyscallEnum w)
    (env : Surroundings D) :
    dispatch policy k call env =
      if policy call then dispatch allowAll k call env else (k, .error .permissionDenied) := by
  cases shown : policy call with
  | true =>
    have same := admits_of shown
    cases call <;> simp only [dispatch, yieldQuantum, sleepUntilTick, allocateFrames,
      readSensoryPacket, dispatchTool, same, if_true]
  | false =>
    have refused := admits_not shown
    cases call <;> simp only [dispatch, yieldQuantum, sleepUntilTick, allocateFrames,
      readSensoryPacket, dispatchTool, refused, Bool.false_eq_true, if_false]

theorem step_screened (policy : CapabilityPolicy w) :
    @step w D policy =
      screened (admitted policy) (some (.error .permissionDenied)) (step allowAll) := by
  funext k r
  cases r with
  | syscall call env =>
    cases shown : policy call <;>
      simp [step, screened, admitted, shown, dispatch_screened policy]
  | arrive packets => simp [step, screened, admitted]

/-! ## One syscall, nothing screened -/

theorem allocateFrames_cases (k : Kernel w D) (frames : BitVec w) :
    (frames = 0 ∧ allocateFrames allowAll k frames = (k, .error .invalid)) ∨
    (frames ≠ 0 ∧ k.frames.capacity.toNat < k.frames.next.toNat + frames.toNat ∧
      allocateFrames allowAll k frames = (k, .error .unavailable)) ∨
    ∃ stop : BitVec w, stop.toNat = k.frames.next.toNat + frames.toNat ∧
      allocateFrames allowAll k frames =
        ({ k with frames := { k.frames with next := stop } }, .ok (.framesAllocated frames)) := by
  have allowed : admits allowAll (.allocateFrames frames) = .ok () := rfl
  obtain ⟨zero, same⟩ | ⟨some, exceeds, same⟩ | ⟨stop, -, sum, -, same⟩ :=
    FrameAllocator.allocate_cases k.frames frames
  · exact Or.inl ⟨zero, by simp only [allocateFrames, allowed, same]⟩
  · exact Or.inr (Or.inl ⟨some, exceeds, by simp only [allocateFrames, allowed, same]⟩)
  · exact Or.inr (Or.inr ⟨stop, sum, by simp only [allocateFrames, allowed, same]⟩)

theorem readSensoryPacket_cases (k : Kernel w D) (env : Surroundings D) :
    (k.senses.queue = [] ∧ readSensoryPacket allowAll k env =
      ({ k with senses := { k.senses with queue := env.between } }, .error .unavailable)) ∨
    ∃ p rest, k.senses.queue = p :: rest ∧ readSensoryPacket allowAll k env =
      ({ k with senses := { k.senses with queue := rest ++ env.between } },
        .ok (.sensoryPacket
          (handleOf (rest.length + env.between.length) (kindOf p.packet)))) := by
  have allowed : @admits w allowAll .readSensoryPacket = .ok () := rfl
  cases queue : k.senses.queue with
  | nil =>
    refine Or.inl ⟨rfl, ?_⟩
    simp only [readSensoryPacket, allowed, nextPrioritizedPacket, SyscallRouter.arrive, queue,
      List.tail_nil, List.head?_nil, List.nil_append]
  | cons p rest =>
    refine Or.inr ⟨p, rest, rfl, ?_⟩
    simp only [readSensoryPacket, allowed, nextPrioritizedPacket, SyscallRouter.arrive, queue,
      List.tail_cons, List.head?_cons, List.length_append]

theorem dispatchTool_cases (k : Kernel w D) (toolId : UInt32) (env : Surroundings D) :
    (k.tools.list.length ≤ toolId.toNat ∧
      dispatchTool allowAll k toolId env = (k, .error .invalid)) ∨
    ∃ name, k.tools.list[toolId.toNat]? = some name ∧
      (dispatchTool allowAll k toolId env).1 =
        { k with tools := (dispatchTools k.tools ⟨name, []⟩ env).1 } ∧
      ((dispatchTool allowAll k toolId env).2 =
        .ok (.toolDispatched (BitVec.ofNat 64 toolId.toNat)) ∨
      (dispatchTool allowAll k toolId env).2 = .error .unavailable) := by
  have allowed : @admits w allowAll (.dispatchTool toolId) = .ok () := rfl
  cases found : k.tools.list[toolId.toNat]? with
  | none =>
    refine Or.inl ⟨List.getElem?_eq_none_iff.mp found, ?_⟩
    simp only [dispatchTool, allowed, found]
  | some name =>
    refine Or.inr ⟨name, rfl, ?_⟩
    cases answer : (dispatchTools k.tools ⟨name, []⟩ env).2 <;>
      simp [dispatchTool, allowed, found, answer]

theorem allowAll_answers (k : Kernel w D) (r : Request w D) :
    (step allowAll k r).2 ≠ some (.error .permissionDenied) := by
  cases r with
  | arrive packets => simp [step]
  | syscall call env =>
    cases call with
    | yield => simp [step, dispatch, yieldQuantum, admits, allowAll]
    | sleepUntilTick => simp [step, dispatch, sleepUntilTick, admits, allowAll]
    | allocateFrames frames =>
      obtain ⟨-, same⟩ | ⟨-, -, same⟩ | ⟨stop, -, same⟩ := allocateFrames_cases k frames <;>
        simp [step, dispatch, same]
    | readSensoryPacket =>
      obtain ⟨-, same⟩ | ⟨p, rest, -, same⟩ := readSensoryPacket_cases k env <;>
        simp [step, dispatch, same]
    | dispatchTool toolId =>
      obtain ⟨-, same⟩ | ⟨name, -, -, same | same⟩ := dispatchTool_cases k toolId env <;>
        simp [step, dispatch, same]

/-- A batch under a policy is the batch of its admitted requests with nothing screened: the same
kernel at the end, the same answers on the way. What the policy does not admit is answered with
`PermissionDenied` and leaves nothing behind, and nothing else is answered so. -/
theorem capability_erasure (policy : CapabilityPolicy w) (k : Kernel w D)
    (requests : List (Request w D)) :
    final (step policy) k requests = final (step allowAll) k (requests.filter (admitted policy)) ∧
    (trace (step policy) k requests).filter (fun c => admitted policy c.request) =
      trace (step allowAll) k (requests.filter (admitted policy)) ∧
    ∀ c ∈ trace (step policy) k requests,
      c.response = some (.error .permissionDenied) ↔ admitted policy c.request = false := by
  simp only [step_screened policy]
  refine ⟨final_screened k requests, trace_screened k requests, ?_⟩
  intro c listed
  constructor
  · intro denied
    by_contra shown
    have allowed : admitted policy c.request = true := Bool.not_eq_false _ ▸ shown
    obtain ⟨-, -, -, -, response⟩ := mem_trace listed
    rw [response, screened_admitted allowed] at denied
    exact allowAll_answers c.before c.request denied
  · exact refused_response listed

/-! ## What one request does -/

def grantedOf (c : KernelCall w D) : Nat :=
  match c.response with
  | some (.ok (.framesAllocated frames)) => frames.toNat
  | _ => 0

def sleptOf (c : KernelCall w D) : Nat :=
  match c.response with
  | some (.ok .slept) => 1
  | _ => 0

/-- The packet a read took, by the state it met. -/
def deliveredOf (c : KernelCall w D) : List PrioritizedPacket :=
  match c.response with
  | some (.ok (.sensoryPacket _)) => c.before.senses.queue.head?.toList
  | _ => []

def arrivedOf (c : KernelCall w D) : List PrioritizedPacket :=
  match c.request with
  | .arrive packets => packets
  | .syscall .readSensoryPacket env =>
    if c.response = some (.error .permissionDenied) then [] else env.between
  | _ => []

/-- The tasks of an agenda without their levels. -/
def tasks (a : TaskAgenda Unit) : List (Nat × String × Option Nat) :=
  (a.high ++ a.medium ++ a.low).map fun t => (t.id, t.prompt, t.tokenBudget)

/-- What the answers of a run say about the subsystems behind the handler. -/
structure Accounts (k k' : Kernel w D) (calls : List (KernelCall w D)) : Prop where
  scheduler : k'.scheduler = k.scheduler
  tasks : tasks k'.agenda = tasks k.agenda
  capacity : k'.frames.capacity = k.frames.capacity
  frames : k'.frames.next.toNat = k.frames.next.toNat + (calls.map grantedOf).sum
  tick : k'.tick = satAdd 64 k.tick (calls.map sleptOf).sum
  bounds : k'.senses.activeBounds = k.senses.activeBounds
  packets : k.senses.queue ++ calls.flatMap arrivedOf =
    calls.flatMap deliveredOf ++ k'.senses.queue
  tools : k'.tools.list = k.tools.list

theorem accounts_refl (k : Kernel w D) : Accounts k k [] where
  scheduler := rfl
  tasks := rfl
  capacity := rfl
  frames := rfl
  tick := (satAdd_zero k.tickFits).symm
  bounds := rfl
  packets := List.append_nil _
  tools := rfl

theorem Accounts.append {k k₁ k₂ : Kernel w D} {xs ys : List (KernelCall w D)}
    (first : Accounts k k₁ xs) (second : Accounts k₁ k₂ ys) : Accounts k k₂ (xs ++ ys) where
  scheduler := second.scheduler.trans first.scheduler
  tasks := second.tasks.trans first.tasks
  capacity := second.capacity.trans first.capacity
  frames := by
    have := first.frames
    have := second.frames
    simp only [List.map_append, List.sum_append]
    omega
  tick := by
    rw [second.tick, first.tick]
    simp only [satAdd, List.map_append, List.sum_append]
    omega
  bounds := second.bounds.trans first.bounds
  packets := by
    rw [List.flatMap_append, List.flatMap_append, ← List.append_assoc, first.packets,
      List.append_assoc, second.packets, List.append_assoc]
  tools := second.tools.trans first.tools

theorem checkAndBoost_tasks (s : IterationAwareMlfq Unit) (a : TaskAgenda Unit) :
    tasks (checkAndBoost s a).1 = tasks a := by
  unfold checkAndBoost
  split
  · simp [tasks, boostAllToHigh, toHigh, Function.comp_def]
  · rfl

/-- A request that grants, sleeps, delivers and queues nothing. -/
theorem quiet (k : Kernel w D) (c : KernelCall w D) (granted : grantedOf c = 0)
    (slept : sleptOf c = 0) (delivered : deliveredOf c = []) (arrived : arrivedOf c = []) :
    Accounts k k [c] :=
  { accounts_refl k with
    frames := by simp [granted]
    tick := by simpa [slept] using (satAdd_zero k.tickFits).symm
    packets := by simp [delivered, arrived] }

theorem step_accounts (k : Kernel w D) (r : Request w D) :
    Accounts k (step allowAll k r).1 (trace (step allowAll) k [r]) := by
  cases r with
  | arrive packets =>
    exact { accounts_refl k with
      packets := by simp [trace, step, arrivedOf, deliveredOf, SyscallRouter.arrive] }
  | syscall call env =>
    cases call with
    | yield =>
      exact { accounts_refl k with
        tasks := checkAndBoost_tasks k.scheduler k.agenda }
    | sleepUntilTick => exact { accounts_refl k with tick := rfl }
    | allocateFrames frames =>
      obtain ⟨-, same⟩ | ⟨-, -, same⟩ | ⟨stop, sum, same⟩ := allocateFrames_cases k frames
      · simpa [trace, step, dispatch, same] using quiet k _ rfl rfl rfl rfl
      · simpa [trace, step, dispatch, same] using quiet k _ rfl rfl rfl rfl
      · simp only [trace, step, dispatch, same]
        exact { accounts_refl k with frames := sum }
    | readSensoryPacket =>
      obtain ⟨empty, same⟩ | ⟨p, rest, queue, same⟩ := readSensoryPacket_cases k env
      · simp only [trace, step, dispatch, same]
        exact { accounts_refl k with packets := by simp [empty, arrivedOf, deliveredOf] }
      · simp only [trace, step, dispatch, same]
        exact { accounts_refl k with packets := by simp [queue, arrivedOf, deliveredOf] }
    | dispatchTool toolId =>
      obtain ⟨-, same⟩ | ⟨name, -, after, same | same⟩ := dispatchTool_cases k toolId env
      · simpa [trace, step, dispatch, same] using quiet k _ rfl rfl rfl rfl
      · simp only [trace, step, dispatch, same, after]
        exact { accounts_refl k with }
      · simp only [trace, step, dispatch, same, after]
        exact { accounts_refl k with }

theorem run_accounts_open (k : Kernel w D) (requests : List (Request w D)) :
    Accounts k (final (step allowAll) k requests) (trace (step allowAll) k requests) := by
  induction requests generalizing k with
  | nil => exact accounts_refl k
  | cons r rest ih => exact (step_accounts k r).append (ih (step allowAll k r).1)

theorem step_accounts_screened (policy : CapabilityPolicy w) (k : Kernel w D) (r : Request w D) :
    Accounts k (step policy k r).1 (trace (step policy) k [r]) := by
  rw [step_screened policy]
  cases shown : admitted policy r with
  | true =>
    have same := @screened_admitted _ _ _ (admitted policy) (some (.error .permissionDenied))
      (step allowAll) k r shown
    simpa only [trace, same] using step_accounts k r
  | false =>
    have same := @screened_refused _ _ _ (admitted policy) (some (.error .permissionDenied))
      (step allowAll) k r shown
    simp only [trace, same]
    refine quiet k _ rfl rfl rfl ?_
    cases r with
    | syscall call env => cases call <;> simp [arrivedOf]
    | arrive packets => cases shown

theorem run_accounts (policy : CapabilityPolicy w) (k : Kernel w D)
    (requests : List (Request w D)) :
    Accounts k (final (step policy) k requests) (trace (step policy) k requests) := by
  induction requests generalizing k with
  | nil => exact accounts_refl k
  | cons r rest ih => exact (step_accounts_screened policy k r).append (ih (step policy k r).1)

/-! ## Handles -/

theorem kindOf_lt (p : SensoryPacket) : kindOf p < 256 := by
  cases p <;> simp [kindOf]

/-- The low byte is the packet's kind and the rest the depth of the queue, modulo its 56 bits. -/
theorem handleOf_decode (remaining : Nat) {kind : Nat} (small : kind < 256) :
    (handleOf remaining kind).toNat % 256 = kind ∧
    (handleOf remaining kind).toNat / 256 = remaining % 2 ^ 56 := by
  have high : (remaining % 2 ^ 64) <<< 8 % 2 ^ 64 = 2 ^ 8 * (remaining % 2 ^ 56) := by
    rw [Nat.shiftLeft_eq]
    omega
  have low : kind % 2 ^ 64 = kind := Nat.mod_eq_of_lt (by omega)
  have value : (handleOf remaining kind).toNat = 2 ^ 8 * (remaining % 2 ^ 56) + kind := by
    simp only [handleOf, BitVec.toNat_or, BitVec.toNat_shiftLeft, BitVec.toNat_ofNat, high, low]
    exact (Nat.two_pow_add_eq_or_of_lt small _).symm
  rw [value]
  omega

/-- Under any policy the subsystems are at the end what the answers of the batch account for:
the frames it granted, the ticks it slept, and each sensory packet once and in order, either
delivered or still queued; no task is lost and no tool appears. A delivered handle names the kind
of its packet and how many were left. -/
theorem syscalls_accounted (policy : CapabilityPolicy w) (k : Kernel w D)
    (requests : List (Request w D)) :
    Accounts k (final (step policy) k requests) (trace (step policy) k requests) ∧
    ∀ c ∈ trace (step policy) k requests, ∀ env handle,
      c.request = .syscall .readSensoryPacket env →
      c.response = some (.ok (.sensoryPacket handle)) →
      ∃ p rest, c.before.senses.queue = p :: rest ∧ handle.toNat % 256 = kindOf p.packet ∧
        handle.toNat / 256 = (rest.length + env.between.length) % 2 ^ 56 := by
  refine ⟨run_accounts policy k requests, ?_⟩
  intro c listed env handle asked answered
  obtain ⟨-, -, -, -, response⟩ := mem_trace listed
  rw [response, asked] at answered
  have answer : (dispatch policy c.before .readSensoryPacket env).2 =
      .ok (.sensoryPacket handle) := Option.some.inj answered
  rw [dispatch_screened] at answer
  split at answer
  · obtain ⟨-, same⟩ | ⟨p, rest, queue, same⟩ := readSensoryPacket_cases c.before env
    · simp [dispatch, same] at answer
    · simp only [dispatch, same] at answer
      obtain rfl : handleOf (rest.length + env.between.length) (kindOf p.packet) = handle := by
        simpa using answer
      exact ⟨p, rest, queue, handleOf_decode _ (kindOf_lt p.packet)⟩
  · cases answer

end SyscallRouter
