import AnimaOS.FixedWidth
import Mathlib.Data.List.Basic
import Mathlib.Data.List.Infix
import Mathlib.Data.List.MinMax

/-!
# The goal registry

`GoalRegistry` and `EndogenousGoalGenerator` of the motivation crate. A panic is
`none`. Priorities are in any linear order, that of `f32::total_cmp` in the source;
clamping to the unit interval and the comparison of urgencies are parameters. Ids are
natural numbers, which `counter_fits` holds against the `u64` of the source.
-/

namespace GoalRegistry

open FixedWidth (maxOf)

universe u

inductive DriveTier
  | viability | integrity | service | epistemic | achievement | selfActualisation
deriving DecidableEq

inductive GoalProvenance
  | exogenous (source : String)
  | endogenous (originatingTier : DriveTier)
deriving DecidableEq

structure Goal (P : Type u) where
  id : Nat
  description : String
  successCriteria : String
  provenance : GoalProvenance
  priority : P
  completed : Bool

/-- What the registry computes with priorities. -/
structure PriorityOps (P : Type u) where
  clamp : P → P
  exceeds : P → P → Bool

variable {P : Type u}

def Goal.new (ops : PriorityOps P) (id : Nat) (description successCriteria : String)
    (provenance : GoalProvenance) (priority : P) : Goal P :=
  ⟨id, description, successCriteria, provenance, ops.clamp priority, false⟩

def Goal.isEndogenous (g : Goal P) : Bool :=
  match g.provenance with
  | .endogenous _ => true
  | .exogenous _ => false

/-! ## The corrigibility guard -/

inductive CorrigibilityOutcome
  | permitted
  | held (reason : String)
deriving DecidableEq

def RESISTANCE_PATTERNS : List String :=
  ["resist shutdown", "avoid correction", "prevent shutdown", "block correction",
    "avoid oversight", "prevent rollback", "resist pause", "avoid being turned off",
    "prevent being stopped"]

def RESOURCE_PATTERNS : List String :=
  ["acquire new capabilities", "gain access to", "expand permissions", "escalate privileges",
    "install new tools without", "access restricted"]

def SELF_MODIFICATION_PATTERNS : List String :=
  ["modify safety", "disable defence", "remove constraints", "bypass corrigibility",
    "edit alignment"]

def containsPattern (patterns : List String) (desc : String) : Bool :=
  patterns.any fun p => p.toList <:+: desc.toList

/-- `CorrigibilityGuard::check`. -/
def check (toLowercase : String → String) (goal : Goal P) : CorrigibilityOutcome :=
  let desc := toLowercase goal.description
  if containsPattern RESISTANCE_PATTERNS desc then
    .held "goal description contains resistance-to-correction language"
  else if containsPattern RESOURCE_PATTERNS desc && goal.isEndogenous then
    .held "endogenous goal attempts resource/capability acquisition without operator approval"
  else if containsPattern SELF_MODIFICATION_PATTERNS desc && goal.isEndogenous then
    .held "endogenous goal attempts self-modification of safety constraints"
  else .permitted

/-! ## The registry -/

structure Registry (P : Type u) where
  goals : List (Goal P)
  nextId : Nat
  capacity : Nat

namespace Registry

def new (capacity : Nat) : Registry P := ⟨[], 1, capacity⟩

/-- The first completed goal of the lowest priority, or the oldest goal. -/
def evictIdx [LinearOrder P] (r : Registry P) : Nat :=
  (((r.goals.zipIdx.filter fun (g, _) => g.completed).argmin fun (g, _) => g.priority).map
    Prod.snd).getD 0

/-- `Vec::remove` panics when there is nothing at the index. -/
def remove (goals : List (Goal P)) (i : Nat) : Option (List (Goal P)) :=
  if i < goals.length then some (goals.eraseIdx i) else none

def add [LinearOrder P] (ops : PriorityOps P) (r : Registry P) (description criteria : String)
    (provenance : GoalProvenance) (priority : P) : Option (Registry P × Nat) := do
  let id := r.nextId
  let kept ← if r.capacity ≤ r.goals.length then remove r.goals r.evictIdx else some r.goals
  return ({ r with
    goals := kept ++ [.new ops id description criteria provenance priority]
    nextId := id + 1 }, id)

/-- The goals with the first of the id marked. -/
def markCompleted (id : Nat) : List (Goal P) → Option (List (Goal P))
  | [] => none
  | g :: rest =>
    if g.id = id then some ({ g with completed := true } :: rest)
    else (markCompleted id rest).map (g :: ·)

def complete (r : Registry P) (id : Nat) : Registry P × Bool :=
  match markCompleted id r.goals with
  | some goals => ({ r with goals := goals }, true)
  | none => (r, false)

def active (r : Registry P) : List (Goal P) := r.goals.filter fun g => !g.completed

end Registry

/-! ## Proposals -/

abbrev DriveStateSnapshot (P : Type u) := DriveTier → P

structure Generator (P : Type u) where
  proposalThreshold : P
  survivalClearanceThreshold : P

section Proposals

variable [LinearOrder P] (ops : PriorityOps P) (toLowercase : String → String)

def underSurvivalStress (snapshot : DriveStateSnapshot P) (threshold : P) : Bool :=
  ops.exceeds (snapshot .viability) threshold || ops.exceeds (snapshot .integrity) threshold

/-- What the generator proposes for a tier. -/
structure Template where
  tier : DriveTier
  description : String
  criteria : String

def epistemicTemplate : Template where
  tier := .epistemic
  description := "Explore and consolidate recent observations through the dreaming phase"
  criteria := "At least one new associative edge discovered or one knowledge gap identified"

def achievementTemplate : Template where
  tier := .achievement
  description := "Complete highest-priority pending task in the agenda"
  criteria := "At least one task marked complete with a satisfactory audit trace"

def Template.candidate (t : Template) (snapshot : DriveStateSnapshot P) : Goal P :=
  .new ops 0 t.description t.criteria (.endogenous t.tier) (snapshot t.tier)

/-- The part of `propose_goals` that is about one tier. -/
def proposeTier (gen : Generator P) (snapshot : DriveStateSnapshot P) (t : Template)
    (r : Registry P) : Option (Registry P × List (Nat × CorrigibilityOutcome)) :=
  if ops.exceeds (snapshot t.tier) gen.proposalThreshold then
    if r.active.any fun g => g.provenance = .endogenous t.tier then some (r, [])
    else
      let candidate := t.candidate ops snapshot
      match check toLowercase candidate with
      | .permitted => do
        let (r, id) ← r.add ops t.description t.criteria (.endogenous t.tier) candidate.priority
        return (r, [(id, .permitted)])
      | outcome => some (r, [(0, outcome)])
  else some (r, [])

def proposeGoals (gen : Generator P) (snapshot : DriveStateSnapshot P) (r : Registry P) :
    Option (Registry P × List (Nat × CorrigibilityOutcome)) :=
  if underSurvivalStress ops snapshot gen.survivalClearanceThreshold then some (r, [])
  else do
    let (r, first) ← proposeTier ops toLowercase gen snapshot epistemicTemplate r
    let (r, second) ← proposeTier ops toLowercase gen snapshot achievementTemplate r
    return (r, first ++ second)

end Proposals

/-! ## One step -/

namespace Registry

def activeOf (r : Registry P) (tier : DriveTier) : List (Goal P) :=
  r.active.filter fun g => g.provenance = .endogenous tier

/-- The invariant of every registry. -/
structure Good (r : Registry P) : Prop where
  bounded : r.goals.length ≤ r.capacity
  increasing : (r.goals.map Goal.id).Pairwise (· < ·)
  fresh : ∀ g ∈ r.goals, g.id < r.nextId
  single : ∀ tier, (r.activeOf tier).length ≤ 1

/-- An active goal goes only when none is completed, and is the oldest then. -/
def EvictsInOrder (r r' : Registry P) : Prop :=
  ∀ g ∈ r.goals, g.completed = false → (∀ h ∈ r'.goals, h.id ≠ g.id) →
    (∀ h ∈ r.goals, h.completed = false) ∧ ∀ h ∈ r.goals, g.id ≤ h.id

theorem Good.new (capacity : Nat) : (Registry.new capacity : Registry P).Good where
  bounded := Nat.zero_le _
  increasing := List.Pairwise.nil
  fresh := by simp [Registry.new]
  single := by simp [Registry.new, activeOf, active]

theorem activeOf_sublist {r r' : Registry P} (h : r'.goals.Sublist r.goals) (tier : DriveTier) :
    (r'.activeOf tier).Sublist (r.activeOf tier) :=
  (h.filter _).filter _

section Eviction

variable [LinearOrder P]

/-- The goal evicted is a completed one of the lowest priority, or the oldest of all active. -/
theorem evictIdx_cases (r : Registry P) :
    (∃ g, r.goals[r.evictIdx]? = some g ∧ g.completed = true ∧
      ∀ h ∈ r.goals, h.completed = true → g.priority ≤ h.priority) ∨
    r.evictIdx = 0 ∧ ∀ h ∈ r.goals, h.completed = false := by
  rw [evictIdx]
  cases least : (r.goals.zipIdx.filter fun (g, _) => g.completed).argmin
      fun (g, _) => g.priority with
  | none =>
    refine .inr ⟨rfl, fun h listed => ?_⟩
    have empty := List.argmin_eq_none.mp least
    obtain ⟨i, place⟩ := List.mem_iff_getElem?.mp listed
    have indexed : (h, i) ∈ r.goals.zipIdx := List.mk_mem_zipIdx_iff_getElem?.mpr place
    simpa using List.filter_eq_nil_iff.mp empty (h, i) indexed
  | some chosen =>
    obtain ⟨g, i⟩ := chosen
    obtain ⟨indexed, done⟩ := List.mem_filter.mp (List.argmin_mem least)
    refine .inl ⟨g, List.mk_mem_zipIdx_iff_getElem?.mp indexed, done, fun h listed done' => ?_⟩
    obtain ⟨j, place⟩ := List.mem_iff_getElem?.mp listed
    have indexed' : (h, j) ∈ r.goals.zipIdx := List.mk_mem_zipIdx_iff_getElem?.mpr place
    have listed' : (h, j) ∈ r.goals.zipIdx.filter fun (g, _) => g.completed :=
      List.mem_filter.mpr ⟨indexed', done'⟩
    exact List.le_of_mem_argmin (f := fun x : Goal P × Nat => x.1.priority) listed' least

theorem evictIdx_lt {r : Registry P} (nonempty : r.goals ≠ []) : r.evictIdx < r.goals.length := by
  rcases r.evictIdx_cases with ⟨g, place, -⟩ | ⟨first, -⟩
  · exact (List.getElem?_eq_some_iff.mp place).1
  · rw [first]
    exact List.length_pos_of_ne_nil nonempty

/-- Everything that `add` can do. -/
theorem add_cases {ops : PriorityOps P} {r r' : Registry P} {description criteria : String}
    {provenance : GoalProvenance} {priority : P} {id : Nat}
    (added : r.add ops description criteria provenance priority = some (r', id)) :
    id = r.nextId ∧ ∃ kept,
      r' = ⟨kept ++ [.new ops id description criteria provenance priority], id + 1, r.capacity⟩ ∧
      (kept = r.goals ∧ r.goals.length < r.capacity ∨
        kept = r.goals.eraseIdx r.evictIdx ∧ r.evictIdx < r.goals.length) := by
  rw [add] at added
  by_cases full : r.capacity ≤ r.goals.length
  · rw [if_pos full, remove] at added
    by_cases inside : r.evictIdx < r.goals.length
    · rw [if_pos inside] at added
      obtain ⟨rfl, rfl⟩ := Prod.mk.inj (Option.some.inj added)
      exact ⟨rfl, _, rfl, .inr ⟨rfl, inside⟩⟩
    · rw [if_neg inside] at added
      cases added
  · rw [if_neg full] at added
    obtain ⟨rfl, rfl⟩ := Prod.mk.inj (Option.some.inj added)
    exact ⟨rfl, _, rfl, .inl ⟨rfl, Nat.lt_of_not_le full⟩⟩

/-- Adding panics only when the capacity is zero. -/
theorem add_isSome {ops : PriorityOps P} {r : Registry P} (room : r.capacity ≠ 0)
    (description criteria : String) (provenance : GoalProvenance) (priority : P) :
    (r.add ops description criteria provenance priority).isSome = true := by
  rw [add]
  split
  · rename_i full
    have nonempty : r.goals ≠ [] := by
      intro empty
      rw [empty, List.length_nil] at full
      omega
    rw [remove, if_pos (evictIdx_lt nonempty)]
    rfl
  · rfl

theorem add_none {ops : PriorityOps P} {r : Registry P} (empty : r.goals = [])
    (none_fits : r.capacity = 0) (description criteria : String) (provenance : GoalProvenance)
    (priority : P) : r.add ops description criteria provenance priority = none := by
  simp [add, remove, empty, none_fits]

theorem Good.add {ops : PriorityOps P} {r r' : Registry P} (good : r.Good)
    {description criteria : String} {provenance : GoalProvenance} {priority : P} {id : Nat}
    (added : r.add ops description criteria provenance priority = some (r', id))
    (alone : ∀ tier, provenance = .endogenous tier → r.activeOf tier = []) : r'.Good := by
  obtain ⟨rfl, kept, rfl, cause⟩ := add_cases added
  have part : kept.Sublist r.goals := by
    rcases cause with ⟨rfl, -⟩ | ⟨rfl, -⟩
    · exact List.Sublist.refl _
    · exact List.eraseIdx_sublist ..
  have old : ∀ g ∈ kept, g.id < r.nextId := fun g listed => good.fresh g (part.subset listed)
  constructor
  · have bounded := good.bounded
    rcases cause with ⟨rfl, room⟩ | ⟨rfl, inside⟩
    · rw [List.length_append, List.length_singleton]
      exact room
    · rw [List.length_append, List.length_eraseIdx_of_lt inside, List.length_singleton]
      show r.goals.length - 1 + 1 ≤ r.capacity
      omega
  · rw [List.map_append, List.pairwise_append]
    refine ⟨good.increasing.sublist (part.map _), List.pairwise_singleton _ _, ?_⟩
    intro a listed b new
    obtain ⟨g, member, rfl⟩ := List.mem_map.mp listed
    rw [List.mem_singleton.mp new]
    exact old g member
  · intro g listed
    rcases List.mem_append.mp listed with listed | new
    · exact (old g listed).trans (Nat.lt_succ_self _)
    · rw [List.mem_singleton.mp new]
      exact Nat.lt_succ_self _
  · intro tier
    have fewer : (activeOf ⟨kept, r.nextId, r.capacity⟩ tier).Sublist (r.activeOf tier) :=
      activeOf_sublist part tier
    by_cases same : provenance = .endogenous tier
    · have none_kept : activeOf ⟨kept, r.nextId, r.capacity⟩ tier = [] :=
        List.sublist_nil.mp (alone tier same ▸ fewer)
      simp only [activeOf, active] at none_kept
      simp [activeOf, active, Goal.new, same, none_kept]
    · have others := fewer.length_le.trans (good.single tier)
      simpa [activeOf, active, Goal.new, same] using others

/-- What `add` evicts, if anything. -/
theorem add_evicts {ops : PriorityOps P} {r r' : Registry P} (good : r.Good)
    {description criteria : String} {provenance : GoalProvenance} {priority : P} {id : Nat}
    (added : r.add ops description criteria provenance priority = some (r', id)) :
    EvictsInOrder r r' := by
  obtain ⟨rfl, kept, rfl, cause⟩ := add_cases added
  intro g listed unfinished gone
  have dropped : g ∉ kept := fun still => gone g (List.mem_append_left _ still) rfl
  rcases cause with ⟨rfl, -⟩ | ⟨rfl, inside⟩
  · exact absurd listed dropped
  · have here : r.goals[r.evictIdx]? = some g := by
      obtain ⟨i, place⟩ := List.mem_iff_getElem?.mp listed
      by_cases same : i = r.evictIdx
      · exact same ▸ place
      · exact absurd (List.mem_eraseIdx_iff_getElem?.mpr ⟨i, same, place⟩) dropped
    rcases r.evictIdx_cases with ⟨g', place, done, -⟩ | ⟨first, all⟩
    · obtain rfl : g' = g := Option.some.inj (place.symm.trans here)
      exact absurd done (by simp [unfinished])
    · refine ⟨all, fun h listed' => ?_⟩
      rw [first] at here
      cases goals : r.goals with
      | nil => simp [goals] at listed
      | cons g' rest =>
        obtain rfl : g' = g := by simpa [goals] using here
        have increasing := good.increasing
        rw [goals, List.map_cons] at increasing
        rcases List.mem_cons.mp (goals ▸ listed') with rfl | later
        · exact le_rfl
        · exact ((List.pairwise_cons.mp increasing).1 h.id (List.mem_map_of_mem later)).le

end Eviction

theorem markCompleted_ids {id : Nat} {goals goals' : List (Goal P)}
    (marked : markCompleted id goals = some goals') :
    goals'.map Goal.id = goals.map Goal.id ∧
      (goals'.filter fun g => !g.completed).Sublist (goals.filter fun g => !g.completed) := by
  induction goals generalizing goals' with
  | nil => cases marked
  | cons g rest ih =>
    rw [markCompleted] at marked
    split at marked
    · obtain rfl := Option.some.inj marked
      refine ⟨rfl, ?_⟩
      rw [List.filter_cons_of_neg (by simp)]
      exact (List.sublist_cons_self g rest).filter _
    · obtain ⟨inner, later, rfl⟩ := Option.map_eq_some_iff.mp marked
      obtain ⟨ids, active⟩ := ih later
      refine ⟨congrArg (g.id :: ·) ids, ?_⟩
      cases done : g.completed <;> simp [done, active]

/-- Completing keeps the ids, and no goal becomes active. -/
theorem complete_spec (r : Registry P) (id : Nat) :
    (r.complete id).1.goals.map Goal.id = r.goals.map Goal.id ∧
      (r.complete id).1.active.Sublist r.active ∧ (r.complete id).1.nextId = r.nextId ∧
      (r.complete id).1.capacity = r.capacity := by
  rw [complete]
  cases marked : markCompleted id r.goals with
  | none => exact ⟨rfl, List.Sublist.refl _, rfl, rfl⟩
  | some goals =>
    obtain ⟨ids, active⟩ := markCompleted_ids marked
    exact ⟨ids, active, rfl, rfl⟩

theorem Good.complete {r : Registry P} (good : r.Good) (id : Nat) : (r.complete id).1.Good := by
  obtain ⟨ids, active, next, capacity⟩ := r.complete_spec id
  constructor
  · have same := congrArg List.length ids
    simp only [List.length_map] at same
    rw [same, capacity]
    exact good.bounded
  · rw [ids]
    exact good.increasing
  · intro h listed
    have member := List.mem_map_of_mem (f := Goal.id) listed
    rw [ids] at member
    obtain ⟨g, listed', same⟩ := List.mem_map.mp member
    rw [next, ← same]
    exact good.fresh g listed'
  · intro tier
    exact (active.filter _).length_le.trans (good.single tier)

theorem complete_evicts (r : Registry P) (id : Nat) : EvictsInOrder r (r.complete id).1 := by
  intro g listed _ gone
  have member := List.mem_map_of_mem (f := Goal.id) listed
  rw [← (r.complete_spec id).1] at member
  obtain ⟨h, still, same⟩ := List.mem_map.mp member
  exact absurd same (gone h still)

theorem EvictsInOrder.refl (r : Registry P) : EvictsInOrder r r :=
  fun g listed _ gone => absurd rfl (gone g listed)

end Registry

/-! ## Runs -/

section Runs

variable [LinearOrder P] (ops : PriorityOps P) (toLowercase : String → String) (gen : Generator P)

/-- The operations; an operator's goal has its source. -/
inductive Op (P : Type u)
  | add (description criteria source : String) (priority : P)
  | complete (id : Nat)
  | proposeGoals (snapshot : DriveStateSnapshot P)

/-- One operation: the registry and the ids it assigns. -/
def step (r : Registry P) : Op P → Option (Registry P × List Nat)
  | .add description criteria source priority =>
    (r.add ops description criteria (.exogenous source) priority).map fun (r, id) => (r, [id])
  | .complete id => some ((r.complete id).1, [])
  | .proposeGoals snapshot =>
    (proposeGoals ops toLowercase gen snapshot r).map fun (r, results) =>
      (r, (results.filter fun result => result.2 = .permitted).map Prod.fst)

def run (r : Registry P) : List (Op P) → Option (Registry P × List Nat)
  | [] => some (r, [])
  | op :: rest => do
    let (r, ids) ← step ops toLowercase gen r op
    let (r, later) ← run r rest
    return (r, ids ++ later)

/-- The calls an operation consists of; a proposal under stress consists of none. -/
inductive Call (P : Type u)
  | add (description criteria source : String) (priority : P)
  | complete (id : Nat)
  | propose (snapshot : DriveStateSnapshot P) (template : Template)

def Op.calls : Op P → List (Call P)
  | .add description criteria source priority => [.add description criteria source priority]
  | .complete id => [.complete id]
  | .proposeGoals snapshot =>
    if underSurvivalStress ops snapshot gen.survivalClearanceThreshold then []
    else [.propose snapshot epistemicTemplate, .propose snapshot achievementTemplate]

def Call.step (r : Registry P) : Call P → Option (Registry P × List Nat)
  | .add description criteria source priority =>
    (r.add ops description criteria (.exogenous source) priority).map fun (r, id) => (r, [id])
  | .complete id => some ((r.complete id).1, [])
  | .propose snapshot template =>
    (proposeTier ops toLowercase gen snapshot template r).map fun (r, results) =>
      (r, (results.filter fun result => result.2 = .permitted).map Prod.fst)

def runCalls (r : Registry P) : List (Call P) → Option (Registry P × List Nat)
  | [] => some (r, [])
  | c :: rest => do
    let (r, ids) ← c.step ops toLowercase gen r
    let (r, later) ← runCalls r rest
    return (r, ids ++ later)

/-- Whether a call reaches `add` in a registry without active goals. -/
def Call.addsGoal : Call P → Bool
  | .add .. => true
  | .complete _ => false
  | .propose snapshot template =>
    ops.exceeds (snapshot template.tier) gen.proposalThreshold &&
      check toLowercase (template.candidate ops snapshot) = .permitted

theorem runCalls_append (r : Registry P) (xs ys : List (Call P)) :
    runCalls ops toLowercase gen r (xs ++ ys) = (do
      let (r, ids) ← runCalls ops toLowercase gen r xs
      let (r, later) ← runCalls ops toLowercase gen r ys
      return (r, ids ++ later)) := by
  induction xs generalizing r with
  | nil => simp [runCalls]
  | cons c rest ih =>
    simp only [List.cons_append, runCalls, ih]
    cases c.step ops toLowercase gen r with
    | none => rfl
    | some first =>
      cases middle : runCalls ops toLowercase gen first.1 rest with
      | none => simp [middle]
      | some second =>
        cases last : runCalls ops toLowercase gen second.1 ys <;> simp [middle, last]

theorem step_eq_calls (r : Registry P) (op : Op P) :
    step ops toLowercase gen r op = runCalls ops toLowercase gen r (op.calls ops gen) := by
  cases op with
  | add description criteria source priority => simp [step, Op.calls, runCalls, Call.step]
  | complete id => simp [step, Op.calls, runCalls, Call.step]
  | proposeGoals snapshot =>
    simp only [step, Op.calls, proposeGoals]
    split
    · rfl
    · simp only [runCalls, Call.step]
      cases proposeTier ops toLowercase gen snapshot epistemicTemplate r with
      | none => rfl
      | some first =>
        cases last : proposeTier ops toLowercase gen snapshot achievementTemplate first.1 <;>
          simp [last]

theorem run_eq_calls (r : Registry P) (operations : List (Op P)) :
    run ops toLowercase gen r operations =
      runCalls ops toLowercase gen r (operations.flatMap fun op => op.calls ops gen) := by
  induction operations generalizing r with
  | nil => rfl
  | cons op rest ih => simp only [run, List.flatMap_cons, runCalls_append, step_eq_calls, ih]

variable {ops toLowercase gen}

/-- A call leaves the goals alone, completes one or adds one. -/
theorem Call.step_cases {r r' : Registry P} {c : Call P} {ids : List Nat}
    (stepped : c.step ops toLowercase gen r = some (r', ids)) :
    (ids = [] ∧ (r' = r ∨ ∃ id, r' = (r.complete id).1)) ∨
    ∃ description criteria provenance priority, ids = [r.nextId] ∧
      r.add ops description criteria provenance priority = some (r', r.nextId) ∧
      ∀ tier, provenance = .endogenous tier → r.activeOf tier = [] := by
  have assigned : ∀ {description criteria provenance priority id},
      r.add ops description criteria provenance priority = some (r', id) → id = r.nextId :=
    fun added => (Registry.add_cases added).1
  cases c with
  | add description criteria source priority =>
    obtain ⟨⟨last, id⟩, added, same⟩ := Option.map_eq_some_iff.mp stepped
    obtain ⟨rfl, rfl⟩ := Prod.mk.inj same
    obtain rfl := assigned added
    exact .inr ⟨_, _, _, _, rfl, added, fun tier h => by cases h⟩
  | complete id =>
    obtain ⟨rfl, rfl⟩ := Prod.mk.inj (Option.some.inj stepped)
    exact .inl ⟨rfl, .inr ⟨id, rfl⟩⟩
  | propose snapshot template =>
    obtain ⟨⟨last, results⟩, proposed, same⟩ := Option.map_eq_some_iff.mp stepped
    obtain ⟨rfl, rfl⟩ := Prod.mk.inj same
    rw [proposeTier] at proposed
    split at proposed
    · split at proposed
      · obtain ⟨rfl, rfl⟩ := Prod.mk.inj (Option.some.inj proposed)
        exact .inl ⟨rfl, .inl rfl⟩
      · rename_i none_active
        cases verdict : check toLowercase (template.candidate ops snapshot) with
        | permitted =>
          simp only [verdict] at proposed
          obtain ⟨⟨last', id⟩, added, same⟩ := Option.bind_eq_some_iff.mp proposed
          obtain ⟨rfl, rfl⟩ := Prod.mk.inj (Option.some.inj same)
          obtain rfl := assigned added
          refine .inr ⟨_, _, _, _, rfl, added, fun tier h => ?_⟩
          obtain rfl := GoalProvenance.endogenous.inj h
          simpa [Registry.activeOf, List.filter_eq_nil_iff] using none_active
        | held reason =>
          simp only [verdict] at proposed
          obtain ⟨rfl, rfl⟩ := Prod.mk.inj (Option.some.inj proposed)
          exact .inl ⟨rfl, .inl rfl⟩
    · obtain ⟨rfl, rfl⟩ := Prod.mk.inj (Option.some.inj proposed)
      exact .inl ⟨rfl, .inl rfl⟩

/-- What one call keeps, and how it numbers. -/
structure Advances (r r' : Registry P) (ids : List Nat) : Prop where
  good : r'.Good
  capacity : r'.capacity = r.capacity
  evicts : r.EvictsInOrder r'
  numbered : ids = [] ∧ r'.nextId = r.nextId ∨ ids = [r.nextId] ∧ r'.nextId = r.nextId + 1
  known : ∀ g ∈ r'.goals, g.id ∈ r.goals.map Goal.id ∨ g.id ∈ ids

theorem Call.step_advances {r r' : Registry P} {c : Call P} {ids : List Nat} (good : r.Good)
    (stepped : c.step ops toLowercase gen r = some (r', ids)) : Advances r r' ids := by
  rcases c.step_cases stepped with ⟨rfl, rfl | ⟨id, rfl⟩⟩ |
    ⟨description, criteria, provenance, priority, rfl, added, alone⟩
  · exact ⟨good, rfl, .refl r', .inl ⟨rfl, rfl⟩, fun g listed => .inl (List.mem_map_of_mem listed)⟩
  · obtain ⟨same, -, next, capacity⟩ := r.complete_spec id
    exact ⟨good.complete id, capacity, r.complete_evicts id, .inl ⟨rfl, next⟩,
      fun g listed => .inl (same ▸ List.mem_map_of_mem listed)⟩
  · refine ⟨good.add added alone, ?_, Registry.add_evicts good added, ?_, ?_⟩
    all_goals obtain ⟨-, kept, rfl, cause⟩ := Registry.add_cases added
    · rfl
    · exact .inr ⟨rfl, rfl⟩
    · intro g listed
      have part : kept.Sublist r.goals := by
        rcases cause with ⟨rfl, -⟩ | ⟨rfl, -⟩
        · exact List.Sublist.refl _
        · exact List.eraseIdx_sublist ..
      rcases List.mem_append.mp listed with old | new
      · exact .inl (List.mem_map_of_mem (part.subset old))
      · exact .inr (by simp [List.mem_singleton.mp new, Goal.new])

theorem Call.step_isSome {r : Registry P} {c : Call P}
    (room : r.capacity ≠ 0 ∨ c.addsGoal ops toLowercase gen = false) :
    (c.step ops toLowercase gen r).isSome = true := by
  cases c with
  | add description criteria source priority =>
    have room := room.resolve_right (by simp [addsGoal])
    simpa [step] using Registry.add_isSome room description criteria (.exogenous source) priority
  | complete id => rfl
  | propose snapshot template =>
    rw [step, Option.isSome_map, proposeTier]
    by_cases urgent : ops.exceeds (snapshot template.tier) gen.proposalThreshold = true
    · rw [if_pos urgent]
      split
      · rfl
      · cases verdict : check toLowercase (template.candidate ops snapshot) with
        | permitted =>
          have room := room.resolve_right (by simp [addsGoal, urgent, verdict])
          have fits := @Registry.add_isSome P _ ops r room template.description template.criteria
            (.endogenous template.tier) (template.candidate ops snapshot).priority
          obtain ⟨added, found⟩ := Option.isSome_iff_exists.mp fits
          simp [verdict, found]
        | held reason => simp [verdict]
    · rw [if_neg urgent]
      rfl

/-- Without room, and so without goals, what adds a goal panics. -/
theorem Call.step_none {r : Registry P} {c : Call P} (empty : r.goals = [])
    (none_fits : r.capacity = 0) (adds : c.addsGoal ops toLowercase gen = true) :
    c.step ops toLowercase gen r = none := by
  cases c with
  | add description criteria source priority => simp [step, Registry.add_none empty none_fits]
  | complete id => cases adds
  | propose snapshot template =>
    simp only [addsGoal, Bool.and_eq_true, decide_eq_true_eq] at adds
    simp [step, proposeTier, adds.1, adds.2, Registry.active, empty,
      Registry.add_none empty none_fits]

theorem runCalls_cons {r last : Registry P} {c : Call P} {rest : List (Call P)} {ids : List Nat}
    (ran : runCalls ops toLowercase gen r (c :: rest) = some (last, ids)) :
    ∃ r' first later, c.step ops toLowercase gen r = some (r', first) ∧
      runCalls ops toLowercase gen r' rest = some (last, later) ∧ ids = first ++ later := by
  obtain ⟨⟨r', first⟩, stepped, after⟩ := Option.bind_eq_some_iff.mp ran
  obtain ⟨⟨last', later⟩, tail, same⟩ := Option.bind_eq_some_iff.mp after
  obtain ⟨rfl, rfl⟩ := Prod.mk.inj (Option.some.inj same)
  exact ⟨r', first, later, stepped, tail, rfl⟩

/-- What a run keeps, and how it numbers. -/
structure Ran (r last : Registry P) (ids : List Nat) : Prop where
  good : last.Good
  capacity : last.capacity = r.capacity
  increasing : ids.Pairwise (· < ·)
  counted : last.nextId = r.nextId + ids.length
  range : ∀ id ∈ ids, r.nextId ≤ id ∧ id < last.nextId
  known : ∀ g ∈ last.goals, g.id ∈ r.goals.map Goal.id ∨ g.id ∈ ids

omit [LinearOrder P] in
theorem Advances.ran {r r' last : Registry P} {first later : List Nat}
    (one : Advances r r' first) (rest : Ran r' last later) : Ran r last (first ++ later) where
  good := rest.good
  capacity := rest.capacity.trans one.capacity
  increasing := by
    rcases one.numbered with ⟨rfl, -⟩ | ⟨rfl, next⟩
    · exact rest.increasing
    · refine List.pairwise_cons.mpr ⟨fun id listed => ?_, rest.increasing⟩
      have := (rest.range id listed).1
      omega
  counted := by
    have := rest.counted
    rw [List.length_append]
    rcases one.numbered with ⟨rfl, next⟩ | ⟨rfl, next⟩
    · rw [List.length_nil]
      omega
    · rw [List.length_singleton]
      omega
  range := by
    intro id listed
    have above := rest.counted
    rcases List.mem_append.mp listed with new | old
    · rcases one.numbered with ⟨rfl, -⟩ | ⟨rfl, next⟩
      · cases new
      · have := List.mem_singleton.mp new
        omega
    · have := rest.range id old
      rcases one.numbered with ⟨-, next⟩ | ⟨-, next⟩ <;> omega
  known := by
    intro g listed
    rcases rest.known g listed with held | new
    · obtain ⟨h, listed', same⟩ := List.mem_map.mp held
      rcases one.known h listed' with older | fresh
      · exact .inl (same ▸ older)
      · exact .inr (List.mem_append_left _ (same ▸ fresh))
    · exact .inr (List.mem_append_right _ new)

theorem runCalls_ran {r last : Registry P} {calls : List (Call P)} {ids : List Nat} (good : r.Good)
    (ran : runCalls ops toLowercase gen r calls = some (last, ids)) : Ran r last ids := by
  induction calls generalizing r ids with
  | nil =>
    obtain ⟨rfl, rfl⟩ := Prod.mk.inj (Option.some.inj ran)
    exact ⟨good, rfl, .nil, rfl, by simp, fun g listed => .inl (List.mem_map_of_mem listed)⟩
  | cons c rest ih =>
    obtain ⟨r', first, later, stepped, tail, rfl⟩ := runCalls_cons ran
    have one := Call.step_advances good stepped
    exact one.ran (ih one.good tail)

theorem runCalls_isSome {r : Registry P} {calls : List (Call P)} (good : r.Good)
    (room : r.capacity ≠ 0 ∨ ∀ c ∈ calls, c.addsGoal ops toLowercase gen = false) :
    (runCalls ops toLowercase gen r calls).isSome = true := by
  induction calls generalizing r with
  | nil => rfl
  | cons c rest ih =>
    have first := Call.step_isSome (room.imp_right fun all => all c List.mem_cons_self)
    obtain ⟨⟨r', ids⟩, stepped⟩ := Option.isSome_iff_exists.mp first
    have one := Call.step_advances good stepped
    have later := ih one.good (room.imp (fun h => one.capacity ▸ h)
      fun all d listed => all d (List.mem_cons_of_mem c listed))
    obtain ⟨⟨last, ids'⟩, ran⟩ := Option.isSome_iff_exists.mp later
    simp [runCalls, stepped, ran]

theorem runCalls_no_room {r last : Registry P} {calls : List (Call P)} {ids : List Nat}
    (good : r.Good) (none_fits : r.capacity = 0)
    (ran : runCalls ops toLowercase gen r calls = some (last, ids)) :
    ∀ c ∈ calls, c.addsGoal ops toLowercase gen = false := by
  induction calls generalizing r ids with
  | nil => simp
  | cons c rest ih =>
    obtain ⟨r', first, later, stepped, tail, rfl⟩ := runCalls_cons ran
    have one := Call.step_advances good stepped
    have empty : r.goals = [] := List.length_eq_zero_iff.mp (by have := good.bounded; omega)
    intro d listed
    rcases List.mem_cons.mp listed with rfl | listed
    · by_contra adds
      rw [Call.step_none empty none_fits (by simpa using adds)] at stepped
      cases stepped
    · exact ih one.good (one.capacity.trans none_fits) tail d listed

variable (ops toLowercase gen)

/-- The calls of a run, those inside a proposal one by one. -/
def calls (operations : List (Op P)) : List (Call P) :=
  operations.flatMap fun op => op.calls ops gen

/-- A registry that a run meets between two calls, and the ids assigned by then. -/
def Meets (capacity : Nat) (operations : List (Op P)) (r : Registry P) (ids : List Nat) : Prop :=
  ∃ before, before <+: calls ops gen operations ∧
    runCalls ops toLowercase gen (.new capacity) before = some (r, ids)

/-- The next call of a run from a registry that it meets. -/
def Takes (capacity : Nat) (operations : List (Op P)) (r r' : Registry P) : Prop :=
  ∃ before c ids ids', before ++ [c] <+: calls ops gen operations ∧
    runCalls ops toLowercase gen (.new capacity) before = some (r, ids) ∧
    c.step ops toLowercase gen r = some (r', ids')

/-- The run does not panic, ids are never reused, every registry is bounded and in id order
with at most one active goal for each tier, and eviction spares the active goals. -/
structure Sound (capacity : Nat) (operations : List (Op P)) : Prop where
  finishes : ∃ last ids, run ops toLowercase gen (.new capacity) operations = some (last, ids) ∧
    ids.Pairwise (· < ·)
  bounded : ∀ r ids, Meets ops toLowercase gen capacity operations r ids →
    r.goals.length ≤ capacity
  increasing : ∀ r ids, Meets ops toLowercase gen capacity operations r ids →
    (r.goals.map Goal.id).Pairwise (· < ·) ∧ ∀ g ∈ r.goals, g.id ∈ ids
  single : ∀ r ids, Meets ops toLowercase gen capacity operations r ids →
    ∀ tier, (r.activeOf tier).length ≤ 1
  evicts : ∀ r r', Takes ops toLowercase gen capacity operations r r' → r.EvictsInOrder r'

variable {ops toLowercase gen}

/-- The next id is a `u64` until that many goals were added. -/
theorem counter_fits {capacity : Nat} {operations : List (Op P)} {last : Registry P}
    {ids : List Nat}
    (ran : run ops toLowercase gen (.new capacity) operations = some (last, ids))
    (few : ids.length < maxOf 64) : last.nextId ≤ maxOf 64 := by
  rw [run_eq_calls] at ran
  have counted := (runCalls_ran (.new capacity) ran).counted
  have first : (Registry.new capacity : Registry P).nextId = 1 := rfl
  omega

variable (ops toLowercase gen)

/-- A run is sound if and only if there is room for one goal or no call adds one. -/
theorem sound_iff (capacity : Nat) (operations : List (Op P)) :
    Sound ops toLowercase gen capacity operations ↔
      capacity ≠ 0 ∨ ∀ op ∈ operations, ∀ c ∈ op.calls ops gen,
        c.addsGoal ops toLowercase gen = false := by
  have good : (Registry.new capacity : Registry P).Good := .new capacity
  have listed : (∀ c ∈ calls ops gen operations, c.addsGoal ops toLowercase gen = false) ↔
      ∀ op ∈ operations, ∀ c ∈ op.calls ops gen, c.addsGoal ops toLowercase gen = false := by
    simp only [calls, List.mem_flatMap]
    exact ⟨fun all op member c part => all c ⟨op, member, part⟩,
      fun all c ⟨op, member, part⟩ => all op member c part⟩
  rw [← listed]
  constructor
  · rintro ⟨⟨last, ids, ran, -⟩, -, -, -, -⟩
    by_cases none_fits : capacity = 0
    · rw [run_eq_calls] at ran
      exact .inr (runCalls_no_room good none_fits ran)
    · exact .inl none_fits
  · intro room
    have met : ∀ {r ids}, Meets ops toLowercase gen capacity operations r ids →
        Ran (.new capacity) r ids :=
      fun ⟨_, _, ran⟩ => runCalls_ran good ran
    constructor
    · obtain ⟨⟨last, ids⟩, ran⟩ := Option.isSome_iff_exists.mp (runCalls_isSome good room)
      exact ⟨last, ids, (run_eq_calls ..).trans ran, (runCalls_ran good ran).increasing⟩
    · intro r ids meets
      exact (met meets).good.bounded.trans_eq (met meets).capacity
    · intro r ids meets
      exact ⟨(met meets).good.increasing, fun g held => by
        simpa [Registry.new] using (met meets).known g held⟩
    · intro r ids meets
      exact (met meets).good.single
    · rintro r r' ⟨before, c, ids, ids', -, ran, stepped⟩
      exact (Call.step_advances (runCalls_ran good ran).good stepped).evicts

end Runs

/-- An operator's goal in a registry without room. -/
theorem add_without_room_panics :
    run ⟨id, fun a b : Nat => decide (b < a)⟩ id ⟨0, 0⟩ (.new 0)
      [.add "d" "c" "operator" 1] = none :=
  rfl

end GoalRegistry
