import AnimaOS.AdjacentSpans
import AnimaOS.Machine
import AnimaOS.WordArith

/-!
# The frame allocator

`allocate` is one atomic `fetch_update` of the cursor, so callers that race are a
sequence of these steps in the order of their updates. Frame numbers are words
of any width `w`, and every run of requests is about all capacities.
-/

namespace FrameAllocator

open WordArith Machine AdjacentSpans

variable {w : Nat}

structure FrameAllocation (w : Nat) where
  startFrame : BitVec w
  frames : BitVec w
  deriving DecidableEq, Repr

inductive FrameAllocatorError where
  | outOfMemory
  | zeroSizedRequest
  deriving DecidableEq, Repr

structure Allocator (w : Nat) where
  capacity : BitVec w
  next : BitVec w
  deriving DecidableEq, Repr

abbrev Answer (w : Nat) := Except FrameAllocatorError (FrameAllocation w)

def new (capacity : BitVec w) : Allocator w := ⟨capacity, 0⟩

def allocated (a : Allocator w) : BitVec w := a.next

/-- The `fetch_update` closure: the cursor behind the request, if it is within capacity. -/
def reserve (a : Allocator w) (frames cur : BitVec w) : Option (BitVec w) :=
  (checkedAdd cur frames).filter fun stop => stop ≤ a.capacity

def allocate (a : Allocator w) (frames : BitVec w) : Allocator w × Answer w :=
  if frames = 0 then (a, .error .zeroSizedRequest)
  else
    match reserve a frames a.next with
    | some stop => ({ a with next := stop }, .ok ⟨a.next, frames⟩)
    | none => (a, .error .outOfMemory)

/-! ## One request -/

/-- The cursor has not left the pool. -/
def Bounded (a : Allocator w) : Prop := a.next.toNat ≤ a.capacity.toNat

theorem new_bounded (capacity : BitVec w) : Bounded (new capacity) := by
  simp [Bounded, new]

theorem reserve_eq_some {a : Allocator w} {frames cur stop : BitVec w} :
    reserve a frames cur = some stop ↔
      stop.toNat = cur.toNat + frames.toNat ∧ stop.toNat ≤ a.capacity.toNat := by
  unfold reserve checkedAdd
  rw [Option.filter_eq_some_iff]
  constructor
  · rintro ⟨sum, small⟩
    have within : stop.toNat ≤ a.capacity.toNat := BitVec.le_def.mp (of_decide_eq_true small)
    split at sum
    · next fits =>
      obtain rfl := Option.some.inj sum
      exact ⟨toNat_add_of_fits fits, within⟩
    · cases sum
  · rintro ⟨sum, small⟩
    have fits : cur.toNat + frames.toNat < 2 ^ w := sum ▸ stop.isLt
    refine ⟨?_, decide_eq_true (BitVec.le_def.mpr small)⟩
    rw [if_pos fits, Option.some_inj]
    exact BitVec.eq_of_toNat_eq ((toNat_add_of_fits fits).trans sum.symm)

theorem reserve_eq_none {a : Allocator w} {frames cur : BitVec w} :
    reserve a frames cur = none ↔ a.capacity.toNat < cur.toNat + frames.toNat := by
  constructor
  · intro refused
    by_contra enough
    have fits : cur.toNat + frames.toNat < 2 ^ w := by have := a.capacity.isLt; omega
    have sum := toNat_add_of_fits fits
    have found : reserve a frames cur = some (cur + frames) := reserve_eq_some.mpr ⟨sum, by omega⟩
    simp [found] at refused
  · intro exceeds
    cases found : reserve a frames cur with
    | none => rfl
    | some stop =>
      obtain ⟨sum, small⟩ := reserve_eq_some.mp found
      omega

/-- What a request can come to: nothing asked for, no room, or the next frames. -/
theorem allocate_cases (a : Allocator w) (frames : BitVec w) :
    (frames = 0 ∧ allocate a frames = (a, .error .zeroSizedRequest)) ∨
    (frames ≠ 0 ∧ a.capacity.toNat < a.next.toNat + frames.toNat ∧
      allocate a frames = (a, .error .outOfMemory)) ∨
    ∃ stop, frames ≠ 0 ∧ stop.toNat = a.next.toNat + frames.toNat ∧
      stop.toNat ≤ a.capacity.toNat ∧
      allocate a frames = ({ a with next := stop }, .ok ⟨a.next, frames⟩) := by
  by_cases zero : frames = 0
  · exact Or.inl ⟨zero, by simp [allocate, zero]⟩
  right
  cases found : reserve a frames a.next with
  | none => exact Or.inl ⟨zero, reserve_eq_none.mp found,
      by simp only [allocate, if_neg zero, found]⟩
  | some stop =>
    obtain ⟨sum, small⟩ := reserve_eq_some.mp found
    exact Or.inr ⟨stop, zero, sum, small, by simp only [allocate, if_neg zero, found]⟩

theorem allocate_capacity (a : Allocator w) (frames : BitVec w) :
    (allocate a frames).1.capacity = a.capacity := by
  obtain ⟨-, same⟩ | ⟨-, -, same⟩ | ⟨stop, -, -, -, same⟩ := allocate_cases a frames <;> simp [same]

/-- A refusal says why, and a grant is the request at the cursor. -/
theorem answer_iff (a : Allocator w) (frames : BitVec w) :
    ((allocate a frames).2 = .error .zeroSizedRequest ↔ frames = 0) ∧
    ((allocate a frames).2 = .error .outOfMemory ↔
      frames ≠ 0 ∧ a.capacity.toNat < (allocated a).toNat + frames.toNat) ∧
    ∀ f, (allocate a frames).2 = .ok f → f = ⟨allocated a, frames⟩ := by
  obtain ⟨zero, same⟩ | ⟨some, exceeds, same⟩ | ⟨stop, some, sum, small, same⟩ :=
    allocate_cases a frames
  · simp only [same]
    exact ⟨by simp [zero], by simp [zero], by simp⟩
  · simp only [same]
    exact ⟨by simpa using some, by simpa [allocated, exceeds] using some, by simp⟩
  · have room : ¬ a.capacity.toNat < a.next.toNat + frames.toNat := by omega
    simp only [same]
    refine ⟨by simpa using some, by simp [allocated, room], ?_⟩
    intro f granted
    exact (Except.ok.inj granted).symm

/-! ## Runs of requests -/

def span (f : FrameAllocation w) : Span := ⟨f.startFrame.toNat, f.frames.toNat⟩

/-- The frames that a run handed out, grant by grant. -/
def grants (calls : List (Call (Allocator w) (BitVec w) (Answer w))) : List Span :=
  calls.filterMap fun c => c.response.toOption.map span

theorem grants_append (xs ys : List (Call (Allocator w) (BitVec w) (Answer w))) :
    grants (xs ++ ys) = grants xs ++ grants ys := List.filterMap_append

theorem allocate_tiles (a : Allocator w) (frames : BitVec w) :
    Tiles a.next.toNat (grants (trace allocate a [frames])) (allocate a frames).1.next.toNat := by
  obtain ⟨-, same⟩ | ⟨-, -, same⟩ | ⟨stop, -, sum, -, same⟩ := allocate_cases a frames
  · simp [trace, grants, same, Tiles, Except.toOption]
  · simp [trace, grants, same, Tiles, Except.toOption]
  · simp [trace, grants, same, Tiles, Except.toOption, span, sum]

theorem run_tiles (a : Allocator w) (requests : List (BitVec w)) :
    Tiles a.next.toNat (grants (trace allocate a requests))
      (final allocate a requests).next.toNat := by
  induction requests generalizing a with
  | nil => rfl
  | cons frames rest ih =>
    have first := allocate_tiles a frames
    have split : trace allocate a (frames :: rest) =
        trace allocate a [frames] ++ trace allocate (allocate a frames).1 rest := rfl
    rw [split, grants_append]
    exact tiles_append first (ih (allocate a frames).1)

theorem run_capacity (a : Allocator w) (requests : List (BitVec w)) :
    (final allocate a requests).capacity = a.capacity := by
  have keeps : ∀ b frames, b.capacity = a.capacity →
      (allocate b frames).1.capacity = a.capacity := by
    intro b frames same
    exact (allocate_capacity b frames).trans same
  exact final_invariant keeps rfl requests

theorem run_bounded {a : Allocator w} (bounded : Bounded a) (requests : List (BitVec w)) :
    Bounded (final allocate a requests) := by
  refine final_invariant (fun b frames within => ?_) bounded requests
  obtain ⟨-, same⟩ | ⟨-, -, same⟩ | ⟨stop, -, -, small, same⟩ := allocate_cases b frames
  · simpa only [same] using within
  · simpa only [same] using within
  · simpa only [same, Bounded] using small

/-- However requests interleave: the grants are pairwise disjoint and make up the frames below
the cursor, which stays within capacity, and a request fails exactly when it is empty or asks
for more than is left. -/
theorem frame_allocator_partition (capacity : BitVec w) (requests : List (BitVec w)) :
    let calls := trace allocate (new capacity) requests
    let last := final allocate (new capacity) requests
    (grants calls).Pairwise (fun s t => Disjoint s.points t.points) ∧
    (∀ i, (∃ s ∈ grants calls, i ∈ s.points) ↔ i < (allocated last).toNat) ∧
    ((grants calls).map Span.size).sum = (allocated last).toNat ∧
    (allocated last).toNat ≤ capacity.toNat ∧
    ∀ c ∈ calls,
      (c.response = .error .zeroSizedRequest ↔ c.request = 0) ∧
      (c.response = .error .outOfMemory ↔
        c.request ≠ 0 ∧ capacity.toNat < (allocated c.before).toNat + c.request.toNat) ∧
      ∀ f, c.response = .ok f → f = ⟨allocated c.before, c.request⟩ := by
  intro calls last
  have tiles : Tiles 0 (grants calls) (allocated last).toNat := by
    have start : (new capacity).next.toNat = 0 := BitVec.toNat_zero
    exact start ▸ run_tiles (new capacity) requests
  refine ⟨tiles_disjoint tiles, ?_, ?_, ?_, ?_⟩
  · intro i
    simpa using tiles_cover tiles i
  · simpa using tiles_total tiles
  · have bounded := run_bounded (new_bounded capacity) requests
    have kept : last.capacity = capacity := run_capacity (new capacity) requests
    exact kept ▸ bounded
  · intro c listed
    obtain ⟨pre, post, -, before, response⟩ := mem_trace listed
    have kept : c.before.capacity = capacity := before ▸ run_capacity (new capacity) pre
    rw [response, ← kept]
    exact answer_iff c.before c.request

end FrameAllocator
