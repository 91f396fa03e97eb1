import Mathlib.Data.List.Basic
import Mathlib.Data.List.Nodup

/-!
# Bounded breadth-first search

A search with a queue, a list of visited nodes and a bound on the depth. It takes
each node once, at its distance from the start, nearer ones first.
-/

namespace BreadthFirst

universe u

variable {α : Type u}

/-- Walks along a successor function, with their number of steps. -/
inductive Walk (next : α → List α) : Nat → α → α → Prop
  | start (x : α) : Walk next 0 x x
  | step {n : Nat} {x y z : α} (before : Walk next n x y) (last : z ∈ next y) :
      Walk next (n + 1) x z

def Distance (next : α → List α) (x y : α) (d : Nat) : Prop :=
  Walk next d x y ∧ ∀ n, Walk next n x y → d ≤ n

theorem Walk.cons {next : α → List α} {n : Nat} {x y z : α} (first : y ∈ next x)
    (walk : Walk next n y z) : Walk next (n + 1) x z := by
  induction walk with
  | start => exact .step (.start x) first
  | step before last ih => exact .step (ih first) last

structure Search (α : Type u) where
  visited : List α
  queue : List (α × Nat)

/-- A search that has taken some nodes: the discovered nodes are the taken and the queued ones,
nearest first, with depths that walks reach, and nothing next to a taken node is missing. -/
structure Frontier (next : α → List α) (maxDepth : Nat) (start : α) (s : Search α)
    (taken : List (α × Nat)) : Prop where
  listed : s.visited = (taken ++ s.queue).map Prod.fst
  distinct : s.visited.Nodup
  ordered : (taken ++ s.queue).Pairwise fun a b => a.2 ≤ b.2
  near : ∀ e ∈ taken ++ s.queue, ∀ head ∈ s.queue.head?, e.2 ≤ head.2 + 1
  walks : ∀ e ∈ taken ++ s.queue, Walk next e.2 start e.1 ∧ e.2 ≤ maxDepth
  closed : ∀ e ∈ taken, e.2 < maxDepth → ∀ y ∈ next e.1,
    ∃ d ≤ e.2 + 1, (y, d) ∈ taken ++ s.queue
  started : (start, 0) ∈ taken ++ s.queue

variable {next : α → List α} {maxDepth : Nat} {start : α}

theorem Frontier.initial (next : α → List α) (maxDepth : Nat) (start : α) :
    Frontier next maxDepth start ⟨[start], [(start, 0)]⟩ [] where
  listed := rfl
  distinct := List.nodup_singleton start
  ordered := List.pairwise_singleton _ _
  near := by
    intro e member head first
    cases first
    rw [List.mem_singleton.mp member]
    exact Nat.zero_le _
  walks := by
    intro e member
    rw [List.mem_singleton.mp member]
    exact ⟨.start start, Nat.zero_le maxDepth⟩
  closed := fun e member => absurd member List.not_mem_nil
  started := List.mem_singleton_self _

/-- Once the queue is empty every walk within the bound leads to a node no deeper than its
length. -/
theorem Frontier.reached {visited : List α} {taken : List (α × Nat)}
    (frontier : Frontier next maxDepth start ⟨visited, []⟩ taken) {n : Nat} {y : α}
    (walk : Walk next n start y) (within : n ≤ maxDepth) : ∃ d ≤ n, (y, d) ∈ taken := by
  have all : taken ++ [] = taken := List.append_nil taken
  induction n generalizing y with
  | zero =>
    cases walk
    exact ⟨0, Nat.le_refl _, all ▸ frontier.started⟩
  | succ n ih =>
    cases walk with
    | step before last =>
      rename_i middle
      obtain ⟨d, level, found⟩ := ih before (by omega)
      obtain ⟨d', next, there⟩ := frontier.closed (middle, d) found (by simp only; omega) y last
      exact ⟨d', by simp only at next; omega, all ▸ there⟩

theorem Frontier.done {visited : List α} {taken : List (α × Nat)}
    (frontier : Frontier next maxDepth start ⟨visited, []⟩ taken) :
    Frontier next maxDepth start ⟨taken.map Prod.fst, []⟩ taken := by
  have listed := frontier.listed
  rw [List.append_nil] at listed
  exact listed ▸ frontier

variable [DecidableEq α]

/-- A neighbour of a node of the given depth, queued when it is new. -/
def visit (depth : Nat) (s : Search α) (y : α) : Search α :=
  if y ∈ s.visited then s else ⟨s.visited ++ [y], s.queue ++ [(y, depth + 1)]⟩

def expand (next : α → List α) (maxDepth : Nat) (s : Search α) (x : α) (depth : Nat) : Search α :=
  if depth < maxDepth then (next x).foldl (visit depth) s else s

/-- The nodes in the order the queue gives them, each with its depth. -/
def search (next : α → List α) (maxDepth : Nat) :
    Nat → Search α → List (α × Nat) → Option (List (α × Nat))
  | _, ⟨_, []⟩, taken => some taken
  | 0, ⟨_, _ :: _⟩, _ => none
  | fuel + 1, ⟨visited, (x, depth) :: rest⟩, taken =>
    search next maxDepth fuel (expand next maxDepth ⟨visited, rest⟩ x depth) (taken ++ [(x, depth)])

/-! ## One node -/

theorem foldl_visit (depth : Nat) (ys : List α) (s : Search α) :
    ∃ new : List α, ys.foldl (visit depth) s =
        ⟨s.visited ++ new, s.queue ++ new.map fun y => (y, depth + 1)⟩ ∧
      new.Nodup ∧ (∀ y ∈ new, y ∉ s.visited) ∧ (∀ y ∈ new, y ∈ ys) ∧
      ∀ y ∈ ys, y ∈ s.visited ++ new := by
  induction ys generalizing s with
  | nil => exact ⟨[], by simp, List.nodup_nil, by simp, by simp, by simp⟩
  | cons y rest ih =>
    by_cases seen : y ∈ s.visited
    · have skipped : visit depth s y = s := if_pos seen
      obtain ⟨new, result, distinct, fresh, listed, covered⟩ := ih s
      refine ⟨new, by rw [List.foldl_cons, skipped, result], distinct, fresh,
        fun z member => List.mem_cons_of_mem y (listed z member), ?_⟩
      intro z member
      rcases List.mem_cons.mp member with rfl | later
      · exact List.mem_append_left new seen
      · exact covered z later
    · have queued : visit depth s y = ⟨s.visited ++ [y], s.queue ++ [(y, depth + 1)]⟩ :=
        if_neg seen
      obtain ⟨new, result, distinct, fresh, listed, covered⟩ :=
        ih ⟨s.visited ++ [y], s.queue ++ [(y, depth + 1)]⟩
      have apart : y ∉ new := fun member =>
        fresh y member (List.mem_append_right _ (List.mem_singleton_self y))
      refine ⟨y :: new, ?_, List.nodup_cons.mpr ⟨apart, distinct⟩, ?_, ?_, ?_⟩
      · rw [List.foldl_cons, queued, result]
        simp
      · intro z member
        rcases List.mem_cons.mp member with rfl | later
        · exact seen
        · exact fun before => fresh z later (List.mem_append_left _ before)
      · intro z member
        rcases List.mem_cons.mp member with rfl | later
        · exact List.mem_cons_self
        · exact List.mem_cons_of_mem y (listed z later)
      · intro z member
        rcases List.mem_cons.mp member with rfl | later
        · exact List.mem_append_right _ List.mem_cons_self
        · simpa using covered z later

theorem expand_spec (next : α → List α) (maxDepth : Nat) (s : Search α) (x : α) (depth : Nat) :
    ∃ new : List α, expand next maxDepth s x depth =
        ⟨s.visited ++ new, s.queue ++ new.map fun y => (y, depth + 1)⟩ ∧
      new.Nodup ∧ (∀ y ∈ new, y ∉ s.visited) ∧ (∀ y ∈ new, y ∈ next x ∧ depth < maxDepth) ∧
      (depth < maxDepth → ∀ y ∈ next x, y ∈ s.visited ++ new) := by
  by_cases deeper : depth < maxDepth
  · obtain ⟨new, result, distinct, fresh, listed, covered⟩ := foldl_visit depth (next x) s
    refine ⟨new, ?_, distinct, fresh, fun y member => ⟨listed y member, deeper⟩, fun _ => covered⟩
    rw [expand, if_pos deeper, result]
  · refine ⟨[], ?_, List.nodup_nil, by simp, by simp, fun inside => absurd inside deeper⟩
    rw [expand, if_neg deeper]
    simp

theorem Frontier.take {visited : List α} {x : α} {depth : Nat} {rest taken : List (α × Nat)}
    (frontier : Frontier next maxDepth start ⟨visited, (x, depth) :: rest⟩ taken) :
    Frontier next maxDepth start (expand next maxDepth ⟨visited, rest⟩ x depth)
      (taken ++ [(x, depth)]) := by
  obtain ⟨new, expanded, distinct, fresh, added, covered⟩ :=
    expand_spec next maxDepth ⟨visited, rest⟩ x depth
  obtain ⟨listed, known, ordered, near, walks, closed, started⟩ := frontier
  have bounded : ∀ e ∈ taken ++ (x, depth) :: rest, e.2 ≤ depth + 1 := fun e member =>
    near e member (x, depth) rfl
  have behind : ∀ e ∈ rest, depth ≤ e.2 :=
    fun e member => (List.pairwise_cons.mp (List.pairwise_append.mp ordered).2.1).1 e member
  have own := walks (x, depth) (List.mem_append_right _ List.mem_cons_self)
  have regroup : taken ++ [(x, depth)] ++ (rest ++ new.map fun y => (y, depth + 1)) =
      taken ++ (x, depth) :: rest ++ new.map fun y => (y, depth + 1) := by
    simp
  have young : ∀ e ∈ new.map fun y => (y, depth + 1), e.2 = depth + 1 ∧ e.1 ∈ new := by
    intro e member
    obtain ⟨y, inside, rfl⟩ := List.mem_map.mp member
    exact ⟨rfl, inside⟩
  rw [expanded]
  refine ⟨?_, ?_, ?_, ?_, ?_, ?_, ?_⟩
  · rw [regroup, List.map_append, ← listed, List.map_map]
    exact congrArg (visited ++ ·) (List.map_id new).symm
  · exact List.nodup_append.mpr ⟨known, distinct, fun a old b new same =>
      fresh b new (same ▸ old)⟩
  · rw [regroup]
    refine List.pairwise_append.mpr ⟨ordered, ?_, ?_⟩
    · exact List.pairwise_map.mpr (List.pairwise_of_forall fun _ _ => Nat.le_refl _)
    · intro a old b new
      rw [(young b new).1]
      exact bounded a old
  · rw [regroup]
    intro e member head first
    have later : depth ≤ head.2 := by
      rcases List.mem_append.mp (List.mem_of_mem_head? first) with queued | new
      · exact behind head queued
      · have level := (young head new).1
        omega
    rcases List.mem_append.mp member with old | new
    · have level := bounded e old
      omega
    · have level := (young e new).1
      omega
  · rw [regroup]
    intro e member
    rcases List.mem_append.mp member with old | new
    · exact walks e old
    · obtain ⟨level, inside⟩ := young e new
      obtain ⟨successor, deeper⟩ := added e.1 inside
      rw [level]
      exact ⟨.step own.1 successor, deeper⟩
  · rw [regroup]
    intro e member deeper y successor
    rcases List.mem_append.mp member with old | last
    · obtain ⟨d, level, found⟩ := closed e old deeper y successor
      exact ⟨d, level, List.mem_append_left _ found⟩
    · rw [List.mem_singleton.mp last] at deeper successor ⊢
      rcases List.mem_append.mp (covered deeper y successor) with before | new
      · have among : y ∈ (taken ++ (x, depth) :: rest).map Prod.fst := listed ▸ before
        obtain ⟨e', found, rfl⟩ := List.mem_map.mp among
        exact ⟨e'.2, bounded e' found, List.mem_append_left _ found⟩
      · exact ⟨depth + 1, Nat.le_refl _, List.mem_append_right _ (List.mem_map_of_mem new)⟩
  · rw [regroup]
    exact List.mem_append_left _ started

/-! ## The whole search -/

theorem search_done (fuel : Nat) (visited : List α) (taken : List (α × Nat)) :
    search next maxDepth fuel ⟨visited, []⟩ taken = some taken := by
  rw [search]

/-- The search ends before it has taken more nodes than there are. -/
theorem search_ends {nodes : List α} (complete : ∀ x ∈ nodes, ∀ y ∈ next x, y ∈ nodes)
    {fuel : Nat} {s : Search α} {taken : List (α × Nat)}
    (frontier : Frontier next maxDepth start s taken) (known : ∀ x ∈ s.visited, x ∈ nodes)
    (enough : nodes.length ≤ fuel + taken.length) :
    ∃ out, search next maxDepth fuel s taken = some out ∧
      Frontier next maxDepth start ⟨out.map Prod.fst, []⟩ out := by
  induction fuel generalizing s taken with
  | zero =>
    obtain ⟨visited, queue⟩ := s
    cases queue with
    | nil => exact ⟨taken, search_done _ visited taken, frontier.done⟩
    | cons e rest =>
      exfalso
      have size := List.Nodup.length_le_of_subset frontier.distinct known
      have length := congrArg List.length frontier.listed
      simp only [List.length_map, List.length_append, List.length_cons] at length
      simp only at size
      omega
  | succ fuel ih =>
    obtain ⟨visited, queue⟩ := s
    cases queue with
    | nil => exact ⟨taken, search_done _ visited taken, frontier.done⟩
    | cons e rest =>
      obtain ⟨x, depth⟩ := e
      have here : x ∈ nodes := by
        refine known x ?_
        rw [frontier.listed]
        exact List.mem_map_of_mem (List.mem_append_right taken List.mem_cons_self)
      obtain ⟨new, expanded, -, -, added, -⟩ := expand_spec next maxDepth ⟨visited, rest⟩ x depth
      rw [search]
      refine ih frontier.take ?_ ?_
      · intro y discovered
        rw [expanded] at discovered
        rcases List.mem_append.mp discovered with old | young
        · exact known y old
        · exact complete x here y (added y young).1
      · rw [List.length_append, List.length_singleton]
        omega

/-- More fuel does not change what the search found. -/
theorem search_more {fuel more : Nat} (below : fuel ≤ more) {s : Search α}
    {taken out : List (α × Nat)} (found : search next maxDepth fuel s taken = some out) :
    search next maxDepth more s taken = some out := by
  induction fuel generalizing more s taken with
  | zero =>
    obtain ⟨visited, queue⟩ := s
    cases queue with
    | nil =>
      rw [search_done] at found ⊢
      exact found
    | cons e rest =>
      rw [search] at found
      cases found
  | succ fuel ih =>
    obtain ⟨visited, queue⟩ := s
    cases queue with
    | nil =>
      rw [search_done] at found ⊢
      exact found
    | cons e rest =>
      obtain ⟨more, rfl⟩ : ∃ k, more = k + 1 := ⟨more - 1, by omega⟩
      rw [search] at found ⊢
      exact ih (by omega) found

/-- The search takes each node within the bound once, at its distance, nearer ones first. -/
theorem search_exact {nodes : List α} (complete : ∀ x ∈ nodes, ∀ y ∈ next x, y ∈ nodes)
    (inside : start ∈ nodes) (maxDepth : Nat) {fuel : Nat} (enough : nodes.length ≤ fuel) :
    ∃ out, search next maxDepth fuel ⟨[start], [(start, 0)]⟩ [] = some out ∧
      (out.map Prod.fst).Nodup ∧ (out.Pairwise fun a b => a.2 ≤ b.2) ∧
      ∀ y d, (y, d) ∈ out ↔ Distance next start y d ∧ d ≤ maxDepth := by
  have known : ∀ x ∈ [start], x ∈ nodes := fun x same => List.mem_singleton.mp same ▸ inside
  obtain ⟨out, ends, frontier⟩ :=
    search_ends complete (Frontier.initial next maxDepth start) known enough
  have all : out ++ [] = out := List.append_nil out
  have ordered := frontier.ordered
  rw [all] at ordered
  have exact_depth : ∀ y d, (y, d) ∈ out → Distance next start y d ∧ d ≤ maxDepth := by
    intro y d found
    obtain ⟨walk, within⟩ := frontier.walks (y, d) (all.symm ▸ found)
    refine ⟨⟨walk, fun n other => ?_⟩, within⟩
    by_contra shorter
    obtain ⟨d', level, again⟩ := frontier.reached other (by simp only at within; omega)
    have same : d' = d := by
      have equal := List.inj_on_of_nodup_map frontier.distinct again found rfl
      exact congrArg Prod.snd equal
    omega
  refine ⟨out, ends, frontier.distinct, ordered, fun y d => ⟨exact_depth y d, ?_⟩⟩
  rintro ⟨⟨walk, shortest⟩, within⟩
  obtain ⟨d', level, found⟩ := frontier.reached walk within
  have least := shortest d' (exact_depth y d' found).1.1
  have same : d' = d := by omega
  exact same ▸ found

end BreadthFirst
