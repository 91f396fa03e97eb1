import AnimaOS.BreadthFirst
import AnimaOS.KnowledgeGraph
import Mathlib.Combinatorics.SimpleGraph.Metric

/-!
# Neighbours in the knowledge graph

The search for the entities around an entity follows relations in both directions,
through ids that may have no entity. Distances are those of the undirected graph
of the relations.
-/

namespace KnowledgeGraph

open BreadthFirst GroupedIndex

def visitAll (neighbours : Option (List String)) (depth : Nat) (s : Search String) :
    Search String :=
  match neighbours with
  | none => s
  | some ids => ids.foldl (visit depth) s

/-- The loop of the search: the visited ids with the queue, and the entities found. -/
def neighboursFrom (g : Graph) (maxDepth : Nat) :
    Nat → Search String → List Entity → Option (List Entity)
  | _, ⟨_, []⟩, result => some result
  | 0, ⟨_, _ :: _⟩, _ => none
  | fuel + 1, ⟨visited, (current, depth) :: rest⟩, result =>
    let result :=
      if 0 < depth then
        match g.entities current with
        | none => result
        | some entity => result ++ [entity]
      else result
    let s : Search String := ⟨visited, rest⟩
    let s :=
      if depth < maxDepth then
        visitAll (g.backAdjacency current) depth (visitAll (g.adjacency current) depth s)
      else s
    neighboursFrom g maxDepth fuel s result

def findNeighbors (g : Graph) (entityId : String) (maxDepth fuel : Nat) : Option (List Entity) :=
  match g.entities entityId with
  | none => some []
  | some _ => neighboursFrom g maxDepth fuel ⟨[entityId], [(entityId, 0)]⟩ []

/-- The ids next to an id, in the order they are visited. -/
def nextTo (g : Graph) (id : String) : List String :=
  (g.adjacency id).getD [] ++ (g.backAdjacency id).getD []

def undirected (g : Graph) : SimpleGraph String :=
  SimpleGraph.fromRel fun a b => ∃ r ∈ g.relations, r.fromId = a ∧ r.toId = b

/-- The ids that occur in the graph around an id. -/
def around (g : Graph) (id : String) : List String :=
  id :: g.relations.flatMap fun r => [r.fromId, r.toId]

variable {g : Graph}

/-! ## The loop as a breadth-first search -/

theorem visitAll_eq (neighbours : Option (List String)) (depth : Nat) (s : Search String) :
    visitAll neighbours depth s = (neighbours.getD []).foldl (visit depth) s := by
  cases neighbours <;> rfl

/-- The entity of a node that was taken, unless it is the start. -/
def entityOf (g : Graph) (e : String × Nat) : Option Entity :=
  if 0 < e.2 then g.entities e.1 else none

theorem neighboursFrom_eq (maxDepth fuel : Nat) (s : Search String) (taken : List (String × Nat)) :
    neighboursFrom g maxDepth fuel s (taken.filterMap (entityOf g)) =
      (search (nextTo g) maxDepth fuel s taken).map fun out => out.filterMap (entityOf g) := by
  induction fuel generalizing s taken with
  | zero =>
    obtain ⟨visited, queue⟩ := s
    cases queue <;> rfl
  | succ fuel ih =>
    obtain ⟨visited, queue⟩ := s
    cases queue with
    | nil => rfl
    | cons e rest =>
      obtain ⟨current, depth⟩ := e
      have found : (if 0 < depth then
            match g.entities current with
            | none => taken.filterMap (entityOf g)
            | some entity => taken.filterMap (entityOf g) ++ [entity]
          else taken.filterMap (entityOf g)) =
          (taken ++ [(current, depth)]).filterMap (entityOf g) := by
        rw [List.filterMap_append]
        by_cases deep : 0 < depth
        · cases held : g.entities current <;> simp [deep, held, entityOf]
        · simp [deep, entityOf]
      have expanded : (if depth < maxDepth then
            visitAll (g.backAdjacency current) depth
              (visitAll (g.adjacency current) depth ⟨visited, rest⟩)
          else ⟨visited, rest⟩) = expand (nextTo g) maxDepth ⟨visited, rest⟩ current depth := by
        rw [expand, nextTo, List.foldl_append, visitAll_eq, visitAll_eq]
      rw [neighboursFrom, search, ← ih]
      simp only [found, expanded]

/-! ## Distances -/

theorem mem_nextTo (indexed : Indexed g) {a b : String} :
    b ∈ nextTo g a ↔ ∃ r ∈ g.relations,
      (r.fromId = a ∧ r.toId = b) ∨ (r.fromId = b ∧ r.toId = a) := by
  rw [nextTo, indexed.forward, indexed.backward, grouped_getD, grouped_getD]
  simp only [List.mem_append, List.mem_map, List.mem_filter, decide_eq_true_eq]
  constructor
  · rintro (⟨r, ⟨listed, own⟩, rfl⟩ | ⟨r, ⟨listed, own⟩, rfl⟩)
    · exact ⟨r, listed, .inl ⟨own, rfl⟩⟩
    · exact ⟨r, listed, .inr ⟨rfl, own⟩⟩
  · rintro ⟨r, listed, ⟨own, rfl⟩ | ⟨rfl, own⟩⟩
    · exact .inl ⟨r, ⟨listed, own⟩, rfl⟩
    · exact .inr ⟨r, ⟨listed, own⟩, rfl⟩

theorem nextTo_around (indexed : Indexed g) (start : String) :
    ∀ x ∈ around g start, ∀ y ∈ nextTo g x, y ∈ around g start := by
  intro x _ y next
  obtain ⟨r, listed, ⟨-, rfl⟩ | ⟨rfl, -⟩⟩ := (mem_nextTo indexed).mp next
  · exact List.mem_cons_of_mem _ (List.mem_flatMap.mpr ⟨r, listed, by simp⟩)
  · exact List.mem_cons_of_mem _ (List.mem_flatMap.mpr ⟨r, listed, by simp⟩)

theorem around_length (g : Graph) (start : String) :
    (around g start).length = 2 * g.relations.length + 1 := by
  simp [around, List.length_flatMap, Nat.mul_comm]

theorem adj_nextTo (indexed : Indexed g) {a b : String} (adjacent : (undirected g).Adj a b) :
    b ∈ nextTo g a := by
  obtain ⟨-, ⟨r, listed, source, target⟩ | ⟨r, listed, source, target⟩⟩ :=
    (SimpleGraph.fromRel_adj _ a b).mp adjacent
  · exact (mem_nextTo indexed).mpr ⟨r, listed, .inl ⟨source, target⟩⟩
  · exact (mem_nextTo indexed).mpr ⟨r, listed, .inr ⟨source, target⟩⟩

theorem walk_of_walk (indexed : Indexed g) {a b : String} (p : (undirected g).Walk a b) :
    Walk (nextTo g) p.length a b := by
  induction p with
  | nil => exact .start _
  | cons adjacent _ ih => exact .cons (adj_nextTo indexed adjacent) ih

/-- A step to the same id does not lead away from the start. -/
theorem edist_le_walk (indexed : Indexed g) {a b : String} {n : Nat}
    (walk : Walk (nextTo g) n a b) : (undirected g).edist a b ≤ n := by
  induction walk with
  | start => simp
  | step before last ih =>
    rename_i n x y z
    have near : (undirected g).edist y z ≤ 1 := by
      by_cases same : y = z
      · rw [same]
        simp
      · obtain ⟨r, listed, forward | backward⟩ := (mem_nextTo indexed).mp last
        · have adjacent : (undirected g).Adj y z :=
            (SimpleGraph.fromRel_adj _ y z).mpr ⟨same, .inl ⟨r, listed, forward⟩⟩
          exact (SimpleGraph.edist_eq_one_iff_adj.mpr adjacent).le
        · have adjacent : (undirected g).Adj y z :=
            (SimpleGraph.fromRel_adj _ y z).mpr ⟨same, .inr ⟨r, listed, backward⟩⟩
          exact (SimpleGraph.edist_eq_one_iff_adj.mpr adjacent).le
    calc (undirected g).edist x z
        ≤ (undirected g).edist x y + (undirected g).edist y z :=
          SimpleGraph.edist_triangle
      _ ≤ (n : ℕ∞) + 1 := add_le_add ih near
      _ = ((n + 1 : ℕ) : ℕ∞) := by push_cast; rfl

theorem distance_iff (indexed : Indexed g) {a b : String} {d : Nat} :
    Distance (nextTo g) a b d ↔ (undirected g).edist a b = d := by
  constructor
  · rintro ⟨walk, shortest⟩
    apply le_antisymm (edist_le_walk indexed walk)
    have finite : (undirected g).edist a b ≠ ⊤ := by
      intro infinite
      have bound := edist_le_walk indexed walk
      rw [infinite] at bound
      exact absurd bound (by simp)
    obtain ⟨p, length⟩ := SimpleGraph.exists_walk_of_edist_ne_top finite
    rw [← length]
    exact_mod_cast shortest _ (walk_of_walk indexed p)
  · intro distance
    have finite : (undirected g).edist a b ≠ ⊤ := by
      rw [distance]
      simp
    obtain ⟨p, length⟩ := SimpleGraph.exists_walk_of_edist_ne_top finite
    rw [distance] at length
    have exact_length : p.length = d := by exact_mod_cast length
    refine ⟨exact_length ▸ walk_of_walk indexed p, fun n walk => ?_⟩
    have bound := edist_le_walk indexed walk
    rw [distance] at bound
    exact_mod_cast bound

/-! ## What is found -/

/-- The ids of the entities found, in their order. -/
def idsOf (g : Graph) (out : List (String × Nat)) : List String :=
  (out.filter fun e => (entityOf g e).isSome).map Prod.fst

theorem idsOf_entities (g : Graph) (out : List (String × Nat)) :
    (idsOf g out).map g.entities = (out.filterMap (entityOf g)).map some := by
  induction out with
  | nil => rfl
  | cons e rest ih =>
    cases found : entityOf g e with
    | none => simpa [idsOf, found] using ih
    | some entity =>
      have held : g.entities e.1 = some entity := by
        rw [entityOf] at found
        split at found
        · exact found
        · cases found
      simpa [idsOf, found, held] using ih

theorem mem_idsOf {out : List (String × Nat)} {id : String} :
    id ∈ idsOf g out ↔ ∃ d, (id, d) ∈ out ∧ 0 < d ∧ (g.entities id).isSome := by
  simp only [idsOf, List.mem_map, List.mem_filter]
  constructor
  · rintro ⟨⟨_, d⟩, ⟨listed, held⟩, rfl⟩
    rw [entityOf] at held
    split at held
    · rename_i deep
      exact ⟨d, listed, deep, held⟩
    · cases held
  · rintro ⟨d, listed, deep, held⟩
    exact ⟨(id, d), ⟨listed, by rw [entityOf, if_pos deep]; exact held⟩, rfl⟩

/-- The search from an entity ends and finds the entities at distances from one to the bound, each
once and nearer ones first. -/
theorem neighbours_exact (g : Graph) (indexed : Indexed g) (start : String)
    (held : (g.entities start).isSome) (maxDepth : Nat) :
    ∃ (found : List Entity) (ids : List String),
      (∀ fuel, 2 * g.relations.length + 1 ≤ fuel →
        findNeighbors g start maxDepth fuel = some found) ∧
      ids.map g.entities = found.map some ∧ ids.Nodup ∧ start ∉ ids ∧
      (∀ id, id ∈ ids ↔ (g.entities id).isSome ∧
        1 ≤ (undirected g).edist start id ∧ (undirected g).edist start id ≤ maxDepth) ∧
      ids.Pairwise fun a b => (undirected g).edist start a ≤ (undirected g).edist start b := by
  obtain ⟨out, ends, distinct, ordered, exactly⟩ :=
    search_exact (nextTo_around indexed start) List.mem_cons_self maxDepth
      (around_length g start).le
  have depth : ∀ e ∈ out, (undirected g).edist start e.1 = e.2 := fun e listed =>
    (distance_iff indexed).mp ((exactly e.1 e.2).mp listed).1
  refine ⟨out.filterMap (entityOf g), idsOf g out, ?_, idsOf_entities g out, ?_, ?_, ?_, ?_⟩
  · intro fuel enough
    obtain ⟨entity, present⟩ := Option.isSome_iff_exists.mp held
    have run := neighboursFrom_eq (g := g) maxDepth fuel ⟨[start], [(start, 0)]⟩ []
    rw [search_more enough ends] at run
    simp only [findNeighbors, present]
    exact run
  · exact distinct.sublist (List.filter_sublist.map Prod.fst)
  · intro member
    obtain ⟨d, listed, deep, -⟩ := mem_idsOf.mp member
    have zero := depth (start, d) listed
    rw [SimpleGraph.edist_self] at zero
    have level : d = 0 := by exact_mod_cast zero.symm
    omega
  · intro id
    rw [mem_idsOf]
    constructor
    · rintro ⟨d, listed, deep, present⟩
      have distance := depth (id, d) listed
      have within := ((exactly id d).mp listed).2
      rw [distance]
      exact ⟨present, by exact_mod_cast deep, by exact_mod_cast within⟩
    · rintro ⟨present, positive, within⟩
      have finite : (undirected g).edist start id ≠ ⊤ := ne_top_of_le_ne_top (by simp) within
      obtain ⟨d, distance⟩ := ENat.ne_top_iff_exists.mp finite
      rw [← distance] at positive within
      have listed := (exactly id d).mpr
        ⟨(distance_iff indexed).mpr distance.symm, by exact_mod_cast within⟩
      exact ⟨d, listed, by exact_mod_cast positive, present⟩
  · refine List.pairwise_map.mpr ((ordered.filter _).imp_of_mem ?_)
    intro a b first second below
    rw [depth a (List.mem_of_mem_filter first), depth b (List.mem_of_mem_filter second)]
    exact_mod_cast below

/-- From an id without an entity nothing is found. -/
theorem neighbours_absent {start : String} (absent : g.entities start = none)
    (maxDepth fuel : Nat) : findNeighbors g start maxDepth fuel = some [] := by
  simp only [findNeighbors, absent]

def person (id : String) : Entity := ⟨id, .person, id, fun _ => none, 0⟩

/-- Three people in a circle, one of them also related to herself. -/
def circle : Graph :=
  after [.addEntity (person "ada"), .addEntity (person "bob"), .addEntity (person "cyd"),
    .addRelation ⟨"ada", "ada", .relatedTo, 0, 0⟩, .addRelation ⟨"ada", "bob", .relatedTo, 0, 0⟩,
    .addRelation ⟨"bob", "cyd", .relatedTo, 0, 0⟩, .addRelation ⟨"cyd", "ada", .relatedTo, 0, 0⟩]

theorem circle_neighbours : ∃ (found : List Entity) (ids : List String),
    findNeighbors circle "ada" 2 9 = some found ∧ ids.map circle.entities = found.map some ∧
      ids.Nodup ∧ "ada" ∉ ids ∧ found.map Entity.id = ["bob", "cyd"] := by
  have indexed : Indexed circle :=
    (Machine.final_invariant (fun g op h => step_keeps g op h) inMemory_keeps _).1
  obtain ⟨found, ids, run, entities, distinct, apart, -⟩ :=
    neighbours_exact circle indexed "ada" rfl 2
  have again := run 9 (by decide)
  refine ⟨found, ids, again, entities, distinct, apart, ?_⟩
  have listed : (findNeighbors circle "ada" 2 9).map (·.map Entity.id) = some ["bob", "cyd"] := rfl
  rw [again] at listed
  exact Option.some.inj listed

end KnowledgeGraph
