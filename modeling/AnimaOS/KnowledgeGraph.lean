import Mathlib.Data.List.Nodup
import AnimaOS.GroupedIndex
import AnimaOS.Machine

/-!
# The knowledge graph

Entities and the relations between them, with a forward and a backward
adjacency index that every operation on the relations updates by hand.
-/

namespace KnowledgeGraph

open GroupedIndex Machine

inductive EntityKind where
  | person
  | place
  | project
  | concept
  | technology
  | organization
  | custom (label : String)
  deriving DecidableEq, Repr

structure Entity where
  id : String
  kind : EntityKind
  displayName : String
  attributes : String → Option String
  createdAtNs : Nat

def Entity.setAttribute (e : Entity) (key value : String) : Entity × Option String :=
  ({ e with attributes := fun other => if other = key then some value else e.attributes other },
    e.attributes key)

inductive RelationKind where
  | worksAt
  | relatedTo
  | partOf
  | createdBy
  | dependsOn
  | collaborates
  | isA
  | custom (label : String)
  deriving DecidableEq, Repr

def RelationKind.toString : RelationKind → String
  | .worksAt => "works_at"
  | .relatedTo => "related_to"
  | .partOf => "part_of"
  | .createdBy => "created_by"
  | .dependsOn => "depends_on"
  | .collaborates => "collaborates"
  | .isA => "is_a"
  | .custom label => "custom:" ++ label

/-- A directed edge. The weight is a 32-bit float, kept here as its bits. -/
structure Relation where
  fromId : String
  toId : String
  kind : RelationKind
  weight : UInt32
  createdAtNs : Nat
  deriving DecidableEq, Repr

def Relation.triple (r : Relation) : String × String × RelationKind := (r.fromId, r.toId, r.kind)

inductive GraphError where
  | entityAlreadyExists (id : String)
  | entityNotFound (id : String)
  | relationAlreadyExists (fromId toId kind : String)
  deriving DecidableEq, Repr

structure Graph where
  entities : String → Option Entity
  adjacency : Index String String
  backAdjacency : Index String String
  relations : List Relation

def inMemory : Graph := ⟨fun _ => none, GroupedIndex.empty, GroupedIndex.empty, []⟩

/-- Enter a relation in both indexes. -/
def link (g : Graph) (r : Relation) : Graph :=
  { g with
    adjacency := push g.adjacency r.fromId r.toId
    backAdjacency := push g.backAdjacency r.toId r.fromId }

def rebuildAdjacency (g : Graph) : Graph :=
  g.relations.foldl link
    { g with adjacency := GroupedIndex.empty, backAdjacency := GroupedIndex.empty }

def addEntity (g : Graph) (entity : Entity) : Graph × Except GraphError Unit :=
  match g.entities entity.id with
  | some _ => (g, .error (.entityAlreadyExists entity.id))
  | none =>
    ({ g with
       entities := fun other => if other = entity.id then some entity else g.entities other },
      .ok ())

def removeEntity (g : Graph) (id : String) : Graph × Bool :=
  match g.entities id with
  | none => (g, false)
  | some _ =>
    (rebuildAdjacency { g with
       entities := fun other => if other = id then none else g.entities other
       relations := g.relations.filter fun r => r.fromId ≠ id ∧ r.toId ≠ id }, true)

/-- An attribute set through the mutable reference to an entity. -/
def setAttribute (g : Graph) (id key value : String) : Graph × Option (Option String) :=
  match g.entities id with
  | none => (g, none)
  | some entity =>
    let changed := entity.setAttribute key value
    ({ g with
       entities := fun other => if other = id then some changed.1 else g.entities other },
      some changed.2)

def addRelation (g : Graph) (relation : Relation) : Graph × Except GraphError Unit :=
  match g.entities relation.fromId with
  | none => (g, .error (.entityNotFound relation.fromId))
  | some _ =>
    match g.entities relation.toId with
    | none => (g, .error (.entityNotFound relation.toId))
    | some _ =>
      if g.relations.any fun r =>
          r.fromId = relation.fromId ∧ r.toId = relation.toId ∧ r.kind = relation.kind then
        (g, .error (.relationAlreadyExists relation.fromId relation.toId relation.kind.toString))
      else ({ link g relation with relations := g.relations ++ [relation] }, .ok ())

def removeRelation (g : Graph) (fromId toId : String) (kind : RelationKind) : Graph × Bool :=
  let kept := g.relations.filter fun r => ¬ (r.fromId = fromId ∧ r.toId = toId ∧ r.kind = kind)
  let removed := decide (kept.length < g.relations.length)
  let g := { g with relations := kept }
  (if removed then rebuildAdjacency g else g, removed)

inductive Op where
  | addEntity (entity : Entity)
  | removeEntity (id : String)
  | setAttribute (id key value : String)
  | addRelation (relation : Relation)
  | removeRelation (fromId toId : String) (kind : RelationKind)

inductive Reply where
  | added (answer : Except GraphError Unit)
  | removed (present : Bool)
  | attribute (previous : Option (Option String))

/-- An error, or the report that there was nothing to remove or to set. -/
def Reply.refused : Reply → Bool
  | .added (.ok ()) => false
  | .added (.error _) => true
  | .removed present => !present
  | .attribute previous => previous.isNone

def step (g : Graph) : Op → Graph × Reply
  | .addEntity entity =>
    let r := KnowledgeGraph.addEntity g entity
    (r.1, .added r.2)
  | .removeEntity id =>
    let r := KnowledgeGraph.removeEntity g id
    (r.1, .removed r.2)
  | .setAttribute id key value =>
    let r := KnowledgeGraph.setAttribute g id key value
    (r.1, .attribute r.2)
  | .addRelation relation =>
    let r := KnowledgeGraph.addRelation g relation
    (r.1, .added r.2)
  | .removeRelation fromId toId kind =>
    let r := KnowledgeGraph.removeRelation g fromId toId kind
    (r.1, .removed r.2)

def after (ops : List Op) : Graph := final step inMemory ops

/-! ## The indexes against the relation list -/

structure Indexed (g : Graph) : Prop where
  forward : g.adjacency = grouped Relation.fromId Relation.toId g.relations
  backward : g.backAdjacency = grouped Relation.toId Relation.fromId g.relations

/-- Both ends of every relation are entities, and no triple occurs twice. -/
structure Sound (g : Graph) : Prop where
  ends : ∀ r ∈ g.relations, (g.entities r.fromId).isSome ∧ (g.entities r.toId).isSome
  distinct : (g.relations.map Relation.triple).Nodup

theorem foldl_link (rs : List Relation) (g : Graph) :
    rs.foldl link g =
      { g with
        adjacency := rs.foldl (fun index r => push index r.fromId r.toId) g.adjacency
        backAdjacency := rs.foldl (fun index r => push index r.toId r.fromId) g.backAdjacency } := by
  induction rs generalizing g with
  | nil => rfl
  | cons r rest ih => exact ih (link g r)

theorem rebuild_eq (g : Graph) :
    rebuildAdjacency g =
      { g with
        adjacency := grouped Relation.fromId Relation.toId g.relations
        backAdjacency := grouped Relation.toId Relation.fromId g.relations } := by
  simp only [rebuildAdjacency, foldl_link, foldl_push]

theorem rebuild_indexed (g : Graph) : Indexed (rebuildAdjacency g) := by
  rw [rebuild_eq]
  constructor
  · rfl
  · rfl

theorem filter_distinct {rs : List Relation} (distinct : (rs.map Relation.triple).Nodup)
    (keep : Relation → Bool) : ((rs.filter keep).map Relation.triple).Nodup :=
  distinct.sublist (List.filter_sublist.map _)

/-- More entities do no harm to a sound graph. -/
theorem sound_of_entities {g g' : Graph} (h : Sound g) (same : g'.relations = g.relations)
    (more : ∀ id, (g.entities id).isSome → (g'.entities id).isSome) : Sound g' := by
  constructor
  · intro r listed
    rw [same] at listed
    exact ⟨more _ (h.ends r listed).1, more _ (h.ends r listed).2⟩
  · rw [same]
    exact h.distinct

theorem addEntity_keeps (g : Graph) (entity : Entity) (indexed : Indexed g) (sound : Sound g) :
    Indexed (addEntity g entity).1 ∧ Sound (addEntity g entity).1 := by
  simp only [addEntity]
  split
  · exact ⟨indexed, sound⟩
  · refine ⟨⟨indexed.forward, indexed.backward⟩, sound_of_entities sound rfl ?_⟩
    intro id held
    by_cases same : id = entity.id
    · simp [same]
    · simpa [same] using held

theorem setAttribute_keeps (g : Graph) (id key value : String) (indexed : Indexed g)
    (sound : Sound g) :
    Indexed (setAttribute g id key value).1 ∧ Sound (setAttribute g id key value).1 := by
  simp only [setAttribute]
  split
  · exact ⟨indexed, sound⟩
  · refine ⟨⟨indexed.forward, indexed.backward⟩, sound_of_entities sound rfl ?_⟩
    intro other held
    by_cases same : other = id
    · simp [same]
    · simpa [same] using held

/-- An entity leaves with every relation that touches it, loops and parallels included. -/
theorem removeEntity_keeps (g : Graph) (id : String) (indexed : Indexed g) (sound : Sound g) :
    Indexed (removeEntity g id).1 ∧ Sound (removeEntity g id).1 := by
  simp only [removeEntity]
  split
  · exact ⟨indexed, sound⟩
  · constructor
    · exact rebuild_indexed _
    · rw [rebuild_eq]
      constructor
      · intro r listed
        obtain ⟨listed, apart⟩ := List.mem_filter.mp listed
        obtain ⟨first, second⟩ := of_decide_eq_true apart
        simp only [if_neg first, if_neg second]
        exact sound.ends r listed
      · exact filter_distinct sound.distinct _

theorem addRelation_keeps (g : Graph) (relation : Relation) (indexed : Indexed g)
    (sound : Sound g) :
    Indexed (addRelation g relation).1 ∧ Sound (addRelation g relation).1 := by
  simp only [addRelation]
  split
  · exact ⟨indexed, sound⟩
  rename_i source found
  split
  · exact ⟨indexed, sound⟩
  rename_i target found'
  split
  · exact ⟨indexed, sound⟩
  rename_i fresh
  constructor
  · constructor
    · simp only [link, grouped_snoc, ← indexed.forward]
    · simp only [link, grouped_snoc, ← indexed.backward]
  · constructor
    · intro r listed
      rcases List.mem_append.mp listed with earlier | last
      · exact sound.ends r earlier
      · rw [List.mem_singleton.mp last]
        simp [link, found, found']
    · rw [List.map_append]
      apply List.nodup_append.mpr
      refine ⟨sound.distinct, List.nodup_singleton _, ?_⟩
      rintro triple listed _ new rfl
      obtain ⟨r, listed, same⟩ := List.mem_map.mp listed
      rw [List.mem_singleton.mp new] at same
      apply fresh
      apply List.any_eq_true.mpr
      refine ⟨r, listed, ?_⟩
      simpa [Relation.triple] using same

/-- A filter that does not shorten a list drops nothing. -/
theorem filter_whole {rs : List Relation} {keep : Relation → Bool}
    (long : rs.length ≤ (rs.filter keep).length) : rs.filter keep = rs :=
  List.filter_sublist.eq_of_length_le long

theorem removeRelation_keeps (g : Graph) (fromId toId : String) (kind : RelationKind)
    (indexed : Indexed g) (sound : Sound g) :
    Indexed (removeRelation g fromId toId kind).1 ∧
      Sound (removeRelation g fromId toId kind).1 := by
  simp only [removeRelation]
  split
  · constructor
    · exact rebuild_indexed _
    · rw [rebuild_eq]
      constructor
      · exact fun r listed => sound.ends r (List.mem_filter.mp listed).1
      · exact filter_distinct sound.distinct _
  · rename_i none
    rw [filter_whole (Nat.le_of_not_lt (none ∘ decide_eq_true))]
    exact ⟨⟨indexed.forward, indexed.backward⟩, ⟨sound.ends, sound.distinct⟩⟩

theorem step_keeps (g : Graph) (op : Op) (h : Indexed g ∧ Sound g) :
    Indexed (step g op).1 ∧ Sound (step g op).1 := by
  cases op with
  | addEntity entity => exact addEntity_keeps g entity h.1 h.2
  | removeEntity id => exact removeEntity_keeps g id h.1 h.2
  | setAttribute id key value => exact setAttribute_keeps g id key value h.1 h.2
  | addRelation relation => exact addRelation_keeps g relation h.1 h.2
  | removeRelation fromId toId kind => exact removeRelation_keeps g fromId toId kind h.1 h.2

theorem inMemory_keeps : Indexed inMemory ∧ Sound inMemory := by
  constructor
  · constructor
    · rfl
    · rfl
  · constructor
    · exact fun r listed => absurd listed List.not_mem_nil
    · exact List.nodup_nil

/-! ## A refused operation changes nothing -/

/-- An outcome that leaves the graph as it was when its reply refuses the request. -/
def Refusal {α : Type} (reply : α → Reply) (g : Graph) (outcome : Graph × α) : Prop :=
  (reply outcome.2).refused = true → outcome.1 = g

theorem addEntity_refusal (g : Graph) (entity : Entity) :
    Refusal .added g (addEntity g entity) := by
  simp only [addEntity]
  split
  · exact fun _ => rfl
  · rintro ⟨⟩

theorem removeEntity_refusal (g : Graph) (id : String) :
    Refusal .removed g (removeEntity g id) := by
  simp only [removeEntity]
  split
  · exact fun _ => rfl
  · rintro ⟨⟩

theorem setAttribute_refusal (g : Graph) (id key value : String) :
    Refusal .attribute g (setAttribute g id key value) := by
  simp only [setAttribute]
  split
  · exact fun _ => rfl
  · rintro ⟨⟩

theorem addRelation_refusal (g : Graph) (relation : Relation) :
    Refusal .added g (addRelation g relation) := by
  simp only [addRelation]
  split
  · exact fun _ => rfl
  split
  · exact fun _ => rfl
  split
  · exact fun _ => rfl
  · rintro ⟨⟩

/-- Where no relation is found the filter has kept the whole list. -/
theorem removeRelation_refusal (g : Graph) (fromId toId : String) (kind : RelationKind) :
    Refusal .removed g (removeRelation g fromId toId kind) := by
  intro refused
  simp only [removeRelation, Reply.refused, Bool.not_eq_true'] at refused ⊢
  rw [refused]
  have whole := filter_whole (Nat.le_of_not_lt (of_decide_eq_false refused))
  simp only [Bool.false_eq_true, if_false, whole]

theorem step_refused (g : Graph) (op : Op) (refused : (step g op).2.refused = true) :
    (step g op).1 = g := by
  cases op with
  | addEntity entity => exact addEntity_refusal g entity refused
  | removeEntity id => exact removeEntity_refusal g id refused
  | setAttribute id key value => exact setAttribute_refusal g id key value refused
  | addRelation relation => exact addRelation_refusal g relation refused
  | removeRelation fromId toId kind => exact removeRelation_refusal g fromId toId kind refused

/-- After every run the two adjacency indexes are those the relation list stands for, both ends
of every relation are entities and no triple is listed twice; and an operation that is refused
leaves the graph as it was. -/
theorem indexes_consistent (ops : List Op) :
    Indexed (after ops) ∧ Sound (after ops) ∧
      ∀ op, (step (after ops) op).2.refused = true → (step (after ops) op).1 = after ops := by
  have kept : Indexed (after ops) ∧ Sound (after ops) := by
    refine @final_invariant _ _ _ step (fun g => Indexed g ∧ Sound g) ?_ _ inMemory_keeps ops
    exact step_keeps
  obtain ⟨indexed, sound⟩ := kept
  exact ⟨indexed, sound, step_refused (after ops)⟩

end KnowledgeGraph
