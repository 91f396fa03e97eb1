import AnimaOS.SomaticSleep

/-!
# Evicted memories reach the archive or an error is reported

A stored entry stays retrievable through every later cycle and restart. What
can go wrong is a demotion under an id the archive already holds.
-/

namespace SomaticSleep

open FixedWidth KeyedList L3Archive Machine

/-- The ids the next `n` demotions take. -/
def assignedIds (next : Nat) : Nat → List Nat
  | 0 => []
  | n + 1 => next :: assignedIds (wrap 64 (next + 1)) n

/-- No demotion can meet its own id in the archive: nodes are refused for their dimension, or
the ids about to be assigned are unused. -/
def IdsUnused (a : Archive) (next n : Nat) : Prop :=
  a.expectedDim ≠ 4 ∨
    ((assignedIds next n).Nodup ∧ ∀ id ∈ assignedIds next n, id ∉ a.index.map entryId)

instance (a : Archive) (next n : Nat) : Decidable (IdsUnused a next n) :=
  inferInstanceAs (Decidable (_ ∨ (_ ∧ _)))

def evicted (env : SleepEnv) (w : World) : List (String × MemoryNode) :=
  w.manager.l1Memory.nodes.filter fun e => !env.survives e.2

/-- The condition on one operation and the state it meets. -/
def StepUnused (w : World) : Op → Prop
  | .sleep env =>
    IdsUnused w.manager.l3Archive w.manager.nextArchiveId (evicted env w).length
  | _ => True

instance (w : World) (op : Op) : Decidable (StepUnused w op) := by
  cases op <;> unfold StepUnused <;> infer_instance

/-- An entry that is in the index and in the file, so that a restart finds it again. -/
structure Durable (w : World) (e : ArchivalEntry) : Prop where
  indexed : e ∈ w.manager.l3Archive.index
  written : ∃ snapshot, w.disk = some snapshot ∧
    snapshot.expectedDim = w.manager.l3Archive.expectedDim ∧
    (snapshot.entries.map entryId).Nodup ∧ e ∈ snapshot.entries

/-- The demoted node is found under its id, with its content and its origin. -/
def Retrievable (mul : F32 → F32 → F32) (w : World) (d : Demotion) : Prop :=
  ∃ e, lookup w.manager.l3Archive d.id = some e ∧
    e.item = archiveMemoryNode mul d.id d.key d.node ∧
    e.provenance.sourceTier = .l1 ∧ e.provenance.sourceKey = d.key

variable {mul : F32 → F32 → F32}

/-! ## One demotion -/

theorem demoteOne_durable {env : SleepEnv} {i : Nat} {w : World} {key : String}
    {node : MemoryNode} {e : ArchivalEntry} (durable : Durable w e) :
    Durable (demoteOne mul env i w key node).1 e := by
  obtain ⟨indexed, snapshot, disk, dims, distinct, member⟩ := durable
  rcases demote_cases w.manager.l3Archive w.disk
      (archiveMemoryNode mul w.manager.nextArchiveId key node) ⟨.l1, key, env.clock i⟩
      (env.writes i) with ⟨same, sameDisk, -⟩ | ⟨sameDims, -, grown, outcome⟩
  · constructor
    · simpa [demoteOne, same] using indexed
    · exact ⟨snapshot, by simpa [demoteOne, sameDisk] using disk,
        by simpa [demoteOne, same] using dims, distinct, member⟩
  · have stays : e ∈ (demoteOne mul env i w key node).1.manager.l3Archive.index := by
      simp [demoteOne, grown, indexed]
    constructor
    · exact stays
    · rcases outcome with ⟨sameDisk, -⟩ | ⟨flushed, -⟩
      · exact ⟨snapshot, by simpa [demoteOne, sameDisk] using disk,
          by simpa [demoteOne, sameDims] using dims, distinct, member⟩
      · exact ⟨snapshotOf (demoteOne mul env i w key node).1.manager.l3Archive,
          by simpa [demoteOne] using flushed, rfl, Archive.distinct _, stays⟩

/-- With an unused id the demotion is stored for good or reported. -/
theorem demoteOne_unused (env : SleepEnv) (i : Nat) {w : World} (key : String)
    (node : MemoryNode) (unused : w.manager.l3Archive.expectedDim ≠ 4 ∨
      w.manager.nextArchiveId ∉ w.manager.l3Archive.index.map entryId) :
    let d := demoteOne mul env i w key node
    d.2.countedAsPresent = false ∧
      (d.2.reported = true ∨
        Durable d.1 ⟨archiveMemoryNode mul d.2.id d.2.key d.2.node, ⟨.l1, d.2.key, env.clock i⟩⟩) := by
  intro d
  rcases demote_cases w.manager.l3Archive w.disk
      (archiveMemoryNode mul w.manager.nextArchiveId key node) ⟨.l1, key, env.clock i⟩
      (env.writes i) with
    ⟨-, -, ⟨error, refused⟩ | ⟨-, dims, taken⟩⟩ | ⟨-, -, grown, ⟨-, refused⟩ | ⟨flushed, stored⟩⟩
  · simp [d, demoteOne, refused, Demotion.countedAsPresent, Demotion.reported]
  · -- a taken id of the right dimension is what the condition excludes
    rcases unused with mismatch | fresh
    · exact absurd dims.symm mismatch
    · exact absurd taken fresh
  · simp [d, demoteOne, refused, Demotion.countedAsPresent, Demotion.reported]
  · refine ⟨by simp [d, demoteOne, stored, Demotion.countedAsPresent], .inr ?_⟩
    have joined : (⟨archiveMemoryNode mul d.2.id d.2.key d.2.node,
        ⟨.l1, d.2.key, env.clock i⟩⟩ : ArchivalEntry) ∈ d.1.manager.l3Archive.index := by
      simp [d, demoteOne, grown]
    exact ⟨joined, snapshotOf d.1.manager.l3Archive, by simpa [d, demoteOne] using flushed, rfl,
      Archive.distinct _, joined⟩

/-- Ids that are unused before a demotion are unused by those after it. -/
theorem demoteOne_keeps_unused {env : SleepEnv} {i : Nat} {w : World} {key : String}
    {node : MemoryNode} {n : Nat}
    (unused : IdsUnused w.manager.l3Archive w.manager.nextArchiveId (n + 1)) :
    IdsUnused (demoteOne mul env i w key node).1.manager.l3Archive
      (demoteOne mul env i w key node).1.manager.nextArchiveId n := by
  rcases demote_cases w.manager.l3Archive w.disk
      (archiveMemoryNode mul w.manager.nextArchiveId key node) ⟨.l1, key, env.clock i⟩
      (env.writes i) with ⟨same, -, -⟩ | ⟨sameDims, -, grown, -⟩
  · rcases unused with mismatch | ⟨apart, fresh⟩
    · exact .inl (by simpa [demoteOne, same] using mismatch)
    · refine .inr ⟨(List.nodup_cons.mp apart).2, ?_⟩
      intro id later
      simpa [demoteOne, same] using fresh id (List.mem_cons_of_mem _ later)
  · rcases unused with mismatch | ⟨apart, fresh⟩
    · exact .inl (by simpa [demoteOne, sameDims] using mismatch)
    · obtain ⟨head, apart⟩ := List.nodup_cons.mp apart
      refine .inr ⟨apart, ?_⟩
      intro id later taken
      have old : id ∉ w.manager.l3Archive.index.map entryId :=
        fresh id (List.mem_cons_of_mem _ later)
      have new : id ≠ w.manager.nextArchiveId := by
        rintro rfl
        exact head later
      simp only [demoteOne, grown, List.map_append, List.mem_append, List.map_singleton,
        List.mem_singleton] at taken
      exact taken.elim old new

/-! ## One cycle -/

theorem demoteEvicted_durable {env : SleepEnv} {i : Nat} {w : World}
    {nodes : List (String × MemoryNode)} {e : ArchivalEntry} (durable : Durable w e) :
    Durable (demoteEvicted mul env i w nodes).1 e := by
  induction nodes generalizing i w with
  | nil => exact durable
  | cons node rest ih => exact ih (demoteOne_durable durable)

theorem demoteEvicted_nodes (env : SleepEnv) (i : Nat) (w : World)
    (nodes : List (String × MemoryNode)) :
    (demoteEvicted mul env i w nodes).2.map (fun d => (d.key, d.node)) = nodes := by
  induction nodes generalizing i w with
  | nil => rfl
  | cons node rest ih => exact congrArg (node :: ·) (ih _ _)

/-- A demotion that was reported, or whose entry is durable in the state given. -/
def Settled (mul : F32 → F32 → F32) (w : World) (d : Demotion) : Prop :=
  d.reported = true ∨
    ∃ t, Durable w ⟨archiveMemoryNode mul d.id d.key d.node, ⟨.l1, d.key, t⟩⟩

theorem demoteEvicted_settled {env : SleepEnv} {i : Nat} {w : World}
    {nodes : List (String × MemoryNode)}
    (unused : IdsUnused w.manager.l3Archive w.manager.nextArchiveId nodes.length) :
    ∀ d ∈ (demoteEvicted mul env i w nodes).2, d.countedAsPresent = false ∧
      Settled mul (demoteEvicted mul env i w nodes).1 d := by
  induction nodes generalizing i w with
  | nil => simp [demoteEvicted]
  | cons node rest ih =>
    rintro d (_ | ⟨_, later⟩)
    · have own : w.manager.l3Archive.expectedDim ≠ 4 ∨
          w.manager.nextArchiveId ∉ w.manager.l3Archive.index.map entryId :=
        unused.imp_right fun h => h.2 _ List.mem_cons_self
      obtain ⟨fresh, reported | durable⟩ := @demoteOne_unused mul env i w node.1 node.2 own
      · exact ⟨fresh, .inl reported⟩
      · have kept := @demoteEvicted_durable mul env (i + 1) _ rest _ durable
        exact ⟨fresh, .inr ⟨_, kept⟩⟩
    · exact ih (demoteOne_keeps_unused unused) d later

theorem setL1_durable {w : World} {e : ArchivalEntry} (durable : Durable w e)
    (l1 : L1PruningStore) : Durable (setL1 w l1) e :=
  ⟨durable.indexed, durable.written⟩

/-- Every node a cycle removes has its demotion, and that one is settled when it ends. -/
theorem sleep_settled {env : SleepEnv} {w : World} (unused : StepUnused w (.sleep env)) :
    (∀ key node, (key, node) ∈ evicted env w →
      ∃ d ∈ (step mul w (.sleep env)).2, d.key = key ∧ d.node = node) ∧
    ∀ d ∈ (step mul w (.sleep env)).2, d.countedAsPresent = false ∧
      Settled mul (step mul w (.sleep env)).1 d := by
  constructor
  · intro key node removed
    have listed : (key, node) ∈ (drainPruned env w.manager.l1Memory).2 :=
      (env.order_perm _).mem_iff.mpr removed
    have all := @demoteEvicted_nodes mul env 0 (setL1 w (drainPruned env w.manager.l1Memory).1)
      (drainPruned env w.manager.l1Memory).2
    rw [← all] at listed
    obtain ⟨d, member, same⟩ := List.mem_map.mp listed
    exact ⟨d, member, congrArg Prod.fst same, congrArg Prod.snd same⟩
  · intro d member
    have counted : (drainPruned env w.manager.l1Memory).2.length = (evicted env w).length :=
      (env.order_perm _).length_eq
    have whole : IdsUnused (setL1 w (drainPruned env w.manager.l1Memory).1).manager.l3Archive
        (setL1 w (drainPruned env w.manager.l1Memory).1).manager.nextArchiveId
        (drainPruned env w.manager.l1Memory).2.length := by
      rw [counted]
      exact unused
    obtain ⟨fresh, settled⟩ := demoteEvicted_settled whole d member
    refine ⟨fresh, settled.imp_right ?_⟩
    rintro ⟨t, durable⟩
    exact ⟨t, setL1_durable durable _⟩

/-! ## Runs -/

theorem restart_durable {w : World} {e : ArchivalEntry} (durable : Durable w e) (capacity : Nat) :
    Durable (restart w capacity) e := by
  obtain ⟨-, snapshot, disk, dims, distinct, member⟩ := durable
  obtain ⟨a, opened, sameDims, index⟩ := open_snapshot dims distinct capacity
  have reopened : restart w capacity = ⟨.new a, w.disk⟩ := by
    simp only [restart, disk, opened]
  rw [reopened]
  constructor
  · simp only [LifecycleManager.new, index]
    exact member
  · exact ⟨snapshot, disk, dims.trans sameDims.symm, distinct, member⟩

theorem step_durable {e : ArchivalEntry} (w : World) (op : Op) (durable : Durable w e) :
    Durable (step mul w op).1 e := by
  cases op with
  | insert key node => exact setL1_durable durable _
  | sleep env => exact setL1_durable (demoteEvicted_durable (setL1_durable durable _)) _
  | restart capacity => exact restart_durable durable capacity

theorem durable_retrievable {w : World} {d : Demotion} {t : Nat}
    (durable : Durable w ⟨archiveMemoryNode mul d.id d.key d.node, ⟨.l1, d.key, t⟩⟩) :
    Retrievable mul w d :=
  ⟨_, (lookup_iff w.manager.l3Archive d.id _).mpr ⟨durable.indexed, rfl⟩, rfl, rfl, rfl⟩

/-- In a run whose cycles assign unused ids, every removed node stays retrievable under the id
it was demoted with, or its demotion was reported, and no demotion counts as already present. -/
theorem evicted_nodes_kept_or_reported (mul : F32 → F32 → F32) (w : World) (ops : List Op)
    (unused : ∀ c ∈ trace (step mul) w ops, StepUnused c.before c.request) :
    ∀ c ∈ trace (step mul) w ops, ∀ env, c.request = .sleep env →
      (∀ key node, (key, node) ∈ evicted env c.before →
        ∃ d ∈ c.response, d.key = key ∧ d.node = node ∧
          (d.reported = true ∨ Retrievable mul (final (step mul) w ops) d)) ∧
      ∀ d ∈ c.response, d.countedAsPresent = false := by
  intro c member env request
  have clear := unused c member
  rw [request] at clear
  obtain ⟨pre, post, split, before, response⟩ := mem_trace member
  rw [request] at split response
  obtain ⟨demoted, settled⟩ := @sleep_settled mul env c.before clear
  rw [← response] at demoted settled
  have after : final (step mul) w ops =
      final (step mul) (step mul c.before (.sleep env)).1 post := by
    simp only [split, final_append, before]
    rfl
  constructor
  · intro key node removed
    obtain ⟨d, listed, rfl, rfl⟩ := demoted key node removed
    refine ⟨d, listed, rfl, rfl, (settled d listed).2.imp_right ?_⟩
    rintro ⟨t, durable⟩
    rw [after]
    exact durable_retrievable (final_invariant (fun s op => step_durable s op) durable post)
  · exact fun d listed => (settled d listed).1

/-- A cycle in which every node has decayed. -/
def decayAll : SleepEnv where
  survives := fun _ => false
  order := id
  order_perm := fun nodes => List.Perm.refl nodes
  clock := fun i => i
  writes := fun _ => true
  rollback := fun _ => []

/-- Activation 0.9, decay rate 20.0, no emotion, default weights. -/
def fastNode : MemoryNode := ⟨0x3f666666, 0x41a00000, ⟨0, 0⟩, 0x3fc00000, 0x40000000⟩

def fresh : World := ⟨.new ⟨4, 100, [], List.nodup_nil⟩, none⟩

/-- The product of a weight with a zero emotion. -/
def zeroProduct (_ _ : F32) : F32 := 0

theorem evicted_nodes_kept_or_reported_two :
    let ops := [.insert "a" fastNode, .insert "b" fastNode, .sleep decayAll, .restart 100]
    ∀ c ∈ trace (step zeroProduct) fresh ops, ∀ env, c.request = .sleep env →
      (∀ key node, (key, node) ∈ evicted env c.before →
        ∃ d ∈ c.response, d.key = key ∧ d.node = node ∧
          (d.reported = true ∨
            Retrievable zeroProduct (final (step zeroProduct) fresh ops) d)) ∧
      ∀ d ∈ c.response, d.countedAsPresent = false :=
  evicted_nodes_kept_or_reported zeroProduct fresh _ (by decide)

/-- A restart forgets the id counter: the next evicted node meets id 0, is counted as present and
is neither in L1 nor in the archive afterwards. -/
theorem restart_loses_evicted_node :
    let ops := [.insert "a" fastNode, .sleep decayAll, .restart 100,
      .insert "b" { fastNode with lambda := 0x42000000 }]
    let before := final (step zeroProduct) fresh ops
    let slept := step zeroProduct before (.sleep decayAll)
    ("b", { fastNode with lambda := 0x42000000 }) ∈ evicted decayAll before ∧
    slept.2.map (fun d => (d.id, d.key, d.reported, d.countedAsPresent)) =
      [(0, "b", false, true)] ∧
    slept.1.manager.l1Memory.nodes = [] ∧
    slept.1.manager.l3Archive.index.map (fun e => e.provenance.sourceKey) = ["a"] ∧
    lookup slept.1.manager.l3Archive 0 =
      some ⟨archiveMemoryNode zeroProduct 0 "a" fastNode, ⟨.l1, "a", 0⟩⟩ := by
  decide

end SomaticSleep
