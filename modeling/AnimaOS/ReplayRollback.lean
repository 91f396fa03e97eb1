import AnimaOS.ReaderProvenance
import AnimaOS.SomaticSleep

/-!
# The replay rollback and the live memories

In one sleep cycle pruning takes nodes out of L1 and the rollback of the replay
phase inserts archived nodes by their source key. What pruning left is compared
with what the rollback writes over it.
-/

namespace SomaticSleep

open KeyedList L3Archive ArchiveReaders

def rolledBack (fl : FloatOps) (archive : Archive) (config : ReplayConfig) :
    List (String × MemoryNode) :=
  (runReplayValidation fl archive config).2.map fun r => (r.key, r.node)

/-- The cycle whose rollback is the replay validation of the archive it met. -/
def replayEnv (fl : FloatOps) (config : ReplayConfig) (env : SleepEnv) : SleepEnv :=
  { env with rollback := fun archive => rolledBack fl archive config }

/-- The entry misses its own query and decodes to a node under the key it came from. -/
def Fails (fl : FloatOps) (archive : Archive) (e : ArchivalEntry) (key : String)
    (node : MemoryNode) : Prop :=
  matched fl archive e = false ∧ decodeNodeFromPayload e.item.payload = some node ∧
    e.provenance.sourceKey = key

/-- Of the sampled entries of a key that fail, the one with the greatest id. -/
def LastFailed (fl : FloatOps) (archive : Archive) (config : ReplayConfig) (key : String)
    (node : MemoryNode) : Prop :=
  ∃ before e after, sampled archive config = before ++ e :: after ∧
    Fails fl archive e key node ∧ ∀ d ∈ after, ∀ other, ¬ Fails fl archive d key other

/-- When replay rolls back, what it has for a key that survives pruning is the live node itself. -/
def RollbackAgrees (fl : FloatOps) (config : ReplayConfig) (env : SleepEnv) (w : World) : Prop :=
  triggersRollback fl w.manager.l3Archive config = true →
    ∀ key node, (key, node) ∈ w.manager.l1Memory.nodes → env.survives node = true →
      ∀ archived, LastFailed fl w.manager.l3Archive config key archived → archived = node

/-- What a cycle may do to L1 besides pruning it. -/
structure LiveKept (fl : FloatOps) (config : ReplayConfig) (env : SleepEnv)
    (before after : World) : Prop where
  kept : ∀ key node, (key, node) ∈ before.manager.l1Memory.nodes → env.survives node = true →
    (key, node) ∈ after.manager.l1Memory.nodes
  brought : ∀ key node, key ∉ keys before.manager.l1Memory.nodes →
    (key, node) ∈ after.manager.l1Memory.nodes →
      (key, node) ∈ rolledBack fl before.manager.l3Archive config
  unreplaced : ∀ key archived, (key, archived) ∈ rolledBack fl before.manager.l3Archive config →
    ∀ node, (key, node) ∈ before.manager.l1Memory.nodes → env.survives node = true →
      ∀ found, (key, found) ∈ after.manager.l1Memory.nodes → found = node

/-! ## Re-insertion -/

section Reinsert

variable {l1 : L1PruningStore} {key : String} {node : MemoryNode}

theorem reinsert_append (l1 : L1PruningStore) (xs ys : List (String × MemoryNode)) :
    reinsert l1 (xs ++ ys) = reinsert (reinsert l1 xs) ys := by
  induction xs generalizing l1 with
  | nil => rfl
  | cons r rest ih => exact ih (l1.insert r.1 r.2)

theorem reinsert_absent {rs : List (String × MemoryNode)} (absent : key ∉ keys rs) :
    findKey Prod.fst (reinsert l1 rs).nodes key = findKey Prod.fst l1.nodes key := by
  induction rs generalizing l1 with
  | nil => rfl
  | cons r rest ih =>
    have apart : key ≠ r.1 := fun same => absent (same ▸ List.mem_cons_self)
    have later : key ∉ keys rest := fun found => absent (List.mem_cons_of_mem _ found)
    exact (ih later).trans (findKey_upsert_other Prod.fst apart l1.nodes)

/-- The last re-inserted node of a key is the one that stays. -/
theorem reinsert_last {before after : List (String × MemoryNode)} (last : key ∉ keys after) :
    findKey Prod.fst (reinsert l1 (before ++ (key, node) :: after)).nodes key =
      some (key, node) := by
  rw [reinsert_append]
  exact (reinsert_absent last).trans (findKey_upsert_self Prod.fst _ (key, node))

theorem mem_nodes : (key, node) ∈ l1.nodes ↔ findKey Prod.fst l1.nodes key = some (key, node) := by
  rw [findKey_iff Prod.fst l1.distinct]
  simp

end Reinsert

/-! ## One cycle -/

section Cycle

variable {mul : F32 → F32 → F32} {fl : FloatOps} {config : ReplayConfig} {env : SleepEnv}
  {w : World} {key : String} {node : MemoryNode}

theorem demoteEvicted_l1 (i : Nat) (w : World) (nodes : List (String × MemoryNode)) :
    (demoteEvicted mul env i w nodes).1.manager.l1Memory = w.manager.l1Memory := by
  induction nodes generalizing i w with
  | nil => rfl
  | cons e rest ih => exact ih (i + 1) (demoteOne mul env i w e.1 e.2).1

/-- Only pruning and the rollback touch L1. -/
theorem cycle_l1 :
    (runMaintenanceAndPostprocess mul (replayEnv fl config env) w).1.manager.l1Memory =
      reinsert (drainPruned env w.manager.l1Memory).1
        (rolledBack fl w.manager.l3Archive config) :=
  congrArg (reinsert · _) (demoteEvicted_l1 0 _ _)

theorem mem_drained : (key, node) ∈ (drainPruned env w.manager.l1Memory).1.nodes ↔
    (key, node) ∈ w.manager.l1Memory.nodes ∧ env.survives node = true :=
  List.mem_filter

/-! ## The last failing entry of a key -/

def failure (fl : FloatOps) (archive : Archive) (e : ArchivalEntry) :
    Option (String × MemoryNode) :=
  if matched fl archive e then none else (restore e).map fun r => (r.key, r.node)

theorem failure_eq_some {archive : Archive} {e : ArchivalEntry} :
    failure fl archive e = some (key, node) ↔ Fails fl archive e key node := by
  cases found : matched fl archive e with
  | true => simp [failure, Fails, found]
  | false => simp [failure, Fails, found, restore, and_comm]

theorem rolledBack_eq (triggers : triggersRollback fl w.manager.l3Archive config = true) :
    rolledBack fl w.manager.l3Archive config =
      (sampled w.manager.l3Archive config).filterMap (failure fl w.manager.l3Archive) := by
  have enabled : config.rollbackEnabled = true := by
    rw [triggersRollback, Bool.and_eq_true] at triggers
    exact triggers.1
  rw [rolledBack, rollback_nodes, if_pos triggers, failedEntries, List.map_filterMap]
  apply List.filterMap_congr
  intro e _
  cases found : matched fl w.manager.l3Archive e with
  | true => simp [failure, found]
  | false => simp [failure, found, enabled]

theorem last_split {α : Type} (p : α → Prop) (l : List α) :
    (∀ a ∈ l, ¬ p a) ∨
      ∃ before a after, l = before ++ a :: after ∧ p a ∧ ∀ b ∈ after, ¬ p b := by
  induction l with
  | nil => exact Or.inl fun _ found => absurd found List.not_mem_nil
  | cons a rest ih =>
    rcases ih with none | ⟨before, b, after, rfl, own, later⟩
    · by_cases own : p a
      · exact Or.inr ⟨[], a, rest, rfl, own, none⟩
      · left
        intro b found
        rcases List.mem_cons.mp found with rfl | found
        · exact own
        · exact none b found
    · exact Or.inr ⟨a :: before, b, after, rfl, own, later⟩

theorem last_unique {α : Type} {p : α → Prop} {before after before' after' : List α} {a b : α}
    (same : before ++ a :: after = before' ++ b :: after') (own : p b)
    (later : ∀ c ∈ after, ¬ p c) (shorter : before.length ≤ before'.length) : a = b := by
  obtain ⟨more, rfl⟩ : ∃ more, before' = before ++ more :=
    List.prefix_of_prefix_length_le ⟨_, same⟩ (List.prefix_append before' _) shorter
      |>.imp fun _ split => split.symm
  rw [List.append_assoc, List.append_cancel_left_eq] at same
  cases more with
  | nil => exact (List.cons.inj same).1
  | cons c more =>
    refine absurd own (later b ?_)
    rw [(List.cons.inj same).2]
    exact List.mem_append_right _ List.mem_cons_self

theorem failure_keys {archive : Archive} {l : List ArchivalEntry}
    (none : ∀ e ∈ l, ¬ ∃ node, Fails fl archive e key node) :
    key ∉ keys (l.filterMap (failure fl archive)) := by
  intro found
  obtain ⟨node, listed⟩ := mem_keys.mp found
  obtain ⟨e, member, own⟩ := List.mem_filterMap.mp listed
  exact none e member ⟨node, failure_eq_some.mp own⟩

/-- What a cycle leaves under a key: its last failing entry, or what pruning left. -/
theorem cycle_find (mul : F32 → F32 → F32) (env : SleepEnv) (w : World) (key : String) :
    (triggersRollback fl w.manager.l3Archive config = true ∧
      ∃ node, LastFailed fl w.manager.l3Archive config key node ∧
        (key, node) ∈ rolledBack fl w.manager.l3Archive config ∧
        (key, node) ∈
          (runMaintenanceAndPostprocess mul (replayEnv fl config env) w).1.manager.l1Memory.nodes) ∨
      ((triggersRollback fl w.manager.l3Archive config = true →
          ∀ node, ¬ LastFailed fl w.manager.l3Archive config key node) ∧
        findKey Prod.fst
            (runMaintenanceAndPostprocess mul (replayEnv fl config env) w).1.manager.l1Memory.nodes
            key =
          findKey Prod.fst (drainPruned env w.manager.l1Memory).1.nodes key) := by
  rw [cycle_l1]
  by_cases triggers : triggersRollback fl w.manager.l3Archive config = true
  · rcases last_split (fun e => ∃ node, Fails fl w.manager.l3Archive e key node)
      (sampled w.manager.l3Archive config) with none | ⟨before, e, after, split, ⟨node, own⟩, later⟩
    · right
      refine ⟨?_, ?_⟩
      · rintro - node ⟨before, e, after, split, own, -⟩
        exact none e (by rw [split]; simp) ⟨node, own⟩
      · rw [rolledBack_eq triggers]
        exact reinsert_absent (failure_keys none)
    · left
      have listed : rolledBack fl w.manager.l3Archive config =
          before.filterMap (failure fl w.manager.l3Archive) ++
            (key, node) :: after.filterMap (failure fl w.manager.l3Archive) := by
        rw [rolledBack_eq triggers, split, List.filterMap_append,
          List.filterMap_cons_some (failure_eq_some.mpr own)]
      refine ⟨triggers, node, ⟨before, e, after, split, own, ?_⟩, ?_, ?_⟩
      · exact fun d found other fails => later d found ⟨other, fails⟩
      · rw [listed]
        simp
      · rw [mem_nodes, listed]
        exact reinsert_last (failure_keys later)
  · right
    refine ⟨fun triggered => absurd triggered triggers, ?_⟩
    rw [rolledBack, rollback_nodes, if_neg triggers]
    rfl

theorem LastFailed.unique {archive : Archive} {other : MemoryNode}
    (h : LastFailed fl archive config key node) (h' : LastFailed fl archive config key other) :
    node = other := by
  obtain ⟨before, e, after, split, own, later⟩ := h
  obtain ⟨before', e', after', split', own', later'⟩ := h'
  have same : e = e' := by
    rcases Nat.le_total before.length before'.length with shorter | longer
    · exact last_unique (p := fun d => Fails fl archive d key other) (split.symm.trans split') own'
        (fun d found => later d found other) shorter
    · exact (last_unique (p := fun d => Fails fl archive d key node) (split'.symm.trans split) own
        (fun d found => later' d found node) longer).symm
  subst same
  exact Option.some.inj (own.2.1.symm.trans own'.2.1)

/-- A cycle leaves the live memories alone exactly when the rollback has nothing else for them. -/
theorem live_kept_iff (mul : F32 → F32 → F32) (fl : FloatOps) (config : ReplayConfig)
    (env : SleepEnv) (w : World) :
    LiveKept fl config env w (runMaintenanceAndPostprocess mul (replayEnv fl config env) w).1 ↔
      RollbackAgrees fl config env w := by
  constructor
  · intro live triggers key node bound survives archived last
    have stays := mem_nodes.mp (live.kept key node bound survives)
    rcases cycle_find mul env w key with ⟨-, written, own, -, found⟩ | ⟨none, -⟩
    · have same := stays.symm.trans (mem_nodes.mp found)
      cases Option.some.inj same
      exact last.unique own
    · exact absurd last (none triggers archived)
  · intro agrees
    have kept : ∀ key node, (key, node) ∈ w.manager.l1Memory.nodes → env.survives node = true →
        (key, node) ∈
          (runMaintenanceAndPostprocess mul (replayEnv fl config env) w).1.manager.l1Memory.nodes
        := by
      intro key node bound survives
      rcases cycle_find mul env w key with ⟨triggers, written, own, -, found⟩ | ⟨-, same⟩
      · cases agrees triggers key node bound survives written own
        exact found
      · rw [mem_nodes, same, ← mem_nodes]
        exact mem_drained.mpr ⟨bound, survives⟩
    refine ⟨kept, ?_, ?_⟩
    · intro key node absent found
      rcases cycle_find mul env w key with ⟨-, written, -, listed, written_found⟩ | ⟨-, same⟩
      · cases Option.some.inj ((mem_nodes.mp found).symm.trans (mem_nodes.mp written_found))
        exact listed
      · rw [mem_nodes, same, ← mem_nodes] at found
        exact absurd (keys_mem (mem_drained.mp found).1) absent
    · intro key archived _ node bound survives found found_there
      have own := mem_nodes.mp (kept key node bound survives)
      cases Option.some.inj ((mem_nodes.mp found_there).symm.trans own)
      rfl

end Cycle

/-! ## A live node replaced -/

def oldNode : MemoryNode := ⟨one, one, ⟨one, zero⟩, one, 0x40000000#32⟩

def newNode : MemoryNode := { oldNode with lambda := zero }

def twinEntry (id : Nat) (key : String) : ArchivalEntry :=
  ⟨archiveMemoryNode sampleOps.mul id key oldNode, ⟨.l1, key, 5⟩⟩

/-- Two keys archived with the same node: the second one misses its query. -/
def twins : Archive := ⟨4, 8, [twinEntry 0 "a", twinEntry 1 "k"], by decide⟩

/-- The second key was inserted again, with a node that is above the floor. -/
def twinWorld : World := ⟨⟨⟨[("k", newNode)], by decide⟩, 2, twins⟩, none⟩

def allSurvive : SleepEnv where
  survives _ := true
  order := List.reverse
  order_perm := List.reverse_perm
  clock _ := 0
  writes _ := true
  rollback _ := []

theorem twins_matched (e : ArchivalEntry) (dims : e.item.embedding.length = 4) :
    matched sampleOps twins e = decide (entryId (twinEntry 0 "a") = entryId e) := by
  have ranked : [(one, twinEntry 0 "a"), (one, twinEntry 1 "k")].Pairwise
      (fun a b => ranksBefore sampleOps a b = true) := by decide
  rw [matched, search_ranked dims Nat.one_ne_zero ranked]
  rfl

theorem twins_sampled : sampled twins defaultReplay = [twinEntry 0 "a", twinEntry 1 "k"] := by
  have ordered : [twinEntry 0 "a", twinEntry 1 "k"].Pairwise
      (fun a b => decide (entryId a ≤ entryId b) = true) := by decide
  exact sampled_ordered ordered

theorem live_node_replaced :
    ¬ LiveKept sampleOps defaultReplay allSurvive twinWorld
      (runMaintenanceAndPostprocess sampleOps.mul (replayEnv sampleOps defaultReplay allSurvive)
        twinWorld).1 := by
  intro live
  have found : matched sampleOps twins (twinEntry 0 "a") = true := by
    rw [twins_matched _ rfl]
    rfl
  have missed : matched sampleOps twins (twinEntry 1 "k") = false := by
    rw [twins_matched _ rfl]
    rfl
  have triggers : triggersRollback sampleOps twins defaultReplay = true := by
    rw [triggersRollback, accuracy, twins_sampled]
    simp only [List.countP_cons, found, missed]
    decide
  have last : LastFailed sampleOps twins defaultReplay "k" oldNode := by
    refine ⟨[twinEntry 0 "a"], twinEntry 1 "k", [], twins_sampled, ⟨missed, ?_, rfl⟩, by simp⟩
    exact decode_archived sampleOps.mul 1 "k" oldNode
  have stays := mem_nodes.mp (live.kept "k" newNode (by decide) rfl)
  rcases cycle_find sampleOps.mul allSurvive twinWorld "k" with
    ⟨-, written, own, -, replaced⟩ | ⟨none, -⟩
  · cases Option.some.inj (stays.symm.trans (mem_nodes.mp replaced))
    exact absurd (own.unique last) (by decide)
  · exact none triggers oldNode last

end SomaticSleep
