import AnimaOS.FixedWidth
import AnimaOS.L3Archive
import AnimaOS.Machine

/-!
# Sleep cycles and restarts of the somatic loop

The part of the loop's state that the sleep cycle moves memories through, with
an archive configured. What a cycle takes from outside (decayed activations,
hash-map order, clock, file system, replay) is its `SleepEnv`.
-/

namespace SomaticSleep

open FixedWidth KeyedList L3Archive

structure L1PruningStore where
  nodes : List (String × MemoryNode)
  distinct : (nodes.map Prod.fst).Nodup
  deriving DecidableEq, Repr

def L1PruningStore.new : L1PruningStore := ⟨[], List.nodup_nil⟩

def L1PruningStore.insert (l1 : L1PruningStore) (key : String) (node : MemoryNode) :
    L1PruningStore where
  nodes := upsert Prod.fst l1.nodes (key, node)
  distinct := upsert_distinct Prod.fst l1.distinct (key, node)

structure SleepEnv where
  /-- Whether the node's activation is above the enforced floor. -/
  survives : MemoryNode → Bool
  /-- The order in which the map hands out its evicted entries. -/
  order : List (String × MemoryNode) → List (String × MemoryNode)
  order_perm : ∀ nodes, (order nodes).Perm nodes
  /-- Clock reading and success of the flush for each demotion of the cycle. -/
  clock : Nat → Nat
  writes : Nat → Bool
  /-- The nodes the replay phase rolls back from the archive it saw. -/
  rollback : Archive → List (String × MemoryNode)

/-- `drain_pruned_with`: the store that is left and the evicted entries. -/
def drainPruned (env : SleepEnv) (l1 : L1PruningStore) :
    L1PruningStore × List (String × MemoryNode) :=
  (⟨l1.nodes.filter fun e => env.survives e.2,
      l1.distinct.sublist (List.filter_sublist.map Prod.fst)⟩,
    env.order (l1.nodes.filter fun e => !env.survives e.2))

structure LifecycleManager where
  l1Memory : L1PruningStore
  nextArchiveId : Nat
  l3Archive : Archive
  deriving DecidableEq, Repr

def LifecycleManager.new (archive : Archive) : LifecycleManager := ⟨L1PruningStore.new, 0, archive⟩

/-- The running loop and the archive file. -/
structure World where
  manager : LifecycleManager
  disk : Option ArchiveSnapshot
  deriving DecidableEq, Repr

/-- One iteration of the demotion loop; only an `Err` result is reported. -/
structure Demotion where
  id : Nat
  key : String
  node : MemoryNode
  result : Except L3ArchiveError DemotionOutcome

def Demotion.reported (d : Demotion) : Bool :=
  match d.result with
  | .error _ => true
  | .ok _ => false

def Demotion.countedAsPresent (d : Demotion) : Bool :=
  match d.result with
  | .ok .alreadyPresent => true
  | _ => false

section

variable (mul : F32 → F32 → F32)

def demoteOne (env : SleepEnv) (i : Nat) (w : World) (key : String) (node : MemoryNode) :
    World × Demotion :=
  let id := w.manager.nextArchiveId
  let d := demote w.manager.l3Archive w.disk (archiveMemoryNode mul id key node)
    ⟨.l1, key, env.clock i⟩ (env.writes i)
  (⟨{ w.manager with nextArchiveId := wrap 64 (id + 1), l3Archive := d.archive }, d.disk⟩,
    ⟨id, key, node, d.result⟩)

def demoteEvicted (env : SleepEnv) (i : Nat) (w : World) :
    List (String × MemoryNode) → World × List Demotion
  | [] => (w, [])
  | (key, node) :: rest =>
    let first := demoteOne mul env i w key node
    let others := demoteEvicted env (i + 1) first.1 rest
    (others.1, first.2 :: others.2)

def reinsert (l1 : L1PruningStore) : List (String × MemoryNode) → L1PruningStore
  | [] => l1
  | (key, node) :: rest => reinsert (l1.insert key node) rest

def setL1 (w : World) (l1 : L1PruningStore) : World :=
  { w with manager := { w.manager with l1Memory := l1 } }

/-- Pruning and replay run before the evicted nodes are demoted; the rollback comes last. -/
def runMaintenanceAndPostprocess (env : SleepEnv) (w : World) : World × List Demotion :=
  let pruned := drainPruned env w.manager.l1Memory
  let rollback := env.rollback w.manager.l3Archive
  let demoted := demoteEvicted mul env 0 (setL1 w pruned.1) pruned.2
  (setL1 demoted.1 (reinsert demoted.1.manager.l1Memory rollback), demoted.2)

/-- A restart rebuilds the loop over the file; where the file is refused there is none. What the
file holds is kept as it was written. -/
def restart (w : World) (capacity : Nat) : World :=
  match openArchive some w.disk w.manager.l3Archive.expectedDim capacity with
  | .ok archive => ⟨.new archive, w.disk⟩
  | .error _ => w

inductive Op where
  | insert (key : String) (node : MemoryNode)
  | sleep (env : SleepEnv)
  | restart (capacity : Nat)

def step (w : World) : Op → World × List Demotion
  | .insert key node => (setL1 w (w.manager.l1Memory.insert key node), [])
  | .sleep env => runMaintenanceAndPostprocess mul env w
  | .restart capacity => (SomaticSleep.restart w capacity, [])

end

end SomaticSleep
