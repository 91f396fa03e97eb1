import AnimaOS.FixedWidth
import AnimaOS.Mlfq

/-!
# Prospective memory

The store of future intentions and the scan that turns the due ones into tasks.
The file is the list of records `flush` writes, one line each; the ids in it are
distinct, as the store assigns them. Nanoseconds saturate at 64 bits.
-/

namespace Prospective

open FixedWidth Mlfq

universe u

structure Intention where
  id : Nat
  description : String
  dueAtNs : Nat
  repeatIntervalNs : Option Nat
  createdAtNs : Nat
  dispatched : Bool
  deriving DecidableEq, Repr

def Intention.once (id : Nat) (description : String) (dueAtNs nowNs : Nat) : Intention :=
  ⟨id, description, dueAtNs, none, nowNs, false⟩

def Intention.recurring (id : Nat) (description : String) (dueAtNs intervalNs nowNs : Nat) :
    Intention :=
  ⟨id, description, dueAtNs, some intervalNs, nowNs, false⟩

def Intention.isDue (i : Intention) (nowNs : Nat) : Bool := !i.dispatched && i.dueAtNs ≤ nowNs

def Intention.overdueNs (i : Intention) (nowNs : Nat) : Nat := nowNs - i.dueAtNs

def ids (intentions : List Intention) : List Nat := intentions.map Intention.id

structure IntentionFile where
  intentions : List Intention
  distinct : (ids intentions).Nodup
  deriving DecidableEq, Repr

structure IntentionStore where
  intentions : List Intention
  nextId : Nat
  distinct : (ids intentions).Nodup
  fresh : ∀ id ∈ ids intentions, id < nextId
  deriving DecidableEq, Repr

inductive IntentionStoreError where
  | io (message : String)
  | corrupt (message : String)
  deriving DecidableEq, Repr

inductive CompletionOutcome where
  | removed
  | rescheduled (newDueAtNs : Nat)
  | notFound
  deriving DecidableEq, Repr

/-- The store in memory and the file behind its path. -/
structure Kept where
  store : IntentionStore
  file : Option IntentionFile
  deriving DecidableEq, Repr

/-- The agenda is lost on a restart, so a loaded intention is no longer dispatched. -/
def resetDispatched (i : Intention) : Intention := { i with dispatched := false }

theorem ids_reset (intentions : List Intention) :
    ids (intentions.map resetDispatched) = ids intentions := by
  simp [ids, resetDispatched, Function.comp_def]

def nextAfter (nextId : Nat) (i : Intention) : Nat := if i.id ≥ nextId then i.id + 1 else nextId

theorem nextAfter_above (intentions : List Intention) (nextId : Nat) :
    nextId ≤ intentions.foldl nextAfter nextId ∧
      ∀ id ∈ ids intentions, id < intentions.foldl nextAfter nextId := by
  induction intentions generalizing nextId with
  | nil => simp [ids]
  | cons i rest ih =>
    obtain ⟨above, later⟩ := ih (nextAfter nextId i)
    have own : nextId ≤ nextAfter nextId i ∧ i.id < nextAfter nextId i := by
      simp only [nextAfter]
      split <;> omega
    simp only [List.foldl_cons]
    refine ⟨by omega, ?_⟩
    intro id found
    rcases List.mem_cons.mp found with rfl | found
    · omega
    · exact later id found

def loaded (file : Option IntentionFile) : List Intention :=
  match file with
  | some file => file.intentions
  | none => []

theorem loaded_distinct (file : Option IntentionFile) : (ids (loaded file)).Nodup := by
  cases file with
  | none => exact List.nodup_nil
  | some file => exact file.distinct

/-- `IntentionStore::open`. -/
def openStore (file : Option IntentionFile) : IntentionStore where
  intentions := (loaded file).map resetDispatched
  nextId := (loaded file).foldl nextAfter 0
  distinct := by
    rw [ids_reset]
    exact loaded_distinct file
  fresh := by
    rw [ids_reset]
    exact (nextAfter_above (loaded file) 0).2

/-- `io` is what the file system answers to the write and the rename. -/
def flush (k : Kept) (io : Except String Unit) : Kept × Except IntentionStoreError Unit :=
  match io with
  | .ok () => ({ k with file := some ⟨k.store.intentions, k.store.distinct⟩ }, .ok ())
  | .error e => (k, .error (.io e))

def IntentionStore.pushNew (s : IntentionStore) (i : Intention) (own : i.id = s.nextId) :
    IntentionStore where
  intentions := s.intentions ++ [i]
  nextId := s.nextId + 1
  distinct := by
    simp only [ids, List.map_append, List.map_singleton]
    refine List.nodup_append.mpr ⟨s.distinct, List.nodup_singleton _, ?_⟩
    intro a ha b hb
    have below := s.fresh a ha
    rw [List.mem_singleton.mp hb]
    omega
  fresh := by
    intro id found
    simp only [ids, List.map_append, List.map_singleton, List.mem_append,
      List.mem_singleton] at found
    rcases found with found | rfl
    · have below := s.fresh id found
      omega
    · omega

def addOnce (k : Kept) (description : String) (dueAtNs nowNs : Nat) (io : Except String Unit) :
    Kept × Except IntentionStoreError Nat :=
  let id := k.store.nextId
  let flushed := flush
    { k with store := k.store.pushNew (Intention.once id description dueAtNs nowNs) rfl } io
  (flushed.1, flushed.2.map fun _ => id)

def addRecurring (k : Kept) (description : String) (dueAtNs intervalNs nowNs : Nat)
    (io : Except String Unit) : Kept × Except IntentionStoreError Nat :=
  if intervalNs = 0 then
    (k, .error (.corrupt "recurring interval must be greater than zero"))
  else
    let id := k.store.nextId
    let flushed := flush
      { k with
        store := k.store.pushNew (Intention.recurring id description dueAtNs intervalNs nowNs)
          rfl } io
    (flushed.1, flushed.2.map fun _ => id)

/-- A store that keeps some of the records, each under its id. -/
def IntentionStore.restrict (s : IntentionStore) (intentions : List Intention)
    (part : (ids intentions).Sublist (ids s.intentions)) : IntentionStore where
  intentions := intentions
  nextId := s.nextId
  distinct := s.distinct.sublist part
  fresh := fun id found => s.fresh id (part.subset found)

def remove (k : Kept) (id : Nat) (io : Except String Unit) :
    Kept × Except IntentionStoreError Bool :=
  let store := k.store.restrict (k.store.intentions.filter fun i => i.id ≠ id)
    (List.filter_sublist.map Intention.id)
  if store.intentions.length < k.store.intentions.length then
    let flushed := flush { k with store := store } io
    (flushed.1, flushed.2.map fun _ => true)
  else ({ k with store := store }, .ok false)

/-- The first due time after `nowNs` when intervals were missed, else the next one. -/
def nextDue (dueAtNs intervalNs nowNs : Nat) : Nat :=
  let next := satAdd 64 dueAtNs intervalNs
  if next < nowNs then
    satAdd 64 next (satMul 64 ((nowNs - next) / intervalNs + 1) intervalNs)
  else next

/-- Rewrite the first record under an id. -/
def updateFirst (id : Nat) (f : Intention → Intention) : List Intention → List Intention
  | [] => []
  | i :: rest => if i.id = id then f i :: rest else i :: updateFirst id f rest

theorem ids_updateFirst (id : Nat) {f : Intention → Intention} (keeps : ∀ i, (f i).id = i.id)
    (intentions : List Intention) : ids (updateFirst id f intentions) = ids intentions := by
  induction intentions with
  | nil => rfl
  | cons i rest ih =>
    simp only [updateFirst]
    split
    · simp [ids, keeps]
    · simpa [ids] using ih

def IntentionStore.update (s : IntentionStore) (id : Nat) (f : Intention → Intention)
    (keeps : ∀ i, (f i).id = i.id) : IntentionStore :=
  s.restrict (updateFirst id f s.intentions) (by rw [ids_updateFirst id keeps])

def reschedule (newDueAtNs : Nat) (i : Intention) : Intention :=
  { i with dueAtNs := newDueAtNs, dispatched := false }

def complete (k : Kept) (id nowNs : Nat) (io : Except String Unit) :
    Kept × Except IntentionStoreError CompletionOutcome :=
  match k.store.intentions.find? fun i => i.id = id with
  | none => (k, .ok .notFound)
  | some i =>
    match i.repeatIntervalNs with
    | some interval =>
      if interval = 0 then (k, .error (.corrupt "recurring interval cannot be zero"))
      else
        let newDue := nextDue i.dueAtNs interval nowNs
        let flushed := flush
          { k with store := k.store.update id (reschedule newDue) fun _ => rfl } io
        (flushed.1, flushed.2.map fun _ => .rescheduled newDue)
    | none =>
      let store := k.store.restrict (k.store.intentions.eraseP fun i => i.id = id)
        (List.eraseP_sublist.map Intention.id)
      let flushed := flush { k with store := store } io
      (flushed.1, flushed.2.map fun _ => .removed)

/-! ## The scan of the loop -/

def setDispatched (i : Intention) : Intention := { i with dispatched := true }

variable {G : Type u}

def intentionTask (stamp : Intention → G) (nowNs overdueGraceNs : Nat) (i : Intention) :
    Mlfq.Task G :=
  ⟨i.id, if i.overdueNs nowNs > overdueGraceNs then 2 else 0, i.description, some 2048, stamp i⟩

/-- The due intentions were collected before the first of them is marked. -/
def injectEach (stamp : Intention → G) (nowNs overdueGraceNs : Nat) (s : IntentionStore)
    (agenda : TaskAgenda G) : List Intention → IntentionStore × TaskAgenda G
  | [] => (s, agenda)
  | i :: rest =>
    injectEach stamp nowNs overdueGraceNs (s.update i.id setDispatched fun _ => rfl)
      (push agenda (intentionTask stamp nowNs overdueGraceNs i)) rest

def injectDueIntentions (stamp : Intention → G) (k : Kept) (agenda : TaskAgenda G)
    (nowNs overdueGraceNs : Nat) (io : Except String Unit) :
    Kept × TaskAgenda G × Except IntentionStoreError Nat :=
  let due := k.store.intentions.filter fun i => i.isDue nowNs
  if due.isEmpty then (k, agenda, .ok 0)
  else
    let injected := injectEach stamp nowNs overdueGraceNs k.store agenda due
    let flushed := flush { k with store := injected.1 } io
    (flushed.1, injected.2, flushed.2.map fun _ => due.length)

end Prospective
