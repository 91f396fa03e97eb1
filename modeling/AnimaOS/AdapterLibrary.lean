import AnimaOS.KeyedMap
import AnimaOS.Machine

/-!
# The adapter library

Adapters with their provenance, what is mounted where, and the two clearances
that an adapter needs before it is served.
-/

namespace AdapterLibrary

inductive HraKind where
  | hyperAdapt
  | ohora
  | hira
  | boha
  | hrp
  deriving DecidableEq, Repr

def HraKind.asStr : HraKind → String
  | .hyperAdapt => "hyperadapt"
  | .ohora => "ohora"
  | .hira => "hira"
  | .boha => "boha"
  | .hrp => "hrp"

inductive AdaptationMethod where
  | lora (rank alpha : Nat)
  | qLora (rank alpha baseBits : Nat)
  | hra (family : HraKind) (rank : Nat)
  | fullFineTune
  deriving DecidableEq, Repr

namespace AdaptationMethod

def label : AdaptationMethod → String
  | .lora _ _ => "lora"
  | .qLora _ _ _ => "qlora"
  | .hra family _ => "hra:" ++ family.asStr
  | .fullFineTune => "full"

def rank : AdaptationMethod → Option Nat
  | .lora rank _ => some rank
  | .qLora rank _ _ => some rank
  | .hra _ rank => some rank
  | .fullFineTune => none

end AdaptationMethod

inductive ServingTier where
  | mountableAdapter
  | bakedVariant
  deriving DecidableEq, Repr

structure Provenance where
  baseModel : String
  method : AdaptationMethod
  sourceJob : String
  createdAtNs : Nat
  deriving DecidableEq, Repr

structure AdapterArtifact where
  adapterId : String
  servingTier : ServingTier
  weightsDigest : String
  provenance : Provenance
  deriving DecidableEq, Repr

def AdapterArtifact.isMountable (a : AdapterArtifact) : Bool := a.servingTier = .mountableAdapter

structure AdoptionDecision where
  adapterId : String
  weightsDigest : String
  approved : Bool
  deriving DecidableEq, Repr

structure MountId where
  tier : String
  model : String
  deriving DecidableEq, Repr

inductive EvictionPolicy where
  | oldestFirst
  | rejectWhenFull
  deriving DecidableEq, Repr

inductive MountError where
  | unknownAdapter (adapterId : String)
  | notMountable (adapterId : String)
  | capacityExceeded (capacity : Nat)
  | notMounted (mountId : MountId)
  | notAdopted (adapterId : String)
  | notOperatorApproved (adapterId : String)
  deriving DecidableEq, Repr

def MountError.message : MountError → String
  | .unknownAdapter adapterId => "no adapter registered with id `" ++ adapterId ++ "`"
  | .notMountable adapterId =>
    "adapter `" ++ adapterId ++ "` is a baked variant and cannot be hot-mounted"
  | .capacityExceeded capacity =>
    "adapter library at capacity (" ++ toString capacity ++ "); cannot register"
  | .notMounted mountId =>
    "nothing mounted at tier `" ++ mountId.tier ++ "` / model `" ++
      mountId.model ++ "`"
  | .notAdopted adapterId =>
    "adapter `" ++ adapterId ++
      "` has not passed the adoption gate (eval + alignment)"
  | .notOperatorApproved adapterId =>
    "adapter `" ++ adapterId ++ "` has not received operator sign-off (E15 approval)"

structure Library where
  capacity : Nat
  policy : EvictionPolicy
  adapters : KeyedMap String AdapterArtifact
  mounts : KeyedMap MountId String
  adopted : KeyedMap String String
  operatorApproved : KeyedMap String String
  deriving DecidableEq, Repr

def withPolicy (capacity : Nat) (policy : EvictionPolicy) : Library :=
  ⟨max capacity 1, policy, .empty, .empty, .empty, .empty⟩

/-- Both clearances of an id go, and so does whatever is mounted of it. -/
def withdraw (lib : Library) (adapterId : String) : Library :=
  { lib with
    adopted := lib.adopted.remove adapterId
    operatorApproved := lib.operatorApproved.remove adapterId
    mounts := lib.mounts.retain fun _ mounted => mounted ≠ adapterId }

/-- `(created_at_ns, adapter_id)` as a key. -/
def olderThan (a b : AdapterArtifact) : Bool :=
  a.provenance.createdAtNs < b.provenance.createdAtNs ∨
    (a.provenance.createdAtNs = b.provenance.createdAtNs ∧ a.adapterId < b.adapterId)

def oldest : List AdapterArtifact → Option AdapterArtifact
  | [] => none
  | a :: rest =>
    match oldest rest with
    | none => some a
    | some b => if olderThan b a then some b else some a

def unpinned (lib : Library) : List AdapterArtifact :=
  lib.adapters.values.filter fun a => a.adapterId ∉ lib.mounts.values

def evictOne (lib : Library) : Library × Except MountError Unit :=
  match lib.policy with
  | .rejectWhenFull => (lib, .error (.capacityExceeded lib.capacity))
  | .oldestFirst =>
    match oldest (unpinned lib) with
    | some victim =>
      ({ lib with
         adapters := lib.adapters.remove victim.adapterId
         adopted := lib.adopted.remove victim.adapterId
         operatorApproved := lib.operatorApproved.remove victim.adapterId }, .ok ())
    | none => (lib, .error (.capacityExceeded lib.capacity))

def store (lib : Library) (artifact : AdapterArtifact) : Library :=
  { lib with adapters := lib.adapters.insert artifact.adapterId artifact }

def register (lib : Library) (artifact : AdapterArtifact) : Library × Except MountError Unit :=
  let cleared := withdraw lib artifact.adapterId
  match cleared.adapters.get artifact.adapterId with
  | some _ => (store cleared artifact, .ok ())
  | none =>
    if cleared.adapters.size ≥ cleared.capacity then
      match evictOne cleared with
      | (lib, .error e) => (lib, .error e)
      | (lib, .ok ()) => (store lib artifact, .ok ())
    else (store cleared artifact, .ok ())

def registeredDigest (lib : Library) (adapterId : String) : Option String :=
  (lib.adapters.get adapterId).map AdapterArtifact.weightsDigest

def recordAdoption (lib : Library) (decision : AdoptionDecision) : Library :=
  if registeredDigest lib decision.adapterId ≠ some decision.weightsDigest then lib
  else if decision.approved then
    { lib with adopted := lib.adopted.insert decision.adapterId decision.weightsDigest }
  else withdraw lib decision.adapterId

def recordOperatorApproval (lib : Library) (adapterId weightsDigest : String) : Library :=
  if registeredDigest lib adapterId ≠ some weightsDigest then lib
  else { lib with operatorApproved := lib.operatorApproved.insert adapterId weightsDigest }

def revokeOperatorApproval (lib : Library) (adapterId weightsDigest : String) : Library :=
  if lib.operatorApproved.get adapterId ≠ some weightsDigest then lib
  else
    { lib with
      operatorApproved := lib.operatorApproved.remove adapterId
      mounts := lib.mounts.retain fun _ mounted => mounted ≠ adapterId }

/-- The digest recorded for the id is that of the registered weights. -/
def clearedBy (lib : Library) (clearances : KeyedMap String String) (adapterId : String) : Bool :=
  match clearances.get adapterId, lib.adapters.get adapterId with
  | some digest, some artifact => digest = artifact.weightsDigest
  | _, _ => false

def isAdopted (lib : Library) (adapterId : String) : Bool := clearedBy lib lib.adopted adapterId

def isOperatorApproved (lib : Library) (adapterId : String) : Bool :=
  clearedBy lib lib.operatorApproved adapterId

def mount (lib : Library) (mountId : MountId) (adapterId : String) :
    Library × Except MountError Unit :=
  match lib.adapters.get adapterId with
  | none => (lib, .error (.unknownAdapter adapterId))
  | some artifact =>
    if artifact.isMountable then ({ lib with mounts := lib.mounts.insert mountId adapterId }, .ok ())
    else (lib, .error (.notMountable adapterId))

def mountGated (lib : Library) (mountId : MountId) (adapterId : String) :
    Library × Except MountError Unit :=
  if lib.adapters.get adapterId = none then (lib, .error (.unknownAdapter adapterId))
  else if !isAdopted lib adapterId then (lib, .error (.notAdopted adapterId))
  else if !isOperatorApproved lib adapterId then (lib, .error (.notOperatorApproved adapterId))
  else mount lib mountId adapterId

def unmount (lib : Library) (mountId : MountId) : Library × Except MountError String :=
  match lib.mounts.get mountId with
  | some adapterId => ({ lib with mounts := lib.mounts.remove mountId }, .ok adapterId)
  | none => (lib, .error (.notMounted mountId))

inductive LibraryOp where
  | register (artifact : AdapterArtifact)
  | recordAdoption (decision : AdoptionDecision)
  | recordOperatorApproval (adapterId weightsDigest : String)
  | revokeOperatorApproval (adapterId weightsDigest : String)
  | mountGated (mountId : MountId) (adapterId : String)
  | unmount (mountId : MountId)
  deriving DecidableEq, Repr

/-- An unmounting also returns the adapter that was there. -/
inductive LibraryReply where
  | recorded
  | answered (answer : Except MountError Unit)
  | unmounted (answer : Except MountError String)

def step (lib : Library) : LibraryOp → Library × LibraryReply
  | .register artifact =>
    let r := AdapterLibrary.register lib artifact
    (r.1, .answered r.2)
  | .recordAdoption decision => (AdapterLibrary.recordAdoption lib decision, .recorded)
  | .recordOperatorApproval adapterId weightsDigest =>
    (AdapterLibrary.recordOperatorApproval lib adapterId weightsDigest, .recorded)
  | .revokeOperatorApproval adapterId weightsDigest =>
    (AdapterLibrary.revokeOperatorApproval lib adapterId weightsDigest, .recorded)
  | .mountGated mountId adapterId =>
    let r := AdapterLibrary.mountGated lib mountId adapterId
    (r.1, .answered r.2)
  | .unmount mountId =>
    let r := AdapterLibrary.unmount lib mountId
    (r.1, .unmounted r.2)

def after (capacity : Nat) (policy : EvictionPolicy) (ops : List LibraryOp) : Library :=
  Machine.final step (withPolicy capacity policy) ops

/-! ## What the operations do -/

theorem mem_oldest {l : List AdapterArtifact} {a : AdapterArtifact} (h : oldest l = some a) :
    a ∈ l := by
  induction l generalizing a with
  | nil => cases h
  | cons b rest ih =>
    simp only [oldest] at h
    split at h
    · cases h
      exact List.mem_cons_self
    · rename_i c found
      split at h
      · cases h
        exact List.mem_cons_of_mem _ (ih found)
      · cases h
        exact List.mem_cons_self

/-- The victim is registered and nothing is mounted of it. -/
theorem mem_unpinned {lib : Library} {victim : AdapterArtifact} (h : victim ∈ unpinned lib) :
    (∃ key, lib.adapters.get key = some victim) ∧
      ∀ mountId, (mountId, victim.adapterId) ∉ lib.mounts.entries := by
  obtain ⟨listed, free⟩ := List.mem_filter.mp h
  refine ⟨KeyedMap.mem_values_get.mp listed, fun mountId mounted => ?_⟩
  simp only [decide_eq_true_eq] at free
  exact free (KeyedMap.mem_values.mpr ⟨mountId, mounted⟩)

theorem clearedBy_digest {lib : Library} {clearances : KeyedMap String String}
    {adapterId : String} {a : AdapterArtifact} (found : lib.adapters.get adapterId = some a)
    (cleared : clearedBy lib clearances adapterId = true) :
    clearances.get adapterId = some a.weightsDigest := by
  rw [clearedBy, found] at cleared
  cases recorded : clearances.get adapterId with
  | none => simp [recorded] at cleared
  | some digest => simpa [recorded] using cleared

/-- The library once an evicted adapter is gone. -/
def dropped (lib : Library) (adapterId : String) : Library :=
  { lib with
    adapters := lib.adapters.remove adapterId
    adopted := lib.adopted.remove adapterId
    operatorApproved := lib.operatorApproved.remove adapterId }

theorem evictOne_cases (lib : Library) :
    evictOne lib = (lib, .error (.capacityExceeded lib.capacity)) ∨
    ∃ victim ∈ unpinned lib, evictOne lib = (dropped lib victim.adapterId, .ok ()) := by
  simp only [evictOne]
  split
  · exact .inl rfl
  · split
    · rename_i victim picked
      exact .inr ⟨victim, mem_oldest picked, rfl⟩
    · exact .inl rfl

/-- What a registration can come to. -/
inductive Registration (lib : Library) (a : AdapterArtifact) :
    Library × Except MountError Unit → Prop where
  | replaced (known : lib.adapters.get a.adapterId ≠ none) :
      Registration lib a (store (withdraw lib a.adapterId) a, .ok ())
  | refused (fresh : lib.adapters.get a.adapterId = none) :
      Registration lib a (withdraw lib a.adapterId, .error (.capacityExceeded lib.capacity))
  | added (fresh : lib.adapters.get a.adapterId = none)
      (room : lib.adapters.size < lib.capacity) :
      Registration lib a (store (withdraw lib a.adapterId) a, .ok ())
  | evicted (victim : AdapterArtifact) (fresh : lib.adapters.get a.adapterId = none)
      (free : victim ∈ unpinned (withdraw lib a.adapterId)) :
      Registration lib a
        (store (dropped (withdraw lib a.adapterId) victim.adapterId) a, .ok ())

theorem register_cases (lib : Library) (a : AdapterArtifact) :
    Registration lib a (register lib a) := by
  have same : (withdraw lib a.adapterId).adapters = lib.adapters := rfl
  simp only [register, same]
  cases found : lib.adapters.get a.adapterId with
  | some b => exact .replaced (found ▸ Option.some_ne_none b)
  | none =>
    dsimp only
    split
    · rcases evictOne_cases (withdraw lib a.adapterId) with full | ⟨victim, free, picked⟩
      · rw [full]
        exact .refused found
      · rw [picked]
        exact .evicted victim found free
    · rename_i room
      exact .added found (Nat.lt_of_not_le room)

theorem mountGated_cases (lib : Library) (mountId : MountId) (adapterId : String) :
    (mountGated lib mountId adapterId).1 = lib ∨
    ∃ a, lib.adapters.get adapterId = some a ∧ a.isMountable = true ∧
      lib.adopted.get adapterId = some a.weightsDigest ∧
      lib.operatorApproved.get adapterId = some a.weightsDigest ∧
      (mountGated lib mountId adapterId).1 =
        { lib with mounts := lib.mounts.insert mountId adapterId } := by
  cases found : lib.adapters.get adapterId with
  | none => exact .inl (by simp [mountGated, found])
  | some a =>
    by_cases adopted : isAdopted lib adapterId = true
    case neg => exact .inl (by simp [mountGated, found, adopted])
    by_cases approved : isOperatorApproved lib adapterId = true
    case neg => exact .inl (by simp [mountGated, found, adopted, approved])
    by_cases mountable : a.isMountable = true
    case neg => exact .inl (by simp [mountGated, mount, found, adopted, approved, mountable])
    refine .inr ⟨a, rfl, mountable, ?_, ?_, by
      simp [mountGated, mount, found, adopted, approved, mountable]⟩
    · exact clearedBy_digest found adopted
    · exact clearedBy_digest found approved

end AdapterLibrary
