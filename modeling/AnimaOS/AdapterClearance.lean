import AnimaOS.AdapterLibrary
import AnimaOS.EventLog
import Mathlib.Data.List.Induction

/-!
# Only cleared adapters are served

Every clearance in the library goes back to a decision about the registered
weights that came after their registration and that nothing has withdrawn.
-/

namespace AdapterLibrary

open EventLog

/-! ## Clearances in a history -/

def Registers (adapterId : String) (op : LibraryOp) : Prop :=
  ∃ a, op = .register a ∧ a.adapterId = adapterId

def Decides (a : AdapterArtifact) (approved : Bool) (op : LibraryOp) : Prop :=
  op = .recordAdoption ⟨a.adapterId, a.weightsDigest, approved⟩

/-- The weights were registered, and no registration of their id came after. -/
def Registered (a : AdapterArtifact) (ops : List LibraryOp) : Prop :=
  Stands (fun _ op => op = .register a) (fun op => ¬ Registers a.adapterId op) ops

/-- The weights were adopted after their registration, and no rejection of them came after. -/
def Adopted (a : AdapterArtifact) (ops : List LibraryOp) : Prop :=
  Stands (fun _ op => Decides a true op)
    (fun op => ¬ Registers a.adapterId op ∧ ¬ Decides a false op) ops

/-- The operator signed the weights off after their registration, and neither a revocation of the
sign-off nor a rejection of the weights came after. -/
def SignedOff (a : AdapterArtifact) (ops : List LibraryOp) : Prop :=
  Stands (fun _ op => op = .recordOperatorApproval a.adapterId a.weightsDigest)
    (fun op => ¬ Registers a.adapterId op ∧ ¬ Decides a false op ∧
      op ≠ .revokeOperatorApproval a.adapterId a.weightsDigest) ops

/-! ## The invariant, id by id -/

structure SoundAt (ops : List LibraryOp) (lib : Library) (id : String) : Prop where
  registered : ∀ a, lib.adapters.get id = some a → a.adapterId = id ∧ Registered a ops
  adopted : ∀ digest, lib.adopted.get id = some digest →
    ∃ a, lib.adapters.get id = some a ∧ a.weightsDigest = digest ∧ Adopted a ops
  approved : ∀ digest, lib.operatorApproved.get id = some digest →
    ∃ a, lib.adapters.get id = some a ∧ a.weightsDigest = digest ∧ SignedOff a ops
  mounted : ∀ mountId, (mountId, id) ∈ lib.mounts.entries →
    ∃ a, lib.adapters.get id = some a ∧ a.isMountable = true ∧
      lib.adopted.get id = some a.weightsDigest ∧
      lib.operatorApproved.get id = some a.weightsDigest

/-- Nothing in the library concerns the id. -/
structure Absent (lib : Library) (id : String) : Prop where
  adapters : lib.adapters.get id = none
  adopted : lib.adopted.get id = none
  operatorApproved : lib.operatorApproved.get id = none
  mounts : ∀ mountId, (mountId, id) ∉ lib.mounts.entries

theorem Absent.sound {lib : Library} {id : String} (absent : Absent lib id)
    (ops : List LibraryOp) : SoundAt ops lib id where
  registered a found := by simp [absent.adapters] at found
  adopted digest found := by simp [absent.adopted] at found
  approved digest found := by simp [absent.operatorApproved] at found
  mounted mountId found := absurd found (absent.mounts mountId)

/-- What the two libraries say of the id is the same, but that fewer mounts of it may be left. -/
structure Alike (lib lib' : Library) (id : String) : Prop where
  adapters : lib'.adapters.get id = lib.adapters.get id
  adopted : lib'.adopted.get id = lib.adopted.get id
  operatorApproved : lib'.operatorApproved.get id = lib.operatorApproved.get id
  mounts : ∀ mountId, (mountId, id) ∈ lib'.mounts.entries → (mountId, id) ∈ lib.mounts.entries

theorem Alike.refl (lib : Library) (id : String) : Alike lib lib id :=
  ⟨rfl, rfl, rfl, fun _ mounted => mounted⟩

theorem SoundAt.alike {ops : List LibraryOp} {lib lib' : Library} {id : String}
    (sound : SoundAt ops lib id) (alike : Alike lib lib' id) : SoundAt ops lib' id := by
  constructor
  · rw [alike.adapters]
    exact sound.registered
  · rw [alike.adapters, alike.adopted]
    exact sound.adopted
  · rw [alike.adapters, alike.operatorApproved]
    exact sound.approved
  · intro mountId mounted
    rw [alike.adapters, alike.adopted, alike.operatorApproved]
    exact sound.mounted mountId (alike.mounts mountId mounted)

/-- The operation withdraws nothing that the library has on record for the id. -/
structure Spares (lib : Library) (id : String) (op : LibraryOp) : Prop where
  registers : ¬ Registers id op
  rejects : ∀ a : AdapterArtifact, lib.adapters.get id = some a → a.adapterId = id →
    ¬ Decides a false op
  revokes : ∀ a : AdapterArtifact, lib.operatorApproved.get id = some a.weightsDigest →
    a.adapterId = id → op ≠ .revokeOperatorApproval a.adapterId a.weightsDigest

theorem SoundAt.snoc {ops : List LibraryOp} {lib : Library} {id : String} {op : LibraryOp}
    (sound : SoundAt ops lib id) (spares : Spares lib id op) : SoundAt (ops ++ [op]) lib id := by
  constructor
  · intro a found
    obtain ⟨named, registered⟩ := sound.registered a found
    exact ⟨named, stands_snoc.mpr (.inr ⟨registered, named ▸ spares.registers⟩)⟩
  · intro digest recorded
    obtain ⟨a, found, same, adopted⟩ := sound.adopted digest recorded
    have named := (sound.registered a found).1
    exact ⟨a, found, same, stands_snoc.mpr
      (.inr ⟨adopted, named ▸ spares.registers, spares.rejects a found named⟩)⟩
  · intro digest recorded
    obtain ⟨a, found, same, signed⟩ := sound.approved digest recorded
    have named := (sound.registered a found).1
    subst same
    exact ⟨a, found, rfl, stands_snoc.mpr
      (.inr ⟨signed, named ▸ spares.registers, spares.rejects a found named,
        spares.revokes a recorded named⟩)⟩
  · exact sound.mounted

/-- The id an operation is about. -/
def subject : LibraryOp → Option String
  | .register a => some a.adapterId
  | .recordAdoption d => some d.adapterId
  | .recordOperatorApproval adapterId _ => some adapterId
  | .revokeOperatorApproval adapterId _ => some adapterId
  | .mountGated _ _ => none
  | .unmount _ => none

theorem spares_other {lib : Library} {id : String} {op : LibraryOp} (other : subject op ≠ some id) :
    Spares lib id op := by
  constructor
  · rintro ⟨a, rfl, rfl⟩
    exact other rfl
  · rintro a - rfl rfl
    exact other rfl
  · rintro a - rfl rfl
    exact other rfl

/-! ## What the operations leave alone -/

theorem withdraw_alike {lib : Library} {withdrawn id : String} (other : id ≠ withdrawn) :
    Alike lib (withdraw lib withdrawn) id where
  adapters := rfl
  adopted := KeyedMap.get_remove_other other _
  operatorApproved := KeyedMap.get_remove_other other _
  mounts _ mounted := (KeyedMap.mem_retain.mp mounted).1

theorem withdraw_adopted (lib : Library) (id : String) : (withdraw lib id).adopted.get id = none :=
  KeyedMap.get_remove_self _ id

theorem withdraw_approved (lib : Library) (id : String) :
    (withdraw lib id).operatorApproved.get id = none :=
  KeyedMap.get_remove_self _ id

theorem withdraw_mounts (lib : Library) (id : String) (mountId : MountId) :
    (mountId, id) ∉ (withdraw lib id).mounts.entries := by
  intro mounted
  simpa using (KeyedMap.mem_retain.mp mounted).2

theorem dropped_alike {lib : Library} {victim id : String} (other : id ≠ victim) :
    Alike lib (dropped lib victim) id where
  adapters := KeyedMap.get_remove_other other _
  adopted := KeyedMap.get_remove_other other _
  operatorApproved := KeyedMap.get_remove_other other _
  mounts _ mounted := mounted

theorem dropped_absent {lib : Library} {victim : String}
    (free : ∀ mountId, (mountId, victim) ∉ lib.mounts.entries) :
    Absent (dropped lib victim) victim where
  adapters := KeyedMap.get_remove_self _ victim
  adopted := KeyedMap.get_remove_self _ victim
  operatorApproved := KeyedMap.get_remove_self _ victim
  mounts := free

theorem store_alike {lib : Library} {a : AdapterArtifact} {id : String} (other : id ≠ a.adapterId) :
    Alike lib (store lib a) id :=
  ⟨KeyedMap.get_insert_other other _ _, rfl, rfl, fun _ mounted => mounted⟩

/-- A stored adapter whose clearances and mounts were withdrawn is soundly registered. -/
theorem store_sound {lib : Library} {a : AdapterArtifact}
    (adopted : lib.adopted.get a.adapterId = none)
    (approved : lib.operatorApproved.get a.adapterId = none)
    (mounts : ∀ mountId, (mountId, a.adapterId) ∉ lib.mounts.entries) (ops : List LibraryOp) :
    SoundAt (ops ++ [.register a]) (store lib a) a.adapterId where
  registered b found := by
    rw [store, KeyedMap.get_insert_self] at found
    cases found
    exact ⟨rfl, stands_snoc.mpr (.inl rfl)⟩
  adopted digest recorded := by
    change lib.adopted.get a.adapterId = some digest at recorded
    rw [adopted] at recorded
    cases recorded
  approved digest recorded := by
    change lib.operatorApproved.get a.adapterId = some digest at recorded
    rw [approved] at recorded
    cases recorded
  mounted mountId mounted := absurd mounted (mounts mountId)

/-! ## The invariant of a run -/

structure Sound (ops : List LibraryOp) (lib : Library) : Prop where
  at_ : ∀ id, SoundAt ops lib id
  bounded : lib.adapters.size ≤ lib.capacity

variable {ops : List LibraryOp} {lib : Library}

theorem Sound.register_at (sound : Sound ops lib) (a : AdapterArtifact) (id : String) :
    SoundAt (ops ++ [.register a]) (register lib a).1 id := by
  have registration := register_cases lib a
  generalize register lib a = r at registration
  by_cases same : id = a.adapterId
  · subst same
    cases registration with
    | replaced known =>
      exact store_sound (withdraw_adopted lib _) (withdraw_approved lib _)
        (withdraw_mounts lib _) ops
    | refused fresh =>
      have absent : Absent (withdraw lib a.adapterId) a.adapterId :=
        ⟨fresh, withdraw_adopted lib _, withdraw_approved lib _, withdraw_mounts lib _⟩
      exact absent.sound _
    | added fresh room =>
      exact store_sound (withdraw_adopted lib _) (withdraw_approved lib _)
        (withdraw_mounts lib _) ops
    | evicted victim fresh free =>
      obtain ⟨⟨key, found⟩, -⟩ := mem_unpinned free
      have named := ((sound.at_ key).registered victim found).1
      have other : a.adapterId ≠ victim.adapterId := by
        rintro clash
        rw [clash, named] at fresh
        cases fresh.symm.trans found
      have alike := @dropped_alike (withdraw lib a.adapterId) _ _ other
      exact store_sound (alike.adopted.trans (withdraw_adopted lib _))
        (alike.operatorApproved.trans (withdraw_approved lib _))
        (fun mountId mounted => withdraw_mounts lib _ mountId (alike.mounts mountId mounted)) ops
  · have spares : Spares lib id (.register a) := spares_other fun h => same (Option.some.inj h).symm
    have before := ((sound.at_ id).snoc spares).alike (withdraw_alike same)
    cases registration with
    | replaced known => exact before.alike (store_alike same)
    | refused fresh => exact before
    | added fresh room => exact before.alike (store_alike same)
    | evicted victim fresh free =>
      by_cases gone : id = victim.adapterId
      · have absent := (dropped_absent (mem_unpinned free).2).sound (ops ++ [.register a])
        subst gone
        exact absent.alike (store_alike same)
      · exact (before.alike (dropped_alike gone)).alike (store_alike same)

theorem Sound.register_bounded (sound : Sound ops lib) (a : AdapterArtifact) :
    (register lib a).1.adapters.size ≤ (register lib a).1.capacity := by
  have registration := register_cases lib a
  generalize register lib a = r at registration
  have bounded := sound.bounded
  cases registration with
  | replaced known => exact Nat.le_trans (KeyedMap.size_insert_present known a) bounded
  | refused fresh => exact bounded
  | added fresh room => exact Nat.le_trans (KeyedMap.size_insert_le _ _ _) room
  | evicted victim fresh free =>
    obtain ⟨⟨key, found⟩, -⟩ := mem_unpinned free
    have named := ((sound.at_ key).registered victim found).1
    have smaller : (lib.adapters.remove victim.adapterId).size < lib.adapters.size := by
      refine KeyedMap.size_remove_present ?_
      rw [named]
      exact found ▸ Option.some_ne_none victim
    have stored := KeyedMap.size_insert_le (lib.adapters.remove victim.adapterId) a.adapterId a
    change (KeyedMap.insert _ _ _).size ≤ lib.capacity
    exact Nat.le_trans stored (Nat.le_trans smaller bounded)

theorem registeredDigest_some {id digest : String} (h : registeredDigest lib id = some digest) :
    ∃ a, lib.adapters.get id = some a ∧ a.weightsDigest = digest :=
  Option.map_eq_some_iff.mp h

theorem SoundAt.adopt {id digest : String} {a : AdapterArtifact} (sound : SoundAt ops lib id)
    (found : lib.adapters.get id = some a) (same : a.weightsDigest = digest)
    (adopted : Adopted a ops) :
    SoundAt ops { lib with adopted := lib.adopted.insert id digest } id where
  registered := sound.registered
  adopted other recorded := by
    rw [KeyedMap.get_insert_self] at recorded
    cases recorded
    exact ⟨a, found, same, adopted⟩
  approved := sound.approved
  mounted mountId mounted := by
    obtain ⟨b, registered, mountable, -, approved⟩ := sound.mounted mountId mounted
    cases found.symm.trans registered
    exact ⟨a, found, mountable, by rw [KeyedMap.get_insert_self, same], approved⟩

theorem SoundAt.signOff {id digest : String} {a : AdapterArtifact} (sound : SoundAt ops lib id)
    (found : lib.adapters.get id = some a) (same : a.weightsDigest = digest)
    (signed : SignedOff a ops) :
    SoundAt ops { lib with operatorApproved := lib.operatorApproved.insert id digest } id where
  registered := sound.registered
  adopted := sound.adopted
  approved other recorded := by
    rw [KeyedMap.get_insert_self] at recorded
    cases recorded
    exact ⟨a, found, same, signed⟩
  mounted mountId mounted := by
    obtain ⟨b, registered, mountable, adopted, -⟩ := sound.mounted mountId mounted
    cases found.symm.trans registered
    exact ⟨a, found, mountable, adopted, by rw [KeyedMap.get_insert_self, same]⟩

theorem Sound.adoption_at (sound : Sound ops lib) (decision : AdoptionDecision) :
    SoundAt (ops ++ [.recordAdoption decision]) (recordAdoption lib decision)
      decision.adapterId := by
  have at_ := sound.at_ decision.adapterId
  have unregistered : ∀ id, ¬ Registers id (.recordAdoption decision) := by
    rintro id ⟨b, made, -⟩
    cases made
  by_cases current : registeredDigest lib decision.adapterId = some decision.weightsDigest
  case neg =>
    rw [recordAdoption, if_pos current]
    refine at_.snoc ⟨unregistered _, ?_, fun a _ _ made => LibraryOp.noConfusion made⟩
    rintro a found - rejects
    cases rejects
    exact current (by rw [registeredDigest, found]; rfl)
  obtain ⟨a, found, same⟩ := registeredDigest_some current
  obtain ⟨named, registered⟩ := at_.registered a found
  cases approved : decision.approved with
  | true =>
    have kept : SoundAt (ops ++ [.recordAdoption decision]) lib decision.adapterId := by
      refine at_.snoc ⟨unregistered _, ?_, fun a _ _ made => LibraryOp.noConfusion made⟩
      rintro b - - rejects
      cases rejects
      cases approved
    have decides : Decides a true (.recordAdoption decision) := by
      simp only [Decides, named, same, ← approved]
    have result : recordAdoption lib decision = { lib with
        adopted := lib.adopted.insert decision.adapterId decision.weightsDigest } := by
      simp [recordAdoption, current, approved]
    rw [result]
    exact kept.adopt found same (stands_snoc.mpr (.inl decides))
  | false =>
    have result : recordAdoption lib decision = withdraw lib decision.adapterId := by
      simp [recordAdoption, current, approved]
    rw [result]
    constructor
    · intro b again
      cases found.symm.trans again
      exact ⟨named, stands_snoc.mpr (.inr ⟨registered, unregistered _⟩)⟩
    · intro digest recorded
      cases (withdraw_adopted lib _).symm.trans recorded
    · intro digest recorded
      cases (withdraw_approved lib _).symm.trans recorded
    · intro mountId mounted
      exact absurd mounted (withdraw_mounts lib _ mountId)

theorem Sound.approval_at (sound : Sound ops lib) (id digest : String) :
    SoundAt (ops ++ [.recordOperatorApproval id digest]) (recordOperatorApproval lib id digest)
      id := by
  have spares : Spares lib id (.recordOperatorApproval id digest) := by
    refine ⟨?_, fun a _ _ made => LibraryOp.noConfusion made,
      fun a _ _ made => LibraryOp.noConfusion made⟩
    rintro ⟨b, made, -⟩
    cases made
  have kept := (sound.at_ id).snoc spares
  by_cases current : registeredDigest lib id = some digest
  case neg =>
    rw [recordOperatorApproval, if_pos current]
    exact kept
  obtain ⟨a, found, same⟩ := registeredDigest_some current
  obtain ⟨named, -⟩ := kept.registered a found
  rw [recordOperatorApproval, if_neg (not_not_intro current)]
  exact kept.signOff found same (stands_snoc.mpr (.inl (by rw [named, same])))

theorem Sound.revocation_at (sound : Sound ops lib) (id digest : String) :
    SoundAt (ops ++ [.revokeOperatorApproval id digest]) (revokeOperatorApproval lib id digest)
      id := by
  have at_ := sound.at_ id
  have unregistered : ∀ id', ¬ Registers id' (.revokeOperatorApproval id digest) := by
    rintro id' ⟨b, made, -⟩
    cases made
  by_cases current : lib.operatorApproved.get id = some digest
  case neg =>
    rw [revokeOperatorApproval, if_pos current]
    refine at_.snoc ⟨unregistered _, fun a _ _ made => LibraryOp.noConfusion made, ?_⟩
    rintro a recorded - made
    cases made
    exact current recorded
  rw [revokeOperatorApproval, if_neg (not_not_intro current)]
  constructor
  · intro a found
    obtain ⟨named, registered⟩ := at_.registered a found
    exact ⟨named, stands_snoc.mpr (.inr ⟨registered, unregistered _⟩)⟩
  · intro other recorded
    obtain ⟨a, found, same, adopted⟩ := at_.adopted other recorded
    refine ⟨a, found, same, stands_snoc.mpr (.inr ⟨adopted, unregistered _, ?_⟩)⟩
    exact fun made => LibraryOp.noConfusion made
  · intro other recorded
    cases (KeyedMap.get_remove_self _ id).symm.trans recorded
  · intro mountId mounted
    simpa using (KeyedMap.mem_retain.mp mounted).2

theorem adoption_alike {decision : AdoptionDecision} {id : String}
    (other : id ≠ decision.adapterId) : Alike lib (recordAdoption lib decision) id := by
  rw [recordAdoption]
  split
  · exact .refl lib id
  · split
    · exact ⟨rfl, KeyedMap.get_insert_other other _ _, rfl, fun _ mounted => mounted⟩
    · exact withdraw_alike other

theorem approval_alike {adapterId digest id : String} (other : id ≠ adapterId) :
    Alike lib (recordOperatorApproval lib adapterId digest) id := by
  rw [recordOperatorApproval]
  split
  · exact .refl lib id
  · exact ⟨rfl, rfl, KeyedMap.get_insert_other other _ _, fun _ mounted => mounted⟩

theorem revocation_alike {adapterId digest id : String} (other : id ≠ adapterId) :
    Alike lib (revokeOperatorApproval lib adapterId digest) id := by
  rw [revokeOperatorApproval]
  split
  · exact .refl lib id
  · exact ⟨rfl, rfl, KeyedMap.get_remove_other other _,
      fun _ mounted => (KeyedMap.mem_retain.mp mounted).1⟩

theorem Sound.mountGated_at (sound : Sound ops lib) (mountId : MountId) (adapterId id : String) :
    SoundAt (ops ++ [.mountGated mountId adapterId]) (mountGated lib mountId adapterId).1 id := by
  have kept := (sound.at_ id).snoc (@spares_other lib id (.mountGated mountId adapterId)
    (Option.some_ne_none id).symm)
  rcases mountGated_cases lib mountId adapterId with same | ⟨a, found, mountable, adopted, approved,
    result⟩
  · rw [same]
    exact kept
  · rw [result]
    refine ⟨kept.registered, kept.adopted, kept.approved, ?_⟩
    intro other mounted
    rw [KeyedMap.mem_entries, KeyedMap.get_insert] at mounted
    split at mounted
    · cases mounted
      exact ⟨a, found, mountable, adopted, approved⟩
    · exact kept.mounted other (KeyedMap.mem_entries.mpr mounted)

theorem unmount_alike (mountId : MountId) (id : String) : Alike lib (unmount lib mountId).1 id := by
  rw [unmount]
  split
  · exact ⟨rfl, rfl, rfl, fun _ mounted => (KeyedMap.mem_retain.mp mounted).1⟩
  · exact .refl lib id

/-- Only a registration changes which adapters there are. -/
theorem step_adapters (op : LibraryOp) :
    ((step lib op).1.adapters = lib.adapters ∧ (step lib op).1.capacity = lib.capacity) ∨
      ∃ a, op = .register a := by
  cases op with
  | register a => exact .inr ⟨a, rfl⟩
  | recordAdoption decision =>
    left
    simp only [step, recordAdoption]
    split
    · exact ⟨rfl, rfl⟩
    · split <;> exact ⟨rfl, rfl⟩
  | recordOperatorApproval adapterId digest =>
    left
    simp only [step, recordOperatorApproval]
    split <;> exact ⟨rfl, rfl⟩
  | revokeOperatorApproval adapterId digest =>
    left
    simp only [step, revokeOperatorApproval]
    split <;> exact ⟨rfl, rfl⟩
  | mountGated mountId adapterId =>
    left
    simp only [step]
    rcases mountGated_cases lib mountId adapterId with same | ⟨a, -, -, -, -, result⟩
    · rw [same]
      exact ⟨rfl, rfl⟩
    · rw [result]
      exact ⟨rfl, rfl⟩
  | unmount mountId =>
    left
    simp only [step, unmount]
    split <;> exact ⟨rfl, rfl⟩

theorem step_capacity (op : LibraryOp) : (step lib op).1.capacity = lib.capacity := by
  rcases @step_adapters lib op with ⟨-, same⟩ | ⟨a, rfl⟩
  · exact same
  · change (register lib a).1.capacity = lib.capacity
    have registration := register_cases lib a
    generalize register lib a = r at registration
    cases registration <;> rfl

/-- A library operation other than a sign-off adds none. -/
theorem signOff_of_step {lib : Library} {op : LibraryOp} {id digest : String}
    (recorded : (step lib op).1.operatorApproved.get id = some digest) :
    lib.operatorApproved.get id = some digest ∨ op = .recordOperatorApproval id digest := by
  cases op with
  | register a =>
    left
    change (register lib a).1.operatorApproved.get id = some digest at recorded
    have registration := register_cases lib a
    generalize register lib a = r at registration recorded
    cases registration with
    | replaced known => exact KeyedMap.get_of_remove recorded
    | refused fresh => exact KeyedMap.get_of_remove recorded
    | added fresh room => exact KeyedMap.get_of_remove recorded
    | evicted victim fresh free => exact KeyedMap.get_of_remove (KeyedMap.get_of_remove recorded)
  | recordAdoption decision =>
    left
    simp only [step, recordAdoption] at recorded
    split at recorded
    · exact recorded
    · split at recorded
      · exact recorded
      · exact KeyedMap.get_of_remove recorded
  | recordOperatorApproval adapterId weightsDigest =>
    simp only [step, recordOperatorApproval] at recorded
    split at recorded
    · exact .inl recorded
    · rw [KeyedMap.get_insert] at recorded
      split at recorded
      · rename_i same
        cases recorded
        exact .inr (by rw [same])
      · exact .inl recorded
  | revokeOperatorApproval adapterId weightsDigest =>
    left
    simp only [step, revokeOperatorApproval] at recorded
    split at recorded
    · exact recorded
    · exact KeyedMap.get_of_remove recorded
  | mountGated mountId adapterId =>
    left
    simp only [step] at recorded
    rcases mountGated_cases lib mountId adapterId with same | ⟨a, -, -, -, -, result⟩
    · rwa [same] at recorded
    · rwa [result] at recorded
  | unmount mountId =>
    left
    simp only [step, unmount] at recorded
    split at recorded <;> exact recorded

theorem Sound.step (sound : Sound ops lib) (op : LibraryOp) :
    Sound (ops ++ [op]) (step lib op).1 := by
  constructor
  · intro id
    by_cases about : subject op = some id
    case neg =>
      have kept := (sound.at_ id).snoc (spares_other about)
      cases op with
      | register a => exact sound.register_at a id
      | recordAdoption decision =>
        exact kept.alike (adoption_alike fun same => about (congrArg some same.symm))
      | recordOperatorApproval adapterId digest =>
        exact kept.alike (approval_alike fun same => about (congrArg some same.symm))
      | revokeOperatorApproval adapterId digest =>
        exact kept.alike (revocation_alike fun same => about (congrArg some same.symm))
      | mountGated mountId adapterId => exact sound.mountGated_at mountId adapterId id
      | unmount mountId => exact kept.alike (unmount_alike mountId id)
    cases op with
    | register a => exact sound.register_at a id
    | recordAdoption decision =>
      cases about
      exact sound.adoption_at decision
    | recordOperatorApproval adapterId digest =>
      cases about
      exact sound.approval_at id digest
    | revokeOperatorApproval adapterId digest =>
      cases about
      exact sound.revocation_at id digest
    | mountGated mountId adapterId => cases about
    | unmount mountId => cases about
  · rcases @step_adapters lib op with ⟨adapters, capacity⟩ | ⟨a, rfl⟩
    · rw [adapters, capacity]
      exact sound.bounded
    · exact sound.register_bounded a

theorem after_sound (capacity : Nat) (policy : EvictionPolicy) (ops : List LibraryOp) :
    Sound ops (after capacity policy ops) := by
  induction ops using List.reverseRecOn with
  | nil =>
    have absent : ∀ id, Absent (withPolicy capacity policy) id :=
      fun id => ⟨rfl, rfl, rfl, fun _ => List.not_mem_nil⟩
    exact ⟨fun id => (absent id).sound [], Nat.zero_le _⟩
  | append_singleton ops op ih =>
    rw [after, Machine.final_snoc]
    exact ih.step op

theorem after_capacity (capacity : Nat) (policy : EvictionPolicy) (ops : List LibraryOp) :
    (after capacity policy ops).capacity = max capacity 1 := by
  induction ops using List.reverseRecOn with
  | nil => rfl
  | append_singleton ops op ih =>
    rw [after, Machine.final_snoc, step_capacity]
    exact ih

/-- A mounted adapter is still registered after the next operation, whichever it is. -/
theorem Sound.pinned (sound : Sound ops lib) {mountId : MountId} {id : String}
    (mounted : (mountId, id) ∈ lib.mounts.entries) (op : LibraryOp) :
    (AdapterLibrary.step lib op).1.adapters.get id ≠ none := by
  obtain ⟨b, found, -⟩ := (sound.at_ id).mounted mountId mounted
  rcases @step_adapters lib op with ⟨adapters, -⟩ | ⟨a, rfl⟩
  · rw [adapters, found]
    exact Option.some_ne_none b
  change (register lib a).1.adapters.get id ≠ none
  have registration := register_cases lib a
  generalize register lib a = r at registration
  have stored : ∀ l : Library, (l.adapters.get id ≠ none) → (store l a).adapters.get id ≠ none := by
    intro l held
    rw [store, KeyedMap.get_insert]
    split
    · exact Option.some_ne_none a
    · exact held
  have held : lib.adapters.get id ≠ none := found ▸ Option.some_ne_none b
  cases registration with
  | replaced known => exact stored _ held
  | refused fresh => exact held
  | added fresh room => exact stored _ held
  | evicted victim fresh free =>
    refine stored _ ?_
    have other : id ≠ victim.adapterId := by
      rintro rfl
      refine (mem_unpinned free).2 mountId (KeyedMap.mem_retain.mpr ⟨mounted, ?_⟩)
      have unlike : victim.adapterId ≠ a.adapterId := fun same => held (same ▸ fresh)
      simpa using unlike
    rw [(dropped_alike other).adapters]
    exact held

/-- Every mounted id is registered and mountable, and its registered weights were adopted and signed
off after their registration with neither clearance withdrawn since; the library never outgrows its
capacity and no operation takes a mounted adapter out of it. -/
theorem served_weights_cleared (capacity : Nat) (policy : EvictionPolicy) (ops : List LibraryOp) :
    (∀ mountId id, (mountId, id) ∈ (after capacity policy ops).mounts.entries →
      ∃ a, (after capacity policy ops).adapters.get id = some a ∧ a.adapterId = id ∧
        a.isMountable = true ∧ Registered a ops ∧ Adopted a ops ∧ SignedOff a ops) ∧
    (after capacity policy ops).adapters.size ≤ max capacity 1 ∧
    ∀ op mountId id, (mountId, id) ∈ (after capacity policy ops).mounts.entries →
      (after capacity policy (ops ++ [op])).adapters.get id ≠ none := by
  have sound := after_sound capacity policy ops
  refine ⟨?_, ?_, ?_⟩
  · intro mountId id mounted
    obtain ⟨a, found, mountable, adopted, approved⟩ := (sound.at_ id).mounted mountId mounted
    obtain ⟨named, registered⟩ := (sound.at_ id).registered a found
    obtain ⟨b, again, -, stands⟩ := (sound.at_ id).adopted _ adopted
    obtain ⟨c, still, -, signed⟩ := (sound.at_ id).approved _ approved
    cases found.symm.trans again
    cases found.symm.trans still
    exact ⟨a, found, named, mountable, registered, stands, signed⟩
  · rw [← after_capacity capacity policy ops]
    exact sound.bounded
  · intro op mountId id mounted
    rw [after, Machine.final_snoc]
    exact sound.pinned mounted op

def sampleAdapter : AdapterArtifact :=
  ⟨"nightly", .mountableAdapter, "abc", ⟨"base-q4", .qLora 16 32 4, "job-1", 100⟩⟩

def sampleMount : MountId := ⟨"instinct", "base-q4"⟩

example : (after 1 .oldestFirst
    [.register sampleAdapter, .recordAdoption ⟨"nightly", "abc", true⟩,
      .recordOperatorApproval "nightly" "abc", .mountGated sampleMount "nightly"]).mounts.entries =
    [(sampleMount, "nightly")] := by
  decide

end AdapterLibrary
