import AnimaOS.FixedWidth
import AnimaOS.Machine

/-!
# The workspace registry

Workspaces with their members and roles, and the operations that change them.
Each operation names its actor; a user who is no member acts as a guest.
-/

namespace WorkspaceRegistry

open FixedWidth Machine

inductive WorkspaceRole where
  | guest
  | member
  | admin
  | owner
  deriving DecidableEq, Repr

namespace WorkspaceRole

/-- The discriminant, by which roles are ordered. -/
def rank : WorkspaceRole → Nat
  | .guest => 0
  | .member => 1
  | .admin => 2
  | .owner => 3

instance : LE WorkspaceRole := ⟨fun a b => a.rank ≤ b.rank⟩

instance (a b : WorkspaceRole) : Decidable (a ≤ b) := inferInstanceAs (Decidable (a.rank ≤ b.rank))

theorem le_owner (role : WorkspaceRole) : role ≤ .owner := by
  cases role <;> decide

def canManage (role : WorkspaceRole) : Bool := decide (.admin ≤ role)

end WorkspaceRole

structure WorkspaceMembership where
  workspaceId : String
  userId : String
  role : WorkspaceRole
  joinedAtNs : Nat
  deriving DecidableEq, Repr

inductive WorkspaceStatus where
  | active
  | suspended
  | deleted
  deriving DecidableEq, Repr

structure WorkspaceProfile where
  workspaceId : String
  displayName : String
  ownerUserId : String
  description : Option String
  status : WorkspaceStatus
  createdAtNs : Nat
  updatedAtNs : Nat
  schemaVersion : Nat
  deriving DecidableEq, Repr

namespace WorkspaceProfile

def new (workspaceId displayName ownerUserId : String) (nowNs : Nat) : WorkspaceProfile :=
  ⟨workspaceId, displayName, ownerUserId, none, .active, nowNs, nowNs, 1⟩

def setDescription (p : WorkspaceProfile) (description : String) (nowNs : Nat) :
    WorkspaceProfile :=
  { p with description := some description, updatedAtNs := nowNs }

def suspend (p : WorkspaceProfile) (nowNs : Nat) : WorkspaceProfile × Bool :=
  if p.status = .active then ({ p with status := .suspended, updatedAtNs := nowNs }, true)
  else (p, false)

def reactivate (p : WorkspaceProfile) (nowNs : Nat) : WorkspaceProfile × Bool :=
  if p.status = .suspended then ({ p with status := .active, updatedAtNs := nowNs }, true)
  else (p, false)

def delete (p : WorkspaceProfile) (nowNs : Nat) : WorkspaceProfile × Bool :=
  if p.status ≠ .deleted then ({ p with status := .deleted, updatedAtNs := nowNs }, true)
  else (p, false)

end WorkspaceProfile

structure WorkspaceQuota where
  maxMembers : Nat
  maxDailyTokens : Nat
  maxStorageBytes : Nat
  maxActiveTasks : Nat
  deriving DecidableEq, Repr

def WorkspaceQuota.default : WorkspaceQuota := ⟨25, 5_000_000, 1_073_741_824, 200⟩

inductive QuotaViolation where
  | memberLimit
  | dailyTokenLimit
  | storageLimit
  | activeTaskLimit
  deriving DecidableEq, Repr

structure WorkspaceRecord where
  profile : WorkspaceProfile
  quota : WorkspaceQuota
  members : List WorkspaceMembership
  deriving DecidableEq, Repr

namespace WorkspaceRecord

/-- The owner is the first member. -/
def new (profile : WorkspaceProfile) (nowNs : Nat) : WorkspaceRecord :=
  ⟨profile, .default, [⟨profile.workspaceId, profile.ownerUserId, .owner, nowNs⟩]⟩

def findMember (rec : WorkspaceRecord) (userId : String) : Option WorkspaceMembership :=
  rec.members.find? fun m => m.userId = userId

def memberRole (rec : WorkspaceRecord) (userId : String) : Option WorkspaceRole :=
  (rec.findMember userId).map WorkspaceMembership.role

def canAddMembers (rec : WorkspaceRecord) (additional : Nat) : Bool :=
  decide (satAdd 64 rec.members.length additional ≤ rec.quota.maxMembers)

end WorkspaceRecord

inductive WorkspaceError where
  | alreadyExists (workspaceId : String)
  | notFound (workspaceId : String)
  | memberAlreadyExists (workspaceId userId : String)
  | memberNotFound (workspaceId userId : String)
  | insufficientRole (required actual : WorkspaceRole)
  | quotaExceeded (workspaceId : String) (violation : QuotaViolation)
  | cannotRemoveOwner (workspaceId userId : String)
  | duplicateOwner (workspaceId : String)
  | io (message : String)
  deriving DecidableEq, Repr

abbrev Workspaces := String → Option WorkspaceRecord

def put (ws : Workspaces) (id : String) (rec : WorkspaceRecord) : Workspaces :=
  fun other => if other = id then some rec else ws other

def authorizeManage (rec : WorkspaceRecord) (actor : String) : Except WorkspaceError Unit :=
  let role := (rec.memberRole actor).getD .guest
  if role.canManage then .ok () else .error (.insufficientRole .admin role)

inductive Reply where
  | done
  | removed (role : WorkspaceRole)
  | changed (change : Option Bool)
  deriving DecidableEq, Repr

abbrev Outcome := Workspaces × Except WorkspaceError Reply

def create (ws : Workspaces) (profile : WorkspaceProfile) (nowNs : Nat) : Outcome :=
  let id := profile.workspaceId
  match ws id with
  | some _ => (ws, .error (.alreadyExists id))
  | none => (put ws id (.new profile nowNs), .ok .done)

def setQuota (ws : Workspaces) (actor workspaceId : String) (quota : WorkspaceQuota) : Outcome :=
  match ws workspaceId with
  | none => (ws, .error (.notFound workspaceId))
  | some rec =>
    match authorizeManage rec actor with
    | .error e => (ws, .error e)
    | .ok () => (put ws workspaceId { rec with quota := quota }, .ok .done)

def addMember (ws : Workspaces) (actor workspaceId userId : String) (role : WorkspaceRole)
    (nowNs : Nat) : Outcome :=
  if role = .owner then (ws, .error (.duplicateOwner workspaceId))
  else
    match ws workspaceId with
    | none => (ws, .error (.notFound workspaceId))
    | some rec =>
      match authorizeManage rec actor with
      | .error e => (ws, .error e)
      | .ok () =>
        -- only a role strictly below the actor's own may be granted
        let actorRole := (rec.memberRole actor).getD .guest
        if actorRole ≤ role then (ws, .error (.insufficientRole .owner actorRole))
        else if rec.members.any fun m => m.userId = userId then
          (ws, .error (.memberAlreadyExists workspaceId userId))
        else if !rec.canAddMembers 1 then (ws, .error (.quotaExceeded workspaceId .memberLimit))
        else
          let membership := ⟨workspaceId, userId, role, nowNs⟩
          (put ws workspaceId { rec with members := rec.members ++ [membership] }, .ok .done)

def removeMember (ws : Workspaces) (actor workspaceId userId : String) : Outcome :=
  match ws workspaceId with
  | none => (ws, .error (.notFound workspaceId))
  | some rec =>
    -- leaving needs no managing role
    match if actor = userId then .ok () else authorizeManage rec actor with
    | .error e => (ws, .error e)
    | .ok () =>
      match rec.findMember userId with
      | none => (ws, .error (.memberNotFound workspaceId userId))
      | some m =>
        let actorRole := (rec.memberRole actor).getD .guest
        if m.role = .owner then (ws, .error (.cannotRemoveOwner workspaceId userId))
        else if actor ≠ userId ∧ actorRole ≤ m.role then
          (ws, .error (.insufficientRole .owner actorRole))
        else
          let members := rec.members.eraseP fun m => m.userId = userId
          (put ws workspaceId { rec with members := members }, .ok (.removed m.role))

/-- A change of the profile through the mutable record. -/
def changeProfile (ws : Workspaces) (workspaceId : String)
    (change : WorkspaceProfile → WorkspaceProfile × Bool) : Outcome :=
  match ws workspaceId with
  | none => (ws, .ok (.changed none))
  | some rec =>
    let changed := change rec.profile
    (put ws workspaceId { rec with profile := changed.1 }, .ok (.changed (some changed.2)))

/-- Writing the file does not touch the registry, and may fail. -/
def flush (ws : Workspaces) (failure : Option String) : Outcome :=
  match failure with
  | none => (ws, .ok .done)
  | some message => (ws, .error (.io message))

inductive Op where
  | create (profile : WorkspaceProfile) (nowNs : Nat)
  | setQuota (actor workspaceId : String) (quota : WorkspaceQuota)
  | addMember (actor workspaceId userId : String) (role : WorkspaceRole) (nowNs : Nat)
  | removeMember (actor workspaceId userId : String)
  | setDescription (workspaceId description : String) (nowNs : Nat)
  | suspend (workspaceId : String) (nowNs : Nat)
  | reactivate (workspaceId : String) (nowNs : Nat)
  | delete (workspaceId : String) (nowNs : Nat)
  | flush (failure : Option String)
  deriving DecidableEq, Repr

def step (ws : Workspaces) : Op → Outcome
  | .create profile nowNs => create ws profile nowNs
  | .setQuota actor workspaceId quota => setQuota ws actor workspaceId quota
  | .addMember actor workspaceId userId role nowNs =>
    addMember ws actor workspaceId userId role nowNs
  | .removeMember actor workspaceId userId => removeMember ws actor workspaceId userId
  | .setDescription workspaceId description nowNs =>
    changeProfile ws workspaceId fun p => (p.setDescription description nowNs, true)
  | .suspend workspaceId nowNs => changeProfile ws workspaceId fun p => p.suspend nowNs
  | .reactivate workspaceId nowNs => changeProfile ws workspaceId fun p => p.reactivate nowNs
  | .delete workspaceId nowNs => changeProfile ws workspaceId fun p => p.delete nowNs
  | .flush failure => flush ws failure

def inMemory : Workspaces := fun _ => none

def after (ops : List Op) : Workspaces := final step inMemory ops

/-! ## What a step does to one workspace -/

/-- The ways an operation may leave the record filed under `id`. -/
inductive Change (id : String) (op : Op) :
    Option WorkspaceRecord → Option WorkspaceRecord → Prop where
  | same (rec : Option WorkspaceRecord) : Change id op rec rec
  | created (profile : WorkspaceProfile) (nowNs : Nat) (made : op = .create profile nowNs)
      (named : profile.workspaceId = id) : Change id op none (some (.new profile nowNs))
  | kept (rec rec' : WorkspaceRecord) (members : rec'.members = rec.members)
      (owner : rec'.profile.ownerUserId = rec.profile.ownerUserId) :
      Change id op (some rec) (some rec')
  | added (rec : WorkspaceRecord) (actor userId : String) (role actorRole : WorkspaceRole)
      (nowNs : Nat) (made : op = .addMember actor id userId role nowNs)
      (acting : rec.memberRole actor = some actorRole) (manages : actorRole.canManage = true)
      (below : ¬ actorRole ≤ role) (fresh : userId ∉ rec.members.map WorkspaceMembership.userId) :
      Change id op (some rec)
        (some { rec with members := rec.members ++ [⟨id, userId, role, nowNs⟩] })
  | removed (rec : WorkspaceRecord) (actor userId : String) (m : WorkspaceMembership)
      (made : op = .removeMember actor id userId) (found : rec.findMember userId = some m)
      (notOwner : m.role ≠ .owner) :
      Change id op (some rec)
        (some { rec with members := rec.members.eraseP fun m => m.userId = userId })

theorem authorize_ok {rec : WorkspaceRecord} {actor : String}
    (h : authorizeManage rec actor = .ok ()) :
    ∃ role, rec.memberRole actor = some role ∧ role.canManage = true := by
  simp only [authorizeManage] at h
  split at h
  · rename_i manages
    cases found : rec.memberRole actor with
    | none =>
      rw [found] at manages
      cases manages
    | some role =>
      rw [found] at manages
      exact ⟨role, rfl, manages⟩
  · cases h

theorem put_change {id other : String} {op : Op} {ws : Workspaces} {rec : WorkspaceRecord}
    (h : Change other op (ws other) (some rec)) : Change id op (ws id) (put ws other rec id) := by
  simp only [put]
  by_cases same : id = other
  · subst same
    rw [if_pos rfl]
    exact h
  · rw [if_neg same]
    exact .same _

theorem create_change (id : String) (ws : Workspaces) (profile : WorkspaceProfile) (nowNs : Nat) :
    Change id (.create profile nowNs) (ws id) ((create ws profile nowNs).1 id) := by
  simp only [create]
  split
  · exact .same _
  · rename_i free
    apply put_change
    rw [free]
    exact .created profile nowNs rfl rfl

theorem setQuota_change (id : String) (ws : Workspaces) (actor workspaceId : String)
    (quota : WorkspaceQuota) : Change id (.setQuota actor workspaceId quota) (ws id)
      ((setQuota ws actor workspaceId quota).1 id) := by
  simp only [setQuota]
  split
  · exact .same _
  · rename_i rec found
    split
    · exact .same _
    · apply put_change
      rw [found]
      exact .kept rec _ rfl rfl

theorem addMember_change (id : String) (ws : Workspaces) (actor workspaceId userId : String)
    (role : WorkspaceRole) (nowNs : Nat) :
    Change id (.addMember actor workspaceId userId role nowNs) (ws id)
      ((addMember ws actor workspaceId userId role nowNs).1 id) := by
  simp only [addMember]
  split
  · exact .same _
  split
  · exact .same _
  rename_i rec found
  split
  · exact .same _
  rename_i authorized
  obtain ⟨actorRole, acting, manages⟩ := authorize_ok authorized
  simp only [acting, Option.getD_some]
  split
  · exact .same _
  rename_i below
  split
  · exact .same _
  rename_i fresh
  split
  · exact .same _
  apply put_change
  rw [found]
  refine .added rec actor userId role actorRole nowNs rfl acting manages below ?_
  intro listed
  obtain ⟨m, hm, same⟩ := List.mem_map.mp listed
  exact fresh (List.any_eq_true.mpr ⟨m, hm, by simpa using same⟩)

theorem removeMember_change (id : String) (ws : Workspaces) (actor workspaceId userId : String) :
    Change id (.removeMember actor workspaceId userId) (ws id)
      ((removeMember ws actor workspaceId userId).1 id) := by
  simp only [removeMember]
  split
  · exact .same _
  rename_i rec found
  split
  · exact .same _
  split
  · exact .same _
  rename_i m member
  split
  · exact .same _
  rename_i notOwner
  split
  · exact .same _
  apply put_change
  rw [found]
  exact .removed rec actor userId m rfl member notOwner

theorem changeProfile_change (id : String) (op : Op) (ws : Workspaces) (workspaceId : String)
    {change : WorkspaceProfile → WorkspaceProfile × Bool}
    (keeps : ∀ p, (change p).1.ownerUserId = p.ownerUserId) :
    Change id op (ws id) ((changeProfile ws workspaceId change).1 id) := by
  simp only [changeProfile]
  split
  · exact .same _
  · rename_i rec found
    apply put_change
    rw [found]
    exact .kept rec _ rfl (keeps rec.profile)

theorem lifecycle_owner (p : WorkspaceProfile) (nowNs : Nat) :
    (p.suspend nowNs).1.ownerUserId = p.ownerUserId ∧
      (p.reactivate nowNs).1.ownerUserId = p.ownerUserId ∧
      (p.delete nowNs).1.ownerUserId = p.ownerUserId := by
  refine ⟨?_, ?_, ?_⟩
  · simp only [WorkspaceProfile.suspend]
    split
    · rfl
    · rfl
  · simp only [WorkspaceProfile.reactivate]
    split
    · rfl
    · rfl
  · simp only [WorkspaceProfile.delete]
    split
    · rfl
    · rfl

theorem step_change (id : String) (ws : Workspaces) (op : Op) :
    Change id op (ws id) ((step ws op).1 id) := by
  cases op with
  | create profile nowNs => exact create_change id ws profile nowNs
  | setQuota actor workspaceId quota => exact setQuota_change id ws actor workspaceId quota
  | addMember actor workspaceId userId role nowNs =>
    exact addMember_change id ws actor workspaceId userId role nowNs
  | removeMember actor workspaceId userId => exact removeMember_change id ws actor workspaceId userId
  | setDescription workspaceId description nowNs =>
    exact changeProfile_change id _ ws workspaceId fun _ => rfl
  | suspend workspaceId nowNs =>
    exact changeProfile_change id _ ws workspaceId fun p => (lifecycle_owner p nowNs).1
  | reactivate workspaceId nowNs =>
    exact changeProfile_change id _ ws workspaceId fun p => (lifecycle_owner p nowNs).2.1
  | delete workspaceId nowNs =>
    exact changeProfile_change id _ ws workspaceId fun p => (lifecycle_owner p nowNs).2.2
  | flush failure =>
    cases failure with
    | none => exact .same _
    | some message => exact .same _

end WorkspaceRegistry
