import AnimaOS.WorkspaceRegistry

/-!
# Ownership and privilege in a workspace

A workspace keeps the one owner that created it, and a coalition of non-owners
gains no managing role, whatever it does and in whatever order.
-/

namespace WorkspaceRegistry

open FixedWidth Machine

/-! ## Looking members up in a changed list -/

def owners (rec : WorkspaceRecord) : List WorkspaceMembership :=
  rec.members.filter fun m => m.role = .owner

def userIds (rec : WorkspaceRecord) : List String :=
  rec.members.map WorkspaceMembership.userId

theorem memberRole_none {rec : WorkspaceRecord} {user : String}
    (h : user ∉ userIds rec) : rec.memberRole user = none := by
  simp only [WorkspaceRecord.memberRole, Option.map_eq_none_iff]
  apply List.find?_eq_none.mpr
  intro m hm same
  exact h (List.mem_map.mpr ⟨m, hm, of_decide_eq_true same⟩)

theorem memberRole_added {rec : WorkspaceRecord} {m : WorkspaceMembership}
    (fresh : m.userId ∉ userIds rec) (user : String) :
    ({ rec with members := rec.members ++ [m] } : WorkspaceRecord).memberRole user =
      if user = m.userId then some m.role else rec.memberRole user := by
  have absent := memberRole_none fresh
  simp only [WorkspaceRecord.memberRole, WorkspaceRecord.findMember, List.find?_append] at absent ⊢
  by_cases same : user = m.userId
  · subst same
    rw [Option.map_eq_none_iff.mp absent, if_pos rfl]
    simp
  · rw [if_neg same]
    simp [Ne.symm same]

theorem mem_eraseP_userId {members : List WorkspaceMembership} {user : String}
    (distinct : (members.map WorkspaceMembership.userId).Nodup) :
    user ∉ (members.eraseP fun m => m.userId = user).map WorkspaceMembership.userId := by
  induction members with
  | nil => exact List.not_mem_nil
  | cons m rest ih =>
    obtain ⟨fresh, distinct⟩ := List.nodup_cons.mp distinct
    by_cases same : m.userId = user
    · rw [List.eraseP_cons_of_pos (by simpa using same)]
      rwa [← same]
    · rw [List.eraseP_cons_of_neg (by simpa using same)]
      rintro listed
      rcases List.mem_cons.mp listed with first | later
      · exact same first.symm
      · exact ih distinct later

theorem find_eraseP_other {members : List WorkspaceMembership} {user other : String}
    (different : other ≠ user) :
    (members.eraseP fun m => m.userId = user).find? (fun m => m.userId = other) =
      members.find? fun m => m.userId = other := by
  induction members with
  | nil => rfl
  | cons m rest ih =>
    by_cases same : m.userId = user
    · rw [List.eraseP_cons_of_pos (by simpa using same), List.find?_cons_of_neg]
      intro named
      exact different ((of_decide_eq_true named).symm.trans same)
    · rw [List.eraseP_cons_of_neg (by simpa using same), List.find?_cons, List.find?_cons, ih]

theorem memberRole_removed {rec : WorkspaceRecord} (distinct : (userIds rec).Nodup)
    (user other : String) :
    ({ rec with members := rec.members.eraseP fun m => m.userId = user } :
      WorkspaceRecord).memberRole other = if other = user then none else rec.memberRole other := by
  by_cases same : other = user
  · subst same
    rw [if_pos rfl]
    exact memberRole_none (mem_eraseP_userId distinct)
  · rw [if_neg same]
    exact congrArg _ (find_eraseP_other same)

theorem filter_eraseP {α : Type} {keep erased : α → Bool} {a : α} {xs : List α}
    (first : xs.find? erased = some a) (dropped : keep a = false) :
    (xs.eraseP erased).filter keep = xs.filter keep := by
  induction xs with
  | nil => cases first
  | cons x rest ih =>
    cases hit : erased x with
    | true =>
      rw [List.find?_cons_of_pos hit] at first
      cases first
      rw [List.eraseP_cons_of_pos hit, List.filter_cons_of_neg (by simp [dropped])]
    | false =>
      rw [List.find?_cons_of_neg (by simp [hit])] at first
      rw [List.eraseP_cons_of_neg (by simp [hit]), List.filter_cons, List.filter_cons, ih first]

/-! ## One owner, the creator -/

/-- What a change leaves of a record: the same owner, and no user twice if none was. -/
theorem change_owners {id : String} {op : Op} {rec : WorkspaceRecord}
    {next : Option WorkspaceRecord} (h : Change id op (some rec) next)
    (distinct : (userIds rec).Nodup) :
    ∃ rec', next = some rec' ∧ owners rec' = owners rec ∧ (userIds rec').Nodup := by
  cases h with
  | same => exact ⟨rec, rfl, rfl, distinct⟩
  | kept rec rec' members owner =>
    refine ⟨rec', rfl, ?_, ?_⟩
    · simp only [owners, members]
    · rwa [userIds, members]
  | added rec actor userId role actorRole nowNs made acting manages below fresh =>
    refine ⟨_, rfl, ?_, ?_⟩
    · have notOwner : role ≠ .owner := by
        rintro rfl
        exact below (WorkspaceRole.le_owner actorRole)
      simp [owners, List.filter_append, notOwner]
    · simp only [userIds, List.map_append]
      apply List.nodup_append.mpr
      refine ⟨distinct, List.nodup_singleton _, ?_⟩
      rintro user listed other new rfl
      rw [List.mem_singleton.mp new] at listed
      exact fresh listed
  | removed rec actor userId m made found notOwner =>
    refine ⟨_, rfl, ?_, ?_⟩
    · exact filter_eraseP found (by simpa using notOwner)
    · exact distinct.sublist (List.eraseP_sublist.map _)

/-- `profile` is the one the run created workspace `id` with. -/
def CreatedBy (ops : List Op) (id : String) (profile : WorkspaceProfile) : Prop :=
  profile.workspaceId = id ∧ ∃ pre nowNs post,
    ops = pre ++ .create profile nowNs :: post ∧ after pre id = none

structure Owned (ops : List Op) (id : String) (rec : WorkspaceRecord) : Prop where
  owner : ∃ m profile, owners rec = [m] ∧ CreatedBy ops id profile ∧
    m.userId = profile.ownerUserId
  distinct : (userIds rec).Nodup

theorem after_snoc (ops : List Op) (op : Op) : after (ops ++ [op]) = (step (after ops) op).1 :=
  final_snoc step inMemory ops op

theorem createdBy_append {ops : List Op} {id : String} {profile : WorkspaceProfile}
    (h : CreatedBy ops id profile) (more : List Op) : CreatedBy (ops ++ more) id profile := by
  obtain ⟨named, pre, nowNs, post, rfl, free⟩ := h
  exact ⟨named, pre, nowNs, post ++ more, by simp, free⟩

theorem after_owned {ops : List Op} {id : String} {rec : WorkspaceRecord}
    (filed : after ops id = some rec) : Owned ops id rec := by
  induction ops using List.reverseRecOn generalizing rec with
  | nil => cases filed
  | append_singleton ops op ih =>
    have change := step_change id (after ops) op
    rw [← after_snoc, filed] at change
    cases before : after ops id with
    | none =>
      rw [before] at change
      cases change with
      | created profile nowNs made named =>
        refine ⟨⟨_, profile, rfl, ⟨named, ops, nowNs, [], ?_, before⟩, rfl⟩, ?_⟩
        · rw [made]
        · exact List.nodup_singleton _
    | some earlier =>
      obtain ⟨⟨m, profile, sole, created, named⟩, distinct⟩ := ih before
      rw [before] at change
      obtain ⟨rec', found, kept, distinct'⟩ := change_owners change distinct
      cases found
      exact ⟨⟨m, profile, kept.trans sole, createdBy_append created [op], named⟩, distinct'⟩

theorem after_stable {ops : List Op} {id : String} {rec : WorkspaceRecord}
    (filed : after ops id = some rec) (more : List Op) :
    ∃ rec', after (ops ++ more) id = some rec' ∧ owners rec' = owners rec := by
  induction more using List.reverseRecOn with
  | nil => exact ⟨rec, by rwa [List.append_nil], rfl⟩
  | append_singleton more op ih =>
    obtain ⟨mid, reached, kept⟩ := ih
    have change := step_change id (after (ops ++ more)) op
    rw [← after_snoc, List.append_assoc, reached] at change
    obtain ⟨rec', found, same, -⟩ := change_owners change (after_owned reached).distinct
    exact ⟨rec', found, same.trans kept⟩

/-! ## A refused operation changes nothing -/

/-- An outcome that leaves the registry as it was when it is an error. -/
def Refusal (ws : Workspaces) (outcome : Outcome) : Prop :=
  ∀ e, outcome.2 = .error e → outcome.1 = ws

theorem refusal_same (ws : Workspaces) (answer : Except WorkspaceError Reply) :
    Refusal ws (ws, answer) :=
  fun _ _ => rfl

theorem refusal_done (ws next : Workspaces) (reply : Reply) : Refusal ws (next, .ok reply) := by
  rintro e failed
  cases failed

theorem changeProfile_refusal (ws : Workspaces) (workspaceId : String)
    (change : WorkspaceProfile → WorkspaceProfile × Bool) :
    Refusal ws (changeProfile ws workspaceId change) := by
  simp only [changeProfile]
  split
  · exact refusal_same ws _
  · exact refusal_done ws _ _

theorem addMember_refusal (ws : Workspaces) (actor workspaceId userId : String)
    (role : WorkspaceRole) (nowNs : Nat) :
    Refusal ws (addMember ws actor workspaceId userId role nowNs) := by
  simp only [addMember]
  split
  · exact refusal_same ws _
  split
  · exact refusal_same ws _
  split
  · exact refusal_same ws _
  split
  · exact refusal_same ws _
  split
  · exact refusal_same ws _
  split
  · exact refusal_same ws _
  · exact refusal_done ws _ _

theorem removeMember_refusal (ws : Workspaces) (actor workspaceId userId : String) :
    Refusal ws (removeMember ws actor workspaceId userId) := by
  simp only [removeMember]
  split
  · exact refusal_same ws _
  split
  · exact refusal_same ws _
  split
  · exact refusal_same ws _
  split
  · exact refusal_same ws _
  split
  · exact refusal_same ws _
  · exact refusal_done ws _ _

theorem step_refusal (ws : Workspaces) (op : Op) : Refusal ws (step ws op) := by
  cases op with
  | create profile nowNs =>
    simp only [step, create]
    split
    · exact refusal_same ws _
    · exact refusal_done ws _ _
  | setQuota actor workspaceId quota =>
    simp only [step, setQuota]
    split
    · exact refusal_same ws _
    split
    · exact refusal_same ws _
    · exact refusal_done ws _ _
  | addMember actor workspaceId userId role nowNs =>
    exact addMember_refusal ws actor workspaceId userId role nowNs
  | removeMember actor workspaceId userId => exact removeMember_refusal ws actor workspaceId userId
  | setDescription workspaceId description nowNs => exact changeProfile_refusal ws workspaceId _
  | suspend workspaceId nowNs => exact changeProfile_refusal ws workspaceId _
  | reactivate workspaceId nowNs => exact changeProfile_refusal ws workspaceId _
  | delete workspaceId nowNs => exact changeProfile_refusal ws workspaceId _
  | flush failure =>
    cases failure with
    | none => exact refusal_same ws _
    | some message => exact refusal_same ws _

/-- After every run each workspace has exactly one owner, its creator, for good, and no member
twice; and in every run an operation that fails leaves the registry as it was. -/
theorem ownership_unique_and_stable (ops : List Op) :
    (∀ id rec, after ops id = some rec →
      Owned ops id rec ∧
      ∀ more, ∃ rec', after (ops ++ more) id = some rec' ∧ owners rec' = owners rec) ∧
    ∀ op e, (step (after ops) op).2 = .error e → (step (after ops) op).1 = after ops := by
  constructor
  · intro id rec filed
    constructor
    · exact after_owned filed
    · exact after_stable filed
  · exact step_refusal (after ops)

/-! ## No managing role without the owner -/

def Op.actorOn (id : String) : Op → Option String
  | .setQuota actor workspaceId _ => if workspaceId = id then some actor else none
  | .addMember actor workspaceId _ _ _ => if workspaceId = id then some actor else none
  | .removeMember actor workspaceId _ => if workspaceId = id then some actor else none
  | _ => none

/-- The operation files `user` in workspace `id` for an actor who is an admin there. -/
def AddedByAdmin (rec : WorkspaceRecord) (id user : String) (op : Op) : Prop :=
  ∃ actor role nowNs, op = .addMember actor id user role nowNs ∧
    rec.memberRole actor = some .admin

/-- What one step without the owner does to the roles: a user has the role it had, or no role,
or one below admin that an admin has just granted. -/
theorem change_roles {id : String} {op : Op} {rec rec' : WorkspaceRecord}
    (h : Change id op (some rec) (some rec')) (distinct : (userIds rec).Nodup)
    (absent : ∀ actor, op.actorOn id = some actor → rec.memberRole actor ≠ some .owner)
    (user : String) :
    rec'.memberRole user = rec.memberRole user ∨
    (rec'.memberRole user = none ∧ rec.memberRole user ≠ some .owner) ∨
    (∃ role, rec.memberRole user = none ∧ rec'.memberRole user = some role ∧
      role.canManage = false ∧ AddedByAdmin rec id user op) := by
  cases h with
  | same => exact .inl rfl
  | kept rec rec' members owner =>
    left
    simp only [WorkspaceRecord.memberRole, WorkspaceRecord.findMember, members]
  | added rec actor userId role actorRole nowNs made acting manages below fresh =>
    have granted := memberRole_added (m := ⟨id, userId, role, nowNs⟩) fresh user
    by_cases same : user = userId
    · subst same
      rw [if_pos rfl] at granted
      have admin : actorRole = .admin := by
        cases actorRole with
        | guest => cases manages
        | member => cases manages
        | admin => rfl
        | owner =>
          apply absurd acting
          apply absent actor
          rw [made]
          exact if_pos rfl
      subst admin
      refine .inr (.inr ⟨role, memberRole_none fresh, granted, ?_, actor, role, nowNs, made, acting⟩)
      exact decide_eq_false below
    · rw [if_neg same] at granted
      exact .inl granted
  | removed rec actor userId m made found notOwner =>
    have left := memberRole_removed distinct userId user
    by_cases same : user = userId
    · subst same
      rw [if_pos rfl] at left
      refine .inr (.inl ⟨left, ?_⟩)
      intro owner
      simp only [WorkspaceRecord.memberRole, found, Option.map_some] at owner
      exact notOwner (Option.some.inj owner)
    · rw [if_neg same] at left
      exact .inl left

/-- What `rec'` has kept of `rec` after `ops` run from the state `history` leaves: the owner, no
managing role that was not held, and no new member but those an admin added on the way. -/
structure Contained (history ops : List Op) (id : String) (rec rec' : WorkspaceRecord) :
    Prop where
  owner : ∀ user, rec.memberRole user = some .owner → rec'.memberRole user = some .owner
  managing : ∀ user role, role.canManage = true → rec'.memberRole user = some role →
    rec.memberRole user = some role
  outside : ∀ user, rec.memberRole user = none → rec'.memberRole user ≠ none →
    ∃ pre op post mid, ops = pre ++ op :: post ∧ after (history ++ pre) id = some mid ∧
      AddedByAdmin mid id user op

theorem contained_refl (history : List Op) (id : String) (rec : WorkspaceRecord) :
    Contained history [] id rec rec := by
  constructor
  · exact fun _ held => held
  · exact fun _ _ _ held => held
  · exact fun _ none some => absurd none some

theorem contained_snoc {history ops : List Op} {op : Op} {id : String}
    {rec mid rec' : WorkspaceRecord} (reached : after (history ++ ops) id = some mid)
    (distinct : (userIds mid).Nodup) (h : Contained history ops id rec mid)
    (absent : ∀ actor, op.actorOn id = some actor → rec.memberRole actor ≠ some .owner)
    (change : Change id op (some mid) (some rec')) :
    Contained history (ops ++ [op]) id rec rec' := by
  have absent' : ∀ actor, op.actorOn id = some actor → mid.memberRole actor ≠ some .owner := by
    intro actor acts held
    exact absent actor acts (h.managing actor .owner rfl held)
  have roles := change_roles change distinct absent'
  constructor
  · intro user held
    have held := h.owner user held
    rcases roles user with same | ⟨-, notOwner⟩ | ⟨role, free, -⟩
    · exact same.trans held
    · exact absurd held notOwner
    · cases free.symm.trans held
  · intro user role manages held
    rcases roles user with same | ⟨gone, -⟩ | ⟨low, -, granted, below, -⟩
    · exact h.managing user role manages (same.symm.trans held)
    · cases gone.symm.trans held
    · cases granted.symm.trans held
      cases below.symm.trans manages
  · intro user outsider gained
    have earlier : mid.memberRole user ≠ none → ∃ pre earlier post mid,
        ops ++ [op] = pre ++ earlier :: post ∧ after (history ++ pre) id = some mid ∧
          AddedByAdmin mid id user earlier := by
      intro held
      obtain ⟨pre, earlier, post, mid, rfl, filed, adds⟩ := h.outside user outsider held
      exact ⟨pre, earlier, post ++ [op], mid, by simp, filed, adds⟩
    rcases roles user with same | ⟨gone, -⟩ | ⟨role, -, -, -, adds⟩
    · exact earlier (same ▸ gained)
    · exact absurd gone gained
    · exact ⟨ops, op, [], mid, rfl, reached, adds⟩

/-- Operations none of which an owner performs on the workspace leave its owner the owner, give
nobody a managing role it did not hold, and bring in only users an admin added. -/
theorem no_escalation_without_owner (history ops : List Op) (id : String) (rec : WorkspaceRecord)
    (filed : after history id = some rec)
    (absent : ∀ op ∈ ops, ∀ actor, op.actorOn id = some actor →
      rec.memberRole actor ≠ some .owner) :
    ∃ rec', after (history ++ ops) id = some rec' ∧ Contained history ops id rec rec' := by
  induction ops using List.reverseRecOn with
  | nil =>
    refine ⟨rec, ?_, contained_refl history id rec⟩
    rwa [List.append_nil]
  | append_singleton ops op ih =>
    obtain ⟨mid, reached, contained⟩ := ih fun earlier listed =>
      absent earlier (List.mem_append_left _ listed)
    have distinct := (after_owned reached).distinct
    have change := step_change id (after (history ++ ops)) op
    rw [← after_snoc, List.append_assoc, reached] at change
    obtain ⟨rec', found, -⟩ := change_owners change distinct
    rw [found] at change
    refine ⟨rec', found, contained_snoc reached distinct contained ?_ change⟩
    exact absent op (List.mem_append_right _ (List.mem_singleton_self op))

def acme : WorkspaceRecord :=
  { WorkspaceRecord.new (.new "acme" "Acme" "a" 0) 0 with
    members := [⟨"acme", "a", .owner, 0⟩, ⟨"acme", "b", .admin, 1⟩, ⟨"acme", "c", .admin, 1⟩] }

def acmeHistory : List Op :=
  [.create (.new "acme" "Acme" "a" 0) 0, .addMember "a" "acme" "b" .admin 1,
    .addMember "a" "acme" "c" .admin 1]

/-- Two admins who grant, remove, leave and grant again. -/
def colluding : List Op :=
  [.addMember "b" "acme" "m" .admin 2, .removeMember "b" "acme" "c",
    .removeMember "c" "acme" "c", .addMember "b" "acme" "c" .admin 3,
    .addMember "b" "acme" "c" .member 4, .removeMember "b" "acme" "a"]

theorem no_escalation_of_colluding : ∃ rec', after (acmeHistory ++ colluding) "acme" = some rec' ∧
    Contained acmeHistory colluding "acme" acme rec' := by
  apply no_escalation_without_owner acmeHistory colluding "acme" acme
  · decide
  · intro op listed actor acts held
    have named : ∀ op ∈ colluding, op.actorOn "acme" = some "b" ∨ op.actorOn "acme" = some "c" := by
      decide
    rcases acts ▸ named op listed with same | same
    · cases same
      exact absurd held (by decide)
    · cases same
      exact absurd held (by decide)

end WorkspaceRegistry
