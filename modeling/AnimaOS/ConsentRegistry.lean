import AnimaOS.Machine
import AnimaOS.UserConsent

/-!
# The user registry and its expiry checks

Users come and go, consent is given and withdrawn, and an expiry check revokes
what has lapsed. At any later time a check of consent answers as if no expiry
check had run: the last word on the category decides.
-/

namespace ConsentRegistry

open Machine UserConsent

inductive TrustTier where
  | unknown
  | verified
  | trusted
  | operator
  deriving DecidableEq, Repr

structure UserProfile where
  userId : String
  displayName : String
  channel : String
  trustTier : TrustTier
  createdAtNs : Nat
  lastSeenNs : Nat
  facts : KeyedMap String String
  schemaVersion : Nat
  deriving DecidableEq, Repr

def UserProfile.new (userId displayName channel : String) (nowNs : Nat) : UserProfile :=
  ⟨userId, displayName, channel, .unknown, nowNs, nowNs, KeyedMap.empty, 1⟩

def UserProfile.setFact (p : UserProfile) (key value : String) : UserProfile × Option String :=
  ({ p with facts := p.facts.insert key value }, p.facts.get key)

def UserProfile.touch (p : UserProfile) (nowNs : Nat) : UserProfile :=
  { p with lastSeenNs := nowNs }

structure UserRecord where
  profile : UserProfile
  consent : ConsentRecord
  deriving DecidableEq, Repr

def UserRecord.new (profile : UserProfile) : UserRecord := ⟨profile, KeyedMap.empty⟩

abbrev UserRegistry := KeyedMap String UserRecord

inductive RegistryError where
  | alreadyExists (userId : String)
  | notFound (userId : String)
  deriving DecidableEq, Repr

/-! ## Operations -/

def register (r : UserRegistry) (profile : UserProfile) :
    UserRegistry × Except RegistryError Unit :=
  if (r.get profile.userId).isSome then (r, .error (.alreadyExists profile.userId))
  else (r.insert profile.userId (UserRecord.new profile), .ok ())

def upsert (r : UserRegistry) (profile : UserProfile) : UserRegistry × Bool :=
  match r.get profile.userId with
  | some rec => (r.insert profile.userId { rec with profile := profile }, false)
  | none => (r.insert profile.userId (UserRecord.new profile), true)

def remove (r : UserRegistry) (userId : String) :
    UserRegistry × Except RegistryError UserRecord :=
  match r.get userId with
  | some rec => (r.remove userId, .ok rec)
  | none => (r, .error (.notFound userId))

/-- A change made through `get_mut`. -/
def getMut {A : Type} (r : UserRegistry) (userId : String) (f : UserRecord → UserRecord × A) :
    UserRegistry × Except RegistryError A :=
  match r.get userId with
  | some rec => (r.insert userId (f rec).1, .ok (f rec).2)
  | none => (r, .error (.notFound userId))

def setTrust (r : UserRegistry) (userId : String) (tier : TrustTier) (nowNs : Nat) :
    UserRegistry × Except RegistryError (TrustTier × TrustTier) :=
  getMut r userId fun rec =>
    ({ rec with profile := { rec.profile with trustTier := tier }.touch nowNs },
      (rec.profile.trustTier, tier))

def setFact (r : UserRegistry) (userId key value : String) (nowNs : Nat) :
    UserRegistry × Except RegistryError (Option String) :=
  getMut r userId fun rec =>
    let written := (rec.profile.touch nowNs).setFact key value
    ({ rec with profile := written.1 }, written.2)

def consent (r : UserRegistry) (userId : String) (category : DataCategory) (granted : Bool)
    (nowNs : Nat) : UserRegistry × Except RegistryError Unit :=
  getMut r userId fun rec =>
    ({ rec with consent := ConsentRecord.set rec.consent category granted nowNs }, ())

def consentUntil (r : UserRegistry) (userId : String) (category : DataCategory) (granted : Bool)
    (expiresAtNs nowNs : Nat) : UserRegistry × Except RegistryError Unit :=
  getMut r userId fun rec =>
    ({ rec with consent :=
        ConsentRecord.setUntil rec.consent category granted expiresAtNs nowNs }, ())

/-- `anima data delete`: a directive for every category, and the record is removed. -/
def deleteData (r : UserRegistry) (userId : String) (nowNs : Nat) :
    UserRegistry × Except RegistryError RevocationDirective :=
  match r.get userId with
  | some _ => ((remove r userId).1, .ok (buildRevocationDirective userId DataCategory.all nowNs))
  | none => (r, .error (.notFound userId))

/-- A grant that a scan reported is revoked, if its category reads back. -/
def revoke (debug : String → String) (nowNs : Nat) (r : UserRegistry) (e : ExpiredGrant) :
    UserRegistry :=
  match DataCategory.fromStr debug e.category with
  | .ok cat => (consent r e.userId cat false nowNs).1
  | .error _ => r

def userConsent (r : UserRegistry) : List (String × ConsentRecord) :=
  r.entries.map fun e => (e.1, e.2.consent)

/-- `anima data expiry-check`: what the scan reports is revoked. -/
def expiryCheck (debug : String → String) (r : UserRegistry) (nowNs : Nat) :
    UserRegistry × ExpiryReport :=
  let report := scanExpiredGrants (userConsent r) nowNs
  (report.expiredGrants.foldl (revoke debug nowNs) r, report)

/-! ## Commands -/

inductive Operation where
  | register (profile : UserProfile)
  | upsert (profile : UserProfile)
  | remove (userId : String)
  | setTrust (userId : String) (tier : TrustTier) (nowNs : Nat)
  | setFact (userId key value : String) (nowNs : Nat)
  | consent (userId : String) (category : DataCategory) (granted : Bool) (nowNs : Nat)
  | consentUntil (userId : String) (category : DataCategory) (granted : Bool)
      (expiresAtNs nowNs : Nat)
  | deleteData (userId : String) (nowNs : Nat)
  | expiryCheck (nowNs : Nat)

/-- An operation, and whether the registry is written out after it. -/
structure Command where
  operation : Operation
  flushed : Bool

inductive Response where
  | done (result : Except RegistryError Unit)
  | created (fresh : Bool)
  | removed (result : Except RegistryError UserRecord)
  | trust (result : Except RegistryError (TrustTier × TrustTier))
  | fact (previous : Except RegistryError (Option String))
  | deleted (result : Except RegistryError RevocationDirective)
  | report (report : ExpiryReport)

def perform (debug : String → String) (r : UserRegistry) : Operation → UserRegistry × Response
  | .register profile => (register r profile).map id .done
  | .upsert profile => (upsert r profile).map id .created
  | .remove userId => (remove r userId).map id .removed
  | .setTrust userId tier nowNs => (setTrust r userId tier nowNs).map id .trust
  | .setFact userId key value nowNs => (setFact r userId key value nowNs).map id .fact
  | .consent userId category granted nowNs =>
    (consent r userId category granted nowNs).map id .done
  | .consentUntil userId category granted expiresAtNs nowNs =>
    (consentUntil r userId category granted expiresAtNs nowNs).map id .done
  | .deleteData userId nowNs => (deleteData r userId nowNs).map id .deleted
  | .expiryCheck nowNs => (expiryCheck debug r nowNs).map id .report

def step (debug : String → String) (r : UserRegistry) (c : Command) : UserRegistry × Response :=
  let performed := perform debug r c.operation
  (if c.flushed then performed.1 else r, performed.2)

/-! ## What stands about one category of one user -/

/-- Whether the user is registered, and the grant of the category. -/
def standing (r : UserRegistry) (id : String) (cat : DataCategory) : Option (Option Grant) :=
  (r.get id).map fun rec => rec.consent.get cat.asStr

def grantOf (r : UserRegistry) (id : String) (cat : DataCategory) : Option Grant :=
  (standing r id cat).join

/-- What an operation says about a category, given what was said before. An expiry check says
nothing. -/
def said (id : String) (cat : DataCategory) (before : Option (Option Grant)) :
    Operation → Option (Option Grant)
  | .register profile => if profile.userId = id then some before.join else before
  | .upsert profile => if profile.userId = id then some before.join else before
  | .remove userId => if userId = id then none else before
  | .consent userId category granted nowNs =>
    if userId = id ∧ category = cat then before.map fun _ => some (Grant.perpetual granted nowNs)
    else before
  | .consentUntil userId category granted expiresAtNs nowNs =>
    if userId = id ∧ category = cat then
      before.map fun _ => some (Grant.untilNs granted expiresAtNs nowNs)
    else before
  | .deleteData userId _ => if userId = id then none else before
  | _ => before

theorem standing_insert (r : UserRegistry) (userId : String) (rec : UserRecord) (id : String)
    (cat : DataCategory) : standing (r.insert userId rec) id cat =
      if userId = id then some (rec.consent.get cat.asStr) else standing r id cat := by
  rw [standing, KeyedMap.get_insert]
  by_cases same : userId = id
  · simp [same]
  · simp [standing, same, Ne.symm same]

theorem consent_new (profile : UserProfile) (key : String) :
    (UserRecord.new profile).consent.get key = none := by
  simp [UserRecord.new, KeyedMap.get, KeyedMap.empty]

theorem standing_getMut {A : Type} (r : UserRegistry) (userId : String)
    (f : UserRecord → UserRecord × A) (id : String) (cat : DataCategory) :
    standing (getMut r userId f).1 id cat =
      if userId = id then (r.get id).map fun rec => (f rec).1.consent.get cat.asStr
      else standing r id cat := by
  by_cases same : userId = id
  · subst same
    cases found : r.get userId <;> simp [getMut, standing, found]
  · cases found : r.get userId <;> simp [getMut, found, same, standing_insert]

theorem standing_grant (r : UserRegistry) (userId : String) (category : DataCategory) (g : Grant)
    (id : String) (cat : DataCategory) :
    standing (getMut r userId fun rec =>
        ({ rec with consent := rec.consent.insert category.asStr g }, ())).1 id cat =
      if userId = id ∧ category = cat then (standing r id cat).map fun _ => some g
      else standing r id cat := by
  rw [standing_getMut]
  by_cases same : userId = id
  · by_cases alike : category = cat
    · simp [same, alike, standing, Function.comp_def]
    · have apart : cat.asStr ≠ category.asStr :=
        fun h => alike (DataCategory.asStr_injective h).symm
      simp [same, alike, standing, KeyedMap.get_insert_other apart]
  · simp [same]

theorem standing_consent (r : UserRegistry) (userId : String) (category : DataCategory)
    (granted : Bool) (nowNs : Nat) (id : String) (cat : DataCategory) :
    standing (consent r userId category granted nowNs).1 id cat =
      if userId = id ∧ category = cat then
        (standing r id cat).map fun _ => some (Grant.perpetual granted nowNs)
      else standing r id cat :=
  standing_grant r userId category (Grant.perpetual granted nowNs) id cat

theorem standing_remove (r : UserRegistry) (userId id : String) (cat : DataCategory) :
    standing (r.remove userId) id cat = if userId = id then none else standing r id cat := by
  rw [standing, KeyedMap.get_remove]
  by_cases same : userId = id
  · simp [same]
  · simp [standing, same, Ne.symm same]

/-! ## What an expiry check does -/

/-- A grant after an expiry check. -/
def swept (nowNs : Nat) (g : Grant) : Grant :=
  if g.lapsed nowNs then Grant.perpetual false nowNs else g

def listed (id : String) (cat : DataCategory) (expired : List ExpiredGrant) : Bool :=
  expired.any fun e => e.userId = id ∧ e.category = cat.asStr

theorem standing_revoke (debug : String → String) (nowNs : Nat) (r : UserRegistry)
    (e : ExpiredGrant) (id : String) (cat : DataCategory) :
    standing (revoke debug nowNs r e) id cat =
      if e.userId = id ∧ e.category = cat.asStr then
        (standing r id cat).map fun _ => some (Grant.perpetual false nowNs)
      else standing r id cat := by
  cases read : DataCategory.fromStr debug e.category with
  | ok category =>
    have spelled : e.category = cat.asStr ↔ category = cat := by
      rw [DataCategory.fromStr_iff.mp read, DataCategory.asStr_injective.eq_iff]
    simp only [revoke, read, standing_consent, spelled]
  | error message =>
    have other : e.category ≠ cat.asStr := by
      intro spelled
      rw [DataCategory.fromStr_iff.mpr spelled] at read
      cases read
    simp [revoke, read, other]

theorem standing_revoked (debug : String → String) (nowNs : Nat) (expired : List ExpiredGrant)
    (r : UserRegistry) (id : String) (cat : DataCategory) :
    standing (expired.foldl (revoke debug nowNs) r) id cat =
      if listed id cat expired then
        (standing r id cat).map fun _ => some (Grant.perpetual false nowNs)
      else standing r id cat := by
  induction expired generalizing r with
  | nil => rfl
  | cons e rest ih =>
    rw [List.foldl_cons, ih, standing_revoke]
    by_cases here : e.userId = id ∧ e.category = cat.asStr
    · by_cases later : listed id cat rest <;>
        simp [listed, here, Function.comp_def]
    · simp [listed, here]

theorem listed_scan {r : UserRegistry} {nowNs : Nat} {id : String} {cat : DataCategory} :
    listed id cat (scanExpiredGrants (userConsent r) nowNs).expiredGrants = true ↔
      ∃ g, grantOf r id cat = some g ∧ g.lapsed nowNs = true := by
  simp only [listed, scanExpiredGrants_eq, List.any_eq_true, List.mem_flatMap,
    decide_eq_true_iff]
  constructor
  · rintro ⟨e, ⟨user, member, expired⟩, rfl, category⟩
    obtain ⟨⟨key, rec⟩, inside, rfl⟩ := List.mem_map.mp member
    obtain ⟨named, other, g, found, spelled, -⟩ := mem_expiredOf.mp expired
    obtain rfl := DataCategory.asStr_injective (category.symm.trans spelled)
    obtain ⟨held, lapsed⟩ := lapsedIn_iff.mp found
    have here := KeyedMap.mem_entries.mp inside
    refine ⟨g, ?_, lapsed⟩
    simp only at named held
    simp [grantOf, standing, named, here, held]
  · rintro ⟨g, found, lapsed⟩
    obtain ⟨rec, here, held⟩ : ∃ rec, r.get id = some rec ∧ rec.consent.get cat.asStr = some g := by
      simpa [grantOf, standing, Option.join_eq_some_iff] using found
    obtain ⟨-, expires, limit, -⟩ := Grant.lapsed_iff.mp lapsed
    refine ⟨⟨id, cat.asStr, expires⟩, ⟨(id, rec.consent), ?_, ?_⟩, rfl, rfl⟩
    · exact List.mem_map.mpr ⟨(id, rec), KeyedMap.mem_entries.mpr here, rfl⟩
    · exact mem_expiredOf.mpr ⟨rfl, cat, g, lapsedIn_iff.mpr ⟨held, lapsed⟩, rfl, limit⟩

theorem standing_expiryCheck (debug : String → String) (r : UserRegistry) (nowNs : Nat)
    (id : String) (cat : DataCategory) :
    standing (expiryCheck debug r nowNs).1 id cat =
      (standing r id cat).map fun found => found.map (swept nowNs) := by
  rw [expiryCheck, standing_revoked]
  cases before : standing r id cat with
  | none => simp
  | some found =>
    have grant : grantOf r id cat = found := by simp [grantOf, before]
    by_cases past : ∃ g, grantOf r id cat = some g ∧ g.lapsed nowNs = true
    · rw [if_pos (listed_scan.mpr past)]
      obtain ⟨g, here, lapsed⟩ := past
      obtain rfl := grant.symm.trans here
      simp [swept, lapsed]
    · rw [if_neg (fun h => past (listed_scan.mp h))]
      cases found with
      | none => rfl
      | some g =>
        have running : g.lapsed nowNs = false := by
          rw [← Bool.not_eq_true]
          exact fun lapsed => past ⟨g, grant, lapsed⟩
        simp [swept, running]

/-- What stands about the category after an operation. -/
def settled (id : String) (cat : DataCategory) (before : Option (Option Grant))
    (o : Operation) : Option (Option Grant) :=
  match o with
  | .expiryCheck nowNs => before.map fun found => found.map (swept nowNs)
  | o => said id cat before o

theorem standing_perform (debug : String → String) (r : UserRegistry) (o : Operation)
    (id : String) (cat : DataCategory) :
    standing (perform debug r o).1 id cat = settled id cat (standing r id cat) o := by
  cases o with
  | register profile =>
    simp only [perform, register, settled, said, Prod.map_fst]
    split
    · next known =>
      by_cases same : profile.userId = id
      · obtain ⟨rec, found⟩ := Option.isSome_iff_exists.mp known
        subst same
        simp [standing, found]
      · simp [same]
    · next fresh =>
      have absent : r.get profile.userId = none := by simpa using fresh
      by_cases same : profile.userId = id
      · subst same
        have before : standing r profile.userId cat = none := by simp [standing, absent]
        simp [standing_insert, before, consent_new]
      · simp [standing_insert, same]
  | upsert profile =>
    simp only [perform, upsert, settled, said, Prod.map_fst]
    by_cases same : profile.userId = id
    · subst same
      cases found : r.get profile.userId with
      | none =>
        have before : standing r profile.userId cat = none := by simp [standing, found]
        simp [standing_insert, before, consent_new]
      | some rec =>
        have before : standing r profile.userId cat = some (rec.consent.get cat.asStr) := by
          simp [standing, found]
        simp [standing_insert, before]
    · cases found : r.get profile.userId <;> simp [standing_insert, same]
  | remove userId =>
    simp only [perform, remove, settled, said, Prod.map_fst]
    cases found : r.get userId with
    | some rec => exact standing_remove r userId id cat
    | none =>
      by_cases same : userId = id
      · subst same
        simp [standing, found]
      · simp [same]
  | setTrust userId tier nowNs =>
    simp only [perform, setTrust, settled, said, Prod.map_fst, id_eq, standing_getMut]
    split
    · rfl
    · rfl
  | setFact userId key value nowNs =>
    simp only [perform, setFact, settled, said, Prod.map_fst, id_eq, standing_getMut]
    split
    · rfl
    · rfl
  | consent userId category granted nowNs => exact standing_consent r userId category _ _ id cat
  | consentUntil userId category granted expiresAtNs nowNs =>
    exact standing_grant r userId category (Grant.untilNs granted expiresAtNs nowNs) id cat
  | deleteData userId nowNs =>
    simp only [perform, deleteData, settled, said, Prod.map_fst, id_eq]
    cases found : r.get userId with
    | some rec => simpa [remove, found] using standing_remove r userId id cat
    | none =>
      by_cases same : userId = id
      · subst same
        simp [standing, found]
      · simp [same]
  | expiryCheck nowNs => exact standing_expiryCheck debug r nowNs id cat

/-! ## The last word on a category -/

/-- Two standings that answer alike at every time from `nowNs` on. -/
def Alike (nowNs : Nat) (s t : Option (Option Grant)) : Prop :=
  s.isSome = t.isSome ∧ ∀ later, nowNs ≤ later →
    s.join.any (fun g => g.isActive later) = t.join.any fun g => g.isActive later

theorem Alike.ite {nowNs : Nat} {s t s' t' : Option (Option Grant)} {p : Prop} [Decidable p]
    (changed : Alike nowNs s' t') (alike : Alike nowNs s t) :
    Alike nowNs (if p then s' else s) (if p then t' else t) := by
  split
  · exact changed
  · exact alike

theorem Alike.granted {nowNs : Nat} {s t : Option (Option Grant)} (alike : Alike nowNs s t)
    (g : Grant) : Alike nowNs (s.map fun _ => some g) (t.map fun _ => some g) := by
  have present := alike.1
  cases s <;> cases t <;> simp_all [Alike]

theorem Alike.said {nowNs : Nat} {s t : Option (Option Grant)} (alike : Alike nowNs s t)
    (id : String) (cat : DataCategory) (o : Operation) :
    Alike nowNs (said id cat s o) (said id cat t o) := by
  have known : Alike nowNs (some s.join) (some t.join) := ⟨rfl, alike.2⟩
  have gone : Alike nowNs none none := ⟨rfl, fun _ _ => rfl⟩
  cases o with
  | register profile => exact known.ite alike
  | upsert profile => exact known.ite alike
  | remove userId => exact gone.ite alike
  | setTrust userId tier clock => exact alike
  | setFact userId key value clock => exact alike
  | consent userId category granted clock => exact (alike.granted _).ite alike
  | consentUntil userId category granted expiresAtNs clock => exact (alike.granted _).ite alike
  | deleteData userId clock => exact gone.ite alike
  | expiryCheck clock => exact alike

theorem Alike.swept {nowNs clock : Nat} {s t : Option (Option Grant)} (alike : Alike nowNs s t)
    (past : clock ≤ nowNs) :
    Alike nowNs (s.map fun found => found.map (swept clock)) t := by
  refine ⟨by simpa using alike.1, fun later after => ?_⟩
  rw [← alike.2 later after]
  rcases s with _ | _ | g
  · rfl
  · rfl
  · by_cases lapsed : g.lapsed clock = true
    · have ended := Grant.lapsed_inactive lapsed (Nat.le_trans past after)
      have revoked : (Grant.perpetual false clock).isActive later = false := rfl
      simp [ConsentRegistry.swept, lapsed, ended, revoked]
    · simp [ConsentRegistry.swept, lapsed]

/-- An expiry check keeps the answers from its clock on, and every other operation says the same
with and without it. -/
theorem Alike.settled {nowNs : Nat} {s t : Option (Option Grant)} (alike : Alike nowNs s t)
    (id : String) (cat : DataCategory) (o : Operation)
    (past : ∀ clock, o = .expiryCheck clock → clock ≤ nowNs) :
    Alike nowNs (settled id cat s o) (ConsentRegistry.said id cat t o) := by
  by_cases checks : ∃ clock, o = .expiryCheck clock
  · obtain ⟨clock, rfl⟩ := checks
    exact alike.swept (past clock rfl)
  · have same : ConsentRegistry.settled id cat s o = ConsentRegistry.said id cat s o := by
      cases o <;> first | rfl | exact absurd ⟨_, rfl⟩ checks
    exact same ▸ alike.said id cat o

/-- The operations whose outcome was written out. -/
def performed (commands : List Command) : List Operation :=
  (commands.filter Command.flushed).map Command.operation

theorem final_alike (debug : String → String) {nowNs : Nat} {commands : List Command}
    (past : ∀ clock, .expiryCheck clock ∈ performed commands → clock ≤ nowNs)
    (id : String) (cat : DataCategory) {r : UserRegistry} {t : Option (Option Grant)}
    (alike : Alike nowNs (standing r id cat) t) :
    Alike nowNs (standing (final (step debug) r commands) id cat)
      ((performed commands).foldl (said id cat) t) := by
  induction commands generalizing r t with
  | nil => exact alike
  | cons c rest ih =>
    cases written : c.flushed with
    | false =>
      have same : performed (c :: rest) = performed rest := by simp [performed, written]
      rw [same] at past ⊢
      refine ih past ?_
      simpa [step, written] using alike
    | true =>
      have more : performed (c :: rest) = c.operation :: performed rest := by
        simp [performed, written]
      rw [more] at past ⊢
      refine ih (fun clock inside => past clock (List.mem_cons_of_mem _ inside)) ?_
      simp only [step, written, if_true, standing_perform]
      exact alike.settled id cat c.operation
        fun clock here => past clock (here ▸ List.mem_cons_self)

/-- Whatever users, grants and expiry checks come and go: a write at a time that no expiry check
was ahead of passes the gate exactly when the last word on its category, since the user was
registered, is a grant that is active then. -/
theorem consent_is_last_word (debug : String → String) (commands : List Command) (nowNs : Nat)
    (past : ∀ clock, .expiryCheck clock ∈ performed commands → clock ≤ nowNs) (id : String)
    (cat : DataCategory) :
    let r := final (step debug) KeyedMap.empty commands
    let word := (performed commands).foldl (said id cat) none
    (r.get id).isSome = word.isSome ∧
    ∀ rec, r.get id = some rec →
      ((checkWriteAllowed debug id cat rec.consent nowNs).isAllowed = true ↔
        ∃ g, word = some (some g) ∧ g.isActive nowNs = true) := by
  intro r word
  have start : Alike nowNs (standing KeyedMap.empty id cat) none := ⟨rfl, fun _ _ => rfl⟩
  obtain ⟨present, active⟩ := final_alike debug past id cat start
  refine ⟨by simpa [standing] using present, ?_⟩
  intro rec found
  have answer := active nowNs (Nat.le_refl _)
  have held : standing r id cat = some (rec.consent.get cat.asStr) := by simp [standing, found]
  rw [checkWriteAllowed_iff]
  have read : (standing r id cat).join.any (fun g => g.isActive nowNs) = true ↔
      ∃ g, rec.consent.get cat.asStr = some g ∧ g.isActive nowNs = true := by
    simp [held, Option.any_eq_true]
  rw [← read, answer, Option.any_eq_true]
  simp [word, Option.join_eq_some_iff]

theorem consent_is_last_word_lapse :
    let commands : List Command := [
      ⟨.register (UserProfile.new "telegram:1" "Ada" "telegram" 0), true⟩,
      ⟨.consentUntil "telegram:1" .episodicMemory true 50 1, true⟩,
      ⟨.consent "telegram:1" .usageStats true 2, true⟩, ⟨.expiryCheck 60, true⟩]
    let r := final (step id) KeyedMap.empty commands
    (∀ clock, .expiryCheck clock ∈ performed commands → clock ≤ 60) ∧
    ∀ rec, r.get "telegram:1" = some rec →
      (checkWriteAllowed id "telegram:1" .usageStats rec.consent 60).isAllowed = true := by
  intro commands r
  have past : ∀ clock, .expiryCheck clock ∈ performed commands → clock ≤ 60 := by
    intro clock inside
    simp [commands, performed] at inside
    omega
  refine ⟨past, fun rec found => ?_⟩
  exact ((consent_is_last_word id commands 60 past "telegram:1" .usageStats).2 rec found).mpr
    ⟨Grant.perpetual true 2, by decide, rfl⟩

/-! ## How often a lapse is reported -/

/-- A grant with an end, which a later check may report. -/
def limited (found : Option Grant) : Bool :=
  found.any fun g => g.granted && g.expiresAtNs.isSome

/-- The call is a written out expiry check that reports the category of the user. -/
def reports (id : String) (cat : DataCategory) (c : Call UserRegistry Command Response) : Bool :=
  c.request.flushed &&
    match c.response with
    | .report report => listed id cat report.expiredGrants
    | _ => false

/-- The call gives a grant with an end for the category of the user. -/
def limits (id : String) (cat : DataCategory) (c : Call UserRegistry Command Response) : Bool :=
  c.request.flushed &&
    match c.request.operation, c.response with
    | .consentUntil userId category granted _ _, .done (.ok _) =>
      granted && decide (userId = id ∧ category = cat)
    | _, _ => false

theorem grantOf_expiryCheck (debug : String → String) (r : UserRegistry) (nowNs : Nat)
    (id : String) (cat : DataCategory) :
    grantOf (expiryCheck debug r nowNs).1 id cat = (grantOf r id cat).map (swept nowNs) := by
  rw [grantOf, standing_expiryCheck, grantOf]
  rcases standing r id cat with _ | _ | g <;> rfl

theorem swept_lapsed (g : Grant) {nowNs clock : Nat} (early : clock ≤ nowNs) :
    (swept nowNs g).lapsed clock = false := by
  by_cases lapsed : g.lapsed nowNs = true
  · rw [swept, if_pos lapsed]
    rfl
  · rw [swept, if_neg lapsed, ← Bool.not_eq_true]
    exact fun sooner => lapsed (Grant.lapsed_mono sooner early)

theorem report_spends (debug : String → String) (r : UserRegistry) (nowNs : Nat) (id : String)
    (cat : DataCategory) :
    (listed id cat (expiryCheck debug r nowNs).2.expiredGrants).toNat +
        (limited (grantOf (expiryCheck debug r nowNs).1 id cat)).toNat ≤
      (limited (grantOf r id cat)).toNat := by
  rw [grantOf_expiryCheck]
  cases reported : listed id cat (expiryCheck debug r nowNs).2.expiredGrants with
  | true =>
    obtain ⟨g, found, lapsed⟩ := listed_scan.mp reported
    obtain ⟨given, expires, limit, -⟩ := Grant.lapsed_iff.mp lapsed
    simp [found, swept, lapsed, limited, given, limit, Grant.perpetual]
  | false =>
    cases found : grantOf r id cat with
    | none => simp [limited]
    | some g =>
      by_cases lapsed : g.lapsed nowNs = true
      · have listed := listed_scan.mpr ⟨g, found, lapsed⟩
        exact absurd (listed.symm.trans reported) (by decide)
      · simp [swept, lapsed]

theorem said_limited {id : String} {cat : DataCategory} {before : Option (Option Grant)}
    {o : Operation} (open_ended : ∀ userId category expiresAtNs nowNs,
      o = .consentUntil userId category true expiresAtNs nowNs → ¬ (userId = id ∧ category = cat)) :
    (limited (said id cat before o).join).toNat ≤ (limited before.join).toNat := by
  have gone : (limited (none : Option (Option Grant)).join).toNat ≤ (limited before.join).toNat :=
    Nat.zero_le _
  cases o with
  | register profile => simp only [said]; split <;> exact Nat.le_refl _
  | upsert profile => simp only [said]; split <;> exact Nat.le_refl _
  | remove userId =>
    simp only [said]
    split
    · exact gone
    · exact Nat.le_refl _
  | setTrust userId tier nowNs => exact Nat.le_refl _
  | setFact userId key value nowNs => exact Nat.le_refl _
  | consent userId category granted nowNs =>
    simp only [said]
    split
    · cases before <;> simp [limited, Grant.perpetual]
    · exact Nat.le_refl _
  | consentUntil userId category granted expiresAtNs nowNs =>
    simp only [said]
    split
    · next same =>
      cases granted with
      | true => exact absurd same (open_ended _ _ _ _ rfl)
      | false => cases before <;> simp [limited, Grant.untilNs]
    · exact Nat.le_refl _
  | deleteData userId nowNs =>
    simp only [said]
    split
    · exact gone
    · exact Nat.le_refl _
  | expiryCheck nowNs => exact Nat.le_refl _

theorem step_reports (debug : String → String) (r : UserRegistry) (c : Command) (id : String)
    (cat : DataCategory) :
    (reports id cat ⟨r, c, (step debug r c).2⟩).toNat +
        (limited (grantOf (step debug r c).1 id cat)).toNat ≤
      (limits id cat ⟨r, c, (step debug r c).2⟩).toNat + (limited (grantOf r id cat)).toNat := by
  obtain ⟨o, flushed⟩ := c
  cases flushed with
  | false => simp [reports, limits, step]
  | true =>
    simp only [reports, limits, step, Bool.true_and, if_true]
    by_cases checks : ∃ nowNs, o = .expiryCheck nowNs
    · obtain ⟨nowNs, rfl⟩ := checks
      have spends := report_spends debug r nowNs id cat
      simpa [perform] using spends
    · have same : settled id cat (standing r id cat) o = said id cat (standing r id cat) o := by
        cases o <;> first | rfl | exact absurd ⟨_, rfl⟩ checks
      have silent : (match (perform debug r o).2 with
          | .report report => listed id cat report.expiredGrants
          | _ => false) = false := by
        cases o <;> first | rfl | exact absurd ⟨_, rfl⟩ checks
      rw [silent, grantOf, standing_perform, same]
      by_cases gives : ∃ expiresAtNs nowNs, o = .consentUntil id cat true expiresAtNs nowNs
      · obtain ⟨expiresAtNs, nowNs, rfl⟩ := gives
        cases found : r.get id with
        | none => simp [said, standing, found, limited]
        | some rec =>
          simp [said, standing, found, limited, perform, consentUntil, getMut, Grant.untilNs]
      · have kept : (limited (said id cat (standing r id cat) o).join).toNat ≤
            (limited (standing r id cat).join).toNat := by
          refine said_limited ?_
          rintro userId category expiresAtNs nowNs rfl ⟨rfl, rfl⟩
          exact gives ⟨expiresAtNs, nowNs, rfl⟩
        have before : (limited (grantOf r id cat)).toNat =
          (limited (standing r id cat).join).toNat := rfl
        simp only [Bool.toNat_false]
        omega

theorem run_reports (debug : String → String) (r : UserRegistry) (commands : List Command)
    (id : String) (cat : DataCategory) :
    (trace (step debug) r commands).countP (reports id cat) +
        (limited (grantOf (final (step debug) r commands) id cat)).toNat ≤
      (trace (step debug) r commands).countP (limits id cat) +
        (limited (grantOf r id cat)).toNat := by
  induction commands generalizing r with
  | nil => exact Nat.le_refl _
  | cons c rest ih =>
    have first := step_reports debug r c id cat
    have later := ih (step debug r c).1
    have unit : ∀ b : Bool, (if b = true then 1 else 0) = b.toNat := by decide
    simp only [trace, final, List.countP_cons, unit]
    omega

/-- A grant with an end is reported by at most one expiry check that is written out: after any
run, a stretch reports the category of a user at most once for each such grant it gives, and once
for the one it found. Right after a check, a check with a clock no later reports nothing. -/
theorem lapse_reported_once (debug : String → String) (before stretch : List Command)
    (id : String) (cat : DataCategory) :
    let r := final (step debug) KeyedMap.empty before
    let calls := trace (step debug) r stretch
    calls.countP (reports id cat) ≤
      calls.countP (limits id cat) + (limited (grantOf r id cat)).toNat ∧
    ∀ nowNs clock, clock ≤ nowNs →
      (expiryCheck debug (expiryCheck debug r nowNs).1 clock).2.expiredGrants = [] := by
  intro r calls
  refine ⟨Nat.le_of_add_right_le (run_reports debug r stretch id cat), ?_⟩
  intro nowNs clock early
  refine List.eq_nil_iff_forall_not_mem.mpr fun e inside => ?_
  have expired := inside
  simp only [expiryCheck, scanExpiredGrants_eq, List.mem_flatMap] at expired
  obtain ⟨user, -, expired⟩ := expired
  obtain ⟨-, other, -, -, spelled, -⟩ := mem_expiredOf.mp expired
  have reported : listed e.userId other
      (expiryCheck debug (expiryCheck debug r nowNs).1 clock).2.expiredGrants = true :=
    List.any_eq_true.mpr ⟨e, inside, by simp [spelled]⟩
  obtain ⟨g, found, lapsed⟩ := listed_scan.mp reported
  rw [grantOf_expiryCheck] at found
  obtain ⟨h, -, rfl⟩ := Option.map_eq_some_iff.mp found
  rw [swept_lapsed h early] at lapsed
  cases lapsed

end ConsentRegistry
