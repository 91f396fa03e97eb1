import AnimaOS.KeyedMap
import Mathlib

/-!
# What users consent to

The consent record of a user keeps a grant for each data category; a grant may
lapse. `scan_expired_grants` lists what has lapsed, with one cleanup directive a
user, and `check_write_allowed` decides a write on the same grants.
-/

namespace UserConsent

inductive DataCategory where
  | episodicMemory
  | identityFacts
  | usageStats
  | knowledgeCorpus
  deriving DecidableEq, Repr

namespace DataCategory

def asStr : DataCategory → String
  | episodicMemory => "episodic_memory"
  | identityFacts => "identity_facts"
  | usageStats => "usage_stats"
  | knowledgeCorpus => "knowledge_corpus"

def all : List DataCategory := [episodicMemory, identityFacts, usageStats, knowledgeCorpus]

def fromStr (debug : String → String) (s : String) : Except String DataCategory :=
  if s = "episodic_memory" then .ok episodicMemory
  else if s = "identity_facts" then .ok identityFacts
  else if s = "usage_stats" then .ok usageStats
  else if s = "knowledge_corpus" then .ok knowledgeCorpus
  else .error ("unknown data category: " ++ debug s)

theorem mem_all (cat : DataCategory) : cat ∈ all := by
  cases cat <;> simp [all]

theorem fromStr_asStr (debug : String → String) (cat : DataCategory) :
    fromStr debug cat.asStr = .ok cat := by
  cases cat <;> rfl

theorem fromStr_iff {debug : String → String} {s : String} {cat : DataCategory} :
    fromStr debug s = .ok cat ↔ s = cat.asStr := by
  constructor
  · intro read
    unfold fromStr at read
    split at read
    · next same => exact Except.ok.inj read ▸ same
    split at read
    · next same => exact Except.ok.inj read ▸ same
    split at read
    · next same => exact Except.ok.inj read ▸ same
    split at read
    · next same => exact Except.ok.inj read ▸ same
    · cases read
  · rintro rfl
    exact fromStr_asStr debug cat

theorem asStr_injective : Function.Injective asStr := by
  intro a b same
  have read := congrArg (fromStr id) same
  rw [fromStr_asStr, fromStr_asStr] at read
  exact Except.ok.inj read

end DataCategory

/-! ## Grants -/

structure Grant where
  granted : Bool
  expiresAtNs : Option Nat
  updatedAtNs : Nat
  deriving DecidableEq, Repr

namespace Grant

def perpetual (granted : Bool) (nowNs : Nat) : Grant := ⟨granted, none, nowNs⟩

def untilNs (granted : Bool) (expiresAtNs nowNs : Nat) : Grant :=
  ⟨granted, some expiresAtNs, nowNs⟩

def isActive (g : Grant) (nowNs : Nat) : Bool :=
  if !g.granted then false
  else
    match g.expiresAtNs with
    | none => true
    | some expires => nowNs < expires

/-- The grant was given, and its time is over. -/
def lapsed (g : Grant) (nowNs : Nat) : Bool :=
  g.granted && (g.expiresAtNs.map fun expires => decide (nowNs ≥ expires)).getD false

theorem lapsed_iff {g : Grant} {nowNs : Nat} :
    g.lapsed nowNs = true ↔ g.granted = true ∧ ∃ expires, g.expiresAtNs = some expires ∧
      expires ≤ nowNs := by
  cases limit : g.expiresAtNs <;> simp [lapsed, limit]

/-- A grant that was given is either active or has lapsed. -/
theorem lapsed_eq (g : Grant) (nowNs : Nat) :
    g.lapsed nowNs = (g.granted && !g.isActive nowNs) := by
  cases given : g.granted with
  | false => simp [lapsed, given]
  | true =>
    cases limit : g.expiresAtNs with
    | none => simp [lapsed, isActive, given, limit]
    | some expires =>
      by_cases past : nowNs < expires
      · simp [lapsed, isActive, given, limit, past]
      · simp [lapsed, isActive, given, limit, past, Nat.le_of_not_lt past]

theorem lapsed_mono {g : Grant} {nowNs later : Nat} (lapsed : g.lapsed nowNs = true)
    (after : nowNs ≤ later) : g.lapsed later = true := by
  obtain ⟨given, expires, limit, past⟩ := lapsed_iff.mp lapsed
  exact lapsed_iff.mpr ⟨given, expires, limit, Nat.le_trans past after⟩

theorem lapsed_inactive {g : Grant} {nowNs later : Nat} (lapsed : g.lapsed nowNs = true)
    (after : nowNs ≤ later) : g.isActive later = false := by
  have still := lapsed_mono lapsed after
  rw [lapsed_eq, Bool.and_eq_true, Bool.not_eq_true'] at still
  exact still.2

end Grant

abbrev ConsentRecord := KeyedMap String Grant

namespace ConsentRecord

def set (r : ConsentRecord) (category : DataCategory) (granted : Bool) (nowNs : Nat) :
    ConsentRecord :=
  r.insert category.asStr (Grant.perpetual granted nowNs)

def setUntil (r : ConsentRecord) (category : DataCategory) (granted : Bool)
    (expiresAtNs nowNs : Nat) : ConsentRecord :=
  r.insert category.asStr (Grant.untilNs granted expiresAtNs nowNs)

def isConsented (r : ConsentRecord) (category : DataCategory) (nowNs : Nat) : Bool :=
  ((r.get category.asStr).map fun g => g.isActive nowNs).getD false

end ConsentRecord

/-! ## The gate before a write -/

inductive ConsentCheckOutcome where
  | allowed
  | denied (reason : String)
  deriving DecidableEq, Repr

def ConsentCheckOutcome.isAllowed : ConsentCheckOutcome → Bool
  | .allowed => true
  | .denied _ => false

/-- The check; `debug` quotes the id as the formatter does. -/
def checkWriteAllowed (debug : String → String) (userId : String) (category : DataCategory)
    (consent : ConsentRecord) (nowNs : Nat) : ConsentCheckOutcome :=
  if ConsentRecord.isConsented consent category nowNs then .allowed
  else
    .denied ("user " ++ debug userId ++ " has not consented to retain data in category " ++
      category.asStr ++ "; write blocked")

theorem checkWriteAllowed_iff {debug : String → String} {userId : String} {category : DataCategory}
    {consent : ConsentRecord} {nowNs : Nat} :
    (checkWriteAllowed debug userId category consent nowNs).isAllowed = true ↔
      ∃ g, consent.get category.asStr = some g ∧ g.isActive nowNs = true := by
  cases found : consent.get category.asStr with
  | none => simp [checkWriteAllowed, ConsentRecord.isConsented, found,
      ConsentCheckOutcome.isAllowed]
  | some g =>
    cases active : g.isActive nowNs <;>
      simp [checkWriteAllowed, ConsentRecord.isConsented, found, active,
        ConsentCheckOutcome.isAllowed]

/-! ## Cleanup directives -/

structure RevocationDirective where
  userId : String
  revokedCategories : List String
  purgeSessions : Bool
  purgeEpisodicMemory : Bool
  purgeIdentityFacts : Bool
  purgeKnowledgeCorpus : Bool
  purgeUsageStats : Bool
  createdAtNs : Nat
  deriving DecidableEq, Repr

def RevocationDirective.purge (directive : RevocationDirective) : DataCategory →
    RevocationDirective
  | .episodicMemory => { directive with purgeEpisodicMemory := true, purgeSessions := true }
  | .identityFacts => { directive with purgeIdentityFacts := true }
  | .usageStats => { directive with purgeUsageStats := true }
  | .knowledgeCorpus => { directive with purgeKnowledgeCorpus := true }

def buildRevocationDirective (userId : String) (revokedCategories : List DataCategory)
    (nowNs : Nat) : RevocationDirective :=
  revokedCategories.foldl RevocationDirective.purge {
    userId := userId
    revokedCategories := revokedCategories.map DataCategory.asStr
    purgeSessions := false
    purgeEpisodicMemory := false
    purgeIdentityFacts := false
    purgeKnowledgeCorpus := false
    purgeUsageStats := false
    createdAtNs := nowNs }

theorem foldl_purge (directive : RevocationDirective) (cats : List DataCategory) :
    cats.foldl RevocationDirective.purge directive = { directive with
      purgeSessions := directive.purgeSessions || decide (.episodicMemory ∈ cats)
      purgeEpisodicMemory := directive.purgeEpisodicMemory || decide (.episodicMemory ∈ cats)
      purgeIdentityFacts := directive.purgeIdentityFacts || decide (.identityFacts ∈ cats)
      purgeKnowledgeCorpus := directive.purgeKnowledgeCorpus || decide (.knowledgeCorpus ∈ cats)
      purgeUsageStats := directive.purgeUsageStats || decide (.usageStats ∈ cats) } := by
  induction cats generalizing directive with
  | nil => simp
  | cons cat rest ih =>
    rw [List.foldl_cons, ih]
    cases cat <;> simp [RevocationDirective.purge]

/-! ## The scan for lapsed grants -/

structure ExpiredGrant where
  userId : String
  category : String
  expiredAtNs : Nat
  deriving DecidableEq, Repr

structure ExpiryReport where
  usersScanned : Nat
  expiredGrants : List ExpiredGrant
  directives : List RevocationDirective
  deriving DecidableEq, Repr

def ExpiryReport.isClean (report : ExpiryReport) : Bool := report.expiredGrants.isEmpty

def expiredGrant (consent : ConsentRecord) (nowNs : Nat) (cat : DataCategory) :
    Option (String × Grant) :=
  consent.entries.find? fun e => e.1 == cat.asStr && e.2.lapsed nowNs

def scanCategory (userId : String) (consent : ConsentRecord) (nowNs : Nat)
    (found : List ExpiredGrant × List DataCategory) (cat : DataCategory) :
    List ExpiredGrant × List DataCategory :=
  match expiredGrant consent nowNs cat with
  | some (_, grant) =>
    (found.1 ++ [⟨userId, cat.asStr, grant.expiresAtNs.getD nowNs⟩], found.2 ++ [cat])
  | none => found

def scanUser (nowNs : Nat) (report : ExpiryReport) (user : String × ConsentRecord) :
    ExpiryReport :=
  let found := DataCategory.all.foldl (scanCategory user.1 user.2 nowNs) (report.expiredGrants, [])
  { usersScanned := report.usersScanned + 1
    expiredGrants := found.1
    directives :=
      if found.2 = [] then report.directives
      else report.directives ++ [buildRevocationDirective user.1 found.2 nowNs] }

def scanExpiredGrants (users : List (String × ConsentRecord)) (nowNs : Nat) : ExpiryReport :=
  users.foldl (scanUser nowNs) ⟨0, [], []⟩

/-- The lapsed grant of a category, if it has one. -/
def lapsedIn (consent : ConsentRecord) (nowNs : Nat) (cat : DataCategory) : Option Grant :=
  (consent.get cat.asStr).filter fun g => g.lapsed nowNs

theorem expiredGrant_eq (consent : ConsentRecord) (nowNs : Nat) (cat : DataCategory) :
    (expiredGrant consent nowNs cat).map Prod.snd = lapsedIn consent nowNs cat := by
  apply Option.ext
  intro g
  simp only [lapsedIn, Option.filter_eq_some_iff, Option.map_eq_some_iff]
  constructor
  · rintro ⟨⟨key, _⟩, found, rfl⟩
    have listed := List.mem_of_find?_eq_some found
    have held := List.find?_some found
    simp only [Bool.and_eq_true, beq_iff_eq] at held
    obtain ⟨rfl, lapsed⟩ := held
    exact ⟨KeyedMap.mem_entries.mp listed, lapsed⟩
  · rintro ⟨here, lapsed⟩
    have listed := KeyedMap.mem_entries.mpr here
    cases found : expiredGrant consent nowNs cat with
    | none =>
      have none := List.find?_eq_none.mp found _ listed
      simp [lapsed] at none
    | some e =>
      have other := List.mem_of_find?_eq_some found
      have held := List.find?_some found
      simp only [Bool.and_eq_true, beq_iff_eq] at held
      have same : (cat.asStr, e.2) ∈ consent.entries := held.1 ▸ other
      exact ⟨e, rfl, KeyedList.value_unique consent.distinct same listed⟩

/-- What a user's lapsed grants are reported as. -/
def expiredOf (nowNs : Nat) (user : String × ConsentRecord) : List ExpiredGrant :=
  DataCategory.all.filterMap fun cat => (lapsedIn user.2 nowNs cat).map fun g =>
    ⟨user.1, cat.asStr, g.expiresAtNs.getD nowNs⟩

def revokedOf (nowNs : Nat) (user : String × ConsentRecord) : List DataCategory :=
  DataCategory.all.filter fun cat => (lapsedIn user.2 nowNs cat).isSome

theorem foldl_scanCategory (user : String × ConsentRecord) (nowNs : Nat)
    (found : List ExpiredGrant × List DataCategory) (cats : List DataCategory) :
    cats.foldl (scanCategory user.1 user.2 nowNs) found =
      (found.1 ++ cats.filterMap (fun cat => (lapsedIn user.2 nowNs cat).map fun g =>
          ⟨user.1, cat.asStr, g.expiresAtNs.getD nowNs⟩),
        found.2 ++ cats.filter fun cat => (lapsedIn user.2 nowNs cat).isSome) := by
  induction cats generalizing found with
  | nil => simp
  | cons cat rest ih =>
    rw [List.foldl_cons, ih, List.filterMap_cons, List.filter_cons, ← expiredGrant_eq]
    cases here : expiredGrant user.2 nowNs cat <;> simp [scanCategory, here]

theorem scanUser_eq (nowNs : Nat) (report : ExpiryReport) (user : String × ConsentRecord) :
    scanUser nowNs report user =
      { usersScanned := report.usersScanned + 1
        expiredGrants := report.expiredGrants ++ expiredOf nowNs user
        directives := report.directives ++
          if revokedOf nowNs user = [] then []
          else [buildRevocationDirective user.1 (revokedOf nowNs user) nowNs] } := by
  have found : DataCategory.all.foldl (scanCategory user.1 user.2 nowNs)
      (report.expiredGrants, []) =
      (report.expiredGrants ++ expiredOf nowNs user, revokedOf nowNs user) :=
    foldl_scanCategory user nowNs (report.expiredGrants, []) DataCategory.all
  simp only [scanUser, found]
  by_cases none : revokedOf nowNs user = [] <;> simp [none]

theorem scanExpiredGrants_eq (users : List (String × ConsentRecord)) (nowNs : Nat) :
    scanExpiredGrants users nowNs =
      { usersScanned := users.length
        expiredGrants := users.flatMap (expiredOf nowNs)
        directives := (users.filter fun user => revokedOf nowNs user ≠ []).map fun user =>
          buildRevocationDirective user.1 (revokedOf nowNs user) nowNs } := by
  suffices any : ∀ report : ExpiryReport, users.foldl (scanUser nowNs) report =
      { usersScanned := report.usersScanned + users.length
        expiredGrants := report.expiredGrants ++ users.flatMap (expiredOf nowNs)
        directives := report.directives ++
          (users.filter fun user => revokedOf nowNs user ≠ []).map fun user =>
            buildRevocationDirective user.1 (revokedOf nowNs user) nowNs } by
    have run := any ⟨0, [], []⟩
    simp only [Nat.zero_add, List.nil_append] at run
    exact run
  induction users with
  | nil => simp
  | cons user rest ih =>
    intro report
    rw [List.foldl_cons, ih, scanUser_eq]
    by_cases none : revokedOf nowNs user = [] <;> simp [none] <;> omega

/-! ## What a scan reports -/

/-- The directive orders everything to be purged that holds data of the category. -/
def RevocationDirective.covers (directive : RevocationDirective) (cat : DataCategory) : Prop :=
  directive.purge cat = directive

theorem directive_covers {userId : String} {cats : List DataCategory} {nowNs : Nat}
    {cat : DataCategory} :
    (buildRevocationDirective userId cats nowNs).covers cat ↔ cat ∈ cats := by
  simp only [RevocationDirective.covers, buildRevocationDirective, foldl_purge, Bool.false_or]
  cases cat <;> simp [RevocationDirective.purge]

theorem lapsedIn_iff {consent : ConsentRecord} {nowNs : Nat} {cat : DataCategory} {g : Grant} :
    lapsedIn consent nowNs cat = some g ↔
      consent.get cat.asStr = some g ∧ g.lapsed nowNs = true :=
  Option.filter_eq_some_iff

theorem mem_expiredOf {nowNs : Nat} {user : String × ConsentRecord} {e : ExpiredGrant} :
    e ∈ expiredOf nowNs user ↔ e.userId = user.1 ∧ ∃ cat g, lapsedIn user.2 nowNs cat = some g ∧
      e.category = cat.asStr ∧ g.expiresAtNs = some e.expiredAtNs := by
  simp only [expiredOf, List.mem_filterMap, Option.map_eq_some_iff]
  constructor
  · rintro ⟨cat, -, g, found, rfl⟩
    obtain ⟨-, expires, limit, -⟩ := Grant.lapsed_iff.mp (lapsedIn_iff.mp found).2
    exact ⟨rfl, cat, g, found, rfl, by simp [limit]⟩
  · rintro ⟨named, cat, g, found, category, limit⟩
    refine ⟨cat, cat.mem_all, g, found, ?_⟩
    cases e
    simp_all

theorem mem_revokedOf {nowNs : Nat} {user : String × ConsentRecord} {cat : DataCategory} :
    cat ∈ revokedOf nowNs user ↔ ∃ g, lapsedIn user.2 nowNs cat = some g := by
  simp [revokedOf, cat.mem_all, Option.isSome_iff_exists]

/-- A scan reports every grant whose time is past and nothing else, each with the time it ended;
no write on a reported grant passes the gate then or later. It has one directive for each user with
such a grant, in the order of the users, that names the categories and covers no others. -/
theorem consent_scan_exact (debug : String → String) (users : List (String × ConsentRecord))
    (nowNs : Nat) :
    let report := scanExpiredGrants users nowNs
    (∀ e, e ∈ report.expiredGrants ↔ ∃ user ∈ users, e.userId = user.1 ∧
      ∃ (cat : DataCategory) (g : Grant), user.2.get cat.asStr = some g ∧ g.granted = true ∧
        g.expiresAtNs = some e.expiredAtNs ∧ e.expiredAtNs ≤ nowNs ∧ e.category = cat.asStr) ∧
    (∀ user ∈ users, ∀ e ∈ expiredOf nowNs user, e ∈ report.expiredGrants ∧
      ∀ cat : DataCategory, e.category = cat.asStr → ∀ later, nowNs ≤ later →
        (checkWriteAllowed debug user.1 cat user.2 later).isAllowed = false) ∧
    List.Forall₂ (fun user directive =>
        directive.userId = user.1 ∧ directive.createdAtNs = nowNs ∧
        ∀ cat, (directive.covers cat ↔ ∃ g, lapsedIn user.2 nowNs cat = some g) ∧
          (cat.asStr ∈ directive.revokedCategories ↔ directive.covers cat))
      (users.filter fun user => expiredOf nowNs user ≠ []) report.directives := by
  intro report
  have reported : report.expiredGrants = users.flatMap (expiredOf nowNs) := by
    simp only [report, scanExpiredGrants_eq]
  refine ⟨?_, ?_, ?_⟩
  · intro e
    simp only [reported, List.mem_flatMap, mem_expiredOf, lapsedIn_iff, Grant.lapsed_iff]
    constructor
    · rintro ⟨user, listed, named, cat, g, ⟨held, given, _, limit, past⟩, category, ended⟩
      obtain rfl := Option.some.inj (limit.symm.trans ended)
      exact ⟨user, listed, named, cat, g, held, given, ended, past, category⟩
    · rintro ⟨user, listed, named, cat, g, held, given, ended, past, category⟩
      exact ⟨user, listed, named, cat, g, ⟨held, given, _, ended, past⟩, category, ended⟩
  · intro user listed e expired
    refine ⟨reported ▸ List.mem_flatMap.mpr ⟨user, listed, expired⟩, ?_⟩
    intro cat category later after
    obtain ⟨-, other, g, found, spelled, -⟩ := mem_expiredOf.mp expired
    obtain rfl := DataCategory.asStr_injective (category.symm.trans spelled)
    obtain ⟨held, lapsed⟩ := lapsedIn_iff.mp found
    rw [← Bool.not_eq_true, checkWriteAllowed_iff]
    rintro ⟨h, here, active⟩
    obtain rfl := Option.some.inj (held.symm.trans here)
    rw [Grant.lapsed_inactive lapsed after] at active
    cases active
  · have picked : users.filter (fun user => expiredOf nowNs user ≠ []) =
        users.filter fun user => revokedOf nowNs user ≠ [] := by
      refine List.filter_congr fun user _ => decide_eq_decide.mpr (not_congr ?_)
      simp [expiredOf, revokedOf, List.filterMap_eq_nil_iff, List.filter_eq_nil_iff]
    simp only [report, scanExpiredGrants_eq, picked, List.forall₂_map_right_iff,
      List.forall₂_same]
    intro user _
    refine ⟨?_, ?_, fun cat => ⟨directive_covers.trans mem_revokedOf, ?_⟩⟩
    · simp only [buildRevocationDirective, foldl_purge]
    · simp only [buildRevocationDirective, foldl_purge]
    · rw [directive_covers]
      simp only [buildRevocationDirective, foldl_purge]
      exact List.mem_map_of_injective DataCategory.asStr_injective

end UserConsent
