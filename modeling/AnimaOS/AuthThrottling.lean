import AnimaOS.AttemptWindow
import AnimaOS.AuthLimiter

/-!
# Guesses under interleaved connections

The lock is checked and the failure recorded in two critical sections with the
comparisons between them, and a request may present more than one token. The
limit on guesses holds in the runs that let no connection in beyond it, counting
those in flight, and in which no request compares a second wrong token.
-/

namespace AuthLimiter

open AttemptWindow

variable {IpAddr : Type} [DecidableEq IpAddr] (token : Option (List Char))

def wrongTokens (c : Connection IpAddr) : Nat :=
  (compared token c.authHeader c.query).count false

/-- The connection compares a wrong token, be it before the right one, or is refused. -/
def charged (c : Connection IpAddr) : Bool :=
  !authorised token c.authHeader c.query || 0 < wrongTokens token c

/-- The connection was let in, and its tokens are still to be compared. -/
def willGuess (ip : IpAddr) (c : Connection IpAddr) : Bool :=
  source token c = some ip && c.stage = .checked && charged token c

/-- The tokens of the connection were compared, and neither failure nor success is on record yet. -/
def hasGuessed (ip : IpAddr) (c : Connection IpAddr) : Bool :=
  source token c = some ip &&
    (c.stage = .refused || c.stage = .accepted && 0 < wrongTokens token c)

def guessStep (ip : IpAddr) (guesses : List Nat) : Event IpAddr → List Nat
  | .compared source right now =>
    if source = some ip && !right then guesses ++ [now] else guesses
  | .success other => if other = ip then [] else guesses
  | _ => guesses

/-- When wrong tokens from the address were compared since its last success. -/
def guesses (ip : IpAddr) (trace : List (Event IpAddr)) : List Nat :=
  trace.foldl (guessStep ip) []

/-- How often a lockout of the address was reported. -/
def lockouts (ip : IpAddr) (trace : List (Event IpAddr)) : Nat :=
  trace.countP fun e => e = .failure ip true

def inFlight (s : Server IpAddr) (ip : IpAddr) : Nat :=
  s.connections.countP (willGuess token ip) + s.connections.countP (hasGuessed token ip)

/-- As `is_locked` would answer at the instant. -/
def LockedAt (s : Server IpAddr) (ip : IpAddr) (now : Nat) : Prop :=
  (isLocked s.failures ip now).2 = true

/-- A connection with a wrong token is let in only with room for it: those in flight from its
address and the failures that still count stay below the limit. None compares a second wrong
token. -/
def Meets (s : Server IpAddr) (at' : Nat × Action IpAddr) : Prop :=
  ∀ n c ip, at'.2 = .advance n → s.connections[n]? = some c → source token c = some ip →
    (c.stage = .arrived → charged token c = true → ¬ LockedAt s ip at'.1 →
      inFlight token s ip + (live authFailureWindow at'.1 (failuresOf s.failures ip)).length <
        maxAuthFailures) ∧
    (c.stage = .checked → wrongTokens token c ≤ 1)

/-! ## One source at a time -/

def sourceOf (s : Server IpAddr) (ip : IpAddr) : Source where
  passed := s.connections.countP (willGuess token ip)
  failed := s.connections.countP (hasGuessed token ip)
  failures := failuresOf s.failures ip
  guesses := guesses ip s.trace
  lockouts := lockouts ip s.trace

theorem lockedAt_iff (s : Server IpAddr) (ip : IpAddr) (now : Nat) :
    LockedAt s ip now ↔ Locked maxAuthFailures authFailureWindow now (sourceOf token s ip) :=
  isLocked_iff s.failures ip now

theorem countP_replace {α : Type} {p : α → Bool} {l : List α} {n : Nat} {a : α}
    (found : l[n]? = some a) (b : α) :
    (l.set n b).countP p + (if p a then 1 else 0) = l.countP p + if p b then 1 else 0 := by
  obtain ⟨bound, rfl⟩ := List.getElem?_eq_some_iff.mp found
  have own : p l[n] = true → 0 < l.countP p := fun holds =>
    List.countP_pos_iff.mpr ⟨_, List.getElem_mem bound, holds⟩
  rw [List.countP_set bound]
  split
  · rename_i holds
    have := own holds
    omega
  · omega

omit [DecidableEq IpAddr] in
@[simp] theorem source_stage (c : Connection IpAddr) (stage : Stage) :
    source token { c with stage := stage } = source token c := by
  simp only [source]

omit [DecidableEq IpAddr] in
@[simp] theorem wrongTokens_stage (c : Connection IpAddr) (stage : Stage) :
    wrongTokens token { c with stage := stage } = wrongTokens token c := by
  simp only [wrongTokens]

omit [DecidableEq IpAddr] in
@[simp] theorem charged_stage (c : Connection IpAddr) (stage : Stage) :
    charged token { c with stage := stage } = charged token c := by
  simp only [charged, wrongTokens_stage]

omit [DecidableEq IpAddr] in
variable {token} in
theorem charged_eq_false {c : Connection IpAddr} :
    charged token c = false ↔
      authorised token c.authHeader c.query = true ∧ wrongTokens token c = 0 := by
  simp [charged]

/-- The connection counts where it was and where it goes; the rest of the source is read off the
step. -/
theorem advance_counts {s : Server IpAddr} {n : Nat} {c : Connection IpAddr}
    (found : s.connections[n]? = some c) (now : Nat) (ip : IpAddr) :
    let r := handle token s.failures c now
    let y := sourceOf token (serverStep token s (now, .advance n)) ip
    y.passed + (if willGuess token ip c then 1 else 0) =
        s.connections.countP (willGuess token ip) +
          (if willGuess token ip { c with stage := r.stage } then 1 else 0) ∧
    y.failed + (if hasGuessed token ip c then 1 else 0) =
        s.connections.countP (hasGuessed token ip) +
          (if hasGuessed token ip { c with stage := r.stage } then 1 else 0) ∧
    y.failures = failuresOf r.failures ip ∧
    y.guesses = r.events.foldl (guessStep ip) (guesses ip s.trace) ∧
    y.lockouts = lockouts ip s.trace + lockouts ip r.events := by
  have step : serverStep token s (now, .advance n) =
      ⟨(handle token s.failures c now).failures,
        s.connections.set n { c with stage := (handle token s.failures c now).stage },
        s.trace ++ (handle token s.failures c now).events⟩ := by
    simp [serverStep, found]
  simp only [step]
  exact ⟨countP_replace found _, countP_replace found _, rfl, List.foldl_append, List.countP_append⟩

theorem guesses_compared (ip : IpAddr) (source : Option IpAddr) (now : Nat) (answers : List Bool)
    (stamps : List Nat) :
    (answers.map fun right => Event.compared source right now).foldl (guessStep ip) stamps =
      if source = some ip then stamps ++ List.replicate (answers.count false) now else stamps := by
  induction answers generalizing stamps with
  | nil => simp
  | cons right rest ih =>
    rw [List.map_cons, List.foldl_cons, ih]
    by_cases own : source = some ip
    · cases right <;> simp [guessStep, own, List.replicate_succ]
    · simp [guessStep, own]

theorem lockouts_compared (ip : IpAddr) (source : Option IpAddr) (now : Nat)
    (answers : List Bool) :
    lockouts ip (answers.map fun right => Event.compared source right now) = 0 := by
  simp [lockouts]

theorem lockouts_failure (ip : IpAddr) (lockout : Bool) :
    lockouts ip [.failure ip lockout] = if lockout = true then 1 else 0 := by
  cases lockout <;> simp [lockouts]

/-- A connection from elsewhere leaves the failures of the address. -/
theorem handle_foreign {c : Connection IpAddr} {ip : IpAddr} (foreign : source token c ≠ some ip)
    (failures : KeyedMap IpAddr (List Nat)) (now : Nat) :
    let r := handle token failures c now
    failuresOf r.failures ip = failuresOf failures ip ∧
      (∀ stamps, r.events.foldl (guessStep ip) stamps = stamps) ∧ lockouts ip r.events = 0 := by
  have apart : ∀ {other}, source token c = some other → ip ≠ other := by
    rintro other own rfl
    exact foreign own
  cases stage : c.stage with
  | arrived =>
    cases own : source token c with
    | none => simp [handle, stage, own, lockouts]
    | some other =>
      have pruned := failuresOf_prune failures other now ip
      rw [if_neg (apart own)] at pruned
      have kept : failuresOf (isLocked failures other now).1 ip = failuresOf failures ip := pruned
      simp only [handle, stage, own]
      split <;> simp [kept, guessStep, lockouts]
  | checked =>
    have silent := guesses_compared ip (source token c) now (compared token c.authHeader c.query)
    have unreported := lockouts_compared ip (source token c) now
      (compared token c.authHeader c.query)
    simp only [if_neg foreign] at silent
    simp only [handle, stage]
    split <;> exact ⟨rfl, silent, unreported⟩
  | refused =>
    cases own : source token c with
    | none => simp [handle, stage, own, lockouts]
    | some other =>
      have recorded := recordFailure_failures failures other now ip
      rw [if_neg (apart own)] at recorded
      simp [handle, stage, own, recorded, guessStep, lockouts, (apart own).symm]
  | accepted =>
    cases own : source token c with
    | none => simp [handle, stage, own, lockouts]
    | some other =>
      have removed := failuresOf_remove failures other ip
      rw [if_neg (apart own)] at removed
      simp [handle, stage, own, recordSuccess, removed, guessStep, lockouts, (apart own).symm]
  | done => simp [handle, stage, lockouts]

section Stages

variable {s : Server IpAddr} {n : Nat} {c : Connection IpAddr} {ip : IpAddr}

theorem foreign_move (found : s.connections[n]? = some c) (foreign : source token c ≠ some ip)
    (now : Nat) :
    Move maxAuthFailures authFailureWindow now (Meets token s (now, .advance n))
      (sourceOf token s ip) (sourceOf token (serverStep token s (now, .advance n)) ip) := by
  obtain ⟨passed, failed, failures, guessed, reported⟩ := advance_counts token found now ip
  generalize sourceOf token (serverStep token s (now, .advance n)) ip = y at *
  obtain ⟨kept, silent, unreported⟩ := handle_foreign token foreign s.failures now
  rw [kept] at failures
  rw [silent] at guessed
  rw [unreported] at reported
  simp only [willGuess, hasGuessed, source_stage, foreign, decide_false, Bool.false_and,
    Bool.false_eq_true, if_false, Nat.add_zero] at passed failed
  exact .idle_of (Source.ext passed failed failures guessed reported)

theorem arrived_move (found : s.connections[n]? = some c) (own : source token c = some ip)
    (stage : c.stage = .arrived) (now : Nat) :
    Move maxAuthFailures authFailureWindow now (Meets token s (now, .advance n))
      (sourceOf token s ip) (sourceOf token (serverStep token s (now, .advance n)) ip) := by
  obtain ⟨passed, failed, failures, guessed, reported⟩ := advance_counts token found now ip
  generalize sourceOf token (serverStep token s (now, .advance n)) ip = y at *
  have pruned := failuresOf_prune s.failures ip now ip
  rw [if_pos rfl] at pruned
  have kept : failuresOf (isLocked s.failures ip now).1 ip =
      live authFailureWindow now (failuresOf s.failures ip) := pruned
  cases locked : (isLocked s.failures ip now).2 with
  | true =>
    apply Move.prune_of
    apply Source.ext <;>
      simp_all [handle, willGuess, hasGuessed, guessStep, lockouts, sourceOf]
  | false =>
    cases wrong : charged token c with
    | false =>
      apply Move.prune_of
      apply Source.ext <;>
        simp_all [handle, willGuess, hasGuessed, charged_stage, lockouts, sourceOf]
    | true =>
      have target : y = { sourceOf token s ip with
          passed := (sourceOf token s ip).passed + 1
          failures := live authFailureWindow now (failuresOf s.failures ip) } := by
        apply Source.ext <;>
          simp_all [handle, willGuess, hasGuessed, charged_stage, lockouts, sourceOf]
      rw [target]
      refine .pass _ fun meets => ?_
      exact (meets n c ip rfl found own).1 stage wrong (by simp [LockedAt, locked])

theorem checked_move (found : s.connections[n]? = some c) (own : source token c = some ip)
    (stage : c.stage = .checked) (now : Nat) :
    Move maxAuthFailures authFailureWindow now (Meets token s (now, .advance n))
      (sourceOf token s ip) (sourceOf token (serverStep token s (now, .advance n)) ip) := by
  obtain ⟨passed, failed, failures, guessed, reported⟩ := advance_counts token found now ip
  generalize sourceOf token (serverStep token s (now, .advance n)) ip = y at *
  have tried := guesses_compared ip (source token c) now (compared token c.authHeader c.query)
    (guesses ip s.trace)
  rw [if_pos own, ← wrongTokens] at tried
  have told : (handle token s.failures c now).events =
      (compared token c.authHeader c.query).map fun right =>
        .compared (source token c) right now := by
    simp only [handle, stage]
    split <;> rfl
  rw [told, tried] at guessed
  rw [told, lockouts_compared] at reported
  have untouched : (handle token s.failures c now).failures = s.failures := by
    simp only [handle, stage]
    split <;> rfl
  rw [untouched] at failures
  cases wrong : charged token c with
  | false =>
    obtain ⟨right, clean⟩ := charged_eq_false.mp wrong
    apply Move.idle_of
    apply Source.ext <;>
      simp_all [handle, willGuess, hasGuessed, sourceOf]
  | true =>
    have moved : hasGuessed token ip
        { c with stage := (handle token s.failures c now).stage } = true := by
      cases right : authorised token c.authHeader c.query with
      | true =>
        have some' : 0 < wrongTokens token c := by simpa [charged, right] using wrong
        simp_all [hasGuessed, handle]
      | false => simp_all [hasGuessed, handle]
    have fresh : hasGuessed token ip c = false := by simp [hasGuessed, stage]
    have left : willGuess token ip
        { c with stage := (handle token s.failures c now).stage } = false := by
      simp only [willGuess, handle, stage]
      split <;> simp
    have before : sourceOf token s ip = ⟨y.passed + 1, (sourceOf token s ip).failed,
        failuresOf s.failures ip, guesses ip s.trace, lockouts ip s.trace⟩ := by
      apply Source.ext <;> simp_all [willGuess, sourceOf]
    have after : y = ⟨y.passed, (sourceOf token s ip).failed + 1, failuresOf s.failures ip,
        guesses ip s.trace ++ List.replicate (wrongTokens token c) now, lockouts ip s.trace⟩ := by
      apply Source.ext <;> simp_all [sourceOf]
    rw [before, after]
    exact .guess _ _ _ _ _ _ fun meets => (meets n c ip rfl found own).2 stage

theorem refused_move (found : s.connections[n]? = some c) (own : source token c = some ip)
    (stage : c.stage = .refused) (now : Nat) :
    Move maxAuthFailures authFailureWindow now (Meets token s (now, .advance n))
      (sourceOf token s ip) (sourceOf token (serverStep token s (now, .advance n)) ip) := by
  obtain ⟨passed, failed, failures, guessed, reported⟩ := advance_counts token found now ip
  generalize sourceOf token (serverStep token s (now, .advance n)) ip = y at *
  have recorded := recordFailure_failures s.failures ip now ip
  rw [if_pos rfl] at recorded
  have told : lockouts ip (handle token s.failures c now).events =
      if (live authFailureWindow now (failuresOf s.failures ip)).length + 1 = maxAuthFailures
      then 1 else 0 := by
    simp only [handle, stage, own, lockouts_failure]
    exact if_congr (recordFailure_lockout s.failures ip now) rfl rfl
  rw [told] at reported
  have before : sourceOf token s ip = ⟨(sourceOf token s ip).passed, y.failed + 1,
      failuresOf s.failures ip, guesses ip s.trace, lockouts ip s.trace⟩ := by
    apply Source.ext <;> simp_all [handle, hasGuessed, sourceOf]
  have after : y = ⟨(sourceOf token s ip).passed, y.failed,
      live authFailureWindow now (failuresOf s.failures ip) ++ [now], guesses ip s.trace,
      lockouts ip s.trace +
        if (live authFailureWindow now (failuresOf s.failures ip)).length + 1 =
          maxAuthFailures then 1 else 0⟩ := by
    refine Source.ext ?_ ?_ ?_ ?_ reported <;>
      simp_all [handle, willGuess, guessStep, sourceOf, live]
  rw [before, after]
  exact .record _ _ _ _ _

theorem accepted_move (found : s.connections[n]? = some c) (own : source token c = some ip)
    (stage : c.stage = .accepted) (now : Nat) :
    Move maxAuthFailures authFailureWindow now (Meets token s (now, .advance n))
      (sourceOf token s ip) (sourceOf token (serverStep token s (now, .advance n)) ip) := by
  obtain ⟨passed, failed, failures, guessed, reported⟩ := advance_counts token found now ip
  generalize sourceOf token (serverStep token s (now, .advance n)) ip = y at *
  have removed := failuresOf_remove s.failures ip ip
  rw [if_pos rfl] at removed
  have before : sourceOf token s ip = ⟨y.passed,
      y.failed + if 0 < wrongTokens token c then 1 else 0, failuresOf s.failures ip,
      guesses ip s.trace, lockouts ip s.trace⟩ := by
    apply Source.ext <;> simp_all [handle, willGuess, hasGuessed, sourceOf]
  have after : y = ⟨y.passed, y.failed, [], [], lockouts ip s.trace⟩ := by
    apply Source.ext <;> simp_all [handle, guessStep, lockouts, recordSuccess]
  rw [before, after]
  exact .succeed _ _ _ _ _ _

theorem done_move (found : s.connections[n]? = some c) (stage : c.stage = .done) (now : Nat) :
    Move maxAuthFailures authFailureWindow now (Meets token s (now, .advance n))
      (sourceOf token s ip) (sourceOf token (serverStep token s (now, .advance n)) ip) := by
  obtain ⟨passed, failed, failures, guessed, reported⟩ := advance_counts token found now ip
  generalize sourceOf token (serverStep token s (now, .advance n)) ip = y at *
  apply Move.idle_of
  apply Source.ext <;> simp_all [handle, willGuess, hasGuessed, lockouts, sourceOf]

/-- What a step of a connection does to the source of an address. -/
theorem advance_move (found : s.connections[n]? = some c) (now : Nat) (ip : IpAddr) :
    Move maxAuthFailures authFailureWindow now (Meets token s (now, .advance n))
      (sourceOf token s ip) (sourceOf token (serverStep token s (now, .advance n)) ip) := by
  by_cases own : source token c = some ip
  case neg => exact foreign_move token found own now
  case pos =>
    cases stage : c.stage with
    | arrived => exact arrived_move token found own stage now
    | checked => exact checked_move token found own stage now
    | refused => exact refused_move token found own stage now
    | accepted => exact accepted_move token found own stage now
    | done => exact done_move token found stage now

end Stages

theorem sourceOf_move (s : Server IpAddr) (at' : Nat × Action IpAddr) (ip : IpAddr) :
    Move maxAuthFailures authFailureWindow at'.1 (Meets token s at') (sourceOf token s ip)
      (sourceOf token (serverStep token s at') ip) := by
  obtain ⟨now, action⟩ := at'
  cases action with
  | arrive peerIp authHeader query =>
    have same : sourceOf token (serverStep token s (now, .arrive peerIp authHeader query)) ip =
        sourceOf token s ip := by
      simp [serverStep, sourceOf, willGuess, hasGuessed]
    rw [same]
    exact .idle _
  | advance n =>
    cases found : s.connections[n]? with
    | none =>
      have same : serverStep token s (now, .advance n) = s := by simp [serverStep, found]
      rw [same]
      exact .idle _
    | some c =>
      exact advance_move token found now ip

/-! ## Runs -/

/-- The clock readings never go back. -/
def Clocked (steps : List (Nat × Action IpAddr)) : Prop := steps.Pairwise fun a b => a.1 ≤ b.1

def RunMeets (steps : List (Nat × Action IpAddr)) : Prop :=
  ∀ pre at' post, steps = pre ++ at' :: post → Meets token (server token pre) at'

theorem server_snoc (steps : List (Nat × Action IpAddr)) (at' : Nat × Action IpAddr) :
    server token (steps ++ [at']) = serverStep token (server token steps) at' :=
  List.foldl_append

omit [DecidableEq IpAddr] in
theorem Clocked.last {steps : List (Nat × Action IpAddr)} (clocked : Clocked steps) :
    ∃ now, ∀ at' ∈ steps, at'.1 ≤ now := by
  rcases List.eq_nil_or_concat steps with rfl | ⟨before, last, rfl⟩
  · exact ⟨0, by simp⟩
  · rw [List.concat_eq_append] at clocked ⊢
    obtain ⟨-, -, ordered⟩ := List.pairwise_append.mp clocked
    refine ⟨last.1, fun at' member => ?_⟩
    rcases List.mem_append.mp member with earlier | same
    · exact ordered at' earlier last (List.mem_singleton_self last)
    · rw [List.mem_singleton.mp same]

theorem bounded_run {steps : List (Nat × Action IpAddr)} (clocked : Clocked steps)
    (meets : RunMeets token steps) (ip : IpAddr) {now : Nat} (past : ∀ at' ∈ steps, at'.1 ≤ now) :
    Bounded maxAuthFailures authFailureWindow now (sourceOf token (server token steps) ip) := by
  induction steps using List.reverseRecOn generalizing now with
  | nil => exact bounded_new now
  | append_singleton steps at' ih =>
    obtain ⟨clocked, -, ordered⟩ := List.pairwise_append.mp clocked
    have here : ∀ before ∈ steps, before.1 ≤ at'.1 := fun before member =>
      ordered before member at' (List.mem_singleton_self at')
    have before := ih clocked (fun pre next post split => meets pre next (post ++ [at'])
      (by simp [split])) here
    have wide : 0 < authFailureWindow := by decide
    have after := before.move wide (sourceOf_move token (server token steps) at' ip)
      (meets steps at' [] rfl)
    rw [server_snoc]
    exact after.later (past at' (by simp))

theorem counted_step (s : Server IpAddr) (at' : Nat × Action IpAddr) (ip : IpAddr) :
    (¬ LockedAt s ip at'.1 ∧ LockedAt (serverStep token s at') ip at'.1 ∧
      lockouts ip (serverStep token s at').trace = lockouts ip s.trace + 1) ∨
    ((LockedAt s ip at'.1 ∨ ¬ LockedAt (serverStep token s at') ip at'.1) ∧
      lockouts ip (serverStep token s at').trace = lockouts ip s.trace) := by
  simp only [lockedAt_iff token]
  exact (sourceOf_move token s at' ip).counted (by decide) (by decide)

/-- While the address stays locked no lockout is reported. -/
theorem lockouts_held {pre rest : List (Nat × Action IpAddr)} {ip : IpAddr}
    (held : ∀ before at' after, rest = before ++ at' :: after →
      LockedAt (server token (pre ++ before)) ip at'.1) :
    lockouts ip (server token (pre ++ rest)).trace = lockouts ip (server token pre).trace := by
  induction rest using List.reverseRecOn with
  | nil => rw [List.append_nil]
  | append_singleton rest at' ih =>
    have same := ih fun before next after split =>
      held before next (after ++ [at']) (by simp [split])
    rw [← List.append_assoc, server_snoc, ← same]
    rcases counted_step token (server token (pre ++ rest)) at' ip with ⟨unlocked, -, -⟩ | ⟨-, kept⟩
    · exact absurd (held rest at' [] rfl) unlocked
    · exact kept

/-- Runs that let no guess in beyond the limit keep every window within it, and nothing done while
an address is locked locks it for longer. In every run a lockout begins with a step, and is reported
in that step and no other. -/
theorem throttling_bounds_guesses (steps : List (Nat × Action IpAddr)) (clocked : Clocked steps)
    (ip : IpAddr) :
    (RunMeets token steps →
      (∀ start, (within authFailureWindow start (guesses ip (server token steps).trace)).length ≤
        maxAuthFailures) ∧
      ∀ pre at' post, steps = pre ++ at' :: post → LockedAt (server token pre) ip at'.1 →
        ∀ later, at'.1 ≤ later → LockedAt (server token (pre ++ [at'])) ip later →
          LockedAt (server token pre) ip later) ∧
    (∀ pre post now later, steps = pre ++ post → now ≤ later →
      LockedAt (server token pre) ip later → LockedAt (server token pre) ip now) ∧
    ∀ pre first rest post, steps = pre ++ first :: (rest ++ post) →
      (¬ LockedAt (server token pre) ip first.1 ∧
          LockedAt (server token (pre ++ [first])) ip first.1 ↔
        lockouts ip (server token (pre ++ [first])).trace ≠ lockouts ip (server token pre).trace) ∧
      (¬ LockedAt (server token pre) ip first.1 →
        LockedAt (server token (pre ++ [first])) ip first.1 →
        (∀ before at' after, rest = before ++ at' :: after →
          LockedAt (server token (pre ++ [first] ++ before)) ip at'.1) →
        lockouts ip (server token (pre ++ [first] ++ rest)).trace =
          lockouts ip (server token pre).trace + 1) := by
  refine ⟨fun meets => ⟨fun start => ?_, ?_⟩, ?_, ?_⟩
  · obtain ⟨now, past⟩ := clocked.last
    exact (bounded_run token clocked meets ip past).guessed start
  · rintro pre at' post rfl locked later h still
    obtain ⟨clocked, -, ordered⟩ := List.pairwise_append.mp clocked
    have bounded := bounded_run token clocked
      (fun before next after split => meets before next (after ++ at' :: post) (by simp [split])) ip
      (fun before member => ordered before member at' List.mem_cons_self)
    rw [server_snoc] at still
    rw [lockedAt_iff token] at locked still ⊢
    exact (sourceOf_move token (server token pre) at' ip).unextended bounded locked h still
  · intro pre post now later _ h locked
    rw [lockedAt_iff token] at locked ⊢
    exact locked.earlier h
  · intro pre first rest post _
    have step := counted_step token (server token pre) first ip
    rw [← server_snoc] at step
    constructor
    · rcases step with ⟨unlocked, locked, told⟩ | ⟨same, kept⟩
      · exact ⟨fun _ => by omega, fun _ => ⟨unlocked, locked⟩⟩
      · constructor
        · rintro ⟨unlocked, locked⟩
          exact absurd locked (same.resolve_left unlocked)
        · exact fun changed => absurd kept changed
    · intro unlocked locked held
      rw [lockouts_held token held]
      rcases step with ⟨-, -, told⟩ | ⟨same, -⟩
      · exact told
      · exact absurd locked (same.resolve_left unlocked)

/-! ## Sample runs -/

theorem runMeets_iff (steps : List (Nat × Action IpAddr)) :
    RunMeets token steps ↔ ∀ k (bound : k < steps.length),
      Meets token (server token (steps.take k)) steps[k] := by
  constructor
  · intro meets k bound
    apply meets (steps.take k) steps[k] (steps.drop (k + 1))
    rw [← List.drop_eq_getElem_cons bound, List.take_append_drop]
  · rintro here pre at' post rfl
    have meets := here pre.length (by simp)
    simpa using meets

/-- `Meets`, with the connection and the address read off the state. -/
def meetsNow (s : Server IpAddr) (at' : Nat × Action IpAddr) : Bool :=
  match at'.2 with
  | .arrive _ _ _ => true
  | .advance n =>
    match s.connections[n]? with
    | none => true
    | some c =>
      match source token c with
      | none => true
      | some ip =>
        (c.stage ≠ .arrived || !charged token c || (isLocked s.failures ip at'.1).2 ||
          inFlight token s ip + (live authFailureWindow at'.1 (failuresOf s.failures ip)).length <
            maxAuthFailures) &&
        (c.stage ≠ .checked || wrongTokens token c ≤ 1)

theorem meets_of_meetsNow {s : Server IpAddr} {at' : Nat × Action IpAddr}
    (now : meetsNow token s at' = true) : Meets token s at' := by
  rintro n c ip advance found own
  simp only [meetsNow, advance, found, own, Bool.and_eq_true, Bool.or_eq_true,
    decide_eq_true_eq, Bool.not_eq_true'] at now
  obtain ⟨roomy, single⟩ := now
  refine ⟨fun arrived wrong unlocked => ?_, fun checked => single.resolve_left (by simp [checked])⟩
  rcases roomy with ((other | clean) | locked) | room
  · exact absurd arrived other
  · rw [wrong] at clean
    cases clean
  · exact absurd locked unlocked
  · exact room

def sampleToken : Option (List Char) := some "sekret".toList

def arrival : Action (BitVec 32) :=
  .arrive (some 0xc0a80007#32) (some "Bearer guess".toList) []

/-- The token of the header is wrong, the one of the query right. -/
def corrected : Action (BitVec 32) :=
  .arrive (some 0xc0a80007#32) (some "Bearer guess".toList) "token=sekret".toList

/-- Two connections from one address, the second let in while the first has its failure still to
be recorded; the third compares a wrong token before the right one. -/
def sampleSteps : List (Nat × Action (BitVec 32)) :=
  [(1, arrival), (2, .advance 0), (3, arrival), (4, .advance 0), (5, .advance 1), (6, .advance 0),
    (7, .advance 1), (8, corrected), (9, .advance 2), (10, .advance 1), (11, .advance 2)]

theorem sample_meets : RunMeets sampleToken sampleSteps := by
  have each : ∀ k (bound : k < sampleSteps.length),
      meetsNow sampleToken (server sampleToken (sampleSteps.take k)) sampleSteps[k] = true := by
    decide +kernel
  exact (runMeets_iff _ _).mpr fun k bound => meets_of_meetsNow _ (each k bound)

theorem sample_within_limit :
    guesses 0xc0a80007#32 (server sampleToken sampleSteps).trace = [4, 7, 11] ∧
    (within authFailureWindow 0
      (guesses 0xc0a80007#32 (server sampleToken sampleSteps).trace)).length ≤ maxAuthFailures :=
  ⟨by decide +kernel,
    ((throttling_bounds_guesses sampleToken sampleSteps (by unfold Clocked; decide) _).1
      sample_meets).1 0⟩

/-- Six connections are let in before the first of them has its failure recorded. -/
def floodSteps : List (Nat × Action (BitVec 32)) :=
  List.replicate 6 (0, arrival) ++ (List.range 6).map (fun n => (1, .advance n)) ++
    (List.range 6).map (fun n => (2, .advance n)) ++
    (List.range 6).map (fun n => (10000000000 * (n + 1), .advance n))

/-- One connection whose query presents six tokens. -/
def listSteps : List (Nat × Action (BitVec 32)) :=
  [(0, .arrive (some 0xc0a80007#32) none
      "token=g1&token=g2&token=g3&token=g4&token=g5&token=g6".toList),
    (1, .advance 0), (2, .advance 0)]

theorem flood_exceeds_limit :
    (Clocked floodSteps ∧
      (within authFailureWindow 0
        (guesses 0xc0a80007#32 (server sampleToken floodSteps).trace)).length = 6 ∧
      LockedAt (server sampleToken floodSteps.dropLast) 0xc0a80007#32 60000000000 ∧
      LockedAt (server sampleToken floodSteps) 0xc0a80007#32 75000000000 ∧
      ¬ LockedAt (server sampleToken floodSteps.dropLast) 0xc0a80007#32 75000000000) ∧
    Clocked listSteps ∧
    (within authFailureWindow 0
      (guesses 0xc0a80007#32 (server sampleToken listSteps).trace)).length = 6 ∧
    ¬ RunMeets sampleToken listSteps := by
  refine ⟨?_, ?_, ?_, fun meets => ?_⟩
  · unfold Clocked LockedAt
    decide +kernel
  · unfold Clocked
    decide
  · decide +kernel
  · have checked : (server sampleToken (listSteps.take 2)).connections[0]? =
        some ⟨some 0xc0a80007#32, none,
          "token=g1&token=g2&token=g3&token=g4&token=g5&token=g6".toList, .checked⟩ := by
      decide +kernel
    have single := ((runMeets_iff _ _).mp meets 2 (by decide) 0 _ _ rfl checked rfl).2 rfl
    revert single
    decide +kernel

end AuthLimiter
