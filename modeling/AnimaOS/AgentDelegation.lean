import AnimaOS.FixedWidth
import AnimaOS.KeyedMap
import AnimaOS.Machine
import AnimaOS.Numerals
import AnimaOS.PairedLog

/-!
# Delegation to other agents

`A2aDispatcher` serves `"delegate"` calls from several threads at once: a call
takes a number from the counter that all dispatchers share, announces itself in
the audit buffer, and settles with what its endpoint answers. Each of these is a
step of its own here, and `flush_audit` may come between any two of them.
-/

namespace AgentDelegation

open FixedWidth Machine PairedLog

universe u

/-! ## The protocol -/

structure A2aRequest where
  task : String
  context : String
  maxTurns : Nat
  deriving DecidableEq, Repr

structure A2aResponse where
  summary : String
  toolCallsMade : Nat
  success : Bool
  durationMs : Nat
  deriving DecidableEq, Repr

structure DelegatePayload where
  agent : String
  task : String
  context : String
  maxTurns : Nat
  deriving DecidableEq, Repr

inductive AuditEntry where
  | agentDelegated (parentAgentId targetAgentId delegationId task : String)
  | agentDelegationCompleted (parentAgentId targetAgentId delegationId : String)
      (success : Bool) (toolCallsMade durationMs : Nat) (summary : String)
  | agentDelegationFailed (parentAgentId targetAgentId delegationId reason : String)
  deriving DecidableEq, Repr

/-- The endpoints by their ids; a second one of an id replaces the first. -/
abbrev AgentPool (E : Type u) := KeyedMap String E

def register {E : Type u} (pool : AgentPool E) (endpointId : String) (endpoint : E) :
    AgentPool E :=
  pool.insert endpointId endpoint

/-- A dispatcher with the JSON reader and writer and the inner dispatcher it calls. -/
structure Dispatcher (E : Type u) where
  parse : String → Except String DelegatePayload
  encode : A2aResponse → Except String String
  inner : String → String → Except String String
  pool : AgentPool E
  parentAgentId : String

/-! ## Calls under way -/

structure Flight where
  payload : DelegatePayload
  delegationId : String
  announced : Bool
  deriving DecidableEq, Repr

structure World where
  counter : Nat
  flights : List Flight
  auditBuffer : List AuditEntry
  log : List AuditEntry
  deriving DecidableEq, Repr

def fresh : World := ⟨1, [], [], []⟩

def delegationId (counter : Nat) : String :=
  String.ofList ("dlg-".toList ++ Nat.toDigits 10 counter)

inductive Request (E : Type u) where
  | dispatch (toolName args : String)
  | announce (flight : Nat)
  | settle (flight : Nat) (invoke : E → A2aRequest → Except String A2aResponse)
      (elapsedMs : Nat)
  | flushAudit
  | elsewhere

inductive Response where
  | returned (result : Except String String)
  | underway
  | done

variable {E : Type u}

/-- What a delegation comes to: the entry about it and the result of the call. -/
def outcome (d : Dispatcher E) (f : Flight)
    (invoke : E → A2aRequest → Except String A2aResponse) (elapsedMs : Nat) :
    AuditEntry × Except String String :=
  let failed := AuditEntry.agentDelegationFailed d.parentAgentId f.payload.agent f.delegationId
  match d.pool.get f.payload.agent with
  | none =>
    let reason := "unknown agent: " ++ f.payload.agent
    (failed reason, .error reason)
  | some endpoint =>
    match invoke endpoint ⟨f.payload.task, f.payload.context, f.payload.maxTurns⟩ with
    | .ok resp =>
      let resp := { resp with durationMs := wrap 64 elapsedMs }
      (.agentDelegationCompleted d.parentAgentId f.payload.agent f.delegationId resp.success
        resp.toolCallsMade resp.durationMs resp.summary, d.encode resp)
    | .error err => (failed err, .error err)

def step (d : Dispatcher E) (s : World) : Request E → World × Response
  | .dispatch toolName args =>
    if toolName ≠ "delegate" then (s, .returned (d.inner toolName args))
    else
      match d.parse args with
      | .error e => (s, .returned (.error ("delegate: invalid JSON payload: " ++ e)))
      | .ok payload =>
        ({ s with
            counter := wrap 64 (s.counter + 1)
            flights := s.flights ++ [⟨payload, delegationId s.counter, false⟩] },
          .underway)
  | .announce flight =>
    match s.flights[flight]? with
    | some f =>
      if f.announced then (s, .underway)
      else
        ({ s with
            flights := s.flights.set flight { f with announced := true }
            auditBuffer := s.auditBuffer ++
              [.agentDelegated d.parentAgentId f.payload.agent f.delegationId f.payload.task] },
          .underway)
    | none => (s, .done)
  | .settle flight invoke elapsedMs =>
    match s.flights[flight]? with
    | some f =>
      if f.announced then
        let settled := outcome d f invoke elapsedMs
        ({ s with
            flights := s.flights.eraseIdx flight
            auditBuffer := s.auditBuffer ++ [settled.1] },
          .returned settled.2)
      else (s, .underway)
    | none => (s, .done)
  | .flushAudit => ({ s with auditBuffer := [], log := s.log ++ s.auditBuffer }, .done)
  | .elsewhere => ({ s with counter := wrap 64 (s.counter + 1) }, .done)

/-! ## Tickets -/

/-- What the entries about one delegation have in common. -/
structure Ticket where
  delegationId : String
  parentAgentId : String
  targetAgentId : String
  deriving DecidableEq, Repr

def markOf : AuditEntry → Mark Ticket
  | .agentDelegated parent target id _ => .opened ⟨id, parent, target⟩
  | .agentDelegationCompleted parent target id _ _ _ _ => .closed ⟨id, parent, target⟩
  | .agentDelegationFailed parent target id _ => .closed ⟨id, parent, target⟩

/-- Everything recorded so far, flushed or not. -/
def history (s : World) : List AuditEntry := s.log ++ s.auditBuffer

def marks (s : World) : List (Mark Ticket) := (history s).map markOf

def ticket (parent : String) (f : Flight) : Ticket := ⟨f.delegationId, parent, f.payload.agent⟩

def openTickets (parent : String) (s : World) : List Ticket :=
  (s.flights.filter Flight.announced).map (ticket parent)

theorem delegationId_inj {m n : Nat} (same : delegationId m = delegationId n) : m = n := by
  have digits : Nat.toDigits 10 m = Nat.toDigits 10 n :=
    List.append_cancel_left (String.ofList_injective same)
  have left := (Numerals.numeral_toDigits m).value
  have right := (Numerals.numeral_toDigits n).value
  rw [← left, ← right, digits]

theorem outcome_mark (d : Dispatcher E) (f : Flight)
    (invoke : E → A2aRequest → Except String A2aResponse) (elapsedMs : Nat) :
    markOf (outcome d f invoke elapsedMs).1 = .closed (ticket d.parentAgentId f) := by
  unfold outcome
  split
  · rfl
  · split <;> rfl

theorem flight_split {flights : List Flight} {i : Nat} {f : Flight}
    (found : flights[i]? = some f) :
    ∃ pre post, flights = pre ++ f :: post ∧ (∀ g, flights.set i g = pre ++ g :: post) ∧
      flights.eraseIdx i = pre ++ post := by
  obtain ⟨inside, rfl⟩ := List.getElem?_eq_some_iff.mp found
  refine ⟨flights.take i, flights.drop (i + 1), ?_, ?_, List.eraseIdx_eq_take_drop_succ _ _⟩
  · rw [← List.drop_eq_getElem_cons inside, List.take_append_drop]
  · intro g
    rw [List.set_eq_take_append_cons_drop, if_pos inside]

/-! ## What holds between any two steps -/

/-- The id is one of the first `m` that the counter gave out. -/
def Issued (m : Nat) (id : String) : Prop := ∃ k, 1 ≤ k ∧ k ≤ m ∧ id = delegationId k

theorem Issued.mono {m n : Nat} {id : String} (issued : Issued m id) (more : m ≤ n) :
    Issued n id := by
  obtain ⟨k, first, last, same⟩ := issued
  exact ⟨k, first, Nat.le_trans last more, same⟩

theorem next_unissued (m : Nat) : ¬ Issued m (delegationId (m + 1)) := by
  rintro ⟨k, -, last, same⟩
  have := delegationId_inj same
  omega

/-- After `m` ids were taken: the calls under way have ids of their own, and the history is a log
in which exactly the announced ones are open. -/
structure Consistent (parent : String) (m : Nat) (s : World) : Prop where
  counter : s.counter = wrap 64 (m + 1)
  distinct : (s.flights.map Flight.delegationId).Nodup
  issued : ∀ f ∈ s.flights, Issued m f.delegationId
  paired : ∃ st, replay Ticket.delegationId start (marks s) = some st ∧
    st.pending.Perm (openTickets parent s) ∧ (∀ id ∈ st.seen, Issued m id) ∧
    ∀ f ∈ s.flights, f.announced = false → f.delegationId ∉ st.seen

theorem fresh_consistent (parent : String) : Consistent parent 0 fresh where
  counter := rfl
  distinct := List.nodup_nil
  issued := by simp [fresh]
  paired := ⟨start, rfl, List.Perm.refl _, by simp [start], by simp [fresh]⟩

/-- Taking an id for another dispatcher leaves this one as it was. -/
theorem elsewhere_consistent {parent : String} {m : Nat} {s : World}
    (consistent : Consistent parent m s) :
    Consistent parent (m + 1) { s with counter := wrap 64 (s.counter + 1) } := by
  obtain ⟨counter, distinct, issued, st, accepted, pending, seen, free⟩ := consistent
  refine ⟨?_, distinct, fun f listed => (issued f listed).mono (Nat.le_succ m), st, accepted,
    pending, fun id listed => (seen id listed).mono (Nat.le_succ m), free⟩
  simp [counter, wrap]

theorem begin_consistent {parent : String} {m : Nat} {s : World} (room : m + 1 < 2 ^ 64)
    (consistent : Consistent parent m s) (payload : DelegatePayload) :
    Consistent parent (m + 1)
      { s with
        counter := wrap 64 (s.counter + 1)
        flights := s.flights ++ [⟨payload, delegationId s.counter, false⟩] } := by
  obtain ⟨counter, distinct, issued, st, accepted, pending, seen, free⟩ := consistent
  have now : s.counter = m + 1 := counter.trans (Nat.mod_eq_of_lt room)
  have own : ∀ id, Issued m id → id ≠ delegationId s.counter := by
    rintro id given rfl
    exact next_unissued m (now ▸ given)
  refine ⟨by simp [counter, wrap], ?_, ?_, st, accepted, ?_,
    fun id listed => (seen id listed).mono (Nat.le_succ m), ?_⟩
  · simp only [List.map_append, List.map_cons, List.map_nil]
    refine List.nodup_append.mpr ⟨distinct, List.nodup_singleton _, ?_⟩
    intro id listed other same
    obtain ⟨f, inside, rfl⟩ := List.mem_map.mp listed
    rw [List.mem_singleton.mp same]
    exact own _ (issued f inside)
  · intro f listed
    rcases List.mem_append.mp listed with before | last
    · exact (issued f before).mono (Nat.le_succ m)
    · rw [List.mem_singleton.mp last]
      exact ⟨m + 1, Nat.succ_pos m, Nat.le_refl _, congrArg delegationId now⟩
  · simpa [openTickets] using pending
  · intro f listed waiting
    rcases List.mem_append.mp listed with before | last
    · exact free f before waiting
    · rw [List.mem_singleton.mp last]
      exact fun listed => own _ (seen _ listed) rfl

theorem flush_consistent {parent : String} {m : Nat} {s : World}
    (consistent : Consistent parent m s) :
    Consistent parent m { s with auditBuffer := [], log := s.log ++ s.auditBuffer } := by
  obtain ⟨counter, distinct, issued, st, accepted, rest⟩ := consistent
  refine ⟨counter, distinct, issued, st, ?_, rest⟩
  simpa [marks, history] using accepted

/-- A flight in a list of flights with ids of their own is none of the others. -/
theorem distinct_split {pre post : List Flight} {f : Flight}
    (distinct : ((pre ++ f :: post).map Flight.delegationId).Nodup) :
    ((pre ++ post).map Flight.delegationId).Nodup ∧
    ∀ g ∈ pre ++ post, g.delegationId ≠ f.delegationId := by
  have moved : ((f :: (pre ++ post)).map Flight.delegationId).Nodup :=
    ((List.perm_middle.map Flight.delegationId).nodup_iff).mp distinct
  rw [List.map_cons, List.nodup_cons] at moved
  refine ⟨moved.2, fun g listed same => moved.1 ?_⟩
  exact same ▸ List.mem_map_of_mem listed

theorem openTickets_split (parent : String) (s : World) {pre post : List Flight} {f : Flight}
    (split : s.flights = pre ++ f :: post) :
    (openTickets parent s).Perm
      ((if f.announced then [ticket parent f] else []) ++
        ((pre ++ post).filter Flight.announced).map (ticket parent)) := by
  have moved : (s.flights.filter Flight.announced).Perm ((f :: (pre ++ post)).filter
      Flight.announced) := (split ▸ List.perm_middle).filter _
  refine (moved.map (ticket parent)).trans ?_
  by_cases announced : f.announced <;> simp [announced]

theorem announce_consistent {d : Dispatcher E} {m : Nat} {s : World}
    (consistent : Consistent d.parentAgentId m s) {i : Nat} {f : Flight}
    (found : s.flights[i]? = some f) (waiting : f.announced = false) :
    Consistent d.parentAgentId m
      { s with
        flights := s.flights.set i { f with announced := true }
        auditBuffer := s.auditBuffer ++
          [.agentDelegated d.parentAgentId f.payload.agent f.delegationId f.payload.task] } := by
  obtain ⟨counter, distinct, issued, st, accepted, pending, seen, free⟩ := consistent
  obtain ⟨pre, post, split, updated, -⟩ := flight_split found
  have member : f ∈ s.flights := List.mem_of_getElem? found
  have unseen := free f member waiting
  have before := openTickets_split d.parentAgentId s split
  simp only [waiting, Bool.false_eq_true, if_false, List.nil_append] at before
  rw [split] at distinct
  have others := (distinct_split distinct).2
  rw [updated]
  refine ⟨counter, by simpa using distinct, ?_,
    ⟨st.seen ++ [f.delegationId], st.pending ++ [ticket d.parentAgentId f]⟩, ?_, ?_, ?_, ?_⟩
  · intro g listed
    rcases List.mem_append.mp listed with early | late
    · exact issued g (split ▸ List.mem_append_left _ early)
    · rcases List.mem_cons.mp late with rfl | behind
      · exact issued f member
      · exact issued g (split ▸ List.mem_append_right _ (List.mem_cons_of_mem f behind))
  · have grown : marks { s with
        flights := pre ++ { f with announced := true } :: post
        auditBuffer := s.auditBuffer ++
          [.agentDelegated d.parentAgentId f.payload.agent f.delegationId f.payload.task] } =
        marks s ++ [.opened (ticket d.parentAgentId f)] := by
      simp [marks, history, markOf, ticket]
    rw [grown, replay_snoc _ accepted]
    simp [mark, ticket, unseen]
  · have more := (pending.trans before).append_right [ticket d.parentAgentId f]
    refine more.trans (List.perm_append_comm.trans ?_)
    exact (@openTickets_split d.parentAgentId (World.mk _ _ _ _) pre post
      { f with announced := true } rfl).symm
  · intro id listed
    rcases List.mem_append.mp listed with early | last
    · exact seen id early
    · rw [List.mem_singleton.mp last]
      exact issued f member
  · intro g listed idle
    have other : g ∈ pre ++ post := by
      rcases List.mem_append.mp listed with early | late
      · exact List.mem_append_left _ early
      · rcases List.mem_cons.mp late with rfl | behind
        · cases idle
        · exact List.mem_append_right _ behind
    have known : g ∈ s.flights := by
      rw [split]
      rcases List.mem_append.mp other with early | late
      · exact List.mem_append_left _ early
      · exact List.mem_append_right _ (List.mem_cons_of_mem f late)
    simp only [List.mem_append, List.mem_singleton, not_or]
    exact ⟨free g known idle, others g other⟩

theorem settle_consistent {d : Dispatcher E} {m : Nat} {s : World}
    (consistent : Consistent d.parentAgentId m s) {i : Nat} {f : Flight}
    (found : s.flights[i]? = some f) (announced : f.announced = true)
    (invoke : E → A2aRequest → Except String A2aResponse) (elapsedMs : Nat) :
    Consistent d.parentAgentId m
      { s with
        flights := s.flights.eraseIdx i
        auditBuffer := s.auditBuffer ++ [(outcome d f invoke elapsedMs).1] } := by
  obtain ⟨counter, distinct, issued, st, accepted, pending, seen, free⟩ := consistent
  obtain ⟨pre, post, split, -, erased⟩ := flight_split found
  have before := openTickets_split d.parentAgentId s split
  simp only [announced, if_true, List.singleton_append] at before
  have listed : ticket d.parentAgentId f ∈ st.pending :=
    (pending.trans before).mem_iff.mpr List.mem_cons_self
  have known : ∀ g ∈ pre ++ post, g ∈ s.flights := by
    intro g other
    rw [split]
    exact List.perm_middle.mem_iff.mpr (List.mem_cons_of_mem f other)
  rw [split] at distinct
  rw [erased]
  refine ⟨counter, (distinct_split distinct).1, fun g other => issued g (known g other),
    { st with pending := st.pending.erase (ticket d.parentAgentId f) }, ?_, ?_, seen,
    fun g other idle => free g (known g other) idle⟩
  · have grown : marks { s with
        flights := pre ++ post
        auditBuffer := s.auditBuffer ++ [(outcome d f invoke elapsedMs).1] } =
        marks s ++ [.closed (ticket d.parentAgentId f)] := by
      simp [marks, history, outcome_mark]
    rw [grown, replay_snoc _ accepted]
    simp [mark, listed]
  · have less := (pending.trans before).erase (ticket d.parentAgentId f)
    rwa [List.erase_cons_head] at less

/-! ## Runs -/

/-- The steps that may take an id from the counter. -/
def Request.draws : Request E → Bool
  | .dispatch _ _ => true
  | .elsewhere => true
  | _ => false

theorem step_consistent {d : Dispatcher E} {m : Nat} {s : World} {r : Request E}
    (room : m + [r].countP Request.draws < 2 ^ 64) (consistent : Consistent d.parentAgentId m s) :
    ∃ n ≤ m + [r].countP Request.draws, Consistent d.parentAgentId n (step d s r).1 := by
  cases r with
  | dispatch toolName args =>
    simp only [step]
    split
    · exact ⟨m, Nat.le_add_right _ _, consistent⟩
    · split
      · exact ⟨m, Nat.le_add_right _ _, consistent⟩
      · next payload _ => exact ⟨m + 1, Nat.le_refl _, begin_consistent room consistent payload⟩
  | announce flight =>
    refine ⟨m, Nat.le_refl _, ?_⟩
    simp only [step]
    split
    · next f found =>
      split
      · exact consistent
      · next waiting => exact announce_consistent consistent found (by simpa using waiting)
    · exact consistent
  | settle flight invoke elapsedMs =>
    refine ⟨m, Nat.le_refl _, ?_⟩
    simp only [step]
    split
    · next f found =>
      split
      · next announced => exact settle_consistent consistent found announced invoke elapsedMs
      · exact consistent
    · exact consistent
  | flushAudit => exact ⟨m, Nat.le_refl _, flush_consistent consistent⟩
  | elsewhere => exact ⟨m + 1, Nat.le_refl _, elsewhere_consistent consistent⟩

theorem final_consistent {d : Dispatcher E} {m : Nat} {s : World} {requests : List (Request E)}
    (room : m + requests.countP Request.draws < 2 ^ 64)
    (consistent : Consistent d.parentAgentId m s) :
    ∃ n, Consistent d.parentAgentId n (final (step d) s requests) := by
  induction requests generalizing m s with
  | nil => exact ⟨m, consistent⟩
  | cons r rest ih =>
    have count : (r :: rest).countP Request.draws =
        [r].countP Request.draws + rest.countP Request.draws := by
      rw [← List.countP_append, List.singleton_append]
    obtain ⟨n, bound, next⟩ := @step_consistent E d m s r (by omega) consistent
    exact ih (by omega) next

/-- However the calls of several threads and the flushes interleave, while the counter has not
come round: every id is announced once, an entry that closes a delegation follows the one that
announces it, with the same two agents, and there is at most one; what is announced and not
closed is what is under way. -/
theorem delegations_paired (d : Dispatcher E) (requests : List (Request E))
    (short : requests.countP Request.draws < 2 ^ 64) :
    let s := final (step d) fresh requests
    ((openedOf (marks s)).map Ticket.delegationId).Nodup ∧
    (closedOf (marks s)).Nodup ∧
    (∀ k, k ∈ openedOf (marks s) ↔
      k ∈ closedOf (marks s) ∨ k ∈ openTickets d.parentAgentId s) ∧
    ∀ early late, history s = early ++ late →
      closedOf (early.map markOf) ⊆ openedOf (early.map markOf) := by
  intro s
  have room : 0 + requests.countP Request.draws < 2 ^ 64 := by omega
  obtain ⟨n, consistent⟩ := final_consistent room (fresh_consistent d.parentAgentId)
  obtain ⟨st, accepted, pending, -, -⟩ := consistent.paired
  obtain ⟨once, closing, balance, order⟩ := replay_sound Ticket.delegationId accepted
  refine ⟨once, closing, ?_, ?_⟩
  · intro k
    rw [← pending.mem_iff]
    exact balance k
  · intro early late split
    refine order (early.map markOf) (late.map markOf) ?_
    rw [marks, split, List.map_append]

/-- A pool with one endpoint, and payloads that are the agent's id alone. -/
def oneEndpoint : Dispatcher Unit where
  parse agent := .ok ⟨agent, "sum up", "", 4⟩
  encode resp := .ok resp.summary
  inner _ _ := .error "no such tool"
  pool := register ⟨[], List.nodup_nil⟩ "summarizer" ()
  parentAgentId := "coder"

def twoCalls : List (Request Unit) :=
  [.dispatch "delegate" "summarizer", .dispatch "delegate" "nobody", .announce 1, .announce 0,
    .flushAudit, .settle 1 (fun _ _ => .error "offline") 3]

theorem delegations_paired_two_calls :
    let s := final (step oneEndpoint) fresh twoCalls
    closedOf (marks s) = [⟨"dlg-2", "coder", "nobody"⟩] ∧
    openTickets "coder" s = [⟨"dlg-1", "coder", "summarizer"⟩] ∧
    ((openedOf (marks s)).map Ticket.delegationId).Nodup :=
  ⟨by decide +kernel, by decide +kernel, (delegations_paired oneEndpoint twoCalls (by decide)).1⟩

end AgentDelegation
