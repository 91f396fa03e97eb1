import AnimaOS.ConsoleOrder
import AnimaOS.EventStream

/-!
# What reconnecting operators get

Ids of direct publications start again with every process, ids of audit lines do
not. A client that comes back loses nothing new and gets nothing twice as long as
every new feed event is numbered above all that went before it.
-/

namespace ConsoleServer

open ConsoleHub CursorReplay FixedWidth

variable {Name Payload : Type}

/-- What is published is numbered above what the process published before, and a feed event that is
new above what any process published before. -/
def Meets (w : World Name Payload) (m : Move Name Payload) : Prop :=
  ∀ p ∈ announcement w m, (∀ q ∈ w.session, q.1 < p.1) ∧
    (isFeed p.2 = true → origin p ∉ w.published.map origin → ∀ q ∈ w.published, q.1 < p.1)

/-! ## Histories -/

/-- The publication an origin stands for. -/
def recorded (file : List (Line Payload)) (published : List (Published Payload)) :
    Origin → Option (Published Payload)
  | .direct n => published[n]?
  | .line n => file[n]?.bind fun line =>
      line.event.map fun event => (lineEnd file n, mark (.line n) event)

structure Recounted (file : List (Line Payload)) (earlier session : List (Published Payload)) :
    Prop where
  recorded : ∀ p ∈ earlier ++ session, recorded file (earlier ++ session) (origin p) = some p
  first : FirstAbove Prod.fst origin (fun p => isFeed p.2 = true) (earlier ++ session)
  ascending : Ascending Prod.fst session

theorem lineEnd_append {file : List (Line Payload)} {n : Nat} (bound : n < file.length)
    (line : Line Payload) : lineEnd (file ++ [line]) n = lineEnd file n := by
  rw [lineEnd, List.take_append_of_le_length bound, lineEnd]

theorem recorded_append_line {file : List (Line Payload)} {published : List (Published Payload)}
    {from' : Origin} {p : Published Payload} (known : recorded file published from' = some p)
    (line : Line Payload) : recorded (file ++ [line]) published from' = some p := by
  cases from' with
  | direct n => exact known
  | line n =>
    obtain ⟨old, found, made⟩ := Option.bind_eq_some_iff.mp known
    obtain ⟨bound, -⟩ := List.getElem?_eq_some_iff.mp found
    simp only [recorded]
    rw [List.getElem?_append_left bound, found, lineEnd_append bound]
    exact made

theorem recorded_snoc {file : List (Line Payload)} {published : List (Published Payload)}
    {from' : Origin} {p : Published Payload} (known : recorded file published from' = some p)
    (q : Published Payload) : recorded file (published ++ [q]) from' = some p := by
  cases from' with
  | direct n =>
    obtain ⟨bound, -⟩ := List.getElem?_eq_some_iff.mp known
    exact (List.getElem?_append_left bound).trans known
  | line n => exact known

/-- Only a direct publication and the tailer publish, the tailer what the line it is at stands
for. -/
theorem announcement_cases {w : World Name Payload} {m : Move Name Payload} {p : Published Payload}
    (announced : announcement w m = some p) :
    (∃ event, m = .publish event ∧ p = (w.hub.seq, mark (.direct w.published.length) event)) ∨
    ∃ throttled line event, m = .tail throttled ∧ tailed w throttled = some p ∧
      w.file[w.position]? = some line ∧ line.event = some event ∧
      p = (lineEnd w.file w.position, mark (.line w.position) event) := by
  cases m with
  | publish event => exact .inl ⟨event, rfl, (Option.some.inj announced).symm⟩
  | tail throttled =>
    have published : tailed w throttled = some p := announced
    simp only [announcement, tailed] at announced
    cases here : w.file[w.position]? with
    | none => simp [here] at announced
    | some line =>
      cases made : line.event with
      | none => simp [here, made] at announced
      | some event =>
        simp only [here, made] at announced
        split at announced
        · cases announced
        · exact .inr ⟨throttled, line, event, rfl, published, rfl, made,
            (Option.some.inj announced).symm⟩
  | append line => cases announced
  | restart => cases announced
  | connect c => cases announced
  | deliver c => cases announced
  | disconnect c => cases announced

/-- What a move publishes is what its origin stands for from then on. -/
theorem announcement_recorded {w : World Name Payload} {m : Move Name Payload}
    {p : Published Payload} (announced : announcement w m = some p) :
    recorded w.file (w.published ++ [p]) (origin p) = some p := by
  rcases announcement_cases announced with
    ⟨event, -, rfl⟩ | ⟨throttled, line, event, -, -, here, made, rfl⟩
  · simp [recorded]
  · simp [recorded, here, made]

theorem Recounted.determined {file : List (Line Payload)}
    {earlier session : List (Published Payload)} (history : Recounted file earlier session) :
    ∀ p ∈ earlier ++ session, ∀ q ∈ earlier ++ session, origin p = origin q → p = q := by
  intro p member q listed same
  have own := history.recorded p member
  rw [same, history.recorded q listed] at own
  exact (Option.some.inj own).symm

theorem Recounted.append_line {file : List (Line Payload)}
    {earlier session : List (Published Payload)} (history : Recounted file earlier session)
    (line : Line Payload) : Recounted (file ++ [line]) earlier session :=
  ⟨fun p member => recorded_append_line (history.recorded p member) line, history.first,
    history.ascending⟩

theorem Recounted.restart {file : List (Line Payload)} {earlier session : List (Published Payload)}
    (history : Recounted file earlier session) : Recounted file (earlier ++ session) [] := by
  refine ⟨?_, ?_, List.Pairwise.nil⟩
  · rw [List.append_nil]
    exact history.recorded
  · rw [List.append_nil]
    exact history.first

theorem Recounted.announce {w : World Name Payload} {m : Move Name Payload}
    (history : Recounted w.file w.earlier w.session) (meets : Meets w m) {p : Published Payload}
    (announced : announcement w m = some p) : Recounted w.file w.earlier (w.session ++ [p]) := by
  obtain ⟨above, new⟩ := meets p announced
  constructor
  · intro q member
    rw [← List.append_assoc] at member ⊢
    rcases List.mem_append.mp member with old | last
    · exact recorded_snoc (history.recorded q old) p
    · cases List.mem_singleton.mp last
      exact announcement_recorded announced
  · rw [← List.append_assoc]
    exact history.first.snoc new
  · refine ascending_append.mpr ⟨history.ascending, List.pairwise_singleton _ _, ?_⟩
    intro q earlier last same
    rw [List.mem_singleton.mp same]
    exact above q earlier

/-! ## The hub of the running process -/

structure Serving (hub : HubInner (Origin × Payload)) (session : List (Published Payload)) :
    Prop where
  replayed : ∀ p ∈ kept hub, p ∈ session
  distinct : ((kept hub).map Prod.fst).Nodup
  listening : ∀ s ∈ hub.subscribers, s.tx.hungUp = false
  below : ∀ s ∈ hub.subscribers, s.id < hub.nextId

theorem serving_default : Serving (.default : HubInner (Origin × Payload)) [] := by
  constructor
  · exact fun p listed => listed
  · exact List.nodup_nil
  · exact fun s listed => absurd listed List.not_mem_nil
  · exact fun s listed => absurd listed List.not_mem_nil

theorem publishLocked_nextId (hub : HubInner (Origin × Payload)) (p : Published Payload) :
    (publishLocked hub p.1 p.2).nextId = hub.nextId := by
  cases event : p.2 with
  | vitals content => rfl
  | state content => rfl
  | heartbeat content => rfl
  | feed content => simp only [publishLocked, remember]

theorem Serving.announce {hub : HubInner (Origin × Payload)} {session : List (Published Payload)}
    (serving : Serving hub session) {p : Published Payload} (above : ∀ q ∈ session, q.1 < p.1) :
    Serving (publishLocked hub p.1 p.2) (session ++ [p]) := by
  constructor
  · intro q listed
    rcases mem_kept_publishLocked listed with earlier | rfl
    · exact List.mem_append_left _ (serving.replayed q earlier)
    · exact List.mem_append_right _ (List.mem_singleton_self _)
  · apply nodup_kept_publishLocked serving.distinct
    exact fun q listed => above q (serving.replayed q listed)
  · intro s listed
    rw [publishLocked_subscribers, fanOut_listening_all serving.listening] at listed
    obtain ⟨t, member, rfl⟩ := List.mem_map.mp listed
    exact serving.listening t member
  · intro s listed
    rw [publishLocked_subscribers, fanOut_listening_all serving.listening] at listed
    obtain ⟨t, member, rfl⟩ := List.mem_map.mp listed
    rw [publishLocked_nextId]
    exact serving.below t member

theorem Serving.subscribe {hub : HubInner (Origin × Payload)} {session : List (Published Payload)}
    (serving : Serving hub session) : Serving (ConsoleHub.step hub .subscribe).1 session := by
  refine ⟨serving.replayed, serving.distinct, ?_, ?_⟩
  · intro s listed
    rcases List.mem_append.mp listed with earlier | added
    · exact serving.listening s earlier
    · cases List.mem_singleton.mp added
      rfl
  · intro s listed
    rcases List.mem_append.mp listed with earlier | added
    · exact Nat.lt_succ_of_lt (serving.below s earlier)
    · cases List.mem_singleton.mp added
      exact Nat.lt_succ_self _

theorem Serving.unsubscribe {hub : HubInner (Origin × Payload)}
    {session : List (Published Payload)} (serving : Serving hub session) (id : Nat) :
    Serving (ConsoleHub.step hub (.unsubscribe id)).1 session := by
  refine ⟨serving.replayed, serving.distinct, ?_, ?_⟩
  · exact fun s listed => serving.listening s (List.mem_filter.mp listed).1
  · exact fun s listed => serving.below s (List.mem_filter.mp listed).1

/-! ## Connections -/

structure Offline (received known : List (Published Payload)) : Prop where
  ascending : Ascending Prod.fst received
  known : ∀ p ∈ received, p ∈ known

/-- What a connected client has is what it came with and what its cursor lets through of what the
server took from the stream. -/
structure Online (hub : HubInner (Origin × Payload)) (session : List (Published Payload))
    (client : Client Payload) (conn : Connection Payload) : Prop where
  listed : conn.id ∈ hub.subscribers.map (·.id)
  live : channel hub conn.id = session.drop conn.since
  since : conn.since ≤ session.length
  ascending : Ascending Prod.fst conn.snapshot
  replayed : ∀ p ∈ conn.snapshot, p ∈ session.take conn.since
  buffered : ∀ p ∈ conn.buffer, p ∈ conn.snapshot
  read : conn.read ≤ (stream hub conn).length
  received : ∃ before, Offline before client.known ∧
    conn.lastEventId = lastNumber Prod.fst before ∧
    client.received =
      before ++ resume Prod.fst conn.lastEventId ((stream hub conn).take conn.read)

section Connections

variable {hub : HubInner (Origin × Payload)} {session : List (Published Payload)}
  {client : Client Payload} {conn : Connection Payload}

theorem Online.stream_eq (online : Online hub session client conn) :
    stream hub conn = conn.snapshot ++ session.drop conn.since := by
  rw [stream, online.live]

theorem Online.mem_session (online : Online hub session client conn) {p : Published Payload}
    (member : p ∈ stream hub conn) : p ∈ session := by
  rw [online.stream_eq] at member
  rcases List.mem_append.mp member with early | late
  · exact List.mem_of_mem_take (online.replayed p early)
  · exact List.mem_of_mem_drop late

theorem Online.ascending_stream (online : Online hub session client conn)
    (ascending : Ascending Prod.fst session) : Ascending Prod.fst (stream hub conn) := by
  rw [online.stream_eq]
  rw [← List.take_append_drop conn.since session] at ascending
  obtain ⟨-, late, between⟩ := ascending_append.mp ascending
  refine ascending_append.mpr ⟨online.ascending, late, ?_⟩
  exact fun p early q member => between p (online.replayed p early) q member

/-- What a client has when its connection ends. -/
theorem Online.offline (online : Online hub session client conn)
    (ascending : Ascending Prod.fst session) {published : List (Published Payload)}
    (known : ∀ p ∈ client.known, p ∈ published) (own : ∀ p ∈ session, p ∈ published) :
    Offline client.received published := by
  obtain ⟨before, offline, cursor, received⟩ := online.received
  rw [received, cursor]
  have taken := (online.ascending_stream ascending).sublist (List.take_sublist conn.read _)
  refine ⟨offline.ascending.resumed taken, ?_⟩
  intro p member
  rcases List.mem_append.mp member with old | new
  · exact known p (offline.known p old)
  · exact own p (online.mem_session (List.mem_of_mem_take (mem_resume.mp new).1))

theorem Online.announce (online : Online hub session client conn)
    (listening : ∀ s ∈ hub.subscribers, s.tx.hungUp = false) (p : Published Payload) :
    Online (publishLocked hub p.1 p.2) (session ++ [p]) client conn := by
  have live := channel_publishLocked listening online.listed p
  have longer : stream (publishLocked hub p.1 p.2) conn = stream hub conn ++ [p] := by
    rw [stream, live, stream, List.append_assoc]
  have read := online.read
  constructor
  · rw [publishLocked_subscribers, fanOut_listening_all listening, List.map_map]
    exact online.listed
  · rw [live, online.live, List.drop_append_of_le_length online.since]
  · rw [List.length_append]
    exact Nat.le_add_right_of_le online.since
  · exact online.ascending
  · intro q member
    rw [List.take_append_of_le_length online.since]
    exact online.replayed q member
  · exact online.buffered
  · rw [longer, List.length_append]
    exact Nat.le_add_right_of_le read
  · rw [longer, List.take_append_of_le_length read]
    exact online.received

/-- A connection does not notice what leaves its channel alone. -/
theorem Online.elsewhere (online : Online hub session client conn)
    {hub' : HubInner (Origin × Payload)} (listed : conn.id ∈ hub'.subscribers.map (·.id))
    (same : channel hub' conn.id = channel hub conn.id) : Online hub' session client conn := by
  have alike : stream hub' conn = stream hub conn := congrArg (conn.snapshot ++ ·) same
  constructor
  · exact listed
  · exact same.trans online.live
  · exact online.since
  · exact online.ascending
  · exact online.replayed
  · exact online.buffered
  · exact alike ▸ online.read
  · exact alike ▸ online.received

theorem Online.subscribe (online : Online hub session client conn) (serving : Serving hub session) :
    Online (ConsoleHub.step hub .subscribe).1 session client conn := by
  obtain ⟨s, member, own⟩ := List.mem_map.mp online.listed
  apply online.elsewhere
  · exact List.mem_map.mpr ⟨s, List.mem_append_left _ member, own⟩
  · apply channel_subscribe
    have := serving.below s member
    omega

theorem Online.unsubscribe (online : Online hub session client conn) {id : Nat}
    (apart : conn.id ≠ id) :
    Online (ConsoleHub.step hub (.unsubscribe id)).1 session client conn := by
  obtain ⟨s, member, own⟩ := List.mem_map.mp online.listed
  apply online.elsewhere
  · refine List.mem_map.mpr ⟨s, List.mem_filter.mpr ⟨member, ?_⟩, own⟩
    simpa [own] using apart
  · exact channel_unsubscribe hub apart

theorem Offline.connect (offline : Offline client.received client.known)
    (serving : Serving hub session) :
    Online (ConsoleHub.step hub .subscribe).1 session client
      ⟨lastNumber Prod.fst client.received, hub.nextId, (ConsoleHub.step hub .subscribe).2, 0,
        hub.recent, session.length⟩ := by
  have replay : ∀ p, p ∈ snapshot hub ↔ p ∈ kept hub := fun p =>
    (List.mergeSort_perm (kept hub) fun a b => a.1 ≤ b.1).mem_iff
  constructor
  · exact List.mem_map.mpr ⟨_, List.mem_append_right _ (List.mem_singleton_self _), rfl⟩
  · rw [channel_new serving.below, List.drop_length]
  · exact Nat.le_refl _
  · exact snapshot_increasing serving.distinct
  · intro p member
    rw [List.take_length]
    exact serving.replayed p ((replay p).mp member)
  · exact fun p member => (replay p).mpr (List.mem_append_right _ member)
  · exact Nat.zero_le _
  · exact ⟨client.received, offline, rfl, (List.append_nil _).symm⟩

theorem receive_received (client : Client Payload) (conn : Connection Payload)
    (p : Published Payload) :
    (receive client conn p).received =
      client.received ++ resume Prod.fst conn.lastEventId [p] := by
  cases skipped : skips conn.lastEventId p.1 <;> simp [receive, resume, skipped]

theorem Online.receive (online : Online hub session client conn) {p : Published Payload}
    (next : (stream hub conn)[conn.read]? = some p) :
    Online hub session (receive client conn p) { conn with read := conn.read + 1 } := by
  obtain ⟨before, offline, cursor, received⟩ := online.received
  obtain ⟨bound, same⟩ := List.getElem?_eq_some_iff.mp next
  refine ⟨online.listed, online.live, online.since, online.ascending, online.replayed,
    online.buffered, bound, before, offline, cursor, ?_⟩
  have longer : (stream hub conn).take (conn.read + 1) =
      (stream hub conn).take conn.read ++ [p] := by
    rw [List.take_add_one, next]
    rfl
  rw [receive_received, received, List.append_assoc, ← resume_append, ← longer]
  rfl

end Connections

/-! ## Whole runs -/

structure Settled (hub : HubInner (Origin × Payload)) (session published : List (Published Payload))
    (client : Client Payload) : Prop where
  known : client.known <+: published
  offline : client.connection = none → Offline client.received client.known
  online : ∀ conn, client.connection = some conn → Online hub session client conn

structure Coherent (w : World Name Payload) : Prop where
  history : Recounted w.file w.earlier w.session
  serving : Serving w.hub w.session
  settled : ∀ c, Settled w.hub w.session (w.earlier ++ w.session) (w.clients c)
  apart : ∀ c d conn conn', (w.clients c).connection = some conn →
    (w.clients d).connection = some conn' → conn.id = conn'.id → c = d

theorem coherent_start : Coherent (.start : World Name Payload) := by
  refine ⟨⟨?_, firstAbove_nil, List.Pairwise.nil⟩, serving_default, fun c => ⟨?_, ?_, ?_⟩, ?_⟩
  · exact fun p member => absurd member List.not_mem_nil
  · exact List.nil_prefix
  · exact fun _ => ⟨List.Pairwise.nil, fun p member => absurd member List.not_mem_nil⟩
  · intro conn connected
    cases connected
  · intro c d conn conn' connected
    cases connected

theorem Settled.cutOff {hub : HubInner (Origin × Payload)}
    {session published : List (Published Payload)} {client : Client Payload}
    (settled : Settled hub session published client) (ascending : Ascending Prod.fst session)
    (own : ∀ p ∈ session, p ∈ published) (hub' : HubInner (Origin × Payload))
    (session' : List (Published Payload)) :
    (cutOff published client).connection = none ∧
      Settled hub' session' published (cutOff published client) := by
  cases connection : client.connection with
  | none =>
    have same : ConsoleServer.cutOff published client = client := by
      simp only [ConsoleServer.cutOff, connection]
    rw [same]
    refine ⟨connection, settled.known, settled.offline, ?_⟩
    intro conn connected
    cases connection.symm.trans connected
  | some conn =>
    have left : ConsoleServer.cutOff published client =
        { client with known := published, connection := none } := by
      simp only [ConsoleServer.cutOff, connection]
    rw [left]
    refine ⟨rfl, List.prefix_refl _, fun _ => ?_, ?_⟩
    · exact (settled.online conn connection).offline ascending
        (fun p member => settled.known.subset member) own
    · intro conn' connected
      cases connected

theorem Coherent.append_line {w : World Name Payload} (coherent : Coherent w) (line : Line Payload) :
    Coherent { w with file := w.file ++ [line] } :=
  ⟨coherent.history.append_line line, coherent.serving, coherent.settled, coherent.apart⟩

theorem Coherent.announce {w : World Name Payload} (coherent : Coherent w) {m : Move Name Payload}
    (meets : Meets w m) {p : Published Payload} (announced : announcement w m = some p)
    (position : Nat) : Coherent { announce w p with position := position } := by
  refine ⟨coherent.history.announce meets announced, coherent.serving.announce (meets p announced).1,
    fun c => ⟨?_, (coherent.settled c).offline, ?_⟩, coherent.apart⟩
  · have longer : w.earlier ++ w.session <+: w.earlier ++ (w.session ++ [p]) :=
      ⟨[p], List.append_assoc _ _ _⟩
    exact (coherent.settled c).known.trans longer
  · intro conn connected
    exact ((coherent.settled c).online conn connected).announce coherent.serving.listening p

theorem Coherent.cutOff {w : World Name Payload} (coherent : Coherent w) (c : Name)
    (hub : HubInner (Origin × Payload)) (session : List (Published Payload)) :
    (cutOff w.published (w.clients c)).connection = none ∧
      Settled hub session w.published (cutOff w.published (w.clients c)) :=
  (coherent.settled c).cutOff coherent.history.ascending
    (fun _ member => List.mem_append_right w.earlier member) hub session

theorem Coherent.restart {w : World Name Payload} (coherent : Coherent w) :
    Coherent (⟨w.file, 0, .default, w.published, [],
      fun c => ConsoleServer.cutOff w.published (w.clients c)⟩ : World Name Payload) := by
  refine ⟨coherent.history.restart, serving_default, fun c => ?_, ?_⟩
  · have settled := (coherent.cutOff c .default []).2
    rw [← List.append_nil w.published] at settled
    simpa using settled
  · intro c d conn conn' connected
    have off := (coherent.cutOff c .default []).1
    cases off.symm.trans connected

variable [DecidableEq Name]

/-- One client moves, and with it the hub. -/
theorem Coherent.update {w : World Name Payload} (coherent : Coherent w)
    {hub : HubInner (Origin × Payload)} (serving : Serving hub w.session) {c : Name}
    {client : Client Payload} (own : Settled hub w.session w.published client)
    (others : ∀ d conn, d ≠ c → (w.clients d).connection = some conn →
      Online hub w.session (w.clients d) conn ∧
        ∀ new, client.connection = some new → conn.id ≠ new.id) :
    Coherent { w with hub := hub, clients := Function.update w.clients c client } := by
  refine ⟨coherent.history, serving, fun d => ?_, ?_⟩
  · by_cases same : d = c
    · subst same
      simp only [Function.update_self]
      exact own
    · simp only [Function.update_of_ne same]
      exact ⟨(coherent.settled d).known, (coherent.settled d).offline,
        fun conn connected => (others d conn same connected).1⟩
  · intro d e first second one two same
    by_cases left : d = c <;> by_cases right : e = c
    · rw [left, right]
    · subst left
      simp only [Function.update_self, Function.update_of_ne right] at one two
      exact absurd same.symm ((others e second right two).2 first one)
    · subst right
      simp only [Function.update_of_ne left, Function.update_self] at one two
      exact absurd same ((others d first left one).2 second two)
    · simp only [Function.update_of_ne left, Function.update_of_ne right] at one two
      exact coherent.apart d e first second one two same

theorem Coherent.connect {w : World Name Payload} (coherent : Coherent w) {c : Name}
    (free : (w.clients c).connection = none) : Coherent (step w (.connect c)) := by
  have new := ((coherent.settled c).offline free).connect coherent.serving
  simp only [step, free]
  refine coherent.update coherent.serving.subscribe ⟨(coherent.settled c).known, ?_, ?_⟩ ?_
  · intro off
    cases off
  · intro conn connected
    cases connected
    exact ⟨new.listed, new.live, new.since, new.ascending, new.replayed, new.buffered, new.read,
      new.received⟩
  · intro d conn _ connected
    have online := (coherent.settled d).online conn connected
    refine ⟨online.subscribe coherent.serving, ?_⟩
    intro new added same
    cases added
    obtain ⟨s, member, own⟩ := List.mem_map.mp online.listed
    exact absurd (own.trans same) (Nat.ne_of_lt (coherent.serving.below s member))

theorem Coherent.deliver {w : World Name Payload} (coherent : Coherent w) {c : Name}
    {conn : Connection Payload} (connected : (w.clients c).connection = some conn)
    {p : Published Payload} (next : (stream w.hub conn)[conn.read]? = some p) :
    Coherent { w with
      clients := Function.update w.clients c (receive (w.clients c) conn p) } := by
  refine coherent.update coherent.serving ⟨(coherent.settled c).known, ?_, ?_⟩ ?_
  · intro off
    cases off
  · intro conn' on
    cases on
    exact ((coherent.settled c).online conn connected).receive next
  · intro d conn' other on
    refine ⟨(coherent.settled d).online conn' on, ?_⟩
    intro moved own same
    cases own
    exact other (coherent.apart d c conn' conn on connected same)

theorem Coherent.disconnect {w : World Name Payload} (coherent : Coherent w) {c : Name}
    {conn : Connection Payload} (connected : (w.clients c).connection = some conn) :
    Coherent { w with
      hub := (ConsoleHub.step w.hub (.unsubscribe conn.id)).1
      clients := Function.update w.clients c
        (ConsoleServer.cutOff w.published (w.clients c)) } := by
  obtain ⟨off, settled⟩ :=
    coherent.cutOff c (ConsoleHub.step w.hub (.unsubscribe conn.id)).1 w.session
  refine coherent.update (coherent.serving.unsubscribe conn.id) settled ?_
  intro d conn' other on
  refine ⟨((coherent.settled d).online conn' on).unsubscribe ?_, ?_⟩
  · exact fun same => other (coherent.apart d c conn' conn on connected same)
  · intro left own
    cases off.symm.trans own

theorem Coherent.step {w : World Name Payload} (coherent : Coherent w) {m : Move Name Payload}
    (meets : Meets w m) : Coherent (step w m) := by
  cases m with
  | append line => exact coherent.append_line line
  | publish event => exact coherent.announce meets rfl w.position
  | tail throttled =>
    cases here : w.file[w.position]? with
    | none => simpa only [ConsoleServer.step, here] using coherent
    | some line =>
      simp only [ConsoleServer.step, here]
      cases made : tailed w throttled with
      | none => exact ⟨coherent.history, coherent.serving, coherent.settled, coherent.apart⟩
      | some p => exact coherent.announce meets made (w.position + 1)
  | restart => exact coherent.restart
  | connect c =>
    cases connection : (w.clients c).connection with
    | none => exact coherent.connect connection
    | some conn => simpa only [ConsoleServer.step, connection] using coherent
  | deliver c =>
    cases connection : (w.clients c).connection with
    | none => simpa only [ConsoleServer.step, connection] using coherent
    | some conn =>
      cases next : (stream w.hub conn)[conn.read]? with
      | none => simpa only [ConsoleServer.step, connection, next] using coherent
      | some p =>
        simp only [ConsoleServer.step, connection, next]
        exact coherent.deliver connection next
  | disconnect c =>
    cases connection : (w.clients c).connection with
    | none => simpa only [ConsoleServer.step, connection] using coherent
    | some conn =>
      simp only [ConsoleServer.step, connection]
      exact coherent.disconnect connection

def RunMeets (w : World Name Payload) : List (Move Name Payload) → Prop
  | [] => True
  | m :: rest => Meets w m ∧ RunMeets (step w m) rest

theorem Coherent.run {w : World Name Payload} (coherent : Coherent w)
    {moves : List (Move Name Payload)} (meets : RunMeets w moves) : Coherent (run w moves) := by
  induction moves generalizing w with
  | nil => exact coherent
  | cons m rest ih => exact ih (coherent.step meets.1) meets.2

/-! ## What is delivered -/

/-- How much of its stream the client has not been taken through. -/
def unread (w : World Name Payload) (c : Name) : Nat :=
  ((w.clients c).connection.map fun conn => (stream w.hub conn).length - conn.read).getD 0

/-- The world once the server has gone through all there is for the client. -/
def caughtUp (w : World Name Payload) (c : Name) : World Name Payload :=
  run w (List.replicate (unread w c) (.deliver c))

/-- The feed events new to a client, of the replay buffer it met and of what was published since,
reach it. No event reaches it twice. -/
structure Resumed (w : World Name Payload) : Prop where
  delivered : ∀ c conn, (w.clients c).connection = some conn →
    ∀ p, p ∈ conn.buffer ∨ p ∈ w.session.drop conn.since → isFeed p.2 = true →
      origin p ∉ (w.clients c).known.map origin → p ∈ ((caughtUp w c).clients c).received
  once : ∀ c, ((w.clients c).received.map origin).Nodup

theorem deliver_received (n : Nat) {w : World Name Payload} {c : Name} {conn : Connection Payload}
    (connected : (w.clients c).connection = some conn) :
    ((run w (List.replicate n (.deliver c))).clients c).received =
      (w.clients c).received ++
        resume Prod.fst conn.lastEventId (((stream w.hub conn).drop conn.read).take n) := by
  induction n generalizing w conn with
  | zero => simp [run, resume]
  | succ n ih =>
    rw [List.replicate_succ]
    change ((run (step w (.deliver c)) (List.replicate n (.deliver c))).clients c).received = _
    cases next : (stream w.hub conn)[conn.read]? with
    | none =>
      have stays : step w (.deliver c) = w := by simp only [step, connected, next]
      have ended := List.getElem?_eq_none_iff.mp next
      rw [stays, ih connected, List.drop_eq_nil_of_le ended, List.take_nil, List.take_nil]
    | some p =>
      have moved : step w (.deliver c) =
          { w with clients := Function.update w.clients c (receive (w.clients c) conn p) } := by
        simp only [step, connected, next]
      have own : ((step w (.deliver c)).clients c) = receive (w.clients c) conn p := by
        rw [moved]
        exact Function.update_self ..
      have later : ((step w (.deliver c)).clients c).connection =
          some { conn with read := conn.read + 1 } := by
        rw [own]
        rfl
      have same : (step w (.deliver c)).hub = w.hub := by rw [moved]
      obtain ⟨bound, here⟩ := List.getElem?_eq_some_iff.mp next
      rw [ih later, own, same, receive_received, List.append_assoc, ← resume_append,
        List.drop_eq_getElem_cons bound, here]
      rfl

omit [DecidableEq Name] in
/-- The cursor of a client lies below every feed event that is new to it. -/
theorem Coherent.passes {w : World Name Payload} (coherent : Coherent w) {c : Name}
    {conn : Connection Payload} (connected : (w.clients c).connection = some conn)
    {p : Published Payload} (sent : p ∈ stream w.hub conn) (feed : isFeed p.2 = true)
    (new : origin p ∉ (w.clients c).known.map origin) : skips conn.lastEventId p.1 = false := by
  have online := (coherent.settled c).online conn connected
  obtain ⟨before, offline, cursor, -⟩ := online.received
  have above := coherent.history.first.above coherent.history.determined (coherent.settled c).known
    (List.mem_append_right _ (online.mem_session sent)) feed new
  rw [cursor]
  exact skips_eq_false fun q member => above q (offline.known q member)

omit [DecidableEq Name] in
theorem Coherent.once {w : World Name Payload} (coherent : Coherent w) (c : Name) :
    ((w.clients c).received.map origin).Nodup := by
  have settled := coherent.settled c
  have held : Offline (w.clients c).received w.published := by
    cases connection : (w.clients c).connection with
    | none =>
      obtain ⟨ascending, known⟩ := settled.offline connection
      exact ⟨ascending, fun p member => settled.known.subset (known p member)⟩
    | some conn =>
      exact (settled.online conn connection).offline coherent.history.ascending
        (fun p member => settled.known.subset member)
        (fun p member => List.mem_append_right w.earlier member)
  apply held.ascending.nodup_keys
  intro p member q listed same
  rw [coherent.history.determined p (held.known p member) q (held.known q listed) same]

theorem Coherent.resumed {w : World Name Payload} (coherent : Coherent w) : Resumed w := by
  refine ⟨?_, coherent.once⟩
  intro c conn connected p offered feed new
  have online := (coherent.settled c).online conn connected
  have sent : p ∈ stream w.hub conn := by
    rw [online.stream_eq]
    rcases offered with early | late
    · exact List.mem_append_left _ (online.buffered p early)
    · exact List.mem_append_right _ late
  have passes := coherent.passes connected sent feed new
  have rest : ((stream w.hub conn).drop conn.read).length ≤ unread w c := by
    simp [unread, connected]
  rw [caughtUp, deliver_received _ connected, List.take_of_length_le rest]
  obtain ⟨before, -, -, received⟩ := online.received
  rw [received, List.append_assoc, ← resume_append, List.take_append_drop]
  exact List.mem_append_right _ (mem_resume.mpr ⟨sent, passes⟩)

theorem announcement_step {w : World Name Payload} {m : Move Name Payload} {p : Published Payload}
    (announced : announcement w m = some p) :
    ∃ position, step w m = { announce w p with position := position } := by
  rcases announcement_cases announced with
    ⟨event, rfl, rfl⟩ | ⟨throttled, line, event, rfl, published, here, -, -⟩
  · exact ⟨w.position, rfl⟩
  · refine ⟨w.position + 1, ?_⟩
    simp only [step, here, published]
    rfl

omit [DecidableEq Name] in
/-- The replay buffer always has the latest feed event. -/
theorem mem_recent (hub : HubInner (Origin × Payload)) {p : Published Payload}
    (feed : isFeed p.2 = true) : p ∈ (publishLocked hub p.1 p.2).recent := by
  obtain ⟨n, event⟩ := p
  cases event with
  | feed content =>
    simp only [publishLocked, remember, List.length_append, List.length_singleton]
    rw [List.drop_append_of_le_length (by simp only [replayCapacity]; omega)]
    exact List.mem_append_right _ (List.mem_singleton_self _)
  | vitals content => cases feed
  | state content => cases feed
  | heartbeat content => cases feed

theorem connect_client {w : World Name Payload} {c : Name}
    (free : (w.clients c).connection = none) :
    (step w (.connect c)).clients c = { w.clients c with
      connection := some ⟨lastNumber Prod.fst (w.clients c).received, w.hub.nextId,
        (ConsoleHub.step w.hub .subscribe).2, 0, w.hub.recent, w.session.length⟩ } := by
  simp only [step, free, Function.update_self]

/-- What is kept for a client under an id as low as one it has does not reach it. -/
theorem stale_unresumed {w : World Name Payload} {c : Name}
    (free : (w.clients c).connection = none)
    (offline : Offline (w.clients c).received (w.clients c).known) {p q : Published Payload}
    (buffered : p ∈ w.hub.recent) (feed : isFeed p.2 = true)
    (new : origin p ∉ (w.clients c).known.map origin) (received : q ∈ (w.clients c).received)
    (stale : p.1 ≤ q.1) : ¬ Resumed (step w (.connect c)) := by
  intro resumed
  have back := connect_client free
  have connected := congrArg Client.connection back
  have known := congrArg Client.known back
  have delivered := resumed.delivered c _ connected p (.inl buffered) feed (known ▸ new)
  rw [caughtUp, deliver_received _ connected, back] at delivered
  rcases List.mem_append.mp delivered with early | late
  · exact new (List.mem_map_of_mem (offline.known p early))
  · have passed := (mem_resume.mp late).2
    obtain ⟨n, last, below⟩ := offline.ascending.le_last received
    simp only [last, skips, Option.any_some, decide_eq_false_iff_not] at passed
    omega

/-- A client that has an id as high as that of a new feed event loses the event if it comes back
right after it. -/
theorem stale_event_lost {w : World Name Payload} (coherent : Coherent w) {m : Move Name Payload}
    {p : Published Payload} (announced : announcement w m = some p) (feed : isFeed p.2 = true)
    (new : origin p ∉ w.published.map origin) {c : Name} (off : (w.clients c).connection = none)
    {q : Published Payload} (received : q ∈ (w.clients c).received) (stale : p.1 ≤ q.1) :
    ¬ Resumed (step (step w m) (.connect c)) := by
  have settled := coherent.settled c
  have unknown : origin p ∉ (w.clients c).known.map origin := fun listed =>
    new ((settled.known.map origin).subset listed)
  obtain ⟨position, moved⟩ := announcement_step announced
  rw [moved]
  exact stale_unresumed off (settled.offline off) (mem_recent w.hub feed) feed unknown received stale

/-- In every run whose new feed events are numbered above all before them, clients that come back
lose nothing new and get nothing twice. Once a new feed event is not numbered above what a client
that is away has received, the client loses it by coming back. -/
theorem reconnecting_loses_nothing_new (moves : List (Move Name Payload))
    (meets : RunMeets .start moves) :
    Resumed (run .start moves) ∧
      ∀ m p c q, announcement (run .start moves) m = some p → isFeed p.2 = true →
        origin p ∉ (run .start moves).published.map origin →
        ((run .start moves).clients c).connection = none →
        q ∈ ((run .start moves).clients c).received → p.1 ≤ q.1 →
          ¬ Resumed (run .start (moves ++ [m, .connect c])) := by
  have coherent := coherent_start.run meets
  refine ⟨coherent.resumed, ?_⟩
  intro m p c q announced feed new off received stale
  rw [run, List.foldl_append]
  exact stale_event_lost coherent announced feed new off received stale

/-! ## Sample runs -/

instance (w : World Name Payload) (m : Move Name Payload) : Decidable (Meets w m) :=
  inferInstanceAs (Decidable (∀ p ∈ announcement w m, _ ∧ _))

instance decidableRunMeets :
    (w : World Name Payload) → (moves : List (Move Name Payload)) → Decidable (RunMeets w moves)
  | _, [] => .isTrue trivial
  | w, m :: rest =>
    have := decidableRunMeets (step w m) rest
    inferInstanceAs (Decidable (Meets w m ∧ RunMeets (step w m) rest))

def sampleLine : Line Unit := ⟨100, some (.feed ()), by decide⟩

/-- The process stops with a line unread; the client comes back while the next one catches up. -/
def sampleMoves : List (Move Unit Unit) :=
  [.append sampleLine, .tail false, .connect (), .publish (.feed ()), .deliver (), .deliver (),
    .append sampleLine, .restart, .connect (), .tail false, .tail false]

theorem sample_line_delivered :
    (200, .feed (.line 1, ())) ∈ ((caughtUp (run .start sampleMoves) ()).clients ()).received :=
  (reconnecting_loses_nothing_new sampleMoves (by decide +kernel)).1.delivered () _
    (Option.eq_some_of_isSome (by decide +kernel)) _ (.inr (by decide +kernel)) rfl
    (by decide +kernel)

/-- The next process has caught up with the audit file when it publishes directly again. -/
def staleMoves : List (Move Unit Unit) :=
  [.append sampleLine, .tail false, .connect (), .publish (.feed ()), .deliver (), .deliver (),
    .restart, .tail false, .connect (), .publish (.feed ())]

theorem stale_number_loses_event : ¬ Resumed (run .start staleMoves) := by
  intro resumed
  have delivered := resumed.delivered () _ (Option.eq_some_of_isSome (by decide +kernel))
    (101, .feed (.direct 3, ())) (.inr (by decide +kernel)) rfl (by decide +kernel)
  have lost : (101, .feed (.direct 3, ())) ∉
      ((caughtUp (run .start staleMoves) ()).clients ()).received := by decide +kernel
  exact lost delivered

end ConsoleServer
