import AnimaOS.Prospective

/-!
# Intentions when the write fails

The mutators of the intention store edit the list in memory and flush it
afterwards. A call that fails in its flush is compared with the state it met.
-/

namespace Prospective

open FixedWidth Mlfq

universe u

variable {G : Type u}

/-- A store, with its path if it has one, and the agenda its due intentions go to. -/
structure Memory (G : Type u) where
  path : Option String
  kept : Kept
  agenda : TaskAgenda G

inductive MemoryCall where
  | addOnce (description : String) (dueAtNs nowNs : Nat)
  | addRecurring (description : String) (dueAtNs intervalNs nowNs : Nat)
  | remove (id : Nat)
  | complete (id nowNs : Nat)
  | injectDueIntentions (nowNs overdueGraceNs : Nat)

/-- Without a path there is nothing to write and no way to fail. -/
def flushAnswer (path : Option String) (io : Except String Unit) : Except String Unit :=
  match path with
  | none => .ok ()
  | some _ => io

def perform (stamp : Intention → G) (m : Memory G) (call : MemoryCall) (io : Except String Unit) :
    Memory G × Except IntentionStoreError Unit :=
  let io := flushAnswer m.path io
  match call with
  | .addOnce description dueAtNs nowNs =>
    let called := addOnce m.kept description dueAtNs nowNs io
    ({ m with kept := called.1 }, called.2.map fun _ => ())
  | .addRecurring description dueAtNs intervalNs nowNs =>
    let called := addRecurring m.kept description dueAtNs intervalNs nowNs io
    ({ m with kept := called.1 }, called.2.map fun _ => ())
  | .remove id =>
    let called := remove m.kept id io
    ({ m with kept := called.1 }, called.2.map fun _ => ())
  | .complete id nowNs =>
    let called := complete m.kept id nowNs io
    ({ m with kept := called.1 }, called.2.map fun _ => ())
  | .injectDueIntentions nowNs overdueGraceNs =>
    let called := injectDueIntentions stamp m.kept m.agenda nowNs overdueGraceNs io
    ({ m with kept := called.1, agenda := called.2.1 }, called.2.2.map fun _ => ())

def SameMemory (m n : Memory G) : Prop :=
  m.kept.store.intentions = n.kept.store.intentions ∧ m.agenda = n.agenda

/-- A call that fails leaves the intentions and the agenda alone, and the same call
with a working disk ends as if it had been the only one. -/
structure AtomicCall (stamp : Intention → G) (m : Memory G) (call : MemoryCall)
    (io : Except String Unit) : Prop where
  unchanged : ∀ e, (perform stamp m call io).2 = .error e →
    SameMemory (perform stamp m call io).1 m
  retried : ∀ e, (perform stamp m call io).2 = .error e →
    SameMemory (perform stamp (perform stamp m call io).1 call (.ok ())).1
      (perform stamp m call (.ok ())).1

theorem reschedule_id (newDueAtNs : Nat) (i : Intention) :
    (reschedule newDueAtNs i).id = i.id := rfl

/-- What the call flushes, when it comes to its flush. -/
def flushes (stamp : Intention → G) (m : Memory G) :
    MemoryCall → Option (IntentionStore × TaskAgenda G)
  | .addOnce description dueAtNs nowNs =>
    some (m.kept.store.pushNew (Intention.once _ description dueAtNs nowNs) rfl, m.agenda)
  | .addRecurring description dueAtNs intervalNs nowNs =>
    if intervalNs = 0 then none
    else some (m.kept.store.pushNew (Intention.recurring _ description dueAtNs intervalNs nowNs) rfl,
      m.agenda)
  | .remove id =>
    if (m.kept.store.intentions.filter fun i => i.id ≠ id).length <
        m.kept.store.intentions.length then
      some (m.kept.store.restrict (m.kept.store.intentions.filter fun i => i.id ≠ id)
        (List.filter_sublist.map Intention.id), m.agenda)
    else none
  | .complete id nowNs =>
    match m.kept.store.intentions.find? fun i => i.id = id with
    | none => none
    | some i =>
      match i.repeatIntervalNs with
      | some interval =>
        if interval = 0 then none
        else some (m.kept.store.update id (reschedule (nextDue i.dueAtNs interval nowNs))
          (reschedule_id _), m.agenda)
      | none =>
        some (m.kept.store.restrict (m.kept.store.intentions.eraseP fun i => i.id = id)
          (List.eraseP_sublist.map Intention.id), m.agenda)
  | .injectDueIntentions nowNs overdueGraceNs =>
    if (m.kept.store.intentions.filter fun i => i.isDue nowNs).isEmpty then none
    else some (injectEach stamp nowNs overdueGraceNs m.kept.store m.agenda
      (m.kept.store.intentions.filter fun i => i.isDue nowNs))

/-- The call has something to write: a new intention, one to remove or to advance, or a due one. -/
def Changes (m : Memory G) : MemoryCall → Prop
  | .addOnce _ _ _ => True
  | .addRecurring _ _ intervalNs _ => intervalNs ≠ 0
  | .remove id => ∃ i ∈ m.kept.store.intentions, i.id = id
  | .complete id _ => ∃ i, m.kept.store.intentions.find? (fun i => i.id = id) = some i ∧
      i.repeatIntervalNs ≠ some 0 ∧
      (i.repeatIntervalNs ≠ none → i.dispatched = true ∨ i.dueAtNs ≠ maxOf 64)
  | .injectDueIntentions nowNs _ => ∃ i ∈ m.kept.store.intentions, i.isDue nowNs = true

def WriteFails (m : Memory G) (io : Except String Unit) : Prop :=
  m.path ≠ none ∧ ∃ message, io = .error message

/-! ## One flush per call -/

theorem flush_error (k : Kept) (message : String) :
    flush k (.error message) = (k, .error (.io message)) := rfl

theorem restrict_same (s : IntentionStore) (intentions : List Intention)
    (part : (ids intentions).Sublist (ids s.intentions)) (same : intentions = s.intentions) :
    s.restrict intentions part = s := by
  subst same
  rfl

variable (stamp : Intention → G) (m : Memory G)

theorem perform_quiet {call : MemoryCall} (quiet : flushes stamp m call = none)
    (io : Except String Unit) : (perform stamp m call io).1 = m := by
  cases call with
  | addOnce description dueAtNs nowNs => cases quiet
  | addRecurring description dueAtNs intervalNs nowNs =>
    simp only [flushes, ite_eq_left_iff, reduceCtorEq, imp_false, not_not] at quiet
    simp [perform, addRecurring, quiet]
  | remove id =>
    simp only [flushes, ite_eq_right_iff, reduceCtorEq, imp_false] at quiet
    have whole := List.filter_sublist.eq_of_length_le (Nat.le_of_not_lt quiet)
    have kept := restrict_same m.kept.store _ (List.filter_sublist.map Intention.id) whole
    simp only [perform, remove, kept, lt_self_iff_false, if_false]
  | complete id nowNs =>
    simp only [flushes] at quiet
    simp only [perform, complete]
    cases found : m.kept.store.intentions.find? (fun i => i.id = id) with
    | none => rfl
    | some i =>
      cases repeats : i.repeatIntervalNs with
      | none => simp [found, repeats] at quiet
      | some interval =>
        have zero : interval = 0 := by simpa [found, repeats] using quiet
        simp [repeats, zero]
  | injectDueIntentions nowNs overdueGraceNs =>
    simp only [flushes, ite_eq_left_iff, reduceCtorEq, imp_false, not_not] at quiet
    simp [perform, injectDueIntentions, quiet]

/-- A call that comes to its flush has edited the store before, whatever the answer. -/
theorem perform_flushes {call : MemoryCall} {s : IntentionStore} {agenda : TaskAgenda G}
    (edit : flushes stamp m call = some (s, agenda)) (io : Except String Unit) :
    (perform stamp m call io).1 =
        { m with kept := (flush { m.kept with store := s } (flushAnswer m.path io)).1,
                 agenda := agenda } ∧
      (perform stamp m call io).2 =
        (flush { m.kept with store := s } (flushAnswer m.path io)).2 := by
  cases call with
  | addOnce description dueAtNs nowNs =>
    cases edit
    cases answer : flushAnswer m.path io <;> simp [perform, addOnce, flush, answer, Except.map]
  | addRecurring description dueAtNs intervalNs nowNs =>
    by_cases zero : intervalNs = 0
    · simp [flushes, zero] at edit
    · simp only [flushes, if_neg zero, Option.some.injEq] at edit
      cases edit
      cases answer : flushAnswer m.path io <;>
        simp [perform, addRecurring, flush, answer, zero, Except.map]
  | remove id =>
    simp only [flushes, Option.ite_none_right_eq_some, Option.some.injEq] at edit
    obtain ⟨shorter, edit⟩ := edit
    cases edit
    have fewer : (m.kept.store.restrict (m.kept.store.intentions.filter fun i => i.id ≠ id)
        (List.filter_sublist.map Intention.id)).intentions.length <
          m.kept.store.intentions.length := shorter
    simp only [perform, remove, if_pos fewer]
    cases flushAnswer m.path io <;> simp [flush, Except.map]
  | complete id nowNs =>
    simp only [flushes] at edit
    cases found : m.kept.store.intentions.find? (fun i => i.id = id) with
    | none => simp [found] at edit
    | some i =>
      cases repeats : i.repeatIntervalNs with
      | none =>
        simp only [found, repeats, Option.some.injEq] at edit
        cases edit
        cases answer : flushAnswer m.path io <;>
          simp [perform, complete, flush, answer, found, repeats, Except.map]
      | some interval =>
        simp only [found, repeats, Option.ite_none_left_eq_some, Option.some.injEq] at edit
        obtain ⟨positive, edit⟩ := edit
        cases edit
        cases answer : flushAnswer m.path io <;>
          simp [perform, complete, flush, answer, found, repeats, positive, Except.map]
  | injectDueIntentions nowNs overdueGraceNs =>
    simp only [flushes, Option.ite_none_left_eq_some, Option.some.injEq] at edit
    obtain ⟨some_due, edit⟩ := edit
    simp only [perform, injectDueIntentions, if_neg some_due, edit]
    cases flushAnswer m.path io <;> simp [flush, Except.map]

/-! ## What is edited -/

theorem updateFirst_eq_self {id : Nat} {f : Intention → Intention} {intentions : List Intention}
    {i : Intention} (found : intentions.find? (fun i => i.id = id) = some i) :
    updateFirst id f intentions = intentions ↔ f i = i := by
  induction intentions with
  | nil => cases found
  | cons head rest ih =>
    by_cases own : head.id = id
    · rw [List.find?_cons_of_pos (by simpa using own)] at found
      cases found
      simp [updateFirst, own]
    · rw [List.find?_cons_of_neg (by simpa using own)] at found
      simp [updateFirst, own, ih found]

/-- Only a due time at the end of the clock stays where it is. -/
theorem nextDue_eq_self {dueAtNs interval : Nat} (positive : interval ≠ 0) (nowNs : Nat) :
    nextDue dueAtNs interval nowNs = dueAtNs ↔ dueAtNs = maxOf 64 := by
  simp only [nextDue]
  split <;> simp only [satAdd] <;> omega

theorem push_len (a : TaskAgenda G) (t : Mlfq.Task G) : len (push a t) = len a + 1 := by
  simp only [push]
  split <;> simp only [len, List.length_append, List.length_singleton] <;> omega

theorem injectEach_len (nowNs overdueGraceNs : Nat) (s : IntentionStore) (agenda : TaskAgenda G)
    (due : List Intention) :
    len (injectEach stamp nowNs overdueGraceNs s agenda due).2 = len agenda + due.length := by
  induction due generalizing s agenda with
  | nil => rfl
  | cons i rest ih =>
    rw [injectEach, ih, push_len, List.length_cons]
    omega

theorem erased_shorter {intentions : List Intention} {id : Nat} {i : Intention}
    (found : intentions.find? (fun i => i.id = id) = some i) :
    (intentions.eraseP fun i => i.id = id).length < intentions.length := by
  have listed := List.mem_of_find?_eq_some found
  have own := List.find?_some found
  have shorter : (intentions.eraseP fun i => i.id = id).length = intentions.length - 1 :=
    List.length_eraseP_of_mem (p := fun i => decide (i.id = id)) listed own
  have nonempty := List.length_pos_of_mem listed
  omega

theorem Changes.edits {call : MemoryCall} (changes : Changes m call) :
    ∃ s agenda, flushes stamp m call = some (s, agenda) ∧
      ¬ (s.intentions = m.kept.store.intentions ∧ agenda = m.agenda) := by
  cases call with
  | addOnce description dueAtNs nowNs =>
    refine ⟨_, _, rfl, ?_⟩
    rintro ⟨same, -⟩
    simp [IntentionStore.pushNew] at same
  | addRecurring description dueAtNs intervalNs nowNs =>
    refine ⟨_, _, if_neg changes, ?_⟩
    rintro ⟨same, -⟩
    simp [IntentionStore.pushNew] at same
  | remove id =>
    obtain ⟨i, stored, own⟩ := changes
    have shorter : (m.kept.store.intentions.filter fun i => i.id ≠ id).length <
        m.kept.store.intentions.length :=
      List.length_filter_lt_length_iff_exists.mpr ⟨i, stored, by simpa using own⟩
    refine ⟨_, _, if_pos shorter, ?_⟩
    rintro ⟨same, -⟩
    exact shorter.ne (congrArg List.length same)
  | complete id nowNs =>
    obtain ⟨i, found, positive, late⟩ := changes
    cases repeats : i.repeatIntervalNs with
    | none =>
      refine ⟨m.kept.store.restrict (m.kept.store.intentions.eraseP fun i => i.id = id)
        (List.eraseP_sublist.map Intention.id), m.agenda,
        by simp only [flushes, found, repeats], ?_⟩
      rintro ⟨same, -⟩
      exact (erased_shorter found).ne (congrArg List.length same)
    | some interval =>
      have nonzero : interval ≠ 0 := fun zero => positive (by rw [repeats, zero])
      refine ⟨m.kept.store.update id (reschedule (nextDue i.dueAtNs interval nowNs))
        (reschedule_id _), m.agenda, by simp only [flushes, found, repeats, if_neg nonzero], ?_⟩
      rintro ⟨same, -⟩
      have still := (updateFirst_eq_self found).mp same
      have due := (nextDue_eq_self nonzero nowNs).mp (congrArg Intention.dueAtNs still)
      have waiting : false = i.dispatched := congrArg Intention.dispatched still
      rcases late (by simp [repeats]) with dispatched | earlier
      · rw [dispatched] at waiting
        cases waiting
      · exact earlier due
  | injectDueIntentions nowNs overdueGraceNs =>
    obtain ⟨i, stored, due⟩ := changes
    have listed : i ∈ m.kept.store.intentions.filter fun i => i.isDue nowNs :=
      List.mem_filter.mpr ⟨stored, due⟩
    have some_due : ¬ (m.kept.store.intentions.filter fun i => i.isDue nowNs).isEmpty = true := by
      rw [List.isEmpty_iff]
      exact List.ne_nil_of_mem listed
    refine ⟨_, _, if_neg some_due, ?_⟩
    rintro ⟨-, same⟩
    have more := injectEach_len stamp nowNs overdueGraceNs m.kept.store m.agenda
      (m.kept.store.intentions.filter fun i => i.isDue nowNs)
    have nonempty := List.length_pos_of_mem listed
    rw [same] at more
    omega

/-- Otherwise the call does not come to its flush, or flushes the store it found. -/
theorem flushes_unchanged {call : MemoryCall} (quiet : ¬ Changes m call) {s : IntentionStore}
    {agenda : TaskAgenda G} (edit : flushes stamp m call = some (s, agenda)) :
    s = m.kept.store ∧ agenda = m.agenda := by
  cases call with
  | addOnce description dueAtNs nowNs => exact absurd trivial quiet
  | addRecurring description dueAtNs intervalNs nowNs =>
    have zero : intervalNs = 0 := not_not.mp quiet
    simp [flushes, zero] at edit
  | remove id =>
    simp only [flushes, Option.ite_none_right_eq_some] at edit
    obtain ⟨i, stored, own⟩ := List.length_filter_lt_length_iff_exists.mp edit.1
    exact absurd ⟨i, stored, by simpa using own⟩ quiet
  | complete id nowNs =>
    simp only [flushes] at edit
    cases found : m.kept.store.intentions.find? (fun i => i.id = id) with
    | none => simp [found] at edit
    | some i =>
      cases repeats : i.repeatIntervalNs with
      | none =>
        refine absurd ⟨i, found, ?_, ?_⟩ quiet <;> simp [repeats]
      | some interval =>
        simp only [found, repeats, Option.ite_none_left_eq_some, Option.some.injEq] at edit
        obtain ⟨positive, edit⟩ := edit
        cases edit
        have last : i.dispatched = false ∧ i.dueAtNs = maxOf 64 := by
          by_contra other
          refine quiet ⟨i, found, by simpa [repeats] using positive, ?_⟩
          intro _
          by_cases dispatched : i.dispatched = true
          · exact .inl dispatched
          · exact .inr fun due => other ⟨by simpa using dispatched, due⟩
        refine ⟨restrict_same _ _ _ ((updateFirst_eq_self found).mpr ?_), rfl⟩
        have still := (nextDue_eq_self positive nowNs).mpr last.2
        simp only [reschedule, still, ← last.1]
  | injectDueIntentions nowNs overdueGraceNs =>
    simp only [flushes, Option.ite_none_left_eq_some] at edit
    have due : ∃ i, i ∈ m.kept.store.intentions.filter fun i => i.isDue nowNs := by
      rw [List.isEmpty_iff] at edit
      exact List.exists_mem_of_ne_nil _ edit.1
    obtain ⟨i, listed⟩ := due
    exact absurd ⟨i, List.mem_filter.mp listed⟩ quiet

/-! ## Which calls are atomic -/

theorem failed_quiet {call : MemoryCall} (quiet : ¬ Changes m call) {io : Except String Unit}
    {e : IntentionStoreError} (failed : (perform stamp m call io).2 = .error e) :
    (perform stamp m call io).1 = m := by
  cases edit : flushes stamp m call with
  | none => exact perform_quiet stamp m edit io
  | some edited =>
    obtain ⟨s, agenda⟩ := edited
    obtain ⟨state, result⟩ := perform_flushes stamp m edit io
    obtain ⟨rfl, rfl⟩ := flushes_unchanged stamp m quiet edit
    rw [result] at failed
    rw [state]
    cases answer : flushAnswer m.path io with
    | ok done => simp [answer, flush] at failed
    | error message => rw [flush_error]

theorem flushAnswer_error {io : Except String Unit} (fails : WriteFails m io) :
    ∃ message, flushAnswer m.path io = .error message := by
  obtain ⟨backed, message, rfl⟩ := fails
  cases path : m.path with
  | none => exact absurd path backed
  | some path => exact ⟨message, rfl⟩

theorem flushAnswer_ok {io : Except String Unit} (works : ¬ WriteFails m io) :
    flushAnswer m.path io = .ok () := by
  cases path : m.path with
  | none => rfl
  | some path =>
    cases io with
    | ok done => rfl
    | error message => exact absurd ⟨by simp [path], message, rfl⟩ works

/-- A call is atomic unless it changes something and its write fails. -/
theorem perform_atomic_iff (call : MemoryCall) (io : Except String Unit) :
    AtomicCall stamp m call io ↔ ¬ (WriteFails m io ∧ Changes m call) := by
  constructor
  · rintro atomic ⟨fails, changes⟩
    obtain ⟨s, agenda, edit, differs⟩ := changes.edits stamp m
    obtain ⟨state, result⟩ := perform_flushes stamp m edit io
    obtain ⟨message, answer⟩ := flushAnswer_error m fails
    rw [answer, flush_error] at state result
    have same := atomic.unchanged _ result
    rw [state] at same
    exact differs same
  · intro allowed
    by_cases changes : Changes m call
    · obtain ⟨s, agenda, edit, -⟩ := changes.edits stamp m
      have works : ¬ WriteFails m io := fun fails => allowed ⟨fails, changes⟩
      have succeeds : (perform stamp m call io).2 = .ok () := by
        rw [(perform_flushes stamp m edit io).2, flushAnswer_ok m works]
        rfl
      constructor <;> intro e failed <;> rw [succeeds] at failed <;> cases failed
    · constructor
      · intro e failed
        rw [failed_quiet stamp m changes failed]
        exact ⟨rfl, rfl⟩
      · intro e failed
        rw [failed_quiet stamp m changes failed]
        exact ⟨rfl, rfl⟩

def gardener : Memory Unit :=
  ⟨some "intentions.jsonl", ⟨openStore none, none⟩, TaskAgenda.new⟩

def waterThePlants : MemoryCall := .addOnce "water the plants" 5 1

/-- The intention stays after the failed write, and retrying adds it a second time. -/
theorem failed_add_repeated :
    ¬ AtomicCall (fun _ => ()) gardener waterThePlants (.error "disk full") ∧
      (perform (fun _ => ()) gardener waterThePlants (.error "disk full")).2 =
        .error (.io "disk full") ∧
      ((perform (fun _ => ()) (perform (fun _ => ()) gardener waterThePlants
        (.error "disk full")).1 waterThePlants (.ok ())).1.kept.store.intentions.map
          Intention.description) = ["water the plants", "water the plants"] := by
  refine ⟨fun atomic => ?_, rfl, rfl⟩
  have same := (atomic.unchanged _ rfl).1
  exact absurd (congrArg List.length same) (by decide)

end Prospective
