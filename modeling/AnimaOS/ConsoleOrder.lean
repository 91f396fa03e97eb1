import AnimaOS.ConsoleHub

/-!
# The order of console event numbers

Direct publications take the hub's counter, the audit tailer brings numbers of
its own. The numbers a subscriber gets increase as long as the tailer's numbers
are not below the counter when they arrive.
-/

namespace ConsoleHub

open FixedWidth Machine

variable {Payload : Type}

/-- The numbers strictly increase, so no two are the same. -/
def Increasing (events : List (Tagged Payload)) : Prop := (events.map Prod.fst).Pairwise (· < ·)

structure Ordered (inner : HubInner Payload) : Prop where
  live : ∀ s ∈ inner.subscribers, Increasing s.tx.sent
  replay : Increasing (snapshot inner)

/-- No publication brings a number below the counter, and none but the last takes the largest
number there is. -/
def InOrder (counter : Nat) : List (Publication Payload) → Prop
  | [] => True
  | p :: rest =>
    counter ≤ p.number counter ∧ (rest = [] ∨ p.number counter < maxOf 64) ∧
      InOrder (max counter (wrap 64 (p.number counter + 1))) rest

/-! ## The replay snapshot -/

/-- The events a snapshot is made of. -/
def kept (inner : HubInner Payload) : List (Tagged Payload) :=
  inner.lastVitals.toList ++ inner.lastState.toList ++ inner.recent

theorem snapshot_increasing {inner : HubInner Payload} (distinct : ((kept inner).map Prod.fst).Nodup) :
    Increasing (snapshot inner) := by
  have permuted := List.mergeSort_perm (kept inner) fun a b => a.1 ≤ b.1
  have unequal : ((snapshot inner).map Prod.fst).Nodup :=
    (permuted.map Prod.fst).nodup_iff.mpr distinct
  have sorted : (snapshot inner).Pairwise fun a b => a.1 ≤ b.1 := by
    apply List.Pairwise.imp fun compared => of_decide_eq_true compared
    apply List.pairwise_mergeSort
    · intro a b c first second
      rw [decide_eq_true_eq] at *
      exact Nat.le_trans first second
    · intro a b
      rw [Bool.or_eq_true, decide_eq_true_eq, decide_eq_true_eq]
      exact Nat.le_total a.1 b.1
  rw [Increasing, List.pairwise_map]
  rw [List.nodup_iff_pairwise_ne, List.pairwise_map] at unequal
  exact (sorted.and unequal).imp fun both => Nat.lt_of_le_of_ne both.1 both.2

/-- A publication drops some of the kept events and adds at most itself. -/
theorem kept_publishLocked (inner : HubInner Payload) (seq : Nat) (event : OperatorEvent Payload) :
    ∃ others, others.Sublist (kept inner) ∧
      (kept (publishLocked inner seq event) = others ∨
        (kept (publishLocked inner seq event)).Perm ((seq, event) :: others)) := by
  cases event with
  | vitals content =>
    refine ⟨inner.lastState.toList ++ inner.recent, ?_, .inr ?_⟩
    · rw [kept, List.append_assoc]
      exact List.sublist_append_right _ _
    · exact List.Perm.refl _
  | state content =>
    refine ⟨inner.lastVitals.toList ++ inner.recent, ?_, .inr ?_⟩
    · rw [kept, List.append_assoc]
      exact (List.sublist_append_right _ _).append_left _
    · simp only [kept, publishLocked, remember, Option.toList_some, List.append_assoc,
        List.singleton_append]
      exact List.perm_middle
  | heartbeat content => exact ⟨kept inner, List.Sublist.refl _, .inl rfl⟩
  | feed content =>
    let dropped := inner.recent.length + 1 - replayCapacity
    refine ⟨inner.lastVitals.toList ++ inner.lastState.toList ++ inner.recent.drop dropped, ?_,
      .inr ?_⟩
    · exact (List.drop_sublist _ _).append_left _
    · have short : dropped ≤ inner.recent.length := by
        simp only [dropped, replayCapacity]
        omega
      simp only [kept, publishLocked, remember, List.length_append, List.length_singleton]
      rw [List.drop_append_of_le_length short, ← List.append_assoc]
      exact List.perm_append_comm

theorem mem_kept_publishLocked {inner : HubInner Payload} {seq : Nat} {event : OperatorEvent Payload}
    {e : Tagged Payload} (listed : e ∈ kept (publishLocked inner seq event)) :
    e ∈ kept inner ∨ e = (seq, event) := by
  obtain ⟨others, sublist, now⟩ := kept_publishLocked inner seq event
  rcases now with same | permuted
  · rw [same] at listed
    exact .inl (sublist.subset listed)
  · rcases List.mem_cons.mp (permuted.mem_iff.mp listed) with new | earlier
    · exact .inr new
    · exact .inl (sublist.subset earlier)

theorem nodup_kept_publishLocked {inner : HubInner Payload} {seq : Nat}
    (distinct : ((kept inner).map Prod.fst).Nodup) (above : ∀ e ∈ kept inner, e.1 < seq)
    (event : OperatorEvent Payload) :
    ((kept (publishLocked inner seq event)).map Prod.fst).Nodup := by
  obtain ⟨others, sublist, now⟩ := kept_publishLocked inner seq event
  have before : (others.map Prod.fst).Nodup := distinct.sublist (sublist.map Prod.fst)
  rcases now with same | permuted
  · rwa [same]
  · rw [(permuted.map Prod.fst).nodup_iff, List.map_cons, List.nodup_cons]
    refine ⟨?_, before⟩
    intro repeated
    obtain ⟨e, listed, same⟩ := List.mem_map.mp repeated
    have below := above e (sublist.subset listed)
    omega

/-! ## What one call keeps -/

/-- What has been sent and what is kept is in order, and every number lies below the bound. -/
structure Sound (inner : HubInner Payload) (bound : Nat) : Prop where
  live : ∀ s ∈ inner.subscribers, Increasing s.tx.sent
  liveBelow : ∀ s ∈ inner.subscribers, ∀ e ∈ s.tx.sent, e.1 < bound
  kept : ((kept inner).map Prod.fst).Nodup
  keptBelow : ∀ e ∈ ConsoleHub.kept inner, e.1 < bound

theorem increasing_snoc {events : List (Tagged Payload)} (increasing : Increasing events)
    {event : Tagged Payload} (below : ∀ e ∈ events, e.1 < event.1) :
    Increasing (events ++ [event]) := by
  rw [Increasing, List.map_append, List.pairwise_append]
  refine ⟨increasing, List.pairwise_singleton _ _, ?_⟩
  intro a listed b last
  obtain ⟨e, member, rfl⟩ := List.mem_map.mp listed
  cases List.mem_singleton.mp last
  exact below e member

theorem Sound.publishLocked {inner : HubInner Payload} {bound seq : Nat} (sound : Sound inner bound)
    (above : bound ≤ seq) (event : OperatorEvent Payload) :
    Sound (publishLocked inner seq event) (seq + 1) := by
  constructor
  · intro s listed
    rw [publishLocked_subscribers] at listed
    obtain ⟨t, member, rfl⟩ := mem_fanOut listed
    apply increasing_snoc (sound.live t member)
    exact fun e sent => Nat.lt_of_lt_of_le (sound.liveBelow t member e sent) above
  · intro s listed e sent
    rw [publishLocked_subscribers] at listed
    obtain ⟨t, member, rfl⟩ := mem_fanOut listed
    rcases List.mem_append.mp sent with earlier | last
    · have below := sound.liveBelow t member e earlier
      omega
    · cases List.mem_singleton.mp last
      exact Nat.lt_succ_self seq
  · apply nodup_kept_publishLocked sound.kept
    exact fun e listed => Nat.lt_of_lt_of_le (sound.keptBelow e listed) above
  · intro e listed
    rcases mem_kept_publishLocked listed with earlier | rfl
    · have below := sound.keptBelow e earlier
      omega
    · exact Nat.lt_succ_self _

theorem hangUp_sent (id : Nat) (s : Subscriber Payload) : (hangUp id s).tx.sent = s.tx.sent := by
  rw [hangUp]
  split
  · rfl
  · rfl

/-- A call that publishes nothing leaves every number alone. -/
theorem quiet_step {a : Action Payload} (quiet : a.publication? = none) (inner : HubInner Payload) :
    (step inner a).1.seq = inner.seq ∧ kept (step inner a).1 = kept inner ∧
      ∀ s ∈ (step inner a).1.subscribers,
        s.tx.sent = [] ∨ ∃ t ∈ inner.subscribers, s.tx.sent = t.tx.sent := by
  cases a with
  | publication p => cases quiet
  | subscribe =>
    refine ⟨rfl, rfl, ?_⟩
    intro s listed
    rcases List.mem_append.mp listed with earlier | added
    · exact .inr ⟨s, earlier, rfl⟩
    · cases List.mem_singleton.mp added
      exact .inl rfl
  | unsubscribe id =>
    refine ⟨rfl, rfl, ?_⟩
    intro s listed
    exact .inr ⟨s, (List.mem_filter.mp listed).1, rfl⟩
  | hangUp id =>
    refine ⟨rfl, rfl, ?_⟩
    intro s listed
    obtain ⟨t, member, rfl⟩ := List.mem_map.mp listed
    exact .inr ⟨t, member, hangUp_sent id t⟩

theorem Sound.quiet {inner : HubInner Payload} {bound : Nat} (sound : Sound inner bound)
    {a : Action Payload} (quiet : a.publication? = none) : Sound (step inner a).1 bound := by
  obtain ⟨-, same, subscribers⟩ := quiet_step quiet inner
  constructor
  · intro s listed
    rcases subscribers s listed with empty | ⟨t, member, sent⟩
    · rw [empty]
      exact List.Pairwise.nil
    · rw [sent]
      exact sound.live t member
  · intro s listed e
    rcases subscribers s listed with empty | ⟨t, member, sent⟩
    · rw [empty]
      exact fun none => absurd none List.not_mem_nil
    · rw [sent]
      exact sound.liveBelow t member e
  · rw [same]
    exact sound.kept
  · rw [same]
    exact sound.keptBelow

theorem Sound.ordered {inner : HubInner Payload} {bound : Nat} (sound : Sound inner bound) :
    Ordered inner := ⟨sound.live, snapshot_increasing sound.kept⟩

theorem default_sound : Sound (.default : HubInner Payload) 0 := by
  constructor
  · exact fun s listed => absurd listed List.not_mem_nil
  · exact fun s listed => absurd listed List.not_mem_nil
  · exact List.nodup_nil
  · exact fun e listed => absurd listed List.not_mem_nil

/-! ## Whole runs -/

/-- The bound stays at the counter until the last publication. -/
theorem final_sound {calls : List (Action Payload)} {inner : HubInner Payload} {bound : Nat}
    (sound : Sound inner bound) (reached : publications calls = [] ∨ bound ≤ inner.seq)
    (inOrder : InOrder inner.seq (publications calls)) :
    ∃ bound', Sound (final step inner calls) bound' := by
  induction calls generalizing inner bound with
  | nil => exact ⟨bound, sound⟩
  | cons a rest ih =>
    cases published : a.publication? with
    | none =>
      have skipped : publications (a :: rest) = publications rest :=
        List.filterMap_cons_none published
      rw [skipped] at reached inOrder
      rw [← (quiet_step published inner).1] at reached inOrder
      exact ih (sound.quiet published) reached inOrder
    | some p =>
      have split : publications (a :: rest) = p :: publications rest :=
        List.filterMap_cons_some published
      rw [split] at reached inOrder
      obtain ⟨above, room, inOrder⟩ := inOrder
      have met : bound ≤ inner.seq := reached.resolve_left (List.cons_ne_nil _ _)
      cases a with
      | publication q =>
        cases published
        apply ih (sound.publishLocked (Nat.le_trans met above) p.event)
        · rcases room with done | small
          · exact .inl done
          · right
            rw [publishLocked_seq, wrap_of_le_max small]
            exact Nat.le_max_right _ _
        · rwa [publishLocked_seq]
      | subscribe => cases published
      | unsubscribe id => cases published
      | hangUp id => cases published

theorem inOrder_of_append {before later : List (Publication Payload)} {counter : Nat}
    (inOrder : InOrder counter (before ++ later)) : InOrder counter before := by
  induction before generalizing counter with
  | nil => trivial
  | cons p rest ih =>
    obtain ⟨above, room, inOrder⟩ := inOrder
    exact ⟨above, room.imp_left fun none => (List.append_eq_nil_iff.mp none).1, ih inOrder⟩

/-! ## A subscriber that is there from the start -/

/-- The numbers the publications get. -/
def numbers (counter : Nat) : List (Publication Payload) → List Nat
  | [] => []
  | p :: rest =>
    p.number counter :: numbers (max counter (wrap 64 (p.number counter + 1))) rest

theorem fanOut_listening {subscribers : List (Subscriber Payload)} {s : Subscriber Payload}
    (listed : s ∈ subscribers) (listening : s.tx.hungUp = false) (event : Tagged Payload) :
    { s with tx := { s.tx with sent := s.tx.sent ++ [event] } } ∈ fanOut subscribers event := by
  apply List.mem_filterMap.mpr
  refine ⟨s, listed, ?_⟩
  rw [send, if_neg (by simp [listening])]
  rfl

theorem final_delivers (published : List (Publication Payload)) {inner : HubInner Payload}
    {s : Subscriber Payload} (listed : s ∈ inner.subscribers) (listening : s.tx.hungUp = false) :
    ∃ s' ∈ (final step inner (published.map .publication)).subscribers,
      s'.tx.sent.map Prod.fst = s.tx.sent.map Prod.fst ++ numbers inner.seq published := by
  induction published generalizing inner s with
  | nil => exact ⟨s, listed, (List.append_nil _).symm⟩
  | cons p rest ih =>
    have delivered := fanOut_listening listed listening (p.number inner.seq, p.event)
    rw [← publishLocked_subscribers] at delivered
    obtain ⟨s', member, sent⟩ := ih delivered listening
    refine ⟨s', member, ?_⟩
    rw [sent, publishLocked_seq, List.map_append, List.append_assoc]
    rfl

theorem number_lt (p : Publication Payload) {counter : Nat} (small : counter < 2 ^ 64) :
    p.number counter < 2 ^ 64 := by
  cases p with
  | publish event => exact small
  | publishAt seq event => exact seq.isLt

theorem inOrder_of_increasing {published : List (Publication Payload)} {counter : Nat}
    {before : List Nat} (small : counter < 2 ^ 64)
    (reached : counter = 0 ∨ ∃ n ∈ before, n + 1 = counter)
    (increasing : (before ++ numbers counter published).Pairwise (· < ·)) :
    InOrder counter published := by
  induction published generalizing counter before with
  | nil => trivial
  | cons p rest ih =>
    have fits := number_lt p small
    have passed : ∀ n ∈ before, n < p.number counter := fun n listed =>
      (List.pairwise_append.mp increasing).2.2 n listed _ List.mem_cons_self
    have above : counter ≤ p.number counter := by
      rcases reached with start | ⟨n, listed, rfl⟩
      · omega
      · exact passed n listed
    have small' : max counter (wrap 64 (p.number counter + 1)) < 2 ^ 64 :=
      Nat.max_lt.mpr ⟨small, Nat.mod_lt _ (by decide)⟩
    have room : rest = [] ∨ p.number counter < maxOf 64 := by
      cases rest with
      | nil => exact .inl rfl
      | cons q rest =>
        have next := number_lt q small'
        have later : p.number counter < q.number (max counter (wrap 64 (p.number counter + 1))) :=
          List.rel_of_pairwise_cons (List.pairwise_append.mp increasing).2.1 List.mem_cons_self
        right
        simp only [maxOf]
        omega
    refine ⟨above, room, ?_⟩
    cases rest with
    | nil => trivial
    | cons q rest =>
      have inside : p.number counter < maxOf 64 := room.resolve_left (List.cons_ne_nil _ _)
      apply @ih _ (before ++ [p.number counter]) small'
      · right
        refine ⟨p.number counter, List.mem_append_right _ (List.mem_singleton_self _), ?_⟩
        rw [wrap_of_le_max inside]
        omega
      · rwa [List.append_assoc]

theorem publications_map (published : List (Publication Payload)) :
    publications (published.map .publication) = published := by
  induction published with
  | nil => rfl
  | cons p rest ih => exact congrArg (p :: ·) ih

/-- The first call may be a subscription, which then sees every number. -/
theorem numbers_increase {published : List (Publication Payload)}
    (ordered : ∀ calls, publications calls <+: published → Ordered (hubAfter calls)) :
    (numbers 0 published).Pairwise (· < ·) := by
  let calls : List (Action Payload) := .subscribe :: published.map .publication
  have all : publications calls = published := publications_map published
  have present : (⟨0, ⟨[], false⟩⟩ : Subscriber Payload) ∈
      (step (.default : HubInner Payload) .subscribe).1.subscribers := List.mem_singleton_self _
  obtain ⟨s, member, sent⟩ := final_delivers published present rfl
  have increasing : (s.tx.sent.map Prod.fst).Pairwise (· < ·) :=
    (ordered calls (all ▸ List.prefix_refl _)).live s member
  rwa [sent] at increasing

/-- Whenever subscribers come and go, every stream and every snapshot increases, exactly when the
publications bring their numbers in order. -/
theorem event_ids_increase_iff (published : List (Publication Payload)) :
    (∀ calls, publications calls <+: published → Ordered (hubAfter calls)) ↔
      InOrder 0 published := by
  constructor
  · intro ordered
    exact @inOrder_of_increasing _ published 0 [] (by decide) (.inl rfl) (numbers_increase ordered)
  · rintro inOrder calls ⟨later, rfl⟩
    obtain ⟨bound, sound⟩ := final_sound default_sound (.inr (Nat.zero_le _)) (inOrder_of_append inOrder)
    exact sound.ordered

/-- Two hundred direct publications before the tailer brings the first line, which ends at byte
150. -/
def lateLine : List (Publication Unit) :=
  List.replicate 200 (.publish (.vitals ())) ++ [.publishAt 150 (.feed ())]

theorem late_line_repeats_number : ¬ ∀ calls, publications calls <+: lateLine →
    Ordered (hubAfter calls) := by
  intro ordered
  have repeated : ¬ (numbers 0 lateLine).Pairwise (· < ·) := by decide +kernel
  exact repeated (numbers_increase ordered)

end ConsoleHub
