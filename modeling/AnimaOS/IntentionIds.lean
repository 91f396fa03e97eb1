import AnimaOS.Machine
import AnimaOS.Prospective

/-!
# Ids of intentions over restarts

`open` rebuilds the counter of the store from the records that are still in the
file. A run adds, removes, completes and reopens; every flush succeeds. Ids are natural
numbers, which `counter_fits` holds against the `u64` of the source.
-/

namespace Prospective

open FixedWidth Machine

inductive StoreCall where
  | addOnce (description : String) (dueAtNs nowNs : Nat)
  | addRecurring (description : String) (dueAtNs intervalNs nowNs : Nat)
  | remove (id : Nat)
  | complete (id nowNs : Nat)
  | reopen
  deriving DecidableEq, Repr

/-- The response is the id that an add returned. -/
def storeStep (k : Kept) : StoreCall → Kept × Option Nat
  | .addOnce description dueAtNs nowNs =>
    let added := addOnce k description dueAtNs nowNs (.ok ())
    (added.1, added.2.toOption)
  | .addRecurring description dueAtNs intervalNs nowNs =>
    let added := addRecurring k description dueAtNs intervalNs nowNs (.ok ())
    (added.1, added.2.toOption)
  | .remove id => ((remove k id (.ok ())).1, none)
  | .complete id nowNs => ((complete k id nowNs (.ok ())).1, none)
  | .reopen => ({ k with store := openStore k.file }, none)

/-- The store of a path that has no file yet. -/
def newStore : Kept := ⟨openStore none, none⟩

def returnedIds (k : Kept) (calls : List StoreCall) : List Nat :=
  (trace storeStep k calls).filterMap Call.response

/-- A call that takes an id: `add_recurring` refuses an empty interval. -/
def TakesId : StoreCall → Prop
  | .addOnce .. => True
  | .addRecurring _ _ intervalNs _ => intervalNs ≠ 0
  | _ => False

/-- Every reopen that is followed by another add finds the latest added intention in the store. -/
def LatestKept (calls : List StoreCall) : Prop :=
  ∀ before after, calls = before ++ .reopen :: after → (∃ c ∈ after, TakesId c) →
    ∀ id, (returnedIds newStore before).getLast? = some id →
      id ∈ ids (final storeStep newStore before).store.intentions

/-! ## The counter of a reopened store -/

theorem nextAfter_below {intentions : List Intention} {nextId bound : Nat}
    (start : nextId ≤ bound) (below : ∀ id ∈ ids intentions, id < bound) :
    intentions.foldl nextAfter nextId ≤ bound := by
  induction intentions generalizing nextId with
  | nil => exact start
  | cons i rest ih =>
    have own : i.id < bound := below i.id (List.mem_cons_self)
    have next : nextAfter nextId i ≤ bound := by
      simp only [nextAfter]
      split <;> omega
    exact ih next fun id found => below id (List.mem_cons_of_mem _ found)

/-! ## What one call does -/

/-- The file lists the records of the store, and every record took its id in this run. -/
structure Tracked (k : Kept) (issued : List Nat) : Prop where
  synced : ids (loaded k.file) = ids k.store.intentions
  within : ∀ id ∈ ids k.store.intentions, id ∈ issued

/-- An add that is accepted takes the next id and is flushed. -/
theorem storeStep_takes (k : Kept) {c : StoreCall} (takes : TakesId c) :
    (storeStep k c).2 = some k.store.nextId ∧
      (storeStep k c).1.store.nextId = k.store.nextId + 1 ∧
      ids (storeStep k c).1.store.intentions = ids k.store.intentions ++ [k.store.nextId] ∧
      ids (loaded (storeStep k c).1.file) = ids (storeStep k c).1.store.intentions := by
  cases c with
  | addOnce description dueAtNs nowNs =>
    refine ⟨rfl, rfl, ?_, rfl⟩
    simp [storeStep, addOnce, flush, IntentionStore.pushNew, ids, Intention.once]
  | addRecurring description dueAtNs intervalNs nowNs =>
    have some : intervalNs ≠ 0 := takes
    simp [storeStep, addRecurring, some, flush, IntentionStore.pushNew, ids,
      Intention.recurring, Except.toOption, Except.map, loaded]
  | remove id => cases takes
  | complete id nowNs => cases takes
  | reopen => cases takes

/-- The call leaves the counter alone and adds no record, and the file follows the list. -/
def AddsNone (k : Kept) (c : StoreCall) : Prop :=
  (storeStep k c).2 = none ∧ (storeStep k c).1.store.nextId = k.store.nextId ∧
    (∀ id ∈ ids (storeStep k c).1.store.intentions, id ∈ ids k.store.intentions) ∧
    (ids (loaded k.file) = ids k.store.intentions →
      ids (loaded (storeStep k c).1.file) = ids (storeStep k c).1.store.intentions)

theorem remove_addsNone (k : Kept) (id : Nat) : AddsNone k (.remove id) := by
  refine ⟨rfl, ?_⟩
  simp only [storeStep, remove]
  split
  · next shorter =>
    refine ⟨rfl, ?_, fun _ => rfl⟩
    exact fun id found => (List.filter_sublist.map Intention.id).subset found
  · next same =>
    have all : k.store.intentions.filter (fun i => i.id ≠ id) = k.store.intentions := by
      exact List.filter_sublist.eq_of_length_le (Nat.le_of_not_lt same)
    refine ⟨rfl, ?_, ?_⟩
    · exact fun id found => (List.filter_sublist.map Intention.id).subset found
    · intro synced
      simpa only [IntentionStore.restrict, all] using synced

theorem complete_addsNone (k : Kept) (id nowNs : Nat) : AddsNone k (.complete id nowNs) := by
  refine ⟨rfl, ?_⟩
  simp only [storeStep, complete]
  split
  · exact ⟨rfl, fun _ found => found, fun synced => synced⟩
  · split
    · split
      · exact ⟨rfl, fun _ found => found, fun synced => synced⟩
      · refine ⟨rfl, ?_, fun _ => rfl⟩
        intro other found
        simpa [flush, IntentionStore.update, IntentionStore.restrict,
          ids_updateFirst id (f := reschedule _) fun _ => rfl] using found
    · refine ⟨rfl, ?_, fun _ => rfl⟩
      exact fun other found => (List.eraseP_sublist.map Intention.id).subset found

theorem refused_addsNone (k : Kept) (description : String) (dueAtNs nowNs : Nat) :
    AddsNone k (.addRecurring description dueAtNs 0 nowNs) := by
  simp [AddsNone, storeStep, addRecurring, Except.toOption]

/-- What a call answers and how it moves the counter. -/
theorem storeStep_cases (k : Kept) (c : StoreCall) :
    (TakesId c ∧ (storeStep k c).2 = some k.store.nextId ∧
        (storeStep k c).1.store.nextId = k.store.nextId + 1 ∧
        ids (storeStep k c).1.store.intentions = ids k.store.intentions ++ [k.store.nextId] ∧
        ids (loaded (storeStep k c).1.file) = ids (storeStep k c).1.store.intentions) ∨
      (c = .reopen ∧ (storeStep k c).2 = none ∧
        (storeStep k c).1.store = openStore k.file ∧ (storeStep k c).1.file = k.file) ∨
      (¬ TakesId c ∧ AddsNone k c) := by
  cases c with
  | addOnce description dueAtNs nowNs => exact Or.inl ⟨trivial, storeStep_takes k trivial⟩
  | addRecurring description dueAtNs intervalNs nowNs =>
    by_cases zero : intervalNs = 0
    · subst zero
      exact Or.inr (Or.inr ⟨fun takes => takes rfl, refused_addsNone k description dueAtNs nowNs⟩)
    · exact Or.inl ⟨zero, storeStep_takes k zero⟩
  | remove id => exact Or.inr (Or.inr ⟨fun takes => takes, remove_addsNone k id⟩)
  | complete id nowNs => exact Or.inr (Or.inr ⟨fun takes => takes, complete_addsNone k id nowNs⟩)
  | reopen => exact Or.inr (Or.inl ⟨rfl, rfl, rfl, rfl⟩)

theorem storeStep_tracked {k : Kept} {issued : List Nat} (tracked : Tracked k issued)
    (c : StoreCall) :
    Tracked (storeStep k c).1 (issued ++ (storeStep k c).2.toList) := by
  rcases storeStep_cases k c with ⟨-, answer, -, stored, synced⟩ | ⟨-, answer, store, file⟩ |
    ⟨-, answer, -, part, synced⟩
  · refine ⟨synced, ?_⟩
    intro id found
    rw [stored] at found
    rcases List.mem_append.mp found with found | found
    · exact List.mem_append_left _ (tracked.within id found)
    · simpa [answer] using Or.inr (List.mem_singleton.mp found)
  · have same : ids (storeStep k c).1.store.intentions = ids k.store.intentions := by
      rw [store]
      exact (ids_reset _).trans tracked.synced
    refine ⟨by rw [file, same, tracked.synced], ?_⟩
    intro id found
    exact List.mem_append_left _ (tracked.within id (same ▸ found))
  · refine ⟨synced tracked.synced, ?_⟩
    intro id found
    exact List.mem_append_left _ (tracked.within id (part id found))

theorem newStore_tracked : Tracked newStore [] := ⟨rfl, fun _ found => found⟩

theorem reopened_le {k : Kept} {issued : List Nat} (tracked : Tracked k issued) :
    (openStore k.file).nextId ≤ k.store.nextId := by
  refine nextAfter_below (Nat.zero_le _) ?_
  intro id found
  exact k.store.fresh id (tracked.synced ▸ found)

/-- No call moves the counter by more than one. -/
theorem storeStep_counter {k : Kept} {issued : List Nat} (tracked : Tracked k issued)
    (c : StoreCall) : (storeStep k c).1.store.nextId ≤ k.store.nextId + 1 := by
  rcases storeStep_cases k c with ⟨-, -, counter, -⟩ | ⟨-, -, store, -⟩ | ⟨-, -, counter, -⟩
  · exact Nat.le_of_eq counter
  · rw [store]
    exact Nat.le_succ_of_le (reopened_le tracked)
  · omega

/-! ## Runs -/

theorem returnedIds_append (k : Kept) (before after : List StoreCall) :
    returnedIds k (before ++ after) =
      returnedIds k before ++ returnedIds (final storeStep k before) after := by
  simp only [returnedIds, trace_append, List.filterMap_append]

theorem returnedIds_cons (k : Kept) (c : StoreCall) (rest : List StoreCall) :
    returnedIds k (c :: rest) =
      (storeStep k c).2.toList ++ returnedIds (storeStep k c).1 rest := by
  cases answer : (storeStep k c).2 <;> simp [returnedIds, trace, answer]

theorem final_tracked {k : Kept} {issued : List Nat} (tracked : Tracked k issued)
    (calls : List StoreCall) :
    Tracked (final storeStep k calls) (issued ++ returnedIds k calls) := by
  induction calls generalizing k issued with
  | nil => simpa [returnedIds, trace, final] using tracked
  | cons c rest ih =>
    have next := ih (storeStep_tracked tracked c)
    rw [returnedIds_cons, ← List.append_assoc]
    exact next

theorem final_counter {k : Kept} {issued : List Nat} (tracked : Tracked k issued)
    (calls : List StoreCall) :
    (final storeStep k calls).store.nextId ≤ k.store.nextId + calls.length := by
  induction calls generalizing k issued with
  | nil => exact Nat.le_refl _
  | cons c rest ih =>
    have moved := storeStep_counter tracked c
    have later := ih (storeStep_tracked tracked c)
    rw [final, List.length_cons]
    omega

/-- The next id is a `u64` for at least that many calls. -/
theorem counter_fits {calls : List StoreCall} (few : calls.length ≤ maxOf 64) :
    (final storeStep newStore calls).store.nextId ≤ maxOf 64 := by
  have counter := final_counter newStore_tracked calls
  have first : newStore.store.nextId = 0 := rfl
  omega

theorem returnedIds_none {calls : List StoreCall} (none : ∀ c ∈ calls, ¬ TakesId c) (k : Kept) :
    returnedIds k calls = [] := by
  induction calls generalizing k with
  | nil => rfl
  | cons c rest ih =>
    have later := ih (fun d hd => none d (List.mem_cons_of_mem _ hd)) (storeStep k c).1
    rw [returnedIds_cons, later]
    rcases storeStep_cases k c with ⟨takes, -⟩ | ⟨-, answer, -⟩ | ⟨-, answer, -⟩
    · exact absurd takes (none c List.mem_cons_self)
    · simp [answer]
    · simp [answer]

theorem getLast_of_ordered {issued : List Nat} (ordered : issued.Pairwise (· < ·)) {last : Nat}
    (h : issued.getLast? = some last) : ∀ id ∈ issued, id ≤ last := by
  obtain ⟨front, rfl⟩ := List.getLast?_eq_some_iff.mp h
  intro id found
  rcases List.mem_append.mp found with found | found
  · have below := (List.pairwise_append.mp ordered).2.2 id found last (List.mem_singleton_self _)
    exact Nat.le_of_lt below
  · exact Nat.le_of_eq (List.mem_singleton.mp found)

/-- `LatestKept` for a run that goes on from a state in which `issued` were returned. -/
def LatestKeptFrom (k : Kept) (issued : List Nat) (calls : List StoreCall) : Prop :=
  ∀ before after, calls = before ++ .reopen :: after → (∃ c ∈ after, TakesId c) →
    ∀ id, (issued ++ returnedIds k before).getLast? = some id →
      id ∈ ids (final storeStep k before).store.intentions

theorem LatestKeptFrom.tail {k : Kept} {issued : List Nat} {c : StoreCall}
    {rest : List StoreCall} (h : LatestKeptFrom k issued (c :: rest)) :
    LatestKeptFrom (storeStep k c).1 (issued ++ (storeStep k c).2.toList) rest := by
  intro before after split takes id latest
  refine h (c :: before) after (by rw [split]; rfl) takes id ?_
  rw [returnedIds_cons, ← List.append_assoc]
  exact latest

/-- The latest id is the greatest one, and still in the file that is read. -/
theorem reopened_above {k : Kept} {issued : List Nat} (tracked : Tracked k issued)
    (ordered : issued.Pairwise (· < ·))
    (kept : ∀ last, issued.getLast? = some last → last ∈ ids k.store.intentions) :
    ∀ id ∈ issued, id < (openStore k.file).nextId := by
  intro id found
  cases latest : issued.getLast? with
  | none =>
    rw [List.getLast?_eq_none_iff.mp latest] at found
    cases found
  | some last =>
    have stored := kept last latest
    have above := (nextAfter_above (loaded k.file) 0).2 last (tracked.synced ▸ stored)
    have most := getLast_of_ordered ordered latest id found
    exact Nat.lt_of_le_of_lt most above

/-- As long as the counter stays above the issued ids, the next id extends the order. -/
theorem increasing_of_kept (calls : List StoreCall) {k : Kept} {issued : List Nat}
    (tracked : Tracked k issued) (ordered : issued.Pairwise (· < ·))
    (ahead : ∀ id ∈ issued, id < k.store.nextId) (kept : LatestKeptFrom k issued calls) :
    (issued ++ returnedIds k calls).Pairwise (· < ·) := by
  induction calls generalizing k issued with
  | nil => simpa [returnedIds, trace] using ordered
  | cons c rest ih =>
    have next := storeStep_tracked tracked c
    have later := kept.tail
    rw [returnedIds_cons, ← List.append_assoc]
    rcases storeStep_cases k c with ⟨-, answer, counter, -⟩ | ⟨rfl, answer, store, -⟩ |
      ⟨-, answer, counter, -⟩
    · rw [answer] at next later ⊢
      refine ih next ?_ ?_ later
      · exact List.pairwise_append.mpr ⟨ordered, List.pairwise_singleton _ _,
          fun id found new same => by rw [List.mem_singleton.mp same]; exact ahead id found⟩
      · intro id found
        rcases List.mem_append.mp found with found | found
        · have below := ahead id found
          omega
        · have own : id = k.store.nextId := List.mem_singleton.mp found
          omega
    · by_cases takes : ∃ d ∈ rest, TakesId d
      · rw [answer] at next later ⊢
        simp only [Option.toList_none, List.append_nil] at next later ⊢
        refine ih next ordered ?_ later
        rw [store]
        refine reopened_above tracked ordered fun last latest => ?_
        exact kept [] rest rfl takes last (by simpa [returnedIds, trace] using latest)
      · have quiet := returnedIds_none (fun d hd took => takes ⟨d, hd, took⟩)
          (storeStep k StoreCall.reopen).1
        rw [answer, quiet]
        simpa using ordered
    · rw [answer] at next later ⊢
      simp only [Option.toList_none, List.append_nil] at next later ⊢
      exact ih next ordered (fun id found => counter ▸ ahead id found) later

/-- A counter that fell back to an issued id hands it out, or a smaller one. -/
theorem reused_of_behind (calls : List StoreCall) {k : Kept} {issued : List Nat}
    (tracked : Tracked k issued) {last : Nat} (behind : k.store.nextId ≤ last)
    (takes : ∃ c ∈ calls, TakesId c) : ∃ id ∈ returnedIds k calls, id ≤ last := by
  induction calls generalizing k issued with
  | nil => simp at takes
  | cons c rest ih =>
    have next := storeStep_tracked tracked c
    rw [returnedIds_cons]
    have rest_takes (other : ¬ TakesId c) : ∃ d ∈ rest, TakesId d := by
      obtain ⟨d, hd, took⟩ := takes
      rcases List.mem_cons.mp hd with rfl | hd
      · exact absurd took other
      · exact ⟨d, hd, took⟩
    have later (other : ¬ TakesId c) (still : (storeStep k c).1.store.nextId ≤ last) :
        ∃ id ∈ (storeStep k c).2.toList ++ returnedIds (storeStep k c).1 rest, id ≤ last := by
      obtain ⟨id, found, small⟩ := ih next still (rest_takes other)
      exact ⟨id, List.mem_append_right _ found, small⟩
    rcases storeStep_cases k c with ⟨-, answer, -⟩ | ⟨rfl, -, store, -⟩ | ⟨other, -, counter, -⟩
    · exact ⟨k.store.nextId, by simp [answer], behind⟩
    · refine later (fun took => took) ?_
      rw [store]
      exact Nat.le_trans (reopened_le tracked) behind
    · exact later other (by omega)

/-- The ids are returned in increasing order exactly when no reopen that is followed by another
add finds the latest intention gone. -/
theorem ids_increase_iff (calls : List StoreCall) :
    (returnedIds newStore calls).Pairwise (· < ·) ↔ LatestKept calls := by
  constructor
  · rintro ordered before after rfl takes last latest
    by_contra gone
    have tracked := final_tracked newStore_tracked before
    rw [List.nil_append] at tracked
    rw [returnedIds_append, returnedIds_cons] at ordered
    obtain ⟨earlier, -, across⟩ := List.pairwise_append.mp ordered
    have most := getLast_of_ordered earlier latest
    have behind : (storeStep (final storeStep newStore before) .reopen).1.store.nextId ≤ last := by
      refine nextAfter_below (Nat.zero_le _) ?_
      intro id found
      have stored : id ∈ ids (final storeStep newStore before).store.intentions :=
        tracked.synced ▸ found
      have small := most id (tracked.within id stored)
      have other : id ≠ last := fun same => gone (same ▸ stored)
      omega
    obtain ⟨id, found, small⟩ :=
      reused_of_behind after (storeStep_tracked tracked .reopen) behind takes
    have mem : last ∈ returnedIds newStore before := List.mem_of_getLast? latest
    have above := across last mem id (List.mem_append_right _ found)
    omega
  · intro kept
    exact increasing_of_kept calls newStore_tracked List.Pairwise.nil
      (fun _ found => absurd found List.not_mem_nil) kept

/-- A reminder is added and removed, the process restarts and adds another one. -/
theorem id_reused : ¬ (returnedIds newStore [.addOnce "first" 0 0, .remove 0, .reopen,
    .addOnce "second" 0 0]).Pairwise (· < ·) := by decide

end Prospective
