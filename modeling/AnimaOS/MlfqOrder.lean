import AnimaOS.Mlfq

/-!
# Conservation and order of the feedback queue

The three tiers read one after the other are the order in which tasks leave if
nothing else arrives. A boost keeps that order and a selection takes its head.
-/

namespace Mlfq

open Machine

universe u v

variable {G : Type u} {H : Type v}

def queue (a : TaskAgenda G) : List (Task G) := a.high ++ a.medium ++ a.low

/-- A task without the level a boost rewrites. -/
def body (t : Task G) : Task G := { t with mlfqLevel := 0 }

def bodies (ts : List (Task G)) : List (Task G) := ts.map body

theorem bodies_append (xs ys : List (Task G)) : bodies (xs ++ ys) = bodies xs ++ bodies ys :=
  List.map_append

theorem length_queue (a : TaskAgenda G) : (queue a).length = len a := by
  simp [queue, len, Nat.add_assoc]

theorem bodies_toHigh (ts : List (Task G)) : bodies (ts.map toHigh) = bodies ts := by
  simp [bodies, body, toHigh, Function.comp_def]

theorem boost_bodies (a : TaskAgenda G) : bodies (queue (boostAllToHigh a).1) = bodies (queue a) := by
  simp only [queue, boostAllToHigh, List.append_nil, bodies_append, bodies_toHigh]

theorem checkAndBoost_bodies (s : IterationAwareMlfq G) (a : TaskAgenda G) :
    bodies (queue (checkAndBoost s a).1) = bodies (queue a) := by
  simp only [checkAndBoost]
  split
  · exact boost_bodies a
  · rfl

theorem select_none {a : TaskAgenda G} (h : selectOptimalTask a = none) : queue a = [] := by
  obtain ⟨high, medium, low⟩ := a
  cases high <;> cases medium <;> cases low <;> simp_all [selectOptimalTask, queue]

theorem select_some {a b : TaskAgenda G} {t : Task G} (h : selectOptimalTask a = some (t, b)) :
    queue a = t :: queue b := by
  obtain ⟨high, medium, low⟩ := a
  cases high <;> cases medium <;> cases low <;> simp [selectOptimalTask] at h <;>
    obtain ⟨rfl, rfl⟩ := h <;> rfl

theorem push_cases (a : TaskAgenda G) (t : Task G) :
    (tierOf t = 0 ∧ push a t = { a with high := a.high ++ [t] }) ∨
    (tierOf t = 1 ∧ push a t = { a with medium := a.medium ++ [t] }) ∨
    (tierOf t = 2 ∧ push a t = { a with low := a.low ++ [t] }) := by
  have clamped : tierOf t = 0 ∨ tierOf t = 1 ∨ tierOf t = 2 := by
    simp only [tierOf]
    omega
  simp only [push]
  rcases clamped with tier | tier | tier <;> simp [tier]

theorem push_perm (a : TaskAgenda G) (t : Task G) : (queue (push a t)).Perm (queue a ++ [t]) := by
  have behind : ∀ xs ys : List (Task G), (xs ++ [t] ++ ys).Perm (xs ++ ys ++ [t]) := by
    intro xs ys
    simp only [List.append_assoc]
    exact List.perm_append_comm.append_left xs
  rcases push_cases a t with ⟨-, placed⟩ | ⟨-, placed⟩ | ⟨-, placed⟩
  · simpa [placed, queue] using behind a.high (a.medium ++ a.low)
  · simpa [placed, queue] using behind (a.high ++ a.medium) a.low
  · simp [placed, queue]

theorem pushAll_perm (a : TaskAgenda G) (ts : List (Task G)) :
    (queue (pushAll a ts)).Perm (queue a ++ ts) := by
  induction ts generalizing a with
  | nil => simp [pushAll]
  | cons t rest ih =>
    refine (ih (push a t)).trans ?_
    simpa using (push_perm a t).append_right rest

/-! ## Runs -/

abbrev LoopCall (G : Type u) := Call (Loop G) (Iteration G) (Option (Task G))

def pushed (is : List (Iteration G)) : List (Task G) := is.flatMap Iteration.arrivals

def dispatched (cs : List (LoopCall G)) : List (Task G) := cs.filterMap Call.response

/-- The two ways an agenda is served: its head is dispatched, or it is empty. -/
theorem serve_cases (s : IterationAwareMlfq G) (a : TaskAgenda G) (backend : String → Stream) :
    (∃ t rest, queue (checkAndBoost s a).1 = t :: queue rest ∧
      selectOptimalTask (checkAndBoost s a).1 = some (t, rest) ∧
      serve s a backend = (⟨rest, (dispatchTask s t backend).1⟩, some t)) ∨
    (queue (checkAndBoost s a).1 = [] ∧
      serve s a backend = (⟨(checkAndBoost s a).1, s⟩, none)) := by
  cases selected : selectOptimalTask (checkAndBoost s a).1 with
  | none => exact .inr ⟨select_none selected, by simp only [serve, selected]⟩
  | some chosen =>
    exact .inl ⟨chosen.1, chosen.2, select_some selected, rfl, by simp only [serve, selected]⟩

/-- One iteration takes the head off the queue that the arrivals leave, if there is one. -/
theorem step_bodies (l : Loop G) (i : Iteration G) :
    bodies (queue (pushAll l.agenda i.arrivals)) =
      bodies ((step l i).2.toList ++ queue (step l i).1.agenda) := by
  rw [← checkAndBoost_bodies l.scheduler]
  rcases serve_cases l.scheduler (pushAll l.agenda i.arrivals) i.backend with
    ⟨t, rest, split, -, served⟩ | ⟨empty, served⟩
  · simp only [step, served, split]
    rfl
  · simp only [step, served]
    rfl

theorem dispatched_cons (c : LoopCall G) (cs : List (LoopCall G)) :
    dispatched (c :: cs) = c.response.toList ++ dispatched cs := by
  simp only [dispatched]
  cases response : c.response <;> simp [response]

/-- Nothing is lost and nothing appears: what was queued and pushed was dispatched or is queued. -/
theorem conserved (l : Loop G) (is : List (Iteration G)) :
    (bodies (queue l.agenda ++ pushed is)).Perm
      (bodies (dispatched (trace step l is) ++ queue (final step l is).agenda)) := by
  induction is generalizing l with
  | nil => simp [pushed, trace, dispatched, final]
  | cons i rest ih =>
    have joined := ((pushAll_perm l.agenda i.arrivals).map body).symm.append_right
      (bodies (pushed rest))
    have served := step_bodies l i
    have later := (ih (step l i).1).append_left (bodies (step l i).2.toList)
    simp only [bodies, pushed, List.flatMap_cons, List.map_append, trace, dispatched_cons, final,
      List.append_assoc] at joined served later ⊢
    refine joined.trans ?_
    simp only [served, List.append_assoc]
    exact later

/-! ## First in, first out -/

section Order

variable (declared : G → Nat)

/-- The tasks that declared a tier, in the order of the list. -/
def ofTier (tier : Nat) (ts : List (Task G)) : List (Task G) :=
  ts.filter fun t => declared t.stamp = tier

/-- Only the High tier ever mixes tasks of different declared tiers. -/
structure Sorted (a : TaskAgenda G) : Prop where
  medium : ∀ t ∈ a.medium, declared t.stamp = 1
  low : ∀ t ∈ a.low, declared t.stamp = 2

variable {declared}

theorem ofTier_append (tier : Nat) (xs ys : List (Task G)) :
    ofTier declared tier (xs ++ ys) = ofTier declared tier xs ++ ofTier declared tier ys :=
  List.filter_append xs ys

theorem bodies_ofTier (tier : Nat) (ts : List (Task G)) :
    bodies (ofTier declared tier ts) = ofTier declared tier (bodies ts) := by
  simp only [bodies, ofTier, List.filter_map]
  rfl

theorem ofTier_none {tier other : Nat} (different : other ≠ tier) {ts : List (Task G)}
    (all : ∀ t ∈ ts, declared t.stamp = other) : ofTier declared tier ts = [] := by
  apply List.filter_eq_nil_iff.mpr
  intro t ht
  rw [all t ht]
  simpa using different

theorem push_sorted {a : TaskAgenda G} (sorted : Sorted declared a) {t : Task G}
    (own : declared t.stamp = tierOf t) : Sorted declared (push a t) := by
  have extends' : ∀ {ts : List (Task G)} {tier : Nat}, (∀ x ∈ ts, declared x.stamp = tier) →
      tierOf t = tier → ∀ x ∈ ts ++ [t], declared x.stamp = tier := by
    intro ts tier all same x hx
    rcases List.mem_append.mp hx with hx | hx
    · exact all x hx
    · simp only [List.mem_singleton.mp hx, own, same]
  rcases push_cases a t with ⟨-, placed⟩ | ⟨tier, placed⟩ | ⟨tier, placed⟩ <;> rw [placed]
  · exact ⟨sorted.medium, sorted.low⟩
  · exact ⟨extends' sorted.medium tier, sorted.low⟩
  · exact ⟨sorted.medium, extends' sorted.low tier⟩

/-- Within its declared tier a pushed task goes to the end. -/
theorem push_ofTier {a : TaskAgenda G} (sorted : Sorted declared a) {t : Task G}
    (own : declared t.stamp = tierOf t) (tier : Nat) :
    ofTier declared tier (queue (push a t)) =
      ofTier declared tier (queue a) ++ ofTier declared tier [t] := by
  by_cases same : tierOf t = tier
  · rcases push_cases a t with ⟨zero, placed⟩ | ⟨one, placed⟩ | ⟨-, placed⟩
    · have medium := ofTier_none (by omega : 1 ≠ tier) sorted.medium
      have low := ofTier_none (by omega : 2 ≠ tier) sorted.low
      simp only [placed, queue, ofTier_append, medium, low, List.append_nil]
    · have low := ofTier_none (by omega : 2 ≠ tier) sorted.low
      simp only [placed, queue, ofTier_append, low, List.append_nil, List.append_assoc]
    · simp only [placed, queue, ofTier_append, List.append_assoc]
  · have skipped : ofTier declared tier [t] = [] :=
      ofTier_none same (by simpa using own)
    rcases push_cases a t with ⟨-, placed⟩ | ⟨-, placed⟩ | ⟨-, placed⟩ <;>
      simp only [placed, queue, ofTier_append, skipped, List.append_nil]

theorem pushAll_sorted {a : TaskAgenda G} (sorted : Sorted declared a) {ts : List (Task G)}
    (own : ∀ t ∈ ts, declared t.stamp = tierOf t) : Sorted declared (pushAll a ts) := by
  induction ts generalizing a with
  | nil => exact sorted
  | cons t rest ih =>
    exact ih (push_sorted sorted (own t List.mem_cons_self))
      fun x hx => own x (List.mem_cons_of_mem _ hx)

theorem pushAll_ofTier {a : TaskAgenda G} (sorted : Sorted declared a) {ts : List (Task G)}
    (own : ∀ t ∈ ts, declared t.stamp = tierOf t) (tier : Nat) :
    ofTier declared tier (queue (pushAll a ts)) =
      ofTier declared tier (queue a) ++ ofTier declared tier ts := by
  induction ts generalizing a with
  | nil => simp [pushAll, ofTier]
  | cons t rest ih =>
    have first := own t List.mem_cons_self
    have later := ih (push_sorted sorted first) fun x hx => own x (List.mem_cons_of_mem _ hx)
    rw [push_ofTier sorted first, List.append_assoc, ← ofTier_append] at later
    exact later

theorem checkAndBoost_sorted {a : TaskAgenda G} (sorted : Sorted declared a)
    (s : IterationAwareMlfq G) : Sorted declared (checkAndBoost s a).1 := by
  simp only [checkAndBoost]
  split
  · constructor <;> simp [boostAllToHigh]
  · exact sorted

theorem select_sorted {a b : TaskAgenda G} {t : Task G} (sorted : Sorted declared a)
    (h : selectOptimalTask a = some (t, b)) : Sorted declared b := by
  obtain ⟨medium, low⟩ := sorted
  simp only [selectOptimalTask] at h
  split at h
  · cases h
    exact ⟨medium, low⟩
  · split at h
    · rename_i whole
      cases h
      exact ⟨fun x hx => medium x (by rw [whole]; exact List.mem_cons_of_mem _ hx), low⟩
    · split at h
      · rename_i whole
        cases h
        exact ⟨medium, fun x hx => low x (by rw [whole]; exact List.mem_cons_of_mem _ hx)⟩
      · cases h

theorem step_sorted {l : Loop G} (sorted : Sorted declared l.agenda) {i : Iteration G}
    (own : ∀ t ∈ i.arrivals, declared t.stamp = tierOf t) :
    Sorted declared (step l i).1.agenda := by
  have ready := checkAndBoost_sorted (pushAll_sorted sorted own) l.scheduler
  rcases serve_cases l.scheduler (pushAll l.agenda i.arrivals) i.backend with
    ⟨t, rest, -, chosen, served⟩ | ⟨-, served⟩
  · simp only [step, served]
    exact select_sorted ready chosen
  · simp only [step, served]
    exact ready

/-- Tasks that declared the same tier leave in the order in which they were pushed. -/
theorem fifo {l : Loop G} (sorted : Sorted declared l.agenda) {is : List (Iteration G)}
    (own : ∀ t ∈ pushed is, declared t.stamp = tierOf t) (tier : Nat) :
    bodies (ofTier declared tier (queue l.agenda ++ pushed is)) =
      bodies (ofTier declared tier
        (dispatched (trace step l is) ++ queue (final step l is).agenda)) := by
  induction is generalizing l with
  | nil => simp [pushed, trace, dispatched, final]
  | cons i rest ih =>
    have first : ∀ t ∈ i.arrivals, declared t.stamp = tierOf t := fun t ht =>
      own t (List.mem_flatMap.mpr ⟨i, List.mem_cons_self, ht⟩)
    have later := ih (step_sorted sorted first) fun t ht => own t (by
      simp only [pushed, List.flatMap_cons, List.mem_append]
      exact .inr ht)
    have joined := congrArg bodies (pushAll_ofTier sorted first tier)
    have served := congrArg (ofTier declared tier) (step_bodies l i)
    rw [← bodies_ofTier, ← bodies_ofTier] at served
    simp only [pushed, List.flatMap_cons, trace, dispatched_cons, final, ofTier_append,
      bodies_append, List.append_assoc] at joined served later ⊢
    rw [← List.append_assoc, ← joined, served, List.append_assoc, later]

end Order

end Mlfq
