import Mathlib

/-!
# Rolling windows over a log in time order

Entries carry a time and an amount. A window of span `W` at instant `t` holds
the entries from `t - W` to `t`, both included. Subtraction stops at zero.
-/

namespace TimeWindow

universe u

variable {α : Type u} {time amount : α → Nat}

def InOrder (time : α → Nat) (log : List α) : Prop :=
  log.Pairwise fun a b => time a ≤ time b

def total (amount : α → Nat) (log : List α) : Nat := (log.map amount).sum

def since (time : α → Nat) (cutoff : Nat) (log : List α) : List α :=
  log.filter fun e => cutoff ≤ time e

def window (time : α → Nat) (span t : Nat) (log : List α) : List α :=
  log.filter fun e => t - span ≤ time e ∧ time e ≤ t

/-- Front entries are dropped while they are too old. -/
def drain (time : α → Nat) (cutoff : Nat) (log : List α) : List α :=
  log.dropWhile fun e => time e < cutoff

def Bounded (time amount : α → Nat) (span limit : Nat) (log : List α) : Prop :=
  ∀ t, total amount (window time span t log) ≤ limit

theorem total_one (log : List α) : total (fun _ => 1) log = log.length := by
  simp [total]

theorem total_append (xs ys : List α) :
    total amount (xs ++ ys) = total amount xs + total amount ys := by
  simp [total]

theorem total_mono {xs ys : List α} (h : xs.Sublist ys) :
    total amount xs ≤ total amount ys :=
  (h.map amount).sum_le_sum fun _ _ => Nat.zero_le _

/-- On a log in time order lazy draining removes exactly the entries before the cutoff. -/
theorem drain_eq_since {log : List α} (ordered : InOrder time log) (cutoff : Nat) :
    drain time cutoff log = since time cutoff log := by
  induction log with
  | nil => rfl
  | cons e rest ih =>
    obtain ⟨first, ordered⟩ := List.pairwise_cons.mp ordered
    by_cases stale : time e < cutoff
    · have head : ¬ cutoff ≤ time e := Nat.not_le.mpr stale
      simpa [drain, since, stale, head] using ih ordered
    · have kept : ∀ a ∈ rest, cutoff ≤ time a := fun a ha =>
        Nat.le_trans (Nat.not_lt.mp stale) (first a ha)
      have whole : since time cutoff rest = rest :=
        List.filter_eq_self.mpr fun a ha => decide_eq_true (kept a ha)
      rw [drain, List.dropWhile_cons_of_neg (by simpa using stale)]
      simp only [since] at whole ⊢
      rw [List.filter_cons_of_pos (by simpa using stale), whole]

/-- Draining goes no further than the first entry that is not too old. -/
theorem drain_stops {cutoff : Nat} {e : α} (fresh : cutoff ≤ time e) (before behind : List α) :
    ∃ dropped kept, before = dropped ++ kept ∧
      drain time cutoff (before ++ e :: behind) = kept ++ e :: behind := by
  induction before with
  | nil => exact ⟨[], [], rfl, List.dropWhile_cons_of_neg (by simpa using fresh)⟩
  | cons first before ih =>
    by_cases stale : time first < cutoff
    · obtain ⟨dropped, kept, rfl, drained⟩ := ih
      refine ⟨first :: dropped, kept, rfl, ?_⟩
      rw [← drained]
      exact List.dropWhile_cons_of_pos (by simpa using stale)
    · exact ⟨[], first :: before, rfl, List.dropWhile_cons_of_neg (by simpa using stale)⟩

/-- A suffix drained to a later cutoff is a suffix of what the earlier one leaves. -/
theorem drain_suffix {xs ys : List α} (h : xs <:+ ys) {old new : Nat} (later : old ≤ new) :
    drain time new xs <:+ drain time old ys := by
  obtain ⟨before, rfl⟩ := h
  induction before with
  | nil =>
    induction xs with
    | nil => exact List.suffix_refl _
    | cons e rest ih =>
      by_cases stale : time e < old
      · have gone : drain time new (e :: rest) = drain time new rest :=
          List.dropWhile_cons_of_pos (by simpa using stale.trans_le later)
        have gone' : drain time old ([] ++ e :: rest) = drain time old rest :=
          List.dropWhile_cons_of_pos (by simpa using stale)
        rw [gone, gone']
        exact ih
      · have kept : drain time old ([] ++ e :: rest) = e :: rest :=
          List.dropWhile_cons_of_neg (by simpa using stale)
        rw [kept]
        exact List.dropWhile_suffix _
  | cons e before ih =>
    by_cases stale : time e < old
    · have gone : drain time old (e :: before ++ xs) = drain time old (before ++ xs) :=
        List.dropWhile_cons_of_pos (by simpa using stale)
      rwa [gone]
    · have kept : drain time old (e :: before ++ xs) = e :: before ++ xs :=
        List.dropWhile_cons_of_neg (by simpa using stale)
      rw [kept]
      exact (List.dropWhile_suffix _).trans (List.suffix_append _ _)

theorem since_since {log : List α} {old new : Nat} (h : old ≤ new) :
    since time new (since time old log) = since time new log := by
  simp only [since, List.filter_filter]
  apply List.filter_congr
  intro e _
  simp only [Bool.and_eq_decide, decide_eq_true_eq, decide_eq_decide]
  omega

theorem since_ordered {log : List α} (ordered : InOrder time log) (cutoff : Nat) :
    InOrder time (since time cutoff log) :=
  ordered.sublist List.filter_sublist

/-- Draining what an earlier cutoff left gives what the later one leaves of the whole log. -/
theorem drain_since {log : List α} (ordered : InOrder time log) {old new : Nat} (h : old ≤ new) :
    drain time new (since time old log) = since time new log := by
  simp only [drain_eq_since (since_ordered ordered old), since_since h]

theorem since_snoc (cutoff : Nat) (log : List α) {e : α} (h : cutoff ≤ time e) :
    since time cutoff (log ++ [e]) = since time cutoff log ++ [e] := by
  simp [since, h]

theorem ordered_snoc {log : List α} (ordered : InOrder time log) {e : α}
    (latest : ∀ a ∈ log, time a ≤ time e) : InOrder time (log ++ [e]) := by
  refine List.pairwise_append.mpr ⟨ordered, List.pairwise_singleton _ _, ?_⟩
  intro a ha b hb
  rw [List.mem_singleton.mp hb]
  exact latest a ha

/-- A log in time order whose entries are no later than `last`. -/
structure UpTo (time : α → Nat) (last : Nat) (log : List α) : Prop where
  ordered : InOrder time log
  past : ∀ e ∈ log, time e ≤ last

theorem UpTo.nil (last : Nat) : UpTo time last ([] : List α) :=
  ⟨List.Pairwise.nil, by simp⟩

theorem UpTo.drain {last : Nat} {log : List α} (h : UpTo time last log) (cutoff : Nat) :
    UpTo time last (drain time cutoff log) where
  ordered := h.ordered.sublist (List.dropWhile_sublist _)
  past := fun e he => h.past e ((List.dropWhile_sublist _).subset he)

theorem UpTo.later {last now : Nat} {log : List α} (h : UpTo time last log) (later : last ≤ now) :
    UpTo time now log :=
  ⟨h.ordered, fun e he => (h.past e he).trans later⟩

theorem UpTo.snoc {last : Nat} {log : List α} (h : UpTo time last log) {e : α}
    (now : time e = last) : UpTo time last (log ++ [e]) where
  ordered := ordered_snoc h.ordered fun a ha => now ▸ h.past a ha
  past := by
    intro a ha
    rcases List.mem_append.mp ha with old | new
    · exact h.past a old
    · rw [List.mem_singleton.mp new]
      exact now.le

/-- At an instant no entry lies after, the window is what the cutoff leaves. -/
theorem window_eq_since {log : List α} {t : Nat} (past : ∀ e ∈ log, time e ≤ t) (span : Nat) :
    window time span t log = since time (t - span) log := by
  apply List.filter_congr
  intro e he
  simp [past e he]

theorem window_mono_span {short long : Nat} (h : short ≤ long) (t : Nat) (log : List α) :
    (window time short t log).Sublist (window time long t log) := by
  apply List.monotone_filter_right
  intro e he
  simp only [Bool.decide_and, Bool.and_eq_true, decide_eq_true_eq] at he ⊢
  omega

theorem bounded_nil (span limit : Nat) : Bounded time amount span limit ([] : List α) :=
  fun _ => Nat.zero_le limit

/-- An entry that fits into the window at its own instant keeps every window bounded. -/
theorem Bounded.snoc {span limit : Nat} {log : List α}
    (bounded : Bounded time amount span limit log) {e : α}
    (fits : total amount (since time (time e - span) log) + amount e ≤ limit) :
    Bounded time amount span limit (log ++ [e]) := by
  intro t
  by_cases reached : time e ≤ t
  · have inner : (window time span t (log ++ [e])).Sublist
        (since time (time e - span) log ++ [e]) := by
      rw [← since_snoc (time e - span) log (Nat.sub_le _ _)]
      apply List.monotone_filter_right
      intro a ha
      simp only [Bool.decide_and, Bool.and_eq_true, decide_eq_true_eq] at ha ⊢
      omega
    have bound : total amount _ ≤ total amount _ := total_mono inner
    rw [total_append] at bound
    exact Nat.le_trans bound (by simpa [total] using fits)
  · have unchanged : window time span t (log ++ [e]) = window time span t log := by
      simp [window, reached]
    rw [unchanged]
    exact bounded t

end TimeWindow
