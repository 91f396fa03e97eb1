import Mathlib.Data.List.Induction
import Mathlib.Data.List.Nodup
import Mathlib.Data.List.Perm.Basic

/-!
# Logs of openings and closings

A log in which tickets are opened, each under a name of its own, and closed once.
Replaying a log checks it mark by mark; what a replay accepts has no name twice
and closes nothing that was not opened before.
-/

namespace PairedLog

universe u v

variable {K : Type u} {I : Type v}

inductive Mark (K : Type u) where
  | opened (k : K)
  | closed (k : K)
  deriving DecidableEq, Repr

/-- The names used so far and the tickets still open. -/
structure Standing (K : Type u) (I : Type v) where
  seen : List I
  pending : List K
  deriving DecidableEq, Repr

def start : Standing K I := ⟨[], []⟩

def openedOf (marks : List (Mark K)) : List K :=
  marks.filterMap fun
    | .opened k => some k
    | .closed _ => none

def closedOf (marks : List (Mark K)) : List K :=
  marks.filterMap fun
    | .opened _ => none
    | .closed k => some k

variable [DecidableEq K] [DecidableEq I] (name : K → I)

def mark (s : Standing K I) : Mark K → Option (Standing K I)
  | .opened k =>
    if name k ∈ s.seen then none else some ⟨s.seen ++ [name k], s.pending ++ [k]⟩
  | .closed k => if k ∈ s.pending then some { s with pending := s.pending.erase k } else none

def replay (s : Standing K I) (marks : List (Mark K)) : Option (Standing K I) :=
  marks.foldlM (mark name) s

theorem replay_append (s : Standing K I) (xs ys : List (Mark K)) :
    replay name s (xs ++ ys) = (replay name s xs).bind fun t => replay name t ys :=
  List.foldlM_append

theorem replay_snoc {s t : Standing K I} {marks : List (Mark K)}
    (accepted : replay name s marks = some t) (m : Mark K) :
    replay name s (marks ++ [m]) = mark name t m := by
  rw [replay_append, accepted, Option.bind_some]
  simp [replay]

/-- What a standing says about the log that led to it. -/
structure Accounts (marks : List (Mark K)) (s : Standing K I) : Prop where
  seen : s.seen = (openedOf marks).map name
  distinct : s.seen.Nodup
  balance : (openedOf marks).Perm (closedOf marks ++ s.pending)

theorem mark_accounts {marks : List (Mark K)} {s t : Standing K I}
    (accounts : Accounts name marks s) {m : Mark K} (accepted : mark name s m = some t) :
    Accounts name (marks ++ [m]) t := by
  cases m with
  | opened k =>
    simp only [mark] at accepted
    split at accepted
    · cases accepted
    · next fresh =>
      obtain rfl := Option.some.inj accepted
      refine ⟨?_, ?_, ?_⟩
      · simp [openedOf, accounts.seen]
      · refine List.nodup_append.mpr ⟨accounts.distinct, List.nodup_singleton _, ?_⟩
        intro a listed b same
        rw [List.mem_singleton.mp same]
        exact fun h => fresh (h ▸ listed)
      · have more := accounts.balance.append_right [k]
        simpa [openedOf, closedOf] using more
  | closed k =>
    simp only [mark] at accepted
    split at accepted
    · next listed =>
      obtain rfl := Option.some.inj accepted
      refine ⟨?_, accounts.distinct, ?_⟩
      · simp [openedOf, accounts.seen]
      · have taken := (List.perm_cons_erase listed).append_left (closedOf marks)
        simpa [openedOf, closedOf] using accounts.balance.trans taken
    · cases accepted

theorem replay_accounts {marks : List (Mark K)} {s : Standing K I}
    (accepted : replay name start marks = some s) : Accounts name marks s := by
  induction marks using List.reverseRecOn generalizing s with
  | nil =>
    obtain rfl := Option.some.inj accepted
    exact ⟨rfl, List.nodup_nil, List.Perm.refl _⟩
  | append_singleton marks m ih =>
    rw [replay_append] at accepted
    obtain ⟨t, first, last⟩ := Option.bind_eq_some_iff.mp accepted
    have same : mark name t m = some s := by simpa [replay] using last
    exact mark_accounts name (ih first) same

/-- An accepted log opens each name once and closes each ticket at most once; what it opened and
did not close is pending, and in none of its beginnings is a ticket closed that is not opened. -/
theorem replay_sound {marks : List (Mark K)} {s : Standing K I}
    (accepted : replay name start marks = some s) :
    ((openedOf marks).map name).Nodup ∧ (closedOf marks).Nodup ∧
    (∀ k, k ∈ openedOf marks ↔ k ∈ closedOf marks ∨ k ∈ s.pending) ∧
    ∀ early late, marks = early ++ late → closedOf early ⊆ openedOf early := by
  have accounts := replay_accounts name accepted
  have distinct : ((openedOf marks).map name).Nodup := accounts.seen ▸ accounts.distinct
  refine ⟨distinct, ?_, ?_, ?_⟩
  · have whole := accounts.balance.nodup_iff.mp (List.Nodup.of_map name distinct)
    exact (List.nodup_append.mp whole).1
  · intro k
    rw [accounts.balance.mem_iff, List.mem_append]
  · rintro early late rfl
    rw [replay_append] at accepted
    obtain ⟨t, first, -⟩ := Option.bind_eq_some_iff.mp accepted
    intro k closed
    exact (replay_accounts name first).balance.mem_iff.mpr (List.mem_append_left _ closed)

end PairedLog
