import AnimaOS.AuditChain

/-!
# Concurrent writers of one audit log

The lines are written in the order of the appends, the MACs in the order in
which the chain is extended. Verification compares the two orders.
-/

namespace AuditChain

open HashChain TextLines

/-! ## The order of a schedule -/

/-- What a schedule has done, without the files: the pushes under way and the lines in the order
of their appends and of their chain extensions. -/
structure History where
  inFlight : List (Nat × Line)
  appended : List Line
  extended : List Line

def observe (h : History) : Action → Option History
  | .append handle line =>
    match pendingLine h.inFlight handle with
    | some _ => none
    | none =>
      some { h with inFlight := h.inFlight ++ [(handle, line)], appended := h.appended ++ [line] }
  | .extend handle =>
    match pendingLine h.inFlight handle with
    | none => none
    | some line =>
      some { h with inFlight := settle h.inFlight handle, extended := h.extended ++ [line] }
  | .reopen => if h.inFlight.isEmpty then some h else none

/-- The history of a schedule whose every step is possible. -/
def history (schedule : List Action) : Option History := schedule.foldlM observe ⟨[], [], []⟩

/-! ## The files follow the history -/

/-- The MACs that a sequence of lines gets. -/
def macs (hmac : Hmac) (key : List UInt8) (ls : List Line) : List Mac :=
  codes (hmac key) genesis (ls.map Line.text)

structure Agrees (hmac : Hmac) (key : List UInt8) (h : History) (s : State) : Prop where
  inFlight : s.inFlight = h.inFlight
  log : s.log = unlines (h.appended.map Line.text)
  chain : s.chain = unlines ((macs hmac key h.extended).map toHex)
  prev : s.prev = (macs hmac key h.extended).getLast?.getD genesis

/-- Both sides do the step, or neither can. -/
inductive Matches (hmac : Hmac) (key : List UInt8) : Option History → Option State → Prop where
  | stuck : Matches hmac key none none
  | going {h : History} {s : State} (agrees : Agrees hmac key h s) :
      Matches hmac key (some h) (some s)

theorem Matches.bind {hmac : Hmac} {key : List UInt8} {h : Option History} {s : Option State}
    (both : Matches hmac key h s) {f : History → Option History} {g : State → Option State}
    (next : ∀ h s, Agrees hmac key h s → Matches hmac key (f h) (g s)) :
    Matches hmac key (h.bind f) (s.bind g) := by
  cases both with
  | stuck => exact .stuck
  | going agrees => exact next _ _ agrees

theorem Matches.going_of_some {hmac : Hmac} {key : List UInt8} {h : History} {s : Option State}
    (both : Matches hmac key (some h) s) : ∃ s', s = some s' ∧ Agrees hmac key h s' := by
  cases both with
  | going agrees => exact ⟨_, rfl, agrees⟩

theorem macs_snoc (hmac : Hmac) (key : List UInt8) (ls : List Line) (line : Line) :
    macs hmac key (ls ++ [line]) =
      macs hmac key ls ++ [hmac key ((macs hmac key ls).getLast?.getD genesis) line.text] := by
  rw [macs, List.map_append, List.map_singleton, codes_snoc, ← codes_getLast]
  rfl

theorem step_matches {hmac : Hmac} {key : List UInt8} {h : History} {s : State}
    (agrees : Agrees hmac key h s) (a : Action) :
    Matches hmac key (observe h a) (step hmac key s a) := by
  cases a with
  | append handle line =>
    simp only [observe, step, agrees.inFlight]
    cases pendingLine h.inFlight handle with
    | some busy => exact .stuck
    | none =>
      apply Matches.going
      constructor
      · rfl
      · rw [List.map_append, List.map_singleton, unlines_snoc, ← agrees.log]
      · exact agrees.chain
      · exact agrees.prev
  | extend handle =>
    simp only [observe, step, agrees.inFlight]
    cases pendingLine h.inFlight handle with
    | none => exact .stuck
    | some line =>
      apply Matches.going
      constructor
      · rfl
      · exact agrees.log
      · rw [macs_snoc, List.map_append, List.map_singleton, unlines_snoc, ← agrees.chain,
          ← agrees.prev]
      · rw [macs_snoc, List.getLast?_concat, ← agrees.prev]
        rfl
  | reopen =>
    simp only [observe, step, agrees.inFlight]
    by_cases idle : h.inFlight.isEmpty = true
    · rw [if_pos idle, if_pos idle]
      apply Matches.going
      constructor
      · exact (List.isEmpty_iff.mp idle).symm
      · exact agrees.log
      · exact agrees.chain
      · rw [withFileHmac, agrees.chain]
        exact readLastChainMac_chain _
    · rw [if_neg idle, if_neg idle]
      exact .stuck

theorem foldlM_matches {hmac : Hmac} {key : List UInt8} {h : History} {s : State}
    (agrees : Agrees hmac key h s) (schedule : List Action) :
    Matches hmac key (schedule.foldlM observe h) (schedule.foldlM (step hmac key) s) := by
  induction schedule generalizing h s with
  | nil => exact .going agrees
  | cons a rest ih =>
    rw [List.foldlM_cons, List.foldlM_cons]
    exact (step_matches agrees a).bind fun _ _ agrees => ih agrees

/-- The run of the files and the history of the schedule get stuck together or agree. -/
theorem run_matches (hmac : Hmac) (key : List UInt8) (schedule : List Action) :
    Matches hmac key (history schedule) (run hmac key schedule) := by
  apply foldlM_matches
  constructor
  · rfl
  · rfl
  · rfl
  · rfl

theorem run_agrees (hmac : Hmac) (key : List UInt8) {schedule : List Action} {h : History}
    (possible : history schedule = some h) :
    ∃ s, run hmac key schedule = some s ∧ Agrees hmac key h s := by
  have runs := run_matches hmac key schedule
  rw [possible] at runs
  exact runs.going_of_some

/-! ## Counting lines -/

theorem settle_length {inFlight : List (Nat × Line)} {handle : Nat} {line : Line}
    (found : pendingLine inFlight handle = some line) :
    (settle inFlight handle).length + 1 = inFlight.length := by
  obtain ⟨push, listed, -⟩ := Option.map_eq_some_iff.mp found
  have counted := List.length_eraseP_add_one (List.mem_of_find?_eq_some listed)
    (List.find?_some listed)
  exact counted

def Balanced (h : History) : Prop := h.appended.length = h.extended.length + h.inFlight.length

theorem observe_balanced {h h' : History} {a : Action} (balanced : Balanced h)
    (possible : observe h a = some h') : Balanced h' := by
  simp only [Balanced] at balanced ⊢
  cases a with
  | append handle line =>
    simp only [observe] at possible
    split at possible
    · cases possible
    · cases possible
      simp only [List.length_append, List.length_singleton]
      omega
  | extend handle =>
    simp only [observe] at possible
    split at possible
    · cases possible
    · rename_i line found
      cases possible
      have settled := settle_length found
      simp only [List.length_append, List.length_singleton]
      omega
  | reopen =>
    simp only [observe] at possible
    split at possible
    · cases possible
      exact balanced
    · cases possible

theorem foldlM_balanced {schedule : List Action} {h h' : History} (balanced : Balanced h)
    (possible : schedule.foldlM observe h = some h') : Balanced h' := by
  induction schedule generalizing h with
  | nil =>
    cases possible
    exact balanced
  | cons a rest ih =>
    rw [List.foldlM_cons] at possible
    obtain ⟨next, first, others⟩ := Option.bind_eq_some_iff.mp possible
    exact ih (observe_balanced balanced first) others

theorem history_balanced {schedule : List Action} {h : History}
    (possible : history schedule = some h) (done : h.inFlight = []) :
    h.appended.length = h.extended.length := by
  have balanced : Balanced h := foldlM_balanced (by rfl) possible
  rwa [Balanced, done] at balanced

/-! ## Verification after the last push -/

/-- The log and the sidecar that the schedule leaves verify, with every line counted. -/
def Verifies (hmac : Hmac) (key : List UInt8) (schedule : List Action) : Prop :=
  ∃ s, run hmac key schedule = some s ∧
    verifyAuditChain hmac key s.log s.chain = .ok (lines s.log).length

theorem verifies_iff_macs (hmac : Hmac) (key : List UInt8) {schedule : List Action} {h : History}
    (possible : history schedule = some h) (done : h.inFlight = []) :
    Verifies hmac key schedule ↔ macs hmac key h.appended = macs hmac key h.extended := by
  obtain ⟨s, reached, agrees⟩ := run_agrees hmac key possible
  have long : h.appended.length = (macs hmac key h.extended).length := by
    rw [macs, codes_length, List.length_map]
    exact history_balanced possible done
  have counted : (lines s.log).length = h.appended.length := by
    rw [agrees.log, lines_log, List.length_map]
  have verified := verify_ok hmac key long
  rw [← agrees.log, ← agrees.chain] at verified
  constructor
  · rintro ⟨s', reached', ok⟩
    cases reached.symm.trans reached'
    rw [counted] at ok
    exact verified.mp ok
  · intro same
    refine ⟨s, reached, ?_⟩
    rw [counted]
    exact verified.mpr same

theorem text_injective : Function.Injective Line.text := by
  rintro ⟨a, plain⟩ ⟨b, plain'⟩ same
  cases same
  rfl

/-- After any schedule of complete pushes the log verifies, whatever the MAC function and the key,
exactly when the chain was extended with the lines in the order in which they were appended. -/
theorem interleaved_log_verifies_iff (schedule : List Action) (h : History)
    (possible : history schedule = some h) (done : h.inFlight = []) :
    (∀ hmac key, Verifies hmac key schedule) ↔ h.extended = h.appended := by
  constructor
  · intro verifies
    have texts : h.appended.map Line.text = h.extended.map Line.text := by
      apply @codes_separate _ _ _ ⟨List.replicate 32 1, List.length_replicate⟩ genesis genesis
      · decide
      · intro f
        exact (verifies_iff_macs (fun _ => f) [] possible done).mp (verifies _ [])
    exact (List.map_injective_iff.mpr text_injective texts).symm
  · intro inOrder hmac key
    rw [verifies_iff_macs hmac key possible done, inOrder]

def alpha : Line := ⟨['a'], by decide, by decide⟩

def bravo : Line := ⟨['b'], by decide, by decide⟩

/-- Two handles, the first of them used twice, and the files opened again between pushes. -/
def orderly : List Action :=
  [.append 0 alpha, .append 1 bravo, .extend 0, .append 0 bravo, .extend 1, .extend 0, .reopen,
    .append 0 alpha, .extend 0]

/-- A checksum for the code: every byte is the sum of the characters of the line. -/
def checksum : Hmac := fun _ _ line =>
  ⟨List.replicate 32 (UInt8.ofNat (line.map Char.toNat).sum), List.length_replicate⟩

theorem orderly_log_verifies : Verifies checksum [] orderly :=
  (interleaved_log_verifies_iff orderly ⟨[], [alpha, bravo, bravo, alpha],
    [alpha, bravo, bravo, alpha]⟩ (by rfl) rfl).mpr rfl checksum []

/-- Two handles that write one after the other and extend the chain the other way round. -/
def crossed : List Action := [.append 0 alpha, .append 1 bravo, .extend 1, .extend 0]

theorem crossed_log_tampered : (history crossed).map History.inFlight = some [] ∧
    (run checksum [] crossed).map (fun s => verifyAuditChain checksum [] s.log s.chain) =
      some (.tampered 0) := by
  constructor
  · rfl
  · decide

end AuditChain
