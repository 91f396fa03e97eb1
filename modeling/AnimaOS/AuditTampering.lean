import AnimaOS.AuditWriters

/-!
# Edited logs

Someone without the key edits the log and its sidecar: the log at will, the
sidecar by reusing its own lines. The MAC function is ideal on what the writer
and the verifier apply it to.
-/

namespace AuditChain

open HashChain TextLines

/-! ## Pushes one after another -/

inductive Event where
  | push (handle : Nat) (line : Line)
  | reopen

def Event.actions : Event → List Action
  | .push handle line => [.append handle line, .extend handle]
  | .reopen => [.reopen]

def sequential (events : List Event) : List Action := events.flatMap Event.actions

/-- Nothing is under way and the chain has been extended in the order of the appends. -/
def Settled (h : History) : Prop := h.inFlight = [] ∧ h.extended = h.appended

theorem observe_actions {h : History} (settled : Settled h) (e : Event) :
    ∃ h', e.actions.foldlM observe h = some h' ∧ Settled h' := by
  obtain ⟨idle, inOrder⟩ := settled
  cases e with
  | push handle line =>
    refine ⟨⟨[], h.appended ++ [line], h.extended ++ [line]⟩, ?_, rfl, ?_⟩
    · simp [Event.actions, observe, idle, pendingLine, settle]
    · exact congrArg (· ++ [line]) inOrder
  | reopen =>
    refine ⟨h, ?_, idle, inOrder⟩
    simp [Event.actions, observe, idle]

theorem foldlM_sequential {h : History} (settled : Settled h) (events : List Event) :
    ∃ h', (sequential events).foldlM observe h = some h' ∧ Settled h' := by
  induction events generalizing h with
  | nil => exact ⟨h, rfl, settled⟩
  | cons e rest ih =>
    obtain ⟨next, first, settled⟩ := observe_actions settled e
    obtain ⟨h', others, settled⟩ := ih settled
    refine ⟨h', ?_, settled⟩
    rw [sequential, List.flatMap_cons, List.foldlM_append, first]
    exact others

/-- The log holds lines and the sidecar their MACs, in the same order. -/
theorem sequential_files (hmac : Hmac) (key : List UInt8) (events : List Event) :
    ∃ s, run hmac key (sequential events) = some s ∧
      lines s.chain = (codes (hmac key) genesis (lines s.log)).map toHex := by
  obtain ⟨h, possible, -, inOrder⟩ := foldlM_sequential (h := ⟨[], [], []⟩) ⟨rfl, rfl⟩ events
  obtain ⟨s, reached, agrees⟩ := run_agrees hmac key possible
  refine ⟨s, reached, ?_⟩
  rw [agrees.chain, agrees.log, lines_chain, lines_log, inOrder]
  rfl

/-! ## What the verifier accepts -/

theorem verifyFrom_counts {hmac : Hmac} {key : List UInt8} {entries n i : Nat} {prev : Mac}
    {pairs : List (List Char × List Char)}
    (accepted : verifyFrom hmac key entries prev i pairs = .ok n) : n = entries := by
  induction pairs generalizing prev i with
  | nil =>
    cases accepted
    rfl
  | cons pair rest ih =>
    obtain ⟨line, recorded⟩ := pair
    simp only [verifyFrom] at accepted
    split at accepted
    · cases accepted
    · split at accepted
      · cases accepted
      · exact ih accepted

/-- Whatever the log is, as long as the lines of the sidecar are MACs. -/
theorem verify_lines (hmac : Hmac) (key : List UInt8) {jsonl chain : List Char} {recorded : List Mac}
    (read : lines chain = recorded.map toHex) (n : Nat) :
    verifyAuditChain hmac key jsonl chain = .ok n ↔
      n = (lines jsonl).length ∧ codes (hmac key) genesis (lines jsonl) = recorded := by
  simp only [verifyAuditChain, read, List.length_map]
  by_cases long : (lines jsonl).length = recorded.length
  · rw [if_neg (not_not_intro long)]
    have accepted := @verifyFrom_ok hmac key (lines jsonl).length _ _ long genesis 0
    constructor
    · intro ok
      have counted := verifyFrom_counts ok
      subst counted
      exact ⟨rfl, accepted.mp ok⟩
    · rintro ⟨rfl, same⟩
      exact accepted.mpr same
  · rw [if_pos long]
    constructor
    · rintro ⟨⟩
    · rintro ⟨-, same⟩
      rw [← same, codes_length] at long
      exact absurd rfl long

theorem reused_macs {chain : List (List Char)} {written : List Mac}
    (reused : ∀ line ∈ chain, line ∈ written.map toHex) :
    ∃ recorded : List Mac, chain = recorded.map toHex ∧ ∀ mac ∈ recorded, mac ∈ written := by
  induction chain with
  | nil => exact ⟨[], rfl, by simp⟩
  | cons line rest ih =>
    obtain ⟨recorded, rfl, within⟩ := ih fun l later => reused l (List.mem_cons_of_mem line later)
    obtain ⟨mac, listed, rfl⟩ := List.mem_map.mp (reused line List.mem_cons_self)
    exact ⟨mac :: recorded, rfl, by simpa [listed] using within⟩

/-! ## Detection -/

/-- The files are the first `k` lines of the log and of its sidecar. -/
def CutBackTo (k : Nat) (s : State) (jsonl chain : List Char) : Prop :=
  lines jsonl = (lines s.log).take k ∧ lines chain = (lines s.chain).take k

/-- Under an ideal MAC function, edited files that verify hold the log that was written unless both
have been cut back to the same shorter length, which verification accepts. -/
theorem edited_log_detected_iff (hmac : Hmac) (key : List UInt8) (events : List Event) (s : State)
    (reached : run hmac key (sequential events) = some s) (jsonl chain : List Char)
    (ideal : Ideal (hmac key) genesis (lines s.log) (lines jsonl))
    (reused : ∀ line ∈ lines chain, line ∈ lines s.chain) :
    (∀ n, verifyAuditChain hmac key jsonl chain = .ok n → lines jsonl = lines s.log) ↔
      ¬ ∃ k < (lines s.log).length, CutBackTo k s jsonl chain := by
  obtain ⟨s', reached', sidecar⟩ := sequential_files hmac key events
  cases reached.symm.trans reached'
  constructor
  · rintro detected ⟨k, shorter, log, cut⟩
    have read : lines chain = (codes (hmac key) genesis (lines jsonl)).map toHex := by
      rw [cut, sidecar, log, codes_take, List.map_take]
    have same := detected _ ((verify_lines hmac key read _).mpr ⟨rfl, rfl⟩)
    have long := congrArg List.length (same.symm.trans log)
    rw [List.length_take] at long
    omega
  · intro whole n accepted
    rw [sidecar] at reused
    obtain ⟨recorded, read, within⟩ := reused_macs reused
    obtain ⟨-, rfl⟩ := (verify_lines hmac key read n).mp accepted
    have log := List.prefix_iff_eq_take.mp (ideal.isPrefix within)
    by_contra different
    have shorter : (lines jsonl).length < (lines s.log).length := by
      by_contra longer
      rw [List.take_of_length_le (Nat.le_of_not_lt longer)] at log
      exact different log
    refine whole ⟨_, shorter, log, ?_⟩
    rw [read, sidecar, ← List.map_take, ← codes_take, ← log]

/-- Counts the lines before in its first byte, and sums the line and the key in the next two. -/
def tally : Hmac := fun key prev line =>
  ⟨(prev.bytes.headD 0 + 1) :: UInt8.ofNat (line.map Char.toNat).sum :: key.sum ::
    List.replicate 29 0, rfl⟩

def twoLines : List Event := [.push 0 alpha, .reopen, .push 1 bravo]

/-- The log and the sidecar that the two pushes leave. -/
def twoLinesState : State :=
  let first := tally [7] genesis alpha.text
  let second := tally [7] first bravo.text
  ⟨unlines [alpha.text, bravo.text], unlines [toHex first, toHex second], second, []⟩

def swappedLog : List Char := unlines [bravo.text, alpha.text]

theorem swapped_log_detected : lines swappedLog ≠ lines twoLinesState.log ∧
    ∀ n, verifyAuditChain tally [7] swappedLog twoLinesState.chain = .ok n →
      lines swappedLog = lines twoLinesState.log := by
  refine ⟨by decide, ?_⟩
  apply (edited_log_detected_iff tally [7] twoLines twoLinesState rfl swappedLog
    twoLinesState.chain ⟨by decide, by decide⟩ (by decide)).mpr
  rintro ⟨k, shorter, log, -⟩
  have long := congrArg List.length log
  rw [List.length_take, Nat.min_eq_left (Nat.le_of_lt shorter)] at long
  exact absurd shorter (long ▸ by decide)

def shortenedLog : List Char := unlines [alpha.text]

def shortenedChain : List Char := unlines [toHex (tally [7] genesis alpha.text)]

theorem shortened_log_verifies : run tally [7] (sequential twoLines) = some twoLinesState ∧
    Ideal (tally [7]) genesis (lines twoLinesState.log) (lines shortenedLog) ∧
    (∀ line ∈ lines shortenedChain, line ∈ lines twoLinesState.chain) ∧
    verifyAuditChain tally [7] shortenedLog shortenedChain = .ok 1 ∧
    lines shortenedLog ≠ lines twoLinesState.log := by
  refine ⟨rfl, ⟨?_, ?_⟩, ?_, ?_, ?_⟩
  · decide
  · decide
  · decide
  · decide
  · decide

end AuditChain
