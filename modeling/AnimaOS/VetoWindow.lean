import AnimaOS.Machine
import AnimaOS.TimeWindow

/-!
# The veto window of the defence layer

`DefenceLayer::screen` with the verdict of the detectors as an input. Clock readings
are in nanoseconds; a screening that vetoes reads the clock when the event is recorded
and once more when the window is pruned.
-/

namespace VetoWindow

open TimeWindow

universe u

variable {Reason : Type u}

structure DefenceConfig where
  vetoWindowSecs : Nat
  vetoEscalationThreshold : Nat

def DefenceConfig.window (config : DefenceConfig) : Nat := config.vetoWindowSecs * 1000000000

inductive VetoResult (Reason : Type u)
  | allow
  | veto (reason : Reason)

def VetoResult.isVetoed : VetoResult Reason → Bool
  | allow => false
  | veto _ => true

structure VetoEvent (Reason : Type u) where
  issuedAt : Nat
  reason : Reason
  invocationId : String

structure ScreeningOutcome (Reason : Type u) where
  veto : VetoResult Reason
  attentionEscalated : Bool
  detector : String
  vetoCountInWindow : Nat

structure DefenceLayer (Reason : Type u) where
  config : DefenceConfig
  vetoHistory : List (VetoEvent Reason)
  attentionDemandCount : Nat

/-- A proposal with what the detectors say of it and the two clock readings; an allowed
one has the second only. -/
structure Screening (Reason : Type u) where
  invocationId : String
  veto : VetoResult Reason
  detector : String
  recordedAt : Nat
  now : Nat
  forward : recordedAt ≤ now

namespace DefenceLayer

def new (config : DefenceConfig) : DefenceLayer Reason := ⟨config, [], 0⟩

def vetoCountInWindow (layer : DefenceLayer Reason) (now : Nat) : Nat :=
  (layer.vetoHistory.filter fun e => now - e.issuedAt ≤ layer.config.window).length

def pruneWindow (layer : DefenceLayer Reason) (now : Nat) : DefenceLayer Reason :=
  { layer with
    vetoHistory := layer.vetoHistory.filter fun e => now - e.issuedAt ≤ layer.config.window }

def screen (layer : DefenceLayer Reason) (s : Screening Reason) :
    DefenceLayer Reason × ScreeningOutcome Reason :=
  match s.veto with
  | .veto reason =>
    let event : VetoEvent Reason := ⟨s.recordedAt, reason, s.invocationId⟩
    let recorded := { layer with vetoHistory := layer.vetoHistory ++ [event] }
    let pruned := recorded.pruneWindow s.now
    let count := pruned.vetoHistory.length
    let escalated := decide (layer.config.vetoEscalationThreshold ≤ count)
    ({ pruned with
        attentionDemandCount := pruned.attentionDemandCount + (if escalated then 1 else 0) },
      ⟨s.veto, escalated, s.detector, count⟩)
  | .allow => (layer, ⟨.allow, false, "none", layer.vetoCountInWindow s.now⟩)

end DefenceLayer

/-- The event of a vetoed screening. -/
def Screening.event (s : Screening Reason) : Option (VetoEvent Reason) :=
  match s.veto with
  | .veto reason => some ⟨s.recordedAt, reason, s.invocationId⟩
  | .allow => none

/-- All vetoes of a run. -/
def issued (run : List (Screening Reason)) : List (VetoEvent Reason) :=
  run.filterMap Screening.event

/-- The vetoes of a run in the window that ends at `now`. -/
def recent (config : DefenceConfig) (now : Nat) (run : List (Screening Reason)) :
    List (VetoEvent Reason) :=
  window VetoEvent.issuedAt config.window now (issued run)

/-- No clock reading is before one of an earlier screening. -/
def InClockOrder (run : List (Screening Reason)) : Prop :=
  run.Pairwise fun a b => a.now ≤ b.recordedAt

def after (config : DefenceConfig) (run : List (Screening Reason)) : DefenceLayer Reason :=
  Machine.final DefenceLayer.screen (.new config) run

/-- The escalated screenings of a run. -/
def escalations (config : DefenceConfig) (run : List (Screening Reason)) : Nat :=
  (Machine.trace DefenceLayer.screen (.new config) run).countP fun call =>
    call.response.attentionEscalated

theorem retained_eq_since (config : DefenceConfig) (now : Nat) (log : List (VetoEvent Reason)) :
    log.filter (fun e => now - e.issuedAt ≤ config.window) =
      since VetoEvent.issuedAt (now - config.window) log := by
  refine List.filter_congr fun e _ => decide_eq_decide.mpr ?_
  omega

theorem issued_snoc (run : List (Screening Reason)) (s : Screening Reason) :
    issued (run ++ [s]) = issued run ++ s.event.toList := by
  simp only [issued, List.filterMap_append]
  cases h : s.event <;> simp [h]

theorem Screening.event_recorded {s : Screening Reason} {e : VetoEvent Reason}
    (made : s.event = some e) : e.issuedAt = s.recordedAt := by
  cases verdict : s.veto with
  | allow => simp [event, verdict] at made
  | veto reason =>
    have recorded : ⟨s.recordedAt, reason, s.invocationId⟩ = e := by
      simpa [event, verdict] using made
    exact recorded ▸ rfl

theorem issued_past {run : List (Screening Reason)} {e : VetoEvent Reason}
    (listed : e ∈ issued run) : ∃ s ∈ run, e.issuedAt ≤ s.now := by
  obtain ⟨s, member, made⟩ := List.mem_filterMap.mp listed
  exact ⟨s, member, (Screening.event_recorded made).trans_le s.forward⟩

theorem after_snoc (config : DefenceConfig) (run : List (Screening Reason)) (s : Screening Reason) :
    after config (run ++ [s]) = ((after config run).screen s).1 :=
  Machine.final_snoc ..

theorem escalations_snoc (config : DefenceConfig) (run : List (Screening Reason))
    (s : Screening Reason) :
    escalations config (run ++ [s]) = escalations config run +
      (if ((after config run).screen s).2.attentionEscalated then 1 else 0) := by
  simp only [escalations, Machine.trace_append, List.countP_append, Machine.trace,
    List.countP_singleton]
  rfl

theorem inClockOrder_snoc {run : List (Screening Reason)} {s : Screening Reason}
    (ordered : InClockOrder (run ++ [s])) :
    InClockOrder run ∧ ∀ a ∈ run, a.now ≤ s.recordedAt := by
  obtain ⟨before, -, across⟩ := List.pairwise_append.mp ordered
  exact ⟨before, fun a listed => across a listed s (List.mem_singleton_self s)⟩

/-- What a layer holds after a run: all vetoes since a cutoff that no window ending after
the run reaches past. -/
structure Tracks (config : DefenceConfig) (run : List (Screening Reason))
    (layer : DefenceLayer Reason) : Prop where
  sameConfig : layer.config = config
  retained : ∃ cutoff, layer.vetoHistory = since VetoEvent.issuedAt cutoff (issued run) ∧
    ∀ t, (∀ s ∈ run, s.now ≤ t) → cutoff ≤ t - config.window
  demands : layer.attentionDemandCount = escalations config run

section Window

variable {config : DefenceConfig} {run : List (Screening Reason)} {layer : DefenceLayer Reason}

theorem recent_eq_since {now : Nat} (past : ∀ s ∈ run, s.now ≤ now) :
    recent config now run = since VetoEvent.issuedAt (now - config.window) (issued run) := by
  refine window_eq_since (fun e listed => ?_) _
  obtain ⟨s, member, before⟩ := issued_past listed
  exact before.trans (past s member)

/-- Counting at a reading after the run counts the window that ends there. -/
theorem Tracks.count (tracks : Tracks config run layer) {now : Nat}
    (past : ∀ s ∈ run, s.now ≤ now) :
    layer.vetoCountInWindow now = (recent config now run).length := by
  obtain ⟨cutoff, retained, early⟩ := tracks.retained
  rw [DefenceLayer.vetoCountInWindow, tracks.sameConfig, retained_eq_since, retained,
    since_since (early now past), recent_eq_since past]

/-- Pruning after a veto leaves the window that ends at the reading. -/
theorem Tracks.prune (tracks : Tracks config run layer) {s : Screening Reason}
    {e : VetoEvent Reason}
    (made : s.event = some e) (past : ∀ a ∈ run, a.now ≤ s.recordedAt) :
    (layer.vetoHistory ++ [e]).filter (fun e => s.now - e.issuedAt ≤ config.window) =
      recent config s.now (run ++ [s]) := by
  obtain ⟨cutoff, retained, early⟩ := tracks.retained
  have recorded : e.issuedAt = s.recordedAt := Screening.event_recorded made
  have fresh : cutoff ≤ e.issuedAt := by
    have := early s.recordedAt past
    omega
  have later : cutoff ≤ s.now - config.window := early s.now fun a listed =>
    (past a listed).trans s.forward
  have past' : ∀ a ∈ run ++ [s], a.now ≤ s.now := by
    intro a listed
    rcases List.mem_append.mp listed with old | new
    · exact (past a old).trans s.forward
    · exact (List.mem_singleton.mp new ▸ le_rfl)
  rw [recent_eq_since past', issued_snoc, made, Option.toList_some, retained_eq_since, retained,
    ← since_snoc _ _ fresh, since_since later]

theorem Tracks.screen_allow (tracks : Tracks config run layer) {s : Screening Reason}
    (verdict : s.veto = .allow) (past : ∀ a ∈ run, a.now ≤ s.now) :
    layer.screen s = (layer, ⟨.allow, false, "none", (recent config s.now run).length⟩) := by
  rw [DefenceLayer.screen, verdict, tracks.count past]

theorem Tracks.screen_veto (tracks : Tracks config run layer) {s : Screening Reason}
    {reason : Reason} (verdict : s.veto = .veto reason) (past : ∀ a ∈ run, a.now ≤ s.recordedAt) :
    layer.screen s =
      (⟨config, recent config s.now (run ++ [s]), layer.attentionDemandCount +
          if config.vetoEscalationThreshold ≤ (recent config s.now (run ++ [s])).length
          then 1 else 0⟩,
        ⟨.veto reason,
          decide (config.vetoEscalationThreshold ≤ (recent config s.now (run ++ [s])).length),
          s.detector, (recent config s.now (run ++ [s])).length⟩) := by
  have made : s.event = some ⟨s.recordedAt, reason, s.invocationId⟩ := by
    simp [Screening.event, verdict]
  rw [← tracks.prune made past, DefenceLayer.screen, verdict]
  simp [DefenceLayer.pruneWindow, tracks.sameConfig]

/-- One screening, allowed or vetoed. -/
theorem Tracks.screen (tracks : Tracks config run (after config run)) {s : Screening Reason}
    (past : ∀ a ∈ run, a.now ≤ s.recordedAt) :
    Tracks config (run ++ [s]) (after config (run ++ [s])) := by
  have demands := escalations_snoc config run s
  have past' : ∀ a ∈ run, a.now ≤ s.now := fun a listed => (past a listed).trans s.forward
  rw [after_snoc]
  cases verdict : s.veto with
  | allow =>
    have unrecorded : s.event = none := by simp [Screening.event, verdict]
    rw [tracks.screen_allow verdict past'] at demands ⊢
    refine ⟨tracks.sameConfig, ?_, tracks.demands.trans demands.symm⟩
    obtain ⟨cutoff, retained, early⟩ := tracks.retained
    refine ⟨cutoff, ?_, fun t all => early t fun a listed => all a (List.mem_append_left _ listed)⟩
    rw [retained, issued_snoc, unrecorded, Option.toList_none, List.append_nil]
  | veto reason =>
    rw [tracks.screen_veto verdict past] at demands ⊢
    refine ⟨rfl, ⟨s.now - config.window, recent_eq_since fun a listed => ?_, fun t all => ?_⟩, ?_⟩
    · rcases List.mem_append.mp listed with old | new
      · exact past' a old
      · exact List.mem_singleton.mp new ▸ le_rfl
    · have reached := all s (List.mem_append_right _ (List.mem_singleton_self s))
      omega
    · simpa [tracks.demands] using demands.symm

end Window

theorem after_tracks (config : DefenceConfig) {run : List (Screening Reason)}
    (ordered : InClockOrder run) : Tracks config run (after config run) := by
  induction run using List.reverseRecOn with
  | nil => exact ⟨rfl, ⟨0, rfl, fun _ _ => Nat.zero_le _⟩, rfl⟩
  | append_singleton run s ih =>
    obtain ⟨before, past⟩ := inClockOrder_snoc ordered
    exact (ih before).screen past

/-- After each screening of a run the layer counts, escalates and demands by the vetoes
issued in the window that ends at its reading; a veto leaves exactly those retained and
an allowed screening leaves what was. -/
theorem vetoes_counted (config : DefenceConfig) (run : List (Screening Reason))
    (s : Screening Reason) (ordered : InClockOrder (run ++ [s])) :
    (s.veto.isVetoed = true →
      (after config (run ++ [s])).vetoHistory = recent config s.now (run ++ [s])) ∧
    (s.veto.isVetoed = false →
      (after config (run ++ [s])).vetoHistory = (after config run).vetoHistory) ∧
    ((after config run).screen s).2.vetoCountInWindow =
      (recent config s.now (run ++ [s])).length ∧
    (((after config run).screen s).2.attentionEscalated = true ↔
      s.veto.isVetoed = true ∧
        config.vetoEscalationThreshold ≤ (recent config s.now (run ++ [s])).length) ∧
    (after config (run ++ [s])).attentionDemandCount = escalations config (run ++ [s]) := by
  obtain ⟨before, past⟩ := inClockOrder_snoc ordered
  have tracks := after_tracks config before
  have past' : ∀ a ∈ run, a.now ≤ s.now := fun a listed => (past a listed).trans s.forward
  have demands := (after_tracks config ordered).demands
  rw [after_snoc] at demands ⊢
  cases verdict : s.veto with
  | allow =>
    have unrecorded : s.event = none := by simp [Screening.event, verdict]
    have same : recent config s.now (run ++ [s]) = recent config s.now run := by
      rw [recent, recent, issued_snoc, unrecorded, Option.toList_none, List.append_nil]
    rw [same]
    refine ⟨fun h => Bool.noConfusion h, fun _ => ?_, ?_, ?_, demands⟩
    all_goals rw [tracks.screen_allow verdict past']
    simp [VetoResult.isVetoed]
  | veto reason =>
    refine ⟨fun _ => ?_, fun h => Bool.noConfusion h, ?_, ?_, demands⟩
    all_goals rw [tracks.screen_veto verdict past]
    simp [VetoResult.isVetoed]

def threeASecond : DefenceConfig := ⟨1, 3⟩

def vetoedAt (t : Nat) : Screening Unit := ⟨"a", .veto (), "ConstitutionGuard", t, t, Nat.le_refl t⟩

def allowedAt (t : Nat) : Screening Unit := ⟨"b", .allow, "none", t, t, Nat.le_refl t⟩

def firstSecond : List (Screening Unit) := [0, 500000000].map vetoedAt

/-- The veto at the start still counts where its window ends, one second on, and brings the third
to the threshold; after two seconds it is pruned with the one that followed it, and an allowed
screening counts less than it leaves. -/
theorem edge_vetoes_counted :
    let third := firstSecond ++ [vetoedAt 1000000000]
    let fourth := third ++ [vetoedAt 2000000000]
    let fifth := fourth ++ [allowedAt 2500000000]
    ((after threeASecond firstSecond).screen (vetoedAt 1000000000)).2.vetoCountInWindow = 3 ∧
    ((after threeASecond firstSecond).screen (vetoedAt 1000000000)).2.attentionEscalated = true ∧
    (after threeASecond fourth).vetoHistory.map VetoEvent.issuedAt = [1000000000, 2000000000] ∧
    ((after threeASecond third).screen (vetoedAt 2000000000)).2.attentionEscalated ≠ true ∧
    ((after threeASecond fourth).screen (allowedAt 2500000000)).2.vetoCountInWindow = 1 ∧
    (after threeASecond fifth).vetoHistory = (after threeASecond fourth).vetoHistory ∧
    (after threeASecond fifth).attentionDemandCount = 1 := by
  intro third fourth fifth
  have ordered : InClockOrder fifth := by
    unfold InClockOrder
    decide
  have ordered' : InClockOrder fourth := (inClockOrder_snoc ordered).1
  have atThird := vetoes_counted threeASecond firstSecond (vetoedAt 1000000000)
    (inClockOrder_snoc ordered').1
  have atFourth := vetoes_counted threeASecond third (vetoedAt 2000000000) ordered'
  have atFifth := vetoes_counted threeASecond fourth (allowedAt 2500000000) ordered
  refine ⟨?_, ?_, ?_, ?_, ?_, atFifth.2.1 rfl, ?_⟩
  · rw [atThird.2.2.1]
    rfl
  · exact atThird.2.2.2.1.mpr ⟨rfl, by decide⟩
  · rw [atFourth.1 rfl]
    rfl
  · rw [ne_eq, atFourth.2.2.2.1]
    decide
  · rw [atFifth.2.2.1]
    rfl
  · rw [atFifth.2.2.2.2]
    rfl

def oneSecond : DefenceConfig := ⟨1, 1⟩

def vetoedAtStart : Screening Unit := vetoedAt 0

def allowedLater : Screening Unit := allowedAt 2000000000

/-- After an allowed screening a veto of an earlier window is still held. -/
theorem stale_veto_retained :
    InClockOrder [vetoedAtStart, allowedLater] ∧
      (after oneSecond [vetoedAtStart, allowedLater]).vetoHistory.length = 1 ∧
      recent oneSecond allowedLater.now [vetoedAtStart, allowedLater] = [] := by
  refine ⟨?_, rfl, ?_⟩
  · simp [InClockOrder, vetoedAtStart, allowedLater, vetoedAt, allowedAt]
  · simp [recent, issued, window, Screening.event, vetoedAtStart, allowedLater, vetoedAt, allowedAt,
      oneSecond, DefenceConfig.window]

end VetoWindow
