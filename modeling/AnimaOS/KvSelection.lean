import AnimaOS.FloatOrder
import Mathlib

/-!
# Selection of cache blocks

The controller scores each block by its gate until the gate fails, and by recency
from then on, and keeps the blocks that rank first within the budget. Floats are
their bit patterns; their product is a parameter.
-/

namespace KvSelection

open FloatOrder

inductive BlockRole where
  | system
  | user
  | assistant
  | tool
  deriving DecidableEq, Repr

def zero : Single := 0x00000000#32

def one : Single := 0x3f800000#32

/-- The scalars 1, 0.85, 0.5 and 0.3. -/
def BlockRole.toScalar : BlockRole → Single
  | .system => one
  | .user => 0x3f59999a#32
  | .tool => 0x3f000000#32
  | .assistant => 0x3e99999a#32

structure BlockFeatures where
  blockIndex : Nat
  role : BlockRole
  isUserConstraint : Bool
  isErrorTrace : Bool
  isToolOutput : Bool
  recencyScore : Single
  memoryPressure : Single
  deriving DecidableEq, Repr

def flag (b : Bool) : Single := if b then one else zero

def BlockFeatures.toVec (f : BlockFeatures) : List Single :=
  [f.role.toScalar, flag f.isUserConstraint, flag f.isErrorTrace, flag f.isToolOutput,
    f.recencyScore, f.memoryPressure, one]

structure InUnit (x : Single) : Prop where
  number : isNaN x = false
  lower : 0 ≤ key x
  upper : key x ≤ key one

inductive GateError where
  | nonFiniteOutput
  | modelFault (message : String)
  deriving DecidableEq, Repr

/-- A gate fails or scores in the unit interval. -/
structure BlockGate where
  score : BlockFeatures → Except GateError Single
  normalised : ∀ f s, score f = .ok s → InUnit s

structure Quantizer where
  similarity : Nat → List Single → Single
  normalised : ∀ i query, InUnit (similarity i query)

theorem one_inUnit : InUnit one where
  number := by decide
  lower := by decide
  upper := le_rfl

def noQuantizer : Quantizer where
  similarity := fun _ _ => one
  normalised := fun _ _ => one_inUnit

inductive ControllerState where
  | active
  | faulted
  deriving DecidableEq, Repr

structure KvGateDecision where
  blockIndex : Nat
  gateScore : Single
  retain : Bool
  fallbackLru : Bool
  deriving DecidableEq, Repr

structure KvController where
  gate : BlockGate
  threshold : Single
  state : ControllerState
  faultCount : Nat
  quantizer : Quantizer

def KvController.reset (c : KvController) : KvController :=
  { c with state := .active, faultCount := 0 }

section Controller

variable (mul : Single → Single → Single)

def lruDecision (c : KvController) (f : BlockFeatures) : KvGateDecision where
  blockIndex := f.blockIndex
  gateScore := f.recencyScore
  retain := atLeast f.recencyScore c.threshold
  fallbackLru := true

def gateBlock (c : KvController) (f : BlockFeatures) : KvGateDecision × KvController :=
  match c.state with
  | .faulted => (lruDecision c f, c)
  | .active =>
    match c.gate.score f with
    | .ok score =>
      let combined := mul score (c.quantizer.similarity f.blockIndex f.toVec)
      (⟨f.blockIndex, combined, atLeast combined c.threshold, false⟩, c)
    | .error _ =>
      (lruDecision c f, { c with state := .faulted, faultCount := c.faultCount + 1 })

def gateBlocks (c : KvController) : List BlockFeatures → List KvGateDecision × KvController
  | [] => ([], c)
  | f :: fs =>
    let (d, c') := gateBlock mul c f
    let (ds, last) := gateBlocks c' fs
    (d :: ds, last)

def KvGateDecision.rank (d : KvGateDecision) : Single × Nat := (d.gateScore, d.blockIndex)

def markTop (budget : Nat) (ds : List KvGateDecision) : List KvGateDecision :=
  ds.mapIdx fun i d => { d with retain := decide (i < budget) }

def selectBlocks (c : KvController) (features : List BlockFeatures) (budget : Nat) :
    List KvGateDecision × KvController :=
  let (decisions, last) := gateBlocks mul c features
  let actualBudget := min budget decisions.length
  let sorted := decisions.insertionSort fun a b => RanksBefore a.rank b.rank
  ((markTop actualBudget sorted).insertionSort fun a b => a.blockIndex ≤ b.blockIndex, last)

def lruRank (features : List BlockFeatures) (budget : Nat) : List KvGateDecision :=
  let actualBudget := min budget features.length
  let indexed := (features.map fun f => (f.blockIndex, f.recencyScore)).insertionSort
    fun a b => RanksBefore (a.2, a.1) (b.2, b.1)
  let retained := (indexed.take actualBudget).map Prod.fst
  features.map fun f => ⟨f.blockIndex, f.recencyScore, retained.contains f.blockIndex, true⟩

def retained (ds : List KvGateDecision) : Finset Nat :=
  ((ds.filter (·.retain)).map (·.blockIndex)).toFinset

/-- The blocks of one pass. -/
structure Window where
  blocks : List BlockFeatures
  unique : (blocks.map (·.blockIndex)).Nodup
  recency : ∀ f ∈ blocks, InUnit f.recencyScore

/-! ## The scores of a pass -/

def faults (c : KvController) (f : BlockFeatures) : Bool :=
  match c.gate.score f with
  | .ok _ => false
  | .error _ => true

/-- The blocks the model scores: those before the first fault. -/
def prior (c : KvController) (blocks : List BlockFeatures) : List BlockFeatures :=
  match c.state with
  | .faulted => []
  | .active => blocks.takeWhile fun f => !faults c f

def modelScore (c : KvController) (f : BlockFeatures) : Single :=
  match c.gate.score f with
  | .ok score => mul score (c.quantizer.similarity f.blockIndex f.toVec)
  | .error _ => f.recencyScore

def mixedScore (c : KvController) (blocks : List BlockFeatures) (f : BlockFeatures) : Single :=
  if f ∈ prior c blocks then modelScore mul c f else f.recencyScore

theorem prior_faulted {c : KvController} (state : c.state = .faulted)
    (blocks : List BlockFeatures) : prior c blocks = [] := by
  rw [prior, state]

theorem prior_active {c : KvController} (state : c.state = .active)
    (blocks : List BlockFeatures) : prior c blocks = blocks.takeWhile fun f => !faults c f := by
  rw [prior, state]

theorem mixedScore_faulted {c : KvController} (state : c.state = .faulted)
    (blocks : List BlockFeatures) (f : BlockFeatures) :
    mixedScore mul c blocks f = f.recencyScore := by
  rw [mixedScore, prior_faulted state, if_neg List.not_mem_nil]

theorem gateBlocks_faulted {c : KvController} (state : c.state = .faulted)
    (blocks : List BlockFeatures) :
    gateBlocks mul c blocks = (blocks.map (lruDecision c), c) := by
  induction blocks with
  | nil => rfl
  | cons f fs ih => simp [gateBlocks, gateBlock, state, ih]

/-- A later block is before the first fault as it is without a block that does not fail. -/
theorem mixedScore_cons {c : KvController} (state : c.state = .active) {f g : BlockFeatures}
    {fs : List BlockFeatures} (works : faults c f = false) (other : g ≠ f) :
    mixedScore mul c (f :: fs) g = mixedScore mul c fs g := by
  have same : g ∈ prior c (f :: fs) ↔ g ∈ prior c fs := by
    rw [prior_active state, prior_active state, List.takeWhile_cons_of_pos (by simp [works]),
      List.mem_cons, or_iff_right other]
  simp only [mixedScore, same]

theorem mixedScore_fault {c : KvController} {f : BlockFeatures} (fails : faults c f = true)
    (fs : List BlockFeatures) (g : BlockFeatures) :
    mixedScore mul c (f :: fs) g = g.recencyScore := by
  have none : prior c (f :: fs) = [] := by
    cases state : c.state with
    | faulted => exact prior_faulted state _
    | active => rw [prior_active state, List.takeWhile_cons_of_neg (by simp [fails])]
  rw [mixedScore, none, if_neg List.not_mem_nil]

theorem mixedScore_head {c : KvController} (state : c.state = .active) {f : BlockFeatures}
    (works : faults c f = false) (fs : List BlockFeatures) :
    mixedScore mul c (f :: fs) f = modelScore mul c f := by
  refine if_pos ?_
  rw [prior_active state, List.takeWhile_cons_of_pos (by simp [works])]
  exact List.mem_cons_self

theorem gateBlock_works {c : KvController} (state : c.state = .active) {f : BlockFeatures}
    (works : faults c f = false) :
    (gateBlock mul c f).1.rank = (modelScore mul c f, f.blockIndex) ∧
      (gateBlock mul c f).2 = c := by
  unfold faults at works
  unfold gateBlock modelScore
  cases scored : c.gate.score f with
  | ok score => simp [state, KvGateDecision.rank]
  | error e => simp [scored] at works

theorem gateBlock_fails {c : KvController} (state : c.state = .active) {f : BlockFeatures}
    (fails : faults c f = true) :
    gateBlock mul c f =
      (lruDecision c f, { c with state := .faulted, faultCount := c.faultCount + 1 }) := by
  unfold faults at fails
  unfold gateBlock
  cases scored : c.gate.score f with
  | ok score => simp [scored] at fails
  | error e => simp [state]

/-- One pass scores each block by its mixed score. -/
theorem gateBlocks_ranks (c : KvController) {blocks : List BlockFeatures}
    (unique : (blocks.map (·.blockIndex)).Nodup) :
    (gateBlocks mul c blocks).1.map (·.rank) =
      blocks.map fun f => (mixedScore mul c blocks f, f.blockIndex) := by
  cases state : c.state with
  | faulted =>
    rw [gateBlocks_faulted mul state, List.map_map]
    refine List.map_congr_left fun f _ => ?_
    rw [mixedScore_faulted mul state]
    rfl
  | active =>
    induction blocks with
    | nil => rfl
    | cons f fs ih =>
      obtain ⟨fresh, unique⟩ := List.nodup_cons.mp unique
      cases fault : faults c f with
      | true =>
        simp only [gateBlocks, gateBlock_fails mul state fault, List.map_cons,
          gateBlocks_faulted, List.map_map, mixedScore_fault mul fault]
        rfl
      | false =>
        obtain ⟨head, same⟩ := gateBlock_works mul state fault
        simp only [gateBlocks, List.map_cons, head, same, ih unique,
          mixedScore_head mul state fault]
        congr 1
        refine List.map_congr_left fun g listed => ?_
        have other : g ≠ f := by
          rintro rfl
          exact fresh (List.mem_map_of_mem listed)
        rw [mixedScore_cons mul state fault other]

/-- The pass ends faulted when it begins so or meets a fault. -/
theorem gateBlocks_state (c : KvController) (blocks : List BlockFeatures) :
    (gateBlocks mul c blocks).2.state = .faulted ↔
      c.state = .faulted ∨ ∃ f ∈ blocks, faults c f = true := by
  cases state : c.state with
  | faulted => simp [gateBlocks_faulted mul state, state]
  | active =>
    induction blocks with
    | nil => simp [gateBlocks, state]
    | cons f fs ih =>
      cases fault : faults c f with
      | true => simp [gateBlocks, gateBlock_fails mul state fault, gateBlocks_faulted, fault]
      | false =>
        simp only [gateBlocks, (gateBlock_works mul state fault).2, ih]
        simp [fault]

/-! ## What a ranking keeps -/

/-- The blocks that rank first when each has the given score. -/
def ranking (score : BlockFeatures → Single) (blocks : List BlockFeatures) :
    List BlockFeatures :=
  blocks.insertionSort fun a b =>
    RanksBefore (score a, a.blockIndex) (score b, b.blockIndex)

def top (score : BlockFeatures → Single) (n : Nat) (blocks : List BlockFeatures) :
    Finset BlockFeatures :=
  ((ranking score blocks).take n).toFinset

def placeOf (score : BlockFeatures → Single) (f : BlockFeatures) : ℤ ×ₗ ℕ :=
  place (score f, f.blockIndex)

theorem ranking_perm (score : BlockFeatures → Single) (blocks : List BlockFeatures) :
    (ranking score blocks).Perm blocks := List.perm_insertionSort _ _

theorem ranking_sorted (score : BlockFeatures → Single) {blocks : List BlockFeatures}
    (unique : (blocks.map (·.blockIndex)).Nodup)
    (number : ∀ f ∈ blocks, isNaN (score f) = false) :
    (ranking score blocks).Pairwise fun a b => placeOf score a < placeOf score b := by
  have places : ranking score blocks =
      blocks.insertionSort fun a b => placeOf score a ≤ placeOf score b := by
    have sorted := List.map_insertionSort
      (fun a b : BlockFeatures => RanksBefore (score a, a.blockIndex) (score b, b.blockIndex))
      (fun a b : BlockFeatures => placeOf score a ≤ placeOf score b) id blocks
      fun a ha b hb => ranksBefore_iff (number a ha) (number b hb)
    rwa [List.map_id, List.map_id] at sorted
  have total : Std.Total fun a b : BlockFeatures => placeOf score a ≤ placeOf score b :=
    ⟨fun a b => le_total _ _⟩
  have trans : IsTrans BlockFeatures fun a b => placeOf score a ≤ placeOf score b :=
    ⟨fun a b c => le_trans⟩
  have ordered := List.pairwise_insertionSort
    (fun a b : BlockFeatures => placeOf score a ≤ placeOf score b) blocks
  rw [← places] at ordered
  have distinct : (ranking score blocks).Pairwise fun a b => a.blockIndex ≠ b.blockIndex :=
    List.pairwise_map.mp (((ranking_perm score blocks).map _).nodup_iff.mpr unique)
  refine (ordered.and distinct).imp fun ⟨below, other⟩ => lt_of_le_of_ne below fun same => other ?_
  exact (Prod.ext_iff.mp (toLex.injective same)).2

theorem top_cut (score : BlockFeatures → Single) {blocks : List BlockFeatures}
    (unique : (blocks.map (·.blockIndex)).Nodup)
    (number : ∀ f ∈ blocks, isNaN (score f) = false) (n : Nat) :
    Cut (placeOf score) blocks.toFinset (top score n blocks) := by
  have cut := take_cut (ranking_sorted score unique number) n
  rwa [List.toFinset_eq_of_perm _ _ (ranking_perm score blocks)] at cut

theorem top_card (score : BlockFeatures → Single) {blocks : List BlockFeatures}
    (unique : (blocks.map (·.blockIndex)).Nodup) (n : Nat) :
    (top score n blocks).card = min n blocks.length := by
  have nodup : (ranking score blocks).Nodup :=
    (ranking_perm score blocks).nodup_iff.mpr unique.of_map
  rw [top, List.toFinset_card_of_nodup (nodup.sublist (List.take_sublist _ _)), List.length_take,
    (ranking_perm score blocks).length_eq]

theorem markTop_cons (n : Nat) (d : KvGateDecision) (ds : List KvGateDecision) :
    markTop n (d :: ds) = { d with retain := decide (0 < n) } :: markTop (n - 1) ds := by
  rw [markTop, markTop, List.mapIdx_cons]
  congr 2
  funext i d
  have shift : i + 1 < n ↔ i < n - 1 := by omega
  simp [shift]

theorem markTop_kept (n : Nat) (ds : List KvGateDecision) :
    ((markTop n ds).filter (·.retain)).map (·.rank) = (ds.take n).map (·.rank) := by
  induction ds generalizing n with
  | nil => simp [markTop]
  | cons d ds ih =>
    rw [markTop_cons]
    cases n with
    | zero =>
      rw [List.filter_cons_of_neg (by simp)]
      simpa using ih 0
    | succ n =>
      rw [List.filter_cons_of_pos (by simp), List.map_cons, Nat.add_sub_cancel, ih,
        List.take_succ_cons, List.map_cons]
      rfl

theorem markTop_dropped (n : Nat) (ds : List KvGateDecision) :
    ((markTop n ds).filter (!·.retain)).map (·.rank) = (ds.drop n).map (·.rank) := by
  induction ds generalizing n with
  | nil => simp [markTop]
  | cons d ds ih =>
    rw [markTop_cons]
    cases n with
    | zero =>
      rw [List.filter_cons_of_pos (by simp), List.map_cons, Nat.zero_sub, ih]
      rfl
    | succ n =>
      rw [List.filter_cons_of_neg (by simp), Nat.add_sub_cancel, ih, List.drop_succ_cons]

/-- The decisions in the order of their ranks are the blocks ranked by their mixed scores. -/
theorem sorted_ranks (c : KvController) {blocks : List BlockFeatures}
    (unique : (blocks.map (·.blockIndex)).Nodup) :
    ((gateBlocks mul c blocks).1.insertionSort fun a b => RanksBefore a.rank b.rank).map (·.rank) =
      (ranking (mixedScore mul c blocks) blocks).map
        fun f => (mixedScore mul c blocks f, f.blockIndex) := by
  rw [List.map_insertionSort _ RanksBefore _ _ fun _ _ _ _ => Iff.rfl,
    gateBlocks_ranks mul c unique, ranking,
    List.map_insertionSort _ RanksBefore _ _ fun _ _ _ _ => Iff.rfl]

theorem gateBlocks_length (c : KvController) (blocks : List BlockFeatures) :
    (gateBlocks mul c blocks).1.length = blocks.length := by
  induction blocks generalizing c with
  | nil => rfl
  | cons f fs ih => exact congrArg (· + 1) (ih (gateBlock mul c f).2)

/-- A pass keeps as many blocks as the budget allows, whatever their indices and scores. -/
theorem selectBlocks_size (c : KvController) (blocks : List BlockFeatures) (budget : Nat) :
    ((selectBlocks mul c blocks budget).1.filter (·.retain)).length = min budget blocks.length := by
  have length := gateBlocks_length mul c blocks
  generalize ranked : (gateBlocks mul c blocks).1.insertionSort
    (fun a b => RanksBefore a.rank b.rank) = sorted
  have size : sorted.length = (gateBlocks mul c blocks).1.length := by
    rw [← ranked, (List.perm_insertionSort _ _).length_eq]
  have kept := congrArg List.length
    (markTop_kept (min budget (gateBlocks mul c blocks).1.length) sorted)
  rw [List.length_map, List.length_map, List.length_take] at kept
  have order := ((List.perm_insertionSort (fun a b : KvGateDecision => a.blockIndex ≤ b.blockIndex)
    (markTop (min budget (gateBlocks mul c blocks).1.length) sorted)).filter (·.retain)).length_eq
  subst ranked
  exact order.trans (kept.trans (by omega))

/-- What is kept has the ranks of the first blocks of the ranking. -/
theorem selectBlocks_kept (c : KvController) {blocks : List BlockFeatures}
    (unique : (blocks.map (·.blockIndex)).Nodup) (budget : Nat) :
    (((selectBlocks mul c blocks budget).1.filter (·.retain)).map (·.rank)).Perm
      (((ranking (mixedScore mul c blocks) blocks).take (min budget blocks.length)).map
        fun f => (mixedScore mul c blocks f, f.blockIndex)) := by
  rw [List.map_take, ← sorted_ranks mul c unique, ← List.map_take, ← markTop_kept,
    ← gateBlocks_length mul c blocks]
  exact ((List.perm_insertionSort _ _).filter _).map _

theorem selectBlocks_dropped (c : KvController) {blocks : List BlockFeatures}
    (unique : (blocks.map (·.blockIndex)).Nodup) (budget : Nat) :
    (((selectBlocks mul c blocks budget).1.filter (!·.retain)).map (·.rank)).Perm
      (((ranking (mixedScore mul c blocks) blocks).drop (min budget blocks.length)).map
        fun f => (mixedScore mul c blocks f, f.blockIndex)) := by
  rw [List.map_drop, ← sorted_ranks mul c unique, ← List.map_drop, ← markTop_dropped,
    ← gateBlocks_length mul c blocks]
  exact ((List.perm_insertionSort _ _).filter _).map _

theorem retained_selectBlocks (c : KvController) {blocks : List BlockFeatures}
    (unique : (blocks.map (·.blockIndex)).Nodup) (budget : Nat) :
    retained (selectBlocks mul c blocks budget).1 =
      (top (mixedScore mul c blocks) (min budget blocks.length) blocks).image (·.blockIndex) := by
  have indices := (selectBlocks_kept mul c unique budget).map Prod.snd
  rw [List.map_map, List.map_map] at indices
  ext i
  simp only [retained, top, List.mem_toFinset, Finset.mem_image]
  exact indices.mem_iff.trans List.mem_map

theorem retained_lruRank {blocks : List BlockFeatures} (budget : Nat) :
    retained (lruRank blocks budget) =
      (top (·.recencyScore) (min budget blocks.length) blocks).image (·.blockIndex) := by
  have indexed : (blocks.map fun f => (f.blockIndex, f.recencyScore)).insertionSort
      (fun a b => RanksBefore (a.2, a.1) (b.2, b.1)) =
      (ranking (·.recencyScore) blocks).map fun f => (f.blockIndex, f.recencyScore) := by
    refine (List.map_insertionSort _ _ _ _ fun a _ b _ => ?_).symm
    rfl
  have names : (((ranking (·.recencyScore) blocks).map
      fun f => (f.blockIndex, f.recencyScore)).take (min budget blocks.length)).map Prod.fst =
      ((ranking (·.recencyScore) blocks).take (min budget blocks.length)).map (·.blockIndex) := by
    rw [← List.map_take, List.map_map]
    rfl
  ext i
  simp only [retained, lruRank, indexed, names, top, List.mem_toFinset, Finset.mem_image,
    List.mem_map, List.mem_filter]
  constructor
  · rintro ⟨d, ⟨⟨f, -, rfl⟩, marked⟩, rfl⟩
    exact List.mem_map.mp (List.contains_iff_mem.mp marked)
  · rintro ⟨f, kept, rfl⟩
    have listed := (ranking_perm _ blocks).mem_iff.mp (List.mem_of_mem_take kept)
    exact ⟨_, ⟨⟨f, listed, rfl⟩, List.contains_iff_mem.mpr (List.mem_map_of_mem kept)⟩, rfl⟩

/-! ## Falling back -/

theorem mixedScore_number (product : ∀ a b, InUnit a → InUnit b → isNaN (mul a b) = false)
    (c : KvController) (window : Window) {f : BlockFeatures} (listed : f ∈ window.blocks) :
    isNaN (mixedScore mul c window.blocks f) = false := by
  have recency := (window.recency f listed).number
  unfold mixedScore modelScore
  split
  · cases scored : c.gate.score f with
    | ok score => exact product _ _ (c.gate.normalised f score scored) (c.quantizer.normalised _ _)
    | error e => exact recency
  · exact recency

/-- The selection keeps its budget, keeps nothing below what it drops when the model scored the
whole pass, and keeps what LRU keeps when the pass ends faulted. -/
structure FallsBack (c : KvController) (blocks : List BlockFeatures) (budget : Nat) : Prop where
  count : ((selectBlocks mul c blocks budget).1.filter (·.retain)).length =
    min budget blocks.length
  distinct : (((selectBlocks mul c blocks budget).1.filter (·.retain)).map (·.blockIndex)).Nodup
  active : (selectBlocks mul c blocks budget).2.state = .active →
    ∀ a ∈ (selectBlocks mul c blocks budget).1, ∀ b ∈ (selectBlocks mul c blocks budget).1,
      a.retain = true → b.retain = false → above b.gateScore a.gateScore = false
  faulted : (selectBlocks mul c blocks budget).2.state = .faulted →
    retained (selectBlocks mul c blocks budget).1 = retained (lruRank blocks budget)

/-- If some block faults, the blocks LRU keeps rank before those it drops, wherever one of the
two was scored by the model. -/
def MixedInOrder (c : KvController) (blocks : List BlockFeatures) (budget : Nat) : Prop :=
  (∃ f ∈ blocks, faults c f = true) → ∀ a ∈ blocks, ∀ b ∈ blocks,
    a.blockIndex ∈ retained (lruRank blocks budget) →
    b.blockIndex ∉ retained (lruRank blocks budget) → a ∈ prior c blocks ∨ b ∈ prior c blocks →
    RanksBefore (mixedScore mul c blocks a, a.blockIndex) (mixedScore mul c blocks b, b.blockIndex)

section Selection

variable {mul} {c : KvController} {window : Window}

theorem window_numbers (window : Window) :
    ∀ f ∈ window.blocks, isNaN f.recencyScore = false :=
  fun f listed => (window.recency f listed).number

theorem selectBlocks_count (budget : Nat) :
    ((selectBlocks mul c window.blocks budget).1.filter (·.retain)).length =
      min budget window.blocks.length := selectBlocks_size mul c window.blocks budget

theorem selectBlocks_distinct (budget : Nat) :
    (((selectBlocks mul c window.blocks budget).1.filter (·.retain)).map (·.blockIndex)).Nodup := by
  have indices := (selectBlocks_kept mul c window.unique budget).map Prod.snd
  rw [List.map_map, List.map_map] at indices
  refine indices.nodup_iff.mpr (List.Nodup.sublist ((List.take_sublist _ _).map _) ?_)
  exact ((ranking_perm _ window.blocks).map _).nodup_iff.mpr window.unique

theorem above_of_place {f g : BlockFeatures} {score : BlockFeatures → Single}
    (before : placeOf score f < placeOf score g) : above (score g) (score f) = false := by
  rw [Bool.eq_false_iff]
  intro higher
  obtain ⟨-, -, keys⟩ := above_iff.mp higher
  rcases Prod.Lex.toLex_lt_toLex.mp before with below | ⟨same, -⟩
  · exact absurd below (by simp only; omega)
  · exact absurd same (by simp only; omega)

/-- Nothing kept scores below what is dropped, whichever scores the pass mixes. -/
theorem selectBlocks_above
    (product : ∀ a b, InUnit a → InUnit b → isNaN (mul a b) = false) (budget : Nat)
    {a b : KvGateDecision} (ha : a ∈ (selectBlocks mul c window.blocks budget).1)
    (hb : b ∈ (selectBlocks mul c window.blocks budget).1) (kept : a.retain = true)
    (dropped : b.retain = false) : above b.gateScore a.gateScore = false := by
  have sorted := ranking_sorted (mixedScore mul c window.blocks) window.unique
    fun f listed => mixedScore_number mul product c window listed
  rw [← List.take_append_drop (min budget window.blocks.length) (ranking _ _)] at sorted
  have before := (List.pairwise_append.mp sorted).2.2
  have first := (selectBlocks_kept mul c window.unique budget).subset
    (List.mem_map_of_mem (List.mem_filter.mpr ⟨ha, kept⟩))
  have later := (selectBlocks_dropped mul c window.unique budget).subset
    (List.mem_map_of_mem (List.mem_filter.mpr ⟨hb, by simp [dropped]⟩))
  obtain ⟨f, f_kept, f_rank⟩ := List.mem_map.mp first
  obtain ⟨g, g_dropped, g_rank⟩ := List.mem_map.mp later
  have higher := above_of_place (before f f_kept g g_dropped)
  rwa [show mixedScore mul c window.blocks f = a.gateScore from congrArg Prod.fst f_rank,
    show mixedScore mul c window.blocks g = b.gateScore from congrArg Prod.fst g_rank] at higher

theorem mem_retained_lruRank {f : BlockFeatures} (listed : f ∈ window.blocks) (budget : Nat) :
    f.blockIndex ∈ retained (lruRank window.blocks budget) ↔
      f ∈ top (·.recencyScore) (min budget window.blocks.length) window.blocks := by
  rw [retained_lruRank]
  refine ⟨fun named => ?_, Finset.mem_image_of_mem _⟩
  obtain ⟨g, kept, same⟩ := Finset.mem_image.mp named
  have g_listed := List.mem_toFinset.mp
    ((top_cut _ window.unique (window_numbers window) _).sub kept)
  rwa [← List.inj_on_of_nodup_map window.unique g_listed listed same]

/-- The pass keeps what LRU keeps exactly when what LRU keeps comes first in the pass's order. -/
theorem retained_eq_iff (product : ∀ a b, InUnit a → InUnit b → isNaN (mul a b) = false)
    (budget : Nat) :
    retained (selectBlocks mul c window.blocks budget).1 = retained (lruRank window.blocks budget) ↔
      Cut (placeOf (mixedScore mul c window.blocks)) window.blocks.toFinset
        (top (·.recencyScore) (min budget window.blocks.length) window.blocks) := by
  have mixed := top_cut (mixedScore mul c window.blocks) window.unique
    (fun f listed => mixedScore_number mul product c window listed)
    (min budget window.blocks.length)
  have lru := top_cut _ window.unique (window_numbers window) (min budget window.blocks.length)
  have injective : Set.InjOn (fun f : BlockFeatures => f.blockIndex) window.blocks.toFinset := by
    intro f hf g hg same
    exact List.inj_on_of_nodup_map window.unique (List.mem_toFinset.mp hf)
      (List.mem_toFinset.mp hg) same
  rw [retained_selectBlocks mul c window.unique, retained_lruRank]
  constructor
  · intro same
    have tops := Finset.image_injOn_powerset_of_injOn injective
      (Finset.mem_coe.mpr (Finset.mem_powerset.mpr mixed.sub))
      (Finset.mem_coe.mpr (Finset.mem_powerset.mpr lru.sub)) same
    rwa [← tops]
  · intro cut
    rw [mixed.unique cut (by rw [top_card _ window.unique, top_card _ window.unique])]

theorem mixed_ranksBefore (product : ∀ a b, InUnit a → InUnit b → isNaN (mul a b) = false)
    {f g : BlockFeatures} (hf : f ∈ window.blocks) (hg : g ∈ window.blocks) :
    RanksBefore (mixedScore mul c window.blocks f, f.blockIndex)
        (mixedScore mul c window.blocks g, g.blockIndex) ↔
      placeOf (mixedScore mul c window.blocks) f ≤ placeOf (mixedScore mul c window.blocks) g :=
  ranksBefore_iff (mixedScore_number mul product c window hf)
    (mixedScore_number mul product c window hg)

/-- A pass keeps its budget and falls back to LRU exactly when the blocks that LRU keeps rank
before those it drops. -/
theorem selection_falls_back_iff
    (product : ∀ a b, InUnit a → InUnit b → isNaN (mul a b) = false) (c : KvController)
    (window : Window) (budget : Nat) :
    FallsBack mul c window.blocks budget ↔ MixedInOrder mul c window.blocks budget := by
  have lru := top_cut _ window.unique (window_numbers window) (min budget window.blocks.length)
  constructor
  · intro falls fault a ha b hb kept dropped _
    have ended := (gateBlocks_state mul c window.blocks).mpr (.inr fault)
    have cut := (retained_eq_iff product budget).mp (falls.faulted ended)
    have kept := (mem_retained_lruRank ha budget).mp kept
    have dropped := mt (mem_retained_lruRank hb budget).mpr dropped
    exact (mixed_ranksBefore product ha hb).mpr
      (cut.before a kept b (List.mem_toFinset.mpr hb) dropped).le
  · intro ordered
    refine ⟨selectBlocks_count budget, selectBlocks_distinct budget,
      fun _ a ha b hb => selectBlocks_above product budget ha hb, fun ended => ?_⟩
    refine (retained_eq_iff product budget).mpr ⟨lru.sub, fun a kept b hb dropped => ?_⟩
    have ha := List.mem_toFinset.mp (lru.sub kept)
    have recency := lru.before a kept b hb dropped
    rw [List.mem_toFinset] at hb
    by_cases modelled : a ∈ prior c window.blocks ∨ b ∈ prior c window.blocks
    · have fault : ∃ f ∈ window.blocks, faults c f = true := by
        refine ((gateBlocks_state mul c window.blocks).mp ended).resolve_left fun state => ?_
        simp [prior_faulted state] at modelled
      have ranked := ordered fault a ha b hb ((mem_retained_lruRank ha budget).mpr kept)
        (fun named => dropped ((mem_retained_lruRank hb budget).mp named)) modelled
      have before := (mixed_ranksBefore product ha hb).mp ranked
      refine lt_of_le_of_ne before fun same => dropped ?_
      have index : a.blockIndex = b.blockIndex := (Prod.ext_iff.mp (toLex.injective same)).2
      rwa [← List.inj_on_of_nodup_map window.unique ha hb index]
    · obtain ⟨a_later, b_later⟩ := not_or.mp modelled
      rwa [placeOf, placeOf, mixedScore, mixedScore, if_neg a_later, if_neg b_later]

end Selection

end Controller

/-! ## A fault in the middle of a pass -/

def block (i : Nat) (recency : Single) : BlockFeatures :=
  ⟨i, .user, false, false, false, recency, zero⟩

/-- Three blocks of recency 0, 0.5 and 1. -/
def threeBlocks : Window where
  blocks := [block 0 zero, block 1 0x3f000000#32, block 2 one]
  unique := by decide
  recency := by
    intro f listed
    simp only [List.mem_cons, List.not_mem_nil, or_false] at listed
    rcases listed with rfl | rfl | rfl <;> constructor <;> decide

/-- Fails on the block of the given index and scores every other 0.9. -/
def failsAt (i : Nat) : BlockGate where
  score := fun f => if f.blockIndex = i then .error .nonFiniteOutput else .ok 0x3f666666#32
  normalised := by
    intro f s scored
    split at scored
    · cases scored
    · cases scored
      constructor <;> decide

/-- The product with a similarity of one. -/
def timesOne (a _ : Single) : Single := a

def controller (gate : BlockGate) : KvController := ⟨gate, 0x3f000000#32, .active, 0, noQuantizer⟩

/-- A stale block scored 0.9 by the model is kept before a fresher one scored by recency. -/
theorem model_score_outlives_fault :
    ¬ FallsBack timesOne (controller (failsAt 1)) threeBlocks.blocks 2 := by
  intro falls
  have same := falls.faulted (by decide +kernel)
  revert same
  decide +kernel

theorem first_block_fails : FallsBack timesOne (controller (failsAt 0)) threeBlocks.blocks 2 := by
  refine (selection_falls_back_iff (fun a _ unit _ => unit.number) _ threeBlocks 2).mpr ?_
  rintro - a - b - - - (early | early) <;> exact absurd early List.not_mem_nil

end KvSelection
