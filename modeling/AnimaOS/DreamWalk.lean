import AnimaOS.ArchiveReaders
import AnimaOS.FloatOrder
import AnimaOS.KeyedMap
import Mathlib

/-!
# Dream walks over an archive

Seeded random walks step to a similar entry and record each step in a map under the
joined keys of its two ends. The similarity of two embeddings is a parameter, and
only the recorded keys depend on the entries' texts.
-/

namespace DreamWalk

open FloatOrder

structure Xorshift64 where
  state : BitVec 64
  deriving DecidableEq, Repr

def Xorshift64.new (seed : BitVec 64) : Xorshift64 := ⟨if seed = 0 then 1 else seed⟩

def Xorshift64.nextU64 (rng : Xorshift64) : BitVec 64 × Xorshift64 :=
  let x := rng.state
  let x := x ^^^ (x <<< 13)
  let x := x ^^^ (x >>> 7)
  let x := x ^^^ (x <<< 17)
  (x, ⟨x⟩)

def Xorshift64.nextUsize (rng : Xorshift64) (n : Nat) : Nat × Xorshift64 :=
  if n ≤ 1 then (0, rng)
  else
    let (x, rng) := rng.nextU64
    (x.toNat % n, rng)

structure DreamConfig where
  seed : BitVec 64
  walkLength : Nat
  numWalks : Nat
  similarityThreshold : Single
  topKNeighbors : Nat
  deriving DecidableEq, Repr

structure AssociativeEdge where
  fromKey : String
  toKey : String
  similarity : Single
  deriving DecidableEq, Repr

def dedupKey (a b : String) : String :=
  if a ≤ b then a ++ "\x00" ++ b else b ++ "\x00" ++ a

structure DreamReport where
  walksRun : Nat
  stepsTaken : Nat
  candidatesFound : Nat
  seed : BitVec 64
  threshold : Single
  deriving DecidableEq, Repr

structure InMemoryEntry where
  id : Nat
  key : String
  embedding : List Single
  deriving DecidableEq, Repr

/-- Generator, counter and edge map as the walks leave them. -/
structure Progress where
  rng : Xorshift64
  stepsTaken : Nat
  edgeMap : KeyedMap String AssociativeEdge

def recordEdge (edgeMap : KeyedMap String AssociativeEdge) (edge : AssociativeEdge) :
    KeyedMap String AssociativeEdge :=
  let dedup := dedupKey edge.fromKey edge.toKey
  match edgeMap.get dedup with
  | none => edgeMap.insert dedup edge
  | some candidate =>
    if above edge.similarity candidate.similarity then
      edgeMap.insert dedup { candidate with similarity := edge.similarity }
    else edgeMap

def edgeBefore (a b : AssociativeEdge) : Prop :=
  ((descending a.similarity b.similarity).then
    ((compare a.fromKey b.fromKey).then (compare a.toKey b.toKey))).isLE

instance : DecidableRel edgeBefore := fun _ _ => inferInstanceAs (Decidable (_ = true))

section Walk

variable {N E : Type} (key : N → String) (embedding : N → E)
  (similarity : E → E → Single) (entries : List N) (config : DreamConfig)

/-- The other entries that reach the threshold, the most similar first. -/
def scored (currentIdx : Nat) (current : N) : List (Nat × Single) :=
  let others := entries.zipIdx.filter fun other => other.2 ≠ currentIdx
  let scores := others.map fun other =>
    (other.2, similarity (embedding current) (embedding other.1))
  (scores.filter fun s => atLeast s.2 config.similarityThreshold).insertionSort
    fun a b => RanksBefore (a.2, a.1) (b.2, b.1)

/-- One walk; an index out of range ends it in none. -/
def walk : Nat → Nat → Progress → Option Progress
  | 0, _, progress => some progress
  | steps + 1, currentIdx, progress => do
    let current ← entries[currentIdx]?
    let candidates := scored embedding similarity entries config currentIdx current
    if candidates.isEmpty then some progress
    else
      let topK := min candidates.length config.topKNeighbors
      let (chosenRank, rng) := progress.rng.nextUsize topK
      let (nextIdx, sim) ← candidates[chosenRank]?
      let next ← entries[nextIdx]?
      walk steps nextIdx {
        rng := rng
        stepsTaken := progress.stepsTaken + 1
        edgeMap := recordEdge progress.edgeMap ⟨key current, key next, sim⟩ }

def walks : Nat → Progress → Option Progress
  | 0, progress => some progress
  | n + 1, progress => do
    let (currentIdx, rng) := progress.rng.nextUsize entries.length
    let progress ← walk key embedding similarity entries config config.walkLength currentIdx
      { progress with rng := rng }
    walks n progress

/-- A pass over the entries, whichever store they come from. -/
def dreamOver : Option (DreamReport × List AssociativeEdge) :=
  if entries.length < 2 then
    some (⟨0, 0, 0, config.seed, config.similarityThreshold⟩, [])
  else do
    let progress ← walks key embedding similarity entries config config.numWalks
      ⟨.new config.seed, 0, .empty⟩
    let candidates := progress.edgeMap.values.insertionSort edgeBefore
    some (⟨config.numWalks, progress.stepsTaken, candidates.length, config.seed,
      config.similarityThreshold⟩, candidates)

end Walk

def runDreamWalkNoStd (cosineSimilarity : List Single → List Single → Single)
    (entries : List InMemoryEntry) (config : DreamConfig) :
    Option (DreamReport × List AssociativeEdge) :=
  dreamOver (·.key) (·.embedding) cosineSimilarity entries config

def runDreamWalk (cosineSimilarity : List Single → List Single → Single)
    (l3 : L3Archive.Archive) (config : DreamConfig) :
    Option (DreamReport × List AssociativeEdge) :=
  dreamOver (·.provenance.sourceKey) (·.item.embedding) cosineSimilarity
    (ArchiveReaders.entries l3) config

theorem dedupKey_comm (a b : String) : dedupKey a b = dedupKey b a := by
  unfold dedupKey
  rcases lt_trichotomy a b with below | rfl | above
  · rw [if_pos below.le, if_neg (not_le.mpr below)]
  · rfl
  · rw [if_neg (not_le.mpr above), if_pos above.le]

/-- What the map holds under the joined keys of an edge once it is recorded. -/
def merged (edge : AssociativeEdge) : Option AssociativeEdge → AssociativeEdge
  | none => edge
  | some candidate =>
    if above edge.similarity candidate.similarity then
      { candidate with similarity := edge.similarity }
    else candidate

theorem recordEdge_get (m : KeyedMap String AssociativeEdge) (edge : AssociativeEdge) (k : String) :
    (recordEdge m edge).get k =
      if k = dedupKey edge.fromKey edge.toKey then
        some (merged edge (m.get (dedupKey edge.fromKey edge.toKey)))
      else m.get k := by
  unfold recordEdge merged
  cases found : m.get (dedupKey edge.fromKey edge.toKey) with
  | none => simp [found, KeyedMap.get_insert]
  | some candidate =>
    by_cases better : above edge.similarity candidate.similarity
    · simp [found, better, KeyedMap.get_insert]
    · by_cases same : k = dedupKey edge.fromKey edge.toKey
      · simp [same, found, better]
      · simp [same, found, better]

/-! ## The walk below the map -/

structure Step where
  start : Nat
  target : Nat
  similarity : Single
  deriving DecidableEq, Repr

def Step.pair (s : Step) : Sym2 Nat := s(s.start, s.target)

section Path

variable {N E : Type} (key : N → String) (embedding : N → E)
  (similarity : E → E → Single) (entries : List N) (config : DreamConfig)

/-- The next step of a walk, if some other entry is similar enough. -/
def choose (currentIdx : Nat) (rng : Xorshift64) : Option (Step × Xorshift64) :=
  (entries[currentIdx]?).bind fun current =>
    let candidates := scored embedding similarity entries config currentIdx current
    let chosen := rng.nextUsize (min candidates.length config.topKNeighbors)
    (candidates[chosen.1]?).map fun c => (⟨currentIdx, c.1, c.2⟩, chosen.2)

/-- The steps of one walk, for which no key is read. -/
def path : Nat → Nat → Xorshift64 → List Step × Xorshift64
  | 0, _, rng => ([], rng)
  | steps + 1, currentIdx, rng =>
    match choose embedding similarity entries config currentIdx rng with
    | none => ([], rng)
    | some (step, rng) =>
      let (rest, last) := path steps step.target rng
      (step :: rest, last)

def paths : Nat → Xorshift64 → List Step × Xorshift64
  | 0, rng => ([], rng)
  | n + 1, rng =>
    let (currentIdx, rng) := rng.nextUsize entries.length
    let (first, rng) := path embedding similarity entries config config.walkLength currentIdx rng
    let (rest, last) := paths n rng
    (first ++ rest, last)

/-- All steps of a pass. -/
def walked : List Step :=
  if entries.length < 2 then []
  else (paths embedding similarity entries config config.numWalks (.new config.seed)).1

def keyAt (i : Nat) : String := (entries[i]?).elim "" key

def edgeOf (s : Step) : AssociativeEdge :=
  ⟨keyAt key entries s.start, keyAt key entries s.target, s.similarity⟩

def recordSteps (edgeMap : KeyedMap String AssociativeEdge) (steps : List Step) :
    KeyedMap String AssociativeEdge :=
  steps.foldl (fun m s => recordEdge m (edgeOf key entries s)) edgeMap

/-- A step joins two different entries whose similarity reaches the threshold. -/
structure Taken (s : Step) : Prop where
  start : s.start < entries.length
  target : s.target < entries.length
  apart : s.start ≠ s.target
  similar : ∃ a b, entries[s.start]? = some a ∧ entries[s.target]? = some b ∧
    s.similarity = similarity (embedding a) (embedding b)
  reaches : atLeast s.similarity config.similarityThreshold = true

theorem nextUsize_lt (rng : Xorshift64) {n : Nat} (positive : 0 < n) :
    (rng.nextUsize n).1 < n := by
  unfold Xorshift64.nextUsize
  split
  · exact positive
  · exact Nat.mod_lt _ positive

/-- The rank drawn is in range even when no neighbour is to be considered. -/
theorem nextUsize_min (rng : Xorshift64) {n : Nat} (positive : 0 < n) (k : Nat) :
    (rng.nextUsize (min n k)).1 < n := by
  cases k with
  | zero => simpa [Xorshift64.nextUsize] using positive
  | succ k =>
    have bound := nextUsize_lt rng (show 0 < min n (k + 1) by omega)
    omega

theorem mem_scored {currentIdx : Nat} {current : N} {c : Nat × Single}
    (listed : c ∈ scored embedding similarity entries config currentIdx current) :
    c.1 ≠ currentIdx ∧ (∃ other, entries[c.1]? = some other ∧
      c.2 = similarity (embedding current) (embedding other)) ∧
      atLeast c.2 config.similarityThreshold = true := by
  simp only [scored, List.mem_insertionSort, List.mem_filter, List.mem_map] at listed
  obtain ⟨⟨⟨other, i⟩, ⟨placed, apart⟩, rfl⟩, reaches⟩ := listed
  exact ⟨of_decide_eq_true apart, ⟨other, List.mk_mem_zipIdx_iff_getElem?.mp placed, rfl⟩, reaches⟩

theorem choose_taken {currentIdx : Nat} {rng last : Xorshift64} {s : Step}
    (chosen : choose embedding similarity entries config currentIdx rng = some (s, last)) :
    s.start = currentIdx ∧ Taken embedding similarity entries config s := by
  obtain ⟨current, present, found⟩ := Option.bind_eq_some_iff.mp chosen
  obtain ⟨c, candidate, same⟩ := Option.map_eq_some_iff.mp found
  cases same
  obtain ⟨apart, ⟨other, placed, similar⟩, reaches⟩ :=
    mem_scored embedding similarity entries config (List.mem_of_getElem? candidate)
  exact ⟨rfl, (List.getElem?_eq_some_iff.mp present).1, (List.getElem?_eq_some_iff.mp placed).1,
    apart.symm, ⟨current, other, present, placed, similar⟩, reaches⟩

/-- One walk records the steps of its path. -/
theorem walk_eq (steps : Nat) {currentIdx : Nat} (inside : currentIdx < entries.length)
    (progress : Progress) :
    walk key embedding similarity entries config steps currentIdx progress =
      let taken := path embedding similarity entries config steps currentIdx progress.rng
      some ⟨taken.2, progress.stepsTaken + taken.1.length,
        recordSteps key entries progress.edgeMap taken.1⟩ := by
  induction steps generalizing currentIdx progress with
  | zero => rfl
  | succ steps ih =>
    obtain ⟨current, present⟩ : ∃ current, entries[currentIdx]? = some current :=
      ⟨_, List.getElem?_eq_getElem inside⟩
    cases candidates : scored embedding similarity entries config currentIdx current with
    | nil => simp [walk, path, choose, present, candidates, recordSteps]
    | cons c cs =>
      have rank := nextUsize_min progress.rng (show 0 < (c :: cs).length by simp)
        config.topKNeighbors
      obtain ⟨next, found⟩ : ∃ next, (c :: cs)[(progress.rng.nextUsize
          (min (c :: cs).length config.topKNeighbors)).1]? = some next :=
        ⟨_, List.getElem?_eq_getElem rank⟩
      have chosen : choose embedding similarity entries config currentIdx progress.rng =
          some (⟨currentIdx, next.1, next.2⟩, (progress.rng.nextUsize
            (min (c :: cs).length config.topKNeighbors)).2) := by
        simp only [choose, present, candidates, Option.bind_some, found, Option.map_some]
      obtain ⟨-, taken⟩ := choose_taken embedding similarity entries config chosen
      obtain ⟨other, placed⟩ : ∃ other, entries[next.1]? = some other :=
        ⟨_, List.getElem?_eq_getElem taken.target⟩
      simp only [walk, path, present, candidates, Option.bind_eq_bind, Option.bind_some,
        List.isEmpty_cons, found, placed, chosen, ih taken.target]
      simp only [recordSteps, edgeOf, keyAt, present, placed, Option.elim_some, List.foldl_cons,
        List.length_cons, Nat.add_assoc, Nat.add_comm 1, Bool.false_eq_true, if_false]

theorem walks_eq (n : Nat) (nonempty : 0 < entries.length) (progress : Progress) :
    walks key embedding similarity entries config n progress =
      let taken := paths embedding similarity entries config n progress.rng
      some ⟨taken.2, progress.stepsTaken + taken.1.length,
        recordSteps key entries progress.edgeMap taken.1⟩ := by
  induction n generalizing progress with
  | zero => rfl
  | succ n ih =>
    have inside := nextUsize_lt progress.rng nonempty
    simp only [walks, paths, walk_eq key embedding similarity entries config _ inside,
      Option.bind_eq_bind, Option.bind_some, ih, recordSteps, List.foldl_append, List.length_append,
      Nat.add_assoc]

theorem path_taken (steps : Nat) (currentIdx : Nat) (rng : Xorshift64) :
    ∀ s ∈ (path embedding similarity entries config steps currentIdx rng).1,
      Taken embedding similarity entries config s := by
  induction steps generalizing currentIdx rng with
  | zero => simp [path]
  | succ steps ih =>
    intro s listed
    rw [path] at listed
    cases chosen : choose embedding similarity entries config currentIdx rng with
    | none => simp [chosen] at listed
    | some found =>
      simp only [chosen] at listed
      rcases List.mem_cons.mp listed with rfl | later
      · exact (choose_taken embedding similarity entries config chosen).2
      · exact ih _ _ s later

theorem paths_taken (n : Nat) (rng : Xorshift64) :
    ∀ s ∈ (paths embedding similarity entries config n rng).1,
      Taken embedding similarity entries config s := by
  induction n generalizing rng with
  | zero => simp [paths]
  | succ n ih =>
    intro s listed
    rcases List.mem_append.mp listed with first | later
    · exact path_taken embedding similarity entries config _ _ _ s first
    · exact ih _ s later

theorem walked_taken : ∀ s ∈ walked embedding similarity entries config,
    Taken embedding similarity entries config s := by
  intro s listed
  unfold walked at listed
  split at listed
  · exact absurd listed List.not_mem_nil
  · exact paths_taken embedding similarity entries config _ _ s listed

/-- The edges of some steps, in their final order. -/
def candidateEdges (steps : List Step) : List AssociativeEdge :=
  (recordSteps key entries .empty steps).values.insertionSort edgeBefore

/-- A pass returns the edges recorded for the steps walked. -/
theorem dreamOver_eq :
    dreamOver key embedding similarity entries config =
      let steps := walked embedding similarity entries config
      let edges := candidateEdges key entries steps
      some (⟨if entries.length < 2 then 0 else config.numWalks, steps.length, edges.length,
        config.seed, config.similarityThreshold⟩, edges) := by
  unfold dreamOver walked
  split
  · rfl
  · rw [walks_eq key embedding similarity entries config _ (by omega)]
    simp only [Option.bind_eq_bind, Option.bind_some, Nat.zero_add, candidateEdges]

/-! ## What the map holds -/

/-- The joined keys of a pair of indices. -/
def joined : Sym2 Nat → String :=
  Sym2.lift ⟨fun i j => dedupKey (keyAt key entries i) (keyAt key entries j),
    fun _ _ => dedupKey_comm _ _⟩

/-- Under each joined key that was walked the map holds the keys of one of its steps and the
similarity of one of its steps. -/
structure Recorded (steps : List Step) (m : KeyedMap String AssociativeEdge) : Prop where
  absent : ∀ k, m.get k = none → ∀ s ∈ steps, joined key entries s.pair ≠ k
  present : ∀ k e, m.get k = some e →
    (∃ s ∈ steps, joined key entries s.pair = k ∧ e.fromKey = keyAt key entries s.start ∧
      e.toKey = keyAt key entries s.target) ∧
    ∃ s ∈ steps, joined key entries s.pair = k ∧ e.similarity = s.similarity

variable {key entries}

theorem recorded_empty : Recorded key entries [] .empty where
  absent := by simp
  present := by simp [KeyedMap.get, KeyedMap.empty]

theorem Recorded.record {steps : List Step} {m : KeyedMap String AssociativeEdge}
    (recorded : Recorded key entries steps m) (s : Step) :
    Recorded key entries (steps ++ [s]) (recordEdge m (edgeOf key entries s)) := by
  have named : dedupKey (edgeOf key entries s).fromKey (edgeOf key entries s).toKey =
      joined key entries s.pair := rfl
  have last : s ∈ steps ++ [s] := List.mem_append_right _ List.mem_cons_self
  have older : ∀ {t}, t ∈ steps → t ∈ steps ++ [s] := fun listed => List.mem_append_left _ listed
  have carried : ∀ k e, m.get k = some e →
      (∃ t ∈ steps ++ [s], joined key entries t.pair = k ∧ e.fromKey = keyAt key entries t.start ∧
        e.toKey = keyAt key entries t.target) ∧
      ∃ t ∈ steps ++ [s], joined key entries t.pair = k ∧ e.similarity = t.similarity := by
    intro k e got
    obtain ⟨⟨t, t_listed, t_key⟩, u, u_listed, u_key⟩ := recorded.present k e got
    exact ⟨⟨t, older t_listed, t_key⟩, u, older u_listed, u_key⟩
  refine ⟨fun k missing t listed => ?_, fun k e got => ?_⟩
  · rw [recordEdge_get, named] at missing
    split at missing
    · cases missing
    · next other =>
      rcases List.mem_append.mp listed with before | now
      · exact recorded.absent k missing t before
      · rw [List.mem_singleton.mp now]
        exact Ne.symm other
  · rw [recordEdge_get, named] at got
    split at got
    · next same =>
      obtain rfl : k = joined key entries s.pair := same
      obtain rfl := Option.some.inj got
      cases found : m.get (joined key entries s.pair) with
      | none => exact ⟨⟨s, last, rfl, rfl, rfl⟩, s, last, rfl, rfl⟩
      | some candidate =>
        obtain ⟨ends, similar⟩ := carried _ candidate found
        simp only [merged]
        split
        · exact ⟨ends, s, last, rfl, rfl⟩
        · exact ⟨ends, similar⟩
    · exact carried k e got

variable (key entries) in
theorem recorded_steps (steps : List Step) :
    Recorded key entries steps (recordSteps key entries .empty steps) := by
  induction steps using List.reverseRecOn with
  | nil => exact recorded_empty
  | append_singleton steps s ih =>
    rw [recordSteps, List.foldl_append]
    exact ih.record s

/-! ## Pairs and edges -/

variable (key entries)

def walkedPairs (steps : List Step) : Finset (Sym2 Nat) := (steps.map Step.pair).toFinset

theorem mem_walkedPairs {steps : List Step} {p : Sym2 Nat} :
    p ∈ walkedPairs steps ↔ ∃ s ∈ steps, s.pair = p := by
  rw [walkedPairs, List.mem_toFinset, List.mem_map]

/-- An edge carries the keys of the two entries of a walked pair and a similarity of that pair,
which reaches the threshold. -/
structure Reports (steps : List Step) (p : Sym2 Nat) (e : AssociativeEdge) : Prop where
  apart : ¬ p.IsDiag
  ends : ∃ s ∈ steps, s.pair = p ∧ e.fromKey = keyAt key entries s.start ∧
    e.toKey = keyAt key entries s.target
  similar : ∃ s ∈ steps, s.pair = p ∧ Taken embedding similarity entries config s ∧
    e.similarity = s.similarity
  reaches : atLeast e.similarity config.similarityThreshold = true

/-- The edges report each walked pair once, and no edge joins a key with itself. -/
structure GenuinePairs (steps : List Step) (edges : List AssociativeEdge) : Prop where
  different : ∀ e ∈ edges, e.fromKey ≠ e.toKey
  pairs : ∃ reported : List (Sym2 Nat × AssociativeEdge), (reported.map Prod.snd).Perm edges ∧
    (reported.map Prod.fst).Nodup ∧ (reported.map Prod.fst).toFinset = walkedPairs steps ∧
    ∀ r ∈ reported, Reports key embedding similarity entries config steps r.1 r.2

/-- The steps tell pairs apart by their joined keys, and none joins equal keys. -/
structure Unambiguous (steps : List Step) : Prop where
  different : ∀ s ∈ steps, keyAt key entries s.start ≠ keyAt key entries s.target
  apart : ∀ s ∈ steps, ∀ t ∈ steps,
    dedupKey (keyAt key entries s.start) (keyAt key entries s.target) =
      dedupKey (keyAt key entries t.start) (keyAt key entries t.target) → s.pair = t.pair

theorem candidateEdges_perm (steps : List Step) :
    (candidateEdges key entries steps).Perm (recordSteps key entries .empty steps).values :=
  List.perm_insertionSort _ _

/-- There are as many edges as joined keys among the walked pairs. -/
theorem candidateEdges_length (steps : List Step) :
    (candidateEdges key entries steps).length =
      ((walkedPairs steps).image (joined key entries)).card := by
  have recorded := recorded_steps key entries steps
  have keys : (KeyedList.keys (recordSteps key entries .empty steps).entries).toFinset =
      (walkedPairs steps).image (joined key entries) := by
    ext k
    rw [List.mem_toFinset, KeyedList.mem_keys, Finset.mem_image]
    constructor
    · rintro ⟨e, listed⟩
      obtain ⟨⟨s, walked, named, -⟩, -⟩ := recorded.present k e (KeyedMap.mem_entries.mp listed)
      exact ⟨s.pair, mem_walkedPairs.mpr ⟨s, walked, rfl⟩, named⟩
    · rintro ⟨p, walked, rfl⟩
      obtain ⟨s, listed, rfl⟩ := mem_walkedPairs.mp walked
      cases found : (recordSteps key entries .empty steps).get (joined key entries s.pair) with
      | none => exact absurd rfl (recorded.absent _ found s listed)
      | some e => exact ⟨e, KeyedMap.mem_entries.mpr found⟩
  rw [(candidateEdges_perm key entries steps).length_eq, ← keys,
    List.toFinset_card_of_nodup (recordSteps key entries .empty steps).distinct]
  simp [KeyedMap.values]

variable {key entries} {embedding similarity config}

theorem Unambiguous.same_pair {steps : List Step} (unambiguous : Unambiguous key entries steps)
    {s t : Step} (hs : s ∈ steps) (ht : t ∈ steps)
    (same : joined key entries s.pair = joined key entries t.pair) : s.pair = t.pair :=
  unambiguous.apart s hs t ht same

theorem Unambiguous.injOn {steps : List Step} (unambiguous : Unambiguous key entries steps) :
    Set.InjOn (joined key entries) (walkedPairs steps) := by
  intro p hp q hq same
  obtain ⟨s, hs, rfl⟩ := mem_walkedPairs.mp hp
  obtain ⟨t, ht, rfl⟩ := mem_walkedPairs.mp hq
  exact unambiguous.same_pair hs ht same

/-- Entries that each have a witness are listed with their witnesses. -/
theorem exists_labelled {P X : Type} {R : P → X → Prop} {l : List X}
    (related : ∀ x ∈ l, ∃ p, R p x) :
    ∃ labelled : List (P × X), labelled.map Prod.snd = l ∧ ∀ y ∈ labelled, R y.1 y.2 := by
  induction l with
  | nil => exact ⟨[], rfl, by simp⟩
  | cons x xs ih =>
    obtain ⟨p, first⟩ := related x List.mem_cons_self
    obtain ⟨rest, rfl, later⟩ := ih fun y listed => related y (List.mem_cons_of_mem _ listed)
    refine ⟨(p, x) :: rest, rfl, fun y listed => ?_⟩
    rcases List.mem_cons.mp listed with rfl | listed
    · exact first
    · exact later y listed

/-- Each entry of the map reports the pair under its key. -/
theorem Unambiguous.reports {steps : List Step} (unambiguous : Unambiguous key entries steps)
    (taken : ∀ s ∈ steps, Taken embedding similarity entries config s) :
    ∀ x ∈ (recordSteps key entries .empty steps).entries,
      ∃ p, joined key entries p = x.1 ∧ p ∈ walkedPairs steps ∧
        Reports key embedding similarity entries config steps p x.2 := by
  rintro ⟨k, e⟩ listed
  have got := KeyedMap.mem_entries.mp listed
  obtain ⟨⟨s, hs, s_key, ends⟩, t, ht, t_key, similar⟩ :=
    (recorded_steps key entries steps).present k e got
  have same := unambiguous.same_pair ht hs (t_key.trans s_key.symm)
  refine ⟨s.pair, s_key, mem_walkedPairs.mpr ⟨s, hs, rfl⟩, ?_⟩
  refine ⟨fun diagonal => (taken s hs).apart (Sym2.mk_isDiag_iff.mp diagonal),
    ⟨s, hs, rfl, ends⟩, ⟨t, ht, same, taken t ht, similar⟩, ?_⟩
  rw [similar]
  exact (taken t ht).reaches

theorem Unambiguous.edge_keys {steps : List Step} (unambiguous : Unambiguous key entries steps)
    {e : AssociativeEdge} (listed : e ∈ candidateEdges key entries steps) :
    e.fromKey ≠ e.toKey := by
  have held := (candidateEdges_perm key entries steps).mem_iff.mp listed
  obtain ⟨k, got⟩ := KeyedMap.mem_values_get.mp held
  obtain ⟨⟨s, hs, -, start, target⟩, -⟩ := (recorded_steps key entries steps).present k e got
  rw [start, target]
  exact unambiguous.different s hs

theorem Unambiguous.genuine {steps : List Step} (unambiguous : Unambiguous key entries steps)
    (taken : ∀ s ∈ steps, Taken embedding similarity entries config s) :
    GenuinePairs key embedding similarity entries config steps
      (candidateEdges key entries steps) := by
  obtain ⟨labelled, whole, related⟩ := exists_labelled (unambiguous.reports taken)
  have values : ((labelled.map fun y => (y.1, y.2.2)).map Prod.snd).Perm
      (candidateEdges key entries steps) := by
    refine List.Perm.trans (.of_eq ?_) (candidateEdges_perm key entries steps).symm
    rw [KeyedMap.values, ← whole, List.map_map, List.map_map]
    rfl
  have distinct : ((labelled.map fun y => (y.1, y.2.2)).map Prod.fst).Nodup := by
    have names : (labelled.map Prod.fst).map (joined key entries) =
        KeyedList.keys (recordSteps key entries .empty steps).entries := by
      rw [KeyedList.keys, ← whole, List.map_map, List.map_map]
      exact List.map_congr_left fun y listed => (related y listed).1
    rw [List.map_map]
    refine List.Nodup.of_map (joined key entries) ?_
    exact names ▸ (recordSteps key entries .empty steps).distinct
  have sub : ((labelled.map fun y => (y.1, y.2.2)).map Prod.fst).toFinset ⊆ walkedPairs steps := by
    intro p listed
    rw [List.mem_toFinset, List.map_map] at listed
    obtain ⟨y, member, rfl⟩ := List.mem_map.mp listed
    exact (related y member).2.1
  refine ⟨fun e => unambiguous.edge_keys, _, values, distinct, ?_, fun r listed => ?_⟩
  · refine Finset.eq_of_subset_of_card_le sub ?_
    rw [List.toFinset_card_of_nodup distinct, List.length_map, ← List.length_map Prod.snd,
      values.length_eq, candidateEdges_length, Finset.card_image_of_injOn unambiguous.injOn]
  · obtain ⟨y, member, rfl⟩ := List.mem_map.mp listed
    exact (related y member).2.2

theorem GenuinePairs.count {steps : List Step} {edges : List AssociativeEdge}
    (genuine : GenuinePairs key embedding similarity entries config steps edges) :
    edges.length = (walkedPairs steps).card := by
  obtain ⟨reported, perm, distinct, whole, -⟩ := genuine.pairs
  rw [← whole, List.toFinset_card_of_nodup distinct, List.length_map, ← perm.length_eq,
    List.length_map]

theorem GenuinePairs.unambiguous {steps : List Step}
    (genuine : GenuinePairs key embedding similarity entries config steps
      (candidateEdges key entries steps)) : Unambiguous key entries steps := by
  obtain ⟨reported, edges, -, whole, reports⟩ := genuine.pairs
  have injective : Set.InjOn (joined key entries) (walkedPairs steps) := by
    rw [← Finset.card_image_iff, ← candidateEdges_length, genuine.count]
  have member : ∀ s ∈ steps, s.pair ∈ walkedPairs steps := fun s listed =>
    mem_walkedPairs.mpr ⟨s, listed, rfl⟩
  refine ⟨fun s listed equal => ?_,
    fun s hs t ht same => injective (member s hs) (member t ht) same⟩
  have walked := member s listed
  rw [← whole, List.mem_toFinset, List.mem_map] at walked
  obtain ⟨r, in_reported, pair⟩ := walked
  obtain ⟨t, -, t_pair, start, target⟩ := (reports r in_reported).ends
  refine genuine.different r.2 (edges.mem_iff.mp (List.mem_map_of_mem in_reported)) ?_
  rw [start, target]
  rcases Sym2.eq_iff.mp (t_pair.trans pair) with ⟨h, h'⟩ | ⟨h, h'⟩
  · rw [h, h', equal]
  · rw [h, h', equal]

/-! ## Keys without NUL -/

theorem dedupKey_text (a b : String) : ∃ x y, s(x, y) = s(a, b) ∧
    (dedupKey a b).toList = x.toList ++ '\x00' :: y.toList := by
  unfold dedupKey
  split
  · exact ⟨a, b, rfl, by simp⟩
  · exact ⟨b, a, Sym2.eq_swap, by simp⟩

theorem dedupKey_injective {a b c d : String} (first : '\x00' ∉ a.toList)
    (second : '\x00' ∉ b.toList) (same : dedupKey a b = dedupKey c d) : s(a, b) = s(c, d) := by
  obtain ⟨x, y, pair, text⟩ := dedupKey_text a b
  obtain ⟨x', y', pair', text'⟩ := dedupKey_text c d
  have plain : '\x00' ∉ x.toList ∧ '\x00' ∉ y.toList := by
    rcases Sym2.eq_iff.mp pair with ⟨rfl, rfl⟩ | ⟨rfl, rfl⟩
    · exact ⟨first, second⟩
    · exact ⟨second, first⟩
  rw [same, text'] at text
  obtain ⟨left, -, right⟩ := (List.append_cons_inj_of_notMem plain.1 plain.2).mp text.symm
  rw [← pair, ← pair', String.toList_inj.mp left, String.toList_inj.mp right]

/-- Distinct keys without NUL tell the pairs of every walk apart. -/
theorem unambiguous_of_distinct (distinct : (entries.map key).Nodup)
    (plain : ∀ e ∈ entries, '\x00' ∉ (key e).toList) :
    Unambiguous key entries (walked embedding similarity entries config) := by
  have taken := walked_taken embedding similarity entries config
  have keyed : ∀ {i}, i < entries.length → (entries.map key)[i]? = some (keyAt key entries i) := by
    intro i inside
    simp [keyAt, List.getElem?_eq_getElem inside]
  have same_key : ∀ {i j}, i < entries.length → j < entries.length →
      keyAt key entries i = keyAt key entries j → i = j := by
    intro i j hi hj same
    refine (List.getElem?_inj (by simpa using hi) distinct).mp ?_
    rw [keyed hi, keyed hj, same]
  have no_nul : ∀ {i}, i < entries.length → '\x00' ∉ (keyAt key entries i).toList := by
    intro i inside
    obtain ⟨e, listed, named⟩ := List.mem_map.mp (List.mem_of_getElem? (keyed inside))
    exact named ▸ plain e listed
  have different : ∀ s ∈ walked embedding similarity entries config,
      keyAt key entries s.start ≠ keyAt key entries s.target := fun s hs equal =>
    (taken s hs).apart (same_key (taken s hs).start (taken s hs).target equal)
  refine ⟨different, fun s hs t ht same => ?_⟩
  have keys := dedupKey_injective (no_nul (taken s hs).start) (no_nul (taken s hs).target) same
  rcases Sym2.eq_iff.mp keys with ⟨start, target⟩ | ⟨start, target⟩
  · rw [Step.pair, Step.pair, same_key (taken s hs).start (taken t ht).start start,
      same_key (taken s hs).target (taken t ht).target target]
  · rw [Step.pair, Step.pair, same_key (taken s hs).start (taken t ht).target start,
      same_key (taken s hs).target (taken t ht).start target]
    exact Sym2.eq_swap

end Path

/-- A pass returns, and its edges are the walked pairs exactly when their joined keys tell them
apart and none has equal keys. -/
theorem genuine_pairs_iff {N E : Type} (key : N → String) (embedding : N → E)
    (similarity : E → E → Single) (entries : List N) (config : DreamConfig) :
    (∃ report edges, dreamOver key embedding similarity entries config = some (report, edges) ∧
      GenuinePairs key embedding similarity entries config
        (walked embedding similarity entries config) edges) ↔
      Unambiguous key entries (walked embedding similarity entries config) := by
  rw [dreamOver_eq]
  constructor
  · rintro ⟨report, edges, returned, genuine⟩
    cases returned
    exact genuine.unambiguous
  · intro unambiguous
    exact ⟨_, _, rfl, unambiguous.genuine (walked_taken embedding similarity entries config)⟩

/-! ## Two pairs under one text -/

/-- The cosine of two of the vectors below. -/
def sameDirection (a b : List Single) : Single := if a = b then 0x3f800000#32 else 0x00000000#32

def fourEntries : List InMemoryEntry :=
  [⟨1, "a\x00b", [0x3f800000#32, 0x00000000#32]⟩, ⟨2, "c", [0x3f800000#32, 0x00000000#32]⟩,
    ⟨3, "a", [0x00000000#32, 0x3f800000#32]⟩, ⟨4, "b\x00c", [0x00000000#32, 0x3f800000#32]⟩]

def twoWalks : DreamConfig where
  seed := 4
  walkLength := 1
  numWalks := 2
  similarityThreshold := 0x3f000000#32
  topKNeighbors := 3

/-- The walks join the first two entries and the last two, and one edge is returned. -/
theorem joined_keys_coincide : ¬ ∃ report edges,
    runDreamWalkNoStd sameDirection fourEntries twoWalks = some (report, edges) ∧
      GenuinePairs (·.key) (·.embedding) sameDirection fourEntries twoWalks
        (walked (·.embedding) sameDirection fourEntries twoWalks) edges := by
  rintro ⟨report, edges, returned, genuine⟩
  have one : (runDreamWalkNoStd sameDirection fourEntries twoWalks).map (·.2.length) = some 1 := by
    decide +kernel
  have two : (walkedPairs (walked (·.embedding) sameDirection fourEntries twoWalks)).card = 2 := by
    decide +kernel
  rw [returned] at one
  have count : edges.length = 1 := Option.some.inj one
  rw [genuine.count, two] at count
  cases count

end DreamWalk
