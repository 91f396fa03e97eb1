import AnimaOS.KeyedList
import AnimaOS.ToolRegistry

/-!
# The tool response cache

`ToolCacheInner` and the cached dispatch in front of the tool registry. Entries
are filed under the tool id and a 64-bit hash of the payload. Every reading of
the clock is its own, and a sum of times wraps as it does without overflow checks.
-/

namespace ToolCache

open FixedWidth KeyedList Machine ToolRegistry

def fnvOffset : Nat := 14_695_981_039_346_656_037

def fnvPrime : Nat := 1_099_511_628_211

def fnv1aHash (data : List UInt8) : Nat :=
  data.foldl (fun h b => wrap 64 ((h ^^^ b.toNat) * fnvPrime)) fnvOffset

abbrev CacheKey := String × Nat

def makeKey (toolId : String) (payload : List UInt8) : CacheKey := (toolId, fnv1aHash payload)

structure CacheConfig where
  defaultTtlMs : Nat
  maxEntries : Nat
  bypassTools : List String
  toolTtlOverrides : String → Option Nat

def CacheConfig.default : CacheConfig := ⟨60_000, 1_024, ["clock"], fun _ => none⟩

def CacheConfig.withTtl (ttlMs : Nat) : CacheConfig :=
  { CacheConfig.default with defaultTtlMs := ttlMs, bypassTools := [] }

def CacheConfig.ttlFor (config : CacheConfig) (toolId : String) : Nat :=
  (config.toolTtlOverrides toolId).getD config.defaultTtlMs

def CacheConfig.isBypassed (config : CacheConfig) (toolId : String) : Bool :=
  config.bypassTools.any (· == toolId)

structure CacheEntry where
  payload : List UInt8
  response : List UInt8
  expiresAtMs : Nat
  insertedAtMs : Nat
  deriving DecidableEq, Repr

namespace CacheEntry

def isExpired (e : CacheEntry) (nowMs : Nat) : Bool := decide (nowMs ≥ e.expiresAtMs)

def ageMs (e : CacheEntry) (nowMs : Nat) : Nat := nowMs - e.insertedAtMs

end CacheEntry

structure CacheStats where
  hits : Nat
  misses : Nat
  ttlEvictions : Nat
  capacityEvictions : Nat
  currentEntries : Nat
  deriving DecidableEq, Repr

inductive CacheOutcome where
  | hit (ageMs : Nat)
  | miss
  | bypassed
  deriving DecidableEq, Repr

abbrev Entries := List (CacheKey × CacheEntry)

structure ToolCacheInner where
  entries : Entries
  stats : CacheStats
  deriving DecidableEq, Repr

def new : ToolCacheInner := ⟨[], ⟨0, 0, 0, 0, 0⟩⟩

/-- The order in which the hash map is iterated, which the source leaves open. -/
structure IterationOrder where
  order : Entries → Entries
  rearranges : ∀ entries, (order entries).Perm entries

def IterationOrder.asListed : IterationOrder := ⟨id, List.Perm.refl⟩

def find (entries : Entries) (key : CacheKey) : Option CacheEntry :=
  (findKey Prod.fst entries key).map Prod.snd

def remove (entries : Entries) (key : CacheKey) : Entries :=
  entries.filter fun e => e.1 ≠ key

def oldestKey (entries : Entries) (iter : IterationOrder) : Option CacheKey :=
  ((iter.order entries).argmin fun e => e.2.insertedAtMs).map Prod.fst

def get (config : CacheConfig) (s : ToolCacheInner) (toolId : String) (payload : List UInt8)
    (now : Nat) : ToolCacheInner × Option CacheEntry :=
  if config.isBypassed toolId then (s, none)
  else
    let key := makeKey toolId payload
    match find s.entries key with
    | some e =>
      if e.isExpired now then
        let entries := remove s.entries key
        (⟨entries, { s.stats with
            ttlEvictions := wrap 64 (s.stats.ttlEvictions + 1)
            misses := wrap 64 (s.stats.misses + 1)
            currentEntries := entries.length }⟩, none)
      else if e.payload = payload then
        (⟨s.entries, { s.stats with hits := wrap 64 (s.stats.hits + 1) }⟩, some e)
      -- the bucket of a colliding payload is left for `insert` to overwrite
      else (⟨s.entries, { s.stats with misses := wrap 64 (s.stats.misses + 1) }⟩, none)
    | none => (⟨s.entries, { s.stats with misses := wrap 64 (s.stats.misses + 1) }⟩, none)

/-- Room for a new key: the oldest entry goes when the store is full. -/
def makeRoom (config : CacheConfig) (s : ToolCacheInner) (key : CacheKey)
    (iter : IterationOrder) : ToolCacheInner :=
  if s.entries.length ≥ config.maxEntries ∧ find s.entries key = none then
    match oldestKey s.entries iter with
    | some oldest =>
      ⟨remove s.entries oldest,
        { s.stats with capacityEvictions := wrap 64 (s.stats.capacityEvictions + 1) }⟩
    | none => s
  else s

def insert (config : CacheConfig) (s : ToolCacheInner) (toolId : String)
    (payload response : List UInt8) (now : Nat) (iter : IterationOrder) : ToolCacheInner :=
  if config.isBypassed toolId then s
  else
    let key := makeKey toolId payload
    let s := makeRoom config s key iter
    let entries := upsert Prod.fst s.entries
      (key, ⟨payload, response, wrap 64 (now + config.ttlFor toolId), now⟩)
    ⟨entries, { s.stats with currentEntries := entries.length }⟩

def evictExpired (s : ToolCacheInner) (now : Nat) : ToolCacheInner × Nat :=
  let entries := s.entries.filter fun e => !e.2.isExpired now
  let evicted := s.entries.length - entries.length
  (⟨entries, { s.stats with
      ttlEvictions := wrap 64 (s.stats.ttlEvictions + evicted)
      currentEntries := entries.length }⟩, evicted)

def clear (s : ToolCacheInner) : ToolCacheInner :=
  ⟨[], { s.stats with currentEntries := 0 }⟩

/-- One dispatch: what the registry would answer, and the clock as each part reads it. -/
structure Dispatch where
  envelope : ToolEnvelope
  invoked : ToolResult
  lookupMs : Nat
  ageMs : Nat
  storeMs : Nat
  iter : IterationOrder

def dispatchWithOutcome (config : CacheConfig) (s : ToolCacheInner) (d : Dispatch) :
    ToolCacheInner × ToolResult × CacheOutcome :=
  if config.isBypassed d.envelope.toolId then (s, d.invoked, .bypassed)
  else
    match get config s d.envelope.toolId d.envelope.payload d.lookupMs with
    | (s, some entry) => (s, .ok entry.response, .hit (entry.ageMs d.ageMs))
    | (s, none) =>
      match d.invoked with
      | .ok response =>
        (insert config s d.envelope.toolId d.envelope.payload response d.storeMs d.iter,
          d.invoked, .miss)
      | .error _ => (s, d.invoked, .miss)

inductive Request where
  | dispatch (d : Dispatch)
  | evictExpired (nowMs : Nat)
  | clear

inductive Response where
  | answered (result : ToolResult) (outcome : CacheOutcome)
  | evicted (count : Nat)
  | cleared

def step (config : CacheConfig) (s : ToolCacheInner) : Request → ToolCacheInner × Response
  | .dispatch d =>
    let r := dispatchWithOutcome config s d
    (r.1, .answered r.2.1 r.2.2)
  | .evictExpired nowMs =>
    let r := evictExpired s nowMs
    (r.1, .evicted r.2)
  | .clear => (clear s, .cleared)

def after (config : CacheConfig) (run : List Request) : ToolCacheInner :=
  final (step config) new run

def history (config : CacheConfig) (run : List Request) :
    List (Call ToolCacheInner Request Response) :=
  trace (step config) new run

end ToolCache
