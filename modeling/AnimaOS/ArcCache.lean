import AnimaOS.KeyedList
import AnimaOS.Machine
import Mathlib

/-!
# The L2 adaptive replacement cache

State and operations of `ArcCacheInner`. A deque is a list whose head is the
LRU end. Each public `ArcCache` call takes the mutex once, so a history of the
shared cache is a sequence of these operations. A `retain` closure may carry
state of its own: it is a function of the entries it was shown before.
-/

namespace ArcCache

open KeyedList

universe u v

variable {K : Type u} {V : Type v}

inductive PromotionHint where
  | recency
  | frequency
  deriving DecidableEq, Repr

structure ArcCacheInner (K : Type u) (V : Type v) where
  capacity : Nat
  p : Nat
  t1 : List (K × V)
  t2 : List (K × V)
  b1 : List K
  b2 : List K
  deriving DecidableEq, Repr

def new (capacity : Nat) : ArcCacheInner K V := ⟨max capacity 1, 0, [], [], [], []⟩

def totalLive (s : ArcCacheInner K V) : Nat := s.t1.length + s.t2.length

/-- A full ghost list drops its oldest key before it takes the new one. -/
def pushGhost (capacity : Nat) (ghosts : List K) (k : K) : List K :=
  (if ghosts.length ≥ capacity then ghosts.tail else ghosts) ++ [k]

/-- The guard under which `replace` evicts from T1. -/
def evictsT1 (s : ArcCacheInner K V) : Bool :=
  (s.t1.length ≥ max s.p 1 || s.t2.isEmpty) && !s.t1.isEmpty

def replace (s : ArcCacheInner K V) : ArcCacheInner K V :=
  if evictsT1 s then
    match s.t1 with
    | [] => s
    | (k, _) :: rest => { s with t1 := rest, b1 := pushGhost s.capacity s.b1 k }
  else
    match s.t2 with
    | [] => s
    | (k, _) :: rest => { s with t2 := rest, b2 := pushGhost s.capacity s.b2 k }

def makeRoom (s : ArcCacheInner K V) : ArcCacheInner K V :=
  if totalLive s ≥ s.capacity then replace s else s

inductive Response (V : Type v) where
  | inserted
  | found (r : Option (V × PromotionHint))
  | removed (n : Nat)
  deriving DecidableEq, Repr

inductive Op (K : Type u) (V : Type v) where
  | insert (key : K) (value : V)
  | get (key : K)
  | retain (f : List (K × V) → K × V → Bool)

def retainFrom (f : List (K × V) → K × V → Bool) (seen : List (K × V)) :
    List (K × V) → List (K × V)
  | [] => []
  | e :: rest =>
    if f seen e then e :: retainFrom f (seen ++ [e]) rest else retainFrom f (seen ++ [e]) rest

/-- The entries `retainFrom` drops, in the order the closure refuses them. -/
def rejectedFrom (f : List (K × V) → K × V → Bool) (seen : List (K × V)) :
    List (K × V) → List (K × V)
  | [] => []
  | e :: rest =>
    if f seen e then rejectedFrom f (seen ++ [e]) rest else e :: rejectedFrom f (seen ++ [e]) rest

def retain (s : ArcCacheInner K V) (f : List (K × V) → K × V → Bool) :
    ArcCacheInner K V × Nat :=
  let kept := { s with t1 := retainFrom f [] s.t1, t2 := retainFrom f s.t1 s.t2 }
  (kept, totalLive s - totalLive kept)

variable [DecidableEq K]

def get (s : ArcCacheInner K V) (key : K) : ArcCacheInner K V × Option (V × PromotionHint) :=
  match s.t1.find? (fun e => e.1 = key) with
  | some (k, v) =>
    ({ s with t1 := s.t1.eraseP (fun e => e.1 = key), t2 := s.t2 ++ [(k, v)] },
      some (v, .recency))
  | none =>
    match s.t2.find? (fun e => e.1 = key) with
    | some (k, v) =>
      ({ s with t2 := s.t2.eraseP (fun e => e.1 = key) ++ [(k, v)] }, some (v, .frequency))
    | none => (s, none)

/-- A B1 ghost hit takes the key off its list and moves the target `p` up. -/
def leaveB1 (s : ArcCacheInner K V) (key : K) : ArcCacheInner K V :=
  let b1 := s.b1.erase key
  let delta := max (s.b2.length / max b1.length 1) 1
  { s with b1 := b1, p := min (s.p + delta) s.capacity }

def leaveB2 (s : ArcCacheInner K V) (key : K) : ArcCacheInner K V :=
  let b2 := s.b2.erase key
  let delta := max (s.b1.length / max b2.length 1) 1
  { s with b2 := b2, p := s.p - delta }

def insertGhostB1 (s : ArcCacheInner K V) (key : K) (value : V) : ArcCacheInner K V :=
  let s := makeRoom (leaveB1 s key)
  { s with t2 := s.t2 ++ [(key, value)] }

def insertGhostB2 (s : ArcCacheInner K V) (key : K) (value : V) : ArcCacheInner K V :=
  let s := makeRoom (leaveB2 s key)
  { s with t2 := s.t2 ++ [(key, value)] }

/-- `capacity * 2` in `usize`: the product wraps for a capacity from 2^63 on.
No other arithmetic here can overflow on lists that fit in memory. -/
def directoryLimit (s : ArcCacheInner K V) : Nat := (s.capacity * 2) % 2 ^ 64

/-- A complete miss evicts when the cache is full, and otherwise trims the
larger ghost list when the directory is. -/
def missRoom (s : ArcCacheInner K V) : ArcCacheInner K V :=
  let totalGhost := s.b1.length + s.b2.length
  if totalLive s ≥ s.capacity then replace s
  else if totalLive s + totalGhost ≥ directoryLimit s then
    if s.b1.length > s.b2.length then { s with b1 := s.b1.tail } else { s with b2 := s.b2.tail }
  else s

def insertMiss (s : ArcCacheInner K V) (key : K) (value : V) : ArcCacheInner K V :=
  let s := missRoom s
  { s with t1 := s.t1 ++ [(key, value)] }

/-- A live hit assigns through `iter_mut().rev().find` on T2, where `get` has put the entry. -/
def insert (s : ArcCacheInner K V) (key : K) (value : V) : ArcCacheInner K V :=
  match get s key with
  | (s, some _) => { s with t2 := setLast key value s.t2 }
  | (s, none) =>
    if key ∈ s.b1 then insertGhostB1 s key value
    else if key ∈ s.b2 then insertGhostB2 s key value
    else insertMiss s key value

def step (s : ArcCacheInner K V) : Op K V → ArcCacheInner K V × Response V
  | .insert key value => (insert s key value, .inserted)
  | .get key => ((get s key).1, .found (get s key).2)
  | .retain f => ((retain s f).1, .removed (retain s f).2)

abbrev after (capacity : Nat) (ops : List (Op K V)) : ArcCacheInner K V :=
  Machine.final step (new capacity) ops

end ArcCache
