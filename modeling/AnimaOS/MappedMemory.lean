import AnimaOS.ByteReader

/-!
# Memory read through mapped spans

A computation sees memory only through the spans it maps, and they are logged in
order. What it comes to depends on the bytes of those spans alone.
-/

namespace MappedMemory

open ByteReader

abbrev Memory := Nat → UInt8

structure Span where
  start : Nat
  length : Nat
  deriving DecidableEq, Repr

def bytesAt (m : Memory) (start length : Nat) : List UInt8 :=
  (List.range length).map fun i => m (start + i)

/-- `from_le_bytes`. -/
def fromLe : List UInt8 → Nat
  | [] => 0
  | b :: rest => b.toNat + 256 * fromLe rest

/-- The number that some bytes of memory state, the least significant first. -/
def leAt (m : Memory) (start width : Nat) : Nat := fromLe (bytesAt m start width)

@[simp] theorem bytesAt_length (m : Memory) (start length : Nat) :
    (bytesAt m start length).length = length := by simp [bytesAt]

theorem index_bytesAt (m : Memory) (start : Nat) {length i : Nat} (inside : i < length) :
    index (bytesAt m start length) i = .ok (m (start + i)) := by
  simp [index, bytesAt, inside]

theorem bytesAt_part (m : Memory) (start : Nat) {length first last : Nat} (within : last ≤ length) :
    ((bytesAt m start length).drop first).take (last - first) =
      bytesAt m (start + first) (last - first) := by
  refine List.ext_getElem ?_ fun i listed listed' => ?_
  · simp only [List.length_take, List.length_drop, bytesAt_length]
    omega
  · simp [bytesAt, Nat.add_assoc]

theorem slice_bytesAt (m : Memory) (start : Nat) {length first last : Nat}
    (forward : first ≤ last) (within : last ≤ length) :
    slice (bytesAt m start length) first last =
      .ok (bytesAt m (start + first) (last - first)) := by
  rw [slice_inside forward (by simpa using within), bytesAt_part m start within]

/-! ## Computations -/

/-- The spans that are mapped, in order, and what the computation comes to. -/
def Mapped (α : Type) := Memory → List Span × Checked α

instance : Monad Mapped where
  pure a := fun _ => ([], .ok a)
  bind x f := fun m =>
    match x m with
    | (spans, .ok a) => (spans ++ (f a m).1, (f a m).2)
    | (spans, .error fault) => (spans, .error fault)

section Computing

variable {α β : Type} {x : Mapped α} {f : α → Mapped β} {m : Memory}

/-- A computation on bytes that are mapped already. -/
def onBytes (x : Checked α) : Mapped α := fun _ => ([], x)

def borrow (start length : Nat) : Mapped (List UInt8) := fun m =>
  ([⟨start, length⟩], .ok (bytesAt m start length))

theorem bind_run {spans : List Span} {a : α} (first : x m = (spans, .ok a)) :
    (x >>= f) m = (spans ++ (f a m).1, (f a m).2) := by
  change (match x m with
    | (spans, .ok a) => (spans ++ (f a m).1, (f a m).2)
    | (spans, .error fault) => (spans, .error fault)) = _
  rw [first]

theorem bind_fault {spans : List Span} {fault : Fault} (first : x m = (spans, .error fault)) :
    (x >>= f) m = (spans, .error fault) := by
  change (match x m with
    | (spans, .ok a) => (spans ++ (f a m).1, (f a m).2)
    | (spans, .error fault) => (spans, .error fault)) = _
  rw [first]

theorem onBytes_bind {y : Checked α} {a : α} (read : y = .ok a) :
    (onBytes y >>= f) m = f a m := by
  have first : onBytes y m = ([], .ok a) := congrArg (Prod.mk []) read
  rw [bind_run first]
  rfl

/-! ## Dependence on the mapped spans -/

/-- The two memories have the same bytes in the spans. -/
def Agree (spans : List Span) (m m' : Memory) : Prop :=
  ∀ span ∈ spans, ∀ addr, span.start ≤ addr → addr < span.start + span.length → m addr = m' addr

theorem Agree.append {first second : List Span} {m m' : Memory}
    (agree : Agree (first ++ second) m m') : Agree first m m' ∧ Agree second m m' :=
  ⟨fun span listed => agree span (List.mem_append_left _ listed),
    fun span listed => agree span (List.mem_append_right _ listed)⟩

/-- Nothing outside the spans it maps makes a difference to the computation. -/
def Local (x : Mapped α) : Prop := ∀ m m', Agree (x m).1 m m' → x m' = x m

theorem Local.pure (a : α) : Local (pure a : Mapped α) := fun _ _ _ => rfl

theorem Local.onBytes (y : Checked α) : Local (onBytes y) := fun _ _ _ => rfl

theorem Local.borrow (start length : Nat) : Local (borrow start length) := by
  intro m m' agree
  have same : bytesAt m' start length = bytesAt m start length := by
    refine List.map_congr_left fun i inside => ?_
    refine (agree ⟨start, length⟩ List.mem_cons_self _ (Nat.le_add_right start i) ?_).symm
    exact Nat.add_lt_add_left (List.mem_range.mp inside) start
  rw [MappedMemory.borrow, same]
  rfl

theorem Local.bind (first : Local x) (later : ∀ a, Local (f a)) : Local (x >>= f) := by
  intro m m' agree
  rcases run : x m with ⟨spans, fault | a⟩
  · rw [bind_fault run] at agree ⊢
    have again : x m' = x m := first m m' (by rw [run]; exact agree)
    rw [bind_fault (again.trans run)]
  · rw [bind_run run] at agree ⊢
    obtain ⟨before, after⟩ := agree.append
    have again : x m' = x m := first m m' (by rw [run]; exact before)
    rw [bind_run (again.trans run), later a m m' after]

end Computing

end MappedMemory
