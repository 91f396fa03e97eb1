import AnimaOS.Machine
import AnimaOS.WordArith

/-!
# The boot-time bump allocator

`alloc` is one atomic `fetch_update` of the cursor followed by a recomputation
of the address from the cursor it replaced, so concurrent callers are a
sequence of these steps in the order of their updates. Addresses and sizes are
words of any width `w`; the null pointer is zero.
-/

namespace HeapAllocator

open WordArith Machine

variable {w : Nat}

structure Layout (w : Nat) where
  size : BitVec w
  align : BitVec w
  powerOfTwo : ∃ k, align.toNat = 2 ^ k

structure BumpAllocator (w : Nat) where
  heapStart : BitVec w
  heapEnd : BitVec w
  cursor : BitVec w
  deriving DecidableEq, Repr

def new : BumpAllocator w := ⟨0, 0, 0⟩

def init (_s : BumpAllocator w) (heapStart heapSize : BitVec w) : BumpAllocator w :=
  ⟨heapStart, saturatingAdd heapStart heapSize, 0⟩

def alignUp (addr align : BitVec w) : BitVec w :=
  (addr + align - 1) &&& ~~~(align - 1)

/-- The aligned address the closure checks. -/
def closureStart (s : BumpAllocator w) (layout : Layout w) (cursor : BitVec w) :
    Option (BitVec w) := do
  let currentAddr ← checkedAdd s.heapStart cursor
  return alignUp currentAddr layout.align

/-- The `fetch_update` closure: the next cursor, or none when the request does not fit. -/
def claimRange (s : BumpAllocator w) (layout : Layout w) (cursor : BitVec w) :
    Option (BitVec w) := do
  let heapSize ← checkedSub s.heapEnd s.heapStart
  let allocStart ← closureStart s layout cursor
  let offset ← checkedSub allocStart s.heapStart
  let allocEnd ← checkedAdd offset layout.size
  if allocEnd > heapSize then none else return allocEnd

def alloc (s : BumpAllocator w) (layout : Layout w) : BumpAllocator w × BitVec w :=
  if s.heapStart = 0 then (s, 0)
  else
    match claimRange s layout s.cursor with
    | some next => ({ s with cursor := next }, alignUp (s.heapStart + s.cursor) layout.align)
    | none => (s, 0)

/-! ## Alignment -/

theorem alignUp_toNat {align : BitVec w} {k : Nat} (hk : align.toNat = 2 ^ k)
    (addr : BitVec w) :
    (alignUp addr align).toNat =
      if addr.toNat + 2 ^ k - 1 < 2 ^ w then
        (addr.toNat + 2 ^ k - 1) - (addr.toNat + 2 ^ k - 1) % 2 ^ k
      else 0 := by
  have positive : 0 < 2 ^ k := Nat.two_pow_pos k
  have small : 2 ^ k < 2 ^ w := hk ▸ align.isLt
  have one : (1#w).toNat = 1 := by
    rw [BitVec.toNat_ofNat]
    exact Nat.mod_eq_of_lt (by omega)
  have mask : (align - 1#w).toNat = 2 ^ k - 1 := by
    rw [BitVec.toNat_sub_of_le (BitVec.le_def.mpr (by omega)), hk, one]
  have sum : (addr + align - 1#w).toNat = (addr.toNat + 2 ^ k - 1) % 2 ^ w := by
    simp only [BitVec.toNat_sub, BitVec.toNat_add, one, hk, Nat.add_mod_mod]
    have shift : 2 ^ w - 1 + (addr.toNat + 2 ^ k) = addr.toNat + 2 ^ k - 1 + 2 ^ w := by omega
    simp only [shift, Nat.add_mod_right]
  have rounded := toNat_and_not_mask mask (addr + align - 1#w)
  have bound := addr.isLt
  rw [show alignUp addr align = (addr + align - 1#w) &&& ~~~(align - 1#w) from rfl, rounded, sum]
  by_cases fits : addr.toNat + 2 ^ k - 1 < 2 ^ w
  · simp only [if_pos fits, Nat.mod_eq_of_lt fits]
  · have wrapped : (addr.toNat + 2 ^ k - 1) % 2 ^ w = addr.toNat + 2 ^ k - 1 - 2 ^ w := by
      rw [Nat.mod_eq_sub_mod (by omega), Nat.mod_eq_of_lt (by omega)]
    have below : addr.toNat + 2 ^ k - 1 - 2 ^ w < 2 ^ k := by omega
    simp only [if_neg fits, wrapped, Nat.mod_eq_of_lt below, Nat.sub_self]

/-- Away from zero the mask formula is the least multiple at or above the address. -/
theorem alignUp_spec {align addr : BitVec w} {k : Nat} (hk : align.toNat = 2 ^ k)
    (nonzero : (alignUp addr align).toNat ≠ 0) :
    (alignUp addr align).toNat % 2 ^ k = 0 ∧ addr.toNat ≤ (alignUp addr align).toNat ∧
      (alignUp addr align).toNat < addr.toNat + 2 ^ k := by
  have positive : 0 < 2 ^ k := Nat.two_pow_pos k
  have h := alignUp_toNat hk addr
  by_cases fits : addr.toNat + 2 ^ k - 1 < 2 ^ w
  · rw [if_pos fits] at h
    have rest := Nat.mod_lt (addr.toNat + 2 ^ k - 1) positive
    refine ⟨?_, by omega, by omega⟩
    rw [h]
    exact Nat.sub_mod_eq_zero_of_mod_eq (Nat.mod_mod _ _).symm
  · rw [if_neg fits] at h
    exact absurd h nonzero

/-! ## One allocation -/

/-- The allocator owns `[h, h + n)` and its cursor has not left the region. -/
structure Owns (h n : BitVec w) (s : BumpAllocator w) : Prop where
  start : s.heapStart = h
  finish : s.heapEnd.toNat = h.toNat + n.toNat
  inside : s.cursor.toNat ≤ n.toNat

theorem init_owns {h n : BitVec w} (fits : h.toNat + n.toNat < 2 ^ w) (s : BumpAllocator w) :
    Owns h n (init s h n) where
  start := rfl
  finish := by
    simp only [init, saturatingAdd_of_fits fits]
    exact toNat_add_of_fits fits
  inside := by simp [init]

/-- What a non-null answer to a request stands for. -/
structure Granted (h n : BitVec w) (s : BumpAllocator w) (layout : Layout w) (p : BitVec w) :
    Prop where
  aligned : p.toNat % layout.align.toNat = 0
  above : h.toNat + s.cursor.toNat ≤ p.toNat
  inside : p.toNat + layout.size.toNat ≤ h.toNat + n.toNat
  checked : closureStart s layout s.cursor = some p
  next : ((alloc s layout).1).cursor.toNat = p.toNat - h.toNat + layout.size.toNat

theorem alloc_cases {h n : BitVec w} (positive : 0 < h.toNat) {s : BumpAllocator w}
    (owns : Owns h n s) (layout : Layout w) :
    Granted h n s layout (alloc s layout).2 ∨ alloc s layout = (s, 0) := by
  have started : s.heapStart ≠ 0 := by
    intro zero
    rw [← owns.start, zero] at positive
    simp at positive
  cases hc : claimRange s layout s.cursor with
  | none => exact Or.inr (by simp only [alloc, if_neg started, hc])
  | some next =>
    left
    have result : alloc s layout =
        ({ s with cursor := next }, alignUp (s.heapStart + s.cursor) layout.align) := by
      simp only [alloc, if_neg started, hc]
    simp only [claimRange, Option.bind_eq_bind, Option.bind_eq_some_iff] at hc
    obtain ⟨heapSize, hsize, start, hstart, offset, hoffset, allocEnd, hend, hnext⟩ := hc
    have checked := hstart
    simp only [closureStart, Option.bind_eq_bind, Option.bind_eq_some_iff, Option.pure_def,
      Option.some.injEq] at hstart
    obtain ⟨current, hcurrent, rfl⟩ := hstart
    obtain ⟨rfl, current_toNat⟩ := checkedAdd_eq_some hcurrent
    obtain ⟨_, size_toNat⟩ := checkedSub_eq_some hsize
    obtain ⟨reached, offset_toNat⟩ := checkedSub_eq_some hoffset
    obtain ⟨_, end_toNat⟩ := checkedAdd_eq_some hend
    split at hnext
    · cases hnext
    rename_i fits
    obtain rfl := Option.some.inj hnext
    have hs := owns.start
    have hf := owns.finish
    have inHeap : allocEnd.toNat ≤ heapSize.toNat := Nat.not_lt.mp fits
    obtain ⟨k, hk⟩ := layout.powerOfTwo
    have nonzero : (alignUp (s.heapStart + s.cursor) layout.align).toNat ≠ 0 := by
      rw [hs] at reached ⊢
      omega
    obtain ⟨aligned, above, _⟩ := alignUp_spec hk nonzero
    constructor
    · simp only [result, hk]
      exact aligned
    · rw [result]
      rw [hs] at above current_toNat ⊢
      dsimp only
      omega
    · rw [result]
      rw [hs] at reached offset_toNat size_toNat ⊢
      dsimp only
      omega
    · rw [result]
      exact checked
    · rw [result]
      rw [hs] at offset_toNat ⊢
      dsimp only
      omega

theorem alloc_owns {h n : BitVec w} (positive : 0 < h.toNat) {s : BumpAllocator w}
    (owns : Owns h n s) (layout : Layout w) : Owns h n (alloc s layout).1 := by
  have frame : (alloc s layout).1.heapStart = s.heapStart ∧
      (alloc s layout).1.heapEnd = s.heapEnd := by
    simp only [alloc]
    split
    · exact ⟨rfl, rfl⟩
    · split <;> exact ⟨rfl, rfl⟩
  refine ⟨frame.1.trans owns.start, frame.2 ▸ owns.finish, ?_⟩
  rcases alloc_cases positive owns layout with granted | null
  · have := granted.next
    have := granted.above
    have := granted.inside
    omega
  · rw [null]
    exact owns.inside

/-! ## Runs -/

/-- The bytes a call was granted. -/
def bytes (c : Call (BumpAllocator w) (Layout w) (BitVec w)) : Set Nat :=
  Set.Ico c.response.toNat (c.response.toNat + c.request.size.toNat)

/-- Later grants start at or after the bytes already behind the cursor. -/
theorem trace_above {h n : BitVec w} (positive : 0 < h.toNat) {s : BumpAllocator w}
    (owns : Owns h n s) (layouts : List (Layout w)) :
    ∀ c ∈ trace alloc s layouts, c.response ≠ 0 →
      h.toNat + s.cursor.toNat ≤ c.response.toNat := by
  induction layouts generalizing s with
  | nil => simp [trace]
  | cons layout rest ih =>
    intro c hc nonnull
    rcases List.mem_cons.mp hc with rfl | hc
    · rcases alloc_cases positive owns layout with granted | null
      · exact granted.above
      · exact absurd (congrArg Prod.snd null) nonnull
    · have later := ih (alloc_owns positive owns layout) c hc nonnull
      rcases alloc_cases positive owns layout with granted | null
      · have := granted.next
        have := granted.above
        omega
      · rw [null] at later
        exact later

theorem trace_disjoint {h n : BitVec w} (positive : 0 < h.toNat) {s : BumpAllocator w}
    (owns : Owns h n s) (layouts : List (Layout w)) :
    (trace alloc s layouts).Pairwise fun c d =>
      c.response ≠ 0 → d.response ≠ 0 → Disjoint (bytes c) (bytes d) := by
  induction layouts generalizing s with
  | nil => exact List.Pairwise.nil
  | cons layout rest ih =>
    have owns' := alloc_owns positive owns layout
    refine List.Pairwise.cons ?_ (ih owns')
    intro d hd first second
    have later := trace_above positive owns' rest d hd second
    rcases alloc_cases positive owns layout with granted | null
    · have := granted.next
      have := granted.above
      refine Set.disjoint_left.mpr fun a ha hb => ?_
      have := ha.2
      have := hb.1
      dsimp only at *
      omega
    · exact absurd (congrArg Prod.snd null) first

/-- Safety of a run on a region `[h, h + n)` that ends below the top of the address space. -/
theorem bump_allocator_safe (h n : BitVec w) (positive : 0 < h.toNat)
    (fits : h.toNat + n.toNat ≤ 2 ^ w - 1) (layouts : List (Layout w)) :
    (∀ c ∈ trace alloc (init new h n) layouts,
      (c.response ≠ 0 →
        c.response.toNat % c.request.align.toNat = 0 ∧ h.toNat ≤ c.response.toNat ∧
        c.response.toNat + c.request.size.toNat ≤ h.toNat + n.toNat ∧
        closureStart c.before c.request c.before.cursor = some c.response) ∧
      (c.response = 0 → (alloc c.before c.request).1.cursor = c.before.cursor)) ∧
    (trace alloc (init new h n) layouts).Pairwise fun c d =>
      c.response ≠ 0 → d.response ≠ 0 → Disjoint (bytes c) (bytes d) := by
  have room : 0 < 2 ^ w := Nat.two_pow_pos w
  have owned := init_owns (show h.toNat + n.toNat < 2 ^ w by omega) (new : BumpAllocator w)
  refine ⟨?_, trace_disjoint positive owned layouts⟩
  intro c hc
  obtain ⟨pre, post, _, before, answer⟩ := mem_trace hc
  have keeps : ∀ (s : BumpAllocator w) (layout : Layout w),
      Owns h n s → Owns h n (alloc s layout).1 :=
    fun _ layout owns => alloc_owns positive owns layout
  have owns : Owns h n c.before := before ▸ final_invariant keeps owned pre
  rcases alloc_cases positive owns c.request with granted | null
  · rw [← answer] at granted
    refine ⟨fun _ => ⟨granted.aligned, ?_, granted.inside, granted.checked⟩, ?_⟩
    · have := granted.above
      omega
    · intro isNull
      have := granted.above
      rw [isNull] at this
      simp at this
      omega
  · refine ⟨fun nonnull => absurd (answer.trans (congrArg Prod.snd null)) nonnull, fun _ => ?_⟩
    rw [null]

theorem bump_allocator_safe_sixteen :
    let h : BitVec 8 := 16
    let n : BitVec 8 := 64
    let layouts : List (Layout 8) := [⟨3, 1, 0, rfl⟩, ⟨200, 8, 3, rfl⟩, ⟨16, 8, 3, rfl⟩]
    (0 < h.toNat ∧ h.toNat + n.toNat ≤ 2 ^ 8 - 1 ∧
      (trace alloc (init new h n) layouts).map Call.response = [16, 0, 24]) ∧
    (trace alloc (init new h n) layouts).Pairwise fun c d =>
      c.response ≠ 0 → d.response ≠ 0 → Disjoint (bytes c) (bytes d) :=
  ⟨by decide, (bump_allocator_safe 16 64 (by decide) (by decide) _).2⟩

end HeapAllocator
