import AnimaOS.AcpiTables

/-!
# Discovery of the ECAM bases

The walk from the root pointer over the root table to the MCFG table, with every
span of physical memory it maps. Which spans these are and what is found in them
is read off the memory itself.
-/

namespace AcpiDiscovery

open ByteReader MappedMemory

/-! ## The walk -/

/-- A span that reaches the end of the address space is refused with those that wrap. -/
def mapBytes (phys len : Nat) : Mapped (Option (List UInt8)) :=
  if phys = 0 ∨ len = 0 then pure none
  else if phys + len ≥ 2 ^ 64 then pure none
  else do
    let bytes ← borrow phys len
    pure (some bytes)

def readSdt (phys : Nat) : Mapped (Option (List UInt8)) := do
  match ← mapBytes phys SDT_HEADER_LEN with
  | none => pure none
  | some header =>
    match sdtLength header with
    | none => pure none
    | some len =>
      if SDT_HEADER_LEN ≤ len ∧ len ≤ MAX_TABLE_LEN then mapBytes phys len else pure none

/-- The bases and what was written to the serial line. -/
structure Discovery where
  bases : List Nat
  messages : List String
  deriving DecidableEq, Repr

def nothing (messages : List String) : Discovery := ⟨[], messages⟩

def discovered (bases : List Nat) : Discovery :=
  ⟨bases, ["[E6.5] ACPI MCFG: " ++ toString bases.length ++ " ECAM base(s) discovered\n"]⟩

def noMcfg : Discovery :=
  nothing ["[E6.5] ACPI tables present but no MCFG — using ECAM candidate list\n"]

def entrySize (isXsdt : Bool) : Nat := if isXsdt then 8 else 4

/-- The pointer in an entry of the root table. -/
def tablePhys (isXsdt : Bool) (rootSdt : List UInt8) (i : Nat) : Checked Nat := do
  let off := SDT_HEADER_LEN + i * entrySize isXsdt
  if isXsdt then
    let bytes ← slice rootSdt off (off + 8)
    .ok (fromLe bytes)
  else
    let bytes ← slice rootSdt off (off + 4)
    .ok (fromLe bytes)

/-- The loop over the entries of the root table that are left. -/
def scanEntries (isXsdt : Bool) (rootSdt : List UInt8) : List Nat → Mapped Discovery
  | [] => pure noMcfg
  | i :: rest => do
    let phys ← onBytes (tablePhys isXsdt rootSdt i)
    match ← readSdt phys with
    | none => scanEntries isXsdt rootSdt rest
    | some table =>
      if sdtSignature table = some MCFG_SIG then do
        let bases ← onBytes (parseMcfgBases table)
        pure (discovered bases)
      else scanEntries isXsdt rootSdt rest

def walkRoot (root : RootTable) : Mapped Discovery := do
  match ← readSdt root.addr with
  | none => pure (nothing [])
  | some rootSdt =>
    let entriesBytes := rootSdt.length - SDT_HEADER_LEN
    let count := min (entriesBytes / entrySize root.isXsdt) MAX_ROOT_ENTRIES
    scanEntries root.isXsdt rootSdt (List.range count)

/-- The pointer structure is mapped again at the length of its revision. -/
def walkRsdp (rsdpPhys len : Nat) : Mapped Discovery := do
  match ← mapBytes rsdpPhys len with
  | none => pure (nothing [])
  | some rsdp =>
    match ← onBytes (parseRsdp rsdp) with
    | none =>
      pure (nothing ["[E6.5] ACPI RSDP present but unparseable — MCFG scan skipped\n"])
    | some root => walkRoot root

def invalidSignature : Discovery :=
  nothing ["[E6.5] ACPI RSDP signature invalid — MCFG scan skipped\n"]

/-- The argument is the address that the UEFI configuration table has for the pointer structure. -/
def mcfgEcamBases (rsdpPhys : Option Nat) : Mapped Discovery :=
  match rsdpPhys with
  | none =>
    pure (nothing ["[E6.5] no ACPI RSDP in the UEFI config table — MCFG scan skipped\n"])
  | some rsdpPhys => do
    match ← mapBytes rsdpPhys 20 with
    | none => pure (nothing [])
    | some head =>
      if head.length < 20 then pure invalidSignature
      else do
        let signature ← onBytes (slice head 0 8)
        if signature ≠ RSDP_SIG then pure invalidSignature
        else do
          let revision ← onBytes (index head 15)
          walkRsdp rsdpPhys (if revision ≥ 2 then 36 else 20)

/-! ## What may be mapped -/

/-- Not null, and ending before the end of the address space. -/
def Fits (phys len : Nat) : Prop := phys ≠ 0 ∧ phys + len < 2 ^ 64

instance (phys len : Nat) : Decidable (Fits phys len) := inferInstanceAs (Decidable (_ ∧ _))

section Reading

variable (m : Memory)

/-- The header can be mapped and declares a plausible length that can be mapped as well. -/
structure Readable (table : Nat) : Prop where
  header : Fits table SDT_HEADER_LEN
  long : SDT_HEADER_LEN ≤ declaredLength m table
  short : declaredLength m table ≤ MAX_TABLE_LEN
  whole : Fits table (declaredLength m table)

theorem readable_iff (table : Nat) : Readable m table ↔
    Fits table SDT_HEADER_LEN ∧ SDT_HEADER_LEN ≤ declaredLength m table ∧
      declaredLength m table ≤ MAX_TABLE_LEN ∧ Fits table (declaredLength m table) :=
  ⟨fun r => ⟨r.header, r.long, r.short, r.whole⟩, fun ⟨h, l, s, w⟩ => ⟨h, l, s, w⟩⟩

instance (table : Nat) : Decidable (Readable m table) := decidable_of_iff' _ (readable_iff m table)

def isMcfg (table : Nat) : Bool := decide (Readable m table) && signature m table = MCFG_SIG

/-- What following one pointer maps. -/
def tableSpans (table : Nat) : List Span :=
  if Fits table SDT_HEADER_LEN then
    ⟨table, SDT_HEADER_LEN⟩ ::
      (if Readable m table then [⟨table, declaredLength m table⟩] else [])
  else []

def entryCount (root : RootTable) : Nat :=
  min ((declaredLength m root.addr - SDT_HEADER_LEN) / entrySize root.isXsdt) MAX_ROOT_ENTRIES

def entryAt (root : RootTable) (i : Nat) : Nat :=
  leAt m (root.addr + (SDT_HEADER_LEN + i * entrySize root.isXsdt)) (entrySize root.isXsdt)

def rootEntries (root : RootTable) : List Nat :=
  (List.range (entryCount m root)).map (entryAt m root)

/-- A list up to the first item that meets the test, with that item. -/
def upTo (p : Nat → Bool) : List Nat → List Nat
  | [] => []
  | a :: rest => if p a then [a] else a :: upTo p rest

/-- The entries that the scan comes to. -/
def followed (root : RootTable) : List Nat :=
  if Readable m root.addr then upTo (isMcfg m) (rootEntries m root) else []

/-- The root table that is walked, if the pointer structure can be mapped and is signed. -/
def namedRoot (rsdp : Nat) : Option RootTable :=
  if Fits rsdp 20 ∧ bytesAt m rsdp 8 = RSDP_SIG ∧ Fits rsdp (rsdpLen m rsdp) then rootTable m rsdp
  else none

/-- The bases of the first entry with a readable MCFG table. -/
def declaredBases (rsdp : Nat) : List Nat :=
  match namedRoot m rsdp with
  | none => []
  | some root =>
    if Readable m root.addr then
      match (rootEntries m root).find? (isMcfg m) with
      | none => []
      | some table => tableBases m table
    else []

/-- A table that the walk follows a pointer to. -/
def Named (rsdp table : Nat) : Prop :=
  ∃ root, namedRoot m rsdp = some root ∧ (table = root.addr ∨ table ∈ followed m root)

/-- What firmware declared: the pointer structure at the length of its revision, the headers of
the tables that are named, and these tables where their length is plausible. -/
inductive Declared (rsdp : Nat) : Span → Prop where
  | pointer : Declared rsdp ⟨rsdp, 20⟩
  | extended (second : revision m rsdp ≥ 2) : Declared rsdp ⟨rsdp, 36⟩
  | header {table : Nat} (named : Named m rsdp table) : Declared rsdp ⟨table, 36⟩
  | table {table : Nat} (named : Named m rsdp table) (long : 36 ≤ declaredLength m table)
      (short : declaredLength m table ≤ 65536) :
      Declared rsdp ⟨table, declaredLength m table⟩

end Reading

/-! ## One step of the walk -/

section Steps

variable {m : Memory}

theorem mapBytes_run {phys len : Nat} (positive : 0 < len) :
    mapBytes phys len m =
      if Fits phys len then ([⟨phys, len⟩], .ok (some (bytesAt m phys len)))
      else ([], .ok none) := by
  rw [mapBytes]
  by_cases null : phys = 0
  · rw [if_pos (Or.inl null), if_neg (fun fits : Fits phys len => fits.1 null)]
    rfl
  · have valid : ¬(phys = 0 ∨ len = 0) := by omega
    rw [if_neg valid]
    by_cases far : phys + len ≥ 2 ^ 64
    · rw [if_pos far, if_neg (fun fits : Fits phys len => Nat.not_lt.mpr far fits.2)]
      rfl
    · rw [if_neg far, if_pos ⟨null, Nat.lt_of_not_le far⟩]
      rfl

theorem mapBytes_bind {α : Type} {phys len : Nat} (positive : 0 < len)
    (f : Option (List UInt8) → Mapped α) :
    (mapBytes phys len >>= f) m =
      if Fits phys len then
        (⟨phys, len⟩ :: (f (some (bytesAt m phys len)) m).1,
          (f (some (bytesAt m phys len)) m).2)
      else f none m := by
  have run := @mapBytes_run m phys len positive
  by_cases fits : Fits phys len
  · rw [if_pos fits] at run ⊢
    exact bind_run run
  · rw [if_neg fits] at run ⊢
    exact bind_run run

theorem readSdt_run (table : Nat) :
    readSdt table m = (tableSpans m table, .ok (if Readable m table then
      some (bytesAt m table (declaredLength m table)) else none)) := by
  rw [readSdt, mapBytes_bind (by decide), tableSpans]
  by_cases header : Fits table SDT_HEADER_LEN
  · have length : sdtLength (bytesAt m table SDT_HEADER_LEN) = some (declaredLength m table) :=
      sdtLength_eq (by decide)
    rw [if_pos header, if_pos header]
    dsimp only
    rw [length]
    dsimp only
    by_cases sized : SDT_HEADER_LEN ≤ declaredLength m table ∧
        declaredLength m table ≤ MAX_TABLE_LEN
    · have positive : 0 < declaredLength m table := Nat.lt_of_lt_of_le (by decide) sized.1
      rw [if_pos sized, mapBytes_run positive]
      by_cases whole : Fits table (declaredLength m table)
      · have readable : Readable m table := ⟨header, sized.1, sized.2, whole⟩
        simp only [if_pos whole, if_pos readable]
      · have unreadable : ¬Readable m table := fun readable => whole readable.whole
        simp only [if_neg whole, if_neg unreadable]
    · have unreadable : ¬Readable m table := fun readable =>
        sized ⟨readable.long, readable.short⟩
      rw [if_neg sized, if_neg unreadable]
      simp only [if_neg unreadable]
      rfl
  · have unreadable : ¬Readable m table := fun readable => header readable.header
    rw [if_neg header, if_neg header, if_neg unreadable]
    rfl

theorem readSdt_bind {α : Type} (table : Nat) (f : Option (List UInt8) → Mapped α) :
    (readSdt table >>= f) m =
      if Readable m table then
        (tableSpans m table ++ (f (some (bytesAt m table (declaredLength m table))) m).1,
          (f (some (bytesAt m table (declaredLength m table))) m).2)
      else (tableSpans m table ++ (f none m).1, (f none m).2) := by
  have run := @readSdt_run m table
  by_cases readable : Readable m table
  · rw [if_pos readable] at run ⊢
    exact bind_run run
  · rw [if_neg readable] at run ⊢
    exact bind_run run

theorem tablePhys_eq {root : RootTable} {length i : Nat}
    (inside : SDT_HEADER_LEN + i * entrySize root.isXsdt + entrySize root.isXsdt ≤ length) :
    tablePhys root.isXsdt (bytesAt m root.addr length) i = .ok (entryAt m root i) := by
  rw [tablePhys, entryAt]
  cases wide : root.isXsdt with
  | true =>
    rw [wide, entrySize, if_pos rfl] at inside
    rw [entrySize, if_pos rfl, if_pos rfl, slice_bytesAt m root.addr (Nat.le_add_right _ 8) inside,
      Nat.add_sub_cancel_left]
    rfl
  | false =>
    rw [wide, entrySize, if_neg Bool.false_ne_true] at inside
    rw [entrySize, if_neg Bool.false_ne_true, if_neg Bool.false_ne_true,
      slice_bytesAt m root.addr (Nat.le_add_right _ 4) inside, Nat.add_sub_cancel_left]
    rfl

/-- What the scan comes to over some entries. -/
def found (m : Memory) (entries : List Nat) : Discovery :=
  match entries.find? (isMcfg m) with
  | none => noMcfg
  | some table => discovered (tableBases m table)

theorem found_hit {table : Nat} (mcfg : isMcfg m table = true) (rest : List Nat) :
    found m (table :: rest) = discovered (tableBases m table) := by
  rw [found, List.find?_cons_of_pos mcfg]

theorem found_miss {table : Nat} (other : ¬isMcfg m table = true) (rest : List Nat) :
    found m (table :: rest) = found m rest := by
  rw [found, List.find?_cons_of_neg other, found]

/-- The scan follows its entries up to the first MCFG table. -/
theorem scanEntries_run {root : RootTable} {length : Nat} {indices : List Nat}
    (inside : ∀ i ∈ indices,
      SDT_HEADER_LEN + i * entrySize root.isXsdt + entrySize root.isXsdt ≤ length) :
    scanEntries root.isXsdt (bytesAt m root.addr length) indices m =
      ((upTo (isMcfg m) (indices.map (entryAt m root))).flatMap (tableSpans m),
        .ok (found m (indices.map (entryAt m root)))) := by
  induction indices with
  | nil => rfl
  | cons i rest ih =>
    have later := ih fun j listed => inside j (List.mem_cons_of_mem _ listed)
    have read : tablePhys root.isXsdt (bytesAt m root.addr length) i = .ok (entryAt m root i) :=
      tablePhys_eq (inside i List.mem_cons_self)
    rw [scanEntries, onBytes_bind read, readSdt_bind, List.map_cons, upTo]
    generalize entryAt m root i = table
    by_cases readable : Readable m table
    · have long : 4 ≤ declaredLength m table :=
        Nat.le_trans (by decide : 4 ≤ SDT_HEADER_LEN) readable.long
      rw [if_pos readable]
      dsimp only
      rw [sdtSignature_eq long]
      by_cases mcfg : signature m table = MCFG_SIG
      · have hit : isMcfg m table = true := by simp [isMcfg, readable, mcfg]
        rw [if_pos (congrArg some mcfg), onBytes_bind (parseMcfgBases_eq readable.long mcfg),
          found_hit hit, if_pos hit]
        simp [pure]
      · have miss : ¬isMcfg m table = true := by simp [isMcfg, mcfg]
        rw [if_neg (fun same => mcfg (Option.some.inj same)), later, found_miss miss, if_neg miss]
        rfl
    · have miss : ¬isMcfg m table = true := by simp [isMcfg, readable]
      rw [if_neg readable, found_miss miss, if_neg miss]
      dsimp only
      rw [later]
      rfl

theorem entryCount_inside (root : RootTable) {i : Nat} (counted : i < entryCount m root) :
    SDT_HEADER_LEN + i * entrySize root.isXsdt + entrySize root.isXsdt ≤
      declaredLength m root.addr := by
  have within : i < (declaredLength m root.addr - SDT_HEADER_LEN) / entrySize root.isXsdt :=
    Nat.lt_of_lt_of_le counted (Nat.min_le_left _ _)
  have whole := Nat.mul_le_of_le_div _ _ _ (Nat.succ_le_of_lt within)
  rw [Nat.succ_mul] at whole
  have positive : 0 < entrySize root.isXsdt := by
    rw [entrySize]
    split <;> decide
  omega

theorem walkRoot_run (root : RootTable) :
    walkRoot root m =
      (tableSpans m root.addr ++ (followed m root).flatMap (tableSpans m),
        .ok (if Readable m root.addr then found m (rootEntries m root) else nothing [])) := by
  rw [walkRoot, readSdt_bind, followed]
  by_cases readable : Readable m root.addr
  · rw [if_pos readable, if_pos readable, if_pos readable]
    dsimp only
    rw [bytesAt_length, ← entryCount,
      scanEntries_run fun i listed => entryCount_inside root (List.mem_range.mp listed)]
    rfl
  · rw [if_neg readable, if_neg readable, if_neg readable]
    rfl

end Steps

/-! ## The whole walk -/

section Discoveries

variable {m : Memory} {rsdp : Nat}

/-- What is mapped behind the pointer structure. -/
def rootSpans (m : Memory) (rsdp : Nat) : List Span :=
  match namedRoot m rsdp with
  | none => []
  | some root => tableSpans m root.addr ++ (followed m root).flatMap (tableSpans m)

theorem walkRsdp_run (fits : Fits rsdp 20) (signed : bytesAt m rsdp 8 = RSDP_SIG) :
    ∃ front messages, walkRsdp rsdp (rsdpLen m rsdp) m =
        (front ++ rootSpans m rsdp, .ok ⟨declaredBases m rsdp, messages⟩) ∧
      ∀ span ∈ front, span = ⟨rsdp, rsdpLen m rsdp⟩ := by
  have positive : 0 < rsdpLen m rsdp := by
    rw [rsdpLen]
    split <;> decide
  rw [walkRsdp, mapBytes_bind positive]
  by_cases whole : Fits rsdp (rsdpLen m rsdp)
  · have named : namedRoot m rsdp = rootTable m rsdp := if_pos ⟨fits, signed, whole⟩
    rw [if_pos whole]
    dsimp only
    rw [onBytes_bind (parseRsdp_eq signed), rootSpans, declaredBases, named]
    cases rootTable m rsdp with
    | none => exact ⟨[_], _, rfl, by simp⟩
    | some root =>
      dsimp only
      rw [walkRoot_run]
      by_cases readable : Readable m root.addr
      · rw [if_pos readable, if_pos readable, found]
        cases (rootEntries m root).find? (isMcfg m) with
        | none => exact ⟨[_], _, rfl, by simp⟩
        | some table => exact ⟨[_], _, rfl, by simp⟩
      · rw [if_neg readable, if_neg readable]
        exact ⟨[_], _, rfl, by simp⟩
  · have unnamed : namedRoot m rsdp = none := if_neg fun all => whole all.2.2
    rw [if_neg whole, rootSpans, declaredBases, unnamed]
    exact ⟨[], _, rfl, by simp⟩

theorem mcfgEcamBases_run (m : Memory) (rsdp : Nat) :
    ∃ front messages, mcfgEcamBases (some rsdp) m =
        (front ++ rootSpans m rsdp, .ok ⟨declaredBases m rsdp, messages⟩) ∧
      ∀ span ∈ front, span = ⟨rsdp, 20⟩ ∨ span = ⟨rsdp, rsdpLen m rsdp⟩ := by
  rw [mcfgEcamBases, mapBytes_bind (by decide)]
  by_cases fits : Fits rsdp 20
  · have short : ¬(bytesAt m rsdp 20).length < 20 := by simp
    have read : slice (bytesAt m rsdp 20) 0 8 = .ok (bytesAt m rsdp 8) :=
      slice_bytesAt m rsdp (Nat.zero_le 8) (by decide)
    rw [if_pos fits]
    dsimp only
    rw [if_neg short, onBytes_bind read]
    by_cases signed : bytesAt m rsdp 8 = RSDP_SIG
    · have stated : index (bytesAt m rsdp 20) 15 = .ok (revision m rsdp) :=
        index_bytesAt m rsdp (by decide)
      obtain ⟨front, messages, run, spans⟩ := walkRsdp_run fits signed
      rw [if_neg (not_not.mpr signed), onBytes_bind stated, ← rsdpLen, run]
      refine ⟨⟨rsdp, 20⟩ :: front, messages, rfl, fun span listed => ?_⟩
      exact (List.mem_cons.mp listed).imp_right (spans span)
    · have unnamed : namedRoot m rsdp = none := if_neg fun all => signed all.2.1
      rw [if_pos signed, rootSpans, declaredBases, unnamed]
      exact ⟨[_], _, rfl, by simp⟩
  · have unnamed : namedRoot m rsdp = none := if_neg fun all => fits all.1
    rw [if_neg fits, rootSpans, declaredBases, unnamed]
    exact ⟨[], _, rfl, by simp⟩

theorem mem_tableSpans {table : Nat} {span : Span} (mapped : span ∈ tableSpans m table) :
    span = ⟨table, 36⟩ ∨ (Readable m table ∧ span = ⟨table, declaredLength m table⟩) := by
  rw [tableSpans] at mapped
  split at mapped
  · rcases List.mem_cons.mp mapped with rfl | whole
    · exact Or.inl rfl
    · split at whole
      · rename_i readable
        exact Or.inr ⟨readable, List.mem_singleton.mp whole⟩
      · cases whole
  · cases mapped

theorem Named.declared {table : Nat} (named : Named m rsdp table) {span : Span}
    (mapped : span ∈ tableSpans m table) : Declared m rsdp span := by
  rcases mem_tableSpans mapped with rfl | ⟨readable, rfl⟩
  · exact .header named
  · exact .table named readable.long readable.short

theorem rootSpans_declared {span : Span} (mapped : span ∈ rootSpans m rsdp) :
    Declared m rsdp span := by
  rw [rootSpans] at mapped
  split at mapped
  · cases mapped
  · rename_i root named
    rcases List.mem_append.mp mapped with own | child
    · exact Named.declared ⟨root, named, Or.inl rfl⟩ own
    · obtain ⟨table, listed, own⟩ := List.mem_flatMap.mp child
      exact Named.declared ⟨root, named, Or.inr listed⟩ own

theorem upTo_length (p : Nat → Bool) (l : List Nat) : (upTo p l).length ≤ l.length := by
  induction l with
  | nil => exact Nat.le_refl 0
  | cons a rest ih =>
    rw [upTo]
    split
    · exact Nat.succ_le_succ (Nat.zero_le _)
    · exact Nat.succ_le_succ ih

theorem followed_length (m : Memory) (root : RootTable) :
    (followed m root).length ≤ MAX_ROOT_ENTRIES := by
  rw [followed]
  split
  · have entries : (rootEntries m root).length ≤ MAX_ROOT_ENTRIES := by
      rw [rootEntries, List.length_map, List.length_range]
      exact Nat.min_le_right _ _
    exact Nat.le_trans (upTo_length _ _) entries
  · exact Nat.zero_le _

theorem front_declared {span : Span} (mapped : span = ⟨rsdp, 20⟩ ∨ span = ⟨rsdp, rsdpLen m rsdp⟩) :
    Declared m rsdp span := by
  rcases mapped with rfl | rfl
  · exact .pointer
  · rw [rsdpLen]
    split
    · rename_i second
      exact .extended second
    · exact .pointer

end Discoveries

/-! ## Dependence on what is mapped -/

theorem mapBytes_local (phys len : Nat) : Local (mapBytes phys len) := by
  rw [mapBytes]
  split
  · exact .pure none
  · split
    · exact .pure none
    · exact .bind (.borrow phys len) fun bytes => .pure (some bytes)

theorem readSdt_local (table : Nat) : Local (readSdt table) := by
  refine .bind (mapBytes_local table SDT_HEADER_LEN) fun header => ?_
  cases header with
  | none => exact .pure none
  | some header =>
    dsimp only
    split
    · exact .pure none
    · split
      · exact mapBytes_local table _
      · exact .pure none

theorem scanEntries_local (isXsdt : Bool) (rootSdt : List UInt8) (indices : List Nat) :
    Local (scanEntries isXsdt rootSdt indices) := by
  induction indices with
  | nil => exact .pure noMcfg
  | cons i rest later =>
    refine .bind (.onBytes _) fun phys => .bind (readSdt_local phys) fun table => ?_
    cases table with
    | none => exact later
    | some table =>
      dsimp only
      split
      · exact .bind (.onBytes _) fun bases => .pure (discovered bases)
      · exact later

theorem walkRoot_local (root : RootTable) : Local (walkRoot root) := by
  refine .bind (readSdt_local root.addr) fun rootSdt => ?_
  cases rootSdt with
  | none => exact .pure _
  | some rootSdt => exact scanEntries_local root.isXsdt rootSdt _

theorem walkRsdp_local (rsdpPhys len : Nat) : Local (walkRsdp rsdpPhys len) := by
  refine .bind (mapBytes_local rsdpPhys len) fun rsdp => ?_
  cases rsdp with
  | none => exact .pure _
  | some rsdp =>
    refine .bind (.onBytes _) fun root => ?_
    cases root with
    | none => exact .pure _
    | some root => exact walkRoot_local root

theorem mcfgEcamBases_local (rsdpPhys : Option Nat) : Local (mcfgEcamBases rsdpPhys) := by
  cases rsdpPhys with
  | none => exact .pure _
  | some rsdpPhys =>
    refine .bind (mapBytes_local rsdpPhys 20) fun head => ?_
    cases head with
    | none => exact .pure _
    | some head =>
      dsimp only
      split
      · exact .pure _
      · refine .bind (.onBytes _) fun signature => ?_
        split
        · exact .pure _
        · exact .bind (.onBytes _) fun revision => walkRsdp_local rsdpPhys _

/-- The walk maps what is declared and nothing else makes a difference to it, follows at most
`MAX_ROOT_ENTRIES` entries of the root table, and finds the bases that are declared. -/
theorem discovery_within_declared (m : Memory) (rsdp : Nat) :
    (∃ messages, (mcfgEcamBases (some rsdp) m).2 = .ok ⟨declaredBases m rsdp, messages⟩) ∧
    (∀ span ∈ (mcfgEcamBases (some rsdp) m).1, Declared m rsdp span) ∧
    (∃ front, (∀ span ∈ front, span.start = rsdp) ∧
      (mcfgEcamBases (some rsdp) m).1 = front ++ rootSpans m rsdp) ∧
    (∀ root, (followed m root).length ≤ MAX_ROOT_ENTRIES) ∧
    (∀ m', Agree (mcfgEcamBases (some rsdp) m).1 m m' →
      mcfgEcamBases (some rsdp) m' = mcfgEcamBases (some rsdp) m) := by
  obtain ⟨front, messages, run, spans⟩ := mcfgEcamBases_run m rsdp
  have own : ∀ span ∈ front, span.start = rsdp := by
    intro span head
    rcases spans span head with rfl | rfl <;> rfl
  have declared : ∀ span ∈ front ++ rootSpans m rsdp, Declared m rsdp span := by
    intro span mapped
    rcases List.mem_append.mp mapped with head | behind
    · exact front_declared (spans span head)
    · exact rootSpans_declared behind
  rw [run]
  refine ⟨⟨messages, rfl⟩, declared, ⟨front, own, rfl⟩, followed_length m, fun m' agree => ?_⟩
  rw [← run] at agree ⊢
  exact mcfgEcamBases_local (some rsdp) m m' agree

/-! ## Refused tables -/

/-- The bytes of `value`, the least significant first. -/
def leBytes (value width : Nat) : List UInt8 :=
  (List.range width).map fun i => UInt8.ofNat (value / 256 ^ i % 256)

def placed (m : Memory) (start : Nat) (bytes : List UInt8) : Memory := fun addr =>
  if start ≤ addr then bytes.getD (addr - start) (m addr) else m addr

/-- A root table with one entry, which names an MCFG table of one allocation. -/
def mcfgMemory (table : Nat) : Memory :=
  let rsdp := placed (placed (placed (fun _ => 0) 4096 RSDP_SIG) 4111 [2]) 4120 (leBytes 8192 8)
  let root := placed (placed rsdp 8196 (leBytes 44 4)) 8228 (leBytes table 8)
  let mcfg := placed (placed root table MCFG_SIG) (table + 4) (leBytes 60 4)
  placed mcfg (table + 44) (leBytes 0xE0000000 8)

/-- The table ends with the last byte of memory. -/
def lastTable : Nat := 2 ^ 64 - 60

/-- The entry is followed to a table of plausible length with a usable base, and the walk goes on
without it. -/
def LeftOut (table : Nat) : Prop :=
  followed (mcfgMemory table) ⟨8192, true⟩ = [table] ∧
    declaredLength (mcfgMemory table) table = 60 ∧
    signature (mcfgMemory table) table = MCFG_SIG ∧
    tableBases (mcfgMemory table) table = [0xE0000000] ∧
    (mcfgEcamBases (some 4096) (mcfgMemory table)).2 = .ok noMcfg

instance (table : Nat) : Decidable (LeftOut table) := inferInstanceAs (Decidable (_ ∧ _))

/-- The header of the last table is read and the table is not; at address zero neither is. -/
theorem last_table_refused :
    LeftOut lastTable ∧
      ⟨lastTable, 36⟩ ∈ (mcfgEcamBases (some 4096) (mcfgMemory lastTable)).1 ∧
      LeftOut 0 ∧ noMcfg.bases = [] := by
  decide +kernel

end AcpiDiscovery
