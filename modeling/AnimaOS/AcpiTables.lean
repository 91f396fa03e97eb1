import AnimaOS.MappedMemory

/-!
# ACPI tables

The parsers of the root pointer and of the MCFG table over byte slices, and what
they come to on the bytes of a memory.
-/

namespace AcpiDiscovery

open ByteReader MappedMemory

/-- `RSD PTR ` with its blank. -/
def RSDP_SIG : List UInt8 := [0x52, 0x53, 0x44, 0x20, 0x50, 0x54, 0x52, 0x20]

abbrev SDT_HEADER_LEN : Nat := 36

/-- `MCFG`. -/
def MCFG_SIG : List UInt8 := [0x4d, 0x43, 0x46, 0x47]

/-- The header and eight reserved bytes. -/
abbrev MCFG_ALLOC_OFFSET : Nat := 44

abbrev MCFG_ALLOC_LEN : Nat := 16

abbrev MAX_TABLE_LEN : Nat := 64 * 1024

abbrev MAX_ROOT_ENTRIES : Nat := 256

structure RootTable where
  addr : Nat
  isXsdt : Bool
  deriving DecidableEq, Repr

/-! ## Parsers -/

/-- The 32-bit pointer of the first revision. -/
def rsdtRoot (rsdp : List UInt8) : Checked (Option RootTable) := do
  let rsdt := fromLe (← slice rsdp 16 20)
  .ok (if rsdt = 0 then none else some ⟨rsdt, false⟩)

def parseRsdp (rsdp : List UInt8) : Checked (Option RootTable) :=
  if rsdp.length < 20 then .ok none
  else do
    let signature ← slice rsdp 0 8
    if signature ≠ RSDP_SIG then .ok none
    else
      let revision ← index rsdp 15
      if revision ≥ 2 ∧ rsdp.length ≥ 36 then
        let xsdt := fromLe (← slice rsdp 24 32)
        if xsdt ≠ 0 then .ok (some ⟨xsdt, true⟩) else rsdtRoot rsdp
      else rsdtRoot rsdp

/-- `get` with a range. -/
def getRange (data : List UInt8) (start stop : Nat) : Option (List UInt8) :=
  (slice data start stop).toOption

def sdtSignature (header : List UInt8) : Option (List UInt8) := getRange header 0 4

def sdtLength (header : List UInt8) : Option Nat := (getRange header 4 8).map fromLe

/-- A base of zero or off a page is none. -/
def usable (base : Nat) : Bool := base ≠ 0 && base % 4096 = 0

/-- The loop over the allocation entries before `stop`. -/
def basesFrom (mcfg : List UInt8) (stop off : Nat) : Checked (List Nat) :=
  if off + MCFG_ALLOC_LEN ≤ stop then do
    let base := fromLe (← slice mcfg off (off + 8))
    let later ← basesFrom mcfg stop (off + MCFG_ALLOC_LEN)
    .ok (if usable base then base :: later else later)
  else .ok []
termination_by stop - off
decreasing_by
  simp only [MCFG_ALLOC_LEN] at *
  omega

def parseMcfgBases (mcfg : List UInt8) : Checked (List Nat) :=
  if mcfg.length < MCFG_ALLOC_OFFSET ∨ sdtSignature mcfg ≠ some MCFG_SIG then .ok []
  else
    let declared := (sdtLength mcfg).getD 0
    basesFrom mcfg (min declared mcfg.length) MCFG_ALLOC_OFFSET

/-! ## What the bytes declare -/

section Declared

variable (m : Memory)

def revision (rsdp : Nat) : UInt8 := m (rsdp + 15)

/-- The root table that a signed pointer structure names. -/
def rootTable (rsdp : Nat) : Option RootTable :=
  let xsdt := leAt m (rsdp + 24) 8
  let rsdt := leAt m (rsdp + 16) 4
  if revision m rsdp ≥ 2 ∧ xsdt ≠ 0 then some ⟨xsdt, true⟩
  else if rsdt ≠ 0 then some ⟨rsdt, false⟩
  else none

def declaredLength (table : Nat) : Nat := leAt m (table + 4) 4

def signature (table : Nat) : List UInt8 := bytesAt m table 4

/-- The bases of the complete entries within the declared length, in order. -/
def tableBases (table : Nat) : List Nat :=
  ((List.range ((declaredLength m table - MCFG_ALLOC_OFFSET) / MCFG_ALLOC_LEN)).map fun j =>
    leAt m (table + MCFG_ALLOC_OFFSET + MCFG_ALLOC_LEN * j) 8).filter usable

end Declared

variable {m : Memory}

/-- How many bytes of the pointer structure are mapped, by the revision it states. -/
def rsdpLen (m : Memory) (rsdp : Nat) : Nat := if revision m rsdp ≥ 2 then 36 else 20

theorem rsdtRoot_eq {rsdp length : Nat} (long : 20 ≤ length) :
    rsdtRoot (bytesAt m rsdp length) =
      .ok (if leAt m (rsdp + 16) 4 ≠ 0 then some ⟨leAt m (rsdp + 16) 4, false⟩ else none) := by
  rw [rsdtRoot, slice_bytesAt m rsdp (by omega) long, bind_ok rfl, ← leAt]
  by_cases none : leAt m (rsdp + 16) 4 = 0 <;> simp [none]

theorem parseRsdp_eq {rsdp : Nat} (signed : bytesAt m rsdp 8 = RSDP_SIG) :
    parseRsdp (bytesAt m rsdp (rsdpLen m rsdp)) = .ok (rootTable m rsdp) := by
  have long : 20 ≤ rsdpLen m rsdp := by
    rw [rsdpLen]
    split <;> omega
  have short : ¬rsdpLen m rsdp < 20 := Nat.not_lt.mpr long
  have read : slice (bytesAt m rsdp (rsdpLen m rsdp)) 0 8 = .ok RSDP_SIG := by
    rw [slice_bytesAt m rsdp (Nat.zero_le 8) (by omega)]
    exact congrArg Except.ok signed
  have stated : index (bytesAt m rsdp (rsdpLen m rsdp)) 15 = .ok (revision m rsdp) :=
    index_bytesAt m rsdp (by omega)
  have first := @rsdtRoot_eq m rsdp (rsdpLen m rsdp) long
  rw [parseRsdp, bytesAt_length, if_neg short, bind_ok read, if_neg (not_not.mpr rfl),
    bind_ok stated, rootTable]
  by_cases second : revision m rsdp ≥ 2
  · have whole : rsdpLen m rsdp = 36 := if_pos second
    have wide : slice (bytesAt m rsdp (rsdpLen m rsdp)) 24 32 = .ok (bytesAt m (rsdp + 24) 8) :=
      slice_bytesAt m rsdp (by omega) (by omega)
    rw [if_pos ⟨second, Nat.le_of_eq whole.symm⟩, bind_ok wide, ← leAt, first]
    by_cases xsdt : leAt m (rsdp + 24) 8 ≠ 0
    · rw [if_pos xsdt, if_pos ⟨second, xsdt⟩]
    · have neither : ¬(revision m rsdp ≥ 2 ∧ leAt m (rsdp + 24) 8 ≠ 0) := fun both => xsdt both.2
      rw [if_neg xsdt, if_neg neither]
  · have neither : ∀ p : Prop, ¬(revision m rsdp ≥ 2 ∧ p) := fun p both => second both.1
    rw [if_neg (neither _), first, if_neg (neither _)]

theorem sdtSignature_eq {table length : Nat} (long : 4 ≤ length) :
    sdtSignature (bytesAt m table length) = some (signature m table) := by
  rw [sdtSignature, getRange, slice_bytesAt m table (Nat.zero_le 4) long]
  rfl

theorem sdtLength_eq {table length : Nat} (long : 8 ≤ length) :
    sdtLength (bytesAt m table length) = some (declaredLength m table) := by
  rw [sdtLength, getRange, slice_bytesAt m table (by omega) long]
  rfl

theorem basesFrom_eq (table : Nat) {length stop : Nat} (within : stop ≤ length) (off : Nat) :
    basesFrom (bytesAt m table length) stop off =
      .ok (((List.range ((stop - off) / MCFG_ALLOC_LEN)).map fun j =>
        leAt m (table + off + MCFG_ALLOC_LEN * j) 8).filter usable) := by
  induction off using basesFrom.induct stop with
  | case1 off inside ih =>
    have room : off + 16 ≤ stop := inside
    have read : slice (bytesAt m table length) off (off + 8) = .ok (bytesAt m (table + off) 8) := by
      rw [slice_bytesAt m table (by omega) (by omega), Nat.add_sub_cancel_left]
    have count : (stop - off) / MCFG_ALLOC_LEN =
        (stop - (off + MCFG_ALLOC_LEN)) / MCFG_ALLOC_LEN + 1 := by
      simp only [MCFG_ALLOC_LEN]
      omega
    have shift : ∀ j, table + (off + MCFG_ALLOC_LEN) + MCFG_ALLOC_LEN * j =
        table + off + MCFG_ALLOC_LEN * (j + 1) := by
      intro j
      simp only [MCFG_ALLOC_LEN]
      omega
    rw [basesFrom, if_pos inside, bind_ok read, bind_ok ih, count, List.range_succ_eq_map,
      List.map_cons, List.map_map, List.filter_cons, ← leAt]
    simp only [shift, Nat.mul_zero, Nat.add_zero]
    rfl
  | case2 off outside =>
    have none : (stop - off) / MCFG_ALLOC_LEN = 0 := by
      simp only [MCFG_ALLOC_LEN] at outside ⊢
      omega
    rw [basesFrom, if_neg outside, none]
    rfl

theorem parseMcfgBases_eq {table : Nat} (headed : SDT_HEADER_LEN ≤ declaredLength m table)
    (mcfg : signature m table = MCFG_SIG) :
    parseMcfgBases (bytesAt m table (declaredLength m table)) = .ok (tableBases m table) := by
  have long : 36 ≤ declaredLength m table := headed
  have signed : sdtSignature (bytesAt m table (declaredLength m table)) = some MCFG_SIG := by
    rw [sdtSignature_eq (by omega), mcfg]
  rw [parseMcfgBases, bytesAt_length, sdtLength_eq (by omega), Option.getD_some]
  by_cases short : declaredLength m table < MCFG_ALLOC_OFFSET
  · have none : (declaredLength m table - MCFG_ALLOC_OFFSET) / MCFG_ALLOC_LEN = 0 := by
      simp only [MCFG_ALLOC_OFFSET, MCFG_ALLOC_LEN] at short ⊢
      omega
    rw [if_pos (Or.inl short), tableBases, none]
    rfl
  · have accepted : ¬(declaredLength m table < MCFG_ALLOC_OFFSET ∨
        sdtSignature (bytesAt m table (declaredLength m table)) ≠ some MCFG_SIG) := by
      simp [short, signed]
    rw [if_neg accepted]
    dsimp only
    rw [Nat.min_self, basesFrom_eq table (Nat.le_refl _)]
    rfl

end AcpiDiscovery
