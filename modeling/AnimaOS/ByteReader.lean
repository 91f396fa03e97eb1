import Mathlib.Algebra.GroupWithZero.Nat
import Mathlib.Data.List.Basic

/-!
# Reading bytes by position

Indexing and slicing that fault outside the data, and numbers in network order.
What stands behind a known front part is read at its length.
-/

namespace ByteReader

/-- Why a reader stops: it indexed out of range, or it refused the data. -/
inductive Fault where
  | outOfRange
  | error (message : String)
  deriving DecidableEq, Repr

abbrev Checked (α : Type) := Except Fault α

def index (data : List UInt8) (i : Nat) : Checked UInt8 :=
  match data[i]? with
  | some b => .ok b
  | none => .error .outOfRange

def slice (data : List UInt8) (start stop : Nat) : Checked (List UInt8) :=
  if start ≤ stop ∧ stop ≤ data.length then .ok ((data.drop start).take (stop - start))
  else .error .outOfRange

def fromBe16 (hi lo : UInt8) : Nat := hi.toNat * 256 + lo.toNat

/-- A check of the reader's own, refused with a message. -/
def ensure (holds : Prop) [Decidable holds] (message : String) : Checked Unit :=
  if holds then .ok () else .error (.error message)

/-- The two bytes at a position. -/
def u16At (data : List UInt8) (i : Nat) : Checked Nat :=
  match index data i with
  | .error f => .error f
  | .ok hi =>
    match index data (i + 1) with
    | .error f => .error f
    | .ok lo => .ok (fromBe16 hi lo)

/-- `to_be_bytes` of a number cut to sixteen bits. -/
def be16 (n : Nat) : List UInt8 := [UInt8.ofNat (n % 65536 / 256), UInt8.ofNat (n % 65536)]

@[simp] theorem be16_length (n : Nat) : (be16 n).length = 2 := rfl

/-- The low bytes of a number, the most significant first. -/
def toBeBytes : Nat → Nat → List UInt8
  | 0, _ => []
  | width + 1, n => toBeBytes width (n / 256) ++ [UInt8.ofNat n]

@[simp] theorem toBeBytes_length (width n : Nat) : (toBeBytes width n).length = width := by
  induction width generalizing n with
  | zero => rfl
  | succ width ih => simp [toBeBytes, ih]

theorem toBeBytes_inj {width m n : Nat} (first : m < 256 ^ width) (second : n < 256 ^ width)
    (same : toBeBytes width m = toBeBytes width n) : m = n := by
  induction width generalizing m n with
  | zero => omega
  | succ width ih =>
    obtain ⟨high, low⟩ := List.append_inj' same rfl
    have lower : m % 256 = n % 256 := by
      have := congrArg UInt8.toNat (List.head_eq_of_cons_eq low)
      simpa using this
    have upper : m / 256 = n / 256 := by
      apply ih _ _ high
      · exact Nat.div_lt_of_lt_mul (by rw [Nat.mul_comm]; exact first)
      · exact Nat.div_lt_of_lt_mul (by rw [Nat.mul_comm]; exact second)
    omega

/-! ## One reading after another -/

section Binding

variable {α β : Type} {x : Checked α} {f : α → Checked β}

theorem bind_ok {a : α} (read : x = .ok a) : (x >>= f) = f a := by
  rw [read]
  rfl

theorem ensure_bind {holds : Prop} [Decidable holds] {message : String} {f : Unit → Checked β}
    (held : holds) : (ensure holds message >>= f) = f () :=
  bind_ok (if_pos held)

theorem bind_ok_iff {b : β} : (x >>= f) = .ok b ↔ ∃ a, x = .ok a ∧ f a = .ok b := by
  cases x with
  | error fault =>
    constructor
    · intro read
      cases read
    · rintro ⟨a, read, _⟩
      cases read
  | ok a =>
    constructor
    · exact fun read => ⟨a, rfl, read⟩
    · rintro ⟨a', read, rest⟩
      cases read
      exact rest

theorem ensure_ok_iff {holds : Prop} [Decidable holds] {message : String} {u : Unit} :
    ensure holds message = .ok u ↔ holds := by
  by_cases held : holds
  · simp [ensure, held]
  · simp [ensure, held]

/-- A reader that never indexes outside the data. -/
def InRange (x : Checked α) : Prop := x ≠ .error .outOfRange

theorem InRange.ok (a : α) : InRange (.ok a : Checked α) := by
  intro faulted
  cases faulted

theorem InRange.refused (message : String) : InRange (.error (.error message) : Checked α) := by
  intro faulted
  cases faulted

theorem InRange.ensure (holds : Prop) [Decidable holds] (message : String) :
    InRange (ensure holds message) := by
  unfold ByteReader.ensure
  split
  · exact InRange.ok ()
  · exact InRange.refused message

theorem InRange.bind (first : InRange x) (later : ∀ a, x = .ok a → InRange (f a)) :
    InRange (x >>= f) := by
  cases x with
  | error fault =>
    intro faulted
    exact first (congrArg Except.error (Except.error.inj faulted))
  | ok a => exact later a rfl

end Binding

/-! ## Inside the data -/

theorem index_inside {data : List UInt8} {i : Nat} (inside : i < data.length) :
    ∃ b, index data i = .ok b := by
  refine ⟨data[i], ?_⟩
  rw [index, List.getElem?_eq_getElem inside]

theorem slice_inside {data : List UInt8} {start stop : Nat} (forward : start ≤ stop)
    (inside : stop ≤ data.length) :
    slice data start stop = .ok ((data.drop start).take (stop - start)) :=
  if_pos ⟨forward, inside⟩

theorem u16At_inside {data : List UInt8} {i : Nat} (inside : i + 2 ≤ data.length) :
    ∃ n, u16At data i = .ok n := by
  obtain ⟨hi, first⟩ := index_inside (show i < data.length by omega)
  obtain ⟨lo, second⟩ := index_inside (show i + 1 < data.length by omega)
  exact ⟨fromBe16 hi lo, by rw [u16At, first, second]⟩

theorem index_ok_lt {data : List UInt8} {i : Nat} {b : UInt8} (read : index data i = .ok b) :
    i < data.length := by
  by_contra outside
  rw [index, List.getElem?_eq_none (by omega)] at read
  cases read

theorem u16At_ok_le {data : List UInt8} {i n : Nat} (read : u16At data i = .ok n) :
    i + 2 ≤ data.length := by
  unfold u16At at read
  split at read
  · cases read
  · split at read
    · cases read
    · rename_i second
      exact index_ok_lt second

theorem slice_ok {data part : List UInt8} {start stop : Nat}
    (read : slice data start stop = .ok part) :
    start ≤ stop ∧ stop ≤ data.length ∧ part = (data.drop start).take (stop - start) := by
  unfold slice at read
  split at read
  · rename_i within
    exact ⟨within.1, within.2, (Except.ok.inj read).symm⟩
  · cases read

theorem InRange.index {data : List UInt8} {i : Nat} (inside : i < data.length) :
    InRange (index data i) := by
  obtain ⟨b, read⟩ := index_inside inside
  rw [read]
  exact InRange.ok b

theorem InRange.u16At {data : List UInt8} {i : Nat} (inside : i + 2 ≤ data.length) :
    InRange (u16At data i) := by
  obtain ⟨n, read⟩ := u16At_inside inside
  rw [read]
  exact InRange.ok n

theorem InRange.slice {data : List UInt8} {start stop : Nat} (forward : start ≤ stop)
    (inside : stop ≤ data.length) : InRange (slice data start stop) := by
  rw [slice_inside forward inside]
  exact InRange.ok _

/-! ## Behind a known front -/

theorem index_front (front rest : List UInt8) (b : UInt8) :
    index (front ++ b :: rest) front.length = .ok b := by
  rw [index, List.getElem?_append_right (Nat.le_refl _), Nat.sub_self]
  rfl

theorem index_at {data front rest : List UInt8} {b : UInt8} {i : Nat}
    (split : data = front ++ b :: rest) (position : i = front.length) : index data i = .ok b := by
  rw [split, position]
  exact index_front front rest b

theorem slice_at {data front middle rest : List UInt8} {start stop : Nat}
    (split : data = front ++ (middle ++ rest)) (first : start = front.length)
    (last : stop = front.length + middle.length) : slice data start stop = .ok middle := by
  have length : data.length = front.length + (middle.length + rest.length) := by
    rw [split, List.length_append, List.length_append]
  rw [slice_inside (by omega) (by omega), split, first, last, List.drop_left,
    Nat.add_sub_cancel_left, List.take_left]

theorem fromBe16_bytes {n : Nat} (small : n < 65536) :
    fromBe16 (UInt8.ofNat (n % 65536 / 256)) (UInt8.ofNat (n % 65536)) = n := by
  simp only [fromBe16, UInt8.toNat_ofNat']
  omega

theorem u16At_at {data front rest : List UInt8} {n i : Nat} (small : n < 65536)
    (split : data = front ++ (be16 n ++ rest)) (position : i = front.length) :
    u16At data i = .ok n := by
  have hi : index data i = .ok (UInt8.ofNat (n % 65536 / 256)) := index_at split position
  have lo : index data (i + 1) = .ok (UInt8.ofNat (n % 65536)) := by
    have behind : data = (front ++ [UInt8.ofNat (n % 65536 / 256)]) ++
        UInt8.ofNat (n % 65536) :: rest := by
      rw [split, be16]
      simp
    exact index_at behind (by simp [position])
  rw [u16At, hi, lo]
  exact congrArg Except.ok (fromBe16_bytes small)

/-! ## Items of a type and a length -/

/-- A content with its type, both of a size that two bytes can state. -/
structure Item where
  type : Nat
  content : List UInt8
  type_small : type < 65536
  content_small : content.length < 65536

def Item.bytes (item : Item) : List UInt8 :=
  be16 item.type ++ (be16 item.content.length ++ item.content)

@[simp] theorem Item.bytes_length (item : Item) : item.bytes.length = 4 + item.content.length := by
  simp [Item.bytes]
  omega

def itemsBytes (items : List Item) : List UInt8 := items.flatMap Item.bytes

theorem itemsBytes_cons (item : Item) (items : List Item) :
    itemsBytes (item :: items) = item.bytes ++ itemsBytes items :=
  rfl

variable {data : List UInt8} {stop wanted : Nat}

/-- Hopping from item to item by their declared lengths, the first item of the wanted
type is reached before `stop`. -/
inductive Reaches (data : List UInt8) (stop wanted : Nat) : Nat → Nat → Prop where
  | here {pos : Nat} : pos + 4 ≤ stop → u16At data pos = .ok wanted →
      Reaches data stop wanted pos pos
  | hop {pos type len found : Nat} : pos + 4 ≤ stop → u16At data pos = .ok type →
      type ≠ wanted → u16At data (pos + 2) = .ok len →
      Reaches data stop wanted (pos + 4 + len) found → Reaches data stop wanted pos found

/-- The items up to `stop` lie before it and none has the wanted type. -/
inductive Misses (data : List UInt8) (stop wanted : Nat) : Nat → Prop where
  | done {pos : Nat} : stop < pos + 4 → Misses data stop wanted pos
  | hop {pos type len : Nat} : pos + 4 ≤ stop → u16At data pos = .ok type →
      type ≠ wanted → u16At data (pos + 2) = .ok len → pos + 4 + len ≤ stop →
      Misses data stop wanted (pos + 4 + len) → Misses data stop wanted pos

theorem Reaches.before_stop {pos found : Nat} (reaches : Reaches data stop wanted pos found) :
    found + 4 ≤ stop := by
  induction reaches with
  | here inside _ => exact inside
  | hop _ _ _ _ _ ih => exact ih

theorem Reaches.forward {pos found : Nat} (reaches : Reaches data stop wanted pos found) :
    pos ≤ found := by
  induction reaches with
  | here _ _ => exact Nat.le_refl _
  | hop _ _ _ _ _ ih => omega

theorem Reaches.unique {pos found other : Nat} (reaches : Reaches data stop wanted pos found)
    (again : Reaches data stop wanted pos other) : found = other := by
  induction reaches with
  | here _ here =>
    cases again with
    | here _ _ => rfl
    | hop _ read differs _ _ =>
      rw [here] at read
      exact absurd (Except.ok.inj read).symm differs
  | hop _ read differs length _ ih =>
    cases again with
    | here _ here =>
      rw [read] at here
      exact absurd (Except.ok.inj here) differs
    | hop _ _ _ length' again =>
      rw [length] at length'
      cases length'
      exact ih again

theorem Item.read_at (item : Item) {front rest : List UInt8}
    (split : data = front ++ (item.bytes ++ rest)) :
    u16At data front.length = .ok item.type ∧
      u16At data (front.length + 2) = .ok item.content.length := by
  constructor
  · have parts : data =
        front ++ (be16 item.type ++ (be16 item.content.length ++ item.content ++ rest)) := by
      simp [split, Item.bytes]
    exact u16At_at item.type_small parts rfl
  · have parts : data =
        (front ++ be16 item.type) ++ (be16 item.content.length ++ (item.content ++ rest)) := by
      simp [split, Item.bytes]
    exact u16At_at item.content_small parts (by simp)

theorem Item.content_at (item : Item) {front rest : List UInt8}
    (split : data = front ++ (item.bytes ++ rest)) :
    slice data (front.length + 4) (front.length + 4 + item.content.length) =
      .ok item.content := by
  have parts : data = (front ++ be16 item.type ++ be16 item.content.length) ++
      (item.content ++ rest) := by
    simp [split, Item.bytes]
  exact slice_at parts (by simp) (by simp)

theorem itemsBytes_cons_length (first : Item) (items : List Item) :
    (itemsBytes (first :: items)).length =
      4 + first.content.length + (itemsBytes items).length := by
  rw [itemsBytes_cons, List.length_append, Item.bytes_length]

/-- The first of some items is read in front of the others, and they follow behind it. -/
theorem first_read {first : Item} {items : List Item} {front rest : List UInt8}
    (split : data = front ++ (itemsBytes (first :: items) ++ rest)) :
    u16At data front.length = .ok first.type ∧
      u16At data (front.length + 2) = .ok first.content.length ∧
      data = (front ++ first.bytes) ++ (itemsBytes items ++ rest) ∧
      (front ++ first.bytes).length = front.length + 4 + first.content.length := by
  have parts : data = front ++ (first.bytes ++ (itemsBytes items ++ rest)) := by
    simp [split, itemsBytes_cons]
  obtain ⟨type, length⟩ := first.read_at parts
  refine ⟨type, length, by simp [parts], ?_⟩
  rw [List.length_append, Item.bytes_length, Nat.add_assoc]

/-- Among written items the first of the wanted type is reached. -/
theorem reaches_items {items : List Item} {item : Item} {front rest : List UInt8}
    (differ : ∀ i ∈ items, i.type ≠ item.type)
    (split : data = front ++ (itemsBytes items ++ (item.bytes ++ rest)))
    (inside : front.length + (itemsBytes items).length + 4 ≤ stop) :
    Reaches data stop item.type front.length (front.length + (itemsBytes items).length) := by
  induction items generalizing front with
  | nil => exact .here inside (item.read_at split).1
  | cons first items ih =>
    obtain ⟨type, length, behind, further⟩ := first_read split
    rw [itemsBytes_cons_length] at inside ⊢
    have later := ih (fun i listed => differ i (List.mem_cons_of_mem _ listed)) behind
      (by omega)
    rw [further] at later
    refine .hop (by omega) type (differ first List.mem_cons_self) length ?_
    rw [← Nat.add_assoc, ← Nat.add_assoc]
    exact later

theorem misses_items {items : List Item} {front rest : List UInt8}
    (differ : ∀ i ∈ items, i.type ≠ wanted)
    (split : data = front ++ (itemsBytes items ++ rest))
    (last : front.length + (itemsBytes items).length = stop) :
    Misses data stop wanted front.length := by
  induction items generalizing front with
  | nil =>
    have stop_here : front.length = stop := last
    exact .done (by omega)
  | cons first items ih =>
    obtain ⟨type, length, behind, further⟩ := first_read split
    rw [itemsBytes_cons_length] at last
    have later := ih (fun i listed => differ i (List.mem_cons_of_mem _ listed)) behind
      (by omega)
    rw [further] at later
    exact .hop (by omega) type (differ first List.mem_cons_self) length (by omega) later

/-- The first item of the wanted type is reached with its length and content. -/
theorem find_items {items : List Item} {item : Item} {front rest : List UInt8}
    (found : items.find? (fun i => i.type = wanted) = some item)
    (split : data = front ++ (itemsBytes items ++ rest))
    (inside : front.length + (itemsBytes items).length ≤ stop) :
    ∃ pos, Reaches data stop wanted front.length pos ∧
      u16At data (pos + 2) = .ok item.content.length ∧
      slice data (pos + 4) (pos + 4 + item.content.length) = .ok item.content ∧
      pos + 4 + item.content.length ≤ stop := by
  obtain ⟨named, before, after, items_eq, differ⟩ := List.find?_eq_some_iff_append.mp found
  have type : item.type = wanted := by simpa using named
  subst type
  have others : ∀ i ∈ before, i.type ≠ item.type := by simpa using differ
  have bytes : itemsBytes items = itemsBytes before ++ (item.bytes ++ itemsBytes after) := by
    simp [items_eq, itemsBytes]
  have length : (itemsBytes items).length =
      (itemsBytes before).length + (4 + item.content.length + (itemsBytes after).length) := by
    simp [bytes]
  have parts : data =
      front ++ (itemsBytes before ++ (item.bytes ++ (itemsBytes after ++ rest))) := by
    simp [split, bytes]
  have behind : data =
      (front ++ itemsBytes before) ++ (item.bytes ++ (itemsBytes after ++ rest)) := by
    simp [parts]
  have reaches : Reaches data stop item.type _ _ := reaches_items others parts (by omega)
  have length_read := (item.read_at behind).2
  have content := item.content_at behind
  rw [List.length_append] at length_read content
  exact ⟨front.length + (itemsBytes before).length, reaches, length_read, content, by omega⟩

/-! ## A walk to the first item of a type -/

/-- What a walk looks for, what it says of an item beyond the data and of none found, and how the
content of the item is read. -/
structure Walk where
  wanted : Nat
  cut : String
  missing : String
  read : List UInt8 → Checked (List UInt8)

/-- An item has to end inside the data; that it ends before `stop` is not asked. -/
def walkFrom (walk : Walk) (data : List UInt8) (stop pos : Nat) : Checked (List UInt8) :=
  if _inside : pos + 4 ≤ stop then do
    let type ← u16At data pos
    let len ← u16At data (pos + 2)
    ensure (pos + 4 + len ≤ data.length) walk.cut
    let content ← slice data (pos + 4) (pos + 4 + len)
    if type = walk.wanted then walk.read content
    else walkFrom walk data stop (pos + 4 + len)
  else .error (.error walk.missing)
termination_by stop - pos

section Walk

variable {walk : Walk} {pos : Nat}

theorem walkFrom_inRange (reads : ∀ content, InRange (walk.read content))
    (fits : stop ≤ data.length) (pos : Nat) : InRange (walkFrom walk data stop pos) := by
  fun_induction walkFrom walk data stop pos with
  | case1 pos inside ih =>
    apply InRange.bind (InRange.u16At (by omega))
    intro type _
    apply InRange.bind (InRange.u16At (by omega))
    intro len _
    apply InRange.bind (InRange.ensure _ _)
    intro _ within
    apply InRange.bind (InRange.slice (by omega) (ensure_ok_iff.mp within))
    intro content _
    by_cases wanted : type = walk.wanted
    · rw [if_pos wanted]
      exact reads content
    · rw [if_neg wanted]
      exact ih len
  | case2 pos _ => exact InRange.refused _

theorem walkFrom_reaches {content : List UInt8} {found len : Nat} (fits : stop ≤ data.length)
    (reaches : Reaches data stop walk.wanted pos found)
    (length : u16At data (found + 2) = .ok len)
    (sliced : slice data (found + 4) (found + 4 + len) = .ok content) :
    walkFrom walk data stop pos = walk.read content := by
  induction reaches with
  | here inside type =>
    obtain ⟨_, within, _⟩ := slice_ok sliced
    rw [walkFrom, dif_pos inside, bind_ok type, bind_ok length, ensure_bind within,
      bind_ok sliced, if_pos rfl]
  | hop inside type differs length' later ih =>
    have next := later.forward
    have last := later.before_stop
    rw [walkFrom, dif_pos inside, bind_ok type, bind_ok length', ensure_bind (by omega),
      bind_ok (slice_inside (by omega) (by omega)), if_neg differs]
    exact ih length sliced

theorem walkFrom_misses (fits : stop ≤ data.length) (misses : Misses data stop walk.wanted pos) :
    walkFrom walk data stop pos = .error (.error walk.missing) := by
  induction misses with
  | done outside => rw [walkFrom, dif_neg (by omega)]
  | hop inside type differs length within _ ih =>
    rw [walkFrom, dif_pos inside, bind_ok type, bind_ok length, ensure_bind (by omega),
      bind_ok (slice_inside (by omega) (by omega)), if_neg differs]
    exact ih

/-- A walk over items reads the content of the first of its type. -/
theorem walkFrom_items {items : List Item} {front rest : List UInt8}
    (split : data = front ++ (itemsBytes items ++ rest))
    (total : front.length + (itemsBytes items).length = stop) :
    walkFrom walk data stop front.length =
      match items.find? (fun i => i.type = walk.wanted) with
      | some item => walk.read item.content
      | none => .error (.error walk.missing) := by
  have fits : stop ≤ data.length := by
    rw [split, List.length_append, List.length_append]
    omega
  cases found : items.find? (fun i => i.type = walk.wanted) with
  | none =>
    have differ : ∀ i ∈ items, i.type ≠ walk.wanted := by
      simpa using List.find?_eq_none.mp found
    exact walkFrom_misses fits (misses_items differ split total)
  | some item =>
    obtain ⟨pos, reaches, length, content, _⟩ := find_items found split (Nat.le_of_eq total)
    exact walkFrom_reaches fits reaches length content

/-- What is returned is read from the first item of the type, reached by the declared lengths. -/
theorem walkFrom_ok {result : List UInt8} (ended : walkFrom walk data stop pos = .ok result) :
    ∃ found len content, Reaches data stop walk.wanted pos found ∧
      u16At data (found + 2) = .ok len ∧ slice data (found + 4) (found + 4 + len) = .ok content ∧
      walk.read content = .ok result := by
  fun_induction walkFrom walk data stop pos with
  | case1 pos inside ih =>
    obtain ⟨type, typed, ended⟩ := bind_ok_iff.mp ended
    obtain ⟨len, length, ended⟩ := bind_ok_iff.mp ended
    obtain ⟨_, _, ended⟩ := bind_ok_iff.mp ended
    obtain ⟨content, sliced, ended⟩ := bind_ok_iff.mp ended
    by_cases wanted : type = walk.wanted
    · rw [if_pos wanted] at ended
      rw [wanted] at typed
      exact ⟨pos, len, content, .here inside typed, length, sliced, ended⟩
    · rw [if_neg wanted] at ended
      obtain ⟨found, len', content', reaches, rest⟩ := ih len ended
      exact ⟨found, len', content', .hop inside typed wanted length reaches, rest⟩
  | case2 pos _ => cases ended

end Walk

end ByteReader
