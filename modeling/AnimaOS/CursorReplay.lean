import Mathlib.Data.List.Basic

/-!
# Replay after a cursor

A reader gets numbered items over several connections. It comes back with the
number of the last item it got and is sent the items numbered above it.
-/

namespace CursorReplay

universe u v

variable {α : Type u} {κ : Type v} {number : α → Nat} {key : α → κ}

def Ascending (number : α → Nat) (items : List α) : Prop := (items.map number).Pairwise (· < ·)

def lastNumber (number : α → Nat) (received : List α) : Option Nat :=
  received.getLast?.map number

/-- Without a cursor nothing is skipped. -/
def skips (cursor : Option Nat) (n : Nat) : Bool := cursor.any (n ≤ ·)

/-- What a reader with the cursor gets of the items. -/
def resume (number : α → Nat) (cursor : Option Nat) (items : List α) : List α :=
  items.filter fun a => !skips cursor (number a)

theorem mem_resume {cursor : Option Nat} {items : List α} {a : α} :
    a ∈ resume number cursor items ↔ a ∈ items ∧ skips cursor (number a) = false := by
  simp [resume]

theorem resume_append (cursor : Option Nat) (items more : List α) :
    resume number cursor (items ++ more) =
      resume number cursor items ++ resume number cursor more := List.filter_append ..

theorem ascending_append {items more : List α} :
    Ascending number (items ++ more) ↔
      Ascending number items ∧ Ascending number more ∧
        ∀ a ∈ items, ∀ b ∈ more, number a < number b := by
  rw [Ascending, List.map_append, List.pairwise_append]
  simp [Ascending]

theorem Ascending.sublist {items some : List α} (ascending : Ascending number items)
    (part : some.Sublist items) : Ascending number some :=
  List.Pairwise.sublist (part.map number) ascending

theorem Ascending.le_last {received : List α} (ascending : Ascending number received) {a : α}
    (got : a ∈ received) : ∃ n, lastNumber number received = some n ∧ number a ≤ n := by
  rcases List.eq_nil_or_concat received with rfl | ⟨before, last, rfl⟩
  · cases got
  · rw [List.concat_eq_append] at ascending got ⊢
    refine ⟨number last, by simp [lastNumber], ?_⟩
    rcases List.mem_append.mp got with earlier | same
    · have below := (ascending_append.mp ascending).2.2 a earlier last (List.mem_singleton_self last)
      omega
    · exact Nat.le_of_eq (congrArg number (List.mem_singleton.mp same))

/-- A cursor that lies below the number does not skip it. -/
theorem skips_eq_false {received : List α} {n : Nat} (above : ∀ a ∈ received, number a < n) :
    skips (lastNumber number received) n = false := by
  rw [lastNumber]
  cases last : received.getLast? with
  | none => rfl
  | some a =>
    have below := above a (List.mem_of_getLast? last)
    simp [skips, below]

/-- A reader that comes back keeps getting higher numbers. -/
theorem Ascending.resumed {received items : List α} (before : Ascending number received)
    (ascending : Ascending number items) :
    Ascending number (received ++ resume number (lastNumber number received) items) := by
  refine ascending_append.mpr ⟨before, ascending.sublist List.filter_sublist, ?_⟩
  intro a got b sent
  obtain ⟨n, last, below⟩ := before.le_last got
  have passed := (mem_resume.mp sent).2
  rw [last] at passed
  simp only [skips, Option.any_some, decide_eq_false_iff_not] at passed
  omega

theorem Ascending.nodup_keys {items : List α} (ascending : Ascending number items)
    (determined : ∀ a ∈ items, ∀ b ∈ items, key a = key b → number a = number b) :
    (items.map key).Nodup := by
  rw [Ascending, List.pairwise_map] at ascending
  rw [List.nodup_iff_pairwise_ne, List.pairwise_map]
  refine ascending.imp_of_mem ?_
  intro a b listed other below same
  have equal := determined a listed b other same
  omega

/-! ## Histories -/

/-- A tracked item that comes for the first time is numbered above all before it. -/
def FirstAbove (number : α → Nat) (key : α → κ) (tracked : α → Prop) (history : List α) : Prop :=
  ∀ before a, before ++ [a] <+: history → tracked a → key a ∉ before.map key →
    ∀ b ∈ before, number b < number a

variable {tracked : α → Prop}

theorem firstAbove_nil : FirstAbove number key tracked [] := by
  intro before a part
  simp at part

theorem FirstAbove.snoc {history : List α} (first : FirstAbove number key tracked history) {a : α}
    (above : tracked a → key a ∉ history.map key → ∀ b ∈ history, number b < number a) :
    FirstAbove number key tracked (history ++ [a]) := by
  intro before b part follows new
  rcases List.prefix_concat_iff.mp part with whole | earlier
  · obtain ⟨rfl, same⟩ := List.append_inj' whole rfl
    cases same
    exact above follows new
  · exact first before b earlier follows new

/-- What a reader that saw the beginning of the history has not seen is numbered above it. -/
theorem FirstAbove.above {history seen : List α} (first : FirstAbove number key tracked history)
    (determined : ∀ a ∈ history, ∀ b ∈ history, key a = key b → a = b) (saw : seen <+: history)
    {a : α} (listed : a ∈ history) (follows : tracked a) (new : key a ∉ seen.map key) :
    ∀ b ∈ seen, number b < number a := by
  obtain ⟨later, rfl⟩ := saw
  have unseen : a ∉ seen := fun inside => new (List.mem_map_of_mem inside)
  have after : a ∈ later := (List.mem_append.mp listed).resolve_left unseen
  obtain ⟨between, rest, rfl, notBetween⟩ := List.eq_append_cons_of_mem after
  have initial : key a ∉ (seen ++ between).map key := by
    intro inside
    obtain ⟨b, member, same⟩ := List.mem_map.mp inside
    have listed' : b ∈ seen ++ (between ++ a :: rest) := by
      rw [← List.append_assoc]
      exact List.mem_append_left _ member
    obtain rfl := determined b listed' a listed same
    rcases List.mem_append.mp member with early | middle
    · exact unseen early
    · exact notBetween middle
  intro b member
  refine first (seen ++ between) a ?_ follows initial b (List.mem_append_left _ member)
  exact ⟨rest, by simp⟩

end CursorReplay
