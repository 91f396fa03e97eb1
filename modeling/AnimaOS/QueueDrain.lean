import Mathlib
import AnimaOS.Machine

/-!
# Queues drained in bounded batches

A loop takes at most so many items from the front of a queue and hands each to a
step function. Over a run, a queue that gives from its front and takes at its
back has given, in order, what it held and what came.
-/

namespace QueueDrain

open Machine

universe u v w

section Batches

variable {σ : Type u} {M : Type v} {O : Type w}

/-- What the handler answered to the items, one by one. -/
def responses (handle : σ → M → σ × O) (s : σ) (items : List M) : List O :=
  (trace handle s items).map Call.response

/-- Take items while there are any and there is room: the state, the rest and the answers. -/
def drain (handle : σ → M → σ × O) : Nat → List M → σ → σ × List M × List O
  | 0, items, s => (s, items, [])
  | _ + 1, [], s => (s, [], [])
  | room + 1, item :: rest, s =>
    let handled := handle s item
    let later := drain handle room rest handled.1
    (later.1, later.2.1, handled.2 :: later.2.2)

theorem drain_eq (handle : σ → M → σ × O) (room : Nat) (items : List M) (s : σ) :
    drain handle room items s =
      (final handle s (items.take room), items.drop room,
        responses handle s (items.take room)) := by
  induction room generalizing items s with
  | zero => rfl
  | succ room ih =>
    cases items with
    | nil => rfl
    | cons item rest =>
      rw [drain, ih]
      rfl

end Batches

section Runs

variable {σ : Type u} {α : Type v} {β : Type w} {M : Type*} {step : σ → α → σ × β}
  {content : σ → List M} {put got : Call σ α β → List M}

theorem trace_conserves
    (keeps : ∀ s a, content s ++ put ⟨s, a, (step s a).2⟩ =
      got ⟨s, a, (step s a).2⟩ ++ content (step s a).1) (s : σ) (xs : List α) :
    content s ++ (trace step s xs).flatMap put =
      (trace step s xs).flatMap got ++ content (final step s xs) := by
  induction xs generalizing s with
  | nil => simp [trace, final]
  | cons a rest ih =>
    simp only [trace, final, List.flatMap_cons]
    rw [← List.append_assoc, keeps s a, List.append_assoc, ih, List.append_assoc]

/-- A queue whose calls take `room` items, or all there are, has given after a run at least as
many of its first items as the calls had room for. -/
theorem trace_drains {room : α → Nat}
    (takes : ∀ s a, got ⟨s, a, (step s a).2⟩ = (content s).take (room a))
    (leaves : ∀ s a, content (step s a).1 =
      (content s).drop (room a) ++ put ⟨s, a, (step s a).2⟩) (s : σ) (xs : List α) :
    (content s).take (xs.map room).sum <+: (trace step s xs).flatMap got := by
  induction xs generalizing s with
  | nil => simp
  | cons a rest ih =>
    have later := ih (step s a).1
    rw [leaves] at later
    simp only [trace, List.map_cons, List.sum_cons, List.flatMap_cons, takes, List.take_add]
    refine (List.prefix_append_right_inj _).mpr (List.IsPrefix.trans ?_ later)
    rw [List.take_append]
    exact List.prefix_append _ _

end Runs

end QueueDrain
