import Gaea.Library.Run

/-!
# First in, first out

A queue whose items are taken from the front, any number of them at once, while others are put at
its end. What is handed out for an item is a function of it.
-/

namespace Fifo

open Transition

universe u v

variable {α : Type u} {β : Type v}

inductive Label (α : Type u) (β : Type v) where
  | put (items : List α)
  | take (handed : List β)

inductive Step (f : α → β) : List α → Label α β → List α → Prop where
  | put (left items : List α) : Step f left (.put items) (left ++ items)
  | take (items left : List α) : Step f (items ++ left) (.take (items.map f)) left

namespace Label

def arrived : Label α β → List α
  | put items => items
  | take _ => []

def handed : Label α β → List β
  | put _ => []
  | take handed => handed

end Label

/-- What has been taken, followed by what is left, is all there has ever been, in order. -/
theorem conserved {f : α → β} {init left : List α} {labels : List (Label α β)}
    (run : Run (Step f) init labels left) :
    ∃ taken, init ++ labels.flatMap Label.arrived = taken ++ left
      ∧ labels.flatMap Label.handed = taken.map f := by
  refine run.invariant (I := fun labels left =>
    ∃ taken, init ++ labels.flatMap Label.arrived = taken ++ left
      ∧ labels.flatMap Label.handed = taken.map f) ⟨[], by simp⟩ ?_
  rintro labels s label t ⟨taken, hall, hhanded⟩ step
  rw [List.flatMap_append, List.flatMap_append, List.flatMap_singleton, List.flatMap_singleton,
    ← List.append_assoc, hall, hhanded]
  cases step with
  | put _ items => exact ⟨taken, List.append_assoc _ _ _, List.append_nil _⟩
  | take items _ =>
      refine ⟨taken ++ items, ?_, List.map_append.symm⟩
      rw [Label.arrived, List.append_nil, List.append_assoc]

end Fifo
