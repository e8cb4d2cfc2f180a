/-
  Until: the first element of a list that matters.

  `Until hold goal xs` says that `xs` has an element which meets `goal`, together with what
  comes after it, and that all elements before it meet `hold`. A loop that passes elements
  while they hold and ends at the first that does not is told apart by such statements;
  `until_cons` is their recursion.
-/
import Mathlib

namespace SignalEngine.Lib

universe u

variable {α : Type u} {hold : α → Prop} {goal : α → List α → Prop} {x : α} {xs : List α}

/-- Elements hold until one meets the goal. -/
def Until (hold : α → Prop) (goal : α → List α → Prop) (xs : List α) : Prop :=
  ∃ pre x post, xs = pre ++ x :: post ∧ (∀ y ∈ pre, hold y) ∧ goal x post

theorem not_until_nil : ¬ Until hold goal [] := by
  rintro ⟨pre, x, post, h, -⟩
  exact absurd h.symm (by simp)

/-- The element is the first one, or the first one holds and the element comes later. -/
theorem until_cons : Until hold goal (x :: xs) ↔ goal x xs ∨ hold x ∧ Until hold goal xs := by
  constructor
  · rintro ⟨pre, y, post, h, hpre, hgoal⟩
    cases pre with
    | nil =>
        obtain ⟨rfl, rfl⟩ := List.cons.inj h
        exact Or.inl hgoal
    | cons z pre =>
        obtain ⟨rfl, rfl⟩ := List.cons.inj h
        obtain ⟨hx, hpre⟩ := List.forall_mem_cons.mp hpre
        exact Or.inr ⟨hx, pre, y, post, rfl, hpre, hgoal⟩
  · rintro (hgoal | ⟨hx, pre, y, post, rfl, hpre, hgoal⟩)
    · exact ⟨[], x, xs, rfl, fun _ h => absurd h List.not_mem_nil, hgoal⟩
    · exact ⟨x :: pre, y, post, rfl, List.forall_mem_cons.mpr ⟨hx, hpre⟩, hgoal⟩

/-- Past an element that holds and does not meet the goal. -/
theorem until_cons_of_hold (hx : hold x) (hgoal : ¬ goal x xs) :
    Until hold goal (x :: xs) ↔ Until hold goal xs := by
  rw [until_cons, or_iff_right hgoal, and_iff_right hx]

/-- At an element that does not hold everything is decided. -/
theorem until_cons_of_not_hold (hx : ¬ hold x) : Until hold goal (x :: xs) ↔ goal x xs := by
  rw [until_cons]
  exact or_iff_left fun h => hx h.1

end SignalEngine.Lib
