/-
  Falls: how far a curve falls between two of its points.

  The curve is the partial sums of a list of steps, and a fall is the sum of a run of steps with
  its sign turned. `Curve` is the state of a scan that keeps the level, the peak and the largest
  fall from the peak; `Scanned.move` is what one step does to it, and `isGreatest_fall` says that
  a scan from the first point finds the largest fall there is (`Falls`), the empty run among
  them. A scan that takes the point after the first step for its start finds the largest fall of
  the steps after it, which is the same one under the condition of `greatest_falls_eq_iff`.
-/
import Mathlib

namespace SignalEngine.Lib

universe u

variable {α : Type u} [AddCommGroup α]

/-- The falls over the runs of consecutive steps. -/
def Falls (steps : List α) : Set α := {d | ∃ run, run <:+: steps ∧ d = -run.sum}

/-- The falls that begin with the first step, and those that begin later. -/
theorem mem_falls_cons {x d : α} {steps : List α} :
    d ∈ Falls (x :: steps) ↔ (∃ opening, opening <+: x :: steps ∧ d = -opening.sum) ∨
      d ∈ Falls steps := by
  simp only [Falls, Set.mem_ofPred_eq, List.infix_cons_iff, or_and_right, exists_or]

/-- A level, the peak so far and the largest fall from it. -/
structure Curve (α : Type u) where
  level : α
  peak : α
  fall : α

variable [LinearOrder α]

/-- One step. -/
def Curve.move (c : Curve α) (x : α) : Curve α where
  level := c.level + x
  peak := max c.peak (c.level + x)
  fall := max c.fall (max c.peak (c.level + x) - (c.level + x))

/-- A curve at its first point. -/
def Curve.start (level : α) : Curve α := ⟨level, level, 0⟩

/-- The curve after the steps. -/
structure Scanned (level : α) (steps : List α) (c : Curve α) : Prop where
  level_eq : c.level = level + steps.sum
  below : IsGreatest {d | ∃ run, run <:+ steps ∧ d = -run.sum} (c.peak - c.level)
  fall : IsGreatest (Falls steps) c.fall

theorem scanned_start (level : α) : Scanned level [] (Curve.start level) where
  level_eq := by simp [Curve.start]
  below := by simp [Curve.start, IsGreatest, upperBounds]
  fall := by simp [Curve.start, Falls, IsGreatest, upperBounds]

variable [IsOrderedAddMonoid α]

/-- The runs that end with the new step, and the empty one. -/
theorem Scanned.below_move {level : α} {steps : List α} {c : Curve α} (h : Scanned level steps c)
    (x : α) : IsGreatest {d | ∃ run, run <:+ steps ++ [x] ∧ d = -run.sum}
      ((c.move x).peak - (c.move x).level) := by
  have hmove : (c.move x).peak - (c.move x).level = max (c.peak - c.level - x) 0 := by
    show max c.peak (c.level + x) - (c.level + x) = _
    rw [← max_sub_sub_right, sub_self, sub_sub]
  rw [hmove]
  constructor
  · rcases max_choice (c.peak - c.level - x) 0 with hm | hm
    · rw [hm]
      obtain ⟨run, hrun, hd⟩ := h.below.1
      refine ⟨run ++ [x], List.suffix_concat_iff.mpr (Or.inr ⟨run, rfl, hrun⟩), ?_⟩
      rw [hd, List.sum_append, List.sum_singleton, neg_add, sub_eq_add_neg]
    · rw [hm]
      exact ⟨[], List.nil_suffix, by simp⟩
  · rintro d ⟨run, hrun, rfl⟩
    rcases List.suffix_concat_iff.mp hrun with rfl | ⟨run', rfl, hrun'⟩
    · simp
    · have hle := h.below.2 ⟨run', hrun', rfl⟩
      refine le_max_of_le_left ?_
      rw [List.sum_append, List.sum_singleton, neg_add, ← sub_eq_add_neg]
      exact sub_le_sub_right hle x

/-- One step more. -/
theorem Scanned.move {level : α} {steps : List α} {c : Curve α} (h : Scanned level steps c)
    (x : α) : Scanned level (steps ++ [x]) (c.move x) where
  level_eq := by
    show c.level + x = _
    rw [h.level_eq, List.sum_append, List.sum_singleton, add_assoc]
  below := h.below_move x
  fall := by
    have hbelow := h.below_move x
    have hfalls : Falls (steps ++ [x]) =
        Falls steps ∪ {d | ∃ run, run <:+ steps ++ [x] ∧ d = -run.sum} := by
      ext d
      simp only [Falls, Set.mem_union, Set.mem_ofPred_eq, List.infix_concat_iff, or_and_right,
        exists_or]
      exact or_comm
    rw [hfalls]
    exact h.fall.union hbelow

theorem scanned_foldl (level : α) (steps : List α) :
    Scanned level steps (steps.foldl Curve.move (Curve.start level)) := by
  induction steps using List.reverseRecOn with
  | nil => exact scanned_start level
  | append_singleton steps x ih =>
      rw [List.foldl_append]
      exact ih.move x

/-- A scan finds the largest fall. -/
theorem isGreatest_fall (level : α) (steps : List α) :
    IsGreatest (Falls steps) (steps.foldl Curve.move (Curve.start level)).fall :=
  (scanned_foldl level steps).fall

/-- The first step adds nothing to the largest fall where each opening run is matched later. -/
theorem greatest_falls_eq_iff {x later whole : α} {steps : List α}
    (hlater : IsGreatest (Falls steps) later) (hwhole : IsGreatest (Falls (x :: steps)) whole) :
    later = whole ↔
      ∀ opening, opening <+: x :: steps → ∃ run, run <:+: steps ∧ run.sum ≤ opening.sum := by
  constructor
  · intro heq opening hopening
    obtain ⟨run, hrun, hsum⟩ := hlater.1
    have hle : -opening.sum ≤ later := by
      rw [heq]
      exact hwhole.2 (mem_falls_cons.mpr (Or.inl ⟨opening, hopening, rfl⟩))
    rw [hsum] at hle
    exact ⟨run, hrun, neg_le_neg_iff.mp hle⟩
  · intro hmatched
    refine le_antisymm (hwhole.2 (mem_falls_cons.mpr (Or.inr hlater.1))) ?_
    rcases mem_falls_cons.mp hwhole.1 with ⟨opening, hopening, hsum⟩ | hmem
    · obtain ⟨run, hrun, hle⟩ := hmatched opening hopening
      rw [hsum]
      exact (neg_le_neg hle).trans (hlater.2 ⟨run, hrun, rfl⟩)
    · exact hlater.2 hmem

end SignalEngine.Lib
