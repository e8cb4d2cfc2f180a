/-
  Custody: a shared list of which each owner holds at most one entry.

  `InCustody base items holder` says that `items` is `base` and then entries with a holder each.

  Proved: acquiring a new entry and releasing a held one keep it (`InCustody.acquire`,
  `InCustody.release`); nothing but `base` is left once nobody holds anything
  (`InCustody.eq_of_idle`); and where a class has one holder at most, it has one entry at most
  (`InCustody.countP_le_one`).
-/
import Mathlib

namespace SignalEngine.Lib

universe u v w

variable {ι : Type u} {α : Type v} {base items : List α} {holder holder' : ι → Option α}

/-- Behind `base`, every entry of the list is there once and has a holder. -/
def InCustody (base items : List α) (holder : ι → Option α) : Prop :=
  ∃ taken, items = base ++ taken ∧ taken.Nodup ∧ ∀ a ∈ taken, ∃ i, holder i = some a

theorem inCustody_base (base : List α) (holder : ι → Option α) : InCustody base base holder :=
  ⟨[], (List.append_nil base).symm, List.nodup_nil, by simp⟩

theorem InCustody.of_holder (h : InCustody base items holder)
    (hholder : ∀ i a, holder i = some a → holder' i = some a) : InCustody base items holder' := by
  obtain ⟨taken, rfl, hnodup, hheld⟩ := h
  refine ⟨taken, rfl, hnodup, fun a ha => ?_⟩
  obtain ⟨i, hi⟩ := hheld a ha
  exact ⟨i, hholder i a hi⟩

/-- An owner with empty hands takes a new entry. -/
theorem InCustody.acquire (h : InCustody base items holder) {i : ι} {a : α} (ha : a ∉ items)
    (hi : holder' i = some a) (hothers : ∀ j b, holder j = some b → holder' j = some b) :
    InCustody base (items ++ [a]) holder' := by
  obtain ⟨taken, rfl, hnodup, hheld⟩ := h
  rw [List.mem_append, not_or] at ha
  have hnodup' : (taken ++ [a]).Nodup := by
    rw [← List.concat_eq_append]
    exact hnodup.concat ha.2
  refine ⟨taken ++ [a], List.append_assoc _ _ _, hnodup', fun b hb => ?_⟩
  rw [List.mem_append, List.mem_singleton] at hb
  rcases hb with hb | rfl
  · obtain ⟨j, hj⟩ := hheld b hb
    exact ⟨j, hothers j b hj⟩
  · exact ⟨i, hi⟩

/-- An owner gives its entry back. -/
theorem InCustody.release [DecidableEq α] (h : InCustody base items holder) {i : ι} {a : α}
    (hi : holder i = some a) (ha : a ∉ base)
    (hothers : ∀ j b, j ≠ i → holder j = some b → holder' j = some b) :
    InCustody base (items.erase a) holder' := by
  obtain ⟨taken, rfl, hnodup, hheld⟩ := h
  refine ⟨taken.erase a, List.erase_append_right _ ha, hnodup.erase a, fun b hb => ?_⟩
  rw [hnodup.mem_erase_iff] at hb
  obtain ⟨j, hj⟩ := hheld b hb.2
  refine ⟨j, hothers j b (fun hji => hb.1 ?_) hj⟩
  rw [hji, hi] at hj
  exact (Option.some.inj hj).symm

theorem InCustody.eq_of_idle (h : InCustody base items holder) (hidle : ∀ i, holder i = none) :
    items = base := by
  obtain ⟨taken, rfl, -, hheld⟩ := h
  have hnil : taken = [] := by
    rw [List.eq_nil_iff_forall_not_mem]
    intro a ha
    obtain ⟨i, hi⟩ := hheld a ha
    rw [hidle i] at hi
    cases hi
  rw [hnil, List.append_nil]

/-- A class none of whose entries is in `base`, and none of whose owners hold different ones, has
    one entry at most. -/
theorem InCustody.countP_le_one (h : InCustody base items holder) {p : α → Bool}
    (hbase : ∀ a ∈ base, p a = false)
    (hone : ∀ i j a b, holder i = some a → holder j = some b → p a = true → p b = true → i = j) :
    items.countP p ≤ 1 := by
  obtain ⟨taken, rfl, hnodup, hheld⟩ := h
  have hzero : base.countP p = 0 := by
    rw [List.countP_eq_zero]
    intro a ha
    rw [hbase a ha]
    exact Bool.false_ne_true
  rw [List.countP_append, hzero, Nat.zero_add, List.countP_eq_length_filter]
  cases hclass : taken.filter p with
  | nil => exact Nat.zero_le 1
  | cons a rest =>
      cases rest with
      | nil => exact le_refl 1
      | cons b rest =>
          have hpair := hnodup.filter p
          have hmem : ∀ x ∈ taken.filter p, x ∈ taken ∧ p x = true := fun x hx =>
            List.mem_filter.mp hx
          rw [hclass] at hpair hmem
          obtain ⟨ha, hpa⟩ := hmem a List.mem_cons_self
          obtain ⟨hb, hpb⟩ := hmem b (List.mem_cons_of_mem a List.mem_cons_self)
          obtain ⟨i, hi⟩ := hheld a ha
          obtain ⟨j, hj⟩ := hheld b hb
          have hij : i = j := hone i j a b hi hj hpa hpb
          rw [hij, hj] at hi
          have hab : a ≠ b := (List.pairwise_cons.mp hpair).1 b List.mem_cons_self
          exact absurd (Option.some.inj hi).symm hab

end SignalEngine.Lib
