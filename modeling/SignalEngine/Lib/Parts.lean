/-
  One part of an indexed list: the entries that meet a condition, among themselves.

  `xs.countPBefore p t` is the place of the entry `t` among the entries of `xs` that meet `p`.

  Proved:
  * `getElem?_filter_countPBefore`: an entry of the part stands there at its place.
  * `filter_set_of_pos`, `filter_set_of_neg`: a change of an entry is a change at its place, or
    none at all.
  * `countPBefore_set`, `countPBefore_append_of_le`: no place moves when an entry changes within
    its part, or when entries are added at the end.
  * `countPBefore_inj`: two entries of the part have two places.
  * `filterMap_or_perm`: a part taken together with another one that is apart from it.
  * `map_erase_of_inj`: erasing before or after a renaming that tells the entry from the others.
-/
import Mathlib

namespace SignalEngine.Lib

variable {α : Type*} {p : α → Bool} {xs : List α} {x y : α} {t : ℕ}

theorem getElem?_filter_countPBefore (hx : xs[t]? = some x) (hp : p x = true) :
    (xs.filter p)[xs.countPBefore p t]? = some x := by
  induction xs generalizing t with
  | nil => cases hx
  | cons a xs ih => cases t <;> grind

theorem filter_set_of_pos (hx : xs[t]? = some x) (hp : p x = true) (hy : p y = true) :
    (xs.set t y).filter p = (xs.filter p).set (xs.countPBefore p t) y := by
  induction xs generalizing t with
  | nil => cases hx
  | cons a xs ih => cases t <;> grind

theorem filter_set_of_neg (hx : xs[t]? = some x) (hp : p x = false) (hy : p y = false) :
    (xs.set t y).filter p = xs.filter p := by
  induction xs generalizing t with
  | nil => cases hx
  | cons a xs ih => cases t <;> grind

theorem countPBefore_set (hx : xs[t]? = some x) (hy : p y = p x) (i : ℕ) :
    (xs.set t y).countPBefore p i = xs.countPBefore p i := by
  induction xs generalizing t i with
  | nil => cases hx
  | cons a xs ih => cases t <;> cases i <;> grind

theorem countPBefore_append_of_le (ys : List α) (h : t ≤ xs.length) :
    (xs ++ ys).countPBefore p t = xs.countPBefore p t := by
  rw [List.countPBefore_eq_countP_take, List.countPBefore_eq_countP_take,
    List.take_append_of_le_length h]

theorem countPBefore_inj {i : ℕ} (hx : xs[t]? = some x) (hp : p x = true) (hy : xs[i]? = some y)
    (hq : p y = true) (h : xs.countPBefore p t = xs.countPBefore p i) : t = i := by
  obtain ⟨ht, rfl⟩ := List.getElem?_eq_some_iff.mp hx
  obtain ⟨hi, rfl⟩ := List.getElem?_eq_some_iff.mp hy
  rw [← List.findIdxNth_countPBefore_of_lt_length_of_pos hp, h,
    List.findIdxNth_countPBefore_of_lt_length_of_pos hq]

theorem two_le_length_of_ne (hx : x ∈ xs) (hy : y ∈ xs) (hne : x ≠ y) : 2 ≤ xs.length := by
  obtain _ | ⟨a, _ | ⟨a', rest⟩⟩ := xs
  · cases hx
  · exact absurd ((List.mem_singleton.mp hx).trans (List.mem_singleton.mp hy).symm) hne
  · simp

theorem filterMap_or_perm {β : Type*} {f g : α → Option β}
    (h : ∀ a ∈ xs, (f a).isSome → g a = none) :
    (xs.filterMap fun a => (f a).or (g a)).Perm (xs.filterMap f ++ xs.filterMap g) := by
  induction xs with
  | nil => exact List.Perm.nil
  | cons a xs ih =>
      have hrest := ih fun y hy => h y (List.mem_cons_of_mem _ hy)
      have hapart := h a List.mem_cons_self
      rw [List.filterMap_cons, List.filterMap_cons, List.filterMap_cons]
      cases hf : f a with
      | some y =>
          rw [hapart (by rw [hf]; rfl), Option.some_or]
          exact hrest.cons y
      | none =>
          rw [Option.none_or]
          cases g a with
          | none => exact hrest
          | some y => exact (hrest.cons y).trans List.perm_middle.symm

theorem map_erase_of_inj {β : Type*} [BEq α] [LawfulBEq α] [BEq β] [LawfulBEq β] {f : α → β}
    (h : ∀ a ∈ xs, f a = f x → a = x) : (xs.erase x).map f = (xs.map f).erase (f x) := by
  induction xs with
  | nil => rfl
  | cons a xs ih =>
      rw [List.map_cons, List.erase_cons, List.erase_cons]
      by_cases ha : a = x
      · rw [if_pos (beq_iff_eq.mpr ha), if_pos (beq_iff_eq.mpr (congrArg f ha))]
      · have hf : f a ≠ f x := fun heq => ha (h a List.mem_cons_self heq)
        rw [if_neg (beq_iff_eq.not.mpr ha), if_neg (beq_iff_eq.not.mpr hf), List.map_cons,
          ih fun b hb => h b (List.mem_cons_of_mem _ hb)]

end SignalEngine.Lib
