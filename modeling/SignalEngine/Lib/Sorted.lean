/-
  Bisection in lists sorted by a key, over any linear order of keys.

  `bisectRight key xs x` counts the leading elements with key at most `x`, `bisectLeft` those
  with key below `x`; on a sorted list these are the insertion points of a binary search.

  Proved: on a sorted list the elements before the insertion point are the ones the key
  condition selects, the elements after it are the others (`take_bisectRight`,
  `drop_bisectRight`), those between two insertion points have keys between the bounds
  (`slice_bisect`), and cutting the list at a bound keeps the smaller insertion points
  (`bisectLeft_filter`). Insertion sort is stable: `pairwise_insertionSort_stable`.
-/
import Mathlib

namespace SignalEngine.Lib

universe u v

variable {α : Type u} {κ : Type v} [LinearOrder κ] {key : α → κ}

def bisectRight (key : α → κ) (xs : List α) (x : κ) : ℕ :=
  (xs.takeWhile (fun a => decide (key a ≤ x))).length

def bisectLeft (key : α → κ) (xs : List α) (x : κ) : ℕ :=
  (xs.takeWhile (fun a => decide (key a < x))).length

/-- Sorted by a key, equal keys allowed. -/
def SortedBy (key : α → κ) (xs : List α) : Prop :=
  xs.Pairwise (fun a b => key a ≤ key b)

theorem take_takeWhile_length (p : α → Bool) (xs : List α) :
    xs.take (xs.takeWhile p).length = xs.takeWhile p := by
  induction xs with
  | nil => rfl
  | cons a xs ih => cases h : p a <;> simp [h, ih]

theorem drop_takeWhile_length (p : α → Bool) (xs : List α) :
    xs.drop (xs.takeWhile p).length = xs.dropWhile p := by
  induction xs with
  | nil => rfl
  | cons a xs ih => cases h : p a <;> simp [h, ih]

/-- A condition that never comes back after failing selects a prefix. -/
theorem takeWhile_eq_filter {p : α → Bool} {xs : List α}
    (h : xs.Pairwise (fun a b => p b = true → p a = true)) : xs.takeWhile p = xs.filter p := by
  induction xs with
  | nil => rfl
  | cons a xs ih =>
      obtain ⟨ha, hxs⟩ := List.pairwise_cons.mp h
      cases hp : p a with
      | true => rw [List.takeWhile_cons_of_pos hp, List.filter_cons_of_pos hp, ih hxs]
      | false =>
          have hnone : xs.filter p = [] := by
            rw [List.filter_eq_nil_iff]
            intro b hb hpb
            rw [ha b hb hpb] at hp
            cases hp
          rw [List.takeWhile_cons_of_neg (by simp [hp]), List.filter_cons_of_neg (by simp [hp]),
            hnone]

theorem dropWhile_eq_filter {p : α → Bool} {xs : List α}
    (h : xs.Pairwise (fun a b => p b = true → p a = true)) :
    xs.dropWhile p = xs.filter (fun a => !p a) := by
  induction xs with
  | nil => rfl
  | cons a xs ih =>
      obtain ⟨ha, hxs⟩ := List.pairwise_cons.mp h
      cases hp : p a with
      | true =>
          rw [List.dropWhile_cons_of_pos hp, List.filter_cons_of_neg (by simp [hp]), ih hxs]
      | false =>
          have hall : xs.filter (fun a => !p a) = xs := by
            rw [List.filter_eq_self]
            intro b hb
            cases hpb : p b with
            | false => rfl
            | true => rw [ha b hb hpb] at hp; cases hp
          rw [List.dropWhile_cons_of_neg (by simp [hp]), List.filter_cons_of_pos (by simp [hp]),
            hall]

theorem SortedBy.le_closed {xs : List α} (h : SortedBy key xs) (x : κ) :
    xs.Pairwise (fun a b => decide (key b ≤ x) = true → decide (key a ≤ x) = true) :=
  h.imp (fun hab hb => by simpa using hab.trans (of_decide_eq_true hb))

theorem take_bisectRight {xs : List α} (h : SortedBy key xs) (x : κ) :
    xs.take (bisectRight key xs x) = xs.filter (fun a => decide (key a ≤ x)) := by
  rw [bisectRight, take_takeWhile_length, takeWhile_eq_filter (h.le_closed x)]

theorem drop_bisectRight {xs : List α} (h : SortedBy key xs) (x : κ) :
    xs.drop (bisectRight key xs x) = xs.filter (fun a => decide (x < key a)) := by
  rw [bisectRight, drop_takeWhile_length, dropWhile_eq_filter (h.le_closed x)]
  congr 1
  funext a
  rw [← decide_not, decide_eq_decide]
  exact not_le

/-- A sorted list is what lies up to `x`, then the rest. -/
theorem SortedBy.filter_append_filter {xs : List α} (h : SortedBy key xs) (x : κ) :
    xs.filter (fun a => decide (key a ≤ x)) ++ xs.filter (fun a => decide (x < key a)) = xs := by
  rw [← take_bisectRight h, ← drop_bisectRight h, List.take_append_drop]

/-- Two sorted lists with the same elements up to `b` have the same elements up to `x ≤ b`. -/
theorem take_bisectRight_of_filter {xs ys : List α} (hxs : SortedBy key xs)
    (hys : SortedBy key ys) {x b : κ} (hx : x ≤ b)
    (heq : xs.filter (fun a => decide (key a ≤ b)) = ys.filter (fun a => decide (key a ≤ b))) :
    xs.take (bisectRight key xs x) = ys.take (bisectRight key ys x) := by
  have hcut : ∀ zs : List α, zs.filter (fun a => decide (key a ≤ x)) =
      (zs.filter (fun a => decide (key a ≤ b))).filter (fun a => decide (key a ≤ x)) := by
    intro zs
    rw [List.filter_filter]
    refine List.filter_congr fun a _ => ?_
    rw [Bool.eq_iff_iff]
    simp only [Bool.and_eq_true, decide_eq_true_eq]
    exact ⟨fun h => ⟨h, h.trans hx⟩, fun h => h.1⟩
  rw [take_bisectRight hxs, take_bisectRight hys, hcut xs, hcut ys, heq]

theorem length_take_bisectRight (xs : List α) (x : κ) :
    (xs.take (bisectRight key xs x)).length = bisectRight key xs x := by
  rw [bisectRight, take_takeWhile_length]

theorem bisectRight_mono {xs : List α} (h : SortedBy key xs) {x y : κ} (hxy : x ≤ y) :
    bisectRight key xs x ≤ bisectRight key xs y := by
  rw [bisectRight, bisectRight, takeWhile_eq_filter (h.le_closed x),
    takeWhile_eq_filter (h.le_closed y)]
  refine (List.monotone_filter_right xs fun a ha => ?_).length_le
  exact decide_eq_true ((of_decide_eq_true ha).trans hxy)

theorem lt_bisectRight {xs : List α} (h : SortedBy key xs) {i : ℕ} {a : α}
    (ha : xs[i]? = some a) : i < bisectRight key xs (key a) := by
  by_contra hle
  have hmem : a ∈ xs.drop (bisectRight key xs (key a)) := by
    refine List.mem_of_getElem? (i := i - bisectRight key xs (key a)) ?_
    rw [List.getElem?_drop, Nat.add_sub_cancel' (not_lt.mp hle), ha]
  rw [drop_bisectRight h] at hmem
  exact lt_irrefl _ (of_decide_eq_true (List.mem_filter.mp hmem).2)

theorem SortedBy.filter {xs : List α} (h : SortedBy key xs) (p : α → Bool) :
    SortedBy key (xs.filter p) :=
  List.Pairwise.filter p h

/-- Cutting a sorted list at `b` moves the insertion point of `x` to the cut at most. -/
theorem bisectLeft_filter {xs : List α} (h : SortedBy key xs) (x b : κ) :
    bisectLeft key (xs.filter (fun a => decide (key a ≤ b))) x =
      min (bisectLeft key xs x) (bisectRight key xs b) := by
  induction xs with
  | nil => rfl
  | cons a xs ih =>
      obtain ⟨ha, hxs⟩ := List.pairwise_cons.mp h
      by_cases hab : key a ≤ b
      · rw [List.filter_cons_of_pos (by simpa using hab)]
        by_cases hax : key a < x
        · have := ih hxs
          simp only [bisectLeft, bisectRight] at this ⊢
          rw [List.takeWhile_cons_of_pos (by simpa using hax),
            List.takeWhile_cons_of_pos (by simpa using hax),
            List.takeWhile_cons_of_pos (by simpa using hab)]
          simp only [List.length_cons]
          omega
        · simp [bisectLeft, List.takeWhile_cons_of_neg (p := fun a => decide (key a < x))
            (by simpa using hax)]
      · have hnone : xs.filter (fun a => decide (key a ≤ b)) = [] := by
          rw [List.filter_eq_nil_iff]
          intro c hc hcb
          exact hab ((ha c hc).trans (of_decide_eq_true hcb))
        rw [List.filter_cons_of_neg (by simpa using hab), hnone]
        simp [bisectLeft, bisectRight, List.takeWhile_cons_of_neg
          (p := fun a => decide (key a ≤ b)) (by simpa using hab)]

/-- The elements between two insertion points are those with keys between the bounds. -/
theorem slice_bisect {xs : List α} (h : SortedBy key xs) (a b : κ) :
    (xs.take (bisectRight key xs b)).drop (bisectLeft key xs a) =
      xs.filter (fun c => decide (a ≤ key c ∧ key c ≤ b)) := by
  have hcut : SortedBy key (xs.filter (fun c => decide (key c ≤ b))) := h.filter _
  have hlt : (xs.filter (fun c => decide (key c ≤ b))).Pairwise
      (fun c d => decide (key d < a) = true → decide (key c < a) = true) :=
    hcut.imp (fun hcd hd => by simpa using hcd.trans_lt (of_decide_eq_true hd))
  have hlen : (xs.filter (fun c => decide (key c ≤ b))).length = bisectRight key xs b := by
    rw [← take_bisectRight h, length_take_bisectRight]
  have hdrop : (xs.filter (fun c => decide (key c ≤ b))).drop (bisectLeft key xs a) =
      (xs.filter (fun c => decide (key c ≤ b))).drop
        (bisectLeft key (xs.filter (fun c => decide (key c ≤ b))) a) := by
    rw [bisectLeft_filter h]
    rcases le_total (bisectLeft key xs a) (bisectRight key xs b) with hle | hle
    · rw [min_eq_left hle]
    · rw [min_eq_right hle, List.drop_eq_nil_of_le (hlen.trans_le hle),
        List.drop_eq_nil_of_le hlen.le]
  rw [take_bisectRight h, hdrop, bisectLeft, drop_takeWhile_length, dropWhile_eq_filter hlt,
    List.filter_filter]
  refine List.filter_congr fun c _ => ?_
  rw [← decide_not, ← Bool.decide_and, decide_eq_decide, not_lt]

theorem SortedBy.le_getLast {xs : List α} (h : SortedBy key xs) {a b : α}
    (hlast : xs.getLast? = some b) (ha : a ∈ xs) : key a ≤ key b := by
  obtain ⟨ys, rfl⟩ := List.getLast?_eq_some_iff.mp hlast
  rcases List.mem_append.mp ha with ha | ha
  · exact (List.pairwise_append.mp h).2.2 a ha b (List.mem_singleton.mpr rfl)
  · rw [List.mem_singleton.mp ha]

/-! ## Stable sorting -/

/-- Sorted by the key, and by `R` where the keys are equal. -/
def SortedThen (key : α → κ) (R : α → α → Prop) (xs : List α) : Prop :=
  xs.Pairwise (fun a b => key a < key b ∨ key a = key b ∧ R a b)

theorem SortedThen.orderedInsert {R : α → α → Prop} {a : α} {xs : List α}
    (h : SortedThen key R xs) (ha : ∀ b ∈ xs, R a b) :
    SortedThen key R (xs.orderedInsert (fun b c => key b ≤ key c) a) := by
  induction xs with
  | nil => exact List.pairwise_singleton _ a
  | cons b xs ih =>
      obtain ⟨hb, hxs⟩ := List.pairwise_cons.mp h
      by_cases hab : key a ≤ key b
      · rw [List.orderedInsert_cons, if_pos hab]
        refine List.pairwise_cons.mpr ⟨fun c hc => ?_, h⟩
        have hbc : key b ≤ key c := by
          rcases List.mem_cons.mp hc with rfl | hc
          · exact le_refl _
          · rcases hb c hc with hlt | ⟨heq, _⟩
            · exact hlt.le
            · exact heq.le
        rcases (hab.trans hbc).lt_or_eq with hlt | heq
        · exact Or.inl hlt
        · exact Or.inr ⟨heq, ha c hc⟩
      · rw [List.orderedInsert_cons, if_neg hab]
        refine List.pairwise_cons.mpr ⟨fun c hc => ?_, ih hxs fun c hc => ha c (.tail b hc)⟩
        rcases (List.mem_orderedInsert _).mp hc with rfl | hc
        · exact Or.inl (not_le.mp hab)
        · exact hb c hc

/-- Elements with equal keys stay in the order they had. -/
theorem pairwise_insertionSort_stable {R : α → α → Prop} {xs : List α} (h : xs.Pairwise R) :
    SortedThen key R (xs.insertionSort (fun a b => key a ≤ key b)) := by
  induction xs with
  | nil => exact List.Pairwise.nil
  | cons a xs ih =>
      obtain ⟨ha, hxs⟩ := List.pairwise_cons.mp h
      refine (ih hxs).orderedInsert fun b hb => ha b ?_
      exact (List.mem_insertionSort _).mp hb

end SignalEngine.Lib
