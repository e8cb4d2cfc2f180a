/-
  Loops with a break, over any state and any list.

  `loopUntil step s xs` threads a state through `xs` and stops after the first step that
  reports `true`; its second component says whether the loop broke.

  Proved:
  * `loopUntil_append`, `loopUntil_append_of_broke`: a loop that broke on `xs` ends the same
    way on every extension of `xs` (prefix determinism).
  * `loopUntil_of_quiet`: elements that leave the state alone may be read again.
  * `loopUntil_rel`, `loopUntil_map`: the simulation rule for two loops over one list, for a
    relation of their states and for a function of one.
  * `loopUntil_invariant`, `loopUntil_invariant_mem`, `exists_break`: the invariant rule, and
    the element a loop broke at.
  * `foldlM_invariant`: the invariant rule for a fold whose steps may fail.
  * `loopUntil_split_of_broke`: the elements before the one a loop broke at do not break it.
  * `foldl_take_invariant`: the invariant rule for a run without a break whose steps meet a
    condition on the state before them.
  * `foldl_adds_iff`, `foldl_counts`: what a run holds whose steps each add something to a set,
    or count something.
-/
import Mathlib

namespace SignalEngine.Lib

universe u v w

variable {σ : Type u} {α : Type v}

/-- Run `step` over the list until it reports `true`. -/
def loopUntil (step : σ → α → σ × Bool) (s : σ) : List α → σ × Bool
  | [] => (s, false)
  | x :: xs => if (step s x).2 then step s x else loopUntil step (step s x).1 xs

theorem loopUntil_cons_of_break {step : σ → α → σ × Bool} {s : σ} {x : α}
    (h : (step s x).2 = true) (xs : List α) : loopUntil step s (x :: xs) = step s x := by
  simp [loopUntil, h]

theorem loopUntil_cons_of_pass {step : σ → α → σ × Bool} {s : σ} {x : α}
    (h : (step s x).2 = false) (xs : List α) :
    loopUntil step s (x :: xs) = loopUntil step (step s x).1 xs := by
  simp [loopUntil, h]

theorem loopUntil_append (step : σ → α → σ × Bool) (s : σ) (xs ys : List α) :
    loopUntil step s (xs ++ ys) =
      if (loopUntil step s xs).2 then loopUntil step s xs
      else loopUntil step (loopUntil step s xs).1 ys := by
  induction xs generalizing s with
  | nil => simp [loopUntil]
  | cons x xs ih =>
      cases h : (step s x).2 with
      | true => simp [loopUntil, h]
      | false =>
          rw [List.cons_append, loopUntil_cons_of_pass h, loopUntil_cons_of_pass h]
          exact ih _

/-- A loop that broke does not look at what follows. -/
theorem loopUntil_append_of_broke {step : σ → α → σ × Bool} {s : σ} {xs : List α}
    (h : (loopUntil step s xs).2 = true) (ys : List α) :
    loopUntil step s (xs ++ ys) = loopUntil step s xs := by
  rw [loopUntil_append, if_pos h]

theorem loopUntil_append_of_pass {step : σ → α → σ × Bool} {s : σ} {xs : List α}
    (h : (loopUntil step s xs).2 = false) (ys : List α) :
    loopUntil step s (xs ++ ys) = loopUntil step (loopUntil step s xs).1 ys := by
  rw [loopUntil_append, h]
  rfl

/-- Elements that neither change the state nor break the loop leave no mark. -/
theorem loopUntil_of_quiet {step : σ → α → σ × Bool} {s : σ} {xs : List α}
    (h : ∀ x ∈ xs, step s x = (s, false)) : loopUntil step s xs = (s, false) := by
  induction xs with
  | nil => rfl
  | cons x xs ih =>
      have hx := h x List.mem_cons_self
      have hpass : (step s x).2 = false := by rw [hx]
      rw [loopUntil_cons_of_pass hpass, hx]
      exact ih (fun y hy => h y (List.mem_cons_of_mem _ hy))

/-- The invariant rule: what the step on each element of the list keeps, broken or not, holds
    after the loop. -/
theorem loopUntil_invariant_mem {step : σ → α → σ × Bool} (P : σ → Prop) {xs : List α}
    (hstep : ∀ s, ∀ x ∈ xs, P s → P (step s x).1) {s : σ} (hs : P s) :
    P (loopUntil step s xs).1 := by
  induction xs generalizing s with
  | nil => exact hs
  | cons x xs ih =>
      have hnext := hstep s x List.mem_cons_self hs
      cases h : (step s x).2 with
      | true => rw [loopUntil_cons_of_break h]; exact hnext
      | false =>
          rw [loopUntil_cons_of_pass h]
          exact ih (fun t y hy => hstep t y (List.mem_cons_of_mem _ hy)) hnext

theorem loopUntil_invariant {step : σ → α → σ × Bool} (P : σ → Prop)
    (hstep : ∀ s x, P s → P (step s x).1) {s : σ} (hs : P s) (xs : List α) :
    P (loopUntil step s xs).1 :=
  loopUntil_invariant_mem P (fun t x _ => hstep t x) hs

/-- A loop that broke did so at some element, from a state its passing steps reach. -/
theorem exists_break {step : σ → α → σ × Bool} (P : σ → Prop)
    (hstep : ∀ s x, P s → (step s x).2 = false → P (step s x).1) {s : σ} (hs : P s)
    {xs : List α} (h : (loopUntil step s xs).2 = true) :
    ∃ x ∈ xs, ∃ s', P s' ∧ step s' x = loopUntil step s xs := by
  induction xs generalizing s with
  | nil => simp [loopUntil] at h
  | cons x xs ih =>
      cases hx : (step s x).2 with
      | true =>
          rw [loopUntil_cons_of_break hx]
          exact ⟨x, List.mem_cons_self, s, hs, rfl⟩
      | false =>
          rw [loopUntil_cons_of_pass hx] at h ⊢
          obtain ⟨y, hy, s', hs', heq⟩ := ih (hstep s x hs hx) h
          exact ⟨y, List.mem_cons_of_mem _ hy, s', hs', heq⟩

theorem loopUntil_split_of_broke {step : σ → α → σ × Bool} {s : σ} {xs : List α}
    (h : (loopUntil step s xs).2 = true) :
    ∃ pre x post, xs = pre ++ x :: post ∧ (loopUntil step s pre).2 = false ∧
      (step (loopUntil step s pre).1 x).2 = true ∧
      loopUntil step s xs = step (loopUntil step s pre).1 x := by
  induction xs generalizing s with
  | nil => cases h
  | cons x xs ih =>
      cases hx : (step s x).2 with
      | true => exact ⟨[], x, xs, rfl, rfl, hx, loopUntil_cons_of_break hx xs⟩
      | false =>
          rw [loopUntil_cons_of_pass hx] at h ⊢
          obtain ⟨pre, y, post, rfl, hpre, hy, heq⟩ := ih h
          refine ⟨x :: pre, y, post, rfl, ?_⟩
          rw [loopUntil_cons_of_pass hx]
          exact ⟨hpre, hy, heq⟩

/-- The simulation rule: steps that keep two states related and break together make two loops
    that end related. -/
theorem loopUntil_rel {τ : Type w} {step : σ → α → σ × Bool} {step' : τ → α → τ × Bool}
    {R : σ → τ → Prop}
    (hstep : ∀ s t x, R s t → R (step s x).1 (step' t x).1 ∧ (step s x).2 = (step' t x).2)
    {s : σ} {t : τ} (h : R s t) (xs : List α) :
    R (loopUntil step s xs).1 (loopUntil step' t xs).1 := by
  induction xs generalizing s t with
  | nil => exact h
  | cons x xs ih =>
      obtain ⟨hnext, hbreak⟩ := hstep s t x h
      cases hx : (step s x).2 with
      | true =>
          rw [loopUntil_cons_of_break hx, loopUntil_cons_of_break (hbreak ▸ hx)]
          exact hnext
      | false =>
          rw [loopUntil_cons_of_pass hx, loopUntil_cons_of_pass (hbreak ▸ hx)]
          exact ih hnext

/-- The rule for a map of the states that commutes with the step. -/
theorem loopUntil_map {τ : Type w} {step : σ → α → σ × Bool} {step' : τ → α → τ × Bool}
    {f : σ → τ} (hstep : ∀ s x, step' (f s) x = (f (step s x).1, (step s x).2)) (s : σ)
    (xs : List α) :
    loopUntil step' (f s) xs = (f (loopUntil step s xs).1, (loopUntil step s xs).2) := by
  induction xs generalizing s with
  | nil => rfl
  | cons x xs ih =>
      have hflag : (step' (f s) x).2 = (step s x).2 := by rw [hstep]
      cases hx : (step s x).2 with
      | true =>
          rw [loopUntil_cons_of_break hx, loopUntil_cons_of_break (hflag.trans hx)]
          exact hstep s x
      | false =>
          rw [loopUntil_cons_of_pass hx, loopUntil_cons_of_pass (hflag.trans hx), hstep]
          exact ih _

/-- The invariant rule for a fold whose steps may fail. -/
theorem foldlM_invariant {ε : Type w} {step : σ → α → Except ε σ} (P : σ → Prop)
    (hstep : ∀ s x s', P s → step s x = .ok s' → P s') {s s' : σ} (hs : P s) {xs : List α}
    (h : xs.foldlM step s = .ok s') : P s' := by
  induction xs generalizing s with
  | nil =>
      cases h
      exact hs
  | cons x xs ih =>
      rw [List.foldlM_cons] at h
      cases hx : step s x with
      | error e =>
          rw [hx] at h
          cases h
      | ok t =>
          rw [hx] at h
          exact ih (hstep s x t hs hx) h

/-! ## Runs without a break -/

theorem foldl_take_succ (step : σ → α → σ) (s : σ) {xs : List α} {n : ℕ} (hn : n < xs.length) :
    (xs.take (n + 1)).foldl step s = step ((xs.take n).foldl step s) xs[n] := by
  rw [← List.take_append_getElem hn, List.foldl_append]
  rfl

/-- Where every step adds what its element brings, a run adds what some element brings. -/
theorem foldl_adds_iff {step : σ → α → σ} (In : σ → Prop) (Adds : α → Prop)
    (hstep : ∀ s x, In (step s x) ↔ In s ∨ Adds x) (s : σ) (xs : List α) :
    In (xs.foldl step s) ↔ In s ∨ ∃ x ∈ xs, Adds x := by
  induction xs generalizing s with
  | nil => simp
  | cons x xs ih => rw [List.foldl_cons, ih, hstep, List.exists_mem_cons_iff, or_assoc]

/-- Where every step counts its element if it is selected, a run counts the selected ones. -/
theorem foldl_counts {step : σ → α → σ} (count : σ → ℕ) (p : α → Bool)
    (hstep : ∀ s x, count (step s x) = count s + if p x then 1 else 0) (s : σ) (xs : List α) :
    count (xs.foldl step s) = count s + xs.countP p := by
  induction xs generalizing s with
  | nil => rfl
  | cons x xs ih => rw [List.foldl_cons, ih, hstep, List.countP_cons, Nat.add_assoc,
      Nat.add_comm (if p x then 1 else 0)]

/-- What the steps that meet a condition keep, a run of such steps keeps throughout. -/
theorem foldl_take_invariant {step : σ → α → σ} {Ok : σ → α → Prop} (P : σ → Prop)
    (hstep : ∀ s x, P s → Ok s x → P (step s x)) {s : σ} (hs : P s) {xs : List α}
    (hok : ∀ n, (hn : n < xs.length) → Ok ((xs.take n).foldl step s) xs[n]) (n : ℕ) :
    P ((xs.take n).foldl step s) := by
  induction n with
  | zero => exact hs
  | succ n ih =>
      by_cases hn : n < xs.length
      · rw [foldl_take_succ step s hn]
        exact hstep _ _ ih (hok n hn)
      · rw [List.take_of_length_le (by omega)] at ih ⊢
        exact ih

end SignalEngine.Lib
