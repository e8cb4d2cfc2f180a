/-
  Runs: the maximal runs of `true` in a list of booleans.

  `MaximalRun xs i n` says that the `n` entries from `i` on are a run of `true` that cannot be
  made longer on either side. `runs` lists such runs by a scan that carries the length of the
  run it is in: `mem_runs` (it lists each of them and nothing else), `pairwise_runs` (in their
  order, a gap between any two), `sum_runs` (together they are all entries that are `true`).
  Another scan is compared with `runsFrom` by induction on the list, from any open run.
-/
import Mathlib

namespace SignalEngine.Lib

/-- A run of `true` from `start` on, as long as it goes on both sides. -/
structure MaximalRun (xs : List Bool) (start n : ℕ) : Prop where
  pos : 0 < n
  inside : ∀ j, start ≤ j → j < start + n → xs[j]? = some true
  after : xs[start + n]? ≠ some true
  before : ∀ j, j + 1 = start → xs[j]? ≠ some true

/-- The run of length `cur` that ends before `k`, if it is one. -/
def closeRun (k cur : ℕ) : List (ℕ × ℕ) := if cur = 0 then [] else [(k - cur, cur)]

/-- The runs that end at `k` or later, where `cur` entries before `k` are in the open run. -/
def runsFrom : ℕ → ℕ → List Bool → List (ℕ × ℕ)
  | k, cur, [] => closeRun k cur
  | k, cur, true :: xs => runsFrom (k + 1) (cur + 1) xs
  | k, cur, false :: xs => closeRun k cur ++ runsFrom (k + 1) 0 xs

/-- The start and the length of each run. -/
def runs (xs : List Bool) : List (ℕ × ℕ) := runsFrom 0 0 xs

@[simp] theorem closeRun_zero (k : ℕ) : closeRun k 0 = [] := rfl

theorem closeRun_pos {k cur : ℕ} (h : 0 < cur) : closeRun k cur = [(k - cur, cur)] :=
  if_neg h.ne'

theorem mem_closeRun {k cur i n : ℕ} :
    (i, n) ∈ closeRun k cur ↔ 0 < cur ∧ i = k - cur ∧ n = cur := by
  unfold closeRun
  split_ifs with h
  · simp [h]
  · simp [Nat.pos_of_ne_zero h]

/-! ## The runs that are listed -/

/-- The last `cur` entries are `true`, the one before them is not. -/
structure Trailing (pre : List Bool) (cur : ℕ) : Prop where
  le : cur ≤ pre.length
  inside : ∀ j, pre.length ≤ j + cur → j < pre.length → pre[j]? = some true
  before : ∀ j, j + 1 + cur = pre.length → pre[j]? ≠ some true

theorem trailing_nil : Trailing [] 0 where
  le := le_rfl
  inside := fun j _ h => absurd h (Nat.not_lt_zero j)
  before := fun j h => by simp at h

theorem Trailing.concat_true {pre : List Bool} {cur : ℕ} (h : Trailing pre cur) :
    Trailing (pre ++ [true]) (cur + 1) := by
  have hlen : (pre ++ [true]).length = pre.length + 1 := by simp
  refine ⟨by have := h.le; omega, fun j hj hlt => ?_, fun j hj => ?_⟩
  · by_cases hlast : j < pre.length
    · rw [List.getElem?_append_left hlast]
      exact h.inside j (by omega) hlast
    · have : j = pre.length := by omega
      rw [this, List.getElem?_concat_length]
  · rw [List.getElem?_append_left (by omega)]
    exact h.before j (by omega)

theorem trailing_concat_false (pre : List Bool) : Trailing (pre ++ [false]) 0 where
  le := Nat.zero_le _
  inside := fun j hj hlt => absurd hj (by omega)
  before := fun j hj => by
    have : j = pre.length := by simp at hj; omega
    rw [this, List.getElem?_concat_length]
    simp

/-- The run that ends where the entries read so far do. -/
theorem maximalRun_ending {pre : List Bool} (rest : List Bool) {cur i n : ℕ}
    (h : Trailing pre cur) (hrest : rest[0]? ≠ some true) :
    MaximalRun (pre ++ rest) i n ∧ i + n = pre.length ↔ (i, n) ∈ closeRun pre.length cur := by
  have hle := h.le
  have hpre : ∀ j, j < pre.length → (pre ++ rest)[j]? = pre[j]? := fun j hj =>
    List.getElem?_append_left hj
  rw [mem_closeRun]
  constructor
  · rintro ⟨hrun, hend⟩
    have hpos := hrun.pos
    -- the run is not shorter than the trailing one, nor longer
    have hge : cur ≤ n := by
      by_contra hlt
      have hb := hrun.before (i - 1) (by omega)
      rw [hpre _ (by omega)] at hb
      exact hb (h.inside (i - 1) (by omega) (by omega))
    have hle' : n ≤ cur := by
      by_contra hlt
      have hin := hrun.inside (pre.length - cur - 1) (by omega) (by omega)
      rw [hpre _ (by omega)] at hin
      exact h.before (pre.length - cur - 1) (by omega) hin
    omega
  · rintro ⟨hpos, rfl, rfl⟩
    refine ⟨⟨hpos, fun j hj hlt => ?_, ?_, fun j hj => ?_⟩, by omega⟩
    · rw [hpre j (by omega)]
      exact h.inside j (by omega) (by omega)
    · rw [Nat.sub_add_cancel hle, List.getElem?_append_right le_rfl, Nat.sub_self]
      exact hrest
    · rw [hpre j (by omega)]
      exact h.before j (by omega)

theorem mem_runsFrom {xs pre : List Bool} {cur i n : ℕ} (h : Trailing pre cur) :
    (i, n) ∈ runsFrom pre.length cur xs ↔
      MaximalRun (pre ++ xs) i n ∧ pre.length ≤ i + n := by
  induction xs generalizing pre cur with
  | nil =>
      rw [runsFrom, ← maximalRun_ending [] h (by simp)]
      -- no run goes on past the end of the list
      refine and_congr_right fun hrun => ⟨fun he => he.ge, fun he => ?_⟩
      have hpos := hrun.pos
      have hlast := hrun.inside (i + n - 1) (by omega) (by omega)
      have := (List.getElem?_eq_some_iff.mp hlast).1
      simp at this
      omega
  | cons x xs ih =>
      have hassoc : pre ++ x :: xs = pre ++ [x] ++ xs := by simp
      have hlen : pre.length + 1 = (pre ++ [x]).length := by simp
      cases x with
      | true =>
          rw [runsFrom, hlen, ih h.concat_true, hassoc, ← hlen]
          refine and_congr_right fun hrun => ⟨fun he => by omega, fun he => ?_⟩
          by_contra hlt
          have hend := hrun.after
          rw [show i + n = pre.length by omega, ← hassoc,
            List.getElem?_append_right le_rfl] at hend
          simp at hend
      | false =>
          rw [runsFrom, List.mem_append,
            ← maximalRun_ending (false :: xs) h (by simp), hlen,
            ih (trailing_concat_false pre), ← hassoc, ← and_or_left, ← hlen]
          refine and_congr_right fun _ => ?_
          omega

/-- Each maximal run is listed, and nothing else. -/
theorem mem_runs {xs : List Bool} {i n : ℕ} : (i, n) ∈ runs xs ↔ MaximalRun xs i n := by
  have h : (i, n) ∈ runsFrom [].length 0 xs ↔ MaximalRun ([] ++ xs) i n ∧ [].length ≤ i + n :=
    mem_runsFrom trailing_nil
  simpa [runs] using h

/-! ## Their order -/

theorem le_of_mem_runsFrom {xs : List Bool} {k cur i n : ℕ} (hcur : cur ≤ k)
    (h : (i, n) ∈ runsFrom k cur xs) : k ≤ i + cur := by
  induction xs generalizing k cur with
  | nil =>
      obtain ⟨-, rfl, rfl⟩ := mem_closeRun.mp h
      omega
  | cons x xs ih =>
      cases x with
      | true =>
          have := ih (by omega) h
          omega
      | false =>
          rcases List.mem_append.mp h with h | h
          · obtain ⟨-, rfl, rfl⟩ := mem_closeRun.mp h
            omega
          · have := ih (by omega) h
            omega

theorem pairwise_runsFrom (xs : List Bool) {k cur : ℕ} (hcur : cur ≤ k) :
    (runsFrom k cur xs).Pairwise fun a b => a.1 + a.2 < b.1 := by
  induction xs generalizing k cur with
  | nil =>
      unfold runsFrom closeRun
      split_ifs <;> simp
  | cons x xs ih =>
      cases x with
      | true => exact ih (by omega)
      | false =>
          refine List.pairwise_append.mpr ⟨?_, ih (by omega), ?_⟩
          · unfold closeRun
            split_ifs <;> simp
          · rintro ⟨i, n⟩ ha ⟨j, m⟩ hb
            have hclosed := mem_closeRun.mp ha
            have hlater := le_of_mem_runsFrom (Nat.zero_le _) hb
            show i + n < j
            omega

/-- The runs are listed from left to right. -/
theorem pairwise_runs (xs : List Bool) : (runs xs).Pairwise fun a b => a.1 + a.2 < b.1 :=
  pairwise_runsFrom xs le_rfl

/-! ## Their lengths -/

theorem sum_closeRun (k cur : ℕ) : ((closeRun k cur).map (·.2)).sum = cur := by
  unfold closeRun
  split_ifs with h <;> simp [h]

theorem sum_runsFrom (xs : List Bool) (k cur : ℕ) :
    ((runsFrom k cur xs).map (·.2)).sum = cur + xs.count true := by
  induction xs generalizing k cur with
  | nil => simp [runsFrom, sum_closeRun]
  | cons x xs ih =>
      cases x with
      | true =>
          rw [runsFrom, ih, List.count_cons_self]
          omega
      | false =>
          rw [runsFrom, List.map_append, List.sum_append, sum_closeRun, ih]
          simp

/-- The runs cover the entries that are `true`. -/
theorem sum_runs (xs : List Bool) : ((runs xs).map (·.2)).sum = xs.count true := by
  rw [runs, sum_runsFrom, Nat.zero_add]

end SignalEngine.Lib
