/-
  Growth: what a stake becomes over a sequence of returns.

  `growth p rs` is what one unit has become after the returns `rs`, each of which counts with the
  share `p`.

  Proved: `rpow_growth_le`, the inequality of Bernoulli over a sequence, and from it
  `growth_lt_of_le`: where a share has fallen below a level under 1, so has every larger share.
-/
import Mathlib

namespace SignalEngine.Lib

variable {p q c : ℚ} {rs : List ℚ}

def growth (p : ℚ) (rs : List ℚ) : ℚ := (rs.map fun r => 1 + p * r).prod

@[simp] theorem growth_nil (p : ℚ) : growth p [] = 1 := rfl

@[simp] theorem growth_cons (p r : ℚ) (rs : List ℚ) :
    growth p (r :: rs) = (1 + p * r) * growth p rs := rfl

theorem one_add_nonneg {r : ℚ} (hp : 0 ≤ p) (hle : p ≤ 1) (hr : -1 ≤ r) : 0 ≤ 1 + p * r := by
  nlinarith

theorem growth_nonneg (hp : 0 ≤ p) (hle : p ≤ 1) (hr : ∀ r ∈ rs, -1 ≤ r) : 0 ≤ growth p rs := by
  refine List.prod_nonneg fun x hx => ?_
  obtain ⟨r, hmem, rfl⟩ := List.mem_map.mp hx
  exact one_add_nonneg hp hle (hr r hmem)

/-- The share `p` outgrows the power `p / q` of what the share `q` grows to. -/
theorem rpow_growth_le (hp : 0 < p) (hpq : p ≤ q) (hq : q ≤ 1) (hr : ∀ r ∈ rs, -1 ≤ r) :
    (growth q rs : ℝ) ^ ((p / q : ℚ) : ℝ) ≤ growth p rs := by
  have hqpos : 0 < q := hp.trans_le hpq
  have hlow : (0 : ℝ) ≤ ((p / q : ℚ) : ℝ) := by exact_mod_cast (div_pos hp hqpos).le
  have hhigh : ((p / q : ℚ) : ℝ) ≤ 1 := by exact_mod_cast (div_le_one hqpos).mpr hpq
  induction rs with
  | nil => simp
  | cons r rs ih =>
      have hhead : -1 ≤ r := hr r List.mem_cons_self
      have htail : ∀ x ∈ rs, -1 ≤ x := fun x hx => hr x (List.mem_cons_of_mem _ hx)
      have hgrowth : (0 : ℝ) ≤ growth q rs := by
        exact_mod_cast growth_nonneg hqpos.le hq htail
      have hone : (0 : ℝ) ≤ 1 + ((q * r : ℚ) : ℝ) := by
        exact_mod_cast one_add_nonneg hqpos.le hq hhead
      have hstep : (1 + ((q * r : ℚ) : ℝ)) ^ ((p / q : ℚ) : ℝ) ≤ ((1 + p * r : ℚ) : ℝ) := by
        have hbernoulli := rpow_one_add_le_one_add_mul_self (by linarith) hlow hhigh
        refine hbernoulli.trans_eq ?_
        have hcancel : 1 + p / q * (q * r) = 1 + p * r := by field_simp
        exact_mod_cast hcancel
      calc (growth q (r :: rs) : ℝ) ^ ((p / q : ℚ) : ℝ)
          = ((1 + ((q * r : ℚ) : ℝ)) * growth q rs) ^ ((p / q : ℚ) : ℝ) := by
            rw [growth_cons]
            push_cast
            rfl
        _ = (1 + ((q * r : ℚ) : ℝ)) ^ ((p / q : ℚ) : ℝ) *
              (growth q rs : ℝ) ^ ((p / q : ℚ) : ℝ) := Real.mul_rpow hone hgrowth
        _ ≤ ((1 + p * r : ℚ) : ℝ) * growth p rs :=
            mul_le_mul hstep (ih htail) (Real.rpow_nonneg hgrowth _)
              (by exact_mod_cast one_add_nonneg hp.le (hpq.trans hq) hhead)
        _ = growth p (r :: rs) := by
            rw [growth_cons]
            push_cast
            rfl

/-- Below a level under 1, a larger share is below it too. -/
theorem growth_lt_of_le (hp : 0 < p) (hpq : p ≤ q) (hq : q ≤ 1) (hr : ∀ r ∈ rs, -1 ≤ r)
    (hc : c ≤ 1) (h : growth p rs < c) : growth q rs < c := by
  have hqpos : 0 < q := hp.trans_le hpq
  have hpos : 0 < c := (growth_nonneg hp.le (hpq.trans hq) hr).trans_lt h
  by_contra hge
  have hlow : (0 : ℝ) ≤ ((p / q : ℚ) : ℝ) := by exact_mod_cast (div_pos hp hqpos).le
  have hhigh : ((p / q : ℚ) : ℝ) ≤ 1 := by exact_mod_cast (div_le_one hqpos).mpr hpq
  have hc' : (c : ℝ) ≤ growth q rs := by exact_mod_cast not_lt.mp hge
  have hcpos : (0 : ℝ) < c := by exact_mod_cast hpos
  have hchain : (c : ℝ) ≤ growth p rs :=
    calc (c : ℝ) = (c : ℝ) ^ (1 : ℝ) := (Real.rpow_one _).symm
      _ ≤ (c : ℝ) ^ ((p / q : ℚ) : ℝ) :=
          Real.rpow_le_rpow_of_exponent_ge hcpos (by exact_mod_cast hc) hhigh
      _ ≤ (growth q rs : ℝ) ^ ((p / q : ℚ) : ℝ) := Real.rpow_le_rpow hcpos.le hc' hlow
      _ ≤ growth p rs := rpow_growth_le hp hpq hq hr
  exact absurd h (not_lt.mpr (by exact_mod_cast hchain))

end SignalEngine.Lib
