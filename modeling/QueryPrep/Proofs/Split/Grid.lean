import Mathlib.Order.Bounds.Defs
import QueryPrep.Proofs.Split.Linked
import QueryPrep.Split.Layout

/-!
# The grid of a step

What the three operations of `Grid` compute, for a positive step: `alignDown` is the greatest
multiple of the step that is not after an instant, `alignUp` the least one that is not before it,
and `fit` the greatest one that is not longer than a span. Each is also a quotient times the step,
rounded down or up; `ceilDiv` is the quotient that is rounded up.
-/

namespace QueryPrep.Grid

/-- The quotient of two numbers, rounded up. -/
def ceilDiv (a b : Int) : Int :=
  -(-a / b)

variable {step : Int}

/-- Rounding up is the least quotient that is enough. -/
theorem ceilDiv_le_iff {a b c : Int} (hb : 0 < b) : ceilDiv a b ≤ c ↔ a ≤ c * b := by
  have h := Int.le_ediv_iff_mul_le (a := -c) (b := -a) hb
  rw [Int.neg_mul] at h
  unfold ceilDiv
  omega

theorem ceilDiv_eq {a b : Int} (hb : 0 < b) : ceilDiv a b = (a - 1) / b + 1 := by
  -- both sides are the least quotient that is enough
  have hiff : ∀ c, ceilDiv a b ≤ c ↔ (a - 1) / b + 1 ≤ c := by
    intro c
    rw [ceilDiv_le_iff hb, Int.add_one_le_iff, Int.ediv_lt_iff_lt_mul hb]
    omega
  exact Int.le_antisymm ((hiff _).mpr (Int.le_refl _)) ((hiff _).mp (Int.le_refl _))

/-! ### Aligning down -/

theorem alignDown_eq (step t : Int) : alignDown step t = t / step * step := by
  have h := Int.mul_ediv_add_emod t step
  rw [Int.mul_comm] at h
  unfold alignDown
  omega

theorem dvd_alignDown (step t : Int) : step ∣ alignDown step t :=
  Int.dvd_self_sub_emod

theorem isGreatest_alignDown (hstep : 0 < step) (t : Int) :
    IsGreatest {u | step ∣ u ∧ u ≤ t} (alignDown step t) := by
  have hnonneg := Int.emod_nonneg t (show step ≠ 0 by omega)
  have hlt := Int.emod_lt_of_pos t hstep
  have hle : alignDown step t ≤ t := by
    unfold alignDown
    omega
  refine ⟨⟨dvd_alignDown step t, hle⟩, ?_⟩
  rintro u ⟨hu, hut⟩
  by_contra hgt
  -- the next multiple is already after `t`
  have hnext := add_le_of_dvd_of_lt (dvd_alignDown step t) hu (by omega)
  unfold alignDown at hnext
  omega

theorem alignDown_mono (hstep : 0 < step) {t u : Int} (h : t ≤ u) :
    alignDown step t ≤ alignDown step u :=
  (isGreatest_alignDown hstep u).2
    ⟨dvd_alignDown step t, Int.le_trans (isGreatest_alignDown hstep t).1.2 h⟩

theorem alignDown_of_dvd {t : Int} (h : step ∣ t) : alignDown step t = t := by
  unfold alignDown
  rw [Int.emod_eq_zero_of_dvd h, Int.sub_zero]

/-! ### Aligning up -/

theorem alignUp_eq_neg (hstep : 0 < step) (t : Int) :
    alignUp step t = -alignDown step (-t) := by
  have hnonneg := Int.emod_nonneg t (show step ≠ 0 by omega)
  have hlt := Int.emod_lt_of_pos t hstep
  unfold alignUp alignDown
  split_ifs with h
  · rw [Int.emod_eq_zero_of_dvd (Int.dvd_neg.mpr (Int.dvd_of_emod_eq_zero h))]
    omega
  · have hneg : -t % step = step - t % step := by
      rw [Int.neg_emod, if_neg fun hdvd => h (Int.emod_eq_zero_of_dvd hdvd),
        Int.natAbs_of_nonneg (Int.le_of_lt hstep)]
    omega

theorem alignUp_eq (hstep : 0 < step) (t : Int) : alignUp step t = ceilDiv t step * step := by
  rw [alignUp_eq_neg hstep, alignDown_eq, ceilDiv, Int.neg_mul]

theorem dvd_alignUp (hstep : 0 < step) (t : Int) : step ∣ alignUp step t := by
  rw [alignUp_eq hstep]
  exact Int.dvd_mul_left _ step

theorem isLeast_alignUp (hstep : 0 < step) (t : Int) :
    IsLeast {u | step ∣ u ∧ t ≤ u} (alignUp step t) := by
  -- the mirror image of aligning down
  obtain ⟨⟨-, hle⟩, hgreatest⟩ := isGreatest_alignDown hstep (-t)
  rw [alignUp_eq_neg hstep]
  refine ⟨⟨Int.dvd_neg.mpr (dvd_alignDown step (-t)), ?_⟩, ?_⟩
  · show t ≤ -alignDown step (-t)
    omega
  · rintro u ⟨hu, htu⟩
    have h := hgreatest (show step ∣ -u ∧ -u ≤ -t from ⟨Int.dvd_neg.mpr hu, by omega⟩)
    omega

theorem alignUp_mono (hstep : 0 < step) {t u : Int} (h : t ≤ u) :
    alignUp step t ≤ alignUp step u :=
  (isLeast_alignUp hstep t).2
    ⟨dvd_alignUp hstep u, Int.le_trans h (isLeast_alignUp hstep u).1.2⟩

theorem alignUp_of_dvd {t : Int} (h : step ∣ t) : alignUp step t = t :=
  if_pos (Int.emod_eq_zero_of_dvd h)

/-! ### Fitting -/

theorem dvd_fit (step span : Int) : step ∣ fit step span :=
  Int.dvd_mul_left _ step

theorem fit_le (hstep : 0 < step) (span : Int) : fit step span ≤ span :=
  Int.ediv_mul_le span (by omega)

theorem lt_fit_add (hstep : 0 < step) (span : Int) : span < fit step span + step := by
  have h := Int.lt_ediv_add_one_mul_self span hstep
  rw [Int.add_mul, Int.one_mul] at h
  exact h

theorem le_fit (hstep : 0 < step) {span : Int} (hspan : step ≤ span) : step ≤ fit step span := by
  have hpos := lt_fit_add hstep span
  exact Int.le_of_dvd (by omega) (dvd_fit step span)

end QueryPrep.Grid
