import Mathlib.Algebra.BigOperators.Ring.Finset
import Mathlib.Algebra.Order.BigOperators.Group.Finset
import Mathlib.Algebra.Order.Floor.Ring
import Mathlib.Data.Rat.Floor
import Mathlib.Tactic.Linarith

/-!
# Things that are made in batches

One run makes a whole batch, so that a quantity takes `runsFor` runs: the quotient by the
batch, rounded up.

Rounding up is superadditive in the wrong direction: providing for two quantities
separately may take one run more than providing for their sum.  `surplus` is what the
last run makes too much, and `sum_runsFor_eq_iff` says when rounding the parts agrees
with rounding the sum: when the surpluses of the parts together stay below one batch.
They do when all parts but one are whole batches (`sum_runsFor_of_dvd`).
-/

namespace EveBuild.Batches

/-- The number of runs that provide for `quantity` units. -/
def runsFor (batch quantity : ℤ) : ℤ := ⌈(quantity : ℚ) / batch⌉

/-- What these runs make beyond `quantity`. -/
def surplus (batch quantity : ℤ) : ℤ := runsFor batch quantity * batch - quantity

variable {batch : ℤ}

@[simp] theorem runsFor_zero : runsFor batch 0 = 0 := by simp [runsFor]

/-- `runsFor` is the least number of runs that suffices. -/
theorem runsFor_le_iff (hbatch : 0 < batch) {quantity runs : ℤ} :
    runsFor batch quantity ≤ runs ↔ quantity ≤ runs * batch := by
  have hpos : (0 : ℚ) < batch := by exact_mod_cast hbatch
  rw [runsFor, Int.ceil_le, div_le_iff₀ hpos]
  exact_mod_cast Iff.rfl

theorem surplus_nonneg (hbatch : 0 < batch) (quantity : ℤ) : 0 ≤ surplus batch quantity :=
  sub_nonneg.mpr ((runsFor_le_iff hbatch).mp le_rfl)

theorem surplus_lt (hbatch : 0 < batch) (quantity : ℤ) : surplus batch quantity < batch := by
  have hnot : ¬ runsFor batch quantity ≤ runsFor batch quantity - 1 := by omega
  rw [runsFor_le_iff hbatch] at hnot
  unfold surplus
  linarith

theorem runsFor_pos (hbatch : 0 < batch) {quantity : ℤ} (hquantity : 0 < quantity) :
    0 < runsFor batch quantity := by
  by_contra hnot
  have hle := (runsFor_le_iff hbatch).mp (not_lt.mp hnot)
  linarith

theorem runsFor_mono (hbatch : 0 < batch) {small large : ℤ} (hle : small ≤ large) :
    runsFor batch small ≤ runsFor batch large := by
  rw [runsFor_le_iff hbatch]
  exact hle.trans ((runsFor_le_iff hbatch).mp le_rfl)

/-- A larger batch takes no more runs, of which there is at least one. -/
theorem max_runsFor_le_of_batch_le (hbatch : 0 < batch) {larger : ℤ} (hle : batch ≤ larger)
    (quantity : ℤ) : max 1 (runsFor larger quantity) ≤ max 1 (runsFor batch quantity) := by
  refine max_le (le_max_left ..) ((runsFor_le_iff (hbatch.trans_le hle)).mpr ?_)
  have hone : 1 ≤ max 1 (runsFor batch quantity) := le_max_left ..
  calc quantity ≤ runsFor batch quantity * batch := (runsFor_le_iff hbatch).mp le_rfl
    _ ≤ max 1 (runsFor batch quantity) * batch :=
        mul_le_mul_of_nonneg_right (le_max_right ..) hbatch.le
    _ ≤ max 1 (runsFor batch quantity) * larger := mul_le_mul_of_nonneg_left hle (by omega)

/-- Providing for two quantities at once never takes more runs. -/
theorem runsFor_add_le (first second : ℤ) :
    runsFor batch (first + second) ≤ runsFor batch first + runsFor batch second := by
  unfold runsFor
  rw [Int.cast_add, add_div]
  exact Int.ceil_add_le _ _

/-- A number of runs is the right one when it suffices and leaves less than a batch. -/
theorem runsFor_eq_iff (hbatch : 0 < batch) {quantity runs : ℤ} :
    runsFor batch quantity = runs ↔
      0 ≤ runs * batch - quantity ∧ runs * batch - quantity < batch := by
  constructor
  · rintro rfl
    exact ⟨surplus_nonneg hbatch quantity, surplus_lt hbatch quantity⟩
  · rintro ⟨hnonneg, hlt⟩
    refine le_antisymm ((runsFor_le_iff hbatch).mpr (by linarith)) ?_
    by_contra hless
    have hless : runsFor batch quantity ≤ runs - 1 := by omega
    have hle := (runsFor_le_iff hbatch).mp hless
    linarith

/-- Whole batches leave nothing over. -/
theorem surplus_eq_zero_of_dvd (hbatch : 0 < batch) {quantity : ℤ} (hdvd : batch ∣ quantity) :
    surplus batch quantity = 0 := by
  obtain ⟨runs, rfl⟩ := hdvd
  have hruns : runsFor batch (batch * runs) = runs := by
    rw [runsFor_eq_iff hbatch]
    constructor <;> linarith
  rw [surplus, hruns]
  ring

section Parts

variable {ι : Type*} {parts : Finset ι} {quantity : ι → ℤ}

/-- **Rounding the parts is rounding the sum** exactly when the parts together
leave less than one batch. -/
theorem sum_runsFor_eq_iff (hbatch : 0 < batch) :
    ∑ i ∈ parts, runsFor batch (quantity i) = runsFor batch (∑ i ∈ parts, quantity i) ↔
      ∑ i ∈ parts, surplus batch (quantity i) < batch := by
  have hsurplus : ∑ i ∈ parts, surplus batch (quantity i) =
      (∑ i ∈ parts, runsFor batch (quantity i)) * batch - ∑ i ∈ parts, quantity i := by
    simp only [surplus, Finset.sum_sub_distrib, Finset.sum_mul]
  rw [eq_comm, runsFor_eq_iff hbatch, ← hsurplus]
  exact and_iff_right (Finset.sum_nonneg fun i _ => surplus_nonneg hbatch (quantity i))

/-- Parts of which all but one are whole batches are rounded like their sum. -/
theorem sum_runsFor_of_dvd (hbatch : 0 < batch) (special : ι)
    (hdvd : ∀ i ∈ parts, i ≠ special → batch ∣ quantity i) :
    ∑ i ∈ parts, runsFor batch (quantity i) = runsFor batch (∑ i ∈ parts, quantity i) := by
  have hzero : ∀ i ∈ parts, i ≠ special → surplus batch (quantity i) = 0 :=
    fun i hi hne => surplus_eq_zero_of_dvd hbatch (hdvd i hi hne)
  rw [sum_runsFor_eq_iff hbatch]
  by_cases hspecial : special ∈ parts
  · rw [Finset.sum_eq_single_of_mem special hspecial hzero]
    exact surplus_lt hbatch _
  · rw [Finset.sum_eq_zero fun i hi => hzero i hi fun heq => hspecial (heq ▸ hi)]
    exact hbatch

/-- Parts that fit into one batch together are rounded like their sum only if there is no
more than one. -/
theorem eq_of_sum_runsFor_eq (hbatch : 0 < batch) (hnonneg : ∀ i ∈ parts, 0 ≤ quantity i)
    (hfits : ∑ i ∈ parts, quantity i ≤ batch)
    (hsum : ∑ i ∈ parts, runsFor batch (quantity i) = runsFor batch (∑ i ∈ parts, quantity i))
    {first second : ι} (hfirst : first ∈ parts) (hsecond : second ∈ parts)
    (hfirstPos : 0 < quantity first) (hsecondPos : 0 < quantity second) : first = second := by
  by_contra hne
  have hruns : ∀ i ∈ parts, 0 ≤ runsFor batch (quantity i) := fun i hi => by
    simpa using runsFor_mono hbatch (hnonneg i hi)
  -- each of the two takes a run of its own, but all parts together take one
  have htwo : runsFor batch (quantity first) + runsFor batch (quantity second) ≤
      ∑ i ∈ parts, runsFor batch (quantity i) := by
    classical
    calc runsFor batch (quantity first) + runsFor batch (quantity second)
        = ∑ i ∈ {first, second}, runsFor batch (quantity i) := by
          rw [Finset.sum_pair hne]
      _ ≤ ∑ i ∈ parts, runsFor batch (quantity i) := by
          refine Finset.sum_le_sum_of_subset_of_nonneg ?_ fun i hi _ => hruns i hi
          exact Finset.insert_subset hfirst (Finset.singleton_subset_iff.mpr hsecond)
  have hone : runsFor batch (∑ i ∈ parts, quantity i) ≤ 1 := by
    rw [runsFor_le_iff hbatch, one_mul]
    exact hfits
  have hfirstRuns := runsFor_pos hbatch hfirstPos
  have hsecondRuns := runsFor_pos hbatch hsecondPos
  omega

end Parts

end EveBuild.Batches
