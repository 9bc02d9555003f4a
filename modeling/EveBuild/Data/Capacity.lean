import Mathlib.Algebra.Order.Group.Int
import Mathlib.Data.Int.ConditionallyCompleteOrder
import Mathlib.Order.ConditionallyCompleteLattice.Basic

/-!
# How often a stock is enough

A run uses up a fixed amount of each of several things.  The number of runs that a stock is
enough for is the least of the rounded quotients (`capacity`), a minimum that starts at infinity.
-/

namespace EveBuild

variable {I : Type*} (stock need : I → ℤ)

/-- How many runs the stock is enough for; nothing bounds it where nothing is needed. -/
def capacity (items : List I) : WithTop ℤ :=
  items.foldl (fun best item => min best ((stock item / need item : ℤ) : WithTop ℤ)) ⊤

variable {stock need} {items : List I}

theorem foldl_min_le_iff (start : WithTop ℤ) (n : ℤ) (hneed : ∀ item, 0 < need item) :
    (n : WithTop ℤ) ≤ items.foldl
        (fun best item => min best ((stock item / need item : ℤ) : WithTop ℤ)) start ↔
      n ≤ start ∧ ∀ item ∈ items, n * need item ≤ stock item := by
  induction items generalizing start with
  | nil => simp
  | cons item rest ih =>
      rw [List.foldl_cons, ih, le_min_iff, List.forall_mem_cons, WithTop.coe_le_coe,
        Int.le_ediv_iff_mul_le (hneed item), and_assoc]

/-- **A number of runs is possible** if the stock of each thing is enough for it. -/
theorem le_capacity_iff {n : ℤ} (hneed : ∀ item, 0 < need item) :
    (n : WithTop ℤ) ≤ capacity stock need items ↔
      ∀ item ∈ items, n * need item ≤ stock item := by
  unfold capacity
  rw [foldl_min_le_iff ⊤ n hneed]
  exact and_iff_right le_top

theorem capacity_ne_top (hitems : items ≠ []) : capacity stock need items ≠ ⊤ := by
  have hle : ∀ (start : WithTop ℤ) (rest : List I), rest.foldl
      (fun best item => min best ((stock item / need item : ℤ) : WithTop ℤ)) start ≤ start := by
    intro start rest
    induction rest generalizing start with
    | nil => exact le_rfl
    | cons item rest ih => exact (ih _).trans (min_le_left _ _)
  cases items with
  | nil => exact absurd rfl hitems
  | cons item rest =>
      refine ne_top_of_le_ne_top (WithTop.coe_ne_top (a := stock item / need item)) ?_
      exact (hle _ rest).trans (min_le_right _ _)

/-- The minimum that starts at infinity is the least of the quotients. -/
theorem capacity_eq_min? (hitems : items ≠ []) :
    capacity stock need items = ((items.map fun item => stock item / need item).min?.getD 0 : ℤ) := by
  have hfold : ∀ (best : ℤ) (rest : List I), rest.foldl
      (fun best item => min best ((stock item / need item : ℤ) : WithTop ℤ)) (best : WithTop ℤ) =
        (((rest.map fun item => stock item / need item).foldl min best : ℤ) : WithTop ℤ) := by
    intro best rest
    induction rest generalizing best with
    | nil => rfl
    | cons item rest ih => simpa using ih (min best (stock item / need item))
  cases items with
  | nil => exact absurd rfl hitems
  | cons item rest =>
      unfold capacity
      rw [List.foldl_cons, min_eq_right le_top, hfold, List.map_cons, List.min?_cons',
        Option.getD_some]

/-- **The greatest number** of runs that the stock is enough for. -/
theorem isGreatest_of_capacity {n : ℤ} (hneed : ∀ item, 0 < need item)
    (hn : capacity stock need items = n) :
    IsGreatest {n | ∀ item ∈ items, n * need item ≤ stock item} n := by
  constructor
  · exact (le_capacity_iff hneed).mp hn.ge
  · intro other hother
    have hle := (le_capacity_iff hneed).mpr hother
    rw [hn] at hle
    exact WithTop.coe_le_coe.mp hle

end EveBuild
