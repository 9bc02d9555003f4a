import Mathlib.Algebra.Order.BigOperators.Group.Finset
import Mathlib.Data.Finset.Union
import Mathlib.Data.Int.Order.Basic
import Mathlib.Tactic.Linarith

/-!
# Layers below a thing

Things are made of other things: `below` lists what a thing is directly made of.
`layer start depth` are the things found after `depth` levels of a breadth-first
walk from `start`; a thing occurs in every layer that some chain of that length
leads to, and from an empty layer on all layers are empty (`layer_eq_empty_of_le`).

`spread` sends a quantity of `start` down the layers: a thing that is needed
`quantity` times takes `runs thing quantity` runs, and a run uses `perRun` of each
thing below.  Larger run counts of larger quantities spread larger quantities
(`spread_le`), and subadditive ones spread subadditively (`spread_add_le`).
-/

namespace EveBuild

variable {T : Type*} [DecidableEq T]

/-! ## Which things -/

section Layer

variable (below : T → Finset T) (start : T)

/-- The things `depth` levels below `start`. -/
def layer : ℕ → Finset T
  | 0 => {start}
  | depth + 1 => (layer depth).biUnion below

variable {below start} {depth : ℕ} {thing : T}

@[simp] theorem mem_layer_zero : thing ∈ layer below start 0 ↔ thing = start :=
  Finset.mem_singleton

@[simp] theorem mem_layer_succ :
    thing ∈ layer below start (depth + 1) ↔ ∃ user ∈ layer below start depth, thing ∈ below user :=
  Finset.mem_biUnion

/-- Below an empty layer all are empty. -/
theorem layer_eq_empty_of_le {deeper : ℕ} (hempty : layer below start depth = ∅)
    (hle : depth ≤ deeper) : layer below start deeper = ∅ := by
  induction hle with
  | refl => exact hempty
  | step _ ih =>
      rw [layer, ih, Finset.biUnion_empty]

theorem lt_of_mem_layer {deeper : ℕ} (hempty : layer below start deeper = ∅)
    (hthing : thing ∈ layer below start depth) : depth < deeper := by
  by_contra hle
  rw [layer_eq_empty_of_le hempty (not_lt.mp hle)] at hthing
  exact Finset.notMem_empty thing hthing

/-- Things that are made of more have larger layers. -/
theorem layer_subset {below' : T → Finset T} (hbelow : ∀ thing, below thing ⊆ below' thing) :
    layer below start depth ⊆ layer below' start depth := by
  induction depth with
  | zero => exact Finset.Subset.refl _
  | succ depth ih =>
      intro thing hthing
      obtain ⟨user, huser, husers⟩ := mem_layer_succ.mp hthing
      exact mem_layer_succ.mpr ⟨user, ih huser, hbelow user husers⟩

end Layer

/-! ## How much of each -/

section Spread

variable (below : T → Finset T) (start : T) (runs : T → ℤ → ℤ) (perRun : T → T → ℤ)

/-- The quantity needed of a thing `depth` levels below `quantity` of `start`. -/
def spread (quantity : ℤ) : ℕ → T → ℤ
  | 0, thing => if thing = start then quantity else 0
  | depth + 1, thing => ∑ user ∈ layer below start depth,
      runs user (spread quantity depth user) * perRun user thing

variable {below start runs perRun}

/-- Nothing is needed of a thing outside the layer. -/
theorem spread_eq_zero (hperRun : ∀ user thing, thing ∉ below user → perRun user thing = 0)
    {quantity : ℤ} {depth : ℕ} {thing : T} (hthing : thing ∉ layer below start depth) :
    spread below start runs perRun quantity depth thing = 0 := by
  cases depth with
  | zero => exact if_neg fun heq => hthing (mem_layer_zero.mpr heq)
  | succ depth =>
      refine Finset.sum_eq_zero fun user huser => ?_
      rw [hperRun user thing fun hbelow => hthing (mem_layer_succ.mpr ⟨user, huser, hbelow⟩),
        mul_zero]

/-- Something is needed of every thing in the layer. -/
theorem one_le_spread (hperRun : ∀ user thing, thing ∉ below user → perRun user thing = 0)
    (hused : ∀ depth, ∀ user ∈ layer below start depth, ∀ thing ∈ below user,
      1 ≤ perRun user thing)
    (hruns : ∀ user thing quantity, thing ∈ below user → 1 ≤ quantity → 1 ≤ runs user quantity)
    {quantity : ℤ} (hquantity : 1 ≤ quantity) {depth : ℕ} {thing : T}
    (hthing : thing ∈ layer below start depth) :
    1 ≤ spread below start runs perRun quantity depth thing := by
  induction depth generalizing thing with
  | zero =>
      rw [spread, if_pos (mem_layer_zero.mp hthing)]
      exact hquantity
  | succ depth ih =>
      obtain ⟨user, huser, hbelow⟩ := mem_layer_succ.mp hthing
      -- one user needs something, and no other takes anything away
      have hterm : ∀ other ∈ layer below start depth, 0 ≤
          runs other (spread below start runs perRun quantity depth other) *
            perRun other thing := by
        intro other hother
        by_cases hotherBelow : thing ∈ below other
        · have hotherRuns := hruns other thing _ hotherBelow (ih hother)
          have hotherUsed := hused depth other hother thing hotherBelow
          exact mul_nonneg (by omega) (by omega)
        · rw [hperRun other thing hotherBelow, mul_zero]
      calc (1 : ℤ) ≤ runs user (spread below start runs perRun quantity depth user) *
            perRun user thing :=
            one_le_mul_of_one_le_of_one_le (hruns user thing _ hbelow (ih huser))
              (hused depth user huser thing hbelow)
        _ ≤ spread below start runs perRun quantity (depth + 1) thing :=
            Finset.single_le_sum hterm huser

/-- Run counts that agree on what is needed further up need the same. -/
theorem spread_congr {runs' : T → ℤ → ℤ} {quantity : ℤ} {depth : ℕ}
    (hruns : ∀ higher < depth, ∀ user ∈ layer below start higher,
      runs' user (spread below start runs perRun quantity higher user) =
        runs user (spread below start runs perRun quantity higher user)) (thing : T) :
    spread below start runs' perRun quantity depth thing =
      spread below start runs perRun quantity depth thing := by
  induction depth generalizing thing with
  | zero => rfl
  | succ depth ih =>
      refine Finset.sum_congr rfl fun user huser => ?_
      rw [ih fun higher hhigher => hruns higher (by omega), hruns depth (by omega) user huser]

/-- **More of the target, run no less often, needs no less of anything.** -/
theorem spread_le {runs' : T → ℤ → ℤ}
    (hruns : ∀ thing small large, small ≤ large → runs thing small ≤ runs' thing large)
    (hperRun : ∀ user thing, 0 ≤ perRun user thing) (depth : ℕ) (thing : T) {small large : ℤ}
    (hle : small ≤ large) :
    spread below start runs perRun small depth thing ≤
      spread below start runs' perRun large depth thing := by
  induction depth generalizing thing with
  | zero =>
      show (if thing = start then small else 0) ≤ if thing = start then large else 0
      split
      · exact hle
      · exact le_rfl
  | succ depth ih =>
      refine Finset.sum_le_sum fun user _ => ?_
      exact mul_le_mul_of_nonneg_right (hruns user _ _ (ih user)) (hperRun user thing)

/-- **Two targets at once need no more than one after the other.** -/
theorem spread_add_le
    (hruns : ∀ thing small large, small ≤ large → runs thing small ≤ runs thing large)
    (hadd : ∀ thing first second,
      runs thing (first + second) ≤ runs thing first + runs thing second)
    (hperRun : ∀ user thing, 0 ≤ perRun user thing) (first second : ℤ) (depth : ℕ) (thing : T) :
    spread below start runs perRun (first + second) depth thing ≤
      spread below start runs perRun first depth thing +
        spread below start runs perRun second depth thing := by
  induction depth generalizing thing with
  | zero =>
      show (if thing = start then first + second else 0) ≤
        (if thing = start then first else 0) + if thing = start then second else 0
      split
      · exact le_rfl
      · exact le_rfl
  | succ depth ih =>
      simp only [spread]
      rw [← Finset.sum_add_distrib]
      refine Finset.sum_le_sum fun user _ => ?_
      rw [← add_mul]
      apply mul_le_mul_of_nonneg_right _ (hperRun user thing)
      calc runs user (spread below start runs perRun (first + second) depth user)
          ≤ runs user (spread below start runs perRun first depth user +
              spread below start runs perRun second depth user) := hruns user _ _ (ih user)
        _ ≤ runs user (spread below start runs perRun first depth user) +
              runs user (spread below start runs perRun second depth user) := hadd user _ _

end Spread

end EveBuild
