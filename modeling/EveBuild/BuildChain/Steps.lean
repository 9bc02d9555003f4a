import EveBuild.BuildChain.Balance
import EveBuild.Data.Batches

/-!
# The steps of a walk and their runs

With an exact quotient, a quantity of an expanded type takes the runs that make it in
batches of the blueprint's product quantity (`exactCeil_eq_runsFor`).

What holds of the quantity needed, the runs and the product quantity of every returned
step is what the walk has recorded of every type that it expands (`forall_steps_iff`).
-/

namespace EveBuild.BuildChain

variable {db : List Blueprint} {target : TypeId} {buildSet : Finset TypeId}

/-- Every blueprint makes at least one unit in a run. -/
def PositiveProducts (db : List Blueprint) : Prop :=
  ∀ blueprint ∈ db, 1 ≤ blueprint.productQuantity

/-- Every material of a blueprint is used. -/
def PositiveMaterials (db : List Blueprint) : Prop :=
  ∀ blueprint ∈ db, ∀ material ∈ blueprint.materials, 1 ≤ material.quantity

theorem mem_of_expansion {typeId : TypeId} {blueprint : Blueprint}
    (hexpansion : expansion db target buildSet typeId = some blueprint) : blueprint ∈ db := by
  unfold expansion at hexpansion
  split at hexpansion
  · exact absurd hexpansion (by simp)
  · exact List.mem_of_find?_eq_some hexpansion

/-- The exact quotient, rounded up, is the number of batches. -/
theorem exactCeil_eq_runsFor {productQuantity : ℤ} (hproduct : 1 ≤ productQuantity)
    (quantity : ℤ) :
    exactCeil quantity productQuantity = .ok (Batches.runsFor productQuantity quantity) := by
  obtain ⟨product, rfl⟩ := Int.eq_ofNat_of_zero_le (by omega : 0 ≤ productQuantity)
  rw [exactCeil, if_neg (by omega), Batches.runsFor, Int.cast_natCast,
    Rat.ceil_intCast_div_natCast, Int.fdiv_eq_ediv_of_nonneg _ (Int.natCast_nonneg product)]

/-! ## What the walk records -/

/-- The runs that the walk has recorded for a type. -/
def Walk.runsOf (walk : Walk) (typeId : TypeId) : ℤ :=
  (walk.stepsByTypeId.get? typeId).elim 0 BuildStep.runs

theorem runsOf_build (walk : Walk) (typeId other : TypeId) (quantity : ℤ) (blueprint : Blueprint)
    (runs : ℤ) :
    (walk.build typeId quantity blueprint runs).runsOf other =
      walk.runsOf other + if other = typeId then runs else 0 := by
  unfold Walk.runsOf Walk.build
  simp only [Dict.get?_set]
  by_cases heq : other = typeId
  · subst heq
    simp only [if_true, Option.elim]
    cases hstep : walk.stepsByTypeId.get? other <;> simp [Walk.stepFor, hstep]
  · simp [heq]

/-! ## The returned steps -/

/-- What holds of all returned steps is what the walk has recorded of every type that it
expands, met or not. -/
theorem forall_steps_iff {walk : Walk} {leftover : Dict TypeId ℤ} {targetQuantity : ℤ}
    (haccounted : Accounted db target buildSet targetQuantity walk leftover.entries .empty)
    {typeName : TypeId → Option String} {resolution : BuildResolution}
    (hsteps : resolution.steps = topologicalOrder target (nameSteps typeName walk.stepsByTypeId))
    {property : ℤ → ℤ → ℤ → Prop} (hunmet : ∀ productQuantity, property 0 0 productQuantity) :
    (∀ step ∈ resolution.steps, property step.quantityNeeded step.runs step.productQuantity) ↔
      ∀ typeId blueprint, expansion db target buildSet typeId = some blueprint →
        property (walk.needed typeId) (walk.runsOf typeId) blueprint.productQuantity := by
  have hperm := steps_perm haccounted typeName
  rw [← hsteps] at hperm
  constructor
  · intro hall typeId blueprint hexpansion
    cases hget : walk.stepsByTypeId.get? typeId with
    -- the type has no step, and needs and runs nothing
    | none => simpa [Walk.runsOf, Walk.needed, hget] using hunmet _
    | some step =>
        obtain ⟨other, hother, hproduct, _⟩ := haccounted.recipe typeId step hget
        obtain rfl := Option.some_inj.mp (hexpansion.symm.trans hother)
        have hstep := hall _ (hperm.symm.subset (List.mem_map_of_mem
          (List.mem_map_of_mem (Dict.get?_eq_some_iff.mp hget))))
        simpa [Walk.runsOf, Walk.needed, hget, ← hproduct] using hstep
  · intro hall step hstep
    obtain ⟨original, horiginal, rfl⟩ := List.mem_map.mp (hperm.subset hstep)
    obtain ⟨⟨typeId, original⟩, hentry, rfl⟩ := List.mem_map.mp horiginal
    have hget := Dict.get?_eq_some_iff.mpr hentry
    obtain ⟨blueprint, hexpansion, hproduct, _⟩ := haccounted.recipe typeId original hget
    have hstep := hall typeId blueprint hexpansion
    simpa [Walk.runsOf, Walk.needed, hget, ← hproduct] using hstep

end EveBuild.BuildChain
