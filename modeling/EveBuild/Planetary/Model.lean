import EveBuild.Startup.Dumps
import Mathlib.Algebra.Order.Ring.Rat

/-!
# Planetary schematics and their tiers

`_expand_to_tier` of `app/routes/planetary.py`, which goes down from a type through the
schematics until it reaches types of a tier that is low enough, and the breakdowns of
`planet_schematic_detail`, which add up the expansions of a schematic's inputs for every
tier below its own.

Quantities are floats in the source, and exact rationals here.  `fuel` is the number of
nested calls that Python allows.
-/

namespace EveBuild.Planetary

open Migrations (Quantity SchematicDocument)

abbrev TypeId := ℤ

/-- What an expansion can raise. -/
inductive ExpansionError
  | zeroDivision
  | recursion
deriving DecidableEq

/-- `_TIER_INDEX_BY_GROUP_ID`. -/
def tierIndexByGroupId : List (ℤ × ℤ) := [(1042, 1), (1034, 2), (1040, 3), (1041, 4)]

/-- `schematic_by_output_type_id`. -/
def schematicByOutputTypeId (schematics : List (ℤ × SchematicDocument)) :
    Dict TypeId SchematicDocument :=
  schematics.foldl (fun byOutput entry => byOutput.set entry.2.output.typeId entry.2) .empty

/-- `tier_index_by_type_id`, with the group of a type's document. -/
def tierIndexByTypeId (groupId : TypeId → Option ℤ)
    (byOutput : Dict TypeId SchematicDocument) : Dict TypeId ℤ :=
  byOutput.keys.foldl (fun tiers outputTypeId =>
    match (groupId outputTypeId).bind fun group => tierIndexByGroupId.lookup group with
    | none => tiers
    | some tier => tiers.set outputTypeId tier) .empty

/-- `for sub_type_id, sub_quantity in sub.items()`. -/
def merge (result sub : Dict TypeId ℚ) : Dict TypeId ℚ :=
  sub.entries.foldl (fun result entry => result.add entry.1 entry.2) result

/-- The loop over materials: each is expanded, and the results are added up. -/
def expandEach (expand : TypeId → ℚ → Except ExpansionError (Dict TypeId ℚ))
    (entries : List (TypeId × ℚ)) : Except ExpansionError (Dict TypeId ℚ) :=
  entries.foldlM (fun result entry => do return merge result (← expand entry.1 entry.2)) .empty

section Expand

variable (byOutput : Dict TypeId SchematicDocument) (tiers : Dict TypeId ℤ)

/-- The type is made by no schematic, or its tier is low enough. -/
def Stops (floorTier : ℤ) (typeId : TypeId) : Prop :=
  byOutput.get? typeId = none ∨ tiers.getD typeId 0 ≤ floorTier

instance (floorTier : ℤ) : DecidablePred (Stops byOutput tiers floorTier) :=
  fun _ => inferInstanceAs (Decidable (_ ∨ _))

/-- The materials of `runsNeeded` runs. -/
def needs (schematic : SchematicDocument) (runsNeeded : ℚ) : List (TypeId × ℚ) :=
  schematic.inputs.map fun material => (material.typeId, runsNeeded * material.quantity)

/-- `_expand_to_tier`. -/
def expandToTier (floorTier : ℤ) :
    ℕ → TypeId → ℚ → Except ExpansionError (Dict TypeId ℚ)
  | 0, _, _ => .error .recursion
  | fuel + 1, typeId, quantity =>
      match byOutput.get? typeId with
      | none => .ok (.single typeId quantity)
      | some schematic =>
          if tiers.getD typeId 0 ≤ floorTier then .ok (.single typeId quantity)
          else if schematic.output.quantity = 0 then .error .zeroDivision
          else expandEach (expandToTier floorTier fuel)
            (needs schematic (quantity / schematic.output.quantity))

/-- `expanded` of `planet_schematic_detail` for one floor. -/
def breakdown (fuel : ℕ) (floorTier : ℤ) (schematic : SchematicDocument) :
    Except ExpansionError (Dict TypeId ℚ) :=
  expandEach (expandToTier byOutput tiers floorTier fuel)
    (schematic.inputs.map fun material => (material.typeId, (material.quantity : ℚ)))

end Expand

end EveBuild.Planetary
