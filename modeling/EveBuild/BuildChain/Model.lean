import EveBuild.Data.Dict
import Mathlib.Data.Finset.Basic
import Mathlib.Data.List.Sort
import Mathlib.Data.String.Basic

/-!
# The build chain of `app/services/build_chain.py`

`resolveBuildChain` walks the chain below a target item level by level: the
demand of a level is a dictionary from types to quantities, each of its types is
either expanded into a build step (the target always, another type when it is in
the build set, and only when a blueprint produces it) or added to the raw totals,
and the materials of the expanded types are the demand of the next level.  The
walk stops when a level is empty or after `maxDepth` levels; what is left is raw.

Three things of the source are parameters here.

* `ceilQuotient` is `math.ceil(quantity / product_quantity)`.  The quotient is a
  float in the source; `exactCeil` is the reading as an exact quotient, and what
  does not depend on the rounding is proved for every `ceilQuotient`.
* `db` is the content of `sde_blueprints`, which no request changes.
* `typeName` gives the `name` of a type's document in `sde_types`.

Prices and costs are floats that nothing here reads, and are left out.  With them goes
the `OverflowError` of multiplying a quantity of `2 ^ 1024` or more by a price.  The
model has no limit on nested calls: in the source, a chain of more steps than Python's
recursion limit (1000 calls by default) raises a `RecursionError` in `_visit`.
-/

namespace EveBuild.BuildChain

/-- A type of the Static Data Export: items, components and materials alike. -/
abbrev TypeId := ℤ

/-- An entry of a blueprint's `materials`. -/
structure Material where
  typeId : TypeId
  quantity : ℤ
deriving DecidableEq

/-- A document of `sde_blueprints`, as far as the build chain reads it. -/
structure Blueprint where
  productTypeId : TypeId
  productQuantity? : Option ℤ
  materials : List Material
deriving DecidableEq

/-- `blueprint.get("product_quantity", 1)`. -/
def Blueprint.productQuantity (blueprint : Blueprint) : ℤ := blueprint.productQuantity?.getD 1

/-- The quantity of `materialTypeId` that one run of the blueprint uses, over all
entries of its `materials`. -/
def Blueprint.perRun (blueprint : Blueprint) (materialTypeId : TypeId) : ℤ :=
  Dict.tally (blueprint.materials.map fun material => (material.typeId, material.quantity))
    materialTypeId

/-- `sde.blueprint_for_product`: the first document whose product is the type. -/
def blueprintForProduct (db : List Blueprint) (productTypeId : TypeId) : Option Blueprint :=
  db.find? fun blueprint => blueprint.productTypeId = productTypeId

structure BuildStep where
  typeId : TypeId
  name : String
  quantityNeeded : ℤ
  runs : ℤ
  productQuantity : ℤ
  materials : Dict TypeId ℤ

structure RawMaterial where
  typeId : TypeId
  name : String
  quantity : ℤ
  isBuildable : Bool
deriving DecidableEq

structure BuildResolution where
  targetTypeId : TypeId
  targetName : String
  targetQuantity : ℤ
  isBuildable : Bool
  steps : List BuildStep
  rawMaterials : List RawMaterial

/-- What dividing two integers can raise. -/
inductive ArithmeticError
  | zeroDivision
  | overflow
deriving DecidableEq

/-- `math.ceil(quantity / product_quantity)` with an exact quotient. -/
def exactCeil (quantity productQuantity : ℤ) : Except ArithmeticError ℤ :=
  if productQuantity = 0 then .error .zeroDivision
  else .ok (-(-quantity).fdiv productQuantity)

/-- `_MAX_DEPTH`. -/
def maxDepth : ℕ := 15

/-- The three dictionaries that the level loop fills. -/
structure Walk where
  stepsByTypeId : Dict TypeId BuildStep
  rawTotals : Dict TypeId ℤ
  rawBuildable : Dict TypeId Bool

/-- The dictionaries before the first level. -/
def Walk.start : Walk := ⟨.empty, .empty, .empty⟩

/-- A level's unexpanded type: its quantity is raw. -/
def Walk.buy (walk : Walk) (typeId : TypeId) (quantity : ℤ) (isBuildable : Bool) : Walk :=
  { walk with
    rawTotals := walk.rawTotals.add typeId quantity
    rawBuildable := walk.rawBuildable.set typeId isBuildable }

/-- The step that `steps_by_type_id` holds for the type, or a new one. -/
def Walk.stepFor (walk : Walk) (typeId : TypeId) (productQuantity : ℤ) : BuildStep :=
  (walk.stepsByTypeId.get? typeId).getD
    { typeId, name := "", quantityNeeded := 0, runs := 0, productQuantity, materials := .empty }

/-- `for material in materials`: what `additionalRuns` more runs need is added to
a dictionary.  The source adds it to the step's materials and to the next level
in one loop; the two dictionaries are independent. -/
def addNeeds (additionalRuns : ℤ) (materials : List Material) (needs : Dict TypeId ℤ) :
    Dict TypeId ℤ :=
  materials.foldl (fun needs material =>
    needs.add material.typeId (material.quantity * additionalRuns)) needs

/-- A level's expanded type: `additionalRuns` more runs of its step. -/
def Walk.build (walk : Walk) (typeId : TypeId) (quantity : ℤ) (blueprint : Blueprint)
    (additionalRuns : ℤ) : Walk :=
  let step := walk.stepFor typeId blueprint.productQuantity
  { walk with
    stepsByTypeId := walk.stepsByTypeId.set typeId { step with
      quantityNeeded := step.quantityNeeded + quantity
      runs := step.runs + additionalRuns
      materials := addNeeds additionalRuns blueprint.materials step.materials } }

section Resolve

variable (ceilQuotient : ℤ → ℤ → Except ArithmeticError ℤ) (db : List Blueprint)
  (target : TypeId) (buildSet : Finset TypeId)

/-- The blueprint by which the walk expands a type: the one that produces it, if
the type is the target or in the build set. -/
def expansion (typeId : TypeId) : Option Blueprint :=
  if typeId ≠ target ∧ typeId ∉ buildSet then none else blueprintForProduct db typeId

/-- The body of `for type_id, quantity in current_level.items()`.  The source
looks the blueprints of a level up before this loop; nothing changes them in
between. -/
def visitType (state : Walk × Dict TypeId ℤ) (item : TypeId × ℤ) :
    Except ArithmeticError (Walk × Dict TypeId ℤ) := do
  let (walk, nextLevel) := state
  let (typeId, quantity) := item
  match expansion db target buildSet typeId with
  | none => return (walk.buy typeId quantity (blueprintForProduct db typeId).isSome, nextLevel)
  | some blueprint =>
      let additionalRuns := max 1 (← ceilQuotient quantity blueprint.productQuantity)
      return (walk.build typeId quantity blueprint additionalRuns,
        addNeeds additionalRuns blueprint.materials nextLevel)

/-- One pass of the `while` loop: all types of the current level. -/
def visitLevel (walk : Walk) (currentLevel : Dict TypeId ℤ) :
    Except ArithmeticError (Walk × Dict TypeId ℤ) :=
  currentLevel.entries.foldlM (visitType ceilQuotient db target buildSet) (walk, .empty)

/-- `while current_level and depth < _MAX_DEPTH`, with the number of passes left.
Returns the dictionaries and the level at which the loop stopped. -/
def levelLoop : ℕ → Walk → Dict TypeId ℤ → Except ArithmeticError (Walk × Dict TypeId ℤ)
  | 0, walk, currentLevel => return (walk, currentLevel)
  | passes + 1, walk, currentLevel =>
      if currentLevel.entries = [] then return (walk, currentLevel)
      else do
        let (walk, nextLevel) ← visitLevel ceilQuotient db target buildSet walk currentLevel
        levelLoop passes walk nextLevel

/-- The loop over what the depth guard left: demand that is raw rather than lost. -/
def addLeftover (walk : Walk) (currentLevel : Dict TypeId ℤ) : Walk :=
  currentLevel.entries.foldl (fun walk (typeId, quantity) => { walk with
    rawTotals := walk.rawTotals.add typeId quantity
    rawBuildable := walk.rawBuildable.setDefault typeId false }) walk

/-- `_visit`, with the set of visited types and the list of ordered steps passed
along.  Each nested call has visited one more type of the dictionary, so that
`fuel` beyond the number of its steps is never used up. -/
def visit (stepsByTypeId : Dict TypeId BuildStep) :
    ℕ → Finset TypeId × List BuildStep → TypeId → Finset TypeId × List BuildStep
  | 0, state, _ => state
  | fuel + 1, (visited, ordered), typeId =>
      if typeId ∈ visited then (visited, ordered)
      else
        match stepsByTypeId.get? typeId with
        | none => (insert typeId visited, ordered)
        | some step =>
            let (visited, ordered) :=
              step.materials.keys.foldl (visit stepsByTypeId fuel) (insert typeId visited, ordered)
            (visited, ordered ++ [step])

/-- `_topological_order`. -/
def topologicalOrder (stepsByTypeId : Dict TypeId BuildStep) : List BuildStep :=
  (visit stepsByTypeId (stepsByTypeId.entries.length + 1) (∅, []) target).2

/-- `_name`. -/
def nameOf (typeName : TypeId → Option String) (typeId : TypeId) : String :=
  (typeName typeId).getD s!"Type {typeId}"

/-- `step.name = _name(step.type_id)` for every step. -/
def nameSteps (typeName : TypeId → Option String) (stepsByTypeId : Dict TypeId BuildStep) :
    Dict TypeId BuildStep :=
  ⟨stepsByTypeId.entries.map fun (typeId, step) =>
    (typeId, { step with name := nameOf typeName step.typeId }), by
      rw [List.map_map]
      exact stepsByTypeId.nodup_keys⟩

/-- The raw materials, sorted by name. -/
def rawMaterials (typeName : TypeId → Option String) (walk : Walk) : List RawMaterial :=
  (walk.rawTotals.entries.insertionSort fun first second =>
      nameOf typeName first.1 ≤ nameOf typeName second.1).map fun (typeId, quantity) =>
    { typeId
      name := nameOf typeName typeId
      quantity
      isBuildable := walk.rawBuildable.getD typeId false }

/-- The level loop of a request for `targetQuantity` of the target. -/
def resolveLevels (targetQuantity : ℤ) : Except ArithmeticError (Walk × Dict TypeId ℤ) :=
  levelLoop ceilQuotient db target buildSet maxDepth .start (.single target targetQuantity)

/-- `resolve_build_chain`. -/
def resolveBuildChain (typeName : TypeId → Option String) (targetQuantity : ℤ) :
    Except ArithmeticError BuildResolution := do
  let (walk, currentLevel) ← resolveLevels ceilQuotient db target buildSet targetQuantity
  let walk := addLeftover walk currentLevel
  let stepsByTypeId := nameSteps typeName walk.stepsByTypeId
  return {
    targetTypeId := target
    targetName := nameOf typeName target
    targetQuantity
    isBuildable := (stepsByTypeId.get? target).isSome
    steps := topologicalOrder target stepsByTypeId
    rawMaterials := rawMaterials typeName walk }

end Resolve

end EveBuild.BuildChain
