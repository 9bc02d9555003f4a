import EveBuild.Data.Dict
import Mathlib.Data.Rat.Defs

/-!
# SDE dumps and lookup collections

The dump files of `sde_data_dir` that the migrations read, each with the columns that are
read, and the documents of the lookup collections that the migrations make of them.

A dump file is `none` where it does not exist.
-/

namespace EveBuild.Migrations

/-! ## Dumps -/

structure InvType where
  typeID : ℤ
  typeName : String
  groupID : ℤ
  published : ℤ
  techLevel : Option ℤ
  volume : Option ℚ
deriving DecidableEq

structure IndustryActivity where
  typeID : ℤ
  activityID : ℤ
  time : ℤ
deriving DecidableEq

structure IndustryActivityMaterial where
  typeID : ℤ
  activityID : ℤ
  materialTypeID : ℤ
  quantity : ℤ
deriving DecidableEq

structure IndustryActivityProduct where
  typeID : ℤ
  activityID : ℤ
  productTypeID : ℤ
  quantity : ℤ
deriving DecidableEq

structure InvGroup where
  groupID : ℤ
  categoryID : ℤ

structure InvCategory where
  categoryID : ℤ
  categoryName : String

structure PlanetSchematic where
  schematicID : ℤ
  schematicName : String
  cycleTime : ℤ

structure PlanetSchematicType where
  schematicID : ℤ
  typeID : ℤ
  quantity : ℤ
  isInput : ℤ

/-- `_REQUIRED_TABLES`. -/
inductive Table
  | invTypes
  | industryActivity
  | industryActivityMaterials
  | industryActivityProducts
deriving DecidableEq

namespace Table

abbrev Row : Table → Type
  | invTypes => InvType
  | industryActivity => IndustryActivity
  | industryActivityMaterials => IndustryActivityMaterial
  | industryActivityProducts => IndustryActivityProduct

def name : Table → String
  | invTypes => "invTypes"
  | industryActivity => "industryActivity"
  | industryActivityMaterials => "industryActivityMaterials"
  | industryActivityProducts => "industryActivityProducts"

/-- The tables in the order of their files. -/
def sorted : List Table :=
  [industryActivity, industryActivityMaterials, industryActivityProducts, invTypes]

theorem mem_sorted (table : Table) : table ∈ sorted := by
  cases table <;> decide

/-- The activity of a row, if it has one. -/
def activityID : (table : Table) → table.Row → Option ℤ
  | invTypes, _ => none
  | industryActivity, row => some row.activityID
  | industryActivityMaterials, row => some row.activityID
  | industryActivityProducts, row => some row.activityID

end Table

/-- The dump files. -/
structure Dumps where
  table : (table : Table) → Option (List table.Row)
  invGroups : Option (List InvGroup)
  invCategories : Option (List InvCategory)
  planetSchematics : Option (List PlanetSchematic)
  planetSchematicsTypeMap : Option (List PlanetSchematicType)

/-- The tables whose dump files exist. -/
def Dumps.tables (dumps : Dumps) : List Table :=
  Table.sorted.filter fun table => (dumps.table table).isSome

/-! ## Documents -/

structure TypeDocument where
  name : String
  groupId : ℤ
  published : Bool
  techLevel : Option ℤ
  volume : Option ℚ := none
  categoryId : Option ℤ := none
deriving DecidableEq

structure Quantity where
  typeId : ℤ
  quantity : ℤ
deriving DecidableEq

structure BlueprintDocument where
  productTypeId : ℤ
  productQuantity : ℤ
  manufacturingTimeSeconds : Option ℤ
  materials : List Quantity
  activityId : Option ℤ := none
deriving DecidableEq

structure CategoryDocument where
  name : String
deriving DecidableEq

structure SchematicDocument where
  name : String
  cycleTimeSeconds : ℤ
  output : Quantity
  inputs : List Quantity
deriving DecidableEq

/-- The lookup collections. -/
inductive Collection
  | sdeTypes
  | sdeBlueprints
  | sdeCategories
  | sdePlanetSchematics
deriving DecidableEq

/-- A document, without its `_id`. -/
abbrev Collection.Document : Collection → Type
  | sdeTypes => TypeDocument
  | sdeBlueprints => BlueprintDocument
  | sdeCategories => CategoryDocument
  | sdePlanetSchematics => SchematicDocument

/-! ## Documents of rows -/

/-- `type_docs`. -/
def typeDocuments (rows : List InvType) : List (ℤ × TypeDocument) :=
  rows.map fun (row : InvType) => (row.typeID, {
    name := row.typeName
    groupId := row.groupID
    published := decide (row.published ≠ 0)
    techLevel := row.techLevel })

/-- `d.setdefault(k, []).append(v)`. -/
def appendTo {V : Type} (lists : Dict ℤ (List V)) (key : ℤ) (value : V) : Dict ℤ (List V) :=
  lists.set key (lists.getD key [] ++ [value])

/-- `times`. -/
def timesOf (rows : List IndustryActivity) : Dict ℤ ℤ :=
  rows.foldl (fun times row => times.set row.typeID row.time) .empty

/-- `materials`. -/
def materialsOf (rows : List IndustryActivityMaterial) : Dict ℤ (List Quantity) :=
  rows.foldl (fun materials row =>
    appendTo materials row.typeID ⟨row.materialTypeID, row.quantity⟩) .empty

/-- `blueprint_docs` of 0002 and `reaction_docs` of 0008, which have an activity. -/
def blueprintDocuments (activityId : Option ℤ) (activities : List IndustryActivity)
    (materials : List IndustryActivityMaterial) (products : List IndustryActivityProduct) :
    List (ℤ × BlueprintDocument) :=
  products.map fun row => (row.typeID, {
    productTypeId := row.productTypeID
    productQuantity := row.quantity
    manufacturingTimeSeconds := (timesOf activities).get? row.typeID
    materials := (materialsOf materials).getD row.typeID []
    activityId := activityId })

/-- `volume_by_type_id`. -/
def volumeByTypeId (rows : List InvType) : Dict ℤ ℚ :=
  rows.foldl (fun volumes row => volumes.set row.typeID (row.volume.getD 0)) .empty

/-- `category_id_by_group_id`. -/
def categoryIdByGroupId (groups : List InvGroup) : Dict ℤ ℤ :=
  groups.foldl (fun categories row => categories.set row.groupID row.categoryID) .empty

/-- `category_docs`. -/
def categoryDocuments (categories : List InvCategory) : List (ℤ × CategoryDocument) :=
  categories.map fun row => (row.categoryID, { name := row.categoryName })

/-- `inputs`. -/
def inputsOf (rows : List PlanetSchematicType) : Dict ℤ (List Quantity) :=
  rows.foldl (fun inputs row =>
    if row.isInput ≠ 0 then appendTo inputs row.schematicID ⟨row.typeID, row.quantity⟩
    else inputs) .empty

/-- `outputs`. -/
def outputsOf (rows : List PlanetSchematicType) : Dict ℤ Quantity :=
  rows.foldl (fun outputs row =>
    if row.isInput ≠ 0 then outputs
    else outputs.set row.schematicID ⟨row.typeID, row.quantity⟩) .empty

/-- `schematic_docs`. -/
def schematicDocuments (typeMap : List PlanetSchematicType) (schematics : List PlanetSchematic) :
    List (ℤ × SchematicDocument) :=
  schematics.filterMap fun row => ((outputsOf typeMap).get? row.schematicID).map fun output =>
    (row.schematicID, {
      name := row.schematicName
      cycleTimeSeconds := row.cycleTime
      output
      inputs := (inputsOf typeMap).getD row.schematicID [] })

end EveBuild.Migrations
