import EveBuild.Data.Grouping
import EveBuild.Startup.Resume

/-!
# The lookup collections are joins of the dumps

What `run_migrations` makes of an empty database, in the terms of a relational join
(`Joined`): one document for each row of a table, with what other tables have under the same
keys.  The blueprints are built, updated and tagged by two migrations, the types by three, and
the schematics twice over; the last stage says what comes of that (`Stage.joined`).

Where the keys of the dumps are unique, the migrations are completed exactly if the files that
they cannot do without exist, and no category or schematic comes twice (`imported_joined`).
-/

namespace EveBuild.Migrations

/-! ## Joins -/

section Joins

variable (dumps : Dumps)

/-- The rows of `industryActivityProducts` for manufacturing and reactions. -/
def Dumps.products : List IndustryActivityProduct :=
  (dumps.rows .industryActivityProducts).filter fun row =>
    row.activityID = manufacturingActivityId ∨ row.activityID = reactionsActivityId

/-- The rows of `planetSchematicsTypeMap`. -/
def Dumps.typeMap : List PlanetSchematicType := dumps.planetSchematicsTypeMap.getD []

/-- The outputs of schematics. -/
def Dumps.outputs : List PlanetSchematicType := dumps.typeMap.filter fun row => row.isInput = 0

/-- The schematics that have an output. -/
def Dumps.schematicsWithOutput : List PlanetSchematic :=
  (dumps.planetSchematics.getD []).filter fun row =>
    ∃ output ∈ dumps.outputs, output.schematicID = row.schematicID

/-- A type with its volume, and the category of its group. -/
structure TypeJoin (row : InvType) (document : TypeDocument) : Prop where
  name : document.name = row.typeName
  groupId : document.groupId = row.groupID
  published : document.published = decide (row.published ≠ 0)
  techLevel : document.techLevel = row.techLevel
  volume : document.volume = some (row.volume.getD 0)
  category : ∀ categoryId, document.categoryId = some categoryId →
    ∃ group ∈ dumps.invGroups.getD [],
      group.groupID = row.groupID ∧ group.categoryID = categoryId
  hasCategory : document.categoryId.isSome ↔
    ∃ group ∈ dumps.invGroups.getD [], group.groupID = row.groupID

/-- A product with the time and the materials of the same type and activity. -/
structure BlueprintJoin (row : IndustryActivityProduct) (document : BlueprintDocument) : Prop where
  productTypeId : document.productTypeId = row.productTypeID
  productQuantity : document.productQuantity = row.quantity
  activityId : document.activityId = some row.activityID
  time : ∀ time, document.manufacturingTimeSeconds = some time ↔
    ∃ activity ∈ dumps.rows .industryActivity, activity.typeID = row.typeID ∧
      activity.activityID = row.activityID ∧ activity.time = time
  materials : document.materials.Perm
    (((dumps.rows .industryActivityMaterials).filter fun material =>
      material.typeID = row.typeID ∧ material.activityID = row.activityID).map fun material =>
        ⟨material.materialTypeID, material.quantity⟩)

/-- A schematic with its output and its inputs. -/
structure SchematicJoin (row : PlanetSchematic) (output : PlanetSchematicType)
    (document : SchematicDocument) : Prop where
  name : document.name = row.schematicName
  cycleTime : document.cycleTimeSeconds = row.cycleTime
  output : document.output = ⟨output.typeID, output.quantity⟩
  inputs : document.inputs.Perm ((dumps.typeMap.filter fun input =>
    input.schematicID = row.schematicID ∧ input.isInput ≠ 0).map fun input =>
      ⟨input.typeID, input.quantity⟩)

/-- One document for each row, and no other. -/
structure Joined (world : World) : Prop where
  typeIds : (world.documents .sdeTypes).keys.Perm ((dumps.rows .invTypes).map InvType.typeID)
  types : ∀ row ∈ dumps.rows .invTypes, ∃ document,
    (world.documents .sdeTypes).get? row.typeID = some document ∧ TypeJoin dumps row document
  blueprintIds : (world.documents .sdeBlueprints).keys.Perm
    (dumps.products.map IndustryActivityProduct.typeID)
  blueprints : ∀ row ∈ dumps.products, ∃ document,
    (world.documents .sdeBlueprints).get? row.typeID = some document ∧
      BlueprintJoin dumps row document
  schematicIds : (world.documents .sdePlanetSchematics).keys.Perm
    (dumps.schematicsWithOutput.map PlanetSchematic.schematicID)
  schematics : ∀ row ∈ dumps.schematicsWithOutput, ∀ output ∈ dumps.outputs,
    output.schematicID = row.schematicID → ∃ document,
      (world.documents .sdePlanetSchematics).get? row.schematicID = some document ∧
        SchematicJoin dumps row output document

/-- The keys of the dumps are unique. -/
structure UniqueKeys : Prop where
  types : ((dumps.rows .invTypes).map InvType.typeID).Nodup
  activities : ((dumps.rows .industryActivity).map fun (row : IndustryActivity) =>
    (row.typeID, row.activityID)).Nodup
  products : ((dumps.rows .industryActivityProducts).map fun (row : IndustryActivityProduct) =>
    (row.typeID, row.activityID)).Nodup
  oneActivity : ∀ row ∈ dumps.rows .industryActivityProducts,
    ∀ other ∈ dumps.rows .industryActivityProducts,
      row.activityID = manufacturingActivityId → other.activityID = reactionsActivityId →
        row.typeID ≠ other.typeID
  outputs : (dumps.outputs.map PlanetSchematicType.schematicID).Nodup

/-- The files that the migrations cannot do without exist, and nothing in them comes twice. -/
structure Readable : Prop where
  invGroups : dumps.invGroups.isSome
  invCategories : dumps.invCategories.isSome
  planetSchematicsTypeMap : dumps.planetSchematicsTypeMap.isSome
  planetSchematics : dumps.planetSchematics.isSome
  categories : ((dumps.invCategories.getD []).map InvCategory.categoryID).Nodup
  schematics : (dumps.schematicsWithOutput.map PlanetSchematic.schematicID).Nodup

end Joins

/-! ## What the loops make of the rows -/

/-- The time of a type is that of its row. -/
theorem get?_timesOf {rows : List IndustryActivity}
    (hnodup : (rows.map IndustryActivity.typeID).Nodup) {typeID time : ℤ} :
    (timesOf rows).get? typeID = some time ↔
      ∃ row ∈ rows, row.typeID = typeID ∧ row.time = time := by
  have htimes : (timesOf rows).entries = rows.map fun row => (row.typeID, row.time) :=
    Dict.entries_indexBy IndustryActivity.time hnodup
  rw [Dict.get?_eq_some_iff, htimes, List.mem_map]
  simp only [Prod.mk.injEq]

/-- The materials of a type, in the order of their rows. -/
theorem getD_materialsOf (rows : List IndustryActivityMaterial) (typeID : ℤ) :
    (materialsOf rows).getD typeID [] =
      (rows.filter fun row => row.typeID = typeID).map fun row =>
        ⟨row.materialTypeID, row.quantity⟩ :=
  Dict.getD_appendBy (fun row : IndustryActivityMaterial => (⟨row.materialTypeID, row.quantity⟩ :
    Quantity)) rows typeID

theorem get?_volumeByTypeId {rows : List InvType} (hnodup : (rows.map InvType.typeID).Nodup)
    {row : InvType} (hrow : row ∈ rows) :
    (volumeByTypeId rows).get? row.typeID = some (row.volume.getD 0) :=
  Dict.get?_indexBy_of_mem (fun row : InvType => row.volume.getD 0) hnodup hrow

/-- A group has the category of one of its rows. -/
theorem get?_categoryIdByGroupId (groups : List InvGroup) (groupID : ℤ) :
    (∀ categoryID, (categoryIdByGroupId groups).get? groupID = some categoryID →
      ∃ group ∈ groups, group.groupID = groupID ∧ group.categoryID = categoryID) ∧
    (((categoryIdByGroupId groups).get? groupID).isSome ↔
      ∃ group ∈ groups, group.groupID = groupID) := by
  have hget : (categoryIdByGroupId groups).get? groupID =
      (Dict.group InvGroup.groupID groups groupID).getLast?.map InvGroup.categoryID :=
    Dict.get?_indexBy InvGroup.categoryID groups groupID
  constructor
  · intro categoryID hcategory
    rw [hget] at hcategory
    obtain ⟨group, hlast, rfl⟩ := Option.map_eq_some_iff.mp hcategory
    obtain ⟨hmem, hgroup⟩ := Dict.mem_group.mp (List.mem_of_getLast? hlast)
    exact ⟨group, hmem, hgroup, rfl⟩
  · have hkeys : groupID ∈ (categoryIdByGroupId groups).keys ↔
        ∃ group ∈ groups, group.groupID = groupID := Dict.mem_keys_indexBy
    rw [← hkeys, Dict.mem_keys_iff, Option.isSome_iff_exists]

theorem outputsOf_eq (rows : List PlanetSchematicType) :
    outputsOf rows = Dict.indexBy PlanetSchematicType.schematicID
      (fun row => ⟨row.typeID, row.quantity⟩) (rows.filter fun row => row.isInput = 0) := by
  unfold outputsOf Dict.indexBy
  rw [List.foldl_filter]
  congr 1
  funext outputs row
  by_cases hinput : row.isInput = 0 <;> simp [hinput]

theorem inputsOf_eq (rows : List PlanetSchematicType) :
    inputsOf rows = Dict.appendBy PlanetSchematicType.schematicID
      (fun row => ⟨row.typeID, row.quantity⟩) (rows.filter fun row => row.isInput ≠ 0) := by
  unfold inputsOf Dict.appendBy appendTo
  rw [List.foldl_filter]
  congr 1
  funext inputs row
  by_cases hinput : row.isInput = 0 <;> simp [hinput]

/-! ## Which documents there are -/

section Documents

variable {dumps : Dumps} {arrivals : Arrivals} {world : World}

theorem map_types (dumps : Dumps) :
    dumps.types.map Prod.fst = (dumps.rows .invTypes).map InvType.typeID := by
  rw [Dumps.types, typeDocuments, List.map_map]
  rfl

theorem map_categories (dumps : Dumps) : dumps.categories.map Prod.fst =
    (dumps.invCategories.getD []).map InvCategory.categoryID := by
  rw [Dumps.categories, categoryDocuments, List.map_map]
  rfl

theorem isSome_outputsOf (dumps : Dumps) (schematicID : ℤ) :
    ((outputsOf dumps.typeMap).get? schematicID).isSome ↔
      ∃ output ∈ dumps.outputs, output.schematicID = schematicID := by
  rw [outputsOf_eq, Option.isSome_iff_exists, ← Dict.mem_keys_iff, Dict.mem_keys_indexBy]
  rfl

theorem map_schematics (dumps : Dumps) : dumps.schematics.map Prod.fst =
    dumps.schematicsWithOutput.map PlanetSchematic.schematicID := by
  unfold Dumps.schematics Dumps.schematicsWithOutput schematicDocuments
  generalize dumps.planetSchematics.getD [] = rows
  induction rows with
  | nil => rfl
  | cons row rows ih =>
      have houtput := isSome_outputsOf dumps row.schematicID
      rw [Dumps.typeMap] at houtput
      cases hget : (outputsOf (dumps.planetSchematicsTypeMap.getD [])).get? row.schematicID with
      | none =>
          rw [hget] at houtput
          have hnone : ¬ ∃ output ∈ dumps.outputs, output.schematicID = row.schematicID :=
            fun hsome => by cases houtput.mpr hsome
          rw [List.filterMap_cons_none (by rw [hget]; rfl),
            List.filter_cons_of_neg (by simpa using hnone), ih]
      | some output =>
          rw [hget] at houtput
          have hsome := houtput.mp rfl
          rw [List.filterMap_cons_some (by rw [hget]; rfl),
            List.filter_cons_of_pos (by simpa using hsome), List.map_cons, List.map_cons, ih]

/-! ## Types -/

theorem typeIds_perm (hstage : TypesStage dumps 10 (world.documents .sdeTypes)) :
    (world.documents .sdeTypes).keys.Perm ((dumps.rows .invTypes).map InvType.typeID) := by
  have hnodup := (hstage.built (by decide)).1
  have hget := (hstage.category (by decide)).2
  rw [← map_types]
  refine Dict.keys_perm_of_forall hnodup fun id => ?_
  rw [hget id, ← not_iff_not, ← lookup_eq_none_iff]
  cases dumps.types.lookup id <;> simp

theorem types_joined (hunique : UniqueKeys dumps)
    (hstage : TypesStage dumps 10 (world.documents .sdeTypes)) {row : InvType}
    (hrow : row ∈ dumps.rows .invTypes) :
    ∃ document, (world.documents .sdeTypes).get? row.typeID = some document ∧
      TypeJoin dumps row document := by
  have hnodup := (hstage.built (by decide)).1
  have hget := (hstage.category (by decide)).2 row.typeID
  have hlookup := Dict.lookup_of_mem hnodup (List.mem_map_of_mem hrow)
  dsimp only at hlookup
  rw [hlookup] at hget
  refine ⟨_, hget, ?_⟩
  have hvolume : dumps.volumes.get? row.typeID = some (row.volume.getD 0) :=
    get?_volumeByTypeId hunique.types hrow
  obtain ⟨hcategory, hsome⟩ := get?_categoryIdByGroupId (dumps.invGroups.getD []) row.groupID
  rw [← Dumps.categoryIds] at hcategory hsome
  simp only [Dumps.addVolume, hvolume, Dumps.addCategory]
  cases hfound : dumps.categoryIds.get? row.groupID with
  | none =>
      -- a type whose group is not known has no category
      rw [hfound] at hsome
      refine ⟨rfl, rfl, rfl, rfl, rfl, ?_, by simpa using hsome⟩
      intro categoryId hcategoryId
      cases hcategoryId
  | some categoryId =>
      rw [hfound] at hsome hcategory
      exact ⟨rfl, rfl, rfl, rfl, rfl, hcategory, by simpa using hsome⟩

/-! ## Blueprints -/

/-- Among the rows of one activity, the other half of a unique key is unique. -/
theorem nodup_map_filter {Row : Type} {rows : List Row} {typeID activityID : Row → ℤ}
    (hnodup : (rows.map fun row => (typeID row, activityID row)).Nodup) (activity : ℤ) :
    ((rows.filter fun row => activityID row = activity).map typeID).Nodup := by
  have hpairs : ((rows.filter fun row => activityID row = activity).map typeID).map
        (fun id => (id, activity)) =
      (rows.filter fun row => activityID row = activity).map fun row =>
        (typeID row, activityID row) := by
    rw [List.map_map]
    refine List.map_congr_left fun row hrow => ?_
    rw [of_decide_eq_true (List.mem_filter.mp hrow).2]
    rfl
  refine List.Nodup.of_map (fun id => (id, activity)) ?_
  rw [hpairs]
  exact hnodup.sublist (List.filter_sublist.map _)

theorem activityRows_eq {table : Table} {activity : table.Row → ℤ}
    (hactivity : ∀ row, table.activityID row = some (activity row)) (dumps : Dumps)
    (activityID : ℤ) :
    dumps.activityRows table activityID =
      (dumps.rows table).filter fun row => activity row = activityID :=
  List.filter_congr fun row _ => by simp [hactivity]

theorem activityRows_products (dumps : Dumps) (activityID : ℤ) :
    dumps.activityRows .industryActivityProducts activityID =
      (dumps.rows .industryActivityProducts).filter fun (row : IndustryActivityProduct) =>
        row.activityID = activityID :=
  activityRows_eq (fun _ => rfl) dumps activityID

theorem activityRows_activities (dumps : Dumps) (activityID : ℤ) :
    dumps.activityRows .industryActivity activityID =
      (dumps.rows .industryActivity).filter fun (row : IndustryActivity) =>
        row.activityID = activityID :=
  activityRows_eq (fun _ => rfl) dumps activityID

theorem activityRows_materials (dumps : Dumps) (activityID : ℤ) :
    dumps.activityRows .industryActivityMaterials activityID =
      (dumps.rows .industryActivityMaterials).filter fun (row : IndustryActivityMaterial) =>
        row.activityID = activityID :=
  activityRows_eq (fun _ => rfl) dumps activityID

theorem nodup_blueprints (hunique : UniqueKeys dumps) (activityID : ℤ) (activityId : Option ℤ) :
    ((dumps.blueprints activityID activityId).map Prod.fst).Nodup := by
  rw [map_blueprints, activityRows_products]
  exact nodup_map_filter hunique.products activityID

theorem UniqueKeys.distinctFormulas (hunique : UniqueKeys dumps) : DistinctFormulas dumps := by
  rw [DistinctFormulas, ← map_blueprints dumps reactionsActivityId none]
  exact nodup_blueprints hunique _ _

theorem mem_map_blueprints {id activityID : ℤ} {activityId : Option ℤ} :
    id ∈ (dumps.blueprints activityID activityId).map Prod.fst ↔
      ∃ row ∈ dumps.rows .industryActivityProducts,
        row.activityID = activityID ∧ row.typeID = id := by
  rw [map_blueprints, activityRows_products, List.mem_map]
  simp only [List.mem_filter, decide_eq_true_eq, and_assoc]

/-- The document of a product, before it is tagged with its activity. -/
theorem exists_blueprint (hunique : UniqueKeys dumps) {row : IndustryActivityProduct}
    (hrow : row ∈ dumps.rows .industryActivityProducts) (activityId : Option ℤ) :
    ∃ document, (row.typeID, document) ∈ dumps.blueprints row.activityID activityId ∧
      document.activityId = activityId ∧
      BlueprintJoin dumps row { document with activityId := some row.activityID } := by
  have hmem : row ∈ dumps.activityRows .industryActivityProducts row.activityID := by
    rw [activityRows_products]
    exact List.mem_filter.mpr ⟨hrow, decide_eq_true rfl⟩
  refine ⟨_, List.mem_map_of_mem hmem, rfl, rfl, rfl, rfl, fun time => ?_, ?_⟩
  · show (timesOf _).get? row.typeID = some time ↔ _
    rw [activityRows_activities, get?_timesOf (nodup_map_filter hunique.activities row.activityID)]
    simp only [List.mem_filter, decide_eq_true_eq]
    constructor
    · rintro ⟨activity, ⟨hactivity, hsame⟩, htype, htime⟩
      exact ⟨activity, hactivity, htype, hsame, htime⟩
    · rintro ⟨activity, hactivity, htype, hsame, htime⟩
      exact ⟨activity, ⟨hactivity, hsame⟩, htype, htime⟩
  · show ((materialsOf _).getD row.typeID []).Perm _
    rw [activityRows_materials, getD_materialsOf, List.filter_filter]
    refine List.Perm.of_eq (congrArg _ (List.filter_congr fun material _ => ?_))
    rw [Bool.decide_and]

/-- The formulas come after the blueprints, and no type has both. -/
theorem blueprints_joined (hunique : UniqueKeys dumps)
    (hstage : BlueprintsStage dumps arrivals 10 (world.documents .sdeBlueprints))
    {row : IndustryActivityProduct} (hrow : row ∈ dumps.products) : ∃ document,
      (world.documents .sdeBlueprints).get? row.typeID = some document ∧
        BlueprintJoin dumps row document := by
  obtain ⟨hmem, hactivity⟩ := List.mem_filter.mp hrow
  have hget := hstage.reactions (by decide) row.typeID
  rcases of_decide_eq_true hactivity with hmanufacturing | hreaction
  · -- a blueprint, which no formula has replaced, is tagged at the end
    obtain ⟨document, hdocument, htag, hjoin⟩ := exists_blueprint hunique hmem none
    rw [hmanufacturing] at hdocument
    have hnoFormula : (dumps.formulas arrivals).reverse.lookup row.typeID = none := by
      rw [lookup_formulas_eq_none_iff]
      intro hformula
      obtain ⟨other, hother, hreaction, hsame⟩ := mem_map_blueprints.mp hformula
      exact hunique.oneActivity row hmem other hother hmanufacturing hreaction hsame.symm
    have hlookup : dumps.manufacturing.lookup row.typeID = some document :=
      Dict.lookup_of_mem (nodup_blueprints hunique _ _) hdocument
    rw [hnoFormula, hlookup] at hget
    refine ⟨_, hget, ?_⟩
    rw [addActivity, htag, Option.getD_none, ← hmanufacturing]
    exact hjoin
  · -- a formula, which has its tag from the beginning
    obtain ⟨document, hdocument, htag, hjoin⟩ :=
      exists_blueprint hunique hmem (some reactionsActivityId)
    rw [hreaction] at hdocument
    have hlookup : dumps.reactions.lookup row.typeID = some document :=
      Dict.lookup_of_mem (nodup_blueprints hunique _ _) hdocument
    rw [lookup_formulas hunique.distinctFormulas, hlookup] at hget
    refine ⟨document, hget, ?_⟩
    rw [hreaction, ← htag] at hjoin
    exact hjoin

theorem nodup_products (hunique : UniqueKeys dumps) :
    (dumps.products.map IndustryActivityProduct.typeID).Nodup := by
  have hrows : dumps.products.Nodup := hunique.products.of_map.sublist List.filter_sublist
  refine List.Nodup.map_on (fun row hrow other hother hsame => ?_) hrows
  obtain ⟨hmem, hactivity⟩ := List.mem_filter.mp hrow
  obtain ⟨hmemOther, hactivityOther⟩ := List.mem_filter.mp hother
  -- the two have one activity, and then the key is the same
  refine List.inj_on_of_nodup_map hunique.products hmem hmemOther (Prod.ext hsame ?_)
  rcases of_decide_eq_true hactivity with hfirst | hfirst <;>
    rcases of_decide_eq_true hactivityOther with hsecond | hsecond
  · exact hfirst.trans hsecond.symm
  · exact absurd hsame (hunique.oneActivity row hmem other hmemOther hfirst hsecond)
  · exact absurd hsame.symm (hunique.oneActivity other hmemOther row hmem hsecond hfirst)
  · exact hfirst.trans hsecond.symm

theorem blueprintIds_perm (hunique : UniqueKeys dumps)
    (hstage : BlueprintsStage dumps arrivals 10 (world.documents .sdeBlueprints)) :
    (world.documents .sdeBlueprints).keys.Perm
      (dumps.products.map IndustryActivityProduct.typeID) := by
  refine Dict.keys_perm_of_forall (nodup_products hunique) fun id => ?_
  have hids : id ∈ dumps.products.map IndustryActivityProduct.typeID ↔
      id ∈ dumps.reactions.map Prod.fst ∨ id ∈ dumps.manufacturing.map Prod.fst := by
    rw [Dumps.reactions, Dumps.manufacturing, mem_map_blueprints, mem_map_blueprints,
      Dumps.products, List.mem_map]
    simp only [List.mem_filter, decide_eq_true_eq]
    constructor
    · rintro ⟨row, ⟨hrow, hactivity | hactivity⟩, hid⟩
      · exact Or.inr ⟨row, hrow, hactivity, hid⟩
      · exact Or.inl ⟨row, hrow, hactivity, hid⟩
    · rintro (⟨row, hrow, hactivity, hid⟩ | ⟨row, hrow, hactivity, hid⟩)
      · exact ⟨row, ⟨hrow, Or.inr hactivity⟩, hid⟩
      · exact ⟨row, ⟨hrow, Or.inl hactivity⟩, hid⟩
  rw [hids, hstage.reactions (by decide) id, ← not_iff_not, not_or,
    ← @lookup_formulas_eq_none_iff dumps arrivals, ← lookup_eq_none_iff]
  cases (dumps.formulas arrivals).reverse.lookup id <;>
    cases dumps.manufacturing.lookup id <;> simp

/-! ## Schematics -/

theorem schematicIds_perm
    (hstage : SchematicsStage dumps 10 (world.documents .sdePlanetSchematics)) :
    (world.documents .sdePlanetSchematics).keys.Perm
      (dumps.schematicsWithOutput.map PlanetSchematic.schematicID) := by
  obtain ⟨_, _, hnodup, hget⟩ := hstage.built (by decide)
  rw [← map_schematics]
  refine Dict.keys_perm_of_forall hnodup fun id => ?_
  rw [hget id, ← not_iff_not, ← lookup_eq_none_iff]
  cases dumps.schematics.lookup id <;> simp

theorem schematics_joined (hunique : UniqueKeys dumps)
    (hstage : SchematicsStage dumps 10 (world.documents .sdePlanetSchematics))
    {row : PlanetSchematic} (hrow : row ∈ dumps.schematicsWithOutput)
    {output : PlanetSchematicType} (houtput : output ∈ dumps.outputs)
    (hsame : output.schematicID = row.schematicID) : ∃ document,
      (world.documents .sdePlanetSchematics).get? row.schematicID = some document ∧
        SchematicJoin dumps row output document := by
  obtain ⟨_, _, hnodup, hget⟩ := hstage.built (by decide)
  have hfound : (outputsOf dumps.typeMap).get? row.schematicID =
      some ⟨output.typeID, output.quantity⟩ := by
    rw [outputsOf_eq, ← hsame]
    exact Dict.get?_indexBy_of_mem (fun row : PlanetSchematicType =>
      (⟨row.typeID, row.quantity⟩ : Quantity)) hunique.outputs houtput
  have hmem : (row.schematicID, SchematicDocument.mk row.schematicName row.cycleTime
      ⟨output.typeID, output.quantity⟩ ((inputsOf dumps.typeMap).getD row.schematicID [])) ∈
        dumps.schematics :=
    List.mem_filterMap.mpr ⟨row, (List.mem_filter.mp hrow).1, by
      rw [← Dumps.typeMap, hfound]
      rfl⟩
  refine ⟨_, (hget _).trans (Dict.lookup_of_mem hnodup hmem), rfl, rfl, rfl, ?_⟩
  show ((inputsOf dumps.typeMap).getD row.schematicID []).Perm _
  rw [inputsOf_eq, Dict.getD_appendBy, Dict.group, List.filter_filter]
  refine List.Perm.of_eq (congrArg _ (List.filter_congr fun input _ => ?_))
  rw [Bool.decide_and]

/-! ## All collections -/

/-- **The last stage is the join.** -/
theorem Stage.joined (hunique : UniqueKeys dumps) (hstage : Stage dumps arrivals 10 world) :
    Joined dumps world where
  typeIds := typeIds_perm (hstage.documents .sdeTypes)
  types _ hrow := types_joined hunique (hstage.documents .sdeTypes) hrow
  blueprintIds := blueprintIds_perm hunique (hstage.documents .sdeBlueprints)
  blueprints _ hrow := blueprints_joined hunique (hstage.documents .sdeBlueprints) hrow
  schematicIds := schematicIds_perm (hstage.documents .sdePlanetSchematics)
  schematics _ hrow _ houtput hsame :=
    schematics_joined hunique (hstage.documents .sdePlanetSchematics) hrow houtput hsame

theorem importable_iff (hunique : UniqueKeys dumps) : Importable dumps ↔ Readable dumps := by
  constructor
  · intro himportable
    exact {
      invGroups := himportable.invGroups
      invCategories := himportable.invCategories
      planetSchematicsTypeMap := himportable.planetSchematicsTypeMap
      planetSchematics := himportable.planetSchematics
      categories := map_categories dumps ▸ himportable.categories
      schematics := map_schematics dumps ▸ himportable.schematics }
  · intro hreadable
    exact {
      invGroups := hreadable.invGroups
      invCategories := hreadable.invCategories
      planetSchematicsTypeMap := hreadable.planetSchematicsTypeMap
      planetSchematics := hreadable.planetSchematics
      types := map_types dumps ▸ hunique.types
      manufacturing := nodup_blueprints hunique _ _
      categories := map_categories dumps ▸ hreadable.categories
      schematics := map_schematics dumps ▸ hreadable.schematics }

/-- A run that has completed has come to the last stage. -/
theorem stage_of_completed (hcompleted : (uninterrupted dumps arrivals).1 = .ok ()) :
    Stage dumps arrivals 10 (uninterrupted dumps arrivals).2 := by
  have hends := ends_uninterrupted dumps arrivals
  rw [hcompleted] at hends
  exact hends.2

/-- **The lookup collections are the relational join of the dumps**, once `run_migrations` has
completed on an empty database, in whatever order the updates arrive; and it completes exactly if
the dumps can be read. -/
theorem imported_joined (hunique : UniqueKeys dumps) (arrivals : Arrivals) :
    ((uninterrupted dumps arrivals).1 = .ok () ↔ Readable dumps) ∧
      ((uninterrupted dumps arrivals).1 = .ok () →
        Joined dumps (uninterrupted dumps arrivals).2) := by
  refine ⟨?_, fun hcompleted => (stage_of_completed hcompleted).joined hunique⟩
  rw [← importable_iff hunique]
  constructor
  · intro hcompleted
    exact (stage_of_completed hcompleted).importable
  · intro himportable
    exact (stage_uninterrupted himportable arrivals).1

end Documents

theorem imported_joined_formula : (uninterrupted joinedDumps .reversed).1 = .ok () ∧
    Joined joinedDumps (uninterrupted joinedDumps .reversed).2 := by
  have hunique : UniqueKeys joinedDumps := ⟨by decide, by decide, by decide, by decide, by decide⟩
  have hreadable : Readable joinedDumps := ⟨rfl, rfl, rfl, rfl, by decide, by decide⟩
  obtain ⟨hcompletes, hjoined⟩ := imported_joined hunique .reversed
  exact ⟨hcompletes.mpr hreadable, hjoined (hcompletes.mpr hreadable)⟩

end EveBuild.Migrations
