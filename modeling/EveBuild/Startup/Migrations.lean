import Mathlib.Data.List.Sort
import EveBuild.Data.Delivery
import EveBuild.Effect.Alone
import EveBuild.Startup.Dumps

/-!
# Migrations

`run_migrations` of `app/migrations/runner.py` and the migrations 0001 to 0010.  The SDE
dumps are imported into raw tables, the lookup collections built of them, and fields and
documents added to these later on; a migration is recorded in `_migrations` once it has
been applied, and skipped from then on.

`migrating` runs any number of calls of `run_migrations` at the same time, one for each
start of a replica, against one database.

* A call of the database is carried out, or fails after any part of it has been carried
  out.  A query is answered at once, with the documents in the order in which they have been
  inserted.
* The updates of a batch are sent at once by `asyncio.gather`, and arrive in any order: each start
  has its `Arrivals`, and what is proved holds for all of them.  The order matters where two of
  them go to one document, and so for the formulas of 0008 if two products of reactions have one
  `typeID`.  The call is going on until the last update of the batch has come back.
* A replica can be killed at any time.  What it has sent by then has been carried out in part, and
  the rest of it does not arrive later.
* The ids that MongoDB makes for rows, the times in `_migrations`, indexes and the
  collection `market_order_history` are left out.
-/

namespace EveBuild.Migrations

open Effect

/-! ## Calls -/

/-- What can be raised. -/
inductive MigrationError
  | fileNotFound
  | duplicateKey
  | database
deriving DecidableEq

inductive Op
  | info (message argument : String)
  | findApplied (ids : Option (List String))
  | insertApplied (id : String)
  | find (table : Table) (activityID : Option ℤ)
  | deleteRows (table : Table)
  | insertRows (table : Table) (rows : List table.Row)
  | findDocuments (collection : Collection)
  | deleteDocuments (collection : Collection)
  | insertDocuments (collection : Collection) (documents : List (ℤ × collection.Document))
  | setVolume (typeId : ℤ) (volume : ℚ)
  | setCategoryId (typeId categoryId : ℤ)
  | upsertBlueprint (blueprintTypeId : ℤ) (document : BlueprintDocument)
  | setMissingActivityId (activityId : ℤ)
  | dropCollection (collectionName : String)
  | createIndex (collection : Collection) (keys : List (String × ℤ))

abbrev Op.Answer : Op → Type
  | findApplied _ => List String
  | find table _ => List table.Row
  | findDocuments collection => List (ℤ × collection.Document)
  | _ => Unit

abbrev signature : Signature := ⟨Op, Op.Answer⟩

abbrev Code := Program signature MigrationError

def await (op : Op) : Code op.Answer := Program.perform (S := signature) op

/-- `logger.info`. -/
def info (message argument : String) : Code Unit := await (.info message argument)

/-- A dump file is read. -/
def load {α : Type} : Option (List α) → Code (List α)
  | some rows => return rows
  | none => throw .fileNotFound

/-- `items[start : start + size] for start in range(0, len(items), size)`. -/
def batches {α : Type} (size : ℕ) (items : List α) : List (List α) :=
  (List.range ((items.length + size - 1) / size)).map fun index =>
    (items.drop (index * size)).take size

/-! ## The migrations -/

/-- `_BATCH_SIZE` of the inserts. -/
def insertBatchSize : ℕ := 5000

/-- `_BATCH_SIZE` of the updates. -/
def updateBatchSize : ℕ := 500

def manufacturingActivityId : ℤ := 1
def reactionsActivityId : ℤ := 11

/-- `_replace_all`. -/
def replaceAll (collection : Collection) (documents : List (ℤ × collection.Document)) :
    Code Unit := do
  await (.deleteDocuments collection)
  Program.forEach
    (fun batch => match batch with
      | [] => return ()
      | _ => await (.insertDocuments collection batch))
    (batches insertBatchSize documents)

/-- `_step_id`. -/
def stepId (table : Table) : String := "0001_import_raw_sde_tables:" ++ table.name

/-- `_import_table`. -/
def importTable (table : Table) (rows : List table.Row) : Code Unit := do
  await (.deleteRows table)
  Program.forEach
    (fun batch => match batch with
      | [] => return ()
      | _ => await (.insertRows table batch))
    (batches insertBatchSize rows)

/-- One table of 0001. -/
def importStep (dumps : Dumps) (appliedSteps : List String) (table : Table) : Code Unit := do
  if stepId table ∈ appliedSteps then
    info "Skipping already-imported SDE table %s" table.name
  else
    info "Importing SDE table %s" table.name
    let rows ← load (dumps.table table)
    importTable table rows
    await (.insertApplied (stepId table))
    info "Imported SDE table %s" table.name

/-- `0001_import_raw_sde_tables`. -/
def importRawSdeTables (dumps : Dumps) : Code Unit := do
  let appliedSteps ← await (.findApplied (some (dumps.tables.map stepId)))
  Program.forEach (importStep dumps appliedSteps) dumps.tables

/-- The rows of an activity, and the documents that are made of them, with an activity or
without. -/
def readBlueprints (activityID : ℤ) (activityId : Option ℤ) :
    Code (List (ℤ × BlueprintDocument)) := do
  let activities ← await (.find .industryActivity (some activityID))
  let materials ← await (.find .industryActivityMaterials (some activityID))
  let products ← await (.find .industryActivityProducts (some activityID))
  return blueprintDocuments activityId activities materials products

/-- `0002_build_sde_lookup_collections`. -/
def buildSdeLookupCollections : Code Unit := do
  let types ← await (.find .invTypes none)
  let blueprintDocs ← readBlueprints manufacturingActivityId none
  replaceAll .sdeTypes (typeDocuments types)
  replaceAll .sdeBlueprints blueprintDocs

/-- When the updates of 0003, 0004 and 0008 arrive: the time of each one, by its place among all
that the migration sends. -/
structure Arrivals where
  volumes : ℕ → ℕ
  categories : ℕ → ℕ
  formulas : ℕ → ℕ

/-- The updates arrive as they are sent. -/
def Arrivals.asSent : Arrivals := ⟨id, id, id⟩

/-- The entries of a batch, each with its place, in the order in which they arrive. -/
def inOrder {α : Type} (arrival : ℕ → ℕ) (batch : List (α × ℕ)) : List α :=
  (batch.insertionSort fun first second => arrival first.2 ≤ arrival second.2).map Prod.fst

/-- `for start in range(…): await asyncio.gather(…)`. -/
def gatherBatches {α : Type} (arrival : ℕ → ℕ) (update : α → Code Unit) (entries : List α) :
    Code Unit :=
  Program.forEach (fun batch => Program.gather update (inOrder arrival batch))
    (batches updateBatchSize entries.zipIdx)

/-- `0003_add_volume_to_sde_types`. -/
def addVolumeToSdeTypes (arrival : ℕ → ℕ) : Code Unit := do
  let types ← await (.find .invTypes none)
  gatherBatches arrival (fun (entry : ℤ × ℚ) => await (.setVolume entry.1 entry.2))
    (volumeByTypeId types).entries

/-- `entries` of 0004. -/
def categoryEntries (categories : Dict ℤ ℤ) (types : List (ℤ × TypeDocument)) : List (ℤ × ℤ) :=
  types.filterMap fun entry =>
    (categories.get? entry.2.groupId).map fun categoryId => (entry.1, categoryId)

/-- `0004_add_category_id_to_sde_types`. -/
def addCategoryIdToSdeTypes (dumps : Dumps) (arrival : ℕ → ℕ) : Code Unit := do
  let groups ← load dumps.invGroups
  let types ← await (.findDocuments .sdeTypes)
  gatherBatches arrival (fun (entry : ℤ × ℤ) => await (.setCategoryId entry.1 entry.2))
    (categoryEntries (categoryIdByGroupId groups) types)

/-- `0005_import_sde_categories`. -/
def importSdeCategories (dumps : Dumps) : Code Unit := do
  let categories ← load dumps.invCategories
  replaceAll .sdeCategories (categoryDocuments categories)

/-- `0006_build_sde_planet_schematics`. -/
def buildSdePlanetSchematics (dumps : Dumps) : Code Unit := do
  let typeMap ← load dumps.planetSchematicsTypeMap
  let schematics ← load dumps.planetSchematics
  replaceAll .sdePlanetSchematics (schematicDocuments typeMap schematics)

/-- `0007_rebuild_sde_planet_schematics`. -/
def rebuildSdePlanetSchematics (dumps : Dumps) : Code Unit := buildSdePlanetSchematics dumps

/-- `0008_add_reaction_formulas_to_sde_blueprints`. -/
def addReactionFormulasToSdeBlueprints (arrival : ℕ → ℕ) : Code Unit := do
  let reactionDocs ← readBlueprints reactionsActivityId (some reactionsActivityId)
  gatherBatches arrival
    (fun (entry : ℤ × BlueprintDocument) => await (.upsertBlueprint entry.1 entry.2)) reactionDocs
  await (.setMissingActivityId manufacturingActivityId)

/-- `0009_drop_market_order_history`. -/
def dropMarketOrderHistory : Code Unit := await (.dropCollection "market_order_history")

/-- `0010_index_sde_blueprints_by_product`. -/
def indexSdeBlueprintsByProduct : Code Unit :=
  await (.createIndex .sdeBlueprints [("product_type_id", 1)])

/-! ## The runner -/

structure Migration where
  migrationId : String
  apply : Code Unit

/-- `_discover_migrations`. -/
def discoverMigrations (dumps : Dumps) (arrivals : Arrivals) : List Migration :=
  [⟨"0001_import_raw_sde_tables", importRawSdeTables dumps⟩,
    ⟨"0002_build_sde_lookup_collections", buildSdeLookupCollections⟩,
    ⟨"0003_add_volume_to_sde_types", addVolumeToSdeTypes arrivals.volumes⟩,
    ⟨"0004_add_category_id_to_sde_types", addCategoryIdToSdeTypes dumps arrivals.categories⟩,
    ⟨"0005_import_sde_categories", importSdeCategories dumps⟩,
    ⟨"0006_build_sde_planet_schematics", buildSdePlanetSchematics dumps⟩,
    ⟨"0007_rebuild_sde_planet_schematics", rebuildSdePlanetSchematics dumps⟩,
    ⟨"0008_add_reaction_formulas_to_sde_blueprints",
      addReactionFormulasToSdeBlueprints arrivals.formulas⟩,
    ⟨"0009_drop_market_order_history", dropMarketOrderHistory⟩,
    ⟨"0010_index_sde_blueprints_by_product", indexSdeBlueprintsByProduct⟩]

/-- What is logged before a migration is applied. -/
def applyingMessage : String := "Applying migration %s"

/-- One migration of `run_migrations`. -/
def runMigration (appliedIds : List String) (migration : Migration) : Code Unit := do
  if migration.migrationId ∈ appliedIds then
    info "Skipping already-applied migration %s" migration.migrationId
  else
    info applyingMessage migration.migrationId
    migration.apply
    await (.insertApplied migration.migrationId)
    info "Applied migration %s" migration.migrationId

/-- `run_migrations`. -/
def runMigrations (dumps : Dumps) (arrivals : Arrivals) : Code Unit := do
  let appliedIds ← await (.findApplied none)
  Program.forEach (runMigration appliedIds) (discoverMigrations dumps arrivals)

/-! ## The system -/

/-- The ids in `_migrations`, the rows of the raw tables and the documents of the lookup
collections. -/
structure World where
  applied : List String
  rows : (table : Table) → List table.Row
  documents : (collection : Collection) → Dict ℤ collection.Document

namespace World

/-- An empty database. -/
def empty : World := ⟨[], fun _ => [], fun _ => .empty⟩

variable (world : World)

/-- An id that is there is not inserted again. -/
def insertApplied (ids : List String) : World :=
  { world with applied := world.applied ++ ids.filter (· ∉ world.applied) }

def setRows (table : Table) (rows : List table.Row) : World :=
  { world with rows := Function.update world.rows table rows }

def setDocuments (collection : Collection) (documents : Dict ℤ collection.Document) : World :=
  { world with documents := Function.update world.documents collection documents }

end World

/-- Documents are inserted where their id is not there yet. -/
def insertNew {V : Type} (documents : Dict ℤ V) (new : List (ℤ × V)) : Dict ℤ V :=
  new.foldl (fun documents entry => documents.setDefault entry.1 entry.2) documents

/-- No id is there yet, or comes twice. -/
def Insertable {V : Type} (documents : Dict ℤ V) (new : List (ℤ × V)) : Prop :=
  (new.map Prod.fst).Nodup ∧ ∀ entry ∈ new, entry.1 ∉ documents.keys

instance {V : Type} (documents : Dict ℤ V) (new : List (ℤ × V)) :
    Decidable (Insertable documents new) := inferInstanceAs (Decidable (_ ∧ _))

/-- `update_one` for each of the ids. -/
def updateEach {V : Type} (update : V → V) (documents : Dict ℤ V) (ids : List ℤ) : Dict ℤ V :=
  ids.foldl (fun documents id => documents.modify id update) documents

/-- The documents that a delete leaves. -/
def leave {V : Type} (delivery : Delivery) (documents : Dict ℤ V) : Dict ℤ V where
  entries := delivery.rest documents.entries
  nodup_keys := documents.nodup_keys.sublist ((delivery.rest_sublist _).map _)

/-- The insert of something that must not be there yet. -/
def insertAnswer (delivery : Delivery) (insertable : Bool) : Except MigrationError Unit :=
  match delivery with
  | .done => if insertable then .ok () else .error .duplicateKey
  | .error _ => .error .database

/-- A call that has been carried out as far as the delivery says. -/
def respond (op : Op) (delivery : Delivery) (world : World) :
    Except MigrationError op.Answer × World :=
  match op with
  | .info .. => (.ok (), world)
  | .findApplied none => (delivery.answer .database world.applied, world)
  | .findApplied (some ids) =>
      (delivery.answer .database (world.applied.filter (· ∈ ids)), world)
  | .insertApplied id =>
      (insertAnswer delivery (id ∉ world.applied), world.insertApplied (delivery.parts [id]))
  | .find table none => (delivery.answer .database (world.rows table), world)
  | .find table (some activityID) =>
      (delivery.answer .database
        ((world.rows table).filter fun row => table.activityID row = some activityID), world)
  | .deleteRows table =>
      (delivery.answer .database (), world.setRows table (delivery.rest (world.rows table)))
  | .insertRows table rows =>
      (delivery.answer .database (),
        world.setRows table (world.rows table ++ delivery.parts rows))
  | .findDocuments collection =>
      (delivery.answer .database (world.documents collection).entries, world)
  | .deleteDocuments collection =>
      (delivery.answer .database (),
        world.setDocuments collection (leave delivery (world.documents collection)))
  | .insertDocuments collection documents =>
      (insertAnswer delivery (Insertable (world.documents collection) documents),
        world.setDocuments collection
          (insertNew (world.documents collection) (delivery.parts documents)))
  | .setVolume typeId volume =>
      (delivery.answer .database (), world.setDocuments .sdeTypes
        (updateEach (fun document => { document with volume := some volume })
          (world.documents .sdeTypes) (delivery.parts [typeId])))
  | .setCategoryId typeId categoryId =>
      (delivery.answer .database (), world.setDocuments .sdeTypes
        (updateEach (fun document => { document with categoryId := some categoryId })
          (world.documents .sdeTypes) (delivery.parts [typeId])))
  | .upsertBlueprint blueprintTypeId document =>
      (delivery.answer .database (), world.setDocuments .sdeBlueprints
        ((delivery.parts [blueprintTypeId]).foldl (fun documents id => documents.set id document)
          (world.documents .sdeBlueprints)))
  | .setMissingActivityId activityId =>
      (delivery.answer .database (), world.setDocuments .sdeBlueprints
        (updateEach (fun document => { document with activityId := some activityId })
          (world.documents .sdeBlueprints)
          (delivery.parts (((world.documents .sdeBlueprints).entries.filter fun entry =>
            entry.2.activityId = none).map Prod.fst))))
  | .dropCollection _ => (delivery.answer .database (), world)
  | .createIndex .. => (delivery.answer .database (), world)

/-- Any number of calls of `run_migrations`, each of which can be killed at any time. -/
def migrating (dumps : Dumps) :
    System signature MigrationError Unit World Arrivals Delivery Empty where
  body := runMigrations dumps
  enter _ _ world := some world
  respond _ op delivery world := some (respond op delivery world)
  crash _ world := world
  tick tick _ := nomatch tick

/-- One uninterrupted run on an empty database. -/
def uninterrupted (dumps : Dumps) (arrivals : Arrivals) : Except MigrationError Unit × World :=
  (runMigrations dumps arrivals).eval (fun op world => respond op .done world) .empty

abbrev MigrationLog := List (Call signature MigrationError)

abbrev MigrationMoment := Moment signature MigrationError World Arrivals

abbrev MigrationConfig := Config signature MigrationError Unit World Arrivals

abbrev MigrationEvent := Event Arrivals Delivery Empty

end EveBuild.Migrations
