import EveBuild.Startup.Migrations

/-!
# What each migration leaves behind

`Stage dumps arrivals n` says what is in the database once the first `n` migrations have been
applied and while the next one is being applied, wherever this is stopped: what the next
one rebuilds can be anything, and what it adds to may have been added to in part.  For
each migration there is a theorem that it goes from one stage to the next.
-/

namespace EveBuild.Migrations

open Effect

/-! ## Stages -/

/-- The ids of the migrations, in order. -/
def migrationIds : List String :=
  ["0001_import_raw_sde_tables", "0002_build_sde_lookup_collections",
    "0003_add_volume_to_sde_types", "0004_add_category_id_to_sde_types",
    "0005_import_sde_categories", "0006_build_sde_planet_schematics",
    "0007_rebuild_sde_planet_schematics", "0008_add_reaction_formulas_to_sde_blueprints",
    "0009_drop_market_order_history", "0010_index_sde_blueprints_by_product"]

theorem map_migrationId (dumps : Dumps) (arrivals : Arrivals) :
    (discoverMigrations dumps arrivals).map Migration.migrationId = migrationIds := rfl

/-- The entries of all batches, in the order in which they arrive. -/
def arrived {α : Type} (arrival : ℕ → ℕ) (entries : List α) : List α :=
  (batches updateBatchSize entries.zipIdx).flatMap (inOrder arrival)

namespace Dumps

variable (dumps : Dumps)

/-- The rows of a table that is imported, or whose file does not exist. -/
def rows (table : Table) : List table.Row := (dumps.table table).getD []

/-- The rows of an activity. -/
def activityRows (table : Table) (activityID : ℤ) : List table.Row :=
  (dumps.rows table).filter fun row => table.activityID row = some activityID

/-- The documents that 0002 inserts into `sde_types`. -/
def types : List (ℤ × TypeDocument) := typeDocuments (dumps.rows .invTypes)

/-- The documents of an activity. -/
def blueprints (activityID : ℤ) (activityId : Option ℤ) : List (ℤ × BlueprintDocument) :=
  blueprintDocuments activityId (dumps.activityRows .industryActivity activityID)
    (dumps.activityRows .industryActivityMaterials activityID)
    (dumps.activityRows .industryActivityProducts activityID)

/-- The documents that 0002 inserts into `sde_blueprints`. -/
def manufacturing : List (ℤ × BlueprintDocument) :=
  dumps.blueprints manufacturingActivityId none

/-- The documents that 0008 adds. -/
def reactions : List (ℤ × BlueprintDocument) :=
  dumps.blueprints reactionsActivityId (some reactionsActivityId)

/-- They in the order in which they arrive. -/
def formulas (arrivals : Arrivals) : List (ℤ × BlueprintDocument) :=
  arrived arrivals.formulas dumps.reactions

def categories : List (ℤ × CategoryDocument) := categoryDocuments (dumps.invCategories.getD [])

def schematics : List (ℤ × SchematicDocument) :=
  schematicDocuments (dumps.planetSchematicsTypeMap.getD []) (dumps.planetSchematics.getD [])

def volumes : Dict ℤ ℚ := volumeByTypeId (dumps.rows .invTypes)

def categoryIds : Dict ℤ ℤ := categoryIdByGroupId (dumps.invGroups.getD [])

/-- A type with its volume. -/
def addVolume (id : ℤ) (document : TypeDocument) : TypeDocument :=
  match dumps.volumes.get? id with
  | some volume => { document with volume := some volume }
  | none => document

/-- A type with its category, if its group has one. -/
def addCategory (document : TypeDocument) : TypeDocument :=
  match dumps.categoryIds.get? document.groupId with
  | some categoryId => { document with categoryId := some categoryId }
  | none => document

end Dumps

/-- A blueprint with its activity. -/
def addActivity (document : BlueprintDocument) : BlueprintDocument :=
  { document with activityId := some (document.activityId.getD manufacturingActivityId) }

section

variable (dumps : Dumps) (arrivals : Arrivals) (n : ℕ)

/-- `sde_types`, up to what is still added to the documents. -/
structure TypesStage (documents : Dict ℤ TypeDocument) : Prop where
  built : 2 ≤ n → (dumps.types.map Prod.fst).Nodup ∧ ∀ id,
    (documents.get? id).map (fun document => dumps.addCategory (dumps.addVolume id document)) =
      (dumps.types.lookup id).map fun document => dumps.addCategory (dumps.addVolume id document)
  volume : 3 ≤ n → ∀ id, (documents.get? id).map dumps.addCategory =
    (dumps.types.lookup id).map fun document => dumps.addCategory (dumps.addVolume id document)
  category : 4 ≤ n → dumps.invGroups.isSome ∧ ∀ id, documents.get? id =
    (dumps.types.lookup id).map fun document => dumps.addCategory (dumps.addVolume id document)

/-- `sde_blueprints`.  A reaction formula replaces whatever is there, and so the one that arrives
last is there in the end. -/
structure BlueprintsStage (documents : Dict ℤ BlueprintDocument) : Prop where
  built : 2 ≤ n → (dumps.manufacturing.map Prod.fst).Nodup ∧
    ∀ id, id ∉ dumps.reactions.map Prod.fst →
      (documents.get? id).map addActivity = (dumps.manufacturing.lookup id).map addActivity
  reactions : 8 ≤ n → ∀ id, documents.get? id =
    ((dumps.formulas arrivals).reverse.lookup id).or
      ((dumps.manufacturing.lookup id).map addActivity)

/-- `sde_categories`. -/
structure CategoriesStage (documents : Dict ℤ CategoryDocument) : Prop where
  built : 5 ≤ n → dumps.invCategories.isSome ∧ (dumps.categories.map Prod.fst).Nodup ∧
    ∀ id, documents.get? id = dumps.categories.lookup id

/-- `sde_planet_schematics`. -/
structure SchematicsStage (documents : Dict ℤ SchematicDocument) : Prop where
  built : 7 ≤ n → dumps.planetSchematicsTypeMap.isSome ∧ dumps.planetSchematics.isSome ∧
    (dumps.schematics.map Prod.fst).Nodup ∧ ∀ id, documents.get? id = dumps.schematics.lookup id

def CollectionStage : (collection : Collection) → Dict ℤ collection.Document → Prop
  | .sdeTypes => TypesStage dumps n
  | .sdeBlueprints => BlueprintsStage dumps arrivals n
  | .sdeCategories => CategoriesStage dumps n
  | .sdePlanetSchematics => SchematicsStage dumps n

/-- The first `n` migrations have been applied, and the next one in part. -/
structure Stage (world : World) : Prop where
  rows : ∀ table, 1 ≤ n ∨ stepId table ∈ world.applied ∨ dumps.table table = none →
    world.rows table = dumps.rows table
  documents : ∀ collection, CollectionStage dumps arrivals n collection (world.documents collection)

/-- The first `n` migrations have been recorded, and no other one. -/
def Recorded (world : World) : Prop :=
  ∀ index (hindex : index < migrationIds.length), migrationIds[index] ∈ world.applied ↔ index < n

/-- The dump files that the migrations cannot do without exist, and have nothing twice. -/
structure Importable : Prop where
  invGroups : dumps.invGroups.isSome
  invCategories : dumps.invCategories.isSome
  planetSchematicsTypeMap : dumps.planetSchematicsTypeMap.isSome
  planetSchematics : dumps.planetSchematics.isSome
  types : (dumps.types.map Prod.fst).Nodup
  manufacturing : (dumps.manufacturing.map Prod.fst).Nodup
  categories : (dumps.categories.map Prod.fst).Nodup
  schematics : (dumps.schematics.map Prod.fst).Nodup

/-- No two products of reactions are of one type, so that no two formulas go to one document. -/
def DistinctFormulas : Prop :=
  ((dumps.activityRows .industryActivityProducts reactionsActivityId).map
    IndustryActivityProduct.typeID).Nodup

instance : Decidable (DistinctFormulas dumps) := inferInstanceAs (Decidable (List.Nodup _))

/-- Calls that are answered, if none of them fails unless some do. -/
def Answered (failing : Bool) (op : Op) (world : World) (answer : Except MigrationError op.Answer)
    (later : World) : Prop :=
  ∃ delivery, (failing = false → delivery = .done) ∧ respond op delivery world = (answer, later)

/-- The calls of migrations: they begin no migration, and record none. -/
def Ordinary : Op → Prop
  | .info message _ => message ≠ applyingMessage
  | .insertApplied id => id ∉ migrationIds
  | _ => True

/-- The application of a migration to the database after the first `n` ones. -/
def applying (failing : Bool) : Alone signature MigrationError World where
  answers := Answered failing
  allowed op _ := Ordinary op
  raises error _ := error = .database ∧ failing = true ∨ ¬ Importable dumps
  inv world := Recorded n world ∧ Stage dumps arrivals n world

end

section Stages

variable {dumps : Dumps} {arrivals : Arrivals} {n m : ℕ} {world : World}

/-! ### From one stage to another -/

/-- The stages at which more is known of a collection. -/
def Collection.stages : Collection → List ℕ
  | .sdeTypes => [2, 3, 4]
  | .sdeBlueprints => [2, 8]
  | .sdeCategories => [5]
  | .sdePlanetSchematics => [7]

/-- Between these stages a collection stays as it is. -/
theorem CollectionStage.of_le {collection : Collection} {documents : Dict ℤ collection.Document}
    (hstage : CollectionStage dumps arrivals n collection documents)
    (hle : ∀ stage ∈ collection.stages, stage ≤ m → stage ≤ n) :
    CollectionStage dumps arrivals m collection documents := by
  cases collection with
  | sdeTypes =>
      refine TypesStage.mk (fun hm => hstage.built ?_) (fun hm => hstage.volume ?_)
        fun hm => hstage.category ?_
      · exact hle 2 (by decide) hm
      · exact hle 3 (by decide) hm
      · exact hle 4 (by decide) hm
  | sdeBlueprints =>
      refine BlueprintsStage.mk (fun hm => hstage.built ?_) fun hm => hstage.reactions ?_
      · exact hle 2 (by decide) hm
      · exact hle 8 (by decide) hm
  | sdeCategories => exact CategoriesStage.mk fun hm => hstage.built (hle 5 (by decide) hm)
  | sdePlanetSchematics => exact SchematicsStage.mk fun hm => hstage.built (hle 7 (by decide) hm)

/-- A stage includes those before it. -/
theorem CollectionStage.mono {collection : Collection} {documents : Dict ℤ collection.Document}
    (hstage : CollectionStage dumps arrivals n collection documents) (hle : m ≤ n) :
    CollectionStage dumps arrivals m collection documents :=
  hstage.of_le fun _ _ hm => hm.trans hle

theorem Stage.mono (hstage : Stage dumps arrivals n world) (hle : m ≤ n) :
    Stage dumps arrivals m world where
  rows table htable := hstage.rows table (htable.imp_left fun hm => hm.trans hle)
  documents collection := (hstage.documents collection).mono hle

/-- Until 0008 has been applied, or where the last formulas are the same, it does not matter in
which order they arrive. -/
theorem Stage.of_arrivals {other : Arrivals} (hstage : Stage dumps arrivals n world)
    (hsame : 8 ≤ n → ∀ id, (dumps.formulas other).reverse.lookup id =
      (dumps.formulas arrivals).reverse.lookup id) :
    Stage dumps other n world where
  rows := hstage.rows
  documents collection := by
    have hcollection := hstage.documents collection
    cases collection with
    | sdeBlueprints =>
        refine BlueprintsStage.mk hcollection.built fun hn id => ?_
        rw [hsame hn id]
        exact hcollection.reactions hn id
    | sdeTypes => exact hcollection
    | sdeCategories => exact hcollection
    | sdePlanetSchematics => exact hcollection

/-- The next stage, once the rows have been imported. -/
theorem Stage.next (hstage : Stage dumps arrivals n world) (hn : 1 ≤ n)
    (hdocuments : ∀ collection,
      CollectionStage dumps arrivals (n + 1) collection (world.documents collection)) :
    Stage dumps arrivals (n + 1) world where
  rows table _ := hstage.rows table (Or.inl hn)
  documents := hdocuments

/-- The next stage, once the one collection that it is about has reached it. -/
theorem Stage.next_of (hstage : Stage dumps arrivals n world) (hn : 1 ≤ n) (changed : Collection)
    (hothers : ∀ collection : Collection, n + 1 ∈ collection.stages → collection = changed)
    (hchanged : CollectionStage dumps arrivals (n + 1) changed (world.documents changed)) :
    Stage dumps arrivals (n + 1) world := by
  refine hstage.next hn fun collection => ?_
  by_cases hcollection : collection = changed
  · subst hcollection
    exact hchanged
  · refine (hstage.documents collection).of_le fun stage hmem hle => ?_
    have hne : stage ≠ n + 1 := by
      rintro rfl
      exact hcollection (hothers collection hmem)
    omega

@[simp] theorem World.setDocuments_self {collection : Collection}
    {documents : Dict ℤ collection.Document} :
    (world.setDocuments collection documents).documents collection = documents :=
  Function.update_self ..

theorem World.setDocuments_of_ne {collection other : Collection}
    {documents : Dict ℤ collection.Document} (hne : other ≠ collection) :
    (world.setDocuments collection documents).documents other = world.documents other :=
  Function.update_of_ne hne ..

@[simp] theorem World.setRows_self {table : Table} {rows : List table.Row} :
    (world.setRows table rows).rows table = rows :=
  Function.update_self ..

theorem World.setRows_of_ne {table other : Table} {rows : List table.Row} (hne : other ≠ table) :
    (world.setRows table rows).rows other = world.rows other :=
  Function.update_of_ne hne ..

theorem Stage.setDocuments {collection : Collection} {documents : Dict ℤ collection.Document}
    (hstage : Stage dumps arrivals n world)
    (hdocuments : CollectionStage dumps arrivals n collection documents) :
    Stage dumps arrivals n (world.setDocuments collection documents) where
  rows := hstage.rows
  documents other := by
    rcases eq_or_ne other collection with rfl | hne
    · rwa [World.setDocuments_self]
    · rw [World.setDocuments_of_ne hne]
      exact hstage.documents other

/-- A raw table that is still to be imported can have any rows. -/
theorem Stage.setRows {table : Table} {rows : List table.Row}
    (hstage : Stage dumps arrivals 0 world)
    (hstep : stepId table ∉ world.applied) (hfile : dumps.table table ≠ none) :
    Stage dumps arrivals 0 (world.setRows table rows) where
  rows other hother := by
    have hne : other ≠ table := by
      rintro rfl
      rcases hother with hzero | hdone | hnone
      · exact absurd hzero (by omega)
      · exact hstep hdone
      · exact hfile hnone
    rw [World.setRows_of_ne hne]
    exact hstage.rows other hother
  documents := hstage.documents

/-! ## Calls -/

section Calls

variable {failing : Bool}

/-- Where some call has failed, calls may fail. -/
theorem failing_of_error {carriedOut : List Bool}
    (hdone : failing = false → Delivery.error carriedOut = .done) : failing = true := by
  refine (Bool.not_eq_false failing).mp fun hnone => ?_
  cases hdone hnone

/-- A call that cannot fail but for the database. -/
theorem runs_await {op : Op} {value : op.Answer} {after : Delivery → World}
    {post : op.Answer → World → Prop} (hordinary : Ordinary op)
    (hrespond : ∀ delivery, respond op delivery world =
      (delivery.answer .database value, after delivery))
    (hinv : ∀ delivery, Recorded n (after delivery) ∧ Stage dumps arrivals n (after delivery))
    (hpost : post value (after .done)) :
    (applying dumps arrivals n failing).Runs (await op) post world := by
  refine Alone.Runs.perform hordinary ?_
  rintro answer later ⟨delivery, hdone, hanswer⟩
  obtain ⟨rfl, rfl⟩ := Prod.mk.inj ((hrespond delivery).symm.trans hanswer)
  refine ⟨hinv delivery, ?_⟩
  cases delivery with
  | done => exact hpost
  | error carriedOut => exact Or.inl ⟨rfl, failing_of_error hdone⟩

/-- A call that only reads. -/
theorem runs_read {op : Op} {value : op.Answer} (hordinary : Ordinary op)
    (hinv : Recorded n world ∧ Stage dumps arrivals n world)
    (hrespond : ∀ delivery, respond op delivery world =
      (delivery.answer .database value, world)) :
    (applying dumps arrivals n failing).Runs (await op)
      (fun answer later => answer = value ∧ world = later)
      world :=
  runs_await hordinary hrespond (fun _ => hinv) ⟨rfl, rfl⟩

/-- The ids that have been recorded, among some. -/
theorem runs_findApplied {ids : List String}
    (hinv : Recorded n world ∧ Stage dumps arrivals n world) :
    (applying dumps arrivals n failing).Runs (await (.findApplied (some ids)))
      (fun appliedIds later => appliedIds = world.applied.filter (· ∈ ids) ∧ world = later)
      world := by
  have hordinary : Ordinary (.findApplied (some ids)) := trivial
  exact runs_read hordinary hinv fun _ => rfl

theorem runs_findDocuments {collection : Collection}
    (hinv : Recorded n world ∧ Stage dumps arrivals n world) :
    (applying dumps arrivals n failing).Runs (await (.findDocuments collection))
      (fun documents later =>
      documents = (world.documents collection).entries ∧ world = later) world := by
  have hordinary : Ordinary (.findDocuments collection) := trivial
  exact runs_read hordinary hinv fun _ => rfl

/-- A dump file that the migrations need. -/
theorem runs_load {α : Type} {file : Option (List α)} (hfile : Importable dumps → file.isSome) :
    (applying dumps arrivals n failing).Runs (load file)
      (fun rows later => file = some rows ∧ world = later) world := by
  cases file with
  | some rows => exact ⟨rfl, rfl⟩
  | none => exact Or.inr fun himportable => by cases hfile himportable

theorem runs_info {message argument : String} (hmessage : message ≠ applyingMessage)
    (hinv : Recorded n world ∧ Stage dumps arrivals n world) :
    (applying dumps arrivals n failing).Runs (info message argument) (fun _ later => world = later)
      world := by
  refine Alone.Runs.perform hmessage ?_
  rintro answer later ⟨delivery, _, hanswer⟩
  cases hanswer
  exact ⟨hinv, rfl⟩

/-- The rows of an activity. -/
theorem runs_find {table : Table} {activityID : ℤ} (hn : 1 ≤ n)
    (hinv : Recorded n world ∧ Stage dumps arrivals n world) :
    (applying dumps arrivals n failing).Runs (await (.find table (some activityID)))
      (fun rows later => rows = dumps.activityRows table activityID ∧ world = later) world := by
  refine runs_read trivial hinv fun delivery => ?_
  rw [Dumps.activityRows, ← hinv.2.rows table (Or.inl hn)]
  rfl

/-- All types. -/
theorem runs_findTypes (hn : 1 ≤ n) (hinv : Recorded n world ∧ Stage dumps arrivals n world) :
    (applying dumps arrivals n failing).Runs (await (.find .invTypes none))
      (fun rows later => rows = dumps.rows .invTypes ∧ world = later) world := by
  refine runs_read trivial hinv fun delivery => ?_
  rw [← hinv.2.rows .invTypes (Or.inl hn)]
  rfl

theorem runs_readBlueprints {activityID : ℤ} {activityId : Option ℤ} (hn : 1 ≤ n)
    (hinv : Recorded n world ∧ Stage dumps arrivals n world) :
    (applying dumps arrivals n failing).Runs (readBlueprints activityID activityId)
      (fun documents later => documents = dumps.blueprints activityID activityId ∧ world = later)
      world := by
  refine (runs_find hn hinv).bind hinv ?_
  rintro activities _ _ ⟨rfl, rfl⟩
  refine (runs_find hn hinv).bind hinv ?_
  rintro materials _ _ ⟨rfl, rfl⟩
  refine (runs_find hn hinv).bind hinv ?_
  rintro products _ _ ⟨rfl, rfl⟩
  exact ⟨rfl, rfl⟩

end Calls

/-! ## Batches -/

theorem flatten_batches {α : Type} {size : ℕ} (hsize : 0 < size) (items : List α) :
    (batches size items).flatMap id = items := by
  have htake : ∀ count, ((List.range count).map fun index =>
      (items.drop (index * size)).take size).flatMap id = items.take (count * size) := by
    intro count
    induction count with
    | zero => simp
    | succ count ih =>
        rw [List.range_succ, List.map_append, List.flatMap_append, ih, Nat.succ_mul, List.take_add]
        simp
  rw [batches, htake]
  refine List.take_of_length_le ?_
  have hmod := Nat.mod_lt (items.length + size - 1) hsize
  have hdiv := Nat.div_add_mod (items.length + size - 1) size
  rw [Nat.mul_comm] at hdiv
  omega

theorem perm_inOrder {α : Type} (arrival : ℕ → ℕ) (batch : List (α × ℕ)) :
    (inOrder arrival batch).Perm (batch.map Prod.fst) :=
  (List.perm_insertionSort _ _).map Prod.fst

/-- All entries arrive. -/
theorem arrived_perm {α : Type} (arrival : ℕ → ℕ) (entries : List α) :
    (arrived arrival entries).Perm entries := by
  have hbatches : (batches updateBatchSize entries.zipIdx).flatMap (List.map Prod.fst) =
      entries := by
    calc (batches updateBatchSize entries.zipIdx).flatMap (List.map Prod.fst)
        = ((batches updateBatchSize entries.zipIdx).flatMap id).map Prod.fst := by
          rw [List.map_flatMap]
          rfl
      _ = entries := by rw [flatten_batches (by decide), List.zipIdx_map_fst]
  have harrived := List.Perm.flatMap_left (batches updateBatchSize entries.zipIdx)
    fun batch _ => perm_inOrder arrival batch
  rwa [hbatches] at harrived

theorem map_blueprints (dumps : Dumps) (activityID : ℤ) (activityId : Option ℤ) :
    (dumps.blueprints activityID activityId).map Prod.fst =
      (dumps.activityRows .industryActivityProducts activityID).map
        IndustryActivityProduct.typeID := by
  rw [Dumps.blueprints, blueprintDocuments, List.map_map]
  rfl

/-- Of distinct formulas, each is there in the end. -/
theorem lookup_formulas (hdistinct : DistinctFormulas dumps) (arrivals : Arrivals) (id : ℤ) :
    (dumps.formulas arrivals).reverse.lookup id = dumps.reactions.lookup id := by
  have hnodup : (dumps.reactions.map Prod.fst).Nodup := by
    rw [Dumps.reactions, map_blueprints]
    exact hdistinct
  have hperm := (List.reverse_perm _).trans (arrived_perm arrivals.formulas dumps.reactions)
  exact (Dict.lookup_eq_of_perm hperm.symm hnodup id).symm

/-- A loop over batches that does the work of a loop over the items. -/
theorem runs_batches {α : Type} {failing : Bool} {size : ℕ} {items : List α}
    {task : List α → Code Unit} (done : List α → World → Prop) (hsize : 0 < size)
    (hinv : Recorded n world ∧ Stage dumps arrivals n world) (hdone : done [] world)
    (hstep : ∀ before batch after, items = before ++ batch ++ after →
      ∀ later, Recorded n later ∧ Stage dumps arrivals n later → done before later →
      (applying dumps arrivals n failing).Runs (task batch)
        (fun _ final => done (before ++ batch) final)
        later) :
    (applying dumps arrivals n failing).Runs (Program.forEach task (batches size items))
      (fun _ later => done items later) world := by
  have hloop : (applying dumps arrivals n failing).Runs (Program.forEach task (batches size items))
      (fun _ later => done ((batches size items).flatMap id) later) world := by
    refine Alone.Runs.forEach id done hinv hdone fun before batch after hitems =>
      hstep (before.flatMap id) batch (after.flatMap id) ?_
    calc items = (before ++ batch :: after).flatMap id := by
          rw [← hitems, flatten_batches hsize items]
      _ = before.flatMap id ++ batch ++ after.flatMap id := by simp
  rwa [flatten_batches hsize items] at hloop

/-- The updates of all batches, each of which adds its entry to whatever has been done. -/
theorem runs_gatherBatches {α : Type} {failing : Bool} {arrival : ℕ → ℕ} {update : α → Code Unit}
    {entries : List α} (done : List α → World → Prop)
    (hinv : Recorded n world ∧ Stage dumps arrivals n world) (hdone : done [] world)
    (hstep : ∀ entry ∈ entries, ∀ later, Recorded n later ∧ Stage dumps arrivals n later →
      (applying dumps arrivals n failing).Runs (update entry)
        (fun _ final => ∀ before, done before later → done (before ++ [entry]) final) later) :
    (applying dumps arrivals n failing).Runs (gatherBatches arrival update entries)
      (fun _ later => done (arrived arrival entries) later) world := by
  refine Alone.Runs.forEach (inOrder arrival) done hinv hdone
    fun before batch after hbatches later hlater hbefore => ?_
  have hentries : ∀ entry ∈ inOrder arrival batch, entry ∈ entries := by
    intro entry hentry
    refine (arrived_perm arrival entries).subset (List.mem_flatMap.mpr ⟨batch, ?_, hentry⟩)
    rw [hbatches]
    simp
  refine (Alone.Runs.gather done hlater (fun _ _ _ => id) fun entry hentry middle hmiddle =>
    hstep entry (hentries entry hentry) middle hmiddle).mono hlater fun _ final _ hfinal => ?_
  exact hfinal _ hbefore

/-! ## Rebuilt collections -/

theorem get?_insertNew {V : Type} (documents : Dict ℤ V) (new : List (ℤ × V)) (id : ℤ) :
    (insertNew documents new).get? id = (documents.get? id).or (new.lookup id) := by
  induction new generalizing documents with
  | nil => exact (Option.or_none).symm
  | cons entry new ih =>
      rw [insertNew, List.foldl_cons, ← insertNew, ih, Dict.get?_setDefault, List.lookup_cons]
      rcases eq_or_ne id entry.1 with rfl | hne
      · cases documents.get? entry.1 <;> simp
      · simp [hne, beq_false_of_ne hne]

theorem lookup_eq_none_iff {V : Type} {entries : List (ℤ × V)} {id : ℤ} :
    entries.lookup id = none ↔ id ∉ entries.map Prod.fst := by
  rw [List.lookup_eq_none_iff, List.mem_map, not_exists]
  refine forall_congr' fun entry => ?_
  rw [not_and, bne_iff_ne, ne_comm]

/-- The collection has just the documents, and the other collections are as before. -/
structure Replaced (collection : Collection) (documents : List (ℤ × collection.Document))
    (before later : World) : Prop where
  others : ∀ other ≠ collection, later.documents other = before.documents other
  nodup : (documents.map Prod.fst).Nodup
  get? : ∀ id, (later.documents collection).get? id = documents.lookup id

/-- What can be inserted after other documents. -/
theorem Replaced.insertable_iff {collection : Collection} {before later : World}
    {documents batch : List (ℤ × collection.Document)}
    (hreplaced : Replaced collection documents before later) :
    Insertable (later.documents collection) batch ↔
      ((documents ++ batch).map Prod.fst).Nodup := by
  have hkeys : ∀ id, id ∈ (later.documents collection).keys ↔ id ∈ documents.map Prod.fst := by
    intro id
    rw [← not_iff_not, ← Dict.get?_eq_none_iff, hreplaced.get?, lookup_eq_none_iff]
  rw [List.map_append, List.nodup_append']
  refine ⟨fun ⟨hbatch, hnew⟩ => ⟨hreplaced.nodup, hbatch, fun id hid hmem => ?_⟩,
    fun ⟨_, hbatch, hdisjoint⟩ => ⟨hbatch, fun entry hentry hmem => ?_⟩⟩
  · obtain ⟨entry, hentry, rfl⟩ := List.mem_map.mp hmem
    exact hnew entry hentry ((hkeys _).mpr hid)
  · exact hdisjoint ((hkeys _).mp hmem) (List.mem_map_of_mem hentry)

/-- A batch is inserted. -/
theorem Replaced.insertNew {collection : Collection} {before later : World}
    {documents batch : List (ℤ × collection.Document)}
    (hreplaced : Replaced collection documents before later)
    (hinsertable : Insertable (later.documents collection) batch) :
    Replaced collection (documents ++ batch) before
      (later.setDocuments collection (insertNew (later.documents collection) batch)) where
  others other hother := (World.setDocuments_of_ne hother).trans (hreplaced.others other hother)
  nodup := hreplaced.insertable_iff.mp hinsertable
  get? id := by
    rw [World.setDocuments_self, get?_insertNew, hreplaced.get?, List.lookup_append]

/-- **`_replace_all`** of a collection that no earlier migration has built. -/
theorem runs_replaceAll {failing : Bool} {collection : Collection}
    {documents : List (ℤ × collection.Document)}
    (hinv : Recorded n world ∧ Stage dumps arrivals n world)
    (hfree : ∀ documents, CollectionStage dumps arrivals n collection documents)
    (hnodup : Importable dumps → (documents.map Prod.fst).Nodup) :
    (applying dumps arrivals n failing).Runs (replaceAll collection documents)
      (fun _ later => Replaced collection documents world later) world := by
  have hset : ∀ later, Recorded n later ∧ Stage dumps arrivals n later → ∀ documents,
      Recorded n (later.setDocuments collection documents) ∧
        Stage dumps arrivals n (later.setDocuments collection documents) :=
    fun later hlater documents => ⟨hlater.1, hlater.2.setDocuments (hfree documents)⟩
  have hdelete : (applying dumps arrivals n failing).Runs (await (.deleteDocuments collection))
      (fun _ later => Replaced collection [] world later) world := by
    refine runs_await trivial (fun _ => rfl) (fun _ => hset world hinv _) ?_
    refine ⟨fun other hother => World.setDocuments_of_ne hother, List.nodup_nil, fun id => ?_⟩
    rw [World.setDocuments_self]
    rfl
  refine hdelete.bind hinv fun _ deleted hdeletedInv hdeleted => ?_
  refine runs_batches (fun documents later => Replaced collection documents world later)
    (Nat.succ_pos _) hdeletedInv hdeleted fun before batch after hitems later hlater hbefore => ?_
  cases batch with
  | nil =>
      rw [List.append_nil]
      exact hbefore
  | cons entry batch =>
      refine Alone.Runs.perform trivial ?_
      rintro answer final ⟨delivery, hdone, hanswer⟩
      obtain ⟨rfl, rfl⟩ := Prod.mk.inj hanswer
      refine ⟨hset later hlater _, ?_⟩
      cases delivery with
      | error carriedOut => exact Or.inl ⟨rfl, failing_of_error hdone⟩
      | done =>
          by_cases hinsertable : Insertable (later.documents collection) (entry :: batch)
          · simp only [insertAnswer, hinsertable, decide_true, if_true]
            exact hbefore.insertNew hinsertable
          · simp only [insertAnswer, hinsertable, decide_false, Bool.false_eq_true, if_false]
            refine Or.inr fun himportable => hinsertable (hbefore.insertable_iff.mpr ?_)
            -- the identifiers of the documents are different, so that each batch can be inserted
            have hall := hnodup himportable
            rw [hitems, List.map_append] at hall
            exact hall.of_append_left

end Stages

end EveBuild.Migrations
