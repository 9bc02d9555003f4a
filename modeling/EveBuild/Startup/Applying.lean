import EveBuild.Startup.Stages

/-!
# The ten migrations

Each migration, applied to the database after the ones before it, goes to the next stage.
It raises an error only if the database does, or a dump file is missing or has something
twice.

The updates of a batch arrive in any order.  Those of 0003 and 0004 go to different documents, so
that the order makes no difference; of the formulas of 0008 the last to arrive for a document
stays, and it is the order of `arrivals` that the stages from there on depend on.
-/

namespace EveBuild.Migrations

open Effect

section Applying

variable {dumps : Dumps} {arrivals : Arrivals} {failing : Bool} {world : World} {n : ℕ}

/-! ## 0001 -/

theorem stepId_injective : Function.Injective stepId := by
  intro first second heq
  cases first <;> cases second <;> first | rfl | exact absurd heq (by decide)

theorem stepId_notMem_migrationIds (table : Table) : stepId table ∉ migrationIds := by
  cases table <;> decide

theorem nodup_tables (dumps : Dumps) : dumps.tables.Nodup :=
  List.Nodup.filter _ (by decide)

theorem mem_tables {table : Table} : table ∈ dumps.tables ↔ (dumps.table table).isSome := by
  simp [Dumps.tables, Table.mem_sorted]

theorem mem_insertApplied {ids : List String} {id : String} :
    id ∈ (world.insertApplied ids).applied ↔ id ∈ world.applied ∨ id ∈ ids := by
  simp only [World.insertApplied, List.mem_append, List.mem_filter, decide_eq_true_eq]
  tauto

theorem runs_importTable {table : Table} {rows : List table.Row}
    (hinv : Recorded 0 world ∧ Stage dumps arrivals 0 world) (hstep : stepId table ∉ world.applied)
    (hfile : dumps.table table ≠ none) :
    (applying dumps arrivals 0 failing).Runs (importTable table rows)
      (fun _ later => later.applied = world.applied ∧ later.rows table = rows) world := by
  have hset : ∀ later, Recorded 0 later ∧ Stage dumps arrivals 0 later →
      later.applied = world.applied →
      ∀ rows, Recorded 0 (later.setRows table rows) ∧
        Stage dumps arrivals 0 (later.setRows table rows) :=
    fun later hlater happlied rows => ⟨hlater.1, hlater.2.setRows (happlied ▸ hstep) hfile⟩
  have hdelete : (applying dumps arrivals 0 failing).Runs (await (.deleteRows table))
      (fun _ later => later.applied = world.applied ∧ later.rows table = []) world :=
    runs_await trivial (fun _ => rfl) (fun _ => hset world hinv rfl _) ⟨rfl, World.setRows_self⟩
  refine hdelete.bind hinv fun _ deleted hdeletedInv hdeleted => ?_
  refine runs_batches (fun rows later => later.applied = world.applied ∧ later.rows table = rows)
    (Nat.succ_pos _) hdeletedInv hdeleted fun before batch after hitems later hlater hbefore => ?_
  obtain ⟨happlied, hrows⟩ := hbefore
  cases batch with
  | nil =>
      rw [List.append_nil]
      exact ⟨happlied, hrows⟩
  | cons row batch =>
      refine runs_await trivial (fun _ => rfl) (fun _ => hset later hlater happlied _) ?_
      exact ⟨happlied, World.setRows_self.trans (hrows ▸ rfl)⟩

/-- The step of a table is recorded once the table has been imported. -/
theorem runs_insertStep {table : Table} (hinv : Recorded 0 world ∧ Stage dumps arrivals 0 world)
    (hstep : stepId table ∉ world.applied) (hrows : world.rows table = dumps.rows table) :
    (applying dumps arrivals 0 failing).Runs (await (.insertApplied (stepId table)))
      (fun _ later => ∀ id, id ∈ later.applied ↔ id ∈ world.applied ∨ id = stepId table) world := by
  refine Alone.Runs.perform (stepId_notMem_migrationIds table) ?_
  rintro answer later ⟨delivery, hdone, hanswer⟩
  obtain ⟨rfl, rfl⟩ := Prod.mk.inj hanswer
  have hnew : ∀ id ∈ delivery.parts [stepId table], id = stepId table :=
    fun id hid => List.mem_singleton.mp (Delivery.mem_of_mem_parts hid)
  refine ⟨⟨fun index hindex => ?_, fun other hother => ?_, hinv.2.documents⟩, ?_⟩
  · rw [mem_insertApplied, ← hinv.1 index hindex, or_iff_left]
    intro hmem
    exact stepId_notMem_migrationIds table (hnew _ hmem ▸ List.getElem_mem hindex)
  · by_cases htable : other = table
    · exact htable ▸ hrows
    · refine hinv.2.rows other (hother.imp_right (Or.imp_left fun hmem => ?_))
      refine (mem_insertApplied.mp hmem).resolve_right fun hmem => htable ?_
      exact stepId_injective (hnew _ hmem)
  · cases delivery with
    | error carriedOut => exact Or.inl ⟨rfl, failing_of_error hdone⟩
    | done =>
        simp only [insertAnswer, hstep, not_false_eq_true, decide_true, if_true]
        intro id
        rw [mem_insertApplied]
        simp [Delivery.parts]

/-- A table is imported and its step recorded, if it is not already. -/
theorem runs_importStep {appliedSteps : List String} {table : Table}
    (hinv : Recorded 0 world ∧ Stage dumps arrivals 0 world) (htable : table ∈ dumps.tables)
    (hsteps : stepId table ∈ appliedSteps ↔ stepId table ∈ world.applied) :
    (applying dumps arrivals 0 failing).Runs (importStep dumps appliedSteps table)
      (fun _ later => ∀ id, id ∈ later.applied ↔ id ∈ world.applied ∨ id = stepId table) world := by
  have hfile := mem_tables.mp htable
  unfold importStep
  split
  · rename_i hskip
    refine (runs_info (by decide) hinv).mono hinv ?_
    rintro _ _ _ rfl id
    exact (or_iff_left_of_imp fun heq => heq ▸ hsteps.mp hskip).symm
  · rename_i hnew
    have hstep : stepId table ∉ world.applied := fun hmem => hnew (hsteps.mpr hmem)
    refine (runs_info (by decide) hinv).bind hinv ?_
    rintro _ _ _ rfl
    refine (runs_load fun _ => hfile).bind hinv ?_
    rintro rows _ _ ⟨hrows, rfl⟩
    refine (runs_importTable hinv hstep (Option.isSome_iff_ne_none.mp hfile)).bind hinv ?_
    rintro _ imported himported ⟨happlied, himportedRows⟩
    -- what has been imported is what the file holds
    have hall : imported.rows table = dumps.rows table := by
      rw [himportedRows, Dumps.rows, hrows, Option.getD_some]
    refine (runs_insertStep himported (happlied ▸ hstep) hall).bind himported ?_
    intro _ final hfinal hids
    refine (runs_info (by decide) hfinal).mono hfinal ?_
    rintro _ _ _ rfl id
    rw [hids id, happlied]

/-- **`0001_import_raw_sde_tables`.** -/
theorem runs_importRawSdeTables (hinv : Recorded 0 world ∧ Stage dumps arrivals 0 world) :
    (applying dumps arrivals 0 failing).Runs (importRawSdeTables dumps)
      (fun _ later => Stage dumps arrivals 1 later)
      world := by
  refine (runs_findApplied hinv).bind hinv ?_
  rintro appliedSteps _ _ ⟨rfl, rfl⟩
  -- what has been recorded once some tables have been gone through
  let done (gone : List Table) (later : World) : Prop := ∀ id, id ∈ later.applied ↔
    id ∈ world.applied ∨ id ∈ gone.map stepId
  refine (Alone.Runs.forEach (fun table => [table]) done hinv (by simp [done]) ?_).mono hinv ?_
  · intro before table after htables later hlater hbefore
    rw [List.flatMap_singleton'] at hbefore ⊢
    have htable : table ∈ dumps.tables := by simp [htables]
    have hnew : stepId table ∉ before.map stepId := by
      have hnodup := (nodup_tables dumps).map stepId_injective
      rw [htables, List.map_append, List.nodup_append'] at hnodup
      exact fun hmem => hnodup.2.2 hmem (List.mem_cons_self ..)
    refine (runs_importStep hlater htable ?_).mono hlater fun _ final _ hfinal id => ?_
    · rw [hbefore, or_iff_left hnew, List.mem_filter]
      simpa using fun _ => ⟨table, htable, rfl⟩
    · rw [hfinal, hbefore, List.map_append, List.mem_append, or_assoc]
      simp
  · intro _ later hlater hdone
    rw [List.flatMap_singleton'] at hdone
    refine ⟨fun table _ => hlater.2.rows table (Or.inr ?_), fun collection => ?_⟩
    · cases hfile : dumps.table table with
      | none => exact Or.inr rfl
      | some rows =>
          have htable : table ∈ dumps.tables := mem_tables.mpr (by simp [hfile])
          exact Or.inl ((hdone _).mpr (Or.inr (List.mem_map_of_mem htable)))
    · exact (hlater.2.documents collection).of_le (by cases collection <;> decide)

/-! ## 0002 -/

/-- **`0002_build_sde_lookup_collections`.** -/
theorem runs_buildSdeLookupCollections (hinv : Recorded 1 world ∧ Stage dumps arrivals 1 world) :
    (applying dumps arrivals 1 failing).Runs buildSdeLookupCollections
      (fun _ later => Stage dumps arrivals 2 later)
      world := by
  refine (runs_findTypes le_rfl hinv).bind hinv ?_
  rintro types _ _ ⟨rfl, rfl⟩
  refine (runs_readBlueprints le_rfl hinv).bind hinv ?_
  rintro blueprintDocs _ _ ⟨rfl, rfl⟩
  have hfreeTypes : ∀ documents, CollectionStage dumps arrivals 1 .sdeTypes documents := fun _ =>
    TypesStage.mk (by omega) (by omega) (by omega)
  have hfreeBlueprints : ∀ documents,
      CollectionStage dumps arrivals 1 .sdeBlueprints documents := fun _ =>
    BlueprintsStage.mk (by omega) (by omega)
  refine (runs_replaceAll hinv hfreeTypes fun h => h.types).bind hinv ?_
  intro _ middle hmiddle htypes
  refine (runs_replaceAll hmiddle hfreeBlueprints fun h => h.manufacturing).mono hmiddle ?_
  intro _ later hlater hblueprints
  refine hlater.2.next le_rfl fun collection => ?_
  cases collection with
  | sdeTypes =>
      refine TypesStage.mk (fun _ => ⟨htypes.nodup, fun id => ?_⟩) (by omega) (by omega)
      rw [hblueprints.others .sdeTypes (by decide), htypes.get?, Dumps.types]
  | sdeBlueprints =>
      refine BlueprintsStage.mk (fun _ => ⟨hblueprints.nodup, fun id _ => ?_⟩) (by omega)
      rw [hblueprints.get?, Dumps.manufacturing]
  | sdeCategories => exact CategoriesStage.mk (by omega)
  | sdePlanetSchematics => exact SchematicsStage.mk (by omega)

/-! ## Fields that are added -/

/-- An update that changes nothing when it is made again. -/
theorem get?_updateEach {V : Type} {update : V → V} (hupdate : ∀ value, update (update value) =
    update value) (documents : Dict ℤ V) (ids : List ℤ) (id : ℤ) :
    (updateEach update documents ids).get? id =
      if id ∈ ids then (documents.get? id).map update else documents.get? id := by
  induction ids generalizing documents with
  | nil => rfl
  | cons first ids ih =>
      rw [updateEach, List.foldl_cons, ← updateEach, ih, Dict.get?_modify]
      rcases eq_or_ne id first with rfl | hne
      · cases documents.get? id <;> simp [hupdate]
      · simp [hne]

/-- What reads the same of every document before and after the update. -/
theorem map_get?_updateEach {V W : Type} {update : V → V} (read : ℤ → V → W)
    (hupdate : ∀ value, update (update value) = update value) {documents : Dict ℤ V}
    {ids : List ℤ} (hread : ∀ id ∈ ids, ∀ document, documents.get? id = some document →
      read id (update document) = read id document) (id : ℤ) :
    ((updateEach update documents ids).get? id).map (read id) =
      (documents.get? id).map (read id) := by
  rw [get?_updateEach hupdate]
  split
  · rename_i hid
    cases hget : documents.get? id with
    | none => rfl
    | some document => exact congrArg some (hread id hid document hget)
  · rfl

/-- A document that an update has reached, or that was so before. -/
theorem of_get?_updateEach {V : Type} {update : V → V} (reached : ℤ → V → Prop)
    (hupdate : ∀ value, update (update value) = update value) {documents : Dict ℤ V}
    {ids : List ℤ} (hreached : ∀ id ∈ ids, ∀ document, documents.get? id = some document →
      reached id (update document)) {id : ℤ} {document : V}
    (hget : (updateEach update documents ids).get? id = some document)
    (hbefore : id ∉ ids → documents.get? id = some document → reached id document) :
    reached id document := by
  rw [get?_updateEach hupdate] at hget
  split at hget
  · rename_i hid
    obtain ⟨old, hold, rfl⟩ := Option.map_eq_some_iff.mp hget
    exact hreached id hid old hold
  · rename_i hid
    exact hbefore hid hget

/-! ## 0003 -/

theorem TypesStage.setVolume {documents : Dict ℤ TypeDocument} {typeId : ℤ} {volume : ℚ}
    {ids : List ℤ} (hstage : TypesStage dumps 2 documents)
    (hvolume : dumps.volumes.get? typeId = some volume) (hids : ∀ id ∈ ids, id = typeId) :
    TypesStage dumps 2
      (updateEach (fun document => { document with volume := some volume }) documents ids) where
  built hn := by
    refine ⟨(hstage.built hn).1, fun id => ?_⟩
    rw [← (hstage.built hn).2 id]
    refine map_get?_updateEach
      (fun id document => dumps.addCategory (dumps.addVolume id document)) ?_ ?_ id
    · exact fun _ => rfl
    intro id hid document _
    obtain rfl := hids id hid
    simp only [Dumps.addVolume, hvolume]
  volume hn := absurd hn (by decide)
  category hn := absurd hn (by decide)

/-- The volumes have been set. -/
def VolumesSet (dumps : Dumps) (entries : List (ℤ × ℚ)) (world : World) : Prop :=
  ∀ entry ∈ entries, ∀ document, (world.documents .sdeTypes).get? entry.1 = some document →
    dumps.addVolume entry.1 document = document

theorem runs_setVolume {entry : ℤ × ℚ} (hinv : Recorded 2 world ∧ Stage dumps arrivals 2 world)
    (hentry : dumps.volumes.get? entry.1 = some entry.2) :
    (applying dumps arrivals 2 failing).Runs (await (.setVolume entry.1 entry.2))
      (fun _ later => ∀ before, VolumesSet dumps before world →
        VolumesSet dumps (before ++ [entry]) later) world := by
  refine runs_await trivial (fun _ => rfl) (fun delivery => ⟨hinv.1, hinv.2.setDocuments ?_⟩) ?_
  · exact TypesStage.setVolume (hinv.2.documents .sdeTypes) hentry fun id hid =>
      List.mem_singleton.mp (Delivery.mem_of_mem_parts hid)
  · intro before hbefore other hother document hdocument
    rw [World.setDocuments_self] at hdocument
    refine of_get?_updateEach (fun id document => dumps.addVolume id document = document)
      ?_ (fun id hid old _ => ?_) hdocument fun hid hold => ?_
    · exact fun _ => rfl
    · obtain rfl := List.mem_singleton.mp hid
      simp only [Dumps.addVolume, hentry]
    · rcases List.mem_append.mp hother with hother | hother
      · exact hbefore other hother document hold
      · exact absurd (List.mem_singleton.mp hother ▸ List.mem_singleton_self _) hid

/-- **`0003_add_volume_to_sde_types`.** -/
theorem runs_addVolumeToSdeTypes {arrival : ℕ → ℕ}
    (hinv : Recorded 2 world ∧ Stage dumps arrivals 2 world) :
    (applying dumps arrivals 2 failing).Runs (addVolumeToSdeTypes arrival)
      (fun _ later => Stage dumps arrivals 3 later) world := by
  refine (runs_findTypes (by decide) hinv).bind hinv ?_
  rintro types _ _ ⟨rfl, rfl⟩
  refine (runs_gatherBatches (VolumesSet dumps) hinv (by simp [VolumesSet]) ?_).mono hinv ?_
  · exact fun entry hentry later hlater =>
      runs_setVolume hlater (Dict.get?_eq_some_iff.mpr hentry)
  · intro _ later hlater harrived
    have hset : VolumesSet dumps dumps.volumes.entries later := fun entry hentry =>
      harrived entry ((arrived_perm _ _).mem_iff.mpr hentry)
    -- every volume is set by now, so that setting them all changes nothing
    have hstage : TypesStage dumps 2 (later.documents .sdeTypes) := hlater.2.documents .sdeTypes
    have hbuilt := hstage.built le_rfl
    refine hlater.2.next_of (by decide) .sdeTypes (by rintro (_ | _ | _ | _) <;> decide)
      (TypesStage.mk (fun _ => hbuilt) (fun _ id => ?_) (by omega))
    rw [← hbuilt.2 id]
    cases hget : (later.documents .sdeTypes).get? id with
    | none => rfl
    | some document =>
        have hadd : dumps.addVolume id document = document := by
          cases hvolume : dumps.volumes.get? id with
          | none => simp only [Dumps.addVolume, hvolume]
          | some volume =>
              exact hset (id, volume) (Dict.get?_eq_some_iff.mp hvolume) document hget
        rw [Option.map_some, Option.map_some, hadd]

/-! ## 0004 -/

theorem groupId_addVolume (id : ℤ) (document : TypeDocument) :
    (dumps.addVolume id document).groupId = document.groupId := by
  unfold Dumps.addVolume
  split <;> rfl

theorem groupId_addCategory (document : TypeDocument) :
    (dumps.addCategory document).groupId = document.groupId := by
  unfold Dumps.addCategory
  split <;> rfl

/-- The groups of types stay as they have been built. -/
theorem TypesStage.groupId {documents : Dict ℤ TypeDocument}
    (hstage : TypesStage dumps n documents) (hn : 2 ≤ n) (id : ℤ) :
    (documents.get? id).map TypeDocument.groupId =
      (dumps.types.lookup id).map TypeDocument.groupId := by
  have hbuilt := congrArg (Option.map TypeDocument.groupId) ((hstage.built hn).2 id)
  simpa only [Option.map_map, Function.comp_def, groupId_addCategory, groupId_addVolume]
    using hbuilt

/-- The category of a type. -/
def Dumps.categoryOf (dumps : Dumps) (id : ℤ) : Option ℤ :=
  ((dumps.types.lookup id).map TypeDocument.groupId).bind dumps.categoryIds.get?

theorem TypesStage.categoryOf {documents : Dict ℤ TypeDocument}
    (hstage : TypesStage dumps n documents) (hn : 2 ≤ n) {id : ℤ} {document : TypeDocument}
    (hdocument : documents.get? id = some document) :
    dumps.categoryIds.get? document.groupId = dumps.categoryOf id := by
  rw [Dumps.categoryOf, ← hstage.groupId hn, hdocument]
  rfl

theorem TypesStage.setCategory {documents : Dict ℤ TypeDocument} {typeId categoryId : ℤ}
    {ids : List ℤ} (hstage : TypesStage dumps 3 documents)
    (hcategory : dumps.categoryOf typeId = some categoryId) (hids : ∀ id ∈ ids, id = typeId) :
    TypesStage dumps 3 (updateEach (fun document => { document with categoryId := some categoryId })
      documents ids) := by
  have hadd : ∀ id ∈ ids, ∀ document, documents.get? id = some document →
      dumps.categoryIds.get? document.groupId = some categoryId := by
    intro id hid document hdocument
    rw [hstage.categoryOf (by decide) hdocument, hids id hid, hcategory]
  refine ⟨fun hn => ⟨(hstage.built hn).1, fun id => ?_⟩, fun hn id => ?_,
    fun hn => absurd hn (by decide)⟩
  · rw [← (hstage.built hn).2 id]
    refine map_get?_updateEach
      (fun id document => dumps.addCategory (dumps.addVolume id document)) ?_ ?_ id
    · exact fun _ => rfl
    intro id hid document hdocument
    have hgroup := hadd id hid document hdocument
    cases hvolume : dumps.volumes.get? id <;>
      simp only [Dumps.addVolume, Dumps.addCategory, hvolume, hgroup]
  · rw [← hstage.volume hn id]
    refine map_get?_updateEach (fun _ document => dumps.addCategory document) ?_ ?_ id
    · exact fun _ => rfl
    intro id hid document hdocument
    simp only [Dumps.addCategory, hadd id hid document hdocument]

/-- The categories have been set. -/
def CategoriesSet (dumps : Dumps) (entries : List (ℤ × ℤ)) (world : World) : Prop :=
  ∀ entry ∈ entries, ∀ document, (world.documents .sdeTypes).get? entry.1 = some document →
    dumps.addCategory document = document

theorem runs_setCategoryId {entry : ℤ × ℤ} (hinv : Recorded 3 world ∧ Stage dumps arrivals 3 world)
    (hentry : dumps.categoryOf entry.1 = some entry.2) :
    (applying dumps arrivals 3 failing).Runs (await (.setCategoryId entry.1 entry.2))
      (fun _ later => ∀ before, CategoriesSet dumps before world →
        CategoriesSet dumps (before ++ [entry]) later) world := by
  have hstage : TypesStage dumps 3 (world.documents .sdeTypes) := hinv.2.documents .sdeTypes
  refine runs_await trivial (fun _ => rfl) (fun delivery => ⟨hinv.1, hinv.2.setDocuments ?_⟩) ?_
  · exact hstage.setCategory hentry fun id hid =>
      List.mem_singleton.mp (Delivery.mem_of_mem_parts hid)
  · intro before hbefore other hother document hdocument
    rw [World.setDocuments_self] at hdocument
    refine of_get?_updateEach (fun _ document => dumps.addCategory document = document)
      ?_ (fun id hid old hold => ?_) hdocument fun hid hold => ?_
    · exact fun _ => rfl
    · have hgroup := hstage.categoryOf (by decide) hold
      rw [List.mem_singleton.mp hid, hentry] at hgroup
      simp only [Dumps.addCategory, hgroup]
    · rcases List.mem_append.mp hother with hother | hother
      · exact hbefore other hother document hold
      · exact absurd (List.mem_singleton.mp hother ▸ List.mem_singleton_self _) hid

/-- **`0004_add_category_id_to_sde_types`.** -/
theorem runs_addCategoryIdToSdeTypes {arrival : ℕ → ℕ}
    (hinv : Recorded 3 world ∧ Stage dumps arrivals 3 world) :
    (applying dumps arrivals 3 failing).Runs (addCategoryIdToSdeTypes dumps arrival)
      (fun _ later => Stage dumps arrivals 4 later) world := by
  refine (runs_load fun h => h.invGroups).bind hinv ?_
  rintro groups _ _ ⟨hgroups, rfl⟩
  have hcategories : categoryIdByGroupId groups = dumps.categoryIds := by
    rw [Dumps.categoryIds, hgroups, Option.getD_some]
  have hstage : TypesStage dumps 3 (world.documents .sdeTypes) := hinv.2.documents .sdeTypes
  refine (runs_findDocuments hinv).bind hinv ?_
  rintro types _ _ ⟨rfl, rfl⟩
  -- an entry is a type whose group has a category
  have hmem : ∀ entry, entry ∈ categoryEntries dumps.categoryIds
      (world.documents .sdeTypes).entries ↔ ∃ document,
        (world.documents .sdeTypes).get? entry.1 = some document ∧
          dumps.categoryIds.get? document.groupId = some entry.2 := by
    rintro ⟨id, categoryId⟩
    simp only [categoryEntries, List.mem_filterMap, Option.map_eq_some_iff, Prod.mk.injEq,
      Prod.exists, Dict.get?_eq_some_iff]
    constructor
    · rintro ⟨id, document, hdocument, categoryId, hcategory, rfl, rfl⟩
      exact ⟨document, hdocument, hcategory⟩
    · rintro ⟨document, hdocument, hcategory⟩
      exact ⟨id, document, hdocument, categoryId, hcategory, rfl, rfl⟩
  rw [hcategories]
  refine (runs_gatherBatches (CategoriesSet dumps) hinv (by simp [CategoriesSet]) ?_).mono hinv ?_
  · intro entry hentry later hlater
    obtain ⟨document, hdocument, hcategory⟩ := (hmem entry).mp hentry
    exact runs_setCategoryId hlater
      ((hstage.categoryOf (by decide) hdocument).symm.trans hcategory)
  · intro _ later hlater harrived
    have hset : CategoriesSet dumps (categoryEntries dumps.categoryIds
        (world.documents .sdeTypes).entries) later := fun entry hentry =>
      harrived entry ((arrived_perm _ _).mem_iff.mpr hentry)
    have hlaterStage : TypesStage dumps 3 (later.documents .sdeTypes) :=
      hlater.2.documents .sdeTypes
    have hbuilt := hlaterStage.built (by decide)
    have hvolume := hlaterStage.volume le_rfl
    refine hlater.2.next_of (by decide) .sdeTypes (by rintro (_ | _ | _ | _) <;> decide)
      (TypesStage.mk (fun _ => hbuilt) (fun _ => hvolume)
        fun _ => ⟨by simp [hgroups], fun id => ?_⟩)
    rw [← hvolume id]
    cases hget : (later.documents .sdeTypes).get? id with
    | none => rfl
    | some document =>
        refine congrArg some (Eq.symm ?_)
        cases hcategory : dumps.categoryIds.get? document.groupId with
        | none => simp only [Dumps.addCategory, hcategory]
        | some categoryId =>
            -- the type was there when the entries were read
            obtain ⟨old, hold⟩ : ∃ old, (world.documents .sdeTypes).get? id = some old := by
              have hsame := (hlaterStage.groupId (by decide) id).trans
                (hstage.groupId (by decide) id).symm
              rw [hget] at hsame
              obtain ⟨old, hold, _⟩ := Option.map_eq_some_iff.mp hsame.symm
              exact ⟨old, hold⟩
            refine hset (id, categoryId) ((hmem _).mpr ⟨old, hold, ?_⟩) document hget
            rw [hstage.categoryOf (by decide) hold, ← hlaterStage.categoryOf (by decide) hget,
              hcategory]

/-! ## 0005 to 0007 -/

/-- **`0005_import_sde_categories`.** -/
theorem runs_importSdeCategories (hinv : Recorded 4 world ∧ Stage dumps arrivals 4 world) :
    (applying dumps arrivals 4 failing).Runs (importSdeCategories dumps)
      (fun _ later => Stage dumps arrivals 5 later)
      world := by
  refine (runs_load fun h => h.invCategories).bind hinv ?_
  rintro categories _ _ ⟨hcategories, rfl⟩
  have hdocuments : categoryDocuments categories = dumps.categories := by
    rw [Dumps.categories, hcategories, Option.getD_some]
  rw [hdocuments]
  have hfree : ∀ documents, CollectionStage dumps arrivals 4 .sdeCategories documents := fun _ =>
    CategoriesStage.mk (by omega)
  refine (runs_replaceAll hinv hfree fun h => h.categories).mono hinv ?_
  intro _ later hlater hreplaced
  refine hlater.2.next_of (by decide) .sdeCategories (by rintro (_ | _ | _ | _) <;> decide) ?_
  exact CategoriesStage.mk fun _ => ⟨by simp [hcategories], hreplaced.nodup, hreplaced.get?⟩

/-- `0006_build_sde_planet_schematics`, as it is applied twice. -/
theorem runs_replaceSchematics (hn : n < 7)
    (hinv : Recorded n world ∧ Stage dumps arrivals n world) :
    (applying dumps arrivals n failing).Runs (buildSdePlanetSchematics dumps)
      (fun _ later => SchematicsStage dumps 7 (later.documents .sdePlanetSchematics)) world := by
  refine (runs_load fun h => h.planetSchematicsTypeMap).bind hinv ?_
  rintro typeMap _ _ ⟨htypeMap, rfl⟩
  refine (runs_load fun h => h.planetSchematics).bind hinv ?_
  rintro schematics _ _ ⟨hschematics, rfl⟩
  have hdocuments : schematicDocuments typeMap schematics = dumps.schematics := by
    rw [Dumps.schematics, htypeMap, hschematics, Option.getD_some, Option.getD_some]
  rw [hdocuments]
  have hfree : ∀ documents,
      CollectionStage dumps arrivals n .sdePlanetSchematics documents := fun _ =>
    SchematicsStage.mk (by omega)
  refine (runs_replaceAll hinv hfree fun h => h.schematics).mono hinv ?_
  intro _ later _ hreplaced
  exact SchematicsStage.mk fun _ =>
    ⟨by simp [htypeMap], by simp [hschematics], hreplaced.nodup, hreplaced.get?⟩

/-- **`0006_build_sde_planet_schematics`.** -/
theorem runs_buildSdePlanetSchematics (hinv : Recorded 5 world ∧ Stage dumps arrivals 5 world) :
    (applying dumps arrivals 5 failing).Runs (buildSdePlanetSchematics dumps)
      (fun _ later => Stage dumps arrivals 6 later) world := by
  refine (runs_replaceSchematics (by decide) hinv).mono hinv fun _ later hlater hschematics => ?_
  refine hlater.2.next_of (by decide) .sdePlanetSchematics
    (by rintro (_ | _ | _ | _) <;> decide) ?_
  have hrebuilt : CollectionStage dumps arrivals 7 .sdePlanetSchematics _ := hschematics
  exact hrebuilt.mono (by decide)

/-- **`0007_rebuild_sde_planet_schematics`.** -/
theorem runs_rebuildSdePlanetSchematics (hinv : Recorded 6 world ∧ Stage dumps arrivals 6 world) :
    (applying dumps arrivals 6 failing).Runs (rebuildSdePlanetSchematics dumps)
      (fun _ later => Stage dumps arrivals 7 later) world := by
  refine (runs_replaceSchematics (by decide) hinv).mono hinv fun _ later hlater hschematics => ?_
  exact hlater.2.next_of (by decide) .sdePlanetSchematics
    (by rintro (_ | _ | _ | _) <;> decide) hschematics

/-! ## 0008 -/

theorem activityId_of_formula {id : ℤ} {document : BlueprintDocument}
    (hdocument : (dumps.formulas arrivals).reverse.lookup id = some document) :
    document.activityId = some reactionsActivityId := by
  obtain ⟨before, after, heq, _⟩ := List.lookup_eq_some_iff.mp hdocument
  have hmem : (id, document) ∈ dumps.reactions := by
    rw [← (arrived_perm arrivals.formulas dumps.reactions).mem_iff, ← Dumps.formulas,
      ← List.mem_reverse, heq]
    simp
  obtain ⟨row, _, hrow⟩ := List.mem_map.mp hmem
  cases hrow
  rfl

theorem lookup_formulas_eq_none_iff {id : ℤ} :
    (dumps.formulas arrivals).reverse.lookup id = none ↔ id ∉ dumps.reactions.map Prod.fst := by
  rw [lookup_eq_none_iff, List.map_reverse, List.mem_reverse, Dumps.formulas,
    ((arrived_perm arrivals.formulas dumps.reactions).map Prod.fst).mem_iff]

theorem BlueprintsStage.upsert {documents : Dict ℤ BlueprintDocument}
    {entry : ℤ × BlueprintDocument} {ids : List ℤ}
    (hstage : BlueprintsStage dumps arrivals 7 documents)
    (hentry : entry ∈ dumps.reactions) (hids : ∀ id ∈ ids, id = entry.1) :
    BlueprintsStage dumps arrivals 7
      (ids.foldl (fun documents id => documents.set id entry.2) documents) := by
  induction ids generalizing documents with
  | nil => exact hstage
  | cons first ids ih =>
      obtain ⟨rfl, hrest⟩ := List.forall_mem_cons.mp hids
      refine ih (BlueprintsStage.mk (fun hn => ⟨(hstage.built hn).1, fun id hid => ?_⟩) (by omega))
        hrest
      have hne : id ≠ entry.1 := by
        rintro rfl
        exact hid (List.mem_map_of_mem hentry)
      rw [Dict.get?_set, if_neg hne]
      exact (hstage.built hn).2 id hid

/-- The formulas are there, the last one of each blueprint. -/
def FormulasSet (entries : List (ℤ × BlueprintDocument)) (world : World) : Prop :=
  ∀ id document, entries.reverse.lookup id = some document →
    (world.documents .sdeBlueprints).get? id = some document

theorem runs_upsertBlueprint {entry : ℤ × BlueprintDocument}
    (hinv : Recorded 7 world ∧ Stage dumps arrivals 7 world) (hentry : entry ∈ dumps.reactions) :
    (applying dumps arrivals 7 failing).Runs (await (.upsertBlueprint entry.1 entry.2))
      (fun _ later => ∀ before, FormulasSet before world → FormulasSet (before ++ [entry]) later)
      world := by
  have hstage : BlueprintsStage dumps arrivals 7 (world.documents .sdeBlueprints) :=
    hinv.2.documents .sdeBlueprints
  refine runs_await trivial (fun _ => rfl) (fun delivery => ⟨hinv.1, hinv.2.setDocuments ?_⟩) ?_
  · exact hstage.upsert hentry fun id hid =>
      List.mem_singleton.mp (Delivery.mem_of_mem_parts hid)
  · intro before hbefore id document hdocument
    rw [World.setDocuments_self]
    show ((world.documents .sdeBlueprints).set entry.1 entry.2).get? id = some document
    rw [List.reverse_append, List.reverse_singleton, List.singleton_append,
      List.lookup_cons] at hdocument
    rw [Dict.get?_set]
    rcases eq_or_ne id entry.1 with rfl | hne
    · simpa using hdocument
    · rw [if_neg hne]
      rw [beq_false_of_ne hne] at hdocument
      exact hbefore id document hdocument

/-- The blueprints without an activity. -/
def World.untagged (world : World) : List ℤ :=
  ((world.documents .sdeBlueprints).entries.filter fun entry =>
    entry.2.activityId = none).map Prod.fst

theorem mem_untagged {id : ℤ} : id ∈ world.untagged ↔ ∃ document,
    (world.documents .sdeBlueprints).get? id = some document ∧ document.activityId = none := by
  simp only [World.untagged, List.mem_map, List.mem_filter, decide_eq_true_eq, Prod.exists,
    Dict.get?_eq_some_iff]
  constructor
  · rintro ⟨_, document, ⟨hmem, hnone⟩, rfl⟩
    exact ⟨document, hmem, hnone⟩
  · rintro ⟨document, hmem, hnone⟩
    exact ⟨id, document, ⟨hmem, hnone⟩, rfl⟩

theorem BlueprintsStage.setMissing {ids : List ℤ} (hinv : Stage dumps arrivals 7 world)
    (hids : ∀ id ∈ ids, id ∈ world.untagged) :
    BlueprintsStage dumps arrivals 7 (updateEach
      (fun document => { document with activityId := some manufacturingActivityId })
      (world.documents .sdeBlueprints) ids) := by
  have hstage : BlueprintsStage dumps arrivals 7 (world.documents .sdeBlueprints) :=
    hinv.documents .sdeBlueprints
  refine ⟨fun hn => ⟨(hstage.built hn).1, fun id hid => ?_⟩, fun hn => absurd hn (by decide)⟩
  rw [← (hstage.built hn).2 id hid]
  refine map_get?_updateEach (fun _ document => addActivity document) ?_ ?_ id
  · exact fun _ => rfl
  intro other hother document hdocument
  obtain ⟨found, hfound, hnone⟩ := mem_untagged.mp (hids other hother)
  obtain rfl := Option.some_inj.mp (hdocument.symm.trans hfound)
  simp only [addActivity, hnone, Option.getD_some, Option.getD_none]

/-- The rest of the blueprints are tagged. -/
theorem runs_setMissingActivityId (hinv : Recorded 7 world ∧ Stage dumps arrivals 7 world)
    (hset : FormulasSet (dumps.formulas arrivals) world) :
    (applying dumps arrivals 7 failing).Runs (await (.setMissingActivityId manufacturingActivityId))
      (fun _ later => Recorded 7 later ∧ Stage dumps arrivals 8 later) world := by
  have hkeep : ∀ delivery : Delivery, Stage dumps arrivals 7 (world.setDocuments .sdeBlueprints
      (updateEach (fun document => { document with activityId := some manufacturingActivityId })
        (world.documents .sdeBlueprints) (delivery.parts world.untagged))) := fun delivery =>
    hinv.2.setDocuments (BlueprintsStage.setMissing hinv.2 fun _ => Delivery.mem_of_mem_parts)
  refine runs_await trivial (fun _ => rfl) (fun delivery => ⟨hinv.1, hkeep delivery⟩)
    ⟨hinv.1, (hkeep .done).next_of (by decide) .sdeBlueprints
      (by rintro (_ | _ | _ | _) <;> decide) ?_⟩
  have hstage : BlueprintsStage dumps arrivals 7 _ := (hkeep .done).documents .sdeBlueprints
  have hbuilt := hstage.built (by decide)
  refine BlueprintsStage.mk (fun _ => hbuilt) fun _ id => ?_
  rw [World.setDocuments_self] at hbuilt ⊢
  cases hformula : (dumps.formulas arrivals).reverse.lookup id with
  | some document =>
      -- a formula has its activity, so that the update does not touch it
      have hget := hset id document hformula
      have htagged : id ∉ world.untagged := by
        intro hmem
        obtain ⟨found, hfound, hnone⟩ := mem_untagged.mp hmem
        obtain rfl := Option.some_inj.mp (hget.symm.trans hfound)
        rw [activityId_of_formula hformula] at hnone
        cases hnone
      refine (get?_updateEach ?_ _ _ id).trans ((if_neg htagged).trans hget)
      exact fun _ => rfl
  | none =>
      have hid : id ∉ dumps.reactions.map Prod.fst := by
        rw [lookup_formulas_eq_none_iff] at hformula
        exact hformula
      rw [Option.none_or, ← hbuilt.2 id hid]
      cases hget : (updateEach _ (world.documents .sdeBlueprints) _).get? id with
      | none => rfl
      | some document =>
          -- whatever is there has been tagged now, or had its activity before
          refine congrArg some (Eq.symm ?_)
          refine of_get?_updateEach (fun _ document => addActivity document = document) ?_
            (fun _ _ _ _ => rfl) hget fun hnot hold => ?_
          · exact fun _ => rfl
          cases hactivity : document.activityId with
          | none => exact absurd (mem_untagged.mpr ⟨document, hold, hactivity⟩) hnot
          | some activityId => rw [addActivity, hactivity, Option.getD_some, ← hactivity]

/-- **`0008_add_reaction_formulas_to_sde_blueprints`.** -/
theorem runs_addReactionFormulasToSdeBlueprints
    (hinv : Recorded 7 world ∧ Stage dumps arrivals 7 world) :
    (applying dumps arrivals 7 failing).Runs
      (addReactionFormulasToSdeBlueprints arrivals.formulas)
      (fun _ later => Stage dumps arrivals 8 later) world := by
  refine (runs_readBlueprints (by decide) hinv).bind hinv ?_
  rintro reactionDocs _ _ ⟨rfl, rfl⟩
  refine (runs_gatherBatches FormulasSet hinv (fun _ _ h => by cases h)
    fun entry hentry later hlater => runs_upsertBlueprint hlater hentry).bind hinv ?_
  intro _ later hlater hset
  exact (runs_setMissingActivityId hlater hset).mono hlater fun _ final _ hfinal => hfinal.2

/-! ## 0009 and 0010 -/

/-- The last migrations leave the collections as they are. -/
theorem Stage.succ (hstage : Stage dumps arrivals n world) (hn : 8 ≤ n) :
    Stage dumps arrivals (n + 1) world := by
  refine hstage.next (by omega) fun collection => ?_
  have hlast : ∀ stage ∈ collection.stages, stage ≤ 8 := by cases collection <;> decide
  exact (hstage.documents collection).of_le fun stage hmem _ => (hlast stage hmem).trans hn

theorem runs_dropMarketOrderHistory (hinv : Recorded 8 world ∧ Stage dumps arrivals 8 world) :
    (applying dumps arrivals 8 failing).Runs dropMarketOrderHistory
      (fun _ later => Stage dumps arrivals 9 later)
      world :=
  runs_await trivial (fun _ => rfl) (fun _ => hinv) (hinv.2.succ le_rfl)

theorem runs_indexSdeBlueprintsByProduct (hinv : Recorded 9 world ∧ Stage dumps arrivals 9 world) :
    (applying dumps arrivals 9 failing).Runs indexSdeBlueprintsByProduct
      (fun _ later => Stage dumps arrivals 10 later) world :=
  runs_await trivial (fun _ => rfl) (fun _ => hinv) (hinv.2.succ (by decide))

/-- **Each migration** goes to the next stage.  The formulas have arrived as the call that applies
0008 says. -/
theorem runs_apply {own : Arrivals} {index : ℕ} {migration : Migration}
    (hmigration : (discoverMigrations dumps own)[index]? = some migration)
    (hown : index < 8 → own = arrivals)
    (hinv : Recorded index world ∧ Stage dumps arrivals index world) :
    (applying dumps arrivals index failing).Runs migration.apply
      (fun _ later => Stage dumps arrivals (index + 1) later) world := by
  match index, hmigration, hinv with
  | 0, rfl, hinv => exact runs_importRawSdeTables hinv
  | 1, rfl, hinv => exact runs_buildSdeLookupCollections hinv
  | 2, rfl, hinv => exact runs_addVolumeToSdeTypes hinv
  | 3, rfl, hinv => exact runs_addCategoryIdToSdeTypes hinv
  | 4, rfl, hinv => exact runs_importSdeCategories hinv
  | 5, rfl, hinv => exact runs_buildSdePlanetSchematics hinv
  | 6, rfl, hinv => exact runs_rebuildSdePlanetSchematics hinv
  | 7, rfl, hinv =>
      obtain rfl := hown (by decide)
      exact runs_addReactionFormulasToSdeBlueprints hinv
  | 8, rfl, hinv => exact runs_dropMarketOrderHistory hinv
  | 9, rfl, hinv => exact runs_indexSdeBlueprintsByProduct hinv

end Applying

end EveBuild.Migrations
