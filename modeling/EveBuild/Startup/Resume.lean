import EveBuild.Startup.Applying

/-!
# Attempts one after the other

Calls of `run_migrations` on an empty database, each of which can fail or be killed
anywhere, and of which the next one is only made when the last one is over.  They go from
stage to stage (`runs_runMigrations`).  So once one of them completes, the collections are
those of a single uninterrupted run, each migration has been recorded once, and none has
been applied again after that (`resumed_eq_uninterrupted`).

What an uninterrupted run leaves depends on the order in which updates arrive, but only if two
products of reactions have one `typeID` (`not_resumed_eq_uninterrupted_twoFormulas`).
-/

namespace EveBuild.Migrations

open Effect

/-- Two databases with the same documents.  Rows have no id here. -/
structure SameDocuments (first second : World) : Prop where
  rows : ∀ table, first.rows table = second.rows table
  documents : ∀ collection id,
    (first.documents collection).get? id = (second.documents collection).get? id

/-- A call of `run_migrations` from the database as it is.  No migration is applied that
has been recorded. -/
def attempting (dumps : Dumps) (failing : Bool) : Alone signature MigrationError World where
  answers := Answered failing
  allowed op world := ∀ id, op = .info applyingMessage id → id ∉ world.applied
  raises error _ := error = .database ∧ failing = true ∨ ¬ Importable dumps
  inv world := ∃ n arrivals, Recorded n world ∧ Stage dumps arrivals n world

section Attempts

variable {dumps : Dumps} {arrivals own : Arrivals} {failing : Bool} {world : World} {n index : ℕ}

theorem nodup_migrationIds : migrationIds.Nodup := by decide

theorem getElem_migrationIds {migration : Migration}
    (hmigration : (discoverMigrations dumps own)[index]? = some migration) :
    ∃ hindex : index < migrationIds.length, migrationIds[index] = migration.migrationId := by
  obtain ⟨hindex, rfl⟩ := List.getElem?_eq_some_iff.mp hmigration
  exact ⟨hindex, by simp only [← map_migrationId dumps own, List.getElem_map]⟩

/-! ## The first and the last stage -/

theorem recorded_empty : Recorded 0 .empty := fun index _ => by simp [World.empty]

theorem stage_empty (dumps : Dumps) (arrivals : Arrivals) : Stage dumps arrivals 0 .empty where
  rows table htable := by
    have hnone : dumps.table table = none := by
      rcases htable with hzero | happlied | hnone
      · exact absurd hzero (by decide)
      · cases happlied
      · exact hnone
    rw [Dumps.rows, hnone]
    rfl
  documents collection := by
    cases collection with
    | sdeTypes => exact TypesStage.mk (by omega) (by omega) (by omega)
    | sdeBlueprints => exact BlueprintsStage.mk (by omega) (by omega)
    | sdeCategories => exact CategoriesStage.mk (by omega)
    | sdePlanetSchematics => exact SchematicsStage.mk (by omega)

theorem Stage.importable (hstage : Stage dumps arrivals 10 world) : Importable dumps := by
  have htypes : TypesStage dumps 10 _ := hstage.documents .sdeTypes
  have hblueprints : BlueprintsStage dumps arrivals 10 _ := hstage.documents .sdeBlueprints
  have hcategories : CategoriesStage dumps 10 _ := hstage.documents .sdeCategories
  have hschematics : SchematicsStage dumps 10 _ := hstage.documents .sdePlanetSchematics
  obtain ⟨hinvCategories, hnodupCategories, _⟩ := hcategories.built (by decide)
  obtain ⟨htypeMap, hplanetSchematics, hnodupSchematics, _⟩ := hschematics.built (by decide)
  exact {
    invGroups := (htypes.category (by decide)).1
    invCategories := hinvCategories
    planetSchematicsTypeMap := htypeMap
    planetSchematics := hplanetSchematics
    types := (htypes.built (by decide)).1
    manufacturing := (hblueprints.built (by decide)).1
    categories := hnodupCategories
    schematics := hnodupSchematics }

/-- What a stage says of the formulas is still open as long as 0008 has not been recorded. -/
theorem Stage.settled (hstage : Stage dumps arrivals n world) (own : Arrivals) :
    ∃ settled, (n < 8 → own = settled) ∧ Stage dumps settled n world := by
  by_cases hn : n < 8
  · exact ⟨own, fun _ => rfl, hstage.of_arrivals fun hle => absurd hn (not_lt.mpr hle)⟩
  · exact ⟨arrivals, fun hlt => absurd hlt hn, hstage⟩

/-- The last stage says what every document is. -/
theorem Stage.sameDocuments {other : World} (hstage : Stage dumps arrivals 10 world)
    (hother : Stage dumps arrivals 10 other) : SameDocuments world other where
  rows table := (hstage.rows table (Or.inl (by decide))).trans
    (hother.rows table (Or.inl (by decide))).symm
  documents collection id := by
    have hfirst := hstage.documents collection
    have hsecond := hother.documents collection
    cases collection with
    | sdeTypes =>
        exact ((hfirst.category (by decide)).2 id).trans ((hsecond.category (by decide)).2 id).symm
    | sdeBlueprints =>
        exact (hfirst.reactions (by decide) id).trans (hsecond.reactions (by decide) id).symm
    | sdeCategories =>
        exact ((hfirst.built (by decide)).2.2 id).trans ((hsecond.built (by decide)).2.2 id).symm
    | sdePlanetSchematics =>
        exact ((hfirst.built (by decide)).2.2.2 id).trans
          ((hsecond.built (by decide)).2.2.2 id).symm

/-! ## Recording -/

theorem Stage.insertApplied (hstage : Stage dumps arrivals n world) (hn : 1 ≤ n)
    (ids : List String) :
    Stage dumps arrivals n (world.insertApplied ids) where
  rows table _ := hstage.rows table (Or.inl hn)
  documents := hstage.documents

/-- The record of the next migration. -/
theorem Recorded.insertApplied (hrecorded : Recorded index world)
    (hindex : index < migrationIds.length) :
    Recorded (index + 1) (world.insertApplied [migrationIds[index]]) := by
  intro other hother
  rw [mem_insertApplied, hrecorded other hother, List.mem_singleton,
    nodup_migrationIds.getElem_inj_iff]
  omega

theorem recorded_insertApplied_nil (hrecorded : Recorded index world) :
    Recorded index (world.insertApplied []) := by
  intro other hother
  rw [mem_insertApplied, hrecorded other hother]
  simp

/-- A migration that has been applied is recorded, or not. -/
theorem ready_insertApplied {migration : Migration} (delivery : Delivery)
    (hmigration : (discoverMigrations dumps own)[index]? = some migration)
    (hrecorded : Recorded index world) (hstage : Stage dumps arrivals (index + 1) world) :
    ∃ n arrivals, Recorded n (world.insertApplied (delivery.parts [migration.migrationId])) ∧
      Stage dumps arrivals n (world.insertApplied (delivery.parts [migration.migrationId])) := by
  obtain ⟨hindex, hid⟩ := getElem_migrationIds hmigration
  have hlater := hstage.insertApplied (by omega) (delivery.parts [migration.migrationId])
  rcases delivery.parts_singleton migration.migrationId with hparts | hparts
  · rw [hparts] at hlater ⊢
    exact ⟨index, arrivals, recorded_insertApplied_nil hrecorded, hlater.mono (Nat.le_succ index)⟩
  · rw [hparts] at hlater ⊢
    exact ⟨index + 1, arrivals, hid ▸ hrecorded.insertApplied hindex, hlater⟩

/-! ## The runner -/

/-- What is logged, and is no beginning of a migration. -/
theorem attempting_info {message argument : String} (hmessage : message ≠ applyingMessage)
    (hinv : (attempting dumps failing).inv world) :
    (attempting dumps failing).Runs (info message argument) (fun _ later => world = later)
      world := by
  refine Alone.Runs.perform (fun id hop => ?_) ?_
  · cases hop
    exact absurd rfl hmessage
  · rintro answer later ⟨delivery, _, hanswer⟩
    cases hanswer
    exact ⟨hinv, rfl⟩

/-- The migration is applied. -/
theorem attempting_apply {migration : Migration}
    (hmigration : (discoverMigrations dumps own)[index]? = some migration)
    (hown : index < 8 → own = arrivals) (hrecorded : Recorded index world)
    (hstage : Stage dumps arrivals index world) :
    (attempting dumps failing).Runs migration.apply
      (fun _ later => Recorded index later ∧ Stage dumps arrivals (index + 1) later) world := by
  have hinv : (applying dumps arrivals index failing).inv world := ⟨hrecorded, hstage⟩
  have hruns : (applying dumps arrivals index failing).Runs migration.apply
      (fun _ later => Recorded index later ∧ Stage dumps arrivals (index + 1) later) world :=
    (runs_apply hmigration hown hinv).mono hinv fun _ _ hlater hnext => ⟨hlater.1, hnext⟩
  refine hruns.weaken hinv (fun _ _ _ _ => id) (fun op _ _ hordinary id hop => ?_)
    (fun _ _ _ => id) fun later hlater => ⟨index, arrivals, hlater⟩
  exact absurd rfl (hop ▸ hordinary : Ordinary (.info applyingMessage id))

theorem attempting_insertApplied {migration : Migration}
    (hmigration : (discoverMigrations dumps own)[index]? = some migration)
    (hrecorded : Recorded index world) (hstage : Stage dumps arrivals (index + 1) world) :
    (attempting dumps failing).Runs (await (.insertApplied migration.migrationId))
      (fun _ later => Recorded (index + 1) later ∧ Stage dumps arrivals (index + 1) later)
      world := by
  obtain ⟨hindex, hid⟩ := getElem_migrationIds hmigration
  refine Alone.Runs.perform (fun id hop => by cases hop) ?_
  rintro answer later ⟨delivery, hdone, hanswer⟩
  obtain ⟨rfl, rfl⟩ := Prod.mk.inj hanswer
  refine ⟨ready_insertApplied delivery hmigration hrecorded hstage, ?_⟩
  cases delivery with
  | error carriedOut => exact Or.inl ⟨rfl, failing_of_error hdone⟩
  | done =>
      have hnew : migration.migrationId ∉ world.applied := by
        rw [← hid, hrecorded index hindex]
        exact lt_irrefl index
      simp only [insertAnswer, hnew, not_false_eq_true, decide_true, if_true]
      exact ⟨hid ▸ hrecorded.insertApplied hindex, hstage.insertApplied (by omega) _⟩

/-- One migration of an attempt that has found `n` of them recorded. -/
theorem attempting_runMigration {appliedIds : List String} {migration : Migration}
    (hmigration : (discoverMigrations dumps own)[index]? = some migration)
    (happlied : migration.migrationId ∈ appliedIds ↔ index < n) (hown : n < 8 → own = arrivals)
    (hrecorded : Recorded (max n index) world) (hstage : Stage dumps arrivals (max n index) world) :
    (attempting dumps failing).Runs (runMigration appliedIds migration)
      (fun _ later => Recorded (max n (index + 1)) later ∧
        Stage dumps arrivals (max n (index + 1)) later)
      world := by
  have hinv : (attempting dumps failing).inv world := ⟨max n index, arrivals, hrecorded, hstage⟩
  unfold runMigration
  split
  · rename_i hskip
    -- an earlier attempt has recorded the migration
    have hlt := happlied.mp hskip
    rw [max_eq_left hlt.le] at hrecorded hstage
    refine (attempting_info (by decide) hinv).mono hinv ?_
    rintro _ _ _ rfl
    rw [max_eq_left hlt]
    exact ⟨hrecorded, hstage⟩
  · rename_i happly
    -- this attempt applies it, and then records it
    have hle : n ≤ index := not_lt.mp fun hlt => happly (happlied.mpr hlt)
    rw [max_eq_right hle] at hrecorded hstage
    rw [max_eq_right (hle.trans (Nat.le_succ index))]
    obtain ⟨hindex, hid⟩ := getElem_migrationIds hmigration
    have hbegin : (attempting dumps failing).Runs (info applyingMessage migration.migrationId)
        (fun _ later => world = later) world := by
      refine Alone.Runs.perform (fun id hop => ?_) ?_
      · obtain ⟨_, rfl⟩ := Op.info.inj hop
        rw [← hid, hrecorded index hindex]
        exact lt_irrefl index
      · rintro answer later ⟨delivery, _, hanswer⟩
        cases hanswer
        exact ⟨hinv, rfl⟩
    refine hbegin.bind hinv ?_
    rintro _ _ _ rfl
    refine (attempting_apply hmigration (fun hlt => hown (hle.trans_lt hlt)) hrecorded
      hstage).bind hinv ?_
    rintro _ applied happliedInv ⟨happliedRecorded, happliedStage⟩
    refine (attempting_insertApplied hmigration happliedRecorded happliedStage).bind happliedInv ?_
    rintro _ recorded hrecordedInv ⟨hlast, hlastStage⟩
    refine (attempting_info (by decide) hrecordedInv).mono hrecordedInv ?_
    rintro _ _ _ rfl
    exact ⟨hlast, hlastStage⟩

/-- **`run_migrations`** completes the migrations, from whatever an earlier call has left.  If 0008
has not been recorded, the formulas arrive as this call says. -/
theorem runs_from (hrecorded : Recorded n world) (hstage : Stage dumps arrivals n world)
    (hown : n < 8 → own = arrivals) :
    (attempting dumps failing).Runs (runMigrations dumps own)
      (fun _ later => Recorded 10 later ∧ Stage dumps arrivals 10 later) world := by
  have hinv : (attempting dumps failing).inv world := ⟨n, arrivals, hrecorded, hstage⟩
  have hfind : (attempting dumps failing).Runs (await (.findApplied none))
      (fun appliedIds later => appliedIds = world.applied ∧ world = later) world := by
    refine Alone.Runs.perform (fun id hop => by cases hop) ?_
    rintro answer later ⟨delivery, hdone, hanswer⟩
    obtain ⟨rfl, rfl⟩ := Prod.mk.inj hanswer
    refine ⟨hinv, ?_⟩
    cases delivery with
    | done => exact ⟨rfl, rfl⟩
    | error carriedOut => exact Or.inl ⟨rfl, failing_of_error hdone⟩
  refine hfind.bind hinv ?_
  rintro appliedIds _ _ ⟨rfl, rfl⟩
  let done (gone : List Migration) (later : World) : Prop :=
    Recorded (max n gone.length) later ∧ Stage dumps arrivals (max n gone.length) later
  refine (Alone.Runs.forEach (fun migration => [migration]) done hinv ?_ ?_).mono hinv ?_
  · simpa [done] using ⟨hrecorded, hstage⟩
  · intro before migration after hmigrations later _ hbefore
    rw [List.flatMap_singleton'] at hbefore ⊢
    have hmigration : (discoverMigrations dumps own)[before.length]? = some migration := by
      simp [hmigrations]
    obtain ⟨hindex, hid⟩ := getElem_migrationIds hmigration
    -- the first `n` migrations are those that were found
    have happlied : migration.migrationId ∈ world.applied ↔ before.length < n := by
      rw [← hid, hrecorded before.length hindex]
    simpa [done] using attempting_runMigration hmigration happlied hown hbefore.1 hbefore.2
  · rintro _ later _ ⟨hlast, hlastStage⟩
    rw [List.flatMap_singleton'] at hlast hlastStage
    have hlength : (discoverMigrations dumps own).length = 10 := rfl
    rw [hlength] at hlast hlastStage
    refine ⟨fun other hother => ?_, hlastStage.mono (le_max_right n 10)⟩
    have hten : migrationIds.length = 10 := rfl
    rw [hlast other hother]
    omega

/-- Any call of `run_migrations`. -/
theorem runs_runMigrations (hinv : (attempting dumps failing).inv world) :
    (attempting dumps failing).Runs (runMigrations dumps own)
      (fun _ later => Recorded 10 later ∧ ∃ arrivals, Stage dumps arrivals 10 later) world := by
  obtain ⟨n, arrivals, hrecorded, hstage⟩ := id hinv
  obtain ⟨settled, hown, hsettled⟩ := hstage.settled own
  exact (runs_from hrecorded hsettled hown).mono hinv fun _ later _ hlater =>
    ⟨hlater.1, settled, hlater.2⟩

theorem answered_done (failing : Bool) (op : Op) (world : World) :
    Answered failing op world (respond op .done world).1 (respond op .done world).2 :=
  ⟨.done, fun _ => rfl, rfl⟩

/-- How a single uninterrupted run ends. -/
theorem ends_uninterrupted (dumps : Dumps) (arrivals : Arrivals) :
    (attempting dumps false).Ends
      (fun _ later => Recorded 10 later ∧ Stage dumps arrivals 10 later)
      (uninterrupted dumps arrivals).1 (uninterrupted dumps arrivals).2 := by
  have hruns : (attempting dumps false).Runs (runMigrations dumps arrivals)
      (fun _ later => Recorded 10 later ∧ Stage dumps arrivals 10 later) .empty :=
    runs_from recorded_empty (stage_empty dumps arrivals) fun _ => rfl
  exact hruns.eval (answered_done false)

/-- It completes if the dump files are such that any run can. -/
theorem stage_uninterrupted (himportable : Importable dumps) (arrivals : Arrivals) :
    (uninterrupted dumps arrivals).1 = .ok () ∧
      Stage dumps arrivals 10 (uninterrupted dumps arrivals).2 := by
  have hends := ends_uninterrupted dumps arrivals
  cases houtcome : (uninterrupted dumps arrivals).1 with
  | ok value =>
      rw [houtcome] at hends
      exact ⟨rfl, hends.2⟩
  | error error =>
      rw [houtcome] at hends
      rcases hends with ⟨_, hfalse⟩ | hnot
      · cases hfalse
      · exact absurd himportable hnot

/-- The documents are those of a single uninterrupted run, whose updates arrive in some order; and
of any, in whatever order they arrive, if no two formulas go to one document. -/
structure AsUninterrupted (dumps : Dumps) (world : World) : Prop where
  some : ∃ arrivals, (uninterrupted dumps arrivals).1 = .ok () ∧
    SameDocuments world (uninterrupted dumps arrivals).2
  any : DistinctFormulas dumps → ∀ arrivals, (uninterrupted dumps arrivals).1 = .ok () ∧
    SameDocuments world (uninterrupted dumps arrivals).2

/-- **The last stage** is that of an uninterrupted run. -/
theorem Stage.asUninterrupted (hstage : Stage dumps arrivals 10 world) :
    AsUninterrupted dumps world where
  some :=
    have hlast := stage_uninterrupted hstage.importable arrivals
    ⟨arrivals, hlast.1, hstage.sameDocuments hlast.2⟩
  any hdistinct other := by
    obtain ⟨hcompletes, hlast⟩ := stage_uninterrupted hstage.importable other
    have hother : Stage dumps other 10 world := hstage.of_arrivals fun _ id => by
      rw [lookup_formulas hdistinct, lookup_formulas hdistinct]
    exact ⟨hcompletes, hother.sameDocuments hlast⟩

/-! ## Attempts -/

/-- What any number of attempts, one after the other, can have left.  An attempt is stopped
anywhere, by an error or by a kill; a call that it was in has been carried out in part. -/
def Attempted (dumps : Dumps) : World → World → Prop :=
  Relation.ReflTransGen fun before after =>
    ∃ arrivals rest, Alone.Stops (Answered true) (runMigrations dumps arrivals) before rest after

theorem ready_attempted {after : World} (hattempts : Attempted dumps world after)
    (hinv : (attempting dumps true).inv world) : (attempting dumps true).inv after := by
  induction hattempts with
  | refl => exact hinv
  | tail _ hattempt ih =>
      obtain ⟨own, rest, hstops⟩ := hattempt
      exact ((runs_runMigrations ih).stops ih hstops).1

/-- No id is recorded twice. -/
theorem nodup_applied_of_answered {op : Op} {answer : Except MigrationError op.Answer}
    {later : World} (hanswered : Answered failing op world answer later)
    (hnodup : world.applied.Nodup) : later.applied.Nodup := by
  obtain ⟨delivery, _, hrespond⟩ := hanswered
  obtain ⟨_, rfl⟩ := Prod.mk.inj hrespond
  have hinsert : ∀ id, (world.insertApplied (delivery.parts [id])).applied.Nodup := by
    intro id
    rcases delivery.parts_singleton id with hparts | hparts
    · simpa [World.insertApplied, hparts] using hnodup
    · by_cases hmem : id ∈ world.applied
      · simpa [World.insertApplied, hparts, hmem] using hnodup
      · simpa [World.insertApplied, hparts, hmem, List.nodup_append] using
          ⟨hnodup, fun other hother heq => hmem (heq ▸ hother)⟩
  cases op with
  | insertApplied id => exact hinsert id
  | findApplied ids => cases ids <;> exact hnodup
  | find table activityID => cases activityID <;> exact hnodup
  | _ => exact hnodup

theorem nodup_attempted {after : World} (hattempts : Attempted dumps world after)
    (hnodup : world.applied.Nodup) : after.applied.Nodup := by
  induction hattempts with
  | refl => exact hnodup
  | tail _ hattempt ih =>
      obtain ⟨own, rest, hstops⟩ := hattempt
      exact hstops.invariant (fun world => world.applied.Nodup)
        (fun _ _ _ _ => nodup_applied_of_answered) ih

/-- **Attempts one after the other** end up where a single uninterrupted run does, whatever
has stopped them before.  Wherever an attempt is, a migration that it goes on to apply has
not been recorded; and once it completes, each migration has been recorded once. -/
theorem resumed_eq_uninterrupted {after : World} {rest : Code Unit}
    (hattempts : Attempted dumps .empty world)
    (hstops : Alone.Stops (Answered true) (runMigrations dumps own) world rest after) :
    (∀ id next, rest = .call (.info applyingMessage id) next → id ∉ after.applied) ∧
    (rest = .ret () → AsUninterrupted dumps after ∧
      ∀ id ∈ migrationIds, after.applied.count id = 1) := by
  have hinv := ready_attempted hattempts
    ⟨0, .asSent, recorded_empty, stage_empty dumps .asSent⟩
  obtain ⟨_, hrest⟩ := (runs_runMigrations hinv).stops hinv hstops
  refine ⟨?_, ?_⟩
  · rintro id next rfl
    exact hrest.1 id rfl
  · rintro rfl
    obtain ⟨hrecorded, arrivals, hstage⟩ :
      Recorded 10 after ∧ ∃ arrivals, Stage dumps arrivals 10 after := hrest
    refine ⟨hstage.asUninterrupted, fun id hid => ?_⟩
    have hnodup : after.applied.Nodup := hstops.invariant (fun world => world.applied.Nodup)
      (fun _ _ _ _ => nodup_applied_of_answered) (nodup_attempted hattempts List.nodup_nil)
    obtain ⟨index, hindex, rfl⟩ := List.getElem_of_mem hid
    exact List.count_eq_one_of_mem hnodup ((hrecorded index hindex).mpr hindex)

/-! ### Three attempts -/

/-- A type is made by manufacturing, another one by a reaction, and the first one is copied as
well.  One schematic has no output. -/
def joinedDumps : Dumps where
  table
    | .invTypes => some [⟨34, "Tritanium", 18, 1, none, some (1 / 100)⟩,
        ⟨35, "Pyerite", 19, 0, some 1, none⟩]
    | .industryActivity => some [⟨100, 1, 60⟩, ⟨100, 5, 30⟩]
    | .industryActivityMaterials =>
        some [⟨100, 1, 35, 2⟩, ⟨200, 11, 34, 7⟩, ⟨100, 5, 20, 1⟩, ⟨100, 1, 35, 3⟩]
    | .industryActivityProducts => some [⟨100, 1, 34, 10⟩, ⟨200, 11, 35, 5⟩, ⟨100, 5, 100, 1⟩]
  invGroups := some [⟨18, 4⟩]
  invCategories := some [⟨4, "Material"⟩]
  planetSchematics := some [⟨1, "Water", 1800⟩, ⟨2, "Oxygen", 1800⟩]
  planetSchematicsTypeMap := some [⟨1, 10, 3000, 1⟩, ⟨1, 11, 20, 0⟩, ⟨2, 12, 3000, 1⟩]

/-- The updates of the first batch arrive in the reverse order. -/
def Arrivals.reversed : Arrivals :=
  ⟨fun place => 500 - place, fun place => 500 - place, fun place => 500 - place⟩

/-- What an attempt leaves that is killed after so many calls. -/
def killedAfter (calls : ℕ) (arrivals : Arrivals) (world : World) : World :=
  ((runMigrations joinedDumps arrivals).evalFor (fun op world => respond op .done world) calls
    world).2

/-- The volume of one type has been set, and then, by the next attempt, the formula. -/
def killedTwice : World := killedAfter 34 .reversed (killedAfter 39 .asSent .empty)

def sampleRerun : Except MigrationError Unit × World :=
  (runMigrations joinedDumps .asSent).eval (fun op world => respond op .done world) killedTwice

/-- Two attempts are killed between the updates of a migration; the third one completes. -/
theorem resumed_eq_uninterrupted_killedTwice :
    (∀ arrivals, SameDocuments sampleRerun.2 (uninterrupted joinedDumps arrivals).2) ∧
      ∀ id ∈ migrationIds, sampleRerun.2.applied.count id = 1 := by
  have hkilled : ∀ calls arrivals world,
      ∃ rest, Alone.Stops (Answered true) (runMigrations joinedDumps arrivals) world rest
        (killedAfter calls arrivals world) :=
    fun calls _ _ => ⟨_, Alone.Stops.evalFor (answered_done true) calls _ _⟩
  have hattempts : Attempted joinedDumps .empty killedTwice :=
    .tail (.single ⟨.asSent, hkilled 39 _ _⟩) ⟨.reversed, hkilled 34 _ _⟩
  have hcompletes : sampleRerun.1 = .ok () := rfl
  have hstops := Alone.Stops.eval (answered_done true) hcompletes
  have hdistinct : DistinctFormulas joinedDumps := by decide
  obtain ⟨hlast, hcount⟩ := (resumed_eq_uninterrupted hattempts hstops).2 rfl
  exact ⟨fun arrivals => (hlast.any hdistinct arrivals).2, hcount⟩

/-- Two formulas of one type. -/
def twoFormulas : Dumps where
  table
    | .invTypes => none
    | .industryActivity => none
    | .industryActivityMaterials => none
    | .industryActivityProducts => some [⟨200, 11, 34, 5⟩, ⟨200, 11, 35, 5⟩]
  invGroups := some []
  invCategories := some []
  planetSchematics := some []
  planetSchematicsTypeMap := some []

/-- **The formula that arrives last** is there in the end, so that one run need not leave what
another one does. -/
theorem not_resumed_eq_uninterrupted_twoFormulas :
    ¬ ∀ (dumps : Dumps) (world after : World) (own arrivals : Arrivals),
      Attempted dumps .empty world →
      Alone.Stops (Answered true) (runMigrations dumps own) world (.ret ()) after →
      SameDocuments after (uninterrupted dumps arrivals).2 := by
  intro hsame
  have hcompletes : (uninterrupted twoFormulas .asSent).1 = .ok () := rfl
  have hdocuments := (hsame twoFormulas .empty _ .asSent .reversed .refl
    (Alone.Stops.eval (answered_done true) hcompletes)).documents .sdeBlueprints 200
  exact absurd (congrArg (Option.map BlueprintDocument.productTypeId) hdocuments) (by decide)

end Attempts

end EveBuild.Migrations
