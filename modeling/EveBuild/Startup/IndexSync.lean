import EveBuild.Data.Dict
import EveBuild.Effect.System

/-!
# Index synchronisation

`sync_indexes` of `app/db/index_sync.py` brings the indexes of the database in line
with the files of a directory: `load_index_configs` reads and checks the files, each
index whose record in `_index_config` differs from the file is dropped and created
anew, and indexes that are recorded but no longer in a file are dropped.

`indexSync` runs any number of these calls against MongoDB.  Every index that is
there after any run was there before or is in a file (`index_of_reaches`), with the
uniqueness that the file gives it.  The files that the repository ships make no index
of `market_orders` unique (`uniqueKeys_shipped`).
-/

namespace EveBuild.IndexSync

open Effect

/-! ## Files -/

/-- The options of an index that are passed on, where the file has them. -/
structure IndexOptions where
  unique : Option Bool := none
  sparse : Option Bool := none
  expireAfterSeconds : Option ℤ := none
deriving DecidableEq

/-- An index in a file.  A name or keys can be missing. -/
structure IndexSpec where
  name? : Option String
  keys? : Option (List (String × ℤ))
  options : IndexOptions := {}

/-- A file of the directory. -/
structure IndexFile where
  path : String
  collection : String
  indexes : List IndexSpec

/-- An index that has a name and keys. -/
structure Index where
  name : String
  keys : List (String × ℤ)
  options : IndexOptions
deriving DecidableEq

/-- What can be raised.  The first two are `ValueError`s:
`{path}: index spec for collection {collection!r} is missing required 'name' or 'keys'`
and `{path}: duplicate index name {name!r} for collection {collection!r}`. -/
inductive SyncError
  | missingNameOrKeys (path collection : String)
  | duplicateName (path name collection : String)
  | operationFailure
  | connection
deriving DecidableEq

/-- The indexes of one file, checked. -/
def checkIndexes (path collection : String) :
    List String → List IndexSpec → Except SyncError (List Index)
  | _, [] => .ok []
  | seenNames, spec :: specs =>
      let name := spec.name?.getD ""
      let keys := spec.keys?.getD []
      if name = "" ∨ keys = [] then .error (.missingNameOrKeys path collection)
      else if name ∈ seenNames then .error (.duplicateName path name collection)
      else
        (checkIndexes path collection (name :: seenNames) specs).map fun indexes =>
          { name, keys, options := spec.options } :: indexes

/-- `load_index_configs`, on the files of the directory in the order of their paths. -/
def loadIndexConfigs : List IndexFile → Dict String (List Index) →
    Except SyncError (Dict String (List Index))
  | [], configs => .ok configs
  | file :: files, configs =>
      match checkIndexes file.path file.collection [] file.indexes with
      | .error error => .error error
      | .ok indexes => loadIndexConfigs files
          (configs.set file.collection (configs.getD file.collection [] ++ indexes))

/-! ## Calls -/

/-- A document of `_index_config`. -/
structure IndexRecord where
  id : String
  collection : String
  index : Index
deriving DecidableEq

inductive Op
  | findRecord (id : String)
  | dropIndex (collection name : String)
  | createIndex (collection : String) (index : Index)
  | replaceRecord (record : IndexRecord)
  | findRecords
  | deleteRecord (id : String)

abbrev Op.Answer : Op → Type
  | findRecord _ => Option IndexRecord
  | dropIndex .. => Unit
  | createIndex .. => Unit
  | replaceRecord _ => Unit
  | findRecords => List IndexRecord
  | deleteRecord _ => Unit

abbrev signature : Signature := ⟨Op, Op.Answer⟩

abbrev Code := Program signature SyncError

def await (op : Op) : Code op.Answer := Program.perform (S := signature) op

/-! ## `sync_indexes` -/

/-- `_drop_index_if_exists`. -/
def dropIndexIfExists (collection name : String) : Code Unit :=
  tryCatch (await (.dropIndex collection name)) fun error =>
    if error = .operationFailure then return () else throw error

/-- `record_id`. -/
def recordId (collection name : String) : String := collection ++ "." ++ name

/-- One index of the files. -/
def syncIndex (collection : String) (index : Index) : Code Unit := do
  let existingRecord ← await (.findRecord (recordId collection index.name))
  if existingRecord.map IndexRecord.index = some index then return ()
  dropIndexIfExists collection index.name
  await (.createIndex collection index)
  await (.replaceRecord { id := recordId collection index.name, collection, index })

/-- `for spec in specs`. -/
def syncCollection (collection : String) : List Index → Code Unit
  | [] => return ()
  | index :: indexes => do
      syncIndex collection index
      syncCollection collection indexes

/-- `for collection, specs in desired.items()`. -/
def syncCollections : List (String × List Index) → Code Unit
  | [] => return ()
  | (collection, indexes) :: rest => do
      syncCollection collection indexes
      syncCollections rest

/-- `desired_ids`. -/
def desiredIds (desired : Dict String (List Index)) : List String :=
  desired.entries.flatMap fun (collection, indexes) =>
    indexes.map fun index => recordId collection index.name

/-- `async for record in db["_index_config"].find({})`. -/
def dropUnmanaged (desiredIds : List String) : List IndexRecord → Code Unit
  | [] => return ()
  | record :: records => do
      if record.id ∉ desiredIds then
        dropIndexIfExists record.collection record.index.name
        await (.deleteRecord record.id)
      dropUnmanaged desiredIds records

/-- `sync_indexes`. -/
def syncIndexes (files : List IndexFile) : Code Unit := do
  let desired ← .ofExcept (loadIndexConfigs files .empty)
  syncCollections desired.entries
  let records ← await .findRecords
  dropUnmanaged (desiredIds desired) records

/-! ## MongoDB -/

/-- The indexes of all collections, and `_index_config`. -/
structure Database where
  indexes : List (String × Index)
  records : List IndexRecord

/-- The fields of the unique indexes of a collection. -/
def Database.uniqueKeys (database : Database) (collection : String) : List (List String) :=
  (database.indexes.filter fun entry =>
    entry.1 = collection ∧ entry.2.options.unique = some true).map fun entry =>
      entry.2.keys.map Prod.fst

/-- The server carries out the call, refuses it for a reason of its own, or the
connection is lost, before or after the server has carried it out. -/
inductive Choice
  | done
  | refused
  | lost (arrived : Bool)

/-- The server keeps two indexes of a collection apart by their names, and has only one of
the same keys and options. -/
def Conflicts (first second : Index) : Prop :=
  first.name = second.name ∨ first.keys = second.keys ∧ first.options = second.options

instance (first second : Index) : Decidable (Conflicts first second) :=
  inferInstanceAs (Decidable (_ ∨ _))

/-- What the server answers when it carries out a call. -/
def carryOut (database : Database) : (op : Op) → Except SyncError op.Answer × Database
  | .findRecord id => (.ok (database.records.find? fun record => record.id = id), database)
  | .dropIndex collection name =>
      if database.indexes.any fun entry => entry.1 = collection ∧ entry.2.name = name then
        (.ok (), { database with indexes := database.indexes.filter fun entry =>
          ¬ (entry.1 = collection ∧ entry.2.name = name) })
      else (.error .operationFailure, database)
  | .createIndex collection index =>
      if (collection, index) ∈ database.indexes then (.ok (), database)
      else if database.indexes.any fun entry =>
          entry.1 = collection ∧ Conflicts entry.2 index then
        (.error .operationFailure, database)
      else (.ok (), { database with indexes := database.indexes ++ [(collection, index)] })
  | .replaceRecord record =>
      (.ok (), { database with records :=
        (database.records.filter fun other => other.id ≠ record.id) ++ [record] })
  | .findRecords => (.ok database.records, database)
  | .deleteRecord id =>
      (.ok (), { database with records := database.records.filter fun record => record.id ≠ id })

def respond (op : Op) (choice : Choice) (database : Database) :
    Except SyncError op.Answer × Database :=
  match choice with
  | .done => carryOut database op
  | .refused => (.error .operationFailure, database)
  | .lost arrived =>
      (.error .connection, if arrived then (carryOut database op).2 else database)

/-- Any number of calls of `sync_indexes` on one directory. -/
def indexSync (files : List IndexFile) :
    System signature SyncError Unit Database Unit Choice Empty where
  body _ := syncIndexes files
  enter _ _ database := some database
  respond _ op choice database := some (respond op choice database)
  crash _ database := database
  tick := nofun

/-! ## What can be created -/

/-- The index is in one of the files, under the collection. -/
def Configured (files : List IndexFile) (collection : String) (index : Index) : Prop :=
  ∃ file ∈ files, file.collection = collection ∧ ∃ spec ∈ file.indexes,
    spec.name? = some index.name ∧ spec.keys? = some index.keys ∧ spec.options = index.options

/-- Indexes are created only if they are in one of the files. -/
def Allowed (files : List IndexFile) : Op → Prop
  | .createIndex collection index => Configured files collection index
  | _ => True

theorem mem_checkIndexes_iff {path collection : String} {specs : List IndexSpec}
    {seenNames : List String} {indexes : List Index}
    (hcheck : checkIndexes path collection seenNames specs = .ok indexes) {index : Index} :
    index ∈ indexes ↔ ∃ spec ∈ specs, spec.name? = some index.name ∧
      spec.keys? = some index.keys ∧ spec.options = index.options := by
  induction specs generalizing seenNames indexes with
  | nil =>
      obtain rfl := Except.ok.inj hcheck
      simp
  | cons spec specs ih =>
      rw [checkIndexes] at hcheck
      split_ifs at hcheck with hmissing hseen
      cases hrest : checkIndexes path collection (spec.name?.getD "" :: seenNames) specs with
      | error error =>
          rw [hrest] at hcheck
          cases hcheck
      | ok rest =>
          rw [hrest] at hcheck
          obtain rfl := Except.ok.inj hcheck
          obtain ⟨hname, hkeys⟩ := not_or.mp hmissing
          -- the name and the keys are not missing
          have hspec : index = ⟨spec.name?.getD "", spec.keys?.getD [], spec.options⟩ ↔
              spec.name? = some index.name ∧ spec.keys? = some index.keys ∧
                spec.options = index.options := by
            obtain ⟨name?, keys?, options⟩ := spec
            obtain ⟨indexName, indexKeys, indexOptions⟩ := index
            cases name? with
            | none => simp at hname
            | some name =>
                cases keys? with
                | none => simp at hkeys
                | some keys => simp [eq_comm]
          rw [List.mem_cons, ih hrest, hspec, List.exists_mem_cons_iff]

/-- What is loaded is what is in the files. -/
theorem mem_getD_of_load {files : List IndexFile} {configs desired : Dict String (List Index)}
    (hload : loadIndexConfigs files configs = .ok desired) {collection : String} {index : Index} :
    index ∈ desired.getD collection [] ↔
      index ∈ configs.getD collection [] ∨ Configured files collection index := by
  induction files generalizing configs with
  | nil =>
      obtain rfl := Except.ok.inj hload
      simp [Configured]
  | cons file files ih =>
      rw [loadIndexConfigs] at hload
      split at hload
      · cases hload
      · rename_i new hcheck
        have hcons : Configured (file :: files) collection index ↔
            (file.collection = collection ∧ ∃ spec ∈ file.indexes,
              spec.name? = some index.name ∧ spec.keys? = some index.keys ∧
                spec.options = index.options) ∨ Configured files collection index :=
          List.exists_mem_cons_iff ..
        rw [ih hload, Dict.getD_set, hcons]
        by_cases heq : collection = file.collection
        · subst heq
          rw [if_pos rfl, List.mem_append, mem_checkIndexes_iff hcheck, or_assoc]
          simp
        · simp [heq, Ne.symm heq]

theorem mem_entries_of_load {files : List IndexFile} {desired : Dict String (List Index)}
    (hload : loadIndexConfigs files .empty = .ok desired) {collection : String} {index : Index} :
    (∃ indexes, (collection, indexes) ∈ desired.entries ∧ index ∈ indexes) ↔
      Configured files collection index := by
  have hmem : index ∈ desired.getD collection [] ↔ Configured files collection index := by
    rw [mem_getD_of_load hload, Dict.getD_empty]
    simp
  rw [← hmem]
  constructor
  · rintro ⟨indexes, hentry, hindex⟩
    rwa [Dict.getD_of_get? (Dict.get?_eq_some_iff.mpr hentry)]
  · intro hindex
    cases hget : desired.get? collection with
    | none => simp [Dict.getD, hget] at hindex
    | some indexes =>
        rw [Dict.getD_of_get? hget] at hindex
        exact ⟨indexes, Dict.get?_eq_some_iff.mp hget, hindex⟩

variable {files : List IndexFile}

theorem issues_dropIndexIfExists (collection name : String) :
    (dropIndexIfExists collection name).Issues (Allowed files) := by
  refine Program.Issues.tryCatch (Program.Issues.perform trivial) fun error => ?_
  split <;> trivial

theorem issues_syncIndex {collection : String} {index : Index}
    (hconfigured : Configured files collection index) :
    (syncIndex collection index).Issues (Allowed files) := by
  refine Program.Issues.bind (Program.Issues.perform trivial) fun existingRecord => ?_
  split
  · trivial
  · refine Program.Issues.bind (issues_dropIndexIfExists _ _) fun _ => ?_
    refine Program.Issues.bind (Program.Issues.perform hconfigured) fun _ => ?_
    exact Program.Issues.perform trivial

theorem issues_syncCollection {collection : String} {indexes : List Index}
    (hconfigured : ∀ index ∈ indexes, Configured files collection index) :
    (syncCollection collection indexes).Issues (Allowed files) := by
  induction indexes with
  | nil => trivial
  | cons index indexes ih =>
      exact Program.Issues.bind (issues_syncIndex (hconfigured index (List.mem_cons_self ..)))
        fun _ => ih fun other hother => hconfigured other (List.mem_cons_of_mem _ hother)

theorem issues_syncCollections {desired : List (String × List Index)}
    (hconfigured : ∀ collection indexes, (collection, indexes) ∈ desired →
      ∀ index ∈ indexes, Configured files collection index) :
    (syncCollections desired).Issues (Allowed files) := by
  induction desired with
  | nil => trivial
  | cons entry desired ih =>
      exact Program.Issues.bind
        (issues_syncCollection (hconfigured entry.1 entry.2 (List.mem_cons_self ..)))
        fun _ => ih fun collection indexes hentry =>
          hconfigured collection indexes (List.mem_cons_of_mem _ hentry)

theorem issues_dropUnmanaged (ids : List String) (records : List IndexRecord) :
    (dropUnmanaged ids records).Issues (Allowed files) := by
  induction records with
  | nil => trivial
  | cons record records ih =>
      rw [dropUnmanaged]
      split
      · refine Program.Issues.bind (issues_dropIndexIfExists _ _) fun _ => ?_
        exact Program.Issues.bind (Program.Issues.perform trivial) fun _ => ih
      · exact ih

/-- **A call creates only indexes of its files.** -/
theorem issues_syncIndexes (files : List IndexFile) :
    (syncIndexes files).Issues (Allowed files) := by
  rw [syncIndexes]
  cases hload : loadIndexConfigs files .empty with
  | error error => trivial
  | ok desired =>
      have hdesired : ∀ collection indexes, (collection, indexes) ∈ desired.entries →
          ∀ index ∈ indexes, Configured files collection index :=
        fun _ indexes hentry _ hindex =>
          (mem_entries_of_load hload).mp ⟨indexes, hentry, hindex⟩
      rw [Program.ofExcept_ok, Program.ret_bind]
      refine Program.Issues.bind (issues_syncCollections hdesired) fun _ => ?_
      exact Program.Issues.bind (Program.Issues.perform trivial) fun records =>
        issues_dropUnmanaged _ records

/-! ## What is there after a run -/

theorem mem_indexes_carryOut {database : Database} {op : Op} (hallowed : Allowed files op)
    {entry : String × Index} (hentry : entry ∈ (carryOut database op).2.indexes) :
    entry ∈ database.indexes ∨ Configured files entry.1 entry.2 := by
  cases op with
  | dropIndex collection name =>
      rw [carryOut] at hentry
      split at hentry
      · exact Or.inl (List.mem_of_mem_filter hentry)
      · exact Or.inl hentry
  | createIndex collection index =>
      rw [carryOut] at hentry
      split_ifs at hentry with hthere hname
      · exact Or.inl hentry
      · exact Or.inl hentry
      · rcases List.mem_append.mp hentry with hold | hnew
        · exact Or.inl hold
        · obtain rfl := List.mem_singleton.mp hnew
          exact Or.inr hallowed
  | findRecord id => exact Or.inl hentry
  | replaceRecord record => exact Or.inl hentry
  | findRecords => exact Or.inl hentry
  | deleteRecord id => exact Or.inl hentry

theorem mem_indexes_respond {database : Database} {op : Op} (hallowed : Allowed files op)
    {choice : Choice} {entry : String × Index}
    (hentry : entry ∈ (respond op choice database).2.indexes) :
    entry ∈ database.indexes ∨ Configured files entry.1 entry.2 := by
  cases choice with
  | done => exact mem_indexes_carryOut hallowed hentry
  | refused => exact Or.inl hentry
  | lost arrived =>
      cases arrived with
      | true => exact mem_indexes_carryOut hallowed hentry
      | false => exact Or.inl hentry

/-- **Indexes after a run.**  Whatever calls are made, fail or crash, an index that is
there was there before, or is in the files. -/
theorem index_of_reaches {database : Database}
    {config : Config signature SyncError Unit Database Unit}
    (hreaches : (indexSync files).Reaches .free (Config.initial _ _ _ _ database) config)
    {entry : String × Index} (hentry : entry ∈ config.moment.world.indexes) :
    entry ∈ database.indexes ∨ Configured files entry.1 entry.2 := by
  have hinvariant : config.Issues (Allowed files) ∧ ∀ entry ∈ config.moment.world.indexes,
      entry ∈ database.indexes ∨ Configured files entry.1 entry.2 := by
    refine hreaches.invariant (motive := fun config => config.Issues (Allowed files) ∧
      ∀ entry ∈ config.moment.world.indexes,
        entry ∈ database.indexes ∨ Configured files entry.1 entry.2)
      ⟨.initial, fun entry hentry => Or.inl hentry⟩ ?_
    intro before event after ⟨hissues, hindexes⟩ _ hstep
    refine ⟨hstep.issues (fun _ => issues_syncIndexes files) hissues, fun entry hentry => ?_⟩
    cases hstep with
    | start henter =>
        obtain rfl := Option.some_inj.mp henter
        exact hindexes entry hentry
    | call hthread hrespond =>
        obtain rfl := congrArg Prod.snd (Option.some_inj.mp hrespond)
        rcases mem_indexes_respond (hissues _ _ hthread).1 hentry with hold | hnew
        · exact hindexes entry hold
        · exact Or.inr hnew
    | crash hthread => exact hindexes entry hentry
    | @tick tick => cases tick
  exact hinvariant.2 entry hentry

/-! ## The files of the repository -/

/-- An ascending index of one field that has the field's name. -/
def ascending (name : String) : IndexSpec := { name? := some name, keys? := some [(name, 1)] }

/-- `app/config/mongo_indexes`. -/
def shippedFiles : List IndexFile :=
  [{ path := "industryActivity.json", collection := "industryActivityMaterials",
     indexes := [ascending "typeID", ascending "activityID"] },
   { path := "industryActivityMaterials.json", collection := "industryActivityMaterials",
     indexes := [ascending "typeID", ascending "activityID", ascending "materialTypeID"] },
   { path := "invTypes.json", collection := "invTypes",
     indexes := [ascending "typeID", ascending "typeName", ascending "groupID",
       ascending "marketGroupID"] },
   { path := "market_orders.json", collection := "market_orders",
     indexes :=
      [{ name? := some "scraped_at", keys? := some [("scraped_at", 1), ("ttl", 7200)] }] },
   { path := "plans.json", collection := "plans",
     indexes :=
      [ascending "character_id",
       { name? := some "character_id_updated_at",
         keys? := some [("character_id", 1), ("updated_at", -1)] }] },
   { path := "sde_blueprints.json", collection := "sde_blueprints",
     indexes := [ascending "product_type_id"] }]

theorem not_unique_shipped {collection : String} {index : Index}
    (hconfigured : Configured shippedFiles collection index) :
    index.options.unique ≠ some true := by
  obtain ⟨file, hfile, _, spec, hspec, _, _, hoptions⟩ := hconfigured
  have hall : ∀ file ∈ shippedFiles, ∀ spec ∈ file.indexes, spec.options.unique ≠ some true := by
    decide
  exact hoptions ▸ hall file hfile spec hspec

/-- **No unique index.**  The shipped files make no index unique. -/
theorem uniqueKeys_shipped {database : Database} {collection : String}
    (hdatabase : database.uniqueKeys collection = [])
    {config : Config signature SyncError Unit Database Unit}
    (hreaches : (indexSync shippedFiles).Reaches .free (Config.initial _ _ _ _ database) config) :
    config.moment.world.uniqueKeys collection = [] := by
  unfold Database.uniqueKeys at hdatabase ⊢
  rw [List.map_eq_nil_iff, List.filter_eq_nil_iff] at hdatabase ⊢
  intro entry hentry hunique
  rcases index_of_reaches hreaches hentry with hold | hnew
  · exact hdatabase entry hold hunique
  · exact not_unique_shipped hnew (of_decide_eq_true hunique).2

/-- A call on an empty database, each step of which is carried out. -/
def startupEvents : List (Event Unit Choice Empty) :=
  .start () :: List.replicate 47 (.call 0 .done)

theorem isSome_run_startup :
    ((indexSync shippedFiles).run (Config.initial _ _ _ _ ⟨[], []⟩) startupEvents).isSome := rfl

/-- An empty database after the call. -/
def prepared : Config signature SyncError Unit Database Unit :=
  ((indexSync shippedFiles).run (Config.initial _ _ _ _ ⟨[], []⟩) startupEvents).get
    isSome_run_startup

/-- The call has returned, and there is an index of `market_orders`. -/
example : (prepared.threads 0).bind Program.outcome? = some (.ok ()) ∧
    ("market_orders", ⟨"scraped_at", [("scraped_at", 1), ("ttl", 7200)], {}⟩) ∈
      prepared.moment.world.indexes := by
  decide

end EveBuild.IndexSync
