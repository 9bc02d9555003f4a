import EveBuild.Auth.Model
import EveBuild.Cache.Entries
import EveBuild.Data.Delivery
import EveBuild.Effect.System

/-!
# Cached lists of characters and corporations

`app/services/cache.py`, `app/services/esi_cache.py` and the lists of
`app/services/character_data.py`: assets, blueprints and industry jobs, which are merged
with those of a corporation, and colonies, with the requests to ESI that they make.

`caching` runs any number of reads of the lists, merged or not, and refreshes at the same
time against Redis, MongoDB, the clock and ESI.

* Redis may be disabled.  A call of Redis or MongoDB is carried out, or fails after
  any part of it has been carried out; a key of Redis can expire at any time.
* What ESI answers is not determined.  A page is the list of its entries with the
  `X-Pages` header.
* An identifier that a `cast` takes for granted can be `None`; then `None` is what
  the cache key, the query and the path have.
* Counters and histograms are left out.
-/

namespace EveBuild.Cache

open Effect

/-! ## Calls -/

/-- What can be raised. -/
inductive CacheError
  | httpStatus (statusCode : ℕ)
  | network
  | keyError
  | redis
  | database
deriving DecidableEq

/-- The paths of ESI. -/
inductive Endpoint
  | charactersAssets
  | charactersBlueprints
  | charactersIndustryJobs
  | corporationsAssets
  | corporationsBlueprints
  | corporationsIndustryJobs
  | charactersPlanets
  | charactersPlanetDetail (planetId : Value)
deriving DecidableEq

/-- A page of entries.  A path that answers with a single object has a page of one entry. -/
structure Response where
  entries : List Document
  totalPages : ℤ

inductive Op
  | mget (keys : List String)
  | setMany (items : List (String × Value)) (ttlSeconds : ℕ)
  | delete (keys : List String)
  | deleteMany (collectionName field : String) (id : Option ℤ)
  | insertMany (collectionName : String) (documents : List Document)
  | utcnow
  | get (endpoint : Endpoint) (id : Option ℤ) (accessToken : String) (page : Option ℤ)

abbrev Op.Answer : Op → Type
  | mget _ => List (Option Value)
  | setMany .. => Unit
  | delete _ => Unit
  | deleteMany .. => Unit
  | insertMany .. => Unit
  | utcnow => ℤ
  | get .. => Response

abbrev signature : Signature := ⟨Op, Op.Answer⟩

abbrev Code := Program signature CacheError

def await (op : Op) : Code op.Answer := Program.perform (S := signature) op

/-! ## Redis -/

/-- An error of Redis is counted and otherwise ignored. -/
def ignoringRedisError {β : Type} (program : Code β) (value : β) : Code β :=
  tryCatch program fun error => if error = .redis then return value else throw error

/-- `get_many_cached`. -/
def getManyCached (redis : Bool) (keys : List String) : Code (List (String × Value)) := do
  if redis = false ∨ keys = [] then return []
  ignoringRedisError
    (do
      let rawValues ← await (.mget keys)
      return (keys.zip rawValues).filterMap fun pair => pair.2.map fun raw => (pair.1, raw))
    []

/-- `set_many_cached`. -/
def setManyCached (redis : Bool) (items : List (String × Value)) (ttlSeconds : ℕ) :
    Code Unit := do
  if redis = false ∨ items = [] then return ()
  ignoringRedisError (await (.setMany items ttlSeconds)) ()

/-- `delete_cached`. -/
def deleteCached (redis : Bool) (keys : List String) : Code Unit := do
  if redis = false ∨ keys = [] then return ()
  ignoringRedisError (await (.delete keys)) ()

/-! ## Lists -/

/-- An identifier in an f-string. -/
def idText : Option ℤ → String
  | some id => toString id
  | none => "None"

/-- `f"{cache_key_prefix}:{id}"`. -/
def cacheKey (cacheKeyPrefix : String) (id : Option ℤ) : String :=
  cacheKeyPrefix ++ ":" ++ idText id

/-- An identifier in a document or a query. -/
def idValue : Option ℤ → Value
  | some id => .int id
  | none => .null

/-- `{field: id, "cached_at": now, **entry_dict}`. -/
def taggedDocument (field : String) (id : Option ℤ) (now : ℤ) (entry : Document) : Document :=
  entry.entries.foldl (fun document pair => document.set pair.1 pair.2)
    ((Dict.single field (idValue id)).set "cached_at" (.date now))

/-- The documents of a list, each with the time. -/
def taggedDocuments (field : String) (id : Option ℤ) : List Document → Code (List Document)
  | [] => return []
  | entry :: entries => do
      let now ← await .utcnow
      let documents ← taggedDocuments field id entries
      return taggedDocument field id now entry :: documents

/-- The documents of a list are deleted, and those of the new list inserted. -/
def replaceDocuments (collectionName field : String) (id : Option ℤ) (entries : List Document) :
    Code Unit := do
  await (.deleteMany collectionName field id)
  if entries = [] then return ()
  let documents ← taggedDocuments field id entries
  await (.insertMany collectionName documents)

/-- What `cached_character_list` and `cached_corporation_list` share: they differ in the
field that their documents are tagged with. -/
def cachedList (field : String) (redis : Bool) (collectionName cacheKeyPrefix : String)
    (id : Option ℤ) (ttlSeconds : ℕ) (entryType : EntryType) (fetch : Code (List Document)) :
    Code (List Document) := do
  let cached ← getManyCached redis [cacheKey cacheKeyPrefix id]
  match (cached.lookup (cacheKey cacheKeyPrefix id)).bind entryType.decode with
  | some entries => return entries
  | none =>
      let entries ← fetch
      replaceDocuments collectionName field id entries
      setManyCached redis [(cacheKey cacheKeyPrefix id, EntryType.encode entries)] ttlSeconds
      return entries

/-- `cached_character_list`. -/
def cachedCharacterList (redis : Bool) (collectionName cacheKeyPrefix : String) (characterId : ℤ)
    (ttlSeconds : ℕ) (entryType : EntryType) (fetch : Code (List Document)) :
    Code (List Document) :=
  cachedList "character_id" redis collectionName cacheKeyPrefix (some characterId) ttlSeconds
    entryType fetch

/-- `cached_corporation_list`. -/
def cachedCorporationList (redis : Bool) (collectionName cacheKeyPrefix : String)
    (corporationId : Option ℤ) (ttlSeconds : ℕ) (entryType : EntryType)
    (fetch : Code (List Document)) : Code (List Document) :=
  cachedList "corporation_id" redis collectionName cacheKeyPrefix corporationId ttlSeconds
    entryType fetch

/-- What `invalidate_character_list` and `invalidate_corporation_list` share. -/
def invalidateList (field : String) (redis : Bool) (collectionName cacheKeyPrefix : String)
    (id : Option ℤ) : Code Unit := do
  await (.deleteMany collectionName field id)
  deleteCached redis [cacheKey cacheKeyPrefix id]

/-- `invalidate_character_list`. -/
def invalidateCharacterList (redis : Bool) (collectionName cacheKeyPrefix : String)
    (characterId : ℤ) : Code Unit :=
  invalidateList "character_id" redis collectionName cacheKeyPrefix (some characterId)

/-- `invalidate_corporation_list`. -/
def invalidateCorporationList (redis : Bool) (collectionName cacheKeyPrefix : String)
    (corporationId : Option ℤ) : Code Unit :=
  invalidateList "corporation_id" redis collectionName cacheKeyPrefix corporationId

/-! ## ESI -/

/-- The pages from `page` on. -/
def getPagesFrom (endpoint : Endpoint) (id : Option ℤ) (accessToken : String) :
    ℤ → ℕ → List Document → Code (List Document)
  | _, 0, results => return results
  | page, remaining + 1, results => do
      let response ← await (.get endpoint id accessToken (some page))
      getPagesFrom endpoint id accessToken (page + 1) remaining (results ++ response.entries)

/-- `_get_all_pages`. -/
def getAllPages (endpoint : Endpoint) (id : Option ℤ) (accessToken : String) :
    Code (List Document) := do
  let firstResponse ← await (.get endpoint id accessToken (some 1))
  getPagesFrom endpoint id accessToken 2 (firstResponse.totalPages - 1).toNat firstResponse.entries

/-- The instances that are made of the entries of ESI. -/
def parseEntries (entryType : EntryType) (rawEntries : List Document) : Code (List Document) :=
  match rawEntries.mapM entryType.ofRaw with
  | some entries => return entries
  | none => throw .keyError

/-- A list that comes in pages. -/
def getPagedList (endpoint : Endpoint) (entryType : EntryType) (id : Option ℤ)
    (accessToken : String) : Code (List Document) := do
  let rawEntries ← getAllPages endpoint id accessToken
  parseEntries entryType rawEntries

/-- `esi.get_character_industry_jobs` is not paged. -/
def getUnpagedList (endpoint : Endpoint) (entryType : EntryType) (id : Option ℤ)
    (accessToken : String) : Code (List Document) := do
  let response ← await (.get endpoint id accessToken none)
  parseEntries entryType response.entries

/-- `AssetEntry`. -/
def assetEntry : EntryType where
  fields := [("item_id", true), ("type_id", true), ("location_id", true), ("location_flag", true),
    ("location_type", true), ("quantity", true), ("is_singleton", true)]
  nodup_names := by decide

def sampleAsset : Document := assetEntry.build fun _ => .int 7

/-- `BlueprintEntry`. -/
def blueprintEntry : EntryType where
  fields := [("item_id", true), ("type_id", true), ("location_id", true), ("location_flag", true),
    ("quantity", true), ("runs", true), ("material_efficiency", true), ("time_efficiency", true)]
  nodup_names := by decide

/-- `IndustryJobEntry`. -/
def industryJobEntry : EntryType where
  fields := [("job_id", true), ("activity_id", true), ("blueprint_id", true),
    ("blueprint_type_id", true), ("product_type_id", false), ("facility_id", true), ("runs", true),
    ("status", true), ("start_date", true), ("end_date", true)]
  nodup_names := by decide

/-- `ColonyEntry`. -/
def colonyEntry : EntryType where
  fields := [("planet_id", true), ("solar_system_id", true), ("planet_type", true),
    ("owner_id", true), ("last_update", true), ("upgrade_level", true), ("num_pins", true)]
  nodup_names := by decide

/-- `ColonyRecord`. -/
def colonyRecord : EntryType where
  fields := colonyEntry.fields ++ [("pins", false), ("links", false), ("routes", false)]
  nodup_names := by decide

/-- `esi.get_character_colony_detail`, with all that ESI answers. -/
def getCharacterColonyDetail (accessToken : String) (characterId : ℤ) (planetId : Value) :
    Code Document := do
  let response ← await (.get (.charactersPlanetDetail planetId) (some characterId) accessToken none)
  match response.entries with
  | [data] => return data
  | _ => throw .keyError

/-- A `ColonyRecord` of a summary and its detail, of which the lists can be missing. -/
def mergeColony (summary data : Document) : Document :=
  colonyRecord.build fun name =>
    if name ∈ colonyEntry.names then summary.field name else data.getD name (.array [])

/-! ## Character data -/

/-- `_Source`, without its label. -/
structure Source where
  collectionName : String
  cacheKeyPrefix : String

def assetsSource : Source := ⟨"assets", "character_assets"⟩
def blueprintsSource : Source := ⟨"blueprints", "character_blueprints"⟩
def industryJobsSource : Source := ⟨"industry_jobs", "character_industry_jobs"⟩
def coloniesSource : Source := ⟨"planetary_colonies", "character_colonies"⟩
def corpAssetsSource : Source := ⟨"corp_assets", "corporation_assets"⟩
def corpBlueprintsSource : Source := ⟨"corp_blueprints", "corporation_blueprints"⟩
def corpIndustryJobsSource : Source := ⟨"corp_industry_jobs", "corporation_industry_jobs"⟩

/-- `_PERSONAL_SOURCES`. -/
def personalSources : List Source :=
  [assetsSource, blueprintsSource, industryJobsSource, coloniesSource]

/-- `_CORP_SOURCES`. -/
def corpSources : List Source := [corpAssetsSource, corpBlueprintsSource, corpIndustryJobsSource]

def assetsCacheTtlSeconds : ℕ := 60 * 60
def blueprintsCacheTtlSeconds : ℕ := 60 * 60
def industryJobsCacheTtlSeconds : ℕ := 60 * 60
def coloniesCacheTtlSeconds : ℕ := 60 * 15

/-- `corp_data_connected`. -/
def corpDataConnected (character : Auth.CharacterDocument) : Bool :=
  character.corpRefreshToken.isSome

/-- `for summary in summaries`. -/
def fetchColonyDetails (accessToken : String) (characterId : ℤ) :
    List Document → Code (List Document)
  | [] => return []
  | summary :: summaries => do
      let data ← getCharacterColonyDetail accessToken characterId (summary.field "planet_id")
      let records ← fetchColonyDetails accessToken characterId summaries
      return mergeColony summary data :: records

/-- `_fetch_colony_records`. -/
def fetchColonyRecords (accessToken : String) (characterId : ℤ) : Code (List Document) := do
  let summaries ← getUnpagedList .charactersPlanets colonyEntry (some characterId) accessToken
  fetchColonyDetails accessToken characterId summaries

/-- `get_character_colonies`. -/
def getCharacterColonies (redis : Bool) (accessToken : String) (characterId : ℤ) :
    Code (List Document) :=
  cachedCharacterList redis coloniesSource.collectionName coloniesSource.cacheKeyPrefix characterId
    coloniesCacheTtlSeconds colonyRecord (fetchColonyRecords accessToken characterId)

/-- `_corp_list_or_none`. -/
def corpListOrNone (redis : Bool) (source : Source) (corporationId : Option ℤ) (ttlSeconds : ℕ)
    (entryType : EntryType) (fetch : Code (List Document)) : Code (Option (List Document)) :=
  tryCatch
    (do
      let entries ← cachedCorporationList redis source.collectionName source.cacheKeyPrefix
        corporationId ttlSeconds entryType fetch
      return some entries)
    fun error =>
      if error = .httpStatus 401 ∨ error = .httpStatus 403 then return none else throw error

/-- The lists that are merged. -/
inductive Kind
  | assets
  | blueprints
  | industryJobs
deriving DecidableEq

namespace Kind

/-- `get_character_assets`, `get_character_blueprints` and `get_character_industry_jobs`. -/
def getCharacterList (redis : Bool) (accessToken : String) (characterId : ℤ) :
    Kind → Code (List Document)
  | assets =>
      cachedCharacterList redis assetsSource.collectionName assetsSource.cacheKeyPrefix characterId
        assetsCacheTtlSeconds assetEntry
        (getPagedList .charactersAssets assetEntry (some characterId) accessToken)
  | blueprints =>
      cachedCharacterList redis blueprintsSource.collectionName blueprintsSource.cacheKeyPrefix
        characterId blueprintsCacheTtlSeconds blueprintEntry
        (getPagedList .charactersBlueprints blueprintEntry (some characterId) accessToken)
  | industryJobs =>
      cachedCharacterList redis industryJobsSource.collectionName industryJobsSource.cacheKeyPrefix
        characterId industryJobsCacheTtlSeconds industryJobEntry
        (getUnpagedList .charactersIndustryJobs industryJobEntry (some characterId) accessToken)

/-- `get_corporation_assets`, `get_corporation_blueprints` and
`get_corporation_industry_jobs`. -/
def getCorporationList (redis : Bool) (accessToken : String) (corporationId : Option ℤ) :
    Kind → Code (Option (List Document))
  | assets =>
      corpListOrNone redis corpAssetsSource corporationId assetsCacheTtlSeconds assetEntry
        (getPagedList .corporationsAssets assetEntry corporationId accessToken)
  | blueprints =>
      corpListOrNone redis corpBlueprintsSource corporationId blueprintsCacheTtlSeconds
        blueprintEntry
        (getPagedList .corporationsBlueprints blueprintEntry corporationId accessToken)
  | industryJobs =>
      corpListOrNone redis corpIndustryJobsSource corporationId industryJobsCacheTtlSeconds
        industryJobEntry
        (getPagedList .corporationsIndustryJobs industryJobEntry corporationId accessToken)

end Kind

/-- `_merge_corp`.  A missing access token is `None` in the header of the request. -/
def mergeCorp (character : Auth.CharacterDocument) (personal : List Document)
    (fetchCorp : String → Option ℤ → Code (Option (List Document))) :
    Code (List Document × Bool) := do
  if corpDataConnected character = false then return (personal, false)
  match ← fetchCorp (character.corpAccessToken.getD "None") character.corporationId with
  | none => return (personal, false)
  | some corpEntries => return (personal ++ corpEntries, true)

/-- `get_merged_assets`, `get_merged_blueprints` and `get_merged_industry_jobs`. -/
def Kind.getMergedList (redis : Bool) (character : Auth.CharacterDocument) (kind : Kind) :
    Code (List Document × Bool) := do
  let personal ← kind.getCharacterList redis character.accessToken character.characterId
  mergeCorp character personal fun token corpId => kind.getCorporationList redis token corpId

/-- `for source in sources`. -/
def invalidateAll (invalidate : Source → Code Unit) : List Source → Code Unit
  | [] => return ()
  | source :: sources => do
      invalidate source
      invalidateAll invalidate sources

/-- `refresh_character_data`. -/
def refreshCharacterData (redis : Bool) (character : Auth.CharacterDocument) : Code Unit := do
  invalidateAll (fun source => invalidateCharacterList redis source.collectionName
    source.cacheKeyPrefix character.characterId) personalSources
  if corpDataConnected character = true then
    invalidateAll (fun source => invalidateCorporationList redis source.collectionName
      source.cacheKeyPrefix character.corporationId) corpSources

/-! ## The system -/

/-- The values in Redis, and the documents of the collections in MongoDB. -/
structure World where
  cache : String → Option Value
  mirror : String → List Document

/-- Nothing has been stored. -/
def emptyWorld : World := ⟨fun _ => none, fun _ => []⟩

namespace World

variable (world : World)

def setCache (items : List (String × Value)) : World where
  cache := items.foldl (fun cache item => Function.update cache item.1 (some item.2)) world.cache
  mirror := world.mirror

def deleteCache (keys : List String) : World where
  cache := keys.foldl (fun cache key => Function.update cache key none) world.cache
  mirror := world.mirror

/-- The collection without the deleted ones of the documents that the query matches. -/
def deleteMany (collectionName field : String) (id : Option ℤ) (delivery : Delivery) : World where
  cache := world.cache
  mirror :=
    let documents := world.mirror collectionName
    let matching := (List.range documents.length).filter fun index =>
      (documents[index]?.map fun document => document.field field) = some (idValue id)
    let kept := documents.zipIdx.filter fun pair => pair.2 ∉ delivery.parts matching
    Function.update world.mirror collectionName (kept.map Prod.fst)

def insertMany (collectionName : String) (documents : List Document) : World where
  cache := world.cache
  mirror := Function.update world.mirror collectionName (world.mirror collectionName ++ documents)

end World

/-- A request. -/
inductive Start
  | characterList (kind : Kind) (accessToken : String) (characterId : ℤ)
  | characterColonies (accessToken : String) (characterId : ℤ)
  | corporationList (kind : Kind) (accessToken : String) (corporationId : Option ℤ)
  | mergedList (kind : Kind) (character : Auth.CharacterDocument)
  | refresh (character : Auth.CharacterDocument)

/-- What a request comes to. -/
inductive Reply
  | list (entries : List Document)
  | corporationList (entries : Option (List Document))
  | mergedList (entries : List Document) (included : Bool)
  | refreshed

/-- What is not determined. -/
inductive Choice
  | utcnow (now : ℤ)
  | redis (delivery : Delivery)
  | database (delivery : Delivery)
  | esi (answer : Except CacheError Response)

/-- A key of Redis expires. -/
inductive Tick
  | expire (key : String)

def respond (op : Op) (choice : Choice) (world : World) :
    Option (Except CacheError op.Answer × World) :=
  match op, choice with
  | .mget keys, .redis delivery => some (delivery.answer CacheError.redis (keys.map world.cache), world)
  | .setMany items _, .redis delivery =>
      some (delivery.answer CacheError.redis (), world.setCache (delivery.parts items))
  | .delete keys, .redis delivery =>
      some (delivery.answer CacheError.redis (), world.deleteCache (delivery.parts keys))
  | .deleteMany collectionName field id, .database delivery =>
      some (delivery.answer CacheError.database (), world.deleteMany collectionName field id delivery)
  | .insertMany collectionName documents, .database delivery =>
      some (delivery.answer CacheError.database (),
        world.insertMany collectionName (delivery.parts documents))
  | .utcnow, .utcnow now => some (.ok now, world)
  | .get .., .esi answer => some (answer, world)
  | _, _ => none

/-- Any number of requests. -/
def caching (redis : Bool) : System signature CacheError Reply World Start Choice Tick where
  body
    | .characterList kind accessToken characterId => do
        return .list (← kind.getCharacterList redis accessToken characterId)
    | .characterColonies accessToken characterId => do
        return .list (← getCharacterColonies redis accessToken characterId)
    | .corporationList kind accessToken corporationId => do
        return .corporationList (← kind.getCorporationList redis accessToken corporationId)
    | .mergedList kind character => do
        let (entries, included) ← kind.getMergedList redis character
        return .mergedList entries included
    | .refresh character => do
        refreshCharacterData redis character
        return .refreshed
  enter _ _ world := some world
  respond _ := respond
  crash _ world := world
  tick
    | .expire key, world => some (world.deleteCache [key])

abbrev CacheLog := List (Call signature CacheError)

abbrev CacheMoment := Moment signature CacheError World Start

abbrev CacheConfig := Config signature CacheError Reply World Start

abbrev CacheEvent := Event Start Choice Tick

end EveBuild.Cache
