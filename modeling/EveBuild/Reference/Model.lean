import EveBuild.Cache.Calls
import EveBuild.Data.Grouping
import EveBuild.Effect.Sum
import EveBuild.Reference.Keys

/-!
# Lookups of reference data

The lookups of `app/services/sde.py` and `app/services/locations.py`, with the functions of
`app/services/esi.py` that they ask: first Redis, then MongoDB, and for what is not of the SDE
then ESI.  Seven kinds of data are kept in these ways (`Kind.store`), four of them by way of
ESI (`Resolver`).

`looking` runs any number of lookups at the same time against Redis, MongoDB, the clock and
ESI.

* A set of identifiers is the list in which it is iterated.
* What is cached, and what a document has in a field, is a JSON value.
* Redis may be disabled; a call of Redis or MongoDB is carried out, or fails after any part
  of it has been carried out, and a key of Redis can expire at any time.
* ESI answers a path and an identifier always with the same document, or fails.  It is taken
  to send no `true` or `false` for a `system_id`, which would pass for a number.
* What MongoDB held when each lookup was started is kept in the world; nothing reads it.
-/

namespace EveBuild.Reference

open Effect

/-! ## Calls -/

/-- What can be raised, besides the errors of Redis. -/
inductive LookupError
  | httpStatus (statusCode : ℕ)
  | network
  | database
  | keyError
deriving DecidableEq

/-- The paths of ESI, below `/universe`. -/
inductive Path
  | stations
  | structures
  | systems
  | planets
deriving DecidableEq

inductive Op
  /-- `find({"_id": {"$in": ids}})`, with a field that is asked not to be `None`. -/
  | find (collectionName : String) (ids : List ℤ) (notNull : Option String)
  /-- `update_one({"_id": id}, {"$set": fields}, upsert=True)`. -/
  | upsert (collectionName : String) (id : ℤ) (fields : List (String × Value))
  | utcnow
  | get (path : Path) (id : ℤ) (accessToken : Option String)

abbrev Op.Answer : Op → Type
  | find .. => List (ℤ × Document)
  | upsert .. => Unit
  | utcnow => ℤ
  | get .. => Document

abbrev lookupSignature : Signature := ⟨Op, Op.Answer⟩

/-- The calls of Redis, and the others. -/
abbrev signature : Signature := Cache.signature.sum lookupSignature

abbrev ReferenceError := Cache.CacheError ⊕ LookupError

abbrev Code := Program signature ReferenceError

def await (op : Op) : Code op.Answer := Program.perform (S := signature) (.inr op)

def onCache {β : Type} (program : Cache.Code β) : Code β :=
  program.left lookupSignature LookupError

/-- What a subscript raises. -/
def orKeyError {β : Type} : Option β → Code β
  | some value => return value
  | none => throw (.inr .keyError)

/-! ## Where data is kept -/

/-- `{"name": name, "system_id": system_id}`, also for the pair of the two. -/
def location (name systemId : Value) : Value :=
  .object [("name", name), ("system_id", systemId)]

def member (name : String) : Value → Option Value
  | .object members => members.lookup name
  | _ => none

@[simp] theorem member_name_location (name systemId : Value) :
    member "name" (location name systemId) = some name := rfl

@[simp] theorem member_systemId_location (name systemId : Value) :
    member "system_id" (location name systemId) = some systemId := rfl

/-- How a kind of data is kept. -/
structure Store where
  collectionName : String
  /-- The field that a query asks not to be `None`. -/
  notNull : Option String
  ofCached : Value → Option Value
  ofDocument : Document → Option Value

def Kind.store : Kind → Store
  | sdeType => ⟨"sde_types", none, some, fun document => some document.toValue⟩
  | sdeBlueprint => ⟨"sde_blueprints", none, some, fun document => some document.toValue⟩
  | sdeCategory => ⟨"sde_categories", none, some, fun document => some document.toValue⟩
  | locationDetails => {
      collectionName := "location_names"
      notNull := some "name"
      ofCached := fun value => do
        let name ← member "name" value
        let systemId ← member "system_id" value
        return location name systemId
      ofDocument := fun document => do
        let name ← document.get? "name"
        return location name (document.field "system_id") }
  | systemSecurity =>
      ⟨"system_security", none, some, fun document => document.get? "security_status"⟩
  | planetName => ⟨"planet_names", none, some, fun document => document.get? "name"⟩
  | systemName => ⟨"system_names", none, some, fun document => document.get? "name"⟩

section Lookups

variable (redis : Bool) (ttlSeconds : ℕ)

/-- `{id: cached[key] for id, key in cache_keys.items() if key in cached}`. -/
def cachedById (kind : Kind) (cached : List (String × Value)) (ids : List ℤ) :
    Option (List (ℤ × Value)) :=
  (ids.filterMap fun id => (cached.lookup (kind.key id)).map fun raw => (id, raw)).mapM
    fun (id, raw) => (kind.store.ofCached raw).map fun value => (id, value)

/-- What `cached_docs_by_id` and the four resolvers share: what is in Redis, and then what is
in MongoDB, which is stored in Redis. -/
def heldById (kind : Kind) (ids : List ℤ) : Code (Dict ℤ Value) := do
  let cached ← onCache (Cache.getManyCached redis (ids.map kind.key))
  let entries ← orKeyError (cachedById kind cached ids)
  let found := Dict.indexBy Prod.fst Prod.snd entries
  let missing := ids.filter fun id => id ∉ found.keys
  if missing = [] then return found
  let documents ← await (.find kind.store.collectionName missing kind.store.notNull)
  let newly ← orKeyError (documents.mapM fun (id, document) =>
    (kind.store.ofDocument document).map fun value => (id, value))
  onCache (Cache.setManyCached redis (newly.map fun (id, value) => (kind.key id, value))
    ttlSeconds)
  return newly.foldl (fun found entry => found.set entry.1 entry.2) found

/-- `cached_docs_by_id`. -/
abbrev cachedDocsById (kind : Kind) (ids : List ℤ) : Code (Dict ℤ Value) :=
  heldById redis ttlSeconds kind ids

/-- `type_docs`. -/
def typeDocs (typeIds : List ℤ) : Code (Dict ℤ Value) :=
  cachedDocsById redis ttlSeconds .sdeType typeIds

/-- `blueprint_docs`. -/
def blueprintDocs (typeIds : List ℤ) : Code (Dict ℤ Value) :=
  cachedDocsById redis ttlSeconds .sdeBlueprint typeIds

/-- `category_docs`. -/
def categoryDocs (categoryIds : List ℤ) : Code (Dict ℤ Value) :=
  cachedDocsById redis ttlSeconds .sdeCategory categoryIds

/-! ## ESI -/

/-- A lookup at ESI, and what is kept of its result. -/
structure Resolver where
  kind : Kind
  path : ℤ → Path
  accessToken : ℤ → Option String
  /-- What is made of an answer. -/
  ofAnswer : Document → Value
  /-- The result when ESI answers with an error. -/
  failed : Value
  /-- The result is not `None`, so that it is kept. -/
  isResolved : Value → Bool
  /-- The fields of the document. -/
  fields : Value → List (String × Value)
  /-- The document has the time as well. -/
  stamped : Bool

/-- A lookup raises no error of a status. -/
def Resolver.ask (resolver : Resolver) (id : ℤ) : Code Value :=
  tryCatch
    (do
      let data ← await (.get (resolver.path id) id (resolver.accessToken id))
      return resolver.ofAnswer data)
    fun error =>
      match error with
      | .inr (.httpStatus _) => return resolver.failed
      | error => throw error

/-- `cached_at`, for a document that has it. -/
def Resolver.stamp (resolver : Resolver) : Code (List (String × Value)) :=
  if resolver.stamped then do
    let now ← await .utcnow
    return [("cached_at", .date now)]
  else return []

/-- A result that is not `None` is kept. -/
def Resolver.keep (resolver : Resolver) (id : ℤ) (value : Value) : Code Unit :=
  if resolver.isResolved value then do
    let stamp ← resolver.stamp
    await (.upsert resolver.kind.store.collectionName id (resolver.fields value ++ stamp))
    onCache (Cache.setManyCached redis [(resolver.kind.key id, value)] ttlSeconds)
  else return ()

/-- `for id in ids - resolved.keys()`. -/
def Resolver.resolveEach (resolver : Resolver) : List ℤ → Dict ℤ Value → Code (Dict ℤ Value)
  | [], resolved => return resolved
  | id :: ids, resolved => do
      let value ← resolver.ask id
      resolver.keep redis ttlSeconds id value
      resolver.resolveEach ids (resolved.set id value)

/-- What the four resolvers do. -/
def Resolver.resolve (resolver : Resolver) (ids : List ℤ) : Code (Dict ℤ Value) := do
  let resolved ← heldById redis ttlSeconds resolver.kind ids
  resolver.resolveEach redis ttlSeconds (ids.filter fun id => id ∉ resolved.keys) resolved

def stringOrNull : Value → Value
  | .string text => .string text
  | _ => .null

def intOrNull : Value → Value
  | .number (.int value) => .number (.int value)
  | _ => .null

/-- `_STATION_ID_MAX`. -/
def stationIdMax : ℤ := 64000000000

/-- `_resolve_location_system_ids` with `get_location_details`. -/
def locationResolver (accessToken : String) : Resolver where
  kind := .locationDetails
  path id := if id < stationIdMax then .stations else .structures
  accessToken id := if id < stationIdMax then none else some accessToken
  ofAnswer data :=
    location (stringOrNull (data.field "name")) (intOrNull (data.field "system_id"))
  failed := location .null .null
  isResolved value := member "name" value ≠ some .null
  fields value := [("name", (member "name" value).getD .null),
    ("system_id", (member "system_id" value).getD .null)]
  stamped := true

/-- `_resolve_system_security_statuses` with `get_system_security_status`.  `float` is what
`float()` makes of a number. -/
def securityResolver (float : Number → Number) : Resolver where
  kind := .systemSecurity
  path _ := .systems
  accessToken _ := none
  ofAnswer data :=
    match data.field "security_status" with
    | .number status => .number (float status)
    | .bool status => .number (float (.int status.toNat))
    | _ => .null
  failed := .null
  isResolved value := value ≠ .null
  fields value := [("security_status", value)]
  stamped := false

/-- `resolve_planet_names` with `get_planet_name`. -/
def planetNameResolver : Resolver where
  kind := .planetName
  path _ := .planets
  accessToken _ := none
  ofAnswer data := stringOrNull (data.field "name")
  failed := .null
  isResolved value := value ≠ .null
  fields value := [("name", value)]
  stamped := true

/-- `resolve_system_names` with `get_system_name`. -/
def systemNameResolver : Resolver where
  kind := .systemName
  path _ := .systems
  accessToken _ := none
  ofAnswer data := stringOrNull (data.field "name")
  failed := .null
  isResolved value := value ≠ .null
  fields value := [("name", value)]
  stamped := true

/-- `resolve_planet_names`. -/
def resolvePlanetNames (planetIds : List ℤ) : Code (Dict ℤ Value) :=
  planetNameResolver.resolve redis ttlSeconds planetIds

/-- `resolve_system_names`. -/
def resolveSystemNames (systemIds : List ℤ) : Code (Dict ℤ Value) :=
  systemNameResolver.resolve redis ttlSeconds systemIds

structure LocationInfo where
  name : Value
  securityStatus : Value

/-- The system of a resolved location, if it has one. -/
def systemIdOf (value : Value) : Option ℤ :=
  match member "system_id" value with
  | some (.number (.int systemId)) => some systemId
  | _ => none

/-- The entry of `resolve_location_info` for a resolved location. -/
def locationInfo (securityBySystem : Dict ℤ Value) (value : Value) : LocationInfo where
  name := (member "name" value).getD .null
  securityStatus := (systemIdOf value).elim .null fun systemId =>
    securityBySystem.getD systemId .null

/-- `resolve_location_info`. -/
def resolveLocationInfo (float : Number → Number) (accessToken : String)
    (locationIds : List ℤ) : Code (Dict ℤ LocationInfo) := do
  let nameAndSystemByLocation ←
    (locationResolver accessToken).resolve redis ttlSeconds locationIds
  let systemIds := (nameAndSystemByLocation.values.filterMap systemIdOf).dedup
  let securityBySystem ← (securityResolver float).resolve redis ttlSeconds systemIds
  return Dict.indexBy Prod.fst (fun entry => locationInfo securityBySystem entry.2)
    nameAndSystemByLocation.entries

end Lookups

/-! ## The system -/

abbrev Collections := String → ℤ → Option Document

structure World where
  /-- Redis. -/
  cache : Cache.World
  /-- The documents of MongoDB by their `_id`. -/
  documents : Collections
  /-- The documents of MongoDB when each lookup was started. -/
  began : List Collections

/-- The documents that a query finds. -/
def Collections.find (documents : Collections) (collectionName : String) (ids : List ℤ)
    (notNull : Option String) : List (ℤ × Document) :=
  (ids.filterMap fun id => (documents collectionName id).map fun document => (id, document)).filter
    fun entry => notNull.all fun name => entry.2.field name ≠ .null

/-- An update of one document, which is made if there is none. -/
def Collections.upsert (documents : Collections) (collectionName : String) (id : ℤ)
    (fields : List (String × Value)) : Collections :=
  Function.update documents collectionName <| Function.update (documents collectionName) id <|
    some (fields.foldl (fun document pair => document.set pair.1 pair.2)
      ((documents collectionName id).getD (Dict.single "_id" (.int id))))

/-- A set of identifiers, in the order in which it is iterated. -/
abbrev IdSet := { ids : List ℤ // ids.Nodup }

/-- A lookup. -/
inductive Start
  | typeDocs (ids : IdSet)
  | blueprintDocs (ids : IdSet)
  | categoryDocs (ids : IdSet)
  | planetNames (ids : IdSet)
  | systemNames (ids : IdSet)
  | locationInfo (accessToken : String) (ids : IdSet)

/-- What a lookup comes to. -/
inductive Reply
  | values (found : Dict ℤ Value)
  | locations (found : Dict ℤ LocationInfo)

/-- What ESI does with a request. -/
inductive EsiOutcome
  | answered
  | status (statusCode : ℕ)
  | unreachable

inductive LookupChoice
  | database (delivery : Delivery)
  | utcnow (now : ℤ)
  | esi (outcome : EsiOutcome)

/-- What is not determined. -/
abbrev Choice := Cache.Choice ⊕ LookupChoice

section System

variable (esi : Path → ℤ → Document)

/-- A call that is not one of Redis. -/
def respondLookup (op : Op) (choice : LookupChoice) (world : World) :
    Option (Except LookupError op.Answer × World) :=
  match op, choice with
  | .find collectionName ids notNull, .database delivery =>
      some (delivery.answer LookupError.database
        (world.documents.find collectionName ids notNull), world)
  | .upsert collectionName id fields, .database delivery =>
      some (delivery.answer LookupError.database (), { world with
        documents := (delivery.parts [()]).foldl
          (fun documents _ => documents.upsert collectionName id fields) world.documents })
  | .utcnow, .utcnow now => some (.ok now, world)
  | .get path id _, .esi .answered => some (.ok (esi path id), world)
  | .get .., .esi (.status statusCode) => some (.error (.httpStatus statusCode), world)
  | .get .., .esi .unreachable => some (.error .network, world)
  | _, _ => none

def respond (op : signature.Op) (choice : Choice) (world : World) :
    Option (Except ReferenceError (signature.Answer op) × World) :=
  match op, choice with
  | .inl op, .inl choice =>
      (Cache.respond op choice world.cache).map fun answered =>
        (answered.1.mapError .inl, { world with cache := answered.2 })
  | .inr op, .inr choice =>
      (respondLookup esi op choice world).map fun answered =>
        (answered.1.mapError .inr, answered.2)
  | _, _ => none

/-- Any number of lookups. -/
def looking (redis : Bool) (ttlSeconds : ℕ) (float : Number → Number) :
    System signature ReferenceError Reply World Start Choice Cache.Tick where
  body
    | .typeDocs ids => do return .values (← typeDocs redis ttlSeconds ids)
    | .blueprintDocs ids => do return .values (← blueprintDocs redis ttlSeconds ids)
    | .categoryDocs ids => do return .values (← categoryDocs redis ttlSeconds ids)
    | .planetNames ids => do return .values (← resolvePlanetNames redis ttlSeconds ids)
    | .systemNames ids => do return .values (← resolveSystemNames redis ttlSeconds ids)
    | .locationInfo accessToken ids => do
        return .locations (← resolveLocationInfo redis ttlSeconds float accessToken ids)
  enter _ _ world := some { world with began := world.began ++ [world.documents] }
  respond _ := respond esi
  crash _ world := world
  tick
    | .expire key, world => some { world with cache := world.cache.deleteCache [key] }

end System

abbrev ReferenceLog := List (Call signature ReferenceError)

abbrev ReferenceMoment := Moment signature ReferenceError World Start

abbrev ReferenceConfig := Config signature ReferenceError Reply World Start

end EveBuild.Reference
